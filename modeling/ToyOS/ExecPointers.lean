import ToyOS.Library.Outcome
import ToyOS.UserCopy
import ToyOS.ExecFailure

namespace ToyOS.ExecPointers
open UserSpace Tlb Traps UserCopy Outcome List Nat
open ExecFailure (argMaxLen pathMax nameMax)

-- How sys_execv reads the path, the argument vector and the arguments. A call returns an error or stops the kernel.
inductive Stop where
  | errno (errno : Errno)
  | panic
deriving DecidableEq

-- What is at each address, and whether there is memory behind an untranslated address.
structure View where
  content : Nat → UInt8
  present : Nat → Bool
  random : Nat → Fin numTlb

-- The processor, and the addresses of all the bytes that have been read.
structure Walker where
  cpu : Cpu
  reads : List Nat

abbrev Walk := EStateM Stop Walker

def fail (errno : Errno) : Walk α := throw (.errno errno)
def panics : Walk α := throw .panic

variable (v : View)

def trap (handler : Bool) (code : ExCode) (addr : Nat) : Walk PUnit := do
  let s ← get
  match mipsTrap (some s.cpu.space) s.cpu.loaded s.cpu.tlb (v.random addr) true handler code addr with
  | .retried tlb => set {s with cpu := {s.cpu with tlb}}
  | .copyfail => fail .efault
  | _ => panics

def translate (handler : Bool) (addr : Nat) : Walk PUnit := do
  let s ← get
  if raises s.cpu.tlb .tlbl addr then trap v handler .tlbl addr
  else if tlbMapped addr = false ∧ v.present addr = false then trap v handler .dbe addr
  else pure ⟨⟩

def loadByte (handler : Bool) (addr : Nat) : Walk UInt8 := do
  translate v handler addr
  modify fun s => {s with reads := addr :: s.reads}
  pure (v.content addr)

def word (content : Nat → UInt8) (addr : Nat) : Nat :=
  ((content addr).toNat*256+(content (addr+1)).toNat)*65536+(content (addr+2)).toNat*256+(content (addr+3)).toNat

def loadWord (addr : Nat) : Walk Nat := do
  if addr % 4 ≠ 0 then trap v false .adel addr
  translate v false addr
  modify fun s => {s with reads := [addr,addr+1,addr+2,addr+3]++s.reads}
  pure (word v.content addr)

def slash : UInt8 := 47
def addresses : Nat := 2^32

def scanSlash : Nat → Nat → Walk Bool
  | 0,_ => panics
  | fuel+1,temp => do
    let b ← loadByte v false temp
    if b = 0 then pure false
    else if b = slash then pure true
    else scanSlash fuel (wrap (temp+1))

def readString : Nat → Nat → Walk (List UInt8)
  | 0,_ => panics
  | fuel+1,src => do
    let b ← loadByte v false src
    if b = 0 then pure []
    else do
      let rest ← readString fuel (wrap (src+1))
      pure (b :: rest)

def countArgs (args : Nat) : Nat → Nat → Walk Nat
  | 0,_ => panics
  | fuel+1,arg => do
    let pointer ← loadWord v (wrap (args+4*arg))
    if pointer = 0 then pure arg else countArgs args fuel (arg+1)

def copystr : Nat → Nat → Walk Bool
  | 0,_ => pure false
  | n+1,src => do
    let b ← loadByte v true src
    if b = 0 then pure true else copystr n (src+1)

def copyinstr (usersrc len : Nat) : Walk PUnit :=
  match copycheck usersrc len with
  | .error errno => fail errno
  | .ok stoplen => do
    let found ← copystr v (min len stoplen) usersrc
    if found then pure ⟨⟩
    else if stoplen < len then fail .efault
    else fail .enametoolong

def copyArgs (args : Nat) : Nat → Nat → Walk PUnit
  | 0,_ => pure ⟨⟩
  | n+1,i => do
    let pointer ← loadWord v (wrap (args+4*i))
    copyinstr v pointer argMaxLen
    copyArgs args n (i+1)

def tooBig (fullPath : Bool) (path : List UInt8) : Bool :=
  if fullPath then pathMax < path.length || nameMax < (path.reverse.takeWhile (· ≠ slash)).length
  else nameMax < path.length

def copyIn (alloc : Nat → Bool) (program args arg : Nat) : Walk PUnit :=
  if (List.range (arg+1)).all alloc = false then fail .enomem
  else do
    copyArgs v args arg 0
    let path ← readString v addresses program
    if alloc (arg+1) = false then fail .enomem
    else copyinstr v program (path.length+1)

def sysExecv (alloc : Nat → Bool) (program args : Nat) : Walk PUnit :=
  if program = 0 then fail .enoent
  else do
    let fullPath ← scanSlash v addresses program
    let path ← readString v addresses program
    if tooBig fullPath path then fail .e2big
    else do
      let arg ← countArgs v args addresses 0
      copyIn v alloc program args arg

def Readable (space : AddrSpace) (addr : Nat) : Prop :=
  addr < userspacetop ∧ segmentOf space (pageFrame addr) ≠ none

def StringAt (space : AddrSpace) (content : Nat → UInt8) : Nat → List UInt8 → Prop
  | addr,[] => Readable space addr ∧ content addr = 0
  | addr,b :: rest => Readable space addr ∧ content addr = b ∧ b ≠ 0 ∧ StringAt space content (addr+1) rest

def VectorAt (space : AddrSpace) (content : Nat → UInt8) : Nat → List Nat → Prop
  | addr,[] => Readable space addr ∧ word content addr = 0
  | addr,w :: rest =>
    Readable space addr ∧ word content addr = w ∧ w ≠ 0 ∧ VectorAt space content (addr+4) rest

def Clean (s : Walker) : Prop := ∀ addr ∈ s.reads, addr < userspacetop
def Leaks (s : Walker) : Prop := ∃ addr ∈ s.reads, userspacetop ≤ addr

structure Good (space : AddrSpace) (s : Walker) : Prop where
  valid : CpuInvariant s.cpu
  space : s.cpu.space = space
  clean : Clean s

-- The call has returned an error for which there is a reason.
def Refused (Reason : Errno → Prop) (e : Stop) (t : Walker) : Prop := ∃ errno, e = .errno errno ∧ Reason errno ∧ Clean t
def Broken (e : Stop) (t : Walker) : Prop := e = .panic ∨ Leaks t

variable {v} {Reason : Errno → Prop} {space : AddrSpace} {s : Walker} {addr : Nat} {handler : Bool}

lemma user_mapped (lt : addr < userspacetop) : tlbMapped addr := by
  unfold userspacetop at lt
  simp [tlbMapped,lt]

section
variable (good : Good space s)
include good

lemma trap_installed (segmented : segmentOf space (pageFrame addr) ≠ none) :
    Ends (trap v handler .tlbl addr s) (fun _ t => Good space t ∧ t.reads = s.reads) E := by
  rcases vmFault_cases good.valid.1 s.cpu.loaded s.cpu.tlb (v.random addr) addr
    (show FaultType.read ≠ .readonly by decide) with ⟨miss,_⟩ | ⟨seg,paddr,hit,entry,inst⟩
  · rw [good.space] at miss
    exact absurd miss segmented
  refine ends_bind_get ?_
  simp only [mipsTrap,faultType,vmFaultCurrent,inst]
  exact ends_set ⟨⟨⟨good.valid.1,installed_coherent good.valid.2 hit entry⟩,good.space,good.clean⟩,rfl⟩

lemma trap_unmapped (miss : segmentOf space (pageFrame addr) = none) :
    Ends (trap v handler .tlbl addr s) (fun _ _ => False)
      (fun e t => e = (if handler then .errno .efault else .panic) ∧ t = s) := by
  rcases vmFault_cases good.valid.1 s.cpu.loaded s.cpu.tlb (v.random addr) addr
    (show FaultType.read ≠ .readonly by decide) with ⟨_,bad⟩ | ⟨seg,paddr,hit,_,_⟩
  · refine ends_bind_get ?_
    simp only [mipsTrap,faultType,vmFaultCurrent,bad,fatal]
    cases handler <;> exact ends_throw ⟨rfl,rfl⟩
  rw [good.space,miss] at hit
  cases hit

lemma translate_readable (readable : Readable space addr) :
    Ends (translate v handler addr s) (fun _ t => Good space t ∧ t.reads = s.reads) E := by
  refine ends_bind_get ?_
  split
  · exact trap_installed good readable.2
  simp only [user_mapped readable.1,reduceCtorEq,false_and,↓reduceIte]
  exact ends_pure ⟨good,rfl⟩

lemma translate_unmapped (lt : addr < userspacetop) (miss : segmentOf space (pageFrame addr) = none) :
    Ends (translate v handler addr s) (fun _ _ => False)
      (fun e t => e = (if handler then .errno .efault else .panic) ∧ t = s) := by
  refine ends_bind_get ?_
  have raised : raises s.cpu.tlb .tlbl addr := by
    simp only [raises,user_mapped lt,Bool.true_and]
    cases hit : lookup s.cpu.tlb (pageFrame addr) with
    | none => rfl
    | some i =>
      obtain ⟨ok,eq⟩ := lookup_some hit
      obtain ⟨seg,_,segmented,_⟩ := good.valid.2 i ok
      rw [eq,good.space,miss] at segmented
      cases segmented
  simp only [raised,↓reduceIte]
  exact trap_unmapped good miss

end

lemma mipsTrap_plain (as : Option AddrSpace) (load : Bool) (tlb : Slots) (random : Fin numTlb) (code : ExCode)
    (addr : Nat) : mipsTrap as load tlb random true false code addr ≠ .copyfail := by
  unfold mipsTrap
  split
  · simp
  · simp
  · simp
  · simp
  split
  · simp [fatal]
  · split <;> simp [fatal]

lemma trap_reads (code : ExCode) : Ends (trap v handler code addr s) (fun _ t => t.reads = s.reads)
    (fun e t => (handler = false → e = .panic) ∧ t.reads = s.reads) := by
  refine ends_bind_get ?_
  cases trapped : mipsTrap (some s.cpu.space) s.cpu.loaded s.cpu.tlb (v.random addr) true handler code addr with
  | retried tlb => exact ends_set rfl
  | copyfail =>
    refine ends_throw ⟨fun plain => ?_,rfl⟩
    subst plain
    exact absurd trapped (mipsTrap_plain _ _ _ _ _ _)
  | exits | panics | serviced => exact ends_throw ⟨fun _ => rfl,rfl⟩

lemma translate_reads : Ends (translate v handler addr s) (fun _ t => t.reads = s.reads)
    (fun e t => (handler = false → e = .panic) ∧ t.reads = s.reads) := by
  refine ends_bind_get ?_
  split
  · exact trap_reads .tlbl
  split
  · exact trap_reads .dbe
  · exact ends_pure rfl

lemma loadByte_readable (readable : Readable space addr) :
    Keeps (Good space) E (fun b => b = v.content addr) (loadByte v handler addr) := by
  intro s good
  refine ends_bind (translate_readable good readable) fun _ t done => ?_
  refine ends_bind_modify (ends_pure ⟨rfl,done.1.valid,done.1.space,?_⟩)
  intro a member
  rcases mem_cons.mp member with eq | pre
  · rw [eq]
    exact readable.1
  · exact done.1.clean a pre

lemma loadByte_unmapped (fault : Reason .efault) (lt : addr < userspacetop)
    (miss : segmentOf space (pageFrame addr) = none) :
    Keeps (Good space) (Refused Reason) (fun _ : UInt8 => False) (loadByte v true addr) := by
  intro s good
  refine ends_bind ((translate_unmapped good lt miss).imp_error ?_) fun _ _ never => never.elim
  intro e t bad
  obtain ⟨refused,rfl⟩ := bad
  exact ⟨_,refused,fault,good.clean⟩

lemma translate_bad (good : Good space s) (bad : ¬Readable space addr) :
    Ends (translate v false addr s) (fun _ _ => userspacetop ≤ addr) Broken := by
  by_cases lt : addr < userspacetop
  · have miss : segmentOf space (pageFrame addr) = none := by
      by_contra segmented
      exact bad ⟨lt,segmented⟩
    refine (translate_unmapped good lt miss).mono (fun _ _ never => never.elim) fun e t failed => ?_
    exact .inl (by simpa using failed.1)
  exact translate_reads.mono (fun _ _ _ => not_lt.mp lt) fun e t failed => .inl (failed.1 rfl)

lemma loadByte_bad (good : Good space s) (bad : ¬Readable space addr) :
    Ends (loadByte v false addr s) (fun _ t => Leaks t) Broken :=
  ends_bind (translate_bad good bad) fun _ t high => ends_bind_modify (ends_pure ⟨addr,by simp,high⟩)

lemma leaks_reads {t : Walker} (leaks : Leaks s) (eq : t.reads = s.reads) : Leaks t := by
  unfold Leaks
  rw [eq]
  exact leaks

lemma leaks_more {t : Walker} (more : List Nat) (leaks : Leaks s) (eq : t.reads = more++s.reads) : Leaks t := by
  obtain ⟨a,mem,high⟩ := leaks
  exact ⟨a,by simp [eq,mem],high⟩

lemma translate_leaks (handler : Bool) (addr : Nat) : Keeps Leaks Broken Anything (translate v handler addr) :=
  fun _ leaks => translate_reads.mono (fun _ _ eq => ⟨trivial,leaks_reads leaks eq⟩)
    fun _ _ bad => .inr (leaks_reads leaks bad.2)

lemma loadByte_leaks (handler : Bool) (addr : Nat) : Keeps Leaks Broken Anything (loadByte v handler addr) :=
  (translate_leaks handler addr).bind fun _ _ =>
    (keeps_modify fun _ leaks => leaks_more [addr] leaks rfl).bind fun _ _ => keeps_pure trivial

lemma loadWord_readable (aligned : addr % 4 = 0) (readable : Readable space addr) :
    Keeps (Good space) E (fun w => w = word v.content addr) (loadWord v addr) := by
  intro s good
  have lt := readable.1
  unfold userspacetop at lt
  simp only [loadWord,aligned,ne_eq,not_true_eq_false,↓reduceIte]
  refine ends_bind (translate_readable good readable) fun _ t done => ?_
  refine ends_bind_modify (ends_pure ⟨rfl,done.1.valid,done.1.space,?_⟩)
  intro a mem
  simp only [cons_append,nil_append,mem_cons] at mem
  unfold userspacetop
  rcases mem with same | same | same | same | pre
  · omega
  · omega
  · omega
  · omega
  · exact done.1.clean a pre

lemma loadWord_bad (good : Good space s) (bad : ¬(addr % 4 = 0 ∧ Readable space addr)) :
    Ends (loadWord v addr s) (fun _ t => Leaks t) Broken := by
  by_cases aligned : addr % 4 = 0
  · simp only [loadWord,aligned,ne_eq,not_true_eq_false,↓reduceIte]
    refine ends_bind (translate_bad good fun readable => bad ⟨aligned,readable⟩) fun _ t high => ?_
    exact ends_bind_modify (ends_pure ⟨addr,by simp,high⟩)
  -- An address error has no handler here.
  simp only [loadWord,aligned,ne_eq,not_false_eq_true,↓reduceIte]
  have fatal : Ends (trap v false .adel addr s) (fun _ _ => False) Broken := by
    refine ends_bind_get ?_
    exact ends_throw (.inl rfl)
  exact ends_bind fatal fun _ _ never => never.elim

lemma loadWord_leaks (addr : Nat) : Keeps Leaks Broken Anything (loadWord v addr) := by
  have rest : Keeps Leaks Broken Anything (do
      translate v false addr
      modify fun s => {s with reads := [addr,addr+1,addr+2,addr+3]++s.reads}
      pure (word v.content addr)) :=
    (translate_leaks false addr).bind fun _ _ =>
      (keeps_modify fun _ leaks => leaks_more _ leaks rfl).bind fun _ _ => keeps_pure trivial
  have trapped : Keeps Leaks Broken Anything (trap v false .adel addr) := fun _ leaks =>
    (trap_reads .adel).mono (fun _ _ eq => ⟨trivial,leaks_reads leaks eq⟩) fun _ _ bad => .inr (leaks_reads leaks bad.2)
  by_cases aligned : addr % 4 = 0
  · simpa only [loadWord,aligned,ne_eq,not_true_eq_false,↓reduceIte] using rest
  · simpa only [loadWord,aligned,ne_eq,not_false_eq_true,↓reduceIte] using trapped.bind fun _ _ => rest

lemma readString_leaks (fuel src : Nat) : Keeps Leaks Broken Anything (readString v fuel src) := by
  induction fuel generalizing src with
  | zero => exact keeps_throw fun _ leaks => .inr leaks
  | succ n ih =>
    refine (loadByte_leaks false src).bind fun b _ => ?_
    split
    · exact keeps_pure trivial
    · exact (ih _).bind fun _ _ => keeps_pure trivial

lemma scanSlash_leaks (fuel temp : Nat) : Keeps Leaks Broken Anything (scanSlash v fuel temp) := by
  induction fuel generalizing temp with
  | zero => exact keeps_throw fun _ leaks => .inr leaks
  | succ n ih =>
    refine (loadByte_leaks false temp).bind fun b _ => ?_
    split
    · exact keeps_pure trivial
    split
    · exact keeps_pure trivial
    · exact ih _

lemma countArgs_leaks (args fuel arg : Nat) : Keeps Leaks Broken Anything (countArgs v args fuel arg) := by
  induction fuel generalizing arg with
  | zero => exact keeps_throw fun _ leaks => .inr leaks
  | succ n ih =>
    refine (loadWord_leaks _).bind fun w _ => ?_
    split
    · exact keeps_pure trivial
    · exact ih _

lemma copystr_leaks (n src : Nat) : Keeps Leaks Broken Anything (copystr v n src) := by
  induction n generalizing src with
  | zero => exact keeps_pure trivial
  | succ n ih =>
    refine (loadByte_leaks true src).bind fun b _ => ?_
    split
    · exact keeps_pure trivial
    · exact ih _

lemma copyinstr_leaks (usersrc len : Nat) : Keeps Leaks Broken Anything (copyinstr v usersrc len) := by
  unfold copyinstr
  split
  · exact keeps_throw fun _ leaks => .inr leaks
  refine (copystr_leaks _ _).bind fun hit _ => ?_
  split
  · exact keeps_pure trivial
  · split <;> exact keeps_throw fun _ leaks => .inr leaks

lemma copyArgs_leaks (args n i : Nat) : Keeps Leaks Broken Anything (copyArgs v args n i) := by
  induction n generalizing i with
  | zero => exact keeps_pure trivial
  | succ n ih => exact (loadWord_leaks _).bind fun w _ => (copyinstr_leaks w _).bind fun _ _ => ih _

lemma copyIn_leaks (alloc : Nat → Bool) (program args arg : Nat) :
    Keeps Leaks Broken Anything (copyIn v alloc program args arg) := by
  unfold copyIn
  split
  · exact keeps_throw fun _ leaks => .inr leaks
  refine (copyArgs_leaks args arg 0).bind fun _ _ => (readString_leaks _ program).bind fun path _ => ?_
  split
  · exact keeps_throw fun _ leaks => .inr leaks
  · exact copyinstr_leaks _ _

lemma wrap_below (lt : n < 2^32) : wrap n = n := mod_eq_of_lt lt

variable {path : List UInt8} {words : List Nat} {src fuel : Nat}

section
variable (at_ : StringAt space v.content src path)
include at_

lemma StringAt.bound : src+path.length < userspacetop := by
  induction path generalizing src with
  | nil => exact at_.1.1
  | cons b rest ih =>
    have later := ih at_.2.2.2
    simp only [length_cons]
    omega

lemma StringAt.next_below : wrap (src+1) = src+1 := by
  have bound := at_.bound
  unfold userspacetop at bound
  exact wrap_below (by omega)

lemma readString_at (big : path.length < fuel) :
    Keeps (Good space) E (fun read => read = path) (readString v fuel src) := by
  induction path generalizing src fuel with
  | nil =>
    obtain ⟨n,rfl⟩ := exists_eq_succ_of_ne_zero (ne_zero_of_lt big)
    refine (loadByte_readable at_.1).bind fun b same => ?_
    rw [same,at_.2]
    exact keeps_pure rfl
  | cons b rest ih =>
    obtain ⟨n,rfl⟩ := exists_eq_succ_of_ne_zero (ne_zero_of_lt big)
    refine (loadByte_readable at_.1).bind fun c same => ?_
    rw [same,at_.2.1,if_neg at_.2.2.1,at_.next_below]
    refine (ih at_.2.2.2 (by simpa using big)).bind fun read eq => ?_
    rw [eq]
    exact keeps_pure rfl

lemma scanSlash_at (big : path.length < fuel) :
    Keeps (Good space) E (fun hit => hit = decide (slash ∈ path)) (scanSlash v fuel src) := by
  induction path generalizing src fuel with
  | nil =>
    obtain ⟨n,rfl⟩ := exists_eq_succ_of_ne_zero (ne_zero_of_lt big)
    refine (loadByte_readable at_.1).bind fun b eq => ?_
    rw [eq,at_.2]
    exact keeps_pure rfl
  | cons b rest ih =>
    obtain ⟨n,rfl⟩ := exists_eq_succ_of_ne_zero (ne_zero_of_lt big)
    refine (loadByte_readable at_.1).bind fun c eq => ?_
    rw [eq,at_.2.1,if_neg at_.2.2.1,at_.next_below]
    by_cases hit : b = slash
    · rw [if_pos hit]
      exact keeps_pure (by simp [hit])
    rw [if_neg hit]
    refine (ih at_.2.2.2 (by simpa using big)).mono fun res eq => ?_
    simpa [Ne.symm hit] using eq

end

lemma readString_bad (good : Good space s) (bad : ∀ path, ¬StringAt space v.content src path) :
    Ends (readString v fuel src s) (fun _ t => Leaks t) Broken := by
  induction fuel generalizing src s with
  | zero => exact ends_throw (.inl rfl)
  | succ n ih =>
    by_cases readable : Readable space src
    · refine ends_bind (loadByte_readable readable s good) fun b t done => ?_
      obtain ⟨eq,after⟩ := done
      subst eq
      have more : v.content src ≠ 0 := fun ran => bad [] ⟨readable,ran⟩
      have lt := readable.1
      unfold userspacetop at lt
      rw [if_neg more,wrap_below (by omega)]
      refine ends_bind (ih after fun path later => ?_) fun rest u leaks => ends_pure leaks
      exact bad (_ :: path) ⟨readable,rfl,more,later⟩
    refine ends_bind (loadByte_bad good readable) fun b t leaks => ?_
    split
    · exact ends_pure leaks
    · refine ends_bind (readString_leaks _ _ t leaks) fun rest u done => ends_pure done.2

lemma scanSlash_any (good : Good space s) :
    Ends (scanSlash v fuel src s) (fun _ t => Good space t ∨ Leaks t) Broken := by
  induction fuel generalizing src s with
  | zero => exact ends_throw (.inl rfl)
  | succ n ih =>
    by_cases readable : Readable space src
    · refine ends_bind (loadByte_readable readable s good) fun b t done => ?_
      split
      · exact ends_pure (.inl done.2)
      split
      · exact ends_pure (.inl done.2)
      · exact ih done.2
    refine ends_bind (loadByte_bad good readable) fun b t leaks => ?_
    split
    · exact ends_pure (.inr leaks)
    split
    · exact ends_pure (.inr leaks)
    · exact (scanSlash_leaks n _ t leaks).imp fun _ _ done => .inr done.2

lemma VectorAt.bound (at_ : VectorAt space v.content src words) : src+4*words.length < userspacetop := by
  induction words generalizing src with
  | nil => exact at_.1.1
  | cons w rest ih =>
    have later := ih at_.2.2.2
    simp only [length_cons]
    omega

lemma countArgs_at (aligned : args % 4 = 0) (at_ : VectorAt space v.content (args+4*arg) words)
    (big : words.length < fuel) :
    Keeps (Good space) E (fun count => count = arg+words.length) (countArgs v args fuel arg) := by
  have bound := at_.bound
  unfold userspacetop at bound
  induction words generalizing arg fuel with
  | nil =>
    obtain ⟨n,rfl⟩ := exists_eq_succ_of_ne_zero (ne_zero_of_lt big)
    unfold countArgs
    rw [wrap_below (by omega)]
    refine (loadWord_readable (by omega) at_.1).bind fun w eq => ?_
    rw [eq,at_.2,if_pos rfl]
    exact keeps_pure rfl
  | cons w rest ih =>
    obtain ⟨n,rfl⟩ := exists_eq_succ_of_ne_zero (ne_zero_of_lt big)
    simp only [length_cons] at bound big ⊢
    unfold countArgs
    rw [wrap_below (by omega)]
    refine (loadWord_readable (by omega) at_.1).bind fun c eq => ?_
    rw [eq,at_.2.1,if_neg at_.2.2.1]
    have later : VectorAt space v.content (args+4*(arg+1)) rest := at_.2.2.2
    refine (ih later (by omega) (by omega)).mono fun count eq => ?_
    omega

lemma countArgs_bad (good : Good space s) (low : args+4*arg < 2^32)
    (bad : ¬(args % 4 = 0 ∧ ∃ words, VectorAt space v.content (args+4*arg) words)) :
    Ends (countArgs v args fuel arg s) (fun _ t => Leaks t) Broken := by
  induction fuel generalizing arg s with
  | zero => exact ends_throw (.inl rfl)
  | succ n ih =>
    unfold countArgs
    rw [wrap_below low]
    by_cases readable : (args+4*arg) % 4 = 0 ∧ Readable space (args+4*arg)
    · have aligned : args % 4 = 0 := by omega
      have lt := readable.2.1
      unfold userspacetop at lt
      refine ends_bind (loadWord_readable readable.1 readable.2 s good) fun w t done => ?_
      obtain ⟨eq,after⟩ := done
      subst eq
      have more : word v.content (args+4*arg) ≠ 0 := fun ran => bad ⟨aligned,[],readable.2,ran⟩
      rw [if_neg more]
      refine ih after (by omega) fun later => ?_
      obtain ⟨_,words,at_⟩ := later
      exact bad ⟨aligned,_ :: words,readable.2,rfl,more,at_⟩
    refine ends_bind (loadWord_bad good readable) fun w t leaks => ?_
    split
    · exact ends_pure leaks
    · exact (countArgs_leaks args n _ t leaks).imp fun _ _ done => done.2

-- None of the first `n` bytes ends the string.
def Long (space : AddrSpace) (content : Nat → UInt8) (src n : Nat) : Prop :=
  ∀ k < n, Readable space (src+k) ∧ content (src+k) ≠ 0

lemma copystr_reads (fault : Reason .efault) (le : src+n ≤ userspacetop) :
    Keeps (Good space) (Refused Reason)
      (fun hit => if hit then ∃ path, StringAt space v.content src path else Long space v.content src n)
      (copystr v n src) := by
  induction n generalizing src with
  | zero => exact keeps_pure (by simp [Long])
  | succ n ih =>
    have lt : src < userspacetop := by omega
    by_cases segmented : segmentOf space (pageFrame src) = none
    · exact (loadByte_unmapped fault lt segmented).bind fun _ never => never.elim
    have readable : Readable space src := ⟨lt,segmented⟩
    refine (loadByte_readable readable).bind fun b eq => ?_
    subst eq
    by_cases ran : v.content src = 0
    · rw [if_pos ran]
      exact keeps_pure ⟨[],readable,ran⟩
    rw [if_neg ran]
    refine (ih (by omega)).mono fun hit later => ?_
    cases hit with
    | true =>
      obtain ⟨path,at_⟩ := later
      exact ⟨_ :: path,readable,rfl,ran,at_⟩
    | false =>
      rintro (_ | k) lt
      · exact ⟨readable,ran⟩
      · rw [show src+(k+1) = src+1+k by omega]
        exact later k (by omega)

lemma copycheck_within (low : p < 2^32) (some_ : 0 < len) (short : len < 2^32)
    (checked : copycheck p len = .ok stoplen) : p+min len stoplen ≤ userspacetop := by
  have top : wrapPred (p+len) = (p+len-1) % 2^32 := if_neg (by omega)
  simp only [copycheck,top] at checked
  unfold userspacetop at *
  split at checked
  · cases checked
  rename_i above
  split at checked
  · cases checked
  split at checked
  · cases checked
    omega
  cases checked
  omega

lemma copycheck_refuses (refused : copycheck p len = .error errno) : errno = .efault := by
  unfold copycheck at refused
  grind

lemma copyinstr_reads (fault : Reason .efault) (long : Long space v.content usersrc len → Reason .enametoolong)
    (low : usersrc < 2^32) (some_ : 0 < len) (short : len < 2^32) :
    Keeps (Good space) (Refused Reason) (fun _ => ∃ path, StringAt space v.content usersrc path)
      (copyinstr v usersrc len) := by
  unfold copyinstr
  cases checked : copycheck usersrc len with
  | error errno =>
    cases copycheck_refuses checked
    exact keeps_throw fun _ good => ⟨_,rfl,fault,good.clean⟩
  | ok stoplen =>
    refine (copystr_reads fault (copycheck_within low some_ short checked)).bind fun hit at_ => ?_
    cases hit with
    | true => exact keeps_pure at_
    | false =>
      simp only [Bool.false_eq_true,↓reduceIte] at at_ ⊢
      split
      · exact keeps_throw fun _ good => ⟨_,rfl,fault,good.clean⟩
      rw [Nat.min_eq_left (by omega)] at at_
      exact keeps_throw fun _ good => ⟨_,rfl,long at_,good.clean⟩

lemma word_low (content : Nat → UInt8) (addr : Nat) : word content addr < 2^32 := by
  have a := (content addr).toNat_lt
  have b := (content (addr+1)).toNat_lt
  have c := (content (addr+2)).toNat_lt
  have d := (content (addr+3)).toNat_lt
  unfold word
  omega

lemma copyArgs_reads (fault : Reason .efault) (aligned : args % 4 = 0)
    (at_ : VectorAt space v.content (args+4*i) words)
    (long : ∀ w ∈ words, Long space v.content w argMaxLen → Reason .enametoolong) :
    Keeps (Good space) (Refused Reason) (fun _ => ∀ w ∈ words, ∃ path, StringAt space v.content w path)
      (copyArgs v args words.length i) := by
  induction words generalizing i with
  | nil => exact keeps_pure (by simp)
  | cons w rest ih =>
    have lt := at_.1.1
    unfold userspacetop at lt
    rw [length_cons]
    unfold copyArgs
    rw [wrap_below (by omega)]
    refine (loadWord_readable (by omega) at_.1).bind fun pointer same => ?_
    have eq : pointer = w := same.trans at_.2.1
    have low : pointer < 2^32 := same ▸ word_low v.content _
    refine (copyinstr_reads fault (eq ▸ long w mem_cons_self) low (by decide) (by decide)).bind fun _ one => ?_
    have later : VectorAt space v.content (args+4*(i+1)) rest := at_.2.2.2
    refine (ih later fun w mem => long w (mem_cons_of_mem _ mem)).mono fun _ others pointer' mem => ?_
    rcases mem_cons.mp mem with self | mem
    · rw [self,←eq]
      exact one
    · exact others pointer' mem

lemma StringAt.not_long (string : StringAt space content src path) : ¬Long space content src (path.length+1) := by
  intro long
  induction path generalizing src with
  | nil => exact (long 0 (by simp)).2 string.2
  | cons b rest ih =>
    refine ih string.2.2.2 fun k lt => ?_
    rw [show src+1+k = src+(k+1) by omega]
    exact long (k+1) (by simpa using lt)

lemma copyIn_reads {alloc : Nat → Bool} (fault : Reason .efault) (full : ∀ k, alloc k = false → Reason .enomem)
    (long : ∀ w ∈ words, Long space v.content w argMaxLen → Reason .enametoolong) (low : program < 2^32)
    (aligned : args % 4 = 0) (string : StringAt space v.content program path)
    (vector : VectorAt space v.content args words) :
    Keeps (Good space) (Refused Reason) (fun _ => ∀ w ∈ words, ∃ path, StringAt space v.content w path)
      (copyIn v alloc program args words.length) := by
  have bound := string.bound
  unfold userspacetop at bound
  unfold copyIn
  split
  · rename_i missing
    obtain ⟨k,_,denied⟩ := all_eq_false.mp missing
    exact keeps_throw fun _ good => ⟨_,rfl,full k (by simpa using denied),good.clean⟩
  refine (copyArgs_reads fault aligned vector long).bind fun _ arguments => ?_
  refine (readString_at string (by unfold addresses; omega)).bind fun again eq => ?_
  split
  · exact keeps_throw fun _ good => ⟨_,rfl,full _ ‹_›,good.clean⟩
  subst eq
  exact (copyinstr_reads fault (fun hit => absurd hit string.not_long) low (by omega) (by omega)).mono
    fun _ _ => arguments

-- When each error may come: all but EFAULT are for something else than an address.
def Explained (v : View) (alloc : Nat → Bool) (space : AddrSpace) (program args : Nat) : Errno → Prop
  | .enoent => program = 0
  | .e2big => ∃ path, StringAt space v.content program path ∧ tooBig (decide (slash ∈ path)) path = true
  | .enomem => ∃ k, alloc k = false
  | .enametoolong => ∃ words, VectorAt space v.content args words ∧ ∃ w ∈ words, Long space v.content w argMaxLen
  | errno => errno = .efault

def Guarded (v : View) (alloc : Nat → Bool) (c : Cpu) (program args : Nat) : Prop :=
  Ends (sysExecv v alloc program args ⟨c,[]⟩)
    (fun _ t => Clean t ∧ (∃ path, StringAt c.space v.content program path) ∧
      ∃ words, VectorAt c.space v.content args words ∧ ∀ w ∈ words, ∃ path, StringAt c.space v.content w path)
    (Refused (Explained v alloc c.space program args))

lemma broken_not_guarded {alloc : Nat → Bool}
    (broken : Ends (sysExecv v alloc program args ⟨c,[]⟩) (fun _ t => Leaks t) Broken) :
    ¬Guarded v alloc c program args := by
  have apart : ∀ {t : Walker}, Clean t → ¬Leaks t := by
    intro t clean leaks
    obtain ⟨addr,mem,high⟩ := leaks
    exact absurd (clean addr mem) (not_lt.mpr high)
  intro guarded
  unfold Guarded at guarded
  cases ran : sysExecv v alloc program args ⟨c,[]⟩ with
  | ok _ t => exact apart (guarded.ok ran).1 (broken.ok ran)
  | error e t =>
    obtain ⟨errno,rfl,_,clean⟩ := guarded.failed ran
    rcases broken.failed ran with panic | leaks
    · cases panic
    · exact apart clean leaks

theorem execv_pointers_iff (v : View) (alloc : Nat → Bool) {c : Cpu} (valid : CpuInvariant c) {program args : Nat}
    (low : program < 2^32) (lowArgs : args < 2^32) :
    Guarded v alloc c program args ↔ program = 0 ∨ ∃ path, StringAt c.space v.content program path ∧
      (tooBig (decide (slash ∈ path)) path = true ∨
        args % 4 = 0 ∧ ∃ words, VectorAt c.space v.content args words) := by
  have good : Good c.space ⟨c,[]⟩ := ⟨valid,rfl,fun _ member => by cases member⟩
  constructor
  · intro guarded
    by_contra unmet
    push Not at unmet
    obtain ⟨named,unmet⟩ := unmet
    refine broken_not_guarded ?_ guarded
    unfold sysExecv
    rw [if_neg named]
    by_cases string : ∃ path, StringAt c.space v.content program path
    · obtain ⟨path,string⟩ := string
      obtain ⟨small,vector⟩ := unmet path string
      have bound := string.bound
      unfold userspacetop at bound
      have enough : path.length < addresses := by unfold addresses; omega
      refine ends_bind (scanSlash_at string enough _ good) fun fullPath t first => ?_
      refine ends_bind (readString_at string enough t first.2) fun read u second => ?_
      rw [first.1,second.1,if_neg small]
      refine ends_bind (countArgs_bad second.2 lowArgs ?_) fun arg w leaks => ?_
      · intro found
        obtain ⟨aligned,words,at_⟩ := found
        exact vector aligned words at_
      · exact (copyIn_leaks _ _ _ _ w leaks).imp fun _ _ done => done.2
    push Not at string
    refine ends_bind (scanSlash_any good) fun fullPath t first => ?_
    have read : Ends (readString v addresses program t) (fun _ t => Leaks t) Broken := by
      rcases first with still | leaks
      · exact readString_bad still string
      · exact (readString_leaks _ _ t leaks).imp fun _ _ done => done.2
    refine ends_bind read fun path u leaks => ?_
    split
    · exact ends_throw (.inr leaks)
    refine ends_bind (countArgs_leaks args addresses 0 u leaks) fun arg w done => ?_
    exact (copyIn_leaks _ _ _ _ w done.2).imp fun _ _ done => done.2
  intro met
  unfold Guarded sysExecv
  by_cases null : program = 0
  · rw [if_pos null]
    exact ends_throw ⟨_,rfl,null,good.clean⟩
  rw [if_neg null]
  obtain ⟨path,string,rest⟩ := met.resolve_left null
  have bound := string.bound
  unfold userspacetop at bound
  have enough : path.length < addresses := by unfold addresses; omega
  refine ends_bind (scanSlash_at string enough _ good) fun fullPath t first => ?_
  refine ends_bind (readString_at string enough t first.2) fun read u second => ?_
  rw [first.1,second.1]
  by_cases big : tooBig (decide (slash ∈ path)) path = true
  · rw [if_pos big]
    exact ends_throw ⟨_,rfl,⟨path,string,big⟩,second.2.clean⟩
  rw [if_neg big]
  obtain ⟨aligned,words,vector⟩ := rest.resolve_left big
  have length := vector.bound
  unfold userspacetop at length
  refine ends_bind (countArgs_at aligned vector (by unfold addresses; omega) u second.2) fun arg w third => ?_
  rw [third.1,Nat.zero_add]
  have fault : Explained v alloc c.space program args .efault := rfl
  refine (copyIn_reads fault (fun k denied => ⟨k,denied⟩) (fun w mem hit => ⟨words,vector,w,mem,hit⟩)
    low aligned string vector w third.2).imp fun _ x done => ?_
  exact ⟨done.2.clean,⟨path,string⟩,words,vector,done.1⟩

def smallView : View where
  content addr := if addr = 0x10000000 then 112 else if addr = 0x10000004 then 16 else 0
  present _ := true
  random _ := Running.slot

def smallCpu : Cpu := ⟨smallSpace,true,flushed⟩
lemma smallCpu_valid : CpuInvariant smallCpu := ⟨smallSpace_mapped,flushed_coherent _ _⟩

theorem execv_pointers_small : Guarded smallView (fun _ => true) smallCpu 0x10000000 0x10000004 := by
  apply (execv_pointers_iff smallView (fun _ => true) smallCpu_valid (by decide) (by decide)).mpr
  right
  refine ⟨[112],?_,.inr ⟨by decide,[0x10000000],?_⟩⟩
  · exact ⟨⟨by decide,by decide⟩,by decide,by decide,⟨by decide,by decide⟩,by decide⟩
  · exact ⟨⟨by decide,by decide⟩,by decide,by decide,⟨by decide,by decide⟩,by decide⟩

def verdict (ended : EStateM.Result Stop Walker PUnit) : Option Stop × Bool :=
  match ended with
  | .ok _ t => (none,t.reads.any fun addr => userspacetop ≤ addr)
  | .error e t => (some e,t.reads.any fun addr => userspacetop ≤ addr)

lemma verdict_broken (bad : (verdict ran).1 = some .panic ∨ (verdict ran).2) :
    Ends ran (fun _ t => Leaks t) Broken := by
  have leaks : ∀ {t : Walker}, (t.reads.any fun addr => userspacetop ≤ addr) → Leaks t := by
    intro t some_
    obtain ⟨addr,mem,high⟩ := any_eq_true.mp some_
    exact ⟨addr,mem,by simpa using high⟩
  cases ran with
  | ok _ t =>
    rcases bad with panic | read
    · cases panic
    · exact leaks read
  | error e t =>
    rcases bad with panic | read
    · exact .inl (Option.some.inj panic)
    · exact .inr (leaks read)

theorem execv_walks_bad_pointers :
    ¬Guarded smallView (fun _ => true) smallCpu 1 0x10000004 ∧
    ¬Guarded smallView (fun _ => true) smallCpu 0x80000000 0x10000004 ∧
    ¬Guarded smallView (fun _ => true) smallCpu 0x10000000 0x80000000 := by
  refine ⟨broken_not_guarded (verdict_broken (.inl ?_)),broken_not_guarded (verdict_broken (.inr ?_)),
    broken_not_guarded (verdict_broken (.inr ?_))⟩
  · decide +kernel
  · decide +kernel
  · decide +kernel
end ToyOS.ExecPointers

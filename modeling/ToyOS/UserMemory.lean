import ToyOS.FrameMemory
import ToyOS.UserCopy
import ToyOS.Library.Outcome

namespace ToyOS.UserMemory
open Function UserSpace Tlb Coremap FrameMemory UserCopy ByteMemory Outcome

-- A part of the kernel returns an error, ends the process that has written to its text, or panics.
inductive Halt where
  | errno (errno : Errno)
  | exits
  | panic
  deriving DecidableEq

-- The processor with the current process, physical memory and its allocator. `ticks` counts stores and transfers; the
-- choices of tlb_random and the disk's errors depend on it.
structure Machine where
  cpu : Cpu
  memory : Memory
  coremap : Entries
  ticks : Nat

abbrev Kern := EStateM Halt Machine

def fail {α : Type} (errno : Errno) : Kern α := throw (.errno errno)
def panics {α : Type} : Kern α := throw .panic

variable (random : Nat → Fin numTlb)

def hit (tlb : Slots) (addr : Nat) : Option Nat :=
  (lookup tlb (pageFrame addr)).map fun i => (tlb i).ppage+addr % pageSize

def storeByte (addr : Nat) (b : UInt8) : Kern PUnit := do
  let s ← get
  match store (fun _ => random s.ticks) s.cpu addr with
  | .stored cpu =>
    match hit cpu.tlb addr with
    | some p => set {s with cpu,memory := update s.memory p b,ticks := s.ticks+1}
    | none => panics
  | .badfault => fail .efault
  | .exits => throw .exits
  | .assertion => panics

def storeBytes : Nat → List UInt8 → Kern PUnit
  | _,[] => pure ⟨⟩
  | addr,b :: rest => do
    storeByte random addr b
    storeBytes (addr+1) rest

def copyout (bytes : List UInt8) (userdest : Nat) : Kern PUnit :=
  match copycheck userdest bytes.length with
  | .error errno => fail errno
  | .ok stoplen => if stoplen ≠ bytes.length then fail .efault else storeBytes random userdest bytes

def copyoutstr (text : List UInt8) (userdest maxlen : Nat) : Kern PUnit :=
  match copycheck userdest maxlen with
  | .error errno => fail errno
  | .ok stoplen => do
    storeBytes random userdest ((text++[0]).take (min maxlen stoplen))
    if text.length < min maxlen stoplen then pure ⟨⟩
    else if stoplen < maxlen then fail .efault
    else fail .enametoolong

def physical (as : AddrSpace) (va : Nat) : Option Nat :=
  match segmentOf as (pageFrame va) with
  | none => none
  | some segment => (paddrOf as (pageFrame va) segment).map (·+va % pageSize)

def Sees (as : AddrSpace) (memory : Memory) (content : Nat → UInt8) : Prop :=
  ∀ va p, physical as va = some p → memory p = content va

def seen (as : AddrSpace) (memory : Memory) (va : Nat) : UInt8 :=
  match physical as va with
  | some p => memory p
  | none => 0

def Separated (as : AddrSpace) : Prop := ∀ va vb p, physical as va = some p → physical as vb = some p → va = vb

def Accepts (as : AddrSpace) (loaded : Bool) (va : Nat) : Prop :=
  segmentOf as (pageFrame va) ≠ none ∧ ¬(segmentOf as (pageFrame va) = some .text ∧ loaded = true)

lemma physical_eq_some (mapped : Mapped as) (hit : physical as va = some p) :
    ∃ seg, as.base seg ≤ pageFrame va ∧ (pageFrame va-as.base seg) / pageSize < as.npages seg ∧
      as.entry seg ((pageFrame va-as.base seg) / pageSize) = pageFrame p ∧ va % pageSize = p % pageSize := by
  unfold physical at hit
  split at hit
  · cases hit
  rename_i seg segmented
  obtain ⟨paddr,recorded,rfl⟩ := Option.map_eq_some_iff.mp hit
  obtain ⟨above,index,entry⟩ := paddrOf_index segmented recorded
  have aligned := mapped.frames _ _ _ segmented recorded
  refine ⟨seg,above,index,?_,?_⟩
  · rw [entry]
    unfold pageFrame pageSize at *
    omega
  unfold pageFrame pageSize at *
  omega

lemma separated_of_injective (mapped : Mapped as) (injective : FrameMemory.Injective as) : Separated as := by
  intro va vb p one two
  obtain ⟨seg,above,index,entry,offset⟩ := physical_eq_some mapped one
  obtain ⟨other,above',index',entry',offset'⟩ := physical_eq_some mapped two
  have eq : seg = other ∧ (pageFrame va-as.base seg) / pageSize = (pageFrame vb-as.base other) / pageSize := by
    by_contra different
    have apart := injective _ _ _ index _ index' (not_and_or.mp different)
    rw [entry,entry'] at apart
    unfold Apart pageSize at apart
    omega
  obtain ⟨rfl,eq⟩ := eq
  have aligned := base_aligned mapped.toPrepared seg
  unfold pageFrame pageSize at *
  omega

def put (content : Nat → UInt8) (addr : Nat) (bytes : List UInt8) : Nat → UInt8 :=
  splice content addr bytes.length (fun k => bytes.getD k 0) 0

variable {as : AddrSpace} {loaded : Bool} {content : Nat → UInt8} {coremap : Entries} {memory : Memory} {s t : Machine}
  {random} {E : Halt → Machine → Prop}

lemma put_nil (addr : Nat) : put content addr [] = content := splice_zero

lemma put_cons (addr : Nat) (b : UInt8) (rest : List UInt8) :
    put content addr (b :: rest) = put (update content addr b) (addr+1) rest := by
  funext a
  unfold put splice
  simp only [List.length_cons,Nat.zero_add]
  by_cases here : a = addr
  · subst here
    rw [if_pos (by unfold Inside; omega),if_neg (by unfold Inside; omega),update_self,Nat.sub_self]
    rfl
  rw [update_of_ne here]
  by_cases inside : Inside rest.length (addr+1) a
  · have above := inside.1
    rw [if_pos inside,if_pos (by unfold Inside at inside ⊢; omega)]
    have next : a-addr = (a-(addr+1))+1 := by omega
    rw [next]
    rfl
  · rw [if_neg inside,if_neg (by unfold Inside at inside ⊢; omega)]

lemma put_outside {bytes : List UInt8} (out : a < addr ∨ addr+bytes.length ≤ a) :
    put content addr bytes a = content a := by
  apply if_neg
  unfold Inside
  omega

lemma put_inside {bytes : List UInt8} (lt : k < bytes.length) : put content addr bytes (addr+k) = bytes.getD k 0 := by
  unfold put splice
  rw [if_pos (inside_offset lt),Nat.zero_add,Nat.add_sub_cancel_left]

lemma sees_seen (as : AddrSpace) (memory : Memory) : Sees as memory (seen as memory) := by
  intro va p found
  unfold seen
  rw [found]

lemma accepts_physical (mapped : Mapped as) (accepts : Accepts as loaded va) : ∃ p, physical as va = some p := by
  unfold physical
  rcases vmFault_cases mapped loaded flushed ⟨0,by decide⟩ va (show FaultType.read ≠ .readonly by decide) with
    ⟨miss,_⟩ | ⟨seg,paddr,hit,entry,_⟩
  · exact absurd miss accepts.1
  rw [hit]
  simp only
  rw [entry]
  exact ⟨_,rfl⟩

lemma sees_update (sep : Separated as) (sees : Sees as memory content)
    (hit : physical as va = some p) : Sees as (update memory p b) (update content va b) := by
  intro other q there
  by_cases same : other = va
  · subst same
    cases hit.symm.trans there
    rw [update_self,update_self]
  have apart : q ≠ p := by
    intro eq
    subst eq
    exact same (sep _ _ _ there hit)
  rw [update_of_ne same,update_of_ne apart]
  exact sees other q there

lemma hit_physical (coh : Coherent c)
    (found : lookup c.tlb (pageFrame addr) = some i) : hit c.tlb addr = physical c.space addr := by
  obtain ⟨ok,eq⟩ := lookup_some found
  obtain ⟨seg,paddr,segmented,recorded,entry⟩ := coh i ok
  rw [eq] at segmented recorded entry
  unfold hit physical
  rw [found,segmented]
  simp only [Option.map_some]
  rw [recorded,entry]
  rfl

lemma store_hits {choose : Nat → Fin numTlb} (stored : store choose c addr = .stored next) :
    ∃ i, lookup next.tlb (pageFrame addr) = some i := by
  unfold store at stored
  split at stored
  · rename_i i hit
    unfold storeHit at stored
    split at stored
    · cases stored
      exact ⟨i,hit⟩
    · cases stored
  split at stored
  · rename_i tlb inst
    split at stored
    · rename_i i hit
      unfold storeHit at stored
      split at stored
      · cases stored
        exact ⟨i,hit⟩
      · cases stored
    · cases stored
  · cases stored
  · cases stored
  · cases stored

-- A process and what it sees of the memory.
structure Process (as : AddrSpace) (loaded : Bool) (content : Nat → UInt8) (coremap : Entries) (s : Machine) :
    Prop where
  valid : CpuInvariant s.cpu
  space : s.cpu.space = as
  loaded : s.cpu.loaded = loaded
  sees : Sees as s.memory content
  coremap : s.coremap = coremap

lemma storeByte_accepted (sep : Separated as)
    (proc : Process as loaded content coremap s) (accepts : Accepts as loaded addr) :
    Ends (storeByte random addr b s) (fun _ t => Process as loaded (update content addr b) coremap t) E := by
  refine ends_bind_get ?_
  rcases store_cases proc.valid (fun _ => random s.ticks) addr with
    ⟨miss,_⟩ | ⟨text,_⟩ | ⟨next,_,_,stored,sameSpace,sameLoaded,validNext⟩
  · rw [Unmapped,proc.space] at miss
    exact absurd miss accepts.1
  · rw [ReadOnly,proc.space,proc.loaded] at text
    exact absurd text accepts.2
  obtain ⟨i,found⟩ := store_hits stored
  have address := hit_physical validNext.2 found
  rw [sameSpace,proc.space] at address
  have known : ∃ p, hit next.tlb addr = some p := by
    unfold hit
    rw [found]
    exact ⟨_,rfl⟩
  obtain ⟨p,here⟩ := known
  simp only [stored,here]
  rw [here] at address
  refine ends_set ⟨validNext,sameSpace.trans proc.space,sameLoaded.trans proc.loaded,?_,proc.coremap⟩
  exact sees_update sep proc.sees address.symm

lemma storeBytes_accepted {bytes : List UInt8} (sep : Separated as)
    (proc : Process as loaded content coremap s) (accepts : ∀ k < bytes.length, Accepts as loaded (addr+k)) :
    Ends (storeBytes random addr bytes s) (fun _ t => Process as loaded (put content addr bytes) coremap t) E := by
  induction bytes generalizing addr content s with
  | nil =>
    rw [put_nil]
    exact proc
  | cons b rest ih =>
    have one : Accepts as loaded addr := accepts 0 (Nat.zero_lt_succ _)
    refine ends_bind (storeByte_accepted sep proc one) fun _ t stored => ?_
    rw [put_cons]
    apply ih stored
    intro k below
    have later := accepts (k+1) (Nat.succ_lt_succ below)
    rwa [show addr+(k+1) = addr+1+k by omega] at later

lemma copycheck_below (some_ : 0 < len) (lt : userdest+len ≤ userspacetop) : copycheck userdest len = .ok len := by
  unfold userspacetop at lt
  have top : wrapPred (userdest+len) = userdest+len-1 := by
    unfold wrapPred wrap
    rw [if_neg (by omega)]
    omega
  unfold copycheck userspacetop
  simp only [top]
  rw [if_neg (by omega),if_neg (by omega),if_neg (by omega)]

lemma copyout_accepted (sep : Separated as) (proc : Process as loaded content coremap s) (some_ : bytes ≠ [])
    (lt : userdest+bytes.length ≤ userspacetop) (accepts : ∀ k < bytes.length, Accepts as loaded (userdest+k)) :
    Ends (copyout random bytes userdest s) (fun _ t => Process as loaded (put content userdest bytes) coremap t) E := by
  unfold copyout
  rw [copycheck_below (List.length_pos_of_ne_nil some_) lt]
  simp only [ne_eq,not_true_eq_false,if_false]
  exact storeBytes_accepted sep proc accepts

lemma copycheck_stack (some_ : 0 < maxlen) (lt : userdest < userspacetop)
    (short : maxlen < 2^31) : copycheck userdest maxlen = .ok (min maxlen (userspacetop-userdest)) := by
  unfold userspacetop at lt ⊢
  have top : wrapPred (userdest+maxlen) = userdest+maxlen-1 := by
    unfold wrapPred wrap
    rw [if_neg (by omega)]
    omega
  unfold copycheck userspacetop
  simp only [top]
  rw [if_neg (by omega),if_neg (by omega)]
  split
  · rw [Nat.min_eq_right (by omega)]
  · rw [Nat.min_eq_left (by omega)]

lemma smallSpace_separated : Separated smallSpace := by
  apply separated_of_injective smallSpace_mapped
  intro seg other i first j second different
  cases seg <;> cases other <;>
    simp only [AddrSpace.npages,AddrSpace.entry,AddrSpace.table,smallSpace,dumbvmStackpages] at * <;>
    simp only [Apart,pageSize,ne_eq,not_true_eq_false,false_or] at * <;> omega
end ToyOS.UserMemory

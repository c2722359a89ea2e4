import ToyOS.ExecLoad
import ToyOS.SfsFormat
import ToyOS.UserMemory

namespace ToyOS.LoadElf
open UserSpace Tlb Coremap SpaceFrames StoppedLoad FrameMemory Outcome Words UserMemory List Nat
open UserCopy (store storeHit)
open Running (Phdr)
open ExecLoad (defineAll)
open Sfs (blockSize)

def sizeofEhdr : Nat := 52
def sizeofPhdr : Nat := 32
def halfAt (bytes : Nat → UInt8) (k : Nat) : Nat := (bytes k).toNat*256+(bytes (k+1)).toNat

structure Ehdr where
  ident : Nat → UInt8
  type : Nat
  machine : Nat
  version : BitVec 32
  entry : BitVec 32
  phoff : BitVec 32
  phentsize : Nat
  phnum : Nat

def decodeEhdr (bytes : Nat → UInt8) : Ehdr where
  ident := bytes
  type := halfAt bytes 16
  machine := halfAt bytes 18
  version := wordAt bytes 20
  entry := wordAt bytes 24
  phoff := wordAt bytes 28
  phentsize := halfAt bytes 42
  phnum := halfAt bytes 44

def ptNull : BitVec 32 := 0
def ptLoad : BitVec 32 := 1
def ptPhdr : BitVec 32 := 6
def ptMipsReginfo : BitVec 32 := 0x70000000

-- A program header: a segment with its type and its place in the file.
structure Header extends Phdr where
  type : BitVec 32
  offset : BitVec 32

def decodePhdr (bytes : Nat → UInt8) : Header where
  type := wordAt bytes 0
  offset := wordAt bytes 4
  vaddr := wordAt bytes 8
  filesz := wordAt bytes 16
  memsz := wordAt bytes 20

def Ehdr.valid (eh : Ehdr) : Bool :=
  eh.ident 0 == 0x7f && eh.ident 1 == 69 && eh.ident 2 == 76 && eh.ident 3 == 70 && eh.ident 4 == 1 &&
    eh.ident 5 == 2 && eh.ident 6 == 1 && eh.version == 1 && eh.type == 2 && eh.machine == 8

def Header.skipped (ph : Header) : Bool := ph.type == ptNull || ph.type == ptPhdr || ph.type == ptMipsReginfo

-- The machine around load_elf: its memory, the choices of tlb_random, the disk's errors, what a new page table holds,
-- and what a failed as_prepare_load leaves in the free frames.
structure Env where
  ram : Ram
  random : Nat → Fin numTlb
  disk : Nat → Option Errno
  junk : Segment → Nat → Nat
  scrap : Memory

variable (env : Env) (file : List UInt8)

def transfer : Kern PUnit := do
  let s ← get
  set {s with ticks := s.ticks+1}
  match env.disk s.ticks with
  | some errno => fail errno
  | none => pure ⟨⟩

def readStruct (len offset : Nat) : Kern (Nat → UInt8) := do
  transfer env
  if offset+len ≤ file.length then pure fun k => file.getD (offset+k) 0 else fail .enoexec

def Ehdr.phdrOffset (eh : Ehdr) (i : Nat) : Nat := wrap (eh.phoff.toNat+i*eh.phentsize)

def readPhdr (eh : Ehdr) (i : Nat) : Kern Header := do
  let bytes ← readStruct env file sizeofPhdr (eh.phdrOffset i)
  pure (decodePhdr bytes)

def defineRegion (ph : Header) : Kern PUnit := do
  let s ← get
  match asDefineRegion s.cpu.space ph.vaddr.toNat ph.memsz.toNat with
  | .ok space => set {s with cpu := {s.cpu with space}}
  | .error errno => fail errno

def eachSegment (load : Header → Kern PUnit) (eh : Ehdr) : List Nat → Kern PUnit
  | [] => pure ⟨⟩
  | i :: rest => do
    let ph ← readPhdr env file eh i
    if ph.skipped then eachSegment load eh rest
    else if ph.type ≠ ptLoad then fail .enoexec
    else do
      load ph
      eachSegment load eh rest

def prepareLoad : Kern PUnit := do
  let s ← get
  match asPrepareLoad env.ram env.junk s.coremap s.cpu.space with
  | none => panics
  | some (.ok _ l) => set {s with
      cpu := {s.cpu with space := l.space},coremap := l.coremap,memory := asZeroRegions l.space s.memory}
  | some (.error errno l) => do
    set {s with
      cpu := {s.cpu with space := l.space},coremap := l.coremap,
      memory := scrapped env.ram s.coremap env.scrap s.memory}
    fail errno

-- A uio with one iovec in user space.
structure Uio where
  iovUbase : Nat
  iovLen : Nat
  resid : Nat
  offset : Nat

def Uio.advance (u : Uio) (size : Nat) : Uio :=
  ⟨wrap (u.iovUbase+size),u.iovLen-size,u.resid-size,u.offset+size⟩

def uiomove (bytes : List UInt8) (u : Uio) : Kern Uio :=
  if bytes = [] ∨ u.resid = 0 then pure u
  else if u.iovLen = 0 then panics
  else do
    copyout env.random (bytes.take u.iovLen) u.iovUbase
    if bytes.length ≤ u.iovLen ∨ u.resid ≤ min u.iovLen bytes.length then
      pure (u.advance (min u.iovLen bytes.length))
    else panics

def piece (u : Uio) : List UInt8 := (file.drop u.offset).take (min (blockSize-u.offset % blockSize) u.resid)

def sfsRead : Nat → Uio → Kern Uio
  | 0,u => pure u
  | rounds+1,u =>
    if u.resid = 0 ∨ file.length ≤ u.offset then pure u
    else do
      transfer env
      let u ← uiomove env (piece file u) u
      sfsRead rounds u

def loadSegment (ph : Header) : Kern PUnit := do
  let u ← sfsRead env file (min ph.filesz.toNat ph.memsz.toNat)
    ⟨ph.vaddr.toNat,ph.memsz.toNat,min ph.filesz.toNat ph.memsz.toNat,ph.offset.toNat⟩
  if u.resid ≠ 0 then fail .enoexec else pure ⟨⟩

def completeLoad : Kern PUnit := modify fun s => {s with cpu := ⟨s.cpu.space,true,flushed⟩}

def loadElf : Kern (BitVec 32) := do
  let bytes ← readStruct env file sizeofEhdr 0
  if (decodeEhdr bytes).valid = false then fail .enoexec
  else do
    eachSegment env file defineRegion (decodeEhdr bytes) (List.range (decodeEhdr bytes).phnum)
    prepareLoad env
    eachSegment env file (loadSegment env file) (decodeEhdr bytes) (List.range (decodeEhdr bytes).phnum)
    completeLoad
    pure (decodeEhdr bytes).entry

def bytesFrom (offset : Nat) : Nat → UInt8 := fun k => file.getD (offset+k) 0
def header : Ehdr := decodeEhdr (bytesFrom file 0)
def phdr (i : Nat) : Header := decodePhdr (bytesFrom file ((header file).phdrOffset i))
def loadsAmong (is : List Nat) : List Header := (is.map (phdr file)).filter (·.type == ptLoad)
def loads : List Header := loadsAmong file (List.range (header file).phnum)

def Readable (i : Nat) : Prop :=
  (header file).phdrOffset i+sizeofPhdr ≤ file.length ∧ ((phdr file i).skipped = true ∨ (phdr file i).type = ptLoad)

variable {env file} {s t : Machine} {E : Halt → Machine → Prop} {Q : PUnit → Machine → Prop}

def Machine.ticked (s : Machine) : Machine := {s with ticks := s.ticks+1}

lemma transfer_ends (errors : ∀ errno, env.disk s.ticks = some errno → E (.errno errno) (Machine.ticked s))
    (done : Q ⟨⟩ (Machine.ticked s)) : Ends (transfer env s) Q E := by
  refine ends_bind_get (ends_bind_set ?_)
  cases bad : env.disk s.ticks with
  | none => exact done
  | some errno => exact errors errno bad

lemma readStruct_ends
    (errors : ∀ errno, ¬((∀ n, env.disk n = none) ∧ offset+len ≤ file.length) → E (.errno errno) (Machine.ticked s)) :
    Ends (readStruct env file len offset s) (fun bytes t => bytes = bytesFrom file offset ∧
      offset+len ≤ file.length ∧ t = Machine.ticked s) E := by
  refine ends_bind (transfer_ends (Q := fun _ t => t = Machine.ticked s) ?_ rfl) fun _ t read => ?_
  · intro errno bad
    apply errors
    intro readable
    rw [readable.1] at bad
    cases bad
  subst read
  split
  · rename_i inside
    exact ⟨rfl,inside,rfl⟩
  rename_i out
  apply errors
  intro readable
  exact out readable.2

variable {ph : Header}

lemma skipped_load (skipped : ph.skipped) : (ph.type == ptLoad) = false := by
  simp only [Header.skipped,Bool.or_eq_true,beq_iff_eq] at skipped
  rcases skipped with (same | same) | same <;> rw [same] <;> decide

lemma eachSegment_ends {I : List Header → Machine → Prop} {load : Header → Kern PUnit}
    (tick : ∀ phs s, I phs s → I phs (Machine.ticked s))
    (handle : ∀ ph phs s, I (ph :: phs) s → Ends (load ph s) (fun _ t => I phs t) E)
    (errors : ∀ errno s, ¬((∀ n, env.disk n = none) ∧ ∀ i ∈ is, Readable file i) → E (.errno errno) s)
    (start : I (loadsAmong file is) s) :
    Ends (eachSegment env file load (header file) is s) (fun _ t => I [] t ∧ ∀ i ∈ is, Readable file i) E := by
  induction is generalizing s with
  | nil => exact ⟨start,fun _ among => absurd among not_mem_nil⟩
  | cons i rest ih =>
    have later : ∀ errno s, ¬((∀ n, env.disk n = none) ∧ ∀ i ∈ rest, Readable file i) → E (.errno errno) s := by
      intro errno s unreadable
      apply errors
      intro readable
      exact unreadable ⟨readable.1,fun j among => readable.2 j (mem_cons_of_mem _ among)⟩
    have both : ∀ t, Readable file i → (I [] t ∧ ∀ i ∈ rest, Readable file i) →
        I [] t ∧ ∀ j ∈ i :: rest, Readable file j := by
      intro t one held
      exact ⟨held.1,forall_mem_cons.mpr ⟨one,held.2⟩⟩
    refine ends_bind (ends_bind (readStruct_ends ?_) fun bytes t read => ?_)
      (Q := fun ph t => ph = phdr file i ∧ (header file).phdrOffset i+sizeofPhdr ≤ file.length ∧ t = Machine.ticked s)
      fun ph t read => ?_
    · intro errno unreadable
      apply errors
      intro readable
      exact unreadable ⟨readable.1,(readable.2 i mem_cons_self).1⟩
    · obtain ⟨rfl,inside,ticked⟩ := read
      exact ⟨rfl,inside,ticked⟩
    obtain ⟨rfl,inside,rfl⟩ := read
    split
    · rename_i skipped
      have same : loadsAmong file (i :: rest) = loadsAmong file rest := by
        simp only [loadsAmong,map_cons,filter_cons,skipped_load skipped,Bool.false_eq_true,if_false]
      rw [same] at start
      exact (ih later (tick _ _ start)).imp fun _ t => both t ⟨inside,.inl skipped⟩
    rename_i known
    split
    · rename_i ne
      apply errors
      intro readable
      rcases (readable.2 i mem_cons_self).2 with skipped | load_
      · exact known skipped
      · exact ne load_
    rename_i load_
    have isLoad : (phdr file i).type = ptLoad := not_not.mp load_
    have next : loadsAmong file (i :: rest) = phdr file i :: loadsAmong file rest := by
      simp only [loadsAmong,map_cons,filter_cons,isLoad,beq_self_eq_true,if_true]
    rw [next] at start
    refine ends_bind (handle _ _ _ (tick _ _ start)) fun _ t handled => ?_
    exact (ih later handled).imp fun _ t => both t ⟨inside,.inr isLoad⟩

def holder : List Header → Option (Header × List Header)
  | [] => none
  | ph :: rest => if pageFrame ph.vaddr.toNat = 0 ∧ rest ≠ [] then holder rest else some (ph,rest)

def segmentsOf (phs : List Header) : List Phdr := phs.map (·.toPhdr)

def withText (as : AddrSpace) (ph : Header) : AddrSpace :=
  {as with asVbase1 := pageFrame ph.vaddr.toNat,asNpages1 := ExecLoad.Phdr.npages ph.toPhdr}

def withData (as : AddrSpace) (ph : Header) : AddrSpace :=
  {as with asVbase2 := pageFrame ph.vaddr.toNat,asNpages2 := ExecLoad.Phdr.npages ph.toPhdr}

lemma define_text (as : AddrSpace) (empty : as.asVbase1 = 0) :
    asDefineRegion as ph.vaddr.toNat ph.memsz.toNat = .ok (withText as ph) := if_pos empty

lemma define_data (as : AddrSpace) (did : as.asVbase1 ≠ 0) (empty : as.asVbase2 = 0) :
    asDefineRegion as ph.vaddr.toNat ph.memsz.toNat = .ok (withData as ph) :=
  (if_neg did).trans (if_pos empty)

lemma defineAll_text {as : AddrSpace} (empty : as.asVbase1 = 0) (held : holder phs = some (text,rest)) :
    defineAll as (segmentsOf phs) = defineAll (withText as text) (segmentsOf rest) := by
  induction phs generalizing as with
  | nil => cases held
  | cons ph phs ih =>
    have one : defineAll as (segmentsOf (ph :: phs)) = defineAll (withText as ph) (segmentsOf phs) := by
      simp only [segmentsOf,map_cons,defineAll,define_text as empty]
    unfold holder at held
    split at held
    · rename_i low
      rw [one]
      exact ih low.1 held
    cases held
    exact one

lemma defineAll_data {as : AddrSpace} (did : as.asVbase1 ≠ 0)
    (empty : as.asVbase2 = 0) (held : holder phs = some (data,rest)) :
    defineAll as (segmentsOf phs) = defineAll (withData as data) (segmentsOf rest) := by
  induction phs generalizing as with
  | nil => cases held
  | cons ph phs ih =>
    have one : defineAll as (segmentsOf (ph :: phs)) = defineAll (withData as ph) (segmentsOf phs) := by
      simp only [segmentsOf,map_cons,defineAll,define_data as did empty]
    unfold holder at held
    split at held
    · rename_i low
      rw [one]
      exact ih did low.1 held
    cases held
    exact one

lemma holder_cases (phs : List Header) : phs = [] ∨ ∃ ph rest, holder phs = some (ph,rest) ∧
    (pageFrame ph.vaddr.toNat = 0 → rest = []) := by
  induction phs with
  | nil => exact .inl rfl
  | cons ph phs ih =>
    right
    unfold holder
    split
    · rename_i low
      exact ih.resolve_left low.2
    rename_i kept
    refine ⟨ph,phs,rfl,fun zero => ?_⟩
    by_contra more
    exact kept ⟨zero,more⟩

lemma defineAll_full {as : AddrSpace} (one : as.asVbase1 ≠ 0)
    (two : as.asVbase2 ≠ 0) (done : defineAll as (segmentsOf phs) = .ok defined) : phs = [] := by
  cases phs with
  | nil => rfl
  | cons ph rest =>
    rw [segmentsOf,map_cons,defineAll,asDefineRegion] at done
    simp only [one,two,if_false] at done
    cases done

lemma defineAll_holders (done : defineAll asCreate (segmentsOf phs) = .ok defined) (some_ : defined.asNpages2 ≠ 0) :
    ∃ text rest data, holder phs = some (text,rest) ∧ holder rest = some (data,[]) ∧
      defined = ExecLoad.planned text.toPhdr data.toPhdr := by
  rcases holder_cases phs with rfl | ⟨text,rest,held,low⟩
  · cases done
    exact absurd rfl some_
  rw [defineAll_text rfl held] at done
  rcases holder_cases rest with rfl | ⟨data,left,held',low'⟩
  · cases done
    exact absurd rfl some_
  have did : pageFrame text.vaddr.toNat ≠ 0 := by
    intro zero
    rw [low zero] at held'
    cases held'
  rw [defineAll_data did rfl held'] at done
  have over_ : left = [] := by
    by_cases zero : pageFrame data.vaddr.toNat = 0
    · exact low' zero
    · exact defineAll_full did zero done
  subst over_
  cases done
  exact ⟨text,rest,data,held,held',rfl⟩

lemma mapTable_some {junk : Nat → Nat} {next : Load}
    (done : mapTable r seg junk l = .ok () next) : l.space.npages seg ≠ 0 := by
  intro zero
  have refused : coremapAlloc r l.coremap 0 = (l.coremap,0) := by
    cases hit : coremapAlloc r l.coremap 0 with
    | mk after pa =>
      unfold coremapAlloc at hit
      split at hit
      · exact hit.symm
      rename_i start fit
      have le := (BlockStore.firstFit_sound fit le_rfl fun j above lt => absurd lt (by omega)).1
      rw [BlockStore.within_iff] at le
      exact absurd le.2.1 (lt_irrefl 0)
  unfold mapTable pagetableAlloc allocKpages at done
  rw [zero,show pagetablePages 0 = 0 from rfl,refused] at done
  cases done

lemma loadSpace_some {junk : Segment → Nat → Nat} {next : Load}
    (done : loadSpace r junk l = .ok () next) : next.space.asNpages1 ≠ 0 ∧ next.space.asNpages2 ≠ 0 := by
  have same := (loadSpace_filled done).2
  obtain ⟨l1,text,done⟩ := bind_ok done
  obtain ⟨l2,data,done⟩ := bind_ok done
  have one := mapTable_some text
  have two := mapTable_some data
  rw [(mapTable_npages text).1] at two
  rw [←same] at one two
  exact ⟨one,two⟩

def Fine (_ : Halt) (_ : Machine) : Prop := True

lemma defineRegion_ends (left : defineAll s.cpu.space (segmentsOf (ph :: phs)) = defined) :
    Ends (defineRegion ph s) (fun _ t => defineAll t.cpu.space (segmentsOf phs) = defined) Fine := by
  refine ends_bind_get ?_
  cases region : asDefineRegion s.cpu.space ph.vaddr.toNat ph.memsz.toNat with
  | error errno => trivial
  | ok space =>
    apply ends_set
    rw [←left]
    simp only [segmentsOf,map_cons,defineAll,region]

lemma prepareLoad_ends : Ends (prepareLoad env s) (fun _ t =>
    regions t.cpu.space = regions s.cpu.space ∧ t.cpu.space.asNpages1 ≠ 0 ∧ t.cpu.space.asNpages2 ≠ 0) Fine := by
  refine ends_bind_get ?_
  rcases done : asPrepareLoad env.ram env.junk s.coremap s.cpu.space with _ | ⟨_,l⟩ | ⟨errno,l⟩
  · trivial
  · have ran := (asPrepareLoad_some done).2
    exact ends_set ⟨loadSpace_regions ran,loadSpace_some ran⟩
  · trivial

lemma storeByte_space {random : Nat → Fin numTlb} (as : AddrSpace) (addr : Nat) (b : UInt8) :
    Keeps (fun s => s.cpu.space = as) Fine Anything (storeByte random addr b) := by
  intro s space
  refine ends_bind_get ?_
  cases stored : store (fun _ => random s.ticks) s.cpu addr with
  | stored cpu =>
    have same : cpu.space = s.cpu.space := by
      unfold store storeHit at stored
      split at stored
      · split at stored <;> cases stored
        rfl
      split at stored
      · split at stored
        · split at stored <;> cases stored
          rfl
        · cases stored
      all_goals cases stored
    cases here : hit cpu.tlb addr with
    | some p =>
      simp only [here]
      exact ends_set ⟨trivial,same.trans space⟩
    | none =>
      simp only [here]
      trivial
  | _ => trivial

lemma storeBytes_space {random : Nat → Fin numTlb} (as : AddrSpace) (addr : Nat) (bytes : List UInt8) :
    Keeps (fun s => s.cpu.space = as) Fine Anything (storeBytes random addr bytes) := by
  induction bytes generalizing addr with
  | nil => exact keeps_pure trivial
  | cons b rest ih => exact (storeByte_space as addr b).bind fun _ _ => ih _

section
variable (as : AddrSpace)
include as

lemma uiomove_space (bytes : List UInt8) (u : Uio) :
    Keeps (fun s => s.cpu.space = as) Fine Anything (uiomove env bytes u) := by
  have refused : ∀ {α : Type} (halt : Halt), Keeps (fun s => s.cpu.space = as) Fine Anything
      (throw halt : Kern α) := fun _ => keeps_throw fun _ _ => trivial
  unfold uiomove
  split
  · exact keeps_pure trivial
  split
  · exact refused _
  apply Keeps.bind (P := Anything)
  · unfold UserMemory.copyout
    split
    · exact refused _
    split
    · exact refused _
    · exact storeBytes_space as _ _
  intro _ _
  split
  · exact keeps_pure trivial
  · exact refused _

lemma transfer_space : Keeps (fun s => s.cpu.space = as) Fine Anything (transfer env) :=
  fun _ space => transfer_ends (fun _ _ => trivial) ⟨trivial,space⟩

lemma sfsRead_space (rounds : Nat) (u : Uio) :
    Keeps (fun s => s.cpu.space = as) Fine Anything (sfsRead env file rounds u) := by
  induction rounds generalizing u with
  | zero => exact keeps_pure trivial
  | succ rounds ih =>
    unfold sfsRead
    split
    · exact keeps_pure trivial
    apply (transfer_space as).bind
    intro _ _
    apply (uiomove_space as _ u).bind
    intro u _
    exact ih u

lemma loadSegment_space (ph : Header) : Keeps (fun s => s.cpu.space = as) Fine Anything (loadSegment env file ph) := by
  apply (sfsRead_space as _ _).bind
  intro u _
  split
  · exact keeps_throw fun _ _ => trivial
  · exact keeps_pure trivial

end

lemma loadElf_regions (fresh : s.cpu.space = asCreate) : Ends (loadElf env file s) (fun entry t =>
    entry = (header file).entry ∧ (∀ i ∈ range (header file).phnum, Readable file i) ∧
    ∃ text rest data, holder (loads file) = some (text,rest) ∧ holder rest = some (data,[]) ∧
      regions t.cpu.space = regions (ExecLoad.planned text.toPhdr data.toPhdr) ∧
      t.cpu.space.asNpages1 ≠ 0 ∧ t.cpu.space.asNpages2 ≠ 0) Fine := by
  refine ends_bind (readStruct_ends fun _ _ => trivial) fun bytes s1 read => ?_
  obtain ⟨rfl,inside,rfl⟩ := read
  split
  · trivial
  refine ends_bind (eachSegment_ends
    (I := fun phs s => defineAll s.cpu.space (segmentsOf phs) = defineAll asCreate (segmentsOf (loads file)))
    (fun _ _ held => held) (fun _ _ _ held => defineRegion_ends held) (fun _ _ _ => trivial)
    (by rw [←fresh]; rfl)) fun _ s2 defined => ?_
  refine ends_bind prepareLoad_ends fun _ s3 prep => ?_
  refine ends_bind (eachSegment_ends (I := fun _ s => s.cpu.space = s3.cpu.space) (fun _ _ held => held)
    (fun ph _ s held => (loadSegment_space _ ph s held).imp (fun _ _ kept => kept.2))
    (fun _ _ _ => trivial) rfl) fun _ s4 load => ?_
  refine ends_bind_modify (ends_pure ⟨rfl,load.2,?_⟩)
  have whole : defineAll asCreate (segmentsOf (loads file)) = .ok s2.cpu.space := defined.1.symm
  obtain ⟨same,one,two⟩ := prep
  have pages : s2.cpu.space.asNpages2 ≠ 0 := by
    have eq := congrArg (fun region => region.2.2.2) same
    exact fun zero => two (eq.trans zero)
  obtain ⟨text,rest,data,held,held',planned⟩ := defineAll_holders whole pages
  refine ⟨text,rest,data,held,held',?_,?_⟩
  · change regions s4.cpu.space = _
    rw [load.1,same,planned]
  change s4.cpu.space.asNpages1 ≠ 0 ∧ s4.cpu.space.asNpages2 ≠ 0
  rw [load.1]
  exact ⟨one,two⟩

-- Every segment lies in one of the two regions, which end below the kernel and are disjoint.
structure Sane (phs : List Header) (as : AddrSpace) : Prop where
  contained : ∀ ph ∈ phs, ∃ region, region ≠ .stack ∧ ∀ va, ExecLoad.Inside ph.toPhdr va → Lies as va region
  below : ∀ region, as.base region+as.npages region*pageSize ≤ userspacetop
  apart : ∀ va first second, Lies as va first → Lies as va second → first = second

def top (ph : Header) : Nat := pageFrame (ph.vaddr.toNat+ph.memsz.toNat+(pageSize-1))

def Within (ph region : Header) : Prop :=
  pageFrame region.vaddr.toNat ≤ ph.vaddr.toNat ∧ ph.vaddr.toNat+ph.memsz.toNat ≤ top region

def LaidOut (phs : List Header) : Prop :=
  ∃ text rest data, holder phs = some (text,rest) ∧ holder rest = some (data,[]) ∧
    top text ≤ stackbase ∧ top data ≤ stackbase ∧
    (top text ≤ pageFrame data.vaddr.toNat ∨ top data ≤ pageFrame text.vaddr.toNat) ∧
    ∀ ph ∈ phs, ph.memsz = 0 ∨ Within ph text ∨ Within ph data

lemma npages_exact (low : ph.memsz = 0 ∨ ph.vaddr.toNat+ph.memsz.toNat ≤ userspacetop) :
    pageFrame ph.vaddr.toNat+ExecLoad.Phdr.npages ph.toPhdr*pageSize = top ph := by
  have bound := ph.vaddr.isLt
  have small : ph.memsz.toNat+ph.vaddr.toNat % pageSize+pageSize < 2^32 := by
    rcases low with zero | lt
    · rw [zero]
      change 0+ph.vaddr.toNat % 4096+4096 < 2^32
      omega
    unfold userspacetop pageSize at *
    omega
  unfold ExecLoad.Phdr.npages top pageFrame wrap
  unfold pageSize at *
  omega

lemma holder_mem (held : holder phs = some (ph,rest)) : ph ∈ phs ∧ ∀ other ∈ rest, other ∈ phs := by
  induction phs with
  | nil => cases held
  | cons one phs ih =>
    unfold holder at held
    split at held
    · have later := ih held
      exact ⟨mem_cons_of_mem _ later.1,fun other among => mem_cons_of_mem _ (later.2 other among)⟩
    cases held
    exact ⟨mem_cons_self,fun other among => mem_cons_of_mem _ among⟩

lemma inside_region : (∀ va, ExecLoad.Inside ph.toPhdr va → Lies as va region) ↔ ph.memsz = 0 ∨
      as.base region ≤ ph.vaddr.toNat ∧ ph.vaddr.toNat+ph.memsz.toNat ≤ as.base region+as.npages region*pageSize := by
  have size : ph.memsz = 0 ↔ ph.memsz.toNat = 0 := BitVec.toNat_inj.symm
  rw [size]
  unfold ExecLoad.Inside Lies
  constructor
  · intro inside
    by_cases empty : ph.memsz.toNat = 0
    · exact .inl empty
    have one := inside ph.vaddr.toNat (by omega)
    have last := inside (ph.vaddr.toNat+ph.memsz.toNat-1) (by omega)
    omega
  intro cases_ va inside
  omega

section
variable (sane : Sane phs as)
include sane

lemma Sane.fits (among : ph ∈ phs) : ph.memsz = 0 ∨ ph.vaddr.toNat+ph.memsz.toNat ≤ userspacetop := by
  obtain ⟨region,_,inside⟩ := sane.contained ph among
  have lt := sane.below region
  refine (inside_region.mp inside).imp_right fun bounds => ?_
  omega

lemma Sane.separate (one two : Segment) (different : one ≠ two) (some1 : as.npages one ≠ 0)
    (some2 : as.npages two ≠ 0) :
    as.base one+as.npages one*pageSize ≤ as.base two ∨ as.base two+as.npages two*pageSize ≤ as.base one := by
  by_contra crossing
  apply different
  apply sane.apart (max (as.base one) (as.base two))
  all_goals
    unfold Lies
    unfold pageSize at *
    omega

end

-- The regions reach from the page of the first byte to that of the last one: nothing was rounded to 32 bits.
structure Spans (as : AddrSpace) (text data : Header) : Prop where
  base1 : as.asVbase1 = pageFrame text.vaddr.toNat
  base2 : as.asVbase2 = pageFrame data.vaddr.toNat
  top1 : as.asVbase1+as.asNpages1*pageSize = top text
  top2 : as.asVbase2+as.asNpages2*pageSize = top data

lemma planned_spans (same : regions as = regions (ExecLoad.planned text.toPhdr data.toPhdr))
    (low : ∀ ph ∈ [text,data], ph.memsz = 0 ∨ ph.vaddr.toNat+ph.memsz.toNat ≤ userspacetop) : Spans as text data := by
  simp only [regions,ExecLoad.planned,Prod.mk.injEq] at same
  obtain ⟨base1,npages1,base2,npages2⟩ := same
  refine ⟨base1,base2,?_,?_⟩
  · rw [base1,npages1]
    exact npages_exact (low text (by simp))
  · rw [base2,npages2]
    exact npages_exact (low data (by simp))

lemma stack_ends : stackbase+dumbvmStackpages*pageSize = userspacetop := by decide

section
variable (spans : Spans as text data) (held : holder phs = some (text,rest)) (held' : holder rest = some (data,[]))
include spans held held'

lemma Sane.laidOut (sane : Sane phs as) (first : as.asNpages1 ≠ 0) (second : as.asNpages2 ≠ 0) : LaidOut phs := by
  have below1 := sane.below .text
  have below2 := sane.below .data
  have textStack := sane.separate .text .stack (by decide) first (by change dumbvmStackpages ≠ 0; decide)
  have dataStack := sane.separate .data .stack (by decide) second (by change dumbvmStackpages ≠ 0; decide)
  have textData := sane.separate .text .data (by decide) first second
  have stack := stack_ends
  have top1 := spans.top1
  have top2 := spans.top2
  simp only [AddrSpace.base,AddrSpace.npages] at below1 below2 textStack dataStack textData
  rw [top1] at below1 textStack textData
  rw [top2] at below2 dataStack textData
  rw [spans.base1,spans.base2] at textData
  refine ⟨text,rest,data,held,held',?_,?_,textData,fun ph among => ?_⟩
  · unfold pageSize at *
    omega
  · unfold pageSize at *
    omega
  obtain ⟨region,notStack,inside⟩ := sane.contained ph among
  refine (inside_region.mp inside).imp_right fun bounds => ?_
  unfold Within
  rw [←spans.base1,←spans.top1,←spans.base2,←spans.top2]
  cases region with
  | text => exact .inl bounds
  | data => exact .inr bounds
  | stack => exact absurd rfl notStack

lemma LaidOut.sane (laidOut : LaidOut phs) : Sane phs as := by
  obtain ⟨text',rest',data',same,same',low1,low2,apart,contained⟩ := laidOut
  cases held.symm.trans same
  cases held'.symm.trans same'
  have stack := stack_ends
  unfold Within at contained
  rw [←spans.top1,←spans.top2,←spans.base1,←spans.base2] at apart
  rw [←spans.base1,←spans.top1,←spans.base2,←spans.top2] at contained
  rw [←spans.top1] at low1
  rw [←spans.top2] at low2
  refine ⟨fun ph among => ?_,fun region => ?_,fun va one two here there => ?_⟩
  · rcases contained ph among with empty | inText | inData
    · exact ⟨.text,by decide,inside_region.mpr (.inl empty)⟩
    · exact ⟨.text,by decide,inside_region.mpr (.inr inText)⟩
    · exact ⟨.data,by decide,inside_region.mpr (.inr inData)⟩
  · cases region with
    | text =>
      change as.asVbase1+as.asNpages1*pageSize ≤ userspacetop
      omega
    | data =>
      change as.asVbase2+as.asNpages2*pageSize ≤ userspacetop
      omega
    | stack => exact le_of_eq stack
  cases one <;> cases two <;> simp only [Lies,AddrSpace.base,AddrSpace.npages] at here there <;>
    first | rfl | omega

end

lemma sane_laidOut (held : holder phs = some (text,rest))
    (held' : holder rest = some (data,[])) (same : regions as = regions (ExecLoad.planned text.toPhdr data.toPhdr))
    (first : as.asNpages1 ≠ 0) (second : as.asNpages2 ≠ 0) : Sane phs as ↔ LaidOut phs := by
  constructor
  · intro sane
    have low : ∀ ph ∈ [text,data], ph.memsz = 0 ∨ ph.vaddr.toNat+ph.memsz.toNat ≤ userspacetop := by
      simpa using ⟨sane.fits (holder_mem held).1,sane.fits ((holder_mem held).2 _ (holder_mem held').1)⟩
    exact sane.laidOut (planned_spans same low) held held' first second
  intro laidOut
  obtain ⟨_,_,_,other,other',low1,low2,_⟩ := id laidOut
  cases held.symm.trans other
  cases held'.symm.trans other'
  have low : ∀ ph, top ph ≤ stackbase → ph.memsz = 0 ∨ ph.vaddr.toNat+ph.memsz.toNat ≤ userspacetop := by
    intro ph lt
    right
    unfold top pageFrame stackbase userstack userspacetop dumbvmStackpages pageSize at *
    omega
  have both : ∀ ph ∈ [text,data], ph.memsz = 0 ∨ ph.vaddr.toNat+ph.memsz.toNat ≤ userspacetop := by
    simpa using ⟨low text low1,low data low2⟩
  exact laidOut.sane (planned_spans same both) held held'

theorem loadElf_sane (fresh : s.cpu.space = asCreate) (done : loadElf env file s = .ok entry t) :
    Sane (loads file) t.cpu.space ↔ LaidOut (loads file) := by
  obtain ⟨_,_,text,rest,data,held,held',same,first,second⟩ := (loadElf_regions fresh).ok done
  exact sane_laidOut held held' same first second

def word (n : Nat) : List UInt8 := [UInt8.ofNat (n / 2^24),UInt8.ofNat (n / 2^16),UInt8.ofNat (n / 2^8),UInt8.ofNat n]

def elfHeader (entry phnum : Nat) : List UInt8 :=
  [0x7f,69,76,70,1,2,1,0]++List.replicate 8 0++[0,2,0,8]++word 1++word entry++word 52++word 0++word 0 ++
    [0,52,0,32,0,UInt8.ofNat phnum]++List.replicate 6 0

def programHeader (type offset vaddr filesz memsz : Nat) : List UInt8 :=
  word type++word offset++word vaddr++word 0++word filesz++word memsz++word 5++word 4096

def idleDisk : Env := ⟨FrameOwners.forkRam,fun _ => Running.slot,fun _ => none,fun _ _ => 0,fun _ => 0⟩
def freshProcess : Machine := ⟨⟨asCreate,false,flushed⟩,fun _ => 7,vmBootstrap FrameOwners.forkRam,0⟩

def accepted (result : EStateM.Result Halt Machine (BitVec 32)) : Option (BitVec 32 × Nat × Nat × Nat × Nat) :=
  match result with
  | .ok entry t => some (entry,regions t.cpu.space)
  | .error _ _ => none

lemma accepted_ok (done : accepted res = some (entry,layout)) :
    ∃ t, res = .ok entry t ∧ regions t.cpu.space = layout := by
  cases res with
  | ok e t =>
    cases done
    exact ⟨t,rfl,rfl⟩
  | error e t => cases done

def helloFile : List UInt8 :=
  elfHeader 0x400002 2++programHeader 1 116 0x400001 3 4096++programHeader 1 119 0x10000000 2 16++[1,2,3,4,5]

theorem loadElf_sane_hello : ∃ t, loadElf idleDisk helloFile freshProcess = .ok 0x400002 t ∧
    Sane (loads helloFile) t.cpu.space := by
  have ran : accepted (loadElf idleDisk helloFile freshProcess) =
      some (0x400002,0x400000,2,0x10000000,1) := by decide +kernel
  obtain ⟨t,done,_⟩ := accepted_ok ran
  refine ⟨t,done,(loadElf_sane rfl done).mpr ?_⟩
  have both : loads helloFile = [phdr helloFile 0,phdr helloFile 1] := rfl
  refine ⟨phdr helloFile 0,[phdr helloFile 1],phdr helloFile 1,rfl,rfl,by decide +kernel,by decide +kernel,
    .inl (by decide +kernel),?_⟩
  rw [both]
  simp only [List.forall_mem_cons,List.not_mem_nil,false_implies,implies_true,and_true]
  exact ⟨.inr (.inl (by unfold Within; decide +kernel)),.inr (.inr (by unfold Within; decide +kernel))⟩

def kernelFile : List UInt8 :=
  elfHeader 0x400000 2++programHeader 1 116 0x90000000 0 4096++programHeader 1 116 0x10000000 0 16

theorem kernel_segment_accepted : ∃ t, loadElf idleDisk kernelFile freshProcess = .ok 0x400000 t ∧
    ¬Sane (loads kernelFile) t.cpu.space := by
  have ran : accepted (loadElf idleDisk kernelFile freshProcess) =
      some (0x400000,0x90000000,1,0x10000000,1) := by decide +kernel
  obtain ⟨t,done,layout⟩ := accepted_ok ran
  refine ⟨t,done,fun sane => ?_⟩
  have below := sane.below .text
  simp only [regions,Prod.mk.injEq] at layout
  simp only [AddrSpace.base,AddrSpace.npages,layout.1,layout.2.1] at below
  exact absurd below (by decide)

section
variable {as : AddrSpace} {content : Nat → UInt8} {coremap : Entries}

lemma put_append (content : Nat → UInt8) (addr : Nat) (one second : List UInt8) :
    put (put content addr one) (addr+one.length) second = put content addr (one++second) := by
  induction one generalizing content addr with
  | nil => rw [put_nil]; rfl
  | cons b rest ih =>
    rw [put_cons,cons_append,put_cons,←ih,length_cons]
    congr 1
    omega

lemma ticked_process (proc : Process as false content coremap s) :
    Process as false content coremap (Machine.ticked s) :=
  ⟨proc.valid,proc.space,proc.loaded,proc.sees,proc.coremap⟩

lemma uiomove_fills {u : Uio} (sep : Separated as) (proc : Process as false content coremap s)
    (some_ : bytes ≠ []) (short : bytes.length ≤ u.resid) (room : u.resid ≤ u.iovLen)
    (lt : u.iovUbase+u.resid ≤ userspacetop) (accepts : ∀ k < u.resid, Accepts as false (u.iovUbase+k)) :
    Ends (uiomove env bytes u s) (fun v t => v = u.advance bytes.length ∧
      Process as false (put content u.iovUbase bytes) coremap t) E := by
  have pos := length_pos_of_ne_nil some_
  have whole : bytes.take u.iovLen = bytes := take_of_length_le (by omega)
  have size : min u.iovLen bytes.length = bytes.length := by omega
  unfold uiomove
  rw [if_neg (by simp only [some_,false_or]; omega),if_neg (by omega),whole,size]
  refine ends_bind (copyout_accepted sep proc some_ (by omega) fun k inside => accepts k (by omega)) ?_
  intro _ t moved
  rw [if_pos (.inl (by omega))]
  exact ⟨rfl,moved⟩

lemma sfsRead_fills {u : Uio} (idle : ∀ n, env.disk n = none) (sep : Separated as)
    (proc : Process as false content coremap s) (big : u.resid ≤ rounds) (room : u.resid ≤ u.iovLen)
    (lt : u.iovUbase+u.resid ≤ userspacetop) (here : ∀ k < u.resid, u.offset+k < file.length)
    (accepts : ∀ k < u.resid, Accepts as false (u.iovUbase+k)) :
    Ends (sfsRead env file rounds u s) (fun v t => v.resid = 0 ∧
      Process as false (put content u.iovUbase ((file.drop u.offset).take u.resid)) coremap t) E := by
  induction rounds generalizing u content s with
  | zero =>
    have finished : u.resid = 0 := by omega
    refine ends_pure ⟨finished,?_⟩
    rw [finished,take_zero,put_nil]
    exact proc
  | succ rounds ih =>
    unfold sfsRead
    by_cases finished : u.resid = 0
    · rw [if_pos (.inl finished)]
      refine ends_pure ⟨finished,?_⟩
      rw [finished,take_zero,put_nil]
      exact proc
    have last := here (u.resid-1) (by omega)
    rw [if_neg (by omega)]
    refine ends_bind (transfer_ends (Q := fun _ t => Process as false content coremap t) ?_
      (ticked_process proc)) fun _ t ready => ?_
    · intro errno bad
      rw [idle] at bad
      cases bad
    -- the piece ends at the end of a block or of the request
    have block : 0 < blockSize-u.offset % blockSize := Nat.sub_pos_of_lt (Nat.mod_lt _ (by decide))
    obtain ⟨n,size,pos,short⟩ : ∃ n, n = min (blockSize-u.offset % blockSize) u.resid ∧ 0 < n ∧ n ≤ u.resid :=
      ⟨_,rfl,by omega,by omega⟩
    have length : (piece file u).length = n := by
      unfold piece
      rw [←size,length_take,length_drop]
      omega
    have some_ : piece file u ≠ [] := by
      intro empty
      rw [empty,length_nil] at length
      omega
    refine ends_bind (uiomove_fills sep ready some_ (by omega) room lt accepts) fun v t moved => ?_
    obtain ⟨rfl,moved⟩ := moved
    have base : wrap (u.iovUbase+n) = u.iovUbase+n := Nat.mod_eq_of_lt (by unfold userspacetop at lt; omega)
    have advanced : u.advance (piece file u).length = ⟨u.iovUbase+n,u.iovLen-n,u.resid-n,u.offset+n⟩ := by
      rw [length,Uio.advance,base]
    rw [advanced]
    refine (ih moved ?_ ?_ ?_ ?_ ?_).imp ?_
    · change u.resid-n ≤ rounds
      omega
    · change u.resid-n ≤ u.iovLen-n
      omega
    · change u.iovUbase+n+(u.resid-n) ≤ userspacetop
      omega
    · intro k inside
      change k < u.resid-n at inside
      have later := here (n+k) (by omega)
      change u.offset+n+k < file.length
      omega
    · intro k inside
      change k < u.resid-n at inside
      have later := accepts (n+k) (by omega)
      rw [←Nat.add_assoc] at later
      exact later
    intro v t load
    refine ⟨load.1,?_⟩
    have joined : piece file u++(file.drop (u.offset+n)).take (u.resid-n) = (file.drop u.offset).take u.resid := by
      unfold piece
      rw [←size,←drop_drop,←take_add]
      congr 1
      omega
    have whole := load.2
    simp only at whole
    rwa [←length,put_append,length,joined] at whole

def segmentBytes (file : List UInt8) (ph : Header) : List UInt8 := (file.drop ph.offset.toNat).take ph.filesz.toNat

-- A segment with its bytes in the file and its pages in the address space.
structure Ready (file : List UInt8) (as : AddrSpace) (ph : Header) : Prop where
  size : ph.filesz.toNat ≤ ph.memsz.toNat
  below : ph.vaddr.toNat+ph.filesz.toNat ≤ userspacetop
  present : ∀ k < ph.filesz.toNat, ph.offset.toNat+k < file.length
  accepts : ∀ k < ph.filesz.toNat, Accepts as false (ph.vaddr.toNat+k)

lemma loadSegment_fills (idle : ∀ n, env.disk n = none) (sep : Separated as) (proc : Process as false content coremap s)
    (ready : Ready file as ph) : Ends (loadSegment env file ph s) (fun _ t =>
      Process as false (put content ph.vaddr.toNat (segmentBytes file ph)) coremap t) E := by
  have size := ready.size
  unfold loadSegment
  rw [min_eq_left size]
  refine ends_bind (sfsRead_fills idle sep proc le_rfl size ready.below ready.present ready.accepts) fun u t load => ?_
  rw [if_neg (by rw [load.1]; decide)]
  exact load.2

lemma sees_zeroed (mapped : Mapped as) (memory : Memory) : Sees as (asZeroRegions as memory) fun _ => 0 := by
  intro va p hit
  obtain ⟨seg,_,index,entry,_⟩ := physical_eq_some mapped hit
  have place : p = as.entry seg ((pageFrame va-as.base seg) / pageSize)+p % pageSize := by
    rw [entry]
    unfold pageFrame pageSize
    omega
  rw [place]
  exact zero_zeroed as memory index (mod_lt _ (by decide))

end

-- Two segments with no common page, below the stack and not in the first page.
structure TwoSegments (file : List UInt8) (text data : Header) : Prop where
  ehdr : sizeofEhdr ≤ file.length
  valid : (header file).valid = true
  phdrs : ∀ i < (header file).phnum, (header file).phdrOffset i+sizeofPhdr ≤ file.length
  two : loads file = [text,data]
  above : ∀ ph ∈ [text,data], pageSize ≤ ph.vaddr.toNat
  below : ∀ ph ∈ [text,data], top ph ≤ stackbase
  apart : top text ≤ pageFrame data.vaddr.toNat ∨ top data ≤ pageFrame text.vaddr.toNat
  size : ∀ ph ∈ [text,data], ph.filesz.toNat ≤ ph.memsz.toNat
  present : ∀ ph ∈ [text,data], ∀ k < ph.filesz.toNat, ph.offset.toNat+k < file.length

def Known (file : List UInt8) : Prop :=
  ∀ i < (header file).phnum, (phdr file i).skipped = true ∨ (phdr file i).type = ptLoad

def Enough (r : Ram) (coremap : Entries) (text data : Header) : Prop :=
  allocAll r coremap ((requests (ExecLoad.planned text.toPhdr data.toPhdr).npages).filter (· ≠ 0)) ≠ none

def Holds (t : Machine) (va : Nat) (b : UInt8) : Prop := ∃ p, physical t.cpu.space va = some p ∧ t.memory p = b

structure Image (file : List UInt8) (text data : Header) (t : Machine) : Prop where
  regions : regions t.cpu.space = regions (ExecLoad.planned text.toPhdr data.toPhdr)
  bytes : ∀ ph ∈ [text,data], ∀ k < ph.filesz.toNat,
    Holds t (ph.vaddr.toNat+k) (file.getD (ph.offset.toNat+k) 0)
  zero : ∀ va region, Lies t.cpu.space va region →
    (∀ ph ∈ [text,data], va < ph.vaddr.toNat ∨ ph.vaddr.toNat+ph.filesz.toNat ≤ va) → Holds t va 0

section
variable {text data : Header} {as : AddrSpace}

section
variable (two : TwoSegments file text data)
include two

lemma TwoSegments.low (ph : Header) (among : ph ∈ [text,data]) : ph.vaddr.toNat+ph.memsz.toNat ≤ stackbase ∧
      pageFrame ph.vaddr.toNat+ExecLoad.Phdr.npages ph.toPhdr*pageSize = top ph := by
  have lt := two.below ph among
  have low : ph.vaddr.toNat+ph.memsz.toNat ≤ stackbase := by
    unfold top pageFrame stackbase userstack userspacetop dumbvmStackpages pageSize at *
    omega
  refine ⟨low,npages_exact (.inr (le_trans low (by decide)))⟩

section
variable (same : regions as = regions (ExecLoad.planned text.toPhdr data.toPhdr))
include same

lemma TwoSegments.disjoint : Disjoint as := by
  simp only [regions,ExecLoad.planned,Prod.mk.injEq] at same
  obtain ⟨base1,npages1,base2,npages2⟩ := same
  have top1 := (two.low text (by simp)).2
  have top2 := (two.low data (by simp)).2
  have low1 := two.below text (by simp)
  have low2 := two.below data (by simp)
  have apart := two.apart
  rw [←base1,←npages1] at top1
  rw [←base2,←npages2] at top2
  have stack : stackbase+dumbvmStackpages*pageSize = userspacetop := by decide
  have lt : userspacetop < 2^32 := by decide
  constructor
  · intro region
    cases region with
    | text =>
      change as.asVbase1+as.asNpages1*pageSize < 2^32
      omega
    | data =>
      change as.asVbase2+as.asNpages2*pageSize < 2^32
      omega
    | stack =>
      change stackbase+dumbvmStackpages*pageSize < 2^32
      omega
  intro va one other here there
  rw [←top1,←top2,←base1,←base2] at apart
  rw [←top1] at low1
  rw [←top2] at low2
  cases one <;> cases other <;> simp only [Lies,AddrSpace.base,AddrSpace.npages] at here there <;>
    first | rfl | omega

lemma TwoSegments.prepared (one : as.asNpages1 ≠ 0) (second : as.asNpages2 ≠ 0) (tables : ∀ seg, as.table seg ≠ none) :
    Prepared as := by
  simp only [regions,ExecLoad.planned,Prod.mk.injEq] at same
  obtain ⟨base1,_,base2,_⟩ := same
  have whole : ∀ addr, pageFrame (pageFrame addr) = pageFrame addr := by
    intro addr
    unfold pageFrame pageSize
    omega
  refine ⟨?_,tables .text,one,tables .data,?_,second,tables .stack,?_,?_⟩
  · rw [base1]
    exact ExecLoad.pageFrame_ne_zero (two.above text (by simp))
  · rw [base2]
    exact ExecLoad.pageFrame_ne_zero (two.above data (by simp))
  · rw [base1]
    exact whole _
  rw [base2]
  exact whole _

end

end

lemma accepts_lies (region : Segment) (prep : Prepared as) (disjoint : Disjoint as) (lies : Lies as va region) :
    Accepts as false va := by
  have hit := (segmentOf_lies disjoint (pageFrame va) region).mpr ((lies_pageFrame prep va region).mpr lies)
  unfold Accepts
  rw [hit]
  exact ⟨Option.some_ne_none _,fun text => Bool.noConfusion text.2⟩

lemma TwoSegments.ready (two : TwoSegments file text data) (prep : Prepared as) (disjoint : Disjoint as)
    (same : regions as = regions (ExecLoad.planned text.toPhdr data.toPhdr)) :
      ∀ ph ∈ [text,data], Ready file as ph := by
  intro ph among
  have low := two.low ph among
  have size := two.size ph among
  have stack : stackbase ≤ userspacetop := by decide
  refine ⟨size,by omega,two.present ph among,fun k inside => ?_⟩
  have le : pageFrame ph.vaddr.toNat ≤ ph.vaddr.toNat+k ∧
      ph.vaddr.toNat+k < pageFrame ph.vaddr.toNat+ExecLoad.Phdr.npages ph.toPhdr*pageSize := by
    rw [low.2]
    unfold top pageFrame pageSize
    omega
  simp only [regions,ExecLoad.planned,Prod.mk.injEq] at same
  obtain ⟨base1,npages1,base2,npages2⟩ := same
  rcases mem_pair.mp among with rfl | rfl
  · rw [←base1,←npages1] at le
    exact accepts_lies .text prep disjoint le
  rw [←base2,←npages2] at le
  exact accepts_lies .data prep disjoint le

lemma enough_fits (big : Enough r coremap text data) (one : ExecLoad.Phdr.npages text.toPhdr ≠ 0)
    (two : ExecLoad.Phdr.npages data.toPhdr ≠ 0) : Fits r coremap (ExecLoad.planned text.toPhdr data.toPhdr) := by
  have pages : ∀ ph : Header, ExecLoad.Phdr.npages ph.toPhdr ≠ 0 →
    pagetablePages (ExecLoad.Phdr.npages ph.toPhdr) ≠ 0 := by
    intro ph some_
    have bound : ExecLoad.Phdr.npages ph.toPhdr ≤ 2^20 := by
      unfold ExecLoad.Phdr.npages pageFrame wrap pageSize
      omega
    generalize ExecLoad.Phdr.npages ph.toPhdr = n at *
    unfold pagetablePages roundup divroundup wrap sizeofPagetableEntry pageSize
    omega
  unfold Enough at big
  rw [filter_eq_self.mpr] at big
  · exact big
  intro n among
  simp only [requests,mem_append,mem_singleton,mem_replicate] at among
  apply decide_eq_true
  rcases among with rfl | rfl | rfl | ⟨_,rfl⟩ | ⟨_,rfl⟩ | ⟨_,rfl⟩
  · exact pages text one
  · exact pages data two
  · change pagetablePages 12 ≠ 0
    decide
  all_goals decide

lemma prepareLoad_zeroes (aligned : KernelPages.Aligned env.ram) (two : TwoSegments file text data)
    (space : s.cpu.space = ExecLoad.planned text.toPhdr data.toPhdr) (unloaded : s.cpu.loaded = false)
    (empty : s.cpu.tlb = flushed) (fits : Fits env.ram s.coremap s.cpu.space) :
    Ends (prepareLoad env s) (fun _ t => regions t.cpu.space = regions (ExecLoad.planned text.toPhdr data.toPhdr) ∧
      Mapped t.cpu.space ∧ Separated t.cpu.space ∧ Process t.cpu.space false (fun _ => 0) t.coremap t) E := by
  have miss : ∀ seg, s.cpu.space.table seg = none := by
    intro seg
    rw [space]
    cases seg <;> rfl
  obtain ⟨l,done⟩ : ∃ l, asPrepareLoad env.ram env.junk s.coremap s.cpu.space = some (.ok () l) := by
    rcases asPrepareLoad_cases aligned.installed miss env.junk s.coremap with ⟨_,done⟩ | ⟨full,_⟩
    · exact done
    · exact absurd fits full
  have ran := (asPrepareLoad_some done).2
  have same : regions l.space = regions (ExecLoad.planned text.toPhdr data.toPhdr) := by
    rw [loadSpace_regions ran,space]
  have some_ := loadSpace_some ran
  have prep := two.prepared same some_.1 some_.2 (loadSpace_maps ran).2.2
  have mapped := filled_mapped aligned (loadSpace_filled ran).1 prep
  refine ends_bind_get ?_
  rw [done]
  refine ends_set ⟨same,mapped,separated_of_injective mapped (loadSpace_injective ran),?_⟩
  refine ⟨⟨mapped,?_⟩,rfl,unloaded,sees_zeroed mapped _,rfl⟩
  change Coherent ⟨l.space,s.cpu.loaded,s.cpu.tlb⟩
  rw [empty]
  exact flushed_coherent _ _

def filledWith (file : List UInt8) (content : Nat → UInt8) (phs : List Header) : Nat → UInt8 :=
  phs.foldl (fun content ph => put content ph.vaddr.toNat (segmentBytes file ph)) content

lemma segmentBytes_length (here : ∀ k < ph.filesz.toNat, ph.offset.toNat+k < file.length) :
    (segmentBytes file ph).length = ph.filesz.toNat := by
  unfold segmentBytes
  rw [length_take,length_drop]
  by_cases empty : ph.filesz.toNat = 0
  · omega
  have last := here (ph.filesz.toNat-1) (by omega)
  omega

lemma segmentBytes_getD (lt : k < ph.filesz.toNat) :
    (segmentBytes file ph).getD k 0 = file.getD (ph.offset.toNat+k) 0 := by
  unfold segmentBytes
  simp only [getD_eq_getElem?_getD,getElem?_take,if_pos lt,getElem?_drop]

section
variable (two : TwoSegments file text data)
include two

lemma filled_bytes (among : ph ∈ [text,data]) (lt : k < ph.filesz.toNat) :
    filledWith file (fun _ => 0) [text,data] (ph.vaddr.toNat+k) = file.getD (ph.offset.toNat+k) 0 := by
  have lengthText := segmentBytes_length (two.present text (by simp))
  have lengthData := segmentBytes_length (two.present data (by simp))
  have size := two.size ph among
  have apart := two.apart
  change put (put _ text.vaddr.toNat (segmentBytes file text)) data.vaddr.toNat (segmentBytes file data) _ = _
  rcases mem_pair.mp among with rfl | rfl
  · rw [put_outside,put_inside (by rw [lengthText]; exact lt),segmentBytes_getD lt]
    have ne := two.size data (by simp)
    unfold top pageFrame pageSize at apart
    rw [lengthData]
    omega
  · rw [put_inside (by rw [lengthData]; exact lt),segmentBytes_getD lt]

lemma filled_zero (out : ∀ ph ∈ [text,data], va < ph.vaddr.toNat ∨ ph.vaddr.toNat+ph.filesz.toNat ≤ va) :
    filledWith file (fun _ => 0) [text,data] va = 0 := by
  change put (put _ text.vaddr.toNat (segmentBytes file text)) data.vaddr.toNat (segmentBytes file data) _ = _
  rw [put_outside,put_outside]
  · rw [segmentBytes_length (two.present text (by simp))]
    exact out text (by simp)
  rw [segmentBytes_length (two.present data (by simp))]
  exact out data (by simp)

lemma image_complete (prep : Prepared t.cpu.space) (mapped : Mapped t.cpu.space)
    (same : regions t.cpu.space = regions (ExecLoad.planned text.toPhdr data.toPhdr))
    (sees : Sees t.cpu.space t.memory (filledWith file (fun _ => 0) [text,data])) : Image file text data t := by
  have disjoint := two.disjoint same
  have held : ∀ va, Accepts t.cpu.space false va → Holds t va (filledWith file (fun _ => 0) [text,data] va) := by
    intro va accepts
    obtain ⟨p,hit⟩ := accepts_physical mapped accepts
    exact ⟨p,hit,sees va p hit⟩
  refine ⟨same,?_,?_⟩
  · intro ph among k inside
    rw [←filled_bytes two among inside]
    exact held _ ((two.ready prep disjoint same ph among).accepts k inside)
  intro va region lies outside
  rw [←filled_zero two outside]
  exact held va (accepts_lies region prep disjoint lies)

end

section
variable (two : TwoSegments file text data) (idle : ∀ n, env.disk n = none) (known : Known file)
include two

lemma TwoSegments.planned :
    defineAll asCreate (segmentsOf [text,data]) = .ok (ExecLoad.planned text.toPhdr data.toPhdr) := by
  have did := ExecLoad.pageFrame_ne_zero (two.above text (by simp))
  simp only [segmentsOf,map_cons,map_nil,defineAll,define_text asCreate rfl]
  rw [define_data (withText asCreate text) did rfl]
  rfl

include idle known

lemma TwoSegments.readable : (∀ n, env.disk n = none) ∧ ∀ i ∈ range (header file).phnum, Readable file i :=
  ⟨idle,fun i among => ⟨two.phdrs i (mem_range.mp among),known i (mem_range.mp among)⟩⟩

lemma defines_two (fresh : s.cpu.space = asCreate) (unloaded : s.cpu.loaded = false) (empty : s.cpu.tlb = flushed) :
    Ends (eachSegment env file defineRegion (header file) (range (header file).phnum) s)
      (fun _ t => t.cpu.space = ExecLoad.planned text.toPhdr data.toPhdr ∧ t.cpu.loaded = false ∧
        t.cpu.tlb = flushed ∧ t.coremap = s.coremap) E := by
  -- what is left to define makes the two regions of what is there
  refine (eachSegment_ends
    (I := fun phs t => defineAll t.cpu.space (segmentsOf phs) = .ok (ExecLoad.planned text.toPhdr data.toPhdr) ∧
      t.cpu.loaded = false ∧ t.cpu.tlb = flushed ∧ t.coremap = s.coremap) (fun _ _ held => held) ?_
    (fun _ _ unreadable => absurd (two.readable idle known) unreadable) ?_).imp
    (fun _ t defined => ⟨Except.ok.inj defined.1.1,defined.1.2⟩)
  · intro ph phs t held
    refine ends_bind_get ?_
    cases region : asDefineRegion t.cpu.space ph.vaddr.toNat ph.memsz.toNat with
    | error errno =>
      simp only [segmentsOf,map_cons,defineAll,region] at held
      exact absurd held.1 (by simp)
    | ok space =>
      simp only [segmentsOf,map_cons,defineAll,region] at held
      exact ends_set held
  · change defineAll s.cpu.space (segmentsOf (loads file)) = _ ∧ s.cpu.loaded = false ∧ s.cpu.tlb = flushed ∧ _
    rw [two.two,fresh]
    exact ⟨two.planned,unloaded,empty,rfl⟩

lemma fills_two (sep : Separated as) (proc : Process as false (fun _ => 0) coremap s)
    (ready : ∀ ph ∈ [text,data], Ready file as ph) :
    Ends (eachSegment env file (loadSegment env file) (header file) (range (header file).phnum) s)
      (fun _ t => Process as false (filledWith file (fun _ => 0) [text,data]) coremap t) E := by
  refine (eachSegment_ends (I := fun phs t => ∃ content, Process as false content coremap t ∧
      (∀ ph ∈ phs, Ready file as ph) ∧ filledWith file content phs = filledWith file (fun _ => 0) [text,data])
    ?_ ?_ (fun _ _ unreadable => absurd (two.readable idle known) unreadable) ?_).imp ?_
  · intro phs t held
    obtain ⟨content,proc,rest⟩ := held
    exact ⟨content,ticked_process proc,rest⟩
  · intro ph phs t held
    obtain ⟨content,proc,ready,rest⟩ := held
    rw [forall_mem_cons] at ready
    refine (loadSegment_fills idle sep proc ready.1).imp ?_
    intro _ u filled
    exact ⟨_,filled,ready.2,rest⟩
  · refine ⟨_,proc,?_,?_⟩
    · change ∀ ph ∈ loads file, _
      rw [two.two]
      exact ready
    change filledWith file _ (loads file) = _
    rw [two.two]
  rintro _ t ⟨⟨content,proc,_,filled⟩,_⟩
  rwa [← show content = _ from filled]

end

lemma loadElf_builds (aligned : KernelPages.Aligned env.ram) (two : TwoSegments file text data)
    (fresh : s.cpu.space = asCreate) (unloaded : s.cpu.loaded = false) (empty : s.cpu.tlb = flushed)
    (idle : ∀ n, env.disk n = none) (big : Enough env.ram s.coremap text data) (known : Known file)
    (one : ExecLoad.Phdr.npages text.toPhdr ≠ 0) (second : ExecLoad.Phdr.npages data.toPhdr ≠ 0) :
    Ends (loadElf env file s) (fun entry t => entry = (header file).entry ∧ Image file text data t)
      fun _ _ => False := by
  refine ends_bind (readStruct_ends ?_) fun bytes s1 read => ?_
  · intro errno unreadable
    exact unreadable ⟨idle,by rw [zero_add]; exact two.ehdr⟩
  obtain ⟨rfl,_,rfl⟩ := read
  have valid : ¬(decodeEhdr (bytesFrom file 0)).valid = false := by
    have valid := two.valid
    unfold header at valid
    rw [valid]
    decide
  rw [if_neg valid]
  refine ends_bind (defines_two two idle known fresh unloaded empty) fun _ s2 defined => ?_
  obtain ⟨space,unloaded,empty,coremap⟩ := defined
  have fits : Fits env.ram s2.coremap s2.cpu.space := by
    rw [coremap,space]
    exact enough_fits big one second
  refine ends_bind (prepareLoad_zeroes aligned two space unloaded empty fits) fun _ s3 zeroed => ?_
  obtain ⟨same,mapped,sep,proc⟩ := zeroed
  have prep := mapped.toPrepared
  have ready := two.ready prep (two.disjoint same) same
  refine ends_bind (fills_two two idle known sep proc ready) fun _ s4 filled => ?_
  refine ends_bind_modify (ends_pure ⟨rfl,?_⟩)
  have sees := filled.sees
  rw [← filled.space] at same mapped prep sees
  exact image_complete two prep mapped same sees

theorem loadElf_image (aligned : KernelPages.Aligned env.ram) (two : TwoSegments file text data)
    (fresh : s.cpu.space = asCreate) (unloaded : s.cpu.loaded = false) (empty : s.cpu.tlb = flushed)
    (idle : ∀ n, env.disk n = none) (enough : Enough env.ram s.coremap text data) :
    (∃ t, loadElf env file s = .ok (header file).entry t ∧ Image file text data t) ↔
      Known file ∧ ∀ ph ∈ [text,data], pageFrame ph.vaddr.toNat < top ph := by
  have pages : ∀ ph ∈ [text,data], pageFrame ph.vaddr.toNat < top ph ↔ ExecLoad.Phdr.npages ph.toPhdr ≠ 0 := by
    intro ph among
    have exact_ := (two.low ph among).2
    unfold pageSize at exact_
    omega
  constructor
  · intro builds
    obtain ⟨t,done,image⟩ := builds
    obtain ⟨_,readable,_,_,_,_,_,_,some1,some2⟩ := (loadElf_regions fresh).ok done
    have same := image.regions
    simp only [regions,ExecLoad.planned,Prod.mk.injEq] at same
    rw [same.2.1] at some1
    rw [same.2.2.2] at some2
    refine ⟨fun i below => (readable i (List.mem_range.mpr below)).2,?_⟩
    intro ph among
    rw [pages ph among]
    rcases List.mem_pair.mp among with rfl | rfl
    · exact some1
    · exact some2
  intro holds
  have first := (pages text (by simp)).mp (holds.2 text (by simp))
  have second := (pages data (by simp)).mp (holds.2 data (by simp))
  have ends := loadElf_builds aligned two fresh unloaded empty idle enough holds.1 first second
  cases done : loadElf env file s with
  | ok entry t =>
    obtain ⟨rfl,image⟩ := ends.ok done
    exact ⟨t,rfl,image⟩
  | error halt t => exact absurd (ends.failed done) not_false

end

lemma enough_decided {text data : Header}
    (hit : (allocAll r coremap ((requests (ExecLoad.planned text.toPhdr data.toPhdr).npages).filter (· ≠ 0))).isSome =
      true) : Enough r coremap text data := Option.isSome_iff_ne_none.mp hit

lemma hello_twoSegments : TwoSegments helloFile (phdr helloFile 0) (phdr helloFile 1) :=
  ⟨by decide +kernel,by decide +kernel,by decide +kernel,rfl,by decide +kernel,by decide +kernel,
    .inl (by decide +kernel),by decide +kernel,by decide +kernel⟩

theorem loadElf_image_hello : ∃ t, loadElf idleDisk helloFile freshProcess = .ok 0x400002 t ∧
    Holds t 0x400001 1 ∧ Holds t 0x400000 0 ∧ Holds t 0x10000001 5 ∧ Holds t 0x7fffffff 0 := by
  have built := @loadElf_image idleDisk helloFile freshProcess _ _ forkRam_aligned hello_twoSegments rfl rfl rfl
    (fun _ => rfl) (enough_decided (by decide +kernel))
  obtain ⟨t,done,image⟩ := built.mpr ⟨by unfold Known; decide +kernel,by decide +kernel⟩
  have regions := image.regions
  have byte : ∀ va b, (∃ ph ∈ [phdr helloFile 0,phdr helloFile 1], ∃ k < ph.filesz.toNat,
      ph.vaddr.toNat+k = va ∧ helloFile.getD (ph.offset.toNat+k) 0 = b) → Holds t va b := by
    intro va b place
    obtain ⟨ph,among,k,inside,rfl,rfl⟩ := place
    exact image.bytes ph among k inside
  simp only [FrameMemory.regions,Prod.mk.injEq] at regions
  obtain ⟨base1,npages1,_,_⟩ := regions
  refine ⟨t,done,byte _ _ (by decide +kernel),image.zero _ .text ?_ (by decide +kernel),byte _ _ (by decide +kernel),
    image.zero _ .stack ⟨by change stackbase ≤ _; decide +kernel,
      by change _ < stackbase+dumbvmStackpages*pageSize; decide +kernel⟩
      (by decide +kernel)⟩
  unfold Lies AddrSpace.base AddrSpace.npages
  simp only [base1,npages1]
  decide +kernel

def noteFile : List UInt8 :=
  elfHeader 0x400002 3++programHeader 4 148 0 0 0++programHeader 1 148 0x400001 3 4096 ++
    programHeader 1 151 0x10000000 2 16++[1,2,3,4,5]

def refusal (result : EStateM.Result Halt Machine (BitVec 32)) : Option Halt :=
  match result with
  | .ok _ _ => none
  | .error halt _ => some halt

theorem note_refused : ∃ text data, TwoSegments noteFile text data ∧
    Enough FrameOwners.forkRam freshProcess.coremap text data ∧
    refusal (loadElf idleDisk noteFile freshProcess) = some (.errno .enoexec) := by
  refine ⟨phdr noteFile 1,phdr noteFile 2,?_,enough_decided (by decide +kernel),by decide +kernel⟩
  exact ⟨by decide +kernel,by decide +kernel,by decide +kernel,rfl,by decide +kernel,by decide +kernel,
    .inl (by decide +kernel),by decide +kernel,by decide +kernel⟩
end ToyOS.LoadElf

import ToyOS.Library.Transition
import ToyOS.UserSpace

namespace ToyOS.Tlb
open Function UserSpace Option

def numTlb : Nat := 64

structure Entry where
  vpage : Nat
  ppage : Nat
  dirty : Bool
  valid : Bool

abbrev Slots := Fin numTlb → Entry

def invalid (i : Fin numTlb) : Entry := ⟨(0x80000+i)*2^12,0,false,false⟩
def flushed : Slots := invalid

def lookup (tlb : Slots) (page : Nat) : Option (Fin numTlb) :=
  (List.finRange numTlb).find? fun i => (tlb i).valid && (tlb i).vpage == page

def firstInvalid (tlb : Slots) : Option (Fin numTlb) :=
  (List.finRange numTlb).find? fun i => !(tlb i).valid

inductive FaultType where
  | read
  | write
  | readonly
  deriving DecidableEq

inductive FaultResult where
  | installed (tlb : Slots)
  | error (errno : Errno)
  | exits
  | assertion

def pageTableEntry (table : Option PageTable) (i : Nat) : Option Nat := table.map (·.paddr i)

def paddrOf (as : AddrSpace) (page : Nat) : Segment → Option Nat
  | .text => pageTableEntry as.pagePbase1 ((page-as.asVbase1) / pageSize)
  | .data => pageTableEntry as.pagePbase2 ((page-as.asVbase2) / pageSize)
  | .stack => pageTableEntry as.pageStackpbase ((page-stackbase) / pageSize)

def entryFor (page paddr : Nat) (segment : Segment) (loaded : Bool) : Entry :=
  ⟨page,paddr,!(segment == .text && loaded),true⟩

def vmFault (as : AddrSpace) (loaded : Bool) (tlb : Slots) (random : Fin numTlb) (kind : FaultType)
    (faultaddress : Nat) : FaultResult :=
  let page := pageFrame faultaddress
  if kind = .readonly then .exits
  else if ¬ Prepared as then .assertion
  else match segmentOf as page with
    | none => .error .efault
    | some segment => match paddrOf as page segment with
      | none => .assertion
      | some paddr =>
        if pageFrame paddr ≠ paddr then .assertion
        else .installed (update tlb ((firstInvalid tlb).getD random) (entryFor page paddr segment loaded))

-- Page tables are filled from the frame allocator, which hands out whole pages.
structure Mapped (as : AddrSpace) : Prop extends Prepared as where
  frames : ∀ page segment paddr, segmentOf as page = some segment →
    paddrOf as page segment = some paddr → pageFrame paddr = paddr

lemma smallSpace_mapped : Mapped smallSpace := by
  refine ⟨by decide,?_⟩
  intro page seg paddr _ entry
  cases seg <;> (cases some.inj entry; exact pageFrame_mul _)

-- What the processor sees: the current process's address space, whether its program is loaded, and the TLB.
structure Cpu where
  space : AddrSpace
  loaded : Bool
  tlb : Slots

inductive CpuEvent where
  | activate (space : AddrSpace) (loaded : Bool)
  | completeLoad
  | fault (random : Fin numTlb) (kind : FaultType) (faultaddress : Nat)

def cpuStep (c : Cpu) : CpuEvent → Option Cpu
  | .activate space loaded => some ⟨space,loaded,flushed⟩
  | .completeLoad => some ⟨c.space,true,flushed⟩
  | .fault random kind faultaddress =>
    match vmFault c.space c.loaded c.tlb random kind faultaddress with
    | .installed tlb => some {c with tlb := tlb}
    | .error _ => some c
    | .exits => none
    | .assertion => none

def CpuAllowed (c : Cpu) : CpuEvent → Prop
  | .activate space _ => Mapped space
  | .completeLoad => True
  | .fault _ _ faultaddress => lookup c.tlb (pageFrame faultaddress) = none

def CpuReached (start c : Cpu) : Prop := Transition.Reached cpuStep CpuAllowed start c

def Coherent (c : Cpu) : Prop :=
  ∀ i, (c.tlb i).valid = true → ∃ segment paddr, segmentOf c.space (c.tlb i).vpage = some segment ∧
    paddrOf c.space (c.tlb i).vpage segment = some paddr ∧
    c.tlb i = entryFor (c.tlb i).vpage paddr segment c.loaded

lemma flushed_coherent (space : AddrSpace) (load : Bool) : Coherent ⟨space,load,flushed⟩ := by
  intro i ok
  cases ok

lemma vmFault_cases (mapped : Mapped as) (load : Bool) (tlb : Slots) (random : Fin numTlb) (va : Nat)
    (ordinary : kind ≠ .readonly) :
    (segmentOf as (pageFrame va) = none ∧ vmFault as load tlb random kind va = .error .efault) ∨
    ∃ seg paddr, segmentOf as (pageFrame va) = some seg ∧ paddrOf as (pageFrame va) seg = some paddr ∧
      vmFault as load tlb random kind va = .installed
        (update tlb ((firstInvalid tlb).getD random) (entryFor (pageFrame va) paddr seg load)) := by
  have ready : ¬¬ Prepared as := not_not.mpr mapped.toPrepared
  cases hit : segmentOf as (pageFrame va) with
  | none => exact .inl ⟨rfl,by simp [vmFault,ordinary,ready,hit]⟩
  | some seg =>
    have here : ∃ paddr, paddrOf as (pageFrame va) seg = some paddr := by
      cases seg with
      | text => exact (ne_none_iff_exists'.mp mapped.pbase1).elim fun t h => ⟨_,by simp [paddrOf,pageTableEntry,h]; rfl⟩
      | data => exact (ne_none_iff_exists'.mp mapped.pbase2).elim fun t h => ⟨_,by simp [paddrOf,pageTableEntry,h]; rfl⟩
      | stack => exact (ne_none_iff_exists'.mp mapped.stack).elim fun t h => ⟨_,by simp [paddrOf,pageTableEntry,h]; rfl⟩
    obtain ⟨paddr,entry⟩ := here
    have aligned := mapped.frames _ _ _ hit entry
    exact .inr ⟨seg,paddr,rfl,entry,by simp [vmFault,ordinary,ready,hit,entry,aligned]⟩

lemma installed_coherent {seg : Segment} (coh : Coherent c) (hit : segmentOf c.space page = some seg)
    (entry : paddrOf c.space page seg = some paddr) :
    Coherent {c with tlb := update c.tlb slot (entryFor page paddr seg c.loaded)} := by
  intro i valid
  by_cases here : i = slot
  · subst here
    simp only [update_self] at valid ⊢
    exact ⟨seg,paddr,hit,entry,rfl⟩
  simp only [update_of_ne here] at valid ⊢
  exact coh i valid

def CpuInvariant (c : Cpu) : Prop := Mapped c.space ∧ Coherent c

lemma cpuStep_invariant (ok : CpuInvariant c) (may : CpuAllowed c event)
    (did : cpuStep c event = some after) : CpuInvariant after := by
  cases event with
  | activate space load => cases did; exact ⟨may,flushed_coherent _ _⟩
  | completeLoad => cases did; exact ⟨ok.1,flushed_coherent _ _⟩
  | fault random kind va =>
    by_cases ordinary : kind = .readonly
    · simp [cpuStep,vmFault,ordinary] at did
    rcases vmFault_cases ok.1 c.loaded c.tlb random va ordinary with ⟨_,bad⟩ | ⟨seg,paddr,hit,entry,inst⟩
    · simp only [cpuStep,bad,some.injEq] at did
      subst did
      exact ok
    simp only [cpuStep,inst,some.injEq] at did
    subst did
    exact ⟨ok.1,installed_coherent ok.2 hit entry⟩

lemma cpuReached_invariant (path : CpuReached ⟨space,load,flushed⟩ c) (mapped : Mapped space) : CpuInvariant c :=
  Transition.Reached.invariant CpuInvariant path ⟨mapped,flushed_coherent _ _⟩
    fun _ ok may did => cpuStep_invariant ok may did

lemma lookup_some (hit : lookup tlb page = some i) : (tlb i).valid ∧ (tlb i).vpage = page := by
  have test := List.find?_some hit
  simpa using test

lemma lookup_none (miss : lookup tlb page = none) (i : Fin numTlb) : (tlb i).valid → (tlb i).vpage ≠ page := by
  intro ok eq
  have test := List.find?_eq_none.mp miss i (List.mem_finRange i)
  simp [ok,eq] at test

lemma lookup_update {seg : Segment} (miss : lookup tlb page = none) :
    lookup (update tlb slot (entryFor page paddr seg loaded)) page = some slot := by
  cases hit : lookup (update tlb slot (entryFor page paddr seg loaded)) page with
  | none =>
    have absent := lookup_none hit slot
    simp [entryFor] at absent
  | some i =>
    obtain ⟨ok,eq⟩ := lookup_some hit
    by_cases here : i = slot
    · rw [here]
    rw [update_of_ne here] at ok eq
    exact absurd eq (lookup_none miss i ok)

def Lies (as : AddrSpace) (va : Nat) (segment : Segment) : Prop :=
  as.base segment ≤ va ∧ va < as.base segment+as.npages segment*pageSize

instance (as : AddrSpace) (va : Nat) (segment : Segment) : Decidable (Lies as va segment) :=
  inferInstanceAs (Decidable (_ ∧ _))

-- The tops of the regions do not wrap around, and no address lies in two of them.
structure Disjoint (as : AddrSpace) : Prop where
  top : ∀ segment, as.base segment+as.npages segment*pageSize < 2^32
  apart : ∀ va first second, Lies as va first → Lies as va second → first = second

lemma base_aligned (prep : Prepared as) (seg : Segment) : as.base seg % pageSize = 0 := by
  have one := prep.aligned1
  have two := prep.aligned2
  unfold pageFrame pageSize at one two
  unfold pageSize
  cases seg with
  | text =>
    change as.asVbase1 % 4096 = 0
    omega
  | data =>
    change as.asVbase2 % 4096 = 0
    omega
  | stack =>
    change stackbase % 4096 = 0
    decide

lemma lies_pageFrame (prep : Prepared as) (va : Nat) (seg : Segment) : Lies as (pageFrame va) seg ↔ Lies as va seg := by
  have aligned := base_aligned prep seg
  unfold Lies pageFrame pageSize at *
  omega

lemma segmentOf_eq (disjoint : Disjoint as) (page : Nat) : segmentOf as page =
    if Lies as page .text then some .text else if Lies as page .data then some .data
    else if Lies as page .stack then some .stack else none := by
  have text : vtop1 as = as.asVbase1+as.asNpages1*pageSize := Nat.mod_eq_of_lt (disjoint.top .text)
  have data : vtop2 as = as.asVbase2+as.asNpages2*pageSize := Nat.mod_eq_of_lt (disjoint.top .data)
  have stack : userstack = stackbase+dumbvmStackpages*pageSize := by decide
  simp only [segmentOf,Lies,AddrSpace.base,AddrSpace.npages,text,data,stack]
  congr

lemma segmentOf_lies (disjoint : Disjoint as) (page : Nat) (seg : Segment) :
    segmentOf as page = some seg ↔ Lies as page seg := by
  rw [segmentOf_eq disjoint]
  constructor
  · intro hit
    split at hit
    · cases hit
      assumption
    split at hit
    · cases hit
      assumption
    split at hit
    · cases hit
      assumption
    · cases hit
  intro inside
  have only := fun other => disjoint.apart page seg other inside
  cases seg with
  | text => exact if_pos inside
  | data =>
    rw [if_neg fun one => absurd (only .text one) (by decide)]
    exact if_pos inside
  | stack =>
    rw [if_neg fun one => absurd (only .text one) (by decide),if_neg fun two => absurd (only .data two) (by decide)]
    exact if_pos inside

lemma segmentOf_none (disjoint : Disjoint as) (page : Nat) : segmentOf as page = none ↔ ∀ seg, ¬Lies as page seg := by
  rw [Option.eq_none_iff_forall_ne_some]
  exact forall_congr' fun seg => not_congr (segmentOf_lies disjoint page seg)

lemma paddrOf_table (prep : Prepared as) {seg : Segment} (inside : Lies as va seg) :
    paddrOf as (pageFrame va) seg = (as.table seg).map (·.paddr ((va-as.base seg) / pageSize)) := by
  have aligned := base_aligned prep seg
  have index : (pageFrame va-as.base seg) / pageSize = (va-as.base seg) / pageSize := by
    have above := inside.1
    unfold pageFrame pageSize at *
    omega
  rw [←index]
  cases seg with
  | text => rfl
  | data => rfl
  | stack => rfl

lemma firstInvalid_invalid (hit : firstInvalid tlb = some i) : (tlb i).valid = false := by
  have test := List.find?_some hit
  simpa using test

lemma firstInvalid_none (miss : firstInvalid tlb = none) (i : Fin numTlb) : (tlb i).valid := by
  have test := List.find?_eq_none.mp miss i (List.mem_finRange i)
  simpa using test

lemma slot_invalid (tlb : Slots) (random : Fin numTlb) (i : Fin numTlb) (unused : (tlb i).valid = false) :
    (tlb ((firstInvalid tlb).getD random)).valid = false := by
  cases hit : firstInvalid tlb with
  | none =>
    rw [firstInvalid_none hit i] at unused
    cases unused
  | some slot => exact firstInvalid_invalid hit

theorem vmFault_translates (mapped : Mapped as) (disjoint : Disjoint as) (loaded : Bool) (random : Fin numTlb)
    (ordinary : kind ≠ .readonly) (missing : lookup tlb (pageFrame va) = none) :
    (vmFault as loaded tlb random kind va = .error .efault ↔ ∀ segment, ¬Lies as va segment) ∧
    ∀ segment, Lies as va segment → ∃ slot table after,
      vmFault as loaded tlb random kind va = .installed after ∧
      (∀ i, after i ≠ tlb i ↔ i = slot) ∧
      ((∃ i, (tlb i).valid = false) → (tlb slot).valid = false) ∧
      as.table segment = some table ∧
      after slot = ⟨pageFrame va,table.paddr ((va-as.base segment) / pageSize),
        !decide (segment = .text ∧ loaded = true),true⟩ := by
  have refused := segmentOf_none disjoint (pageFrame va)
  simp only [lies_pageFrame mapped.toPrepared] at refused
  rcases vmFault_cases mapped loaded tlb random va ordinary with ⟨outside,failed⟩ | ⟨found,paddr,here,entry,installed⟩
  · refine ⟨⟨fun _ => refused.mp outside,fun _ => failed⟩,?_⟩
    intro segment inside
    exact absurd inside (refused.mp outside segment)
  have lies : Lies as va found := (lies_pageFrame mapped.toPrepared va found).mp ((segmentOf_lies disjoint _ _).mp here)
  constructor
  · constructor
    · intro failed
      rw [installed] at failed
      cases failed
    intro nowhere
    exact absurd lies (nowhere found)
  intro segment inside
  cases disjoint.apart va segment found inside lies
  rw [paddrOf_table mapped.toPrepared lies] at entry
  obtain ⟨table,recorded,rfl⟩ := map_eq_some_iff.mp entry
  refine ⟨(firstInvalid tlb).getD random,table,_,installed,?_,?_,recorded,?_⟩
  · intro i
    constructor
    · intro changed
      by_contra other
      exact changed (update_of_ne other ..)
    intro same unchanged
    subst same
    rw [update_self] at unchanged
    -- The page was not in the TLB before.
    exact lookup_none missing _ (by rw [←unchanged]; rfl) (by rw [←unchanged]; rfl)
  · intro ⟨i,unused⟩
    exact slot_invalid tlb random i unused
  rw [update_self]
  unfold entryFor
  cases found <;> cases loaded <;> rfl

lemma smallSpace_disjoint : Disjoint smallSpace := by
  constructor
  · intro seg
    cases seg <;> decide
  intro va first second one two
  cases first <;> cases second <;>
    simp only [Lies,AddrSpace.base,AddrSpace.npages,smallSpace,stackbase,userstack,userspacetop,dumbvmStackpages,
      pageSize] at one two <;>
    first | rfl | omega

theorem vmFault_translates_stack : ∃ slot after,
    vmFault smallSpace true flushed ⟨5,by decide⟩ .write (stackbase+4100) = .installed after ∧
      (∀ i, after i ≠ flushed i ↔ i = slot) ∧ after slot = ⟨stackbase+4096,38*pageSize,true,true⟩ := by
  obtain ⟨_,lookups⟩ := vmFault_translates smallSpace_mapped smallSpace_disjoint true ⟨5,by decide⟩
    (by decide : FaultType.write ≠ .readonly) (by decide : lookup flushed (pageFrame (stackbase+4100)) = none)
  obtain ⟨slot,table,after,installed,changed,_,recorded,entry⟩ := lookups .stack (by decide)
  cases recorded
  exact ⟨slot,after,installed,changed,entry⟩
end ToyOS.Tlb

import ToyOS.Tlb

namespace ToyOS.Traps
open Function UserSpace Tlb

-- mips/trapframe.h, in its order
inductive Register where
  | vaddr | status | cause | lo | hi
  | ra | at | v0 | v1 | a0 | a1 | a2 | a3
  | t0 | t1 | t2 | t3 | t4 | t5 | t6 | t7
  | s0 | s1 | s2 | s3 | s4 | s5 | s6 | s7
  | t8 | t9 | k0 | k1 | gp | sp | s8 | epc
  deriving DecidableEq

abbrev Trapframe := Register → BitVec 32

def syscallReturn (tf : Trapframe) : Except (BitVec 32) (BitVec 32) → Trapframe
  | .ok retval => update (update (update tf .v0 retval) .a3 0) .epc (tf .epc+4)
  | .error err => update (update (update tf .v0 err) .a3 1) .epc (tf .epc+4)

def forkedFrame (tf : Trapframe) : Trapframe :=
  update (update (update tf .v0 0) .a3 0) .epc (tf .epc+4)

def userStatus : BitVec 32 := 0x0000ff0c

def enterNewProcess (argc argv stack entry : BitVec 32) : Trapframe :=
  update (update (update (update (update (fun _ => 0) .status userStatus) .epc entry)
    .a0 argc) .a1 argv) .sp stack

inductive ExCode where
  | irq | mod | tlbl | tlbs | adel | ades | ibe | dbe | sys | bp | ri | cpu | ovf
  deriving DecidableEq

-- What a trap comes to: the instruction is retried with this TLB, copyfail is resumed, the process exits, or the kernel
-- stops. Other code serves (`serviced`) interrupts and system calls.
inductive TrapResult where
  | retried (tlb : Slots)
  | copyfail
  | exits
  | panics
  | serviced

def faultType : ExCode → Option FaultType
  | .mod => some .readonly
  | .tlbl => some .read
  | .tlbs => some .write
  | _ => none

def vmFaultCurrent (as : Option AddrSpace) (loaded : Bool) (tlb : Slots) (random : Fin numTlb)
    (kind : FaultType) (faultaddress : Nat) : FaultResult :=
  match as with
  | some as => vmFault as loaded tlb random kind faultaddress
  | none => if kind = .readonly then .exits else .error .efault

def killCurthread (_ : ExCode) : TrapResult := .panics

def fatal (iskern badfaultfunc : Bool) (code : ExCode) : TrapResult :=
  if !iskern then killCurthread code
  else if badfaultfunc then .copyfail
  else .panics

def mipsTrap (as : Option AddrSpace) (loaded : Bool) (tlb : Slots) (random : Fin numTlb)
    (iskern badfaultfunc : Bool) (code : ExCode) (vaddr : Nat) : TrapResult :=
  match code with
  | .irq => .serviced
  | .sys => .serviced
  | .ibe => .panics
  | .dbe => .panics
  | code => match faultType code with
    | none => fatal iskern badfaultfunc code
    | some kind => match vmFaultCurrent as loaded tlb random kind vaddr with
      | .installed tlb => .retried tlb
      | .exits => .exits
      | .assertion => .panics
      | .error _ => fatal iskern badfaultfunc code

def tlbMapped (vaddr : Nat) : Bool := vaddr < 0x80000000 || 0xc0000000 ≤ vaddr

def raises (tlb : Slots) (code : ExCode) (vaddr : Nat) : Bool :=
  match code with
  | .tlbl => tlbMapped vaddr && (lookup tlb (pageFrame vaddr)).isNone
  | .tlbs => tlbMapped vaddr && (lookup tlb (pageFrame vaddr)).isNone
  | .mod => match lookup tlb (pageFrame vaddr) with
    | some i => !(tlb i).dirty
    | none => false
  | _ => true

-- No two slots answer for one page, and an invalid slot answers for none.
structure Tagged (tlb : Slots) : Prop where
  tags : ∀ i, (tlb i).valid = false → (tlb i).vpage = (invalid i).vpage
  distinct : ∀ i j, (tlb i).vpage = (tlb j).vpage → i = j

lemma flushed_tagged : Tagged flushed := by
  refine ⟨fun _ _ => rfl,fun i j eq => ?_⟩
  simp only [flushed,invalid] at eq
  exact Fin.ext (by omega)

lemma pageFrame_mapped (mapped : tlbMapped vaddr) (i : Fin numTlb) : pageFrame vaddr ≠ (invalid i).vpage := by
  have slot := i.isLt
  simp only [tlbMapped,Bool.or_eq_true,decide_eq_true_eq] at mapped
  unfold numTlb at slot
  unfold pageFrame pageSize invalid
  simp only
  omega

lemma install_tagged (tagged : Tagged tlb) (mapped : tlbMapped vaddr) (miss : lookup tlb (pageFrame vaddr) = none)
    (slot : Fin numTlb) {seg : Segment} : Tagged (update tlb slot (entryFor (pageFrame vaddr) paddr seg loaded)) := by
  -- the new page differs from every page in the TLB, valid or not
  have fresh : ∀ i, (tlb i).vpage ≠ pageFrame vaddr := by
    intro i eq
    cases ok : (tlb i).valid with
    | true => exact lookup_none miss i ok eq
    | false => exact pageFrame_mapped mapped i ((tagged.tags i ok).symm.trans eq).symm
  constructor
  · intro i
    by_cases here : i = slot
    · subst here
      simp [entryFor]
    rw [update_of_ne here]
    exact tagged.tags i
  intro i j
  by_cases here : i = slot <;> by_cases hit : j = slot
  · exact fun _ => here.trans hit.symm
  · subst here
    rw [update_self,update_of_ne hit]
    exact fun eq => absurd eq.symm (fresh j)
  · subst hit
    rw [update_self,update_of_ne here]
    exact fun eq => absurd eq (fresh i)
  rw [update_of_ne here,update_of_ne hit]
  exact tagged.distinct i j

lemma vmFault_installed {as : AddrSpace} (done : vmFault as loaded tlb random kind va = .installed after) :
    Prepared as ∧ kind ≠ .readonly ∧ ∃ seg paddr,
      segmentOf as (pageFrame va) = some seg ∧ paddrOf as (pageFrame va) seg = some paddr ∧
      after = update tlb ((firstInvalid tlb).getD random) (entryFor (pageFrame va) paddr seg loaded) := by
  simp only [vmFault] at done
  split at done
  · cases done
  rename_i ordinary
  split at done
  · cases done
  rename_i prep
  split at done
  · cases done
  rename_i seg hit
  split at done
  · cases done
  rename_i paddr entry
  split at done
  · cases done
  cases done
  exact ⟨not_not.mp prep,ordinary,seg,paddr,hit,entry,rfl⟩

lemma mipsTrap_retried (done : mipsTrap space loaded tlb random iskern badfault code vaddr = .retried after) :
    ∃ as kind, space = some as ∧ faultType code = some kind ∧
      vmFault as loaded tlb random kind vaddr = .installed after := by
  have fatal_ : ∀ code, fatal iskern badfault code ≠ .retried after := by
    intro code
    unfold fatal killCurthread
    split
    · exact TrapResult.noConfusion
    · split <;> exact TrapResult.noConfusion
  have cur : ∀ kind, vmFaultCurrent space loaded tlb random kind vaddr = .installed after →
      ∃ as, space = some as ∧ vmFault as loaded tlb random kind vaddr = .installed after := by
    intro kind res
    cases space with
    | some as => exact ⟨as,rfl,res⟩
    | none =>
      simp only [vmFaultCurrent] at res
      split at res <;> cases res
  cases code <;> simp only [mipsTrap,faultType] at done
  case mod | tlbl | tlbs =>
    split at done
    · rename_i res
      cases done
      obtain ⟨as,some_,inst⟩ := cur _ res
      exact ⟨as,_,some_,rfl,inst⟩
    · cases done
    · cases done
    · exact absurd done (fatal_ _)
  all_goals first
    | cases done
    | exact absurd done (fatal_ _)
end ToyOS.Traps

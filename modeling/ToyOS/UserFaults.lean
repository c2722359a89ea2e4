import ToyOS.RunningInvariant

namespace ToyOS.UserFaults
open Function UserSpace Tlb Coremap Traps FrameMemory Running Option
open KernelPages (Aligned)
open FrameOwners (forkRam)

def Contained (s : State) (k : Nat) (vaddr : Nat) (after : State) : Prop :=
  (∃ tlb i, after = {s with tlb} ∧ lookup tlb (pageFrame vaddr) = some i) ∨
  ((after.procs k).map (·.point) = some .exited ∧ after.current = none ∧
    after.memory = s.memory ∧ ∀ j, j ≠ k → after.procs j = s.procs j ∧
      ∀ q i, s.procs j = some q → q.Holds i → after.frames.spaces i = s.frames.spaces i)

lemma sysExit_contained {s : State} (ok : Valid r s) (at_ : s.procs k = some p) (here : p.space = some i)
    (space : s.frames.spaces i = .prepared as) : ∃ after, sysExit r s k p = some after ∧ Contained s k vaddr after := by
  obtain ⟨parts,store,acc⟩ := ok.accounts
  obtain ⟨coremap,freed,_⟩ := FrameOwners.destroy_accounted acc space
  have destroyed : ∃ frames, FrameOwners.step r s.frames (.destroy i) = some frames := by
    rw [FrameOwners.step,space]
    exact ⟨_,map_eq_some_iff.mpr ⟨coremap,freed,rfl⟩⟩
  obtain ⟨frames,done⟩ := destroyed
  have exited : sysExit r s k p = some {s with
      frames
      procs := update s.procs k (some {p with space := none,saved := none,point := .exited})
      current := none} := by
    simp only [sysExit,here,done,Option.map_some]
  refine ⟨_,exited,.inr ⟨by simp only [update_self,Option.map_some],rfl,rfl,fun j other => ?_⟩⟩
  refine ⟨update_of_ne other ..,fun q m hit holds => ?_⟩
  have ne : m ≠ i := fun eq => other (ok.apart j k q p m hit at_ holds (.inl (eq ▸ here)))
  exact (congrFun (destroy_some done).1 m).trans (update_of_ne ne ..)

def exceptional (code : ExCode) : Prop :=
  code ≠ .irq ∧ code ≠ .sys ∧ code ≠ .ibe ∧ code ≠ .dbe

lemma userTrap_cases {as : AddrSpace} (mapped : Mapped as) (load : Bool) (tlb : Slots) (random : Fin numTlb)
    (badfault : Bool) (vaddr : Nat) (other : exceptional code) (raised : raises tlb code vaddr) :
    (code = .mod ∧ mipsTrap (some as) load tlb random false badfault code vaddr = .exits) ∨
    ((code = .tlbl ∨ code = .tlbs) ∧ segmentOf as (pageFrame vaddr) ≠ none ∧
      ∃ after i, mipsTrap (some as) load tlb random false badfault code vaddr = .retried after ∧
        lookup after (pageFrame vaddr) = some i) ∨
    (¬ (code = .mod ∨ (code = .tlbl ∨ code = .tlbs) ∧ segmentOf as (pageFrame vaddr) ≠ none) ∧
      mipsTrap (some as) load tlb random false badfault code vaddr = .panics) := by
  obtain ⟨irq,sys,ibe,dbe⟩ := other
  -- a miss: the region decides, and the new entry answers for the page
  have missed : ∀ kind ≠ FaultType.readonly, lookup tlb (pageFrame vaddr) = none →
      (segmentOf as (pageFrame vaddr) = none ∧ vmFault as load tlb random kind vaddr = .error .efault) ∨
      (segmentOf as (pageFrame vaddr) ≠ none ∧ ∃ after i, vmFault as load tlb random kind vaddr = .installed after ∧
          lookup after (pageFrame vaddr) = some i) := by
    intro kind ordinary missing
    rcases vmFault_cases mapped load tlb random vaddr ordinary with
      bad | ⟨seg,paddr,hit,entry,inst⟩
    · exact .inl bad
    · exact .inr ⟨by rw [hit]; exact some_ne_none _,_,_,inst,lookup_update missing⟩
  cases code with
  | mod => exact .inl ⟨rfl,by simp [mipsTrap,faultType,vmFaultCurrent,vmFault]⟩
  | tlbl =>
    simp only [raises,Bool.and_eq_true,isNone_iff_eq_none] at raised
    rcases missed .read (by decide) raised.2 with ⟨out,bad⟩ | ⟨inside,after,i,done,hit⟩
    · exact .inr (.inr ⟨by simp [out],by simp [mipsTrap,faultType,vmFaultCurrent,bad,fatal,killCurthread]⟩)
    exact .inr (.inl ⟨.inl rfl,inside,after,i,by simp [mipsTrap,faultType,vmFaultCurrent,done],hit⟩)
  | tlbs =>
    simp only [raises,Bool.and_eq_true,isNone_iff_eq_none] at raised
    rcases missed .write (by decide) raised.2 with ⟨out,bad⟩ | ⟨inside,after,i,done,hit⟩
    · exact .inr (.inr ⟨by simp [out],by simp [mipsTrap,faultType,vmFaultCurrent,bad,fatal,killCurthread]⟩)
    exact .inr (.inl ⟨.inr rfl,inside,after,i,by simp [mipsTrap,faultType,vmFaultCurrent,done],hit⟩)
  | irq => exact absurd rfl irq
  | sys => exact absurd rfl sys
  | ibe => exact absurd rfl ibe
  | dbe => exact absurd rfl dbe
  | _ => exact .inr (.inr ⟨by simp,by simp [mipsTrap,faultType,fatal,killCurthread]⟩)

def resumed (r : Ram) (s : State) (k : Nat) (p : Proc) : TrapResult → Option State
  | .retried tlb => some {s with tlb}
  | .copyfail | .serviced => some s
  | .exits => sysExit r s k p
  | .panics => none

theorem user_fault_contained_iff {s : State} (aligned : Aligned r) (path : Reached r memory tlb s)
    (found : s.running = some (k,p)) (user : p.point = .user)
    (space : spaceOf s.frames p.space = some as) (other : exceptional code)
    (raised : raises s.tlb code vaddr = true) (random : Fin numTlb) (badfault : Bool) :
    ((∃ after, step r s (.trap false badfault random code vaddr) = some after ∧
        Contained s k vaddr after) ↔
      code = .mod ∨ (code = .tlbl ∨ code = .tlbs) ∧ segmentOf as (pageFrame vaddr) ≠ none) ∧
    ∀ kind, vmFault as p.loaded s.tlb random kind vaddr ≠ .assertion := by
  have valid := reached_valid aligned.installed path
  obtain ⟨_,at_⟩ := running_some found
  obtain ⟨i,here,place,mapped⟩ := valid.user_mapped aligned at_ user space
  have tests : (touches p.point vaddr && (false || isUser p.point) &&
      raises s.tlb code vaddr) = true := by
    rw [user,raised]
    rfl
  have stepped : step r s (.trap false badfault random code vaddr) =
      resumed r s k p (mipsTrap (some as) p.loaded s.tlb random false badfault code vaddr) := by
    simp only [step,found,tests,if_true,space]
    rfl
  constructor
  · rw [stepped]
    rcases userTrap_cases mapped p.loaded s.tlb random badfault vaddr other raised with
      ⟨rfl,exits⟩ | ⟨miss,inside,after,j,retried,answers⟩ | ⟨neither,panics⟩
    · rw [exits]
      exact ⟨fun _ => .inl rfl,fun _ => sysExit_contained valid at_ here place⟩
    · rw [retried]
      exact ⟨fun _ => .inr ⟨miss,inside⟩,fun _ => ⟨_,rfl,.inl ⟨after,j,rfl,answers⟩⟩⟩
    rw [panics]
    refine ⟨?_,fun allowed => absurd allowed neither⟩
    rintro ⟨after,impossible,_⟩
    cases impossible
  intro kind failed
  by_cases ordinary : kind = .readonly
  · simp [vmFault,ordinary] at failed
  rcases vmFault_cases mapped p.loaded s.tlb random vaddr ordinary with
    ⟨_,error⟩ | ⟨_,_,_,_,installed⟩
  · rw [error] at failed
    cases failed
  rw [installed] at failed
  cases failed

theorem text_read_contained : ∃ s after, Reached forkRam (fun _ => 0) flushed s ∧
    step forkRam s (.trap false false slot .tlbl 0x400000) = some after ∧
    Contained s 2 0x400000 after := by
  have ran : ((forkRun startTiny).map
      fun s => (s.running.map fun q => (q.1,isUser q.2.point,(spaceOf s.frames q.2.space).map fun as =>
        decide (segmentOf as 0x400000 = some .text)),raises s.tlb .tlbl 0x400000)) =
      some (some (2,true,some true),true) := by
    decide +kernel
  obtain ⟨s,reached,values⟩ := map_eq_some_iff.mp ran
  obtain ⟨running,raised⟩ := Prod.mk.inj values
  obtain ⟨⟨k,p⟩,found,fields⟩ := map_eq_some_iff.mp running
  simp only [Prod.mk.injEq] at fields
  obtain ⟨rfl,user,present⟩ := fields
  obtain ⟨as,space,text⟩ := map_eq_some_iff.mp present
  have path : Reached forkRam (fun _ => 0) flushed s := Transition.run_reached reached
  have inside : segmentOf as (pageFrame 0x400000) ≠ none := by
    have same : pageFrame 0x400000 = 0x400000 := by decide +kernel
    rw [same,of_decide_eq_true text]
    exact some_ne_none _
  obtain ⟨after,taken,contained⟩ := (user_fault_contained_iff forkRam_aligned path found (isUser_iff.mp user)
    space (by unfold exceptional; decide) raised slot false).1.mpr (.inr ⟨.inl rfl,inside⟩)
  exact ⟨s,after,path,taken,contained⟩

theorem null_read_panics : ∃ s p, Reached forkRam (fun _ => 0) flushed s ∧ s.running = some (2,p) ∧
    isUser p.point = true ∧ raises s.tlb .tlbl 0 = true ∧
    step forkRam s (.trap false false slot .tlbl 0) = none := by
  have ran : ((forkRun startTiny).map
      fun s => (s.running.map fun q => (q.1,isUser q.2.point),raises s.tlb .tlbl 0,
        (step forkRam s (.trap false false slot .tlbl 0)).isNone)) =
      some (some (2,true),true,true) := by
    decide +kernel
  obtain ⟨s,reached,values⟩ := map_eq_some_iff.mp ran
  simp only [Prod.mk.injEq] at values
  obtain ⟨running,raised,panics⟩ := values
  obtain ⟨⟨k,p⟩,found,fields⟩ := map_eq_some_iff.mp running
  obtain ⟨rfl,user⟩ := Prod.mk.inj fields
  exact ⟨s,p,Transition.run_reached reached,found,user,raised,isNone_iff_eq_none.mp panics⟩
end ToyOS.UserFaults

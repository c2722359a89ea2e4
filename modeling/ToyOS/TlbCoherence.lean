import ToyOS.RunningInvariant

namespace ToyOS.TlbCoherence
open UserSpace Tlb Coremap Running Option
open FrameOwners (forkRam)

theorem tlb_coherent {r : Ram} {s : State} {p : Proc} (installed : r.Installed)
    (path : Reached r memory tlb s) (current : s.current = some k) (at_ : s.procs k = some p)
    (used : touches p.point vaddr = true) :
    (∀ i j, (s.tlb i).vpage = (s.tlb j).vpage → i = j) ∧
    ∃ as, spaceOf s.frames p.space = some as ∧ ∀ i, (s.tlb i).valid = true →
      ∃ segment paddr, segmentOf as (s.tlb i).vpage = some segment ∧
        paddrOf as (s.tlb i).vpage segment = some paddr ∧ (s.tlb i).ppage = paddr := by
  have valid := reached_valid installed path
  have active := touches_activated used
  obtain ⟨i,as,here,space⟩ := touches_prepared (valid.procs k p at_) used
  refine ⟨(valid.tlb k p current at_ active).tagged.distinct,as,?_,fun j some_ => ?_⟩
  · rw [here,spaceOf,space]
  obtain ⟨segment,paddr,found,entry,equal⟩ := valid.entries current at_ active here space j some_
  exact ⟨segment,paddr,found,entry,by rw [equal]; rfl⟩

def stale : Slots := fun _ => ⟨0x400000,0x5000,true,true⟩

theorem started_coherent : ∃ s p as, Reached forkRam (fun _ => 0) stale s ∧ s.procs 2 = some p ∧
    spaceOf s.frames p.space = some as ∧ (s.tlb slot).valid = true ∧
    (s.tlb slot).vpage = 0x7ffff000 ∧ ∃ segment paddr,
      segmentOf as (s.tlb slot).vpage = some segment ∧
      paddrOf as (s.tlb slot).vpage segment = some paddr ∧ (s.tlb slot).ppage = paddr := by
  have ran : ((Transition.run (step forkRam) (initial forkRam (fun _ => 0) stale) startTiny).map
      fun s => (s.current,(s.procs 2).map fun p => touches p.point 0x7ffff000,
        (s.tlb slot).valid,(s.tlb slot).vpage)) =
      some (some 2,some true,true,0x7ffff000) := by
    decide +kernel
  obtain ⟨s,reached,values⟩ := map_eq_some_iff.mp ran
  simp only [Prod.mk.injEq] at values
  obtain ⟨current,found,valid,page⟩ := values
  obtain ⟨p,at_,used⟩ := map_eq_some_iff.mp found
  have path : Reached forkRam (fun _ => 0) stale s := Transition.run_reached reached
  have installed : forkRam.Installed := by unfold Ram.Installed; decide
  obtain ⟨_,as,space,entries⟩ := tlb_coherent installed path current at_ used
  exact ⟨s,p,as,path,at_,space,valid,page,entries slot valid⟩
end ToyOS.TlbCoherence

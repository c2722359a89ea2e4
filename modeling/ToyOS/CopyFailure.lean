import ToyOS.FrameOwners

namespace ToyOS.CopyFailure
open UserSpace BlockStore Coremap SpaceFrames StoppedLoad

def CopyAtomic (r : Ram) (junk : Segment → Nat → Nat) (coremap : Entries) (old : AddrSpace) : Prop :=
  (∃ after new, asCopy r junk coremap old = some (after,.ok new)) ∨
    asCopy r junk coremap old = some (coremap,.error .enomem)

theorem asCopy_atomic_iff {r : Ram} {coremap : Entries} {old : AddrSpace}
    (installed : r.Installed) (kernel : 0 < r.firstaddr) (junk : Segment → Nat → Nat) :
    CopyAtomic r junk coremap old ↔ Fits r coremap old := by
  rcases asCopy_cases installed kernel junk coremap old with ⟨fits,l,_,copied⟩ | ⟨full,stopped⟩
  · exact ⟨fun _ => fits,fun _ => .inl ⟨_,_,copied⟩⟩
  refine ⟨?_,fun fits => absurd fits full⟩
  rintro (⟨after,new,copied⟩ | refused)
  · rw [stopped] at copied
    cases copied
  rw [stopped] at refused
  cases refused

def tightRam : Ram := ⟨4096,20*4096,by decide,by decide⟩

lemma tightRam_installed : tightRam.Installed := by
  unfold Ram.Installed
  decide

theorem copy_into_free_memory : 0 < tightRam.firstaddr ∧
    CopyAtomic tightRam (fun _ _ => 0) (vmBootstrap tightRam) smallSpace :=
  ⟨by decide,(asCopy_atomic_iff tightRam_installed (by decide) _).mpr (by decide +kernel)⟩

def afterTextLoop (r : Ram) (junk : Segment → Nat → Nat) (coremap : Entries) (old : AddrSpace) :
    Option Entries :=
  match asPrepareLoad r junk coremap (unloaded old) with
  | some (.error _ l) => freeFrames r l.space.pagePbase1 0 l.space.asNpages1 l.coremap
  | _ => none

def tightHistory : List FrameOwners.Event :=
  [.create,.defineRegion 0 0x400000 4096,.defineRegion 0 0x10000000 4096,
   .prepareLoad 0 fun _ _ => 0]

def leftover (_ : Segment) (_ : Nat) : Nat := tightRam.frame 4

def textFrame (s : FrameOwners.State) : Option Block × Option Bool × Bool :=
  match s.spaces 0 with
  | .prepared as => (FrameOwners.owned tightRam s (.space 0 (.entry .text 0)),
      (afterTextLoop tightRam leftover s.coremap as).map fun coremap => (coremap 4).used,
      decide (Fits tightRam s.coremap as))
  | _ => (none,none,true)

theorem failed_copy_frees_parent : ∃ s as, FrameOwners.Reached tightRam s ∧
    s.spaces 0 = .prepared as ∧
    FrameOwners.owned tightRam s (.space 0 (.entry .text 0)) = some ⟨4,1⟩ ∧
    ((afterTextLoop tightRam leftover s.coremap as).map fun coremap => (coremap 4).used) =
      some false ∧
    ¬ CopyAtomic tightRam leftover s.coremap as := by
  have ran : ((Transition.run
      (Transition.guarded (FrameOwners.succeeds tightRam) (FrameOwners.step tightRam))
      (FrameOwners.initial tightRam) tightHistory).map textFrame) = some (some ⟨4,1⟩,some false,false) := by
    decide +kernel
  obtain ⟨s,reached,values⟩ := Option.map_eq_some_iff.mp ran
  cases at_ : s.spaces 0 with
  | prepared as =>
    simp only [textFrame,at_,Prod.mk.injEq,decide_eq_false_iff_not] at values
    obtain ⟨owned,freed,full⟩ := values
    refine ⟨s,as,?_,at_,owned,freed,?_⟩
    · exact Transition.run_permitted (fun _ tested => FrameOwners.succeeds_sound tested)
        .initial reached
    rcases asCopy_cases tightRam_installed (by decide) leftover s.coremap as with
      ⟨fits,_⟩ | ⟨_,stopped⟩
    · exact absurd fits full
    · simp [CopyAtomic,stopped]
  | _ => simp [textFrame,at_] at values
end ToyOS.CopyFailure

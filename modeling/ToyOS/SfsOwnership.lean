import ToyOS.SfsMount

namespace ToyOS.Sfs
open Tally Transition Option

variable {s t start : State} {live after : Nat → Bool} {i j b n : Nat} {p : Slot} {Changed : Nat → Prop}

-- The live inodes in words: `Consistent` keeps their set and `live_iff` gives it back.
def Present (s : State) (i : Nat) : Prop := i = rootLocation ∨ Loaded s i ∨ i ≠ noIno ∧ 0 < links s i

section
variable (ok : Consistent s live)
include ok

lemma Consistent.live_iff : live i ↔ Present s i := by
  constructor
  · intro alive
    rcases ok.reachable i alive with top | loaded | linked
    · exact .inl top
    · exact .inr (.inl loaded)
    · exact .inr (.inr ⟨ok.fs.live_ne_zero alive,linked⟩)
  rintro (rfl | ⟨v,loaded⟩ | ⟨nz,linked⟩)
  · exact ok.shape.root
  · exact ok.fs.alive loaded
  obtain ⟨k,inside,hit⟩ := tally_pos.mp linked
  exact ok.shape.named k _ i ⟨inside,hit,nz,rfl⟩

lemma Consistent.used (here : Present s i) : s.freemap i :=
  (ok.fs.ledger.held _ _ (own_inode (ok.live_iff.mpr here))).2

lemma Consistent.pointer_used (here : Present s i) (hit : pointer s i p ≠ 0) : s.freemap (pointer s i p) :=
  (ok.fs.ledger.held _ _ (own_slot (ok.live_iff.mpr here) hit)).2

end

lemma Consistent.unshared {q : Slot} (ok : Consistent s live) (one : Present s i) (two : Present s j)
    (hit : pointer s i p ≠ 0) (eq : pointer s i p = pointer s j q) : i = j ∧ p = q := by
  have left : own s.nblocks live (pointer s) none (.slot i p) = some (pointer s i p) :=
    own_slot (ok.live_iff.mpr one) hit
  have right : own s.nblocks live (pointer s) none (.slot j q) = some (pointer s i p) := by
    rw [eq] at hit ⊢
    exact own_slot (ok.live_iff.mpr two) hit
  cases ok.fs.ledger.unique _ _ _ left right
  exact ⟨rfl,rfl⟩

lemma Consistent.used_iff (ok : Consistent s live) (lt : b < s.nblocks) :
    s.freemap b ↔ b = sbLocation ∨ (∃ j < bitBlocks s.nblocks, b = mapLocation+j) ∨ Present s b ∨
      ∃! place : Nat × Slot, Present s place.1 ∧ pointer s place.1 place.2 = b := by
  have ledger := ok.fs.ledger
  constructor
  · intro used
    obtain ⟨o,held⟩ := ledger.owned b lt used
    cases o with
    | super => exact .inl (some.inj held).symm
    | map j =>
      obtain ⟨inside,same⟩ := ite_none_right_eq_some.mp held
      exact .inr (.inl ⟨j,inside,(some.inj same).symm⟩)
    | inode i =>
      obtain ⟨alive,same⟩ := ite_none_right_eq_some.mp held
      cases some.inj same
      exact .inr (.inr (.inl (ok.live_iff.mp alive)))
    | slot i p =>
      obtain ⟨⟨alive,hit⟩,same⟩ := ite_none_right_eq_some.mp held
      have present := ok.live_iff.mp alive
      refine .inr (.inr (.inr ⟨(i,p),⟨present,some.inj same⟩,?_⟩))
      rintro ⟨j,q⟩ ⟨also,eq⟩
      obtain ⟨rfl,rfl⟩ := ok.unshared present also hit ((some.inj same).trans eq.symm)
      rfl
    | floating => cases held
  rintro (rfl | ⟨j,inside,rfl⟩ | present | ⟨⟨i,p⟩,⟨present,same⟩,_⟩)
  · exact (ledger.held .super _ rfl).2
  · exact (ledger.held _ _ (own_map inside)).2
  · exact ok.used present
  rcases eq_or_ne b 0 with rfl | nz
  · exact (ledger.held .super _ rfl).2
  rw [←same] at nz ⊢
  exact ok.pointer_used present nz

theorem blocks_owned (new : New n start) (path : Reached step Free start s) :
    (∀ b, b < s.nblocks → (s.freemap b = true ↔
      b = sbLocation ∨ (∃ j, j < bitBlocks s.nblocks ∧ b = mapLocation+j) ∨ Present s b ∨
        ∃! place : Nat × Slot, Present s place.1 ∧ pointer s place.1 place.2 = b)) ∧
    (∀ i j p q, Present s i → Present s j → pointer s i p ≠ 0 → pointer s i p = pointer s j q → i = j ∧ p = q) ∧
    ∀ c t, step s c = some t → ∀ j, Present s j → Present t j → ¬c.changes j →
      (node t j).size = (node s j).size ∧ byte t j = byte s j := by
  obtain ⟨⟨live,consistent⟩,quiet,_⟩ := reached_consistent new path
  refine ⟨fun b below => consistent.used_iff below,fun i j p q first second there same =>
    consistent.unshared first second there same,fun c t stepped j before later unchanged => ?_⟩
  obtain ⟨after,evolved⟩ := step_evolved consistent quiet stepped
  have content := evolved.contents j (consistent.live_iff.mpr before)
    (evolved.consistent.live_iff.mpr later) unchanged
  exact ⟨content.size,content.byte⟩

def nameA : CString := ⟨[97],by decide⟩
def nameB : CString := ⟨[98],by decide⟩

def twoBlocks : List Call :=
  [.getroot,.creat rootLocation nameA false,.write 3 (uioKinit (fun _ => 7) 600 0 true),
    .link rootLocation nameB 3,.remove rootLocation nameA,.sync]

lemma twoBlocks_run : ∃ s, run step smallVolume twoBlocks = some s ∧
    ([3,4,5,6,7].map s.freemap,directory s [98],[599,600].map (byte s 3)) =
      ([true,true,true,true,false],some 3,[7,0]) :=
  map_eq_some_iff.mp (by decide +kernel)

theorem blocks_owned_twoBlocks : ∃ s, run step smallVolume twoBlocks = some s ∧ s.freemap 6 = true ∧
    (6 = sbLocation ∨ (∃ j, j < bitBlocks s.nblocks ∧ 6 = mapLocation+j) ∨ Present s 6 ∨
      ∃! place : Nat × Slot, Present s place.1 ∧ pointer s place.1 place.2 = 6) := by
  obtain ⟨s,ran,shown⟩ := twoBlocks_run
  have path := run_reached ran
  simp only [List.map_cons,Prod.mk.injEq,List.cons.injEq] at shown
  have nblocks := (reached_consistent smallVolume_new path).2.2
  have used := shown.1.2.2.2.1
  exact ⟨s,ran,used,((blocks_owned smallVolume_new path).1 6 (by rw [nblocks]; decide)).mp used⟩

end ToyOS.Sfs

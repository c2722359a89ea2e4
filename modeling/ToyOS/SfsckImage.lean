import ToyOS.SfsckVerdict

namespace ToyOS.Sfsck
open Words Outcome Transition Tally Sfs

variable {s synced left : State} {live : Nat → Bool} {n : Nat}

lemma rootOn_node (unloaded : ∀ i, s.vnodes i = none) : rootOn s.disk = node s rootLocation :=
  (node_unloaded (unloaded rootLocation)).symm

section
variable (fs : Fs s live none)
include fs

lemma Fs.sectorOf_pointer (alive : live i) (hit : pointer s i p ≠ 0) : sectorOf (pointer s i p) = pointer s i p :=
  fs.sector (fs.ledger.held _ _ (own_slot alive hit)).1

-- sfsck reads the indirect block where the kernel does: a used block is its own sector.
lemma mapped_pointer (alive : live rootLocation) (unloaded : ∀ i, s.vnodes i = none)
    (fileblock : Nat) : mapped s.disk (rootOn s.disk) fileblock =
      match slotOf fileblock with
      | none => 0
      | some p => pointer s rootLocation p := by
  rw [rootOn_node unloaded]
  unfold mapped slotOf
  split
  · rfl
  split
  · change _ = pointer s rootLocation (.entry _)
    unfold pointer
    split
    · rfl
    rename_i hit
    have sector : sectorOf (node s rootLocation).indirect.toNat = (node s rootLocation).indirect.toNat :=
      Fs.sectorOf_pointer (p := .indirect) fs alive hit
    rw [sector]
  · rfl

lemma dirData_byte (alive : live rootLocation) (unloaded : ∀ i, s.vnodes i = none) (offset : Nat) :
    dirData s.disk (rootOn s.disk) (offset/blockSize) (offset % blockSize) = byte s rootLocation offset := by
  unfold dirData byte
  rw [mapped_pointer fs alive unloaded]
  cases slotOf (offset/blockSize) with
  | none => rfl
  | some p =>
    by_cases hit : pointer s rootLocation p = 0
    · simp [hit,zeros]
    · simp [hit,Fs.sectorOf_pointer fs alive hit]

lemma rootEntry_ino (alive : live rootLocation) (unloaded : ∀ i, s.vnodes i = none)
    (i : Nat) : (rootEntry s.disk i).ino.toNat = Sfs.named s i := by
  unfold rootEntry entryOf entryAt Sfs.named entryIno
  refine congrArg BitVec.toNat (wordAt_moved fun j lt => ?_)
  rw [←dirData_byte fs alive unloaded]
  have size : sizeofDir = 64 ∧ atonce = 8 ∧ blockSize = 512 := ⟨rfl,rfl,rfl⟩
  rw [size.1,size.2.1,size.2.2]
  have block : (64*i+j)/512 = i/8 := by omega
  have place : (64*i+j) % 512 = 64*(i % 8)+j := by omega
  rw [block,place]

end

lemma kernelImage (ok : Consistent s live) (unloaded : ∀ i, s.vnodes i = none) : KernelImage s.disk where
  only i inside hit dir := by
    have fs := ok.fs
    have root := ok.shape.root
    rw [rootEntry_ino fs root unloaded] at hit dir ⊢
    have bound : i < slots s := by
      rw [rootEntries,rootOn_node unloaded] at inside
      exact inside
    have alive := ok.shape.named i (nameAt s i) (Sfs.named s i) ⟨bound,rfl,hit,rfl⟩
    by_contra other
    have file := ok.shape.only _ alive other
    rw [node_unloaded (unloaded _)] at file
    rw [fs.sector (fs.ledger.held _ _ (own_inode alive)).1,file] at dir
    exact absurd dir (by decide)
  links i j first second apart ino ino' := by
    have fs := ok.fs
    have root := ok.shape.root
    rw [rootEntry_ino fs root unloaded] at ino ino'
    rw [rootEntries,rootOn_node unloaded] at first second
    have two : 2 ≤ links s rootLocation := tally_two first second apart ino ino'
    have counted := ok.counted rootLocation root
    have own : rootCount rootLocation = 1 := rfl
    rw [rootOn_node unloaded]
    omega

lemma unmount_still (leave : sfsUnmount s = .ok ⟨⟩ left) : left = s := by
  have ends : Ends (sfsUnmount s) (fun _ t => t = s) fun _ _ => True := by
    refine ends_bind_get ?_
    split
    · trivial
    cases s.freemapDirty with
    | false => rfl
    | true => trivial
  exact ends.ok leave

theorem sfsck_refuses (volume : Volume n s) (sync : sfsSync s = .ok ⟨⟩ synced) (leave : sfsUnmount synced = .ok ⟨⟩ left)
    (fuel : Nat) (memory : Nat → Bool) (disk : Nat → Block) :
    sfsck fuel left.disk left.dBlocks memory ≠ some (0,disk) := by
  obtain ⟨⟨live,consistent⟩,quiet⟩ := volume.consistent
  have settled : Settled live s synced := ((ends_sync consistent quiet (E := fun _ _ => False)).ok sync).1
  have image := kernelImage settled.consistent (unmount_unloaded settled.consistent.fs leave)
  rw [unmount_still leave]
  exact sfsck_unclean image fuel synced.dBlocks memory disk

theorem sfsck_refuses_writtenClosed : ∃ s synced left, run step smallVolume writtenClosed = some s ∧
    sfsSync s = .ok ⟨⟩ synced ∧ sfsUnmount synced = .ok ⟨⟩ left ∧
    ∀ fuel memory disk, sfsck fuel left.disk left.dBlocks memory ≠ some (0,disk) := by
  obtain ⟨s,ran,shown⟩ := writtenClosed_run
  simp only [Prod.mk.injEq,List.all_eq_true,List.mem_range,Option.isNone_iff_eq_none] at shown
  have path := run_reached ran
  obtain ⟨⟨live,consistent⟩,quiet,nblocks⟩ := reached_consistent smallVolume_new path
  have dropped := consistent.dropped fun i below => shown.1 i (nblocks ▸ below)
  obtain ⟨_,⟨synced,left,sync,leave,_⟩,_⟩ := consistent.remounts quiet dropped
  exact ⟨s,synced,left,ran,sync,leave,sfsck_refuses (Volume.reached (.new smallVolume_new) path) sync leave⟩

-- sfsck wants the link count of the root to be 2 and mksfs writes 1.
def freshDisk : State := unmounted (layout (fun _ => zeros) 4096 []) 4096 (fun _ => none) fun _ => true

def mountAndLeave : Op PUnit := do
  sfsDomount
  sfsSync
  sfsUnmount

theorem freshDisk_rewritten : mksfs (fun _ => zeros) 4096 [] = some freshDisk.disk ∧
    (match mountAndLeave freshDisk with
      | .ok _ left => (sfsck 1 left.disk left.dBlocks fun _ => true).map fun (code,disk) =>
        (code,(rootOn left.disk).linkcount.toNat,(rootOn disk).linkcount.toNat)
      | .error _ _ => none) = some (exitUnrecov,1,2) :=
  ⟨mksfs_eq_some.mpr ⟨by decide,by decide,by decide,rfl⟩,by decide +kernel⟩
end ToyOS.Sfsck

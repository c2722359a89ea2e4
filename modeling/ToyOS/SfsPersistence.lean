import ToyOS.SfsOwnership

namespace ToyOS.Sfs
open Words Outcome Transition Option

variable {s t u : State} {live : Nat → Bool} {i n : Nat} {E : Fault → State → Prop}

def State.offline (s : State) : State := unmounted s.disk s.dBlocks s.device s.memory

def Remounts (s t : State) : Prop :=
  ∃ synced left, sfsSync s = .ok ⟨⟩ synced ∧ sfsUnmount synced = .ok ⟨⟩ left ∧ sfsDomount left.offline = .ok ⟨⟩ t

lemma ends_unmount (unloaded : ∀ i, s.vnodes i = none) (clean : s.freemapDirty = false) :
    Ends (sfsUnmount s) (fun _ t => t = s) E := by
  refine ends_bind_get ?_
  have idle : ((List.range s.nblocks).any fun i => (s.vnodes i).isSome) = false := by
    rw [List.any_eq_false]
    intro i _
    rw [unloaded i]
    exact Bool.false_ne_true
  rw [idle]
  exact ends_kassert (by rw [clean]; rfl) rfl

lemma Consistent.map_fits (ok : Consistent s live) : mapLocation+bitBlocks s.nblocks ≤ s.dBlocks := by
  have root := ok.fs.inside (own_inode ok.shape.root)
  rcases Nat.eq_zero_or_pos (bitBlocks s.nblocks) with none_ | some_
  · rw [none_]
    exact root
  have last := ok.fs.inside (own_map (show bitBlocks s.nblocks-1 < bitBlocks s.nblocks by omega))
  omega

lemma Mounted.calm (ok : Consistent s live) (unloaded : ∀ i, s.vnodes i = none)
    (clean : s.freemapDirty = false) (mounted : Mounted s.offline t) : Calm s t := by
  have nblocks : t.nblocks = s.nblocks := mounted.nblocks.trans ok.fs.superblock.2
  refine ⟨⟨nblocks,mounted.dBlocks,mounted.device,mounted.memory⟩,mounted.disk,?_,mounted.clean.trans clean.symm,?_⟩
  · funext b
    rw [mounted.freemap b,nblocks]
    split
    · rename_i inside
      exact ok.fs.saved clean b inside
    rename_i out
    exact (ok.fs.past b (le_trans (le_bitmapSize _) (Nat.le_of_not_lt out))).symm
  rw [mounted.vnodes]
  exact funext fun i => (unloaded i).symm

lemma Settled.unloaded (settled : Settled live s t) (unloaded : ∀ i, s.vnodes i = none) (i : Nat) :
    t.vnodes i = none := by
  have eq := settled.refs i
  rw [unloaded i] at eq
  exact Option.map_eq_none_iff.mp eq

lemma Settled.remount (settled : Settled live s t) (calm : Calm t u) : Settled live s u :=
  settled.trans ⟨settled.consistent.calm calm,calm.fixed,fun j _ => calm.alike j,calm.freemap,
    fun j => by rw [calm.vnodes]⟩

lemma Consistent.remounts (sound : Consistent s live) (quiet : Quiet s) (unloaded : ∀ i, s.vnodes i = none) :
    ∃ t, Remounts s t ∧ Settled live s t := by
  have syncs := ends_sync (E := fun _ _ => False) sound quiet
  cases sync : sfsSync s with
  | error e t => exact (syncs.failed sync).elim
  | ok _ t =>
    obtain ⟨settled,clean⟩ := syncs.ok sync
    have idle := settled.unloaded unloaded
    have leaves := ends_unmount (E := fun _ _ => False) idle clean
    cases leave : sfsUnmount t with
    | error e u => exact (leaves.failed leave).elim
    | ok _ u =>
      cases leaves.ok leave
      have quietly := settled.fixed.quiet quiet
      have mounts := ends_domount (s := t.offline) (E := fun _ _ => False) ⟨quietly.device,quietly.memory⟩
        settled.consistent.fs.superblock.1 (by
          rw [show (wordAt (t.offline.disk sbLocation) 4).toNat = t.nblocks from settled.consistent.fs.superblock.2]
          exact settled.consistent.map_fits)
      cases mount : sfsDomount t.offline with
      | error e u => exact (mounts.failed mount).elim
      | ok _ u =>
        exact ⟨u,⟨t,t,sync,leave,mount⟩,settled.remount (Mounted.calm settled.consistent idle clean (mounts.ok mount))⟩

lemma unmount_unloaded (fs : Fs s live none) (left : sfsUnmount s = .ok ⟨⟩ t) (i : Nat) : s.vnodes i = none := by
  cases load : s.vnodes i with
  | none => rfl
  | some v =>
    have lt := (fs.ledger.held _ _ (own_inode (fs.alive load))).1
    have busy : ((List.range s.nblocks).any fun i => (s.vnodes i).isSome) :=
      List.any_eq_true.mpr ⟨i,List.mem_range.mpr lt,by rw [load]; rfl⟩
    have refused : Ends (sfsUnmount s) (fun _ _ => False) fun _ _ => True := by
      refine ends_bind_get ?_
      rw [busy]
      trivial
    exact (refused.ok left).elim

lemma Remounts.settled (remounts : Remounts s t) (sound : Consistent s live) (quiet : Quiet s) : Settled live s t := by
  obtain ⟨synced,left,sync,leave,mount⟩ := remounts
  have settled := ((ends_sync (E := fun _ _ => False) sound quiet).ok sync).1
  have unloaded : ∀ i, s.vnodes i = none := by
    intro i
    have eq := settled.refs i
    rw [unmount_unloaded settled.consistent.fs leave i] at eq
    exact Option.map_eq_none_iff.mp eq.symm
  obtain ⟨u,⟨_,_,again,leaves,mounts⟩,all⟩ := sound.remounts quiet unloaded
  cases sync.symm.trans again
  cases leave.symm.trans leaves
  cases mount.symm.trans mounts
  exact all

-- The states of a volume that is used, and mounted again and again.
inductive Volume (n : Nat) : State → Prop where
  | new {s : State} : New n s → Volume n s
  | call {s t : State} {c : Call} : Volume n s → step s c = some t → Volume n t
  | remount {s t : State} : Volume n s → Remounts s t → Volume n t

lemma Volume.consistent (volume : Volume n s) : (∃ live, Consistent s live) ∧ Quiet s := by
  induction volume with
  | new new =>
    obtain ⟨ok,quiet,_⟩ := new.consistent
    exact ⟨⟨_,ok⟩,quiet⟩
  | call _ ran ih =>
    obtain ⟨⟨live,ok⟩,quiet⟩ := ih
    obtain ⟨after,evolved⟩ := step_evolved ok quiet ran
    exact ⟨⟨after,evolved.consistent⟩,evolved.fixed.quiet quiet⟩
  | remount _ remounts ih =>
    obtain ⟨⟨live,ok⟩,quiet⟩ := ih
    have settled := remounts.settled ok quiet
    exact ⟨⟨live,settled.consistent⟩,settled.fixed.quiet quiet⟩

theorem persistence (volume : Volume n s) (dropped : ∀ i, s.vnodes i = none) :
    ∃ synced left t, sfsSync s = .ok ⟨⟩ synced ∧ sfsUnmount synced = .ok ⟨⟩ left ∧
      sfsDomount left.offline = .ok ⟨⟩ t ∧
      directory t = directory s ∧ (∀ i, Present t i ↔ Present s i) ∧
      (∀ i, Present s i → (node t i).linkcount = (node s i).linkcount ∧ (node t i).size = (node s i).size ∧
        byte t i = byte s i) ∧
      t.nblocks = s.nblocks ∧ t.freemap = s.freemap := by
  obtain ⟨⟨live,consistent⟩,quiet⟩ := volume.consistent
  obtain ⟨t,⟨synced,left,sync,leave,mount⟩,settled⟩ := consistent.remounts quiet dropped
  refine ⟨synced,left,t,sync,leave,mount,directory_alike (settled.alike _ consistent.shape.root),fun i => ?_,
    fun i present => ?_,settled.fixed.nblocks,settled.freemap⟩
  · rw [←consistent.live_iff,←settled.consistent.live_iff]
  have alike := settled.alike i (consistent.live_iff.mpr present)
  rw [alike.node]
  exact ⟨rfl,rfl,alike.byte⟩

lemma Volume.reached {may : State → Call → Prop} (volume : Volume n s) (path : Reached step may s t) : Volume n t :=
  path.invariant (Volume n) volume fun _ pre _ ran => .call pre ran

lemma Consistent.dropped (ok : Consistent s live)
    (none_ : ∀ i < s.nblocks, s.vnodes i = none) (i : Nat) : s.vnodes i = none := by
  cases load : s.vnodes i with
  | none => rfl
  | some v =>
    have lt := (ok.fs.ledger.held _ _ (own_inode (ok.fs.alive load))).1
    rw [none_ i lt] at load
    cases load

def writtenClosed : List Call :=
  [.getroot,.creat rootLocation nameA false,.write 3 (uioKinit (fun _ => 7) 600 0 true),.decref 3,.decref rootLocation]

lemma writtenClosed_run : ∃ s, run step smallVolume writtenClosed = some s ∧
    ((List.range 16).all (fun i => (s.vnodes i).isNone),directory s nameA.bytes,byte s 3 599) = (true,some 3,7) :=
  map_eq_some_iff.mp (by decide +kernel)

theorem persistence_writtenClosed : ∃ s t, run step smallVolume writtenClosed = some s ∧ Remounts s t ∧
    directory t nameA.bytes = some 3 ∧ byte t 3 599 = 7 := by
  obtain ⟨s,ran,shown⟩ := writtenClosed_run
  simp only [Prod.mk.injEq,List.all_eq_true,List.mem_range,isNone_iff_eq_none] at shown
  have path := run_reached ran
  obtain ⟨⟨live,consistent⟩,_,nblocks⟩ := reached_consistent smallVolume_new path
  have dropped := consistent.dropped fun i below => shown.1 i (nblocks ▸ below)
  have named := (directory_eq_some consistent.shape).mp shown.2.1
  obtain ⟨k,binds⟩ := named
  obtain ⟨synced,left,t,sync,leave,mount,names,_,files,_⟩ :=
    persistence (Volume.reached (.new smallVolume_new) path) dropped
  refine ⟨s,t,ran,⟨synced,left,sync,leave,mount⟩,by rw [names]; exact shown.2.1,?_⟩
  rw [(files 3 (consistent.live_iff.mp (consistent.shape.named k _ _ binds))).2.2]
  exact shown.2.2
end ToyOS.Sfs

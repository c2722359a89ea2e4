import ToyOS.SfsCalls

namespace ToyOS.Sfs
open Function Outcome UserSpace Option List

variable {s t u : State} {live after : Nat → Bool} {i j ino : Nat} {v w : Vnode}
  {Changed : Nat → Prop} {E : Fault → State → Prop}

-- What writing out inodes and the map may do: nothing that can be seen.
structure Settled (live : Nat → Bool) (s t : State) : Prop where
  consistent : Consistent t live
  fixed : Fixed s t
  alike : ∀ j, live j = true → Alike s t j
  freemap : t.freemap = s.freemap
  refs : ∀ j, (t.vnodes j).map Vnode.refcount = (s.vnodes j).map Vnode.refcount

lemma Settled.refl (consistent : Consistent s live) : Settled live s s :=
  ⟨consistent,.refl,fun _ _ => .refl,rfl,fun _ => rfl⟩

lemma Settled.trans (one : Settled live s t) (two : Settled live t u) : Settled live s u where
  consistent := two.consistent
  fixed := one.fixed.trans two.fixed
  alike j lives := (one.alike j lives).trans (two.alike j lives)
  freemap := two.freemap.trans one.freemap
  refs j := (two.refs j).trans (one.refs j)

lemma Settled.evolved (settled : Settled live s t) : Evolved live s Changed live t :=
  evolved_steady settled.consistent settled.fixed fun j lives _ => (settled.alike j lives).content

lemma Synced.settled (synced : Synced live s i t) (consistent : Consistent s live)
    (load : s.vnodes i = some v) : Settled live s t :=
  ⟨synced.consistent consistent load,synced.fixed,synced.alike,synced.freemap,synced.refs load⟩

lemma ends_fsync (consistent : Consistent s live) (quiet : Quiet s) (load : s.vnodes i = some v) :
    Ends (sfsSyncInode i s) (fun _ t => Settled live s t) E :=
  (ends_syncInode consistent.fs quiet load).imp fun _ _ synced => synced.settled consistent load

lemma ends_syncVnodes (l : List Nat) (consistent : Consistent s live) (quiet : Quiet s) :
    Ends (syncVnodes l s) (fun _ t => Settled live s t) E := by
  induction l generalizing s with
  | nil => exact ends_pure (.refl consistent)
  | cons i rest ih =>
    refine ends_bind_get (ends_bind (Q := fun _ t => Settled live s t) (ends_perform (fun hit => ?_)
      fun _ => .refl consistent) fun _ t settled => ?_)
    · obtain ⟨v,load⟩ := isSome_iff_exists.mp hit
      exact ends_bind (ends_attempt (ends_fsync (E := Errs Never) consistent quiet load)
        (Q := fun _ t => Settled live s t) (fun _ _ settled => settled) fun _ _ never => never.elim)
        fun _ _ settled => settled
    exact (ih settled.consistent (settled.fixed.quiet quiet)).imp fun _ _ more => settled.trans more

-- sfs_mapio: the map blocks of `l` have been written.
structure Mapped (s : State) (l : List Nat) (t : State) : Prop where
  fixed : Fixed s t
  freemap : t.freemap = s.freemap
  vnodes : t.vnodes = s.vnodes
  map : ∀ j, j ∈ l → t.disk (mapLocation+j) = mapBlock s.freemap j
  disk : ∀ b, (∀ j, j ∈ l → b ≠ mapLocation+j) → t.disk b = s.disk b

lemma ends_writeMap (l : List Nat) (quiet : Quiet s) (inside : ∀ j ∈ l, mapLocation+j < s.dBlocks) :
    Ends (writeMap l s) (fun _ t => Mapped s l t) E := by
  induction l generalizing s with
  | nil => exact ends_pure ⟨.refl,rfl,rfl,fun _ mem => (not_mem_nil mem).elim,fun _ _ => rfl⟩
  | cons k rest ih =>
    refine ends_bind_get (ends_bind (ends_wblock (Q := fun _ t =>
      t = s.write (mapLocation+k) (mapBlock s.freemap k)) quiet (inside k (mem_cons_self ..)) rfl) ?_)
    rintro _ _ rfl
    refine (ih (s := s.write (mapLocation+k) (mapBlock s.freemap k)) ⟨quiet.device,quiet.memory⟩
      fun j mem => inside j (mem_cons_of_mem _ mem)).imp ?_
    intro _ t mapped
    refine ⟨⟨mapped.fixed.nblocks,mapped.fixed.dBlocks,mapped.fixed.device,mapped.fixed.memory⟩,
      mapped.freemap,mapped.vnodes,fun j mem => ?_,fun b other => ?_⟩
    · by_cases later : j ∈ rest
      · exact mapped.map j later
      have one : j = k := (mem_cons.mp mem).resolve_right later
      subst one
      rw [mapped.disk _ ?_]
      · exact update_self ..
      intro m mem same
      rw [Nat.add_left_cancel same] at later
      exact later mem
    rw [mapped.disk b fun j mem => other j (mem_cons_of_mem _ mem)]
    exact update_of_ne (other k (mem_cons_self ..)) ..

section
variable (consistent : Consistent s live)
include consistent

lemma Consistent.mapped (mapped : Mapped s (range (bitBlocks s.nblocks)) t) : Settled live s t := by
  have fs := consistent.fs
  have rest : ∀ o b, own s.nblocks live (pointer s) none o = some b → (∀ j, o ≠ .map j) → t.disk b = s.disk b := by
    intro o b held apart
    refine mapped.disk b fun j mem eq => ?_
    exact fs.ledger.other held (apart j).symm ((own_map (mem_range.mp mem)).trans (congrArg some eq.symm))
  have alike : ∀ j, live j → Alike s t j := fun j lives =>
    alike_of_frame (congrFun mapped.vnodes j) (rest _ _ (own_inode lives) fun _ => Owner.noConfusion)
      fun p hit => rest _ _ (own_slot lives hit) fun _ => Owner.noConfusion
  have saved : ∀ b < bitmapSize s.nblocks, mapBit t.disk b = s.freemap b := by
    intro b inside
    refine mapBit_mapBlock s.freemap (mapped.map _ (mem_range.mpr (Nat.div_lt_of_lt_mul ?_)))
    rw [bitBlocks_eq,Nat.mul_comm]
    exact inside
  have superblock := rest .super sbLocation rfl fun _ => Owner.noConfusion
  have fixed := mapped.fixed
  have now : Fs t live none := by
    refine ⟨?_,?_,?_,?_,?_,?_,fun _ => ?_⟩
    · rw [fixed.nblocks,mapped.freemap,own_congr fun j lives => (alike j lives).pointer]
      exact fs.ledger
    · rw [fixed.nblocks,mapped.freemap]
      exact fs.past
    · intro j v load
      obtain ⟨lives,clean⟩ := fs.cached j v ((congrFun mapped.vnodes j).symm.trans load)
      refine ⟨lives,fun eq => ?_⟩
      rw [←clean eq]
      exact congrArg decodeInode (rest _ _ (own_inode lives) fun _ => Owner.noConfusion)
    · rw [fixed.nblocks,fixed.dBlocks]
      exact fs.fits
    · rw [fixed.nblocks]
      exact fs.small
    · rw [fixed.nblocks,superblock]
      exact fs.superblock
    rw [fixed.nblocks,mapped.freemap]
    exact saved
  have refs : ∀ j, (t.vnodes j).map Vnode.refcount = (s.vnodes j).map Vnode.refcount := fun j => by rw [mapped.vnodes]
  refine ⟨consistent.carry now (fun j lives => (alike j lives).file) ?_ ?_,fixed,alike,mapped.freemap,refs⟩
  · rintro j ⟨v,load⟩
    exact .inr (.inl ⟨v,(congrFun mapped.vnodes j).trans load⟩)
  intro j v load
  exact consistent.referenced j v ((congrFun mapped.vnodes j).symm.trans load)

lemma ends_sync (quiet : Quiet s) : Ends (sfsSync s) (fun _ t => Settled live s t ∧ t.freemapDirty = false) E := by
  refine ends_bind_get (ends_bind (ends_syncVnodes _ consistent quiet) fun _ t settled => ?_)
  refine ends_bind_get (ends_perform (fun _ => ?_) fun clean => ⟨settled,clean⟩)
  refine ends_bind (ends_writeMap _ (settled.fixed.quiet quiet) fun j mem =>
    settled.consistent.fs.inside (own_map (mem_range.mp mem))) fun _ u mapped => ?_
  have unmarked : Mapped t (range (bitBlocks t.nblocks)) {u with freemapDirty := false} :=
    ⟨⟨mapped.fixed.nblocks,mapped.fixed.dBlocks,mapped.fixed.device,mapped.fixed.memory⟩,mapped.freemap,
      mapped.vnodes,mapped.map,mapped.disk⟩
  exact ends_modify ⟨settled.trans (settled.consistent.mapped unmarked),rfl⟩

lemma ends_incref (load : s.vnodes i = some v) : Ends (vnodeIncref i s) (fun _ t => Fetched live s i t) E := by
  refine ends_bind_vnodeOf load (ends_modify (consistent.fetched .refl (consistent.fs.alive load)
    (node_loaded load).symm (consistent.fs.cached i v load).2 ?_))
  rw [load]
  rfl

lemma ends_getroot (quiet : Quiet s) :
    Ends (sfsGetroot s) (fun i t => i = rootLocation ∧ Fetched live s rootLocation t) E := by
  refine ends_bind (ends_attempt (Q := fun res t => ∃ a, res = .ok a ∧ Fetched live s rootLocation t)
    (ends_loadvnode (E := Errs Never) consistent quiet consistent.shape.root)
    (fun a _ got => ⟨a,rfl,got⟩) fun _ _ never => never.elim) ?_
  rintro _ t ⟨_,rfl,got⟩
  exact ⟨rfl,got⟩

end

section
variable {α : Type} {P P' : Prop} {Q : α → State → Prop} {R R' : Errno → State → Prop}

lemma Unless.mono (stops : P → P') (weaker : ∀ errno t, R errno t → R' errno t) (e : Fault) (t : State)
    (error : Unless P R e t) : Unless P' R' e t := by
  cases e with
  | panic => exact stops error
  | errno errno => exact weaker errno t error

lemma Errs.unless (weaker : ∀ errno t, R errno t → R' errno t) (e : Fault) (t : State)
    (error : Errs R e t) : Unless P R' e t := by
  cases e with
  | panic => exact error.elim
  | errno errno => exact weaker errno t error

lemma unless_vnodeOf {f : Vnode → Op α} (miss : ¬Loaded s i → P)
    (rest : ∀ v, s.vnodes i = some v → Ends (f v s) Q (Unless P R)) : Ends ((vnodeOf i >>= f) s) Q (Unless P R) := by
  cases load : s.vnodes i with
  | none =>
    refine ends_bind (Q := fun _ _ => False) (ends_bind_get ?_) fun _ _ never => never.elim
    rw [load]
    refine miss ?_
    rintro ⟨v,held⟩
    rw [load] at held
    cases held
  | some v => exact ends_bind_vnodeOf load (rest v load)

lemma unless_loaded {f : Vnode → Op α} (miss : ¬Loaded s i → P)
    (rest : ∀ v, s.vnodes i = some v → Ends ((vnodeOf i >>= f) s) Q (Unless P R)) :
    Ends ((vnodeOf i >>= f) s) Q (Unless P R) := by
  cases load : s.vnodes i with
  | some v => exact rest v load
  | none =>
    refine unless_vnodeOf miss fun v held => ?_
    rw [load] at held
    cases held

lemma unless_asDir (consistent : Consistent s live) (miss : ¬Loaded s i → P) (unchanged : R .enotdir s)
    (rest : ∀ v, s.vnodes rootLocation = some v → i = rootLocation → Ends (m s) Q (Unless P R)) :
    Ends (asDir i m s) Q (Unless P R) := by
  refine unless_vnodeOf miss fun v load => ?_
  split
  · rename_i dir
    have top : i = rootLocation := by
      by_contra other
      have file := consistent.shape.only i (consistent.fs.alive load) other
      rw [node_loaded load,dir] at file
      cases file
    exact rest v (top ▸ load) top
  · exact ends_throw unchanged

lemma unless_asFile (consistent : Consistent s live) (miss : ¬Loaded s i → P) (unchanged : R .eisdir s)
    (rest : ∀ v, s.vnodes i = some v → i ≠ rootLocation → Ends (m s) Q (Unless P R)) :
    Ends (asFile i m s) Q (Unless P R) := by
  refine unless_vnodeOf miss fun v load => ?_
  split
  · exact ends_throw unchanged
  rename_i file
  refine rest v load ?_
  rintro rfl
  refine file ?_
  rw [←node_loaded load]
  exact consistent.shape.dir

lemma unless_kassert {f : PUnit → Op α} (broken : holds = false → P)
    (rest : holds → Ends (f ⟨⟩ s) Q (Unless P R)) : Ends ((kassert holds >>= f) s) Q (Unless P R) := by
  cases holds with
  | false => exact broken rfl
  | true => exact rest rfl

end

lemma ends_read {uio : Uio} (consistent : Consistent s live) (quiet : Quiet s)
    (load : s.vnodes i = some v) (read : uio.write = false) :
    Ends (sfsRead i uio s) (fun after t => Transferred live i ⟨s,uio⟩ (reach i ⟨s,uio⟩) ⟨t,after⟩)
      (Errs fun e t => ∃ after, Failed live i ⟨s,uio⟩ (reach i ⟨s,uio⟩) e ⟨t,after⟩) := by
  refine ends_bind_kassert (by rw [read]; rfl) (ends_bind (ends_withUio
    (Q := fun a t => Transferred live i ⟨s,uio⟩ (reach i ⟨s,uio⟩) ⟨t,a.2⟩)
    ((ends_sfsIo consistent.fs quiet load).imp_error
      (Errs.mono fun e io bad => ⟨io.uio,bad⟩))) fun _ _ done => done)

lemma ends_write {uio : Uio} (consistent : Consistent s live) (quiet : Quiet s) (load : s.vnodes i = some v)
    (write : uio.write) : Ends (sfsWrite i uio s) (fun after t => Transferred live i ⟨s,uio⟩ uio.resid ⟨t,after⟩)
      (Errs fun e t => ∃ after, Failed live i ⟨s,uio⟩ uio.resid e ⟨t,after⟩) := by
  have all : reach i ⟨s,uio⟩ = uio.resid := if_pos write
  refine ends_bind_kassert write (ends_bind (ends_withUio
    (Q := fun a t => Transferred live i ⟨s,uio⟩ uio.resid ⟨t,a.2⟩) ?_) fun _ _ done => done)
  rw [←all]
  exact (ends_sfsIo consistent.fs quiet load).imp_error (Errs.mono fun e io bad => ⟨io.uio,bad⟩)

def FileOnly (i j : Nat) : Prop := j = i ∧ j ≠ rootLocation

lemma Touched.evolved (touched : Touched live s i t) (consistent : Consistent s live) (file : i ≠ rootLocation) :
    Evolved live s (FileOnly i) live t := by
  refine evolved_steady (consistent.touched touched file) touched.fixed fun j lives other =>
    (touched.others j lives ?_).content
  rintro rfl
  exact other ⟨rfl,file⟩

lemma unless_read (consistent : Consistent s live) (quiet : Quiet s) :
    Ends (asFile i (sfsRead i uio) s) (fun _ t => Calm s t)
      (Unless (¬(Loaded s i ∧ uio.write = false)) fun _ t => Calm s t) := by
  refine unless_asFile consistent (fun miss ready => miss ready.1) .refl fun v load _ => ?_
  cases direction : uio.write with
  | true =>
    refine unless_kassert (fun _ ready => ?_) fun holds => ?_
    · cases ready.2
    rw [direction] at holds
    cases holds
  | false =>
    refine (ends_read consistent quiet load direction).mono (fun _ _ done => done.calm direction) (Errs.unless ?_)
    rintro e t ⟨_,_,⟨n,done,_⟩,_⟩
    exact done.calm direction

lemma unless_write (consistent : Consistent s live) (quiet : Quiet s) :
    Ends (asFile i (sfsWrite i uio) s) (fun _ t => Touched live s i t ∧ Evolved live s (FileOnly i) live t)
      (Unless (¬(Loaded s i ∧ uio.write)) fun _ t => Touched live s i t ∧ Evolved live s (FileOnly i) live t) := by
  refine unless_asFile consistent (fun miss ready => miss ready.1)
    ⟨.refl consistent.fs,evolved_calm consistent .refl⟩ fun v load file => ?_
  cases direction : uio.write with
  | false =>
    refine unless_kassert (fun _ ready => ?_) fun holds => ?_
    · cases ready.2
    rw [direction] at holds
    cases holds
  | true =>
    refine (ends_write consistent quiet load direction).mono
      (fun _ _ done => ⟨done.touched,done.touched.evolved consistent file⟩) (Errs.unless ?_)
    rintro e t ⟨_,_,⟨n,done,_⟩,_⟩
    exact ⟨done.touched,done.touched.evolved consistent file⟩

def Call.changes : Call → Nat → Prop
  | .creat .. | .link .. | .remove .. | .rename .. => IsRoot
  | .write i _ | .truncate i _ => FileOnly i
  | _ => Untouched

def Ready (s : State) : Call → Prop
  | .getroot | .sync => True
  | .lookup dir _ | .creat dir _ _ | .remove dir _ | .rename dir _ _ => Loaded s dir
  | .link dir _ file => Loaded s dir ∧ Loaded s file
  | .read i uio => Loaded s i ∧ uio.write = false
  | .write i uio => Loaded s i ∧ uio.write = true
  | .truncate i _ | .incref i | .decref i | .fsync i => Loaded s i

def RenamesRoot (s : State) : Call → Prop
  | .rename dir n1 _ => dir = rootLocation ∧ directory s n1.bytes = some rootLocation
  | _ => False

def Evolves (live : Nat → Bool) (s : State) (Changed : Nat → Prop) (t : State) : Prop :=
  ∃ after, Evolved live s Changed after t

lemma Consistent.stays (consistent : Consistent s live) : Evolves live s Changed s :=
  ⟨live,evolved_calm consistent .refl⟩

lemma call_evolved (consistent : Consistent s live) (quiet : Quiet s) (c : Call) :
    Ends (call c s) (fun _ => Evolves live s c.changes)
      (Unless (¬Ready s c ∨ RenamesRoot s c) fun _ => Evolves live s c.changes) := by
  have stays : ∀ {Changed}, Evolves live s Changed s := consistent.stays
  cases c with
  | getroot => exact ends_map ((ends_getroot consistent quiet).mono (fun _ t done => ⟨live,done.2.evolved⟩) Errs.never)
  | lookup dir name =>
    refine ends_map (unless_asDir consistent .inl stays fun v load top => ?_)
    subst top
    exact (ends_lookup consistent quiet load).mono (fun _ _ done => ⟨live,done.1.evolved⟩)
      (Errs.unless fun _ _ bad => ⟨live,evolved_calm consistent bad.1⟩)
  | creat dir name excl =>
    refine ends_map (unless_asDir consistent .inl stays fun v load top => ?_)
    subst top
    exact (ends_creat consistent quiet load name.ended excl).mono (fun _ _ done => done.1)
      (Errs.unless fun _ _ bad => bad.1)
  | link dir name file =>
    refine unless_vnodeOf (fun miss => .inl fun ready => miss ready.2) fun w held =>
      ends_bind (Q := fun _ => Evolves live s IsRoot) ?_ fun _ _ done => done
    refine unless_asDir consistent (fun miss => .inl fun ready => miss ready.1) stays fun v load top => ?_
    subst top
    exact (ends_link consistent quiet load name.ended held).mono (fun _ _ done => ⟨live,done.1⟩)
      (Errs.unless fun _ _ bad => ⟨live,bad.1⟩)
  | remove dir name =>
    refine ends_bind (Q := fun _ => Evolves live s IsRoot) ?_ fun _ _ done => done
    refine unless_asDir consistent .inl stays fun v load top => ?_
    subst top
    exact (ends_remove consistent quiet load).mono (fun _ _ done => done.1) (Errs.unless fun _ _ bad => bad.1)
  | rename dir n1 n2 =>
    refine ends_bind (Q := fun _ => Evolves live s IsRoot) ?_ fun _ _ done => done
    refine unless_asDir consistent .inl stays fun v load top => ?_
    subst top
    exact (ends_rename consistent quiet load n2.ended).mono (fun _ _ done => done.2.1)
      (Unless.mono (fun eq => .inr ⟨rfl,eq⟩) fun _ _ bad => bad.2.1)
  | read i uio =>
    exact ends_map ((unless_read consistent quiet).mono (fun _ _ calm => ⟨live,evolved_calm consistent calm⟩)
      (Unless.mono .inl fun _ _ calm => ⟨live,evolved_calm consistent calm⟩))
  | write i uio =>
    exact ends_map ((unless_write consistent quiet).mono (fun _ _ done => ⟨live,done.2⟩)
      (Unless.mono .inl fun _ _ done => ⟨live,done.2⟩))
  | truncate i len =>
    refine ends_bind (Q := fun _ => Evolves live s (FileOnly i)) ?_ fun _ _ done => done
    refine unless_asFile consistent .inl stays fun v load file => ?_
    exact (ends_truncate consistent.fs quiet load len).mono
      (fun _ _ done => ⟨live,done.1.toTouched.evolved consistent file⟩) Errs.never
  | incref i =>
    refine ends_bind (Q := fun _ => Evolves live s Untouched) (unless_loaded .inl fun v load => ?_) fun _ _ done => done
    exact (ends_incref consistent load).mono (fun _ _ got => ⟨live,got.evolved⟩) Errs.never
  | decref i =>
    refine ends_bind (Q := fun _ => Evolves live s Untouched) (unless_loaded .inl fun v load => ?_) fun _ _ done => done
    refine (ends_decref consistent quiet load).mono ?_ Errs.never
    rintro _ t ⟨after,dropped⟩
    exact ⟨after,dropped.evolved⟩
  | fsync i =>
    refine ends_bind (Q := fun _ => Evolves live s Untouched) (unless_loaded .inl fun v load => ?_) fun _ _ done => done
    exact (ends_fsync consistent quiet load).mono (fun _ _ settled => ⟨live,settled.evolved⟩) Errs.never
  | sync =>
    exact ends_bind (Q := fun _ => Evolves live s Untouched) ((ends_sync consistent quiet).mono
      (fun _ _ done => ⟨live,done.1.evolved⟩) Errs.never) fun _ _ done => done

lemma returns_of_ends {Q : Answer → State → Prop} {R : Errno → State → Prop}
    (ends : Ends (call c s) Q (Unless P R)) :
    match returns s c with
    | none => P
    | some (.ok answer,t) => Q answer t
    | some (.error errno,t) => R errno t := by
  unfold returns
  cases ran : call c s with
  | ok answer t => exact ends.ok ran
  | error e t =>
    cases e with
    | panic => exact ends.failed ran
    | errno errno => exact ends.failed ran

lemma step_evolved (consistent : Consistent s live) (quiet : Quiet s)
    (ran : step s c = some t) : Evolves live s c.changes t := by
  have evolves := returns_of_ends (call_evolved consistent quiet c)
  obtain ⟨⟨res,_⟩,ret,rfl⟩ := map_eq_some_iff.mp ran
  rw [ret] at evolves
  cases res with
  | ok answer => exact evolves
  | error errno => exact evolves

lemma returns_ready (consistent : Consistent s live) (quiet : Quiet s) (ready : Ready s c)
    (sound : ¬RenamesRoot s c) : ∃ res, returns s c = some res := by
  have ran := returns_of_ends (call_evolved consistent quiet c)
  cases ret : returns s c with
  | some res => exact ⟨res,rfl⟩
  | none =>
    rw [ret] at ran
    exact (ran.elim (fun other => other ready) sound).elim
end ToyOS.Sfs

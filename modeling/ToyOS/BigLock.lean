import ToyOS.Library.Nesting
import ToyOS.Vfs

namespace ToyOS.BigLock
open Nesting Outcome Sfs UserSpace Words

-- vfs_biglock as the calling thread finds it: `held` is lock_do_i_hold, `depth` vfs_biglock_depth. lock_acquire returns
-- when no other thread holds the lock.
structure Lock where
  held : Bool
  depth : Nat
  consistent : held = true ↔ 0 < depth

def Lock.acquire (l : Lock) : Lock := ⟨true,l.depth+1,by simp⟩

def Lock.release (l : Lock) : Option Lock :=
  if l.held = true ∧ 0 < l.depth then some ⟨l.depth-1 != 0,l.depth-1,bne_iff_ne.trans Nat.pos_iff_ne_zero.symm⟩
  else none

lemma Lock.ext_depth {a b : Lock} (same : a.depth = b.depth) : a = b := by
  obtain ⟨held,depth,ok⟩ := a
  obtain ⟨held',depth',consistent'⟩ := b
  cases same
  have eq : held = held' := Bool.eq_iff_iff.mpr (ok.trans consistent'.symm)
  cases eq
  rfl

lemma Lock.release_acquire (l : Lock) : l.acquire.release = some l := by
  unfold Lock.release
  rw [if_pos ⟨rfl,Nat.succ_pos _⟩]
  exact congrArg some (Lock.ext_depth rfl)

def brackets : Brackets Lock := ⟨Lock.acquire,Lock.release,Lock.release_acquire⟩

section
variable {σ α : Type}

def vfsBiglockAcquire : EStateM Fault (Locked Lock σ) PUnit := acquire brackets
def vfsBiglockRelease : EStateM Fault (Locked Lock σ) PUnit := release brackets .panic

def checked (m : EStateM Fault (Locked Lock σ) α) : EStateM Fault (Locked Lock σ) α := do
  let result ← attempt m
  match result with
  | .ok a => pure a
  | .error errno => do
    vfsBiglockRelease
    fail errno

def giveBack : Except Errno α → EStateM Fault σ α
  | .ok a => pure a
  | .error errno => fail errno

def handBack (m : EStateM Fault (Locked Lock σ) α) : EStateM Fault (Locked Lock σ) α := do
  let result ← attempt m
  vfsBiglockRelease
  giveBack result

def underLock (n : EStateM Fault σ PUnit) : EStateM Fault (Locked Lock σ) PUnit := do
  vfsBiglockAcquire
  free n
  vfsBiglockRelease

def vnodeCheck : EStateM Fault (Locked Lock σ) PUnit := do
  vfsBiglockAcquire
  vfsBiglockRelease

end

abbrev LockedOp := EStateM Fault (Locked Lock State)
def vnodeIncref (i : Nat) : LockedOp PUnit := underLock (Sfs.vnodeIncref i)

def truncateIndirect (i blocklen : Nat) : LockedOp PUnit := do
  let v ← free (vnodeOf i)
  perform (blocklen < nDirect+dbPerIdb-1 && v.inode.indirect.toNat != 0) do
    let data ← checked (free (sfsRblock v.inode.indirect.toNat))
    let id ← free (freeEntries blocklen (List.finRange dbPerIdb) ⟨entries data,false,false⟩)
    if id.nonzero = false then do
      free (sfsBfree v.inode.indirect.toNat)
      free (updateInode i fun n => n.setIndirect 0)
    else perform id.dirty (checked (free (sfsWblock (encodeEntries id.idbuf) v.inode.indirect.toNat)))

def sfsTruncate (i len : Nat) : LockedOp PUnit := do
  vfsBiglockAcquire
  free (freeDirect i ((len+blockSize-1)/blockSize % 2^32) (List.finRange nDirect))
  truncateIndirect i ((len+blockSize-1)/blockSize % 2^32)
  free (updateInode i fun n => {n with size := BitVec.ofNat 32 len})
  vfsBiglockRelease

def fileOps {α : Type} (i : Nat) (m : LockedOp α) : LockedOp α := do
  vnodeCheck
  let v ← free (vnodeOf i)
  if v.inode.type = typeDir then fail .eisdir else m

def dirOps {α : Type} (i : Nat) (m : LockedOp α) : LockedOp α := do
  vnodeCheck
  let v ← free (vnodeOf i)
  if v.inode.type = typeDir then m else fail .enotdir

def vopTruncate (i len : Nat) : LockedOp PUnit := fileOps i (sfsTruncate i len)

def reclaimLast (i : Nat) (v : Vnode) : LockedOp PUnit := do
  perform (v.inode.linkcount == 0) (checked (vopTruncate i 0))
  checked (free (sfsSyncInode i))
  free (perform (v.inode.linkcount == 0) (sfsBfree i))
  free (modify fun s => {s with vnodes := Function.update s.vnodes i none})
  vfsBiglockRelease

def sfsReclaim (i : Nat) : LockedOp PUnit := do
  vfsBiglockAcquire
  let v ← free (vnodeOf i)
  if v.refcount ≠ 1 then do
    free (kassert (1 < v.refcount))
    free (setVnode i {v with refcount := v.refcount-1})
    vfsBiglockRelease
    fail .ebusy
  else reclaimLast i v

def dropReference (i : Nat) (v : Vnode) : LockedOp PUnit :=
  if 1 < v.refcount then free (setVnode i {v with refcount := v.refcount-1})
  else do
    vnodeCheck
    let result ← attempt (sfsReclaim i)
    free (reportReclaim result)

def vnodeDecref (i : Nat) : LockedOp PUnit := do
  vfsBiglockAcquire
  let v ← free (vnodeOf i)
  free (kassert (0 < v.refcount))
  dropReference i v
  vfsBiglockRelease

def sfsLoadvnode (ino : Nat) (forcetype : BitVec 16) : LockedOp PUnit := do
  let s ← free get
  free (kassert ((List.range s.nblocks).all fun j => (s.vnodes j).isNone || s.freemap j))
  match s.vnodes ino with
  | some v => do
    free (kassert (forcetype == typeInval))
    underLock (setVnode ino {v with refcount := v.refcount+1})
  | none => free (readVnode ino forcetype)

def sfsLookonce (i : Nat) (name : List UInt8) : LockedOp (Nat × Nat) := do
  let found ← free (sfsDirFindname i name)
  match found.hit with
  | none => fail .enoent
  | some (ino,slot) => do
    sfsLoadvnode ino typeInval
    let v ← free (vnodeOf ino)
    free (kassert (v.inode.linkcount != 0))
    pure (ino,slot)

def sfsMakeobj (type : BitVec 16) : LockedOp Nat := do
  let ino ← free sfsBalloc
  sfsLoadvnode ino type
  pure ino

def sfsCreat (dir : Nat) (name : List UInt8) (excl : Bool) : LockedOp Nat := do
  vfsBiglockAcquire
  let found ← checked (free (sfsDirFindname dir name))
  match found.hit with
  | some (ino,_) =>
    if excl then do
      vfsBiglockRelease
      fail .eexist
    else do
      checked (sfsLoadvnode ino typeInval)
      vfsBiglockRelease
      pure ino
  | none => do
    let ino ← checked (sfsMakeobj typeFile)
    let result ← attempt (free (sfsDirLink dir name ino))
    match result with
    | .error errno => do
      vnodeDecref ino
      vfsBiglockRelease
      fail errno
    | .ok _ => do
      free (updateInode ino Inode.addLink)
      vfsBiglockRelease
      pure ino

def sfsLink (dir : Nat) (name : List UInt8) (file : Nat) : LockedOp PUnit := do
  vfsBiglockAcquire
  let _ ← checked (free (sfsDirLink dir name file))
  free (updateInode file Inode.addLink)
  vfsBiglockRelease

def sfsRemove (dir : Nat) (name : List UInt8) : LockedOp PUnit := do
  vfsBiglockAcquire
  let (victim,slot) ← checked (sfsLookonce dir name)
  let result ← attempt (free (sfsDirUnlink dir slot))
  match result with
  | .ok _ => do
    free (dropLink victim)
    vnodeDecref victim
    vfsBiglockRelease
  | .error errno => do
    vnodeDecref victim
    vfsBiglockRelease
    fail errno

def puke (g1 : Nat) (errno : Errno) : LockedOp PUnit := do
  vnodeDecref g1
  vfsBiglockRelease
  fail errno

def pukeHarder (dir g1 slot2 : Nat) (errno : Errno) : LockedOp PUnit := do
  let result2 ← attempt (free (sfsDirUnlink dir slot2))
  match result2 with
  | .error _ => panics
  | .ok _ => do
    let v ← free (vnodeOf g1)
    free (setVnode g1 {v with inode := v.inode.dropLink})
    puke g1 errno

def sfsRename (dir : Nat) (n1 n2 : List UInt8) : LockedOp PUnit := do
  vfsBiglockAcquire
  free (kassert (dir == rootLocation))
  let (g1,slot1) ← checked (sfsLookonce dir n1)
  let v ← free (vnodeOf g1)
  free (kassert (v.inode.type == typeFile))
  let result ← attempt (free (sfsDirLink dir n2 g1))
  match result with
  | .error errno => puke g1 errno
  | .ok slot2 => do
    free (updateInode g1 Inode.addLink)
    let result ← attempt (free (sfsDirUnlink dir slot1))
    match result with
    | .ok _ => do
      free (dropLink g1)
      vnodeDecref g1
      vfsBiglockRelease
    | .error errno => pukeHarder dir g1 slot2 errno

def sfsLookup (dir : Nat) (name : List UInt8) : LockedOp Nat := do
  vfsBiglockAcquire
  let v ← free (vnodeOf dir)
  if v.inode.type = typeDir then do
    let (ino,_) ← checked (sfsLookonce dir name)
    vfsBiglockRelease
    pure ino
  else do
    vfsBiglockRelease
    fail .enotdir

def sfsLookparent (dir : Nat) (path : List UInt8) : LockedOp PUnit := do
  vfsBiglockAcquire
  let v ← free (vnodeOf dir)
  if v.inode.type = typeDir then
    if Vfs.nameMax+1 < path.length+1 then do
      vfsBiglockRelease
      fail .enametoolong
    else do
      vnodeIncref dir
      vfsBiglockRelease
  else do
    vfsBiglockRelease
    fail .enotdir

def sfsGettype (i : Nat) : LockedOp Bool := do
  vfsBiglockAcquire
  let v ← free (vnodeOf i)
  free (kassert (v.inode.type == typeFile || v.inode.type == typeDir))
  vfsBiglockRelease
  pure (v.inode.type == typeDir)

def sfsFsync (i : Nat) : LockedOp PUnit := do
  vfsBiglockAcquire
  handBack (free (sfsSyncInode i))

def sfsGetroot : LockedOp Nat := do
  vfsBiglockAcquire
  let result ← attempt (sfsLoadvnode rootLocation typeInval)
  match result with
  | .ok _ => do
    vfsBiglockRelease
    pure rootLocation
  | .error _ => panics

def syncVnodes : List Nat → LockedOp PUnit
  | [] => pure ⟨⟩
  | i :: rest => do
    let s ← free get
    perform (s.vnodes i).isSome do
      vnodeCheck
      let _ ← attempt (sfsFsync i)
      pure ⟨⟩
    syncVnodes rest

def sfsSync : LockedOp PUnit := do
  vfsBiglockAcquire
  let s ← free get
  syncVnodes (List.range s.nblocks)
  let s ← free get
  perform s.freemapDirty do
    checked (free (writeMap (List.range (bitBlocks s.nblocks))))
    free (modify fun s => {s with freemapDirty := false})
  vfsBiglockRelease

def sfsUnmount : LockedOp PUnit := do
  vfsBiglockAcquire
  let s ← free get
  if (List.range s.nblocks).any fun i => (s.vnodes i).isSome then do
    vfsBiglockRelease
    fail .ebusy
  else do
    free (kassert (!s.freemapDirty))
    vfsBiglockRelease

def mountVolume : LockedOp PUnit := do
  checked (free kmalloc)
  checked (free kmalloc)
  let sup ← checked (free (sfsRblock sbLocation))
  if wordAt sup 0 ≠ magic then do
    vfsBiglockRelease
    fail .einval
  else do
    checked (free kmalloc)
    free (modify fun s => {s with
      nblocks := (wordAt sup 4).toNat,
      freemap := fun b => bitmapSize (wordAt sup 4).toNat ≤ b})
    checked (free (readMap (List.range (bitBlocks (wordAt sup 4).toNat))))
    free (modify fun s => {s with freemapDirty := false,vnodes := fun _ => none})
    vfsBiglockRelease

def sfsDomount (dBlocksize : Nat) : LockedOp PUnit := do
  vfsBiglockAcquire
  if dBlocksize ≠ blockSize then do
    vfsBiglockRelease
    fail .enxio
  else mountVolume

def Tracks {σ α : Type} (m : EStateM Fault (Locked Lock σ) α) (n : EStateM Fault σ α) : Prop :=
  Runs brackets .panic 0 0 0 m n

class Sure {σ α : Type} (n : EStateM Fault σ α) : Prop where
  ends : ∀ s, Ends (n s) (fun _ _ => True) fun e _ => e = .panic

section
variable {σ α β : Type} {n : EStateM Fault σ α} {m : EStateM Fault (Locked Lock σ) α} {d done failed : Nat}

lemma sure_bind {f : α → EStateM Fault σ β} [one : Sure n] (rest : ∀ a, Sure (f a)) : Sure (n >>= f) :=
  ⟨fun s => ends_bind (one.ends s) fun a t _ => (rest a).ends t⟩

instance {f : α → EStateM Fault σ β} [Sure n] [rest : ∀ a, Sure (f a)] : Sure (n >>= f) := sure_bind rest
instance (a : α) : Sure (pure a : EStateM Fault σ α) := ⟨fun _ => trivial⟩
instance : Sure (get : EStateM Fault σ σ) := ⟨fun _ => trivial⟩
instance (s : σ) : Sure (set s : EStateM Fault σ PUnit) := ⟨fun _ => trivial⟩
instance (f : σ → σ) : Sure (modify f : EStateM Fault σ PUnit) := ⟨fun _ => trivial⟩
instance : Sure (panics : EStateM Fault σ α) := ⟨fun _ => rfl⟩

instance [Decidable p] {n' : EStateM Fault σ α} [one : Sure n] [other : Sure n'] : Sure (if p then n else n') := by
  split <;> assumption

instance (holds : Bool) : Sure (kassert holds : EStateM Fault σ PUnit) := by
  unfold kassert
  infer_instance

instance {n : EStateM Fault σ PUnit} [Sure n] (cond : Bool) : Sure (perform cond n) := by
  unfold perform
  infer_instance

instance : Sure (attempt n) where
  ends s := by
    unfold attempt
    split
    · trivial
    · trivial
    · rfl

lemma runs_sure [sure : Sure n] : Runs brackets .panic d d failed (free n) n :=
  (runs_free n).sure fun s _ _ ran => (sure.ends s).failed ran

lemma runs_attempt (runs : Runs brackets .panic d d d m n) :
    Runs brackets .panic d d failed (attempt m) (attempt n) := by
  intro l s
  have one := runs l s
  unfold attempt
  cases ran : n s with
  | ok a t =>
    rw [ran] at one
    simp only [one]
  | error e t =>
    rw [ran] at one
    cases e with
    | panic =>
      left
      cases one with
      | inl stop =>
        obtain ⟨_,u,stop⟩ := stop
        exact ⟨rfl,u,by simp only [stop]⟩
      | inr eq => exact ⟨rfl,⟨brackets.enter^[d] l,t⟩,by simp only [eq]⟩
    | errno errno =>
      cases one with
      | inl stop => cases stop.1
      | inr eq => simp only [eq]

lemma attempt_giveBack (n : EStateM Fault σ α) : (attempt n >>= giveBack) = n := by
  funext s
  cases ran : n s with
  | ok a t =>
    have tried : attempt n s = .ok (.ok a) t := by simp only [attempt,ran]
    exact bind_ok tried
  | error e t =>
    cases e with
    | panic =>
      have tried : attempt n s = .error .panic t := by simp only [attempt,ran]
      exact bind_error tried
    | errno errno =>
      have tried : attempt n s = .ok (.error errno) t := by simp only [attempt,ran]
      exact bind_ok tried

section
variable (runs : Runs brackets .panic (d+1) (d+1) (d+1) m n)
include runs

lemma runs_checked : Runs brackets .panic (d+1) (d+1) d (checked m) n := by
  rw [←attempt_giveBack n]
  refine (runs_attempt runs).bind fun res => ?_
  cases res with
  | ok a => exact runs_pure a
  | error errno => exact Runs.release (runs_throw _)

lemma runs_handBack : Runs brackets .panic (d+1) d d (handBack m) n := by
  rw [←attempt_giveBack n]
  refine (runs_attempt runs).bind fun res => Runs.release ?_
  cases res with
  | ok a => exact runs_pure a
  | error errno => exact runs_throw _

end

lemma runs_released {m : EStateM Fault (Locked Lock σ) PUnit} {n : EStateM Fault σ PUnit}
    (runs : Runs brackets .panic d (done+1) failed m n) :
    Runs brackets .panic d done failed (m >>= fun _ => vfsBiglockRelease) n := by
  have ran : (n >>= pure) = n := by
    funext s
    cases ran : n s with
    | ok a t => exact bind_ok ran
    | error e t => exact bind_error ran
  rw [←ran]
  exact runs.bind fun _ => runs_release

lemma runs_underLock {n : EStateM Fault σ PUnit} [Sure n] : Runs brackets .panic d d failed (underLock n) n :=
  Runs.acquire (runs_released runs_sure)

lemma runs_vnodeCheck (rest : Runs brackets .panic d done failed m n) :
    Runs brackets .panic d done failed (vnodeCheck >>= fun _ => m) n := by
  have checks : Runs brackets .panic d d failed (vnodeCheck : EStateM Fault (Locked Lock σ) PUnit) (pure ⟨⟩) :=
    Runs.acquire runs_release
  exact checks.bind fun _ => rest

lemma runs_perform {m : EStateM Fault (Locked Lock σ) PUnit} {n : EStateM Fault σ PUnit}
    (runs : Runs brackets .panic d d failed m n) (cond : Bool) :
    Runs brackets .panic d d failed (perform cond m) (perform cond n) := by
  cases cond with
  | true => exact runs
  | false => exact runs_pure _

end

instance (i : Nat) : Sure (vnodeOf i) := sure_bind fun s => by split <;> infer_instance
instance (i : Nat) (v : Vnode) : Sure (setVnode i v) := inferInstanceAs (Sure (modify _))

instance (i : Nat) (f : Inode → Inode) : Sure (updateInode i f) := by
  unfold updateInode
  infer_instance

instance (block : Nat) : Sure (sfsBfree block) := by
  unfold sfsBfree
  infer_instance

instance (i : Nat) : Sure (dropLink i) := by
  unfold dropLink
  infer_instance

instance (i : Nat) : Sure (Sfs.vnodeIncref i) := by
  unfold Sfs.vnodeIncref
  infer_instance

instance (i blocklen : Nat) (ks : List (Fin nDirect)) : Sure (freeDirect i blocklen ks) := by
  induction ks with
  | nil => exact inferInstanceAs (Sure (pure _))
  | cons k rest ih =>
    unfold freeDirect
    infer_instance

instance (blocklen : Nat) (ks : List (Fin dbPerIdb)) (id : Indirect) : Sure (freeEntries blocklen ks id) := by
  induction ks generalizing id with
  | nil => exact inferInstanceAs (Sure (pure _))
  | cons k rest ih =>
    unfold freeEntries
    infer_instance

lemma vnodeIncref_tracks (i : Nat) : Tracks (vnodeIncref i) (Sfs.vnodeIncref i) :=
  runs_underLock

lemma truncateIndirect_runs (i blocklen : Nat) :
    Runs brackets .panic 1 1 0 (truncateIndirect i blocklen) (Sfs.truncateIndirect i blocklen) := by
  refine runs_sure.bind fun v => runs_perform ?_ _
  refine (runs_checked (runs_free _)).bind fun data => ?_
  refine runs_sure.bind fun id => ?_
  split
  · exact runs_sure.bind fun _ => runs_sure
  · exact runs_perform (runs_checked (runs_free _)) _

lemma sfsTruncate_tracks (i len : Nat) : Tracks (sfsTruncate i len) (Sfs.sfsTruncate i len) := by
  refine Runs.acquire ?_
  refine runs_sure.bind fun _ => ?_
  refine (truncateIndirect_runs i _).bind fun _ => ?_
  exact runs_released runs_sure

lemma fileOps_tracks (i : Nat) (tracks : Tracks m n) : Tracks (fileOps i m) (asFile i n) := by
  refine runs_vnodeCheck (runs_sure.bind fun v => ?_)
  split
  · exact runs_throw _
  · exact tracks

lemma dirOps_tracks (i : Nat) (tracks : Tracks m n) : Tracks (dirOps i m) (asDir i n) := by
  refine runs_vnodeCheck (runs_sure.bind fun v => ?_)
  split
  · exact tracks
  · exact runs_throw _

lemma reclaimLast_runs (i : Nat) (v : Vnode) : Runs brackets .panic 1 0 0 (reclaimLast i v) (do
    perform (v.inode.linkcount == 0) (asFile i (Sfs.sfsTruncate i 0))
    sfsSyncInode i
    perform (v.inode.linkcount == 0) (sfsBfree i)
    modify fun s => {s with vnodes := Function.update s.vnodes i none}) := by
  refine (runs_perform (runs_checked (fileOps_tracks i (sfsTruncate_tracks i 0)).anywhere) _).bind fun _ => ?_
  refine (runs_checked (runs_free _)).bind fun _ => ?_
  refine runs_sure.bind fun _ => ?_
  exact runs_released runs_sure

lemma sfsReclaim_tracks (i : Nat) : Tracks (sfsReclaim i) (Sfs.sfsReclaim i) := by
  refine Runs.acquire (runs_sure.bind fun v => ?_)
  split
  · refine runs_sure.bind fun _ => runs_sure.bind fun _ => ?_
    exact Runs.release (runs_throw _)
  · exact reclaimLast_runs i v

instance (res : Except Errno PUnit) : Sure (reportReclaim res) := by
  unfold reportReclaim
  split <;> infer_instance

lemma vnodeDecref_tracks (i : Nat) : Tracks (vnodeDecref i) (Sfs.vnodeDecref i) := by
  refine Runs.acquire (runs_sure.bind fun v => runs_sure.bind fun _ => ?_)
  refine runs_released ?_
  unfold dropReference
  split
  · exact runs_sure
  refine runs_vnodeCheck ((runs_attempt (sfsReclaim_tracks i).anywhere).bind fun res => ?_)
  exact runs_sure

lemma sfsLoadvnode_tracks (ino : Nat) (forcetype : BitVec 16) :
    Tracks (sfsLoadvnode ino forcetype) (Sfs.sfsLoadvnode ino forcetype) := by
  refine runs_sure.bind fun s => runs_sure.bind fun _ => ?_
  cases s.vnodes ino with
  | some v => exact runs_sure.bind fun _ => runs_underLock
  | none => exact runs_free _

lemma sfsLookonce_tracks (i : Nat) (name : List UInt8) : Tracks (sfsLookonce i name) (Sfs.sfsLookonce i name) := by
  refine (runs_free _).bind fun found => ?_
  cases found.hit with
  | none => exact runs_throw _
  | some hit =>
    refine (sfsLoadvnode_tracks hit.1 typeInval).bind fun _ => runs_sure.bind fun v => ?_
    exact runs_sure.bind fun _ => runs_pure _

lemma sfsMakeobj_tracks (type : BitVec 16) : Tracks (sfsMakeobj type) (Sfs.sfsMakeobj type) :=
  (runs_free _).bind fun ino => (sfsLoadvnode_tracks ino type).bind fun _ => runs_pure ino

instance (i : Nat) : Sure (Sfs.vnodeDecref i) := by
  unfold Sfs.vnodeDecref
  infer_instance

lemma vnodeDecref_runs (i : Nat) : Runs brackets .panic d d failed (vnodeDecref i) (Sfs.vnodeDecref i) :=
  (vnodeDecref_tracks i).anywhere.sure fun s _ _ ran => (Sure.ends s).failed ran

lemma sfsCreat_tracks (dir : Nat) (name : List UInt8) (excl : Bool) :
    Tracks (sfsCreat dir name excl) (Sfs.sfsCreat dir name excl) := by
  refine Runs.acquire ((runs_checked (runs_free _)).bind fun found => ?_)
  cases found.hit with
  | some hit =>
    cases excl with
    | true => exact Runs.release (runs_throw _)
    | false =>
      refine (runs_checked (sfsLoadvnode_tracks hit.1 typeInval).anywhere).bind fun _ => ?_
      exact Runs.release (runs_pure _)
  | none =>
    refine (runs_checked (sfsMakeobj_tracks typeFile).anywhere).bind fun ino => ?_
    refine (runs_attempt (runs_free _)).bind fun res => ?_
    cases res with
    | error errno => exact (vnodeDecref_runs ino).bind fun _ => Runs.release (runs_throw _)
    | ok slot => exact runs_sure.bind fun _ => Runs.release (runs_pure _)

lemma sfsLink_tracks (dir : Nat) (name : List UInt8) (file : Nat) :
    Tracks (sfsLink dir name file) (Sfs.sfsLink dir name file) :=
  Runs.acquire ((runs_checked (runs_free _)).bind fun _ => runs_released runs_sure)

lemma sfsRemove_tracks (dir : Nat) (name : List UInt8) : Tracks (sfsRemove dir name) (Sfs.sfsRemove dir name) := by
  refine Runs.acquire ((runs_checked (sfsLookonce_tracks dir name).anywhere).bind fun hit => ?_)
  refine (runs_attempt (runs_free _)).bind fun res => ?_
  cases res with
  | ok _ => exact runs_sure.bind fun _ => runs_released (vnodeDecref_runs _)
  | error errno => exact (vnodeDecref_runs _).bind fun _ => Runs.release (runs_throw _)

lemma puke_runs (g1 : Nat) (errno : Errno) :
    Runs brackets .panic 1 0 0 (puke g1 errno) (Sfs.vnodeDecref g1 >>= fun _ => fail errno) :=
  (vnodeDecref_runs g1).bind fun _ => Runs.release (runs_throw _)

lemma sfsRename_tracks (dir : Nat) (n1 n2 : List UInt8) : Tracks (sfsRename dir n1 n2) (Sfs.sfsRename dir n1 n2) := by
  refine Runs.acquire (runs_sure.bind fun _ => ?_)
  refine (runs_checked (sfsLookonce_tracks dir n1).anywhere).bind fun hit => ?_
  refine runs_sure.bind fun v => runs_sure.bind fun _ => ?_
  refine (runs_attempt (runs_free _)).bind fun res => ?_
  cases res with
  | error errno => exact puke_runs _ errno
  | ok slot2 =>
    refine runs_sure.bind fun _ => (runs_attempt (runs_free _)).bind fun res => ?_
    cases res with
    | ok _ => exact runs_sure.bind fun _ => runs_released (vnodeDecref_runs _)
    | error errno =>
      refine (runs_attempt (runs_free _)).bind fun result2 => ?_
      cases result2 with
      | error _ => exact runs_stop
      | ok _ =>
        refine runs_sure.bind fun v => runs_sure.bind fun _ => ?_
        exact puke_runs _ errno

lemma sfsLookup_tracks (dir : Nat) (name : List UInt8) :
    Tracks (sfsLookup dir name) (asDir dir (Sfs.sfsLookup dir name)) := by
  refine Runs.acquire (runs_sure.bind fun v => ?_)
  split
  · exact (runs_checked (sfsLookonce_tracks dir name).anywhere).bind fun _ => Runs.release (runs_pure _)
  · exact Runs.release (runs_throw _)

lemma sfsLookparent_tracks (dir : Nat) (path : List UInt8) :
    Tracks (sfsLookparent dir path) (asDir dir (Vfs.sfsLookparent dir path)) := by
  refine Runs.acquire (runs_sure.bind fun v => ?_)
  unfold Vfs.sfsLookparent
  split
  · split
    · exact Runs.release (runs_throw _)
    · exact runs_released runs_underLock
  · exact Runs.release (runs_throw _)

lemma sfsGettype_tracks (i : Nat) : Tracks (sfsGettype i) (do
    let v ← vnodeOf i
    kassert (v.inode.type == typeFile || v.inode.type == typeDir)
    pure (v.inode.type == typeDir)) := by
  refine Runs.acquire (runs_sure.bind fun v => runs_sure.bind fun _ => ?_)
  exact Runs.release (runs_pure _)

lemma sfsFsync_tracks (i : Nat) : Tracks (sfsFsync i) (sfsSyncInode i) :=
  Runs.acquire (runs_handBack (runs_free _))

lemma sfsGetroot_tracks : Tracks sfsGetroot Sfs.sfsGetroot := by
  refine Runs.acquire ((runs_attempt (sfsLoadvnode_tracks rootLocation typeInval).anywhere).bind fun res => ?_)
  cases res with
  | ok _ => exact Runs.release (runs_pure _)
  | error _ => exact runs_stop

lemma syncVnodes_runs (is : List Nat) : Runs brackets .panic d d failed (syncVnodes is) (Sfs.syncVnodes is) := by
  induction is with
  | nil => exact runs_pure _
  | cons i rest ih =>
    refine runs_sure.bind fun s => Runs.bind (runs_perform ?_ _) fun _ => ih
    exact runs_vnodeCheck ((runs_attempt (sfsFsync_tracks i).anywhere).bind fun _ => runs_pure _)

lemma sfsSync_tracks : Tracks sfsSync Sfs.sfsSync := by
  refine Runs.acquire (runs_sure.bind fun s => (syncVnodes_runs _).bind fun _ => ?_)
  refine runs_sure.bind fun s => runs_released (runs_perform ?_ _)
  exact (runs_checked (runs_free _)).bind fun _ => runs_sure

lemma sfsUnmount_tracks : Tracks sfsUnmount Sfs.sfsUnmount := by
  refine Runs.acquire (runs_sure.bind fun s => ?_)
  split
  · exact Runs.release (runs_throw _)
  · exact runs_released runs_sure

lemma sfsDomount_tracks (dBlocksize : Nat) :
    Tracks (sfsDomount dBlocksize) (if dBlocksize ≠ blockSize then fail .enxio else Sfs.sfsDomount) := by
  refine Runs.acquire ?_
  split
  · exact Runs.release (runs_throw _)
  refine (runs_checked (runs_free _)).bind fun _ => (runs_checked (runs_free _)).bind fun _ => ?_
  refine (runs_checked (runs_free _)).bind fun sup => ?_
  split
  · exact Runs.release (runs_throw _)
  refine (runs_checked (runs_free _)).bind fun _ => runs_sure.bind fun _ => ?_
  exact (runs_checked (runs_free _)).bind fun _ => runs_released runs_sure
end ToyOS.BigLock

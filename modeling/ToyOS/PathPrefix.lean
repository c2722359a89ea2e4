import ToyOS.BigLockVfs

namespace ToyOS.PathPrefix
open BigLock Nesting Sfs UserSpace List Nat
open Vfs (colon slash nameMax splitPath skipSlashes Start)

-- The loops over the slashes after position `k`.
def lastSlash : List UInt8 → Nat → Nat
  | c :: rest,k => if c = slash then lastSlash rest (k+1) else k
  | [],k => k

def subpath (path : List UInt8) (k : Nat) : List UInt8 := path.drop (lastSlash (path.drop (k+1)) k+1)

def Plain (name : List UInt8) : Prop := ∀ c ∈ name, c ≠ colon ∧ c ≠ slash

-- Whatever `m` ends with, it is not EINVAL. A class, so that the instance search follows the steps of a function.
class Spares {σ α : Type} (m : EStateM Fault σ α) : Prop where
  spares : ∀ s t, m s ≠ .error (.errno .einval) t

section
variable {σ α β : Type} {m : EStateM Fault σ α}

lemma spares_bind {f : α → EStateM Fault σ β} [one : Spares m] (rest : ∀ a, Spares (f a)) : Spares (m >>= f) where
  spares s t eq := by
    cases ran : m s with
    | ok a u => exact (rest a).spares u t ((bind_ok ran).symm.trans eq)
    | error e u =>
      cases (bind_error ran).symm.trans eq
      exact one.spares s t ran

instance {f : α → EStateM Fault σ β} [Spares m] [rest : ∀ a, Spares (f a)] : Spares (m >>= f) := spares_bind rest

lemma attempt_ok (ran : m s = .ok a t) : attempt m s = .ok (.ok a) t := by rw [attempt,ran]
lemma attempt_errno (ran : m s = .error (.errno errno) t) : attempt m s = .ok (.error errno) t := by rw [attempt,ran]
lemma attempt_panic (ran : m s = .error .panic t) : attempt m s = .error .panic t := by rw [attempt,ran]

-- The errno that is handed on is one that `m` has given.
lemma spares_handed {f : Except Errno α → EStateM Fault σ β} [one : Spares m] (ok : ∀ a, Spares (f (.ok a)))
    (error : ∀ errno, errno ≠ .einval → Spares (f (.error errno))) : Spares (attempt m >>= f) where
  spares s t eq := by
    cases ran : m s with
    | ok a u => exact (ok a).spares u t ((bind_ok (attempt_ok ran)).symm.trans eq)
    | error e u =>
      cases e with
      | panic => cases (bind_error (attempt_panic ran)).symm.trans eq
      | errno errno =>
        refine (error errno fun same => ?_).spares u t ((bind_ok (attempt_errno ran)).symm.trans eq)
        cases same
        exact one.spares s u ran

lemma spares_fail (ne : errno ≠ .einval) : Spares (fail errno : EStateM Fault σ α) where
  spares s t eq := by
    cases eq
    exact ne rfl

instance (priority := low) [sure : Sure m] : Spares m := ⟨fun s _ eq => by cases (sure.ends s).failed eq⟩

instance (priority := low) {m : WorldOp α} [calm : Calm m] : Spares m :=
  ⟨fun w _ eq => by cases (calm.keeps w w ⟨rfl,rfl,le_rfl⟩).failed eq⟩

instance : Spares (fail .enoent : EStateM Fault σ α) := spares_fail (by decide)
instance : Spares (fail .enotdir : EStateM Fault σ α) := spares_fail (by decide)
instance : Spares (fail .enomem : EStateM Fault σ α) := spares_fail (by decide)
instance : Spares (fail .enospc : EStateM Fault σ α) := spares_fail (by decide)
instance : Spares (fail .efbig : EStateM Fault σ α) := spares_fail (by decide)
instance : Spares (fail .efault : EStateM Fault σ α) := spares_fail (by decide)
instance : Spares (fail .enametoolong : EStateM Fault σ α) := spares_fail (by decide)
instance : Spares (fail .enodev : EStateM Fault σ α) := spares_fail (by decide)

instance [Decidable p] {n : EStateM Fault σ α} [one : Spares m] [other : Spares n] : Spares (if p then m else n) := by
  split <;> assumption

instance {n : EStateM Fault σ PUnit} [one : Spares n] (cond : Bool) : Spares (perform cond n) := by
  unfold perform
  infer_instance

instance [one : Spares m] : Spares (free m : EStateM Fault (Locked Lock σ) α) where
  spares w t eq := by
    unfold free at eq
    split at eq <;> cases eq
    exact one.spares _ _ ‹_›

instance : Spares (vfsBiglockAcquire : EStateM Fault (Locked Lock σ) PUnit) := inferInstanceAs (Spares (modify _))

instance : Spares (vfsBiglockRelease : EStateM Fault (Locked Lock σ) PUnit) where
  spares w t eq := by
    unfold vfsBiglockRelease release at eq
    split at eq <;> cases eq

instance : Spares (vnodeCheck : EStateM Fault (Locked Lock σ) PUnit) := by
  unfold vnodeCheck
  infer_instance

instance {n : EStateM Fault σ PUnit} [one : Spares n] : Spares (underLock n) := by
  unfold underLock
  infer_instance

instance {m : EStateM Fault (Locked Lock σ) α} [one : Spares m] : Spares (checked m) :=
  spares_handed (fun a => inferInstanceAs (Spares (pure a))) fun errno ne => by
    have := spares_fail (σ := Locked Lock σ) (α := α) ne
    exact inferInstanceAs (Spares (vfsBiglockRelease >>= fun _ => fail errno))

end

instance {m : LockedOp α} [one : Spares m] (k : Nat) : Spares (onVolume k m) where
  spares w t eq := by
    unfold onVolume within at eq
    split at eq <;> cases eq
    exact one.spares _ _ ‹_›

instance {m : Op α} [one : Spares m] : Spares (onFs m) where
  spares w t eq := by
    unfold onFs at eq
    split at eq <;> cases eq
    exact one.spares _ _ ‹_›

instance {m : IoOp α} [one : Spares m] (u : Uio) : Spares (withUio u m) where
  spares w t eq := by
    unfold withUio at eq
    split at eq <;> cases eq
    exact one.spares _ _ ‹_›

instance (block : Nat) : Spares (inRange block) := by
  unfold inRange
  infer_instance

-- sfs_rwblock panics where the device answers EINVAL.
instance (block : Nat) : Spares (transfer block) := by
  unfold transfer
  refine spares_bind fun _ => spares_bind fun s => spares_bind fun _ => ?_
  split
  · infer_instance
  · infer_instance
  · exact spares_fail ‹_›

instance (block : Nat) : Spares (sfsRblock block) := by
  unfold sfsRblock
  infer_instance

instance (data : Block) (block : Nat) : Spares (sfsWblock data block) := by
  unfold sfsWblock
  infer_instance

instance : Spares sfsBalloc := spares_bind fun s => by
  unfold sfsClearblock
  split <;> infer_instance

instance (i fileblock : Nat) (doalloc : Bool) : Spares (findBlock i fileblock doalloc) := by
  unfold findBlock directBlock entryBlock indirectBlock
  split <;> infer_instance

instance (block : Nat) : Spares (sfsBused block) := by
  unfold sfsBused
  infer_instance

instance (i fileblock : Nat) (doalloc : Bool) : Spares (sfsBmap i fileblock doalloc) := by
  unfold sfsBmap checkUsed
  infer_instance

instance (buffer : Block) (start n : Nat) : Spares (uiomove buffer start n) := by
  unfold uiomove moveBytes
  infer_instance

instance (n : Nat) : Spares (uiomovezeros n) := by
  induction n <;> unfold uiomovezeros <;> infer_instance

instance (i skipstart len : Nat) : Spares (sfsPartialio i skipstart len) := by
  unfold sfsPartialio readBlock
  infer_instance

instance (i : Nat) : Spares (sfsBlockio i) := by
  unfold sfsBlockio
  exact spares_bind fun _ => spares_bind fun _ => inferInstance

instance (i n : Nat) : Spares (blockLoop i n) := by
  induction n <;> unfold blockLoop <;> infer_instance

instance (i : Nat) : Spares (regionIo i) := by
  unfold regionIo alignedIo
  infer_instance

instance (i extraresid : Nat) : Spares (clippedIo i extraresid) := by
  unfold clippedIo setResid growSize returnResult
  refine spares_bind fun _ => spares_bind fun _ => spares_handed (fun _ => ?_) fun errno ne => ?_
  · infer_instance
  · have := spares_fail (σ := Io) (α := PUnit) ne
    infer_instance

instance (i : Nat) (name : List UInt8) (n slot : Nat) (found : Search) : Spares (findFrom i name n slot found) := by
  induction n generalizing slot found <;> unfold findFrom
  · infer_instance
  · unfold sfsReaddir sfsIo
    infer_instance

instance : Spares kmalloc := by
  unfold kmalloc
  infer_instance

instance (ino : Nat) (forcetype : BitVec 16) : Spares (readVnode ino forcetype) :=
  spares_bind fun _ => spares_bind fun _ => spares_bind fun _ => spares_bind fun _ => spares_bind fun _ =>
    inferInstanceAs (Spares (kassert _ >>= fun _ => kmalloc >>= fun _ => setVnode _ _))

instance (ino : Nat) (forcetype : BitVec 16) : Spares (BigLock.sfsLoadvnode ino forcetype) :=
  spares_bind fun s => spares_bind fun _ => by split <;> infer_instance

instance (i : Nat) (name : List UInt8) : Spares (BigLock.sfsLookonce i name) := by
  unfold BigLock.sfsLookonce sfsDirFindname sfsDirNentries
  refine spares_bind fun found => ?_
  split <;> infer_instance

instance (code : Nat) : Spares (translateErr code) := by
  unfold translateErr
  split <;> first | infer_instance | exact spares_fail (by decide)

instance : Spares emuWaitdone := by
  unfold emuWaitdone
  infer_instance

instance (k : Nat) (name : List UInt8) : Spares (emuOpen k name) := by
  have answered : Spares (attempt emuWaitdone >>= fun result => elockRelease k >>= fun _ => giveBack result >>=
      fun answer => pure (answer.handle,decide (0 < answer.iolen))) := by
    unfold elockRelease giveBack
    refine spares_handed (fun _ => ?_) fun errno ne => ?_
    · infer_instance
    · have := spares_fail (σ := World) (α := EmuAnswer) ne
      infer_instance
  unfold emuOpen elockAcquire
  infer_instance

instance (k handle : Nat) : Spares (emuIncref k handle) := by
  unfold emuIncref setEmuRefcount
  infer_instance

instance (k handle : Nat) (isdir granted : Bool) : Spares (newVnode k handle isdir granted) := by
  unfold newVnode addVnode elockRelease
  infer_instance

instance (k handle : Nat) (isdir : Bool) : Spares (emufsLoadvnode k handle isdir) := by
  unfold emufsLoadvnode loadHandle elockAcquire elockRelease
  refine spares_bind fun _ => spares_bind fun _ => spares_bind fun w => ?_
  split <;> infer_instance

instance (k : Nat) (name : List UInt8) : Spares (emufsOpenHandle k name) :=
  spares_bind fun opened => spares_handed (fun _ => inferInstanceAs (Spares (pure _))) fun errno ne => by
    have := spares_fail (σ := Locked Lock World) (α := AnyVnode) ne
    exact inferInstanceAs (Spares (attempt (free (emuClose k)) >>= fun _ => fail errno))

instance (vn : AnyVnode) : Spares (vopIncref vn) := by
  unfold vopIncref BigLock.vnodeIncref Sfs.vnodeIncref
  cases vn <;> infer_instance

instance (vn : AnyVnode) : Spares (vopDecref vn) := by
  have drop (i : Nat) : Spares (BigLock.vnodeDecref i) := spares_bind fun _ => by
    unfold dropReference
    infer_instance
  unfold vopDecref dropEmuReference dropDeviceReference
  cases vn <;> first | infer_instance | exact spares_bind fun _ => inferInstance

instance (dir : Nat) (name : List UInt8) : Spares (BigLock.sfsLookup dir name) := by
  have found : Spares (checked (BigLock.sfsLookonce dir name) >>= fun (ino,_) => vfsBiglockRelease >>= fun _ =>
      pure ino) := spares_bind fun _ => inferInstanceAs (Spares (vfsBiglockRelease >>= fun _ => pure _))
  unfold BigLock.sfsLookup
  infer_instance

instance (path : List UInt8) (vn : AnyVnode) : Spares (vopLookup path vn) := by
  unfold vopLookup dirOps emuDirOps emufsLookup
  cases vn <;> infer_instance

instance (fs : FileSystem) : Spares (getroot fs) := by
  have root : Spares BigLock.sfsGetroot := spares_bind fun _ =>
    spares_handed (fun _ => inferInstanceAs (Spares (vfsBiglockRelease >>= fun _ => pure _)))
      fun _ _ => inferInstanceAs (Spares panics)
  unfold getroot
  cases fs <;> infer_instance

lemma spares_foundVnode (ne : found ≠ .error .einval) : Spares (foundVnode found) := by
  unfold foundVnode
  split
  · infer_instance
  · infer_instance
  · exact spares_fail fun same => ne (congrArg _ same)
  · infer_instance

instance (devname : List UInt8) (table : List (DeviceTable.KnownDev Nat FileSystem)) :
    Spares (rootLoop devname table) := by
  induction table with
  | nil => exact inferInstanceAs (Spares (fail _))
  | cons kd rest ih =>
    have name : Spares (getvolname kd.kdFs) := by
      unfold getvolname
      split <;> infer_instance
    refine spares_bind fun _ => spares_bind fun w => ?_
    split
    · refine spares_foundVnode ?_
      rename_i eq
      rintro rfl
      unfold DeviceTable.getrootOf DeviceTable.deviceOf at eq
      grind
    · exact ih

instance : Spares vfsGetcurdir := spares_bind fun w => by split <;> infer_instance

instance (vn : AnyVnode) : Spares (fsRoot vn) := by
  unfold fsRoot
  cases vn <;> infer_instance

instance (start : Start) : Spares (startVnode start) := by
  cases start with
  | bootfs => exact spares_bind fun w => by split <;> infer_instance
  | _ =>
    unfold startVnode vfsGetroot vfsBiglockDoIHold
    infer_instance

instance (path : List UInt8) : Spares (vfsLookup path) := by
  unfold vfsLookup getdevice vfsBiglockDoIHold
  refine spares_bind fun _ => spares_bind fun start => ?_
  have looked : Spares (attempt (vopLookup start.2 start.1) >>= fun result => vopDecref start.1 >>= fun _ =>
      vfsBiglockRelease >>= fun _ => giveBack result) := by
    unfold giveBack
    refine spares_handed (fun _ => ?_) fun errno ne => ?_
    · infer_instance
    · have := spares_fail (σ := Locked Lock World) (α := AnyVnode) ne
      infer_instance
  split
  infer_instance

instance (old : Option AnyVnode) : Spares (dropOld old) := by
  unfold dropOld
  cases old <;> infer_instance

instance (dir : AnyVnode) : Spares (vfsSetcurdir dir) := by
  have type : Spares (isDir dir) := by
    unfold isDir sfsGettype
    cases dir <;> infer_instance
  unfold vfsSetcurdir
  infer_instance

instance (path : List UInt8) : Spares (vfsChdir path) := by
  unfold vfsChdir giveBack
  refine spares_bind fun vn => spares_handed (fun _ => ?_) fun errno ne => ?_
  · infer_instance
  · have := spares_fail (σ := Locked Lock World) (α := PUnit) ne
    infer_instance

-- A name that has no colon gets one, and then nothing on the way answers EINVAL.
lemma vfsSetbootfs_accepts (outside : colon ∉ fsname.take (nameMax-1)) : Spares (vfsSetbootfs fsname) := by
  unfold vfsSetbootfs changeBootfs
  rw [if_neg outside]
  infer_instance

lemma vfsSetbootfs_refuses (inside : colon ∈ fsname.take (nameMax-1)) (w : Locked Lock World) :
    vfsSetbootfs fsname w = .error (.errno .einval) w := by
  unfold vfsSetbootfs
  rw [if_pos inside]
  exact (bind_ok rfl).trans (bind_ok (release_enter (d := 0) w.lock w.world))

-- The colon at the end changes the result for every name and in every state.
theorem vfsSetbootfs_colon (w : Locked Lock World) :
    (∀ fsname, colon ∉ fsname → fsname.length < nameMax-1 → vfsSetbootfs (fsname++[colon]) w ≠ vfsSetbootfs fsname w) ∧
    ∀ name, vfsSetbootfs name w =
      if colon ∈ name.take (nameMax-1) then .error (.errno .einval) w else vfsSetbootfs (name.take (nameMax-1)) w := by
  constructor
  · intro fsname outside short same
    have inside : colon ∈ (fsname++[colon]).take (nameMax-1) := by
      rw [take_of_length_le (by simpa using short)]
      simp
    rw [vfsSetbootfs_refuses inside] at same
    exact (vfsSetbootfs_accepts fun mem => outside (mem_of_mem_take mem)).spares w w same.symm
  intro name
  split
  · exact vfsSetbootfs_refuses ‹_› w
  unfold vfsSetbootfs
  rw [take_take,Nat.min_self]

lemma unheld : false = true ↔ 0 < 0 := iff_of_false Bool.false_ne_true (lt_irrefl 0)
def fresh : Locked Lock World := ⟨⟨false,0,unheld⟩,exhausted⟩

theorem vfsSetbootfs_colon_a : vfsSetbootfs [97,58] fresh ≠ vfsSetbootfs [97] fresh :=
  (vfsSetbootfs_colon fresh).1 [97] (by decide) (by decide)

def errnoOf : EStateM.Result Fault (Locked Lock World) PUnit → Option Errno
  | .error (.errno errno) _ => some errno
  | _ => none

theorem vfsSetbootfs_differs : errnoOf (vfsSetbootfs [97] fresh) = some .enodev ∧
    errnoOf (vfsSetbootfs [97,58] fresh) = some .einval := by
  decide +kernel
end ToyOS.PathPrefix

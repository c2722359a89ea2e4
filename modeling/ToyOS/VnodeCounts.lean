import ToyOS.SfsShares
import ToyOS.VfsSystem

namespace ToyOS.BigLock
open Function Nesting Outcome Sfs UserSpace DeviceTable Shares

def Carries {α : Type} (I : World → Prop) (m : LockedWorldOp α) (Q : α → World → Prop) (J : World → Prop) : Prop :=
  ∀ w : Locked Lock World, I w.world → Ends (m w) (fun a t => Q a t.world) (Vfs.Partly fun t => J t.world)

section
variable {α β : Type} {I J K : World → Prop} {Q : α → World → Prop} {R : β → World → Prop} {m : LockedWorldOp α}
  {f : α → LockedWorldOp β}

lemma Carries.bind (one : Carries I m Q J) (rest : ∀ a, Carries (Q a) (f a) R J) : Carries I (m >>= f) R J :=
  fun w holds => ends_bind (one w holds) fun a t done => rest a t done

lemma carries_pure (holds : ∀ w, I w → Q a w) : Carries I (pure a) Q J := fun w => holds w.world

lemma carries_fail (holds : ∀ w, I w → J w) : Carries I (fail errno : LockedWorldOp α) Q J :=
  fun w => holds w.world

lemma carries_panics : Carries I (panics : LockedWorldOp α) Q J := fun _ _ => trivial
lemma carries_acquire : Carries I vfsBiglockAcquire (fun _ => I) J := fun _ holds => holds

lemma carries_release : Carries I vfsBiglockRelease (fun _ => I) J := by
  intro w holds
  unfold vfsBiglockRelease release
  cases brackets.leave w.lock with
  | none => trivial
  | some l => exact holds

lemma carries_vnodeCheck : Carries I vnodeCheck (fun _ => I) J := carries_acquire.bind fun _ => carries_release

lemma carries_doIHold : Carries I vfsBiglockDoIHold (fun _ => I) J := by
  intro w holds
  refine ends_bind_get ?_
  cases w.lock.held with
  | true => exact holds
  | false => trivial

lemma carries_get {f : World → LockedWorldOp α} (rest : ∀ w, I w → Carries (· = w) (f w) Q J) :
    Carries I (free get >>= f) Q J := fun w holds => rest w.world holds w rfl

lemma carries_modify {g : World → World} {Q : PUnit → World → Prop} (holds : ∀ w, I w → Q ⟨⟩ (g w)) :
    Carries I (free (modify g)) Q J := fun w => holds w.world

lemma carries_kassert : Carries I (free (kassert check)) (fun _ w => check ∧ I w) J := by
  intro w holds
  cases check with
  | true => exact ⟨rfl,holds⟩
  | false => trivial

lemma carries_perform {m : LockedWorldOp PUnit} (carries : Carries I m (fun _ => I) J) (cond : Bool) :
    Carries I (perform cond m) (fun _ => I) J := by
  cases cond with
  | true => exact carries
  | false => exact carries_pure fun _ holds => holds

def Either (Q : α → World → Prop) (J : World → Prop) : Except Errno α → World → Prop
  | .ok a => Q a
  | .error _ => J

lemma Carries.attempt (carries : Carries I m Q J) : Carries I (attempt m) (Either Q J) K := by
  intro w holds
  have ends := carries w holds
  unfold Sfs.attempt
  cases ran : m w with
  | ok a t => exact ends.ok ran
  | error e t =>
    have bad := ends.failed ran
    cases e with
    | panic => trivial
    | errno errno => exact bad

lemma carries_giveBack (res : Except Errno α) : Carries (Either Q J res) (giveBack res) Q J := by
  cases res with
  | ok a => exact carries_pure fun _ holds => holds
  | error errno => exact carries_fail fun _ holds => holds

lemma Carries.checked (carries : Carries I m Q J) : Carries I (checked m) Q J := by
  refine carries.attempt.bind fun res => ?_
  cases res with
  | ok a => exact carries_pure fun _ holds => holds
  | error errno => exact carries_release.bind fun _ => carries_fail fun _ holds => holds

lemma carries_free (ends : ∀ w, I w → Ends (n w) Q (Vfs.Partly J)) : Carries I (free n) Q J := by
  intro w holds
  have done := ends w.world holds
  unfold free
  cases ran : n w.world with
  | ok a t => exact done.ok ran
  | error e t =>
    have bad := done.failed ran
    cases e with
    | panic => trivial
    | errno errno => exact bad

lemma carries_onVolume {k : Nat} {m : LockedOp α} (tracks : Tracks m n)
    (ends : ∀ w, I w → Ends (n (w.volumes k)) (fun a s => Q a {w with volumes := update w.volumes k s})
      (Vfs.Partly fun s => J {w with volumes := update w.volumes k s})) : Carries I (onVolume k m) Q J := by
  intro w holds
  have done := ends w.world holds
  have runs := tracks w.lock (w.world.volumes k)
  unfold onVolume within
  cases ran : n (w.world.volumes k) with
  | ok a s =>
    rw [ran] at runs
    simp only [iterate_zero,id] at runs
    rw [runs]
    exact done.ok ran
  | error e s =>
    rw [ran] at runs
    have bad := done.failed ran
    cases runs with
    | inl stop =>
      obtain ⟨rfl,u,stop⟩ := stop
      simp only [iterate_zero,id] at stop
      rw [stop]
      trivial
    | inr eq =>
      simp only [iterate_zero,id] at eq
      rw [eq]
      cases e with
      | panic => trivial
      | errno errno => exact bad

end

def Known (table : List (KnownDev Nat FileSystem)) : AnyVnode → Prop
  | .sfs _ _ => True
  | .emu _ _ => False
  | .device k => Listed table k

def own (holder : Option AnyVnode) (vn : AnyVnode) : Nat := if holder = some vn then 1 else 0
def World.total (w : World) (held : AnyVnode → Nat) (vn : AnyVnode) : Nat := held vn+own w.cwd vn+own w.bootfs vn

-- `held` are the references of all others.
structure Books (table : List (KnownDev Nat FileSystem)) (held opened : AnyVnode → Nat) (w : World) : Prop where
  entries : w.table = table
  cwd : ∀ vn, w.cwd = some vn → Known table vn
  bootfs : ∀ vn, w.bootfs = some vn → Known table vn
  opens : w.opencount = opened
  volumes : ∀ k, Shared (fun i => w.total held (.sfs k i)) (w.volumes k)
  devices : ∀ k, Listed table k → w.deviceRefs k = w.total held (.device k)+1

variable {table : List (KnownDev Nat FileSystem)} {held held' opened : AnyVnode → Nat} {w : World} {vn : AnyVnode}
  {J : World → Prop} {k i : Nat} {α : Type}

-- The books are the same after `m`, whether it fails or not.
abbrev Leaves (table : List (KnownDev Nat FileSystem)) (held opened : AnyVnode → Nat) (m : LockedWorldOp α) : Prop :=
  Carries (Books table held opened) m (fun _ => Books table held opened) (Books table held opened)

lemma World.total_more (w : World) (held : AnyVnode → Nat) (vn : AnyVnode) :
    w.total (more held vn) = more (w.total held) vn := by
  funext x
  simp only [World.total,more_apply]
  omega

lemma sfs_injective (k : Nat) : Injective (AnyVnode.sfs k) := fun _ _ eq => (AnyVnode.sfs.inj eq).2

lemma World.total_file (w : World) (held : AnyVnode → Nat) (k i : Nat) :
    (fun j => w.total (more held (.sfs k i)) (.sfs k j)) = more (fun j => w.total held (.sfs k j)) i := by
  rw [World.total_more]
  exact more_comp (sfs_injective k) i

section
variable (books : Books table held opened w)
include books

lemma Books.setVolume (shared : Shared (fun i => w.total held' (.sfs k i)) s)
    (rest : ∀ x, (∀ i, x ≠ .sfs k i) → held' x = held x) :
    Books table held' opened {w with volumes := update w.volumes k s} where
  entries := books.entries
  cwd := books.cwd
  bootfs := books.bootfs
  opens := books.opens
  volumes l := by
    change Shared (fun i => w.total held' (.sfs l i)) (update w.volumes k s l)
    rcases eq_or_ne l k with rfl | ne
    · rw [update_self]
      exact shared
    rw [update_of_ne ne]
    have same : (fun i => w.total held' (.sfs l i)) = fun i => w.total held (.sfs l i) := by
      funext i
      unfold World.total
      rw [rest _ fun j eq => ne (AnyVnode.sfs.inj eq).1]
    rw [same]
    exact books.volumes l
  devices l listed := by
    have same : w.total held' (.device l) = w.total held (.device l) := by
      unfold World.total
      rw [rest _ fun j => AnyVnode.noConfusion]
    exact (books.devices l listed).trans (congrArg (·+1) same.symm)

lemma Books.keep (shared : Shared (fun i => w.total held (.sfs k i)) s) :
    Books table held opened {w with volumes := update w.volumes k s} := books.setVolume shared fun _ _ => rfl

lemma Books.take (shared : Shared (more (fun i => w.total held (.sfs k i)) i) s) :
    Books table (more held (.sfs k i)) opened {w with volumes := update w.volumes k s} :=
  books.setVolume (by rw [World.total_file]; exact shared) fun _ other => more_of_ne (other i)

end

lemma Books.give (books : Books table (more held (.sfs k i)) opened w)
    (shared : Shared (fun i => w.total held (.sfs k i)) s) :
    Books table held opened {w with volumes := update w.volumes k s} :=
  books.setVolume shared fun _ other => (more_of_ne (other i)).symm

lemma carries_leaves {m : LockedOp α} {n : Op α} (tracks : Tracks m n) (leaves : Turns (fun _ held => held) n) :
    Leaves table held opened (onVolume k m) :=
  carries_onVolume tracks fun _ books => (leaves _ _ (books.volumes k)).mono (fun _ _ shared => books.keep shared)
    (Partly.mono fun _ shared => books.keep shared)

lemma carries_takes {m : LockedOp α} {n : Op α} {g : α → Nat} (tracks : Tracks m n)
    (takes : Turns (fun a held => more held (g a)) n) :
    Carries (Books table held opened) (onVolume k m) (fun a => Books table (more held (.sfs k (g a))) opened)
      (Books table held opened) :=
  carries_onVolume tracks fun _ books => (takes _ _ (books.volumes k)).mono (fun _ _ shared => books.take shared)
    (Partly.mono fun _ shared => books.keep shared)

lemma Books.setDevice (books : Books table held opened w)
    (counted : Listed table k → refs = w.total held' (.device k)+1) (rest : ∀ x ≠ .device k, held' x = held x) :
    Books table held' opened {w with deviceRefs := update w.deviceRefs k refs} where
  entries := books.entries
  cwd := books.cwd
  bootfs := books.bootfs
  opens := books.opens
  volumes l := by
    have eq : (fun i => w.total held' (.sfs l i)) = fun i => w.total held (.sfs l i) := by
      funext i
      unfold World.total
      rw [rest _ AnyVnode.noConfusion]
    change Shared (fun i => w.total held' (.sfs l i)) (w.volumes l)
    rw [eq]
    exact books.volumes l
  devices l listed := by
    change update w.deviceRefs k refs l = w.total held' (.device l)+1
    rcases eq_or_ne l k with rfl | ne
    · rw [update_self]
      exact counted listed
    rw [update_of_ne ne,books.devices l listed]
    unfold World.total
    rw [rest _ fun eq => ne (AnyVnode.device.inj eq)]

lemma carries_vopIncref (known : Known table vn) : Carries (Books table held opened) (vopIncref vn)
    (fun _ => Books table (more held vn) opened) J := by
  cases vn with
  | sfs k i =>
    refine carries_onVolume (vnodeIncref_tracks i) fun w books => ?_
    exact (ends_incref_shared (books.volumes k)).imp fun _ _ shared => books.take shared
  | emu k handle => exact known.elim
  | device k =>
    refine carries_acquire.bind fun _ => (carries_modify fun w books => ?_).bind fun _ => carries_release
    refine books.setDevice (fun listed => ?_) fun x other => more_of_ne other
    rw [books.devices k listed,World.total_more,more_self]

lemma carries_vopDecref (known : Known table vn) : Carries (Books table (more held vn) opened) (vopDecref vn)
    (fun _ => Books table held opened) J := by
  cases vn with
  | sfs k i =>
    refine carries_onVolume (vnodeDecref_tracks i) fun w books => ?_
    have shared := books.volumes k
    rw [World.total_file] at shared
    exact (ends_decref_shared shared).imp fun _ _ shared => books.give shared
  | emu k handle => exact known.elim
  | device k =>
    refine carries_acquire.bind fun _ => carries_get fun w books => ?_
    have count := books.devices k known
    rw [World.total_more,more_self] at count
    refine carries_kassert.bind fun _ => Carries.bind (Q := fun _ => Books table held opened) ?_ fun _ =>
      carries_release
    unfold dropDeviceReference
    rw [if_pos (by omega)]
    refine carries_modify fun v eq => ?_
    obtain ⟨_,rfl⟩ := eq
    exact books.setDevice (fun _ => by omega) fun x other => (more_of_ne other).symm

lemma Books.setOpens {opens : AnyVnode → Nat} (books : Books table held opened w) :
    Books table held opens {w with opencount := opens} :=
  ⟨books.entries,books.cwd,books.bootfs,rfl,books.volumes,books.devices⟩

lemma carries_vopIncopen : Carries (Books table held opened) (vopIncopen vn)
    (fun _ => Books table held (more opened vn)) J := by
  refine carries_acquire.bind fun _ => Carries.bind (Q := fun _ => Books table held (more opened vn)) ?_ fun _ =>
    carries_release
  intro w books
  have opens : update w.world.opencount vn (w.world.opencount vn+1) = more opened vn := by
    rw [books.opens]
    rfl
  exact opens ▸ books.setOpens

lemma carries_vopClose (known : Known table vn) : Leaves table held opened (vopClose vn) := by
  cases vn with
  | sfs k i => exact carries_leaves (runs_vnodeCheck (runs_vnodeCheck (sfsFsync_tracks i))) Steady.turns
  | emu k handle => exact known.elim
  | device k =>
    refine carries_vnodeCheck.bind fun _ => carries_get fun w books => ?_
    cases w.dClose k with
    | none => exact carries_pure fun _ eq => eq ▸ books
    | some errno => exact carries_fail fun _ eq => eq ▸ books

lemma carries_vopDecopen (known : Known table vn) : Carries (Books table held (more opened vn)) (vopDecopen vn)
    (fun _ => Books table held opened) J := by
  refine carries_acquire.bind fun _ => carries_get fun w books => carries_kassert.bind fun _ => ?_
  have opens : update w.opencount vn (w.opencount vn-1) = opened := by
    rw [books.opens,more_self,Nat.add_sub_cancel]
    unfold more
    rw [update_idem,update_eq_self]
  refine Carries.bind (Q := fun _ => Books table held opened) (carries_modify fun v eq => ?_) fun _ => ?_
  · obtain ⟨_,rfl⟩ := eq
    exact opens ▸ books.setOpens
  split
  · exact carries_release
  refine (carries_vopClose known).attempt.bind fun res => ?_
  cases res with
  | ok _ => exact carries_release
  | error errno => exact carries_release

-- A vnode is handed back with a reference for the caller.
structure Handed (table : List (KnownDev Nat FileSystem)) (held opened : AnyVnode → Nat) (vn : AnyVnode) (w : World) :
    Prop where
  known : Known table vn
  books : Books table (more held vn) opened w

abbrev Hands (table : List (KnownDev Nat FileSystem)) (held opened : AnyVnode → Nat) (m : LockedWorldOp AnyVnode) :
    Prop :=
  Carries (Books table held opened) m (Handed table held opened) (Books table held opened)

lemma Carries.handed {Q : α → World → Prop}
    (rest : Known table vn → Carries (Books table (more held vn) opened) m Q J) :
    Carries (Handed table held opened vn) m Q J := fun w handed => rest handed.known w handed.books

section
variable (known : Known table vn)
include known

lemma carries_vopLookup (path : List UInt8) : Hands table held opened (vopLookup path vn) := by
  cases vn with
  | sfs k i =>
    have takes := ((turns_lookup i path).asDir i).asDir i
    refine (carries_takes (dirOps_tracks i (sfsLookup_tracks i path)) takes).bind fun ino => ?_
    exact carries_pure fun _ books => ⟨trivial,books⟩
  | emu k handle => exact known.elim
  | device k =>
    refine carries_vnodeCheck.bind fun _ => ?_
    split
    · exact (carries_vopIncref known).bind fun _ => carries_pure fun _ books => ⟨known,books⟩
    · exact carries_fail fun _ books => books

lemma carries_vopLookparent (path : List UInt8) : Carries (Books table held opened)
    (vopLookparent path vn) (fun hit => Handed table held opened hit.1) (Books table held opened) := by
  cases vn with
  | sfs k i =>
    have takes := ((turns_lookparent i path).asDir i).asDir i
    refine (carries_takes (g := fun _ => i) (dirOps_tracks i (sfsLookparent_tracks i path)) takes).bind fun _ => ?_
    exact carries_pure fun _ books => ⟨trivial,books⟩
  | emu k handle => exact known.elim
  | device k => exact carries_vnodeCheck.bind fun _ => carries_fail fun _ books => books

lemma carries_vopCreat (name : List UInt8) (excl : Bool) : Hands table held opened (vopCreat name excl vn) := by
  cases vn with
  | sfs k i =>
    have takes := (turns_creat i name excl).asDir i
    refine (carries_takes (dirOps_tracks i (sfsCreat_tracks i name excl)) takes).bind fun ino => ?_
    exact carries_pure fun _ books => ⟨trivial,books⟩
  | emu k handle => exact known.elim
  | device k => exact carries_vnodeCheck.bind fun _ => carries_fail fun _ books => books

lemma carries_vopOpen (openflags : BitVec 32) : Leaves table held opened (vopOpen openflags vn) := by
  cases vn with
  | sfs k i =>
    have opens : Steady id (Vfs.sfsOpen openflags) := by
      unfold Vfs.sfsOpen
      infer_instance
    have opensDir : Steady id (Vfs.sfsOpendir openflags) := by
      unfold Vfs.sfsOpendir
      infer_instance
    exact carries_leaves (runs_vnodeCheck (runs_sure.bind fun v => runs_free _)) Steady.turns
  | emu k handle => exact known.elim
  | device k =>
    refine carries_vnodeCheck.bind fun _ => carries_free fun w books => ends_bind_get ?_
    split
    · exact books
    cases w.dOpen k openflags with
    | none => exact books
    | some errno => exact books

lemma carries_vopTruncateAny (len : Nat) : Leaves table held opened (vopTruncateAny len vn) := by
  cases vn with
  | sfs k i => exact carries_leaves (fileOps_tracks i (sfsTruncate_tracks i len)) Steady.turns
  | emu k handle => exact known.elim
  | device k => exact carries_vnodeCheck.bind fun _ => carries_fail fun _ books => books

lemma carries_isDir : Leaves table held opened (isDir vn) := by
  cases vn with
  | sfs k i => exact carries_leaves (runs_vnodeCheck (sfsGettype_tracks i)) Steady.turns
  | emu k handle => exact known.elim
  | device k => exact carries_vnodeCheck.bind fun _ => carries_pure fun _ books => books

lemma carries_vopRemove (name : List UInt8) : Leaves table held opened (vopRemove name vn) := by
  cases vn with
  | sfs k i => exact carries_leaves (dirOps_tracks i (sfsRemove_tracks i name)) ((turns_remove i name).asDir i)
  | emu k handle => exact known.elim
  | device k => exact carries_vnodeCheck.bind fun _ => carries_fail fun _ books => books

lemma carries_vopRename (n1 n2 : List UInt8) (d2 : AnyVnode) : Leaves table held opened (vopRename n1 n2 vn d2) := by
  cases vn with
  | sfs k i =>
    have tracks := dirOps_tracks i ((runs_sure (n := kassert (d2 == .sfs k i))).bind fun _ => sfsRename_tracks i n1 n2)
    refine carries_leaves tracks (Turns.asDir (fun held s shared => ?_) i)
    exact unless_kassert (fun _ => trivial) fun _ => turns_rename i n1 n2 held s shared
  | emu k handle => exact known.elim
  | device k => exact carries_vnodeCheck.bind fun _ => carries_fail fun _ books => books

lemma carries_vopLink (name : List UInt8) (file : AnyVnode) : Leaves table held opened (vopLink name vn file) := by
  cases vn with
  | sfs k i =>
    have stops : Leaves table held opened (onVolume k (dirOps i panics) : LockedWorldOp PUnit) :=
      carries_leaves (dirOps_tracks i (n := panics) runs_stop) (Steady.turns.asDir i)
    cases file with
    | sfs l f =>
      have tracks := dirOps_tracks i ((runs_sure (n := kassert (k == l))).bind fun _ => sfsLink_tracks i name f)
      exact carries_leaves tracks (Steady.turns.asDir i)
    | emu l handle => exact stops
    | device l => exact stops
  | emu k handle => exact known.elim
  | device k =>
    have refuses : Leaves table held opened (do
        vnodeCheck
        fail .enotdir : LockedWorldOp PUnit) :=
      carries_vnodeCheck.bind fun _ => carries_fail fun _ books => books
    cases file with
    | sfs l f => exact refuses
    | emu l handle => exact refuses
    | device l => exact refuses

end

def Plain (table : List (KnownDev Nat FileSystem)) : Prop := ∀ kd ∈ table, ∀ k, kd.kdFs ≠ some (.emu k)

lemma carries_getroot (k : Nat) :
    Carries (Books table held opened) (getroot (.sfs k)) (Handed table held opened) J := by
  refine Carries.bind (Q := fun ino => Books table (more held (.sfs k ino)) opened) ?_ fun ino =>
    carries_pure fun _ books => ⟨trivial,books⟩
  exact carries_onVolume sfsGetroot_tracks fun _ books => (ends_getroot_shared (books.volumes k)).imp
    (fun _ _ shared => books.take shared)

lemma carries_getvolname {I : World → Prop} (fs : Option FileSystem) : Carries I (getvolname fs) (fun _ => I) J := by
  unfold getvolname
  split
  · exact carries_vnodeCheck
  · exact carries_pure fun _ holds => holds

def Gives (kd : KnownDev Nat FileSystem) : DeviceTable.Found Nat FileSystem → Prop
  | .root fs => kd.kdFs = some fs
  | .device k => kd.kdDevice = some k
  | _ => True

lemma deviceOf_gives (kd : KnownDev Nat FileSystem) : Gives kd (deviceOf kd) := by
  unfold deviceOf
  cases hit : kd.kdDevice with
  | none => trivial
  | some k => exact hit

lemma getrootOf_gives {volname : FileSystem → Option (List UInt8)}
    (matched : getrootOf volname devname kd = some found) : Gives kd found := by
  have device := deviceOf_gives kd
  unfold getrootOf at matched
  cases mounted : kd.kdFs with
  | some fs =>
    simp only [mounted] at matched
    split at matched
    · cases matched
      exact mounted
    split at matched
    · cases matched
      exact device
    · cases matched
  | none =>
    simp only [mounted] at matched
    split at matched
    · cases matched
      trivial
    split at matched
    · cases matched
      exact device
    split at matched
    · cases matched
      exact device
    · cases matched

lemma carries_rootLoop (plain : Plain table) (devname : List UInt8) (entries : List (KnownDev Nat FileSystem))
    (inside : ∀ kd ∈ entries, kd ∈ table) : Hands table held opened (rootLoop devname entries) := by
  induction entries with
  | nil => exact carries_fail fun _ books => books
  | cons kd rest ih =>
    have mem := inside kd List.mem_cons_self
    refine (carries_getvolname _).bind fun _ => carries_get fun w books => ?_
    have later : Carries (· = w) (rootLoop devname rest) (Handed table held opened) (Books table held opened) :=
      fun v eq => ih (fun ne inner => inside ne (List.mem_cons_of_mem kd inner)) v (eq ▸ books)
    cases matched : getrootOf w.volnameOf devname kd with
    | none => exact later
    | some hit =>
      have gives := getrootOf_gives matched
      cases hit with
      | root fs =>
        cases fs with
        | sfs k => exact fun v eq => carries_getroot k v (eq ▸ books)
        | emu k => exact (plain kd mem k gives).elim
      | device k =>
        have listed : Known table (.device k) := ⟨kd,mem,gives⟩
        refine Carries.bind (fun v eq => carries_vopIncref listed v (eq ▸ books)) fun _ => ?_
        exact carries_pure fun _ books => ⟨listed,books⟩
      | error errno => exact carries_fail fun _ eq => eq ▸ books
      | panic => exact carries_panics

lemma carries_vfsGetroot (plain : Plain table) (devname : List UInt8) :
    Hands table held opened (vfsGetroot devname) := by
  refine carries_doIHold.bind fun _ => carries_get fun w books v eq => ?_
  refine carries_rootLoop plain devname w.table (fun kd mem => ?_) v (eq ▸ books)
  rw [←books.entries]
  exact mem

lemma carries_vfsGetcurdir : Hands table held opened vfsGetcurdir := by
  refine carries_get fun w books => ?_
  cases at_ : w.cwd with
  | none => exact carries_fail fun _ eq => eq ▸ books
  | some vn =>
    have known := books.cwd vn at_
    refine Carries.bind (fun v eq => carries_vopIncref known v (eq ▸ books)) fun _ => ?_
    exact carries_pure fun _ books => ⟨known,books⟩

lemma carries_dropFor {β : Type} {g : β → AnyVnode} (known : Known table vn) (res : Except Errno β) :
    Carries (Either (fun a => Handed table (more held vn) opened (g a)) (Books table (more held vn) opened) res)
      (vopDecref vn) (fun _ => Either (fun a => Handed table held opened (g a)) (Books table held opened) res) J := by
  cases res with
  | error errno => exact carries_vopDecref known
  | ok a =>
    refine Carries.handed fun hit w books => ?_
    rw [more_comm] at books
    exact (carries_vopDecref known w books).imp fun _ _ books => ⟨hit,books⟩

lemma carries_dropAfter {β : Type} (known : Known table vn) (res : Except Errno β) :
    Carries (Either (fun _ => Books table (more held vn) opened) (Books table (more held vn) opened) res)
      (vopDecref vn) (fun _ => Either (fun _ => Books table held opened) (Books table held opened) res) J := by
  cases res with
  | ok a => exact carries_vopDecref known
  | error errno => exact carries_vopDecref known

section
variable (plain : Plain table)
include plain

lemma carries_startVnode (start : Vfs.Start) : Hands table held opened (startVnode start) := by
  cases start with
  | curdir => exact carries_vfsGetcurdir
  | device devname => exact carries_vfsGetroot plain devname
  | bootfs =>
    refine carries_get fun w books => ?_
    cases at_ : w.bootfs with
    | none => exact carries_fail fun _ eq => eq ▸ books
    | some vn =>
      have known := books.bootfs vn at_
      refine Carries.bind (fun v eq => carries_vopIncref known v (eq ▸ books)) fun _ => ?_
      exact carries_pure fun _ books => ⟨known,books⟩
  | curfs =>
    refine carries_vfsGetcurdir.bind fun vn => Carries.handed fun known => ?_
    have roots : Carries (Books table (more held vn) opened) (fsRoot vn) (Handed table (more held vn) opened)
        (Books table held opened) := by
      cases vn with
      | sfs k i => exact carries_getroot k
      | emu k handle => exact known.elim
      | device k => exact carries_panics
    refine roots.bind fun root => (carries_dropFor (g := fun x => x) known (.ok root)).bind fun _ => ?_
    exact carries_pure fun _ handed => handed

section
variable (path : List UInt8)
include path

lemma carries_getdevice : Carries (Books table held opened)
    (getdevice path) (fun hit => Handed table held opened hit.1) (Books table held opened) := by
  refine carries_doIHold.bind fun _ => (carries_startVnode plain _).bind fun startvn => ?_
  exact carries_pure fun _ handed => handed

lemma carries_vfsLookparent : Carries (Books table held opened)
    (vfsLookparent path) (fun hit => Handed table held opened hit.1) (Books table held opened) := by
  refine carries_acquire.bind fun _ => (carries_getdevice plain path).checked.bind fun hit => ?_
  obtain ⟨startvn,subpath⟩ := hit
  refine Carries.handed fun known => ?_
  have looks : Carries (Books table (more held startvn) opened)
      (if subpath = [] then fail .einval else vopLookparent subpath startvn)
      (fun hit => Handed table (more held startvn) opened hit.1) (Books table (more held startvn) opened) := by
    split
    · exact carries_fail fun _ books => books
    · exact carries_vopLookparent known subpath
  refine looks.attempt.bind fun res => (carries_dropFor known res).bind fun _ => carries_release.bind fun _ => ?_
  exact carries_giveBack res

lemma carries_vfsLookup : Hands table held opened (vfsLookup path) := by
  refine carries_acquire.bind fun _ => (carries_getdevice plain path).checked.bind fun hit => ?_
  obtain ⟨startvn,subpath⟩ := hit
  dsimp only
  split
  · exact carries_release.bind fun _ => carries_pure fun _ handed => handed
  refine Carries.handed fun known => (carries_vopLookup known subpath).attempt.bind fun res => ?_
  refine (carries_dropFor (g := fun x => x) known res).bind fun _ => carries_release.bind fun _ => ?_
  exact carries_giveBack res

lemma carries_findOpen (openflags : BitVec 32) : Hands table held opened (findOpen path openflags) := by
  unfold findOpen
  split
  · refine (carries_vfsLookparent plain path).bind fun hit => ?_
    obtain ⟨dir,name⟩ := hit
    refine Carries.handed fun known => (carries_vopCreat known name _).attempt.bind fun res => ?_
    exact (carries_dropFor (g := fun x => x) known res).bind fun _ => carries_giveBack res
  · exact carries_vfsLookup plain path

end

end

lemma carries_vfsClose (known : Known table vn) : Carries (Books table (more held vn) (more opened vn)) (vfsClose vn)
    (fun _ => Books table held opened) J :=
  (carries_vopDecopen known).bind fun _ => carries_vopDecref known

lemma carries_openTruncate (known : Known table vn) (openflags : BitVec 32) (canwrite : Bool) :
    Carries (Books table (more held vn) (more opened vn)) (openTruncate openflags canwrite vn)
      (fun _ => Books table (more held vn) (more opened vn)) (Books table held opened) := by
  refine carries_perform ?_ _
  have truncates : Carries (Books table (more held vn) (more opened vn))
      (if canwrite then vopTruncateAny 0 vn else fail .einval)
      (fun _ => Books table (more held vn) (more opened vn)) (Books table (more held vn) (more opened vn)) := by
    split
    · exact carries_vopTruncateAny known 0
    · exact carries_fail fun _ books => books
  refine truncates.attempt.bind fun res => ?_
  cases res with
  | ok _ => exact carries_pure fun _ books => books
  | error errno =>
    refine (carries_vopDecopen known).bind fun _ => (carries_vopDecref known).bind fun _ => ?_
    exact carries_fail fun _ books => books

-- A file that has been opened.
structure Opened (table : List (KnownDev Nat FileSystem)) (held opened : AnyVnode → Nat) (vn : AnyVnode) (w : World) :
    Prop where
  known : Known table vn
  books : Books table (more held vn) (more opened vn) w

lemma carries_vfsOpen (plain : Plain table) (path : List UInt8) (openflags : BitVec 32) :
    Carries (Books table held opened) (vfsOpen path openflags) (Opened table held opened)
      (Books table held opened) := by
  have opens : ∀ canwrite, Carries (Books table held opened) (openWith path openflags canwrite)
      (Opened table held opened) (Books table held opened) := by
    intro canwrite
    refine (carries_findOpen plain path openflags).bind fun vn => Carries.handed fun known => ?_
    refine (carries_vopOpen known openflags).attempt.bind fun res => ?_
    cases res with
    | error errno => exact (carries_vopDecref known).bind fun _ => carries_fail fun _ books => books
    | ok _ =>
      refine carries_vopIncopen.bind fun _ => (carries_openTruncate known openflags canwrite).bind fun _ => ?_
      exact carries_pure fun _ books => ⟨known,books⟩
  unfold vfsOpen
  split
  · exact opens false
  split
  · exact opens true
  · exact carries_fail fun _ books => books

lemma carries_vfsRemove (plain : Plain table) (path : List UInt8) : Leaves table held opened (vfsRemove path) := by
  refine (carries_vfsLookparent plain path).bind fun hit => ?_
  obtain ⟨dir,name⟩ := hit
  refine Carries.handed fun known => (carries_vopRemove known name).attempt.bind fun res => ?_
  exact (carries_dropAfter known res).bind fun _ => carries_giveBack res

lemma carries_pair (first : Known table one) (two : Known table other) (works : ∀ {held}, Leaves table held opened m)
    (may : Bool) (errno : Errno) :
    Carries (Books table (more (more held one) other) opened) (do
      let res ← attempt (if may then m else fail errno)
      vopDecref other
      vopDecref one
      giveBack res) (fun _ => Books table held opened) (Books table held opened) := by
  have tries : Carries (Books table (more (more held one) other) opened) (if may then m else fail errno)
      (fun _ => Books table (more (more held one) other) opened) (Books table (more (more held one) other) opened) := by
    split
    · exact works
    · exact carries_fail fun _ books => books
  refine tries.attempt.bind fun res => (carries_dropAfter two res).bind fun _ => ?_
  exact (carries_dropAfter first res).bind fun _ => carries_giveBack res

lemma carries_vfsRename (plain : Plain table) (oldpath newpath : List UInt8) :
    Leaves table held opened (vfsRename oldpath newpath) := by
  refine (carries_vfsLookparent plain oldpath).bind fun hit => ?_
  obtain ⟨olddir,oldname⟩ := hit
  refine Carries.handed fun one => (carries_vfsLookparent plain newpath).attempt.bind fun hit => ?_
  cases hit with
  | error errno => exact (carries_vopDecref one).bind fun _ => carries_fail fun _ books => books
  | ok hit =>
    obtain ⟨newdir,newname⟩ := hit
    exact Carries.handed fun two => carries_pair one two (carries_vopRename one oldname newname newdir) _ _

lemma carries_vfsLink (plain : Plain table) (oldpath newpath : List UInt8) :
    Leaves table held opened (vfsLink oldpath newpath) := by
  refine (carries_vfsLookup plain oldpath).bind fun oldfile => Carries.handed fun one => ?_
  refine (carries_vfsLookparent plain newpath).attempt.bind fun hit => ?_
  cases hit with
  | error errno => exact (carries_vopDecref one).bind fun _ => carries_fail fun _ books => books
  | ok hit =>
    obtain ⟨newdir,newname⟩ := hit
    exact Carries.handed fun two => carries_pair one two (carries_vopLink two newname oldfile) _ _

def plus (held : AnyVnode → Nat) : Option AnyVnode → AnyVnode → Nat
  | none => held
  | some vn => more held vn

lemma plus_apply (held : AnyVnode → Nat) (holder : Option AnyVnode) (x : AnyVnode) :
    plus held holder x = held x+own holder x := by
  cases holder with
  | none => rfl
  | some vn =>
    change more held vn x = held x+own (some vn) x
    rw [more_apply,own]
    simp only [Option.some.injEq,@eq_comm _ x vn]

lemma Books.setCwd (books : Books table (more held vn) opened w) (known : Known table vn) :
    Books table (plus held w.cwd) opened {w with cwd := some vn} := by
  have total : ({w with cwd := some vn} : World).total (plus held w.cwd) = w.total (more held vn) := by
    funext x
    have did := plus_apply held (some vn) x
    have kept := plus_apply held w.cwd x
    change plus held w.cwd x+own (some vn) x+own w.bootfs x = plus held (some vn) x+own w.cwd x+own w.bootfs x
    omega
  refine ⟨books.entries,fun x eq => ?_,books.bootfs,books.opens,fun k => ?_,fun k listed => ?_⟩
  · cases eq
    exact known
  · rw [total]
    exact books.volumes k
  rw [total]
  exact books.devices k listed

lemma Books.setBootfs (books : Books table (more held vn) opened w) (known : Known table vn) :
    Books table (plus held w.bootfs) opened {w with bootfs := some vn} := by
  have total : ({w with bootfs := some vn} : World).total (plus held w.bootfs) = w.total (more held vn) := by
    funext x
    have did := plus_apply held (some vn) x
    have kept := plus_apply held w.bootfs x
    change plus held w.bootfs x+own w.cwd x+own (some vn) x = plus held (some vn) x+own w.cwd x+own w.bootfs x
    omega
  refine ⟨books.entries,books.cwd,fun x eq => ?_,books.opens,fun k => ?_,fun k listed => ?_⟩
  · cases eq
    exact known
  · rw [total]
    exact books.volumes k
  rw [total]
  exact books.devices k listed

lemma carries_dropOld (known : ∀ vn, old = some vn → Known table vn) :
    Carries (Books table (plus held old) opened) (dropOld old) (fun _ => Books table held opened) J := by
  cases old with
  | none => exact carries_pure fun _ books => books
  | some vn => exact carries_vopDecref (known vn rfl)

lemma carries_vfsSetcurdir (known : Known table vn) : Leaves table held opened (vfsSetcurdir vn) := by
  refine (carries_isDir known).bind fun type => ?_
  cases type with
  | false => exact carries_fail fun _ books => books
  | true =>
    refine (carries_vopIncref known).bind fun _ => carries_get fun w books => ?_
    refine Carries.bind (Q := fun _ => Books table (plus held w.cwd) opened) (carries_modify fun v eq => ?_) fun _ => ?_
    · exact eq ▸ books.setCwd known
    · exact carries_dropOld books.cwd

lemma carries_vfsChdir (plain : Plain table) (path : List UInt8) : Leaves table held opened (vfsChdir path) := by
  refine (carries_vfsLookup plain path).bind fun vn => Carries.handed fun known => ?_
  refine (carries_vfsSetcurdir known).attempt.bind fun res => ?_
  exact (carries_dropAfter known res).bind fun _ => carries_giveBack res

lemma carries_changeBootfs (known : Known table vn) : Carries (Books table (more held vn) opened) (changeBootfs vn)
    (fun _ => Books table held opened) J := by
  refine carries_get fun w books => ?_
  refine Carries.bind (Q := fun _ => Books table (plus held w.bootfs) opened) (carries_modify fun v eq => ?_)
    fun _ => ?_
  · exact eq ▸ books.setBootfs known
  · exact carries_dropOld books.bootfs

lemma carries_vfsSetbootfs (plain : Plain table) (fsname : List UInt8) :
    Leaves table held opened (vfsSetbootfs fsname) := by
  refine carries_acquire.bind fun _ => ?_
  split
  · exact carries_release.bind fun _ => carries_fail fun _ books => books
  refine (carries_vfsChdir plain _).checked.bind fun _ => carries_vfsGetcurdir.checked.bind fun newguy => ?_
  exact Carries.handed fun known => (carries_changeBootfs known).bind fun _ => carries_release

def AllKnown (table : List (KnownDev Nat FileSystem)) (proc : Proc) : Prop :=
  (∀ vn, proc.cwd = some vn → Known table vn) ∧ ∀ vn, proc.console = some vn → Known table vn

structure Started (table : List (KnownDev Nat FileSystem)) (held opened : AnyVnode → Nat) (proc : Proc) (w : World) :
    Prop where
  known : AllKnown table proc
  books : Books table (plus (plus held proc.console) proc.cwd) (plus opened proc.console) w

def Perhaps (table : List (KnownDev Nat FileSystem)) (held opened : AnyVnode → Nat) : Option Proc → World → Prop
  | none => Books table held opened
  | some proc => Started table held opened proc

lemma ends_kmallocGrants (books : Books table held opened w) :
    Ends (kmallocGrants w) (fun _ t => Books table held opened t) (Vfs.Partly J) :=
  ⟨books.entries,books.cwd,books.bootfs,books.opens,books.volumes,books.devices⟩

lemma ends_kmallocs (n : Nat) (books : Books table held opened w) :
    Ends (kmallocs n w) (fun _ t => Books table held opened t) (Vfs.Partly J) := by
  induction n generalizing w with
  | zero => exact books
  | succ n ih =>
    refine ends_bind (ends_kmallocGrants books) fun got t books => ?_
    cases got with
    | true => exact ih books
    | false => exact books

lemma carries_inheritCwd : Carries (Books table held opened) inheritCwd
    (fun cwd w => (∀ vn, cwd = some vn → Known table vn) ∧ Books table (plus held cwd) opened w) J := by
  refine carries_get fun w books => ?_
  cases at_ : w.cwd with
  | none => exact carries_pure fun _ eq => ⟨fun _ never => (by cases never),eq ▸ books⟩
  | some vn =>
    have known := books.cwd vn at_
    refine Carries.bind (fun v eq => carries_vopIncref known v (eq ▸ books)) fun _ => ?_
    refine carries_pure fun _ books => ⟨fun x eq => ?_,books⟩
    cases eq
    exact known

lemma carries_procCreateRunprogram (plain : Plain table) : Carries (Books table held opened) procCreateRunprogram
    (Perhaps table held opened) J := by
  refine (carries_free fun w books => ends_kmallocs 5 books).bind fun got => ?_
  cases got with
  | false => exact carries_pure fun _ books => books
  | true =>
    refine (carries_free fun w books => ends_kmallocGrants books).bind fun copied => carries_kassert.bind fun _ => ?_
    refine Carries.bind (Carries.attempt fun w books => carries_vfsOpen plain conPath Vfs.oWronly w books.2)
      fun res => ?_
    cases res with
    | error errno => exact carries_panics
    | ok console =>
      refine fun w open_ => ends_bind (carries_inheritCwd w open_.books) fun cwd t inherited => ?_
      refine ends_pure ⟨⟨inherited.1,fun vn eq => ?_⟩,inherited.2⟩
      cases eq
      exact open_.known

lemma carries_procDestroy (known : AllKnown table proc) :
    Carries (Books table (plus (plus held proc.console) proc.cwd) (plus opened proc.console)) (procDestroy proc)
      (fun _ => Books table held opened) J := by
  refine (carries_dropOld known.1).bind fun _ => ?_
  cases hit : proc.console with
  | none => exact carries_pure fun _ books => books
  | some vn => exact carries_vfsClose (known.2 vn hit)
end ToyOS.BigLock

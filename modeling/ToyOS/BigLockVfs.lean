import ToyOS.BigLock
import ToyOS.DeviceTable

namespace ToyOS.BigLock
open Nesting Outcome Sfs UserSpace DeviceTable

-- What kd_fs can be: the SFS volume on a device, or an emulator file system.
inductive FileSystem where
  | sfs (k : Nat)
  | emu (k : Nat)

-- The inode of a volume, the handle of an emulator file, or a device.
inductive AnyVnode where
  | sfs (k i : Nat)
  | emu (k handle : Nat)
  | device (k : Nat)
  deriving DecidableEq

-- struct emufs_vnode
structure EmuVnode where
  handle : Nat
  isdir : Bool
  refcount : Nat

-- REG_RESULT, REG_HANDLE and REG_IOLEN when an operation of the emulator is done.
structure EmuAnswer where
  code : Nat
  handle : Nat
  iolen : Nat

-- The VFS layer over volumes, emulators and devices. `answers n` is the emulator's answer to the operation `n`, `memory
-- n` says whether kmalloc serves the request `n`. `elocks` are the emulators' locks that the thread holds. `refused`
-- counts the emulator vnodes without memory; nothing reads it.
structure World where
  volumes : Nat → State
  volname : Nat → List UInt8
  dBlocksize : Nat → Nat
  emus : Nat → List EmuVnode
  elocks : Nat → Bool
  answers : Nat → EmuAnswer
  ops : Nat
  memory : Nat → Bool
  mallocs : Nat
  refused : Nat
  table : List (KnownDev Nat FileSystem)
  deviceRefs : Nat → Nat
  opencount : AnyVnode → Nat
  dOpen : Nat → BitVec 32 → Option Errno
  dClose : Nat → Option Errno
  cwd : Option AnyVnode
  bootfs : Option AnyVnode

abbrev WorldOp := EStateM Fault World
abbrev LockedWorldOp := EStateM Fault (Locked Lock World)

def onVolume {α : Type} (k : Nat) (m : LockedOp α) : LockedWorldOp α :=
  within (fun w => w.volumes k) (fun w s => {w with volumes := Function.update w.volumes k s}) m

def emuMaxio : Nat := 16384
def emuRoothandle : Nat := 0

def translateErr (code : Nat) : WorldOp PUnit :=
  match code with
  | 1 => pure ⟨⟩
  | 2 => panics
  | 3 => panics
  | 4 => fail .enoent
  | 5 => panics
  | 6 => fail .eexist
  | 7 => fail .eisdir
  | 8 => fail .eio
  | 9 => fail .enfile
  | 10 => fail .enospc
  | 11 => fail .enotdir
  | 12 => fail .eio
  | 13 => fail .eunimp
  | _ => fail .eagain

def emuWaitdone : WorldOp EmuAnswer := do
  let w ← get
  set {w with ops := w.ops+1}
  translateErr (w.answers w.ops).code
  pure (w.answers w.ops)

def setElock (k : Nat) (mine : Bool) : WorldOp PUnit := do
  let w ← get
  kassert (w.elocks k != mine)
  set {w with elocks := Function.update w.elocks k mine}

def elockAcquire (k : Nat) : WorldOp PUnit := setElock k true
def elockRelease (k : Nat) : WorldOp PUnit := setElock k false

def emuOpen (k : Nat) (name : List UInt8) : WorldOp (Nat × Bool) :=
  if emuMaxio < name.length+1 then fail .enametoolong
  else do
    elockAcquire k
    let result ← attempt emuWaitdone
    elockRelease k
    let answer ← giveBack result
    pure (answer.handle,0 < answer.iolen)

def closeLoop : Nat → WorldOp PUnit
  | 0 => do
    let _ ← emuWaitdone
    pure ⟨⟩
  | n+1 => do
    let result ← attempt emuWaitdone
    match result with
    | .ok _ => pure ⟨⟩
    | .error errno => if errno = .eio then closeLoop n else fail errno

def emuClose (k : Nat) : WorldOp PUnit := do
  let w ← get
  perform (!w.elocks k) (elockAcquire k)
  let result ← attempt (closeLoop 10)
  perform (!w.elocks k) (elockRelease k)
  giveBack result

def emuTrunc (k : Nat) : WorldOp PUnit := do
  elockAcquire k
  let result ← attempt emuWaitdone
  elockRelease k
  let _ ← giveBack result
  pure ⟨⟩

def World.emuVnode (w : World) (k handle : Nat) : Option EmuVnode := (w.emus k).find? fun ev => ev.handle == handle

def emuVnodeOf (k handle : Nat) : WorldOp EmuVnode := do
  let w ← get
  match w.emuVnode k handle with
  | some ev => pure ev
  | none => panics

def setEmuRefcount (k handle refcount : Nat) : WorldOp PUnit := modify fun w =>
  {w with emus := Function.update w.emus k ((w.emus k).map fun ev =>
    if ev.handle = handle then {ev with refcount} else ev)}

def emuIncref (k handle : Nat) : LockedWorldOp PUnit := underLock do
  let ev ← emuVnodeOf k handle
  setEmuRefcount k handle (ev.refcount+1)

def kmallocGrants : WorldOp Bool := do
  let w ← get
  set {w with mallocs := w.mallocs+1}
  pure (w.memory w.mallocs)

def addVnode (k handle : Nat) (isdir : Bool) : LockedWorldOp Nat := do
  let granted ← free kmallocGrants
  if granted then do
    free (modify fun w => {w with emus := Function.update w.emus k (w.emus k++[⟨handle,isdir,1⟩])})
    free (elockRelease k)
    vfsBiglockRelease
    pure handle
  else do
    free (elockRelease k)
    vfsBiglockRelease
    fail .enomem

def newVnode (k handle : Nat) (isdir granted : Bool) : LockedWorldOp Nat :=
  if granted then addVnode k handle isdir
  else do
    -- The source releases only the lock of the emulator.
    free (elockRelease k)
    free (modify fun w => {w with refused := w.refused+1})
    fail .enomem

def loadHandle (k handle : Nat) (isdir : Bool) : Option EmuVnode → LockedWorldOp Nat
  | some _ => do
    emuIncref k handle
    free (elockRelease k)
    vfsBiglockRelease
    pure handle
  | none => do
    let granted ← free kmallocGrants
    newVnode k handle isdir granted

def emufsLoadvnode (k handle : Nat) (isdir : Bool) : LockedWorldOp Nat := do
  vfsBiglockAcquire
  free (elockAcquire k)
  let w ← free get
  loadHandle k handle isdir (w.emuVnode k handle)

def emufsReclaim (k handle : Nat) : LockedWorldOp PUnit := do
  vfsBiglockAcquire
  free (elockAcquire k)
  let ev ← free (emuVnodeOf k handle)
  if ev.refcount ≠ 1 then do
    free (elockRelease k)
    vfsBiglockRelease
    fail .ebusy
  else do
    let result ← attempt (free (emuClose k))
    match result with
    | .error errno => do
      free (elockRelease k)
      vfsBiglockRelease
      fail errno
    | .ok _ => do
      let w ← free get
      free (kassert (w.opencount (.emu k handle) == 0))
      free (modify fun w => {w with
        emus := Function.update w.emus k ((w.emus k).filter fun ev => ev.handle != handle)})
      free (elockRelease k)
      vfsBiglockRelease

def emufsOpenHandle (k : Nat) (name : List UInt8) : LockedWorldOp AnyVnode := do
  let (handle,isdir) ← free (emuOpen k name)
  let result ← attempt (emufsLoadvnode k handle isdir)
  match result with
  | .ok newguy => pure (.emu k newguy)
  | .error errno => do
    let _ ← attempt (free (emuClose k))
    fail errno

def emufsLookup (k : Nat) (pathname : List UInt8) : LockedWorldOp AnyVnode := emufsOpenHandle k pathname
def emufsCreat (k : Nat) (name : List UInt8) : LockedWorldOp AnyVnode := emufsOpenHandle k name
def lastComponent (pathname : List UInt8) : List UInt8 := (pathname.reverse.takeWhile (· != Vfs.slash)).reverse

def emufsLookparent (k handle : Nat) (pathname : List UInt8) : LockedWorldOp (AnyVnode × List UInt8) :=
  if Vfs.nameMax+1 < (lastComponent pathname).length+1 then fail .enametoolong
  else if Vfs.slash ∈ pathname then do
    let dir ← emufsLookup k (pathname.take (pathname.length-(lastComponent pathname).length-1))
    pure (dir,lastComponent pathname)
  else do
    emuIncref k handle
    pure (.emu k handle,pathname)

def emufsOpen (openflags : BitVec 32) : WorldOp PUnit :=
  if Vfs.has openflags Vfs.oAppend then fail .eunimp else pure ⟨⟩

def emufsOpendir (openflags : BitVec 32) : WorldOp PUnit :=
  if openflags &&& Vfs.oAccmode ≠ Vfs.oRdonly then fail .eisdir
  else if Vfs.has openflags Vfs.oAppend then fail .eisdir
  else pure ⟨⟩

def emuDirOps {α : Type} (k handle : Nat) (m : LockedWorldOp α) : LockedWorldOp α := do
  vnodeCheck
  let ev ← free (emuVnodeOf k handle)
  if ev.isdir then m else fail .enotdir

def vopIncref : AnyVnode → LockedWorldOp PUnit
  | .sfs k i => onVolume k (vnodeIncref i)
  | .emu k handle => emuIncref k handle
  | .device k => underLock (modify fun w => {w with deviceRefs := Function.update w.deviceRefs k (w.deviceRefs k+1)})

def dropEmuReference (k handle : Nat) (ev : EmuVnode) : LockedWorldOp PUnit :=
  if 1 < ev.refcount then free (setEmuRefcount k handle (ev.refcount-1))
  else do
    vnodeCheck
    let _ ← attempt (emufsReclaim k handle)
    pure ⟨⟩

def dropDeviceReference (k refs : Nat) : LockedWorldOp PUnit :=
  if 1 < refs then free (modify fun w => {w with deviceRefs := Function.update w.deviceRefs k (refs-1)})
  else vnodeCheck

def vopDecref : AnyVnode → LockedWorldOp PUnit
  | .sfs k i => onVolume k (vnodeDecref i)
  | .emu k handle => do
    vfsBiglockAcquire
    let ev ← free (emuVnodeOf k handle)
    free (kassert (0 < ev.refcount))
    dropEmuReference k handle ev
    vfsBiglockRelease
  | .device k => do
    vfsBiglockAcquire
    let w ← free get
    free (kassert (0 < w.deviceRefs k))
    dropDeviceReference k (w.deviceRefs k)
    vfsBiglockRelease

def setOpencount (vn : AnyVnode) (count : Nat) : WorldOp PUnit :=
  modify fun w => {w with opencount := Function.update w.opencount vn count}

def vopIncopen (vn : AnyVnode) : LockedWorldOp PUnit := underLock do
  let w ← get
  setOpencount vn (w.opencount vn+1)

def vopClose : AnyVnode → LockedWorldOp PUnit
  | .sfs k i => onVolume k do
    vnodeCheck
    vnodeCheck
    sfsFsync i
  | .emu _ _ => vnodeCheck
  | .device k => do
    vnodeCheck
    let w ← free get
    match w.dClose k with
    | none => pure ⟨⟩
    | some errno => fail errno

def vopDecopen (vn : AnyVnode) : LockedWorldOp PUnit := do
  vfsBiglockAcquire
  let w ← free get
  free (kassert (0 < w.opencount vn))
  free (setOpencount vn (w.opencount vn-1))
  if 0 < w.opencount vn-1 then vfsBiglockRelease
  else do
    let _ ← attempt (vopClose vn)
    vfsBiglockRelease

def vopLookup (path : List UInt8) : AnyVnode → LockedWorldOp AnyVnode
  | .sfs k i => do
    let ino ← onVolume k (dirOps i (sfsLookup i path))
    pure (.sfs k ino)
  | .emu k handle => emuDirOps k handle (emufsLookup k path)
  | .device k => do
    vnodeCheck
    if path = [] then do
      vopIncref (.device k)
      pure (.device k)
    else fail .enoent

def vopLookparent (path : List UInt8) : AnyVnode → LockedWorldOp (AnyVnode × List UInt8)
  | .sfs k i => do
    onVolume k (dirOps i (sfsLookparent i path))
    pure (.sfs k i,path)
  | .emu k handle => emuDirOps k handle (emufsLookparent k handle path)
  | .device _ => do
    vnodeCheck
    fail .enotdir

def vopCreat (name : List UInt8) (excl : Bool) : AnyVnode → LockedWorldOp AnyVnode
  | .sfs k i => do
    let ino ← onVolume k (dirOps i (sfsCreat i name excl))
    pure (.sfs k ino)
  | .emu k handle => emuDirOps k handle (emufsCreat k name)
  | .device _ => do
    vnodeCheck
    fail .enotdir

def devOpen (k : Nat) (openflags : BitVec 32) : WorldOp PUnit := do
  let w ← get
  if Vfs.has openflags (Vfs.oCreat ||| Vfs.oTrunc ||| Vfs.oExcl ||| Vfs.oAppend) then fail .einval
  else match w.dOpen k openflags with
    | none => pure ⟨⟩
    | some errno => fail errno

def vopOpen (openflags : BitVec 32) : AnyVnode → LockedWorldOp PUnit
  | .sfs k i => onVolume k do
    vnodeCheck
    let v ← free (vnodeOf i)
    free (if v.inode.type = typeDir then Vfs.sfsOpendir openflags else Vfs.sfsOpen openflags)
  | .emu k handle => do
    vnodeCheck
    let ev ← free (emuVnodeOf k handle)
    free (if ev.isdir then emufsOpendir openflags else emufsOpen openflags)
  | .device k => do
    vnodeCheck
    free (devOpen k openflags)

def vopTruncateAny (len : Nat) : AnyVnode → LockedWorldOp PUnit
  | .sfs k i => onVolume k (vopTruncate i len)
  | .emu k handle => do
    vnodeCheck
    let ev ← free (emuVnodeOf k handle)
    free (if ev.isdir then fail .enotdir else emuTrunc k)
  | .device _ => do
    vnodeCheck
    fail .einval

def isDir : AnyVnode → LockedWorldOp Bool
  | .sfs k i => onVolume k do
    vnodeCheck
    sfsGettype i
  | .emu k handle => do
    vnodeCheck
    let ev ← free (emuVnodeOf k handle)
    pure ev.isdir
  | .device _ => do
    vnodeCheck
    pure false

def vfsBiglockDoIHold : LockedWorldOp PUnit := do
  let w ← get
  kassert w.lock.held

def getvolname : Option FileSystem → LockedWorldOp PUnit
  | some (.sfs _) => do
    vfsBiglockAcquire
    vfsBiglockRelease
  | _ => pure ⟨⟩

def World.volnameOf (w : World) : FileSystem → Option (List UInt8)
  | .sfs k => some (w.volname k)
  | .emu _ => none

def getroot : FileSystem → LockedWorldOp AnyVnode
  | .sfs k => do
    let ino ← onVolume k sfsGetroot
    pure (.sfs k ino)
  | .emu k => do
    emuIncref k emuRoothandle
    pure (.emu k emuRoothandle)

def foundVnode : Found Nat FileSystem → LockedWorldOp AnyVnode
  | .root fs => getroot fs
  | .device k => do
    vopIncref (.device k)
    pure (.device k)
  | .error errno => fail errno
  | .panic => panics

def rootLoop (devname : List UInt8) : List (KnownDev Nat FileSystem) → LockedWorldOp AnyVnode
  | [] => fail .enodev
  | kd :: rest => do
    getvolname kd.kdFs
    let w ← free get
    match getrootOf w.volnameOf devname kd with
    | some found => foundVnode found
    | none => rootLoop devname rest

def vfsGetroot (devname : List UInt8) : LockedWorldOp AnyVnode := do
  vfsBiglockDoIHold
  let w ← free get
  rootLoop devname w.table

def vfsGetcurdir : LockedWorldOp AnyVnode := do
  let w ← free get
  match w.cwd with
  | some vn => do
    vopIncref vn
    pure vn
  | none => fail .enoent

def fsRoot : AnyVnode → LockedWorldOp AnyVnode
  | .sfs k _ => getroot (.sfs k)
  | .emu k _ => getroot (.emu k)
  | .device _ => panics

def startVnode : Vfs.Start → LockedWorldOp AnyVnode
  | .curdir => vfsGetcurdir
  | .device devname => vfsGetroot devname
  | .bootfs => do
    let w ← free get
    match w.bootfs with
    | none => fail .enoent
    | some vn => do
      vopIncref vn
      pure vn
  | .curfs => do
    let vn ← vfsGetcurdir
    let root ← fsRoot vn
    vopDecref vn
    pure root

def getdevice (path : List UInt8) : LockedWorldOp (AnyVnode × List UInt8) := do
  vfsBiglockDoIHold
  let startvn ← startVnode (Vfs.splitPath path).1
  pure (startvn,(Vfs.splitPath path).2)

def vfsLookparent (path : List UInt8) : LockedWorldOp (AnyVnode × List UInt8) := do
  vfsBiglockAcquire
  let (startvn,subpath) ← checked (getdevice path)
  let result ← attempt (if subpath = [] then fail .einval else vopLookparent subpath startvn)
  vopDecref startvn
  vfsBiglockRelease
  giveBack result

def vfsLookup (path : List UInt8) : LockedWorldOp AnyVnode := do
  vfsBiglockAcquire
  let (startvn,subpath) ← checked (getdevice path)
  if subpath = [] then do
    vfsBiglockRelease
    pure startvn
  else do
    let result ← attempt (vopLookup subpath startvn)
    vopDecref startvn
    vfsBiglockRelease
    giveBack result

def findOpen (path : List UInt8) (openflags : BitVec 32) : LockedWorldOp AnyVnode :=
  if Vfs.has openflags Vfs.oCreat then do
    let (dir,name) ← vfsLookparent path
    let result ← attempt (vopCreat name (Vfs.has openflags Vfs.oExcl) dir)
    vopDecref dir
    giveBack result
  else vfsLookup path

def openTruncate (openflags : BitVec 32) (canwrite : Bool) (vn : AnyVnode) : LockedWorldOp PUnit :=
  perform (Vfs.has openflags Vfs.oTrunc) do
    let result ← attempt (if canwrite then vopTruncateAny 0 vn else fail .einval)
    match result with
    | .ok _ => pure ⟨⟩
    | .error errno => do
      vopDecopen vn
      vopDecref vn
      fail errno

def openWith (path : List UInt8) (openflags : BitVec 32) (canwrite : Bool) : LockedWorldOp AnyVnode := do
  let vn ← findOpen path openflags
  let result ← attempt (vopOpen openflags vn)
  match result with
  | .error errno => do
    vopDecref vn
    fail errno
  | .ok _ => do
    vopIncopen vn
    openTruncate openflags canwrite vn
    pure vn

def vfsOpen (path : List UInt8) (openflags : BitVec 32) : LockedWorldOp AnyVnode :=
  if openflags &&& Vfs.oAccmode = Vfs.oRdonly then openWith path openflags false
  else if openflags &&& Vfs.oAccmode = Vfs.oWronly ∨ openflags &&& Vfs.oAccmode = Vfs.oRdwr then
    openWith path openflags true
  else fail .einval

def dropOld : Option AnyVnode → LockedWorldOp PUnit
  | some vn => vopDecref vn
  | none => pure ⟨⟩

def vfsSetcurdir (dir : AnyVnode) : LockedWorldOp PUnit := do
  let type ← isDir dir
  if type then do
    vopIncref dir
    let w ← free get
    free (modify fun w => {w with cwd := some dir})
    dropOld w.cwd
  else fail .enotdir

def vfsChdir (path : List UInt8) : LockedWorldOp PUnit := do
  let vn ← vfsLookup path
  let result ← attempt (vfsSetcurdir vn)
  vopDecref vn
  giveBack result

def changeBootfs (newvn : AnyVnode) : LockedWorldOp PUnit := do
  let w ← free get
  free (modify fun w => {w with bootfs := some newvn})
  dropOld w.bootfs

def vfsSetbootfs (fsname : List UInt8) : LockedWorldOp PUnit := do
  vfsBiglockAcquire
  if Vfs.colon ∈ fsname.take (Vfs.nameMax-1) then do
    vfsBiglockRelease
    fail .einval
  else do
    checked (vfsChdir (fsname.take (Vfs.nameMax-1)++[Vfs.colon]))
    let newguy ← checked vfsGetcurdir
    changeBootfs newguy
    vfsBiglockRelease

def mountOn (i : Nat) (kd : KnownDev Nat FileSystem) (k : Nat) : LockedWorldOp PUnit := do
  let w ← free get
  checked (onVolume k (sfsDomount (w.dBlocksize k)))
  free (modify fun w => {w with table := w.table.set i {kd with kdFs := some (.sfs k)}})
  getvolname (some (.sfs k))
  vfsBiglockRelease

def vfsMount (devname : List UInt8) : LockedWorldOp PUnit := do
  vfsBiglockAcquire
  vfsBiglockDoIHold
  let w ← free get
  match findmount devname w.table with
  | none => do
    vfsBiglockRelease
    fail .enodev
  | some (i,kd) =>
    match kd.kdFs,kd.kdDevice with
    | some _,_ => do
      vfsBiglockRelease
      fail .ebusy
    | none,none => panics
    | none,some k => mountOn i kd k

def fsSync : FileSystem → LockedWorldOp PUnit
  | .sfs k => onVolume k sfsSync
  | .emu _ => pure ⟨⟩

def fsUnmount : FileSystem → LockedWorldOp PUnit
  | .sfs k => onVolume k sfsUnmount
  | .emu _ => fail .ebusy

def unmountFrom (i : Nat) (kd : KnownDev Nat FileSystem) (fs : FileSystem) : LockedWorldOp PUnit := do
  free (kassert kd.kdDevice.isSome)
  checked (fsSync fs)
  checked (fsUnmount fs)
  free (modify fun w => {w with table := w.table.set i {kd with kdFs := none}})
  vfsBiglockRelease

def vfsUnmount (devname : List UInt8) : LockedWorldOp PUnit := do
  vfsBiglockAcquire
  vfsBiglockDoIHold
  let w ← free get
  match findmount devname w.table with
  | none => do
    vfsBiglockRelease
    fail .enodev
  | some (i,kd) =>
    match kd.kdFs with
    | none => do
      vfsBiglockRelease
      fail .einval
    | some fs => unmountFrom i kd fs

-- The requests to kmalloc that are still to come are all served.
def Able (w : World) : Prop := ∀ n, w.mallocs ≤ n → w.memory n = true

structure Since (w t : World) : Prop where
  refused : t.refused = w.refused
  memory : t.memory = w.memory
  mallocs : w.mallocs ≤ t.mallocs

lemma Since.able (since : Since w t) (able : Able w) : Able t := fun n later => by
  rw [since.memory]
  exact able n (since.mallocs.trans later)

class Quiet {α : Type} (n : WorldOp α) : Prop where
  keeps : ∀ w, Keeps (Since w) (fun e t => e = .panic ∨ Since w t) Anything n

class Calm {α : Type} (n : WorldOp α) : Prop where
  keeps : ∀ w, Keeps (Since w) (fun e _ => e = .panic) Anything n

section
variable {α β : Type} {n : WorldOp α} {f : α → WorldOp β}

instance [calm : Calm n] : Quiet n := ⟨fun w t since => (calm.keeps w t since).imp_error fun _ _ ran => .inl ran⟩

lemma calm_bind [one : Calm n] (rest : ∀ a, Calm (f a)) : Calm (n >>= f) :=
  ⟨fun w => (one.keeps w).bind fun a _ => (rest a).keeps w⟩

lemma quiet_bind [one : Quiet n] (rest : ∀ a, Quiet (f a)) : Quiet (n >>= f) :=
  ⟨fun w => (one.keeps w).bind fun a _ => (rest a).keeps w⟩

instance [Calm n] [rest : ∀ a, Calm (f a)] : Calm (n >>= f) := calm_bind rest
instance [Quiet n] [rest : ∀ a, Quiet (f a)] : Quiet (n >>= f) := quiet_bind rest
instance (a : α) : Calm (pure a : WorldOp α) := ⟨fun _ => keeps_pure trivial⟩
instance : Calm (get : WorldOp World) := ⟨fun _ => keeps_get⟩
instance : Calm (panics : WorldOp α) := ⟨fun _ => keeps_throw fun _ _ => rfl⟩
instance (errno : Errno) : Quiet (fail errno : WorldOp α) := ⟨fun _ => keeps_throw fun _ since => .inr since⟩

instance [Decidable p] {m : WorldOp α} [one : Quiet n] [other : Quiet m] : Quiet (if p then n else m) := by
  split <;> assumption

lemma calm_modify {g : World → World} (same : ∀ w, (g w).refused = w.refused ∧ (g w).memory = w.memory ∧
    (g w).mallocs = w.mallocs) : Calm (modify g : WorldOp PUnit) :=
  ⟨fun _ => keeps_modify fun w since => ⟨(same w).1.trans since.refused,(same w).2.1.trans since.memory,
    since.mallocs.trans (same w).2.2.ge⟩⟩

instance (holds : Bool) : Calm (kassert holds : WorldOp PUnit) := by
  unfold kassert
  split <;> infer_instance

instance {n : WorldOp PUnit} [calm : Calm n] (cond : Bool) : Calm (perform cond n) := by
  unfold perform
  split <;> infer_instance

instance [quiet : Quiet n] : Calm (attempt n) where
  keeps w t since := by
    have ends := quiet.keeps w t since
    unfold attempt
    cases ran : n t with
    | ok a u => exact ends.ok ran
    | error e u =>
      cases e with
      | panic => rfl
      | errno errno =>
        cases ends.failed ran with
        | inl panicked => cases panicked
        | inr kept => exact ⟨trivial,kept⟩

instance (res : Except Errno α) : Quiet (giveBack res : WorldOp α) := by
  unfold giveBack
  split <;> infer_instance

end

instance (code : Nat) : Quiet (translateErr code) := by
  unfold translateErr
  split <;> infer_instance

instance : Quiet emuWaitdone where
  keeps w t since :=
    (quiet_bind fun _ => inferInstanceAs (Quiet (pure _))).keeps w {t with ops := t.ops+1}
      ⟨since.refused,since.memory,since.mallocs⟩

instance (k : Nat) (mine : Bool) : Calm (setElock k mine) where
  keeps w t since := ends_bind_get (ends_bind (Calm.keeps (n := kassert _) w t since) fun _ _ _ =>
    ends_set ⟨trivial,since.refused,since.memory,since.mallocs⟩)

instance (k : Nat) : Calm (elockAcquire k) := inferInstanceAs (Calm (setElock k true))
instance (k : Nat) : Calm (elockRelease k) := inferInstanceAs (Calm (setElock k false))

instance (k : Nat) (name : List UInt8) : Quiet (emuOpen k name) := by
  unfold emuOpen
  infer_instance

instance (n : Nat) : Quiet (closeLoop n) := by
  induction n with
  | zero => exact inferInstanceAs (Quiet (emuWaitdone >>= fun _ => pure _))
  | succ n ih =>
    refine quiet_bind fun res => ?_
    split <;> infer_instance

instance (k : Nat) : Quiet (emuClose k) := by
  unfold emuClose
  infer_instance

instance (k : Nat) : Quiet (emuTrunc k) := by
  unfold emuTrunc
  infer_instance

instance (k handle : Nat) : Calm (emuVnodeOf k handle) := calm_bind fun w => by split <;> infer_instance
instance (k handle refcount : Nat) : Calm (setEmuRefcount k handle refcount) := calm_modify fun _ => ⟨rfl,rfl,rfl⟩
instance (vn : AnyVnode) (count : Nat) : Calm (setOpencount vn count) := calm_modify fun _ => ⟨rfl,rfl,rfl⟩

instance : Calm kmallocGrants where
  keeps _ _ since := ⟨trivial,since.refused,since.memory,since.mallocs.trans (Nat.le_succ _)⟩

instance (k : Nat) (openflags : BitVec 32) : Quiet (devOpen k openflags) := by
  refine quiet_bind fun w => ?_
  split
  · infer_instance
  · split <;> infer_instance

instance (openflags : BitVec 32) : Quiet (emufsOpen openflags) := by
  unfold emufsOpen
  infer_instance

instance (openflags : BitVec 32) : Quiet (emufsOpendir openflags) := by
  unfold emufsOpendir
  infer_instance

class Counts (debt : Ledger World) : Prop where
  since : ∀ {w t}, Since w t → debt.owes w t 0

abbrev Level {α : Type} (debt : Ledger World) (d done failed : Nat) (m : LockedWorldOp α) : Prop :=
  Moves brackets Fault.panic debt d done failed m

section
variable {α : Type} {debt : Ledger World} {d done failed : Nat}

lemma level_attempt (level : Level debt d d d m) : Level debt d d failed (attempt m) := by
  intro l w
  have ends := level l w
  unfold attempt
  cases ran : m ⟨brackets.enter^[d] l,w⟩ with
  | ok a t => exact ends.ok ran
  | error e t =>
    cases e with
    | panic => exact .inl rfl
    | errno errno =>
      cases ends.failed ran with
      | inl panicked => cases panicked
      | inr raised => exact raised

lemma level_giveBack (res : Except Errno α) : Level debt d d d (giveBack res : LockedWorldOp α) := by
  cases res with
  | ok a => exact moves_pure a
  | error errno => exact moves_throw _

lemma level_checked (level : Level debt (d+1) (d+1) (d+1) m) : Level debt (d+1) (d+1) d (checked m) := by
  refine (level_attempt level).bind fun res => ?_
  cases res with
  | ok a => exact moves_pure a
  | error errno => exact moves_release.bind fun _ => moves_throw _

lemma level_vnodeCheck : Level debt d d failed (vnodeCheck : LockedWorldOp PUnit) :=
  moves_acquire.bind fun _ => moves_release

lemma level_vfsBiglockDoIHold : Level debt d d failed vfsBiglockDoIHold := by
  intro l w
  change Ends ((kassert (brackets.enter^[d] l).held : LockedWorldOp PUnit) ⟨brackets.enter^[d] l,w⟩) _ _
  cases (brackets.enter^[d] l).held with
  | true => exact raised_refl l w
  | false => exact .inl rfl

variable [Counts debt]

lemma level_quiet [quiet : Quiet n] : Level debt d d d (free n) :=
  moves_free fun w => (quiet.keeps w w ⟨rfl,rfl,le_rfl⟩).mono (fun _ _ ran => Counts.since ran.2)
    fun _ _ ran => ran.imp_right Counts.since

lemma level_calm [calm : Calm n] : Level debt d d failed (free n) :=
  moves_sure fun w => (calm.keeps w w ⟨rfl,rfl,le_rfl⟩).imp fun _ _ ran => Counts.since ran.2

lemma level_modify {g : World → World} (same : ∀ w, (g w).refused = w.refused ∧ (g w).memory = w.memory ∧
    (g w).mallocs = w.mallocs) (rest : Level debt d done failed m) :
    Level debt d done failed (free (modify g) >>= fun _ => m) := by
  have := calm_modify same
  exact level_calm.bind fun _ => rest

lemma level_underLock [Calm n] : Level debt d d failed (underLock n) :=
  moves_acquire.bind fun _ => level_calm.bind fun _ => moves_release

lemma level_onVolume (k : Nat) (runs : Runs brackets .panic d done failed m n) :
    Level debt d done failed (onVolume k m) := runs.moves fun _ _ => Counts.since ⟨rfl,rfl,le_rfl⟩

lemma level_emuIncref (k handle : Nat) : Level debt d d failed (emuIncref k handle) :=
  level_underLock

lemma level_addVnode (k handle : Nat) (isdir : Bool) : Level debt (d+1) d d (addVnode k handle isdir) := by
  refine level_calm.bind fun got => ?_
  cases got with
  | true =>
    refine level_modify (fun _ => ⟨rfl,rfl,rfl⟩) ?_
    exact level_calm.bind fun _ => moves_release.bind fun _ => moves_pure _
  | false => exact level_calm.bind fun _ => moves_release.bind fun _ => moves_throw _

lemma level_loaded (k handle : Nat) : Level debt (d+1) d d (do
    emuIncref k handle
    free (elockRelease k)
    vfsBiglockRelease
    pure handle : LockedWorldOp Nat) := by
  refine (level_emuIncref k handle).bind fun _ => level_calm.bind fun _ => ?_
  exact moves_release.bind fun _ => moves_pure _

lemma level_emufsReclaim (k handle : Nat) : Level debt d d d (emufsReclaim k handle) := by
  have refusing : ∀ errno : Errno, Level debt (d+1) d d (do
      free (elockRelease k)
      vfsBiglockRelease
      fail errno : LockedWorldOp PUnit) := fun errno =>
    level_calm.bind fun _ => moves_release.bind fun _ => moves_throw _
  refine moves_acquire.bind fun _ => level_calm.bind fun _ => ?_
  refine level_calm.bind fun ev => ?_
  split
  · exact refusing _
  refine (level_attempt level_quiet).bind fun res => ?_
  cases res with
  | error errno => exact refusing errno
  | ok _ =>
    refine level_calm.bind fun w => level_calm.bind fun _ => ?_
    refine level_modify (fun _ => ⟨rfl,rfl,rfl⟩) ?_
    exact level_calm.bind fun _ => moves_release

section
variable (vn : AnyVnode)
include vn

lemma level_vopIncref : Level debt d d failed (vopIncref vn) := by
  cases vn with
  | sfs k i => exact level_onVolume k runs_underLock
  | emu k handle => exact level_emuIncref k handle
  | device k =>
    refine moves_acquire.bind fun _ => ?_
    exact level_modify (fun _ => ⟨rfl,rfl,rfl⟩) moves_release

lemma level_vopDecref : Level debt d d failed (vopDecref vn) := by
  cases vn with
  | sfs k i => exact level_onVolume k (vnodeDecref_runs i)
  | emu k handle =>
    refine moves_acquire.bind fun _ => level_calm.bind fun ev => ?_
    refine level_calm.bind fun _ => Moves.bind ?_ fun _ => moves_release
    unfold dropEmuReference
    split
    · exact level_calm
    refine level_vnodeCheck.bind fun _ => ?_
    exact (level_attempt (level_emufsReclaim k handle)).bind fun _ => moves_pure _
  | device k =>
    refine moves_acquire.bind fun _ => level_calm.bind fun w => ?_
    refine level_calm.bind fun _ => Moves.bind ?_ fun _ => moves_release
    unfold dropDeviceReference
    split
    · have := calm_modify (g := fun v => {v with deviceRefs := Function.update v.deviceRefs k (w.deviceRefs k-1)})
        fun _ => ⟨rfl,rfl,rfl⟩
      exact level_calm
    · exact level_vnodeCheck

lemma level_vopIncopen : Level debt d d failed (vopIncopen vn) :=
  level_underLock

lemma level_vopClose : Level debt d d d (vopClose vn) := by
  cases vn with
  | sfs k i => exact level_onVolume k (runs_vnodeCheck (runs_vnodeCheck (sfsFsync_tracks i).anywhere))
  | emu k handle => exact level_vnodeCheck
  | device k =>
    refine level_vnodeCheck.bind fun _ => level_calm.bind fun w => ?_
    cases w.dClose k with
    | none => exact moves_pure _
    | some errno => exact moves_throw _

lemma level_vopDecopen : Level debt d d failed (vopDecopen vn) := by
  refine moves_acquire.bind fun _ => level_calm.bind fun w => ?_
  refine level_calm.bind fun _ => level_calm.bind fun _ => ?_
  split
  · exact moves_release
  · exact (level_attempt (level_vopClose vn)).bind fun _ => moves_release

end

lemma level_vopOpen (openflags : BitVec 32) (vn : AnyVnode) : Level debt d d d (vopOpen openflags vn) := by
  cases vn with
  | sfs k i => exact level_onVolume k (runs_vnodeCheck (runs_sure.bind fun v => runs_free _))
  | emu k handle =>
    refine level_vnodeCheck.bind fun _ => level_calm.bind fun ev => ?_
    exact level_quiet
  | device k => exact level_vnodeCheck.bind fun _ => level_quiet

lemma level_vopTruncateAny (len : Nat) (vn : AnyVnode) : Level debt d d d (vopTruncateAny len vn) := by
  cases vn with
  | sfs k i => exact level_onVolume k (fileOps_tracks i (sfsTruncate_tracks i len)).anywhere
  | emu k handle =>
    refine level_vnodeCheck.bind fun _ => level_calm.bind fun ev => ?_
    exact level_quiet
  | device k => exact level_vnodeCheck.bind fun _ => moves_throw _

lemma level_isDir (vn : AnyVnode) : Level debt d d d (isDir vn) := by
  cases vn with
  | sfs k i => exact level_onVolume k (runs_vnodeCheck (sfsGettype_tracks i).anywhere)
  | emu k handle =>
    exact level_vnodeCheck.bind fun _ => level_calm.bind fun ev => moves_pure _
  | device k => exact level_vnodeCheck.bind fun _ => moves_pure _

omit [Counts debt] in
lemma level_getvolname (fs : Option FileSystem) : Level debt d d failed (getvolname fs) := by
  cases fs with
  | none => exact moves_pure _
  | some fs =>
    cases fs with
    | sfs k => exact moves_acquire.bind fun _ => moves_release
    | emu k => exact moves_pure _

lemma level_getroot (fs : FileSystem) : Level debt d d d (getroot fs) := by
  cases fs with
  | sfs k => exact (level_onVolume k sfsGetroot_tracks.anywhere).bind fun _ => moves_pure _
  | emu k => exact (level_emuIncref k emuRoothandle).bind fun _ => moves_pure _

lemma level_rootLoop (devname : List UInt8) (table : List (KnownDev Nat FileSystem)) :
    Level debt d d d (rootLoop devname table) := by
  induction table with
  | nil => exact moves_throw _
  | cons kd rest ih =>
    refine (level_getvolname kd.kdFs).bind fun _ => level_calm.bind fun w => ?_
    cases getrootOf w.volnameOf devname kd with
    | none => exact ih
    | some hit =>
      cases hit with
      | root fs => exact level_getroot fs
      | device k => exact (level_vopIncref (.device k)).bind fun _ => moves_pure _
      | error errno => exact moves_throw _
      | panic => exact moves_stop

lemma level_vfsGetcurdir : Level debt d d d vfsGetcurdir := by
  refine level_calm.bind fun w => ?_
  cases w.cwd with
  | some vn => exact (level_vopIncref vn).bind fun _ => moves_pure _
  | none => exact moves_throw _

lemma level_getdevice (path : List UInt8) : Level debt d d d (getdevice path) := by
  refine level_vfsBiglockDoIHold.bind fun _ => Moves.bind ?_ fun _ => moves_pure _
  cases (Vfs.splitPath path).1 with
  | curdir => exact level_vfsGetcurdir
  | device devname =>
    refine level_vfsBiglockDoIHold.bind fun _ => level_calm.bind fun w => ?_
    exact level_rootLoop devname w.table
  | bootfs =>
    refine level_calm.bind fun w => ?_
    cases w.bootfs with
    | none => exact moves_throw _
    | some vn => exact (level_vopIncref vn).bind fun _ => moves_pure _
  | curfs =>
    refine level_vfsGetcurdir.bind fun vn => Moves.bind ?_ fun root =>
      (level_vopDecref vn).bind fun _ => moves_pure _
    cases vn with
    | sfs k i => exact level_getroot (.sfs k)
    | emu k handle => exact level_getroot (.emu k)
    | device k => exact moves_stop

lemma level_dropOld (old : Option AnyVnode) : Level debt d d failed (dropOld old) := by
  cases old with
  | some vn => exact level_vopDecref vn
  | none => exact moves_pure _

lemma level_vfsSetcurdir (dir : AnyVnode) : Level debt d d d (vfsSetcurdir dir) := by
  refine (level_isDir dir).bind fun type => ?_
  cases type with
  | true =>
    refine (level_vopIncref dir).bind fun _ => level_calm.bind fun w => ?_
    exact level_modify (fun _ => ⟨rfl,rfl,rfl⟩) (level_dropOld w.cwd)
  | false => exact moves_throw _

lemma level_vfsMount (devname : List UInt8) : Level debt d d d (vfsMount devname) := by
  refine moves_acquire.bind fun _ => level_vfsBiglockDoIHold.bind fun _ => level_calm.bind fun w => ?_
  split
  · exact moves_release.bind fun _ => moves_throw _
  split
  · exact moves_release.bind fun _ => moves_throw _
  · exact moves_stop
  refine level_calm.bind fun w => ?_
  refine (level_checked (level_onVolume _ (sfsDomount_tracks _).anywhere)).bind fun _ => ?_
  refine level_modify (fun _ => ⟨rfl,rfl,rfl⟩) ?_
  exact (level_getvolname _).bind fun _ => moves_release

lemma level_vfsUnmount (devname : List UInt8) : Level debt d d d (vfsUnmount devname) := by
  refine moves_acquire.bind fun _ => level_vfsBiglockDoIHold.bind fun _ => level_calm.bind fun w => ?_
  split
  · exact moves_release.bind fun _ => moves_throw _
  split
  · exact moves_release.bind fun _ => moves_throw _
  rename_i fs _
  refine level_calm.bind fun _ => ?_
  refine Moves.bind (level_checked ?_) fun _ => Moves.bind (level_checked ?_) fun _ => ?_
  · cases fs with
    | sfs k => exact level_onVolume k sfsSync_tracks.anywhere
    | emu k => exact moves_pure _
  · cases fs with
    | sfs k => exact level_onVolume k sfsUnmount_tracks.anywhere
    | emu k => exact moves_throw _
  · exact level_modify (fun _ => ⟨rfl,rfl,rfl⟩) moves_release

end

def nothing : Ledger World where
  owes _ _ n := n = 0
  refl _ := rfl
  trans one two := by rw [one,two]

-- Each refusal costs one level, and while memory lasts there is none.
def refusals : Ledger World where
  owes w t n := t.refused = w.refused+n ∧ (Able w → n = 0 ∧ Able t)
  refl _ := ⟨rfl,fun able => ⟨rfl,able⟩⟩
  trans one two := by
    refine ⟨by rw [two.1,one.1]; omega,fun able => ?_⟩
    obtain ⟨none1,able⟩ := one.2 able
    obtain ⟨none2,able⟩ := two.2 able
    exact ⟨by omega,able⟩

instance : Counts nothing := ⟨fun _ => rfl⟩
instance : Counts refusals := ⟨fun since => ⟨since.refused,fun able => ⟨rfl,since.able able⟩⟩⟩

lemma free_setElock (k : Nat) (mine : Bool) (l : Lock) (w : World) :
    Ends ((free (setElock k mine) : LockedWorldOp PUnit) ⟨l,w⟩)
      (fun _ t => t = ⟨l,{w with elocks := Function.update w.elocks k mine}⟩) fun e _ => e = .panic := by
  unfold free setElock
  rw [bind_ok (show (get : WorldOp World) w = .ok w w from rfl)]
  cases w.elocks k != mine with
  | true => rfl
  | false => rfl

section
variable {d : Nat}

lemma level_newVnode (k handle : Nat) (isdir : Bool) : Level refusals (d+1) d d (do
    let granted ← free kmallocGrants
    newVnode k handle isdir granted) := by
  intro l w
  have later : Since w {w with mallocs := w.mallocs+1} := ⟨rfl,rfl,Nat.le_succ _⟩
  change Ends (newVnode k handle isdir (w.memory w.mallocs) ⟨brackets.enter^[d+1] l,{w with mallocs := w.mallocs+1}⟩)
    _ _
  cases granted : w.memory w.mallocs with
  | true =>
    have rest : Level refusals (d+1) d d (addVnode k handle isdir) := level_addVnode k handle isdir
    exact (rest l _).mono (fun _ _ => Raised.trans (Counts.since later)) fun _ _ ran =>
      ran.imp_right (Raised.trans (Counts.since later))
  | false =>
    refine ends_bind ((free_setElock k false _ _).imp_error fun _ _ ran => .inl ran) ?_
    rintro _ _ rfl
    refine .inr ⟨1,⟨rfl,fun able => ?_⟩,rfl⟩
    rw [able w.mallocs le_rfl] at granted
    cases granted

lemma level_emufsLoadvnode (k handle : Nat) (isdir : Bool) :
    Level refusals d d d (emufsLoadvnode k handle isdir) := by
  refine moves_acquire.bind fun _ => level_calm.bind fun _ => level_calm.bind fun w => ?_
  cases w.emuVnode k handle with
  | some ev => exact level_loaded k handle
  | none => exact level_newVnode k handle isdir

lemma level_emufsOpenHandle (k : Nat) (name : List UInt8) : Level refusals d d d (emufsOpenHandle k name) := by
  refine level_quiet.bind fun opened => ?_
  refine (level_attempt (level_emufsLoadvnode k opened.1 opened.2)).bind fun res => ?_
  cases res with
  | ok newguy => exact moves_pure _
  | error errno => exact (level_attempt level_quiet).bind fun _ => moves_throw _

lemma level_emufsLookparent (k handle : Nat) (pathname : List UInt8) :
    Level refusals d d d (emufsLookparent k handle pathname) := by
  unfold emufsLookparent
  split
  · exact moves_throw _
  split
  · exact (level_emufsOpenHandle k _).bind fun _ => moves_pure _
  · exact (level_emuIncref k handle).bind fun _ => moves_pure _

lemma level_emuDirOps (k handle : Nat) (level : Level refusals d d d m) :
    Level refusals d d d (emuDirOps k handle m) := by
  refine level_vnodeCheck.bind fun _ => level_calm.bind fun ev => ?_
  cases ev.isdir with
  | true => exact level
  | false => exact moves_throw _

lemma level_vopLookup (path : List UInt8) (vn : AnyVnode) : Level refusals d d d (vopLookup path vn) := by
  cases vn with
  | sfs k i =>
    have tracks := dirOps_tracks i (sfsLookup_tracks i path)
    exact (level_onVolume k tracks.anywhere).bind fun _ => moves_pure _
  | emu k handle => exact level_emuDirOps k handle (level_emufsOpenHandle k path)
  | device k =>
    refine level_vnodeCheck.bind fun _ => ?_
    split
    · exact (level_vopIncref (.device k)).bind fun _ => moves_pure _
    · exact moves_throw _

lemma level_vopLookparent (path : List UInt8) (vn : AnyVnode) : Level refusals d d d (vopLookparent path vn) := by
  cases vn with
  | sfs k i =>
    have tracks := dirOps_tracks i (sfsLookparent_tracks i path)
    exact (level_onVolume k tracks.anywhere).bind fun _ => moves_pure _
  | emu k handle => exact level_emuDirOps k handle (level_emufsLookparent k handle path)
  | device k => exact level_vnodeCheck.bind fun _ => moves_throw _

lemma level_vopCreat (name : List UInt8) (excl : Bool) (vn : AnyVnode) :
    Level refusals d d d (vopCreat name excl vn) := by
  cases vn with
  | sfs k i =>
    have tracks := dirOps_tracks i (sfsCreat_tracks i name excl)
    exact (level_onVolume k tracks.anywhere).bind fun _ => moves_pure _
  | emu k handle => exact level_emuDirOps k handle (level_emufsOpenHandle k name)
  | device k => exact level_vnodeCheck.bind fun _ => moves_throw _

lemma level_vfsLookparent (path : List UInt8) : Level refusals d d d (vfsLookparent path) := by
  refine moves_acquire.bind fun _ => (level_checked (level_getdevice path)).bind fun hit => ?_
  refine Moves.bind (level_attempt ?_) fun res => ?_
  · split
    · exact moves_throw _
    · exact level_vopLookparent _ _
  refine (level_vopDecref _).bind fun _ => ?_
  exact moves_release.bind fun _ => level_giveBack res

lemma level_vfsLookup (path : List UInt8) : Level refusals d d d (vfsLookup path) := by
  refine moves_acquire.bind fun _ => (level_checked (level_getdevice path)).bind fun hit => ?_
  split
  split
  · exact moves_release.bind fun _ => moves_pure _
  refine (level_attempt (level_vopLookup _ _)).bind fun res => ?_
  refine (level_vopDecref _).bind fun _ => ?_
  exact moves_release.bind fun _ => level_giveBack res

lemma level_findOpen (path : List UInt8) (openflags : BitVec 32) :
    Level refusals d d d (findOpen path openflags) := by
  unfold findOpen
  split
  · refine (level_vfsLookparent path).bind fun hit => (level_attempt (level_vopCreat _ _ _)).bind fun res => ?_
    exact (level_vopDecref _).bind fun _ => level_giveBack res
  · exact level_vfsLookup path

lemma level_openTruncate (openflags : BitVec 32) (canwrite : Bool) (vn : AnyVnode) :
    Level refusals d d d (openTruncate openflags canwrite vn) := by
  have truncating : Level refusals d d d (if canwrite then vopTruncateAny 0 vn else fail .einval) := by
    split
    · exact level_vopTruncateAny 0 vn
    · exact moves_throw _
  unfold openTruncate perform
  split
  · refine (level_attempt truncating).bind fun res => ?_
    cases res with
    | ok _ => exact moves_pure _
    | error errno =>
      refine (level_vopDecopen vn).bind fun _ => ?_
      exact (level_vopDecref vn).bind fun _ => moves_throw _
  · exact moves_pure _

lemma level_openWith (path : List UInt8) (openflags : BitVec 32) (canwrite : Bool) :
    Level refusals d d d (openWith path openflags canwrite) := by
  refine (level_findOpen path openflags).bind fun vn => ?_
  refine (level_attempt (level_vopOpen openflags vn)).bind fun res => ?_
  cases res with
  | error errno => exact (level_vopDecref vn).bind fun _ => moves_throw _
  | ok _ =>
    refine (level_vopIncopen vn).bind fun _ => ?_
    exact (level_openTruncate openflags canwrite vn).bind fun _ => moves_pure _

lemma level_vfsOpen (path : List UInt8) (openflags : BitVec 32) :
    Level refusals d d d (vfsOpen path openflags) := by
  unfold vfsOpen
  split
  · exact level_openWith path openflags false
  split
  · exact level_openWith path openflags true
  · exact moves_throw _

lemma level_vfsChdir (path : List UInt8) : Level refusals d d d (vfsChdir path) := by
  refine (level_vfsLookup path).bind fun vn => (level_attempt (level_vfsSetcurdir vn)).bind fun res => ?_
  exact (level_vopDecref vn).bind fun _ => level_giveBack res

lemma level_vfsSetbootfs (fsname : List UInt8) : Level refusals d d d (vfsSetbootfs fsname) := by
  refine moves_acquire.bind fun _ => ?_
  split
  · exact moves_release.bind fun _ => moves_throw _
  refine (level_checked (level_vfsChdir _)).bind fun _ => ?_
  refine (level_checked level_vfsGetcurdir).bind fun newguy => Moves.bind ?_ fun _ => moves_release
  refine level_calm.bind fun w => ?_
  exact level_modify (fun _ => ⟨rfl,rfl,rfl⟩) (level_dropOld w.bootfs)

end

def Returns {σ α : Type} (m : EStateM Fault (Locked Lock σ) α) (w : Locked Lock σ) (P : Locked Lock σ → Prop) : Prop :=
  Ends (m w) (fun _ t => P t) fun e t => e = .panic ∨ P t

def Balanced {σ α : Type} (m : EStateM Fault (Locked Lock σ) α) : Prop := ∀ w, Returns m w fun t => t.lock = w.lock

lemma Tracks.balanced {σ α : Type} {m : EStateM Fault (Locked Lock σ) α} {n : EStateM Fault σ α}
    (tracks : Tracks m n) : Balanced m := by
  intro w
  have one := tracks w.lock w.world
  unfold Returns
  cases ran : n w.world with
  | ok a t =>
    rw [ran] at one
    change m w = _ at one
    rw [one]
    rfl
  | error e t =>
    rw [ran] at one
    cases one with
    | inl stop =>
      obtain ⟨final,u,stop⟩ := stop
      change m w = _ at stop
      rw [stop]
      exact .inl final
    | inr eq =>
      change m w = _ at eq
      rw [eq]
      exact .inr rfl

lemma depth_enter (n : Nat) (l : Lock) : (brackets.enter^[n] l).depth = l.depth+n := by
  induction n with
  | zero => rfl
  | succ n ih =>
    rw [Function.iterate_succ_apply']
    change (brackets.enter^[n] l).depth+1 = _
    rw [ih]
    omega

lemma raised_nothing (raised : Raised brackets nothing l w d t) : t.lock = brackets.enter^[d] l := by
  obtain ⟨_,rfl,lock⟩ := raised
  exact lock

lemma level_balanced {m : LockedWorldOp α} (level : Level nothing 0 0 0 m) : Balanced m := fun w =>
  (level w.lock w.world).mono (fun _ _ => raised_nothing) fun _ _ ran => ran.imp_right raised_nothing

-- A call loses the lock exactly if it was refused memory on the way, which does not happen while there is enough.
structure Exact (w t : Locked Lock World) : Prop where
  refused : t.lock = w.lock ↔ t.world.refused = w.world.refused
  able : Able w.world → t.lock = w.lock

lemma raised_exact {w t : Locked Lock World} (raised : Raised brackets refusals w.lock w.world 0 t) : Exact w t := by
  obtain ⟨n,⟨count,enough⟩,lock⟩ := raised
  have still (none_ : n = 0) : t.lock = w.lock := by rw [lock,none_]; rfl
  refine ⟨⟨fun eq => ?_,fun eq => still (by omega)⟩,fun able => still (enough able).1⟩
  have depth := depth_enter n w.lock
  have kept : (brackets.enter^[n] w.lock).depth = w.lock.depth := congrArg Lock.depth (lock.symm.trans eq)
  omega

lemma level_exact {m : LockedWorldOp α} (level : Level refusals 0 0 0 m) (w : Locked Lock World) :
    Returns m w (Exact w) :=
  (level w.lock w.world).mono (fun _ _ => raised_exact) fun _ _ ran => ran.imp_right raised_exact

lemma level_returns (level : Level nothing 1 0 0 m) (holds : P) (l : Lock) (w : World) :
    Returns m ⟨l.acquire,w⟩ fun t => (t.lock = l ↔ P) :=
  (level l w).mono (fun _ _ raised => ⟨fun _ => holds,fun _ => raised_nothing raised⟩) fun _ _ ran =>
    ran.imp_right fun raised => ⟨fun _ => holds,fun _ => raised_nothing raised⟩

lemma Lock.acquire_ne (l : Lock) : l.acquire ≠ l := fun eq => by
  have depth : l.depth+1 = l.depth := congrArg Lock.depth eq
  omega

lemma newVnode_exact (k handle : Nat) (isdir got : Bool) (l : Lock) (w : World) :
    Returns (newVnode k handle isdir got) ⟨l.acquire,w⟩ fun t => (t.lock = l ↔ got) := by
  cases got with
  | true => exact level_returns (level_addVnode k handle isdir) rfl l w
  | false =>
    refine ends_bind ((free_setElock k false _ _).imp_error fun _ _ ran => .inl ran) ?_
    intro _ t eq
    subst eq
    exact .inr ⟨fun eq => absurd eq l.acquire_ne,fun got => by cases got⟩

lemma emufsLoadvnode_exact (k handle : Nat) (isdir : Bool) (w : Locked Lock World) :
    Returns (emufsLoadvnode k handle isdir) w fun t => (t.lock = w.lock ↔
      (w.world.emuVnode k handle).isSome ∨ w.world.memory w.world.mallocs) := by
  unfold Returns emufsLoadvnode
  rw [bind_ok (show vfsBiglockAcquire w = .ok ⟨⟩ ⟨w.lock.acquire,w.world⟩ from rfl)]
  refine ends_bind ((free_setElock k true _ _).imp_error fun _ _ ran => .inl ran) ?_
  intro _ t same
  subst same
  rw [bind_ok (show free get _ = .ok _ _ from rfl)]
  -- The vnodes and the memory are those of `w`.
  change Returns (loadHandle k handle isdir (w.world.emuVnode k handle)) _ _
  cases w.world.emuVnode k handle with
  | some ev => exact level_returns (level_loaded k handle) (.inl rfl) w.lock _
  | none =>
    have made := newVnode_exact k handle isdir (w.world.memory w.world.mallocs) w.lock
      {w.world with elocks := Function.update w.world.elocks k true,mallocs := w.world.mallocs+1}
    simp only [Option.isSome_none,Bool.false_eq_true,false_or]
    exact made

theorem biglock_balance (w : Locked Lock World) :
    (∀ dir name excl, Balanced (sfsCreat dir name excl)) ∧
    (∀ dir name file, Balanced (sfsLink dir name file)) ∧
    (∀ dir name, Balanced (sfsRemove dir name)) ∧
    (∀ dir n1 n2, Balanced (sfsRename dir n1 n2)) ∧
    (∀ i len, Balanced (sfsTruncate i len)) ∧
    (∀ i, Balanced (sfsReclaim i)) ∧
    (∀ ino forcetype, Balanced (sfsLoadvnode ino forcetype)) ∧
    (∀ dBlocksize, Balanced (sfsDomount dBlocksize)) ∧
    Balanced sfsSync ∧
    Balanced sfsUnmount ∧
    (∀ k handle, Balanced (emufsReclaim k handle)) ∧
    (∀ devname, Balanced (vfsMount devname)) ∧
    (∀ devname, Balanced (vfsUnmount devname)) ∧
    (∀ k handle isdir, Returns (emufsLoadvnode k handle isdir) w fun t => (t.lock = w.lock ↔
      (w.world.emuVnode k handle).isSome = true ∨ w.world.memory w.world.mallocs = true)) ∧
    (∀ path openflags, Returns (vfsOpen path openflags) w (Exact w)) ∧
    (∀ path, Returns (vfsLookup path) w (Exact w)) ∧
    (∀ path, Returns (vfsLookparent path) w (Exact w)) ∧
    ∀ fsname, Returns (vfsSetbootfs fsname) w (Exact w) := by
  refine ⟨fun dir name excl => (sfsCreat_tracks dir name excl).balanced,
    fun dir name file => (sfsLink_tracks dir name file).balanced,fun dir name => (sfsRemove_tracks dir name).balanced,
    fun dir n1 n2 => (sfsRename_tracks dir n1 n2).balanced,fun i len => (sfsTruncate_tracks i len).balanced,
    fun i => (sfsReclaim_tracks i).balanced,fun ino forcetype => (sfsLoadvnode_tracks ino forcetype).balanced,
    fun dBlocksize => (sfsDomount_tracks dBlocksize).balanced,sfsSync_tracks.balanced,sfsUnmount_tracks.balanced,
    fun k handle => level_balanced (level_emufsReclaim k handle),
    fun devname => level_balanced (level_vfsMount devname),
    fun devname => level_balanced (level_vfsUnmount devname),
    fun k handle isdir => emufsLoadvnode_exact k handle isdir w,
    fun path openflags => level_exact (level_vfsOpen path openflags) w,fun path => level_exact (level_vfsLookup path) w,
    fun path => level_exact (level_vfsLookparent path) w,fun fsname => level_exact (level_vfsSetbootfs fsname) w⟩

def exhausted : World where
  volumes _ := unmounted (fun _ => zeros) 0 (fun _ => none) fun _ => true
  volname _ := []
  dBlocksize _ := blockSize
  emus _ := []
  elocks _ := false
  answers _ := ⟨1,5,0⟩
  ops := 0
  memory _ := false
  mallocs := 0
  refused := 0
  table := []
  deviceRefs _ := 1
  opencount _ := 0
  dOpen _ _ := none
  dClose _ := none
  cwd := none
  bootfs := none

theorem emufsLoadvnode_keeps_biglock :
    (match emufsLoadvnode 0 5 false ⟨⟨false,0,by decide⟩,exhausted⟩ with
      | .error (.errno errno) t => some (errno,t.lock.held,t.lock.depth)
      | _ => none) = some (.enomem,true,1) := by
  decide +kernel
end ToyOS.BigLock

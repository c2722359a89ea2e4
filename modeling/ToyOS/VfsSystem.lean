import ToyOS.BigLockVfs

namespace ToyOS.BigLock
open Nesting Sfs UserSpace DeviceTable

def vopRemove (name : List UInt8) : AnyVnode → LockedWorldOp PUnit
  | .sfs k i => onVolume k (dirOps i (sfsRemove i name))
  | .emu k handle => emuDirOps k handle (fail .eunimp)
  | .device _ => do
    vnodeCheck
    fail .enotdir

def vopRename (n1 n2 : List UInt8) (d1 d2 : AnyVnode) : LockedWorldOp PUnit :=
  match d1 with
  | .sfs k i => onVolume k (dirOps i do
    free (kassert (d2 == .sfs k i))
    sfsRename i n1 n2)
  | .emu k handle => emuDirOps k handle (fail .eunimp)
  | .device _ => do
    vnodeCheck
    fail .enotdir

def vopLink (name : List UInt8) (dir file : AnyVnode) : LockedWorldOp PUnit :=
  match dir,file with
  | .sfs k i,.sfs l f => onVolume k (dirOps i do
    free (kassert (k == l))
    sfsLink i name f)
  | .sfs k i,_ => onVolume k (dirOps i panics)
  | .emu k handle,_ => emuDirOps k handle (fail .eunimp)
  | .device _,_ => do
    vnodeCheck
    fail .enotdir

def vfsClose (vn : AnyVnode) : LockedWorldOp PUnit := do
  vopDecopen vn
  vopDecref vn

def vfsRemove (path : List UInt8) : LockedWorldOp PUnit := do
  let (dir,name) ← vfsLookparent path
  let result ← attempt (vopRemove name dir)
  vopDecref dir
  giveBack result

def sameFs : AnyVnode → AnyVnode → Bool
  | .sfs k _,.sfs l _ => k == l
  | .emu k _,.emu l _ => k == l
  | _,_ => false

def vfsRename (oldpath newpath : List UInt8) : LockedWorldOp PUnit := do
  let (olddir,oldname) ← vfsLookparent oldpath
  let found ← attempt (vfsLookparent newpath)
  match found with
  | .error errno => do
    vopDecref olddir
    fail errno
  | .ok (newdir,newname) => do
    let result ← attempt (if sameFs olddir newdir then vopRename oldname newname olddir newdir else fail .exdev)
    vopDecref newdir
    vopDecref olddir
    giveBack result

def vfsLink (oldpath newpath : List UInt8) : LockedWorldOp PUnit := do
  let oldfile ← vfsLookup oldpath
  let found ← attempt (vfsLookparent newpath)
  match found with
  | .error errno => do
    vopDecref oldfile
    fail errno
  | .ok (newdir,newname) => do
    let result ← attempt (if sameFs oldfile newdir then vopLink newname newdir oldfile else fail .exdev)
    vopDecref newdir
    vopDecref oldfile
    giveBack result

-- The fields of struct proc for the VFS layer
structure Proc where
  cwd : Option AnyVnode
  console : Option AnyVnode

def kmallocs : Nat → WorldOp Bool
  | 0 => pure true
  | n+1 => do
    let granted ← kmallocGrants
    if granted then kmallocs n else pure false

def conPath : List UInt8 := [99,111,110,58]

def inheritCwd : LockedWorldOp (Option AnyVnode) := do
  let w ← free get
  match w.cwd with
  | some vn => do
    vopIncref vn
    pure (some vn)
  | none => pure none

def procCreateRunprogram : LockedWorldOp (Option Proc) := do
  let granted ← free (kmallocs 5)
  if granted then do
    let copied ← free kmallocGrants
    free (kassert copied)
    let result ← attempt (vfsOpen conPath Vfs.oWronly)
    match result with
    | .error _ => panics
    | .ok console => do
      let cwd ← inheritCwd
      pure (some ⟨cwd,some console⟩)
  else pure none

def closeConsole : Option AnyVnode → LockedWorldOp PUnit
  | some vn => vfsClose vn
  | none => pure ⟨⟩

def procDestroy (proc : Proc) : LockedWorldOp PUnit := do
  dropOld proc.cwd
  closeConsole proc.console

-- The kernel with its processes; the first one is kproc. `files` are the files that vfs_open has handed out, but for
-- the processes' consoles. Between the calls no process is the current one.
structure System where
  kernel : Locked Lock World
  procs : List Proc
  files : List AnyVnode

def System.world (sys : System) : World := sys.kernel.world

def System.calls {α : Type} (sys : System) (p : Nat) (m : LockedWorldOp α) : Option (Except Errno α × System) :=
  match sys.procs[p]? with
  | none => none
  | some proc =>
    match attempt m ⟨sys.kernel.lock,{sys.world with cwd := proc.cwd}⟩ with
    | .error _ _ => none
    | .ok result t => some (result,{sys with
        kernel := ⟨t.lock,{t.world with cwd := none}⟩,procs := sys.procs.set p {proc with cwd := t.world.cwd}})

inductive VfsCall where
  | open (path : CString) (openflags : BitVec 32)
  | close (vn : AnyVnode)
  | remove (path : CString)
  | rename (oldpath newpath : CString)
  | link (oldpath newpath : CString)
  | chdir (path : CString)
  | setbootfs (fsname : CString)
  | create
  | destroy (q : Nat)

def System.opened (sys : System) : Except Errno AnyVnode → System
  | .ok vn => {sys with files := vn :: sys.files}
  | .error _ => sys

def System.created (sys : System) : Except Errno (Option Proc) → System
  | .ok (some proc) => {sys with procs := sys.procs++[proc]}
  | _ => sys

def System.destroys (sys : System) (q : Nat) : Option System :=
  match sys.procs[q]? with
  | none => none
  | some proc =>
    if q = 0 then none
    else (sys.calls 0 (procDestroy proc)).map fun ended => {ended.2 with procs := ended.2.procs.eraseIdx q}

def step (sys : System) (call : Nat × VfsCall) : Option System :=
  match call.2 with
  | .open path openflags =>
    (sys.calls call.1 (vfsOpen path.bytes openflags)).map fun ended => ended.2.opened ended.1
  | .close vn =>
    if vn ∈ sys.files then
      (sys.calls call.1 (vfsClose vn)).map fun ended => {ended.2 with files := ended.2.files.erase vn}
    else none
  | .remove path => (sys.calls call.1 (vfsRemove path.bytes)).map Prod.snd
  | .rename oldpath newpath => (sys.calls call.1 (vfsRename oldpath.bytes newpath.bytes)).map Prod.snd
  | .link oldpath newpath => (sys.calls call.1 (vfsLink oldpath.bytes newpath.bytes)).map Prod.snd
  | .chdir path => (sys.calls call.1 (vfsChdir path.bytes)).map Prod.snd
  | .setbootfs fsname => (sys.calls call.1 (vfsSetbootfs fsname.bytes)).map Prod.snd
  | .create => (sys.calls call.1 procCreateRunprogram).map fun ended => ended.2.created ended.1
  | .destroy q => sys.destroys q

def System.consoles (sys : System) : List AnyVnode := sys.procs.filterMap Proc.console
def System.cwds (sys : System) : List AnyVnode := sys.procs.filterMap Proc.cwd

def System.openers (sys : System) (vn : AnyVnode) : Nat := (sys.files++sys.consoles).count vn
def System.holders (sys : System) (vn : AnyVnode) : Nat :=
  (sys.files++sys.consoles++sys.cwds++sys.world.bootfs.toList).count vn

def Listed (table : List (KnownDev Nat FileSystem)) (k : Nat) : Prop := ∃ kd ∈ table, kd.kdDevice = some k

-- The kernel has mounted its volumes and knows its devices, and only kproc is there. No entry of the table is an
-- emulator.
structure Booted (sys : System) : Prop where
  procs : sys.procs = [⟨none,none⟩]
  files : sys.files = []
  cwd : sys.world.cwd = none
  bootfs : sys.world.bootfs = none
  unloaded : ∀ k i, (sys.world.volumes k).vnodes i = none
  closed : ∀ vn, sys.world.opencount vn = 0
  devices : ∀ k, Listed sys.world.table k → sys.world.deviceRefs k = 1
  volumes : ∀ kd ∈ sys.world.table, ∀ k, kd.kdFs ≠ some (.emu k)
end ToyOS.BigLock

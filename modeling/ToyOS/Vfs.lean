import ToyOS.Sfs

namespace ToyOS.Vfs
open Function Sfs UserSpace

-- A device of vfslist.c's table. One that can be mounted has a raw name. `volume` is the name of the volume mounted on
-- it, if any.
structure KnownDev where
  name : List UInt8
  rawname : Option (List UInt8)
  volume : Option (List UInt8)
  dOpen : BitVec 32 → Option Errno

-- The VFS layer over one mounted volume: the device table, the process's current directory, the vnode for paths that
-- start with a slash and how often each vnode is open. The volume's vnodes are named by inode number.
structure Layer where
  fs : State
  devices : List KnownDev
  cwd : Option Nat
  bootfs : Option Nat
  opencount : Nat → Nat

abbrev VfsOp := EStateM Fault Layer

-- vn_fs is null for a device.
inductive AnyVnode where
  | sfs (i : Nat)
  | device (kd : KnownDev)

def onSfs {α : Type} (m : Op α) : VfsOp α := fun v =>
  match m v.fs with
  | .ok a t => .ok a {v with fs := t}
  | .error e t => .error e {v with fs := t}

def giveBack {α : Type} : Except Errno α → VfsOp α
  | .ok a => pure a
  | .error errno => fail errno

def vopDecref : AnyVnode → VfsOp PUnit
  | .sfs i => onSfs (vnodeDecref i)
  | .device _ => pure ⟨⟩

def vopLookup (path : List UInt8) : AnyVnode → VfsOp AnyVnode
  | .sfs i => AnyVnode.sfs <$> onSfs (asDir i (sfsLookup i path))
  | .device kd => if path = [] then pure (.device kd) else fail .enoent

def nameMax : Nat := 255

def sfsLookparent (i : Nat) (path : List UInt8) : Op PUnit :=
  if nameMax+1 < path.length+1 then fail .enametoolong else vnodeIncref i

def vopLookparent (path : List UInt8) : AnyVnode → VfsOp AnyVnode
  | .sfs i => do
    onSfs (asDir i (sfsLookparent i path))
    pure (.sfs i)
  | .device _ => fail .enotdir

def vopCreat (name : List UInt8) (excl : Bool) : AnyVnode → VfsOp AnyVnode
  | .sfs i => AnyVnode.sfs <$> onSfs (asDir i (sfsCreat i name excl))
  | .device _ => fail .enotdir

def vopRemove (name : List UInt8) : AnyVnode → VfsOp PUnit
  | .sfs i => onSfs (asDir i (sfsRemove i name))
  | .device _ => fail .enotdir

def vopRename (n1 n2 : List UInt8) : AnyVnode → AnyVnode → VfsOp PUnit
  | .sfs d1,.sfs d2 => onSfs (asDir d1 do
    kassert (d1 == d2)
    sfsRename d1 n1 n2)
  | _,_ => fail .enotdir

def vopLink (name : List UInt8) : AnyVnode → AnyVnode → VfsOp PUnit
  | .sfs dir,.sfs file => onSfs do
    let _ ← vnodeOf file
    asDir dir (sfsLink dir name file)
  | _,_ => fail .enotdir

def vopTruncate (len : Nat) : AnyVnode → VfsOp PUnit
  | .sfs i => onSfs (asFile i (sfsTruncate i len))
  | .device _ => fail .einval

def oAccmode : BitVec 32 := 3
def oRdonly : BitVec 32 := 0
def oWronly : BitVec 32 := 1
def oRdwr : BitVec 32 := 2
def oCreat : BitVec 32 := 4
def oExcl : BitVec 32 := 8
def oTrunc : BitVec 32 := 16
def oAppend : BitVec 32 := 32
def has (openflags bits : BitVec 32) : Bool := openflags &&& bits != 0

def sfsOpen (openflags : BitVec 32) : Op PUnit :=
  if has openflags oAppend then fail .eunimp else pure ⟨⟩

def sfsOpendir (openflags : BitVec 32) : Op PUnit :=
  if openflags &&& oAccmode ≠ oRdonly then fail .eisdir
  else if has openflags oAppend then fail .eisdir
  else pure ⟨⟩

def devOpen (kd : KnownDev) (openflags : BitVec 32) : VfsOp PUnit :=
  if has openflags (oCreat ||| oTrunc ||| oExcl ||| oAppend) then fail .einval
  else match kd.dOpen openflags with
    | none => pure ⟨⟩
    | some errno => fail errno

def vopOpen (openflags : BitVec 32) : AnyVnode → VfsOp PUnit
  | .sfs i => onSfs do
    let v ← vnodeOf i
    if v.inode.type = typeDir then sfsOpendir openflags else sfsOpen openflags
  | .device kd => devOpen kd openflags

def vopIncopen : AnyVnode → VfsOp PUnit
  | .sfs i => modify fun v => {v with opencount := update v.opencount i (v.opencount i+1)}
  | .device _ => pure ⟨⟩

def vopDecopen : AnyVnode → VfsOp PUnit
  | .sfs i => do
    let v ← get
    kassert (v.opencount i != 0)
    modify fun v => {v with opencount := update v.opencount i (v.opencount i-1)}
    perform (v.opencount i-1 == 0) do
      let _ ← attempt (onSfs (sfsSyncInode i))
      pure ⟨⟩
  | .device _ => pure ⟨⟩

def vfsGetcurdir : VfsOp Nat := do
  let v ← get
  match v.cwd with
  | some i => do
    onSfs (vnodeIncref i)
    pure i
  | none => fail .enoent

def vfsGetroot (devname : List UInt8) : List KnownDev → VfsOp AnyVnode
  | [] => fail .enodev
  | kd :: rest =>
    match kd.volume with
    | some volname =>
      if kd.name = devname ∨ volname = devname then AnyVnode.sfs <$> onSfs sfsGetroot
      else if kd.rawname = some devname then pure (.device kd)
      else vfsGetroot devname rest
    | none =>
      if kd.rawname.isSome ∧ kd.name = devname then fail .enxio
      else if kd.name = devname then pure (.device kd)
      else if kd.rawname = some devname then pure (.device kd)
      else vfsGetroot devname rest

def colon : UInt8 := 58
def slash : UInt8 := 47

-- Where the translation of a path starts.
inductive Start where
  | curdir
  | device (devname : List UInt8)
  | bootfs
  | curfs

def skipSlashes (path : List UInt8) : List UInt8 := path.dropWhile (· == slash)

def splitPath (path : List UInt8) : Start × List UInt8 :=
  match path.takeWhile (fun c => c != colon && c != slash),path.dropWhile fun c => c != colon && c != slash with
  | _,[] => (.curdir,path)
  | [],c :: rest => (if c = slash then .bootfs else .curfs,skipSlashes rest)
  | devname,c :: rest => if c = colon then (.device devname,skipSlashes rest) else (.curdir,path)

def startVnode : Start → VfsOp AnyVnode
  | .curdir => AnyVnode.sfs <$> vfsGetcurdir
  | .device devname => do
    let v ← get
    vfsGetroot devname v.devices
  | .bootfs => do
    let v ← get
    match v.bootfs with
    | none => fail .enoent
    | some i => do
      onSfs (vnodeIncref i)
      pure (.sfs i)
  | .curfs => do
    let vn ← vfsGetcurdir
    let root ← onSfs sfsGetroot
    onSfs (vnodeDecref vn)
    pure (.sfs root)

def getdevice (path : List UInt8) : VfsOp (AnyVnode × List UInt8) := do
  let startvn ← startVnode (splitPath path).1
  pure (startvn,(splitPath path).2)

def vfsLookparent (path : List UInt8) : VfsOp (AnyVnode × List UInt8) := do
  let (startvn,subpath) ← getdevice path
  let result ← attempt (if subpath = [] then fail .einval else vopLookparent subpath startvn)
  vopDecref startvn
  let dir ← giveBack result
  pure (dir,subpath)

def vfsLookup (path : List UInt8) : VfsOp AnyVnode := do
  let (startvn,subpath) ← getdevice path
  if subpath = [] then pure startvn
  else do
    let result ← attempt (vopLookup subpath startvn)
    vopDecref startvn
    giveBack result

def findOpen (path : List UInt8) (openflags : BitVec 32) : VfsOp AnyVnode :=
  if has openflags oCreat then do
    let (dir,name) ← vfsLookparent path
    let result ← attempt (vopCreat name (has openflags oExcl) dir)
    vopDecref dir
    giveBack result
  else vfsLookup path

def openTruncate (openflags : BitVec 32) (canwrite : Bool) (vn : AnyVnode) : VfsOp PUnit :=
  perform (has openflags oTrunc) do
    let result ← attempt (if canwrite then vopTruncate 0 vn else fail .einval)
    match result with
    | .ok _ => pure ⟨⟩
    | .error errno => do
      vopDecopen vn
      vopDecref vn
      fail errno

def openWith (path : List UInt8) (openflags : BitVec 32) (canwrite : Bool) : VfsOp AnyVnode := do
  let vn ← findOpen path openflags
  let result ← attempt (vopOpen openflags vn)
  match result with
  | .error errno => do
    vopDecref vn
    fail errno
  | .ok _ => do
    vopIncopen vn
    openTruncate openflags canwrite vn
    pure vn

def vfsOpen (path : List UInt8) (openflags : BitVec 32) : VfsOp AnyVnode :=
  if openflags &&& oAccmode = oRdonly then openWith path openflags false
  else if openflags &&& oAccmode = oWronly ∨ openflags &&& oAccmode = oRdwr then openWith path openflags true
  else fail .einval

def vfsClose (vn : AnyVnode) : VfsOp PUnit := do
  vopDecopen vn
  vopDecref vn

def vfsRemove (path : List UInt8) : VfsOp PUnit := do
  let (dir,name) ← vfsLookparent path
  let result ← attempt (vopRemove name dir)
  vopDecref dir
  giveBack result

def sameFs : AnyVnode → AnyVnode → Bool
  | .sfs _,.sfs _ => true
  | _,_ => false

def vfsRename (oldpath newpath : List UInt8) : VfsOp PUnit := do
  let (olddir,oldname) ← vfsLookparent oldpath
  let found ← attempt (vfsLookparent newpath)
  match found with
  | .error errno => do
    vopDecref olddir
    fail errno
  | .ok (newdir,newname) => do
    let result ← attempt (if sameFs olddir newdir then vopRename oldname newname olddir newdir else fail .exdev)
    vopDecref newdir
    vopDecref olddir
    giveBack result

def linkFile (oldfile : AnyVnode) (newpath : List UInt8) : VfsOp PUnit := do
  let found ← attempt (vfsLookparent newpath)
  match found with
  | .error errno => do
    vopDecref oldfile
    fail errno
  | .ok (newdir,newname) => do
    let result ← attempt (if sameFs oldfile newdir then vopLink newname newdir oldfile else fail .exdev)
    vopDecref newdir
    vopDecref oldfile
    giveBack result

def vfsLink (oldpath newpath : List UInt8) : VfsOp PUnit := do
  let oldfile ← vfsLookup oldpath
  linkFile oldfile newpath

def isDir : AnyVnode → VfsOp Bool
  | .sfs i => onSfs do
    let v ← vnodeOf i
    pure (v.inode.type == typeDir)
  | .device _ => pure false

def dropOld : Option Nat → VfsOp PUnit
  | some i => onSfs (vnodeDecref i)
  | none => pure ⟨⟩

def vfsSetcurdir (dir : AnyVnode) : VfsOp PUnit := do
  let type ← isDir dir
  match type,dir with
  | true,.sfs i => do
    onSfs (vnodeIncref i)
    let v ← get
    modify fun v => {v with cwd := some i}
    dropOld v.cwd
  | _,_ => fail .enotdir

def vfsChdir (path : List UInt8) : VfsOp PUnit := do
  let vn ← vfsLookup path
  let result ← attempt (vfsSetcurdir vn)
  vopDecref vn
  giveBack result

def changeBootfs (newvn : Nat) : VfsOp PUnit := do
  let v ← get
  modify fun v => {v with bootfs := some newvn}
  dropOld v.bootfs

def vfsSetbootfs (fsname : List UInt8) : VfsOp PUnit :=
  if colon ∈ fsname.take (nameMax-1) then fail .einval
  else do
    vfsChdir (fsname.take (nameMax-1)++[colon])
    let newguy ← vfsGetcurdir
    changeBootfs newguy

-- The calls of the menu and the system calls. Each path has a buffer of its own.
inductive VfsCall where
  | chdir (path : CString)
  | setbootfs (fsname : CString)
  | open (path : CString) (openflags : BitVec 32)
  | close (vn : AnyVnode)
  | remove (path : CString)
  | rename (oldpath newpath : CString)
  | link (oldpath newpath : CString)

def vfsCall : VfsCall → VfsOp PUnit
  | .chdir path => vfsChdir path.bytes
  | .setbootfs fsname => vfsSetbootfs fsname.bytes
  | .open path openflags => do
    let _ ← vfsOpen path.bytes openflags
    pure ⟨⟩
  | .close vn => vfsClose vn
  | .remove path => vfsRemove path.bytes
  | .rename oldpath newpath => vfsRename oldpath.bytes newpath.bytes
  | .link oldpath newpath => vfsLink oldpath.bytes newpath.bytes

def returned (v : Layer) (c : VfsCall) : Option (Except Errno Unit × Layer) :=
  match vfsCall c v with
  | .ok _ t => some (.ok (),t)
  | .error (.errno errno) t => some (.error errno,t)
  | .error .panic _ => none

def vfsStep (v : Layer) (c : VfsCall) : Option Layer := (returned v c).map Prod.snd
def booted (fs : State) (devices : List KnownDev) : Layer := ⟨fs,devices,none,none,fun _ => 0⟩
end ToyOS.Vfs

import ToyOS.SfsFormat
import ToyOS.UserSpace
import ToyOS.Library.ByteMemory

namespace ToyOS.Sfs
open Function Words UserSpace ByteMemory

inductive Fault where
  | panic
  | errno (errno : Errno)

-- struct sfs_vnode; its number is the key it is found under.
structure Vnode where
  inode : Inode
  dirty : Bool
  refcount : Nat

-- struct sfs_fs and its device. `device n` is the error, not ENOENT, that sfs_rwblock returns after its retries for the
-- transfer `n`; a transfer that fails changes nothing. `memory n` says whether kmalloc serves the request `n`. Nothing
-- sets sfs_superdirty, so the superblock is never written. `reclaimErrors` are what VOP_RECLAIM has returned to
-- vnode_decref; nothing reads them.
structure State where
  disk : Nat → Block
  dBlocks : Nat
  nblocks : Nat
  freemap : Nat → Bool
  freemapDirty : Bool
  vnodes : Nat → Option Vnode
  device : Nat → Option Errno
  ios : Nat
  memory : Nat → Bool
  mallocs : Nat
  reclaimErrors : List Errno

abbrev Op := EStateM Fault State

section
variable {σ α : Type}

def panics : EStateM Fault σ α := throw .panic
def fail (errno : Errno) : EStateM Fault σ α := throw (.errno errno)
def kassert (holds : Bool) : EStateM Fault σ PUnit := if holds then pure ⟨⟩ else panics
def perform (condition : Bool) (m : EStateM Fault σ PUnit) : EStateM Fault σ PUnit :=
  if condition then m else pure ⟨⟩

def attempt (m : EStateM Fault σ α) : EStateM Fault σ (Except Errno α) := fun s =>
  match m s with
  | .ok a t => .ok (.ok a) t
  | .error (.errno errno) t => .ok (.error errno) t
  | .error .panic t => .error .panic t

end

def inRange (block : Nat) : Op PUnit := do
  let s ← get
  kassert (block < s.dBlocks)

def transfer (block : Nat) : Op PUnit := do
  inRange block
  let s ← get
  set {s with ios := s.ios+1}
  match s.device s.ios with
  | none => pure ⟨⟩
  | some .einval => panics
  | some errno => fail errno

def sfsRblock (block : Nat) : Op Block := do
  transfer block
  let s ← get
  pure (s.disk block)

def sfsWblock (data : Block) (block : Nat) : Op PUnit := do
  transfer block
  modify fun s => {s with disk := update s.disk block data}

def sfsClearblock (block : Nat) : Op PUnit := sfsWblock zeros block

def kmalloc : Op PUnit := do
  let s ← get
  set {s with mallocs := s.mallocs+1}
  if s.memory s.mallocs then pure ⟨⟩ else fail .enomem

def vnodeOf (i : Nat) : Op Vnode := do
  let s ← get
  match s.vnodes i with
  | some v => pure v
  | none => panics

def State.putVnode (s : State) (i : Nat) (v : Vnode) : State :=
  {s with vnodes := update s.vnodes i (some v)}

def setVnode (i : Nat) (v : Vnode) : Op PUnit := modify fun s => s.putVnode i v

def updateInode (i : Nat) (f : Inode → Inode) : Op PUnit := do
  let v ← vnodeOf i
  setVnode i {v with inode := f v.inode,dirty := true}

def sfsSyncInode (i : Nat) : Op PUnit := do
  let v ← vnodeOf i
  perform v.dirty do
    sfsWblock (encodeInode v.inode) i
    setVnode i {v with dirty := false}

def sfsBalloc : Op Nat := do
  let s ← get
  match (List.range (bitmapSize s.nblocks)).find? (fun b => !s.freemap b) with
  | none => fail .enospc
  | some block => do
    set {s with freemap := update s.freemap block true,freemapDirty := true}
    kassert (block < s.nblocks)
    sfsClearblock block
    pure block

def State.free (s : State) (block : Nat) : State :=
  {s with freemap := update s.freemap block false,freemapDirty := true}

def sfsBfree (block : Nat) : Op PUnit := do
  let s ← get
  kassert (block < bitmapSize s.nblocks && s.freemap block)
  set (s.free block)

def sfsBused (block : Nat) : Op Bool := do
  let s ← get
  kassert (block < s.nblocks)
  pure (s.freemap block)

def Inode.setDirect (n : Inode) (k : Fin nDirect) (block : Nat) : Inode :=
  {n with direct := update n.direct k (BitVec.ofNat 32 block)}

def Inode.setIndirect (n : Inode) (block : Nat) : Inode := {n with indirect := BitVec.ofNat 32 block}

def checkUsed (block : Nat) : Op PUnit :=
  if block = 0 then pure ⟨⟩ else do
    let used ← sfsBused block
    kassert used

def directBlock (i : Nat) (k : Fin nDirect) (doalloc : Bool) : Op Nat := do
  let v ← vnodeOf i
  if (v.inode.direct k).toNat = 0 ∧ doalloc = true then do
    let block ← sfsBalloc
    updateInode i fun n => n.setDirect k block
    pure block
  else pure (v.inode.direct k).toNat

def indirectBlock (i : Nat) : Op (Nat × (Fin dbPerIdb → BitVec 32)) := do
  let v ← vnodeOf i
  if v.inode.indirect.toNat = 0 then do
    let idblock ← sfsBalloc
    updateInode i fun n => n.setIndirect idblock
    pure (idblock,fun _ => 0)
  else do
    let data ← sfsRblock v.inode.indirect.toNat
    pure (v.inode.indirect.toNat,entries data)

def entryBlock (i : Nat) (k : Fin dbPerIdb) (doalloc : Bool) : Op Nat := do
  let v ← vnodeOf i
  if v.inode.indirect.toNat = 0 ∧ doalloc = false then pure 0
  else do
    let (idblock,idbuf) ← indirectBlock i
    if (idbuf k).toNat = 0 ∧ doalloc = true then do
      let block ← sfsBalloc
      sfsWblock (encodeEntries (update idbuf k (BitVec.ofNat 32 block))) idblock
      pure block
    else pure (idbuf k).toNat

def findBlock (i : Nat) (fileblock : Nat) (doalloc : Bool) : Op Nat :=
  if direct : fileblock < nDirect then directBlock i ⟨fileblock,direct⟩ doalloc
  else if 0 < (fileblock-nDirect)/dbPerIdb then fail .efbig
  else entryBlock i ⟨(fileblock-nDirect) % dbPerIdb,Nat.mod_lt _ (by decide)⟩ doalloc

def sfsBmap (i : Nat) (fileblock : Nat) (doalloc : Bool) : Op Nat := do
  let block ← findBlock i fileblock doalloc
  checkUsed block
  pure block

-- struct uio with one buffer, of which `moved` bytes are done. Only its first `limit` bytes can be accessed, if there
-- is a limit.
structure Uio where
  write : Bool
  offset : Nat
  resid : Nat
  moved : Nat
  data : Nat → UInt8
  limit : Option Nat

def uioKinit (data : Nat → UInt8) (len pos : Nat) (write : Bool) : Uio :=
  ⟨write,pos,len,0,data,none⟩

def Uio.reaches (u : Uio) (n : Nat) : Bool :=
  match u.limit with
  | none => true
  | some limit => u.moved+n ≤ limit

def Uio.advance (u : Uio) (n : Nat) : Uio :=
  {u with offset := u.offset+n,resid := u.resid-n,moved := u.moved+n}

structure Io where
  fs : State
  uio : Uio

abbrev IoOp := EStateM Fault Io

def onFs {α : Type} (m : Op α) : IoOp α := fun io =>
  match m io.fs with
  | .ok a t => .ok a {io with fs := t}
  | .error e t => .error e {io with fs := t}

def withUio {α : Type} (u : Uio) (m : IoOp α) : Op (α × Uio) := fun s =>
  match m ⟨s,u⟩ with
  | .ok a io => .ok (a,io.uio) io.fs
  | .error e io => .error e io.fs

def Uio.take (u : Uio) (buffer : Block) (start n : Nat) : Block := splice buffer start n u.data u.moved

def Uio.put (u : Uio) (buffer : Block) (start n : Nat) : Uio :=
  {u.advance n with data := splice u.data u.moved n buffer start}

def moveBytes (buffer : Block) (start n : Nat) : IoOp Block := do
  let io ← get
  if 0 < n ∧ io.uio.reaches n = false then fail .efault
  else if io.uio.write then do
    set {io with uio := io.uio.advance n}
    pure (io.uio.take buffer start n)
  else do
    set {io with uio := io.uio.put buffer start n}
    pure buffer

def uiomove (buffer : Block) (start n : Nat) : IoOp Block := do
  let io ← get
  moveBytes buffer start (min n io.uio.resid)

def uiomovezeros : Nat → IoOp PUnit
  | 0 => pure ⟨⟩
  | n+1 => do
    let _ ← uiomove zeros 0 16
    uiomovezeros n

def fileblockOf (u : Uio) : Nat := u.offset/blockSize % 2^32

def readBlock (diskblock : Nat) (write : Bool) : Op Block :=
  if diskblock = 0 then do
    kassert (!write)
    pure zeros
  else sfsRblock diskblock

def sfsPartialio (i skipstart len : Nat) : IoOp PUnit := do
  kassert (skipstart+len ≤ blockSize)
  let io ← get
  let diskblock ← onFs (sfsBmap i (fileblockOf io.uio) io.uio.write)
  let iobuf ← onFs (readBlock diskblock io.uio.write)
  let iobuf ← uiomove iobuf skipstart len
  perform io.uio.write (onFs (sfsWblock iobuf diskblock))

def sectorOf (diskblock : Nat) : Nat := diskblock*blockSize % 2^32/blockSize

def sfsBlockio (i : Nat) : IoOp PUnit := do
  let io ← get
  let diskblock ← onFs (sfsBmap i (fileblockOf io.uio) io.uio.write)
  if diskblock = 0 then do
    kassert (!io.uio.write)
    uiomovezeros (blockSize/16)
  else do
    kassert (blockSize ≤ io.uio.resid)
    if io.uio.write then do
      onFs (inRange (sectorOf diskblock))
      let data ← uiomove zeros 0 blockSize
      onFs (sfsWblock data (sectorOf diskblock))
    else do
      let data ← onFs (sfsRblock (sectorOf diskblock))
      let _ ← uiomove data 0 blockSize
      pure ⟨⟩

def blockLoop (i : Nat) : Nat → IoOp PUnit
  | 0 => pure ⟨⟩
  | n+1 => do
    sfsBlockio i
    blockLoop i n

def alignedIo (i : Nat) : IoOp PUnit := do
  let io ← get
  if io.uio.resid = 0 then pure ⟨⟩
  else do
    kassert (io.uio.offset % blockSize == 0)
    blockLoop i (io.uio.resid/blockSize)
    let io ← get
    kassert (io.uio.resid < blockSize)
    perform (0 < io.uio.resid) (sfsPartialio i 0 io.uio.resid)

def regionIo (i : Nat) : IoOp PUnit := do
  let io ← get
  perform (io.uio.offset % blockSize ≠ 0) (sfsPartialio i (io.uio.offset % blockSize)
    (min (blockSize-io.uio.offset % blockSize) io.uio.resid))
  alignedIo i

def growSize (i : Nat) : IoOp PUnit := do
  let io ← get
  let v ← onFs (vnodeOf i)
  perform (io.uio.write && v.inode.size.toNat < io.uio.offset)
    (onFs (updateInode i fun n => {n with size := BitVec.ofNat 32 io.uio.offset}))

def setResid (resid : Nat) : IoOp PUnit := modify fun io => {io with uio := {io.uio with resid}}

def returnResult (result : Except Errno PUnit) : IoOp PUnit :=
  match result with
  | .ok _ => pure ⟨⟩
  | .error errno => fail errno

def clippedIo (i extraresid : Nat) : IoOp PUnit := do
  let io ← get
  perform (extraresid ≠ 0) do
    kassert (extraresid < io.uio.resid)
    setResid (io.uio.resid-extraresid)
  let result ← attempt (regionIo i)
  growSize i
  modify fun io => {io with uio := {io.uio with resid := io.uio.resid+extraresid}}
  returnResult result

def sfsIo (i : Nat) : IoOp PUnit := do
  let io ← get
  let v ← onFs (vnodeOf i)
  if io.uio.write then clippedIo i 0
  else if v.inode.size.toNat ≤ io.uio.offset then pure ⟨⟩
  else clippedIo i (io.uio.offset+io.uio.resid-v.inode.size.toNat)

def sfsReaddir (i slot : Nat) : Op (Nat → UInt8) := do
  let (_,u) ← withUio (uioKinit zeros sizeofDir (slot*sizeofDir) false) (sfsIo i)
  kassert (u.resid == 0)
  pure u.data

def sfsWritedir (i : Nat) (sd : Nat → UInt8) (slot : Nat) : Op PUnit := do
  let (_,u) ← withUio (uioKinit sd sizeofDir (slot*sizeofDir) true) (sfsIo i)
  kassert (u.resid == 0)

def sfsDirNentries (i : Nat) : Op Nat := do
  let v ← vnodeOf i
  kassert (v.inode.type == typeDir)
  kassert (v.inode.size.toNat % sizeofDir == 0)
  pure (v.inode.size.toNat/sizeofDir)

-- The inode number and the slot of a name, and an empty slot.
structure Search where
  hit : Option (Nat × Nat)
  empty : Option Nat

def findFrom (i : Nat) (name : List UInt8) : Nat → Nat → Search → Op Search
  | 0,_,found => pure found
  | n+1,slot,found => do
    let tsd ← sfsReaddir i slot
    if entryIno tsd 0 = noIno then findFrom i name n (slot+1) {found with empty := some slot}
    else if entryName tsd 0 = name then do
      kassert found.hit.isNone
      findFrom i name n (slot+1) {found with hit := some (entryIno tsd 0,slot)}
    else findFrom i name n (slot+1) found

def sfsDirFindname (i : Nat) (name : List UInt8) : Op Search := do
  let nentries ← sfsDirNentries i
  findFrom i name nentries 0 ⟨none,none⟩

def sfsDirLink (i : Nat) (name : List UInt8) (ino : Nat) : Op Nat := do
  let found ← sfsDirFindname i name
  if found.hit.isSome then fail .eexist
  else if nameLen < name.length+1 then fail .enametoolong
  else do
    let nentries ← sfsDirNentries i
    let slot := found.empty.getD nentries
    sfsWritedir i (dirBytes (BitVec.ofNat 32 ino) name) slot
    pure slot

def sfsDirUnlink (i slot : Nat) : Op PUnit :=
  sfsWritedir i (dirBytes (BitVec.ofNat 32 noIno) []) slot

def readVnode (ino : Nat) (forcetype : BitVec 16) : Op PUnit := do
  kmalloc
  let used ← sfsBused ino
  kassert used
  let data ← sfsRblock ino
  kassert (forcetype == typeInval || (decodeInode data).type == typeInval)
  let inode := if forcetype = typeInval then decodeInode data else {decodeInode data with type := forcetype}
  kassert (inode.type == typeFile || inode.type == typeDir)
  kmalloc
  setVnode ino ⟨inode,forcetype != typeInval,1⟩

def sfsLoadvnode (ino : Nat) (forcetype : BitVec 16) : Op PUnit := do
  let s ← get
  kassert ((List.range s.nblocks).all fun j => (s.vnodes j).isNone || s.freemap j)
  match s.vnodes ino with
  | some v => do
    kassert (forcetype == typeInval)
    setVnode ino {v with refcount := v.refcount+1}
  | none => readVnode ino forcetype

def sfsLookonce (i : Nat) (name : List UInt8) : Op (Nat × Nat) := do
  let found ← sfsDirFindname i name
  match found.hit with
  | none => fail .enoent
  | some (ino,slot) => do
    sfsLoadvnode ino typeInval
    let v ← vnodeOf ino
    kassert (v.inode.linkcount != 0)
    pure (ino,slot)

def sfsMakeobj (type : BitVec 16) : Op Nat := do
  let ino ← sfsBalloc
  sfsLoadvnode ino type
  pure ino

def freeDirect (i blocklen : Nat) : List (Fin nDirect) → Op PUnit
  | [] => pure ⟨⟩
  | k :: rest => do
    let v ← vnodeOf i
    perform (blocklen ≤ k && (v.inode.direct k).toNat != 0) do
      sfsBfree (v.inode.direct k).toNat
      updateInode i fun n => n.setDirect k 0
    freeDirect i blocklen rest

-- idbuf, iddirty and hasnonzero
structure Indirect where
  idbuf : Fin dbPerIdb → BitVec 32
  dirty : Bool
  nonzero : Bool

def freeEntries (blocklen : Nat) : List (Fin dbPerIdb) → Indirect → Op Indirect
  | [],id => pure id
  | k :: rest,id =>
    if blocklen < nDirect+k ∧ (id.idbuf k).toNat ≠ 0 then do
      sfsBfree (id.idbuf k).toNat
      freeEntries blocklen rest {id with idbuf := update id.idbuf k 0,dirty := true}
    else freeEntries blocklen rest {id with nonzero := id.nonzero || (id.idbuf k).toNat != 0}

def truncateIndirect (i blocklen : Nat) : Op PUnit := do
  let v ← vnodeOf i
  let idblock := v.inode.indirect.toNat
  perform (blocklen < nDirect+dbPerIdb-1 && idblock != 0) do
    let data ← sfsRblock idblock
    let id ← freeEntries blocklen (List.finRange dbPerIdb) ⟨entries data,false,false⟩
    if id.nonzero = false then do
      sfsBfree idblock
      updateInode i fun n => n.setIndirect 0
    else perform id.dirty (sfsWblock (encodeEntries id.idbuf) idblock)

def sfsTruncate (i len : Nat) : Op PUnit := do
  let blocklen := (len+blockSize-1)/blockSize % 2^32
  freeDirect i blocklen (List.finRange nDirect)
  truncateIndirect i blocklen
  updateInode i fun n => {n with size := BitVec.ofNat 32 len}

def asFile {α : Type} (i : Nat) (m : Op α) : Op α := do
  let v ← vnodeOf i
  if v.inode.type = typeDir then fail .eisdir else m

def asDir {α : Type} (i : Nat) (m : Op α) : Op α := do
  let v ← vnodeOf i
  if v.inode.type = typeDir then m else fail .enotdir

def sfsReclaim (i : Nat) : Op PUnit := do
  let v ← vnodeOf i
  if v.refcount ≠ 1 then do
    kassert (1 < v.refcount)
    setVnode i {v with refcount := v.refcount-1}
    fail .ebusy
  else do
    perform (v.inode.linkcount == 0) (asFile i (sfsTruncate i 0))
    sfsSyncInode i
    perform (v.inode.linkcount == 0) (sfsBfree i)
    modify fun s => {s with vnodes := update s.vnodes i none}

def reportReclaim : Except Errno PUnit → Op PUnit
  | .ok _ => pure ⟨⟩
  | .error errno => modify fun s => {s with reclaimErrors := errno :: s.reclaimErrors}

def vnodeDecref (i : Nat) : Op PUnit := do
  let v ← vnodeOf i
  kassert (0 < v.refcount)
  if 1 < v.refcount then setVnode i {v with refcount := v.refcount-1}
  else do
    let result ← attempt (sfsReclaim i)
    reportReclaim result

def vnodeIncref (i : Nat) : Op PUnit := do
  let v ← vnodeOf i
  setVnode i {v with refcount := v.refcount+1}

def Inode.addLink (n : Inode) : Inode := {n with linkcount := n.linkcount+1}
def Inode.dropLink (n : Inode) : Inode := {n with linkcount := n.linkcount-1}

def dropLink (i : Nat) : Op PUnit := do
  let v ← vnodeOf i
  kassert (v.inode.linkcount != 0)
  updateInode i Inode.dropLink

def sfsCreat (dir : Nat) (name : List UInt8) (excl : Bool) : Op Nat := do
  let found ← sfsDirFindname dir name
  match found.hit with
  | some (ino,_) =>
    if excl then fail .eexist else do
      sfsLoadvnode ino typeInval
      pure ino
  | none => do
    let ino ← sfsMakeobj typeFile
    let result ← attempt (sfsDirLink dir name ino)
    match result with
    | .error errno => do
      vnodeDecref ino
      fail errno
    | .ok _ => do
      updateInode ino Inode.addLink
      pure ino

def sfsLink (dir : Nat) (name : List UInt8) (file : Nat) : Op PUnit := do
  let _ ← sfsDirLink dir name file
  updateInode file Inode.addLink

def sfsRemove (dir : Nat) (name : List UInt8) : Op PUnit := do
  let (victim,slot) ← sfsLookonce dir name
  let result ← attempt (sfsDirUnlink dir slot)
  match result with
  | .ok _ => do
    dropLink victim
    vnodeDecref victim
  | .error errno => do
    vnodeDecref victim
    fail errno

def sfsRename (dir : Nat) (n1 n2 : List UInt8) : Op PUnit := do
  kassert (dir == rootLocation)
  let (g1,slot1) ← sfsLookonce dir n1
  let v ← vnodeOf g1
  kassert (v.inode.type == typeFile)
  let result ← attempt (sfsDirLink dir n2 g1)
  match result with
  | .error errno => do
    vnodeDecref g1
    fail errno
  | .ok slot2 => do
    updateInode g1 Inode.addLink
    let result ← attempt (sfsDirUnlink dir slot1)
    match result with
    | .ok _ => do
      dropLink g1
      vnodeDecref g1
    | .error errno => do
      let result2 ← attempt (sfsDirUnlink dir slot2)
      match result2 with
      | .error _ => panics
      | .ok _ => do
        let v ← vnodeOf g1
        setVnode g1 {v with inode := v.inode.dropLink}
        vnodeDecref g1
        fail errno

def sfsLookup (dir : Nat) (name : List UInt8) : Op Nat := do
  let (ino,_) ← sfsLookonce dir name
  pure ino

def sfsGetroot : Op Nat := do
  let result ← attempt (sfsLoadvnode rootLocation typeInval)
  match result with
  | .ok _ => pure rootLocation
  | .error _ => panics

def syncVnodes : List Nat → Op PUnit
  | [] => pure ⟨⟩
  | i :: rest => do
    let s ← get
    perform (s.vnodes i).isSome do
      let _ ← attempt (sfsSyncInode i)
      pure ⟨⟩
    syncVnodes rest

def writeMap : List Nat → Op PUnit
  | [] => pure ⟨⟩
  | j :: rest => do
    let s ← get
    sfsWblock (mapBlock s.freemap j) (mapLocation+j)
    writeMap rest

def readMap : List Nat → Op PUnit
  | [] => pure ⟨⟩
  | j :: rest => do
    let data ← sfsRblock (mapLocation+j)
    modify fun s => {s with
      freemap := fun b => if b/blockBits = j then bitAt data (b % blockBits) else s.freemap b}
    readMap rest

def sfsSync : Op PUnit := do
  let s ← get
  syncVnodes (List.range s.nblocks)
  let s ← get
  perform s.freemapDirty do
    writeMap (List.range (bitBlocks s.nblocks))
    modify fun s => {s with freemapDirty := false}

def sfsUnmount : Op PUnit := do
  let s ← get
  if (List.range s.nblocks).any fun i => (s.vnodes i).isSome then fail .ebusy
  else kassert (!s.freemapDirty)

def sfsDomount : Op PUnit := do
  kmalloc
  kmalloc
  let sup ← sfsRblock sbLocation
  if wordAt sup 0 ≠ magic then fail .einval
  else do
    kmalloc
    modify fun s => {s with
      nblocks := (wordAt sup 4).toNat,
      freemap := fun b => bitmapSize (wordAt sup 4).toNat ≤ b}
    readMap (List.range (bitBlocks (wordAt sup 4).toNat))
    modify fun s => {s with freemapDirty := false,vnodes := fun _ => none}

def maxBitBlocks : Nat := 32

def doallocbit (bits : Nat → Bool) (bit : Nat) : Option (Nat → Bool) :=
  if bits bit then none else some (update bits bit true)

def mksfsBits (fsblocks : Nat) : List Nat :=
  [sbLocation,rootLocation]++(List.range (bitBlocks fsblocks)).map (mapLocation+·)++
  (List.range (bitmapSize fsblocks-fsblocks)).map (fsblocks+·)

def diskwrite (nblocks : Nat) (disk : Nat → Block) (write : Nat × Block) : Option (Nat → Block) :=
  if write.1 < nblocks then some (update disk write.1 write.2) else none

def rootInode : Inode := ⟨0,typeDir,1,fun _ => 0,0⟩

def mksfs (disk : Nat → Block) (nblocks : Nat) (volname : List UInt8) : Option (Nat → Block) :=
  if volnameSize ≤ volname.length ∨ maxBitBlocks < bitBlocks nblocks then none
  else ((mksfsBits nblocks).foldlM doallocbit fun _ => false).bind fun bits =>
    ([(sbLocation,superBlock nblocks volname),(rootLocation,encodeInode rootInode)]++
      (List.range (bitBlocks nblocks)).map fun j => (mapLocation+j,mapBlock bits j)).foldlM
      (diskwrite nblocks) disk

-- A string of the VFS layer, without the null that ends it.
structure CString where
  bytes : List UInt8
  ended : 0 ∉ bytes

-- The calls of the VFS layer.
inductive Call where
  | getroot
  | lookup (dir : Nat) (name : CString)
  | creat (dir : Nat) (name : CString) (excl : Bool)
  | link (dir : Nat) (name : CString) (file : Nat)
  | remove (dir : Nat) (name : CString)
  | rename (dir : Nat) (n1 n2 : CString)
  | read (i : Nat) (uio : Uio)
  | write (i : Nat) (uio : Uio)
  | truncate (i len : Nat)
  | incref (i : Nat)
  | decref (i : Nat)
  | fsync (i : Nat)
  | sync

inductive Answer where
  | done
  | vnode (i : Nat)
  | moved (uio : Uio)

def sfsRead (i : Nat) (u : Uio) : Op Uio := do
  kassert (!u.write)
  let (_,u) ← withUio u (sfsIo i)
  pure u

def sfsWrite (i : Nat) (u : Uio) : Op Uio := do
  kassert u.write
  let (_,u) ← withUio u (sfsIo i)
  pure u

def call : Call → Op Answer
  | .getroot => Answer.vnode <$> sfsGetroot
  | .lookup dir name => Answer.vnode <$> asDir dir (sfsLookup dir name.bytes)
  | .creat dir name excl => Answer.vnode <$> asDir dir (sfsCreat dir name.bytes excl)
  | .link dir name file => do
    let _ ← vnodeOf file
    asDir dir (sfsLink dir name.bytes file)
    pure .done
  | .remove dir name => do
    asDir dir (sfsRemove dir name.bytes)
    pure .done
  | .rename dir n1 n2 => do
    asDir dir (sfsRename dir n1.bytes n2.bytes)
    pure .done
  | .read i u => Answer.moved <$> asFile i (sfsRead i u)
  | .write i u => Answer.moved <$> asFile i (sfsWrite i u)
  | .truncate i len => do
    asFile i (sfsTruncate i len)
    pure .done
  | .incref i => do
    vnodeIncref i
    pure .done
  | .decref i => do
    vnodeDecref i
    pure .done
  | .fsync i => do
    sfsSyncInode i
    pure .done
  | .sync => do
    sfsSync
    pure .done

def returns (s : State) (c : Call) : Option (Except Errno Answer × State) :=
  match call c s with
  | .ok answer t => some (.ok answer,t)
  | .error (.errno errno) t => some (.error errno,t)
  | .error .panic _ => none

def step (s : State) (c : Call) : Option State := (returns s c).map Prod.snd

def unmounted (disk : Nat → Block) (dBlocks : Nat) (device : Nat → Option Errno)
    (memory : Nat → Bool) : State :=
  ⟨disk,dBlocks,0,fun _ => true,false,fun _ => none,device,0,memory,0,[]⟩
end ToyOS.Sfs

import ToyOS.Sfs

namespace ToyOS.Sfsck
open Function Words Sfs

-- How the program ends early: err and errx with their code, a failed assertion or an access outside an array, and a
-- recursion deeper than the fuel of `checkDir`.
inductive Stop where
  | exit (code : Nat)
  | abort
  | deeper
  deriving DecidableEq

def exitFatal : Nat := 3
def exitUnrecov : Nat := 2
def exitClean : Nat := 0
def exitRecov : Nat := 1

structure InodeMemory where
  ino : Nat
  linkcount : Nat

def roundup (a b : Nat) : Nat := (a+b-1) % 2^32/b*b % 2^32
def sizeBlocks (sfi : Inode) : Nat := roundup sfi.size.toNat blockSize/blockSize

-- The disk and the variables of the program, which only prints its counts and messages. The two bitmaps are given by
-- their bits. `memory n` says whether malloc serves the request `n`.
structure Fsck where
  disk : Nat → Block
  dBlocks : Nat
  nblocks : Nat
  bitblocks : Nat
  bitmapdata : Nat → Bool
  tofreedata : Nat → Bool
  badness : Nat
  uniquecounter : Nat
  inodes : Nat → InodeMemory
  ninodes : Nat
  maxinodes : Nat
  memory : Nat → Bool
  mallocs : Nat

abbrev Ck := EStateM Stop Fsck

def errx {α : Type} (code : Nat) : Ck α := throw (.exit code)
def assert (holds : Bool) : Ck PUnit := if holds then pure ⟨⟩ else throw .abort
def flagged (flag : Bool) (m : Ck PUnit) : Ck PUnit := if flag then m else pure ⟨⟩
def setbadness (code : Nat) : Ck PUnit := modify fun s => {s with badness := max s.badness code}

def diskread (block : Nat) : Ck Block := do
  let s ← get
  if sectorOf block < s.dBlocks then pure (s.disk (sectorOf block)) else errx 1

def diskwrite (data : Block) (block : Nat) : Ck PUnit := do
  let s ← get
  if sectorOf block < s.dBlocks then set {s with disk := update s.disk (sectorOf block) data} else errx 1

def domalloc : Ck PUnit := do
  let s ← get
  set {s with mallocs := s.mallocs+1}
  if s.memory s.mallocs then pure ⟨⟩ else errx exitFatal

-- blockusage_t, as far as bitmap_mark tells the uses apart.
inductive Usage where
  | used
  | tofree
  | pastend

def markTofree (block : Nat) : Ck PUnit := do
  let s ← get
  if s.tofreedata block || s.bitmapdata block then pure ⟨⟩
  else set {s with tofreedata := update s.tofreedata block true}

def bitmapMark (block : Nat) (how : Usage) : Ck PUnit := do
  let s ← get
  assert (block < s.bitblocks*blockBits)
  match how with
  | .tofree => markTofree block
  | _ => do
    flagged (s.bitmapdata block) (setbadness exitUnrecov)
    modify fun s => {s with
      tofreedata := update s.tofreedata block false,
      bitmapdata := update s.bitmapdata block true}

def markAll (how : Usage) : List Nat → Ck PUnit
  | [] => pure ⟨⟩
  | block :: rest => do
    bitmapMark block how
    markAll how rest

def addmemory (ino linkcount : Nat) : Ck PUnit := do
  let s ← get
  assert (s.ninodes ≤ s.maxinodes)
  if s.ninodes = s.maxinodes then domalloc else pure ⟨⟩
  modify fun s => {s with inodes := update s.inodes s.ninodes ⟨ino,linkcount⟩}

def remembered (s : Fsck) (ino : Nat) : Option Nat := (List.range s.ninodes).find? fun i => (s.inodes i).ino == ino

def rememberDir (ino : Nat) : Ck Bool := do
  let s ← get
  match remembered s ino with
  | some i => do
    assert ((s.inodes i).linkcount == 0)
    pure true
  | none => do
    addmemory ino 0
    pure false

def observeFilelink (ino : Nat) : Ck PUnit := do
  let s ← get
  match remembered s ino with
  | some i => do
    assert (0 < (s.inodes i).linkcount)
    set {s with inodes := update s.inodes i ⟨ino,(s.inodes i).linkcount+1⟩}
  | none => do
    bitmapMark ino .used
    addmemory ino 1

def checknullstring (buf : List UInt8) : List UInt8 × Bool :=
  if 0 ∈ buf then (buf,false) else (buf.set (buf.length-1) 0,true)

def bad (c : UInt8) : Bool := c == 58 || c == 47
def cstring (buf : List UInt8) : List UInt8 := buf.takeWhile (· ≠ 0)

def checkbadstring (buf : List UInt8) : List UInt8 × Bool :=
  ((cstring buf).map (fun c => if bad c then 95 else c)++buf.drop (cstring buf).length,(cstring buf).any bad)

def strcpy (buf text : List UInt8) : List UInt8 := text++[0]++buf.drop (text.length+1)
def volnameBytes (sup : Block) : List UInt8 := (List.range volnameSize).map fun k => sup (8+k)

def putVolname (sup : Block) (volname : List UInt8) : Block := fun k =>
  if 8 ≤ k ∧ k < 8+volnameSize then volname.getD (k-8) 0 else sup k

def checkVolname (sup : Block) : Ck PUnit := do
  let (ended,unended) := checknullstring (volnameBytes sup)
  let (clean,dirty) := checkbadstring ended
  if unended || dirty then do
    setbadness exitRecov
    diskwrite (putVolname sup clean) sbLocation
  else pure ⟨⟩

def checkSb : Ck PUnit := do
  let sup ← diskread sbLocation
  if wordAt sup 0 ≠ magic then errx exitUnrecov
  else do
    let s ← get
    assert (s.nblocks == 0 && s.bitblocks == 0)
    set {s with nblocks := (wordAt sup 4).toNat,bitblocks := bitBlocks (wordAt sup 4).toNat}
    assert (0 < (wordAt sup 4).toNat && 0 < bitBlocks (wordAt sup 4).toNat)
    domalloc
    domalloc
    modify fun s => {s with bitmapdata := fun _ => false,tofreedata := fun _ => false}
    markAll .pastend ((List.range (bitmapSize (wordAt sup 4).toNat-(wordAt sup 4).toNat)).map ((wordAt sup 4).toNat+·))
    checkVolname sup
    bitmapMark sbLocation .used
    markAll .used ((List.range (bitBlocks (wordAt sup 4).toNat)).map (mapLocation+·))

def checkDirect (sfi : Inode) (nblocks : Nat) : List (Fin nDirect) → Nat → Ck Nat
  | [],badcount => pure badcount
  | k :: rest,badcount =>
    if (sfi.direct k).toNat = 0 then checkDirect sfi nblocks rest badcount
    else if k < nblocks then do
      bitmapMark (sfi.direct k).toNat .used
      checkDirect sfi nblocks rest badcount
    else do
      bitmapMark (sfi.direct k).toNat .tofree
      checkDirect sfi nblocks rest (badcount+1)

def checkEntries (nblocks : Nat) : List (Fin dbPerIdb) → (Fin dbPerIdb → BitVec 32) → Nat →
    Ck ((Fin dbPerIdb → BitVec 32) × Nat)
  | [],table,badcount => pure (table,badcount)
  | k :: rest,table,badcount =>
    if (table k).toNat = 0 then checkEntries nblocks rest table badcount
    else do
      bitmapMark (table k).toNat .used
      if nDirect+k < nblocks then checkEntries nblocks rest table badcount
      else checkEntries nblocks rest (update table k 0) (badcount+1)

def checkIndirectBlock (ientry : BitVec 32) (nblocks badcount : Nat) : Ck (BitVec 32 × Nat) :=
  if ientry.toNat = 0 then pure (0,badcount)
  else do
    let data ← diskread ientry.toNat
    bitmapMark ientry.toNat .used
    let (table,badcount) ← checkEntries nblocks (List.finRange dbPerIdb) (entries data) badcount
    if (List.finRange dbPerIdb).all fun k => (table k).toNat == 0 then do
      bitmapMark ientry.toNat .tofree
      pure (0,badcount+1)
    else do
      if 0 < badcount then diskwrite (encodeEntries table) ientry.toNat else pure ⟨⟩
      pure (ientry,badcount)

def checkInodeBlocks (sfi : Inode) : Ck (Inode × Bool) := do
  let badcount ← checkDirect sfi (sizeBlocks sfi) (List.finRange nDirect) 0
  let (indirect,badcount) ← checkIndirectBlock sfi.indirect (sizeBlocks sfi) badcount
  if 0 < badcount then do
    setbadness exitRecov
    pure ({sfi with indirect},true)
  else pure ({sfi with indirect},false)

def dobmap (sfi : Inode) (fileblock : Nat) : Ck Nat :=
  if direct : fileblock < nDirect then pure (sfi.direct ⟨fileblock,direct⟩).toNat
  else if entry : fileblock-nDirect < dbPerIdb then
    if sfi.indirect.toNat = 0 then pure 0
    else do
      let data ← diskread sfi.indirect.toNat
      pure (entries data ⟨fileblock-nDirect,entry⟩).toNat
  else pure 0

structure DirEntry where
  ino : BitVec 32
  name : List UInt8

def atonce : Nat := blockSize/sizeofDir
def noEntry : DirEntry := ⟨0,List.replicate nameLen 0⟩

def entryAt (data : Block) (j : Nat) : DirEntry :=
  ⟨wordAt data (sizeofDir*j),(List.range nameLen).map fun k => data (sizeofDir*j+4+k)⟩

def entriesBlock (d : Nat → DirEntry) (i : Nat) : Block := fun k =>
  if k % sizeofDir < 4 then wordByte (d (i*atonce+k/sizeofDir)).ino (k % sizeofDir)
  else (d (i*atonce+k/sizeofDir)).name.getD (k % sizeofDir-4) 0

def dirBlocks (nd : Nat) : Nat := (nd+atonce-1)/atonce
def readDirblock (block : Nat) : Ck Block := if block ≠ 0 then diskread block else pure zeros

def dirread (sfi : Inode) : List Nat → (Nat → DirEntry) → Ck (Nat → DirEntry)
  | [],d => pure d
  | i :: rest,d => do
    let block ← dobmap sfi i
    let data ← readDirblock block
    dirread sfi rest fun k => if k/atonce = i then entryAt data (k % atonce) else d k

def dirwrite (sfi : Inode) (d : Nat → DirEntry) : List Nat → Ck PUnit
  | [] => pure ⟨⟩
  | i :: rest => do
    let block ← dobmap sfi i
    if block ≠ 0 then diskwrite (entriesBlock d i) block
    else if (List.range atonce).any fun j =>
        (d (i*atonce+j)).ino.toNat != noIno || (d (i*atonce+j)).name.headD 0 != 0 then
      setbadness exitUnrecov
    else pure ⟨⟩
    dirwrite sfi d rest

def digits (n : Nat) : List UInt8 := (Nat.toDigits 10 n).map fun c => UInt8.ofNat c.toNat
def fsckName (ino unique : Nat) : List UInt8 := [70,83,67,75,46]++digits ino++[46]++digits unique

def freshName (e : DirEntry) : Ck DirEntry := do
  let s ← get
  set {s with uniquecounter := (s.uniquecounter+1) % 2^32}
  pure {e with name := strcpy e.name ((fsckName e.ino.toNat s.uniquecounter).take (nameLen-1))}

def clearName (name : List UInt8) : List UInt8 := name.set 0 0

def checkNamed (e : DirEntry) : Ck (DirEntry × Bool) := do
  let (ended,unended) := checknullstring e.name
  let (clean,dirty) := checkbadstring ended
  if unended || dirty then do
    setbadness exitRecov
    pure ({e with name := clean},true)
  else pure (e,false)

def checkDirEntry (e : DirEntry) : Ck (DirEntry × Bool) :=
  if e.ino.toNat = noIno then
    if e.name.headD 0 ≠ 0 then do
      setbadness exitRecov
      pure ({e with name := clearName e.name},true)
    else pure (e,false)
  else if e.name.headD 0 = 0 then do
    let e ← freshName e
    setbadness exitRecov
    let (e,_) ← checkNamed e
    pure (e,true)
  else checkNamed e

-- The variables of check_dir; `block` is the block with the inode.
structure DirCheck where
  block : Block
  sfi : Inode
  direntries : Nat → DirEntry
  ndirentries : Nat
  ichanged : Bool
  dchanged : Bool

def DirCheck.put (d : DirCheck) (i : Nat) (e : DirEntry) : DirCheck :=
  {d with direntries := update d.direntries i e,dchanged := true}

def DirCheck.nameOf (d : DirCheck) (i : Nat) : List UInt8 := cstring (d.direntries i).name

def checkAllEntries : List Nat → DirCheck → Ck DirCheck
  | [],d => pure d
  | i :: rest,d => do
    let (e,changed) ← checkDirEntry (d.direntries i)
    checkAllEntries rest (if changed then d.put i e else d)

def before : List UInt8 → List UInt8 → Bool
  | _,[] => false
  | [],_ :: _ => true
  | a :: as,b :: bs => a < b || a == b && before as bs

def swap (vector : Nat → Nat) (i j : Nat) : Nat → Nat := update (update vector i (vector j)) j (vector i)

def bubble (name : Nat → List UInt8) (i : Nat) : List Nat → (Nat → Nat) → Nat → Nat
  | [],vector => vector
  | j :: rest,vector =>
    bubble name i rest (if before (name (vector i)) (name (vector j)) then swap vector i j else vector)

def qsort (name : Nat → List UInt8) (num : Nat) : List Nat → (Nat → Nat) → Nat → Nat
  | [],vector => vector
  | i :: rest,vector => qsort name num rest (bubble name i ((List.range num).filter (i < ·)) vector)

def sortdir (d : DirCheck) : Nat → Nat :=
  qsort d.nameOf d.ndirentries (List.range (d.ndirentries-1)) fun i => i

def checkDuplicate (i j : Nat) (d : DirCheck) : Ck DirCheck :=
  if (d.direntries i).ino.toNat = noIno then pure d
  else if d.nameOf i = d.nameOf j then
    if (d.direntries i).ino = (d.direntries j).ino then do
      setbadness exitRecov
      pure (d.put i ⟨0,clearName (d.direntries i).name⟩)
    else do
      let e ← freshName (d.direntries i)
      setbadness exitRecov
      pure (d.put i e)
  else pure d

def checkDuplicates (vector : Nat → Nat) : List Nat → DirCheck → Ck DirCheck
  | [],d => pure d
  | i :: rest,d => do
    assert (vector i != vector (i+1))
    let d ← checkDuplicate (vector i) (vector (i+1)) d
    checkDuplicates vector rest d

def dot : List UInt8 := [46]
def dotdot : List UInt8 := [46,46]

def checkDot (i ino : Nat) (seen : Bool) (d : DirCheck) : Ck DirCheck := do
  let d ← if (d.direntries i).ino.toNat = ino then pure d
    else do
      setbadness exitRecov
      pure (d.put i {d.direntries i with ino := BitVec.ofNat 32 ino})
  assert (!seen)
  pure d

def checkDots (ino parentino : Nat) : List Nat → Bool → Bool → DirCheck → Ck (Bool × Bool × DirCheck)
  | [],dotseen,dotdotseen,d => pure (dotseen,dotdotseen,d)
  | i :: rest,dotseen,dotdotseen,d =>
    if d.nameOf i = dot then do
      let d ← checkDot i ino dotseen d
      checkDots ino parentino rest true dotdotseen d
    else if d.nameOf i = dotdot then do
      let d ← checkDot i parentino dotdotseen d
      checkDots ino parentino rest dotseen true d
    else checkDots ino parentino rest dotseen dotdotseen d

def maxdirentries (d : DirCheck) : Nat := dirBlocks d.ndirentries*atonce

def addDot (name : List UInt8) (ino maxdirentries : Nat) (seen : Bool) (d : DirCheck) : Ck DirCheck :=
  if seen then pure d
  else match (List.range maxdirentries).find? fun i => (d.direntries i).ino.toNat == noIno with
    | none => do
      setbadness exitUnrecov
      pure d
    | some i => do
      setbadness exitRecov
      let added := d.put i ⟨BitVec.ofNat 32 ino,strcpy (d.direntries i).name name⟩
      if i < d.ndirentries then pure added
      else pure {added with
        ndirentries := d.ndirentries+1,
        sfi := {d.sfi with size := d.sfi.size+BitVec.ofNat 32 sizeofDir},
        ichanged := true}

def putInode (data : Block) (sfi : Inode) : Block := fun k =>
  if k < 4*(nDirect+3) then encodeInode sfi k else data k

def checkFile (ino : Nat) (data : Block) : Ck PUnit := do
  let (subsfi,modified) ← checkInodeBlocks (decodeInode data)
  flagged modified (diskwrite (putInode data subsfi) ino)
  observeFilelink ino

def dropEntry (i : Nat) (d : DirCheck) : Ck DirCheck := do
  setbadness exitRecov
  pure (d.put i ⟨0,clearName (d.direntries i).name⟩)

def checkObject (descend : Nat → Ck Bool) (i : Nat) (subdircount : Nat) (d : DirCheck) : Ck (Nat × DirCheck) := do
  let data ← diskread (d.direntries i).ino.toNat
  if (decodeInode data).type = typeFile then do
    checkFile (d.direntries i).ino.toNat data
    pure (subdircount,d)
  else if (decodeInode data).type = typeDir then do
    let crosslinked ← descend (d.direntries i).ino.toNat
    if crosslinked then do
      let d ← dropEntry i d
      pure (subdircount,d)
    else pure (subdircount+1,d)
  else do
    let d ← dropEntry i d
    pure (subdircount,d)

def checkObjects (descend : Nat → Ck Bool) : List Nat → Nat → DirCheck → Ck (Nat × DirCheck)
  | [],subdircount,d => pure (subdircount,d)
  | i :: rest,subdircount,d =>
    if d.nameOf i = dot ∨ d.nameOf i = dotdot ∨ (d.direntries i).ino.toNat = noIno then
      checkObjects descend rest subdircount d
    else do
      let (subdircount,d) ← checkObject descend i subdircount d
      checkObjects descend rest subdircount d

def checkSize (sfi : Inode) : Ck (Inode × Bool) :=
  if sfi.size.toNat % sizeofDir ≠ 0 then do
    setbadness exitRecov
    pure ({sfi with size := BitVec.ofNat 32 (roundup sfi.size.toNat sizeofDir)},true)
  else pure (sfi,false)

def entryCount (sfi : Inode) : Nat := sfi.size.toNat/sizeofDir

def loadDir (data : Block) : Ck DirCheck := do
  let (sfi,sized) ← checkSize (decodeInode data)
  let (sfi,modified) ← checkInodeBlocks sfi
  domalloc
  domalloc
  assert (dirBlocks (entryCount sfi)*blockSize < 2^32)
  let direntries ← dirread sfi (List.range (dirBlocks (entryCount sfi))) fun _ => noEntry
  pure ⟨data,sfi,fun i => if i < entryCount sfi then direntries i else noEntry,entryCount sfi,sized || modified,false⟩

def checkLinkcount (subdircount : Nat) (d : DirCheck) : Ck DirCheck :=
  if d.sfi.linkcount.toNat ≠ subdircount+2 then do
    setbadness exitRecov
    pure {d with sfi := {d.sfi with linkcount := BitVec.ofNat 16 (subdircount+2)},ichanged := true}
  else pure d

def writeBack (ino : Nat) (d : DirCheck) : Ck PUnit := do
  flagged d.dchanged (dirwrite d.sfi d.direntries (List.range (dirBlocks d.ndirentries)))
  flagged d.ichanged (diskwrite (putInode d.block d.sfi) ino)

def checkNames (ino parentino : Nat) (d : DirCheck) : Ck DirCheck := do
  let d ← checkAllEntries (List.range d.ndirentries) d
  let d ← checkDuplicates (sortdir d) (List.range (d.ndirentries-1)) d
  let (dotseen,dotdotseen,d) ← checkDots ino parentino (List.range d.ndirentries) false false d
  let most := maxdirentries d
  let d ← addDot dot ino most dotseen d
  addDot dotdot parentino most dotdotseen d

def checkNewDir (descend : Nat → Ck Bool) (ino parentino : Nat) (data : Block) : Ck Bool := do
  bitmapMark ino .used
  let d ← loadDir data
  let d ← checkNames ino parentino d
  let (subdircount,d) ← checkObjects descend (List.range d.ndirentries) 0 d
  let d ← checkLinkcount subdircount d
  writeBack ino d
  pure false

def checkDir : Nat → Nat → Nat → Ck Bool
  | 0,_,_ => throw .deeper
  | fuel+1,ino,parentino => do
    let data ← diskread ino
    let crosslinked ← rememberDir ino
    if crosslinked then pure true else checkNewDir (fun sub => checkDir fuel sub ino) ino parentino data

def checkRootDir (fuel : Nat) : Ck PUnit := do
  let data ← diskread rootLocation
  flagged ((decodeInode data).type != typeDir) do
    setbadness exitRecov
    diskwrite (putInode data {decodeInode data with type := typeDir}) rootLocation
  let _ ← checkDir fuel rootLocation rootLocation
  pure ⟨⟩

-- One byte of the map: the bits on the disk, those found in use and those to be freed.
structure ByteCheck where
  alloccount : Nat
  freecount : Nat
  changed : Bool

def countbits (bits : Nat → Bool) : Nat := ((List.range 8).filter bits).length
def sameByte (bits other : Nat → Bool) : Bool := (List.range 8).all fun y => bits y == other y

def checkByte (bits found tofree : Nat → Bool) (c : ByteCheck) : ByteCheck :=
  if sameByte bits found then c
  else if sameByte bits fun y => found y || tofree y then {c with changed := true}
  else ⟨c.alloccount+countbits (fun y => found y && !(bits y && !tofree y)),
    c.freecount+countbits (fun y => bits y && !tofree y && !found y),true⟩

def checkBytes (bits found tofree : Nat → Bool) : List Nat → ByteCheck → Ck ByteCheck
  | [],c => pure c
  | j :: rest,c => do
    assert ((List.range 8).all fun y => !(found (8*j+y) && tofree (8*j+y)))
    checkBytes bits found tofree rest
      (checkByte (fun y => bits (8*j+y)) (fun y => found (8*j+y)) (fun y => tofree (8*j+y)) c)

def mapBlock (bits : Nat → Bool) (i : Nat) : Nat → Bool := fun b => bits (i*blockBits+b)

def checkMapBlocks : List Nat → ByteCheck → Ck ByteCheck
  | [],c => pure c
  | i :: rest,c => do
    let data ← diskread (mapLocation+i)
    let s ← get
    let c ← checkBytes (bitAt data) (mapBlock s.bitmapdata i) (mapBlock s.tofreedata i) (List.range blockSize)
      {c with changed := false}
    flagged c.changed (diskwrite (fromBits (mapBlock s.bitmapdata i)) (mapLocation+i))
    checkMapBlocks rest c

def checkBitmap : Ck PUnit := do
  let s ← get
  let c ← checkMapBlocks (List.range s.bitblocks) ⟨0,0,false⟩
  flagged (0 < c.alloccount) (setbadness exitRecov)
  flagged (0 < c.freecount) (setbadness exitRecov)

def adjustLink (known : InodeMemory) : Ck PUnit :=
  if known.linkcount = 0 then pure ⟨⟩
  else do
    let data ← diskread known.ino
    assert ((decodeInode data).type == typeFile)
    if (decodeInode data).linkcount.toNat ≠ known.linkcount then do
      setbadness exitRecov
      diskwrite (putInode data {decodeInode data with linkcount := BitVec.ofNat 16 known.linkcount}) known.ino
    else pure ⟨⟩

def adjustFilelinks : List Nat → Ck PUnit
  | [] => pure ⟨⟩
  | i :: rest => do
    let s ← get
    adjustLink (s.inodes i)
    adjustFilelinks rest

def main (fuel : Nat) : Ck PUnit := do
  checkSb
  checkRootDir fuel
  checkBitmap
  let s ← get
  adjustFilelinks (List.range s.ninodes)

def started (disk : Nat → Block) (dBlocks : Nat) (memory : Nat → Bool) : Fsck where
  disk := disk
  dBlocks := dBlocks
  nblocks := 0
  bitblocks := 0
  bitmapdata _ := false
  tofreedata _ := false
  badness := 0
  uniquecounter := 1
  inodes _ := ⟨0,0⟩
  ninodes := 0
  maxinodes := 0
  memory := memory
  mallocs := 0

def sfsck (fuel : Nat) (disk : Nat → Block) (dBlocks : Nat) (memory : Nat → Bool) : Option (Nat × (Nat → Block)) :=
  match main fuel (started disk dBlocks memory) with
  | .ok _ t => some (t.badness,t.disk)
  | .error (.exit code) t => some (code,t.disk)
  | .error _ _ => none
end ToyOS.Sfsck

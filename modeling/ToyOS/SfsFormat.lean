import ToyOS.Library.Words

namespace ToyOS.Sfs
open Words

def blockSize : Nat := 512
def nDirect : Nat := 15
def dbPerIdb : Nat := 128
def nameLen : Nat := 60
def sizeofDir : Nat := 64
def volnameSize : Nat := 32
def sbLocation : Nat := 0
def rootLocation : Nat := 1
def mapLocation : Nat := 2
def noIno : Nat := 0
def blockBits : Nat := 4096
def magic : BitVec 32 := 0xabadf001
def typeInval : BitVec 16 := 0
def typeFile : BitVec 16 := 1
def typeDir : BitVec 16 := 2
def bitmapSize (nblocks : Nat) : Nat := (nblocks+blockBits-1)/blockBits*blockBits
def bitBlocks (nblocks : Nat) : Nat := bitmapSize nblocks/blockBits

lemma le_bitmapSize (nblocks : Nat) : nblocks ≤ bitmapSize nblocks := by
  unfold bitmapSize blockBits
  omega

lemma bitBlocks_eq (nblocks : Nat) : bitBlocks nblocks = (nblocks+blockBits-1)/blockBits :=
  Nat.mul_div_cancel _ (by decide)

-- The bytes of a block; only the first 512 are there.
abbrev Block := Nat → UInt8

def zeros : Block := fun _ => 0

-- struct sfs_inode. sfi_waste is always 0.
structure Inode where
  size : BitVec 32
  type : BitVec 16
  linkcount : BitVec 16
  direct : Fin nDirect → BitVec 32
  indirect : BitVec 32

def inodeWord (n : Inode) : Nat → BitVec 32
  | 0 => n.size
  | 1 => n.type++n.linkcount
  | k+2 => if h : k < nDirect then n.direct ⟨k,h⟩ else if k = nDirect then n.indirect else 0

def encodeInode (n : Inode) : Block := fromWords (inodeWord n)

def decodeInode (b : Block) : Inode where
  size := wordAt b 0
  type := (wordAt b 4).extractLsb' 16 16
  linkcount := (wordAt b 4).extractLsb' 0 16
  direct := fun k => wordAt b (4*(k+2))
  indirect := wordAt b (4*(nDirect+2))

lemma decode_encode (n : Inode) : decodeInode (encodeInode n) = n := by
  have word : ∀ k, wordAt (encodeInode n) (4*k) = inodeWord n k := wordAt_fromWords (inodeWord n)
  have one : wordAt (encodeInode n) 4 = n.type++n.linkcount := word 1
  have direct : ∀ k : Fin nDirect, wordAt (encodeInode n) (4*(k+2)) = n.direct k := by
    intro k
    rw [word (k+2),inodeWord,dif_pos k.isLt]
  have indirect : wordAt (encodeInode n) (4*(nDirect+2)) = n.indirect := by
    rw [word (nDirect+2),inodeWord,dif_neg (lt_irrefl _),if_pos rfl]
  unfold decodeInode
  rw [word 0,one,indirect,BitVec.extractLsb'_append_eq_left,BitVec.extractLsb'_append_eq_right]
  simp only [direct]
  rfl

def emptyInode : Inode := ⟨0,typeInval,0,fun _ => 0,0⟩

lemma decode_zeros : decodeInode zeros = emptyInode := by
  unfold decodeInode zeros
  simp only [wordAt_zero]
  rfl

def entries (b : Block) : Fin dbPerIdb → BitVec 32 := fun k => wordAt b (4*k)

def encodeEntries (table : Fin dbPerIdb → BitVec 32) : Block :=
  fromWords fun k => if h : k < dbPerIdb then table ⟨k,h⟩ else 0

lemma entries_encode (table : Fin dbPerIdb → BitVec 32) : entries (encodeEntries table) = table := by
  funext k
  unfold entries encodeEntries
  rw [wordAt_fromWords,dif_pos k.isLt]

lemma entries_zeros : entries zeros = fun _ => 0 := funext fun _ => wordAt_zero _
def entryIno (bytes : Nat → UInt8) (k : Nat) : Nat := (wordAt bytes (sizeofDir*k)).toNat

def entryName (bytes : Nat → UInt8) (k : Nat) : List UInt8 :=
  ((List.range (nameLen-1)).map fun j => bytes (sizeofDir*k+4+j)).takeWhile (· ≠ 0)

def dirBytes (ino : BitVec 32) (name : List UInt8) : Nat → UInt8 := fun k =>
  if k < 4 then wordByte ino k else name.getD (k-4) 0

lemma wordAt_dirBytes (ino : BitVec 32) (name : List UInt8) : wordAt (dirBytes ino name) 0 = ino := by
  refine wordAt_wordByte fun j lt => ?_
  rw [Nat.zero_add,dirBytes,if_pos lt]

lemma entryName_dirBytes (ino : BitVec 32) {name : List UInt8} (ended : 0 ∉ name)
    (short : name.length < nameLen) : entryName (dirBytes ino name) 0 = name := by
  have bytes : (List.range (nameLen-1)).map (fun j => dirBytes ino name (sizeofDir*0+4+j)) =
      name++List.replicate (nameLen-1-name.length) 0 := by
    refine List.ext_getElem ?_ fun k left right => ?_
    · unfold nameLen at *
      simp only [List.length_map,List.length_range,List.length_append,List.length_replicate]
      omega
    have place : sizeofDir*0+4+k-4 = k := by omega
    rw [List.getElem_map,List.getElem_range,dirBytes,if_neg (by omega),place,List.getElem_append,
      List.getD_eq_getElem?_getD]
    split
    · rename_i inside
      rw [List.getElem?_eq_getElem inside,Option.getD_some]
    rename_i out
    rw [List.getElem?_eq_none (Nat.le_of_not_lt out),Option.getD_none,List.getElem_replicate]
  have stops : List.takeWhile (fun c : UInt8 => c ≠ 0) (List.replicate (nameLen-1-name.length) 0) = [] := by
    cases nameLen-1-name.length with
    | zero => rfl
    | succ n => rfl
  have all : ∀ c ∈ name, decide (c ≠ 0) := by
    intro c member
    refine decide_eq_true ?_
    rintro rfl
    exact ended member
  rw [entryName,bytes,List.takeWhile_append_of_pos all,stops,List.append_nil]

def mapBlock (freemap : Nat → Bool) (j : Nat) : Block :=
  fromBits fun b => freemap (blockBits*j+b)

def mapBit (disk : Nat → Block) (b : Nat) : Bool :=
  bitAt (disk (mapLocation+b/blockBits)) (b % blockBits)

lemma mapBit_mapBlock {disk : Nat → Block} (freemap : Nat → Bool)
    (eq : disk (mapLocation+b/blockBits) = mapBlock freemap (b/blockBits)) : mapBit disk b = freemap b := by
  rw [mapBit,eq,mapBlock,bitAt_fromBits]
  exact congrArg freemap (Nat.div_add_mod b blockBits)

def superBlock (nblocks : Nat) (volname : List UInt8) : Block := fun k =>
  if k < 4 then wordByte magic k
  else if k < 8 then wordByte (BitVec.ofNat 32 nblocks) (k-4)
  else volname.getD (k-8) 0

lemma superBlock_magic (nblocks : Nat) (volname : List UInt8) : wordAt (superBlock nblocks volname) 0 = magic := by
  refine wordAt_wordByte fun j lt => ?_
  rw [Nat.zero_add,superBlock,if_pos lt]

lemma superBlock_nblocks (nblocks : Nat) (volname : List UInt8) :
    wordAt (superBlock nblocks volname) 4 = BitVec.ofNat 32 nblocks := by
  refine wordAt_wordByte fun j lt => ?_
  have place : 4+j-4 = j := by omega
  rw [superBlock,if_neg (by omega),if_pos (by omega),place]
end ToyOS.Sfs

import ToyOS.Sfs

namespace ToyOS.Sfs
open Function Option

def node (s : State) (i : Nat) : Inode :=
  match s.vnodes i with
  | some v => v.inode
  | none => decodeInode (s.disk i)

-- The places where an inode refers to a block.
inductive Slot where
  | direct (k : Fin nDirect)
  | indirect
  | entry (k : Fin dbPerIdb)
  deriving DecidableEq

def pointer (s : State) (i : Nat) : Slot → Nat
  | .direct k => ((node s i).direct k).toNat
  | .indirect => (node s i).indirect.toNat
  | .entry k =>
    if (node s i).indirect.toNat = 0 then 0
    else (entries (s.disk (node s i).indirect.toNat) k).toNat

def slotOf (fileblock : Nat) : Option Slot :=
  if direct : fileblock < nDirect then some (.direct ⟨fileblock,direct⟩)
  else if entry : fileblock-nDirect < dbPerIdb then some (.entry ⟨fileblock-nDirect,entry⟩)
  else none

lemma slotOf_injective (one : slotOf m = some p) (two : slotOf n = some p) : m = n := by
  unfold slotOf at one two
  split at one
  · cases one
    split at two
    · cases two
      rfl
    split at two
    · cases two
    · cases two
  split at one
  · cases one
    split at two
    · cases two
    split at two
    · rename_i _ _ past _
      have eq := congrArg Fin.val (Slot.entry.inj (some.inj two))
      dsimp only at eq
      omega
    · cases two
  · cases one

lemma slotOf_ne_indirect (place : slotOf n = some p) : p ≠ .indirect := by
  rintro rfl
  unfold slotOf at place
  split at place
  · cases place
  split at place
  · cases place
  · cases place

def byte (s : State) (i offset : Nat) : UInt8 :=
  match slotOf (offset/blockSize) with
  | none => 0
  | some p => if pointer s i p = 0 then 0 else s.disk (pointer s i p) (offset % blockSize)

-- What a user can see of a file.
@[ext]
structure File where
  size : BitVec 32
  type : BitVec 16
  linkcount : BitVec 16
  bytes : Nat → UInt8

def file (s : State) (i : Nat) : File :=
  ⟨(node s i).size,(node s i).type,(node s i).linkcount,byte s i⟩

variable {s t u : State} {i j : Nat} {v : Vnode}

lemma node_loaded (load : s.vnodes i = some v) : node s i = v.inode := by
  rw [node,load]

lemma node_unloaded (absent : s.vnodes i = none) : node s i = decodeInode (s.disk i) := by
  rw [node,absent]

lemma node_frame (vnodes : t.vnodes j = s.vnodes j) (block : t.disk j = s.disk j) : node t j = node s j := by
  rw [node,node,vnodes,block]

lemma byte_mapped (place : slotOf (offset/blockSize) = some p) : byte s i offset =
      if pointer s i p = 0 then 0 else s.disk (pointer s i p) (offset % blockSize) := by
  rw [byte,place]

-- Two states in which an inode is the same, with all that it refers to.
structure Alike (s t : State) (j : Nat) : Prop where
  node : node t j = node s j
  pointer : pointer t j = pointer s j
  byte : byte t j = byte s j

lemma Alike.file (alike : Alike s t j) : file t j = file s j := by
  rw [Sfs.file,Sfs.file,alike.node,alike.byte]

lemma pointer_congr (eq : node t j = node s j)
    (block : pointer s j .indirect ≠ 0 → t.disk (pointer s j .indirect) = s.disk (pointer s j .indirect)) :
    pointer t j = pointer s j := by
  funext p
  cases p with
  | direct k => rw [pointer,pointer,eq]
  | indirect => rw [pointer,pointer,eq]
  | entry k =>
    rw [pointer,pointer,eq]
    split
    · rfl
    rename_i hit
    rw [show t.disk (node s j).indirect.toNat = s.disk (node s j).indirect.toNat from block hit]

lemma byte_congr (ptrs : ∀ p ≠ .indirect, pointer t j p = pointer s j p)
    (blocks : ∀ p ≠ .indirect, pointer s j p ≠ 0 → t.disk (pointer s j p) = s.disk (pointer s j p)) :
    byte t j = byte s j := by
  funext offset
  rw [byte,byte]
  split
  · rfl
  rename_i p place
  have data := slotOf_ne_indirect place
  rw [ptrs p data]
  split
  · rfl
  rename_i hit
  rw [blocks p data hit]

lemma alike_of_node (eq : node t j = node s j)
    (blocks : ∀ p, pointer s j p ≠ 0 → t.disk (pointer s j p) = s.disk (pointer s j p)) : Alike s t j := by
  have ptrs := pointer_congr eq (blocks .indirect)
  exact ⟨eq,ptrs,byte_congr (fun p _ => congrFun ptrs p) fun p _ => blocks p⟩

lemma alike_of_frame (vnodes : t.vnodes j = s.vnodes j) (block : t.disk j = s.disk j)
    (blocks : ∀ p, pointer s j p ≠ 0 → t.disk (pointer s j p) = s.disk (pointer s j p)) : Alike s t j :=
  alike_of_node (node_frame vnodes block) blocks

-- What no operation changes.
structure Fixed (s t : State) : Prop where
  nblocks : t.nblocks = s.nblocks
  dBlocks : t.dBlocks = s.dBlocks
  device : t.device = s.device
  memory : t.memory = s.memory

lemma Fixed.refl : Fixed s s := ⟨rfl,rfl,rfl,rfl⟩

lemma Fixed.trans (one : Fixed s t) (two : Fixed t u) : Fixed s u :=
  ⟨two.nblocks.trans one.nblocks,two.dBlocks.trans one.dBlocks,two.device.trans one.device,two.memory.trans one.memory⟩

-- The device never fails, and there is always memory.
structure Quiet (s : State) : Prop where
  device : s.device = fun _ => none
  memory : s.memory = fun _ => true

lemma Fixed.quiet (fixed : Fixed s t) (quiet : Quiet s) : Quiet t :=
  ⟨fixed.device.trans quiet.device,fixed.memory.trans quiet.memory⟩

lemma Alike.refl : Alike s s j := ⟨rfl,rfl,rfl⟩

lemma Alike.trans (one : Alike s t j) (two : Alike t u j) : Alike s u j :=
  ⟨two.node.trans one.node,two.pointer.trans one.pointer,two.byte.trans one.byte⟩

-- What an operation on the file `i` leaves alone: the other files, the kind of `i` and its links, and which vnodes are
-- loaded how often.
structure Apart (live : Nat → Bool) (s : State) (i : Nat) (t : State) : Prop where
  fixed : Fixed s t
  refs : ∀ j, (t.vnodes j).map Vnode.refcount = (s.vnodes j).map Vnode.refcount
  others : ∀ j, live j = true → j ≠ i → Alike s t j
  type : (node t i).type = (node s i).type
  linkcount : (node t i).linkcount = (node s i).linkcount

variable {live : Nat → Bool}

lemma Apart.refl : Apart live s i s :=
  ⟨.refl,fun _ => rfl,fun _ _ _ => .refl,rfl,rfl⟩

lemma Apart.trans (one : Apart live s i t) (two : Apart live t i u) : Apart live s i u where
  fixed := one.fixed.trans two.fixed
  refs j := (two.refs j).trans (one.refs j)
  others j alive other := (one.others j alive other).trans (two.others j alive other)
  type := two.type.trans one.type
  linkcount := two.linkcount.trans one.linkcount

lemma Apart.loaded (apart : Apart live s i t) (load : s.vnodes j = some v) :
    ∃ w, t.vnodes j = some w ∧ w.refcount = v.refcount := by
  have refs := apart.refs j
  rw [load] at refs
  exact map_eq_some_iff.mp refs

-- Nothing that can be seen of `i` is changed either.
structure Kept (live : Nat → Bool) (s : State) (i : Nat) (t : State) : Prop where
  fixed : Fixed s t
  refs : ∀ j, (t.vnodes j).map Vnode.refcount = (s.vnodes j).map Vnode.refcount
  others : ∀ j, live j = true → j ≠ i → Alike s t j
  same : file t i = file s i

lemma Kept.refl : Kept live s i s := ⟨.refl,fun _ => rfl,fun _ _ _ => .refl,rfl⟩

lemma Kept.trans (one : Kept live s i t) (two : Kept live t i u) : Kept live s i u where
  fixed := one.fixed.trans two.fixed
  refs j := (two.refs j).trans (one.refs j)
  others j alive other := (one.others j alive other).trans (two.others j alive other)
  same := two.same.trans one.same

lemma Kept.apart (kept : Kept live s i t) : Apart live s i t :=
  ⟨kept.fixed,kept.refs,kept.others,congrArg File.type kept.same,congrArg File.linkcount kept.same⟩

lemma Kept.files (kept : Kept live s i t) (alive : live j) : file t j = file s j := by
  rcases eq_or_ne j i with rfl | ne
  · exact kept.same
  · exact (kept.others j alive ne).file

lemma refs_update (load : s.vnodes i = some v) {w : Vnode} (eq : w.refcount = v.refcount)
    (vnodes : t.vnodes = update s.vnodes i (some w)) (j : Nat) :
    (t.vnodes j).map Vnode.refcount = (s.vnodes j).map Vnode.refcount := by
  rw [vnodes]
  rcases eq_or_ne j i with rfl | ne
  · rw [update_self,load,Option.map_some,Option.map_some,eq]
  · rw [update_of_ne ne]
end ToyOS.Sfs

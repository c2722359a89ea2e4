import ToyOS.Sfsck
import ToyOS.SfsBmap

namespace ToyOS.Sfsck
open Outcome Sfs

def ibmap (iblock offset entrysize : Nat) : Ck Nat :=
  if iblock = 0 then pure 0
  else do
    let data ← diskread iblock
    if 1 < entrysize then
      if inside : offset/entrysize < dbPerIdb then
        ibmap (entries data ⟨offset/entrysize,inside⟩).toNat (offset % entrysize) (entrysize/dbPerIdb)
      else throw .abort
    else if inside : offset < dbPerIdb then pure (entries data ⟨offset,inside⟩).toNat
    else throw .abort
termination_by entrysize
decreasing_by exact Nat.div_lt_self (by omega) (by decide)

def bmapNi : Nat := 1
def bmapNii : Nat := 0
def bmapNiii : Nat := 0
def bmapDmax : Nat := nDirect
def bmapImax : Nat := bmapDmax+dbPerIdb*bmapNi
def bmapIimax : Nat := bmapImax+dbPerIdb*bmapNii
def bmapIiimax : Nat := bmapIimax+dbPerIdb*bmapNiii
def bmapDsize : Nat := 1
def bmapIsize : Nat := bmapDsize*dbPerIdb
def bmapIisize : Nat := bmapIsize*dbPerIdb
def bmapIiisize : Nat := bmapIisize*dbPerIdb

-- dobmap with its macros, where BMAP_II and BMAP_III are 0.
def dobmapLevels (sfi : Inode) (fileblock : Nat) : Ck Nat :=
  if direct : fileblock < bmapDmax then pure (sfi.direct ⟨fileblock,direct⟩).toNat
  else if fileblock < bmapImax then ibmap sfi.indirect.toNat ((fileblock-bmapDmax) % bmapIsize) bmapDsize
  else if fileblock < bmapIimax then ibmap 0 ((fileblock-bmapImax) % bmapIisize) bmapIsize
  else if fileblock < bmapIiimax then ibmap 0 ((fileblock-bmapIimax) % bmapIiisize) bmapIisize
  else pure 0

lemma dobmapLevels_eq (sfi : Inode) (fileblock : Nat) : dobmapLevels sfi fileblock = dobmap sfi fileblock := by
  unfold dobmapLevels dobmap
  by_cases direct : fileblock < nDirect
  · rw [dif_pos direct]
    exact dif_pos direct
  rw [dif_neg direct]
  refine (dif_neg direct).trans ?_
  change (if fileblock < nDirect+dbPerIdb then ibmap _ ((fileblock-nDirect) % dbPerIdb) 1 else
    if fileblock < nDirect+dbPerIdb then _ else if fileblock < nDirect+dbPerIdb then _ else _) = _
  by_cases lt : fileblock-nDirect < dbPerIdb
  · rw [if_pos (by omega),dif_pos lt,ibmap]
    simp only [Nat.lt_irrefl,if_false,Nat.mod_eq_of_lt lt,dif_pos lt]
  rw [dif_neg lt,if_neg (by omega),if_neg (by omega),if_neg (by omega)]

variable {s : State} {ck : Fsck} {v : Vnode} {i : Nat}

def Gives {ε σ : Type} (outcome : EStateM.Result ε σ Nat) (block : Nat) : Prop :=
  Ends outcome (fun b _ => b = block) fun _ _ => False

def Used (s : State) (block : Nat) : Prop := block ≠ 0 → block < s.nblocks ∧ s.freemap block = true

-- The blocks of the inode are on the device and marked used.
structure Placed (s : State) (sfi : Inode) : Prop where
  direct : ∀ k, Used s (sfi.direct k).toNat
  indirect : sfi.indirect.toNat ≠ 0 → sfi.indirect.toNat < s.dBlocks
  entry : sfi.indirect.toNat ≠ 0 → ∀ k, Used s (entries (s.disk sfi.indirect.toNat) k).toNat

def tableAt (disk : Nat → Block) (sfi : Inode) (block : Nat) (k : Fin dbPerIdb) : Nat :=
  if sfi.indirect.toNat = 0 then 0 else (entries (disk block) k).toNat

lemma bmap_gives (found : Ends (findBlock i k false s)
    (fun b t => b = block ∧ t.nblocks = s.nblocks ∧ t.freemap = s.freemap)
    fun _ _ => False) (used : Used s block) : Gives (sfsBmap i k false s) block := by
  refine ends_bind found ?_
  rintro _ t ⟨rfl,size,map⟩
  refine ends_bind (ends_checkUsed (Q := fun _ _ => True) (fun hit => ?_) trivial) fun _ _ _ => ends_pure rfl
  rw [size,map]
  exact used hit

lemma bmap_direct (load : s.vnodes i = some v) (placed : Placed s v.inode) (k : Fin nDirect) :
    Gives (sfsBmap i k false s) (v.inode.direct k).toNat := by
  refine bmap_gives ?_ (placed.direct k)
  rw [findBlock,dif_pos k.isLt]
  refine ends_bind_vnodeOf load ?_
  rw [if_neg (by simp)]
  exact ⟨rfl,rfl,rfl⟩

lemma bmap_entry (quiet : Quiet s) (load : s.vnodes i = some v) (placed : Placed s v.inode) (k : Fin dbPerIdb) :
    Gives (sfsBmap i (nDirect+k) false s) (tableAt s.disk v.inode v.inode.indirect.toNat k) := by
  have place : (⟨(nDirect+k-nDirect) % dbPerIdb,Nat.mod_lt _ (by decide)⟩ : Fin dbPerIdb) = k :=
    Fin.ext ((congrArg (· % dbPerIdb) (Nat.add_sub_cancel_left ..)).trans (Nat.mod_eq_of_lt k.isLt))
  have near : ¬0 < (nDirect+k-nDirect)/dbPerIdb := by
    rw [Nat.add_sub_cancel_left,Nat.div_eq_of_lt k.isLt]
    exact Nat.lt_irrefl 0
  refine bmap_gives ?_ ?_
  · rw [findBlock,dif_neg (by omega),if_neg near,place]
    refine ends_bind_vnodeOf load ?_
    unfold tableAt
    split
    · rename_i none_
      rw [if_pos none_.1]
      exact ⟨rfl,rfl,rfl⟩
    rename_i hit
    have hit : v.inode.indirect.toNat ≠ 0 := fun none_ => hit ⟨none_,rfl⟩
    rw [if_neg hit]
    refine ends_bind (Q := fun r t => r.2 = entries (s.disk v.inode.indirect.toNat) ∧ t.nblocks = s.nblocks ∧
      t.freemap = s.freemap) ?_ ?_
    · refine ends_bind_vnodeOf load ?_
      rw [if_neg hit]
      exact ends_bind (ends_rblock (Q := fun data t => data = s.disk v.inode.indirect.toNat ∧ t.nblocks = s.nblocks ∧
        t.freemap = s.freemap) quiet (placed.indirect hit) ⟨rfl,rfl,rfl⟩) fun _ _ eq =>
          ends_pure ⟨congrArg entries eq.1,eq.2⟩
    rintro ⟨idblock,idbuf⟩ t ⟨rfl,eq⟩
    dsimp only
    rw [if_neg (by simp)]
    exact ends_pure ⟨rfl,eq⟩
  unfold tableAt
  split
  · exact fun hit => absurd rfl hit
  · exact placed.entry ‹_› k

lemma dobmap_entry (size : sectorOf v.inode.indirect.toNat < ck.dBlocks) (k : Fin dbPerIdb) :
    Gives (dobmap v.inode (nDirect+k) ck) (tableAt ck.disk v.inode (sectorOf v.inode.indirect.toNat) k) := by
  have place h : (⟨nDirect+k-nDirect,h⟩ : Fin dbPerIdb) = k := Fin.ext (Nat.add_sub_cancel_left ..)
  unfold dobmap tableAt
  rw [dif_neg (by omega),dif_pos (by omega)]
  split
  · exact rfl
  refine ends_bind (Q := fun data _ => data = ck.disk (sectorOf v.inode.indirect.toNat)) ?_ fun data _ eq =>
    ends_pure (by rw [eq,place])
  refine ends_bind_get ?_
  rw [if_pos size]
  exact ends_pure rfl

lemma Gives.unique {ε σ : Type} {outcome : EStateM.Result ε σ Nat} (one : Gives outcome b) (two : Gives outcome c) :
    b = c := by
  cases outcome with
  | ok a t => exact Eq.trans (Eq.symm one) two
  | error e t => exact one.elim

theorem dobmap_agrees_iff (quiet : Quiet s) (loaded : s.vnodes i = some v) (placed : Placed s v.inode)
    (image : ck.disk = s.disk) (device : ck.dBlocks = s.dBlocks) :
    ((∀ k, k < nDirect+dbPerIdb → ∃ b, Gives (sfsBmap i k false s) b ∧ Gives (dobmapLevels v.inode k ck) b) ↔
      v.inode.indirect.toNat = 0 ∨
        entries (s.disk (sectorOf v.inode.indirect.toNat)) = entries (s.disk v.inode.indirect.toNat)) ∧
    ∀ k, nDirect+dbPerIdb ≤ k → sfsBmap i k false s = .error (.errno .efbig) s ∧
      dobmapLevels v.inode k ck = .ok 0 ck := by
  simp only [dobmapLevels_eq]
  have below : v.inode.indirect.toNat ≠ 0 → sectorOf v.inode.indirect.toNat < ck.dBlocks := by
    intro there
    have inside := placed.indirect there
    rw [device]
    unfold sectorOf blockSize
    omega
  refine ⟨⟨fun same => ?_,fun alike k inside => ?_⟩,fun k far => ⟨?_,?_⟩⟩
  · refine or_iff_not_imp_left.mpr fun there => funext fun k => BitVec.eq_of_toNat_eq ?_
    obtain ⟨b,one,two⟩ := same (nDirect+k) (by omega)
    have kernel := one.unique (bmap_entry quiet loaded placed k)
    have fsck := two.unique (dobmap_entry (below there) k)
    rw [tableAt,if_neg there] at kernel fsck
    rw [← image,← fsck,kernel,image]
  · by_cases direct : k < nDirect
    · refine ⟨_,bmap_direct loaded placed ⟨k,direct⟩,?_⟩
      rw [dobmap,dif_pos direct]
      exact rfl
    obtain ⟨j,rfl⟩ := Nat.exists_eq_add_of_le (Nat.not_lt.mp direct)
    have entry := bmap_entry quiet loaded placed ⟨j,by omega⟩
    refine ⟨_,entry,?_⟩
    by_cases there : v.inode.indirect.toNat = 0
    · rw [dobmap,dif_neg direct,dif_pos (by omega),if_pos there,tableAt,if_pos there]
      exact rfl
    have found := dobmap_entry (below there) ⟨j,by omega⟩
    rwa [tableAt,image,alike.resolve_left there] at found
  · have big : 0 < (k-nDirect)/dbPerIdb := Nat.div_pos (by omega) (by decide)
    rw [sfsBmap,findBlock,dif_neg (by omega),if_pos big]
    rfl
  rw [dobmap,dif_neg (by omega),dif_neg (by omega)]
  rfl

-- A file whose indirect block is block `n`, on a volume that ends four blocks later. With n = 2^23+4 that volume is
-- larger than four gigabytes.
def indirectDisk (n : Nat) : Nat → Block := fun b k => if b = n ∧ k = 3 then 5 else 0
def indirectVnode (n : Nat) : Vnode := ⟨⟨0,1,1,fun _ => 0,BitVec.ofNat 32 n⟩,false,1⟩

def indirectVolume (n : Nat) : State :=
  {unmounted (indirectDisk n) (n+4) (fun _ => none) (fun _ => true) with
    nblocks := n+4,vnodes := fun _ => some (indirectVnode n)}

def indirectFsck (n : Nat) : Fsck :=
  ⟨indirectDisk n,n+4,n+4,2049,fun _ => false,fun _ => false,0,0,fun _ => ⟨0,0⟩,0,0,fun _ => true,0⟩

lemma indirect_placed (small : (BitVec.ofNat 32 n).toNat = n) (lt : ∀ k, (entries (indirectDisk n n) k).toNat < n+4) :
    Placed (indirectVolume n) (indirectVnode n).inode where
  direct _ there := absurd rfl there
  indirect _ := by
    rw [indirectVnode,small]
    exact Nat.lt_add_of_pos_right (by decide)
  entry _ k _ := by
    rw [indirectVnode,small]
    exact ⟨lt k,rfl⟩

theorem dobmap_agrees_low : (∃ b, Gives (sfsBmap 3 15 false (indirectVolume 4)) b ∧
      Gives (dobmapLevels (indirectVnode 4).inode 15 (indirectFsck 4)) b) ∧
    sfsBmap 3 143 false (indirectVolume 4) = .error (.errno .efbig) (indirectVolume 4) ∧
    dobmapLevels (indirectVnode 4).inode 143 (indirectFsck 4) = .ok 0 (indirectFsck 4) := by
  obtain ⟨below,past⟩ := dobmap_agrees_iff (s := indirectVolume 4) (i := 3) (v := indirectVnode 4) ⟨rfl,rfl⟩ rfl
    (indirect_placed (by decide) (by decide +kernel)) (rfl : (indirectFsck 4).disk = _) rfl
  exact ⟨below.mpr (.inr rfl) 15 (by decide),past 143 (by decide)⟩

def blockOf {ε σ : Type} : EStateM.Result ε σ Nat → Option Nat
  | .ok b _ => some b
  | .error _ _ => none

theorem dobmap_reads_elsewhere : blockOf (sfsBmap 3 15 false (indirectVolume (2^23+4))) = some 5 ∧
    blockOf (dobmapLevels (indirectVnode (2^23+4)).inode 15 (indirectFsck (2^23+4))) = some 0 := by
  rw [dobmapLevels_eq]
  decide +kernel
end ToyOS.Sfsck

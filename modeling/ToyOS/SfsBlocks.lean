import ToyOS.SfsView
import ToyOS.Library.Ledger
import ToyOS.Library.Outcome

namespace ToyOS.Sfs
open Function Words Ledger

-- Who a block in use belongs to; `floating` is one that an operation has allocated and not yet stored.
inductive Owner where
  | super
  | map (j : Nat)
  | inode (i : Nat)
  | slot (i : Nat) (p : Slot)
  | floating
  deriving DecidableEq

def own (n : Nat) (live : Nat → Bool) (blocks : Nat → Slot → Nat) (floating : Option Nat) :
    Owner → Option Nat
  | .super => some sbLocation
  | .map j => if j < bitBlocks n then some (mapLocation+j) else none
  | .inode i => if live i then some i else none
  | .slot i p => if live i = true ∧ blocks i p ≠ 0 then some (blocks i p) else none
  | .floating => floating

section
variable {n b i : Nat} {p : Slot} {live : Nat → Bool} {blocks others : Nat → Slot → Nat}
  {floating : Option Nat}

lemma own_congr (eq : ∀ j, live j → others j = blocks j) : own n live others floating = own n live blocks floating := by
  funext o
  cases o with
  | super => rfl
  | map j => rfl
  | inode i => rfl
  | floating => rfl
  | slot i p =>
    cases alive : live i with
    | false => simp only [own,alive,Bool.false_eq_true,false_and,if_false]
    | true => simp only [own,eq i alive]

lemma own_slot (alive : live i) (hit : blocks i p ≠ 0) : own n live blocks floating (.slot i p) = some (blocks i p) :=
  if_pos ⟨alive,hit⟩

lemma own_inode (alive : live i) : own n live blocks floating (.inode i) = some i :=
  if_pos alive

lemma own_map (inside : i < bitBlocks n) : own n live blocks floating (.map i) = some (mapLocation+i) := if_pos inside

def setPointer (blocks : Nat → Slot → Nat) (i : Nat) (p : Slot) (b : Nat) : Nat → Slot → Nat :=
  update blocks i (update (blocks i) p b)

lemma setPointer_other (ne : Owner.slot j q ≠ .slot i p) : setPointer blocks i p b j q = blocks j q := by
  unfold setPointer
  rcases eq_or_ne j i with rfl | other
  · rw [update_self,update_of_ne]
    rintro rfl
    exact ne rfl
  · rw [update_of_ne other]

lemma setPointer_self : setPointer blocks i p b i p = b := by
  rw [setPointer,update_self,update_self]

lemma own_float : own n live blocks (some b) = update (own n live blocks none) .floating (some b) := by
  funext o
  rcases eq_or_ne o .floating with rfl | ne
  · rw [update_self]
    rfl
  rw [update_of_ne ne]
  cases o <;> first | rfl | exact absurd rfl ne

lemma own_attach (alive : live i) (nz : b ≠ 0) : own n live (setPointer blocks i p b) none =
      update (update (own n live blocks (some b)) .floating none) (.slot i p) (some b) := by
  funext o
  rcases eq_or_ne o (.slot i p) with rfl | ne
  · rw [update_self]
    have hit : setPointer blocks i p b i p ≠ 0 := by rwa [setPointer_self]
    rw [own_slot alive hit,setPointer_self]
  rw [update_of_ne ne]
  rcases eq_or_ne o .floating with rfl | settled
  · rw [update_self]
    rfl
  rw [update_of_ne settled]
  cases o with
  | slot j q => simp only [own,setPointer_other ne]
  | floating => exact absurd rfl settled
  | super => rfl
  | map j => rfl
  | inode j => rfl

lemma own_detach :
    own n live (setPointer blocks i p 0) floating = update (own n live blocks floating) (.slot i p) none := by
  funext o
  rcases eq_or_ne o (.slot i p) with rfl | ne
  · rw [update_self,own,setPointer_self,if_neg fun both => both.2 rfl]
  rw [update_of_ne ne]
  cases o with
  | slot j q => simp only [own,setPointer_other ne]
  | super => rfl
  | map j => rfl
  | inode j => rfl
  | floating => rfl

section
variable (bare : ∀ p, blocks i p = 0)
include bare

lemma own_live (alive : Bool) (other : o ≠ .inode i) :
    own n (update live i alive) blocks floating o = own n live blocks floating o := by
  cases o with
  | super => rfl
  | map j => rfl
  | floating => rfl
  | inode j =>
    have ne : j ≠ i := by
      rintro rfl
      exact other rfl
    simp only [own,update_of_ne ne]
  | slot j q =>
    rcases eq_or_ne j i with rfl | ne
    · simp only [own,bare q,ne_eq,not_true_eq_false,and_false,if_false]
    · simp only [own,update_of_ne ne]

lemma own_create : own n (update live i true) blocks none =
      update (update (own n live blocks (some i)) .floating none) (.inode i) (some i) := by
  funext o
  rcases eq_or_ne o (.inode i) with rfl | ne
  · rw [update_self]
    exact own_inode (update_self ..)
  rw [update_of_ne ne,own_live bare true ne,own_float,update_idem]
  exact congrFun (update_eq_self_iff.mpr rfl).symm o

lemma own_destroy : own n (update live i false) blocks floating =
      update (own n live blocks floating) (.inode i) none := by
  funext o
  rcases eq_or_ne o (.inode i) with rfl | ne
  · rw [update_self,own,update_self,if_neg Bool.false_ne_true]
  · rw [update_of_ne ne,own_live bare false ne]

end

end

-- The blocks are accounted for. `live` are the inodes that are there. The map on the disk is the one in memory unless
-- that is dirty.
structure Fs (s : State) (live : Nat → Bool) (floating : Option Nat) : Prop where
  ledger : Exact s.nblocks s.freemap (own s.nblocks live (pointer s) floating)
  past : ∀ b, s.nblocks ≤ b → s.freemap b = true
  cached : ∀ i v, s.vnodes i = some v →
    live i = true ∧ (v.dirty = false → decodeInode (s.disk i) = v.inode)
  fits : s.nblocks ≤ s.dBlocks
  small : s.nblocks ≤ maxBitBlocks*blockBits
  superblock : wordAt (s.disk sbLocation) 0 = magic ∧ (wordAt (s.disk sbLocation) 4).toNat = s.nblocks
  saved : s.freemapDirty = false → ∀ b, b < bitmapSize s.nblocks → mapBit s.disk b = s.freemap b

-- The superblock and the map on the disk are left alone, and a change of the map in memory is noted.
structure System (s t : State) : Prop where
  superblock : t.disk sbLocation = s.disk sbLocation
  map : ∀ j, j < bitBlocks s.nblocks → t.disk (mapLocation+j) = s.disk (mapLocation+j)
  freemap : t.freemapDirty = false → s.freemapDirty = false ∧ t.freemap = s.freemap

variable {s t : State} {live : Nat → Bool} {floating : Option Nat} {i j b : Nat} {v w : Vnode}
  {p : Slot} {o : Owner}

lemma System.still (disk : t.disk = s.disk) (freemap : t.freemap = s.freemap)
    (dirty : t.freemapDirty = s.freemapDirty) : System s t := by
  refine ⟨by rw [disk],fun j _ => by rw [disk],fun clean => ⟨?_,freemap⟩⟩
  rwa [dirty] at clean

lemma System.marked (disk : t.disk = s.disk) (dirty : t.freemapDirty) : System s t := by
  refine ⟨by rw [disk],fun j _ => by rw [disk],fun clean => ?_⟩
  rw [dirty] at clean
  cases clean

lemma mapBit_congr (system : System s t) (inside : b < bitmapSize s.nblocks) : mapBit t.disk b = mapBit s.disk b := by
  rw [mapBit,mapBit,system.map]
  refine Nat.div_lt_of_lt_mul ?_
  rw [bitBlocks_eq,Nat.mul_comm]
  exact inside

lemma Fs.rebuild {after : Nat → Bool} (fs : Fs s live floating) (fixed : Fixed s t)
    (system : System s t) (ledger : Exact s.nblocks t.freemap (own s.nblocks after (pointer t) rest))
    (past : ∀ b, s.nblocks ≤ b → t.freemap b) (cached : ∀ i v, t.vnodes i = some v →
      after i ∧ (v.dirty = false → decodeInode (t.disk i) = v.inode)) : Fs t after rest where
  ledger := by rwa [fixed.nblocks]
  past := by rwa [fixed.nblocks]
  cached := cached
  fits := by
    rw [fixed.nblocks,fixed.dBlocks]
    exact fs.fits
  small := by
    rw [fixed.nblocks]
    exact fs.small
  superblock := by
    rw [system.superblock,fixed.nblocks]
    exact fs.superblock
  saved clean b inside := by
    rw [fixed.nblocks] at inside
    obtain ⟨pre,eq⟩ := system.freemap clean
    rw [mapBit_congr system inside,eq]
    exact fs.saved pre b inside

section
variable (fs : Fs s live floating)
include fs

lemma Fs.alive (load : s.vnodes i = some v) : live i :=
  (fs.cached i v load).1

lemma Fs.below (free : s.freemap b = false) : b < s.nblocks := by
  by_contra beyond
  have marked := fs.past b (Nat.le_of_not_lt beyond)
  rw [free] at marked
  cases marked

lemma Fs.held_word (held : own s.nblocks live (pointer s) floating o = some b) : (BitVec.ofNat 32 b).toNat = b := by
  have lt := (fs.ledger.held o b held).1
  have small := fs.small
  unfold maxBitBlocks blockBits at small
  rw [BitVec.toNat_ofNat]
  exact Nat.mod_eq_of_lt (by omega)

lemma Fs.held_nonzero (held : own s.nblocks live (pointer s) floating o = some b) (ne : o ≠ .super) : b ≠ 0 := by
  rintro rfl
  exact ne (fs.ledger.unique o .super 0 held rfl)

end

lemma alike_apart (alive : live j) (inode : own n live (pointer s) floating (.inode j) ≠ some b)
    (slots : ∀ p, own n live (pointer s) floating (.slot j p) ≠ some b) (disk : ∀ c ≠ b, t.disk c = s.disk c)
    (vnodes : t.vnodes j = s.vnodes j) : Alike s t j := by
  refine alike_of_frame vnodes (disk j ?_) fun p hit => disk _ ?_
  · rintro rfl
    exact inode (own_inode alive)
  intro eq
  exact slots p ((own_slot alive hit).trans (congrArg some eq))

section
variable (fs : Fs s live floating)
include fs

lemma Fs.alike_free (free : s.freemap b = false) (alive : live j)
    (disk : ∀ c ≠ b, t.disk c = s.disk c) (vnodes : t.vnodes j = s.vnodes j) : Alike s t j :=
  alike_apart alive (fs.ledger.unowned free _) (fun _ => fs.ledger.unowned free _) disk vnodes

section
variable (held : own s.nblocks live (pointer s) floating o = some b)
include held

lemma Fs.alike_other (alive : live j) (inode : o ≠ .inode j) (slots : ∀ p, o ≠ .slot j p)
    (disk : ∀ c ≠ b, t.disk c = s.disk c) (vnodes : t.vnodes j = s.vnodes j) : Alike s t j :=
  alike_apart alive (fs.ledger.other held inode.symm) (fun p => fs.ledger.other held (slots p).symm) disk vnodes

lemma Fs.inode_apart (alive : live j) (inode : o ≠ .inode j) : j ≠ b := by
  rintro rfl
  exact fs.ledger.other held inode.symm (own_inode alive)

end

lemma Fs.system_free (free : s.freemap b = false) (disk : ∀ c ≠ b, t.disk c = s.disk c)
    (freemap : t.freemapDirty = false → s.freemapDirty = false ∧ t.freemap = s.freemap) : System s t := by
  refine ⟨disk _ ?_,fun j inside => disk _ ?_,freemap⟩
  · rintro rfl
    exact fs.ledger.unowned free .super rfl
  rintro rfl
  exact fs.ledger.unowned free _ (own_map inside)

lemma Fs.system_held (held : own s.nblocks live (pointer s) floating o = some b) (notSuper : o ≠ .super)
    (notMap : ∀ j, o ≠ .map j) (disk : ∀ c ≠ b, t.disk c = s.disk c)
    (freemap : t.freemapDirty = false → s.freemapDirty = false ∧ t.freemap = s.freemap) : System s t := by
  refine ⟨disk _ ?_,fun j inside => disk _ ?_,freemap⟩
  · rintro rfl
    exact fs.ledger.other held notSuper.symm rfl
  rintro rfl
  exact fs.ledger.other held (notMap j).symm (own_map inside)

end

lemma Fs.allocate (fs : Fs s live none) (free : s.freemap b = false) (fixed : Fixed s t)
    (freemap : t.freemap = update s.freemap b true) (dirty : t.freemapDirty) (disk : ∀ c ≠ b, t.disk c = s.disk c)
    (vnodes : t.vnodes = s.vnodes) : Fs t live (some b) ∧ ∀ j, live j → Alike s t j := by
  have alike : ∀ j, live j → Alike s t j := fun j alive => fs.alike_free free alive disk (congrFun vnodes j)
  refine ⟨fs.rebuild fixed ?_ ?_ ?_ ?_,alike⟩
  · refine fs.system_free free disk fun clean => ?_
    rw [dirty] at clean
    cases clean
  · rw [freemap,own_congr fun j alive => (alike j alive).pointer,own_float]
    exact fs.ledger.take free (fs.below free) rfl
  · intro c beyond
    rw [freemap]
    rcases eq_or_ne c b with rfl | ne
    · exact update_self ..
    rw [update_of_ne ne]
    exact fs.past c beyond
  intro j v load
  rw [vnodes] at load
  obtain ⟨alive,clean⟩ := fs.cached j v load
  refine ⟨alive,fun eq => ?_⟩
  rw [disk j,clean eq]
  rintro rfl
  exact fs.ledger.unowned free _ (own_inode alive)

lemma Fs.attach (fs : Fs s live (some b)) (alive : live i) (fixed : Fixed s t) (system : System s t)
    (freemap : t.freemap = s.freemap) (empty : pointer s i p = 0) (self : pointer t i = update (pointer s i) p b)
    (others : ∀ j, live j → j ≠ i → pointer t j = pointer s j)
    (cached : ∀ i v, t.vnodes i = some v → live i ∧ (v.dirty = false → decodeInode (t.disk i) = v.inode)) :
    Fs t live none := by
  have nz : b ≠ 0 := fs.held_nonzero (o := .floating) rfl Owner.noConfusion
  have blocks : ∀ j, live j → pointer t j = setPointer (pointer s) i p b j := by
    intro j lives
    unfold setPointer
    rcases eq_or_ne j i with rfl | ne
    · rw [update_self,self]
    · rw [update_of_ne ne,others j lives ne]
  refine fs.rebuild fixed system ?_ (by rw [freemap]; exact fs.past) cached
  rw [freemap,own_congr blocks,own_attach alive nz]
  exact fs.ledger.move rfl (if_neg fun both => both.2 empty)

section
variable (fs : Fs s live floating)
include fs

lemma Fs.detach (alive : live i) (fixed : Fixed s t) (system : System s t) (hit : pointer s i p ≠ 0)
    (freemap : t.freemap = update s.freemap (pointer s i p) false) (self : pointer t i = update (pointer s i) p 0)
    (others : ∀ j, live j → j ≠ i → pointer t j = pointer s j)
    (cached : ∀ i v, t.vnodes i = some v → live i ∧ (v.dirty = false → decodeInode (t.disk i) = v.inode)) :
    Fs t live floating := by
  have held : own s.nblocks live (pointer s) floating (.slot i p) = some (pointer s i p) := own_slot alive hit
  have lt := (fs.ledger.held _ _ held).1
  have blocks : ∀ j, live j → pointer t j = setPointer (pointer s) i p 0 j := by
    intro j lives
    unfold setPointer
    rcases eq_or_ne j i with rfl | ne
    · rw [update_self,self]
    · rw [update_of_ne ne,others j lives ne]
  refine fs.rebuild fixed system ?_ ?_ cached
  · rw [freemap,own_congr blocks,own_detach]
    exact fs.ledger.release held
  intro c beyond
  rw [freemap,update_of_ne (by omega)]
  exact fs.past c beyond

lemma Fs.steady (fixed : Fixed s t) (system : System s t) (freemap : t.freemap = s.freemap)
    (ptrs : ∀ j, live j → pointer t j = pointer s j)
    (cached : ∀ i v, t.vnodes i = some v → live i ∧ (v.dirty = false → decodeInode (t.disk i) = v.inode)) :
    Fs t live floating := by
  refine fs.rebuild fixed system ?_ (by rw [freemap]; exact fs.past) cached
  rw [freemap,own_congr ptrs]
  exact fs.ledger

lemma Fs.cached_update (alive : live i) (vnodes : t.vnodes = update s.vnodes i (some w))
    (clean : w.dirty = false → decodeInode (t.disk i) = w.inode) (disk : ∀ j, live j → j ≠ i → t.disk j = s.disk j) :
    ∀ j v, t.vnodes j = some v → live j ∧ (v.dirty = false → decodeInode (t.disk j) = v.inode) := by
  intro j v load
  rw [vnodes] at load
  rcases eq_or_ne j i with rfl | ne
  · rw [update_self] at load
    cases load
    exact ⟨alive,clean⟩
  rw [update_of_ne ne] at load
  obtain ⟨lives,eq⟩ := fs.cached j v load
  rw [disk j lives ne]
  exact ⟨lives,eq⟩

end
end ToyOS.Sfs

import ToyOS.SfsSteps
import ToyOS.Library.Transition

namespace ToyOS.Sfs
open Function Words Outcome Transition List Nat

variable {s t u : State} {live after : Nat → Bool} {i j b n : Nat} {E : Fault → State → Prop}
  {disk image : Nat → Block} {volname : List UInt8}

-- sfs_mapio: the bits of the map blocks of `l` have been read.
structure Remapped (s : State) (l : List Nat) (t : State) : Prop where
  fixed : Fixed s t
  disk : t.disk = s.disk
  freemap : ∀ b, t.freemap b = if b/blockBits ∈ l then mapBit s.disk b else s.freemap b

def State.readBits (s : State) (k : Nat) : State :=
  {s with
    ios := s.ios+1,
    freemap := fun b => if b/blockBits = k then bitAt (s.disk (mapLocation+k)) (b % blockBits) else s.freemap b}

lemma ends_readMap (l : List Nat) (quiet : Quiet s) (inside : ∀ j ∈ l, mapLocation+j < s.dBlocks) :
    Ends (readMap l s) (fun _ t => Remapped s l t) E := by
  induction l generalizing s with
  | nil => exact ends_pure ⟨.refl,rfl,fun b => (if_neg not_mem_nil).symm⟩
  | cons k rest ih =>
    refine ends_bind (ends_rblock (Q := fun data t => data = s.disk (mapLocation+k) ∧ t = {s with ios := s.ios+1})
      quiet (inside k (mem_cons_self ..)) ⟨rfl,rfl⟩) ?_
    rintro _ _ ⟨rfl,rfl⟩
    refine ends_bind_modify ((ih (s := s.readBits k) ⟨quiet.device,quiet.memory⟩ fun j mem =>
      inside j (mem_cons_of_mem _ mem)).imp ?_)
    intro _ t remapped
    refine ⟨⟨remapped.fixed.nblocks,remapped.fixed.dBlocks,remapped.fixed.device,remapped.fixed.memory⟩,
      remapped.disk,fun b => ?_⟩
    rw [remapped.freemap b]
    by_cases later : b/blockBits ∈ rest
    · rw [if_pos later,if_pos (mem_cons_of_mem _ later)]
      rfl
    rw [if_neg later]
    by_cases now : b/blockBits = k
    · subst now
      rw [if_pos (mem_cons_self ..)]
      exact if_pos rfl
    rw [if_neg fun mem => (mem_cons.mp mem).elim now later]
    exact if_neg now

lemma div_lt_bitBlocks : b/blockBits < bitBlocks n ↔ b < bitmapSize n := by
  rw [bitBlocks_eq,bitmapSize]
  exact div_lt_iff_lt_mul (by decide)

-- sfs_domount, of a device with the magic number and a map.
structure Mounted (s t : State) : Prop where
  disk : t.disk = s.disk
  dBlocks : t.dBlocks = s.dBlocks
  device : t.device = s.device
  memory : t.memory = s.memory
  nblocks : t.nblocks = (wordAt (s.disk sbLocation) 4).toNat
  freemap : ∀ b, t.freemap b = if b < bitmapSize t.nblocks then mapBit s.disk b else true
  clean : t.freemapDirty = false
  vnodes : t.vnodes = fun _ => none

lemma ends_domount (quiet : Quiet s) (ok : wordAt (s.disk sbLocation) 0 = magic)
    (fits : mapLocation+bitBlocks (wordAt (s.disk sbLocation) 4).toNat ≤ s.dBlocks) :
    Ends (sfsDomount s) (fun _ t => Mounted s t) E := by
  refine ends_bind (ends_kmalloc (Q := fun _ t => Calm s t) quiet calm_kmalloc) fun _ t one => ?_
  refine ends_bind (ends_kmalloc (Q := fun _ u => Calm s u) (one.fixed.quiet quiet) (one.trans calm_kmalloc))
    fun _ u two => ?_
  have inside : sbLocation < u.dBlocks := by
    rw [two.fixed.dBlocks]
    unfold mapLocation at fits
    unfold sbLocation
    omega
  refine ends_bind (ends_rblock (Q := fun data w => data = s.disk sbLocation ∧ Calm s w)
    (two.fixed.quiet quiet) inside ⟨congrFun two.disk _,two.trans calm_transfer⟩) ?_
  rintro _ w ⟨rfl,third⟩
  rw [if_neg fun other => other ok]
  refine ends_bind (ends_kmalloc (Q := fun _ u => Calm s u) (third.fixed.quiet quiet) (third.trans calm_kmalloc))
    fun _ x calm => ?_
  refine ends_bind_modify (ends_bind (ends_readMap _ ⟨(calm.fixed.quiet quiet).device,(calm.fixed.quiet quiet).memory⟩
    fun j mem => ?_) fun _ y remapped => ends_modify ?_)
  · refine lt_of_lt_of_le (Nat.add_lt_add_left (mem_range.mp mem) mapLocation) ?_
    exact le_trans fits (le_of_eq calm.fixed.dBlocks.symm)
  have fixed := remapped.fixed
  have nblocks : y.nblocks = (wordAt (s.disk sbLocation) 4).toNat := fixed.nblocks
  refine ⟨remapped.disk.trans calm.disk,fixed.dBlocks.trans calm.fixed.dBlocks,fixed.device.trans calm.fixed.device,
    fixed.memory.trans calm.fixed.memory,nblocks,fun b => ?_,rfl,rfl⟩
  change y.freemap b = if b < bitmapSize y.nblocks then mapBit s.disk b else true
  rw [remapped.freemap b,nblocks]
  by_cases here : b < bitmapSize (wordAt (s.disk sbLocation) 4).toNat
  · rw [if_pos here,if_pos (mem_range.mpr (div_lt_bitBlocks.mpr here))]
    exact congrArg (mapBit · b) calm.disk
  rw [if_neg here,if_neg fun mem => here (div_lt_bitBlocks.mp (mem_range.mp mem))]
  exact decide_eq_true (Nat.le_of_not_lt here)

variable {bits : Nat → Bool}

lemma doallocbit_marks {l : List Nat} {marked : Nat → Bool}
    (marks : l.foldlM doallocbit bits = some marked) : marked b ↔ bits b ∨ b ∈ l := by
  induction l generalizing bits with
  | nil =>
    cases marks
    exact (or_iff_left not_mem_nil).symm
  | cons k rest ih =>
    rw [foldlM_cons] at marks
    obtain ⟨next,one,more⟩ := Option.bind_eq_some_iff.mp marks
    unfold doallocbit at one
    split at one
    · cases one
    cases one
    rw [ih more,mem_cons]
    rcases eq_or_ne b k with rfl | ne
    · rw [update_self]
      exact iff_of_true (.inl rfl) (.inr (.inl rfl))
    rw [update_of_ne ne]
    exact or_congr_right (or_iff_right ne).symm

lemma doallocbit_succeeds {l : List Nat} (once : l.Nodup)
    (clear : ∀ b ∈ l, bits b = false) : ∃ marked, l.foldlM doallocbit bits = some marked := by
  induction l generalizing bits with
  | nil => exact ⟨bits,rfl⟩
  | cons k rest ih =>
    obtain ⟨first,later⟩ := nodup_cons.mp once
    have one : doallocbit bits k = some (update bits k true) := by
      rw [doallocbit,clear k (mem_cons_self ..)]
      rfl
    rw [foldlM_cons,one]
    refine ih later fun b mem => ?_
    rw [update_of_ne]
    · exact clear b (mem_cons_of_mem _ mem)
    rintro rfl
    exact first mem

variable {l : List (Nat × Block)}

lemma diskwrite_untouched (writes : l.foldlM (diskwrite n) disk = some image)
    (ne : ∀ w ∈ l, w.1 ≠ b) : image b = disk b := by
  induction l generalizing disk with
  | nil =>
    cases writes
    rfl
  | cons w rest ih =>
    rw [foldlM_cons] at writes
    obtain ⟨next,one,more⟩ := Option.bind_eq_some_iff.mp writes
    obtain ⟨_,eq⟩ := Option.ite_none_right_eq_some.mp one
    cases eq
    rw [ih more fun x mem => ne x (mem_cons_of_mem _ mem)]
    exact update_of_ne (ne w (mem_cons_self ..)).symm ..

lemma diskwrite_stored (writes : l.foldlM (diskwrite n) disk = some image)
    (once : (l.map Prod.fst).Nodup) : ∀ w ∈ l, w.1 < n ∧ image w.1 = w.2 := by
  induction l generalizing disk with
  | nil => exact fun w mem => (not_mem_nil mem).elim
  | cons x rest ih =>
    rw [foldlM_cons] at writes
    obtain ⟨next,one,more⟩ := Option.bind_eq_some_iff.mp writes
    obtain ⟨first,later⟩ := nodup_cons.mp once
    intro w mem
    rcases mem_cons.mp mem with rfl | mem
    · obtain ⟨inside,eq⟩ := Option.ite_none_right_eq_some.mp one
      cases eq
      refine ⟨inside,(diskwrite_untouched more fun x mem eq => first ?_).trans (update_self ..)⟩
      exact mem_map.mpr ⟨x,mem,eq⟩
    · exact ih more later w mem

lemma diskwrite_succeeds (inside : ∀ w ∈ l, w.1 < n) : ∃ image, l.foldlM (diskwrite n) disk = some image := by
  induction l generalizing disk with
  | nil => exact ⟨disk,rfl⟩
  | cons w rest ih =>
    rw [foldlM_cons,diskwrite,if_pos (inside w (mem_cons_self ..))]
    exact ih fun x mem => inside x (mem_cons_of_mem _ mem)

lemma map_apart (j : Nat) : sbLocation ≠ mapLocation+j ∧ rootLocation ≠ mapLocation+j := by
  unfold sbLocation rootLocation mapLocation
  omega

def places (count : Nat) : List Nat := [sbLocation,rootLocation]++(List.range count).map (mapLocation+·)

lemma mem_layout : b < mapLocation+n ↔ b = sbLocation ∨ b = rootLocation ∨ ∃ j < n, b = mapLocation+j := by
  unfold sbLocation rootLocation mapLocation
  constructor
  · intro low
    rcases (show b = 0 ∨ b = 1 ∨ 2 ≤ b by omega) with one | two | map
    · exact .inl one
    · exact .inr (.inl two)
    · exact .inr (.inr ⟨b-2,by omega,by omega⟩)
  · rintro (rfl | rfl | ⟨j,inside,rfl⟩) <;> omega

lemma mem_places {count : Nat} : b ∈ places count ↔ b < mapLocation+count := by
  rw [mem_layout,places]
  simp only [mem_append,mem_cons,not_mem_nil,or_false,mem_map,mem_range,or_assoc,eq_comm (a := b)]

lemma nodup_offset (one count : Nat) : ((List.range count).map (one+·)).Nodup :=
  nodup_range.map fun _ _ eq => add_left_cancel eq

lemma nodup_places (count : Nat) : (places count).Nodup := by
  refine nodup_append.mpr ⟨by decide,nodup_offset ..,?_⟩
  intro a first c two same
  obtain ⟨j,_,rfl⟩ := mem_map.mp two
  have low : a = sbLocation ∨ a = rootLocation := by simpa using first
  unfold mapLocation at same
  unfold sbLocation rootLocation at low
  omega

lemma mem_mksfsBits : b ∈ mksfsBits n ↔ b < mapLocation+bitBlocks n ∨ n ≤ b ∧ b < bitmapSize n := by
  refine mem_append.trans (or_congr mem_places ?_)
  simp only [mem_map,mem_range]
  constructor
  · rintro ⟨j,inside,rfl⟩
    omega
  rintro ⟨past,inside⟩
  exact ⟨b-n,by omega,by omega⟩

lemma nodup_mksfsBits (room : mapLocation+bitBlocks n ≤ n) : (mksfsBits n).Nodup := by
  refine nodup_append.mpr ⟨nodup_places _,nodup_offset ..,?_⟩
  intro a first c two same
  obtain ⟨k,_,rfl⟩ := mem_map.mp two
  have low := mem_places.mp first
  omega

def reserved (n b : Nat) : Bool := b < mapLocation+bitBlocks n || n ≤ b && b < bitmapSize n

def layout (disk : Nat → Block) (n : Nat) (volname : List UInt8) (b : Nat) : Block :=
  if b = sbLocation then superBlock n volname
  else if b = rootLocation then encodeInode rootInode
  else if b < mapLocation+bitBlocks n then mapBlock (reserved n) (b-mapLocation)
  else disk b

def mksfsWrites (n : Nat) (volname : List UInt8) (bits : Nat → Bool) : List (Nat × Block) :=
  [(sbLocation,superBlock n volname),(rootLocation,encodeInode rootInode)]++
    (List.range (bitBlocks n)).map fun j => (mapLocation+j,mapBlock bits j)

lemma mksfsWrites_places : (mksfsWrites n volname bits).map Prod.fst = places (bitBlocks n) := by
  rw [mksfsWrites,map_append,map_map]
  rfl

lemma writes_layout (writes : (mksfsWrites n volname (reserved n)).foldlM (diskwrite n) disk = some image) :
    mapLocation+bitBlocks n ≤ n ∧ image = layout disk n volname := by
  have once : ((mksfsWrites n volname (reserved n)).map Prod.fst).Nodup := by
    rw [mksfsWrites_places]
    exact nodup_places _
  have stored := diskwrite_stored writes once
  have superblock := stored (sbLocation,superBlock n volname) (mem_append_left _ (mem_cons_self ..))
  have root := stored (rootLocation,encodeInode rootInode) (mem_append_left _ (mem_cons_of_mem _ (mem_cons_self ..)))
  have map : ∀ j < bitBlocks n, mapLocation+j < n ∧ image (mapLocation+j) = mapBlock (reserved n) j :=
    fun j inside => stored (mapLocation+j,mapBlock (reserved n) j)
      (mem_append_right _ (mem_map.mpr ⟨j,mem_range.mpr inside,rfl⟩))
  constructor
  · rcases Nat.eq_zero_or_pos (bitBlocks n) with none_ | some_
    · rw [none_]
      exact root.1
    have last := (map (bitBlocks n-1) (by omega)).1
    omega
  funext b
  unfold layout
  split
  · rename_i one
    rw [one]
    exact superblock.2
  rename_i notSuper
  split
  · rename_i two
    rw [two]
    exact root.2
  rename_i notRoot
  have past : mapLocation ≤ b := by
    unfold sbLocation at notSuper
    unfold rootLocation at notRoot
    unfold mapLocation
    omega
  split
  · rename_i inside
    have place : mapLocation+(b-mapLocation) = b := by omega
    have written := (map (b-mapLocation) (by omega)).2
    rwa [place] at written
  rename_i out
  refine diskwrite_untouched writes fun w mem eq => ?_
  have place : w.1 ∈ (mksfsWrites n volname (reserved n)).map Prod.fst := mem_map_of_mem mem
  rw [mksfsWrites_places,eq] at place
  exact out (mem_places.mp place)

lemma mksfs_eq_some : mksfs disk n volname = some image ↔
    volname.length < volnameSize ∧ bitBlocks n ≤ maxBitBlocks ∧ mapLocation+bitBlocks n ≤ n ∧
      image = layout disk n volname := by
  have marked : ∀ {bits}, (mksfsBits n).foldlM doallocbit (fun _ => false) = some bits → bits = reserved n := by
    intro bits marks
    funext b
    rw [Bool.eq_iff_iff,doallocbit_marks marks,mem_mksfsBits,reserved,Bool.or_eq_true,Bool.and_eq_true,
      decide_eq_true_eq,decide_eq_true_eq,decide_eq_true_eq]
    exact or_iff_right Bool.false_ne_true
  constructor
  · intro made
    unfold mksfs at made
    split at made
    · cases made
    rename_i accepted
    obtain ⟨short,lt⟩ := not_or.mp accepted
    obtain ⟨bits,marks,writes⟩ := Option.bind_eq_some_iff.mp made
    cases marked marks
    exact ⟨Nat.lt_of_not_le short,Nat.le_of_not_lt lt,writes_layout writes⟩
  rintro ⟨short,lt,room,rfl⟩
  obtain ⟨bits,marks⟩ := doallocbit_succeeds (nodup_mksfsBits room) fun _ _ => rfl
  cases marked marks
  have inside : ∀ w, w ∈ mksfsWrites n volname (reserved n) → w.1 < n := by
    intro w member
    have place : w.1 ∈ (mksfsWrites n volname (reserved n)).map Prod.fst := mem_map_of_mem member
    rw [mksfsWrites_places] at place
    exact lt_of_lt_of_le (mem_places.mp place) room
  obtain ⟨image,writes⟩ := diskwrite_succeeds inside
  rw [mksfs,if_neg (not_or.mpr ⟨Nat.not_le_of_lt short,Nat.not_lt_of_le lt⟩),marks]
  exact writes.trans (congrArg some (writes_layout writes).2)

-- What the kernel finds on the device.
structure Image (image : Nat → Block) (n : Nat) : Prop where
  room : mapLocation+bitBlocks n ≤ n
  small : n ≤ maxBitBlocks*blockBits
  valid : wordAt (image sbLocation) 0 = magic
  nblocks : (wordAt (image sbLocation) 4).toNat = n
  root : decodeInode (image rootLocation) = rootInode
  map : ∀ b, b < bitmapSize n → mapBit image b = reserved n b

lemma mksfs_image (made : mksfs disk n volname = some image) : Image image n := by
  obtain ⟨_,blocks,room,rfl⟩ := mksfs_eq_some.mp made
  have lt : n ≤ maxBitBlocks*blockBits := by
    rw [bitBlocks_eq] at blocks
    exact le_trans (le_bitmapSize n) (Nat.mul_le_mul_right _ blocks)
  refine ⟨room,lt,superBlock_magic ..,?_,decode_encode rootInode,fun b inside => ?_⟩
  · rw [show layout disk n volname sbLocation = superBlock n volname from rfl,superBlock_nblocks,BitVec.toNat_ofNat]
    exact Nat.mod_eq_of_lt (lt_of_le_of_lt lt (by decide))
  have block := div_lt_bitBlocks.mpr inside
  refine mapBit_mapBlock (reserved n) ?_
  unfold layout
  rw [if_neg,if_neg,if_pos (Nat.add_lt_add_left block _),Nat.add_sub_cancel_left]
  · exact (map_apart _).2.symm
  · exact (map_apart _).1.symm

def onlyRoot (i : Nat) : Bool := i == rootLocation
lemma onlyRoot_iff : onlyRoot i ↔ i = rootLocation := beq_iff_eq

lemma own_onlyRoot {blocks : Nat → Slot → Nat} (bare : ∀ p, blocks rootLocation p = 0) :
    own n onlyRoot blocks none o = some b ↔ o = .super ∧ b = sbLocation ∨ o = .inode rootLocation ∧ b = rootLocation ∨
        ∃ j < bitBlocks n, o = .map j ∧ b = mapLocation+j := by
  constructor
  · intro held
    cases o with
    | super => exact .inl ⟨rfl,(Option.some.inj held).symm⟩
    | map j =>
      obtain ⟨inside,eq⟩ := Option.ite_none_right_eq_some.mp held
      exact .inr (.inr ⟨j,inside,rfl,(Option.some.inj eq).symm⟩)
    | inode i =>
      obtain ⟨alive,eq⟩ := Option.ite_none_right_eq_some.mp held
      cases onlyRoot_iff.mp alive
      exact .inr (.inl ⟨rfl,(Option.some.inj eq).symm⟩)
    | slot i p =>
      obtain ⟨⟨alive,hit⟩,_⟩ := Option.ite_none_right_eq_some.mp held
      cases onlyRoot_iff.mp alive
      exact absurd (bare p) hit
    | floating => cases held
  rintro (⟨rfl,rfl⟩ | ⟨rfl,rfl⟩ | ⟨j,inside,rfl,rfl⟩)
  · rfl
  · rfl
  · exact own_map inside

lemma Mounted.freemap_image (mounted : Mounted s t) (image : Image s.disk n) :
    t.freemap b ↔ b < mapLocation+bitBlocks n ∨ n ≤ b := by
  have nblocks := mounted.nblocks.trans image.nblocks
  rw [mounted.freemap b,nblocks]
  split
  · rename_i inside
    rw [image.map b inside,reserved,Bool.or_eq_true,Bool.and_eq_true,decide_eq_true_eq,decide_eq_true_eq,
      and_iff_left (decide_eq_true inside)]
  rename_i out
  exact iff_of_true rfl (.inr (le_trans (le_bitmapSize n) (Nat.le_of_not_lt out)))

lemma Mounted.root (mounted : Mounted s t) (image : Image s.disk n) : node t rootLocation = rootInode := by
  rw [node_unloaded (congrFun mounted.vnodes _),mounted.disk]
  exact image.root

lemma pointer_root (eq : node t rootLocation = rootInode) (p : Slot) : pointer t rootLocation p = 0 := by
  cases p with
  | direct k | entry k =>
    rw [pointer,eq]
    rfl
  | indirect =>
    rw [pointer,eq]
    rfl

section
variable (mounted : Mounted s t)
include mounted

lemma Mounted.fs (image : Image s.disk n) (fits : n ≤ s.dBlocks) : Fs t onlyRoot none := by
  have nblocks := mounted.nblocks.trans image.nblocks
  have bare := pointer_root (mounted.root image)
  have room := image.room
  refine ⟨⟨?_,?_,?_⟩,?_,?_,?_,?_,?_,?_⟩
  · intro o b held
    rw [nblocks] at held ⊢
    have low : b < mapLocation+bitBlocks n := by
      rcases (own_onlyRoot bare).mp held with ⟨_,eq⟩ | ⟨_,eq⟩ | ⟨j,inside,_,eq⟩
      · exact mem_layout.mpr (.inl eq)
      · exact mem_layout.mpr (.inr (.inl eq))
      · exact mem_layout.mpr (.inr (.inr ⟨j,inside,eq⟩))
    exact ⟨lt_of_lt_of_le low room,(mounted.freemap_image image).mpr (.inl low)⟩
  · intro b below used
    rw [nblocks] at below ⊢
    have low := ((mounted.freemap_image image).mp used).resolve_right (Nat.not_le_of_lt below)
    rcases mem_layout.mp low with rfl | rfl | ⟨j,inside,rfl⟩
    · exact ⟨.super,rfl⟩
    · exact ⟨.inode rootLocation,rfl⟩
    · exact ⟨.map j,own_map inside⟩
  · intro o p b first second
    have apart : sbLocation ≠ rootLocation := by decide
    rcases (own_onlyRoot bare).mp first with ⟨rfl,rfl⟩ | ⟨rfl,rfl⟩ | ⟨j,_,rfl,rfl⟩ <;>
      rcases (own_onlyRoot bare).mp second with ⟨rfl,eq⟩ | ⟨rfl,eq⟩ | ⟨k,_,rfl,eq⟩
    · rfl
    · exact absurd eq apart
    · exact absurd eq (map_apart k).1
    · exact absurd eq.symm apart
    · rfl
    · exact absurd eq (map_apart k).2
    · exact absurd eq.symm (map_apart j).1
    · exact absurd eq.symm (map_apart j).2
    · rw [Nat.add_left_cancel eq]
  · intro b past
    rw [nblocks] at past
    exact (mounted.freemap_image image).mpr (.inr past)
  · intro i v load
    rw [mounted.vnodes] at load
    cases load
  · rw [nblocks,mounted.dBlocks]
    exact fits
  · rw [nblocks]
    exact image.small
  · rw [mounted.disk]
    exact ⟨image.valid,mounted.nblocks.symm⟩
  intro _ b inside
  rw [mounted.disk,mounted.freemap b,if_pos inside]

lemma Mounted.slots (image : Image s.disk n) : slots t = 0 := by
  rw [Sfs.slots,mounted.root image]
  rfl

lemma Mounted.unbound (image : Image s.disk n) : ¬Binds t k name ino := by
  intro binds
  have inside := binds.1
  rw [mounted.slots image] at inside
  cases inside

lemma Mounted.consistent (image : Image s.disk n) (fits : n ≤ s.dBlocks) : Consistent t onlyRoot := by
  have root := mounted.root image
  have empty : ∀ i, links t i = 0 := by
    intro i
    rw [links,mounted.slots image]
    rfl
  refine ⟨mounted.fs image fits,⟨rfl,by rw [root]; rfl,?_,by rw [root]; rfl,by rw [root]; decide,?_,?_⟩,?_,?_,?_⟩
  · intro i alive ne
    exact absurd (onlyRoot_iff.mp alive) ne
  · exact fun k name ino binds => (mounted.unbound image binds).elim
  · exact fun k l name ino ne binds _ => (mounted.unbound image binds).elim
  · intro i alive
    cases onlyRoot_iff.mp alive
    rw [root,empty]
    rfl
  · exact fun i alive => .inl (onlyRoot_iff.mp alive)
  intro i v load
  rw [mounted.vnodes] at load
  cases load

end

-- A device with mksfs's file system of `nblocks` blocks. It does not fail, and there is always memory.
structure Formatted (nblocks : Nat) (s : State) : Prop where
  made : ∃ disk volname, mksfs disk nblocks volname = some s.disk
  fits : nblocks ≤ s.dBlocks
  quiet : Quiet s

def New (nblocks : Nat) (s : State) : Prop :=
  ∃ blank, Formatted nblocks blank ∧ sfsDomount blank = .ok ⟨⟩ s

lemma Formatted.written (fmt : Formatted n s) : Image s.disk n := by
  obtain ⟨disk,volname,made⟩ := fmt.made
  exact mksfs_image made

lemma Formatted.mounts (fmt : Formatted n s) : Ends (sfsDomount s) (fun _ t => Mounted s t) E := by
  have image := fmt.written
  refine ends_domount fmt.quiet image.valid ?_
  rw [image.nblocks]
  exact le_trans image.room fmt.fits

lemma Formatted.succeeds (fmt : Formatted n s) : ∃ t, sfsDomount s = .ok ⟨⟩ t ∧ Mounted s t := by
  have ends := fmt.mounts (E := fun _ _ => False)
  cases mount : sfsDomount s with
  | ok a t => exact ⟨t,rfl,ends.ok mount⟩
  | error e t => exact (ends.failed mount).elim

lemma New.consistent (new : New n s) : Consistent s onlyRoot ∧ Quiet s ∧ s.nblocks = n := by
  obtain ⟨blank,fmt,mount⟩ := new
  have mounted := (fmt.mounts (E := fun _ _ => False)).ok mount
  refine ⟨mounted.consistent fmt.written fmt.fits,⟨?_,?_⟩,mounted.nblocks.trans fmt.written.nblocks⟩
  · rw [mounted.device]
    exact fmt.quiet.device
  rw [mounted.memory]
  exact fmt.quiet.memory

lemma New.unnamed (new : New n s) (name : List UInt8) : directory s name = none := by
  obtain ⟨blank,fmt,mount⟩ := new
  have mounted := (fmt.mounts (E := fun _ _ => False)).ok mount
  exact directory_eq_none.mpr fun _ _ => mounted.unbound fmt.written

lemma reached_consistent {may : State → Call → Prop} (new : New n start)
    (path : Reached step may start s) : (∃ live, Consistent s live) ∧ Quiet s ∧ s.nblocks = n := by
  obtain ⟨ok,quiet,nblocks⟩ := new.consistent
  refine path.invariant (fun s => (∃ live, Consistent s live) ∧ Quiet s ∧ s.nblocks = n) ⟨⟨_,ok⟩,quiet,nblocks⟩ ?_
  rintro s call t _ ⟨⟨live,ok⟩,quiet,nblocks⟩ _ ran
  obtain ⟨after,evolved⟩ := step_evolved ok quiet ran
  exact ⟨⟨after,evolved.consistent⟩,evolved.fixed.quiet quiet,evolved.fixed.nblocks.trans nblocks⟩

theorem layout_agreed {dBlocks : Nat} (made : mksfs disk n volname = some image) (fits : n ≤ dBlocks) :
    ∃ start, sfsDomount (unmounted image dBlocks (fun _ => none) fun _ => true) = .ok ⟨⟩ start ∧
      (∀ b, start.freemap b = true ↔ b = sbLocation ∨ b = rootLocation ∨
        (∃ j, j < bitBlocks n ∧ b = mapLocation+j) ∨ n ≤ b) ∧
      ∀ s, Reached step Free start s →
        Ends (sfsBalloc s) (fun b _ => start.freemap b = false) (Errs fun errno _ => errno = .enospc) ∧
        ∀ c, Ready s c → returns s c = none → RenamesRoot s c := by
  have formatted : Formatted n (unmounted image dBlocks (fun _ => none) fun _ => true) :=
    ⟨⟨disk,volname,made⟩,fits,rfl,rfl⟩
  obtain ⟨start,mount,mounted⟩ := formatted.succeeds
  refine ⟨start,mount,fun b => ?_,fun s path => ?_⟩
  · rw [mounted.freemap_image formatted.written,mem_layout]
    simp only [or_assoc]
  obtain ⟨⟨live,consistent⟩,quiet,nblocks⟩ := reached_consistent ⟨_,formatted,mount⟩ path
  refine ⟨?_,fun c ready stopped => ?_⟩
  · refine (ends_balloc consistent.fs quiet).mono (fun b t granted => ?_) (Errs.mono fun _ _ full => full.1)
    rw [Bool.eq_false_iff,ne_eq,mounted.freemap_image formatted.written,mem_layout]
    have unowned := consistent.fs.ledger.unowned granted.free
    have below := consistent.fs.below granted.free
    rw [nblocks] at below unowned
    rintro ((rfl | rfl | ⟨j,inside,rfl⟩) | past)
    · exact unowned .super rfl
    · exact unowned _ (own_inode consistent.shape.root)
    · exact unowned _ (own_map inside)
    · exact Nat.not_le_of_lt below past
  by_contra sound
  obtain ⟨result,returned⟩ := returns_ready consistent quiet ready sound
  rw [stopped] at returned
  cases returned

def smallDisk : State := unmounted (layout (fun _ => zeros) 16 []) 16 (fun _ => none) fun _ => true

lemma smallDisk_made : mksfs (fun _ => zeros) 16 [] = some smallDisk.disk :=
  mksfs_eq_some.mpr ⟨by decide,by decide,by decide,rfl⟩

theorem layout_agreed_small :
    ∃ start, sfsDomount smallDisk = .ok ⟨⟩ start ∧ start.freemap 2 = true ∧ start.freemap 3 = false ∧
      ∀ s, Reached step Free start s →
        Ends (sfsBalloc s) (fun b _ => start.freemap b = false) (Errs fun errno _ => errno = .enospc) := by
  obtain ⟨start,mount,marked,never⟩ := layout_agreed smallDisk_made le_rfl
  refine ⟨start,mount,(marked 2).mpr (.inr (.inr (.inl ⟨0,by decide,rfl⟩))),?_,fun s path => (never s path).1⟩
  rw [Bool.eq_false_iff]
  intro used
  have one : bitBlocks 16 = 1 := rfl
  rcases (marked 3).mp used with first | second | ⟨j,inside,same⟩ | past
  · exact absurd first (by decide)
  · exact absurd second (by decide)
  · unfold mapLocation at same
    omega
  · exact absurd past (by decide)

def smallVolume : State :=
  match sfsDomount smallDisk with
  | .ok _ s => s
  | .error _ s => s

lemma smallVolume_new : New 16 smallVolume := by
  have fmt : Formatted 16 smallDisk := ⟨⟨_,_,smallDisk_made⟩,le_rfl,rfl,rfl⟩
  obtain ⟨s,mount,_⟩ := fmt.succeeds
  refine ⟨smallDisk,fmt,?_⟩
  rw [smallVolume,mount]
end ToyOS.Sfs

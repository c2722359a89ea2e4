import ToyOS.SfsDirectory

namespace ToyOS.Sfs
open Function Tally Option

variable {s t u : State} {live after : Nat → Bool} {i j ino slot : Nat} {v w : Vnode} {name : List UInt8}

def directory (s : State) (name : List UInt8) : Option Nat :=
  ((List.range (slots s)).find? fun k => named s k != noIno && nameAt s k == name).map (named s)

lemma binds_of_find (hit : (List.range (slots s)).find? (fun k => named s k != noIno && nameAt s k == name) = some k) :
    Binds s k name (named s k) := by
  have holds := List.find?_some hit
  rw [Bool.and_eq_true,bne_iff_ne,beq_iff_eq] at holds
  exact ⟨List.mem_range.mp (List.mem_of_find?_eq_some hit),rfl,holds.1,holds.2⟩

lemma directory_eq_none : directory s name = none ↔ ∀ k ino, ¬Binds s k name ino := by
  rw [directory,Option.map_eq_none_iff]
  constructor
  · intro none_ k ino binds
    refine List.find?_eq_none.mp none_ k (List.mem_range.mpr binds.1) ?_
    rw [Bool.and_eq_true,bne_iff_ne,beq_iff_eq,binds.2.1]
    exact binds.2.2
  intro none_
  cases hit : (List.range (slots s)).find? (fun k => named s k != noIno && nameAt s k == name) with
  | none => rfl
  | some k => exact absurd (binds_of_find hit) (none_ k _)

lemma directory_eq_some (shape : Shape s live) : directory s name = some ino ↔ ∃ k, Binds s k name ino := by
  constructor
  · intro hit
    obtain ⟨k,search,rfl⟩ := map_eq_some_iff.mp hit
    exact ⟨k,binds_of_find search⟩
  rintro ⟨k,binds⟩
  cases hit : (List.range (slots s)).find? (fun k => named s k != noIno && nameAt s k == name) with
  | none => exact absurd binds (directory_eq_none.mp (by rw [directory,hit]; rfl) k ino)
  | some l =>
    have eq := shape.names _ _ _ _ _ binds (binds_of_find hit)
    subst eq
    rw [directory,hit]
    exact congrArg some binds.2.1

lemma directory_congr (size : (node t rootLocation).size = (node s rootLocation).size)
    (bytes : byte t rootLocation = byte s rootLocation) : directory t = directory s := by
  funext name
  rw [directory,directory,slots_congr size,named_congr bytes,nameAt_congr bytes]

lemma directory_file (eq : file t rootLocation = file s rootLocation) : directory t = directory s :=
  directory_congr (congrArg File.size eq) (congrArg File.bytes eq)

lemma Linked.binds (linked : Linked live s name ino slot t) (whole : (node s rootLocation).size.toNat % sizeofDir = 0)
    (ran : 0 ∉ name) (word : (BitVec.ofNat 32 ino).toNat = ino) (nz : ino ≠ noIno) :
    Binds t k other j ↔ k = slot ∧ other = name ∧ j = ino ∨ Binds s k other j := by
  have written := linked.written
  have slots := written.slots whole
  have vacant := linked.vacant
  rw [Binds,slots,written.named,written.nameAt,entryIno_dirBytes,entryName_dirBytes _ ran linked.short,word]
  by_cases here : k = slot
  · subst here
    rw [if_pos rfl,if_pos rfl]
    constructor
    · rintro ⟨_,rfl,_,rfl⟩
      exact .inl ⟨rfl,rfl,rfl⟩
    rintro (⟨_,rfl,rfl⟩ | binds)
    · exact ⟨by omega,rfl,nz,rfl⟩
    have inside := binds.1
    rcases vacant with pre | last
    · exact absurd (binds.2.1.symm.trans pre.2) binds.2.2.1
    · omega
  rw [if_neg here,if_neg here]
  constructor
  · rintro ⟨lt,rest⟩
    exact .inr ⟨by omega,rest⟩
  rintro (⟨eq,_⟩ | ⟨lt,rest⟩)
  · exact absurd eq here
  · exact ⟨by omega,rest⟩

def Erased (live : Nat → Bool) (s : State) (slot : Nat) (t : State) : Prop :=
  Written live s rootLocation slot (dirBytes (BitVec.ofNat 32 noIno) []) t

lemma Erased.binds (erased : Erased live s slot t) (whole : (node s rootLocation).size.toNat % sizeofDir = 0)
    (inside : slot < slots s) : Binds t k name j ↔ k ≠ slot ∧ Binds s k name j := by
  have slots := erased.slots whole
  rw [Binds,Binds,slots,erased.named,erased.nameAt,entryIno_dirBytes]
  by_cases here : k = slot
  · rw [if_pos here,if_pos here]
    constructor
    · rintro ⟨_,rfl,nz,_⟩
      exact absurd rfl nz
    rintro ⟨ne,_⟩
    exact absurd here ne
  rw [if_neg here,if_neg here]
  constructor
  · rintro ⟨lt,rest⟩
    exact ⟨here,by omega,rest⟩
  rintro ⟨_,lt,rest⟩
  exact ⟨by omega,rest⟩

lemma Shape.written {sd : Nat → UInt8} (shape : Shape s live) (written : Written live s rootLocation slot sd t)
    (named : ∀ k name ino, Binds t k name ino → live ino)
    (names : ∀ k l name ino other, Binds t k name ino → Binds t l name other → k = l) : Shape t live where
  root := shape.root
  dir := written.touched.type.trans shape.dir
  only i alive other := by
    rw [(written.touched.others i alive other).node]
    exact shape.only i alive other
  whole := by
    have pre := shape.whole
    rw [written.size]
    unfold sizeofDir at *
    omega
  bounded := by
    rw [written.size]
    exact Nat.max_le.mpr ⟨shape.bounded,written.bounded⟩
  named := named
  names := names

lemma Linked.shape (linked : Linked live s name ino slot t) (shape : Shape s live) (ran : 0 ∉ name)
    (alive : live ino) (word : (BitVec.ofNat 32 ino).toNat = ino) (nz : ino ≠ noIno) : Shape t live := by
  have binds : ∀ {k other j}, Binds t k other j ↔ k = slot ∧ other = name ∧ j = ino ∨ Binds s k other j :=
    linked.binds shape.whole ran word nz
  refine shape.written linked.written ?_ ?_
  · intro k other j bound
    rcases binds.mp bound with ⟨_,_,rfl⟩ | pre
    · exact alive
    · exact shape.named k other j pre
  intro k l other i j first two
  rcases binds.mp first with ⟨rfl,rfl,rfl⟩ | first
  · rcases binds.mp two with ⟨rfl,_,_⟩ | two
    · rfl
    · exact absurd two (linked.fresh l j)
  rcases binds.mp two with ⟨rfl,rfl,rfl⟩ | two
  · exact absurd first (linked.fresh k i)
  · exact shape.names k l other i j first two

lemma Erased.shape (erased : Erased live s slot t) (shape : Shape s live) (lt : slot < slots s) : Shape t live := by
  have binds : ∀ {k name j}, Binds t k name j ↔ k ≠ slot ∧ Binds s k name j := erased.binds shape.whole lt
  exact shape.written erased (fun k name ino bound => shape.named k name ino (binds.mp bound).2)
    fun k l name i j one two => shape.names k l name i j (binds.mp one).2 (binds.mp two).2

lemma Linked.directory (linked : Linked live s name ino slot t) (shape : Shape s live) (ran : 0 ∉ name)
    (alive : live ino) (word : (BitVec.ofNat 32 ino).toNat = ino) (nz : ino ≠ noIno) :
    directory t = update (directory s) name (some ino) := by
  have after := linked.shape shape ran alive word nz
  funext other
  refine Option.ext fun j => ?_
  rw [directory_eq_some after]
  simp only [linked.binds shape.whole ran word nz]
  rcases eq_or_ne other name with rfl | ne
  · rw [update_self]
    constructor
    · rintro ⟨k,⟨_,_,rfl⟩ | pre⟩
      · rfl
      · exact absurd pre (linked.fresh k j)
    intro eq
    exact ⟨slot,.inl ⟨rfl,rfl,(some.inj eq).symm⟩⟩
  rw [update_of_ne ne,directory_eq_some shape]
  constructor
  · rintro ⟨k,⟨_,eq,_⟩ | pre⟩
    · exact absurd eq ne
    · exact ⟨k,pre⟩
  rintro ⟨k,pre⟩
  exact ⟨k,.inr pre⟩

lemma Erased.directory (erased : Erased live s slot t) (shape : Shape s live) (binds : Binds s slot name ino) :
    directory t = update (directory s) name none := by
  have after := erased.shape shape binds.1
  funext other
  refine Option.ext fun j => ?_
  rw [directory_eq_some after]
  simp only [erased.binds shape.whole binds.1]
  rcases eq_or_ne other name with rfl | ne
  · rw [update_self]
    constructor
    · rintro ⟨k,away,bound⟩
      exact absurd (shape.names _ _ _ _ _ bound binds) away
    intro none_
    cases none_
  rw [update_of_ne ne,directory_eq_some shape]
  constructor
  · rintro ⟨k,_,bound⟩
    exact ⟨k,bound⟩
  rintro ⟨k,bound⟩
  refine ⟨k,?_,bound⟩
  rintro rfl
  exact ne (bound.2.2.2.symm.trans binds.2.2.2)

def rootCount (i : Nat) : Nat := if i = rootLocation then 1 else 0

lemma rootCount_le : rootCount i ≤ 1 := by
  unfold rootCount
  split <;> omega

def Loaded (s : State) (i : Nat) : Prop := ∃ v, s.vnodes i = some v

structure Consistent (s : State) (live : Nat → Bool) : Prop where
  fs : Fs s live none
  shape : Shape s live
  counted : ∀ i, live i = true → (node s i).linkcount.toNat = links s i+rootCount i
  reachable : ∀ i, live i = true → i = rootLocation ∨ Loaded s i ∨ 0 < links s i
  referenced : ∀ i v, s.vnodes i = some v → 0 < v.refcount

lemma Fs.live_ne_zero (fs : Fs s live none) (alive : live i) : i ≠ noIno := by
  rintro rfl
  exact fs.held_nonzero (own_inode alive) Owner.noConfusion rfl

lemma Apart.still_loaded (apart : Apart live s i t) (load : Loaded s j) : Loaded t j := by
  obtain ⟨v,load⟩ := load
  obtain ⟨w,load,_⟩ := apart.loaded load
  exact ⟨w,load⟩

lemma Apart.referenced (apart : Apart live s i t) (pre : ∀ i v, s.vnodes i = some v → 0 < v.refcount) :
    ∀ i v, t.vnodes i = some v → 0 < v.refcount := by
  intro j w loaded
  have refs := apart.refs j
  rw [loaded] at refs
  obtain ⟨v,earlier,eq⟩ := map_eq_some_iff.mp refs.symm
  rw [←eq]
  exact pre j v earlier

section
variable (consistent : Consistent s live)
include consistent

lemma Consistent.carry (fs : Fs t live none) (files : ∀ j, live j → file t j = file s j)
    (load : ∀ j, Loaded s j → j = rootLocation ∨ Loaded t j ∨ 0 < links s j)
    (referenced : ∀ i v, t.vnodes i = some v → 0 < v.refcount) : Consistent t live := by
  have root := files _ consistent.shape.root
  have size : (node t rootLocation).size = (node s rootLocation).size := congrArg File.size root
  have bytes : byte t rootLocation = byte s rootLocation := congrArg File.bytes root
  refine ⟨fs,consistent.shape.carry size bytes fun j alive => congrArg File.type (files j alive),?_,?_,referenced⟩
  · intro j alive
    rw [show (node t j).linkcount = (node s j).linkcount from congrArg File.linkcount (files j alive),
      links_congr size bytes]
    exact consistent.counted j alive
  intro j alive
  rw [links_congr size bytes]
  rcases consistent.reachable j alive with top | held | linked
  · exact .inl top
  · exact load j held
  · exact .inr (.inr linked)

lemma Consistent.kept (fs : Fs t live none) (kept : Kept live s i t) : Consistent t live :=
  consistent.carry fs (fun _ alive => kept.files alive) (fun _ load => .inr (.inl (kept.apart.still_loaded load)))
    (kept.apart.referenced consistent.referenced)

lemma Consistent.calm (calm : Calm s t) : Consistent t live :=
  consistent.kept (i := rootLocation) (calm.fs consistent.fs) calm.kept

lemma Consistent.touched (touched : Touched live s i t) (file : i ≠ rootLocation) : Consistent t live := by
  have root := (touched.others _ consistent.shape.root file.symm)
  have size : (node t rootLocation).size = (node s rootLocation).size := by rw [root.node]
  have eq : ∀ j, live j → (node t j).type = (node s j).type ∧ (node t j).linkcount = (node s j).linkcount := by
    intro j alive
    rcases eq_or_ne j i with rfl | ne
    · exact ⟨touched.type,touched.linkcount⟩
    rw [(touched.others j alive ne).node]
    exact ⟨rfl,rfl⟩
  refine ⟨touched.fs,consistent.shape.carry size root.byte fun j alive => (eq j alive).1,?_,?_,
    touched.referenced consistent.referenced⟩
  · intro j alive
    rw [(eq j alive).2,links_congr size root.byte]
    exact consistent.counted j alive
  intro j alive
  rw [links_congr size root.byte]
  rcases consistent.reachable j alive with top | held | linked
  · exact .inl top
  · exact .inr (.inl (touched.still_loaded held))
  · exact .inr (.inr linked)

end

lemma touched_linkcount (touched : Touched live s rootLocation t) (alive : live j) :
    (node t j).linkcount = (node s j).linkcount := by
  rcases eq_or_ne j rootLocation with rfl | ne
  · exact touched.linkcount
  · rw [(touched.others j alive ne).node]

-- A change of the link count in a vnode.
structure Recount (v w : Vnode) : Prop where
  direct : w.inode.direct = v.inode.direct
  indirect : w.inode.indirect = v.inode.indirect
  size : w.inode.size = v.inode.size
  type : w.inode.type = v.inode.type
  dirty : w.dirty = true
  refs : w.refcount = v.refcount

lemma Recount.apart (recount : Recount v w) (fs : Fs t live none) (load : t.vnodes ino = some v) :
    Fs (t.putVnode ino w) live none ∧ (∀ j, (node (t.putVnode ino w) j).size = (node t j).size ∧
      (node (t.putVnode ino w) j).type = (node t j).type ∧ byte (t.putVnode ino w) j = byte t j) ∧
    ∀ j, pointer (t.putVnode ino w) j = pointer t j := by
  have pre := node_loaded load
  obtain ⟨edited,ptrs,bytes⟩ := fs.edit load recount.direct recount.indirect fun clean => by
    rw [recount.dirty] at clean
    cases clean
  refine ⟨edited,fun j => ?_,fun j => ?_⟩
  · rcases eq_or_ne j ino with rfl | ne
    · rw [node_putVnode,pre]
      exact ⟨recount.size,recount.type,bytes⟩
    have alike := putVnode_other (s := t) (w := w) ne
    rw [alike.node]
    exact ⟨rfl,rfl,alike.byte⟩
  rcases eq_or_ne j ino with rfl | ne
  · exact ptrs
  · exact (putVnode_other ne).pointer

section
variable (consistent : Consistent s live)
include consistent

lemma Consistent.recounted (touched : Touched live s rootLocation t) (shape : Shape t live)
    (load : t.vnodes ino = some v) (recount : Recount v w) (rest : ∀ j, live j → j ≠ ino → links t j = links s j)
    (self : w.inode.linkcount.toNat = links t ino+rootCount ino) : Consistent (t.putVnode ino w) live := by
  obtain ⟨fs,eq,_⟩ := recount.apart touched.fs load
  have links := links_congr (eq rootLocation).1 (eq rootLocation).2.2
  refine ⟨fs,shape.carry (eq _).1 (eq _).2.2 fun j _ => (eq j).2.1,?_,?_,?_⟩
  · intro j alive
    rw [links]
    rcases eq_or_ne j ino with rfl | ne
    · rw [node_putVnode]
      exact self
    rw [(putVnode_other (s := t) (w := w) ne).node,touched_linkcount touched alive,rest j alive ne]
    exact consistent.counted j alive
  · intro j alive
    rw [links]
    rcases eq_or_ne j ino with rfl | ne
    · exact .inr (.inl ⟨w,update_self ..⟩)
    rw [rest j alive ne]
    rcases consistent.reachable j alive with top | ⟨x,held⟩ | linked
    · exact .inl top
    · obtain ⟨y,held,_⟩ := touched.loaded held
      exact .inr (.inl ⟨y,(update_of_ne ne ..).trans held⟩)
    · exact .inr (.inr linked)
  intro j x held
  have pre := touched.referenced consistent.referenced
  rcases eq_or_ne j ino with rfl | ne
  · rw [show (t.putVnode j w).vnodes j = some w from update_self ..] at held
    cases held
    rw [recount.refs]
    exact pre j v load
  · exact pre j x ((update_of_ne ne ..).symm.trans held)

lemma Consistent.links_small : links s i < 2^11 := by
  have bounded := consistent.shape.bounded
  have most : links s i ≤ slots s := tally_le
  unfold slots maxFile nDirect dbPerIdb blockSize sizeofDir at *
  omega

lemma Consistent.word (alive : live ino) : (BitVec.ofNat 32 ino).toNat = ino :=
  consistent.fs.held_word (own_inode alive)

end

lemma Linked.links (linked : Linked live s name ino slot t) (shape : Shape s live)
    (word : (BitVec.ofNat 32 ino).toNat = ino) (nz : i ≠ noIno) : links t i = links s i+if ino = i then 1 else 0 := by
  rcases linked.vacant with vacant | last
  · have counts := linked.written.links shape.whole vacant.1 i
    rw [vacant.2,if_neg nz.symm,entryIno_dirBytes,word] at counts
    exact counts
  have counts := linked.written.links_append shape.whole last i
  rwa [entryIno_dirBytes,word] at counts

lemma Consistent.linked (consistent : Consistent s live) (ran : 0 ∉ name) (alive : live ino)
    (linked : Linked live s name ino slot t) (load : t.vnodes ino = some v) :
    Consistent (t.putVnode ino {v with inode := v.inode.addLink,dirty := true}) live := by
  have word := consistent.word alive
  have nz := consistent.fs.live_ne_zero alive
  have touched := linked.written.touched
  have pre := consistent.counted ino alive
  rw [←touched_linkcount touched alive,node_loaded load] at pre
  refine consistent.recounted touched (linked.shape consistent.shape ran alive word nz) load
    ⟨rfl,rfl,rfl,rfl,rfl,rfl⟩ ?_ ?_
  · intro j lives other
    rw [linked.links consistent.shape word (consistent.fs.live_ne_zero lives),if_neg other.symm,Nat.add_zero]
  have small := consistent.links_small (i := ino)
  rw [linked.links consistent.shape word nz,if_pos rfl]
  change (v.inode.linkcount+1#16).toNat = _
  have top := rootCount_le (i := ino)
  rw [BitVec.toNat_add,BitVec.toNat_ofNat]
  omega

lemma Erased.links (erased : Erased live s slot t) (shape : Shape s live) (binds : Binds s slot name ino)
    (nz : j ≠ noIno) : links t j+(if ino = j then 1 else 0) = links s j := by
  have change := Written.links erased shape.whole binds.1 j
  rw [entryIno_dirBytes,binds.2.1] at change
  change _ = _+if noIno = j then 1 else 0 at change
  rwa [if_neg nz.symm,Nat.add_zero] at change

lemma Consistent.unlinked (consistent : Consistent s live) (binds : Binds s slot name ino)
    (erased : Erased live s slot t) (load : t.vnodes ino = some v) : v.inode.linkcount ≠ 0 ∧
      Consistent (t.putVnode ino {v with inode := v.inode.dropLink,dirty := true}) live := by
  have alive := consistent.shape.named slot name ino binds
  have touched := erased.touched
  have pre := consistent.counted _ alive
  rw [←touched_linkcount touched alive,node_loaded load] at pre
  have counts : ∀ j, live j → links t j+(if ino = j then 1 else 0) = links s j :=
    fun j lives => erased.links consistent.shape binds (consistent.fs.live_ne_zero lives)
  have one := counts _ alive
  rw [if_pos rfl] at one
  refine ⟨?_,consistent.recounted touched (erased.shape consistent.shape binds.1) load ⟨rfl,rfl,rfl,rfl,rfl,rfl⟩ ?_ ?_⟩
  · intro zero
    rw [zero] at pre
    change 0 = _ at pre
    omega
  · intro j lives other
    have change := counts j lives
    rwa [if_neg other.symm,Nat.add_zero] at change
  have small := consistent.links_small (i := ino)
  change (v.inode.linkcount-1#16).toNat = _
  rw [BitVec.toNat_sub,BitVec.toNat_ofNat]
  omega
end ToyOS.Sfs

import ToyOS.SubpageHeap

namespace ToyOS.SubpageHeap
open Function UserSpace Linked Option
open Kmalloc (nsizes sizes capacity npagerefs blocktype Slot Integrity)

def headOffset (offset : Nat) : Option Nat := if offset = invalidOffset then none else some offset

def nextFree (word : Nat → BitVec 32) (prpage offset : Nat) : Option Nat :=
  if word (prpage+offset) = 0 then none else some (wrap ((word (prpage+offset)).toNat+2^32-prpage))

-- The pageref and the page's words hold what the list of its free blocks says.
structure Threads (word : Nat → BitVec 32) (low : Pageref) (pr : Kmalloc.Pageref) : Prop where
  address : prPageaddr low = pr.pageaddr
  type : prBlocktype low = pr.blktype.val
  nfree : low.nfree = pr.nfree
  chain : Chain (nextFree word pr.pageaddr) (headOffset low.freelistOffset) pr.freelist

-- Both linked lists, the bitmap and every page say what the abstract heap says.
structure Represents (m : Memory) (h : Kmalloc.Heap) : Prop where
  all : Chain m.nextAll m.allbase h.allbase
  same : ∀ t, Chain m.nextSamesize (m.sizebases t) (h.sizebases t)
  inuse : ∀ j, j < npagerefs → (m.pagerefsInuse (j/32)).getLsbD (j % 32) = h.inuse j
  pages : ∀ j ∈ h.allbase, Threads m.word (m.pagerefs j) (h.pagerefs j)

section
variable (low : k < 32)
include low

lemma getLsbD_bit : (bit k).getLsbD i = decide (i = k) := by
  rw [bit,BitVec.getLsbD_shiftLeft,BitVec.getLsbD_one]
  rcases Nat.lt_trichotomy i k with pre | rfl | after
  · have : ¬ i = k := by omega
    simp [pre,this]
  · simp [low]
  have : ¬ i = k := by omega
  have apart : ¬ i - k = 0 := by omega
  simp [this,apart]

lemma getLsbD_set : (w ||| bit k).getLsbD i = (w.getLsbD i || decide (i = k)) := by
  rw [BitVec.getLsbD_or,getLsbD_bit low]

lemma getLsbD_clear : (w &&& ~~~bit k).getLsbD i = (w.getLsbD i && !decide (i = k)) := by
  rw [BitVec.getLsbD_and,BitVec.getLsbD_not,getLsbD_bit low]
  by_cases lt : i < 32
  · simp [lt]
  rw [BitVec.getLsbD_of_ge _ _ (Nat.le_of_not_lt lt)]
  rfl

lemma masked_iff : w &&& bit k = 0 ↔ w.getLsbD k = false := by
  constructor
  · intro zero
    have at_ := congrArg (BitVec.getLsbD · k) zero
    simpa [BitVec.getLsbD_and,getLsbD_bit low] using at_
  intro clear
  refine BitVec.eq_of_getLsbD_eq fun i inside => ?_
  rw [BitVec.getLsbD_and,getLsbD_bit low]
  rcases eq_or_ne i k with rfl | ne
  · simp [clear]
  · simp [ne]

end

lemma full_iff {w : BitVec 32} : w = 0xffffffff ↔ ∀ k < 32, w.getLsbD k := by
  constructor
  · rintro rfl
    decide
  intro all
  refine BitVec.eq_of_getLsbD_eq fun i inside => ?_
  rw [all i inside]
  revert i
  decide
variable {word word' : Nat → BitVec 32} {low : Pageref} {pr : Kmalloc.Pageref} {offset a p : Nat}
  {m after : Memory} {h : Kmalloc.Heap} {live : Nat → Option Kmalloc.Object}
  {pages : KernelPages.Pages Kmalloc.PageOwner}
  {j ptr : Nat} {t : Fin nsizes}

lemma Threads.congr (threads : Threads word low pr)
    (eq : ∀ offset ∈ pr.freelist, word' (pr.pageaddr+offset) = word (pr.pageaddr+offset)) : Threads word' low pr := by
  refine ⟨threads.address,threads.type,threads.nfree,threads.chain.congr fun offset mem => ?_⟩
  rw [nextFree,nextFree,eq offset mem]

lemma wrap_offset (lt : p+offset < 2^32) (small : offset < pageSize) :
    wrap ((BitVec.ofNat 32 (p+offset)).toNat+2^32-p) = offset := by
  rw [BitVec.toNat_ofNat,Nat.mod_eq_of_lt lt,wrap]
  unfold pageSize at small
  omega

lemma nextFree_address (set : word (p+a) = BitVec.ofNat 32 (p+offset)) (pos : 0 < p)
    (lt : p+offset < 2^32) (small : offset < pageSize) : nextFree word p a = some offset := by
  have nz : BitVec.ofNat 32 (p+offset) ≠ 0 := by
    intro zero
    have value := congrArg BitVec.toNat zero
    rw [BitVec.toNat_ofNat,Nat.mod_eq_of_lt lt] at value
    exact Nat.ne_of_gt (Nat.add_pos_left pos _) value
  rw [nextFree,set,if_neg nz,wrap_offset lt small]

lemma nextFree_cases : word (p+a) = 0 ∧ nextFree word p a = none ∨
    word (p+a) ≠ 0 ∧ nextFree word p a = some (wrap ((word (p+a)).toNat+2^32-p)) := by
  unfold nextFree
  split
  · rename_i zero
    exact .inl ⟨zero,rfl⟩
  rename_i nz
  exact .inr ⟨nz,rfl⟩

lemma headOffset_slot (lt : offset < pageSize) : headOffset offset = some offset := by
  refine if_neg ?_
  rintro rfl
  exact absurd lt (by decide)

lemma slot_apart (one : Slot t offset) (two : Slot t o) (ne : offset ≠ o) :
    offset+sizes t ≤ o ∨ o+sizes t ≤ offset := by
  obtain ⟨i,_,rfl⟩ := Kmalloc.slot_iff.mp one
  obtain ⟨k,_,rfl⟩ := Kmalloc.slot_iff.mp two
  rcases Nat.lt_trichotomy i k with pre | rfl | after
  · left
    calc i*sizes t+sizes t = (i+1)*sizes t := (Nat.succ_mul i _).symm
      _ ≤ k*sizes t := Nat.mul_le_mul_right _ pre
  · exact absurd rfl ne
  right
  calc k*sizes t+sizes t = (k+1)*sizes t := (Nat.succ_mul k _).symm
    _ ≤ i*sizes t := Nat.mul_le_mul_right _ after

lemma slot_end (slot : Slot t offset) : offset+sizes t ≤ pageSize := by
  obtain ⟨i,inside,rfl⟩ := Kmalloc.slot_iff.mp slot
  calc i*sizes t+sizes t = (i+1)*sizes t := (Nat.succ_mul i _).symm
    _ ≤ capacity t*sizes t := Nat.mul_le_mul_right _ inside
    _ = pageSize := Kmalloc.capacity_mul t

lemma page_bounds (heap : Integrity h live pages) (mem : j ∈ h.allbase) :
    0 < (h.pagerefs j).pageaddr ∧ (h.pagerefs j).pageaddr % pageSize = 0 ∧ (h.pagerefs j).pageaddr+pageSize ≤ 2^32 := by
  obtain ⟨nz,page,addr,held⟩ := heap.managed j mem
  have le := BlockStore.within_iff.mp (pages.within _ _ held)
  rw [addr] at nz ⊢
  refine ⟨Nat.pos_of_ne_zero nz,Nat.mul_mod_left _ _,?_⟩
  have last : page+1 ≤ 2^20 := le.2.2
  unfold pageSize
  omega

lemma page_apart (heap : Integrity h live pages) (one : j ∈ h.allbase) (two : i ∈ h.allbase)
    (other : i ≠ j) : (h.pagerefs i).pageaddr+pageSize ≤ (h.pagerefs j).pageaddr ∨
      (h.pagerefs j).pageaddr+pageSize ≤ (h.pagerefs i).pageaddr := by
  have ne : (h.pagerefs i).pageaddr ≠ (h.pagerefs j).pageaddr := by
    intro eq
    have hit := heap.findPage_eq one le_rfl (Nat.lt_add_of_pos_right (by decide))
    rw [←eq,heap.findPage_eq two le_rfl (Nat.lt_add_of_pos_right (by decide))] at hit
    exact other (some.inj hit)
  have left := (page_bounds heap one).2.1
  have right := (page_bounds heap two).2.1
  unfold pageSize at *
  omega

lemma length_le {l : List Nat} (nodup : l.Nodup) (bounded : ∀ i ∈ l, i < npagerefs) : l.length ≤ npagerefs := by
  have le : l ⊆ List.range npagerefs := fun i mem => List.mem_range.mpr (bounded i mem)
  have shorter := (List.subperm_of_subset nodup le).length_le
  rwa [List.length_range] at shorter

lemma all_length (heap : Integrity h live pages) : h.allbase.length ≤ npagerefs :=
  length_le heap.nodup heap.bounded

lemma sized_length (heap : Integrity h live pages) (t : Fin nsizes) : (h.sizebases t).length ≤ npagerefs :=
  length_le (heap.sizedNodup t) fun i mem => heap.bounded i ((heap.sized t i).mp mem).1

lemma findFree_eq (rep : Represents m h) (heap : Integrity h live pages) :
    findFree m t = some ((h.sizebases t).find? fun j => 0 < (h.pagerefs j).nfree) := by
  have mem : ∀ i ∈ h.sizebases t, Threads m.word (m.pagerefs i) (h.pagerefs i) := fun i inside =>
    rep.pages i ((heap.sized t i).mp inside).1
  refine (rep.same t).seek (sized_length heap t) (fun i inside => ?_) fun i inside => ?_
  · rw [(mem i inside).type,((heap.sized t i).mp inside).2]
    exact beq_self_eq_true _
  · rw [(mem i inside).nfree]

lemma Represents.relist {low : Pageref} (rep : Represents m h)
    (same : low.nextSamesize = (m.pagerefs j).nextSamesize) (all : low.nextAll = (m.pagerefs j).nextAll)
    (threads : Threads word low pr) (rest : ∀ i ∈ h.allbase, i ≠ j → Threads word (m.pagerefs i) (h.pagerefs i)) :
    Represents {m with pagerefs := update m.pagerefs j low,word} (h.setPageref j pr) := by
  have link : ∀ {β : Type} (f : Pageref → β), f low = f (m.pagerefs j) → ∀ i,
      f (update m.pagerefs j low i) = f (m.pagerefs i) := by
    intro β f eq i
    rcases eq_or_ne i j with rfl | ne
    · rw [update_self,eq]
    · rw [update_of_ne ne]
  refine ⟨rep.all.congr fun i _ => link Pageref.nextAll all i,
    fun t => (rep.same t).congr fun i _ => link Pageref.nextSamesize same i,rep.inuse,fun i mem => ?_⟩
  change Threads word (update m.pagerefs j low i) (update h.pagerefs j pr i)
  rcases eq_or_ne i j with rfl | ne
  · rw [update_self,update_self]
    exact threads
  rw [update_of_ne ne,update_of_ne ne]
  exact rest i mem ne

lemma headOffset_eq_some (head : headOffset a = some offset) : a = offset := by
  unfold headOffset at head
  split at head
  · cases head
  · exact some.inj head

lemma doalloc_represents {after : Kmalloc.Heap} (rep : Represents m h) (heap : Integrity h live pages)
    (mem : j ∈ h.allbase) (done : Kmalloc.doalloc h j = some (after,ptr)) :
    ∃ low, doalloc m j = some (low,ptr) ∧ Represents low after := by
  have threads := rep.pages j mem
  have chain := threads.chain
  unfold Kmalloc.doalloc at done
  simp only at done
  split at done
  · cases done
  rename_i offset rest list
  split at done
  · rename_i counts
    cases some.inj done
    rw [list] at chain
    have slots := (heap.good j mem).slots
    rw [list] at slots
    have rest_threads : ∀ o, headOffset o = nextFree m.word (h.pagerefs j).pageaddr offset →
        Represents (m.setPageref j {m.pagerefs j with freelistOffset := o,nfree := (h.pagerefs j).nfree-1})
          (h.setPageref j {h.pagerefs j with freelist := rest,nfree := (h.pagerefs j).nfree-1}) := by
      intro o head
      refine rep.relist rfl rfl ⟨threads.address,threads.type,rfl,?_⟩ fun i inside _ => rep.pages i inside
      exact head.symm ▸ chain.2
    unfold doalloc
    simp only [headOffset_eq_some chain.1,threads.address,threads.nfree]
    rw [if_neg (Nat.not_le_of_lt (slots offset List.mem_cons_self).1)]
    rcases nextFree_cases (p := (h.pagerefs j).pageaddr) (a := offset) with
      ⟨zero,last⟩ | ⟨nz,next⟩
    · have end_ : rest = [] := by
        cases rest with
        | nil => rfl
        | cons o more => cases last.symm.trans chain.2.1
      have null : ¬(0 : BitVec 32).toNat ≠ 0 := fun nz => nz rfl
      rw [zero,if_neg null,if_pos (counts.mp end_)]
      exact ⟨_,rfl,rest_threads _ last.symm⟩
    cases rest with
    | nil => cases next.symm.trans chain.2
    | cons o more =>
      have more_ : 0 < (h.pagerefs j).nfree-1 := by
        refine Nat.pos_of_ne_zero fun zero => ?_
        cases counts.mpr zero
      have addr := some.inj (next.symm.trans chain.2.1)
      have lt := (slots o (List.mem_cons_of_mem _ List.mem_cons_self)).1
      have link : (m.word ((h.pagerefs j).pageaddr+offset)).toNat ≠ 0 := fun zero => nz (BitVec.eq_of_toNat_eq zero)
      rw [if_pos link,addr,if_pos ⟨more_,lt⟩]
      exact ⟨_,rfl,rest_threads o ((headOffset_slot lt).trans chain.2.1.symm)⟩
  · cases done

lemma threaded_outside (out : ∀ i < n, a ≠ p+i*size) : threaded word p size n a = word a := by
  induction n with
  | zero => rfl
  | succ n ih =>
    rw [threaded,update_of_ne (out n (Nat.lt_succ_self n))]
    exact ih fun i lt => out i (Nat.lt_succ_of_lt lt)

lemma threaded_chain (pos : 0 < p) (sized : 0 < size) (fits : n*size ≤ pageSize)
    (lt : p+pageSize ≤ 2^32) : Chain (nextFree (threaded word p size n) p)
      (if n = 0 then none else some ((n-1)*size)) ((List.range n).map (·*size)).reverse := by
  induction n with
  | zero => rfl
  | succ n ih =>
    have inside : n*size+size ≤ pageSize := by rwa [←Nat.succ_mul]
    have older : ∀ i < n, i*size+size ≤ n*size := fun i pre => by
      rw [←Nat.succ_mul]
      exact Nat.mul_le_mul_right _ pre
    have pre := ih (le_trans (Nat.le_add_right _ _) inside)
    rw [List.range_succ,List.map_append,List.reverse_append]
    refine ⟨rfl,?_⟩
    have link : nextFree (threaded word p size (n+1)) p (n*size) = if n = 0 then none else some ((n-1)*size) := by
      rw [threaded]
      split
      · exact if_pos (update_self ..)
      rename_i later
      have last := older (n-1) (by omega)
      exact nextFree_address (update_self ..) pos (by omega) (by omega)
    rw [link]
    refine pre.congr fun o mem => ?_
    obtain ⟨i,low,rfl⟩ := List.mem_map.mp (List.mem_reverse.mp mem)
    have earlier := older i (List.mem_range.mp low)
    rw [nextFree,nextFree,threaded,update_of_ne (by omega)]

lemma allocpageref_represents (rep : Represents m h) (heap : Integrity h live pages) :
    (allocpageref m = some none ∧ ∀ j < npagerefs, j ∈ h.allbase) ∨
    ∃ j, allocpageref m = some (some (m.setInuse j,j)) ∧ j < npagerefs ∧ j ∉ h.allbase := by
  unfold allocpageref
  cases word : (List.range inuseWords).find? fun i => m.pagerefsInuse i != 0xffffffff with
  | none =>
    refine .inl ⟨rfl,fun j lt => (heap.inuse j).mp ?_⟩
    have full := List.find?_eq_none.mp word (j/32) (List.mem_range.mpr (Nat.div_lt_of_lt_mul lt))
    rw [Bool.not_eq_true,bne_eq_false_iff_eq] at full
    rw [←rep.inuse j lt]
    exact full_iff.mp full (j % 32) (Nat.mod_lt _ (by decide))
  | some i =>
    have low : i < 8 := List.mem_range.mp (List.mem_of_find?_eq_some word)
    have room : m.pagerefsInuse i ≠ 0xffffffff := by
      have hit := List.find?_some word
      exact bne_iff_ne.mp hit
    dsimp only
    cases found : (List.range 32).find? fun k => m.pagerefsInuse i &&& bit k == 0 with
    | none =>
      refine absurd (full_iff.mpr fun k lt => ?_) room
      have set := List.find?_eq_none.mp found k (List.mem_range.mpr lt)
      rw [beq_iff_eq,masked_iff lt,Bool.not_eq_false] at set
      exact set
    | some k =>
      have lt : k < 32 := List.mem_range.mp (List.mem_of_find?_eq_some found)
      have clear : (m.pagerefsInuse i).getLsbD k = false := by
        have hit := List.find?_some found
        exact (masked_iff lt).mp (beq_iff_eq.mp hit)
      have high : (i*32+k)/32 = i := by omega
      have rest : (i*32+k) % 32 = k := by omega
      have bounded : i*32+k < npagerefs := by
        change i*32+k < 256
        omega
      refine .inr ⟨i*32+k,rfl,bounded,fun mem => ?_⟩
      have used := (heap.inuse _).mpr mem
      rw [←rep.inuse _ bounded,high,rest,clear] at used
      cases used

lemma inuse_update {w : BitVec 32} (rep : Represents m h) (lt : i < npagerefs)
    (self : w.getLsbD (j % 32) = value) (rest : ∀ k ≠ j % 32, w.getLsbD k = (m.pagerefsInuse (j/32)).getLsbD k) :
    (update m.pagerefsInuse (j/32) w (i/32)).getLsbD (i % 32) = update h.inuse j value i := by
  rcases eq_or_ne i j with rfl | ne
  · rw [update_self,update_self,self]
  rw [update_of_ne ne,←rep.inuse i lt]
  by_cases eq : i/32 = j/32
  · rw [eq,update_self,rest _ (by omega)]
  · rw [update_of_ne eq]

lemma enlist_nextAll : (enlist m j t p).nextAll = update m.nextAll j m.allbase := by
  funext i
  change (update m.pagerefs j _ i).nextAll = _
  rcases eq_or_ne i j with rfl | ne
  · rw [update_self,update_self]
  rw [update_of_ne ne,update_of_ne ne]
  rfl

lemma enlist_nextSamesize : (enlist m j t p).nextSamesize = update m.nextSamesize j (m.sizebases t) := by
  funext i
  change (update m.pagerefs j _ i).nextSamesize = _
  rcases eq_or_ne i j with rfl | ne
  · rw [update_self,update_self]
  rw [update_of_ne ne,update_of_ne ne]
  rfl

lemma setInuse_bits (rep : Represents m h) (lt : i < npagerefs) :
    ((m.setInuse j).pagerefsInuse (i/32)).getLsbD (i % 32) = update h.inuse j true i := by
  have low : j % 32 < 32 := Nat.mod_lt _ (by decide)
  refine inuse_update rep lt ?_ fun k other => ?_
  · rw [getLsbD_set low,decide_eq_true rfl,Bool.or_true]
  · rw [getLsbD_set low,decide_eq_false other,Bool.or_false]

lemma capacity_pos (t : Fin nsizes) : 0 < capacity t := by
  revert t
  decide

lemma enlist_threads (aligned : p % pageSize = 0) (pos : 0 < p) (lt : p+pageSize ≤ 2^32) :
    Threads (threaded word p (sizes t) (capacity t)) ⟨eq,all,mkpab p t,(capacity t-1)*sizes t,capacity t⟩
      ⟨pageFrame p,t,Kmalloc.freshList t,capacity t⟩ := by
  have fits := Kmalloc.capacity_mul t
  have many : capacity t ≠ 0 := Nat.ne_of_gt (capacity_pos t)
  have frame : pageFrame p = p := by rw [pageFrame,aligned,Nat.sub_zero]
  have type : t.val % pageSize = t.val := Nat.mod_eq_of_lt (lt_trans t.isLt (by decide))
  have small : t.val < pageSize := lt_trans t.isLt (by decide)
  have packed : mkpab p t % pageSize = t.val := by rw [mkpab,frame,type,Nat.add_mod,aligned,Nat.zero_add,type,type]
  have chain : Chain (nextFree (threaded word p (sizes t) (capacity t)) p) _ _ :=
    threaded_chain pos (Kmalloc.sizes_pos t) (le_of_eq fits) lt
  rw [if_neg many] at chain
  refine ⟨?_,packed,rfl,?_⟩
  · change mkpab p t-mkpab p t % pageSize = pageFrame p
    rw [packed,mkpab,type,Nat.add_sub_cancel]
  rw [frame,headOffset_slot]
  · exact chain
  change (capacity t-1)*sizes t < pageSize
  have last := slot_end (t := t) (Kmalloc.slot_iff.mpr ⟨capacity t-1,by omega,rfl⟩)
  have pos := Kmalloc.sizes_pos t
  omega

lemma enlist_represents (rep : Represents m h) (heap : Integrity h live pages)
    (fresh : j ∉ h.allbase) (aligned : p % pageSize = 0) (pos : 0 < p) (lt : p+pageSize ≤ 2^32)
    (apart : ∀ i ∈ h.allbase, (h.pagerefs i).pageaddr+pageSize ≤ p ∨ p+pageSize ≤ (h.pagerefs i).pageaddr) :
    Represents (enlist (m.setInuse j) j t p) (Kmalloc.enlist h j t p) := by
  have unsized : ∀ u, j ∉ h.sizebases u := fun u mem => fresh ((heap.sized u j).mp mem).1
  refine ⟨?_,fun u => ?_,fun i inside => setInuse_bits rep inside,fun i mem => ?_⟩
  · rw [enlist_nextAll]
    exact rep.all.push fresh
  · rw [enlist_nextSamesize]
    change Chain _ (update m.sizebases t (some j) u) (update h.sizebases t (j :: h.sizebases t) u)
    rcases eq_or_ne u t with rfl | ne
    · rw [update_self,update_self]
      exact (rep.same u).push (unsized u)
    rw [update_of_ne ne,update_of_ne ne]
    refine (rep.same u).congr fun i mem => update_of_ne ?_ ..
    rintro rfl
    exact unsized u mem
  change Threads (threaded m.word p (sizes t) (capacity t)) (update m.pagerefs j _ i) (update h.pagerefs j _ i)
  rcases List.mem_cons.mp mem with rfl | older
  · rw [update_self,update_self]
    exact enlist_threads aligned pos lt
  have ne : i ≠ j := fun eq => fresh (eq ▸ older)
  rw [update_of_ne ne,update_of_ne ne]
  refine (rep.pages i older).congr fun offset free => threaded_outside fun k inside => ?_
  have mine := slot_end ((heap.good i older).slots offset free)
  have its := slot_end (t := t) (Kmalloc.slot_iff.mpr ⟨k,inside,rfl⟩)
  have little := Kmalloc.sizes_pos (h.pagerefs i).blktype
  have little' := Kmalloc.sizes_pos t
  have away := apart i older
  omega

lemma findPage_eq (rep : Represents m h) (heap : Integrity h live pages) (ptr : Nat) :
    findPage m ptr = some (Kmalloc.findPage h ptr) := by
  refine rep.all.seek (all_length heap) (fun i mem => ?_) fun i mem => ?_
  · rw [(rep.pages i mem).type]
    exact decide_eq_true (h.pagerefs i).blktype.isLt
  · rw [(rep.pages i mem).address]

lemma word_apart (heap : Integrity h live pages) (mem : j ∈ h.allbase)
    (slot : Slot (h.pagerefs j).blktype offset) (also : i ∈ h.allbase) (free : o ∈ (h.pagerefs i).freelist)
    (did : i = j → o ≠ offset) : (h.pagerefs i).pageaddr+o < (h.pagerefs j).pageaddr+offset ∨
      (h.pagerefs j).pageaddr+offset+sizes (h.pagerefs j).blktype ≤ (h.pagerefs i).pageaddr+o := by
  have other := (heap.good i also).slots o free
  have last := slot_end other
  have mine := slot_end slot
  have little := Kmalloc.sizes_pos (h.pagerefs i).blktype
  have little' := Kmalloc.sizes_pos (h.pagerefs j).blktype
  rcases eq_or_ne i j with rfl | ne
  · rcases slot_apart other slot (did rfl) with pre | after
    · omega
    · omega
  rcases page_apart heap mem also ne with pre | after
  · omega
  · omega

lemma pushedWord_outside (pos : 0 < size) (out : a < ptr ∨ ptr+size ≤ a) : pushedWord low word ptr size a = word a := by
  rw [pushedWord,update_of_ne (by omega)]
  refine if_neg fun inside => ?_
  omega

lemma nextFree_pushed (threads : Threads word low pr) (good : Kmalloc.GoodPage pr) (pos : 0 < pr.pageaddr)
    (lt : pr.pageaddr+pageSize ≤ 2^32) (set : word' (pr.pageaddr+offset) =
      if low.freelistOffset = invalidOffset then 0 else BitVec.ofNat 32 (prPageaddr low+low.freelistOffset)) :
    nextFree word' pr.pageaddr offset = headOffset low.freelistOffset := by
  by_cases last : low.freelistOffset = invalidOffset
  · rw [if_pos last] at set
    rw [nextFree,if_pos set,headOffset,if_pos last]
  rw [if_neg last,threads.address] at set
  have chain := threads.chain
  rw [headOffset,if_neg last] at chain ⊢
  have small : low.freelistOffset < pageSize := by
    cases list : pr.freelist with
    | nil =>
      rw [list] at chain
      cases chain
    | cons o rest =>
      rw [list] at chain
      rw [some.inj chain.1]
      exact (good.slots o (list ▸ List.mem_cons_self)).1
  exact nextFree_address set pos (by omega) small

section
variable (rep : Represents m h)
include rep

lemma pushBlock_represents (heap : Integrity h live pages) (mem : j ∈ h.allbase)
    (slot : Slot (h.pagerefs j).blktype offset) (did : offset ∉ (h.pagerefs j).freelist) :
    Represents (pushBlock m j ((h.pagerefs j).pageaddr+offset) (h.pagerefs j).blktype)
      (h.setPageref j (Kmalloc.pushed (h.pagerefs j) offset)) := by
  have threads := rep.pages j mem
  obtain ⟨pos,_,lt⟩ := page_bounds heap mem
  have kept : ∀ i ∈ h.allbase, ∀ o ∈ (h.pagerefs i).freelist,
      pushedWord (m.pagerefs j) m.word ((h.pagerefs j).pageaddr+offset) (sizes (h.pagerefs j).blktype)
        ((h.pagerefs i).pageaddr+o) = m.word ((h.pagerefs i).pageaddr+o) := by
    intro i also o free
    refine pushedWord_outside (Kmalloc.sizes_pos _) (word_apart heap mem slot also free fun eq => ?_)
    subst eq
    rintro rfl
    exact did free
  refine rep.relist rfl rfl ⟨threads.address,threads.type,?_,?_⟩ fun i also _ =>
    (rep.pages i also).congr fun o free => kept i also o free
  · exact congrArg (·+1) threads.nfree
  have set : pushedWord (m.pagerefs j) m.word ((h.pagerefs j).pageaddr+offset) (sizes (h.pagerefs j).blktype)
      ((h.pagerefs j).pageaddr+offset) = _ := update_self ..
  have link := nextFree_pushed threads (heap.good j mem) pos lt set
  change Chain (nextFree (pushedWord (m.pagerefs j) m.word ((h.pagerefs j).pageaddr+offset)
    (sizes (h.pagerefs j).blktype)) (h.pagerefs j).pageaddr)
    (headOffset ((h.pagerefs j).pageaddr+offset-prPageaddr (m.pagerefs j))) (offset :: (h.pagerefs j).freelist)
  rw [threads.address,Nat.add_sub_cancel_left]
  refine ⟨headOffset_slot slot.1,?_⟩
  rw [link]
  refine threads.chain.congr fun o free => ?_
  rw [nextFree,nextFree,kept j mem o free]

lemma unlistSamesize_represents (heap : Integrity h live pages) (t : Fin nsizes) :
    ∃ low, unlistSamesize m j t = some low ∧
      Represents low {h with sizebases := update h.sizebases t ((h.sizebases t).erase j)} := by
  obtain ⟨one,next,done,left,rest⟩ := (rep.same t).unlink (heap.sizedNodup t) (sized_length heap t)
  refine ⟨{m.relinkSamesize next with sizebases := update m.sizebases t one},?_,rep.all,fun u => ?_,rep.inuse,
    fun i mem => ?_⟩
  · rw [unlistSamesize,done]
    rfl
  · change Chain next (update m.sizebases t one u) (update h.sizebases t ((h.sizebases t).erase j) u)
    rcases eq_or_ne u t with rfl | ne
    · rw [update_self,update_self]
      exact left
    rw [update_of_ne ne,update_of_ne ne]
    refine (rep.same u).congr fun i mem => rest i fun also => ne ?_
    exact ((heap.sized u i).mp mem).2.symm.trans ((heap.sized t i).mp also).2
  obtain ⟨addr,type,nfree,chain⟩ := rep.pages i mem
  exact ⟨addr,type,nfree,chain⟩

lemma unlistAll_represents (nodup : h.allbase.Nodup) (big : h.allbase.length ≤ npagerefs) :
    ∃ low, unlistAll m j = some low ∧ Represents low {h with allbase := h.allbase.erase j} := by
  obtain ⟨one,next,done,left,_⟩ := rep.all.unlink nodup big
  refine ⟨{m.relinkAll next with allbase := one},?_,left,rep.same,rep.inuse,fun i mem => ?_⟩
  · rw [unlistAll,done]
    rfl
  obtain ⟨addr,type,nfree,chain⟩ := rep.pages i (List.mem_of_mem_erase mem)
  exact ⟨addr,type,nfree,chain⟩

lemma removeLists_represents (heap : Integrity h live pages) (t : Fin nsizes) :
    ∃ low, removeLists m j t = some low ∧ Represents low (Kmalloc.removeLists h j t) := by
  obtain ⟨mid,one,unlisted⟩ := unlistSamesize_represents (j := j) rep heap t
  have big := all_length heap
  obtain ⟨low,two,done⟩ := unlistAll_represents (j := j) unlisted heap.nodup big
  refine ⟨low,?_,done⟩
  rw [removeLists,one]
  exact two

end

section
variable (rep : Represents m h)
include rep

lemma freepageref_represents {after : Kmalloc.Heap} (done : Kmalloc.freepageref h j = some after) :
    freepageref m j = some (m.clearInuse j) ∧ Represents (m.clearInuse j) after := by
  have low : j % 32 < 32 := Nat.mod_lt _ (by decide)
  unfold Kmalloc.freepageref at done
  split at done
  · rename_i used
    cases done
    have busy : m.pagerefsInuse (j/32) &&& bit (j % 32) ≠ 0 := by
      intro zero
      have set := (rep.inuse j used.1).trans used.2
      rw [(masked_iff low).mp zero] at set
      cases set
    refine ⟨if_pos ⟨used.1,busy⟩,rep.all,rep.same,fun i inside => ?_,rep.pages⟩
    refine inuse_update rep inside ?_ fun k other => ?_
    · rw [getLsbD_clear low,decide_eq_true rfl,Bool.not_true,Bool.and_false]
    · rw [getLsbD_clear low,decide_eq_false other,Bool.not_false,Bool.and_true]
  · cases done

lemma kfree_eq (heap : Integrity h live pages) (mem : j ∈ h.allbase)
    (slot : Slot (h.pagerefs j).blktype offset) : kfree m ((h.pagerefs j).pageaddr+offset) =
      freeBlock m j ((h.pagerefs j).pageaddr+offset) (h.pagerefs j).blktype := by
  have pos := (page_bounds heap mem).1
  have hit := heap.findPage_eq mem (Nat.le_add_right _ offset) (Nat.add_lt_add_left slot.1 _)
  have type : prBlocktype (m.pagerefs j) = (h.pagerefs j).blktype.val := (rep.pages j mem).type
  have lt : prBlocktype (m.pagerefs j) < nsizes := type ▸ (h.pagerefs j).blktype.isLt
  have eq : (⟨prBlocktype (m.pagerefs j),lt⟩ : Fin nsizes) = (h.pagerefs j).blktype := Fin.ext type
  rw [kfree,if_neg (Nat.ne_of_gt (Nat.add_pos_left pos _)),subpageKfree,findPage_eq rep heap,hit]
  simp only [pure_def,bind_eq_bind,bind_some,dif_pos lt,eq]
  cases freeBlock m j ((h.pagerefs j).pageaddr+offset) (h.pagerefs j).blktype <;> rfl

lemma kfree_represents {after : Kmalloc.Heap} {back : Option Nat} (heap : Integrity h live pages)
    (at_ : live k = some x) (lt : x.Small) (done : Kmalloc.releases h x.ptr = some (after,back)) :
    ∃ low, kfree m x.ptr = some (low,(back.map PageCall.free).toList) ∧ Represents low after := by
  obtain ⟨j,mem,offset,place,slot,did⟩ := heap.small k x at_ lt
  have pushedHeap := Kmalloc.push_integrity heap at_ lt mem place slot did
  have threads := rep.pages j mem
  have pushed := pushBlock_represents rep heap mem slot did
  have aligned : offset % sizes (h.pagerefs j).blktype = 0 := Nat.mod_eq_zero_of_dvd slot.2
  have room := Kmalloc.pushed_room (Kmalloc.pushed_good (heap.good j mem) slot did)
  have count : ((pushBlock m j ((h.pagerefs j).pageaddr+offset) (h.pagerefs j).blktype).pagerefs j).nfree =
      (Kmalloc.pushed (h.pagerefs j) offset).nfree := by
    refine (pushed.pages j mem).nfree.trans ?_
    exact congrArg Kmalloc.Pageref.nfree (update_self ..)
  rw [place,Kmalloc.releases_small heap mem slot did] at done
  rw [place,kfree_eq rep heap mem slot,freeBlock]
  simp only [threads.address,Nat.add_sub_cancel_left,aligned,ne_eq,not_true_eq_false,if_false,count]
  rw [if_neg (not_lt.mpr room)]
  by_cases full : (Kmalloc.pushed (h.pagerefs j) offset).nfree = capacity (h.pagerefs j).blktype
  · rw [if_pos full] at done ⊢
    obtain ⟨freed,cleared,eq⟩ := map_eq_some_iff.mp done
    cases eq
    obtain ⟨low,removed,unlisted⟩ := removeLists_represents (j := j) pushed pushedHeap (h.pagerefs j).blktype
    obtain ⟨gone,last⟩ := freepageref_represents unlisted cleared
    refine ⟨low.clearInuse j,?_,last⟩
    rw [removed]
    change (freepageref low j).bind _ = _
    rw [gone]
    rfl
  rw [if_neg full] at done ⊢
  cases done
  exact ⟨_,rfl,pushed⟩

lemma store_represents (heap : Integrity h live pages) (mem : j ∈ h.allbase) (slot : Slot (h.pagerefs j).blktype offset)
    (did : offset ∉ (h.pagerefs j).freelist) (low : (h.pagerefs j).pageaddr+offset ≤ a)
    (high : a < (h.pagerefs j).pageaddr+offset+sizes (h.pagerefs j).blktype) :
    Represents {m with word := update m.word a value} h := by
  refine ⟨rep.all,rep.same,rep.inuse,fun i also => (rep.pages i also).congr fun o free => ?_⟩
  have apart := word_apart heap mem slot also free fun eq => by
    subst eq
    rintro rfl
    exact did free
  exact update_of_ne (by omega) ..

end
end ToyOS.SubpageHeap

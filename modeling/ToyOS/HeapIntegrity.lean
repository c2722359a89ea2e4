import ToyOS.HeapRefinement

namespace ToyOS.SubpageHeap
open Function UserSpace Linked BlockStore Transition Option List Nat
open Kmalloc (nsizes sizes capacity npagerefs blocktype largestSubpageSize Slot Lies Object Integrity PageOwner)
open KernelPages (Pages)

def Accounted (h : Kmalloc.Heap) (live : Nat → Option Object) : Prop :=
  ∀ j ∈ h.allbase, ∀ offset, Slot (h.pagerefs j).blktype offset → offset ∉ (h.pagerefs j).freelist →
    ∃ k x, live k = some x ∧ x.Small ∧ x.ptr = (h.pagerefs j).pageaddr+offset ∧ x.sz ≤ sizes (h.pagerefs j).blktype

variable {h after : Kmalloc.Heap} {live : Nat → Option Object} {pages : Pages PageOwner} {m : Memory}
  {j k l ptr sz offset p : Nat} {t : Fin nsizes} {x y : Object}

lemma doalloc_some (heap : Integrity h live pages) (mem : j ∈ h.allbase) (some_ : 0 < (h.pagerefs j).nfree) :
    ∃ offset rest, (h.pagerefs j).freelist = offset :: rest ∧ Kmalloc.doalloc h j =
      some (h.setPageref j {h.pagerefs j with freelist := rest,nfree := (h.pagerefs j).nfree-1},
        (h.pagerefs j).pageaddr+offset) := by
  have count := (heap.good j mem).count
  cases list : (h.pagerefs j).freelist with
  | nil =>
    rw [list] at count
    exact absurd count (Nat.ne_of_gt some_)
  | cons offset rest =>
    rw [list,length_cons] at count
    refine ⟨offset,rest,rfl,?_⟩
    rw [Kmalloc.doalloc,list]
    refine if_pos ?_
    rw [count,Nat.add_sub_cancel]
    exact length_eq_zero_iff.symm

lemma Accounted.doalloc (acc : Accounted h live) (new : live k = none) (list : (h.pagerefs j).freelist = offset :: rest)
    (little : sz < largestSubpageSize) (fits : sz ≤ sizes (h.pagerefs j).blktype) :
    Accounted (h.setPageref j {h.pagerefs j with freelist := rest,nfree := (h.pagerefs j).nfree-1})
      (update live k (some ⟨(h.pagerefs j).pageaddr+offset,sz⟩)) := by
  have older : ∀ i ∈ h.allbase, ∀ o, Slot (h.pagerefs i).blktype o → o ∉ (h.pagerefs i).freelist →
      ∃ l x, update live k (some ⟨(h.pagerefs j).pageaddr+offset,sz⟩) l = some x ∧ x.Small ∧
        x.ptr = (h.pagerefs i).pageaddr+o ∧ x.sz ≤ sizes (h.pagerefs i).blktype := by
    intro i mem o slot did
    obtain ⟨l,x,at_,rest⟩ := acc i mem o slot did
    refine ⟨l,x,?_,rest⟩
    rw [update_of_ne]
    · exact at_
    rintro rfl
    rw [new] at at_
    cases at_
  intro i mem o slot did
  change i ∈ h.allbase at mem
  simp only [Kmalloc.Heap.setPageref] at slot did ⊢
  rcases eq_or_ne i j with rfl | ne
  · rw [update_self] at slot did ⊢
    by_cases here : o = offset
    · subst here
      exact ⟨k,_,update_self ..,little,rfl,fits⟩
    refine older i mem o slot ?_
    rw [list,mem_cons]
    exact not_or.mpr ⟨here,did⟩
  rw [update_of_ne ne] at slot did ⊢
  exact older i mem o slot did

lemma mem_freshList (slot : Slot t offset) : offset ∈ Kmalloc.freshList t := by
  obtain ⟨i,inside,rfl⟩ := Kmalloc.slot_iff.mp slot
  exact mem_reverse.mpr (mem_map.mpr ⟨i,mem_range.mpr inside,rfl⟩)

lemma Accounted.enlist (acc : Accounted h live) (fresh : j ∉ h.allbase) : Accounted (Kmalloc.enlist h j t p) live := by
  intro i member o slot taken
  simp only [Kmalloc.enlist] at slot taken ⊢
  rcases mem_cons.mp member with rfl | older
  · rw [update_self] at slot taken
    exact absurd (mem_freshList slot) taken
  have ne : i ≠ j := fun eq => fresh (eq ▸ older)
  rw [update_of_ne ne] at slot taken ⊢
  exact acc i older o slot taken

lemma Accounted.push (acc : Accounted h live) (heap : Integrity h live pages) (at_ : live k = some x)
    (mem : j ∈ h.allbase) (position : x.ptr = (h.pagerefs j).pageaddr+offset)
    (slot : Slot (h.pagerefs j).blktype offset) :
    Accounted (h.setPageref j (Kmalloc.pushed (h.pagerefs j) offset)) (update live k none) := by
  have left : ∀ i ∈ h.allbase, ∀ o, Slot (h.pagerefs i).blktype o → o ∉ (h.pagerefs i).freelist →
      (i = j → o ≠ offset) → ∃ l y, update live k none l = some y ∧ y.Small ∧
        y.ptr = (h.pagerefs i).pageaddr+o ∧ y.sz ≤ sizes (h.pagerefs i).blktype := by
    intro i also o isSlot did apart
    obtain ⟨l,y,hit,lt,place,fits⟩ := acc i also o isSlot did
    refine ⟨l,y,?_,lt,place,fits⟩
    rw [update_of_ne]
    · exact hit
    rintro rfl
    cases some.inj (at_.symm.trans hit)
    rcases eq_or_ne i j with rfl | ne
    · exact apart rfl (add_left_cancel (place.symm.trans position))
    have inside := slot.1
    have inside' := isSlot.1
    rcases page_apart heap mem also ne with pre | later
    · omega
    · omega
  intro i also o isSlot did
  change i ∈ h.allbase at also
  simp only [Kmalloc.Heap.setPageref] at isSlot did ⊢
  rcases eq_or_ne i j with rfl | ne
  · rw [update_self] at isSlot did ⊢
    obtain ⟨apart,free⟩ := not_or.mp (mem_cons.not.mp did)
    exact left i also o isSlot free fun _ => apart
  rw [update_of_ne ne] at isSlot did ⊢
  exact left i also o isSlot did fun eq => absurd eq ne

-- The allocator and its callers. Calls of kmalloc are numbered; `live` is what each returned and kfree did not take
-- back, `pages` are those of alloc_kpages not given back.
structure State where
  memory : Memory
  live : Nat → Option Object
  next : Nat
  pages : List Nat

-- `prpage` is what alloc_kpages would return. A caller may write to the memory it has.
inductive Event where
  | kmalloc (sz prpage : Nat)
  | kfree (ticket : Nat)
  | store (address : Nat) (value : BitVec 32)

def account (pages : List Nat) : PageCall → List Nat
  | .alloc prpage => if prpage = 0 then pages else prpage :: pages
  | .free prpage => pages.erase prpage

def step (s : State) : Event → Option State
  | .kmalloc sz prpage => (subpageKmalloc s.memory sz prpage).map fun (memory,ptr,calls) =>
    {memory
     live := if ptr = 0 then s.live else update s.live s.next (some ⟨ptr,sz⟩)
     next := s.next+1
     pages := calls.foldl account s.pages}
  | .kfree ticket => (s.live ticket).bind fun x => (kfree s.memory x.ptr).map fun (memory,calls) =>
    {s with memory,live := update s.live ticket none,pages := calls.foldl account s.pages}
  | .store address value => some {s with memory := {s.memory with word := update s.memory.word address value}}

-- No page of kseg0 is the last one of the address space, so prpage + PAGE_SIZE does not wrap.
def Allowed (s : State) : Event → Prop
  | .kmalloc sz prpage => sz < largestSubpageSize ∧
    (prpage = 0 ∨ prpage % pageSize = 0 ∧ prpage+pageSize < 2^32 ∧ prpage ∉ s.pages)
  | .kfree ticket => ∃ x, s.live ticket = some x
  | .store address _ => ∃ k x, s.live k = some x ∧ x.ptr ≤ address ∧ address < x.ptr+x.sz

def initial (word : Nat → BitVec 32) : State := ⟨emptyMemory word,fun _ => none,0,[]⟩

structure Sound (s : State) (h : Kmalloc.Heap) (pages : Pages PageOwner) : Prop where
  represents : Represents s.memory h
  integrity : Integrity h s.live pages
  accounted : Accounted h s.live
  small : ∀ k x, s.live k = some x → x.Small
  issued : ∀ k, s.next ≤ k → s.live k = none
  owned : ∀ p, p ∈ s.pages ↔ ∃ j ∈ h.allbase, (h.pagerefs j).pageaddr = p
  nodup : s.pages.Nodup

lemma initial_sound (word : Nat → BitVec 32) : Sound (initial word) Kmalloc.emptyHeap .empty := by
  refine ⟨⟨rfl,fun _ => rfl,?_,?_⟩,?_,?_,?_,fun _ _ => rfl,?_,nodup_nil⟩
  · intro j _
    exact BitVec.getLsbD_zero
  · exact fun j mem => (not_mem_nil mem).elim
  · exact Kmalloc.empty_integrity
  · exact fun j mem => (not_mem_nil mem).elim
  · intro k x at_
    cases at_
  intro p
  constructor
  · exact fun mem => (not_mem_nil mem).elim
  rintro ⟨j,mem,_⟩
  exact (not_mem_nil mem).elim

lemma Sound.vacant (sound : Sound s h pages) (new : page*pageSize ∉ s.pages) (i : Nat)
    (covers : Block.Covers ⟨page,1⟩ i) : pages.Vacant i := by
  intro o b held inside
  cases o with
  | page j =>
    by_cases mem : j ∈ h.allbase
    · obtain ⟨_,other,addr,block⟩ := sound.integrity.managed j mem
      cases some.inj (held.symm.trans block)
      have eq : other = page := by
        have one := covers_iff.mp covers
        have two := covers_iff.mp inside
        omega
      subst eq
      exact new ((sound.owned _).mpr ⟨j,mem,addr⟩)
    rw [sound.integrity.unmanaged j mem] at held
    cases held
  | large k =>
    rw [sound.integrity.noLarge k (sound.small k)] at held
    cases held
  | spare =>
    rw [sound.integrity.noSpare] at held
    cases held

lemma blocktype_fits (little : sz < largestSubpageSize) : ∃ t, blocktype sz = some t ∧ sz ≤ sizes t := by
  cases found : blocktype sz with
  | none =>
    have none_ := find?_eq_none.mp found ⟨7,by decide⟩ (mem_finRange _)
    exact absurd (decide_eq_true (le_of_lt little)) none_
  | some t =>
    have hit : decide (sz ≤ sizes t) := find?_some (p := fun t => decide (sz ≤ sizes t)) found
    exact ⟨t,rfl,of_decide_eq_true hit⟩

-- How kmalloc is served.
inductive Served (m : Memory) (prpage : Nat) : Nat → List PageCall → Prop where
  | listed {got : Nat} : got ≠ 0 → Served m prpage got []
  | refused : prpage = 0 → Served m prpage 0 [.alloc 0]
  | noPageref : prpage ≠ 0 → (∀ j, j < npagerefs → (m.pagerefsInuse (j/32)).getLsbD (j % 32) = true) →
      Served m prpage 0 [.alloc prpage,.free prpage]
  | fresh {got : Nat} : prpage ≠ 0 → got ≠ 0 →
      (∃ j, j < npagerefs ∧ (m.pagerefsInuse (j/32)).getLsbD (j % 32) = false) → Served m prpage got [.alloc prpage]

section
variable {s : State}

def State.hands (s : State) (memory : Memory) (ptr sz : Nat) : State :=
  {s with memory,live := update s.live s.next (some ⟨ptr,sz⟩),next := s.next+1}

section
variable (sound : Sound s h pages)
include sound

lemma Sound.takes (mem : j ∈ h.allbase) (free : 0 < (h.pagerefs j).nfree)
    (little : sz < largestSubpageSize) (fits : sz ≤ sizes (h.pagerefs j).blktype) :
    ∃ low ptr after, doalloc s.memory j = some (low,ptr) ∧ ptr ≠ 0 ∧ Sound (s.hands low ptr sz) after pages := by
  obtain ⟨offset,rest,freelist,done⟩ := doalloc_some sound.integrity mem free
  obtain ⟨low,did,rep⟩ := doalloc_represents sound.represents sound.integrity mem done
  have new := sound.issued s.next le_rfl
  obtain ⟨integrity,nz⟩ := Kmalloc.doalloc_integrity sound.integrity mem new little done
  refine ⟨low,_,_,did,nz,rep,integrity,sound.accounted.doalloc new freelist little fits,?_,?_,?_,sound.nodup⟩
  · intro k x at_
    change update s.live s.next _ k = some x at at_
    rcases eq_or_ne k s.next with rfl | ne
    · rw [update_self] at at_
      cases at_
      exact little
    rw [update_of_ne ne] at at_
    exact sound.small k x at_
  · intro k later
    exact (update_of_ne (ne_of_gt later) ..).trans (sound.issued k (le_of_succ_le later))
  intro p
  rw [State.hands,sound.owned p]
  refine exists_congr fun i => and_congr_right fun _ => ?_
  simp only [Kmalloc.Heap.setPageref]
  rcases eq_or_ne i j with rfl | ne
  · rw [update_self]
  · rw [update_of_ne ne]

lemma Sound.enlists (inside : j < npagerefs) (unused : j ∉ h.allbase)
    (aligned : p % pageSize = 0) (nz : p ≠ 0) (lt : p+pageSize ≤ 2^32) (new : p ∉ s.pages) (t : Fin nsizes) :
    ∃ pages, Sound {s with memory := enlist (s.memory.setInuse j) j t p,pages := p :: s.pages}
      (Kmalloc.enlist h j t p) pages := by
  obtain ⟨page,rfl⟩ := dvd_of_mod_eq_zero aligned
  rw [mul_comm pageSize page] at *
  have le : Block.Within ⟨page,1⟩ 0 KernelPages.limit := by
    refine within_iff.mpr ⟨zero_le _,one_pos,?_⟩
    unfold pageSize at lt
    unfold KernelPages.limit
    omega
  refine ⟨pages.add (.page j) ⟨page,1⟩ le (sound.vacant new),?_,?_,?_,sound.small,sound.issued,?_,?_⟩
  · refine enlist_represents sound.represents sound.integrity unused aligned (pos_of_ne_zero nz) lt ?_
    intro i mem
    have ne : (h.pagerefs i).pageaddr ≠ page*pageSize := fun eq => new ((sound.owned _).mpr ⟨i,mem,eq⟩)
    have left := (page_bounds sound.integrity mem).2.1
    unfold pageSize at *
    omega
  · exact Kmalloc.enlist_integrity sound.integrity inside unused le (sound.vacant new) nz t
  · exact sound.accounted.enlist unused
  · intro p
    have kept : ∀ i ∈ h.allbase, update h.pagerefs j
        ⟨pageFrame (page*pageSize),t,Kmalloc.freshList t,capacity t⟩ i = h.pagerefs i := by
      intro i mem
      refine update_of_ne ?_ ..
      rintro rfl
      exact unused mem
    rw [mem_cons,sound.owned p]
    simp only [Kmalloc.enlist,mem_cons]
    constructor
    · rintro (rfl | ⟨i,mem,addr⟩)
      · refine ⟨j,.inl rfl,?_⟩
        rw [update_self,pageFrame_mul]
      refine ⟨i,.inr mem,?_⟩
      rw [kept i mem]
      exact addr
    rintro ⟨i,rfl | mem,addr⟩
    · rw [update_self,pageFrame_mul] at addr
      exact .inl addr.symm
    rw [kept i mem] at addr
    exact .inr ⟨i,mem,addr⟩
  · exact nodup_cons.mpr ⟨new,sound.nodup⟩

lemma Sound.kmalloc (may : Allowed s (.kmalloc sz prpage)) :
    ∃ m ptr calls, subpageKmalloc s.memory sz prpage = some (m,ptr,calls) ∧ Served s.memory prpage ptr calls ∧
      ∃ after pages, Sound ⟨m,if ptr = 0 then s.live else update s.live s.next (some ⟨ptr,sz⟩),s.next+1,
        calls.foldl account s.pages⟩ after pages := by
  obtain ⟨little,page⟩ := may
  obtain ⟨t,type,fits⟩ := blocktype_fits little
  have searched := findFree_eq (t := t) sound.represents sound.integrity
  have idle : ∀ {m}, Represents m h → ∃ after pages, Sound ⟨m,s.live,s.next+1,s.pages⟩ after pages := fun rep =>
    ⟨h,pages,rep,sound.integrity,sound.accounted,sound.small,fun k later => sound.issued k (le_of_succ_le later),
      sound.owned,sound.nodup⟩
  cases hit : (h.sizebases t).find? fun j => 0 < (h.pagerefs j).nfree with
  | some j =>
    rw [hit] at searched
    obtain ⟨mem,eq⟩ := (sound.integrity.sized t j).mp (mem_of_find?_eq_some hit)
    have free : decide (0 < (h.pagerefs j).nfree) := find?_some (p := fun j => 0 < (h.pagerefs j).nfree) hit
    obtain ⟨low,ptr,after,done,nz,now⟩ := sound.takes mem (of_decide_eq_true free) little (eq ▸ fits)
    refine ⟨low,ptr,[],?_,.listed nz,after,pages,?_⟩
    · simp [subpageKmalloc,type,searched,done]
    rw [if_neg nz]
    exact now
  | none =>
    rw [hit] at searched
    by_cases none_ : prpage = 0
    · refine ⟨s.memory,0,[.alloc 0],?_,.refused none_,?_⟩
      · simp [subpageKmalloc,type,searched,none_]
      · exact idle sound.represents
    obtain ⟨aligned,lt,new⟩ := page.resolve_left none_
    rcases allocpageref_represents sound.represents sound.integrity with ⟨full,used⟩ | ⟨j,got,inside,unused⟩
    · refine ⟨s.memory,0,[.alloc prpage,.free prpage],?_,.noPageref none_ fun j inside => ?_,?_⟩
      · simp [subpageKmalloc,type,searched,none_,full]
      · rw [sound.represents.inuse j inside]
        exact (sound.integrity.inuse j).mpr (used j inside)
      simp only [foldl_cons,foldl_nil,account,if_neg none_,erase_cons_head]
      exact idle sound.represents
    obtain ⟨more,listed⟩ := sound.enlists inside unused aligned none_ lt.le new t
    have self : (Kmalloc.enlist h j t prpage).pagerefs j =
        ⟨pageFrame prpage,t,Kmalloc.freshList t,capacity t⟩ := update_self ..
    obtain ⟨low,ptr,after,done,nz,now⟩ := listed.takes (j := j) mem_cons_self
      (by rw [self]; exact capacity_pos t) little (by rw [self]; exact fits)
    refine ⟨low,ptr,[.alloc prpage],?_,.fresh none_ nz ⟨j,inside,?_⟩,after,more,?_⟩
    · simp [subpageKmalloc,type,searched,none_,got,done]
    · rw [sound.represents.inuse j inside,←Bool.not_eq_true,sound.integrity.inuse j]
      exact unused
    simp only [foldl_cons,foldl_nil,account,if_neg none_,if_neg nz]
    exact now

end

lemma pageFrame_add (aligned : page % pageSize = 0) (lt : offset < pageSize) : pageFrame (page+offset) = page := by
  rw [pageFrame,Nat.add_mod,aligned,Nat.zero_add,Nat.mod_mod,Nat.mod_eq_of_lt lt,Nat.add_sub_cancel]

lemma Sound.place (sound : Sound s h pages) (at_ : s.live k = some x) : ∃ j ∈ h.allbase,
    Lies (h.pagerefs j) x ∧ pageFrame x.ptr = (h.pagerefs j).pageaddr := by
  obtain ⟨j,mem,lies⟩ := sound.integrity.small k x at_ (sound.small k x at_)
  refine ⟨j,mem,lies,?_⟩
  obtain ⟨offset,position,slot,_⟩ := lies
  rw [position]
  exact pageFrame_add (page_bounds sound.integrity mem).2.1 slot.1

lemma same_page (heap : Integrity h live pages) (one : j ∈ h.allbase) (two : i ∈ h.allbase)
    (eq : (h.pagerefs i).pageaddr = (h.pagerefs j).pageaddr) : i = j := by
  by_contra other
  have pos : 0 < pageSize := by decide
  rcases page_apart heap one two other with pre | later
  · omega
  · omega

lemma slot_left {offsets : List Nat} (few : offsets.length < capacity t) :
    ∃ offset, Slot t offset ∧ offset ∉ offsets := by
  by_contra none_
  have all : Kmalloc.freshList t ⊆ offsets := by
    intro offset mem
    by_contra absent
    exact none_ ⟨offset,(Kmalloc.freshList_good t 0).slots offset mem,absent⟩
  have big := (subperm_of_subset (Kmalloc.freshList_good t 0).nodup all).length_le
  rw [←(Kmalloc.freshList_good t 0).count] at big
  exact Nat.not_lt_of_le big few

lemma Sound.full_iff (sound : Sound s h pages) (at_ : s.live k = some x) (mem : j ∈ h.allbase)
    (position : x.ptr = (h.pagerefs j).pageaddr+offset) (slot : Slot (h.pagerefs j).blktype offset)
    (did : offset ∉ (h.pagerefs j).freelist) :
    (Kmalloc.pushed (h.pagerefs j) offset).nfree = capacity (h.pagerefs j).blktype ↔
      ∀ l y, l ≠ k → s.live l = some y → pageFrame y.ptr ≠ (h.pagerefs j).pageaddr := by
  have good := Kmalloc.pushed_good (sound.integrity.good j mem) slot did
  have aligned := (page_bounds sound.integrity mem).2.1
  constructor
  · intro full l y ne hit same
    obtain ⟨i,also,⟨o,place,isSlot,used⟩,frame⟩ := sound.place hit
    cases same_page sound.integrity mem also (frame.symm.trans same)
    have filled : capacity (h.pagerefs j).blktype ≤ (Kmalloc.pushed (h.pagerefs j) offset).freelist.length := by
      rw [←good.count,full]
    rcases mem_cons.mp (Kmalloc.slots_full good.nodup good.slots filled isSlot) with rfl | free
    · exact ne (sound.integrity.distinct l k y x hit at_ (sound.small l y hit) (sound.small k x at_)
        (place.trans position.symm))
    · exact used free
  intro last
  refine le_antisymm (Kmalloc.pushed_room good) (Nat.le_of_not_lt fun few => ?_)
  rw [good.count] at few
  obtain ⟨o,isSlot,left⟩ := slot_left few
  have acc := sound.accounted.push sound.integrity at_ mem position slot
  have self : (h.setPageref j (Kmalloc.pushed (h.pagerefs j) offset)).pagerefs j =
      Kmalloc.pushed (h.pagerefs j) offset := update_self ..
  obtain ⟨l,y,hit,_,place,_⟩ := acc j mem o (by rw [self]; exact isSlot) (by rw [self]; exact left)
  rw [self] at place
  obtain ⟨ne,older⟩ := Kmalloc.live_left hit
  refine last l y ne older ?_
  rw [place]
  exact pageFrame_add aligned isSlot.1

lemma freepageref_fields (freed : Kmalloc.freepageref h j = some after) :
    after = {h with inuse := update h.inuse j false} := by
  unfold Kmalloc.freepageref at freed
  split at freed
  · cases freed
    rfl
  · cases freed

def GivesBack (s : State) (k : Nat) (x : Object) (page : Nat) : Prop :=
  page = pageFrame x.ptr ∧ ∀ l y, l ≠ k → s.live l = some y → pageFrame y.ptr ≠ page

section
variable (sound : Sound s h pages)
include sound

lemma Sound.kfree (at_ : s.live k = some x) :
    ∃ m calls, kfree s.memory x.ptr = some (m,calls) ∧ (∀ page, .free page ∈ calls ↔ GivesBack s k x page) ∧
      ∃ after pages, Sound {s with memory := m,live := update s.live k none,pages := calls.foldl account s.pages}
        after pages := by
  have lt := sound.small k x at_
  obtain ⟨j,mem,⟨offset,position,slot,taken⟩,frame⟩ := sound.place at_
  have pushedHeap := Kmalloc.push_integrity sound.integrity at_ lt mem position slot taken
  have acc := sound.accounted.push sound.integrity at_ mem position slot
  have last := sound.full_iff at_ mem position slot taken
  have self : (h.setPageref j (Kmalloc.pushed (h.pagerefs j) offset)).pagerefs j =
      Kmalloc.pushed (h.pagerefs j) offset := update_self ..
  have addresses : ∀ i, ((h.setPageref j (Kmalloc.pushed (h.pagerefs j) offset)).pagerefs i).pageaddr =
      (h.pagerefs i).pageaddr := by
    intro i
    rcases eq_or_ne i j with rfl | ne
    · rw [self]
      rfl
    · exact congrArg Kmalloc.Pageref.pageaddr (update_of_ne ne ..)
  have little : ∀ l y, update s.live k none l = some y → y.Small := fun l y hit =>
    sound.small l y (Kmalloc.live_left hit).2
  have issued : ∀ l, s.next ≤ l → update s.live k none l = none := by
    intro l later
    rcases eq_or_ne l k with rfl | ne
    · exact update_self ..
    rw [update_of_ne ne]
    exact sound.issued l later
  have done := Kmalloc.releases_small sound.integrity mem slot taken
  rw [←position] at done
  by_cases full : (Kmalloc.pushed (h.pagerefs j) offset).nfree = capacity (h.pagerefs j).blktype
  · obtain ⟨after,freed,integrity⟩ := Kmalloc.unlist_integrity pushedHeap mem (by rw [self]; exact full)
    rw [self,show (Kmalloc.pushed (h.pagerefs j) offset).blktype = (h.pagerefs j).blktype from rfl] at freed
    rw [if_pos full,freed] at done
    have left : ∀ {i}, i ∈ after.allbase ↔ i ≠ j ∧ i ∈ h.allbase := by
      intro i
      rw [freepageref_fields freed]
      exact sound.integrity.nodup.mem_erase_iff
    have eq : after.pagerefs = (h.setPageref j (Kmalloc.pushed (h.pagerefs j) offset)).pagerefs := by
      rw [freepageref_fields freed]
      rfl
    obtain ⟨low,did,rep⟩ := kfree_represents sound.represents sound.integrity at_ lt done
    refine ⟨low,_,did,fun page => ?_,after,_,rep,integrity,?_,little,issued,?_,?_⟩
    · simp only [Option.map_some,Option.toList_some,mem_singleton,PageCall.free.injEq]
      rw [GivesBack,frame]
      constructor
      · rintro rfl
        exact ⟨rfl,last.mp full⟩
      · exact fun gives => gives.1
    · intro i inside
      rw [eq]
      exact acc i (left.mp inside).2
    · intro p
      change p ∈ s.pages.erase (h.pagerefs j).pageaddr ↔ _
      rw [sound.nodup.mem_erase_iff,sound.owned p]
      constructor
      · rintro ⟨ne,i,inside,addr⟩
        refine ⟨i,left.mpr ⟨?_,inside⟩,by rw [eq,addresses i,addr]⟩
        rintro rfl
        exact ne addr.symm
      rintro ⟨i,inside,addr⟩
      rw [eq,addresses i] at addr
      refine ⟨fun here => (left.mp inside).1 ?_,i,(left.mp inside).2,addr⟩
      exact same_page sound.integrity mem (left.mp inside).2 (addr.trans here)
    · exact sound.nodup.erase _
  rw [if_neg full] at done
  obtain ⟨low,did,rep⟩ := kfree_represents sound.represents sound.integrity at_ lt done
  refine ⟨low,_,did,fun page => ?_,_,pages,rep,pushedHeap,acc,little,issued,?_,sound.nodup⟩
  · constructor
    · exact fun mem => (not_mem_nil mem).elim
    rintro ⟨rfl,alone⟩
    rw [frame] at alone
    exact absurd (last.mpr alone) full
  intro p
  rw [show (foldl account s.pages (Option.map PageCall.free none).toList) = s.pages from rfl,sound.owned p]
  exact exists_congr fun i => and_congr_right fun _ => by rw [addresses i]

lemma Sound.fits (at_ : s.live k = some x) (mem : j ∈ h.allbase)
    (position : x.ptr = (h.pagerefs j).pageaddr+offset) (slot : Slot (h.pagerefs j).blktype offset)
    (did : offset ∉ (h.pagerefs j).freelist) : x.sz ≤ sizes (h.pagerefs j).blktype := by
  obtain ⟨l,y,hit,lt,place,fits⟩ := sound.accounted j mem offset slot did
  cases sound.integrity.distinct k l x y at_ hit (sound.small k x at_) lt (position.trans place.symm)
  cases some.inj (at_.symm.trans hit)
  exact fits

lemma Sound.store (may : Allowed s (.store addr value)) :
    Sound {s with memory := {s.memory with word := update s.memory.word addr value}} h pages := by
  obtain ⟨k,x,at_,low,high⟩ := may
  obtain ⟨j,mem,⟨offset,position,slot,did⟩,_⟩ := sound.place at_
  have fits := sound.fits at_ mem position slot did
  exact ⟨store_represents sound.represents sound.integrity mem slot did (position ▸ low) (by omega),
    sound.integrity,sound.accounted,sound.small,sound.issued,sound.owned,sound.nodup⟩

lemma Sound.step {t : State} (may : Allowed s event)
    (ran : step s event = some t) : ∃ after pages, Sound t after pages := by
  cases event with
  | kmalloc sz prpage =>
    obtain ⟨m,ptr,calls,done,_,now⟩ := sound.kmalloc may
    rw [SubpageHeap.step,done] at ran
    cases ran
    exact now
  | kfree ticket =>
    obtain ⟨x,at_⟩ := may
    obtain ⟨m,calls,done,_,now⟩ := sound.kfree at_
    rw [SubpageHeap.step,at_,bind_some,done] at ran
    cases ran
    exact now
  | store addr value =>
    cases ran
    exact ⟨h,pages,sound.store may⟩

end

lemma reached_sound {word : Nat → BitVec 32} (path : Reached step Allowed (initial word) s) :
    ∃ h pages, Sound s h pages := by
  refine path.invariant (fun s => ∃ h pages, Sound s h pages) ⟨_,_,initial_sound word⟩ ?_
  rintro s event t _ ⟨h,pages,sound⟩ may ran
  exact sound.step may ran

-- Where the block of a caller is: on a page of its size, with the whole block inside the page.
def Handed (s : State) (sized : Fin nsizes → List Nat) (x : Object) (t : Fin nsizes) : Prop :=
  ∃ j ∈ sized t, ∃ offset, Slot t offset ∧ x.ptr = prPageaddr (s.memory.pagerefs j)+offset ∧ x.sz ≤ sizes t ∧
    offset+sizes t ≤ pageSize

-- The heap in memory: `all` and `sized` are the pagerefs on the lists, `free` the offsets of the blocks on each one's
-- free list.
structure Intact (s : State) (all : List Nat) (sized : Fin nsizes → List Nat) (free : Nat → List Nat) : Prop where
  allbase : Chain s.memory.nextAll s.memory.allbase all ∧ all.Nodup
  sizebases : ∀ t, Chain s.memory.nextSamesize (s.memory.sizebases t) (sized t) ∧ (sized t).Nodup
  once : ∀ t j, j ∈ sized t ↔ j ∈ all ∧ prBlocktype (s.memory.pagerefs j) = t.val
  typed : ∀ j ∈ all, prBlocktype (s.memory.pagerefs j) < nsizes
  inuse : ∀ j, j ∈ all ↔ j < npagerefs ∧ (s.memory.pagerefsInuse (j/32)).getLsbD (j % 32) = true
  pages : ∀ page, page ∈ s.pages ↔ ∃ j ∈ all, prPageaddr (s.memory.pagerefs j) = page
  pagesOnce : ∀ i ∈ all, ∀ j ∈ all, prPageaddr (s.memory.pagerefs i) = prPageaddr (s.memory.pagerefs j) → i = j
  freelist : ∀ j ∈ all, Chain (nextFree s.memory.word (prPageaddr (s.memory.pagerefs j)))
    (headOffset (s.memory.pagerefs j).freelistOffset) (free j)
  counted : ∀ j ∈ all, (s.memory.pagerefs j).nfree = (free j).length ∧ (free j).Nodup
  blocks : ∀ t j, j ∈ sized t → ∀ offset ∈ free j, Slot t offset ∧
    ∀ k x, s.live k = some x → x.ptr ≠ prPageaddr (s.memory.pagerefs j)+offset
  handed : ∀ k x, s.live k = some x → ∃ t, Handed s sized x t
  disjoint : ∀ k l x y t u, s.live k = some x → s.live l = some y → k ≠ l → Handed s sized x t → Handed s sized y u →
    x.ptr+sizes t ≤ y.ptr ∨ y.ptr+sizes u ≤ x.ptr

lemma Sound.disjoint (sound : Sound s h pages) (one : s.live k = some x) (two : s.live l = some y) (other : k ≠ l)
    (first : Handed s h.sizebases x t) (second : Handed s h.sizebases y u) :
    x.ptr+sizes t ≤ y.ptr ∨ y.ptr+sizes u ≤ x.ptr := by
  obtain ⟨j,sized,offset,slot,position,_,last⟩ := first
  obtain ⟨i,also,o,isSlot,place,_,last'⟩ := second
  obtain ⟨mem,rfl⟩ := (sound.integrity.sized t j).mp sized
  obtain ⟨mem',rfl⟩ := (sound.integrity.sized u i).mp also
  rw [(sound.represents.pages j mem).address] at position
  rw [(sound.represents.pages i mem').address] at place
  rcases eq_or_ne i j with rfl | ne
  · have apart : offset ≠ o := by
      rintro rfl
      exact other (sound.integrity.distinct k l x y one two (sound.small k x one) (sound.small l y two)
        (position.trans place.symm))
    rcases slot_apart slot isSlot apart with pre | later
    · omega
    · omega
  rcases page_apart sound.integrity mem mem' ne with pre | later
  · omega
  · omega

lemma Sound.intact (sound : Sound s h pages) : Intact s h.allbase h.sizebases fun j => (h.pagerefs j).freelist := by
  have rep := sound.represents
  have heap := sound.integrity
  have addr : ∀ {j}, j ∈ h.allbase → prPageaddr (s.memory.pagerefs j) = (h.pagerefs j).pageaddr :=
    fun mem => (rep.pages _ mem).address
  have type : ∀ {j}, j ∈ h.allbase → prBlocktype (s.memory.pagerefs j) = (h.pagerefs j).blktype.val :=
    fun mem => (rep.pages _ mem).type
  refine ⟨⟨rep.all,heap.nodup⟩,fun t => ⟨rep.same t,heap.sizedNodup t⟩,?_,?_,?_,?_,?_,?_,?_,?_,?_,
    fun k l x y t u => sound.disjoint⟩
  · intro t j
    rw [heap.sized t j]
    refine and_congr_right fun mem => ?_
    rw [type mem]
    exact Fin.ext_iff
  · intro j mem
    rw [type mem]
    exact (h.pagerefs j).blktype.isLt
  · intro j
    constructor
    · intro mem
      exact ⟨heap.bounded j mem,(rep.inuse j (heap.bounded j mem)).trans ((heap.inuse j).mpr mem)⟩
    rintro ⟨inside,set⟩
    exact (heap.inuse j).mp ((rep.inuse j inside).symm.trans set)
  · intro page
    rw [sound.owned page]
    exact exists_congr fun j => and_congr_right fun mem => by rw [addr mem]
  · intro i first j second eq
    rw [addr first,addr second] at eq
    exact same_page heap second first eq
  · intro j mem
    rw [addr mem]
    exact (rep.pages j mem).chain
  · intro j mem
    have good := heap.good j mem
    exact ⟨(rep.pages j mem).nfree.trans good.count,good.nodup⟩
  · intro t j listed offset free
    obtain ⟨mem,rfl⟩ := (heap.sized t j).mp listed
    refine ⟨(heap.good j mem).slots offset free,fun k x at_ => ?_⟩
    rw [addr mem]
    exact heap.free_unused mem free at_ (sound.small k x at_)
  intro k x at_
  obtain ⟨j,mem,⟨offset,position,slot,did⟩,_⟩ := sound.place at_
  refine ⟨_,j,(heap.sized _ j).mpr ⟨mem,rfl⟩,offset,slot,?_,sound.fits at_ mem position slot did,slot_end slot⟩
  rw [addr mem,position]

theorem heap_intact {word : Nat → BitVec 32} (path : Reached step Allowed (initial word) s) :
    (∃ all sized free, Intact s all sized free) ∧
    (∀ sz prpage, Allowed s (.kmalloc sz prpage) → ∃ m ptr calls,
      subpageKmalloc s.memory sz prpage = some (m,ptr,calls) ∧ Served s.memory prpage ptr calls) ∧
    ∀ k x, s.live k = some x → ∃ m calls,
      SubpageHeap.kfree s.memory x.ptr = some (m,calls) ∧ ∀ page, .free page ∈ calls ↔ GivesBack s k x page := by
  obtain ⟨h,pages,sound⟩ := reached_sound path
  refine ⟨⟨_,_,_,sound.intact⟩,fun sz prpage allowed => ?_,fun k x at_ => ?_⟩
  · obtain ⟨m,ptr,calls,done,served,_⟩ := sound.kmalloc allowed
    exact ⟨m,ptr,calls,done,served⟩
  obtain ⟨m,calls,done,back,_⟩ := sound.kfree at_
  exact ⟨m,calls,done,back⟩

def halfPage : List Event := [.kmalloc 1500 0x80001000,.kmalloc 1200 0,.kfree 0]

def allowed (s : State) : Event → Bool
  | .kmalloc sz prpage => sz < largestSubpageSize &&
    (prpage == 0 || prpage % pageSize == 0 && prpage+pageSize < 2^32 && !s.pages.contains prpage)
  | .kfree ticket => (s.live ticket).isSome
  | .store .. => false

lemma allowed_sound (tested : allowed s event) : Allowed s event := by
  cases event with
  | kmalloc sz prpage => simpa [allowed,Allowed,and_assoc] using tested
  | kfree ticket => exact isSome_iff_exists.mp tested
  | store addr value => cases tested

theorem heap_intact_halfPage : ∃ s, run step (initial fun _ => 0) halfPage = some s ∧
    s.live 1 = some ⟨0x80001000,1200⟩ ∧ (∃ all sized free, Intact s all sized free) ∧
    ∃ m calls, SubpageHeap.kfree s.memory 0x80001000 = some (m,calls) ∧ .free 0x80001000 ∈ calls := by
  have ran : ((run (guarded allowed step) (initial fun _ => 0) halfPage).map fun s =>
      (s.live 0,s.live 1,s.next)) = some (none,some ⟨0x80001000,1200⟩,2) := by decide +kernel
  obtain ⟨s,reached,shown⟩ := map_eq_some_iff.mp ran
  simp only [Prod.mk.injEq] at shown
  have path : Reached step Allowed (initial fun _ => 0) s :=
    run_permitted (fun _ tested => allowed_sound tested) .initial reached
  obtain ⟨intact,_,freed⟩ := heap_intact path
  obtain ⟨m,calls,done,back⟩ := freed 1 _ shown.2.1
  obtain ⟨h,pages,sound⟩ := reached_sound path
  refine ⟨s,reached,shown.2.1,intact,m,calls,done,(back _).mpr ⟨by decide,fun l y other there => ?_⟩⟩
  have gone : s.live l = none := by
    rcases Nat.lt_or_ge l 2 with low | high
    · have first : l = 0 := by omega
      rw [first]
      exact shown.1
    · exact sound.issued l (shown.2.2 ▸ high)
  rw [gone] at there
  cases there

end
end ToyOS.SubpageHeap

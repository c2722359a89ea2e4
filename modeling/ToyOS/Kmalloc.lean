import ToyOS.KernelPages

namespace ToyOS.Kmalloc
open Function UserSpace BlockStore Coremap KernelPages List Nat Option

def nsizes : Nat := 8
def sizes (t : Fin nsizes) : Nat := [16,32,64,128,256,512,1024,2048].get t
def largestSubpageSize : Nat := 2048
def capacity (t : Fin nsizes) : Nat := pageSize / sizes t
def npagerefs : Nat := 256

-- The free list's blocks by their offset in the page, in order; freelist_offset is the first.
structure Pageref where
  pageaddr : Nat
  blktype : Fin nsizes
  freelist : List Nat
  nfree : Nat

-- The linked lists of pagerefs by index. The bitmap pagerefs_inuse has one bit for each.
structure Heap where
  pagerefs : Nat → Pageref
  inuse : Nat → Bool
  sizebases : Fin nsizes → List Nat
  allbase : List Nat

def allocpageref (h : Heap) : Option Nat := (List.range npagerefs).find? fun j => !h.inuse j

def freepageref (h : Heap) (j : Nat) : Option Heap :=
  if j < npagerefs ∧ h.inuse j then some {h with inuse := update h.inuse j false} else none

def removeLists (h : Heap) (j : Nat) (t : Fin nsizes) : Heap :=
  {h with
    sizebases := update h.sizebases t ((h.sizebases t).erase j)
    allbase := h.allbase.erase j}

def blocktype (sz : Nat) : Option (Fin nsizes) := (List.finRange nsizes).find? fun t => sz ≤ sizes t

def Heap.setPageref (h : Heap) (j : Nat) (pr : Pageref) : Heap :=
  {h with pagerefs := update h.pagerefs j pr}

def findFree (h : Heap) (t : Fin nsizes) : List Nat → Option (Option Nat)
  | [] => some none
  | j :: rest =>
    if (h.pagerefs j).blktype ≠ t then none
    else if 0 < (h.pagerefs j).nfree then some (some j)
    else findFree h t rest

def doalloc (h : Heap) (j : Nat) : Option (Heap × Nat) :=
  let pr := h.pagerefs j
  match pr.freelist with
  | [] => none
  | offset :: rest =>
    if rest = [] ↔ pr.nfree-1 = 0 then
      some (h.setPageref j {pr with freelist := rest,nfree := pr.nfree-1},pr.pageaddr+offset)
    else none

def freshList (t : Fin nsizes) : List Nat := ((List.range (capacity t)).map (·*sizes t)).reverse

def enlist (h : Heap) (j : Nat) (t : Fin nsizes) (prpage : Nat) : Heap :=
  {pagerefs := update h.pagerefs j ⟨pageFrame prpage,t,freshList t,capacity t⟩
   inuse := update h.inuse j true
   sizebases := update h.sizebases t (j :: h.sizebases t)
   allbase := j :: h.allbase}

def subpageKmalloc (h : Heap) (vm : Vm) (sz : Nat) : Option (Heap × Vm × Nat) := do
  let t ← blocktype sz
  match ← findFree h t (h.sizebases t) with
  | some j =>
    let (h,ptr) ← doalloc h j
    return (h,vm,ptr)
  | none =>
    match vm.allocKpages 1 with
    | (vm,prpage) =>
      if prpage = 0 then return (h,vm,0)
      match allocpageref h with
      | none =>
        let vm ← vm.freeKpages prpage
        return (h,vm,0)
      | some j =>
        let (h,ptr) ← doalloc (enlist h j t prpage) j
        return (h,vm,ptr)

def largePages (sz : Nat) : Nat := wrap (sz+pageSize-1) / pageSize

def kmalloc (h : Heap) (vm : Vm) (sz : Nat) : Option (Heap × Vm × Nat) :=
  if largestSubpageSize ≤ sz then
    match vm.allocKpages (largePages sz) with
    | (vm,address) => some (h,vm,address)
  else subpageKmalloc h vm sz

def findPage (h : Heap) (ptr : Nat) : Option Nat :=
  h.allbase.find? fun j =>
    (h.pagerefs j).pageaddr ≤ ptr ∧ ptr < (h.pagerefs j).pageaddr+pageSize

def subpageKfree (h : Heap) (j ptr : Nat) : Option (Heap × Option Nat) :=
  let pr := h.pagerefs j
  let offset := ptr-pr.pageaddr
  if offset % sizes pr.blktype ≠ 0 then none
  else
    let pushed := {pr with freelist := offset :: pr.freelist,nfree := pr.nfree+1}
    let h := h.setPageref j pushed
    if capacity pr.blktype < pushed.nfree then none
    else if pushed.nfree = capacity pr.blktype then
      (freepageref (removeLists h j pr.blktype) j).map fun h => (h,some pr.pageaddr)
    else some (h,none)

def releases (h : Heap) (ptr : Nat) : Option (Heap × Option Nat) :=
  match findPage h ptr with
  | some j => subpageKfree h j ptr
  | none => if ptr % pageSize = 0 then some (h,some ptr) else none

def kfree (h : Heap) (vm : Vm) (ptr : Nat) : Option (Heap × Vm) := do
  match ← releases h ptr with
  | (h,none) => return (h,vm)
  | (h,some addr) =>
    let vm ← vm.freeKpages addr
    return (h,vm)

def emptyHeap : Heap := ⟨fun _ => ⟨0,⟨0,by decide⟩,[],0⟩,fun _ => false,fun _ => [],[]⟩

structure Object where
  ptr : Nat
  sz : Nat
  deriving DecidableEq

def Object.Small (x : Object) : Prop := x.sz < largestSubpageSize
instance (x : Object) : Decidable x.Small := inferInstanceAs (Decidable (_ < _))

-- A page in use belongs to a pageref or, in a large block, to the call of kmalloc that returned it. `spare` has the
-- page of a call that finds no pageref.
inductive PageOwner where
  | page (j : Nat)
  | large (ticket : Nat)
  | spare
  deriving DecidableEq

def Slot (t : Fin nsizes) (offset : Nat) : Prop := offset < pageSize ∧ sizes t ∣ offset

structure GoodPage (pr : Pageref) : Prop where
  count : pr.nfree = pr.freelist.length
  nodup : pr.freelist.Nodup
  slots : ∀ offset ∈ pr.freelist, Slot pr.blktype offset

def Lies (pr : Pageref) (x : Object) : Prop :=
  ∃ offset, x.ptr = pr.pageaddr+offset ∧ Slot pr.blktype offset ∧ offset ∉ pr.freelist

-- Calls of kmalloc are numbered; `live` is what each returned and kfree did not take back.
structure Integrity (h : Heap) (live : Nat → Option Object) (pages : Pages PageOwner) : Prop where
  managed : ∀ j ∈ h.allbase, (h.pagerefs j).pageaddr ≠ 0 ∧
    ∃ page, (h.pagerefs j).pageaddr = page*pageSize ∧ pages.holds (.page j) = some ⟨page,1⟩
  unmanaged : ∀ j, j ∉ h.allbase → pages.holds (.page j) = none
  inuse : ∀ j, h.inuse j = true ↔ j ∈ h.allbase
  bounded : ∀ j ∈ h.allbase, j < npagerefs
  nodup : h.allbase.Nodup
  sized : ∀ t j, j ∈ h.sizebases t ↔ j ∈ h.allbase ∧ (h.pagerefs j).blktype = t
  sizedNodup : ∀ t, (h.sizebases t).Nodup
  good : ∀ j ∈ h.allbase, GoodPage (h.pagerefs j)
  small : ∀ k x, live k = some x → x.Small → ∃ j ∈ h.allbase, Lies (h.pagerefs j) x
  distinct : ∀ k l x y, live k = some x → live l = some y → x.Small → y.Small →
    x.ptr = y.ptr → k = l
  large : ∀ k x, live k = some x → ¬ x.Small → ∃ page npages, x.ptr = page*pageSize ∧
    pages.holds (.large k) = some ⟨page,npages⟩
  noLarge : ∀ k, (∀ x, live k = some x → x.Small) → pages.holds (.large k) = none
  noSpare : pages.holds .spare = none

lemma sizes_pos (t : Fin nsizes) : 0 < sizes t := by
  revert t
  decide

lemma capacity_mul (t : Fin nsizes) : capacity t*sizes t = pageSize := by
  revert t
  decide

lemma slot_iff : Slot t offset ↔ ∃ i < capacity t, offset = i*sizes t := by
  have product := capacity_mul t
  constructor
  · rintro ⟨lt,i,rfl⟩
    refine ⟨i,?_,Nat.mul_comm _ _⟩
    rw [←product,Nat.mul_comm] at lt
    exact Nat.lt_of_mul_lt_mul_right lt
  rintro ⟨i,lt,rfl⟩
  refine ⟨?_,Nat.dvd_mul_left _ _⟩
  rw [←product]
  exact Nat.mul_lt_mul_of_pos_right lt (sizes_pos t)

lemma freshList_good (t : Fin nsizes) (addr : Nat) : GoodPage ⟨addr,t,freshList t,capacity t⟩ := by
  refine ⟨by simp [freshList],?_,?_⟩
  · refine nodup_reverse.mpr (List.Nodup.map ?_ nodup_range)
    intro i j equal
    exact eq_of_mul_eq_mul_right (sizes_pos t) equal
  intro offset mem
  obtain ⟨i,lt,rfl⟩ := mem_map.mp (mem_reverse.mp mem)
  exact slot_iff.mpr ⟨i,mem_range.mp lt,rfl⟩

lemma slots_full {offsets : List Nat} (nodup : offsets.Nodup) (slots : ∀ offset ∈ offsets, Slot t offset)
    (full : capacity t ≤ offsets.length) (slot : Slot t offset) : offset ∈ offsets := by
  let all := (Finset.range (capacity t)).image (·*sizes t)
  have le : offsets.toFinset ⊆ all := by
    intro o mem
    obtain ⟨i,lt,rfl⟩ := slot_iff.mp (slots o (mem_toFinset.mp mem))
    exact Finset.mem_image.mpr ⟨i,Finset.mem_range.mpr lt,rfl⟩
  have big : all.card ≤ offsets.toFinset.card := by
    rw [toFinset_card_of_nodup nodup]
    exact le_trans Finset.card_image_le (by rwa [Finset.card_range])
  have eq := Finset.eq_of_subset_of_card_le le big
  obtain ⟨i,lt,rfl⟩ := slot_iff.mp slot
  rw [←List.mem_toFinset,eq]
  exact Finset.mem_image.mpr ⟨i,Finset.mem_range.mpr lt,rfl⟩

section
variable {h after : Heap} {live : Nat → Option Object} {pages : Pages PageOwner}

lemma empty_integrity : Integrity emptyHeap (fun _ => none) .empty := by
  constructor <;> simp [emptyHeap,Store.empty]

lemma Lies.range (lies : Lies pr x) : pr.pageaddr ≤ x.ptr ∧ x.ptr < pr.pageaddr+pageSize := by
  obtain ⟨offset,eq,⟨lt,_⟩,_⟩ := lies
  omega

section
variable (heap : Integrity h live pages)
include heap

lemma Integrity.page_of (mem : j ∈ h.allbase)
    (low : (h.pagerefs j).pageaddr ≤ ptr) (high : ptr < (h.pagerefs j).pageaddr+pageSize) :
    ∃ b, pages.holds (.page j) = some b ∧ b.Covers (ptr / pageSize) := by
  obtain ⟨_,page,addr,held⟩ := heap.managed j mem
  refine ⟨_,held,covers_iff.mpr ?_⟩
  rw [addr] at low high
  unfold pageSize at *
  omega

lemma Integrity.findPage_eq (mem : j ∈ h.allbase) (low : (h.pagerefs j).pageaddr ≤ ptr)
    (high : ptr < (h.pagerefs j).pageaddr+pageSize) : findPage h ptr = some j := by
  cases found : findPage h ptr with
  | none =>
    have absent := find?_eq_none.mp found j mem
    simp [low,high] at absent
  | some i =>
    have hit := find?_some found
    have also := mem_of_find?_eq_some found
    simp only [decide_eq_true_eq] at hit
    obtain ⟨b,one,left⟩ := heap.page_of mem low high
    obtain ⟨c,two,right⟩ := heap.page_of also hit.1 hit.2
    have eq := pages.apart _ _ b c _ one two left right
    rw [PageOwner.page.inj eq]

lemma Integrity.findPage_large (at_ : live k = some x) (large : ¬ x.Small) : findPage h x.ptr = none := by
  cases found : findPage h x.ptr with
  | none => rfl
  | some j =>
    have hit := find?_some found
    simp only [decide_eq_true_eq] at hit
    obtain ⟨b,one,left⟩ := heap.page_of (mem_of_find?_eq_some found) hit.1 hit.2
    obtain ⟨page,npages,addr,two⟩ := heap.large k x at_ large
    have pos := (pages.within _ _ two).2.1
    have right : Block.Covers ⟨page,npages⟩ (x.ptr / pageSize) := by
      rw [addr,Nat.mul_div_cancel _ (by decide),covers_iff]
      simp only at pos
      omega
    cases pages.apart _ _ b _ _ one two left right

end

lemma Integrity.relist {pr : Pageref} {live' : Nat → Option Object} (heap : Integrity h live pages)
    (addr : pr.pageaddr = (h.pagerefs j).pageaddr) (type_ : pr.blktype = (h.pagerefs j).blktype) (good : GoodPage pr)
    (lt : ∀ k x, live' k = some x → x.Small → ∃ i ∈ h.allbase, Lies (update h.pagerefs j pr i) x)
    (distinct : ∀ k l x y, live' k = some x → live' l = some y → x.Small → y.Small → x.ptr = y.ptr → k = l)
    (large : ∀ k x, ¬ x.Small → (live' k = some x ↔ live k = some x)) : Integrity (h.setPageref j pr) live' pages := by
  have addresses : ∀ i, (update h.pagerefs j pr i).pageaddr = (h.pagerefs i).pageaddr := by
    intro i
    rcases eq_or_ne i j with rfl | ne
    · rw [update_self,addr]
    · rw [update_of_ne ne]
  have types : ∀ i, (update h.pagerefs j pr i).blktype = (h.pagerefs i).blktype := by
    intro i
    rcases eq_or_ne i j with rfl | ne
    · rw [update_self,type_]
    · rw [update_of_ne ne]
  refine ⟨?_,heap.unmanaged,heap.inuse,heap.bounded,heap.nodup,?_,heap.sizedNodup,?_,lt,distinct,
    fun k x at_ big => heap.large k x ((large k x big).mp at_) big,?_,heap.noSpare⟩
  · intro i member
    simp only [Heap.setPageref,addresses]
    exact heap.managed i member
  · intro t i
    simp only [Heap.setPageref,types]
    exact heap.sized t i
  · intro i member
    rcases eq_or_ne i j with rfl | ne
    · simp only [Heap.setPageref,update_self]
      exact good
    simp only [Heap.setPageref,update_of_ne ne]
    exact heap.good i member
  intro k onlySmall
  apply heap.noLarge k
  intro x at_
  by_contra big
  exact big (onlySmall x ((large k x big).mpr at_))

section
variable (heap : Integrity h live pages)
include heap

lemma Integrity.free_unused (mem : j ∈ h.allbase) (free : offset ∈ (h.pagerefs j).freelist) (at_ : live l = some y)
    (small : y.Small) : y.ptr ≠ (h.pagerefs j).pageaddr+offset := by
  intro eq
  have lt := ((heap.good j mem).slots offset free).1
  obtain ⟨i,also,lies⟩ := heap.small l y at_ small
  have here := heap.findPage_eq also lies.range.1 lies.range.2
  rw [eq,heap.findPage_eq mem (Nat.le_add_right _ _) (Nat.add_lt_add_left lt _)] at here
  cases some.inj here
  obtain ⟨other,place,_,did⟩ := lies
  have same : other = offset := by omega
  exact did (same ▸ free)

lemma doalloc_integrity (mem : j ∈ h.allbase) (new : live k = none) (little : sz < largestSubpageSize)
    (res : doalloc h j = some (after,ptr)) : Integrity after (update live k (some ⟨ptr,sz⟩)) pages ∧ ptr ≠ 0 := by
  unfold doalloc at res
  simp only at res
  split at res
  · cases res
  rename_i offset rest list
  split at res
  · cases some.inj res
    have good := heap.good j mem
    have nodup := good.nodup
    have count := good.count
    rw [list] at nodup count
    have free : offset ∈ (h.pagerefs j).freelist := by rw [list]; exact mem_cons_self
    have slot := good.slots offset free
    obtain ⟨unlisted,rest_nodup⟩ := nodup_cons.mp nodup
    have lies : Lies {h.pagerefs j with freelist := rest,nfree := (h.pagerefs j).nfree-1}
        ⟨(h.pagerefs j).pageaddr+offset,sz⟩ := ⟨offset,rfl,slot,unlisted⟩
    refine ⟨heap.relist rfl rfl ⟨?_,rest_nodup,?_⟩ ?_ ?_ ?_,?_⟩
    · simp only [length_cons] at count
      simp only
      omega
    · intro o also
      exact good.slots o (by rw [list]; exact mem_cons_of_mem _ also)
    · intro l x at_ xSmall
      rcases eq_or_ne l k with rfl | other
      · rw [update_self] at at_
        cases some.inj at_
        exact ⟨j,mem,by rw [update_self]; exact lies⟩
      rw [update_of_ne other] at at_
      obtain ⟨i,also,hit⟩ := heap.small l x at_ xSmall
      refine ⟨i,also,?_⟩
      rcases eq_or_ne i j with rfl | ne
      · rw [update_self]
        obtain ⟨o,place,isSlot,did⟩ := hit
        refine ⟨o,place,isSlot,fun inside => did ?_⟩
        rw [list]
        exact mem_cons_of_mem _ inside
      rw [update_of_ne ne]
      exact hit
    · intro l m x y first second xSmall ySmall eq
      rcases eq_or_ne l k with newFirst | oldFirst <;>
        rcases eq_or_ne m k with newSecond | oldSecond
      · rw [newFirst,newSecond]
      · rw [newFirst,update_self] at first
        rw [update_of_ne oldSecond] at second
        cases some.inj first
        exact absurd eq.symm (heap.free_unused mem free second ySmall)
      · rw [newSecond,update_self] at second
        rw [update_of_ne oldFirst] at first
        cases some.inj second
        exact absurd eq (heap.free_unused mem free first xSmall)
      rw [update_of_ne oldFirst] at first
      rw [update_of_ne oldSecond] at second
      exact heap.distinct l m x y first second xSmall ySmall eq
    · intro l x big
      rcases eq_or_ne l k with rfl | other
      · rw [update_self,new]
        constructor
        · intro eq
          cases some.inj eq
          exact absurd little big
        intro eq
        cases eq
      · rw [update_of_ne other]
    have nz := (heap.managed j mem).1
    omega
  · cases res

lemma allocpageref_unused (unused : allocpageref h = some j) : j < npagerefs ∧ j ∉ h.allbase := by
  refine ⟨mem_range.mp (mem_of_find?_eq_some unused),?_⟩
  have clear := find?_some unused
  simp only [Bool.not_eq_true'] at clear
  rw [←heap.inuse j,clear]
  exact Bool.false_ne_true

lemma enlist_integrity (range : j < npagerefs) (fresh : j ∉ h.allbase) (le : Block.Within ⟨page,1⟩ 0 limit)
    (vacant : ∀ i, Block.Covers ⟨page,1⟩ i → pages.Vacant i) (nz : page*pageSize ≠ 0) (t : Fin nsizes) :
    Integrity (enlist h j t (page*pageSize)) live (pages.add (.page j) ⟨page,1⟩ le vacant) := by
  have old : ∀ {i}, i ∈ h.allbase → i ≠ j := fun mem eq => fresh (eq ▸ mem)
  have rest : ∀ o, o ≠ .page j → (pages.add (.page j) ⟨page,1⟩ le vacant).holds o = pages.holds o :=
    fun o other => update_of_ne other ..
  refine ⟨?_,?_,?_,?_,nodup_cons.mpr ⟨fresh,heap.nodup⟩,?_,?_,?_,?_,heap.distinct,?_,?_,?_⟩
  · intro i mem
    rcases mem_cons.mp mem with rfl | also
    · simp only [enlist,update_self,pageFrame_mul]
      exact ⟨nz,page,rfl,update_self ..⟩
    simp only [enlist,update_of_ne (old also)]
    rw [rest _ (by simpa using old also)]
    exact heap.managed i also
  · intro i out
    obtain ⟨other,absent⟩ := not_or.mp (mem_cons.not.mp out)
    rw [rest _ (by simpa using other)]
    exact heap.unmanaged i absent
  · intro i
    simp only [enlist,mem_cons]
    rcases eq_or_ne i j with rfl | other
    · simp
    rw [update_of_ne other,heap.inuse i]
    simp [other]
  · intro i mem
    rcases mem_cons.mp mem with rfl | also
    · exact range
    · exact heap.bounded i also
  · intro u i
    simp only [enlist,mem_cons]
    rcases eq_or_ne i j with rfl | other
    · rw [update_self]
      rcases eq_or_ne u t with rfl | ne
      · simp
      rw [update_of_ne ne,heap.sized u i]
      simp [fresh,ne.symm]
    rw [update_of_ne other]
    rcases eq_or_ne u t with rfl | ne
    · simp [other,heap.sized]
    rw [update_of_ne ne,heap.sized u i]
    simp [other]
  · intro u
    simp only [enlist]
    rcases eq_or_ne u t with rfl | ne
    · rw [update_self]
      exact nodup_cons.mpr ⟨fun mem => fresh ((heap.sized u j).mp mem).1,heap.sizedNodup u⟩
    rw [update_of_ne ne]
    exact heap.sizedNodup u
  · intro i mem
    rcases mem_cons.mp mem with rfl | also
    · simp only [enlist,update_self]
      exact freshList_good t _
    simp only [enlist,update_of_ne (old also)]
    exact heap.good i also
  · intro k x at_ lt
    obtain ⟨i,also,lies⟩ := heap.small k x at_ lt
    refine ⟨i,mem_cons_of_mem _ also,?_⟩
    simp only [enlist,update_of_ne (old also)]
    exact lies
  · intro k x at_ big
    rw [rest _ (by simp)]
    exact heap.large k x at_ big
  · intro k onlySmall
    rw [rest _ (by simp)]
    exact heap.noLarge k onlySmall
  rw [rest _ (by simp)]
  exact heap.noSpare

end

section
variable (heap : Integrity h live pages)
include heap

lemma Integrity.reticket {live' : Nat → Option Object} {pages' : Pages PageOwner}
    (rest : ∀ o ≠ .large k, pages'.holds o = pages.holds o) (tickets : ∀ l ≠ k, live' l = live l)
    (notSmall : ∀ x, live' k = some x → ¬ x.Small)
    (large : ∀ x, live' k = some x → ∃ page npages, x.ptr = page*pageSize ∧
      pages'.holds (.large k) = some ⟨page,npages⟩)
    (none_ : live' k = none → pages'.holds (.large k) = none) : Integrity h live' pages' := by
  have older : ∀ l x, live' l = some x → x.Small → live l = some x := by
    intro l x at_ small
    rcases eq_or_ne l k with rfl | ne
    · exact absurd small (notSmall x at_)
    · rwa [tickets l ne] at at_
  refine ⟨?_,?_,heap.inuse,heap.bounded,heap.nodup,heap.sized,heap.sizedNodup,heap.good,?_,?_,?_,?_,?_⟩
  · intro j member
    rw [rest _ (by simp)]
    exact heap.managed j member
  · intro j absent
    rw [rest _ (by simp)]
    exact heap.unmanaged j absent
  · intro l x at_ small
    exact heap.small l x (older l x at_ small) small
  · intro l m x y first second xSmall ySmall
    exact heap.distinct l m x y (older l x first xSmall) (older m y second ySmall) xSmall ySmall
  · intro l x at_ big
    rcases eq_or_ne l k with rfl | ne
    · exact large x at_
    rw [tickets l ne] at at_
    rw [rest _ (by simpa using ne)]
    exact heap.large l x at_ big
  · intro l onlySmall
    rcases eq_or_ne l k with rfl | ne
    · apply none_
      cases at_ : live' l with
      | none => rfl
      | some x => exact absurd (onlySmall x at_) (notSmall x at_)
    rw [tickets l ne] at onlySmall
    rw [rest _ (by simpa using ne)]
    exact heap.noLarge l onlySmall
  rw [rest _ (by simp)]
  exact heap.noSpare

lemma large_integrity (big : largestSubpageSize ≤ sz)
    (le : Block.Within ⟨page,npages⟩ 0 limit) (vacant : ∀ i, Block.Covers ⟨page,npages⟩ i → pages.Vacant i) :
    Integrity h (update live k (some ⟨page*pageSize,sz⟩)) (pages.add (.large k) ⟨page,npages⟩ le vacant) := by
  have new : ∀ x, update live k (some ⟨page*pageSize,sz⟩) k = some x → ⟨page*pageSize,sz⟩ = x := by
    intro x at_
    rw [update_self] at at_
    exact some.inj at_
  refine heap.reticket (fun o other => update_of_ne other ..) (fun l other => update_of_ne other ..) ?_ ?_ ?_
  · intro x at_
    rw [←new x at_]
    exact not_lt.mpr big
  · intro x at_
    rw [←new x at_]
    exact ⟨page,npages,rfl,update_self ..⟩
  intro at_
  rw [update_self] at at_
  cases at_

lemma freeLarge_integrity : Integrity h (update live k none) (pages.remove (.large k)) := by
  have gone : ∀ x, update live k none k ≠ some x := by simp
  exact heap.reticket (fun o other => update_of_ne other ..) (fun l other => update_of_ne other ..)
    (fun x at_ => absurd at_ (gone x)) (fun x at_ => absurd at_ (gone x)) (fun _ => update_self ..)

end

lemma live_left (at_ : update live k none l = some x) : l ≠ k ∧ live l = some x := by
  rcases eq_or_ne l k with rfl | ne
  · rw [update_self] at at_
    cases at_
  rw [update_of_ne ne] at at_
  exact ⟨ne,at_⟩

def pushed (pr : Pageref) (offset : Nat) : Pageref :=
  {pr with freelist := offset :: pr.freelist,nfree := pr.nfree+1}

lemma pushed_good (good : GoodPage pr) (slot : Slot pr.blktype offset)
    (did : offset ∉ pr.freelist) : GoodPage (pushed pr offset) := by
  refine ⟨?_,nodup_cons.mpr ⟨did,good.nodup⟩,?_⟩
  · simp only [pushed,length_cons,good.count]
  intro o member
  rcases mem_cons.mp member with rfl | old
  · exact slot
  · exact good.slots o old

lemma pushed_room (good : GoodPage (pushed pr offset)) : (pushed pr offset).nfree ≤ capacity pr.blktype := by
  have le : (pushed pr offset).freelist.toFinset ⊆ (Finset.range (capacity pr.blktype)).image (·*sizes pr.blktype) := by
    intro o mem
    obtain ⟨i,lt,rfl⟩ := slot_iff.mp (good.slots o (mem_toFinset.mp mem))
    exact Finset.mem_image.mpr ⟨i,Finset.mem_range.mpr lt,rfl⟩
  have bound := le_trans (Finset.card_le_card le) Finset.card_image_le
  rwa [toFinset_card_of_nodup good.nodup,←good.count,Finset.card_range] at bound

section
variable (heap : Integrity h live pages)
include heap

lemma Integrity.lies_pushed (at_ : live k = some x) (small : x.Small) (place : x.ptr = (h.pagerefs j).pageaddr+offset)
    (ne : l ≠ k) (also : live l = some y) (ySmall : y.Small) (lies : Lies (h.pagerefs j) y) :
    Lies (pushed (h.pagerefs j) offset) y := by
  obtain ⟨o,hit,slot,did⟩ := lies
  refine ⟨o,hit,slot,fun mem => ?_⟩
  rcases mem_cons.mp mem with rfl | free
  · exact ne (heap.distinct l k y x also at_ ySmall small (hit.trans place.symm))
  · exact did free

lemma push_integrity (at_ : live k = some x) (small : x.Small)
    (mem : j ∈ h.allbase) (place : x.ptr = (h.pagerefs j).pageaddr+offset)
    (slot : Slot (h.pagerefs j).blktype offset) (did : offset ∉ (h.pagerefs j).freelist) :
    Integrity (h.setPageref j (pushed (h.pagerefs j) offset)) (update live k none) pages := by
  refine heap.relist rfl rfl (pushed_good (heap.good j mem) slot did) ?_ ?_ ?_
  · intro l y at' ySmall
    obtain ⟨other,old⟩ := live_left at'
    obtain ⟨i,also,lies⟩ := heap.small l y old ySmall
    refine ⟨i,also,?_⟩
    rcases eq_or_ne i j with rfl | ne
    · rw [update_self]
      exact heap.lies_pushed at_ small place other old ySmall lies
    · rwa [update_of_ne ne]
  · intro l m y z first second
    exact heap.distinct l m y z (live_left first).2 (live_left second).2
  intro l y big
  rcases eq_or_ne l k with rfl | other
  · rw [update_self,at_]
    constructor
    · intro eq
      cases eq
    intro eq
    cases some.inj eq
    exact absurd small big
  · rw [update_of_ne other]

section
variable (mem : j ∈ h.allbase)
include mem

lemma full_unused (full : (h.pagerefs j).nfree = capacity (h.pagerefs j).blktype) : ¬ Lies (h.pagerefs j) x := by
  rintro ⟨offset,_,slot,did⟩
  have good := heap.good j mem
  exact did (slots_full good.nodup good.slots (by rw [←good.count,full]) slot)

lemma unlist_integrity (full : (h.pagerefs j).nfree = capacity (h.pagerefs j).blktype) :
    ∃ after, freepageref (removeLists h j (h.pagerefs j).blktype) j = some after ∧
      Integrity after live (pages.remove (.page j)) := by
  have used := (heap.inuse j).mpr mem
  have rest : ∀ o ≠ .page j, (pages.remove (.page j)).holds o = pages.holds o := fun o other => update_of_ne other ..
  have left : ∀ {i}, i ∈ h.allbase.erase j ↔ i ≠ j ∧ i ∈ h.allbase := heap.nodup.mem_erase_iff
  refine ⟨_,if_pos ⟨heap.bounded j mem,used⟩,?_⟩
  refine ⟨?_,?_,?_,?_,heap.nodup.erase j,?_,?_,?_,?_,heap.distinct,?_,?_,?_⟩
  · intro i kept
    obtain ⟨other,also⟩ := left.mp kept
    rw [rest _ (by simpa using other)]
    exact heap.managed i also
  · intro i gone
    rcases eq_or_ne i j with rfl | other
    · exact update_self ..
    rw [rest _ (by simpa using other)]
    exact heap.unmanaged i fun also => gone (left.mpr ⟨other,also⟩)
  · intro i
    simp only [removeLists]
    rw [left]
    rcases eq_or_ne i j with rfl | other
    · simp
    rw [update_of_ne other,heap.inuse i]
    simp [other]
  · intro i kept
    exact heap.bounded i (left.mp kept).2
  · intro t i
    simp only [removeLists]
    rw [left]
    rcases eq_or_ne t (h.pagerefs j).blktype with rfl | ne
    · rw [update_self,(heap.sizedNodup _).mem_erase_iff,heap.sized,and_assoc]
    rw [update_of_ne ne,heap.sized]
    constructor
    · rintro ⟨also,type_⟩
      refine ⟨⟨?_,also⟩,type_⟩
      rintro rfl
      exact ne type_.symm
    rintro ⟨⟨_,also⟩,type_⟩
    exact ⟨also,type_⟩
  · intro t
    simp only [removeLists]
    rcases eq_or_ne t (h.pagerefs j).blktype with rfl | ne
    · rw [update_self]
      exact (heap.sizedNodup _).erase j
    rw [update_of_ne ne]
    exact heap.sizedNodup t
  · intro i kept
    exact heap.good i (left.mp kept).2
  · intro k x at_ lt
    obtain ⟨i,also,lies⟩ := heap.small k x at_ lt
    refine ⟨i,left.mpr ⟨?_,also⟩,lies⟩
    rintro rfl
    exact full_unused heap mem full lies
  · intro k x at_ big
    rw [rest _ (by simp)]
    exact heap.large k x at_ big
  · intro k onlySmall
    rw [rest _ (by simp)]
    exact heap.noLarge k onlySmall
  rw [rest _ (by simp)]
  exact heap.noSpare

lemma releases_small (slot : Slot (h.pagerefs j).blktype offset)
    (did : offset ∉ (h.pagerefs j).freelist) : releases h ((h.pagerefs j).pageaddr+offset) =
      if (pushed (h.pagerefs j) offset).nfree = capacity (h.pagerefs j).blktype then
        (freepageref (removeLists (h.setPageref j (pushed (h.pagerefs j) offset)) j
          (h.pagerefs j).blktype) j).map fun h' => (h',some (h.pagerefs j).pageaddr)
      else some (h.setPageref j (pushed (h.pagerefs j) offset),none) := by
  have hit := heap.findPage_eq mem (Nat.le_add_right _ offset) (Nat.add_lt_add_left slot.1 _)
  have aligned : offset % sizes (h.pagerefs j).blktype = 0 := Nat.mod_eq_zero_of_dvd slot.2
  have room := pushed_room (pushed_good (heap.good j mem) slot did)
  simp only [releases,hit,subpageKfree,Nat.add_sub_cancel_left,aligned,ne_eq,not_true_eq_false,if_false]
  exact if_neg (not_lt.mpr room)

end

lemma releases_integrity (at_ : live k = some x) : ∃ after,
      (releases h x.ptr = some (after,none) ∧ Integrity after (update live k none) pages) ∨
      ∃ page npages o, releases h x.ptr = some (after,some (page*pageSize)) ∧ pages.holds o = some ⟨page,npages⟩ ∧
        Integrity after (update live k none) (pages.remove o) := by
  by_cases lt : x.Small
  · obtain ⟨j,mem,lies⟩ := heap.small k x at_ lt
    obtain ⟨offset,place,slot,did⟩ := lies
    have pushedHeap := push_integrity heap at_ lt mem place slot did
    have eq : (h.setPageref j (pushed (h.pagerefs j) offset)).pagerefs j =
        pushed (h.pagerefs j) offset := update_self ..
    rw [place,releases_small heap mem slot did]
    by_cases full : (pushed (h.pagerefs j) offset).nfree = capacity (h.pagerefs j).blktype
    · obtain ⟨after,freed,unlisted⟩ := unlist_integrity pushedHeap mem (by rw [eq]; exact full)
      rw [eq] at freed
      obtain ⟨_,page,addr,held⟩ := heap.managed j mem
      refine ⟨after,.inr ⟨page,1,.page j,?_,held,unlisted⟩⟩
      rw [if_pos full,←addr]
      exact congrArg (Option.map _) freed
    · exact ⟨_,.inl ⟨if_neg full,pushedHeap⟩⟩
  obtain ⟨page,npages,addr,held⟩ := heap.large k x at_ lt
  refine ⟨h,.inr ⟨page,npages,.large k,?_,held,freeLarge_integrity heap⟩⟩
  rw [releases,heap.findPage_large at_ lt,addr]
  exact if_pos (mul_mod_left _ _)

end

end
end ToyOS.Kmalloc

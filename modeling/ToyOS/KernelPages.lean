import ToyOS.Coremap

namespace ToyOS.KernelPages
open Function UserSpace BlockStore Coremap Option Nat

-- Pages come from ram_stealmem until vm_bootstrap, then from the coremap.
inductive Phase where
  | early (ram : Ram)
  | booted (ram : Ram) (coremap : Entries)

-- History: `stolen`, what alloc_kpages returned before vm_bootstrap, and `heads`, the length of the block that
-- coremap_alloc returned at each frame, until it is released.
structure Vm where
  phase : Phase
  stolen : List Nat
  heads : Nat → Option Nat

def ramStealmem (ram : Ram) (npages : Nat) : Ram × Nat :=
  let top := wrap (ram.firstaddr+wrap (npages*pageSize))
  if fits : top ≤ ram.lastaddr then ({ram with firstaddr := top,ordered := fits},ram.firstaddr)
  else (ram,0)

def getppages (vm : Vm) (npages : Nat) : Vm × Nat :=
  match vm.phase with
  | .early ram => match ramStealmem ram npages with
      | (left,pa) => ({vm with
          phase := .early left
          stolen := if pa = 0 then vm.stolen else paddrToKvaddr pa :: vm.stolen},pa)
  | .booted ram coremap => match coremapAlloc ram coremap npages with
      | (coremap,pa) => ({vm with
          phase := .booted ram coremap
          heads := if pa = 0 then vm.heads else update vm.heads (ram.index pa) (some npages)},pa)

def Vm.allocKpages (vm : Vm) (npages : Nat) : Vm × Nat :=
  match getppages vm npages with
  | (vm,pa) => (vm,if pa = 0 then 0 else paddrToKvaddr pa)

def Vm.freeKpages (vm : Vm) (addr : Nat) : Option Vm :=
  match vm.phase with
  | .early _ => none
  | .booted ram coremap => (Coremap.freeKpages ram coremap addr).map fun coremap => {vm with
      phase := .booted ram coremap
      heads := update vm.heads (ram.index (kvaddrToPaddr addr)) none}

def Vm.bootstrap (vm : Vm) : Option Vm :=
  match vm.phase with
  | .early ram => some {vm with phase := .booted ram (vmBootstrap ram)}
  | .booted _ _ => none

-- start.S rounds firstfree up to a page past the exception handlers.
structure Aligned (ram : Ram) : Prop where
  installed : ram.Installed
  whole : ram.firstaddr % pageSize = 0
  positive : 0 < ram.firstaddr

def limit : Nat := 2^20

-- The pages in use, by their number in the kernel's address space.
abbrev Pages (Owner : Type) := Store Owner 0 limit

def firstPage (ram : Ram) : Nat := (mipsKseg0+ram.firstaddr) / pageSize

structure Managed {Owner : Type} (ram : Ram) (coremap : Entries) (vm : Vm) (pages : Pages Owner)
    (store : ram.Blocks Owner) : Prop where
  represents : Represents ram coremap store
  held : ∀ o b, store.holds o = some b → pages.holds o = some ⟨firstPage ram+b.start,b.length⟩
  heads : ∀ o b, store.holds o = some b → vm.heads b.start = some b.length
  late : ∀ o b, pages.holds o = some b → firstPage ram ≤ b.start →
    store.holds o = some ⟨b.start-firstPage ram,b.length⟩
  early : ∀ o b, pages.holds o = some b → b.start < firstPage ram →
    b.start+b.length ≤ firstPage ram ∧ b.start*pageSize ∈ vm.stolen

def Backed {Owner : Type} (vm : Vm) (pages : Pages Owner) : Prop :=
  match vm.phase with
  | .early ram => Aligned ram ∧ ∀ o b, pages.holds o = some b →
      b.start+b.length ≤ firstPage ram ∧ b.start*pageSize ∈ vm.stolen
  | .booted ram coremap => Aligned ram ∧ ∃ store, Managed ram coremap vm pages store

section
variable {Owner : Type} {ram : Ram} {pages : Pages Owner} {vm after : Vm}

lemma backed_early (phase : vm.phase = .early ram) : Backed vm pages ↔ Aligned ram ∧ ∀ o b, pages.holds o = some b →
      b.start+b.length ≤ firstPage ram ∧ b.start*pageSize ∈ vm.stolen := by
  rw [Backed,phase]

lemma backed_booted (phase : vm.phase = .booted ram coremap) : Backed vm pages ↔
    Aligned ram ∧ ∃ store, Managed ram coremap vm pages store := by
  rw [Backed,phase]

lemma paddrToKvaddr_eq (lt : pa ≤ 508*1024*1024) : paddrToKvaddr pa = mipsKseg0+pa := by
  unfold paddrToKvaddr wrap mipsKseg0
  omega

lemma firstPage_mul (aligned : Aligned ram) : firstPage ram*pageSize = mipsKseg0+ram.firstaddr := by
  have whole := aligned.whole
  unfold firstPage mipsKseg0
  unfold pageSize at *
  omega

lemma kvaddr_frame (aligned : Aligned ram) (inside : start < ram.numOfPages) :
    paddrToKvaddr (ram.frame start) = (firstPage ram+start)*pageSize := by
  have last := ram.numOfPages_bound
  have inst : ram.lastaddr ≤ 508*1024*1024 := aligned.installed
  have lt := mul_lt_mul_of_pos_right inside (by decide : 0 < pageSize)
  rw [ram.frame_eq inside,paddrToKvaddr_eq (by omega),add_mul,firstPage_mul aligned]
  omega

lemma firstPage_limit (aligned : Aligned ram) (inside : start ≤ ram.numOfPages) : firstPage ram+start ≤ limit := by
  have last := ram.numOfPages_bound
  have inst : ram.lastaddr ≤ 508*1024*1024 := aligned.installed
  have product := firstPage_mul aligned
  have lt := mul_le_mul_right pageSize inside
  unfold limit
  unfold mipsKseg0 pageSize at *
  omega

lemma backed_bootstrap (backed : Backed vm pages) (booted : vm.bootstrap = some after) : Backed after pages := by
  cases phase : vm.phase with
  | booted ram coremap => rw [Vm.bootstrap,phase] at booted; cases booted
  | early ram =>
    rw [Vm.bootstrap,phase] at booted
    cases some.inj booted
    obtain ⟨aligned,lt⟩ := (backed_early phase).mp backed
    refine (backed_booted rfl).mpr ⟨aligned,.empty,vmBootstrap_represents ram,?_,?_,?_,?_⟩
    · intro o b no
      cases no
    · intro o b no
      cases no
    · intro o b held late
      have stop := (lt o b held).1
      have pos := (pages.within o b held).2.1
      omega
    intro o b held _
    exact lt o b held

lemma backed_late (phase : vm.phase = .booted ram coremap) (backed : Backed vm pages)
    (held : pages.holds o = some ⟨page,npages⟩) (kept : page*pageSize ∉ vm.stolen) : firstPage ram ≤ page := by
  obtain ⟨_,store,managed⟩ := (backed_booted phase).mp backed
  by_contra before
  exact kept (managed.early o _ held (not_le.mp before)).2

variable [DecidableEq Owner]

def Granted (vm : Vm) (pages : Pages Owner) (o : Owner) (npages addr : Nat) : Prop :=
  ∃ page, (addr = page*pageSize ∧ addr ≠ 0) ∧
    (∀ ram coremap, vm.phase = .booted ram coremap → firstPage ram ≤ page) ∧
    ∃ within : Block.Within ⟨page,npages⟩ 0 limit,
    ∃ vacant : ∀ i, Block.Covers ⟨page,npages⟩ i → pages.Vacant i,
      Backed vm (pages.add o ⟨page,npages⟩ within vacant)

lemma ramStealmem_cases (aligned : Aligned ram) (lt : npages ≤ 2^19) (res : ramStealmem ram npages = (left,pa)) :
    (pa = 0 ∧ left = ram) ∨ pa = ram.firstaddr ∧ Aligned left ∧ firstPage left = firstPage ram+npages := by
  have whole := aligned.whole
  have inst : ram.lastaddr ≤ 508*1024*1024 := aligned.installed
  have ordered := ram.ordered
  have pos := aligned.positive
  have exact_ : wrap (ram.firstaddr+wrap (npages*pageSize)) = ram.firstaddr+npages*pageSize := by
    unfold wrap pageSize
    omega
  unfold ramStealmem at res
  simp only at res
  split at res
  · rename_i fits
    cases res
    refine .inr ⟨rfl,⟨inst,?_,?_⟩,?_⟩
    · simp only [exact_]
      unfold pageSize at *
      omega
    · simp only [exact_]
      omega
    simp only [firstPage,exact_]
    unfold mipsKseg0
    unfold pageSize at *
    omega
  cases res
  exact .inl ⟨rfl,rfl⟩

lemma early_granted (phase : vm.phase = .early ram) (backed : Backed vm pages) (pos : 0 < npages)
    (small : npages ≤ 2^19) (res : vm.allocKpages npages = (after,addr)) :
    (addr = 0 ∧ Backed after pages) ∨ Granted after pages o npages addr := by
  obtain ⟨aligned,lt⟩ := (backed_early phase).mp backed
  have inst : ram.lastaddr ≤ 508*1024*1024 := aligned.installed
  have ordered := ram.ordered
  have some_ := aligned.positive
  cases stolen : ramStealmem ram npages with
  | mk left pa =>
    simp only [Vm.allocKpages,getppages,phase,stolen] at res
    cases res
    rcases ramStealmem_cases aligned small stolen with ⟨rfl,rfl⟩ | ⟨rfl,alignedLeft,moved⟩
    · exact .inl ⟨rfl,(backed_early rfl).mpr ⟨aligned,lt⟩⟩
    have nz : ram.firstaddr ≠ 0 := by omega
    have address : paddrToKvaddr ram.firstaddr = firstPage ram*pageSize := by
      rw [paddrToKvaddr_eq (by omega),firstPage_mul aligned]
    have inRange := firstPage_limit alignedLeft (zero_le _)
    rw [if_neg nz,if_neg nz]
    have le : Block.Within ⟨firstPage ram,npages⟩ 0 limit := within_iff.mpr ⟨zero_le _,pos,by omega⟩
    have vacant : ∀ i, Block.Covers ⟨firstPage ram,npages⟩ i → pages.Vacant i := by
      intro i covers p b held taken
      have stop := (lt p b held).1
      have pre := taken.2
      have behind := (covers_iff.mp covers).1
      omega
    refine .inr ⟨firstPage ram,⟨address,?_⟩,?_,le,vacant,(backed_early rfl).mpr ⟨alignedLeft,?_⟩⟩
    · rw [address,firstPage_mul aligned]
      unfold mipsKseg0
      omega
    · intro ne entries no
      cases no
    intro p b held
    rcases Store.add_cases held with ⟨_,rfl⟩ | ⟨_,old⟩
    · exact ⟨le_of_eq moved.symm,address ▸ List.mem_cons_self⟩
    obtain ⟨stop,mem⟩ := lt p b old
    exact ⟨by omega,List.mem_cons_of_mem _ mem⟩

lemma booted_granted (phase : vm.phase = .booted ram coremap) (backed : Backed vm pages)
    (fresh : pages.holds o = none) (res : vm.allocKpages npages = (after,addr)) :
    (addr = 0 ∧ Backed after pages) ∨ Granted after pages o npages addr := by
  obtain ⟨aligned,store,managed⟩ := (backed_booted phase).mp backed
  have freshStore : store.holds o = none := by
    cases held : store.holds o with
    | none => rfl
    | some b => exact absurd (fresh.symm.trans (managed.held o b held)) (by simp)
  cases hit : coremapAlloc ram coremap npages with
  | mk filled pa =>
    simp only [Vm.allocKpages,getppages,phase,hit] at res
    cases res
    rcases coremapAlloc_cases managed.represents freshStore hit with
      ⟨rfl,rfl⟩ | ⟨start,le,vacant,rfl,added⟩
    · exact .inl ⟨rfl,(backed_booted rfl).mpr ⟨aligned,store,managed.represents,managed.held,
        managed.heads,managed.late,managed.early⟩⟩
    obtain ⟨above,pos,last⟩ := within_iff.mp le
    have lt : start < ram.numOfPages := by omega
    have nz := ram.frame_ne_zero above lt
    have inRange := firstPage_limit aligned last
    simp only [if_neg nz]
    have wide : Block.Within ⟨firstPage ram+start,npages⟩ 0 limit := within_iff.mpr ⟨Nat.zero_le _,pos,by omega⟩
    have clear : ∀ i, Block.Covers ⟨firstPage ram+start,npages⟩ i → pages.Vacant i := by
      intro i covers p b held taken
      have one := (covers_iff.mp covers).1
      have final := (covers_iff.mp covers).2
      have low := taken.1
      have high := taken.2
      rcases Nat.lt_or_ge b.start (firstPage ram) with pre | behind
      · have stop := (managed.early p b held pre).1
        omega
      exact vacant (i-firstPage ram) (covers_iff.mpr (by omega)) p _
        (managed.late p b held behind) (covers_iff.mpr (by omega))
    refine .inr ⟨firstPage ram+start,⟨kvaddr_frame aligned lt,
      ram.kvaddr_ne_zero aligned.installed lt⟩,?_,wide,clear,
      (backed_booted rfl).mpr ⟨aligned,_,added,?_,?_,?_,?_⟩⟩
    · intro other entries same
      cases same
      exact Nat.le_add_right _ _
    · intro p b held
      rcases Store.add_cases held with ⟨rfl,rfl⟩ | ⟨other,old⟩
      · exact update_self ..
      · exact (update_of_ne other ..).trans (managed.held p b old)
    · intro p b held
      simp only [ram.index_frame lt]
      rcases Store.add_cases held with ⟨rfl,rfl⟩ | ⟨other,old⟩
      · exact update_self ..
      have ne : b.start ≠ start := by
        intro eq
        have one := (store.within p b old).covers_start
        exact vacant b.start (covers_iff.mpr (by omega)) p b old one
      rw [update_of_ne ne]
      exact managed.heads p b old
    · intro p b held late
      rcases Store.add_cases held with ⟨rfl,rfl⟩ | ⟨other,old⟩
      · rw [Store.add_holds,update_self,Nat.add_sub_cancel_left]
      · exact (update_of_ne other ..).trans (managed.late p b old late)
    intro p b held pre
    rcases Store.add_cases held with ⟨rfl,rfl⟩ | ⟨other,old⟩
    · exact absurd pre (not_lt.mpr (Nat.le_add_right _ _))
    · exact managed.early p b old pre

lemma allocKpages_granted (backed : Backed vm pages) (fresh : pages.holds o = none)
    (lt : ∀ ram, vm.phase = .early ram → 0 < npages ∧ npages ≤ 2^19) (res : vm.allocKpages npages = (after,addr)) :
    (addr = 0 ∧ Backed after pages) ∨ Granted after pages o npages addr := by
  cases phase : vm.phase with
  | early ram =>
    obtain ⟨pos,bounded⟩ := lt ram phase
    exact early_granted phase backed pos bounded res
  | booted ram coremap => exact booted_granted phase backed fresh res

lemma freeKpages_backed (phase : vm.phase = .booted ram coremap) (backed : Backed vm pages)
    (held : pages.holds o = some ⟨page,npages⟩) (late : firstPage ram ≤ page) :
    (ram.index (kvaddrToPaddr (page*pageSize)) < ram.numOfPages ∧
      vm.heads (ram.index (kvaddrToPaddr (page*pageSize))) = some npages) ∧
    ∃ after, vm.freeKpages (page*pageSize) = some after ∧ Backed after (pages.remove o) := by
  obtain ⟨aligned,store,managed⟩ := (backed_booted phase).mp backed
  have stored := managed.late o _ held late
  simp only at stored
  obtain ⟨above,pos,last⟩ := within_iff.mp (store.within o _ stored)
  have lt : page-firstPage ram < ram.numOfPages := by omega
  have index : ram.index (kvaddrToPaddr (page*pageSize)) = page-firstPage ram := by
    have addr := kvaddr_frame aligned lt
    rw [Nat.add_sub_cancel' late] at addr
    rw [←addr,ram.index_kvaddr,ram.index_frame lt]
  have head : vm.heads (page-firstPage ram) = some npages := managed.heads o _ stored
  obtain ⟨final,freed,rep⟩ := freeKpages_held managed.represents stored index
  refine ⟨by rw [index]; exact ⟨lt,head⟩,{vm with
    phase := .booted ram final
    heads := update vm.heads (ram.index (kvaddrToPaddr (page*pageSize))) none},?_,
    (backed_booted rfl).mpr ⟨aligned,_,rep,?_,?_,?_,?_⟩⟩
  · rw [Vm.freeKpages,phase]
    simp only [freed,Option.map_some]
  · intro p b left
    obtain ⟨other,old⟩ := Store.remove_cases left
    exact (update_of_ne other ..).trans (managed.held p b old)
  · intro p b left
    obtain ⟨old,sep⟩ := remove_separate stored left
    have ne : b.start ≠ page-firstPage ram := by
      intro eq
      exact sep b.start (store.within p b old).covers_start (covers_iff.mpr (by omega))
    simp only
    rw [index,update_of_ne ne]
    exact managed.heads p b old
  · intro p b left behind
    obtain ⟨other,old⟩ := Store.remove_cases left
    exact (update_of_ne other ..).trans (managed.late p b old behind)
  intro p b left before
  exact managed.early p b (Store.remove_cases left).2 before

end

def Phase.ram : Phase → Ram
  | .early ram => ram
  | .booted ram _ => ram

def StolenBelow (vm : Vm) : Prop :=
  ∀ addr ∈ vm.stolen, mipsKseg0 ≤ addr ∧ addr < mipsKseg0+vm.phase.ram.firstaddr

lemma allocKpages_stolen {Owner : Type} {vm after : Vm} {pages : Pages Owner} (backed : Backed vm pages)
    (lt : StolenBelow vm) (small : ∀ ram, vm.phase = .early ram → 0 < npages ∧ npages ≤ 2^19)
    (res : vm.allocKpages npages = (after,addr)) : StolenBelow after := by
  cases phase : vm.phase with
  | booted ram coremap =>
    simp only [Vm.allocKpages,getppages,phase] at res
    cases res
    simpa [StolenBelow,phase,Phase.ram] using lt
  | early ram =>
    obtain ⟨pos,bounded⟩ := small ram phase
    have aligned := ((backed_early phase).mp backed).1
    have inst : ram.lastaddr ≤ 508*1024*1024 := aligned.installed
    have ordered := ram.ordered
    have old : ∀ addr ∈ vm.stolen, mipsKseg0 ≤ addr ∧ addr < mipsKseg0+ram.firstaddr := by
      simpa [StolenBelow,phase,Phase.ram] using lt
    cases stolen : ramStealmem ram npages with
    | mk left pa =>
      simp only [Vm.allocKpages,getppages,phase,stolen] at res
      cases res
      rcases ramStealmem_cases aligned bounded stolen with ⟨rfl,rfl⟩ | ⟨rfl,alignedLeft,moved⟩
      · exact old
      have one := firstPage_mul aligned
      have two := firstPage_mul alignedLeft
      have grown : ram.firstaddr < left.firstaddr := by
        rw [moved,add_mul] at two
        have more := mul_lt_mul_of_pos_right pos (by decide : 0 < pageSize)
        omega
      have nz : ram.firstaddr ≠ 0 := pos_iff_ne_zero.mp aligned.positive
      intro addr member
      simp only [if_neg nz] at member
      simp only [Phase.ram]
      rcases List.mem_cons.mp member with rfl | earlier
      · rw [paddrToKvaddr_eq (by omega)]
        omega
      have := old addr earlier
      omega

lemma bootstrap_stolen (lt : StolenBelow vm) (booted : vm.bootstrap = some after) : StolenBelow after := by
  cases phase : vm.phase with
  | booted ram coremap => rw [Vm.bootstrap,phase] at booted; cases booted
  | early ram =>
    rw [Vm.bootstrap,phase] at booted
    cases some.inj booted
    simpa [StolenBelow,phase,Phase.ram] using lt

lemma freeKpages_stolen (lt : StolenBelow vm) (freed : vm.freeKpages addr = some after) : StolenBelow after := by
  cases phase : vm.phase with
  | early ram => rw [Vm.freeKpages,phase] at freed; cases freed
  | booted ram coremap =>
    rw [Vm.freeKpages,phase] at freed
    obtain ⟨entries,_,rfl⟩ := map_eq_some_iff.mp freed
    simpa [StolenBelow,phase,Phase.ram] using lt

lemma stolen_index (aligned : Aligned ram) (low : mipsKseg0 ≤ addr)
    (high : addr < mipsKseg0+ram.firstaddr) : ram.numOfPages ≤ ram.index (kvaddrToPaddr addr) := by
  have inst : ram.lastaddr ≤ 508*1024*1024 := aligned.installed
  have last := ram.numOfPages_bound
  have ordered := ram.ordered
  unfold Ram.index
  rw [le_div_iff_mul_le (by decide)]
  unfold kvaddrToPaddr sub32 wrap mipsKseg0 at *
  omega
end ToyOS.KernelPages

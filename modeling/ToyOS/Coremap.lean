import ToyOS.Library.BlockStore
import ToyOS.Library.Transition
import ToyOS.UserSpace

namespace ToyOS.Coremap
open Function UserSpace BlockStore Option Nat

-- The physical memory that ram_getsize reports to vm_bootstrap.
structure Ram where
  firstaddr : Nat
  lastaddr : Nat
  ordered : firstaddr ≤ lastaddr
  bounded : lastaddr < 2^32

def divroundup (a b : Nat) : Nat := (a+b-1) / b
def roundup (a b : Nat) : Nat := divroundup a b*b
def sizeofCoremapEntry : Nat := 8
def Ram.numOfPages (r : Ram) : Nat := (r.lastaddr-r.firstaddr) / pageSize

def Ram.numOfCoremapPages (r : Ram) : Nat :=
  roundup (r.numOfPages*sizeofCoremapEntry) pageSize / pageSize

-- used is only ever 0 or 1.
structure CoremapEntry where
  used : Bool
  count : Nat
  deriving DecidableEq

abbrev Entries := Nat → CoremapEntry
def free : CoremapEntry := ⟨false,0⟩
def vmBootstrap (r : Ram) : Entries := fun i => if i < r.numOfCoremapPages then ⟨true,1⟩ else free

def sub32 (a b : Nat) : Nat := wrap (2^32-b+a)
def Ram.frame (r : Ram) (start : Nat) : Nat := wrap (r.firstaddr+start*pageSize)
def Ram.index (r : Ram) (pa : Nat) : Nat := sub32 pa r.firstaddr / pageSize

def coremapAlloc (r : Ram) (coremap : Entries) (npages : Nat) : Entries × Nat :=
  match firstFit (fun i => !(coremap i).used) npages (r.numOfPages-r.numOfCoremapPages)
      r.numOfCoremapPages 0 with
  | none => (coremap,0)
  | some start =>
    (fill (update coremap start ⟨true,npages⟩) ⟨true,1⟩ (start+1) (npages-1),r.frame start)

def coremapDealloc (r : Ram) (coremap : Entries) (pa : Nat) : Option Entries :=
  let start := r.index pa
  if start < r.numOfPages ∧ start+(coremap start).count ≤ r.numOfPages then
    some (fill coremap free start (coremap start).count)
  else none

def mipsKseg0 : Nat := 0x80000000
def paddrToKvaddr (pa : Nat) : Nat := wrap (mipsKseg0+pa)
def kvaddrToPaddr (addr : Nat) : Nat := sub32 addr mipsKseg0

def allocKpages (r : Ram) (coremap : Entries) (npages : Nat) : Entries × Nat :=
  match coremapAlloc r coremap npages with
  | (coremap,pa) => (coremap,if pa = 0 then 0 else paddrToKvaddr pa)

def freeKpages (r : Ram) (coremap : Entries) (addr : Nat) : Option Entries :=
  coremapDealloc r coremap (kvaddrToPaddr addr)

def Ram.Installed (r : Ram) : Prop := r.lastaddr ≤ 508*1024*1024

section
variable (r : Ram)
include r

lemma Ram.index_kvaddr (pa : Nat) : r.index (kvaddrToPaddr (paddrToKvaddr pa)) = r.index pa := by
  have ordered := r.ordered
  have bounded := r.bounded
  have eq : sub32 (kvaddrToPaddr (paddrToKvaddr pa)) r.firstaddr = sub32 pa r.firstaddr := by
    unfold kvaddrToPaddr paddrToKvaddr sub32 wrap mipsKseg0
    omega
  rw [Ram.index,eq,Ram.index]

lemma Ram.numOfPages_bound : r.firstaddr+r.numOfPages*pageSize ≤ r.lastaddr := by
  have ordered := r.ordered
  have product := div_mul_le_self (r.lastaddr-r.firstaddr) pageSize
  unfold Ram.numOfPages
  omega

lemma Ram.numOfCoremapPages_eq : r.numOfCoremapPages = (r.numOfPages*8+4095) / 4096 := by
  unfold Ram.numOfCoremapPages roundup divroundup sizeofCoremapEntry pageSize
  rw [Nat.mul_div_cancel _ (by decide)]
  rfl

lemma Ram.numOfCoremapPages_le : r.numOfCoremapPages ≤ r.numOfPages := by
  rw [numOfCoremapPages_eq]
  omega

lemma Ram.numOfCoremapPages_pos (some_ : 0 < r.numOfPages) : 0 < r.numOfCoremapPages := by
  rw [numOfCoremapPages_eq]
  omega

lemma Ram.frame_eq (inside : start < r.numOfPages) : r.frame start = r.firstaddr+start*pageSize := by
  have last := r.numOfPages_bound
  have bounded := r.bounded
  have lt := mul_lt_mul_of_pos_right inside (by decide : 0 < pageSize)
  exact mod_eq_of_lt (by omega)

end

lemma sub32_add (bounded : a+b < 2^32) : sub32 (a+b) a = b := by
  unfold sub32 wrap
  omega

lemma Ram.index_frame (r : Ram) (inside : start < r.numOfPages) : r.index (r.frame start) = start := by
  have last := r.numOfPages_bound
  have bounded := r.bounded
  have lt := Nat.mul_lt_mul_of_pos_right inside (by decide : 0 < pageSize)
  unfold Ram.index
  rw [r.frame_eq inside,sub32_add (by omega),Nat.mul_div_cancel _ (by decide)]

lemma Ram.frame_ne_zero (r : Ram) (above : r.numOfCoremapPages ≤ start)
    (lt : start < r.numOfPages) : r.frame start ≠ 0 := by
  have pos := r.numOfCoremapPages_pos (by omega)
  rw [r.frame_eq lt]
  unfold pageSize
  omega

lemma Ram.kvaddr_ne_zero (r : Ram) (inst : r.Installed) (inside : start < r.numOfPages) :
    paddrToKvaddr (r.frame start) ≠ 0 := by
  have last := r.numOfPages_bound
  have lt := mul_lt_mul_of_pos_right inside (by decide : 0 < pageSize)
  rw [r.frame_eq inside]
  unfold Ram.Installed at inst
  unfold paddrToKvaddr wrap mipsKseg0
  omega

abbrev Ram.Blocks (r : Ram) (Owner : Type) := Store Owner r.numOfCoremapPages r.numOfPages

-- The coremap as the record of the blocks handed out.
structure Represents {Owner : Type} (r : Ram) (coremap : Entries) (store : r.Blocks Owner) :
    Prop where
  own : ∀ i, i < r.numOfCoremapPages → coremap i = ⟨true,1⟩
  head : ∀ o b, store.holds o = some b → coremap b.start = ⟨true,b.length⟩
  inner : ∀ o b i, store.holds o = some b → b.Covers i → i ≠ b.start → coremap i = ⟨true,1⟩
  vacant : ∀ i, r.numOfCoremapPages ≤ i → store.Vacant i → coremap i = free

section
variable {Owner : Type} {r : Ram} {coremap after : Entries} {store : r.Blocks Owner}

section
variable (rep : Represents r coremap store)
include rep

lemma Represents.used_iff : (coremap i).used ↔ i < r.numOfCoremapPages ∨ ∃ o b, store.holds o = some b ∧
    b.Covers i := by
  constructor
  · intro used
    by_contra neither
    push Not at neither
    rw [rep.vacant i neither.1 neither.2] at used
    cases used
  rintro (own | ⟨o,b,held,covers⟩)
  · rw [rep.own i own]
  rcases eq_or_ne i b.start with rfl | ne
  · rw [rep.head o b held]
  · rw [rep.inner o b i held covers ne]

lemma Represents.unused (unused : (coremap i).used = false) : coremap i = free := by
  have neither := rep.used_iff.not.mp (Bool.eq_false_iff.mp unused)
  push Not at neither
  exact rep.vacant i neither.1 neither.2

lemma Represents.unique {Holder : Type} {other : r.Blocks Holder} (two : Represents r after other)
    (eq : ∀ b, (∃ o, store.holds o = some b) ↔ ∃ o, other.holds o = some b) : after = coremap := by
  funext i
  rcases lt_or_ge i r.numOfCoremapPages with own | above
  · rw [rep.own i own,two.own i own]
  by_cases covered : ∃ o b, store.holds o = some b ∧ b.Covers i
  · obtain ⟨o,b,held,covers⟩ := covered
    obtain ⟨p,alsoHeld⟩ := (eq b).mp ⟨o,held⟩
    rcases eq_or_ne i b.start with rfl | inner
    · rw [rep.head o b held,two.head p b alsoHeld]
    · rw [rep.inner o b i held covers inner,two.inner p b i alsoHeld covers inner]
  push Not at covered
  rw [rep.vacant i above covered,two.vacant i above]
  intro p b held
  obtain ⟨o,alsoHeld⟩ := (eq b).mpr ⟨p,held⟩
  exact covered o b alsoHeld

end

lemma vmBootstrap_represents (r : Ram) : Represents r (vmBootstrap r) (.empty : r.Blocks Owner) where
  own _ own := if_pos own
  head _ _ held := nomatch held
  inner _ _ _ held := nomatch held
  vacant _ above _ := if_neg (not_lt.mpr above)

lemma filled_apply (coremap : Entries) (pos : 0 < npages) (start i : Nat) :
    fill (update coremap start ⟨true,npages⟩) ⟨true,1⟩ (start+1) (npages-1) i = if i = start then ⟨true,npages⟩
      else if Block.Covers ⟨start,npages⟩ i then ⟨true,1⟩ else coremap i := by
  rw [fill_apply]
  rcases eq_or_ne i start with rfl | ne
  · have pre : ¬ Block.Covers ⟨i+1,npages-1⟩ i := by rw [covers_iff]; omega
    rw [if_neg pre,if_pos rfl,update_self]
  rw [if_neg ne,update_of_ne ne]
  refine if_congr ?_ rfl rfl
  rw [covers_iff,covers_iff]
  omega

variable [DecidableEq Owner]

lemma filled_represents (rep : Represents r coremap store) (fresh : store.holds o = none) {b : Block}
    (le : b.Within r.numOfCoremapPages r.numOfPages) (vacant : ∀ i, b.Covers i → store.Vacant i) :
    Represents r (fill (update coremap b.start ⟨true,b.length⟩) ⟨true,1⟩ (b.start+1) (b.length-1))
      (store.add o b le vacant) := by
  have entry := filled_apply coremap le.2.1 b.start
  have out : ∀ i, ¬ b.Covers i → fill (update coremap b.start ⟨true,b.length⟩) ⟨true,1⟩ (b.start+1) (b.length-1) i =
        coremap i := by
    intro i uncovered
    have ne : i ≠ b.start := fun eq => uncovered (eq ▸ le.covers_start)
    rw [entry,if_neg ne,if_neg uncovered]
  refine ⟨?_,?_,?_,?_⟩
  · intro i own
    rw [out i fun covers => absurd own (not_lt.mpr (le.bounds covers).1)]
    exact rep.own i own
  · intro p c held
    rcases Store.add_cases held with ⟨_,rfl⟩ | ⟨_,old⟩
    · rw [entry,if_pos rfl]
    have start := (store.within p c old).covers_start
    rw [out c.start fun covers => vacant c.start covers p c old start]
    exact rep.head p c old
  · intro p c i held covers ne
    rcases Store.add_cases held with ⟨_,rfl⟩ | ⟨_,old⟩
    · rw [entry,if_neg ne,if_pos covers]
    rw [out i fun new => vacant i new p c old covers]
    exact rep.inner p c i old covers ne
  intro i above clear
  rw [out i (clear o b (update_self ..))]
  apply rep.vacant i above
  intro p c old
  have ne : p ≠ o := fun eq => by rw [eq,fresh] at old; cases old
  exact clear p c ((update_of_ne ne ..).trans old)

lemma coremapAlloc_cases (rep : Represents r coremap store) (fresh : store.holds o = none)
    (res : coremapAlloc r coremap npages = (after,pa)) : (pa = 0 ∧ after = coremap) ∨
      ∃ start, ∃ le : Block.Within ⟨start,npages⟩ r.numOfCoremapPages r.numOfPages,
      ∃ vacant : ∀ i, Block.Covers ⟨start,npages⟩ i → store.Vacant i,
        pa = r.frame start ∧ Represents r after (store.add o ⟨start,npages⟩ le vacant) := by
  unfold coremapAlloc at res
  split at res
  · cases res
    exact .inl ⟨rfl,rfl⟩
  rename_i start hit
  cases res
  obtain ⟨le,unused⟩ := firstFit_sound hit le_rfl (fun j above lt => absurd lt (by omega))
  rw [Nat.add_sub_cancel' r.numOfCoremapPages_le] at le
  have vacant : ∀ i, Block.Covers ⟨start,npages⟩ i → store.Vacant i := by
    intro i covers p b held did
    have used := rep.used_iff.mpr (.inr ⟨p,b,held,did⟩)
    have clear := unused i covers
    rw [used] at clear
    cases clear
  exact .inr ⟨start,le,vacant,rfl,filled_represents rep fresh le vacant⟩

lemma remove_separate (held : store.holds o = some b) (kept : (store.remove o).holds p = some c) :
    store.holds p = some c ∧ ∀ i, c.Covers i → ¬ b.Covers i := by
  obtain ⟨ne,old⟩ := Store.remove_cases kept
  exact ⟨old,fun i covers released => ne (store.apart p o c b i old held covers released)⟩

lemma cleared_represents (rep : Represents r coremap store) (held : store.holds o = some b) :
    Represents r (fill coremap free b.start b.length) (store.remove o) := by
  have out : ∀ i, ¬ b.Covers i → fill coremap free b.start b.length i = coremap i := by
    intro i uncovered
    rw [fill_apply,if_neg uncovered]
  have le := store.within o b held
  refine ⟨?_,?_,?_,?_⟩
  · intro i own
    rw [out i fun covers => absurd own (not_lt.mpr (le.bounds covers).1)]
    exact rep.own i own
  · intro p c kept
    obtain ⟨old,sep⟩ := remove_separate held kept
    rw [out c.start (sep _ (store.within p c old).covers_start)]
    exact rep.head p c old
  · intro p c i kept covers ne
    obtain ⟨old,sep⟩ := remove_separate held kept
    rw [out i (sep i covers)]
    exact rep.inner p c i old covers ne
  intro i above clear
  by_cases released : b.Covers i
  · rw [fill_apply]
    exact if_pos released
  rw [out i released]
  apply rep.vacant i above
  intro p c old covers
  rcases eq_or_ne p o with rfl | ne
  · exact released (some.inj (held.symm.trans old) ▸ covers)
  · exact clear p c ((update_of_ne ne ..).trans old) covers

lemma coremapDealloc_held (rep : Represents r coremap store)
    (held : store.holds o = some ⟨start,length⟩) (head : r.index pa = start) :
    ∃ after, coremapDealloc r coremap pa = some after ∧ Represents r after (store.remove o) := by
  obtain ⟨_,pos,last⟩ := within_iff.mp (store.within o _ held)
  refine ⟨fill coremap free start length,?_,cleared_represents rep held⟩
  have entry : coremap start = ⟨true,length⟩ := rep.head o _ held
  unfold coremapDealloc
  simp only
  rw [head,entry]
  exact if_pos ⟨by omega,last⟩

lemma allocKpages_cases (inst : r.Installed) (rep : Represents r coremap store) (fresh : store.holds o = none)
    (res : allocKpages r coremap npages = (after,addr)) : (addr = 0 ∧ after = coremap) ∨
      ∃ le : Block.Within ⟨r.index (kvaddrToPaddr addr),npages⟩ r.numOfCoremapPages r.numOfPages,
      ∃ vacant : ∀ i, Block.Covers ⟨r.index (kvaddrToPaddr addr),npages⟩ i → store.Vacant i,
        addr ≠ 0 ∧ Represents r after (store.add o _ le vacant) := by
  cases hit : coremapAlloc r coremap npages with
  | mk next pa =>
    rw [allocKpages,hit] at res
    cases res
    rcases coremapAlloc_cases rep fresh hit with ⟨rfl,rfl⟩ | ⟨start,le,vacant,rfl,added⟩
    · exact .inl ⟨rfl,rfl⟩
    obtain ⟨above,pos,last⟩ := within_iff.mp le
    have lt : start < r.numOfPages := by omega
    rw [if_neg (r.frame_ne_zero above lt),r.index_kvaddr,r.index_frame lt]
    exact .inr ⟨le,vacant,r.kvaddr_ne_zero inst lt,added⟩

lemma freeKpages_held (rep : Represents r coremap store)
    (held : store.holds o = some ⟨start,length⟩) (head : r.index (kvaddrToPaddr addr) = start) :
    ∃ after, freeKpages r coremap addr = some after ∧ Represents r after (store.remove o) :=
  coremapDealloc_held rep held head

lemma dealloc_restores (rep : Represents r coremap store) (fresh : store.holds o = none)
    (res : coremapAlloc r coremap npages = (after,pa)) (succeeded : pa ≠ 0) :
    coremapDealloc r after pa = some coremap := by
  rcases coremapAlloc_cases rep fresh res with ⟨bad,_⟩ | ⟨start,le,vacant,rfl,added⟩
  · exact absurd bad succeeded
  obtain ⟨_,pos,last⟩ := within_iff.mp le
  have lt : start < r.numOfPages := by omega
  obtain ⟨final,released,removed⟩ := coremapDealloc_held added (update_self ..) (r.index_frame lt)
  rw [store.remove_add le vacant fresh] at removed
  rw [released,rep.unique removed fun _ => Iff.rfl]

end

-- A block a client holds: the address returned and the pages requested.
structure Grant where
  pa : Nat
  npages : Nat
  deriving DecidableEq

def Ram.block (r : Ram) (g : Grant) : Block := ⟨r.index g.pa,g.npages⟩

-- The allocator and its clients. Requests are numbered; `live` is what each was granted and has not released.
structure Pool where
  coremap : Entries
  live : Nat → Option Grant
  next : Nat

inductive Request where
  | alloc (npages : Nat)
  | dealloc (ticket : Nat)

def serve (r : Ram) (s : Pool) : Request → Option Pool
  | .alloc npages => match coremapAlloc r s.coremap npages with
      | (coremap,pa) =>
        some ⟨coremap,if pa = 0 then s.live else update s.live s.next (some ⟨pa,npages⟩),s.next+1⟩
  | .dealloc ticket => match s.live ticket with
      | none => none
      | some g => (coremapDealloc r s.coremap g.pa).map fun coremap =>
        {s with coremap,live := update s.live ticket none}

def Client (s : Pool) : Request → Prop
  | .alloc npages => 1 ≤ npages
  | .dealloc ticket => s.live ticket ≠ none

instance (s : Pool) (request : Request) : Decidable (Client s request) :=
  match request with
  | .alloc npages => inferInstanceAs (Decidable (1 ≤ npages))
  | .dealloc ticket => inferInstanceAs (Decidable (s.live ticket ≠ none))

def PoolReached (r : Ram) (s : Pool) : Prop :=
  Transition.Reached (serve r) Client ⟨vmBootstrap r,fun _ => none,0⟩ s

-- The pool as a store of disjoint blocks.
structure Refines (r : Ram) (s : Pool) (store : r.Blocks Nat) : Prop where
  holds : store.holds = fun ticket => (s.live ticket).map r.block
  represents : Represents r s.coremap store
  unused : ∀ ticket, s.next ≤ ticket → s.live ticket = none

lemma map_update {f : α → β} (live : Nat → Option α) (ticket : Nat) (value : Option α) :
    (fun k => (update live ticket value k).map f) = update (fun k => (live k).map f) ticket (value.map f) := by
  funext k
  exact apply_update (fun _ => Option.map f) live ticket value k

lemma Refines.fresh {s : Pool} (refines : Refines r s store) : store.holds s.next = none := by
  rw [refines.holds]
  simp only
  rw [refines.unused s.next le_rfl]
  rfl

lemma alloc_refines (refines : Refines r s store)
    (did : serve r s (.alloc npages) = some after) : ∃ store, Refines r after store := by
  cases res : coremapAlloc r s.coremap npages with
  | mk coremap pa =>
    rw [serve,res] at did
    cases some.inj did
    rcases coremapAlloc_cases refines.represents refines.fresh res with
      ⟨rfl,rfl⟩ | ⟨start,le,vacant,rfl,added⟩
    · exact ⟨store,refines.holds,refines.represents,fun ticket later => refines.unused ticket (le_of_succ_le later)⟩
    obtain ⟨above,pos,last⟩ := within_iff.mp le
    have lt : start < r.numOfPages := by omega
    refine ⟨_,?_,added,?_⟩
    · simp only
      rw [if_neg (r.frame_ne_zero above lt),map_update,Store.add_holds,refines.holds]
      simp only [Option.map_some,Ram.block,r.index_frame lt]
    intro ticket later
    simp only at later ⊢
    rw [if_neg (r.frame_ne_zero above lt),update_of_ne (by omega)]
    exact refines.unused ticket (by omega)

lemma dealloc_refines (refines : Refines r s store) (live : Client s (.dealloc ticket)) :
    ∃ after store, serve r s (.dealloc ticket) = some after ∧ Refines r after store := by
  obtain ⟨g,got⟩ := ne_none_iff_exists'.mp live
  have held : store.holds ticket = some (r.block g) := by
    rw [refines.holds]
    simp only
    rw [got]
    rfl
  obtain ⟨coremap,released,removed⟩ := coremapDealloc_held refines.represents held rfl
  refine ⟨{s with coremap,live := update s.live ticket none},store.remove ticket,?_,?_,removed,?_⟩
  · rw [serve,got]
    simp only
    rw [released]
    rfl
  · rw [Store.remove_holds,refines.holds]
    simp only
    rw [map_update]
    rfl
  intro k later
  simp only at later ⊢
  rcases eq_or_ne k ticket with rfl | ne
  · exact update_self ..
  rw [update_of_ne ne]
  exact refines.unused k later

lemma poolReached_refines (path : PoolReached r s) : ∃ store, Refines r s store := by
  refine path.invariant (fun s => ∃ store, Refines r s store) ⟨.empty,rfl,vmBootstrap_represents r,fun _ _ => rfl⟩ ?_
  rintro s event after _ ⟨store,refines⟩ may did
  cases event with
  | alloc npages => exact alloc_refines refines did
  | dealloc ticket =>
    obtain ⟨next,left,served,refined⟩ := dealloc_refines refines may
    rw [did] at served
    exact ⟨left,some.inj served ▸ refined⟩

lemma serve_total (refines : Refines r s store) (may : Client s request) : serve r s request ≠ none := by
  cases request with
  | alloc npages => exact some_ne_none _
  | dealloc ticket =>
    obtain ⟨after,_,served,_⟩ := dealloc_refines refines may
    rw [served]
    exact some_ne_none _

theorem coremap_allocator_safe {r : Ram} {s : Pool} (path : PoolReached r s) :
    (∀ j k g h, s.live j = some g → s.live k = some h → j ≠ k →
      ∀ i, ¬ ((r.block g).Covers i ∧ (r.block h).Covers i)) ∧
    (∀ k g, s.live k = some g → (r.block g).Within r.numOfCoremapPages r.numOfPages) ∧
    (∀ i < r.numOfPages, (s.coremap i).used = true ↔
      i < r.numOfCoremapPages ∨ ∃ k g, s.live k = some g ∧ (r.block g).Covers i) ∧
    (∀ i < r.numOfPages, (s.coremap i).used = false → (s.coremap i).count = 0) ∧
    (∀ k g, s.live k = some g → (s.coremap (r.index g.pa)).count = g.npages) ∧
    (∀ request, Client s request → serve r s request ≠ none) ∧
    ∀ npages after pa, coremapAlloc r s.coremap npages = (after,pa) → pa ≠ 0 →
      coremapDealloc r after pa = some s.coremap := by
  obtain ⟨store,refines⟩ := poolReached_refines path
  have rep := refines.represents
  have held : ∀ k g, s.live k = some g → store.holds k = some (r.block g) := by
    intro k g live
    rw [refines.holds]
    simp only
    rw [live]
    rfl
  refine ⟨?_,fun k g live => store.within k _ (held k g live),?_,?_,?_,
    fun _ => serve_total refines,fun _ _ _ => dealloc_restores rep refines.fresh⟩
  · intro j k g h first second different i both
    exact different (store.apart j k _ _ i (held j g first) (held k h second) both.1 both.2)
  · intro i _
    rw [rep.used_iff,refines.holds]
    simp only [map_eq_some_iff]
    refine or_congr_right ⟨?_,?_⟩
    · rintro ⟨k,b,⟨g,live,rfl⟩,covers⟩
      exact ⟨k,g,live,covers⟩
    rintro ⟨k,g,live,covers⟩
    exact ⟨k,_,⟨g,live,rfl⟩,covers⟩
  · intro i _ unused
    rw [rep.unused unused]
    rfl
  intro k g live
  exact congrArg CoremapEntry.count (rep.head k _ (held k g live))

def smallRam : Ram := ⟨4096,9*4096,by decide,by decide⟩

theorem fragmented_pool_safe : ∃ s, PoolReached smallRam s ∧
    (s.live 1 = some ⟨16384,1⟩ ∧ s.live 2 = some ⟨20480,3⟩) ∧
    (∀ j k g h, s.live j = some g → s.live k = some h → j ≠ k →
      ∀ i, ¬ ((smallRam.block g).Covers i ∧ (smallRam.block h).Covers i)) ∧
    ∀ k g, s.live k = some g → (s.coremap (smallRam.index g.pa)).count = g.npages := by
  let requests : List Request := [.alloc 2,.alloc 1,.dealloc 0,.alloc 3,.alloc 5]
  let permit := fun s request => decide (Client s request)
  have ran : ((Transition.run (Transition.guarded permit (serve smallRam))
      ⟨vmBootstrap smallRam,fun _ => none,0⟩ requests).map fun s => (s.live 1,s.live 2)) =
      some (some ⟨16384,1⟩,some ⟨20480,3⟩) := by
    decide +kernel
  obtain ⟨s,reached,live⟩ := map_eq_some_iff.mp ran
  have path : PoolReached smallRam s :=
    Transition.run_permitted (fun _ permitted => of_decide_eq_true permitted) .initial reached
  have safe := coremap_allocator_safe path
  exact ⟨s,path,Prod.ext_iff.mp live,safe.1,safe.2.2.2.2.1⟩

def FreeRun (r : Ram) (coremap : Entries) (npages start : Nat) : Prop :=
  r.numOfCoremapPages ≤ start ∧ start+npages ≤ r.numOfPages ∧
    ∀ i, start ≤ i → i < start+npages → (coremap i).used = false

lemma firstFit_freeRun (pos : 1 ≤ npages)
    (possible : FreeRun r coremap npages s) : ∃ start, firstFit (fun i => !(coremap i).used) npages
      (r.numOfPages-r.numOfCoremapPages) r.numOfCoremapPages 0 = some start ∧ start ≤ s := by
  obtain ⟨above,lt,unused⟩ := possible
  apply firstFit_lowest pos
  · omega
  · omega
  intro i covered
  obtain ⟨one,last⟩ := covers_iff.mp covered
  simp only [unused i one last,Bool.not_false]

lemma freeRun_firstFit {r : Ram} (hit : firstFit (fun i => !(coremap i).used) npages
      (r.numOfPages-r.numOfCoremapPages) r.numOfCoremapPages 0 = some start) : FreeRun r coremap npages start := by
  obtain ⟨le,unused⟩ := firstFit_sound hit le_rfl (fun j above lt => absurd lt (by omega))
  rw [Nat.add_sub_cancel' r.numOfCoremapPages_le] at le
  obtain ⟨above,_,last⟩ := within_iff.mp le
  refine ⟨above,last,fun i one lt => ?_⟩
  have clear := unused i (covers_iff.mpr ⟨one,lt⟩)
  simpa using clear

theorem coremap_first_fit {r : Ram} {coremap after : Entries} {npages pa : Nat} (positive : 1 ≤ npages)
    (result : coremapAlloc r coremap npages = (after,pa)) :
    (pa ≠ 0 ↔ ∃ start, FreeRun r coremap npages start) ∧
    (pa = 0 → after = coremap) ∧
    (pa ≠ 0 → ∃ start, FreeRun r coremap npages start ∧ (∀ s, FreeRun r coremap npages s → start ≤ s) ∧
      pa = r.firstaddr+start*pageSize ∧
      (∀ i, after i ≠ coremap i ↔ start ≤ i ∧ i < start+npages) ∧
      ∀ i, after i = if i = start then ⟨true,npages⟩
        else if start ≤ i ∧ i < start+npages then ⟨true,1⟩ else coremap i) := by
  unfold coremapAlloc at result
  split at result
  · rename_i missing
    cases result
    refine ⟨⟨fun nonzero => absurd rfl nonzero,?_⟩,fun _ => rfl,fun nonzero => absurd rfl nonzero⟩
    intro ⟨s,possible⟩
    obtain ⟨start,found,_⟩ := firstFit_freeRun positive possible
    rw [missing] at found
    cases found
  rename_i start found
  cases result
  have run := freeRun_firstFit found
  have inside : start < r.numOfPages := by
    have last := run.2.1
    omega
  have nonzero := r.frame_ne_zero run.1 inside
  have entry := filled_apply coremap positive start
  refine ⟨⟨fun _ => ⟨start,run⟩,fun _ => nonzero⟩,fun zero => absurd zero nonzero,fun _ => ?_⟩
  refine ⟨start,run,?_,r.frame_eq inside,?_,?_⟩
  · intro s possible
    obtain ⟨first,again,lowest⟩ := firstFit_freeRun positive possible
    cases found.symm.trans again
    exact lowest
  · intro i
    simp only [entry,covers_iff]
    constructor
    · intro changed
      by_contra outside
      apply changed
      rw [if_neg (by omega),if_neg outside]
    intro covered same
    have unused := run.2.2 i covered.1 covered.2
    rw [←same] at unused
    split at unused
    · cases unused
    · cases unused
  intro i
  rw [entry]
  simp only [covers_iff]

theorem coremap_first_fit_fragmented : ∃ s, PoolReached smallRam s ∧
    (coremapAlloc smallRam s.coremap 3).2 = 4096+5*4096 ∧
    ∃ start, FreeRun smallRam s.coremap 3 start := by
  let requests : List Request := [.alloc 2,.alloc 2,.dealloc 0]
  let permit := fun s request => decide (Client s request)
  have ran : ((Transition.run (Transition.guarded permit (serve smallRam))
      ⟨vmBootstrap smallRam,fun _ => none,0⟩ requests).map fun s => (coremapAlloc smallRam s.coremap 3).2) =
      some (4096+5*4096) := by
    decide +kernel
  obtain ⟨s,reached,address⟩ := map_eq_some_iff.mp ran
  have path : PoolReached smallRam s :=
    Transition.run_permitted (fun _ permitted => of_decide_eq_true permitted) .initial reached
  have result := (@Prod.mk.eta _ _ (coremapAlloc smallRam s.coremap 3)).symm
  refine ⟨s,path,address,(coremap_first_fit (by decide) result).1.mp ?_⟩
  rw [address]
  decide
end ToyOS.Coremap

import ToyOS.Library.ByteMemory
import ToyOS.FrameOwners
import ToyOS.KernelPages
import ToyOS.Tlb

namespace ToyOS.UserSpace

def AddrSpace.entry (as : AddrSpace) (segment : Segment) (i : Nat) : Nat :=
  match as.table segment with
  | some table => table.paddr i
  | none => 0
end ToyOS.UserSpace

namespace ToyOS.FrameMemory
open Function UserSpace Tlb BlockStore ByteMemory Coremap SpaceFrames StoppedLoad FrameOwners Option
open KernelPages (Aligned)

-- The bytes of physical memory, by physical address.
abbrev Memory := Nat → UInt8

def segments : List Segment := [.text,.data,.stack]

def asZeroRegions (as : AddrSpace) (memory : Memory) : Memory :=
  fillAll pageSize 0 (segments.flatMap fun segment =>
    (List.range (as.npages segment)).map (as.entry segment)) memory

def copyMoves (new old : AddrSpace) : List (Nat × Nat) :=
  segments.flatMap fun segment =>
    (List.range (new.npages segment)).map fun i => (new.entry segment i,old.entry segment i)

def copyRegions (new old : AddrSpace) (memory : Memory) : Memory :=
  moveAll pageSize (copyMoves new old) memory

def scrapped (r : Ram) (coremap : Entries) (scrap memory : Memory) : Memory :=
  fun a => if (coremap (r.index a)).used then memory a else scrap a

lemma mem_segments (segment : Segment) : segment ∈ segments := by
  cases segment <;> simp [segments]

def FilledTo (r : Ram) (as : AddrSpace) (mapped : Segment → Nat) : Prop :=
  ∀ segment, ∀ i < mapped segment, ∃ start < r.numOfPages, as.entry segment i = r.frame start

def Filled (r : Ram) (as : AddrSpace) : Prop := FilledTo r as as.npages

variable {segment : Segment}

lemma writeEntry_entry {as : AddrSpace} (here : as.table segment ≠ none) (i paddr : Nat) (other : Segment) (j : Nat) :
    (writeEntry as segment i paddr).entry other j = if other = segment ∧ j = i then paddr else as.entry other j := by
  obtain ⟨table,some_⟩ := ne_none_iff_exists'.mp here
  simp only [writeEntry,some_,AddrSpace.entry,AddrSpace.setTable_table]
  rcases eq_or_ne other segment with rfl | ne
  · simp only [update_self,some_,true_and]
    exact update_apply ..
  · simp only [update_of_ne ne,ne,false_and,if_false]

lemma writeEntry_table_ne {as : AddrSpace} (here : as.table other ≠ none) :
    (writeEntry as segment i paddr).table other ≠ none := by
  unfold writeEntry
  split
  · exact here
  rw [AddrSpace.setTable_table]
  rcases eq_or_ne other segment with rfl | ne
  · rw [update_self]
    exact some_ne_none _
  · rwa [update_of_ne ne]

section
variable {r : Ram} {mapped : Segment → Nat} {l next : Load} {segment : Segment}

lemma mapFrame_ok (done : mapFrame r segment i l = .ok () next) :
    ∃ start < r.numOfPages, next.space = writeEntry l.space segment i (r.frame start) := by
  cases res : coremapAlloc r l.coremap 1 with
  | mk coremap paddr =>
    rw [mapFrame,res] at done
    simp only at done
    rcases coremapAlloc_address res with rfl | ⟨start,inside,rfl⟩
    · cases done
    split at done
    · cases done
    cases done
    exact ⟨start,inside,rfl⟩

lemma mapFrames_filled (filled : FilledTo r l.space mapped) (reached : mapped segment = i)
    (present : l.space.table segment ≠ none) (done : mapFrames r segment i left l = .ok () next) :
    FilledTo r next.space (update mapped segment (i+left)) ∧
      ∀ other, l.space.table other ≠ none → next.space.table other ≠ none := by
  induction left generalizing i l mapped with
  | zero =>
    cases done
    refine ⟨?_,fun _ kept => kept⟩
    rwa [Nat.add_zero,←reached,update_eq_self]
  | succ left ih =>
    obtain ⟨mid,one,rest⟩ := bind_ok done
    obtain ⟨start,inside,written⟩ := mapFrame_ok one
    have tables : ∀ other, l.space.table other ≠ none → mid.space.table other ≠ none := by
      intro other kept
      rw [written]
      exact writeEntry_table_ne kept
    have advanced : FilledTo r mid.space (update mapped segment (i+1)) := by
      intro other j below
      rw [written,writeEntry_entry present]
      split
      · exact ⟨start,inside,rfl⟩
      rename_i away
      apply filled other j
      rcases eq_or_ne other segment with rfl | ne
      · rw [update_self] at below
        have distinct : j ≠ i := fun eq => away ⟨rfl,eq⟩
        omega
      · rwa [update_of_ne ne] at below
    obtain ⟨finished,kept⟩ := ih advanced (update_self ..) (tables _ present) rest
    refine ⟨?_,fun other here => kept other (tables other here)⟩
    rwa [update_idem,Nat.add_assoc,Nat.add_comm 1 left] at finished

def regions (as : AddrSpace) : Nat × Nat × Nat × Nat :=
  (as.asVbase1,as.asNpages1,as.asVbase2,as.asNpages2)

lemma setTable_regions (as : AddrSpace) (segment : Segment) (table : PageTable) :
    regions (as.setTable segment table) = regions as := by
  cases segment <;> rfl

lemma writeEntry_regions (as : AddrSpace) (segment : Segment) (i paddr : Nat) :
    regions (writeEntry as segment i paddr) = regions as := by
  unfold writeEntry
  split
  · rfl
  · exact setTable_regions ..

lemma mapFrames_regions (done : mapFrames r segment i left l = .ok () next) : regions next.space = regions l.space := by
  induction left generalizing i l with
  | zero => cases done; rfl
  | succ left ih =>
    obtain ⟨mid,one,rest⟩ := bind_ok done
    obtain ⟨start,_,written⟩ := mapFrame_ok one
    rw [ih rest,written,writeEntry_regions]

lemma mapSegment_filled (filled : FilledTo r l.space mapped) (none_ : mapped segment = 0)
    (here : l.space.table segment ≠ none) (done : mapSegment r segment l = .ok () next) :
    FilledTo r next.space (update mapped segment (l.space.npages segment)) ∧ next.space.npages = l.space.npages ∧
      ∀ other, l.space.table other ≠ none → next.space.table other ≠ none := by
  have loop : mapFrames r segment 0 (l.space.npages segment) l = .ok () next := done
  obtain ⟨finished,kept⟩ := mapFrames_filled filled none_ here loop
  have eq := mapFrames_serves r segment 0 (l.space.npages segment) l
  rw [loop] at eq
  rw [Nat.zero_add] at finished
  exact ⟨finished,eq.2,kept⟩

lemma mapTable_npages (done : mapTable r segment junk l = .ok () next) :
    next.space.npages = l.space.npages ∧ next.space.table segment ≠ none ∧
      ∀ other, l.space.table other ≠ none → next.space.table other ≠ none := by
  obtain ⟨table,changed⟩ := mapTable_ok done
  refine ⟨by rw [changed,AddrSpace.setTable_npages],by simp [changed],?_⟩
  exact (kept_setTable changed).tables

lemma loadSpace_regions (done : loadSpace r junk l = .ok () next) : regions next.space = regions l.space := by
  obtain ⟨l1,text,done⟩ := bind_ok done
  obtain ⟨l2,data,done⟩ := bind_ok done
  obtain ⟨l3,stack,done⟩ := bind_ok done
  obtain ⟨l4,textFrames,done⟩ := bind_ok done
  obtain ⟨l5,dataFrames,stackFrames⟩ := bind_ok done
  obtain ⟨_,space1⟩ := mapTable_ok text
  obtain ⟨_,space2⟩ := mapTable_ok data
  obtain ⟨_,space3⟩ := mapTable_ok stack
  have frames : ∀ {segment a b}, mapSegment r segment a = .ok () b → regions b.space = regions a.space :=
    fun done => mapFrames_regions done
  rw [frames stackFrames,frames dataFrames,frames textFrames,space3,space2,space1]
  simp only [setTable_regions]

end

lemma paddrOf_index (hit : segmentOf as page = some segment) (entry : paddrOf as page segment = some paddr) :
    as.base segment ≤ page ∧ (page-as.base segment) / pageSize < as.npages segment ∧
      as.entry segment ((page-as.base segment) / pageSize) = paddr := by
  have inside : ∀ base npages, base ≤ page → page < wrap (base+npages*pageSize) → (page-base) / pageSize < npages := by
    intro base npages above below
    have bound := Nat.mod_le (base+npages*pageSize) (2^32)
    rw [Nat.div_lt_iff_lt_mul (by decide)]
    unfold wrap at below
    omega
  unfold segmentOf at hit
  split at hit
  · rename_i text
    cases hit
    obtain ⟨table,here,rfl⟩ := map_eq_some_iff.mp entry
    refine ⟨text.1,inside _ _ text.1 text.2,?_⟩
    simp only [AddrSpace.entry,AddrSpace.table,here,AddrSpace.base]
  split at hit
  · rename_i data
    cases hit
    obtain ⟨table,here,rfl⟩ := map_eq_some_iff.mp entry
    refine ⟨data.1,inside _ _ data.1 data.2,?_⟩
    simp only [AddrSpace.entry,AddrSpace.table,here,AddrSpace.base]
  split at hit
  · rename_i stack
    cases hit
    obtain ⟨table,here,rfl⟩ := map_eq_some_iff.mp entry
    have top : userstack = stackbase+dumbvmStackpages*pageSize := by decide
    rw [top] at stack
    refine ⟨stack.1,?_,?_⟩
    · rw [Nat.div_lt_iff_lt_mul (by decide)]
      change page-stackbase < dumbvmStackpages*pageSize
      omega
    · simp only [AddrSpace.entry,AddrSpace.table,here,AddrSpace.base]
  · cases hit

lemma paddrOf_entry (hit : segmentOf as page = some segment)
    (entry : paddrOf as page segment = some paddr) : ∃ i < as.npages segment, as.entry segment i = paddr :=
  have recorded := paddrOf_index hit entry
  ⟨_,recorded.2⟩

lemma forkRam_aligned : Aligned forkRam := ⟨by unfold Ram.Installed; decide,by decide,by decide⟩

lemma frame_whole (aligned : Aligned r) (inside : start < r.numOfPages) :
    pageFrame (r.frame start) = r.frame start := by
  have whole := aligned.whole
  rw [r.frame_eq inside]
  unfold pageFrame
  unfold pageSize at whole ⊢
  omega

lemma filled_mapped (aligned : Aligned r) (filled : Filled r as) (prep : Prepared as) : Mapped as := by
  refine ⟨prep,fun page segment paddr hit entry => ?_⟩
  obtain ⟨i,lt,rfl⟩ := paddrOf_entry hit entry
  obtain ⟨start,inside,eq⟩ := filled segment i lt
  rw [eq]
  exact frame_whole aligned inside

lemma frame_apart (r : Ram) (one : start < r.numOfPages) (two : other < r.numOfPages)
    (ne : start ≠ other) : Apart pageSize (r.frame start) (r.frame other) := by
  rw [r.frame_eq one,r.frame_eq two]
  unfold Apart pageSize
  omega

lemma index_inside (r : Ram) (inside : start < r.numOfPages) (lt : offset < pageSize) :
    r.index (r.frame start+offset) = start := by
  have last := r.numOfPages_bound
  have bounded := r.bounded
  have page := Nat.mul_lt_mul_of_pos_right inside (by decide : 0 < pageSize)
  rw [Ram.index,r.frame_eq inside,Nat.add_assoc]
  rw [sub32_add (by unfold pageSize at *; omega)]
  unfold pageSize at *
  omega

def Separate (new as : AddrSpace) : Prop :=
  ∀ segment other, ∀ i < new.npages segment, ∀ j < as.npages other,
    Apart pageSize (new.entry segment i) (as.entry other j)

def Same (as : AddrSpace) (before after : Memory) : Prop :=
  ∀ segment, ∀ i < as.npages segment, ∀ offset < pageSize,
    after (as.entry segment i+offset) = before (as.entry segment i+offset)

lemma Same.refl (as : AddrSpace) (memory : Memory) : Same as memory memory :=
  fun _ _ _ _ _ => rfl

lemma Same.trans (one : Same as before middle) (two : Same as middle after) : Same as before after :=
  fun segment i page offset lt => (two segment i page offset lt).trans (one segment i page offset lt)

lemma zero_same (sep : Separate new as) (memory : Memory) : Same as memory (asZeroRegions new memory) := by
  intro segment i page offset below
  apply fillAll_outside
  intro start among
  obtain ⟨ne,_,listed⟩ := List.mem_flatMap.mp among
  obtain ⟨j,range,rfl⟩ := List.mem_map.mp listed
  exact (sep ne segment j (List.mem_range.mp range) i page).symm.outside (inside_offset below)

lemma mem_copyMoves : move ∈ copyMoves new old ↔
    ∃ segment, ∃ i < new.npages segment, (new.entry segment i,old.entry segment i) = move := by
  unfold copyMoves
  rw [List.mem_flatMap]
  constructor
  · rintro ⟨segment,_,listed⟩
    obtain ⟨i,range,eq⟩ := List.mem_map.mp listed
    exact ⟨segment,i,List.mem_range.mp range,eq⟩
  rintro ⟨segment,i,lt,eq⟩
  exact ⟨segment,mem_segments segment,List.mem_map.mpr ⟨i,List.mem_range.mpr lt,eq⟩⟩

lemma copy_same (sep : Separate new as) (memory : Memory) : Same as memory (copyRegions new old memory) := by
  intro segment i page offset below
  apply moveAll_outside
  intro move among
  obtain ⟨ne,j,range,rfl⟩ := mem_copyMoves.mp among
  exact (sep ne segment j range i page).symm.outside (inside_offset below)

lemma zero_zeroed (as : AddrSpace) (memory : Memory) (lt : i < as.npages segment) (inside : offset < pageSize) :
    asZeroRegions as memory (as.entry segment i+offset) = 0 := by
  apply fillAll_inside
  refine ⟨as.entry segment i,?_,inside_offset inside⟩
  rw [List.mem_flatMap]
  exact ⟨segment,mem_segments segment,List.mem_map.mpr ⟨i,List.mem_range.mpr lt,rfl⟩⟩

def Injective (as : AddrSpace) : Prop :=
  ∀ segment other, ∀ i < as.npages segment, ∀ j < as.npages other,
    (segment ≠ other ∨ i ≠ j) → Apart pageSize (as.entry segment i) (as.entry other j)

-- The frames of the first entries are in use, and no two entries have the same.
structure Own (r : Ram) (l : Load) (mapped : Segment → Nat) : Prop where
  used : ∀ segment, ∀ i < mapped segment, ∃ start < r.numOfPages,
    l.space.entry segment i = r.frame start ∧ (l.coremap start).used = true
  distinct : ∀ segment other, ∀ i < mapped segment, ∀ j < mapped other,
    (segment ≠ other ∨ i ≠ j) → l.space.entry segment i ≠ l.space.entry other j

section
variable {r : Ram} {mapped : Segment → Nat} {l next : Load} {segment : Segment}

lemma mapFrame_taken (done : mapFrame r segment i l = .ok () next) :
    ∃ start < r.numOfPages, next.space = writeEntry l.space segment i (r.frame start) ∧
      (l.coremap start).used = false ∧ (next.coremap start).used ∧ ∀ j, (l.coremap j).used → (next.coremap j).used := by
  cases res : coremapAlloc r l.coremap 1 with
  | mk coremap paddr =>
    rw [mapFrame,res] at done
    simp only at done
    split at done
    · cases done
    rename_i nz
    cases done
    unfold coremapAlloc at res
    split at res
    · cases res
      exact absurd rfl nz
    rename_i start hit
    cases res
    have vacant := freeRun_firstFit hit
    refine ⟨start,vacant.2.1,rfl,vacant.2.2 start le_rfl (Nat.lt_succ_self _),?_,?_⟩
    · simp only [filled_apply l.coremap Nat.one_pos,if_true]
    intro j used
    simp only [filled_apply l.coremap Nat.one_pos]
    split
    · rfl
    split
    · rfl
    · exact used

section
variable (own : Own r l mapped)
include own

lemma mapFrame_own (reached : mapped segment = i) (present : l.space.table segment ≠ none)
    (done : mapFrame r segment i l = .ok () next) : Own r next (update mapped segment (i+1)) := by
  obtain ⟨start,inside,written,vacant,did,kept⟩ := mapFrame_taken done
  have entry : ∀ other j, next.space.entry other j =
      if other = segment ∧ j = i then r.frame start else l.space.entry other j := by
    intro other j
    rw [written,writeEntry_entry present]
  have earlier : ∀ other j, j < update mapped segment (i+1) other → ¬(other = segment ∧ j = i) → j < mapped other := by
    intro other j lt away
    rcases eq_or_ne other segment with rfl | ne
    · rw [update_self] at lt
      have distinct : j ≠ i := fun same => away ⟨rfl,same⟩
      omega
    · rwa [update_of_ne ne] at lt
  -- the new frame was free, those of the other entries were not
  have fresh : ∀ other j, j < mapped other → l.space.entry other j ≠ r.frame start := by
    intro other j lt same
    obtain ⟨place,bound,eq,used⟩ := own.used other j lt
    have shared : place = start := by rw [←r.index_frame bound,←r.index_frame inside,←eq,same]
    rw [shared,vacant] at used
    cases used
  constructor
  · intro other j lt
    rw [entry]
    split
    · exact ⟨start,inside,rfl,did⟩
    rename_i away
    obtain ⟨place,bound,eq,used⟩ := own.used other j (earlier other j lt away)
    exact ⟨place,bound,eq,kept place used⟩
  intro one other j first k second ne
  rw [entry,entry]
  split
  · rename_i here
    split
    · rename_i hit
      obtain ⟨rfl,rfl⟩ := here
      obtain ⟨rfl,rfl⟩ := hit
      exact absurd ne (by simp)
    rename_i away
    exact (fresh other k (earlier other k second away)).symm
  rename_i away
  split
  · exact fresh one j (earlier one j first away)
  rename_i beside
  exact own.distinct one other j (earlier one j first away) k (earlier other k second beside) ne

lemma mapFrames_own (reached : mapped segment = i) (here : l.space.table segment ≠ none)
    (done : mapFrames r segment i left l = .ok () next) : Own r next (update mapped segment (i+left)) := by
  induction left generalizing i l mapped with
  | zero =>
    cases done
    rwa [Nat.add_zero,←reached,update_eq_self]
  | succ left ih =>
    obtain ⟨mid,one,rest⟩ := bind_ok done
    obtain ⟨start,_,written⟩ := mapFrame_ok one
    have kept : mid.space.table segment ≠ none := by
      rw [written]
      exact writeEntry_table_ne here
    have finished := ih (mapFrame_own own reached here one) (update_self ..) kept rest
    rwa [update_idem,Nat.add_assoc,Nat.add_comm 1 left] at finished

lemma mapSegment_own (none_ : mapped segment = 0) (here : l.space.table segment ≠ none)
    (done : mapSegment r segment l = .ok () next) : Own r next (update mapped segment (l.space.npages segment)) := by
  have finished := mapFrames_own own none_ here done
  rwa [Nat.zero_add] at finished

end

section
variable (done : loadSpace r junk l = .ok () next)
include done

lemma loadSpace_maps : (Filled r next.space ∧ next.space.npages = l.space.npages) ∧
      Own r next next.space.npages ∧ ∀ segment, next.space.table segment ≠ none := by
  obtain ⟨l1,text,done⟩ := bind_ok done
  obtain ⟨l2,data,done⟩ := bind_ok done
  obtain ⟨l3,stack,done⟩ := bind_ok done
  obtain ⟨l4,textFrames,done⟩ := bind_ok done
  obtain ⟨l5,dataFrames,stackFrames⟩ := bind_ok done
  obtain ⟨npages1,here1,_⟩ := mapTable_npages text
  obtain ⟨npages2,here2,kept2⟩ := mapTable_npages data
  obtain ⟨npages3,here3,kept3⟩ := mapTable_npages stack
  have tables : ∀ segment, l3.space.table segment ≠ none := by
    intro segment
    cases segment with
    | text => exact kept3 _ (kept2 _ here1)
    | data => exact kept3 _ here2
    | stack => exact here3
  have empty : FilledTo r l3.space fun _ => 0 := fun _ _ lt => absurd lt (Nat.not_lt_zero _)
  obtain ⟨filled4,npages4,kept4⟩ := mapSegment_filled empty rfl (tables .text) textFrames
  obtain ⟨filled5,npages5,kept5⟩ := mapSegment_filled filled4 rfl (kept4 _ (tables .data)) dataFrames
  obtain ⟨filled6,npages6,kept6⟩ := mapSegment_filled filled5 rfl (kept5 _ (kept4 _ (tables .stack))) stackFrames
  have start : Own r l3 fun _ => 0 :=
    ⟨fun _ _ lt => absurd lt (Nat.not_lt_zero _),fun _ _ _ lt => absurd lt (Nat.not_lt_zero _)⟩
  have own4 := mapSegment_own start rfl (tables .text) textFrames
  have own5 := mapSegment_own own4 rfl (kept4 _ (tables .data)) dataFrames
  have own6 := mapSegment_own own5 rfl (kept5 _ (kept4 _ (tables .stack))) stackFrames
  have all : update (update (update (fun _ => 0) .text (l3.space.npages .text)) .data
      (l4.space.npages .data)) .stack (l5.space.npages .stack) = next.space.npages := by
    funext segment
    cases segment <;> simp [npages6,npages5,npages4]
  rw [all] at filled6 own6
  exact ⟨⟨filled6,by rw [npages6,npages5,npages4,npages3,npages2,npages1]⟩,own6,
    fun segment => kept6 _ (kept5 _ (kept4 _ (tables segment)))⟩

lemma loadSpace_filled : Filled r next.space ∧ next.space.npages = l.space.npages := (loadSpace_maps done).1

lemma loadSpace_injective : Injective next.space := by
  have filled := (loadSpace_filled done).1
  have own := (loadSpace_maps done).2.1
  intro one ne i first j two different
  have apart := own.distinct one ne i first j two different
  obtain ⟨place,inside,eq⟩ := filled one i first
  obtain ⟨place',inside',equal'⟩ := filled ne j two
  rw [eq,equal'] at apart ⊢
  exact frame_apart r inside inside' fun same => apart (congrArg r.frame same)

end

end

lemma copyMoves_pairwise (injective : Injective new) :
    (copyMoves new old).Pairwise fun x y => Apart pageSize x.1 y.1 := by
  unfold copyMoves
  rw [List.pairwise_flatMap]
  constructor
  · intro segment _
    rw [List.pairwise_map]
    refine List.Pairwise.imp_of_mem ?_ List.pairwise_lt_range
    intro i j one two less
    exact injective segment segment i (List.mem_range.mp one) j (List.mem_range.mp two) (.inr (ne_of_lt less))
  have ne : segments.Pairwise (· ≠ ·) := by simp [segments]
  refine ne.imp ?_
  intro segment other distinct x one y two
  obtain ⟨i,range,rfl⟩ := List.mem_map.mp one
  obtain ⟨j,bound,rfl⟩ := List.mem_map.mp two
  exact injective segment other i (List.mem_range.mp range) j (List.mem_range.mp bound) (.inl distinct)

lemma copy_copies (injective : Injective new) (sep : Separate new old)
    (pages : old.npages = new.npages) (memory : Memory) (lt : i < new.npages segment) (inside : offset < pageSize) :
    copyRegions new old memory (new.entry segment i+offset) = memory (old.entry segment i+offset) := by
  apply moveAll_inside memory (copyMoves_pairwise injective)
  · intro x one y two
    obtain ⟨s,j,range,rfl⟩ := mem_copyMoves.mp one
    obtain ⟨t,k,bound,rfl⟩ := mem_copyMoves.mp two
    exact sep s t j range k (by rw [pages]; exact bound)
  · exact mem_copyMoves.mpr ⟨segment,i,lt,rfl⟩
  · exact inside

section
variable {r : Ram} {s : State} {parts : Nat → Part → Option Block} {store : r.Blocks Owner}

lemma entry_held (accounted : AccountedBy r s parts store)
    (at_ : s.spaces k = .prepared as) (lt : i < as.npages segment) :
    store.holds (.space k (.entry segment i)) = some ⟨r.index (as.entry segment i),1⟩ := by
  obtain ⟨table,here⟩ := ne_none_iff_exists'.mp (accounted.tables k as at_ segment)
  rw [accounted.prepared at_,part,if_pos lt,here,AddrSpace.entry,here]
  rfl

section
variable (accounted : AccountedBy r s parts store)
include accounted

lemma entries_apart (one : s.spaces k = .prepared as) (two : s.spaces m = .prepared bs) (filled : Filled r as)
    (filledToo : Filled r bs) (lt : i < as.npages segment) (bound : j < bs.npages other)
    (ne : Owner.space k (.entry segment i) ≠ .space m (.entry other j)) :
    Apart pageSize (as.entry segment i) (bs.entry other j) := by
  obtain ⟨start,inside,eq⟩ := filled segment i lt
  obtain ⟨place,le,same⟩ := filledToo other j bound
  have here := entry_held accounted one lt
  have hit := entry_held accounted two bound
  rw [eq,r.index_frame inside] at here
  rw [same,r.index_frame le] at hit
  rw [eq,same]
  refine frame_apart r inside le fun shared => ne ?_
  subst shared
  exact store.apart _ _ _ _ start here hit (covers_iff.mpr (by omega)) (covers_iff.mpr (by omega))

lemma spaces_separate (one : s.spaces k = .prepared as) (two : s.spaces m = .prepared bs)
    (filled : Filled r as) (filledToo : Filled r bs) (ne : k ≠ m) : Separate as bs :=
  fun segment other i lt j bound =>
    entries_apart accounted one two filled filledToo lt bound (fun eq => ne (by cases eq; rfl))

lemma space_injective (at_ : s.spaces k = .prepared as) (filled : Filled r as) : Injective as :=
  fun segment ne i lt j bound distinct =>
    entries_apart accounted at_ at_ filled filled lt bound (fun eq => by
      cases eq
      exact distinct.elim (fun h => h rfl) (fun h => h rfl))

lemma scrapped_same (at_ : s.spaces k = .prepared as) (filled : Filled r as) (scrap memory : Memory) :
    Same as memory (scrapped r s.coremap scrap memory) := by
  intro segment i lt offset inside
  obtain ⟨start,bound,eq⟩ := filled segment i lt
  have held := entry_held accounted at_ lt
  rw [eq,r.index_frame bound] at held
  have used : (s.coremap start).used := accounted.represents.used_iff.mpr (.inr ⟨_,_,held,covers_iff.mpr (by omega)⟩)
  unfold scrapped
  rw [eq,index_inside r bound inside,used]
  rfl

end

end
end ToyOS.FrameMemory

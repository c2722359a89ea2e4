import ToyOS.SpaceFrames

namespace ToyOS.StoppedLoad
open Function UserSpace BlockStore Coremap SpaceFrames Option

def allocAll (r : Ram) : Entries → List Nat → Option Entries
  | coremap,[] => some coremap
  | coremap,npages :: rest => match coremapAlloc r coremap npages with
      | (coremap,pa) => if pa = 0 then none else allocAll r coremap rest

-- The coremap_alloc calls of as_prepare_load, in their order.
def requests (npages : Segment → Nat) : List Nat :=
  [pagetablePages (npages .text)]++([pagetablePages (npages .data)] ++
    ([pagetablePages (npages .stack)]++(List.replicate (npages .text) 1 ++
      (List.replicate (npages .data) 1++List.replicate (npages .stack) 1))))

def Fits (r : Ram) (coremap : Entries) (old : AddrSpace) : Prop :=
  allocAll r coremap (requests old.npages) ≠ none

instance : Decidable (Fits r coremap old) :=
  decidable_of_iff ((allocAll r coremap (requests old.npages)).isSome = true) (by
    rw [Option.isSome_iff_ne_none,Fits])

lemma allocAll_append (r : Ram) (coremap : Entries) (one second : List Nat) :
    allocAll r coremap (one++second) = (allocAll r coremap one).bind (allocAll r · second) := by
  induction one generalizing coremap with
  | nil => rfl
  | cons npages rest ih =>
    simp only [List.cons_append,allocAll]
    split
    · rfl
    · exact ih _

def Serves (r : Ram) (loader : Loader) (wanted : (Segment → Nat) → List Nat) : Prop :=
  ∀ l, match loader l with
    | .ok _ next => allocAll r l.coremap (wanted l.space.npages) = some next.coremap ∧
        next.space.npages = l.space.npages
    | .error _ _ => allocAll r l.coremap (wanted l.space.npages) = none

lemma Serves.bind (one : Serves r first wanted) (two : Serves r second later) :
    Serves r (first >>= fun _ => second) (fun npages => wanted npages++later npages) := by
  intro l
  have start := one l
  change match EStateM.bind first (fun _ => second) l with | .ok _ next => _ | .error _ _ => _
  unfold EStateM.bind
  cases ran : first l with
  | error errno mid =>
    simp only [ran] at start ⊢
    rw [allocAll_append,start,bind_none]
  | ok value mid =>
    simp only [ran] at start ⊢
    have rest := two mid
    rw [start.2] at rest
    cases continued : second mid with
    | error errno next =>
      simp only [continued] at rest ⊢
      rw [allocAll_append,start.1,bind_some,rest]
    | ok value next =>
      simp only [continued] at rest ⊢
      rw [allocAll_append,start.1,bind_some]
      exact rest

lemma coremapAlloc_address (res : coremapAlloc r coremap npages = (after,pa)) :
    pa = 0 ∨ ∃ start < r.numOfPages, pa = r.frame start := by
  unfold coremapAlloc at res
  split at res
  · cases res
    exact .inl rfl
  rename_i start hit
  cases res
  obtain ⟨le,_⟩ := firstFit_sound hit le_rfl (fun j above lt => absurd lt (by omega))
  rw [Nat.add_sub_cancel' r.numOfCoremapPages_le] at le
  obtain ⟨_,pos,last⟩ := within_iff.mp le
  exact .inr ⟨start,by omega,rfl⟩

lemma mapTable_serves (inst : r.Installed) (segment : Segment) (junk : Nat → Nat) :
    Serves r (mapTable r segment junk) fun npages => [pagetablePages (npages segment)] := by
  intro l
  cases res : coremapAlloc r l.coremap (pagetablePages (l.space.npages segment)) with
  | mk coremap pa =>
    have whole : pagetableAlloc r l.coremap (l.space.npages segment) =
        (coremap,if pa = 0 then 0 else paddrToKvaddr pa) := by
      rw [pagetableAlloc,allocKpages,res]
    rw [mapTable,whole]
    simp only [allocAll,res]
    rcases coremapAlloc_address res with rfl | ⟨start,inside,rfl⟩
    · simp
    by_cases zero : r.frame start = 0
    · simp [zero]
    · simp [zero,r.kvaddr_ne_zero inst inside]

lemma writeEntry_npages (as : AddrSpace) (segment : Segment) (i paddr : Nat) :
    (writeEntry as segment i paddr).npages = as.npages := by
  unfold writeEntry
  split
  · rfl
  · rw [AddrSpace.setTable_npages]

lemma mapFrame_serves (r : Ram) (segment : Segment) (i : Nat) : Serves r (mapFrame r segment i) fun _ => [1] := by
  intro l
  cases res : coremapAlloc r l.coremap 1 with
  | mk coremap pa =>
    rw [mapFrame,res]
    simp only [allocAll,res]
    by_cases zero : pa = 0
    · simp [zero]
    · simp [zero,writeEntry_npages]

lemma mapFrames_serves (r : Ram) (segment : Segment) (i left : Nat) :
    Serves r (mapFrames r segment i left) fun _ => List.replicate left 1 := by
  induction left generalizing i with
  | zero => exact fun l => ⟨rfl,rfl⟩
  | succ left ih => exact (mapFrame_serves r segment i).bind (ih (i+1))

lemma mapSegment_serves (r : Ram) (segment : Segment) :
    Serves r (mapSegment r segment) fun npages => List.replicate (npages segment) 1 :=
  fun l => mapFrames_serves r segment 0 (l.space.npages segment) l

lemma loadSpace_serves (inst : r.Installed) (junk : Segment → Nat → Nat) : Serves r (loadSpace r junk) requests :=
  (mapTable_serves inst .text _).bind <| (mapTable_serves inst .data _).bind <|
    (mapTable_serves inst .stack _).bind <| (mapSegment_serves r .text).bind <|
    (mapSegment_serves r .data).bind (mapSegment_serves r .stack)

lemma bind_error {one second : Loader} (bad : (one >>= fun _ => second) l = .error errno next) :
    one l = .error errno next ∨ ∃ mid, one l = .ok () mid ∧ second mid = .error errno next := by
  change EStateM.bind one (fun _ => second) l = _ at bad
  unfold EStateM.bind at bad
  split at bad
  · rename_i mid finished
    exact .inr ⟨mid,finished,bad⟩
  rename_i stop
  exact .inl (stop.trans bad)

-- An entry was still 0 when the load stopped, so as_destroy hands address 0 to free_kpages.
def Unfinished (as : AddrSpace) : Prop :=
  ∃ segment, ∃ i < as.npages segment, ∀ table, as.table segment = some table → table.paddr i = 0

variable {segment : Segment}

lemma mapTable_error (bad : mapTable r segment junk l = .error errno next) : next.space = l.space := by
  unfold mapTable at bad
  split at bad
  split at bad
  · cases bad
    rfl
  · cases bad

lemma mapTable_ok (done : mapTable r segment junk l = .ok () next) :
    ∃ table, next.space = l.space.setTable segment table := by
  unfold mapTable at done
  split at done
  split at done
  · cases done
  cases done
  exact ⟨_,rfl⟩

lemma noStack_unfinished {as : AddrSpace} (miss : as.table .stack = none) : Unfinished as :=
  ⟨.stack,0,by simp [AddrSpace.npages,dumbvmStackpages],fun table here => by
    rw [miss] at here
    cases here⟩

lemma writeEntry_table (here : (writeEntry as segment i paddr).table segment = some table) : table.paddr i = paddr := by
  unfold writeEntry at here
  split at here
  · rename_i miss
    rw [miss] at here
    cases here
  simp only [AddrSpace.setTable_table,update_self,some.injEq] at here
  rw [←here]
  exact update_self ..

lemma mapFrames_unfinished (le : i+left ≤ l.space.npages segment)
    (bad : mapFrames r segment i left l = .error errno next) : Unfinished next.space := by
  induction left generalizing i l with
  | zero => cases bad
  | succ left ih =>
    have eq := mapFrame_serves r segment i l
    rcases bind_error bad with here | ⟨mid,done,later⟩
    · refine ⟨segment,i,?_,fun table present => ?_⟩
      all_goals
        unfold mapFrame at here
        split at here
        split at here
      · cases here
        rw [writeEntry_npages]
        omega
      · cases here
      · rename_i zero
        cases here
        exact (writeEntry_table present).trans zero
      · cases here
    simp only [done] at eq
    exact ih (by rw [eq.2]; omega) later

lemma mapSegment_unfinished (bad : mapSegment r segment l = .error errno next) : Unfinished next.space :=
  mapFrames_unfinished (by omega)
    (show mapFrames r segment 0 (l.space.npages segment) l = .error errno next from bad)

lemma loadSpace_unfinished (miss : ∀ segment, l.space.table segment = none)
    (bad : loadSpace r junk l = .error errno next) : Unfinished next.space := by
  rcases bind_error bad with bad | ⟨l1,text,bad⟩
  · exact noStack_unfinished (by rw [mapTable_error bad,miss])
  obtain ⟨table1,space1⟩ := mapTable_ok text
  rcases bind_error bad with bad | ⟨l2,data,bad⟩
  · exact noStack_unfinished (by rw [mapTable_error bad,space1]; simp [miss])
  obtain ⟨table2,space2⟩ := mapTable_ok data
  rcases bind_error bad with bad | ⟨l3,stack,bad⟩
  · exact noStack_unfinished (by rw [mapTable_error bad,space2,space1]; simp [miss])
  rcases bind_error bad with bad | ⟨l4,_,bad⟩
  · exact mapSegment_unfinished bad
  rcases bind_error bad with bad | ⟨l5,_,bad⟩
  · exact mapSegment_unfinished bad
  · exact mapSegment_unfinished bad

lemma freeKpages_zero (r : Ram) (kernel : 0 < r.firstaddr) (coremap : Entries) :
    freeKpages r coremap (paddrToKvaddr 0) = none := by
  have beyond : ¬ r.index 0 < r.numOfPages := by
    have bounded := r.bounded
    have wrapped : sub32 0 r.firstaddr = 2^32-r.firstaddr := by
      unfold sub32 wrap
      omega
    rw [Ram.index,wrapped,Ram.numOfPages,not_lt]
    exact Nat.div_le_div_right (by omega)
  unfold freeKpages coremapDealloc
  rw [r.index_kvaddr]
  exact if_neg fun fits => beyond fits.1

lemma freeFrames_unfinished (kernel : 0 < r.firstaddr) (range : i ≤ j ∧ j < i+left)
    (zero : ∀ entries, table = some entries → entries.paddr j = 0) (coremap : Entries) :
    freeFrames r table i left coremap = none := by
  induction left generalizing i coremap with
  | zero => omega
  | succ left ih =>
    cases table with
    | none => rfl
    | some entries =>
      simp only [freeFrames,bind_eq_bind,bind_some]
      rcases Nat.eq_or_lt_of_le range.1 with rfl | later
      · rw [zero entries rfl,freeKpages_zero r kernel,bind_none]
      cases freeKpages r coremap (paddrToKvaddr (entries.paddr i)) with
      | none => rfl
      | some next =>
        rw [bind_some]
        exact ih (by omega) next

lemma asDestroy_unfinished (kernel : 0 < r.firstaddr) (unfinished : Unfinished as)
    (coremap : Entries) : asDestroy r coremap as = none := by
  obtain ⟨segment,i,lt,zero⟩ := unfinished
  have stops : ∀ coremap, freeFrames r (as.table segment) 0 (as.npages segment) coremap = none :=
    freeFrames_unfinished kernel (by omega) zero
  cases segment <;> simp only [AddrSpace.table,AddrSpace.npages] at stops <;>
    simp only [asDestroy,bind_eq_bind,stops,bind_none,bind_fun_none]

lemma asPrepareLoad_unfinished (bad : asPrepareLoad r junk coremap as = some (.error errno l)) :
    Unfinished l.space := by
  obtain ⟨miss,ran⟩ := asPrepareLoad_some bad
  exact loadSpace_unfinished miss ran

section
variable {r : Ram} {base : Owner → Option Block} {mapped : Segment → Nat} {l next : Load}
  {store : r.Blocks Owner} {k : Nat} {segment : Segment}

lemma mapTable_stopped (inst : r.Installed) (loading : Loading r base k mapped l store)
    (miss : l.space.table segment = none) (bad : mapTable r segment junk l = .error errno next) : next = l := by
  have fresh : store.holds (.space k (.table segment)) = none := by
    rw [loading.holds,overlay_self,part,miss]
    rfl
  cases res : pagetableAlloc r l.coremap (l.space.npages segment) with
  | mk coremap block =>
    rw [mapTable,res] at bad
    simp only at bad
    rcases allocKpages_cases inst loading.represents fresh res with
      ⟨rfl,rfl⟩ | ⟨_,_,nz,_⟩
    · cases bad
      rfl
    rw [if_neg nz] at bad
    cases bad

-- The failing allocation still writes its 0 into the page table.
lemma part_writeEntry_beyond (r : Ram) (as : AddrSpace) {mapped : Segment → Nat}
    (beyond : mapped segment ≤ i) : part r (writeEntry as segment i paddr) mapped = part r as mapped := by
  unfold writeEntry
  split
  · rfl
  rename_i table here
  funext p
  cases p with
  | entry other j =>
    rcases eq_or_ne other segment with rfl | ne
    · by_cases lt : j < mapped other
      · have distinct : j ≠ i := by omega
        simp [part,lt,here,distinct]
      · simp [part,lt]
    · simp [part,ne]
  | table other =>
    rcases eq_or_ne other segment with rfl | ne
    · simp [part,here]
    · simp [part,ne]

section
variable (loading : Loading r base k mapped l store)
include loading

lemma mapFrame_stopped (reached : mapped segment = i) (bad : mapFrame r segment i l = .error errno next) :
    Loading r base k mapped next store := by
  have fresh : store.holds (.space k (.entry segment i)) = none := by
    rw [loading.holds,overlay_self,part,reached,if_neg (lt_irrefl i)]
  cases res : coremapAlloc r l.coremap 1 with
  | mk coremap paddr =>
    rw [mapFrame,res] at bad
    simp only at bad
    rcases coremapAlloc_cases loading.represents fresh res with
      ⟨rfl,rfl⟩ | ⟨start,le,_,rfl,_⟩
    · cases bad
      refine ⟨loading.represents,?_⟩
      rw [part_writeEntry_beyond r l.space (le_of_eq reached)]
      exact loading.holds
    obtain ⟨above,pos,last⟩ := within_iff.mp le
    rw [if_neg (r.frame_ne_zero above (by omega))] at bad
    cases bad

lemma mapFrames_stopped (present : l.space.table segment ≠ none) (reached : mapped segment = i)
    (bad : mapFrames r segment i left l = .error errno next) : ∃ mapped store, Loading r base k mapped next store := by
  induction left generalizing i l mapped store with
  | zero => cases bad
  | succ left ih =>
    rcases bind_error bad with here | ⟨mid,one,later⟩
    · exact ⟨mapped,store,mapFrame_stopped loading reached here⟩
    obtain ⟨table,some_⟩ := ne_none_iff_exists'.mp present
    obtain ⟨⟨stored,advanced⟩,_,changed⟩ := mapFrame_loading loading some_ reached one
    exact ih advanced ((kept_setTable changed).tables segment present) (update_self ..) later

lemma mapSegment_stopped (here : l.space.table segment ≠ none) (none_ : mapped segment = 0)
    (bad : mapSegment r segment l = .error errno next) : ∃ mapped store, Loading r base k mapped next store :=
  mapFrames_stopped loading here none_
    (show mapFrames r segment 0 (l.space.npages segment) l = .error errno next from bad)

end

lemma loadSpace_stopped (inst : r.Installed) (loading : Loading r base k (fun _ => 0) l store)
    (miss : ∀ segment, l.space.table segment = none) (bad : loadSpace r junk l = .error errno next) :
    ∃ mapped store, Loading r base k mapped next store := by
  rcases bind_error bad with bad | ⟨l1,text,bad⟩
  · exact ⟨_,store,mapTable_stopped inst loading (miss _) bad ▸ loading⟩
  obtain ⟨⟨s1,loading1⟩,table1,space1⟩ := mapTable_loading inst loading (miss _) rfl text
  have absent2 : l1.space.table .data = none := by simp [space1,miss]
  rcases bind_error bad with bad | ⟨l2,data,bad⟩
  · exact ⟨_,s1,mapTable_stopped inst loading1 absent2 bad ▸ loading1⟩
  obtain ⟨⟨s2,loading2⟩,table2,space2⟩ := mapTable_loading inst loading1 absent2 rfl data
  have absent3 : l2.space.table .stack = none := by simp [space2,space1,miss]
  rcases bind_error bad with bad | ⟨l3,stack,bad⟩
  · exact ⟨_,s2,mapTable_stopped inst loading2 absent3 bad ▸ loading2⟩
  obtain ⟨⟨s3,loading3⟩,table3,space3⟩ := mapTable_loading inst loading2 absent3 rfl stack
  have here : ∀ segment, l3.space.table segment ≠ none := by
    intro segment
    cases segment <;> simp [space3,space2,space1]
  rcases bind_error bad with bad | ⟨l4,textFrames,bad⟩
  · exact mapSegment_stopped loading3 (here _) rfl bad
  obtain ⟨⟨s4,loading4⟩,kept4⟩ := mapSegment_loading loading3 (here _) rfl textFrames
  rcases bind_error bad with bad | ⟨l5,dataFrames,bad⟩
  · exact mapSegment_stopped loading4 (kept4.tables _ (here _)) (by simp) bad
  obtain ⟨⟨s5,loading5⟩,kept5⟩ := mapSegment_loading loading4 (kept4.tables _ (here _)) (by simp) dataFrames
  exact mapSegment_stopped loading5 (kept5.tables _ (kept4.tables _ (here _))) (by simp) bad

lemma asPrepareLoad_stopped (inst : r.Installed) (rep : Represents r coremap store)
    (nothing : ∀ p, store.holds (.space k p) = none)
    (bad : asPrepareLoad r junk coremap as = some (.error errno next)) :
    ∃ mapped, ∃ after : r.Blocks Owner, Represents r next.coremap after ∧
      after.holds = overlay store.holds k (part r next.space mapped) := by
  obtain ⟨miss,ran⟩ := asPrepareLoad_some bad
  obtain ⟨mapped,after,stop⟩ := loadSpace_stopped inst (unset_loading rep nothing miss) miss ran
  exact ⟨mapped,after,stop.represents,stop.holds⟩

end

def unloaded (old : AddrSpace) : AddrSpace :=
  {asCreate with
    asVbase1 := old.asVbase1,asNpages1 := old.asNpages1
    asVbase2 := old.asVbase2,asNpages2 := old.asNpages2}

lemma unloaded_npages (old : AddrSpace) : (unloaded old).npages = old.npages := by
  funext segment
  cases segment <;> rfl

lemma asPrepareLoad_cases {as : AddrSpace} (inst : r.Installed)
    (miss : ∀ segment, as.table segment = none) (junk : Segment → Nat → Nat) (coremap : Entries) :
    (Fits r coremap as ∧ ∃ l, asPrepareLoad r junk coremap as = some (.ok () l)) ∨
    (¬ Fits r coremap as ∧ ∃ errno l, asPrepareLoad r junk coremap as = some (.error errno l)) := by
  have prep : asPrepareLoad r junk coremap as = some (loadSpace r junk ⟨coremap,as⟩) :=
    if_pos ⟨isNone_iff_eq_none.mpr (miss .text),isNone_iff_eq_none.mpr (miss .data),
      isNone_iff_eq_none.mpr (miss .stack)⟩
  have served := loadSpace_serves inst junk ⟨coremap,as⟩
  cases ran : loadSpace r junk ⟨coremap,as⟩ with
  | ok value l =>
    rw [ran] at served prep
    refine .inl ⟨?_,l,prep⟩
    rw [Fits,served.1]
    exact some_ne_none _
  | error errno l =>
    rw [ran] at served prep
    exact .inr ⟨not_not.mpr served,errno,l,prep⟩

lemma asCopy_cases (inst : r.Installed) (kernel : 0 < r.firstaddr) (junk : Segment → Nat → Nat) (coremap : Entries)
    (old : AddrSpace) : (Fits r coremap old ∧ ∃ l, asPrepareLoad r junk coremap (unloaded old) = some (.ok () l) ∧
      asCopy r junk coremap old = some (l.coremap,.ok l.space)) ∨
    (¬ Fits r coremap old ∧ asCopy r junk coremap old = none) := by
  have eq : Fits r coremap (unloaded old) ↔ Fits r coremap old := by rw [Fits,Fits,unloaded_npages]
  have miss : ∀ segment, (unloaded old).table segment = none := fun segment => by cases segment <;> rfl
  rcases asPrepareLoad_cases inst miss junk coremap with ⟨fits,l,done⟩ | ⟨full,errno,l,bad⟩
  · exact .inl ⟨eq.mp fits,l,done,by rw [asCopy,←unloaded,done]⟩
  refine .inr ⟨fun fits => full (eq.mpr fits),?_⟩
  rw [asCopy,←unloaded,bad]
  simp only
  rw [asDestroy_unfinished kernel (asPrepareLoad_unfinished bad),map_none]
end ToyOS.StoppedLoad

import ToyOS.Coremap

namespace ToyOS.UserSpace

def AddrSpace.setTable (as : AddrSpace) (segment : Segment) (table : PageTable) : AddrSpace :=
  match segment with
  | .text => {as with pagePbase1 := some table}
  | .data => {as with pagePbase2 := some table}
  | .stack => {as with pageStackpbase := some table}

@[simp] lemma AddrSpace.setTable_npages (as : AddrSpace) (segment : Segment)
    (table : PageTable) : (as.setTable segment table).npages = as.npages := by
  cases segment <;> (funext other; cases other <;> rfl)

@[simp] lemma AddrSpace.setTable_table (as : AddrSpace) (segment : Segment) (table : PageTable) :
    (as.setTable segment table).table = Function.update as.table segment (some table) := by
  funext other
  cases segment <;> cases other <;> rfl
end ToyOS.UserSpace

namespace ToyOS.SpaceFrames
open Function UserSpace BlockStore Coremap Nat Option

-- What as_prepare_load works on. It may stop with an error at any allocation and leaves what it has done.
structure Load where
  coremap : Entries
  space : AddrSpace

abbrev Loader := EStateM Errno Load Unit
def sizeofPagetableEntry : Nat := 4

def pagetablePages (npages : Nat) : Nat :=
  roundup (wrap (npages*sizeofPagetableEntry)) pageSize / pageSize

def pagetableAlloc (r : Ram) (coremap : Entries) (npages : Nat) : Entries × Nat :=
  allocKpages r coremap (pagetablePages npages)

def mapTable (r : Ram) (segment : Segment) (junk : Nat → Nat) : Loader := fun l =>
  match pagetableAlloc r l.coremap (l.space.npages segment) with
  | (coremap,block) =>
    if block = 0 then .error .enomem {l with coremap}
    else .ok () ⟨coremap,l.space.setTable segment ⟨block,junk⟩⟩

def writeEntry (as : AddrSpace) (segment : Segment) (i paddr : Nat) : AddrSpace :=
  match as.table segment with
  | none => as
  | some table => as.setTable segment {table with paddr := update table.paddr i paddr}

def mapFrame (r : Ram) (segment : Segment) (i : Nat) : Loader := fun l =>
  match coremapAlloc r l.coremap 1 with
  | (coremap,paddr) =>
    if paddr = 0 then .error .enomem ⟨coremap,writeEntry l.space segment i paddr⟩
    else .ok () ⟨coremap,writeEntry l.space segment i paddr⟩

def mapFrames (r : Ram) (segment : Segment) : Nat → Nat → Loader
  | _,0 => pure ()
  | i,remaining+1 => do
      mapFrame r segment i
      mapFrames r segment (i+1) remaining

def mapSegment (r : Ram) (segment : Segment) : Loader := do
  let l ← get
  mapFrames r segment 0 (l.space.npages segment)

def loadSpace (r : Ram) (junk : Segment → Nat → Nat) : Loader := do
  mapTable r .text (junk .text)
  mapTable r .data (junk .data)
  mapTable r .stack (junk .stack)
  mapSegment r .text
  mapSegment r .data
  mapSegment r .stack

def asPrepareLoad (r : Ram) (junk : Segment → Nat → Nat) (coremap : Entries) (as : AddrSpace) :
    Option (EStateM.Result Errno Load Unit) :=
  if as.pagePbase1.isNone ∧ as.pagePbase2.isNone ∧ as.pageStackpbase.isNone then
    some (loadSpace r junk ⟨coremap,as⟩)
  else none

def freeFrames (r : Ram) (table : Option PageTable) : Nat → Nat → Entries → Option Entries
  | _,0,coremap => some coremap
  | i,remaining+1,coremap => do
      let entries ← table
      let coremap ← freeKpages r coremap (paddrToKvaddr (entries.paddr i))
      freeFrames r table (i+1) remaining coremap

def tableAddr : Option PageTable → Nat
  | none => 0
  | some table => table.block

def asDestroy (r : Ram) (coremap : Entries) (as : AddrSpace) : Option Entries := do
  let coremap ← freeFrames r as.pagePbase1 0 as.asNpages1 coremap
  let coremap ← freeFrames r as.pagePbase2 0 as.asNpages2 coremap
  let coremap ← freeFrames r as.pageStackpbase 0 dumbvmStackpages coremap
  let coremap ← freeKpages r coremap (tableAddr as.pagePbase1)
  let coremap ← freeKpages r coremap (tableAddr as.pagePbase2)
  freeKpages r coremap (tableAddr as.pageStackpbase)

def asCopy (r : Ram) (junk : Segment → Nat → Nat) (coremap : Entries) (old : AddrSpace) :
    Option (Entries × Except Errno AddrSpace) :=
  let new := {asCreate with
    asVbase1 := old.asVbase1,asNpages1 := old.asNpages1
    asVbase2 := old.asVbase2,asNpages2 := old.asNpages2}
  match asPrepareLoad r junk coremap new with
  | none => none
  | some (.error _ l) => (asDestroy r l.coremap l.space).map fun coremap => (coremap,.error .enomem)
  | some (.ok _ l) => some (l.coremap,.ok l.space)

-- Who a frame belongs to: a page table of an address space, an entry of one, or a block of the kernel.
inductive Part where
  | entry (segment : Segment) (i : Nat)
  | table (segment : Segment)
  deriving DecidableEq

inductive Owner where
  | space (k : Nat) (part : Part)
  | kernel (ticket : Nat)
  deriving DecidableEq

def part (r : Ram) (as : AddrSpace) (mapped : Segment → Nat) : Part → Option Block
  | .entry segment i =>
    if i < mapped segment then
      (as.table segment).map fun table => ⟨r.index (table.paddr i),1⟩
    else none
  | .table segment => (as.table segment).map fun table =>
    ⟨r.index (kvaddrToPaddr table.block),pagetablePages (as.npages segment)⟩

def overlay (base : Owner → Option Block) (k : Nat) (parts : Part → Option Block) :
    Owner → Option Block
  | .space other p => if other = k then parts p else base (.space other p)
  | .kernel ticket => base (.kernel ticket)

lemma overlay_self (base : Owner → Option Block) (k : Nat) (parts : Part → Option Block)
    (p : Part) : overlay base k parts (.space k p) = parts p := if_pos rfl

lemma overlay_other (ne : other ≠ k) : overlay base k parts (.space other p) = base (.space other p) := if_neg ne

lemma overlay_same (eq : ∀ p, base (.space k p) = parts p) : overlay base k parts = base := by
  funext o
  cases o with
  | kernel ticket => rfl
  | space other p =>
    rcases eq_or_ne other k with rfl | ne
    · rw [overlay_self,eq]
    · exact overlay_other ne

lemma overlay_update (base : Owner → Option Block) (k : Nat) (parts : Part → Option Block)
    (p : Part) (value : Option Block) :
    update (overlay base k parts) (.space k p) value = overlay base k (update parts p value) := by
  funext o
  rcases eq_or_ne o (.space k p) with rfl | other
  · rw [update_self,overlay_self,update_self]
  rw [update_of_ne other]
  cases o with
  | kernel ticket => rfl
  | space j q =>
    rcases eq_or_ne j k with rfl | ne
    · have distinct : q ≠ p := fun eq => other (by rw [eq])
      rw [overlay_self,overlay_self,update_of_ne distinct]
    · rw [overlay_other ne,overlay_other ne]

-- A load under way for the address space `k`: `base` is what everyone else holds.
structure Loading (r : Ram) (base : Owner → Option Block) (k : Nat) (mapped : Segment → Nat)
    (l : Load) (store : r.Blocks Owner) : Prop where
  represents : Represents r l.coremap store
  holds : store.holds = overlay base k (part r l.space mapped)

lemma part_setTable {as : AddrSpace} {segment : Segment} (none_ : mapped segment = 0) :
    part r (as.setTable segment table) mapped = update (part r as mapped) (.table segment)
      (some ⟨r.index (kvaddrToPaddr table.block),pagetablePages (as.npages segment)⟩) := by
  funext p
  cases p with
  | entry other i =>
    rw [update_of_ne (by simp)]
    rcases eq_or_ne other segment with rfl | ne
    · simp [part,none_]
    · simp [part,ne]
  | table other =>
    rcases eq_or_ne other segment with rfl | ne
    · simp [part]
    rw [update_of_ne (by simpa using ne)]
    simp [part,ne]

lemma part_writeEntry {as : AddrSpace} {segment : Segment} (here : as.table segment = some table)
    (reached : mapped segment = i) : part r (writeEntry as segment i paddr) (update mapped segment (i+1)) =
      update (part r as mapped) (.entry segment i) (some ⟨r.index paddr,1⟩) := by
  have written : writeEntry as segment i paddr =
      as.setTable segment {table with paddr := update table.paddr i paddr} := by
    rw [writeEntry,here]
  funext p
  rw [written]
  cases p with
  | entry other j =>
    rcases eq_or_ne other segment with rfl | ne
    · rcases eq_or_ne j i with rfl | distinct
      · simp [part]
      rw [update_of_ne (by simpa using distinct)]
      have order : j < i+1 ↔ j < i := by omega
      simp [part,here,reached,order,distinct]
    rw [update_of_ne (by simp [ne])]
    simp [part,ne]
  | table other =>
    rw [update_of_ne (by simp)]
    rcases eq_or_ne other segment with rfl | ne
    · simp [part,here]
    · simp [part,ne]

section
variable {r : Ram} {base : Owner → Option Block} {mapped : Segment → Nat} {l next : Load}
  {store : r.Blocks Owner} {k : Nat} {segment : Segment}

lemma mapTable_loading (inst : r.Installed) (loading : Loading r base k mapped l store)
    (miss : l.space.table segment = none) (none_ : mapped segment = 0)
    (done : mapTable r segment junk l = .ok () next) : (∃ store, Loading r base k mapped next store) ∧
      ∃ table, next.space = l.space.setTable segment table := by
  have fresh : store.holds (.space k (.table segment)) = none := by
    rw [loading.holds,overlay_self,part,miss]
    rfl
  cases res : pagetableAlloc r l.coremap (l.space.npages segment) with
  | mk coremap block =>
    rw [mapTable,res] at done
    simp only at done
    rcases allocKpages_cases inst loading.represents fresh res with
      ⟨rfl,_⟩ | ⟨le,vacant,nz,added⟩
    · cases done
    rw [if_neg nz] at done
    cases done
    refine ⟨⟨_,added,?_⟩,_,rfl⟩
    rw [Store.add_holds,loading.holds,overlay_update,part_setTable none_]

lemma mapFrame_loading (loading : Loading r base k mapped l store) (here : l.space.table segment = some table)
    (reached : mapped segment = i) (done : mapFrame r segment i l = .ok () next) :
    (∃ store, Loading r base k (update mapped segment (i+1)) next store) ∧
      ∃ table, next.space = l.space.setTable segment table := by
  have fresh : store.holds (.space k (.entry segment i)) = none := by
    rw [loading.holds,overlay_self,part,reached,if_neg (lt_irrefl i)]
  cases res : coremapAlloc r l.coremap 1 with
  | mk coremap paddr =>
    rw [mapFrame,res] at done
    simp only at done
    rcases coremapAlloc_cases loading.represents fresh res with
      ⟨rfl,_⟩ | ⟨start,le,vacant,rfl,added⟩
    · cases done
    obtain ⟨above,pos,last⟩ := within_iff.mp le
    have lt : start < r.numOfPages := by omega
    rw [if_neg (r.frame_ne_zero above lt)] at done
    cases done
    refine ⟨⟨_,added,?_⟩,_,by rw [writeEntry,here]⟩
    rw [Store.add_holds,loading.holds,overlay_update,part_writeEntry here reached,r.index_frame lt]

lemma bind_ok {one second : Loader} (done : (one >>= fun _ => second) l = .ok () next) :
    ∃ mid, one l = .ok () mid ∧ second mid = .ok () next := by
  change EStateM.bind one (fun _ => second) l = _ at done
  unfold EStateM.bind at done
  split at done
  · rename_i mid finished
    exact ⟨mid,finished,done⟩
  · cases done

-- What a stage of the load keeps of the address space.
structure Kept (l next : Load) : Prop where
  npages : next.space.npages = l.space.npages
  tables : ∀ segment, l.space.table segment ≠ none → next.space.table segment ≠ none

lemma Kept.trans (one : Kept l middle) (two : Kept middle next) : Kept l next :=
  ⟨two.npages.trans one.npages,fun segment here => two.tables segment (one.tables segment here)⟩

lemma kept_setTable (eq : next.space = l.space.setTable segment table) : Kept l next := by
  refine ⟨by rw [eq,AddrSpace.setTable_npages],fun other here => ?_⟩
  rw [eq,AddrSpace.setTable_table]
  rcases eq_or_ne other segment with rfl | ne
  · rw [update_self]
    exact some_ne_none _
  rw [update_of_ne ne]
  exact here

lemma mapFrames_loading (loading : Loading r base k mapped l store) (here : l.space.table segment ≠ none)
    (reached : mapped segment = i) (done : mapFrames r segment i left l = .ok () next) :
    (∃ store, Loading r base k (update mapped segment (i+left)) next store) ∧ Kept l next := by
  induction left generalizing i l mapped store with
  | zero =>
    cases done
    refine ⟨⟨store,?_⟩,rfl,fun _ here => here⟩
    rwa [add_zero,←reached,update_eq_self]
  | succ left ih =>
    obtain ⟨mid,one,rest⟩ := bind_ok done
    obtain ⟨table,some_⟩ := ne_none_iff_exists'.mp here
    obtain ⟨⟨stored,advanced⟩,_,changed⟩ := mapFrame_loading loading some_ reached one
    have kept := kept_setTable changed
    obtain ⟨⟨final,finished⟩,more⟩ := ih advanced (kept.tables segment here) (update_self ..) rest
    refine ⟨⟨final,?_⟩,kept.trans more⟩
    rw [update_idem] at finished
    rwa [add_assoc,add_comm 1 left] at finished

lemma mapSegment_loading (loading : Loading r base k mapped l store) (here : l.space.table segment ≠ none)
    (none_ : mapped segment = 0) (done : mapSegment r segment l = .ok () next) :
    (∃ store, Loading r base k (update mapped segment (next.space.npages segment)) next store) ∧ Kept l next := by
  have loop : mapFrames r segment 0 (l.space.npages segment) l = .ok () next := done
  obtain ⟨⟨final,finished⟩,kept⟩ := mapFrames_loading loading here none_ loop
  rw [zero_add,←kept.npages] at finished
  exact ⟨⟨final,finished⟩,kept⟩

lemma loadSpace_loading (inst : r.Installed) (loading : Loading r base k (fun _ => 0) l store)
    (miss : ∀ segment, l.space.table segment = none) (done : loadSpace r junk l = .ok () next) :
    (∃ store, Loading r base k next.space.npages next store) ∧ ∀ segment, next.space.table segment ≠ none := by
  obtain ⟨l1,text,done⟩ := bind_ok done
  obtain ⟨l2,data,done⟩ := bind_ok done
  obtain ⟨l3,stack,done⟩ := bind_ok done
  obtain ⟨l4,textFrames,done⟩ := bind_ok done
  obtain ⟨l5,dataFrames,stackFrames⟩ := bind_ok done
  -- the three page tables
  obtain ⟨⟨s1,loading1⟩,table1,space1⟩ := mapTable_loading inst loading (miss _) rfl text
  have absent2 : l1.space.table .data = none := by simp [space1,miss]
  obtain ⟨⟨s2,loading2⟩,table2,space2⟩ := mapTable_loading inst loading1 absent2 rfl data
  have absent3 : l2.space.table .stack = none := by simp [space2,space1,miss]
  obtain ⟨⟨s3,loading3⟩,table3,space3⟩ := mapTable_loading inst loading2 absent3 rfl stack
  have here : ∀ segment, l3.space.table segment ≠ none := by
    intro segment
    cases segment <;> simp [space3,space2,space1]
  -- and their frames
  obtain ⟨⟨s4,loading4⟩,kept4⟩ := mapSegment_loading loading3 (here _) rfl textFrames
  obtain ⟨⟨s5,loading5⟩,kept5⟩ := mapSegment_loading loading4 (kept4.tables _ (here _)) (by simp) dataFrames
  have kept := kept4.trans kept5
  obtain ⟨⟨s6,loading6⟩,kept6⟩ := mapSegment_loading loading5 (kept.tables _ (here _)) (by simp) stackFrames
  refine ⟨⟨s6,?_⟩,fun segment => kept6.tables _ (kept.tables _ (here segment))⟩
  have all : next.space.npages = update (update (update (fun _ => 0) .text (l4.space.npages .text))
      .data (l5.space.npages .data)) .stack (next.space.npages .stack) := by
    funext segment
    cases segment <;> simp [kept6.npages,kept5.npages]
  rw [all]
  exact loading6

lemma asPrepareLoad_some (ran : asPrepareLoad r junk coremap as = some result) :
    (∀ segment, as.table segment = none) ∧ loadSpace r junk ⟨coremap,as⟩ = result := by
  unfold asPrepareLoad at ran
  split at ran
  · rename_i unset
    simp only [isNone_iff_eq_none] at unset
    refine ⟨fun segment => ?_,some.inj ran⟩
    cases segment
    · exact unset.1
    · exact unset.2.1
    · exact unset.2.2
  · cases ran

lemma unset_loading {as : AddrSpace} (rep : Represents r coremap store) (nothing : ∀ p, store.holds (.space k p) = none)
    (miss : ∀ segment, as.table segment = none) : Loading r store.holds k (fun _ => 0) ⟨coremap,as⟩ store := by
  refine ⟨rep,(overlay_same fun p => ?_).symm⟩
  rw [nothing p]
  cases p with
  | entry segment i => rfl
  | table segment => rw [part,miss segment]; rfl

lemma asPrepareLoad_holds (inst : r.Installed) (rep : Represents r coremap store)
    (nothing : ∀ p, store.holds (.space k p) = none) (done : asPrepareLoad r junk coremap as = some (.ok () next)) :
    (∃ after : r.Blocks Owner, Represents r next.coremap after ∧
      after.holds = overlay store.holds k (part r next.space next.space.npages)) ∧
      ∀ segment, next.space.table segment ≠ none := by
  obtain ⟨miss,ran⟩ := asPrepareLoad_some done
  obtain ⟨⟨after,load⟩,here⟩ := loadSpace_loading inst (unset_loading rep nothing miss) miss ran
  exact ⟨⟨after,load.represents,load.holds⟩,here⟩

def EntriesOf (k : Nat) (segment : Segment) (i remaining : Nat) (o : Owner) : Prop :=
  ∃ j, (i ≤ j ∧ j < i+remaining) ∧ o = .space k (.entry segment j)

lemma freeFrames_drops {table : PageTable} (rep : Represents r coremap store)
    (held : ∀ j, i ≤ j → j < i+left → store.holds (.space k (.entry segment j)) = some ⟨r.index (table.paddr j),1⟩) :
    ∃ final, ∃ after : r.Blocks Owner, freeFrames r (some table) i left coremap = some final ∧
      Represents r final after ∧ store.Drops after (EntriesOf k segment i left) := by
  induction left generalizing i coremap store with
  | zero =>
    refine ⟨coremap,store,rfl,rep,fun o => ⟨?_,fun _ => rfl⟩⟩
    rintro ⟨j,range,_⟩
    omega
  | succ left ih =>
    obtain ⟨mid,freed,removed⟩ := freeKpages_held rep (held i le_rfl (by omega))
      (r.index_kvaddr _)
    have dropped := store.remove_drops (.space k (.entry segment i))
    obtain ⟨final,after,rest,represents,drops⟩ := ih (i := i+1) removed (by
      intro j above below
      have ne : Owner.space k (.entry segment j) ≠ .space k (.entry segment i) := by
        simp only [ne_eq,Owner.space.injEq,Part.entry.injEq,true_and]
        omega
      rw [(dropped _).2 ne]
      exact held j (by omega) (by omega))
    refine ⟨final,after,?_,represents,?_⟩
    · simp only [freeFrames,bind_eq_bind,bind_some]
      rw [freed,bind_some,rest]
    have both := dropped.trans drops
    have eq : (fun o => o = Owner.space k (.entry segment i) ∨
        EntriesOf k segment (i+1) left o) = EntriesOf k segment i (left+1) := by
      funext o
      refine propext ⟨?_,?_⟩
      · rintro (rfl | ⟨j,range,rfl⟩)
        · exact ⟨i,by omega,rfl⟩
        · exact ⟨j,by omega,rfl⟩
      rintro ⟨j,range,rfl⟩
      rcases eq_or_ne j i with rfl | ne
      · exact .inl rfl
      · exact .inr ⟨j,by omega,rfl⟩
    rwa [eq] at both

-- What is left of the store while as_destroy runs: everything but the parts `gone`.
structure Releasing (store : r.Blocks Owner) (k : Nat) (gone : Part → Prop) (coremap : Entries)
    (left : r.Blocks Owner) : Prop where
  represents : Represents r coremap left
  others : ∀ o, (∀ p, o = .space k p → ¬ gone p) → left.holds o = store.holds o
  released : ∀ p, gone p → left.holds (.space k p) = none

lemma Releasing.drops {gone more : Part → Prop}
    (releasing : Releasing store k gone coremap left) (rep : Represents r final after)
    (drops : left.Drops after dropped) (exact_ : ∀ o, dropped o ↔ ∃ p, o = .space k p ∧ more p) :
    Releasing store k (fun p => gone p ∨ more p) final after := by
  refine ⟨rep,?_,?_⟩
  · intro o untouched
    have kept : ¬ dropped o := fun inside => by
      obtain ⟨p,eq,now⟩ := (exact_ o).mp inside
      exact untouched p eq (.inr now)
    rw [(drops o).2 kept]
    exact releasing.others o fun p eq pre => untouched p eq (.inl pre)
  intro p either
  by_cases now : more p
  · exact (drops _).1 ((exact_ _).mpr ⟨p,rfl,now⟩)
  have kept : ¬ dropped (.space k p) := fun inside => by
    obtain ⟨q,eq,later⟩ := (exact_ _).mp inside
    cases eq
    exact now later
  rw [(drops _).2 kept]
  exact releasing.released p (either.resolve_right now)

lemma freeFrames_releasing {gone : Part → Prop} (releasing : Releasing store k gone coremap left) (segment : Segment)
    (held : ∀ p, store.holds (.space k p) = part r as as.npages p) (here : as.table segment ≠ none)
    (still : ∀ i, ¬ gone (.entry segment i)) :
    ∃ final, freeFrames r (as.table segment) 0 (as.npages segment) coremap = some final ∧ ∃ after, Releasing store k
        (fun p => gone p ∨ ∃ i < as.npages segment, p = .entry segment i) final after := by
  obtain ⟨table,some_⟩ := ne_none_iff_exists'.mp here
  have entries : ∀ j, 0 ≤ j → j < 0+as.npages segment →
      left.holds (.space k (.entry segment j)) = some ⟨r.index (table.paddr j),1⟩ := by
    intro j _ lt
    rw [zero_add] at lt
    rw [releasing.others _ (by rintro p eq; cases eq; exact still j),held,part,if_pos lt,some_]
    rfl
  obtain ⟨final,after,freed,rep,drops⟩ := freeFrames_drops releasing.represents entries
  rw [some_]
  refine ⟨final,freed,after,releasing.drops rep drops fun o => ⟨?_,?_⟩⟩
  · rintro ⟨j,range,rfl⟩
    exact ⟨_,rfl,j,by omega,rfl⟩
  rintro ⟨p,rfl,j,lt,rfl⟩
  exact ⟨j,by omega,rfl⟩

lemma freeTable_releasing {gone : Part → Prop} (releasing : Releasing store k gone coremap left) (segment : Segment)
    (held : ∀ p, store.holds (.space k p) = part r as as.npages p) (here : as.table segment ≠ none)
    (still : ¬ gone (.table segment)) : ∃ final, freeKpages r coremap (tableAddr (as.table segment)) = some final ∧
      ∃ after, Releasing store k (fun p => gone p ∨ p = .table segment) final after := by
  obtain ⟨table,some_⟩ := ne_none_iff_exists'.mp here
  have block : left.holds (.space k (.table segment)) =
      some ⟨r.index (kvaddrToPaddr table.block),pagetablePages (as.npages segment)⟩ := by
    rw [releasing.others _ (by rintro p eq; cases eq; exact still),held,part,some_]
    rfl
  rw [some_]
  obtain ⟨final,freed,rep⟩ := freeKpages_held releasing.represents block (Eq.refl (r.index (kvaddrToPaddr table.block)))
  refine ⟨final,freed,_,releasing.drops rep (left.remove_drops _) fun o => ⟨?_,?_⟩⟩
  · rintro rfl
    exact ⟨_,rfl,rfl⟩
  rintro ⟨p,rfl,rfl⟩
  rfl

lemma asDestroy_releases (rep : Represents r coremap store)
    (held : ∀ p, store.holds (.space k p) = part r as as.npages p) (here : ∀ segment, as.table segment ≠ none) :
    ∃ final, asDestroy r coremap as = some final ∧ ∃ after : r.Blocks Owner,
      Represents r final after ∧ after.holds = overlay store.holds k fun _ => none := by
  have start : Releasing store k (fun _ => False) coremap store := ⟨rep,fun _ _ => rfl,fun _ never => never.elim⟩
  obtain ⟨m1,freed1,_,r1⟩ := freeFrames_releasing start .text held (here _) (by simp)
  obtain ⟨m2,freed2,_,r2⟩ := freeFrames_releasing r1 .data held (here _) (by simp)
  obtain ⟨m3,freed3,_,r3⟩ := freeFrames_releasing r2 .stack held (here _) (by simp)
  obtain ⟨m4,freed4,_,r4⟩ := freeTable_releasing r3 .text held (here _) (by simp)
  obtain ⟨m5,freed5,_,r5⟩ := freeTable_releasing r4 .data held (here _) (by simp)
  obtain ⟨m6,freed6,after,r6⟩ := freeTable_releasing r5 .stack held (here _) (by simp)
  refine ⟨m6,?_,after,r6.represents,?_⟩
  · simp only [AddrSpace.table,AddrSpace.npages] at freed1 freed2 freed3 freed4 freed5 freed6
    simp only [asDestroy,bind_eq_bind,bind_some,freed1,freed2,freed3,freed4,freed5,freed6]
  funext o
  cases o with
  | kernel ticket => exact r6.others _ (by simp)
  | space other p =>
    rcases eq_or_ne other k with rfl | ne
    · rw [overlay_self]
      cases p with
      | table segment => exact r6.released _ (by cases segment <;> simp)
      | entry segment i =>
        by_cases lt : i < as.npages segment
        · apply r6.released
          cases segment <;> simp [lt]
        rw [r6.others _ (by rintro p eq; cases eq; cases segment <;> simp_all),held,part,if_neg lt]
    rw [overlay_other ne]
    exact r6.others _ (by rintro p eq; cases eq; exact absurd rfl ne)

end
end ToyOS.SpaceFrames

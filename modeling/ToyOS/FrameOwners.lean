import ToyOS.StoppedLoad

namespace ToyOS.FrameOwners
open Function UserSpace BlockStore Coremap SpaceFrames StoppedLoad Nat Option

-- The life of an address space. A failed as_prepare_load leaves it to its caller.
inductive Space where
  | absent
  | defined (as : AddrSpace)
  | prepared (as : AddrSpace)
  | failed (as : AddrSpace)
  | destroyed

structure KernelBlock where
  addr : Nat
  npages : Nat
  deriving DecidableEq

-- Address spaces and kernel blocks are numbered as they are made.
structure State where
  coremap : Entries
  spaces : Nat → Space
  kernel : Nat → Option KernelBlock
  nextSpace : Nat
  nextKernel : Nat

def initial (r : Ram) : State := ⟨vmBootstrap r,fun _ => .absent,fun _ => none,0,0⟩

inductive Event where
  | create
  | defineRegion (k : Nat) (vaddr sz : Nat)
  | prepareLoad (k : Nat) (junk : Segment → Nat → Nat)
  | copy (old : Nat) (junk : Segment → Nat → Nat)
  | destroy (k : Nat)
  | allocKernel (npages : Nat)
  | freeKernel (ticket : Nat)

def State.setSpace (s : State) (k : Nat) (space : Space) : State :=
  {s with spaces := update s.spaces k space}

def State.addSpace (s : State) (space : Space) : State :=
  {s.setSpace s.nextSpace space with nextSpace := s.nextSpace+1}

def step (r : Ram) (s : State) : Event → Option State
  | .create => some (s.addSpace (.defined asCreate))
  | .defineRegion k vaddr sz => match s.spaces k with
      | .defined as => match asDefineRegion as vaddr sz with
        | .ok as => some (s.setSpace k (.defined as))
        | .error _ => some s
      | _ => none
  | .prepareLoad k junk => match s.spaces k with
      | .defined as => match asPrepareLoad r junk s.coremap as with
        | none => none
        | some (.ok _ l) => some {s.setSpace k (.prepared l.space) with coremap := l.coremap}
        | some (.error _ l) => some {s.setSpace k (.failed l.space) with coremap := l.coremap}
      | _ => none
  | .copy old junk => match s.spaces old with
      | .prepared as => match asCopy r junk s.coremap as with
        | none => none
        | some (coremap,.ok new) => some {s.addSpace (.prepared new) with coremap}
        | some (coremap,.error _) => some {s with coremap}
      | _ => none
  | .destroy k => match s.spaces k with
      | .prepared as =>
        (asDestroy r s.coremap as).map fun coremap => {s.setSpace k .destroyed with coremap}
      | _ => none
  | .allocKernel npages => match allocKpages r s.coremap npages with
      | (coremap,addr) => some {s with
          coremap
          kernel := if addr = 0 then s.kernel else update s.kernel s.nextKernel (some ⟨addr,npages⟩)
          nextKernel := s.nextKernel+1}
  | .freeKernel ticket => match s.kernel ticket with
      | none => none
      | some block => (freeKpages r s.coremap block.addr).map fun coremap =>
        {s with coremap,kernel := update s.kernel ticket none}

def Succeeds (r : Ram) (s : State) : Event → Prop
  | .prepareLoad k junk => ∀ as, s.spaces k = .defined as →
      ∃ l, asPrepareLoad r junk s.coremap as = some (.ok () l)
  | .copy old junk => ∀ as, s.spaces old = .prepared as →
      ∃ coremap new, asCopy r junk s.coremap as = some (coremap,.ok new)
  | _ => True

def succeeds (r : Ram) (s : State) : Event → Bool
  | .prepareLoad k junk => match s.spaces k with
      | .defined as => match asPrepareLoad r junk s.coremap as with
        | some (.ok _ _) => true
        | _ => false
      | _ => true
  | .copy old junk => match s.spaces old with
      | .prepared as => match asCopy r junk s.coremap as with
        | some (_,.ok _) => true
        | _ => false
      | _ => true
  | _ => true

lemma succeeds_sound (tested : succeeds r s event) : Succeeds r s event := by
  cases event with
  | prepareLoad k junk =>
    intro as at_
    rw [succeeds,at_] at tested
    simp only at tested
    split at tested
    · rename_i l done
      exact ⟨l,done⟩
    · cases tested
  | copy old junk =>
    intro as at_
    rw [succeeds,at_] at tested
    simp only at tested
    split at tested
    · rename_i coremap new done
      exact ⟨coremap,new,done⟩
    · cases tested
  | _ => trivial

def Reached (r : Ram) (s : State) : Prop :=
  Transition.Reached (step r) (Succeeds r) (initial r) s

def Space.parts (r : Ram) : Space → Part → Option Block
  | .prepared as => part r as as.npages
  | _ => fun _ => none

def kernelBlock (r : Ram) (block : KernelBlock) : Block :=
  ⟨r.index (kvaddrToPaddr block.addr),block.npages⟩

def owned (r : Ram) (s : State) : Owner → Option Block
  | .space k p => (s.spaces k).parts r p
  | .kernel ticket => (s.kernel ticket).map (kernelBlock r)

def Owns (r : Ram) (s : State) (o : Owner) (i : Nat) : Prop :=
  ∃ b, owned r s o = some b ∧ b.Covers i

structure Accounted (r : Ram) (s : State) (store : r.Blocks Owner) : Prop where
  represents : Represents r s.coremap store
  holds : store.holds = owned r s
  tables : ∀ k as, s.spaces k = .prepared as → ∀ segment, as.table segment ≠ none
  freshSpaces : ∀ k, s.nextSpace ≤ k → s.spaces k = .absent
  freshKernel : ∀ ticket, s.nextKernel ≤ ticket → s.kernel ticket = none

def NoFailures (s : State) : Prop := ∀ k as, s.spaces k ≠ .failed as

-- The accounts of any run. A failed load holds the frames it got before it stopped; `parts` says which.
structure AccountedBy (r : Ram) (s : State) (parts : Nat → Part → Option Block)
    (store : r.Blocks Owner) : Prop where
  represents : Represents r s.coremap store
  spaces : ∀ k p, store.holds (.space k p) = parts k p
  kernel : ∀ ticket, store.holds (.kernel ticket) = (s.kernel ticket).map (kernelBlock r)
  holding : ∀ k, (∀ as, s.spaces k ≠ .failed as) → parts k = (s.spaces k).parts r
  tables : ∀ k as, s.spaces k = .prepared as → ∀ segment, as.table segment ≠ none
  freshSpaces : ∀ k, s.nextSpace ≤ k → s.spaces k = .absent
  freshKernel : ∀ ticket, s.nextKernel ≤ ticket → s.kernel ticket = none

lemma AccountedBy.complete (accounted : AccountedBy r s parts store) (none_ : NoFailures s) : Accounted r s store := by
  refine ⟨accounted.represents,?_,accounted.tables,accounted.freshSpaces,accounted.freshKernel⟩
  funext o
  cases o with
  | kernel ticket => exact accounted.kernel ticket
  | space k p => rw [accounted.spaces,accounted.holding k (none_ k)]; rfl

lemma Accounted.by (accounted : Accounted r s store) :
    AccountedBy r s (fun k => (s.spaces k).parts r) store := by
  refine ⟨accounted.represents,?_,?_,fun _ _ => rfl,accounted.tables,accounted.freshSpaces,accounted.freshKernel⟩ <;>
  · intros
    rw [accounted.holds]
    rfl

lemma AccountedBy.replace (accounted : AccountedBy r s parts store) (rep : Represents r coremap after)
    (holds : after.holds = overlay store.holds k now) (holding : (∀ as, space ≠ .failed as) → now = Space.parts r space)
    (tables : ∀ as, space = .prepared as → ∀ seg, as.table seg ≠ none) (known : k < next) (grows : s.nextSpace ≤ next) :
    AccountedBy r {s.setSpace k space with coremap,nextSpace := next} (update parts k now) after := by
  refine ⟨rep,?_,?_,?_,?_,?_,accounted.freshKernel⟩
  · intro j p
    rw [holds]
    rcases eq_or_ne j k with rfl | ne
    · rw [overlay_self,update_self]
    · rw [overlay_other ne,update_of_ne ne,accounted.spaces]
  · intro ticket
    rw [holds]
    exact accounted.kernel ticket
  · intro j
    rcases eq_or_ne j k with rfl | ne
    · simpa only [State.setSpace,update_self] using holding
    · simpa only [State.setSpace,update_of_ne ne] using accounted.holding j
  · intro j as at_
    rcases eq_or_ne j k with rfl | ne
    · exact tables as ((update_self ..).symm.trans at_)
    · exact accounted.tables j as ((update_of_ne ne ..).symm.trans at_)
  intro j later
  have ne : j ≠ k := by simp only at later; omega
  exact (update_of_ne ne ..).trans (accounted.freshSpaces j (le_trans grows later))

section
variable {r : Ram} {s after : State} {store : r.Blocks Owner} {parts : Nat → Part → Option Block}

section
variable (accounted : AccountedBy r s parts store)
include accounted

lemma AccountedBy.known (here : s.spaces k ≠ .absent) : k < s.nextSpace := by
  by_contra beyond
  exact here (accounted.freshSpaces k (not_lt.mp beyond))

lemma AccountedBy.fresh (p : Part) : store.holds (.space s.nextSpace p) = none := by
  have absent := accounted.freshSpaces _ (le_refl s.nextSpace)
  rw [accounted.spaces,accounted.holding _ (by rw [absent]; exact fun _ => Space.noConfusion),absent]
  rfl

lemma AccountedBy.defined (at_ : s.spaces k = .defined as) (p : Part) : store.holds (.space k p) = none := by
  rw [accounted.spaces,accounted.holding _ (by rw [at_]; exact fun _ => Space.noConfusion),at_]
  rfl

lemma AccountedBy.prepared (at_ : s.spaces k = .prepared as) (p : Part) :
    store.holds (.space k p) = part r as as.npages p := by
  rw [accounted.spaces,accounted.holding _ (by rw [at_]; exact fun _ => Space.noConfusion),at_]
  rfl

lemma create_accounted : AccountedBy r (s.addSpace (.defined asCreate)) (update parts s.nextSpace fun _ => none)
      store := by
  have holds : store.holds = overlay store.holds s.nextSpace fun _ => none := (overlay_same accounted.fresh).symm
  refine accounted.replace accounted.represents holds (fun _ => rfl) ?_ (lt_succ_self _) (le_succ _)
  intro as no
  cases no

lemma defineRegion_accounted (at_ : s.spaces k = .defined as) (new : AddrSpace) :
    AccountedBy r (s.setSpace k (.defined new)) (update parts k fun _ => none) store := by
  have holds : store.holds = overlay store.holds k fun _ => none := (overlay_same (accounted.defined at_)).symm
  refine accounted.replace accounted.represents holds (fun _ => rfl) ?_ ?_ le_rfl
  · intro as no
    cases no
  · exact accounted.known (by rw [at_]; exact Space.noConfusion)

end

lemma prepareLoad_accounted (inst : r.Installed) (accounted : AccountedBy r s parts store)
    (at_ : s.spaces k = .defined as) (done : asPrepareLoad r junk s.coremap as = some (.ok () l)) :
    ∃ store, AccountedBy r {s.setSpace k (.prepared l.space) with coremap := l.coremap}
      (update parts k (part r l.space l.space.npages)) store := by
  obtain ⟨⟨load,rep,holds⟩,here⟩ := asPrepareLoad_holds inst accounted.represents (accounted.defined at_) done
  refine ⟨load,accounted.replace rep holds (fun _ => rfl) ?_ ?_ le_rfl⟩
  · intro ne eq
    cases eq
    exact here
  · exact accounted.known (by rw [at_]; exact Space.noConfusion)

lemma prepareLoad_failed_accounted (inst : r.Installed) (accounted : AccountedBy r s parts store)
    (at_ : s.spaces k = .defined as) (bad : asPrepareLoad r junk s.coremap as = some (.error errno l)) :
    ∃ own store, AccountedBy r {s.setSpace k (.failed l.space) with coremap := l.coremap}
      (update parts k own) store := by
  obtain ⟨mapped,stop,rep,holds⟩ := asPrepareLoad_stopped inst accounted.represents (accounted.defined at_) bad
  refine ⟨_,stop,accounted.replace rep holds ?_ ?_ ?_ le_rfl⟩
  · exact fun complete => absurd rfl (complete _)
  · intro ne no
    cases no
  · exact accounted.known (by rw [at_]; exact Space.noConfusion)

lemma copy_accounted (inst : r.Installed) (accounted : AccountedBy r s parts store)
    (done : asCopy r junk s.coremap old = some (coremap,.ok new)) :
    ∃ store, AccountedBy r {s.addSpace (.prepared new) with coremap}
      (update parts s.nextSpace (part r new new.npages)) store := by
  unfold asCopy at done
  simp only at done
  split at done
  · cases done
  · obtain ⟨final,_,no⟩ := map_eq_some_iff.mp done
    cases no
  rename_i l load
  cases done
  obtain ⟨⟨full,rep,holds⟩,here⟩ := asPrepareLoad_holds inst accounted.represents accounted.fresh load
  refine ⟨full,accounted.replace rep holds (fun _ => rfl) ?_ (lt_succ_self _) (le_succ _)⟩
  intro ne eq
  cases eq
  exact here

lemma destroy_accounted (accounted : AccountedBy r s parts store) (at_ : s.spaces k = .prepared as) :
    ∃ final, asDestroy r s.coremap as = some final ∧ ∃ store,
      AccountedBy r {s.setSpace k .destroyed with coremap := final} (update parts k fun _ => none)
        store := by
  obtain ⟨final,freed,left,rep,holds⟩ :=
    asDestroy_releases accounted.represents (accounted.prepared at_) (accounted.tables k as at_)
  refine ⟨final,freed,left,accounted.replace rep holds (fun _ => rfl) ?_ ?_ le_rfl⟩
  · intro ne no
    cases no
  · exact accounted.known (by rw [at_]; exact Space.noConfusion)

lemma AccountedBy.setKernel (accounted : AccountedBy r s parts store) (rep : Represents r coremap later)
    (holds : later.holds = update store.holds (.kernel ticket) (block.map (kernelBlock r)))
    (known : ticket < next) (grows : s.nextKernel ≤ next) :
    AccountedBy r {s with coremap,kernel := update s.kernel ticket block,nextKernel := next} parts
      later := by
  refine ⟨rep,?_,?_,accounted.holding,accounted.tables,accounted.freshSpaces,?_⟩
  · intro k p
    rw [holds,update_of_ne (by simp)]
    exact accounted.spaces k p
  · intro other
    rw [holds]
    rcases eq_or_ne other ticket with rfl | ne
    · simp only [update_self]
    simp only [update_of_ne ne]
    rw [update_of_ne (by simpa using ne)]
    exact accounted.kernel other
  intro other beyond
  simp only at beyond ⊢
  rw [update_of_ne (by omega)]
  exact accounted.freshKernel other (by omega)

lemma allocKernel_accounted (inst : r.Installed) (accounted : AccountedBy r s parts store)
    (did : step r s (.allocKernel npages) = some after) : ∃ store, AccountedBy r after parts store := by
  have fresh : store.holds (.kernel s.nextKernel) = none := by
    rw [accounted.kernel,accounted.freshKernel _ le_rfl]
    rfl
  cases res : allocKpages r s.coremap npages with
  | mk coremap addr =>
    rw [step,res] at did
    cases some.inj did
    rcases allocKpages_cases inst accounted.represents fresh res with
      ⟨rfl,rfl⟩ | ⟨le,vacant,nz,added⟩
    · exact ⟨store,accounted.represents,accounted.spaces,accounted.kernel,accounted.holding,
        accounted.tables,accounted.freshSpaces,
        fun ticket later => accounted.freshKernel ticket (le_of_succ_le later)⟩
    have holds : (store.add (.kernel s.nextKernel) _ le vacant).holds = update store.holds (.kernel s.nextKernel)
          ((some (⟨addr,npages⟩ : KernelBlock)).map (kernelBlock r)) := Store.add_holds ..
    simp only [if_neg nz]
    exact ⟨_,accounted.setKernel added holds (lt_succ_self _) (le_succ _)⟩

lemma AccountedBy.knownKernel (accounted : AccountedBy r s parts store)
    (live : s.kernel ticket = some block) : ticket < s.nextKernel := by
  by_contra beyond
  rw [accounted.freshKernel ticket (not_lt.mp beyond)] at live
  cases live

lemma freeKernel_accounted (accounted : AccountedBy r s parts store) (live : s.kernel ticket = some block) :
    ∃ final, freeKpages r s.coremap block.addr = some final ∧ ∃ store,
      AccountedBy r {s with coremap := final,kernel := update s.kernel ticket none} parts store := by
  have held : store.holds (.kernel ticket) = some (kernelBlock r block) := by
    rw [accounted.kernel,live]
    rfl
  obtain ⟨final,freed,rep⟩ := freeKpages_held accounted.represents held rfl
  have holds : (store.remove (.kernel ticket)).holds = update store.holds (.kernel ticket)
      ((none : Option KernelBlock).map (kernelBlock r)) := Store.remove_holds ..
  exact ⟨final,freed,_,accounted.setKernel rep holds (accounted.knownKernel live) le_rfl⟩

def Copies (r : Ram) (s : State) : Event → Prop
  | .copy old junk => ∀ as, s.spaces old = .prepared as →
      ∃ coremap new, asCopy r junk s.coremap as = some (coremap,.ok new)
  | _ => True

lemma step_accounted (inst : r.Installed) (accounted : AccountedBy r s parts store) (copies : Copies r s event)
    (did : step r s event = some after) : ∃ parts store, AccountedBy r after parts store := by
  cases event with
  | create =>
    cases some.inj did
    exact ⟨_,store,create_accounted accounted⟩
  | defineRegion k vaddr sz =>
    cases at_ : s.spaces k with
    | defined as =>
      rw [step,at_] at did
      simp only at did
      split at did
      · rename_i new _
        cases some.inj did
        exact ⟨_,store,defineRegion_accounted accounted at_ new⟩
      · cases some.inj did
        exact ⟨parts,store,accounted⟩
    | _ => rw [step,at_] at did; cases did
  | prepareLoad k junk =>
    cases at_ : s.spaces k with
    | defined as =>
      rw [step,at_] at did
      simp only at did
      split at did
      · cases did
      · rename_i l done
        cases some.inj did
        exact ⟨_,prepareLoad_accounted inst accounted at_ done⟩
      rename_i l bad
      cases some.inj did
      obtain ⟨_,acc⟩ := prepareLoad_failed_accounted inst accounted at_ bad
      exact ⟨_,acc⟩
    | _ => rw [step,at_] at did; cases did
  | copy old junk =>
    cases at_ : s.spaces old with
    | prepared as =>
      obtain ⟨coremap,new,done⟩ := copies as at_
      rw [step,at_] at did
      simp only [done] at did
      cases some.inj did
      exact ⟨_,copy_accounted inst accounted done⟩
    | _ => rw [step,at_] at did; cases did
  | destroy k =>
    cases at_ : s.spaces k with
    | prepared as =>
      obtain ⟨final,freed,done⟩ := destroy_accounted accounted at_
      rw [step,at_] at did
      simp only [freed,map_some] at did
      exact ⟨_,some.inj did ▸ done⟩
    | _ => rw [step,at_] at did; cases did
  | allocKernel npages => exact ⟨parts,allocKernel_accounted inst accounted did⟩
  | freeKernel ticket =>
    cases live : s.kernel ticket with
    | none => rw [step,live] at did; cases did
    | some block =>
      obtain ⟨final,freed,done⟩ := freeKernel_accounted accounted live
      rw [step,live] at did
      simp only [freed,map_some] at did
      exact ⟨parts,some.inj did ▸ done⟩

lemma initial_accounted (r : Ram) : AccountedBy r (initial r) (fun _ _ => none) .empty :=
  ⟨vmBootstrap_represents r,fun _ _ => rfl,fun _ => rfl,fun _ _ => rfl,
    fun _ _ no => Space.noConfusion no,fun _ _ => rfl,fun _ _ => rfl⟩

lemma setSpace_noFailures (none_ : NoFailures s) (fine : ∀ as, space ≠ .failed as) :
    NoFailures (s.setSpace k space) := by
  intro j as
  rcases eq_or_ne j k with rfl | ne
  · simpa only [State.setSpace,update_self] using fine as
  · simpa only [State.setSpace,update_of_ne ne] using none_ j as

lemma step_noFailures (none_ : NoFailures s) (may : Succeeds r s event)
    (did : step r s event = some after) : NoFailures after := by
  have fine : ∀ as, Space.defined asCreate ≠ .failed as := fun _ => Space.noConfusion
  cases event with
  | create =>
    cases some.inj did
    exact setSpace_noFailures none_ fine
  | defineRegion k vaddr sz =>
    simp only [step] at did
    split at did
    · split at did
      · cases some.inj did
        exact setSpace_noFailures none_ fun _ => Space.noConfusion
      · cases some.inj did
        exact none_
    · cases did
  | prepareLoad k junk =>
    cases at_ : s.spaces k with
    | defined as =>
      obtain ⟨l,done⟩ := may as at_
      rw [step,at_] at did
      simp only [done] at did
      cases some.inj did
      exact setSpace_noFailures none_ fun _ => Space.noConfusion
    | _ => rw [step,at_] at did; cases did
  | copy old junk =>
    cases at_ : s.spaces old with
    | prepared as =>
      obtain ⟨coremap,new,done⟩ := may as at_
      rw [step,at_] at did
      simp only [done] at did
      cases some.inj did
      exact setSpace_noFailures none_ fun _ => Space.noConfusion
    | _ => rw [step,at_] at did; cases did
  | destroy k =>
    simp only [step] at did
    split at did
    · obtain ⟨final,_,rfl⟩ := map_eq_some_iff.mp did
      exact setSpace_noFailures none_ fun _ => Space.noConfusion
    · cases did
  | allocKernel npages =>
    cases some.inj did
    exact none_
  | freeKernel ticket =>
    simp only [step] at did
    split at did
    · cases did
    · obtain ⟨final,_,rfl⟩ := map_eq_some_iff.mp did
      exact none_

lemma reached_accounted (inst : r.Installed) (path : Reached r s) : ∃ store, Accounted r s store := by
  obtain ⟨none_,parts,store,accounted⟩ : NoFailures s ∧ ∃ parts store, AccountedBy r s parts store := by
    refine path.invariant (fun s => NoFailures s ∧ ∃ parts store, AccountedBy r s parts store) ?_ ?_
    · exact ⟨fun _ _ => Space.noConfusion,_,_,initial_accounted r⟩
    rintro s event after _ ⟨none_,parts,store,accounted⟩ may did
    refine ⟨step_noFailures none_ may did,step_accounted inst accounted ?_ did⟩
    cases event with
    | copy old junk => exact may
    | _ => trivial
  exact ⟨store,accounted.complete none_⟩

lemma Accounted.coremap_eq (accounted : Accounted r s store) (two : Accounted r t other)
    (eq : ∀ b, (∃ o, owned r s o = some b) ↔ ∃ o, owned r t o = some b) : t.coremap = s.coremap := by
  apply accounted.represents.unique two.represents
  rwa [accounted.holds,two.holds]

end

def NoSpaces (s : State) : Prop := ∀ k as, s.spaces k ≠ .prepared as

lemma owned_noSpaces (none_ : NoSpaces s) : (∃ o, owned r s o = some b) ↔
      ∃ ticket block, s.kernel ticket = some block ∧ kernelBlock r block = b := by
  constructor
  · rintro ⟨o,held⟩
    cases o with
    | kernel ticket =>
      obtain ⟨block,live,eq⟩ := map_eq_some_iff.mp held
      exact ⟨ticket,block,live,eq⟩
    | space k p =>
      rw [owned] at held
      cases at_ : s.spaces k with
      | prepared as => exact absurd at_ (none_ k as)
      | _ => rw [at_] at held; cases held
  · rintro ⟨ticket,block,live,rfl⟩
    exact ⟨.kernel ticket,by rw [owned,live]; rfl⟩

theorem frames_have_one_owner {r : Ram} {s : State} (installed : r.Installed)
    (path : Reached r s) :
    (∀ i, r.numOfCoremapPages ≤ i → i < r.numOfPages →
      ((s.coremap i).used = true ↔ ∃! o, Owns r s o i)) ∧
    (∀ o i, Owns r s o i →
      (r.numOfCoremapPages ≤ i ∧ i < r.numOfPages) ∧ (s.coremap i).used = true) ∧
    (∀ o p i, Owns r s o i → Owns r s p i → o = p) ∧
    (∀ k as, s.spaces k = .prepared as → step r s (.destroy k) ≠ none) ∧
    (∀ ticket, s.kernel ticket ≠ none → step r s (.freeKernel ticket) ≠ none) ∧
    ∀ t, Reached r t → NoSpaces s → NoSpaces t →
      (∀ block, (∃ ticket, s.kernel ticket = some block) ↔ ∃ ticket, t.kernel ticket = some block) →
      t.coremap = s.coremap := by
  obtain ⟨store,accounted⟩ := reached_accounted installed path
  have rep := accounted.represents
  have unique : ∀ o p i, Owns r s o i → Owns r s p i → o = p := by
    rintro o p i ⟨b,first,left⟩ ⟨c,second,right⟩
    rw [←accounted.holds] at first second
    exact store.apart o p b c i first second left right
  have used : ∀ o i, Owns r s o i → (s.coremap i).used = true := by
    rintro o i ⟨b,held,covers⟩
    rw [←accounted.holds] at held
    exact rep.used_iff.mpr (.inr ⟨o,b,held,covers⟩)
  refine ⟨?_,?_,unique,?_,?_,?_⟩
  · intro i above _
    constructor
    · intro inUse
      rcases rep.used_iff.mp inUse with own | ⟨o,b,held,covers⟩
      · exact absurd own (not_lt.mpr above)
      · rw [accounted.holds] at held
        exact ⟨o,⟨b,held,covers⟩,fun p also => unique p o i also ⟨b,held,covers⟩⟩
    · rintro ⟨o,owns,_⟩
      exact used o i owns
  · intro o i owns
    refine ⟨?_,used o i owns⟩
    obtain ⟨b,held,covers⟩ := owns
    rw [←accounted.holds] at held
    exact (store.within o b held).bounds covers
  · intro k as at_
    obtain ⟨final,freed,_⟩ := destroy_accounted accounted.by at_
    rw [step,at_]
    simp [freed]
  · intro ticket live
    obtain ⟨block,some_⟩ := Option.ne_none_iff_exists'.mp live
    obtain ⟨final,freed,_⟩ := freeKernel_accounted accounted.by some_
    rw [step,some_]
    simp [freed]
  intro t other noneHere noneThere same
  obtain ⟨second,accountedThere⟩ := reached_accounted installed other
  apply accounted.coremap_eq accountedThere
  intro b
  rw [owned_noSpaces noneHere,owned_noSpaces noneThere]
  constructor
  · rintro ⟨ticket,block,live,equal⟩
    obtain ⟨k,alsoLive⟩ := (same block).mp ⟨ticket,live⟩
    exact ⟨k,block,alsoLive,equal⟩
  rintro ⟨ticket,block,live,equal⟩
  obtain ⟨k,alsoLive⟩ := (same block).mpr ⟨ticket,live⟩
  exact ⟨k,block,alsoLive,equal⟩

def forkRam : Ram := ⟨4096,41*4096,by decide,by decide⟩

def forkHistory : List Event :=
  [.create,.defineRegion 0 0x400000 4096,.defineRegion 0 0x10000000 4096,
   .prepareLoad 0 fun _ _ => 0,.allocKernel 2,.copy 0 fun _ _ => 0,.destroy 0]

theorem forked_frames_owned : ∃ s, Reached forkRam s ∧ s.nextSpace = 2 ∧
    (s.coremap 1).used = false ∧ (s.coremap 36).used = true ∧ ∃! o, Owns forkRam s o 36 := by
  have ran : ((Transition.run (Transition.guarded (succeeds forkRam) (step forkRam))
      (initial forkRam) forkHistory).map fun s =>
        (s.nextSpace,(s.coremap 1).used,(s.coremap 36).used)) = some (2,false,true) := by
    decide +kernel
  obtain ⟨s,reached,values⟩ := Option.map_eq_some_iff.mp ran
  have path : Reached forkRam s := Transition.run_permitted (fun _ tested => succeeds_sound tested) .initial reached
  have installed : forkRam.Installed := by unfold Ram.Installed; decide
  obtain ⟨count,first,last⟩ :
      s.nextSpace = 2 ∧ (s.coremap 1).used = false ∧ (s.coremap 36).used = true := by
    simpa using values
  have owners := (frames_have_one_owner installed path).1 36 (by decide +kernel) (by decide +kernel)
  exact ⟨s,path,count,first,last,owners.mp last⟩
end ToyOS.FrameOwners

import ToyOS.RunningSteps

namespace ToyOS.Running
open Function UserSpace Tlb Coremap SpaceFrames Traps FrameMemory FrameOwners Option
open KernelPages (Aligned)

def Proc.Holds (p : Proc) (i : Nat) : Prop := p.space = some i ∨ p.saved = some i

def Usable (space : Option FrameOwners.Space) : Prop :=
  ∃ as, space = some (.prepared as) ∧ Prepared as

def HereOk (space : Option FrameOwners.Space) : Point → Prop
  | .program => space = none
  | .exited => space = none
  | .switched _ => ∃ as, space = some (.defined as)
  | .defining _ _ => ∃ as, space = some (.defined as)
  | .filling _ _ => ∃ as, space = some (.prepared as)
  | .stopped => ∃ as, space = some (.failed as)
  | .arguments _ left => ∃ as, space = some (.prepared as) ∧ (left = [] → Prepared as)
  | _ => Usable space

def ThereOk (space : Option FrameOwners.Space) : Point → Prop
  | .switched _ => space = none ∨ Usable space
  | .defining _ _ => space = none ∨ Usable space
  | .filling _ _ => space = none ∨ Usable space
  | .stopped => space = none ∨ Usable space
  | .arguments _ _ => space = none ∨ Usable space
  | .restoring => ∃ other, space = some other ∧ other ≠ .absent
  | .discarding => ∃ other, space = some other ∧ other ≠ .absent
  | _ => space = none

structure ProcValid (frames : FrameOwners.State) (p : Proc) : Prop where
  here : HereOk (p.space.map frames.spaces) p.point
  there : ThereOk (p.saved.map frames.spaces) p.point
  distinct : ∀ i, p.space = some i → p.saved ≠ some i

def activated : Point → Bool
  | .user => true
  | .forking _ _ => true
  | .defining _ _ => true
  | .filling _ _ => true
  | .arguments _ _ => true
  | .discarding => true
  | _ => false

def Matches (as : AddrSpace) (loaded : Bool) (e : Entry) : Prop :=
  ∃ segment paddr, segmentOf as e.vpage = some segment ∧ paddrOf as e.vpage segment = some paddr ∧
    e = entryFor e.vpage paddr segment loaded

-- vm_fault installed every valid entry for the process's address space.
structure TlbFor (frames : FrameOwners.State) (tlb : Slots) (p : Proc) : Prop where
  tagged : Tagged tlb
  entries : ∀ j, (tlb j).valid = true → ∃ i as, p.space = some i ∧ frames.spaces i = .prepared as ∧
    Prepared as ∧ Matches as p.loaded (tlb j)

def Accounts (r : Ram) (frames : FrameOwners.State) : Prop :=
  ∃ parts store, AccountedBy r frames parts store

def AllFilled (r : Ram) (frames : FrameOwners.State) : Prop :=
  ∀ i as, frames.spaces i = .prepared as → Filled r as

structure LocalValid (r : Ram) (l : Local) : Prop where
  accounts : Accounts r l.frames
  filled : AllFilled r l.frames
  proc : ProcValid l.frames l.proc
  tlb : activated l.proc.point = true → TlbFor l.frames l.tlb l.proc

lemma flushed_tlbFor (frames : FrameOwners.State) (p : Proc) : TlbFor frames flushed p :=
  ⟨flushed_tagged,fun _ ok => Bool.noConfusion ok⟩

lemma ProcValid.congr (ok : ProcValid frames p)
    (eq : ∀ i, p.Holds i → after.spaces i = frames.spaces i) : ProcValid after p := by
  have here : p.space.map after.spaces = p.space.map frames.spaces := map_congr fun i at_ => eq i (.inl at_)
  have hit : p.saved.map after.spaces = p.saved.map frames.spaces := map_congr fun i at_ => eq i (.inr at_)
  exact ⟨here ▸ ok.here,hit ▸ ok.there,ok.distinct⟩

lemma usable_present (usable : Usable space) : space ≠ some .absent := by
  obtain ⟨as,rfl,_⟩ := usable
  exact fun no => by cases no

lemma HereOk.present (ok : HereOk space point) : space ≠ some .absent := by
  cases point <;> simp only [HereOk] at ok
  case program | exited => exact fun no => by rw [ok] at no; cases no
  case switched | defining | filling | stopped =>
    obtain ⟨as,rfl⟩ := ok
    exact fun no => by cases no
  case arguments =>
    obtain ⟨as,rfl,_⟩ := ok
    exact fun no => by cases no
  all_goals exact usable_present ok

lemma ThereOk.present (ok : ThereOk space point) : space ≠ some .absent := by
  have either : space = none ∨ Usable space → space ≠ some .absent := by
    rintro (rfl | usable)
    · exact fun no => by cases no
    · exact usable_present usable
  cases point <;> simp only [ThereOk] at ok
  case switched | defining | filling | stopped | arguments => exact either ok
  case restoring | discarding =>
    obtain ⟨ne,rfl,here⟩ := ok
    exact fun no => here (some.inj no)
  all_goals exact either (.inl ok)

lemma ProcValid.present (ok : ProcValid frames p) (holds : p.Holds i) : frames.spaces i ≠ .absent := by
  intro absent
  rcases holds with at_ | at_
  · exact ok.here.present (by rw [at_,map_some,absent])
  · exact ok.there.present (by rw [at_,map_some,absent])

lemma map_update_other {f : Nat → β} (ne : x ≠ some k) (value : β) : x.map (update f k value) = x.map f :=
  map_congr fun i at_ => update_of_ne (fun eq => ne (by rw [at_,eq])) ..

lemma AllFilled.set (filled : AllFilled r frames) (fine : ∀ as, space = .prepared as → Filled r as)
    (eq : after.spaces = update frames.spaces k space) : AllFilled r after := by
  intro i as at_
  rw [eq] at at_
  rcases eq_or_ne i k with rfl | ne
  · exact fine as ((update_self ..).symm.trans at_)
  · exact filled i as ((update_of_ne ne ..).symm.trans at_)

lemma destroy_some (freed : FrameOwners.step r s (.destroy k) = some after) :
    after.spaces = update s.spaces k .destroyed ∧ after.nextSpace = s.nextSpace := by
  simp only [FrameOwners.step] at freed
  split at freed
  · obtain ⟨final,_,rfl⟩ := map_eq_some_iff.mp freed
    exact ⟨rfl,rfl⟩
  · cases freed

lemma destroy_accounts (inst : r.Installed) (accounts : Accounts r s)
    (freed : FrameOwners.step r s (.destroy k) = some after) : Accounts r after := by
  obtain ⟨parts,store,acc⟩ := accounts
  exact step_accounted inst acc (show Copies r s (.destroy k) from trivial) freed

lemma asActivate_some (at_ : space = some i) (tlb : Slots) : asActivate space tlb = flushed := by
  rw [asActivate,at_]
  rfl

lemma writeThrough_some (written : writeThrough tlb memory vaddr byte = some after) :
    ∃ i, lookup tlb (pageFrame vaddr) = some i ∧ (tlb i).dirty ∧
      after = update memory ((tlb i).ppage+vaddr % pageSize) byte := by
  unfold writeThrough at written
  split at written
  · cases written
  rename_i i hit
  split at written
  · rename_i dirty
    cases written
    exact ⟨i,hit,dirty,rfl⟩
  · cases written

lemma touches_activated (may : touches point vaddr) : activated point := by
  cases point <;> first | rfl | cases may

lemma HereOk.some_space (valid : ProcValid frames p) (active : p.point ≠ .program)
    (alive : p.point ≠ .exited) : ∃ i, p.space = some i := by
  cases at_ : p.space with
  | some i => exact ⟨i,rfl⟩
  | none =>
    have ok := valid.here
    rw [at_] at ok
    cases point : p.point <;> simp only [point,HereOk,Usable,map_none] at ok active alive
    all_goals simp at ok active alive

section
variable (ok : LocalValid r l)
include ok

lemma createSpace_valid (ready : l.proc.point = .program ∨ l.proc.point = .user) (image : Image) : LocalValid r {l with
      frames := l.frames.addSpace (.defined asCreate)
      proc := {l.proc with
        space := some l.frames.nextSpace,saved := l.proc.space,point := .switched image}} := by
  obtain ⟨parts,store,acc⟩ := ok.accounts
  -- the old address space, if there is one, is not the new one
  have ne : l.proc.space ≠ some l.frames.nextSpace := by
    intro eq
    exact ok.proc.present (.inl eq) (acc.freshSpaces _ le_rfl)
  refine ⟨?_,?_,⟨?_,?_,?_⟩,fun no => by cases no⟩
  · exact ⟨_,store,create_accounted acc⟩
  · exact ok.filled.set (fun _ no => by cases no) rfl
  · refine ⟨asCreate,?_⟩
    simp only [map_some,State.addSpace,State.setSpace,update_self]
  · have here := ok.proc.here
    have kept : l.proc.space.map (l.frames.addSpace (.defined asCreate)).spaces =
        l.proc.space.map l.frames.spaces := map_update_other ne _
    simp only [ThereOk,kept]
    rcases ready with at_ | at_ <;> rw [at_] at here
    · exact .inl here
    · exact .inr here
  intro i at_ eq
  cases at_
  exact ne eq

lemma LocalValid.replace (here : l.proc.space = some i)
    (acc : Accounts r after) (spaces : after.spaces = update l.frames.spaces i space)
    (fine : ∀ as, space = .prepared as → Filled r as) (point : Point) (hereOk : HereOk (some space) point)
    (thereOk : ThereOk (l.proc.saved.map l.frames.spaces) l.proc.point →
      ThereOk (l.proc.saved.map l.frames.spaces) point)
    (tlb : activated point → ∀ j, (l.tlb j).valid = false) (memory : Memory) (tagged : activated point → Tagged l.tlb) :
    LocalValid r ⟨after,memory,l.tlb,{l.proc with point}⟩ := by
  have ne : l.proc.saved ≠ some i := ok.proc.distinct i here
  refine ⟨acc,ok.filled.set fine spaces,⟨?_,?_,ok.proc.distinct⟩,?_⟩
  · simp only [here,spaces,map_some,update_self]
    exact hereOk
  · simp only [spaces,map_update_other ne]
    exact thereOk ok.proc.there
  intro active
  refine ⟨tagged active,fun j some_ => ?_⟩
  rw [tlb active j] at some_
  cases some_

lemma LocalValid.blank (here : l.proc.space = some i) (space : l.frames.spaces i = .defined as)
    (active : activated l.proc.point) (j : Fin numTlb) : (l.tlb j).valid = false := by
  cases some_ : (l.tlb j).valid with
  | false => rfl
  | true =>
    obtain ⟨k,bs,at_,prep,_⟩ := (ok.tlb active).entries j some_
    rw [here] at at_
    cases at_
    rw [space] at prep
    cases prep

lemma activate_valid (here : l.proc.space = some i)
    (point : Point) (hereOk : HereOk (l.proc.space.map l.frames.spaces) l.proc.point →
      HereOk (l.proc.space.map l.frames.spaces) point)
    (thereOk : ThereOk (l.proc.saved.map l.frames.spaces) l.proc.point →
      ThereOk (l.proc.saved.map l.frames.spaces) point) (loaded : Bool) (entry : Trapframe) (loads : Nat) :
    LocalValid r ⟨l.frames,l.memory,asActivate l.proc.space l.tlb, {l.proc with loaded,point,entry,loads}⟩ := by
  refine ⟨ok.accounts,ok.filled,⟨hereOk ok.proc.here,thereOk ok.proc.there,ok.proc.distinct⟩,fun _ => ?_⟩
  rw [asActivate_some here]
  exact flushed_tlbFor ..

lemma write_valid (may : touches l.proc.point vaddr) (written : writeThrough l.tlb l.memory vaddr byte = some memory) :
    LocalValid r {l.setPoint (afterStore l.proc.point) with memory} := by
  have active := touches_activated may
  have tlb := ok.tlb active
  refine ⟨ok.accounts,ok.filled,⟨?_,?_,ok.proc.distinct⟩,fun _ => ⟨tlb.tagged,tlb.entries⟩⟩
  · have here := ok.proc.here
    simp only [Local.setPoint]
    cases at_ : l.proc.point <;> simp only [at_,touches] at may here ⊢
    case user => exact here
    case filling image left =>
      cases left with
      | nil => cases may
      | cons next rest => exact here
    case arguments image left =>
      cases left with
      | nil => cases may
      | cons next rest =>
        obtain ⟨as,space,_⟩ := here
        refine ⟨as,space,fun _ => ?_⟩
        obtain ⟨j,hit,_⟩ := writeThrough_some written
        obtain ⟨i,bs,at_,prep,fine,_⟩ := tlb.entries j (lookup_some hit).1
        rw [at_,map_some,prep] at space
        cases space
        exact fine
    all_goals cases may
  have there := ok.proc.there
  simp only [Local.setPoint]
  cases at_ : l.proc.point <;> simp only [at_,touches] at may there ⊢
  case user => exact there
  case filling image left => cases left <;> exact there
  case arguments image left => cases left <;> exact there
  all_goals cases may

end

lemma destroySaved_valid (inst : r.Installed) (ok : LocalValid r l) (saved : l.proc.saved = some k)
    (active : activated l.proc.point) (usable : Usable (l.proc.space.map l.frames.spaces))
    (freed : FrameOwners.step r l.frames (.destroy k) = some frames) (entry : Trapframe) : LocalValid r {l with
      frames,proc := {l.proc with saved := none,point := .user,entry := entry}} := by
  obtain ⟨spaces,_⟩ := destroy_some freed
  have other : l.proc.space ≠ some k := fun eq => ok.proc.distinct k eq saved
  have kept : l.proc.space.map frames.spaces = l.proc.space.map l.frames.spaces := by
    rw [spaces]
    exact map_update_other other _
  have tlb := ok.tlb active
  refine ⟨destroy_accounts inst ok.accounts freed,ok.filled.set (fun _ no => by cases no) spaces,
    ⟨?_,rfl,fun _ _ no => by cases no⟩,fun _ => ⟨tlb.tagged,fun j some_ => ?_⟩⟩
  · simp only [HereOk,kept]
    exact usable
  obtain ⟨i,as,at_,prep,fine⟩ := tlb.entries j some_
  have ne : i ≠ k := fun eq => other (by rw [at_,eq])
  refine ⟨i,as,at_,?_,fine⟩
  rw [spaces,update_of_ne ne]
  exact prep

lemma pushPointers_ne_nil (stackptr : BitVec 32) (count : Nat) : (pushPointers stackptr (count+1)).1 ≠ [] := by
  simp [pushPointers,block]

lemma pushArguments_ne_nil (lens : List Nat) : (pushArguments lens).1 ≠ [] := by
  simp only [pushArguments]
  exact List.append_ne_nil_of_right_ne_nil _ (pushPointers_ne_nil _ _)

lemma arguments_usable (ok : LocalValid r l)
    (at_ : l.proc.point = .arguments image []) : Usable (l.proc.space.map l.frames.spaces) := by
  have here := ok.proc.here
  rw [at_] at here
  obtain ⟨as,prep,fine⟩ := here
  exact ⟨as,prep,fine rfl⟩

lemma fail_valid (valid : LocalValid r l) (ready : (∃ image left, l.proc.point = .defining image left) ∨
      (∃ image left, l.proc.point = .filling image left) ∨
      (∃ image left, l.proc.point = .arguments image left) ∨ l.proc.point = .stopped)
    (saved : l.proc.saved = some old) :
    LocalValid r {l with proc := {l.proc with space := some old,saved := l.proc.space,point := .restoring}} := by
  have alive : l.proc.point ≠ .program ∧ l.proc.point ≠ .exited := by
    rcases ready with ⟨_,_,at_⟩ | ⟨_,_,at_⟩ | ⟨_,_,at_⟩ | at_ <;> rw [at_] <;>
      exact ⟨Point.noConfusion,Point.noConfusion⟩
  have hit : l.proc.saved.map l.frames.spaces = none ∨ Usable (l.proc.saved.map l.frames.spaces) := by
    have ok := valid.proc.there
    rcases ready with ⟨_,_,at_⟩ | ⟨_,_,at_⟩ | ⟨_,_,at_⟩ | at_ <;> rw [at_] at ok <;> exact ok
  obtain ⟨i,here⟩ := HereOk.some_space valid.proc alive.1 alive.2
  refine ⟨valid.accounts,valid.filled,⟨?_,?_,?_⟩,fun no => by cases no⟩
  · rw [saved] at hit
    exact hit.resolve_left (some_ne_none _)
  · exact ⟨l.frames.spaces i,by rw [here]; rfl,valid.proc.present (.inl here)⟩
  intro j at_ same
  cases at_
  exact valid.proc.distinct old same saved

lemma LocalValid.some_space (ok : LocalValid r l) (at_ : l.proc.point = was) (early : was ≠ .program)
    (late : was ≠ .exited) : ∃ i, l.proc.space = some i := HereOk.some_space ok.proc (at_ ▸ early) (at_ ▸ late)

lemma act_valid (inst : r.Installed) (valid : LocalValid r l) (acts : Acts r l a next) : LocalValid r next := by
  cases acts with
  | createSpace ready => exact createSpace_valid valid ready _
  | activateNew at_ | activateOld at_ | enterForked at_ =>
    obtain ⟨i,here⟩ := valid.some_space at_ Point.noConfusion Point.noConfusion
    exact activate_valid valid here _ (by rw [at_]; exact id)
      (by rw [at_]; exact id) _ _ _
  | @defineRegion image ph rest i as new at_ here space done =>
    obtain ⟨parts,store,acc⟩ := valid.accounts
    have active : activated l.proc.point := by rw [at_]; rfl
    exact valid.replace here ⟨_,store,defineRegion_accounted acc space new⟩ rfl
      (fun _ no => by cases no) (.defining image rest) ⟨new,rfl⟩ (by rw [at_]; exact id)
      (fun _ => valid.blank here space active) _ (fun _ => (valid.tlb active).tagged)
  | @prepared image i as junk load scrap at_ here space done =>
    obtain ⟨parts,store,acc⟩ := valid.accounts
    have active : activated l.proc.point := by rw [at_]; rfl
    refine valid.replace here ⟨_,prepareLoad_accounted inst acc space done⟩ rfl ?_
      (.filling image image.stores) ⟨_,rfl⟩ (by rw [at_]; exact id)
      (fun _ => valid.blank here space active) _ (fun _ => (valid.tlb active).tagged)
    intro bs eq
    cases eq
    exact (loadSpace_filled (asPrepareLoad_some done).2).1
  | @failed image i as junk errno load scrap at_ here space done =>
    obtain ⟨parts,store,acc⟩ := valid.accounts
    obtain ⟨_,accounts⟩ := prepareLoad_failed_accounted inst acc space done
    exact valid.replace here ⟨_,accounts⟩ rfl (fun _ no => by cases no) .stopped ⟨_,rfl⟩
      (by rw [at_]; exact id) (fun no => by cases no) _
      (fun no => by cases no)
  | write allowed written => exact write_valid valid allowed written
  | @completeLoad image at_ =>
    obtain ⟨i,here⟩ := valid.some_space at_ Point.noConfusion Point.noConfusion
    refine activate_valid valid here _ ?_ (by rw [at_]; exact id) _ _ _
    rw [at_]
    rintro ⟨as,prep⟩
    exact ⟨as,prep,fun empty => absurd empty (pushArguments_ne_nil _)⟩
  | fail ready saved => exact fail_valid valid ready saved
  | discard at_ saved freed =>
    have here := valid.proc.here
    rw [at_] at here
    exact destroySaved_valid inst valid saved (by rw [at_]; rfl) here freed _
  | enterFirst at_ saved =>
    obtain ⟨tagged,entries⟩ := valid.tlb (by rw [at_]; rfl)
    have usable := arguments_usable valid at_
    exact ⟨valid.accounts,valid.filled,⟨usable,by rw [saved]; rfl,valid.proc.distinct⟩,fun _ => ⟨tagged,entries⟩⟩
  | enterNext at_ saved freed =>
    exact destroySaved_valid inst valid saved (by rw [at_]; rfl)
      (arguments_usable valid at_) freed _
  | forkReturns at_ =>
    obtain ⟨tagged,entries⟩ := valid.tlb (by rw [at_]; rfl)
    obtain ⟨here,there,distinct⟩ := valid.proc
    rw [at_] at here there
    exact ⟨valid.accounts,valid.filled,⟨here,there,distinct⟩,fun _ => ⟨tagged,entries⟩⟩

-- A thread leaves other processes' address spaces alone and takes none of them.
structure Keeps (l next : Local) : Prop where
  spaces : ∀ i, ¬ l.proc.Holds i → l.frames.spaces i ≠ .absent →
    next.frames.spaces i = l.frames.spaces i
  holds : ∀ i, next.proc.Holds i → l.proc.Holds i ∨ l.frames.spaces i = .absent

lemma keeps_replace {l next : Local} (here : l.proc.Holds k)
    (spaces : next.frames.spaces = update l.frames.spaces k space)
    (holds : ∀ i, next.proc.Holds i → l.proc.Holds i) : Keeps l next := by
  refine ⟨fun i free _ => ?_,fun i held => .inl (holds i held)⟩
  have ne : i ≠ k := fun eq => free (eq ▸ here)
  rw [spaces,update_of_ne ne]

lemma keeps_same {l next : Local} (frames : next.frames = l.frames) (space : next.proc.space = l.proc.space)
    (saved : next.proc.saved = l.proc.saved) : Keeps l next := by
  refine ⟨fun _ _ _ => by rw [frames],fun i held => .inl ?_⟩
  rwa [Proc.Holds,space,saved] at held

lemma holds_unsaved {p : Proc} (i : Nat) (held : Proc.Holds {p with saved := none,point,entry} i) : p.Holds i := by
  rcases held with at_ | at_
  · exact .inl at_
  · cases at_

lemma act_keeps (ok : LocalValid r l) (acts : Acts r l a next) : Keeps l next := by
  cases acts with
  | createSpace ready =>
    obtain ⟨parts,store,acc⟩ := ok.accounts
    have fresh := acc.freshSpaces _ (Nat.le_refl l.frames.nextSpace)
    refine ⟨fun i _ present => ?_,?_⟩
    · have ne : i ≠ l.frames.nextSpace := fun eq => present (eq ▸ fresh)
      exact update_of_ne ne ..
    rintro i (at_ | at_)
    · cases at_
      exact .inr fresh
    · exact .inl (.inl at_)
  | @defineRegion image ph rest k as new at_ here space done =>
    exact keeps_replace (k := k) (.inl here) rfl fun _ held => held
  | @prepared image k as junk load scrap at_ here space done =>
    exact keeps_replace (k := k) (.inl here) rfl fun _ held => held
  | @failed image k as junk errno load scrap at_ here space done =>
    exact keeps_replace (k := k) (.inl here) rfl fun _ held => held
  | discard at_ saved freed | enterNext at_ saved freed =>
    exact keeps_replace (.inr saved) (destroy_some freed).1 holds_unsaved
  | fail ready saved =>
    refine ⟨fun _ _ _ => rfl,fun i held => .inl ?_⟩
    rcases held with at_ | at_
    · cases at_
      exact .inr saved
    · exact .inl at_
  | _ => exact keeps_same rfl rfl rfl

structure Valid (r : Ram) (s : State) : Prop where
  accounts : Accounts r s.frames
  filled : AllFilled r s.frames
  procs : ∀ k p, s.procs k = some p → ProcValid s.frames p
  apart : ∀ j k p q i, s.procs j = some p → s.procs k = some q → p.Holds i → q.Holds i → j = k
  tlb : ∀ k p, s.current = some k → s.procs k = some p → activated p.point = true →
    TlbFor s.frames s.tlb p

lemma initial_valid (r : Ram) (memory : Memory) (tlb : Slots) : Valid r (initial r memory tlb) := by
  refine ⟨⟨_,_,initial_accounted r⟩,?_,?_,?_,?_⟩
  · exact fun _ _ no => FrameOwners.Space.noConfusion no
  · exact fun _ _ no => by cases no
  · exact fun _ _ _ _ _ no => by cases no
  · exact fun _ _ no => by cases no

section
variable (ok : Valid r s)
include ok

lemma Valid.local (cur : s.current = some k) (at_ : s.procs k = some p) : LocalValid r (s.at p) :=
  ⟨ok.accounts,ok.filled,ok.procs k p at_,ok.tlb k p cur at_⟩

lemma Valid.others (at_ : s.procs k = some p) (keeps : Keeps (s.at p) next)
    (ne : j ≠ k) (hit : s.procs j = some q) : ProcValid next.frames q := by
  refine (ok.procs j q hit).congr fun i holds => ?_
  refine keeps.spaces i (fun shared => ne (ok.apart j k q p i hit at_ holds shared)) ?_
  exact (ok.procs j q hit).present holds

lemma move_valid (at_ : s.procs k = some p) (good : LocalValid r next) (keeps : Keeps (s.at p) next) (c : Option Nat)
    (only : ∀ j, c = some j → j = k) : Valid r {s.put k next with current := c} := by
  -- the processes afterwards: the new record at k, the old ones away
  have cases_ : ∀ j q, (s.put k next).procs j = some q → (j = k ∧ q = next.proc) ∨ (j ≠ k ∧ s.procs j = some q) := by
    intro j q hit
    rcases eq_or_ne j k with rfl | ne
    · exact .inl ⟨rfl,some.inj (hit.symm.trans (update_self ..))⟩
    · exact .inr ⟨ne,(update_of_ne ne ..).symm.trans hit⟩
  -- a process away holds nothing that the new record holds
  have sep : ∀ j q i, j ≠ k → s.procs j = some q → q.Holds i → ¬ next.proc.Holds i := by
    intro j q i ne there holds shared
    rcases keeps.holds i shared with pre | absent
    · exact ne (ok.apart j k q p i there at_ holds pre)
    · exact (ok.procs j q there).present holds absent
  refine ⟨good.accounts,good.filled,?_,?_,?_⟩
  · intro j q hit
    rcases cases_ j q hit with ⟨_,rfl⟩ | ⟨ne,there⟩
    · exact good.proc
    · exact ok.others at_ keeps ne there
  · intro j m q t i first second left right
    rcases cases_ j q first with ⟨rfl,rfl⟩ | ⟨ne,there⟩ <;>
      rcases cases_ m t second with ⟨rfl,rfl⟩ | ⟨apart,away⟩
    · rfl
    · exact absurd left (sep m t i apart away right)
    · exact absurd right (sep j q i ne there left)
    · exact ok.apart j m q t i there away left right
  intro j q running hit active
  rcases cases_ j q hit with ⟨_,rfl⟩ | ⟨ne,_⟩
  · exact good.tlb active
  · exact absurd (only j running) ne

lemma put_valid (cur : s.current = some k) (at_ : s.procs k = some p)
    (good : LocalValid r next) (keeps : Keeps (s.at p) next) : Valid r (s.put k next) :=
  move_valid ok at_ good keeps s.current fun _ runs => some.inj (runs.symm.trans cur)

lemma add_valid (good : ProcValid s.frames q) (own : ∀ i j p, q.Holds i → s.procs j = some p → ¬ p.Holds i)
    (idle : s.current ≠ some c) : Valid r {s with procs := update s.procs c (some q)} := by
  have cases_ : ∀ j p, (update s.procs c (some q)) j = some p → (j = c ∧ p = q) ∨ (j ≠ c ∧ s.procs j = some p) := by
    intro j p hit
    rcases eq_or_ne j c with rfl | ne
    · exact .inl ⟨rfl,some.inj (hit.symm.trans (update_self ..))⟩
    · exact .inr ⟨ne,(update_of_ne ne ..).symm.trans hit⟩
  refine ⟨ok.accounts,ok.filled,?_,?_,?_⟩
  · intro j p hit
    rcases cases_ j p hit with ⟨_,rfl⟩ | ⟨_,there⟩
    · exact good
    · exact ok.procs j p there
  · intro j m p t i first second left right
    rcases cases_ j p first with ⟨rfl,rfl⟩ | ⟨ne,there⟩ <;>
      rcases cases_ m t second with ⟨rfl,rfl⟩ | ⟨apart,away⟩
    · rfl
    · exact absurd right (own i m t left away)
    · exact absurd left (own i j p right there)
    · exact ok.apart j m p t i there away left right
  intro j p running hit active
  rcases cases_ j p hit with ⟨rfl,_⟩ | ⟨_,there⟩
  · exact absurd running idle
  · exact ok.tlb j p running there active

end

lemma sysExit_valid (inst : r.Installed) (ok : Valid r s)
    (at_ : s.procs k = some p) (exited : sysExit r s k p = some after) : Valid r after := by
  obtain ⟨i,frames,some_,freed,rfl⟩ := sysExit_some exited
  obtain ⟨spaces,_⟩ := destroy_some freed
  have nothing : ∀ j, ¬ Proc.Holds {p with space := none,saved := none,point := .exited} j := by
    rintro j (no | no) <;> cases no
  refine move_valid ok at_ ?_ ?_ none fun _ no => by cases no
  · exact ⟨destroy_accounts inst ok.accounts freed,ok.filled.set (fun _ no => by cases no) spaces,
      ⟨rfl,rfl,fun _ no => by cases no⟩,fun no => by cases no⟩
  · exact keeps_replace (.inl some_) spaces fun j held => absurd held (nothing j)

lemma spaceOf_prepared (at_ : space.map frames.spaces = some (.prepared as)) : spaceOf frames space = some as := by
  obtain ⟨i,rfl,eq⟩ := map_eq_some_iff.mp at_
  simp only [spaceOf,eq]

lemma touches_prepared (ok : ProcValid frames p) (may : touches p.point vaddr) :
    ∃ i as, p.space = some i ∧ frames.spaces i = .prepared as := by
  have prep : ∃ as, p.space.map frames.spaces = some (.prepared as) := by
    have here := ok.here
    cases at_ : p.point <;> simp only [at_,touches] at may here
    case user =>
      obtain ⟨as,eq,_⟩ := here
      exact ⟨as,eq⟩
    case filling => exact here
    case arguments =>
      obtain ⟨as,eq,_⟩ := here
      exact ⟨as,eq⟩
    all_goals cases may
  obtain ⟨as,eq⟩ := prep
  obtain ⟨i,some_,space⟩ := map_eq_some_iff.mp eq
  exact ⟨i,as,some_,space⟩

lemma retried_tlbFor (tlb : TlbFor frames slots p) (here : p.space = some i)
    (space : frames.spaces i = .prepared as) (raised : raises slots code vaddr)
    (done : mipsTrap (some as) p.loaded slots random iskern badfault code vaddr = .retried after) :
    TlbFor frames after p := by
  obtain ⟨bs,kind,eq,fault,inst⟩ := mipsTrap_retried done
  cases eq
  obtain ⟨prep,ordinary,seg,paddr,hit,entry,rfl⟩ := vmFault_installed inst
  have miss : tlbMapped vaddr ∧ lookup slots (pageFrame vaddr) = none := by
    cases code <;> simp only [faultType] at fault
    case mod => cases fault; exact absurd rfl ordinary
    case tlbl | tlbs => simpa [raises] using raised
    all_goals cases fault
  refine ⟨install_tagged tlb.tagged miss.1 miss.2 _,fun j ok => ?_⟩
  by_cases new : j = (firstInvalid slots).getD random
  · rw [new,update_self]
    exact ⟨i,as,here,space,prep,seg,paddr,hit,entry,rfl⟩
  rw [update_of_ne new] at ok ⊢
  exact tlb.entries j ok

-- The copy that as_copy makes.
structure Copied (r : Ram) (s : State) (old new : AddrSpace) (frames : FrameOwners.State)
    (memory : Memory) : Prop where
  spaces : frames.spaces = update s.frames.spaces s.frames.nextSpace (.prepared new)
  regions : regions new = regions old
  filled : Filled r new
  bytes : memory = copyRegions new old (asZeroRegions new s.memory)
  accounts : Accounts r frames

lemma copySpace_some {s : State} (inst : r.Installed) (accounts : Accounts r s.frames)
    (copied : copySpace r s p junk = some (frames,memory)) :
    ∃ old new, spaceOf s.frames p.space = some old ∧ Copied r s old new frames memory := by
  unfold copySpace at copied
  split at copied
  · cases copied
  rename_i old here
  split at copied
  · rename_i coremap new done
    cases copied
    obtain ⟨parts,store,acc⟩ := accounts
    refine ⟨old,new,here,rfl,?_,?_,rfl,_,copy_accounted inst acc done⟩
    all_goals
      simp only [asCopy] at done
      split at done
    · cases done
    · obtain ⟨final,_,no⟩ := map_eq_some_iff.mp done
      cases no
    · rename_i l load
      cases done
      exact loadSpace_regions (asPrepareLoad_some load).2
    · cases done
    · obtain ⟨final,_,no⟩ := map_eq_some_iff.mp done
      cases no
    rename_i l load
    cases done
    exact (loadSpace_filled (asPrepareLoad_some load).2).1
  · cases copied

section
variable (copied : Copied r s old new frames memory)
include copied

lemma Copied.fresh (accounts : Accounts r s.frames)
    (here : s.frames.spaces i ≠ .absent) : frames.spaces i = s.frames.spaces i := by
  obtain ⟨parts,store,acc⟩ := accounts
  have ne : i ≠ s.frames.nextSpace := fun eq => here (eq ▸ acc.freshSpaces _ le_rfl)
  rw [copied.spaces,update_of_ne ne]

lemma Copied.usable (prep : Prepared old) : Usable ((some s.frames.nextSpace).map frames.spaces) := by
  refine ⟨new,by rw [map_some,copied.spaces,update_self],?_⟩
  have eq := copied.regions
  simp only [FrameMemory.regions,Prod.mk.injEq] at eq
  obtain ⟨base1,pages1,base2,pages2⟩ := eq
  obtain ⟨parts,store,acc⟩ := copied.accounts
  have tables := acc.tables s.frames.nextSpace new (by rw [copied.spaces,update_self])
  exact ⟨base1 ▸ prep.vbase1,tables .text,pages1 ▸ prep.npages1,tables .data,
    base2 ▸ prep.vbase2,pages2 ▸ prep.npages2,tables .stack,
    base1 ▸ prep.aligned1,base2 ▸ prep.aligned2⟩

lemma Copied.parent (ok : Valid r s) (cur : s.current = some k) (at_ : s.procs k = some p) (user : p.point = .user)
    (point : Point) (same : point = .user ∨ ∃ tf child, point = .forking tf child) :
    Valid r (s.put k ⟨frames,memory,s.tlb,{p with point}⟩) := by
  have local_ := ok.local cur at_
  have kept : ∀ i, p.Holds i → frames.spaces i = s.frames.spaces i := fun i holds =>
    copied.fresh ok.accounts (local_.proc.present holds)
  obtain ⟨here,hit,distinct⟩ := local_.proc.congr kept
  obtain ⟨tagged,entries⟩ := local_.tlb (by rw [State.at,user]; rfl)
  refine put_valid ok cur at_ ⟨copied.accounts,?_,⟨?_,?_,distinct⟩,fun _ => ⟨tagged,?_⟩⟩ ?_
  · refine ok.filled.set ?_ copied.spaces
    intro as eq
    cases eq
    exact copied.filled
  · simp only [State.at,user] at here
    rcases same with rfl | ⟨tf,child,rfl⟩ <;> exact here
  · simp only [State.at,user] at hit
    rcases same with rfl | ⟨tf,child,rfl⟩ <;> exact hit
  · intro j some_
    obtain ⟨i,as,space,prep,fine⟩ := entries j some_
    exact ⟨i,as,space,(kept i (.inl space)).trans prep,fine⟩
  · exact ⟨fun i _ present => copied.fresh ok.accounts present,fun i held => .inl held⟩

end

lemma user_prepared (ok : ProcValid frames p) (user : p.point = .user) :
    ∃ i as, p.space = some i ∧ frames.spaces i = .prepared as ∧ Prepared as := by
  have here := ok.here
  rw [user] at here
  obtain ⟨as,eq,prep⟩ := here
  obtain ⟨i,some_,space⟩ := map_eq_some_iff.mp eq
  exact ⟨i,as,some_,space,prep⟩

lemma fork_valid (inst : r.Installed) (ok : Valid r s)
    (cur : s.current = some k) (at_ : s.procs k = some p) (user : p.point = .user)
    (free : s.procs child = none) (copied : copySpace r s p junk = some (frames,memory)) : Valid r {s with
      frames,memory
      procs := update (update s.procs k (some {p with point := .forking tf child})) child
        (some (newChild s.frames.nextSpace tf))} := by
  obtain ⟨old,new,here,copy⟩ := copySpace_some inst ok.accounts copied
  obtain ⟨i,as,some_,space,prep⟩ := user_prepared (ok.procs k p at_) user
  have same : old = as := by
    rw [some_,spaceOf,space] at here
    exact (some.inj here).symm
  subst same
  have parent := copy.parent ok cur at_ user (.forking tf child) (.inr ⟨tf,child,rfl⟩)
  have ne : child ≠ k := fun eq => by rw [eq,at_] at free; cases free
  refine add_valid parent ⟨copy.usable prep,rfl,fun _ _ no => by cases no⟩ ?_ ?_
  · -- nobody holds an address space that did not exist before
    rintro i j q (fresh | no) hit holds
    · cases fresh
      obtain ⟨parts,store,acc⟩ := ok.accounts
      have absent := acc.freshSpaces _ (Nat.le_refl s.frames.nextSpace)
      simp only [State.put] at hit
      rcases eq_or_ne j k with rfl | other
      · rw [update_self] at hit
        cases hit
        exact (ok.procs j p at_).present holds absent
      rw [update_of_ne other] at hit
      exact (ok.procs j q hit).present holds absent
    · cases no
  intro no
  rw [State.put,cur] at no
  exact ne (some.inj no).symm

lemma kernel_valid (ok : Valid r s) (acc : Accounts r frames)
    (spaces : frames.spaces = s.frames.spaces) : Valid r {s with frames} := by
  refine ⟨acc,?_,?_,ok.apart,?_⟩
  · intro i as at_
    exact ok.filled i as (by rw [←spaces]; exact at_)
  · intro k p at_
    exact (ok.procs k p at_).congr fun i _ => by rw [spaces]
  intro k p cur at_ active
  obtain ⟨tagged,entries⟩ := ok.tlb k p cur at_ active
  refine ⟨tagged,fun j some_ => ?_⟩
  simp only [spaces]
  exact entries j some_

lemma dispatch_valid (ok : Valid r s) (at_ : s.procs k = some p) (alive : p.point ≠ .exited) :
    Valid r {s with current := some k,tlb := asActivate p.space s.tlb} := by
  refine ⟨ok.accounts,ok.filled,ok.procs,ok.apart,?_⟩
  intro j q runs hit active
  cases runs
  rw [at_] at hit
  cases hit
  have early : p.point ≠ .program := fun point => by rw [point] at active; cases active
  obtain ⟨i,here⟩ := HereOk.some_space (ok.procs k p at_) early alive
  rw [asActivate_some here]
  exact flushed_tlbFor ..

lemma allocKernel_spaces (done : FrameOwners.step r s (.allocKernel npages) = some frames) :
    frames.spaces = s.spaces := by
  cases some.inj done
  rfl

lemma freeKernel_spaces (done : FrameOwners.step r s (.freeKernel ticket) = some frames) :
    frames.spaces = s.spaces := by
  simp only [FrameOwners.step] at done
  split at done
  · cases done
  obtain ⟨final,_,rfl⟩ := map_eq_some_iff.mp done
  rfl

lemma retried_valid (ok : Valid r s) (hit : s.running = some (k,p)) (may : touches p.point vaddr)
    (raised : raises s.tlb code vaddr)
    (res : mipsTrap (spaceOf s.frames p.space) p.loaded s.tlb random iskern badfault code vaddr = .retried tlb) :
    Valid r {s with tlb} := by
  obtain ⟨cur,at_⟩ := running_some hit
  obtain ⟨i,as,here,space⟩ := touches_prepared (ok.procs k p at_) may
  have eq : spaceOf s.frames p.space = some as :=
    spaceOf_prepared (by rw [here,map_some]; exact congrArg some space)
  rw [eq] at res
  refine ⟨ok.accounts,ok.filled,ok.procs,ok.apart,?_⟩
  intro j q running there _
  cases cur.symm.trans running
  cases at_.symm.trans there
  exact retried_tlbFor (ok.tlb k p cur at_ (touches_activated may)) here space raised res

lemma reap_valid (ok : Valid r s) (k : Nat) : Valid r {s with procs := update s.procs k none} := by
  have kept : ∀ j q, update s.procs k none j = some q → s.procs j = some q := by
    intro j q hit
    rcases eq_or_ne j k with rfl | ne
    · rw [update_self] at hit
      cases hit
    · rwa [update_of_ne ne] at hit
  exact ⟨ok.accounts,ok.filled,fun j q hit => ok.procs j q (kept j q hit),
    fun j m p q i one two => ok.apart j m p q i (kept j p one) (kept m q two),
    fun j q runs hit => ok.tlb j q runs (kept j q hit)⟩

lemma step_valid (inst : r.Installed) (ok : Valid r s) (steps : Steps r s event after) : Valid r after := by
  cases steps with
  | act hit acts =>
    obtain ⟨cur,at_⟩ := running_some hit
    have local_ := ok.local cur at_
    exact put_valid ok cur at_ (act_valid inst local_ acts) (act_keeps local_ acts)
  | retried hit may raised res => exact retried_valid ok hit may raised res
  | ignored => exact ok
  | killed hit may exited => exact sysExit_valid inst ok (running_some hit).2 exited
  | exit hit user exited => exact sysExit_valid inst ok (running_some hit).2 exited
  | fork hit user free copied =>
    obtain ⟨cur,at_⟩ := running_some hit
    exact fork_valid inst ok cur at_ user free copied
  | @abandonFork k p junk frames memory hit user copied =>
    obtain ⟨cur,at_⟩ := running_some hit
    obtain ⟨old,new,_,copy⟩ := copySpace_some inst ok.accounts copied
    have parent := copy.parent ok cur at_ user .user (.inl rfl)
    have record : update s.procs k (some {p with point := .user}) = s.procs := by
      rw [←user,←at_]
      exact update_eq_self ..
    simpa only [State.put,record] using parent
  | launch idle free =>
    refine add_valid ok ⟨rfl,rfl,fun _ no => by cases no⟩ ?_ ?_
    · rintro i j p (no | no) <;> cases no
    rw [idle]
    exact fun no => by cases no
  | idle => exact ⟨ok.accounts,ok.filled,ok.procs,ok.apart,fun _ _ no => by cases no⟩
  | dispatch at_ alive => exact dispatch_valid ok at_ alive
  | reap at_ gone => exact reap_valid ok _
  | allocKernel done =>
    obtain ⟨parts,store,acc⟩ := ok.accounts
    exact kernel_valid ok ⟨parts,allocKernel_accounted inst acc done⟩ (allocKernel_spaces done)
  | @freeKernel ticket frames done =>
    obtain ⟨parts,store,acc⟩ := ok.accounts
    exact kernel_valid ok (step_accounted inst acc
      (show Copies r s.frames (.freeKernel ticket) from trivial) done) (freeKernel_spaces done)

lemma reached_valid (inst : r.Installed) (path : Reached r memory tlb s) : Valid r s :=
  path.invariant (Valid r) (initial_valid r memory tlb) fun _ ok _ did => step_valid inst ok (step_sound did)

lemma Valid.entries (ok : Valid r s) (cur : s.current = some k) (at_ : s.procs k = some p)
    (active : activated p.point) (here : p.space = some i) (space : s.frames.spaces i = .prepared as) :
    ∀ j, (s.tlb j).valid → Matches as p.loaded (s.tlb j) := by
  intro j some_
  obtain ⟨m,bs,hit,place,_,matched⟩ := (ok.tlb k p cur at_ active).entries j some_
  cases here.symm.trans hit
  cases space.symm.trans place
  exact matched

lemma Valid.user_mapped (aligned : Aligned r) (ok : Valid r s)
    (at_ : s.procs k = some p) (user : p.point = .user) (space : spaceOf s.frames p.space = some as) :
    ∃ i, p.space = some i ∧ s.frames.spaces i = .prepared as ∧ Mapped as := by
  obtain ⟨i,bs,here,place,prep⟩ := user_prepared (ok.procs k p at_) user
  have eq : spaceOf s.frames p.space = some bs :=
    spaceOf_prepared (by rw [here,map_some]; exact congrArg some place)
  cases eq.symm.trans space
  exact ⟨i,here,place,filled_mapped aligned (ok.filled i as place) prep⟩

-- The rule for a fact about single processes: it depends only on the process's address spaces, holds of new processes,
-- and the process's steps keep it.
structure PerProcess (r : Ram) (Good : FrameOwners.State → Proc → Prop) : Prop where
  congr : ∀ {frames after p}, Good frames p → (∀ i, p.Holds i → after.spaces i = frames.spaces i) →
    Good after p
  acts : ∀ {l a next}, LocalValid r l → Good l.frames l.proc → Acts r l a next →
    Good next.frames next.proc
  program : ∀ frames, Good frames newProgram
  child : ∀ frames i tf, Good frames (newChild i tf)
  forking : ∀ {frames p}, Good frames p → p.point = .user →
    ∀ tf child, Good frames {p with point := .forking tf child}
  exited : ∀ {frames p}, Good frames p →
    ∀ after, Good after {p with space := none,saved := none,point := .exited}

lemma PerProcess.step (rule : PerProcess r Good) (inst : r.Installed)
    (ok : Valid r s) (good : ∀ k p, s.procs k = some p → Good s.frames p)
    (steps : Steps r s event after) : ∀ k p, after.procs k = some p → Good after.frames p := by
  -- `k` has a new record, the others keep theirs and their address spaces
  have put : ∀ {k p next}, s.procs k = some p → Keeps (s.at p) next → Good next.frames next.proc →
      ∀ j q, (s.put k next).procs j = some q → Good next.frames q := by
    intro k p next at_ keeps fine j q hit
    simp only [State.put] at hit
    rcases eq_or_ne j k with rfl | other
    · rw [update_self] at hit
      cases hit
      exact fine
    rw [update_of_ne other] at hit
    refine rule.congr (good j q hit) fun i holds => ?_
    refine keeps.spaces i (fun shared => other (ok.apart j k q p i hit at_ holds shared)) ?_
    exact (ok.procs j q hit).present holds
  have exit : ∀ {k p}, s.procs k = some p → sysExit r s k p = some after →
      ∀ j q, after.procs j = some q → Good after.frames q := by
    intro k p at_ exited
    obtain ⟨i,frames,some_,freed,rfl⟩ := sysExit_some exited
    refine put at_ (keeps_replace (.inl some_) (destroy_some freed).1 ?_) (rule.exited (good k p at_) _)
    rintro j (no | no) <;> cases no
  have copies : ∀ {p junk frames memory}, copySpace r s p junk = some (frames,memory) →
      ∀ j q, s.procs j = some q → Good frames q := by
    intro p junk frames memory copied j q there
    obtain ⟨old,new,_,copy⟩ := copySpace_some inst ok.accounts copied
    exact rule.congr (good j q there) fun i holds => copy.fresh ok.accounts ((ok.procs j q there).present holds)
  cases steps with
  | act hit acts =>
    obtain ⟨cur,at_⟩ := running_some hit
    have local_ := ok.local cur at_
    exact put at_ (act_keeps local_ acts) (rule.acts local_ (good _ _ at_) acts)
  | retried | ignored | idle | dispatch => exact good
  | killed hit may exited => exact exit (running_some hit).2 exited
  | exit hit user exited => exact exit (running_some hit).2 exited
  | @fork k p child junk frames memory tf hit user free copied =>
    intro j q there
    simp only at there ⊢
    rcases eq_or_ne j child with rfl | other
    · rw [update_self] at there
      cases there
      exact rule.child _ _ _
    rw [update_of_ne other] at there
    rcases eq_or_ne j k with rfl | ne
    · rw [update_self] at there
      cases there
      exact rule.forking (copies copied j p (running_some hit).2) user tf child
    rw [update_of_ne ne] at there
    exact copies copied j q there
  | abandonFork hit user copied => exact copies copied
  | @launch k idle free =>
    intro j q there
    simp only at there ⊢
    rcases eq_or_ne j k with rfl | other
    · rw [update_self] at there
      cases there
      exact rule.program _
    rw [update_of_ne other] at there
    exact good j q there
  | @reap k p at_ gone =>
    intro j q there
    simp only at there ⊢
    rcases eq_or_ne j k with rfl | other
    · rw [update_self] at there
      cases there
    rw [update_of_ne other] at there
    exact good j q there
  | allocKernel done => exact fun j q there => rule.congr (good j q there) fun i _ => by rw [allocKernel_spaces done]
  | freeKernel done => exact fun j q there => rule.congr (good j q there) fun i _ => by rw [freeKernel_spaces done]

lemma PerProcess.reached (rule : PerProcess r Good) (inst : r.Installed)
    (path : Reached r memory tlb s) : ∀ k p, s.procs k = some p → Good s.frames p := by
  refine path.invariant (fun s => ∀ k p, s.procs k = some p → Good s.frames p) ?_ ?_
  · exact fun _ _ no => by cases no
  intro s event after prior good _ taken
  exact rule.step inst (reached_valid inst prior) good (step_sound taken)
end ToyOS.Running

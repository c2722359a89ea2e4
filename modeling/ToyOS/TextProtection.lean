import ToyOS.RunningInvariant

namespace ToyOS.TextProtection
open Function UserSpace Tlb Coremap Traps FrameMemory Running Option
open KernelPages (Aligned)
open FrameOwners (forkRam)

def beforeLoad : Point → Bool
  | .program => true
  | .switched _ => true
  | .defining _ _ => true
  | .filling _ _ => true
  | .stopped => true
  | .exited => true
  | _ => false

-- What `loaded` says about the history of a process.
structure HistoryOk (p : Proc) : Prop where
  loads : p.loaded = true ↔ 0 < p.loads
  first : p.forked = false → p.loaded = true ∨ p.saved = none ∧ beforeLoad p.point = true

lemma HistoryOk.move (ok : HistoryOk p) (kept : beforeLoad p.point → beforeLoad point) : HistoryOk {p with point} :=
  ⟨ok.loads,fun program => (ok.first program).imp_right fun ⟨saved,pre⟩ => ⟨saved,kept pre⟩⟩

lemma HistoryOk.replaced (ok : HistoryOk p) (saved : p.saved = some old) (space other : Option Nat)
    (point : Point) (entry : Trapframe) : HistoryOk {p with space,saved := other,point,entry} := by
  refine ⟨ok.loads,fun program => .inl ?_⟩
  rcases ok.first program with load | ⟨none_,_⟩
  · exact load
  rw [saved] at none_
  cases none_

lemma HistoryOk.later (ok : HistoryOk p) (later : beforeLoad p.point = false) (space saved : Option Nat)
    (point : Point) (entry : Trapframe) : HistoryOk {p with space,saved,point,entry} := by
  refine ⟨ok.loads,fun program => .inl ?_⟩
  rcases ok.first program with load | ⟨_,pre⟩
  · exact load
  rw [later] at pre
  cases pre

lemma acts_historyOk (valid : LocalValid r l) (ok : HistoryOk l.proc)
    (acts : Acts r l a next) : HistoryOk next.proc := by
  cases acts with
  | createSpace ready =>
    rcases ready with at_ | at_
    · have none_ : l.proc.space = none := by
        have here := valid.proc.here
        rw [at_] at here
        exact Option.map_eq_none_iff.mp here
      exact ⟨ok.loads,fun program => (ok.first program).imp_right fun _ => ⟨none_,rfl⟩⟩
    · exact ok.later (by rw [at_]; rfl) _ _ _ _
  | activateNew at_ | defineRegion at_ | prepared at_ | failed at_ => exact ok.move fun _ => rfl
  | activateOld at_ | enterForked at_ | forkReturns at_ => exact ok.later (by rw [at_]; rfl) _ _ _ _
  | write =>
    refine ok.move fun pre => ?_
    cases at_ : l.proc.point <;> simp only [at_] at pre ⊢
    case filling image left => cases left <;> rfl
    all_goals first | exact pre | cases pre
  | completeLoad => exact ⟨⟨fun _ => Nat.succ_pos _,fun _ => rfl⟩,fun _ => .inl rfl⟩
  | fail ready saved => exact ok.replaced saved _ _ _ _
  | discard at_ saved | enterNext at_ saved => exact ok.replaced saved _ _ _ _
  | enterFirst at_ saved => exact ok.later (by rw [at_]; rfl) _ _ _ _

lemma history_perProcess (r : Ram) : PerProcess r fun _ p => HistoryOk p where
  congr ok _ := ok
  acts valid ok acts := acts_historyOk valid ok acts
  program _ := ⟨by decide,fun _ => .inr ⟨rfl,rfl⟩⟩
  child _ _ _ := ⟨by simp [newChild],fun no => by cases no⟩
  forking ok user _ _ := ok.later (by rw [user]; rfl) _ _ _ _
  exited ok _ := ⟨ok.loads,fun program => (ok.first program).imp_right fun _ => ⟨rfl,rfl⟩⟩

lemma user_loaded_iff (inst : r.Installed) (path : Reached r memory tlb s) (at_ : s.procs k = some p)
    (user : p.point = .user) : p.loaded ↔ (p.forked → 0 < p.loads) := by
  have ok := (history_perProcess r).reached inst path k p at_
  constructor
  · exact fun load _ => ok.loads.mp load
  intro history
  cases forked : p.forked with
  | true => exact ok.loads.mpr (history forked)
  | false =>
    rcases ok.first forked with load | ⟨_,pre⟩
    · exact load
    rw [user] at pre
    cases pre

def TextClean (as : AddrSpace) (loaded : Bool) (tlb : Slots) : Prop :=
  (∀ i, (tlb i).valid = true → segmentOf as (tlb i).vpage = some .text → (tlb i).dirty = false) ∧
  ∀ random kind vaddr after i, lookup tlb (pageFrame vaddr) = none →
    vmFault as loaded tlb random kind vaddr = .installed after →
    segmentOf as (pageFrame vaddr) = some .text → lookup after (pageFrame vaddr) = some i →
    (after i).dirty = false

lemma text_entry_dirty (matched : Matches as loaded e)
    (text : segmentOf as e.vpage = some .text) : e.dirty = !loaded := by
  obtain ⟨seg,paddr,hit,_,eq⟩ := matched
  cases hit.symm.trans text
  rw [eq]
  cases loaded <;> rfl

lemma loaded_textClean (entries : ∀ i, (tlb i).valid → Matches as true (tlb i)) : TextClean as true tlb := by
  refine ⟨fun i ok text => text_entry_dirty (entries i ok) text,?_⟩
  intro random kind vaddr after i missing inst text hit
  obtain ⟨_,_,seg,paddr,place,entry,rfl⟩ := vmFault_installed inst
  rw [lookup_update missing] at hit
  cases hit
  rw [update_self]
  exact text_entry_dirty (e := entryFor (pageFrame vaddr) paddr seg true) ⟨seg,paddr,place,entry,rfl⟩ text

lemma unloaded_writable (mapped : Mapped as) (text : as.asVbase1 < vtop1 as)
    (entries : ∀ i, (tlb i).valid → Matches as false (tlb i)) : ¬ TextClean as false tlb := by
  rintro ⟨here,miss⟩
  have page : pageFrame as.asVbase1 = as.asVbase1 := mapped.aligned1
  have one : segmentOf as (pageFrame as.asVbase1) = some .text := by rw [page,segmentOf,if_pos ⟨le_rfl,text⟩]
  cases hit : lookup tlb (pageFrame as.asVbase1) with
  | some i =>
    obtain ⟨ok,eq⟩ := lookup_some hit
    rw [←eq] at one
    have clean := here i ok one
    rw [text_entry_dirty (entries i ok) one] at clean
    cases clean
  | none =>
    rcases vmFault_cases mapped false tlb slot as.asVbase1 (by decide : FaultType.write ≠ .readonly)
      with ⟨out,_⟩ | ⟨seg,paddr,place,entry,inst⟩
    · rw [one] at out
      cases out
    have clean := miss slot .write as.asVbase1 _ _ hit inst one (lookup_update hit)
    cases place.symm.trans one
    rw [update_self] at clean
    cases clean

lemma noText_textClean (empty : vtop1 as ≤ as.asVbase1) : TextClean as loaded tlb := by
  have never : ∀ page, segmentOf as page ≠ some .text := by
    intro page hit
    unfold segmentOf at hit
    split at hit
    · rename_i inside
      omega
    split at hit
    · cases hit
    · split at hit <;> cases hit
  exact ⟨fun _ _ text => absurd text (never _),fun _ _ _ _ _ _ _ text => absurd text (never _)⟩

theorem text_protected_iff {s : State} (aligned : Aligned r) (path : Reached r memory tlb s)
    (current : s.current = some k) (at_ : s.procs k = some p) (user : p.point = .user)
    (space : spaceOf s.frames p.space = some as) :
    TextClean as p.loaded s.tlb ↔ (p.forked = true → 0 < p.loads) ∨ vtop1 as ≤ as.asVbase1 := by
  have valid := reached_valid aligned.installed path
  obtain ⟨i,here,place,mapped⟩ := valid.user_mapped aligned at_ user space
  have entries := valid.entries current at_ (by rw [user]; rfl) here place
  rw [←user_loaded_iff aligned.installed path at_ user]
  cases loaded : p.loaded with
  | true =>
    rw [loaded] at entries
    exact ⟨fun _ => .inl rfl,fun _ => loaded_textClean entries⟩
  | false =>
    rw [loaded] at entries
    constructor
    · intro clean
      by_contra neither
      simp only [Bool.false_eq_true,false_or,not_le] at neither
      exact unloaded_writable mapped neither entries clean
    rintro (impossible | empty)
    · cases impossible
    · exact noText_textClean empty

theorem started_text_protected : ∃ s p as, Reached forkRam (fun _ => 0) flushed s ∧
    s.current = some 2 ∧ s.procs 2 = some p ∧ p.point = .user ∧ p.loads = 1 ∧
    spaceOf s.frames p.space = some as ∧ TextClean as p.loaded s.tlb := by
  have ran : ((forkRun startTiny).map
      fun s => (s.current,(s.procs 2).map fun p => (isUser p.point,p.loads,
        (spaceOf s.frames p.space).isSome))) = some (some 2,some (true,1,true)) := by
    decide +kernel
  obtain ⟨s,reached,values⟩ := map_eq_some_iff.mp ran
  obtain ⟨current,found⟩ := Prod.mk.inj values
  obtain ⟨p,at_,fields⟩ := map_eq_some_iff.mp found
  simp only [Prod.mk.injEq] at fields
  obtain ⟨user,loads,space⟩ := fields
  obtain ⟨as,equal⟩ := isSome_iff_exists.mp space
  have path : Reached forkRam (fun _ => 0) flushed s := Transition.run_reached reached
  have protected_ := text_protected_iff forkRam_aligned path current at_ (isUser_iff.mp user) equal
  exact ⟨s,p,as,path,current,at_,isUser_iff.mp user,loads,equal,
    protected_.mpr (.inl fun _ => by rw [loads]; exact Nat.one_pos)⟩

theorem forked_text_writable : ∃ s p as, Reached forkRam (fun _ => 0) flushed s ∧
    s.current = some 3 ∧ s.procs 3 = some p ∧ isUser p.point = true ∧
    spaceOf s.frames p.space = some as ∧ segmentOf as 0x400000 = some .text ∧
    (s.tlb slot).vpage = 0x400000 ∧ (s.tlb slot).valid = true ∧ (s.tlb slot).dirty = true := by
  have ran : ((forkRun (startTiny++forkTiny++[.trap false false slot .tlbs 0x400000,poke 0x400000])).map
      fun s => (s.current,(s.procs 3).map fun p => (isUser p.point,(spaceOf s.frames p.space).map
        fun as => decide (segmentOf as 0x400000 = some .text)),(s.tlb slot).vpage,(s.tlb slot).valid,
        (s.tlb slot).dirty)) =
      some (some 3,some (true,some true),0x400000,true,true) := by
    decide +kernel
  obtain ⟨s,reached,values⟩ := map_eq_some_iff.mp ran
  simp only [Prod.mk.injEq] at values
  obtain ⟨current,found,page,valid,dirty⟩ := values
  obtain ⟨p,at_,fields⟩ := map_eq_some_iff.mp found
  obtain ⟨user,space⟩ := Prod.mk.inj fields
  obtain ⟨as,equal,text⟩ := map_eq_some_iff.mp space
  exact ⟨s,p,as,Transition.run_reached reached,current,at_,user,equal,of_decide_eq_true text,page,
    valid,dirty⟩
end ToyOS.TextProtection

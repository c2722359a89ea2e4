import ToyOS.TextProtection
import ToyOS.UserCopy

namespace ToyOS.ExecLoad
open Function UserSpace Tlb Coremap SpaceFrames StoppedLoad FrameMemory Running UserCopy Option
open TextProtection
open KernelPages (Aligned)
open FrameOwners (forkRam)

def defineAll (as : AddrSpace) : List Phdr → Except Errno AddrSpace
  | [] => .ok as
  | ph :: rest => match asDefineRegion as ph.vaddr.toNat ph.memsz.toNat with
    | .ok as => defineAll as rest
    | .error errno => .error errno

def BuildOk (frames : FrameOwners.State) (p : Proc) : Prop :=
  match p.point with
  | .switched _ => ∃ i, p.space = some i ∧ frames.spaces i = .defined asCreate
  | .defining image left => ∃ i as, p.space = some i ∧ frames.spaces i = .defined as ∧
      defineAll as left = defineAll asCreate image.segments
  | .filling image left => ∃ i as defined, p.space = some i ∧ frames.spaces i = .prepared as ∧
      defineAll asCreate image.segments = .ok defined ∧ regions as = regions defined ∧
      left <:+ image.stores
  | _ => True

lemma BuildOk.congr (ok : BuildOk frames p)
    (eq : ∀ i, p.Holds i → after.spaces i = frames.spaces i) : BuildOk after p := by
  unfold BuildOk at ok ⊢
  split at ok
  · obtain ⟨i,here,space⟩ := ok
    exact ⟨i,here,(eq i (.inl here)).trans space⟩
  · obtain ⟨i,as,here,space,rest⟩ := ok
    exact ⟨i,as,here,(eq i (.inl here)).trans space,rest⟩
  · obtain ⟨i,as,defined,here,space,rest⟩ := ok
    exact ⟨i,as,defined,here,(eq i (.inl here)).trans space,rest⟩
  · trivial

lemma acts_buildOk {l : Local} (ok : BuildOk l.frames l.proc) (acts : Acts r l a next) :
    BuildOk next.frames next.proc := by
  cases acts with
  | createSpace => exact ⟨_,rfl,update_self ..⟩
  | activateNew at_ =>
    rw [BuildOk,at_] at ok
    obtain ⟨i,here,space⟩ := ok
    exact ⟨i,asCreate,here,space,rfl⟩
  | @defineRegion image ph rest i as new at_ here space done =>
    rw [BuildOk,at_] at ok
    obtain ⟨j,bs,hit,eq,rest_⟩ := ok
    cases here.symm.trans hit
    cases space.symm.trans eq
    rw [defineAll,done] at rest_
    exact ⟨i,new,here,update_self ..,rest_⟩
  | @prepared image i as junk load scrap at_ here space done =>
    rw [BuildOk,at_] at ok
    obtain ⟨j,bs,hit,eq,whole⟩ := ok
    cases here.symm.trans hit
    cases space.symm.trans eq
    exact ⟨i,load.space,as,here,update_self ..,whole.symm,
      loadSpace_regions (asPrepareLoad_some done).2,List.suffix_refl _⟩
  | write =>
    unfold BuildOk at ok ⊢
    cases at_ : l.proc.point <;> simp only [at_,afterStore,Local.setPoint] at ok ⊢
    case switched | defining => exact ok
    case filling image left =>
      obtain ⟨i,as,defined,here,space,whole,same,suffix⟩ := ok
      cases left with
      | nil => exact ⟨i,as,defined,here,space,whole,same,suffix⟩
      | cons vaddr rest => exact ⟨i,as,defined,here,space,whole,same,(List.suffix_cons vaddr rest).trans suffix⟩
    case arguments image left => cases left <;> trivial
  | _ => trivial

lemma build_perProcess (r : Ram) : PerProcess r BuildOk where
  congr ok same := ok.congr same
  acts _ ok acts := acts_buildOk ok acts
  program _ := trivial
  child _ _ _ := trivial
  forking _ _ _ _ := trivial
  exited _ _ := trivial

def Inside (ph : Phdr) (vaddr : Nat) : Prop :=
  ph.vaddr.toNat ≤ vaddr ∧ vaddr < ph.vaddr.toNat+ph.memsz.toNat

-- Two segments, the first one the text: between the first page and the stack, not empty, with no common page.
structure WellFormed (text data : Phdr) : Prop where
  textAbove : pageSize ≤ text.vaddr.toNat
  dataAbove : pageSize ≤ data.vaddr.toNat
  textSize : 0 < text.memsz.toNat
  dataSize : 0 < data.memsz.toNat
  textBelow : text.vaddr.toNat+text.memsz.toNat ≤ stackbase
  dataBelow : data.vaddr.toNat+data.memsz.toNat ≤ stackbase
  apart : ∀ a b, Inside text a → Inside data b → pageFrame a ≠ pageFrame b

def Phdr.npages (ph : Phdr) : Nat :=
  pageFrame (wrap (wrap (ph.memsz.toNat+ph.vaddr.toNat % pageSize)+pageSize-1)) / pageSize

def planned (text data : Phdr) : AddrSpace :=
  {asCreate with
    asVbase1 := pageFrame text.vaddr.toNat,asNpages1 := Phdr.npages text
    asVbase2 := pageFrame data.vaddr.toNat,asNpages2 := Phdr.npages data}

lemma pageFrame_ne_zero (above : pageSize ≤ vaddr) : pageFrame vaddr ≠ 0 := by
  unfold pageFrame
  unfold pageSize at *
  omega

lemma defineAll_planned (formed : WellFormed text data) : defineAll asCreate [text,data] = .ok (planned text data) := by
  have one := pageFrame_ne_zero formed.textAbove
  simp [defineAll,asDefineRegion,asCreate,planned,Phdr.npages,one]

lemma region_pages (size : 0 < ph.memsz.toNat) (lt : ph.vaddr.toNat+ph.memsz.toNat ≤ stackbase) :
    Phdr.npages ph ≠ 0 ∧ ∀ vaddr, (pageFrame ph.vaddr.toNat ≤ pageFrame vaddr ∧
        pageFrame vaddr < wrap (pageFrame ph.vaddr.toNat+Phdr.npages ph*pageSize)) ↔
      ∃ a, Inside ph a ∧ pageFrame a = pageFrame vaddr := by
  have bound : stackbase < 2^31 := by decide
  have count : Phdr.npages ph*pageSize = pageFrame (ph.memsz.toNat+ph.vaddr.toNat % pageSize+pageSize-1) := by
    unfold Phdr.npages pageFrame wrap pageSize
    omega
  have last : wrap (pageFrame ph.vaddr.toNat+Phdr.npages ph*pageSize) =
      pageFrame (ph.vaddr.toNat+ph.memsz.toNat+pageSize-1) := by
    rw [count]
    unfold pageFrame wrap pageSize
    omega
  constructor
  · intro none_
    rw [none_] at count
    unfold pageFrame pageSize at count
    omega
  intro vaddr
  rw [last]
  unfold Inside
  constructor
  · rintro ⟨above,under⟩
    by_cases one : pageFrame vaddr ≤ ph.vaddr.toNat
    · refine ⟨ph.vaddr.toNat,⟨le_rfl,by omega⟩,?_⟩
      unfold pageFrame pageSize at *
      omega
    refine ⟨pageFrame vaddr,⟨by omega,?_⟩,?_⟩
    · unfold pageFrame pageSize at *
      omega
    unfold pageFrame pageSize
    omega
  rintro ⟨a,⟨above,under⟩,eq⟩
  rw [←eq]
  unfold pageFrame pageSize
  omega

section
variable (formed : WellFormed text data)
include formed

lemma planned_text (eq : regions as = regions (planned text data)) (vaddr : Nat) :
    segmentOf as (pageFrame vaddr) = some .text ↔ ∃ a, Inside text a ∧ pageFrame a = pageFrame vaddr := by
  have pages := (region_pages formed.textSize formed.textBelow).2 vaddr
  simp only [regions,planned,Prod.mk.injEq] at eq
  rw [←pages,segmentOf,vtop1,eq.1,eq.2.1]
  constructor
  · intro hit
    split at hit
    · assumption
    split at hit
    · cases hit
    · split at hit <;> cases hit
  · exact fun inside => if_pos inside

lemma planned_data (eq : regions as = regions (planned text data))
    (inside : Inside data vaddr) : segmentOf as (pageFrame vaddr) = some .data := by
  have out : ¬ segmentOf as (pageFrame vaddr) = some .text := by
    rw [planned_text formed eq]
    rintro ⟨a,text_,page⟩
    exact formed.apart a vaddr text_ inside page
  have pages := ((region_pages formed.dataSize formed.dataBelow).2 vaddr).mpr ⟨vaddr,inside,rfl⟩
  simp only [regions,planned,Prod.mk.injEq] at eq
  unfold segmentOf at out ⊢
  split at out
  · exact absurd rfl out
  rename_i away
  rw [if_neg away,if_pos]
  rw [vtop2,eq.2.2.1,eq.2.2.2]
  exact pages

lemma planned_prepared (eq : regions as = regions (planned text data)) (tables : ∀ seg, as.table seg ≠ none) :
    Prepared as := by
  simp only [regions,planned,Prod.mk.injEq] at eq
  obtain ⟨vbase1,npages1,vbase2,npages2⟩ := eq
  refine ⟨?_,tables .text,?_,tables .data,?_,?_,tables .stack,?_,?_⟩
  · rw [vbase1]
    exact pageFrame_ne_zero formed.textAbove
  · rw [npages1]
    exact (region_pages formed.textSize formed.textBelow).1
  · rw [vbase2]
    exact pageFrame_ne_zero formed.dataAbove
  · rw [npages2]
    exact (region_pages formed.dataSize formed.dataBelow).1
  · rw [vbase1]
    unfold pageFrame pageSize
    omega
  rw [vbase2]
  unfold pageFrame pageSize
  omega

end

lemma stores_inside (stored : vaddr ∈ ph.stores) : Inside ph vaddr := by
  obtain ⟨i,range,rfl⟩ := List.mem_map.mp stored
  have lt := List.mem_range.mp range
  unfold Inside
  omega

lemma stores_complete_iff (formed : WellFormed text data) (ok : CpuInvariant c)
    (eq : regions c.space = regions (planned text data))
    (stores : ∀ vaddr ∈ left, vaddr ∈ text.stores ∨ vaddr ∈ data.stores) (random : Nat → Fin numTlb) :
    ((∃ next, storeAll random c left = .stored next) ↔ c.loaded = false ∨ ∀ vaddr ∈ left, vaddr ∉ text.stores) ∧
    (storeAll random c left = .exits ↔ ¬∃ next, storeAll random c left = .stored next) := by
  have mapped : ∀ vaddr ∈ left, ¬ Unmapped c vaddr := by
    intro vaddr among miss
    rw [Unmapped] at miss
    rcases stores vaddr among with one | two
    · rw [(planned_text formed eq vaddr).mpr ⟨vaddr,stores_inside one,rfl⟩] at miss
      cases miss
    rw [planned_data formed eq (stores_inside two)] at miss
    cases miss
  have readOnly : ∀ vaddr ∈ left, ReadOnly c vaddr ↔ vaddr ∈ text.stores ∧ c.loaded := by
    intro vaddr among
    rw [ReadOnly,planned_text formed eq]
    constructor
    · rintro ⟨⟨a,inside,page⟩,load⟩
      refine ⟨(stores vaddr among).resolve_right fun two => ?_,load⟩
      exact formed.apart a vaddr inside (stores_inside two) page
    · exact fun both => ⟨⟨vaddr,stores_inside both.1,rfl⟩,both.2⟩
  rcases storeAll_cases ok random left with ⟨next,clear,done⟩ | ⟨addr,one,outcome⟩
  · refine ⟨⟨fun _ => ?_,fun _ => ⟨next,done⟩⟩,by simp [done]⟩
    cases load : c.loaded with
    | false => exact .inl rfl
    | true =>
      refine .inr fun vaddr among text_ => ?_
      have free := List.find?_eq_none.mp clear vaddr among
      exact free (decide_eq_true (.inr ((readOnly vaddr among).mpr ⟨text_,load⟩)))
  have among := List.mem_of_find?_eq_some one
  rcases outcome with ⟨miss,_⟩ | ⟨blocked,exited⟩
  · exact absurd miss (mapped addr among)
  obtain ⟨text_,load⟩ := (readOnly addr among).mp blocked
  refine ⟨⟨fun stored => ?_,fun may => ?_⟩,by simp [exited]⟩
  · obtain ⟨next,done⟩ := stored
    rw [exited] at done
    cases done
  rcases may with unloaded | none_
  · rw [load] at unloaded
    cases unloaded
  · exact absurd text_ (none_ addr among)

lemma exec_unloaded_iff (ok : HistoryOk p) (saved : p.saved = some old) :
    p.loaded = false ↔ p.forked ∧ p.loads = 0 := by
  have again := ok.loads
  cases load : p.loaded with
  | true =>
    rw [load] at again
    have pos := again.mp rfl
    constructor
    · exact fun no => by cases no
    rintro ⟨_,zero⟩
    omega
  | false =>
    rw [load] at again
    refine ⟨fun _ => ⟨?_,Nat.eq_zero_of_not_pos fun more => Bool.noConfusion (again.mpr more)⟩,fun _ => rfl⟩
    cases forked : p.forked with
    | true => rfl
    | false =>
      rcases ok.first forked with no | ⟨none_,_⟩
      · rw [load] at no
        cases no
      rw [saved] at none_
      cases none_

lemma build_runs {s : State} (inst : r.Installed) (formed : WellFormed text data)
    (segments : image.segments = [text,data]) (cur : s.current = some k)
    (at_ : s.procs k = some p) (user : p.point = .user)
    (fits : Fits r s.frames.coremap (planned text data)) (junk : Segment → Nat → Nat) (scrap : Memory) :
    ∃ after, Transition.run (step r) s ((build image junk scrap).map .act) = some after ∧
      after.current = some k ∧ after.procs k = some {p with
        space := some s.frames.nextSpace,saved := p.space
        point := .filling image image.stores} := by
  have absent : ∀ seg, (planned text data).table seg = none := fun seg => by cases seg <;> rfl
  obtain ⟨load,done⟩ : ∃ load, asPrepareLoad r junk s.frames.coremap (planned text data) = some (.ok () load) := by
    rcases asPrepareLoad_cases inst absent junk s.frames.coremap with ⟨_,done⟩ | ⟨full,_⟩
    · exact done
    · exact absurd fits full
  have one := pageFrame_ne_zero formed.textAbove
  have regionOne : asDefineRegion asCreate text.vaddr.toNat text.memsz.toNat =
      .ok {asCreate with asVbase1 := pageFrame text.vaddr.toNat,asNpages1 := Phdr.npages text} := rfl
  have regionTwo : asDefineRegion {asCreate with
      asVbase1 := pageFrame text.vaddr.toNat,asNpages1 := Phdr.npages text} data.vaddr.toNat
      data.memsz.toNat = .ok (planned text data) := by
    simp [asDefineRegion,asCreate,planned,Phdr.npages,one]
  have acts : ∃ next, Transition.run (act r) (s.at p) (build image junk scrap) = some next ∧ next.proc = {p with
        space := some s.frames.nextSpace,saved := p.space
        point := .filling image image.stores} := by
    simp [build,segments,Transition.run,act,State.at,user,Local.setPoint,FrameOwners.State.addSpace,
      FrameOwners.State.setSpace,regionOne,regionTwo,done,List.replicate]
  obtain ⟨next,ran,eq⟩ := acts
  exact ⟨s.put k next,run_acts cur at_ ran,cur,by rw [←eq]; exact update_self ..⟩

lemma filling_cpu (aligned : Aligned r) (formed : WellFormed text data)
    (segments : image.segments = [text,data]) (path : Reached r memory tlb s) (cur : s.current = some k)
    (at_ : s.procs k = some p) (filling : p.point = .filling image left) (space : spaceOf s.frames p.space = some as) :
    CpuInvariant ⟨as,p.loaded,s.tlb⟩ ∧ regions as = regions (planned text data) ∧
      ∀ vaddr ∈ left, vaddr ∈ text.stores ∨ vaddr ∈ data.stores := by
  have ok := reached_valid aligned.installed path
  have build := (build_perProcess r).reached aligned.installed path k p at_
  rw [BuildOk,filling] at build
  obtain ⟨i,bs,defined,here,place,whole,same,suffix⟩ := build
  have eq : spaceOf s.frames p.space = some bs :=
    spaceOf_prepared (by rw [here,Option.map_some]; exact congrArg some place)
  cases eq.symm.trans space
  rw [segments,defineAll_planned formed] at whole
  cases whole
  obtain ⟨parts,store,acc⟩ := ok.accounts
  have prep := planned_prepared formed same (acc.tables i as place)
  refine ⟨⟨filled_mapped aligned (ok.filled i as place) prep,?_⟩,same,?_⟩
  · exact ok.entries cur at_ (by rw [filling]; rfl) here place
  intro vaddr among
  have stored := suffix.subset among
  rw [Image.stores,segments] at stored
  simpa using stored

theorem exec_load_completes_iff {s : State} (aligned : Aligned r) (formed : WellFormed text data)
    (segments : image.segments = [text,data]) (path : Reached r memory tlb s)
    (current : s.current = some k) (at_ : s.procs k = some p) :
    (p.point = .user → Fits r s.frames.coremap (planned text data) → ∀ junk scrap, ∃ after,
      Transition.run (step r) s ((build image junk scrap).map .act) = some after ∧
      after.current = some k ∧ after.procs k = some {p with
        space := some s.frames.nextSpace,saved := p.space
        point := .filling image image.stores}) ∧
    ∀ left old as random, p.point = .filling image left → p.saved = some old →
      spaceOf s.frames p.space = some as →
      ((∃ next, storeAll random ⟨as,p.loaded,s.tlb⟩ left = .stored next) ↔
        p.forked = true ∧ p.loads = 0 ∨ ∀ vaddr ∈ left, vaddr ∉ text.stores) ∧
      (storeAll random ⟨as,p.loaded,s.tlb⟩ left = .exits ↔
        ¬∃ next, storeAll random ⟨as,p.loaded,s.tlb⟩ left = .stored next) := by
  refine ⟨fun user fits junk scrap => build_runs aligned.installed formed segments current at_ user fits junk scrap,?_⟩
  intro left old as random filling saved space
  obtain ⟨valid,same,stores⟩ := filling_cpu aligned formed segments path current at_ filling space
  have history := (history_perProcess r).reached aligned.installed path k p at_
  rw [←exec_unloaded_iff history saved]
  exact stores_complete_iff formed valid same stores random

lemma tiny_wellFormed : WellFormed ⟨0x400000,4096,2⟩ ⟨0x10000000,4096,0⟩ := by
  refine ⟨by decide,by decide,by decide,by decide,by decide,by decide,?_⟩
  rintro a b ⟨_,lt⟩ ⟨above,_⟩
  have one : a < 0x401000 := lt
  have two : 0x10000000 ≤ b := above
  unfold pageFrame pageSize
  omega

theorem forked_exec_completes : ∃ s p as, Reached forkRam (fun _ => 0) flushed s ∧
    s.current = some 3 ∧ s.procs 3 = some p ∧ p.point = .filling tinyImage tinyImage.stores ∧
    spaceOf s.frames p.space = some as ∧
    ∃ next, storeAll (fun _ => slot) ⟨as,p.loaded,s.tlb⟩ tinyImage.stores = .stored next := by
  have ran : ((forkRun (startTiny++[.fork (fun _ => 0) (fun _ _ => 0) 3,.act .forkReturns,.exit,.dispatch (some 3),
        .act .enterForkedProcess])).map
      fun s => (s.current,(s.procs 3).map fun p => (isUser p.point && p.space.isSome && p.forked,p.loads),
        decide (Fits forkRam s.frames.coremap
          (planned ⟨0x400000,4096,2⟩ ⟨0x10000000,4096,0⟩)))) =
      some (some 3,some (true,0),true) := by
    decide +kernel
  obtain ⟨s,reached,values⟩ := map_eq_some_iff.mp ran
  simp only [Prod.mk.injEq] at values
  obtain ⟨current,found,fits⟩ := values
  obtain ⟨p,at_,fields⟩ := map_eq_some_iff.mp found
  simp only [Prod.mk.injEq,Bool.and_eq_true] at fields
  obtain ⟨⟨⟨user,space⟩,forked⟩,loads⟩ := fields
  obtain ⟨old,saved⟩ := isSome_iff_exists.mp space
  have path : Reached forkRam (fun _ => 0) flushed s := Transition.run_reached reached
  have two : tinyImage.segments = [⟨0x400000,4096,2⟩,⟨0x10000000,4096,0⟩] := rfl
  obtain ⟨after,built,running,there⟩ := (exec_load_completes_iff forkRam_aligned tiny_wellFormed two path
    current at_).1 (isUser_iff.mp user) (of_decide_eq_true fits)
    (fun _ _ => 0) fun _ => 0
  have longer : Reached forkRam (fun _ => 0) flushed after :=
    Transition.Reached.trans path (Transition.run_reached built)
  obtain ⟨i,as,here,place⟩ : ∃ i as, (some s.frames.nextSpace : Option Nat) = some i ∧
      after.frames.spaces i = .prepared as := by
    have here := ((reached_valid forkRam_aligned.installed longer).procs 3 _ there).here
    obtain ⟨as,equal⟩ := here
    exact ⟨_,as,rfl,some.inj equal⟩
  cases here
  have prepared : spaceOf after.frames (some s.frames.nextSpace) = some as := by rw [spaceOf,place]
  have completes := (exec_load_completes_iff forkRam_aligned tiny_wellFormed two longer running there).2
    tinyImage.stores old as (fun _ => slot) rfl saved prepared
  exact ⟨after,_,as,longer,running,there,rfl,prepared,completes.1.mpr (.inl ⟨forked,loads⟩)⟩

theorem exec_killed : ∃ s p after dead, Reached forkRam (fun _ => 0) flushed s ∧
    s.current = some 2 ∧ s.procs 2 = some p ∧ p.saved = some 0 ∧
    touches p.point 0x400000 = true ∧ isUser p.point = false ∧
    step forkRam s (.trap true true slot .mod 0x400000) = some after ∧
    after.procs 2 = some dead ∧ isExited dead.point = true ∧
    (spaceOf after.frames (some 0)).isSome = true := by
  have ran : ((forkRun (startTiny++(build tinyImage (fun _ _ => 0) fun _ => 0).map .act++[miss 0x400000])).bind
      fun s => (step forkRam s (.trap true true slot .mod 0x400000)).map fun after =>
        ((s.current,(s.procs 2).map fun p =>
          (p.saved,touches p.point 0x400000,isUser p.point)),
        (after.procs 2).map fun dead => isExited dead.point,
        (spaceOf after.frames (some 0)).isSome)) =
      some ((some 2,some (some 0,true,false)),some true,true) := by
    decide +kernel
  obtain ⟨s,reached,rest⟩ := bind_eq_some_iff.mp ran
  obtain ⟨after,taken,values⟩ := map_eq_some_iff.mp rest
  simp only [Prod.mk.injEq] at values
  obtain ⟨⟨current,found⟩,gone,leaked⟩ := values
  obtain ⟨p,at_,fields⟩ := map_eq_some_iff.mp found
  simp only [Prod.mk.injEq] at fields
  obtain ⟨saved,touched,kernel⟩ := fields
  obtain ⟨dead,there,exited⟩ := map_eq_some_iff.mp gone
  exact ⟨s,p,after,dead,Transition.run_reached reached,current,at_,saved,touched,kernel,taken,there,
    exited,leaked⟩
end ToyOS.ExecLoad

import ToyOS.Running

namespace ToyOS.Running
open Function UserSpace Coremap SpaceFrames Traps FrameMemory FrameOwners Option
open KernelPages (Aligned)

-- Everything that a step of a thread can do.
inductive Acts (r : Ram) (l : Local) : Act → Local → Prop where
  | createSpace (ready : l.proc.point = .program ∨ l.proc.point = .user) :
      Acts r l (.createSpace image) {l with
        frames := l.frames.addSpace (.defined asCreate)
        proc := {l.proc with
          space := some l.frames.nextSpace,saved := l.proc.space,point := .switched image}}
  | activateNew (at_ : l.proc.point = .switched image) :
      Acts r l .activate {l.setPoint (.defining image image.segments) with
        tlb := asActivate l.proc.space l.tlb}
  | activateOld (at_ : l.proc.point = .restoring) :
      Acts r l .activate {l.setPoint .discarding with tlb := asActivate l.proc.space l.tlb}
  | defineRegion (at_ : l.proc.point = .defining image (ph :: rest)) (here : l.proc.space = some i)
      (space : l.frames.spaces i = .defined as)
      (done : asDefineRegion as ph.vaddr.toNat ph.memsz.toNat = .ok new) :
      Acts r l .defineRegion {l.setPoint (.defining image rest) with
        frames := l.frames.setSpace i (.defined new)}
  | prepared (at_ : l.proc.point = .defining image []) (here : l.proc.space = some i)
      (space : l.frames.spaces i = .defined as)
      (done : asPrepareLoad r junk l.frames.coremap as = some (.ok () load)) :
      Acts r l (.prepareLoad junk scrap) {l.setPoint (.filling image image.stores) with
        frames := {l.frames.setSpace i (.prepared load.space) with coremap := load.coremap}
        memory := asZeroRegions load.space l.memory}
  | failed (at_ : l.proc.point = .defining image []) (here : l.proc.space = some i)
      (space : l.frames.spaces i = .defined as)
      (done : asPrepareLoad r junk l.frames.coremap as = some (.error errno load)) :
      Acts r l (.prepareLoad junk scrap) {l.setPoint .stopped with
        frames := {l.frames.setSpace i (.failed load.space) with coremap := load.coremap}
        memory := scrapped r l.frames.coremap scrap l.memory}
  | write (allowed : touches l.proc.point vaddr = true)
      (written : writeThrough l.tlb l.memory vaddr byte = some memory) :
      Acts r l (.write vaddr byte) {l.setPoint (afterStore l.proc.point) with memory}
  | completeLoad (at_ : l.proc.point = .filling image []) :
      Acts r l .completeLoad {l with
        tlb := asActivate l.proc.space l.tlb
        proc := {l.proc with
          loaded := true,loads := l.proc.loads+1
          point := .arguments image (pushArguments image.arguments).1}}
  | fail (ready : (∃ image left, l.proc.point = .defining image left) ∨
        (∃ image left, l.proc.point = .filling image left) ∨
        (∃ image left, l.proc.point = .arguments image left) ∨ l.proc.point = .stopped)
      (saved : l.proc.saved = some old) :
      Acts r l .fail {l with
        proc := {l.proc with space := some old,saved := l.proc.space,point := .restoring}}
  | discard (at_ : l.proc.point = .discarding) (saved : l.proc.saved = some new)
      (freed : FrameOwners.step r l.frames (.destroy new) = some frames) :
      Acts r l .discard {l with frames,proc := {l.proc with saved := none,point := .user}}
  | enterFirst (at_ : l.proc.point = .arguments image []) (saved : l.proc.saved = none) :
      Acts r l .enterNewProcess {l with proc := {l.proc with point := .user,entry := image.frame}}
  | enterNext (at_ : l.proc.point = .arguments image []) (saved : l.proc.saved = some old)
      (freed : FrameOwners.step r l.frames (.destroy old) = some frames) :
      Acts r l .enterNewProcess {l with
        frames,proc := {l.proc with saved := none,point := .user,entry := image.frame}}
  | enterForked (at_ : l.proc.point = .starting tf) :
      Acts r l .enterForkedProcess {l with
        tlb := asActivate l.proc.space l.tlb
        proc := {l.proc with point := .user,entry := forkedFrame tf}}
  | forkReturns (at_ : l.proc.point = .forking tf child) :
      Acts r l .forkReturns {l with proc := {l.proc with
        point := .user,entry := syscallReturn tf (.ok (BitVec.ofNat 32 child))}}

lemma defineRegion_sound (did : act r l .defineRegion = some next) : Acts r l .defineRegion next := by
  simp only [act] at did
  split at did
  · rename_i at_ here
    split at did <;> try cases did
    rename_i space
    split at did <;> cases did
    exact .defineRegion at_ here space ‹_›
  · cases did

lemma prepareLoad_sound (did : act r l (.prepareLoad junk scrap) = some next) :
    Acts r l (.prepareLoad junk scrap) next := by
  simp only [act] at did
  split at did
  · rename_i at_ here
    split at did <;> try cases did
    rename_i space
    split at did <;> cases did
    · exact .prepared at_ here space ‹_›
    · exact .failed at_ here space ‹_›
  · cases did

lemma fail_sound (did : act r l .fail = some next) : Acts r l .fail next := by
  simp only [act] at did
  split at did <;> cases did
  · exact .fail (.inl ⟨_,_,‹_›⟩) ‹_›
  · exact .fail (.inr (.inl ⟨_,_,‹_›⟩)) ‹_›
  · exact .fail (.inr (.inr (.inl ⟨_,_,‹_›⟩))) ‹_›
  · exact .fail (.inr (.inr (.inr ‹_›))) ‹_›

lemma enterNewProcess_sound (did : act r l .enterNewProcess = some next) : Acts r l .enterNewProcess next := by
  simp only [act] at did
  split at did
  · cases did
    exact .enterFirst ‹_› ‹_›
  · obtain ⟨frames,freed,rfl⟩ := map_eq_some_iff.mp did
    exact .enterNext ‹_› ‹_› freed
  · cases did

lemma act_sound (did : act r l a = some next) : Acts r l a next := by
  cases a
  case defineRegion => exact defineRegion_sound did
  case prepareLoad junk scrap => exact prepareLoad_sound did
  case fail => exact fail_sound did
  case enterNewProcess => exact enterNewProcess_sound did
  all_goals simp only [act] at did
  case createSpace image =>
    split at did <;> cases did
    · exact .createSpace (.inl ‹_›)
    · exact .createSpace (.inr ‹_›)
  case activate =>
    split at did <;> cases did
    · exact .activateNew ‹_›
    · exact .activateOld ‹_›
  case write vaddr byte =>
    split at did <;> try cases did
    obtain ⟨memory,written,rfl⟩ := map_eq_some_iff.mp did
    exact .write ‹_› written
  case discard =>
    split at did <;> try cases did
    obtain ⟨frames,freed,rfl⟩ := map_eq_some_iff.mp did
    exact .discard ‹_› ‹_› freed
  case completeLoad =>
    split at did <;> cases did
    exact .completeLoad ‹_›
  case enterForkedProcess =>
    split at did <;> cases did
    exact .enterForked ‹_›
  case forkReturns =>
    split at did <;> cases did
    exact .forkReturns ‹_›

lemma running_some {s : State} (hit : s.running = some (k,p)) : s.current = some k ∧ s.procs k = some p := by
  unfold State.running at hit
  split at hit
  · cases hit
  rename_i cur
  split at hit
  · cases hit
  rename_i at_
  cases hit
  exact ⟨cur,at_⟩

lemma isUser_iff : isUser point ↔ point = .user := by
  cases point <;> simp [isUser]

lemma isExited_iff : isExited point ↔ point = .exited := by
  cases point <;> simp [isExited]

lemma sysExit_some (exited : sysExit r s k p = some after) :
    ∃ i frames, p.space = some i ∧ FrameOwners.step r s.frames (.destroy i) = some frames ∧
      after = {s.put k ⟨frames,s.memory,s.tlb,{p with
        space := none,saved := none,point := .exited}⟩ with current := none} := by
  unfold sysExit at exited
  split at exited
  · cases exited
  rename_i i some_
  obtain ⟨frames,freed,rfl⟩ := map_eq_some_iff.mp exited
  exact ⟨i,frames,some_,freed,rfl⟩

-- Everything that a step of the system can do.
inductive Steps (r : Ram) (s : State) : Event → State → Prop where
  | act (found : s.running = some (k,p)) (acts : Acts r (s.at p) a next) :
      Steps r s (.act a) (s.put k next)
  | retried (found : s.running = some (k,p)) (allowed : touches p.point vaddr = true)
      (raised : raises s.tlb code vaddr = true)
      (result : mipsTrap (spaceOf s.frames p.space) p.loaded s.tlb random iskern badfault code vaddr =
        .retried tlb) :
      Steps r s (.trap iskern badfault random code vaddr) {s with tlb}
  | ignored : Steps r s (.trap iskern badfault random code vaddr) s
  | killed (found : s.running = some (k,p)) (allowed : touches p.point vaddr = true)
      (exited : sysExit r s k p = some after) :
      Steps r s (.trap iskern badfault random code vaddr) after
  | exit (found : s.running = some (k,p)) (user : p.point = .user)
      (exited : sysExit r s k p = some after) : Steps r s .exit after
  | fork (found : s.running = some (k,p)) (user : p.point = .user) (free : s.procs child = none)
      (copied : copySpace r s p junk = some (frames,memory)) :
      Steps r s (.fork tf junk child) {s with
        frames,memory
        procs := update (update s.procs k (some {p with point := .forking tf child})) child
          (some (newChild s.frames.nextSpace tf))}
  | abandonFork (found : s.running = some (k,p)) (user : p.point = .user)
      (copied : copySpace r s p junk = some (frames,memory)) :
      Steps r s (.abandonFork junk) {s with frames,memory}
  | launch (idle : s.current = none) (free : s.procs k = none) :
      Steps r s (.launch k) {s with procs := update s.procs k (some newProgram)}
  | idle : Steps r s (.dispatch none) {s with current := none}
  | dispatch (at_ : s.procs k = some p) (alive : p.point ≠ .exited) :
      Steps r s (.dispatch (some k)) {s with current := some k,tlb := asActivate p.space s.tlb}
  | reap (at_ : s.procs k = some p) (gone : p.point = .exited) :
      Steps r s (.reap k) {s with procs := update s.procs k none}
  | allocKernel (done : FrameOwners.step r s.frames (.allocKernel npages) = some frames) :
      Steps r s (.allocKernel npages) {s with frames}
  | freeKernel (done : FrameOwners.step r s.frames (.freeKernel ticket) = some frames) :
      Steps r s (.freeKernel ticket) {s with frames}

lemma trap_sound (did : step r s (.trap iskern badfault random code vaddr) = some after) :
    Steps r s (.trap iskern badfault random code vaddr) after := by
  simp only [step] at did
  split at did
  · cases did
  rename_i hit
  split at did <;> try cases did
  rename_i tests
  simp only [Bool.and_eq_true] at tests
  obtain ⟨⟨may,_⟩,raised⟩ := tests
  split at did
  · cases did
    exact .retried hit may raised ‹_›
  · cases did
    exact .ignored
  · cases did
    exact .ignored
  · exact .killed hit may did
  · cases did

lemma fork_sound (did : step r s (.fork tf junk child) = some after) : Steps r s (.fork tf junk child) after := by
  simp only [step] at did
  split at did
  · cases did
  rename_i hit
  split at did <;> try cases did
  rename_i tests
  simp only [Bool.and_eq_true,isUser_iff,isNone_iff_eq_none] at tests
  obtain ⟨⟨frames,memory⟩,copied,rfl⟩ := map_eq_some_iff.mp did
  exact .fork hit tests.1 tests.2 copied

lemma abandonFork_sound (did : step r s (.abandonFork junk) = some after) : Steps r s (.abandonFork junk) after := by
  simp only [step] at did
  split at did
  · cases did
  rename_i hit
  split at did <;> try cases did
  rename_i user
  obtain ⟨⟨frames,memory⟩,copied,rfl⟩ := map_eq_some_iff.mp did
  exact .abandonFork hit (isUser_iff.mp user) copied

lemma dispatch_sound (did : step r s (.dispatch next) = some after) : Steps r s (.dispatch next) after := by
  cases next with
  | none =>
    cases did
    exact .idle
  | some k =>
    simp only [step] at did
    split at did
    · cases did
    rename_i p at_
    split at did <;> cases did
    exact .dispatch at_ fun point => absurd (isExited_iff.mpr point) ‹_›

lemma step_sound (did : step r s event = some after) : Steps r s event after := by
  cases event with
  | trap => exact trap_sound did
  | fork => exact fork_sound did
  | abandonFork => exact abandonFork_sound did
  | dispatch => exact dispatch_sound did
  | act a =>
    simp only [step] at did
    split at did
    · cases did
    rename_i hit
    obtain ⟨next,acted,rfl⟩ := map_eq_some_iff.mp did
    exact .act hit (act_sound acted)
  | exit =>
    simp only [step] at did
    split at did
    · cases did
    rename_i hit
    split at did <;> try cases did
    exact .exit hit (isUser_iff.mp ‹_›) did
  | launch k =>
    simp only [step] at did
    split at did <;> cases did
    rename_i tests
    simp only [Bool.and_eq_true,isNone_iff_eq_none] at tests
    exact .launch tests.1 tests.2
  | reap k =>
    simp only [step] at did
    split at did
    · cases did
    rename_i p at_
    split at did <;> cases did
    exact .reap at_ (isExited_iff.mp ‹_›)
  | allocKernel npages =>
    rw [step] at did
    obtain ⟨frames,done,rfl⟩ := map_eq_some_iff.mp did
    exact .allocKernel done
  | freeKernel ticket =>
    rw [step] at did
    obtain ⟨frames,done,rfl⟩ := map_eq_some_iff.mp did
    exact .freeKernel done

lemma run_acts {s : State} (cur : s.current = some k) (at_ : s.procs k = some p)
    (ran : Transition.run (act r) (s.at p) acts = some next) :
    Transition.run (step r) s (acts.map .act) = some (s.put k next) := by
  induction acts generalizing s p with
  | nil =>
    cases ran
    have eq : s.put k (s.at p) = s := by
      rw [State.put,State.at,←at_]
      simp only [update_eq_self]
    rw [List.map_nil,eq]
    rfl
  | cons a rest ih =>
    obtain ⟨mid,acted,left⟩ := bind_eq_some_iff.mp ran
    have stepped : step r s (.act a) = some (s.put k mid) := by
      simp only [step,State.running,cur,at_,acted,Option.map_some]
    have later := @ih mid.proc (s.put k mid) cur (update_self ..) left
    have again : (s.put k mid).put k next = s.put k next := by simp only [State.put,update_idem]
    rw [List.map_cons,Transition.run,stepped,Option.bind_some,later,again]
end ToyOS.Running

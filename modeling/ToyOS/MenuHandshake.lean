import ToyOS.Parenthood
import ToyOS.ProcLimit

namespace ToyOS.MenuHandshake
open Function ProcTable ProcMachine Parenthood ProcLimit Option

-- The process of a thread that comes to thread_exit.
inductive Current where
  | kproc
  | detached
  | user (p : ProcId)

def threadExit : Current → Bool
  | .kproc => true
  | .detached => true
  | .user _ => false

-- Where the menu thread is in common_prog. proc_create_runprogram has counted the new process in `creating` and
-- returned in `created`; `waiting` is before P(no_proc_sem).
inductive Menu where
  | idle
  | creating (new : ProcId)
  | created (new : ProcId)
  | waiting
  deriving DecidableEq

-- `loading` says which threads are in cmd_progthread. `launched` and `passed` are history: the calls of common_prog
-- whose thread_fork succeeded, and those that returned 0. `asserted` is a panic in thread_exit. `biglock` says that
-- vfs_biglock is held by a thread that has ended.
structure State where
  kernel : ProcMachine.State
  menu : Menu
  loading : ProcId → Bool
  launched : Nat
  passed : Nat
  asserted : Bool
  biglock : Bool

def initial : State := ⟨ProcMachine.initial,.idle,fun _ => false,0,0,false,false⟩

inductive Event where
  | nomem
  | create
  | list
  | launch
  | launchFails
  | proceed
  | enter (p : ProcId)
  | runprogramFails (p : ProcId)
  | exit (p : ProcId) (exitcode : BitVec 32)
  | killed (p : ProcId) (exitcode : BitVec 32)
  | call (event : ProcMachine.Event)

def mayCall (s : State) : ProcMachine.Event → Bool
  | .check p => !s.loading p
  | .wait p _ _ _ _ => !s.loading p
  | .create maker => maker.isSome
  | .list new => (s.kernel.maker new).isSome
  | .start new => (s.kernel.maker new).isSome
  | .fail new => (s.kernel.maker new).isSome
  | .adopt _ => true
  | .nomem _ => true
  | .resume _ _ => true
  | .exit _ _ => false

def takeSem (s : ProcMachine.State) : ProcMachine.State :=
  {s with procs := {s.procs with noProcSem := s.procs.noProcSem-1}}

def act (s : State) (event : Event) : Option State :=
  if s.asserted then none else match event with
  | .nomem => if s.menu = .idle then some s else none
  | .create => match s.menu with
      | .idle => (ProcMachine.step s.kernel (.create none)).map fun kernel =>
        {s with kernel,menu := .creating s.kernel.next}
      | _ => none
  | .list => match s.menu with
      | .creating new => (ProcMachine.step s.kernel (.list new)).map fun kernel =>
        {s with kernel,menu := .created new}
      | _ => none
  | .launch => match s.menu with
      | .created new => (ProcMachine.step s.kernel (.start new)).map fun kernel =>
        {s with kernel,menu := .waiting,loading := update s.loading new true
                launched := s.launched+1}
      | _ => none
  | .launchFails => match s.menu with
      | .created new => (ProcMachine.step s.kernel (.fail new)).map fun kernel =>
        {s with kernel,menu := .idle}
      | _ => none
  | .proceed =>
    if s.menu = .waiting ∧ 0 < s.kernel.procs.noProcSem then
      some {s with kernel := takeSem s.kernel,menu := .idle,passed := s.passed+1}
    else none
  | .enter p =>
    if s.loading p = true ∧ s.kernel.ctl p = .user then
      some {s with loading := update s.loading p false}
    else none
  | .runprogramFails p =>
    if s.loading p = true ∧ s.kernel.ctl p = .user then
      some {s with asserted := !threadExit (.user p)}
    else none
  | .exit p exitcode => (ProcMachine.step s.kernel (.exit p exitcode)).map fun kernel =>
    {s with kernel,asserted := !threadExit .detached}
  -- vm_fault ends the process in the VOP_READ of its sys_execv, which has taken vfs_biglock
  | .killed p exitcode =>
    if s.biglock then none else (ProcMachine.step s.kernel (.exit p exitcode)).map fun kernel =>
      {s with kernel,asserted := !threadExit .detached,biglock := true}
  | .call event =>
    if mayCall s event then (ProcMachine.step s.kernel event).map fun kernel => {s with kernel}
    else none

-- proc_create_runprogram and proc_destroy call the file system and do not get past a vfs_biglock that nobody releases.
def step (s : State) (event : Event) : Option State :=
  (act s event).filter fun after => !(s.biglock && after.kernel.procs.procCount != s.kernel.procs.procCount)

lemma step_act (did : step s event = some after) : act s event = some after := (filter_eq_some_iff.mp did).1

def State.signals (s : State) : Nat := s.kernel.procs.noProcSem+s.passed

-- common_prog returns 0 only when there is no process; every launched call has had its one V unless its processes still
-- live; when they are over, P passes.
structure Handshake (s : State) : Prop where
  returns : ∀ after, step s .proceed = some after →
    s.kernel.procs.procCount = 0 ∧ ∀ p, ¬ Listed s.kernel.procs p
  signalled : s.signals+(if s.menu = .waiting ∧ s.kernel.procs.procCount ≠ 0 then 1 else 0) =
    s.launched
  finished : s.menu = .waiting → (∀ p, p < s.kernel.next → s.kernel.ctl p = .gone) →
    ∃ after, step s .proceed = some after
  unasserted : s.asserted = false

def Event.fails : Event → Bool
  | .launchFails => true
  | .runprogramFails _ => true
  | _ => false

-- No fork fails after it has made a process, which proc_destroy would undo without global_mutex.
def SparesCall (s : State) : Event → Prop
  | .call event => ForksSucceed s.kernel event
  | .killed _ _ => False
  | _ => True

def Kept (s : State) (event : Event) : Prop := SparesCall s event ∧ event.fails = false

def Reached (allowed : State → Event → Prop) (s : State) : Prop :=
  Transition.Reached step allowed initial s

-- What a step of the kernel does to the process count and the semaphore.
structure Signalled (t u : Procs) : Prop where
  fewer : u.procCount ≤ t.procCount
  sem : u.noProcSem = t.noProcSem+if t.procCount ≠ 0 ∧ u.procCount = 0 then 1 else 0

lemma Signalled.same (count : u.procCount = t.procCount) (sem : u.noProcSem = t.noProcSem) : Signalled t u := by
  refine ⟨count.le,?_⟩
  rw [sem,count,if_neg fun both => both.1 both.2]
  rfl

lemma Signalled.trans (first : Signalled t u) (second : Signalled u v) : Signalled t v := by
  refine ⟨second.fewer.trans first.fewer,?_⟩
  rw [second.sem,first.sem]
  have one := first.fewer
  have two := second.fewer
  split_ifs <;> omega

lemma Counts.positive (counts : Counts coming t) (listed : Listed t p) : t.procCount ≠ 0 := by
  intro zero
  rw [Counts,zero,Nat.cast_zero,eq_comm,Set.encard_eq_zero] at counts
  have inside : p ∈ members t ∪ coming := .inl listed
  rw [counts] at inside
  exact inside

lemma destroy_signalled (counts : Counts coming t) (listed : Listed t p) : Signalled t (procDestroy t p) := by
  have pos := Counts.positive counts listed
  refine ⟨Nat.sub_le _ _,?_⟩
  simp only [procDestroy,pos,ne_eq,not_false_eq_true,true_and]
  split_ifs <;> rfl

lemma cleanup_signalled (ok : TableValid t) (out : ∀ p, Listed t p → p ∉ coming)
    (counts : Counts coming t) (pid : Int) : Signalled t (exitedChildrenCleanup t pid) := by
  let Keeps : Procs → Prop := fun u => (∀ p, Listed u p → p ∉ coming) ∧ Counts coming u ∧ Signalled t u
  suffices whole : Keeps (exitedChildrenCleanup t pid) from whole.2.2
  refine cleanup_rule Keeps ok ⟨out,counts,.same rfl rfl⟩ ?_
  intro u p i table _ hit _ pre
  obtain ⟨out,counts,signalled⟩ := pre
  have listed : Listed u p := ⟨i,hit⟩
  exact ⟨fun q there => out q ((listed_destroy table listed).mp there).1,
    counts_destroy table listed (out p listed) counts,
    signalled.trans (destroy_signalled counts listed)⟩

lemma Signalled.sem_of (signalled : Signalled t u) (pos : t.procCount ≠ 0) :
    u.noProcSem = t.noProcSem+if u.procCount = 0 then 1 else 0 := by
  rw [signalled.sem]
  simp only [pos,ne_eq,not_false_eq_true,true_and]

lemma kernel_sem (ok : ProcMachine.Valid s) (counts : Counts (entering s) s.procs)
    (pos : s.procs.procCount ≠ 0) (did : ProcMachine.step s event = some after) :
    after.procs.noProcSem = s.procs.noProcSem+if after.procs.procCount = 0 then 1 else 0 := by
  have out : ∀ p, Listed s.procs p → p ∉ entering s := fun p => listed_outside ok
  have kept : ∀ {t : Procs}, t.procCount ≠ 0 → t.noProcSem = s.procs.noProcSem →
      t.noProcSem = s.procs.noProcSem+if t.procCount = 0 then 1 else 0 := by
    intro t pos eq
    rw [if_neg pos,eq]
    rfl
  have there : ∀ {p : ProcId}, (s.ctl p).present → Listed s.procs p := fun here => (ok.present _ here).1
  cases step_sound did with
  | spawn => exact kept (Nat.succ_ne_zero _) rfl
  | fork passed => exact kept (Nat.succ_ne_zero _) rfl
  | list made inside =>
    refine kept ?_ ?_ <;> rw [add_eq]
    · exact pos
    · rfl
  | failSpawned made by_ | failForked made by_ =>
    exact (destroy_signalled counts (there (by rw [made]; rfl))).sem_of pos
  | exitAlone runs alone =>
    rename_i p exitcode
    obtain ⟨listed,living⟩ := ok.running runs
    have cleaned := cleanup_signalled ok.table out counts (s.procs.proc p).pid
    have last := destroy_signalled (counts_cleanup ok.table out counts (s.procs.proc p).pid)
      (cleanup_keeps ok.table listed living _)
    exact (cleaned.trans last).sem_of pos
  | exitChild runs hit alive => exact (cleanup_signalled (marked_valid ok.table) out counts _).sem_of pos
  | reaped call => exact (destroy_signalled counts (outcome_reaped ok call).1.1).sem_of pos
  | _ => exact kept pos rfl

def MenuValid (s : State) : Prop :=
  match s.menu with
  | .idle => s.kernel.procs.procCount = 0 ∧ s.kernel.procs.noProcSem = 0 ∧ s.passed = s.launched
  | .creating new => s.kernel.ctl new = .unlisted ∧ s.kernel.maker new = none ∧
      s.kernel.procs.procCount = 1 ∧ s.kernel.procs.noProcSem = 0 ∧ s.passed = s.launched
  | .created new => s.kernel.ctl new = .listed ∧ s.kernel.maker new = none ∧
      s.kernel.procs.procCount = 1 ∧ s.kernel.procs.noProcSem = 0 ∧ s.passed = s.launched
  | .waiting => s.kernel.procs.noProcSem = (if s.kernel.procs.procCount = 0 then 1 else 0) ∧
      s.launched = s.passed+1

structure Valid (s : State) : Prop where
  kernel : ProcMachine.Valid s.kernel
  counts : Counts (entering s.kernel) s.kernel.procs
  supervised : Supervised s.kernel.procs
  unasserted : s.asserted = false
  unlocked : s.biglock = false
  menu : MenuValid s

lemma initial_menuValid : Valid initial :=
  ⟨ProcMachine.initial_valid,initial_counts,fun _ _ no => (by cases no),rfl,rfl,rfl,rfl,rfl⟩

lemma takeSem_kernel (ok : ProcMachine.Valid s) : ProcMachine.Valid (takeSem s) :=
  ⟨⟨ok.table.low,ok.table.above,ok.table.below,ok.table.self⟩,ok.bound,ok.fresh,
    ok.present,ok.listed,ok.making,ok.maker,ok.parent,ok.dummy,ok.parented,
    ok.waiting⟩

lemma present_thread (ok : ProcMachine.Valid s) (thread : (s.ctl p).thread) : Listed s.procs p :=
  (ok.present p (thread_present thread)).1

lemma call_thread {s : State} (ok : ProcMachine.Valid s.kernel) (may : mayCall s event)
    (did : ProcMachine.step s.kernel event = some kernel) : ∃ p, (s.kernel.ctl p).thread := by
  have made : ∀ {new p}, (s.kernel.ctl new).embryo → s.kernel.maker new = some p → ∃ p, (s.kernel.ctl p).thread := by
    intro new p embryo by_
    exact ⟨p,by rw [ok.maker new p embryo by_]; rfl⟩
  have idle : ∀ {p res}, outcome s.kernel event = some (p,res) →
      ∃ p, (s.kernel.ctl p).thread := fun call => ⟨_,idle_thread (outcome_idle call)⟩
  cases step_sound did with
  | refused runs full => exact ⟨_,by rw [runs]; rfl⟩
  | checked runs room => exact ⟨_,by rw [runs]; rfl⟩
  | nomem passed | fork passed => exact ⟨_,by rw [passed]; rfl⟩
  | spawn => cases may
  | list unlisted inside =>
    obtain ⟨p,by_⟩ := isSome_iff_exists.mp may
    exact made (by rw [unlisted]; rfl) by_
  | adopt listed by_ => exact made (by rw [listed]; rfl) by_
  | startSpawned listed by_ | failSpawned listed by_ =>
    rw [mayCall,by_] at may
    cases may
  | startForked parented by_ | failForked parented by_ => exact made (by rw [parented]; rfl) by_
  | exitAlone runs alone => exact ⟨_,by rw [runs]; rfl⟩
  | exitChild runs hit alive => exact ⟨_,by rw [runs]; rfl⟩
  | error call | sleep call | reaped call => exact idle call

lemma only_one (counts : Counts coming t) (one : t.procCount = 1)
    (first : p ∈ members t ∪ coming) (two : q ∈ members t ∪ coming) : p = q := by
  rw [Counts,one,Nat.cast_one,eq_comm,Set.encard_eq_one] at counts
  obtain ⟨x,only⟩ := counts
  rw [only] at first two
  exact first.trans two.symm

lemma thread_waiting (ok : Valid s) (thread : (s.kernel.ctl p).thread) :
    s.menu = .waiting ∧ s.kernel.procs.procCount ≠ 0 := by
  have listed := present_thread ok.kernel thread
  have pos := Counts.positive ok.counts listed
  have menu := ok.menu
  unfold MenuValid at menu
  split at menu
  · exact absurd menu.1 pos
  · obtain ⟨unlisted,_,one,_⟩ := menu
    have eq := only_one ok.counts one (.inl listed) (.inr unlisted)
    rw [eq,unlisted] at thread
    cases thread
  · obtain ⟨young,_,one,_⟩ := menu
    have here := (ok.kernel.present _ (by rw [young]; rfl)).1
    have eq := only_one ok.counts one (.inl listed) (.inl here)
    rw [eq,young] at thread
    cases thread
  rename_i waiting
  exact ⟨waiting,pos⟩

lemma Valid.move {kernel : ProcMachine.State} {menu : Menu} {loading : ProcId → Bool} {launched : Nat} (valid : Valid s)
    (did : ProcMachine.step s.kernel event = some kernel) (spares : Spares s.kernel event)
    (ok : MenuValid {s with kernel,menu,loading,launched}) : Valid {s with kernel,menu,loading,launched} :=
  ⟨step_valid valid.kernel did,step_counts valid.kernel valid.counts did,
    change_supervised valid.kernel valid.supervised spares (step_change valid.kernel did),valid.unasserted,
    valid.unlocked,ok⟩

lemma process_menu (ok : Valid s) (thread : (s.kernel.ctl p).thread)
    (did : ProcMachine.step s.kernel event = some kernel) : MenuValid {s with kernel} := by
  obtain ⟨waiting,pos⟩ := thread_waiting ok thread
  have menu := ok.menu
  simp only [MenuValid,waiting,if_neg pos] at menu
  have sem := kernel_sem ok.kernel ok.counts pos did
  rw [menu.1,Nat.zero_add] at sem
  simp only [MenuValid,waiting]
  exact ⟨sem,menu.2⟩

section
variable (ok : Valid s)
include ok

lemma Valid.create {kernel : ProcMachine.State} (idle : s.menu = .idle)
    (made : ProcMachine.step s.kernel (.create none) = some kernel) :
    Valid {s with kernel,menu := .creating s.kernel.next} := by
  have menu := ok.menu
  simp only [MenuValid,idle] at menu
  obtain ⟨count,sem,passed⟩ := menu
  refine ok.move made trivial ?_
  cases made
  exact ⟨update_self ..,update_self ..,congrArg (·+1) count,sem,passed⟩

lemma Valid.list {kernel : ProcMachine.State} (creating : s.menu = .creating new)
    (made : ProcMachine.step s.kernel (.list new) = some kernel) : Valid {s with kernel,menu := .created new} := by
  have menu := ok.menu
  simp only [MenuValid,creating] at menu
  obtain ⟨_,maker,count,sem,passed⟩ := menu
  refine ok.move made trivial ?_
  simp only [ProcMachine.step] at made
  split at made
  · cases made
    refine ⟨update_self ..,maker,?_,?_,passed⟩ <;> rw [add_eq]
    · exact count
    · exact sem
  · cases made

lemma Valid.launch {kernel : ProcMachine.State} (created : s.menu = .created new)
    (made : ProcMachine.step s.kernel (.start new) = some kernel) :
    Valid {s with kernel,menu := .waiting,loading := update s.loading new true,launched := s.launched+1} := by
  have menu := ok.menu
  simp only [MenuValid,created] at menu
  obtain ⟨listed,maker,count,sem,passed⟩ := menu
  refine ok.move made trivial ?_
  simp only [ProcMachine.step,listed,maker] at made
  cases made
  refine ⟨?_,congrArg (·+1) passed.symm⟩
  rw [setCtl_procs,sem,count]
  rfl

lemma Valid.proceed (waiting : s.menu = .waiting) (ready : 0 < s.kernel.procs.noProcSem) :
    Valid {s with kernel := takeSem s.kernel,menu := .idle,passed := s.passed+1} := by
  have menu := ok.menu
  simp only [MenuValid,waiting] at menu
  obtain ⟨sem,launched⟩ := menu
  have none_ : s.kernel.procs.procCount = 0 := by
    by_contra positive
    rw [if_neg positive] at sem
    exact Nat.ne_of_gt ready sem
  rw [if_pos none_] at sem
  refine ⟨takeSem_kernel ok.kernel,ok.counts,ok.supervised,ok.unasserted,ok.unlocked,none_,?_,launched.symm⟩
  change s.kernel.procs.noProcSem-1 = 0
  rw [sem]

lemma Valid.exit {kernel : ProcMachine.State} (exited : ProcMachine.step s.kernel (.exit p exitcode) = some kernel) :
    Valid {s with kernel} := by
  have runs : s.kernel.ctl p = .user := by
    cases step_sound exited with
    | exitAlone runs alone => exact runs
    | exitChild runs hit alive => exact runs
    | error called | sleep called | reaped called => cases called
  exact ok.move exited trivial (process_menu ok (p := p) (by rw [runs]; rfl) exited)

lemma menuStep_valid (kept : Kept s event) (did : step s event = some after) : Valid after := by
  obtain ⟨spares,succeeds⟩ := kept
  have did := step_act did
  unfold act at did
  rw [if_neg (by rw [ok.unasserted]; exact Bool.false_ne_true)] at did
  cases event with
  | launchFails | runprogramFails => cases succeeds
  | killed => cases spares
  | nomem =>
    obtain ⟨_,eq⟩ := Option.ite_none_right_eq_some.mp did
    cases eq
    exact ok
  | create =>
    simp only at did
    split at did
    · obtain ⟨kernel,made,rfl⟩ := map_eq_some_iff.mp did
      exact ok.create ‹_› made
    · cases did
  | list =>
    simp only at did
    split at did
    · obtain ⟨kernel,made,rfl⟩ := map_eq_some_iff.mp did
      exact ok.list ‹_› made
    · cases did
  | launch =>
    simp only at did
    split at did
    · obtain ⟨kernel,made,rfl⟩ := map_eq_some_iff.mp did
      exact ok.launch ‹_› made
    · cases did
  | proceed =>
    obtain ⟨ready,eq⟩ := Option.ite_none_right_eq_some.mp did
    cases eq
    exact ok.proceed ready.1 ready.2
  | enter p =>
    obtain ⟨_,eq⟩ := Option.ite_none_right_eq_some.mp did
    cases eq
    exact ⟨ok.kernel,ok.counts,ok.supervised,ok.unasserted,ok.unlocked,ok.menu⟩
  | exit p exitcode =>
    obtain ⟨kernel,exited,rfl⟩ := map_eq_some_iff.mp did
    have valid := ok.exit exited
    exact ⟨valid.kernel,valid.counts,valid.supervised,rfl,valid.unlocked,valid.menu⟩
  | call event =>
    obtain ⟨may,taken⟩ := Option.ite_none_right_eq_some.mp did
    obtain ⟨kernel,called,rfl⟩ := map_eq_some_iff.mp taken
    obtain ⟨p,thread⟩ := call_thread ok.kernel may called
    exact ok.move called (ForksSucceed.spares spares) (process_menu ok thread called)

end

lemma kept_valid (path : Reached Kept s) : Valid s :=
  Transition.Reached.invariant Valid path initial_menuValid fun _ ok kept did => menuStep_valid ok kept did

lemma Valid.none_left (ok : Valid s) (none_ : s.kernel.procs.procCount = 0) (p : ProcId) : ¬ Listed s.kernel.procs p :=
  fun listed => Counts.positive ok.counts listed none_

lemma Valid.all_over (ok : Valid s)
    (exited : ∀ p < s.kernel.next, s.kernel.ctl p = .gone) : s.kernel.procs.procCount = 0 := by
  have nobody : members s.kernel.procs ∪ entering s.kernel = ∅ := by
    refine Set.eq_empty_of_forall_notMem fun p inside => ?_
    rcases inside with ⟨i,listed⟩ | unlisted
    · rw [finished_empty ok.kernel ok.supervised exited i] at listed
      cases listed
    have made : s.kernel.ctl p = .unlisted := unlisted
    rcases Nat.lt_or_ge p s.kernel.next with lt | beyond
    · rw [exited p lt] at made
      cases made
    rw [ok.kernel.fresh p beyond] at made
    cases made
  have counts := ok.counts
  rw [Counts,nobody,Set.encard_empty] at counts
  exact_mod_cast counts

lemma proceed_iff : (∃ after, step s .proceed = some after) ↔
    s.asserted = false ∧ s.menu = .waiting ∧ 0 < s.kernel.procs.noProcSem := by
  cases asserted : s.asserted with
  | true => simp [step,act,asserted]
  | false =>
    simp only [step,act,asserted,Bool.false_eq_true,↓reduceIte,true_and]
    split <;> simp_all [Option.filter,takeSem]

lemma Valid.handshake (ok : Valid s) : Handshake s := by
  have menu := ok.menu
  have waits : s.menu = .waiting → s.kernel.procs.noProcSem = (if s.kernel.procs.procCount = 0 then 1 else 0) ∧
        s.launched = s.passed+1 := by
    intro waiting
    simpa only [MenuValid,waiting] using menu
  refine ⟨?_,?_,?_,ok.unasserted⟩
  · intro after did
    obtain ⟨_,waiting,ready⟩ := proceed_iff.mp ⟨after,did⟩
    have none_ : s.kernel.procs.procCount = 0 := by
      by_contra positive
      rw [(waits waiting).1,if_neg positive] at ready
      exact lt_irrefl _ ready
    exact ⟨none_,ok.none_left none_⟩
  · unfold State.signals
    cases at_ : s.menu with
    | waiting =>
      obtain ⟨sem,launched⟩ := waits at_
      rw [sem,launched]
      by_cases none_ : s.kernel.procs.procCount = 0
      · simp only [none_,↓reduceIte,ne_eq,not_true_eq_false,and_false]
        omega
      simp only [none_,↓reduceIte,ne_eq,not_false_eq_true,and_self]
      omega
    | _ =>
      simp only [MenuValid,at_] at menu
      simp only [reduceCtorEq,false_and,↓reduceIte]
      omega
  intro waiting exited
  refine proceed_iff.mpr ⟨ok.unasserted,waiting,?_⟩
  rw [(waits waiting).1,if_pos (ok.all_over exited)]
  exact Nat.one_pos

theorem handshake_iff (path : Reached Kept s) : Handshake s ∧
    ∀ event after, SparesCall s event → step s event = some after →
      (Handshake after ↔ event.fails = false) := by
  have valid := kept_valid path
  refine ⟨valid.handshake,fun event after spares taken => ⟨fun handshake => ?_,fun fine =>
    (menuStep_valid valid ⟨spares,fine⟩ taken).handshake⟩⟩
  have menu := valid.menu
  have taken := step_act taken
  unfold act at taken
  rw [valid.unasserted,if_neg Bool.false_ne_true] at taken
  cases event with
  | launchFails =>
    simp only at taken
    split at taken
    · rename_i new created
      obtain ⟨kernel,failed,rfl⟩ := map_eq_some_iff.mp taken
      simp only [MenuValid,created] at menu
      obtain ⟨listed,maker,count,sem,passed⟩ := menu
      simp only [ProcMachine.step,listed,maker] at failed
      cases failed
      -- the count has come down to 0, and nobody is to take the signal
      have signalled := handshake.signalled
      simp [State.signals,procDestroy,count,sem,passed] at signalled
    · cases taken
  | runprogramFails p =>
    simp only at taken
    split at taken
    · cases taken
      cases handshake.unasserted
    · cases taken
  | _ => rfl

def permitMenu (_ : State) : Event → Bool
  | .call event => match event with
      | .fail _ => false
      | _ => true
  | .killed _ _ => false
  | event => !event.fails

lemma permitMenu_sound (may : permitMenu s event) : Kept s event := by
  cases event with
  | call event =>
    cases event with
    | fail new => cases may
    | _ => exact ⟨trivial,rfl⟩
  | killed p exitcode => cases may
  | launchFails => cases may
  | runprogramFails p => cases may
  | _ => exact ⟨trivial,rfl⟩

theorem program_runs_to_end : ∃ s after, Reached Kept s ∧ s.menu = .waiting ∧
    step s .proceed = some after ∧ s.kernel.procs.procCount = 0 ∧ Handshake after := by
  have facts : (Transition.run (Transition.guarded permitMenu step) initial
      ([.create,.list,.launch,.enter 0]++([.check 0,.create (some 0),.list 1,.adopt 1,.start 1] :
        List ProcMachine.Event).map .call++[.exit 1 7,.exit 0 0])).map
      (fun s => (s.menu,s.asserted,s.kernel.procs.noProcSem)) = some (.waiting,false,1) := by
    decide
  obtain ⟨s,ran,values⟩ := map_eq_some_iff.mp facts
  simp only [Prod.mk.injEq] at values
  obtain ⟨waiting,unasserted,sem⟩ := values
  have path : Reached Kept s := Transition.run_permitted (fun _ permitted => permitMenu_sound permitted) .initial ran
  obtain ⟨after,taken⟩ := proceed_iff.mpr ⟨unasserted,waiting,by rw [sem]; exact Nat.one_pos⟩
  obtain ⟨handshake,keeps⟩ := handshake_iff path
  exact ⟨s,after,path,waiting,taken,(handshake.returns after taken).1,
    (keeps .proceed after trivial taken).mpr rfl⟩

def orphaning : List Event :=
  [.create,.list,.launch,.enter 0]++
  ([.check 0,.create (some 0),.list 1,.adopt 1,.start 1,
    .check 0,.create (some 0),.list 2,.adopt 2,.start 2] : List ProcMachine.Event).map .call++
  [.exit 0 0]++([.check 1,.create (some 1),.list 3] : List ProcMachine.Event).map .call++
  [.exit 2 0]++([.adopt 3,.fail 3] : List ProcMachine.Event).map .call++[.exit 1 0]

theorem failures_break_handshake :
    (∃ s after, Reached Transition.Free s ∧ step s .proceed = some after ∧
      s.kernel.procs.procCount = 1 ∧ s.kernel.ctl 1 = .user) ∧
    (∃ s, Reached Transition.Free s ∧ s.asserted = true) ∧
    (∃ s, Reached Transition.Free s ∧ s.menu = .waiting ∧ s.kernel.next = 4 ∧
      (∀ p, p < s.kernel.next → s.kernel.ctl p = .gone) ∧ step s .proceed = none) ∧
    ∃ s, Reached Transition.Free s ∧ s.menu = .waiting ∧ s.kernel.ctl 0 = .user ∧ step s (.exit 0 0) = none := by
  have early : (Transition.run step initial
      [.create,.list,.launchFails,.create,.list,.launch]).map
      (fun s => ((step s .proceed).isSome,s.kernel.procs.procCount,s.kernel.ctl 1)) =
      some (true,1,.user) := by
    decide
  have asserted : (Transition.run step initial
      [.create,.list,.launch,.runprogramFails 0]).map State.asserted = some true := by
    decide
  have lost : (Transition.run step initial orphaning).map
      (fun s => (s.menu,s.kernel.next,decide (∀ p : Nat, p < 4 → s.kernel.ctl p = .gone),
        (step s .proceed).isNone)) = some (.waiting,4,true,true) := by
    decide
  have kept : (Transition.run step initial ([.create,.list,.launch,.enter 0]++
      ([.check 0,.create (some 0),.list 1,.adopt 1,.start 1] : List ProcMachine.Event).map .call++[.killed 1 0])).map
      (fun s => (s.menu,s.kernel.ctl 0,(step s (.exit 0 0)).isNone)) = some (.waiting,.user,true) := by
    decide
  refine ⟨?_,?_,?_,?_⟩
  · obtain ⟨s,ran,values⟩ := map_eq_some_iff.mp early
    simp only [Prod.mk.injEq] at values
    obtain ⟨proceeds,count,running⟩ := values
    obtain ⟨after,taken⟩ := isSome_iff_exists.mp proceeds
    exact ⟨s,after,Transition.run_reached ran,taken,count,running⟩
  · obtain ⟨s,ran,value⟩ := map_eq_some_iff.mp asserted
    exact ⟨s,Transition.run_reached ran,value⟩
  · obtain ⟨s,ran,values⟩ := map_eq_some_iff.mp lost
    simp only [Prod.mk.injEq,decide_eq_true_eq,isNone_iff_eq_none] at values
    obtain ⟨waiting,next,gone,stuck⟩ := values
    exact ⟨s,Transition.run_reached ran,waiting,next,by rw [next]; exact gone,stuck⟩
  obtain ⟨s,ran,values⟩ := map_eq_some_iff.mp kept
  simp only [Prod.mk.injEq,isNone_iff_eq_none] at values
  exact ⟨s,Transition.run_reached ran,values⟩
end ToyOS.MenuHandshake

import ToyOS.Library.Transition
import ToyOS.Library.Placement

namespace ToyOS.ThreadLists
open Function Transition Tokens Placement Option

-- kern/thread/thread.c: run queues, wait channels and zombie lists of any number of CPUs. A step is a section under a
-- run-queue or wait-channel spinlock, or part of exorcise.
inductive ThreadState where
  | run | ready | sleep | zombie
deriving DecidableEq

-- `hand t` is the target of wchan_wakeone, or the list of wchan_wakeall, on the stack of t; `handler c` that of an
-- interrupt handler on CPU c, or the victims of its migration.
inductive ThreadList (Cpu Wchan Thread : Type) where
  | runqueue (c : Cpu)
  | zombies (c : Cpu)
  | wchan (w : Wchan)
  | hand (t : Thread)
  | handler (c : Cpu)
deriving DecidableEq

-- Where the CPU is in thread_switch: outside, in the idle loop, or behind the switch with interrupts still off.
inductive Mode where
  | running | idle | switched
deriving DecidableEq

-- The interrupt handler of a CPU: a wakeup, or thread_consider_migration at its counting loop, at its loop over the
-- CPUs, or behind it.
inductive Handler (Cpu : Type) where
  | off
  | waking
  | counting (left : List Cpu) (myCount totalCount : Nat)
  | sending (left : List Cpu) (oneShare toSend : Nat)
  | returning
deriving DecidableEq

structure State (Cpu Wchan Thread : Type) where
  lists : ThreadList Cpu Wchan Thread → List Thread
  curthread : Cpu → Thread
  mode : Cpu → Mode
  handler : Cpu → Handler Cpu
  tCpu : Thread → Cpu
  tState : Thread → ThreadState
  alive : Thread → Bool

variable {Cpu Wchan Thread : Type} [DecidableEq Cpu] [DecidableEq Wchan] [DecidableEq Thread]

def addtail (s : State Cpu Wchan Thread) (l : ThreadList Cpu Wchan Thread) (t : Thread) : State Cpu Wchan Thread :=
  {s with lists := update s.lists l (s.lists l++[t])}

def threadMakeRunnable (s : State Cpu Wchan Thread) (target : Thread) : State Cpu Wchan Thread :=
  addtail s (.runqueue (s.tCpu target)) target

def threadFork (s : State Cpu Wchan Thread) (c : Cpu) (new : Thread) : State Cpu Wchan Thread :=
  threadMakeRunnable {s with
    alive := update s.alive new true
    tCpu := update s.tCpu new (s.tCpu (s.curthread c))
    tState := update s.tState new .ready} new

def nextThread (s : State Cpu Wchan Thread) (c : Cpu) : State Cpu Wchan Thread :=
  match s.lists (.runqueue c) with
  | [] => {s with mode := update s.mode c .idle}
  | next :: rest => {s with
      lists := update s.lists (.runqueue c) rest
      curthread := update s.curthread c next
      mode := update s.mode c .switched
      tState := update s.tState next .run}

def threadSwitch (s : State Cpu Wchan Thread) (c : Cpu) (newstate : ThreadState)
    (l : ThreadList Cpu Wchan Thread) : State Cpu Wchan Thread :=
  nextThread {addtail s l (s.curthread c) with
    mode := update s.mode c .idle
    tState := update s.tState (s.curthread c) newstate} c

def threadYield (s : State Cpu Wchan Thread) (c : Cpu) : Option (State Cpu Wchan Thread) :=
  match s.mode c with
  | .switched => none
  | .idle => some s
  | .running =>
    if s.lists (.runqueue c) = [] then some s
    else some (threadSwitch s c .ready (.runqueue (s.tCpu (s.curthread c))))

def exorcise (s : State Cpu Wchan Thread) (c : Cpu) : Option (State Cpu Wchan Thread) :=
  match s.lists (.zombies c) with
  | [] => some {s with mode := update s.mode c .running}
  | z :: rest =>
    if z ≠ s.curthread c ∧ s.tState z = .zombie then some {s with
      lists := update s.lists (.zombies c) rest
      alive := update s.alive z false}
    else none

def take (s : State Cpu Wchan Thread) (l m : ThreadList Cpu Wchan Thread) (stay go : List Thread) :
    State Cpu Wchan Thread :=
  {s with lists := update (update s.lists l stay) m (s.lists m++go)}

def wakeone (s : State Cpu Wchan Thread) (w : Wchan) (m : ThreadList Cpu Wchan Thread) : State Cpu Wchan Thread :=
  match s.lists (.wchan w) with
  | [] => s
  | target :: rest => take s (.wchan w) m rest [target]

def wakeall (s : State Cpu Wchan Thread) (w : Wchan) (m : ThreadList Cpu Wchan Thread) : State Cpu Wchan Thread :=
  take s (.wchan w) m [] (s.lists (.wchan w))

def deliver (s : State Cpu Wchan Thread) (l : ThreadList Cpu Wchan Thread) : Option (State Cpu Wchan Thread) :=
  match s.lists l with
  | [] => none
  | target :: rest => some (threadMakeRunnable {s with lists := update s.lists l rest} target)

def sendTo (c d : Cpu) (oneShare : Nat) : Nat → State Cpu Wchan Thread → Option (State Cpu Wchan Thread × Nat)
  | 0,s => some (s,0)
  | toSend + 1,s =>
    if oneShare ≤ (s.lists (.runqueue d)).length then some (s,toSend + 1)
    else match s.lists (.handler c) with
      | [] => none
      | t :: rest =>
        if t = s.curthread c then
          sendTo c d oneShare toSend {s with lists := update s.lists (.handler c) (rest++[t])}
        else sendTo c d oneShare toSend
          {take s (.handler c) (.runqueue d) rest [t] with tCpu := update s.tCpu t d}

def takeVictims (allcpus : List Cpu) (s : State Cpu Wchan Thread) (c : Cpu) (myCount totalCount : Nat) :
    Option (State Cpu Wchan Thread) :=
  let oneShare := (totalCount + allcpus.length - 1) / allcpus.length
  if myCount < oneShare then some {s with handler := update s.handler c .off}
  else
    let queue := s.lists (.runqueue c)
    let toSend := myCount - oneShare
    if queue.length < toSend then none
    else some (take {s with handler := update s.handler c (.sending allcpus oneShare toSend)} (.runqueue c)
      (.handler c) (queue.take (queue.length - toSend)) (queue.drop (queue.length - toSend)))

def handle (allcpus : List Cpu) (s : State Cpu Wchan Thread) (c : Cpu) : Option (State Cpu Wchan Thread) :=
  match s.handler c with
  | .off => none
  | .waking =>
    if s.lists (.handler c) = [] then some {s with handler := update s.handler c .off}
    else deliver s (.handler c)
  | .counting [] myCount totalCount => takeVictims allcpus s c myCount totalCount
  | .counting (d :: left) myCount totalCount =>
    let count := (s.lists (.runqueue d)).length
    let mine := if d = c then count else myCount
    some {s with handler := update s.handler c (.counting left mine (totalCount + count))}
  | .sending [] _ _ => some {s with handler := update s.handler c .returning}
  | .sending (d :: left) oneShare toSend =>
    if toSend = 0 then some {s with handler := update s.handler c .returning}
    else if d = c then some {s with handler := update s.handler c (.sending left oneShare toSend)}
    else (sendTo c d oneShare toSend s).map fun sent =>
      {sent.1 with handler := update s.handler c (.sending left oneShare sent.2)}
  | .returning =>
    some {take s (.handler c) (.runqueue c) [] (s.lists (.handler c)) with
      handler := update s.handler c .off}

inductive Event (Cpu Wchan Thread : Type) where
  | threadFork (c : Cpu) (new : Thread)
  | threadYield (c : Cpu)
  | wchanSleep (c : Cpu) (w : Wchan)
  | threadExit (c : Cpu)
  | wchanWakeone (c : Cpu) (w : Wchan)
  | wchanWakeall (c : Cpu) (w : Wchan)
  | makeRunnable (c : Cpu)
  | unidle (c : Cpu)
  | exorcise (c : Cpu)
  | interruptWakeone (c : Cpu) (w : Wchan)
  | interruptWakeall (c : Cpu) (w : Wchan)
  | considerMigration (c : Cpu)
  | handle (c : Cpu)

def calls (s : State Cpu Wchan Thread) (c : Cpu) : Prop :=
  s.mode c = .running ∧ s.handler c = .off ∧ s.lists (.hand (s.curthread c)) = []

def interruptible (s : State Cpu Wchan Thread) (c : Cpu) : Prop :=
  s.mode c ≠ .switched ∧ s.handler c = .off

instance (s : State Cpu Wchan Thread) (c : Cpu) : Decidable (calls s c) := by
  unfold calls
  infer_instance

instance (s : State Cpu Wchan Thread) (c : Cpu) : Decidable (interruptible s c) := by
  unfold interruptible
  infer_instance

def step (allcpus : List Cpu) (s : State Cpu Wchan Thread) : Event Cpu Wchan Thread → Option (State Cpu Wchan Thread)
  | .threadFork c new => if calls s c ∧ s.alive new = false then some (threadFork s c new) else none
  | .threadYield c => if s.handler c = .off then threadYield s c else none
  | .wchanSleep c w => if calls s c then some (threadSwitch s c .sleep (.wchan w)) else none
  | .threadExit c => if calls s c then some (threadSwitch s c .zombie (.zombies c)) else none
  | .wchanWakeone c w => if calls s c then some (wakeone s w (.hand (s.curthread c))) else none
  | .wchanWakeall c w => if calls s c then some (wakeall s w (.hand (s.curthread c))) else none
  | .makeRunnable c =>
    if s.mode c = .running ∧ s.handler c = .off then deliver s (.hand (s.curthread c)) else none
  | .unidle c => if s.mode c = .idle ∧ s.handler c = .off then some (nextThread s c) else none
  | .exorcise c => if s.mode c = .switched then exorcise s c else none
  | .interruptWakeone c w =>
    if interruptible s c then
      some (wakeone {s with handler := update s.handler c .waking} w (.handler c)) else none
  | .interruptWakeall c w =>
    if interruptible s c then
      some (wakeall {s with handler := update s.handler c .waking} w (.handler c)) else none
  | .considerMigration c =>
    if interruptible s c then some {s with handler := update s.handler c (.counting allcpus 0 0)} else none
  | .handle c => handle allcpus s c

-- Every CPU runs the thread cpu_create made for it, and there is no other.
structure Booted (s : State Cpu Wchan Thread) : Prop where
  lists : ∀ l, s.lists l = []
  onCpu : ∀ c, s.tCpu (s.curthread c) = c
  running : ∀ c, s.mode c = .running
  handler : ∀ c, s.handler c = .off
  alive : ∀ t, s.alive t = true ↔ ∃ c, s.curthread c = t

@[simp] def gathers : Handler Cpu → Bool
  | .waking | .sending .. | .returning => true
  | _ => false

@[simp] def migrates : Handler Cpu → Bool
  | .sending .. | .returning => true
  | _ => false

@[simp] def Suits (s : State Cpu Wchan Thread) (t : Thread) : ThreadList Cpu Wchan Thread → Prop
  | .runqueue c => s.tCpu t = c
  | .zombies c => s.tCpu t = c ∧ s.tState t = .zombie
  | .handler c => migrates (s.handler c) = true → s.tCpu t = c
  | _ => True

structure Placed (s : State Cpu Wchan Thread) (place : Thread → Option (ThreadList Cpu Wchan Thread)) : Prop where
  located : Located s.lists place
  suits : ∀ t l, place t = some l → Suits s t l
  onCpu : ∀ c, s.tCpu (s.curthread c) = c
  idle : ∀ c, place (s.curthread c) ≠ none ↔ s.mode c = .idle
  alive : ∀ t, s.alive t = true ↔ (∃ c, s.curthread c = t) ∨ place t ≠ none
  private_ : ∀ c, gathers (s.handler c) = false → s.lists (.handler c) = []

variable {s t : State Cpu Wchan Thread} {place : Thread → Option (ThreadList Cpu Wchan Thread)}
  {allcpus : List Cpu} {c d : Cpu} {w : Wchan} {l m : ThreadList Cpu Wchan Thread} {stay go : List Thread}

section
omit [DecidableEq Cpu] [DecidableEq Wchan] [DecidableEq Thread]

lemma booted_placed (booted : Booted s) : Placed s fun _ => none := by
  constructor
  · exact Located.empty booted.lists
  · intro t l at_
    cases at_
  · exact booted.onCpu
  · intro c
    simp [booted.running c]
  · intro t
    simp [booted.alive t]
  intro c _
  exact booted.lists _

lemma Placed.distinct (placed : Placed s place) (eq : s.curthread c = s.curthread d) : c = d := by
  rw [←placed.onCpu c,eq,placed.onCpu d]

lemma Placed.unlisted (placed : Placed s place) (busy : s.mode c ≠ .idle) : place (s.curthread c) = none := by
  by_contra listed
  exact busy ((placed.idle c).mp listed)

end

section
omit [DecidableEq Wchan] [DecidableEq Thread]

lemma Placed.control (placed : Placed s place) (empty : gathers now = false → s.lists (.handler c) = [])
    (victims : migrates now → migrates (s.handler c) ∨ s.lists (.handler c) = []) :
    Placed {s with handler := update s.handler c now} place := by
  refine {placed with suits := ?_,private_ := ?_}
  · intro t l at_
    have old := placed.suits t l at_
    cases l with
    | handler d =>
      by_cases here : d = c
      · subst here
        intro migrating
        simp only [update_self] at migrating
        rcases victims migrating with already | nothing
        · exact old already
        have mem := (placed.located.mem _ t).mpr at_
        simp [nothing] at mem
      · simpa [here] using old
    | runqueue | zombies | wchan | hand => exact old
  intro d quiet
  by_cases here : d = c
  · subst here
    simp only [update_self] at quiet
    exact empty quiet
  apply placed.private_ d
  simpa [here] using quiet

lemma Placed.idleHandler (placed : Placed s place) (quiet : gathers (s.handler c) = false) (now : Handler Cpu) :
    Placed {s with handler := update s.handler c now} place :=
  placed.control (fun _ => placed.private_ c quiet) fun _ => .inr (placed.private_ c quiet)

end

lemma Placed.transfer (placed : Placed s place) (parts : (s.lists l).Perm (stay++go)) (differ : l ≠ m)
    {tCpu : Thread → Cpu} (kept : ∀ t, t ∉ go → tCpu t = s.tCpu t) (onCpu : ∀ c, tCpu (s.curthread c) = c)
    (suits : ∀ t ∈ go, Suits {s with tCpu := tCpu} t m) (gathered : ∀ c, m = .handler c → gathers (s.handler c)) :
    Placed {take s l m stay go with tCpu := tCpu} (moveAll place go (some m)) := by
  have listed : ∀ {t}, t ∈ go → place t = some l := by
    intro t mem
    apply (placed.located.mem l t).mp
    simp [parts.mem_iff,mem]
  have eq : ∀ t, moveAll place go (some m) t ≠ none ↔ place t ≠ none := by
    intro t
    by_cases mem : t ∈ go
    · simp [moveAll_member mem,listed mem]
    · rw [moveAll_other mem]
  constructor
  · exact placed.located.transfer parts differ
  · intro t k at_
    by_cases mem : t ∈ go
    · rw [moveAll_member mem] at at_
      cases at_
      exact suits t mem
    rw [moveAll_other mem] at at_
    have old := placed.suits t k at_
    cases k with
    | runqueue | zombies | handler => simpa [take,kept t mem] using old
    | wchan | hand => trivial
  · exact onCpu
  · intro c
    exact (eq _).trans (placed.idle c)
  · intro t
    rw [eq t]
    exact placed.alive t
  intro c quiet
  change gathers (s.handler c) = false at quiet
  have empty := placed.private_ c quiet
  have target : ThreadList.handler c ≠ m := by
    intro goal
    have busy := gathered c goal.symm
    rw [quiet] at busy
    cases busy
  by_cases origin : ThreadList.handler c = l
  · have nothing := parts
    rw [←origin,empty] at nothing
    have none_stays := (List.append_eq_nil_iff.mp nothing.nil_eq.symm).1
    rw [none_stays,origin]
    simp [take,differ]
  · simpa [take,target,origin] using empty

lemma Placed.take (placed : Placed s place) (parts : (s.lists l).Perm (stay++go)) (differ : l ≠ m)
    (suits : ∀ t ∈ go, Suits s t m) (gathered : ∀ c, m = .handler c → gathers (s.handler c)) :
    Placed (take s l m stay go) (moveAll place go (some m)) :=
  placed.transfer parts differ (fun _ _ => rfl) placed.onCpu suits gathered

lemma Placed.leave (placed : Placed s place) (busy : s.mode c ≠ .idle)
    (suits : Suits {s with tState := update s.tState (s.curthread c) newstate} (s.curthread c) l)
    (shared : ∀ c, l ≠ .handler c) :
    Placed {addtail s l (s.curthread c) with
      mode := update s.mode c .idle
      tState := update s.tState (s.curthread c) newstate} (update place (s.curthread c) (some l)) := by
  have nowhere := placed.unlisted busy
  constructor
  · exact placed.located.addtail nowhere
  · intro t k at_
    by_cases self : t = s.curthread c
    · subst self
      simp only [update_self,some.injEq] at at_
      subst at_
      exact suits
    rw [update_of_ne self] at at_
    have old := placed.suits t k at_
    cases k with
    | zombies d => simpa [addtail,self] using old
    | runqueue | handler | wchan | hand => exact old
  · exact placed.onCpu
  · intro d
    by_cases here : d = c
    · simp [here,addtail]
    have ne : s.curthread d ≠ s.curthread c := fun eq => here (placed.distinct eq)
    simpa [here,ne,addtail] using placed.idle d
  · intro t
    have old := placed.alive t
    by_cases self : t = s.curthread c
    · have cur : ∃ d, s.curthread d = t := ⟨c,self.symm⟩
      simpa [self,addtail,cur] using old.mpr (.inl cur)
    · simpa [self,addtail] using old
  intro d quiet
  have target : ThreadList.handler d ≠ l := (shared d).symm
  simpa [addtail,target] using placed.private_ d quiet

lemma Placed.nextThread (placed : Placed s place) (idle : s.mode c = .idle) :
    ∃ place', Placed (nextThread s c) place' := by
  unfold ThreadLists.nextThread
  cases queue : s.lists (.runqueue c) with
  | nil =>
    have eq : update s.mode c .idle = s.mode := by rw [←idle,update_eq_self]
    exact ⟨place,by simpa only [eq] using placed⟩
  | cons next rest =>
    have at_ : place next = some (.runqueue c) := (placed.located.mem _ next).mp (by simp [queue])
    have mine : s.tCpu next = c := placed.suits next _ at_
    refine ⟨update place next none,?_⟩
    constructor
    · exact placed.located.remhead queue
    · intro t k found
      by_cases self : t = next
      · simp [self] at found
      rw [update_of_ne self] at found
      have old := placed.suits t k found
      cases k with
      | zombies d => simpa [self] using old
      | runqueue | handler | wchan | hand => exact old
    · intro d
      by_cases here : d = c
      · simpa [here] using mine
      · simpa [here] using placed.onCpu d
    · intro d
      by_cases here : d = c
      · simp [here]
      have ne : s.curthread d ≠ next := by
        intro eq
        apply here
        rw [←placed.onCpu d,eq,mine]
      simpa [here,ne] using placed.idle d
    · intro t
      have old := placed.alive t
      by_cases self : t = next
      · have cur : ∃ d, update s.curthread c next d = t := ⟨c,by simp [self]⟩
        exact iff_of_true (old.mpr (.inr (by simp [self,at_]))) (.inl cur)
      rw [update_of_ne self]
      refine old.trans ?_
      -- The thread the CPU leaves is on a list since it began to idle.
      constructor
      · intro pre
        rcases pre with ⟨d,cur⟩ | listed
        · by_cases here : d = c
          · right
            rw [←cur,here]
            exact (placed.idle c).mpr idle
          · exact .inl ⟨d,by simpa [here] using cur⟩
        · exact .inr listed
      intro after
      rcases after with ⟨d,cur⟩ | listed
      · by_cases here : d = c
        · simp [here,Ne.symm self] at cur
        · exact .inl ⟨d,by simpa [here] using cur⟩
      · exact .inr listed
    intro d quiet
    simpa using placed.private_ d quiet

lemma Placed.threadSwitch (placed : Placed s place) (busy : s.mode c ≠ .idle)
    (suits : Suits {s with tState := update s.tState (s.curthread c) newstate} (s.curthread c) l)
    (shared : ∀ c, l ≠ .handler c) : ∃ place', Placed (threadSwitch s c newstate l) place' :=
  (placed.leave busy suits shared).nextThread (by simp)

lemma Placed.threadFork (placed : Placed s place) (fresh : s.alive new = false) :
    ∃ place', Placed (threadFork s c new) place' := by
  have dead : ¬((∃ d, s.curthread d = new) ∨ place new ≠ none) := by
    rw [←placed.alive new,fresh]
    exact Bool.false_ne_true
  push Not at dead
  obtain ⟨uncurrent,nowhere⟩ := dead
  refine ⟨update place new (some (.runqueue c)),?_⟩
  have home : s.tCpu (s.curthread c) = c := placed.onCpu c
  constructor
  · simpa [ThreadLists.threadFork,threadMakeRunnable,addtail,home] using placed.located.addtail nowhere
  · intro t k found
    by_cases self : t = new
    · subst self
      simp only [update_self,some.injEq] at found
      subst found
      simp [ThreadLists.threadFork,threadMakeRunnable,addtail,home]
    rw [update_of_ne self] at found
    have old := placed.suits t k found
    cases k with
    | runqueue | zombies | handler => simpa [ThreadLists.threadFork,threadMakeRunnable,addtail,self] using old
    | wchan | hand => trivial
  · intro d
    simpa [ThreadLists.threadFork,threadMakeRunnable,addtail,uncurrent d] using placed.onCpu d
  · intro d
    simpa [ThreadLists.threadFork,threadMakeRunnable,addtail,uncurrent d] using placed.idle d
  · intro t
    by_cases self : t = new
    · simp [ThreadLists.threadFork,threadMakeRunnable,addtail,self]
    · simpa [ThreadLists.threadFork,threadMakeRunnable,addtail,self] using placed.alive t
  intro d quiet
  simpa [ThreadLists.threadFork,threadMakeRunnable,addtail] using placed.private_ d quiet

omit [DecidableEq Cpu] [DecidableEq Wchan] [DecidableEq Thread] in
lemma Placed.undead (placed : Placed s place) (hit : z ∈ s.lists (.zombies c))
    (switched : s.mode c = .switched) (d : Cpu) : s.curthread d ≠ z := by
  intro cur
  have at_ := (placed.located.mem _ z).mp hit
  have mine := (placed.suits z _ at_).1
  have here : d = c := by rw [←placed.onCpu d,cur,mine]
  have nowhere := placed.unlisted (c := c) (by simp [switched])
  rw [←here,cur,at_] at nowhere
  cases nowhere

lemma Placed.exorcise (placed : Placed s place) (switched : s.mode c = .switched) :
    ∃ t place', exorcise s c = some t ∧ Placed t place' := by
  unfold ThreadLists.exorcise
  cases dead : s.lists (.zombies c) with
  | nil =>
    refine ⟨_,place,rfl,{placed with idle := ?_}⟩
    intro d
    by_cases here : d = c
    · simpa [here,switched] using placed.idle c
    · simpa [here] using placed.idle d
  | cons z rest =>
    have hit : z ∈ s.lists (.zombies c) := by simp [dead]
    have at_ := (placed.located.mem _ z).mp hit
    have uncurrent := placed.undead hit switched
    refine ⟨_,update place z none,if_pos ⟨(uncurrent c).symm,(placed.suits z _ at_).2⟩,?_⟩
    constructor
    · exact placed.located.remhead dead
    · intro t k listed
      by_cases self : t = z
      · simp [self] at listed
      rw [update_of_ne self] at listed
      exact placed.suits t k listed
    · exact placed.onCpu
    · intro d
      simpa [uncurrent d] using placed.idle d
    · intro t
      by_cases self : t = z
      · simp [self,uncurrent]
      · simpa [self] using placed.alive t
    intro d quiet
    simpa using placed.private_ d quiet

lemma Placed.wakeone (placed : Placed s place) (shared : ∀ t, Suits s t m) (ne : .wchan w ≠ m)
    (gathered : ∀ c, m = .handler c → gathers (s.handler c)) : ∃ place', Placed (wakeone s w m) place' := by
  unfold ThreadLists.wakeone
  cases hit : s.lists (.wchan w) with
  | nil => exact ⟨place,placed⟩
  | cons target rest =>
    refine ⟨_,placed.take ?_ ne (fun t _ => shared t) gathered⟩
    simpa [hit] using (List.perm_append_singleton target rest).symm

lemma Placed.wakeall (placed : Placed s place) (shared : ∀ t, Suits s t m) (ne : .wchan w ≠ m)
    (gathered : ∀ c, m = .handler c → gathers (s.handler c)) : ∃ place', Placed (wakeall s w m) place' :=
  ⟨_,placed.take (by simp) ne (fun t _ => shared t) gathered⟩

lemma Placed.deliver (placed : Placed s place) (ne : ∀ c, .runqueue c ≠ l)
    (did : deliver s l = some t) : ∃ place', Placed t place' := by
  unfold ThreadLists.deliver at did
  cases hit : s.lists l with
  | nil => simp [hit] at did
  | cons target rest =>
    have moved : ThreadLists.take s l (.runqueue (s.tCpu target)) rest [target] = t := by
      simpa [hit,threadMakeRunnable,addtail,ThreadLists.take,ne] using did
    rw [←moved]
    refine ⟨_,placed.take ?_ (ne _).symm ?_ (by simp)⟩
    · simpa [hit] using (List.perm_append_singleton target rest).symm
    · simp

lemma Placed.sendTo (placed : Placed s place) (migrating : migrates (s.handler c))
    (did : sendTo c d oneShare toSend s = some (t,left)) : ∃ place', Placed t place' ∧ t.handler = s.handler := by
  induction toSend generalizing s place with
  | zero =>
    cases did
    exact ⟨place,placed,rfl⟩
  | succ n ih =>
    unfold ThreadLists.sendTo at did
    split at did
    · cases did
      exact ⟨place,placed,rfl⟩
    cases hit : s.lists (.handler c) with
    | nil => simp [hit] at did
    | cons target rest =>
      simp only [hit] at did
      have back : (s.lists (.handler c)).Perm (rest++[target]) := by
        rw [hit]
        exact (List.perm_append_singleton target rest).symm
      split at did
      · have shuffled : Placed {s with lists := update s.lists (.handler c) (rest++[target])} place := by
          refine {placed with located := placed.located.reorder back,private_ := ?_}
          intro e quiet
          by_cases here : e = c
          · have empty := placed.private_ e quiet
            simp [here,hit] at empty
          · simpa [here] using placed.private_ e quiet
        obtain ⟨place',after,eq⟩ := ih shuffled migrating did
        exact ⟨place',after,eq⟩
      rename_i uncurrent
      have at_ := (placed.located.mem (.handler c) target).mp (by simp [hit])
      have mine : s.tCpu target = c := placed.suits target _ at_ migrating
      have differ : ThreadList.handler c ≠ (.runqueue d : ThreadList Cpu Wchan Thread) := by simp
      have kept : ∀ t, t ∉ [target] → update s.tCpu target d t = s.tCpu t := by
        intro t outside
        simp only [List.mem_singleton] at outside
        simp [outside]
      have onCpu : ∀ e, update s.tCpu target d (s.curthread e) = e := by
        intro e
        have ne : s.curthread e ≠ target := by
          intro eq
          have here : e = c := by rw [←placed.onCpu e,eq,mine]
          exact uncurrent (by rw [←eq,here])
        simpa [ne] using placed.onCpu e
      have sent := placed.transfer back differ kept onCpu (by simp) (by simp)
      obtain ⟨place',after,eq⟩ := ih sent migrating did
      exact ⟨place',after,eq⟩

lemma Placed.takeVictims (placed : Placed s place) (quiet : gathers (s.handler c) = false)
    (did : takeVictims allcpus s c myCount totalCount = some t) : ∃ place', Placed t place' := by
  unfold ThreadLists.takeVictims at did
  simp only [] at did
  split at did
  · cases did
    exact ⟨place,placed.idleHandler quiet _⟩
  split at did
  · cases did
  cases did
  refine ⟨_,(placed.idleHandler quiet _).take ?_ (by simp) ?_ (by simp)⟩
  · simp
  intro t member
  have queued := (placed.located.mem (.runqueue c) t).mp (List.mem_of_mem_drop member)
  simpa using placed.suits t _ queued

lemma Placed.giveBack (placed : Placed s place) (migrating : migrates (s.handler c)) :
    Placed { ThreadLists.take s (.handler c) (.runqueue c) [] (s.lists (.handler c)) with
      handler := update s.handler c .off} (moveAll place (s.lists (.handler c)) (some (.runqueue c))) := by
  have moved : Placed (ThreadLists.take s (.handler c) (.runqueue c) [] (s.lists (.handler c)))
      (moveAll place (s.lists (.handler c)) (some (.runqueue c))) := by
    refine placed.take (by simp) (by simp) ?_ (by simp)
    intro t member
    exact placed.suits t _ ((placed.located.mem _ t).mp member) migrating
  exact moved.control (fun _ => by simp [ThreadLists.take]) (by simp)

lemma Placed.handle (placed : Placed s place) (did : handle allcpus s c = some t) : ∃ place', Placed t place' := by
  unfold ThreadLists.handle at did
  split at did
  next => cases did
  next waking =>
      split at did
      · rename_i empty
        cases did
        exact ⟨place,placed.control (fun _ => empty) (by simp)⟩
      · exact placed.deliver (by simp) did
  next counted => exact placed.takeVictims (by simp [counted]) did
  next counting =>
      cases did
      exact ⟨place,placed.idleHandler (by simp [counting]) _⟩
  next sending =>
      cases did
      exact ⟨place,placed.control (by simp) (by simp [sending])⟩
  next sending =>
      split at did
      · cases did
        exact ⟨place,placed.control (by simp) (by simp [sending])⟩
      split at did
      · cases did
        exact ⟨place,placed.control (by simp) (by simp [sending])⟩
      obtain ⟨⟨sent,left⟩,sends,eq⟩ := map_eq_some_iff.mp did
      obtain ⟨place',after,handler⟩ := placed.sendTo (by simp [sending]) sends
      subst eq
      rw [←handler]
      exact ⟨place',after.control (by simp) (by simp [handler,sending])⟩
  next returning =>
      cases did
      exact ⟨_,placed.giveBack (by simp [returning])⟩

lemma Placed.threadYield (placed : Placed s place) (did : threadYield s c = some t) : ∃ place', Placed t place' := by
  unfold ThreadLists.threadYield at did
  split at did
  next => cases did
  next =>
      cases did
      exact ⟨place,placed⟩
  next running =>
      split at did
      · cases did
        exact ⟨place,placed⟩
      cases did
      exact placed.threadSwitch (by simp [running]) (by simp) (by simp)

lemma Placed.step (placed : Placed s place) (did : step allcpus s event = some t) : ∃ place', Placed t place' := by
  cases event with
  | threadFork c new =>
    obtain ⟨⟨_,fresh⟩,eq⟩ := ite_none_right_eq_some.mp did
    cases eq
    exact placed.threadFork fresh
  | threadYield c => exact placed.threadYield (ite_none_right_eq_some.mp did).2
  | wchanSleep c w =>
    obtain ⟨⟨runs,_⟩,eq⟩ := ite_none_right_eq_some.mp did
    cases eq
    exact placed.threadSwitch (by simp [runs]) trivial (by simp)
  | threadExit c =>
    obtain ⟨⟨runs,_⟩,eq⟩ := ite_none_right_eq_some.mp did
    cases eq
    exact placed.threadSwitch (by simp [runs]) (by simp [placed.onCpu c]) (by simp)
  | wchanWakeone c w =>
    obtain ⟨_,eq⟩ := ite_none_right_eq_some.mp did
    cases eq
    exact placed.wakeone (fun _ => trivial) (by simp) (by simp)
  | wchanWakeall c w =>
    obtain ⟨_,eq⟩ := ite_none_right_eq_some.mp did
    cases eq
    exact placed.wakeall (fun _ => trivial) (by simp) (by simp)
  | makeRunnable c => exact placed.deliver (by simp) (ite_none_right_eq_some.mp did).2
  | unidle c =>
    obtain ⟨⟨idle,_⟩,eq⟩ := ite_none_right_eq_some.mp did
    cases eq
    exact placed.nextThread idle
  | exorcise c =>
    obtain ⟨switched,did⟩ := ite_none_right_eq_some.mp did
    obtain ⟨t,place',eq,after⟩ := placed.exorcise switched
    rw [eq] at did
    cases did
    exact ⟨place',after⟩
  | interruptWakeone c w =>
    obtain ⟨⟨_,off⟩,eq⟩ := ite_none_right_eq_some.mp did
    cases eq
    exact (placed.idleHandler (by simp [off]) .waking).wakeone (by simp) (by simp) (by simp)
  | interruptWakeall c w =>
    obtain ⟨⟨_,off⟩,eq⟩ := ite_none_right_eq_some.mp did
    cases eq
    exact (placed.idleHandler (by simp [off]) .waking).wakeall (by simp) (by simp) (by simp)
  | considerMigration c =>
    obtain ⟨⟨_,off⟩,eq⟩ := ite_none_right_eq_some.mp did
    cases eq
    exact ⟨place,placed.idleHandler (by simp [off]) _⟩
  | handle c => exact placed.handle did

lemma reached_placed (booted : Booted start) (path : Reached (step allcpus) Free start s) :
    ∃ place, Placed s place := by
  refine path.invariant (fun s => ∃ place, Placed s place) ⟨_,booted_placed booted⟩ ?_
  intro s event t _ inv _ did
  obtain ⟨place,placed⟩ := inv
  exact placed.step did

-- Where the threads are. The lists include the private ones of wakeups and migrations.
structure OnePlace (allcpus : List Cpu) (s : State Cpu Wchan Thread) : Prop where
  somewhere : ∀ t, s.alive t = true → (∃ c, s.curthread c = t) ∨ ∃ l, t ∈ s.lists l
  once : ∀ l, (s.lists l).Nodup
  oneList : ∀ t l m, t ∈ s.lists l → t ∈ s.lists m → l = m
  oneCpu : ∀ c d, s.curthread c = s.curthread d → c = d
  -- Outside the idle loop, so also when thread_switch is through, the current thread is on no list.
  idling : ∀ c l, s.curthread c ∈ s.lists l → s.mode c = .idle
  buried : ∀ c z t, s.alive z = true → step allcpus s (.exorcise c) = some t → t.alive z = false →
    (∀ d, s.curthread d ≠ z) ∧ (∀ d, z ∉ s.lists (.runqueue d)) ∧ ∀ w, z ∉ s.lists (.wchan w)

lemma exorcise_buries (living : s.alive z) (did : step allcpus s (.exorcise c) = some t)
    (dead : t.alive z = false) : s.mode c = .switched ∧ z ∈ s.lists (.zombies c) := by
  obtain ⟨switched,did⟩ := ite_none_right_eq_some.mp did
  refine ⟨switched,?_⟩
  unfold exorcise at did
  cases hit : s.lists (.zombies c) with
  | nil =>
    simp only [hit,some.injEq] at did
    subst did
    simp [living] at dead
  | cons one rest =>
    simp only [hit] at did
    obtain ⟨_,eq⟩ := ite_none_right_eq_some.mp did
    cases eq
    by_cases ne : z = one
    · simp [ne]
    · simp [ne,living] at dead

theorem thread_places {start : State Cpu Wchan Thread} (booted : Booted start)
    (path : Reached (step allcpus) Free start s) : OnePlace allcpus s := by
  obtain ⟨place,placed⟩ := reached_placed booted path
  constructor
  · intro t living
    rcases (placed.alive t).mp living with current | listed
    · exact .inl current
    obtain ⟨l,at_⟩ := ne_none_iff_exists'.mp listed
    exact .inr ⟨l,(placed.located.mem l t).mpr at_⟩
  · exact placed.located.nodup
  · intro t l m
    exact placed.located.unique
  · intro c d
    exact placed.distinct
  · intro c l member
    apply (placed.idle c).mp
    simp [(placed.located.mem l _).mp member]
  intro c z t living did dead
  obtain ⟨switched,found⟩ := exorcise_buries living did dead
  refine ⟨placed.undead found switched,?_,?_⟩
  · intro d queued
    cases placed.located.unique found queued
  intro w sleeping
  cases placed.located.unique found sleeping

local instance two : NeZero 2 := ⟨by decide⟩

def pair : State (Fin 2) (Fin 1) (Fin 8) where
  lists _ := []
  curthread c := if c = 0 then 0 else 1
  mode _ := .running
  handler _ := .off
  tCpu t := if t = 0 then 0 else 1
  tState _ := .run
  alive t := decide (t.val < 2)

lemma pair_booted : Booted pair where
  lists _ := rfl
  onCpu := by decide
  running _ := rfl
  handler _ := rfl
  alive := by decide

def burial : List (Event (Fin 2) (Fin 1) (Fin 8)) :=
  [.threadFork 0 2,.threadFork 0 3,.threadFork 0 4,.threadFork 0 5,.considerMigration 0,.handle 0,.handle 0,.handle 0,
    .handle 0,.handle 0,.handle 0,.handle 0,.threadExit 0]

theorem thread_places_migrated : ∃ s, run (step [0,1]) pair burial = some s ∧
    s.lists (.runqueue 0) = [3] ∧ s.lists (.runqueue 1) = [4,5] ∧ s.curthread 0 = 2 ∧
    s.lists (.zombies 0) = [0] ∧ OnePlace [0,1] s := by
  have ran : (run (step [0,1]) pair burial).map (fun s => (s.lists (.runqueue 0),s.lists (.runqueue 1),s.curthread 0,
      s.lists (.zombies 0))) = some ([3],[4,5],2,[0]) := by decide +kernel
  obtain ⟨s,reached,shown⟩ := map_eq_some_iff.mp ran
  simp only [Prod.mk.injEq] at shown
  obtain ⟨left,sent,current,dead⟩ := shown
  exact ⟨s,reached,left,sent,current,dead,thread_places pair_booted (run_reached reached)⟩

theorem idle_thread_in_wakeup : ∃ s, run (step [0,1]) pair [.wchanSleep 0 0,.wchanWakeone 1 0] = some s ∧
    s.curthread 0 = 0 ∧ s.mode 0 = .idle ∧ 0 ∈ s.lists (.hand 1) ∧
    (∀ c, 0 ∉ s.lists (.runqueue c)) ∧ (∀ w, 0 ∉ s.lists (.wchan w)) ∧ ∀ c, 0 ∉ s.lists (.zombies c) :=
  ⟨_,rfl,by decide +kernel⟩
end ToyOS.ThreadLists

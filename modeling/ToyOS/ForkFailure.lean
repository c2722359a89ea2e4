import ToyOS.KernelHeap
import ToyOS.ProcTable

namespace ToyOS.ForkFailure
open Function UserSpace BlockStore Coremap SpaceFrames StoppedLoad FrameOwners ProcTable KernelHeap Option

-- What sys_fork asks kmalloc for.
inductive Thing where
  | proc | pName | cv | cvName | wchan | consolePath
  | addrspace | trapframe
  | thread | tName | stack | threads

-- The sizes, which depend on the compiler and the process's name, and how kmalloc serves each call.
structure Policy where
  size : Thing → Nat
  place : Nat → Place

structure Kernel where
  procs : Procs
  heap : Heap

section
variable (r : Ram) (policy : Policy)

def get (x : Thing) (h : Heap) : Heap × Option Nat :=
  kmalloc r (policy.place h.next) (policy.size x) h

def acquire : List Thing → List Nat → Heap → Option (Heap × Option (List Nat))
  | [],got,h => some (h,some got)
  | x :: rest,got,h => match get r policy x h with
    | (h,some t) => acquire rest (t :: got) h
    | (h,none) => (release r got h).map fun h => (h,none)

def procCreate : Heap → Option (Heap × Option (List Nat)) := acquire r policy [.proc,.pName] []

def cvCreate : Heap → Option (Heap × Option (List Nat)) :=
  acquire r policy [.cv,.cvName,.wchan] []

def threadFork : Heap → Option (Heap × Option (List Nat)) :=
  acquire r policy [.thread,.tName,.stack,.threads] []

-- A new process: its structure, and what proc_destroy frees of it, in that order.
structure Body where
  id : ProcId
  parts : List Nat

def enroll (procs : Procs) (new : ProcId) : Procs :=
  addToActiveProcList {procs.set new newProc with procCount := procs.procCount+1} new

def procCreateRunprogram (k : Kernel) : Option (Kernel × Option Body) :=
  match procCreate r policy k.heap with
  | none => none
  | some (heap,none) => some ({k with heap},none)
  | some (heap,some body) => match cvCreate r policy heap with
    | none => none
    | some (heap,none) => (release r body heap).map fun heap => ({k with heap},none)
    | some (heap,some cv) => match get r policy .consolePath heap with
      | (_,none) => none
      | (heap,some path) => (kfree r path heap).map fun heap =>
        (⟨enroll k.procs k.heap.next,heap⟩,some ⟨k.heap.next,cv++body⟩)

def procDestroy (k : Kernel) (new : Body) : Option Kernel :=
  (release r new.parts k.heap).map fun heap => ⟨ProcTable.procDestroy k.procs new.id,heap⟩

def adopt (procs : Procs) (new : ProcId) (pid : Int) : Procs :=
  procs.set new {procs.proc new with parentPid := pid}

variable (copy : Heap → Option (Heap × Except Errno Nat)) (pid : Int)

def forkCopy (k : Kernel) : Option (Kernel × Except Errno Body) :=
  if checkProcLimit k.procs then some (k,.error .enproc)
  else match procCreateRunprogram r policy k with
    | none => none
    | some (k,none) => some (k,.error .enomem)
    | some (k,some new) => match copy k.heap with
      | none => none
      | some (heap,.error errno) =>
        (procDestroy r ⟨adopt k.procs new.id pid,heap⟩ new).map fun k => (k,.error errno)
      | some (heap,.ok _) => some (⟨adopt k.procs new.id pid,heap⟩,.ok new)

def sysFork (k : Kernel) : Option (Kernel × Except Errno Int) :=
  match forkCopy r policy copy pid k with
  | none => none
  | some (k,.error errno) => some (k,.error errno)
  | some (k,.ok new) => match get r policy .trapframe k.heap with
    | (heap,none) => (procDestroy r {k with heap} new).map fun k => (k,.error .enomem)
    | (heap,some tf) => match threadFork r policy heap with
      | none => none
      | some (heap,none) => (procDestroy r {k with heap} new).bind fun k =>
        (kfree r tf k.heap).map fun heap => ({k with heap},.error .enomem)
      | some (heap,some _) => some ({k with heap},.ok (k.procs.proc new.id).pid)

end

def asCopyHeap (r : Ram) (policy : Policy) (junk : Segment → Nat → Nat) (old : AddrSpace) (h : Heap) :
    Option (Heap × Except Errno Nat) :=
  match get r policy .addrspace h with
  | (h,none) => some (h,.error .enomem)
  | (h,some as) => match asCopy r junk h.frames.coremap old with
    | none => none
    | some (coremap,.ok new) =>
      some ({h with frames := {h.frames.addSpace (.prepared new) with coremap}},.ok as)
    | some (coremap,.error errno) =>
      (kfree r as {h with frames := {h.frames with coremap}}).map fun h => (h,.error errno)

-- Nothing but the counters has changed.
structure Unchanged (h after : Heap) : Prop where
  live : after.live = h.live
  coremap : after.frames.coremap = h.frames.coremap
  kernel : after.frames.kernel = h.frames.kernel
  spaces : after.frames.spaces = h.frames.spaces
  next : h.next ≤ after.next
  nextKernel : h.frames.nextKernel = after.frames.nextKernel
  nextSpace : h.frames.nextSpace ≤ after.frames.nextSpace

-- Assumed of as_copy: a failure changes nothing, a success leaves a new structure in memory.
structure AtomicCopy (copy : Heap → Option (Heap × Except Errno Nat)) : Prop where
  failed : ∀ h after errno, copy h = some (after,.error errno) → Unchanged h after
  succeeded : ∀ h after as, Known h → copy h = some (after,.ok as) →
    h.live as = none ∧ after.live as ≠ none ∧ Known after

-- Process table, proc_count, coremap and live allocations are as before; current_largest_pid may have moved, but the
-- next pid is the same.
structure Atomic (k after : Kernel) : Prop where
  table : after.procs.activeProcList = k.procs.activeProcList
  nextPid : lowestFree after.procs = lowestFree k.procs
  count : after.procs.procCount = k.procs.procCount
  coremap : after.heap.frames.coremap = k.heap.frames.coremap
  live : after.heap.live = k.heap.live

-- The states of the kernel: its tables are in order, and processes are kept in memory from kmalloc.
structure Ready (r : Ram) (k : Kernel) : Prop where
  table : TableValid k.procs
  known : Known k.heap
  accounts : ∃ parts store, AccountedBy r k.heap.frames parts store
  listed : ∀ p, Listed k.procs p → p < k.heap.next

section
variable {r : Ram} {policy : Policy} {parts : Nat → Part → Option Block} {start h after : Heap}

lemma get_holding (inst : r.Installed) (held : Holding r parts start got h) (done : get r policy x h = (after,res)) :
    (res = none ∧ Holding r parts start got after) ∨ ∃ t, res = some t ∧ Holding r parts start (t :: got) after := by
  rcases kmalloc_holding inst held done with ⟨none_,kept,_⟩ | some_
  · exact .inl ⟨none_,kept⟩
  · exact .inr some_

lemma acquire_holding (inst : r.Installed) (done : acquire r policy things got h = some (after,res))
    (held : Holding r parts start (got++before) h) : (res = none ∧ Holding r parts start before after) ∨
    ∃ all, res = some all ∧ Holding r parts start (all++before) after := by
  induction things generalizing got h with
  | nil =>
    cases done
    exact .inr ⟨got,rfl,held⟩
  | cons x rest ih =>
    cases did : get r policy x h with
    | mk mid gained =>
      rw [acquire,did] at done
      rcases get_holding inst held did with ⟨rfl,kept⟩ | ⟨t,rfl,more⟩
      · obtain ⟨final,released,eq⟩ := map_eq_some_iff.mp done
        cases eq
        obtain ⟨ne,also,left,_⟩ := release_holding kept
        cases released.symm.trans also
        exact .inl ⟨rfl,left⟩
      · exact ih done more

lemma acquire_keeps (known : Known h) (here : h.live t ≠ none) (other : t ∉ got)
    (done : acquire r policy things got h = some (after,res)) : after.live t = h.live t ∧ Known after := by
  induction things generalizing got h with
  | nil =>
    cases done
    exact ⟨rfl,known⟩
  | cons x rest ih =>
    cases did : get r policy x h with
    | mk mid gained =>
      rw [acquire,did] at done
      have known' := kmalloc_known known did
      rcases kmalloc_cases did with ⟨rfl,rfl⟩ | ⟨b,rfl,live,_⟩
      · obtain ⟨final,released,eq⟩ := map_eq_some_iff.mp done
        cases eq
        have kept := release_keeps released other
        exact ⟨kept,release_known known' released⟩
      have ne : t ≠ h.next := by
        rintro rfl
        exact here (known.unused _ le_rfl)
      have same : mid.live t = h.live t := by rw [live,update_of_ne ne]
      rw [←same]
      refine ih known' (by rw [same]; exact here) ?_ done
      rw [List.mem_cons,not_or]
      exact ⟨ne,other⟩

end

lemma Unchanged.holding (eq : Unchanged h after)
    (held : Holding r parts start got h) : Holding r parts start got after := by
  obtain ⟨⟨⟨store,acc⟩,known,origin,kept,old,new,shares,further,later⟩,mine,live,rest,nodup⟩ := held
  obtain ⟨lives,coremap,kernel,spaces,next,nextKernel,nextSpace⟩ := eq
  refine ⟨⟨⟨store,?_⟩,⟨?_,?_⟩,origin,?_,?_,?_,?_,?_,?_⟩,mine,?_,?_,nodup⟩
  · refine ⟨by rw [coremap]; exact acc.represents,acc.spaces,?_,?_,?_,?_,?_⟩
    · rw [kernel]
      exact acc.kernel
    · rw [spaces]
      exact acc.holding
    · rw [spaces]
      exact acc.tables
    · rw [spaces]
      exact fun k beyond => acc.freshSpaces k (le_trans nextSpace beyond)
    rw [kernel,←nextKernel]
    exact acc.freshKernel
  · rw [lives]
    exact fun k beyond => known.unused k (le_trans next beyond)
  · rw [lives,←nextKernel]
    exact known.blocks
  · rwa [lives]
  · rwa [kernel]
  · rwa [kernel,lives]
  · rwa [lives]
  · exact le_trans further next
  · rwa [←nextKernel]
  · rwa [lives]
  · rwa [lives]

lemma lowestFree_congr (one : TableValid s) (two : TableValid t)
    (same : t.activeProcList = s.activeProcList) : lowestFree t = lowestFree s := by
  obtain ⟨low,_,null,full⟩ := lowestFree_spec one
  obtain ⟨low',_,null',full'⟩ := lowestFree_spec two
  rw [same] at null' full'
  rcases Int.lt_trichotomy (lowestFree t) (lowestFree s) with less | eq | greater
  · exact absurd null' (full _ low' less)
  · exact eq
  · exact absurd null (full' _ low greater)

lemma set_valid (ok : TableValid s) (value : Proc) (eq : ∀ i, s.activeProcList i = some p → value.pid = i)
    (count : Nat) : TableValid {s.set p value with procCount := count} := by
  refine ⟨ok.low,ok.above,ok.below,fun i q hit => ?_⟩
  simp only [Procs.set]
  rcases eq_or_ne q p with rfl | ne
  · rw [update_self]
    exact eq i hit
  rw [update_of_ne ne]
  exact ok.self i q hit

lemma adopt_valid (ok : TableValid s) (p : ProcId) (pid : Int) : TableValid (adopt s p pid) :=
  set_valid ok {s.proc p with parentPid := pid} (fun i hit => ok.self i p hit) s.procCount

lemma table_undone (ok : TableValid procs) (fresh : ¬ Listed procs new) (pid : Int) :
    (ProcTable.procDestroy (adopt (enroll procs new) new pid) new).activeProcList = procs.activeProcList ∧
      (ProcTable.procDestroy (adopt (enroll procs new) new pid) new).procCount = procs.procCount ∧
      lowestFree (ProcTable.procDestroy (adopt (enroll procs new) new pid) new) = lowestFree procs := by
  have counted : TableValid {procs.set new newProc with procCount := procs.procCount+1} :=
    set_valid ok newProc (fun i hit => absurd ⟨i,hit⟩ fresh) _
  have adopted : TableValid (adopt (enroll procs new) new pid) := adopt_valid (add_valid counted fresh) new pid
  have free := (lowestFree_spec ok).2.2.1
  have eq : enroll procs new = Procs.place {procs.set new newProc with
      procCount := procs.procCount+1
      currentLargestPid := max procs.currentLargestPid (lowestFree procs)} new
      (lowestFree procs) := add_eq _ _
  have hit : (adopt (enroll procs new) new pid).activeProcList (lowestFree procs) = some new := by
    rw [eq]
    exact update_self ..
  have list : (ProcTable.procDestroy (adopt (enroll procs new) new pid) new).activeProcList = procs.activeProcList := by
    rw [destroy_list adopted hit,eq]
    simp only [adopt,Procs.set,Procs.place,update_idem]
    rw [←free]
    exact update_eq_self ..
  refine ⟨list,?_,lowestFree_congr ok (destroy_valid adopted hit) list⟩
  rw [eq]
  rfl

section
variable {r : Ram} {policy : Policy} {parts : Nat → Part → Option Block} {k after : Kernel}

lemma procCreateRunprogram_spec (inst : r.Installed) (held : Holding r parts k.heap [] k.heap)
    (done : procCreateRunprogram r policy k = some (after,made)) :
    (made = none ∧ after.procs = k.procs ∧ Holding r parts k.heap [] after.heap) ∨
    ∃ new, made = some new ∧ new.id = k.heap.next ∧ after.procs = enroll k.procs k.heap.next ∧
      Holding r parts k.heap new.parts after.heap := by
  unfold procCreateRunprogram at done
  split at done
  · cases done
  · rename_i heap created
    cases done
    rcases acquire_holding inst created held with ⟨_,kept⟩ | ⟨_,no,_⟩
    · exact .inl ⟨rfl,rfl,kept⟩
    · cases no
  rename_i heap body created
  rcases acquire_holding inst created held with
    ⟨no,_⟩ | ⟨all,eq,one⟩
  · cases no
  cases eq
  rw [List.append_nil] at one
  split at done
  · cases done
  · rename_i heap' miss
    obtain ⟨final,released,eq⟩ := map_eq_some_iff.mp done
    cases eq
    rcases acquire_holding inst miss one with ⟨_,kept⟩ | ⟨_,no,_⟩
    · obtain ⟨ne,also,left,_⟩ := release_all kept
      cases released.symm.trans also
      exact .inl ⟨rfl,rfl,left⟩
    · cases no
  rename_i heap' cv waits
  rcases acquire_holding inst waits one with
    ⟨no,_⟩ | ⟨all,eq,two⟩
  · cases no
  cases eq
  split at done
  · cases done
  rename_i heap'' path opened
  obtain ⟨final,freed,eq⟩ := map_eq_some_iff.mp done
  cases eq
  rcases get_holding inst two opened with ⟨no,_⟩ | ⟨t,eq,third⟩
  · cases no
  cases eq
  obtain ⟨ne,also,left,_⟩ := kfree_holding third List.mem_cons_self
  cases freed.symm.trans also
  rw [List.erase_cons_head] at left
  exact .inr ⟨_,rfl,rfl,rfl,left⟩

lemma procDestroy_undoes (ready : Ready r k) (acc : AccountedBy r k.heap.frames parts store) (pid : Int)
    (held : Holding r parts k.heap tickets heap)
    (done : procDestroy r ⟨adopt (enroll k.procs k.heap.next) k.heap.next pid,heap⟩
      ⟨k.heap.next,tickets⟩ = some after) : Atomic k after := by
  obtain ⟨final,released,rfl⟩ := map_eq_some_iff.mp done
  have fresh : ¬ Listed k.procs k.heap.next := fun listed => lt_irrefl _ (ready.listed _ listed)
  obtain ⟨table,count,next⟩ := table_undone ready.table fresh pid
  obtain ⟨ne,also,left,_⟩ := release_all held
  cases released.symm.trans also
  obtain ⟨live,coremap⟩ := left.finished acc
  exact ⟨table,next,count,coremap,live⟩

variable {copy : Heap → Option (Heap × Except Errno Nat)}

lemma forkCopy_spec (inst : r.Installed) (atomic : AtomicCopy copy) (ready : Ready r k)
    (done : forkCopy r policy copy pid k = some (after,res)) : (∀ errno, res = .error errno → Atomic k after) ∧
    ∀ new, res = .ok new → ∃ as, k.heap.live as = none ∧ after.heap.live as ≠ none ∧
      as ∉ new.parts ∧ Known after.heap := by
  obtain ⟨parts,store,acc⟩ := ready.accounts
  have held := Holding.refl acc ready.known
  unfold forkCopy at done
  split at done
  · cases done
    refine ⟨fun _ _ => ⟨rfl,rfl,rfl,rfl,rfl⟩,fun _ no => by cases no⟩
  split at done
  · cases done
  · rename_i k' made
    cases done
    rcases procCreateRunprogram_spec inst held made with
      ⟨_,procs,kept⟩ | ⟨_,no,_⟩
    · obtain ⟨live,coremap⟩ := kept.finished acc
      exact ⟨fun _ _ => ⟨by rw [procs],by rw [procs],by rw [procs],coremap,live⟩,fun _ no => by cases no⟩
    · cases no
  rename_i k' new made
  rcases procCreateRunprogram_spec inst held made with
    ⟨no,_⟩ | ⟨_,eq,id,procs,kept⟩
  · cases no
  cases eq
  split at done
  · cases done
  · rename_i heap errno bad
    obtain ⟨final,destroyed,eq⟩ := map_eq_some_iff.mp done
    cases eq
    have same := (atomic.failed _ _ _ bad).holding kept
    obtain ⟨id',tickets⟩ := new
    cases id
    rw [procs] at destroyed
    exact ⟨fun _ _ => procDestroy_undoes ready acc pid same destroyed,fun _ no => by cases no⟩
  rename_i heap as copied
  cases done
  obtain ⟨miss,here,known⟩ := atomic.succeeded _ _ _ kept.known copied
  have out : as ∉ new.parts := fun among => kept.live as among miss
  refine ⟨fun _ no => (by cases no),fun _ eq => ?_⟩
  cases eq
  exact ⟨as,(kept.rest as out).symm.trans miss,here,out,known⟩

lemma procDestroy_keeps (done : procDestroy r ⟨procs,heap⟩ new = some after)
    (ne : as ∉ new.parts) : after.heap.live as = heap.live as := by
  obtain ⟨final,released,rfl⟩ := map_eq_some_iff.mp done
  exact release_keeps released ne

theorem sysFork_atomic_iff (installed : r.Installed) (atomic : AtomicCopy copy) (ready : Ready r k)
    (failed : sysFork r policy copy pid k = some (after,.error errno)) :
    Atomic k after ↔ ∃ early reason, forkCopy r policy copy pid k = some (early,.error reason) := by
  unfold sysFork at failed
  split at failed
  · cases failed
  · rename_i early reason stopped
    cases failed
    exact ⟨fun _ => ⟨_,_,stopped⟩,fun _ => (forkCopy_spec installed atomic ready stopped).1 _ rfl⟩
  rename_i middle new copied
  obtain ⟨as,absent,present,outside,known⟩ := (forkCopy_spec installed atomic ready copied).2 _ rfl
  have leaked : after.heap.live as ≠ none → (Atomic k after ↔ ∃ early reason,
      forkCopy r policy copy pid k = some (early,.error reason)) := by
    intro stays
    constructor
    · exact fun same => absurd (by rw [same.live]; exact absent) stays
    rintro ⟨_,_,impossible⟩
    rw [copied] at impossible
    cases impossible
  apply leaked
  have trapframe : ∀ {heap got}, get r policy .trapframe middle.heap = (heap,got) →
      heap.live as ≠ none ∧ Known heap ∧ ∀ tf, got = some tf → tf ≠ as := by
    intro heap got taken
    refine ⟨?_,kmalloc_known known taken,?_⟩
    all_goals rcases kmalloc_cases taken with ⟨rfl,rfl⟩ | ⟨b,rfl,live,_⟩
    · exact present
    · rw [live]
      rcases eq_or_ne as middle.heap.next with rfl | other
      · rw [update_self]
        exact some_ne_none _
      · rwa [update_of_ne other]
    · exact fun _ impossible => by cases impossible
    rintro tf equal rfl
    cases equal
    exact present (known.unused _ le_rfl)
  split at failed
  · rename_i heap missing
    obtain ⟨final,destroyed,equal⟩ := map_eq_some_iff.mp failed
    cases equal
    rw [procDestroy_keeps destroyed outside]
    exact (trapframe missing).1
  rename_i heap tf taken
  obtain ⟨stays,known',other⟩ := trapframe taken
  split at failed
  · cases failed
  · rename_i heap' stopped
    obtain ⟨last,destroyed,rest⟩ := bind_eq_some_iff.mp failed
    obtain ⟨final,freed,equal⟩ := map_eq_some_iff.mp rest
    cases equal
    have kept := (acquire_keeps known' stays List.not_mem_nil stopped).1
    rw [(kfree_live freed).1,update_of_ne (other tf rfl).symm,
      procDestroy_keeps destroyed outside,kept]
    exact stays
  · cases failed

end

lemma asCopyHeap_atomic (inst : r.Installed) (kernel : 0 < r.firstaddr) (policy : Policy) (junk : Segment → Nat → Nat)
    (old : AddrSpace) : AtomicCopy (asCopyHeap r policy junk old) := by
  constructor
  · intro h after errno bad
    unfold asCopyHeap at bad
    split at bad
    · rename_i mid miss
      cases bad
      rcases kmalloc_cases miss with ⟨_,rfl⟩ | ⟨b,no,_⟩
      · exact ⟨rfl,rfl,rfl,rfl,Nat.le_succ _,rfl,le_rfl⟩
      · cases no
    rename_i mid as _
    rcases asCopy_cases inst kernel junk mid.frames.coremap old with
      ⟨_,l,_,done⟩ | ⟨_,none_⟩
    · rw [done] at bad
      cases bad
    rw [none_] at bad
    cases bad
  intro h after as known copied
  unfold asCopyHeap at copied
  split at copied
  · cases copied
  rename_i mid t did
  rcases kmalloc_cases did with ⟨no,_⟩ | ⟨b,eq,live,_⟩
  · cases no
  cases eq
  have later := kmalloc_known known did
  split at copied
  · cases copied
  · cases copied
    refine ⟨known.unused _ le_rfl,?_,⟨later.unused,later.blocks⟩⟩
    simp only [live,update_self]
    exact some_ne_none _
  obtain ⟨_,_,no⟩ := map_eq_some_iff.mp copied
  cases no

def oneProcess : Kernel := ⟨enroll procBootstrap 0,⟨initial forkRam,fun _ => none,1⟩⟩

lemma oneProcess_ready : Ready forkRam oneProcess := by
  have list : oneProcess.procs.activeProcList = update (fun _ => none) 2 (some 0) := rfl
  have counted : TableValid {procBootstrap.set 0 newProc with procCount := 1} :=
    set_valid procBootstrap_valid newProc (fun i hit => by cases hit) 1
  refine ⟨add_valid counted ?_,⟨fun _ _ => rfl,fun _ _ no => by cases no⟩,⟨_,_,initial_accounted forkRam⟩,?_⟩
  · rintro ⟨i,no⟩
    cases no
  rintro p ⟨i,hit⟩
  rw [list] at hit
  rcases eq_or_ne i 2 with rfl | ne
  · rw [update_self] at hit
    cases hit
    exact Nat.one_pos
  rw [update_of_ne ne] at hit
  cases hit

def failingAt (n : Nat) : Policy := ⟨fun _ => 64,fun k => if k = n then .refused else .fresh⟩

def failure {α : Type} : Option (Kernel × Except Errno α) → Option Errno
  | some (_,.error errno) => some errno
  | _ => none

lemma failure_some {α : Type} {res : Option (Kernel × Except Errno α)}
    (bad : failure res = some errno) : ∃ after, res = some (after,.error errno) := by
  unfold failure at bad
  split at bad
  · cases bad
    exact ⟨_,rfl⟩
  · cases bad

theorem failed_creation_undone : ∃ after,
    sysFork forkRam (failingAt 5) (asCopyHeap forkRam (failingAt 5) (fun _ _ => 0) smallSpace) 2
      oneProcess = some (after,.error .enomem) ∧ Atomic oneProcess after := by
  have installed : forkRam.Installed := by unfold Ram.Installed; decide
  have atomic := asCopyHeap_atomic installed (by decide) (failingAt 5) (fun _ _ => 0) smallSpace
  have whole : failure (sysFork forkRam (failingAt 5)
      (asCopyHeap forkRam (failingAt 5) (fun _ _ => 0) smallSpace) 2 oneProcess) =
      some .enomem := by
    decide +kernel
  have early : failure (forkCopy forkRam (failingAt 5)
      (asCopyHeap forkRam (failingAt 5) (fun _ _ => 0) smallSpace) 2 oneProcess) =
      some .enomem := by
    decide +kernel
  obtain ⟨after,failed⟩ := failure_some whole
  obtain ⟨stopped,reason⟩ := failure_some early
  exact ⟨after,failed,(sysFork_atomic_iff installed atomic oneProcess_ready failed).mpr
    ⟨stopped,.enomem,reason⟩⟩

theorem failed_trapframe_leaks : ∃ after, Ready forkRam oneProcess ∧
    AtomicCopy (asCopyHeap forkRam (failingAt 8) (fun _ _ => 0) smallSpace) ∧
    sysFork forkRam (failingAt 8) (asCopyHeap forkRam (failingAt 8) (fun _ _ => 0) smallSpace) 2
      oneProcess = some (after,.error .enomem) ∧
    oneProcess.heap.live 7 = none ∧ (after.heap.live 7).isSome = true ∧
    (oneProcess.heap.frames.coremap 6).used = false ∧
    (after.heap.frames.coremap 6).used = true := by
  have installed : forkRam.Installed := by unfold Ram.Installed; decide
  have ran : ((sysFork forkRam (failingAt 8)
      (asCopyHeap forkRam (failingAt 8) (fun _ _ => 0) smallSpace) 2 oneProcess).map fun result =>
        (failure (some result),(result.1.heap.live 7).isSome,
          (result.1.heap.frames.coremap 6).used)) = some (some .enomem,true,true) := by
    decide +kernel
  obtain ⟨result,taken,values⟩ := map_eq_some_iff.mp ran
  simp only [Prod.mk.injEq] at values
  obtain ⟨errno,live,used⟩ := values
  obtain ⟨after,equal⟩ := failure_some errno
  cases equal
  exact ⟨after,oneProcess_ready,asCopyHeap_atomic installed (by decide) _ _ _,taken,rfl,live,
    by decide +kernel,used⟩
end ToyOS.ForkFailure

import Mathlib

namespace ToyOS.TlbShootdown

inductive Ipi where
  | panic | offline | unidle | tlbshootdown
  deriving DecidableEq

def tlbshootdownAll : Int := -1
def tlbshootdownMax : Int := 16

-- The fields of struct cpu under c_ipi_lock. The count doubles as the marker tlbshootdownAll.
structure Cpu (Mapping : Type) where
  pending : Ipi → Bool
  shootdown : Int → Mapping
  numshootdown : Int

variable {Mapping : Type}

def created (garbage : Int → Mapping) : Cpu Mapping := ⟨fun _ => false,garbage,0⟩

def ipiSend (target : Cpu Mapping) (code : Ipi) : Cpu Mapping :=
  {target with pending := Function.update target.pending code true}

-- A store outside c_shootdown is undefined: none.
def ipiTlbshootdown (target : Cpu Mapping) (mapping : Mapping) : Option (Cpu Mapping) :=
  let n := target.numshootdown
  if n = tlbshootdownMax then
    some (ipiSend {target with numshootdown := tlbshootdownAll} .tlbshootdown)
  else if 0 ≤ n ∧ n < tlbshootdownMax then
    some (ipiSend {target with
      shootdown := Function.update target.shootdown n mapping
      numshootdown := n + 1} .tlbshootdown)
  else none

inductive Flush (Mapping : Type) where
  | vmTlbshootdown (mapping : Mapping)
  | vmTlbshootdownAll
deriving DecidableEq

inductive Interrupt (Mapping : Type) where
  | halted
  | panicked (call : Flush Mapping)
  | returned (after : Cpu Mapping)

-- The first call that the interrupt makes of vm_tlbshootdown or vm_tlbshootdown_all. Both panic in dumbvm.c,
-- so there is no second one.
def flush (cpu : Cpu Mapping) : Option (Flush Mapping) :=
  if cpu.numshootdown = tlbshootdownAll then some .vmTlbshootdownAll
  else if 0 < cpu.numshootdown then some (.vmTlbshootdown (cpu.shootdown 0))
  else none

def interprocessorInterrupt (cpu : Cpu Mapping) : Interrupt Mapping :=
  if cpu.pending .panic then .halted
  else if cpu.pending .offline then .halted
  else if cpu.pending .tlbshootdown then
    match flush cpu with
    | some call => .panicked call
    | none => .returned {cpu with numshootdown := 0,pending := fun _ => false}
  else .returned {cpu with pending := fun _ => false}

def Interrupt.calls : Interrupt Mapping → List (Flush Mapping)
  | .panicked call => [call]
  | _ => []

def requests (mappings : List Mapping) (cpu : Cpu Mapping) : Option (Cpu Mapping) :=
  mappings.foldlM ipiTlbshootdown cpu

-- The states one round starts from: a new cpu, and what a returned interrupt has left.
inductive Settled : Cpu Mapping → Prop
  | created garbage : Settled (created garbage)
  | served (settled : Settled cpu) (asked : requests mappings cpu = some before)
      (returned : interprocessorInterrupt before = .returned after) : Settled after

-- No store leaves the array, and the interrupt makes the call for every request or the one for all of them.
def Served (mappings : List Mapping) (cpu : Cpu Mapping) : Prop :=
  ∃ before, requests mappings cpu = some before ∧ (.vmTlbshootdownAll ∈ (interprocessorInterrupt before).calls ∨
    ∀ mapping ∈ mappings, .vmTlbshootdown mapping ∈ (interprocessorInterrupt before).calls)

-- What the fields say about the requests since the last interrupt.
structure Queued (asked : List Mapping) (cpu : Cpu Mapping) : Prop where
  count : asked.length ≤ 16 ∧ cpu.numshootdown = asked.length ∧
      (∀ (i : Nat) mapping, asked[i]? = some mapping → cpu.shootdown i = mapping) ∨
    asked.length = 17 ∧ cpu.numshootdown = tlbshootdownAll
  pending : ∀ code, cpu.pending code = true ↔ code = .tlbshootdown ∧ asked ≠ []

lemma Queued.fresh {cpu : Cpu Mapping} (none : cpu.numshootdown = 0)
    (clear : cpu.pending = fun _ => false) : Queued [] cpu :=
  ⟨.inl ⟨by simp,by simpa,by simp⟩,by simp [clear]⟩

lemma Queued.asked {asked : List Mapping} (queued : Queued asked cpu) (mapping) :
    match ipiTlbshootdown cpu mapping with
    | some after => Queued (asked++[mapping]) after
    | none => asked.length = 17 := by
  have bits (target : Cpu Mapping) (same : target.pending = cpu.pending) (code) :
      (ipiSend target .tlbshootdown).pending code ↔ code = .tlbshootdown ∧ asked++[mapping] ≠ [] := by
    cases code <;> simp [ipiSend,same,queued.pending]
  cases queued.count with
  | inr full => simp [ipiTlbshootdown,full,tlbshootdownAll,tlbshootdownMax]
  | inl room =>
    obtain ⟨few,count,stored⟩ := room
    by_cases last : asked.length = 16
    · have count : cpu.numshootdown = tlbshootdownMax := by simp [count,last,tlbshootdownMax]
      simp only [ipiTlbshootdown,count,if_true]
      exact ⟨.inr ⟨by simp [last],rfl⟩,bits _ rfl⟩
    have pre : (asked.length : Int) ≠ 16 := by omega
    have room : 0 ≤ (asked.length : Int) ∧ (asked.length : Int) < 16 := by omega
    simp only [ipiTlbshootdown,count,tlbshootdownMax,pre,room,if_false,and_self,if_true]
    refine ⟨.inl ⟨by simp; omega,by simp [ipiSend],fun i entry hit => ?_⟩,bits _ rfl⟩
    by_cases new : i = asked.length
    · subst new
      simpa [ipiSend] using hit
    have inside := (List.getElem?_eq_some_iff.mp hit).1
    have old : i < asked.length := by simp at inside; omega
    have away : (i : Int) ≠ asked.length := by omega
    simpa [ipiSend,away] using stored i entry (by simpa [List.getElem?_append_left old] using hit)

-- Any number of requests: the queue holds them all, or there were more than 17.
lemma Queued.requests {asked : List Mapping} (queued : Queued asked cpu) (mappings) :
    match requests mappings cpu with
    | some after => Queued (asked++mappings) after
    | none => 17 < asked.length + mappings.length := by
  induction mappings generalizing cpu asked with
  | nil => simpa [TlbShootdown.requests] using queued
  | cons mapping rest ih =>
    have stored := queued.asked mapping
    cases next : ipiTlbshootdown cpu mapping with
    | none =>
      simp only [next] at stored
      simp [TlbShootdown.requests,next,stored]
    | some mid =>
      simp only [next] at stored
      simpa [TlbShootdown.requests,next,Nat.add_assoc,Nat.add_comm 1] using ih stored

lemma Queued.flush {asked : List Mapping} (queued : Queued asked cpu) :
    flush cpu = if asked.length = 17 then some .vmTlbshootdownAll else asked.head?.map .vmTlbshootdown := by
  cases queued.count with
  | inr full => simp [TlbShootdown.flush,full]
  | inl room =>
    obtain ⟨few,count,stored⟩ := room
    have counted : cpu.numshootdown ≠ tlbshootdownAll := by simp [count,tlbshootdownAll]
    rw [TlbShootdown.flush,if_neg counted,count]
    cases asked with
    | nil => rfl
    | cons mapping rest =>
      rw [if_pos (by simp),if_neg (by omega),←stored 0 mapping rfl]
      rfl

-- Without a request the interrupt returns and leaves the queue empty; otherwise it makes its one call.
lemma Queued.interrupt {asked : List Mapping} (queued : Queued asked cpu) :
    interprocessorInterrupt cpu = (TlbShootdown.flush cpu).elim
      (.returned {cpu with pending := fun _ => false}) .panicked := by
  have awake : cpu.pending .panic = false ∧ cpu.pending .offline = false := by simp [←Bool.not_eq_true,queued.pending]
  rw [interprocessorInterrupt,awake.1,awake.2]
  by_cases some_ : asked = []
  · subst some_
    have quiet : cpu.pending .tlbshootdown = false := by simp [←Bool.not_eq_true,queued.pending]
    simp [quiet,queued.flush]
  have bit : cpu.pending .tlbshootdown := (queued.pending _).mpr ⟨rfl,some_⟩
  obtain ⟨mapping,rest,rfl⟩ := List.exists_cons_of_ne_nil some_
  rw [if_neg Bool.false_ne_true,if_neg Bool.false_ne_true,if_pos bit,queued.flush]
  by_cases full : (mapping::rest).length = 17 <;> simp only [full,if_true,if_false,List.head?_cons,Option.map_some]
    <;> rfl

lemma Settled.empty (settled : Settled cpu) : Queued ([] : List Mapping) cpu := by
  induction settled with
  | created garbage => exact .fresh rfl rfl
  | @served _ mappings _ _ _ asked ret queued =>
    have queue := queued.requests mappings
    simp only [asked,List.nil_append] at queue
    rw [queue.interrupt,queue.flush] at ret
    cases mappings with
    | nil =>
      cases ret
      exact .fresh (by simpa using queue.count) rfl
    | cons => split at ret <;> cases ret

-- The first call panics, so only the first of the requests is served, or all of them by the marker. The seventeenth
-- request turns the count into that marker, -1; the next one takes the marker for an index.
theorem shootdowns_served_iff (settled : Settled cpu) (mappings : List Mapping) :
    Served mappings cpu ↔ mappings.length = 17 ∨ mappings.length ≤ 16 ∧ ∀ a ∈ mappings, ∀ b ∈ mappings, a = b := by
  have queue := settled.empty.requests mappings
  constructor
  · rintro ⟨before,asked,served⟩
    simp only [asked,List.nil_append] at queue
    rw [queue.interrupt,queue.flush] at served
    rcases queue.count with ⟨few,_⟩ | ⟨full,_⟩
    · refine .inr ⟨few,?_⟩
      rw [if_neg (by omega)] at served
      cases mappings with
      | nil => simp
      | cons first rest =>
        simp only [List.head?_cons,Option.map_some,Option.elim_some,Interrupt.calls,List.mem_singleton,reduceCtorEq,
          false_or,Flush.vmTlbshootdown.injEq] at served
        exact fun a mem b mem' => (served a mem).trans (served b mem').symm
    · exact .inl full
  intro few
  cases asked : requests mappings cpu with
  | none =>
    simp only [asked,List.length_nil] at queue
    omega
  | some before =>
    simp only [asked,List.nil_append] at queue
    refine ⟨before,asked,?_⟩
    rw [queue.interrupt,queue.flush]
    rcases few with full | ⟨few,same⟩
    · simp [full,Interrupt.calls]
    rw [if_neg (by omega)]
    cases mappings with
    | nil => simp
    | cons first rest =>
      exact .inr fun mapping mem => by simp [Interrupt.calls,same mapping mem first List.mem_cons_self]

theorem seventeen_shootdowns_served : Settled (created fun _ => 0) ∧ Served (List.range 17) (created fun _ => 0) ∧
    Served [4] (created fun _ => 0) :=
  ⟨.created _,(shootdowns_served_iff (.created _) _).mpr (.inl rfl),
    (shootdowns_served_iff (.created _) _).mpr (.inr ⟨by decide,by decide⟩)⟩

theorem eighteen_shootdowns_lost : Settled (created fun _ => 0) ∧ ¬ Served (List.range 18) (created fun _ => 0) ∧
    ¬ Served [4,5] (created fun _ => 0) := by
  refine ⟨.created _,?_,?_⟩
  · rintro ⟨before,asked,_⟩
    have stopped : (requests (List.range 18) (created fun _ => 0)).isNone := by decide
    simp [asked] at stopped
  · rintro ⟨before,asked,served⟩
    cases asked
    revert served
    decide

end ToyOS.TlbShootdown

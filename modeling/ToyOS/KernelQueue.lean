import ToyOS.Library.Transition

namespace ToyOS.KernelQueue
open Function Transition Option

-- struct queue. `room` is the number of words asked of kmalloc, and `mallocs` counts its calls.
structure Queue (Ptr : Type) where
  size : Nat
  nextwrite : Nat
  nextread : Nat
  data : Nat → Ptr
  room : Nat
  mallocs : Nat

inductive Event (Ptr : Type) where
  | addtail (ptr : Ptr)
  | remhead
  | preallocate (size : Nat)
  | len

-- What an operation returns; `done false` is ENOMEM.
inductive Reply (Ptr : Type) where
  | done (ok : Bool)
  | got (ptr : Ptr)
  | count (n : Nat)

-- `size * sizeof(void *)` is computed in 32 bits.
def words (size : Nat) : Nat := size*4 % 2^32/4

-- The loop of q_grow, which an overflow of the int stops with a failed assertion.
def doubled : Nat → Nat → Nat → Option Nat
  | 0,_,_ => none
  | rounds+1,targetsize,nsize =>
    if targetsize ≤ nsize then some nsize
    else if nsize*2 < 2^31 then doubled rounds targetsize (nsize*2)
    else none

abbrev Outcome (Ptr : Type) := Option (Bool × Queue Ptr)

section
variable {Ptr : Type}

def put (ptr : Ptr) (q : Queue Ptr) : Outcome Ptr :=
  if q.nextwrite < q.room then
    some (true,{q with data := update q.data q.nextwrite ptr,nextwrite := (q.nextwrite+1) % q.size})
  else none

def addtailBy (grow : Nat → Queue Ptr → Outcome Ptr) (ptr : Ptr) (q : Queue Ptr) : Outcome Ptr :=
  if q.size = 0 then none
  else if (q.nextwrite+1) % q.size = q.nextread then
    (grow (q.size+1) q).bind fun r => if r.1 then put ptr r.2 else some r
  else put ptr q

def reinsert (addtail : Ptr → Queue Ptr → Outcome Ptr) (old : Queue Ptr) : Nat → Nat → Queue Ptr → Option (Queue Ptr)
  | 0,_,_ => none
  | rounds+1,i,q =>
    if i = old.nextwrite then some q
    else if i < old.room then
      (addtail (old.data i) q).bind fun r => if r.1 then reinsert addtail old rounds ((i+1) % old.size) r.2 else none
    else none

variable (blocks : Nat → Option (Nat → Ptr))

-- `blocks n` is what kmalloc returns at its call `n`.
def growBy (addtail : Ptr → Queue Ptr → Outcome Ptr) (targetsize : Nat) (q : Queue Ptr) : Outcome Ptr :=
  (doubled (targetsize+1) targetsize q.size).bind fun nsize =>
    match blocks q.mallocs with
    | none => some (false,{q with mallocs := q.mallocs+1})
    | some data =>
      (reinsert addtail q q.size q.nextread ⟨nsize,0,0,data,words nsize,q.mallocs+1⟩).map fun new => (true,new)

-- q_grow calls q_addtail, which can call q_grow: this is how deep.
def addtail : Nat → Ptr → Queue Ptr → Outcome Ptr
  | 0 => fun _ _ => none
  | depth+1 => addtailBy (growBy blocks (addtail depth))

def qAddtail : Ptr → Queue Ptr → Outcome Ptr := addtail blocks 2

def qPreallocate (size : Nat) (q : Queue Ptr) : Outcome Ptr :=
  if q.size = 0 then none else if q.size < size then growBy blocks (addtail blocks 1) size q else some (true,q)

def qRemhead (q : Queue Ptr) : Option (Ptr × Queue Ptr) :=
  if q.size = 0 ∨ q.nextwrite = q.nextread ∨ q.room ≤ q.nextread then none
  else some (q.data q.nextread,{q with nextread := (q.nextread+1) % q.size})

def qLen (q : Queue Ptr) : Nat → Nat → Nat → Option Nat
  | 0,_,_ => none
  | rounds+1,tmp,count => if tmp = q.nextwrite then some count else qLen q rounds ((tmp+1) % q.size) (count+1)

def qCreate (size : Nat) : Option (Queue Ptr) := (blocks 0).map fun data => ⟨size,0,0,data,words size,1⟩

def step (q : Queue Ptr) : Event Ptr → Option (Reply Ptr × Queue Ptr)
  | .addtail ptr => (qAddtail blocks ptr q).map fun r => (.done r.1,r.2)
  | .remhead => (qRemhead q).map fun r => (.got r.1,r.2)
  | .preallocate size => (qPreallocate blocks size q).map fun r => (.done r.1,r.2)
  | .len => (qLen q q.size q.nextread 0).map fun n => (.count n,q)

def machine (q : Queue Ptr) (event : Event Ptr) : Option (Queue Ptr) := (step blocks q event).map Prod.snd

-- The elements from `nextread` up to `nextwrite`, around the end of the array.
def contents (q : Queue Ptr) : List Ptr :=
  (List.range ((q.nextwrite+q.size-q.nextread) % q.size)).map fun k => q.data ((q.nextread+k) % q.size)

-- What an operation makes of a first-in first-out list.
def Fifo (xs : List Ptr) : Event Ptr → Reply Ptr → List Ptr → Prop
  | .addtail ptr,.done ok,ys => ys = if ok then xs++[ptr] else xs
  | .remhead,.got ptr,ys => xs = ptr :: ys
  | .preallocate _,.done _,ys => ys = xs
  | .len,.count n,ys => n = xs.length ∧ ys = xs
  | _,_,_ => False

def Allowed (q : Queue Ptr) : Event Ptr → Prop
  | .addtail _ => (contents q).length+1 < 2^28
  | .remhead => contents q ≠ []
  | .preallocate size => size ≤ 2^29
  | .len => True

end

structure Holds {Ptr : Type} (q : Queue Ptr) (xs : List Ptr) : Prop where
  block : q.room = q.size
  small : q.size < 2^30
  read : q.nextread < q.size
  fits : xs.length < q.size
  written : q.nextwrite = (q.nextread+xs.length) % q.size
  cells : ∀ k x, xs[k]? = some x → q.data ((q.nextread+k) % q.size) = x

variable {Ptr : Type} {q u : Queue Ptr} {xs : List Ptr} {ptr : Ptr} {b : Nat → Option (Nat → Ptr)}

lemma slot_inj {n : Nat} (first : j < n) (last : k < n) (eq : (a+j) % n = (a+k) % n) : j = k := by
  have equal := Nat.ModEq.add_left_cancel' a eq
  rwa [Nat.ModEq,Nat.mod_eq_of_lt first,Nat.mod_eq_of_lt last] at equal

section
variable (holds : Holds q xs)
include holds

lemma Holds.pos : 0 < q.size := Nat.zero_lt_of_lt holds.read
lemma Holds.slot (k : Nat) : (q.nextread+k) % q.size < q.size := Nat.mod_lt _ holds.pos

lemma Holds.more (lt : k < xs.length) : (q.nextread+k) % q.size ≠ q.nextwrite := by
  rw [holds.written]
  exact fun eq => lt.ne (slot_inj (lt.trans holds.fits) holds.fits eq)

lemma Holds.next : (q.nextwrite+1) % q.size = (q.nextread+(xs.length+1)) % q.size := by
  rw [holds.written,Nat.mod_add_mod,Nat.add_assoc]

lemma Holds.start : (q.nextread+0) % q.size = q.nextread := Nat.mod_eq_of_lt holds.read

lemma Holds.around (full : xs.length+1 = q.size) : (q.nextwrite+1) % q.size = q.nextread := by
  rw [holds.next,full,Nat.add_mod_right,Nat.mod_eq_of_lt holds.read]

section
variable (room : xs.length+1 < q.size)
include room

lemma Holds.space : (q.nextwrite+1) % q.size ≠ q.nextread := by
  rw [holds.next]
  exact fun eq => absurd (slot_inj room holds.pos (eq.trans holds.start.symm)) (Nat.succ_ne_zero _)

lemma Holds.put (ptr : Ptr) : ∃ next, put ptr q = some (true,next) ∧
    Holds next (xs++[ptr]) ∧ next.size = q.size ∧ next.mallocs = q.mallocs := by
  have inside : q.nextwrite < q.room := by
    rw [holds.block,holds.written]
    exact holds.slot _
  refine ⟨_,if_pos inside,⟨holds.block,holds.small,holds.read,by simpa using room,?_,fun k x at_ => ?_⟩,rfl,rfl⟩
  · rw [List.length_append]
    exact holds.next
  change update q.data q.nextwrite ptr ((q.nextread+k) % q.size) = x
  by_cases old : k < xs.length
  · rw [List.getElem?_append_left old] at at_
    rw [update_of_ne (holds.more old),holds.cells k x at_]
  rw [List.getElem?_append_right (not_lt.mp old),List.getElem?_singleton] at at_
  split at at_
  · rw [show k = xs.length by omega,← holds.written,update_self]
    exact some.inj at_
  cases at_

lemma Holds.roomy (depth : Nat) (ptr : Ptr) : addtail b (depth+1) ptr q = KernelQueue.put ptr q := by
  rw [addtail,addtailBy,if_neg holds.pos.ne',if_neg (holds.space room)]

end

lemma Holds.reinsert (big : xs.length < u.size) (k : Nat) (rounds : xs.length-k < left) (le : k ≤ xs.length)
    (some_ : Holds u (xs.take k)) : ∃ next, reinsert (addtail b (d+1)) q left ((q.nextread+k) % q.size) u = some next ∧
      Holds next xs ∧ next.size = u.size ∧ next.mallocs = u.mallocs := by
  induction left generalizing k u with
  | zero => omega
  | succ left ih =>
    rw [KernelQueue.reinsert]
    rcases le.eq_or_lt with rfl | lt
    · rw [if_pos holds.written.symm]
      rw [List.take_length] at some_
      exact ⟨u,rfl,some_,rfl,rfl⟩
    have room : (xs.take k).length+1 < u.size := by
      rw [List.length_take]
      omega
    obtain ⟨next,done,held,size,same⟩ := some_.put room xs[k]
    rw [List.take_append_getElem lt] at held
    obtain ⟨final,went,held,kept,count⟩ := ih (size ▸ big) (k+1) (by omega) lt held
    refine ⟨final,?_,held,kept.trans size,count.trans same⟩
    rw [if_neg (holds.more lt),if_pos (holds.block ▸ holds.slot k),
      holds.cells k xs[k] (List.getElem?_eq_getElem lt),some_.roomy room,done]
    rw [bind_some,if_pos rfl,Nat.mod_add_mod]
    exact went

end

-- The array is doubled as often as the target asks for, and not once more.
lemma doubled_spec (pos : 0 < m) (target : n ≤ 2^29) (enough : n ≤ m+k) :
    ∃ i, doubled (k+1) n m = some (m*2^i) ∧ n ≤ m*2^i ∧ ∀ j < i, m*2^j < n := by
  induction k generalizing m with
  | zero => exact ⟨0,by simp [doubled,show n ≤ m from enough],by simpa using enough,by simp⟩
  | succ k ih =>
    rw [doubled]
    split
    · exact ⟨0,by simp,by simpa,by simp⟩
    obtain ⟨i,found,big,least⟩ := ih (m := m*2) (by omega) (by omega)
    have twice : ∀ j, m*2*2^j = m*2^(j+1) := fun j => by rw [Nat.mul_assoc,← Nat.pow_succ']
    rw [if_pos (by omega)]
    refine ⟨i+1,twice i ▸ found,twice i ▸ big,fun j lt => ?_⟩
    cases j with
    | zero => omega
    | succ j => exact twice j ▸ least j (by omega)

lemma doubled_small (small : m < 2^30) (target : n ≤ 2^29) (least : ∀ j < i, m*2^j < n) : m*2^i < 2^30 := by
  cases i with
  | zero => simpa using small
  | succ i =>
    have half := least i (Nat.lt_succ_self i)
    rw [Nat.pow_succ,← Nat.mul_assoc]
    omega

section
variable (holds : Holds q xs)
include holds

lemma Holds.grow (target : n ≤ 2^29) (more : xs.length < n) :
    ∃ ok next, growBy b (addtail b (d+1)) n q = some (ok,next) ∧ Holds next xs ∧ next.mallocs = q.mallocs+1 ∧
      if ok then ∃ i, next.size = q.size*2^i ∧ n ≤ next.size ∧ ∀ j < i, q.size*2^j < n
      else next = {q with mallocs := q.mallocs+1} := by
  obtain ⟨i,found,big,least⟩ := doubled_spec (k := n) holds.pos target (Nat.le_add_left ..)
  have lt := doubled_small holds.small target least
  revert found big lt
  generalize is : q.size*2^i = size
  intro found big lt
  unfold growBy
  rw [found,Option.bind_some]
  cases b q.mallocs with
  | none => exact ⟨false,_,rfl,⟨holds.block,holds.small,holds.read,holds.fits,holds.written,holds.cells⟩,rfl,rfl⟩
  | some data =>
    have pos : 0 < size := by omega
    have words : words size = size := by
      unfold words
      omega
    obtain ⟨next,went,held,eq,count⟩ := holds.reinsert (b := b) (d := d)
      (u := ⟨size,0,0,data,KernelQueue.words size,q.mallocs+1⟩) (more.trans_le big) 0 holds.fits (Nat.zero_le _)
      ⟨words,lt,pos,pos,rfl,fun _ _ none_ => by cases none_⟩
    rw [holds.start] at went
    exact ⟨true,next,congrArg (Option.map _) went,held,count,i,eq.trans is.symm,eq ▸ big,least⟩

lemma Holds.addtail (few : xs.length+2 ≤ 2^29) (ptr : Ptr) : ∃ ok next, qAddtail b ptr q = some (ok,next) ∧
    Holds next (if ok then xs++[ptr] else xs) ∧ (ok = false → next = {q with mallocs := q.mallocs+1}) ∧
      (xs.length+1 = q.size → next.mallocs = q.mallocs+1) := by
  by_cases room : xs.length+1 < q.size
  · obtain ⟨next,done,held,_⟩ := holds.put room ptr
    exact ⟨true,next,(holds.roomy room 1 ptr).trans done,held,by simp,fun full => by omega⟩
  have full : xs.length+1 = q.size := by
    have := holds.fits
    omega
  obtain ⟨ok,next,grown,held,count,ended⟩ :=
    holds.grow (b := b) (n := q.size+1) (d := 0) (by omega) (by omega)
  have went : qAddtail b ptr q = if ok then KernelQueue.put ptr next else some (ok,next) := by
    rw [qAddtail,KernelQueue.addtail,addtailBy,if_neg holds.pos.ne',if_pos (holds.around full),grown]
    rfl
  cases ok with
  | false => exact ⟨false,next,went,held,fun _ => ended,fun _ => count⟩
  | true =>
    obtain ⟨_,_,big,_⟩ := ended
    obtain ⟨final,done,added,_,same⟩ := held.put (Nat.lt_of_lt_of_le (by omega) big) ptr
    exact ⟨true,final,went.trans done,added,by simp,fun _ => same.trans count⟩

lemma Holds.qLen (k : Nat) (rounds : xs.length-k < left) (le : k ≤ xs.length) :
    qLen q left ((q.nextread+k) % q.size) k = some xs.length := by
  induction left generalizing k with
  | zero => omega
  | succ left ih =>
    rw [KernelQueue.qLen]
    rcases le.eq_or_lt with rfl | lt
    · rw [if_pos holds.written.symm]
    rw [if_neg (holds.more lt),Nat.mod_add_mod,Nat.add_assoc]
    exact ih (k+1) (by omega) lt

lemma Holds.contents : contents q = xs := by
  have read := holds.read
  have fits := holds.fits
  have count : (q.nextwrite+q.size-q.nextread) % q.size = xs.length := by
    rw [holds.written]
    by_cases around : q.nextread+xs.length < q.size
    · rw [Nat.mod_eq_of_lt around,show q.nextread+xs.length+q.size-q.nextread = xs.length+q.size by omega,
        Nat.add_mod_right,Nat.mod_eq_of_lt fits]
    rw [Nat.mod_eq_sub_mod (not_lt.mp around),Nat.mod_eq_of_lt (a := q.nextread+xs.length-q.size) (by omega),
      show q.nextread+xs.length-q.size+q.size-q.nextread = xs.length by omega,Nat.mod_eq_of_lt fits]
  refine List.ext_getElem (by simp [KernelQueue.contents,count]) fun k _ lt => ?_
  simp only [KernelQueue.contents,List.getElem_map,List.getElem_range]
  exact holds.cells k xs[k] (List.getElem?_eq_getElem lt)

-- The array that q_preallocate leaves has just `n` slots if the old size times a power of two is `n`, else more.
lemma Holds.preallocate (target : n ≤ 2^29) : ∃ ok next, qPreallocate b n q = some (ok,next) ∧ Holds next xs ∧
    if ok then n ≤ next.size ∧ (n = next.size ↔ ∃ k, n = q.size*2^k)
    else next = {q with mallocs := q.mallocs+1} := by
  unfold qPreallocate
  rw [if_neg holds.pos.ne']
  split
  · obtain ⟨ok,next,grown,held,_,ended⟩ := holds.grow (b := b) (d := 0) target (holds.fits.trans ‹_›)
    refine ⟨ok,next,grown,held,?_⟩
    cases ok with
    | false => exact ended
    | true =>
      obtain ⟨i,size,big,least⟩ := ended
      refine ⟨big,fun eq => ⟨i,eq.trans size⟩,fun ⟨k,eq⟩ => ?_⟩
      rcases Nat.lt_trichotomy k i with lt | rfl | above
      · exact absurd eq (least k lt).ne'
      · exact eq.trans size.symm
      have more := Nat.mul_lt_mul_of_pos_left (Nat.pow_lt_pow_right Nat.one_lt_two above) holds.pos
      omega
  rename_i le
  refine ⟨true,q,rfl,holds,not_lt.mp le,fun eq => ⟨0,by rw [Nat.pow_zero,Nat.mul_one]; exact eq⟩,fun ⟨k,eq⟩ => ?_⟩
  have more := Nat.le_mul_of_pos_right q.size (Nat.two_pow_pos k)
  omega

end

lemma Holds.remhead (holds : Holds q (ptr :: xs)) :
    ∃ next, qRemhead q = some (ptr,next) ∧ Holds next xs ∧ next.size = q.size := by
  have first := holds.cells 0 ptr rfl
  rw [holds.start] at first
  have nonempty : q.nextread ≠ q.nextwrite := by
    rw [← holds.start]
    exact holds.more (Nat.succ_pos _)
  have shifted k : ((q.nextread+1) % q.size+k) % q.size = (q.nextread+(k+1)) % q.size := by
    rw [Nat.mod_add_mod,Nat.add_assoc,Nat.add_comm 1]
  have inside : ¬(q.size = 0 ∨ q.nextwrite = q.nextread ∨ q.room ≤ q.nextread) := by
    have := holds.read
    rw [holds.block]
    omega
  refine ⟨{q with nextread := (q.nextread+1) % q.size},?_,⟨holds.block,holds.small,holds.slot 1,
    Nat.lt_of_succ_lt holds.fits,holds.written.trans (shifted _).symm,fun k x at_ => ?_⟩,rfl⟩
  · rw [qRemhead,if_neg inside,first]
  change q.data (((q.nextread+1) % q.size+k) % q.size) = x
  rw [shifted]
  exact holds.cells (k+1) x at_

lemma Holds.step (holds : Holds q xs) (may : Allowed q event) :
    ∃ r next ys, step b q event = some (r,next) ∧ Holds next ys ∧ Fifo xs event r ys ∧
      (r = .done false → next = {q with mallocs := q.mallocs+1}) := by
  have eq := holds.contents
  cases event with
  | addtail ptr =>
    change (KernelQueue.contents q).length+1 < 2^28 at may
    obtain ⟨ok,next,done,held,bad,_⟩ := holds.addtail (b := b) (by rw [eq] at may; omega) ptr
    exact ⟨.done ok,next,_,congrArg (Option.map _) done,held,rfl,fun no => bad (Reply.done.inj no)⟩
  | remhead =>
    cases xs with
    | nil => exact absurd eq may
    | cons x xs =>
      obtain ⟨next,done,held,_⟩ := holds.remhead
      exact ⟨.got x,next,xs,congrArg (Option.map _) done,held,rfl,fun no => by cases no⟩
  | preallocate size =>
    obtain ⟨ok,next,done,held,ended⟩ := holds.preallocate (b := b) may
    refine ⟨.done ok,next,xs,congrArg (Option.map _) done,held,rfl,fun no => ?_⟩
    cases no
    exact ended
  | len =>
    have counted := holds.qLen 0 holds.fits (Nat.zero_le _)
    rw [holds.start] at counted
    exact ⟨.count xs.length,q,xs,congrArg (Option.map _) counted,holds,⟨rfl,rfl⟩,fun no => by cases no⟩

lemma reached_holds (pos : 0 < size) (lt : size < 2^30) (created : qCreate b size = some q)
    (path : Reached (machine b) Allowed q t) : Holds t (contents t) := by
  refine path.invariant (fun t => Holds t (contents t)) ?_ fun {s event after} _ holds may taken => ?_
  · obtain ⟨data,_,rfl⟩ := map_eq_some_iff.mp created
    have words : words size = size := by
      unfold words
      omega
    have holds : Holds ⟨size,0,0,data,KernelQueue.words size,1⟩ [] :=
      ⟨words,lt,pos,pos,(Nat.zero_mod _).symm,fun _ _ none_ => by cases none_⟩
    exact holds.contents.symm ▸ holds
  obtain ⟨r,next,ys,done,held,_⟩ := holds.step (b := b) may
  rw [machine,done] at taken
  cases taken
  exact held.contents.symm ▸ held

theorem queue_is_fifo (pos : 0 < size) (small : size < 2^30) (created : qCreate b size = some q)
    (path : Reached (machine b) Allowed q t) (allowed : Allowed t e) :
    ∃ r next, step b t e = some (r,next) ∧ Fifo (contents t) e r (contents next) ∧
      (r = .done false → next = {t with mallocs := t.mallocs+1}) := by
  obtain ⟨r,next,ys,done,held,fifo,failed⟩ := (reached_holds pos small created path).step (b := b) allowed
  exact ⟨r,next,done,held.contents.symm ▸ fifo,failed⟩

instance [DecidableEq Ptr] (q : Queue Ptr) : DecidablePred (Allowed q)
  | .addtail _ => inferInstanceAs (Decidable (_ < _))
  | .remhead => inferInstanceAs (Decidable (_ ≠ _))
  | .preallocate _ => inferInstanceAs (Decidable (_ ≤ _))
  | .len => inferInstanceAs (Decidable True)

lemma run_allowed [DecidableEq Ptr]
    (ran : run (guarded (fun q e => decide (Allowed q e)) (machine b)) q events = some t) :
    Reached (machine b) Allowed q t :=
  run_permitted (fun _ may => of_decide_eq_true may) .initial ran

-- kmalloc refuses its second call only.
def scarce (n : Nat) : Option (Nat → Nat) := if n = 1 then none else some fun _ => 0

-- The ring of three slots is wrapped around when it is full; its first growth is refused, the second one succeeds.
theorem queue_is_fifo_grown : ∃ q t r next, qCreate scarce 3 = some q ∧ Reached (machine scarce) Allowed q t ∧
    (contents t,t.size,t.mallocs) = ([2,3,4],6,3) ∧ step scarce t .remhead = some (r,next) ∧
    Fifo [2,3,4] .remhead r (contents next) := by
  have ran : (run (guarded (fun q e => decide (Allowed q e)) (machine scarce)) ⟨3,0,0,fun _ => 0,3,1⟩
      [.addtail 1,.addtail 2,.remhead,.addtail 3,.addtail 4,.len,.addtail 4]).map
        (fun t => (contents t,t.size,t.mallocs)) = some ([2,3,4],6,3) := by decide +kernel
  obtain ⟨t,ran,is⟩ := map_eq_some_iff.mp ran
  have holds : contents t = [2,3,4] := congrArg Prod.fst is
  obtain ⟨r,next,done,fifo,_⟩ := queue_is_fifo (b := scarce) (by decide : 0 < 3) (by decide) rfl (run_allowed ran)
    (e := .remhead) (by rw [Allowed,holds]; decide)
  exact ⟨_,t,r,next,rfl,run_allowed ran,is,done,holds ▸ fifo⟩

def granted : Nat → Option (Nat → Nat) := fun _ => some fun _ => 0

theorem huge_queue_overruns : ∃ q, qCreate granted (2^30) = some q ∧ q.room = 0 ∧
    (step granted q (.addtail 7)).isNone :=
  ⟨_,rfl,rfl,by decide +kernel⟩

-- The calls that keep the queue within `n` elements.
def Keeping (n : Nat) (q : Queue Ptr) : Event Ptr → Prop
  | .addtail _ => (contents q).length < n
  | .remhead => contents q ≠ []
  | _ => False

section
variable (holds : Holds q (contents q))
include holds

lemma keeping_holds (enough : n < q.size) (path : Reached (machine b) (Keeping n) q s) :
    Holds s (contents s) ∧ s.size = q.size := by
  refine path.invariant (fun s => Holds s (contents s) ∧ s.size = q.size) ⟨holds,rfl⟩ ?_
  rintro s event next _ ⟨holds,size⟩ allowed taken
  cases event with
  | addtail ptr =>
    have few : (contents s).length < n := allowed
    obtain ⟨next,done,held,same,_⟩ := holds.put (by omega) ptr
    rw [machine,KernelQueue.step,qAddtail,holds.roomy (by omega),done] at taken
    cases taken
    exact ⟨held.contents.symm ▸ held,same.trans size⟩
  | remhead =>
    obtain ⟨x,xs,split⟩ := List.exists_cons_of_ne_nil allowed
    rw [split] at holds
    obtain ⟨next,done,held,same⟩ := holds.remhead
    rw [machine,KernelQueue.step,done] at taken
    cases taken
    exact ⟨held.contents.symm ▸ held,same.trans size⟩
  | preallocate => cases allowed
  | len => cases allowed

-- A queue can be filled up to its last slot.
lemma fill_up (ptr : Ptr) (full : q.size = n) (k : Nat) (left : (contents q).length+1+k = n) :
    ∃ s, Reached (machine b) (Keeping n) q s ∧ Holds s (contents s) ∧ (contents s).length+1 = n ∧ s.size = n := by
  induction k generalizing q with
  | zero => exact ⟨q,.initial,holds,left,full⟩
  | succ k ih =>
    obtain ⟨next,done,held,same,_⟩ := holds.put (by omega) ptr
    have grown := held.contents
    obtain ⟨s,path,ends⟩ := ih (grown.symm ▸ held) (same.trans full) (by rw [grown,List.length_append]; simp; omega)
    have took : machine b q (.addtail ptr) = some next := by
      rw [machine,KernelQueue.step,qAddtail,holds.roomy (by omega),done]
      rfl
    have first : Reached (machine b) (Keeping n) q next :=
      .next .initial (show Keeping n q (.addtail ptr) from (by omega : (contents q).length < n)) took
    exact ⟨s,first.trans path,ends⟩

end

-- With room for one more than `n` no q_addtail grows; with exactly `n` slots the last one does.
theorem preallocated_suffices_iff (pos : 0 < size) (small : size < 2^30) (created : qCreate b size = some q)
    (path : Reached (machine b) Allowed q t) (bound : n < 2^29) (done : qPreallocate b n t = some (true,after))
    (ptr : Ptr) :
    (∀ s, Reached (machine b) (Keeping n) after s → (contents s).length < n →
      ∃ next, qAddtail b ptr s = some (true,next) ∧ next.mallocs = s.mallocs) ↔ ∀ k, n ≠ t.size*2^k := by
  obtain ⟨ok,next,same,held,ended⟩ := (reached_holds pos small created path).preallocate (b := b) bound.le
  cases same.symm.trans done
  obtain ⟨big,exact_⟩ := ended
  replace held : Holds after (contents after) := held.contents.symm ▸ held
  constructor
  · intro suffices_ k eq
    have full := exact_.mpr ⟨k,eq⟩
    have fits := held.fits
    obtain ⟨s,later,holds,last,size⟩ := fill_up (b := b) held ptr full.symm (n-((contents after).length+1)) (by omega)
    obtain ⟨ok,next,added,_,_,count⟩ := holds.addtail (b := b) (by omega) ptr
    obtain ⟨_,again,same⟩ := suffices_ s later (by omega)
    cases added.symm.trans again
    have := count (last.trans size.symm)
    omega
  · intro none_ s later few
    have enough : n < after.size := big.lt_of_ne fun eq => (exact_.mp eq).elim none_
    obtain ⟨holds,size⟩ := keeping_holds held enough later
    obtain ⟨next,done,_,_,same⟩ := holds.put (by omega) ptr
    exact ⟨next,(holds.roomy (by omega) 1 ptr).trans done,same⟩

instance [DecidableEq Ptr] (n : Nat) (q : Queue Ptr) : DecidablePred (Keeping n q)
  | .addtail _ => inferInstanceAs (Decidable (_ < _))
  | .remhead => inferInstanceAs (Decidable (_ ≠ _))
  | .preallocate _ => inferInstanceAs (Decidable False)
  | .len => inferInstanceAs (Decidable False)

def oneOfTwo : Queue Nat := ⟨2,1,0,update (fun _ => 0) 0 1,2,1⟩
def oneOfFour : Queue Nat := ⟨4,1,0,update (fun _ => 0) 0 1,4,2⟩

-- Three elements in an array grown from two slots to four, until it wraps around.
theorem preallocated_suffices_three : Reached (machine granted) Allowed ⟨2,0,0,fun _ => 0,2,1⟩ oneOfTwo ∧
    qPreallocate granted 3 oneOfTwo = some (true,oneOfFour) ∧
    ∃ s next, Reached (machine granted) (Keeping 3) oneOfFour s ∧ (contents s,s.nextread,s.nextwrite) = ([4,5],3,1) ∧
      qAddtail granted 6 s = some (true,next) ∧ next.mallocs = s.mallocs := by
  have path : Reached (machine granted) Allowed ⟨2,0,0,fun _ => 0,2,1⟩ oneOfTwo :=
    run_allowed (show run _ _ [.addtail 1] = some oneOfTwo from rfl)
  have ran : (run (guarded (fun q e => decide (Keeping 3 q e)) (machine granted)) oneOfFour
      [.addtail 2,.remhead,.addtail 3,.addtail 4,.remhead,.addtail 5,.remhead]).map
        (fun s => (contents s,s.nextread,s.nextwrite)) = some ([4,5],3,1) := by decide +kernel
  obtain ⟨s,ran,is⟩ := map_eq_some_iff.mp ran
  have later : Reached (machine granted) (Keeping 3) oneOfFour s :=
    run_permitted (fun _ may => of_decide_eq_true may) .initial ran
  have two : contents s = [4,5] := congrArg Prod.fst is
  obtain ⟨next,added,same⟩ := (preallocated_suffices_iff (n := 3) (by decide : 0 < 2) (by decide) rfl path (by decide)
    rfl 6).mpr (fun k eq => by change 3 = 2*2^k at eq; omega) s later (by rw [two]; decide)
  exact ⟨path,rfl,s,next,later,is,added,same⟩

theorem preallocated_queue_grows : ∃ q, qCreate granted 4 = some q ∧ (qPreallocate granted 4 q).isSome ∧
    ((run (machine granted) q [.addtail 1,.addtail 2,.addtail 3,.addtail 4]).map fun s => (contents s,s.mallocs)) =
      some ([1,2,3,4],2) :=
  ⟨_,rfl,by decide +kernel⟩
end ToyOS.KernelQueue

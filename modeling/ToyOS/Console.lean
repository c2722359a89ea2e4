import ToyOS.KernelQueue

namespace ToyOS.Console
open Function KernelQueue Transition

def bufferSize : Nat := 32

-- `passed` are the readers between P and their character; `kept` and `taken` are all characters stored and returned.
structure State (Reader : Type) where
  gotchars : Nat → BitVec 8
  head : Nat
  tail : Nat
  rsem : Nat
  passed : List Reader
  kept : List (BitVec 8)
  taken : List (BitVec 8)

inductive Event (Reader : Type) where
  | input (ch : Int)
  | pass (reader : Reader)
  | take (reader : Reader)

section
variable {Reader : Type} [DecidableEq Reader]

-- The assertion of V stops when the count overflows.
def conInput (s : State Reader) (ch : Int) : Option (State Reader) :=
  let nexthead := (s.head+1) % bufferSize
  if nexthead = s.tail then some s
  else if s.head < bufferSize ∧ s.rsem+1 < 2^31 then
    some {s with gotchars := update s.gotchars s.head (.ofInt 8 ch),head := nexthead,rsem := s.rsem+1,
                 kept := s.kept++[.ofInt 8 ch]}
  else none

def getchTake (s : State Reader) (reader : Reader) : Option (BitVec 8 × State Reader) :=
  if reader ∈ s.passed ∧ s.tail < bufferSize then
    let ret := s.gotchars s.tail
    some (ret,{s with tail := (s.tail+1) % bufferSize,passed := s.passed.erase reader,taken := s.taken++[ret]})
  else none

def step (s : State Reader) : Event Reader → Option (State Reader)
  | .input ch => conInput s ch
  | .pass reader =>
    if 0 < s.rsem ∧ reader ∉ s.passed then some {s with rsem := s.rsem-1,passed := reader :: s.passed} else none
  | .take reader => (getchTake s reader).map Prod.snd

def attached (gotchars : Nat → BitVec 8) : State Reader := ⟨gotchars,0,0,0,[],[],[]⟩
def ring (s : State Reader) : Queue (BitVec 8) := ⟨bufferSize,s.head,s.tail,s.gotchars,bufferSize,0⟩
def unread (s : State Reader) : List (BitVec 8) := contents (ring s)

end

structure Buffered {Reader : Type} (s : State Reader) (xs : List (BitVec 8)) : Prop where
  holds : Holds (ring s) xs
  count : s.rsem+s.passed.length = xs.length
  order : s.taken++xs = s.kept

variable {Reader : Type} {s : State Reader} {reader : Reader} {c : BitVec 8} {xs : List (BitVec 8)}

lemma Buffered.input (buffered : Buffered s xs) (ch : Int) : ∃ next, conInput s ch = some next ∧
    if xs.length = bufferSize-1 then next = s
    else Buffered next (xs++[.ofInt 8 ch]) ∧ next.kept = s.kept++[.ofInt 8 ch] := by
  obtain ⟨holds,count,order⟩ := buffered
  have fits : xs.length < 32 := holds.fits
  by_cases full : xs.length = bufferSize-1
  · exact ⟨s,if_pos (holds.around (congrArg (·+1) full)),by rw [if_pos full]⟩
  have room : xs.length+1 < 32 := by
    unfold bufferSize at full
    omega
  obtain ⟨next,done,held,_⟩ := holds.put room (.ofInt 8 ch)
  unfold put at done
  split at done
  case isFalse => cases done
  case isTrue inside =>
    cases done
    refine ⟨_,(if_neg (holds.space room)).trans (if_pos ⟨inside,by omega⟩),?_⟩
    rw [if_neg full]
    refine ⟨⟨held,?_,?_⟩,rfl⟩
    · rw [List.length_append,← count]
      exact Nat.add_right_comm ..
    rw [← List.append_assoc,order]

lemma Buffered.unread (buffered : Buffered s xs) : unread s = xs := buffered.holds.contents

lemma Buffered.waiting (buffered : Buffered s xs) (passed : reader ∈ s.passed) : ∃ c rest, xs = c :: rest := by
  refine List.exists_cons_of_length_pos ?_
  rw [← buffered.count]
  exact Nat.add_pos_right _ (List.length_pos_of_mem passed)

variable [DecidableEq Reader]

lemma Buffered.take (buffered : Buffered s (c :: xs)) (passed : reader ∈ s.passed) :
    ∃ next, getchTake s reader = some (c,next) ∧ Buffered next xs ∧ next.taken = s.taken++[c] := by
  obtain ⟨holds,count,order⟩ := buffered
  obtain ⟨next,done,held,_⟩ := holds.remhead
  unfold qRemhead at done
  split at done
  case isTrue => cases done
  case isFalse =>
    cases done
    refine ⟨_,if_pos ⟨passed,holds.read⟩,⟨held,?_,?_⟩,rfl⟩
    · have left := List.length_erase_add_one passed
      rw [List.length_cons] at count
      change s.rsem+(s.passed.erase reader).length = _
      omega
    rw [List.append_assoc]
    exact order

lemma Buffered.step (buffered : Buffered s xs) (ran : step s event = some after) : ∃ ys, Buffered after ys := by
  cases event with
  | input ch =>
    obtain ⟨next,done,stored⟩ := buffered.input ch
    cases done.symm.trans ran
    split at stored
    · exact ⟨xs,stored ▸ buffered⟩
    exact ⟨_,stored.1⟩
  | pass reader =>
    obtain ⟨holds,count,order⟩ := buffered
    obtain ⟨may,did⟩ := Option.ite_none_right_eq_some.mp ran
    cases did
    refine ⟨xs,holds,?_,order⟩
    rw [List.length_cons,← count]
    change s.rsem-1+(s.passed.length+1) = _
    omega
  | take reader =>
    obtain ⟨r,done,rfl⟩ := Option.map_eq_some_iff.mp ran
    have passed := (Option.ite_none_right_eq_some.mp done).1.1
    obtain ⟨c,rest,rfl⟩ := buffered.waiting passed
    obtain ⟨next,did,left,_⟩ := buffered.take passed
    cases did.symm.trans done
    exact ⟨rest,left⟩

theorem console_input {gotchars : Nat → BitVec 8} (path : Reached step Free (attached gotchars) s) :
    s.rsem+s.passed.length = (unread s).length ∧ s.taken++unread s = s.kept ∧
    (∀ ch, ∃ next, conInput s ch = some next ∧ if (unread s).length = bufferSize-1 then next = s
      else unread next = unread s++[.ofInt 8 ch] ∧ next.kept = s.kept++[.ofInt 8 ch]) ∧
    ∀ reader ∈ s.passed, ∃ c next, getchTake s reader = some (c,next) ∧ unread s = c :: unread next ∧
      next.taken = s.taken++[c] := by
  have pos : 0 < bufferSize := by decide
  obtain ⟨xs,buffered⟩ := path.invariant (fun s => ∃ xs, Buffered s xs)
    ⟨[],⟨rfl,show bufferSize < 2^30 by decide,pos,pos,rfl,fun _ _ none_ => by cases none_⟩,rfl,rfl⟩
    fun _ ⟨_,buffered⟩ _ ran => buffered.step ran
  rw [buffered.unread]
  refine ⟨buffered.count,buffered.order,fun ch => ?_,fun reader passed => ?_⟩
  · obtain ⟨next,done,stored⟩ := buffered.input ch
    refine ⟨next,done,?_⟩
    split at stored
    · rwa [if_pos ‹_›]
    rw [if_neg ‹_›]
    exact ⟨stored.1.unread,stored.2⟩
  obtain ⟨c,rest,rfl⟩ := buffered.waiting passed
  obtain ⟨next,done,left,got⟩ := buffered.take passed
  exact ⟨c,next,done,by rw [left.unread],got⟩

-- 33 characters, of which the ring keeps 31; two readers have passed P and one of them has its character.
theorem console_input_full : ∃ s : State Bool, Reached step Free (attached fun _ => 0) s ∧ s.passed = [false] ∧
    s.rsem+s.passed.length = (unread s).length ∧ (s.kept.length,s.taken) = (31,[0]) ∧
    ∃ c next, getchTake s false = some (c,next) ∧ unread s = c :: unread next := by
  have ran : (run step (attached fun _ => 0)
      ((List.range 33).map (fun k => .input k)++[.pass true,.pass false,.take true])).map
        (fun s => (s.passed,s.kept.length,s.taken)) = some ([false],31,[0]) := by decide +kernel
  obtain ⟨s,ran,is⟩ := Option.map_eq_some_iff.mp ran
  have path := run_reached ran
  have passed : s.passed = [false] := congrArg Prod.fst is
  obtain ⟨count,_,_,takes⟩ := console_input path
  obtain ⟨c,next,took,first,_⟩ := takes false (by rw [passed]; decide)
  exact ⟨s,path,passed,count,congrArg Prod.snd is,c,next,took,first⟩
end ToyOS.Console

import ToyOS.Library.Transition

namespace ToyOS.KernelArray
open Function Transition List Option

-- struct array. `room` is the number of words at `v`, and `mallocs` counts the calls of kmalloc.
structure Array (Ptr : Type) where
  v : Nat → Ptr
  room : Nat
  num : Nat
  max : Nat
  mallocs : Nat

inductive Event (Ptr : Type) where
  | add (val : Ptr)
  | remove (index : Nat)
  | set (index : Nat) (val : Ptr)
  | get (index : Nat)
  | setsize (num : Nat)

inductive Reply (Ptr : Type) where
  | done
  | enomem
  | added (index : Nat)
  | got (val : Ptr)

-- The loop of array_setsize, in 32 bits; `none` if it takes more rounds than given.
def newmax : Nat → Nat → Nat → Option Nat
  | 0,_,_ => none
  | rounds+1,num,max => if max < num then newmax rounds num (if max = 0 then 4 else max*2 % 2^32) else some max

section
variable {Ptr : Type} (blocks : Nat → Option (Nat → Ptr)) (a : Array Ptr)

-- `blocks n` is what kmalloc returns at its call `n`; the size in bytes is computed in 32 bits.
def setsize (num : Nat) : Option (Reply Ptr × Array Ptr) :=
  if a.max < num then do
    let max ← newmax (num+1) num a.max
    match blocks a.mallocs with
    | none => some (.enomem,{a with mallocs := a.mallocs+1})
    | some block =>
      if a.num ≤ max*4 % 2^32/4 then
        some (.done,⟨fun k => if k < a.num then a.v k else block k,max*4 % 2^32/4,num,max,a.mallocs+1⟩)
      else none
  else some (.done,{a with num})

def store (index : Nat) (val : Ptr) : Option (Array Ptr) :=
  if index < a.room then some {a with v := update a.v index val} else none

def add (val : Ptr) : Option (Reply Ptr × Array Ptr) := do
  let (ret,b) ← setsize blocks a (a.num+1)
  match ret with
  | .done => (store b a.num val).map fun b => (.added a.num,b)
  | _ => some (ret,b)

def remove (index : Nat) : Array Ptr :=
  {a with v := fun k => if index ≤ k ∧ k < index+(a.num-(index+1)) then a.v (k+1) else a.v k,num := a.num-1}

def step : Event Ptr → Option (Reply Ptr × Array Ptr)
  | .add val => add blocks a val
  | .remove index => if index < a.num ∧ a.num ≤ a.max then some (.done,remove a index) else none
  | .set index val => if index < a.num then (store a index val).map fun b => (.done,b) else none
  | .get index => if index < a.num ∧ index < a.room then some (.got (a.v index),a) else none
  | .setsize num => setsize blocks a num

def machine (event : Event Ptr) : Option (Array Ptr) := (step blocks a event).map Prod.snd
def contents : List Ptr := (List.range a.num).map a.v

def Allowed : Event Ptr → Prop
  | .add _ => a.num+1 < 2^29
  | .remove index | .set index _ | .get index => index < a.num
  | .setsize num => num < 2^29

-- What an operation makes of the list. The entries that array_setsize adds are not initialized.
def Refines (xs : List Ptr) : Event Ptr → Reply Ptr → List Ptr → Prop
  | .add _,.enomem,ys | .setsize _,.enomem,ys => ys = xs
  | .add val,.added index,ys => index = xs.length ∧ ys = xs++[val]
  | .remove index,.done,ys => ys = xs.eraseIdx index
  | .set index val,.done,ys => ys = xs.set index val
  | .get index,.got val,ys => xs[index]? = some val ∧ ys = xs
  | .setsize num,.done,ys => ys.length = num ∧ ys.take xs.length = xs.take num
  | _,_,_ => False

structure Valid : Prop where
  num : a.num ≤ a.max
  room : a.room = a.max
  max : a.max < 2^30

end

variable {Ptr : Type} {b : Nat → Option (Nat → Ptr)} {a : Array Ptr}

lemma contents_get (a : Array Ptr) (k : Nat) : (contents a)[k]? = if k < a.num then some (a.v k) else none := by
  unfold contents
  split <;> simp [*]

lemma newmax_spec (lt : n < 2^29) (bound : m < 2^30) (big : n ≤ m+k) :
    ∃ next, newmax (k+1) n m = some next ∧ n ≤ next ∧ next < 2^30 := by
  induction k generalizing m with
  | zero => exact ⟨m,if_neg (by omega),big,bound⟩
  | succ k ih =>
    rw [newmax]
    split
    · exact ih (by split <;> omega) (by split <;> omega)
    exact ⟨m,rfl,by omega,bound⟩

lemma Valid.setsize (ok : Valid a) (small : n < 2^29) : ∃ r next, setsize b a n = some (r,next) ∧ Valid next ∧
    (r = .enomem ∧ next = {a with mallocs := a.mallocs+1} ∨
      r = .done ∧ next.num = n ∧ ∀ k, k < a.num → next.v k = a.v k) := by
  unfold KernelArray.setsize
  split
  · obtain ⟨max,hit,big,bound⟩ := newmax_spec (k := n) small ok.max (by omega)
    have fits : max*4 % 2^32/4 = max := by omega
    have num := ok.num
    rw [hit]
    simp only [bind_eq_bind,bind_some,fits]
    cases b a.mallocs with
    | none => exact ⟨_,_,rfl,⟨ok.num,ok.room,ok.max⟩,.inl ⟨rfl,rfl⟩⟩
    | some block => exact ⟨_,_,if_pos (by omega),⟨big,rfl,bound⟩,.inr ⟨rfl,rfl,fun k lt => if_pos lt⟩⟩
  exact ⟨_,_,rfl,⟨by dsimp only; omega,ok.room,ok.max⟩,.inr ⟨rfl,rfl,fun _ _ => rfl⟩⟩

lemma Valid.step (ok : Valid a) (may : Allowed a event) : ∃ r next, step b a event = some (r,next) ∧
    Valid next ∧ Refines (contents a) event r (contents next) := by
  obtain ⟨num,room,max⟩ := ok
  have size : (contents a).length = a.num := by simp [contents]
  cases event with
  | add val =>
    obtain ⟨r,next,done,good,ended⟩ := Valid.setsize (b := b) ⟨num,room,max⟩ may
    rcases ended with ⟨rfl,rfl⟩ | ⟨rfl,grown,eq⟩
    · exact ⟨.enomem,_,by rw [KernelArray.step,add,done]; rfl,good,rfl⟩
    have inside : a.num < next.room := by
      rw [good.room]
      exact Nat.lt_of_lt_of_le (by omega) good.num
    refine ⟨.added a.num,{next with v := update next.v a.num val},?_,⟨good.num,good.room,good.max⟩,size.symm,?_⟩
    · rw [KernelArray.step,add,done]
      simp only [bind_eq_bind,bind_some,store,if_pos inside,map_some]
    refine ext_getElem? fun k => ?_
    rw [contents_get,getElem?_append,size,contents_get]
    change (if k < next.num then some (update next.v a.num val k) else none) = _
    rw [grown]
    rcases Nat.lt_trichotomy k a.num with lt | rfl | above
    · rw [if_pos (by omega),if_pos lt,if_pos lt,update_of_ne lt.ne,eq k lt]
    · simp
    rw [if_neg (by omega),if_neg (by omega),getElem?_singleton,if_neg (by omega)]
  | remove index =>
    have inside : index < a.num := may
    refine ⟨.done,_,if_pos ⟨inside,num⟩,⟨(Nat.sub_le ..).trans num,room,max⟩,ext_getElem? fun k => ?_⟩
    rw [contents_get,getElem?_eraseIdx,contents_get,contents_get]
    unfold remove
    grind
  | set index val =>
    have inside : index < a.num := may
    refine ⟨.done,{a with v := update a.v index val},?_,⟨num,room,max⟩,ext_getElem? fun k => ?_⟩
    · rw [KernelArray.step,if_pos inside,store,if_pos (by omega)]
      rfl
    rw [contents_get,getElem?_set,contents_get,size]
    change (if k < a.num then some (update a.v index val k) else none) = _
    grind [update_apply]
  | get index =>
    have inside : index < a.num := may
    refine ⟨.got (a.v index),a,if_pos ⟨inside,by omega⟩,⟨num,room,max⟩,?_,rfl⟩
    rw [contents_get,if_pos inside]
  | setsize n =>
    obtain ⟨r,next,done,good,ended⟩ := Valid.setsize (b := b) ⟨num,room,max⟩ may
    refine ⟨r,next,done,good,?_⟩
    rcases ended with ⟨rfl,rfl⟩ | ⟨rfl,grown,eq⟩
    · rfl
    refine ⟨by simp [contents,grown],ext_getElem? fun k => ?_⟩
    rw [getElem?_take,getElem?_take,contents_get,contents_get,size,grown]
    grind

instance (a : Array Ptr) : DecidablePred (Allowed a)
  | .add _ | .remove _ | .set _ _ | .get _ | .setsize _ => inferInstanceAs (Decidable (_ < _))

-- kmalloc refuses its second call only.
def scarce (n : Nat) : Option (Nat → Nat) := if n = 1 then none else some fun _ => 0

end ToyOS.KernelArray

import ToyOS.Library.Linked
import ToyOS.Library.Transition

namespace ToyOS.ThreadNodes
open Function List Transition

-- A struct threadlistnode: an end of a threadlist, or the t_listnode of a thread.
inductive Node (L T : Type) where
  | head (tl : L)
  | tail (tl : L)
  | thread (t : T)
deriving DecidableEq

def Node.self {L T : Type} : Node L T → Option T
  | .thread t => some t
  | _ => none

-- The links of all nodes and the counts of all lists, which are 32 bits wide.
structure Memory (L T : Type) where
  next : Node L T → Option (Node L T)
  prev : Node L T → Option (Node L T)
  count : L → Nat

inductive Event (L T : Type) where
  | addhead (tl : L) (t : T)
  | addtail (tl : L) (t : T)
  | remhead (tl : L)
  | remtail (tl : L)
  | insertafter (tl : L) (onlist addee : T)
  | insertbefore (tl : L) (addee onlist : T)
  | remove (tl : L) (t : T)

variable {L T : Type} [DecidableEq L] [DecidableEq T]

section
variable (m : Memory L T)

def Memory.setNext (n : Node L T) (value : Option (Node L T)) : Memory L T :=
  {m with next := update m.next n value}

def Memory.setPrev (n : Node L T) (value : Option (Node L T)) : Memory L T :=
  {m with prev := update m.prev n value}

def Memory.setCount (tl : L) (n : Nat) : Memory L T := {m with count := update m.count tl (n % 2^32)}

-- Following a null pointer stops the machine.
def insertafternode (onlist : Node L T) (t : T) : Option (Memory L T) := do
  let addee := Node.thread t
  let m := m.setPrev addee (some onlist)
  let m := m.setNext addee (m.next onlist)
  let prev ← m.prev addee
  let m := m.setNext prev (some addee)
  let next ← m.next addee
  some (m.setPrev next (some addee))

def insertbeforenode (t : T) (onlist : Node L T) : Option (Memory L T) := do
  let addee := Node.thread t
  let m := m.setPrev addee (m.prev onlist)
  let m := m.setNext addee (some onlist)
  let prev ← m.prev addee
  let m := m.setNext prev (some addee)
  let next ← m.next addee
  some (m.setPrev next (some addee))

def removenode (tln : Node L T) : Option (Memory L T) := do
  let prev ← m.prev tln
  let m := m.setNext prev (m.next tln)
  let next ← m.next tln
  let m := m.setPrev next (m.prev tln)
  some ((m.setPrev tln none).setNext tln none)

def added (tl : L) (inserted : Option (Memory L T)) : Option (Option T × Memory L T) :=
  inserted.map fun m => (none,m.setCount tl (m.count tl+1))

def removed (tl : L) (tln : Node L T) : Option (Option T × Memory L T) :=
  (removenode m tln).map fun m => (tln.self,m.setCount tl (m.count tl+(2^32-1)))

def step : Event L T → Option (Option T × Memory L T)
  | .addhead tl t => added tl (insertafternode m (.head tl) t)
  | .addtail tl t => added tl (insertbeforenode m t (.tail tl))
  | .remhead tl => do
    let tln ← m.next (.head tl)
    if m.next tln = none then some (none,m) else removed m tl tln
  | .remtail tl => do
    let tln ← m.prev (.tail tl)
    if m.prev tln = none then some (none,m) else removed m tl tln
  | .insertafter tl onlist addee => added tl (insertafternode m (.thread onlist) addee)
  | .insertbefore tl addee onlist => added tl (insertbeforenode m addee (.thread onlist))
  | .remove tl t => (removed m tl (.thread t)).map fun r => (none,r.2)

end

-- What the operations do to the sequences of threads.
def act (lists : L → List T) : Event L T → L → List T
  | .addhead tl t => update lists tl (t :: lists tl)
  | .addtail tl t => update lists tl (lists tl++[t])
  | .remhead tl => update lists tl (lists tl).tail
  | .remtail tl => update lists tl (lists tl).dropLast
  | .insertafter tl onlist t => update lists tl ((lists tl).flatMap fun x => if x = onlist then [x,t] else [x])
  | .insertbefore tl t onlist => update lists tl ((lists tl).flatMap fun x => if x = onlist then [t,x] else [x])
  | .remove tl t => update lists tl ((lists tl).erase t)

def reply (lists : L → List T) : Event L T → Option T
  | .remhead tl => (lists tl).head?
  | .remtail tl => (lists tl).getLast?
  | _ => none

abbrev Joint (L T : Type) := Memory L T × (L → List T)

-- A thread on no list is inserted next to one on the list; one on a list is removed from its own.
def Allowed (s : Joint L T) : Event L T → Prop
  | .addhead _ t => ∀ l, t ∉ s.2 l
  | .addtail _ t => ∀ l, t ∉ s.2 l
  | .insertafter tl onlist t => onlist ∈ s.2 tl ∧ ∀ l, t ∉ s.2 l
  | .insertbefore tl t onlist => onlist ∈ s.2 tl ∧ ∀ l, t ∉ s.2 l
  | .remove tl t => t ∈ s.2 tl
  | _ => True

instance [Fintype L] (s : Joint L T) : DecidablePred (Allowed s)
  | .addhead _ t | .addtail _ t => inferInstanceAs (Decidable (∀ l, t ∉ s.2 l))
  | .insertafter tl onlist t | .insertbefore tl t onlist =>
    inferInstanceAs (Decidable (onlist ∈ s.2 tl ∧ ∀ l, t ∉ s.2 l))
  | .remove tl t => inferInstanceAs (Decidable (t ∈ s.2 tl))
  | .remhead _ | .remtail _ => inferInstanceAs (Decidable True)

def both (s : Joint L T) (event : Event L T) : Option (Joint L T) :=
  (step s.1 event).map fun r => (r.2,act s.2 event)

-- After threadlist_init and threadlistnode_init.
def initial : Memory L T where
  next n := match n with
    | .head tl => some (.tail tl)
    | _ => none
  prev n := match n with
    | .tail tl => some (.head tl)
    | _ => none
  count _ := 0

def Links (m : Memory L T) (a b : Node L T) : Prop := m.next a = some b ∧ m.prev b = some a
def before (tl : L) (xs : List T) : List (Node L T) := .head tl :: xs.map .thread
def beyond (tl : L) (xs : List T) : List (Node L T) := xs.map .thread++[.tail tl]

structure Represents (m : Memory L T) (lists : L → List T) : Prop where
  chain : ∀ tl, IsChain (Links m) (.head tl :: beyond tl (lists tl))
  ends : ∀ tl, m.prev (.head tl) = none ∧ m.next (.tail tl) = none
  detached : ∀ t, (∀ tl, t ∉ lists tl) → m.next (.thread t) = none ∧ m.prev (.thread t) = none
  nodup : ∀ tl, (lists tl).Nodup
  apart : ∀ t l l', t ∈ lists l → t ∈ lists l' → l = l'
  count : ∀ tl, m.count tl = (lists tl).length % 2^32

variable {m : Memory L T} {lists : L → List T} {a b n x y : Node L T} {t : T} {tl : L}
  {pre post : List T} {xs : List (Node L T)}

def link (a n b : Node L T) (m : Memory L T) : Memory L T :=
  (((m.setPrev n (some a)).setNext n (some b)).setNext a (some n)).setPrev b (some n)

def unlink (a n b : Node L T) (m : Memory L T) : Memory L T :=
  (((m.setNext a (some b)).setPrev b (some a)).setPrev n none).setNext n none

lemma chain_link (links : Links m a b) (chain : IsChain (Links m) xs) (new : n ∉ xs) (miss : a ∉ xs ∨ b ∉ xs) :
    IsChain (Links (link a n b m)) xs := by
  refine chain.imp_of_mem_imp fun x y first last old => ?_
  obtain ⟨next,prev⟩ := links
  obtain ⟨next',prev'⟩ := old
  simp only [Links,link,Memory.setNext,Memory.setPrev,update_apply]
  grind

lemma chain_unlink (one : Links m a n) (two : Links m n b) (chain : IsChain (Links m) xs) (gone : n ∉ xs) :
    IsChain (Links (unlink a n b m)) xs := by
  refine chain.imp_of_mem_imp fun x y first last old => ?_
  obtain ⟨next,prev⟩ := one
  obtain ⟨next',prev'⟩ := two
  obtain ⟨next'',prev''⟩ := old
  simp only [Links,unlink,Memory.setNext,Memory.setPrev,update_apply]
  grind

lemma link_links (m : Memory L T) (first : n ≠ a) (last : n ≠ b) :
    Links (link a n b m) a n ∧ Links (link a n b m) n b := by
  simp [Links,link,Memory.setNext,Memory.setPrev,first,last]

omit [DecidableEq L] [DecidableEq T]

lemma nodes_split (tl : L) (pre post : List T) : .head tl :: beyond tl (pre++post) = before tl pre++beyond tl post := by
  simp [before,beyond]

@[grind →] lemma mem_before (mem : x ∈ before tl pre) : x = .head tl ∨ ∃ t ∈ pre, x = .thread t := by
  simpa [before,eq_comm] using mem

@[grind →] lemma mem_beyond (mem : x ∈ beyond tl post) : x = .tail tl ∨ ∃ t ∈ post, x = .thread t := by
  simpa [beyond,or_comm,eq_comm] using mem

lemma disjoint_nodes (nodup : (pre++post).Nodup) (one : x ∈ before tl pre) : x ∉ beyond tl post := by
  have apart := (nodup_append.mp nodup).2.2
  grind

lemma represents_initial : Represents (initial : Memory L T) fun _ => [] := by
  constructor <;> simp [beyond,initial,Links]

lemma flatMap_split {f : T → List T} (nodup : (pre++t :: post).Nodup) (others : ∀ x, x ≠ t → f x = [x]) :
    (pre++t :: post).flatMap f = pre++f t++post := by
  have gone : ∀ xs : List T, t ∉ xs → xs.flatMap f = xs := fun xs away =>
    (flatMap_congr fun x mem => others x fun same => away (same ▸ mem)).trans (flatMap_singleton' xs)
  have split := nodup_middle.mp nodup
  rw [flatMap_append,flatMap_cons,gone pre (by grind),gone post (by grind),append_assoc]

lemma Represents.empty (rep : Represents m lists) (empty : lists tl = []) : Links m (.head tl) (.tail tl) := by
  simpa [empty,beyond] using rep.chain tl

lemma follows {f : Node L T → Option (Node L T)} (chain : IsChain (fun a b => f a = some b) (x :: (xs++[y])))
    (stop : f y = none) : Linked.Chain f (f x) (xs++[y]) := by
  induction xs generalizing x with
  | nil => exact ⟨(isChain_cons_cons.mp chain).1,stop⟩
  | cons z zs ih =>
    obtain ⟨link,rest⟩ := isChain_cons_cons.mp chain
    exact ⟨link,ih rest⟩

lemma Represents.forward (rep : Represents m lists) (tl : L) :
    Linked.Chain m.next (m.next (.head tl)) ((lists tl).map .thread++[.tail tl]) :=
  follows ((rep.chain tl).imp fun _ _ links => links.1) (rep.ends tl).2

lemma Represents.backward (rep : Represents m lists) (tl : L) :
    Linked.Chain m.prev (m.prev (.tail tl)) ((lists tl).reverse.map .thread++[.head tl]) := by
  have chain := isChain_reverse.mpr ((rep.chain tl).imp fun _ _ links => links.2)
  simp only [beyond,reverse_cons,reverse_append,reverse_nil,nil_append,← map_reverse,cons_append] at chain
  exact follows chain (rep.ends tl).1

variable [DecidableEq L] [DecidableEq T]

lemma Represents.insert (rep : Represents m lists) (split : lists tl = pre++post) (absent : ∀ l, t ∉ lists l)
    (left : before tl pre = front++[a]) (right : beyond tl post = b :: back) :
    ∃ next, added tl (insertafternode m a t) = some (none,next) ∧ added tl (insertbeforenode m t b) = some (none,next) ∧
      Represents next (update lists tl (pre++t :: post)) := by
  have nodup := rep.nodup tl
  have chain := rep.chain tl
  have here := absent tl
  have apart := rep.apart
  rw [split] at nodup chain here
  have one : a ∈ before tl pre := by simp [left]
  have two : b ∈ beyond tl post := by simp [right]
  have other : .thread t ≠ a := by grind
  have low : .thread t ∉ before tl pre ∧ b ∉ before tl pre := ⟨by grind,fun mem => disjoint_nodes nodup mem two⟩
  have high : .thread t ∉ beyond tl post ∧ a ∉ beyond tl post := ⟨by grind,disjoint_nodes nodup one⟩
  obtain ⟨joined,joined'⟩ := link_links m (n := .thread t) (a := a) (b := b) other (by grind)
  rw [nodes_split,left,right,append_assoc,singleton_append,isChain_append_cons_cons] at chain
  obtain ⟨ahead,links,after⟩ := chain
  have fresh := nodup_middle.mpr (nodup_cons.mpr ⟨here,nodup⟩)
  refine ⟨(link a (.thread t) b m).setCount tl (m.count tl+1),?_,?_,fun l => ?_,?_,?_,?_,?_,?_⟩
  · simp [added,insertafternode,link,Memory.setNext,Memory.setPrev,links.1,other]
  · simp [added,insertbeforenode,link,Memory.setNext,Memory.setPrev,links.2,other]
  · rcases eq_or_ne l tl with rfl | away
    · rw [left] at low
      rw [right] at high
      rw [update_self,nodes_split,left,append_assoc,singleton_append,beyond,map_cons,cons_append,← beyond,right]
      exact isChain_append_cons_cons.mpr ⟨chain_link links ahead low.1 (.inr low.2),joined,isChain_cons_cons.mpr
        ⟨joined',chain_link links after high.1 (.inl high.2)⟩⟩
    rw [update_of_ne away]
    exact chain_link links (rep.chain l) (by grind) (.inl (by grind))
  all_goals
    obtain ⟨_,ends,detached,nodup,_,count⟩ := rep
    simp only [Memory.setCount,link,Memory.setNext,Memory.setPrev,update_apply]
    grind

lemma Represents.delete (rep : Represents m lists) (split : lists tl = pre++t :: post)
    (left : before tl pre = front++[a]) (right : beyond tl post = b :: back) :
    Links m a (.thread t) ∧ Links m (.thread t) b ∧ ∃ next, removed m tl (.thread t) = some (some t,next) ∧
      Represents next (update lists tl (pre++post)) := by
  have nodup := rep.nodup tl
  have chain := rep.chain tl
  have apart := rep.apart
  rw [split] at nodup chain
  obtain ⟨gone,fresh⟩ := nodup_cons.mp (nodup_middle.mp nodup)
  have one : a ∈ before tl pre := by simp [left]
  have two : b ∈ beyond tl post := by simp [right]
  have low : .thread t ∉ before tl pre := by grind
  have high : .thread t ∉ beyond tl post := by grind
  have other : .thread t ≠ a := by grind
  rw [nodes_split,left,append_assoc,singleton_append,beyond,map_cons,cons_append,← beyond,right,
    isChain_append_cons_cons,isChain_cons_cons] at chain
  obtain ⟨ahead,links,links',after⟩ := chain
  refine ⟨links,links',(unlink a (.thread t) b m).setCount tl (m.count tl+(2^32-1)),?_,fun l => ?_,?_,?_,?_,?_,?_⟩
  · simp [removed,removenode,unlink,Memory.setNext,Memory.setPrev,Node.self,links.2,links'.1,other]
  · rcases eq_or_ne l tl with rfl | away
    · rw [left] at low
      rw [right] at high
      rw [update_self,nodes_split,left,right,append_assoc,singleton_append]
      refine isChain_append_cons_cons.mpr ⟨chain_unlink links links' ahead low,?_,chain_unlink links links' after high⟩
      simp only [Links,unlink,Memory.setCount,Memory.setNext,Memory.setPrev,update_apply]
      grind
    rw [update_of_ne away]
    exact chain_unlink links links' (rep.chain l) (by grind)
  all_goals
    obtain ⟨_,ends,detached,nodup,_,count⟩ := rep
    simp only [Memory.setCount,unlink,Memory.setNext,Memory.setPrev,update_apply]
    grind

lemma Represents.step {event : Event L T} (rep : Represents m lists) (allowed : Allowed (m,lists) event) :
    ∃ next, step m event = some (reply lists event,next) ∧ Represents next (act lists event) := by
  have last (tl : L) (xs : List T) : ∃ front a, before tl xs = front++[a] :=
    ⟨_,_,(dropLast_append_getLast (cons_ne_nil _ _)).symm⟩
  have first (tl : L) (xs : List T) : ∃ b back, beyond tl xs = b :: back := exists_cons_of_ne_nil (by simp [beyond])
  cases event with
  | addhead tl t =>
    obtain ⟨b,back,right⟩ := first tl (lists tl)
    obtain ⟨next,ran,_,rep⟩ := rep.insert (nil_append _).symm allowed
      (show before tl [] = []++[.head tl] from rfl) right
    exact ⟨next,ran,rep⟩
  | addtail tl t =>
    obtain ⟨front,a,left⟩ := last tl (lists tl)
    obtain ⟨next,_,ran,rep⟩ := rep.insert (b := .tail tl) (append_nil _).symm allowed left rfl
    exact ⟨next,ran,rep⟩
  | insertafter tl o t =>
    obtain ⟨pre,post,(split : lists tl = _)⟩ := append_of_mem allowed.1
    obtain ⟨b,back,right⟩ := first tl post
    obtain ⟨next,ran,_,rep'⟩ := rep.insert (split.trans (append_cons pre o post)) allowed.2
      (show _ = before tl pre++[.thread o] by simp [before]) right
    refine ⟨next,ran,?_⟩
    rw [act,split,flatMap_split (split ▸ rep.nodup tl) fun x other => if_neg other,if_pos rfl]
    simpa using rep'
  | insertbefore tl t o =>
    obtain ⟨pre,post,(split : lists tl = _)⟩ := append_of_mem allowed.1
    obtain ⟨front,a,left⟩ := last tl pre
    obtain ⟨next,_,ran,rep'⟩ := rep.insert (b := .thread o) split allowed.2 left rfl
    refine ⟨next,ran,?_⟩
    rw [act,split,flatMap_split (split ▸ rep.nodup tl) fun x other => if_neg other,if_pos rfl]
    simpa using rep'
  | remhead tl =>
    cases split : lists tl with
    | nil =>
      refine ⟨m,?_,?_⟩
      · simp [ThreadNodes.step,reply,split,(rep.empty split).1,(rep.ends tl).2]
      rwa [act,split,tail_nil,← split,update_eq_self]
    | cons t post =>
      obtain ⟨b,back,right⟩ := first tl post
      obtain ⟨one,two,next,ran,rep⟩ := rep.delete (split.trans (nil_append _).symm)
        (show before tl [] = []++[.head tl] from rfl) right
      refine ⟨next,?_,?_⟩
      · simp [ThreadNodes.step,reply,split,one.1,two.1,ran]
      simpa [act,split] using rep
  | remtail tl =>
    rcases eq_nil_or_concat' (lists tl) with split | ⟨pre,t,split⟩
    · refine ⟨m,?_,?_⟩
      · simp [ThreadNodes.step,reply,split,(rep.empty split).2,(rep.ends tl).1]
      rwa [act,split,dropLast_nil,← split,update_eq_self]
    obtain ⟨front,a,left⟩ := last tl pre
    obtain ⟨one,two,next,ran,rep⟩ := rep.delete (b := .tail tl) split left rfl
    refine ⟨next,?_,?_⟩
    · simp [ThreadNodes.step,reply,split,one.2,two.2,ran]
    simpa [act,split] using rep
  | remove tl t =>
    obtain ⟨pre,post,(split : lists tl = _)⟩ := append_of_mem allowed
    obtain ⟨front,a,left⟩ := last tl pre
    obtain ⟨b,back,right⟩ := first tl post
    obtain ⟨_,_,next,ran,rep'⟩ := rep.delete split left right
    refine ⟨next,by simp [ThreadNodes.step,ran,reply],?_⟩
    have fresh := nodup_middle.mp (split ▸ rep.nodup tl)
    rwa [act,split,erase_append_right _ (by grind),erase_cons_head]

-- Threads are distinct nonzero 32-bit addresses.
theorem thread_lists_refine (address : T ↪ Finset.Ioo 0 (2^32))
    (path : Reached both Allowed (initial,fun _ => []) (m,lists)) :
    (∀ tl, Linked.Chain m.next (m.next (.head tl)) ((lists tl).map .thread++[.tail tl]) ∧
      Linked.Chain m.prev (m.prev (.tail tl)) ((lists tl).reverse.map .thread++[.head tl]) ∧
      m.count tl = (lists tl).length) ∧
    (∀ t, (∀ tl, t ∉ lists tl) → m.next (.thread t) = none ∧ m.prev (.thread t) = none) ∧
    ∀ event, Allowed (m,lists) event → ∃ next, step m event = some (reply lists event,next) := by
  have rep : Represents m lists := path.invariant (fun s => Represents s.1 s.2) represents_initial
    fun {s event after} _ rep allowed ran => by
      obtain ⟨next,stepped,rep'⟩ := rep.step allowed
      simp only [both,stepped,Option.map_some,Option.some.injEq] at ran
      exact ran ▸ rep'
  refine ⟨fun tl => ⟨rep.forward tl,rep.backward tl,?_⟩,rep.detached,fun event allowed => ?_⟩
  · have bound := ((rep.nodup tl).map address.injective).length_le_card
    rw [length_map,Fintype.card_coe,Nat.card_Ioo] at bound
    rw [rep.count,Nat.mod_eq_of_lt (by omega)]
  obtain ⟨next,ran,_⟩ := rep.step allowed
  exact ⟨next,ran⟩

-- Four threads on two lists. 1 is inserted between 0 and 2, removed from there and inserted before 3 on the other list.
theorem thread_lists_refine_moved : ∃ (m : Memory Bool (Fin 4)) (lists : Bool → List (Fin 4)) (next : _),
    Reached both Allowed (initial,fun _ => []) (m,lists) ∧ (lists true,lists false) = ([0,2],[1,3]) ∧
    Linked.Chain m.next (m.next (.head true)) [.thread 0,.thread 2,.tail true] ∧
    Linked.Chain m.prev (m.prev (.tail false)) [.thread 3,.thread 1,.head false] ∧
    step m (.remtail true) = some (some 2,next) := by
  have ran : (run (guarded (fun s e => decide (Allowed s e)) both) ((initial : Memory Bool (Fin 4)),fun _ => [])
      [.addtail true 0,.addtail true 2,.insertafter true 0 1,.addhead false 3,.remove true 1,
        .insertbefore false 1 3]).map
        (fun s => (s.2 true,s.2 false)) = some ([0,2],[1,3]) := by decide +kernel
  obtain ⟨⟨m,lists⟩,ran,is⟩ := Option.map_eq_some_iff.mp ran
  have path : Reached both Allowed (initial,fun _ => []) (m,lists) :=
    run_permitted (fun _ may => of_decide_eq_true may) .initial ran
  have one : lists true = [0,2] := congrArg Prod.fst is
  have two : lists false = [1,3] := congrArg Prod.snd is
  obtain ⟨chains,_,steps⟩ := thread_lists_refine
    ⟨fun t => ⟨t.val+1,Finset.mem_Ioo.mpr ⟨by omega,by omega⟩⟩,fun s t eq => by simpa [Fin.ext_iff] using eq⟩ path
  obtain ⟨next,ran⟩ := steps (.remtail true) trivial
  refine ⟨m,lists,next,path,is,?_,?_,?_⟩
  · simpa [one] using (chains true).1
  · simpa [two] using (chains false).2.1
  · simpa [reply,one] using ran
end ToyOS.ThreadNodes

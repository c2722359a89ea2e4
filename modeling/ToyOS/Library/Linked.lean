import Mathlib

namespace ToyOS.Linked
open Function List

-- Singly linked lists: `next` is the link of each node, and a list is known by its head.
variable {α : Type} {next next' : α → Option α} {head : Option α} {l : List α} {a : α}

def Chain (next : α → Option α) : Option α → List α → Prop
  | head,[] => head = none
  | head,a :: rest => head = some a ∧ Chain next (next a) rest

lemma Chain.congr (chain : Chain next head l) (eq : ∀ b ∈ l, next' b = next b) : Chain next' head l := by
  induction l generalizing head with
  | nil => exact chain
  | cons b rest ih =>
    refine ⟨chain.1,?_⟩
    rw [eq b mem_cons_self]
    exact ih chain.2 fun c mem => eq c (mem_cons_of_mem _ mem)

def seek (next : α → Option α) (check stop : α → Bool) : Nat → Option α → Option (Option α)
  | _,none => some none
  | 0,some _ => none
  | fuel+1,some a =>
    if check a then if stop a then some (some a) else seek next check stop fuel (next a) else none

lemma Chain.seek {check stop test : α → Bool} (chain : Chain next head l)
    (big : l.length ≤ fuel) (checked : ∀ b ∈ l, check b) (agrees : ∀ b ∈ l, stop b = test b) :
    seek next check stop fuel head = some (l.find? test) := by
  induction l generalizing head fuel with
  | nil =>
    cases chain
    cases fuel <;> rfl
  | cons a rest ih =>
    obtain ⟨rfl,tail⟩ := chain
    cases fuel with
    | zero => cases big
    | succ fuel =>
      rw [Linked.seek,List.find?_cons,if_pos (checked a mem_cons_self),agrees a mem_cons_self]
      cases test a with
      | true => rfl
      | false =>
        exact ih tail (Nat.le_of_succ_le_succ big) (fun b mem => checked b (mem_cons_of_mem _ mem))
          fun b mem => agrees b (mem_cons_of_mem _ mem)

variable [DecidableEq α]

lemma Chain.push (chain : Chain next head l) (new : a ∉ l) : Chain (update next a head) (some a) (a :: l) := by
  refine ⟨rfl,?_⟩
  rw [update_self]
  refine chain.congr fun b mem => update_of_ne ?_ ..
  rintro rfl
  exact new mem

def unlinkAfter (next : α → Option α) (gone : α) : Nat → α → Option (α → Option α)
  | 0,_ => none
  | fuel+1,a => match next a with
    | none => some next
    | some b => if b = gone then some (update next a (next gone)) else unlinkAfter next gone fuel b

def unlink (next : α → Option α) (gone : α) (fuel : Nat) : Option α → Option (Option α × (α → Option α))
  | none => some (none,next)
  | some a => if a = gone then some (next gone,next) else (unlinkAfter next gone fuel a).map (some a,·)

lemma unlinkAfter_chain (chain : Chain next (next a) l) (nodup : (a :: l).Nodup)
    (big : l.length < fuel) : ∃ after, unlinkAfter next gone fuel a = some after ∧
      Chain after (after a) (l.erase gone) ∧ ∀ b, b ∉ a :: l → after b = next b := by
  induction l generalizing a fuel with
  | nil =>
    obtain ⟨fuel,rfl⟩ := Nat.exists_eq_add_one.mpr big
    refine ⟨next,?_,chain,fun _ _ => rfl⟩
    rw [unlinkAfter,show next a = none from chain]
  | cons b rest ih =>
    obtain ⟨fuel,rfl⟩ := Nat.exists_eq_add_one.mpr (Nat.zero_lt_of_lt big)
    obtain ⟨link,tail⟩ := chain
    obtain ⟨apart,distinct⟩ := nodup_cons.mp nodup
    rw [unlinkAfter,link]
    rcases eq_or_ne b gone with rfl | ne
    · refine ⟨update next a (next b),if_pos rfl,?_,fun c out => update_of_ne ?_ ..⟩
      · rw [erase_cons_head,update_self]
        refine tail.congr fun c mem => update_of_ne ?_ ..
        rintro rfl
        exact apart (mem_cons_of_mem _ mem)
      rintro rfl
      exact out mem_cons_self
    obtain ⟨after,done,left,others⟩ := ih tail distinct (Nat.lt_of_succ_lt_succ big)
    refine ⟨after,(if_neg ne).trans done,?_,fun c out => others c ?_⟩
    · rw [erase_cons_tail (by simpa using ne),others a apart,link]
      exact ⟨rfl,left⟩
    · exact fun mem => out (mem_cons_of_mem _ mem)

lemma Chain.unlink (chain : Chain next head l) (nodup : l.Nodup)
    (big : l.length ≤ fuel) : ∃ one after, unlink next gone fuel head = some (one,after) ∧
      Chain after one (l.erase gone) ∧ ∀ b, b ∉ l → after b = next b := by
  cases l with
  | nil =>
    cases chain
    exact ⟨none,next,rfl,rfl,fun _ _ => rfl⟩
  | cons a rest =>
    obtain ⟨rfl,tail⟩ := chain
    rcases eq_or_ne a gone with rfl | ne
    · refine ⟨next a,next,if_pos rfl,?_,fun _ _ => rfl⟩
      rw [erase_cons_head]
      exact tail
    obtain ⟨after,done,left,others⟩ := unlinkAfter_chain tail nodup big
    refine ⟨some a,after,?_,?_,others⟩
    · rw [Linked.unlink,if_neg ne,done]
      rfl
    rw [erase_cons_tail (by simpa using ne)]
    exact ⟨rfl,left⟩
end ToyOS.Linked

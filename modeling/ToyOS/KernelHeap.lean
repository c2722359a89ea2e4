import ToyOS.FrameOwners
import ToyOS.Kmalloc

namespace ToyOS.KernelHeap
open Function BlockStore Coremap SpaceFrames FrameOwners Option List
open Kmalloc (largestSubpageSize largePages)

-- The kernel heap for its users. Calls of kmalloc are numbered; `live` gives the block of pages that each one's memory
-- lies in, until kfree takes it back.
structure Heap where
  frames : FrameOwners.State
  live : Nat → Option Nat
  next : Nat

-- How kmalloc serves a request: from a page with other memory, from new pages, or not at all, for want of a pageref.
-- Which one depends on the heap's history and is left open.
inductive Place where
  | shared (block : Nat)
  | fresh
  | refused

def Heap.occupied (h : Heap) (block : Nat) : Bool :=
  (List.range h.next).any fun k => h.live k == some block

def blockPages (sz : Nat) : Nat := if sz < largestSubpageSize then 1 else largePages sz
def Heap.missed (h : Heap) : Heap × Option Nat := ({h with next := h.next+1},none)

def kmalloc (r : Ram) (place : Place) (sz : Nat) (h : Heap) : Heap × Option Nat :=
  match place with
  | .refused => h.missed
  | .shared block =>
    if sz < largestSubpageSize ∧ h.occupied block = true then
      ({h with live := update h.live h.next (some block),next := h.next+1},some h.next)
    else h.missed
  | .fresh => match allocKpages r h.frames.coremap (blockPages sz) with
      | (coremap,addr) =>
        if addr = 0 then h.missed
        else ({
          frames := {h.frames with
            coremap
            kernel := update h.frames.kernel h.frames.nextKernel (some ⟨addr,blockPages sz⟩)
            nextKernel := h.frames.nextKernel+1}
          live := update h.live h.next (some h.frames.nextKernel)
          next := h.next+1},some h.next)

def kfree (r : Ram) (ticket : Nat) (h : Heap) : Option Heap :=
  match h.live ticket with
  | none => none
  | some block =>
    let left := {h with live := update h.live ticket none}
    if left.occupied block then some left
    else (FrameOwners.step r h.frames (.freeKernel block)).map fun frames => {left with frames}

structure Known (h : Heap) : Prop where
  unused : ∀ k, h.next ≤ k → h.live k = none
  blocks : ∀ k b, h.live k = some b → b < h.frames.nextKernel

lemma Known.below (known : Known h) (at_ : h.live k = some b) : k < h.next := by
  by_contra beyond
  rw [known.unused k (not_lt.mp beyond)] at at_
  cases at_

lemma Known.occupied_iff (known : Known h) : h.occupied b ↔ ∃ k, h.live k = some b := by
  simp only [Heap.occupied,List.any_eq_true,mem_range,beq_iff_eq]
  constructor
  · rintro ⟨k,_,at_⟩
    exact ⟨k,at_⟩
  rintro ⟨k,at_⟩
  exact ⟨k,known.below at_,at_⟩

lemma Known.freed (known : Known h) (ticket : Nat) : Known {h with live := update h.live ticket none} := by
  have left : ∀ k b, update h.live ticket none k = some b → h.live k = some b := by
    intro k b at_
    rcases eq_or_ne k ticket with rfl | ne
    · rw [update_self] at at_
      cases at_
    · rwa [update_of_ne ne] at at_
  refine ⟨fun k later => ?_,fun k b at_ => known.blocks k b (left k b at_)⟩
  rcases eq_or_ne k ticket with rfl | ne
  · exact update_self ..
  · exact (update_of_ne ne ..).trans (known.unused k later)

variable {after : Heap}

lemma kmalloc_cases {h : Heap} (done : kmalloc r place sz h = (after,got)) :
    (got = none ∧ after = {h with next := h.next+1}) ∨
    ∃ b, got = some h.next ∧ after.live = update h.live h.next (some b) ∧
      after.next = h.next+1 ∧ (b < after.frames.nextKernel ∨ h.occupied b) ∧
      h.frames.nextKernel ≤ after.frames.nextKernel := by
  unfold kmalloc Heap.missed at done
  split at done
  · cases done
    exact .inl ⟨rfl,rfl⟩
  · split at done
    · rename_i fits
      cases done
      exact .inr ⟨_,rfl,rfl,rfl,.inr fits.2,le_rfl⟩
    cases done
    exact .inl ⟨rfl,rfl⟩
  simp only at done
  split at done
  · cases done
    exact .inl ⟨rfl,rfl⟩
  cases done
  exact .inr ⟨_,rfl,rfl,rfl,.inl (Nat.lt_succ_self _),Nat.le_succ _⟩

lemma kmalloc_known (known : Known h) (done : kmalloc r place sz h = (after,got)) : Known after := by
  rcases kmalloc_cases done with ⟨_,rfl⟩ | ⟨b,_,live,next,place_,grows⟩
  · exact ⟨fun k later => known.unused k (Nat.le_of_succ_le later),known.blocks⟩
  have inside : b < after.frames.nextKernel := by
    rcases place_ with lt | occupied
    · exact lt
    obtain ⟨k,at_⟩ := known.occupied_iff.mp occupied
    exact lt_of_lt_of_le (known.blocks k b at_) grows
  constructor
  · intro k later
    rw [next] at later
    rw [live,update_of_ne (by omega)]
    exact known.unused k (by omega)
  intro k c at_
  rw [live] at at_
  rcases eq_or_ne k h.next with rfl | ne
  · rw [update_self] at at_
    cases at_
    exact inside
  rw [update_of_ne ne] at at_
  exact lt_of_lt_of_le (known.blocks k c at_) grows

lemma kfree_live (done : kfree r ticket h = some after) :
    after.live = update h.live ticket none ∧ after.next = h.next := by
  unfold kfree at done
  split at done
  · cases done
  simp only at done
  split at done
  · cases done
    exact ⟨rfl,rfl⟩
  obtain ⟨frames,_,rfl⟩ := map_eq_some_iff.mp done
  exact ⟨rfl,rfl⟩

lemma kfree_known (known : Known h) (done : kfree r ticket h = some after) : Known after := by
  have freed := known.freed ticket
  unfold kfree at done
  split at done
  · cases done
  simp only at done
  split at done
  · cases done
    exact freed
  obtain ⟨frames,did,rfl⟩ := map_eq_some_iff.mp done
  refine ⟨freed.unused,fun k b at_ => ?_⟩
  have lt := freed.blocks k b at_
  simp only [FrameOwners.step] at did
  split at did
  · cases did
  obtain ⟨coremap,_,rfl⟩ := map_eq_some_iff.mp did
  exact lt

lemma kmalloc_spaces (done : kmalloc r place sz h = (after,got)) :
    after.frames.spaces = h.frames.spaces ∧ after.frames.nextSpace = h.frames.nextSpace := by
  unfold kmalloc Heap.missed at done
  split at done
  · cases done
    exact ⟨rfl,rfl⟩
  · split at done <;> (cases done; exact ⟨rfl,rfl⟩)
  simp only at done
  split at done <;> (cases done; exact ⟨rfl,rfl⟩)

-- A kernel path that gives back only what it has got itself: `start` is the heap before it.
structure During (r : Ram) (parts : Nat → Part → Option Block) (start h : Heap) : Prop where
  accounts : ∃ store, AccountedBy r h.frames parts store
  known : Known h
  origin : Known start
  kept : ∀ k, start.live k ≠ none → h.live k = start.live k
  old : ∀ b, b < start.frames.nextKernel → h.frames.kernel b = start.frames.kernel b
  new : ∀ b, start.frames.nextKernel ≤ b → (h.frames.kernel b ≠ none ↔ ∃ k, h.live k = some b)
  shares : ∀ k b, h.live k = some b → b < start.frames.nextKernel → ∃ j, start.live j = some b
  further : start.next ≤ h.next
  later : start.frames.nextKernel ≤ h.frames.nextKernel

lemma During.refl (acc : AccountedBy r start.frames parts store) (known : Known start) :
    During r parts start start := by
  refine ⟨⟨store,acc⟩,known,known,fun _ _ => rfl,fun _ _ => rfl,fun b beyond => ?_,
    fun k b at_ _ => ⟨k,at_⟩,le_rfl,le_rfl⟩
  constructor
  · exact fun here => absurd (acc.freshKernel b beyond) here
  rintro ⟨k,at_⟩
  exact absurd (known.blocks k b at_) (not_lt.mpr beyond)

lemma During.respaced (during : During r parts start h)
    (acc : AccountedBy r frames parts' store) (kernel : frames.kernel = h.frames.kernel)
    (next : frames.nextKernel = h.frames.nextKernel) : During r parts' start {h with frames} := by
  obtain ⟨_,known,origin,kept,old,new,shares,further,later⟩ := during
  refine ⟨⟨store,acc⟩,⟨known.unused,fun k b at_ => ?_⟩,origin,kept,?_,?_,shares,further,?_⟩
  · rw [next]
    exact known.blocks k b at_
  · simpa only [kernel] using old
  · simpa only [kernel] using new
  · simpa only [next] using later

section
variable {r : Ram} {parts : Nat → Part → Option Block} {start h after : Heap}

lemma During.add (during : During r parts start h) (acc : ∃ store, AccountedBy r frames parts store)
    (kernel : ∀ c ≠ b, frames.kernel c = h.frames.kernel c)
    (here : frames.kernel b ≠ none ∨ b < start.frames.nextKernel)
    (placed : b < start.frames.nextKernel → frames.kernel b = h.frames.kernel b ∧ ∃ j, start.live j = some b)
    (lt : b < frames.nextKernel) (grows : h.frames.nextKernel ≤ frames.nextKernel) :
    During r parts start ⟨frames,update h.live h.next (some b),h.next+1⟩ := by
  have fresh : h.live h.next = none := during.known.unused _ le_rfl
  have known : Known ⟨frames,update h.live h.next (some b),h.next+1⟩ := by
    constructor
    · intro k later
      simp only at later
      exact (update_of_ne (by omega) ..).trans (during.known.unused k (by omega))
    intro k c at_
    rcases eq_or_ne k h.next with rfl | other
    · cases (update_self ..).symm.trans at_
      exact lt
    exact lt_of_lt_of_le (during.known.blocks k c ((update_of_ne other ..).symm.trans at_)) grows
  refine ⟨acc,known,during.origin,?_,?_,?_,?_,Nat.le_succ_of_le during.further,le_trans during.later grows⟩
  · intro k old
    have other : k ≠ h.next := by
      rintro rfl
      exact old (during.origin.unused _ during.further)
    exact (update_of_ne other ..).trans (during.kept k old)
  · intro c below
    rcases eq_or_ne c b with rfl | other
    · exact (placed below).1.trans (during.old c below)
    · exact (kernel c other).trans (during.old c below)
  · intro c beyond
    rcases eq_or_ne c b with rfl | other
    · refine ⟨fun _ => ⟨h.next,update_self ..⟩,fun _ => ?_⟩
      exact here.resolve_right (not_lt.mpr beyond)
    simp only [kernel c other,during.new c beyond]
    constructor
    · rintro ⟨k,at_⟩
      have ne : k ≠ h.next := fun eq => by rw [eq,fresh] at at_; cases at_
      exact ⟨k,(update_of_ne ne ..).trans at_⟩
    rintro ⟨k,at_⟩
    have ne : k ≠ h.next := by
      rintro rfl
      cases (update_self ..).symm.trans at_
      exact other rfl
    exact ⟨k,(update_of_ne ne ..).symm.trans at_⟩
  intro k c at_ below
  rcases eq_or_ne k h.next with rfl | other
  · cases (update_self ..).symm.trans at_
    exact (placed below).2
  · exact during.shares k c ((update_of_ne other ..).symm.trans at_) below

lemma During.missed (during : During r parts start h) : During r parts start {h with next := h.next+1} := by
  obtain ⟨acc,known,origin,kept,old,new,shares,further,later⟩ := during
  exact ⟨acc,⟨fun k beyond => known.unused k (Nat.le_of_succ_le beyond),known.blocks⟩,origin,
    kept,old,new,shares,Nat.le_succ_of_le further,later⟩

lemma kmalloc_during (inst : r.Installed) (during : During r parts start h)
    (done : kmalloc r place sz h = (after,got)) : During r parts start after := by
  cases place with
  | refused =>
    cases done
    exact during.missed
  | shared b =>
    simp only [kmalloc,Heap.missed] at done
    split at done
    · rename_i fits
      cases done
      obtain ⟨k,at_⟩ := during.known.occupied_iff.mp fits.2
      refine during.add during.accounts (fun _ _ => rfl) ?_ (fun lt => ⟨rfl,?_⟩) (during.known.blocks k b at_) le_rfl
      · rcases Nat.lt_or_ge b start.frames.nextKernel with lt | beyond
        · exact .inr lt
        · exact .inl ((during.new b beyond).mpr ⟨k,at_⟩)
      · exact during.shares k b at_ lt
    cases done
    exact during.missed
  | fresh =>
    cases res : allocKpages r h.frames.coremap (blockPages sz) with
    | mk coremap addr =>
      simp only [kmalloc,res,Heap.missed] at done
      split at done
      · cases done
        exact during.missed
      rename_i nz
      cases done
      obtain ⟨store,acc⟩ := during.accounts
      have did : FrameOwners.step r h.frames (.allocKernel (blockPages sz)) = some {h.frames with
            coremap
            kernel := update h.frames.kernel h.frames.nextKernel (some ⟨addr,blockPages sz⟩)
            nextKernel := h.frames.nextKernel+1} := by
        simp only [FrameOwners.step,res,if_neg nz]
      refine during.add (allocKernel_accounted inst acc did)
        (fun c other => update_of_ne other ..) (.inl ?_) (fun lt => ?_)
        (Nat.lt_succ_self _) (Nat.le_succ _)
      · simp only [update_self]
        exact some_ne_none _
      · exact absurd during.later (not_le.mpr lt)

lemma kfree_during (during : During r parts start h) (mine : start.live ticket = none)
    (live : h.live ticket = some b) : ∃ after, kfree r ticket h = some after ∧ During r parts start after ∧
      after.live = update h.live ticket none ∧ after.frames.spaces = h.frames.spaces ∧
      after.frames.nextSpace = h.frames.nextSpace := by
  obtain ⟨accounts,known,origin,kept,old,new,shares,further,later⟩ := during
  have freed := known.freed ticket
  have rest : ∀ k, start.live k ≠ none → update h.live ticket none k = start.live k := by
    intro k here
    have other : k ≠ ticket := fun eq => here (eq ▸ mine)
    rw [update_of_ne other,kept k here]
  have left : ∀ {k c}, update h.live ticket none k = some c → h.live k = some c := by
    intro k c at_
    rcases eq_or_ne k ticket with rfl | other
    · rw [update_self] at at_
      cases at_
    · rwa [update_of_ne other] at at_
  have stays : ∀ c ≠ b, ((∃ k, h.live k = some c) ↔ ∃ k, update h.live ticket none k = some c) := by
    intro c ne
    constructor
    · rintro ⟨k,at_⟩
      have other : k ≠ ticket := by
        rintro rfl
        rw [live] at at_
        exact ne (some.inj at_).symm
      exact ⟨k,(update_of_ne other ..).trans at_⟩
    rintro ⟨k,at_⟩
    exact ⟨k,left at_⟩
  cases occupied : ({h with live := update h.live ticket none} : Heap).occupied b with
  | true =>
    have more := freed.occupied_iff.mp occupied
    refine ⟨{h with live := update h.live ticket none},?_,?_,rfl,rfl,rfl⟩
    · simp only [kfree,live,occupied,if_true]
    refine ⟨accounts,freed,origin,rest,old,fun c beyond => ?_,fun k c at_ => shares k c (left at_),further,later⟩
    rcases eq_or_ne c b with rfl | ne
    · exact ⟨fun _ => more,fun _ => (new c beyond).mpr ⟨ticket,live⟩⟩
    · exact (new c beyond).trans (stays c ne)
  | false =>
    have empty : ¬∃ k, update h.live ticket none k = some b := fun more => by
      rw [freed.occupied_iff.mpr more] at occupied
      cases occupied
    have beyond : start.frames.nextKernel ≤ b := by
      -- an old block is shared with memory that was there before
      by_contra lt
      obtain ⟨j,at_⟩ := shares ticket b live (not_le.mp lt)
      exact empty ⟨j,(rest j (by rw [at_]; exact some_ne_none _)).trans at_⟩
    obtain ⟨block,here⟩ := ne_none_iff_exists'.mp ((new b beyond).mpr ⟨ticket,live⟩)
    obtain ⟨store,acc⟩ := accounts
    obtain ⟨coremap,given,accounts⟩ := freeKernel_accounted acc here
    have did : FrameOwners.step r h.frames (.freeKernel b) =
        some {h.frames with coremap,kernel := update h.frames.kernel b none} := by
      simp only [FrameOwners.step,here,given,Option.map_some]
    refine ⟨⟨{h.frames with coremap,kernel := update h.frames.kernel b none},
      update h.live ticket none,h.next⟩,?_,?_,rfl,rfl,rfl⟩
    · simp only [kfree,live,occupied,did,Option.map_some]
      rfl
    refine ⟨accounts,⟨freed.unused,freed.blocks⟩,origin,rest,fun c lt => ?_,fun c far => ?_,
      fun k c at_ => shares k c (left at_),further,later⟩
    · have ne : c ≠ b := by omega
      exact (update_of_ne ne ..).trans (old c lt)
    rcases eq_or_ne c b with rfl | ne
    · simp only [update_self,ne_eq,not_true_eq_false,false_iff]
      exact empty
    simp only [update_of_ne ne]
    exact (new c far).trans (stays c ne)

lemma During.restored (during : During r parts start h) (acc : AccountedBy r start.frames parts store)
    (live : h.live = start.live) : h.frames.coremap = start.frames.coremap := by
  obtain ⟨ne,two⟩ := during.accounts
  have kernel : h.frames.kernel = start.frames.kernel := by
    funext b
    rcases Nat.lt_or_ge b start.frames.nextKernel with lt | beyond
    · exact during.old b lt
    rw [acc.freshKernel b beyond]
    by_contra here
    obtain ⟨k,at_⟩ := (during.new b beyond).mp here
    rw [live] at at_
    exact absurd (during.origin.blocks k b at_) (not_lt.mpr beyond)
  have holds : ne.holds = store.holds := by
    funext o
    cases o with
    | space k p => rw [two.spaces,acc.spaces]
    | kernel ticket => rw [two.kernel,acc.kernel,kernel]
  exact acc.represents.unique two.represents fun b => by rw [holds]

-- What the path has got so far and not given back.
structure Holding (r : Ram) (parts : Nat → Part → Option Block) (start : Heap) (got : List Nat)
    (h : Heap) : Prop extends During r parts start h where
  mine : ∀ t ∈ got, start.live t = none
  live : ∀ t ∈ got, h.live t ≠ none
  rest : ∀ t, t ∉ got → h.live t = start.live t
  nodup : got.Nodup

lemma Holding.refl (acc : AccountedBy r start.frames parts store) (known : Known start) :
    Holding r parts start [] start :=
  ⟨.refl acc known,fun _ no => absurd no not_mem_nil,fun _ no => absurd no not_mem_nil,fun _ _ => rfl,nodup_nil⟩

lemma Holding.perm (held : Holding r parts start got h) (order : got.Perm other) : Holding r parts start other h :=
  ⟨held.toDuring,fun t among => held.mine t (order.mem_iff.mpr among),
    fun t among => held.live t (order.mem_iff.mpr among),
    fun t miss => held.rest t fun among => miss (order.mem_iff.mp among),
    order.nodup_iff.mp held.nodup⟩

lemma Holding.respaced (held : Holding r parts start got h)
    (acc : AccountedBy r frames parts' store) (kernel : frames.kernel = h.frames.kernel)
    (next : frames.nextKernel = h.frames.nextKernel) : Holding r parts' start got {h with frames} :=
  ⟨held.toDuring.respaced acc kernel next,held.mine,held.live,held.rest,held.nodup⟩

lemma kmalloc_holding (inst : r.Installed) (held : Holding r parts start got h)
    (done : kmalloc r place sz h = (after,res)) :
    (res = none ∧ Holding r parts start got after ∧ after = {h with next := h.next+1}) ∨
    ∃ t, res = some t ∧ Holding r parts start (t :: got) after := by
  have during := kmalloc_during inst held.toDuring done
  rcases kmalloc_cases done with ⟨none_,rfl⟩ | ⟨b,some_,live,_⟩
  · exact .inl ⟨none_,⟨during,held.mine,held.live,held.rest,held.nodup⟩,rfl⟩
  have fresh : h.live h.next = none := held.known.unused _ le_rfl
  have miss : h.next ∉ got := fun among => held.live _ among fresh
  refine .inr ⟨h.next,some_,during,?_,?_,?_,nodup_cons.mpr ⟨miss,held.nodup⟩⟩
  · intro t among
    rcases mem_cons.mp among with rfl | old
    · exact held.origin.unused _ held.further
    · exact held.mine t old
  · intro t among
    rw [live]
    rcases eq_or_ne t h.next with rfl | ne
    · rw [update_self]
      exact some_ne_none _
    rw [update_of_ne ne]
    exact held.live t ((mem_cons.mp among).resolve_left ne)
  intro t missing
  rw [mem_cons,not_or] at missing
  rw [live,update_of_ne missing.1]
  exact held.rest t missing.2

lemma kfree_holding (held : Holding r parts start got h) (among : t ∈ got) :
    ∃ after, kfree r t h = some after ∧ Holding r parts start (got.erase t) after ∧
      after.frames.spaces = h.frames.spaces ∧ after.frames.nextSpace = h.frames.nextSpace := by
  obtain ⟨b,live⟩ := ne_none_iff_exists'.mp (held.live t among)
  obtain ⟨after,freed,during,left,spaces,next⟩ := kfree_during held.toDuring (held.mine t among) live
  have erased : ∀ {k}, k ∈ got.erase t ↔ k ≠ t ∧ k ∈ got := held.nodup.mem_erase_iff
  refine ⟨after,freed,⟨during,fun k here => held.mine k (erased.mp here).2,?_,?_,held.nodup.erase t⟩,spaces,next⟩
  · intro k here
    obtain ⟨ne,old⟩ := erased.mp here
    rw [left,update_of_ne ne]
    exact held.live k old
  intro k missing
  rw [left]
  rcases eq_or_ne k t with rfl | ne
  · rw [update_self,held.mine k among]
  rw [update_of_ne ne]
  exact held.rest k fun old => missing (erased.mpr ⟨ne,old⟩)

def release (r : Ram) : List Nat → Heap → Option Heap
  | [],h => some h
  | ticket :: rest,h => (kfree r ticket h).bind (release r rest)

lemma release_holding (held : Holding r parts start (tickets++got) h) :
    ∃ after, release r tickets h = some after ∧ Holding r parts start got after ∧
      after.frames.spaces = h.frames.spaces ∧ after.frames.nextSpace = h.frames.nextSpace := by
  induction tickets generalizing h with
  | nil => exact ⟨h,rfl,held,rfl,rfl⟩
  | cons t rest ih =>
    obtain ⟨mid,freed,less,spaces,next⟩ := kfree_holding held mem_cons_self
    rw [cons_append,erase_cons_head] at less
    obtain ⟨after,released,final,sameSpaces,sameNext⟩ := ih less
    exact ⟨after,by rw [release,freed,Option.bind_some,released],final,sameSpaces.trans spaces,sameNext.trans next⟩

lemma release_all (held : Holding r parts start tickets h) :
    ∃ after, release r tickets h = some after ∧ Holding r parts start [] after ∧
      after.frames.spaces = h.frames.spaces ∧ after.frames.nextSpace = h.frames.nextSpace := by
  rw [←append_nil tickets] at held
  exact release_holding held

lemma release_keeps (done : release r tickets h = some after) (ne : t ∉ tickets) : after.live t = h.live t := by
  induction tickets generalizing h with
  | nil => cases done; rfl
  | cons ticket rest ih =>
    obtain ⟨mid,freed,left⟩ := bind_eq_some_iff.mp done
    rw [mem_cons,not_or] at ne
    rw [ih left ne.2,(kfree_live freed).1,update_of_ne ne.1]

lemma release_known (known : Known h) (done : release r tickets h = some after) : Known after := by
  induction tickets generalizing h with
  | nil => cases done; exact known
  | cons ticket rest ih =>
    obtain ⟨mid,freed,left⟩ := bind_eq_some_iff.mp done
    exact ih (kfree_known known freed) left

lemma Holding.finished (held : Holding r parts start [] h) (acc : AccountedBy r start.frames parts store) :
    h.live = start.live ∧ h.frames.coremap = start.frames.coremap := by
  have live : h.live = start.live := funext fun t => held.rest t not_mem_nil
  exact ⟨live,held.toDuring.restored acc live⟩

end
end ToyOS.KernelHeap

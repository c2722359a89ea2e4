import ToyOS.Tlb

namespace ToyOS.UserCopy
open Function UserSpace Tlb

def wrapPred (n : Nat) : Nat := if n = 0 then 2^32-1 else wrap (n-1)

def copycheck (userptr len : Nat) : Except Errno Nat :=
  let top := wrapPred (userptr+len)
  if top < userptr then .error .efault
  else if userspacetop ≤ userptr then .error .efault
  else if userspacetop ≤ top then .ok (userspacetop-userptr)
  else .ok len

inductive StoreResult where
  | stored (c : Cpu)
  | badfault
  | exits
  | assertion

-- A store through a clean entry raises EX_MOD, where vm_fault makes the process exit.
def storeHit (c : Cpu) (i : Fin numTlb) : StoreResult :=
  if (c.tlb i).dirty then .stored c else .exits

def store (random : Nat → Fin numTlb) (c : Cpu) (addr : Nat) : StoreResult :=
  match lookup c.tlb (pageFrame addr) with
  | some i => storeHit c i
  | none => match vmFault c.space c.loaded c.tlb (random addr) .write addr with
    | .installed tlb => match lookup tlb (pageFrame addr) with
      | some i => storeHit {c with tlb := tlb} i
      | none => .assertion
    | .error _ => .badfault
    | .exits => .exits
    | .assertion => .assertion

def storeAll (random : Nat → Fin numTlb) : Cpu → List Nat → StoreResult
  | c,[] => .stored c
  | c,addr :: rest => match store random c addr with
    | .stored next => storeAll random next rest
    | other => other

inductive CopyResult where
  | copied (c : Cpu)
  | error (errno : Errno)
  | exits
  | assertion

def copyout (random : Nat → Fin numTlb) (c : Cpu) (userdest len : Nat) : CopyResult :=
  match copycheck userdest len with
  | .error errno => .error errno
  | .ok stoplen =>
    if stoplen ≠ len then .error .efault
    else match storeAll random c ((List.range len).map (userdest+·)) with
      | .stored next => .copied next
      | .badfault => .error .efault
      | .exits => .exits
      | .assertion => .assertion

def ReadOnly (c : Cpu) (addr : Nat) : Prop :=
  segmentOf c.space (pageFrame addr) = some .text ∧ c.loaded = true

def Unmapped (c : Cpu) (addr : Nat) : Prop := segmentOf c.space (pageFrame addr) = none

instance : Decidable (ReadOnly c addr) := inferInstanceAs (Decidable (_ ∧ _))
instance : Decidable (Unmapped c addr) := inferInstanceAs (Decidable (_ = _))

lemma entryFor_dirty {seg : Segment} : (entryFor page paddr seg load).dirty ↔ ¬ (seg = .text ∧ load) := by
  cases seg <;> cases load <;> simp [entryFor]

lemma storeHit_cases (coh : Coherent c) (hit : lookup c.tlb (pageFrame addr) = some i) :
    ¬ Unmapped c addr ∧ ((ReadOnly c addr ∧ storeHit c i = .exits) ∨
      (¬ ReadOnly c addr ∧ storeHit c i = .stored c)) := by
  obtain ⟨ok,eq⟩ := lookup_some hit
  obtain ⟨seg,paddr,segmented,_,entry⟩ := coh i ok
  rw [eq] at segmented
  have writable : (c.tlb i).dirty ↔ ¬ ReadOnly c addr := by
    rw [entry,entryFor_dirty]
    simp [ReadOnly,segmented]
  refine ⟨by simp [Unmapped,segmented],?_⟩
  by_cases text : ReadOnly c addr
  · exact .inl ⟨text,by simp [storeHit,writable,text]⟩
  · exact .inr ⟨text,by simp [storeHit,writable,text]⟩

lemma store_cases (ok : CpuInvariant c) (random : Nat → Fin numTlb) (addr : Nat) :
    (Unmapped c addr ∧ store random c addr = .badfault) ∨ (ReadOnly c addr ∧ store random c addr = .exits) ∨
    ∃ next, ¬ Unmapped c addr ∧ ¬ ReadOnly c addr ∧ store random c addr = .stored next ∧
      next.space = c.space ∧ next.loaded = c.loaded ∧ CpuInvariant next := by
  obtain ⟨mapped,coh⟩ := ok
  cases found : lookup c.tlb (pageFrame addr) with
  | some i =>
    have hit : store random c addr = storeHit c i := by simp [store,found]
    obtain ⟨here,⟨text,exited⟩ | ⟨text,stored⟩⟩ := storeHit_cases coh found
    · exact .inr (.inl ⟨text,hit.trans exited⟩)
    · exact .inr (.inr ⟨c,here,text,hit.trans stored,rfl,rfl,mapped,coh⟩)
  | none =>
    rcases vmFault_cases mapped c.loaded c.tlb (random addr) addr (show FaultType.write ≠ .readonly by decide) with
      ⟨miss,bad⟩ | ⟨seg,paddr,segmented,entry,inst⟩
    · exact .inl ⟨miss,by simp [store,found,bad]⟩
    let slot := (firstInvalid c.tlb).getD (random addr)
    let next : Cpu := {c with
      tlb := update c.tlb slot (entryFor (pageFrame addr) paddr seg c.loaded)}
    have retried : lookup next.tlb (pageFrame addr) = some slot := lookup_update found
    have coherentNext : Coherent next := installed_coherent coh segmented entry
    have hit : store random c addr = storeHit next slot := by
      simp only [store,found,inst]
      change (match lookup next.tlb (pageFrame addr) with
        | some i => storeHit next i
        | none => .assertion) = storeHit next slot
      rw [retried]
    obtain ⟨here,⟨text,exited⟩ | ⟨text,stored⟩⟩ := storeHit_cases coherentNext retried
    · exact .inr (.inl ⟨text,hit.trans exited⟩)
    · exact .inr (.inr ⟨next,here,text,hit.trans stored,rfl,rfl,mapped,coherentNext⟩)

def firstBlocked (c : Cpu) (addrs : List Nat) : Option Nat :=
  addrs.find? fun addr => decide (Unmapped c addr ∨ ReadOnly c addr)

lemma storeAll_cases (ok : CpuInvariant c) (random : Nat → Fin numTlb) (addrs : List Nat) :
    (∃ next, firstBlocked c addrs = none ∧ storeAll random c addrs = .stored next) ∨
    ∃ addr, firstBlocked c addrs = some addr ∧ ((Unmapped c addr ∧ storeAll random c addrs = .badfault) ∨
       (ReadOnly c addr ∧ storeAll random c addrs = .exits)) := by
  induction addrs generalizing c with
  | nil => exact .inl ⟨c,rfl,rfl⟩
  | cons addr rest ih =>
    rcases store_cases ok random addr with ⟨miss,bad⟩ | ⟨text,exited⟩ |
      ⟨next,here,writable,stored,sameSpace,sameLoaded,validNext⟩
    · exact .inr ⟨addr,by simp [firstBlocked,miss],.inl ⟨miss,by simp [storeAll,bad]⟩⟩
    · exact .inr ⟨addr,by simp [firstBlocked,text],.inr ⟨text,by simp [storeAll,exited]⟩⟩
    have sameTests : ∀ a, (Unmapped next a ↔ Unmapped c a) ∧ (ReadOnly next a ↔ ReadOnly c a) := by
      intro a
      simp [Unmapped,ReadOnly,sameSpace,sameLoaded]
    have skipped : firstBlocked c (addr :: rest) = firstBlocked next rest := by
      simp [firstBlocked,here,writable,sameTests]
    rcases ih validNext with ⟨final,clear,done⟩ | ⟨blocked,one,outcome⟩
    · exact .inl ⟨final,by rw [skipped]; exact clear,by simp [storeAll,stored,done]⟩
    refine .inr ⟨blocked,by rw [skipped]; exact one,?_⟩
    rcases outcome with ⟨miss,bad⟩ | ⟨text,exited⟩
    · exact .inl ⟨(sameTests blocked).1.mp miss,by simp [storeAll,stored,bad]⟩
    · exact .inr ⟨(sameTests blocked).2.mp text,by simp [storeAll,stored,exited]⟩

def Addresses (userdest len : Nat) : List Nat := (List.range len).map (userdest+·)

lemma copycheck_whole (addr : userdest < 2^32) (nonempty : 0 < len) (short : len < 2^31) :
    copycheck userdest len = .ok len ↔ userdest+len ≤ userspacetop := by
  by_cases wraps : userdest+len-1 < 2^32
  · have top : wrapPred (userdest+len) = userdest+len-1 := by
      simp only [wrapPred,wrap]
      split <;> omega
    simp only [copycheck,top]
    split
    · omega
    split
    · simp only [reduceCtorEq,false_iff]; omega
    split
    · simp only [Except.ok.injEq]; omega
    · simp only [true_iff]; omega
  -- The sum wraps and the first test sees it.
  have top : wrapPred (userdest+len) < userdest := by
    simp only [wrapPred,wrap]
    split <;> omega
  simp only [copycheck,top,↓reduceIte,reduceCtorEq,false_iff]
  unfold userspacetop
  omega

lemma copycheck_error (checked : copycheck userdest len = .error errno) : errno = .efault := by
  simp only [copycheck] at checked
  split at checked
  · cases checked; rfl
  split at checked
  · cases checked; rfl
  · split at checked <;> cases checked

lemma copyout_refused (refused : copycheck userdest len ≠ .ok len) :
    copyout random c userdest len = .error .efault := by
  cases checked : copycheck userdest len with
  | error errno =>
    cases copycheck_error checked
    simp only [copyout,checked]
  | ok stoplen =>
    have ne : stoplen ≠ len := by
      intro eq
      rw [checked,eq] at refused
      exact refused rfl
    simp only [copyout,checked,ne_eq,ne,not_false_eq_true,↓reduceIte]

def HitsText (c : Cpu) (userdest len : Nat) : Prop :=
  userdest+len ≤ userspacetop ∧
    ∃ addr, firstBlocked c (Addresses userdest len) = some addr ∧ ReadOnly c addr

def Writable (c : Cpu) (userdest len : Nat) : Prop :=
  userdest+len ≤ userspacetop ∧ firstBlocked c (Addresses userdest len) = none

lemma copyout_cases (ok : CpuInvariant c) (random : Nat → Fin numTlb) (address : userdest < 2^32) (nonempty : 0 < len)
    (short : len < 2^31) : (Writable c userdest len ∧ ∃ next, copyout random c userdest len = .copied next) ∨
    (HitsText c userdest len ∧ copyout random c userdest len = .exits) ∨
    (¬ Writable c userdest len ∧ ¬ HitsText c userdest len ∧ copyout random c userdest len = .error .efault) := by
  have whole := copycheck_whole address nonempty short
  by_cases lt : userdest+len ≤ userspacetop
  · have checked := whole.mpr lt
    have memcpy : copyout random c userdest len = match storeAll random c (Addresses userdest len) with
        | .stored next => .copied next
        | .badfault => .error .efault
        | .exits => .exits
        | .assertion => .assertion := by
      simp [copyout,checked,Addresses]
    rcases storeAll_cases ok random (Addresses userdest len) with
      ⟨next,clear,stored⟩ | ⟨addr,one,⟨miss,bad⟩ | ⟨text,exited⟩⟩
    · exact .inl ⟨⟨lt,clear⟩,next,by rw [memcpy,stored]⟩
    · refine .inr (.inr ⟨?_,?_,by rw [memcpy,bad]⟩)
      · intro writable
        rw [writable.2] at one
        cases one
      intro hits
      obtain ⟨_,ne,hit,text⟩ := hits
      rw [one] at hit
      cases hit
      rw [Unmapped,text.1] at miss
      cases miss
    · exact .inr (.inl ⟨⟨lt,addr,one,text⟩,by rw [memcpy,exited]⟩)
  refine .inr (.inr ⟨fun writable => lt writable.1,fun hits => lt hits.1,?_⟩)
  exact copyout_refused fun checked => lt (whole.mp checked)

lemma writable_clear (writable : Writable c userdest len) : ¬ HitsText c userdest len := by
  intro hits
  obtain ⟨_,addr,one,_⟩ := hits
  rw [writable.2] at one
  cases one
end ToyOS.UserCopy

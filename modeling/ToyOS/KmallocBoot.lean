import ToyOS.Kmalloc

namespace ToyOS.KmallocBoot
open Function UserSpace BlockStore Coremap KernelPages Kmalloc Option

-- The kernel heap from the start of boot on.
structure State where
  heap : Heap
  vm : Vm
  live : Nat → Option Object
  next : Nat

def initial (ram : Ram) : State := ⟨emptyHeap,⟨.early ram,[],fun _ => none⟩,fun _ => none,0⟩

inductive Event where
  | kmalloc (sz : Nat)
  | kfree (ticket : Nat)
  | bootstrap

def step (s : State) : Event → Option State
  | .kmalloc sz => (kmalloc s.heap s.vm sz).map fun (heap,vm,ptr) =>
    ⟨heap,vm,if ptr = 0 then s.live else update s.live s.next (some ⟨ptr,sz⟩),s.next+1⟩
  | .kfree ticket => match s.live ticket with
      | none => none
      | some x => (kfree s.heap s.vm x.ptr).map fun (heap,vm) =>
        {s with heap,vm,live := update s.live ticket none}
  | .bootstrap => s.vm.bootstrap.map fun vm => {s with vm}

def passes (s : State) (ticket : Nat) : Option Nat := do
  let x ← s.live ticket
  let result ← releases s.heap x.ptr
  result.2

def Unstolen (s : State) : Event → Prop
  | .kmalloc sz => ∀ ram, s.vm.phase = .early ram → sz ≤ 2^31
  | .kfree ticket => ∀ ram coremap, s.vm.phase = .booted ram coremap →
      ∀ addr, passes s ticket = some addr → addr ∉ s.vm.stolen
  | .bootstrap => True

def unstolen (s : State) : Event → Bool
  | .kmalloc sz => match s.vm.phase with
      | .early _ => decide (sz ≤ 2^31)
      | .booted _ _ => true
  | .kfree ticket => match passes s ticket with
      | none => true
      | some addr => decide (addr ∉ s.vm.stolen)
  | .bootstrap => true

lemma unstolen_sound (tested : unstolen s event) : Unstolen s event := by
  cases event with
  | kmalloc sz =>
    intro ram phase
    rw [unstolen,phase] at tested
    exact of_decide_eq_true tested
  | kfree ticket =>
    intro ram coremap _ addr passed
    rw [unstolen,passed] at tested
    exact of_decide_eq_true tested
  | bootstrap => trivial

def Reached (ram : Ram) (s : State) : Prop := Transition.Reached step Unstolen (initial ram) s

structure Sound (s : State) (pages : Pages PageOwner) : Prop where
  backed : Backed s.vm pages
  integrity : Integrity s.heap s.live pages
  below : StolenBelow s.vm
  unused : ∀ k, s.next ≤ k → s.live k = none

lemma initial_sound (aligned : Aligned ram) : Sound (initial ram) .empty := by
  refine ⟨(backed_early rfl).mpr ⟨aligned,?_⟩,empty_integrity,?_,fun _ _ => rfl⟩
  · intro o b no
    cases no
  intro addr no
  cases no

lemma findFree_mem (hit : findFree h t list = some (some j)) : j ∈ list := by
  induction list with
  | nil => cases hit
  | cons i rest ih =>
    unfold findFree at hit
    split at hit
    · cases hit
    split at hit
    · cases hit
      exact List.mem_cons_self
    · exact List.mem_cons_of_mem _ (ih hit)

lemma subpageKmalloc_cases (res : subpageKmalloc h vm sz = some (after,final,ptr)) :
    ∃ t, (∃ j ∈ h.sizebases t, doalloc h j = some (after,ptr) ∧ final = vm) ∨
      ∃ fresh prpage, vm.allocKpages 1 = (fresh,prpage) ∧ ((after = h ∧ final = fresh ∧ ptr = 0 ∧ prpage = 0) ∨
         (after = h ∧ fresh.freeKpages prpage = some final ∧ ptr = 0 ∧ prpage ≠ 0) ∨
         ∃ j, prpage ≠ 0 ∧ allocpageref h = some j ∧ final = fresh ∧
           doalloc (enlist h j t prpage) j = some (after,ptr)) := by
  obtain ⟨t,_,res⟩ := bind_eq_some_iff.mp res
  obtain ⟨hit,search,res⟩ := bind_eq_some_iff.mp res
  refine ⟨t,?_⟩
  cases hit with
  | some j =>
    obtain ⟨⟨heap,addr⟩,did,res⟩ := bind_eq_some_iff.mp res
    cases some.inj res
    exact .inl ⟨j,findFree_mem search,did,rfl⟩
  | none =>
    cases alloc : vm.allocKpages 1 with
    | mk fresh prpage =>
      rw [alloc] at res
      refine .inr ⟨fresh,prpage,rfl,?_⟩
      by_cases bad : prpage = 0
      · simp only [bad,if_true] at res
        cases some.inj res
        exact .inl ⟨rfl,rfl,rfl,bad⟩
      simp only [bad,if_false] at res
      cases pageref : allocpageref h with
      | none =>
        rw [pageref] at res
        obtain ⟨freed,done,res⟩ := bind_eq_some_iff.mp res
        cases some.inj res
        exact .inr (.inl ⟨rfl,done,rfl,bad⟩)
      | some j =>
        rw [pageref] at res
        obtain ⟨⟨heap,addr⟩,did,res⟩ := bind_eq_some_iff.mp res
        cases some.inj res
        exact .inr (.inr ⟨j,bad,rfl,rfl,did⟩)

section
variable {s after : State} {pages : Pages PageOwner}

lemma Sound.fresh (sound : Sound s pages) : s.live s.next = none :=
  sound.unused s.next le_rfl

lemma Sound.issued (sound : Sound s pages) (later : s.next+1 ≤ k) (x : Option Object) :
    update s.live s.next x k = none := by
  rw [update_of_ne (by omega)]
  exact sound.unused k (by omega)

lemma largePages_small (big : largestSubpageSize ≤ sz) (bounded : sz ≤ 2^31) :
    0 < largePages sz ∧ largePages sz ≤ 2^19 := by
  unfold largePages wrap
  unfold largestSubpageSize at big
  unfold pageSize
  omega

section
variable (sound : Sound s pages)
include sound

lemma large_sound (big : largestSubpageSize ≤ sz) (may : Unstolen s (.kmalloc sz))
    (res : kmalloc s.heap s.vm sz = some (heap,vm,ptr)) :
    ∃ pages, Sound ⟨heap,vm,if ptr = 0 then s.live else update s.live s.next (some ⟨ptr,sz⟩),s.next+1⟩ pages := by
  have small : ∀ ram, s.vm.phase = .early ram → 0 < largePages sz ∧ largePages sz ≤ 2^19 :=
    fun ram phase => largePages_small big (may ram phase)
  have unheld : pages.holds (.large s.next) = none :=
    sound.integrity.noLarge s.next fun x at_ => by rw [sound.fresh] at at_; cases at_
  cases alloc : s.vm.allocKpages (largePages sz) with
  | mk next addr =>
    rw [kmalloc,if_pos big,alloc] at res
    cases some.inj res
    have lt := allocKpages_stolen sound.backed sound.below small alloc
    rcases allocKpages_granted sound.backed unheld small alloc with
      ⟨rfl,backed⟩ | ⟨page,⟨rfl,nz⟩,_,le,vacant,backed⟩
    · exact ⟨pages,backed,sound.integrity,lt,fun k later => sound.unused k (by
        simp only at later
        omega)⟩
    rw [if_neg nz]
    exact ⟨_,backed,large_integrity sound.integrity big le vacant,lt,fun k later => sound.issued later _⟩

lemma subpage_sound (little : sz < largestSubpageSize) (res : subpageKmalloc s.heap s.vm sz = some (heap,vm,ptr)) :
    ∃ pages, Sound ⟨heap,vm,if ptr = 0 then s.live else update s.live s.next (some ⟨ptr,sz⟩),s.next+1⟩ pages := by
  have one : ∀ ram, s.vm.phase = .early ram → 0 < 1 ∧ 1 ≤ 2^19 := fun _ _ => by decide
  have unissued : ∀ k, s.next+1 ≤ k → s.live k = none := fun k later => sound.unused k (by omega)
  obtain ⟨t,⟨j,mem,did,rfl⟩ | ⟨fresh,prpage,alloc,ways⟩⟩ := subpageKmalloc_cases res
  · have listed := ((sound.integrity.sized t j).mp mem).1
    obtain ⟨integrity,nz⟩ := doalloc_integrity sound.integrity listed sound.fresh little did
    rw [if_neg nz]
    exact ⟨pages,sound.backed,integrity,sound.below,fun k later => sound.issued later _⟩
  have lt := allocKpages_stolen sound.backed sound.below one alloc
  rcases ways with ⟨rfl,rfl,rfl,rfl⟩ | ⟨rfl,freed,rfl,some_⟩ | ⟨j,some_,pageref,rfl,did⟩
  · -- no page
    rcases allocKpages_granted (o := .spare) sound.backed sound.integrity.noSpare one alloc with
      ⟨_,backed⟩ | ⟨_,⟨_,nz⟩,_⟩
    · exact ⟨pages,backed,sound.integrity,lt,unissued⟩
    · exact absurd rfl nz
  · -- no pageref: the page goes back
    rcases allocKpages_granted (o := .spare) sound.backed sound.integrity.noSpare one alloc with
      ⟨bad,_⟩ | ⟨page,⟨rfl,_⟩,late,le,vacant,backed⟩
    · exact absurd bad some_
    cases phase : fresh.phase with
    | early ram => rw [Vm.freeKpages,phase] at freed; cases freed
    | booted ram coremap =>
      have held : (pages.add .spare ⟨page,1⟩ le vacant).holds .spare = some ⟨page,1⟩ := by
        rw [Store.add_holds,update_self]
      obtain ⟨_,final,done,restored⟩ := freeKpages_backed phase backed held (late ram coremap phase)
      rw [freed] at done
      cases some.inj done
      rw [pages.remove_add le vacant sound.integrity.noSpare] at restored
      exact ⟨pages,restored,sound.integrity,freeKpages_stolen lt freed,unissued⟩
  -- a fresh page
  obtain ⟨range,unlisted⟩ := allocpageref_unused sound.integrity pageref
  rcases allocKpages_granted sound.backed (sound.integrity.unmanaged j unlisted) one alloc with
    ⟨bad,_⟩ | ⟨page,⟨rfl,nz⟩,_,le,vacant,backed⟩
  · exact absurd bad some_
  have enlisted := enlist_integrity sound.integrity range unlisted le vacant nz t
  obtain ⟨integrity,ret⟩ := doalloc_integrity enlisted List.mem_cons_self sound.fresh little did
  rw [if_neg ret]
  exact ⟨_,backed,integrity,lt,fun k later => sound.issued later _⟩

lemma kmalloc_sound (may : Unstolen s (.kmalloc sz))
    (did : step s (.kmalloc sz) = some after) : ∃ pages, Sound after pages := by
  obtain ⟨⟨heap,vm,ptr⟩,res,rfl⟩ := map_eq_some_iff.mp did
  rcases Nat.lt_or_ge sz largestSubpageSize with little | big
  · rw [kmalloc,if_neg (not_le.mpr little)] at res
    exact subpage_sound sound little res
  · exact large_sound sound big may res

lemma passes_held (passed : passes s ticket = some addr) :
    ∃ page npages o, addr = page*pageSize ∧ pages.holds o = some ⟨page,npages⟩ := by
  obtain ⟨x,at_,rest⟩ := bind_eq_some_iff.mp passed
  obtain ⟨res,released,given⟩ := bind_eq_some_iff.mp rest
  obtain ⟨heap,⟨nothing,_⟩ | ⟨page,npages,o,back,held,_⟩⟩ := releases_integrity sound.integrity at_
  · rw [released] at nothing
    cases some.inj nothing
    cases given
  rw [released] at back
  cases some.inj back
  cases some.inj given
  exact ⟨page,npages,o,rfl,held⟩

lemma kfree_sound (may : Unstolen s (.kfree ticket))
    (did : step s (.kfree ticket) = some after) : ∃ pages, Sound after pages := by
  have unused : ∀ k, s.next ≤ k → update s.live ticket none k = none := by
    intro k later
    rcases eq_or_ne k ticket with rfl | ne
    · exact update_self ..
    rw [update_of_ne ne]
    exact sound.unused k later
  cases at_ : s.live ticket with
  | none => rw [step,at_] at did; cases did
  | some x =>
    rw [step,at_] at did
    obtain ⟨⟨heap,vm⟩,res,rfl⟩ := map_eq_some_iff.mp did
    obtain ⟨released,le,rest⟩ := bind_eq_some_iff.mp res
    obtain ⟨left,⟨nothing,integrity⟩ | ⟨page,npages,o,back,held,integrity⟩⟩ := releases_integrity sound.integrity at_
    · rw [le] at nothing
      cases some.inj nothing
      cases some.inj rest
      exact ⟨pages,sound.backed,integrity,sound.below,unused⟩
    have passed : passes s ticket = some (page*pageSize) := by
      rw [passes,at_]
      simp only [Option.bind_eq_bind,Option.bind_some,back]
    rw [le] at back
    cases some.inj back
    obtain ⟨final,freed,rest⟩ := bind_eq_some_iff.mp rest
    cases some.inj rest
    cases phase : s.vm.phase with
    | early ram => rw [Vm.freeKpages,phase] at freed; cases freed
    | booted ram coremap =>
      have late := backed_late phase sound.backed held (may ram coremap phase _ passed)
      obtain ⟨_,vm,done,backed⟩ := freeKpages_backed phase sound.backed held late
      rw [freed] at done
      cases some.inj done
      exact ⟨_,backed,integrity,freeKpages_stolen sound.below freed,unused⟩

end

lemma reached_sound (aligned : Aligned ram) (path : Reached ram s) : ∃ pages, Sound s pages := by
  refine path.invariant (fun s => ∃ pages, Sound s pages) ⟨_,initial_sound aligned⟩ ?_
  rintro s event after _ ⟨pages,sound⟩ may did
  cases event with
  | kmalloc sz => exact kmalloc_sound sound may did
  | kfree ticket => exact kfree_sound sound may did
  | bootstrap =>
    obtain ⟨vm,booted,rfl⟩ := map_eq_some_iff.mp did
    exact ⟨pages,backed_bootstrap sound.backed booted,sound.integrity,bootstrap_stolen sound.below booted,sound.unused⟩

end

theorem kfree_heads_block_iff {ram r : Ram} {s : State} {coremap : Entries} {ticket addr : Nat}
    (aligned : Aligned ram) (path : Reached ram s) (booted : s.vm.phase = .booted r coremap)
    (passed : passes s ticket = some addr) :
    (r.index (kvaddrToPaddr addr) < r.numOfPages ∧
      s.vm.heads (r.index (kvaddrToPaddr addr)) ≠ none) ↔ addr ∉ s.vm.stolen := by
  obtain ⟨pages,sound⟩ := reached_sound aligned path
  constructor
  · rintro ⟨inside,_⟩ stolen
    obtain ⟨low,high⟩ := sound.below addr stolen
    rw [booted] at high
    have whole := ((backed_booted booted).mp sound.backed).1
    exact absurd inside (not_lt.mpr (stolen_index whole low high))
  intro kept
  obtain ⟨page,npages,o,rfl,held⟩ := passes_held sound passed
  have late := backed_late booted sound.backed held kept
  obtain ⟨⟨inside,head⟩,_⟩ := freeKpages_backed booted sound.backed held late
  exact ⟨inside,by rw [head]; exact some_ne_none _⟩

def bootRam : Ram := ⟨4096,17*4096,by decide,by decide⟩

lemma bootRam_aligned : Aligned bootRam :=
  ⟨by unfold Ram.Installed; decide,by decide,by decide⟩

theorem late_page_heads_block : ∃ s r coremap, Reached bootRam s ∧
    s.vm.phase = .booted r coremap ∧ passes s 1 = some 0x80003000 ∧ 0x80003000 ∉ s.vm.stolen ∧
    r.index (kvaddrToPaddr 0x80003000) < r.numOfPages ∧
      s.vm.heads (r.index (kvaddrToPaddr 0x80003000)) ≠ none := by
  have ran : ((Transition.run (Transition.guarded unstolen step) (initial bootRam)
      [.kmalloc 16,.bootstrap,.kmalloc 4096]).map fun s =>
        (decide (passes s 1 = some 0x80003000),decide (0x80003000 ∉ s.vm.stolen),
          s.vm.bootstrap.isNone)) = some (true,true,true) := by
    decide +kernel
  obtain ⟨s,reached,values⟩ := map_eq_some_iff.mp ran
  simp only [Prod.mk.injEq,decide_eq_true_eq] at values
  obtain ⟨passed,kept,done⟩ := values
  have path : Reached bootRam s := Transition.run_permitted (fun _ tested => unstolen_sound tested) .initial reached
  cases phase : s.vm.phase with
  | early ram => rw [Vm.bootstrap,phase] at done; cases done
  | booted r coremap =>
    have heads := (kfree_heads_block_iff bootRam_aligned path phase passed).mpr kept
    exact ⟨s,r,coremap,path,phase,passed,kept,heads.1,heads.2⟩

def Strays (s : State) (ticket : Nat) : Prop :=
  ∃ r coremap addr, s.vm.phase = .booted r coremap ∧ passes s ticket = some addr ∧
    r.numOfPages ≤ r.index (kvaddrToPaddr addr)

def strays (s : State) (ticket : Nat) : Bool :=
  match s.vm.phase,passes s ticket with
  | .booted r _,some addr => decide (r.numOfPages ≤ r.index (kvaddrToPaddr addr))
  | _,_ => false

lemma strays_sound (tested : strays s ticket) : Strays s ticket := by
  unfold strays at tested
  split at tested
  · rename_i r coremap addr phase passed
    exact ⟨r,coremap,addr,phase,passed,of_decide_eq_true tested⟩
  · cases tested

theorem stolen_page_outside_coremap :
    (∃ s, Transition.Reached step Transition.Free (initial bootRam) s ∧
      s.live 0 = some ⟨0x80001000,4096⟩ ∧ Strays s 0) ∧
    (∃ s, Transition.Reached step Transition.Free (initial bootRam) s ∧
      s.live 0 = some ⟨0x80001ff0,16⟩ ∧ Strays s 0) := by
  constructor
  · have ran : ((Transition.run step (initial bootRam) [.kmalloc 4096,.bootstrap]).map
        fun s => (s.live 0,strays s 0)) = some (some ⟨0x80001000,4096⟩,true) := by
      decide +kernel
    obtain ⟨s,reached,values⟩ := map_eq_some_iff.mp ran
    obtain ⟨live,tested⟩ := Prod.mk.inj values
    exact ⟨s,Transition.run_reached reached,live,strays_sound tested⟩
  have ran : ((Transition.run step (initial bootRam) [.kmalloc 16,.bootstrap]).map
      fun s => (s.live 0,strays s 0)) = some (some ⟨0x80001ff0,16⟩,true) := by
    decide +kernel
  obtain ⟨s,reached,values⟩ := map_eq_some_iff.mp ran
  obtain ⟨live,tested⟩ := Prod.mk.inj values
  exact ⟨s,Transition.run_reached reached,live,strays_sound tested⟩
end ToyOS.KmallocBoot

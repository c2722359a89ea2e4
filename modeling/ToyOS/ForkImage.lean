import ToyOS.RunningInvariant

namespace ToyOS.ForkImage
open Function UserSpace Tlb Coremap Traps ByteMemory FrameMemory Running Option
open FrameOwners (forkRam)

def waiting : Point → Bool
  | .starting _ => true
  | .forking _ _ => true
  | _ => false

lemma touches_moves (may : touches point vaddr) : waiting point = false := by
  cases point <;> first | rfl | cases may

lemma acts_waiting {l : Local} (waits : waiting l.proc.point)
    (acts : Acts r l a next) : a = .enterForkedProcess ∨ a = .forkReturns := by
  cases acts with
  | enterForked => exact .inl rfl
  | forkReturns => exact .inr rfl
  | createSpace ready => rcases ready with at_ | at_ <;> (rw [at_] at waits; cases waits)
  | fail ready => rcases ready with ⟨_,_,at_⟩ | ⟨_,_,at_⟩ | ⟨_,_,at_⟩ | at_ <;> (rw [at_] at waits; cases waits)
  | write may =>
    rw [touches_moves may] at waits
    cases waits
  | activateNew at_ | activateOld at_ | defineRegion at_ | prepared at_ | failed at_ =>
    rw [at_] at waits
    cases waits
  | completeLoad at_ | discard at_ | enterFirst at_ | enterNext at_ =>
    rw [at_] at waits
    cases waits

lemma spaces_apart (accounts : Accounts r frames) (filled : AllFilled r frames)
    (one : frames.spaces i = .prepared as) (two : frames.spaces j = .prepared bs) (ne : i ≠ j) : Separate as bs := by
  obtain ⟨parts,store,acc⟩ := accounts
  exact spaces_separate acc one two (filled i as one) (filled j bs two) ne

lemma write_inside (ok : LocalValid r l) (may : touches l.proc.point vaddr)
    (written : writeThrough l.tlb l.memory vaddr byte = some memory) :
    ∃ k as seg i, l.proc.space = some k ∧ l.frames.spaces k = .prepared as ∧ i < as.npages seg ∧
      memory = update l.memory (as.entry seg i+vaddr % pageSize) byte := by
  obtain ⟨j,hit,_,rfl⟩ := writeThrough_some written
  obtain ⟨some_,_⟩ := lookup_some hit
  obtain ⟨k,as,here,space,_,seg,paddr,region,entry,eq⟩ := (ok.tlb (touches_activated may)).entries j some_
  obtain ⟨i,lt,same⟩ := paddrOf_entry region entry
  refine ⟨k,as,seg,i,here,space,lt,?_⟩
  have frame : (l.tlb j).ppage = paddr := by rw [eq]; rfl
  rw [frame,same]

lemma update_same (sep : Separate other as) (lt : i < other.npages seg) (memory : Memory) (offset : Nat)
    (byte : UInt8) : Same as memory (update memory (other.entry seg i+offset % pageSize) byte) := by
  intro place j page inner inside
  refine update_of_ne (fun eq => ?_) ..
  have apart := (sep seg place i lt j page).symm.outside (inside_offset inside)
  rw [eq] at apart
  exact apart (inside_offset (Nat.mod_lt _ (by decide)))

lemma acts_same (inst : r.Installed) (ok : LocalValid r l) (acts : Acts r l a next)
    (away : l.proc.space ≠ some j) (space : l.frames.spaces j = .prepared as)
    (kept : next.frames.spaces j = .prepared as) : Same as l.memory next.memory := by
  have ne : ∀ {i}, l.proc.space = some i → i ≠ j := fun here eq => away (eq ▸ here)
  have after := act_valid inst ok acts
  cases acts with
  | @prepared image i bs junk load scrap at_ here place done =>
    have new : (update l.frames.spaces i (.prepared load.space)) i = .prepared load.space := update_self ..
    exact zero_same (spaces_apart after.accounts after.filled new kept (ne here)) _
  | failed =>
    obtain ⟨parts,store,acc⟩ := ok.accounts
    exact scrapped_same acc space (ok.filled j as space) _ _
  | write allowed written =>
    obtain ⟨i,bs,seg,m,here,place,lt,rfl⟩ := write_inside ok allowed written
    exact update_same (spaces_apart ok.accounts ok.filled place space (ne here)) lt _ _ _
  | _ => exact Same.refl _ _

lemma Copied.same (copied : Copied r s old new frames memory) (ok : Valid r s)
    (space : s.frames.spaces j = .prepared as) : Same as s.memory memory := by
  have here : s.frames.spaces j ≠ .absent := by
    rw [space]
    exact FrameOwners.Space.noConfusion
  have kept := copied.fresh ok.accounts here
  have fresh : frames.spaces s.frames.nextSpace = .prepared new := by rw [copied.spaces,update_self]
  have ne : s.frames.nextSpace ≠ j := by
    rintro rfl
    obtain ⟨parts,store,acc⟩ := ok.accounts
    exact here (acc.freshSpaces _ le_rfl)
  have filled : AllFilled r frames := by
    refine ok.filled.set ?_ copied.spaces
    intro bs eq
    cases eq
    exact copied.filled
  have sep := spaces_apart copied.accounts filled fresh (kept.trans space) ne
  rw [copied.bytes]
  exact (zero_same sep _).trans (copy_same sep _)

-- A waiting process: its record and its address space.
structure Waits (s : State) (m : Nat) (q : Proc) (j : Nat) (as : AddrSpace) : Prop where
  at_ : s.procs m = some q
  point : waiting q.point = true
  holds : q.space = some j
  space : s.frames.spaces j = .prepared as

def Stays (m : Nat) (s : State) (event : Event) : Prop :=
  s.current = some m → event ≠ .act .enterForkedProcess ∧ event ≠ .act .forkReturns

lemma Waits.others (waits : Waits s m q j as) (at_ : s.procs k = some p) (moves : waiting p.point = false) : m ≠ k := by
  rintro rfl
  cases waits.at_.symm.trans at_
  rw [waits.point] at moves
  cases moves

lemma Waits.free (waits : Waits s m q j as) (ok : Valid r s) (at_ : s.procs k = some p) (ne : m ≠ k) : ¬ p.Holds j :=
  fun held => ne (ok.apart m k q p j waits.at_ at_ (.inl waits.holds) held)

lemma Waits.present (waits : Waits s m q j as) : s.frames.spaces j ≠ .absent := by
  rw [waits.space]
  exact FrameOwners.Space.noConfusion

lemma user_moves (user : point = .user) : waiting point = false := by
  rw [user]
  rfl

lemma exit_waits (ok : Valid r s) (waits : Waits s m q j as) (at_ : s.procs k = some p)
    (moves : waiting p.point = false) (exited : sysExit r s k p = some after) :
    Waits after m q j as ∧ Same as s.memory after.memory := by
  obtain ⟨i,frames,some_,freed,rfl⟩ := sysExit_some exited
  have other := waits.others at_ moves
  have ne : j ≠ i := fun eq => waits.free ok at_ other (.inl (eq ▸ some_))
  refine ⟨⟨?_,waits.point,waits.holds,?_⟩,Same.refl _ _⟩
  · exact (update_of_ne other ..).trans waits.at_
  change frames.spaces j = _
  rw [(destroy_some freed).1,update_of_ne ne]
  exact waits.space

lemma step_waits (inst : r.Installed) (ok : Valid r s) (waits : Waits s m q j as) (stays : Stays m s event)
    (steps : Steps r s event after) : Waits after m q j as ∧ Same as s.memory after.memory := by
  cases steps with
  | @act k p a next hit acts =>
    obtain ⟨cur,at_⟩ := running_some hit
    have ne : m ≠ k := by
      rintro rfl
      cases waits.at_.symm.trans at_
      obtain ⟨one,two⟩ := stays cur
      rcases acts_waiting (l := s.at q) waits.point acts with rfl | rfl
      · exact one rfl
      · exact two rfl
    have local_ := ok.local cur at_
    have free := waits.free ok at_ ne
    have kept : next.frames.spaces j = .prepared as :=
      ((act_keeps local_ acts).spaces j free waits.present).trans waits.space
    exact ⟨⟨(update_of_ne ne ..).trans waits.at_,waits.point,waits.holds,kept⟩,
      acts_same inst local_ acts (fun here => free (.inl here)) waits.space kept⟩
  | retried | idle | dispatch => exact ⟨⟨waits.at_,waits.point,waits.holds,waits.space⟩,Same.refl _ _⟩
  | ignored => exact ⟨waits,Same.refl _ _⟩
  | killed hit may exited => exact exit_waits ok waits (running_some hit).2 (touches_moves may) exited
  | exit hit user exited => exact exit_waits ok waits (running_some hit).2 (user_moves user) exited
  | @fork k p child junk frames memory tf hit user free copied =>
    have at_ := (running_some hit).2
    obtain ⟨old,new,_,copy⟩ := copySpace_some inst ok.accounts copied
    have ne := waits.others at_ (user_moves user)
    have notChild : m ≠ child := by
      rintro rfl
      cases waits.at_.symm.trans free
    refine ⟨⟨?_,waits.point,waits.holds,?_⟩,Copied.same copy ok waits.space⟩
    · simp only [update_of_ne notChild,update_of_ne ne]
      exact waits.at_
    · exact (copy.fresh ok.accounts waits.present).trans waits.space
  | abandonFork hit user copied =>
    obtain ⟨old,new,_,copy⟩ := copySpace_some inst ok.accounts copied
    exact ⟨⟨waits.at_,waits.point,waits.holds,
      (copy.fresh ok.accounts waits.present).trans waits.space⟩,Copied.same copy ok waits.space⟩
  | @launch k idle free =>
    have ne : m ≠ k := by
      rintro rfl
      cases waits.at_.symm.trans free
    exact ⟨⟨(update_of_ne ne ..).trans waits.at_,waits.point,waits.holds,waits.space⟩,Same.refl _ _⟩
  | @reap k p at_ gone =>
    have ne := waits.others at_ (by rw [gone]; rfl)
    exact ⟨⟨(update_of_ne ne ..).trans waits.at_,waits.point,waits.holds,waits.space⟩,Same.refl _ _⟩
  | allocKernel done =>
    exact ⟨⟨waits.at_,waits.point,waits.holds,by rw [allocKernel_spaces done]; exact waits.space⟩,Same.refl _ _⟩
  | freeKernel done =>
    exact ⟨⟨waits.at_,waits.point,waits.holds,by rw [freeKernel_spaces done]; exact waits.space⟩,Same.refl _ _⟩

lemma run_waits (inst : r.Installed) (ok : Valid r s)
    (waits : Waits s m q j as) (run : Transition.Reached (step r) (Stays m) s after) :
    Valid r after ∧ Waits after m q j as ∧ Same as s.memory after.memory := by
  induction run with
  | initial => exact ⟨ok,waits,Same.refl _ _⟩
  | next _ stays did ih =>
    obtain ⟨ok,waits,eq⟩ := ih
    have steps := step_sound did
    obtain ⟨later,more⟩ := step_waits inst ok waits stays steps
    exact ⟨step_valid inst ok steps,later,eq.trans more⟩

lemma fork_waits (inst : r.Installed) (ok : Valid r s) (hit : s.running = some (k,p))
    (space : spaceOf s.frames p.space = some old) (did : step r s (.fork tf junk child) = some after) :
    ∃ i j new, Waits after k {p with point := .forking tf child} i old ∧
      Waits after child (newChild j tf) j new ∧ regions new = regions old ∧ Separate new old ∧
      Same old s.memory after.memory ∧ ∀ seg, ∀ page < new.npages seg, ∀ offset < pageSize,
        after.memory (new.entry seg page+offset) = s.memory (old.entry seg page+offset) := by
  have steps := step_sound did
  have valid' := step_valid inst ok steps
  cases steps with
  | @fork k' p' child junk frames memory tf found' user free copied =>
    cases hit.symm.trans found'
    obtain ⟨cur,at_⟩ := running_some hit
    obtain ⟨old',new,here,copy⟩ := copySpace_some inst ok.accounts copied
    cases space.symm.trans here
    obtain ⟨i,as,some_,place,_⟩ := user_prepared (ok.procs k p at_) user
    have same : old = as := by
      rw [some_,spaceOf,place] at space
      exact (some.inj space).symm
    subst same
    have present : s.frames.spaces i ≠ .absent := by
      rw [place]
      exact FrameOwners.Space.noConfusion
    have kept : frames.spaces i = .prepared old := (copy.fresh ok.accounts present).trans place
    have fresh : frames.spaces s.frames.nextSpace = .prepared new := by rw [copy.spaces,update_self]
    have ne : s.frames.nextSpace ≠ i := by
      rintro rfl
      obtain ⟨parts,store,acc⟩ := ok.accounts
      exact present (acc.freshSpaces _ le_rfl)
    have notChild : k ≠ child := by
      rintro rfl
      cases at_.symm.trans free
    have sep := spaces_apart valid'.accounts valid'.filled fresh kept ne
    have pages : old.npages = new.npages := by
      have eq := copy.regions
      simp only [regions,Prod.mk.injEq] at eq
      funext seg
      cases seg
      · exact eq.2.1.symm
      · exact eq.2.2.2.symm
      · rfl
    refine ⟨i,_,new,⟨?_,rfl,some_,kept⟩,⟨update_self ..,rfl,rfl,fresh⟩,copy.regions,sep,Copied.same copy ok place,?_⟩
    · exact (update_of_ne notChild ..).trans (update_self ..)
    intro seg page below offset inside
    obtain ⟨parts,store,acc⟩ := valid'.accounts
    have injective := space_injective acc fresh (valid'.filled _ new fresh)
    change memory _ = _
    rw [copy.bytes,copy_copies injective sep pages _ below inside]
    exact zero_same sep s.memory seg page (by rw [pages]; exact below) offset inside

lemma fork_registers (tf : Trapframe) (pid : BitVec 32) :
    forkedFrame tf .v0 = 0 ∧ syscallReturn tf (.ok pid) .v0 = pid ∧
      ∀ reg ≠ .v0, forkedFrame tf reg = syscallReturn tf (.ok pid) reg := by
  refine ⟨rfl,rfl,fun reg other => ?_⟩
  simp only [forkedFrame,syscallReturn]
  by_cases epc : reg = .epc
  · rw [epc,update_self,update_self]
  rw [update_of_ne epc,update_of_ne epc]
  by_cases a3 : reg = .a3
  · rw [a3,update_self,update_self]
  · rw [update_of_ne a3,update_of_ne a3,update_of_ne other,update_of_ne other]

theorem fork_duplicates {s after : State} (installed : r.Installed) (path : Reached r memory tlb s)
    (found : s.running = some (k,p)) (space : spaceOf s.frames p.space = some old)
    (taken : step r s (.fork tf junk child) = some after) :
    ∃ new, regions new = regions old ∧ Separate new old ∧ Same old s.memory after.memory ∧
      (∀ t, Transition.Reached (step r) (Stays child) after t → t.current = some child →
        ∃ entered q, step r t (.act .enterForkedProcess) = some entered ∧
          entered.procs child = some q ∧ q.point = .user ∧ q.entry = forkedFrame tf ∧
          spaceOf entered.frames q.space = some new ∧
          ∀ segment, ∀ page < new.npages segment, ∀ offset < pageSize,
            entered.memory (new.entry segment page+offset) =
              s.memory (old.entry segment page+offset)) ∧
      (∀ t, Transition.Reached (step r) (Stays k) after t → t.current = some k →
        ∃ returned q, step r t (.act .forkReturns) = some returned ∧
          returned.procs k = some q ∧ q.point = .user ∧
          q.entry = syscallReturn tf (.ok (BitVec.ofNat 32 child)) ∧
          spaceOf returned.frames q.space = some old ∧ Same old s.memory returned.memory) ∧
      forkedFrame tf .v0 = 0 ∧
      syscallReturn tf (.ok (BitVec.ofNat 32 child)) .v0 = BitVec.ofNat 32 child ∧
      ∀ reg, reg ≠ .v0 →
        forkedFrame tf reg = syscallReturn tf (.ok (BitVec.ofNat 32 child)) reg := by
  have valid := reached_valid installed path
  obtain ⟨i,j,new,parent,other,bounds,separate,same,bytes⟩ := fork_waits installed valid found space taken
  have later := step_valid installed valid (step_sound taken)
  refine ⟨new,bounds,separate,same,?_,?_,fork_registers tf _⟩
  · intro t run current
    obtain ⟨_,waits,kept⟩ := run_waits installed later other run
    have enters : step r t (.act .enterForkedProcess) = some (t.put child {t.at (newChild j tf) with
        tlb := asActivate (some j) t.tlb
        proc := {newChild j tf with point := .user,entry := forkedFrame tf}}) := by
      simp only [step,State.running,current,waits.at_,act,State.at,newChild,Option.map_some]
    refine ⟨_,_,enters,update_self ..,rfl,rfl,?_,?_⟩
    · simp only [State.put,State.at,newChild,spaceOf,waits.space]
    intro segment page below offset inside
    exact (kept segment page below offset inside).trans (bytes segment page below offset inside)
  intro t run current
  obtain ⟨_,waits,kept⟩ := run_waits installed later parent run
  have returns : step r t (.act .forkReturns) = some (t.put k {t.at p with
      proc := {p with
        point := .user,entry := syscallReturn tf (.ok (BitVec.ofNat 32 child))}}) := by
    simp only [step,State.running,current,waits.at_,act,State.at,Option.map_some]
  refine ⟨_,_,returns,update_self ..,rfl,rfl,?_,same.trans kept⟩
  have holds : p.space = some i := parent.holds
  simp only [State.put,State.at,holds,spaceOf,waits.space]

theorem tiny_forks : ∃ s p old after, Reached forkRam (fun _ => 0) flushed s ∧
    s.running = some (2,p) ∧ spaceOf s.frames p.space = some old ∧
    step forkRam s (.fork (fun _ => 5) (fun _ _ => 0) 3) = some after ∧
    ∃ new, regions new = regions old ∧ Separate new old ∧ Same old s.memory after.memory := by
  have ran : ((forkRun startTiny).map
      fun s => (s.running.map fun (k,p) => (k,(spaceOf s.frames p.space).isSome),
        (step forkRam s (.fork (fun _ => 5) (fun _ _ => 0) 3)).isSome)) =
      some (some (2,true),true) := by
    decide +kernel
  obtain ⟨s,reached,values⟩ := map_eq_some_iff.mp ran
  obtain ⟨running,forks⟩ := Prod.mk.inj values
  obtain ⟨⟨k,p⟩,found,fields⟩ := map_eq_some_iff.mp running
  obtain ⟨rfl,present⟩ := Prod.mk.inj fields
  obtain ⟨old,space⟩ := isSome_iff_exists.mp present
  obtain ⟨after,taken⟩ := isSome_iff_exists.mp forks
  have path : Reached forkRam (fun _ => 0) flushed s := Transition.run_reached reached
  have installed : forkRam.Installed := by unfold Ram.Installed; decide
  obtain ⟨new,bounds,separate,same,_⟩ := fork_duplicates installed path found space taken
  exact ⟨s,p,old,after,path,found,space,taken,new,bounds,separate,same⟩
end ToyOS.ForkImage

import ToyOS.VnodeCounts

namespace ToyOS.BigLock
open Nesting Outcome Sfs UserSpace DeviceTable Shares Transition Option List

def opensBy (files : List AnyVnode) (procs : List Proc) : AnyVnode → Nat := holds (files++procs.filterMap Proc.console)

def heldBy (files : List AnyVnode) (procs : List Proc) : AnyVnode → Nat :=
  holds (files++procs.filterMap Proc.console++procs.filterMap Proc.cwd)

variable {table : List (KnownDev Nat FileSystem)} {held opened : AnyVnode → Nat} {w : World} {vn : AnyVnode}
  {files : List AnyVnode} {procs rest : List Proc} {proc : Proc} {sys after : System} {p : Nat} {α : Type}
  {m : LockedWorldOp α} {result : Except Errno α}

lemma count_filterMap_cons (f : Proc → Option AnyVnode) (proc : Proc) (procs : List Proc) (x : AnyVnode) :
    ((proc :: procs).filterMap f).count x = (procs.filterMap f).count x+own (f proc) x := by
  unfold own
  cases hit : f proc with
  | none =>
    rw [filterMap_cons_none hit]
    simp
  | some vn =>
    rw [filterMap_cons_some hit,count_cons]
    simp only [beq_iff_eq,some.injEq]

lemma opensBy_cons : opensBy files (proc :: procs) = plus (opensBy files procs) proc.console := by
  funext x
  simp only [plus_apply,opensBy,holds,count_append,count_filterMap_cons]
  omega

lemma heldBy_cons : heldBy files (proc :: procs) = plus (plus (heldBy files procs) proc.console) proc.cwd := by
  funext x
  simp only [plus_apply,heldBy,holds,count_append,count_filterMap_cons]
  omega

lemma opensBy_perm (perm : procs.Perm rest) : opensBy files procs = opensBy files rest :=
  holds_perm (List.Perm.append_left _ (perm.filterMap _))

lemma heldBy_perm (perm : procs.Perm rest) : heldBy files procs = heldBy files rest :=
  holds_perm ((List.Perm.append_left _ (perm.filterMap _)).append (perm.filterMap _))

lemma plus_more (held : AnyVnode → Nat) (holder : Option AnyVnode) (vn : AnyVnode) :
    plus (more held vn) holder = more (plus held holder) vn := by
  funext x
  simp only [plus_apply,more_apply]
  omega

lemma opensBy_file : opensBy (vn :: files) procs = more (opensBy files procs) vn := holds_cons
lemma heldBy_file : heldBy (vn :: files) procs = more (heldBy files procs) vn := holds_cons

lemma opensBy_files (perm : files.Perm files') : opensBy files procs = opensBy files' procs :=
  holds_perm (perm.append_right _)

lemma heldBy_files (perm : files.Perm files') : heldBy files procs = heldBy files' procs :=
  holds_perm ((perm.append_right _).append_right _)

lemma Books.enter (books : Books table (plus held proc.cwd) opened w) (idle : w.cwd = none)
    (known : ∀ vn, proc.cwd = some vn → Known table vn) : Books table held opened {w with cwd := proc.cwd} := by
  have total : ({w with cwd := proc.cwd} : World).total held = w.total (plus held proc.cwd) := by
    funext x
    have kept := plus_apply held proc.cwd x
    change held x+own proc.cwd x+own w.bootfs x = plus held proc.cwd x+own w.cwd x+own w.bootfs x
    rw [idle,kept]
    rfl
  refine ⟨books.entries,known,books.bootfs,books.opens,fun k => ?_,fun k listed => ?_⟩
  · rw [total]
    exact books.volumes k
  rw [total]
  exact books.devices k listed

lemma Books.leave (books : Books table held opened w) : Books table (plus held w.cwd) opened {w with cwd := none} := by
  have total : ({w with cwd := none} : World).total (plus held w.cwd) = w.total held := by
    funext x
    have kept := plus_apply held w.cwd x
    change plus held w.cwd x+own none x+own w.bootfs x = held x+own w.cwd x+own w.bootfs x
    rw [kept]
    rfl
  refine ⟨books.entries,fun x never => (by cases never),books.bootfs,books.opens,fun k => ?_,fun k listed => ?_⟩
  · rw [total]
    exact books.volumes k
  rw [total]
  exact books.devices k listed

-- Every vnode is held by those who are counted.
structure Accounts (table : List (KnownDev Nat FileSystem)) (sys : System) : Prop where
  plain : Plain table
  idle : sys.world.cwd = none
  files : ∀ vn ∈ sys.files, Known table vn
  procs : ∀ proc ∈ sys.procs, AllKnown table proc
  books : Books table (heldBy sys.files sys.procs) (opensBy sys.files sys.procs) sys.world

lemma Accounts.enter (acc : Accounts table sys) (perm : sys.procs.Perm (proc :: rest)) :
    Books table (plus (heldBy sys.files rest) proc.console) (plus (opensBy sys.files rest) proc.console)
      {sys.world with cwd := proc.cwd} := by
  have books := acc.books
  rw [heldBy_perm perm,heldBy_cons,opensBy_perm perm,opensBy_cons] at books
  exact books.enter acc.idle (acc.procs proc (perm.mem_iff.mpr mem_cons_self)).1

lemma Accounts.leave {t : Locked Lock World} (plain : Plain table)
    (books : Books table (plus (heldBy files rest) proc.console) (plus (opensBy files rest) proc.console) t.world)
    (perm : procs.Perm ({proc with cwd := t.world.cwd} :: rest)) (open_ : ∀ vn ∈ files, Known table vn)
    (console : ∀ vn, proc.console = some vn → Known table vn) (others : ∀ q ∈ rest, AllKnown table q) :
    Accounts table ⟨⟨t.lock,{t.world with cwd := none}⟩,procs,files⟩ where
  plain := plain
  idle := rfl
  files := open_
  procs q member := by
    rcases mem_cons.mp (perm.mem_iff.mp member) with rfl | ne
    · exact ⟨books.cwd,console⟩
    · exact others q ne
  books := by
    rw [heldBy_perm perm,heldBy_cons,opensBy_perm perm,opensBy_cons]
    exact books.leave

lemma perm_eraseIdx (hit : procs[p]? = some proc) : procs.Perm (proc :: procs.eraseIdx p) := by
  obtain ⟨inside,rfl⟩ := List.getElem?_eq_some_iff.mp hit
  exact (getElem_cons_eraseIdx_perm inside).symm

lemma perm_set (hit : procs[p]? = some proc) (new : Proc) : (procs.set p new).Perm (new :: procs.eraseIdx p) := by
  obtain ⟨inside,_⟩ := List.getElem?_eq_some_iff.mp hit
  have there : (procs.set p new)[p]? = some new := List.getElem?_set_self inside
  have perm := perm_eraseIdx there
  rwa [eraseIdx_set_eq] at perm

-- What a call leaves, for a process that is there.
structure Called (sys : System) (p : Nat) (proc : Proc) (t : Locked Lock World) (after : System) : Prop where
  found : sys.procs[p]? = some proc
  after : after = ⟨⟨t.lock,{t.world with cwd := none}⟩,sys.procs.set p {proc with cwd := t.world.cwd},sys.files⟩

lemma calls_ends {Q : Proc → α → World → Prop} {J : Proc → World → Prop} (ret : sys.calls p m = some (result,after))
    (carries : ∀ proc, sys.procs[p]? = some proc →
      Ends (m ⟨sys.kernel.lock,{sys.world with cwd := proc.cwd}⟩) (fun a t => Q proc a t.world)
        (Vfs.Partly fun t => J proc t.world)) :
    ∃ proc t, Called sys p proc t after ∧ Either (Q proc) (J proc) result t.world := by
  unfold System.calls at ret
  cases hit : sys.procs[p]? with
  | none =>
    rw [hit] at ret
    cases ret
  | some proc =>
    have ends := carries proc hit
    simp only [hit] at ret
    unfold attempt at ret
    cases ended : m ⟨sys.kernel.lock,{sys.world with cwd := proc.cwd}⟩ with
    | ok a t =>
      simp only [ended,some.injEq,Prod.mk.injEq] at ret
      obtain ⟨rfl,rfl⟩ := ret
      exact ⟨proc,t,⟨hit,rfl⟩,ends.ok ended⟩
    | error e t =>
      cases e with
      | panic => simp [ended] at ret
      | errno errno =>
        simp only [ended,some.injEq,Prod.mk.injEq] at ret
        obtain ⟨rfl,rfl⟩ := ret
        exact ⟨proc,t,⟨hit,rfl⟩,ends.failed ended⟩

section
variable (acc : Accounts table sys)
include acc

lemma Accounts.known (hit : sys.procs[p]? = some proc) : AllKnown table proc :=
  acc.procs proc (mem_of_getElem? hit)

lemma Accounts.others (q : Proc) (mem : q ∈ sys.procs.eraseIdx p) : AllKnown table q :=
  acc.procs q (mem_of_mem_eraseIdx mem)

lemma Accounts.quiet (did : (sys.calls p m).map Prod.snd = some after)
    (carries : ∀ held opened, Carries (Books table held opened) m (fun _ => Books table held opened)
      (Books table held opened)) : Accounts table after := by
  obtain ⟨⟨result,after⟩,ret,rfl⟩ := map_eq_some_iff.mp did
  obtain ⟨proc,t,call,done⟩ := calls_ends ret fun proc hit => carries _ _ _ (acc.enter (perm_eraseIdx hit))
  have books : Books table (plus (heldBy sys.files (sys.procs.eraseIdx p)) proc.console)
      (plus (opensBy sys.files (sys.procs.eraseIdx p)) proc.console) t.world := by
    cases result with
    | ok a => exact done
    | error errno => exact done
  rw [call.after]
  exact Accounts.leave acc.plain books (perm_set call.found _) acc.files (acc.known call.found).2 acc.others

end

section
variable (acc : Accounts table sys)
include acc

lemma Accounts.opens {result : Except Errno AnyVnode}
    (ret : sys.calls p (vfsOpen path openflags) = some (result,after)) : Accounts table (after.opened result) := by
  obtain ⟨proc,t,call,done⟩ := calls_ends ret fun proc hit =>
    carries_vfsOpen acc.plain path openflags _ (acc.enter (perm_eraseIdx hit))
  have perm := perm_set call.found {proc with cwd := t.world.cwd}
  have console := (acc.known call.found).2
  rw [call.after]
  cases result with
  | error errno => exact Accounts.leave acc.plain done perm acc.files console acc.others
  | ok vn =>
    have books := done.books
    rw [←plus_more,←plus_more,←heldBy_file,←opensBy_file] at books
    refine Accounts.leave acc.plain books perm (fun x mem => ?_) console acc.others
    rcases mem_cons.mp mem with rfl | ne
    · exact done.known
    · exact acc.files x ne

lemma Accounts.closes {result : Except Errno PUnit} (open_ : vn ∈ sys.files)
    (ret : sys.calls p (vfsClose vn) = some (result,after)) :
    Accounts table {after with files := after.files.erase vn} := by
  have perm : sys.files.Perm (vn :: sys.files.erase vn) := perm_cons_erase open_
  obtain ⟨proc,t,call,done⟩ := calls_ends ret (J := fun _ _ => False)
    (Q := fun proc _ => Books table (plus (heldBy (sys.files.erase vn) (sys.procs.eraseIdx p)) proc.console)
      (plus (opensBy (sys.files.erase vn) (sys.procs.eraseIdx p)) proc.console)) fun proc hit => by
    have books := acc.enter (perm_eraseIdx hit)
    rw [heldBy_files perm,opensBy_files perm,heldBy_file,opensBy_file,plus_more,plus_more] at books
    exact carries_vfsClose (J := fun _ => False) (acc.files vn open_) ⟨sys.kernel.lock,_⟩ books
  rw [call.after]
  cases result with
  | error errno => exact done.elim
  | ok _ =>
    refine Accounts.leave acc.plain done (perm_set call.found _) (fun x mem => ?_) (acc.known call.found).2 acc.others
    exact acc.files x (mem_of_mem_erase mem)

lemma Accounts.creates {result : Except Errno (Option Proc)}
    (ret : sys.calls p procCreateRunprogram = some (result,after)) : Accounts table (after.created result) := by
  obtain ⟨proc,t,call,done⟩ := calls_ends ret (J := fun _ _ => False) fun proc hit =>
    carries_procCreateRunprogram (J := fun _ => False) acc.plain _ (acc.enter (perm_eraseIdx hit))
  have perm := perm_set call.found {proc with cwd := t.world.cwd}
  have console := (acc.known call.found).2
  rw [call.after]
  cases result with
  | error errno => exact done.elim
  | ok made =>
    cases made with
    | none => exact Accounts.leave acc.plain done perm acc.files console acc.others
    | some new =>
      have books := done.books
      have more_ : plus (plus (plus (heldBy sys.files (sys.procs.eraseIdx p)) proc.console) new.console) new.cwd =
          plus (heldBy sys.files (new :: sys.procs.eraseIdx p)) proc.console := by
        funext x
        simp only [heldBy_cons,plus_apply]
        omega
      have open_ : plus (plus (opensBy sys.files (sys.procs.eraseIdx p)) proc.console) new.console =
          plus (opensBy sys.files (new :: sys.procs.eraseIdx p)) proc.console := by
        funext x
        simp only [opensBy_cons,plus_apply]
        omega
      rw [more_,open_] at books
      refine Accounts.leave acc.plain books ?_ acc.files console fun q mem => ?_
      · exact ((perm.append_right [new]).trans (perm_append_singleton _ _)).trans (List.Perm.swap ..)
      rcases mem_cons.mp mem with rfl | ne
      · exact done.known
      · exact acc.others q ne

lemma Accounts.destroyed {result : Except Errno PUnit} (there : sys.procs[q]? = some victim) (ne : q ≠ 0)
    (ret : sys.calls 0 (procDestroy victim) = some (result,after)) :
    Accounts table {after with procs := after.procs.eraseIdx q} := by
  cases all : sys.procs with
  | nil =>
    rw [all] at there
    cases there
  | cons kproc tail =>
    obtain ⟨q,rfl⟩ := Nat.exists_eq_succ_of_ne_zero ne
    rw [all] at there
    have hit : tail[q]? = some victim := there
    have perm := perm_eraseIdx hit
    have inside : ∀ p ∈ tail, AllKnown table p := fun p mem => acc.procs p (by rw [all]; exact mem_cons_of_mem _ mem)
    have one : sys.procs[0]? = some kproc := by rw [all]; rfl
    have pre : plus (heldBy sys.files tail) kproc.console =
        plus (plus (plus (heldBy sys.files (tail.eraseIdx q)) kproc.console) victim.console) victim.cwd := by
      funext x
      simp only [heldBy_perm perm,heldBy_cons,plus_apply]
      omega
    have open_ : plus (opensBy sys.files tail) kproc.console =
        plus (plus (opensBy sys.files (tail.eraseIdx q)) kproc.console) victim.console := by
      funext x
      simp only [opensBy_perm perm,opensBy_cons,plus_apply]
      omega
    obtain ⟨proc,t,call,done⟩ := calls_ends ret (J := fun _ _ => False)
      (Q := fun _ _ => Books table (plus (heldBy sys.files (tail.eraseIdx q)) kproc.console)
        (plus (opensBy sys.files (tail.eraseIdx q)) kproc.console)) fun proc eq => by
      cases one.symm.trans eq
      have books := acc.enter (List.Perm.of_eq all)
      rw [pre,open_] at books
      exact carries_procDestroy (J := fun _ => False) (inside victim (mem_of_getElem? hit)) ⟨sys.kernel.lock,_⟩ books
    cases one.symm.trans call.found
    rw [call.after]
    cases result with
    | error errno => exact done.elim
    | ok _ =>
      refine Accounts.leave acc.plain done ?_ acc.files (acc.known one).2 fun p mem =>
        inside p (mem_of_mem_eraseIdx mem)
      rw [all]
      exact List.Perm.refl _

lemma Accounts.destroys (destroyed : sys.destroys q = some after) : Accounts table after := by
  unfold System.destroys at destroyed
  cases hit : sys.procs[q]? with
  | none =>
    rw [hit] at destroyed
    cases destroyed
  | some victim =>
    simp only [hit] at destroyed
    split at destroyed
    · cases destroyed
    rename_i ne
    obtain ⟨⟨result,ended⟩,ret,rfl⟩ := map_eq_some_iff.mp destroyed
    exact acc.destroyed hit ne ret

lemma Accounts.step {call : Nat × VfsCall} (ran : step sys call = some after) : Accounts table after := by
  obtain ⟨p,call⟩ := call
  have plain := acc.plain
  cases call with
  | «open» path openflags =>
    obtain ⟨⟨result,ended⟩,ret,rfl⟩ := map_eq_some_iff.mp ran
    exact acc.opens ret
  | close vn =>
    unfold BigLock.step at ran
    simp only at ran
    split at ran
    · rename_i open_
      obtain ⟨⟨result,ended⟩,ret,rfl⟩ := map_eq_some_iff.mp ran
      exact acc.closes open_ ret
    · cases ran
  | remove path => exact acc.quiet ran fun _ _ => carries_vfsRemove plain path.bytes
  | rename oldpath newpath => exact acc.quiet ran fun _ _ => carries_vfsRename plain oldpath.bytes newpath.bytes
  | link oldpath newpath => exact acc.quiet ran fun _ _ => carries_vfsLink plain oldpath.bytes newpath.bytes
  | chdir path => exact acc.quiet ran fun _ _ => carries_vfsChdir plain path.bytes
  | setbootfs fsname => exact acc.quiet ran fun _ _ => carries_vfsSetbootfs plain fsname.bytes
  | create =>
    obtain ⟨⟨result,ended⟩,ret,rfl⟩ := map_eq_some_iff.mp ran
    exact acc.creates ret
  | destroy q => exact acc.destroys ran

end

lemma Booted.accounts (booted : Booted sys) : Accounts sys.world.table sys where
  plain := booted.volumes
  idle := booted.cwd
  files vn mem := by
    rw [booted.files] at mem
    cases mem
  procs proc mem := by
    rw [booted.procs] at mem
    cases mem_singleton.mp mem
    exact ⟨fun _ never => (by cases never),fun _ never => (by cases never)⟩
  books := by
    have none_ : ∀ x, sys.world.total (heldBy [] [⟨none,none⟩]) x = 0 := by
      intro x
      unfold World.total
      rw [booted.cwd,booted.bootfs]
      rfl
    rw [booted.files,booted.procs]
    refine ⟨rfl,fun vn hit => ?_,fun vn hit => ?_,funext booted.closed,fun k _ i => ?_,fun k listed => ?_⟩
    · rw [booted.cwd] at hit
      cases hit
    · rw [booted.bootfs] at hit
      cases hit
    · rw [booted.unloaded]
      exact (standing_eq_none.mpr (none_ (.sfs k i))).symm
    · rw [booted.devices k listed,none_]

lemma own_eq_count (holder : Option AnyVnode) (x : AnyVnode) : own holder x = holder.toList.count x := by
  cases holder with
  | none => rfl
  | some vn =>
    simp only [own,Option.toList_some,count_cons,count_nil,beq_iff_eq,some.injEq]
    omega

lemma Accounts.holders (acc : Accounts table sys) (x : AnyVnode) :
    sys.world.total (heldBy sys.files sys.procs) x = sys.holders x := by
  unfold World.total System.holders
  rw [acc.idle,count_append,own_eq_count sys.world.bootfs]
  rfl

theorem refcounts_exact {start : System} (booted : Booted start) (path : Reached step Free start sys) :
    (∀ k, (sys.world.volumes k).reclaimErrors = [] → ∀ i,
      ((sys.world.volumes k).vnodes i = none ↔ sys.holders (.sfs k i) = 0) ∧
      ∀ v, (sys.world.volumes k).vnodes i = some v →
        v.refcount = sys.holders (.sfs k i) ∧ sys.world.opencount (.sfs k i) = sys.openers (.sfs k i)) ∧
    ∀ k, Listed sys.world.table k →
      sys.world.deviceRefs k = sys.holders (.device k)+1 ∧
        sys.world.opencount (.device k) = sys.openers (.device k) := by
  have accounts : Accounts start.world.table sys :=
    path.invariant (Accounts start.world.table) booted.accounts fun _ before _ stepped => before.step stepped
  have books := accounts.books
  have opens : ∀ x, sys.world.opencount x = sys.openers x := fun x => congrFun books.opens x
  constructor
  · intro k reclaimed i
    have counted : ((sys.world.volumes k).vnodes i).map Vnode.refcount = standing (sys.holders (.sfs k i)) := by
      rw [←accounts.holders]
      exact books.volumes k reclaimed i
    constructor
    · rw [←standing_eq_none,←counted,Option.map_eq_none_iff]
    intro v loaded
    rw [loaded] at counted
    exact ⟨(standing_eq_some.mp counted.symm).1.symm,opens _⟩
  intro k listed
  rw [books.entries] at listed
  rw [←accounts.holders]
  exact ⟨books.devices k listed,opens _⟩

def smallSystem : System where
  kernel := ⟨⟨false,0,by decide⟩,{exhausted with
    volumes := fun _ => smallVolume
    memory := fun _ => true
    table := [⟨[108,104,100,48],some [108,104,100,48,114,97,119],some 0,some (.sfs 0)⟩,
      ⟨[99,111,110],none,some 1,none⟩]}⟩
  procs := [⟨none,none⟩]
  files := []

lemma smallSystem_booted : Booted smallSystem where
  procs := rfl
  files := rfl
  cwd := rfl
  bootfs := rfl
  unloaded _ i := by
    have fmt : Formatted 16 smallDisk := ⟨⟨_,_,smallDisk_made⟩,le_rfl,rfl,rfl⟩
    obtain ⟨s,mount,mounted⟩ := fmt.succeeds
    change smallVolume.vnodes i = none
    rw [smallVolume,mount,mounted.vnodes]
  closed _ := rfl
  devices _ _ := rfl
  volumes kd mem k := by
    rcases mem_cons.mp mem with rfl | mem
    · intro eq
      cases eq
    cases mem_singleton.mp mem
    intro eq
    cases eq

def sharedFile : List (Nat × VfsCall) :=
  [(0,.setbootfs Vfs.device0),(0,.open ⟨[47,97],by decide⟩ (Vfs.oRdwr ||| Vfs.oCreat)),(0,.create),
    (1,.open nameA 0),(1,.create),(1,.remove nameA),(0,.destroy 2)]

theorem refcounts_exact_sharedFile : ∃ sys, run step smallSystem sharedFile = some sys ∧
    sys.holders (.sfs 0 rootLocation) = 3 ∧ ∃ v, (sys.world.volumes 0).vnodes 3 = some v ∧
      (v.refcount = sys.holders (.sfs 0 3) ∧ sys.world.opencount (.sfs 0 3) = sys.openers (.sfs 0 3)) ∧
      sys.world.deviceRefs 1 = sys.holders (.device 1)+1 := by
  have ran : ((run step smallSystem sharedFile).map fun sys =>
      (((sys.world.volumes 0).vnodes 3).isSome,(sys.world.volumes 0).reclaimErrors,sys.holders (.sfs 0 rootLocation),
        decide (∃ kd ∈ sys.world.table, kd.kdDevice = some 1))) = some (true,[],3,true) := by
    decide +kernel
  obtain ⟨sys,ran,seen⟩ := map_eq_some_iff.mp ran
  simp only [Prod.mk.injEq,decide_eq_true_eq] at seen
  obtain ⟨loaded,reclaimed,root,listed⟩ := seen
  obtain ⟨v,found⟩ := isSome_iff_exists.mp loaded
  obtain ⟨files,devices⟩ := refcounts_exact smallSystem_booted (run_reached ran)
  exact ⟨sys,ran,root,v,found,(files 0 reclaimed 3).2 v found,(devices 1 listed).1⟩
end ToyOS.BigLock

import ToyOS.SfsOwnership

namespace ToyOS.Sfs
open Outcome UserSpace Transition Option

variable {s t start : State} {live : Nat → Bool} {i j n k : Nat} {v : Vnode} {name : List UInt8}
  {E : Fault → State → Prop}

def OnRoot (s : State) : Call → Prop
  | .lookup dir _ | .creat dir _ _ | .remove dir _ | .rename dir _ _ => dir = rootLocation
  | .link dir _ file => dir = rootLocation ∧ Loaded s file
  | _ => False

-- One abstract transition of the name map for each call of a directory.
def Call.onNames (names : Names) (full : Prop) : Call → Except Errno Answer → Names → Prop
  | .lookup _ name,result,now => ∃ found, result = found.map .vnode ∧ lookupNames names name.bytes found now
  | .creat _ name excl,result,now =>
    ∃ made, result = made.map .vnode ∧ creatNames names name.bytes excl full made now
  | .link _ name file,result,now =>
    ∃ done, result = done.map (fun _ => .done) ∧ linkNames names name.bytes file done now
  | .remove _ name,result,now => ∃ done, result = done.map (fun _ => .done) ∧ removeNames names name.bytes done now
  | .rename _ n1 n2,result,now =>
    ∃ done, result = done.map (fun _ => .done) ∧ renameNames names n1.bytes n2.bytes done now
  | _,_,_ => False

lemma ends_asDir {α : Type} {m : Op α} {Q : α → State → Prop} (ok : Consistent s live)
    (load : s.vnodes rootLocation = some v) (rest : Ends (m s) Q E) : Ends (asDir rootLocation m s) Q E := by
  refine ends_bind_vnodeOf load ?_
  rw [if_pos]
  · exact rest
  rw [←node_loaded load]
  exact ok.shape.dir

lemma call_names (sound : Consistent s live) (quiet : Quiet s)
    (load : s.vnodes rootLocation = some v) (onRoot : OnRoot s c) : Ends (call c s)
      (fun answer t => ¬RenamesRoot s c ∧ c.onNames (directory s) (spare s = 0) (.ok answer) (directory t))
      (Unless (RenamesRoot s c) fun errno t =>
        ¬RenamesRoot s c ∧ c.onNames (directory s) (spare s = 0) (.error errno) (directory t)) := by
  cases c with
  | lookup dir name =>
    cases onRoot
    refine ends_map (ends_asDir sound load ((ends_lookup sound quiet load).mono
      (fun i t done => ⟨fun never => never,.ok i,rfl,done.2⟩)
      (Errs.unless fun e t bad => ⟨fun never => never,.error e,rfl,bad.2⟩)))
  | creat dir name excl =>
    cases onRoot
    exact ends_map (ends_asDir sound load ((ends_creat sound quiet load name.ended excl).mono
      (fun i t done => ⟨fun never => never,.ok i,rfl,done.2.1⟩)
      (Errs.unless fun e t bad => ⟨fun never => never,.error e,rfl,bad.2⟩)))
  | link dir name file =>
    obtain ⟨rfl,w,held⟩ := onRoot
    refine ends_bind_vnodeOf held (ends_bind (ends_asDir sound load
      ((ends_link sound quiet load name.ended held).imp_error
        (Errs.unless fun e t bad => ⟨fun never => never,.error e,rfl,bad.2⟩))) ?_)
    exact fun _ t done => ⟨fun never => never,.ok ⟨⟩,rfl,done.2⟩
  | remove dir name =>
    cases onRoot
    refine ends_bind (ends_asDir sound load ((ends_remove sound quiet load).imp_error
      (Errs.unless fun e t bad => ⟨fun never => never,.error e,rfl,bad.2⟩))) ?_
    exact fun _ t done => ⟨fun never => never,.ok ⟨⟩,rfl,done.2⟩
  | rename dir n1 n2 =>
    cases onRoot
    refine ends_bind (ends_asDir sound load ((ends_rename sound quiet load n2.ended).imp_error
      (Unless.mono (fun top => ⟨rfl,top⟩) fun e t bad => ⟨fun root => bad.1 root.2,.error e,rfl,bad.2.2⟩))) ?_
    exact fun _ t done => ⟨fun root => done.1 root.2,.ok ⟨⟩,rfl,done.2.2⟩
  | _ => cases onRoot

lemma entryName_length (bytes : Nat → UInt8) : (entryName bytes k).length < nameLen := by
  have short := (List.takeWhile_sublist (l := (List.range (nameLen-1)).map fun j => bytes (sizeofDir*k+4+j))
    (· ≠ 0)).length_le
  rw [List.length_map,List.length_range] at short
  exact lt_of_le_of_lt short (by decide)

lemma lookonce_root (sound : Consistent s live) (quiet : Quiet s) (load : s.vnodes rootLocation = some v)
    (top : directory s name = some rootLocation) :
    ∃ slot t w, sfsLookonce rootLocation name s = .ok (rootLocation,slot) t ∧
      t.vnodes rootLocation = some w ∧ w.inode.type ≠ typeFile := by
  have ends : Ends (sfsLookonce rootLocation name s) _ _ := ends_lookonce sound quiet load
  cases found : sfsLookonce rootLocation name s with
  | error e t =>
    have bad := ends.failed found
    cases e with
    | panic => exact bad.elim
    | errno errno =>
      rw [bad.2.1] at top
      cases top
  | ok hit t =>
    obtain ⟨ino,slot⟩ := hit
    obtain ⟨binds,got⟩ := ends.ok found
    have eq := (directory_eq_some sound.shape).mpr ⟨slot,binds⟩
    rw [top] at eq
    cases eq
    obtain ⟨w,held⟩ := got.loaded
    refine ⟨slot,t,w,rfl,held,?_⟩
    have dir : w.inode.type = typeDir := (congrArg Inode.type (node_loaded held)).symm.trans got.consistent.shape.dir
    rw [dir]
    decide

theorem directory_map (new : New n start) (path : Reached step Free start s) (there : Loaded s rootLocation) :
    (∀ k l name i j, Binds s k name i → Binds s l name j → k = l ∧ i = j) ∧
    (∀ name i, directory s name = some i ↔ ∃ k, Binds s k name i) ∧
    (∀ name i, directory s name = some i → name.length ≤ 59) ∧
    (∀ c, OnRoot s c → ((∃ result t, returns s c = some (result,t) ∧
      c.onNames (directory s) (spare s = 0) result (directory t)) ↔ ¬RenamesRoot s c)) ∧
    ∀ dir n1 n2, RenamesRoot s (.rename dir n1 n2) → ∃ slot t w,
      sfsLookonce rootLocation n1.bytes s = .ok (rootLocation,slot) t ∧
        t.vnodes rootLocation = some w ∧ w.inode.type ≠ typeFile := by
  obtain ⟨⟨live,consistent⟩,quiet,_⟩ := reached_consistent new path
  obtain ⟨v,loaded⟩ := there
  refine ⟨fun k l name i j first second => ?_,fun name i => directory_eq_some consistent.shape,fun name i found => ?_,
    fun c onRoot => ?_,fun dir n1 n2 renames => lookonce_root consistent quiet loaded renames.2⟩
  · have same := consistent.shape.names k l name i j first second
    subst same
    exact ⟨rfl,first.2.1.symm.trans second.2.1⟩
  · obtain ⟨k,binds⟩ := (directory_eq_some consistent.shape).mp found
    rw [←binds.2.2.2]
    exact Nat.le_of_lt_succ (entryName_length _)
  have ends := returns_of_ends (call_names consistent quiet loaded onRoot)
  constructor
  · rintro ⟨result,t,returned,_⟩
    rw [returned] at ends
    cases result with
    | ok answer => exact ends.1
    | error errno => exact ends.1
  intro sound
  cases returned : returns s c with
  | none =>
    rw [returned] at ends
    exact (sound ends).elim
  | some pair =>
    obtain ⟨result,t⟩ := pair
    rw [returned] at ends
    cases result with
    | ok answer => exact ⟨_,t,rfl,ends.2⟩
    | error errno => exact ⟨_,t,rfl,ends.2⟩

theorem directory_map_twoBlocks : ∃ s, run step smallVolume twoBlocks = some s ∧
    ∃ result t, returns s (.rename rootLocation nameB nameA) = some (result,t) ∧
      (Call.rename rootLocation nameB nameA).onNames (directory s) (spare s = 0) result (directory t) := by
  obtain ⟨s,ran,shown⟩ := twoBlocks_run
  simp only [Prod.mk.injEq] at shown
  have open_ : ((run step smallVolume twoBlocks).map fun s => (s.vnodes rootLocation).isSome) = some true := by
    decide +kernel
  rw [ran] at open_
  refine ⟨s,ran,((directory_map smallVolume_new (run_reached ran)
    (isSome_iff_exists.mp (some.inj open_))).2.2.2.1 (.rename rootLocation nameB nameA) rfl).mpr ?_⟩
  rintro ⟨_,top⟩
  rw [show directory s nameB.bytes = some 3 from shown.2.1] at top
  cases top

-- sfs_rename asserts that what it moves is a file.
theorem root_entry_not_renamed : ∃ s,
    run step smallVolume [.getroot,.link rootLocation nameA rootLocation] = some s ∧
    directory s nameA.bytes = some rootLocation ∧ directory s nameB.bytes = none ∧
    returns s (.rename rootLocation nameA nameB) = none := by
  have ran : ((run step smallVolume [.getroot,.link rootLocation nameA rootLocation]).map fun s =>
      (directory s nameA.bytes,directory s nameB.bytes,(returns s (.rename rootLocation nameA nameB)).isNone)) =
      some (some rootLocation,none,true) := by decide +kernel
  obtain ⟨s,reached,shown⟩ := map_eq_some_iff.mp ran
  simp only [Prod.mk.injEq,isNone_iff_eq_none] at shown
  exact ⟨s,reached,shown⟩
end ToyOS.Sfs

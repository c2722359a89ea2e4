import ToyOS.Library.Shares
import ToyOS.VfsLinks

namespace ToyOS.Sfs
open Function Outcome Shares UserSpace Vfs

-- The same vnodes with the same references, and no further error of VOP_RECLAIM.
structure Same (s t : State) : Prop where
  errors : t.reclaimErrors = s.reclaimErrors
  refs : ∀ i, (t.vnodes i).map Vnode.refcount = (s.vnodes i).map Vnode.refcount

lemma Same.refl (s : State) : Same s s := ⟨rfl,fun _ => rfl⟩

lemma Same.trans (one : Same s t) (two : Same t u) : Same s u :=
  ⟨two.errors.trans one.errors,fun i => (two.refs i).trans (one.refs i)⟩

section
variable {σ α β : Type} {V : σ → State} {m : EStateM Fault σ α} {f : α → EStateM Fault σ β}

lemma Partly.mono {I J : σ → Prop} (weaker : ∀ t, I t → J t) (e : Fault) (t : σ) (error : Partly I e t) :
    Partly J e t := by
  cases e with
  | panic => exact trivial
  | errno errno => exact weaker t error

class Steady (V : σ → State) (m : EStateM Fault σ α) : Prop where
  ends : ∀ s, Ends (m s) (fun _ t => Same (V s) (V t)) (Partly fun t => Same (V s) (V t))

lemma Steady.after [steady : Steady V m] (eq : Same u (V s)) :
    Ends (m s) (fun _ t => Same u (V t)) (Partly fun t => Same u (V t)) :=
  (steady.ends s).mono (fun _ _ later => eq.trans later) (Partly.mono fun _ later => eq.trans later)

lemma steady_bind [one : Steady V m] (rest : ∀ a, Steady V (f a)) : Steady V (m >>= f) :=
  ⟨fun s => ends_bind (one.ends s) fun _ _ eq => Steady.after eq⟩

instance [Steady V m] [rest : ∀ a, Steady V (f a)] : Steady V (m >>= f) := steady_bind rest
instance (a : α) : Steady V (pure a : EStateM Fault σ α) := ⟨fun s => Same.refl (V s)⟩
instance : Steady V (panics : EStateM Fault σ α) := ⟨fun _ => trivial⟩
instance (errno : Errno) : Steady V (fail errno : EStateM Fault σ α) := ⟨fun s => Same.refl (V s)⟩
instance : Steady V (get : EStateM Fault σ σ) := ⟨fun s => Same.refl (V s)⟩

instance [Decidable p] {n : EStateM Fault σ α} [one : Steady V m] [other : Steady V n] :
    Steady V (if p then m else n) := by
  split <;> assumption

instance (holds : Bool) : Steady V (kassert holds : EStateM Fault σ PUnit) := by
  unfold kassert
  infer_instance

instance {m : EStateM Fault σ PUnit} [Steady V m] (cond : Bool) : Steady V (perform cond m) := by
  unfold perform
  infer_instance

instance [steady : Steady V m] : Steady V (attempt m) where
  ends s := by
    have ends := steady.ends s
    unfold attempt
    cases ran : m s with
    | ok a t => exact ends.ok ran
    | error e t =>
      have eq := ends.failed ran
      cases e with
      | panic => exact eq
      | errno errno => exact eq

end

section
variable {s t : State} {i : Nat} {α : Type}

instance (block : Nat) : Steady id (inRange block) := by
  unfold inRange
  infer_instance

instance (block : Nat) : Steady id (transfer block) := by
  refine steady_bind fun _ => ⟨fun s => ends_bind_get (ends_bind_set ?_)⟩
  refine @Steady.after _ _ id _ _ _ ?_ ⟨rfl,fun _ => rfl⟩
  split <;> infer_instance

instance (block : Nat) : Steady id (sfsRblock block) := by
  unfold sfsRblock
  infer_instance

instance (data : Block) (block : Nat) : Steady id (sfsWblock data block) :=
  steady_bind fun _ => ⟨fun _ => ⟨rfl,fun _ => rfl⟩⟩

instance (block : Nat) : Steady id (sfsClearblock block) := inferInstanceAs (Steady id (sfsWblock _ block))

instance : Steady id kmalloc where
  ends _ := ends_bind_get (ends_bind_set (Steady.after (V := id) ⟨rfl,fun _ => rfl⟩))

instance (i : Nat) : Steady id (vnodeOf i) := steady_bind fun s => by split <;> infer_instance

lemma Same.put {w : Vnode} (refs : (s.vnodes i).map Vnode.refcount = some w.refcount) : Same s (s.putVnode i w) := by
  refine ⟨rfl,fun j => ?_⟩
  change (update s.vnodes i (some w) j).map Vnode.refcount = _
  rcases eq_or_ne j i with rfl | ne
  · rw [refs,update_self,Option.map_some]
  · rw [update_of_ne ne]

instance (i : Nat) (f : Inode → Inode) : Steady id (updateInode i f) where
  ends s := unless_vnodeOf (fun _ => trivial) fun v load => Same.put (s := s) (by rw [load]; rfl)

instance (i : Nat) : Steady id (sfsSyncInode i) where
  ends s := by
    refine unless_vnodeOf (fun _ => trivial) fun v load => ?_
    cases v.dirty with
    | false => exact Same.refl s
    | true =>
      refine ends_bind (Steady.ends (V := id) s) fun _ t eq => eq.trans (Same.put ?_)
      rw [eq.refs,id,load]
      rfl

instance : Steady id sfsBalloc where
  ends s := by
    refine ends_bind_get ?_
    cases (List.range (bitmapSize s.nblocks)).find? fun b => !s.freemap b with
    | none => exact Same.refl s
    | some block => exact ends_bind_set (Steady.after (V := id) ⟨rfl,fun _ => rfl⟩)

instance (block : Nat) : Steady id (sfsBfree block) where
  ends _ := ends_bind_get (unless_kassert (fun _ => trivial) fun _ => ⟨rfl,fun _ => rfl⟩)

instance (block : Nat) : Steady id (sfsBused block) := by
  unfold sfsBused
  infer_instance

instance (block : Nat) : Steady id (checkUsed block) := by
  unfold checkUsed
  infer_instance

instance (i : Nat) (k : Fin nDirect) (doalloc : Bool) : Steady id (directBlock i k doalloc) := by
  unfold directBlock
  infer_instance

instance (i : Nat) : Steady id (indirectBlock i) := by
  unfold indirectBlock
  infer_instance

instance (i : Nat) (k : Fin dbPerIdb) (doalloc : Bool) : Steady id (entryBlock i k doalloc) := by
  unfold entryBlock
  infer_instance

instance (i fileblock : Nat) (doalloc : Bool) : Steady id (findBlock i fileblock doalloc) := by
  unfold findBlock
  split <;> infer_instance

instance (i fileblock : Nat) (doalloc : Bool) : Steady id (sfsBmap i fileblock doalloc) := by
  unfold sfsBmap
  infer_instance

end

-- The I/O of a file
section
variable {α : Type}

instance {m : Op α} [steady : Steady id m] : Steady Io.fs (onFs m) where
  ends io := by
    have ends := steady.ends io.fs
    unfold onFs
    cases ran : m io.fs with
    | ok a t => exact ends.ok ran
    | error e t =>
      have eq := ends.failed ran
      cases e with
      | panic => exact eq
      | errno errno => exact eq

instance {m : IoOp α} [steady : Steady Io.fs m] (u : Uio) : Steady id (withUio u m) where
  ends s := by
    have ends := steady.ends ⟨s,u⟩
    unfold withUio
    cases ran : m ⟨s,u⟩ with
    | ok a t => exact ends.ok ran
    | error e t =>
      have eq := ends.failed ran
      cases e with
      | panic => exact eq
      | errno errno => exact eq

instance (buffer : Block) (start n : Nat) : Steady Io.fs (uiomove buffer start n) := by
  refine steady_bind fun _ => ⟨fun io => ends_bind_get ?_⟩
  split
  · exact Same.refl io.fs
  split
  · exact ends_bind_set (Same.refl io.fs)
  · exact ends_bind_set (Same.refl io.fs)

instance (n : Nat) : Steady Io.fs (uiomovezeros n) := by
  induction n with
  | zero => exact inferInstanceAs (Steady Io.fs (pure _))
  | succ n ih => exact steady_bind fun _ => ih

instance (diskblock : Nat) (write : Bool) : Steady id (readBlock diskblock write) := by
  unfold readBlock
  infer_instance

instance (i skipstart len : Nat) : Steady Io.fs (sfsPartialio i skipstart len) := by
  unfold sfsPartialio
  infer_instance

instance (i : Nat) : Steady Io.fs (sfsBlockio i) := by
  unfold sfsBlockio
  infer_instance

instance (i n : Nat) : Steady Io.fs (blockLoop i n) := by
  induction n with
  | zero => exact inferInstanceAs (Steady Io.fs (pure _))
  | succ n ih => exact steady_bind fun _ => ih

instance (i : Nat) : Steady Io.fs (regionIo i) := by
  unfold regionIo alignedIo
  infer_instance

instance (i : Nat) : Steady Io.fs (growSize i) := by
  unfold growSize
  infer_instance

instance (res : Except Errno PUnit) : Steady Io.fs (returnResult res) := by
  unfold returnResult
  split <;> infer_instance

instance (g : Io → Uio) : Steady Io.fs (modify fun io => ⟨io.fs,g io⟩) := ⟨fun io => Same.refl io.fs⟩

instance (i extraresid : Nat) : Steady Io.fs (clippedIo i extraresid) := by
  unfold clippedIo setResid
  infer_instance

instance (i : Nat) : Steady Io.fs (sfsIo i) := by
  unfold sfsIo
  infer_instance

instance (i slot : Nat) : Steady id (sfsReaddir i slot) := by
  unfold sfsReaddir
  infer_instance

instance (i : Nat) (sd : Nat → UInt8) (slot : Nat) : Steady id (sfsWritedir i sd slot) := by
  unfold sfsWritedir
  infer_instance

instance (i : Nat) : Steady id (sfsDirNentries i) := by
  unfold sfsDirNentries
  infer_instance

instance (i : Nat) (name : List UInt8) (n slot : Nat) (hit : Search) : Steady id (findFrom i name n slot hit) := by
  induction n generalizing slot hit with
  | zero => exact inferInstanceAs (Steady id (pure _))
  | succ n ih =>
    unfold findFrom
    infer_instance

instance (i : Nat) (name : List UInt8) : Steady id (sfsDirFindname i name) := by
  unfold sfsDirFindname
  infer_instance

instance (i : Nat) (name : List UInt8) (ino : Nat) : Steady id (sfsDirLink i name ino) := by
  unfold sfsDirLink
  infer_instance

instance (i slot : Nat) : Steady id (sfsDirUnlink i slot) := by
  unfold sfsDirUnlink
  infer_instance

instance (i blocklen : Nat) (ks : List (Fin nDirect)) : Steady id (freeDirect i blocklen ks) := by
  induction ks with
  | nil => exact inferInstanceAs (Steady id (pure _))
  | cons k rest ih =>
    unfold freeDirect
    infer_instance

instance (blocklen : Nat) (ks : List (Fin dbPerIdb)) (id_ : Indirect) : Steady id (freeEntries blocklen ks id_) := by
  induction ks generalizing id_ with
  | nil => exact inferInstanceAs (Steady id (pure _))
  | cons k rest ih =>
    unfold freeEntries
    infer_instance

instance (i len : Nat) : Steady id (sfsTruncate i len) := by
  unfold sfsTruncate truncateIndirect
  infer_instance

instance {m : Op α} [Steady id m] (i : Nat) : Steady id (asFile i m) := by
  unfold asFile
  infer_instance

end

def Shared (held : Nat → Nat) (s : State) : Prop :=
  s.reclaimErrors = [] → ∀ i, (s.vnodes i).map Vnode.refcount = standing (held i)

section
variable {held : Nat → Nat} {s t : State} {i ino : Nat} {v : Vnode} {J : State → Prop} {α : Type} {m : Op α}

lemma Shared.same (shared : Shared held s) (eq : Same s t) : Shared held t := by
  intro clean i
  rw [eq.errors] at clean
  rw [eq.refs]
  exact shared clean i

lemma Steady.shared [steady : Steady id m] (shared : Shared held s) :
    Ends (m s) (fun _ t => Shared held t) (Partly (Shared held)) :=
  (steady.ends s).mono (fun _ _ eq => shared.same eq) (Partly.mono fun _ eq => shared.same eq)

lemma Steady.attempted [Steady id m] (shared : Shared held s) :
    Ends (Sfs.attempt m s) (fun _ t => Shared held t) (Partly J) := by
  refine (ends_attempt_after (Steady.shared shared)).imp fun res t done => ?_
  cases res with
  | ok a => exact done
  | error errno => exact done

lemma ends_updateInode_shared (shared : Shared held s) (f : Inode → Inode) :
    Ends (updateInode i f s) (fun _ t => Shared held t) (Partly J) :=
  unless_vnodeOf (fun _ => trivial) fun _ load => shared.same (Same.put (by rw [load]; rfl))

lemma ends_dropLink_shared (shared : Shared held s) : Ends (dropLink i s) (fun _ t => Shared held t) (Partly J) :=
  unless_vnodeOf (fun _ => trivial) fun _ _ => unless_kassert (fun _ => trivial) fun _ =>
    ends_updateInode_shared shared _

def Turns (after : α → (Nat → Nat) → Nat → Nat) (m : Op α) : Prop :=
  ∀ held s, Shared held s → Ends (m s) (fun a t => Shared (after a held) t) (Partly (Shared held))

lemma Steady.turns [Steady id m] : Turns (fun _ held => held) m := fun _ _ shared => Steady.shared shared

lemma Turns.asDir {after : α → (Nat → Nat) → Nat → Nat} (turns : Turns after m) (i : Nat) :
    Turns after (asDir i m) := by
  refine fun held s shared => unless_vnodeOf (fun _ => trivial) fun v _ => ?_
  split
  · exact turns held s shared
  · exact shared

section
variable (shared : Shared held s)
include shared

lemma Shared.put {held' : Nat → Nat} {w : Vnode} (self : s.reclaimErrors = [] → standing (held' i) = some w.refcount)
    (rest : ∀ j ≠ i, held' j = held j) : Shared held' (s.putVnode i w) := by
  intro clean j
  change (update s.vnodes i (some w) j).map Vnode.refcount = _
  rcases eq_or_ne j i with rfl | ne
  · rw [update_self,self clean,Option.map_some]
  rw [update_of_ne ne,rest j ne]
  exact shared clean j

lemma Shared.count (clean : s.reclaimErrors = []) (load : s.vnodes i = some v) :
    held i = v.refcount ∧ 0 < v.refcount := by
  have counted := shared clean i
  rw [load] at counted
  exact standing_eq_some.mp counted.symm

lemma Shared.one_more (load : s.vnodes i = some v) :
    Shared (more held i) (s.putVnode i {v with refcount := v.refcount+1}) := by
  refine shared.put (fun clean => ?_) fun j other => more_of_ne other
  rw [more_self,(shared.count clean load).1]
  exact standing_succ _

lemma ends_incref_shared : Ends (vnodeIncref i s) (fun _ t => Shared (more held i) t) (Partly J) :=
  unless_vnodeOf (fun _ => trivial) fun _ load => shared.one_more load

end

lemma Steady.step {f : α → Op β} {Q : β → State → Prop} [Steady id m] (eq : Same s t)
    (bad : ∀ u, Same s u → J u) (rest : ∀ a u, Same s u → Ends (f a u) Q (Partly J)) :
      Ends ((m >>= f) t) Q (Partly J) :=
  ends_bind ((Steady.after (V := id) eq).imp_error (Partly.mono bad)) rest

lemma ends_read_shared (shared : Shared held s) (miss : s.vnodes ino = none) (forcetype : BitVec 16) :
    Ends (readVnode ino forcetype s) (fun _ t => Shared (more held ino) t) (Partly (Shared held)) := by
  have bad := fun u (eq : Same s u) => shared.same eq
  refine Steady.step (Same.refl s) bad fun _ t eq => ?_
  refine Steady.step eq bad fun _ t eq => ?_
  refine Steady.step eq bad fun _ t eq => ?_
  refine Steady.step eq bad fun _ t eq => ?_
  refine Steady.step eq bad fun _ t eq => ?_
  refine Steady.step eq bad fun _ t eq => ?_
  refine Steady.step eq bad fun _ t eq => ?_
  refine (shared.same eq).put (fun clean => ?_) fun j other => more_of_ne other
  have none_ := shared (eq.errors.symm.trans clean) ino
  rw [miss] at none_
  rw [more_self,standing_eq_none.mp none_.symm]
  rfl

lemma ends_load_shared (shared : Shared held s) (forcetype : BitVec 16) :
    Ends (sfsLoadvnode ino forcetype s) (fun _ t => Shared (more held ino) t) (Partly (Shared held)) := by
  refine ends_bind_get (unless_kassert (fun _ => trivial) fun _ => ?_)
  cases load : s.vnodes ino with
  | some v => exact unless_kassert (fun _ => trivial) fun _ => shared.one_more load
  | none => exact ends_read_shared shared load forcetype

-- What VOP_RECLAIM does to the vnodes if it succeeds.
structure Unloaded (s : State) (i : Nat) (t : State) : Prop where
  errors : t.reclaimErrors = s.reclaimErrors
  self : t.vnodes i = none
  others : ∀ j, j ≠ i → (t.vnodes j).map Vnode.refcount = (s.vnodes j).map Vnode.refcount

lemma ends_reclaim_unloaded (i : Nat) (s : State) :
    Ends (sfsReclaim i s) (fun _ t => Unloaded s i t) (Partly fun _ => True) := by
  refine unless_vnodeOf (fun _ => trivial) fun v load => ?_
  split
  · exact unless_kassert (fun _ => trivial) fun _ => trivial
  have bad := fun (u : State) (_ : Same s u) => trivial
  refine Steady.step (Same.refl s) bad fun _ t eq => ?_
  refine Steady.step eq bad fun _ t eq => ?_
  refine Steady.step eq bad fun _ t eq => ?_
  refine ⟨eq.errors,update_self ..,fun j other => ?_⟩
  change (update t.vnodes i none j).map Vnode.refcount = _
  rw [update_of_ne other]
  exact eq.refs j

lemma Shared.unloaded (shared : Shared (more held i) s) (load : s.vnodes i = some v) (last : v.refcount ≤ 1)
    (unloaded : Unloaded s i t) : Shared held t := by
  intro clean j
  have pre : s.reclaimErrors = [] := unloaded.errors.symm.trans clean
  rcases eq_or_ne j i with rfl | ne
  · have count := (shared.count pre load).1
    rw [more_self] at count
    have zero : held j = 0 := by omega
    rw [unloaded.self,zero]
    rfl
  · rw [unloaded.others j ne,shared pre j,more_of_ne ne]

lemma ends_decref_shared (shared : Shared (more held i) s) :
    Ends (vnodeDecref i s) (fun _ t => Shared held t) (Partly J) := by
  refine unless_vnodeOf (fun _ => trivial) fun v load => unless_kassert (fun _ => trivial) fun _ => ?_
  split
  · rename_i several
    refine shared.put (fun clean => ?_) fun j other => (more_of_ne other).symm
    have count := (shared.count clean load).1
    rw [more_self] at count
    have rest : held i = v.refcount-1 ∧ 0 < v.refcount-1 := by omega
    exact standing_eq_some.mpr rest
  rename_i one
  have last : v.refcount ≤ 1 := not_lt.mp one
  refine ends_bind (Q := fun res t => res = .ok ⟨⟩ → Shared held t) ?_ fun res t done => ?_
  · have ends := ends_reclaim_unloaded i s
    unfold attempt
    cases ran : sfsReclaim i s with
    | ok a t => exact fun _ => shared.unloaded load last (ends.ok ran)
    | error e t =>
      cases e with
      | panic => trivial
      | errno errno => exact fun never => by cases never
  cases res with
  | ok _ => exact done rfl
  | error errno => exact fun clean => by cases clean

lemma turns_lookonce (i : Nat) (name : List UInt8) :
    Turns (fun found held => more held found.1) (sfsLookonce i name) := by
  intro held s shared
  refine ends_bind (Steady.shared shared) fun found t shared => ?_
  cases found.hit with
  | none => exact shared
  | some hit =>
    obtain ⟨ino,slot⟩ := hit
    refine ends_bind (ends_load_shared shared typeInval) fun _ t shared => ?_
    refine unless_vnodeOf (fun _ => trivial) fun v _ => unless_kassert (fun _ => trivial) fun _ => ?_
    exact shared

section
variable (dir : Nat)
include dir

lemma turns_lookup (name : List UInt8) : Turns (fun ino held => more held ino) (sfsLookup dir name) :=
  fun held s shared => ends_bind (turns_lookonce dir name held s shared) fun _ _ shared => shared

lemma turns_lookparent (path : List UInt8) : Turns (fun _ held => more held dir) (Vfs.sfsLookparent dir path) := by
  intro held s shared
  unfold Vfs.sfsLookparent
  split
  · exact shared
  · exact ends_incref_shared shared

lemma turns_creat (name : List UInt8) (excl : Bool) :
    Turns (fun ino held => more held ino) (sfsCreat dir name excl) := by
  intro held s shared
  refine ends_bind (Steady.shared shared) fun found t shared => ?_
  cases found.hit with
  | some hit =>
    obtain ⟨ino,slot⟩ := hit
    cases excl with
    | true => exact shared
    | false => exact ends_bind (ends_load_shared shared typeInval) fun _ t shared => shared
  | none =>
    have makes : Ends (sfsMakeobj typeFile t) (fun ino t => Shared (more held ino) t) (Partly (Shared held)) := by
      refine ends_bind (Steady.shared shared) fun ino t shared => ?_
      exact ends_bind (ends_load_shared shared typeFile) fun _ t shared => shared
    refine ends_bind makes fun ino t shared => ?_
    refine ends_bind (Steady.attempted shared) fun res t shared => ?_
    cases res with
    | error errno => exact ends_bind (ends_decref_shared shared) fun _ t shared => shared
    | ok _ => exact ends_bind (ends_updateInode_shared shared _) fun _ t shared => shared

lemma turns_remove (name : List UInt8) : Turns (fun _ held => held) (sfsRemove dir name) := by
  intro held s shared
  refine ends_bind (turns_lookonce dir name held s shared) fun hit t shared => ?_
  obtain ⟨victim,slot⟩ := hit
  refine ends_bind (Steady.attempted shared) fun res t shared => ?_
  cases res with
  | ok _ => exact ends_bind (ends_dropLink_shared shared) fun _ t shared => ends_decref_shared shared
  | error errno => exact ends_bind (ends_decref_shared shared) fun _ t shared => shared

lemma turns_rename (n1 n2 : List UInt8) : Turns (fun _ held => held) (sfsRename dir n1 n2) := by
  intro held s shared
  refine unless_kassert (fun _ => trivial) fun _ => ?_
  refine ends_bind (turns_lookonce dir n1 held s shared) fun hit t shared => ?_
  obtain ⟨g1,slot1⟩ := hit
  refine unless_vnodeOf (fun _ => trivial) fun v _ => unless_kassert (fun _ => trivial) fun _ => ?_
  refine ends_bind (Steady.attempted shared) fun res t shared => ?_
  cases res with
  | error errno => exact ends_bind (ends_decref_shared shared) fun _ t shared => shared
  | ok slot2 =>
    refine ends_bind (ends_updateInode_shared shared _) fun _ t shared => ?_
    refine ends_bind (Steady.attempted shared) fun res t shared => ?_
    cases res with
    | ok _ => exact ends_bind (ends_dropLink_shared shared) fun _ t shared => ends_decref_shared shared
    | error errno =>
      refine ends_bind (Steady.attempted shared) fun result2 t shared => ?_
      cases result2 with
      | error _ => trivial
      | ok _ =>
        refine unless_vnodeOf (fun _ => trivial) fun v load => ends_bind_modify ?_
        have eq : Same t (t.putVnode g1 {v with inode := v.inode.dropLink}) := Same.put (by rw [load]; rfl)
        exact ends_bind (ends_decref_shared (shared.same eq)) fun _ t shared => shared

instance (name : List UInt8) (file : Nat) : Steady id (sfsLink dir name file) := by
  unfold sfsLink
  infer_instance

end

lemma ends_getroot_shared (shared : Shared held s) :
    Ends (sfsGetroot s) (fun ino t => Shared (more held ino) t) (Partly J) := by
  refine ends_bind (ends_attempt_after (ends_load_shared shared typeInval)) fun res t done => ?_
  cases res with
  | ok _ => exact done
  | error _ => trivial

end
end ToyOS.Sfs

import ToyOS.SfsBlocks
import ToyOS.Library.Tally

namespace ToyOS.Sfs
open Function Outcome Tally UserSpace

section
variable {σ α β : Type} {s : σ} {Q : α → σ → Prop} {R R' : Errno → σ → Prop} {E : Fault → σ → Prop}

def Errs (R : Errno → σ → Prop) : Fault → σ → Prop
  | .panic,_ => False
  | .errno errno,t => R errno t

lemma Errs.mono (weaker : ∀ errno t, R errno t → R' errno t) (e : Fault) (t : σ) (error : Errs R e t) :
    Errs R' e t := by
  cases e with
  | panic => exact error
  | errno errno => exact weaker errno t error

def Never : Errno → σ → Prop := fun _ _ => False

lemma Errs.never (e : Fault) (t : σ) (error : Errs Never e t) : E e t := by
  cases e with
  | panic => exact error.elim
  | errno errno => exact error.elim

lemma ends_fail (holds : R errno s) : Ends ((fail errno : EStateM Fault σ α) s) Q (Errs R) := holds

lemma ends_kassert {holds : Bool} {Q : PUnit → σ → Prop} (check : holds) (rest : Q ⟨⟩ s) :
    Ends ((kassert holds : EStateM Fault σ PUnit) s) Q E := by
  subst check
  exact rest

lemma ends_bind_kassert {holds : Bool} {f : PUnit → EStateM Fault σ α} (check : holds)
    (rest : Ends (f ⟨⟩ s) Q E) : Ends ((kassert holds >>= f) s) Q E := by
  subst check
  exact rest

lemma ends_perform {cond : Bool} {Q : PUnit → σ → Prop}
    (yes : cond → Ends (m s) Q E) (no : cond = false → Q ⟨⟩ s) : Ends (perform cond m s) Q E := by
  cases cond with
  | true => exact yes rfl
  | false => exact no rfl

lemma ends_attempt {P : α → σ → Prop} {Q : Except Errno α → σ → Prop} (ends : Ends (m s) P (Errs R))
    (res : ∀ a t, P a t → Q (.ok a) t) (error : ∀ errno t, R errno t → Q (.error errno) t) :
      Ends (attempt m s) Q E := by
  unfold attempt
  cases ran : m s with
  | ok a t => exact res a t (ends.ok ran)
  | error e t =>
    cases e with
    | panic => exact (ends.failed ran).elim
    | errno errno => exact error errno t (ends.failed ran)

end

variable {s t : State} {live : Nat → Bool} {floating : Option Nat} {i j b d : Nat} {v w : Vnode}
  {p : Slot} {o : Owner} {α : Type} {Q : α → State → Prop} {E : Fault → State → Prop}

lemma ends_vnodeOf {Q : Vnode → State → Prop} (loaded : s.vnodes i = some v) (rest : Q v s) :
    Ends (vnodeOf i s) Q E := by
  refine ends_bind_get ?_
  rw [loaded]
  exact rest

lemma ends_bind_vnodeOf {f : Vnode → Op α} (loaded : s.vnodes i = some v) (rest : Ends (f v s) Q E) :
    Ends ((vnodeOf i >>= f) s) Q E :=
  ends_bind (Q := fun w t => w = v ∧ s = t) (ends_vnodeOf loaded ⟨rfl,rfl⟩) fun _ _ eq => by
    obtain ⟨rfl,rfl⟩ := eq
    exact rest

lemma ends_updateInode {f : Inode → Inode} {Q : PUnit → State → Prop} (loaded : s.vnodes i = some v)
    (rest : Q ⟨⟩ (s.putVnode i {v with inode := f v.inode,dirty := true})) : Ends (updateInode i f s) Q E :=
  ends_bind_vnodeOf loaded (ends_modify rest)

lemma ends_inRange {Q : PUnit → State → Prop} (lt : b < s.dBlocks) (holds : Q ⟨⟩ s) : Ends (inRange b s) Q E :=
  ends_bind_get (ends_kassert (decide_eq_true lt) holds)

lemma ends_transfer {Q : PUnit → State → Prop} (quiet : Quiet s) (lt : b < s.dBlocks)
    (holds : Q ⟨⟩ {s with ios := s.ios+1}) : Ends (transfer b s) Q E := by
  refine ends_bind (ends_inRange (Q := fun _ t => t = s) lt rfl) ?_
  rintro _ t rfl
  refine ends_bind_get (ends_bind_set ?_)
  rw [show t.device t.ios = none from congrFun quiet.device _]
  exact holds

lemma ends_rblock {Q : Block → State → Prop} (quiet : Quiet s) (lt : b < s.dBlocks)
    (holds : Q (s.disk b) {s with ios := s.ios+1}) : Ends (sfsRblock b s) Q E :=
  ends_bind (ends_transfer (Q := fun _ t => t = {s with ios := s.ios+1}) quiet lt rfl)
    fun _ _ eq => by subst eq; exact holds

def State.write (s : State) (b : Nat) (data : Block) : State :=
  {s with ios := s.ios+1,disk := update s.disk b data}

lemma ends_wblock {Q : PUnit → State → Prop} (quiet : Quiet s) (lt : b < s.dBlocks)
    (holds : Q ⟨⟩ (s.write b data)) : Ends (sfsWblock data b s) Q E :=
  ends_bind (ends_transfer (Q := fun _ t => t = {s with ios := s.ios+1}) quiet lt rfl)
    fun _ _ eq => by subst eq; exact holds

lemma ends_bused {Q : Bool → State → Prop} (lt : b < s.nblocks) (holds : Q (s.freemap b) s) : Ends (sfsBused b s) Q E :=
  ends_bind_get (ends_bind_kassert (decide_eq_true lt) holds)

lemma ends_checkUsed {Q : PUnit → State → Prop}
    (used : b ≠ 0 → b < s.nblocks ∧ s.freemap b) (holds : Q ⟨⟩ s) : Ends (checkUsed b s) Q E := by
  unfold checkUsed
  split
  · exact holds
  rename_i nz
  refine ends_bind (Q := fun marked t => marked = true ∧ t = s) (ends_bused (used nz).1 ⟨(used nz).2,rfl⟩) ?_
  rintro _ _ ⟨rfl,rfl⟩
  exact holds

lemma Fs.inside (fs : Fs s live floating) (held : own s.nblocks live (pointer s) floating o = some b) : b < s.dBlocks :=
  lt_of_lt_of_le (fs.ledger.held o b held).1 fs.fits

lemma Fs.slot_inside (fs : Fs s live floating) (alive : live i) (hit : pointer s i p ≠ 0) : pointer s i p < s.dBlocks :=
  fs.inside (own_slot alive hit)

-- Two states that differ in their counters only.
structure Calm (s t : State) : Prop where
  fixed : Fixed s t
  disk : t.disk = s.disk
  freemap : t.freemap = s.freemap
  dirty : t.freemapDirty = s.freemapDirty
  vnodes : t.vnodes = s.vnodes

lemma Calm.refl : Calm s s := ⟨.refl,rfl,rfl,rfl,rfl⟩

lemma Calm.trans (one : Calm s t) (two : Calm t u) : Calm s u :=
  ⟨one.fixed.trans two.fixed,two.disk.trans one.disk,two.freemap.trans one.freemap,
    two.dirty.trans one.dirty,two.vnodes.trans one.vnodes⟩

lemma calm_transfer : Calm s {s with ios := s.ios+1} := ⟨⟨rfl,rfl,rfl,rfl⟩,rfl,rfl,rfl,rfl⟩

section
variable (calm : Calm s t)
include calm

lemma Calm.alike (j : Nat) : Alike s t j :=
  alike_of_frame (congrFun calm.vnodes j) (congrFun calm.disk j) fun _ _ => congrFun calm.disk _

lemma Calm.kept : Kept live s i t :=
  ⟨calm.fixed,fun j => by rw [calm.vnodes],fun j _ _ => calm.alike j,(calm.alike i).file⟩

lemma Calm.loaded (loaded : s.vnodes i = some v) : t.vnodes i = some v := by
  rw [calm.vnodes,loaded]

lemma Calm.fs (fs : Fs s live floating) : Fs t live floating := by
  refine fs.steady calm.fixed (.still calm.disk calm.freemap calm.dirty) calm.freemap
    (fun j _ => (calm.alike j).pointer) ?_
  rw [calm.vnodes,calm.disk]
  exact fs.cached

end

def spare (s : State) : Nat := tally s.freemap s.nblocks false

lemma spare_congr (nblocks : t.nblocks = s.nblocks) (freemap : t.freemap = s.freemap) : spare t = spare s := by
  rw [spare,spare,nblocks,freemap]

-- sfs_balloc
structure Granted (live : Nat → Bool) (s : State) (b : Nat) (t : State) : Prop where
  fs : Fs t live (some b)
  fixed : Fixed s t
  free : s.freemap b = false
  zero : t.disk b = zeros
  vnodes : t.vnodes = s.vnodes
  spare : spare t+1 = spare s
  alike : ∀ j, live j = true → Alike s t j

lemma Granted.nonzero (got : Granted live s b t) : b ≠ 0 :=
  got.fs.held_nonzero (o := .floating) rfl Owner.noConfusion

lemma Granted.kept (got : Granted live s b t) (alive : live i) : Kept live s i t :=
  ⟨got.fixed,fun j => by rw [got.vnodes],fun j lives _ => got.alike j lives,(got.alike i alive).file⟩

lemma Fs.spare_take (fs : Fs s live floating) (free : s.freemap b = false) (nblocks : t.nblocks = s.nblocks)
    (freemap : t.freemap = update s.freemap b true) : Sfs.spare t+1 = Sfs.spare s := by
  have counts := tally_set (x := false) (f := s.freemap) (g := t.freemap) (fs.below free) fun c other => by
    rw [freemap,update_of_ne other]
  rw [Sfs.spare,Sfs.spare,nblocks]
  rwa [free,if_pos rfl,freemap,update_self,if_neg Bool.noConfusion,←freemap] at counts

lemma spare_none (none_ : (List.range (bitmapSize s.nblocks)).find? (fun b => !s.freemap b) = none) : spare s = 0 := by
  refine Nat.eq_zero_of_not_pos fun some_ => ?_
  obtain ⟨b,lt,free⟩ := tally_pos.mp some_
  have used := List.find?_eq_none.mp none_ b (List.mem_range.mpr (lt_of_lt_of_le lt (le_bitmapSize _)))
  rw [free] at used
  exact used rfl

lemma ends_balloc (fs : Fs s live none) (quiet : Quiet s) :
    Ends (sfsBalloc s) (Granted live s) (Errs fun e t => e = .enospc ∧ t = s ∧ spare s = 0) := by
  refine ends_bind_get ?_
  cases hit : (List.range (bitmapSize s.nblocks)).find? (fun b => !s.freemap b) with
  | none => exact ends_fail ⟨rfl,rfl,spare_none hit⟩
  | some block =>
    have free : s.freemap block = false := by
      have clear := List.find?_some hit
      rwa [Bool.not_eq_true'] at clear
    have lt := fs.below free
    refine ends_bind_set (ends_bind_kassert (decide_eq_true lt) ?_)
    refine ends_bind (ends_wblock (Q := fun _ t => t =
      State.write {s with freemap := update s.freemap block true,freemapDirty := true} block zeros)
      ⟨quiet.device,quiet.memory⟩ (lt_of_lt_of_le lt fs.fits) rfl) ?_
    rintro _ _ rfl
    have fixed : Fixed s (State.write
        {s with freemap := update s.freemap block true,freemapDirty := true} block zeros) :=
      ⟨rfl,rfl,rfl,rfl⟩
    obtain ⟨after,alike⟩ := fs.allocate free fixed rfl rfl (fun c other => update_of_ne other ..) rfl
    exact ends_pure ⟨after,fixed,free,update_self ..,rfl,fs.spare_take free rfl rfl,alike⟩

lemma byte_attach (self : pointer t i = update (pointer s i) p b) (empty : pointer s i p = 0) (zero : t.disk b = zeros)
    (blocks : ∀ q ≠ .indirect, pointer s i q ≠ 0 → t.disk (pointer s i q) = s.disk (pointer s i q)) :
    byte t i = byte s i := by
  funext offset
  rw [byte,byte]
  split
  · rfl
  rename_i q place
  rw [self]
  rcases eq_or_ne q p with rfl | ne
  · rw [update_self,empty,zero,if_pos rfl]
    split
    · rfl
    · rfl
  rw [update_of_ne ne]
  split
  · rfl
  rename_i hit
  rw [blocks q (slotOf_ne_indirect place) hit]

lemma node_putVnode : node (s.putVnode i w) i = w.inode := node_loaded (update_self ..)

lemma putVnode_other (ne : j ≠ i) : Alike s (s.putVnode i w) j :=
  alike_of_frame (update_of_ne ne ..) rfl fun _ _ => rfl

lemma Fs.cached_dirty (fs : Fs s live floating) (alive : live i) (dirty : w.dirty) :
    ∀ j v, (s.putVnode i w).vnodes j = some v →
      live j ∧ (v.dirty = false → decodeInode ((s.putVnode i w).disk j) = v.inode) := by
  refine fs.cached_update alive rfl ?_ fun _ _ _ => rfl
  intro clean
  rw [dirty] at clean
  cases clean

-- The three ways to give a block to an inode; in the end the place refers to it.
structure Attached (live : Nat → Bool) (s : State) (i : Nat) (p : Slot) (b : Nat) (t : State) : Prop where
  fs : Fs t live none
  kept : Kept live s i t
  freemap : t.freemap = s.freemap
  self : pointer t i = update (pointer s i) p b

section
variable (loaded : s.vnodes i = some v)
include loaded

lemma refs_putVnode (eq : w.refcount = v.refcount) :
    ∀ j, ((s.putVnode i w).vnodes j).map Vnode.refcount = (s.vnodes j).map Vnode.refcount :=
  refs_update loaded eq rfl

lemma kept_putVnode (eq : w.refcount = v.refcount)
    (self : file (s.putVnode i w) i = file s i) : Kept live s i (s.putVnode i w) :=
  ⟨⟨rfl,rfl,rfl,rfl⟩,refs_putVnode loaded eq,fun _ _ other => putVnode_other other,self⟩

lemma pointer_setDirect (word : (BitVec.ofNat 32 b).toNat = b)
    (inode : w.inode = v.inode.setDirect k b) : pointer (s.putVnode i w) i = update (pointer s i) (.direct k) b := by
  have pre := node_loaded loaded
  have after : node (s.putVnode i w) i = v.inode.setDirect k b := node_putVnode.trans inode
  funext q
  cases q with
  | direct q =>
    rw [pointer,after]
    change (update v.inode.direct k (BitVec.ofNat 32 b) q).toNat = _
    rcases eq_or_ne q k with rfl | ne
    · rw [update_self,update_self,word]
    · rw [update_of_ne ne,update_of_ne fun eq => ne (Slot.direct.inj eq),pointer,pre]
  | indirect =>
    rw [pointer,after,update_of_ne Slot.noConfusion,pointer,pre]
    rfl
  | entry q =>
    rw [pointer,after,update_of_ne Slot.noConfusion,pointer,pre]
    rfl

lemma pointer_setIndirect (word : (BitVec.ofNat 32 b).toNat = b) (inode : w.inode = v.inode.setIndirect b)
    (bare : ∀ k, pointer s i (.entry k) = 0) (zero : b ≠ 0 → s.disk b = zeros) :
    pointer (s.putVnode i w) i = update (pointer s i) .indirect b := by
  have pre := node_loaded loaded
  have after : node (s.putVnode i w) i = v.inode.setIndirect b := node_putVnode.trans inode
  funext q
  cases q with
  | direct q =>
    rw [pointer,after,update_of_ne Slot.noConfusion,pointer,pre]
    rfl
  | indirect =>
    rw [pointer,after,update_self]
    exact word
  | entry q =>
    rw [pointer,after,update_of_ne Slot.noConfusion,bare]
    change (if (BitVec.ofNat 32 b).toNat = 0 then 0 else (entries (s.disk (BitVec.ofNat 32 b).toNat) q).toNat) = 0
    rw [word]
    split
    · rfl
    rename_i hit
    rw [zero hit,entries_zeros]
    rfl

end

lemma attach_direct (fs : Fs s live (some b)) (zero : s.disk b = zeros) (loaded : s.vnodes i = some v)
    (empty : (v.inode.direct k).toNat = 0) : Attached live s i (.direct k) b
      (s.putVnode i {v with inode := v.inode.setDirect k b,dirty := true}) := by
  have alive := fs.alive loaded
  have pre := node_loaded loaded
  have none_ : pointer s i (.direct k) = 0 := by rwa [pointer,pre]
  have self := pointer_setDirect (w := {v with inode := v.inode.setDirect k b,dirty := true})
    loaded (fs.held_word (o := .floating) rfl) rfl
  refine ⟨fs.attach alive ⟨rfl,rfl,rfl,rfl⟩ (.still rfl rfl rfl) rfl none_ self
    (fun j _ other => (putVnode_other other).pointer) (fs.cached_dirty alive rfl),
    kept_putVnode loaded rfl ?_,rfl,self⟩
  rw [file,file,node_putVnode,pre,byte_attach self none_ zero fun _ _ _ => rfl]
  rfl

lemma attach_indirect (fs : Fs s live (some b)) (zero : s.disk b = zeros) (loaded : s.vnodes i = some v)
    (empty : v.inode.indirect.toNat = 0) : Attached live s i .indirect b
      (s.putVnode i {v with inode := v.inode.setIndirect b,dirty := true}) := by
  have alive := fs.alive loaded
  have pre := node_loaded loaded
  have none_ : pointer s i .indirect = 0 := by rwa [pointer,pre]
  have self := pointer_setIndirect (w := {v with inode := v.inode.setIndirect b,dirty := true})
    loaded (fs.held_word (o := .floating) rfl) rfl (fun _ => if_pos none_) fun _ => zero
  refine ⟨fs.attach alive ⟨rfl,rfl,rfl,rfl⟩ (.still rfl rfl rfl) rfl none_ self
    (fun j _ other => (putVnode_other other).pointer) (fs.cached_dirty alive rfl),
    kept_putVnode loaded rfl ?_,rfl,self⟩
  rw [file,file,node_putVnode,pre,byte_congr (s := s) (j := i)]
  · rfl
  · intro q data
    rw [self,update_of_ne data]
  · exact fun _ _ _ => rfl

-- The indirect block of `i` is written; what changes is in its entries only.
structure Rewritten (live : Nat → Bool) (s : State) (i : Nat) (table : Fin dbPerIdb → BitVec 32)
    (t : State) : Prop where
  others : ∀ j, live j = true → j ≠ i → Alike s t j
  node : node t i = node s i
  entry : ∀ k, pointer t i (.entry k) = (table k).toNat
  rest : ∀ p, (∀ k, p ≠ .entry k) → pointer t i p = pointer s i p
  blocks : ∀ p, p ≠ .indirect → pointer s i p ≠ 0 → t.disk (pointer s i p) = s.disk (pointer s i p)
  cached : ∀ j v, t.vnodes j = some v →
    live j = true ∧ (v.dirty = false → decodeInode (t.disk j) = v.inode)
  system : System s t

lemma Fs.rewrite (fs : Fs s live floating) (alive : live i) (hit : pointer s i .indirect ≠ 0)
    (read : entries data = table) (disk : t.disk = update s.disk (pointer s i .indirect) data)
    (vnodes : t.vnodes = s.vnodes) (freemap : t.freemapDirty = false → s.freemapDirty = false ∧ t.freemap = s.freemap) :
    Rewritten live s i table t := by
  have held : own s.nblocks live (pointer s) floating (.slot i .indirect) = some (pointer s i .indirect) :=
    own_slot alive hit
  have apart : ∀ c ≠ pointer s i .indirect, t.disk c = s.disk c := by
    intro c other
    rw [disk,update_of_ne other]
  have inodes : ∀ j, live j → t.disk j = s.disk j := fun j lives =>
    apart j (fs.inode_apart held lives Owner.noConfusion)
  have same : node t i = node s i := node_frame (congrFun vnodes i) (inodes i alive)
  have indirect : pointer t i .indirect = pointer s i .indirect := by rw [pointer,pointer,same]
  refine ⟨?_,same,?_,?_,?_,?_,fs.system_held held Owner.noConfusion (fun _ => Owner.noConfusion) apart freemap⟩
  · intro j lives other
    refine fs.alike_other held lives Owner.noConfusion ?_ apart (congrFun vnodes j)
    intro p eq
    exact other (Owner.slot.inj eq).1.symm
  · intro k
    have block : t.disk (node t i).indirect.toNat = data := by
      change t.disk (pointer t i .indirect) = data
      rw [indirect,disk,update_self]
    rw [pointer,if_neg (show ¬(node t i).indirect.toNat = 0 from fun zero => hit (indirect.symm.trans zero)),
      block,read]
  · intro p notEntry
    cases p with
    | direct k => rw [pointer,pointer,same]
    | indirect => exact indirect
    | entry k => exact absurd rfl (notEntry k)
  · intro p data present
    refine apart _ fun eq => ?_
    have also : own s.nblocks live (pointer s) floating (.slot i p) = some (pointer s i .indirect) :=
      (own_slot alive present).trans (congrArg some eq)
    exact data (Owner.slot.inj (fs.ledger.unique _ _ _ also held)).2
  intro j v loaded
  rw [vnodes] at loaded
  obtain ⟨lives,clean⟩ := fs.cached j v loaded
  rw [inodes j lives]
  exact ⟨lives,clean⟩

lemma entry_pointer (hit : pointer s i .indirect ≠ 0) (k : Fin dbPerIdb) :
    pointer s i (.entry k) = (entries (s.disk (pointer s i .indirect)) k).toNat := if_neg hit

lemma Rewritten.self {entry : BitVec 32} (hit : pointer s i .indirect ≠ 0)
    (written : Rewritten live s i (update (entries (s.disk (pointer s i .indirect))) k entry) t) :
    pointer t i = update (pointer s i) (.entry k) entry.toNat := by
  funext q
  rcases eq_or_ne q (.entry k) with rfl | other
  · rw [written.entry,update_self,update_self]
  rw [update_of_ne other]
  cases q with
  | direct q => exact written.rest _ fun _ => Slot.noConfusion
  | indirect => exact written.rest _ fun _ => Slot.noConfusion
  | entry q =>
    have ne : q ≠ k := by
      rintro rfl
      exact other rfl
    rw [written.entry,update_of_ne ne,entry_pointer hit]

lemma attach_entry (fs : Fs s live (some b)) (zero : s.disk b = zeros) (alive : live i)
    (hit : pointer s i .indirect ≠ 0) (empty : pointer s i (.entry k) = 0) :
    Attached live s i (.entry k) b (s.write (pointer s i .indirect) (encodeEntries
      (update (entries (s.disk (pointer s i .indirect))) k (BitVec.ofNat 32 b)))) := by
  have word := fs.held_word (o := .floating) rfl
  have written := fs.rewrite (t := s.write (pointer s i .indirect) (encodeEntries
      (update (entries (s.disk (pointer s i .indirect))) k (BitVec.ofNat 32 b))))
    alive hit (entries_encode _) rfl rfl fun clean => ⟨clean,rfl⟩
  have self := written.self hit
  rw [word] at self
  have apart : b ≠ pointer s i .indirect := by
    intro eq
    have also : own s.nblocks live (pointer s) (some b) (.slot i .indirect) = some b :=
      (own_slot alive hit).trans (congrArg some eq.symm)
    exact Owner.noConfusion (fs.ledger.unique .floating _ _ rfl also)
  refine ⟨fs.attach alive ⟨rfl,rfl,rfl,rfl⟩ written.system rfl empty self
    (fun j lives other => (written.others j lives other).pointer) written.cached,
    ⟨⟨rfl,rfl,rfl,rfl⟩,fun _ => rfl,written.others,?_⟩,rfl,self⟩
  have zeroed : (s.write (pointer s i .indirect) (encodeEntries
      (update (entries (s.disk (pointer s i .indirect))) k (BitVec.ofNat 32 b)))).disk b = zeros :=
    (update_of_ne apart ..).trans zero
  rw [file,file,written.node,byte_attach self empty zeroed written.blocks]

def lacks (s : State) (i : Nat) (p : Slot) : Nat := if pointer s i p = 0 then 1 else 0

def cost (s : State) (i : Nat) : Slot → Nat
  | .direct k => lacks s i (.direct k)
  | .indirect => lacks s i .indirect
  | .entry k => lacks s i (.entry k)+lacks s i .indirect

lemma lacks_absent (miss : pointer s i p = 0) : lacks s i p = 1 := if_pos miss
lemma lacks_present (hit : pointer s i p ≠ 0) : lacks s i p = 0 := if_neg hit

lemma bare_of_indirect (none_ : pointer s i .indirect = 0) (k : Fin dbPerIdb) : pointer s i (.entry k) = 0 :=
  if_pos none_

lemma indirect_of_entry (hit : pointer s i (.entry k) ≠ 0) : pointer s i .indirect ≠ 0 :=
  fun none_ => hit (bare_of_indirect none_ k)

lemma cost_present (hit : pointer s i p ≠ 0) : cost s i p = 0 := by
  cases p with
  | direct k => exact lacks_present hit
  | indirect => exact lacks_present hit
  | entry k => rw [cost,lacks_present hit,lacks_present (indirect_of_entry hit)]

-- sfs_bmap. Without `doalloc` nothing is changed; the files are never changed.
structure Found (live : Nat → Bool) (s : State) (i : Nat) (p : Slot) (doalloc : Bool) (b : Nat)
    (t : State) : Prop where
  fs : Fs t live none
  kept : Kept live s i t
  self : pointer t i p = b
  others : ∀ q, q ≠ p → q ≠ .indirect → pointer t i q = pointer s i q
  indirect : (∀ k, p ≠ .entry k) → pointer t i .indirect = pointer s i .indirect
  allocated : doalloc = true → b ≠ 0
  cost : doalloc = true → spare t+cost s i p = spare s
  calm : doalloc = false → Calm s t

-- A block is missing, and there are not enough of them.
structure Refused (live : Nat → Bool) (s : State) (i : Nat) (p : Slot) (errno : Errno) (t : State) :
    Prop where
  fs : Fs t live none
  kept : Kept live s i t
  errno : errno = .enospc
  short : spare s < cost s i p

lemma Calm.found {doalloc : Bool} (calm : Calm s t) (fs : Fs s live none) (self : pointer s i p = b)
    (hit : doalloc → b ≠ 0) : Found live s i p doalloc b t where
  fs := calm.fs fs
  kept := calm.kept
  self := by rw [(calm.alike i).pointer,self]
  others q _ _ := by rw [(calm.alike i).pointer]
  indirect _ := by rw [(calm.alike i).pointer]
  allocated := hit
  cost yes := by
    rw [cost_present (by rw [self]; exact hit yes),spare_congr calm.fixed.nblocks calm.freemap,Nat.add_zero]
  calm _ := calm

lemma ends_directBlock (fs : Fs s live none) (quiet : Quiet s) (loaded : s.vnodes i = some v) (k : Fin nDirect)
    (doalloc : Bool) : Ends (directBlock i k doalloc s) (Found live s i (.direct k) doalloc)
      (Errs fun e t => doalloc ∧ Refused live s i (.direct k) e t) := by
  refine ends_bind_vnodeOf loaded ?_
  have alive := fs.alive loaded
  have block : pointer s i (.direct k) = (v.inode.direct k).toNat := by rw [pointer,node_loaded loaded]
  split
  · rename_i wanted
    have miss := lacks_absent (block.trans wanted.1)
    refine ends_bind ((ends_balloc fs quiet).imp_error (Errs.mono ?_)) ?_
    · rintro e _ ⟨rfl,rfl,full⟩
      refine ⟨wanted.2,fs,.refl,rfl,?_⟩
      rw [cost,miss,full]
      exact Nat.one_pos
    intro b t got
    have here : t.vnodes i = some v := got.vnodes ▸ loaded
    refine ends_bind (Q := fun _ u => Attached live t i (.direct k) b u)
      (ends_updateInode here (attach_direct got.fs got.zero here wanted.1)) ?_
    intro _ u attached
    have eq := (got.alike i alive).pointer
    refine ends_pure ⟨attached.fs,(got.kept alive).trans attached.kept,by rw [attached.self,update_self],?_,?_,
      fun _ => got.nonzero,fun _ => ?_,fun no => ?_⟩
    · intro q other _
      rw [attached.self,update_of_ne other,eq]
    · intro _
      rw [attached.self,update_of_ne Slot.noConfusion,eq]
    · rw [spare_congr attached.kept.fixed.nblocks attached.freemap,cost,miss]
      exact got.spare
    rw [wanted.2] at no
    cases no
  rename_i hit
  exact ends_pure (Calm.refl.found fs block fun yes zero => hit ⟨zero,yes⟩)

structure HasIndirect (live : Nat → Bool) (s : State) (i : Nat)
    (found : Nat × (Fin dbPerIdb → BitVec 32)) (t : State) : Prop where
  fs : Fs t live none
  kept : Kept live s i t
  self : pointer t i .indirect = found.1
  others : ∀ q, q ≠ .indirect → pointer t i q = pointer s i q
  nonzero : found.1 ≠ 0
  table : found.2 = entries (t.disk found.1)
  spare : spare t+lacks s i .indirect = spare s
  calm : pointer s i .indirect ≠ 0 → Calm s t

lemma ends_indirectBlock (fs : Fs s live none) (quiet : Quiet s) (loaded : s.vnodes i = some v) :
    Ends (indirectBlock i s) (HasIndirect live s i) (Errs (Refused live s i .indirect)) := by
  refine ends_bind_vnodeOf loaded ?_
  have alive := fs.alive loaded
  have block : pointer s i .indirect = v.inode.indirect.toNat := by rw [pointer,node_loaded loaded]
  split
  · rename_i miss
    have lacking := lacks_absent (block.trans miss)
    refine ends_bind ((ends_balloc fs quiet).imp_error (Errs.mono ?_)) ?_
    · rintro e _ ⟨rfl,rfl,full⟩
      refine ⟨fs,.refl,rfl,?_⟩
      rw [cost,lacking,full]
      exact Nat.one_pos
    intro b t got
    have here : t.vnodes i = some v := got.vnodes ▸ loaded
    refine ends_bind (Q := fun _ u => Attached live t i .indirect b u ∧ u.disk = t.disk)
      (ends_updateInode here ⟨attach_indirect got.fs got.zero here miss,rfl⟩) ?_
    rintro _ u ⟨attached,disk⟩
    refine ends_pure ⟨attached.fs,(got.kept alive).trans attached.kept,by rw [attached.self,update_self],?_,
      got.nonzero,?_,?_,?_⟩
    · intro q other
      rw [attached.self,update_of_ne other,(got.alike i alive).pointer]
    · rw [disk,got.zero,entries_zeros]
    · rw [spare_congr attached.kept.fixed.nblocks attached.freemap,lacking]
      exact got.spare
    intro hit
    rw [block] at hit
    exact absurd miss hit
  rename_i hit
  have present : pointer s i .indirect ≠ 0 := by rwa [block]
  have inside := fs.slot_inside alive present
  rw [block] at inside
  refine ends_bind (ends_rblock (Q := fun data t => data = s.disk v.inode.indirect.toNat ∧ Calm s t)
    quiet inside ⟨rfl,calm_transfer⟩) ?_
  rintro _ t ⟨rfl,calm⟩
  refine ends_pure ⟨calm.fs fs,calm.kept,?_,?_,hit,?_,?_,fun _ => calm⟩
  · rw [(calm.alike i).pointer,block]
  · intro q _
    rw [(calm.alike i).pointer]
  · rw [calm.disk]
  · rw [lacks_present present,spare_congr calm.fixed.nblocks calm.freemap,Nat.add_zero]

lemma ends_entryBlock (fs : Fs s live none) (quiet : Quiet s) (loaded : s.vnodes i = some v) (k : Fin dbPerIdb)
    (doalloc : Bool) : Ends (entryBlock i k doalloc s) (Found live s i (.entry k) doalloc)
      (Errs fun e t => doalloc ∧ Refused live s i (.entry k) e t) := by
  refine ends_bind_vnodeOf loaded ?_
  have alive := fs.alive loaded
  have block : pointer s i .indirect = v.inode.indirect.toNat := by rw [pointer,node_loaded loaded]
  split
  · rename_i nothing
    refine ends_pure (Calm.refl.found fs (bare_of_indirect (block.trans nothing.1) k) fun yes => ?_)
    rw [nothing.2] at yes
    cases yes
  rename_i search
  have wants : pointer s i .indirect = 0 → doalloc := by
    intro zero
    cases doalloc with
    | true => rfl
    | false => exact absurd ⟨block.symm.trans zero,rfl⟩ search
  refine ends_bind ((ends_indirectBlock fs quiet loaded).imp_error (Errs.mono ?_)) ?_
  · intro e t refused
    have short : spare s < lacks s i .indirect := refused.short
    have miss : pointer s i .indirect = 0 := by
      by_contra there
      rw [lacks_present there] at short
      cases short
    refine ⟨wants miss,refused.fs,refused.kept,refused.errno,?_⟩
    exact lt_of_lt_of_le short (Nat.le_add_left ..)
  rintro ⟨d,table⟩ t ⟨after,kept,self,rest,nz,read,spent,calm⟩
  dsimp only at self nz read ⊢
  have there : pointer t i .indirect ≠ 0 := by rwa [self]
  have entry : pointer t i (.entry k) = (table k).toNat := by rw [entry_pointer there,self,read]
  have pre : pointer s i (.entry k) = (table k).toNat := (rest _ Slot.noConfusion).symm.trans entry
  have quietly := kept.fixed.quiet quiet
  split
  · rename_i wanted
    have lacking := lacks_absent (pre.trans wanted.1)
    refine ends_bind ((ends_balloc after quietly).imp_error (Errs.mono ?_)) ?_
    · rintro e _ ⟨rfl,rfl,full⟩
      refine ⟨wanted.2,after,kept,rfl,?_⟩
      rw [cost,lacking]
      omega
    intro b u got
    have alike := got.alike i alive
    have eq : pointer u i .indirect = d := by rw [alike.pointer,self]
    have indirect : pointer u i .indirect ≠ 0 := by rwa [eq]
    have empty : pointer u i (.entry k) = 0 := by rw [alike.pointer,entry,wanted.1]
    have tables : table = entries (u.disk d) := by
      funext q
      have left := entry_pointer there q
      have right := entry_pointer indirect q
      rw [alike.pointer,left,self] at right
      rw [read]
      exact BitVec.eq_of_toNat_eq right
    have stored := attach_entry got.fs got.zero alive indirect empty
    have inside := got.fs.slot_inside alive indirect
    rw [eq,←tables] at stored
    rw [eq] at inside
    refine ends_bind (ends_wblock (Q := fun _ x => Attached live u i (.entry k) b x)
      (got.fixed.quiet quietly) inside stored) ?_
    intro _ x done
    refine ends_pure ⟨done.fs,(kept.trans (got.kept alive)).trans done.kept,by rw [done.self,update_self],
      ?_,fun notEntry => absurd rfl (notEntry k),fun _ => got.nonzero,fun _ => ?_,fun no => ?_⟩
    · intro q other data
      rw [done.self,update_of_ne other,alike.pointer,rest q data]
    · have one := got.spare
      rw [spare_congr done.kept.fixed.nblocks done.freemap,cost,lacking]
      omega
    rw [wanted.2] at no
    cases no
  rename_i hit
  have here : doalloc → (table k).toNat ≠ 0 := fun yes zero => hit ⟨zero,yes⟩
  refine ends_pure ⟨after,kept,entry,fun q _ => rest q,fun notEntry => absurd rfl (notEntry k),here,
    fun yes => ?_,fun no => ?_⟩
  · rw [cost,lacks_present (by rw [pre]; exact here yes),Nat.zero_add]
    exact spent
  refine calm fun zero => ?_
  rw [wants zero] at no
  cases no

def Barred (live : Nat → Bool) (s : State) (i n : Nat) (doalloc : Bool) (errno : Errno) (t : State) : Prop :=
  errno = .efbig ∧ slotOf n = none ∧ t = s ∨
    doalloc = true ∧ ∃ p, slotOf n = some p ∧ Refused live s i p errno t

lemma Found.used (hit : Found live s i p doalloc b t) (alive : live i) (nz : b ≠ 0) : b < t.nblocks ∧ t.freemap b := by
  have there : pointer t i p ≠ 0 := by rwa [hit.self]
  have held := hit.fs.ledger.held _ _ (own_slot alive there)
  rwa [hit.self] at held

lemma ends_bmap (fs : Fs s live none) (quiet : Quiet s) (loaded : s.vnodes i = some v) (n : Nat) (doalloc : Bool) :
    Ends (sfsBmap i n doalloc s) (fun b t => ∃ p, slotOf n = some p ∧ Found live s i p doalloc b t)
      (Errs (Barred live s i n doalloc)) := by
  refine ends_bind (Q := fun b t => ∃ p, slotOf n = some p ∧ Found live s i p doalloc b t) ?_ ?_
  · unfold findBlock
    split
    · rename_i direct
      have place : slotOf n = some (.direct ⟨n,direct⟩) := dif_pos direct
      exact (ends_directBlock fs quiet loaded _ doalloc).mono (fun b t hit => ⟨_,place,hit⟩)
        (Errs.mono fun e t refused => .inr ⟨refused.1,_,place,refused.2⟩)
    rename_i past
    split
    · rename_i far
      refine ends_fail (.inl ⟨rfl,?_,rfl⟩)
      have out : ¬n-nDirect < dbPerIdb := by
        unfold dbPerIdb at far ⊢
        omega
      rw [slotOf,dif_neg past,dif_neg out]
    rename_i near
    have lt : n-nDirect < dbPerIdb := by
      unfold dbPerIdb at near ⊢
      omega
    have place : slotOf n = some (.entry ⟨(n-nDirect) % dbPerIdb,Nat.mod_lt _ (by decide)⟩) := by
      rw [slotOf,dif_neg past,dif_pos lt]
      simp only [Nat.mod_eq_of_lt lt]
    exact (ends_entryBlock fs quiet loaded _ doalloc).mono (fun b t hit => ⟨_,place,hit⟩)
      (Errs.mono fun e t refused => .inr ⟨refused.1,_,place,refused.2⟩)
  rintro b t ⟨p,place,hit⟩
  refine ends_bind (ends_checkUsed (Q := fun _ u => u = t) (hit.used (fs.alive loaded)) rfl) ?_
  rintro _ _ rfl
  exact ends_pure ⟨p,place,hit⟩

-- An operation on the file `i`, after which the blocks are accounted for.
structure Touched (live : Nat → Bool) (s : State) (i : Nat) (t : State) : Prop
    extends Apart live s i t where
  fs : Fs t live none

lemma Touched.refl (fs : Fs s live none) : Touched live s i s := ⟨.refl,fs⟩

lemma Touched.trans (one : Touched live s i t) (two : Touched live t i u) : Touched live s i u :=
  ⟨one.toApart.trans two.toApart,two.fs⟩

lemma Kept.touched (kept : Kept live s i t) (fs : Fs t live none) : Touched live s i t := ⟨kept.apart,fs⟩
end ToyOS.Sfs

import ToyOS.SfsBmap

namespace ToyOS.Sfs
open Function Outcome List

variable {s t u : State} {live : Nat → Bool} {floating : Option Nat} {i j b d blocklen : Nat}
  {v w : Vnode} {p : Slot}

-- What sfs_truncate may do to a file: blocks are freed, and none comes.
structure Trimmed (live : Nat → Bool) (s : State) (i : Nat) (t : State) : Prop
    extends Touched live s i t where
  freemap : ∀ b, s.freemap b = false → t.freemap b = false
  blocks : ∀ p, pointer t i p = pointer s i p ∨
    pointer t i p = 0 ∧ (pointer s i p ≠ 0 → t.freemap (pointer s i p) = false)

lemma Trimmed.refl (fs : Fs s live none) : Trimmed live s i s :=
  ⟨.refl fs,fun _ free => free,fun _ => .inl rfl⟩

lemma Trimmed.trans (one : Trimmed live s i t) (two : Trimmed live t i u) : Trimmed live s i u := by
  refine ⟨one.toTouched.trans two.toTouched,fun b free => two.freemap b (one.freemap b free),fun p => ?_⟩
  rcases two.blocks p with eq | ⟨gone,freed⟩
  · rw [eq]
    rcases one.blocks p with pre | ⟨none_,freed⟩
    · exact .inl pre
    · exact .inr ⟨none_,fun hit => two.freemap _ (freed hit)⟩
  rcases one.blocks p with pre | ⟨none_,earlier⟩
  · rw [pre] at freed
    exact .inr ⟨gone,freed⟩
  · exact .inr ⟨gone,fun hit => two.freemap _ (earlier hit)⟩

lemma Trimmed.bare (trimmed : Trimmed live s i t) (bare : pointer s i p = 0) : pointer t i p = 0 := by
  rcases trimmed.blocks p with eq | gone
  · rw [eq,bare]
  · exact gone.1

lemma Calm.touched (calm : Calm s t) (fs : Fs s live none) : Touched live s i t :=
  calm.kept.touched (calm.fs fs)

lemma Calm.trimmed (calm : Calm s t) (fs : Fs s live none) : Trimmed live s i t :=
  ⟨calm.touched fs,fun b free => by rw [calm.freemap,free],fun _ => .inl (by rw [(calm.alike i).pointer])⟩

lemma trimmed_of_detach (fs : Fs t live none) (self : pointer t i = update (pointer s i) p 0) (fixed : Fixed s t)
    (freemap : t.freemap = update s.freemap (pointer s i p) false)
    (refs : ∀ j, (t.vnodes j).map Vnode.refcount = (s.vnodes j).map Vnode.refcount)
    (rest : ∀ j, live j → j ≠ i → Alike s t j) (type : (node t i).type = (node s i).type)
    (linkcount : (node t i).linkcount = (node s i).linkcount) : Trimmed live s i t := by
  refine ⟨⟨⟨fixed,refs,rest,type,linkcount⟩,fs⟩,?_,fun q => ?_⟩
  · intro b free
    rw [freemap]
    rcases eq_or_ne b (pointer s i p) with rfl | ne
    · exact update_self ..
    · rw [update_of_ne ne,free]
  rw [self]
  rcases eq_or_ne q p with rfl | ne
  · exact .inr ⟨update_self ..,fun _ => by rw [freemap,update_self]⟩
  · exact .inl (update_of_ne ne ..)

lemma ends_bfree {Q : PUnit → State → Prop} {E : Fault → State → Prop}
    (used : b < s.nblocks ∧ s.freemap b) (holds : Q ⟨⟩ (s.free b)) : Ends (sfsBfree b s) Q E := by
  refine ends_bind_get (ends_bind_kassert ?_ holds)
  rw [used.2,Bool.and_true]
  exact decide_eq_true (lt_of_lt_of_le used.1 (le_bitmapSize _))

lemma Fs.slot_used (fs : Fs s live floating) (alive : live i) (hit : pointer s i p ≠ 0) :
    pointer s i p < s.nblocks ∧ s.freemap (pointer s i p) := fs.ledger.held _ _ (own_slot alive hit)

lemma detach_direct (fs : Fs s live none) (load : s.vnodes i = some v)
    (hit : (v.inode.direct k).toNat ≠ 0) (inode : w.inode = v.inode.setDirect k 0) (dirty : w.dirty)
    (refs : w.refcount = v.refcount) : Trimmed live s i ((s.free (v.inode.direct k).toNat).putVnode i w) ∧
      pointer ((s.free (v.inode.direct k).toNat).putVnode i w) i (.direct k) = 0 := by
  have alive := fs.alive load
  have pre := node_loaded load
  have here : pointer s i (.direct k) = (v.inode.direct k).toNat := by rw [pointer,pre]
  have self : pointer ((s.free (v.inode.direct k).toNat).putVnode i w) i = update (pointer s i) (.direct k) 0 :=
    pointer_setDirect (s := s.free (v.inode.direct k).toNat) load rfl inode
  have rest : ∀ j, live j → j ≠ i → Alike s ((s.free (v.inode.direct k).toNat).putVnode i w) j :=
    fun j _ other => alike_of_frame (update_of_ne other ..) rfl fun _ _ => rfl
  have freemap : ((s.free (v.inode.direct k).toNat).putVnode i w).freemap =
      update s.freemap (pointer s i (.direct k)) false := by
    rw [here]
    rfl
  have freed := fs.detach (t := (s.free (v.inode.direct k).toNat).putVnode i w) alive ⟨rfl,rfl,rfl,rfl⟩
    (.marked rfl rfl) (by rwa [here]) freemap self
    (fun j lives other => (rest j lives other).pointer) (fs.cached_dirty alive dirty)
  refine ⟨trimmed_of_detach freed self ⟨rfl,rfl,rfl,rfl⟩ freemap (refs_update load refs rfl) rest ?_ ?_,?_⟩
  · rw [node_putVnode,inode,pre]
    rfl
  · rw [node_putVnode,inode,pre]
    rfl
  · rw [self,update_self]

lemma ends_freeDirect (ks : List (Fin nDirect)) (fs : Fs s live none) (load : s.vnodes i = some v) :
    Ends (freeDirect i blocklen ks s)
      (fun _ t => Trimmed live s i t ∧ ∀ k ∈ ks, blocklen ≤ k → pointer t i (.direct k) = 0) (Errs Never) := by
  induction ks generalizing s v with
  | nil =>
    refine ends_pure ⟨.refl fs,fun k none_ => ?_⟩
    cases none_
  | cons k rest ih =>
    refine ends_bind_vnodeOf load ?_
    have block : pointer s i (.direct k) = (v.inode.direct k).toNat := by rw [pointer,node_loaded load]
    refine ends_bind (Q := fun _ t => Trimmed live s i t ∧ (blocklen ≤ k → pointer t i (.direct k) = 0))
      (ends_perform ?_ ?_) ?_
    · intro free
      rw [Bool.and_eq_true,decide_eq_true_iff,bne_iff_ne] at free
      have used := fs.slot_used (p := .direct k) (fs.alive load) (by rw [block]; exact free.2)
      rw [block] at used
      refine ends_bind (ends_bfree (Q := fun _ t => t = s.free (v.inode.direct k).toNat) used rfl) ?_
      rintro _ _ rfl
      refine ends_updateInode (v := v) load ?_
      obtain ⟨trimmed,gone⟩ := detach_direct
        (w := {v with inode := v.inode.setDirect k 0,dirty := true}) fs load free.2 rfl rfl rfl
      exact ⟨trimmed,fun _ => gone⟩
    · intro keep
      refine ⟨.refl fs,fun past => ?_⟩
      rw [Bool.and_eq_false_iff,decide_eq_false_iff_not,bne_eq_false_iff_eq] at keep
      rw [block]
      exact keep.resolve_left fun pre => pre past
    rintro _ t ⟨trimmed,gone⟩
    obtain ⟨w,here,_⟩ := trimmed.loaded load
    refine (ih trimmed.fs here).imp ?_
    rintro _ u ⟨more,freed⟩
    refine ⟨trimmed.trans more,fun q mem past => ?_⟩
    rcases mem_cons.mp mem with rfl | mem
    · exact more.bare (gone past)
    · exact freed q mem past

def State.withTable (s : State) (d : Nat) (table : Fin dbPerIdb → BitVec 32) : State :=
  s.write d (encodeEntries table)

variable {table : Fin dbPerIdb → BitVec 32}

lemma entries_withTable : entries ((s.withTable d table).disk d) = table := by
  change entries (update s.disk d (encodeEntries table) d) = table
  rw [update_self,entries_encode]

lemma withTable_rewritten {ne : Fin dbPerIdb → BitVec 32} {m : State} (fs : Fs (s.withTable d table) live none)
    (alive : live i) (indirect : pointer (s.withTable d table) i .indirect = d) (nz : d ≠ 0) (disk : m.disk = s.disk)
    (vnodes : m.vnodes = s.vnodes) (dirty : m.freemapDirty) :
    Rewritten live (s.withTable d table) i ne (m.withTable d ne) := by
  refine fs.rewrite alive (by rwa [indirect]) (entries_encode ne) ?_ vnodes ?_
  · rw [indirect]
    change update m.disk d _ = update (update s.disk d _) d _
    rw [update_idem,disk]
  intro clean
  cases dirty.symm.trans clean

lemma detach_entry (fs : Fs (s.withTable d table) live none) (alive : live i)
    (indirect : pointer (s.withTable d table) i .indirect = d) (nz : d ≠ 0) (hit : (table k).toNat ≠ 0) :
    Trimmed live (s.withTable d table) i ((s.free (table k).toNat).withTable d (update table k 0)) ∧
      pointer ((s.free (table k).toNat).withTable d (update table k 0)) i .indirect = d := by
  have here : pointer (s.withTable d table) i .indirect ≠ 0 := by rwa [indirect]
  have entry : pointer (s.withTable d table) i (.entry k) = (table k).toNat := by
    rw [entry_pointer here,indirect,entries_withTable]
  have written : Rewritten live (s.withTable d table) i (update table k 0)
      ((s.free (table k).toNat).withTable d (update table k 0)) :=
    withTable_rewritten fs alive indirect nz rfl rfl rfl
  have known : Rewritten live (s.withTable d table) i (update (entries ((s.withTable d table).disk
      (pointer (s.withTable d table) i .indirect))) k 0)
      ((s.free (table k).toNat).withTable d (update table k 0)) := by
    rwa [indirect,entries_withTable]
  have self : pointer ((s.free (table k).toNat).withTable d (update table k 0)) i =
      update (pointer (s.withTable d table) i) (.entry k) 0 := known.self here
  have freemap : ((s.free (table k).toNat).withTable d (update table k 0)).freemap =
      update (s.withTable d table).freemap (pointer (s.withTable d table) i (.entry k)) false := by
    rw [entry]
    rfl
  have freed := fs.detach (t := (s.free (table k).toNat).withTable d (update table k 0))
    alive ⟨rfl,rfl,rfl,rfl⟩ written.system (by rwa [entry]) freemap self
    (fun j lives other => (written.others j lives other).pointer) written.cached
  refine ⟨trimmed_of_detach freed self ⟨rfl,rfl,rfl,rfl⟩ freemap (fun _ => rfl) written.others
    (by rw [written.node]) (by rw [written.node]),?_⟩
  rw [self,update_of_ne Slot.noConfusion]
  exact indirect

-- The loop over the entries of the indirect block.
structure Emptied (blocklen : Nat) (live : Nat → Bool) (i d : Nat) (ks : List (Fin dbPerIdb)) (s : State)
    (id : Indirect) (after : Indirect) (t : State) : Prop where
  trimmed : Trimmed live (s.withTable d id.idbuf) i (t.withTable d after.idbuf)
  indirect : pointer (t.withTable d after.idbuf) i .indirect = d
  disk : t.disk = s.disk
  vnodes : t.vnodes = s.vnodes
  fixed : Fixed s t
  entry : ∀ k, after.idbuf k = id.idbuf k ∨ after.idbuf k = 0
  zero : after.nonzero = false → id.nonzero = false ∧ ∀ k ∈ ks, after.idbuf k = 0
  nonzero : (∀ k ∈ ks, blocklen < nDirect+k) → after.nonzero = id.nonzero
  dirty : after.dirty = false → id.dirty = false ∧ t = s ∧ after.idbuf = id.idbuf

lemma ends_freeEntries (ks : List (Fin dbPerIdb)) (id : Indirect) (alive : live i) (nz : d ≠ 0)
    (fs : Fs (s.withTable d id.idbuf) live none) (indirect : pointer (s.withTable d id.idbuf) i .indirect = d) :
    Ends (freeEntries blocklen ks id s) (Emptied blocklen live i d ks s id) (Errs Never) := by
  induction ks generalizing s id with
  | nil =>
    exact ends_pure ⟨.refl fs,indirect,rfl,rfl,.refl,fun _ => .inl rfl,
      fun clear => ⟨clear,fun k none_ => (by cases none_)⟩,fun _ => rfl,
      fun clean => ⟨clean,rfl,rfl⟩⟩
  | cons k rest ih =>
    unfold freeEntries
    split
    · rename_i free
      have here : pointer (s.withTable d id.idbuf) i .indirect ≠ 0 := by rwa [indirect]
      have entry : pointer (s.withTable d id.idbuf) i (.entry k) = (id.idbuf k).toNat := by
        rw [entry_pointer here,indirect,entries_withTable]
      have used := fs.slot_used (p := .entry k) alive (by rw [entry]; exact free.2)
      rw [entry] at used
      refine ends_bind (ends_bfree (Q := fun _ t => t = s.free (id.idbuf k).toNat) used rfl) ?_
      rintro _ _ rfl
      obtain ⟨trimmed,still⟩ := detach_entry fs alive indirect nz free.2
      refine (@ih (s.free (id.idbuf k).toNat) {id with idbuf := update id.idbuf k 0,dirty := true}
        trimmed.fs still).imp ?_
      intro after u emptied
      have entry : ∀ q, after.idbuf q = update id.idbuf k 0 q ∨ after.idbuf q = 0 := emptied.entry
      have cleared : after.idbuf k = 0 := by
        rcases entry k with eq | zero
        · exact eq.trans (update_self k (0 : BitVec 32) id.idbuf)
        · exact zero
      refine ⟨trimmed.trans emptied.trimmed,emptied.indirect,emptied.disk,emptied.vnodes,
        Fixed.trans (t := s.free (id.idbuf k).toNat) ⟨rfl,rfl,rfl,rfl⟩ emptied.fixed,?_,?_,?_,?_⟩
      · intro q
        rcases eq_or_ne q k with rfl | ne
        · exact .inr cleared
        rw [←update_of_ne ne (0 : BitVec 32) id.idbuf]
        exact entry q
      · intro clear
        obtain ⟨one,zeros⟩ := emptied.zero clear
        refine ⟨one,fun q mem => ?_⟩
        rcases mem_cons.mp mem with rfl | mem
        · exact cleared
        · exact zeros q mem
      · exact fun all => emptied.nonzero fun q mem => all q (mem_cons_of_mem _ mem)
      intro clean
      cases (emptied.dirty clean).1
    rename_i keep
    refine (@ih s {id with nonzero := id.nonzero || (id.idbuf k).toNat != 0} fs indirect).imp ?_
    intro after u emptied
    refine ⟨emptied.trimmed,emptied.indirect,emptied.disk,emptied.vnodes,emptied.fixed,emptied.entry,
      ?_,?_,emptied.dirty⟩
    · intro clear
      obtain ⟨one,zeros⟩ := emptied.zero clear
      dsimp only at one
      rw [Bool.or_eq_false_iff,bne_eq_false_iff_eq] at one
      refine ⟨one.1,fun q mem => ?_⟩
      rcases mem_cons.mp mem with rfl | mem
      · rcases emptied.entry q with eq | zero
        · exact eq.trans (BitVec.eq_of_toNat_eq one.2)
        · exact zero
      · exact zeros q mem
    intro all
    rw [emptied.nonzero fun q mem => all q (mem_cons_of_mem _ mem)]
    have empty : (id.idbuf k).toNat = 0 := by
      by_contra hit
      exact keep ⟨all k (mem_cons_self ..),hit⟩
    dsimp only
    rw [empty,bne_self_eq_false,Bool.or_false]

lemma detach_indirect (fs : Fs (s.withTable d table) live none)
    (load : s.vnodes i = some v) (indirect : pointer (s.withTable d table) i .indirect = d) (nz : d ≠ 0)
    (empty : ∀ k, table k = 0) (inode : w.inode = v.inode.setIndirect 0) (dirty : w.dirty)
    (refs : w.refcount = v.refcount) : Trimmed live (s.withTable d table) i ((s.free d).putVnode i w) ∧
      pointer ((s.free d).putVnode i w) i .indirect = 0 := by
  have alive := fs.alive (i := i) load
  have pre : node (s.withTable d table) i = v.inode := node_loaded load
  have after : node ((s.free d).putVnode i w) i = v.inode.setIndirect 0 := node_putVnode.trans inode
  have here : pointer (s.withTable d table) i .indirect ≠ 0 := by rwa [indirect]
  have held : own s.nblocks live (pointer (s.withTable d table)) none (.slot i .indirect) = some d :=
    (own_slot alive here).trans (congrArg some indirect)
  have apart : ∀ c ≠ d, ((s.free d).putVnode i w).disk c = (s.withTable d table).disk c :=
    fun c other => (update_of_ne other ..).symm
  have self : pointer ((s.free d).putVnode i w) i = update (pointer (s.withTable d table) i) .indirect 0 := by
    funext q
    cases q with
    | direct q =>
      rw [pointer,after,update_of_ne Slot.noConfusion,pointer,pre]
      rfl
    | indirect =>
      rw [pointer,after,update_self]
      rfl
    | entry q =>
      rw [pointer,after,update_of_ne Slot.noConfusion,entry_pointer here,indirect,entries_withTable,empty]
      rfl
  have rest : ∀ j, live j → j ≠ i → Alike (s.withTable d table) ((s.free d).putVnode i w) j := by
    intro j lives other
    refine fs.alike_other held lives Owner.noConfusion ?_ apart (update_of_ne other ..)
    intro p equal
    exact other (Owner.slot.inj equal).1.symm
  have cached := fs.cached_update (t := (s.free d).putVnode i w) alive rfl
    (fun clean => (by rw [dirty] at clean; cases clean))
    fun j lives _ => apart j (fs.inode_apart held lives Owner.noConfusion)
  have freemap : ((s.free d).putVnode i w).freemap =
      update (s.withTable d table).freemap (pointer (s.withTable d table) i .indirect) false := by
    rw [indirect]
    rfl
  have system : System (s.withTable d table) ((s.free d).putVnode i w) :=
    fs.system_held held Owner.noConfusion (fun _ => Owner.noConfusion) apart fun clean => (by cases clean)
  have freed := fs.detach (t := (s.free d).putVnode i w) alive ⟨rfl,rfl,rfl,rfl⟩ system here
    freemap self (fun j lives other => (rest j lives other).pointer) cached
  refine ⟨trimmed_of_detach freed self ⟨rfl,rfl,rfl,rfl⟩ freemap
    (refs_update (s := s.withTable d table) load refs rfl) rest ?_ ?_,?_⟩
  · rw [after,pre]
    rfl
  · rw [after,pre]
    rfl
  · rw [self,update_self]

lemma withTable_read (fs : Fs s live none) (alive : live i) (hit : pointer s i .indirect = d)
    (nz : d ≠ 0) : Trimmed live s i (s.withTable d (entries (s.disk d))) ∧
      ∀ p, pointer (s.withTable d (entries (s.disk d))) i p = pointer s i p := by
  have here : pointer s i .indirect ≠ 0 := by rwa [hit]
  have written : Rewritten live s i (entries (s.disk d)) (s.withTable d (entries (s.disk d))) :=
    fs.rewrite alive here (entries_encode _) (by rw [hit]; rfl) rfl fun clean => ⟨clean,rfl⟩
  have eq : pointer (s.withTable d (entries (s.disk d))) i = pointer s i := by
    funext q
    cases q with
    | direct q => exact written.rest _ fun _ => Slot.noConfusion
    | indirect => exact written.rest _ fun _ => Slot.noConfusion
    | entry q => rw [written.entry,entry_pointer here,hit]
  have ptrs : ∀ j, live j → pointer (s.withTable d (entries (s.disk d))) j = pointer s j := by
    intro j lives
    rcases eq_or_ne j i with rfl | ne
    · exact eq
    · exact (written.others j lives ne).pointer
  refine ⟨⟨⟨⟨⟨rfl,rfl,rfl,rfl⟩,fun _ => rfl,written.others,by rw [written.node],by rw [written.node]⟩,
    fs.steady ⟨rfl,rfl,rfl,rfl⟩ written.system rfl ptrs written.cached⟩,fun _ free => free,
    fun p => .inl (congrFun eq p)⟩,congrFun eq⟩

lemma ends_truncateIndirect (fs : Fs s live none) (quiet : Quiet s) (load : s.vnodes i = some v) :
    Ends (truncateIndirect i blocklen s) (fun _ t => Trimmed live s i t ∧ (blocklen = 0 → pointer t i .indirect = 0))
      (Errs Never) := by
  refine ends_bind_vnodeOf load ?_
  have alive := fs.alive load
  have block : pointer s i .indirect = v.inode.indirect.toNat := by rw [pointer,node_loaded load]
  refine ends_perform ?_ ?_
  · intro wanted
    rw [Bool.and_eq_true,decide_eq_true_iff,bne_iff_ne] at wanted
    have inside := fs.slot_inside (p := .indirect) alive (by rw [block]; exact wanted.2)
    rw [block] at inside
    refine ends_bind (ends_rblock (Q := fun data t => data = s.disk v.inode.indirect.toNat ∧ Calm s t)
      quiet inside ⟨rfl,calm_transfer⟩) ?_
    rintro _ t ⟨rfl,calm⟩
    have started := calm.fs fs
    have hit : pointer t i .indirect = v.inode.indirect.toNat := by rw [(calm.alike i).pointer,block]
    obtain ⟨read,eq⟩ := withTable_read started alive hit wanted.2
    rw [←calm.disk]
    refine ends_bind (ends_freeEntries (finRange dbPerIdb)
      ⟨entries (t.disk v.inode.indirect.toNat),false,false⟩ alive wanted.2 read.fs
      ((eq .indirect).trans hit)) ?_
    intro after u emptied
    have sofar : Trimmed live s i (u.withTable v.inode.indirect.toNat after.idbuf) :=
      ((calm.trimmed fs).trans read).trans emptied.trimmed
    have vnode : u.vnodes i = some v := by rw [emptied.vnodes,calm.vnodes,load]
    have fixed := calm.fixed.trans emptied.fixed
    split
    · rename_i clear
      have empty : ∀ k, after.idbuf k = 0 := fun k => (emptied.zero clear).2 k (mem_finRange k)
      have used := emptied.trimmed.fs.slot_used (p := .indirect) alive (by rw [emptied.indirect]; exact wanted.2)
      rw [emptied.indirect] at used
      refine ends_bind (ends_bfree (Q := fun _ x => x = u.free v.inode.indirect.toNat) used rfl) ?_
      rintro _ _ rfl
      refine ends_updateInode (v := v) vnode ?_
      obtain ⟨trimmed,gone⟩ := detach_indirect
        (w := {v with inode := v.inode.setIndirect 0,dirty := true}) emptied.trimmed.fs vnode
        emptied.indirect wanted.2 empty rfl rfl rfl
      exact ⟨sofar.trans trimmed,fun _ => gone⟩
    rename_i some_
    -- With a length of 0 every entry has been freed.
    have partly : blocklen ≠ 0 := by
      rintro rfl
      refine some_ (emptied.nonzero fun k _ => ?_)
      unfold nDirect
      omega
    refine ends_perform ?_ ?_
    · intro _
      refine ends_wblock (fixed.quiet quiet) ?_ ⟨sofar,fun none_ => absurd none_ partly⟩
      rwa [fixed.dBlocks]
    intro clean
    obtain ⟨_,rfl,_⟩ := emptied.dirty clean
    exact ⟨calm.trimmed fs,fun none_ => absurd none_ partly⟩
  intro keep
  refine ⟨.refl fs,?_⟩
  rintro rfl
  rw [Bool.and_eq_false_iff,decide_eq_false_iff_not,bne_eq_false_iff_eq] at keep
  rw [block]
  exact keep.resolve_left fun no => no (by decide)

lemma Fs.edit (fs : Fs s live floating) (load : s.vnodes i = some v) (direct : w.inode.direct = v.inode.direct)
    (indirect : w.inode.indirect = v.inode.indirect) (clean : w.dirty = false → decodeInode (s.disk i) = w.inode) :
    Fs (s.putVnode i w) live floating ∧ pointer (s.putVnode i w) i = pointer s i ∧
      byte (s.putVnode i w) i = byte s i := by
  have pre := node_loaded load
  have alive := fs.alive load
  have eq : pointer (s.putVnode i w) i = pointer s i := by
    funext q
    cases q with
    | direct q => rw [pointer,pointer,node_putVnode,pre,direct]
    | indirect => rw [pointer,pointer,node_putVnode,pre,indirect]
    | entry q =>
      rw [pointer,pointer,node_putVnode,pre,indirect]
      rfl
  refine ⟨fs.steady ⟨rfl,rfl,rfl,rfl⟩ (.still rfl rfl rfl) rfl (fun j _ => ?_)
    (fs.cached_update alive rfl clean fun _ _ _ => rfl),
    eq,byte_congr (fun p _ => congrFun eq p) fun _ _ _ => rfl⟩
  rcases eq_or_ne j i with rfl | ne
  · exact eq
  · exact (putVnode_other ne).pointer

lemma ends_truncate (fs : Fs s live none) (quiet : Quiet s) (load : s.vnodes i = some v) (len : Nat) :
    Ends (sfsTruncate i len s) (fun _ t => Trimmed live s i t ∧ (len = 0 → ∀ p, pointer t i p = 0) ∧
        (node t i).size = BitVec.ofNat 32 len) (Errs Never) := by
  refine ends_bind (ends_freeDirect (finRange nDirect) fs load) ?_
  rintro _ t ⟨direct,noDirect⟩
  obtain ⟨w,here,_⟩ := direct.loaded load
  refine ends_bind (ends_truncateIndirect direct.fs (direct.fixed.quiet quiet) here) ?_
  rintro _ u ⟨indirect,noIndirect⟩
  obtain ⟨v,load,_⟩ := indirect.loaded here
  refine ends_updateInode load ?_
  obtain ⟨edited,ptrs,_⟩ := indirect.fs.edit
    (w := {v with inode := {v.inode with size := BitVec.ofNat 32 len},dirty := true}) load rfl rfl
    fun clean => (by cases clean)
  have pre := node_loaded load
  have last : Trimmed live u i (u.putVnode i
      {v with inode := {v.inode with size := BitVec.ofNat 32 len},dirty := true}) :=
    ⟨⟨⟨⟨rfl,rfl,rfl,rfl⟩,refs_putVnode load rfl,fun j _ other => putVnode_other other,
      by rw [node_putVnode,pre],by rw [node_putVnode,pre]⟩,edited⟩,fun _ free => free,
      fun p => .inl (congrFun ptrs p)⟩
  refine ⟨(direct.trans indirect).trans last,?_,by rw [node_putVnode]⟩
  rintro rfl p
  have short : (0+blockSize-1)/blockSize % 2^32 = 0 := by decide
  rw [ptrs]
  cases p with
  | direct k =>
    refine indirect.bare (noDirect k (mem_finRange k) ?_)
    rw [short]
    exact Nat.zero_le _
  | indirect => exact noIndirect short
  | entry k => exact bare_of_indirect (noIndirect short) k
end ToyOS.Sfs

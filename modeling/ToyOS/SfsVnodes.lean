import ToyOS.SfsLinks

namespace ToyOS.Sfs
open Function Outcome Tally

variable {s t u : State} {live after : Nat → Bool} {floating : Option Nat} {i j b ino : Nat} {v w : Vnode}

-- What is in a file, and where.
structure Content (s t : State) (j : Nat) : Prop where
  size : (node t j).size = (node s j).size
  pointer : pointer t j = pointer s j
  byte : byte t j = byte s j

lemma Content.trans (one : Content s t j) (two : Content t u j) : Content s u j :=
  ⟨two.size.trans one.size,two.pointer.trans one.pointer,two.byte.trans one.byte⟩

lemma Alike.content (alike : Alike s t j) : Content s t j := ⟨by rw [alike.node],alike.pointer,alike.byte⟩

lemma Recount.content (recount : Recount v w) (fs : Fs t live none) (load : t.vnodes ino = some v) (j : Nat) :
    Content t (t.putVnode ino w) j := by
  obtain ⟨_,eq,ptrs⟩ := recount.apart fs load
  exact ⟨(eq j).1,ptrs j,(eq j).2.2⟩

lemma Fs.swap (fs : Fs s live floating) (alive : live i) (eq : w.inode = node s i)
    (clean : w.dirty = false → decodeInode (s.disk i) = w.inode) :
    Fs (s.putVnode i w) live floating ∧ ∀ j, Alike s (s.putVnode i w) j := by
  have alike : ∀ j, Alike s (s.putVnode i w) j := by
    intro j
    rcases eq_or_ne j i with rfl | ne
    · exact alike_of_node (node_putVnode.trans eq) fun _ _ => rfl
    · exact putVnode_other ne
  exact ⟨fs.steady ⟨rfl,rfl,rfl,rfl⟩ (.still rfl rfl rfl) rfl (fun j _ => (alike j).pointer)
    (fs.cached_update alive rfl clean fun _ _ _ => rfl),alike⟩

variable {E : Fault → State → Prop}

lemma ends_kmalloc {Q : PUnit → State → Prop} (quiet : Quiet s)
    (holds : Q ⟨⟩ {s with mallocs := s.mallocs+1}) : Ends (kmalloc s) Q E := by
  refine ends_bind_get (ends_bind_set ?_)
  rw [show s.memory s.mallocs = true from congrFun quiet.memory _]
  exact holds

lemma calm_kmalloc : Calm s {s with mallocs := s.mallocs+1} := ⟨⟨rfl,rfl,rfl,rfl⟩,rfl,rfl,rfl,rfl⟩

def freshInode (forcetype : BitVec 16) (inode : Inode) : Inode :=
  if forcetype = typeInval then inode else {inode with type := forcetype}

lemma ends_readVnode {Q : PUnit → State → Prop}
    (quiet : Quiet s) (used : ino < s.nblocks ∧ s.freemap ino) (inside : ino < s.dBlocks)
    (forced : forcetype = typeInval ∨ (decodeInode (s.disk ino)).type = typeInval)
    (type : (freshInode forcetype (decodeInode (s.disk ino))).type = typeFile ∨
      (freshInode forcetype (decodeInode (s.disk ino))).type = typeDir)
    (rest : ∀ t, Calm s t → Q ⟨⟩ (t.putVnode ino ⟨freshInode forcetype (decodeInode (s.disk ino)),
      forcetype != typeInval,1⟩)) : Ends (readVnode ino forcetype s) Q E := by
  refine ends_bind (Q := fun _ t => Calm s t) (ends_kmalloc quiet calm_kmalloc) ?_
  intro _ t one
  refine ends_bind (Q := fun marked u => marked = true ∧ u = t) (ends_bused ?_ ⟨?_,rfl⟩) ?_
  · rw [one.fixed.nblocks]
    exact used.1
  · rw [one.freemap]
    exact used.2
  rintro _ _ ⟨rfl,rfl⟩
  refine ends_bind_kassert rfl (ends_bind (Q := fun data u => data = s.disk ino ∧ Calm s u)
    (ends_rblock (one.fixed.quiet quiet) (by rwa [one.fixed.dBlocks])
      ⟨congrFun one.disk _,one.trans calm_transfer⟩) ?_)
  rintro _ u ⟨rfl,two⟩
  refine ends_bind_kassert ?_ (ends_bind_kassert ?_ ?_)
  · rwa [Bool.or_eq_true,beq_iff_eq,beq_iff_eq]
  · rwa [Bool.or_eq_true,beq_iff_eq,beq_iff_eq]
  refine ends_bind (Q := fun _ x => Calm s x) (ends_kmalloc (two.fixed.quiet quiet) (two.trans calm_kmalloc)) ?_
  exact fun _ x last => ends_modify (rest x last)

-- A vnode of an inode that is there is loaded, or found.
structure Fetched (live : Nat → Bool) (s : State) (ino : Nat) (t : State) : Prop where
  consistent : Consistent t live
  fixed : Fixed s t
  alike : ∀ j, Alike s t j
  freemap : t.freemap = s.freemap
  others : ∀ j, j ≠ ino → t.vnodes j = s.vnodes j
  refcount : (t.vnodes ino).map Vnode.refcount = some (((s.vnodes ino).map Vnode.refcount).getD 0+1)

lemma Fetched.loaded (got : Fetched live s ino t) : ∃ v, t.vnodes ino = some v := by
  obtain ⟨v,load,_⟩ := Option.map_eq_some_iff.mp got.refcount
  exact ⟨v,load⟩

lemma Fetched.keeps (got : Fetched live s ino t) (load : s.vnodes j = some v) : ∃ w, t.vnodes j = some w := by
  rcases eq_or_ne j ino with rfl | ne
  · exact got.loaded
  · exact ⟨v,(got.others j ne).trans load⟩

lemma Consistent.fetched (ok : Consistent s live) (calm : Calm s t) (alive : live i) (eq : w.inode = node s i)
    (clean : w.dirty = false → decodeInode (s.disk i) = w.inode)
    (refcount : w.refcount = ((s.vnodes i).map Vnode.refcount).getD 0+1) : Fetched live s i (t.putVnode i w) := by
  have now := ok.calm calm
  obtain ⟨fs,alike⟩ := now.fs.swap alive (eq.trans (calm.alike i).node.symm) (by rwa [calm.disk])
  refine ⟨now.carry fs (fun j _ => (alike j).file) ?_ ?_,calm.fixed.trans ⟨rfl,rfl,rfl,rfl⟩,
    fun j => (calm.alike j).trans (alike j),calm.freemap,?_,?_⟩
  · rintro j ⟨v,load⟩
    rcases eq_or_ne j i with rfl | ne
    · exact .inr (.inl ⟨w,update_self ..⟩)
    · exact .inr (.inl ⟨v,(update_of_ne ne ..).trans load⟩)
  · intro j v load
    rcases eq_or_ne j i with rfl | ne
    · rw [show (t.putVnode j w).vnodes j = some w from update_self ..] at load
      cases load
      omega
    · exact now.referenced j v ((update_of_ne ne ..).symm.trans load)
  · intro j ne
    exact (update_of_ne ne ..).trans (congrFun calm.vnodes j)
  · rw [show (t.putVnode i w).vnodes i = some w from update_self ..,Option.map_some,refcount]

lemma Consistent.type (ok : Consistent s live) (alive : live i) :
    (node s i).type = typeFile ∨ (node s i).type = typeDir := by
  rcases eq_or_ne i rootLocation with rfl | ne
  · exact .inr ok.shape.dir
  · exact .inl (ok.shape.only i alive ne)

lemma Fs.inode_used (fs : Fs s live floating) (alive : live i) : i < s.nblocks ∧ s.freemap i :=
  fs.ledger.held _ _ (own_inode alive)

lemma Fs.table_used (fs : Fs s live floating) :
    ((List.range s.nblocks).all fun j => (s.vnodes j).isNone || s.freemap j) := by
  rw [List.all_eq_true]
  intro j _
  cases load : s.vnodes j with
  | none => rfl
  | some v => exact (fs.inode_used (fs.alive load)).2

lemma ends_loadvnode (ok : Consistent s live) (quiet : Quiet s) (alive : live ino) :
    Ends (sfsLoadvnode ino typeInval s) (fun _ t => Fetched live s ino t) E := by
  refine ends_bind_get (ends_bind_kassert ok.fs.table_used ?_)
  cases hit : s.vnodes ino with
  | some v =>
    refine ends_bind_kassert rfl (ends_modify (ok.fetched .refl alive (node_loaded hit).symm
      (ok.fs.cached ino v hit).2 ?_))
    rw [hit]
    rfl
  | none =>
    have eq := node_unloaded hit
    have used := ok.fs.inode_used alive
    refine ends_readVnode quiet used (lt_of_lt_of_le used.1 ok.fs.fits) (.inl rfl) ?_ ?_
    · rw [freshInode,if_pos rfl,←eq]
      exact ok.type alive
    intro t calm
    rw [freshInode,if_pos rfl,←eq]
    refine ok.fetched calm alive rfl (fun _ => eq.symm) ?_
    rw [hit]
    rfl

section
variable (alike : Alike s t rootLocation)
include alike

lemma links_alike : links t = links s :=
  links_congr (by rw [alike.node]) alike.byte

lemma directory_alike : directory t = directory s :=
  directory_congr (by rw [alike.node]) alike.byte

lemma binds_alike : Binds t k name ino ↔ Binds s k name ino :=
  binds_congr (by rw [alike.node]) alike.byte

end

lemma Consistent.unnamed (ok : Consistent s live) (dead : live ino = false) (nz : ino ≠ noIno) : links s ino = 0 := by
  refine Nat.eq_zero_of_not_pos fun some_ => ?_
  obtain ⟨k,lt,hit⟩ := tally_pos.mp some_
  have alive := ok.shape.named k _ _ ⟨lt,hit,nz,rfl⟩
  rw [dead] at alive
  cases alive

def newInode : Inode := {emptyInode with type := typeFile}

lemma pointer_new (eq : node t ino = newInode) (p : Slot) : pointer t ino p = 0 := by
  cases p with
  | direct k =>
    rw [pointer,eq]
    rfl
  | indirect =>
    rw [pointer,eq]
    rfl
  | entry k =>
    refine bare_of_indirect ?_ k
    rw [pointer,eq]
    rfl

lemma Fs.create (fs : Fs s live (some ino)) (inode : w.inode = newInode) (dirty : w.dirty) :
    live ino = false ∧ Fs (s.putVnode ino w) (update live ino true) none ∧
      ∀ j, live j → Alike s (s.putVnode ino w) j := by
  have dead : live ino = false := by
    by_contra alive
    rw [Bool.not_eq_false] at alive
    exact Owner.noConfusion (fs.ledger.unique .floating _ _ rfl (own_inode alive))
  have apart : ∀ {j}, live j → j ≠ ino := by
    rintro j alive rfl
    rw [dead] at alive
    cases alive
  have alike : ∀ j, live j → Alike s (s.putVnode ino w) j := fun j alive => putVnode_other (apart alive)
  have bare : ∀ p, pointer (s.putVnode ino w) ino p = 0 := pointer_new (node_putVnode.trans inode)
  refine ⟨dead,fs.rebuild ⟨rfl,rfl,rfl,rfl⟩ (.still rfl rfl rfl) ?_ fs.past ?_,alike⟩
  · rw [own_create bare,own_congr fun j alive => (alike j alive).pointer]
    refine fs.ledger.move rfl (if_neg ?_)
    rw [dead]
    exact Bool.false_ne_true
  intro j v load
  rcases eq_or_ne j ino with rfl | ne
  · rw [show (s.putVnode j w).vnodes j = some w from update_self ..] at load
    cases load
    refine ⟨update_self ..,fun clean => ?_⟩
    rw [dirty] at clean
    cases clean
  obtain ⟨alive,clean⟩ := fs.cached j v ((update_of_ne ne ..).symm.trans load)
  exact ⟨(update_of_ne ne ..).trans alive,clean⟩

-- sfs_makeobj
structure Made (live : Nat → Bool) (s : State) (ino : Nat) (t : State) : Prop where
  consistent : Consistent t (update live ino true)
  dead : live ino = false
  nonzero : ino ≠ noIno
  fixed : Fixed s t
  alike : ∀ j, live j = true → Alike s t j
  self : t.vnodes ino = some ⟨newInode,true,1⟩
  others : ∀ j, j ≠ ino → t.vnodes j = s.vnodes j

lemma Consistent.create (ok : Consistent s live) (got : Granted live s ino t) (calm : Calm t u) :
    Made live s ino (u.putVnode ino ⟨newInode,true,1⟩) := by
  obtain ⟨dead,fs,more⟩ := (calm.fs got.fs).create (w := ⟨newInode,true,1⟩) rfl rfl
  have alike : ∀ j, live j → Alike s (u.putVnode ino ⟨newInode,true,1⟩) j :=
    fun j alive => ((got.alike j alive).trans (calm.alike j)).trans (more j alive)
  have apart : ∀ {j}, live j → j ≠ ino := by
    rintro j alive rfl
    rw [dead] at alive
    cases alive
  have root := alike _ ok.shape.root
  have old : ∀ {j}, update live ino true j → j ≠ ino → live j := by
    intro j alive other
    rwa [update_of_ne other] at alive
  have vnodes : ∀ j ≠ ino, (u.putVnode ino ⟨newInode,true,1⟩).vnodes j = s.vnodes j := by
    intro j other
    refine (update_of_ne other ..).trans ?_
    rw [calm.vnodes,got.vnodes]
  have self : (u.putVnode ino ⟨newInode,true,1⟩).vnodes ino = some ⟨newInode,true,1⟩ := update_self ..
  refine ⟨⟨fs,⟨?_,?_,?_,?_,?_,?_,?_⟩,?_,?_,?_⟩,dead,got.nonzero,
    (got.fixed.trans calm.fixed).trans ⟨rfl,rfl,rfl,rfl⟩,alike,self,vnodes⟩
  · exact (update_of_ne (apart ok.shape.root) ..).trans ok.shape.root
  · rw [root.node]
    exact ok.shape.dir
  · intro j alive other
    rcases eq_or_ne j ino with rfl | ne
    · rw [node_putVnode]
      rfl
    rw [(alike j (old alive ne)).node]
    exact ok.shape.only j (old alive ne) other
  · rw [root.node]
    exact ok.shape.whole
  · rw [root.node]
    exact ok.shape.bounded
  · intro k name j binds
    have alive := ok.shape.named k name j ((binds_alike root).mp binds)
    exact (update_of_ne (apart alive) ..).trans alive
  · intro k l name i j first second
    exact ok.shape.names k l name i j ((binds_alike root).mp first) ((binds_alike root).mp second)
  · intro j alive
    rw [links_alike root]
    rcases eq_or_ne j ino with rfl | other
    · have notRoot : j ≠ rootLocation := (apart ok.shape.root).symm
      rw [node_putVnode,ok.unnamed dead got.nonzero,rootCount,if_neg notRoot]
      rfl
    rw [(alike j (old alive other)).node]
    exact ok.counted j (old alive other)
  · intro j alive
    rw [links_alike root]
    rcases eq_or_ne j ino with rfl | other
    · exact .inr (.inl ⟨_,self⟩)
    rcases ok.reachable j (old alive other) with top | ⟨v,load⟩ | linked
    · exact .inl top
    · exact .inr (.inl ⟨v,(vnodes j other).trans load⟩)
    · exact .inr (.inr linked)
  intro j v load
  rcases eq_or_ne j ino with rfl | other
  · cases self.symm.trans load
    exact Nat.one_pos
  · exact ok.referenced j v ((vnodes j other).symm.trans load)

lemma ends_makeobj (ok : Consistent s live) (quiet : Quiet s) :
    Ends (sfsMakeobj typeFile s) (Made live s) (Errs fun e t => e = .enospc ∧ t = s ∧ spare s = 0) := by
  refine ends_bind (ends_balloc ok.fs quiet) ?_
  intro ino t got
  have held : t.nblocks > ino ∧ t.freemap ino := got.fs.ledger.held .floating ino rfl
  have absent : t.vnodes ino = none := by
    cases load : t.vnodes ino with
    | none => rfl
    | some v =>
      have alive := got.fs.alive load
      exact Owner.noConfusion (got.fs.ledger.unique .floating _ _ rfl (own_inode alive))
  have blank : freshInode typeFile (decodeInode (t.disk ino)) = newInode := by
    rw [got.zero,decode_zeros]
    rfl
  refine ends_bind (Q := fun _ u => Made live s ino u) (ends_bind_get (ends_bind_kassert
    got.fs.table_used ?_)) fun _ _ made => ends_pure made
  rw [absent]
  refine ends_readVnode (got.fixed.quiet quiet) held (lt_of_lt_of_le held.1 got.fs.fits)
    (.inr (by rw [got.zero,decode_zeros]; rfl)) (.inl (by rw [blank]; rfl)) ?_
  intro u calm
  rw [blank]
  exact ok.create got calm

lemma Fs.writeback (fs : Fs s live floating) (load : s.vnodes i = some v) (same : w.inode = v.inode) :
    Fs ((s.write i (encodeInode v.inode)).putVnode i w) live floating ∧
      ∀ j, live j → Alike s ((s.write i (encodeInode v.inode)).putVnode i w) j := by
  have alive := fs.alive load
  have held : own s.nblocks live (pointer s) floating (.inode i) = some i := own_inode alive
  have disk : ∀ c ≠ i, ((s.write i (encodeInode v.inode)).putVnode i w).disk c = s.disk c :=
    fun c other => update_of_ne other ..
  have alike : ∀ j, live j → Alike s ((s.write i (encodeInode v.inode)).putVnode i w) j := by
    intro j lives
    rcases eq_or_ne j i with rfl | other
    · refine alike_of_node ((node_putVnode.trans same).trans (node_loaded load).symm) fun p hit =>
        disk _ fun eq => ?_
      exact Owner.noConfusion (fs.ledger.unique _ _ _ held ((own_slot lives hit).trans (congrArg some eq)))
    refine fs.alike_other held lives ?_ (fun _ => Owner.noConfusion) disk (update_of_ne other ..)
    intro eq
    exact other (Owner.inode.inj eq).symm
  refine ⟨fs.steady ⟨rfl,rfl,rfl,rfl⟩ (fs.system_held held Owner.noConfusion (fun _ => Owner.noConfusion) disk
    fun clean => ⟨clean,rfl⟩) rfl (fun j lives => (alike j lives).pointer) ?_,alike⟩
  refine fs.cached_update alive rfl (fun _ => ?_) fun j _ other => disk j other
  rw [same]
  refine Eq.trans (congrArg decodeInode ?_) (decode_encode v.inode)
  exact update_self ..

structure Synced (live : Nat → Bool) (s : State) (i : Nat) (t : State) : Prop where
  fs : Fs t live none
  fixed : Fixed s t
  alike : ∀ j, live j = true → Alike s t j
  freemap : t.freemap = s.freemap
  others : ∀ j, j ≠ i → t.vnodes j = s.vnodes j
  self : ∀ v, s.vnodes i = some v → t.vnodes i = some {v with dirty := false}

lemma ends_syncInode (fs : Fs s live none) (quiet : Quiet s) (load : s.vnodes i = some v) :
    Ends (sfsSyncInode i s) (fun _ t => Synced live s i t) E := by
  have used := fs.inode_used (fs.alive load)
  refine ends_bind_vnodeOf load (ends_perform (fun _ => ?_) fun clean => ?_)
  · refine ends_bind (ends_wblock (Q := fun _ t => t = s.write i (encodeInode v.inode)) quiet
      (lt_of_lt_of_le used.1 fs.fits) rfl) ?_
    rintro _ _ rfl
    obtain ⟨after,alike⟩ := fs.writeback load (w := {v with dirty := false}) rfl
    refine ends_modify ⟨after,⟨rfl,rfl,rfl,rfl⟩,alike,rfl,fun j other => update_of_ne other ..,fun w again => ?_⟩
    cases load.symm.trans again
    exact update_self ..
  refine ⟨fs,.refl,fun _ _ => .refl,rfl,fun _ _ => rfl,fun w again => ?_⟩
  cases load.symm.trans again
  rw [load]
  exact congrArg some (by rw [←clean])

-- The blocks of a file are free again.
structure Freed (s : State) (i : Nat) (t : State) : Prop where
  inode : t.freemap i = false
  blocks : ∀ p, pointer s i p ≠ 0 → t.freemap (pointer s i p) = false

-- A reference is dropped; the last one to a file without links takes the file along.
structure Dropped (live : Nat → Bool) (s : State) (i : Nat) (after : Nat → Bool) (t : State) : Prop where
  consistent : Consistent t after
  fixed : Fixed s t
  older : ∀ j, after j = true → live j = true
  only : ∀ j, j ≠ i → after j = live j
  alike : ∀ j, after j = true → Alike s t j
  gone : ∀ j, live j = true → after j = false → Freed s j t
  others : ∀ j, j ≠ i → (t.vnodes j).map Vnode.refcount = (s.vnodes j).map Vnode.refcount
  self : (t.vnodes i).map Vnode.refcount =
    ((s.vnodes i).map Vnode.refcount).bind fun n => if 1 < n then some (n-1) else none

def State.unload (s : State) (i : Nat) : State := {s with vnodes := update s.vnodes i none}

lemma unload_other (ne : j ≠ i) : Alike s (s.unload i) j :=
  alike_of_frame (update_of_ne ne ..) rfl fun _ _ => rfl

lemma cached_unload (fs : Fs s live floating) (disk : t.disk = s.disk) (vnodes : t.vnodes = update s.vnodes i none) :
    ∀ j v, t.vnodes j = some v → (j ≠ i ∧ live j) ∧ (v.dirty = false → decodeInode (t.disk j) = v.inode) := by
  intro j v load
  rw [vnodes] at load
  rcases eq_or_ne j i with rfl | ne
  · rw [update_self] at load
    cases load
  rw [update_of_ne ne] at load
  rw [disk]
  obtain ⟨alive,clean⟩ := fs.cached j v load
  exact ⟨⟨ne,alive⟩,clean⟩

lemma Fs.unload (fs : Fs s live none) (load : s.vnodes i = some v) (clean : v.dirty = false) :
    Fs (s.unload i) live none ∧ ∀ j, Alike s (s.unload i) j := by
  have alike : ∀ j, Alike s (s.unload i) j := by
    intro j
    rcases eq_or_ne j i with rfl | ne
    · refine alike_of_node ?_ fun _ _ => rfl
      rw [node_loaded load,node_unloaded (show (s.unload j).vnodes j = none from update_self ..)]
      exact (fs.cached j v load).2 clean
    · exact unload_other ne
  refine ⟨fs.steady ⟨rfl,rfl,rfl,rfl⟩ (.still rfl rfl rfl) rfl (fun j _ => (alike j).pointer) ?_,alike⟩
  intro j v load
  obtain ⟨⟨_,alive⟩,clean⟩ := cached_unload (t := s.unload i) fs rfl rfl j v load
  exact ⟨alive,clean⟩

lemma Fs.destroy (fs : Fs s live none) (alive : live i) (bare : ∀ p, pointer s i p = 0) :
    Fs ((s.free i).unload i) (update live i false) none ∧ ∀ j ≠ i, Alike s ((s.free i).unload i) j := by
  have alike : ∀ j ≠ i, Alike s ((s.free i).unload i) j :=
    fun j other => alike_of_frame (update_of_ne other ..) rfl fun _ _ => rfl
  have old : ∀ {j}, update live i false j → j ≠ i := by
    rintro j lives rfl
    rw [update_self] at lives
    cases lives
  have lt := (fs.inode_used alive).1
  refine ⟨fs.rebuild ⟨rfl,rfl,rfl,rfl⟩ (.marked rfl rfl) ?_ ?_ ?_,alike⟩
  · rw [own_congr fun j lives => (alike j (old lives)).pointer,own_destroy bare]
    exact fs.ledger.release (own_inode alive)
  · intro b beyond
    refine (update_of_ne ?_ ..).trans (fs.past b beyond)
    omega
  intro j v load
  obtain ⟨⟨other,lives⟩,clean⟩ := cached_unload (t := (s.free i).unload i) fs rfl rfl j v load
  exact ⟨(update_of_ne other ..).trans lives,clean⟩

lemma Consistent.destroy (ok : Consistent s live) (alive : live i) (count : (node s i).linkcount = 0)
    (bare : ∀ p, pointer s i p = 0) : Consistent ((s.free i).unload i) (update live i false) ∧
      ∀ j ≠ i, Alike s ((s.free i).unload i) j := by
  have counted := ok.counted i alive
  rw [count] at counted
  change 0 = _ at counted
  have file : i ≠ rootLocation := by
    rintro rfl
    rw [rootCount,if_pos rfl] at counted
    omega
  obtain ⟨fs,alike⟩ := ok.fs.destroy alive bare
  have root := alike _ file.symm
  have old : ∀ {j}, update live i false j → j ≠ i ∧ live j := by
    intro j lives
    rcases eq_or_ne j i with rfl | ne
    · rw [update_self] at lives
      cases lives
    rw [update_of_ne ne] at lives
    exact ⟨ne,lives⟩
  refine ⟨⟨fs,⟨?_,?_,?_,?_,?_,?_,?_⟩,?_,?_,?_⟩,alike⟩
  · exact (update_of_ne file.symm ..).trans ok.shape.root
  · rw [root.node]
    exact ok.shape.dir
  · intro j lives ne
    rw [(alike j (old lives).1).node]
    exact ok.shape.only j (old lives).2 ne
  · rw [root.node]
    exact ok.shape.whole
  · rw [root.node]
    exact ok.shape.bounded
  · intro k name j binds
    have pre := (binds_alike root).mp binds
    refine (update_of_ne ?_ ..).trans (ok.shape.named k name j pre)
    rintro rfl
    have some_ : 0 < links s j := tally_pos.mpr ⟨k,pre.1,pre.2.1⟩
    omega
  · intro k l name i j first second
    exact ok.shape.names k l name i j ((binds_alike root).mp first) ((binds_alike root).mp second)
  · intro j lives
    rw [links_alike root,(alike j (old lives).1).node]
    exact ok.counted j (old lives).2
  · intro j lives
    rw [links_alike root]
    rcases ok.reachable j (old lives).2 with top | ⟨v,load⟩ | linked
    · exact .inl top
    · exact .inr (.inl ⟨v,(update_of_ne (old lives).1 ..).trans load⟩)
    · exact .inr (.inr linked)
  intro j v load
  obtain ⟨⟨ne,_⟩,_⟩ := cached_unload (t := (s.free i).unload i) ok.fs rfl rfl j v load
  exact ok.referenced j v ((update_of_ne ne ..).symm.trans load)

lemma Synced.consistent (synced : Synced live s i t) (ok : Consistent s live)
    (load : s.vnodes i = some v) : Consistent t live := by
  have self := synced.self v load
  refine ok.carry synced.fs (fun j alive => (synced.alike j alive).file) ?_ ?_
  · rintro j ⟨w,held⟩
    rcases eq_or_ne j i with rfl | ne
    · exact .inr (.inl ⟨_,self⟩)
    · exact .inr (.inl ⟨w,(synced.others j ne).trans held⟩)
  intro j w held
  rcases eq_or_ne j i with rfl | ne
  · cases self.symm.trans held
    exact ok.referenced j v load
  · exact ok.referenced j w ((synced.others j ne).symm.trans held)

lemma Synced.refs (synced : Synced live s i t) (load : s.vnodes i = some v) (j : Nat) :
    (t.vnodes j).map Vnode.refcount = (s.vnodes j).map Vnode.refcount := by
  rcases eq_or_ne j i with rfl | ne
  · rw [synced.self v load,load]
    rfl
  · rw [synced.others j ne]

lemma Consistent.retire (ok : Consistent s live) (load : s.vnodes i = some v) (last : v.refcount = 1)
    (count : v.inode.linkcount ≠ 0) (synced : Synced live s i t) : Dropped live s i live (t.unload i) := by
  have now := synced.consistent ok load
  obtain ⟨fs,alike⟩ := synced.fs.unload (synced.self v load) rfl
  have alive := ok.fs.alive load
  refine ⟨now.carry fs (fun j _ => (alike j).file) ?_ ?_,synced.fixed.trans ⟨rfl,rfl,rfl,rfl⟩,
    fun _ lives => lives,fun _ _ => rfl,fun j lives => (synced.alike j lives).trans (alike j),?_,?_,?_⟩
  · rintro j ⟨w,held⟩
    rcases eq_or_ne j i with rfl | ne
    · have counted := now.counted j alive
      rw [(synced.alike j alive).node,node_loaded load] at counted
      have nz : v.inode.linkcount.toNat ≠ 0 := fun zero => count (BitVec.eq_of_toNat_eq zero)
      unfold rootCount at counted
      split at counted
      · exact .inl ‹_›
      · exact .inr (.inr (by omega))
    · exact .inr (.inl ⟨w,(update_of_ne ne ..).trans held⟩)
  · intro j w held
    obtain ⟨⟨ne,_⟩,_⟩ := cached_unload (t := t.unload i) synced.fs rfl rfl j w held
    exact now.referenced j w ((update_of_ne ne ..).symm.trans held)
  · intro j lives dead
    rw [lives] at dead
    cases dead
  · intro j ne
    rw [show (t.unload i).vnodes j = t.vnodes j from update_of_ne ne ..,synced.others j ne]
  rw [show (t.unload i).vnodes i = none from update_self ..,load,Option.map_some,Option.bind_some,last]
  rfl

lemma Consistent.erase (ok : Consistent s live) (load : s.vnodes i = some v)
    (last : v.refcount = 1) (count : v.inode.linkcount = 0) (file : i ≠ rootLocation)
    (trimmed : Trimmed live s i t) (bare : ∀ p, pointer t i p = 0) (held : t.vnodes i = some w)
    (synced : Synced live t i u) : Dropped live s i (update live i false) ((u.free i).unload i) := by
  have alive := ok.fs.alive load
  have now := synced.consistent (ok.touched trimmed.toTouched file) held
  have zero : (node u i).linkcount = 0 := by rw [(synced.alike i alive).node,trimmed.linkcount,node_loaded load,count]
  obtain ⟨after,alike⟩ := now.destroy alive zero fun p => by rw [(synced.alike i alive).pointer,bare p]
  have old : ∀ {j}, update live i false j → j ≠ i ∧ live j := by
    intro j lives
    rcases eq_or_ne j i with rfl | other
    · rw [update_self] at lives
      cases lives
    rw [update_of_ne other] at lives
    exact ⟨other,lives⟩
  have free : ∀ b, t.freemap b = false → ((u.free i).unload i).freemap b = false := by
    intro b pre
    change update u.freemap i false b = false
    rcases eq_or_ne b i with rfl | other
    · exact update_self ..
    · rw [update_of_ne other,synced.freemap,pre]
  refine ⟨after,(trimmed.fixed.trans synced.fixed).trans ⟨rfl,rfl,rfl,rfl⟩,fun j lives => (old lives).2,
    fun j other => update_of_ne other ..,?_,?_,?_,?_⟩
  · intro j lives
    obtain ⟨other,lived⟩ := old lives
    exact ((trimmed.others j lived other).trans (synced.alike j lived)).trans (alike j other)
  · intro j lives dead
    have eq : j = i := by
      by_contra other
      rw [update_of_ne other,lives] at dead
      cases dead
    subst eq
    refine ⟨update_self ..,fun p hit => ?_⟩
    rcases trimmed.blocks p with eq | ⟨_,freed⟩
    · rw [bare p] at eq
      exact absurd eq.symm hit
    · exact free _ (freed hit)
  · intro j other
    rw [show ((u.free i).unload i).vnodes j = u.vnodes j from update_of_ne other ..,synced.others j other]
    exact trimmed.refs j
  rw [show ((u.free i).unload i).vnodes i = none from update_self ..,load,Option.map_some,Option.bind_some,last]
  rfl

lemma ends_asFile {α : Type} {m : Op α} {Q : α → State → Prop} (load : s.vnodes i = some v)
    (file : (node s i).type = typeFile) (rest : Ends (m s) Q E) : Ends (asFile i m s) Q E := by
  refine ends_bind_vnodeOf load ?_
  rw [node_loaded load] at file
  split
  · rename_i dir
    rw [file] at dir
    cases dir
  · exact rest

lemma ends_reclaim (ok : Consistent s live) (quiet : Quiet s) (load : s.vnodes i = some v) (last : v.refcount = 1) :
    Ends (sfsReclaim i s) (fun _ t => ∃ after, Dropped live s i after t) (Errs Never) := by
  have alive := ok.fs.alive load
  refine ends_bind_vnodeOf load ?_
  rw [if_neg fun other => other last]
  cases empty : v.inode.linkcount == 0 with
  | false =>
    have count : v.inode.linkcount ≠ 0 := beq_eq_false_iff_ne.mp empty
    refine ends_bind (Q := fun _ t => s = t) (ends_pure rfl) ?_
    rintro _ _ rfl
    refine ends_bind (ends_syncInode ok.fs quiet load) fun _ t synced => ?_
    refine ends_bind (Q := fun _ u => t = u) (ends_pure rfl) ?_
    rintro _ _ rfl
    exact ends_modify ⟨live,ok.retire load last count synced⟩
  | true =>
    have count : v.inode.linkcount = 0 := beq_iff_eq.mp empty
    have file : i ≠ rootLocation := by
      rintro rfl
      have counted := ok.counted _ alive
      rw [node_loaded load,count,rootCount,if_pos rfl] at counted
      change 0 = _ at counted
      omega
    refine ends_bind (Q := fun _ t => Trimmed live s i t ∧ ∀ p, pointer t i p = 0) (ends_asFile load
      (ok.shape.only i alive file) ((ends_truncate ok.fs quiet load 0).imp
        (fun _ _ done => ⟨done.1,done.2.1 rfl⟩))) ?_
    rintro _ t ⟨trimmed,bare⟩
    obtain ⟨w,held,_⟩ := trimmed.loaded load
    refine ends_bind (ends_syncInode trimmed.fs (trimmed.fixed.quiet quiet) held) fun _ u synced => ?_
    refine ends_bind (ends_bfree (Q := fun _ x => x = u.free i) (synced.fs.inode_used alive) rfl) ?_
    rintro _ _ rfl
    exact ends_modify ⟨_,ok.erase load last count file trimmed bare held synced⟩

lemma ends_decref (sound : Consistent s live) (quiet : Quiet s) (load : s.vnodes i = some v) :
    Ends (vnodeDecref i s) (fun _ t => ∃ after, Dropped live s i after t) E := by
  have alive := sound.fs.alive load
  have referenced := sound.referenced i v load
  refine ends_bind_vnodeOf load (ends_bind_kassert (decide_eq_true referenced) ?_)
  split
  · rename_i more
    obtain ⟨fs,alike⟩ := sound.fs.swap (w := {v with refcount := v.refcount-1}) alive
      (node_loaded load).symm (sound.fs.cached i v load).2
    have self : (s.putVnode i {v with refcount := v.refcount-1}).vnodes i =
      some {v with refcount := v.refcount-1} := update_self ..
    refine ends_modify ⟨live,sound.carry fs (fun j _ => (alike j).file) ?_ ?_,⟨rfl,rfl,rfl,rfl⟩,
      fun _ lives => lives,fun _ _ => rfl,fun j _ => alike j,?_,?_,?_⟩
    · rintro j ⟨w,held⟩
      rcases eq_or_ne j i with rfl | ne
      · exact .inr (.inl ⟨_,self⟩)
      · exact .inr (.inl ⟨w,(update_of_ne ne ..).trans held⟩)
    · intro j w held
      rcases eq_or_ne j i with rfl | ne
      · cases self.symm.trans held
        exact Nat.sub_pos_of_lt more
      · exact sound.referenced j w ((update_of_ne ne ..).symm.trans held)
    · intro j lives dead
      rw [lives] at dead
      cases dead
    · intro j ne
      rw [show (s.putVnode i {v with refcount := v.refcount-1}).vnodes j = s.vnodes j from
        update_of_ne ne ..]
    · rw [self,load,Option.map_some,Option.map_some,Option.bind_some,if_pos more]
  rename_i one
  have last : v.refcount = 1 := by omega
  refine ends_bind (Q := fun res t => res = .ok ⟨⟩ ∧ ∃ after, Dropped live s i after t)
    (ends_attempt (ends_reclaim sound quiet load last) (fun _ _ done => ⟨rfl,done⟩) fun _ _ never => never.elim) ?_
  rintro _ t ⟨rfl,done⟩
  exact ends_pure done
end ToyOS.Sfs

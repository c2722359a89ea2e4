import ToyOS.Sfsck
import ToyOS.SfsPersistence

namespace ToyOS.Sfsck
open Function Outcome Sfs List Nat Option

-- What every part of the program does: it finds no fewer faults, forgets no block in use, remembers no inode (ninodes
-- stays), and writes to the disk only after a fault.
structure Grows (s t : Fsck) : Prop where
  badness : s.badness ≤ t.badness
  marks : ∀ b, s.bitmapdata b = true → t.bitmapdata b = true
  ninodes : t.ninodes = s.ninodes
  disk : t.badness = 0 → t.disk = s.disk

lemma Grows.refl (s : Fsck) : Grows s s := ⟨le_rfl,fun _ marked => marked,rfl,fun _ => rfl⟩

lemma Grows.clean (grows : Grows s t) (clean : t.badness = 0) : s.badness = 0 := by
  have := grows.badness
  omega

lemma Grows.trans (one : Grows s t) (two : Grows t u) : Grows s u :=
  ⟨le_trans one.badness two.badness,fun b marked => two.marks b (one.marks b marked),
    two.ninodes.trans one.ninodes,fun clean => (two.disk clean).trans (one.disk (two.clean clean))⟩

def Passes (s : Fsck) (m : Ck α) (Q : α → Fsck → Prop) : Prop :=
  Ends (m s) (fun a t => Grows s t ∧ (t.badness = 0 → Q a t)) fun e _ => e ≠ .exit 0

variable {α β : Type} {s : Fsck} {m : Ck α} {f : α → Ck β} {Q Q' : α → Fsck → Prop} {R : β → Fsck → Prop}

lemma Passes.bind (one : Passes s m Q)
    (rest : ∀ a t, Grows s t → (t.badness = 0 → Q a t) → Passes t (f a) R) : Passes s (m >>= f) R := by
  refine ends_bind one fun a t passed => ?_
  refine (rest a t passed.1 passed.2).mono (fun b u later => ⟨passed.1.trans later.1,later.2⟩) ?_
  exact fun _ _ ran => ran

lemma Passes.mono (passes : Passes s m Q) (weaker : ∀ a t, Grows s t → t.badness = 0 → Q a t → Q' a t) :
    Passes s m Q' :=
  Ends.imp passes (fun a t passed => ⟨passed.1,fun clean => weaker a t passed.1 clean (passed.2 clean)⟩)

lemma passes_pure (holds : s.badness = 0 → Q a s) : Passes s (pure a) Q := ⟨.refl s,holds⟩
lemma passes_get {Q : Fsck → Fsck → Prop} (holds : s.badness = 0 → Q s s) : Passes s get Q := ⟨.refl s,holds⟩
lemma passes_bind_get {f : Fsck → Ck β} (rest : Passes s (f s) R) : Passes s (get >>= f) R := rest

lemma passes_bind_set (grows : Grows s t) (rest : Passes t m Q) : Passes s (set t >>= fun _ => m) Q :=
  Ends.imp (show Ends (m t) _ _ from rest) (fun _ _ passed => ⟨grows.trans passed.1,passed.2⟩)

lemma grows_same {t : Fsck} (badness : t.badness = s.badness) (marks : t.bitmapdata = s.bitmapdata)
    (ninodes : t.ninodes = s.ninodes) (disk : t.disk = s.disk) : Grows s t :=
  ⟨le_of_eq badness.symm,fun b marked => by rw [marks]; exact marked,ninodes,fun _ => disk⟩

lemma passes_errx (nz : code ≠ 0) : Passes s (errx code : Ck α) Q := by
  intro eq
  cases eq
  exact nz rfl

lemma passes_bind_assert (rest : Passes s m Q) : Passes s (assert holds >>= fun _ => m) Q := by
  cases holds with
  | true => exact rest
  | false => exact Stop.noConfusion

lemma passes_modify {g : Fsck → Fsck} {Q : PUnit → Fsck → Prop} (grows : Grows s (g s))
    (holds : (g s).badness = 0 → Q ⟨⟩ (g s)) : Passes s (modify g) Q := ⟨grows,holds⟩

lemma passes_setbadness {Q : PUnit → Fsck → Prop} (fault : 0 < code) : Passes s (setbadness code) Q := by
  have hit : ¬max s.badness code = 0 := by omega
  exact ⟨⟨le_max_left _ _,fun _ marked => marked,rfl,fun clean => absurd clean hit⟩,fun clean => absurd clean hit⟩

lemma Passes.fault (fault : 0 < s.badness) (passes : Passes s m Q) : Passes s m Q' :=
  passes.mono fun _ _ grows clean _ => absurd (grows.clean clean) (ne_of_gt fault)

lemma Passes.and (one : Passes s m Q) (two : Passes s m Q') : Passes s m fun a t => Q a t ∧ Q' a t := by
  unfold Passes at one two ⊢
  cases ran : m s with
  | ok a t => exact ⟨(one.ok ran).1,fun clean => ⟨(one.ok ran).2 clean,(two.ok ran).2 clean⟩⟩
  | error e t => exact one.failed ran

def Goes (m : Ck α) : Prop := ∀ s, Passes s m fun _ _ => True

lemma Goes.ends (goes : Goes m) : Ends (m s) (fun _ t => Grows s t) fun e _ => e ≠ .exit 0 :=
  Ends.imp (goes s) (fun _ _ passed => passed.1)

lemma Goes.bind (one : Goes m) (rest : ∀ a, Goes (f a)) : Goes (m >>= f) := fun s =>
  (one s).bind fun a t _ _ => rest a t

lemma goes_pure (a : α) : Goes (pure a : Ck α) := fun _ => passes_pure fun _ => trivial
lemma goes_get : Goes (get : Ck Fsck) := fun _ => passes_get fun _ => trivial
lemma Passes.goes (passes : Passes s m Q) : Passes s m fun _ _ => True := passes.mono fun _ _ _ _ _ => trivial

lemma goes_assert (holds : Bool) : Goes (assert holds) := by
  intro s
  cases holds with
  | true => exact goes_pure _ s
  | false => exact Stop.noConfusion

lemma goes_setbadness (fault : 0 < c) : Goes (setbadness c) := fun _ => passes_setbadness fault

lemma passes_fault (fault : 0 < code) (rest : ∀ t, 0 < t.badness → Passes t m Q) :
    Passes s (setbadness code >>= fun _ => m) Q := by
  have hit : Passes s (setbadness code) fun _ _ => False := passes_setbadness fault
  exact hit.bind fun _ t _ faulty => rest t (pos_of_ne_zero faulty)

lemma passes_fault_pure (fault : 0 < code) : Passes s (setbadness code >>= fun _ => pure a) Q :=
  passes_fault fault fun _ faulty => passes_pure fun clean => absurd clean (ne_of_gt faulty)

lemma passes_diskread (block : Nat) :
    Passes s (diskread block) fun data t => t.disk = s.disk ∧ data = s.disk (sectorOf block) := by
  refine passes_bind_get ?_
  split
  · exact passes_pure fun _ => ⟨rfl,rfl⟩
  · exact passes_errx (by decide)

lemma goes_diskread (block : Nat) : Goes (diskread block) := fun _ => (passes_diskread block).goes

lemma passes_diskwrite {Q : PUnit → Fsck → Prop} (fault : 0 < s.badness) : Passes s (diskwrite data block) Q := by
  refine passes_bind_get ?_
  split
  · have faulty : ¬s.badness = 0 := ne_of_gt fault
    exact ⟨⟨le_rfl,fun _ marked => marked,rfl,fun clean => absurd clean faulty⟩,fun clean => absurd clean faulty⟩
  · exact passes_errx (by decide)

lemma passes_flagged {m : Ck PUnit} (quiet : s.badness = 0 → flag = false)
    (writes : 0 < s.badness → Passes s m fun _ _ => True) : Passes s (flagged flag m) fun _ _ => True := by
  cases flag with
  | false => exact goes_pure _ s
  | true => exact writes (pos_of_ne_zero fun clean => by cases quiet clean)

lemma goes_domalloc : Goes domalloc := by
  intro s
  refine passes_bind_get (passes_bind_set (grows_same rfl rfl rfl rfl) ?_)
  split
  · exact goes_pure _ _
  · exact passes_errx (by decide)

lemma goes_markTofree (block : Nat) : Goes (markTofree block) := by
  intro s
  refine passes_bind_get ?_
  split
  · exact goes_pure _ s
  · exact ⟨grows_same rfl rfl rfl rfl,fun _ => trivial⟩

lemma grows_marked (s : Fsck) (block : Nat) : Grows s {s with
    tofreedata := update s.tofreedata block false,
    bitmapdata := update s.bitmapdata block true} := by
  refine ⟨le_rfl,fun b marked => ?_,rfl,fun _ => rfl⟩
  change update s.bitmapdata block true b = true
  rcases eq_or_ne b block with rfl | ne
  · exact update_self ..
  rw [update_of_ne ne]
  exact marked

lemma passes_reported (rest : ∀ t, 0 < t.badness → Passes t m Q) :
    Passes s (setbadness exitUnrecov >>= fun _ => m) Q := by
  have hit : Passes s (setbadness exitUnrecov) fun _ _ => False := passes_setbadness (by decide)
  exact hit.bind fun _ t _ faulty => rest t (pos_of_ne_zero faulty)

lemma passes_mark (block : Nat) : Passes s (bitmapMark block .used) fun _ t =>
    s.bitmapdata block = false ∧ t.bitmapdata block := by
  refine passes_bind_get (passes_bind_assert ?_)
  have setting : ∀ u : Fsck, (u.badness = 0 → s.bitmapdata block = false) → Passes u (modify fun s => {s with
      tofreedata := update s.tofreedata block false,
      bitmapdata := update s.bitmapdata block true}) fun _ t => s.bitmapdata block = false ∧ t.bitmapdata block :=
    fun u fresh => passes_modify (grows_marked u block) fun clean => ⟨fresh clean,update_self ..⟩
  cases marked : s.bitmapdata block with
  | true =>
    rw [marked] at setting
    exact passes_reported fun u faulty => setting u fun clean => absurd clean (ne_of_gt faulty)
  | false =>
    rw [marked] at setting
    exact setting _ fun _ => rfl

lemma goes_mark (block : Nat) (how : Usage) : Goes (bitmapMark block how) := by
  intro s
  cases how with
  | used => exact (passes_mark block).goes
  | tofree => exact passes_bind_get (passes_bind_assert (goes_markTofree block _))
  | pastend =>
    refine passes_bind_get (passes_bind_assert ?_)
    have setting : Goes (modify fun s : Fsck => {s with
        tofreedata := update s.tofreedata block false,
        bitmapdata := update s.bitmapdata block true}) := fun u =>
      passes_modify (grows_marked u block) fun _ => trivial
    cases s.bitmapdata block with
    | true => exact passes_reported fun t _ => setting t
    | false => exact setting _

lemma goes_markAll (how : Usage) (blocks : List Nat) : Goes (markAll how blocks) := by
  induction blocks with
  | nil => exact goes_pure _
  | cons block rest ih => exact (goes_mark block how).bind fun _ => ih

lemma goes_addmemory (ino linkcount : Nat) : Goes (addmemory ino linkcount) := by
  have remembering : Goes (modify fun s : Fsck => {s with inodes := update s.inodes s.ninodes ⟨ino,linkcount⟩}) :=
    fun _ => passes_modify (grows_same rfl rfl rfl rfl) fun _ => trivial
  refine goes_get.bind fun s => (goes_assert _).bind fun _ => ?_
  split
  · exact goes_domalloc.bind fun _ => remembering
  · exact remembering

lemma goes_rememberDir (ino : Nat) : Goes (rememberDir ino) := by
  refine goes_get.bind fun s => ?_
  split
  · exact (goes_assert _).bind fun _ => goes_pure _
  · exact (goes_addmemory ino 0).bind fun _ => goes_pure _

lemma goes_observeFilelink (ino : Nat) : Goes (observeFilelink ino) := by
  intro s
  refine passes_bind_get ?_
  split
  · exact passes_bind_assert ⟨grows_same rfl rfl rfl rfl,fun _ => trivial⟩
  · exact ((goes_mark ino .used).bind fun _ => goes_addmemory ino 1) s

lemma goes_checkVolname (sup : Block) : Goes (checkVolname sup) := by
  intro s
  unfold checkVolname
  split
  split
  split
  · exact passes_fault (by decide) fun _ faulty => passes_diskwrite faulty
  · exact goes_pure _ s

lemma goes_checkDirect (sfi : Inode) (nblocks : Nat) (ks : List (Fin nDirect)) (badcount : Nat) :
    Goes (checkDirect sfi nblocks ks badcount) := by
  induction ks generalizing badcount with
  | nil => exact goes_pure _
  | cons k rest ih =>
    unfold checkDirect
    split
    · exact ih badcount
    split
    · exact (goes_mark _ _).bind fun _ => ih badcount
    · exact (goes_mark _ _).bind fun _ => ih _

lemma goes_checkEntries (nblocks : Nat) (ks : List (Fin dbPerIdb)) (table : Fin dbPerIdb → BitVec 32) (badcount : Nat) :
    Goes (checkEntries nblocks ks table badcount) := by
  induction ks generalizing table badcount with
  | nil => exact goes_pure _
  | cons k rest ih =>
    unfold checkEntries
    split
    · exact ih table badcount
    refine (goes_mark _ _).bind fun _ => ?_
    split
    · exact ih table badcount
    · exact ih _ _

-- The indirect block is written before the fault is noted.
structure Counted (s : Fsck) (ientry : BitVec 32) (r : BitVec 32 × Nat) (t : Fsck) : Prop where
  badness : s.badness ≤ t.badness
  marks : ∀ b, s.bitmapdata b = true → t.bitmapdata b = true
  ninodes : t.ninodes = s.ninodes
  none : r.2 = 0 → r.1 = ientry ∧ Grows s t

lemma ends_indirect (ientry : BitVec 32) (nblocks badcount : Nat) :
    Ends (checkIndirectBlock ientry nblocks badcount s) (fun r t => Counted s ientry r t) fun e _ => e ≠ .exit 0 := by
  have counted : ∀ {r : BitVec 32 × Nat} {t : Fsck}, Grows s t → (r.2 = 0 → r.1 = ientry) → Counted s ientry r t :=
    fun grows eq => ⟨grows.badness,grows.marks,grows.ninodes,fun none => ⟨eq none,grows⟩⟩
  unfold checkIndirectBlock
  split
  · rename_i zero
    exact counted (.refl s) fun _ => (BitVec.eq_of_toNat_eq zero).symm
  refine ends_bind (goes_diskread _).ends fun data t one => ?_
  refine ends_bind (goes_mark _ _).ends fun _ u two => ?_
  refine ends_bind (goes_checkEntries _ _ _ _).ends fun r v third => ?_
  have pre := (one.trans two).trans third
  split
  split
  · refine ends_bind (goes_mark _ _).ends fun _ w fourth => ?_
    exact counted (pre.trans fourth) fun none => absurd none (succ_ne_zero _)
  split
  · rename_i bad
    unfold diskwrite
    refine ends_bind (Q := fun _ w => w.badness = v.badness ∧ w.bitmapdata = v.bitmapdata ∧ w.ninodes = v.ninodes) ?_
      fun _ w eq => ?_
    · refine ends_bind_get ?_
      split
      · exact ⟨rfl,rfl,rfl⟩
      · exact fun exit => by cases exit
    refine ⟨?_,fun b marked => ?_,eq.2.2.trans pre.ninodes,fun none => absurd none (ne_of_gt bad)⟩
    · rw [eq.1]
      exact pre.badness
    rw [eq.2.1]
    exact pre.marks b marked
  · exact counted pre fun _ => rfl

lemma passes_inodeBlocks (sfi : Inode) : Passes s (checkInodeBlocks sfi) fun r _ => r = (sfi,false) := by
  refine ends_bind (goes_checkDirect _ _ _ _).ends fun badcount t one => ?_
  refine ends_bind (ends_indirect _ _ _) fun r u counted => ?_
  split
  rename_i indirect badcount
  split
  · rename_i some_
    have hit : ¬max u.badness exitRecov = 0 := by
      unfold exitRecov
      omega
    refine ⟨⟨?_,fun b marked => counted.marks b (one.marks b marked),
      counted.ninodes.trans one.ninodes,fun clean => absurd clean hit⟩,fun clean => absurd clean hit⟩
    exact le_trans one.badness (le_trans counted.badness (le_max_left _ _))
  rename_i none
  obtain ⟨eq,grows⟩ := counted.none (Nat.eq_zero_of_not_pos none)
  refine ⟨one.trans grows,fun _ => ?_⟩
  change indirect = sfi.indirect at eq
  subst eq
  rfl

def mapped (disk : Nat → Block) (sfi : Inode) (fileblock : Nat) : Nat :=
  if direct : fileblock < nDirect then (sfi.direct ⟨fileblock,direct⟩).toNat
  else if entry : fileblock-nDirect < dbPerIdb then
    if sfi.indirect.toNat = 0 then 0
    else (entries (disk (sectorOf sfi.indirect.toNat)) ⟨fileblock-nDirect,entry⟩).toNat
  else 0

lemma passes_dobmap (sfi : Inode) (fileblock : Nat) : Passes s (dobmap sfi fileblock) fun block t =>
    t.disk = s.disk ∧ block = mapped s.disk sfi fileblock := by
  unfold dobmap mapped
  split
  · exact passes_pure fun _ => ⟨rfl,rfl⟩
  split
  · split
    · exact passes_pure fun _ => ⟨rfl,rfl⟩
    refine (passes_diskread _).bind fun data t _ read => passes_pure fun clean => ?_
    obtain ⟨eq,rfl⟩ := read clean
    exact ⟨eq,rfl⟩
  · exact passes_pure fun _ => ⟨rfl,rfl⟩

def dirData (disk : Nat → Block) (sfi : Inode) (i : Nat) : Block :=
  if mapped disk sfi i ≠ 0 then disk (sectorOf (mapped disk sfi i)) else zeros

lemma passes_dirblock (block : Nat) : Passes s (readDirblock block) fun data t =>
    t.disk = s.disk ∧ data = if block ≠ 0 then s.disk (sectorOf block) else zeros := by
  unfold readDirblock
  split
  · exact passes_diskread block
  · exact passes_pure fun _ => ⟨rfl,rfl⟩

lemma passes_dirread (sfi : Inode) (is : List Nat) (d : Nat → DirEntry) : Passes s (dirread sfi is d) fun r _ =>
    ∀ k, k/atonce ∈ is → r k = entryAt (dirData s.disk sfi (k/atonce)) (k % atonce) := by
  have all : Passes s (dirread sfi is d) fun r _ =>
      ∀ k, r k = if k/atonce ∈ is then entryAt (dirData s.disk sfi (k/atonce)) (k % atonce) else d k := by
    induction is generalizing s d with
    | nil => exact passes_pure fun _ k => rfl
    | cons i rest ih =>
      refine (passes_dobmap sfi i).bind fun block t _ hit => ?_
      refine (passes_dirblock block).bind fun data u grows read => ?_
      refine (ih _).mono fun r v later clean entries k => ?_
      obtain ⟨eq,data_⟩ := read (later.clean clean)
      obtain ⟨still,rfl⟩ := hit (grows.clean (later.clean clean))
      rw [still] at eq data_
      rw [entries k,eq]
      by_cases mem : k/atonce ∈ rest
      · rw [if_pos mem,if_pos (mem_cons_of_mem i mem)]
      rw [if_neg mem]
      by_cases here : k/atonce = i
      · rw [if_pos here,if_pos (mem_cons.mpr (.inl here)),data_,dirData,here]
      · rw [if_neg here,if_neg fun either => (mem_cons.mp either).elim here mem]
  exact all.mono fun r _ _ _ entries k mem => by rw [entries k,if_pos mem]

lemma goes_freshName (e : DirEntry) : Goes (freshName e) := fun _ =>
  passes_bind_get (passes_bind_set (grows_same rfl rfl rfl rfl) (goes_pure _ _))

lemma passes_named (e : DirEntry) : Passes s (checkNamed e) fun r _ => r = (e,false) := by
  unfold checkNamed
  split
  split
  split
  · exact passes_fault_pure (by decide)
  · exact passes_pure fun _ => rfl

lemma passes_dirEntry (e : DirEntry) : Passes s (checkDirEntry e) fun r _ => r = (e,false) := by
  unfold checkDirEntry
  split
  · split
    · exact passes_fault_pure (by decide)
    · exact passes_pure fun _ => rfl
  split
  · refine (goes_freshName e s).bind fun e' t _ _ => passes_fault (by decide) fun u faulty => ?_
    refine (passes_named e').bind fun r v grows _ => passes_pure fun clean => ?_
    exact absurd (grows.clean clean) (ne_of_gt faulty)
  · exact passes_named e

lemma passes_allEntries (is : List Nat) (d : DirCheck) : Passes s (checkAllEntries is d) fun r _ => r = d := by
  induction is generalizing s d with
  | nil => exact passes_pure fun _ => rfl
  | cons i rest ih =>
    refine (passes_dirEntry _).bind fun r t _ eq => (ih _).mono fun r' u grows clean res => ?_
    cases eq (grows.clean clean)
    exact res

lemma passes_duplicate (i j : Nat) (d : DirCheck) : Passes s (checkDuplicate i j d) fun r _ => r = d := by
  unfold checkDuplicate
  split
  · exact passes_pure fun _ => rfl
  split
  · split
    · exact passes_fault_pure (by decide)
    · exact (goes_freshName _ s).bind fun _ t _ _ => passes_fault_pure (by decide)
  · exact passes_pure fun _ => rfl

lemma passes_duplicates (vector : Nat → Nat) (is : List Nat) (d : DirCheck) :
    Passes s (checkDuplicates vector is d) fun r _ => r = d := by
  induction is generalizing s d with
  | nil => exact passes_pure fun _ => rfl
  | cons i rest ih =>
    refine passes_bind_assert ((passes_duplicate _ _ d).bind fun r t _ eq => ?_)
    exact (ih r).mono fun _ _ grows clean res => res.trans (eq (grows.clean clean))

lemma passes_dot (i ino : Nat) (seen : Bool) (d : DirCheck) : Passes s (checkDot i ino seen d) fun r _ =>
    r = d ∧ (d.direntries i).ino.toNat = ino := by
  unfold checkDot
  split
  · exact passes_bind_assert (passes_pure fun _ => ⟨rfl,‹_›⟩)
  refine passes_fault (by decide) fun t faulty => passes_bind_assert (passes_pure fun clean => ?_)
  exact absurd clean (ne_of_gt faulty)

def Entered (d : DirCheck) (is : List Nat) (name : List UInt8) (ino : Nat) : Prop :=
  ∃ i ∈ is, d.nameOf i = name ∧ (d.direntries i).ino.toNat = ino

lemma Entered.cons (entered : Entered d is name ino) : Entered d (i :: is) name ino := by
  obtain ⟨j,mem,hit⟩ := entered
  exact ⟨j,mem_cons_of_mem i mem,hit⟩

lemma passes_dots (ino parentino : Nat) (is : List Nat) (dotseen dotdotseen : Bool) (d : DirCheck) :
    Passes s (checkDots ino parentino is dotseen dotdotseen d) fun r _ => r.2.2 = d ∧
      (r.1 → dotseen ∨ Entered d is dot ino) ∧ (r.2.1 → dotdotseen ∨ Entered d is dotdot parentino) := by
  induction is generalizing s d dotseen dotdotseen with
  | nil => exact passes_pure fun _ => ⟨rfl,.inl,.inl⟩
  | cons i rest ih =>
    unfold checkDots
    split
    · rename_i named
      refine (passes_dot i ino dotseen d).bind fun r t _ hit =>
        (ih true dotdotseen r).mono fun r' u grows clean res => ?_
      obtain ⟨rfl,entry⟩ := hit (grows.clean clean)
      refine ⟨res.1,fun _ => .inr ⟨i,mem_cons_self,named,entry⟩,fun seen => ?_⟩
      exact (res.2.2 seen).imp_right .cons
    split
    · rename_i named
      refine (passes_dot i parentino dotdotseen d).bind fun r t _ hit =>
        (ih dotseen true r).mono fun r' u grows clean res => ?_
      obtain ⟨rfl,entry⟩ := hit (grows.clean clean)
      refine ⟨res.1,fun seen => ?_,fun _ => .inr ⟨i,mem_cons_self,named,entry⟩⟩
      exact (res.2.1 seen).imp_right .cons
    refine (ih dotseen dotdotseen d).mono fun _ _ _ _ res => ⟨res.1,fun seen => ?_,fun seen => ?_⟩
    · exact (res.2.1 seen).imp_right .cons
    · exact (res.2.2 seen).imp_right .cons

lemma passes_addDot (name : List UInt8) (ino most : Nat) (seen : Bool) (d : DirCheck) :
    Passes s (addDot name ino most seen d) fun r _ => r = d ∧ seen := by
  cases seen with
  | true => exact passes_pure fun _ => ⟨rfl,rfl⟩
  | false =>
    unfold addDot
    rw [if_neg Bool.false_ne_true]
    split
    · exact passes_fault_pure (by decide)
    refine passes_fault (by decide) fun t faulty => ?_
    split
    · exact passes_pure fun clean => absurd clean (ne_of_gt faulty)
    · exact passes_pure fun clean => absurd clean (ne_of_gt faulty)

lemma passes_names (ino parentino : Nat) (d : DirCheck) : Passes s (checkNames ino parentino d) fun r _ => r = d ∧
    Entered d (range d.ndirentries) dot ino ∧ Entered d (range d.ndirentries) dotdot parentino := by
  refine (passes_allEntries _ d).bind fun d1 t1 _ same1 => ?_
  refine (passes_duplicates _ _ d1).bind fun d2 t2 grows2 same2 => ?_
  refine (passes_dots ino parentino _ false false d2).bind fun r t3 grows3 seen => ?_
  refine (passes_addDot dot ino _ r.1 r.2.2).bind fun d4 t4 grows4 same4 => ?_
  refine (passes_addDot dotdot parentino _ r.2.1 d4).mono fun d5 t5 grows5 clean same5 => ?_
  have clean4 := grows5.clean clean
  have clean3 := grows4.clean clean4
  have clean2 := grows3.clean clean3
  obtain ⟨rfl,one⟩ := same4 clean4
  obtain ⟨rfl,two⟩ := same5
  cases same1 (grows2.clean clean2)
  cases same2 clean2
  obtain ⟨eq,dotted,dotdotted⟩ := seen clean3
  refine ⟨eq,?_,?_⟩
  · exact (dotted one).resolve_left Bool.false_ne_true
  · exact (dotdotted two).resolve_left Bool.false_ne_true

lemma goes_checkFile (ino : Nat) (data : Block) : Goes (checkFile ino data) := by
  intro s
  refine (passes_inodeBlocks (decodeInode data)).bind fun r t _ eq => ?_
  refine Passes.bind (passes_flagged (fun clean => by rw [eq clean]) fun faulty => passes_diskwrite faulty) ?_
  exact fun _ u _ _ => goes_observeFilelink ino u

lemma passes_dropEntry (i : Nat) (d : DirCheck) : Passes s (dropEntry i d) fun _ _ => False :=
  passes_fault (by decide) fun _ faulty => passes_pure fun clean => absurd clean (ne_of_gt faulty)

section
variable {descend : Nat → Ck Bool} (descends : ∀ sub, Goes (descend sub))
include descends

lemma passes_object (i subdircount : Nat) (d : DirCheck) :
    Passes s (checkObject descend i subdircount d) fun r _ => r.2 = d := by
  refine (goes_diskread _ _).bind fun data t _ _ => ?_
  split
  · exact (goes_checkFile _ _ t).bind fun _ u _ _ => passes_pure fun _ => rfl
  split
  · refine (descends _ t).bind fun crosslinked u _ _ => ?_
    split
    · exact (passes_dropEntry i d).bind fun _ v _ never => passes_pure fun clean => (never clean).elim
    · exact passes_pure fun _ => rfl
  · exact (passes_dropEntry i d).bind fun _ v _ never => passes_pure fun clean => (never clean).elim

lemma passes_objects (is : List Nat) (subdircount : Nat) (d : DirCheck) :
    Passes s (checkObjects descend is subdircount d) fun r _ => r.2 = d := by
  induction is generalizing s subdircount d with
  | nil => exact passes_pure fun _ => rfl
  | cons i rest ih =>
    unfold checkObjects
    split
    · exact ih subdircount d
    refine (passes_object descends i subdircount d).bind fun r t _ eq => ?_
    exact (ih r.1 r.2).mono fun _ _ grows clean res => res.trans (eq (grows.clean clean))

end

lemma passes_size (sfi : Inode) : Passes s (checkSize sfi) fun r _ => r = (sfi,false) := by
  unfold checkSize
  split
  · exact passes_fault_pure (by decide)
  · exact passes_pure fun _ => rfl

def entryOf (disk : Nat → Block) (sfi : Inode) (i : Nat) : DirEntry :=
  entryAt (dirData disk sfi (i/atonce)) (i % atonce)

structure Read (disk : Nat → Block) (sfi : Inode) (d : DirCheck) : Prop where
  inode : d.sfi = sfi
  count : d.ndirentries = sfi.size.toNat/sizeofDir
  entries : ∀ i, i < d.ndirentries → d.direntries i = entryOf disk sfi i
  unchanged : d.ichanged = false ∧ d.dchanged = false

lemma passes_load (block : Block) : Passes s (loadDir block) fun d _ => Read s.disk (decodeInode block) d := by
  refine (passes_size (decodeInode block)).bind fun r1 t1 grows1 same1 =>
    (passes_inodeBlocks r1.1).bind fun r2 t2 grows2 same2 => ?_
  refine (goes_domalloc t2).bind fun _ t3 grows3 _ => (goes_domalloc t3).bind fun _ t4 grows4 _ => ?_
  refine passes_bind_assert ((passes_dirread r2.1 _ _).bind fun entries t5 grows5 read => passes_pure fun clean => ?_)
  have clean4 := grows5.clean clean
  have clean3 := grows4.clean clean4
  have clean2 := grows3.clean clean3
  have clean1 := grows2.clean clean2
  have disk : t4.disk = s.disk := (((grows1.trans grows2).trans grows3).trans grows4).disk clean4
  cases same1 clean1
  cases same2 clean2
  refine ⟨rfl,rfl,fun i inside => ?_,rfl,rfl⟩
  change i < entryCount (decodeInode block) at inside
  change (if i < entryCount (decodeInode block) then entries i else noEntry) = _
  rw [if_pos inside,read clean i,entryOf,disk]
  refine mem_range.mpr ?_
  have eight : atonce = 8 := rfl
  simp only [dirBlocks,eight]
  omega

lemma passes_linkcount (subdircount : Nat) (d : DirCheck) : Passes s (checkLinkcount subdircount d) fun r _ =>
    r = d ∧ d.sfi.linkcount.toNat = subdircount+2 := by
  unfold checkLinkcount
  split
  · exact passes_fault_pure (by decide)
  rename_i eq
  exact passes_pure fun _ => ⟨rfl,not_not.mp eq⟩

lemma passes_dirwrite (sfi : Inode) (d : Nat → DirEntry) (is : List Nat) (fault : 0 < s.badness) :
    Passes s (dirwrite sfi d is) fun _ _ => True := by
  induction is generalizing s with
  | nil => exact goes_pure _ s
  | cons i rest ih =>
    refine (passes_dobmap sfi i).bind fun block t grows _ => ?_
    have faulty := lt_of_lt_of_le fault grows.badness
    have next : ∀ u, Grows t u → Passes u (dirwrite sfi d rest) fun _ _ => True := fun u later =>
      ih (lt_of_lt_of_le faulty later.badness)
    split
    · exact (passes_diskwrite (Q := fun _ _ => True) faulty).bind fun _ u later _ => next u later
    split
    · exact (goes_setbadness (by decide) t).bind fun _ u later _ => next u later
    · exact next t (.refl t)

lemma passes_writeBack (ino : Nat) (d : DirCheck) (quiet : s.badness = 0 → d.ichanged = false ∧ d.dchanged = false) :
    Passes s (writeBack ino d) fun _ _ => True := by
  refine Passes.bind (passes_flagged (fun clean => (quiet clean).2) fun faulty => passes_dirwrite _ _ _ faulty) ?_
  intro _ t grows _
  exact passes_flagged (fun clean => (quiet (grows.clean clean)).1) fun faulty => passes_diskwrite faulty

-- What a directory is like that no fault is found in.
structure Clean (disk : Nat → Block) (sfi : Inode) (ino parentino subdircount : Nat) (d : DirCheck) : Prop where
  read : Read disk sfi d
  dot : Entered d (List.range d.ndirentries) dot ino
  dotdot : Entered d (List.range d.ndirentries) dotdot parentino
  linkcount : sfi.linkcount.toNat = subdircount+2

lemma passes_newDir {descend : Nat → Ck Bool} (descends : ∀ sub, Goes (descend sub)) (ino parentino : Nat)
    (block : Block) (Counted : DirCheck → Nat → Prop) (objects : ∀ d t, Grows s t →
      (t.badness = 0 → t.disk = s.disk ∧ t.bitmapdata ino ∧ Read s.disk (decodeInode block) d) →
      Passes t (checkObjects descend (range d.ndirentries) 0 d) fun r _ => Counted d r.1) :
    Passes s (checkNewDir descend ino parentino block) fun _ _ => s.bitmapdata ino = false ∧
      ∃ d subdircount, Clean s.disk (decodeInode block) ino parentino subdircount d ∧ Counted d subdircount := by
  refine (passes_mark ino).bind fun _ t1 grows1 marked => (passes_load block).bind fun d t2 grows2 read => ?_
  refine (passes_names ino parentino d).bind fun d3 t3 grows3 named => ?_
  have known : t3.badness = 0 → d3 = d ∧ t3.disk = s.disk ∧ t3.bitmapdata ino ∧ Read s.disk (decodeInode block) d3 := by
    intro clean
    have clean2 := grows3.clean clean
    have clean1 := grows2.clean clean2
    have disk := grows1.disk clean1
    obtain ⟨rfl,_⟩ := named clean
    refine ⟨rfl,((grows1.trans grows2).trans grows3).disk clean,?_,disk ▸ read clean2⟩
    exact grows3.marks _ (grows2.marks _ (marked clean1).2)
  refine Passes.bind ((passes_objects descends _ 0 d3).and
    (objects d3 t3 ((grows1.trans grows2).trans grows3) fun clean => (known clean).2)) ?_
  intro r t4 grows4 looked
  refine (passes_linkcount r.1 r.2).bind fun d5 t5 grows5 linked => ?_
  have final : t5.badness = 0 → Clean s.disk (decodeInode block) ino parentino r.1 d3 ∧ Counted d3 r.1 ∧ d5 = d3 := by
    intro clean
    have clean4 := grows5.clean clean
    have clean3 := grows4.clean clean4
    obtain ⟨rfl,_,_,read⟩ := known clean3
    obtain ⟨eq,counted⟩ := looked clean4
    obtain ⟨rfl,links⟩ := linked clean
    rw [eq] at links ⊢
    rw [read.inode] at links
    exact ⟨⟨read,(named clean3).2.1,(named clean3).2.2,links⟩,counted,rfl⟩
  refine (passes_writeBack ino d5 fun clean => ?_).bind fun _ t6 grows6 _ => passes_pure fun clean => ?_
  · obtain ⟨clear,_,rfl⟩ := final clean
    exact clear.read.unchanged
  have clean5 := grows6.clean clean
  have clean1 := grows2.clean (grows3.clean (grows4.clean (grows5.clean clean5)))
  obtain ⟨clear,counted,_⟩ := final clean5
  exact ⟨(marked clean1).1,d3,r.1,clear,counted⟩

lemma goes_checkDir (fuel ino parentino : Nat) : Goes (checkDir fuel ino parentino) := by
  induction fuel generalizing ino parentino with
  | zero => exact fun _ => Stop.noConfusion
  | succ fuel ih =>
    intro s
    refine Goes.bind (goes_diskread ino) (fun data => (goes_rememberDir ino).bind fun crosslinked => ?_) _
    cases crosslinked with
    | true => exact goes_pure _
    | false =>
      intro s
      refine (passes_newDir (fun sub => ih sub ino) ino parentino _ (fun _ _ => True) ?_).goes
      exact fun d t _ _ => (passes_objects (fun sub => ih sub ino) _ 0 d).goes

lemma passes_again (fuel ino parentino : Nat) (marked : s.badness = 0 → s.bitmapdata ino) :
    Passes s (checkDir fuel ino parentino) fun r _ => r := by
  cases fuel with
  | zero => exact Stop.noConfusion
  | succ fuel =>
    refine (goes_diskread ino _).bind fun data t1 grows1 _ =>
      (goes_rememberDir ino t1).bind fun crosslinked t2 grows2 _ => ?_
    cases crosslinked with
    | true => exact passes_pure fun _ => rfl
    | false =>
      have goes := fun sub => goes_checkDir fuel sub ino
      refine Passes.mono (passes_newDir goes ino parentino _ (fun _ _ => True) fun d t _ _ =>
        (passes_objects goes _ 0 d).goes) fun _ u grows3 clean fresh => ?_
      have clean2 := grows3.clean clean
      have still := grows2.marks _ (grows1.marks _ (marked (grows1.clean (grows2.clean clean2))))
      rw [fresh.1] at still
      cases still

lemma passes_rootObject {d : DirCheck} (known : s.badness = 0 → s.bitmapdata rootLocation ∧
      ((decodeInode (s.disk (sectorOf (d.direntries i).ino.toNat))).type = typeDir →
        (d.direntries i).ino.toNat = rootLocation)) :
    Passes s (checkObject (fun sub => checkDir fuel sub rootLocation) i subdircount d) fun r _ =>
      r.1 = subdircount := by
  refine (passes_diskread _).bind fun data t grows read => ?_
  split
  · exact (goes_checkFile _ _ t).bind fun _ u _ _ => passes_pure fun _ => rfl
  have dropped : ∀ u, Passes u (do
      let d ← dropEntry i d
      pure (subdircount,d)) fun r _ => r.1 = subdircount := fun u =>
    (passes_dropEntry i d).bind fun _ v _ never => passes_pure fun clean => (never clean).elim
  split
  · rename_i dir
    have again : Passes t (checkDir fuel (d.direntries i).ino.toNat rootLocation) fun r _ => r := by
      by_cases root : (d.direntries i).ino.toNat = rootLocation
      · rw [root]
        exact passes_again fuel rootLocation rootLocation fun clean => grows.marks _ (known (grows.clean clean)).1
      refine (goes_checkDir _ _ _ t).fault (pos_of_ne_zero fun clean => root ?_)
      obtain ⟨_,rfl⟩ := read clean
      exact (known (grows.clean clean)).2 dir
    refine again.bind fun crosslinked u _ seen => ?_
    cases crosslinked with
    | true => exact dropped u
    | false => exact passes_pure fun clean => by cases seen clean
  · exact dropped t

lemma passes_rootObjects {disk : Nat → Block} {d : DirCheck} (is : List Nat) (subdircount : Nat)
    (only : ∀ i ∈ is, (d.direntries i).ino.toNat ≠ noIno →
      (decodeInode (disk (sectorOf (d.direntries i).ino.toNat))).type = typeDir →
      (d.direntries i).ino.toNat = rootLocation) (known : s.badness = 0 → s.disk = disk ∧ s.bitmapdata rootLocation) :
    Passes s (checkObjects (fun sub => checkDir fuel sub rootLocation) is subdircount d) fun r _ =>
      r.1 = subdircount := by
  induction is generalizing s subdircount with
  | nil => exact passes_pure fun _ => rfl
  | cons i rest ih =>
    have later := fun j mem => only j (mem_cons_of_mem i mem)
    unfold checkObjects
    split
    · exact ih subdircount later known
    rename_i ne
    have goes := fun sub => goes_checkDir fuel sub rootLocation
    have object : Passes s (checkObject (fun sub => checkDir fuel sub rootLocation) i subdircount d) fun r _ =>
        r.1 = subdircount := passes_rootObject fun clean => by
      obtain ⟨rfl,marked⟩ := known clean
      exact ⟨marked,only i mem_cons_self fun zero => ne (.inr (.inr zero))⟩
    refine (object.and (passes_object goes i subdircount d)).bind fun r t grows looked => ?_
    obtain ⟨count,entries⟩ := r
    by_cases clean : t.badness = 0
    · obtain ⟨rfl,rfl⟩ := looked clean
      refine ih _ later fun _ => ?_
      obtain ⟨disk,marked⟩ := known (grows.clean clean)
      exact ⟨(grows.disk clean).trans disk,grows.marks _ marked⟩
    · exact (passes_objects goes rest count entries).fault (pos_of_ne_zero clean)

lemma passes_rememberFirst (ino : Nat) (none : s.ninodes = 0) : Passes s (rememberDir ino) fun r _ => r = false := by
  refine passes_bind_get ?_
  have unknown : remembered s ino = Option.none := by
    unfold remembered
    rw [none]
    rfl
  rw [unknown]
  exact (goes_addmemory ino 0 s).bind fun _ t _ _ => passes_pure fun _ => rfl

def rootOn (disk : Nat → Block) : Inode := decodeInode (disk rootLocation)
def rootEntries (disk : Nat → Block) : Nat := (rootOn disk).size.toNat/sizeofDir
def rootEntry (disk : Nat → Block) (i : Nat) : DirEntry := entryOf disk (rootOn disk) i

-- A disk that the kernel has written: no entry names another directory than the root, and where the root has both dot
-- entries its link count is not the two that the checker expects.
structure KernelImage (disk : Nat → Block) : Prop where
  only : ∀ i, i < rootEntries disk → (rootEntry disk i).ino.toNat ≠ noIno →
    (decodeInode (disk (sectorOf (rootEntry disk i).ino.toNat))).type = typeDir →
    (rootEntry disk i).ino.toNat = rootLocation
  links : ∀ i j, i < rootEntries disk → j < rootEntries disk → i ≠ j → (rootEntry disk i).ino.toNat = rootLocation →
    (rootEntry disk j).ino.toNat = rootLocation → (rootOn disk).linkcount.toNat ≠ 2

lemma KernelImage.unclean {disk : Nat → Block} (image : KernelImage disk)
    (clear : Clean disk (rootOn disk) rootLocation rootLocation 0 d) : False := by
  obtain ⟨i,one,named,ino⟩ := clear.dot
  obtain ⟨j,two,named',ino'⟩ := clear.dotdot
  have inside := mem_range.mp one
  have inside' := mem_range.mp two
  rw [clear.read.entries i inside] at ino
  rw [clear.read.entries j inside'] at ino'
  rw [clear.read.count] at inside inside'
  refine image.links i j inside inside' (fun eq => ?_) ino ino' clear.linkcount
  subst eq
  rw [named] at named'
  exact absurd named' (by decide)

lemma passes_checkRoot (fuel : Nat) (none : s.ninodes = 0) (image : s.badness = 0 → KernelImage s.disk) :
    Passes s (checkDir fuel rootLocation rootLocation) fun _ _ => False := by
  cases fuel with
  | zero => exact Stop.noConfusion
  | succ fuel =>
    refine (passes_diskread rootLocation).bind fun data t1 grows1 read => ?_
    refine (passes_rememberFirst rootLocation (grows1.ninodes.trans none)).bind fun crosslinked t2 grows2 one => ?_
    cases crosslinked with
    | true => exact passes_pure fun clean => by cases one clean
    | false =>
      have goes := fun sub => goes_checkDir fuel sub rootLocation
      have known : t2.badness = 0 → KernelImage t2.disk ∧ decodeInode data = rootOn t2.disk := by
        intro clean
        have clean1 := grows2.clean clean
        obtain ⟨eq,rfl⟩ := read clean1
        rw [grows2.disk clean,eq]
        exact ⟨image (grows1.clean clean1),rfl⟩
      refine Passes.mono (passes_newDir goes rootLocation rootLocation _ (fun _ subdircount => subdircount = 0) ?_) ?_
      · intro d t grows looked
        by_cases clean : t.badness = 0
        · obtain ⟨disk,marked,read⟩ := looked clean
          obtain ⟨image,eq⟩ := known (grows.clean clean)
          refine passes_rootObjects _ 0 (fun i mem => ?_) fun _ => ⟨disk,marked⟩
          have inside := mem_range.mp mem
          rw [read.entries i inside,eq]
          rw [read.count,eq] at inside
          exact image.only i inside
        · exact (passes_objects goes _ _ _).fault (pos_of_ne_zero clean)
      intro _ t grows clean hit
      obtain ⟨_,d,_,clear,rfl⟩ := hit
      obtain ⟨image,eq⟩ := known (grows.clean clean)
      rw [eq] at clear
      exact image.unclean clear

def Unread (disk : Nat → Block) (s : Fsck) : Prop := s.ninodes = 0 ∧ (s.badness = 0 → s.disk = disk)

def Faulty (s : Fsck) : Prop := 0 < s.badness
def NotClean (e : Stop) (_ : Fsck) : Prop := e ≠ .exit 0

lemma Goes.unread (goes : Goes m) (disk : Nat → Block) : Keeps (Unread disk) NotClean Anything m := by
  intro s unread
  refine Ends.imp (goes s) (fun _ t passed => ⟨trivial,?_⟩)
  refine ⟨passed.1.ninodes.trans unread.1,fun clean => ?_⟩
  exact (passed.1.disk clean).trans (unread.2 (passed.1.clean clean))

def Worse (code : Nat) (s : Fsck) : Prop := code ≤ s.badness

lemma Goes.worse (goes : Goes m) (code : Nat) : Keeps (Worse code) NotClean Anything m := fun s worse =>
  Ends.imp (goes s) (fun _ _ passed => ⟨trivial,le_trans worse passed.1.badness⟩)

lemma unread_checkSb (disk : Nat → Block) : Keeps (Unread disk) NotClean Anything checkSb := by
  refine ((goes_diskread sbLocation).unread disk).bind fun sup _ => ?_
  split
  · intro s _ eq
    cases eq
  intro s unread
  refine ends_bind_get (ends_bind ((goes_assert _).unread disk s unread) fun _ t _ => ends_bind_set ?_)
  refine Keeps.bind ((goes_assert _).unread disk) (fun _ _ => ?_) _ unread
  refine (goes_domalloc.unread disk).bind fun _ _ => (goes_domalloc.unread disk).bind fun _ _ => ?_
  refine Keeps.bind (P := Anything) (by exact keeps_modify fun _ unread => unread) fun _ _ => ?_
  refine ((goes_markAll _ _).unread disk).bind fun _ _ => ((goes_checkVolname sup).unread disk).bind fun _ _ => ?_
  exact ((goes_mark _ _).unread disk).bind fun _ _ => (goes_markAll _ _).unread disk

lemma faulty_checkRootDir {disk : Nat → Block} (image : KernelImage disk) (fuel : Nat) (unread : Unread disk s) :
    Ends (checkRootDir fuel s) (fun _ t => Faulty t) NotClean := by
  have hit : Passes s (checkRootDir fuel) fun _ _ => False := by
    refine (goes_diskread rootLocation s).bind fun data t1 grows1 _ => ?_
    have corrected : Passes t1 (flagged ((decodeInode data).type != typeDir) do
        setbadness exitRecov
        diskwrite (putInode data {decodeInode data with type := typeDir}) rootLocation) fun _ _ => True := by
      cases (decodeInode data).type != typeDir with
      | false => exact goes_pure _ t1
      | true => exact passes_fault (by decide) fun _ faulty => passes_diskwrite faulty
    refine corrected.bind fun _ t2 grows2 _ => ?_
    have grows := grows1.trans grows2
    have root := passes_checkRoot fuel (grows.ninodes.trans unread.1) fun clean => by
      rw [grows.disk clean,unread.2 (grows.clean clean)]
      exact image
    exact root.bind fun _ _ _ never => passes_pure never
  exact Ends.imp hit (fun _ _ passed => pos_of_ne_zero passed.2)

section
variable {code : Nat}

lemma worse_flagged (flag : Bool) {m : Ck PUnit} (keeps : Keeps (Worse code) NotClean Anything m) :
    Keeps (Worse code) NotClean Anything (flagged flag m) := by
  cases flag with
  | true => exact keeps
  | false => exact keeps_pure trivial

lemma worse_diskwrite (data : Block) (block : Nat) : Keeps (Worse code) NotClean Anything (diskwrite data block) := by
  intro s worse
  refine ends_bind_get ?_
  split
  · exact ⟨trivial,worse⟩
  · exact fun eq => by cases eq

lemma worse_setbadness (c : Nat) : Keeps (Worse code) NotClean Anything (setbadness c) := fun _ worse =>
  ⟨trivial,le_trans worse (le_max_left _ _)⟩

lemma goes_checkBytes (bits found tofree : Nat → Bool) (js : List Nat) (c : ByteCheck) :
    Goes (checkBytes bits found tofree js c) := by
  induction js generalizing c with
  | nil => exact goes_pure c
  | cons j rest ih => exact (goes_assert _).bind fun _ => ih _

lemma worse_checkMapBlocks (is : List Nat) (c : ByteCheck) :
    Keeps (Worse code) NotClean Anything (checkMapBlocks is c) := by
  induction is generalizing c with
  | nil => exact keeps_pure trivial
  | cons i rest ih =>
    refine ((goes_diskread _).worse code).bind fun data _ => ?_
    generalize range blockSize = bytes
    refine keeps_get.bind fun s _ => ((goes_checkBytes _ _ _ _ _).worse code).bind fun c _ => ?_
    exact (worse_flagged _ (worse_diskwrite _ _)).bind fun _ _ => ih c

lemma worse_checkBitmap : Keeps (Worse code) NotClean Anything checkBitmap := by
  refine keeps_get.bind fun s _ => (worse_checkMapBlocks _ _).bind fun c _ => ?_
  exact (worse_flagged _ (worse_setbadness _)).bind fun _ _ => worse_flagged _ (worse_setbadness _)

lemma worse_adjustLink (known : InodeMemory) : Keeps (Worse code) NotClean Anything (adjustLink known) := by
  unfold adjustLink
  split
  · exact keeps_pure trivial
  refine ((goes_diskread _).worse code).bind fun data _ => ((goes_assert _).worse code).bind fun _ _ => ?_
  split
  · exact (worse_setbadness _).bind fun _ _ => worse_diskwrite _ _
  · exact keeps_pure trivial

lemma worse_adjustFilelinks (is : List Nat) : Keeps (Worse code) NotClean Anything (adjustFilelinks is) := by
  induction is with
  | nil => exact keeps_pure trivial
  | cons i rest ih => exact keeps_get.bind fun s _ => (worse_adjustLink _).bind fun _ _ => ih

end

lemma faulty_main {disk : Nat → Block} (image : KernelImage disk) (fuel : Nat) (unread : Unread disk s) :
    Ends (main fuel s) (fun _ t => Faulty t) NotClean := by
  refine ends_bind (unread_checkSb disk s unread) fun _ t1 passed => ?_
  refine ends_bind (faulty_checkRootDir image fuel passed.2) fun _ t2 faulty => ?_
  -- From here on a fault has been noted, and no exit code takes it back.
  refine ends_bind (worse_checkBitmap t2 faulty) fun _ t3 kept => ends_bind_get ?_
  exact (worse_adjustFilelinks _ t3 kept.2).imp fun _ _ done => done.2

lemma sfsck_unclean {disk : Nat → Block} (image : KernelImage disk) (fuel dBlocks : Nat) (memory : Nat → Bool)
    (left : Nat → Block) : sfsck fuel disk dBlocks memory ≠ some (0,left) := by
  have ends := faulty_main image fuel (s := started disk dBlocks memory) ⟨rfl,fun _ => rfl⟩
  intro clean
  unfold sfsck at clean
  cases ran : main fuel (started disk dBlocks memory) with
  | ok _ t =>
    have faulty := ends.ok ran
    simp only [ran,some.injEq,Prod.mk.injEq] at clean
    exact absurd clean.1 (ne_of_gt faulty)
  | error e t =>
    have stopped := ends.failed ran
    cases e with
    | exit code =>
      simp only [ran,some.injEq,Prod.mk.injEq] at clean
      exact stopped (congrArg Stop.exit clean.1)
    | abort => simp [ran] at clean
    | deeper => simp [ran] at clean
end ToyOS.Sfsck

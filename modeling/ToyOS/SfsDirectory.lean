import ToyOS.SfsIo

namespace ToyOS.Sfs
open Words Outcome Tally UserSpace ByteMemory

variable {s t : State} {live : Nat → Bool} {i j b n ino slot : Nat} {v : Vnode} {p : Slot}
  {sd : Nat → UInt8} {name : List UInt8} {e : Errno}

variable {E : Fault → State → Prop}

lemma ends_readdir (fs : Fs s live none) (quiet : Quiet s) (load : s.vnodes i = some v)
    (inside : slot*sizeofDir+sizeofDir ≤ (node s i).size.toNat) (bounded : (node s i).size.toNat ≤ maxFile) :
    Ends (sfsReaddir i slot s) (fun data t => Calm s t ∧ ∀ x < sizeofDir, data x = byte s i (slot*sizeofDir+x)) E := by
  have whole : reach i ⟨s,uioKinit zeros sizeofDir (slot*sizeofDir) false⟩ = sizeofDir := by
    change min sizeofDir ((node s i).size.toNat-slot*sizeofDir) = sizeofDir
    omega
  have near : slot*sizeofDir+sizeofDir ≤ farthest := by
    unfold farthest maxFile nDirect dbPerIdb blockSize at *
    omega
  refine ends_bind (Q := fun res t => res.2.resid = 0 ∧ Calm s t ∧
    ∀ x < sizeofDir, res.2.data x = byte s i (slot*sizeofDir+x))
    ((ends_withUio (R := Never) ((ends_sfsIo
      fs quiet load).mono ?_ (Errs.mono ?_))).imp_error Errs.never) ?_
  · intro _ after done
    rw [whole] at done
    refine ⟨?_,done.calm rfl,fun x lt => ?_⟩
    · rw [done.resid]
      exact Nat.sub_self _
    rw [done.read rfl near]
    change splice zeros 0 sizeofDir (byte s i) (slot*sizeofDir) x = _
    rw [splice,if_pos ⟨Nat.zero_le x,by omega⟩,Nat.sub_zero]
  · intro e after failed
    have hindered := failed.hindered
    rw [whole] at hindered
    rcases hindered with ⟨_,limited⟩ | ⟨_,big⟩ | ⟨_,write,_⟩
    · exact limited rfl
    · have beyond : maxFile < slot*sizeofDir+sizeofDir := big
      omega
    · cases write
  rintro ⟨_,u⟩ t ⟨done,calm,bytes⟩
  exact ends_bind_kassert (beq_iff_eq.mpr done) (ends_pure ⟨calm,bytes⟩)

-- An entry has been written.
structure Written (live : Nat → Bool) (s : State) (i slot : Nat) (sd : Nat → UInt8) (t : State) : Prop where
  touched : Touched live s i t
  bounded : slot*sizeofDir+sizeofDir ≤ maxFile
  byte : byte t i = splice (byte s i) (slot*sizeofDir) sizeofDir sd 0
  size : (node t i).size.toNat = max (node s i).size.toNat (slot*sizeofDir+sizeofDir)

-- An entry could not be written.
structure Unwritten (live : Nat → Bool) (s : State) (i slot : Nat) (errno : Errno) (t : State) : Prop where
  fs : Fs t live none
  kept : Kept live s i t
  reason : errno = .efbig ∧ maxFile < slot*sizeofDir+sizeofDir ∨
    errno = .enospc ∧ ¬Room s i (slot*sizeofDir) sizeofDir

lemma ends_writedir (fs : Fs s live none) (quiet : Quiet s) (load : s.vnodes i = some v)
    (inside : slot*sizeofDir ≤ (node s i).size.toNat) :
    Ends (sfsWritedir i sd slot s) (fun _ t => Written live s i slot sd t) (Errs (Unwritten live s i slot)) := by
  have limit := (node s i).size.isLt
  have near : slot*sizeofDir+sizeofDir ≤ farthest := by
    unfold farthest sizeofDir blockSize at *
    omega
  have whole : reach i ⟨s,uioKinit sd sizeofDir (slot*sizeofDir) true⟩ = sizeofDir := rfl
  refine ends_bind (Q := fun res t => res.2.resid = 0 ∧ Written live s i slot sd t) (ends_withUio ((ends_sfsIo
      fs quiet load).mono ?_ (Errs.mono ?_)))
    fun _ t written => ends_kassert (beq_iff_eq.mpr written.1) written.2
  · intro _ after done
    rw [whole] at done
    have bounded : slot*sizeofDir+sizeofDir ≤ maxFile := by
      rcases done.bounded near with none_ | bounded
      · cases none_
      · exact bounded
    refine ⟨?_,done.touched,bounded,done.written rfl near,?_⟩
    · rw [done.resid]
      exact Nat.sub_self _
    rw [done.size]
    change (grownSize (node s i).size true (slot*sizeofDir+sizeofDir)).toNat = _
    rw [grownSize]
    split
    · rename_i grows
      rw [BitVec.toNat_ofNat,Nat.max_eq_right (le_of_lt grows.2)]
      refine Nat.mod_eq_of_lt ?_
      unfold maxFile nDirect dbPerIdb blockSize at bounded
      omega
    rename_i stays
    exact (Nat.max_eq_left (Nat.le_of_not_lt fun more => stays ⟨rfl,more⟩)).symm
  intro e after bad
  obtain ⟨hindered,⟨n,done,stop⟩,_⟩ := bad
  rw [whole] at hindered stop
  have nothing : n = 0 := by
    have stop : n = 0 ∨ n < sizeofDir ∧ (slot*sizeofDir+n) % blockSize = 0 := (stop rfl).imp And.left And.right
    unfold sizeofDir blockSize at stop
    omega
  subst nothing
  have bytes : byte after.fs i = byte s i := (done.written rfl (Nat.le_of_add_right_le near)).trans splice_zero
  have size : (node after.fs i).size = (node s i).size := by
    rw [done.size]
    exact if_neg fun grows => absurd inside (not_le.mpr grows.2)
  refine ⟨done.touched.fs,⟨done.touched.fixed,done.touched.refs,done.touched.others,?_⟩,?_⟩
  · rw [file,file,size,done.touched.type,done.touched.linkcount,bytes]
  rcases hindered with ⟨_,limited⟩ | big | ⟨full,_,short⟩
  · exact absurd rfl limited
  · exact .inl big
  · exact .inr ⟨full,short near⟩

def slots (s : State) : Nat := (node s rootLocation).size.toNat/sizeofDir
def named (s : State) (k : Nat) : Nat := entryIno (byte s rootLocation) k
def nameAt (s : State) (k : Nat) : List UInt8 := entryName (byte s rootLocation) k
def links (s : State) (i : Nat) : Nat := tally (named s) (slots s) i

lemma slots_congr (size : (node t rootLocation).size = (node s rootLocation).size) : slots t = slots s := by
  rw [slots,slots,size]

section
variable (bytes : byte t rootLocation = byte s rootLocation)
include bytes

lemma named_congr : named t = named s := by
  funext k
  rw [named,named,bytes]

lemma nameAt_congr : nameAt t = nameAt s := by
  funext k
  rw [nameAt,nameAt,bytes]

end

lemma links_congr (size : (node t rootLocation).size = (node s rootLocation).size)
    (bytes : byte t rootLocation = byte s rootLocation) : links t = links s := by
  funext i
  rw [links,links,slots_congr size,named_congr bytes]

section
variable (written : Written live s rootLocation slot sd t)
include written

lemma Written.inside (lt : x < sizeofDir) : Sfs.byte t rootLocation (sizeofDir*slot+x) = sd x := by
  rw [written.byte,Nat.mul_comm,splice,if_pos ⟨Nat.le_add_right ..,by omega⟩]
  exact congrArg sd (by omega)

lemma Written.outside (ne : k ≠ slot)
    (lt : x < sizeofDir) : Sfs.byte t rootLocation (sizeofDir*k+x) = Sfs.byte s rootLocation (sizeofDir*k+x) := by
  rw [written.byte,splice,if_neg]
  unfold Inside sizeofDir at *
  omega

end

lemma entryIno_moved {f g : Nat → UInt8} (eq : ∀ x < sizeofDir, f (sizeofDir*k+x) = g (sizeofDir*m+x)) :
    entryIno f k = entryIno g m :=
  congrArg BitVec.toNat (wordAt_moved fun j lt => eq j (by unfold sizeofDir; omega))

lemma entryName_moved {f g : Nat → UInt8} (eq : ∀ x < sizeofDir, f (sizeofDir*k+x) = g (sizeofDir*m+x)) :
    entryName f k = entryName g m := by
  refine congrArg (List.takeWhile _) (List.map_congr_left fun j mem => ?_)
  have lt := List.mem_range.mp mem
  have moved := eq (4+j) (by unfold nameLen at lt; unfold sizeofDir; omega)
  rwa [←Nat.add_assoc,←Nat.add_assoc] at moved

section
variable (written : Written live s rootLocation slot sd t)
include written

lemma Written.named (k : Nat) : Sfs.named t k = if k = slot then entryIno sd 0 else Sfs.named s k := by
  split
  · rename_i eq
    subst eq
    exact entryIno_moved fun x lt => (written.inside lt).trans (congrArg sd (by omega))
  rename_i ne
  exact entryIno_moved fun x lt => written.outside ne lt

lemma Written.nameAt (k : Nat) : Sfs.nameAt t k = if k = slot then entryName sd 0 else Sfs.nameAt s k := by
  split
  · rename_i eq
    subst eq
    exact entryName_moved fun x lt => (written.inside lt).trans (congrArg sd (by omega))
  rename_i ne
  exact entryName_moved fun x lt => written.outside ne lt

section
variable (whole : (node s rootLocation).size.toNat % sizeofDir = 0)
include whole

lemma Written.slots : slots t = max (slots s) (slot+1) := by
  rw [Sfs.slots,Sfs.slots,written.size]
  unfold sizeofDir at *
  omega

lemma Written.links (lt : slot < Sfs.slots s) (i : Nat) : links t i+(if Sfs.named s slot = i then 1 else 0) =
      links s i+if entryIno sd 0 = i then 1 else 0 := by
  have eq : Sfs.slots t = Sfs.slots s := by
    rw [written.slots whole]
    omega
  have entry : Sfs.named t slot = entryIno sd 0 := by rw [written.named,if_pos rfl]
  rw [Sfs.links,Sfs.links,eq,←entry]
  exact tally_set lt fun k other => by rw [written.named,if_neg other]

lemma Written.links_append (last : slot = Sfs.slots s) (i : Nat) :
    Sfs.links t i = Sfs.links s i+if entryIno sd 0 = i then 1 else 0 := by
  have more : Sfs.slots t = slot+1 := by
    rw [written.slots whole]
    omega
  have entry : Sfs.named t slot = entryIno sd 0 := by rw [written.named,if_pos rfl]
  have pre : tally (Sfs.named t) slot i = tally (Sfs.named s) slot i :=
    tally_congr fun k lt => by rw [written.named,if_neg (ne_of_lt lt)]
  rw [Sfs.links,Sfs.links,more,tally_succ,entry,←last,pre]

end

end

def Binds (s : State) (k : Nat) (name : List UInt8) (ino : Nat) : Prop :=
  k < slots s ∧ named s k = ino ∧ ino ≠ noIno ∧ nameAt s k = name

-- The directory has entries with different names, for inodes that are there.
structure Shape (s : State) (live : Nat → Bool) : Prop where
  root : live rootLocation = true
  dir : (node s rootLocation).type = typeDir
  only : ∀ i, live i = true → i ≠ rootLocation → (node s i).type = typeFile
  whole : (node s rootLocation).size.toNat % sizeofDir = 0
  bounded : (node s rootLocation).size.toNat ≤ maxFile
  named : ∀ k name ino, Binds s k name ino → live ino = true
  names : ∀ k l name ino other, Binds s k name ino → Binds s l name other → k = l

lemma binds_congr (size : (node t rootLocation).size = (node s rootLocation).size)
    (bytes : byte t rootLocation = byte s rootLocation) : Binds t k name ino ↔ Binds s k name ino := by
  rw [Binds,Binds,slots_congr size,named_congr bytes,nameAt_congr bytes]

lemma Shape.carry (shape : Shape s live) (size : (node t rootLocation).size = (node s rootLocation).size)
    (bytes : byte t rootLocation = byte s rootLocation)
    (types : ∀ j, live j → (node t j).type = (node s j).type) : Shape t live where
  root := shape.root
  dir := (types _ shape.root).trans shape.dir
  only i alive other := (types i alive).trans (shape.only i alive other)
  whole := by
    rw [size]
    exact shape.whole
  bounded := by
    rw [size]
    exact shape.bounded
  named k name ino binds := shape.named k name ino ((binds_congr size bytes).mp binds)
  names k l name ino other first second :=
    shape.names k l name ino other ((binds_congr size bytes).mp first) ((binds_congr size bytes).mp second)

lemma Calm.shape (calm : Calm s t) (shape : Shape s live) : Shape t live :=
  shape.carry (by rw [(calm.alike _).node]) (calm.alike _).byte fun j _ => by rw [(calm.alike j).node]

lemma slot_inside (lt : slot < slots s) : slot*sizeofDir+sizeofDir ≤ (node s rootLocation).size.toNat := by
  unfold slots sizeofDir at *
  omega

-- What sfs_dir_findname has found when it has looked at the slots below `limit`.
structure Search.Sound (found : Search) (s : State) (name : List UInt8) (limit : Nat) : Prop where
  hit : ∀ ino slot, found.hit = some (ino,slot) → slot < limit ∧ Binds s slot name ino
  miss : found.hit = none → ∀ k ino, k < limit → ¬Binds s k name ino
  empty : ∀ slot, found.empty = some slot → slot < slots s ∧ named s slot = noIno

lemma ends_findFrom (fs : Fs s live none) (quiet : Quiet s) (shape : Shape s live)
    (load : s.vnodes rootLocation = some v) (calm : Calm s t) {found : Search} (sound : found.Sound s name slot)
    (rest : slot+n = slots s) : Ends (findFrom rootLocation name n slot found t)
      (fun found u => Calm s u ∧ found.Sound s name (slots s)) E := by
  induction n generalizing slot found t with
  | zero =>
    rw [Nat.add_zero] at rest
    rw [rest] at sound
    exact ends_pure ⟨calm,sound⟩
  | succ n ih =>
    have lt : slot < slots s := by omega
    have same := (calm.alike rootLocation).node
    refine ends_bind (ends_readdir (calm.fs fs) (calm.fixed.quiet quiet) (calm.loaded load)
      (by rw [same]; exact slot_inside lt) (by rw [same]; exact shape.bounded)) ?_
    rintro tsd u ⟨more,bytes⟩
    have now := calm.trans more
    have moved : ∀ x < sizeofDir, tsd (sizeofDir*0+x) = byte s rootLocation (sizeofDir*slot+x) := by
      intro x small
      rw [Nat.mul_zero,Nat.zero_add,bytes x small,(calm.alike rootLocation).byte,Nat.mul_comm]
    have entry : entryIno tsd 0 = named s slot := entryIno_moved moved
    have call : entryName tsd 0 = nameAt s slot := entryName_moved moved
    rw [entry,call]
    have passed : ∀ {k}, k < slot+1 → k ≠ slot → k < slot := by omega
    split
    · rename_i free
      refine ih now ⟨?_,?_,?_⟩ (by omega)
      · intro ino ne same
        obtain ⟨pre,binds⟩ := sound.hit ino ne same
        exact ⟨Nat.lt_succ_of_lt pre,binds⟩
      · intro none_ k ino pre binds
        by_cases last : k = slot
        · subst last
          exact binds.2.2.1 (binds.2.1.symm.trans free)
        · exact sound.miss none_ k ino (passed pre last) binds
      intro ne same
      cases same
      exact ⟨lt,free⟩
    rename_i did
    split
    · rename_i match_
      have binds : Binds s slot name (named s slot) := ⟨lt,rfl,did,match_⟩
      have one : found.hit = none := by
        cases hit : found.hit with
        | none => rfl
        | some pair =>
          obtain ⟨pre,ne⟩ := sound.hit pair.1 pair.2 hit
          have eq := shape.names _ _ _ _ _ ne binds
          omega
      refine ends_bind_kassert (by rw [one]; rfl) (ih now ⟨?_,?_,sound.empty⟩ (by omega))
      · intro ino ne same
        cases same
        exact ⟨Nat.lt_succ_self slot,binds⟩
      intro none_
      cases none_
    rename_i differs
    refine ih now ⟨?_,?_,sound.empty⟩ (by omega)
    · intro ino ne same
      obtain ⟨pre,binds⟩ := sound.hit ino ne same
      exact ⟨Nat.lt_succ_of_lt pre,binds⟩
    intro none_ k ino pre binds
    by_cases last : k = slot
    · subst last
      exact differs binds.2.2.2
    · exact sound.miss none_ k ino (passed pre last) binds

lemma ends_dirNentries {Q : Nat → State → Prop} (shape : Shape s live)
    (load : s.vnodes rootLocation = some v) (rest : Q (slots s) s) : Ends (sfsDirNentries rootLocation s) Q E := by
  have eq := node_loaded load
  have dir := shape.dir
  have whole := shape.whole
  rw [slots,eq] at rest
  rw [eq] at dir whole
  exact ends_bind_vnodeOf load (ends_bind_kassert (beq_iff_eq.mpr dir)
    (ends_bind_kassert (beq_iff_eq.mpr whole) (ends_pure rest)))

lemma ends_dirFindname (fs : Fs s live none) (quiet : Quiet s) (shape : Shape s live)
    (load : s.vnodes rootLocation = some v) : Ends (sfsDirFindname rootLocation name s)
      (fun hit t => Calm s t ∧ hit.Sound s name (slots s)) E := by
  refine ends_bind (Q := fun count t => count = slots s ∧ s = t) (ends_dirNentries shape load ⟨rfl,rfl⟩) ?_
  rintro _ _ ⟨rfl,rfl⟩
  refine ends_findFrom fs quiet shape load .refl ⟨?_,?_,?_⟩ (Nat.zero_add _)
  · intro _ _ none_
    cases none_
  · intro _ k _ pre
    cases pre
  intro _ none_
  cases none_

lemma Written.after_calm (written : Written live t i slot sd u) (calm : Calm s t)
    (fs : Fs s live none) : Written live s i slot sd u where
  touched := (calm.touched fs).trans written.touched
  bounded := written.bounded
  byte := by
    rw [←(calm.alike i).byte]
    exact written.byte
  size := by
    rw [←(calm.alike i).node]
    exact written.size

-- sfs_dir_link. The new entry takes the place of an empty one, or comes last.
structure Linked (live : Nat → Bool) (s : State) (name : List UInt8) (ino slot : Nat) (t : State) :
    Prop where
  written : Written live s rootLocation slot (dirBytes (BitVec.ofNat 32 ino) name) t
  vacant : slot < slots s ∧ named s slot = noIno ∨ slot = slots s
  fresh : ∀ k other, ¬Binds s k name other
  short : name.length < nameLen

-- Why an entry is not made.
structure Unlinked (live : Nat → Bool) (s : State) (name : List UInt8) (errno : Errno) (t : State) :
    Prop where
  fs : Fs t live none
  kept : Kept live s rootLocation t
  reason : (errno = .eexist ∧ ∃ k ino, Binds s k name ino) ∨
    (∀ k ino, ¬Binds s k name ino) ∧ (errno = .enametoolong ∧ nameLen ≤ name.length ∨
      (errno = .efbig ∨ errno = .enospc) ∧ name.length < nameLen)

lemma ends_dirLink (fs : Fs s live none) (quiet : Quiet s) (shape : Shape s live)
    (load : s.vnodes rootLocation = some v) :
    Ends (sfsDirLink rootLocation name ino s) (fun slot t => Linked live s name ino slot t)
      (Errs (Unlinked live s name)) := by
  refine ends_bind (ends_dirFindname fs quiet shape load) ?_
  rintro found t ⟨calm,sound⟩
  have here := calm.loaded load
  split
  · rename_i there
    obtain ⟨pair,hit⟩ := Option.isSome_iff_exists.mp there
    exact ends_fail ⟨calm.fs fs,calm.kept,.inl ⟨rfl,_,_,(sound.hit pair.1 pair.2 hit).2⟩⟩
  rename_i miss
  have none_ : found.hit = none := Option.not_isSome_iff_eq_none.mp miss
  have fresh : ∀ k other, ¬Binds s k name other := fun k other binds => sound.miss none_ k other binds.1 binds
  split
  · rename_i long
    exact ends_fail ⟨calm.fs fs,calm.kept,.inr ⟨fresh,.inl ⟨rfl,Nat.le_of_lt_succ long⟩⟩⟩
  rename_i notLong
  have short : name.length < nameLen := Nat.le_of_not_lt notLong
  refine ends_bind (Q := fun count u => count = slots s ∧ t = u) (ends_dirNentries (calm.shape shape) here ⟨?_,rfl⟩) ?_
  · rw [slots,slots,(calm.alike rootLocation).node]
  rintro _ _ ⟨rfl,rfl⟩
  have vacant : found.empty.getD (slots s) < slots s ∧ named s (found.empty.getD (slots s)) = noIno ∨
      found.empty.getD (slots s) = slots s := by
    cases empty : found.empty with
    | none => exact .inr rfl
    | some slot => exact .inl (sound.empty slot empty)
  have inside : found.empty.getD (slots s)*sizeofDir ≤ (node t rootLocation).size.toNat := by
    rw [(calm.alike rootLocation).node]
    unfold slots sizeofDir at *
    omega
  refine ends_bind ((ends_writedir (calm.fs fs) (calm.fixed.quiet quiet) here inside).imp_error
    (Errs.mono fun e u unwritten => ?_)) ?_
  · refine ⟨unwritten.fs,calm.kept.trans unwritten.kept,.inr ⟨fresh,.inr ⟨?_,short⟩⟩⟩
    rcases unwritten.reason with big | full
    · exact .inl big.1
    · exact .inr full.1
  · exact fun _ u written => ends_pure ⟨written.after_calm calm fs,vacant,fresh,short⟩

lemma entryIno_dirBytes (ino : BitVec 32) (name : List UInt8) : entryIno (dirBytes ino name) 0 = ino.toNat := by
  rw [entryIno,Nat.mul_zero,wordAt_dirBytes]

lemma entry_room (hit : named s slot ≠ noIno) : Room s rootLocation (slot*sizeofDir) sizeofDir := by
  have one : blocksOf (slot*sizeofDir) sizeofDir = 1 := by
    unfold blocksOf sizeofDir blockSize
    omega
  have mapped : ∃ p, slotOf (slot*sizeofDir/blockSize) = some p ∧ pointer s rootLocation p ≠ 0 := by
    by_contra absent
    refine hit ?_
    have zero : wordAt (byte s rootLocation) (sizeofDir*slot) = wordAt (fun _ => 0) 0 := by
      refine wordAt_moved fun j lt => ?_
      have block : (sizeofDir*slot+j)/blockSize = slot*sizeofDir/blockSize := by
        unfold sizeofDir blockSize
        omega
      rw [byte,block]
      split
      · rfl
      rename_i p place
      refine if_pos ?_
      by_contra here
      exact absent ⟨p,place,here⟩
    rw [named,entryIno,zero,wordAt_zero]
    rfl
  obtain ⟨p,place,here⟩ := mapped
  have free : demand s rootLocation (slot*sizeofDir/blockSize) (0+1) = 0 := by
    rw [demand_succ place,lacks_present here,missing]
    split
    · rename_i far
      unfold slotOf at place
      split at place
      · omega
      split at place
      · cases place
        rw [lacks_present (indirect_of_entry here)]
      · cases place
    · rfl
  rw [Room,one,free]
  exact Nat.zero_le _

lemma ends_dirUnlink (fs : Fs s live none) (quiet : Quiet s) (shape : Shape s live)
    (load : s.vnodes rootLocation = some v) (lt : slot < slots s) (hit : named s slot ≠ noIno) :
    Ends (sfsDirUnlink rootLocation slot s)
      (fun _ t => Written live s rootLocation slot (dirBytes (BitVec.ofNat 32 noIno) []) t) (Errs Never) := by
  have le := slot_inside lt
  have bounded := shape.bounded
  refine (ends_writedir fs quiet load (by omega)).mono (fun _ t written => written)
    (Errs.mono fun e t unwritten => ?_)
  rcases unwritten.reason with ⟨_,big⟩ | ⟨_,short⟩
  · omega
  · exact short (entry_room hit)
end ToyOS.Sfs

import ToyOS.SfsTruncate

namespace ToyOS.Sfs
open Function Outcome UserSpace ByteMemory Nat

variable {s t : State} {io middle after : Io} {live : Nat → Bool} {i j b m n r k : Nat} {v : Vnode}
  {p : Slot} {e : Errno} {α : Type}

lemma ends_onFs {m : Op α} {Q : α → Io → Prop} {R : Errno → Io → Prop}
    (ends : Ends (m io.fs) (fun a t => Q a {io with fs := t}) (Errs fun e t => R e {io with fs := t})) :
    Ends (onFs m io) Q (Errs R) := by
  unfold onFs
  cases ran : m io.fs with
  | ok a t => exact ends.ok ran
  | error e t =>
    cases e with
    | panic => exact ends.failed ran
    | errno errno => exact ends.failed ran

lemma ends_withUio {m : IoOp α} {Q : α × Uio → State → Prop} {R : Errno → State → Prop}
    (ends : Ends (m ⟨s,u⟩) (fun a io => Q (a,io.uio) io.fs) (Errs fun e io => R e io.fs)) :
    Ends (withUio u m s) Q (Errs R) := by
  unfold withUio
  cases ran : m ⟨s,u⟩ with
  | ok a io => exact ends.ok ran
  | error e io =>
    cases e with
    | panic => exact ends.failed ran
    | errno errno => exact ends.failed ran

lemma ends_uiomove_write {Q : Block → Io → Prop} {R : Errno → Io → Prop} (write : io.uio.write)
    (moved : Q (io.uio.take buffer start (min len io.uio.resid)) {io with uio := io.uio.advance (min len io.uio.resid)})
    (fault : io.uio.limit ≠ none → R .efault io) : Ends (uiomove buffer start len io) Q (Errs R) := by
  refine ends_bind_get (ends_bind_get ?_)
  split
  · rename_i short
    refine ends_fail (fault fun unlimited => ?_)
    rw [Uio.reaches,unlimited] at short
    cases short.2
  · exact moved

lemma ends_uiomove_read {Q : Block → Io → Prop} {R : Errno → Io → Prop}
    (read : io.uio.write = false) (moved : Q buffer {io with uio := io.uio.put buffer start (min len io.uio.resid)})
    (fault : io.uio.limit ≠ none → R .efault io) : Ends (uiomove buffer start len io) Q (Errs R) := by
  refine ends_bind_get (ends_bind_get ?_)
  split
  · rename_i short
    refine ends_fail (fault fun unlimited => ?_)
    rw [Uio.reaches,unlimited] at short
    cases short.2
  rw [if_neg (by rw [read]; exact Bool.false_ne_true)]
  exact moved

def missing (s : State) (i : Nat) : Nat → Nat → Nat
  | _,0 => 0
  | n,k+1 => (match slotOf n with | some p => lacks s i p | none => 0)+missing s i (n+1) k

def demand (s : State) (i n k : Nat) : Nat :=
  missing s i n k+if 0 < k ∧ nDirect < n+k then lacks s i .indirect else 0

def blocksOf (offset len : Nat) : Nat := (offset+len+blockSize-1)/blockSize-offset/blockSize

def Room (s : State) (i offset len : Nat) : Prop :=
  demand s i (offset/blockSize) (blocksOf offset len) ≤ spare s

lemma missing_congr (eq : ∀ m p, n ≤ m → slotOf m = some p → pointer t i p = pointer s i p) :
    missing t i n k = missing s i n k := by
  induction k generalizing n with
  | zero => rfl
  | succ k ih =>
    rw [missing,missing,ih fun m p later => eq m p (le_of_succ_le later)]
    cases place : slotOf n with
    | none => rfl
    | some p =>
      change lacks t i p+_ = lacks s i p+_
      rw [lacks,lacks,eq n p (le_refl n) place]

lemma demand_succ (place : slotOf n = some p) : demand s i n (k+1) =
      lacks s i p+missing s i (n+1) k+if nDirect < n+(k+1) then lacks s i .indirect else 0 := by
  rw [demand,missing,place]
  simp only [succ_pos,true_and]

lemma demand_tail (s : State) (i n k : Nat) : demand s i (n+1) k ≤ demand s i n (k+1) := by
  rw [demand,demand,missing]
  split
  · rw [if_pos (by omega)]
    omega
  · split <;> omega

lemma cost_le_demand (place : slotOf n = some p) : cost s i p ≤ demand s i n (k+1) := by
  rw [demand_succ place]
  cases p with
  | direct q =>
    rw [cost]
    omega
  | indirect => exact absurd rfl (slotOf_ne_indirect place)
  | entry q =>
    have far : nDirect ≤ n := by
      by_contra near
      rw [slotOf,dif_pos (Nat.lt_of_not_le near)] at place
      cases place
    rw [cost,if_pos (by omega)]
    omega

lemma Found.demand (hit : Found live s i p true b t) (place : slotOf n = some p)
    (big : demand s i n (k+1) ≤ spare s) : Sfs.demand t i n (k+1) ≤ spare t := by
  have there : pointer t i p ≠ 0 := by
    rw [hit.self]
    exact hit.allocated rfl
  have paid := hit.cost rfl
  have later : missing t i (n+1) k = missing s i (n+1) k := by
    refine missing_congr fun m q after other => hit.others q ?_ (slotOf_ne_indirect other)
    rintro rfl
    have eq := slotOf_injective place other
    omega
  rw [demand_succ place] at big ⊢
  rw [later,lacks_present there]
  cases p with
  | direct q =>
    have indirect : lacks t i .indirect = lacks s i .indirect := by
      rw [lacks,lacks,hit.indirect fun _ => Slot.noConfusion]
    rw [Sfs.cost] at paid
    rw [indirect]
    omega
  | indirect => exact absurd rfl (slotOf_ne_indirect place)
  | entry q =>
    have far : nDirect < n+(k+1) := by
      by_contra near
      rw [slotOf,dif_pos (by omega)] at place
      cases place
    rw [Sfs.cost] at paid
    rw [if_pos far] at big
    rw [lacks_present (indirect_of_entry there)]
    split <;> omega

-- A block of a file is written.
structure Stored (live : Nat → Bool) (s : State) (i n : Nat) (block : Block) (t : State) : Prop where
  touched : Touched live s i t
  size : (node t i).size = (node s i).size
  byte : ∀ offset, byte t i offset =
    if offset/blockSize = n then block (offset % blockSize) else byte s i offset
  demand : ∀ k, demand s i n (k+1) ≤ spare s → demand t i n (k+1) ≤ spare t

lemma Fs.store (fs : Fs s live none) (alive : live i) (data : p ≠ .indirect) (hit : pointer s i p ≠ 0) (block : Block) :
    Fs (s.write (pointer s i p) block) live none ∧ (∀ j, live j → j ≠ i → Alike s (s.write (pointer s i p) block) j) ∧
      node (s.write (pointer s i p) block) i = node s i ∧ pointer (s.write (pointer s i p) block) i = pointer s i := by
  have held : own s.nblocks live (pointer s) none (.slot i p) = some (pointer s i p) := own_slot alive hit
  have apart : ∀ c ≠ pointer s i p, (s.write (pointer s i p) block).disk c = s.disk c :=
    fun c other => update_of_ne other ..
  have inodes : ∀ j, live j → (s.write (pointer s i p) block).disk j = s.disk j :=
    fun j lives => apart j (fs.inode_apart held lives Owner.noConfusion)
  have same : node (s.write (pointer s i p) block) i = node s i := node_frame rfl (inodes i alive)
  have ptrs : pointer (s.write (pointer s i p) block) i = pointer s i := by
    refine pointer_congr same fun indirect => apart _ fun eq => ?_
    have also : own s.nblocks live (pointer s) none (.slot i .indirect) = some (pointer s i p) :=
      (own_slot alive indirect).trans (congrArg some eq)
    exact data (Owner.slot.inj (fs.ledger.unique _ _ _ held also)).2
  have rest : ∀ j, live j → j ≠ i → Alike s (s.write (pointer s i p) block) j := by
    intro j lives other
    refine fs.alike_other held lives Owner.noConfusion ?_ apart rfl
    intro q eq
    exact other (Owner.slot.inj eq).1.symm
  have system : System s (s.write (pointer s i p) block) :=
    fs.system_held held Owner.noConfusion (fun _ => Owner.noConfusion) apart fun clean => ⟨clean,rfl⟩
  refine ⟨fs.steady ⟨rfl,rfl,rfl,rfl⟩ system rfl ?_ ?_,rest,same,ptrs⟩
  · intro j lives
    rcases eq_or_ne j i with rfl | other
    · exact ptrs
    · exact (rest j lives other).pointer
  intro j v load
  obtain ⟨lives,clean⟩ := fs.cached j v load
  rw [inodes j lives]
  exact ⟨lives,clean⟩

lemma byte_store (fs : Fs s live none) (alive : live i) (place : slotOf n = some p) (there : pointer s i p ≠ 0)
    (block : Block) (offset : Nat) : byte (s.write (pointer s i p) block) i offset =
      if offset/blockSize = n then block (offset % blockSize) else byte s i offset := by
  obtain ⟨_,_,_,ptrs⟩ := fs.store alive (slotOf_ne_indirect place) there block
  split
  · rename_i same
    rw [byte_mapped (p := p) (by rw [same,place]),ptrs,if_neg there]
    exact congrFun (update_self ..) _
  rename_i ne
  rw [byte,byte]
  cases hit : slotOf (offset/blockSize) with
  | none => rfl
  | some q =>
    dsimp only
    rw [ptrs]
    split
    · rfl
    rename_i here
    refine congrFun (update_of_ne (fun eq => ?_) ..) _
    have one : own s.nblocks live (pointer s) none (.slot i p) = some (pointer s i p) := own_slot alive there
    have two : own s.nblocks live (pointer s) none (.slot i q) = some (pointer s i p) :=
      (own_slot alive here).trans (congrArg some eq)
    cases (Owner.slot.inj (fs.ledger.unique _ _ _ two one)).2
    exact ne (slotOf_injective hit place)

lemma Found.stored (hit : Found live s i p true b t) (place : slotOf n = some p) (alive : live i)
    (block : Block) : Stored live s i n block (t.write b block) := by
  have there : pointer t i p ≠ 0 := by
    rw [hit.self]
    exact hit.allocated rfl
  have bytes := byte_store hit.fs alive place there block
  obtain ⟨after,rest,eq,ptrs⟩ := hit.fs.store alive (slotOf_ne_indirect place) there block
  rw [hit.self] at bytes after rest eq ptrs
  have pre := hit.kept.same
  have two : Touched live t i (t.write b block) :=
    ⟨⟨⟨rfl,rfl,rfl,rfl⟩,fun _ => rfl,rest,by rw [eq],by rw [eq]⟩,after⟩
  refine ⟨(hit.kept.touched hit.fs).trans two,?_,fun offset => ?_,fun k big => ?_⟩
  · rw [eq]
    exact congrArg File.size pre
  · rw [bytes offset,show byte t i = byte s i from congrArg File.bytes pre]
  have unchanged : Sfs.demand (t.write b block) i n (k+1) = Sfs.demand t i n (k+1) := by
    rw [Sfs.demand,Sfs.demand,missing_congr fun _ p _ _ => congrFun ptrs p,lacks,lacks,ptrs]
  rw [unchanged]
  exact hit.demand place big

lemma ends_readBlock (fs : Fs s live none) (quiet : Quiet s) (alive : live i) (place : slotOf n = some p)
    (self : pointer s i p = b) (write : Bool) (allocated : write → b ≠ 0) {E : Fault → State → Prop} :
    Ends (readBlock b write s) (fun buffer t => Calm s t ∧ ∀ x < blockSize, buffer x = byte s i (n*blockSize+x)) E := by
  have bytes : ∀ x < blockSize, byte s i (n*blockSize+x) = if b = 0 then 0 else s.disk b x := by
    intro x lt
    have quotient : (n*blockSize+x)/blockSize = n := by
      unfold blockSize at lt ⊢
      omega
    have rest : (n*blockSize+x) % blockSize = x := by
      unfold blockSize at lt ⊢
      omega
    rw [byte_mapped (p := p) (by rw [quotient,place]),self,rest]
  unfold readBlock
  split
  · rename_i miss
    refine ends_bind_kassert ?_ (ends_pure ⟨.refl,fun x lt => ?_⟩)
    · cases write with
      | false => rfl
      | true => exact absurd miss (allocated rfl)
    rw [bytes x lt,if_pos miss]
    rfl
  rename_i hit
  have inside := fs.slot_inside (p := p) alive (by rwa [self])
  rw [self] at inside
  refine ends_rblock quiet inside ⟨calm_transfer,fun x lt => ?_⟩
  rw [bytes x lt,if_neg hit]

lemma Found.after_calm (hit : Found live s i p doalloc b t) (calm : Calm t u) :
    Found live s i p doalloc b u where
  fs := calm.fs hit.fs
  kept := hit.kept.trans calm.kept
  self := by rw [(calm.alike i).pointer,hit.self]
  others := by
    rw [(calm.alike i).pointer]
    exact hit.others
  indirect := by
    rw [(calm.alike i).pointer]
    exact hit.indirect
  allocated := hit.allocated
  cost yes := by
    rw [spare_congr calm.fixed.nblocks calm.freemap]
    exact hit.cost yes
  calm no := (hit.calm no).trans calm

def farthest : Nat := 2^32*blockSize
def maxFile : Nat := (nDirect+dbPerIdb)*blockSize
def Uio.setData (u : Uio) (data : Nat → UInt8) : Uio := {u with data}

-- An I/O on the file `i` has moved `n` bytes.
structure Moved (live : Nat → Bool) (i : Nat) (io : Io) (n : Nat) (after : Io) : Prop where
  touched : Touched live io.fs i after.fs
  enough : n ≤ io.uio.resid
  uio : after.uio.setData io.uio.data = io.uio.advance n
  data : io.uio.write = true → after.uio.data = io.uio.data
  written : io.uio.write = true → io.uio.offset+n ≤ farthest →
    byte after.fs i = splice (byte io.fs i) io.uio.offset n io.uio.data io.uio.moved
  calm : io.uio.write = false → Calm io.fs after.fs
  read : io.uio.write = false → io.uio.offset+n ≤ farthest →
    after.uio.data = splice io.uio.data io.uio.moved n (byte io.fs i) io.uio.offset
  bounded : io.uio.offset+n ≤ farthest → n = 0 ∨ io.uio.offset+n ≤ maxFile

section
variable (moved : Moved live i io n after)
include moved

lemma Moved.offset : after.uio.offset = io.uio.offset+n :=
  congrArg Uio.offset moved.uio

lemma Moved.resid : after.uio.resid = io.uio.resid-n :=
  congrArg Uio.resid moved.uio

lemma Moved.done : after.uio.moved = io.uio.moved+n :=
  congrArg Uio.moved moved.uio

lemma Moved.write : after.uio.write = io.uio.write := by
  have eq := congrArg Uio.write moved.uio
  exact eq

lemma Moved.limit : after.uio.limit = io.uio.limit := by
  have eq := congrArg Uio.limit moved.uio
  exact eq

end

lemma Moved.trans (first : Moved live i io m middle) (second : Moved live i middle n after) :
    Moved live i io (m+n) after where
  touched := first.touched.trans second.touched
  enough := by
    have one := first.enough
    have two := second.enough
    rw [first.resid] at two
    omega
  uio := by
    have later := congrArg (Uio.setData · io.uio.data) second.uio
    have moved : (middle.uio.setData io.uio.data).advance n = (io.uio.advance m).advance n := by rw [first.uio]
    refine (later.trans moved).trans ?_
    simp only [Uio.advance,Nat.add_assoc,Nat.sub_sub]
  data write := (second.data (first.write.trans write)).trans (first.data write)
  written write near := by
    have later := second.written (first.write.trans write) (by rw [first.offset]; omega)
    rw [first.offset,first.done,first.data write,first.written write (by omega)] at later
    rw [later,splice_splice]
  calm read := (first.calm read).trans (second.calm (first.write.trans read))
  read read near := by
    have later := second.read (first.write.trans read) (by rw [first.offset]; omega)
    rw [first.offset,first.done,((first.calm read).alike i).byte,first.read read (by omega)] at later
    rw [later,splice_splice]
  bounded near := by
    have pre := first.bounded (by omega)
    have later := second.bounded (by rw [first.offset]; omega)
    rw [first.offset] at later
    omega

-- One that has done its part. What the rest takes is still there.
structure Passed (live : Nat → Bool) (i : Nat) (io : Io) (n : Nat) (after : Io) : Prop
    extends Moved live i io n after where
  size : (node after.fs i).size = (node io.fs i).size
  room : io.uio.write = true → io.uio.offset+n ≤ farthest → ∀ r, n ≤ r →
    Room io.fs i io.uio.offset r → Room after.fs i (io.uio.offset+n) (r-n)

lemma Passed.trans (one : Passed live i io m middle) (two : Passed live i middle n after) :
    Passed live i io (m+n) after where
  toMoved := one.toMoved.trans two.toMoved
  size := two.size.trans one.size
  room write near r enough before := by
    have later := two.room (one.write.trans write) (by rw [one.offset]; omega) (r-m) (by omega)
      (by rw [one.offset]; exact one.room write (by omega) r (by omega) before)
    rwa [one.offset,Nat.add_assoc,Nat.sub_sub] at later

lemma passed_none (fs : Fs io.fs live none) : Passed live i io 0 io where
  touched := .refl fs
  enough := zero_le _
  uio := rfl
  data _ := rfl
  written _ _ := splice_zero.symm
  calm _ := .refl
  read _ _ := splice_zero.symm
  bounded _ := .inl rfl
  size := rfl
  room _ _ _ _ before := before

def Hindered (i : Nat) (io : Io) (r : Nat) (errno : Errno) : Prop :=
  errno = .efault ∧ io.uio.limit ≠ none ∨ errno = .efbig ∧ maxFile < io.uio.offset+r ∨
    errno = .enospc ∧ io.uio.write = true ∧
      (io.uio.offset+r ≤ farthest → ¬Room io.fs i io.uio.offset r)

lemma Passed.hindered (passed : Passed live i io n middle) (enough : n ≤ r)
    (hindered : Hindered i middle (r-n) e) : Hindered i io r e := by
  have ends : io.uio.offset+n+(r-n) = io.uio.offset+r := by omega
  rw [Hindered,passed.limit,passed.offset,passed.write,ends] at hindered
  rcases hindered with fault | big | ⟨full,write,short⟩
  · exact .inl fault
  · exact .inr (.inl big)
  exact .inr (.inr ⟨full,write,fun near pre => short near (passed.room write (by omega) r enough pre)⟩)

-- The first block is one that the inode has a place for, and it is there or can be allocated.
def Obtainable (i : Nat) (io : Io) : Prop :=
  ∃ p, slotOf (fileblockOf io.uio) = some p ∧ (io.uio.write = true → cost io.fs i p ≤ spare io.fs)

-- One that has failed. Unless the buffer was at fault, it has stopped at the first block or between two blocks.
structure Stopped (live : Nat → Bool) (i : Nat) (io : Io) (errno : Errno) (after : Io) : Prop where
  hindered : Hindered i io io.uio.resid errno
  size : (node after.fs i).size = (node io.fs i).size
  moved : ∃ n, Moved live i io n after ∧
    (io.uio.limit = none → n = 0 ∧ ¬Obtainable i io ∨ 0 < n ∧ n < io.uio.resid ∧ (io.uio.offset+n) % blockSize = 0)

lemma Passed.stopped (passed : Passed live i io m middle) (stop : Stopped live i middle e after)
    (between : middle = io ∨ 0 < m ∧ 0 < middle.uio.resid ∧ middle.uio.offset % blockSize = 0) :
    Stopped live i io e after := by
  rcases between with rfl | ⟨some_,left,aligned⟩
  · exact stop
  obtain ⟨hindered,size,n,moved,whole⟩ := stop
  have big := passed.enough
  rw [passed.resid] at hindered
  refine ⟨passed.hindered big hindered,size.trans passed.size,m+n,passed.toMoved.trans moved,fun unlimited => ?_⟩
  rw [passed.limit,passed.resid,passed.offset] at whole
  rw [passed.resid] at left
  rw [passed.offset] at aligned
  have cases := whole unlimited
  rw [add_assoc] at cases
  rcases cases with ⟨rfl,_⟩ | ⟨_,short,aligned⟩
  · exact .inr ⟨some_,by omega,aligned⟩
  · exact .inr ⟨by omega,by omega,aligned⟩

lemma ends_bind_passed {rest : PUnit → IoOp PUnit} {P : Io → Prop}
    (one : Ends (first io) (fun _ middle => Passed live i io m middle ∧ P middle) (Errs (Stopped live i io)))
    (two : ∀ middle, Passed live i io m middle → P middle → Ends (rest ⟨⟩ middle)
      (fun _ after => Passed live i middle n after) (Errs fun e after => (middle = io ∨
        0 < m ∧ 0 < middle.uio.resid ∧ middle.uio.offset % blockSize = 0) ∧ Stopped live i middle e after)) :
    Ends ((first >>= rest) io) (fun _ after => Passed live i io (m+n) after) (Errs (Stopped live i io)) :=
  ends_bind one fun _ middle passed => (two middle passed.1 passed.2).mono (fun _ _ more => passed.1.trans more)
    (Errs.mono fun _ _ stop => passed.1.stopped stop.2 stop.1)

lemma splice_block {f source : Nat → UInt8} (n : Nat) (le : start % blockSize+n ≤ blockSize)
    (read : ∀ x < blockSize, ¬Inside n (start % blockSize) x → old x = f (start/blockSize*blockSize+x)) :
    (fun x => if x/blockSize = start/blockSize
      then splice old (start % blockSize) n source first (x % blockSize) else f x) = splice f start n source first := by
  funext x
  have lt : x % blockSize < blockSize := mod_lt _ (by decide)
  unfold splice
  by_cases inside : Inside n start x
  · have block : x/blockSize = start/blockSize := by
      unfold Inside blockSize at *
      omega
    have offset : x % blockSize-start % blockSize = x-start := by
      unfold Inside blockSize at *
      omega
    rw [if_pos inside,if_pos block,if_pos (by unfold Inside blockSize at *; omega),offset]
  rw [if_neg inside]
  split
  · rename_i eq
    have out : ¬Inside n (start % blockSize) (x % blockSize) := by
      unfold Inside blockSize at *
      omega
    have whole : start/blockSize*blockSize+x % blockSize = x := by
      rw [←eq,mul_comm]
      exact div_add_mod ..
    rw [if_neg out,read _ lt out,whole]
  · rfl

lemma slotOf_lt (place : slotOf n = some p) : n < nDirect+dbPerIdb := by
  unfold slotOf at place
  split at place
  · omega
  split at place
  · omega
  · cases place

lemma blocksOf_pos (some_ : 0 < r ∨ io.uio.offset % blockSize ≠ 0) : 0 < blocksOf io.uio.offset r := by
  unfold blocksOf blockSize at *
  omega

lemma fileblockOf_near (near : io.uio.offset < farthest) : fileblockOf io.uio = io.uio.offset/blockSize := by
  unfold fileblockOf farthest blockSize at *
  omega

lemma place_bounded (place : slotOf (fileblockOf io.uio) = some p) (le : io.uio.offset % blockSize+n ≤ blockSize)
    (near : io.uio.offset < farthest) : io.uio.offset+n ≤ maxFile := by
  have lt := slotOf_lt place
  rw [fileblockOf_near near] at lt
  unfold maxFile nDirect dbPerIdb blockSize at *
  omega

lemma Stored.room (stored : Stored live s i (offset/blockSize) block t) (le : offset % blockSize+n ≤ blockSize)
    (big : n ≤ r) (some_ : 0 < n ∨ offset % blockSize ≠ 0) (pre : Room s i offset r) : Room t i (offset+n) (r-n) := by
  have pos : 0 < blocksOf offset r := by
    unfold blocksOf blockSize at *
    omega
  have paid := stored.demand (blocksOf offset r-1)
  rw [Nat.sub_add_cancel pos] at paid
  unfold Room at *
  by_cases filled : offset % blockSize+n = blockSize
  · have next : (offset+n)/blockSize = offset/blockSize+1 := by
      unfold blockSize at *
      omega
    have rest : blocksOf (offset+n) (r-n) = blocksOf offset r-1 := by
      unfold blocksOf blockSize at *
      omega
    have less := demand_tail t i (offset/blockSize) (blocksOf offset r-1)
    rw [Nat.sub_add_cancel pos] at less
    rw [next,rest]
    exact le_trans less (paid pre)
  have eq : (offset+n)/blockSize = offset/blockSize := by
    unfold blockSize at *
    omega
  have rest : blocksOf (offset+n) (r-n) = blocksOf offset r := by
    unfold blocksOf blockSize at *
    omega
  rw [eq,rest]
  exact paid pre

lemma Barred.stopped (barred : Barred live io.fs i (fileblockOf io.uio) io.uio.write e t) (fs : Fs io.fs live none)
    (some_ : 0 < io.uio.resid ∨ io.uio.offset % blockSize ≠ 0) : Stopped live i io e {io with fs := t} := by
  rcases barred with ⟨rfl,out,rfl⟩ | ⟨write,p,place,refused⟩
  · have passed := passed_none (i := i) fs
    refine ⟨.inr (.inl ⟨rfl,?_⟩),rfl,0,passed.toMoved,fun _ => .inl ⟨rfl,by simp [Obtainable,out]⟩⟩
    unfold slotOf at out
    split at out
    · cases out
    split at out
    · cases out
    unfold fileblockOf maxFile nDirect dbPerIdb blockSize at *
    omega
  have file := refused.kept.same
  have barren : ¬Obtainable i io := by
    rintro ⟨q,also,enough⟩
    cases place.symm.trans also
    exact Nat.not_le_of_lt refused.short (enough write)
  refine ⟨.inr (.inr ⟨refused.errno,write,fun near room => ?_⟩),congrArg File.size file,0,?_,fun _ => .inl ⟨rfl,barren⟩⟩
  · have pos : 0 < blocksOf io.uio.offset io.uio.resid := blocksOf_pos some_
    rw [fileblockOf_near (by unfold farthest blockSize at *; omega)] at place
    have price := cost_le_demand (s := io.fs) (i := i) (k := blocksOf io.uio.offset io.uio.resid-1) place
    rw [Nat.sub_add_cancel pos] at price
    have short := refused.short
    unfold Room at room
    omega
  refine ⟨refused.kept.touched refused.fs,Nat.zero_le _,rfl,fun _ => rfl,fun _ _ => ?_,
    fun read => ?_,fun read => ?_,fun _ => .inl rfl⟩
  · exact (congrArg File.bytes file).trans splice_zero.symm
  · rw [write] at read
    cases read
  rw [write] at read
  cases read

lemma Found.stopped (hit : Found live io.fs i p io.uio.write b t)
    (limited : io.uio.limit ≠ none) : Stopped live i io .efault {io with fs := t} := by
  have file := hit.kept.same
  refine ⟨.inl ⟨rfl,limited⟩,congrArg File.size file,0,?_,fun unlimited => absurd unlimited limited⟩
  refine ⟨hit.kept.touched hit.fs,zero_le _,rfl,fun _ => rfl,fun _ _ => ?_,hit.calm,
    fun _ _ => splice_zero.symm,fun _ => .inl rfl⟩
  exact (congrArg File.bytes file).trans splice_zero.symm

lemma ends_bmap_io (fs : Fs io.fs live none) (quiet : Quiet io.fs) (load : io.fs.vnodes i = some v)
    (some_ : 0 < io.uio.resid ∨ io.uio.offset % blockSize ≠ 0) :
    Ends (onFs (sfsBmap i (fileblockOf io.uio) io.uio.write) io)
      (fun b after => after.uio = io.uio ∧ ∃ p, slotOf (fileblockOf io.uio) = some p ∧
        Found live io.fs i p io.uio.write b after.fs) (Errs (Stopped live i io)) :=
  ends_onFs ((ends_bmap fs quiet load _ _).mono (fun _ _ hit => ⟨rfl,hit⟩)
    (Errs.mono fun _ _ barred => barred.stopped fs some_))

lemma Stored.passed (stored : Stored live io.fs i (fileblockOf io.uio)
      (io.uio.take old (io.uio.offset % blockSize) n) t)
    (write : io.uio.write) (place : slotOf (fileblockOf io.uio) = some p)
    (le : io.uio.offset % blockSize+n ≤ blockSize)
    (big : n ≤ io.uio.resid) (some_ : 0 < n ∨ io.uio.offset % blockSize ≠ 0)
    (read : ∀ x < blockSize, ¬Inside n (io.uio.offset % blockSize) x →
      old x = Sfs.byte io.fs i (fileblockOf io.uio*blockSize+x)) : Passed live i io n ⟨t,io.uio.advance n⟩ := by
  have near : io.uio.offset+n ≤ farthest → io.uio.offset < farthest := by
    unfold farthest blockSize at *
    omega
  refine ⟨⟨stored.touched,big,rfl,fun _ => rfl,fun _ limit => ?_,fun no => ?_,fun no => ?_,
    fun limit => .inr (place_bounded place le (near limit))⟩,stored.size,fun _ limit r more pre => ?_⟩
  · have block := fileblockOf_near (near limit)
    rw [block] at read
    refine (funext fun x => ?_).trans (splice_block n le read)
    have bytes := stored.byte x
    rwa [block] at bytes
  · rw [write] at no
    cases no
  · rw [write] at no
    cases no
  have here := stored
  rw [fileblockOf_near (near limit)] at here
  exact here.room le more some_ pre

lemma passed_read (fs : Fs io.fs live none) (calm : Calm io.fs t) (read : io.uio.write = false)
    (place : slotOf (fileblockOf io.uio) = some p) (le : io.uio.offset % blockSize+n ≤ blockSize)
    (big : n ≤ io.uio.resid) (some_ : 0 < n ∨ io.uio.offset % blockSize ≠ 0)
    (bytes : ∀ x < blockSize, block x = byte io.fs i (fileblockOf io.uio*blockSize+x)) :
    Passed live i io n ⟨t,io.uio.put block (io.uio.offset % blockSize) n⟩ := by
  have near : io.uio.offset+n ≤ farthest → io.uio.offset < farthest := by
    unfold farthest blockSize at *
    omega
  refine ⟨⟨calm.touched fs,big,rfl,fun yes => ?_,fun yes => ?_,fun _ => calm,fun _ limit => ?_,
    fun limit => .inr (place_bounded place le (near limit))⟩,by rw [(calm.alike i).node],fun yes => ?_⟩
  · rw [read] at yes
    cases yes
  · rw [read] at yes
    cases yes
  · refine splice_congr fun j lt => ?_
    rw [fileblockOf_near (near limit)] at bytes
    rw [bytes _ (by omega)]
    refine congrArg (byte io.fs i) ?_
    unfold blockSize
    omega
  rw [read] at yes
  cases yes

lemma ends_partialio (fs : Fs io.fs live none) (quiet : Quiet io.fs) (load : io.fs.vnodes i = some v)
    {len : Nat} (le : io.uio.offset % blockSize+len ≤ blockSize) (big : len ≤ io.uio.resid)
    (some_ : 0 < len ∨ io.uio.offset % blockSize ≠ 0) :
    Ends (sfsPartialio i (io.uio.offset % blockSize) len io) (fun _ after => Passed live i io len after)
      (Errs (Stopped live i io)) := by
  have alive := fs.alive load
  refine ends_bind_kassert (decide_eq_true le) (ends_bind_get ?_)
  refine ends_bind (ends_bmap_io fs quiet load (by omega)) ?_
  rintro b ⟨t,_⟩ ⟨rfl,p,place,hit⟩
  refine ends_bind (Q := fun buffer after => after.uio = io.uio ∧ Calm t after.fs ∧
    ∀ x < blockSize, buffer x = byte t i (fileblockOf io.uio*blockSize+x))
    (ends_onFs ((ends_readBlock hit.fs (hit.kept.fixed.quiet quiet) alive place hit.self io.uio.write
      hit.allocated).imp (fun buffer after read => ⟨rfl,read⟩))) ?_
  rintro old ⟨x,_⟩ ⟨rfl,calm,read⟩
  have now := hit.after_calm calm
  rw [show byte t i = byte io.fs i from congrArg File.bytes (hit.kept.same)] at read
  have amount : min len io.uio.resid = len := min_eq_left big
  cases write : io.uio.write with
  | true =>
    refine ends_bind (Q := fun data after => data = io.uio.take old (io.uio.offset % blockSize) len ∧
      after = ⟨x,io.uio.advance len⟩)
      (ends_uiomove_write write ⟨by rw [amount],by rw [amount]⟩ fun limited => now.stopped limited) ?_
    rintro _ _ ⟨rfl,rfl⟩
    have inside := hit.fs.fits
    have used := now.used alive (now.allocated write)
    refine ends_perform (fun _ => ends_onFs (ends_wblock (now.kept.fixed.quiet quiet)
      (lt_of_lt_of_le used.1 now.fs.fits) ?_)) fun no => (by cases no)
    rw [write] at now
    exact (now.stored place alive _).passed write place le big some_ fun x lt _ => read x lt
  | false =>
    refine ends_bind (Q := fun _ after => after = ⟨x,io.uio.put old (io.uio.offset % blockSize) len⟩)
      (ends_uiomove_read write (by rw [amount]) fun limited => now.stopped limited) ?_
    rintro _ _ rfl
    exact ends_perform (fun yes => (by cases yes))
      fun _ => passed_read fs (now.calm write) write place le big some_ read
end ToyOS.Sfs

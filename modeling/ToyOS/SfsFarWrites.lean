import ToyOS.SfsByteArray

namespace ToyOS.Sfs
open Outcome ByteMemory Transition Option

variable {s : State} {io : Io} {uio : Uio} {live : Nat → Bool} {i : Nat} {v : Vnode}

-- What a write that has moved `k` bytes, in part or in full, should leave.
def Extends (s : State) (i : Nat) (uio : Uio) (k : Nat) (after : Io) : Prop :=
  (node after.fs i).size.toNat =
      (if k = 0 then (node s i).size.toNat else max (node s i).size.toNat (uio.offset+k)) ∧
    byte after.fs i = splice (byte s i) uio.offset k uio.data uio.moved

lemma Transferred.extends_iff {n : Nat} {after : Io} (done : Transferred live i ⟨s,uio⟩ n after) (write : uio.write)
    (offset : uio.offset ≤ 2^31) (length : uio.resid < 2^32) : Extends s i uio (uio.resid-after.uio.resid) after ↔
      uio.resid-after.uio.resid ≠ 0 ∨ uio.offset ≤ (node s i).size.toNat := by
  have big : n ≤ uio.resid := done.enough
  have near : uio.offset+n ≤ farthest := by
    unfold farthest blockSize
    omega
  have bounded : n = 0 ∨ uio.offset+n ≤ maxFile := done.bounded near
  have moved : uio.resid-after.uio.resid = n := by
    rw [done.resid]
    change uio.resid-(uio.resid-n) = n
    omega
  have fits : uio.offset+n < 2^32 := by
    unfold maxFile nDirect dbPerIdb blockSize at bounded
    omega
  have bytes : byte after.fs i = splice (byte s i) uio.offset n uio.data uio.moved := done.written write near
  have size : (node after.fs i).size = grownSize (node s i).size uio.write (uio.offset+n) := done.size
  rw [moved,Extends,size,grownSize]
  by_cases grows : (node s i).size.toNat < uio.offset+n
  · rw [if_pos ⟨write,grows⟩,BitVec.toNat_ofNat,Nat.mod_eq_of_lt fits]
    by_cases none : n = 0
    · simp only [none,if_true]
      omega
    refine iff_of_true ⟨?_,bytes⟩ (.inl none)
    rw [if_neg none]
    omega
  rw [if_neg fun both => grows both.2]
  refine iff_of_true ⟨?_,bytes⟩ (by omega)
  split
  · rfl
  · exact (Nat.max_eq_left (by omega)).symm

-- What is left of the attempt when sfs_bmap refuses the first block.
structure Refusal (live : Nat → Bool) (i : Nat) (io : Io) (errno : UserSpace.Errno) (after : Io) : Prop where
  efbig : slotOf (fileblockOf io.uio) = none → errno = .efbig
  uio : after.uio = io.uio
  fs : Fs after.fs live none
  kept : Kept live io.fs i after.fs

section
variable (fs : Fs io.fs live none) (quiet : Quiet io.fs) (load : io.fs.vnodes i = some v) (write : io.uio.write)
  (some_ : 0 < io.uio.resid) (barren : ¬Obtainable i io)
include fs quiet load write barren

lemma ends_bmap_barred {α : Type} (f : Nat → IoOp α) :
    Ends ((onFs (sfsBmap i (fileblockOf io.uio) io.uio.write) >>= f) io) (fun _ _ => False)
      (Errs (Refusal live i io)) := by
  refine ends_bind (Q := fun _ _ => False) (ends_onFs ((ends_bmap fs quiet load _ _).mono ?_ (Errs.mono ?_)))
    fun _ _ never => never.elim
  · rintro b t ⟨p,place,hit⟩
    refine barren ⟨p,place,fun _ => ?_⟩
    have paid := hit.cost write
    omega
  rintro errno t (⟨rfl,_,rfl⟩ | ⟨_,p,place,refused⟩)
  · exact ⟨fun _ => rfl,rfl,fs,.refl⟩
  · exact ⟨fun out => by simp [out] at place,rfl,refused.fs,refused.kept⟩

include some_

-- Whichever of the three phases comes first, it begins with sfs_bmap.
lemma ends_regionIo_barred : Ends (regionIo i io) (fun _ _ => False) (Errs (Refusal live i io)) := by
  have barred {α : Type} (f : Nat → IoOp α) := ends_bmap_barred fs quiet load write barren f
  have partly {start len : Nat} (le : start+len ≤ blockSize) :
      Ends (sfsPartialio i start len io) (fun _ _ => False) (Errs (Refusal live i io)) :=
    ends_bind_kassert (decide_eq_true le) (ends_bind_get (barred _))
  refine ends_bind_get ?_
  by_cases start : io.uio.offset % blockSize = 0
  · refine ends_bind (Q := fun _ after => io = after) (ends_perform (fun yes => absurd start (of_decide_eq_true yes))
      fun _ => rfl) ?_
    rintro _ _ rfl
    refine ends_bind_get ?_
    rw [if_neg (Nat.ne_of_gt some_)]
    refine ends_bind_kassert (by simp [start]) ?_
    cases blocks : io.uio.resid/blockSize with
    | zero =>
      have short : io.uio.resid < blockSize := by
        unfold blockSize at *
        omega
      refine ends_bind (Q := fun _ after => io = after) rfl ?_
      rintro _ _ rfl
      refine ends_bind_get (ends_bind_kassert (decide_eq_true short) (ends_perform (fun _ => partly ?_) fun no => ?_))
      · omega
      · exact absurd some_ (of_decide_eq_false no)
    | succ n =>
      exact ends_bind (Q := fun _ _ => False) (ends_bind (Q := fun _ _ => False) (ends_bind_get (barred _))
        fun _ _ never => never.elim) fun _ _ never => never.elim
  refine ends_bind (Q := fun _ _ => False) (ends_perform (fun _ => partly ?_) fun no =>
    absurd start (of_decide_eq_false no)) fun _ _ never => never.elim
  unfold blockSize at *
  omega

-- A write whose first block is not to be had ends there: nothing is moved, and the size still follows the offset.
lemma ends_sfsIo_barred : Ends (sfsIo i io) (fun _ _ => False) (Errs fun errno after =>
    (slotOf (fileblockOf io.uio) = none → errno = .efbig) ∧ after.uio.resid = io.uio.resid ∧
    byte after.fs i = byte io.fs i ∧
    (node after.fs i).size = grownSize (node io.fs i).size true io.uio.offset) := by
  refine ends_bind_get (ends_bind_vnode_io load ?_)
  rw [if_pos write]
  refine ends_bind_get (ends_bind (Q := fun _ after => io = after) (ends_perform (fun yes => by cases yes)
    fun _ => rfl) ?_)
  rintro _ _ rfl
  refine ends_bind (ends_attempt (ends_regionIo_barred fs quiet load write some_ barren)
    (Q := fun res after => ∃ errno, res = .error errno ∧ Refusal live i io errno after) (fun _ _ never => never.elim)
      fun errno _ refused => ⟨errno,rfl,refused⟩) ?_
  rintro _ middle ⟨errno,rfl,far,uio,after,kept⟩
  obtain ⟨w,here,_⟩ := kept.apart.loaded load
  have size : (node middle.fs i).size = (node io.fs i).size := congrArg File.size kept.same
  refine ends_bind ((ends_growSize after here).imp_error Errs.never) fun _ last grown => ?_
  refine ends_bind_modify (ends_fail ⟨far,?_,grown.byte.trans (congrArg File.bytes kept.same),?_⟩)
  · rw [grown.uio,uio]
    rfl
  · rw [grown.size,uio,write,size]

end

lemma Failed.ready (failed : Failed live i io r errno after) (unlimited : io.uio.limit = none)
    (ready : Obtainable i io) : ∃ n, Transferred live i io n after ∧ 0 < n := by
  obtain ⟨n,done,stop⟩ := failed.moved
  rcases stop unlimited with ⟨_,no⟩ | ⟨some_,_⟩
  · exact absurd ready no
  · exact ⟨n,done,some_⟩

-- At least one byte is moved exactly when there is one to move and the first block is there or can be allocated.
lemma moves_iff (fs : Fs io.fs live none) (quiet : Quiet io.fs) (load : io.fs.vnodes i = some v)
    (write : io.uio.write) (unlimited : io.uio.limit = none) {result : EStateM.Result Fault Io PUnit}
    (ran : sfsIo i io = result) : ∃ n after, (result = .ok ⟨⟩ after ∨ ∃ errno, result = .error (.errno errno) after) ∧
      Transferred live i io n after ∧ (n ≠ 0 ↔ 0 < io.uio.resid ∧ Obtainable i io) := by
  have ends := ends_sfsIo fs quiet load
  by_cases ready : 0 < io.uio.resid ∧ Obtainable i io
  · cases result with
    | ok _ after =>
      have all : reach i io = io.uio.resid := if_pos write
      exact ⟨_,after,.inl rfl,ends.ok ran,by rw [all]; exact iff_of_true (Nat.ne_of_gt ready.1) ready⟩
    | error e after =>
      have failed := ends.failed ran
      cases e with
      | panic => exact failed.elim
      | errno errno =>
        obtain ⟨n,done,some_⟩ := failed.ready unlimited ready.2
        exact ⟨n,after,.inr ⟨errno,rfl⟩,done,iff_of_true (Nat.ne_of_gt some_) ready⟩
  have still {n : Nat} {after : Io} (done : Transferred live i io n after)
      (kept : 0 < io.uio.resid → after.uio.resid = io.uio.resid) : n = 0 := by
    have most := done.enough
    have left := done.resid
    rcases Nat.eq_zero_or_pos io.uio.resid with none_ | some_
    · omega
    · have same := kept some_
      omega
  cases result with
  | ok _ after =>
    refine ⟨_,after,.inl rfl,ends.ok ran,iff_of_false (fun some_ => some_ (still (ends.ok ran) fun pos => ?_)) ready⟩
    exact ((ends_sfsIo_barred fs quiet load write pos fun yes => ready ⟨pos,yes⟩).ok ran).elim
  | error e after =>
    have failed := ends.failed ran
    cases e with
    | panic => exact failed.elim
    | errno errno =>
      obtain ⟨n,done,_⟩ := failed.moved
      refine ⟨n,after,.inr ⟨errno,rfl⟩,done,iff_of_false (fun some_ => some_ (still done fun pos => ?_)) ready⟩
      exact ((ends_sfsIo_barred fs quiet load write pos fun yes => ready ⟨pos,yes⟩).failed ran).2.1

-- The size follows the offset even when no byte was moved.
theorem write_extends_iff (consistent : Consistent s live) (quiet : Quiet s) (loaded : s.vnodes i = some v)
    (write : uio.write = true) (unlimited : uio.limit = none) (offset : uio.offset ≤ 2^31) (length : uio.resid < 2^32) :
    ∃ after, (sfsIo i ⟨s,uio⟩ = .ok ⟨⟩ after ∨ ∃ errno, sfsIo i ⟨s,uio⟩ = .error (.errno errno) after) ∧
      (Extends s i uio (uio.resid-after.uio.resid) after ↔
        (0 < uio.resid ∧ ∃ p, slotOf (uio.offset/blockSize) = some p ∧ cost s i p ≤ spare s) ∨
          uio.offset ≤ (node s i).size.toNat) := by
  obtain ⟨n,after,returned,done,moves⟩ := @moves_iff ⟨s,uio⟩ _ _ _ consistent.fs quiet loaded write unlimited _ rfl
  refine ⟨after,returned,(done.extends_iff write offset length).trans (or_congr_left ?_)⟩
  have most : n ≤ uio.resid := done.enough
  have moved : uio.resid-after.uio.resid = n := by
    rw [done.resid]
    change uio.resid-(uio.resid-n) = n
    omega
  have block : fileblockOf uio = uio.offset/blockSize :=
    @fileblockOf_near ⟨s,uio⟩ (by unfold farthest blockSize; change uio.offset < _; omega)
  rw [moved,moves,Obtainable]
  simp only [write,block,true_implies]

theorem write_extends_iff_patch : ∃ s after, (node s 3).size.toNat = 0 ∧
    Extends s 3 patch (600-after.uio.resid) after := by
  obtain ⟨s,start,_,ran,fresh,created,_,room⟩ := patch_run
  obtain ⟨⟨live,ok⟩,quiet,_⟩ := reached_consistent smallVolume_new (run_reached ran)
  have open_ := created_open ok quiet fresh created
  obtain ⟨live,ok⟩ := open_.consistent
  obtain ⟨v,load⟩ := open_.loaded
  obtain ⟨after,_,law⟩ := write_extends_iff ok open_.quiet load (show patch.write = true from rfl) rfl
    (by decide) (by decide)
  refine ⟨start,after,open_.holds.1,law.mpr (.inl ⟨by decide,_,rfl,?_⟩)⟩
  exact le_trans (cost_le_demand (k := 1) rfl) room

lemma fresh_file : ∃ live s v, Consistent s live ∧ Quiet s ∧ s.vnodes 3 = some v ∧ (node s 3).size.toNat = 0 := by
  obtain ⟨s,start,_,ran,fresh,created,_⟩ := patch_run
  obtain ⟨⟨live,ok⟩,quiet,_⟩ := reached_consistent smallVolume_new (run_reached ran)
  have open_ := created_open ok quiet fresh created
  obtain ⟨live,ok⟩ := open_.consistent
  obtain ⟨v,load⟩ := open_.loaded
  exact ⟨live,start,v,ok,open_.quiet,load,open_.holds.1⟩

-- A write of no bytes at offset 512 makes an empty file 512 bytes long.
theorem empty_write_extends : ∃ live s v after, Consistent s live ∧ Quiet s ∧ s.vnodes 3 = some v ∧
    sfsIo 3 ⟨s,uioKinit zeros 0 512 true⟩ = .ok ⟨⟩ after ∧
    ¬Extends s 3 (uioKinit zeros 0 512 true) (0-after.uio.resid) after := by
  obtain ⟨live,s,v,consistent,quiet,loaded,size⟩ := fresh_file
  have ends : Ends (sfsIo 3 ⟨s,uioKinit zeros 0 512 true⟩) _ _ := ends_sfsIo consistent.fs quiet loaded
  cases ran : sfsIo 3 ⟨s,uioKinit zeros 0 512 true⟩ with
  | ok _ after =>
    refine ⟨live,s,v,after,consistent,quiet,loaded,ran,fun law => ?_⟩
    have moved := ((ends.ok ran).extends_iff rfl (by decide) (by decide)).mp law
    simp [size,uioKinit] at moved
  | error e after =>
    have failed := ends.failed ran
    cases e with
    | panic => exact failed.elim
    | errno errno =>
      rcases failed.hindered with fault | big | full
      · exact absurd rfl fault.2
      · exact absurd big.2 (show ¬maxFile < 512 by decide)
      have room : Room s 3 512 0 := by simp [Room,demand,missing,blocksOf,blockSize]
      exact absurd room (full.2.2 (show 512 ≤ farthest by decide))

-- The file block number is the offset's up to 2^32 blocks: beyond them offsets come back to the file.
theorem far_write_refused (consistent : Consistent s live) (quiet : Quiet s) (loaded : s.vnodes i = some v)
    (write : uio.write = true) (some_ : 0 < uio.resid) (far : nDirect+dbPerIdb ≤ fileblockOf uio) :
    ∃ t, sfsWrite i uio s = .error (.errno .efbig) t ∧ byte t i = byte s i ∧
      ((node s i).size.toNat ≤ (node t i).size.toNat ↔
        (node s i).size.toNat ≤ uio.offset % 2^32 ∨ uio.offset ≤ (node s i).size.toNat) := by
  have outside : slotOf (fileblockOf uio) = none := by
    unfold slotOf
    rw [dif_neg (by omega),dif_neg (by omega)]
  have ends : Ends (sfsWrite i uio s) (fun _ _ => False) (Errs fun errno t => errno = .efbig ∧ byte t i = byte s i ∧
      (node t i).size = grownSize (node s i).size true uio.offset) :=
    ends_bind_kassert write (ends_bind (Q := fun _ _ => False) (ends_withUio
      ((ends_sfsIo_barred consistent.fs quiet loaded write some_ (by simp [Obtainable,outside])).imp_error
        (Errs.mono fun _ _ barred => ⟨barred.1 outside,barred.2.2⟩))) fun _ _ never => never.elim)
  cases ran : sfsWrite i uio s with
  | ok _ t => exact (ends.ok ran).elim
  | error e t =>
    have failed := ends.failed ran
    cases e with
    | panic => exact failed.elim
    | errno errno =>
      refine ⟨t,by rw [failed.1],failed.2.1,?_⟩
      rw [failed.2.2,grownSize]
      split
      · rw [BitVec.toNat_ofNat]
        omega
      · rename_i stays
        exact iff_of_true le_rfl (.inr (by simpa using stays))

theorem far_write_refused_fresh : ∃ s t, sfsWrite 3 (uioKinit zeros 1 (2^40+5) true) s = .error (.errno .efbig) t ∧
    byte t 3 = byte s 3 ∧ (node s 3).size.toNat ≤ (node t 3).size.toNat := by
  obtain ⟨live,s,v,consistent,quiet,loaded,size⟩ := fresh_file
  obtain ⟨t,refused,bytes,law⟩ := far_write_refused consistent quiet loaded
    (show (uioKinit zeros 1 (2^40+5) true).write = true from rfl) (by decide) (by decide)
  exact ⟨s,t,refused,bytes,law.mpr (.inl (by simp [size]))⟩

def firstByte (result : EStateM.Result Fault State Uio) : Option UInt8 :=
  match result with
  | .ok _ t => some (byte t 3 0)
  | _ => none

theorem aliased_write : ∃ s start t after, run step smallVolume [.getroot] = some s ∧
    returns s (.creat rootLocation nameA false) = some (.ok (.vnode 3),start) ∧ byte start 3 0 = 0 ∧
    sfsWrite 3 (uioKinit (fun _ => 7) 1 (2^41) true) start = .ok after t ∧ byte t 3 0 = 7 := by
  have ran : ((run step smallVolume [.getroot]).bind fun s =>
      (returns s (.creat rootLocation nameA false)).map fun made =>
        (madeVnode made.1,byte made.2 3 0,firstByte (sfsWrite 3 (uioKinit (fun _ => 7) 1 (2^41) true) made.2))) =
      some (some 3,0,some 7) := by decide +kernel
  obtain ⟨s,first,second⟩ := bind_eq_some_iff.mp ran
  obtain ⟨⟨result,start⟩,made,shown⟩ := map_eq_some_iff.mp second
  simp only [Prod.mk.injEq,madeVnode,firstByte] at shown
  obtain ⟨vnode,old,new⟩ := shown
  split at vnode
  · split at new
    · rename_i wrote
      cases vnode
      exact ⟨s,start,_,_,first,made,old,wrote,Option.some.inj new⟩
    · cases new
  · cases vnode
end ToyOS.Sfs

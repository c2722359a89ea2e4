import ToyOS.SfsTransfer

namespace ToyOS.Sfs
open Outcome UserSpace ByteMemory Nat

variable {t : State} {io middle after : Io} {live : Nat → Bool} {i b m n r : Nat} {v : Vnode} {p : Slot}
  {α : Type}

-- `n` zeros have been moved to the caller.
structure Zeroed (io : Io) (n : Nat) (after : Io) : Prop where
  fs : after.fs = io.fs
  uio : after.uio.setData io.uio.data = io.uio.advance n
  data : after.uio.data = splice io.uio.data io.uio.moved n zeros 0

lemma Zeroed.more (one : Zeroed io m middle) (two : Zeroed middle n after) : Zeroed io (m+n) after where
  fs := two.fs.trans one.fs
  uio := by
    have later := congrArg (Uio.setData · io.uio.data) two.uio
    have moved : (middle.uio.setData io.uio.data).advance n = (io.uio.advance m).advance n := by rw [one.uio]
    refine (later.trans moved).trans ?_
    simp only [Uio.advance,Nat.add_assoc,Nat.sub_sub]
  data := by
    have done : middle.uio.moved = io.uio.moved+m := congrArg Uio.moved one.uio
    have zero : splice middle.uio.data (io.uio.moved+m) n zeros 0 =
        splice middle.uio.data (io.uio.moved+m) n zeros (0+m) := splice_congr fun _ _ => rfl
    rw [two.data,done,zero,one.data,splice_splice]

lemma ends_uiomovezeros (n : Nat) (read : io.uio.write = false) (big : 16*n ≤ io.uio.resid) :
    Ends (uiomovezeros n io) (fun _ after => Zeroed io (16*n) after)
      (Errs fun e after => e = .efault ∧ io.uio.limit ≠ none ∧ ∃ m ≤ 16*n, Zeroed io m after) := by
  induction n generalizing io with
  | zero => exact ends_pure ⟨rfl,rfl,splice_zero.symm⟩
  | succ n ih =>
    have amount : min 16 io.uio.resid = 16 := by omega
    refine ends_bind (Q := fun _ after => Zeroed io 16 after) (ends_uiomove_read read ?_ ?_) ?_
    · rw [amount]
      exact ⟨rfl,rfl,rfl⟩
    · exact fun limited => ⟨rfl,limited,0,zero_le _,rfl,rfl,splice_zero.symm⟩
    intro _ middle zeroed
    have resid : middle.uio.resid = io.uio.resid-16 := congrArg Uio.resid zeroed.uio
    have write := congrArg Uio.write zeroed.uio
    have limit := congrArg Uio.limit zeroed.uio
    refine (ih (write.trans read) (by omega)).mono ?_ (Errs.mono ?_)
    · intro _ after more
      have sum := zeroed.more more
      rwa [show 16+16*n = 16*(n+1) by omega] at sum
    rintro e after ⟨fault,limited,m,most,more⟩
    exact ⟨fault,fun unlimited => limited (limit.trans unlimited),16+m,by omega,zeroed.more more⟩

lemma Fs.sector (fs : Fs s live floating) (lt : b < s.nblocks) : sectorOf b = b := by
  have small := fs.small
  unfold maxBitBlocks blockBits at small
  have fits : b*blockSize % 2^32 = b*blockSize := Nat.mod_eq_of_lt (by unfold blockSize; omega)
  rw [sectorOf,fits]
  exact Nat.mul_div_cancel _ (by decide)

lemma Found.sector (hit : Found live s i p doalloc b t) (alive : live i) (nz : b ≠ 0) : sectorOf b = b := by
  have lt : b < t.nblocks := (hit.used alive nz).1
  exact hit.fs.sector lt

lemma Zeroed.moved (zeroed : Zeroed ⟨t,io.uio⟩ n after) (calm : Calm io.fs t) (fs : Fs io.fs live none)
    (read : io.uio.write = false) (aligned : io.uio.offset % blockSize = 0) (most : n ≤ blockSize)
    (big : n ≤ io.uio.resid) (place : slotOf (fileblockOf io.uio) = some p)
    (absent : pointer io.fs i p = 0) : Moved live i io n after := by
  refine ⟨by rw [zeroed.fs]; exact calm.touched fs,big,zeroed.uio,fun yes => ?_,fun yes => ?_,
    fun _ => by rw [zeroed.fs]; exact calm,fun _ limit => ?_,fun limit => ?_⟩
  · rw [read] at yes
    cases yes
  · rw [read] at yes
    cases yes
  · refine zeroed.data.trans (splice_congr fun j lt => ?_)
    have near : io.uio.offset < farthest := by omega
    have block : (io.uio.offset+j)/blockSize = fileblockOf io.uio := by
      rw [fileblockOf_near near]
      unfold blockSize at *
      omega
    rw [byte_mapped (p := p) (by rw [block,place]),if_pos absent]
    rfl
  by_cases none_ : n = 0
  · exact .inl none_
  · exact .inr (place_bounded place (by omega) (by omega))

lemma ends_blockio (fs : Fs io.fs live none) (quiet : Quiet io.fs) (load : io.fs.vnodes i = some v)
    (aligned : io.uio.offset % blockSize = 0) (big : blockSize ≤ io.uio.resid) :
    Ends (sfsBlockio i io) (fun _ after => Passed live i io blockSize after) (Errs (Stopped live i io)) := by
  have alive := fs.alive load
  have some_ : 0 < blockSize ∨ io.uio.offset % blockSize ≠ 0 := .inl (by decide)
  have le : io.uio.offset % blockSize+blockSize ≤ blockSize := by omega
  have amount : min blockSize io.uio.resid = blockSize := min_eq_left big
  refine ends_bind_get (ends_bind (ends_bmap_io fs quiet load (by unfold blockSize at *; omega)) ?_)
  rintro b ⟨t,_⟩ ⟨rfl,p,place,hit⟩
  have quietly := hit.kept.fixed.quiet quiet
  split
  · rename_i absent
    have read : io.uio.write = false := by
      cases write : io.uio.write with
      | false => rfl
      | true => exact absurd absent (hit.allocated write)
    have calm := hit.calm read
    have none_ : pointer io.fs i p = 0 := by rw [←(calm.alike i).pointer,hit.self,absent]
    refine ends_bind_kassert (by rw [read]; rfl)
      ((ends_uiomovezeros _ (show (⟨t,io.uio⟩ : Io).uio.write = false from read) big).mono ?_ (Errs.mono ?_))
    · intro _ after zeroed
      have moved := zeroed.moved calm fs read aligned le_rfl big place none_
      refine ⟨moved,by rw [zeroed.fs,(calm.alike i).node],fun yes => ?_⟩
      rw [read] at yes
      cases yes
    rintro e after ⟨rfl,limited,m,most,zeroed⟩
    exact ⟨.inl ⟨rfl,limited⟩,by rw [zeroed.fs,(calm.alike i).node],m,
      zeroed.moved calm fs read aligned most (le_trans most big) place none_,
      fun unlimited => absurd unlimited limited⟩
  rename_i nz
  have inside := lt_of_lt_of_le (hit.used alive nz).1 hit.fs.fits
  refine ends_bind_kassert (decide_eq_true big) ?_
  rw [hit.sector alive nz]
  split
  · rename_i write
    refine ends_bind (Q := fun _ after => after = ⟨t,io.uio⟩) (ends_onFs (ends_inRange inside rfl)) ?_
    rintro _ _ rfl
    refine ends_bind (Q := fun data after => data = io.uio.take zeros 0 blockSize ∧
      after = ⟨t,io.uio.advance blockSize⟩)
      (ends_uiomove_write write ⟨by rw [amount],by rw [amount]⟩ fun limited => hit.stopped limited) ?_
    rintro _ _ ⟨rfl,rfl⟩
    refine ends_onFs (ends_wblock quietly inside ?_)
    rw [write] at hit
    have stored := hit.stored place alive (io.uio.take zeros (io.uio.offset % blockSize) blockSize)
    have passed := stored.passed write place le big some_ fun x lt out => by
      rw [aligned] at out
      exact absurd ⟨zero_le x,by omega⟩ out
    rwa [aligned] at passed
  rename_i notWrite
  have read : io.uio.write = false := by rwa [Bool.not_eq_true] at notWrite
  have calm := hit.calm read
  refine ends_bind (Q := fun data after => data = t.disk b ∧ after.uio = io.uio ∧ Calm t after.fs)
    (ends_onFs (ends_rblock quietly inside ⟨rfl,rfl,calm_transfer⟩)) ?_
  rintro _ ⟨u,_⟩ ⟨rfl,rfl,more⟩
  have now := hit.after_calm more
  refine ends_bind (Q := fun _ after => after = ⟨u,io.uio.put (t.disk b) 0 blockSize⟩)
    (ends_uiomove_read read (by rw [amount]) fun limited => now.stopped limited) ?_
  rintro _ _ rfl
  have bytes : ∀ x < blockSize, t.disk b x = byte io.fs i (fileblockOf io.uio*blockSize+x) := by
    intro x lt
    have quotient : (fileblockOf io.uio*blockSize+x)/blockSize = fileblockOf io.uio := by
      unfold blockSize at lt ⊢
      omega
    have rest : (fileblockOf io.uio*blockSize+x) % blockSize = x := by
      unfold blockSize at lt ⊢
      omega
    rw [←(calm.alike i).byte,byte_mapped (p := p) (by rw [quotient,place]),hit.self,if_neg nz,rest]
  have passed := passed_read fs (now.calm read) read place le big some_ bytes
  rw [aligned] at passed
  exact ends_pure passed

lemma Passed.loaded (passed : Passed live i io n after) (load : io.fs.vnodes i = some v) :
    ∃ w, after.fs.vnodes i = some w := by
  obtain ⟨w,load,_⟩ := passed.touched.loaded load
  exact ⟨w,load⟩

lemma ends_blockLoop (n : Nat) (fs : Fs io.fs live none) (quiet : Quiet io.fs) (load : io.fs.vnodes i = some v)
    (aligned : io.uio.offset % blockSize = 0) (big : n*blockSize ≤ io.uio.resid) :
    Ends (blockLoop i n io) (fun _ after => Passed live i io (n*blockSize) after ∧ (n = 0 → after = io))
      (Errs (Stopped live i io)) := by
  induction n generalizing io v with
  | zero =>
    rw [zero_mul]
    exact ends_pure ⟨passed_none fs,fun _ => rfl⟩
  | succ n ih =>
    rw [succ_mul] at big
    have sum : (n+1)*blockSize = blockSize+n*blockSize := by rw [succ_mul,add_comm]
    rw [sum]
    refine (ends_bind_passed (P := fun _ => True) ((ends_blockio fs quiet load aligned (by omega)).imp
      (fun _ _ passed => ⟨passed,trivial⟩)) fun middle passed _ => ?_).imp
      (fun _ _ passed => ⟨passed,fun none_ => by cases none_⟩)
    obtain ⟨w,here⟩ := passed.loaded load
    have offset : middle.uio.offset % blockSize = 0 := by rw [passed.offset,add_mod_right,aligned]
    have left : n*blockSize ≤ middle.uio.resid := by
      rw [passed.resid]
      omega
    cases n with
    | zero =>
      rw [zero_mul]
      exact ends_pure (passed_none passed.touched.fs)
    | succ n =>
      refine (ih passed.touched.fs (passed.touched.fixed.quiet quiet) here offset left).mono
        (fun _ _ more => more.1) (Errs.mono fun _ _ stop => ⟨.inr ⟨by decide,?_,offset⟩,stop⟩)
      rw [succ_mul] at left
      exact lt_of_lt_of_le (by decide) (le_trans (le_add_left blockSize _) left)

lemma ends_alignedIo (fs : Fs io.fs live none) (quiet : Quiet io.fs) (load : io.fs.vnodes i = some v)
    (aligned : 0 < io.uio.resid → io.uio.offset % blockSize = 0) :
    Ends (alignedIo i io) (fun _ after => Passed live i io io.uio.resid after)
      (Errs fun e after => (0 < io.uio.resid ∧ io.uio.offset % blockSize = 0) ∧ Stopped live i io e after) := by
  refine ends_bind_get ?_
  split
  · rename_i nothing
    rw [nothing]
    exact ends_pure (passed_none fs)
  rename_i some_
  have left := Nat.pos_of_ne_zero some_
  have start := aligned left
  have whole : io.uio.resid/blockSize*blockSize ≤ io.uio.resid := Nat.div_mul_le_self ..
  have sum : io.uio.resid = io.uio.resid/blockSize*blockSize+io.uio.resid % blockSize := by
    rw [Nat.mul_comm]
    exact (Nat.div_add_mod ..).symm
  refine Ends.mono (Q := fun _ after => Passed live i io
    (io.uio.resid/blockSize*blockSize+io.uio.resid % blockSize) after) ?_
    (fun _ _ passed => by rwa [←sum] at passed) (Errs.mono fun _ _ stop => ⟨⟨left,start⟩,stop⟩)
  refine ends_bind_kassert (by rw [start]; rfl)
    (ends_bind_passed (ends_blockLoop _ fs quiet load start whole) fun middle passed same => ?_)
  obtain ⟨w,here⟩ := passed.loaded load
  have offset : middle.uio.offset % blockSize = 0 := by rw [passed.offset,Nat.add_mul_mod_self_right,start]
  have resid : middle.uio.resid = io.uio.resid % blockSize := by
    rw [passed.resid]
    omega
  refine ends_bind_get (ends_bind_kassert ?_ (ends_perform (fun more => ?_) fun no => ?_))
  · rw [resid]
    exact decide_eq_true (Nat.mod_lt _ (by decide))
  · have more := of_decide_eq_true more
    have last := ends_partialio passed.touched.fs (passed.touched.fixed.quiet quiet) here
      (by rw [offset,resid,Nat.zero_add]; exact le_of_lt (Nat.mod_lt _ (by decide)))
      le_rfl (.inl more)
    rw [offset] at last
    rw [←resid]
    refine last.imp_error (Errs.mono fun _ _ stop => ⟨?_,stop⟩)
    rcases Nat.eq_zero_or_pos (io.uio.resid/blockSize) with none_ | blocks
    · exact .inl (same none_)
    · exact .inr ⟨Nat.mul_pos blocks (by decide),more,offset⟩
  have no := of_decide_eq_false no
  rw [←resid,Nat.eq_zero_of_not_pos no]
  exact passed_none passed.touched.fs

lemma ends_regionIo (fs : Fs io.fs live none) (quiet : Quiet io.fs) (load : io.fs.vnodes i = some v) :
    Ends (regionIo i io) (fun _ after => Passed live i io io.uio.resid after) (Errs (Stopped live i io)) := by
  refine ends_bind_get ?_
  by_cases start : io.uio.offset % blockSize = 0
  · refine Ends.mono (Q := fun _ after => Passed live i io (0+io.uio.resid) after) ?_
      (fun _ _ passed => by rwa [Nat.zero_add] at passed) fun _ _ error => error
    refine ends_bind_passed (P := fun middle => middle = io) (ends_perform
      (fun yes => absurd start (of_decide_eq_true yes)) fun _ => ⟨passed_none fs,rfl⟩) fun middle passed same => ?_
    obtain ⟨w,here⟩ := passed.loaded load
    have resid := passed.resid
    rw [Nat.sub_zero] at resid
    have rest := ends_alignedIo passed.touched.fs (passed.touched.fixed.quiet quiet) here fun _ => by
      rw [passed.offset,Nat.add_zero,start]
    rw [resid] at rest
    exact rest.imp_error (Errs.mono fun _ _ stop => ⟨.inl same,stop.2⟩)
  have one : min (blockSize-io.uio.offset % blockSize) io.uio.resid ≤ io.uio.resid := min_le_right ..
  have sum : io.uio.resid = min (blockSize-io.uio.offset % blockSize) io.uio.resid+
      (io.uio.resid-min (blockSize-io.uio.offset % blockSize) io.uio.resid) := by omega
  refine Ends.mono (Q := fun _ after => Passed live i io (min (blockSize-io.uio.offset % blockSize) io.uio.resid+
      (io.uio.resid-min (blockSize-io.uio.offset % blockSize) io.uio.resid)) after) ?_
    (fun _ _ passed => by rwa [←sum] at passed) fun _ _ error => error
  have lt : io.uio.offset % blockSize < blockSize := Nat.mod_lt _ (by decide)
  refine ends_bind_passed (P := fun _ => True) (ends_perform (fun _ => (ends_partialio fs quiet load (by omega) one
    (.inr start)).imp (fun _ _ passed => ⟨passed,trivial⟩))
    fun no => absurd start (of_decide_eq_false no)) fun middle passed _ => ?_
  obtain ⟨w,here⟩ := passed.loaded load
  have rest := ends_alignedIo passed.touched.fs (passed.touched.fixed.quiet quiet) here fun more => by
    rw [passed.resid] at more
    rw [passed.offset]
    unfold blockSize at *
    omega
  rw [←passed.resid]
  refine rest.imp_error (Errs.mono fun _ _ stop => ⟨.inr ⟨?_,stop.1⟩,stop.2⟩)
  have left := stop.1.1
  rw [passed.resid] at left
  omega

lemma ends_bind_vnode_io {f : Vnode → IoOp α} {Q : α → Io → Prop} {R : Errno → Io → Prop}
    (load : io.fs.vnodes i = some v) (rest : Ends (f v io) Q (Errs R)) :
    Ends ((onFs (vnodeOf i) >>= f) io) Q (Errs R) :=
  ends_bind (Q := fun w after => w = v ∧ io = after) (ends_onFs (ends_vnodeOf load ⟨rfl,rfl⟩)) fun _ _ eq => by
      obtain ⟨rfl,rfl⟩ := eq
      exact rest

def grownSize (size : BitVec 32) (write : Bool) (position : Nat) : BitVec 32 :=
  if write = true ∧ size.toNat < position then BitVec.ofNat 32 position else size

structure Grown (live : Nat → Bool) (i : Nat) (io after : Io) : Prop where
  touched : Touched live io.fs i after.fs
  uio : after.uio = io.uio
  byte : byte after.fs i = byte io.fs i
  size : (node after.fs i).size = grownSize (node io.fs i).size io.uio.write io.uio.offset
  same : io.uio.write = false → after = io

lemma ends_growSize (fs : Fs io.fs live none) (load : io.fs.vnodes i = some v) :
    Ends (growSize i io) (fun _ after => Grown live i io after) (Errs Never) := by
  refine ends_bind_get (ends_bind_vnode_io load ?_)
  have pre := node_loaded load
  refine ends_perform (fun grows => ?_) fun stays => ?_
  · rw [Bool.and_eq_true,decide_eq_true_iff] at grows
    refine ends_onFs (ends_updateInode load ?_)
    obtain ⟨edited,_,bytes⟩ := fs.edit
      (w := {v with inode := {v.inode with size := BitVec.ofNat 32 io.uio.offset},dirty := true})
      load rfl rfl fun clean => (by cases clean)
    refine ⟨⟨⟨⟨rfl,rfl,rfl,rfl⟩,refs_putVnode load rfl,fun j _ other => putVnode_other other,
      by rw [node_putVnode,pre],by rw [node_putVnode,pre]⟩,edited⟩,rfl,bytes,?_,fun no => ?_⟩
    · rw [node_putVnode,pre,grownSize,if_pos grows]
    rw [grows.1] at no
    cases no
  rw [Bool.and_eq_false_iff,decide_eq_false_iff_not] at stays
  refine ⟨.refl fs,rfl,rfl,?_,fun _ => rfl⟩
  rw [pre,grownSize,if_neg]
  rintro ⟨write,more⟩
  rcases stays with read | short
  · rw [read] at write
    cases write
  · exact short more

lemma Moved.grown {final : Io} (moved : Moved live i {io with uio := {io.uio with resid := r}} n middle)
    (grown : Grown live i middle after) (most : r ≤ io.uio.resid) (fs : final.fs = after.fs)
    (uio : final.uio = {after.uio with resid := after.uio.resid+(io.uio.resid-r)}) : Moved live i io n final := by
  have big : n ≤ r := moved.enough
  have eq : final.uio.setData io.uio.data = io.uio.advance n := by
    have pre := congrArg (fun u : Uio => {u with resid := u.resid+(io.uio.resid-r)}) moved.uio
    rw [uio,grown.uio]
    refine pre.trans ?_
    have resid : r-n+(io.uio.resid-r) = io.uio.resid-n := by omega
    simp only [Uio.advance,resid]
  refine ⟨by rw [fs]; exact moved.touched.trans grown.touched,le_trans big most,eq,?_,?_,?_,?_,moved.bounded⟩
  · intro write
    rw [uio,grown.uio]
    exact moved.data write
  · intro write near
    rw [fs,grown.byte]
    exact moved.written write near
  · intro read
    rw [fs,grown.same (moved.write.trans read)]
    exact moved.calm read
  intro read near
  rw [uio,grown.uio]
  exact moved.read read near

-- sfs_io, after which the size is right.
structure Transferred (live : Nat → Bool) (i : Nat) (io : Io) (n : Nat) (after : Io) : Prop
    extends Moved live i io n after where
  size : (node after.fs i).size = grownSize (node io.fs i).size io.uio.write (io.uio.offset+n)

structure Failed (live : Nat → Bool) (i : Nat) (io : Io) (r : Nat) (errno : Errno) (after : Io) : Prop where
  hindered : Hindered i io r errno
  moved : ∃ n, Transferred live i io n after ∧
    (io.uio.limit = none → n = 0 ∧ ¬Obtainable i io ∨ 0 < n ∧ n < r ∧ (io.uio.offset+n) % blockSize = 0)
  inside : io.uio.write = false → io.uio.offset < (node io.fs i).size.toNat

def Ended (live : Nat → Bool) (i : Nat) (io : Io) (result : Except Errno PUnit) (after : Io) : Prop :=
  match result with
  | .ok _ => Passed live i io io.uio.resid after
  | .error errno => Stopped live i io errno after

lemma ends_clippedIo (fs : Fs io.fs live none) (quiet : Quiet io.fs) (load : io.fs.vnodes i = some v)
    (less : extraresid ≠ 0 → extraresid < io.uio.resid)
    (inside : io.uio.write = false → io.uio.offset < (node io.fs i).size.toNat) : Ends (clippedIo i extraresid io)
      (fun _ after => Transferred live i io (io.uio.resid-extraresid) after)
      (Errs (Failed live i io (io.uio.resid-extraresid))) := by
  refine ends_bind_get (ends_bind (Q := fun _ after =>
    after = {io with uio := {io.uio with resid := io.uio.resid-extraresid}}) (ends_perform
      (fun _ => ?_) fun nothing => ?_) ?_)
  · rename_i extra
    have extra : extraresid ≠ 0 := of_decide_eq_true extra
    exact ends_bind_kassert (decide_eq_true (less extra)) (ends_modify rfl)
  · have none_ : extraresid = 0 := Decidable.of_not_not (of_decide_eq_false nothing)
    rw [none_,Nat.sub_zero]
  rintro _ _ rfl
  have added : extraresid ≤ io.uio.resid := by
    by_cases none_ : extraresid = 0
    · omega
    · exact le_of_lt (less none_)
  have back : io.uio.resid-(io.uio.resid-extraresid) = extraresid := by omega
  have region : Ends (regionIo i {io with uio := {io.uio with resid := io.uio.resid-extraresid}}) _ _ :=
    ends_regionIo fs quiet load
  refine ends_bind (ends_attempt region (Q := Ended live i _) (fun _ _ ends => ends) fun _ _ ends => ends) ?_
  intro res middle ends
  cases res with
  | ok _ =>
    have ends : Passed live i _ _ middle := ends
    obtain ⟨w,here⟩ := ends.loaded load
    refine ends_bind ((ends_growSize ends.touched.fs here).imp_error Errs.never) ?_
    intro _ after grown
    refine ends_bind_modify (ends_pure ⟨ends.toMoved.grown grown (Nat.sub_le ..) rfl (by rw [back]),?_⟩)
    rw [grown.size,ends.size,ends.write,ends.offset]
  | error errno =>
    obtain ⟨hindered,size,n,moved,whole⟩ := ends
    obtain ⟨w,here,_⟩ := moved.touched.loaded load
    refine ends_bind ((ends_growSize moved.touched.fs here).imp_error Errs.never) ?_
    intro _ after grown
    refine ends_bind_modify (ends_fail ⟨hindered,⟨n,
      ⟨moved.grown grown (Nat.sub_le ..) rfl (by rw [back]),?_⟩,whole⟩,inside⟩)
    rw [grown.size,size,moved.write,moved.offset]

def reach (i : Nat) (io : Io) : Nat :=
  if io.uio.write then io.uio.resid
  else min io.uio.resid ((node io.fs i).size.toNat-io.uio.offset)

lemma ends_sfsIo (fs : Fs io.fs live none) (quiet : Quiet io.fs) (load : io.fs.vnodes i = some v) :
    Ends (sfsIo i io) (fun _ after => Transferred live i io (reach i io) after)
      (Errs (Failed live i io (reach i io))) := by
  refine ends_bind_get (ends_bind_vnode_io load ?_)
  have size := node_loaded load
  split
  · rename_i write
    have all : reach i io = io.uio.resid-0 := if_pos write
    rw [all]
    refine ends_clippedIo fs quiet load (fun none_ => absurd rfl none_) fun read => ?_
    rw [write] at read
    cases read
  rename_i read
  have part : reach i io = min io.uio.resid (v.inode.size.toNat-io.uio.offset) := by rw [reach,if_neg read,size]
  rw [part]
  split
  · rename_i past
    rw [Nat.sub_eq_zero_of_le past,Nat.min_zero]
    refine ends_pure ⟨(passed_none fs).toMoved,?_⟩
    rw [grownSize,if_neg fun both => read both.1]
  rename_i pre
  have left : min io.uio.resid (v.inode.size.toNat-io.uio.offset) =
      io.uio.resid-(io.uio.offset+io.uio.resid-v.inode.size.toNat) := by omega
  rw [left]
  refine ends_clippedIo fs quiet load (fun _ => by omega) fun _ => ?_
  rw [size]
  exact Nat.lt_of_not_le pre
end ToyOS.Sfs

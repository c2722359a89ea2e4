import ToyOS.Library.Copying

namespace ToyOS.Uiomove
open ByteMemory

-- UIO_USERSPACE and UIO_USERISPACE are treated alike.
inductive Segflg where
  | sysspace | userspace
  deriving DecidableEq

structure Iovec where
  base : Nat
  len : Nat

-- `iov` are the uio_iovcnt buffers from uio_iov on, `read` is UIO_READ.
structure Uio where
  iov : List Iovec
  offset : Nat
  resid : Nat
  segflg : Segflg
  read : Bool

abbrev Memory := Nat → UInt8

-- What is left when `size` bytes of the first buffer are done.
def Uio.advance (uio : Uio) (iov : Iovec) (rest : List Iovec) (size : Nat) : Uio := {uio with
  iov := ⟨iov.base+size,iov.len-size⟩ :: rest
  resid := (uio.resid+2^32-size) % 2^32
  offset := uio.offset+size}

-- `fails base size` is the memory that a failed copyin or copyout leaves, none if the copy succeeds. The result is none
-- for a panic; else whether it is EFAULT, the uio and the memory.
def uiomove (fails : Nat → Nat → Option Memory) (memory : Memory) (ptr n : Nat) (uio : Uio) :
    Option (Bool × Uio × Memory) :=
  if 0 < n ∧ 0 < uio.resid then
    match _there : uio.iov with
    | [] => none
    | iov :: rest =>
      let size := min iov.len n
      if size = 0 then
        if rest = [] then none else uiomove fails memory ptr n {uio with iov := rest}
      else match if uio.segflg = .sysspace then none else fails iov.base size with
        | some spoiled => some (true,uio,spoiled)
        | none =>
          let moved := if uio.read then splice memory iov.base size memory ptr
            else splice memory ptr size memory iov.base
          uiomove fails moved (ptr+size) (n-size) (uio.advance iov rest size)
  else some (false,uio,memory)
termination_by uio.iov.length+n
decreasing_by
  · simp [_there]
  simp [_there,Uio.advance]
  omega

def total (iov : List Iovec) : Nat := (iov.map Iovec.len).sum

-- `resid` bytes end where a buffer ends.
def Aligned (resid : Nat) (iov : List Iovec) : Prop := ∃ k, total (iov.take k) = resid
def Limited (n : Nat) (uio : Uio) : Prop := n ≤ uio.resid ∨ Aligned uio.resid uio.iov

-- The residue goes down by the bytes moved and does not wrap.
def Respects (uio : Uio) (result : Option (Bool × Uio × Memory)) : Prop :=
  ∃ efault after memory moved, result = some (efault,after,memory) ∧ after.offset = uio.offset+moved ∧
    after.resid+moved = uio.resid

variable {fails : Nat → Nat → Option Memory} {memory : Memory} {ptr n : Nat} {uio : Uio}

lemma total_cons (iov : Iovec) (rest : List Iovec) : total (iov :: rest) = iov.len+total rest := by simp [total]
lemma aligned_zero (iov : List Iovec) : Aligned 0 iov := ⟨0,rfl⟩

lemma aligned_cons (some_ : 0 < resid) :
    Aligned resid (iov :: rest) ↔ iov.len ≤ resid ∧ Aligned (resid-iov.len) rest := by
  constructor
  · rintro ⟨k,sum⟩
    cases k with
    | zero => simp [total] at sum; omega
    | succ k =>
      rw [List.take_succ_cons,total_cons] at sum
      exact ⟨by omega,k,by omega⟩
  rintro ⟨lt,k,sum⟩
  exact ⟨k+1,by rw [List.take_succ_cons,total_cons]; omega⟩

lemma Limited.advance_iff (hit : uio.iov = iov :: rest) (more : 0 < n ∧ 0 < uio.resid)
    (fits : uio.resid < 2^32) (le : min iov.len n ≤ uio.resid) :
    Limited (n-min iov.len n) (uio.advance iov rest (min iov.len n)) ↔ Limited n uio := by
  have resid : (uio.resid+2^32-min iov.len n) % 2^32 = uio.resid-min iov.len n := by omega
  simp only [Limited,Uio.advance,resid,hit,aligned_cons more.2]
  by_cases left : uio.resid-min iov.len n = 0
  · have whole : n ≤ uio.resid ∨ iov.len = uio.resid := by omega
    rw [left]
    refine iff_of_true (.inr (aligned_zero _)) (whole.imp_right fun eq => ⟨le_of_eq eq,?_⟩)
    rw [eq,Nat.sub_self]
    exact aligned_zero _
  rw [aligned_cons (by omega)]
  by_cases short : iov.len ≤ n
  · rw [Nat.min_eq_left short,Nat.sub_self,Nat.sub_zero]
    simp only [Nat.zero_le,true_and]
    constructor
    · exact Or.imp (by omega) fun aligned => ⟨by omega,aligned⟩
    · exact Or.imp (by omega) And.right
  · exact iff_of_true (.inl (by omega)) (.inl (by omega))

lemma Limited.within (limited : Limited n uio) (hit : uio.iov = iov :: rest)
    (more : 0 < n ∧ 0 < uio.resid) : min iov.len n ≤ uio.resid := by
  rcases limited with few | aligned
  · omega
  rw [hit,aligned_cons more.2] at aligned
  omega

lemma uiomove_forward (ran : uiomove fails memory ptr n uio = some (efault,after,final)) :
    uio.offset ≤ after.offset := by
  fun_induction uiomove fails memory ptr n uio with
  | case1 | case2 => cases ran
  | case4 | case6 =>
    cases ran
    exact le_rfl
  | case3 _ _ _ _ _ _ _ _ _ _ _ ih => exact ih ran
  | case5 _ _ _ _ _ _ _ _ size _ _ _ ih => exact le_trans (Nat.le_add_right _ size) (ih ran)

lemma respects_limited (big : uio.resid ≤ total uio.iov) (fits : uio.resid < 2^32) :
    (Limited n uio → Respects uio (uiomove fails memory ptr n uio)) ∧
    ((∀ base size, fails base size = none) → Respects uio (uiomove fails memory ptr n uio) → Limited n uio) := by
  fun_induction uiomove fails memory ptr n uio with
  | case1 _ _ _ _ more hit | case2 _ _ _ _ more _ _ empty hit =>
    simp [hit,total] at big
    omega
  | case3 _ _ n uio more iov rest hit _ none _ ih =>
    have gone : iov.len = 0 := by omega
    rw [hit,total_cons,gone,Nat.zero_add] at big
    have eq : Limited n {uio with iov := rest} ↔ Limited n uio := by simp [Limited,hit,aligned_cons more.2,gone]
    rw [←eq]
    exact ih big fits
  | case4 _ _ _ uio _ _ _ _ _ _ spoiled failed =>
    refine ⟨fun _ => ⟨true,uio,spoiled,0,rfl,rfl,rfl⟩,fun never => ?_⟩
    simp [never] at failed
  | case6 _ _ _ uio done =>
    refine ⟨fun _ => ⟨false,uio,_,0,rfl,rfl,rfl⟩,fun _ _ => ?_⟩
    by_cases few : 0 < uio.resid
    · exact .inl (by omega)
    · exact .inr ((Nat.eq_zero_of_not_pos few).symm ▸ aligned_zero _)
  | case5 _ _ n uio more iov rest hit size some_ copied moved ih =>
    rw [hit,total_cons] at big
    by_cases le : size ≤ uio.resid
    · have resid : (uio.advance iov rest size).resid = uio.resid-size := by
        simp only [Uio.advance]
        omega
      obtain ⟨good,bad⟩ := ih (by rw [resid]; simp [Uio.advance,total_cons]; omega) (by omega)
      have eq : Limited (n-size) (uio.advance iov rest size) ↔ Limited n uio := Limited.advance_iff hit more fits le
      refine ⟨fun limited => ?_,fun never => ?_⟩
      · obtain ⟨efault,after,final,moved,ran,offset,left⟩ := good (eq.mpr limited)
        exact ⟨efault,after,final,size+moved,ran,by rw [offset,Uio.advance,Nat.add_assoc],by omega⟩
      rintro ⟨efault,after,final,moved,ran,offset,left⟩
      have forward : uio.offset+size ≤ after.offset := uiomove_forward ran
      exact eq.mp (bad never ⟨efault,after,final,moved-size,ran,by simp [Uio.advance]; omega,by omega⟩)
    refine ⟨fun limited => absurd (limited.within hit more) le,fun _ => ?_⟩
    rintro ⟨efault,after,final,moved,ran,offset,left⟩
    have forward : uio.offset+size ≤ after.offset := uiomove_forward ran
    omega

-- The step is limited by the buffer and by `n`, not by the residue.
theorem uiomove_respects_iff (uio : Uio) (n : Nat) (enough : uio.resid ≤ total uio.iov) (fits : uio.resid < 2^32) :
    (∀ fails memory ptr, Respects uio (uiomove fails memory ptr n uio)) ↔
      n ≤ uio.resid ∨ Aligned uio.resid uio.iov :=
  ⟨fun all => (respects_limited enough fits).2 (fun _ _ => rfl) (all (fun _ _ => none) (fun _ => 0) 0),
    fun limited _ _ _ => (respects_limited enough fits).1 limited⟩

-- load_segment's shape: a buffer of the memory size, a residue of the file size.
def segmentUio (memsize filesize : Nat) : Uio := ⟨[⟨0x400000,memsize⟩],4096,filesize,.userspace,true⟩

theorem uiomove_respects_block :
    Respects (segmentUio 8192 600) (uiomove (fun _ _ => none) (fun _ => 0) 0 512 (segmentUio 8192 600)) :=
  (uiomove_respects_iff (segmentUio 8192 600) 512 (by decide) (by decide)).mpr (.inl (by decide)) _ _ _

theorem uiomove_wraps : (600 ≤ total (segmentUio 8192 600).iov) ∧
    ∃ after memory, uiomove (fun _ _ => none) (fun _ => 0) 0x80000000 1024 (segmentUio 8192 600) =
      some (false,after,memory) ∧ after.resid = 2^32-424 ∧ after.offset = 4096+1024 := by
  refine ⟨by decide,?_⟩
  rw [uiomove]
  simp [segmentUio,Uio.advance]
  rw [uiomove]
  simp

-- The addresses of the bytes still to be moved.
def addresses (iov : List Iovec) : List Nat := iov.flatMap fun v => List.range' v.base v.len

-- Where the byte number `k` of a transfer goes to, and where it comes from.
def target (read : Bool) (ptr : Nat) (buffers : List Nat) (k : Nat) : Nat := if read then buffers.getD k 0 else ptr+k
def source (read : Bool) (ptr : Nat) (buffers : List Nat) (k : Nat) : Nat := if read then ptr+k else buffers.getD k 0

-- No two buffers that are written to overlap, and none overlaps the kernel's own.
structure Apart (ptr n : Nat) (uio : Uio) : Prop where
  nodup : uio.read = true → (addresses uio.iov).Nodup
  outside : ∀ a ∈ addresses uio.iov, a < ptr ∨ ptr+n ≤ a

structure Exact (memory : Memory) (ptr m : Nat) (uio after : Uio) (final : Memory) : Prop where
  offset : after.offset = uio.offset+m
  resid : after.resid = uio.resid-m
  rest : addresses after.iov = (addresses uio.iov).drop m
  kind : after.read = uio.read ∧ after.segflg = uio.segflg ∧ total after.iov = after.resid
  copied : Copied (target uio.read ptr (addresses uio.iov)) (source uio.read ptr (addresses uio.iov)) m memory final

lemma addresses_length (iov : List Iovec) : (addresses iov).length = total iov := by
  simp [addresses,total,List.length_flatMap]

lemma addresses_advance {iov : Iovec} (part : size ≤ iov.len) :
    addresses (⟨iov.base+size,iov.len-size⟩ :: rest) = (addresses (iov :: rest)).drop size := by
  simp [addresses,List.drop_append,Nat.sub_eq_zero_of_le part,List.drop_range']

lemma Apart.later (apart : Apart ptr n uio) (kind : after.read = uio.read)
    (rest : addresses after.iov = (addresses uio.iov).drop m) : Apart (ptr+m) (n-m) after := by
  constructor
  · rw [rest,kind]
    exact fun read => (apart.nodup read).drop
  intro a member
  rw [rest] at member
  have := apart.outside a (List.mem_of_mem_drop member)
  omega

lemma Exact.append (apart : Apart ptr (a+b) uio) (big : a+b ≤ total uio.iov)
    (one : Exact memory ptr a uio middle mid) (two : Exact mid (ptr+a) b middle after final) :
    Exact memory ptr (a+b) uio after final where
  offset := by rw [two.offset,one.offset,Nat.add_assoc]
  resid := by rw [two.resid,one.resid,Nat.sub_sub]
  rest := by rw [two.rest,one.rest,List.drop_drop]
  kind := ⟨two.kind.1.trans one.kind.1,two.kind.2.1.trans one.kind.2.1,two.kind.2.2⟩
  copied := by
    have length := addresses_length uio.iov
    have left : target uio.read (ptr+a) ((addresses uio.iov).drop a) =
        fun k => target uio.read ptr (addresses uio.iov) (a+k) := by simp [funext_iff,target,Nat.add_assoc]
    have right : source uio.read (ptr+a) ((addresses uio.iov).drop a) =
        fun k => source uio.read ptr (addresses uio.iov) (a+k) := by simp [funext_iff,source,Nat.add_assoc]
    have second := two.copied
    rw [one.kind.1,one.rest,left,right] at second
    have entry {k : Nat} (lt : k < a+b) : (addresses uio.iov).getD k 0 ∈ addresses uio.iov := by
      rw [List.getD_eq_getElem _ _ (by omega)]
      exact List.getElem_mem _
    refine one.copied.append second (fun j k first later => ?_) fun j k first later eq => ?_
    · have inside := apart.outside _ (entry first)
      have also := apart.outside _ (entry later)
      unfold target source
      cases uio.read <;> simp only [Bool.false_eq_true,if_true,if_false] <;> omega
    cases direction : uio.read
    · simpa [target,direction] using eq
    simp only [target,direction,if_true] at eq
    rw [List.getD_eq_getElem _ _ (by omega),List.getD_eq_getElem _ _ (by omega)] at eq
    exact (apart.nodup direction).getElem_inj_iff.mp eq

lemma uiomove_moves (fails : Nat → Nat → Option Memory) (memory : Memory) (system : uio.segflg = .sysspace)
    (whole : total uio.iov = uio.resid) (fits : uio.resid < 2^32) (apart : Apart ptr n uio) :
    ∃ after final, uiomove fails memory ptr n uio = some (false,after,final) ∧
      Exact memory ptr (min n uio.resid) uio after final := by
  fun_induction uiomove fails memory ptr n uio with
  | case1 _ _ _ _ more hit | case2 _ _ _ _ more _ _ empty hit =>
    simp [hit,total] at whole
    omega
  | case3 _ _ n uio more iov rest hit _ none _ ih =>
    have gone : iov.len = 0 := by omega
    have eq : addresses rest = addresses uio.iov := by simp [hit,addresses,gone]
    rw [hit,total_cons,gone,Nat.zero_add] at whole
    have spaced : Apart _ n {uio with iov := rest} := ⟨fun read => eq ▸ apart.nodup read,eq ▸ apart.outside⟩
    obtain ⟨after,final,ran,moved⟩ := ih system whole fits spaced
    exact ⟨after,final,ran,moved.offset,moved.resid,eq ▸ moved.rest,moved.kind,eq ▸ moved.copied⟩
  | case4 _ _ _ _ _ _ _ _ _ _ _ bad => simp [system] at bad
  | case6 _ _ n uio done =>
    have none : min n uio.resid = 0 := by omega
    exact ⟨uio,_,rfl,by rw [none]; exact ⟨rfl,rfl,rfl,⟨rfl,rfl,whole⟩,copied_zero⟩⟩
  | case5 memory ptr n uio more iov rest hit size some_ _ moved ih =>
    rw [hit,total_cons] at whole
    have part : size ≤ iov.len := min_le_left ..
    have resid : (uio.advance iov rest size).resid = uio.resid-size := by
      simp only [Uio.advance]
      omega
    have left : addresses (uio.advance iov rest size).iov = (addresses uio.iov).drop size := by
      rw [hit]
      exact addresses_advance part
    have one : Exact memory ptr size uio (uio.advance iov rest size) moved := by
      refine ⟨rfl,resid,left,⟨rfl,rfl,?_⟩,?_⟩
      · rw [resid]
        simp only [Uio.advance,total_cons]
        omega
      have here k (lt : k < size) : (addresses uio.iov).getD k 0 = iov.base+k := by
        simp [hit,addresses,List.getElem?_append_left,lt_of_lt_of_le lt part]
      unfold moved
      cases uio.read
      · exact copied_splice (fun k _ => rfl) here
      · exact copied_splice here fun k _ => rfl
    have split : min n uio.resid = size+min (n-size) (uio.resid-size) := by omega
    obtain ⟨after,final,ran,two⟩ := ih system one.kind.2.2 (by omega) (apart.later rfl left)
    refine ⟨after,final,ran,?_⟩
    rw [split]
    rw [resid] at two
    refine Exact.append ⟨apart.nodup,fun a mem => ?_⟩ (by rw [hit,total_cons]; omega) one two
    have := apart.outside a mem
    omega

theorem uiomove_exact (fails : Nat → Nat → Option Memory) (memory : Memory) (ptr a b : Nat) (uio : Uio)
    (system : uio.segflg = .sysspace) (whole : total uio.iov = uio.resid) (fits : uio.resid < 2^32)
    (apart : Apart ptr (a+b) uio) :
    ∃ after final, uiomove fails memory ptr (a+b) uio = some (false,after,final) ∧
      Exact memory ptr (min (a+b) uio.resid) uio after final ∧
      ∃ middle mid last, uiomove fails memory ptr a uio = some (false,middle,mid) ∧
        uiomove fails mid (ptr+a) b middle = some (false,last,final) ∧ last.offset = after.offset ∧
        last.resid = after.resid ∧ addresses last.iov = addresses after.iov := by
  have narrow {n : Nat} (less : n ≤ a+b) : Apart ptr n uio :=
    ⟨apart.nodup,fun x member => (apart.outside x member).imp_right (by omega)⟩
  obtain ⟨after,final,ran,done⟩ := uiomove_moves fails memory system whole fits apart
  obtain ⟨middle,mid,first,one⟩ := uiomove_moves fails memory system whole fits (narrow (Nat.le_add_right a b))
  have beyond : Apart (ptr+a) b middle := by
    have later := (narrow le_rfl).later one.kind.1 one.rest
    refine ⟨later.nodup,fun x member => ?_⟩
    rw [one.rest] at member
    have := apart.outside x (List.mem_of_mem_drop member)
    omega
  have left := one.resid
  obtain ⟨last,end_,second,two⟩ := uiomove_moves fails mid (one.kind.2.1.trans system)
    one.kind.2.2 (by omega) beyond
  have both : Exact memory ptr (min (a+b) uio.resid) uio last end_ := by
    by_cases inside : a ≤ uio.resid
    · rw [Nat.min_eq_left inside] at one left
      rw [left] at two
      have split : min (a+b) uio.resid = a+min b (uio.resid-a) := by omega
      rw [split]
      exact one.append (narrow (by omega)) (by omega) two
    · have none : min b middle.resid = 0 := by omega
      have whole : min (a+b) uio.resid = min a uio.resid := by omega
      rw [none] at two
      cases two.copied.unique copied_zero
      rw [whole]
      exact ⟨two.offset.trans one.offset,two.resid.trans one.resid,two.rest.trans one.rest,
        ⟨two.kind.1.trans one.kind.1,two.kind.2.1.trans one.kind.2.1,two.kind.2.2⟩,one.copied⟩
  have same := done.copied.unique both.copied
  subst same
  exact ⟨after,final,ran,done,middle,mid,last,first,second,both.offset.trans done.offset.symm,
    both.resid.trans done.resid.symm,both.rest.trans done.rest.symm⟩

def bytes : Memory := fun a => UInt8.ofNat a
def gather : Uio := ⟨[⟨10,2⟩,⟨20,0⟩,⟨30,3⟩],0,5,.sysspace,false⟩

theorem uiomove_exact_gather : ∃ after final,
    uiomove (fun _ _ => none) bytes 100 (3+1) gather = some (false,after,final) ∧
    Exact bytes 100 4 gather after final := by
  obtain ⟨after,final,ran,done,_⟩ := uiomove_exact (fun _ _ => none) bytes 100 3 1 gather rfl rfl
    (by decide) ⟨by decide,by decide⟩
  exact ⟨after,final,ran,done⟩

-- The second buffer gets the byte given to the first, not the one that stood there.
theorem uiomove_overlapping : ∃ after final,
    uiomove (fun _ _ => none) bytes 0 2 ⟨[⟨1,1⟩,⟨2,1⟩],0,2,.sysspace,true⟩ = some (false,after,final) ∧
    ¬Exact bytes 0 2 ⟨[⟨1,1⟩,⟨2,1⟩],0,2,.sysspace,true⟩ after final := by
  refine ⟨⟨[⟨3,0⟩],2,0,.sysspace,true⟩,splice (splice bytes 1 1 bytes 0) 2 1 (splice bytes 1 1 bytes 0) 1,?_,?_⟩
  · simp [uiomove,Uio.advance]
  intro exact_
  have second := exact_.copied.moved 1 (by decide)
  revert second
  decide
end ToyOS.Uiomove

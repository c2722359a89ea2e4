import ToyOS.SfsBmap

namespace ToyOS.Lhd
open Function Outcome UserSpace ByteMemory Sfs Option

def sectSize : Nat := 512

-- struct lhd_softc with the disk. `media n` is what the operation `n` leaves in its sector if it ends with LHD_MEDIA;
-- `none` is LHD_OK. `completed` are the writes that ended with LHD_OK.
structure Card where
  sectors : Nat → Block
  dBlocks : Nat
  buf : Block
  media : Nat → Option Block
  operations : Nat
  completed : List (Nat × Block)

structure Request where
  card : Card
  uio : Uio

abbrev LhdOp := EStateM Fault Request

def Card.operate (c : Card) (sector : Nat) (write : Bool) : Card :=
  match c.media c.operations,write with
  | none,true => {c with
      operations := c.operations+1,
      sectors := update c.sectors sector c.buf,
      completed := (sector,c.buf) :: c.completed}
  | none,false => {c with operations := c.operations+1,buf := c.sectors sector}
  | some left,true => {c with operations := c.operations+1,sectors := update c.sectors sector left}
  | some _,false => {c with operations := c.operations+1}

def operate (sector : Nat) : LhdOp PUnit := do
  let r ← get
  set {r with card := r.card.operate sector r.uio.write}
  match r.card.media r.card.operations with
  | none => pure ⟨⟩
  | some _ => fail .eio

def Request.fill (r : Request) : Request where
  card := {r.card with buf := r.uio.take r.card.buf 0 (min sectSize r.uio.resid)}
  uio := r.uio.advance (min sectSize r.uio.resid)

def Request.drain (r : Request) : Request :=
  {r with uio := r.uio.put r.card.buf 0 (min sectSize r.uio.resid)}

def lhdSector (sector : Nat) : LhdOp PUnit := do
  let r ← get
  perform r.uio.write (modify Request.fill)
  operate sector
  perform (!r.uio.write) (modify Request.drain)

def lhdSectors : Nat → Nat → LhdOp PUnit
  | 0,_ => pure ⟨⟩
  | n+1,sector => do
    lhdSector sector
    lhdSectors n ((sector+1) % 2^32)

def lhdIo : LhdOp PUnit := do
  let r ← get
  let sector := r.uio.offset/sectSize % 2^32
  let len := r.uio.resid/sectSize % 2^32
  if r.uio.offset % sectSize ≠ 0 ∨ r.uio.resid % sectSize ≠ 0 then fail .einval
  else if r.card.dBlocks < (sector+len) % 2^32 then fail .einval
  else lhdSectors len sector

def afterTry (again : LhdOp PUnit) : Except Errno PUnit → LhdOp PUnit
  | .ok _ => pure ⟨⟩
  | .error .einval => panics
  | .error .eio => again
  | .error errno => fail errno

def sfsRwblock : Nat → LhdOp PUnit
  | 0 => do
    let result ← attempt lhdIo
    afterTry (fail .eio) result
  | n+1 => do
    let result ← attempt lhdIo
    afterTry (sfsRwblock n) result

def sfsWblock (data : Block) (block : Nat) (card : Card) : EStateM.Result Fault Request PUnit :=
  sfsRwblock 10 ⟨card,uioKinit data blockSize (block*blockSize) true⟩

def sfsRblock (data : Block) (block : Nat) (card : Card) : EStateM.Result Fault Request PUnit :=
  sfsRwblock 10 ⟨card,uioKinit data blockSize (block*blockSize) false⟩

variable {card : Card} {data : Block} {block : Nat} {r : Request} {n : Nat} {Q : PUnit → Request → Prop}
  {E : Fault → Request → Prop}

lemma ends_lhdIo_one (offset : r.uio.offset = block*blockSize) (resid : r.uio.resid = blockSize)
    (lt : block < r.card.dBlocks) (word : r.card.dBlocks < 2^32) (ends : Ends (lhdSector block r) Q E) :
    Ends (lhdIo r) Q E := by
  have sector : block*blockSize/sectSize % 2^32 = block := by
    unfold blockSize sectSize
    omega
  have aligned : ¬(block*blockSize % sectSize ≠ 0 ∨ blockSize % sectSize ≠ 0) := by
    unfold blockSize sectSize
    omega
  have one : blockSize/sectSize % 2^32 = 1 := rfl
  refine ends_bind_get ?_
  rw [offset,resid,if_neg aligned,sector,one,if_neg (by omega)]
  exact ends_bind ends fun _ _ done => done

lemma ends_lhdIo_none (offset : r.uio.offset = (block+1)*blockSize) (resid : r.uio.resid = 0)
    (lt : block < r.card.dBlocks) (word : r.card.dBlocks < 2^32) (done : Q ⟨⟩ r) : Ends (lhdIo r) Q E := by
  have low : (block+1)*blockSize/sectSize % 2^32 ≤ block+1 := by
    unfold blockSize sectSize
    omega
  have aligned : ¬((block+1)*blockSize % sectSize ≠ 0 ∨ 0 % sectSize ≠ 0) := by
    unfold blockSize sectSize
    omega
  have none_ : 0/sectSize % 2^32 = 0 := rfl
  refine ends_bind_get ?_
  rw [offset,resid,if_neg aligned,none_,if_neg (by omega)]
  exact done

lemma ends_rwblock_none (offset : r.uio.offset = (block+1)*blockSize) (resid : r.uio.resid = 0)
    (lt : block < r.card.dBlocks) (word : r.card.dBlocks < 2^32) : Ends (sfsRwblock n r) (fun _ t => t = r) E := by
  have tried : Ends (attempt lhdIo r) (fun res t => res = .ok ⟨⟩ ∧ t = r) E :=
    ends_attempt (R := Never) (ends_lhdIo_none (Q := fun _ t => t = r) offset resid lt word rfl)
      (fun _ _ eq => ⟨rfl,eq⟩) fun _ _ never => never.elim
  cases n with
  | zero =>
    refine ends_bind tried ?_
    rintro _ _ ⟨rfl,rfl⟩
    exact ends_pure rfl
  | succ n =>
    refine ends_bind tried ?_
    rintro _ _ ⟨rfl,rfl⟩
    exact ends_pure rfl

def firstWrite (card : Card) (data : Block) (block : Nat) : Request :=
  let filled := Request.fill ⟨card,uioKinit data blockSize (block*blockSize) true⟩
  {filled with card := filled.card.operate block true}

lemma ends_firstWrite (lt : block < card.dBlocks) (word : card.dBlocks < 2^32) :
    Ends (lhdIo ⟨card,uioKinit data blockSize (block*blockSize) true⟩)
      (fun _ t => t = firstWrite card data block ∧ card.media card.operations = none)
      (Errs fun errno t => errno = .eio ∧ t = firstWrite card data block ∧ card.media card.operations ≠ none) := by
  refine ends_lhdIo_one rfl rfl lt word (ends_bind_get ?_)
  refine ends_bind (Q := fun _ t => t = Request.fill ⟨card,uioKinit data blockSize (block*blockSize) true⟩)
    (ends_perform (fun _ => ends_modify rfl) fun read => Bool.noConfusion read) ?_
  rintro _ _ rfl
  refine ends_bind (Q := fun _ t => t = firstWrite card data block ∧ card.media card.operations = none)
    (ends_bind_get (ends_bind_set ?_)) fun _ _ done => done
  change Ends ((match card.media card.operations with | none => pure ⟨⟩ | some _ => fail .eio : LhdOp PUnit) _) _ _
  cases ran : card.media card.operations with
  | none => exact ends_pure ⟨rfl,rfl⟩
  | some left => exact ends_fail ⟨rfl,rfl,some_ne_none left⟩

lemma operate_dBlocks {sector : Nat} {write : Bool} : (card.operate sector write).dBlocks = card.dBlocks := by
  unfold Card.operate
  split
  · rfl
  · rfl
  · rfl
  · rfl

lemma ends_wblock (lt : block < card.dBlocks) (word : card.dBlocks < 2^32) :
    Ends (sfsWblock data block card) (fun _ t => t = firstWrite card data block) E := by
  refine ends_bind (ends_attempt (ends_firstWrite lt word) (Q := fun res t =>
    t = firstWrite card data block ∧ (res = .ok ⟨⟩ ∨ res = .error .eio))
    (fun _ _ done => ⟨done.1,.inl rfl⟩) fun errno _ bad => ⟨bad.2.1,.inr (by rw [bad.1])⟩) ?_
  rintro _ _ ⟨rfl,rfl | rfl⟩
  · exact ends_pure rfl
  change Ends (sfsRwblock 9 (firstWrite card data block)) _ _
  have eq : (firstWrite card data block).card.dBlocks = card.dBlocks := operate_dBlocks
  rw [←eq] at lt word
  have offset : (firstWrite card data block).uio.offset = (block+1)*blockSize := by
    change block*blockSize+min sectSize blockSize = (block+1)*blockSize
    exact (Nat.succ_mul ..).symm
  have resid : (firstWrite card data block).uio.resid = 0 := by
    change blockSize-min sectSize blockSize = 0
    decide
  generalize firstWrite card data block = r at *
  exact ends_rwblock_none offset resid lt word

lemma operate_write : (card.operate block true).sectors = update card.sectors block
      ((card.media card.operations).getD card.buf) ∧
    (card.operate block true).completed = match card.media card.operations with
      | none => (block,card.buf) :: card.completed
      | some _ => card.completed := by
  unfold Card.operate
  cases card.media card.operations with
  | none => exact ⟨rfl,rfl⟩
  | some left => exact ⟨rfl,rfl⟩

theorem write_happened_iff (inside : block < card.dBlocks) (word : card.dBlocks < 2^32) :
    ∃ after, sfsWblock data block card = .ok ⟨⟩ after ∧
      (((∀ k, k < 512 → after.card.sectors block k = data k) ∧
        ∃ sector, after.card.completed = (block,sector) :: card.completed ∧ ∀ k, k < 512 → sector k = data k) ↔
        card.media card.operations = none) := by
  have ends : Ends (sfsWblock data block card) _ fun _ _ => False := ends_wblock inside word
  cases wrote : sfsWblock data block card with
  | error e after => exact (ends.failed wrote).elim
  | ok _ after =>
    cases ends.ok wrote
    obtain ⟨sectors,completed⟩ := operate_write
    have filled : ∀ k, k < 512 →
        (Request.fill ⟨card,uioKinit data blockSize (block*blockSize) true⟩).card.buf k = data k := by
      intro k small
      change splice card.buf 0 (min sectSize blockSize) data 0 k = data k
      rw [splice,if_pos ⟨Nat.zero_le k,by rw [Nat.zero_add]; exact small⟩,Nat.zero_add,Nat.sub_zero]
    refine ⟨_,rfl,fun happened => ?_,fun first => ?_⟩
    · obtain ⟨_,sector,logged,_⟩ := happened
      cases first : card.media card.operations with
      | none => rfl
      | some left =>
        -- No write has been completed then.
        have same := completed.symm.trans logged
        change (match card.media card.operations with
          | none => _
          | some _ => card.completed) = (block,sector) :: card.completed at same
        rw [first] at same
        exact absurd (congrArg List.length same) (ne_of_lt (Nat.lt_succ_self _))
    have there : (Request.fill ⟨card,uioKinit data blockSize (block*blockSize) true⟩).card.media
        (Request.fill ⟨card,uioKinit data blockSize (block*blockSize) true⟩).card.operations = none := first
    rw [there] at sectors completed
    refine ⟨fun k small => ?_,_,completed,filled⟩
    rw [show (firstWrite card data block).card.sectors = _ from sectors,update_self]
    exact filled k small

theorem write_happened_first : ∃ after,
    sfsWblock (fun _ => 7) 3 ⟨fun _ => zeros,16,zeros,fun _ => none,0,[]⟩ = .ok ⟨⟩ after ∧
      ∀ k, k < 512 → after.card.sectors 3 k = 7 := by
  obtain ⟨after,wrote,happened⟩ := write_happened_iff
    (show 3 < (⟨fun _ => zeros,16,zeros,fun _ => none,0,[]⟩ : Card).dBlocks by decide) (by decide)
  exact ⟨after,wrote,(happened.mpr rfl).1⟩

def onceBroken : Card := ⟨fun _ => zeros,16,zeros,fun n => if n = 0 then some zeros else none,0,[]⟩

theorem failed_write_reported : ∃ after, sfsWblock (fun _ => 7) 3 onceBroken = .ok ⟨⟩ after ∧
    after.card.sectors 3 0 = 0 ∧ after.card.completed = [] := by
  have ran : (match sfsWblock (fun _ => 7) 3 onceBroken with
      | .ok _ after => some (after.card.sectors 3 0,after.card.completed.isEmpty)
      | .error _ _ => none) = some (0,true) := by decide +kernel
  cases wrote : sfsWblock (fun _ => 7) 3 onceBroken with
  | error e after =>
    rw [wrote] at ran
    cases ran
  | ok _ after =>
    rw [wrote] at ran
    simp only [some.injEq,Prod.mk.injEq,List.isEmpty_iff] at ran
    exact ⟨after,rfl,ran⟩
end ToyOS.Lhd

import Mathlib

namespace ToyOS.ByteSwap

def bswap16 (val : BitVec 16) : BitVec 16 := (val &&& 0x00ff) <<< 8 ||| (val &&& 0xff00) >>> 8

def bswap32 (val : BitVec 32) : BitVec 32 :=
  (val &&& 0x000000ff) <<< 24 ||| (val &&& 0x0000ff00) <<< 8 |||
  (val &&& 0x00ff0000) >>> 8 ||| (val &&& 0xff000000) >>> 24

def bswap64 (val : BitVec 64) : BitVec 64 :=
  (val &&& 0x00000000000000ff) <<< 56 ||| (val &&& 0x000000000000ff00) <<< 40 |||
  (val &&& 0x0000000000ff0000) <<< 24 ||| (val &&& 0x00000000ff000000) <<< 8 |||
  (val &&& 0x000000ff00000000) <<< 8 ||| (val &&& 0x0000ff0000000000) <<< 24 |||
  (val &&& 0x00ff000000000000) >>> 40 ||| (val &&& 0xff00000000000000) >>> 56

-- The machine is big-endian.
def join32to64 (x1 x2 : BitVec 32) : BitVec 64 := x1.zeroExtend 64 <<< 32 ||| x2.zeroExtend 64

-- Byte `k`, from the least significant one on.
def byte (k : Nat) (v : BitVec w) : BitVec 8 := v.extractLsb' (8*k) 8

def Reverses (v r : BitVec w) : Prop := ∀ k < w/8, byte k r = byte (w/8-1-k) v

lemma byte_ext {u v : BitVec w} (whole : w % 8 = 0) (same : ∀ k < w/8, byte k u = byte k v) : u = v := by
  apply BitVec.eq_of_getLsbD_eq
  intro i inside
  have bit := congrArg (BitVec.getLsbD · (i % 8)) (same (i/8) (by omega))
  simpa [byte,Nat.mod_lt,Nat.div_add_mod] using bit

lemma Reverses.twice {u v r : BitVec w} (whole : w % 8 = 0) (one : Reverses v r) (two : Reverses r u) : u = v := by
  refine byte_ext whole fun k inside => ?_
  rw [two k inside,one _ (by omega)]
  congr 1
  omega

lemma Reverses.unique {u v r : BitVec w} (whole : w % 8 = 0) (one : Reverses v r) (two : Reverses v u) : r = u :=
  byte_ext whole fun k inside => (one k inside).trans (two k inside).symm

lemma bswap16_reverses (v : BitVec 16) : Reverses v (bswap16 v) := by
  intro k inside
  apply BitVec.eq_of_getLsbD_eq
  intro i bit
  interval_cases k <;> interval_cases i <;> simp [byte,bswap16]

lemma bswap32_reverses (v : BitVec 32) : Reverses v (bswap32 v) := by
  intro k inside
  apply BitVec.eq_of_getLsbD_eq
  intro i bit
  interval_cases k <;> interval_cases i <;> simp [byte,bswap32]

-- Bytes 4 and 5 are moved up where they should come down.
def misplaced (v : BitVec 64) : Nat → BitVec 8
  | 2 => 0
  | 3 => 0
  | 5 => byte 2 v ||| byte 4 v
  | k => byte (7-k) v

lemma byte_bswap64 (v : BitVec 64) (inside : k < 8) : byte k (bswap64 v) = misplaced v k := by
  apply BitVec.eq_of_getLsbD_eq
  intro i bit
  interval_cases k <;> interval_cases i <;> simp [byte,bswap64,misplaced]

lemma byte_join32to64 (a b : BitVec 32) (inside : k < 8) :
    byte k (join32to64 a b) = if k < 4 then byte k b else byte (k-4) a := by
  apply BitVec.eq_of_getLsbD_eq
  intro i bit
  interval_cases k <;> interval_cases i <;> simp [byte,join32to64]

lemma bswap64_reverses_iff (v : BitVec 64) : Reverses v (bswap64 v) ↔ byte 4 v = 0 ∧ byte 5 v = 0 := by
  constructor
  · intro all
    exact ⟨(all 3 (by decide)).symm.trans (byte_bswap64 v (by decide)),
      (all 2 (by decide)).symm.trans (byte_bswap64 v (by decide))⟩
  rintro ⟨four,five⟩ k inside
  rw [byte_bswap64 v inside]
  interval_cases k <;> simp [misplaced,four,five]

lemma join32to64_reverses (a b : BitVec 32) : Reverses (join32to64 a b) (join32to64 (bswap32 b) (bswap32 a)) := by
  intro k inside
  rw [byte_join32to64 _ _ inside,byte_join32to64 _ _ (by omega)]
  by_cases low : k < 4
  · rw [if_pos low,if_neg (by omega),bswap32_reverses a k low]
    congr 1
    omega
  rw [if_neg low,if_pos (by omega),bswap32_reverses b (k-4) (by omega)]
  congr 1
  omega

lemma bswap64_twice_iff (v : BitVec 64) :
    bswap64 (bswap64 v) = v ↔ byte 2 v = 0 ∧ byte 3 v = 0 ∧ byte 4 v = 0 ∧ byte 5 v = 0 := by
  have twice k (inside : k < 8) : byte k (bswap64 (bswap64 v)) = misplaced (bswap64 v) k := byte_bswap64 _ inside
  have fifth : misplaced (bswap64 v) 5 = byte 3 v := by simp [misplaced,byte_bswap64]
  constructor
  · intro same
    rw [same] at twice
    have third : byte 3 v = 0 := twice 3 (by decide)
    have fourth : byte 4 v = byte 3 (bswap64 v) := twice 4 (by decide)
    rw [byte_bswap64 v (by decide)] at fourth
    exact ⟨twice 2 (by decide),third,fourth,(twice 5 (by decide)).trans (fifth.trans third)⟩
  rintro ⟨two,three,four,five⟩
  refine byte_ext rfl fun k inside => ?_
  rw [twice k inside]
  interval_cases k <;> simp [misplaced,byte_bswap64,two,three,four,five]

theorem bswap_laws (x : BitVec 16) (y a b : BitVec 32) (v : BitVec 64) :
    (Reverses x (bswap16 x) ∧ bswap16 (bswap16 x) = x) ∧ (Reverses y (bswap32 y) ∧ bswap32 (bswap32 y) = y) ∧
    (Reverses v (bswap64 v) ↔ byte 4 v = 0 ∧ byte 5 v = 0) ∧
    (bswap64 (bswap64 v) = v ↔ byte 2 v = 0 ∧ byte 3 v = 0 ∧ byte 4 v = 0 ∧ byte 5 v = 0) ∧
    (bswap64 (join32to64 a b) = join32to64 (bswap32 b) (bswap32 a) ↔ byte 0 a = 0 ∧ byte 1 a = 0) := by
  refine ⟨⟨bswap16_reverses x,(bswap16_reverses x).twice rfl (bswap16_reverses _)⟩,
    ⟨bswap32_reverses y,(bswap32_reverses y).twice rfl (bswap32_reverses _)⟩,bswap64_reverses_iff v,
    bswap64_twice_iff v,?_⟩
  have law := join32to64_reverses a b
  have words := bswap64_reverses_iff (join32to64 a b)
  rw [byte_join32to64 a b (by decide),byte_join32to64 a b (by decide),if_neg (by decide),if_neg (by decide)] at words
  refine ⟨fun same => words.mp ?_,fun low => (words.mpr low).unique rfl law⟩
  rw [same]
  exact law

theorem bswap64_misplaces : bswap64 0x100000000 = 0x10000000000 ∧
    byte 3 (bswap64 0x100000000) ≠ byte 4 (0x100000000 : BitVec 64) := by
  decide +kernel
end ToyOS.ByteSwap

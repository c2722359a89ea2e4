import Mathlib

namespace ToyOS.Words

def wordAt (bytes : Nat → UInt8) (k : Nat) : BitVec 32 :=
  (bytes k).toBitVec++(bytes (k+1)).toBitVec++(bytes (k+2)).toBitVec++(bytes (k+3)).toBitVec

def wordByte (w : BitVec 32) (k : Nat) : UInt8 := ⟨w.extractLsb' (24-8*k) 8⟩
def fromWords (words : Nat → BitVec 32) (k : Nat) : UInt8 := wordByte (words (k/4)) (k % 4)

lemma wordAt_moved {bytes other : Nat → UInt8} (eq : ∀ j < 4, bytes (k+j) = other (m+j)) :
    wordAt bytes k = wordAt other m := by
  have one : bytes k = other m := eq 0 (by decide)
  rw [wordAt,wordAt,one,eq 1 (by decide),eq 2 (by decide),eq 3 (by decide)]

lemma wordAt_congr {bytes other : Nat → UInt8} (eq : ∀ j, k ≤ j → j < k+4 → bytes j = other j) :
    wordAt bytes k = wordAt other k :=
  wordAt_moved fun j lt => eq (k+j) (Nat.le_add_right ..) (Nat.add_lt_add_left lt k)

lemma wordAt_zero (k : Nat) : wordAt (fun _ => 0) k = 0 := by
  change (0#8++0#8++0#8++0#8 : BitVec 32) = 0
  decide

lemma extracted_bytes (w : BitVec 32) :
    (w.extractLsb' 24 8++w.extractLsb' 16 8++w.extractLsb' 8 8++w.extractLsb' 0 8 : BitVec 32) = w := by
  rw [BitVec.extractLsb'_append_extractLsb'_eq_extractLsb' (show 24 = 16+8 from rfl),
    BitVec.extractLsb'_append_extractLsb'_eq_extractLsb' (show 16 = 8+8 from rfl),
    BitVec.extractLsb'_append_extractLsb'_eq_extractLsb' (show 8 = 0+8 from rfl)]
  exact BitVec.extractLsb'_eq_self

lemma wordAt_fromWords (words : Nat → BitVec 32) (k : Nat) : wordAt (fromWords words) (4*k) = words k := by
  have quotient : ∀ j < 4, (4*k+j)/4 = k := by omega
  have remainder : ∀ j < 4, (4*k+j) % 4 = j := by omega
  have byte : ∀ j < 4, fromWords words (4*k+j) = wordByte (words k) j := by
    intro j small
    rw [fromWords,quotient j small,remainder j small]
  rw [wordAt,byte 1 (by omega),byte 2 (by omega),byte 3 (by omega),show 4*k = 4*k+0 from rfl,byte 0 (by omega)]
  exact extracted_bytes (words k)

lemma wordAt_wordByte {bytes : Nat → UInt8} (eq : ∀ j < 4, bytes (k+j) = wordByte w j) : wordAt bytes k = w := by
  have moved : wordAt bytes k = wordAt (fromWords fun _ => w) 0 := by
    refine wordAt_moved fun j lt => ?_
    have quotient : (0+j) % 4 = j := by omega
    rw [eq j lt,fromWords,quotient]
  rw [moved]
  exact wordAt_fromWords (fun _ => w) 0

def fromBits (bits : Nat → Bool) (k : Nat) : UInt8 :=
  UInt8.ofNat (Nat.ofBits fun j : Fin 8 => bits (8*k+j))

def bitAt (bytes : Nat → UInt8) (b : Nat) : Bool := (bytes (b/8)).toNat.testBit (b % 8)

lemma bitAt_fromBits (bits : Nat → Bool) (b : Nat) : bitAt (fromBits bits) b = bits b := by
  have lt : b % 8 < 8 := Nat.mod_lt _ (by decide)
  have byte : Nat.ofBits (fun j : Fin 8 => bits (8*(b/8)+j)) < 2^8 := Nat.ofBits_lt_two_pow _
  rw [bitAt,fromBits,UInt8.toNat_ofNat_of_lt' byte,Nat.testBit_ofBits_lt _ _ lt]
  exact congrArg bits (Nat.div_add_mod b 8)
end ToyOS.Words

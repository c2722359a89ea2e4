import Mathlib

namespace ToyOS.WaitStatus

def wwhat (x : BitVec 32) : BitVec 32 := x &&& 3
def wval (x : BitVec 32) : BitVec 32 := x.sshiftRight 2
def mkwval (x : BitVec 32) : BitVec 32 := x <<< 2
def wexited : BitVec 32 := 0
def wifexited (x : BitVec 32) : Bool := wwhat x == wexited
def wexitstatus (x : BitVec 32) : BitVec 32 := wval x
def mkwaitExit (x : BitVec 32) : BitVec 32 := mkwval x ||| wexited

lemma mkwaitExit_exited (x : BitVec 32) : wifexited (mkwaitExit x) := by
  have low : x <<< 2 &&& 3#32 = 0#32 := by
    apply BitVec.eq_of_toNat_eq
    have mask := Nat.and_two_pow_sub_one_eq_mod (x <<< 2).toNat 2
    have shifted : (x <<< 2).toNat = x.toNat*4 % 2^32 := by rw [BitVec.toNat_shiftLeft,Nat.shiftLeft_eq]
    change (x <<< 2).toNat &&& 2^2-1 = 0
    omega
  simp [wifexited,wwhat,mkwaitExit,mkwval,wexited,low]

lemma mkwaitExit_status (low : -2^29 ≤ e) (high : e < 2^29) :
    (wexitstatus (mkwaitExit (BitVec.ofInt 32 e))).toInt = e := by
  have shifted : mkwaitExit (BitVec.ofInt 32 e) = BitVec.ofInt 32 (e*4) := by
    rw [BitVec.ofInt_mul]
    change BitVec.ofInt 32 e <<< 2 ||| 0#32 = _
    rw [BitVec.or_zero,BitVec.shiftLeft_eq_mul_twoPow]
    rfl
  have exact : (BitVec.ofInt 32 (e*4)).toInt = e*4 := BitVec.toInt_ofInt_eq_self (by decide) (by omega) (by omega)
  rw [shifted,wexitstatus,wval,BitVec.toInt_sshiftRight,exact,Int.shiftRight_eq_div_pow]
  omega
end ToyOS.WaitStatus

import Mathlib.Data.UInt
import Mathlib.Tactic.Ring

/-!
# Serial numbers

Positions in an unbounded stream, numbered modulo `2 ^ 32` from an arbitrary base. A difference of
two numbers read as a signed word orders the positions, as long as they are less than `2 ^ 31`
apart.
-/

namespace Serial

open UInt32

/-- `seq.wrapping_sub(other) as i32` -/
def distance (seq other : UInt32) : Int := (seq - other).toInt32.toInt

/-- The number of position `n`. -/
def number (base : UInt32) (n : Nat) : UInt32 := base + ofNat n

variable {base : UInt32} {a b n : Nat}

@[simp] theorem number_zero : number base 0 = base := by simp [number]

theorem number_add : number base a + ofNat n = number base (a + n) := by
  rw [number, number, ofNat_add, add_assoc]

theorem toNat_number : (number base a).toNat = (base.toNat + a) % 2 ^ 32 := by
  simp [number]

/-- The way from one position forward to another. -/
theorem toNat_number_sub (hle : b ≤ a) (hlt : a - b < 2 ^ 32) :
    (number base a - number base b).toNat = a - b := by
  rw [UInt32.toNat_sub, toNat_number, toNat_number]
  omega

/-- Positions with one number are the same if they are less than `2 ^ 32` apart. -/
theorem number_inj (h : number base a = number base b) (hab : a < b + 2 ^ 32)
    (hba : b < a + 2 ^ 32) : a = b := by
  have hnat := congrArg toNat h
  rw [toNat_number, toNat_number] at hnat
  omega

theorem toInt_toInt32 (x : UInt32) :
    x.toInt32.toInt = if x.toNat < 2 ^ 31 then (x.toNat : Int) else (x.toNat : Int) - 2 ^ 32 := by
  have hcond : x.toInt32.toInt = x.toBitVec.toInt := rfl
  have hnat : x.toBitVec.toNat = x.toNat := rfl
  rw [hcond, BitVec.toInt_eq_toNat_cond]
  split <;> split <;> omega

theorem distance_number (hab : a < b + 2 ^ 31) (hba : b < a + 2 ^ 31) :
    distance (number base a) (number base b) = (a : Int) - b := by
  rw [distance, toInt_toInt32, UInt32.toNat_sub, toNat_number, toNat_number]
  split <;> omega

end Serial

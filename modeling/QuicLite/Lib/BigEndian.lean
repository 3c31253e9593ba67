import Mathlib.Tactic.Ring

/-!
# Big-endian byte strings

Fixed-width integers written most significant byte first, read back by the usual shift-and-or
loop. The reader takes its leading digits separately, since in a self-delimiting format the first
byte also carries a length tag that has to be masked off before the loop starts.
-/

namespace BigEndian

open List Nat

/-- The `n` low bytes of `v`, most significant first: `out[i] = (v >> 8 * (n - i - 1)) as u8`. -/
def toBytes : Nat → Nat → List UInt8
  | 0, _ => []
  | n + 1, v => UInt8.ofNat (v >>> (8 * n)) :: toBytes n v

/-- `for b in bytes { value = (value << 8) | b }`, starting from `value`. -/
def ofBytes (value : Nat) (bytes : List UInt8) : Nat :=
  bytes.foldl (fun acc b => (acc <<< 8) ||| b.toNat) value

@[simp] theorem length_toBytes (n v : Nat) : (toBytes n v).length = n := by
  induction n with
  | zero => rfl
  | succ n ih => simp [toBytes, ih]

theorem shift_or (acc : Nat) (b : UInt8) : (acc <<< 8) ||| b.toNat = acc * 256 + b.toNat := by
  rw [← shiftLeft_add_eq_or_of_lt b.toNat_lt, shiftLeft_eq]

variable (value : Nat)

@[simp] theorem ofBytes_nil : ofBytes value [] = value := rfl

theorem ofBytes_cons (b : UInt8) (bs : List UInt8) :
    ofBytes value (b :: bs) = ofBytes (value * 256 + b.toNat) bs := by
  rw [ofBytes, foldl_cons, shift_or, ofBytes]

theorem toNat_ofNat_shiftRight (v n : Nat) :
    (UInt8.ofNat (v >>> (8 * n))).toNat = v / 256 ^ n % 256 := by
  rw [UInt8.toNat_ofNat', Nat.shiftRight_eq_div_pow, Nat.pow_mul]

/-- Reading back the `n` low bytes appends them, as one base-`256 ^ n` digit. -/
theorem ofBytes_toBytes (n value v : Nat) :
    ofBytes value (toBytes n v) = value * 256 ^ n + v % 256 ^ n := by
  induction n generalizing value with
  | zero => simp [toBytes, mod_one]
  | succ n ih =>
    rw [toBytes, ofBytes_cons, ih, toNat_ofNat_shiftRight, pow_succ, mod_mul]
    ring

variable (bs : List UInt8)

/-- The reader's value stays below the next multiple of `256 ^ length`. -/
theorem ofBytes_lt : ofBytes value bs < (value + 1) * 256 ^ bs.length := by
  induction bs generalizing value with
  | nil => simp
  | cons b bs ih =>
    have hb : b.toNat < 256 := b.toNat_lt
    have hle : value * 256 + b.toNat + 1 ≤ (value + 1) * 256 := by omega
    rw [ofBytes_cons]
    calc ofBytes (value * 256 + b.toNat) bs
        < (value * 256 + b.toNat + 1) * 256 ^ bs.length := ih _
      _ ≤ (value + 1) * 256 * 256 ^ bs.length := mul_le_mul_right _ hle
      _ = (value + 1) * 256 ^ (b :: bs).length := by rw [length_cons]; ring

/-- The leading digits come first. -/
theorem ofBytes_eq : ofBytes value bs = value * 256 ^ bs.length + ofBytes 0 bs := by
  induction bs generalizing value with
  | nil => simp
  | cons b bs ih =>
    rw [ofBytes_cons, ih, ofBytes_cons 0, ih (0 * 256 + b.toNat), length_cons]
    ring

theorem ofBytes_shiftRight : ofBytes value bs >>> (8 * bs.length) = value := by
  have hlt : ofBytes 0 bs < 256 ^ bs.length := by simpa using ofBytes_lt 0 bs
  have hpos : 256 ^ bs.length > 0 := Nat.pow_pos (by decide)
  rw [Nat.shiftRight_eq_div_pow, Nat.pow_mul, ofBytes_eq, Nat.mul_comm, Nat.mul_add_div hpos,
    Nat.div_eq_of_lt hlt, Nat.add_zero]

/-- Writing what was read gives the bytes back. -/
theorem toBytes_ofBytes : toBytes bs.length (ofBytes value bs) = bs := by
  induction bs generalizing value with
  | nil => rfl
  | cons b bs ih =>
    rw [length_cons, toBytes, ofBytes_cons, ih, ofBytes_shiftRight]
    congr 1
    apply UInt8.toNat_inj.mp
    rw [UInt8.toNat_ofNat']
    have := b.toNat_lt
    omega

/-- A number that fits is recovered from its head byte followed by the rest. -/
theorem ofBytes_head (n v : Nat) (h : v < 256 ^ (n + 1)) :
    ofBytes (UInt8.ofNat (v >>> (8 * n))).toNat (toBytes n v) = v := by
  have hdiv : v / 256 ^ n < 256 := by
    rw [Nat.div_lt_iff_lt_mul (Nat.pow_pos (by decide)), ← Nat.pow_succ']
    exact h
  rw [ofBytes_toBytes, toNat_ofNat_shiftRight, Nat.mod_eq_of_lt hdiv, Nat.mul_comm, Nat.div_add_mod]

/-- The head byte of a number with only `k` bits beyond its `n` low bytes has `k` bits. -/
theorem head_lt (n k v : Nat) (h : v < 2 ^ (8 * n + k)) :
    (UInt8.ofNat (v >>> (8 * n))).toNat < 2 ^ k := by
  rw [toNat_ofNat_shiftRight]
  refine (Nat.mod_le _ _).trans_lt ?_
  rw [Nat.div_lt_iff_lt_mul (Nat.pow_pos (by decide))]
  calc v < 2 ^ (8 * n + k) := h
    _ = 2 ^ k * 256 ^ n := by rw [Nat.pow_add, Nat.pow_mul, Nat.mul_comm]

end BigEndian

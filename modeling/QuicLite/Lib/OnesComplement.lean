import Mathlib.Data.UInt
import Mathlib.Tactic.Ring

/-!
# One's-complement sums

The Internet checksum: a byte string is read as big-endian 16-bit words, the words are added with
end-around carry, and the complement of the sum is stored in a field that was zero. Adding it to the
sum then gives all ones.
-/

namespace OnesComplement

open List Nat

/-- The sum of the words; an odd last byte is the high half of a word. -/
def sum : List UInt8 → Nat
  | [] => 0
  | [a] => a.toNat * 256
  | a :: b :: rest => a.toNat * 256 + b.toNat + sum rest

/-- Whole words in front add up on their own. -/
theorem sum_append {l : List UInt8} (h : l.length % 2 = 0) (m : List UInt8) :
    sum (l ++ m) = sum l + sum m := by
  induction l using sum.induct with
  | case1 => simp [sum]
  | case2 a => simp at h
  | case3 a b rest ih =>
    have hrest : rest.length % 2 = 0 := by
      simp only [length_cons] at h
      omega
    simp only [cons_append, sum]
    omega

theorem sum_le (l : List UInt8) : sum l ≤ 65535 * ((l.length + 1) / 2) := by
  induction l using sum.induct with
  | case1 => simp [sum]
  | case2 a =>
    have := a.toNat_lt
    simp only [sum, length_singleton]
    omega
  | case3 a b rest ih =>
    have ha := a.toNat_lt
    have hb := b.toNat_lt
    simp only [sum, length_cons]
    omega

/-- The words of a beginning are part of the words. -/
theorem sum_take_le (l : List UInt8) (n : Nat) : sum (l.take n) ≤ sum l := by
  induction l using sum.induct generalizing n with
  | case1 => simp
  | case2 a =>
    cases n with
    | zero => simp [sum]
    | succ n => simp
  | case3 a b rest ih =>
    cases n with
    | zero => simp [sum]
    | succ n =>
    cases n with
    | zero =>
      simp only [take_succ_cons, take_zero, sum]
      omega
    | succ n =>
      have := ih n
      simp only [take_succ_cons, sum]
      omega

/-- `while sum >> 16 != 0 { sum = (sum & 0xffff) + (sum >> 16) }`. Every turn makes the sum smaller,
so `sum` turns always suffice. -/
def carry : Nat → Nat → Nat
  | 0, sum => sum
  | fuel + 1, sum => if sum >>> 16 ≠ 0 then carry fuel ((sum &&& 0xffff) + (sum >>> 16)) else sum

theorem turn_eq (s : Nat) : (s &&& 0xffff) + (s >>> 16) = s % 65536 + s / 65536 := by
  rw [show (0xffff : Nat) = 2 ^ 16 - 1 from rfl, and_two_pow_sub_one_eq_mod, shiftRight_eq_div_pow]

/-- The carries keep the sum modulo `2 ^ 16 - 1`, and only a zero sum becomes zero. -/
theorem carry_spec {fuel s : Nat} (h : s ≤ fuel) :
    carry fuel s < 65536 ∧ carry fuel s % 65535 = s % 65535 ∧ (0 < s → 0 < carry fuel s) := by
  induction fuel generalizing s with
  | zero =>
    obtain rfl : s = 0 := le_zero.mp h
    exact ⟨by decide, rfl, by simp⟩
  | succ fuel ih =>
    unfold carry
    rw [turn_eq, shiftRight_eq_div_pow]
    split
    · next hcarry =>
        have hless : s % 65536 + s / 65536 ≤ fuel := by omega
        obtain ⟨hlt, hmod, hpos⟩ := ih hless
        exact ⟨hlt, by omega, fun _ => hpos (by omega)⟩
    · next hdone =>
        exact ⟨by omega, rfl, id⟩

/-- The sum with its complement is all ones. -/
theorem carry_complement (s : Nat) : carry (s + (65535 - carry s s))
    (s + (65535 - carry s s)) = 65535 := by
  obtain ⟨hlt, hmod, hpos⟩ := carry_spec (le_refl s)
  obtain ⟨hlt', hmod', hpos'⟩ := carry_spec (Nat.le_refl (s + (65535 - carry s s)))
  have hmore : 0 < s + (65535 - carry s s) := by
    rcases Nat.eq_zero_or_pos s with rfl | h
    · decide
    · omega
  omega

end OnesComplement

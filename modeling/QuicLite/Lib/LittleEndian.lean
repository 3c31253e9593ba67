import Mathlib.Data.Nat.Digits.Lemmas

/-!
# Little-endian byte strings

Numbers as byte strings with the least significant byte first: the value of a string of any length,
the shortest string of a number, and the string of a fixed width, which cuts what does not fit and
fills up with zeros.
-/

namespace LittleEndian

open List Nat

/-- A byte string of one width. -/
abbrev Fixed (width : Nat) := { bytes : List UInt8 // bytes.length = width }

def value (bytes : List UInt8) : Nat := Nat.ofDigits 256 (bytes.map UInt8.toNat)

/-- The shortest string of a number. Zero has one byte. -/
def shortest (n : Nat) : List UInt8 := if n = 0 then [0] else (Nat.digits 256 n).map UInt8.ofNat

theorem length_filled (width : Nat) (bytes : List UInt8) :
    ((bytes ++ replicate width 0).take width).length = width := by
  rw [length_take, length_append, length_replicate]
  omega

/-- A byte string cut or filled up with zeros to one width. -/
def fill (width : Nat) (bytes : List UInt8) : Fixed width :=
  ⟨(bytes ++ List.replicate width 0).take width, length_filled width bytes⟩

def fixed (width n : Nat) : Fixed width := fill width (shortest n)

variable {width n : Nat} {bytes : List UInt8}

theorem value_lt (bytes : List UInt8) : value bytes < 256 ^ bytes.length := by
  have h := ofDigits_lt_base_pow_length (b := 256) (l := bytes.map UInt8.toNat) (by omega) ?_
  · rwa [length_map] at h
  intro digit hdigit
  obtain ⟨byte, -, rfl⟩ := mem_map.mp hdigit
  exact byte.toNat_lt

theorem value_append_zeros (bytes : List UInt8) (n : Nat) :
    value (bytes ++ replicate n 0) = value bytes := by
  rw [value, map_append, map_replicate]
  exact ofDigits_append_replicate_zero _

theorem value_shortest (n : Nat) : value (shortest n) = n := by
  rw [shortest]
  split
  · rename_i hzero
    rw [hzero]
    rfl
  rw [value, map_map]
  have hdigits : (digits 256 n).map (UInt8.toNat ∘ UInt8.ofNat) = digits 256 n := by
    refine (map_congr_left fun digit hdigit => ?_).trans (map_id _)
    exact mod_eq_of_lt (digits_lt_base (by omega) hdigit)
  rw [hdigits, ofDigits_digits]

theorem length_shortest_le (hwidth : 0 < width) (h : n < 256 ^ width) :
    (shortest n).length ≤ width := by
  rw [shortest]
  split
  · exact hwidth
  · rw [length_map]
    exact (digits_length_le_iff (by omega) n).mpr h

theorem value_fill (h : bytes.length ≤ width) : value (fill width bytes).val = value bytes := by
  have hfill : (fill width bytes).val = bytes ++ replicate (width - bytes.length) 0 := by
    show (bytes ++ replicate width 0).take width = _
    rw [take_append, take_of_length_le h, take_replicate, min_eq_left (sub_le _ _)]
  rw [hfill, value_append_zeros]

/-- A number that fits is read back. -/
theorem value_fixed (hwidth : 0 < width) (h : n < 256 ^ width) : value (fixed width n).val = n := by
  rw [fixed, value_fill (length_shortest_le hwidth h), value_shortest]

end LittleEndian

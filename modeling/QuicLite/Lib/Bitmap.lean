import Mathlib.Algebra.Order.Ring.Nat

/-!
# Bitmaps stored in 64-bit words

Bit `i` of a bitmap is bit `i % 64` of word `i / 64`. Runs of bits are set with one mask per word,
and the first or last bit with some property is found by skipping words that are masked to zero.
Each operation is described by what it does to single bits.
-/

namespace Bitmap

open List Option Nat

variable {k : Nat} {index j : Nat} {value : Bool}

abbrev Word := BitVec 64

/-- Words missing at the end read as zero. -/
def word (words : List Word) (index : Nat) : Word := words.getD index 0

def bit (words : List Word) (i : Nat) : Bool := (word words (i / 64)).getLsbD (i % 64)

/-- Bits `low` to `high` of a word. -/
def mask (low high : Nat) : Word :=
  (BitVec.allOnes 64 <<< low) &&& (BitVec.allOnes 64 >>> (63 - high))

/-- The part of word `index` that lies in `[start, stop)`. -/
def window (start stop index : Nat) : Word :=
  mask (if index = start / 64 then start % 64 else 0) (if index = (stop - 1) / 64 then
    (stop - 1) % 64 else 63)

/-- Set the bits of `[start, stop)`. -/
def setRange (words : List Word) (start stop : Nat) : List Word :=
  words.mapIdx fun index w =>
    if start / 64 ≤ index ∧ index ≤ (stop - 1) / 64 then w ||| window start stop index else w

def trailingZeros (w : Word) : Nat := ((range 64).find? fun i => w.getLsbD i).getD 64

def leadingZeros (w : Word) : Nat := ((range 64).find? fun i => w.getLsbD (63 - i)).getD 64

/-- The indices of the words that meet `[start, stop)`. -/
def wordsOf (start stop : Nat) : List Nat :=
  range' (start / 64) ((stop - 1) / 64 + 1 - start / 64)

/-- Word `index` of the bits equal to `value`. -/
def select (words : List Word) (value : Bool) (index : Nat) : Word :=
  if value then word words index else ~~~(word words index)

/-- The first bit of `[start, stop)` equal to `value`. -/
def firstBit (words : List Word) (start stop : Nat) (value : Bool) : Option Nat :=
  if stop ≤ start then none
  else
    (wordsOf start stop).findSome? fun index =>
      let bits := select words value index &&& window start stop index
      if bits ≠ 0 then some (index * 64 + trailingZeros bits) else none

/-- The first clear bit of `[start, stop)`, and one past the last one. -/
def clearBounds (words : List Word) (start stop : Nat) : Option (Nat × Nat) :=
  if stop ≤ start then none
  else
    let live := fun index => ~~~(word words index) &&& window start stop index
    match (wordsOf start stop).find? fun index => live index != 0 with
    | none => none
    | some first =>
      match (range' first ((stop - 1) / 64 + 1 - first)).reverse.find? fun index =>
        live index != 0 with
      | none => none
      | some last =>
        some (first * 64 + trailingZeros (live first), last * 64 + 64 - leadingZeros (live last))

/-! ## Single bits -/

section Words

variable {w : Word} {low high i start stop index : Nat}

theorem getLsbD_mask (hhigh : high < 64) :
    (mask low high).getLsbD i = decide (low ≤ i ∧ i ≤ high) := by
  simp only [mask, BitVec.getLsbD_and, BitVec.getLsbD_shiftLeft, BitVec.getLsbD_ushiftRight,
    BitVec.getLsbD_allOnes]
  rw [Bool.eq_iff_iff]
  simp only [Bool.and_eq_true, decide_eq_true_eq, Bool.not_eq_true', decide_eq_false_iff_not]
  omega

theorem getLsbD_window (hi : i < 64) (hlt : start < stop) (hfirst : start / 64 ≤ index)
    (hlast : index ≤ (stop - 1) / 64) : (window start stop index).getLsbD i =
      decide (start ≤ index * 64 + i ∧ index * 64 + i < stop) := by
  rw [window, getLsbD_mask (by split_ifs <;> omega), decide_eq_decide]
  split_ifs <;> omega

theorem ne_zero_iff : w ≠ 0 ↔ ∃ i < 64, w.getLsbD i = true := by
  constructor
  · intro h
    by_contra hne
    apply h
    apply BitVec.eq_of_getLsbD_eq
    intro i hi
    have : w.getLsbD i ≠ true := fun hbit => hne ⟨i, hi, hbit⟩
    simpa using this
  intro ⟨i, _, hbit⟩ h
  rw [h] at hbit
  simp at hbit

theorem trailingZeros_spec (h : w ≠ 0) :
    trailingZeros w < 64 ∧ w.getLsbD (trailingZeros w) = true ∧ ∀ i < trailingZeros w,
      w.getLsbD i = false := by
  obtain ⟨i, hi, hbit⟩ := ne_zero_iff.mp h
  unfold trailingZeros
  cases hfind : (range 64).find? fun i => w.getLsbD i with
  | none =>
    rw [find?_eq_none] at hfind
    exact absurd hbit (hfind i (mem_range.mpr hi))
  | some k =>
    obtain ⟨hk, hlt, hbefore⟩ := find?_range_eq_some.mp hfind
    refine ⟨mem_range.mp hlt, hk, ?_⟩
    intro j hj
    simpa using hbefore j hj

theorem leadingZeros_spec (h : w ≠ 0) :
    leadingZeros w < 64 ∧ w.getLsbD (63 - leadingZeros w) = true ∧
      ∀ i < 64, 63 - leadingZeros w < i → w.getLsbD i = false := by
  obtain ⟨i, hi, hbit⟩ := ne_zero_iff.mp h
  unfold leadingZeros
  cases hfind : (range 64).find? fun i => w.getLsbD (63 - i) with
  | none =>
    rw [find?_eq_none] at hfind
    refine absurd ?_ (hfind (63 - i) (mem_range.mpr (by omega)))
    rw [show 63 - (63 - i) = i by omega]
    exact hbit
  | some k =>
    obtain ⟨hk, hlt, hbefore⟩ := find?_range_eq_some.mp hfind
    have hlt := mem_range.mp hlt
    refine ⟨hlt, hk, ?_⟩
    intro j hj hkj
    simp only [getD_some] at hkj
    have := hbefore (63 - j) (by omega)
    rw [show 63 - (63 - j) = j by omega] at this
    simpa using this

end Words

variable {words : List Word} {start stop i : Nat}

theorem bit_setRange (hi : i / 64 < words.length) (hlt : start < stop) :
    bit (setRange words start stop) i = (bit words i || decide (start ≤ i ∧ i < stop)) := by
  have hsplit : i / 64 * 64 + i % 64 = i := by omega
  unfold bit word setRange
  rw [getD_eq_getElem?_getD, getElem?_mapIdx]
  simp only [map_some, getD_some, getD_eq_getElem?_getD, getElem?_eq_getElem hi]
  split_ifs with h
  · rw [BitVec.getLsbD_or, getLsbD_window (Nat.mod_lt _ (by omega)) hlt h.1 h.2, hsplit]
  · rw [decide_eq_false (by omega), Bool.or_false]

@[simp] theorem length_setRange : (setRange words start stop).length = words.length := by
  simp [setRange]

theorem bit_replicate (n : Nat) (hi : i / 64 < n) :
    bit (replicate n (BitVec.allOnes 64)) i = true := by
  unfold bit word
  rw [getD_eq_getElem?_getD, getElem?_replicate, if_pos hi, getD_some,
    BitVec.getLsbD_allOnes, decide_eq_true (mod_lt _ (by omega))]

/-! ## Searching -/

theorem mem_wordsOf (hlt : start < stop) :
    index ∈ wordsOf start stop ↔ start / 64 ≤ index ∧ index ≤ (stop - 1) / 64 := by
  rw [wordsOf, mem_range']
  constructor
  · intro ⟨k, hk, heq⟩
    omega
  · intro h
    exact ⟨index - start / 64, by omega, by omega⟩

theorem getLsbD_select (value : Bool) (index : Nat) (hj : j < 64) :
    (select words value index).getLsbD j = (bit words (index * 64 + j) == value) := by
  have hdiv : (index * 64 + j) / 64 = index := by omega
  have hmod : (index * 64 + j) % 64 = j := by omega
  unfold select bit
  rw [hdiv, hmod]
  cases value <;> simp [hj]

/-- The bits a search sees in one word. -/
theorem getLsbD_live (value : Bool) (hlt : start < stop) (hj : j < 64)
    (hindex : index ∈ wordsOf start stop) :
    (select words value index &&& window start stop index).getLsbD j =
      decide (bit words (index * 64 + j) = value ∧ start ≤ index * 64 + j ∧
        index * 64 + j < stop) := by
  obtain ⟨hfirst, hlast⟩ := (mem_wordsOf hlt).mp hindex
  rw [BitVec.getLsbD_and, getLsbD_select value index hj, getLsbD_window hj hlt hfirst hlast,
    Bool.eq_iff_iff]
  simp

/-- A word of the search is zero exactly when it holds no bit that is looked for. -/
theorem live_eq_zero (value : Bool) (hlt : start < stop) (hk : start ≤ k ∧ k < stop)
    (h : select words value (k / 64) &&& window start stop (k / 64) = 0) : bit words k ≠ value := by
  intro hbit
  have hindex : k / 64 ∈ wordsOf start stop := (mem_wordsOf hlt).mpr (by omega)
  have hlive : (select words value (k / 64) &&& window start stop (k / 64)).getLsbD (k % 64) = _ :=
    getLsbD_live value hlt (mod_lt k (by omega)) hindex
  rw [h, show k / 64 * 64 + k % 64 = k by omega, decide_eq_true ⟨hbit, hk⟩] at hlive
  simp at hlive

theorem pairwise_wordsOf : (wordsOf start stop).Pairwise (· < ·) := by
  exact pairwise_lt_range'

/-- `firstBit` is the least position of the window with the value. -/
theorem firstBit_eq_some (h : firstBit words start stop value = some k) :
    start ≤ k ∧ k < stop ∧ bit words k = value ∧ ∀ j, start ≤ j → j < k → bit words j ≠ value := by
  unfold firstBit at h
  split_ifs at h with hle
  have hlt : start < stop := by omega
  obtain ⟨l₁, index, l₂, hl, hindex, hbefore⟩ := findSome?_eq_some_iff.mp h
  simp only at hindex
  split_ifs at hindex with hne
  obtain rfl := some.inj hindex
  have hmem : index ∈ wordsOf start stop := by simp [hl]
  obtain ⟨hj, hbit, hmin⟩ := trailingZeros_spec hne
  obtain ⟨j, hjeq⟩ : ∃ j, j =
      trailingZeros (select words value index &&& window start stop index) := ⟨_, rfl⟩
  rw [getLsbD_live value hlt hj hmem, decide_eq_true_eq] at hbit
  refine ⟨hbit.2.1, hbit.2.2, hbit.1, ?_⟩
  intro i hi hik
  by_cases hsame : i / 64 = index
  · have := hmin (i % 64) (by omega)
    rw [getLsbD_live value hlt (Nat.mod_lt _ (by omega)) hmem,
      show index * 64 + i % 64 = i by omega] at this
    intro hbad
    simp [hbad] at this
    omega
  -- An earlier word was skipped because it is zero.
  have hearlier : i / 64 ∈ l₁ := by
    have hmem' : i / 64 ∈ wordsOf start stop := (mem_wordsOf hlt).mpr (by omega)
    have hsorted : (wordsOf start stop).Pairwise (· < ·) := pairwise_wordsOf
    rw [hl] at hmem' hsorted
    rcases mem_append.mp hmem' with h₁ | h₂
    · exact h₁
    rcases mem_cons.mp h₂ with h₂ | h₂
    · exact absurd h₂ hsame
    · have := (pairwise_cons.mp (pairwise_append.mp hsorted).2.1).1 _ h₂
      omega
  have hzero := hbefore _ hearlier
  simp only [ite_not, ite_eq_left_iff, reduceCtorEq, imp_false, not_not] at hzero
  exact live_eq_zero value hlt ⟨hi, by omega⟩ hzero

theorem firstBit_eq_none (h : firstBit words start stop value = none)
    (hk : start ≤ k ∧ k < stop) : bit words k ≠ value := by
  unfold firstBit at h
  have hlt : start < stop := by omega
  rw [if_neg (by omega), findSome?_eq_none_iff] at h
  have hzero := h (k / 64) ((mem_wordsOf hlt).mpr (by omega))
  simp only [ite_not, ite_eq_left_iff, reduceCtorEq, imp_false, not_not] at hzero
  exact live_eq_zero value hlt hk hzero

/-- The clear bits of the window lie between the bounds, and both bounds are tight. -/
structure ClearBounds (words : List Word) (start stop first last : Nat) : Prop where
  first_ge : start ≤ first
  first_lt : first < last
  last_le : last ≤ stop
  first_clear : bit words first = false
  last_clear : bit words (last - 1) = false
  below : ∀ k, start ≤ k → k < first → bit words k = true
  above : ∀ k, last ≤ k → k < stop → bit words k = true

theorem clearBounds_eq_none (h : clearBounds words start stop = none) (hk : start ≤ k ∧ k < stop) :
    bit words k = true := by
  have hlt : start < stop := by omega
  have hindex : k / 64 ∈ wordsOf start stop := (mem_wordsOf hlt).mpr (by omega)
  have hzero : ~~~(word words (k / 64)) &&& window start stop (k / 64) = 0 := by
    unfold clearBounds at h
    rw [if_neg (by omega)] at h
    simp only at h
    split at h
    · rename_i hfind
      have := find?_eq_none.mp hfind _ hindex
      simpa using this
    rename_i first hfind
    have hfirst := mem_of_find?_eq_some hfind
    have hlive : ~~~(word words first) &&& window start stop first ≠ 0 := by
      simpa using find?_some hfind
    split at h
    · rename_i hnone
      refine absurd (find?_eq_none.mp hnone first ?_) (by simpa using hlive)
      rw [mem_reverse, mem_range']
      exact ⟨0, by have := ((mem_wordsOf hlt).mp hfirst).2; omega, by omega⟩
    · cases h
  have hset : bit words k ≠ false := live_eq_zero false hlt hk (by simpa [select] using hzero)
  simpa using hset

theorem clearBounds_eq_some {first last : Nat}
    (h : clearBounds words start stop = some (first, last)) :
    ClearBounds words start stop first last := by
  unfold clearBounds at h
  split_ifs at h with hle
  have hlt : start < stop := by omega
  simp only at h
  split at h
  · cases h
  rename_i lo hlo
  split at h
  · cases h
  rename_i hi hhi
  have hlive : ∀ index, ~~~(word words index) &&& window start stop index =
      select words false index &&& window start stop index := fun _ => rfl
  simp only [hlive] at h hlo hhi
  obtain ⟨rfl, rfl⟩ := Prod.mk.inj (some.inj h)
  have hlomem := mem_of_find?_eq_some hlo
  have hlo_bounds := (mem_wordsOf hlt).mp hlomem
  have hhimem := mem_of_find?_eq_some hhi
  rw [mem_reverse, mem_range'] at hhimem
  have hhi_mem : hi ∈ wordsOf start stop := (mem_wordsOf hlt).mpr (by omega)
  obtain ⟨hz, hzbit, hzmin⟩ := trailingZeros_spec (by simpa using find?_some hlo)
  obtain ⟨hl, hlbit, hlmax⟩ := leadingZeros_spec (by simpa using find?_some hhi)
  obtain ⟨z, hzeq⟩ : ∃ z, z = trailingZeros (select words false lo &&& window start stop lo) :=
    ⟨_, rfl⟩
  obtain ⟨l, hleq⟩ : ∃ l, l = leadingZeros (select words false hi &&& window start stop hi) :=
    ⟨_, rfl⟩
  rw [← hzeq] at hz hzbit hzmin ⊢
  rw [← hleq] at hl hlbit hlmax ⊢
  rw [getLsbD_live false hlt hz hlomem, decide_eq_true_eq] at hzbit
  rw [getLsbD_live false hlt (by omega) hhi_mem, decide_eq_true_eq] at hlbit
  have hlast : hi * 64 + 64 - l - 1 = hi * 64 + (63 - l) := by omega
  -- Words outside `lo..hi` hold no clear bit of the window.
  have hword : ∀ k, start ≤ k → k < stop → bit words k = false → lo ≤ k / 64 ∧ k / 64 ≤ hi := by
    intro k hk₁ hk₂ hk
    have hmem : k / 64 ∈ wordsOf start stop := (mem_wordsOf hlt).mpr (by omega)
    have hne : (select words false (k / 64) &&& window start stop (k / 64) != 0) = true := by
      by_contra hzero
      exact live_eq_zero false hlt ⟨hk₁, hk₂⟩ (by simpa using hzero) hk
    have hlo' : lo ≤ k / 64 := by
      obtain ⟨-, l₁, l₂, hl, hbefore⟩ := find?_eq_some_iff_append.mp hlo
      have hsorted : (wordsOf start stop).Pairwise (· < ·) := pairwise_wordsOf
      rw [hl] at hmem hsorted
      rcases mem_append.mp hmem with h₁ | h₂
      · exact absurd hne (by simpa using hbefore _ h₁)
      rcases mem_cons.mp h₂ with h₂ | h₂
      · omega
      · have := (pairwise_cons.mp (pairwise_append.mp hsorted).2.1).1 _ h₂
        omega
    obtain ⟨-, l₁, l₂, hl, hbefore⟩ := find?_eq_some_iff_append.mp hhi
    have hmem' : k / 64 ∈ (range' lo ((stop - 1) / 64 + 1 - lo)).reverse := by
      rw [mem_reverse, mem_range']
      exact ⟨k / 64 - lo, by omega, by omega⟩
    have hsorted : (range' lo ((stop - 1) / 64 + 1 - lo)).reverse.Pairwise (· > ·) :=
      pairwise_reverse.mpr pairwise_lt_range'
    rw [hl] at hmem' hsorted
    rcases mem_append.mp hmem' with h₁ | h₂
    · exact absurd hne (by simpa using hbefore _ h₁)
    rcases mem_cons.mp h₂ with h₂ | h₂
    · omega
    · have := (pairwise_cons.mp (pairwise_append.mp hsorted).2.1).1 _ h₂
      omega
  have hbelow : ∀ k, start ≤ k → k < lo * 64 + z → bit words k = true := by
    intro k hk₁ hk₂
    by_contra hbit
    have hbit : bit words k = false := by simpa using hbit
    have := hword k hk₁ (by omega) hbit
    have hmin := hzmin (k % 64) (by omega)
    rw [getLsbD_live false hlt (mod_lt _ (by omega)) hlomem,
      show lo * 64 + k % 64 = k by omega] at hmin
    simp [hbit] at hmin
    omega
  have habove : ∀ k, hi * 64 + 64 - l ≤ k → k < stop → bit words k = true := by
    intro k hk₁ hk₂
    by_contra hbit
    have hbit : bit words k = false := by simpa using hbit
    have := hword k (by omega) hk₂ hbit
    have hmax := hlmax (k % 64) (mod_lt _ (by omega)) (by omega)
    rw [getLsbD_live false hlt (mod_lt _ (by omega)) hhi_mem,
      show hi * 64 + k % 64 = k by omega] at hmax
    simp [hbit] at hmax
    omega
  have hfirst_lt : lo * 64 + z < hi * 64 + 64 - l := by
    by_contra hbad
    have := habove (lo * 64 + z) (by omega) hzbit.2.2
    rw [hzbit.1] at this
    cases this
  exact ⟨hzbit.2.1, hfirst_lt, by omega, hzbit.1, by rw [hlast]; exact hlbit.1, hbelow, habove⟩

end Bitmap

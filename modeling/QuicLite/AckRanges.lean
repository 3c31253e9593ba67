import QuicLite.Lib.Intervals
import Mathlib.Data.List.Basic
import Mathlib.Tactic.Linarith

/-!
# Acknowledged packet ranges

`AckRanges N` is the receiver's bounded record of packet numbers: an array of `N` slots of which
the first `len` are live, newest range first. The operations below are the in-place loops of the
source; the shifting copies are kept as loops over the array. `live` reads off the used prefix,
and the refinement lemmas say what each loop does to it in terms of `Intervals`.

Packet numbers are `u32` and every `+ 1` comparison is made after widening to `u64`, so `Nat`
arithmetic agrees with the machine's.

The rest of the model works with the live prefix alone (`AckRangeSet`): no reader looks past `len`.
-/

namespace QuicLite

open Intervals List Nat

variable {pn : Nat}

abbrev AckRange := Segment

structure AckRanges (N : Nat) where
  ranges : List AckRange
  len : Nat
  deriving Repr

namespace AckRanges

variable {N : Nat} {i : Nat}

def new (N : Nat) : AckRanges N := ⟨List.replicate N ⟨0, 0⟩, 0⟩

/-- `self.ranges[i]`. -/
def slot (a : AckRanges N) (i : Nat) : AckRange := a.ranges.getD i default

/-- `&self.ranges[..self.len]`, the only part any reader looks at. -/
def live (a : AckRanges N) : List AckRange := a.ranges.take a.len

/-- `for j in (i..i + n).rev() { ranges[j + 1] = ranges[j] }` -/
def shiftUp (ranges : List AckRange) (i : Nat) : Nat → List AckRange
  | 0 => ranges
  | n + 1 => shiftUp (ranges.set (i + n + 1) (ranges.getD (i + n) default)) i n

/-- `for j in i..i + n { ranges[j] = ranges[j + 1] }` -/
def shiftDown (ranges : List AckRange) (i : Nat) : Nat → List AckRange
  | 0 => ranges
  | n + 1 => shiftDown (ranges.set i (ranges.getD (i + 1) default)) (i + 1) n

/-- `while at > 0 && ranges[at - 1].end < new.end { ranges[at] = ranges[at - 1]; at -= 1 }` -/
def sinkTail (ranges : List AckRange) (new : AckRange) : Nat → List AckRange × Nat
  | 0 => (ranges, 0)
  | k + 1 =>
    if (ranges.getD k default).stop < new.stop then
      sinkTail (ranges.set (k + 1) (ranges.getD k default)) new k
    else (ranges, k + 1)

/-- The scan of `insert_range`, at position `i` with `remaining` live ranges left to look at, so
that `self.len = i + remaining`. Every iteration either advances `i` or shortens the array. -/
def insertLoop (ranges : List AckRange) (new : AckRange) (i : Nat) : Nat → AckRanges N × Bool
  | 0 =>
    if i < N then
      let (shifted, pos) := sinkTail ranges new i
      (⟨shifted.set pos new, i + 1⟩, false)
    else (⟨ranges, i⟩, true)
  | remaining + 1 =>
    let current := ranges.getD i default
    if new.start > current.stop + 1 then
      if i + (remaining + 1) < N then
        (⟨(shiftUp ranges i (remaining + 1)).set i new, i + (remaining + 1) + 1⟩, false)
      else if i < N then
        -- A full array makes room by dropping its oldest (lowest) range.
        (⟨(shiftUp ranges i (N - 1 - i)).set i new, i + (remaining + 1)⟩, true)
      else (⟨ranges, i + (remaining + 1)⟩, false)
    else if new.stop + 1 < current.start then insertLoop ranges new (i + 1) remaining
    else insertLoop (shiftDown ranges i remaining) (new.hull current) i remaining

def insertRange (a : AckRanges N) (new : AckRange) : AckRanges N × Bool :=
  if new.start > new.stop then (a, false)
  else
    let newest := a.slot 0
    if a.len ≠ 0 ∧ new.start ≤ newest.stop + 1 ∧ new.stop + 1 ≥ newest.start ∧
        (a.len = 1 ∨ new.start > (a.slot 1).stop + 1) then
      (⟨a.ranges.set 0 (new.hull newest), a.len⟩, false)
    else insertLoop a.ranges new 0 a.len

def insert (a : AckRanges N) (pn : Nat) : AckRanges N × Bool := a.insertRange ⟨pn, pn⟩

/-- The loop of `discard_below`: cut the ranges that still reach the floor, count them. -/
def discardLoop (ranges : List AckRange) (floor retained : Nat) : Nat → List AckRange × Nat
  | 0 => (ranges, retained)
  | remaining + 1 =>
    let r := ranges.getD retained default
    if r.stop ≥ floor then
      discardLoop (ranges.set retained (r.cut floor)) floor (retained + 1) remaining
    else (ranges, retained)

def discardBelow (a : AckRanges N) (floor : Nat) : AckRanges N :=
  let (ranges, retained) := discardLoop a.ranges floor 0 a.len
  ⟨ranges, retained⟩

/-- The binary search of `contains` over `ranges[low..high]`. The window shrinks every turn, so
`fuel ≥ high - low` turns always suffice. -/
def searchLoop (a : AckRanges N) (pn low high : Nat) : Nat → Bool
  | 0 => false
  | fuel + 1 =>
    if low < high then
      let middle := low + (high - low) / 2
      let range := a.slot middle
      if pn > range.stop then searchLoop a pn low middle fuel
      else if pn < range.start then searchLoop a pn (middle + 1) high fuel
      else true
    else false

def contains (a : AckRanges N) (pn : Nat) : Bool :=
  if a.len = 0 then false
  else
    let newest := a.slot 0
    if pn > newest.stop then false
    else if pn ≥ newest.start then true
    else searchLoop a pn 1 a.len a.len

/-! ## What the shifting loops do to the live prefix -/

/-- The array is a full one and the live prefix is in it. -/
structure Sized (a : AckRanges N) : Prop where
  full : a.ranges.length = N
  bounded : a.len ≤ N

variable (ranges : List AckRange)

@[simp] theorem length_shiftUp (i n : Nat) : (shiftUp ranges i n).length = ranges.length := by
  induction n generalizing ranges with
  | zero => rfl
  | succ n ih => simp [shiftUp, ih]

@[simp] theorem length_shiftDown (i n : Nat) : (shiftDown ranges i n).length = ranges.length := by
  induction n generalizing ranges i with
  | zero => rfl
  | succ n ih => simp [shiftDown, ih]

/-- Slots `i + 1 ..= i + n` receive their left neighbour; all others stay. -/
theorem getElem?_shiftUp (i n k : Nat) (h : i + n < ranges.length) :
    (shiftUp ranges i n)[k]? = if i < k ∧ k ≤ i + n then ranges[k - 1]? else ranges[k]? := by
  induction n generalizing ranges with
  | zero => simp only [shiftUp]; rw [if_neg (by omega)]
  | succ n ih =>
    rw [shiftUp, ih _ (by simp; omega)]
    have hget : ranges.getD (i + n) default = ranges[i + n] := by
      rw [getD_eq_getElem?_getD, getElem?_eq_getElem (by omega)]; rfl
    rcases lt_trichotomy k (i + n + 1) with hk | hk | hk
    · by_cases hik : i < k
      · rw [if_pos (by omega), if_pos (by omega), getElem?_set_ne (by omega)]
      · rw [if_neg (by omega), if_neg (by omega), getElem?_set_ne (by omega)]
    · subst hk
      rw [if_neg (by omega), if_pos (by omega), getElem?_set_self (by omega), hget]
      simp
    · rw [if_neg (by omega), if_neg (by omega), getElem?_set_ne (by omega)]

/-- Slots `i .. i + n` receive their right neighbour; all others stay. -/
theorem getElem?_shiftDown (i n k : Nat) (h : i + n < ranges.length) :
    (shiftDown ranges i n)[k]? = if i ≤ k ∧ k < i + n then ranges[k + 1]? else ranges[k]? := by
  induction n generalizing ranges i with
  | zero => simp only [shiftDown]; rw [if_neg (by omega)]
  | succ n ih =>
    rw [shiftDown, ih _ _ (by simp; omega)]
    have hget : ranges.getD (i + 1) default = ranges[i + 1] := by
      rw [getD_eq_getElem?_getD, getElem?_eq_getElem (by omega)]; rfl
    rcases lt_trichotomy k i with hk | hk | hk
    · rw [if_neg (by omega), if_neg (by omega), getElem?_set_ne (by omega)]
    · subst hk
      rw [if_neg (by omega), getElem?_set_self (by omega), hget]
      simp
    by_cases hkn : k < i + 1 + n
    · rw [if_pos (by omega), if_pos (by omega), getElem?_set_ne (by omega)]
    · rw [if_neg (by omega), if_neg (by omega), getElem?_set_ne (by omega)]

/-- Opening a gap at `i` and writing `new` there inserts it, as long as a spare slot exists. -/
theorem take_set_shiftUp (new : AckRange) (i n : Nat) (h : i + n < ranges.length) :
    ((shiftUp ranges i n).set i new).take (i + n + 1) = ranges.take i ++ new ::
      (ranges.take (i + n)).drop i := by
  apply ext_getElem?
  intro k
  rw [getElem?_take]
  rcases lt_trichotomy k i with hk | hk | hk
  · rw [if_pos (by omega), getElem?_set_ne (by omega), getElem?_shiftUp _ _ _ _ h,
      if_neg (by omega), getElem?_append_left (by simp; omega), getElem?_take_of_lt hk]
  · subst hk
    rw [if_pos (by omega), getElem?_set_self (by simp; omega)]
    simp [min_eq_left (show k ≤ ranges.length by omega)]
  rw [getElem?_append_right (by simp; omega), length_take,
    min_eq_left (show i ≤ ranges.length by omega)]
  obtain ⟨d, rfl⟩ : ∃ d, k = i + 1 + d := ⟨k - i - 1, by omega⟩
  rw [show i + 1 + d - i = d + 1 by omega, getElem?_cons_succ, getElem?_drop,
    getElem?_take, getElem?_set_ne (by omega), getElem?_shiftUp _ _ _ _ h]
  by_cases hd : d < n
  · rw [if_pos (by omega), if_pos (by omega), if_pos (by omega)]
    congr 1
    omega
  · rw [if_neg (by omega), if_neg (by omega)]

/-- Closing the gap at `i` removes that entry. -/
theorem take_shiftDown (i n : Nat) (h : i + n < ranges.length) :
    (shiftDown ranges i n).take (i + n) = ranges.take i ++
      (ranges.take (i + n + 1)).drop (i + 1) := by
  apply ext_getElem?
  intro k
  rw [getElem?_take]
  rcases lt_or_ge k i with hk | hk
  · rw [if_pos (by omega), getElem?_shiftDown _ _ _ _ h, if_neg (by omega),
      getElem?_append_left (by simp; omega), getElem?_take_of_lt hk]
  rw [getElem?_append_right (by simp; omega), length_take,
    min_eq_left (show i ≤ ranges.length by omega)]
  obtain ⟨d, rfl⟩ : ∃ d, k = i + d := ⟨k - i, by omega⟩
  rw [getElem?_drop, getElem?_take, getElem?_shiftDown _ _ _ _ h]
  by_cases hd : d < n
  · rw [if_pos (by omega), if_pos (by omega), if_pos (by omega)]
    congr 1
    omega
  · rw [if_neg (by omega), if_neg (by omega)]

variable {a : AckRanges N}

theorem slot_eq_getElem (h : i < a.ranges.length) : a.slot i = a.ranges[i] := by
  rw [AckRanges.slot, getD_eq_getElem?_getD, getElem?_eq_getElem h]; rfl

/-- An interval below the whole prefix does not sink past any of it. -/
theorem sinkTail_of_above (new : AckRange) (i : Nat) (hi : i ≤ ranges.length)
    (hne : ∀ x ∈ ranges.take i, x.start ≤ x.stop) (habove : ∀ x ∈ ranges.take i, x.Above new) :
    sinkTail ranges new i = (ranges, i) := by
  cases i with
  | zero => rfl
  | succ k =>
    have hmem : ranges.getD k default ∈ ranges.take (k + 1) := by
      rw [getD_eq_getElem?_getD, getElem?_eq_getElem (by omega)]
      exact mem_take_iff_getElem.mpr ⟨k, by omega, rfl⟩
    have h₁ := hne _ hmem
    have h₂ : new.stop + 1 < (ranges.getD k default).start := habove _ hmem
    rw [sinkTail, if_neg (by omega)]

/-! ## Insertion refines `insertInto` -/

/-- What an insertion must leave behind, given the maximal ranges `full` of the enlarged set: all of
them if they fit, and otherwise all but the lowest. -/
structure Stores (result : AckRanges N × Bool) (full : List AckRange) : Prop where
  sized : result.1.Sized
  length : full.length ≤ N + 1
  live : result.1.live = if full.length ≤ N then full else full.dropLast
  omitted : result.2 = decide (N < full.length)

/-- The scan at position `i`: the ranges passed so far all lie above the new one, and the rest are
still to be merged. -/
theorem insertLoop_stores (new : AckRange) (i remaining : Nat) (hfull : ranges.length = N)
    (hlen : i + remaining ≤ N) (hcanon : Canonical (ranges.take (i + remaining)))
    (habove : ∀ x ∈ ranges.take i, x.Above new) :
    Stores (N := N) (insertLoop ranges new i remaining)
      (ranges.take i ++ insertInto new ((ranges.take (i + remaining)).drop i)) := by
  induction remaining generalizing ranges new i with
  | zero =>
    have htail : (ranges.take (i + 0)).drop i = [] := by
      rw [drop_eq_nil_iff]; simp
    rw [htail, insertLoop]
    split_ifs with hi
    · rw [sinkTail_of_above ranges new i (by omega) hcanon.nonempty habove]
      have hlive : (ranges.set i new).take (i + 1) = ranges.take i ++ [new] := by
        have := take_set_shiftUp ranges new i 0 (by omega)
        simpa [shiftUp] using this
      refine ⟨⟨by simpa using hfull, by simp only; omega⟩, ?_, ?_, ?_⟩
      · simp [insertInto]; omega
      · rw [if_pos (by simp [insertInto]; omega)]
        exact hlive
      · simp [insertInto]; omega
    · refine ⟨⟨hfull, by omega⟩, ?_, ?_, ?_⟩
      · simp [insertInto]; omega
      · rw [if_neg (by simp [insertInto]; omega)]
        simp [insertInto, AckRanges.live]
      · simp [insertInto]; omega
  | succ remaining ih =>
    have hi : i < ranges.length := by omega
    -- The entry under the cursor, and the live entries behind it.
    have hsuffix : (ranges.take (i + (remaining + 1))).drop i =
        ranges[i] :: (ranges.take (i + (remaining + 1))).drop (i + 1) := by
      rw [drop_eq_getElem_cons (by simp; omega), getElem_take]
    have hcur : ranges.getD i default = ranges[i] := by
      rw [getD_eq_getElem?_getD, getElem?_eq_getElem hi]; rfl
    have hsuffixLen : ((ranges.take (i + (remaining + 1))).drop i).length = remaining + 1 := by
      simp; omega
    have hinsert : ranges[i].stop + 1 < new.start →
        insertInto new ((ranges.take (i + (remaining + 1))).drop i) =
          new :: (ranges.take (i + (remaining + 1))).drop i := by
      intro h
      rw [hsuffix, insertInto, if_pos h]
    rw [insertLoop, hcur]
    split_ifs with h₁ h₂ h₃ h₄
    · -- A spare slot: the new range goes in front of the cursor.
      rw [hinsert h₁]
      refine ⟨⟨by simpa using hfull, by simp only; omega⟩, ?_, ?_, ?_⟩
      · simp; omega
      · rw [if_pos (by simp; omega)]
        exact take_set_shiftUp ranges new i (remaining + 1) (by omega)
      · simp; omega
    · -- A full array: the lowest live range falls off the end.
      rw [hinsert h₁]
      refine ⟨⟨by simpa using hfull, by omega⟩, ?_, ?_, ?_⟩
      · simp; omega
      · rw [if_neg (by simp; omega)]
        show ((shiftUp ranges i (N - 1 - i)).set i new).take (i + (remaining + 1)) = _
        have hshift := take_set_shiftUp ranges new i (N - 1 - i) (by omega)
        rw [show i + (N - 1 - i) + 1 = i + (remaining + 1) by omega] at hshift
        rw [hshift, dropLast_append_of_ne_nil (by simp),
          dropLast_cons_of_ne_nil (by rw [hsuffix]; simp)]
        congr 2
        rw [dropLast_eq_take, take_drop, take_take]
        congr 2
        omega
      · simp; omega
    · omega
    · -- The new range lies below the cursor: step over it.
      have htake : ranges.take (i + 1) = ranges.take i ++ [ranges[i]] := by
        rw [take_succ_eq_append_getElem hi]
      have hidx : i + 1 + remaining = i + (remaining + 1) := by omega
      have hstep := ih ranges new (i + 1) hfull (by omega) (by rwa [hidx])
        (by
          intro x hx
          rw [htake, mem_append, mem_singleton] at hx
          rcases hx with hx | rfl
          · exact habove x hx
          · exact h₄)
      rw [hidx, htake, append_assoc] at hstep
      rw [hsuffix, insertInto, if_neg h₁, if_pos h₄]
      exact hstep
    · -- They touch: absorb the cursor's range and close its slot.
      have htake : (shiftDown ranges i remaining).take (i + remaining) =
          ranges.take i ++ (ranges.take (i + (remaining + 1))).drop (i + 1) :=
        take_shiftDown ranges i remaining (by omega)
      have hkept : (shiftDown ranges i remaining).take i = ranges.take i := by
        have := congrArg (take i) htake
        rw [take_take, min_eq_left (by omega), take_append_of_le_length (by simp; omega), take_take,
          min_self] at this
        exact this
      have hrest : ((shiftDown ranges i remaining).take (i + remaining)).drop i =
          (ranges.take (i + (remaining + 1))).drop (i + 1) := by
        rw [htake, drop_append_of_le_length (by simp; omega)]
        simp
      have hwhole : ranges.take (i + (remaining + 1)) =
          ranges.take i ++ ranges[i] :: (ranges.take (i + (remaining + 1))).drop (i + 1) := by
        have := (take_append_drop i (ranges.take (i + (remaining + 1)))).symm
        rwa [take_take, min_eq_left (by omega), hsuffix] at this
      have hcanon' : Canonical ((shiftDown ranges i remaining).take (i + remaining)) := by
        rw [htake]
        exact (hwhole ▸ hcanon).sublist ((sublist_cons_self _ _).append_left _)
      have hcurAbove : ∀ x ∈ ranges.take i, x.Above ranges[i] := by
        have := hcanon.descending
        rw [hwhole] at this
        intro x hx
        exact (pairwise_append.mp this).2.2 x hx _ (by simp)
      have hstep := ih (shiftDown ranges i remaining) (new.hull ranges[i]) i (by simpa using hfull)
        (by omega) hcanon'
        (by
          rw [hkept]
          intro x hx
          have h₅ : new.stop + 1 < x.start := habove x hx
          have h₆ : ranges[i].stop + 1 < x.start := hcurAbove x hx
          simp only [Segment.Above, Segment.hull]
          omega)
      rw [hkept, hrest] at hstep
      rw [hsuffix, insertInto, if_neg h₁, if_neg h₄]
      exact hstep

/-- The fast path extends the newest range in place: the general scan would do the same. -/
theorem insertInto_newest {new newest : AckRange} {rest : List AckRange}
    (hcanon : Canonical (newest :: rest)) (hlow : new.start ≤ newest.stop + 1)
    (hhigh : newest.start ≤ new.stop + 1)
    (hclear : rest = [] ∨ ∃ next, rest.head? = some next ∧ next.stop + 1 < new.start) :
    insertInto new (newest :: rest) = new.hull newest :: rest := by
  rw [insertInto, if_neg (by omega), if_neg (by omega)]
  cases rest with
  | nil => rfl
  | cons next rest =>
    obtain hnil | ⟨next', hhead, hnext⟩ := hclear
    · simp at hnil
    obtain rfl : next = next' := by simpa using hhead
    have habove : next.stop + 1 < newest.start := hcanon.above next (by simp)
    rw [insertInto, if_pos (by simp only [Segment.hull]; omega)]

theorem live_length (ha : a.Sized) : a.live.length = a.len := by
  have := ha.full; have := ha.bounded
  simp only [live, length_take]
  omega

theorem insertRange_stores (ha : a.Sized) (hcanon : Canonical a.live) {new : AckRange}
    (hnew : new.start ≤ new.stop) :
    Stores (a.insertRange new) (insertInto new a.live) := by
  have hfull := ha.full
  have hbounded := ha.bounded
  rw [insertRange, if_neg (by omega)]
  dsimp only
  split_ifs with hfast
  · obtain ⟨hlen, hlow, hhigh, hclear⟩ := hfast
    have h0 : 0 < a.ranges.length := by omega
    have hlive : a.live = a.slot 0 :: (a.ranges.take a.len).drop 1 := by
      rw [slot_eq_getElem h0, live]
      conv_lhs => rw [← drop_zero (l := a.ranges.take a.len)]
      rw [drop_eq_getElem_cons (by simp; omega), getElem_take]
    have hinsert : insertInto new a.live = new.hull (a.slot 0) :: (a.ranges.take a.len).drop 1 := by
      rw [hlive] at hcanon ⊢
      refine insertInto_newest hcanon hlow hhigh ?_
      by_cases hone : a.len = 1
      · exact .inl (by rw [drop_eq_nil_iff]; simp [hone])
      refine .inr ⟨a.slot 1, ?_, ?_⟩
      · rw [slot_eq_getElem (by omega), head?_drop, getElem?_take_of_lt (by omega),
          getElem?_eq_getElem (by omega)]
      rcases hclear with h | h
      · exact absurd h hone
      · exact h
    have hset : (a.ranges.set 0 (new.hull (a.slot 0))).take a.len =
        new.hull (a.slot 0) :: (a.ranges.take a.len).drop 1 := by
      rw [take_set]
      have hcons : a.ranges.take a.len = a.slot 0 :: (a.ranges.take a.len).drop 1 := hlive
      rw [hcons]
      simp
    have hlength : (insertInto new a.live).length ≤ N := by
      rw [hinsert]; simp; omega
    refine ⟨⟨by simpa using hfull, hbounded⟩, by omega, ?_, by simp [hlength]⟩
    rw [if_pos hlength, hinsert]
    exact hset
  · have := insertLoop_stores a.ranges new 0 a.len hfull (by omega)
      (by simpa [live] using hcanon) (by simp)
    simpa [live] using this

/-! ## The floor and the binary search -/

theorem discardLoop_spec (floor retained remaining : Nat)
    (hlen : retained + remaining ≤ ranges.length) :
    let result := discardLoop ranges floor retained remaining
    result.1.length = ranges.length ∧ result.2 ≤ retained + remaining ∧ result.1.take result.2 =
        ranges.take retained ++ trimBelow floor
          ((ranges.take (retained + remaining)).drop retained) := by
  induction remaining generalizing ranges retained with
  | zero =>
    simp [discardLoop, trimBelow]
  | succ remaining ih =>
    have hr : retained < ranges.length := by omega
    have hcur : ranges.getD retained default = ranges[retained] := by
      rw [getD_eq_getElem?_getD, getElem?_eq_getElem hr]; rfl
    have hsuffix : (ranges.take (retained + (remaining + 1))).drop retained =
        ranges[retained] :: (ranges.take (retained + (remaining + 1))).drop (retained + 1) := by
      rw [drop_eq_getElem_cons (by simp; omega), getElem_take]
    simp only [discardLoop, hcur]
    split_ifs with h
    · have hstep := ih (ranges.set retained (ranges[retained].cut floor)) (retained + 1)
        (by simp; omega)
      obtain ⟨h₁, h₂, h₃⟩ := hstep
      refine ⟨by simpa using h₁, by omega, ?_⟩
      rw [h₃, hsuffix, trimBelow, if_pos h]
      have hidx : retained + 1 + remaining = retained + (remaining + 1) := by omega
      have htake : (ranges.set retained (ranges[retained].cut floor)).take (retained + 1) =
          ranges.take retained ++ [ranges[retained].cut floor] := by
        rw [take_succ_eq_append_getElem (by simpa using hr), getElem_set_self,
          take_set_of_le (by omega)]
      have hdrop : ((ranges.set retained (ranges[retained].cut floor)).take
          (retained + 1 + remaining)).drop
            (retained + 1) = (ranges.take (retained + (remaining + 1))).drop (retained + 1) := by
        rw [hidx, take_set, drop_set_of_lt (by omega)]
      rw [htake, hdrop, append_assoc, singleton_append]
    · refine ⟨rfl, by omega, ?_⟩
      rw [hsuffix, trimBelow, if_neg h, append_nil]

section

variable (ha : a.Sized)
include ha

theorem discardBelow_spec (floor : Nat) :
    (a.discardBelow floor).Sized ∧ (a.discardBelow floor).live = trimBelow floor a.live := by
  have hfull := ha.full
  have hbounded := ha.bounded
  have hspec := discardLoop_spec a.ranges floor 0 a.len (by omega)
  obtain ⟨h₁, h₂, h₃⟩ := hspec
  refine ⟨⟨?_, ?_⟩, ?_⟩
  · simpa [discardBelow, hfull] using h₁
  · simp only [discardBelow]; omega
  · simpa [discardBelow, live] using h₃

/-- Between two live positions the higher index holds the lower range. -/
theorem slot_above (hcanon : Canonical a.live) {j : Nat}
    (hij : i < j) (hj : j < a.len) : (a.slot i).Above (a.slot j) := by
  have hfull := ha.full
  have hbounded := ha.bounded
  have hlen : a.live.length = a.len := live_length ha
  have := pairwise_iff_getElem.mp hcanon.descending i j (by omega) (by omega) hij
  rw [slot_eq_getElem (by omega), slot_eq_getElem (by omega)]
  simpa [live] using this

theorem slot_nonempty (hcanon : Canonical a.live) (hi : i < a.len) :
    (a.slot i).start ≤ (a.slot i).stop := by
  have hfull := ha.full
  have hbounded := ha.bounded
  have hmem : a.slot i ∈ a.live := by
    rw [slot_eq_getElem (by omega)]
    exact mem_take_iff_getElem.mpr ⟨i, by omega, rfl⟩
  exact hcanon.nonempty _ hmem

theorem mem_live_iff : pn ∈ denote a.live ↔ ∃ i < a.len, (a.slot i).Mem pn := by
  have hfull := ha.full
  have hbounded := ha.bounded
  constructor
  · rintro ⟨r, hr, hpn⟩
    obtain ⟨i, hi, rfl⟩ := mem_take_iff_getElem.mp hr
    refine ⟨i, by omega, ?_⟩
    rw [slot_eq_getElem (by omega)]
    exact hpn
  rintro ⟨i, hi, hpn⟩
  rw [slot_eq_getElem (by omega)] at hpn
  exact ⟨_, mem_take_iff_getElem.mpr ⟨i, by omega, rfl⟩, hpn⟩

/-- The search window: everything left of it lies above `pn`, so only the window can hold it. -/
theorem searchLoop_iff (hcanon : Canonical a.live) (pn : Nat)
    (low high fuel : Nat) (hhigh : high ≤ a.len) (hfuel : high - low ≤ fuel) :
    searchLoop a pn low high fuel = true ↔ ∃ i, low ≤ i ∧ i < high ∧ (a.slot i).Mem pn := by
  induction fuel generalizing low high with
  | zero =>
    simp only [searchLoop, Bool.false_eq_true, false_iff, not_exists]
    omega
  | succ fuel ih =>
    simp only [searchLoop]
    split_ifs with hlt h₁ h₂
    · -- `pn` is above the middle range, hence above every later one.
      rw [ih low _ (by omega) (by omega)]
      constructor
      · rintro ⟨i, hl, hm, hi⟩
        exact ⟨i, hl, by omega, hi⟩
      rintro ⟨i, hl, hh, hi⟩
      refine ⟨i, hl, ?_, hi⟩
      by_contra hge
      have hstop : (a.slot i).stop ≤ (a.slot (low + (high - low) / 2)).stop := by
        rcases lt_or_ge (low + (high - low) / 2) i with hlt' | hle
        · have hab : (a.slot i).stop + 1 < (a.slot (low + (high - low) / 2)).start :=
            slot_above ha hcanon hlt' (by omega)
          have := slot_nonempty ha hcanon (show low + (high - low) / 2 < a.len by omega)
          omega
        · have : i = low + (high - low) / 2 := by omega
          rw [this]
      have := hi.2
      omega
    · -- `pn` is below the middle range, hence below every earlier one.
      rw [ih _ high hhigh (by omega)]
      constructor
      · rintro ⟨i, hl, hm, hi⟩
        exact ⟨i, by omega, hm, hi⟩
      rintro ⟨i, hl, hh, hi⟩
      refine ⟨i, ?_, hh, hi⟩
      by_contra hge
      have hstart : (a.slot (low + (high - low) / 2)).start ≤ (a.slot i).start := by
        rcases lt_or_ge i (low + (high - low) / 2) with hlt' | hle
        · have hab : (a.slot (low + (high - low) / 2)).stop + 1 < (a.slot i).start :=
            slot_above ha hcanon hlt' (by omega)
          have := slot_nonempty ha hcanon (show low + (high - low) / 2 < a.len by omega)
          omega
        · have : i = low + (high - low) / 2 := by omega
          rw [this]
      have := hi.1
      omega
    · simp only [true_iff]
      exact ⟨low + (high - low) / 2, by omega, by omega, by omega, by omega⟩
    · simp only [false_iff, not_exists]
      omega

theorem contains_iff (hcanon : Canonical a.live) (pn : Nat) :
    a.contains pn = true ↔ pn ∈ denote a.live := by
  rw [mem_live_iff ha, contains]
  dsimp only
  split_ifs with hlen h₁ h₂
  · simp [hlen]
  · -- Above the newest range nothing is live.
    simp only [false_iff, not_exists]
    rintro i ⟨hi, hmem⟩
    have hstop : (a.slot i).stop ≤ (a.slot 0).stop := by
      rcases Nat.eq_zero_or_pos i with rfl | hpos
      · exact le_refl _
      have hab : (a.slot i).stop + 1 < (a.slot 0).start := slot_above ha hcanon hpos hi
      have := slot_nonempty ha hcanon (show 0 < a.len by omega)
      omega
    have := hmem.2
    omega
  · simp only [true_iff]
    exact ⟨0, by omega, by omega, by omega⟩
  · rw [searchLoop_iff ha hcanon pn 1 a.len a.len (le_refl _) (by omega)]
    constructor
    · rintro ⟨i, -, hi, hmem⟩
      exact ⟨i, hi, hmem⟩
    rintro ⟨i, hi, hmem⟩
    refine ⟨i, ?_, hi, hmem⟩
    by_contra h0
    obtain rfl : i = 0 := by omega
    have := hmem.1
    omega

end

/-! ## Runs -/

/-- The mutating operations of an `AckRanges`. -/
inductive AckOp where
  | insert (pn : Nat)
  | insertRange (new : AckRange)
  | discardBelow (floor : Nat)
  deriving Repr

def step (a : AckRanges N) : AckOp → AckRanges N
  | .insert pn => (a.insert pn).1
  | .insertRange new => (a.insertRange new).1
  | .discardBelow floor => a.discardBelow floor

def run (ops : List AckOp) : AckRanges N := ops.foldl step (new N)

/-- A full array whose live prefix is canonical. -/
structure WellFormed (a : AckRanges N) : Prop where
  sized : a.Sized
  canonical : Canonical a.live

theorem new_wellFormed : (new N).WellFormed :=
  ⟨⟨by simp [new], by simp [new]⟩, by simpa [new, live] using Canonical.nil⟩

theorem insertRange_wellFormed (ha : a.WellFormed) (new : AckRange) :
    (a.insertRange new).1.WellFormed := by
  by_cases hnew : new.start ≤ new.stop
  · have hstores := insertRange_stores ha.sized ha.canonical hnew
    have hfull := insertInto_canonical hnew ha.canonical
    refine ⟨hstores.sized, ?_⟩
    rw [hstores.live]
    split_ifs
    · exact hfull
    · exact hfull.dropLast
  · rw [insertRange, if_pos (by omega)]
    exact ha

theorem discardBelow_wellFormed (ha : a.WellFormed) (floor : Nat) :
    (a.discardBelow floor).WellFormed := by
  obtain ⟨hsized, hlive⟩ := discardBelow_spec ha.sized floor
  exact ⟨hsized, hlive ▸ trimBelow_canonical ha.canonical⟩

theorem step_wellFormed (ha : a.WellFormed) (op : AckOp) : (a.step op).WellFormed := by
  cases op with
  | insert pn => exact insertRange_wellFormed ha ⟨pn, pn⟩
  | insertRange => exact insertRange_wellFormed ha ..
  | discardBelow => exact discardBelow_wellFormed ha ..

theorem run_wellFormed (ops : List AckOp) : (run ops : AckRanges N).WellFormed := by
  have hrun : ∀ (ops : List AckOp) (a : AckRanges N), a.WellFormed →
      (ops.foldl step a).WellFormed := by
    intro ops
    induction ops with
    | nil => exact fun a ha => ha
    | cons op ops ih => exact fun a ha => ih _ (step_wellFormed ha op)
  exact hrun ops _ new_wellFormed

/-- A bounded interval set, after any sequence of operations: the live ranges are the maximal
intervals of the set they denote; an insertion adds its range, and when the enlarged set `full` has
one interval too many it omits the lowest one and says so; the floor removes exactly what lies below
it; and the binary search decides membership. -/
theorem bounded_interval_set (N : Nat) (ops : List AckOp) :
    let a : AckRanges N := run ops
    (a.len ≤ N ∧ (∀ i < a.len, (a.slot i).start ≤ (a.slot i).stop) ∧
      ∀ i j, i < j → j < a.len → (a.slot i).start > (a.slot j).stop + 1) ∧
    (∀ new : AckRange, new.start ≤ new.stop → ∃ full : List AckRange,
      Canonical full ∧ denote full = denote a.live ∪ { n | new.Mem n } ∧ full.length ≤ N + 1 ∧
      (a.insertRange new).1.live = (if full.length = N + 1 then full.dropLast else full) ∧
      ((a.insertRange new).2 = true ↔ full.length = N + 1)) ∧
    (∀ new : AckRange, new.stop < new.start → a.insertRange new = (a, false)) ∧
    (∀ floor, denote (a.discardBelow floor).live = denote a.live ∩ { n | floor ≤ n }) ∧
    (∀ pn, a.contains pn = true ↔ ∃ i < a.len, (a.slot i).Mem pn) := by
  intro a
  have ha : a.WellFormed := run_wellFormed ops
  refine ⟨⟨ha.sized.bounded, ?_, ?_⟩, ?_, ?_, ?_, ?_⟩
  · intro i hi
    exact slot_nonempty ha.sized ha.canonical hi
  · intro i j hij hj
    exact slot_above ha.sized ha.canonical hij hj
  · intro new hnew
    obtain ⟨-, hlength, hlive, homitted⟩ := insertRange_stores ha.sized ha.canonical hnew
    refine ⟨insertInto new a.live, insertInto_canonical hnew ha.canonical,
      denote_insertInto hnew ha.canonical, hlength, ?_, ?_⟩
    · rw [hlive]
      split_ifs <;> first | rfl | omega
    · rw [homitted, decide_eq_true_iff]
      omega
  · intro new hnew
    rw [insertRange, if_pos hnew]
  · intro floor
    rw [(discardBelow_spec ha.sized floor).2, denote_trimBelow ha.canonical]
  · intro pn
    rw [contains_iff ha.sized ha.canonical, mem_live_iff ha.sized]

end AckRanges

/-! ## The live prefix as a type of its own -/

def ackRangeCapacity : Nat := 32

/-- What the rest of the transport sees of an `AckRanges<32>`: its live ranges, which every
operation keeps canonical and within the capacity. -/
structure AckRangeSet where
  ranges : List AckRange
  canonical : Canonical ranges
  bounded : ranges.length ≤ ackRangeCapacity

namespace AckRangeSet

variable {s : AckRangeSet} {a : AckRanges ackRangeCapacity}

instance : DecidableEq AckRangeSet := fun a b =>
  decidable_of_iff (a.ranges = b.ranges) ⟨fun h => by cases a; cases b; simp_all, fun h => h ▸ rfl⟩

def new : AckRangeSet := ⟨[], Canonical.nil, by simp⟩

def len (s : AckRangeSet) : Nat := s.ranges.length

/-- Keep the newest `ackRangeCapacity` ranges of a canonical list. -/
def truncate (l : List AckRange) (h : Canonical l) : AckRangeSet :=
  ⟨l.take ackRangeCapacity, h.sublist (List.take_sublist _ _), by simp⟩

def insertRange (s : AckRangeSet) (r : AckRange) : AckRangeSet :=
  if h : r.start ≤ r.stop then truncate (insertInto r s.ranges) (insertInto_canonical h s.canonical)
  else s

def insert (s : AckRangeSet) (pn : Nat) : AckRangeSet := s.insertRange ⟨pn, pn⟩

theorem length_trimBelow_le (floor : Nat) (l : List AckRange) :
    (trimBelow floor l).length ≤ l.length := by
  induction l with
  | nil => simp [trimBelow]
  | cons r l ih =>
    rw [trimBelow]
    split_ifs
    · simpa using ih
    · simp

def discardBelow (s : AckRangeSet) (floor : Nat) : AckRangeSet :=
  ⟨trimBelow floor s.ranges, trimBelow_canonical s.canonical,
    (length_trimBelow_le floor s.ranges).trans s.bounded⟩

def contains (s : AckRangeSet) (pn : Nat) : Bool := s.ranges.any fun r => decide (r.Mem pn)

@[simp] theorem contains_iff : s.contains pn = true ↔ pn ∈ denote s.ranges := by
  simp [contains]

/-! ### The array implements the set -/

/-- `s` is what the array `a` holds. -/
def Represents (s : AckRangeSet) (a : AckRanges ackRangeCapacity) : Prop :=
  a.Sized ∧ a.live = s.ranges

theorem represents_new : new.Represents (AckRanges.new ackRangeCapacity) :=
  ⟨AckRanges.new_wellFormed.sized, by simp [AckRanges.live, AckRanges.new, new]⟩

theorem Represents.insertRange (h : s.Represents a) (r : AckRange) :
    (s.insertRange r).Represents (a.insertRange r).1 := by
  obtain ⟨hsized, hlive⟩ := h
  by_cases hr : r.start ≤ r.stop
  · have hstores := AckRanges.insertRange_stores hsized (hlive ▸ s.canonical) hr
    refine ⟨hstores.sized, ?_⟩
    rw [hstores.live, hlive, AckRangeSet.insertRange, dif_pos hr]
    have hlen := length_insertInto_le r s.ranges
    have hbound := s.bounded
    simp only [truncate]
    -- Past the capacity both drop the oldest range, which is the last.
    split_ifs with h
    · rw [take_of_length_le h]
    rw [dropLast_eq_take]
    congr 1
    omega
  · rw [AckRangeSet.insertRange, dif_neg hr, AckRanges.insertRange, if_pos (by omega)]
    exact ⟨hsized, hlive⟩

theorem Represents.discardBelow (h : s.Represents a) (floor : Nat) :
    (s.discardBelow floor).Represents (a.discardBelow floor) := by
  obtain ⟨hsized, hlive⟩ := AckRanges.discardBelow_spec h.1 floor
  exact ⟨hsized, by rw [hlive, h.2]; rfl⟩

theorem Represents.contains (h : s.Represents a) (pn : Nat) : a.contains pn = s.contains pn := by
  rw [Bool.eq_iff_iff, AckRanges.contains_iff h.1 (h.2 ▸ s.canonical), contains_iff, h.2]

def step (s : AckRangeSet) : AckRanges.AckOp → AckRangeSet
  | .insert pn => s.insert pn
  | .insertRange new => s.insertRange new
  | .discardBelow floor => s.discardBelow floor

theorem Represents.step (h : s.Represents a) (op : AckRanges.AckOp) :
    (s.step op).Represents (a.step op) := by
  cases op with
  | insert pn => exact h.insertRange ⟨pn, pn⟩
  | insertRange new => exact h.insertRange new
  | discardBelow floor => exact h.discardBelow floor

theorem Represents.run (h : s.Represents a) (ops : List AckRanges.AckOp) :
    (ops.foldl AckRangeSet.step s).Represents (ops.foldl AckRanges.step a) := by
  induction ops generalizing s a with
  | nil => exact h
  | cons op ops ih => exact ih (h.step op)

/-- The array with its moved slots and binary search and the list of maximal intervals go through
every sequence of operations together, and answer every membership query alike. -/
theorem array_implements_set (ops : List AckRanges.AckOp) :
    (ops.foldl AckRangeSet.step new).Represents (AckRanges.run ops) ∧
      ∀ pn, (AckRanges.run ops : AckRanges ackRangeCapacity).contains pn =
        (ops.foldl AckRangeSet.step new).contains pn := by
  have h : (ops.foldl AckRangeSet.step new).Represents (AckRanges.run ops) := represents_new.run ops
  exact ⟨h, fun pn => h.contains pn⟩

end AckRangeSet

end QuicLite

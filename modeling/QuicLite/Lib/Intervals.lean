import Mathlib.Data.Set.Basic
import Mathlib.Tactic.Tauto

/-!
# Descending interval lists

A set of naturals kept as a list of closed intervals, highest first, with a genuine gap between
neighbours. Such a list is *canonical*: its entries are the maximal intervals of the set it denotes.

The two operations every bounded interval set needs are here: absorbing one more interval
(`insertInto`), and forgetting everything below a floor (`trimBelow`).
-/

namespace Intervals

open List

variable {new : Segment} {n floor : Nat}

/-- A closed interval `[start, stop]`; empty when `stop < start`. -/
structure Segment where
  start : Nat
  stop : Nat
  deriving DecidableEq, Repr, Inhabited

namespace Segment

def Mem (r : Segment) (n : Nat) : Prop := r.start ≤ n ∧ n ≤ r.stop

instance (r : Segment) (n : Nat) : Decidable (r.Mem n) := inferInstanceAs (Decidable (_ ∧ _))

/-- `a` lies above `b` and at least one number separates them. -/
def Above (a b : Segment) : Prop := b.stop + 1 < a.start

/-- The part of an interval at or above `floor`. -/
def cut (r : Segment) (floor : Nat) : Segment := ⟨max r.start floor, r.stop⟩

/-- The hull of two intervals. -/
def hull (a b : Segment) : Segment := ⟨min a.start b.start, max a.stop b.stop⟩

end Segment

open Segment

/-- The set a list of intervals stands for. -/
def denote (l : List Segment) : Set Nat := { n | ∃ r ∈ l, r.Mem n }

variable {l : List Segment}

@[simp] theorem mem_denote : n ∈ denote l ↔ ∃ r ∈ l, r.Mem n :=
  Iff.rfl

@[simp] theorem denote_nil : denote [] = ∅ := by
  ext n; simp

theorem denote_cons (r : Segment) (l : List Segment) :
    denote (r :: l) = { n | r.Mem n } ∪ denote l := by
  ext n; simp

/-- Highest first, non-empty, and separated: the maximal intervals of the denoted set. -/
structure Canonical (l : List Segment) : Prop where
  descending : l.Pairwise Above
  nonempty : ∀ r ∈ l, r.start ≤ r.stop

namespace Canonical

variable {r : Segment}

theorem nil : Canonical [] := ⟨.nil, by simp⟩

variable {l : List Segment}

theorem cons_iff : Canonical (r :: l) ↔ r.start ≤ r.stop ∧ (∀ x ∈ l, r.Above x) ∧ Canonical l := by
  constructor
  · rintro ⟨hd, hn⟩
    obtain ⟨hr, hl⟩ := pairwise_cons.mp hd
    exact ⟨hn r (by simp), hr, hl, fun x hx => hn x (by simp [hx])⟩
  rintro ⟨hr, hab, hd, hn⟩
  refine ⟨pairwise_cons.mpr ⟨hab, hd⟩, ?_⟩
  intro x hx
  rcases mem_cons.mp hx with rfl | hx
  · exact hr
  · exact hn x hx

theorem tail (h : Canonical (r :: l)) : Canonical l :=
  (cons_iff.mp h).2.2

theorem above (h : Canonical (r :: l)) : ∀ x ∈ l, r.Above x :=
  (cons_iff.mp h).2.1

theorem sublist {m : List Segment} (h : Canonical l) (hm : m.Sublist l) : Canonical m :=
  ⟨h.descending.sublist hm, fun r hr => h.nonempty r (hm.subset hr)⟩

theorem dropLast (h : Canonical l) : Canonical l.dropLast :=
  h.sublist (dropLast_sublist l)

/-- Every number of a canonical list's tail is below the head, with a gap. -/
theorem tail_lt_start (h : Canonical (r :: l)) (hn : n ∈ denote l) : n + 1 < r.start := by
  obtain ⟨x, hx, hxn⟩ := hn
  have hab : x.stop + 1 < r.start := h.above x hx
  have := hxn.2
  omega

end Canonical

/-! ## Absorbing one interval -/

/-- Insert `new`, merging every entry it overlaps or touches. -/
def insertInto (new : Segment) : List Segment → List Segment
  | [] => [new]
  | current :: rest =>
    if current.stop + 1 < new.start then new :: current :: rest
    else if new.stop + 1 < current.start then current :: insertInto new rest
    else insertInto (hull new current) rest

/-- Whatever lies above both the new interval and the old entries lies above the result. -/
theorem above_insertInto {a : Segment} (hnew : a.Above new)
    (hl : ∀ x ∈ l, a.Above x) : ∀ x ∈ insertInto new l, a.Above x := by
  induction l generalizing new with
  | nil => simpa [insertInto] using hnew
  | cons current rest ih =>
    have hcur : a.Above current := hl current (by simp)
    have hrest : ∀ x ∈ rest, a.Above x := fun x hx => hl x (by simp [hx])
    rw [insertInto]
    split_ifs with h₁ h₂
    · intro x hx
      rcases mem_cons.mp hx with rfl | hx
      · exact hnew
      · exact hl x hx
    · intro x hx
      rcases mem_cons.mp hx with rfl | hx
      · exact hcur
      · exact ih hnew hrest x hx
    refine ih ?_ hrest
    simp only [Above, hull] at *
    omega

theorem insertInto_canonical (hnew : new.start ≤ new.stop)
    (hl : Canonical l) : Canonical (insertInto new l) := by
  induction l generalizing new with
  | nil => exact Canonical.cons_iff.mpr ⟨hnew, by simp, .nil⟩
  | cons current rest ih =>
    obtain ⟨hcur, hab, hrest⟩ := Canonical.cons_iff.mp hl
    rw [insertInto]
    split_ifs with h₁ h₂
    · refine Canonical.cons_iff.mpr ⟨hnew, ?_, hl⟩
      intro x hx
      rcases mem_cons.mp hx with rfl | hx
      · exact h₁
      have : x.stop + 1 < current.start := hab x hx
      simp only [Above]
      omega
    · exact Canonical.cons_iff.mpr ⟨hcur, above_insertInto h₂ hab, ih hnew hrest⟩
    · exact ih (by simp only [hull]; omega) hrest

theorem denote_insertInto (hnew : new.start ≤ new.stop)
    (hl : Canonical l) : denote (insertInto new l) = denote l ∪ { n | new.Mem n } := by
  induction l generalizing new with
  | nil => ext n; simp [insertInto]
  | cons current rest ih =>
    obtain ⟨hcur, -, hrest⟩ := Canonical.cons_iff.mp hl
    rw [insertInto]
    split_ifs with h₁ h₂
    · rw [denote_cons, Set.union_comm]
    · rw [denote_cons, denote_cons, ih hnew hrest, Set.union_assoc]
    -- Overlapping or touching intervals have exactly their union as hull.
    have hhull : { n | (hull new current).Mem n } = { n | current.Mem n } ∪ { n | new.Mem n } := by
      ext n
      simp only [hull, Segment.Mem, Set.mem_ofPred_eq, Set.mem_union]
      omega
    rw [ih (by simp only [hull]; omega) hrest, denote_cons, hhull]
    ext n
    simp only [Set.mem_union]
    tauto

/-- One insertion adds at most one entry. -/
theorem length_insertInto_le (new : Segment) (l : List Segment) :
    (insertInto new l).length ≤ l.length + 1 := by
  induction l generalizing new with
  | nil => simp [insertInto]
  | cons current rest ih =>
    rw [insertInto]
    split_ifs
    · simp
    · simpa using ih new
    · exact Nat.le_succ_of_le (ih _)

/-- An interval below every entry is appended at the end. -/
theorem insertInto_of_below (h : ∀ x ∈ l, x.Above new) (hl : ∀ x ∈ l, x.start ≤ x.stop)
    (hnew : new.start ≤ new.stop) : insertInto new l = l ++ [new] := by
  induction l with
  | nil => rfl
  | cons current rest ih =>
    have hcur : new.stop + 1 < current.start := h current (by simp)
    have hne : current.start ≤ current.stop := hl current (by simp)
    rw [insertInto, if_neg (by omega), if_pos hcur,
      ih (fun x hx => h x (by simp [hx])) (fun x hx => hl x (by simp [hx])), cons_append]

/-! ## Forgetting everything below a floor -/

/-- Keep the entries that reach `floor`, cut at it. -/
def trimBelow (floor : Nat) : List Segment → List Segment
  | [] => []
  | r :: rest =>
    if floor ≤ r.stop then r.cut floor :: trimBelow floor rest else []

theorem trimBelow_canonical (hl : Canonical l) : Canonical (trimBelow floor l) := by
  induction l with
  | nil => exact .nil
  | cons r rest ih =>
    obtain ⟨hr, hab, hrest⟩ := Canonical.cons_iff.mp hl
    rw [trimBelow]
    split_ifs with h
    · refine Canonical.cons_iff.mpr ⟨by simp only [cut]; omega, ?_, ih hrest⟩
      have hsub : ∀ (m : List Segment), (∀ x ∈ m, r.Above x) → ∀ x ∈ trimBelow floor m,
          (r.cut floor).Above x := by
        intro m
        induction m with
        | nil => simp [trimBelow]
        | cons y m ihm =>
          intro hm x hx
          rw [trimBelow] at hx
          split_ifs at hx with hy
          · rcases mem_cons.mp hx with rfl | hx
            · have : y.stop + 1 < r.start := hm y (by simp)
              simp only [Above, cut]
              omega
            · exact ihm (fun z hz => hm z (by simp [hz])) x hx
          · simp at hx
      exact hsub rest hab
    · exact .nil

theorem denote_trimBelow (hl : Canonical l) :
    denote (trimBelow floor l) = denote l ∩ { n | floor ≤ n } := by
  induction l with
  | nil => simp [trimBelow]
  | cons r rest ih =>
    obtain ⟨hr, hab, hrest⟩ := Canonical.cons_iff.mp hl
    rw [trimBelow]
    split_ifs with h
    · rw [denote_cons, denote_cons, ih hrest]
      ext n
      simp only [Set.mem_union, Set.mem_inter_iff, Set.mem_ofPred_eq, Segment.Mem, cut]
      constructor
      · rintro (hn | ⟨hn, hf⟩)
        · exact ⟨.inl ⟨by omega, hn.2⟩, by omega⟩
        · exact ⟨.inr hn, hf⟩
      rintro ⟨hn | hn, hf⟩
      · exact .inl ⟨by omega, hn.2⟩
      · exact .inr ⟨hn, hf⟩
    · -- The first entry already ends below the floor, and the rest lie lower still.
      ext n
      simp only [denote_nil, Set.mem_empty_iff_false, false_iff, Set.mem_inter_iff,
        Set.mem_ofPred_eq]
      intro hn
      rw [denote_cons] at hn
      rcases hn with hn | hn
      · have := hn.2; omega
      · have := hl.tail_lt_start hn; omega

end Intervals

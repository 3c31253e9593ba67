import Mathlib.Data.List.Induction

/-!
# Byte streams cut by a flag

A decoder of a byte stream is a step function that takes one symbol and emits some output
(`feed` runs it over a list). How the input is cut into chunks cannot matter to such a decoder.

Where one symbol, the flag, both closes a record and opens the next, what has been read is
described by the closed segments between consecutive flags (`segments`) and the segment the last
flag has opened (`openSegment`). The three `_concat` lemmas say how one more symbol changes them;
`flag_induction` is the induction over an input in these terms.
-/

namespace Framing

open List

/-! ## Running a decoder -/

section Feed

variable {σ α ρ : Type}

/-- Run `step` over the input, in order, collecting what it emits. -/
def feed (step : σ → α → σ × List ρ) : σ → List α → σ × List ρ
  | s, [] => (s, [])
  | s, a :: rest =>
    let (s, out) := step s a
    let (s, more) := feed step s rest
    (s, out ++ more)

variable {step : σ → α → σ × List ρ} (s : σ)

@[simp] theorem feed_nil : feed step s [] = (s, []) := rfl

theorem feed_cons (a : α) (rest : List α) : feed step s (a :: rest) =
      ((feed step (step s a).1 rest).1, (step s a).2 ++ (feed step (step s a).1 rest).2) := rfl

theorem feed_append (l m : List α) : feed step s (l ++ m) =
      ((feed step (feed step s l).1 m).1,
        (feed step s l).2 ++ (feed step (feed step s l).1 m).2) := by
  induction l generalizing s with
  | nil => simp
  | cons a l ih => simp only [cons_append, feed_cons, ih, append_assoc]

theorem feed_concat (l : List α) (a : α) : feed step s (l ++ [a]) =
      ((step (feed step s l).1 a).1, (feed step s l).2 ++ (step (feed step s l).1 a).2) := by
  simp only [feed_append, feed_cons, feed_nil, append_nil]

/-- Feeding chunk after chunk is feeding their concatenation. -/
theorem feed_chunks (chunks : List (List α)) :
    feed (feed step) s chunks = feed step s chunks.flatten := by
  induction chunks generalizing s with
  | nil => rfl
  | cons chunk chunks ih => rw [feed_cons, flatten_cons, feed_append, ih]

end Feed

/-! ## Segments -/

section Segments

variable {α : Type} [DecidableEq α] {b : α}

/-- What stands between two consecutive flags. -/
def segments (flag : α) (l : List α) : List (List α) := (l.splitOn flag).tail.dropLast

/-- What stands behind the last flag, if there is one. -/
def openSegment (flag : α) (l : List α) : Option (List α) := (l.splitOn flag).tail.getLast?

variable {flag : α}

@[simp] theorem segments_nil : segments flag [] = [] := rfl

@[simp] theorem openSegment_nil : openSegment flag [] = none := rfl

/-- One more symbol that is not the flag extends the last piece. -/
theorem splitOn_concat_of_ne (hb : b ≠ flag) (l : List α) :
    ∃ pieces last, l.splitOn flag = pieces ++ [last] ∧
      (l ++ [b]).splitOn flag = pieces ++ [last ++ [b]] := by
  induction l with
  | nil => exact ⟨[], [], rfl, by simp [splitOn_cons_eq_if_modifyHead, hb]⟩
  | cons a l ih =>
    obtain ⟨pieces, last, hl, hlb⟩ := ih
    rw [cons_append, splitOn_cons_eq_if_modifyHead, splitOn_cons_eq_if_modifyHead, hl, hlb]
    by_cases ha : a = flag
    · exact ⟨[] :: pieces, last, by simp [ha], by simp [ha]⟩
    cases pieces with
    | nil => exact ⟨[], a :: last, by simp [ha], by simp [ha]⟩
    | cons piece pieces => exact ⟨(a :: piece) :: pieces, last, by simp [ha], by simp [ha]⟩

theorem splitOn_concat_flag (l : List α) : (l ++ [flag]).splitOn flag = l.splitOn flag ++ [[]] := by
  rw [splitOn_append_cons_self, splitOn_nil]

@[simp] theorem openSegment_concat_flag (l : List α) :
    openSegment flag (l ++ [flag]) = some [] := by
  obtain ⟨piece, pieces, hl⟩ := exists_cons_of_ne_nil (splitOn_ne_nil flag l)
  rw [openSegment, splitOn_concat_flag, hl, cons_append, tail_cons, getLast?_concat]

theorem segments_concat_flag (l : List α) :
    segments flag (l ++ [flag]) = segments flag l ++ (openSegment flag l).toList := by
  obtain ⟨piece, pieces, hl⟩ := exists_cons_of_ne_nil (splitOn_ne_nil flag l)
  rw [segments, segments, openSegment, splitOn_concat_flag, hl, cons_append, tail_cons, tail_cons,
    dropLast_concat]
  rcases eq_nil_or_concat pieces with rfl | ⟨init, last, rfl⟩
  · rfl
  · simp

theorem segments_concat_of_ne (hb : b ≠ flag) (l : List α) :
    segments flag (l ++ [b]) = segments flag l := by
  obtain ⟨pieces, last, hl, hlb⟩ := splitOn_concat_of_ne hb l
  rw [segments, segments, hl, hlb]
  cases pieces with
  | nil => rfl
  | cons piece pieces => simp

theorem openSegment_concat_of_ne (hb : b ≠ flag) (l : List α) :
    openSegment flag (l ++ [b]) = (openSegment flag l).map (· ++ [b]) := by
  obtain ⟨pieces, last, hl, hlb⟩ := splitOn_concat_of_ne hb l
  rw [openSegment, openSegment, hl, hlb]
  cases pieces with
  | nil => rfl
  | cons piece pieces => simp

/-- Before the first flag no segment is closed. -/
theorem segments_of_openSegment_none {l : List α} (h : openSegment flag l = none) :
    segments flag l = [] := by
  rw [openSegment, getLast?_eq_none_iff] at h
  rw [segments, h, dropLast_nil]

/-- Induction over what has been read: nothing yet, a flag, another symbol before the first flag, or
another symbol behind it. -/
theorem flag_induction (flag : α) {P : List α → Prop} (nil : P [])
    (closed : ∀ l, P l → P (l ++ [flag]))
    (outside : ∀ l b, b ≠ flag → openSegment flag l = none → P l → P (l ++ [b]))
    (inside : ∀ l b segment, b ≠ flag → openSegment flag l = some segment → P l → P (l ++ [b]))
    (l : List α) : P l := by
  induction l using reverseRecOn with
  | nil => exact nil
  | append_singleton l b ih =>
    by_cases hb : b = flag
    · exact hb ▸ closed l ih
    cases hopen : openSegment flag l with
    | none => exact outside l b hb hopen ih
    | some segment => exact inside l b segment hb hopen ih

end Segments

end Framing

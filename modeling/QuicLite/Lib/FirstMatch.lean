import Mathlib.Algebra.Order.Ring.Nat
import Mathlib.Algebra.BigOperators.Group.List.Basic

/-!
# Updating the first match of a list

Tables kept as lists are searched for the first entry with some key, which is then replaced or
removed. Both updates are described by one decomposition of the list around the match
(`find?_split`), and so is what they do to a sum over the entries.
-/

namespace FirstMatch

open List

variable {α : Type} {l : List α} {a : α} {f : α → α}

/-- Replace the first element that satisfies `p`. -/
def modifyFirst (p : α → Bool) (f : α → α) : List α → List α
  | [] => []
  | a :: l => if p a then f a :: l else a :: modifyFirst p f l

variable {p : α → Bool}

theorem find?_split (h : l.find? p = some a) :
    ∃ l₁ l₂, l = l₁ ++ a :: l₂ ∧ (∀ b ∈ l₁, p b = false) ∧ p a = true ∧ l.eraseP p = l₁ ++ l₂ ∧
      ∀ f, modifyFirst p f l = l₁ ++ f a :: l₂ := by
  induction l with
  | nil => simp at h
  | cons x l ih =>
    by_cases hx : p x = true
    · rw [find?_cons_of_pos hx] at h
      obtain rfl : x = a := by simpa using h
      exact ⟨[], l, rfl, by simp, hx, by simp [eraseP_cons_of_pos hx],
        fun f => by simp [modifyFirst, hx]⟩
    rw [find?_cons_of_neg hx] at h
    obtain ⟨l₁, l₂, hl, hbefore, ha, herase, hmodify⟩ := ih h
    refine ⟨x :: l₁, l₂, by rw [hl, cons_append], ?_, ha, ?_, fun f => ?_⟩
    · intro b hb
      rcases mem_cons.mp hb with rfl | hb
      · simpa using hx
      · exact hbefore b hb
    · rw [eraseP_cons_of_neg hx, herase, cons_append]
    · rw [modifyFirst, if_neg hx, hmodify f, cons_append]

/-- Searching again finds the replaced entry. -/
theorem find?_modifyFirst (hf : ∀ a, p a = true → p (f a) = true) (l : List α) :
    (modifyFirst p f l).find? p = (l.find? p).map f := by
  induction l with
  | nil => rfl
  | cons x l ih =>
    by_cases hx : p x = true
    · rw [modifyFirst, if_pos hx, find?_cons_of_pos (hf x hx), find?_cons_of_pos hx,
        Option.map_some]
    · rw [modifyFirst, if_neg hx, find?_cons_of_neg hx, find?_cons_of_neg hx, ih]

/-- Entries with another key are found as before. -/
theorem find?_modifyFirst_other {q : α → Bool}
    (hf : ∀ a, p a = true → q a = false ∧ q (f a) = false) (l : List α) :
    (modifyFirst p f l).find? q = l.find? q := by
  induction l with
  | nil => rfl
  | cons x l ih =>
    by_cases hx : p x = true
    · rw [modifyFirst, if_pos hx, find?_cons_of_neg (by simp [hf x hx]),
        find?_cons_of_neg (by simp [hf x hx])]
    · rw [modifyFirst, if_neg hx, find?_cons, find?_cons, ih]

theorem sum_eraseP (h : l.find? p = some a) (w : α → Nat) :
    ((l.eraseP p).map w).sum + w a = (l.map w).sum := by
  obtain ⟨l₁, l₂, hl, -, -, herase, -⟩ := find?_split h
  rw [herase, hl]
  simp only [map_append, map_cons, sum_append_nat, sum_cons]
  omega

theorem sum_modifyFirst (h : l.find? p = some a) (f : α → α)
    (w : α → Nat) : ((modifyFirst p f l).map w).sum + w a = (l.map w).sum + w (f a) := by
  obtain ⟨l₁, l₂, hl, -, -, -, hmodify⟩ := find?_split h
  rw [hmodify f, hl]
  simp only [map_append, map_cons, sum_append_nat, sum_cons]
  omega

theorem mem_modifyFirst {b : α} (h : l.find? p = some a) (hb : b ∈ modifyFirst p f l) :
    b = f a ∨ b ∈ l := by
  obtain ⟨l₁, l₂, hl, -, -, -, hmodify⟩ := find?_split h
  rw [hmodify f] at hb
  rw [hl]
  simp only [mem_append, mem_cons] at hb ⊢
  tauto

end FirstMatch

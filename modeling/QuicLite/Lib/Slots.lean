import Mathlib.Algebra.Order.Ring.Nat
import Mathlib.Algebra.BigOperators.Group.List.Basic

/-!
# The entries of a slot table

A slot table is a list of optional entries whose positions are reused. Each entry weighs something,
and the table weighs the sum. The lemmas say how the updates such tables undergo (overwriting a
slot, mapping every entry to at most one, appending and dropping free slots) change the entries and
the weight.
-/

namespace Slots

open List Option

variable {α : Type}

/-- The entries of a table, in slot order. -/
def entries (slots : List (Option α)) : List α := slots.filterMap id

variable {slots : List (Option α)}

theorem mem_entries {a : α} : a ∈ entries slots ↔ some a ∈ slots := by
  simp [entries]

/-- Mapping every entry to at most one. -/
theorem entries_bind (f : α → Option α) (slots : List (Option α)) :
    entries (slots.map (Option.bind · f)) = (entries slots).filterMap f := by
  unfold entries
  rw [filterMap_map, filterMap_filterMap]
  rfl

theorem map_eq_bind (g : α → α) (slots : List (Option α)) :
    slots.map (Option.map g) = slots.map (Option.bind · fun a => some (g a)) :=
  map_congr_left fun slot _ => by cases slot <;> rfl

theorem filter_eq_bind (p : α → Bool) (slots : List (Option α)) :
    slots.map (Option.filter p) = slots.map (Option.bind · fun a => if p a then some a else none) :=
  map_congr_left fun slot _ => by cases slot <;> rfl

/-- What one slot weighs. -/
def slotWeight (w : α → Nat) (slot : Option α) : Nat := slot.elim 0 w

@[simp] theorem slotWeight_none (w : α → Nat) : slotWeight w none = 0 := rfl

@[simp] theorem slotWeight_some (w : α → Nat) (a : α) : slotWeight w (some a) = w a := rfl

def weight (w : α → Nat) (slots : List (Option α)) : Nat := (slots.map (slotWeight w)).sum

variable (w : α → Nat)

@[simp] theorem weight_nil : weight w [] = 0 := rfl

@[simp] theorem weight_cons (slot : Option α) (slots : List (Option α)) :
    weight w (slot :: slots) = slotWeight w slot + weight w slots := rfl

theorem weight_eq_sum_entries (slots : List (Option α)) :
    weight w slots = ((entries slots).map w).sum := by
  induction slots with
  | nil => rfl
  | cons slot slots ih =>
    rw [weight_cons, ih]
    cases slot <;> simp [entries]

/-- Entries without weight add nothing. -/
theorem weight_eq_zero (h : ∀ a, some a ∈ slots → w a = 0) : weight w slots = 0 := by
  induction slots with
  | nil => rfl
  | cons slot slots ih =>
    rw [weight_cons, ih fun a ha => h a (mem_cons_of_mem _ ha)]
    cases slot with
    | none => rfl
    | some a => exact h a mem_cons_self

theorem weight_congr {w w' : α → Nat} (h : ∀ a, some a ∈ slots → w a = w' a) :
    weight w slots = weight w' slots := by
  induction slots with
  | nil => rfl
  | cons slot slots ih =>
    rw [weight_cons, weight_cons, ih fun a ha => h a (mem_cons_of_mem _ ha)]
    cases slot with
    | none => rfl
    | some a => rw [slotWeight_some, slotWeight_some, h a mem_cons_self]

theorem weight_set {i : Nat} {old : Option α} (h : slots[i]? = some old) (new : Option α) :
    weight w (slots.set i new) + slotWeight w old = weight w slots + slotWeight w new := by
  induction slots generalizing i with
  | nil => simp at h
  | cons slot slots ih =>
    cases i with
    | zero =>
      obtain rfl : slot = old := by simpa using h
      rw [set_cons_zero, weight_cons, weight_cons]
      omega
    | succ i =>
      have := ih (i := i) (by simpa using h)
      rw [set_cons_succ, weight_cons, weight_cons]
      omega

/-- Every entry becomes at most one entry. -/
theorem weight_bind (f : α → Option α) (slots : List (Option α)) :
    weight w (slots.map (Option.bind · f)) = weight (fun a => slotWeight w (f a)) slots := by
  induction slots with
  | nil => rfl
  | cons slot slots ih =>
    rw [map_cons, weight_cons, ih]
    cases slot <;> rfl

/-- The weight moved out by a map is what the affected entries lose. -/
theorem weight_bind_add (f : α → Option α) (q : α → Bool)
    (hstay : ∀ a, some a ∈ slots → q a = false → slotWeight w (f a) = w a)
    (hgone : ∀ a, some a ∈ slots → q a = true → slotWeight w (f a) = 0) :
    weight w (slots.map (Option.bind · f)) + (((entries slots).filter q).map w).sum =
      weight w slots := by
  induction slots with
  | nil => rfl
  | cons slot slots ih =>
    have ih := ih (fun a ha => hstay a (mem_cons_of_mem _ ha)) (fun a ha =>
      hgone a (mem_cons_of_mem _ ha))
    rw [map_cons, weight_cons, weight_cons]
    cases slot with
    | none =>
      simp only [entries, bind_none, slotWeight_none, Nat.zero_add] at ih ⊢
      exact ih
    | some a =>
    cases hq : q a with
    | false =>
      have := hstay a mem_cons_self hq
      simp only [entries, filterMap_cons, id_eq, bind_some, slotWeight_some,
        filter_cons_of_neg (show ¬q a = true by simp [hq])] at ih ⊢
      omega
    | true =>
      have := hgone a mem_cons_self hq
      simp only [entries, filterMap_cons, id_eq, bind_some, slotWeight_some,
        filter_cons_of_pos hq, map_cons, sum_cons] at ih ⊢
      omega

end Slots

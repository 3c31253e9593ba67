import Mathlib.Data.Finset.Card

/-!
# First fit

Claimants look for a free place in one pass from place zero upwards. The level of a claimant is the
place it looks at or has taken. A claimant moves up only past a place that another one has taken, so
at most `n - h` of `n` claimants can be at level `h` or above, and none ever looks beyond place `n -
1`. Places may be given up at any time, and a pass may stall for any time.
-/

namespace FirstFit

open Function Finset

variable {ι : Type} {claimants : Finset ι} {level : ι → Option Nat} {claimant : ι}

/-- Claimants at level `h` or above. -/
def above (claimants : Finset ι) (level : ι → Option Nat) (h : Nat) : Finset ι :=
  claimants.filter fun claimant => ∃ l, level claimant = some l ∧ h ≤ l

theorem mem_above {h : Nat} :
    claimant ∈ above claimants level h ↔ claimant ∈ claimants ∧ ∃ l, level claimant = some l ∧
      h ≤ l :=
  mem_filter

/-- The higher the level, the fewer are there. -/
def Spread (claimants : Finset ι) (level : ι → Option Nat) : Prop :=
  ∀ h, (above claimants level h).card ≤ claimants.card - h

namespace Spread

theorem none_above (claimants : Finset ι) : Spread claimants fun _ => none := by
  intro h
  have : above claimants (fun _ => none) h = ∅ := filter_eq_empty_iff.mpr (by simp)
  simp [this]

section

variable (hspread : Spread claimants level)
variable {l : Nat}
include hspread

theorem giveUp [DecidableEq ι] (claimant : ι) : Spread claimants (update level claimant none) := by
  intro h
  refine (card_le_card ?_).trans (hspread h)
  intro other hother
  obtain ⟨hmem, l, hl, hh⟩ := mem_above.mp hother
  rw [update_apply] at hl
  split at hl
  · cases hl
  · exact mem_above.mpr ⟨hmem, l, hl, hh⟩

theorem start [DecidableEq ι] (claimant : ι) :
    Spread claimants (update level claimant (some 0)) := by
  intro h
  cases h with
  | zero => exact card_filter_le _ _
  | succ h =>
  refine (card_le_card ?_).trans (hspread (h + 1))
  intro other hother
  obtain ⟨hmem, l, hl, hh⟩ := mem_above.mp hother
  rw [update_apply] at hl
  split at hl
  · cases hl
    omega
  · exact mem_above.mpr ⟨hmem, l, hl, hh⟩

/-- A pass moves up past a place that another claimant has taken. -/
theorem advance [DecidableEq ι] {holder : ι} (hne : holder ≠ claimant)
    (hclaimant : claimant ∈ claimants) (hholder : holder ∈ claimants)
    (hlevel : level claimant = some l) (htaken : level holder = some l) :
    Spread claimants (update level claimant (some (l + 1))) := by
  intro h
  by_cases hh : h = l + 1
  · subst hh
    -- both are at level `l` and not above it before the move
    have hsub : insert claimant (insert holder (above claimants level (l + 1))) ⊆
        above claimants level l := by
      intro other hother
      rcases mem_insert.mp hother with rfl | hother
      · exact mem_above.mpr ⟨hclaimant, l, hlevel, le_refl l⟩
      rcases mem_insert.mp hother with rfl | hother
      · exact mem_above.mpr ⟨hholder, l, htaken, le_refl l⟩
      · obtain ⟨hmem, k, hk, hle⟩ := mem_above.mp hother
        exact mem_above.mpr ⟨hmem, k, hk, by omega⟩
    have hout : ∀ other, level other = some l → other ∉ above claimants level (l + 1) := by
      intro other hother hmem
      obtain ⟨-, k, hk, hle⟩ := mem_above.mp hmem
      rw [hother] at hk
      cases hk
      omega
    have hcard : (above claimants level (l + 1)).card + 2 ≤ (above claimants level l).card := by
      have := card_le_card hsub
      rwa [card_insert_of_notMem, card_insert_of_notMem (hout holder htaken)] at this
      rw [mem_insert, not_or]
      exact ⟨Ne.symm hne, hout claimant hlevel⟩
    have hnext : above claimants (update level claimant (some (l + 1))) (l + 1) ⊆
        insert claimant (above claimants level (l + 1)) := by
      intro other hother
      obtain ⟨hmem, k, hk, hle⟩ := mem_above.mp hother
      by_cases heq : other = claimant
      · exact mem_insert.mpr (.inl heq)
      · rw [update_of_ne heq] at hk
        exact mem_insert.mpr (.inr (mem_above.mpr ⟨hmem, k, hk, hle⟩))
    have hnextcard := (card_le_card hnext).trans (card_insert_le _ _)
    have hbound := hspread l
    omega
  · refine (card_le_card ?_).trans (hspread h)
    intro other hother
    obtain ⟨hmem, k, hk, hle⟩ := mem_above.mp hother
    by_cases heq : other = claimant
    · subst heq
      rw [update_self] at hk
      cases hk
      exact mem_above.mpr ⟨hmem, l, hlevel, by omega⟩
    · rw [update_of_ne heq] at hk
      exact mem_above.mpr ⟨hmem, k, hk, hle⟩

/-- Nobody looks beyond the last place. -/
theorem lt_card (hclaimant : claimant ∈ claimants) (hlevel : level claimant = some l) :
    l < claimants.card := by
  have hpos : 0 < (above claimants level l).card :=
    card_pos.mpr ⟨claimant, mem_above.mpr ⟨hclaimant, l, hlevel, le_refl l⟩⟩
  have := hspread l
  omega

end

end Spread

end FirstFit

import Mathlib.Data.List.AList

/-!
# Tables that forget

A finite map is an association list with distinct keys. `retain` keeps the entries that a predicate
picks.
-/

namespace Table

open Option

variable {κ α : Type} [DecidableEq κ] {table : AList fun _ : κ => α} {k : κ} {value : α}

def retain (p : α → Bool) (table : AList fun _ : κ => α) : AList fun _ : κ => α :=
  ⟨table.entries.filter fun entry => p entry.2, table.nodupKeys.sublist List.filter_sublist⟩

theorem lookup_retain (p : α → Bool) (table : AList fun _ : κ => α) (k : κ) :
    (retain p table).lookup k = (table.lookup k).filter p := by
  ext value
  rw [← mem_def, AList.mem_lookup_iff]
  show ⟨k, value⟩ ∈ table.entries.filter _ ↔ _
  rw [List.mem_filter, ← AList.mem_lookup_iff, filter_eq_some_iff, mem_def]

theorem lookup_retain_eq_some {p : α → Bool} :
    (retain p table).lookup k = some value ↔ table.lookup k = some value ∧ p value = true := by
  rw [lookup_retain, filter_eq_some_iff]

theorem lookup_insert_cases {other : κ} {found : α}
    (h : (table.insert k value).lookup other = some found) :
    (other = k ∧ found = value) ∨ (other ≠ k ∧ table.lookup other = some found) := by
  by_cases hk : other = k
  · rw [hk, AList.lookup_insert] at h
    exact .inl ⟨hk, (some.inj h).symm⟩
  · rw [AList.lookup_insert_ne hk] at h
    exact .inr ⟨hk, h⟩

end Table

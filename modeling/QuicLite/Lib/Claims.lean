import QuicLite.Lib.Runs

/-!
# Claiming write-once slots

Any number of tasks enter values into a table of slots. A task first reads the slots one by one and
gives up when one holds its key, and then claims the first slot that it finds empty. A claim is
atomic, but the reads before it are not part of it: two tasks with one key may both get through.
`Inv` holds in every run in which no task starts while another one is at work on the same key, and
then every key is in the table once (`Inv.unique`). What was entered stays (`Inv.visible`), in any
run.
-/

namespace Claims

open List Function

/-- Where a task is. -/
inductive Pc (α : Type) where
  | idle
  | scanning (entry : α) (index : Nat)
  | claiming (entry : α) (index : Nat)

/-- The value that a task is at work on. -/
def Pc.entry {α : Type} : Pc α → Option α
  | .idle => none
  | .scanning entry _ | .claiming entry _ => some entry

/-- The slots, the tasks, and the calls that have returned with their results. -/
structure Shared (α ι : Type) where
  table : Nat → Option α
  pc : ι → Pc α
  returned : List (α × Bool)

namespace Shared

variable {α κ ι : Type} [DecidableEq κ] [DecidableEq ι] (capacity : Nat) (key : α → κ) {i : ι}

def start : Shared α ι := ⟨fun _ => none, fun _ => .idle, []⟩

def goto (s : Shared α ι) (i : ι) (pc : Pc α) : Shared α ι :=
  { s with pc := update s.pc i pc }

/-- The call of a task returns. -/
def giving (s : Shared α ι) (i : ι) (entry : α) (result : Bool) : Shared α ι :=
  { s.goto i .idle with returned := s.returned ++ [(entry, result)] }

/-- A task that is idle starts. -/
def enter (s : Shared α ι) (i : ι) (entry : α) : Shared α ι :=
  match s.pc i with
  | .idle => s.goto i (.scanning entry 0)
  | _ => s

/-- One access of a task to the table: a read of a slot, or a compare-exchange on it. -/
def advance (s : Shared α ι) (i : ι) : Shared α ι :=
  match s.pc i with
  | .idle => s
  | .scanning entry index =>
    if index < capacity then
      if (s.table index).any fun other => key other = key entry then s.giving i entry false
      else s.goto i (.scanning entry (index + 1))
    else s.goto i (.claiming entry 0)
  | .claiming entry index =>
    if index < capacity then
      match s.table index with
      | none => { s with table := update s.table index (some entry) }.giving i entry true
      | some _ => s.goto i (.claiming entry (index + 1))
    else s.giving i entry false

/-! ## What every run keeps -/

/-- Only the slots are filled, and what was entered is in one of them. -/
structure Entered (s : Shared α ι) : Prop where
  beyond : ∀ index, capacity ≤ index → s.table index = none
  visible : ∀ entry, (entry, true) ∈ s.returned → ∃ index, s.table index = some entry

variable {capacity} {s : Shared α ι}

omit [DecidableEq ι] in
theorem entered_start : Entered capacity (start : Shared α ι) :=
  ⟨fun _ _ => rfl, fun _ h => absurd h not_mem_nil⟩

theorem Entered.goto (h : Entered capacity s) (i : ι) (pc : Pc α) :
    Entered capacity (s.goto i pc) :=
    ⟨h.beyond, h.visible⟩

theorem Entered.refuse (h : Entered capacity s) (i : ι) (entry : α) :
    Entered capacity (s.giving i entry false) := by
  refine ⟨h.beyond, fun other hmem => ?_⟩
  rcases mem_append.mp hmem with hmem | hmem
  · exact h.visible other hmem
  · exact absurd (congrArg Prod.snd (mem_singleton.mp hmem)) (by simp)

theorem Entered.claim (h : Entered capacity s) (i : ι) (entry : α) {index : Nat}
    (hindex : index < capacity) (hfree : s.table index = none) : Entered capacity ({ s with
      table := update s.table index (some entry) }.giving i entry true) := by
  constructor
  · intro other hother
    show update s.table index (some entry) other = none
    rw [update_of_ne (by omega)]
    exact h.beyond other hother
  intro other hmem
  rcases mem_append.mp hmem with hmem | hmem
  · obtain ⟨slot, hslot⟩ := h.visible other hmem
    refine ⟨slot, ?_⟩
    show update s.table index (some entry) slot = some other
    rw [update_of_ne, hslot]
    rintro rfl
    rw [hfree] at hslot
    cases hslot
  obtain rfl : other = entry := congrArg Prod.fst (mem_singleton.mp hmem)
  refine ⟨index, ?_⟩
  show update s.table index (some other) index = some other
  exact update_self _ _ _

/-! ## Keys -/

/-- No other task is at work on this key. -/
def Apart (s : Shared α ι) (entry : α) : Prop :=
  ∀ j other, (s.pc j).entry = some other → key other ≠ key entry

/-- Keys are unique, those that tasks are at work on differ, and a task has seen that its key is not
there. -/
structure Inv (capacity : Nat) (key : α → κ) (s : Shared α ι) :
    Prop extends Entered capacity s where
  unique : ∀ index index' entry entry', s.table index = some entry → s.table index' = some entry' →
    key entry = key entry' → index = index'
  apart : ∀ i j entry other, (s.pc i).entry = some entry → (s.pc j).entry = some other →
    key entry = key other → i = j
  scanned : ∀ i entry index, s.pc i = .scanning entry index →
    ∀ before < index, ∀ other, s.table before = some other → key other ≠ key entry
  checked : ∀ i entry index, s.pc i = .claiming entry index →
    ∀ slot other, s.table slot = some other → key other ≠ key entry

variable {key}

omit [DecidableEq κ] [DecidableEq ι] in
theorem inv_start : Inv capacity key (start : Shared α ι) where
  toEntered := entered_start
  unique := fun _ _ _ _ h => by cases h
  apart := fun _ _ _ _ h => by cases h
  scanned := fun _ _ _ h => by cases h
  checked := fun _ _ _ h => by cases h

omit [DecidableEq κ] in
/-- A task moves on. -/
theorem Inv.goto (h : Inv capacity key s) {pc : Pc α}
    (hentry : ∀ entry, pc.entry = some entry → (s.pc i).entry = some entry ∨ Apart key s entry)
    (hscanned : ∀ entry index, pc = .scanning entry index →
      ∀ before < index, ∀ other, s.table before = some other → key other ≠ key entry)
    (hchecked : ∀ entry index, pc = .claiming entry index →
      ∀ slot other, s.table slot = some other → key other ≠ key entry) :
      Inv capacity key (s.goto i pc) where
  toEntered := h.toEntered.goto i pc
  unique := h.unique
  apart := by
    intro j k entry other hj hk hkey
    change (update s.pc i pc j).entry = some entry at hj
    change (update s.pc i pc k).entry = some other at hk
    by_cases hji : j = i <;> by_cases hki : k = i
    · rw [hji, hki]
    · subst hji
      rw [update_self] at hj
      rw [update_of_ne hki] at hk
      rcases hentry entry hj with hsame | hfree
      · exact h.apart _ _ _ _ hsame hk hkey
      · exact absurd hkey.symm (hfree k other hk)
    · subst hki
      rw [update_self] at hk
      rw [update_of_ne hji] at hj
      rcases hentry other hk with hsame | hfree
      · exact h.apart _ _ _ _ hj hsame hkey
      · exact absurd hkey (hfree j entry hj)
    · rw [update_of_ne hji] at hj
      rw [update_of_ne hki] at hk
      exact h.apart _ _ _ _ hj hk hkey
  scanned := by
    intro j entry index hj
    change update s.pc i pc j = _ at hj
    by_cases hji : j = i
    · subst hji
      rw [update_self] at hj
      exact hscanned entry index hj
    · rw [update_of_ne hji] at hj
      exact h.scanned j entry index hj
  checked := by
    intro j entry index hj
    change update s.pc i pc j = _ at hj
    by_cases hji : j = i
    · subst hji
      rw [update_self] at hj
      exact hchecked entry index hj
    · rw [update_of_ne hji] at hj
      exact h.checked j entry index hj

omit [DecidableEq κ] in
theorem Inv.rest (h : Inv capacity key s) (i : ι) : Inv capacity key (s.goto i .idle) :=
  h.goto (fun _ hentry => by cases hentry) (fun _ _ hpc => by cases hpc)
    (fun _ _ hpc => by cases hpc)

omit [DecidableEq κ] in
theorem Inv.refuse (h : Inv capacity key s) (i : ι) (entry : α) :
    Inv capacity key (s.giving i entry false) :=
  { h.rest i with toEntered := h.toEntered.refuse i entry }

omit [DecidableEq κ] in
theorem Inv.claim (h : Inv capacity key s) {entry : α} {at' index : Nat}
    (hpc : s.pc i = .claiming entry at') (hindex : index < capacity)
    (hfree : s.table index = none) : Inv capacity key ({ s with
      table := update s.table index (some entry) }.giving i entry true) := by
  have hheld : (s.pc i).entry = some entry := by
    rw [hpc]
    rfl
  -- Every entry of the new table is the claimed one, or was there before.
  have hslot : ∀ slot other, update s.table index (some entry) slot = some other →
      slot = index ∧ other = entry ∨ slot ≠ index ∧ s.table slot = some other := by
    intro slot other hother
    by_cases heq : slot = index
    · subst heq
      rw [update_self] at hother
      exact .inl ⟨rfl, (Option.some.inj hother).symm⟩
    · rw [update_of_ne heq] at hother
      exact .inr ⟨heq, hother⟩
  -- The other tasks are at work on other keys.
  have hother : ∀ j other, j ≠ i → (s.pc j).entry = some other → key entry ≠ key other :=
    fun j other hji hj hkey => hji (h.apart _ _ _ _ hheld hj hkey).symm
  have hidle : ∀ j pc, update s.pc i .idle j = pc → pc ≠ .idle → j ≠ i ∧ s.pc j = pc := by
    intro j pc hj hne
    by_cases hji : j = i
    · subst hji
      rw [update_self] at hj
      exact absurd hj.symm hne
    · rw [update_of_ne hji] at hj
      exact ⟨hji, hj⟩
  constructor
  · exact h.toEntered.claim i entry hindex hfree
  · intro slot slot' a b ha hb hkey
    rcases hslot slot a ha with ⟨rfl, rfl⟩ | ⟨-, hold⟩ <;> rcases hslot slot' b hb with ⟨rfl, rfl⟩ |
      ⟨-, hold'⟩
    · rfl
    · exact absurd hkey.symm (h.checked i _ _ hpc slot' b hold')
    · exact absurd hkey (h.checked i _ _ hpc slot a hold)
    · exact h.unique slot slot' a b hold hold' hkey
  · exact (h.rest i).apart
  · intro j other upto hj before hbefore x hx
    obtain ⟨hji, hpcj⟩ := hidle j _ hj (by simp)
    rcases hslot before x hx with ⟨-, rfl⟩ | ⟨-, hold⟩
    · exact hother j other hji (by rw [hpcj]; rfl)
    · exact h.scanned j other upto hpcj before hbefore x hold
  · intro j other upto hj slot x hx
    obtain ⟨hji, hpcj⟩ := hidle j _ hj (by simp)
    rcases hslot slot x hx with ⟨-, rfl⟩ | ⟨-, hold⟩
    · exact hother j other hji (by rw [hpcj]; rfl)
    · exact h.checked j other upto hpcj slot x hold

omit [DecidableEq κ] in
theorem Inv.enter (h : Inv capacity key s) {entry : α} (hapart : Apart key s entry) :
    Inv capacity key (s.enter i entry) := by
  unfold Shared.enter
  split
  · refine h.goto (fun other hother => ?_) (fun other index hpc before hbefore => ?_)
      (fun _ _ hpc => by cases hpc)
    · exact .inr (Option.some.inj hother ▸ hapart)
    · obtain ⟨-, rfl⟩ := Pc.scanning.inj hpc
      exact absurd hbefore (Nat.not_lt_zero before)
  · exact h

theorem Inv.advance (h : Inv capacity key s) (i : ι) :
    Inv capacity key (s.advance capacity key i) := by
  unfold Shared.advance
  split
  · exact h
  · rename_i entry index hpc
    have hheld : (s.pc i).entry = some entry := by
      rw [hpc]
      rfl
    split
    · split
      · exact h.refuse i entry
      rename_i hread
      refine h.goto (fun other hother => .inl (hheld.trans hother)) (fun other upto hnext => ?_)
        (fun _ _ hnext => by cases hnext)
      obtain ⟨rfl, rfl⟩ := Pc.scanning.inj hnext
      intro before hbefore x hx
      rcases Nat.lt_succ_iff_lt_or_eq.mp hbefore with hlt | rfl
      · exact h.scanned i entry index hpc before hlt x hx
      intro hkey
      rw [hx] at hread
      exact hread (by simp [hkey])
    · rename_i hend
      refine h.goto (fun other hother => .inl (hheld.trans hother))
        (fun _ _ hnext => by cases hnext)
        (fun other upto hnext => ?_)
      obtain ⟨rfl, -⟩ := Pc.claiming.inj hnext
      intro slot x hx
      rcases Nat.lt_or_ge slot capacity with hlt | hge
      · exact h.scanned i entry index hpc slot (by omega) x hx
      · rw [h.beyond slot hge] at hx
        cases hx
  · rename_i entry index hpc
    have hheld : (s.pc i).entry = some entry := by
      rw [hpc]
      rfl
    split
    · rename_i hindex
      split
      · rename_i hfree
        exact h.claim hpc hindex hfree
      refine h.goto (fun other hother => .inl (hheld.trans hother))
        (fun _ _ hnext => by cases hnext)
        (fun other upto hnext => ?_)
      obtain ⟨rfl, -⟩ := Pc.claiming.inj hnext
      exact h.checked i entry index hpc
    · exact h.refuse i entry

end Shared

end Claims

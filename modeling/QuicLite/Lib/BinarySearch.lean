import Mathlib.Order.Lattice
import Mathlib.Data.List.Basic

/-!
# Binary search

The halving loop of a slice's `binary_search_by_key`, over any linearly ordered keys. In a list that
is strictly sorted by its keys it finds every key that is there, and otherwise the position to
insert it at.
-/

namespace BinarySearch

open List Nat Option

variable {α κ : Type} [LinearOrder κ]

/-- The loop: keep the half in which the last position that satisfies `atMost` lies. -/
def narrow (atMost : Nat → Bool) : Nat → Nat → Nat → Nat
  | 0, base, _ => base
  | fuel + 1, base, size =>
    if size ≤ 1 then base
    else narrow atMost fuel (if atMost (base + size / 2) then base + size / 2 else base)
      (size - size / 2)

/-- The position is that of the last entry that does not exceed `k`, if there is one. -/
def position (key : α → κ) (k : κ) (l : List α) : Nat :=
  narrow (fun i => l[i]?.any fun a => key a ≤ k) l.length 0 l.length

/-- `Ok` with the position of the key, or `Err` with the position to insert it at. -/
def search (key : α → κ) (k : κ) (l : List α) : Except Nat Nat :=
  match l[position key k l]? with
  | none => .error 0
  | some a =>
    if key a = k then .ok (position key k l)
    else .error (if key a < k then position key k l + 1 else position key k l)

/-- Sorted by key, no key twice. -/
def Sorted (key : α → κ) (l : List α) : Prop := l.Pairwise fun a b => key a < key b

/-- The invariant of the loop: below `base` nothing is excluded, from `base + size` on everything
is. -/
theorem narrow_spec {atMost : Nat → Bool} (hanti : ∀ i j, i ≤ j → atMost j = true → atMost i = true)
    {fuel base size : Nat} (hfuel : size ≤ fuel + 1) (hsize : 1 ≤ size)
    (hbase : base = 0 ∨ atMost base = true) (habove : ∀ j, base + size ≤ j → atMost j = false) :
    narrow atMost fuel base size < base + size ∧
      (narrow atMost fuel base size = 0 ∨ atMost (narrow atMost fuel base size) = true) ∧
      ∀ j, narrow atMost fuel base size < j → atMost j = false := by
  induction fuel generalizing base size with
  | zero =>
    refine ⟨by simp only [narrow]; omega, hbase, fun j hj => habove j ?_⟩
    simp only [narrow] at hj
    omega
  | succ fuel ih =>
    rw [narrow]
    by_cases hone : size ≤ 1
    · rw [if_pos hone]
      exact ⟨by omega, hbase, fun j hj => habove j (by omega)⟩
    rw [if_neg hone]
    cases hmid : atMost (base + size / 2) with
    | true =>
      rw [if_pos rfl]
      obtain ⟨hlt, hat, hrest⟩ :=
        @ih (base + size / 2) (size - size / 2) (by omega) (by omega) (.inr hmid)
        (fun j hj => habove j (by omega))
      exact ⟨by omega, hat, hrest⟩
    | false =>
      rw [if_neg (by simp)]
      have hexcluded : ∀ j, base + (size - size / 2) ≤ j → atMost j = false := by
        intro j hj
        by_contra htrue
        have := hanti (base + size / 2) j (by omega) (by simpa using htrue)
        rw [hmid] at this
        cases this
      obtain ⟨hlt, hat, hrest⟩ := ih (by omega) (by omega) hbase hexcluded
      exact ⟨by omega, hat, hrest⟩

section Search

variable {key : α → κ} {k : κ} {l : List α} {i : Nat} {a : α}

theorem Sorted.getElem_lt (hs : Sorted key l) {j : Nat} {b : α} (ha : l[i]? = some a)
    (hb : l[j]? = some b) (hij : i < j) : key a < key b := by
  obtain ⟨hi, rfl⟩ := List.getElem?_eq_some_iff.mp ha
  obtain ⟨hj, rfl⟩ := List.getElem?_eq_some_iff.mp hb
  exact List.pairwise_iff_getElem.mp hs i j hi hj hij

theorem position_spec (hs : Sorted key l) (hne : l ≠ []) : position key k l < l.length ∧
      (position key k l = 0 ∨ ∃ a, l[position key k l]? = some a ∧ key a ≤ k) ∧
      ∀ j a, position key k l < j → l[j]? = some a → k < key a := by
  have hlength : 1 ≤ l.length := length_pos_iff.mpr hne
  have hany : ∀ i : Nat, (l[i]?.any fun a => key a ≤ k) = true ↔
      ∃ a, l[i]? = some a ∧ key a ≤ k := by
    simp [Option.any_eq_true]
  have hanti : ∀ i j : Nat, i ≤ j → (l[j]?.any fun a => key a ≤ k) = true →
      (l[i]?.any fun a => key a ≤ k) = true := by
    intro i j hij hj
    obtain ⟨b, hb, hle⟩ := (hany j).mp hj
    rcases eq_or_lt_of_le hij with rfl | hlt
    · exact hj
    obtain ⟨hjlt, -⟩ := List.getElem?_eq_some_iff.mp hb
    have ha : l[i]? = some l[i] := List.getElem?_eq_getElem (by omega)
    exact (hany i).mpr ⟨l[i], ha, ((hs.getElem_lt ha hb hlt).le).trans hle⟩
  obtain ⟨hlt, hat, hrest⟩ :=
    @narrow_spec _ hanti l.length 0 l.length (le_succ _) hlength (.inl rfl)
    (fun j hj => by simp [getElem?_eq_none (by omega : l.length ≤ j)])
  refine ⟨by simpa [position] using hlt, hat.imp_right (hany _).mp, ?_⟩
  intro j a hj ha
  by_contra hle
  have := (hany j).mpr ⟨a, ha, not_lt.mp hle⟩
  rw [hrest j hj] at this
  cases this

/-- Only the keys are searched. -/
theorem search_congr {l' : List α} (h : l.map key = l'.map key) :
    search key k l = search key k l' := by
  have hlength : l.length = l'.length := by simpa using congrArg length h
  have hget : ∀ i : Nat, l[i]?.map key = l'[i]?.map key := by
    intro i
    rw [← getElem?_map, ← getElem?_map, h]
  have hany : ∀ i : Nat, (l[i]?.any fun a => key a ≤ k) = l'[i]?.any fun a => key a ≤ k := by
    intro i
    have := congrArg (Option.any fun b => decide (b ≤ k)) (hget i)
    rwa [Option.any_map, Option.any_map] at this
  have hposition : position key k l = position key k l' := by
    rw [position, position, hlength, funext hany]
  have hat := hget (position key k l)
  unfold search
  rw [← hposition]
  cases hl : l[position key k l]? with
  | none =>
    rw [hl, map_none, eq_comm, map_eq_none_iff] at hat
    rw [hat]
  | some a =>
    rw [hl, map_some, eq_comm, map_eq_some_iff] at hat
    obtain ⟨b, hb, hkey⟩ := hat
    rw [hb]
    simp only [hkey]

theorem search_ok (h : search key k l = .ok i) : ∃ a, l[i]? = some a ∧ key a = k := by
  unfold search at h
  split at h
  · cases h
  rename_i a ha
  split at h
  · rename_i hkey
    cases h
    exact ⟨a, ha, hkey⟩
  · cases h

/-- A missing key is to be inserted between the smaller and the greater ones. -/
theorem search_error (hs : Sorted key l) (h : search key k l = .error i) :
    i ≤ l.length ∧ (∀ a ∈ l.take i, key a < k) ∧ ∀ a ∈ l.drop i, k < key a := by
  by_cases hne : l = []
  · subst hne
    simp [search] at h
    simp [← h]
  obtain ⟨hlt, hat, hrest⟩ := position_spec (k := k) hs hne
  have hget : l[position key k l]? = some l[position key k l] := getElem?_eq_getElem hlt
  unfold search at h
  rw [hget] at h
  simp only at h
  split at h
  · cases h
  rename_i hkey
  split at h
  · rename_i hless
    cases h
    refine ⟨hlt, ?_, ?_⟩
    · intro a ha
      obtain ⟨j, hj, rfl⟩ := getElem_of_mem ha
      have hle : j ≤ position key k l := by
        rw [length_take] at hj
        omega
      rw [getElem_take]
      rcases eq_or_lt_of_le hle with heq | hlt'
      · simp only [heq]
        exact hless
      · exact (hs.getElem_lt (getElem?_eq_getElem (by omega)) hget hlt').trans hless
    · intro a ha
      obtain ⟨j, hj, rfl⟩ := getElem_of_mem ha
      rw [length_drop] at hj
      rw [getElem_drop]
      exact hrest (position key k l + 1 + j) _ (by omega) (getElem?_eq_getElem (by omega))
  · rename_i hless
    cases h
    -- The entry itself exceeds the key, so it is the first one.
    have hzero : position key k l = 0 := by
      rcases hat with hzero | ⟨a, ha, hle⟩
      · exact hzero
      · rw [hget, some.injEq] at ha
        exact absurd (lt_of_le_of_ne (ha ▸ hle) hkey) hless
    have hgreater : k < key l[position key k l] := lt_of_le_of_ne (not_lt.mp hless) (Ne.symm hkey)
    refine ⟨by omega, by simp [hzero], ?_⟩
    intro a ha
    obtain ⟨j, hj, rfl⟩ := getElem_of_mem ha
    rw [length_drop] at hj
    rw [getElem_drop]
    rcases Nat.eq_zero_or_pos j with rfl | hpos
    · exact hgreater
    · exact hrest (position key k l + j) _ (by omega) (getElem?_eq_getElem (by omega))

/-- Every key that is there is found where it is. -/
theorem search_getElem (hs : Sorted key l) (ha : l[i]? = some a) :
    search key (key a) l = .ok i := by
  cases h : search key (key a) l with
  | ok j =>
    obtain ⟨b, hb, hkey⟩ := search_ok h
    rcases lt_trichotomy i j with hij | rfl | hij
    · exact absurd (hs.getElem_lt ha hb hij) (by simp [hkey])
    · rfl
    · exact absurd (hs.getElem_lt hb ha hij) (by simp [hkey])
  | error j =>
    obtain ⟨-, hbefore, hafter⟩ := search_error hs h
    rcases mem_append.mp ((take_append_drop j l).symm ▸ mem_of_getElem? ha) with hmem | hmem
    · exact absurd (hbefore a hmem) (lt_irrefl _)
    · exact absurd (hafter a hmem) (lt_irrefl _)

omit [LinearOrder κ] in
theorem insertIdx_split (h : i ≤ l.length) (a : α) :
    l.insertIdx i a = l.take i ++ a :: l.drop i := by
  induction l generalizing i with
  | nil =>
    obtain rfl : i = 0 := by simpa using h
    rfl
  | cons x l ih =>
    cases i with
    | zero => rfl
    | succ i =>
      rw [insertIdx_succ_cons, ih (by simpa using h)]
      rfl

/-- Inserting a missing key at the reported position keeps the list sorted. -/
theorem Sorted.insertIdx (hs : Sorted key l) (h : search key (key a) l = .error i) :
    Sorted key (l.insertIdx i a) ∧ (l.insertIdx i a).Perm (a :: l) := by
  obtain ⟨hi, hbefore, hafter⟩ := search_error hs h
  refine ⟨?_, perm_insertIdx a l hi⟩
  rw [insertIdx_split hi]
  unfold Sorted at hs ⊢
  rw [← take_append_drop i l, pairwise_append] at hs
  rw [pairwise_append, pairwise_cons]
  refine ⟨hs.1, ⟨hafter, hs.2.1⟩, ?_⟩
  intro x hx y hy
  rcases mem_cons.mp hy with rfl | hy
  · exact hbefore x hx
  · exact hs.2.2 x hx y hy

end Search

end BinarySearch

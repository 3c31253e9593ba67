import QuicLite.Flow
import QuicLite.Lib.Runs

/-!
# Retired stream ids

Retired ids are kept as ranges that advance in steps of four, so that the ids of one range share
their direction and type. Ids of the four classes interleave in one list. `mergeRetired` walks the
list once and absorbs what touches the new range; the invariant `Separated` makes one walk enough: a
range that did not touch before the growth does not touch after it.
-/

namespace QuicLite

open List

/-! ## Ranges in steps of four -/

/-- The range denotes this id. -/
def Strides (range : Nat × Nat) (id : Nat) : Prop :=
  range.1 ≤ id ∧ id ≤ range.2 ∧ id % 4 = range.1 % 4

/-- The ends are ids of one class, in order. -/
def Strided (range : Nat × Nat) : Prop := range.1 ≤ range.2 ∧ range.2 % 4 = range.1 % 4

/-- Ranges of one class neither overlap nor touch. -/
def Separated (a b : Nat × Nat) : Prop := a.1 % 4 = b.1 % 4 → a.2 + 4 < b.1 ∨ b.2 + 4 < a.1

theorem Separated.symm {a b : Nat × Nat} (h : Separated a b) : Separated b a :=
  fun hclass => (h hclass.symm).symm

/-- They start at different ids. -/
theorem Separated.ne {a b : Nat × Nat} (h : Separated a b) (ha : Strided a) (hb : Strided b) :
    a.1 ≠ b.1 := by
  intro heq
  have := h (by rw [heq])
  have := ha.1
  have := hb.1
  omega

/-- Numbers of one class that are not four apart in order are equal. -/
theorem not_between {x y z : Nat} (hxy : x < y) (hyz : y < z) (hx : x % 4 = y % 4)
    (hz : y % 4 = z % 4) : x + 4 < z := by
  omega

/-- Two ranges of one class that overlap or are neighbours: nothing of the class lies between
them. -/
theorem strides_union {a b : Nat × Nat} (ha : Strided a) (hb : Strided b)
    (hclass : b.1 % 4 = a.1 % 4) (hfirst : a.1 ≤ b.2 + 4) (hlast : b.1 ≤ a.2 + 4) (id : Nat) :
    Strides (min a.1 b.1, max a.2 b.2) id ↔ Strides a id ∨ Strides b id := by
  have hmin : min a.1 b.1 % 4 = a.1 % 4 := by
    rcases Nat.le_total a.1 b.1 with hle | hle
    · rw [Nat.min_eq_left hle]
    · rw [Nat.min_eq_right hle, hclass]
  constructor
  · rintro ⟨hlow, hhigh, hmod⟩
    replace hlow : min a.1 b.1 ≤ id := hlow
    replace hhigh : id ≤ max a.2 b.2 := hhigh
    replace hmod : id % 4 = a.1 % 4 := hmod.trans hmin
    by_cases hbelow : id < a.1
    · -- Below the one range it is in the other, since there is no room for it between them.
      refine .inr ⟨by omega, ?_, hmod.trans hclass.symm⟩
      by_contra habove
      have := not_between (Nat.lt_of_not_le habove) hbelow
        ((hb.2.trans hclass).trans hmod.symm) hmod
      omega
    by_cases habove : a.2 < id
    · refine .inr ⟨?_, by omega, hmod.trans hclass.symm⟩
      by_contra hbelow'
      have := not_between habove (Nat.lt_of_not_le hbelow') (ha.2.trans hmod.symm)
        (hmod.trans hclass.symm)
      omega
    · exact .inl ⟨Nat.le_of_not_lt hbelow, Nat.le_of_not_lt habove, hmod⟩
  · rintro (⟨hlow, hhigh, hmod⟩ | ⟨hlow, hhigh, hmod⟩)
    · exact ⟨(Nat.min_le_left ..).trans hlow, hhigh.trans (Nat.le_max_left ..),
        hmod.trans hmin.symm⟩
    · exact ⟨(Nat.min_le_right ..).trans hlow, hhigh.trans (Nat.le_max_right ..),
        (hmod.trans hclass).trans hmin.symm⟩

/-- On different sides of a range that both are separated from, two ranges of its class cannot
touch. -/
theorem separated_union {a b other : Nat × Nat} (hother : other.1 ≤ other.2)
    (hclass : b.1 % 4 = a.1 % 4) (hfirst : a.1 ≤ b.2 + 4) (hlast : b.1 ≤ a.2 + 4)
    (ha : Separated other a) (hb : Separated other b) :
    Separated other (min a.1 b.1, max a.2 b.2) := by
  intro hsame
  replace hsame : other.1 % 4 = min a.1 b.1 % 4 := hsame
  have hmin : min a.1 b.1 % 4 = a.1 % 4 := by
    rcases Nat.le_total a.1 b.1 with hle | hle
    · rw [Nat.min_eq_left hle]
    · rw [Nat.min_eq_right hle, hclass]
  show other.2 + 4 < min a.1 b.1 ∨ max a.2 b.2 + 4 < other.1
  rcases ha (hsame.trans hmin) with hafter | hbefore <;>
    rcases hb ((hsame.trans hmin).trans hclass.symm) with hafter' | hbefore'
  · exact .inl (Nat.lt_min.mpr ⟨hafter, hafter'⟩)
  · omega
  · omega
  · exact .inr (by omega)

theorem and_three (n : Nat) : n &&& 3 = n % 4 := Nat.and_two_pow_sub_one_eq_mod n 2

/-- Ids are wire values, far below saturation. -/
def idBound : Nat := 2 ^ 62

namespace ConnectionState

variable (s : ConnectionState) {cls last id : Nat}

theorem isRetired_iff (id : Nat) :
    s.isRetired id = true ↔ ∃ range ∈ s.retiredStreams, Strides range id := by
  unfold isRetired Strides
  simp only [any_eq_true, Bool.and_eq_true, decide_eq_true_eq, beq_iff_eq]
  constructor
  · intro ⟨range, hmem, ⟨hge, hle⟩, hmod⟩
    exact ⟨range, hmem, hge, hle, by omega⟩
  · intro ⟨range, hmem, hge, hle, hmod⟩
    exact ⟨range, hmem, ⟨hge, hle⟩, by omega⟩

/-- One turn of the walk: the range is absorbed, or kept. -/
theorem mergeRetired_cons (cls first last : Nat) (range : Nat × Nat) (ranges : List (Nat × Nat)) :
    mergeRetired cls first last (range :: ranges) =
      if range.1 &&& 3 = cls ∧ first ≤ satAdd range.2 4 ∧ range.1 ≤ satAdd last 4 then
        mergeRetired cls (min first range.1) (max last range.2) ranges
      else ((mergeRetired cls first last ranges).1, (mergeRetired cls first last ranges).2.1,
        range :: (mergeRetired cls first last ranges).2.2) := rfl

variable {ranges : List (Nat × Nat)} {first : Nat}

/-- Growth by absorption stays within the class. -/
theorem strided_absorbed {range : Nat × Nat} (hclass : first % 4 = cls)
    (hstrided : Strided (first, last)) (hrange : Strided range) (hsame : range.1 &&& 3 = cls) :
    min first range.1 % 4 = cls ∧ Strided (min first range.1, max last range.2) := by
  rw [and_three] at hsame
  obtain ⟨hle, hmod⟩ := hrange
  obtain ⟨hle', hmod'⟩ := hstrided
  exact ⟨by omega, by simp only; omega, by simp only; omega⟩

theorem mergeRetired_strided (hclass : first % 4 = cls)
    (hstrided : Strided (first, last)) (hranges : ∀ range ∈ ranges, Strided range) :
    (mergeRetired cls first last ranges).1 % 4 = cls ∧
      Strided ((mergeRetired cls first last ranges).1,
        (mergeRetired cls first last ranges).2.1) := by
  induction ranges generalizing first last with
  | nil => exact ⟨hclass, hstrided⟩
  | cons range ranges ih =>
    obtain ⟨hrange, hrest⟩ := forall_mem_cons.mp hranges
    rw [mergeRetired_cons]
    split_ifs with htouch
    · obtain ⟨hclass', hstrided'⟩ := strided_absorbed hclass hstrided hrange htouch.1
      exact ih hclass' hstrided' hrest
    · exact ih hclass hstrided hrest

theorem mergeRetired_sublist (cls first last : Nat) (ranges : List (Nat × Nat)) :
    (mergeRetired cls first last ranges).2.2.Sublist ranges := by
  induction ranges generalizing first last with
  | nil => exact .refl _
  | cons range ranges ih =>
    rw [mergeRetired_cons]
    split_ifs
    · exact (ih _ _).cons range
    · exact (ih _ _).cons_cons range

/-- No id is lost, and none is swallowed. -/
theorem mergeRetired_strides (hclass : first % 4 = cls)
    (hstrided : Strided (first, last)) (hranges : ∀ range ∈ ranges, Strided range) (id : Nat) :
    (Strides ((mergeRetired cls first last ranges).1, (mergeRetired cls first last ranges).2.1) id ∨
        ∃ range ∈ (mergeRetired cls first last ranges).2.2, Strides range id) ↔
      Strides (first, last) id ∨ ∃ range ∈ ranges, Strides range id := by
  induction ranges generalizing first last with
  | nil => exact Iff.rfl
  | cons range ranges ih =>
    obtain ⟨hrange, hrest⟩ := forall_mem_cons.mp hranges
    have hsplit : (∃ r ∈ range :: ranges, Strides r id) ↔
        Strides range id ∨ ∃ r ∈ ranges, Strides r id := by
      simp
    rw [mergeRetired_cons, hsplit]
    split_ifs with htouch
    · obtain ⟨hsame, hfirst, hlast⟩ := htouch
      obtain ⟨hclass', hstrided'⟩ := strided_absorbed hclass hstrided hrange hsame
      rw [and_three] at hsame
      rw [ih hclass' hstrided' hrest, strides_union hstrided hrange (hsame.trans hclass.symm)
        (hfirst.trans (Nat.min_le_left ..)) (hlast.trans (Nat.min_le_left ..)) id, or_assoc]
    · simp only [mem_cons, exists_eq_or_imp]
      rw [or_left_comm, ih hclass hstrided hrest, or_left_comm]

/-- What was separated from the new range and from every other one is separated from the growth of
the new one. -/
theorem mergeRetired_separated {other : Nat × Nat}
    (hclass : first % 4 = cls) (hstrided : Strided (first, last))
    (hranges : ∀ range ∈ ranges, Strided range) (hother : Strided other)
    (hnew : Separated other (first, last)) (hsep : ∀ range ∈ ranges, Separated other range) :
    Separated other ((mergeRetired cls first last ranges).1,
      (mergeRetired cls first last ranges).2.1) := by
  induction ranges generalizing first last with
  | nil => exact hnew
  | cons range ranges ih =>
    obtain ⟨hrange, hrest⟩ := forall_mem_cons.mp hranges
    obtain ⟨hsepr, hseprest⟩ := forall_mem_cons.mp hsep
    rw [mergeRetired_cons]
    split_ifs with htouch
    · obtain ⟨hsame, hfirst, hlast⟩ := htouch
      obtain ⟨hclass', hstrided'⟩ := strided_absorbed hclass hstrided hrange hsame
      rw [and_three] at hsame
      refine ih hclass' hstrided' hrest ?_ hseprest
      exact separated_union hother.1 (hsame.trans hclass.symm) (hfirst.trans (Nat.min_le_left ..))
        (hlast.trans (Nat.min_le_left ..)) hnew hsepr
    · exact ih hclass hstrided hrest hnew hseprest

/-- What is kept is separated from the merged range. -/
theorem mergeRetired_kept (hclass : first % 4 = cls)
    (hstrided : Strided (first, last)) (hranges : ∀ range ∈ ranges, Strided range)
    (hbound : last < idBound) (hbounds : ∀ range ∈ ranges, range.2 < idBound)
    (hsep : ranges.Pairwise Separated) : ∀ range ∈ (mergeRetired cls first last ranges).2.2,
      Separated range ((mergeRetired cls first last ranges).1,
        (mergeRetired cls first last ranges).2.1) := by
  induction ranges generalizing first last with
  | nil => simp [mergeRetired]
  | cons range ranges ih =>
    obtain ⟨hrange, hrest⟩ := forall_mem_cons.mp hranges
    obtain ⟨hboundr, hboundrest⟩ := forall_mem_cons.mp hbounds
    obtain ⟨hsepr, hseprest⟩ := pairwise_cons.mp hsep
    rw [mergeRetired_cons]
    split_ifs with htouch
    · obtain ⟨hclass', hstrided'⟩ := strided_absorbed hclass hstrided hrange htouch.1
      exact ih hclass' hstrided' hrest (Nat.max_lt.mpr ⟨hbound, hboundr⟩) hboundrest hseprest
    intro kept hkept
    rcases mem_cons.mp hkept with rfl | hkept
    · refine mergeRetired_separated hclass hstrided hrest hrange ?_ hsepr
      intro hclass'
      rw [and_three] at htouch
      simp only [satAdd, usizeBound, idBound] at htouch hboundr hbound hclass' ⊢
      omega
    · exact ih hclass hstrided hrest hbound hboundrest hseprest kept hkept

theorem mergeRetired_bound (hbound : last < idBound)
    (hbounds : ∀ range ∈ ranges, range.2 < idBound) :
    (mergeRetired cls first last ranges).2.1 < idBound := by
  induction ranges generalizing first last with
  | nil => exact hbound
  | cons range ranges ih =>
    obtain ⟨hlast, hrest⟩ := forall_mem_cons.mp hbounds
    rw [mergeRetired_cons]
    split_ifs
    · exact ih (by omega) hrest
    · exact ih hbound hrest

/-! ## The stored ranges -/

/-- Sorted, of one class each, and within a class disjoint and not adjacent. -/
structure RetiredInv (ranges : List (Nat × Nat)) : Prop where
  strided : ∀ range ∈ ranges, Strided range
  bounded : ∀ range ∈ ranges, range.2 < idBound
  sorted : ranges.Pairwise fun a b => a.1 < b.1
  separated : ranges.Pairwise Separated

theorem RetiredInv.nil : RetiredInv [] :=
  ⟨by simp, by simp, .nil, .nil⟩

/-- `merge`, `push` and `sort_unstable_by_key`. -/
theorem RetiredInv.insert (h : RetiredInv ranges) (hid : id < idBound) :
    let merged := mergeRetired (id &&& 3) id id ranges
    RetiredInv ((merged.2.2 ++ [(merged.1, merged.2.1)]).insertionSort fun a b => a.1 ≤ b.1) := by
  intro merged
  have hstrided : Strided (id, id) := ⟨le_refl _, rfl⟩
  obtain ⟨-, hmerged⟩ := mergeRetired_strided (and_three id).symm hstrided h.strided
  have hsub := mergeRetired_sublist (id &&& 3) id id ranges
  have hperm := perm_insertionSort (fun a b : Nat × Nat => a.1 ≤ b.1)
    (merged.2.2 ++ [(merged.1, merged.2.1)])
  have hmem : ∀ range ∈ (merged.2.2 ++ [(merged.1, merged.2.1)]).insertionSort fun a b => a.1 ≤ b.1,
      range ∈ ranges ∨ range = (merged.1, merged.2.1) := by
    intro range hrange
    rcases mem_append.mp (hperm.mem_iff.mp hrange) with hkept | hnew
    · exact .inl (hsub.subset hkept)
    · exact .inr (mem_singleton.mp hnew)
  have hstrides : ∀ range ∈ (merged.2.2 ++ [(merged.1, merged.2.1)]).insertionSort fun a b =>
    a.1 ≤ b.1,
      Strided range := by
    intro range hrange
    rcases hmem range hrange with hold | rfl
    · exact h.strided range hold
    · exact hmerged
  have hsep : ((merged.2.2 ++ [(merged.1, merged.2.1)]).insertionSort fun a b => a.1 ≤ b.1).Pairwise
      Separated := by
    rw [hperm.pairwise_iff fun hab => .symm hab, pairwise_append]
    refine ⟨h.separated.sublist hsub, pairwise_singleton _ _, ?_⟩
    intro kept hkept new hnew
    rw [mem_singleton.mp hnew]
    exact mergeRetired_kept (and_three id).symm hstrided h.strided hid h.bounded h.separated
      kept hkept
  refine ⟨hstrides, ?_, ?_, hsep⟩
  · intro range hrange
    rcases hmem range hrange with hold | rfl
    · exact h.bounded range hold
    · exact mergeRetired_bound hid h.bounded
  have hsorted := pairwise_insertionSort (fun a b : Nat × Nat => a.1 ≤ b.1)
    (merged.2.2 ++ [(merged.1, merged.2.1)])
  refine .imp_of_mem ?_ (hsorted.and hsep)
  intro a b ha hb hab
  have := Separated.ne hab.2 (hstrides a ha) (hstrides b hb)
  omega

/-- Retiring a live stream adds its id, and nothing else. -/
theorem isRetired_retireStream {s : ConnectionState}
    (hstrided : ∀ range ∈ s.retiredStreams, Strided range) (hlive : (s.find id).isSome) (x : Nat) :
    (s.retireStream id).isRetired x = true ↔ x = id ∨ s.isRetired x = true := by
  have hself : Strides (id, id) x ↔ x = id := by
    unfold Strides
    omega
  rw [isRetired_iff, isRetired_iff, ← hself,
    ← mergeRetired_strides (and_three id).symm ⟨le_refl _, rfl⟩ hstrided x]
  unfold retireStream
  rw [if_neg (by simpa [Option.isSome_iff_ne_none] using hlive)]
  simp only [mem_insertionSort, mem_append, mem_singleton]
  constructor
  · intro ⟨range, hrange, hx⟩
    rcases hrange with hkept | rfl
    · exact .inr ⟨range, hkept, hx⟩
    · exact .inl hx
  intro h
  rcases h with hx | ⟨range, hkept, hx⟩
  · exact ⟨_, .inr rfl, hx⟩
  · exact ⟨range, .inl hkept, hx⟩

/-- Whatever the stored ranges are, the walk forgets none of their ids. -/
theorem strides_mergeRetired (hclass : first % 4 = cls)
    (h : Strides (first, last) id ∨ ∃ range ∈ ranges, Strides range id) :
    Strides ((mergeRetired cls first last ranges).1, (mergeRetired cls first last ranges).2.1) id ∨
      ∃ range ∈ (mergeRetired cls first last ranges).2.2, Strides range id := by
  induction ranges generalizing first last with
  | nil => exact h
  | cons range ranges ih =>
    simp only [mem_cons, exists_eq_or_imp] at h
    rw [mergeRetired_cons]
    split_ifs with htouch
    · rw [and_three] at htouch
      apply ih (by omega)
      rw [← or_assoc] at h
      refine h.imp_left ?_
      simp only [Strides]
      omega
    simp only [mem_cons, exists_eq_or_imp]
    rw [or_left_comm] at h ⊢
    exact h.imp_right (ih hclass)

theorem isRetired_of_retireStream {s : ConnectionState} {x : Nat} (h : s.isRetired x = true) :
    (s.retireStream id).isRetired x = true := by
  unfold retireStream
  split_ifs
  · exact h
  rw [isRetired_iff] at h ⊢
  simp only [mem_insertionSort, mem_append, mem_singleton]
  rcases strides_mergeRetired (and_three id).symm (.inr h) with hx | ⟨range, hkept, hx⟩
  · exact ⟨_, .inr rfl, hx⟩
  · exact ⟨range, .inl hkept, hx⟩

/-! ## Sequences of operations -/

/-- The calls on a connection's receive state. -/
inductive Op where
  | openLocal (id : Nat)
  | accept (id offset len : Nat) (fin : Bool)
  | consume (id n : Nat)
  | retire (id : Nat)

def step (self : ConnectionState) : Op → ConnectionState
  | .openLocal id => (self.openLocal id).toOption.getD self
  | .accept id offset len fin => (self.accept id offset len fin).1
  | .consume id n => (self.consume id n).toOption.getD self
  | .retire id => self.retireStream id

/-- The ids for which `retire_stream` returns true: it does when it finds the stream. -/
def retired (self : ConnectionState) : Op → List Nat
  | .retire id => if (self.find id).isSome then [id] else []
  | _ => []

/-- Ids are below the wire's limit. -/
def InRange : Op → Prop
  | .retire id => id < idBound
  | _ => True

/-- A frame's stream is there, or is inserted for a peer. -/
theorem acquire_cases {s s' : ConnectionState} {stop : Nat} (h : s.acquire id stop = .ok s') :
    (s.find id).isSome ∧ s' = s ∨ s.find id = none ∧ s.isLocal id = false ∧
      s' = s.insertStream id := by
  unfold acquire at h
  by_cases hlive : (s.find id).isSome
  · rw [if_pos hlive] at h
    exact .inl ⟨hlive, (Except.ok.inj h).symm⟩
  rw [if_neg hlive] at h
  by_cases hlocal : s.isLocal id
  · rw [if_pos hlocal] at h
    cases h
  simp only at h
  generalize (if isUnidirectional id then s.limits.maxStreamsUni else s.limits.maxStreamsBidi) =
    limit at h
  split_ifs at h
  exact .inr ⟨by simpa using hlive, by simpa using hlocal, (Except.ok.inj h).symm⟩

theorem retiredStreams_accept (id offset len : Nat) (fin : Bool) :
    (s.accept id offset len fin).1.retiredStreams = s.retiredStreams := by
  unfold accept
  split_ifs
  · rfl
  simp only
  split
  · rfl
  rename_i s₁ hacquire
  have hsame : s₁.retiredStreams = s.retiredStreams := by
    rcases acquire_cases hacquire with ⟨-, rfl⟩ | ⟨-, -, rfl⟩ <;> rfl
  split
  · exact hsame
  split_ifs
  · exact hsame
  split
  · exact hsame
  · exact hsame

/-- The stored ranges are well formed and denote exactly the ids retired so far. -/
def RetiredExactly (s : ConnectionState) (log : List Nat) : Prop :=
  RetiredInv s.retiredStreams ∧ ∀ id, s.isRetired id = true ↔ id ∈ log

theorem RetiredExactly.of_same {s s' : ConnectionState} {log : List Nat} (h : RetiredExactly s log)
    (hsame : s'.retiredStreams = s.retiredStreams) : RetiredExactly s' (log ++ []) := by
  obtain ⟨hinv, hlog⟩ := h
  refine ⟨by rwa [hsame], fun id => ?_⟩
  rw [append_nil, ← hlog id]
  unfold isRetired
  rw [hsame]

theorem step_retiredExactly (log : List Nat) (op : Op) (h : RetiredExactly s log)
    (hid : InRange op) : RetiredExactly (s.step op) (log ++ s.retired op) := by
  cases op with
  | openLocal id =>
    apply h.of_same
    simp only [step, openLocal]
    split_ifs <;> rfl
  | accept id offset len fin => exact h.of_same (retiredStreams_accept s id offset len fin)
  | consume id n =>
    apply h.of_same
    simp only [step, consume]
    split_ifs <;> rfl
  | retire id =>
    by_cases hlive : (s.find id).isSome
    · rw [show s.retired (.retire id) = [id] from if_pos hlive]
      obtain ⟨hinv, hlog⟩ := h
      refine ⟨?_, fun x => ?_⟩
      · have hinsert := hinv.insert hid
        simp only [step, retireStream]
        rw [if_neg (by simpa [Option.isSome_iff_ne_none] using hlive)]
        exact hinsert
      · rw [mem_append, mem_singleton, ← hlog x, or_comm]
        exact isRetired_retireStream hinv.strided hlive x
    · rw [show s.retired (.retire id) = [] from if_neg hlive]
      apply h.of_same
      simp only [step, retireStream]
      rw [if_pos (by simpa using hlive)]

/-- Over any history the ranges denote the ids that were retired. -/
theorem retired_of_run (role : Role) (limits : ConnectionLimits) {ops : List Op}
    (hrun : Runs.Along step (fun _ op => InRange op) (ConnectionState.new role limits) ops) :
    RetiredExactly (Runs.exec step (ConnectionState.new role limits) ops)
      (Runs.trace step retired (ConnectionState.new role limits) ops) := by
  have hnew : RetiredExactly (.new role limits) [] :=
    ⟨.nil, fun id => by simp [isRetired, ConnectionState.new]⟩
  exact hrun.invariant_trace step_retiredExactly hnew

end ConnectionState

end QuicLite

import Mathlib.Data.Finset.Max
import QuicLite.Lib.Runs

/-!
# The fixed packet pool

A pool with a word of free bits and one reference count a slot. Any number of tasks take, share and
give back slots; each access to the word or to a count is one step. Which handles are alive is kept
beside the machine: no step reads it.

A slot that is not free belongs to a writer, to its leases, or to the one task that is handing it
out or giving it back (`Inv`). A clone beyond the 255th lease of a slot fails the assertion of
`clone` after it has changed the count.
-/

namespace QuicLite.FixedPool

open Function Finset

/-- Where a task is. `acquiring` has read the word; `claimed` has taken the bit and not stored the
count yet; `releasing` has dropped the last handle and not set the bit yet. -/
inductive Pc where
  | idle
  | acquiring (reserved : Nat) (current : Finset Nat)
  | claimed (slot : Nat)
  | releasing (slot : Nat)

/-- The slot that is in the hands of a call. -/
def Pc.slot : Pc → Option Nat
  | .claimed slot => some slot
  | .releasing slot => some slot
  | _ => none

structure Pool (ι : Type) where
  free : Finset Nat
  references : Nat → Nat
  pc : ι → Pc
  writers : Nat → Nat
  leases : Nat → Nat

inductive Op (ι : Type) where
  | acquireReserving (task : ι) (reserved : Nat)
  | advance (task : ι) (spurious : Bool)
  | dropWriter (task : ι) (slot : Nat)
  | commit (slot : Nat)
  | clone (slot : Nat)
  | dropLease (task : ι) (slot : Nat)

namespace Pool

variable {ι : Type} [DecidableEq ι] {op : Op ι}

def new (slots : Nat) : Pool ι :=
  ⟨Finset.range slots, fun _ => 0, fun _ => .idle, fun _ => 0, fun _ => 0⟩

def goto (s : Pool ι) (task : ι) (pc : Pc) : Pool ι := { s with pc := update s.pc task pc }

@[grind =]
theorem pc_goto (s : Pool ι) (task other : ι) (pc : Pc) :
    (s.goto task pc).pc other = if other = task then pc else s.pc other := update_apply _ _ _ _

/-- The lowest bit of a word. -/
def trailingZeros (current : Finset Nat) : Nat := current.min.untopD 32

/-- One round of the loop of `acquire_reserving`. The exchange is a weak one: it may fail when the
word is as it was. -/
def attempt (s : Pool ι) (task : ι) (reserved : Nat) (current : Finset Nat) (spurious : Bool) :
    Pool ι :=
  if current.card ≤ reserved then s.goto task .idle
  else if s.free = current ∧ !spurious then
    { s with
      free := current.erase (trailingZeros current) }.goto task (.claimed (trailingZeros current))
  else s.goto task (.acquiring reserved s.free)

def step (s : Pool ι) : Op ι → Pool ι
  | .acquireReserving task reserved =>
    match s.pc task with
    | .idle => s.goto task (.acquiring reserved s.free)
    | _ => s
  | .advance task spurious =>
    match s.pc task with
    | .idle => s
    | .acquiring reserved current => s.attempt task reserved current spurious
    | .claimed slot =>
      { s with
        references := update s.references slot 1
        writers := update s.writers slot (s.writers slot + 1) }.goto task .idle
    | .releasing slot => { s with free := insert slot s.free }.goto task .idle
  -- Whoever drops or shares a handle has one.
  | .dropWriter task slot =>
    match s.pc task with
    | .idle =>
      if s.writers slot = 0 then s
      else { s with writers := update s.writers slot (s.writers slot - 1) }.goto task
        (.releasing slot)
    | _ => s
  | .commit slot =>
    if s.writers slot = 0 then s
    else
      { s with
        writers := update s.writers slot (s.writers slot - 1)
        leases := update s.leases slot (s.leases slot + 1) }
  | .clone slot =>
    if s.leases slot = 0 then s
    else
      let previous := s.references slot
      let shared := { s with
        references := update s.references slot ((previous + 1) % 256) }
      -- `assert!(previous != 0 && previous != u8::MAX, ..)` comes after the addition.
      if previous = 0 ∨ previous = 255 then shared
      else { shared with leases := update s.leases slot (s.leases slot + 1) }
  | .dropLease task slot =>
    match s.pc task with
    | .idle =>
      if s.leases slot = 0 then s
      else
        let previous := s.references slot
        { s with
          references := update s.references slot ((previous + 255) % 256)
          leases := update s.leases slot (s.leases slot - 1) }.goto task
            (if previous = 1 then .releasing slot else .idle)
    | _ => s

/-- No lease is cloned while its slot has 255 of them. -/
def Countable (s : Pool ι) : Op ι → Prop
  | .clone slot => s.leases slot ≠ 255
  | _ => True

/-! ## Who has a slot -/

structure Inv (slots : Nat) (s : Pool ι) : Prop where
  free : ∀ slot ∈ s.free, slot < slots ∧ s.writers slot = 0 ∧ s.leases slot = 0
  transit : ∀ task slot, (s.pc task).slot = some slot →
    slot < slots ∧ slot ∉ s.free ∧ s.writers slot = 0 ∧ s.leases slot = 0
  single : ∀ task other slot, (s.pc task).slot = some slot → (s.pc other).slot = some slot →
    task = other
  handles : ∀ slot, s.writers slot = 0 ∨ s.writers slot = 1 ∧ s.leases slot = 0
  references : ∀ slot, s.writers slot + s.leases slot ≠ 0 →
    slot < slots ∧ s.references slot = s.writers slot + s.leases slot ∧ s.leases slot ≤ 255
  owned : ∀ slot < slots, slot ∈ s.free ∨ s.writers slot + s.leases slot ≠ 0 ∨ ∃ task,
    (s.pc task).slot = some slot

variable {slots : Nat} {s : Pool ι} {task : ι} {slot : Nat}

omit [DecidableEq ι] in
theorem inv_new (slots : Nat) : Inv slots (new slots : Pool ι) := by
  constructor <;> simp [new, Pc.slot]

theorem Inv.goto (h : Inv slots s) (hnow : (s.pc task).slot = none) {pc : Pc}
    (hpc : pc.slot = none) :
    Inv slots (s.goto task pc) := by
  obtain ⟨hfree, htransit, hsingle, hhandles, hreferences, howned⟩ := h
  constructor
  all_goals
    simp only [Pool.goto, update_apply]
    grind

theorem trailingZeros_mem {current : Finset Nat} (h : current.Nonempty) :
    trailingZeros current ∈ current := by
  unfold trailingZeros
  rw [← coe_min' h]
  exact min'_mem current h

theorem Inv.attempt (h : Inv slots s) (hnow : (s.pc task).slot = none) (reserved : Nat)
    (current : Finset Nat) (spurious : Bool) :
    Inv slots (s.attempt task reserved current spurious) := by
  unfold Pool.attempt
  split
  · exact h.goto hnow rfl
  split
  · next hsame =>
    have hcard : 0 < current.card := by omega
    have hmem := trailingZeros_mem (card_pos.mp hcard)
    obtain ⟨hfree, htransit, hsingle, hhandles, hreferences, howned⟩ := h
    have hslot : ∀ slot, (Pc.claimed slot).slot = some slot := fun _ => rfl
    constructor
    all_goals
      simp only [Pool.goto, update_apply]
      grind
  · exact h.goto hnow rfl

theorem Inv.step (h : Inv slots s) (hcountable : s.Countable op) : Inv slots (s.step op) := by
  have hall := h
  obtain ⟨hfree, htransit, hsingle, hhandles, hreferences, howned⟩ := h
  have hidle : Pc.idle.slot = none := rfl
  have hclaimed : ∀ slot, (Pc.claimed slot).slot = some slot := fun _ => rfl
  have hreleasing : ∀ slot, (Pc.releasing slot).slot = some slot := fun _ => rfl
  cases op with
  | acquireReserving task reserved =>
    simp only [Pool.step]
    split
    · next hpc => exact hall.goto (by rw [hpc]; rfl) rfl
    · exact hall
  | advance task spurious =>
    simp only [Pool.step]
    split
    · exact hall
    · next hpc => exact hall.attempt (by rw [hpc]; rfl) _ _ _
    · next slot hpc =>
      constructor
      all_goals
        simp only [Pool.goto, update_apply]
        grind
    constructor
    all_goals
      simp only [Pool.goto, update_apply]
      grind
  | dropWriter task slot =>
    simp only [Pool.step]
    split
    · next hpc =>
      split
      · exact hall
      constructor
      all_goals
        simp only [Pool.goto, update_apply]
        grind
    · exact hall
  | commit slot =>
    simp only [Pool.step]
    split
    · exact hall
    constructor
    all_goals
      grind
  | clone slot =>
    simp only [Pool.step]
    split
    · exact hall
    have hbelow : s.leases slot ≠ 255 := hcountable
    have hcount := hreferences slot (by omega)
    have hwriters := hhandles slot
    rw [if_neg (by omega)]
    constructor
    all_goals
      grind
  | dropLease task slot =>
    simp only [Pool.step]
    split
    · next hpc =>
      split
      · exact hall
      have hcount := hreferences slot (by omega)
      have hwriters := hhandles slot
      have hwrap : (s.references slot + 255) % 256 = s.references slot - 1 := by omega
      by_cases hlast : s.references slot = 1
      · rw [if_pos hlast]
        constructor
        all_goals
          simp only [Pool.goto, update_apply]
          grind
      constructor
      all_goals
        simp only [Pool.goto, update_apply]
        grind
    · exact hall

/-! ## Handing out and giving back -/

/-- The word changes in two ways: a call gives a slot back, or takes the lowest one. -/
theorem step_free (s : Pool ι) (op : Op ι) : (s.step op).free = s.free ∨
    (∃ task spurious slot, op = .advance task spurious ∧ s.pc task = .releasing slot ∧
      (s.step op).free = insert slot s.free) ∨
    ∃ task spurious reserved, op = .advance task spurious ∧ s.pc task = .acquiring reserved s.free ∧
      (s.step op).free = s.free.erase (trailingZeros s.free) := by
  cases op with
  | advance task spurious =>
    cases hpc : s.pc task with
    | idle => exact .inl (by simp [Pool.step, hpc])
    | acquiring reserved current =>
      simp only [Pool.step, hpc, Pool.attempt]
      split
      · exact .inl rfl
      split
      · next hsame =>
        obtain ⟨rfl, -⟩ := hsame
        exact .inr (.inr ⟨task, spurious, reserved, rfl, hpc, rfl⟩)
      · exact .inl rfl
    | claimed slot => exact .inl (by simp [Pool.step, hpc, Pool.goto])
    | releasing slot =>
      exact .inr (.inl ⟨task, spurious, slot, rfl, hpc, by simp [Pool.step, hpc, Pool.goto]⟩)
  | acquireReserving task reserved =>
    simp only [Pool.step]
    split <;> exact .inl rfl
  | dropWriter task slot | dropLease task slot =>
    simp only [Pool.step]
    split
    · split <;> exact .inl rfl
    · exact .inl rfl
  | commit slot =>
    simp only [Pool.step]
    split <;> exact .inl rfl
  | clone slot =>
    simp only [Pool.step]
    split
    · exact .inl rfl
    · split <;> exact .inl rfl

/-- A call starts to give a slot back when it has dropped the last handle of it. -/
theorem Inv.step_releasing (h : Inv slots s) (hnow : s.pc task ≠ .releasing slot) :
    (s.step op).pc task = .releasing slot ↔ s.pc task = .idle ∧
      (op = .dropWriter task slot ∧ s.writers slot = 1 ∨ op = .dropLease task slot ∧
        s.leases slot = 1) := by
  have hreferences := h.references
  have hhandles := h.handles
  cases op with
  | advance caller spurious =>
    cases hpc : s.pc caller <;> simp only [Pool.step, Pool.attempt] <;> grind
  | acquireReserving caller reserved =>
    simp only [Pool.step]
    grind
  | dropWriter caller given =>
    simp only [Pool.step]
    grind
  | dropLease caller given =>
    simp only [Pool.step]
    grind
  | commit given =>
    simp only [Pool.step]
    grind
  | clone given =>
    simp only [Pool.step]
    grind

/-- What holds of the slots of a pool. -/
structure Accounted (slots : Nat) (s : Pool ι) : Prop where
  /-- A slot is free, has a handle or is in the hands of a call, and no slot is two of these. -/
  cover : ∀ slot, slot < slots ↔ slot ∈ s.free ∨ s.writers slot + s.leases slot ≠ 0 ∨ ∃ task,
    (s.pc task).slot = some slot
  free : ∀ slot ∈ s.free, s.writers slot + s.leases slot = 0 ∧ ∀ task, (s.pc task).slot ≠ some slot
  transit : ∀ task slot, (s.pc task).slot = some slot →
    s.writers slot + s.leases slot = 0 ∧ ∀ other, (s.pc other).slot = some slot → other = task
  exclusive : ∀ slot, s.writers slot ≤ 1 ∧ (s.writers slot ≠ 0 → s.leases slot = 0)
  /-- A slot becomes free by a call that gives it back, and such a call starts where the last handle
  is dropped. -/
  freed : ∀ op slot, slot ∉ s.free → (slot ∈ (s.step op).free ↔
    ∃ task spurious, op = .advance task spurious ∧ s.pc task = .releasing slot)
  last : ∀ op task slot, s.pc task ≠ .releasing slot →
    ((s.step op).pc task = .releasing slot ↔ s.pc task = .idle ∧
    (op = .dropWriter task slot ∧ s.writers slot = 1 ∨ op = .dropLease task slot ∧
      s.leases slot = 1))
  /-- A call takes a free slot, and as many as it was to reserve stay free. -/
  reserve : ∀ task spurious reserved current slot, s.pc task = .acquiring reserved current →
    (s.step (.advance task spurious)).pc task = .claimed slot → slot ∈ s.free ∧
      (s.step (.advance task spurious)).free = s.free.erase slot ∧
      reserved ≤ (s.step (.advance task spurious)).free.card

theorem Inv.accounted (h : Inv slots s) : Accounted slots s where
  cover slot := by
    refine ⟨h.owned slot, ?_⟩
    rintro (hfree | hlive | ⟨task, htask⟩)
    · exact (h.free slot hfree).1
    · exact (h.references slot hlive).1
    · exact (h.transit task slot htask).1
  free slot hfree := by
    obtain ⟨-, hwriters, hleases⟩ := h.free slot hfree
    exact ⟨by omega, fun task htask => (h.transit task slot htask).2.1 hfree⟩
  transit task slot htask := by
    obtain ⟨-, -, hwriters, hleases⟩ := h.transit task slot htask
    exact ⟨by omega, fun other hother => h.single other task slot hother htask⟩
  exclusive slot := by
    have := h.handles slot
    omega
  freed op slot hbusy := by
    rcases step_free s op with hsame | ⟨task, spurious, given, rfl, hpc, hfree⟩ |
      ⟨task, spurious, reserved, rfl, hpc, hfree⟩
    · rw [hsame]
      refine ⟨fun hfree => absurd hfree hbusy, ?_⟩
      rintro ⟨task, spurious, rfl, hpc⟩
      rw [← hsame]
      simp [Pool.step, hpc, Pool.goto]
    · rw [hfree, mem_insert]
      grind
    · rw [hfree]
      grind
  last op task slot hnow := h.step_releasing hnow
  reserve task spurious reserved current slot hpc hclaimed := by
    simp only [Pool.step, hpc, Pool.attempt] at hclaimed ⊢
    by_cases hfew : current.card ≤ reserved
    · simp [hfew, Pool.goto] at hclaimed
    rw [if_neg hfew] at hclaimed ⊢
    by_cases hsame : s.free = current ∧ !spurious
    · rw [if_pos hsame] at hclaimed ⊢
      obtain ⟨rfl, -⟩ := hsame
      obtain rfl : trailingZeros s.free = slot := by simpa [Pool.goto] using hclaimed
      have hcard : 0 < s.free.card := by omega
      have hmem := trailingZeros_mem (card_pos.mp hcard)
      refine ⟨hmem, rfl, ?_⟩
      show reserved ≤ (s.free.erase (trailingZeros s.free)).card
      rw [card_erase_of_mem hmem]
      omega
    · rw [if_neg hsame] at hclaimed
      simp [Pool.goto] at hclaimed

/-- As long as no lease is cloned while its slot has 255 of them, every slot is accounted for,
however the calls run. -/
theorem slots_accounted {ops : List (Op ι)}
    (hrun : Runs.Along Pool.step Countable (new slots) ops) :
    Accounted slots (Runs.exec Pool.step (new slots) ops) :=
  (hrun.invariant (fun _ _ h hcountable => h.step hcountable) (inv_new slots)).accounted

/-- One task takes the last slot, commits it and shares it. -/
theorem slots_accounted_clone : Accounted 1 (Runs.exec Pool.step (new 1)
      [.acquireReserving () 0, .advance () false, .advance () false, .commit 0, .clone 0,
        .dropLease () 0]) :=
  slots_accounted ⟨trivial, trivial, trivial, trivial, (by decide : (1 : Nat) ≠ 255), trivial,
    trivial⟩

/-- A task takes a slot and makes a writer of it. -/
def acquiring : List (Op Unit) := [.acquireReserving () 0, .advance () false, .advance () false]

/-- The 256th lease fails the assertion and so does the next one, but the count has come round to
one lease by then. The first lease that is dropped gives the slot back, and a writer gets it while
254 leases read it. -/
theorem clone_overflow :
    let s := Runs.exec Pool.step (new 1) (acquiring ++ .commit 0 :: List.replicate 254 (.clone 0) ++
      [.clone 0, .clone 0, .dropLease () 0, .advance () false] ++ acquiring)
    s.writers 0 = 1 ∧ s.leases 0 = 254 := by
  decide +kernel

end Pool

end QuicLite.FixedPool

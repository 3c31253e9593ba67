import Mathlib.Data.List.Nodup
import QuicLite.Lib.Runs

/-!
# The callback mailbox

Completions go through a row of slots. Any number of tasks push and pop, and each access to the
state of a slot, to its value or to the cursor is one step. The values are numbered as the calls of
`push` come in, so that it can be said of each where it is; no step reads the number.

Every number is in one place (`Inv`): in a call, in a slot, refused or returned.
-/

namespace QuicLite.CallbackSlots

open Function

inductive SlotState where
  | empty
  | writing
  | ready
  | reading
  deriving DecidableEq

/-- Where a task is: looking for an empty slot with what it saw in the ones before, about to write
the value, about to publish it; looking for a full slot, about to read it, about to clear it, about
to move the cursor. -/
inductive Pc (α : Type) where
  | idle
  | pushing (item : α × Nat) (seen : List SlotState)
  | writing (item : α × Nat) (index : Nat)
  | publishing (item : α × Nat) (index : Nat)
  | popping (start offset : Nat)
  | reading (index : Nat)
  | clearing (item : α × Nat) (index : Nat)
  | moving (item : α × Nat) (index : Nat)

/-- `broken` says that a value was written over an unread one, or that one was read where there was
none. -/
structure Slots (α ι : Type) where
  state : Nat → SlotState
  value : Nat → Option (α × Nat)
  cursor : Nat
  pc : ι → Pc α
  next : Nat
  pushed : List (α × Nat)
  refused : List ((α × Nat) × List SlotState)
  popped : List (α × Nat)
  broken : Bool

inductive Op (α ι : Type) where
  | push (task : ι) (value : α)
  | pop (task : ι)
  | advance (task : ι)

/-- Where a value is. -/
inductive Place (ι : Type) where
  | unborn
  | call (task : ι)
  | slot (index : Nat)
  | refused
  | returned

/-- The value that a call has in its hands. -/
def Pc.item {α : Type} : Pc α → Option (α × Nat)
  | .pushing item _ | .writing item _ | .clearing item _ | .moving item _ => some item
  | _ => none

/-- The slot that a call has claimed. -/
def Pc.slot {α : Type} : Pc α → Option Nat
  | .writing _ index | .publishing _ index | .reading index | .clearing _ index => some index
  | _ => none

/-- The value that a call of `pop` has taken. -/
def Pc.leaving {α : Type} : Pc α → Option (α × Nat)
  | .clearing item _ | .moving item _ => some item
  | _ => none

namespace Slots

variable {α ι : Type} [DecidableEq ι]

def new : Slots α ι := ⟨fun _ => .empty, fun _ => none, 0, fun _ => .idle, 0, [], [], [], false⟩

def goto (s : Slots α ι) (task : ι) (pc : Pc α) : Slots α ι :=
  { s with pc := update s.pc task pc }

def mark (s : Slots α ι) (index : Nat) (state : SlotState) : Slots α ι :=
  { s with state := update s.state index state }

/-- The next access of a task, in a row of `n` slots. -/
def advance (n : Nat) (s : Slots α ι) (task : ι) : Slots α ι :=
  match s.pc task with
  | .idle => s
  | .pushing item seen =>
    if seen.length < n then
      if s.state seen.length = .empty then
        (s.mark seen.length .writing).goto task (.writing item seen.length)
      else s.goto task (.pushing item (seen ++ [s.state seen.length]))
    else { s with refused := s.refused ++ [(item, seen)] }.goto task .idle
  | .writing item index =>
    { s with
      value := update s.value index (some item)
      broken := s.broken || (s.value index).isSome }.goto task (.publishing item index)
  | .publishing item index =>
    { s.mark index .ready with pushed := s.pushed ++ [item] }.goto task .idle
  | .popping start offset =>
    if offset < n then
      if s.state ((start + offset) % n) = .ready then
        (s.mark ((start + offset) % n) .reading).goto task (.reading ((start + offset) % n))
      else s.goto task (.popping start (offset + 1))
    else s.goto task .idle
  | .reading index =>
    match s.value index with
    | some item =>
      { s with value := update s.value index none }.goto task (.clearing item index)
    | none => { s with broken := true }.goto task .idle
  | .clearing item index => (s.mark index .empty).goto task (.moving item index)
  | .moving item index =>
    { s with cursor := (index + 1) % n, popped := s.popped ++ [item] }.goto task .idle

def step (n : Nat) (s : Slots α ι) : Op α ι → Slots α ι
  | .push task value =>
    match s.pc task with
    | .idle => { s with next := s.next + 1 }.goto task (.pushing (value, s.next) [])
    | _ => s
  | .pop task =>
    match s.pc task with
    | .idle => s.goto task (.popping s.cursor 0)
    | _ => s
  | .advance task => s.advance n task

/-! ## Where the values are -/

/-- The value went through a call of `push` and is in a full slot, in a call of `pop`, or was
returned. -/
def Settled (s : Slots α ι) (item : α × Nat) : Prop :=
  item ∈ s.popped ∨ (∃ index, s.value index = some item ∧
    (s.state index = .ready ∨ s.state index = .reading)) ∨
    ∃ task, (s.pc task).leaving = some item

structure Inv (n : Nat) (place : Nat → Place ι) (s : Slots α ι) : Prop where
  unborn : ∀ number, s.next ≤ number → place number = .unborn
  call : ∀ task item, (s.pc task).item = some item → place item.2 = .call task
  value : ∀ index item, s.value index = some item → place item.2 = .slot index
  returned : ∀ item ∈ s.popped, place item.2 = .returned
  once : (s.popped.map Prod.snd).Nodup
  settled : ∀ item ∈ s.pushed, s.Settled item
  popped : ∀ item ∈ s.popped, item ∈ s.pushed
  filled : ∀ index item, s.value index = some item → s.state index ≠ .writing → item ∈ s.pushed
  leaving : ∀ task item, (s.pc task).leaving = some item → item ∈ s.pushed
  single : ∀ task other index, (s.pc task).slot = some index → (s.pc other).slot = some index →
    task = other
  within : ∀ index, s.state index ≠ .empty → index < n
  writing : ∀ task item index, s.pc task = .writing item index →
    s.state index = .writing ∧ s.value index = none
  publishing : ∀ task item index, s.pc task = .publishing item index →
    s.state index = .writing ∧ s.value index = some item
  reading : ∀ task index, s.pc task = .reading index →
    s.state index = .reading ∧ s.value index ≠ none
  clearing : ∀ task item index, s.pc task = .clearing item index →
    s.state index = .reading ∧ s.value index = none
  claimed : ∀ index, s.state index = .writing ∨ s.state index = .reading →
    ∃ task, (s.pc task).slot = some index
  full : ∀ index, s.state index = .ready → s.value index ≠ none
  empty : ∀ index, s.state index = .empty → s.value index = none
  seen : ∀ task item seen, s.pc task = .pushing item seen → seen.length ≤ n ∧ .empty ∉ seen
  refused : ∀ entry ∈ s.refused, entry.2.length = n ∧ .empty ∉ entry.2
  sound : s.broken = false

variable {n : Nat} {place : Nat → Place ι} {s : Slots α ι} {task : ι}

omit [DecidableEq ι] in
theorem inv_new (n : Nat) : Inv n (fun _ => .unborn) (new : Slots α ι) := by
  constructor <;> simp [new, Pc.slot, Pc.item, Pc.leaving]

omit [DecidableEq ι] in
theorem Inv.busy (h : Inv n place s) (task : ι) (index : Nat)
    (hslot : (s.pc task).slot = some index) :
    s.state index = .writing ∨ s.state index = .reading := by
  obtain ⟨-, -, -, -, -, -, -, -, -, -, -, hwriting, hpublishing, hreading, hclearing⟩ := h
  cases hpc : s.pc task <;> grind [Pc.slot]

section

variable (h : Inv n place s)
variable {item : α × Nat} {index : Nat}
include h

theorem Inv.enter (hpc : s.pc task = .idle) :
    (∀ value, ∃ place', Inv n place' (s.step n (.push task value))) ∧
      Inv n place (s.step n (.pop task)) := by
  have hbusy := h.busy
  cases h
  simp only [Slots.step, hpc]
  constructor
  · intro value
    refine ⟨update place s.next (.call task), ?_⟩
    constructor
    all_goals
      simp only [Slots.goto, Settled, update_apply]
      grind [Pc.item, Pc.slot, Pc.leaving, Settled]
  constructor
  all_goals
    simp only [Slots.goto, Settled, update_apply]
    grind [Pc.item, Pc.slot, Pc.leaving, Settled]

theorem Inv.look {seen : List SlotState} (hpc : s.pc task = .pushing item seen) :
    ∃ place', Inv n place' (s.advance n task) := by
  have hbusy := h.busy
  have hplace := h.call task item (by rw [hpc]; rfl)
  cases h
  simp only [Slots.advance, hpc]
  split
  · refine ⟨place, ?_⟩
    split <;> constructor
    all_goals
      simp only [Slots.goto, Slots.mark, Settled, update_apply]
      grind [Pc.item, Pc.slot, Pc.leaving, Settled]
  refine ⟨update place item.2 .refused, ?_⟩
  constructor
  all_goals
    simp only [Slots.goto, Settled, update_apply]
    grind [Pc.item, Pc.slot, Pc.leaving, Settled]

theorem Inv.fill (hpc : s.pc task = .writing item index ∨ s.pc task = .publishing item index) :
    ∃ place', Inv n place' (s.advance n task) := by
  have hbusy := h.busy
  cases h
  refine ⟨update place item.2 (.slot index), ?_⟩
  rcases hpc with hpc | hpc
  all_goals
    simp only [Slots.advance, hpc]
    constructor
  all_goals
    simp only [Slots.goto, Slots.mark, Settled, update_apply]
    grind [Pc.item, Pc.slot, Pc.leaving, Settled]

theorem Inv.find {start offset : Nat} (hpc : s.pc task = .popping start offset) :
    Inv n place (s.advance n task) := by
  have hbusy := h.busy
  cases h
  simp only [Slots.advance, hpc]
  split
  · next hlt =>
    have hindex : (start + offset) % n < n := Nat.mod_lt _ (by omega)
    generalize (start + offset) % n = index at hindex ⊢
    split <;> constructor
    all_goals
      simp only [Slots.goto, Slots.mark, Settled, update_apply]
      grind [Pc.item, Pc.slot, Pc.leaving, Settled]
  constructor
  all_goals
    simp only [Slots.goto, Settled, update_apply]
    grind [Pc.item, Pc.slot, Pc.leaving, Settled]

theorem Inv.take (hpc : s.pc task = .reading index) :
    ∃ place', Inv n place' (s.advance n task) := by
  have hbusy := h.busy
  obtain ⟨item, hitem⟩ := Option.ne_none_iff_exists'.mp (h.reading task index hpc).2
  cases h
  simp only [Slots.advance, hpc, hitem]
  refine ⟨update place item.2 (.call task), ?_⟩
  constructor
  all_goals
    simp only [Slots.goto, Settled, update_apply]
    grind [Pc.item, Pc.slot, Pc.leaving, Settled]

/-- A call of `pop` clears the slot, or moves the cursor and returns. -/
theorem Inv.leave : (s.pc task = .clearing item index → Inv n place (s.advance n task)) ∧
      (s.pc task = .moving item index → ∃ place', Inv n place' (s.advance n task)) := by
  have hbusy := h.busy
  cases h
  refine ⟨fun hpc => ?_, fun hpc => ?_⟩
  · simp only [Slots.advance, hpc]
    constructor
    all_goals
      simp only [Slots.goto, Slots.mark, Settled, update_apply]
      grind [Pc.item, Pc.slot, Pc.leaving, Settled]
  simp only [Slots.advance, hpc]
  refine ⟨update place item.2 .returned, ?_⟩
  constructor
  all_goals
    simp only [Slots.goto, Settled, update_apply]
    grind [Pc.item, Pc.slot, Pc.leaving, Settled]

theorem Inv.step (op : Op α ι) : ∃ place', Inv n place' (s.step n op) := by
  cases op with
  | push task value =>
    by_cases hpc : s.pc task = .idle
    · exact (h.enter hpc).1 value
    · simp only [Slots.step]
      exact ⟨place, h⟩
  | pop task =>
    by_cases hpc : s.pc task = .idle
    · exact ⟨place, (h.enter hpc).2⟩
    · simp only [Slots.step]
      exact ⟨place, h⟩
  | advance task =>
    show ∃ place', Inv n place' (s.advance n task)
    cases hpc : s.pc task with
    | idle => exact ⟨place, by simpa only [Slots.advance, hpc] using h⟩
    | pushing item seen => exact h.look hpc
    | writing item index => exact h.fill (.inl hpc)
    | publishing item index => exact h.fill (.inr hpc)
    | popping start offset => exact ⟨place, h.find hpc⟩
    | reading index => exact h.take hpc
    | clearing item index => exact ⟨place, h.leave.1 hpc⟩
    | moving item index => exact h.leave.2 hpc

/-! ## Every value once -/

/-- What holds of the values that calls of `push` took, in a row of `n` slots. -/
structure Delivered (n : Nat) (s : Slots α ι) : Prop where
  /-- What was taken, and nothing else, was returned or is on its way: in a full slot, or in a call
  of `pop` .. -/
  settled : ∀ item, item ∈ s.pushed ↔ s.Settled item
  /-- .. and in one place only. -/
  once : (s.popped.map Prod.snd).Nodup
  apart : ∀ item ∈ s.popped, (∀ index, s.value index ≠ some item) ∧ ∀ task,
    (s.pc task).item ≠ some item
  alone : ∀ index other item, s.value index = some item → s.value other = some item → index = other
  /-- No value was written over an unread one, or read where there was none. -/
  sound : s.broken = false
  /-- A call that found the row full saw every slot in use. -/
  refused : ∀ entry ∈ s.refused, entry.2.length = n ∧ .empty ∉ entry.2
  /-- When no call is under way, every slot is empty or full. -/
  quiet : (∀ task, s.pc task = .idle) → (∀ index, s.state index = .empty ∨ s.state index = .ready) ∧
    ∀ item ∈ s.pushed, item ∈ s.popped ∨ ∃ index < n, s.state index = .ready ∧
      s.value index = some item

omit [DecidableEq ι] in
theorem Inv.delivered : Delivered n s where
  settled item := by
    refine ⟨h.settled item, ?_⟩
    rintro (hpopped | ⟨index, hvalue, hfull⟩ | ⟨task, hleaving⟩)
    · exact h.popped item hpopped
    · exact h.filled index item hvalue (by grind)
    · exact h.leaving task item hleaving
  once := h.once
  apart item hitem := by
    have hplace := h.returned item hitem
    refine ⟨fun index hvalue => ?_, fun task hcall => ?_⟩
    · cases hplace.symm.trans (h.value index item hvalue)
    · cases hplace.symm.trans (h.call task item hcall)
  alone index other item hindex hother := by
    cases (h.value index item hindex).symm.trans (h.value other item hother)
    rfl
  sound := h.sound
  refused := h.refused
  quiet hidle := by
    have hstate : ∀ index, s.state index = .empty ∨ s.state index = .ready := by
      intro index
      have hclaimed := h.claimed index
      cases hstate : s.state index <;> simp_all [Pc.slot]
    refine ⟨hstate, fun item hitem => ?_⟩
    rcases h.settled item hitem with hpopped | ⟨index, hvalue, hfull⟩ | ⟨task, hcall⟩
    · exact .inl hpopped
    · have hready : s.state index = .ready := by
        have := hstate index
        grind
      exact .inr ⟨index, h.within index (by rw [hready]; simp), hready, hvalue⟩
    · rw [hidle task] at hcall
      cases hcall

end

/-- However the calls interleave, every value that was pushed is delivered once. -/
theorem delivers_once (n : Nat) (ops : List (Op α ι)) :
    Delivered n (Runs.exec (step n) new ops) := by
  have hinv : ∃ place, Inv n place (Runs.exec (step n) (new : Slots α ι) ops) :=
    Runs.invariant (P := fun s : Slots α ι => ∃ place, Inv n place s) (fun _ op h =>
      h.choose_spec.step op)
      ⟨_, inv_new n⟩ ops
  obtain ⟨place, h⟩ := hinv
  exact h.delivered

end Slots

end QuicLite.CallbackSlots

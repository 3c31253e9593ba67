import QuicLite.Pool.Heap
import Mathlib.Data.List.Nodup
import Mathlib.Data.List.Perm.Basic
import Mathlib.Data.List.Range

/-!
# The invariant of the packet pool

The holder of the guard is the only one that can be in the middle of something on a slot; `critical`
names it, and every other slot has a reference word that says exactly which writers and leases it
has. Every access of every agent keeps it.

Growth looks at the buffers of the new slots before it takes the guard. A final release that retires
such a slot in between takes away a buffer that growth has already counted on; when growth then gets
the guard, the slot is published without one. That is the one interleaving that `Undisturbed` leaves
out: a growth that gives up before it has the guard, for want of memory, does no harm.
-/

namespace QuicLite

open List Option Function Nat Prod

namespace HeapPool

/-! ## Who holds the guard, and in the middle of what -/

def Owner.holds : Owner → Bool
  | .publish .. | .publishBuffer .. | .publishReference .. | .publishDrop .. | .storeCapacity ..
    | .sweep ..
  | .reclaim .. | .reclaimBuffer .. | .retire .. | .unlock _ => true
  | _ => false

def Task.holds : Task → Bool
  | .acquireCapacity _ | .count .. | .find .. | .claim .. | .acquireUnlock | .recheckCapacity _
  | .recheckReferences _ | .retire .. | .releaseUnlock => true
  | _ => false

/-- A slot whose word was read as zero, or whose word is the mark although it has no writer. -/
inductive Critical where
  | rest
  | zero (slot : Nat)
  | marked (slot : Nat)

def Owner.critical : Owner → Critical
  | .reclaimBuffer _ _ slot | .retire _ _ slot _ .mark => .zero slot
  | .publishReference _ _ slot _ | .retire _ _ slot _ .swap => .marked slot
  | _ => .rest

def Task.critical : Task → Critical
  | .claim _ slot | .retire slot .mark => .zero slot
  | .retire slot .swap => .marked slot
  | _ => .rest

namespace State

def holds (s : State) : Agent → Bool
  | .owner => s.owner.holds
  | .task id => (s.tasks id).holds

def critical (s : State) : Critical :=
  match s.lock with
  | none => .rest
  | some .owner => s.owner.critical
  | some (.task id) => (s.tasks id).critical

end State

/-- Slots below `bound` that can be acquired. -/
def free (references : Nat → Nat) (bound : Nat) : Nat :=
  (range bound).countP fun slot => references slot == 0

/-! ## The invariant -/

/-- The reference word of a slot that nobody is in the middle of. -/
def Word (buffer : Option Nat) (word leases writers : Nat) : Prop :=
  match buffer with
  | none => word = writerMark ∧ leases = 0 ∧ writers = 0
  | some _ => (word = writerMark ∧ leases = 0 ∧ writers = 1) ∨
      (word = leases ∧ leases < writerMark ∧ writers = 0)

/-- What the table says of one slot. -/
structure SlotOk (critical : Critical) (slot : Nat) (buffer : Option Nat)
    (value leases writers : Nat) : Prop where
  word : critical ≠ .marked slot → Word buffer value leases writers
  marked : critical = .marked slot → value = writerMark ∧ leases = 0 ∧ writers = 0
  zero : critical = .zero slot → value = 0

/-- Each slot from `current` up to `bound` has a buffer or a pending one. -/
def Covered (buffers : Nat → Option Nat) (current bound : Nat)
    (pending : List PendingSlot) : Prop :=
  ∀ slot < bound, current ≤ slot → (buffers slot).isSome ∨ slot ∈ pending.map fst

instance (buffers : Nat → Option Nat) (current bound : Nat) (pending : List PendingSlot) :
    Decidable (Covered buffers current bound pending) :=
  inferInstanceAs (Decidable (∀ slot < bound, _))

/-- What growth knows without the guard: the slots it has pending buffers for are new and empty. -/
structure Listed (buffers : Nat → Option Nat) (current bound : Nat)
    (pending : List PendingSlot) : Prop where
  nodup : (pending.map fst).Nodup
  empty : ∀ slot ∈ pending.map fst, current ≤ slot ∧ slot < bound ∧ buffers slot = none

/-- What it knows under the guard. -/
structure Surveyed (buffers : Nat → Option Nat) (current bound : Nat)
    (pending : List PendingSlot) : Prop
    extends Listed buffers current bound pending where
  covered : Covered buffers current bound pending

/-- Buffers that are allocated and not yet in the table. -/
def Owner.pending : Owner → List Nat
  | .scan _ _ _ pending | .allocate _ _ _ pending | .abandon _ pending | .growLock _ _ pending
  | .publish _ _ pending | .publishReference _ _ _ pending => pending.map snd
  | .publishBuffer _ _ _ buffer pending | .publishDrop _ _ buffer pending =>
    buffer :: pending.map snd
  | _ => []

def OwnerOk (size : PoolSize) (capacity : Nat) (buffers : Nat → Option Nat) : Owner → Prop
  | .reserve current target => capacity = current ∧ current < target ∧ target ≤ size.maxSlots
  | .scan current target slot pending =>
    capacity = current ∧ current ≤ slot ∧ slot ≤ target ∧ current < target ∧
      target ≤ size.maxSlots ∧
      Listed buffers current slot pending
  | .allocate current target slot pending =>
    capacity = current ∧ current ≤ slot ∧ slot < target ∧ target ≤ size.maxSlots ∧
      buffers slot = none ∧
      Listed buffers current slot pending
  | .abandon current _ => capacity = current
  | .growLock current target pending =>
    capacity = current ∧ current < target ∧ target ≤ size.maxSlots ∧
      Listed buffers current target pending
  | .publish current target pending =>
    capacity = current ∧ current < target ∧ target ≤ size.maxSlots ∧
      Surveyed buffers current target pending
  | .publishBuffer current target slot buffer pending =>
    capacity = current ∧ current < target ∧ target ≤ size.maxSlots ∧
      Surveyed buffers current target ((slot, buffer) :: pending)
  | .publishReference current target slot pending =>
    capacity = current ∧ current < target ∧ target ≤ size.maxSlots ∧ current ≤ slot ∧
      (buffers slot).isSome ∧ Surveyed buffers current target pending
  -- nobody else puts a buffer into the table
  | .publishDrop .. => False
  | .shrinkLock current target => capacity = current ∧ target ≤ current
  | .storeCapacity current target =>
    capacity = current ∧ target ≤ size.maxSlots ∧ ∀ slot, current ≤ slot → slot < target →
      (buffers slot).isSome
  | .sweep _ target slot | .reclaim _ target slot | .reclaimBuffer _ target slot
  | .retire _ target slot _ _ =>
    capacity = target ∧ target ≤ slot
  | .returned current (.error _) => capacity = current
  | _ => True

def TaskOk (capacity : Nat) (references : Nat → Nat) : Task → Prop
  | .count _ loaded slot available =>
    loaded = capacity ∧ available ≤ free references slot ∧ slot ≤ capacity
  | .find reserved loaded _ => loaded = capacity ∧ reserved < free references capacity
  | .claim reserved slot => slot < capacity ∧ reserved < free references capacity
  | .recheckReferences slot | .retire slot _ => capacity ≤ slot
  | _ => True

/-- The buffers in the table. -/
def table (size : PoolSize) (buffers : Nat → Option Nat) : List Nat :=
  (range size.maxSlots).filterMap buffers

structure Inv (size : PoolSize) (s : State) : Prop where
  guard : ∀ agent, s.holds agent = true ↔ s.lock = some agent
  slots : ∀ slot, SlotOk s.critical slot (s.buffers slot) (s.references slot) (s.leases slot)
    (s.writers slot)
  capacity : s.capacity ≤ size.maxSlots
  outside : ∀ slot, size.maxSlots ≤ slot → s.buffers slot = none
  owner : OwnerOk size s.capacity s.buffers s.owner
  tasks : ∀ id, TaskOk s.capacity s.references (s.tasks id)
  backed : ∀ slot, slot < s.capacity → (s.buffers slot).isSome
  ledger : ((table size s.buffers ++ s.owner.pending) ++ s.freed).Perm (range s.nextBuffer)

/-! ## What the run must not do -/

/-- Growth takes the guard only while every new slot still has the buffer it found there, or a
pending one. -/
def Owner.Undisturbed (lock : Option Agent) (buffers : Nat → Option Nat) : Owner → Prop
  | .growLock current target pending => lock = none → Covered buffers current target pending
  | _ => True

instance (lock : Option Agent) (buffers : Nat → Option Nat) :
    ∀ owner : Owner, Decidable (owner.Undisturbed lock buffers)
  | .growLock .. => inferInstanceAs (Decidable (lock = none → Covered ..))
  | .idle | .countLeases .. | .countWriters .. | .countWriterBuffer .. | .choose .. | .reserve ..
  | .scan .. | .allocate .. | .abandon .. | .publish .. | .publishBuffer .. | .publishReference ..
  | .publishDrop .. | .shrinkLock .. | .storeCapacity .. | .sweep .. | .reclaim ..
  | .reclaimBuffer .. | .retire .. | .unlock .. | .returned .. => isTrue trivial

/-- No lease is cloned while 254 of its slot are alive, where the code asserts after it has
counted. -/
def TaskOp.Undisturbed (leases : Nat → Nat) : TaskOp → Prop
  | .clone slot => leases slot < 254
  | _ => True

instance (leases : Nat → Nat) : ∀ op : TaskOp, Decidable (op.Undisturbed leases)
  | .clone slot => inferInstanceAs (Decidable (leases slot < 254))
  | .acquireWriter .. | .commit .. | .dropWriter .. | .dropLease .. => isTrue trivial

/-- What the run must leave alone, where the step that is taken is the one that is due. -/
def Undisturbed (s : State) : Action → Prop
  | .owner _ => s.owner.Undisturbed s.lock s.buffers
  | .begin id op => s.tasks id = .idle → op.Undisturbed s.leases
  | .call _ | .task _ => True

instance (s : State) : ∀ action : Action, Decidable (Undisturbed s action)
  | .owner _ => inferInstanceAs (Decidable (s.owner.Undisturbed s.lock s.buffers))
  | .begin id op => inferInstanceAs (Decidable (s.tasks id = .idle → op.Undisturbed s.leases))
  | .call _ | .task _ => isTrue trivial

theorem new_inv (size : PoolSize) : Inv size new where
  guard := by
    intro agent
    cases agent <;> exact ⟨nofun, nofun⟩
  slots := fun _ => ⟨fun _ => ⟨rfl, rfl, rfl⟩, nofun, nofun⟩
  capacity := zero_le _
  outside := fun _ _ => rfl
  owner := trivial
  tasks := fun _ => trivial
  backed := nofun
  ledger := by
    have : table size new.buffers = [] := filterMap_eq_nil_iff.mpr fun _ _ => rfl
    rw [this]
    exact .refl _

section Preservation

variable {size : PoolSize} {s : State}

/-! ## Moves that leave the table alone -/

variable {slot leases writers : Nat} {buffer : Option Nat}
variable {task old : Task} {lock : Option Agent} {s' : State} {other value : Nat}
variable {nextBuffer resized capacity : Nat} {freed : List Nat} {references references' : Nat → Nat}

/-- Nobody leaves a slot marked without writing to it. -/
theorem SlotOk.move {critical critical' : Critical} {word : Nat}
    (h : SlotOk critical slot buffer word leases writers) (hprev : critical ≠ .marked slot)
    (hnext : critical' = .rest ∨ ∃ other, critical' = .zero other ∧ (slot = other → word = 0)) :
    SlotOk critical' slot buffer word leases writers where
  word := fun _ => h.word hprev
  marked := by
    rintro rfl
    rcases hnext with hnext | ⟨_, hnext, _⟩ <;> cases hnext
  zero := by
    rintro rfl
    rcases hnext with hnext | ⟨_, hnext, hzero⟩ <;> cases hnext
    exact hzero rfl

variable {id : Nat}

theorem critical_setTask_self (hlock : s.lock = some (.task id)) (task : Task) :
    (s.setTask id task).critical = task.critical := by
  simp [State.critical, State.setTask, hlock]

theorem critical_setTask_of_ne (hlock : s.lock ≠ some (.task id)) (task : Task) :
    (s.setTask id task).critical = s.critical := by
  unfold State.critical State.setTask
  rcases hs : s.lock with _ | _ | other
  · rfl
  · rfl
  have : other ≠ id := by
    rintro rfl
    exact hlock hs
  simp [update_of_ne this]

theorem critical_of_task (hlock : s.lock = some (.task id)) :
    s.critical = (s.tasks id).critical := by
  simp [State.critical, hlock]

theorem critical_of_owner (hlock : s.lock = some .owner) : s.critical = s.owner.critical := by
  simp [State.critical, hlock]

theorem critical_setOwner_self (hlock : s.lock = some .owner) (owner : Owner) :
    (s.setOwner owner).critical = owner.critical := by
  simp [State.critical, State.setOwner, hlock]

theorem critical_setOwner_of_ne (hlock : s.lock ≠ some .owner) (owner : Owner) :
    (s.setOwner owner).critical = s.critical := by
  unfold State.critical State.setOwner
  rcases hs : s.lock with _ | _ | other
  · rfl
  · exact absurd hs hlock
  · rfl

theorem Inv.task_guards (h : Inv size s) (htask : s.tasks id = old) (hholds : old.holds = true) :
    s.lock = some (.task id) ∧ s.critical = old.critical := by
  subst htask
  have hlock := (h.guard (.task id)).mp hholds
  exact ⟨hlock, critical_of_task hlock⟩

theorem Inv.owner_guards (h : Inv size s) {old : Owner} (howner : s.owner = old)
    (hholds : old.holds = true) :
    s.lock = some .owner ∧ s.critical = old.critical := by
  subst howner
  have hlock := (h.guard .owner).mp hholds
  exact ⟨hlock, critical_of_owner hlock⟩

/-- A move of the guard, the counters and the heap, under which the table stays. -/
theorem Inv.calm (h : Inv size s) {owner : Owner} {budget : Option (Nat × Nat)}
    {tasks : Nat → Task} (hs' : s' = { s with
      lock := lock, owner := owner, budget := budget, tasks := tasks, nextBuffer := nextBuffer,
        freed := freed,
      resized := resized })
    (hguard : ∀ agent, s'.holds agent = true ↔ lock = some agent)
    (hcritical : s'.critical = s.critical ∨ (∀ slot, s.critical ≠ .marked slot) ∧
      (s'.critical = .rest ∨ ∃ slot, s'.critical = .zero slot ∧ s.references slot = 0))
    (howner : OwnerOk size s.capacity s.buffers owner)
    (htasks : ∀ id, TaskOk s.capacity s.references (tasks id))
    (hledger : ((table size s.buffers ++ owner.pending) ++ freed).Perm (range nextBuffer)) :
    Inv size s' := by
  subst hs'
  refine ⟨hguard, fun slot => ?_, h.capacity, h.outside, howner, htasks, h.backed, hledger⟩
  rcases hcritical with hsame | ⟨hprev, hnext⟩
  · rw [hsame]
    exact h.slots slot
  refine (h.slots slot).move (hprev slot) (hnext.imp_right ?_)
  rintro ⟨other, hother, hzero⟩
  exact ⟨other, hother, fun heq => heq ▸ hzero⟩

theorem Inv.tasks_update (h : Inv size s) (hok : TaskOk s.capacity s.references task)
    (other : Nat) :
    TaskOk s.capacity s.references (update s.tasks id task other) := by
  by_cases hid : other = id
  · subst hid
    rwa [update_self]
  · rw [update_of_ne hid]
    exact h.tasks other

/-- The move of a task within or outside the guard, which changes nothing but its counter. -/
theorem Inv.setTask (h : Inv size s) (htask : s.tasks id = old) (hholds : task.holds = old.holds)
    (hprev : ∀ slot, old.critical ≠ .marked slot)
    (hnext : task.critical = .rest ∨ ∃ slot, task.critical = .zero slot ∧ s.references slot = 0)
    (hok : TaskOk s.capacity s.references task) : Inv size (s.setTask id task) := by
  refine h.calm rfl (fun agent => Iff.trans ?_ (h.guard agent)) ?_ h.owner (h.tasks_update hok)
    h.ledger
  · cases agent with
    | owner => rfl
    | task other =>
      by_cases hid : other = id
      · subst hid
        simp [State.holds, State.setTask, hholds, htask]
      · simp [State.holds, State.setTask, update_of_ne hid]
  by_cases hlock : s.lock = some (.task id)
  · rw [critical_setTask_self hlock, critical_of_task hlock, htask]
    exact .inr ⟨hprev, hnext⟩
  · exact .inl (critical_setTask_of_ne hlock task)

variable {owner : Owner}

theorem Inv.setOwner (h : Inv size s) {old : Owner} (howner : s.owner = old)
    (hholds : owner.holds = old.holds) (hprev : ∀ slot, old.critical ≠ .marked slot)
    (hnext : owner.critical = .rest ∨ ∃ slot, owner.critical = .zero slot ∧ s.references slot = 0)
    (hpending : owner.pending = old.pending) (hok : OwnerOk size s.capacity s.buffers owner) :
    Inv size (s.setOwner owner) := by
  subst howner
  refine h.calm rfl (fun agent => Iff.trans ?_ (h.guard agent)) ?_ hok h.tasks (hpending ▸ h.ledger)
  · cases agent with
    | owner => simp [State.holds, State.setOwner, hholds]
    | task other => rfl
  by_cases hlock : s.lock = some .owner
  · rw [critical_setOwner_self hlock, critical_of_owner hlock]
    exact .inr ⟨hprev, hnext⟩
  · exact .inl (critical_setOwner_of_ne hlock owner)

theorem Inv.setBudget (h : Inv size s) (budget : Option (Nat × Nat)) :
    Inv size { s with budget := budget } :=
  h.calm rfl h.guard (.inl rfl) h.owner h.tasks h.ledger

/-! ## Taking and releasing the guard -/

theorem Owner.critical_of_not_holds (h : owner.holds = false) : owner.critical = .rest := by
  cases owner <;> first | rfl | cases h

theorem Inv.passTask (h : Inv size s) (htask : s.tasks id = old)
    (hlock : s.lock = none ∧ lock = some (.task id) ∧ task.holds = true ∨
      s.lock = some (.task id) ∧ lock = none ∧ task.holds = false)
    (hprev : old.critical = .rest) (hnext : task.critical = .rest)
    (hok : TaskOk s.capacity s.references task) :
    Inv size ({ s with lock := lock }.setTask id task) := by
  refine h.calm rfl (fun agent => ?_) (.inr ⟨?_, .inl ?_⟩) h.owner (h.tasks_update hok) h.ledger
  · have hguard := h.guard agent
    cases agent with
    | owner =>
      rcases hlock with ⟨hs, rfl, -⟩ | ⟨hs, rfl, -⟩ <;> rw [hs] at hguard <;>
        simpa [State.holds, State.setTask] using hguard
    | task other =>
      by_cases hid : other = id
      · subst hid
        rcases hlock with ⟨-, rfl, hholds⟩ |
          ⟨-, rfl, hholds⟩ <;> simp [State.holds, State.setTask, hholds]
      · rcases hlock with ⟨hs, rfl, -⟩ | ⟨hs, rfl, -⟩ <;> rw [hs] at hguard <;>
          simpa [State.holds, State.setTask, update_of_ne hid, Ne.symm hid] using hguard
  · rcases hlock with ⟨hs, -⟩ | ⟨hs, -⟩
    · simp [State.critical, hs]
    · simp [critical_of_task hs, htask, hprev]
  · rcases hlock with ⟨-, rfl, -⟩ | ⟨-, rfl, -⟩
    · rw [critical_setTask_self rfl, hnext]
    · rfl

theorem Inv.passOwner (h : Inv size s) {old : Owner} (howner : s.owner = old)
    (hlock : s.lock = none ∧ lock = some .owner ∧ owner.holds = true ∨
      s.lock = some .owner ∧ lock = none ∧ owner.holds = false)
    (hprev : old.critical = .rest) (hnext : owner.critical = .rest)
    (hpending : owner.pending = old.pending) (hok : OwnerOk size s.capacity s.buffers owner) :
    Inv size ({ s with lock := lock, resized := resized }.setOwner owner) := by
  subst howner
  refine h.calm rfl (fun agent => ?_) (.inr ⟨?_, .inl ?_⟩) hok h.tasks (hpending ▸ h.ledger)
  · have hguard := h.guard agent
    cases agent with
    | owner =>
      rcases hlock with ⟨-, rfl, hholds⟩ |
        ⟨-, rfl, hholds⟩ <;> simp [State.holds, State.setOwner, hholds]
    | task other =>
      rcases hlock with ⟨hs, rfl, -⟩ | ⟨hs, rfl, -⟩ <;> rw [hs] at hguard <;>
        simpa [State.holds, State.setOwner] using hguard
  · rcases hlock with ⟨hs, -⟩ | ⟨hs, -⟩
    · simp [State.critical, hs]
    · simp [critical_of_owner hs, hprev]
  · rcases hlock with ⟨-, rfl, -⟩ | ⟨-, rfl, -⟩
    · exact (critical_setOwner_self rfl owner).trans hnext
    · rfl

/-! ## Handles -/

theorem free_mono (h : ∀ slot, references slot = 0 → references' slot = 0)
    (bound : Nat) : free references bound ≤ free references' bound := by
  apply countP_mono_left
  intro slot _ hslot
  simp only [beq_iff_eq] at hslot ⊢
  exact h slot hslot

/-- Words that are zero stay zero unless the holder of the guard writes them. -/
theorem TaskOk.mono
    (h : TaskOk capacity references task)
    (hzero : ∀ slot, references slot = 0 → references' slot = 0) :
    TaskOk capacity references' task := by
  cases task with
  | count => exact ⟨h.1, h.2.1.trans (free_mono hzero _), h.2.2⟩
  | find => exact ⟨h.1, h.2.trans_le (free_mono hzero _)⟩
  | claim => exact ⟨h.1, h.2.trans_le (free_mono hzero _)⟩
  | _ => exact h

theorem TaskOk.of_not_holds (h : task.holds = false) (capacity : Nat) (references : Nat → Nat) :
    TaskOk capacity references task := by
  cases task <;> trivial

theorem Word.of_zero (h : Word buffer 0 leases writers) :
    buffer.isSome ∧ leases = 0 ∧ writers = 0 := by
  cases buffer with
  | none => exact absurd h.1 (by decide)
  | some _ =>
    rcases h with ⟨h, -⟩ | ⟨h, -, hwriters⟩
    · exact absurd h (by decide)
    · exact ⟨rfl, h.symm, hwriters⟩

section

variable {word : Nat} (h : Word buffer word leases writers)
include h

theorem Word.of_live (hlive : leases ≠ 0 ∨ writers ≠ 0) : buffer.isSome ∧ word ≠ 0 := by
  cases buffer with
  | none => simp [h.2.1, h.2.2] at hlive
  | some _ =>
    refine ⟨rfl, ?_⟩
    rintro rfl
    simp [h.of_zero.2.1, h.of_zero.2.2] at hlive

theorem Word.of_writer (hwriter : writers ≠ 0) : leases = 0 ∧ writers = 1 := by
  cases buffer with
  | none => exact absurd h.2.2 hwriter
  | some _ =>
    rcases h with ⟨-, hleases, hone⟩ | ⟨-, -, hnone⟩
    · exact ⟨hleases, hone⟩
    · exact absurd hnone hwriter

theorem Word.of_lease (hlease : leases ≠ 0) :
    word = leases ∧ leases < writerMark ∧ writers = 0 := by
  cases buffer with
  | none => exact absurd h.2.1 hlease
  | some _ =>
    rcases h with ⟨-, hnone, -⟩ | h
    · exact absurd hnone hlease
    · exact h

end

/-- A slot with a writer or a lease is not what the holder of the guard is working on. -/
theorem Inv.word_of_live (h : Inv size s) (hlive : s.leases slot ≠ 0 ∨ s.writers slot ≠ 0) :
    s.critical ≠ .marked slot ∧ Word (s.buffers slot) (s.references slot) (s.leases slot)
    (s.writers slot) := by
  have hmarked : s.critical ≠ .marked slot := by
    intro hslot
    obtain ⟨-, hleases, hwriters⟩ := (h.slots slot).marked hslot
    simp [hleases, hwriters] at hlive
  exact ⟨hmarked, (h.slots slot).word hmarked⟩

/-- A call on a handle writes the word of its own slot, whoever holds the guard. -/
theorem Inv.handle (h : Inv size s) (word : Nat) {leases writers : Nat → Nat}
    (hlive : s.leases slot ≠ 0 ∨ s.writers slot ≠ 0)
    (hword : ∀ buffer, Word (some buffer) word (leases slot) (writers slot))
    (hleases : ∀ other, other ≠ slot → leases other = s.leases other)
    (hwriters : ∀ other, other ≠ slot → writers other = s.writers other) :
    Inv size { s.setReference slot word with leases := leases, writers := writers } := by
  obtain ⟨hmarked, hold⟩ := h.word_of_live hlive
  obtain ⟨hsome, hne⟩ := hold.of_live hlive
  have hzero : ∀ other, s.references other = 0 → update s.references slot word other = 0 := by
    intro other hother
    have : other ≠ slot := by
      rintro rfl
      exact hne hother
    rwa [update_of_ne this]
  refine ⟨h.guard, ?_, h.capacity, h.outside, h.owner, fun id => (h.tasks id).mono hzero, h.backed,
    h.ledger⟩
  intro other
  show SlotOk s.critical other (s.buffers other) (update s.references slot word other)
    (leases other)
    (writers other)
  by_cases heq : other = slot
  · subst heq
    obtain ⟨buffer, hbuffer⟩ := isSome_iff_exists.mp hsome
    rw [hbuffer, update_self]
    refine ⟨fun _ => hword buffer, fun h => absurd h hmarked, fun hother => ?_⟩
    exact absurd ((h.slots other).zero hother) hne
  · rw [update_of_ne heq, hleases other heq, hwriters other heq]
    exact h.slots other

/-! ## Buffers in the table -/

variable {buffers : Nat → Option Nat}

theorem filterMap_update_perm {buffer : Nat} (hnone : buffers slot = none) :
    ∀ {slots : List Nat}, slots.Nodup → slot ∈ slots →
      (slots.filterMap (update buffers slot (some buffer))).Perm
        (buffer :: slots.filterMap buffers) := by
  intro slots hnodup hmem
  induction slots with
  | nil => cases hmem
  | cons first rest ih =>
    obtain ⟨hfirst, hrest⟩ := nodup_cons.mp hnodup
    by_cases heq : first = slot
    · subst heq
      have hsame : rest.filterMap (update buffers first (some buffer)) =
          rest.filterMap buffers := by
        apply filterMap_congr
        intro other hother
        rw [update_of_ne]
        rintro rfl
        exact hfirst hother
      simp [hnone, hsame]
    have htail := ih hrest ((mem_cons.mp hmem).resolve_left (Ne.symm heq))
    rw [filterMap_cons, filterMap_cons, update_of_ne heq]
    cases buffers first with
    | none => exact htail
    | some other => exact (htail.cons other).trans (.swap ..)

theorem table_put (hslot : slot < size.maxSlots) (hnone : buffers slot = none) (buffer : Nat) :
    (table size (update buffers slot (some buffer))).Perm (buffer :: table size buffers) :=
  filterMap_update_perm hnone nodup_range (mem_range.mpr hslot)

theorem table_take (hslot : slot < size.maxSlots) :
    (table size buffers).Perm ((buffers slot).toList ++ table size (update buffers slot none)) := by
  cases hbuffer : buffers slot with
  | none => rw [update_eq_self_iff.mpr hbuffer.symm]; exact .refl _
  | some buffer =>
    have hput : (table size (update (update buffers slot none) slot (some buffer))).Perm
        (buffer :: table size (update buffers slot none)) :=
      table_put hslot (update_self slot none buffers) buffer
    rwa [update_idem, update_eq_self_iff.mpr hbuffer.symm] at hput

/-! ## Under the guard -/

section

variable (h : Inv size s)
variable {agent : Agent}
include h

theorem Inv.not_holds {other : Agent} (hlock : s.lock = some agent) (hne : other ≠ agent) :
    s.holds other = false := by
  rw [Bool.eq_false_iff]
  intro hholds
  rw [(h.guard other).mp hholds] at hlock
  exact hne (some.inj hlock)

/-- Under the guard of another, a task expects nothing of the table. -/
theorem Inv.task_ok (hlock : s.lock = some agent) (hne : .task id ≠ agent)
    (capacity : Nat) (references : Nat → Nat) : TaskOk capacity references (s.tasks id) :=
  TaskOk.of_not_holds (h.not_holds hlock hne) capacity references

theorem Inv.word_of_zero (hzero : s.critical = .zero slot) :
    s.references slot = 0 ∧ (s.buffers slot).isSome ∧ s.leases slot = 0 ∧ s.writers slot = 0 := by
  have hword := (h.slots slot).word (by rw [hzero]; exact nofun)
  rw [(h.slots slot).zero hzero] at hword
  exact ⟨(h.slots slot).zero hzero, hword.of_zero⟩

/-- A step of the task that holds the guard and keeps it. -/
theorem Inv.ofTask (hlock : s.lock = some (.task id))
    (hlock' : s'.lock = s.lock) (htasks : s'.tasks = update s.tasks id task)
    (hholds : task.holds = true) (hok : TaskOk s'.capacity s'.references task)
    (hslots : ∀ slot, SlotOk task.critical slot (s'.buffers slot) (s'.references slot)
      (s'.leases slot) (s'.writers slot))
    (hcapacity : s'.capacity = s.capacity) (howner : s'.owner = s.owner)
    (houtside : ∀ slot, size.maxSlots ≤ slot → s'.buffers slot = none)
    (hownerOk : OwnerOk size s.capacity s'.buffers s.owner)
    (hbacked : ∀ slot, slot < s.capacity → (s'.buffers slot).isSome)
    (hledger : ((table size s'.buffers ++ s.owner.pending) ++ s'.freed).Perm
      (range s'.nextBuffer)) : Inv size s' where
  guard := by
    intro agent
    rw [hlock']
    refine Iff.trans ?_ (h.guard agent)
    cases agent with
    | owner => simp [State.holds, howner]
    | task other =>
      by_cases hid : other = id
      · subst hid
        simp only [State.holds, htasks, update_self, hholds, true_iff]
        exact (h.guard (.task other)).mpr hlock
      · simp [State.holds, htasks, update_of_ne hid]
  slots := by
    have : s'.critical = task.critical := by
      rw [critical_of_task (hlock'.trans hlock), htasks, update_self]
    rwa [this]
  capacity := hcapacity ▸ h.capacity
  outside := houtside
  owner := by
    rw [hcapacity, howner]
    exact hownerOk
  tasks := by
    intro other
    rw [htasks]
    by_cases hid : other = id
    · subst hid
      rwa [update_self]
    · rw [update_of_ne hid]
      exact h.task_ok hlock (by simpa using hid) _ _
  backed := by
    rwa [hcapacity]
  ledger := by
    rwa [howner]

theorem Inv.ofOwner (hlock : s.lock = some .owner) (hlock' : s'.lock = s.lock)
    (htasks : s'.tasks = s.tasks) (hholds : s'.owner.holds = true)
    (hslots : ∀ slot, SlotOk s'.owner.critical slot (s'.buffers slot) (s'.references slot)
      (s'.leases slot) (s'.writers slot)) (hcapacity : s'.capacity ≤ size.maxSlots)
    (houtside : ∀ slot, size.maxSlots ≤ slot → s'.buffers slot = none)
    (hownerOk : OwnerOk size s'.capacity s'.buffers s'.owner)
    (hbacked : ∀ slot, slot < s'.capacity → (s'.buffers slot).isSome)
    (hledger : ((table size s'.buffers ++ s'.owner.pending) ++ s'.freed).Perm
      (range s'.nextBuffer)) : Inv size s' where
  guard := by
    intro agent
    rw [hlock']
    refine Iff.trans ?_ (h.guard agent)
    cases agent with
    | owner =>
      simp only [State.holds, hholds, true_iff]
      exact (h.guard .owner).mpr hlock
    | task other => simp only [State.holds, htasks]
  slots := by
    have : s'.critical = s'.owner.critical := critical_of_owner (hlock'.trans hlock)
    rwa [this]
  capacity := hcapacity
  outside := houtside
  owner := hownerOk
  tasks := by
    intro id
    rw [htasks]
    exact h.task_ok hlock nofun _ _
  backed := hbacked
  ledger := hledger

end

theorem SlotOk.mark (h : SlotOk (.zero slot) other buffer value leases writers) :
    SlotOk (.marked slot) other buffer (if other = slot then writerMark else value)
      leases writers := by
  have hword := h.word nofun
  by_cases heq : other = slot
  · subst heq
    rw [h.zero rfl] at hword
    rw [if_pos rfl]
    exact ⟨fun hne => absurd rfl hne, fun _ => ⟨rfl, hword.of_zero.2⟩, nofun⟩
  rw [if_neg heq]
  refine ⟨fun _ => hword, ?_, nofun⟩
  rintro ⟨⟩
  exact absurd rfl heq

theorem SlotOk.swapOut (h : SlotOk (.marked slot) other buffer value leases writers) :
    SlotOk .rest other (if other = slot then none else buffer) value leases writers := by
  refine ⟨fun _ => ?_, nofun, nofun⟩
  by_cases heq : other = slot
  · subst heq
    rw [if_pos rfl]
    exact h.marked rfl
  rw [if_neg heq]
  apply h.word
  rintro ⟨⟩
  exact heq rfl

theorem SlotOk.claim (h : SlotOk (.zero slot) other buffer value leases writers) :
    SlotOk .rest other buffer (if other = slot then writerMark else value) leases
      (if other = slot then writers + 1 else writers) := by
  have hword := h.word nofun
  refine ⟨fun _ => ?_, nofun, nofun⟩
  by_cases heq : other = slot
  · subst heq
    rw [h.zero rfl] at hword
    obtain ⟨hsome, hleases, hwriters⟩ := hword.of_zero
    obtain ⟨buffer, rfl⟩ := isSome_iff_exists.mp hsome
    rw [if_pos rfl, if_pos rfl, hwriters]
    exact .inl ⟨rfl, hleases, rfl⟩
  · rwa [if_neg heq, if_neg heq]

open List

/-- The buffer that leaves the table is the one that is freed. -/
theorem ledger_swapOut {pending : List Nat}
    (houtside : ∀ slot, size.maxSlots ≤ slot → s.buffers slot = none)
    (h : ((table size s.buffers ++ pending) ++ s.freed).Perm (range s.nextBuffer)) :
    ((table size (s.swapOut slot).buffers ++ pending) ++ (s.swapOut slot).freed).Perm
      (range s.nextBuffer) := by
  refine .trans ?_ h
  show ((table size (update s.buffers slot none) ++ pending) ++
    (s.freed ++ (s.buffers slot).toList)).Perm _
  by_cases hslot : slot < size.maxSlots
  · have htake : (table size s.buffers).Perm
        ((s.buffers slot).toList ++ table size (update s.buffers slot none)) := table_take
          hslot
    rw [← append_assoc]
    refine perm_append_comm.trans ?_
    rw [← append_assoc, ← append_assoc]
    exact (htake.symm.append_right pending).append_right s.freed
  · have hnone := houtside slot (Nat.le_of_not_lt hslot)
    rw [update_eq_self_iff.mpr hnone.symm, hnone, Option.toList_none, append_nil]

/-! ## Tasks -/

open State

theorem Inv.claimTask (h : Inv size s) {reserved : Nat}
    (htask : s.tasks id = .claim reserved slot) :
    Inv size (s.taskStep id) := by
  obtain ⟨hlock, hcritical : s.critical = .zero slot⟩ := h.task_guards htask rfl
  simp only [State.taskStep, htask]
  refine h.ofTask hlock rfl rfl rfl trivial ?_ rfl rfl h.outside h.owner h.backed h.ledger
  intro other
  have hslot := h.slots other
  rw [hcritical] at hslot
  have hclaim := hslot.claim
  simp only [State.setTask, State.mark, setReference, Task.critical]
  by_cases heq : other = slot
  · subst heq
    simpa using hclaim
  · simpa [heq] using hclaim

theorem Inv.markTask (h : Inv size s) (htask : s.tasks id = .retire slot .mark) :
    Inv size (s.taskStep id) := by
  obtain ⟨hlock, hcritical : s.critical = .zero slot⟩ := h.task_guards htask rfl
  have hok := h.tasks id
  rw [htask] at hok
  simp only [taskStep, htask]
  refine h.ofTask hlock rfl rfl rfl hok ?_ rfl rfl h.outside h.owner h.backed h.ledger
  intro other
  have hslot := h.slots other
  rw [hcritical] at hslot
  simpa only [State.setTask, State.mark, setReference, update_apply, Task.critical] using hslot.mark

theorem Listed.swapOut {current bound : Nat} {pending : List PendingSlot}
    (h : Listed buffers current bound pending) (slot : Nat) :
    Listed (update buffers slot none) current bound pending where
  nodup := h.nodup
  empty := by
    intro other hother
    obtain ⟨hlow, hlt, hnone⟩ := h.empty other hother
    refine ⟨hlow, hlt, ?_⟩
    rw [update_apply, hnone, ite_self]

/-- Without the guard the owner expects no buffer to stay where it is. -/
theorem OwnerOk.swapOut (h : OwnerOk size capacity buffers owner) (hholds : owner.holds = false)
    (slot : Nat) :
    OwnerOk size capacity (update buffers slot none) owner := by
  cases owner with
  | scan current target bound pending =>
    obtain ⟨hcapacity, hge, hle, hlt, hmax, hold⟩ := h
    exact ⟨hcapacity, hge, hle, hlt, hmax, hold.swapOut slot⟩
  | allocate current target bound pending =>
    obtain ⟨hcapacity, hge, hlt, hmax, hnone, hold⟩ := h
    refine ⟨hcapacity, hge, hlt, hmax, ?_, hold.swapOut slot⟩
    rw [update_apply, hnone, ite_self]
  | growLock current target pending =>
    obtain ⟨hcapacity, hlt, hmax, hold⟩ := h
    exact ⟨hcapacity, hlt, hmax, hold.swapOut slot⟩
  | publish | publishBuffer | publishReference | publishDrop | storeCapacity | sweep | reclaim
  | reclaimBuffer | retire | unlock => cases hholds
  | returned _ result => cases result <;> exact h
  | _ => exact h

theorem Inv.swapTask (h : Inv size s) (htask : s.tasks id = .retire slot .swap) :
    Inv size (s.taskStep id) := by
  obtain ⟨hlock, hcritical : s.critical = .marked slot⟩ := h.task_guards htask rfl
  have hok : s.capacity ≤ slot := by
    have := h.tasks id
    rwa [htask] at this
  simp only [taskStep, htask]
  refine h.ofTask hlock rfl rfl rfl trivial ?_ rfl rfl ?_ ?_ ?_ (ledger_swapOut h.outside h.ledger)
  · intro other
    have hslot := h.slots other
    rw [hcritical] at hslot
    simpa only [State.setTask, swapOut, update_apply, Task.critical] using hslot.swapOut
  · intro other hother
    simp only [State.setTask, swapOut, update_apply]
    rw [h.outside other hother, ite_self]
  · have hout : s.holds .owner = false := h.not_holds hlock nofun
    exact h.owner.swapOut hout slot
  · intro other hother
    simp only [State.setTask, swapOut, update_of_ne (show other ≠ slot by omega)]
    exact h.backed other hother

theorem free_succ (references : Nat → Nat) (bound : Nat) :
    free references (bound + 1) = free references bound + if references bound = 0 then
      1 else 0 := by
  simp [free, range_succ]

theorem Inv.taskStep (h : Inv size s) (id : Nat) : Inv size (s.taskStep id) := by
  have hok := h.tasks id
  cases htask : s.tasks id with
  | claim reserved slot => exact h.claimTask htask
  | retire slot stage =>
    cases stage with
    | mark => exact h.markTask htask
    | swap => exact h.swapTask htask
  | idle =>
    simp only [State.taskStep, htask]
    exact h
  | acquireLock reserved =>
    simp only [State.taskStep, htask]
    split
    · exact h.setTask htask rfl nofun (.inl rfl) trivial
    · rename_i hlock
      exact h.passTask htask (.inl ⟨hlock, rfl, rfl⟩) rfl rfl trivial
  | acquireCapacity reserved =>
    simp only [State.taskStep, htask]
    refine h.setTask htask rfl nofun (.inl rfl) ?_
    exact ⟨rfl, zero_le _, zero_le _⟩
  | count reserved capacity slot available =>
    rw [htask] at hok
    obtain ⟨rfl, havailable, hslot⟩ := hok
    simp only [State.taskStep, htask]
    split_ifs with hlt hzero hle
    · refine h.setTask htask rfl nofun (.inl rfl) ⟨rfl, ?_, hlt⟩
      rw [free_succ, if_pos hzero]
      omega
    · refine h.setTask htask rfl nofun (.inl rfl) ⟨rfl, ?_, hlt⟩
      rw [free_succ]
      omega
    · exact h.setTask htask rfl nofun (.inl rfl) trivial
    refine h.setTask htask rfl nofun (.inl rfl) ⟨rfl, ?_⟩
    have : slot = s.capacity := by omega
    subst this
    omega
  | find reserved capacity slot =>
    rw [htask] at hok
    obtain ⟨rfl, hfree⟩ := hok
    simp only [State.taskStep, htask]
    split_ifs with hlt hzero
    · refine h.setTask htask rfl nofun (.inr ⟨slot, rfl, hzero⟩) ?_
      exact ⟨hlt, hfree⟩
    · exact h.setTask htask rfl nofun (.inl rfl) ⟨rfl, hfree⟩
    · exact h.setTask htask rfl nofun (.inl rfl) trivial
  | acquireUnlock =>
    have hlock := (h.task_guards htask rfl).1
    simp only [State.taskStep, htask]
    exact h.passTask htask (.inr ⟨hlock, rfl, rfl⟩) rfl rfl trivial
  | releaseCapacity slot =>
    simp only [State.taskStep, htask]
    split_ifs <;>
      exact h.setTask htask rfl nofun (.inl rfl) trivial
  | releaseLock slot =>
    simp only [State.taskStep, htask]
    split
    · exact h.setTask htask rfl nofun (.inl rfl) trivial
    · rename_i hlock
      exact h.passTask htask (.inl ⟨hlock, rfl, rfl⟩) rfl rfl trivial
  | recheckCapacity slot =>
    simp only [State.taskStep, htask]
    split_ifs with hle
    · exact h.setTask htask rfl nofun (.inl rfl) hle
    · exact h.setTask htask rfl nofun (.inl rfl) trivial
  | recheckReferences slot =>
    rw [htask] at hok
    simp only [State.taskStep, htask]
    split_ifs with hzero
    · exact h.setTask htask rfl nofun (.inr ⟨slot, rfl, hzero⟩) hok
    · exact h.setTask htask rfl nofun (.inl rfl) trivial
  | releaseUnlock =>
    have hlock := (h.task_guards htask rfl).1
    simp only [State.taskStep, htask]
    exact h.passTask htask (.inr ⟨hlock, rfl, rfl⟩) rfl rfl trivial

theorem Inv.begin (h : Inv size s) (hidle : s.tasks id = .idle) {op : TaskOp}
    (hroom : op.Undisturbed s.leases) : Inv size (s.begin size id op) := by
  cases op with
  | acquireWriter headroom reserved =>
    simp only [State.begin]
    split_ifs
    · exact h
    · exact h.setTask hidle rfl nofun (.inl rfl) trivial
  | commit slot =>
    simp only [State.begin]
    split_ifs with hwriter
    · exact h
    obtain ⟨hleases, hone⟩ := (h.word_of_live (.inr hwriter)).2.of_writer hwriter
    refine h.handle 1 (.inr hwriter) (fun _ => .inr ?_) (fun other hne => update_of_ne hne ..)
      (fun other hne => update_of_ne hne ..)
    rw [update_self, update_self, hleases, hone]
    decide
  | dropWriter slot =>
    simp only [State.begin]
    split_ifs with hwriter
    · exact h
    obtain ⟨hleases, hone⟩ := (h.word_of_live (.inr hwriter)).2.of_writer hwriter
    have hdropped := h.handle 0 (.inr hwriter) (fun _ => .inr ?_) (fun _ _ => rfl)
      (fun other hne => update_of_ne hne (s.writers slot - 1) s.writers)
    · exact hdropped.setTask hidle rfl nofun (.inl rfl) trivial
    · rw [update_self, hleases, hone]
      decide
  | clone slot =>
    simp only [State.begin]
    split_ifs with hlease hassert
    · exact h
    · obtain ⟨hword, -, hwriters⟩ := (h.word_of_live (.inl hlease)).2.of_lease hlease
      refine h.handle _ (.inl hlease) (fun _ => .inr ?_) (fun other hne => update_of_ne hne ..)
        (fun _ _ => rfl)
      rw [update_self, hword]
      have hroom : s.leases slot < 254 := hroom
      exact ⟨mod_eq_of_lt (by omega), by unfold writerMark; omega, hwriters⟩
    obtain ⟨hword, -, -⟩ := (h.word_of_live (.inl hlease)).2.of_lease hlease
    have hroom : s.leases slot < 254 := hroom
    exact absurd ⟨by omega, by unfold writerMark; omega⟩ hassert
  | dropLease slot =>
    simp only [State.begin]
    split_ifs with hlease hlast
    · exact h
    · obtain ⟨hword, -, hwriters⟩ := (h.word_of_live (.inl hlease)).2.of_lease hlease
      have hdropped := h.handle ((s.references slot + 255) % 256) (.inl hlease) (fun _ => .inr ?_)
        (fun other hne => update_of_ne hne (s.leases slot - 1) s.leases) (fun _ _ => rfl)
      · exact hdropped.setTask hidle rfl nofun (.inl rfl) trivial
      · rw [update_self, ← hword, hlast]
        exact ⟨rfl, by decide, hwriters⟩
    obtain ⟨hword, hlt, hwriters⟩ := (h.word_of_live (.inl hlease)).2.of_lease hlease
    refine h.handle _ (.inl hlease) (fun _ => .inr ?_)
      (fun other hne => update_of_ne hne (s.leases slot - 1) s.leases) (fun _ _ => rfl)
    rw [update_self]
    unfold writerMark at hlt ⊢
    exact ⟨by omega, by omega, hwriters⟩

/-! ## The owner -/

section

variable (h : Inv size s) (hholds : s.owner.holds = false) (hpending : s.owner.pending = [])
include h hholds hpending

theorem Inv.enter
    (hholds' : owner.holds = false) (hpending' : owner.pending = [])
    (hok : OwnerOk size s.capacity s.buffers owner) :
    Inv size (s.setOwner owner) := by
  refine h.setOwner rfl (hholds'.trans hholds.symm) ?_ (.inl (Owner.critical_of_not_holds hholds'))
    (hpending'.trans hpending.symm) hok
  rw [Owner.critical_of_not_holds hholds]
  exact nofun

theorem Inv.resize (target : Nat) : Inv size (s.resize size target) := by
  unfold State.resize
  split_ifs with hmax hlt
  · exact h.enter hholds hpending rfl rfl rfl
  · exact h.enter hholds hpending rfl rfl ⟨rfl, hlt, Nat.le_of_not_lt hmax⟩
  · exact h.enter hholds hpending rfl rfl ⟨rfl, Nat.le_of_not_lt hlt⟩

theorem Inv.resizeNext (next admitted : Nat) : Inv size (s.resizeNext size next admitted) := by
  unfold State.resizeNext
  split_ifs
  · exact (h.setBudget none).enter hholds hpending rfl rfl trivial
  · exact (h.setBudget (some (next + 1, admitted))).resize hholds hpending next

theorem Inv.resizeWithBudget (target availableBytes reserveBytes : Nat) :
    Inv size (s.resizeWithBudget size target availableBytes reserveBytes) := by
  unfold State.resizeWithBudget
  split_ifs
  · exact h.enter hholds hpending rfl rfl rfl
  · exact h.resize hholds hpending target
  · exact h.resizeNext hholds hpending _ _

theorem Inv.maintainFree (inUse : Nat) (request : FreeRequest) :
    Inv size (s.maintainFree size inUse request) := by
  unfold State.maintainFree
  simp only
  split_ifs
  · exact h.resize hholds hpending _
  · exact h.enter hholds hpending rfl rfl trivial
  · exact h.resizeWithBudget hholds hpending _ _ _

end

theorem Inv.call (h : Inv size s) (hidle : s.owner = .idle) (c : Call) :
    Inv size (s.call size c) := by
  have hholds : s.owner.holds = false := by rw [hidle]; rfl
  have hpending : s.owner.pending = [] := by rw [hidle]; rfl
  cases c with
  | resize => exact h.resize hholds hpending ..
  | resizeWithBudget target availableBytes reserveBytes =>
    exact h.resizeWithBudget hholds hpending _ _ _
  | maintainFree request =>
    simp only [State.call]
    split_ifs
    · exact h.enter hholds hpending rfl rfl rfl
    · exact h.enter hholds hpending rfl rfl trivial

/-- A step of the owner off the guard, with what it did to the heap. -/
theorem Inv.offGuard (h : Inv size s)
    (hholds : s.owner.holds = false) (hholds' : owner.holds = false)
    (hok : OwnerOk size s.capacity s.buffers owner)
    (hledger : ((table size s.buffers ++ owner.pending) ++ freed).Perm (range nextBuffer)) :
    Inv size ({ s with freed := freed, nextBuffer := nextBuffer }.setOwner owner) := by
  have hlock : s.lock ≠ some .owner := by
    intro hlock
    have hheld : s.owner.holds = true := (h.guard .owner).mpr hlock
    rw [hholds] at hheld
    cases hheld
  refine h.calm rfl (fun agent => Iff.trans ?_ (h.guard agent))
    (.inl (critical_setOwner_of_ne hlock _)) hok h.tasks
    hledger
  cases agent with
  | owner => simp [State.holds, State.setOwner, hholds, hholds']
  | task other => rfl

variable {current : Nat} {pending : List PendingSlot}

theorem Listed.extend (h : Listed buffers current slot pending) :
    Listed buffers current (slot + 1) pending where
  nodup := h.nodup
  empty := by
    intro other hother
    obtain ⟨hlow, hlt, hnone⟩ := h.empty other hother
    exact ⟨hlow, by omega, hnone⟩

theorem Listed.allocate {buffer : Nat}
    (h : Listed buffers current slot pending) (hge : current ≤ slot) (hnone : buffers slot = none) :
    Listed buffers current (slot + 1) (pending ++ [(slot, buffer)]) where
  nodup := by
    rw [map_append, map_singleton]
    refine nodup_append.mpr ⟨h.nodup, nodup_singleton _, ?_⟩
    rintro other hother _ hlast rfl
    rw [mem_singleton] at hlast
    have := (h.empty other hother).2.1
    omega
  empty := by
    intro other hother
    rw [map_append, map_singleton, mem_append, mem_singleton] at hother
    rcases hother with hother | rfl
    · obtain ⟨hlow, hlt, hnone⟩ := h.empty other hother
      exact ⟨hlow, by omega, hnone⟩
    · exact ⟨hge, lt_succ_self _, hnone⟩

variable {target : Nat}

theorem Surveyed.publish {buffer : Nat}
    (h : Surveyed buffers current target ((slot, buffer) :: pending)) :
    Surveyed (update buffers slot (some buffer)) current target pending where
  nodup := (nodup_cons.mp h.nodup).2
  empty := by
    intro other hother
    obtain ⟨hlow, hlt, hnone⟩ := h.empty other (mem_cons_of_mem _ hother)
    refine ⟨hlow, hlt, ?_⟩
    rwa [update_of_ne]
    rintro rfl
    exact (nodup_cons.mp h.nodup).1 hother
  covered := by
    intro other hlt hlow
    by_cases heq : other = slot
    · subst heq
      rw [update_self]
      exact .inl rfl
    rw [update_of_ne heq]
    refine (h.covered other hlt hlow).imp_right fun hmem => ?_
    exact (mem_cons.mp hmem).resolve_left heq

section

variable (h : Inv size s)
include h

theorem Inv.allocateStep (howner : s.owner = .allocate current target slot pending)
    (allocated : Bool) :
    Inv size (s.ownerStep size allocated) := by
  have hok := h.owner
  rw [howner] at hok
  obtain ⟨hcapacity, hge, hlt, hmax, hnone, hlisted⟩ := hok
  have hledger := h.ledger
  rw [howner] at hledger
  simp only [ownerStep, howner]
  split_ifs
  · refine h.offGuard (by rw [howner]; rfl) rfl ?_ ?_
    · exact ⟨hcapacity, by omega, hlt, by omega, hmax, hlisted.allocate hge hnone⟩
    show ((table size s.buffers ++ (pending ++ [(slot, s.nextBuffer)]).map snd) ++
      s.freed).Perm _
    rw [map_append, map_singleton, range_succ, ← append_assoc (table size s.buffers),
      append_assoc _ [s.nextBuffer]]
    refine (perm_append_comm.append_left _).trans ?_
    rw [← append_assoc]
    exact hledger.append_right [s.nextBuffer]
  · exact h.setOwner howner rfl nofun (.inl rfl) rfl hcapacity

theorem Inv.abandonStep
    (howner : s.owner = .abandon current pending) (allocated : Bool) :
    Inv size (s.ownerStep size allocated) := by
  have hok := h.owner
  have hledger := h.ledger
  rw [howner] at hok hledger
  simp only [ownerStep, howner]
  cases pending with
  | nil => exact h.setOwner howner rfl nofun (.inl rfl) rfl hok
  | cons first rest =>
    refine h.offGuard (by rw [howner]; rfl) rfl hok ?_
    refine .trans ?_ hledger
    show ((table size s.buffers ++ rest.map snd) ++ (s.freed ++ [first.2])).Perm
      ((table size s.buffers ++ (first.2 :: rest.map snd)) ++ s.freed)
    rw [← append_assoc]
    refine perm_append_comm.trans ?_
    exact .append_right s.freed perm_middle.symm

theorem Inv.publishStep (howner : s.owner = .publish current target pending) (allocated : Bool) :
    Inv size (s.ownerStep size allocated) := by
  have hok := h.owner
  rw [howner] at hok
  obtain ⟨hcapacity, hlt, hmax, hsurveyed⟩ := hok
  simp only [ownerStep, howner]
  cases pending with
  | nil =>
    refine h.setOwner howner rfl nofun (.inl rfl) rfl ?_
    refine ⟨hcapacity, hmax, fun slot hlow hslot => ?_⟩
    exact (hsurveyed.covered slot hslot hlow).resolve_right (by simp)
  | cons first rest =>
    obtain ⟨slot, buffer⟩ := first
    have hnone : s.buffers slot = none := (hsurveyed.empty slot mem_cons_self).2.2
    simp only [hnone]
    exact h.setOwner howner rfl nofun (.inl rfl) rfl ⟨hcapacity, hlt, hmax, hsurveyed⟩

theorem Inv.publishBufferStep {buffer : Nat}
    (howner : s.owner = .publishBuffer current target slot buffer pending) (allocated : Bool) :
    Inv size (s.ownerStep size allocated) := by
  obtain ⟨hlock, hcritical : s.critical = .rest⟩ := h.owner_guards howner rfl
  have hok := h.owner
  rw [howner] at hok
  obtain ⟨hcapacity, hlt, hmax, hsurveyed⟩ := hok
  obtain ⟨hlow, hslot, hnone⟩ := hsurveyed.empty slot mem_cons_self
  have hledger := h.ledger
  rw [howner] at hledger
  simp only [ownerStep, howner]
  refine h.ofOwner hlock rfl rfl rfl ?_ h.capacity ?_ ?_ ?_ ?_
  · intro other
    have hother := h.slots other
    rw [hcritical] at hother
    simp only [State.setOwner, update_apply]
    by_cases heq : other = slot
    · subst heq
      have hword := hother.word nofun
      rw [hnone] at hword
      exact ⟨fun hne => absurd rfl hne, fun _ => hword, nofun⟩
    rw [if_neg heq]
    refine ⟨fun _ => hother.word nofun, ?_, nofun⟩
    rintro ⟨⟩
    exact absurd rfl heq
  · intro other hother
    simp only [State.setOwner, update_of_ne (show other ≠ slot by omega)]
    exact h.outside other hother
  · exact ⟨hcapacity, hlt, hmax, hlow, by simp [State.setOwner], hsurveyed.publish⟩
  · intro other hother
    simp only [State.setOwner, update_apply]
    split_ifs
    · rfl
    · exact h.backed other hother
  · refine .trans ?_ hledger
    have hput := table_put (show slot < size.maxSlots by omega) hnone buffer
    show ((table size (update s.buffers slot (some buffer)) ++ pending.map snd) ++
      s.freed).Perm
      ((table size s.buffers ++ (buffer :: pending.map snd)) ++ s.freed)
    exact ((hput.append_right _).trans perm_middle.symm).append_right s.freed

theorem Inv.publishReferenceStep (howner : s.owner = .publishReference current target slot pending)
    (allocated : Bool) :
    Inv size (s.ownerStep size allocated) := by
  obtain ⟨hlock, hcritical : s.critical = .marked slot⟩ := h.owner_guards howner rfl
  have hok := h.owner
  rw [howner] at hok
  obtain ⟨hcapacity, hlt, hmax, -, hsome, hsurveyed⟩ := hok
  have hledger := h.ledger
  rw [howner] at hledger
  simp only [State.ownerStep, howner]
  refine h.ofOwner hlock rfl rfl rfl ?_ h.capacity h.outside ⟨hcapacity, hlt, hmax, hsurveyed⟩
    h.backed hledger
  intro other
  have hother := h.slots other
  rw [hcritical] at hother
  simp only [State.setOwner, setReference, update_apply]
  refine ⟨fun _ => ?_, nofun, nofun⟩
  by_cases heq : other = slot
  · subst heq
    obtain ⟨buffer, hbuffer⟩ := isSome_iff_exists.mp hsome
    obtain ⟨-, hleases, hwriters⟩ := hother.marked rfl
    rw [if_pos rfl, hbuffer, hleases, hwriters]
    exact .inr ⟨rfl, by decide, rfl⟩
  rw [if_neg heq]
  apply hother.word
  rintro ⟨⟩
  exact heq rfl

theorem Inv.storeCapacityStep (howner : s.owner = .storeCapacity current target)
    (allocated : Bool) :
    Inv size (s.ownerStep size allocated) := by
  obtain ⟨hlock, hcritical : s.critical = .rest⟩ := h.owner_guards howner rfl
  have hok := h.owner
  rw [howner] at hok
  obtain ⟨hcapacity, hmax, hnew⟩ := hok
  have hledger := h.ledger
  rw [howner] at hledger
  simp only [State.ownerStep, howner]
  refine h.ofOwner hlock rfl rfl ?_ ?_ hmax h.outside ?_ ?_ ?_
  · simp only [State.setOwner]
    split_ifs <;> rfl
  · intro other
    have hother := h.slots other
    rw [hcritical] at hother
    split_ifs <;> exact hother
  · simp only [State.setOwner]
    split_ifs <;> exact ⟨rfl, le_refl _⟩
  · intro slot hslot
    rcases lt_or_ge slot current with hold | hold
    · exact h.backed slot (hcapacity ▸ hold)
    · exact hnew slot hold hslot
  · have : (if current < target then
        Owner.reclaim current target target else .sweep current target target).pending =
        [] := by split_ifs <;> rfl
    simp only [State.setOwner]
    rw [this]
    exact hledger

theorem Inv.retireStep {loop : RetireLoop} {stage : RetireStage}
    (howner : s.owner = .retire current target slot loop stage) (allocated : Bool) :
    Inv size (s.ownerStep size allocated) := by
  have hlock := (h.owner_guards howner rfl).1
  have hok := h.owner
  rw [howner] at hok
  obtain ⟨hcapacity, hlow⟩ := hok
  have hledger := h.ledger
  rw [howner] at hledger
  cases stage with
  | mark =>
    have hcritical : s.critical = .zero slot := (h.owner_guards howner rfl).2
    simp only [ownerStep, howner]
    refine h.ofOwner hlock rfl rfl rfl ?_ h.capacity h.outside ⟨hcapacity, hlow⟩ h.backed hledger
    intro other
    have hother := h.slots other
    rw [hcritical] at hother
    simpa only [State.setOwner, State.mark, setReference, update_apply,
      Owner.critical] using hother.mark
  | swap =>
    have hcritical : s.critical = .marked slot := (h.owner_guards howner rfl).2
    have hrest : (nextRetire current target slot loop).critical = .rest := by cases loop <;> rfl
    have hpending : (nextRetire current target slot loop).pending = [] := by cases loop <;> rfl
    simp only [ownerStep, howner]
    refine h.ofOwner hlock rfl rfl ?_ ?_ h.capacity ?_ ?_ ?_ ?_
    · cases loop <;> rfl
    · intro other
      have hother := h.slots other
      rw [hcritical] at hother
      simp only [State.setOwner, swapOut, update_apply, hrest]
      exact hother.swapOut
    · intro other hother
      simp only [State.setOwner, swapOut, update_apply]
      rw [h.outside other hother, ite_self]
    · cases loop <;> exact ⟨hcapacity, le_succ_of_le hlow⟩
    · intro other hother
      have hlt : other < s.capacity := hother
      simp only [State.setOwner, swapOut, update_of_ne (show other ≠ slot by omega)]
      exact h.backed other hlt
    · show ((table size (s.swapOut slot).buffers ++
        (nextRetire current target slot loop).pending) ++
        (s.swapOut slot).freed).Perm (.range s.nextBuffer)
      rw [hpending]
      exact ledger_swapOut h.outside hledger

theorem Inv.ownerStep (hundisturbed : s.owner.Undisturbed s.lock s.buffers) (allocated : Bool) :
    Inv size (s.ownerStep size allocated) := by
  have hok := h.owner
  cases howner : s.owner with
  | allocate => exact h.allocateStep howner allocated
  | abandon => exact h.abandonStep howner allocated
  | publish => exact h.publishStep howner allocated
  | publishBuffer => exact h.publishBufferStep howner allocated
  | publishReference => exact h.publishReferenceStep howner allocated
  | storeCapacity => exact h.storeCapacityStep howner allocated
  | retire => exact h.retireStep howner allocated
  | publishDrop =>
    rw [howner] at hok
    exact hok.elim
  | idle =>
    simp only [State.ownerStep, howner]
    exact h
  | countLeases slot count request =>
    simp only [State.ownerStep, howner]
    split_ifs <;> exact h.enter (by rw [howner]; rfl) (by rw [howner]; rfl) rfl rfl trivial
  | countWriters slot count request =>
    simp only [State.ownerStep, howner]
    split_ifs <;> exact h.enter (by rw [howner]; rfl) (by rw [howner]; rfl) rfl rfl trivial
  | countWriterBuffer slot count request =>
    simp only [State.ownerStep, howner]
    exact h.enter (by rw [howner]; rfl) (by rw [howner]; rfl) rfl rfl trivial
  | choose count request =>
    simp only [State.ownerStep, howner]
    exact h.maintainFree (by rw [howner]; rfl) (by rw [howner]; rfl) count request
  | reserve current target =>
    rw [howner] at hok
    simp only [State.ownerStep, howner]
    split_ifs
    · refine h.enter (by rw [howner]; rfl) (by rw [howner]; rfl) rfl rfl ?_
      exact ⟨hok.1, le_refl _, hok.2.1.le, hok.2.1, hok.2.2, nodup_nil, nofun⟩
    · exact h.enter (by rw [howner]; rfl) (by rw [howner]; rfl) rfl rfl hok.1
  | scan current target slot pending =>
    rw [howner] at hok
    obtain ⟨hcapacity, hge, hle, hlt, hmax, hlisted⟩ := hok
    simp only [State.ownerStep, howner]
    split_ifs with hslot hnone
    · exact h.setOwner howner rfl nofun (.inl rfl) rfl
        ⟨hcapacity, hge, hslot, hmax, isNone_iff_eq_none.mp hnone, hlisted⟩
    · exact h.setOwner howner rfl nofun (.inl rfl) rfl ⟨hcapacity, by omega, hslot, hlt, hmax,
        hlisted.extend⟩
    have : slot = target := by omega
    subst this
    exact h.setOwner howner rfl nofun (.inl rfl) rfl ⟨hcapacity, hlt, hmax, hlisted⟩
  | growLock current target pending =>
    rw [howner] at hok hundisturbed
    obtain ⟨hcapacity, hlt, hmax, hlisted⟩ := hok
    simp only [State.ownerStep, howner]
    split
    · exact h
    · rename_i hlock
      -- from here on nobody else touches the table, so what was listed and is still covered stays
      -- surveyed
      have hsurveyed : Surveyed s.buffers current target pending :=
        { hlisted with covered := hundisturbed hlock }
      exact h.passOwner howner (.inl ⟨hlock, rfl, rfl⟩) rfl rfl rfl ⟨hcapacity, hlt, hmax,
        hsurveyed⟩
  | shrinkLock current target =>
    rw [howner] at hok
    have hcapacity := h.capacity
    simp only [State.ownerStep, howner]
    split
    · exact h
    rename_i hlock
    refine h.passOwner howner (.inl ⟨hlock, rfl, rfl⟩) rfl rfl rfl ⟨hok.1, ?_, ?_⟩
    · exact hok.2.trans (hok.1 ▸ hcapacity)
    intro slot hlow hlt
    have := hok.2
    omega
  | sweep current target slot =>
    rw [howner] at hok
    simp only [State.ownerStep, howner]
    split_ifs with hslot hzero
    · exact h.setOwner howner rfl nofun (.inr ⟨slot, rfl, hzero⟩) rfl hok
    · exact h.setOwner howner rfl nofun (.inl rfl) rfl ⟨hok.1, le_succ_of_le hok.2⟩
    · exact h.setOwner howner rfl nofun (.inl rfl) rfl ⟨hok.1, le_refl _⟩
  | reclaim current target slot =>
    rw [howner] at hok
    simp only [State.ownerStep, howner]
    split_ifs with hslot hzero
    · exact h.setOwner howner rfl nofun (.inr ⟨slot, rfl, hzero⟩) rfl hok
    · exact h.setOwner howner rfl nofun (.inl rfl) rfl ⟨hok.1, le_succ_of_le hok.2⟩
    · exact h.setOwner howner rfl nofun (.inl rfl) rfl trivial
  | reclaimBuffer current target slot =>
    obtain ⟨hlock, hcritical : s.critical = .zero slot⟩ := h.owner_guards howner rfl
    rw [howner] at hok
    simp only [State.ownerStep, howner]
    split_ifs
    · exact h.setOwner howner rfl nofun (.inr ⟨slot, rfl, (h.slots slot).zero hcritical⟩) rfl hok
    · exact h.setOwner howner rfl nofun (.inl rfl) rfl ⟨hok.1, le_succ_of_le hok.2⟩
  | unlock current =>
    have hlock := (h.owner_guards howner rfl).1
    simp only [State.ownerStep, howner]
    exact h.passOwner howner (.inr ⟨hlock, rfl, rfl⟩) rfl rfl rfl trivial
  | returned current result =>
    simp only [State.ownerStep, howner]
    split
    · exact h.resizeNext (by rw [howner]; rfl) (by rw [howner]; rfl) _ _
    · exact (h.setBudget none).enter (by show s.owner.holds = _; rw [howner]; rfl)
        (by show s.owner.pending = _; rw [howner]; rfl) rfl rfl trivial

theorem step_inv {action : Action} (hundisturbed : Undisturbed s action) :
    Inv size (step size s action) := by
  cases action with
  | call c =>
    simp only [step]
    split
    · rename_i hidle
      exact h.call hidle c
    · exact h
  | owner allocated => exact h.ownerStep hundisturbed allocated
  | begin id op =>
    simp only [step]
    split
    · rename_i hidle
      exact h.begin hidle (hundisturbed hidle)
    · exact h
  | task id => exact h.taskStep id

end

end Preservation

end HeapPool

end QuicLite

import QuicLite.Pool.Sound
import QuicLite.Lib.FirstFit

/-!
# The completion queue

A node hands packets to its bearers; a bearer gives each back through a fixed queue of cells, from a
callback that must neither wait nor fail. The number of cells is read off the packet pool when the
node is constructed. Each packet in the queue or on its way to it holds a lease of its own slot, so
the queue suffices as long as the pool never has more slots than that. What the pool was before the
node is constructed matters only by the slots that are still in use then.

A submitted packet is named by its slot: the node submits a packet that it has just committed, or
one whose lease it has found to be the only one.

* `Bounded` — no slot past the first ones is in use, nor about to be taken; `Bounded.step` for every
  access of
  the pool's owner and its tasks.
* `NodeInv` — each packet in a cell, or looking for one, holds a lease, and the cells are taken
  first fit
  (`FirstFit.Spread`), so a packet never looks past the last of them.
* `completions_fit_of_run` — along every run from the construction of the node on.
-/

namespace QuicLite

open Function HeapPool

namespace Completions

open HeapPool (State PoolSize Action)

/-- A `CallbackSlot`: its state, with the packet whose completion is written, kept or read. -/
inductive Cell where
  | empty
  | writing (slot : Nat)
  | ready (slot : Nat)
  | reading (slot : Nat)
  deriving DecidableEq

def Cell.packet : Cell → Option Nat
  | .empty => none
  | .writing slot | .ready slot | .reading slot => some slot

/-- Where the packet of a slot is. -/
inductive Place where
  | outside
  | bearer
  | scanning (cell : Nat)
  | stored (cell : Nat)
  deriving DecidableEq

/-- Where `pop` stands. -/
inductive Pop where
  | idle
  | looking (start offset : Nat)
  | reading (cell : Nat)
  | advance (cell : Nat)

structure Node where
  pool : State
  capacity : Option Nat
  cells : Nat → Cell
  cursor : Nat
  pop : Pop
  place : Nat → Place
  panicked : Bool

/-- A pool without a node. -/
def start : Node where
  pool := new
  capacity := none
  cells := fun _ => .empty
  cursor := 0
  pop := .idle
  place := fun _ => .outside
  panicked := false

inductive NodeAction where
  | pool (action : Action)
  | construct
  | submit (slot : Nat)
  | withdraw (slot : Nat)
  | complete (slot : Nat)
  | push (slot : Nat)
  | pop
  deriving DecidableEq

namespace Node

def setPlace (s : Node) (slot : Nat) (place : Place) : Node :=
  { s with place := update s.place slot place }

def setCell (s : Node) (index : Nat) (cell : Cell) : Node :=
  { s with cells := update s.cells index cell }

/-- One access of `CallbackSlots::push` for the completion of a packet. Past the last cell the
assertion of `send_completed` fails. -/
def push (s : Node) (capacity slot : Nat) : Node :=
  match s.place slot with
  | .scanning cell =>
    if cell < capacity then
      if s.cells cell = .empty then (s.setCell cell (.writing slot)).setPlace slot (.stored cell)
      else s.setPlace slot (.scanning (cell + 1))
    else { s with panicked := true }
  | .stored cell => if s.cells cell = .writing slot then s.setCell cell (.ready slot) else s
  | _ => s

/-- One access of `CallbackSlots::pop`. The completion that was read is dropped with its lease by
the node. -/
def popStep (s : Node) (capacity : Nat) : Node :=
  match s.pop with
  | .idle => { s with pop := .looking s.cursor 0 }
  | .looking first offset =>
    if offset < capacity then
      match s.cells ((first + offset) % capacity) with
      | .ready slot =>
        { s.setCell ((first + offset) % capacity) (.reading slot) with
          pop := .reading ((first + offset) % capacity) }
      | _ => { s with pop := .looking first (offset + 1) }
    else { s with pop := .idle }
  | .reading cell =>
    match s.cells cell with
    | .reading slot => { (s.setCell cell .empty).setPlace slot .outside with pop := .advance cell }
    | _ => s
  | .advance cell => { s with cursor := (cell + 1) % capacity, pop := .idle }

/-- A lease that a bearer or the queue holds is not dropped by anybody else. -/
def mayStep (s : Node) : Action → Bool
  | .begin _ (.dropLease slot) => decide (s.place slot = .outside ∨ 1 < s.pool.leases slot)
  | _ => true

def step (size : PoolSize) (s : Node) : NodeAction → Node
  | .pool action => if s.mayStep action then { s with
      pool := HeapPool.step size s.pool action } else s
  | .construct =>
    match s.capacity with
    | none => { s with capacity := some (max s.pool.capacity 1) }
    | some _ => s
  | .submit slot =>
    if s.capacity.isSome ∧ s.pool.leases slot = 1 ∧ s.place slot = .outside then
      s.setPlace slot .bearer else s
  | .withdraw slot => if s.place slot = .bearer then s.setPlace slot .outside else s
  | .complete slot => if s.place slot = .bearer then s.setPlace slot (.scanning 0) else s
  | .push slot =>
    match s.capacity with
    | some capacity => s.push capacity slot
    | none => s
  | .pop =>
    match s.capacity with
    | some capacity => s.popStep capacity
    | none => s

end Node

/-! ## Slots in use -/

/-- A task that looks for a slot looks among the first `bound`. -/
def SearchWithin (bound : Nat) : Task → Prop
  | .count _ loaded _ _ | .find _ loaded _ => loaded ≤ bound
  | .claim _ slot => slot < bound
  | _ => True

/-- Every slot that is in use, or about to be, is one of the first `bound`. -/
structure Bounded (bound : Nat) (pool : State) : Prop where
  handles : ∀ slot, pool.leases slot ≠ 0 ∨ pool.writers slot ≠ 0 → slot < bound
  tasks : ∀ id, SearchWithin bound (pool.tasks id)

theorem new_bounded (bound : Nat) : Bounded bound new where
  handles := by simp [new]
  tasks := fun _ => trivial

section Slots

variable {size : PoolSize} {bound : Nat} {pool : State} {pool' : State}

theorem Bounded.of_same (h : Bounded bound pool) (htasks : pool'.tasks = pool.tasks)
    (hleases : pool'.leases = pool.leases) (hwriters : pool'.writers = pool.writers) :
    Bounded bound pool' where
  handles := by
    rw [hleases, hwriters]
    exact h.handles
  tasks := by
    rw [htasks]
    exact h.tasks

/-- Counters of other tasks stay, and handles appear only where the slot is one of the first. -/
theorem Bounded.of_task (h : Bounded bound pool) {id : Nat} {task : Task}
    (htasks : pool'.tasks = update pool.tasks id task) (htask : SearchWithin bound task)
    (hhandles : ∀ slot, pool'.leases slot ≠ 0 ∨ pool'.writers slot ≠ 0 → slot < bound) :
    Bounded bound pool' where
  handles := hhandles
  tasks := by
    intro other
    rw [htasks, update_apply]
    split
    · exact htask
    · exact h.tasks other

theorem ownerStep_handles (size : PoolSize) (pool : State) (allocated : Bool) :
    (pool.ownerStep size allocated).tasks = pool.tasks ∧ (pool.ownerStep size allocated).leases =
      pool.leases ∧
      (pool.ownerStep size allocated).writers = pool.writers := by
  cases howner : pool.owner with
  | idle => simp [State.ownerStep, howner]
  | choose count request =>
    simp only [State.ownerStep, howner]
    rw [(maintainFree_enters pool count request).rest]
    exact ⟨rfl, rfl, rfl⟩
  | returned current result =>
    simp only [State.ownerStep, howner]
    split
    · rw [(resizeNext_enters pool _ _).rest]
      exact ⟨rfl, rfl, rfl⟩
    · exact ⟨rfl, rfl, rfl⟩
  | retire current target slot loop stage =>
    cases stage <;> simp only [State.ownerStep, howner] <;> exact ⟨rfl, rfl, rfl⟩
  | _ =>
    simp only [State.ownerStep, howner]
    repeat' split
    all_goals exact ⟨rfl, rfl, rfl⟩

theorem Bounded.begin (h : Bounded bound pool) (id : Nat) (op : TaskOp) :
    Bounded bound (pool.begin size id op) := by
  -- a handle that is used stands for its slot, and nothing else gains one
  have hupdate : ∀ {slot other value : Nat} {handles : Nat → Nat}, slot < bound →
      (handles other ≠ 0 → other < bound) → update handles slot value other ≠ 0 →
        other < bound := by
    intro slot other value handles hslot hold hne
    rw [update_apply] at hne
    split at hne
    · rename_i heq
      exact heq ▸ hslot
    · exact hold hne
  cases op with
  | acquireWriter headroom reserved =>
    simp only [State.begin]
    split
    · exact h
    · exact h.of_task rfl trivial h.handles
  | commit slot =>
    simp only [State.begin]
    split
    · exact h
    rename_i hwriter
    have hslot := h.handles slot (.inr hwriter)
    refine ⟨fun other hother => ?_, h.tasks⟩
    rcases hother with hother | hother
    · exact hupdate hslot (fun hne => h.handles other (.inl hne)) hother
    · exact hupdate hslot (fun hne => h.handles other (.inr hne)) hother
  | dropWriter slot =>
    simp only [State.begin]
    split
    · exact h
    rename_i hwriter
    have hslot := h.handles slot (.inr hwriter)
    refine h.of_task rfl trivial fun other hother => ?_
    rcases hother with hother | hother
    · exact h.handles other (.inl hother)
    · exact hupdate hslot (fun hne => h.handles other (.inr hne)) hother
  | clone slot =>
    simp only [State.begin]
    split
    · exact h
    rename_i hlease
    have hslot := h.handles slot (.inl hlease)
    split
    · refine ⟨fun other hother => ?_, h.tasks⟩
      rcases hother with hother | hother
      · exact hupdate hslot (fun hne => h.handles other (.inl hne)) hother
      · exact h.handles other (.inr hother)
    · exact h.of_same rfl rfl rfl
  | dropLease slot =>
    simp only [State.begin]
    split
    · exact h
    rename_i hlease
    have hslot := h.handles slot (.inl hlease)
    have hhandles : ∀ other, update pool.leases slot (pool.leases slot - 1) other ≠ 0 ∨
        pool.writers other ≠ 0 → other < bound := by
      intro other hother
      rcases hother with hother | hother
      · exact hupdate hslot (fun hne => h.handles other (.inl hne)) hother
      · exact h.handles other (.inr hother)
    split
    · exact h.of_task rfl trivial hhandles
    · exact ⟨hhandles, h.tasks⟩

theorem Bounded.taskStep (h : Bounded bound pool) (hcapacity : pool.capacity ≤ bound) (id : Nat) :
    Bounded bound (pool.taskStep id) := by
  have hid := h.tasks id
  cases htask : pool.tasks id with
  | idle =>
    simp only [State.taskStep, htask]
    exact h
  | acquireCapacity reserved =>
    simp only [State.taskStep, htask]
    exact h.of_task rfl hcapacity h.handles
  | count reserved loaded slot available =>
    rw [htask] at hid
    simp only [State.taskStep, htask]
    split
    · exact h.of_task rfl hid h.handles
    split
    · exact h.of_task rfl trivial h.handles
    · exact h.of_task rfl hid h.handles
  | find reserved loaded slot =>
    rw [htask] at hid
    simp only [State.taskStep, htask]
    split
    · rename_i hlt
      split
      · exact h.of_task rfl (hlt.trans_le hid) h.handles
      · exact h.of_task rfl hid h.handles
    · exact h.of_task rfl trivial h.handles
  | claim reserved slot =>
    rw [htask] at hid
    simp only [State.taskStep, htask]
    refine h.of_task rfl trivial fun other hother => ?_
    rcases hother with hother | hother
    · exact h.handles other (.inl hother)
    by_cases heq : other = slot
    · exact heq ▸ hid
    · simp only [State.setTask, update_of_ne heq] at hother
      exact h.handles other (.inr hother)
  | retire slot stage =>
    cases stage <;> simp only [State.taskStep, htask] <;> exact h.of_task rfl trivial h.handles
  | _ =>
    simp only [State.taskStep, htask]
    repeat' split
    all_goals exact h.of_task rfl trivial h.handles

theorem Bounded.step (h : Bounded bound pool) (hcapacity : pool.capacity ≤ bound)
    (action : Action) :
    Bounded bound (step size pool action) := by
  cases action with
  | call c =>
    simp only [HeapPool.step]
    split
    · have henters : HeapPool.Enters pool (pool.call size c) := HeapPool.call_enters pool c
      rw [henters.rest]
      exact h.of_same rfl rfl rfl
    · exact h
  | owner allocated =>
    obtain ⟨htasks, hleases, hwriters⟩ := ownerStep_handles size pool allocated
    exact h.of_same htasks hleases hwriters
  | begin id op =>
    simp only [HeapPool.step]
    split
    · exact h.begin id op
    · exact h
  | task => exact h.taskStep hcapacity ..

end Slots

/-! ## The queue suffices -/

/-- The cell that a completion looks at, or has taken. -/
def Place.level : Place → Option Nat
  | .scanning cell | .stored cell => some cell
  | _ => none

def Node.level (s : Node) (slot : Nat) : Option Nat := (s.place slot).level

structure NodeInv (bound : Nat) (s : Node) : Prop where
  pool : s.capacity.isSome → Bounded bound s.pool
  capacity : ∀ capacity, s.capacity = some capacity → bound ≤ capacity
  submitted : ∀ slot, s.place slot ≠ .outside → s.capacity.isSome ∧ s.pool.leases slot ≠ 0
  cells : ∀ index slot, (s.cells index).packet = some slot → s.place slot = .stored index
  spread : FirstFit.Spread (Finset.range bound) s.level
  panicked : s.panicked = false

/-- From the construction of the node on, the pool has at most `bound` slots, as many as the queue
has room for; and when the node is constructed no other slot is in use. -/
def Within (bound : Nat) (s : Node) (action : NodeAction) : Prop :=
  (s.capacity.isSome → s.pool.capacity ≤ bound) ∧
    (action = .construct → s.capacity = none → bound ≤ max s.pool.capacity 1 ∧ Bounded bound s.pool)

theorem start_inv (bound : Nat) : NodeInv bound start where
  pool := nofun
  capacity := nofun
  submitted := fun _ h => absurd rfl h
  cells := nofun
  spread := .none_above _
  panicked := rfl

section Queue

variable {size : PoolSize} {bound : Nat} {s : Node} {slot : Nat}

theorem NodeInv.slot_lt (h : NodeInv bound s) (hplace : s.place slot ≠ .outside) : slot < bound :=
  (h.pool (h.submitted slot hplace).1).handles slot (.inl (h.submitted slot hplace).2)

theorem level_setPlace (s : Node) (slot : Nat) (place : Place) :
    (s.setPlace slot place).level = update s.level slot place.level := by
  funext other
  simp only [Node.level, Node.setPlace, update_apply]
  split_ifs <;> rfl

theorem NodeInv.move (h : NodeInv bound s) {place : Place}
    (hlease : s.capacity.isSome ∧ s.pool.leases slot ≠ 0)
    (hnot : ∀ cell, s.place slot ≠ .stored cell)
    (hspread : FirstFit.Spread (Finset.range bound) (s.setPlace slot place).level) :
    NodeInv bound (s.setPlace slot place) where
  pool := h.pool
  capacity := h.capacity
  submitted := by
    intro other hother
    by_cases heq : other = slot
    · exact heq ▸ hlease
    · simp only [Node.setPlace, update_of_ne heq] at hother
      exact h.submitted other hother
  cells := by
    intro index other hother
    have hstored := h.cells index other hother
    have hne : other ≠ slot := by
      rintro rfl
      exact hnot index hstored
    simpa only [Node.setPlace, update_of_ne hne] using hstored
  spread := hspread
  panicked := h.panicked

theorem Node.level_of_stored {index : Nat} (hplace : s.place slot = .stored index) :
    s.level slot = some index := by
  simp [Node.level, Place.level, hplace]

theorem NodeInv.push (h : NodeInv bound s) {capacity : Nat} (hcapacity : s.capacity = some capacity)
    (slot : Nat) :
    NodeInv bound (s.push capacity slot) := by
  cases hplace : s.place slot with
  | outside =>
    simp only [Node.push, hplace]
    exact h
  | bearer =>
    simp only [Node.push, hplace]
    exact h
  | scanning cell =>
    have hin : s.place slot ≠ .outside := by rw [hplace]; exact nofun
    have hlevel : s.level slot = some cell := by simp [Node.level, Place.level, hplace]
    have hmem : slot ∈ Finset.range bound := Finset.mem_range.mpr (h.slot_lt hin)
    have hroom : cell < capacity := by
      have hlt := h.spread.lt_card hmem hlevel
      rw [Finset.card_range] at hlt
      exact hlt.trans_le (h.capacity capacity hcapacity)
    simp only [Node.push, hplace]
    split_ifs with hempty
    · refine ⟨h.pool, h.capacity, ?_, ?_, ?_, h.panicked⟩
      · intro other hother
        by_cases heq : other = slot
        · exact heq ▸ h.submitted slot hin
        · simp only [Node.setPlace, update_of_ne heq] at hother
          exact h.submitted other hother
      · intro index other hother
        simp only [Node.setPlace, Node.setCell, update_apply] at hother ⊢
        by_cases hindex : index = cell
        · rw [if_pos hindex] at hother
          cases hother
          rw [if_pos rfl, hindex]
        rw [if_neg hindex] at hother
        have hstored := h.cells index other hother
        have hne : other ≠ slot := by
          rintro rfl
          rw [hplace] at hstored
          cases hstored
        rwa [if_neg hne]
      · have hsame : ((s.setCell cell (.writing slot)).setPlace slot (.stored cell)).level =
            s.level := by
          rw [level_setPlace]
          exact update_eq_self_iff.mpr hlevel.symm
        rw [hsame]
        exact h.spread
    · refine h.move (h.submitted slot hin) (by rw [hplace]; exact nofun) ?_
      rw [level_setPlace]
      obtain ⟨holder, hholder⟩ : ∃ holder, (s.cells cell).packet = some holder := by
        cases hcell : s.cells cell with
        | empty => exact absurd hcell hempty
        | writing holder | ready holder | reading holder => exact ⟨holder, rfl⟩
      have hstored := h.cells cell holder hholder
      have hne : holder ≠ slot := by
        rintro rfl
        rw [hplace] at hstored
        cases hstored
      have hholderMem : holder ∈ Finset.range bound :=
        Finset.mem_range.mpr (h.slot_lt (by rw [hstored]; exact nofun))
      exact h.spread.advance hne hmem hholderMem hlevel (Node.level_of_stored hstored)
  | stored cell =>
    simp only [Node.push, hplace]
    split_ifs with hwriting
    · refine ⟨h.pool, h.capacity, h.submitted, fun index other hother => ?_, h.spread, h.panicked⟩
      simp only [Node.setCell, update_apply] at hother
      split_ifs at hother with hindex
      · cases hother
        rw [hindex]
        exact hplace
      · exact h.cells index other hother
    · exact h

theorem NodeInv.popStep (h : NodeInv bound s) (capacity : Nat) :
    NodeInv bound (s.popStep capacity) := by
  cases hpop : s.pop with
  | idle =>
    simp only [Node.popStep, hpop]
    exact ⟨h.pool, h.capacity, h.submitted, h.cells, h.spread, h.panicked⟩
  | looking first offset =>
    simp only [Node.popStep, hpop]
    split_ifs
    · split
      · rename_i slot hready
        refine ⟨h.pool, h.capacity, h.submitted, fun index other hother => ?_, h.spread, h.panicked⟩
        simp only [Node.setCell, update_apply] at hother
        split_ifs at hother with hindex
        · cases hother
          rw [hindex]
          exact h.cells _ slot (by rw [hready]; rfl)
        · exact h.cells index other hother
      · exact ⟨h.pool, h.capacity, h.submitted, h.cells, h.spread, h.panicked⟩
    · exact ⟨h.pool, h.capacity, h.submitted, h.cells, h.spread, h.panicked⟩
  | reading cell =>
    simp only [Node.popStep, hpop]
    split
    · rename_i slot hreading
      have hstored : s.place slot = .stored cell := h.cells cell slot (by rw [hreading]; rfl)
      refine ⟨h.pool, h.capacity, ?_, ?_, ?_, h.panicked⟩
      · intro other hother
        simp only [Node.setPlace, update_apply] at hother
        split_ifs at hother with heq
        · exact absurd rfl hother
        · exact h.submitted other hother
      · intro index other hother
        simp only [Node.setPlace, Node.setCell, update_apply] at hother ⊢
        split_ifs at hother with hindex
        · cases hother
        have hother := h.cells index other hother
        have hne : other ≠ slot := by
          rintro rfl
          rw [hstored] at hother
          exact hindex (Place.stored.inj hother).symm
        rwa [if_neg hne]
      · have hlevel : ((s.setCell cell .empty).setPlace slot .outside).level =
            update s.level slot none := level_setPlace _ slot _
        show FirstFit.Spread _ ((s.setCell cell .empty).setPlace slot .outside).level
        rw [hlevel]
        exact h.spread.giveUp slot
    · exact h
  | advance cell =>
    simp only [Node.popStep, hpop]
    exact ⟨h.pool, h.capacity, h.submitted, h.cells, h.spread, h.panicked⟩

/-- Leases that the bearers or the queue hold stay alive. -/
theorem step_keeps_submitted (h : ∀ slot, s.place slot ≠ .outside → s.pool.leases slot ≠ 0)
    {action : Action} (hmay : s.mayStep action = true) (slot : Nat)
    (hplace : s.place slot ≠ .outside) :
    (step size s.pool action).leases slot ≠ 0 := by
  have hlease := h slot hplace
  cases action with
  | call c =>
    simp only [step]
    split
    · have henters : Enters s.pool (s.pool.call size c) := call_enters s.pool c
      rw [henters.rest]
      exact hlease
    · exact hlease
  | owner allocated =>
    rw [step, (ownerStep_handles size s.pool allocated).2.1]
    exact hlease
  | task id =>
    have hsame : (step size s.pool (.task id)).leases = s.pool.leases := by
      simp only [step]
      cases htask : s.pool.tasks id with
      | retire slot stage => cases stage <;> simp only [State.taskStep, htask] <;> rfl
      | _ =>
        simp only [State.taskStep]
        repeat' split
        all_goals rfl
    rw [hsame]
    exact hlease
  | begin id op =>
    simp only [step]
    split
    · cases op with
      | acquireWriter headroom reserved =>
        simp only [State.begin]
        split <;> exact hlease
      | commit other =>
        simp only [State.begin]
        split
        · exact hlease
        · simp only [update_apply]
          split <;> omega
      | dropWriter other =>
        simp only [State.begin]
        split <;> exact hlease
      | clone other =>
        simp only [State.begin]
        split
        · exact hlease
        split
        · simp only [update_apply]
          split <;> omega
        · exact hlease
      | dropLease other =>
        have hshared : s.place other = .outside ∨ 1 < s.pool.leases other := of_decide_eq_true hmay
        have hleft : update s.pool.leases other (s.pool.leases other - 1) slot ≠ 0 := by
          rw [update_apply]
          split
          · rename_i heq
            subst heq
            have := hshared.resolve_left hplace
            omega
          · exact hlease
        simp only [State.begin]
        split
        · exact hlease
        · split <;> exact hleft
    · exact hlease

theorem NodeInv.step (h : NodeInv bound s) {action : NodeAction} (hwithin : Within bound s action) :
    NodeInv bound (s.step size action) := by
  cases action with
  | pool action =>
    simp only [Node.step]
    split_ifs with hmay
    · refine ⟨fun hsome => (h.pool hsome).step (hwithin.1 hsome) action, h.capacity,
        fun slot hplace => ?_, h.cells, h.spread, h.panicked⟩
      exact ⟨(h.submitted slot hplace).1,
        step_keeps_submitted (fun slot hplace => (h.submitted slot hplace).2) hmay slot hplace⟩
    · exact h
  | construct =>
    simp only [Node.step]
    split
    · rename_i hnone
      obtain ⟨hroom, hbounded⟩ := hwithin.2 rfl hnone
      refine ⟨fun _ => hbounded, fun capacity hcapacity => ?_, fun slot hplace =>
        ?_, h.cells, h.spread, h.panicked⟩
      · cases hcapacity
        exact hroom
      · exact ⟨rfl, (h.submitted slot hplace).2⟩
    · exact h
  | submit slot =>
    simp only [Node.step]
    split_ifs with hsubmit
    · obtain ⟨hsome, hlease, hplace⟩ := hsubmit
      refine h.move ⟨hsome, by omega⟩ (by rw [hplace]; exact nofun) ?_
      rw [level_setPlace]
      exact h.spread.giveUp slot
    · exact h
  | withdraw slot =>
    simp only [Node.step]
    split_ifs with hplace
    · refine h.move (h.submitted slot (by rw [hplace]; exact nofun))
        (by rw [hplace]; exact nofun) ?_
      rw [level_setPlace]
      exact h.spread.giveUp slot
    · exact h
  | complete slot =>
    simp only [Node.step]
    split_ifs with hplace
    · refine h.move (h.submitted slot (by rw [hplace]; exact nofun))
        (by rw [hplace]; exact nofun) ?_
      rw [level_setPlace]
      exact h.spread.start slot
    · exact h
  | push slot =>
    simp only [Node.step]
    split
    · rename_i capacity hcapacity
      exact h.push hcapacity slot
    · exact h
  | pop =>
    simp only [Node.step]
    split
    · exact h.popStep _
    · exact h

end Queue

/-- While the pool has no more slots than were counted for the queue, and none is left over from a
larger pool, no completion finds the queue full: each one holds a live lease, no two of the same
slot. -/
theorem completions_fit_of_run (size : PoolSize) (bound : Nat) (actions : List NodeAction)
    (hrun : Runs.Along (Node.step size) (Within bound) start actions) :
    (Runs.exec (Node.step size) start actions).panicked = false ∧
      ∀ index slot, ((Runs.exec (Node.step size) start actions).cells index).packet = some slot →
        (Runs.exec (Node.step size) start actions).pool.leases slot ≠ 0 ∧
          ∀ other, ((Runs.exec (Node.step size) start actions).cells other).packet = some slot →
            other = index := by
  have hinv : NodeInv bound (Runs.exec (.step size) start actions) :=
    Runs.Along.invariant (P := NodeInv bound) (fun _ _ h hwithin => h.step hwithin)
      (start_inv bound) hrun
  refine ⟨hinv.panicked, fun index slot hslot => ?_⟩
  have hplace := hinv.cells index slot hslot
  refine ⟨(hinv.submitted slot (by rw [hplace]; exact nofun)).2, fun other hother => ?_⟩
  have := hinv.cells other slot hother
  rw [hplace] at this
  exact (Place.stored.inj this).symm

/-! ## A pool that outgrows the queue -/

/-- A pool that can have two slots. -/
def twoSlots : PoolSize := ⟨2, 64, by decide⟩

def poolSteps (count : Nat) (action : Action) : List NodeAction :=
  List.replicate count (.pool action)

/-- The pool is given two slots and then one. -/
def resized : List NodeAction :=
  .pool (.call (.resize 2)) :: poolSteps 18 (.owner true) ++ .pool (.call (.resize 1)) ::
    poolSteps 14 (.owner true)

/-- One slot, and a node with a queue of one cell. -/
def constructed : List NodeAction := resized ++ [.construct]

/-- A packet in the next free slot, submitted and completed. -/
def sendOne (slot : Nat) : List NodeAction :=
  .pool (.begin 0 (.acquireWriter 0 0)) :: poolSteps 12 (.task 0) ++
    [.pool (.begin 0 (.commit slot)), .submit slot, .complete slot, .push slot, .push slot]

/-- The owner calls the pool, or takes a step of its own call. -/
def IsOwners (action : NodeAction) : Prop :=
  (∃ c, action = .pool (.call c)) ∨ ∃ allocated, action = .pool (.owner allocated)

/-- As long as only the owner works on the pool, no slot is in use. -/
theorem owner_bounded {actions : List NodeAction} (h : ∀ action ∈ actions, IsOwners action)
    (bound : Nat) :
    Bounded bound (Runs.exec (Node.step twoSlots) start actions).pool := by
  let Unused (s : Node) : Prop :=
    s.pool.tasks = HeapPool.new.tasks ∧ s.pool.leases = HeapPool.new.leases ∧
    s.pool.writers = HeapPool.new.writers
  have hunused : Unused (Runs.exec (Node.step twoSlots) start actions) := by
    have hrun : Runs.Along (Node.step twoSlots) (fun _ action => IsOwners action) start actions :=
      .of_forall fun action haction _ => h action haction
    refine Runs.Along.invariant (P := Unused) ?_ ⟨rfl, rfl, rfl⟩ hrun
    rintro s action ⟨htasks, hleases, hwriters⟩ (⟨c, rfl⟩ | ⟨allocated, rfl⟩)
    · have hcall : (HeapPool.step twoSlots s.pool (.call c)).tasks = s.pool.tasks ∧
          (HeapPool.step twoSlots s.pool (.call c)).leases = s.pool.leases ∧
          (HeapPool.step twoSlots s.pool (.call c)).writers = s.pool.writers := by
        simp only [HeapPool.step]
        split
        · rw [(HeapPool.call_enters s.pool c).rest]
          exact ⟨rfl, rfl, rfl⟩
        · exact ⟨rfl, rfl, rfl⟩
      exact ⟨hcall.1.trans htasks, hcall.2.1.trans hleases, hcall.2.2.trans hwriters⟩
    · obtain ⟨htasks', hleases', hwriters'⟩ := ownerStep_handles twoSlots s.pool allocated
      exact ⟨htasks'.trans htasks, hleases'.trans hleases, hwriters'.trans hwriters⟩
  obtain ⟨htasks, hleases, hwriters⟩ := hunused
  exact (new_bounded bound).of_same htasks hleases hwriters

theorem one_packet_fits : Runs.Along (Node.step twoSlots)
    (Within 1) start (constructed ++ sendOne 0) ∧
    (Runs.exec (Node.step twoSlots) start (constructed ++ sendOne 0)).panicked = false := by
  have hrun : Runs.Along (Node.step twoSlots) (Within 1) start (constructed ++ sendOne 0) := by
    have hlater : ∀ {s : Node} {actions : List NodeAction},
        Runs.Along (Node.step twoSlots) (fun s action => (s.capacity.isSome → s.pool.capacity ≤ 1) ∧
          action ≠ .construct) s actions → Runs.Along (Node.step twoSlots) (Within 1) s actions :=
      Runs.Along.mono fun _ _ h => ⟨h.1, fun hconstruct => absurd hconstruct h.2⟩
    refine Runs.Along.append.mpr
      ⟨Runs.Along.append.mpr ⟨hlater (by decide +kernel), ⟨by decide +kernel, ?_⟩, trivial⟩,
      hlater (by decide +kernel)⟩
    intro _ _
    exact ⟨by decide +kernel, owner_bounded (by simp [IsOwners, resized, poolSteps]) 1⟩
  exact ⟨hrun, (completions_fit_of_run twoSlots 1 (constructed ++ sendOne 0) hrun).1⟩

/-- The pool grows to two slots, both packets are completed before the node looks: the second finds
the queue full. -/
theorem grown_pool_overflows :
    ¬∀ actions, (Runs.exec (Node.step twoSlots) start actions).panicked = false := by
  intro h
  have := h (constructed ++ .pool (.call (.resize 2)) :: poolSteps 14 (.owner true) ++ sendOne 0 ++
    sendOne 1)
  revert this
  decide +kernel

end Completions

end QuicLite

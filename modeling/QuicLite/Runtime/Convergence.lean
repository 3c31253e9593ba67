import QuicLite.Runtime.Main
import QuicLite.Profile.Store
import QuicLite.Lib.Runs

/-!
# The store and the runtime together

Every commit of the store is submitted to the runtime in order, while completions of any generation
arrive. The runtime accepts a generation that is greater than the last one, and the store's
generations wrap around.
-/

namespace QuicLite.Runtime

open Profile List MainRuntimeState

/-! ## The composition -/

/-- A committed change on its way to the runtime. -/
structure Submission where
  mode : RequestedMode
  sleepy : Bool
  generation : UInt32
  requestId : Nat

inductive SystemOp (P : Type) where
  /-- A call of the store, and the policy that is submitted if it commits. -/
  | commit (operation : P → P × Unit × Bool) (mode : RequestedMode) (sleepy : Bool)
      (requestId : Nat)
  | submit
  | complete (event : MainEvent)

structure System (P : Type) where
  store : ProfileStore P
  /-- Commits that are not submitted yet, oldest first. -/
  pending : List Submission
  main : MainRuntimeState
  /-- What has been submitted, newest first. -/
  submitted : List UInt32
  /-- The generations of which a `radioApplied` arrived while they were the newest one, latest
  first. -/
  applied : List UInt32
  /-- What the runtime asked for at each submission. -/
  answers : List (Submission × MainEffect)

namespace System

variable {P : Type} [DecidableEq P]

def boot (store : ProfileStore P) (mode : RequestedMode) (sleepy : Bool) : System P where
  store
  pending := []
  main := (default.reduce (.bootProfile mode sleepy store.generation)).1
  submitted := [store.generation]
  applied := []
  answers := []

def step (self : System P) : SystemOp P → System P
  | .commit operation mode sleepy requestId =>
    let (store, _, generation, committed) := self.store.editWithInvalidation operation
    { self with
      store
      pending := if committed then
        self.pending ++ [⟨mode, sleepy, generation, requestId⟩] else self.pending }
  | .submit =>
    match self.pending with
    | [] => self
    | submission :: pending =>
      let (main, effect) := self.main.reduce
        (.profileRequested submission.mode submission.sleepy submission.generation
          submission.requestId)
      { self with
        pending
        main
        submitted := submission.generation :: self.submitted
        answers := self.answers ++ [(submission, effect)] }
  | .complete event =>
    if event.completes.isSome then
      { self with
        main := (self.main.reduce event).1
        applied :=
          if event.appliedRadio = self.submitted.head? then
            self.submitted.head?.toList ++ self.applied else self.applied }
    else self

end System

/-! ## The specification -/

/-- The runtime follows the newest submission. -/
structure Converges {P : Type} (s : System P) : Prop where
  accepted : ∀ answer ∈ s.answers, answer.2 = .applyRadio answer.1.mode answer.1.generation
  /-- A completion of another generation only counts. -/
  stale : ∀ event generation, event.completes = some generation →
    s.submitted.head? ≠ some generation →
    ∃ reason, s.main.reduce event = (s.main.recordStale reason, .none)
  applied : s.main.appliedGeneration = s.applied.headD 0
  named : ∀ generation ∈ s.applied, generation ∈ s.submitted

/-- No commit at the last generation before the wrap. -/
def Unwrapped {P : Type} [DecidableEq P] (s : System P) : SystemOp P → Prop
  | .commit operation _ _ _ => s.store.changes operation = true → s.store.generation ≠ 0xffffffff
  | _ => True

/-! ## The invariant -/

/-- The generations on their way are increasing, from the runtime's up to the store's. -/
structure SystemInv {P : Type} (s : System P) : Prop extends Converges s where
  newest : s.submitted.head? = some s.main.desiredGeneration
  increasing : (s.main.desiredGeneration :: s.pending.map (·.generation)).Pairwise (· < ·)
  committed : ∀ generation ∈ s.main.desiredGeneration :: s.pending.map (·.generation),
    generation ≤ s.store.generation

namespace SystemInv

variable {P : Type}

/-- The runtime that desires the newest generation tells completions apart. -/
theorem stale_of_newest {s : System P} (hnewest : s.submitted.head? = some s.main.desiredGeneration)
    (event : MainEvent) (generation : UInt32) (hevent : event.completes = some generation)
    (hold : s.submitted.head? ≠ some generation) :
    ∃ reason, s.main.reduce event = (s.main.recordStale reason, .none) :=
  reduce_stale hevent fun heq => hold (heq ▸ hnewest)

theorem boot (store : ProfileStore P) (mode : RequestedMode) (sleepy : Bool) :
    SystemInv (.boot store mode sleepy) where
  accepted := fun answer h => by cases h
  stale := stale_of_newest rfl
  applied := rfl
  named := fun generation h => by cases h
  newest := rfl
  increasing := pairwise_singleton _ _
  committed := fun generation h => mem_singleton.mp h ▸ UInt32.le_refl _

variable {P : Type} [DecidableEq P] {s : System P}

theorem commit (h : SystemInv s) (operation : P → P × Unit × Bool) (mode : RequestedMode)
    (sleepy : Bool) (requestId : Nat)
    (hunwrapped : Unwrapped s (.commit operation mode sleepy requestId)) :
    SystemInv (s.step (.commit operation mode sleepy requestId)) := by
  by_cases hchanges : s.store.changes operation = true
  · have hlt := lt_nextGeneration (hunwrapped hchanges)
    rw [System.step, ProfileStore.edit_of_changes hchanges]
    refine ⟨⟨h.accepted, stale_of_newest h.newest, h.applied, h.named⟩, h.newest, ?_, ?_⟩
    · dsimp only
      rw [if_pos rfl, map_append, ← cons_append, pairwise_append]
      refine ⟨h.increasing, pairwise_singleton _ _, fun earlier hearlier later hlater => ?_⟩
      rw [map_singleton, mem_singleton] at hlater
      exact hlater ▸ UInt32.lt_of_le_of_lt (h.committed earlier hearlier) hlt
    intro generation hmem
    dsimp only at hmem
    rw [if_pos rfl, map_append, ← cons_append, mem_append] at hmem
    rcases hmem with hold | hnew
    · exact UInt32.le_of_lt (UInt32.lt_of_le_of_lt (h.committed generation hold) hlt)
    · exact mem_singleton.mp hnew ▸ UInt32.le_refl _
  · rw [System.step, ProfileStore.edit_of_not_changes hchanges]
    exact ⟨⟨h.accepted, stale_of_newest h.newest, h.applied, h.named⟩, h.newest, h.increasing,
      h.committed⟩

theorem submit (h : SystemInv s) : SystemInv (s.step .submit) := by
  obtain ⟨store, pending, main, submitted, applied, answers⟩ := s
  cases pending with
  | nil => exact h
  | cons submission pending =>
  have hgreater : main.desiredGeneration < submission.generation :=
    (pairwise_cons.mp h.increasing).1 _ mem_cons_self
  have hreduce := reduce_accepted hgreater submission.mode submission.sleepy
    submission.requestId
  simp only [System.step, hreduce]
  refine ⟨⟨fun answer hanswer => ?_, stale_of_newest rfl, h.applied, fun generation hmem => ?_⟩,
    rfl, (pairwise_cons.mp h.increasing).2, fun generation hmem => ?_⟩
  · rcases mem_append.mp hanswer with hold | hlast
    · exact h.accepted answer hold
    · rw [mem_singleton.mp hlast]
  · exact mem_cons_of_mem _ (h.named generation hmem)
  · exact h.committed generation (mem_cons_of_mem _ hmem)

/-- The radio of the newest generation is the one that is applied. -/
theorem complete (h : SystemInv s) (event : MainEvent) : SystemInv (s.step (.complete event)) := by
  cases hevent : event.completes with
  | none =>
    rw [System.step, hevent]
    exact h
  | some generation =>
  have hdesired := reduce_desiredGeneration (s := s.main) hevent
  obtain ⟨hnow, hkept⟩ := reduce_appliedGeneration (s := s.main) hevent
  have hnewest : s.submitted.head? = some (s.main.reduce event).1.desiredGeneration :=
    hdesired ▸ h.newest
  rw [System.step, hevent, Option.isSome_some, if_pos rfl]
  refine ⟨⟨h.accepted, stale_of_newest hnewest, ?_, ?_⟩, hnewest, hdesired ▸ h.increasing,
    hdesired ▸ h.committed⟩
  · dsimp only
    rw [h.newest]
    split_ifs with happlied
    · exact hnow happlied
    · exact (hkept happlied).trans h.applied
  intro found hfound
  rw [h.newest] at hfound
  split_ifs at hfound with happlied
  · rcases mem_append.mp hfound with hnew | hold
    · rw [mem_singleton.mp (show found ∈ [s.main.desiredGeneration] from hnew)]
      exact mem_of_mem_head? h.newest
    · exact h.named found hold
  · exact h.named found hfound

theorem step (h : SystemInv s) (op : SystemOp P) (hunwrapped : Unwrapped s op) :
    SystemInv (s.step op) := by
  cases op with
  | commit operation mode sleepy requestId =>
    exact h.commit operation mode sleepy requestId hunwrapped
  | submit => exact h.submit
  | complete => exact h.complete ..

end SystemInv

/-! ## The result -/

/-- The runtime follows the newest submission in every run without a commit at the wrap. -/
theorem converges_unless_wrapped {P : Type} [DecidableEq P] (store : ProfileStore P)
    (mode : RequestedMode) (sleepy : Bool) (ops : List (SystemOp P))
    (hrun : Runs.Along System.step Unwrapped (.boot store mode sleepy) ops) :
    Converges (Runs.exec System.step (.boot store mode sleepy) ops) := by
  have hinv : SystemInv (Runs.exec System.step (.boot store mode sleepy) ops) :=
    Runs.Along.invariant (fun _ op h hunwrapped => h.step op hunwrapped)
      (.boot store mode sleepy) hrun
  exact hinv.toConverges

/-- A commit that always changes the profile. -/
def toggle : SystemOp Bool := .commit (fun profile => (!profile, (), false)) .sta false 0

theorem toggle_changes (store : ProfileStore Bool) :
    store.changes (fun profile => (!profile, (), false)) = true := by
  obtain ⟨profile, generation⟩ := store
  cases profile with
  | false => rfl
  | true => rfl

/-- A change is submitted and its radio applied. -/
def started : List (SystemOp Bool) :=
  [toggle, .submit, .complete (.radioApplied 1 .sta), .complete (.radioFailed 0 7)]

theorem started_converges :
    Converges (Runs.exec System.step (.boot (.new false) .nanNow false) started) ∧
      (Runs.exec System.step (.boot (.new false) .nanNow false) started).main.appliedGeneration =
        1 := by
  refine ⟨converges_unless_wrapped (.new false) .nanNow false started ?_, rfl⟩
  exact ⟨fun _ => by decide, trivial, trivial, trivial, trivial⟩

/-- The profile is changed again and again, each change submitted at once. -/
def rounds : Nat → List (SystemOp Bool)
  | 0 => []
  | count + 1 => rounds count ++ [toggle, .submit]

def changed (count : Nat) : System Bool :=
  Runs.exec System.step (.boot (.new false) .nanNow false) (rounds count)

theorem changed_succ (count : Nat) :
    changed (count + 1) = ((changed count).step toggle).step .submit :=
  Runs.exec_append _ _ _ _

/-- The counter has counted the changes, and the runtime has seen them all. -/
structure Counted (count : Nat) (s : System Bool) : Prop where
  generation : s.store.generation.toNat = count
  pending : s.pending = []
  desired : s.main.desiredGeneration = s.store.generation

/-- A change and its submission, when none is pending. -/
theorem step_toggle {s : System Bool} (hpending : s.pending = []) :
    (s.step toggle).step .submit = { s with
        store := ⟨!s.store.profile, nextGeneration s.store.generation⟩
        pending := []
        main := (s.main.reduce (.profileRequested .sta false
          (nextGeneration s.store.generation) 0)).1
        submitted := nextGeneration s.store.generation :: s.submitted
        answers := s.answers ++ [(⟨.sta, false, nextGeneration s.store.generation, 0⟩,
          (s.main.reduce (.profileRequested .sta false (nextGeneration s.store.generation) 0)).2)]
            } := by
  simp [toggle, System.step, ProfileStore.edit_of_changes (toggle_changes s.store), hpending,
    nil_append]

theorem changed_counted {count : Nat} (hcount : count < 4294967296) :
    Counted count (changed count) := by
  induction count with
  | zero => exact ⟨rfl, rfl, rfl⟩
  | succ count ih =>
    have h := ih (by omega)
    have hne : (changed count).store.generation ≠ 0xffffffff := fun heq => by
      have hgeneration := h.generation
      rw [heq, show (0xffffffff : UInt32).toNat = 4294967295 from rfl] at hgeneration
      omega
    have hlt : (changed count).main.desiredGeneration <
        nextGeneration (changed count).store.generation := by
      rw [h.desired]
      exact lt_nextGeneration hne
    rw [changed_succ, step_toggle h.pending]
    refine ⟨?_, rfl, ?_⟩
    · exact (toNat_nextGeneration hne).trans (by rw [h.generation])
    · rw [reduce_accepted hlt]
      rfl

/-- The change after the last generation is not accepted. -/
theorem wrapped_change_rejected : (¬ ∀ ops : List (SystemOp Bool),
      Converges (Runs.exec System.step (.boot (.new false) .nanNow false) ops)) ∧
      (⟨.sta, false, 1, 0⟩, MainEffect.none) ∈
        (Runs.exec System.step (.boot (.new false) .nanNow false) (rounds 4294967296)).answers := by
  have h : Counted 4294967295 (changed 4294967295) := changed_counted (by decide)
  have hlast : (changed 4294967295).store.generation = 0xffffffff :=
    UInt32.toNat_inj.mp h.generation
  have hanswer : (⟨.sta, false, 1, 0⟩, .none) ∈ (changed 4294967296).answers := by
    rw [changed_succ 4294967295, step_toggle h.pending, hlast,
      show nextGeneration 0xffffffff = 1 from by decide]
    have hold : (1 : UInt32) ≤ (changed 4294967295).main.desiredGeneration := by
      rw [h.desired, hlast]
      decide
    rw [reduce_rejected hold]
    exact mem_append_right _ (mem_singleton_self _)
  refine ⟨fun hall => ?_, hanswer⟩
  cases (hall (rounds 4294967296)).accepted _ hanswer

end QuicLite.Runtime

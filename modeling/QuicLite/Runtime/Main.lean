import Mathlib.Data.List.Basic

/-!
# The state of the Main runtime

One task owns it and reduces one queued event at a time. What a completion may change depends on the
generation that it is for.
-/

namespace QuicLite.Runtime

open Option

variable {event : MainEvent}

def u32Max : Nat := 4294967295

/-! ## Events -/

inductive RequestedMode where
  | stopped
  | nanNow
  | sta
  | staNanNow
  | staAp
  | staApNanNow

inductive RadioLifecycle where
  | stopped
  | starting
  | nanNow
  | sta
  | staNanNow
  | staAp
  | staApNanNow
  | stopping
  | failed

/-- What is reported until the adapter confirms a requested mode. -/
def RequestedMode.underway : RequestedMode → RadioLifecycle
  | .stopped => .stopping
  | _ => .starting

inductive PowerLifecycle where
  | awake
  | preparingSleep
  | lightSleeping
  | waking
  | blocked

/-- The reasons why light sleep has to wait, as bits. -/
structure SleepBlockers where
  bits : Nat

namespace SleepBlockers

def none : SleepBlockers := ⟨0⟩
def radioTransition : SleepBlockers := ⟨1⟩

def isEmpty (self : SleepBlockers) : Bool := self.bits == 0

end SleepBlockers

/-- The power management that the platform observed. -/
structure PowerReport where
  cpuMhz : Nat
  minMhz : Nat
  maxMhz : Nat
  automaticLightSleep : Bool
  configured : Bool
  lightSleepAttempts : Nat
  lightSleepEntries : Nat
  lightSleepSkipped : Nat
  lastSleepRequestedUs : Nat
  lastSleepDurationUs : Nat

inductive MainEvent where
  | boot
  | bootProfile (mode : RequestedMode) (sleepy : Bool) (generation : UInt32)
  | profileRequested (mode : RequestedMode) (sleepy : Bool) (generation : UInt32) (requestId : Nat)
  | radioApplied (generation : UInt32) (lifecycle : RadioLifecycle)
  | radioFailed (generation : UInt32) (error : Nat)
  | sleepDeadline (generation : UInt32) (blockers : SleepBlockers)
  | sleepEntered (generation : UInt32)
  | wake (generation : UInt32) (cause : Nat)
  | powerApplied (report : PowerReport)
  | queueOverflow

/-- The work that a transition asks of an adapter. -/
inductive MainEffect where
  | none
  | applyRadio (mode : RequestedMode) (generation : UInt32)
  | enterLightSleep (generation : UInt32)
  | emitWakeAnnouncement (generation : UInt32)

/-! ## The state -/

structure MainRuntimeState where
  desiredMode : RequestedMode
  desiredGeneration : UInt32
  requestId : Nat
  sleepy : Bool
  radioLifecycle : RadioLifecycle
  appliedGeneration : UInt32
  powerLifecycle : PowerLifecycle
  sleepBlockers : SleepBlockers
  lastError : Nat
  staleCompletionCount : Nat
  queueOverflowCount : Nat
  wakeCause : Nat
  power : PowerReport
  /-- Which kind of event was rejected as stale last, zero when none was. -/
  lastStaleReason : Nat

namespace MainRuntimeState

def default : MainRuntimeState where
  desiredMode := .nanNow
  desiredGeneration := 0
  requestId := 0
  sleepy := false
  radioLifecycle := .stopped
  appliedGeneration := 0
  powerLifecycle := .awake
  sleepBlockers := .none
  lastError := 0
  staleCompletionCount := 0
  queueOverflowCount := 0
  wakeCause := 0
  power := ⟨0, 0, 0, false, false, 0, 0, 0, 0, 0⟩
  lastStaleReason := 0

def recordStale (self : MainRuntimeState) (reason : Nat) : MainRuntimeState :=
  { self with
    staleCompletionCount := min (self.staleCompletionCount + 1) u32Max, lastStaleReason := reason }

/-- A radio transition to a mode begins. -/
def begin (self : MainRuntimeState) (mode : RequestedMode) (sleepy : Bool) (generation : UInt32)
    (radioLifecycle : RadioLifecycle) : MainRuntimeState :=
  { self with
    desiredMode := mode
    desiredGeneration := generation
    sleepy
    radioLifecycle
    powerLifecycle := .awake
    sleepBlockers := .radioTransition }

def reduce (self : MainRuntimeState) : MainEvent → MainRuntimeState × MainEffect
  | .boot => (self, .applyRadio self.desiredMode self.desiredGeneration)
  | .bootProfile mode sleepy generation =>
    (self.begin mode sleepy generation .starting, .applyRadio mode generation)
  | .profileRequested mode sleepy generation requestId =>
    if generation ≤ self.desiredGeneration then (self.recordStale 1, .none)
    else
      ({ self.begin mode sleepy generation mode.underway with requestId },
        .applyRadio mode generation)
  | .radioApplied generation lifecycle =>
    if generation ≠ self.desiredGeneration then (self.recordStale 2, .none)
    else
      ({ self with
        radioLifecycle := lifecycle
        appliedGeneration := generation
        sleepBlockers := .none
        lastError := 0 }, .none)
  | .radioFailed generation error =>
    if generation ≠ self.desiredGeneration then (self.recordStale 3, .none)
    else ({ self with
      radioLifecycle := .failed, sleepBlockers := .radioTransition, lastError := error }, .none)
  | .sleepDeadline generation blockers =>
    if generation ≠ self.desiredGeneration ∨ self.sleepy = false then (self.recordStale 4, .none)
    else if blockers.isEmpty then
      ({ self with sleepBlockers := blockers, powerLifecycle := .preparingSleep },
        .enterLightSleep generation)
    else ({ self with sleepBlockers := blockers, powerLifecycle := .blocked }, .none)
  | .sleepEntered generation =>
    if generation ≠ self.desiredGeneration then (self.recordStale 5, .none)
    else ({ self with powerLifecycle := .lightSleeping }, .none)
  | .wake generation cause =>
    if generation ≠ self.desiredGeneration then (self.recordStale 6, .none)
    else ({ self with powerLifecycle := .waking, wakeCause := cause },
      .emitWakeAnnouncement generation)
  | .powerApplied report => ({ self with power := report }, .none)
  | .queueOverflow =>
    ({ self with queueOverflowCount := min (self.queueOverflowCount + 1) u32Max }, .none)

end MainRuntimeState

/-- The generation of a request's completion. -/
def MainEvent.completes : MainEvent → Option UInt32
  | .radioApplied generation _ | .radioFailed generation _ | .sleepDeadline generation _
    | .sleepEntered generation
  | .wake generation _ => some generation
  | _ => none

variable {s : MainRuntimeState} {generation : UInt32}

theorem MainRuntimeState.reduce_accepted
    (h : s.desiredGeneration < generation) (mode : RequestedMode) (sleepy : Bool)
    (requestId : Nat) : s.reduce (.profileRequested mode sleepy generation requestId) =
      ({ s.begin mode sleepy generation mode.underway with requestId },
        .applyRadio mode generation) :=
  if_neg (UInt32.not_le.mpr h)

theorem MainRuntimeState.reduce_rejected
    (h : generation ≤ s.desiredGeneration) (mode : RequestedMode) (sleepy : Bool)
    (requestId : Nat) :
    s.reduce (.profileRequested mode sleepy generation requestId) = (s.recordStale 1, .none) :=
  if_pos h

/-- A completion of another generation than the desired one is only counted. -/
theorem MainRuntimeState.reduce_stale
    (hevent : event.completes = some generation) (hstale : generation ≠ s.desiredGeneration) :
    ∃ reason, s.reduce event = (s.recordStale reason, .none) := by
  cases event with
  | radioApplied _ _ | radioFailed _ _ | sleepEntered _ | wake _ _ =>
    obtain rfl := some.inj hevent
    exact ⟨_, if_pos hstale⟩
  | sleepDeadline _ _ =>
    obtain rfl := some.inj hevent
    exact ⟨_, if_pos (.inl hstale)⟩
  | boot | bootProfile _ _ _ | profileRequested _ _ _ _ | powerApplied _ | queueOverflow =>
    cases hevent

/-- A completion asks for no other generation. -/
theorem MainRuntimeState.reduce_desiredGeneration
    (hevent : event.completes = some generation) :
    (s.reduce event).1.desiredGeneration = s.desiredGeneration := by
  cases event with
  | radioApplied _ _ | radioFailed _ _ | sleepEntered _ | wake _ _ =>
    simp only [MainRuntimeState.reduce]
    split
    · rfl
    · rfl
  | sleepDeadline _ _ =>
    simp only [MainRuntimeState.reduce]
    repeat' split
    all_goals rfl
  | boot | bootProfile _ _ _ | profileRequested _ _ _ _ | powerApplied _ | queueOverflow =>
    cases hevent

/-- The generation whose radio an event reports as applied. -/
def MainEvent.appliedRadio : MainEvent → Option UInt32
  | .radioApplied generation _ => some generation
  | _ => none

/-- Only the radio of the desired generation becomes the applied one. -/
theorem MainRuntimeState.reduce_appliedGeneration (hevent : event.completes = some generation) :
    (event.appliedRadio = some s.desiredGeneration →
      (s.reduce event).1.appliedGeneration = s.desiredGeneration) ∧
      (event.appliedRadio ≠ some s.desiredGeneration →
        (s.reduce event).1.appliedGeneration = s.appliedGeneration) := by
  cases event with
  | radioApplied found _ =>
    simp only [MainEvent.appliedRadio, some.injEq, MainRuntimeState.reduce]
    split_ifs with hother
    · exact ⟨fun hsame => absurd hsame hother, fun _ => rfl⟩
    · exact ⟨id, fun hne => absurd (congrArg some (not_not.mp hother)) hne⟩
  | radioFailed _ _ | sleepEntered _ | wake _ _ =>
    refine ⟨fun hno => (by cases hno), fun _ => ?_⟩
    simp only [MainRuntimeState.reduce]
    split
    · rfl
    · rfl
  | sleepDeadline _ _ =>
    refine ⟨fun hno => (by cases hno), fun _ => ?_⟩
    simp only [MainRuntimeState.reduce]
    repeat' split
    all_goals rfl
  | boot | bootProfile _ _ _ | profileRequested _ _ _ _ | powerApplied _ | queueOverflow =>
    cases hevent

/-! ## The wake lease -/

def nanWakeActiveMs : Nat := 10000

/-- A time of the 32-bit clock. -/
def narrow (time : Nat) : Nat := time % (u32Max + 1)

def nanWakeHoldRemaining (nowMs untilMs : Nat) : Nat :=
  let remaining := narrow (untilMs + (u32Max + 1) - nowMs)
  if untilMs ≠ 0 ∧ remaining ≤ nanWakeActiveMs then remaining else 0

def nanIdlePmReady (nowMs graceUntilMs wakeUntilMs : Nat) (radioReady : Bool) : Bool :=
  radioReady && graceUntilMs ≤ nowMs && nanWakeHoldRemaining (narrow nowMs) wakeUntilMs == 0

/-- A lease that was taken at the wide time `now`, as either clock sees it later. -/
structure Expires (now duration elapsed : Nat) : Prop where
  remaining : nanWakeHoldRemaining (narrow (now + elapsed)) (narrow (narrow now + duration)) =
    duration - elapsed
  ready : ∀ grace, grace ≤ now + elapsed →
    nanIdlePmReady (now + elapsed) grace (narrow (narrow now + duration)) true =
      decide (duration ≤ elapsed)

/-- The lease does not end at the time zero, which stands for no lease, and the clock has not come
round to the time before its end again. -/
def Apart (now duration elapsed : Nat) : Prop :=
  if narrow (now + duration) = 0 then duration ≤ elapsed
  else elapsed ≤ duration ∨ narrow (elapsed - duration) = 0 ∨ narrow (elapsed - duration) +
    nanWakeActiveMs ≤ u32Max

theorem holdRemaining_iff {now duration : Nat} (hmax : duration ≤ nanWakeActiveMs) (elapsed : Nat) :
    nanWakeHoldRemaining (narrow (now + elapsed))
    (narrow (narrow now + duration)) = duration - elapsed ↔
      Apart now duration elapsed := by
  have huntil : narrow (narrow now + duration) = narrow (now + duration) := Nat.mod_add_mod ..
  rw [huntil, nanWakeHoldRemaining, Apart]
  split_ifs with hactive hzero <;>
    simp only [nanWakeActiveMs, narrow, u32Max, Nat.reduceAdd] at * <;> omega

/-- A lease expires once on both clocks, at every time when it is apart from the zero and from an
earlier round. -/
theorem expires_iff (now duration elapsed : Nat) (hmax : duration ≤ nanWakeActiveMs) :
    Expires now duration elapsed ↔ Apart now duration elapsed := by
  refine ⟨fun h => (holdRemaining_iff hmax elapsed).mp h.remaining, fun h => ?_⟩
  have hremaining := (holdRemaining_iff hmax elapsed).mpr h
  refine ⟨hremaining, ?_⟩
  intro grace hgrace
  rw [nanIdlePmReady, hremaining, Bool.eq_iff_iff]
  simp [hgrace, Nat.sub_eq_zero_iff_le]

theorem expires_five : Expires 0 10 5 ↔ Apart 0 10 5 := expires_iff 0 10 5 (by decide)

/-- A lease of ten seconds taken ten seconds before the clock wraps is never active. -/
theorem ending_at_zero_lost :
    ¬ ∀ now duration elapsed : Nat, 1 ≤ duration → duration ≤ nanWakeActiveMs →
    Expires now duration elapsed := by
  intro h
  have hremaining := (h 4294957296 10000 0 (by decide) (by decide)).remaining
  revert hremaining
  decide

end QuicLite.Runtime

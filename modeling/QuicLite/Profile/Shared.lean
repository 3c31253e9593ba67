import QuicLite.Lib.Runs
import QuicLite.Profile.Config
import QuicLite.Profile.Store

/-!
# The profile store shared by many callers

Every access to the shared memory is a step of its own: the compare-exchange on the lock and its
release, the read and the write of the profile, the load and the store of the generation. Any number
of callers take these steps in any order. `Shared.log` and `Shared.returned` are not part of the
program: a call is logged at the step where it takes effect, and recorded as returned when it gives
its reply. `Atomic` says that the log is a serial execution of the store, and that the memory and
the replies are those of this execution.
-/

namespace QuicLite.Profile

open List Function

/-! ## One call at a time -/

/-- The calls that edit the profile. -/
inductive Edit
  | update (request : TransportRequest)
  | set (profile : TransportProfile)

/-- The calls that take the lock. -/
inductive Guarded
  | edit (e : Edit)
  | snapshot

inductive Call
  | guarded (call : Guarded)
  | generation

inductive Reply
  | edited (result : Except Int (UInt32 × Bool))
  | snapshot (profile : TransportProfile) (generation : UInt32)
  | generation (generation : UInt32)

/-- The closure of `update_with(apply_request)`: an error or a renewed lease puts the profile
back. -/
def updateOperation (request : TransportRequest) (profile : TransportProfile) :
    TransportProfile × Except Int RequestEffect × Bool :=
  match applyRequest request profile with
  | (.error e, _) => (profile, .error e, false)
  | (.ok .leaseRenewed, _) => (profile, .ok .leaseRenewed, false)
  | (.ok .applied, next) =>
    if next.config.isNone then (profile, .error errArg, false) else (next, .ok .applied, false)

namespace Edit

/-- The errors that are found before the lock is taken. -/
def refusal : Edit → Option Int
  | .update request => if validateConfig request.config then none else some errArg
  | .set profile =>
    if profile.requestedTransport = some .uart then some errUnsupported
    else if profile.config.isNone then some errArg
    else none

/-- What is done to the profile under the lock. -/
def operation : Edit → TransportProfile → TransportProfile × Except Int RequestEffect × Bool
  | .update request, profile => updateOperation request profile
  | .set profile, _ => (profile, .ok .applied, false)

end Edit

def editReply (result : Except Int RequestEffect) (generation : UInt32) (changed : Bool) : Reply :=
  .edited (result.map fun _ => (generation, changed))

/-- A whole call, and its reply. -/
def ProfileStore.serve (self : ProfileStore TransportProfile) :
    Call → ProfileStore TransportProfile × Reply
  | .guarded (.edit e) =>
    match e.refusal with
    | some err => (self, .edited (.error err))
    | none =>
      let (store, result, generation, changed) := self.editWithInvalidation e.operation
      (store, editReply result generation changed)
  | .guarded .snapshot => (self, .snapshot self.profile self.generation)
  | .generation => (self, .generation self.generation)

section Serve

variable {store : ProfileStore TransportProfile} {e : Edit}

theorem serve_refused {err : Int} (h : e.refusal = some err)
    (store : ProfileStore TransportProfile) :
    store.serve (.guarded (.edit e)) = (store, .edited (.error err)) := by
  simp only [ProfileStore.serve, h]

theorem serve_changes (h : e.refusal = none) (hchanges : store.changes e.operation = true) :
    store.serve (.guarded (.edit e)) =
      (⟨(e.operation store.profile).1, nextGeneration store.generation⟩,
      editReply (e.operation store.profile).2.1 (nextGeneration store.generation) true) := by
  simp only [ProfileStore.serve, h, ProfileStore.edit_of_changes hchanges]

theorem serve_unchanged (h : e.refusal = none) (hchanges : ¬ store.changes e.operation = true) :
    store.serve (.guarded (.edit e)) =
      (store, editReply (e.operation store.profile).2.1 store.generation false) := by
  simp only [ProfileStore.serve, h, ProfileStore.edit_of_not_changes hchanges]

end Serve

/-! ## Many callers -/

/-- Where a caller is in its call. -/
inductive Pc
  | idle
  | polling
  | waiting (call : Guarded)
  | holding (call : Guarded)
  | writing (e : Edit) (result : Except Int RequestEffect) (after : TransportProfile)
  | loading (e : Edit) (result : Except Int RequestEffect) (changed : Bool)
  | storing (e : Edit) (result : Except Int RequestEffect) (next : UInt32)
  | snapping (profile : TransportProfile)
  | releasing (call : Guarded) (reply : Reply)

/-- A call that took effect. -/
structure Entry (ι : Type) where
  caller : ι
  call : Call
  reply : Reply

structure Shared (ι : Type) where
  locked : Bool
  profile : TransportProfile
  generation : UInt32
  pc : ι → Pc
  log : List (Entry ι)
  returned : List (Entry ι)

namespace Shared

variable {ι : Type} [DecidableEq ι]

def new (profile : TransportProfile) : Shared ι := ⟨false, profile, 0, fun _ => .idle, [], []⟩

def goto (s : Shared ι) (i : ι) (pc : Pc) : Shared ι := { s with pc := update s.pc i pc }

/-- The call takes effect here. -/
def logged (s : Shared ι) (i : ι) (call : Call) (reply : Reply) : Shared ι :=
  { s with log := s.log ++ [⟨i, call, reply⟩] }

def giving (s : Shared ι) (i : ι) (call : Call) (reply : Reply) : Shared ι :=
  { s with returned := s.returned ++ [⟨i, call, reply⟩] }

/-- A call that is refused touches nothing shared. -/
def enter (s : Shared ι) (i : ι) : Call → Shared ι
  | .generation => s.goto i .polling
  | .guarded .snapshot => s.goto i (.waiting .snapshot)
  | .guarded (.edit e) =>
    match e.refusal with
    | some err =>
      (s.logged i (.guarded (.edit e)) (.edited (.error err))).giving i (.guarded (.edit e))
        (.edited (.error err))
    | none => s.goto i (.waiting (.edit e))

/-- The profile is read and the operation run on a copy of it. -/
def readProfile (s : Shared ι) (i : ι) : Guarded → Shared ι
  | .snapshot => s.goto i (.snapping s.profile)
  | .edit e =>
    let (after, result, invalidate) := e.operation s.profile
    if (decide (after ≠ s.profile) || invalidate) = true then s.goto i (.writing e result after)
    else s.goto i (.loading e result false)

/-- The next access of a caller. An idle one makes a call. -/
def step (s : Shared ι) (turn : ι × Call) : Shared ι :=
  match s.pc turn.1 with
  | .idle => s.enter turn.1 turn.2
  | .polling =>
    ((s.logged turn.1 .generation (.generation s.generation)).giving turn.1 .generation
      (.generation s.generation)).goto
      turn.1 .idle
  | .waiting call => if s.locked then s else { s.goto turn.1 (.holding call) with locked := true }
  | .holding call => s.readProfile turn.1 call
  | .writing e result after => { s.goto turn.1 (.loading e result true) with profile := after }
  | .loading e result true => s.goto turn.1 (.storing e result (nextGeneration s.generation))
  | .loading e result false =>
    (s.logged turn.1 (.guarded (.edit e)) (editReply result s.generation false)).goto turn.1
      (.releasing (.edit e) (editReply result s.generation false))
  | .storing e result next =>
    { (s.logged turn.1 (.guarded (.edit e)) (editReply result next true)).goto turn.1
        (.releasing (.edit e) (editReply result next true)) with generation := next }
  | .snapping profile =>
    (s.logged turn.1 (.guarded .snapshot) (.snapshot profile s.generation)).goto turn.1
      (.releasing .snapshot (.snapshot profile s.generation))
  | .releasing call reply =>
    { (s.giving turn.1 (.guarded call) reply).goto turn.1 .idle with locked := false }

/-- The store after its callers took these turns. -/
def run (profile : TransportProfile) (turns : List (ι × Call)) : Shared ι :=
  Runs.exec step (new profile) turns

end Shared

/-! ## The log is a serial execution -/

section Atomic

variable {ι : Type} {memory : TransportProfile} {store : ProfileStore TransportProfile}

section

variable (initial : ProfileStore TransportProfile)

/-- The store after the calls of a log, one after the other. -/
def replay (log : List (Entry ι)) : ProfileStore TransportProfile :=
  Runs.exec (fun store entry => (store.serve entry.call).1) initial log

/-- Every reply is the one that the store gives there. -/
def Serial (log : List (Entry ι)) : Prop :=
  Runs.Along (fun store entry => (store.serve entry.call).1) (fun store entry =>
    entry.reply = (store.serve entry.call).2)
    initial log

theorem replay_append (log more : List (Entry ι)) :
    replay initial (log ++ more) = replay (replay initial log) more :=
  Runs.exec_append _ _ _ _

end

theorem serial_append {initial : ProfileStore TransportProfile} {log more : List (Entry ι)} :
    Serial initial (log ++ more) ↔ Serial initial log ∧ Serial (replay initial log) more :=
  Runs.Along.append

theorem serial_singleton {entry : Entry ι} :
    Serial store [entry] ↔ entry.reply = (store.serve entry.call).2 :=
  and_iff_left trivial

theorem replay_singleton (store : ProfileStore TransportProfile) (entry : Entry ι) :
    replay store [entry] = (store.serve entry.call).1 := rfl

namespace Pc

/-- The caller has the lock. -/
def owns : Pc → Bool
  | .idle => false
  | .polling => false
  | .waiting _ => false
  | _ => true

/-- A call that has taken effect and not returned. -/
def pending (i : ι) : Pc → List (Entry ι)
  | .releasing call reply => [⟨i, .guarded call, reply⟩]
  | _ => []

def Admitted : Guarded → Prop
  | .edit e => e.refusal = none
  | .snapshot => True

/-- The edit will commit, with this result. -/
structure Commits (store : ProfileStore TransportProfile) (e : Edit)
    (result : Except Int RequestEffect) : Prop where
  admitted : e.refusal = none
  changes : store.changes e.operation = true
  result : (e.operation store.profile).2.1 = result

/-- What a caller relies on: the profile in memory, against the store that the log gives. -/
def Fits (store : ProfileStore TransportProfile) (memory : TransportProfile) : Pc → Prop
  | .idle => True
  | .polling => True
  | .waiting call => Admitted call
  | .holding call => Admitted call ∧ memory = store.profile
  | .writing e result after =>
    Commits store e result ∧ memory = store.profile ∧ after = (e.operation store.profile).1
  | .loading e result true => Commits store e result ∧ memory = (e.operation store.profile).1
  | .loading e result false => e.refusal = none ∧ ¬ store.changes e.operation = true ∧
      (e.operation store.profile).2.1 = result ∧ memory = store.profile
  | .storing e result next => Commits store e result ∧ memory = (e.operation store.profile).1 ∧
      next = nextGeneration store.generation
  | .snapping profile => memory = store.profile ∧ profile = store.profile
  | .releasing _ _ => memory = store.profile

/-- Without the lock nothing is relied on. -/
theorem Fits.of_not_owns {other : ProfileStore TransportProfile} {elsewhere : TransportProfile}
    {pc : Pc} (h : pc.Fits store memory) (howns : ¬ pc.owns = true) : pc.Fits other elsewhere := by
  cases pc with
  | idle => trivial
  | polling => trivial
  | waiting call => exact h
  | _ => exact absurd rfl howns

end Pc

variable [DecidableEq ι]

/-- The memory and the callers agree with the log. -/
structure Atomic (initial : ProfileStore TransportProfile) (s : Shared ι) : Prop where
  serial : Serial initial s.log
  generation : s.generation = (replay initial s.log).generation
  fits : ∀ i, (s.pc i).Fits (replay initial s.log) s.profile
  owner : ∃ owner : Option ι, s.locked = owner.isSome ∧ ∀ i, (s.pc i).owns = true ↔ owner = some i
  free : s.locked = false → s.profile = (replay initial s.log).profile
  calls : ∀ i, s.log.filter (fun entry => entry.caller = i) =
    s.returned.filter (fun entry => entry.caller = i) ++ (s.pc i).pending i

namespace Atomic

variable {initial : ProfileStore TransportProfile} {s s' : Shared ι} {i : ι} {pc : Pc}
    {new out : List (Entry ι)}

/-- What a turn of one caller has to keep. Only with the lock may it touch the memory. -/
structure Turn (s s' : Shared ι) (store : ProfileStore TransportProfile) (i : ι) (pc : Pc)
    (new out : List (Entry ι)) :
    Prop where
  pc_eq : s'.pc = update s.pc i pc
  log_eq : s'.log = s.log ++ new
  returned_eq : s'.returned = s.returned ++ out
  own_new : ∀ entry ∈ new, entry.caller = i
  own_out : ∀ entry ∈ out, entry.caller = i
  serial : Serial store new
  generation : s'.generation = (replay store new).generation
  fits : pc.Fits (replay store new) s'.profile
  locked : s'.locked = if pc.owns then true else if (s.pc i).owns then false else s.locked
  acquires : pc.owns = true → ¬ (s.pc i).owns = true → s.locked = false
  quiet : ¬ (s.pc i).owns = true → s'.profile = s.profile ∧ replay store new = store
  released : (s.pc i).owns = true → ¬ pc.owns = true → s'.profile = (replay store new).profile
  calls : (s.pc i).pending i ++ new = out ++ pc.pending i

theorem filter_own (h : ∀ entry ∈ new, entry.caller = i) (j : ι) :
    new.filter (fun entry => entry.caller = j) = if j = i then new else [] := by
  split
  · next hj => exact filter_eq_self.mpr fun entry he => by simp [h entry he, hj]
  · next hj => exact filter_eq_nil_iff.mpr fun entry he => by simp [h entry he, Ne.symm hj]

theorem turn (hs : Atomic initial s) (h : Turn s s' (replay initial s.log) i pc new out) :
    Atomic initial s' := by
  have hreplay : replay initial s'.log = replay (replay initial s.log) new := by
    rw [h.log_eq, replay_append]
  have hother : ∀ {j}, j ≠ i → s'.pc j = s.pc j := fun hj => by rw [h.pc_eq, update_of_ne hj]
  have hself : s'.pc i = pc := by rw [h.pc_eq, update_self]
  obtain ⟨owner, hlocked, howner⟩ := hs.owner
  have hunique : ∀ {j}, (s.pc i).owns = true → (s.pc j).owns = true → j = i := by
    intro j hi hj
    have hsame := (howner j).mp hj
    rw [(howner i).mp hi] at hsame
    exact (Option.some.inj hsame).symm
  refine ⟨?_, ?_, ?_, ?_, ?_, ?_⟩
  · rw [h.log_eq]
    exact serial_append.mpr ⟨hs.serial, h.serial⟩
  · rw [hreplay, h.generation]
  · intro j
    rw [hreplay]
    by_cases hj : j = i
    · rw [hj, hself]
      exact h.fits
    rw [hother hj]
    by_cases howns : (s.pc i).owns = true
    · -- the turn is the owner's, so `j` has no lock
      exact (hs.fits j).of_not_owns fun hown => hj (hunique howns hown)
    obtain ⟨hprofile, hstore⟩ := h.quiet howns
    rw [hprofile, hstore]
    exact hs.fits j
  · by_cases hpc : pc.owns = true
    · refine ⟨some i, by rw [h.locked, if_pos hpc]; rfl, fun j => ?_⟩
      by_cases hj : j = i
      · rw [hj, hself]
        exact iff_of_true hpc rfl
      rw [hother hj]
      refine iff_of_false (fun hown => ?_) fun heq => hj (Option.some.inj heq).symm
      by_cases howns : (s.pc i).owns = true
      · exact hj (hunique howns hown)
      have hfree := h.acquires hpc howns
      rw [hlocked, (howner j).mp hown] at hfree
      cases hfree
    · by_cases howns : (s.pc i).owns = true
      · refine ⟨none, by rw [h.locked, if_neg hpc, if_pos howns]; rfl, fun j => ?_⟩
        by_cases hj : j = i
        · rw [hj, hself]
          exact iff_of_false hpc (by simp)
        · rw [hother hj]
          exact iff_of_false (fun hown => hj (hunique howns hown)) (by simp)
      refine ⟨owner, by rw [h.locked, if_neg hpc, if_neg howns, hlocked], fun j => ?_⟩
      by_cases hj : j = i
      · rw [hj, hself, ← howner i]
        exact iff_of_false hpc howns
      · rw [hother hj]
        exact howner j
  · intro hfree
    rw [hreplay]
    rw [h.locked] at hfree
    by_cases hpc : pc.owns = true
    · rw [if_pos hpc] at hfree
      cases hfree
    by_cases howns : (s.pc i).owns = true
    · exact h.released howns hpc
    rw [if_neg hpc, if_neg howns] at hfree
    obtain ⟨hprofile, hstore⟩ := h.quiet howns
    rw [hprofile, hstore]
    exact hs.free hfree
  · intro j
    have hcalls := hs.calls j
    rw [h.log_eq, h.returned_eq, filter_append, filter_append, filter_own h.own_new,
      filter_own h.own_out, hcalls]
    by_cases hj : j = i
    · rw [if_pos hj, if_pos hj, hj, hself, append_assoc, h.calls, append_assoc]
    · rw [if_neg hj, if_neg hj, hother hj, append_nil, append_nil]

section

variable (hs : Atomic initial s)
variable {g : Guarded}
include hs

theorem silent (i : ι) (pc : Pc) {locked : Bool} (hfits : pc.Fits (replay initial s.log) memory)
    (hlocked : locked = if pc.owns then true else if (s.pc i).owns then false else s.locked)
    (hacquires : pc.owns = true → ¬ (s.pc i).owns = true → s.locked = false)
    (hquiet : ¬ (s.pc i).owns = true → memory = s.profile)
    (hreleased : (s.pc i).owns = true → ¬ pc.owns = true → memory = (replay initial s.log).profile)
    (hcalls : (s.pc i).pending i = pc.pending i) :
    Atomic initial { s.goto i pc with locked := locked, profile := memory } :=
  hs.turn (show Turn s _ (replay initial s.log) i pc [] [] from
    { pc_eq := rfl
      log_eq := (append_nil _).symm
      returned_eq := (append_nil _).symm
      own_new := fun _ h => absurd h not_mem_nil
      own_out := fun _ h => absurd h not_mem_nil
      serial := trivial
      generation := hs.generation
      fits := hfits
      locked := hlocked
      acquires := hacquires
      quiet := fun h => ⟨hquiet h, rfl⟩
      released := hreleased
      calls := by rw [append_nil, hcalls]; rfl })

theorem enter (hpc : s.pc i = .idle) (call : Call) : Atomic initial (s.enter i call) := by
  have hwait : ∀ pc : Pc, pc.owns = false → pc.pending i = [] →
      pc.Fits (replay initial s.log) s.profile →
      Atomic initial (s.goto i pc) := by
    intro pc howns hpending hfits
    exact hs.silent i pc hfits (by rw [hpc, howns]; rfl) (fun h => by rw [howns] at h; cases h)
      (fun _ => rfl)
      (fun h => by rw [hpc] at h; cases h) (by rw [hpc, hpending]; rfl)
  unfold Shared.enter
  split
  · exact hwait .polling rfl rfl trivial
  · exact hwait (.waiting .snapshot) rfl rfl trivial
  next e =>
    split
    · next err herr =>
        refine hs.turn (show Turn s _ (replay initial s.log) i
          .idle [⟨i, .guarded (.edit e), .edited (.error err)⟩]
          [⟨i, .guarded (.edit e), .edited (.error err)⟩] from ?_)
        exact
          { pc_eq := by rw [← hpc, update_eq_self]; rfl
            log_eq := rfl
            returned_eq := rfl
            own_new := by simp
            own_out := by simp
            serial := serial_singleton.mpr (by rw [serve_refused herr])
            generation := by rw [replay_singleton, serve_refused herr]; exact hs.generation
            fits := trivial
            locked := by rw [hpc]; rfl
            acquires := fun h => by cases h
            quiet := fun _ => ⟨rfl, by rw [replay_singleton, serve_refused herr]⟩
            released := fun h => by rw [hpc] at h; cases h
            calls := by rw [hpc]; rfl }
    · next hnone => exact hwait (.waiting (.edit e)) rfl rfl hnone

theorem hold (howns : (s.pc i).owns = true) (hpending : (s.pc i).pending i = []) (pc : Pc)
    (hown : pc.owns = true) (hnext : pc.pending i = [])
    (hfits : pc.Fits (replay initial s.log) memory) :
    Atomic initial { s.goto i pc with profile := memory } := by
  obtain ⟨owner, hlocked, howner⟩ := hs.owner
  have hbusy : s.locked = true := by rw [hlocked, (howner i).mp howns]; rfl
  exact hs.silent i pc hfits (by rw [hown]; exact hbusy) (fun _ h => absurd howns h) (fun h =>
    absurd howns h)
    (fun _ h => absurd hown h) (by rw [hpending, hnext])

/-- With the lock, reading the profile decides whether the edit commits. -/
theorem readProfile (hpc : s.pc i = .holding g) : Atomic initial (s.readProfile i g) := by
  have howns : (s.pc i).owns = true := by rw [hpc]; rfl
  have hfits := hs.fits i
  rw [hpc] at hfits
  obtain ⟨hadmitted, hmemory⟩ := hfits
  have hkeep : ∀ pc : Pc, pc.owns = true → pc.pending i = [] →
      pc.Fits (replay initial s.log) s.profile →
      Atomic initial (s.goto i pc) := fun pc => hs.hold howns (by rw [hpc]; rfl) pc
  unfold Shared.readProfile
  split
  · exact hkeep (.snapping s.profile) rfl rfl ⟨hmemory, hmemory⟩
  next e =>
    show Atomic initial (if (decide ((e.operation s.profile).1 ≠ s.profile) ||
      (e.operation s.profile).2.2) = true then
      s.goto i (.writing e (e.operation s.profile).2.1 (e.operation s.profile).1)
      else s.goto i (.loading e (e.operation s.profile).2.1 false))
    split
    · next hchanged =>
        rw [hmemory] at hchanged
        refine hkeep (.writing e _ _) rfl rfl ⟨⟨hadmitted, hchanged, by rw [hmemory]⟩, hmemory,
          by rw [hmemory]⟩
    next hsame =>
      rw [hmemory] at hsame
      exact hkeep (.loading e _ false) rfl rfl ⟨hadmitted, hsame, by rw [hmemory], hmemory⟩

/-- The owner's call takes effect, and the lock is kept until it returns. -/
theorem effect {reply : Reply} {generation : UInt32} (howns : (s.pc i).owns = true)
    (hpending : (s.pc i).pending i = [])
    (hreply : reply = ((replay initial s.log).serve (.guarded g)).2)
    (hmemory : s.profile = ((replay initial s.log).serve (.guarded g)).1.profile)
    (hgeneration : generation = ((replay initial s.log).serve (.guarded g)).1.generation) :
    Atomic initial
      { (s.logged i (.guarded g) reply).goto i (.releasing g reply) with
        generation := generation } := by
  obtain ⟨owner, hlocked, howner⟩ := hs.owner
  refine hs.turn (show Turn s _ (replay initial s.log) i
    (.releasing g reply) [⟨i, .guarded g, reply⟩] [] from ?_)
  exact
    { pc_eq := rfl
      log_eq := rfl
      returned_eq := (append_nil _).symm
      own_new := by simp
      own_out := by simp
      serial := serial_singleton.mpr hreply
      generation := hgeneration
      fits := hmemory
      locked := by
        show s.locked = true
        rw [hlocked, (howner i).mp howns]
        rfl
      acquires := fun _ h => absurd howns h
      quiet := fun h => absurd howns h
      released := fun _ h => absurd rfl h
      calls := by rw [hpending]; rfl }

theorem step (turn : ι × Call) : Atomic initial (s.step turn) := by
  obtain ⟨i, call⟩ := turn
  have hfits := hs.fits i
  unfold Shared.step
  split
  · next hpc => exact hs.enter hpc call
  · next hpc =>
      -- a load of the generation outside the lock
      refine hs.turn (show Turn s _ (replay initial s.log) i
        .idle [⟨i, .generation, .generation s.generation⟩]
        [⟨i, .generation, .generation s.generation⟩] from ?_)
      exact
        { pc_eq := rfl
          log_eq := rfl
          returned_eq := rfl
          own_new := by simp
          own_out := by simp
          serial := serial_singleton.mpr (by rw [hs.generation]; rfl)
          generation := hs.generation
          fits := trivial
          locked := by rw [hpc]; rfl
          acquires := fun h => by cases h
          quiet := fun _ => ⟨rfl, rfl⟩
          released := fun h => by rw [hpc] at h; cases h
          calls := by rw [hpc]; rfl }
  · next g hpc =>
      rw [hpc] at hfits
      split
      · exact hs
      next hfree =>
        have hfree : s.locked = false := by simpa using hfree
        exact hs.silent i (.holding g) ⟨hfits, hs.free hfree⟩ rfl (fun _ _ => hfree) (fun _ => rfl)
          (fun _ h => absurd rfl h) (by rw [hpc]; rfl)
  · next g hpc => exact hs.readProfile hpc
  · next e result after hpc =>
      rw [hpc] at hfits
      obtain ⟨hcommits, -, hafter⟩ := hfits
      exact hs.hold (by rw [hpc]; rfl) (by rw [hpc]; rfl) (.loading e result true) rfl rfl
        ⟨hcommits, hafter⟩
  · next e result hpc =>
      rw [hpc] at hfits
      obtain ⟨hcommits, hmemory⟩ := hfits
      exact hs.hold (by rw [hpc]; rfl) (by rw [hpc]; rfl) (.storing e result _) rfl rfl
        ⟨hcommits, hmemory, by rw [hs.generation]⟩
  · next e result hpc =>
      rw [hpc] at hfits
      obtain ⟨hadmitted, hsame, hresult, hmemory⟩ := hfits
      have hserve := serve_unchanged hadmitted hsame
      rw [hresult, ← hs.generation] at hserve
      exact hs.effect (by rw [hpc]; rfl) (by rw [hpc]; rfl) (by rw [hserve])
        (by rw [hserve, hmemory])
        (by rw [hserve]; exact hs.generation)
  · next e result next hpc =>
      rw [hpc] at hfits
      obtain ⟨⟨hadmitted, hchanges, hresult⟩, hmemory, hnext⟩ := hfits
      have hserve := serve_changes hadmitted hchanges
      rw [hresult, ← hnext] at hserve
      exact hs.effect (by rw [hpc]; rfl) (by rw [hpc]; rfl) (by rw [hserve])
        (by rw [hserve, hmemory]) (by rw [hserve])
  · next profile hpc =>
      rw [hpc] at hfits
      obtain ⟨hmemory, hprofile⟩ := hfits
      exact hs.effect (g := .snapshot) (by rw [hpc]; rfl) (by rw [hpc]; rfl)
        (by rw [hprofile, hs.generation]; rfl) hmemory
        hs.generation
  · next g reply hpc =>
      rw [hpc] at hfits
      refine hs.turn (show Turn s _ (replay initial s.log) i
        .idle [] [⟨i, .guarded g, reply⟩] from ?_)
      exact
        { pc_eq := rfl
          log_eq := (append_nil _).symm
          returned_eq := rfl
          own_new := by simp
          own_out := by simp
          serial := trivial
          generation := hs.generation
          fits := trivial
          locked := by rw [hpc]; rfl
          acquires := fun h => by cases h
          quiet := fun h => by rw [hpc] at h; exact absurd rfl h
          released := fun _ _ => hfits
          calls := by rw [hpc]; rfl }

end

theorem init (profile : TransportProfile) : Atomic (.new profile)
    (Shared.new (ι := ι) profile) where
  serial := trivial
  generation := rfl
  fits := fun _ => trivial
  owner := ⟨none, rfl, fun _ => by simp [Shared.new, Pc.owns]⟩
  free := fun _ => rfl
  calls := fun _ => rfl

theorem run (profile : TransportProfile) (turns : List (ι × Call)) : Atomic (.new profile)
    (Shared.run profile turns) :=
  Runs.invariant (fun _ turn hs => hs.step turn) (init profile) turns

end Atomic

end Atomic

end QuicLite.Profile

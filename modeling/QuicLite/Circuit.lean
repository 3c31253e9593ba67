import QuicLite.Path
import QuicLite.Lib.Runs

/-!
# The two ends of a circuit

Each end of a circuit tells the other whether it sends on it: available, standby, or abandoned for
good. A status is numbered when it is queued, and is sent until it is acknowledged, so the network
may deliver any queued status at any time, any number of times, or never. Between these the ends
validate, probe and suspend the path as they like.

Every state of a run is described by one invariant: an end has taken over the highest status it was
told, no end queues anything but an abandonment after an abandonment, and what is pending is what
was queued last.
-/

namespace QuicLite

open List Function Nat PathState
open Option hiding sequence

namespace Circuit

variable {e : End} {s : Ends} {status : Status} {side : Side}

/-- A numbered status, as PATH_STATUS carries it. -/
abbrev Status := Nat × PathStatusKind

/-- The calls of an end on its own path. `other` is any call that has nothing to do with statuses:
it leaves some path with the same status fields. -/
inductive LocalOp where
  | queueStatus (status : PathStatusKind)
  | statusSent (sequence retryAtUs : Nat)
  | acknowledgeStatus (sequence : Nat)
  | setCircuit (key : CircuitKey)
  | markValidated
  | markProbing
  | markSuspended
  | markUnvalidated
  | scheduleProbe (deadlineUs : Nat)
  | beginProbe (token nowUs intervalUs : Nat)
  | completeProbe (token nowUs : Nat)
  | other (path : PathState)

/-- The fields of a path that statuses are about. -/
structure StatusFields where
  peerStandby : Bool
  peerAbandoned : Bool
  peerStatusSequence : Nat
  localStatusSequence : Nat
  pendingLocalStatus : Option Status
  locallyAbandoned : Bool
  deriving DecidableEq

def statusFields (path : PathState) : StatusFields where
  peerStandby := path.peerStandby
  peerAbandoned := path.peerAbandoned
  peerStatusSequence := path.peerStatusSequence
  localStatusSequence := path.localStatusSequence
  pendingLocalStatus := path.pendingLocalStatus
  locallyAbandoned := path.locallyAbandoned

def LocalOp.apply (path : PathState) : LocalOp → PathState
  | .queueStatus status => (path.queueStatus status).toOption.getD path
  | .statusSent sequence retryAtUs => path.statusSent sequence retryAtUs
  | .acknowledgeStatus sequence => path.acknowledgeStatus sequence
  | .setCircuit key => path.setCircuit key
  | .markValidated => path.markValidated
  | .markProbing => path.markProbing
  | .markSuspended => path.markSuspended
  | .markUnvalidated => path.markUnvalidated
  | .scheduleProbe deadlineUs => path.scheduleProbe deadlineUs
  | .beginProbe token nowUs intervalUs => path.beginProbe token nowUs intervalUs
  | .completeProbe token nowUs => path.completeProbe token nowUs
  | .other path' => if statusFields path' = statusFields path then path' else path

/-- The status that a call queues. -/
def LocalOp.queues (path : PathState) : LocalOp → List Status
  | .queueStatus status =>
    match path.queueStatus status with
    | .ok path' => [(path'.localStatusSequence, status)]
    | .error _ => []
  | _ => []

/-- One end: its path, the statuses it has queued, and the peer's statuses that were delivered to
it. -/
structure End where
  path : PathState
  queued : List Status
  delivered : List Status

inductive Side where
  | left
  | right
  deriving DecidableEq

def Side.peer : Side → Side
  | .left => .right
  | .right => .left

/-- The two ends. -/
abbrev Ends := Side → End

def fresh (maxPacketSize : Nat) : Ends := fun _ => ⟨PathState.new maxPacketSize, [], []⟩

inductive Action where
  | call (side : Side) (op : LocalOp)
  | deliver (side : Side) (status : Status)

/-- Only what the peer has queued can be delivered. -/
def step (s : Ends) : Action → Ends
  | .call side op => update s side
      { s side with
        path := op.apply (s side).path, queued := (s side).queued ++ op.queues (s side).path }
  | .deliver side status =>
    if status ∈ (s side.peer).queued then
      update s side
        { s side with
          path := (s side).path.receiveStatus status.1 status.2
          delivered := (s side).delivered ++ [status] }
    else s

/-! ## The invariant -/

/-- What an end has queued. -/
structure Queued (e : End) : Prop where
  increasing : (e.queued.map Prod.fst).Pairwise (· < ·)
  numbered : ∀ status ∈ e.queued, 0 < status.1 ∧ status.1 ≤ e.path.localStatusSequence
  abandoned : (∃ status ∈ e.queued, status.2 = .abandon) → e.path.locallyAbandoned = true
  last : ∀ a ∈ e.queued, ∀ b ∈ e.queued, a.2 = .abandon → a.1 < b.1 → b.2 = .abandon
  pending : ∀ status, e.path.pendingLocalStatus = some status →
    status.1 = e.path.localStatusSequence ∧ status ∈ e.queued

/-- What an end has been told: the highest status it was delivered is the one it took over, unless
it was abandoned before. -/
structure Told (e : End) : Prop where
  highest : e.path.peerAbandoned = false → ∀ status ∈ e.delivered,
    status.1 ≤ e.path.peerStatusSequence
  taken : e.delivered = [] ∧ e.path.peerStatusSequence = 0 ∧ e.path.peerStandby = false ∧
    e.path.peerAbandoned = false ∨
    ∃ status ∈ e.delivered, status.1 = e.path.peerStatusSequence ∧
      e.path.peerStandby = decide (status.2 = .standby) ∧
        e.path.peerAbandoned = decide (status.2 = .abandon)
  abandoned : (∃ status ∈ e.delivered, status.2 = .abandon) → e.path.peerAbandoned = true

structure Inv (s : Ends) : Prop where
  queued : ∀ side, Queued (s side)
  told : ∀ side, Told (s side)
  sent : ∀ side, ∀ status ∈ (s side).delivered, status ∈ (s side.peer).queued

theorem fresh_inv (maxPacketSize : Nat) : Inv (fresh maxPacketSize) where
  queued := fun _ => ⟨.nil, nofun, nofun, nofun, nofun⟩
  told := fun _ => ⟨fun _ => nofun, .inl ⟨rfl, rfl, rfl, rfl⟩, nofun⟩
  sent := nofun

/-! ## Calls of an end -/

variable (path : PathState)

theorem updateRtt_status (sample nowUs : Nat) :
    statusFields (path.updateRtt sample nowUs) = statusFields path := by
  unfold updateRtt triggerEstimatorStep
  simp only
  split_ifs <;> rfl

/-- Only the first three calls touch the status fields. -/
theorem apply_status (op : LocalOp) :
    statusFields (op.apply path) = statusFields path ∨ (∃ status, op = .queueStatus status) ∨
      ∃ sequence, op = .acknowledgeStatus sequence := by
  cases op with
  | queueStatus status => exact .inr (.inl ⟨status, rfl⟩)
  | acknowledgeStatus sequence => exact .inr (.inr ⟨sequence, rfl⟩)
  | statusSent sequence retryAtUs =>
    left
    simp only [LocalOp.apply, statusSent]
    split_ifs <;> rfl
  | completeProbe token nowUs =>
    left
    simp only [LocalOp.apply, completeProbe]
    split
    · rfl
    split_ifs
    · rfl
    · exact updateRtt_status _ _ _
  | other path' =>
    left
    simp only [LocalOp.apply]
    split_ifs with heq
    · exact heq
    · rfl
  | _ => exact .inl rfl

theorem queueStatus_ok {path path' : PathState} {status : PathStatusKind}
    (h : path.queueStatus status = .ok path') : (path.locallyAbandoned = true → status = .abandon) ∧
      path'.localStatusSequence = path.localStatusSequence + 1 ∧
      path'.pendingLocalStatus = some (path.localStatusSequence + 1, status) ∧
      path'.locallyAbandoned = (path.locallyAbandoned || decide (status = .abandon)) ∧
      path'.peerStandby = path.peerStandby ∧ path'.peerAbandoned = path.peerAbandoned ∧
      path'.peerStatusSequence = path.peerStatusSequence := by
  unfold queueStatus at h
  split_ifs at h with hkey habandoned hbound hstatus
  · cases h
    simp [hstatus]
  cases h
  refine ⟨fun hlocal => ?_, rfl, rfl, by simp [hstatus], rfl, rfl, rfl⟩
  by_contra hne
  exact habandoned ⟨hlocal, hne⟩

theorem Queued.of_status {path : PathState} (h : Queued e)
    (hstatus : statusFields path = statusFields e.path) :
    Queued { e with path := path } := by
  have hsequence : path.localStatusSequence = e.path.localStatusSequence :=
    congrArg StatusFields.localStatusSequence hstatus
  have hpending : path.pendingLocalStatus = e.path.pendingLocalStatus :=
    congrArg StatusFields.pendingLocalStatus hstatus
  have hlocal : path.locallyAbandoned = e.path.locallyAbandoned :=
    congrArg StatusFields.locallyAbandoned hstatus
  refine ⟨h.increasing, ?_, ?_, h.last, ?_⟩
  · rw [hsequence]
    exact h.numbered
  · rw [hlocal]
    exact h.abandoned
  · rw [hsequence, hpending]
    exact h.pending

theorem Told.of_fields {e' : End} (h : Told e) (hdelivered : e'.delivered = e.delivered)
    (hstandby : e'.path.peerStandby = e.path.peerStandby)
    (habandoned : e'.path.peerAbandoned = e.path.peerAbandoned)
    (hsequence : e'.path.peerStatusSequence = e.path.peerStatusSequence) : Told e' := by
  refine ⟨?_, ?_, ?_⟩
  · rw [hdelivered, habandoned, hsequence]
    exact h.highest
  · rw [hdelivered, habandoned, hsequence, hstandby]
    exact h.taken
  · rw [hdelivered, habandoned]
    exact h.abandoned

theorem Queued.queueStatus (h : Queued e) {status : PathStatusKind} {path : PathState}
    (hqueue : e.path.queueStatus status = .ok path) :
    Queued { e with path := path, queued := e.queued ++ [(path.localStatusSequence, status)] } := by
  obtain ⟨hagain, hsequence, hpending, hlocal, -⟩ := queueStatus_ok hqueue
  refine ⟨?_, ?_, ?_, ?_, ?_⟩
  · rw [map_append, pairwise_append]
    refine ⟨h.increasing, pairwise_singleton _ _, ?_⟩
    intro old hold new hnew
    obtain ⟨status', hmem, rfl⟩ := mem_map.mp hold
    have := (h.numbered status' hmem).2
    simp only [map_singleton, mem_singleton] at hnew
    omega
  · intro status' hmem
    show 0 < status'.1 ∧ status'.1 ≤ path.localStatusSequence
    rcases mem_append.mp hmem with hold | hnew
    · have := h.numbered status' hold
      omega
    · rw [mem_singleton.mp hnew]
      exact ⟨by omega, le_refl _⟩
  · rintro ⟨status', hmem, habandon⟩
    show path.locallyAbandoned = true
    rw [hlocal]
    rcases mem_append.mp hmem with hold | hnew
    · rw [h.abandoned ⟨status', hold, habandon⟩, Bool.true_or]
    · rw [mem_singleton.mp hnew] at habandon
      simp [show status = .abandon from habandon]
  · intro a ha b hb habandon hlt
    rcases mem_append.mp hb with hb | hb
    · rcases mem_append.mp ha with ha | ha
      · exact h.last a ha b hb habandon hlt
      rw [mem_singleton.mp ha] at hlt
      have := (h.numbered b hb).2
      omega
    rw [mem_singleton.mp hb] at hlt ⊢
    rcases mem_append.mp ha with ha | ha
    · exact hagain (h.abandoned ⟨a, ha, habandon⟩)
    · rw [mem_singleton.mp ha] at hlt
      exact absurd hlt (lt_irrefl _)
  · intro status' hsome
    rw [hpending] at hsome
    cases hsome
    refine ⟨hsequence.symm, ?_⟩
    rw [hsequence]
    exact mem_append_right _ (mem_singleton_self _)

/-- An acknowledgement clears what is pending, or does nothing. -/
theorem acknowledgeStatus_cases (sequence : Nat) : path.acknowledgeStatus sequence = path ∨
      (∃ status, path.pendingLocalStatus = some (sequence, status)) ∧
        path.acknowledgeStatus sequence = { path with
          pendingLocalStatus := none, statusRetryAtUs := none } := by
  unfold acknowledgeStatus
  rcases hpending : path.pendingLocalStatus with _ | ⟨pending, status⟩
  · exact .inl rfl
  by_cases hown : pending = sequence
  · subst hown
    exact .inr ⟨⟨status, rfl⟩, by simp⟩
  · exact .inl (by simp [hown])

/-- Nothing that was queued is forgotten. -/
theorem queued_step (s : Ends) (action : Action) (h : status ∈ (s side).queued) :
    status ∈ (step s action side).queued := by
  cases action with
  | call other op =>
    simp only [step, update_apply]
    split_ifs with heq
    · exact mem_append_left _ (heq ▸ h)
    · exact h
  | deliver other status' =>
    simp only [step]
    split_ifs
    · simp only [update_apply]
      split_ifs with heq
      · exact heq ▸ h
      · exact h
    · exact h

theorem Inv.call (h : Inv s) (side : Side) (op : LocalOp) : Inv (step s (.call side op)) := by
  have hqueued : Queued (step s (.call side op) side) := by
    have hside := h.queued side
    simp only [step, update_self]
    by_cases hop : ∃ status, op = .queueStatus status
    · obtain ⟨status, rfl⟩ := hop
      cases hqueue : (s side).path.queueStatus status with
      | ok path =>
        simp only [LocalOp.apply, LocalOp.queues, hqueue]
        exact hside.queueStatus hqueue
      | error error =>
        simp only [LocalOp.apply, LocalOp.queues, hqueue, append_nil]
        exact hside
    have hnone : op.queues (s side).path = [] := by
      cases op with
      | queueStatus status => exact absurd ⟨status, rfl⟩ hop
      | _ => rfl
    rw [hnone, append_nil]
    rcases apply_status (s side).path op with hstatus | hqueue | ⟨sequence, rfl⟩
    · exact hside.of_status hstatus
    · exact absurd hqueue hop
    simp only [LocalOp.apply]
    rcases acknowledgeStatus_cases (s side).path sequence with hsame | ⟨-, hcleared⟩
    · rw [hsame]
      exact hside
    · rw [hcleared]
      exact ⟨hside.increasing, hside.numbered, hside.abandoned, hside.last, nofun⟩
  have htold : Told (step s (.call side op) side) := by
    simp only [step, update_self]
    rcases apply_status (s side).path op with hstatus | ⟨status, rfl⟩ | ⟨sequence, rfl⟩
    · exact (h.told side).of_fields rfl (congrArg StatusFields.peerStandby hstatus)
        (congrArg StatusFields.peerAbandoned hstatus)
          (congrArg StatusFields.peerStatusSequence hstatus)
    · cases hqueue : (s side).path.queueStatus status with
      | ok path =>
        obtain ⟨-, -, -, -, hstandby, habandoned, hsequence⟩ := queueStatus_ok hqueue
        simp only [LocalOp.apply, hqueue]
        exact (h.told side).of_fields rfl hstandby habandoned hsequence
      | error error =>
        simp only [LocalOp.apply, hqueue]
        exact (h.told side).of_fields rfl rfl rfl rfl
    · simp only [LocalOp.apply]
      rcases acknowledgeStatus_cases (s side).path sequence with hsame | ⟨-, hcleared⟩
      · rw [hsame]
        exact (h.told side).of_fields rfl rfl rfl rfl
      · rw [hcleared]
        exact (h.told side).of_fields rfl rfl rfl rfl
  have hother : ∀ {other : Side}, other ≠ side → step s (.call side op) other = s other := by
    intro other hne
    simp only [step, update_of_ne hne]
  refine ⟨fun other => ?_, fun other => ?_, fun other status hmem => ?_⟩
  · by_cases heq : other = side
    · rwa [heq]
    · rw [hother heq]
      exact h.queued other
  · by_cases heq : other = side
    · rwa [heq]
    · rw [hother heq]
      exact h.told other
  apply queued_step
  apply h.sent other
  by_cases heq : other = side
  · subst heq
    simpa only [step, update_self] using hmem
  · rwa [hother heq] at hmem

/-! ## Deliveries -/

theorem Queued.unique (h : Queued e) {a b : Status} (ha : a ∈ e.queued) (hb : b ∈ e.queued)
    (hsame : a.1 = b.1) : a = b := by
  have hinj := inj_on_of_nodup_map (h.increasing.imp fun hlt => ne_of_lt hlt)
  exact hinj ha hb hsame

theorem receiveStatus_cases (sequence : Nat) (status : PathStatusKind) :
    (sequence ≤ path.peerStatusSequence ∨ path.peerAbandoned = true) ∧
      path.receiveStatus sequence status = path ∨
      path.peerStatusSequence < sequence ∧ path.peerAbandoned = false ∧
        path.receiveStatus sequence status = { path with
          peerStatusSequence := sequence
          peerStandby := decide (status = .standby)
          peerAbandoned := decide (status = .abandon) } := by
  unfold receiveStatus
  split_ifs with hold
  · exact .inl ⟨hold, rfl⟩
  rw [not_or, Nat.not_le, Bool.not_eq_true] at hold
  right
  refine ⟨hold.1, hold.2, ?_⟩
  cases status <;> simp [hold.2]

theorem Told.receive {peer : End} (h : Told e) (hqueued : Queued peer)
    (hsent : ∀ status ∈ e.delivered, status ∈ peer.queued) (hstatus : status ∈ peer.queued) :
    Told { e with
      path := e.path.receiveStatus status.1 status.2, delivered := e.delivered ++ [status] } := by
  rcases receiveStatus_cases e.path status.1 status.2 with ⟨hold, hsame⟩ | ⟨hnew, hopen, hpath⟩
  · rw [hsame]
    refine ⟨fun hopen status' hmem => ?_, ?_, ?_⟩
    · rcases mem_append.mp hmem with hmem | hmem
      · exact h.highest hopen status' hmem
      · rw [mem_singleton.mp hmem]
        exact hold.resolve_right (by rw [show e.path.peerAbandoned = false from hopen]; exact nofun)
    · rcases h.taken with ⟨hnone, hzero, hstandby, habandoned⟩ | ⟨status', hmem, htaken⟩
      · -- nothing was taken over before, and sequences start at one
        rw [habandoned] at hold
        have := (hqueued.numbered status hstatus).1
        rcases hold with hold | hold
        · omega
        · cases hold
      · exact .inr ⟨status', mem_append_left _ hmem, htaken⟩
    · rintro ⟨status', hmem, habandon⟩
      rcases mem_append.mp hmem with hmem | hmem
      · exact h.abandoned ⟨status', hmem, habandon⟩
      rw [mem_singleton.mp hmem] at habandon
      by_contra hopen
      rw [Bool.not_eq_true] at hopen
      have hle : status.1 ≤ e.path.peerStatusSequence := by
        rw [hopen] at hold
        exact hold.resolve_right nofun
      -- the status taken over has at least this sequence, so it is an abandonment as well
      rcases h.taken with ⟨-, hzero, -⟩ | ⟨taken, hmem, hsequence, -, htaken⟩
      · have := (hqueued.numbered status hstatus).1
        omega
      rw [hopen] at htaken
      have hkind : taken.2 = .abandon := by
        rcases lt_or_ge status.1 taken.1 with hlt | hge
        · exact hqueued.last status hstatus taken (hsent taken hmem) habandon hlt
        · rw [hqueued.unique (hsent taken hmem) hstatus (by omega)]
          exact habandon
      exact of_decide_eq_false htaken.symm hkind
  · rw [hpath]
    refine ⟨fun _ status' hmem =>
      ?_, .inr ⟨status, mem_append_right _ (mem_singleton_self _), rfl, rfl, rfl⟩, ?_⟩
    · show status'.1 ≤ status.1
      rcases mem_append.mp hmem with hmem | hmem
      · exact (h.highest hopen status' hmem).trans hnew.le
      · rw [mem_singleton.mp hmem]
    rintro ⟨status', hmem, habandon⟩
    rcases mem_append.mp hmem with hmem | hmem
    · have := h.abandoned ⟨status', hmem, habandon⟩
      rw [hopen] at this
      cases this
    · rw [mem_singleton.mp hmem] at habandon
      exact decide_eq_true habandon

theorem Queued.receive (h : Queued e) (status : Status) (delivered : List Status) :
    Queued { e with path := e.path.receiveStatus status.1 status.2, delivered := delivered } := by
  rcases receiveStatus_cases e.path status.1 status.2 with ⟨-, hsame⟩ | ⟨-, -, hpath⟩
  · rw [hsame]
    exact ⟨h.increasing, h.numbered, h.abandoned, h.last, h.pending⟩
  · rw [hpath]
    exact ⟨h.increasing, h.numbered, h.abandoned, h.last, h.pending⟩

theorem Inv.deliver (h : Inv s) (side : Side) (status : Status) :
    Inv (step s (.deliver side status)) := by
  simp only [step]
  split_ifs with hstatus
  · refine ⟨fun other => ?_, fun other => ?_, fun other => ?_⟩
    · by_cases heq : other = side
      · subst heq
        rw [update_self]
        exact (h.queued other).receive status _
      · rw [update_of_ne heq]
        exact h.queued other
    · by_cases heq : other = side
      · subst heq
        rw [update_self]
        exact (h.told other).receive (h.queued other.peer) (h.sent other) hstatus
      · rw [update_of_ne heq]
        exact h.told other
    · intro status' hmem
      have hqueued : ∀ any : Side, (update s side { s side with
          path := (s side).path.receiveStatus status.1 status.2
          delivered := (s side).delivered ++ [status] } any).queued = (s any).queued := by
        intro any
        by_cases heq : any = side
        · subst heq
          rw [update_self]
        · rw [update_of_ne heq]
      rw [hqueued]
      by_cases heq : other = side
      · subst heq
        rw [update_self] at hmem
        rcases mem_append.mp hmem with hmem | hmem
        · exact h.sent other status' hmem
        · rw [mem_singleton.mp hmem]
          exact hstatus
      · rw [update_of_ne heq] at hmem
        exact h.sent other status' hmem
  · exact h

theorem Inv.step (h : Inv s) (action : Action) : Inv (step s action) := by
  cases action with
  | call => exact h.call ..
  | deliver => exact h.deliver ..

theorem exec_of_inv (h : Inv s) (actions : List Action) :
    Inv (Runs.exec Circuit.step s actions) := by
  induction actions generalizing s with
  | nil => exact h
  | cons action actions ih => exact ih (h.step action)

theorem exec_inv (maxPacketSize : Nat) (actions : List Action) :
    Inv (Runs.exec Circuit.step (fresh maxPacketSize) actions) :=
  exec_of_inv (fresh_inv maxPacketSize) actions

/-! ## Statuses converge -/

/-- What an end was told is what it holds: abandoned if it was ever told so, and else the highest
status. -/
structure Converged (e : End) : Prop where
  abandoned : (∃ status ∈ e.delivered, status.2 = .abandon) →
    e.path.peerAbandoned = true ∧ e.path.peerStandby = false
  highest : (∀ status ∈ e.delivered, status.2 ≠ .abandon) → ∀ status ∈ e.delivered,
    (∀ other ∈ e.delivered, other.1 ≤ status.1) →
      e.path.peerAbandoned = false ∧ e.path.peerStandby = decide (status.2 = .standby)
  nothing : e.delivered = [] → e.path.peerAbandoned = false ∧ e.path.peerStandby = false

theorem Inv.converged (h : Inv s) (side : Side) : Converged (s side) where
  abandoned := by
    intro habandon
    have habandoned := (h.told side).abandoned habandon
    refine ⟨habandoned, ?_⟩
    rcases (h.told side).taken with ⟨-, -, hstandby, -⟩ | ⟨status, -, -, hstandby, htaken⟩
    · exact hstandby
    rw [habandoned] at htaken
    rw [hstandby, of_decide_eq_true htaken.symm]
    rfl
  highest := by
    intro hopen status hmem hmax
    rcases (h.told side).taken with ⟨hnone, -⟩ | ⟨taken, htaken, hsequence, hstandby, habandoned⟩
    · rw [hnone] at hmem
      cases hmem
    have hpeer : (s side).path.peerAbandoned = false := by
      rw [habandoned]
      exact decide_eq_false (hopen taken htaken)
    have hle := (h.told side).highest hpeer status hmem
    have hge := hmax taken htaken
    have hsame : status = taken :=
      (h.queued side.peer).unique (h.sent side status hmem) (h.sent side taken htaken) (by omega)
    rw [hsame]
    exact ⟨hpeer, hstandby⟩
  nothing := by
    intro hnone
    rcases (h.told side).taken with ⟨-, -, hstandby, habandoned⟩ | ⟨status, hmem, -⟩
    · exact ⟨habandoned, hstandby⟩
    · rw [hnone] at hmem
      cases hmem

/-- An abandoned path takes no other status, and carries neither data nor probes. -/
structure Abandoned (path : PathState) : Prop where
  status : ∀ status, status ≠ .abandon → path.queueStatus status = .error .invalid
  data : path.isUsableForData = false
  probes : path.isProbeEligible = false

theorem abandoned_of_local {path : PathState} (h : path.locallyAbandoned = true) :
    Abandoned path where
  status := by
    intro status hne
    unfold queueStatus
    split_ifs with hkey hagain hbound
    · rfl
    · rfl
    · exact absurd ⟨h, hne⟩ hagain
    · exact absurd ⟨h, hne⟩ hagain
  data := by simp [isUsableForData, h]
  probes := by simp [isProbeEligible, h]

theorem queued_exec (s : Ends) (actions : List Action) (h : status ∈ (s side).queued) :
    status ∈ (Runs.exec Circuit.step s actions side).queued := by
  induction actions generalizing s with
  | nil => exact h
  | cons action actions ih => exact ih _ (queued_step s action h)

/-- A pending status is cleared by the acknowledgement of its own sequence, and replaced by a later
one. -/
theorem Inv.pending_step (h : Inv s)
    (hpending : (s side).path.pendingLocalStatus = some status) (action : Action) :
    status.1 = (s side).path.localStatusSequence ∧
      ((Circuit.step s action side).path.pendingLocalStatus = none →
        action = .call side (.acknowledgeStatus status.1)) ∧
      ∀ next, (Circuit.step s action side).path.pendingLocalStatus = some next →
        next = status ∨ status.1 < next.1 := by
  have hlatest := ((h.queued side).pending status hpending).1
  refine ⟨hlatest, ?_⟩
  -- as long as the status stays pending there is nothing to show
  have hsame : (Circuit.step s action side).path.pendingLocalStatus = some status →
      ((Circuit.step s action side).path.pendingLocalStatus = none →
        action = .call side (.acknowledgeStatus status.1)) ∧
      ∀ next, (Circuit.step s action side).path.pendingLocalStatus = some next →
        next = status ∨ status.1 < next.1 := by
    intro hstill
    rw [hstill]
    exact ⟨nofun, fun next hnext => .inl (some.inj hnext).symm⟩
  cases action with
  | deliver other status' =>
    apply hsame
    simp only [Circuit.step]
    split_ifs
    · simp only [update_apply]
      split_ifs with heq
      · subst heq
        rcases receiveStatus_cases (s side).path status'.1 status'.2 with ⟨-, hpath⟩ | ⟨-, -, hpath⟩
        · simp only [hpath, hpending]
        · simp only [hpath, hpending]
      · exact hpending
    · exact hpending
  | call other op =>
    by_cases heq : side = other
    · subst heq
      simp only [Circuit.step, update_self] at hsame ⊢
      rcases apply_status (s side).path op with hstatus | ⟨status', rfl⟩ | ⟨sequence, rfl⟩
      · apply hsame
        exact (congrArg StatusFields.pendingLocalStatus hstatus).trans hpending
      · cases hqueue : (s side).path.queueStatus status' with
        | ok path =>
          obtain ⟨-, -, hnext, -⟩ := queueStatus_ok hqueue
          simp only [LocalOp.apply, hqueue, Except.toOption, getD_some, hnext]
          refine ⟨nofun, fun next heq => .inr ?_⟩
          rw [← some.inj heq, hlatest]
          exact lt_succ_self _
        | error error =>
          apply hsame
          simp only [LocalOp.apply, hqueue, Except.toOption, getD_none, hpending]
      · rcases acknowledgeStatus_cases (s side).path sequence with hpath | ⟨⟨kind, hown⟩, hpath⟩
        · apply hsame
          simp only [LocalOp.apply, hpath, hpending]
        rw [hpending] at hown
        simp only [LocalOp.apply, hpath]
        refine ⟨fun _ => ?_, nofun⟩
        rw [some.inj hown]
    · apply hsame
      simp only [Circuit.step, update_of_ne heq]
      exact hpending

/-- Over every run of the two ends, in any order of deliveries. -/
theorem statuses_converge (maxPacketSize : Nat) (actions : List Action) (side : Side) :
    ((Runs.exec Circuit.step (fresh maxPacketSize) actions side).queued.map Prod.fst).Pairwise
      (· < ·) ∧
      Converged (Runs.exec Circuit.step (fresh maxPacketSize) actions side) ∧
      (∀ status ∈ (Runs.exec Circuit.step (fresh maxPacketSize) actions side).queued,
        status.2 = .abandon →
        ∀ later, Abandoned
          (Runs.exec Circuit.step (Runs.exec Circuit.step (fresh maxPacketSize) actions) later
            side).path) ∧
      ∀ status, (Runs.exec Circuit.step (fresh maxPacketSize) actions
        side).path.pendingLocalStatus = some status →
        ∀ action, status.1 = (Runs.exec Circuit.step (fresh maxPacketSize) actions
          side).path.localStatusSequence ∧
          ((step (Runs.exec Circuit.step (fresh maxPacketSize) actions) action
            side).path.pendingLocalStatus = none →
            action = .call side (.acknowledgeStatus status.1)) ∧
          ∀ next, (step (Runs.exec Circuit.step (fresh maxPacketSize) actions) action
            side).path.pendingLocalStatus =
            some next → next = status ∨ status.1 < next.1 := by
  have hinv := exec_inv maxPacketSize actions
  refine ⟨(hinv.queued side).increasing, hinv.converged side, fun status hmem habandon later => ?_,
    fun status hpending action => hinv.pending_step hpending action⟩
  have hlater : Inv (Runs.exec Circuit.step (Runs.exec Circuit.step (fresh maxPacketSize) actions)
      later) :=
    exec_of_inv hinv later
  apply abandoned_of_local
  exact (hlater.queued side).abandoned ⟨status, queued_exec _ later hmem, habandon⟩

end Circuit

end QuicLite

import QuicLite.Lib.Runs
import QuicLite.Mesh.PathBuilder

/-!
# Tracked routes

A use is tracked from the setup that opens a route until the runtime reports the end of its circuit
or of its association. The table of tracked uses is small, so a use that nothing removes costs a
route for good.
-/

namespace QuicLite.Mesh

open List

/-! ## Runs -/

/-- The builder, with everything the runtime has reported as ended. -/
structure Planner where
  builder : PathBuilder
  finished : List QuicAssociation
  closedCircuits : List CircuitId

def Planner.new (hopCostUs : Nat) : Planner := ⟨.new hopCostUs, [], []⟩

/-- The association that the event reports as closed, reset, timed out or retired. -/
def AssociationEvent.finishes : AssociationEvent → List QuicAssociation
  | .closed association _ | .reset association | .idleTimeout association
    | .setupTimeout association => [association]
  | .setupRejected association _ true _ => [association]
  | _ => []

def AssociationEvent.closesCircuit : AssociationEvent → List CircuitId
  | .circuitClosed _ circuit => [circuit]
  | _ => []

inductive PlannerOp (A C E : Type) where
  | mergeHint (hint : RelayPathHint) (nowUs : Nat)
  | create (runtime : CircuitRuntime A C E) (request : RouteRequest) (address : PacketMeta)
      (returnHints : NearbyRelayHints)
  | join (runtime : CircuitRuntime A C E) (request : RouteRequest) (association : A)
      (address : PacketMeta)
  | observe (event : AssociationEvent) (nowUs : Nat)
  | recover (runtime : CircuitRuntime QuicAssociation CircuitId E) (event : AssociationEvent)
      (address : PacketMeta) (returnHints : NearbyRelayHints) (nowUs : Nat)

namespace Planner

variable {A C E : Type}

/-- What an event reports is known from then on. -/
def report (self : Planner) (event : AssociationEvent) (builder : PathBuilder) : Planner :=
  ⟨builder, self.finished ++ event.finishes, self.closedCircuits ++ event.closesCircuit⟩

def step (self : Planner) : PlannerOp A C E → Planner
  | .mergeHint hint nowUs => { self with builder := (self.builder.mergeHint hint nowUs).1 }
  | .create runtime request address returnHints =>
    { self with builder := (self.builder.create runtime request address returnHints).1 }
  | .join runtime request association address =>
    { self with builder := (self.builder.join runtime request association address).1 }
  | .observe event nowUs => self.report event (self.builder.observeEvent event nowUs).1
  | .recover runtime event address returnHints nowUs =>
    self.report event (self.builder.recoverEvent runtime event address returnHints nowUs).1

end Planner

/-! ## The specification -/

section Spec

variable {A C E : Type}

/-- A use is the one attempt to open an association, or the one use of a circuit. -/
def RouteUse.identity (self : RouteUse) : QuicAssociation ⊕ CircuitId :=
  self.circuit.elim (.inl self.association) .inr

/-- No capacity is lost. -/
structure Tracks (s : Planner) : Prop where
  live : ∀ routeUse ∈ s.builder.routeUses, routeUse.association ∉ s.finished
  notClosed : ∀ routeUse ∈ s.builder.routeUses, ∀ circuit, routeUse.circuit = some circuit →
    circuit ∉ s.closedCircuits
  distinct : (s.builder.routeUses.map RouteUse.identity).Nodup
  bound : s.builder.routeUses.length ≤ maxTrackedRouteUses
  createFull : ∀ (A C E : Type) (runtime : CircuitRuntime A C E) request address returnHints,
    (s.builder.create runtime request address returnHints).2 = .error .trackingCapacity →
      (s.builder.routeUses.map RouteUse.identity).length = maxTrackedRouteUses
  joinFull : ∀ (A C E : Type) (runtime : CircuitRuntime A C E) request association address,
    (s.builder.join runtime request association address).2 = .error .trackingCapacity →
      (s.builder.routeUses.map RouteUse.identity).length = maxTrackedRouteUses

/-- A handle of an association that was opened just now is new. -/
def FreshAssociation (s : Planner) (association : QuicAssociation) : Prop :=
  association ∉ s.finished ∧ ∀ routeUse ∈ s.builder.routeUses, routeUse.association ≠ association

/-- A circuit is opened on a live association, and its handle is new. -/
def FreshCircuit (s : Planner) (association : QuicAssociation) (circuit : CircuitId) : Prop :=
  association ∉ s.finished ∧ circuit ∉ s.closedCircuits ∧
    ∀ routeUse ∈ s.builder.routeUses, routeUse.circuit ≠ some circuit

/-- What the runtime promises: the handles of a setup that succeeds are new. -/
def Promised (s : Planner) : PlannerOp A C E → Prop
  | .create runtime request address returnHints =>
    ∀ association route handle, (s.builder.create runtime request address returnHints).2 =
      .ok (association, route) →
      runtime.quicAssociation association = some handle → FreshAssociation s handle
  | .join runtime request association address =>
    ∀ circuit route associationHandle circuitHandle,
      (s.builder.join runtime request association address).2 = .ok (circuit, route) →
        runtime.quicAssociation association = some associationHandle →
          runtime.quicCircuit circuit = some circuitHandle →
          FreshCircuit s associationHandle circuitHandle
  | .recover runtime event address returnHints nowUs =>
    let observed := s.report event (s.builder.observeEvent event nowUs).1
    (∀ failure association route handle,
      (s.builder.recoverEvent runtime event address returnHints nowUs).2 =
        .ok (.created failure association route) →
        runtime.quicAssociation association = some handle → FreshAssociation observed handle) ∧
      ∀ failure circuit route associationHandle circuitHandle,
        (s.builder.recoverEvent runtime event address returnHints nowUs).2 =
          .ok (.joined failure circuit route) →
          runtime.quicAssociation failure.association = some associationHandle →
            runtime.quicCircuit circuit = some circuitHandle →
              FreshCircuit observed associationHandle circuitHandle
  | .mergeHint _ _ | .observe _ _ => True

/-- The event of a CREATE that failed, which nothing follows. -/
def AssociationEvent.retires : AssociationEvent → Option QuicAssociation
  | .setupTimeout association => some association
  | .setupRejected association _ true _ => some association
  | _ => none

/-- No CREATE of a tracked use fails, and a circuit that is opened for a waiting use is neither
tracked nor closed. -/
structure Released (s : Planner) (event : AssociationEvent) : Prop where
  retired : ∀ association, event.retires = some association →
    ∀ routeUse ∈ s.builder.routeUses, routeUse.association ≠ association
  opened : ∀ association circuit, event = .circuitOpened association circuit →
    ∀ waiting ∈ s.builder.routeUses, waiting.association = association → waiting.circuit = none →
      circuit ∉ s.closedCircuits ∧ ∀ routeUse ∈ s.builder.routeUses, routeUse.circuit ≠ some circuit

/-- The condition on an operation, for the event that it observes. -/
def Releases (s : Planner) : PlannerOp A C E → Prop
  | .observe event _ | .recover _ event _ _ _ => Released s event
  | .mergeHint _ _ | .create _ _ _ _ | .join _ _ _ _ => True

end Spec

/-! ## What the operations do to the tracked uses -/

namespace PathBuilder

variable {self : PathBuilder} {A C E : Type} {α : Type}

/-- What no result or status changes: whose circuit it is. -/
def key (routeUse : RouteUse) : QuicAssociation × Option CircuitId :=
  (routeUse.association, routeUse.circuit)

def keys (self : PathBuilder) : List (QuicAssociation × Option CircuitId) := self.routeUses.map key

theorem map_modifyFirst {β : Type} {g : RouteUse → β} {f : RouteUse → RouteUse}
    (h : ∀ routeUse, g (f routeUse) = g routeUse) (p : RouteUse → Bool) (uses : List RouteUse) :
    (modifyFirst p f uses).map g = uses.map g := by
  induction uses with
  | nil => rfl
  | cons routeUse rest ih =>
    unfold modifyFirst
    split
    · simp [h]
    · simp [ih]

theorem recordRelayResult_routeUses (routeUse : RouteUse) (succeeded : Bool) (self : PathBuilder)
    (relayId : RelayId) :
    (recordRelayResult routeUse succeeded self relayId).routeUses = self.routeUses := by
  unfold recordRelayResult
  split
  · rfl
  split
  · rfl
  split
  · rfl
  · rfl

@[simp] theorem recordRouteUseResult_routeUses (self : PathBuilder) (routeUse : RouteUse)
    (succeeded : Bool) :
    (self.recordRouteUseResult routeUse succeeded).routeUses = self.routeUses := by
  have hfold : ∀ (relayIds : List RelayId) (builder : PathBuilder),
      (relayIds.foldl (recordRelayResult routeUse succeeded) builder).routeUses =
        builder.routeUses := by
    intro relayIds
    induction relayIds with
    | nil => exact fun _ => rfl
    | cons relayId relayIds ih =>
      intro builder
      rw [foldl_cons, ih, recordRelayResult_routeUses]
  unfold recordRouteUseResult
  split
  · rfl
  · exact hfold _ _

theorem modifyUse_keys (p : RouteUse → Bool) (f : RouteUse → RouteUse)
    (hf : ∀ routeUse, key (f routeUse) = key routeUse) :
    (self.modifyUse p f).keys = self.keys := map_modifyFirst hf p self.routeUses

theorem recordRouteUseResult_keys (self : PathBuilder) (routeUse : RouteUse) (succeeded : Bool) :
    (self.recordRouteUseResult routeUse succeeded).keys = self.keys := by
  rw [keys, recordRouteUseResult_routeUses, keys]

theorem failRouteUse_keys (p : RouteUse → Bool) (routeUse : RouteUse) (nowUs : Nat)
    (associationRetired : Bool) :
    (self.failRouteUseWithLifecycle p routeUse nowUs associationRetired).1.keys = self.keys := by
  unfold failRouteUseWithLifecycle
  split
  · rfl
  · dsimp only
    rw [recordRouteUseResult_keys, modifyUse_keys p RouteUse.markFailed fun _ => rfl]

/-- A status changes flags only. -/
theorem circuitStatusChanged_keys (circuit : CircuitId) (routeUse : RouteUse) (nowUs : Nat)
    (status : CircuitStatus) :
    (self.circuitStatusChanged circuit routeUse nowUs status).1.keys = self.keys := by
  cases status with
  | failed => exact failRouteUse_keys _ _ _ _
  | suspended | probing | opening | closed => exact modifyUse_keys _ RouteUse.markUnhealthy fun _ =>
    rfl
  | active | standby =>
    unfold circuitStatusChanged
    dsimp only
    split
    · rw [recordRouteUseResult_keys, modifyUse_keys _ RouteUse.markHealthy fun _ => rfl]
    · exact modifyUse_keys _ RouteUse.markHealthy fun _ => rfl

/-- The hints are not about the uses. -/
theorem mergeHint_routeUses (hint : RelayPathHint) (nowUs : Nat) :
    (self.mergeHint hint nowUs).1.routeUses = self.routeUses := by
  unfold mergeHint
  split
  · rfl
  split
  · rfl
  dsimp only
  split
  · rfl
  split
  · rfl
  split
  · rfl
  · rfl

/-- No setup answers that the table is full. -/
theorem firstSetup_ne_capacity (request : RouteRequest)
    (setup : Nat → RelayPathHint → SelectedRoute → Except E α) (calls : Nat)
    (candidates : List SelectedRoute) (last : Option (SelectedRoute × E))
    (unsupported : Option SelectedRoute) :
    self.firstSetup request setup calls candidates last unsupported ≠ .error .trackingCapacity := by
  induction candidates generalizing calls last unsupported with
  | nil =>
    unfold firstSetup
    cases last <;> cases unsupported <;> simp
  | cons candidate rest ih =>
    unfold firstSetup
    split
    · exact ih _ _ _
    split
    · exact ih _ _ _
    split
    · simp
    · exact ih _ _ _

/-- A setup that succeeds follows a hint of the table. -/
theorem firstSetup_ok {request : RouteRequest}
    {setup : Nat → RelayPathHint → SelectedRoute → Except E α} {calls : Nat}
    {candidates : List SelectedRoute} {last : Option (SelectedRoute × E)}
    {unsupported : Option SelectedRoute} {handle : α} {hint : RelayPathHint} {route : SelectedRoute}
    (h : self.firstSetup request setup calls candidates last unsupported =
      .ok (handle, hint, route)) : hint ∈ self.hints := by
  induction candidates generalizing calls last unsupported with
  | nil =>
    unfold firstSetup at h
    cases last <;> cases unsupported <;> simp at h
  | cons candidate rest ih =>
    unfold firstSetup at h
    split at h
    · exact ih h
    next found hfound =>
      split at h
      · exact ih h
      split at h
      · cases h
        exact mem_of_find?_eq_some hfound
      · exact ih h

/-- A CREATE leaves the builder alone, or tracks the association it opened. -/
theorem create_cases (runtime : CircuitRuntime A C E) (request : RouteRequest)
    (address : PacketMeta) (returnHints : NearbyRelayHints) :
    (self.create runtime request address returnHints).1 = self ∨
      ∃ association route handle hint, (self.create runtime request address returnHints).2 =
        .ok (association, route) ∧
          runtime.quicAssociation association = some handle ∧
            self.routeUses.length ≠ maxTrackedRouteUses ∧
            hint ∈ self.hints ∧ (self.create runtime request address returnHints).1 =
              self.track handle none true hint route := by
  unfold create
  split
  · exact .inl rfl
  split
  · exact .inl rfl
  next hroom =>
    dsimp only
    split
    · exact .inl rfl
    next association hint route hsetup =>
      cases hhandle : runtime.quicAssociation association with
      | none => exact .inl rfl
      | some handle =>
        exact .inr ⟨association, route, handle, hint, rfl, hhandle, hroom,
          firstSetup_ok hsetup, rfl⟩

theorem create_full {runtime : CircuitRuntime A C E} {request : RouteRequest} {address : PacketMeta}
    {returnHints : NearbyRelayHints}
    (h : (self.create runtime request address returnHints).2 = .error .trackingCapacity) :
    self.routeUses.length = maxTrackedRouteUses := by
  unfold create at h
  split at h
  · cases h
  split at h
  · next hfull => exact hfull
  dsimp only at h
  split at h
  · next e hsetup =>
      cases h
      exact absurd hsetup (firstSetup_ne_capacity _ _ _ _ _ _)
  · cases h

theorem join_cases (runtime : CircuitRuntime A C E) (request : RouteRequest) (association : A)
    (address : PacketMeta) : (self.join runtime request association address).1 = self ∨
      ∃ circuit route associationHandle circuitHandle hint,
        (self.join runtime request association address).2 = .ok (circuit, route) ∧
          runtime.quicAssociation association = some associationHandle ∧
            runtime.quicCircuit circuit = some circuitHandle ∧
            self.routeUses.length ≠ maxTrackedRouteUses ∧ hint ∈ self.hints ∧
              (self.join runtime request association address).1 =
                self.track associationHandle (some circuitHandle) false hint route := by
  unfold join
  split
  · exact .inl rfl
  split
  · exact .inl rfl
  next hroom =>
    dsimp only
    split
    · exact .inl rfl
    next circuit hint route hsetup =>
      cases hassociation : runtime.quicAssociation association with
      | none => exact .inl rfl
      | some associationHandle =>
        cases hcircuit : runtime.quicCircuit circuit with
        | none => exact .inl rfl
        | some circuitHandle =>
          exact .inr ⟨circuit, route, associationHandle, circuitHandle, hint, rfl, rfl, hcircuit,
            hroom, firstSetup_ok hsetup, rfl⟩

theorem join_full {runtime : CircuitRuntime A C E} {request : RouteRequest} {association : A}
    {address : PacketMeta} (h : (self.join runtime request association address).2 =
      .error .trackingCapacity) :
    self.routeUses.length = maxTrackedRouteUses := by
  unfold join at h
  split at h
  · cases h
  split at h
  · next hfull => exact hfull
  dsimp only at h
  split at h
  · next e hsetup =>
      cases h
      exact absurd hsetup (firstSetup_ne_capacity _ _ _ _ _ _)
  · cases h

theorem recover_cases (runtime : CircuitRuntime QuicAssociation CircuitId E)
    (event : AssociationEvent) (address : PacketMeta) (returnHints : NearbyRelayHints)
    (nowUs : Nat) : (self.recoverEvent runtime event address returnHints nowUs).1 =
      (self.observeEvent event nowUs).1 ∨
      (∃ failure request, (self.recoverEvent runtime event address returnHints nowUs).1 =
            ((self.observeEvent event nowUs).1.create runtime request address returnHints).1 ∧
          ∀ association route,
            ((self.observeEvent event nowUs).1.create runtime request address returnHints).2 =
              .ok (association, route) →
              (self.recoverEvent runtime event address returnHints nowUs).2 =
                .ok (.created failure association route)) ∨
      ∃ failure request, (self.recoverEvent runtime event address returnHints nowUs).1 =
            ((self.observeEvent event nowUs).1.join runtime request failure.association address).1 ∧
          ∀ circuit route,
            ((self.observeEvent event nowUs).1.join runtime request failure.association address).2 =
              .ok (circuit, route) →
              (self.recoverEvent runtime event address returnHints nowUs).2 =
                .ok (.joined failure circuit route) := by
  unfold recoverEvent
  dsimp only
  split
  · next failure houtcome =>
      split
      · exact .inl rfl
      next replacement hreplacement =>
        split
        · refine .inr (.inl ⟨failure, _, rfl, fun association route hresult => ?_⟩)
          rw [hresult]
          rfl
        refine .inr (.inr ⟨failure, _, rfl, fun circuit route hresult => ?_⟩)
        rw [hresult]
        rfl
  · exact .inl rfl

/-- The use that is modified, and the uses around it. -/
theorem modifyFirst_split {p : RouteUse → Bool} (f : RouteUse → RouteUse) {uses : List RouteUse}
    {routeUse : RouteUse} (h : uses.find? p = some routeUse) :
    ∃ before after, uses = before ++ routeUse :: after ∧ p routeUse = true ∧
      modifyFirst p f uses = before ++ f routeUse :: after ∧ uses.eraseP p = before ++ after := by
  induction uses with
  | nil => cases h
  | cons first rest ih =>
    rw [find?_cons] at h
    cases hfirst : p first with
    | true =>
      rw [hfirst] at h
      cases h
      exact ⟨[], rest, rfl, hfirst, by rw [modifyFirst, if_pos hfirst]; rfl,
        by rw [eraseP_cons_of_pos hfirst]; rfl⟩
    | false =>
      rw [hfirst] at h
      obtain ⟨before, after, rfl, hp, hmodify, herase⟩ := ih h
      refine ⟨first :: before, after, rfl, hp, ?_, ?_⟩
      · rw [modifyFirst, if_neg (by simp [hfirst]), hmodify]
        rfl
      · rw [eraseP_cons_of_neg (by simp [hfirst]), herase]
        rfl

theorem exists_find {p : α → Bool} {entries : List α} (h : entries.any p = true) :
    ∃ entry, entries.find? p = some entry := by
  obtain ⟨entry, hentry, hp⟩ := any_eq_true.mp h
  exact Option.isSome_iff_exists.mp (find?_isSome.mpr ⟨entry, hentry, hp⟩)

end PathBuilder

/-! ## The invariant -/

open PathBuilder

/-- The identity of a use depends on its key only. -/
def identityOf (key : QuicAssociation × Option CircuitId) : QuicAssociation ⊕ CircuitId :=
  key.2.elim (.inl key.1) .inr

theorem map_identity (builder : PathBuilder) :
    builder.routeUses.map RouteUse.identity = builder.keys.map identityOf := by
  rw [PathBuilder.keys, map_map]
  rfl

/-- Whose circuits are tracked, against what has been reported. -/
structure KeysInv (keys : List (QuicAssociation × Option CircuitId))
    (finished : List QuicAssociation) (closedCircuits : List CircuitId) : Prop where
  live : ∀ key ∈ keys, key.1 ∉ finished
  notClosed : ∀ key ∈ keys, ∀ circuit, key.2 = some circuit → circuit ∉ closedCircuits
  distinct : (keys.map identityOf).Nodup
  bound : keys.length ≤ maxTrackedRouteUses

def PlannerInv (s : Planner) : Prop := KeysInv s.builder.keys s.finished s.closedCircuits

namespace KeysInv

variable {tracked kept : List (QuicAssociation × Option CircuitId)}
    {finished : List QuicAssociation} {closedCircuits : List CircuitId}
variable {before after : List (QuicAssociation × Option CircuitId)} {circuit : CircuitId}

theorem nil (finished : List QuicAssociation) (closedCircuits : List CircuitId) :
    KeysInv [] finished closedCircuits :=
  ⟨by simp, by simp, nodup_nil, Nat.zero_le _⟩

/-- Uses may be dropped, and then what no remaining use has may be reported. -/
theorem sublist (h : KeysInv tracked finished closedCircuits) (hkept : kept.Sublist tracked)
    {ended : List QuicAssociation} {closed : List CircuitId} (hended : ∀ key ∈ kept, key.1 ∉ ended)
    (hclosed : ∀ key ∈ kept, ∀ circuit, key.2 = some circuit → circuit ∉ closed) :
    KeysInv kept (finished ++ ended) (closedCircuits ++ closed) := by
  refine ⟨fun key hkey => ?_, fun key hkey circuit hcircuit => ?_, ?_, ?_⟩
  · have hlive := h.live key (hkept.subset hkey)
    have := hended key hkey
    simp [hlive, this]
  · have hopen := h.notClosed key (hkept.subset hkey) circuit hcircuit
    have := hclosed key hkey circuit hcircuit
    simp [hopen, this]
  · exact h.distinct.sublist (hkept.map _)
  · exact Nat.le_trans hkept.length_le h.bound

variable {key : QuicAssociation × Option CircuitId}

theorem insert (h : KeysInv tracked finished closedCircuits)
    (hlive : key.1 ∉ finished) (hopen : ∀ circuit, key.2 = some circuit → circuit ∉ closedCircuits)
    (hnew : identityOf key ∉ tracked.map identityOf)
    (hroom : tracked.length ≠ maxTrackedRouteUses) :
    KeysInv (tracked ++ [key]) finished closedCircuits := by
  refine ⟨fun entry hentry => ?_, fun entry hentry circuit hcircuit => ?_, ?_, ?_⟩
  · rcases mem_append.mp hentry with hold | hlast
    · exact h.live entry hold
    · rw [mem_singleton.mp hlast]
      exact hlive
  · rcases mem_append.mp hentry with hold | hlast
    · exact h.notClosed entry hold circuit hcircuit
    · rw [mem_singleton.mp hlast] at hcircuit
      exact hopen circuit hcircuit
  · rw [map_append]
    exact nodup_append.mpr ⟨h.distinct, nodup_singleton _, by
      rintro x hx y hy rfl
      rw [mem_singleton.mp hy] at hx
      exact hnew hx⟩
  · have := h.bound
    rw [length_append, length_singleton]
    omega

theorem assign {association : QuicAssociation}
    (h : KeysInv (before ++ key :: after) finished closedCircuits) (hkey : key.1 = association)
    (hopen : circuit ∉ closedCircuits)
    (hnew : ∀ entry ∈ before ++ key :: after, entry.2 ≠ some circuit) :
    KeysInv (before ++ (association, some circuit) :: after) finished closedCircuits := by
  have hmid : key ∈ before ++ key :: after := mem_append_right _ mem_cons_self
  have hothers : ∀ entry, entry ∈ before ++ after → entry ∈ before ++ key :: after := by
    intro entry hentry
    rcases mem_append.mp hentry with hold | hold
    · exact mem_append_left _ hold
    · exact mem_append_right _ (mem_cons_of_mem _ hold)
  have hcases : ∀ entry, entry ∈ before ++ (association, some circuit) :: after →
      entry = (association, some circuit) ∨ entry ∈ before ++ after := by
    intro entry hentry
    rcases mem_append.mp hentry with hold | hold
    · exact .inr (mem_append_left _ hold)
    rcases mem_cons.mp hold with hnow | hold
    · exact .inl hnow
    · exact .inr (mem_append_right _ hold)
  refine ⟨fun entry hentry => ?_, fun entry hentry c hc => ?_, ?_, ?_⟩
  · rcases hcases entry hentry with rfl | hold
    · exact hkey ▸ h.live key hmid
    · exact h.live entry (hothers entry hold)
  · rcases hcases entry hentry with rfl | hold
    · cases hc
      exact hopen
    · exact h.notClosed entry (hothers entry hold) c hc
  · have hdistinct := h.distinct
    rw [map_append] at hdistinct ⊢
    have hrest := (nodup_middle.mp hdistinct).of_cons
    refine nodup_middle.mpr (nodup_cons.mpr ⟨fun hmem => ?_, hrest⟩)
    rw [← map_append] at hmem
    obtain ⟨entry, hentry, hsame⟩ := mem_map.mp hmem
    have hcircuit : entry.2 = some circuit := by
      cases hentry2 : entry.2 with
      | none => simp [identityOf, hentry2] at hsame
      | some c => simpa [identityOf, hentry2] using hsame
    exact hnew entry (hothers entry hentry) hcircuit
  · have := h.bound
    simpa using this

/-- Behind the removed use of a circuit there is no other use of it. -/
theorem erase (h : KeysInv (before ++ key :: after) finished closedCircuits)
    (hkey : key.2 = some circuit) :
    KeysInv (before ++ after) (finished ++ []) (closedCircuits ++ [circuit]) := by
  refine h.sublist (.append_left (sublist_cons_self _ _) _) (by simp) fun entry hentry c hc => ?_
  have hdistinct := h.distinct
  rw [map_append] at hdistinct
  have hfresh := (nodup_cons.mp (nodup_middle.mp hdistinct)).1
  rw [← map_append] at hfresh
  intro hmem
  obtain rfl : c = circuit := mem_singleton.mp hmem
  refine hfresh (mem_map.mpr ⟨entry, hentry, ?_⟩)
  rw [identityOf, identityOf, hc, hkey]
  rfl

end KeysInv

/-! ## Setups -/

/-- A setup leaves the builder alone, or tracks a new use. -/
inductive Setup (s : Planner) : PathBuilder → Prop
  | same : Setup s s.builder
  | tracked {k : QuicAssociation × Option CircuitId} {hint : RelayPathHint}
      (associationCreate : Bool) (route : SelectedRoute)
      (hroom : s.builder.routeUses.length ≠ maxTrackedRouteUses) (hhint : hint ∈ s.builder.hints)
      (hlive : k.1 ∉ s.finished)
      (hopen : ∀ circuit, k.2 = some circuit → circuit ∉ s.closedCircuits)
      (hnew : ∀ routeUse ∈ s.builder.routeUses,
        identityOf (key routeUse) ≠ identityOf k) :
      Setup s (s.builder.track k.1 k.2 associationCreate hint route)

section

variable {A C E : Type} {s : Planner}

theorem create_setup {runtime : CircuitRuntime A C E} {request : RouteRequest}
    {address : PacketMeta} {returnHints : NearbyRelayHints}
    (hpromised : Promised s (.create runtime request address returnHints)) :
    Setup s (s.builder.create runtime request address returnHints).1 := by
  rcases create_cases runtime request address returnHints with hsame |
      ⟨association, route, handle, hint, hresult, hhandle, hroom, hhint, htrack⟩
  · rw [hsame]
    exact .same
  obtain ⟨hlive, hnew⟩ := hpromised association route handle hresult hhandle
  rw [htrack]
  refine .tracked (k := (handle, none)) true route hroom hhint hlive
    (fun circuit hcircuit => by cases hcircuit)
    fun routeUse huse hsame => ?_
  cases hcircuit : routeUse.circuit with
  | none => exact hnew routeUse huse (by simpa [identityOf, key, hcircuit] using hsame)
  | some circuit => simp [identityOf, key, hcircuit] at hsame

theorem join_setup {runtime : CircuitRuntime A C E} {request : RouteRequest} {association : A}
    {address : PacketMeta} (hpromised : Promised s (.join runtime request association address)) :
    Setup s (s.builder.join runtime request association address).1 := by
  rcases join_cases runtime request association address with hsame |
      ⟨circuit, route, associationHandle, circuitHandle, hint, hresult, hassociation, hcircuit,
        hroom, hhint, htrack⟩
  · rw [hsame]
    exact .same
  obtain ⟨hlive, hopen, hnew⟩ :=
    hpromised circuit route associationHandle circuitHandle hresult hassociation hcircuit
  rw [htrack]
  refine .tracked (k := (associationHandle, some circuitHandle)) false route hroom hhint hlive
    (fun c hc => ?_)
    fun routeUse huse hsame => hnew routeUse huse ?_
  · exact Option.some.inj hc ▸ hopen
  cases hother : routeUse.circuit with
  | none => simp [identityOf, key, hother] at hsame
  | some c => simpa [identityOf, key, hother] using hsame

/-- After the event, a failure may be followed by a setup. -/
theorem recover_setup {runtime : CircuitRuntime QuicAssociation CircuitId E}
    {event : AssociationEvent} {address : PacketMeta} {returnHints : NearbyRelayHints} {nowUs : Nat}
    (hpromised : Promised s (.recover runtime event address returnHints nowUs : PlannerOp A C E)) :
    Setup (s.report event (s.builder.observeEvent event nowUs).1)
      (s.builder.recoverEvent runtime event address returnHints nowUs).1 := by
  obtain ⟨hcreate, hjoin⟩ := hpromised
  rcases recover_cases runtime event address returnHints nowUs with hsame |
    ⟨failure, request, hbuilder, hresult⟩ |
      ⟨failure, request, hbuilder, hresult⟩
  · rw [hsame]
    exact .same
  · rw [hbuilder]
    exact create_setup fun association route handle hok hhandle =>
      hcreate failure association route handle (hresult association route hok) hhandle
  · rw [hbuilder]
    exact join_setup fun circuit route associationHandle circuitHandle hok hassociation hcircuit =>
      hjoin failure circuit route associationHandle circuitHandle (hresult circuit route hok)
        hassociation hcircuit

end

namespace PlannerInv

variable {A C E : Type} {s : Planner} {builder : PathBuilder}

theorem new (hopCostUs : Nat) : PlannerInv (.new hopCostUs) := .nil _ _

variable {event : AssociationEvent}

/-- An event that ends nothing and changes no key. -/
theorem report_same (h : PlannerInv s) (hkeys : builder.keys = s.builder.keys)
    (hended : ∀ key ∈ s.builder.keys, key.1 ∉ event.finishes) (hclosed : event.closesCircuit = []) :
    PlannerInv (s.report event builder) := by
  show KeysInv builder.keys (s.finished ++ event.finishes) (s.closedCircuits ++ event.closesCircuit)
  rw [hkeys, hclosed]
  exact .sublist h (.refl _) hended (by simp)

theorem setupTimeout_keys (self : PathBuilder) (association : QuicAssociation) (nowUs : Nat) :
    (self.observeEvent (.setupTimeout association) nowUs).1.keys = self.keys := by
  unfold observeEvent
  dsimp only
  split
  · rfl
  · exact failRouteUse_keys _ _ _ _
  · rfl

theorem setupRejected_keys (self : PathBuilder) (association : QuicAssociation)
    (circuit : Option CircuitId) (associationRetired : Bool) (code nowUs : Nat) :
    (self.observeEvent (.setupRejected association circuit associationRetired code) nowUs).1.keys =
      self.keys := by
  unfold observeEvent
  dsimp only
  split
  · rfl
  · exact failRouteUse_keys _ _ _ _

section

variable (h : PlannerInv s)
include h

theorem ended {association : QuicAssociation}
    (hfinishes : event.finishes = [association]) (hcloses : event.closesCircuit = []) :
    PlannerInv (s.report event
      { s.builder with
        routeUses := s.builder.routeUses.filter (·.association != association) }) := by
  show KeysInv ((s.builder.routeUses.filter (·.association != association)).map key)
    (s.finished ++ event.finishes)
    (s.closedCircuits ++ event.closesCircuit)
  rw [hfinishes, hcloses]
  refine .sublist h (filter_sublist.map _) (fun entry hentry hmem => ?_) (by simp)
  obtain ⟨routeUse, huse, rfl⟩ := mem_map.mp hentry
  have hother := (mem_filter.mp huse).2
  have hsame : routeUse.association = association := mem_singleton.mp hmem
  simp [hsame] at hother

theorem observe (hreleased : Released s event) (nowUs : Nat) :
    PlannerInv (s.report event (s.builder.observeEvent event nowUs).1) := by
  cases event with
  | closed association code => exact h.ended rfl rfl
  | reset association => exact h.ended rfl rfl
  | idleTimeout association => exact h.ended rfl rfl
  | eventsDropped count => exact h.report_same rfl (by simp [AssociationEvent.finishes]) rfl
  | peerReturnPathHints association hints =>
    exact h.report_same rfl (by simp [AssociationEvent.finishes]) rfl
  | setupTimeout association =>
    refine h.report_same (setupTimeout_keys _ _ _) (fun entry hentry hmem => ?_) rfl
    obtain ⟨routeUse, huse, rfl⟩ := mem_map.mp hentry
    exact hreleased.retired association rfl routeUse huse (mem_singleton.mp hmem)
  | setupRejected association circuit associationRetired code =>
    refine h.report_same (setupRejected_keys _ _ _ _ _ _) (fun entry hentry hmem => ?_) rfl
    obtain ⟨routeUse, huse, rfl⟩ := mem_map.mp hentry
    cases associationRetired with
    | false => cases hmem
    | true => exact hreleased.retired association rfl routeUse huse (mem_singleton.mp hmem)
  | circuitStatusChanged association circuit status =>
    refine h.report_same ?_ (by simp [AssociationEvent.finishes]) rfl
    unfold observeEvent
    dsimp only
    split
    · rfl
    · exact circuitStatusChanged_keys _ _ _ _
  | circuitClosed association circuit =>
    unfold observeEvent
    dsimp only
    split
    · next hnone =>
        show KeysInv s.builder.keys (s.finished ++ []) (s.closedCircuits ++ [circuit])
        refine .sublist h (.refl _) (by simp) fun entry hentry c hc hmem => ?_
        obtain ⟨routeUse, huse, rfl⟩ := mem_map.mp hentry
        have hother := find?_eq_none.mp hnone routeUse huse
        obtain rfl : c = circuit := mem_singleton.mp hmem
        have hsame : routeUse.circuit = some c := hc
        simp [hsame] at hother
    next routeUse hfind =>
      obtain ⟨before, after, huses, hgone, -, herase⟩ := modifyFirst_split id hfind
      show KeysInv ((s.builder.routeUses.eraseP (·.circuit == some circuit)).map key)
        (s.finished ++ [])
        (s.closedCircuits ++ [circuit])
      have hinv : KeysInv (s.builder.routeUses.map key) s.finished s.closedCircuits := h
      rw [huses, map_append] at hinv
      rw [herase, map_append]
      exact hinv.erase (by simpa [key] using hgone)
  | circuitOpened association circuit =>
    unfold observeEvent
    dsimp only
    split
    · next hany =>
        obtain ⟨waiting, hfind⟩ := exists_find hany
        obtain ⟨before, after, huses, hwaiting, hmodify, -⟩ :=
          modifyFirst_split (fun entry => { entry with circuit := some circuit }) hfind
        obtain ⟨hassociation, hnone⟩ : waiting.association = association ∧
            waiting.circuit = none := by
          simpa using hwaiting
        have hmem : waiting ∈ s.builder.routeUses := by
          rw [huses]
          exact mem_append_right _ mem_cons_self
        obtain ⟨hopen, hnew⟩ := hreleased.opened association circuit rfl waiting hmem
          hassociation hnone
        have hinv : KeysInv (s.builder.routeUses.map key) s.finished s.closedCircuits := h
        show KeysInv ((modifyFirst _ _ s.builder.routeUses).map key) (s.finished ++ [])
          (s.closedCircuits ++ [])
        rw [hmodify, append_nil, append_nil, map_append]
        have hkeys : ∀ entry ∈ s.builder.routeUses.map key, entry.2 ≠ some circuit := by
          intro entry hentry
          obtain ⟨routeUse, huse, rfl⟩ := mem_map.mp hentry
          exact hnew routeUse huse
        rw [huses, map_append] at hinv hkeys
        have hassign := hinv.assign hassociation hopen hkeys
        rw [← hassociation] at hassign
        exact hassign
    · exact h.report_same rfl (by simp [AssociationEvent.finishes]) rfl

theorem setup (hsetup : Setup s builder) : PlannerInv { s with builder } := by
  cases hsetup with
  | same => exact h
  | tracked _ _ hroom _ hlive hopen hnew =>
    show KeysInv ((s.builder.routeUses ++ [_]).map key) s.finished s.closedCircuits
    rw [map_append]
    refine .insert h hlive hopen (fun hmem => ?_) (by simpa [PathBuilder.keys] using hroom)
    obtain ⟨entry, hentry, hsame⟩ := mem_map.mp hmem
    obtain ⟨routeUse, huse, rfl⟩ := mem_map.mp hentry
    exact hnew routeUse huse hsame

theorem step (op : PlannerOp A C E) (hok : Promised s op ∧ Releases s op) :
    PlannerInv (s.step op) := by
  cases op with
  | mergeHint hint nowUs =>
    show KeysInv ((s.builder.mergeHint hint nowUs).1.routeUses.map key) _ _
    rw [mergeHint_routeUses]
    exact h
  | create => exact h.setup (create_setup hok.1)
  | join => exact h.setup (join_setup hok.1)
  | observe => exact h.observe hok.2 ..
  | recover => exact (h.observe hok.2 ..).setup (recover_setup hok.1)

theorem tracks : Tracks s where
  live := fun routeUse huse => h.live _ (mem_map_of_mem huse)
  notClosed := fun routeUse huse => h.notClosed _ (mem_map_of_mem huse)
  distinct := by
    rw [map_identity]
    exact h.distinct
  bound := by
    have := h.bound
    simpa [PathBuilder.keys] using this
  createFull := fun _ _ _ _ _ _ _ hfull => by simpa using create_full hfull
  joinFull := fun _ _ _ _ _ _ _ hfull => by simpa using join_full hfull

end

end PlannerInv

/-! ## The result -/

/-- A route of one hop, which discovery knows. -/
def oneHop : RelayPathHint :=
  ⟨7, 1, 0, 1000, 100, .layered, .selfBuilt, .localDiscovery, none, [11], [⟨1, 1, [9], 0, 0⟩]⟩

/-- A runtime that opens the association 0 of slot 0, and on it circuit 1. -/
def firstRuntime : CircuitRuntime QuicAssociation CircuitId Unit where
  quicAssociation := some
  quicCircuit := some
  createRelayed := fun _ _ _ => .ok ⟨0, 0⟩
  joinRelayed := fun _ association _ => .ok ⟨association, 1⟩

def anyRoute : RouteRequest := ⟨7, none, true, none, 0⟩

/-- The route is learnt and opened. -/
def opening : List (PlannerOp QuicAssociation CircuitId Unit) :=
  [.mergeHint oneHop 0, .create firstRuntime anyRoute ⟨0, 0, 0⟩ []]

/-- The CREATE times out. -/
def timedOut : List (PlannerOp QuicAssociation CircuitId Unit) :=
  opening ++ [.observe (.setupTimeout ⟨0, 0⟩) 1]

/-- A CREATE that times out is tracked for good. -/
theorem timed_out_create_stays : ¬ ∀ (ops : List (PlannerOp QuicAssociation CircuitId Unit)),
      Runs.Along Planner.step Promised (.new 0) ops →
      Tracks (Runs.exec Planner.step (.new 0) ops) := by
  intro hall
  have hpromised : Runs.Along Planner.step Promised (.new 0) timedOut := by
    refine ⟨trivial, fun association route handle _ _ => ⟨not_mem_nil, ?_⟩, trivial, trivial⟩
    exact fun routeUse huse => absurd huse (not_mem_nil (a := routeUse))
  have hfinished : (Runs.exec Planner.step (.new 0) timedOut).finished = [⟨0, 0⟩] := rfl
  have htracked : (Runs.exec Planner.step (.new 0) timedOut).builder.keys = [(⟨0, 0⟩, none)] := by
    decide
  obtain ⟨routeUse, huse, hkey⟩ := mem_map.mp (htracked ▸ mem_cons_self :
    ((⟨0, 0⟩, none) : QuicAssociation × Option CircuitId) ∈
      (Runs.exec Planner.step (.new 0) timedOut).builder.keys)
  have hassociation : routeUse.association = ⟨0, 0⟩ := congrArg Prod.fst hkey
  have hlive := (hall timedOut hpromised).live routeUse huse
  rw [hassociation] at hlive
  exact hlive mem_cons_self

/-- Every route is tracked until it ends, and no longer, in every run in which no tracked CREATE
fails and no circuit is opened twice. -/
theorem tracks_of_released {A C E : Type} (hopCostUs : Nat) (ops : List (PlannerOp A C E))
    (hrun : Runs.Along Planner.step (fun s op => Promised s op ∧ Releases s op)
      (.new hopCostUs) ops) : Tracks (Runs.exec Planner.step (.new hopCostUs) ops) :=
  (Runs.Along.invariant (fun _ op h hok => h.step op hok) (PlannerInv.new hopCostUs) hrun).tracks

/-- The circuit opens, carries traffic and closes. -/
def wholeLife : List (PlannerOp QuicAssociation CircuitId Unit) :=
  opening ++ [.observe (.circuitOpened ⟨0, 0⟩ ⟨⟨0, 0⟩, 1⟩) 1,
    .observe (.circuitStatusChanged ⟨0, 0⟩ ⟨⟨0, 0⟩, 1⟩ .active) 2,
      .observe (.circuitClosed ⟨0, 0⟩ ⟨⟨0, 0⟩, 1⟩) 3]

theorem whole_life_tracked : Tracks (Runs.exec Planner.step (.new 0) wholeLife) ∧
      (Runs.exec Planner.step (.new 0) wholeLife).builder.routeUses = [] := by
  refine ⟨tracks_of_released 0 wholeLife ⟨⟨trivial, trivial⟩, ⟨?_, trivial⟩, ⟨trivial, ?_⟩,
    ⟨trivial, ?_⟩, ⟨trivial, ?_⟩, trivial⟩, by decide⟩
  · intro association route handle _ _
    exact ⟨not_mem_nil, fun routeUse huse => absurd huse (not_mem_nil (a := routeUse))⟩
  · refine ⟨(by rintro _ ⟨⟩), ?_⟩
    rintro association circuit ⟨⟩ waiting _ _ _
    decide
  · exact ⟨(by rintro _ ⟨⟩), by rintro _ _ ⟨⟩⟩
  · exact ⟨(by rintro _ ⟨⟩), by rintro _ _ ⟨⟩⟩

end QuicLite.Mesh

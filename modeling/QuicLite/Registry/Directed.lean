import QuicLite.Registry.Dispatch

/-!
# Directed records

A record with a destination is addressed to one device. The registry tests the destination only
where it answers that nobody serves a request: a handler that is registered for the numbers of a
directed record runs (`directed_records`).
-/

namespace QuicLite.Registry

open Cbor Discovery List Runs

/-! ## Records with a destination -/

variable {record : Record} {record' : Record} {d rest : Bytes} {arrival : Arrival}

/-- The keys of the entries of a map, as the decoder reads them. -/
def entryKeys (cbor : Codec) : Nat → Bytes → List Nat
  | 0, _ => []
  | n + 1, d =>
    match cbor.readUint d, decodeEntry cbor .default d with
    | some (key, _), some (_, rest) => key :: entryKeys cbor n rest
    | _, _ => []

def mapKeys (cbor : Codec) (packet : Bytes) : List Nat :=
  match cbor.readHead packet with
  | some ((_, count), d) => entryKeys cbor count d
  | none => []

variable {cbor : Codec}

/-- An entry is read alike whatever was read before, and only key 9 sets the destination. -/
theorem decodeEntry_destination
    (h : decodeEntry cbor record d = some (record', rest)) :
    ∃ key after default', cbor.readUint d = some (key, after) ∧
      decodeEntry cbor .default d = some (default', rest) ∧
      (record'.destination.isSome ↔ record.destination.isSome ∨ key = 9) := by
  unfold decodeEntry at h ⊢
  cases hkey : cbor.readUint d with
  | none =>
    rw [hkey] at h
    cases h
  | some read =>
  obtain ⟨key, after⟩ := read
  rw [hkey] at h
  simp only [Option.bind_eq_bind, Option.bind_some] at h ⊢
  split at h
  all_goals
    obtain ⟨value, hvalue, heq⟩ := Option.map_eq_some_iff.mp h
    obtain ⟨rfl, rfl⟩ := Prod.mk.inj heq
    simp [hvalue]
  exact fun hnine => by simp_all

theorem decodeEntries_destination {n : Nat}
    (h : decodeEntries cbor n record d = some (record', rest)) :
    record'.destination.isSome ↔ record.destination.isSome ∨ 9 ∈ entryKeys cbor n d := by
  induction n generalizing record d with
  | zero =>
    obtain ⟨rfl, -⟩ := Prod.mk.inj (Option.some.inj h)
    simp [entryKeys]
  | succ n ih =>
    rw [decodeEntries, Option.bind_eq_some_iff] at h
    obtain ⟨⟨middle, between⟩, hentry, hrest⟩ := h
    obtain ⟨key, after, other, hkey, hdefault, hdestination⟩ := decodeEntry_destination hentry
    rw [ih hrest, hdestination, entryKeys, hkey, hdefault]
    simp only [mem_cons]
    rw [or_assoc, eq_comm (a := key)]

/-- The key of a destination may be anywhere in the map. -/
theorem destination_isSome_iff {packet : Bytes} (h : decode cbor packet = some record) :
    record.destination.isSome ↔ 9 ∈ mapKeys cbor packet := by
  obtain ⟨⟨decoded, rest⟩, hread, h⟩ := Option.bind_eq_some_iff.mp h
  obtain ⟨⟨⟨major, count⟩, d⟩, hhead, hread⟩ := Option.bind_eq_some_iff.mp hread
  simp only at h hread
  split at h
  · obtain rfl := Option.some.inj h
    split at hread
    · cases hread
    obtain ⟨⟨decoded', rest'⟩, hentries, hmethod⟩ := Option.bind_eq_some_iff.mp hread
    obtain ⟨method, -, heq⟩ := Option.map_eq_some_iff.mp hmethod
    obtain ⟨rfl, rfl⟩ := Prod.mk.inj heq
    rw [decodeEntries_destination hentries, mapKeys, hhead]
    simp [Record.default]
  · cases h

/-! ## Packets -/

/-- The function of the registry that a packet is given to. -/
inductive Entrance where
  | openAwait
  | openNow
  | dispatch
  | dispatchNow

structure Arrival where
  entrance : Entrance
  data : Bytes
  context : CallContext

inductive Answer (ω : Type) where
  | outcome (outcome : Outcome ω)
  | header (header : Bytes)

variable {σ η ω : Type}

def Served.answer {α : Type} (served : Served σ η ω α) (wrap : α → Answer ω) :
    Served σ η ω (Answer ω) :=
  ⟨served.state, served.ran, served.result.map wrap⟩

/-- A packet is decoded and given to the registry; one that is no record is dropped. -/
def arrive (cbor : Codec) (handlers : Handlers σ η ω) (table : Nat → Option (Entry η)) (state : σ)
    (arrival : Arrival) : Served σ η ω (Answer ω) :=
  match decode cbor arrival.data with
  | none => ⟨state, none, none⟩
  | some record =>
    let request : Request := ⟨record, arrival.data, arrival.context⟩
    match arrival.entrance with
    | .openAwait => (openAwait cbor handlers table state request).answer .outcome
    | .openNow => (openNow cbor handlers table state request).answer .outcome
    | .dispatch => (dispatch cbor handlers table state arrival.data arrival.context).answer .header
    | .dispatchNow =>
      (dispatchNow cbor handlers table state arrival.data arrival.context).answer .header

/-- The packet is a record with a destination. -/
def Directed (cbor : Codec) (arrival : Arrival) : Prop :=
  (decode cbor arrival.data).isSome ∧ 9 ∈ mapKeys cbor arrival.data

instance (cbor : Codec) (arrival : Arrival) : Decidable (Directed cbor arrival) := by
  unfold Directed
  infer_instance

/-- No entry is registered under a start of the packet's key. -/
def Unregistered (cbor : Codec) (table : Nat → Option (Entry η)) (arrival : Arrival) : Prop :=
  ∀ record component method, decode cbor arrival.data = some record →
    record.component = some (.tag component) →
    record.method = some (.tag method) → ∀ entry ∈ entries table,
      serves cbor component method record.params entry = false

/-- Nothing ran, and nothing was answered. -/
def Ignored (state : σ) (served : Served σ η ω (Answer ω)) : Prop := served = ⟨state, none, none⟩

variable {handlers : Handlers σ η ω} {table : Nat → Option (Entry η)} {state : σ}

theorem lookup_eq_none_iff {component method : Nat} {params : Option Bytes} :
    lookup cbor table component method params = none ↔
      ∀ entry ∈ entries table, serves cbor component method params entry = false := by
  rw [lookup, (longest_spec _).1]
  simp

/-- A directed request is never answered by the registry itself. -/
theorem errorOutcome_directed {request : Request} (h : request.record.destination.isSome)
    (component method : Nat) (message : Bytes) :
    (errorOutcome cbor request component method message : Option (Outcome ω)) = none :=
  if_pos (.inl h)

section Requests

variable {request : Request}

/-- The numbers of a request select nothing. -/
def Unselected (cbor : Codec) (table : Nat → Option (Entry η)) (request : Request) : Prop :=
  ∀ component method, request.record.component = some (.tag component) →
    request.record.method = some (.tag method) →
    lookup cbor table component method request.record.params = none

theorem open_unselected (hto : request.record.destination.isSome)
    (h : Unselected cbor table request) :
    openAwait cbor handlers table state request = ⟨state, none, none⟩ ∧
      openNow cbor handlers table state request = ⟨state, none, none⟩ := by
  by_cases hnumbers : ∃ component method, request.record.component = some (.tag component) ∧
      request.record.method = some (.tag method)
  · obtain ⟨component, method, hcomponent, hmethod⟩ := hnumbers
    have hnone := h component method hcomponent hmethod
    rw [openAwait_of_none hcomponent hmethod hnone, openNow_of_none hcomponent hmethod hnone]
    rw [unsupported, errorOutcome_directed (show request.timed.record.destination.isSome from hto)]
    exact ⟨rfl, rfl⟩
  unfold openAwait openNow
  simp only
  split
  · rename_i component method hcomponent hmethod
    exact absurd ⟨component, method, hcomponent, hmethod⟩ hnumbers
  · exact ⟨rfl, rfl⟩

/-- A handler that is selected runs, whether or not the record is directed. -/
theorem ran_of_selected (handlers : Handlers σ η ω) (state : σ)
    (h : ¬ Unselected cbor table request) :
    (openAwait cbor handlers table state request).ran ≠ none ∧
      (openNow cbor handlers table state request).ran ≠ none := by
  simp only [Unselected, not_forall] at h
  obtain ⟨component, method, hcomponent, hmethod, hlookup⟩ := h
  obtain ⟨entry, hentry⟩ := Option.ne_none_iff_exists'.mp hlookup
  rw [openAwait_ran hcomponent hmethod, openNow_ran hcomponent hmethod, selection, hentry]
  exact ⟨Option.some_ne_none _, Option.some_ne_none _⟩

end Requests

/-! ## Sequences of packets -/

theorem unselected_iff (h : decode cbor arrival.data = some record) :
    Unselected cbor table ⟨record, arrival.data, arrival.context⟩ ↔
      Unregistered cbor table arrival := by
  constructor
  · intro hun record' component method hdecode hcomponent hmethod
    obtain rfl := Option.some.inj (h.symm.trans hdecode)
    exact lookup_eq_none_iff.mp (hun component method hcomponent hmethod)
  · intro hun component method hcomponent hmethod
    exact lookup_eq_none_iff.mpr (hun record component method h hcomponent hmethod)

/-- A directed packet is ignored exactly when its numbers select nothing. -/
theorem arrive_directed_iff (hto : Directed cbor arrival) :
    Ignored state (arrive cbor handlers table state arrival) ↔ Unregistered cbor table arrival := by
  obtain ⟨hrecord, hnine⟩ := hto
  obtain ⟨record, hdecode⟩ := Option.isSome_iff_exists.mp hrecord
  have hdestination := (destination_isSome_iff hdecode).mpr hnine
  obtain ⟨entrance, data, context⟩ := arrival
  rw [← unselected_iff hdecode]
  unfold Ignored arrive
  simp only [hdecode, dispatch, dispatchNow]
  generalize hrequest : (⟨record, data, context⟩ : Request) = request
  have hto : request.record.destination.isSome := by
    rw [← hrequest]
    exact hdestination
  constructor
  · intro hignored
    by_contra hselected
    obtain ⟨hawait, hnow⟩ := ran_of_selected handlers state hselected
    cases entrance with
    | openAwait => exact hawait (congrArg Served.ran hignored)
    | openNow => exact hnow (congrArg Served.ran hignored)
    | dispatch => exact hawait (congrArg Served.ran hignored)
    | dispatchNow => exact hnow (congrArg Served.ran hignored)
  intro hun
  cases entrance with
  | openAwait => simp only [(open_unselected hto hun).1]; rfl
  | openNow => simp only [(open_unselected hto hun).2]; rfl
  | dispatch => simp only [(open_unselected hto hun).1]; rfl
  | dispatchNow => simp only [(open_unselected hto hun).2]; rfl

section

variable (cbor : Codec) (handlers : Handlers σ η ω) (table : Nat → Option (Entry η)) (state : σ)
  (arrival : Arrival)

/-- What the handlers keep after a packet. -/
def served : σ := (arrive cbor handlers table state arrival).state

/-- The handler that a packet runs, and its request. -/
def invoked : List (Entry η × Request) := (arrive cbor handlers table state arrival).ran.toList

def answers : List (Answer ω) := (arrive cbor handlers table state arrival).result.toList

end

/-- The packets that are no directed records. -/
def undirected (cbor : Codec) (arrivals : List Arrival) : List Arrival :=
  arrivals.filter fun arrival => ¬ Directed cbor arrival

/-- Directed packets that select nothing can be left out. -/
theorem run_undirected (handlers : Handlers σ η ω) {arrivals : List Arrival}
    (h : ∀ arrival ∈ arrivals, Directed cbor arrival → Unregistered cbor table arrival)
    (state : σ) : exec (served cbor handlers table) state arrivals =
        exec (served cbor handlers table) state (undirected cbor arrivals) ∧
      trace (served cbor handlers table) (invoked cbor handlers table) state arrivals =
        trace (served cbor handlers table)
        (invoked cbor handlers table) state (undirected cbor arrivals) ∧
      trace (served cbor handlers table) (answers cbor handlers table) state arrivals =
        trace (served cbor handlers table)
        (answers cbor handlers table) state (undirected cbor arrivals) := by
  induction arrivals generalizing state with
  | nil => exact ⟨rfl, rfl, rfl⟩
  | cons arrival arrivals ih =>
    have hrest := ih (forall_mem_cons.mp h).2
    by_cases hto : Directed cbor arrival
    · have hignored : arrive cbor handlers table state arrival = ⟨state, none, none⟩ :=
        (arrive_directed_iff hto).mpr (h arrival mem_cons_self hto)
      have hskip : undirected cbor (arrival :: arrivals) = undirected cbor arrivals :=
        filter_cons_of_neg (by simpa using hto)
      have hsame : served cbor handlers table state arrival = state := by rw [served, hignored]
      rw [hskip, exec_cons, trace, trace, hsame, invoked, answers, hignored]
      exact hrest state
    have hkeep : undirected cbor (arrival :: arrivals) = arrival :: undirected cbor arrivals :=
      filter_cons_of_pos (by simpa using hto)
    obtain ⟨hexec, hran, hanswers⟩ := hrest (served cbor handlers table state arrival)
    rw [hkeep, exec_cons, trace, trace, trace, hexec, hran, hanswers]
    exact ⟨rfl, rfl, rfl⟩

/-- A directed record is ignored exactly when no handler is registered under a start of its key.
Sequences of packets that differ only in such records run the same handlers on the same requests,
with the same answers. -/
theorem directed_records (cbor : Codec) (handlers : Handlers σ η ω) (table : Nat → Option (Entry η))
    (state : σ) : (∀ arrival, Directed cbor arrival →
      (Ignored state (arrive cbor handlers table state arrival) ↔
        Unregistered cbor table arrival)) ∧
    ∀ arrivals arrivals', (∀ arrival ∈ arrivals ++ arrivals', Directed cbor arrival →
      Unregistered cbor table arrival) →
      undirected cbor arrivals = undirected cbor arrivals' →
        trace (served cbor handlers table) (invoked cbor handlers table) state arrivals =
            trace (served cbor handlers table) (invoked cbor handlers table) state arrivals' ∧
          trace (served cbor handlers table) (answers cbor handlers table) state arrivals =
            trace (served cbor handlers table) (answers cbor handlers table) state arrivals' := by
  refine ⟨fun arrival hto => arrive_directed_iff hto, fun arrivals arrivals' h hsame => ?_⟩
  obtain ⟨-, hran, hanswers⟩ := run_undirected handlers
    (fun arrival hmem => h arrival (mem_append_left _ hmem)) state
  obtain ⟨-, hran', hanswers'⟩ := run_undirected handlers
    (fun arrival hmem => h arrival (mem_append_right _ hmem)) state
  rw [hran, hran', hanswers, hanswers', hsame]
  exact ⟨rfl, rfl⟩

/-- One handler, in the first slot. -/
def statusTable (slot : Nat) : Option (Entry Nat) := if slot = 0 then some (statusEntry 1) else none

def fromRadio : CallContext := ⟨.message, none, none, false, none, none⟩

/-- A directed record for a component that nobody registered is ignored. -/
theorem directed_unregistered :
    Ignored () (arrive minimal decliners statusTable () ⟨.dispatchNow, [0xa3, 1, 5, 2, 8, 9, 7],
      fromRadio⟩) :=
  ((directed_records minimal decliners statusTable ()).1 _ (by decide)).mpr (by
    intro record component method hdecode hcomponent hmethod entry hentry
    have hrecord : decode minimal [0xa3, 1, 5, 2, 8, 9, 7] =
        some ⟨some (.tag 5), some (.tag 8), none, none, none, none, none, some (.tag 7), none, none,
          none⟩ := by
      decide
    obtain rfl := Option.some.inj (hrecord.symm.trans hdecode)
    obtain rfl := Name.tag.inj (Option.some.inj hcomponent)
    have hentries : entries statusTable = [statusEntry 1] := by decide +kernel
    obtain rfl := mem_singleton.mp (hentries ▸ hentry)
    rfl)

/-- A directed record for a registered method runs its handler. -/
theorem directed_invoked :
    let arrival : Arrival := ⟨.dispatchNow, [0xa3, 1, 4, 2, 8, 9, 7], fromRadio⟩
    Directed minimal arrival ∧
      ((arrive minimal decliners statusTable () arrival).ran.map fun ran => ran.1) =
        some (statusEntry 1) := by
  decide +kernel

end QuicLite.Registry

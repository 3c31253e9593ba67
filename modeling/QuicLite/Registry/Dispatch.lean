import QuicLite.Discovery.Tagged
import QuicLite.Lib.Claims
import QuicLite.Lib.CborItems
import Mathlib.Data.List.Induction

/-!
# The method registry

Handlers are published under keys: a component, a method and the start of a path. A request goes to
the handler with the longest key that its own key starts with. The table has no lock, so that
publishing is a run of single accesses (`Claims`). Four functions dispatch a request: with or
without a runtime to wait in, and with or without bodies.
-/

namespace QuicLite.Registry

open Cbor Discovery Option Bool Nat Claims.Shared
open List hiding count

/-! ## Paths -/

/-- One element of a key. Text is kept as its UTF-8 bytes. -/
inductive Seg where
  | num (n : Nat)
  | text (bs : Bytes)
  deriving DecidableEq

def matchSegments (cbor : Codec) : List Seg → Bytes → Bool
  | [], _ => true
  | .num expected :: rest, d =>
    match cbor.readUint d with
    | some (n, d) => n == expected && matchSegments cbor rest d
    | none => false
  | .text expected :: rest, d =>
    match cbor.readText d with
    | some (text, d) => text == expected && matchSegments cbor rest d
    | none => false

def pathStartsWith (cbor : Codec) (params : Option Bytes) (path : List Seg) : Bool :=
  if path.isEmpty then true
  else
    match params with
    | none => false
    | some params =>
      match cbor.readHead params with
      | some ((major, count), d) =>
        major == 4 && decide (path.length ≤ count) && matchSegments cbor path d
      | none => false

/-- The numbers and texts that a path starts with. -/
def segments (cbor : Codec) : Nat → Bytes → List Seg
  | 0, _ => []
  | n + 1, d =>
    match cbor.readUint d with
    | some (number, rest) => .num number :: segments cbor n rest
    | none =>
      match cbor.readText d with
      | some (text, rest) => .text text :: segments cbor n rest
      | none => []

/-- The path of a request, up to the first element that no key can name. -/
def requestPath (cbor : Codec) (params : Option Bytes) : List Seg :=
  match params with
  | none => []
  | some params =>
    match cbor.readHead params with
    | some ((major, count), d) => if major = 4 then segments cbor count d else []
    | none => []

/-- No item is a number and a text. -/
def TellsKinds (cbor : Codec) : Prop :=
  ∀ d read, cbor.readUint d = some read → cbor.readText d = none

section Paths

variable {cbor : Codec} (hkinds : TellsKinds cbor)
include hkinds

theorem matchSegments_iff {n : Nat} {path : List Seg} (hlen : path.length ≤ n) (d : Bytes) :
    matchSegments cbor path d = true ↔ path.IsPrefix (segments cbor n d) := by
  induction path generalizing n d with
  | nil => exact iff_of_true rfl nil_prefix
  | cons seg path ih =>
    obtain ⟨n, rfl⟩ : ∃ k, n = k + 1 := ⟨n - 1, by rw [length_cons] at hlen; omega⟩
    have hshort : path.length ≤ n := by rw [length_cons] at hlen; omega
    rw [segments]
    cases seg with
    | num expected =>
      rw [matchSegments]
      cases hread : cbor.readUint d with
      | some read =>
        rw [and_eq_true, beq_iff_eq, cons_prefix_cons, ih hshort, Seg.num.injEq, eq_comm]
      | none =>
        cases cbor.readText d with
        | some read => simp
        | none => simp
    | text expected =>
      rw [matchSegments]
      cases hread : cbor.readUint d with
      | some read =>
        rw [hkinds d read hread]
        simp
      | none =>
        cases cbor.readText d with
        | some read =>
          rw [and_eq_true, beq_iff_eq, cons_prefix_cons, ih hshort, Seg.text.injEq, eq_comm]
        | none => simp

omit hkinds in
theorem length_segments_le (n : Nat) (d : Bytes) : (segments cbor n d).length ≤ n := by
  induction n generalizing d with
  | zero => exact le_refl _
  | succ n ih =>
    rw [segments]
    split
    · exact succ_le_succ (ih _)
    split
    · exact succ_le_succ (ih _)
    · exact zero_le _

/-- `path_starts_with` is what its name says. -/
theorem pathStartsWith_iff (params : Option Bytes) (path : List Seg) :
    pathStartsWith cbor params path = true ↔ path.IsPrefix (requestPath cbor params) := by
  unfold pathStartsWith requestPath
  split
  · rename_i hempty
    obtain rfl := isEmpty_iff.mp hempty
    exact iff_of_true rfl nil_prefix
  rename_i hne
  have hnil : ¬ path.IsPrefix [] := by
    rw [prefix_nil]
    exact fun h => hne (by rw [h]; rfl)
  cases params with
  | none => exact iff_of_false false_ne_true hnil
  | some params =>
  simp only
  cases cbor.readHead params with
  | none => exact iff_of_false false_ne_true hnil
  | some read =>
  obtain ⟨⟨major, count⟩, d⟩ := read
  simp only
  by_cases hmajor : major = 4
  · rw [hmajor, beq_self_eq_true, Bool.true_and, Bool.and_eq_true, decide_eq_true_eq]
    constructor
    · intro ⟨hlen, hmatch⟩
      exact (matchSegments_iff hkinds hlen d).mp hmatch
    intro hpath
    have hlen := le_trans hpath.length_le (length_segments_le count d)
    exact ⟨hlen, (matchSegments_iff hkinds hlen d).mpr hpath⟩
  · rw [if_neg hmajor, beq_eq_false_iff_ne.mpr hmajor]
    exact iff_of_false false_ne_true hnil

end Paths

/-! ## The table -/

def capacity : Nat := 128

/-- The numbers of a method. -/
structure Method where
  component : Nat
  method : Nat
  deriving DecidableEq

structure Entry (η : Type) where
  method : Method
  path : List Seg
  handler : η
  deriving DecidableEq

def Entry.key {η : Type} (entry : Entry η) : Method × List Seg := (entry.method, entry.path)

/-- The table, and the tasks that publish. -/
abbrev Publishing (η ι : Type) := Claims.Shared (Entry η) ι

/-- A task starts to publish an entry, or makes its next access. -/
inductive Op (η ι : Type) where
  | publish (task : ι) (entry : Entry η)
  | advance (task : ι)

variable {η ι : Type} [DecidableEq ι]

/-- A component zero is refused before any access. -/
def step (s : Publishing η ι) : Op η ι → Publishing η ι
  | .publish task entry =>
    match s.pc task with
    | .idle => if entry.method.component = 0 then s.giving task entry false else s.enter task entry
    | _ => s
  | .advance task => s.advance capacity Entry.key task

/-- The entries of the table, in the order of the slots. -/
def entries (table : Nat → Option (Entry η)) : List (Entry η) :=
  (List.range capacity).filterMap table

/-- A later entry wins unless its path is shorter. -/
def longer (best : Option (Entry η)) (entry : Entry η) : Option (Entry η) :=
  match best with
  | none => some entry
  | some best => if best.path.length ≤ entry.path.length then some entry else some best

/-- `max_by_key` over the length of the paths: the last of the longest. -/
def longest (entries : List (Entry η)) : Option (Entry η) := entries.foldl longer none

/-- The key of the entry starts the key of the request. -/
def serves (cbor : Codec) (component method : Nat) (params : Option Bytes)
    (entry : Entry η) : Bool :=
  entry.method.component == component && entry.method.method == method &&
    pathStartsWith cbor params entry.path

def lookup (cbor : Codec) (table : Nat → Option (Entry η)) (component method : Nat)
    (params : Option Bytes) : Option (Entry η) :=
  longest ((entries table).filter (serves cbor component method params))

/-! ## Requests -/

inductive Delivery where
  | stream
  | message
  | datagram
  deriving DecidableEq

structure CallContext where
  delivery : Delivery
  association : Option Nat
  streamId : Option Nat
  isLocal : Bool
  timeoutMs : Option Nat
  bearer : Option Bytes

structure Request where
  record : Record
  header : Bytes
  context : CallContext

/-- A response. Its body and what is done after it are the handler's own. -/
structure Response (ω : Type) where
  header : Bytes
  body : Option ω
  afterFinish : Option ω

/-- `Response::header` -/
def Response.ofHeader {ω : Type} (header : Bytes) : Response ω := ⟨header, none, none⟩

inductive Outcome (ω : Type) where
  | respond (response : Response ω)
  | receive (sink : ω)
  | defer (work : ω)

/-- What the handlers do with their state: the first poll of the future, which may have no outcome
yet, and the future when it is awaited. -/
structure Handlers (σ η ω : Type) where
  poll : σ → η → Request → σ × Option (Option (Outcome ω))
  await : σ → η → Request → σ × Option (Outcome ω)
  await_ready : ∀ {state handler request state' outcome},
    poll state handler request = (state', some outcome) →
    await state handler request = (state', outcome)

/-- What a call came to: the state of the handlers, the handler that ran and its request, and the
result. -/
structure Served (σ η ω α : Type) where
  state : σ
  ran : Option (Entry η × Request)
  result : Option α

/-- The record of an error: component, method, id and message. -/
def numericError (cbor : Codec) (component method id : Nat) (error : Bytes) : Bytes :=
  cbor.map 4 ++ (cbor.uint 1 ++ (cbor.uint component ++ (cbor.uint 2 ++ (cbor.uint method ++
    (cbor.uint 3 ++ (cbor.uint id ++ (cbor.uint 7 ++ cbor.textValue error)))))))

/-- `encode_numeric_error` into a buffer of this capacity. -/
def encodeNumericError (cbor : Codec) (component method id : Nat) (error : Bytes) (capacity : Nat) :
    Option Bytes :=
  let bytes := numericError cbor component method id error
  if bytes.length ≤ capacity then some bytes else none

def unsupportedMessage : Bytes :=
  "unsupported or invalid stream request".toList.flatMap String.utf8EncodeChar
def runtimeMessage : Bytes :=
  "handler requires an async runtime".toList.flatMap String.utf8EncodeChar
def bodyMessage : Bytes := "method requires a stream body".toList.flatMap String.utf8EncodeChar

def errorOutcome {ω : Type} (cbor : Codec) (request : Request) (component method : Nat)
    (message : Bytes) : Option (Outcome ω) :=
  if request.record.destination.isSome ∨ request.context.delivery ≠ .stream then none
  else do
    let id ← request.record.id
    let response ← encodeNumericError cbor component method id message 96
    some (.respond (.ofHeader response))

def unsupported {ω : Type} (cbor : Codec) (request : Request) (component method : Nat) :
    Option (Outcome ω) :=
  errorOutcome cbor request component method unsupportedMessage

/-! ## Four ways to dispatch -/

/-- The timeout of the record counts, when it has one. -/
def Request.timed (request : Request) : Request :=
  { request with
    context := { request.context with
      timeoutMs := request.record.timeout.or request.context.timeoutMs } }

section Dispatching

variable {σ ω : Type} (cbor : Codec) (handlers : Handlers σ η ω) (table : Nat → Option (Entry η))
    (state : σ)

variable (request : Request)

/-- `Registry::open` -/
def openAwait : Served σ η ω (Outcome ω) :=
  let request := request.timed
  match request.record.component, request.record.method with
  | some (.tag component), some (.tag method) =>
    match lookup cbor table component method request.record.params with
    | some entry =>
      let (state, outcome) := handlers.await state entry.handler request
      ⟨state, some (entry, request), outcome.or (unsupported cbor request component method)⟩
    | none => ⟨state, none, unsupported cbor request component method⟩
  | _, _ => ⟨state, none, none⟩

def openNow : Served σ η ω (Outcome ω) :=
  let request := request.timed
  match request.record.component, request.record.method with
  | some (.tag component), some (.tag method) =>
    match lookup cbor table component method request.record.params with
    | some entry =>
      match handlers.poll state entry.handler request with
      | (state, some outcome) =>
        ⟨state, some (entry, request), outcome.or (unsupported cbor request component method)⟩
      | (state, none) =>
        ⟨state, some (entry, request), errorOutcome cbor request component method runtimeMessage⟩
    | none => ⟨state, none, unsupported cbor request component method⟩
  | _, _ => ⟨state, none, none⟩

def intoHeaderOnly (outcome : Option (Outcome ω)) : Option Bytes := do match ← outcome with
  | .respond ⟨header, none, none⟩ => some header
  | _ =>
    match request.record.component, request.record.method with
    | some (.tag component), some (.tag method) =>
      match ← (errorOutcome cbor request component method bodyMessage : Option (Outcome ω)) with
      | .respond response => some response.header
      | _ => none
    | _, _ => none

/-- A call that was opened, reduced to the header of its response. -/
def Served.headerOnly (served : Served σ η ω (Outcome ω)) : Served σ η ω Bytes :=
  ⟨served.state, served.ran, intoHeaderOnly cbor request served.result⟩

def dispatch (data : Bytes) (context : CallContext) : Served σ η ω Bytes :=
  match decode cbor data with
  | none => ⟨state, none, none⟩
  | some record =>
    (openAwait cbor handlers table state ⟨record, data, context⟩).headerOnly cbor
      ⟨record, data, context⟩

def dispatchNow (data : Bytes) (context : CallContext) : Served σ η ω Bytes :=
  match decode cbor data with
  | none => ⟨state, none, none⟩
  | some record =>
    (openNow cbor handlers table state ⟨record, data, context⟩).headerOnly cbor
      ⟨record, data, context⟩

end Dispatching

/-! ## Selecting a handler -/

section Selecting

variable {cbor : Codec} {table : Nat → Option (Entry η)} {component method : Nat}
    {params : Option Bytes}

theorem longest_spec (l : List (Entry η)) : (longest l = none ↔ l = []) ∧
      ∀ entry, longest l = some entry → entry ∈ l ∧ ∀ other ∈ l,
        other.path.length ≤ entry.path.length := by
  induction l using reverseRecOn with
  | nil => exact ⟨iff_of_true rfl rfl, fun entry h => by cases h⟩
  | append_singleton l last ih =>
    have hconcat : longest (l ++ [last]) = longer (longest l) last := by
      rw [longest, foldl_append]
      rfl
    rw [hconcat]
    unfold longer
    cases hlongest : longest l with
    | none =>
      obtain rfl := ih.1.mp hlongest
      refine ⟨by simp, fun entry h => ?_⟩
      obtain rfl := some.inj h
      exact ⟨mem_cons_self, fun other hother => by rw [mem_singleton.mp hother]⟩
    | some best =>
      obtain ⟨hbest, hmax⟩ := ih.2 best hlongest
      simp only
      split
      · rename_i hle
        refine ⟨by simp, fun entry h => ?_⟩
        obtain rfl := some.inj h
        refine ⟨mem_append_right _ mem_cons_self, fun other hother => ?_⟩
        rcases mem_append.mp hother with hother | hother
        · exact le_trans (hmax other hother) hle
        · rw [mem_singleton.mp hother]
      rename_i hlt
      refine ⟨by simp, fun entry h => ?_⟩
      obtain rfl := some.inj h
      refine ⟨mem_append_left _ hbest, fun other hother => ?_⟩
      rcases mem_append.mp hother with hother | hother
      · exact hmax other hother
      · rw [mem_singleton.mp hother]
        omega

/-- The key of the entry is a start of the key of the request. -/
def Starts (cbor : Codec) (component method : Nat) (params : Option Bytes)
    (entry : Entry η) : Prop :=
  entry.method = ⟨component, method⟩ ∧ entry.path.IsPrefix (requestPath cbor params)

theorem serves_iff (hkinds : TellsKinds cbor) (entry : Entry η) :
    serves cbor component method params entry = true ↔
      Starts cbor component method params entry := by
  obtain ⟨⟨c, m⟩, path, handler⟩ := entry
  simp [serves, Starts, pathStartsWith_iff hkinds, Method.mk.injEq]

/-- The entry is registered under the longest key that starts the request's, and no other one is
under that key. -/
structure Selected (cbor : Codec) (table : Nat → Option (Entry η)) (component method : Nat)
    (params : Option Bytes) (entry : Entry η) : Prop where
  registered : ∃ slot, table slot = some entry
  starts : Starts cbor component method params entry
  longest : ∀ slot other, table slot = some other → Starts cbor component method params other →
    other.path.length ≤ entry.path.length
  only : ∀ slot other, table slot = some other → Starts cbor component method params other →
    other.path.length = entry.path.length → other = entry

theorem lookup_spec (hkinds : TellsKinds cbor)
    (hbeyond : ∀ slot, capacity ≤ slot → table slot = none)
    (hunique : ∀ slot slot' a b, table slot = some a → table slot' = some b → a.key = b.key →
      slot = slot') : (∀ entry, lookup cbor table component method params = some entry →
      Selected cbor table component method params entry) ∧
    (lookup cbor table component method params = none →
      ∀ slot other, table slot = some other → ¬ Starts cbor component method params other) := by
  have hmem : ∀ entry, entry ∈ (entries table).filter (serves cbor component method params) ↔
      (∃ slot, table slot = some entry) ∧ Starts cbor component method params entry := by
    intro entry
    rw [mem_filter, serves_iff hkinds, entries, mem_filterMap]
    refine and_congr_left fun _ => ⟨fun ⟨slot, _, h⟩ => ⟨slot, h⟩, fun ⟨slot, h⟩ => ⟨slot, ?_, h⟩⟩
    rw [mem_range]
    by_contra hge
    rw [hbeyond slot (Nat.le_of_not_lt hge)] at h
    cases h
  obtain ⟨hnone, hsome⟩ :=
    longest_spec ((entries table).filter (serves cbor component method params))
  constructor
  · intro entry hentry
    obtain ⟨hin, hmax⟩ := hsome entry hentry
    obtain ⟨⟨slot, hslot⟩, hstarts⟩ := (hmem entry).mp hin
    have hlongest : ∀ slot other, table slot = some other →
        Starts cbor component method params other →
        other.path.length ≤ entry.path.length :=
      fun slot other hother hserves => hmax other ((hmem other).mpr ⟨⟨slot, hother⟩, hserves⟩)
    refine ⟨⟨slot, hslot⟩, hstarts, hlongest, fun slot' other hother hserves hlength => ?_⟩
    -- Two starts of one path with one length are the same.
    have hpath : other.path = entry.path :=
      (prefix_of_prefix_length_le hserves.2 hstarts.2 (le_of_eq hlength)).eq_of_length hlength
    have hkey : other.key = entry.key := by
      rw [Entry.key, Entry.key, hpath, hserves.1, hstarts.1]
    obtain rfl := hunique slot' slot other entry hother hslot hkey
    exact Option.some.inj (hother.symm.trans hslot)
  · intro hlookup slot other hother hstarts
    have hin := (hmem other).mpr ⟨⟨slot, hother⟩, hstarts⟩
    rw [hnone.mp hlookup] at hin
    cases hin

end Selecting

/-! ## Answers -/

section Answers

variable {cbor : Codec} (hlaw : cbor.Lawful) {σ ω : Type} {handlers : Handlers σ η ω}
    {table : Nat → Option (Entry η)} {state : σ} {request : Request} {component method : Nat}
variable {message : Bytes}

/-- What a request without a handler is answered with: the numeric error, on a stream, when it has
an id and no destination. -/
def numericAnswer (cbor : Codec) (request : Request) (component method : Nat) (message : Bytes) :
    Option Bytes :=
  if request.context.delivery = .stream ∧ request.record.destination = none then
    request.record.id.map fun id => numericError cbor component method id message
  else none

theorem numericAnswer_isSome (message : Bytes) :
    (numericAnswer cbor request component method message).isSome ↔
    request.context.delivery = .stream ∧ request.record.id.isSome ∧
      request.record.destination = none := by
  unfold numericAnswer
  split
  · rename_i h
    rw [isSome_map]
    exact ⟨fun hid => ⟨h.1, hid, h.2⟩, fun hid => hid.2.1⟩
  · rename_i h
    exact iff_of_false false_ne_true fun hall => h ⟨hall.1, hall.2.2⟩

include hlaw in
/-- The buffer is large enough. -/
theorem encodeNumericError_eq {id : Nat} (hmessage : message.length ≤ 40) :
    encodeNumericError cbor component method id message 96 =
      some (numericError cbor component method id message) := by
  have hsmall : ∀ n < 24, headLength n = 1 := by decide
  have hcomponent := headLength_le_nine component
  have hmethod := headLength_le_nine method
  have hid := headLength_le_nine id
  have htext : headLength message.length ≤ 2 :=
    headLength_le (show message.length ≤ 40 from hmessage)
  have hlength : (numericError cbor component method id message).length ≤ 96 := by
    simp only [numericError, length_append, hlaw.length_map, hlaw.length_uint,
      hlaw.length_textValue, hsmall 4 (by decide), hsmall 1 (by decide), hsmall 2 (by decide),
      hsmall 3 (by decide), hsmall 7 (by decide)]
    omega
  exact if_pos hlength

include hlaw in
theorem errorOutcome_eq (hmessage : message.length ≤ 40) :
    (errorOutcome cbor request component method message : Option (Outcome ω)) =
      (numericAnswer cbor request component method message).map fun header =>
        .respond (.ofHeader header) := by
  unfold errorOutcome numericAnswer
  by_cases hanswer : request.context.delivery = .stream ∧ request.record.destination = none
  · rw [if_pos hanswer, if_neg (by rw [hanswer.1, hanswer.2]; simp)]
    cases request.record.id with
    | none => rfl
    | some id =>
      show (do let response ← encodeNumericError cbor component method id message 96; _) = _
      rw [encodeNumericError_eq hlaw hmessage]
      rfl
  rw [if_neg hanswer, if_pos]
  · rfl
  rw [not_and_or] at hanswer
  rcases hanswer with hdelivery | hdestination
  · exact .inr hdelivery
  · exact .inl (isSome_iff_ne_none.mpr hdestination)

/-- The handler that a request is for, and the request as it gets it. -/
def selection (cbor : Codec) (table : Nat → Option (Entry η)) (request : Request)
    (component method : Nat) : Option (Entry η × Request) :=
  (lookup cbor table component method request.record.params).map fun entry => (entry, request.timed)

/-- No handler is registered for the request, or the one that is declines. -/
def Declined (cbor : Codec) (handlers : Handlers σ η ω) (table : Nat → Option (Entry η)) (state : σ)
    (request : Request) (component method : Nat) : Prop :=
  ∀ entry, lookup cbor table component method request.record.params = some entry →
    (handlers.await state entry.handler request.timed).2 = none

/-- The handler of the request has its outcome at the first poll. -/
def ReadyAtOnce (cbor : Codec) (handlers : Handlers σ η ω) (table : Nat → Option (Entry η))
    (state : σ) (request : Request) (component method : Nat) : Prop :=
  ∀ entry, lookup cbor table component method request.record.params = some entry →
    (handlers.poll state entry.handler request.timed).2.isSome

variable (hcomponent : request.record.component = some (.tag component))
  (hmethod : request.record.method = some (.tag method))
include hcomponent hmethod

omit hcomponent hmethod in
theorem timed_record (request : Request) : request.timed.record = request.record := rfl

theorem openAwait_of_none
    (hlookup : lookup cbor table component method request.record.params = none) :
    openAwait cbor handlers table state request =
      ⟨state, none, unsupported cbor request.timed component method⟩ := by
  unfold openAwait
  simp only [timed_record, hcomponent, hmethod, hlookup]

theorem openNow_of_none (hlookup : lookup cbor table component method request.record.params =
    none) : openNow cbor handlers table state request =
      ⟨state, none, unsupported cbor request.timed component method⟩ := by
  unfold openNow
  simp only [timed_record, hcomponent, hmethod, hlookup]

section

variable {entry : Entry η}
    (hlookup : lookup cbor table component method request.record.params = some entry) {state' : σ}
variable {outcome : Option (Outcome ω)}
include hlookup

theorem openAwait_of_some
    (hawait : handlers.await state entry.handler request.timed = (state', outcome)) :
    openAwait cbor handlers table state request =
      ⟨state', some (entry, request.timed),
        outcome.or (unsupported cbor request.timed component method)⟩ := by
  unfold openAwait
  simp only [timed_record, hcomponent, hmethod, hlookup, hawait]

theorem openNow_of_ready
    (hpoll : handlers.poll state entry.handler request.timed = (state', some outcome)) :
    openNow cbor handlers table state request =
      ⟨state', some (entry, request.timed),
        outcome.or (unsupported cbor request.timed component method)⟩ := by
  unfold openNow
  simp only [timed_record, hcomponent, hmethod, hlookup, hpoll]

theorem openNow_of_pending
    (hpoll : handlers.poll state entry.handler request.timed = (state', none)) :
    openNow cbor handlers table state request =
      ⟨state', some (entry, request.timed),
        errorOutcome cbor request.timed component method runtimeMessage⟩ := by
  unfold openNow
  simp only [timed_record, hcomponent, hmethod, hlookup, hpoll]

end

theorem openAwait_ran : (openAwait cbor handlers table state request).ran =
    selection cbor table request component method := by
  unfold selection
  cases hlookup : lookup cbor table component method request.record.params with
  | none => rw [openAwait_of_none hcomponent hmethod hlookup]; rfl
  | some entry => rw [openAwait_of_some hcomponent hmethod hlookup rfl]; rfl

theorem openNow_ran : (openNow cbor handlers table state request).ran =
    selection cbor table request component method := by
  unfold selection
  cases hlookup : lookup cbor table component method request.record.params with
  | none => rw [openNow_of_none hcomponent hmethod hlookup]; rfl
  | some entry =>
    cases hpoll : handlers.poll state entry.handler request.timed with
    | mk state' outcome =>
      cases outcome with
      | none => rw [openNow_of_pending hcomponent hmethod hlookup hpoll]; rfl
      | some outcome => rw [openNow_of_ready hcomponent hmethod hlookup hpoll]; rfl

theorem openNow_eq_openAwait
    (hready : ReadyAtOnce cbor handlers table state request component method) :
    openNow cbor handlers table state request = openAwait cbor handlers table state request := by
  cases hlookup : lookup cbor table component method request.record.params with
  | none =>
    rw [openNow_of_none hcomponent hmethod hlookup, openAwait_of_none hcomponent hmethod hlookup]
  | some entry =>
    have hsome := hready entry hlookup
    cases hpoll : handlers.poll state entry.handler request.timed with
    | mk state' outcome =>
      rw [hpoll] at hsome
      obtain ⟨outcome, rfl⟩ := isSome_iff_exists.mp hsome
      rw [openNow_of_ready hcomponent hmethod hlookup hpoll,
        openAwait_of_some hcomponent hmethod hlookup (handlers.await_ready hpoll)]

include hlaw in
theorem openAwait_declined (h : Declined cbor handlers table state request component method) :
    (openAwait cbor handlers table state request).result =
      (numericAnswer cbor request component method unsupportedMessage).map fun header =>
        .respond (.ofHeader header) := by
  have hunsupported : (unsupported cbor request.timed component method : Option (Outcome ω)) =
      (numericAnswer cbor request component method unsupportedMessage).map fun header =>
        .respond (.ofHeader header) :=
    errorOutcome_eq hlaw (by decide)
  rw [← hunsupported]
  cases hlookup : lookup cbor table component method request.record.params with
  | none => rw [openAwait_of_none hcomponent hmethod hlookup]
  | some entry =>
    cases hawait : handlers.await state entry.handler request.timed with
    | mk state' outcome =>
      have hnone := h entry hlookup
      rw [hawait] at hnone
      obtain rfl : outcome = none := hnone
      rw [openAwait_of_some hcomponent hmethod hlookup hawait]
      rfl

/-- What the entry points agree on. -/
structure Dispatches (cbor : Codec) (handlers : Handlers σ η ω) (table : Nat → Option (Entry η))
    (state : σ) (request : Request) (component method : Nat) : Prop where
  selected : ∀ entry, lookup cbor table component method request.record.params = some entry →
    Selected cbor table component method request.record.params entry
  unselected : lookup cbor table component method request.record.params = none →
    ∀ slot other, table slot = some other →
      ¬ Starts cbor component method request.record.params other
  ran : (openAwait cbor handlers table state request).ran = selection cbor table request component
    method ∧
    (openNow cbor handlers table state request).ran = selection cbor table request component method
  ready : ReadyAtOnce cbor handlers table state request component method →
    openNow cbor handlers table state request = openAwait cbor handlers table state request
  declined : Declined cbor handlers table state request component method →
    (openAwait cbor handlers table state request).result =
      (numericAnswer cbor request component method unsupportedMessage).map fun header =>
        .respond (.ofHeader header)
  answered : (numericAnswer cbor request component method unsupportedMessage).isSome ↔
    request.context.delivery = .stream ∧ request.record.id.isSome ∧
      request.record.destination = none
  /-- The same for a header that is dispatched as a whole. -/
  headers : decode cbor request.header = some request.record →
    (dispatch cbor handlers table state request.header request.context).ran =
        selection cbor table request component method ∧
      (dispatchNow cbor handlers table state request.header request.context).ran =
        selection cbor table request component method ∧
      (ReadyAtOnce cbor handlers table state request component method →
        dispatchNow cbor handlers table state request.header request.context =
          dispatch cbor handlers table state request.header request.context) ∧
      (Declined cbor handlers table state request component method →
        (dispatch cbor handlers table state request.header request.context).result =
          numericAnswer cbor request component method unsupportedMessage)

include hlaw in
theorem dispatches (hkinds : TellsKinds cbor)
    (hbeyond : ∀ slot, capacity ≤ slot → table slot = none)
    (hunique : ∀ slot slot' a b, table slot = some a → table slot' = some b → a.key = b.key →
      slot = slot') : Dispatches cbor handlers table state request component method where
  selected := (lookup_spec hkinds hbeyond hunique).1
  unselected := (lookup_spec hkinds hbeyond hunique).2
  ran := ⟨openAwait_ran hcomponent hmethod, openNow_ran hcomponent hmethod⟩
  ready := openNow_eq_openAwait hcomponent hmethod
  declined := openAwait_declined hlaw hcomponent hmethod
  answered := numericAnswer_isSome _
  headers := by
    intro hdecode
    have hdispatch : dispatch cbor handlers table state request.header request.context =
        (openAwait cbor handlers table state request).headerOnly cbor request := by
      simp only [dispatch, hdecode]
    have hnow : dispatchNow cbor handlers table state request.header request.context =
        (openNow cbor handlers table state request).headerOnly cbor request := by
      simp only [dispatchNow, hdecode]
    rw [hdispatch, hnow]
    refine ⟨openAwait_ran hcomponent hmethod, openNow_ran hcomponent hmethod, fun hready =>
      ?_, fun hdeclined => ?_⟩
    · rw [openNow_eq_openAwait hcomponent hmethod hready]
    show intoHeaderOnly cbor request (openAwait cbor handlers table state request).result = _
    rw [openAwait_declined hlaw hcomponent hmethod hdeclined]
    cases numericAnswer cbor request component method unsupportedMessage with
    | none => rfl
    | some header => rfl

end Answers

/-! ## Every run -/

/-- No task starts to publish a key while another one is publishing it. -/
def Undisturbed (s : Publishing η ι) : Op η ι → Prop
  | .publish _ entry => Claims.Shared.Apart Entry.key s entry
  | .advance _ => True

theorem inv_step {s : Publishing η ι} (h : Claims.Shared.Inv capacity Entry.key s) {op : Op η ι}
    (hok : Undisturbed s op) : Claims.Shared.Inv capacity Entry.key (step s op) := by
  cases op with
  | publish task entry =>
    unfold step
    simp only
    split
    · split
      · exact h.refuse task entry
      · exact h.enter hok
    · exact h
  | advance => exact h.advance ..

/-- When no two tasks publish one key at the same time, keys are unique, what was published stays,
and every request with numbers goes to the one handler with the longest key that starts its own. -/
theorem registry_dispatches {cbor : Codec} (hlaw : cbor.Lawful) (hkinds : TellsKinds cbor)
    {ops : List (Op η ι)} (h : Runs.Along step Undisturbed Claims.Shared.start ops) :
    let table := (Runs.exec step start ops).table
    (∀ slot slot' a b, table slot = some a → table slot' = some b → a.key = b.key → slot = slot') ∧
    (∀ entry, (entry, true) ∈ (Runs.exec step start ops).returned →
      ∃ slot, table slot = some entry) ∧
    ∀ (σ ω : Type) (handlers : Handlers σ η ω) (state : σ) (request : Request)
      (component method : Nat),
      request.record.component = some (.tag component) →
        request.record.method = some (.tag method) →
        Dispatches cbor handlers table state request component method := by
  have hinv : Claims.Shared.Inv capacity Entry.key (Runs.exec step start ops) :=
    Runs.Along.invariant (P := Claims.Shared.Inv capacity Entry.key) (fun s op hs hok =>
      inv_step hs hok)
      inv_start h
  exact ⟨hinv.unique, hinv.visible,
    fun σ ω handlers state request component method hcomponent hmethod =>
    dispatches hlaw hcomponent hmethod hkinds hinv.beyond hinv.unique⟩

/-- Two entries with one key. -/
def statusEntry (handler : Nat) : Entry Nat := ⟨⟨4, 8⟩, [], handler⟩

/-- A task reads every slot, and turns to claiming. -/
def reads (task : Bool) : List (Op Nat Bool) := List.replicate (capacity + 1) (.advance task)

theorem decline_ready {state' : Unit} {outcome : Option (Outcome Unit)}
    (h : ((), some none) = (state', some outcome)) :
    ((), none) = (state', outcome) := by
  obtain ⟨rfl, hnone⟩ := Prod.mk.inj h
  rw [some.inj hnone]

/-- Handlers that decline. -/
def decliners : Handlers Unit Nat Unit :=
  ⟨fun _ _ _ => ((), some none), fun _ _ _ => ((), none), decline_ready⟩

def statusRequest : Request :=
  ⟨{ Record.default with component := some (.tag 4), method := some (.tag 8), id := some 9 }, [],
    ⟨.stream, none, none, false, none, none⟩⟩

theorem minimal_tellsKinds : TellsKinds minimal := by
  intro d read hread
  show readString 3 d = none
  have hread : readMajor 0 d = some read := hread
  have htext : readMajor 3 d = none := by
    unfold readMajor at hread ⊢
    cases hhead : readHead d with
    | none => rfl
    | some found =>
      rw [hhead] at hread
      simp only at hread ⊢
      split at hread
      · rename_i hmajor
        rw [if_neg (by omega)]
      · cases hread
  rw [readString, htext]

theorem along_advances (s : Publishing Nat Bool) (task : Bool) (n : Nat) :
    Runs.Along step Undisturbed s (replicate n (.advance task)) := by
  induction n generalizing s with
  | zero => trivial
  | succ n ih => exact ⟨trivial, ih _⟩

/-- One entry is published; a request for it goes to its handler. -/
theorem registry_dispatches_status :
    Dispatches minimal decliners (Runs.exec step Claims.Shared.start
      (.publish true (statusEntry 1) :: replicate 130 (.advance true))).table ()
        statusRequest 4 8 :=
  (registry_dispatches minimal_lawful minimal_tellsKinds
    (show Runs.Along step Undisturbed start (.publish true (statusEntry 1) :: _) from
      ⟨(fun j other h => by cases h), along_advances _ true 130⟩)).2.2 Unit Unit decliners ()
        statusRequest 4 8 rfl rfl

/-- Two tasks that publish one key read the table before either claims a slot: both succeed. -/
theorem registry_duplicate :
    let s : Publishing Nat Bool := Runs.exec step start
      ([.publish true (statusEntry 1), .publish false (statusEntry 2)] ++
        (reads true ++ (reads false ++ [.advance true, .advance false, .advance false])))
    s.returned = [(statusEntry 1, true), (statusEntry 2, true)] ∧
      s.table 0 = some (statusEntry 1) ∧ s.table 1 = some (statusEntry 2) ∧
      (statusEntry 1).key = (statusEntry 2).key := by
  decide +kernel

end QuicLite.Registry

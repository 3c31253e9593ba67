import QuicLite.Stream.Scan

/-!
# The server side of a request stream

The transport pushes the bytes of a request chunk by chunk. The first item is the header; it selects
a handler, which answers at once, takes the body into a sink, or answers later. What handlers do,
the codec of records and the bytes of an error header are parameters.
-/

namespace QuicLite.Stream

def maxSurplusBytes : Nat := 2048

/-! ## Handlers -/

/-- What a handler decided about a request. -/
inductive Outcome (σ δ ρ : Type) where
  | respond (response : ρ)
  | receive (sink : σ)
  | defer (deferred : δ)

/-- Sinks, deferred work, responses, and the handlers that produce them. -/
structure Host (σ δ ρ : Type) where
  /-- How many bytes the sink took, or the header of a response that ends the request. -/
  write : σ → Bytes → Bool → Except Bytes (Nat × σ)
  finish : σ → ρ
  pollDeferred : δ → Option ρ × δ
  /-- A response that is only a header. -/
  headerOnly : Bytes → ρ
  /-- The record in the header is decoded and its handler opened. -/
  openNow : Bytes → Option (Outcome σ δ ρ)
  /-- The correlation id of a header, when it can be decoded. -/
  idOf : Bytes → Option Nat
  errorHeader : Option Nat → String → Bytes
  write_le : ∀ {sink chunk fin accepted sink'}, write sink chunk fin = .ok (accepted, sink') →
    accepted ≤ chunk.length

/-! ## The stream -/

inductive Phase (σ δ : Type) where
  | header
  | body (sink : σ)
  | waiting (deferred : δ)
  | discard

/-- What has happened to the sink so far. No function of the stream reads it. -/
structure SinkLog where
  opened : Bool
  taken : Bytes
  failed : Bool
  finishes : Nat

structure ServerStream (σ δ : Type) where
  phase : Phase σ δ
  received : Nat
  header : Bytes
  surplus : Bytes
  fin : Bool
  finished : Bool
  log : SinkLog

structure Pushed (ρ : Type) where
  accepted : Nat
  response : Option ρ

namespace ServerStream

variable {σ δ ρ : Type} (host : Host σ δ ρ)

def new : ServerStream σ δ := ⟨.header, 0, [], [], false, false, ⟨false, [], false, 0⟩⟩

variable (self : ServerStream σ δ)

/-- The request is answered. -/
def answered : ServerStream σ δ := { self with phase := .discard, finished := true }

def fail (accepted : Nat) (message : String) : ServerStream σ δ × Pushed ρ :=
  (self.answered, ⟨accepted,
    some (host.headerOnly (host.errorHeader (host.idOf self.header) message))⟩)

/-- The sink took some bytes. -/
def took (sink : σ) (bytes : Bytes) : ServerStream σ δ :=
  { self with phase := .body sink, log := { self.log with taken := self.log.taken ++ bytes } }

/-- The sink failed. -/
def sinkFailed : ServerStream σ δ :=
  { self.answered with log := { self.log with failed := true } }

def complete : ServerStream σ δ × Option ρ :=
  match self.phase with
  | .body sink =>
    ({ self.answered with log := { self.log with finishes := self.log.finishes + 1 } },
      some (host.finish sink))
  | _ => (self, none)

/-- Hands held body bytes to the sink, and finishes when they were the last ones. -/
def drainSurplus : ServerStream σ δ × Option ρ :=
  match self.phase with
  | .body sink =>
    if !self.surplus.isEmpty || self.fin then
      match host.write sink self.surplus self.fin with
      | .ok (accepted, sink) =>
        let next := { self.took sink (self.surplus.take accepted) with
          surplus := self.surplus.drop accepted }
        if next.surplus.isEmpty && next.fin then next.complete host else (next, none)
      | .error header => (self.sinkFailed, some (host.headerOnly header))
    else (self, none)
  | _ => (self, none)

def poll : ServerStream σ δ × Option ρ :=
  match self.phase with
  | .body _ => if self.finished then (self, none) else self.drainSurplus host
  | .waiting deferred =>
    match host.pollDeferred deferred with
    | (some response, _) => (self.answered, some response)
    | (none, deferred) => ({ self with phase := .waiting deferred }, none)
  | _ => (self, none)

/-- The header is complete and selects a handler. -/
def openHandler (length : Nat) (atEnd : Bool) : ServerStream σ δ × Option ρ :=
  let self := { self with
    surplus := self.header.drop length, header := self.header.take length, fin := atEnd }
  match host.openNow self.header with
  | some (.respond response) => ({ self.answered with surplus := [] }, some response)
  | some (.receive sink) =>
    drainSurplus host { self with phase := .body sink, log := { self.log with opened := true } }
  | some (.defer deferred) => poll host { self with phase := .waiting deferred, surplus := [] }
  | none => (self.answered, none)

def pushHeader (fin : Bool) (chunk : Bytes) : ServerStream σ δ × Pushed ρ :=
  let room := maxHeaderBytes + maxSurplusBytes - self.header.length
  let count := min chunk.length room
  let self := { self with
    header := self.header ++ chunk.take count, received := self.received + count }
  let atEnd := fin && count == chunk.length
  match scanHeader self.header with
  | .needMore =>
    if atEnd then self.fail host count "request ended inside its header" else (self, ⟨count, none⟩)
  | .invalid => self.fail host count "invalid request header"
  | .complete length => let (next, response) := self.openHandler host length atEnd;
      (next, ⟨count, response⟩)

def pushBody (fin : Bool) (chunk : Bytes) : ServerStream σ δ × Pushed ρ :=
  if !self.surplus.isEmpty then
    -- Held bytes go first, to keep the body ordered.
    let room := maxSurplusBytes - self.surplus.length
    let count := min chunk.length room
    let (next, response) := drainSurplus host
      { self with
        surplus := self.surplus ++ chunk.take count
        received := self.received + count
        fin := fin && count == chunk.length }
    (next, ⟨count, response⟩)
  else
    match self.phase with
    | .body sink =>
      match host.write sink chunk fin with
      | .ok (accepted, sink) =>
        let next := { self.took sink (chunk.take accepted) with
          received := self.received + accepted }
        if fin && accepted == chunk.length then
          let (next, response) := next.complete host
          (next, ⟨accepted, response⟩)
        else (next, ⟨accepted, none⟩)
      | .error header => (self.sinkFailed, ⟨chunk.length, some (host.headerOnly header)⟩)
    | _ => (self, ⟨0, none⟩)

def push (offset : Nat) (fin : Bool) (chunk : Bytes) : ServerStream σ δ × Pushed ρ :=
  if offset ≠ self.received then self.fail host chunk.length "stream offset rejected"
  else
    match self.phase with
    | .discard | .waiting _ =>
      ({ self with received := self.received + chunk.length }, ⟨chunk.length, none⟩)
    | .header => self.pushHeader host fin chunk
    | .body _ => self.pushBody host fin chunk

end ServerStream

end QuicLite.Stream

import QuicLite.Stream.Delivery
import QuicLite.Registry.Dispatch

/-!
# The host server of a request stream

A server with a runtime serves a request stream in one function that reads, where the firmware is
pushed to. Both take the header from the registry and give the body to the sink that the handler
opens. The two are compared here: when does the client get the same bytes from both, whatever the
portions in which its request arrives?
-/

namespace QuicLite.Stream

open Cbor Discovery List Nat Session ServerStream Prod

/-! ## One registry -/

/-- A registry, and what is behind its handlers: sinks, deferred work and bodies. -/
structure Site (σ η ω : Type) where
  cbor : Codec
  handlers : Registry.Handlers σ η ω
  table : Nat → Option (Registry.Entry η)
  state : σ
  isLocal : Bool
  write : ω → Bytes → Bool → Except Bytes (Nat × ω)
  finish : ω → Registry.Response ω
  pollDeferred : ω → Option (Registry.Response ω) × ω
  /-- The bytes of a body, read until it is done. -/
  source : ω → Bytes
  write_le : ∀ {sink chunk fin accepted sink'}, write sink chunk fin = .ok (accepted, sink') →
    accepted ≤ chunk.length

def utf8 (text : String) : Bytes := text.toList.flatMap String.utf8EncodeChar

def errorRecord (cbor : Codec) (id : Option Nat) (message : Bytes) : Bytes :=
  match id with
  | some id =>
    cbor.map 2 ++ (cbor.uint 3 ++ (cbor.uint id ++ (cbor.uint 7 ++ cbor.textValue message)))
  | none => cbor.map 1 ++ (cbor.uint 7 ++ cbor.textValue message)

/-- `error_header`, with its buffer. -/
def errorHeader (cbor : Codec) (id : Option Nat) (message : String) : Bytes :=
  let bytes := errorRecord cbor id (utf8 message)
  if bytes.length ≤ 64 + (utf8 message).length then bytes else []

namespace Site

variable {σ η ω : Type} (self : Site σ η ω)

/-- What a client gets of a response. -/
def bytes (response : Registry.Response ω) : Bytes :=
  response.header ++ (response.body.map self.source).getD []

/-- The request of a header, in the context of a stream. -/
def request (header : Bytes) (record : Record) : Registry.Request :=
  ⟨record, header, ⟨.stream, none, none, self.isLocal, none, none⟩⟩

def outcome : Registry.Outcome ω → Outcome ω ω Bytes
  | .respond response => .respond (self.bytes response)
  | .receive sink => .receive sink
  | .defer work => .defer work

/-- The handlers as the pushed stream finds them. -/
def host : Host ω ω Bytes where
  write := self.write
  finish := fun sink => self.bytes (self.finish sink)
  pollDeferred := fun work =>
    ((self.pollDeferred work).1.map self.bytes, (self.pollDeferred work).2)
  headerOnly := fun header => self.bytes (.ofHeader header)
  openNow := fun header => (decode self.cbor header).bind fun record =>
    (Registry.openNow self.cbor self.handlers self.table self.state
      (self.request header record)).result.map self.outcome
  idOf := fun header => (decode self.cbor header).bind fun record => record.id
  errorHeader := errorHeader self.cbor
  write_le := self.write_le

end Site

/-! ## The loop -/

inductive ServePhase (ω : Type) where
  | header (buffer : Bytes)
  | body (sink : ω) (pending : Bytes) (ended : Bool)
  | waiting (deferred : ω)
  /-- The response direction was ended, after these bytes. -/
  | done (response : Option Bytes)

/-- The server, the bytes that it has not read, and those that its sink took. -/
structure Serving (ω : Type) where
  phase : ServePhase ω
  rest : Bytes
  taken : Bytes

namespace Serving

variable {σ η ω : Type} (site : Site σ η ω)

def start (request : Bytes) : Serving ω := ⟨.header [], request, []⟩

/-- How much a read of at most 2048 bytes gives, when the transport has `size` of them. -/
def count (size : Nat) : Nat := min (max size 1) 2048

variable (self : Serving ω)

def writeError (message : String) : Serving ω :=
  { self with phase := .done (some (errorHeader site.cbor none message)) }

/-- The header is complete. -/
def enter (buffer : Bytes) (length : Nat) : Serving ω :=
  match decode site.cbor (buffer.take length) with
  | none => self.writeError site "invalid request header"
  | some record =>
    match (Registry.openAwait site.cbor site.handlers site.table site.state
      (site.request (buffer.take length) record)).result with
    | none => { self with phase := .done none }
    | some (.respond response) => { self with phase := .done (some (site.bytes response)) }
    | some (.defer deferred) => { self with phase := .waiting deferred }
    | some (.receive sink) => { self with phase := .body sink (buffer.drop length) false }

/-- Reads more of the body behind what is pending, or learns that it ended. -/
def readBody (sink : ω) (pending : Bytes) (ended : Bool) (size : Nat) : Serving ω :=
  if self.rest.isEmpty then { self with phase := .body sink pending true }
  else
    { self with
      phase := .body sink (pending ++ self.rest.take (count size)) ended
      rest := self.rest.drop (count size) }

/-- One turn of the loop the server is in. -/
def step (size : Nat) : Serving ω :=
  match self.phase with
  | .header buffer =>
    match scanHeader buffer with
    | .complete length => self.enter site buffer length
    | .invalid => self.writeError site "invalid request header"
    | .needMore =>
      if self.rest.isEmpty then self.writeError site "request ended inside its header"
      else
        { self with
          phase := .header (buffer ++ self.rest.take (count size))
          rest := self.rest.drop (count size) }
  | .body sink pending ended =>
    if !pending.isEmpty || ended then
      match site.write sink pending ended with
      | .error header => { self with phase := .done (some (site.bytes (.ofHeader header))) }
      | .ok (accepted, sink) =>
        let self := { self with taken := self.taken ++ pending.take accepted }
        let pending := pending.drop accepted
        if pending.isEmpty && ended then
          { self with phase := .done (some (site.bytes (site.finish sink))) }
        -- The sink is withholding bytes.
        else if !pending.isEmpty then { self with phase := .body sink pending ended }
        else self.readBody sink pending ended size
    else self.readBody sink pending ended size
  | .waiting deferred =>
    match site.pollDeferred deferred with
    | (some response, _) => { self with phase := .done (some (site.bytes response)) }
    | (none, deferred) => { self with phase := .waiting deferred }
  | .done _ => self

end Serving

/-! ## Agreement -/

/-- The request direction has ended and nothing more can be answered. -/
def Session.Complete {σ δ ρ : Type} (self : Session σ δ ρ) : Prop :=
  self.ended = true ∧ self.stream.phase = .discard

/-- Some driver brings the stream to this session. -/
def Reaches {σ δ ρ : Type} (host : Host σ δ ρ) (request : Bytes) (s : Session σ δ ρ) : Prop :=
  ∃ ops, Runs.Along (step host request) (Drives request) .new ops ∧
    Runs.exec (step host request) .new ops = s

section Agreement

variable {σ η ω : Type} (site : Site σ η ω) (request : Bytes)

/-- The reading server, after a run, has ended the response direction. -/
def Ended (s : Serving ω) (response : Option Bytes) : Prop :=
  s.phase = .done response ∧ ∃ sizes, Runs.exec (Serving.step site) (.start request) sizes = s

/-- However the request is pushed to the one and read by the other: if one can come to the end, the
other can, and at the end both gave the same response, or none, and the same bytes to the sink. -/
structure Agree : Prop where
  ends : (∃ s, Reaches site.host request s ∧ s.Complete) ↔
    ∃ s response, Ended site request s response
  same : ∀ (session : Session ω ω Bytes) (serving : Serving ω) (response : Option Bytes),
    Reaches site.host request session → session.Complete → Ended site request serving response →
      session.responses = response.toList ∧ session.stream.log.taken = serving.taken

end Agreement

/-! ## The condition -/

/-- A sink was given a part of a body, in some pieces: what it took, its state, and what is left. -/
inductive Feeds {σ δ ρ : Type} (host : Host σ δ ρ) (sink : σ) (body : Bytes) :
    Bytes → σ → Bytes → Prop
  | start : Feeds host sink body [] sink body
  | more {taken : Bytes} {next : σ} {left : Bytes} (h : Feeds host sink body taken next left)
      {chunk : Bytes} {fin : Bool} (hchunk : chunk.IsPrefix left) (hfin : fin = true → chunk = left)
      {accepted : Nat} {last : σ} (hwrite : host.write next chunk fin = .ok (accepted, last))
      (hopen : fin = true → accepted < left.length) :
      Feeds host sink body (taken ++ left.take accepted) last (left.drop accepted)

/-- What the sink took of the body in the end, and the response. -/
inductive Fed {σ δ ρ : Type} (host : Host σ δ ρ) (sink : σ) (body : Bytes) : Bytes → ρ → Prop
  | finished {taken : Bytes} {next : σ} {left : Bytes} (h : Feeds host sink body taken next left)
      {last : σ} (hwrite : host.write next left true = .ok (left.length, last)) :
      Fed host sink body body (host.finish last)
  | failed {taken : Bytes} {next : σ} {left : Bytes} (h : Feeds host sink body taken next left)
      {chunk : Bytes} {fin : Bool} (hchunk : chunk.IsPrefix left) (hfin : fin = true → chunk = left)
      {header : Bytes} (hwrite : host.write next chunk fin = .error header) :
      Fed host sink body taken (host.headerOnly header)

/-- The header that the stream reports an error for has no id that it could put into the error, and
a header that is complete is a record. -/
def HeaderOk {σ η ω : Type} (site : Site σ η ω) (request : Bytes) : Prop :=
  match scanHeader request with
  | .complete length => (decode site.cbor (request.take length)).isSome
  | .needMore => site.host.idOf request = none
  | .invalid => ∀ n ≤ maxHeaderBytes + maxSurplusBytes, scanHeader (request.take n) = .invalid →
      site.host.idOf (request.take n) = none

/-- A sink that the handler opens takes all of the body and answers the same, however the body is
cut. -/
def Uniform {σ δ ρ : Type} (host : Host σ δ ρ) (request : Bytes) : Prop :=
  ∀ length sink, scanHeader request = .complete length →
    host.openNow (request.take length) = some (.receive sink) →
    ∀ taken response taken' response', Fed host sink (request.drop length) taken response →
      Fed host sink (request.drop length) taken' response' →
        taken = request.drop length ∧ response = response'

/-- A sink comes to the end of a body when it is offered one piece after the other, what it
withholds of a piece again before the next one, and the end after the last. -/
inductive Relayed {σ δ ρ : Type} (host : Host σ δ ρ) : σ → Bytes → Bytes → Prop
  | ended (sink : σ) : Relayed host sink [] []
  | piece {sink : σ} {rest : Bytes} (n : Nat) (hn : 0 < n ∧ n ≤ 2048) (hrest : rest ≠ [])
      (h : Relayed host sink (rest.take n) (rest.drop n)) : Relayed host sink [] rest
  | offered {sink next : σ} {pending rest : Bytes} {accepted : Nat} (hpending : pending ≠ [])
      (hwrite : host.write sink pending false = .ok (accepted, next))
      (h : Relayed host next (pending.drop accepted) rest) :
      Relayed host sink pending rest
  | failed {sink : σ} {pending rest header : Bytes} (hpending : pending ≠ [])
      (hwrite : host.write sink pending false = .error header) : Relayed host sink pending rest

/-- A sink that comes to the end of the body in some pieces does so when they are relayed. -/
def Relays {σ δ ρ : Type} (host : Host σ δ ρ) (request : Bytes) : Prop :=
  ∀ length sink, scanHeader request = .complete length →
    host.openNow (request.take length) = some (.receive sink) →
    (∃ taken response, Fed host sink (request.drop length) taken response) →
      Relayed host sink [] (request.drop length)

/-! ## Feeding -/

section Feeding

variable {σ δ ρ : Type} {host : Host σ δ ρ} {sink next : σ} {body taken left : Bytes}

section

variable (h : Feeds host sink body taken next left) {chunk tail : Bytes}
variable {accepted : Nat} {last : σ}
include h

theorem Feeds.split : body = taken ++ left := by
  induction h with
  | start => rfl
  | more h _ _ _ _ ih => rw [ih, append_assoc, take_append_drop]

/-- A write that leaves something, of what is offered or of what is to come. -/
theorem Feeds.write (hleft : left = chunk ++ tail) {fin : Bool} (hfin : fin = true → tail = [])
    (hwrite : host.write next chunk fin = .ok (accepted, last))
    (hopen : fin = true → accepted < chunk.length) :
    Feeds host sink body (taken ++ chunk.take accepted) last (chunk.drop accepted ++ tail) := by
  have hle := host.write_le hwrite
  have hchunk : chunk.IsPrefix left := hleft ▸ prefix_append _ _
  have hlast : fin = true → chunk = left := fun hend => by rw [hleft, hfin hend, append_nil]
  have hmore := h.more hchunk hlast hwrite fun hend => by
    rw [← hlast hend]
    exact hopen hend
  rwa [hleft, take_append_of_le_length hle, drop_append_of_le_length hle] at hmore

theorem Feeds.finish (hleft : left = chunk ++ tail)
    (htail : tail = []) (hwrite : host.write next chunk true = .ok (accepted, last))
    (hall : chunk.length ≤ accepted) : Fed host sink body body (host.finish last) := by
  have hle := host.write_le hwrite
  obtain rfl : accepted = chunk.length := le_antisymm hle hall
  rw [htail, append_nil] at hleft
  exact .finished h (hleft ▸ hwrite)

theorem Feeds.fail (hleft : left = chunk ++ tail)
    {fin : Bool} (hfin : fin = true → tail = []) {header : Bytes}
    (hwrite : host.write next chunk fin = .error header) :
    Fed host sink body taken (host.headerOnly header) :=
  .failed h (hleft ▸ prefix_append _ _) (fun hend => by rw [hleft, hfin hend, append_nil]) hwrite

end

end Feeding

/-! ## Answers -/

section Answers

variable {σ δ ρ : Type}

/-- Deferred work has a response after some polls. -/
inductive Yields (host : Host σ δ ρ) : δ → ρ → Prop
  | now {deferred next : δ} {response : ρ}
      (h : host.pollDeferred deferred = (some response, next)) :
      Yields host deferred response
  | later {deferred next : δ} {response : ρ} (h : host.pollDeferred deferred = (none, next))
      (hnext : Yields host next response) : Yields host deferred response

theorem Yields.unique {host : Host σ δ ρ} {deferred : δ} {response response' : ρ}
    (h : Yields host deferred response) (h' : Yields host deferred response') :
    response = response' := by
  induction h with
  | now hpoll =>
    cases h' with
    | now hpoll' => exact Option.some.inj (mk.inj (hpoll.symm.trans hpoll')).1
    | later hpoll' _ => cases (mk.inj (hpoll.symm.trans hpoll')).1
  | later hpoll _ ih =>
    cases h' with
    | now hpoll' => cases (mk.inj (hpoll.symm.trans hpoll')).1
    | later hpoll' hnext' =>
      obtain rfl := (mk.inj (hpoll.symm.trans hpoll')).2
      exact ih hnext'

/-- What comes of a handler's decision: the bytes that a sink took, and the responses. -/
inductive Handled (host : Host σ δ ρ) (body : Bytes) :
    Option (Outcome σ δ ρ) → Bytes → List ρ → Prop
  | declined : Handled host body none [] []
  | responded (response : ρ) : Handled host body (some (.respond response)) [] [response]
  | deferred {deferred : δ} {response : ρ} (h : Yields host deferred response) :
      Handled host body (some (.defer deferred)) [] [response]
  | received {sink : σ} {taken : Bytes} {response : ρ} (h : Fed host sink body taken response) :
      Handled host body (some (.receive sink)) taken [response]

/-- What a stream comes to that is pushed to its end. -/
inductive PushedTo (host : Host σ δ ρ) (request : Bytes) : Bytes → List ρ → Prop
  | handled {length : Nat} (hlength : scanHeader request = .complete length) {taken : Bytes}
      {responses : List ρ} (h : Handled host (request.drop length)
        (host.openNow (request.take length)) taken responses) :
      PushedTo host request taken responses
  | refused {n : Nat} (hn : n ≤ maxHeaderBytes + maxSurplusBytes)
      (hscan : scanHeader (request.take n) = .invalid) :
      PushedTo host request []
        [host.headerOnly (host.errorHeader (host.idOf (request.take n)) "invalid request header")]
  | cut (hscan : scanHeader request = .needMore) :
      PushedTo host request []
        [host.headerOnly (host.errorHeader (host.idOf request) "request ended inside its header")]

/-- What a session has come to so far. -/
inductive Tracks (host : Host σ δ ρ) (request : Bytes) (s : Session σ δ ρ) : Prop
  | header (hphase : s.stream.phase = .header)
      (hheld : s.accepted ≤ maxHeaderBytes + maxSurplusBytes)
  | body (length : Nat) (sink next : σ) (hphase : s.stream.phase = .body next)
      (hlength : scanHeader request = .complete length)
      (hopen : host.openNow (request.take length) = some (.receive sink))
      (hfeeds : Feeds host sink (request.drop length) s.stream.log.taken
        next (s.stream.surplus ++ request.drop s.accepted))
  | waiting (length : Nat) (deferred next : δ) (hphase : s.stream.phase = .waiting next)
      (hlength : scanHeader request = .complete length)
      (hopen : host.openNow (request.take length) = some (.defer deferred))
      (hyields : ∀ response, Yields host next response → Yields host deferred response)
  | answered (hphase : s.stream.phase = .discard)
      (h : PushedTo host request s.stream.log.taken s.responses)

theorem responses_one {s : Session σ δ ρ} (hresponses : s.responses = []) (response : ρ) :
    s.responses ++ (some response).toList = [response] := by
  rw [hresponses]
  rfl

variable {host : Host σ δ ρ} {request : Bytes} {s : Session σ δ ρ} {length : Nat}
  (hlength : scanHeader request = .complete length)
include hlength

theorem Tracks.drained {sink next : σ}
    (hopen : host.openNow (request.take length) = some (.receive sink))
    (hphase : s.stream.phase = .body next) (hresponses : s.responses = [])
    (hfin : s.stream.fin = true → request.drop s.accepted = [])
    (hfeeds : Feeds host sink (request.drop length) s.stream.log.taken next
      (s.stream.surplus ++ request.drop s.accepted)) :
    Tracks host request (s.answer (s.stream.drainSurplus host)) := by
  rw [drainSurplus, hphase]
  dsimp only
  split_ifs with hwork
  · cases hwrite : host.write next s.stream.surplus s.stream.fin with
    | error header =>
      refine .answered rfl (.handled hlength ?_)
      rw [hopen]
      show Handled host _ _ s.stream.log.taken (s.responses ++ _)
      rw [responses_one hresponses]
      exact .received (hfeeds.fail rfl hfin hwrite)
    | ok out =>
      obtain ⟨accepted, last⟩ := out
      dsimp only
      split_ifs with hlast
      · obtain ⟨hempty, hend⟩ : s.stream.surplus.drop accepted = [] ∧ s.stream.fin = true := by
          simpa [took] using hlast
        refine .answered rfl (.handled hlength ?_)
        rw [hopen]
        show Handled host _ _ (s.stream.log.taken ++ s.stream.surplus.take accepted)
          (s.responses ++ _)
        have hall : s.stream.surplus.length ≤ accepted := drop_eq_nil_iff.mp hempty
        have hbody : s.stream.log.taken ++ s.stream.surplus.take accepted =
            request.drop length := by
          rw [hfeeds.split, hfin hend, append_nil, take_of_length_le hall]
        rw [hbody]
        show Handled host _ _ _ (s.responses ++ (some (host.finish last)).toList)
        rw [responses_one hresponses]
        rw [hend] at hwrite
        exact .received (hfeeds.finish rfl (hfin hend) hwrite hall)
      · refine .body length sink last rfl hlength hopen ?_
        refine hfeeds.write rfl hfin hwrite fun hend => ?_
        by_contra hge
        have hempty : s.stream.surplus.drop accepted = [] :=
          drop_eq_nil_iff.mpr (Nat.le_of_not_lt hge)
        exact hlast (by simp [took, hempty, hend])
  · exact .body length sink next hphase hlength hopen hfeeds

theorem Tracks.polled {deferred next : δ}
    (hopen : host.openNow (request.take length) = some (.defer deferred))
    (hphase : s.stream.phase = .waiting next) (hresponses : s.responses = [])
    (htaken : s.stream.log.taken = [])
    (hyields : ∀ response, Yields host next response → Yields host deferred response) :
    Tracks host request (s.answer (s.stream.poll host)) := by
  rw [poll, hphase]
  dsimp only
  split
  · next response _ hpoll =>
      refine .answered rfl (.handled hlength ?_)
      rw [hopen]
      show Handled host _ _ s.stream.log.taken (s.responses ++ [response])
      rw [hresponses, htaken]
      exact .deferred (hyields response (.now hpoll))
  · next later hpoll =>
      exact .waiting length deferred later rfl hlength hopen fun response h =>
        hyields response (.later hpoll h)

omit hlength in
theorem Tracks.opened (hlog : Unopened s.stream.log) (hresponses : s.responses = [])
    (hheader : s.stream.header = request.take s.accepted)
    (hscan : scanHeader s.stream.header = .complete length)
    (hended : s.ended = true → request.drop s.accepted = []) :
    Tracks host request (s.answer (s.stream.openHandler host length s.ended)) := by
  have hle := (scanHeader_complete_iff.mp hscan).1
  have hwhole : s.stream.header ++ request.drop s.accepted = request := by
    rw [hheader, take_append_drop]
  have hlength : scanHeader request = .complete length :=
    hwhole ▸ scanHeader_append hscan (request.drop s.accepted)
  have hrecord : s.stream.header.take length = request.take length := by
    rw [← hwhole, take_append_of_le_length hle]
  have hbody : s.stream.header.drop length ++ request.drop s.accepted = request.drop length := by
    rw [← drop_append_of_le_length hle, hwhole]
  unfold openHandler
  dsimp only
  rw [hrecord]
  split
  · next response hopen =>
      refine .answered rfl (.handled hlength ?_)
      rw [hopen]
      show Handled host _ _ s.stream.log.taken (s.responses ++ [response])
      rw [hresponses, hlog.taken]
      exact .responded response
  · next sink hopen =>
      let stream : ServerStream σ δ := { s.stream with
        surplus := s.stream.header.drop length
        header := request.take length
        fin := s.ended
        phase := .body sink
        log := { s.stream.log with opened := true } }
      have hfeeds : Feeds host sink (request.drop length) s.stream.log.taken sink
          (s.stream.header.drop length ++ request.drop s.accepted) := by
        rw [hlog.taken, hbody]
        exact .start
      exact .drained (s := { s with stream }) hlength hopen rfl hresponses hended hfeeds
  · next deferred hopen =>
      let stream : ServerStream σ δ := { s.stream with
        surplus := []
        header := request.take length
        fin := s.ended
        phase := .waiting deferred }
      exact .polled (s := { s with stream }) hlength hopen rfl hresponses
        hlog.taken fun response h => h
  · next hopen =>
      refine .answered rfl (.handled hlength ?_)
      rw [hopen]
      show Handled host _ _ s.stream.log.taken (s.responses ++ [])
      rw [hresponses, hlog.taken]
      exact .declined

end Answers

/-! ## Pushing to the end -/

section Pushing

variable {σ δ ρ : Type} {host : Host σ δ ρ} {request : Bytes} {s : Session σ δ ρ} {count : Nat}
variable {length : Nat} {op : DriverOp}

theorem direct_split (s : Session σ δ ρ) (request : Bytes) (count : Nat) : request.drop s.accepted =
    s.chunk request count ++ request.drop (s.accepted + (s.chunk request count).length) := by
  have hchunk : (s.chunk request count).take (s.chunk request count).length ++
      request.drop (s.accepted + (s.chunk request count).length) = request.drop s.accepted :=
    drop_chunk (le_refl _)
  rwa [take_length, eq_comm] at hchunk

section

variable (h : SessionInv request s) {fin : Bool} (hdrives : Drives request s (.push count fin))
include h hdrives

theorem Tracks.pushHeader (hphase : s.stream.phase = .header)
    (hheld : s.accepted ≤ maxHeaderBytes + maxSurplusBytes)
    (hheader : s.stream.header = request.take s.accepted) (hlog : Unopened s.stream.log)
    (hresponses : s.responses = []) :
    Tracks host request (s.step host request (.push count fin)) := by
  rw [step]
  rw [h.push_header hphase, ServerStream.pushHeader]
  generalize hroom : maxHeaderBytes + maxSurplusBytes - s.stream.header.length = room
  generalize hn : min (s.chunk request count).length room = n
  have hle : n ≤ (s.chunk request count).length := hn ▸ min_le_left _ _
  have hgrown : s.stream.header ++ (s.chunk request count).take n =
      request.take (s.accepted + n) := by
    rw [hheader, take_chunk hle]
  have hgrownHeld : s.accepted + n ≤ maxHeaderBytes + maxSurplusBytes := by
    have hlength : s.stream.header.length = s.accepted := by
      rw [hheader, length_take_of_le h.within]
    omega
  have hends := ended_iff hdrives h.within (n := n)
  have hatEnd : (s.ended || (fin && n == (s.chunk request count).length)) =
      (fin && n == (s.chunk request count).length) := by rw [hdrives.1, Bool.false_or]
  cases hscan : scanHeader (s.stream.header ++ (s.chunk request count).take n) with
  | needMore =>
    split_ifs with hlast
    · have hall : request.take (s.accepted + n) = request :=
        take_of_length_le (le_of_eq (hends (by rw [hatEnd, hlast])).symm)
      rw [hgrown, hall] at hscan
      refine .answered rfl ?_
      show PushedTo host request s.stream.log.taken (s.responses ++ (some (host.headerOnly
        (host.errorHeader (host.idOf (s.stream.header ++ (s.chunk request count).take n))
          _))).toList)
      rw [hlog.taken, responses_one hresponses, hgrown, hall]
      exact .cut hscan
    · exact .header hphase hgrownHeld
  | invalid =>
    refine .answered rfl ?_
    show PushedTo host request s.stream.log.taken (s.responses ++ (some (host.headerOnly
      (host.errorHeader (host.idOf (s.stream.header ++ (s.chunk request count).take n)) _))).toList)
    rw [hlog.taken, responses_one hresponses, hgrown]
    exact .refused hgrownHeld (hgrown ▸ hscan)
  | complete length =>
    let next : Session σ δ ρ := ⟨{ s.stream with
      header := s.stream.header ++ (s.chunk request count).take n
      received := s.stream.received + n }, s.accepted + n,
        s.ended || (fin && n == (s.chunk request count).length),
      s.responses⟩
    have hopened : Tracks host request
        (next.answer (next.stream.openHandler host length next.ended)) :=
      Tracks.opened hlog hresponses hgrown hscan fun hend => by
        rw [show next.accepted = request.length from hends hend, drop_length]
    have hfin : next.ended = (fin && n == (s.chunk request count).length) := hatEnd
    rw [hfin] at hopened
    exact hopened

theorem direct_last : fin = true →
    request.drop (s.accepted + (s.chunk request count).length) = [] := by
  intro hend
  have hall : s.accepted + (s.chunk request count).length = request.length :=
    ended_iff hdrives h.within (by simp [hend])
  rw [hall, drop_length]

variable {sink next : σ} (hlength : scanHeader request = .complete length)
variable (hopen : host.openNow (request.take length) = some (.receive sink))
variable (hphase : s.stream.phase = .body next) (hresponses : s.responses = [])
include hlength hopen hphase hresponses

theorem Tracks.pushHeld (hheld : s.stream.surplus ≠ [])
    (hfeeds : Feeds host sink (request.drop length) s.stream.log.taken next
      (s.stream.surplus ++ request.drop s.accepted)) :
    Tracks host request (s.step host request (.push count fin)) := by
  have hsurplus : (!s.stream.surplus.isEmpty) = true := by simpa using hheld
  rw [step]
  rw [h.push_body hphase, pushBody, if_pos hsurplus]
  dsimp only
  generalize hn : min (s.chunk request count).length (maxSurplusBytes - s.stream.surplus.length) = n
  have hle : n ≤ (s.chunk request count).length := hn ▸ min_le_left _ _
  let grown : Session σ δ ρ := ⟨{ s.stream with
    surplus := s.stream.surplus ++ (s.chunk request count).take n
    received := s.stream.received + n
    fin := fin && n == (s.chunk request count).length }, s.accepted + n,
    s.ended || (fin && n == (s.chunk request count).length), s.responses⟩
  refine .drained (s := grown) hlength hopen hphase hresponses (fun hend => ?_) ?_
  · have hall : s.accepted + n = request.length := ended_iff hdrives h.within (by
      rw [show (fin && n == (s.chunk request count).length) = true from hend, Bool.or_true])
    show request.drop (s.accepted + n) = []
    rw [hall, drop_length]
  · show Feeds host sink _ _ _ (s.stream.surplus ++ (s.chunk request count).take n ++
      request.drop (s.accepted + n))
    rwa [append_assoc, drop_chunk hle]

theorem Tracks.pushDirect (hheld : s.stream.surplus = [])
    (hfeeds : Feeds host sink (request.drop length) s.stream.log.taken
      next (request.drop s.accepted)) :
    Tracks host request (s.step host request (.push count fin)) := by
  have hsurplus : ¬ (!s.stream.surplus.isEmpty) = true := by simp [hheld]
  have hsplit := direct_split s request count
  have htail := direct_last h hdrives
  rw [step]
  rw [h.push_body hphase, pushBody, if_neg hsurplus, hphase]
  dsimp only
  cases hwrite : host.write next (s.chunk request count) fin with
  | error header =>
    refine .answered rfl (.handled hlength ?_)
    rw [hopen]
    show Handled host _ _ s.stream.log.taken (s.responses ++ _)
    rw [responses_one hresponses]
    exact .received (hfeeds.fail hsplit htail hwrite)
  | ok out =>
    obtain ⟨accepted, last⟩ := out
    dsimp only
    split_ifs with hlast
    · obtain ⟨hend, hall⟩ : fin = true ∧ accepted = (s.chunk request count).length := by
        simpa using hlast
      refine .answered rfl (.handled hlength ?_)
      rw [hopen]
      show Handled host _ _ (s.stream.log.taken ++ (s.chunk request count).take accepted)
        (s.responses ++ _)
      have hbody : s.stream.log.taken ++ (s.chunk request count).take accepted =
          request.drop length := by
        rw [hfeeds.split, hsplit, htail hend, append_nil, hall, take_length]
      rw [hbody]
      show Handled host _ _ _ (s.responses ++ (some (host.finish last)).toList)
      rw [responses_one hresponses]
      rw [hend] at hwrite
      exact .received (hfeeds.finish hsplit (htail hend) hwrite (le_of_eq hall.symm))
    · refine .body length sink last rfl hlength hopen ?_
      have hmore := hfeeds.write hsplit htail hwrite fun hend => by
        have hle := host.write_le hwrite
        have hne : ¬ accepted = (s.chunk request count).length :=
          fun hall => hlast (by simp [hend, hall])
        omega
      show Feeds host sink _ (s.stream.log.taken ++ (s.chunk request count).take accepted) last
        (s.stream.surplus ++ request.drop (s.accepted + accepted))
      have hleft : (s.chunk request count).drop accepted ++
          request.drop (s.accepted + (s.chunk request count).length) =
          request.drop (s.accepted + accepted) := by
        refine append_cancel_left (?_ : (s.chunk request count).take accepted ++ _ = _)
        rw [drop_chunk (host.write_le hwrite), hsplit, ← append_assoc, take_append_drop]
      rw [hheld, ← hleft]
      exact hmore

end

section

variable (h : SessionInv request s)
include h

theorem Tracks.pushAway {fin : Bool} (haway : s.stream.Away) (htracks : Tracks host request s) :
    Tracks host request (s.step host request (.push count fin)) := by
  rw [step]
  rw [h.push_away haway]
  cases htracks with
  | header hphase => exact absurd hphase haway.1
  | body length sink next hphase => exact absurd hphase (haway.2 next)
  | waiting length deferred next hphase hlength hopen hyields =>
    exact .waiting length deferred next hphase hlength hopen hyields
  | answered hphase hpushed =>
    refine .answered hphase ?_
    show PushedTo host request s.stream.log.taken (s.responses ++ [])
    rwa [append_nil]

theorem SessionInv.receiving {sink : σ} (hphase : s.stream.phase = .body sink) :
    Receiving request s sink := by
  cases h.phase with
  | header hother => cases hphase.symm.trans hother
  | body other hr =>
    obtain rfl := Phase.body.inj (hphase.symm.trans hr.phase)
    exact hr
  | waiting deferred hother => cases hphase.symm.trans hother
  | answered hother => cases hphase.symm.trans hother

theorem SessionInv.reading (hphase : s.stream.phase = .header) :
    s.stream.header = request.take s.accepted ∧ Unopened s.stream.log ∧ s.responses = [] := by
  cases h.phase with
  | header _ hheader hlog _ hresponses => exact ⟨hheader, hlog, hresponses⟩
  | body sink hr => cases hphase.symm.trans hr.phase
  | waiting deferred hother => cases hphase.symm.trans hother
  | answered hother => cases hphase.symm.trans hother

theorem SessionInv.waits {deferred : δ} (hphase : s.stream.phase = .waiting deferred) :
    Unopened s.stream.log ∧ s.responses = [] := by
  cases h.phase with
  | header hother => cases hphase.symm.trans hother
  | body sink hr => cases hphase.symm.trans hr.phase
  | waiting _ _ hlog hresponses => exact ⟨hlog, hresponses⟩
  | answered hother => cases hphase.symm.trans hother

end

theorem answer_none (s : Session σ δ ρ) : s.answer (s.stream, none) = s := by
  show { s with stream := s.stream, responses := s.responses ++ [] } = s
  rw [append_nil]

theorem Tracks.poll (h : SessionInv request s) (htracks : Tracks host request s) :
    Tracks host request (s.step host request .poll) := by
  rw [step]
  cases htracks with
  | header hphase hheld =>
    have hsame : s.stream.poll host = (s.stream, none) := by rw [ServerStream.poll, hphase]
    rw [hsame]
    exact .header hphase hheld
  | body length sink next hphase hlength hopen hfeeds =>
    have hr := h.receiving hphase
    have hdrain : s.stream.poll host = s.stream.drainSurplus host := by
      rw [ServerStream.poll, hphase]
      simp [hr.finished]
    rw [hdrain]
    refine .drained hlength hopen hphase hr.responses (fun hend => ?_) hfeeds
    rw [h.ended (hr.fin ▸ hend), drop_length]
  | waiting length deferred next hphase hlength hopen hyields =>
    obtain ⟨hlog, hresponses⟩ := h.waits hphase
    exact .polled hlength hopen hphase hresponses hlog.taken hyields
  | answered hphase hpushed =>
    have hsame : s.stream.poll host = (s.stream, none) := by rw [ServerStream.poll, hphase]
    rw [hsame, answer_none]
    exact .answered hphase hpushed

/-- A session that keeps to `SessionInv` keeps track of its handler. -/
theorem Tracks.step (h : SessionInv request s) (htracks : Tracks host request s)
    (hdrives : Drives request s op) : Tracks host request (s.step host request op) := by
  cases op with
  | poll => exact htracks.poll h
  | push count fin =>
  cases htracks with
  | header hphase hheld =>
    obtain ⟨hheader, hlog, hresponses⟩ := h.reading hphase
    exact .pushHeader h hdrives hphase hheld hheader hlog hresponses
  | body length sink next hphase hlength hopen hfeeds =>
    have hr := h.receiving hphase
    by_cases hheld : s.stream.surplus = []
    · rw [hheld] at hfeeds
      exact .pushDirect h hdrives hlength hopen hphase hr.responses hheld hfeeds
    · exact .pushHeld h hdrives hlength hopen hphase hr.responses hheld hfeeds
  | waiting length deferred next hphase hlength hopen hyields =>
    exact .pushAway h (.waiting hphase)
      (.waiting length deferred next hphase hlength hopen hyields)
  | answered hphase hpushed => exact .pushAway h (.discard hphase) (.answered hphase hpushed)

/-- A sink that takes all of the body does not fail on a part of it. -/
theorem Tracks.writes (hsink : Uniform host request) (h : SessionInv request s)
    (htracks : Tracks host request s) (hdrives : Drives request s op) :
    DirectWritesSucceed host request s op := by
  cases op with
  | poll => trivial
  | push count fin =>
  intro sink hphase hheld hne
  cases hwrite : host.write sink (s.chunk request count) fin with
  | ok out => exact ⟨out.1, out.2, rfl⟩
  | error header =>
  cases htracks with
  | header hother => cases hphase.symm.trans hother
  | waiting _ _ _ hother => cases hphase.symm.trans hother
  | answered hother => cases hphase.symm.trans hother
  | body length first next hnext hlength hopen hfeeds =>
  obtain rfl := Phase.body.inj (hphase.symm.trans hnext)
  rw [hheld, nil_append] at hfeeds
  have hsplit := direct_split s request count
  have hfed := hfeeds.fail hsplit (direct_last h hdrives) hwrite
  have hall := (hsink length first hlength hopen _ _ _ _ hfed hfed).1
  have hbody := hfeeds.split
  rw [← hall] at hbody
  have hnil := self_eq_append_right.mp hbody
  rw [hsplit] at hnil
  exact absurd (append_eq_nil_iff.mp hnil).1 hne

/-- What a session comes to that is driven to its end, when its sink is well behaved. -/
theorem Reaches.pushedTo (hsink : Uniform host request) (hs : Reaches host request s)
    (hcomplete : s.Complete) :
    PushedTo host request s.stream.log.taken s.responses := by
  obtain ⟨ops, hrun, rfl⟩ := hs
  have hinv : SessionInv request (Runs.exec (.step host request) .new ops) ∧
      Tracks host request (Runs.exec (.step host request) .new ops) := by
    refine Runs.Along.invariant (P := fun s => SessionInv request s ∧ Tracks host request s)
      (fun s op hs hdrives => ?_) ⟨.new, .header rfl (zero_le _)⟩ hrun
    exact ⟨hs.1.step op ⟨hdrives, hs.2.writes hsink hs.1 hdrives⟩, hs.2.step hs.1 hdrives⟩
  cases hinv.2 with
  | header hphase => cases hphase.symm.trans hcomplete.2
  | body _ _ _ hphase => cases hphase.symm.trans hcomplete.2
  | waiting _ _ _ hphase => cases hphase.symm.trans hcomplete.2
  | answered _ hpushed => exact hpushed

end Pushing

end QuicLite.Stream

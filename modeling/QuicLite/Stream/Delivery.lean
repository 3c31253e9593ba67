import QuicLite.Stream.Server
import QuicLite.Stream.Grammar
import QuicLite.Lib.Runs

/-!
# Delivery of a request

A driver pushes a request at the offset that it believes was accepted, and polls. The body has to
reach the sink once and in order, and the request is to be answered once.
-/

namespace QuicLite.Stream

open Nat ServerStream Bool
open List hiding count

/-! ## The driver -/

inductive DriverOp where
  /-- Offers the next `count` bytes, or all that are left. -/
  | push (count : Nat) (fin : Bool)
  | poll

structure Session (σ δ ρ : Type) where
  stream : ServerStream σ δ
  /-- The sum of what was reported as accepted. -/
  accepted : Nat
  /-- The end of the request was accepted. -/
  ended : Bool
  responses : List ρ

namespace Session

variable {σ δ ρ : Type} (host : Host σ δ ρ) (request : Bytes)

def new : Session σ δ ρ := ⟨.new, 0, false, []⟩

variable (self : Session σ δ ρ)

def chunk (count : Nat) : Bytes := (request.drop self.accepted).take count

/-- What a call of the stream did. -/
def answer (out : ServerStream σ δ × Option ρ) : Session σ δ ρ :=
  { self with stream := out.1, responses := self.responses ++ out.2.toList }

/-- So much of the next chunk was accepted. -/
def advance (count : Nat) (ended : Bool) : Session σ δ ρ :=
  { self with accepted := self.accepted + count, ended := self.ended || ended }

def step : DriverOp → Session σ δ ρ
  | .push count fin =>
    let chunk := self.chunk request count
    let (stream, pushed) := self.stream.push host self.accepted fin chunk
    (self.advance pushed.accepted (fin && pushed.accepted == chunk.length)).answer
      (stream, pushed.response)
  | .poll => self.answer (self.stream.poll host)

end Session

/-! ## The specification -/

/-- What follows the header. -/
def bodyOf (request : Bytes) : Bytes :=
  match scanHeader request with
  | .complete length => request.drop length
  | _ => []

/-- Nothing follows the end of the request, which is not offered before the last byte. -/
def Drives {σ δ ρ : Type} (request : Bytes) (s : Session σ δ ρ) : DriverOp → Prop
  | .push count fin => s.ended = false ∧ (fin = true → request.length ≤ s.accepted + count)
  | .poll => True

/-- The sink takes every chunk that is written to it directly, if there is anything in it, without
failing. -/
def DirectWritesSucceed {σ δ ρ : Type} (host : Host σ δ ρ) (request : Bytes) (s : Session σ δ ρ) :
    DriverOp → Prop
  | .push count fin => ∀ sink, s.stream.phase = .body sink → s.stream.surplus = [] →
      s.chunk request count ≠ [] →
      ∃ accepted next, host.write sink (s.chunk request count) fin = .ok (accepted, next)
  | .poll => True

/-- The body is delivered in order, the sink is finished once and at the end, and at most one
response is given. -/
structure Served {σ δ ρ : Type} (request : Bytes) (s : Session σ δ ρ) : Prop where
  taken : s.stream.log.taken <+: bodyOf request
  finishes : s.stream.log.finishes ≤ 1
  finished : s.stream.log.finishes = 1 ↔
    s.stream.log.opened = true ∧ s.stream.log.failed = false ∧ s.stream.log.taken = bodyOf request ∧
      s.ended = true
  offset : s.accepted = s.stream.received
  responses : s.responses.length ≤ 1

/-! ## The invariant -/

/-- No sink was opened. -/
structure Unopened (log : SinkLog) : Prop where
  opened : log.opened = false
  taken : log.taken = []
  failed : log.failed = false
  finishes : log.finishes = 0

/-- The sink has taken what is neither held nor still to come. -/
structure Receiving {σ δ ρ : Type} (request : Bytes) (s : Session σ δ ρ) (sink : σ) : Prop where
  phase : s.stream.phase = .body sink
  body : bodyOf request = s.stream.log.taken ++ (s.stream.surplus ++ request.drop s.accepted)
  opened : s.stream.log.opened = true
  failed : s.stream.log.failed = false
  finishes : s.stream.log.finishes = 0
  fin : s.stream.fin = s.ended
  finished : s.stream.finished = false
  responses : s.responses = []

/-- What has become of the sink of an answered request. -/
inductive Settled {σ δ ρ : Type} (request : Bytes) (s : Session σ δ ρ) : Prop
  | finished (hfinishes : s.stream.log.finishes = 1) (hopened : s.stream.log.opened = true)
      (hfailed : s.stream.log.failed = false) (htaken : s.stream.log.taken = bodyOf request)
      (hended : s.ended = true)
  | unfinished (hfinishes : s.stream.log.finishes = 0)
      (hlost : s.stream.log.opened = false ∨ s.stream.log.failed = true)

inductive SessionPhase {σ δ ρ : Type} (request : Bytes) (s : Session σ δ ρ) : Prop
  | header (hphase : s.stream.phase = .header) (hheader : s.stream.header = request.take s.accepted)
      (hlog : Unopened s.stream.log) (hended : s.ended = false) (hresponses : s.responses = [])
      (hfinished : s.stream.finished = false)
  | body (sink : σ) (h : Receiving request s sink)
      (hpending : s.stream.surplus ≠ [] ∨ s.ended = false)
  | waiting (deferred : δ) (hphase : s.stream.phase = .waiting deferred)
      (hlog : Unopened s.stream.log) (hresponses : s.responses = [])
  | answered (hphase : s.stream.phase = .discard) (htaken : s.stream.log.taken <+: bodyOf request)
      (hsettled : Settled request s) (hresponses : s.responses.length ≤ 1)

structure SessionInv {σ δ ρ : Type} (request : Bytes) (s : Session σ δ ρ) : Prop where
  offset : s.accepted = s.stream.received
  within : s.accepted ≤ request.length
  ended : s.ended = true → s.accepted = request.length
  phase : SessionPhase request s

variable {σ δ ρ : Type} {host : Host σ δ ρ} {request : Bytes} {s : Session σ δ ρ} {deferred : δ}
variable {sink : σ} {n : Nat} {fin : Bool}

theorem SessionInv.served (h : SessionInv request s) : Served request s := by
  have hdone : s.ended = true → request.drop s.accepted = [] := fun hended => by
    rw [h.ended hended, drop_length]
  cases h.phase with
  | header hphase hheader hlog hended hresponses =>
    refine ⟨hlog.taken ▸ nil_prefix, by rw [hlog.finishes]; decide, ?_, h.offset,
      by simp [hresponses]⟩
    simp [hlog.finishes, hlog.opened]
  | body sink hr hpending =>
    refine ⟨⟨_, hr.body.symm⟩, by rw [hr.finishes]; decide, ?_, h.offset, by simp [hr.responses]⟩
    rw [hr.finishes]
    refine ⟨fun hno => (by cases hno), fun ⟨_, _, htaken, hended⟩ => ?_⟩
    -- All bytes taken and the end accepted would have finished the sink.
    have hbody := hr.body
    rw [htaken, hdone hended, append_nil] at hbody
    have hnil : s.stream.surplus = [] := self_eq_append_right.mp hbody
    rcases hpending with hheld | hopen
    · exact absurd hnil hheld
    · rw [hopen] at hended
      cases hended
  | waiting deferred hphase hlog hresponses =>
    refine ⟨hlog.taken ▸ nil_prefix, by rw [hlog.finishes]; decide, ?_, h.offset,
      by simp [hresponses]⟩
    simp [hlog.finishes, hlog.opened]
  | answered hphase htaken hsettled hresponses =>
    cases hsettled with
    | finished hfinishes hopened hfailed hall hended =>
      exact ⟨htaken, hfinishes.le, ⟨fun _ => ⟨hopened, hfailed, hall, hended⟩, fun _ => hfinishes⟩,
        h.offset, hresponses⟩
    | unfinished hfinishes hlost =>
    refine ⟨htaken, by rw [hfinishes]; decide, ?_, h.offset, hresponses⟩
    rw [hfinishes]
    refine ⟨fun hno => (by cases hno), fun ⟨hopened, hfailed, _, _⟩ => ?_⟩
    rcases hlost with hnever | hbroken
    · rw [hnever] at hopened
      cases hopened
    · rw [hbroken] at hfailed
      cases hfailed

/-! ## Calls -/

variable (stream : ServerStream σ δ)

theorem complete_received : (stream.complete host).1.received = stream.received := by
  unfold complete
  split
  · rfl
  · rfl

open ServerStream

theorem drainSurplus_received : (stream.drainSurplus host).1.received = stream.received := by
  unfold drainSurplus
  split
  · split_ifs
    · split
      · dsimp only
        split_ifs
        · exact complete_received _
        · rfl
      · rfl
    · rfl
  · rfl

theorem poll_received : (stream.poll host).1.received = stream.received := by
  unfold poll
  split
  · split_ifs
    · rfl
    · exact drainSurplus_received stream
  · split
    · rfl
    · rfl
  · rfl

theorem openHandler_received (length : Nat) (atEnd : Bool) :
    (stream.openHandler host length atEnd).1.received = stream.received := by
  unfold openHandler
  dsimp only
  split
  · rfl
  · exact drainSurplus_received _
  · exact poll_received _
  · rfl

open Session

theorem Receiving.broken (h : Receiving request s sink) (response : ρ) :
    SessionPhase request (s.answer (s.stream.sinkFailed, some response)) :=
  .answered rfl ⟨_, h.body.symm⟩ (.unfinished h.finishes (.inr rfl)) (by simp [answer, h.responses])

/-- Held bytes are offered to the sink, and it is finished with the last of them. -/
theorem Receiving.drained (h : Receiving request s sink)
    (hended : s.ended = true → s.accepted = request.length) :
    SessionPhase request (s.answer (s.stream.drainSurplus host)) := by
  rw [drainSurplus, h.phase]
  dsimp only
  split_ifs with hwork
  · cases hwrite : host.write sink s.stream.surplus s.stream.fin with
    | error header => exact h.broken (host.headerOnly header)
    | ok out =>
      obtain ⟨accepted, next⟩ := out
      dsimp only
      have hsplit : s.stream.surplus = s.stream.surplus.take accepted ++
          s.stream.surplus.drop accepted :=
        (take_append_drop _ _).symm
      split_ifs with hlast
      · obtain ⟨hempty, hfin⟩ : s.stream.surplus.drop accepted = [] ∧ s.stream.fin = true := by
          simpa [took] using hlast
        have hdone : s.ended = true := h.fin ▸ hfin
        have hall : s.stream.log.taken ++ s.stream.surplus.take accepted = bodyOf request := by
          rw [h.body, hended hdone, drop_length, append_nil]
          rw [hempty, append_nil] at hsplit
          rw [← hsplit]
        refine .answered rfl (hall ▸ prefix_rfl) (.finished ?_ h.opened h.failed hall hdone) ?_
        · exact congrArg (· + 1) h.finishes
        · simp [answer, h.responses]
      · refine .body next ⟨rfl, ?_, h.opened, h.failed, h.finishes, h.fin, h.finished, ?_⟩ ?_
        · show bodyOf request = s.stream.log.taken ++ s.stream.surplus.take accepted ++
            (s.stream.surplus.drop accepted ++ request.drop s.accepted)
          rw [h.body]
          conv_lhs => rw [hsplit]
          simp only [append_assoc]
        · simp [answer, h.responses]
        have hmore : s.stream.surplus.drop accepted ≠ [] ∨ s.stream.fin = false := by
          simpa [took, imp_iff_not_or] using hlast
        exact hmore.imp_right fun hfin => h.fin ▸ hfin
  · obtain ⟨-, hfin⟩ : s.stream.surplus = [] ∧ s.stream.fin = false := by simpa using hwork
    exact .body sink ⟨h.phase, h.body, h.opened, h.failed, h.finishes, h.fin, h.finished, by
      simp [answer, h.responses]⟩ (.inr (h.fin ▸ hfin))

theorem SessionPhase.polled (hphase : s.stream.phase = .waiting deferred)
    (hlog : Unopened s.stream.log) (hresponses : s.responses = []) :
    SessionPhase request (s.answer (s.stream.poll host)) := by
  rw [poll, hphase]
  dsimp only
  split
  · exact .answered rfl (hlog.taken ▸ nil_prefix) (.unfinished hlog.finishes (.inl hlog.opened))
      (by simp [answer, hresponses])
  · next deferred' _ => exact .waiting deferred' rfl hlog (by simp [answer, hresponses])

theorem SessionInv.poll (h : SessionInv request s) :
    SessionInv request (s.step host request .poll) := by
  refine ⟨h.offset.trans (poll_received s.stream).symm, h.within, h.ended, ?_⟩
  cases h.phase with
  | header hphase hheader hlog hended hresponses hfinished =>
    have hsame : s.stream.poll host = (s.stream, none) := by rw [ServerStream.poll, hphase]
    rw [step, hsame]
    exact .header hphase hheader hlog hended (by simp [answer, hresponses]) hfinished
  | body sink hr hpending =>
    have hdrain : s.stream.poll host = s.stream.drainSurplus host := by
      rw [ServerStream.poll, hr.phase]
      simp [hr.finished]
    rw [step, hdrain]
    exact hr.drained h.ended
  | waiting deferred hphase hlog hresponses => exact .polled hphase hlog hresponses
  | answered hphase htaken hsettled hresponses =>
    have hsame : s.stream.poll host = (s.stream, none) := by rw [ServerStream.poll, hphase]
    have hkept : s.answer (s.stream, none) = s := by simp [answer]
    rw [step, hsame, hkept]
    exact .answered hphase htaken hsettled hresponses

/-- The header selects a handler. -/
theorem SessionPhase.opened {length : Nat} (hlog : Unopened s.stream.log)
    (hresponses : s.responses = []) (hfinished : s.stream.finished = false)
    (hheader : s.stream.header = request.take s.accepted)
    (hlength : scanHeader s.stream.header = .complete length)
    (hended : s.ended = true → s.accepted = request.length) :
    SessionPhase request (s.answer (s.stream.openHandler host length s.ended)) := by
  have hbody : bodyOf request = s.stream.header.drop length ++ request.drop s.accepted := by
    have hwhole : scanHeader request = .complete length := by
      have hgrown := scanHeader_append hlength (request.drop s.accepted)
      rwa [hheader, take_append_drop] at hgrown
    have hle := (scanHeader_complete_iff.mp hlength).1
    rw [bodyOf, hwhole]
    rw [← drop_append_of_le_length hle, hheader, take_append_drop]
  unfold openHandler
  dsimp only
  split
  · exact .answered rfl (hlog.taken ▸ nil_prefix) (.unfinished hlog.finishes (.inl hlog.opened))
      (by simp [answer, hresponses])
  · next sink _ =>
      let stream : ServerStream σ δ := { s.stream with
        surplus := s.stream.header.drop length
        header := s.stream.header.take length
        fin := s.ended
        phase := .body sink
        log := { s.stream.log with opened := true } }
      have hr : Receiving request { s with stream } sink :=
        ⟨rfl, by rw [hbody]; exact (congrArg (· ++ _) hlog.taken).symm, rfl, hlog.failed,
          hlog.finishes, rfl, hfinished,
          hresponses⟩
      exact hr.drained hended
  · next deferred _ =>
      let stream : ServerStream σ δ := { s.stream with
        surplus := []
        header := s.stream.header.take length
        fin := s.ended
        phase := .waiting deferred }
      have hphase : stream.phase = .waiting deferred := rfl
      exact .polled (s := { s with stream }) hphase hlog hresponses
  · exact .answered rfl (hlog.taken ▸ nil_prefix) (.unfinished hlog.finishes (.inl hlog.opened))
      (by simp [answer, hresponses])

/-! ## Pushes -/

theorem chunk_length (request : Bytes) (s : Session σ δ ρ) (count : Nat) :
    (s.chunk request count).length = min count (request.length - s.accepted) := by
  rw [chunk, length_take, length_drop]

variable {count : Nat}

/-- The bytes before a cursor and the first ones of a chunk behind it. -/
theorem take_chunk (hn : n ≤ (s.chunk request count).length) :
    request.take s.accepted ++ (s.chunk request count).take n = request.take (s.accepted + n) := by
  rw [chunk_length] at hn
  rw [chunk, take_take, min_eq_left (by omega), take_add]

theorem drop_chunk (hn : n ≤ (s.chunk request count).length) :
    (s.chunk request count).take n ++ request.drop (s.accepted + n) = request.drop s.accepted := by
  rw [chunk_length] at hn
  rw [chunk, take_take, min_eq_left (by omega), ← drop_drop, take_append_drop]

/-- The driver's end comes with the last byte. -/
theorem ended_iff (hdrives : Drives request s (.push count fin))
    (hwithin : s.accepted ≤ request.length)
    (hended : (s.ended || (fin && n == (s.chunk request count).length)) = true) :
    s.accepted + n = request.length := by
  obtain ⟨hopen, hlast⟩ := hdrives
  obtain ⟨hfin, hn⟩ : fin = true ∧ n = (s.chunk request count).length := by
    simpa [hopen] using hended
  have := hlast hfin
  rw [chunk_length] at hn
  omega

section

variable {stream : ServerStream σ δ}

/-- Nothing more of the request is read. -/
def ServerStream.Away (stream : ServerStream σ δ) : Prop :=
  stream.phase ≠ .header ∧ ∀ sink, stream.phase ≠ .body sink

theorem ServerStream.Away.discard (h : stream.phase = .discard) : stream.Away := by simp [Away, h]

theorem ServerStream.Away.waiting (h : stream.phase = .waiting deferred) : stream.Away := by
  simp [Away, h]

end

section

variable (h : SessionInv request s)
include h

theorem SessionInv.push_header (hphase : s.stream.phase = .header) (fin : Bool) (bytes : Bytes) :
    s.stream.push host s.accepted fin bytes = s.stream.pushHeader host fin bytes := by
  rw [push, if_neg (not_not.mpr h.offset), hphase]

theorem SessionInv.push_body (hphase : s.stream.phase = .body sink) (fin : Bool) (bytes : Bytes) :
    s.stream.push host s.accepted fin bytes = s.stream.pushBody host fin bytes := by
  rw [push, if_neg (not_not.mpr h.offset), hphase]

theorem SessionInv.push_away (haway : s.stream.Away) (fin : Bool) (bytes : Bytes) :
    s.stream.push host s.accepted fin bytes =
      ({ s.stream with received := s.stream.received + bytes.length }, ⟨bytes.length, none⟩) := by
  rw [push, if_neg (not_not.mpr h.offset)]
  split
  · rfl
  · rfl
  · exact absurd ‹_› haway.1
  · exact absurd ‹_› (haway.2 _)

theorem SessionInv.pushHeader (hdrives : Drives request s (.push count fin))
    (hphase : s.stream.phase = .header) (hheader : s.stream.header = request.take s.accepted)
    (hlog : Unopened s.stream.log) (hresponses : s.responses = [])
    (hfinished : s.stream.finished = false) :
    SessionInv request (s.step host request (.push count fin)) := by
  rw [step]
  rw [h.push_header hphase, ServerStream.pushHeader]
  generalize hroom : maxHeaderBytes + maxSurplusBytes - s.stream.header.length = room
  generalize hn : min (s.chunk request count).length room = n
  have hle : n ≤ (s.chunk request count).length := hn ▸ Nat.min_le_left _ _
  have hlen := chunk_length request s count
  have hwithin : s.accepted + n ≤ request.length := by
    have := h.within
    omega
  have hgrown : s.stream.header ++ (s.chunk request count).take n =
      request.take (s.accepted + n) := by
    rw [hheader, take_chunk hle]
  have hends := ended_iff hdrives h.within (n := n)
  have hatEnd : (s.ended || (fin && n == (s.chunk request count).length)) =
      (fin && n == (s.chunk request count).length) := by rw [hdrives.1, Bool.false_or]
  cases hscan : scanHeader (s.stream.header ++ (s.chunk request count).take n) with
  | needMore =>
    split_ifs with hlast
    · refine ⟨congrArg (· + n) h.offset, hwithin, hends,
        .answered rfl (hlog.taken ▸ nil_prefix) (.unfinished hlog.finishes (.inl hlog.opened)) ?_⟩
      simp [answer, advance, hresponses]
    refine ⟨congrArg (· + n) h.offset, hwithin, hends, .header hphase hgrown hlog ?_ ?_ hfinished⟩
    · exact hatEnd.trans (eq_false_of_not_eq_true hlast)
    · simp [answer, advance, hresponses]
  | invalid =>
    refine ⟨congrArg (· + n) h.offset, hwithin, hends, .answered rfl (hlog.taken ▸ nil_prefix)
      (.unfinished hlog.finishes (.inl hlog.opened)) ?_⟩
    simp [answer, advance, hresponses]
  | complete length =>
    let next : Session σ δ ρ := ⟨{ s.stream with
      header := s.stream.header ++ (s.chunk request count).take n
      received := s.stream.received + n }, s.accepted + n,
        s.ended || (fin && n == (s.chunk request count).length),
      s.responses⟩
    have hopened : SessionPhase request
        (next.answer (next.stream.openHandler host length next.ended)) :=
      SessionPhase.opened hlog hresponses hfinished hgrown hscan hends
    have hreceived : (next.stream.openHandler host length next.ended).1.received =
        s.stream.received + n :=
      openHandler_received next.stream length next.ended
    have hfin : next.ended = (fin && n == (s.chunk request count).length) := hatEnd
    rw [hfin] at hopened hreceived
    exact ⟨(congrArg (· + n) h.offset).trans hreceived.symm, hwithin, hends, hopened⟩

section

variable {fin : Bool} (hdrives : Drives request s (.push count fin))
include hdrives

theorem SessionInv.pushHeld (hr : Receiving request s sink) (hheld : s.stream.surplus ≠ []) :
    SessionInv request (s.step host request (.push count fin)) := by
  have hsurplus : (!s.stream.surplus.isEmpty) = true := by simpa using hheld
  rw [step]
  rw [h.push_body hr.phase, pushBody, if_pos hsurplus]
  dsimp only
  generalize hn : min (s.chunk request count).length (maxSurplusBytes - s.stream.surplus.length) = n
  have hle : n ≤ (s.chunk request count).length := hn ▸ Nat.min_le_left _ _
  have hwithin : s.accepted + n ≤ request.length := by
    have hlen := chunk_length request s count
    have := h.within
    omega
  have hends := ended_iff hdrives h.within (n := n)
  let next : Session σ δ ρ := ⟨{ s.stream with
    surplus := s.stream.surplus ++ (s.chunk request count).take n
    received := s.stream.received + n
    fin := fin && n == (s.chunk request count).length }, s.accepted + n,
    s.ended || (fin && n == (s.chunk request count).length), s.responses⟩
  have hnext : Receiving request next sink := by
    refine ⟨hr.phase, ?_, hr.opened, hr.failed, hr.finishes, ?_, hr.finished, hr.responses⟩
    · show bodyOf request = s.stream.log.taken ++
        (s.stream.surplus ++ (s.chunk request count).take n ++ request.drop (s.accepted + n))
      rw [append_assoc, drop_chunk hle, hr.body]
    · show (fin && n == (s.chunk request count).length) =
        (s.ended || (fin && n == (s.chunk request count).length))
      rw [hdrives.1, Bool.false_or]
  have hreceived : (next.stream.drainSurplus host).1.received = s.stream.received + n :=
    drainSurplus_received next.stream
  exact ⟨(congrArg (· + n) h.offset).trans hreceived.symm, hwithin, hends, hnext.drained hends⟩

theorem SessionInv.pushDirect (hr : Receiving request s sink) (hheld : s.stream.surplus = [])
    (hsucceeds : DirectWritesSucceed host request s (.push count fin)) :
    SessionInv request (s.step host request (.push count fin)) := by
  have hsurplus : ¬ (!s.stream.surplus.isEmpty) = true := by simp [hheld]
  have hbody : bodyOf request = s.stream.log.taken ++ request.drop s.accepted := by
    rw [hr.body, hheld, nil_append]
  rw [step]
  rw [h.push_body hr.phase, pushBody, if_neg hsurplus, hr.phase]
  dsimp only
  cases hwrite : host.write sink (s.chunk request count) fin with
  | error header =>
    -- Only a write of no bytes at all can fail here, and nothing is out of step then.
    have hempty : s.chunk request count = [] := by
      by_contra hne
      obtain ⟨accepted, next, hok⟩ := hsucceeds sink hr.phase hheld hne
      cases hwrite.symm.trans hok
    have hends := ended_iff hdrives h.within (n := (s.chunk request count).length)
    refine ⟨?_, ?_, hends, ?_⟩
    · rw [hempty]
      exact h.offset
    · rw [hempty]
      exact h.within
    · exact .answered rfl ⟨_, hbody.symm⟩ (.unfinished hr.finishes (.inr rfl)) (by
        simp [answer, advance, hr.responses])
  | ok out =>
    obtain ⟨accepted, next⟩ := out
    have hle := host.write_le hwrite
    have hwithin : s.accepted + accepted ≤ request.length := by
      have hlen := chunk_length request s count
      have := h.within
      omega
    have hends := ended_iff hdrives h.within (n := accepted)
    dsimp only
    split_ifs with hlast
    · have hdone : (s.ended || (fin && accepted == (s.chunk request count).length)) = true := by
        rw [hlast, Bool.or_true]
      have hall : s.stream.log.taken ++ (s.chunk request count).take accepted = bodyOf request := by
        rw [hbody, ← drop_chunk hle, hends hdone, drop_length, append_nil]
      refine ⟨congrArg (· + accepted) h.offset, hwithin, hends, ?_⟩
      refine .answered rfl (hall ▸ prefix_rfl) (.finished ?_ hr.opened hr.failed hall hdone) ?_
      · exact congrArg (· + 1) hr.finishes
      · simp [answer, advance, hr.responses]
    have hopen : (s.ended || (fin && accepted == (s.chunk request count).length)) = false := by
      rw [hdrives.1]
      exact eq_false_of_not_eq_true hlast
    refine ⟨congrArg (· + accepted) h.offset, hwithin, hends, .body next ?_ (.inr hopen)⟩
    refine ⟨rfl, ?_, hr.opened, hr.failed, hr.finishes, ?_, hr.finished, ?_⟩
    · show bodyOf request = s.stream.log.taken ++ (s.chunk request count).take accepted ++
        (s.stream.surplus ++ request.drop (s.accepted + accepted))
      rw [hheld, nil_append, append_assoc, drop_chunk hle, hbody]
    · exact hr.fin.trans (hdrives.1.trans hopen.symm)
    · simp [answer, advance, hr.responses]

theorem SessionInv.pushAway (haway : s.stream.Away) :
    SessionInv request (s.step host request (.push count fin)) := by
  have hends := ended_iff hdrives h.within (n := (s.chunk request count).length)
  rw [step]
  rw [h.push_away haway]
  refine ⟨congrArg (· + _) h.offset, ?_, hends, ?_⟩
  · have hlen := chunk_length request s count
    have hwithin := h.within
    show s.accepted + (s.chunk request count).length ≤ request.length
    omega
  cases h.phase with
  | header hphase => exact absurd hphase haway.1
  | body sink hr => exact absurd hr.phase (haway.2 sink)
  | waiting deferred hphase hlog hresponses =>
    exact .waiting deferred hphase hlog (by simp [answer, advance, hresponses])
  | answered hphase htaken hsettled hresponses =>
    refine .answered hphase htaken ?_ (by simpa [answer, advance] using hresponses)
    cases hsettled with
    | finished hfinishes hopened hfailed hall hended =>
      refine .finished hfinishes hopened hfailed hall ?_
      show (s.ended || _) = true
      rw [hended, Bool.true_or]
    | unfinished hfinishes hlost => exact .unfinished hfinishes hlost

end

theorem SessionInv.step (op : DriverOp)
    (hok : Drives request s op ∧ DirectWritesSucceed host request s op) :
    SessionInv request (s.step host request op) := by
  cases op with
  | poll => exact h.poll
  | push count fin =>
  cases h.phase with
  | header hphase hheader hlog hended hresponses hfinished =>
    exact h.pushHeader hok.1 hphase hheader hlog hresponses hfinished
  | body sink hr hpending =>
    by_cases hheld : s.stream.surplus = []
    · exact h.pushDirect hok.1 hr hheld hok.2
    · exact h.pushHeld hok.1 hr hheld
  | waiting deferred hphase hlog hresponses => exact h.pushAway hok.1 (.waiting hphase)
  | answered hphase htaken hsettled hresponses => exact h.pushAway hok.1 (.discard hphase)

end

theorem SessionInv.new : SessionInv request (new : Session σ δ ρ) where
  offset := rfl
  within := zero_le _
  ended := fun h => by cases h
  phase := .header rfl rfl ⟨rfl, rfl, rfl, rfl⟩ rfl rfl rfl

/-! ## The result -/

/-- A request is delivered and answered in every run in which no direct write of bytes fails. -/
theorem served_unless_direct_write_fails (host : Host σ δ ρ) (request : Bytes) (ops : List DriverOp)
    (hrun : Runs.Along (step host request) (fun s op =>
      Drives request s op ∧ DirectWritesSucceed host request s op)
      .new ops) : Served request (Runs.exec (step host request) .new ops) := by
  have hinv : SessionInv request (Runs.exec (.step host request) .new ops) :=
    Runs.Along.invariant (fun _ op h hok => h.step op hok) .new hrun
  exact hinv.served

/-- A sink that counts the bytes it takes, and refuses a zero byte. -/
def countingWrite (sink : Nat) (chunk : Bytes) (_ : Bool) : Except Bytes (Nat × Nat) :=
  if 0 ∈ chunk then .error [1] else .ok (chunk.length, sink + chunk.length)

theorem countingWrite_le {sink : Nat} {chunk : Bytes} {accepted next : Nat}
    (h : countingWrite sink chunk fin = .ok (accepted, next)) : accepted ≤ chunk.length := by
  unfold countingWrite at h
  split_ifs at h
  cases h
  exact le_refl _

/-- A header that names a method: component 4, method 8. -/
def knownHeader : Bytes := [0xa2, 1, 4, 2, 8]

/-- A host with one method, which counts. -/
def countingHost : Host Nat Unit Bytes where
  write := countingWrite
  finish := fun sink => [UInt8.ofNat sink]
  pollDeferred := fun _ => (none, ())
  headerOnly := fun header => header
  openNow := fun header => if header = knownHeader then some (.receive 0) else none
  idOf := fun _ => none
  errorHeader := fun _ _ => [2]
  write_le := countingWrite_le

/-- The handler fails on the first byte of the body, and the client keeps sending. -/
theorem sink_error_answered_twice : ¬ ∀ (request : Bytes) (ops : List DriverOp),
        Runs.Along (step countingHost request) (Drives request) .new ops →
          Served request (Runs.exec (step countingHost request) .new ops) := by
  intro hall
  have hserved := hall (knownHeader ++ [0, 5]) [.push 5 false, .push 1 false, .push 1 true]
    ⟨⟨rfl, fun h => by cases h⟩, ⟨rfl, fun h => by cases h⟩, ⟨rfl, fun _ => by decide⟩, trivial⟩
  exact absurd hserved.responses (by decide)

/-- The body arrives in two pieces. -/
def twoPieces : List DriverOp := [.push 6 false, .poll, .push 1 true]

theorem two_pieces_served : Served (knownHeader ++ [4, 5])
    (Runs.exec (step countingHost (knownHeader ++ [4, 5])) .new twoPieces) ∧
      (Runs.exec (step countingHost (knownHeader ++ [4, 5])) .new twoPieces).responses =
        [[2]] := by
  refine ⟨served_unless_direct_write_fails countingHost (knownHeader ++ [4, 5]) twoPieces ?_,
    by decide⟩
  refine ⟨⟨⟨rfl, fun h => by cases h⟩, fun sink hphase => by cases hphase⟩, ⟨trivial, trivial⟩,
    ⟨⟨rfl, fun _ => by decide⟩, fun sink _ _ _ => ⟨1, _, rfl⟩⟩, trivial⟩

end QuicLite.Stream

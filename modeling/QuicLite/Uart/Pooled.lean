import QuicLite.Uart.Encoder

/-!
# The pooled decoder

The firmware decodes marked records straight into packet-pool buffers. It classifies a record by its
first decoded byte, before it knows whether the record is well formed, and keeps its own length
limits. It is compared here with the decoder that collects whole records, followed by a
classification of each.

The packet pool is outside: it is the sequence of its answers, one for each acquisition in order, so
what it makes of the requested headroom is part of the answer. A writer is modelled by its payload
area, whatever that held before. Where the source would panic, the model emits `panicked`.
-/

namespace QuicLite.Uart

open Framing List Option Decoder

variable {content' rest packet bytes : Bytes} {d' : PooledDecoder} {byte : UInt8}

def packetMarker : UInt8 := 0xf7

def wakeMarker : UInt8 := 0xf8

def defaultMaxPacketSize : Nat := 1100

inductive PacketFrameError where
  | empty
  | notPacket
  | payloadTooLarge

def decodePacket : Bytes → Except PacketFrameError Bytes
  | [] => .error .empty
  | marker :: packet =>
    if marker ≠ packetMarker then .error .notPacket
    else if packet = [] then .error .empty
    else if packet.length > defaultMaxPacketSize then .error .payloadTooLarge
    else .ok packet

inductive PooledFrame where
  | packet (bytes : Bytes)
  | wake
  | log (bytes : Bytes)
  | poolUnavailable
  deriving DecidableEq, Repr

/-- What a whole record is. -/
def classify (record : Bytes) : Option PooledFrame :=
  match decodePacket record with
  | .ok packet => some (.packet packet)
  | .error _ =>
    if record = [wakeMarker] then some .wake
    else
      match record with
      | [] => none
      | first :: _ => if first ≠ packetMarker ∧ first ≠ wakeMarker then some (.log record) else none

/-! ## The packet pool -/

/-- Exclusive access to one pool slot: its payload area. -/
structure Writer where
  payload : Bytes

namespace Writer

/-- `payload_mut()[index] = byte`, which panics outside the area. -/
def write (self : Writer) (index : Nat) (byte : UInt8) : Option Writer :=
  if index < self.payload.length then some ⟨self.payload.set index byte⟩ else none

def commit (self : Writer) (len : Nat) : Option Bytes :=
  if len ≤ self.payload.length then some (self.payload.take len) else none

end Writer

/-- The pool's answers, one for each acquisition. -/
abbrev Pool := Nat → Option Writer

/-! ## The decoder -/

inductive FrameKind where
  | packet
  | wake
  | log

structure PooledDecoder where
  inFrame : Bool
  escaped : Bool
  discard : Bool
  marked : Option FrameKind
  wakePayloadLen : Nat
  writer : Option Writer
  len : Nat
  packetLimit : Nat
  other : Bytes
  /-- How often the pool has been asked. -/
  asked : Nat

/-- What the decoder does to the pool and tells its callback. A packet frame hands its buffer
over. -/
inductive Effect where
  | acquired
  | released
  | frame (frame : PooledFrame)
  | panicked
  deriving DecidableEq, Repr

/-- Overwriting or dropping a writer returns its slot. -/
def release (writer : Option Writer) : List Effect := if writer.isSome then [.released] else []

namespace PooledDecoder

def new : PooledDecoder := ⟨false, false, false, none, 0, none, 0, 0, [], 0⟩

/-- What closing the current record leaves of the writer and emits. -/
def closeRecord (self : PooledDecoder) : Option Writer × List Effect :=
  if self.inFrame && !self.escaped && !self.discard then
    match self.marked with
    | some .packet =>
      if self.len ≠ 0 then
        match self.writer with
        | none => (none, [])
        | some writer =>
          match writer.commit self.len with
          | some packet => (none, [.frame (.packet packet)])
          | none => (none, [.released])
      else (self.writer, [])
    | some .wake => (self.writer, if self.wakePayloadLen = 0 then [.frame .wake] else [])
    | some .log => (self.writer, if self.other ≠ [] then [.frame (.log self.other)] else [])
    | none => (self.writer, [])
  else (self.writer, [])

/-- A flag closes the current record and opens the next one. -/
def pushFlag (self : PooledDecoder) : PooledDecoder × List Effect :=
  let (writer, effects) := self.closeRecord
  (⟨true, false, false, none, 0, none, 0, 0, [], self.asked⟩, effects ++ release writer)

variable (pool : Pool) (self : PooledDecoder)

/-- The first decoded byte of a record decides where the rest goes. -/
def pushFirst (byte : UInt8) : PooledDecoder × List Effect :=
  if byte = packetMarker then
    match pool self.asked with
    | some writer =>
      ({ self with
          marked := some .packet
          packetLimit := min writer.payload.length defaultMaxPacketSize
          writer := some writer
          asked := self.asked + 1 },
        .acquired :: release self.writer)
    | none =>
      ({ self with marked := some .packet, discard := true, asked := self.asked + 1 },
        [.frame .poolUnavailable])
  else if byte = wakeMarker then ({ self with marked := some .wake }, [])
  else ({ self with marked := some .log, other := self.other ++ [byte] }, [])

/-- A further decoded byte of a packet record. -/
def pushPacket (byte : UInt8) : PooledDecoder × List Effect :=
  if self.len ≥ self.packetLimit then
    ({ self with discard := true, writer := none }, release self.writer)
  else
    match self.writer.bind (·.write self.len byte) with
    | some writer => ({ self with writer := some writer, len := self.len + 1 }, [])
    | none => (self, [.panicked])

/-- A decoded byte. -/
def pushDecoded (byte : UInt8) : PooledDecoder × List Effect :=
  match self.marked with
  | none => self.pushFirst pool byte
  | some .packet => self.pushPacket byte
  | some .wake => ({ self with wakePayloadLen := self.wakePayloadLen + 1, discard := true }, [])
  | some .log =>
    if self.other.length < defaultRecordMax then ({ self with other := self.other ++ [byte] }, [])
    else ({ self with discard := true, other := [] }, [])

/-- A wire byte that is not a flag. -/
def pushBody (byte : UInt8) : PooledDecoder × List Effect :=
  if !self.inFrame || self.discard then (self, [])
  else if self.escaped then { self with escaped := false }.pushDecoded pool (byte ^^^ uartEscapeXor)
  else if byte = uartEscape then ({ self with escaped := true }, [])
  else self.pushDecoded pool byte

def pushByte (byte : UInt8) : PooledDecoder × List Effect :=
  if byte = uartFlag then self.pushFlag else self.pushBody pool byte

def push (bytes : Bytes) : PooledDecoder × List Effect :=
  feed (pushByte pool) self bytes

/-- One `push` per chunk. -/
def pushChunks (chunks : List Bytes) : PooledDecoder × List Effect :=
  feed (push pool) self chunks

end PooledDecoder

open PooledDecoder

/-! ## What the frames should be -/

def Effect.frame? : Effect → Option PooledFrame
  | .frame f => some f
  | _ => none

def frames (effects : List Effect) : List PooledFrame := effects.filterMap Effect.frame?

@[simp] theorem frames_nil : frames [] = [] := rfl

@[simp] theorem frames_append (effects more : List Effect) :
    frames (effects ++ more) = frames effects ++ frames more :=
  filterMap_append

/-- The frame that decoding a segment whole and classifying its record gives. -/
def reference (segment : Bytes) : Option PooledFrame :=
  (record defaultRecordMax segment).bind classify

/-- A record that begins with the packet marker asks for a buffer, well formed or not. -/
def asks (content : Bytes) : Bool := content.head? = some packetMarker

variable (pool : Pool)

/-- The pool refuses this record, which is the `asked`-th to ask. -/
def refused (asked : Nat) (content : Bytes) : Bool := asks content && (pool asked).isNone

/-- One segment's frame: `PoolUnavailable` in place of whatever it held if its buffer is refused. -/
def settle (before : Nat × List PooledFrame) (segment : Bytes) : Nat × List PooledFrame :=
  let content := (scan segment).1
  (before.1 + (asks content).toNat,
    before.2 ++ if refused pool before.1 content then [.poolUnavailable] else
      (reference segment).toList)

/-- The closed segments' frames in order, and how many of them asked for a buffer. -/
def settled (bytes : Bytes) : Nat × List PooledFrame :=
  (segments uartFlag bytes).foldl (settle pool) (0, [])

/-- The segment behind the last flag: a refusal is reported before the segment ends. -/
def pending (asked : Nat) : Option Bytes → List PooledFrame
  | none => []
  | some segment => if refused pool asked (scan segment).1 then [.poolUnavailable] else []

/-! ## One segment -/

/-- The decoder in a record of which `content` has been decoded, with an escape waiting if `waits`;
`asked` records before it have asked for a buffer. -/
inductive InRecord (pool : Pool) (asked : Nat) : Bytes → Bool → PooledDecoder → Prop
  | start (waits : Bool) :
      InRecord pool asked [] waits ⟨true, waits, false, none, 0, none, 0, 0, [], asked⟩
  | packet (granted writer : Writer) (rest : Bytes) (waits : Bool) : pool asked = some granted →
      rest.length ≤ defaultMaxPacketSize → defaultMaxPacketSize ≤ writer.payload.length →
      writer.payload.take rest.length = rest →
      InRecord pool asked (packetMarker :: rest) waits
        ⟨true, waits, false, some .packet, 0, some writer, rest.length, defaultMaxPacketSize, [],
          asked + 1⟩
  | wake (waits : Bool) :
      InRecord pool asked [wakeMarker]
        waits ⟨true, waits, false, some .wake, 0, none, 0, 0, [], asked⟩
  | log (first : UInt8) (rest : Bytes) (waits : Bool) : first ≠ packetMarker → first ≠ wakeMarker →
      (first :: rest).length ≤ defaultRecordMax →
      InRecord pool asked (first :: rest) waits
        ⟨true, waits, false, some .log, 0, none, 0, 0, first :: rest, asked⟩
  | refused (rest : Bytes) (waits : Bool) (d : PooledDecoder) :
      pool asked = none → d.inFrame = true →
      d.discard = true → d.writer = none → d.asked = asked + 1 →
        InRecord pool asked (packetMarker :: rest) waits d
  | longPacket (granted : Writer) (rest : Bytes) (waits : Bool) (d : PooledDecoder) :
      pool asked = some granted →
      defaultMaxPacketSize < rest.length → d.inFrame = true → d.discard = true → d.writer = none →
      d.asked = asked + 1 → InRecord pool asked (packetMarker :: rest) waits d
  | longWake (second : UInt8) (rest : Bytes) (waits : Bool) (d : PooledDecoder) : d.inFrame = true →
      d.discard = true → d.writer = none → d.asked = asked →
        InRecord pool asked (wakeMarker :: second :: rest) waits d
  | longLog (first : UInt8) (rest : Bytes) (waits : Bool) (d : PooledDecoder) :
      first ≠ packetMarker →
      first ≠ wakeMarker → defaultRecordMax < (first :: rest).length → d.inFrame = true →
        d.discard = true →
      d.writer = none → d.asked = asked → InRecord pool asked (first :: rest) waits d

/-- What the record has reported so far. -/
def reported (asked : Nat) (content : Bytes) : List PooledFrame :=
  if refused pool asked content then [.poolUnavailable] else []

/-- What one byte does to a record: the decoder follows it, and reports a refusal when it
happens. -/
structure Follows (pool : Pool) (asked : Nat) (content content' : Bytes) (waits' : Bool)
    (next : PooledDecoder × List Effect) : Prop where
  inRecord : InRecord pool asked content' waits' next.1
  frames : reported pool asked content ++ Uart.frames next.2 = reported pool asked content'
  safe : .panicked ∉ next.2

variable {pool : Pool} {asked : Nat} {content : Bytes} {waits : Bool} {d : PooledDecoder}

theorem InRecord.inFrame (h : InRecord pool asked content waits d) : d.inFrame = true := by
  cases h with
  | start | packet | wake | log => rfl
  | refused | longPacket | longWake | longLog => assumption

theorem reported_of_head (h : content.head? = content'.head?) :
    reported pool asked content = reported pool asked content' := by
  unfold reported Uart.refused asks
  rw [h]

/-- Behind the marker, and in any record that is given up, no further byte reports anything. -/
theorem follows_quiet {waits' : Bool} (hhead : content.head? = content'.head?)
    (h : InRecord pool asked content' waits' d') :
    Follows pool asked content content' waits' (d', []) :=
  ⟨h, by simp [reported_of_head hhead], by simp⟩

section

variable (h : InRecord pool asked content waits d)
include h

theorem InRecord.discarded (hdiscard : d.discard = true) (more : Bytes) (waits' : Bool) :
    InRecord pool asked (content ++ more) waits' d ∧ content ≠ [] := by
  cases h with
  | start | packet | wake | log => simp at hdiscard
  | refused rest _ _ hpool hin _ hwriter hasked =>
    exact ⟨.refused _ _ _ hpool hin hdiscard hwriter hasked, by simp⟩
  | longPacket granted rest _ _ hpool hlong hin _ hwriter hasked =>
    have hmore : defaultMaxPacketSize < (rest ++ more).length := by rw [length_append]; omega
    exact ⟨.longPacket granted _ _ _ hpool hmore hin hdiscard hwriter hasked, by simp⟩
  | longWake second rest _ _ hin _ hwriter hasked =>
    exact ⟨.longWake second _ _ _ hin hdiscard hwriter hasked, by simp⟩
  | longLog first rest _ _ hpacket hwake hlong hin _ hwriter hasked =>
    have hmore : defaultRecordMax < (first :: (rest ++ more)).length := by
      rw [length_cons, length_append]
      rw [length_cons] at hlong
      omega
    exact ⟨.longLog first _ _ _ hpacket hwake hmore hin hdiscard hwriter hasked, by simp⟩

theorem InRecord.escape (hlive : d.discard = false) :
    InRecord pool asked content true { d with escaped := true } ∧ d.escaped = waits := by
  cases h with
  | start => exact ⟨.start true, rfl⟩
  | packet granted writer rest _ hpool hlen hroom htake =>
    exact ⟨.packet granted writer rest true hpool hlen hroom htake, rfl⟩
  | wake => exact ⟨.wake true, rfl⟩
  | log first rest _ hpacket hwake hlen => exact ⟨.log first rest true hpacket hwake hlen, rfl⟩
  | refused | longPacket | longWake | longLog => simp_all

theorem InRecord.unescape (hlive : d.discard = false) :
    InRecord pool asked content false { d with escaped := false } := by
  cases h with
  | start => exact .start false
  | packet granted writer rest _ hpool hlen hroom htake =>
    exact .packet granted writer rest false hpool hlen hroom htake
  | wake => exact .wake false
  | log first rest _ hpacket hwake hlen => exact .log first rest false hpacket hwake hlen
  | refused | longPacket | longWake | longLog => simp_all

end

open Effect

/-- The byte that decides the kind of a record. -/
theorem follows_first (hpool : ∀ k writer, pool k = some writer →
    defaultMaxPacketSize ≤ writer.payload.length) (byte : UInt8) :
    Follows pool asked [] [byte] false
      (pushFirst pool ⟨true, false, false, none, 0, none, 0, 0, [], asked⟩ byte) := by
  unfold pushFirst
  by_cases hpacket : byte = packetMarker
  · subst hpacket
    cases hanswer : pool asked with
    | some writer =>
      have hroom := hpool asked writer hanswer
      have hlimit : min writer.payload.length defaultMaxPacketSize = defaultMaxPacketSize := by
        omega
      refine ⟨?_, by simp [reported, Uart.refused, hanswer, release, Uart.frames, frame?],
        by simp [release]⟩
      simp only [hlimit]
      exact .packet writer writer [] false hanswer (by simp) hroom rfl
    | none =>
      refine ⟨.refused [] false _ hanswer rfl rfl rfl rfl, ?_, by simp⟩
      simp [reported, Uart.refused, asks, hanswer, Uart.frames, frame?]
  · have hquiet : reported pool asked [] = reported pool asked [byte] := by
      simp [reported, Uart.refused, asks, hpacket]
    rw [if_neg hpacket]
    by_cases hwake : byte = wakeMarker
    · subst hwake
      exact ⟨.wake false, by simp [hquiet], by simp⟩
    · rw [if_neg hwake]
      exact ⟨.log byte [] false hpacket hwake (by simp [defaultRecordMax]), by simp [hquiet],
        by simp⟩

/-- A further byte of a packet is written behind those already there. -/
theorem follows_packet {granted writer : Writer} (hpool : pool asked = some granted)
    (hlen : rest.length ≤ defaultMaxPacketSize)
    (hroom : defaultMaxPacketSize ≤ writer.payload.length)
    (htake : writer.payload.take rest.length = rest) (byte : UInt8) :
    Follows pool asked (packetMarker :: rest) (packetMarker :: rest ++ [byte]) false
      (pushPacket
        ⟨true, false, false, some .packet, 0, some writer, rest.length, defaultMaxPacketSize, [],
          asked + 1⟩ byte) := by
  unfold pushPacket
  by_cases hfull : rest.length ≥ defaultMaxPacketSize
  · rw [if_pos hfull]
    refine ⟨.longPacket granted (rest ++ [byte]) false _ hpool ?_ rfl rfl rfl rfl, ?_,
      by simp [release]⟩
    · rw [length_append, length_singleton]
      omega
    · simp [reported, Uart.refused, asks, release, Uart.frames, frame?]
  rw [if_neg hfull]
  have hindex : rest.length < writer.payload.length := by omega
  simp only [bind_some, Writer.write, if_pos hindex]
  have hmore : (writer.payload.set rest.length byte).take (rest ++ [byte]).length =
      rest ++ [byte] := by
    rw [length_append, length_singleton, take_add_one, take_set_of_le (Nat.le_refl _), htake]
    simp [hindex]
  have hrecord := InRecord.packet granted ⟨writer.payload.set rest.length byte⟩ (rest ++ [byte])
    false hpool
    (by rw [length_append, length_singleton]; omega) (by simpa using hroom) hmore
  rw [length_append] at hrecord
  exact follows_quiet rfl hrecord

/-- A decoded byte extends the record. -/
theorem InRecord.decoded (hpool : ∀ k writer, pool k = some writer →
    defaultMaxPacketSize ≤ writer.payload.length) (h : InRecord pool asked content false d)
    (hlive : d.discard = false) (byte : UInt8) :
    Follows pool asked content (content ++ [byte]) false (d.pushDecoded pool byte) := by
  cases h with
  | start => exact follows_first hpool byte
  | packet granted writer rest _ hanswer hlen hroom htake =>
    exact follows_packet hanswer hlen hroom htake byte
  | wake => exact follows_quiet rfl (.longWake byte [] false _ rfl rfl rfl rfl)
  | log first rest _ hpacket hwake hlen =>
    unfold pushDecoded
    dsimp only
    split
    · next hroom =>
        refine follows_quiet rfl (.log first (rest ++ [byte]) false hpacket hwake ?_)
        simp only [length_cons, length_append, length_nil] at hroom ⊢
        omega
    next hfull =>
      refine follows_quiet rfl
        (.longLog first (rest ++ [byte]) false _ hpacket hwake ?_ rfl rfl rfl rfl)
      simp only [length_cons, length_append] at hfull ⊢
      omega
  | refused | longPacket | longWake | longLog => simp_all

theorem scanByte_extends (content : Bytes) (waits : Bool) (byte : UInt8) :
    ∃ more, (scanByte (content, waits) byte).1 = content ++ more := by
  unfold scanByte
  split
  · exact ⟨_, rfl⟩
  split
  · exact ⟨[], by simp⟩
  · exact ⟨_, rfl⟩

/-- A byte of the segment's body. -/
theorem InRecord.pushBody (hpool : ∀ k writer, pool k = some writer →
    defaultMaxPacketSize ≤ writer.payload.length) (h : InRecord pool asked content waits d)
    (byte : UInt8) :
    Follows pool asked content (scanByte (content, waits) byte).1 (scanByte (content, waits) byte).2
      (d.pushBody pool byte) := by
  unfold PooledDecoder.pushBody
  rw [h.inFrame]
  cases hdiscard : d.discard with
  | true =>
    obtain ⟨more, hmore⟩ := scanByte_extends content waits byte
    obtain ⟨hsame, hne⟩ := h.discarded hdiscard more (scanByte (content, waits) byte).2
    obtain ⟨first, rest, rfl⟩ := exists_cons_of_ne_nil hne
    rw [hmore]
    exact follows_quiet rfl hsame
  | false =>
    obtain ⟨hescape, hwaits⟩ := h.escape hdiscard
    have hplain := h.unescape hdiscard
    cases waits with
    | true =>
      have hbyte := hplain.decoded hpool hdiscard (byte ^^^ uartEscapeXor)
      simpa [scanByte, hwaits, h.inFrame, hdiscard] using hbyte
    | false =>
      by_cases hbyte : byte = uartEscape
      · have hnext := follows_quiet rfl hescape
        simpa [scanByte, hbyte, hwaits, h.inFrame, hdiscard] using hnext
      · have hnext := h.decoded hpool hdiscard byte
        simpa [scanByte, hbyte, hwaits] using hnext

/-! ## Classifying whole records -/

theorem classify_packet (hne : packet ≠ []) (hlen : packet.length ≤ defaultMaxPacketSize) :
    classify (packetMarker :: packet) = some (.packet packet) := by
  have hroom : ¬ defaultMaxPacketSize < packet.length := by omega
  simp [classify, decodePacket, hne, hroom]

/-- A packet record that is empty or too long is nothing. -/
theorem classify_packet_none (h : packet = [] ∨ defaultMaxPacketSize < packet.length) :
    classify (packetMarker :: packet) = none := by
  have hmarkers : packetMarker ≠ wakeMarker := by decide
  rcases h with rfl | hlong
  · simp [classify, decodePacket, hmarkers]
  · have hne : packet ≠ [] := by rintro rfl; simp at hlong
    simp [classify, decodePacket, hne, hlong]

theorem classify_longWake (second : UInt8) (rest : Bytes) :
    classify (wakeMarker :: second :: rest) = none := by
  have hmarkers : wakeMarker ≠ packetMarker := by decide
  simp [classify, decodePacket, hmarkers]

theorem classify_log {first : UInt8} (hpacket : first ≠ packetMarker) (hwake : first ≠ wakeMarker) :
    classify (first :: rest) = some (.log (first :: rest)) := by
  simp [classify, decodePacket, hpacket, hwake]

variable {segment : Bytes}

/-- The reference frame in terms of the scanned content. -/
theorem reference_eq (hscan : scan segment = (content, waits)) : reference segment =
      if waits = false ∧ content ≠ [] ∧ content.length ≤ defaultRecordMax then classify content
        else none := by
  rw [reference, record_eq_scan, hscan]
  split <;> rfl

theorem reference_classify (hscan : scan segment = (content, false)) (hne : content ≠ [])
    (hshort : content.length ≤ defaultRecordMax) : reference segment = classify content := by
  rw [reference_eq hscan, if_pos ⟨rfl, hne, hshort⟩]

/-- A record that does not yield a frame even where the reference decoder would accept its
length. -/
theorem reference_none (hscan : scan segment = (content, waits))
    (h : waits = true ∨ classify content = none ∨ defaultRecordMax < content.length) :
    reference segment = none := by
  rw [reference_eq hscan]
  split
  · next hgood =>
      rcases h with h | h | h
      · simp [h] at hgood
      · exact h
      · omega
  · rfl

/-! ## Flags -/

theorem pushFlag_of_discard (hdiscard : d.discard = true) (hwriter : d.writer = none) :
    d.pushFlag = (⟨true, false, false, none, 0, none, 0, 0, [], d.asked⟩, []) := by
  simp [PooledDecoder.pushFlag, PooledDecoder.closeRecord, hdiscard, hwriter, release]

/-- The flag that closes a record emits the reference frame, unless the record was refused. -/
theorem InRecord.pushFlag (h : InRecord pool asked (scan segment).1 (scan segment).2 d) :
    InRecord pool (asked + (asks (scan segment).1).toNat) [] false d.pushFlag.1 ∧
      Uart.frames d.pushFlag.2 =
        (if Uart.refused pool asked (scan segment).1 then [] else (reference segment).toList) ∧
      .panicked ∉ d.pushFlag.2 := by
  rcases hscan : scan segment with ⟨content, waits⟩
  rw [hscan] at h
  have hmarkers : wakeMarker ≠ packetMarker := by decide
  cases h with
  | start =>
    rw [reference_none hscan (.inr (.inl (by decide)))]
    cases waits <;> exact ⟨.start false, by simp [PooledDecoder.pushFlag, PooledDecoder.closeRecord,
      release], by simp [PooledDecoder.pushFlag, PooledDecoder.closeRecord, release]⟩
  | packet granted writer rest _ hpool hlen hroom htake =>
    have hgranted : Uart.refused pool asked (packetMarker :: rest) = false := by
      simp [Uart.refused, hpool]
    refine ⟨.start false, ?_, ?_⟩
    · rw [hgranted]
      cases waits with
      | true =>
        rw [reference_none hscan (.inl rfl)]
        simp [PooledDecoder.pushFlag, PooledDecoder.closeRecord, release, Uart.frames, frame?]
      | false =>
      by_cases hne : rest = []
      · subst hne
        rw [reference_none hscan (.inr (.inl (classify_packet_none (.inl rfl))))]
        simp [PooledDecoder.pushFlag, PooledDecoder.closeRecord, release, Uart.frames, frame?]
      have hcommit : writer.commit rest.length = some rest := by
        rw [Writer.commit, if_pos (by omega), htake]
      have hshort : (packetMarker :: rest).length ≤ defaultRecordMax := by
        simp only [length_cons, defaultRecordMax, defaultMaxPacketSize] at hlen ⊢
        omega
      rw [reference_classify hscan (by simp) hshort, classify_packet hne hlen]
      simp [PooledDecoder.pushFlag, PooledDecoder.closeRecord, hne, hcommit, release,
        Uart.frames, frame?]
    · cases waits with
      | true => simp [PooledDecoder.pushFlag, PooledDecoder.closeRecord, release]
      | false =>
        simp only [PooledDecoder.pushFlag, PooledDecoder.closeRecord]
        cases writer.commit rest.length <;> by_cases hne : rest = [] <;> simp [hne, release]
  | wake =>
    have hquiet : asks [wakeMarker] = false := by decide
    cases waits with
    | true =>
      rw [reference_none hscan (.inl rfl)]
      exact ⟨.start false, rfl,
        by simp [PooledDecoder.pushFlag, PooledDecoder.closeRecord, release]⟩
    | false =>
      rw [reference_classify hscan (by simp) (by simp [defaultRecordMax])]
      exact ⟨.start false, rfl,
        by simp [PooledDecoder.pushFlag, PooledDecoder.closeRecord, release]⟩
  | log first rest _ hpacket hwake hlen =>
    have hquiet : asks (first :: rest) = false := by simp [asks, hpacket]
    rw [Uart.refused, hquiet]
    cases waits with
    | true =>
      rw [reference_none hscan (.inl rfl)]
      exact ⟨.start false, rfl,
        by simp [PooledDecoder.pushFlag, PooledDecoder.closeRecord, release]⟩
    | false =>
      rw [reference_classify hscan (by simp) hlen, classify_log hpacket hwake]
      exact ⟨.start false, rfl,
        by simp [PooledDecoder.pushFlag, PooledDecoder.closeRecord, release]⟩
  | refused rest _ _ hpool _ hdiscard hwriter hasked =>
    rw [pushFlag_of_discard hdiscard hwriter, hasked]
    exact ⟨.start false, by simp [Uart.refused, asks, hpool], by simp⟩
  | longPacket granted rest _ _ hpool hlong _ hdiscard hwriter hasked =>
    rw [pushFlag_of_discard hdiscard hwriter, hasked,
      reference_none hscan (.inr (.inl (classify_packet_none (.inr hlong))))]
    exact ⟨.start false, by simp, by simp⟩
  | longWake second rest _ _ _ hdiscard hwriter hasked =>
    rw [pushFlag_of_discard hdiscard hwriter, hasked,
      reference_none hscan (.inr (.inl (classify_longWake second rest)))]
    have hquiet : asks (wakeMarker :: second :: rest) = false := by simp [asks, hmarkers]
    exact ⟨.start false, by simp, by simp⟩
  | longLog first rest _ _ hpacket _ hlong _ hdiscard hwriter hasked =>
    rw [pushFlag_of_discard hdiscard hwriter, hasked, reference_none hscan (.inr (.inr hlong))]
    have hquiet : asks (first :: rest) = false := by simp [asks, hpacket]
    rw [hquiet]
    exact ⟨.start false, by simp, by simp⟩

/-! ## Runs -/

variable (pool)

theorem push_concat (d : PooledDecoder) (bytes : Bytes) (byte : UInt8) :
    d.push pool (bytes ++ [byte]) =
      (((d.push pool bytes).1.pushByte pool byte).1,
        (d.push pool bytes).2 ++ ((d.push pool bytes).1.pushByte pool byte).2) :=
  feed_concat d bytes byte

theorem pushChunks_eq (d : PooledDecoder) (chunks : List Bytes) :
    d.pushChunks pool chunks = d.push pool chunks.flatten := feed_chunks d chunks

theorem settled_flag (bytes : Bytes) :
    settled pool (bytes ++ [uartFlag]) = (openSegment uartFlag bytes).toList.foldl (settle pool)
    (settled pool bytes) := by
  rw [settled, segments_concat_flag, foldl_append, settled]

theorem settled_body (hne : byte ≠ uartFlag) (bytes : Bytes) :
    settled pool (bytes ++ [byte]) = settled pool bytes := by
  rw [settled, segments_concat_of_ne hne, settled]

variable {pool}

/-- What a fresh pooled decoder has made of `bytes`. -/
structure PooledRead (pool : Pool) (bytes : Bytes) : Prop where
  outside : openSegment uartFlag bytes = none → (new.push pool bytes).1 = .new
  inside : ∀ segment, openSegment uartFlag bytes = some segment →
    InRecord pool (settled pool bytes).1 (scan segment).1 (scan segment).2
      (new.push pool bytes).1
  frames : Uart.frames (new.push pool bytes).2 =
    (settled pool bytes).2 ++ pending pool (settled pool bytes).1 (openSegment uartFlag bytes)
  safe : .panicked ∉ (new.push pool bytes).2

theorem PooledRead.flag (h : PooledRead pool bytes) : PooledRead pool (bytes ++ [uartFlag]) := by
  have hpush := push_concat pool .new bytes uartFlag
  simp only [PooledDecoder.pushByte, if_true] at hpush
  have hsettled := settled_flag pool bytes
  have hpending : ∀ k, pending pool k (some []) = [] :=
    fun k => by simp [pending, Uart.refused, asks]
  cases hopen : openSegment uartFlag bytes with
  | none =>
    -- The first flag opens a record and closes none.
    have hnone : settled pool bytes = (0, []) := by
      rw [settled, segments_of_openSegment_none hopen]; rfl
    have hframes := h.frames
    rw [hopen, hnone] at hsettled hframes
    rw [h.outside hopen] at hpush
    refine ⟨by simp, fun segment hsegment => ?_, ?_, ?_⟩
    · obtain rfl : [] = segment := by simpa using hsegment
      rw [hpush, hsettled]
      exact .start false
    · rw [hpush, hsettled, openSegment_concat_flag, frames_append, hframes]
      rfl
    · rw [hpush, mem_append]
      exact not_or.mpr ⟨h.safe, by decide⟩
  | some segment =>
    obtain ⟨hnext, hemits, hsafe⟩ := (h.inside segment hopen).pushFlag
    have hframes := h.frames
    rw [hopen] at hsettled hframes
    simp only [toList_some, foldl_cons] at hsettled
    refine ⟨by simp, fun segment hsegment => ?_, ?_, ?_⟩
    · obtain rfl : [] = segment := by simpa using hsegment
      rw [hpush, hsettled]
      exact hnext
    · rw [hpush, hsettled, openSegment_concat_flag, hpending, frames_append, hframes, hemits]
      simp only [settle, pending]
      split <;> simp
    · rw [hpush, mem_append]
      exact not_or.mpr ⟨h.safe, hsafe⟩

theorem PooledRead.body (hpool : ∀ k writer, pool k = some writer →
    defaultMaxPacketSize ≤ writer.payload.length)
    (hopen : openSegment uartFlag bytes = some segment) (hne : byte ≠ uartFlag)
    (h : PooledRead pool bytes) : PooledRead pool (bytes ++ [byte]) := by
  have hpush := push_concat pool .new bytes byte
  simp only [PooledDecoder.pushByte, if_neg hne] at hpush
  have hnext : openSegment uartFlag (bytes ++ [byte]) = some (segment ++ [byte]) := by
    rw [openSegment_concat_of_ne hne, hopen]
    rfl
  obtain ⟨hrecord, hreport, hsafe⟩ := (h.inside segment hopen).pushBody hpool byte
  rw [← scan_concat] at hrecord hreport
  refine ⟨by rw [hnext]; rintro ⟨⟩, fun _ hsegment => ?_, ?_, ?_⟩
  · rw [hnext] at hsegment
    cases hsegment
    rw [hpush, settled_body pool hne]
    exact hrecord
  · rw [hpush, settled_body pool hne, hnext, frames_append, h.frames, hopen, append_assoc]
    exact congrArg _ hreport
  · rw [hpush, mem_append]
    exact not_or.mpr ⟨h.safe, hsafe⟩

/-- The pooled decoder reads what the flags of the input delimit. -/
theorem pooledRead (hpool : ∀ k writer, pool k = some writer →
    defaultMaxPacketSize ≤ writer.payload.length) (bytes : Bytes) : PooledRead pool bytes := by
  induction bytes using flag_induction uartFlag with
  | nil => exact ⟨fun _ => rfl, by simp, rfl, by simp [PooledDecoder.push]⟩
  | closed bytes ih => exact ih.flag
  | outside bytes byte hne hopen ih =>
    have hsame : PooledDecoder.new.pushByte pool byte = (.new, []) := by
      simp [PooledDecoder.pushByte, hne, PooledDecoder.pushBody, PooledDecoder.new]
    have hpush := push_concat pool .new bytes byte
    rw [ih.outside hopen, hsame, append_nil] at hpush
    have hstill : openSegment uartFlag (bytes ++ [byte]) = none := by
      rw [openSegment_concat_of_ne hne, hopen]; rfl
    refine ⟨fun _ => by rw [hpush], by rw [hstill]; rintro _ ⟨⟩, ?_, by rw [hpush]; exact ih.safe⟩
    rw [hpush, settled_body pool hne, hstill, ih.frames, hopen]
  | inside bytes byte segment hne hopen ih => exact ih.body hpool hopen hne

/-- With every acquisition granted, the settled frames are the reference frames. -/
theorem settled_of_granted (hpool : ∀ k, (pool k).isSome) (bytes : Bytes) :
    (settled pool bytes).2 = (records defaultRecordMax bytes).filterMap classify := by
  rw [records, filterMap_filterMap]
  suffices h : ∀ (l : List Bytes) before,
      (l.foldl (settle pool) before).2 = before.2 ++ l.filterMap reference from h _ (0, [])
  intro l
  induction l with
  | nil => simp
  | cons segment l ih =>
    intro before
    have hgranted : Uart.refused pool before.1 (scan segment).1 = false := by
      simp [Uart.refused, hpool]
    rw [foldl_cons, ih, filterMap_cons]
    simp only [settle, hgranted]
    cases reference segment <;> simp

theorem pending_of_granted (hpool : ∀ k, (pool k).isSome) (k : Nat) (segment : Option Bytes) :
    pending pool k segment = [] := by
  cases segment with
  | none => rfl
  | some segment => simp [pending, Uart.refused, isSome_iff_ne_none.mp (hpool k)]

/-! ## Buffers held -/

def Effect.delta : Effect → Int
  | .acquired => 1
  | .released => -1
  | .frame (.packet _) => -1
  | _ => 0

/-- How many pool buffers a decoder with these effects has in its hands. -/
def held (effects : List Effect) : Int := (effects.map Effect.delta).sum

@[simp] theorem held_append (effects more : List Effect) :
    held (effects ++ more) = held effects + held more := by
  simp [held]

/-- Only a packet record owns a writer. -/
def OwnsWriter (d : PooledDecoder) : Prop := d.writer.isSome → d.marked = some .packet

/-- A step with at most one effect, after which as many buffers are held as the effect says. -/
structure KeepsCount (d : PooledDecoder) (next : PooledDecoder × List Effect) : Prop where
  owns : OwnsWriter next.1
  single : next.2.length ≤ 1
  held : Uart.held next.2 = next.1.writer.isSome.toInt - d.writer.isSome.toInt

theorem pushFlag_keepsCount (howns : OwnsWriter d) : KeepsCount d d.pushFlag := by
  have hnext : d.pushFlag.1.writer = none := rfl
  cases hwriter : d.writer with
  | none =>
    have hclose : d.closeRecord.1 = none ∧ d.closeRecord.2.length ≤ 1 ∧
        held d.closeRecord.2 = 0 := by
      unfold closeRecord
      rw [hwriter]
      split
      · split
        · split <;> simp [held]
        · split <;> simp [held, delta]
        · split <;> simp [held, delta]
        · simp [held]
      · simp [held]
    obtain ⟨hleft, hsingle, hzero⟩ := hclose
    have heffects : d.pushFlag.2 = d.closeRecord.2 := by
      simp [PooledDecoder.pushFlag, hleft, release]
    exact ⟨by simp [OwnsWriter, hnext], by rw [heffects]; exact hsingle,
      by simp [heffects, hzero, hnext, hwriter]⟩
  | some writer =>
    have hmarked : d.marked = some .packet := howns (by simp [hwriter])
    have heffects : (d.closeRecord.2 ++ release d.closeRecord.1).length = 1 ∧
        held (d.closeRecord.2 ++ release d.closeRecord.1) = -1 := by
      unfold closeRecord
      rw [hmarked, hwriter]
      split
      · dsimp only
        split
        · cases writer.commit d.len <;> simp [release, held, delta]
        · simp [release, held, delta]
      · simp [release, held, delta]
    obtain ⟨hsingle, hcount⟩ : d.pushFlag.2.length = 1 ∧ held d.pushFlag.2 = -1 := heffects
    exact ⟨by simp [OwnsWriter, hnext], by omega, by simp [hcount, hnext, hwriter]⟩

/-- Nothing happens to the pool, and the writer stays as it is. -/
theorem keepsCount_quiet (howns : OwnsWriter d') (hwriter : d'.writer.isSome = d.writer.isSome) :
    KeepsCount d (d', []) := ⟨howns, by simp, by simp [held, hwriter]⟩

theorem pushDecoded_keepsCount (howns : OwnsWriter d) (byte : UInt8) :
    KeepsCount d (d.pushDecoded pool byte) := by
  unfold pushDecoded
  split
  · next hmarked =>
      have hnone : d.writer = none := by
        by_contra hsome
        have := howns (isSome_iff_ne_none.mpr hsome)
        rw [hmarked] at this
        cases this
      unfold pushFirst
      split
      · split
        · exact ⟨fun _ => rfl, by simp [hnone, release], by simp [hnone, release, held, delta]⟩
        · exact ⟨fun _ => rfl, by simp, by simp [held, delta]⟩
      split
      · exact keepsCount_quiet (by simp [OwnsWriter, hnone]) rfl
      · exact keepsCount_quiet (by simp [OwnsWriter, hnone]) rfl
  · next hmarked =>
      unfold pushPacket
      split
      · cases hwriter : d.writer with
        | none => exact ⟨by simp [OwnsWriter], by simp [release], by simp [release, held, hwriter]⟩
        | some writer =>
          exact ⟨by simp [OwnsWriter], by simp [release], by simp [release, held, delta, hwriter]⟩
      cases hwriter : d.writer with
      | none => exact ⟨fun _ => hmarked, by simp, by simp [held, delta]⟩
      | some writer =>
        cases hwrite : writer.write d.len byte with
        | none =>
          simp only [bind_some, hwrite]; exact ⟨fun _ => hmarked, by simp, by simp [held, delta]⟩
        | some next =>
          simp only [bind_some, hwrite]
          exact keepsCount_quiet (fun _ => hmarked) (by simp [hwriter])
  · exact keepsCount_quiet howns rfl
  · split
    · exact keepsCount_quiet howns rfl
    · exact keepsCount_quiet howns rfl

theorem pushByte_keepsCount (howns : OwnsWriter d) (byte : UInt8) :
    KeepsCount d (d.pushByte pool byte) := by
  unfold PooledDecoder.pushByte
  split
  · exact pushFlag_keepsCount howns
  unfold PooledDecoder.pushBody
  split
  · exact keepsCount_quiet howns rfl
  split
  · have hkeeps : KeepsCount { d with escaped := false }
        ({ d with escaped := false }.pushDecoded pool (byte ^^^ uartEscapeXor)) := by
      apply pushDecoded_keepsCount
      exact howns
    exact ⟨hkeeps.owns, hkeeps.single, hkeeps.held⟩
  split
  · exact keepsCount_quiet howns rfl
  · exact pushDecoded_keepsCount howns byte

/-- After any input the decoder holds exactly the buffer of its writer, and never held a second
one. -/
theorem held_push (pool : Pool) (bytes : Bytes) : OwnsWriter (new.push pool bytes).1 ∧
      held (new.push pool bytes).2 =
        (new.push pool bytes).1.writer.isSome.toInt ∧
      ∀ before, before <+: (new.push pool bytes).2 → held before ≤ 1 := by
  induction bytes using reverseRecOn with
  | nil =>
    exact ⟨by simp [OwnsWriter, PooledDecoder.push, PooledDecoder.new], rfl,
      by simp [PooledDecoder.push, held]⟩
  | append_singleton bytes byte ih =>
    obtain ⟨howns, hheld, hbefore⟩ := ih
    obtain ⟨howns', hsingle, hcount⟩ : KeepsCount (new.push pool bytes).1
      ((new.push pool bytes).1.pushByte pool byte) := pushByte_keepsCount howns byte
    rw [push_concat]
    have htotal : held ((new.push pool bytes).2 ++ ((new.push pool bytes).1.pushByte pool byte).2) =
        ((new.push pool bytes).1.pushByte pool byte).1.writer.isSome.toInt := by
      rw [held_append]
      omega
    refine ⟨howns', htotal, fun before hprefix => ?_⟩
    -- A byte has at most one effect, so a prefix either stops before it or is everything.
    rcases hnew : ((new.push pool bytes).1.pushByte pool byte).2 with _ |
      ⟨effect, _ | ⟨_, _⟩⟩
    · rw [hnew, append_nil] at hprefix
      exact hbefore before hprefix
    · rw [hnew] at hprefix
      rcases prefix_concat_iff.mp hprefix with hall | hshort
      · rw [hall, ← hnew, htotal]
        cases ((new.push pool bytes).1.pushByte pool byte).1.writer.isSome <;> decide
      · exact hbefore before hshort
    · rw [hnew] at hsingle
      simp at hsingle

/-! ## The result -/

/-- The pooled decoder agrees with the reference decoder. With a pool that always has a buffer, its
frames are the classified records of the default decoder; with a pool that refuses some
acquisitions, exactly the refused frames are replaced; and whatever the pool does it holds at most
one buffer at a time. -/
theorem pooled_decoder_agrees (pool : Pool) (chunks : List Bytes) :
    ((∀ k, ∃ writer, pool k = some writer ∧ defaultMaxPacketSize ≤ writer.payload.length) →
      frames (new.pushChunks pool chunks).2 = (default.pushChunks chunks).2.filterMap classify) ∧
    ((∀ k writer, pool k = some writer → defaultMaxPacketSize ≤ writer.payload.length) →
      frames (new.pushChunks pool chunks).2 = (settled pool chunks.flatten).2 ++
          pending pool (settled pool chunks.flatten).1 (openSegment uartFlag chunks.flatten) ∧
      .panicked ∉ (new.pushChunks pool chunks).2) ∧
    ∀ before, before <+: (new.pushChunks pool chunks).2 → held before ≤ 1 := by
  rw [pushChunks_eq, Decoder.pushChunks_eq]
  refine ⟨fun hpool => ?_, fun hpool => ?_, (held_push pool chunks.flatten).2.2⟩
  · have hroom : ∀ k writer, pool k = some writer →
        defaultMaxPacketSize ≤ writer.payload.length := by
      intro k writer hk
      obtain ⟨granted, hgranted, hlen⟩ := hpool k
      rw [hk] at hgranted
      cases hgranted
      exact hlen
    have hgranted : ∀ k, (pool k).isSome := fun k => by
      obtain ⟨writer, hwriter, -⟩ := hpool k
      simp [hwriter]
    have hdecoder : (default.push chunks.flatten).2 =
        records defaultRecordMax chunks.flatten :=
      (read defaultRecordMax chunks.flatten).records
    rw [(pooledRead hroom chunks.flatten).frames, settled_of_granted hgranted,
      pending_of_granted hgranted, hdecoder, append_nil]
  · exact ⟨(pooledRead hpool chunks.flatten).frames, (pooledRead hpool chunks.flatten).safe⟩

/-! ## The whole line -/

/-- A record that a cursor has written to the device, in turns. -/
structure Sent where
  marker : Option UInt8
  payload : Bytes
  turns : List (Nat × Except WriteError Nat)

namespace Sent

def record (self : Sent) : Bytes := self.marker.toList ++ self.payload

/-- The cursor after the turns, and what the device has taken. -/
def written (self : Sent) : EncoderCursor × Bytes :=
  (EncoderCursor.new self.marker).stream self.payload self.turns

theorem written_wire {self : Sent} (hne : self.record ≠ [])
    (hmax : self.record.length ≤ defaultRecordMax) (hdone : self.written.1.isFinished = true) :
    self.written.2 = [uartFlag] ++ self.record.flatMap encodeByte ++ [uartFlag] := by
  have hwire := EncoderCursor.new_pending (encodePayload_ok hne hmax)
  have hall := (EncoderCursor.new self.marker).stream_pending self.payload self.turns
  have hrest : self.written.1.pending self.payload = [] := by simpa using hdone
  rw [hwire] at hall
  rw [written, record, ← hall,
    show ((EncoderCursor.new self.marker).stream self.payload self.turns).1.pending
    self.payload = [] from hrest, append_nil]

end Sent

theorem frames_of_granted
    (hpool : ∀ k, ∃ writer, pool k = some writer ∧ defaultMaxPacketSize ≤ writer.payload.length)
    (bytes : Bytes) : frames (new.push pool bytes).2 =
      (default.push bytes).2.filterMap classify := by
  have hroom : ∀ k writer, pool k = some writer → defaultMaxPacketSize ≤ writer.payload.length := by
    intro k writer hk
    obtain ⟨granted, hgranted, hlen⟩ := hpool k
    cases hgranted.symm.trans hk
    exact hlen
  have hgranted : ∀ k, (pool k).isSome := fun k => by
    obtain ⟨writer, hwriter, -⟩ := hpool k
    simp [hwriter]
  rw [(pooledRead hroom bytes).frames, settled_of_granted hgranted, pending_of_granted hgranted,
    append_nil]
  exact congrArg _ (read defaultRecordMax bytes).records.symm

/-- Encoded payloads, from any state: at most one record that the first opening flag closes, and
then they. -/
theorem Decoder.push_encoded_interrupting (d : Decoder) (payloads : List Bytes)
    (hpayloads : ∀ payload ∈ payloads, payload ≠ [] ∧ payload.length ≤ d.maxPayload) :
    ∃ interrupted : List Bytes, interrupted.length ≤ 1 ∧
      (d.push (payloads.flatMap fun payload => [uartFlag] ++
        payload.flatMap encodeByte ++ [uartFlag])).2 =
        interrupted ++ payloads := by
  cases payloads with
  | nil => exact ⟨[], by simp, rfl⟩
  | cons payload payloads =>
  obtain ⟨⟨hne, hmax⟩, hrest⟩ := forall_mem_cons.mp hpayloads
  obtain ⟨d', hpush, hboundary, hmax'⟩ := push_encoded d hne hmax
  -- The opening flag of the first payload closes whatever was under way.
  refine ⟨_, pushFlag_length_le d, ?_⟩
  rw [flatMap_cons, push_append, hpush,
    push_encoded_list (pushFlag_of_atBoundary hboundary) (hmax' ▸ hrest), append_assoc]
  rfl

/-- A serial line from end to end. Whatever the decoder has read before, in whatever pieces the
device took the records and the line handed them over, the records arrive classified, in order and
each once, behind at most one frame that the first of them interrupts. -/
theorem serial_line_delivers
    (hpool : ∀ k, ∃ writer, pool k = some writer ∧ defaultMaxPacketSize ≤ writer.payload.length)
    (noise : Bytes) (sends : List Sent)
    (hrecord : ∀ s ∈ sends, s.record ≠ [] ∧ s.record.length ≤ defaultRecordMax)
    (hdone : ∀ s ∈ sends, s.written.1.isFinished = true) (chunks : List Bytes)
    (hchunks : chunks.flatten = noise ++ sends.flatMap fun s => s.written.2) :
    ∃ interrupted : List PooledFrame, interrupted.length ≤ 1 ∧
      frames (new.pushChunks pool chunks).2 =
        frames (new.push pool noise).2 ++ interrupted ++ sends.filterMap fun s =>
          classify s.record := by
  have hwire : (sends.flatMap fun s => s.written.2) =
      (sends.map Sent.record).flatMap fun payload => [uartFlag] ++
        payload.flatMap encodeByte ++ [uartFlag] := by
    rw [flatMap_map]
    exact flatMap_congr fun s hs => Sent.written_wire (hrecord s hs).1 (hrecord s hs).2 (hdone s hs)
  obtain ⟨interrupted, hone, hpush⟩ :=
    Decoder.push_encoded_interrupting (Decoder.default.push noise).1
    (sends.map Sent.record) (by simpa [Decoder.default, Decoder.withMax] using hrecord)
  refine ⟨interrupted.filterMap classify, (length_filterMap_le ..).trans hone, ?_⟩
  rw [pushChunks_eq, hchunks, frames_of_granted hpool, frames_of_granted hpool, Decoder.push_append,
    hwire, hpush, filterMap_append, filterMap_append, filterMap_map, append_assoc]
  rfl

/-- A packet and the wake record behind a broken record, the device taking two bytes, none and the
rest. -/
theorem serial_line_delivers_packet_wake :
    let pool : Pool := fun _ => some ⟨replicate defaultMaxPacketSize 0⟩
    let sends : List Sent :=
      [⟨some packetMarker, [uartFlag], [(4, .ok 2), (4, .error .wouldBlock), (256, .ok 9)]⟩,
        ⟨none, [wakeMarker], [(8, .ok 8)]⟩]
    ∃ interrupted : List PooledFrame, interrupted.length ≤ 1 ∧
      frames (new.pushChunks pool ([uartFlag, 0x41] :: sends.map fun s =>
        s.written.2)).2 =
        [] ++ interrupted ++ [.packet [uartFlag], .wake] := by
  intro pool sends
  exact serial_line_delivers (fun _ => ⟨_, rfl, by simp⟩) [uartFlag, 0x41] sends (by decide)
    (by decide) _
    (by simp [flatMap])

end QuicLite.Uart

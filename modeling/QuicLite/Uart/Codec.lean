import QuicLite.Lib.Framing
import QuicLite.Wire.Varint

/-!
# PPP framing on the UART

Records travel between flags, with flag and escape bytes escaped. A flag closes the current record
and opens the next, so a decoder that starts anywhere, or has lost its place, is back in step after
one flag.

The decoder is compared with a description of the byte stream that has no state: cut it at the flags
and unescape each piece.
-/

namespace QuicLite.Uart

open Framing List

variable {payload : Bytes} {max : Nat}

def uartFlag : UInt8 := 0x7e

def uartEscape : UInt8 := 0x7d

def uartEscapeXor : UInt8 := 0x20

def defaultRecordMax : Nat := 4000

inductive Error where
  | emptyPayload
  | payloadTooLarge

/-! ## The encoder -/

/-- The wire form of one payload byte. -/
def encodeByte (byte : UInt8) : Bytes :=
  if byte = uartFlag ∨ byte = uartEscape then [uartEscape, byte ^^^ uartEscapeXor] else [byte]

def encodePayload (payload : Bytes) (max : Nat) : Except Error Bytes :=
  if payload = [] ∨ max < payload.length then
    .error (if payload = [] then .emptyPayload else .payloadTooLarge)
  else .ok (uartFlag :: payload.flatMap encodeByte ++ [uartFlag])

/-! ## The decoder -/

structure Decoder where
  inFrame : Bool
  escaped : Bool
  discard : Bool
  payload : Bytes
  frameActivity : Bool
  frameError : Bool
  maxPayload : Nat

namespace Decoder

def withMax (maxPayload : Nat) : Decoder := ⟨false, false, false, [], false, false, maxPayload⟩

/-- `Decoder::default` -/
def default : Decoder := withMax defaultRecordMax

variable (self : Decoder)

def reset : Decoder :=
  { self with inFrame := false, escaped := false, discard := false, payload := [] }

/-- A flag byte: the first one opens a record, every other one also closes a record. -/
def pushFlag : Decoder × List Bytes :=
  if !self.inFrame then
    ({ self with inFrame := true, escaped := false, discard := false, payload := [] }, [])
  else
    let hadPayload := !self.payload.isEmpty
    ({ self with
        frameError := self.frameError || self.escaped || self.discard
        frameActivity := self.frameActivity || hadPayload
        escaped := false
        discard := false
        payload := [] },
      if !self.escaped && !self.discard && hadPayload then [self.payload] else [])

/-- Any other byte. -/
def pushBody (byte : UInt8) : Decoder :=
  if !self.inFrame || self.discard then self
  else
    let self :=
      if self.escaped then
        { self with payload := self.payload ++ [byte ^^^ uartEscapeXor], escaped := false }
      else if byte = uartEscape then { self with escaped := true }
      else { self with payload := self.payload ++ [byte] }
    if self.payload.length > self.maxPayload then
      { self with payload := [], escaped := false, discard := true, frameError := true }
    else self

def pushByte (byte : UInt8) : Decoder × List Bytes :=
  if byte = uartFlag then self.pushFlag else (self.pushBody byte, [])

/-- `push`, which never fails, leaves the decoder and the records completed by `bytes`. -/
def push (bytes : Bytes) : Decoder × List Bytes := feed pushByte self bytes

/-- One `push` per chunk. -/
def pushChunks (chunks : List Bytes) : Decoder × List Bytes := feed push self chunks

def takeFrameActivity : Decoder × Bool :=
  ({ self with frameActivity := false }, self.frameActivity)

def takeFrameError : Decoder × Bool :=
  ({ self with frameError := false }, self.frameError)

/-- The decoders that calls in any order lead to. -/
inductive Reached (max : Nat) : Decoder → Prop
  | withMax : Reached max (withMax max)
  | push {d} (bytes : Bytes) : Reached max d → Reached max (d.push bytes).1
  | reset {d} : Reached max d → Reached max d.reset
  | takeFrameActivity {d} : Reached max d → Reached max d.takeFrameActivity.1
  | takeFrameError {d} : Reached max d → Reached max d.takeFrameError.1

/-- Just behind a flag. -/
def AtBoundary : Prop :=
  self.inFrame = true ∧ self.escaped = false ∧ self.discard = false ∧ self.payload = []

end Decoder

open Decoder

/-! ## The content of a byte stream -/

/-- The content of a segment; an escape with no byte behind it has none. -/
def unescape : Bytes → Option Bytes
  | [] => some []
  | [byte] => if byte = uartEscape then none else some [byte]
  | byte :: next :: rest =>
    if byte = uartEscape then (unescape rest).map ((next ^^^ uartEscapeXor) :: ·)
    else (unescape (next :: rest)).map (byte :: ·)

/-- The record in a segment, if it has one: a content that is neither empty nor too long. -/
def record (max : Nat) (segment : Bytes) : Option Bytes :=
  (unescape segment).filter fun content => content ≠ [] ∧ content.length ≤ max

/-- The records in a byte stream. -/
def records (max : Nat) (bytes : Bytes) : List Bytes :=
  (segments uartFlag bytes).filterMap (record max)

/-! ## Unescaping byte by byte -/

/-- One more byte: the content so far, and whether an escape waits for its byte. -/
def scanByte (state : Bytes × Bool) (byte : UInt8) : Bytes × Bool :=
  if state.2 then (state.1 ++ [byte ^^^ uartEscapeXor], false)
  else if byte = uartEscape then (state.1, true)
  else (state.1 ++ [byte], false)

def scan (segment : Bytes) : Bytes × Bool := segment.foldl scanByte ([], false)

@[simp] theorem scan_nil : scan [] = ([], false) := rfl

@[simp] theorem scan_concat (segment : Bytes) (byte : UInt8) :
    scan (segment ++ [byte]) = scanByte (scan segment) byte := by
  simp only [scan, foldl_append, foldl_cons, foldl_nil]

theorem scanByte_length_le (state : Bytes × Bool) (byte : UInt8) :
    state.1.length ≤ (scanByte state byte).1.length := by
  unfold scanByte
  split
  · simp
  · split <;> simp

/-- The content that scanning from `content` onwards finds. -/
theorem foldl_scanByte (content segment : Bytes) : (unescape segment).map (content ++ ·) =
      if (segment.foldl scanByte (content, false)).2 then none
      else some (segment.foldl scanByte (content, false)).1 := by
  induction segment using unescape.induct generalizing content with
  | case1 => simp [unescape]
  | case2 => simp [unescape, scanByte]
  | case3 byte hbyte => simp [unescape, scanByte, hbyte]
  | case4 next rest ih =>
    have hstep : scanByte (scanByte (content, false) uartEscape) next =
        (content ++ [next ^^^ uartEscapeXor], false) := by
      simp [scanByte]
    rw [foldl_cons, foldl_cons, hstep, ← ih, unescape]
    cases unescape rest <;> simp
  | case5 byte next rest hbyte ih =>
    have hstep : scanByte (content, false) byte = (content ++ [byte], false) := by
      simp [scanByte, hbyte]
    rw [foldl_cons, hstep, ← ih, unescape, if_neg hbyte]
    cases unescape (next :: rest) <;> simp

theorem unescape_eq_scan (segment : Bytes) :
    unescape segment = if (scan segment).2 then none else some (scan segment).1 := by
  rw [scan, ← foldl_scanByte]
  simp

theorem record_eq_scan (max : Nat) (segment : Bytes) : record max segment =
      if (scan segment).2 = false ∧ (scan segment).1 ≠ [] ∧ (scan segment).1.length ≤ max
      then some (scan segment).1 else none := by
  rw [record, unescape_eq_scan]
  cases (scan segment).2 <;> simp [Option.filter]

/-! ## One segment -/

namespace Decoder

variable {segment : Bytes} {bytes : Bytes}

/-- The decoder has read `segment` since the last flag. -/
structure InSegment (max : Nat) (segment : Bytes) (d : Decoder) : Prop where
  inFrame : d.inFrame = true
  maxPayload : d.maxPayload = max
  fits : (scan segment).1.length ≤ max → d.discard = false ∧ d.payload = (scan segment).1 ∧
    d.escaped = (scan segment).2
  tooLong : max < (scan segment).1.length → d.discard = true ∧ d.payload = []

theorem AtBoundary.inSegment {d : Decoder} (h : d.AtBoundary) : InSegment d.maxPayload [] d where
  inFrame := h.1
  maxPayload := rfl
  fits _ := ⟨h.2.2.1, h.2.2.2, h.2.1⟩
  tooLong h := by simp at h

theorem pushBody_outside {d : Decoder} (h : d.inFrame = false) (byte : UInt8) :
    d.pushBody byte = d := by
  simp [pushBody, h]

/-- One more byte of the segment. -/
theorem InSegment.pushBody {d : Decoder} (h : InSegment max segment d)
    (byte : UInt8) : InSegment max (segment ++ [byte]) (d.pushBody byte) := by
  have hgrows := scanByte_length_le (scan segment) byte
  rcases Nat.lt_or_ge max (scan segment).1.length with hlong | hfits
  · obtain ⟨hdiscard, hpayload⟩ := h.tooLong hlong
    have hsame : d.pushBody byte = d := by simp [Decoder.pushBody, hdiscard]
    rw [hsame]
    refine ⟨h.inFrame, h.maxPayload, fun hle => ?_, fun _ => ⟨hdiscard, hpayload⟩⟩
    rw [scan_concat] at hle
    omega
  obtain ⟨hdiscard, hpayload, hescaped⟩ := h.fits hfits
  -- The decoder takes the scanner's step, and then checks the length.
  have hstep : d.pushBody byte = if (scanByte (scan segment) byte).1.length > max then
        { d with payload := [], escaped := false, discard := true, frameError := true }
      else { d with
        payload := (scanByte (scan segment) byte).1,
        escaped := (scanByte (scan segment) byte).2 } := by
    simp only [Decoder.pushBody, h.inFrame, hdiscard, hpayload, hescaped, scanByte]
    cases hwaits : (scan segment).2 with
    | true => simp [h.maxPayload]
    | false =>
      by_cases hbyte : byte = uartEscape
      · have hle : ¬ max < (scan segment).1.length := by omega
        simp [hbyte, h.maxPayload]
      · simp [hbyte, h.maxPayload]
  rw [hstep]
  split
  · next hover =>
      refine ⟨h.inFrame, h.maxPayload, fun hle => ?_, fun _ => ⟨rfl, rfl⟩⟩
      rw [scan_concat] at hle
      omega
  next hroom =>
    refine ⟨h.inFrame, h.maxPayload, fun _ => ⟨hdiscard, by rw [scan_concat], by rw [scan_concat]⟩,
      fun hlong => ?_⟩
    rw [scan_concat] at hlong
    omega

variable (d : Decoder)

theorem pushFlag_atBoundary : d.pushFlag.1.AtBoundary := by
  unfold pushFlag
  split <;> simp_all [AtBoundary]

@[simp] theorem pushFlag_maxPayload : d.pushFlag.1.maxPayload = d.maxPayload := by
  unfold pushFlag
  split <;> rfl

@[simp] theorem pushBody_maxPayload (byte : UInt8) :
    (d.pushBody byte).maxPayload = d.maxPayload := by
  unfold pushBody
  split
  · rfl
  · dsimp only
    split <;> split <;> first | rfl | (split <;> rfl)

theorem pushFlag_length_le : d.pushFlag.2.length ≤ 1 := by
  unfold pushFlag
  split
  · simp
  · dsimp only
    split <;> simp

theorem InSegment.pushFlag {d : Decoder} (h : InSegment max segment d) :
    d.pushFlag.2 = (record max segment).toList := by
  simp only [Decoder.pushFlag, h.inFrame, record_eq_scan]
  rcases Nat.lt_or_ge max (scan segment).1.length with hlong | hfits
  · obtain ⟨hdiscard, hpayload⟩ := h.tooLong hlong
    have hnot : ¬ (scan segment).1.length ≤ max := by omega
    simp [hdiscard, hnot]
  obtain ⟨hdiscard, hpayload, hescaped⟩ := h.fits hfits
  simp only [hdiscard, hpayload, hescaped, hfits]
  cases (scan segment).2 <;> cases (scan segment).1 <;> simp

/-! ## Runs -/

theorem push_append (l m : Bytes) :
    d.push (l ++ m) = (((d.push l).1.push m).1, (d.push l).2 ++ ((d.push l).1.push m).2) :=
  feed_append d l m

@[simp] theorem push_maxPayload (bytes : Bytes) : (d.push bytes).1.maxPayload = d.maxPayload := by
  induction bytes generalizing d with
  | nil => rfl
  | cons byte bytes ih =>
    have hbyte : (d.pushByte byte).1.maxPayload = d.maxPayload := by
      unfold pushByte
      split
      · exact pushFlag_maxPayload d
      · exact pushBody_maxPayload d byte
    rw [push, feed_cons]
    exact (ih _).trans hbyte

/-- How the input is cut into chunks changes nothing. -/
theorem pushChunks_eq (chunks : List Bytes) : d.pushChunks chunks = d.push chunks.flatten :=
  feed_chunks d chunks

theorem push_flag : d.push [uartFlag] = d.pushFlag := by
  simp [push, feed_cons, pushByte]

/-- Bytes other than the flag extend the segment and complete no record. -/
theorem InSegment.push {d : Decoder} (h : InSegment max segment d) (hflag : uartFlag ∉ bytes) :
    InSegment max (segment ++ bytes) (d.push bytes).1 ∧ (d.push bytes).2 = [] := by
  induction bytes generalizing segment d with
  | nil => simpa [push] using h
  | cons byte bytes ih =>
    obtain ⟨hne, hrest⟩ : uartFlag ≠ byte ∧ uartFlag ∉ bytes := by simpa using hflag
    have hbyte : d.pushByte byte = (d.pushBody byte, []) := if_neg hne.symm
    obtain ⟨hin, hnone⟩ := ih (h.pushBody byte) hrest
    rw [append_assoc] at hin
    rw [push, feed_cons, hbyte]
    exact ⟨hin, hnone⟩

/-- What a fresh decoder has made of `bytes`. -/
structure Read (max : Nat) (bytes : Bytes) : Prop where
  outside : openSegment uartFlag bytes = none → ((withMax max).push bytes).1.inFrame = false
  inside : ∀ segment, openSegment uartFlag bytes = some segment →
    InSegment max segment ((withMax max).push bytes).1
  records : ((withMax max).push bytes).2 = Uart.records max bytes

theorem read_flag (h : Read max bytes) : Read max (bytes ++ [uartFlag]) := by
  refine ⟨by simp, fun segment hsegment => ?_, ?_⟩
  · obtain rfl : [] = segment := by simpa using hsegment
    have hboundary := (pushFlag_atBoundary ((withMax max).push bytes).1).inSegment
    rw [pushFlag_maxPayload, push_maxPayload] at hboundary
    rwa [push_append, push_flag]
  rw [push_append, push_flag, Uart.records, segments_concat_flag, filterMap_append, ← Uart.records,
    h.records]
  cases hopen : openSegment uartFlag bytes with
  | none => simp [pushFlag, h.outside hopen]
  | some segment =>
    rw [(h.inside segment hopen).pushFlag]
    cases hrecord : record max segment <;> simp [hrecord]

theorem read_body {byte : UInt8} (hne : byte ≠ uartFlag) (h : Read max bytes) :
    (withMax max).push (bytes ++ [byte]) =
      (((withMax max).push bytes).1.pushBody byte, Uart.records max (bytes ++ [byte])) := by
  have hbyte : ∀ d : Decoder, d.push [byte] = (d.pushBody byte, []) := fun d => by
    simp [push, feed_cons, pushByte, hne]
  rw [push_append, hbyte, h.records, Uart.records, Uart.records, segments_concat_of_ne hne,
    append_nil]

/-- The decoder reads what the flags of the input delimit. -/
theorem read (max : Nat) (bytes : Bytes) : Read max bytes := by
  induction bytes using flag_induction uartFlag with
  | nil => exact ⟨fun _ => rfl, by simp, rfl⟩
  | closed bytes ih => exact read_flag ih
  | outside bytes byte hne hopen ih =>
    have hsame := pushBody_outside (ih.outside hopen) byte
    have hpush := read_body hne ih
    rw [hsame] at hpush
    have hstill : openSegment uartFlag (bytes ++ [byte]) = none := by
      rw [openSegment_concat_of_ne hne, hopen]; rfl
    exact ⟨fun _ => by rw [hpush]; exact ih.outside hopen, by rw [hstill]; rintro _ ⟨⟩,
      by rw [hpush]⟩
  | inside bytes byte segment hne hopen ih =>
    have hin := (ih.inside segment hopen).pushBody byte
    have hpush := read_body hne ih
    have hnext : openSegment uartFlag (bytes ++ [byte]) = some (segment ++ [byte]) := by
      rw [openSegment_concat_of_ne hne, hopen]; rfl
    refine ⟨by rw [hnext]; rintro ⟨⟩, ?_, by rw [hpush]⟩
    rintro _ hsegment
    rw [hnext] at hsegment
    cases hsegment
    rw [hpush]
    exact hin

end Decoder

/-! ## Encoding -/

theorem encodePayload_ok (hne : payload ≠ []) (hmax : payload.length ≤ max) :
    encodePayload payload max = .ok ([uartFlag] ++ payload.flatMap encodeByte ++ [uartFlag]) := by
  have hroom : ¬ max < payload.length := by omega
  simp [encodePayload, hne, hroom]

theorem uartFlag_not_mem_encodeByte (byte : UInt8) : uartFlag ∉ encodeByte byte := by
  unfold encodeByte
  split
  · next h => rcases h with rfl | rfl <;> decide
  · next h => simpa [eq_comm] using (not_or.mp h).1

theorem uartFlag_not_mem_flatMap (payload : Bytes) : uartFlag ∉ payload.flatMap encodeByte := by
  rw [mem_flatMap]
  rintro ⟨byte, -, hbyte⟩
  exact uartFlag_not_mem_encodeByte byte hbyte

theorem foldl_scanByte_encodeByte (content : Bytes) (byte : UInt8) :
    (encodeByte byte).foldl scanByte (content, false) = (content ++ [byte], false) := by
  have hxor : byte ^^^ uartEscapeXor ^^^ uartEscapeXor = byte := by rw [UInt8.xor_assoc]; simp
  unfold encodeByte
  split
  · simp [scanByte, hxor]
  · next h => simp [scanByte, (not_or.mp h).2]

theorem scan_flatMap (payload : Bytes) : scan (payload.flatMap encodeByte) = (payload, false) := by
  suffices h : ∀ content, (payload.flatMap encodeByte).foldl scanByte (content, false) =
      (content ++ payload, false) by
    simpa [scan] using h []
  induction payload with
  | nil => simp
  | cons byte payload ih =>
    intro content
    rw [flatMap_cons, foldl_append, foldl_scanByte_encodeByte, ih, append_assoc]
    rfl

theorem record_flatMap (hne : payload ≠ []) (hmax : payload.length ≤ max) :
    record max (payload.flatMap encodeByte) = some payload := by
  rw [record_eq_scan, scan_flatMap, if_pos ⟨rfl, hne, hmax⟩]

namespace Decoder

/-- An encoded payload, from any state: what the opening flag closes, and then the payload. -/
theorem push_encoded (d : Decoder) (hne : payload ≠ []) (hmax : payload.length ≤ d.maxPayload) :
    ∃ d', d.push ([uartFlag] ++ payload.flatMap encodeByte ++ [uartFlag]) =
      (d', d.pushFlag.2 ++ [payload]) ∧
      d'.AtBoundary ∧ d'.maxPayload = d.maxPayload := by
  have hstart := (pushFlag_atBoundary d).inSegment
  obtain ⟨hin, hquiet⟩ := hstart.push (uartFlag_not_mem_flatMap payload)
  rw [nil_append, pushFlag_maxPayload] at hin
  have hrecord := hin.pushFlag
  rw [record_flatMap hne hmax] at hrecord
  refine ⟨_, ?_, pushFlag_atBoundary (d.pushFlag.1.push (payload.flatMap encodeByte)).1, ?_⟩
  · rw [push_append, push_append, push_flag, push_flag, hquiet, hrecord]
    simp
  · rw [pushFlag_maxPayload, hin.maxPayload]

theorem Reached.maxPayload {d : Decoder} (h : Reached max d) : d.maxPayload = max := by
  induction h with
  | withMax => rfl
  | push bytes _ ih =>
    rw [push_maxPayload, ih]
  | reset _ ih => exact ih
  | takeFrameActivity _ ih => exact ih
  | takeFrameError _ ih => exact ih

theorem pushFlag_of_atBoundary {d : Decoder} (h : d.AtBoundary) : d.pushFlag.2 = [] := by
  obtain ⟨hin, hescaped, hdiscard, hpayload⟩ := h
  simp [pushFlag, hin, hpayload]

/-- Encoded payloads one after the other, from a decoder that has nothing to interrupt. -/
theorem push_encoded_list {payloads : List Bytes} {d : Decoder} (hquiet : d.pushFlag.2 = [])
    (hpayloads : ∀ payload ∈ payloads, payload ≠ [] ∧ payload.length ≤ d.maxPayload) :
    (d.push (payloads.flatMap fun payload => [uartFlag] ++
      payload.flatMap encodeByte ++ [uartFlag])).2 = payloads := by
  induction payloads generalizing d with
  | nil => rfl
  | cons payload payloads ih =>
    obtain ⟨hne, hmax⟩ := hpayloads payload mem_cons_self
    obtain ⟨d', hpush, hboundary, hmax'⟩ := push_encoded d hne hmax
    have hrest := ih (pushFlag_of_atBoundary hboundary) fun p hp =>
      hmax' ▸ hpayloads p (mem_cons_of_mem _ hp)
    rw [flatMap_cons, push_append, hpush, hrest, hquiet]
    rfl

end Decoder

/-- The framing resynchronises and round-trips. From any state that calls can lead to, an encoded
payload comes out as the last record, behind at most the one its opening flag interrupts; encoded
payloads come out of a fresh decoder as they went in; the chunks of the input do not matter; and the
records of any input are its flag-delimited contents. -/
theorem framing_resynchronises (max : Nat) :
    (∀ d, Reached max d → ∀ payload : Bytes, payload ≠ [] → payload.length ≤ max →
      ∃ wire, encodePayload payload max = .ok wire ∧ ∀ chunks : List Bytes, chunks.flatten = wire →
        ∃ d' interrupted, d.pushChunks chunks = (d', interrupted ++ [payload]) ∧
          interrupted = (d.push [uartFlag]).2 ∧ interrupted.length ≤ 1 ∧ d'.AtBoundary) ∧
    (∀ payloads : List Bytes, (∀ payload ∈ payloads, payload ≠ [] ∧ payload.length ≤ max) →
      ∃ wires : List Bytes, payloads.map (encodePayload · max) = wires.map .ok ∧
        ((withMax max).push wires.flatten).2 = payloads) ∧
    (∀ (d : Decoder) (chunks chunks' : List Bytes), chunks.flatten = chunks'.flatten →
      d.pushChunks chunks = d.pushChunks chunks') ∧
    ∀ bytes, ((withMax max).push bytes).2 = records max bytes := by
  refine ⟨?_, ?_, ?_, fun bytes => (read max bytes).records⟩
  · intro d hd payload hne hmax
    refine ⟨_, encodePayload_ok hne hmax, fun chunks hchunks => ?_⟩
    obtain ⟨d', hpush, hboundary, -⟩ := push_encoded d hne (hd.maxPayload.symm ▸ hmax)
    refine ⟨d', d.pushFlag.2, ?_, ?_, pushFlag_length_le d, hboundary⟩
    · rw [pushChunks_eq, hchunks, hpush]
    · rw [push_flag]
  · intro payloads hpayloads
    refine ⟨payloads.map fun payload => [uartFlag] ++ payload.flatMap encodeByte ++ [uartFlag], ?_,
      ?_⟩
    · rw [map_map]
      exact map_congr_left fun payload hp =>
        encodePayload_ok (hpayloads payload hp).1 (hpayloads payload hp).2
    · exact push_encoded_list rfl hpayloads
  · intro d chunks chunks' hsame
    rw [pushChunks_eq, pushChunks_eq, hsame]

-- An oversize frame is dropped and the next one comes through.
example : ((withMax 2).push [uartFlag, 1, 2, 3, uartFlag, uartFlag, 9, uartFlag]).2 =
    [[9]] := by decide

end QuicLite.Uart

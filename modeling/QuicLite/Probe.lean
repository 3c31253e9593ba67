import QuicLite.Lib.Runs
import QuicLite.Wire.Frame

/-!
# Probe streams

A probe workload is sent in ranges: the sender prepares one within the window and the buffer it is
given, and commits it when the transport took it. Every range starts with its number in four bytes,
so both sides refuse a shorter one. A run prepares and commits in any order, with any windows, and
hands what is committed to a receiver.

The payload inside one stream is produced in runs and checked byte by byte; both are `slice`s of one
reference stream.
-/

namespace QuicLite.Probe

open BigEndian List Nat

variable {count : Nat}

inductive ProbeError where
  | unexpectedRange
  | invalidPayload

structure ProbeChunk where
  streamId : Nat
  offset : Nat
  len : Nat
  fin : Bool
  packetId : UInt32

structure ProbeSender where
  streamId : Nat
  remaining : Nat
  chunkSize : Nat
  offset : Nat
  packetId : UInt32

/-- The byte of a range at this distance from its number. -/
def patternByte (offset index : Nat) : UInt8 := UInt8.ofNat (offset + (4 + index))

namespace ProbeSender

def new (streamId bytes chunkSize : Nat) : Option ProbeSender :=
  if bytes = 0 ∨ chunkSize < 4 then none else some ⟨streamId, bytes, chunkSize, 0, 0⟩

def isComplete (self : ProbeSender) : Bool := self.remaining == 0

/-- The range, and the caller's buffer with its bytes at the front. -/
def prepare (self : ProbeSender) (flowWindow : Nat) (output : Bytes) : Option ProbeChunk × Bytes :=
  let len := min (min (min self.remaining self.chunkSize) output.length) flowWindow
  if len < 4 then (none, output)
  else
    (some ⟨self.streamId, self.offset, len, len == self.remaining, self.packetId⟩,
      toBytes 4 self.packetId.toNat ++ (range (len - 4)).map (patternByte self.offset) ++
        output.drop len)

def commit (self : ProbeSender) (chunk : ProbeChunk) : Except ProbeError ProbeSender :=
  if chunk.streamId ≠ self.streamId ∨ chunk.offset ≠ self.offset ∨ chunk.packetId ≠ self.packetId ∨
    chunk.len < 4 ∨
      self.remaining < chunk.len ∨ chunk.fin ≠ (chunk.len == self.remaining) then
        .error .unexpectedRange
  else .ok { self with
    offset := satAdd self.offset chunk.len
    remaining := self.remaining - chunk.len
    packetId := self.packetId + 1 }

end ProbeSender

structure ProbeReceiver where
  validation : Nat
  bytes : Nat
  nextOffset : Nat
  nextPacketId : UInt32
  complete : Bool
  callbackErrors : List Nat

namespace ProbeReceiver

def new (validation : Nat) : ProbeReceiver := ⟨validation, 0, 0, 0, false, replicate 6 0⟩

def receive (self : ProbeReceiver) (offset : Nat) (fin : Bool) (bytes : Bytes) :
    ProbeReceiver × Except ProbeError Nat :=
  if self.complete ∨ bytes.length < 4 ∨ offset ≠ self.nextOffset then
    ({ self with callbackErrors := self.callbackErrors.modify 2 (satAdd · 1) },
      .error .unexpectedRange)
  else if (1 ≤ self.validation ∧ ofBytes 0 (bytes.take 4) ≠ self.nextPacketId.toNat) ∨
    (2 ≤ self.validation ∧
      (range (bytes.length - 4)).any fun index =>
        bytes.getD (4 + index) 0 != patternByte self.nextOffset index) then
    ({ self with callbackErrors := self.callbackErrors.modify 5 (satAdd · 1) },
      .error .invalidPayload)
  else
    ({ self with
        nextPacketId := self.nextPacketId + 1
        nextOffset := satAdd self.nextOffset bytes.length
        bytes := satAdd self.bytes bytes.length
        complete := fin }, .ok bytes.length)

end ProbeReceiver

/-! ## Runs -/

/-- A sender and its receiver, with every range returned so far and those committed. -/
structure Workload where
  sender : ProbeSender
  receiver : ProbeReceiver
  offered : List (ProbeChunk × Bytes)
  committed : List ProbeChunk
  /-- No committed range was refused. -/
  accepted : Bool

inductive Action where
  | prepare (flowWindow : Nat) (output : Bytes)
  /-- Commits one of the ranges returned so far. -/
  | commit (index : Nat)

namespace Workload

variable {chunk : ProbeChunk} {sender : ProbeSender}

def start (sender : ProbeSender) : Workload := ⟨sender, .new 2, [], [], true⟩

def step (s : Workload) : Action → Workload
  | .prepare flowWindow output =>
    match s.sender.prepare flowWindow output with
    | (none, _) => s
    | (some chunk, output) => { s with offered := s.offered ++ [(chunk, output.take chunk.len)] }
  | .commit index =>
    match s.offered[index]? with
    | none => s
    | some (chunk, bytes) =>
      match s.sender.commit chunk with
      | .error _ => s
      | .ok sender =>
        let (receiver, result) := s.receiver.receive chunk.offset chunk.fin bytes
        { s with
          sender := sender
          receiver := receiver
          committed := s.committed ++ [chunk]
          accepted := s.accepted && result.isOk }

/-- The range committed next does not leave one, two or three bytes. -/
def LeavesNoStub (s : Workload) : Action → Prop
  | .prepare _ _ => True
  | .commit index => ∀ entry ∈ s.offered[index]?, entry.1.offset = s.sender.offset →
      entry.1.len = s.sender.remaining ∨ entry.1.len + 4 ≤ s.sender.remaining

instance (s : Workload) : ∀ action, Decidable (s.LeavesNoStub action)
  | .prepare _ _ => isTrue trivial
  | .commit index => inferInstanceAs (Decidable (∀ entry ∈ s.offered[index]?, _))

/-- Ranges that follow one another. -/
def Covers : Nat → List ProbeChunk → Nat → Prop
  | start, [], stop => start = stop
  | start, chunk :: chunks, stop => chunk.offset = start ∧ Covers (start + chunk.len) chunks stop

/-- What is promised of a workload of this many bytes. -/
structure Sound (bytes chunkSize : Nat) (s : Workload) : Prop where
  covers : Covers 0 s.committed s.sender.offset
  total : s.sender.offset + s.sender.remaining = bytes
  fins : ∃ count, s.committed.map (·.fin) = replicate count false ++
    if s.sender.isComplete then [true] else []
  accepted : s.accepted = true
  complete : s.receiver.complete = s.sender.isComplete
  progress : s.sender.isComplete = false → ∀ flowWindow output, chunkSize ≤ flowWindow →
    chunkSize ≤ output.length →
    (s.sender.prepare flowWindow output).1.isSome = true

/-- The bytes of a range. -/
def Carries (chunk : ProbeChunk) (bytes : Bytes) : Prop :=
  4 ≤ chunk.len ∧ bytes = toBytes 4 chunk.packetId.toNat ++
    (range (chunk.len - 4)).map (patternByte chunk.offset)

structure Inv (bytes chunkSize : Nat) (s : Workload) : Prop where
  covers : Covers 0 s.committed s.sender.offset
  total : s.sender.offset + s.sender.remaining = bytes
  fins : ∃ count, s.committed.map (·.fin) = replicate count false ++
    if s.sender.isComplete then [true] else []
  accepted : s.accepted = true
  receiver : s.receiver.validation = 2 ∧ s.receiver.nextOffset = s.sender.offset ∧
    s.receiver.nextPacketId = s.sender.packetId ∧ s.receiver.complete = s.sender.isComplete
  chunkSize : s.sender.chunkSize = chunkSize ∧ 4 ≤ chunkSize
  noStub : s.sender.remaining = 0 ∨ 4 ≤ s.sender.remaining
  offered : ∀ entry ∈ s.offered, Carries entry.1 entry.2

variable {bytes chunkSize : Nat} {s : Workload}

theorem Inv.sound (h : Inv bytes chunkSize s) : Sound bytes chunkSize s where
  covers := h.covers
  total := h.total
  fins := h.fins
  accepted := h.accepted
  complete := h.receiver.2.2.2
  progress := by
    intro hopen flowWindow output hwindow hroom
    obtain ⟨hsize, hmin⟩ := h.chunkSize
    have hrest : s.sender.remaining ≠ 0 := by simpa [ProbeSender.isComplete] using hopen
    have := h.noStub
    unfold ProbeSender.prepare
    rw [if_neg (by omega)]
    rfl

theorem covers_append {chunks : List ProbeChunk} {start stop : Nat} (h : Covers start chunks stop)
    (hoffset : chunk.offset = stop) : Covers start (chunks ++ [chunk]) (stop + chunk.len) := by
  induction chunks generalizing start with
  | nil =>
    obtain rfl : start = stop := h
    exact ⟨hoffset, rfl⟩
  | cons head chunks ih => exact ⟨h.1, ih h.2⟩

/-- A receiver at the place of a range takes its bytes. -/
theorem receive_carried {receiver : ProbeReceiver} {payload : Bytes} (h : Carries chunk payload)
    (hopen : receiver.complete = false) (hoffset : receiver.nextOffset = chunk.offset)
    (hpacket : receiver.nextPacketId = chunk.packetId) :
    receiver.receive chunk.offset chunk.fin payload =
      ({ receiver with
        nextPacketId := receiver.nextPacketId + 1
        nextOffset := satAdd receiver.nextOffset chunk.len
        bytes := satAdd receiver.bytes chunk.len
        complete := chunk.fin }, .ok chunk.len) := by
  obtain ⟨hmin, rfl⟩ := h
  have hlength : (toBytes 4 chunk.packetId.toNat ++
      (range (chunk.len - 4)).map (patternByte chunk.offset)).length =
      chunk.len := by
    rw [length_append, length_toBytes, length_map, length_range]
    omega
  have hnumber : ofBytes 0 ((toBytes 4 chunk.packetId.toNat ++
      (range (chunk.len - 4)).map (patternByte chunk.offset)).take 4) = chunk.packetId.toNat := by
    rw [take_left' (length_toBytes ..), ofBytes_toBytes, zero_mul, zero_add]
    exact mod_eq_of_lt chunk.packetId.toNat_lt
  unfold ProbeReceiver.receive
  rw [hlength, if_neg (by simp [hopen]; omega), if_neg]
  rw [hnumber, hpacket, hoffset]
  rintro (⟨-, hne⟩ | ⟨-, hany⟩)
  · exact hne rfl
  rw [any_eq_true] at hany
  obtain ⟨index, hindex, hne⟩ := hany
  rw [mem_range] at hindex
  simp [hindex] at hne

theorem prepare_carries {flowWindow : Nat} {output output' : Bytes}
    (h : sender.prepare flowWindow output = (some chunk, output')) :
    Carries chunk (output'.take chunk.len) := by
  unfold ProbeSender.prepare at h
  dsimp only at h
  split_ifs at h with hshort
  · cases h
  obtain ⟨hchunk, rfl⟩ := Prod.mk.inj h
  obtain rfl := Option.some.inj hchunk
  refine ⟨not_lt.mp hshort, take_left' ?_⟩
  rw [length_append, length_toBytes, length_map, length_range]
  dsimp only
  omega

theorem commit_ok {sender' : ProbeSender} (h : sender.commit chunk = .ok sender') :
    (chunk.offset = sender.offset ∧ chunk.packetId = sender.packetId ∧ 4 ≤ chunk.len ∧
      chunk.len ≤ sender.remaining ∧
      chunk.fin = (chunk.len == sender.remaining)) ∧
    sender' = { sender with
      offset := satAdd sender.offset chunk.len
      remaining := sender.remaining - chunk.len
      packetId := sender.packetId + 1 } := by
  unfold ProbeSender.commit at h
  split_ifs at h with hrefused
  simp only [not_or, not_not, not_lt] at hrefused
  exact ⟨hrefused.2, (Except.ok.inj h).symm⟩

theorem Inv.step (hbytes : bytes < usizeBound) (h : Inv bytes chunkSize s) {action : Action}
    (hok : s.LeavesNoStub action) :
    Inv bytes chunkSize (s.step action) := by
  cases action with
  | prepare flowWindow output =>
    unfold Workload.step
    dsimp only
    split
    · exact h
    rename_i chunk output' hprepare
    refine { h with offered := fun entry hentry => ?_ }
    rcases mem_append.mp hentry with hold | hnew
    · exact h.offered entry hold
    · obtain rfl := mem_singleton.mp hnew
      exact prepare_carries hprepare
  | commit index =>
    unfold Workload.step
    dsimp only
    split
    · exact h
    rename_i chunk payload hentry
    split
    · exact h
    rename_i sender hcommit
    obtain ⟨⟨hoffset, hpacket, hmin, hfits, hfin⟩, rfl⟩ := commit_ok hcommit
    obtain ⟨hvalidation, hnext, hid, hopen⟩ := h.receiver
    have htotal := h.total
    have hincomplete : s.sender.isComplete = false := by
      simp only [ProbeSender.isComplete, beq_eq_false_iff_ne]
      omega
    have hadd : satAdd s.sender.offset chunk.len = s.sender.offset + chunk.len := by
      rw [satAdd]
      omega
    have hfinal : (chunk.len == s.sender.remaining) = (s.sender.remaining - chunk.len == 0) := by
      rw [Bool.eq_iff_iff, beq_iff_eq, beq_iff_eq]
      omega
    rw [receive_carried (h.offered _ (mem_of_getElem? hentry)) (hopen.trans hincomplete)
      (hnext.trans hoffset.symm) (hid.trans hpacket.symm)]
    obtain ⟨count, hcount⟩ := h.fins
    refine ⟨?_, ?_, ?_, ?_, ⟨hvalidation, ?_, ?_, ?_⟩, h.chunkSize, ?_, h.offered⟩
    · show Covers 0 _ (satAdd s.sender.offset chunk.len)
      rw [hadd]
      exact covers_append h.covers hoffset
    · show satAdd s.sender.offset chunk.len + (s.sender.remaining - chunk.len) = bytes
      omega
    · rw [hincomplete] at hcount
      show ∃ count, (s.committed ++ [chunk]).map (·.fin) = replicate count false ++
        if s.sender.remaining - chunk.len == 0 then [true] else []
      rw [map_append, hcount, ← hfinal, ← hfin]
      cases hcase : chunk.fin with
      | true => exact ⟨count, by simp [hcase]⟩
      | false => exact ⟨count + 1, by simp [hcase, replicate_succ']⟩
    · simp [h.accepted, Except.toBool]
    · show satAdd s.receiver.nextOffset chunk.len = satAdd s.sender.offset chunk.len
      rw [hnext]
    · show s.receiver.nextPacketId + 1 = s.sender.packetId + 1
      rw [hid]
    · exact hfin.trans hfinal
    · show s.sender.remaining - chunk.len = 0 ∨ 4 ≤ s.sender.remaining - chunk.len
      have := hok (chunk, payload) hentry hoffset
      dsimp only at this
      omega

/-- A workload of four bytes or more, in every run whose ranges leave no stub, is sound in every
state. -/
theorem workload_sound {streamId : Nat} {bytes : Fin usizeBound} {sender : ProbeSender}
    (hnew : ProbeSender.new streamId bytes chunkSize = some sender) (hbytes : 4 ≤ bytes.val)
    {actions : List Action} (hrun : Runs.Along step LeavesNoStub (start sender) actions) :
    Sound bytes chunkSize (Runs.exec step (start sender) actions) := by
  unfold ProbeSender.new at hnew
  split_ifs at hnew with hrefused
  obtain rfl := Option.some.inj hnew
  refine (hrun.invariant (P := Inv bytes chunkSize) (fun _ _ h hok => h.step bytes.isLt hok)
    ?_).sound
  exact ⟨rfl, zero_add _, ⟨0, by simp [start, ProbeSender.isComplete]; omega⟩, rfl,
    ⟨rfl, rfl, rfl, by simp [start, ProbeSender.isComplete, ProbeReceiver.new]; omega⟩,
      ⟨rfl, by omega⟩, .inr hbytes, by simp [start]⟩

/-- Twelve bytes in ranges of at most eight, the first of them offered twice and committed once. -/
def twelve : List Action :=
  [.prepare 8 (replicate 8 0), .prepare 4 (replicate 8 0), .commit 0, .commit 1,
    .prepare 8 (replicate 8 0), .commit 2]

theorem twelve_sound : Sound 12 8 (Runs.exec step (start ⟨3, 12, 8, 0, 0⟩) twelve) :=
  @workload_sound 8 3 ⟨12, by decide⟩ _ rfl (by decide) twelve (by decide +kernel)

/-- Nine bytes in ranges of eight: the ninth can never be sent. -/
theorem ninth_byte_stuck :
    ¬ ∀ (streamId chunkSize : Nat) (bytes : Fin usizeBound) (sender : ProbeSender)
    (actions : List Action), ProbeSender.new streamId bytes chunkSize = some sender →
      Sound bytes chunkSize (Runs.exec step (start sender) actions) := by
  intro hall
  have hsound := hall 3 8 ⟨9, by decide⟩ ⟨3, 9, 8, 0, 0⟩ [.prepare 8 (replicate 8 0), .commit 0] rfl
  have hstuck := hsound.progress (by decide +kernel) 8 (replicate 8 0) (by decide) (by decide)
  revert hstuck
  decide +kernel

end Workload

/-! ## A payload inside one stream -/

def maxBytes : Nat := 64 * 1024 * 1024

structure PayloadPattern where
  packetSize : Nat
  within : Nat
  packet : Nat
  header : Bytes
  byte : UInt8

namespace PayloadPattern

def new (position packetSize : Nat) : PayloadPattern :=
  let packet := min (position / packetSize) u32Max
  ⟨packetSize, position % packetSize, packet, toBytes 4 packet, UInt8.ofNat position⟩

/-- How both loops go on after this many bytes. -/
def advance (self : PayloadPattern) (run : Nat) : PayloadPattern :=
  let moved := { self with byte := self.byte + UInt8.ofNat run, within := self.within + run }
  if moved.within = self.packetSize then
    let packet := min (self.packet + 1) u32Max
    { moved with within := 0, packet, header := toBytes 4 packet }
  else moved

def nextByte (self : PayloadPattern) : UInt8 × PayloadPattern :=
  (if self.within < 4 then self.header.getD self.within 0 else self.byte, self.advance 1)

/-- The next run of `fill` ends with the header, the packet or the output. -/
def run (self : PayloadPattern) (remaining : Nat) : Nat :=
  min remaining ((if self.within < 4 then 4 else self.packetSize) - self.within)

/-- The bytes of one run: of the header, or counted on. -/
def part (self : PayloadPattern) (run : Nat) : Bytes :=
  (range run).map fun i => if self.within < 4 then
    self.header.getD (self.within + i) 0 else self.byte + UInt8.ofNat i

/-- The loop over what remains of the output, at most `fuel` runs of it. -/
def fill (self : PayloadPattern) : Nat → Nat → Bytes
  | 0, _ => []
  | fuel + 1, remaining =>
    if remaining = 0 then []
    else self.part (self.run remaining) ++
      (self.advance (self.run remaining)).fill fuel (remaining - self.run remaining)

def accepts (self : PayloadPattern) : Bytes → Bool
  | [] => true
  | byte :: bytes => byte == self.nextByte.1 && self.nextByte.2.accepts bytes

end PayloadPattern

structure ProbePayload where
  packetSize : Nat
  total : Nat
  offset : Nat

namespace ProbePayload

def new (total packetSize : Nat) : Option ProbePayload :=
  if total ≠ 0 ∧ total ≤ maxBytes ∧ 4 ≤ packetSize then some ⟨packetSize, total, 0⟩ else none

def isComplete (self : ProbePayload) : Bool := self.offset == self.total

/-- The payload, the caller's buffer and the count. -/
def fill (self : ProbePayload) (out : Bytes) : ProbePayload × Bytes × Nat :=
  let count := min (self.total - self.offset) out.length
  ({ self with offset := self.offset + count },
    (PayloadPattern.new self.offset self.packetSize).fill count count ++ out.drop count, count)

def consume (self : ProbePayload) (bytes : Bytes) (verify : Bool) :
    ProbePayload × Except ProbeError Unit :=
  if self.total - self.offset < bytes.length then (self, .error .unexpectedRange)
  else if verify && !(PayloadPattern.new self.offset self.packetSize).accepts bytes then
    (self, .error .invalidPayload)
  else ({ self with offset := self.offset + bytes.length }, .ok ())

def check (self : ProbePayload) (bytes : Bytes) : ProbePayload × Except ProbeError Unit :=
  self.consume bytes true

end ProbePayload

/-! ## One byte stream -/

/-- The byte at this place of a stream of packets. -/
def reference (packetSize position : Nat) : UInt8 :=
  if position % packetSize < 4 then
    (toBytes 4 (position / packetSize)).getD (position % packetSize) 0
  else UInt8.ofNat position

/-- The bytes from here on, this many. -/
def slice (packetSize start count : Nat) : Bytes := (range' start count).map (reference packetSize)

variable {size : Nat}

@[simp] theorem length_slice (start count : Nat) : (slice size start count).length = count := by
  rw [slice, length_map, length_range']

theorem slice_append (start count more : Nat) :
    slice size start count ++ slice size (start + count) more =
      slice size start (count + more) := by
  rw [slice, slice, slice, ← map_append, range'_append_1]

theorem slice_log (count more : Nat) :
    slice size 0 count ++ slice size count more = slice size 0 (count + more) := by
  have := @slice_append size 0 count more
  rwa [zero_add] at this

/-- Inside one packet. -/
theorem within_packet {start i : Nat} (h : start % size + i < size) :
    (start + i) % size = start % size + i ∧ (start + i) / size = start / size := by
  have hsplit : start + i = size * (start / size) + (start % size + i) := by
    rw [← add_assoc, div_add_mod]
  rw [hsplit, mul_add_mod, mul_add_div (by omega), mod_eq_of_lt h, div_eq_of_lt h, add_zero]
  exact ⟨rfl, rfl⟩

theorem slice_within {start : Nat} (h : start % size + count ≤ size) : slice size start count =
    (range count).map fun i => if start % size + i < 4 then
      (toBytes 4 (start / size)).getD (start % size + i) 0
      else UInt8.ofNat (start + i) := by
  rw [slice, range'_eq_map_range, map_map]
  refine map_congr_left fun i hi => ?_
  obtain ⟨hmod, hdiv⟩ := within_packet (lt_of_lt_of_le (Nat.add_lt_add_left (mem_range.mp hi) _) h)
  rw [Function.comp_apply, reference, hmod, hdiv]

/-- The numbers do not reach the last one there is. -/
theorem number_eq {position : Nat} (h : position ≤ maxBytes) :
    min (position / size) u32Max = position / size :=
  min_eq_left (le_trans (div_le_self ..) (h.trans (by decide)))

namespace PayloadPattern

variable {position : Nat}

/-- Within a packet the pattern stays that of its position. -/
theorem advance_new {run : Nat} (hsize : 4 ≤ size) (h : position % size + run ≤ size) :
    (new position size).advance run = new (position + run) size := by
  have hbyte : UInt8.ofNat position + UInt8.ofNat run = UInt8.ofNat (position + run) :=
    (UInt8.ofNat_add ..).symm
  rcases lt_or_eq_of_le h with hlt | heq
  · obtain ⟨hmod, hdiv⟩ := within_packet hlt
    simp only [advance, new, hmod, hdiv, if_neg hlt.ne, hbyte]
  · have hnext : position + run = size * (position / size + 1) := by
      have := div_add_mod position size
      rw [mul_add]
      omega
    have hmod : (position + run) % size = 0 := by rw [hnext, mul_mod_right]
    have hdiv : (position + run) / size = position / size + 1 := by
      rw [hnext, mul_div_cancel_left₀ _ (by omega)]
    have hpacket : min (min (position / size) u32Max + 1) u32Max =
        min (position / size + 1) u32Max := by omega
    simp only [advance, new, if_pos heq, hdiv, hbyte, hpacket, hmod]

theorem nextByte_new (hsize : 4 ≤ size) (h : position ≤ maxBytes) :
    (new position size).nextByte = (reference size position, new (position + 1) size) := by
  rw [nextByte, advance_new hsize (mod_lt _ (by omega)), new, reference, number_eq h]

theorem part_new {run : Nat} (h : position ≤ maxBytes) (hsize : position % size + run ≤ size)
    (hheader : position % size < 4 → position % size + run ≤ 4) :
    (new position size).part run = slice size position run := by
  rw [slice_within hsize, part]
  refine map_congr_left fun i hi => ?_
  rw [mem_range] at hi
  simp only [new, number_eq h]
  split_ifs
  · rfl
  · omega
  · omega
  · exact (UInt8.ofNat_add ..).symm

/-- Every run writes the stream from its place on, so the whole loop does, in no more runs than
bytes. -/
theorem fill_new (hsize : 4 ≤ size) (fuel count : Nat) (hfuel : count ≤ fuel)
    (h : position + count ≤ maxBytes) :
    (new position size).fill fuel count = slice size position count := by
  induction fuel generalizing position count with
  | zero =>
    obtain rfl : count = 0 := by omega
    rfl
  | succ fuel ih =>
    rw [fill]
    split_ifs with hnone
    · rw [hnone]
      rfl
    generalize hrun : (new position size).run count = run
    have hwithin : position % size < size := mod_lt _ (by omega)
    have hends : min count ((if position % size < 4 then 4 else size) - position % size) = run :=
      hrun
    have hstep : 0 < run ∧ run ≤ count ∧ position % size + run ≤ size ∧
        (position % size < 4 → position % size + run ≤ 4) := by
      split_ifs at hends <;> omega
    rw [part_new (by omega) hstep.2.2.1 hstep.2.2.2, advance_new hsize hstep.2.2.1,
      ih _ (by omega) (by omega), slice_append, Nat.add_sub_cancel' hstep.2.1]

/-- The checker takes exactly the bytes the producer writes. -/
theorem accepts_new (hsize : 4 ≤ size) (bytes : Bytes) (h : position + bytes.length ≤ maxBytes) :
    (new position size).accepts bytes = true ↔ bytes = slice size position bytes.length := by
  induction bytes generalizing position with
  | nil => exact iff_of_true rfl rfl
  | cons byte bytes ih =>
    rw [length_cons] at h
    rw [accepts, nextByte_new hsize (by omega), Bool.and_eq_true, beq_iff_eq, ih (by omega)]
    exact cons.injEq .. ▸ Iff.rfl

end PayloadPattern

namespace ProbePayload

variable {total offset : Nat}

inductive Call where
  | fill (out : Bytes)
  | check (bytes : Bytes)

/-- A payload and the bytes it produced or accepted. -/
def step (s : ProbePayload × Bytes) : Call → ProbePayload × Bytes
  | .fill out => let (payload, out, n) := s.1.fill out; (payload, s.2 ++ out.take n)
  | .check bytes =>
    match s.1.check bytes with
    | (payload, .ok ()) => (payload, s.2 ++ bytes)
    | (payload, .error _) => (payload, s.2)

/-- The next bytes of the stream, and no more than there are. -/
def Next (packetSize total offset : Nat) (bytes : Bytes) : Prop :=
  offset + bytes.length ≤ total ∧ bytes = slice packetSize offset bytes.length

/-- What is promised of a payload. -/
structure Sound (packetSize total : Nat) (s : ProbePayload × Bytes) : Prop where
  log : s.2 = slice packetSize 0 s.1.offset
  complete : s.1.isComplete = true ↔ s.2.length = total
  fill : ∀ out count, min (total - s.1.offset) out.length = count → s.1.fill out =
    ({ s.1 with offset := s.1.offset + count }, slice packetSize s.1.offset count ++
      out.drop count, count)
  accepts : ∀ bytes, Next packetSize total s.1.offset bytes →
    s.1.check bytes = ({ s.1 with offset := s.1.offset + bytes.length }, .ok ())
  rejects : ∀ bytes, ¬ Next packetSize total s.1.offset bytes →
    ∃ error, s.1.check bytes = (s.1, .error error)

/-- After this many bytes. -/
abbrev At (packetSize total offset : Nat) : ProbePayload × Bytes :=
  (⟨packetSize, total, offset⟩, slice packetSize 0 offset)

section

variable (hsize : 4 ≤ size) (htotal : total ≤ maxBytes) (hle : offset ≤ total)
include hsize htotal hle

theorem sound_at : Sound size total (At size total offset) where
  log := rfl
  complete := by
    rw [At, length_slice]
    exact beq_iff_eq
  fill := by
    intro out count (hcount : min (total - offset) out.length = count)
    have hend : (At size total offset).1.offset + count ≤ maxBytes := by
      show offset + count ≤ maxBytes
      omega
    rw [← PayloadPattern.fill_new hsize count count le_rfl hend, ← hcount]
    rfl
  accepts := by
    intro bytes h
    have haccepts := (PayloadPattern.accepts_new hsize bytes (h.1.trans htotal)).mpr h.2
    rw [check, consume, if_neg (Nat.not_lt.mpr (Nat.le_sub_of_add_le' h.1)), haccepts]
    rfl
  rejects := by
    intro bytes h
    unfold check consume
    split_ifs with hlong hwrong
    · exact ⟨_, rfl⟩
    · exact ⟨_, rfl⟩
    · have hfits : offset + bytes.length ≤ total := by
        dsimp only at hlong
        omega
      have hrefused := mt (PayloadPattern.accepts_new hsize bytes
        (hfits.trans htotal)).mp fun heq => h ⟨hfits, heq⟩
      exact absurd (by simpa using hrefused) hwrong

theorem step_at (call : Call) :
    ∃ offset' ≤ total, step (At size total offset) call = At size total offset' := by
  have h := sound_at hsize htotal hle
  cases call with
  | fill out =>
    refine ⟨offset + min (total - offset) out.length, by omega, ?_⟩
    simp only [step, h.fill out _ rfl, take_left' (length_slice ..)]
    exact congrArg _ (slice_log ..)
  | check bytes =>
    by_cases hnext : Next size total offset bytes
    · refine ⟨offset + bytes.length, hnext.1, ?_⟩
      simp only [step, h.accepts bytes hnext]
      exact congrArg _ ((congrArg _ hnext.2).trans (slice_log ..))
    · obtain ⟨error, herror⟩ := h.rejects bytes hnext
      exact ⟨offset, hle, by simp only [step, herror]⟩

end

end ProbePayload

namespace ProbeSender

variable {streamId packets : Nat}

/-- One range prepared, and committed at once, with the bytes sent so far. -/
def turn (s : ProbeSender × Bytes) (window : Nat × Bytes) : ProbeSender × Bytes :=
  match s.1.prepare window.1 window.2 with
  | (none, _) => s
  | (some chunk, out) =>
    match s.1.commit chunk with
    | .ok sender => (sender, s.2 ++ out.take chunk.len)
    | .error _ => s

/-- After this many packets of the `count` there are. -/
def At (streamId packetSize count packets : Nat) : ProbeSender × Bytes :=
  (⟨streamId, (count - packets) * packetSize, packetSize, packets * packetSize,
    UInt32.ofNat packets⟩,
    slice packetSize 0 (packets * packetSize))

theorem packet_bytes (hsize : 4 ≤ size) (packets : Nat) :
    toBytes 4 packets ++ (range (size - 4)).map (patternByte (packets * size)) =
      slice size (packets * size) size := by
  have hmod : packets * size % size = 0 := mul_mod_left ..
  rw [slice_within (by omega), hmod, Nat.mul_div_cancel _ (by omega)]
  obtain ⟨more, rfl⟩ := Nat.exists_eq_add_of_le hsize
  rw [Nat.add_sub_cancel_left, range_add, map_append, map_map]
  refine congrArg₂ _ rfl (map_congr_left fun i _ => ?_)
  rw [Function.comp_apply, if_neg (by omega), patternByte]

theorem turn_at (hsize : 4 ≤ size) (htotal : count * size ≤ maxBytes) (hle : packets ≤ count)
    {window : Nat × Bytes} (hfull : size ≤ window.1 ∧ size ≤ window.2.length) :
    turn (At streamId size count packets) window =
      At streamId size count (min (packets + 1) count) := by
  obtain rfl | hlt := eq_or_lt_of_le hle
  · rw [turn, At, prepare, if_pos (by simp), min_eq_right (le_succ packets)]
    rfl
  have hrest : (count - packets) * size = (count - (packets + 1)) * size + size := by
    rw [← succ_mul]
    congr 1
    omega
  have hlen : min (min (min ((count - packets) * size) size) window.2.length) window.1 = size := by
    omega
  have hsent : (packets + 1) * size ≤ maxBytes := (mul_le_mul_right _ hlt).trans htotal
  have hmax : maxBytes < 2 ^ 32 ∧ maxBytes < usizeBound := by decide
  have hnumber : (UInt32.ofNat packets).toNat = packets := by
    have := Nat.le_mul_of_pos_right (packets + 1) (show 0 < size by omega)
    exact UInt32.toNat_ofNat_of_lt' (by show packets < 2 ^ 32; omega)
  have hsum : satAdd (packets * size) size = (packets + 1) * size := by
    rw [satAdd, ← Nat.add_one_mul, Nat.min_eq_left (by omega)]
  have hnext : UInt32.ofNat packets + 1 = UInt32.ofNat (packets + 1) :=
    (UInt32.ofNat_add packets 1).symm
  rw [turn, At, prepare]
  dsimp only
  rw [hlen, if_neg (not_lt.mpr hsize), hnumber, packet_bytes hsize]
  dsimp only
  rw [commit, if_neg (by simp; omega)]
  dsimp only
  rw [take_left' (length_slice ..), hsum, hnext, hrest, Nat.add_sub_cancel, Nat.min_eq_left hlt,
    slice_log, ← Nat.add_one_mul]
  rfl

theorem turns_at (hsize : 4 ≤ size) (htotal : count * size ≤ maxBytes) (hle : packets ≤ count)
    {windows : List (Nat × Bytes)}
    (hfull : ∀ window ∈ windows, size ≤ window.1 ∧ size ≤ window.2.length) :
    Runs.exec turn (At streamId size count packets) windows =
      At streamId size count (min (packets + windows.length) count) := by
  induction windows generalizing packets with
  | nil => rw [Runs.exec_nil, length_nil, add_zero, min_eq_left hle]
  | cons window windows ih =>
    obtain ⟨hwindow, hrest⟩ := forall_mem_cons.mp hfull
    rw [Runs.exec_cons, turn_at hsize htotal hle hwindow, ih (min_le_right ..) hrest,
      length_cons]
    congr 1
    omega

end ProbeSender

/-- However it is cut, and in packets as the sender cuts it, the payload is one byte stream. -/
theorem payload_one_stream {total : Nat} {payload : ProbePayload}
    (hnew : ProbePayload.new total size = some payload) :
    (∀ calls, ProbePayload.Sound size total (Runs.exec ProbePayload.step (payload, []) calls)) ∧
    ∀ streamId sender windows, size ∣ total → ProbeSender.new streamId total size = some sender →
      (∀ window ∈ windows, size ≤ window.1 ∧ size ≤ window.2.length) →
      (Runs.exec ProbeSender.turn (sender, []) windows).2 =
        slice size 0 (min (windows.length * size) total) := by
  unfold ProbePayload.new at hnew
  split_ifs at hnew with h
  obtain rfl := Option.some.inj hnew
  obtain ⟨-, htotal, hsize⟩ := h
  constructor
  · intro calls
    obtain ⟨offset, hle, heq⟩ : ∃ offset ≤ total,
        Runs.exec ProbePayload.step (⟨size, total, 0⟩, []) calls =
        ProbePayload.At size total offset := by
      refine Runs.invariant (P := fun s => ∃ offset ≤ total, s = ProbePayload.At size total offset)
        ?_ ⟨0, zero_le, rfl⟩ calls
      rintro _ call ⟨offset, hle, rfl⟩
      exact ProbePayload.step_at hsize htotal hle call
    exact heq ▸ ProbePayload.sound_at hsize htotal hle
  · rintro streamId sender windows ⟨count, rfl⟩ hsender hwindows
    rw [mul_comm size] at *
    unfold ProbeSender.new at hsender
    split_ifs at hsender
    obtain rfl := Option.some.inj hsender
    have hstart : (⟨streamId, count * size, size, 0, 0⟩, []) =
        ProbeSender.At streamId size count 0 := by
      rw [ProbeSender.At, zero_mul]
      rfl
    rw [hstart, ProbeSender.turns_at hsize htotal zero_le hwindows, zero_add, ProbeSender.At,
      Nat.mul_min_mul_right]

/-- Three packets with a header each, five bytes of them produced and three checked. -/
theorem payload_three_packets : ProbePayload.Sound 4 12
    (Runs.exec ProbePayload.step (⟨4, 12, 0⟩, []) [.fill (replicate 5 9), .check [0, 0, 1]]) :=
  (@payload_one_stream 4 12 _ rfl).1 _

end QuicLite.Probe

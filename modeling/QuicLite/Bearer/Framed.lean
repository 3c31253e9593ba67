import QuicLite.Lib.Runs
import QuicLite.Path

/-!
# Packets on a byte stream

A reliable stream carries each packet behind its length in two bytes. The bearer keeps at most one
packet whose frame has started; a submission starts a frame and the writer task goes on with it. The
stream stays cut into frames as long as nothing is written after a started frame was given up
(`framed_run`): the code does not look whether one was.
-/

namespace QuicLite.Bearer

open BigEndian List Option Nat Prod

/-! ## The length -/

variable {packet : Bytes}

def lengthHeaderBytes : Nat := 2
/-- `u16::MAX` -/
def maxFramedPacketBytes : Nat := 65535

inductive FramedPacketError where
  | empty
  | tooLarge (length : Nat)

def encodePacketLength (length : Nat) : Except FramedPacketError Bytes :=
  if length = 0 then .error .empty
  else if maxFramedPacketBytes < length then .error (.tooLarge length)
  else .ok (toBytes 2 length)

def decodePacketLength (header : Bytes) (maximum : Nat) : Except FramedPacketError Nat :=
  let length := ofBytes 0 header
  if length = 0 then .error .empty else if maximum < length then .error (.tooLarge length)
  else .ok length

/-- A packet that a receiver accepts. -/
def Fits (packet : Bytes) : Prop := 1 ≤ packet.length ∧ packet.length ≤ defaultMaxPacketSize

def frame (packet : Bytes) : Bytes := toBytes 2 packet.length ++ packet

@[simp] theorem length_frame (packet : Bytes) : (frame packet).length = packet.length + 2 := by
  rw [frame, length_append, length_toBytes, add_comm]

theorem decodePacketLength_toBytes (h : Fits packet) :
    decodePacketLength (toBytes 2 packet.length) defaultMaxPacketSize = .ok packet.length := by
  obtain ⟨hpos, hmax⟩ := h
  have hbound : defaultMaxPacketSize = 1100 := rfl
  have hback : ofBytes 0 (toBytes 2 packet.length) = packet.length := by
    rw [ofBytes_toBytes, mod_eq_of_lt (by omega)]
    omega
  unfold decodePacketLength
  simp only [hback]
  rw [if_neg (by omega), if_neg (by omega)]

/-! ## Writing -/

inductive PacketSendOutcome where
  | sent
  | failed
  deriving DecidableEq

/-- A packet that was handed to the bearer, and by which call. -/
structure Submission where
  token : Nat
  packet : Bytes

structure ActiveWrite where
  submission : Submission
  header : Bytes
  written : Nat

/-- What the socket does with a write. It never accepts more than it is offered. -/
inductive Write where
  | accepted (n : Nat)
  | wouldBlock
  | failed

/-- The writer task runs until a write fails or the socket is no longer writable. -/
inductive WriterTask where
  | running
  | unwritable
  | failed
  deriving DecidableEq

/-- The bearer, the bytes that its socket has accepted, and what became of the submissions that it
took over. -/
structure FramedWriteState where
  active : Option ActiveWrite
  task : WriterTask
  stream : Bytes
  taken : List Submission
  completed : List (Submission × PacketSendOutcome)

namespace FramedWriteState

variable {submission : Submission} {op : Op}

def start : FramedWriteState := ⟨none, .running, [], [], []⟩

variable (self : FramedWriteState)

def complete (submission : Submission) (outcome : PacketSendOutcome) : FramedWriteState :=
  { self with completed := self.completed ++ [(submission, outcome)] }

/-- A packet that is completed by the call that hands it over. -/
def finish (submission : Submission) (outcome : PacketSendOutcome) : FramedWriteState :=
  { self with taken := self.taken ++ [submission] }.complete submission outcome

/-- `submit`; the submission comes back when the bearer does not take it over. -/
def submit (submission : Submission) (write : Write) : FramedWriteState × Except Submission Unit :=
  match self.active with
  | some _ => (self, .error submission)
  | none =>
    let length := submission.packet.length
    match encodePacketLength length with
    | .error _ => (self.finish submission .failed, .ok ())
    | .ok header =>
      match write with
      | .accepted n =>
        let offered := header ++ submission.packet
        let written := min n offered.length
        if written = 0 then (self.finish submission .failed, .ok ())
        else if written = length + 2 then
          ({ self with stream := self.stream ++ offered }.finish submission .sent, .ok ())
        else
          ({ self with
              active := some ⟨submission, header, written⟩
              stream := self.stream ++ offered.take written
              taken := self.taken ++ [submission] }, .ok ())
      | .wouldBlock => (self, .error submission)
      | .failed => (self.finish submission .failed, .ok ())

/-- `progress_active_write`; an error ends the writer task. -/
def progressActiveWrite (write : Write) : FramedWriteState × Except Unit Bool :=
  match self.active with
  | none => (self, .ok true)
  | some active =>
    let packet := active.submission.packet
    let total := 2 + packet.length
    let offered := if active.written < 2 then active.header.drop active.written ++ packet
      else packet.drop (active.written - 2)
    let released := { self with active := none }
    match write with
    | .accepted n =>
      let written := min n offered.length
      if written = 0 then (released.complete active.submission .failed, .error ())
      else
        let stream := self.stream ++ offered.take written
        if active.written + written = total then
          ({ released with stream := stream }.complete active.submission .sent, .ok true)
        else
          ({ self with
            active := some { active with written := active.written + written }, stream := stream },
            .ok false)
    | .wouldBlock => (self, .ok false)
    | .failed => (released.complete active.submission .failed, .error ())

inductive Op where
  | submit (submission : Submission) (write : Write)
  /-- The writer task finds the socket writable and goes on with the active write. -/
  | progress (write : Write)
  /-- The writer task finds that the socket will not be writable again. -/
  | unwritable

def step : Op → FramedWriteState
  | .submit submission write => (self.submit submission write).1
  | .progress write =>
    if self.task = .running then
      let (state, result) := self.progressActiveWrite write
      match result with
      | .ok _ => state
      | .error _ => { state with task := .failed }
    else self
  | .unwritable => if self.task = .running then { self with task := .unwritable } else self

/-- The packets that were completed as sent, in the order of their submission. -/
def sentPackets : List Bytes :=
  self.completed.filterMap fun entry => if entry.2 = .sent then some entry.1.packet else none

/-! ## Whole frames -/

/-- The end of the stream that is no whole frame yet: nothing, the start of the active write, or
what was written of a packet that failed, when the writer task failed with it. -/
inductive Remainder (s : FramedWriteState) : Bytes → Prop
  | between (idle : s.active = none) : Remainder s []
  | started (active : ActiveWrite) (held : s.active = some active) :
      Remainder s ((frame active.submission.packet).take active.written)
  | abandoned (idle : s.active = none) (submission : Submission) (written : Nat)
      (failed : (submission, .failed) ∈ s.completed) (task : s.task = .failed)
      (fits : Fits submission.packet) (short : written < (frame submission.packet).length) :
      Remainder s ((frame submission.packet).take written)

/-- The stream holds the frames of the sent packets and at most the start of one more, and every
submission that was taken over is completed once, but for the active write, which a running task
goes on with. -/
structure InFrames (s : FramedWriteState) : Prop where
  taken : s.taken = s.completed.map fst ++ (s.active.map (·.submission)).toList
  running : s.active.isSome → s.task = .running
  active : ∀ active ∈ s.active, active.header = toBytes 2 active.submission.packet.length ∧
    Fits active.submission.packet ∧ 0 < active.written ∧
      active.written < (frame active.submission.packet).length
  sent : ∀ packet ∈ s.sentPackets, Fits packet
  stream : ∃ rest, s.stream = s.sentPackets.flatMap frame ++ rest ∧ Remainder s rest

/-- No byte is written once a started frame was given up, only packets that the receiver takes are
written, and the task does not leave a started frame behind. -/
def Undisturbed : Op → Prop
  | .submit submission (.accepted n) =>
    n = 0 ∨ self.active.isSome ∨ submission.packet.length = 0 ∨
      maxFramedPacketBytes < submission.packet.length ∨
      self.task ≠ .failed ∧ submission.packet.length ≤ defaultMaxPacketSize ∧
        (self.task = .running ∨ submission.packet.length + 2 ≤ n)
  | .unwritable => self.active = none ∨ self.task ≠ .running
  | _ => True

instance (self : FramedWriteState) (op : Op) : Decidable (self.Undisturbed op) := by
  unfold Undisturbed
  split <;> infer_instance

variable {s : FramedWriteState}

theorem encodePacketLength_ok {length : Nat} {header : Bytes}
    (h : encodePacketLength length = .ok header) :
    1 ≤ length ∧ length ≤ maxFramedPacketBytes ∧ header = toBytes 2 length := by
  unfold encodePacketLength at h
  split at h
  · cases h
  split at h
  · cases h
  exact ⟨by omega, by omega, (Except.ok.inj h).symm⟩

theorem sentPackets_complete (submission : Submission) (outcome : PacketSendOutcome) :
    (s.complete submission outcome).sentPackets =
      s.sentPackets ++ (if outcome = .sent then some submission.packet else none).toList := by
  rw [sentPackets, complete, filterMap_append]
  cases outcome <;> rfl

/-- A submission that fails before any of its bytes is written. -/
theorem InFrames.finish_failed (h : InFrames s) (hidle : s.active = none)
    (submission : Submission) :
    InFrames (s.finish submission .failed) := by
  have hpackets : (s.finish submission .failed).sentPackets = s.sentPackets := by
    rw [finish, sentPackets_complete]
    exact append_nil _
  obtain ⟨rest, hstream, hrest⟩ := h.stream
  refine ⟨?_, h.running, h.active, fun packet hmem => h.sent packet (hpackets ▸ hmem), rest, ?_, ?_⟩
  · show s.taken ++ [submission] = (s.completed ++ [(submission, PacketSendOutcome.failed)]).map
      fst ++
    (s.active.map (·.submission)).toList
    rw [h.taken, hidle]
    simp
  · rw [hpackets]
    exact hstream
  cases hrest with
  | between idle => exact .between idle
  | started active held => exact .started active held
  | abandoned idle given written failed task fits short =>
    exact .abandoned (show (s.finish submission .failed).active = none from idle) given written
      (mem_append_left _ failed) task fits short

/-- Between two frames a whole frame can be written. -/
theorem InFrames.finish_sent (h : InFrames s) (hidle : s.active = none) (htask : s.task ≠ .failed)
    (hfits : Fits submission.packet) : InFrames ({ s with
      stream := s.stream ++ frame submission.packet }.finish submission .sent) := by
  have hpackets : ({ s with
      stream := s.stream ++ frame submission.packet }.finish submission .sent).sentPackets =
      s.sentPackets ++ [submission.packet] := by
    rw [finish, sentPackets_complete]
    rfl
  obtain ⟨rest, hstream, hrest⟩ := h.stream
  refine ⟨?_, h.running, h.active, fun packet hmem => ?_, [], ?_, .between hidle⟩
  · show s.taken ++ [submission] = (s.completed ++ [(submission, PacketSendOutcome.sent)]).map
      fst ++
    (s.active.map (·.submission)).toList
    rw [h.taken, hidle]
    simp
  · rw [hpackets] at hmem
    rcases mem_append.mp hmem with hmem | hmem
    · exact h.sent packet hmem
    · rw [mem_singleton.mp hmem]
      exact hfits
  · rw [hpackets, flatMap_append, flatMap_singleton, append_nil]
    cases hrest with
    | between idle =>
      rw [append_nil] at hstream
      rw [← hstream]
      rfl
    | started active held => rw [hidle] at held; cases held
    | abandoned idle given written failed task fits short => exact absurd task htask

theorem InFrames.activate (h : InFrames s) (hidle : s.active = none) (htask : s.task = .running)
    (hfits : Fits submission.packet) {written : Nat} (hpos : 0 < written)
    (hshort : written < (frame submission.packet).length) : InFrames { s with
      active := some ⟨submission, toBytes 2 submission.packet.length, written⟩
      stream := s.stream ++ (frame submission.packet).take written
      taken := s.taken ++ [submission] } := by
  obtain ⟨rest, hstream, hrest⟩ := h.stream
  refine ⟨?_, fun _ => htask, fun active hactive => ?_, h.sent, _, ?_, .started _ rfl⟩
  · show s.taken ++ [submission] = s.completed.map fst ++ [submission]
    rw [h.taken, hidle]
    simp
  · obtain rfl := some.inj hactive
    exact ⟨rfl, hfits, hpos, hshort⟩
  show s.stream ++ _ = s.sentPackets.flatMap frame ++ _
  cases hrest with
  | between idle => rw [hstream, append_nil]
  | started active held => rw [hidle] at held; cases held
  | abandoned idle given written failed task fits short => rw [htask] at task; cases task

theorem InFrames.submit (h : InFrames s) {write : Write}
    (hok : s.Undisturbed (.submit submission write)) : InFrames (s.submit submission write).1 := by
  unfold FramedWriteState.submit
  split
  · exact h
  rename_i hidle
  simp only
  split
  · exact h.finish_failed hidle submission
  rename_i header hheader
  obtain ⟨hpos, hmax, rfl⟩ := encodePacketLength_ok hheader
  cases write with
  | wouldBlock => exact h
  | failed => exact h.finish_failed hidle submission
  | accepted n =>
  simp only [show toBytes 2 submission.packet.length ++ submission.packet =
    frame submission.packet from rfl]
  split
  · exact h.finish_failed hidle submission
  rename_i hwritten
  rw [length_frame] at hwritten ⊢
  obtain ⟨htask, hfits, hcomplete⟩ : s.task ≠ .failed ∧ Fits submission.packet ∧
      (s.task = .running ∨ submission.packet.length + 2 ≤ n) := by
    rcases hok with hzero | hsome | hempty | hlarge | ⟨htask, hlen, hrun⟩
    · omega
    · rw [hidle] at hsome
      cases hsome
    · omega
    · omega
    · exact ⟨htask, ⟨hpos, hlen⟩, hrun⟩
  split
  · exact h.finish_sent hidle htask hfits
  · exact h.activate hidle (hcomplete.resolve_right (by omega)) hfits (by omega)
      (by rw [length_frame]; omega)

/-- What the writer task offers is the rest of the frame. -/
theorem offered_eq (packet : Bytes) (written : Nat) :
    (if written < 2 then (toBytes 2 packet.length).drop written ++
      packet else packet.drop (written - 2)) =
      (frame packet).drop written := by
  rw [frame, drop_append, length_toBytes]
  split
  · rw [show written - 2 = 0 by omega, drop_zero]
  have hheader : (toBytes 2 packet.length).drop written = [] :=
    drop_eq_nil_of_le (by rw [length_toBytes]; omega)
  rw [hheader, nil_append]

section

variable (h : InFrames s)
include h

section

variable {active : ActiveWrite} (hactive : s.active = some active)
include hactive

/-- The frame being written is in the stream as far as it is written. -/
theorem InFrames.stream_active : s.stream = s.sentPackets.flatMap frame ++
      (frame active.submission.packet).take active.written := by
  obtain ⟨rest, hstream, hrest⟩ := h.stream
  cases hrest with
  | between idle => rw [hactive] at idle; cases idle
  | started given held =>
    obtain rfl : active = given := some.inj (hactive.symm.trans held)
    exact hstream
  | abandoned idle given written failed task fits short => rw [hactive] at idle; cases idle

theorem InFrames.abandon :
    InFrames { { s with active := none }.complete active.submission .failed with
      task := .failed } := by
  obtain ⟨-, hfits, -, hshort⟩ := h.active active hactive
  have hpackets : ({ { s with active := none }.complete active.submission .failed with
      task := .failed } : FramedWriteState).sentPackets = s.sentPackets :=
    (sentPackets_complete active.submission .failed).trans (append_nil _)
  refine ⟨?_, (fun hsome => by cases hsome), (fun active hmem => by cases hmem),
    fun packet hmem => h.sent packet (hpackets ▸ hmem),
    (frame active.submission.packet).take active.written, ?_, ?_⟩
  · show s.taken = (s.completed ++ [(active.submission, PacketSendOutcome.failed)]).map
      fst ++ []
    rw [h.taken, hactive, map_append, append_nil]
    rfl
  · rw [hpackets]
    exact h.stream_active hactive
  · exact .abandoned rfl active.submission _ (mem_append_right _ mem_cons_self) rfl hfits hshort

theorem InFrames.finish_active : InFrames ({ s with
      active := none
      stream := s.stream ++ (frame active.submission.packet).drop active.written }.complete
        active.submission .sent) := by
  obtain ⟨-, hfits, -, -⟩ := h.active active hactive
  have hpackets : ({ s with
      active := none
      stream := s.stream ++ (frame active.submission.packet).drop active.written }.complete
        active.submission
        .sent).sentPackets = s.sentPackets ++ [active.submission.packet] := sentPackets_complete
          active.submission .sent
  refine ⟨?_, (fun hsome => by cases hsome), (fun active hmem => by cases hmem), fun packet hmem =>
    ?_, [], ?_,
    .between rfl⟩
  · show s.taken = (s.completed ++ [(active.submission, PacketSendOutcome.sent)]).map fst ++ []
    rw [h.taken, hactive, map_append, append_nil]
    rfl
  · rw [hpackets] at hmem
    rcases mem_append.mp hmem with hmem | hmem
    · exact h.sent packet hmem
    · rw [mem_singleton.mp hmem]
      exact hfits
  rw [hpackets, flatMap_append, flatMap_singleton, append_nil]
  show s.stream ++ _ = _
  rw [h.stream_active hactive, append_assoc, take_append_drop]

theorem InFrames.continue_active {n : Nat}
    (hshort : active.written + n < (frame active.submission.packet).length) : InFrames { s with
      active := some { active with written := active.written + n }
      stream := s.stream ++ ((frame active.submission.packet).drop active.written).take n } := by
  obtain ⟨hheader, hfits, hpos, -⟩ := h.active active hactive
  refine ⟨?_, fun _ => h.running (by rw [hactive]; rfl), fun given hgiven => ?_, h.sent, _, ?_,
    .started _ rfl⟩
  · rw [h.taken, hactive]
    rfl
  · obtain rfl := some.inj hgiven
    exact ⟨hheader, hfits, lt_of_lt_of_le hpos (le_add_right _ _), hshort⟩
  show s.stream ++ _ = s.sentPackets.flatMap frame ++
    (frame active.submission.packet).take (active.written + n)
  rw [h.stream_active hactive, append_assoc, take_add]

end

theorem InFrames.progress (write : Write) : InFrames (s.step (.progress write)) := by
  unfold step
  simp only
  split
  · unfold progressActiveWrite
    cases hactive : s.active with
    | none => exact h
    | some active =>
    obtain ⟨submission, header, written⟩ := active
    obtain ⟨hheader, hfits, hpos, hshort⟩ := h.active _ hactive
    obtain rfl : header = toBytes 2 submission.packet.length := hheader
    simp only [offered_eq]
    cases write with
    | wouldBlock => exact h
    | failed => exact h.abandon hactive
    | accepted n =>
    simp only [length_drop, length_frame] at hshort ⊢
    by_cases hzero : min n (submission.packet.length + 2 - written) = 0
    · rw [if_pos hzero]
      exact h.abandon hactive
    rw [if_neg hzero]
    by_cases htotal : written + min n (submission.packet.length + 2 - written) = 2 +
      submission.packet.length
    · have hall : ((frame submission.packet).drop written).take
          (min n (submission.packet.length + 2 - written)) =
            (frame submission.packet).drop written :=
        take_of_length_le (by rw [length_drop, length_frame]; omega)
      rw [if_pos htotal, hall]
      exact h.finish_active hactive
    rw [if_neg htotal]
    have hshorter : written + min n (submission.packet.length + 2 - written) <
        (frame submission.packet).length := by
      rw [length_frame]
      omega
    exact h.continue_active hactive hshorter
  · exact h

theorem InFrames.step (hok : s.Undisturbed op) : InFrames (s.step op) := by
  cases op with
  | submit submission write => exact h.submit hok
  | progress write => exact h.progress write
  | unwritable =>
  unfold FramedWriteState.step
  simp only
  split
  · rename_i htask
    have hidle : s.active = none := hok.resolve_right (fun hne => hne htask)
    obtain ⟨rest, hstream, hrest⟩ := h.stream
    refine ⟨h.taken, fun hsome => ?_, h.active, h.sent, rest, hstream, ?_⟩
    · rw [hidle] at hsome
      cases hsome
    cases hrest with
    | between idle => exact .between idle
    | started active held => rw [hidle] at held; cases held
    | abandoned idle given written failed task fits short => rw [htask] at task; cases task
  · exact h

end

theorem inFrames_start : InFrames start :=
  ⟨rfl, (fun hsome => by cases hsome), (fun active hmem => by cases hmem),
    (fun packet hmem => by cases hmem), [], rfl,
    .between rfl⟩

/-- Once the task has failed, nothing more is written. -/
theorem Undisturbed.silent (hframes : InFrames s) (htask : s.task = .failed)
    (hok : s.Undisturbed op) :
    (s.step op).task = .failed ∧ (s.step op).stream = s.stream := by
  have hidle : s.active = none := by
    cases hactive : s.active with
    | none => rfl
    | some active =>
      have hrunning := hframes.running (by rw [hactive]; rfl)
      rw [htask] at hrunning
      cases hrunning
  cases op with
  | progress write =>
    unfold FramedWriteState.step
    simp only
    rw [if_neg (by rw [htask]; exact fun h => by cases h)]
    exact ⟨htask, rfl⟩
  | unwritable =>
    unfold FramedWriteState.step
    rw [if_neg (by rw [htask]; exact fun h => by cases h)]
    exact ⟨htask, rfl⟩
  | submit submission write =>
    unfold FramedWriteState.step FramedWriteState.submit
    simp only [hidle]
    split
    · exact ⟨htask, rfl⟩
    rename_i header hheader
    obtain ⟨hpos, hmax, rfl⟩ := encodePacketLength_ok hheader
    cases write with
    | wouldBlock => exact ⟨htask, rfl⟩
    | failed => exact ⟨htask, rfl⟩
    | accepted n =>
    have hzero : n = 0 := by
      rcases hok with hzero | hsome | hempty | hlarge | ⟨hne, -⟩
      · exact hzero
      · rw [hidle] at hsome
        cases hsome
      · omega
      · omega
      · exact absurd htask hne
    subst hzero
    exact ⟨htask, rfl⟩

theorem silent_run (hframes : InFrames s) (htask : s.task = .failed) {later : List Op}
    (hlater : Runs.Along FramedWriteState.step Undisturbed s later) :
    (Runs.exec FramedWriteState.step s later).stream = s.stream := by
  have hrun := Runs.Along.invariant
    (P := fun t => InFrames t ∧ t.task = .failed ∧ t.stream = s.stream)
    (fun t op ht hok => by
      obtain ⟨hin, hfailed, hstream⟩ := ht
      obtain ⟨hfailed', hstream'⟩ := hok.silent hin hfailed
      exact ⟨hin.step hok, hfailed', hstream'.trans hstream⟩)
    ⟨hframes, htask, rfl⟩ hlater
  exact hrun.2.2

end FramedWriteState

open FramedWriteState

/-! ## Reading -/

inductive FramedIoError where
  | io
  | invalidFrameLength (length : Nat)
  | writeClosed
  deriving DecidableEq

/-- Where `receive_framed` waits for bytes. -/
inductive Phase where
  | header (got : Bytes)
  | body (receiveLen : Nat) (got : Bytes)
  | discard (remaining : Nat)
  | ended (error : FramedIoError)
  deriving DecidableEq

/-- The receive loop: where it is, how many writers it asked the pool for, and the packets it
enqueued. -/
structure Receiver where
  phase : Phase
  frames : Nat
  enqueued : List Bytes
  deriving DecidableEq

namespace Receiver

def start : Receiver := ⟨.header [], 0, []⟩

/-- The bytes up to the end of the header, the body or the packet that is discarded. -/
def room (self : Receiver) : Nat :=
  match self.phase with
  | .header got => lengthHeaderBytes - got.length
  | .body receiveLen got => receiveLen - got.length
  | .discard remaining => remaining
  | .ended _ => 0

/-- The bytes that the next read asks for: a discarded packet is read through a fixed buffer. -/
def wanted (self : Receiver) : Nat :=
  match self.phase with
  | .discard remaining => min remaining 256
  | _ => self.room

/-- A complete header. The pool has a writer for the packet, or none. -/
def onHeader (refuses : Nat → Bool) (self : Receiver) (header : Bytes) : Receiver :=
  match decodePacketLength header defaultMaxPacketSize with
  | .error _ => { self with phase := .ended (.invalidFrameLength (ofBytes 0 header)) }
  | .ok receiveLen =>
    { self with
      frames := self.frames + 1
      phase := if refuses self.frames then .discard receiveLen else .body receiveLen [] }

/-- What a read returned. -/
def onRead (refuses : Nat → Bool) (self : Receiver) (chunk : Bytes) : Receiver :=
  match self.phase with
  | .ended _ => self
  | .header got =>
    if chunk = [] then { self with phase := .ended .writeClosed }
    else
      let got := got ++ chunk
      if got.length < lengthHeaderBytes then { self with phase := .header got }
      else self.onHeader refuses got
  | .body receiveLen got =>
    if chunk = [] then { self with phase := .ended .writeClosed }
    else
      let got := got ++ chunk
      if got.length < receiveLen then { self with phase := .body receiveLen got }
      else { self with phase := .header [], enqueued := self.enqueued ++ [got] }
  | .discard remaining =>
    if chunk = [] then { self with phase := .ended .writeClosed }
    else if remaining - chunk.length ≠ 0 then
      { self with phase := .discard (remaining - chunk.length) }
    else { self with phase := .header [] }

/-- `receive_framed` over the bytes that have arrived, with reads of these sizes: each returns at
least one byte and at most what it asks for. The bytes that are not read yet are left. -/
def receive (refuses : Nat → Bool) : List Nat → Receiver → Bytes → Receiver × Bytes
  | [], self, input => (self, input)
  | size :: sizes, self, input =>
    if input = [] then (self, input)
    else
      let n := min (max size 1) self.wanted
      receive refuses sizes (self.onRead refuses (input.take n)) (input.drop n)

/-- The packets that the pool has a writer for; the first of them is the frame of this number. -/
def kept (refuses : Nat → Bool) : Nat → List Bytes → List Bytes
  | _, [] => []
  | number, packet :: packets =>
    (if refuses number then [] else [packet]) ++ kept refuses (number + 1) packets

/-- A receiver reads byte by byte as well. -/
def onByte (refuses : Nat → Bool) (self : Receiver) (byte : UInt8) : Receiver :=
  self.onRead refuses [byte]

/-- It waits for at least one byte, or has ended. -/
def Waits (self : Receiver) : Prop :=
  match self.phase with
  | .ended _ => True
  | _ => 0 < self.room

variable {refuses : Nat → Bool} {self : Receiver}

theorem onRead_cons (refuses : Nat → Bool) {byte : UInt8} {rest : Bytes} (hrest : rest ≠ [])
    (hroom : (byte :: rest).length ≤ self.room) :
    self.onRead refuses (byte :: rest) = (self.onByte refuses byte).onRead refuses rest ∧
      rest.length ≤ (self.onByte refuses byte).room := by
  obtain ⟨phase, frames, enqueued⟩ := self
  have hpos := length_pos_iff.mpr hrest
  cases phase with
  | header got =>
    have hroom : rest.length + 1 ≤ lengthHeaderBytes - got.length := hroom
    have hshort : (got ++ [byte]).length < lengthHeaderBytes := by
      rw [length_append, length_singleton]
      omega
    have hbyte : onByte refuses ⟨.header got, frames, enqueued⟩ byte =
        ⟨.header (got ++ [byte]), frames, enqueued⟩ := by
      unfold onByte onRead
      simp only
      rw [if_neg (cons_ne_nil _ _), if_pos hshort]
    rw [hbyte]
    refine ⟨?_, ?_⟩
    · unfold onRead
      simp only
      rw [if_neg hrest, append_assoc]
      rfl
    show rest.length ≤ lengthHeaderBytes - (got ++ [byte]).length
    rw [length_append, length_singleton]
    omega
  | body receiveLen got =>
    have hroom : rest.length + 1 ≤ receiveLen - got.length := hroom
    have hshort : (got ++ [byte]).length < receiveLen := by
      rw [length_append, length_singleton]
      omega
    have hbyte : onByte refuses ⟨.body receiveLen got, frames, enqueued⟩ byte =
        ⟨.body receiveLen (got ++ [byte]), frames, enqueued⟩ := by
      unfold onByte onRead
      simp only
      rw [if_neg (cons_ne_nil _ _), if_pos hshort]
    rw [hbyte]
    refine ⟨?_, ?_⟩
    · unfold onRead
      simp only
      rw [if_neg hrest, append_assoc]
      rfl
    show rest.length ≤ receiveLen - (got ++ [byte]).length
    rw [length_append, length_singleton]
    omega
  | discard remaining =>
    have hroom : rest.length + 1 ≤ remaining := hroom
    have hbyte : onByte refuses ⟨.discard remaining, frames, enqueued⟩ byte =
        ⟨.discard (remaining - 1), frames, enqueued⟩ := by
      simp [onByte, onRead, show remaining - 1 ≠ 0 by omega]
    rw [hbyte]
    refine ⟨?_, show rest.length ≤ remaining - 1 by omega⟩
    simp [onRead, hrest, show remaining - 1 - rest.length = remaining - (rest.length + 1) by omega]
  | ended error => exact absurd hroom (by show ¬ rest.length + 1 ≤ 0; omega)

/-- A read is its bytes, one after the other. -/
theorem onRead_eq_foldl {chunk : Bytes} (hchunk : chunk ≠ []) (hroom : chunk.length ≤ self.room) :
    self.onRead refuses chunk = chunk.foldl (onByte refuses) self := by
  induction chunk generalizing self with
  | nil => exact absurd rfl hchunk
  | cons byte rest ih =>
    cases rest with
    | nil => rfl
    | cons next rest =>
      obtain ⟨hread, hrest⟩ := onRead_cons refuses (cons_ne_nil next rest) hroom
      rw [hread, ih (cons_ne_nil next rest) hrest]
      rfl

theorem ended_foldl {error : FramedIoError} (h : self.phase = .ended error) (bytes : Bytes) :
    bytes.foldl (onByte refuses) self = self := by
  induction bytes with
  | nil => rfl
  | cons byte bytes ih =>
    rw [foldl_cons, show self.onByte refuses byte = self by rw [onByte, onRead, h], ih]

theorem Waits.onByte (h : self.Waits) (byte : UInt8) : (self.onByte refuses byte).Waits := by
  obtain ⟨phase, frames, enqueued⟩ := self
  unfold Receiver.onByte onRead
  cases phase with
  | ended error => trivial
  | header got =>
    simp only [reduceCtorEq, if_false]
    split
    · rename_i hshort
      exact Nat.sub_pos_of_lt hshort
    unfold onHeader
    split
    · trivial
    rename_i receiveLen hlen
    have hpos : 0 < receiveLen := by
      unfold decodePacketLength at hlen
      simp only at hlen
      split at hlen
      · cases hlen
      split at hlen
      · cases hlen
      · have := Except.ok.inj hlen
        omega
    split <;> exact hpos
  | body receiveLen got =>
    simp only [reduceCtorEq, if_false]
    split
    · rename_i hshort
      exact Nat.sub_pos_of_lt hshort
    · exact Nat.succ_pos _
  | discard remaining =>
    simp only [reduceCtorEq, if_false]
    split
    · rename_i hne
      exact pos_of_ne_zero hne
    · exact succ_pos _

theorem Waits.foldl (h : self.Waits) (bytes : Bytes) :
    (bytes.foldl (Receiver.onByte refuses) self).Waits := by
  induction bytes generalizing self with
  | nil => exact h
  | cons byte bytes ih => exact ih (h.onByte byte)

theorem Waits.wanted_pos (h : self.Waits) :
    0 < self.wanted ∨ ∃ error, self.phase = .ended error := by
  obtain ⟨phase, frames, enqueued⟩ := self
  cases phase with
  | ended error => exact .inr ⟨error, rfl⟩
  | header got => exact .inl h
  | body receiveLen got => exact .inl h
  | discard remaining => exact .inl (Nat.lt_min.mpr ⟨h, by decide⟩)

theorem wanted_le_room (self : Receiver) : self.wanted ≤ self.room := by
  obtain ⟨phase, frames, enqueued⟩ := self
  cases phase with
  | discard remaining => exact min_le_left _ _
  | _ => exact le_refl _

/-- However the bytes are split into reads, they are read one after the other, and each read takes
at least one. -/
theorem receive_eq_foldl (refuses : Nat → Bool) (hwaits : self.Waits) (sizes : List Nat)
    (input : Bytes) : ∃ n, receive refuses sizes self input =
      ((input.take n).foldl (onByte refuses) self, input.drop n) ∧
      (min sizes.length input.length ≤ n ∨
        ∃ error, ((input.take n).foldl (onByte refuses) self).phase = .ended error) := by
  induction sizes generalizing self input with
  | nil => exact ⟨0, rfl, .inl (by simp)⟩
  | cons size sizes ih =>
    unfold receive
    by_cases hinput : input = []
    · rw [hinput]
      exact ⟨0, rfl, .inl (by simp)⟩
    rw [if_neg hinput]
    simp only
    rcases hwaits.wanted_pos with hpos | ⟨error, hended⟩
    · have hn : 0 < min (max size 1) self.wanted := by omega
      have hle : min (max size 1) self.wanted ≤ self.room :=
        le_trans (min_le_right _ _) self.wanted_le_room
      generalize min (max size 1) self.wanted = m at hn hle
      have hlength := length_pos_iff.mpr hinput
      have hread : self.onRead refuses (input.take m) = (input.take m).foldl (onByte refuses)
          self := by
        refine onRead_eq_foldl ?_ (le_trans (length_take_le m input) hle)
        rw [← length_pos_iff, length_take]
        omega
      have hnext : (self.onRead refuses (input.take m)).Waits := by
        rw [hread]
        exact hwaits.foldl _
      obtain ⟨n, heq, hend⟩ := ih hnext (input.drop m)
      refine ⟨m + n, ?_, ?_⟩
      · rw [heq, hread, ← foldl_append, ← take_add, drop_drop]
      rw [hread, ← foldl_append, ← take_add, length_drop] at hend
      rw [length_cons]
      refine hend.imp_left fun hle => ?_
      omega
    · have hwanted : self.wanted = 0 := by rw [wanted, room, hended]
      have hread : self.onRead refuses [] = self := by rw [onRead, hended]
      rw [hwanted, min_zero, take_zero, hread]
      obtain ⟨n, heq, hend⟩ := ih hwaits input
      exact ⟨n, heq, .inr ⟨error, by rw [ended_foldl hended]; exact hended⟩⟩

/-! ## Reading what was written -/

theorem foldl_header (h : Fits packet) (frames : Nat) (enqueued : List Bytes) :
    (toBytes 2 packet.length).foldl (onByte refuses) ⟨.header [], frames, enqueued⟩ =
      ⟨if refuses frames then .discard packet.length else .body packet.length [], frames + 1,
        enqueued⟩ := by
  have hlength : (toBytes 2 packet.length).length = 2 := length_toBytes 2 _
  have hne : toBytes 2 packet.length ≠ [] := length_pos_iff.mp (by omega)
  rw [← onRead_eq_foldl hne (show _ ≤ room ⟨.header [], frames, enqueued⟩ from le_of_eq hlength)]
  simp only [onRead, nil_append, hlength]
  rw [if_neg hne, if_neg (by decide), onHeader, decodePacketLength_toBytes h]

theorem foldl_frame (h : Fits packet) (frames : Nat) (enqueued : List Bytes) :
    (frame packet).foldl (onByte refuses) ⟨.header [], frames, enqueued⟩ =
      ⟨.header [], frames + 1, enqueued ++ if refuses frames then [] else [packet]⟩ := by
  have hne : packet ≠ [] := length_pos_iff.mp h.1
  rw [frame, foldl_append, foldl_header h]
  cases refuses frames with
  | true =>
    rw [← onRead_eq_foldl hne (le_refl _)]
    simp [onRead, hne]
  | false =>
    rw [← onRead_eq_foldl hne (le_refl _)]
    simp [onRead, hne]

theorem foldl_frames {packets : List Bytes} (h : ∀ packet ∈ packets, Fits packet) (frames : Nat)
    (enqueued : List Bytes) :
    (packets.flatMap frame).foldl (onByte refuses) ⟨.header [], frames, enqueued⟩ =
      ⟨.header [], frames + packets.length, enqueued ++ kept refuses frames packets⟩ := by
  induction packets generalizing frames enqueued with
  | nil => simp [kept]
  | cons packet packets ih =>
    rw [flatMap_cons, foldl_append, foldl_frame (h packet mem_cons_self),
      ih (forall_mem_cons.mp h).2, kept, length_cons, append_assoc,
      add_assoc, add_comm 1]

/-- The start of a frame enqueues nothing and leaves the loop waiting. -/
theorem foldl_short (h : Fits packet) {k : Nat} (hk : k < (frame packet).length) (frames : Nat)
    (enqueued : List Bytes) :
    let after := ((frame packet).take k).foldl (onByte refuses) ⟨.header [], frames, enqueued⟩
    after.enqueued = enqueued ∧ ∀ error, after.phase ≠ .ended error := by
  rw [length_frame] at hk
  rcases lt_or_ge k 2 with hsmall | hlarge
  · have htake : (frame packet).take k = (toBytes 2 packet.length).take k := by
      rw [frame, take_append_of_le_length (by rw [length_toBytes]; omega)]
    rw [htake]
    rcases (show k = 0 ∨ k = 1 by omega) with rfl | rfl
    · exact ⟨rfl, fun error => by simp⟩
    · exact ⟨rfl, fun error => by simp [toBytes, onByte, onRead, lengthHeaderBytes]⟩
  obtain ⟨n, rfl⟩ : ∃ n, k = 2 + n := ⟨k - 2, by omega⟩
  have htake : (frame packet).take (2 + n) = toBytes 2 packet.length ++ packet.take n := by
    have hheader : (toBytes 2 packet.length).length = 2 := length_toBytes 2 _
    rw [frame, take_append, hheader, Nat.add_sub_cancel_left,
      take_of_length_le (by omega)]
  rw [htake, foldl_append, foldl_header h]
  by_cases hnil : packet.take n = []
  · rw [hnil]
    refine ⟨rfl, fun error => ?_⟩
    show (if refuses frames then Phase.discard packet.length else .body packet.length []) ≠
      .ended error
    cases refuses frames <;> simp
  have hlength : (packet.take n).length < packet.length := by
    rw [length_take]
    omega
  cases refuses frames with
  | true =>
    rw [if_pos rfl, ← onRead_eq_foldl hnil
      (show _ ≤ room ⟨.discard packet.length, frames + 1, enqueued⟩ from le_of_lt hlength)]
    have hleft : packet.length - (packet.take n).length ≠ 0 := by omega
    simp only [onRead, hnil, if_false, if_true, hleft, ne_eq, not_false_eq_true]
    exact ⟨trivial, fun error => by simp⟩
  | false =>
    rw [if_neg Bool.false_ne_true, ← onRead_eq_foldl hnil
      (show _ ≤ room ⟨.body packet.length [], frames + 1, enqueued⟩ from le_of_lt hlength)]
    simp only [onRead, hnil, if_false, nil_append, hlength, if_true]
    exact ⟨trivial, fun error => by simp⟩

/-- What has been enqueued stays. -/
theorem enqueued_foldl (refuses : Nat → Bool) (self : Receiver) (bytes : Bytes) :
    ∃ more, (bytes.foldl (onByte refuses) self).enqueued = self.enqueued ++ more := by
  induction bytes generalizing self with
  | nil => exact ⟨[], (append_nil _).symm⟩
  | cons byte bytes ih =>
    obtain ⟨more, hmore⟩ := ih (self.onByte refuses byte)
    obtain ⟨first, hfirst⟩ : ∃ first, (self.onByte refuses byte).enqueued = self.enqueued ++
        first := by
      unfold onByte onRead
      split
      · exact ⟨[], (append_nil _).symm⟩
      · simp only
        split
        · exact ⟨[], (append_nil _).symm⟩
        split
        · exact ⟨[], (append_nil _).symm⟩
        · unfold onHeader
          split <;> exact ⟨[], (append_nil _).symm⟩
      · simp only
        split
        · exact ⟨[], (append_nil _).symm⟩
        split
        · exact ⟨[], (append_nil _).symm⟩
        · exact ⟨_, rfl⟩
      · split
        · exact ⟨[], (append_nil _).symm⟩
        · split <;> exact ⟨[], (append_nil _).symm⟩
    exact ⟨first ++ more, by rw [foldl_cons, hmore, hfirst, append_assoc]⟩

end Receiver

open FramedWriteState Receiver

/-- The far end gets the packets that were sent, but for those that its pool refuses, in order. -/
theorem FramedWriteState.InFrames.received {s : FramedWriteState} (h : InFrames s)
    (refuses : Nat → Bool) (sizes : List Nat) :
    let enqueued := (receive refuses sizes .start s.stream).1.enqueued
    (∃ more, kept refuses 0 s.sentPackets = enqueued ++ more) ∧
      (s.stream.length ≤ sizes.length → enqueued = kept refuses 0 s.sentPackets) := by
  obtain ⟨rest, hstream, hrest⟩ := h.stream
  have hall : (s.stream.foldl (onByte refuses) .start).enqueued = kept refuses 0 s.sentPackets ∧
      ∀ error, (s.stream.foldl (onByte refuses) .start).phase ≠ .ended error := by
    rw [hstream, foldl_append, Receiver.start, foldl_frames h.sent]
    cases hrest with
    | between idle => exact ⟨rfl, fun error => by simp⟩
    | started active held =>
      obtain ⟨-, hfits, -, hshort⟩ := h.active active held
      exact foldl_short hfits hshort _ _
    | abandoned idle submission written failed task fits short => exact foldl_short fits short _ _
  obtain ⟨n, heq, hend⟩ := receive_eq_foldl refuses
    (show Receiver.start.Waits from succ_pos 1) sizes s.stream
  have hsplit : s.stream.foldl (onByte refuses) .start =
      (s.stream.drop n).foldl (onByte refuses)
        ((s.stream.take n).foldl (onByte refuses) .start) := by
    rw [← foldl_append, take_append_drop]
  rw [heq]
  refine ⟨?_, fun hsizes => ?_⟩
  · obtain ⟨more, hmore⟩ := enqueued_foldl refuses ((s.stream.take n).foldl (onByte refuses) .start)
      (s.stream.drop n)
    exact ⟨more, by rw [← hall.1, hsplit, hmore]⟩
  rcases hend with hle | ⟨error, hended⟩
  · have htake : s.stream.take n = s.stream := take_of_length_le (by omega)
    rw [htake]
    exact hall.1
  · rw [hsplit, ended_foldl hended] at hall
    exact absurd hended (hall.2 error)

/-- The bytes stay cut into frames over every run in which no byte is written after a started frame
was given up, the submitted packets fit the receiver, and the writer task does not leave a started
frame behind. -/
theorem framed_run {ops : List Op} (h : Runs.Along step Undisturbed start ops) :
    let s := Runs.exec step start ops
    InFrames s ∧
      (s.task = .failed → ∀ later, Runs.Along step Undisturbed s later →
        (Runs.exec step s later).stream = s.stream) ∧
      ∀ refuses sizes,
        (∃ more, kept refuses 0 s.sentPackets =
          (receive refuses sizes .start s.stream).1.enqueued ++ more) ∧
          (s.stream.length ≤ sizes.length →
            (receive refuses sizes .start s.stream).1.enqueued = kept refuses 0 s.sentPackets) := by
  have hframes : InFrames (Runs.exec step start ops) :=
    Runs.Along.invariant (fun s op hs hok => hs.step hok) inFrames_start h
  exact ⟨hframes, fun htask later hlater => silent_run hframes htask hlater,
    fun refuses sizes => hframes.received refuses sizes⟩

/-- A packet in two writes, and another one. -/
theorem framed_run_two :
    let ops : List Op := [.submit ⟨0, [7, 8]⟩ (.accepted 3), .submit ⟨1, [9]⟩ (.accepted 9),
      .progress .wouldBlock, .progress (.accepted 5), .submit ⟨1, [9]⟩ (.accepted 3)]
    (Runs.exec step start ops).stream = [0, 2, 7, 8, 0, 1, 9] ∧
      InFrames (Runs.exec step start ops) :=
  ⟨by decide, (framed_run (by decide)).1⟩

/-- A write of a started frame fails, the socket recovers, and the next packet goes out behind the
abandoned start: it counts as sent, and the receiver reads an empty frame and ends. -/
theorem framed_run_shifted :
    let s := Runs.exec step start
      [.submit ⟨0, [7, 8]⟩ (.accepted 1), .progress .failed, .submit ⟨1, [9]⟩ (.accepted 3)]
    s.stream = [0, 0, 1, 9] ∧ s.sentPackets = [[9]] ∧
      (receive (fun _ => false) [4, 4, 4, 4] .start s.stream).1 =
      ⟨.ended (.invalidFrameLength 0), 0, []⟩ := by
  decide

end QuicLite.Bearer

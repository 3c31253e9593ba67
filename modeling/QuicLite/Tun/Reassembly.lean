import QuicLite.Lib.Runs
import QuicLite.Lib.Serial
import QuicLite.Wire.Varint

/-!
# Guest to host: reassembling a TCP stream

`rx_task` of a proxied TCP flow takes the guest's segments in whatever order they arrive, writes the
guest's byte stream to the backend, and acknowledges what it has written. Segments behind a gap wait
in a reorder buffer that is keyed by their sequence number.

One turn of the task's loop is modelled by what it leaves of the local variables and the actions it
takes, in order. The backend accepts every write; the output queue may refuse a packet, and a
refused acknowledgement ends the loop. The guest's stream `S` is unbounded, so its positions are
natural numbers and the sequence numbers of the code are these modulo `2 ^ 32`.
-/

namespace QuicLite.Tun

open Serial List Option Nat UInt32 Prod

def tcpReorderBufferMaxBytes : Nat := 256 * 1024

def delayedAckEverySegments : Nat := 2

/-- The longest IP packet. -/
def maxIpPacket : Nat := 65535

def tcpSeqAfter (seq other : UInt32) : Bool := distance seq other > 0

def tcpSeqBeforeOrEqual (seq other : UInt32) : Bool := distance seq other ≤ 0

/-- A parsed segment, as far as the task looks at it. It came out of one IP packet. -/
structure TunTcpPacket where
  seq : UInt32
  ack : Bool
  ackNum : UInt32
  fin : Bool
  rst : Bool
  payload : Bytes
  fits : payload.length ≤ maxIpPacket

/-- The local variables of `rx_task`, and whether its loop goes on. -/
structure RxTask where
  clientSeq : UInt32
  oooBuf : List (UInt32 × Bytes)
  oooBytes : Nat
  pendingAck : Bool
  pendingAckSeq : UInt32
  pendingAckSegments : Nat
  running : Bool
  deriving DecidableEq, Repr

/-- What a turn of the loop does outside its local variables. A packet carries the server's number
that was loaded last and the number it acknowledges; `fatal` says whether the loop ends when the
output queue refuses it. -/
inductive Action where
  | advanceClientAcked (ackNum : UInt32)
  | loadServerSeq
  | write (data : Bytes)
  | storeClientSeq (seq : UInt32)
  | sendAck (ack : UInt32) (fatal : Bool)
  | sendReset (ack : UInt32)
  | sendFin (ack : UInt32)
  | shutdown
  deriving Repr

variable {l quiet : List Action}

namespace RxTask

def new (clientSeq : UInt32) : RxTask := ⟨clientSeq, [], 0, false, clientSeq, 0, true⟩

/-- The reorder buffer is a map. -/
def find (buf : List (UInt32 × Bytes)) (seq : UInt32) : Option Bytes :=
  (buf.find? fun entry => entry.1 == seq).map (·.2)

def erase (buf : List (UInt32 × Bytes)) (seq : UInt32) : List (UInt32 × Bytes) :=
  buf.filter fun entry => entry.1 != seq

/-- `while let Some(seg) = ooo_buf.remove(&client_seq)`. Every turn removes a segment, so as many
turns as there are segments always suffice. -/
def drain : Nat → RxTask → RxTask × List Action
  | 0, self => (self, [])
  | fuel + 1, self =>
    match find self.oooBuf self.clientSeq with
    | none => (self, [])
    | some seg =>
      let clientSeq := self.clientSeq + ofNat seg.length
      let (next, actions) := drain fuel { self with
        oooBuf := erase self.oooBuf self.clientSeq
        oooBytes := self.oooBytes - seg.length
        clientSeq := clientSeq }
      (next, .write seg :: .storeClientSeq clientSeq :: actions)

variable (self : RxTask)

/-- A segment that holds the next byte: its new part is delivered, and then what it makes
deliverable. -/
def deliver (pkt : TunTcpPacket) : RxTask × List Action :=
  let newData := pkt.payload.drop (self.clientSeq - pkt.seq).toNat
  if newData = [] then (self, [])
  else
    let clientSeq := self.clientSeq + ofNat newData.length
    let (next, actions) := drain self.oooBuf.length { self with clientSeq := clientSeq }
    (next, .write newData :: .storeClientSeq clientSeq :: actions)

/-- A segment behind a gap waits; a buffer over its budget resets the guest and ends the loop. -/
def buffer (pkt : TunTcpPacket) : RxTask × List Action :=
  let oooBytes := self.oooBytes - ((find self.oooBuf pkt.seq).map List.length).getD 0 +
    pkt.payload.length
  let self := { self with
    oooBuf := (pkt.seq, pkt.payload) :: erase self.oooBuf pkt.seq, oooBytes := oooBytes }
  if oooBytes > tcpReorderBufferMaxBytes then
    ({ self with running := false }, [.loadServerSeq, .sendReset self.clientSeq])
  else (self, [])

/-- Every second data segment is acknowledged at once. -/
def acknowledge : RxTask × List Action :=
  let self := { self with
    pendingAck := true
    pendingAckSeq := self.clientSeq
    pendingAckSegments := min (self.pendingAckSegments + 1) 255 }
  if self.pendingAckSegments ≥ delayedAckEverySegments then
    ({ self with pendingAck := false, pendingAckSegments := 0 },
      [.loadServerSeq, .sendAck self.pendingAckSeq true])
  else (self, [])

/-- In order or overlapping, out of order, or a pure retransmission. -/
def place (pkt : TunTcpPacket) : RxTask × List Action :=
  let segmentEnd := pkt.seq + ofNat pkt.payload.length
  if tcpSeqAfter segmentEnd self.clientSeq && tcpSeqBeforeOrEqual pkt.seq self.clientSeq then
    self.deliver pkt
  else if tcpSeqAfter pkt.seq self.clientSeq then self.buffer pkt
  else (self, [])

def receivePayload (pkt : TunTcpPacket) : RxTask × List Action :=
  if pkt.payload = [] then (self, [])
  else
    let (next, actions) := self.place pkt
    if !next.running then (next, actions)
    else
      let (next, acks) := next.acknowledge
      (next, actions ++ acks)

/-- The guest's FIN is answered whatever has arrived. -/
def receiveFin : RxTask × List Action :=
  let finalClientSeq := self.clientSeq + 1
  ({ self with running := false },
    (if self.pendingAck then [.loadServerSeq, .sendAck self.pendingAckSeq false] else []) ++
      [.loadServerSeq, .storeClientSeq finalClientSeq, .sendFin finalClientSeq, .shutdown])

def receive (pkt : TunTcpPacket) : RxTask × List Action :=
  if pkt.rst then ({ self with running := false }, [])
  else
    let acked : List Action := if pkt.ack then [.advanceClientAcked pkt.ackNum] else []
    let (next, actions) := self.receivePayload pkt
    if !next.running then (next, acked ++ actions)
    else if pkt.fin then
      let (next, fin) := next.receiveFin
      (next, acked ++ actions ++ fin)
    else (next, acked ++ actions)

/-- The delayed-ACK timer, which runs while an acknowledgement is pending. -/
def ackTimeout : RxTask × List Action :=
  if self.pendingAck then
    ({ self with pendingAck := false, pendingAckSegments := 0 },
      [.loadServerSeq, .sendAck self.pendingAckSeq true])
  else (self, [])

end RxTask

open RxTask

/-! ## Runs -/

/-- What wakes the loop. -/
inductive Wake where
  | packet (pkt : TunTcpPacket)
  | ackTimeout
  | closed

def Wake.hasFin : Wake → Bool
  | .packet pkt => pkt.fin
  | _ => false

def RxTask.wake (self : RxTask) : Wake → RxTask × List Action
  | .packet pkt => self.receive pkt
  | .ackTimeout => self.ackTimeout
  | .closed => ({ self with running := false }, [])

/-- The actions that take place, given the output queue's answers: a refused packet is not sent, and
a refused acknowledgement may end the loop there. -/
def perform : List Action → (Nat → Bool) → List Action × Bool
  | [], _ => ([], true)
  | action :: rest, accepts =>
    match action with
    | .sendAck _ fatal =>
      if accepts 0 then
        let (done, goesOn) := perform rest fun k => accepts (k + 1)
        (action :: done, goesOn)
      else if fatal then ([], false)
      else perform rest fun k => accepts (k + 1)
    | .sendReset _ | .sendFin _ =>
      let (done, goesOn) := perform rest fun k => accepts (k + 1)
      (if accepts 0 then action :: done else done, goesOn)
    | _ =>
      let (done, goesOn) := perform rest accepts
      (action :: done, goesOn)

/-- A flow's task, everything it has done, and whether it has seen the guest's FIN. -/
structure RxState where
  task : RxTask
  done : List Action
  finSeen : Bool

def RxState.new (isn : UInt32) : RxState := ⟨.new (isn + 1), [], false⟩

/-- One turn: what woke the loop, and what the output queue answers to each packet of the turn. -/
structure Turn where
  wake : Wake
  accepts : Nat → Bool

def rxStep (s : RxState) (turn : Turn) : RxState :=
  if !s.task.running then s
  else
    let (task, actions) := s.task.wake turn.wake
    let (done, goesOn) := perform actions turn.accepts
    ⟨{ task with running := task.running && goesOn }, s.done ++ done, s.finSeen || turn.wake.hasFin⟩

/-- The backend's input. -/
def written : List Action → Bytes
  | [] => []
  | .write data :: rest => data ++ written rest
  | _ :: rest => written rest

/-! ## The specification -/

section Spec

variable (S : Bytes) (isn : UInt32)

/-- The sequence number of position `n` of the guest's stream. -/
def position (n : Nat) : UInt32 := number (isn + 1) n

/-- `S[a..b)` -/
def slice (a b : Nat) : Bytes := (S.take b).drop a

/-- The packet carries `S[a..b)` in its place, not too far from the `delivered` bytes, and the FIN
only at the end. -/
structure Carries (delivered : Nat) (pkt : TunTcpPacket) (a b : Nat) : Prop where
  le : a ≤ b
  within : b ≤ S.length
  seq : pkt.seq = position isn a
  payload : pkt.payload = slice S a b
  notAhead : a < delivered + 2 ^ 31
  notBehind : delivered < a + 2 ^ 31
  fin : pkt.fin = true → b = S.length

/-- Any segment of the guest's stream may arrive, at any time; a reset needs no place in the
stream. -/
def Legal (s : RxState) (turn : Turn) : Prop :=
  match turn.wake with
  | .packet pkt => pkt.rst = true ∨ ∃ a b, Carries S isn (written s.done).length pkt a b
  | _ => True

/-- What an action may be after the actions `before`. -/
def ActionSound (before : List Action) : Action → Prop
  | .sendAck ack _ | .sendReset ack => ack = position isn (written before).length
  | .sendFin ack => ack = position isn (written before).length + 1 ∧ written before = S
  | .shutdown => written before = S
  | _ => True

/-- The buffered segment is a piece of the stream with a byte that is still missing. -/
def Awaited (delivered : Nat) (entry : UInt32 × Bytes) : Prop :=
  ∃ a, entry.1 = position isn a ∧ entry.2 = slice S a (a + entry.2.length) ∧
    delivered < a + entry.2.length ∧
    a < delivered + 2 ^ 31 ∧ delivered < a + 2 ^ 31

def total (buf : List (UInt32 × Bytes)) : Nat := (buf.map fun entry => entry.2.length).sum

/-- The stream is reassembled exactly. -/
structure Reassembles (s : RxState) : Prop where
  delivered : written s.done <+: S
  actions : ∀ before action after, s.done = before ++ action :: after →
    ActionSound S isn before action
  finSeen : ∀ ack, .sendFin ack ∈ s.done → s.finSeen = true
  charged : s.task.oooBytes = total s.task.oooBuf
  awaited : ∀ entry ∈ s.task.oooBuf, Awaited S isn (written s.done).length entry

end Spec

/-! ## When the code keeps it -/

/-- The segment's last byte lies behind `start` and no further than `stop`. -/
def EndsWithin (entry : UInt32 × Bytes) (start stop : UInt32) : Prop :=
  (entry.1 + ofNat entry.2.length - start).toNat ≤ (stop - start).toNat

/-- Delivery up to `start` makes the buffered segments at these numbers deliverable. -/
inductive Reaches (buf : List (UInt32 × Bytes)) (start : UInt32) : UInt32 → Prop
  | here : Reaches buf start start
  | next {entry} : Reaches buf start entry.1 → entry ∈ buf →
      Reaches buf start (entry.1 + ofNat entry.2.length)

/-- No delivered segment, neither the packet itself nor a buffered one that it makes deliverable,
runs past the end of another buffered segment. -/
structure RunsPastNone (task : RxTask) (pkt : TunTcpPacket) : Prop where
  packet : ∀ entry ∈ task.oooBuf,
    ¬ EndsWithin entry task.clientSeq (pkt.seq + ofNat pkt.payload.length)
  buffered : ∀ entry ∈ task.oooBuf,
    Reaches task.oooBuf (pkt.seq + ofNat pkt.payload.length) entry.1 →
    ∀ other ∈ task.oooBuf, other ≠ entry →
      ¬ EndsWithin other entry.1 (entry.1 + ofNat entry.2.length)

/-- With the segment in it the reorder buffer is over its budget. -/
def Overfills (task : RxTask) (pkt : TunTcpPacket) : Prop :=
  tcpReorderBufferMaxBytes <
    task.oooBytes - ((find task.oooBuf pkt.seq).map List.length).getD 0 + pkt.payload.length

/-- A segment behind a gap ends the loop before its FIN is looked at: it overfills the reorder
buffer, or it makes an acknowledgement due and that is refused. -/
def EndsBeforeFin (task : RxTask) (pkt : TunTcpPacket) (accepts : Nat → Bool) : Prop :=
  pkt.payload ≠ [] ∧
    (Overfills task pkt ∨ (delayedAckEverySegments ≤ min (task.pendingAckSegments + 1) 255 ∧
      accepts 0 = false))

/-- A FIN that the loop gets to look at has nothing missing before it, and a segment that is
delivered runs past no buffered one. A packet with RST is not looked at. -/
def Orderly (s : RxState) (turn : Turn) : Prop :=
  match turn.wake with
  | .packet pkt => pkt.rst = false →
    (pkt.fin = true → tcpSeqAfter pkt.seq s.task.clientSeq = true →
      EndsBeforeFin s.task pkt turn.accepts) ∧
      (tcpSeqAfter (pkt.seq + ofNat pkt.payload.length) s.task.clientSeq = true →
        tcpSeqBeforeOrEqual pkt.seq s.task.clientSeq = true → RunsPastNone s.task pkt)
  | _ => True

/-! ## The reorder buffer as a map -/

section Map

variable {buf : List (UInt32 × Bytes)} {seq : UInt32}

/-- No two buffered segments have one number. -/
def UniqueKeys (buf : List (UInt32 × Bytes)) : Prop := (buf.map fst).Nodup

theorem mem_erase {entry : UInt32 × Bytes} :
    entry ∈ erase buf seq ↔ entry ∈ buf ∧ entry.1 ≠ seq := by
  simp [erase]

theorem mem_of_find {data : Bytes} (h : find buf seq = some data) : (seq, data) ∈ buf := by
  obtain ⟨⟨key, value⟩, hfind, rfl⟩ := map_eq_some_iff.mp h
  have hkey : key = seq := by simpa using find?_some hfind
  exact hkey ▸ mem_of_find?_eq_some hfind

theorem UniqueKeys.erase (h : UniqueKeys buf) (seq : UInt32) : UniqueKeys (erase buf seq) :=
  h.sublist (.map _ filter_sublist)

theorem UniqueKeys.insert (h : UniqueKeys buf) (seq : UInt32) (data : Bytes) :
    UniqueKeys ((seq, data) :: RxTask.erase buf seq) := by
  refine nodup_cons.mpr ⟨?_, h.erase seq⟩
  intro hmem
  obtain ⟨entry, hentry, hkey⟩ := mem_map.mp hmem
  exact (mem_erase.mp hentry).2 hkey

@[simp] theorem total_cons (entry : UInt32 × Bytes) :
    total (entry :: buf) = entry.2.length + total buf := by
  simp [total]

theorem erase_of_not_mem (h : seq ∉ buf.map fst) : erase buf seq = buf := by
  rw [erase, filter_eq_self]
  intro entry hentry
  have hne : entry.1 ≠ seq := fun heq => h (mem_map.mpr ⟨entry, hentry, heq⟩)
  simpa using hne

/-- Erasing a number gives back the bytes that were charged for it. -/
theorem total_erase (h : UniqueKeys buf) (seq : UInt32) :
    total (erase buf seq) + ((find buf seq).map length).getD 0 = total buf := by
  induction buf with
  | nil => rfl
  | cons entry buf ih =>
    obtain ⟨hfresh, hrest⟩ := nodup_cons.mp h
    by_cases hkey : entry.1 = seq
    · have herase : erase (entry :: buf) seq = buf := by
        rw [← erase_of_not_mem hfresh]
        simp [erase, hkey]
      have hfind : find (entry :: buf) seq = some entry.2 := by simp [find, hkey]
      rw [herase, hfind]
      simp [add_comm]
    have herase : erase (entry :: buf) seq = entry :: erase buf seq := by
      simp [erase, hkey]
    have hfind : find (entry :: buf) seq = find buf seq := by simp [find, hkey]
    have hsum := ih hrest
    rw [herase, hfind, total_cons, total_cons]
    omega

end Map

/-! ## Slices -/

section Slices

variable {S : Bytes} {a b c : Nat}

theorem length_slice (hb : b ≤ S.length) : (slice S a b).length = b - a := by
  simp [slice, min_eq_left hb]

theorem drop_slice (n : Nat) : (slice S a b).drop n = slice S (a + n) b := by
  rw [slice, slice, drop_drop]

theorem take_append_slice (hab : a ≤ b) : S.take a ++ slice S a b = S.take b := by
  have h := take_append_drop a (S.take b)
  rwa [take_take, min_eq_left hab] at h

theorem slice_append (hab : a ≤ b) (hbc : b ≤ c) : slice S a b ++ slice S b c = slice S a c := by
  by_cases hlen : a ≤ (S.take b).length
  · rw [slice, ← drop_append_of_le_length hlen, take_append_slice hbc, slice]
  have hshort : S.length ≤ a := by rw [length_take] at hlen; omega
  have hnil : ∀ x y, S.length ≤ x → slice S x y = [] := by
    intro x y hx
    rw [slice, drop_eq_nil_iff, length_take]
    omega
  rw [hnil a b hshort, hnil b c (by omega), hnil a c hshort, append_nil]

end Slices

/-! ## What a turn's actions are -/

/-- An action that no answer of the output queue can prevent, and that constrains nothing. -/
def Action.isQuiet : Action → Bool
  | .advanceClientAcked _ | .loadServerSeq | .write _ | .storeClientSeq _ => true
  | _ => false

def Action.isWrite : Action → Bool
  | .write _ => true
  | _ => false

@[simp] theorem written_append (l m : List Action) : written (l ++ m) = written l ++ written m := by
  induction l with
  | nil => rfl
  | cons action l ih => cases action <;> simp [written, ih]

theorem written_of_no_write (h : ∀ action ∈ l, action.isWrite = false) : written l = [] := by
  induction l with
  | nil => rfl
  | cons action l ih =>
    have hrest := ih (forall_mem_cons.mp h).2
    have hhead := h action mem_cons_self
    cases action <;> simp_all [written, Action.isWrite]

theorem perform_quiet (h : ∀ action ∈ quiet, action.isQuiet = true) (tail : List Action)
    (accepts : Nat → Bool) : perform (quiet ++ tail) accepts =
      (quiet ++ (perform tail accepts).1, (perform tail accepts).2) := by
  induction quiet with
  | nil => rfl
  | cons action quiet ih =>
    cases action <;> simp_all [perform, Action.isQuiet]

theorem perform_sublist (actions : List Action) (accepts : Nat → Bool) :
    (perform actions accepts).1.Sublist actions := by
  induction actions generalizing accepts with
  | nil => exact .slnil
  | cons action rest ih =>
    cases action with
    | sendAck ack fatal =>
      simp only [perform]
      split
      · exact (ih _).cons_cons _
      split
      · exact nil_sublist _
      · exact (ih _).cons _
    | sendReset ack =>
      simp only [perform]
      split
      · exact (ih _).cons_cons _
      · exact (ih _).cons _
    | sendFin ack =>
      simp only [perform]
      split
      · exact (ih _).cons_cons _
      · exact (ih _).cons _
    | advanceClientAcked | loadServerSeq | write | storeClientSeq | shutdown =>
      exact (ih _).cons_cons _

/-! ## The invariant -/

section Invariant

variable {S : Bytes} {isn : UInt32} {a b : Nat} {action : Action} {log : List Action}
variable {next : Nat} {actions : List Action} {s : RxState} {ack : UInt32}

/-- A buffered segment: what it holds, and that it reaches beyond the cursor. -/
structure Held (S : Bytes) (isn : UInt32) (cursor : Nat) (entry : UInt32 × Bytes)
    (a : Nat) : Prop where
  seq : entry.1 = position isn a
  data : entry.2 = slice S a (a + entry.2.length)
  within : a + entry.2.length ≤ S.length
  short : entry.2.length ≤ maxIpPacket
  beyond : cursor < a + entry.2.length
  near : a < cursor + 2 ^ 31

/-- The local variables with `cursor` bytes delivered. -/
structure TaskInv (S : Bytes) (isn : UInt32) (cursor : Nat) (task : RxTask) : Prop where
  within : cursor ≤ S.length
  clientSeq : task.clientSeq = position isn cursor
  unique : UniqueKeys task.oooBuf
  charged : task.oooBytes = total task.oooBuf
  held : ∀ entry ∈ task.oooBuf, ∃ a, Held S isn cursor entry a

variable {cursor : Nat}

theorem Held.awaited {entry : UInt32 × Bytes} (h : Held S isn cursor entry a) :
    Awaited S isn cursor entry := by
  have hshort : maxIpPacket < 2 ^ 31 := by decide
  have := h.short
  have := h.beyond
  exact ⟨a, h.seq, h.data, h.beyond, h.near, by omega⟩

/-- A delivered piece that does not run past the end of a buffered segment leaves it useful. -/
theorem Held.advance {entry : UInt32 × Bytes} (h : Held S isn cursor entry a)
    (hle : cursor ≤ next) (hnear : next < cursor + 2 ^ 31)
    (hpast : ¬ EndsWithin entry (position isn cursor) (position isn next)) :
    Held S isn next entry a := by
  have hshort : maxIpPacket < 2 ^ 31 := by decide
  have hlen := h.short
  have hbeyond := h.beyond
  have hfar := h.near
  refine { h with beyond := ?_, near := by omega }
  have hend : (entry.1 + ofNat entry.2.length - position isn cursor).toNat = a +
      entry.2.length - cursor := by
    rw [h.seq, position, number_add]
    exact toNat_number_sub (by omega) (by omega)
  have hstop : (position isn next - position isn cursor).toNat = next - cursor :=
    toNat_number_sub hle (by omega)
  rw [EndsWithin] at hpast
  omega

/-- The cursor has one number, so the segment buffered under it continues the stream there. -/
theorem Held.at_cursor {entry : UInt32 × Bytes} (h : Held S isn cursor entry a)
    (hseq : entry.1 = position isn cursor) : a = cursor := by
  have hshort : maxIpPacket < 2 ^ 31 := by decide
  have hlen := h.short
  have hbeyond := h.beyond
  have hfar := h.near
  have hsame : number (isn + 1) a = number (isn + 1) cursor := h.seq.symm.trans hseq
  exact number_inj hsame (by omega) (by omega)

theorem drain_quiet (fuel : Nat) (task : RxTask) :
    ∀ action ∈ (drain fuel task).2, action.isQuiet = true := by
  induction fuel generalizing task with
  | zero => simp [drain]
  | succ fuel ih =>
    cases hfind : find task.oooBuf task.clientSeq with
    | none => simp [drain, hfind]
    | some seg =>
      simp only [drain, hfind, mem_cons]
      rintro action (rfl | rfl | haction)
      · rfl
      · rfl
      · exact ih _ action haction

theorem deliver_quiet (task : RxTask) (pkt : TunTcpPacket) :
    ∀ action ∈ (task.deliver pkt).2, action.isQuiet = true := by
  unfold deliver
  dsimp only
  split
  · simp
  simp only [mem_cons]
  rintro action (rfl | rfl | haction)
  · rfl
  · rfl
  · exact drain_quiet _ _ action haction

variable {task : RxTask}

/-- Draining delivers a further piece of the stream and leaves only useful segments. -/
theorem drain_spec {buf : List (UInt32 × Bytes)} {start : UInt32}
    (hfree : ∀ entry ∈ buf, Reaches buf start entry.1 → ∀ other ∈ buf, other ≠ entry →
      ¬ EndsWithin other entry.1 (entry.1 + ofNat entry.2.length))
    (fuel : Nat) (h : TaskInv S isn cursor task) (hsub : ∀ entry ∈ task.oooBuf, entry ∈ buf)
    (hreach : Reaches buf start task.clientSeq) :
    ∃ next, TaskInv S isn next (drain fuel task).1 ∧ cursor ≤ next ∧
      written (drain fuel task).2 = slice S cursor next ∧
      (drain fuel task).1.oooBytes ≤ task.oooBytes ∧ (drain fuel task).1.running =
        task.running := by
  induction fuel generalizing task cursor with
  | zero =>
    simp only [drain]
    exact ⟨cursor, h, le_refl _, by simp [written, slice], le_refl _, trivial⟩
  | succ fuel ih =>
    cases hfind : find task.oooBuf task.clientSeq with
    | none =>
      simp only [drain, hfind]
      exact ⟨cursor, h, le_refl _, by simp [written, slice], le_refl _, trivial⟩
    | some seg =>
    -- The segment at the cursor continues the stream; the others reach beyond its end.
    have hmem := mem_of_find hfind
    obtain ⟨a, hheld⟩ := h.held _ hmem
    obtain rfl := hheld.at_cursor h.clientSeq
    have hshort : seg.length ≤ maxIpPacket := hheld.short
    have hdata : seg = slice S a (a + seg.length) := hheld.data
    have hbound : maxIpPacket < 2 ^ 31 := by decide
    have hcount := total_erase h.unique task.clientSeq
    rw [hfind] at hcount
    simp only [map_some, getD_some] at hcount
    have hnext : task.clientSeq + ofNat seg.length = position isn (a + seg.length) := by
      rw [h.clientSeq, position, position, number_add]
    have hinv : TaskInv S isn (a + seg.length) { task with
        oooBuf := erase task.oooBuf task.clientSeq
        oooBytes := task.oooBytes - seg.length
        clientSeq := task.clientSeq + ofNat seg.length } := by
      refine ⟨hheld.within, hnext, h.unique.erase _, ?_, fun other hother => ?_⟩
      · show task.oooBytes - seg.length = total (erase task.oooBuf task.clientSeq)
        rw [h.charged]
        omega
      obtain ⟨hin, hne⟩ := mem_erase.mp hother
      obtain ⟨b, hb⟩ := h.held other hin
      have hpast := hfree _ (hsub _ hmem) hreach other (hsub _ hin) fun heq =>
        hne (congrArg fst heq)
      refine ⟨b, hb.advance (le_add_right _ _) (by omega) ?_⟩
      rw [← h.clientSeq, ← hnext]
      exact hpast
    obtain ⟨next, hinv', hle, hwritten, hbytes, hrunning⟩ := ih hinv
      (fun entry hentry => hsub entry (mem_erase.mp hentry).1) (.next hreach (hsub _ hmem))
    have hless : task.oooBytes - seg.length ≤ task.oooBytes := sub_le _ _
    refine ⟨next, ?_, by omega, ?_, ?_, ?_⟩
    · simpa only [drain, hfind] using hinv'
    · simp only [drain, hfind, written, hwritten]
      exact (congrArg (· ++ _) hdata).trans (slice_append (le_add_right _ _) hle)
    · simpa only [drain, hfind] using hbytes.trans hless
    · simpa only [drain, hfind] using hrunning

/-- What an action may be with `next` bytes delivered. -/
def SoundAt (S : Bytes) (isn : UInt32) (next : Nat) : Action → Prop
  | .sendAck ack _ | .sendReset ack => ack = position isn next
  | .sendFin ack => ack = position isn next + 1 ∧ next = S.length
  | .shutdown => next = S.length
  | _ => True

/-- A turn that starts with `cursor` bytes delivered and ends with `next`: first it delivers, then
it answers. -/
structure TurnSpec (S : Bytes) (isn : UInt32) (cursor next : Nat)
    (result : RxTask × List Action) : Prop where
  le : cursor ≤ next
  task : TaskInv S isn next result.1
  room : result.1.running = true → result.1.oooBytes ≤ tcpReorderBufferMaxBytes
  pending : result.1.running = true → result.1.pendingAck = true →
    result.1.pendingAckSeq = result.1.clientSeq
  actions : ∃ quiet tail, result.2 = quiet ++ tail ∧ (∀ action ∈ quiet, action.isQuiet = true) ∧
    written quiet = slice S cursor next ∧
    ∀ action ∈ tail, action.isWrite = false ∧ SoundAt S isn next action

variable {pkt : TunTcpPacket}

section

variable (h : TaskInv S isn cursor task)
include h

theorem deliver_spec
    (hpkt : Carries S isn cursor pkt a b) (hle : a ≤ cursor) (hnew : cursor < b)
    (hfree : RunsPastNone task pkt) : ∃ next, b ≤ next ∧ TaskInv S isn next (task.deliver pkt).1 ∧
      written (task.deliver pkt).2 = slice S cursor next ∧
      (task.deliver pkt).1.oooBytes ≤ task.oooBytes ∧
        (task.deliver pkt).1.running = task.running := by
  have hwithin := hpkt.within
  have hfits := pkt.fits
  rw [hpkt.payload, length_slice hwithin] at hfits
  have hbound : maxIpPacket < 2 ^ 31 := by decide
  have hoffset : (task.clientSeq - pkt.seq).toNat = cursor - a := by
    rw [h.clientSeq, hpkt.seq]
    exact toNat_number_sub hle (by omega)
  have hdata : pkt.payload.drop (task.clientSeq - pkt.seq).toNat = slice S cursor b := by
    rw [hoffset, hpkt.payload, drop_slice, Nat.add_sub_cancel' hle]
  have hlen : (slice S cursor b).length = b - cursor := length_slice hwithin
  have hne : slice S cursor b ≠ [] := by
    intro hnil
    rw [hnil] at hlen
    simp at hlen
    omega
  have hend : pkt.seq + ofNat pkt.payload.length = position isn b := by
    rw [hpkt.seq, hpkt.payload, length_slice hwithin, position, position, number_add,
      Nat.add_sub_cancel' hpkt.le]
  have hnext : task.clientSeq + ofNat (b - cursor) = position isn b := by
    rw [h.clientSeq, position, position, number_add, Nat.add_sub_cancel' (Nat.le_of_lt hnew)]
  have hinv : TaskInv S isn b { task with clientSeq := task.clientSeq + ofNat (b - cursor) } := by
    refine ⟨hwithin, hnext, h.unique, h.charged, fun entry hentry => ?_⟩
    obtain ⟨c, hc⟩ := h.held entry hentry
    have hpast := hfree.packet entry hentry
    rw [h.clientSeq, hend] at hpast
    exact ⟨c, hc.advance (le_of_lt hnew) (by omega) hpast⟩
  obtain ⟨next, hinv', hle', hwritten, hbytes, hrunning⟩ :=
    drain_spec hfree.buffered task.oooBuf.length hinv
    (fun entry hentry => hentry) (by rw [hnext, ← hend]; exact .here)
  have hdeliver : task.deliver pkt =
      ((drain task.oooBuf.length { task with
        clientSeq := task.clientSeq + ofNat (b - cursor) }).1,
        .write (slice S cursor b) :: .storeClientSeq (task.clientSeq + ofNat (b - cursor)) ::
          (drain task.oooBuf.length { task with
            clientSeq := task.clientSeq + ofNat (b - cursor) }).2) := by
    simp only [deliver, hdata, if_neg hne, hlen]
  rw [hdeliver]
  refine ⟨next, hle', hinv', ?_, hbytes, hrunning⟩
  simp only [written, hwritten]
  exact slice_append (le_of_lt hnew) hle'

theorem buffer_spec (hpkt : Carries S isn cursor pkt a b) (hgap : cursor < a)
    (hne : pkt.payload ≠ []) :
    TaskInv S isn cursor (task.buffer pkt).1 ∧ ((task.buffer pkt).1.running = true →
        (task.buffer pkt).1.oooBytes ≤ tcpReorderBufferMaxBytes ∧ (task.buffer pkt).2 = []) ∧
      (∀ action ∈ (task.buffer pkt).2, action.isWrite = false ∧ SoundAt S isn cursor action) := by
  have hcount := total_erase h.unique pkt.seq
  have hcharged := h.charged
  have hlen : pkt.payload.length = b - a := by rw [hpkt.payload, length_slice hpkt.within]
  have hpos : 0 < pkt.payload.length := length_pos_of_ne_nil hne
  have hnear := hpkt.notAhead
  have hwithin := hpkt.within
  have hend : a + pkt.payload.length = b := by omega
  have hinv : TaskInv S isn cursor { task with
      oooBuf := (pkt.seq, pkt.payload) :: erase task.oooBuf pkt.seq
      oooBytes := task.oooBytes - ((find task.oooBuf pkt.seq).map length).getD 0 +
        pkt.payload.length } := by
    refine ⟨h.within, h.clientSeq, h.unique.insert _ _, ?_, fun entry hentry => ?_⟩
    · simp only [total_cons]
      omega
    rcases mem_cons.mp hentry with rfl | hold
    · refine ⟨a, hpkt.seq, ?_, ?_, pkt.fits, ?_, hnear⟩
      · show pkt.payload = slice S a (a + pkt.payload.length)
        rw [hend, hpkt.payload]
      · show a + pkt.payload.length ≤ S.length
        omega
      · show cursor < a + pkt.payload.length
        omega
    · exact h.held entry (mem_erase.mp hold).1
  unfold buffer
  dsimp only
  split
  · exact ⟨⟨hinv.within, hinv.clientSeq, hinv.unique, hinv.charged, hinv.held⟩, by simp,
      by simp [Action.isWrite, SoundAt, h.clientSeq]⟩
  · next hroom => exact ⟨hinv, fun _ => ⟨Nat.le_of_not_lt hroom, rfl⟩, by simp⟩

theorem acknowledge_spec :
    TaskInv S isn cursor task.acknowledge.1 ∧ task.acknowledge.1.oooBytes = task.oooBytes ∧
      (task.acknowledge.1.pendingAck = true →
        task.acknowledge.1.pendingAckSeq = task.acknowledge.1.clientSeq) ∧
      (∀ action ∈ task.acknowledge.2, action.isWrite = false ∧ SoundAt S isn cursor action) := by
  unfold acknowledge
  dsimp only
  split
  · exact ⟨⟨h.within, h.clientSeq, h.unique, h.charged, h.held⟩, rfl, by simp,
      by simp [Action.isWrite, SoundAt, h.clientSeq]⟩
  · exact ⟨⟨h.within, h.clientSeq, h.unique, h.charged, h.held⟩, rfl, by simp, by simp⟩

end

/-- A task between two turns. -/
structure Idle (S : Bytes) (isn : UInt32) (cursor : Nat) (task : RxTask) : Prop where
  inv : TaskInv S isn cursor task
  running : task.running = true
  room : task.oooBytes ≤ tcpReorderBufferMaxBytes
  pending : task.pendingAck = true → task.pendingAckSeq = task.clientSeq

theorem Idle.turn (h : Idle S isn cursor task) : TurnSpec S isn cursor cursor (task, []) :=
  ⟨le_refl _, h.inv, fun _ => h.room, fun _ => h.pending, [], [], rfl, by simp,
    by simp [written, slice], by simp⟩

/-- The acknowledgement behind the data of a turn. -/
theorem turnSpec_acknowledge (hle : cursor ≤ next)
    (h : TaskInv S isn next task) (hroom : task.oooBytes ≤ tcpReorderBufferMaxBytes)
    (hquiet : ∀ action ∈ quiet, action.isQuiet = true)
    (hwritten : written quiet = slice S cursor next) :
    TurnSpec S isn cursor next (task.acknowledge.1, quiet ++ task.acknowledge.2) := by
  obtain ⟨hinv, hbytes, hpending, hsound⟩ := acknowledge_spec h
  exact ⟨hle, hinv, fun _ => by rw [hbytes]; exact hroom, fun _ => hpending, quiet, _, rfl, hquiet,
    hwritten, hsound⟩

section

variable (h : TaskInv S isn cursor task)
include h

section

variable {a b : Nat} (hpkt : Carries S isn cursor pkt a b)
include hpkt

/-- Where the packet's numbers stand to the cursor. -/
theorem Carries.seqAfter : tcpSeqAfter pkt.seq task.clientSeq = decide (cursor < a) := by
  rw [tcpSeqAfter, h.clientSeq, hpkt.seq, position, position,
    distance_number hpkt.notAhead hpkt.notBehind]
  exact decide_eq_decide.mpr (by omega)

theorem Carries.seqBeforeOrEqual :
    tcpSeqBeforeOrEqual pkt.seq task.clientSeq = decide (a ≤ cursor) := by
  rw [tcpSeqBeforeOrEqual, h.clientSeq, hpkt.seq, position, position,
    distance_number hpkt.notAhead hpkt.notBehind]
  exact decide_eq_decide.mpr (by omega)

theorem Carries.endAfter (hle : a ≤ cursor) :
    tcpSeqAfter (pkt.seq + ofNat pkt.payload.length) task.clientSeq =
      decide (cursor < b) := by
  have hlen : pkt.payload.length = b - a := by rw [hpkt.payload, length_slice hpkt.within]
  have hfits := pkt.fits
  have hbehind := hpkt.notBehind
  have hab := hpkt.le
  have hbound : maxIpPacket < 2 ^ 31 := by decide
  have hend : pkt.seq + ofNat pkt.payload.length = position isn b := by
    rw [hpkt.seq, hlen, position, position, number_add, Nat.add_sub_cancel' hab]
  rw [tcpSeqAfter, h.clientSeq, hend, position, position, distance_number (by omega) (by omega)]
  exact decide_eq_decide.mpr (by omega)

end

end

/-- The data of a packet: delivered, buffered or already known. -/
theorem receivePayload_spec (h : Idle S isn cursor task) (hpkt : Carries S isn cursor pkt a b)
    (hfree : tcpSeqAfter (pkt.seq + ofNat pkt.payload.length) task.clientSeq = true →
      tcpSeqBeforeOrEqual pkt.seq task.clientSeq = true → RunsPastNone task pkt) :
    ∃ next, TurnSpec S isn cursor next (task.receivePayload pkt) ∧ (a ≤ cursor → b ≤ next) := by
  have hlen : pkt.payload.length = b - a := by rw [hpkt.payload, length_slice hpkt.within]
  by_cases hempty : pkt.payload = []
  · rw [hempty] at hlen
    simp at hlen
    refine ⟨cursor, ?_, by omega⟩
    simp only [receivePayload, hempty]
    exact h.turn
  have hafter := hpkt.seqAfter h.inv
  have hbefore := hpkt.seqBeforeOrEqual h.inv
  -- What follows when the packet has been placed and the loop goes on.
  have hgoesOn : ∀ {next quiet} {placed : RxTask}, task.place pkt = (placed, quiet) →
      placed.running = true →
      cursor ≤ next → TaskInv S isn next placed → placed.oooBytes ≤ tcpReorderBufferMaxBytes →
      (∀ action ∈ quiet, action.isQuiet = true) → written quiet = slice S cursor next →
      TurnSpec S isn cursor next (task.receivePayload pkt) := by
    intro next quiet placed hplace hrunning hle hinv hroom hquiet hwritten
    have heq : task.receivePayload pkt = (placed.acknowledge.1, quiet ++ placed.acknowledge.2) := by
      simp [receivePayload, hempty, hplace, hrunning]
    rw [heq]
    exact turnSpec_acknowledge hle hinv hroom hquiet hwritten
  by_cases hle : a ≤ cursor
  · have hend := hpkt.endAfter h.inv hle
    by_cases hnew : cursor < b
    · have hruns := hfree (by simp [hend, hnew]) (by simp [hbefore, hle])
      obtain ⟨next, hreach, hinv, hwritten, hbytes, hrunning⟩ :=
        deliver_spec h.inv hpkt hle hnew hruns
      have hplace : task.place pkt = task.deliver pkt := by
        simp [place, hend, hbefore, hle, hnew]
      exact ⟨next, hgoesOn hplace (hrunning.trans h.running) (by omega) hinv (hbytes.trans h.room)
        (deliver_quiet task pkt) hwritten, fun _ => hreach⟩
    have hplace : task.place pkt = (task, []) := by
      have hnot : ¬ cursor < a := by omega
      simp [place, hend, hafter, hnew, hnot]
    exact ⟨cursor, hgoesOn hplace h.running (le_refl _) h.inv h.room (by simp)
      (by simp [written, slice]), fun _ => by omega⟩
  · have hgap : cursor < a := by omega
    obtain ⟨hinv, hroom, hsound⟩ := buffer_spec h.inv hpkt hgap hempty
    have hplace : task.place pkt = task.buffer pkt := by simp [place, hafter, hbefore, hle]
    refine ⟨cursor, ?_, fun hle' => absurd hle' hle⟩
    cases hrunning : (task.buffer pkt).1.running with
    | true =>
      obtain ⟨hbytes, hnone⟩ := hroom hrunning
      have hwaits : task.place pkt = ((task.buffer pkt).1, []) := hplace.trans (Prod.ext rfl hnone)
      exact hgoesOn hwaits hrunning (le_refl _) hinv hbytes (by simp) (by simp [written, slice])
    | false =>
      have heq : task.receivePayload pkt = task.buffer pkt := by
        simp [receivePayload, hempty, hplace, hrunning]
      rw [heq]
      exact ⟨le_refl _, hinv, by simp [hrunning], by simp [hrunning], [], _, rfl, by simp,
        by simp [written, slice], hsound⟩

/-- The answer to a FIN, once all of the stream is delivered. -/
theorem receiveFin_spec (h : TaskInv S isn cursor task)
    (hpending : task.pendingAck = true → task.pendingAckSeq = task.clientSeq)
    (hall : cursor = S.length) :
    ∀ action ∈ task.receiveFin.2, action.isWrite = false ∧ SoundAt S isn cursor action := by
  intro action haction
  simp only [receiveFin, mem_append, mem_cons, not_mem_nil, or_false] at haction
  rcases haction with hack | rfl | rfl | rfl | rfl
  · cases hwaits : task.pendingAck with
    | false => simp [hwaits] at hack
    | true =>
      simp only [hwaits, if_true, mem_cons, not_mem_nil, or_false] at hack
      rcases hack with rfl | rfl
      · exact ⟨rfl, trivial⟩
      · exact ⟨rfl, (hpending hwaits).trans h.clientSeq⟩
  · exact ⟨rfl, trivial⟩
  · exact ⟨rfl, trivial⟩
  · exact ⟨rfl, by rw [h.clientSeq], hall⟩
  · exact ⟨rfl, hall⟩

/-- The guest's acknowledgement is taken first. -/
theorem TurnSpec.acked (h : TurnSpec S isn cursor next (task, actions)) (pkt : TunTcpPacket) :
    TurnSpec S isn cursor next (task,
      (if pkt.ack then [Action.advanceClientAcked pkt.ackNum] else []) ++ actions) := by
  obtain ⟨quiet, tail, hactions, hquiet, hwritten, hsound⟩ := h.actions
  refine ⟨h.le, h.task, h.room, h.pending,
    (if pkt.ack then [Action.advanceClientAcked pkt.ackNum] else []) ++ quiet, tail, ?_, ?_,
    ?_, hsound⟩
  · exact (congrArg _ hactions).trans (append_assoc _ quiet tail).symm
  · intro action haction
    rcases mem_append.mp haction with hack | hrest
    · cases hpkt : pkt.ack <;> simp [hpkt] at hack
      rw [hack]
      rfl
    · exact hquiet action hrest
  · cases pkt.ack <;> simp [written, hwritten]

/-- The turn ends with an answer to the FIN. -/
theorem TurnSpec.answered {fin : List Action} (h : TurnSpec S isn cursor next (task, actions))
    (hfin : ∀ action ∈ fin, action.isWrite = false ∧ SoundAt S isn next action) :
    TurnSpec S isn cursor next ({ task with running := false }, actions ++ fin) := by
  obtain ⟨quiet, tail, hactions, hquiet, hwritten, hsound⟩ := h.actions
  have hinv := h.task
  refine ⟨h.le, ⟨hinv.within, hinv.clientSeq, hinv.unique, hinv.charged, hinv.held⟩, by simp,
    by simp, quiet, tail ++ fin, ?_,
    hquiet, hwritten, ?_⟩
  · exact (congrArg (· ++ fin) hactions).trans (append_assoc quiet tail fin)
  intro action haction
  rcases mem_append.mp haction with htail | hend
  · exact hsound action htail
  · exact hfin action hend

theorem receive_spec (h : Idle S isn cursor task) (hrst : pkt.rst = false)
    (hpkt : Carries S isn cursor pkt a b)
    (hfin : pkt.fin = true → tcpSeqAfter pkt.seq task.clientSeq = false)
    (hfree : tcpSeqAfter (pkt.seq + ofNat pkt.payload.length) task.clientSeq = true →
      tcpSeqBeforeOrEqual pkt.seq task.clientSeq = true → RunsPastNone task pkt) :
    ∃ next, TurnSpec S isn cursor next (task.receive pkt) := by
  obtain ⟨next, hturn, hreach⟩ := receivePayload_spec h hpkt hfree
  refine ⟨next, ?_⟩
  unfold receive
  rw [hrst]
  dsimp only
  cases hrunning : (task.receivePayload pkt).1.running with
  | false => exact hturn.acked pkt
  | true =>
  cases hhas : pkt.fin with
  | false => exact hturn.acked pkt
  | true =>
  have hplace := hpkt.seqAfter h.inv
  rw [hfin hhas] at hplace
  have hall : next = S.length := by
    have hb := hpkt.fin hhas
    have hwithin := hturn.task.within
    have hab : ¬ cursor < a := by simpa using hplace.symm
    omega
  exact (hturn.acked pkt).answered (receiveFin_spec hturn.task (hturn.pending hrunning) hall)

/-- Every turn that finds the packet in order keeps the task's invariant. -/
theorem wake_spec {turn : Turn} (h : Idle S isn (written s.done).length s.task)
    (hlegal : Legal S isn s turn)
    (hfin : ∀ pkt, turn.wake = .packet pkt → pkt.rst = false → pkt.fin = true →
      tcpSeqAfter pkt.seq s.task.clientSeq = false) (horderly : Orderly s turn) :
    ∃ next, TurnSpec S isn (written s.done).length next (s.task.wake turn.wake) := by
  have hstop : TurnSpec S isn (written s.done).length (written s.done).length
      ({ s.task with running := false }, []) :=
    ⟨le_refl _, ⟨h.inv.within, h.inv.clientSeq, h.inv.unique, h.inv.charged, h.inv.held⟩, by simp,
      by simp, [], [],
      rfl, by simp, by simp [written, slice], by simp⟩
  unfold Legal at hlegal
  unfold Orderly at horderly
  cases hwake : turn.wake with
  | packet pkt =>
    rw [hwake] at hlegal horderly
    dsimp only at hlegal horderly
    cases hrst : pkt.rst with
    | true =>
      refine ⟨(written s.done).length, ?_⟩
      simp only [wake, receive, hrst]
      exact hstop
    | false =>
      rw [hrst] at hlegal
      obtain ⟨a, b, hpkt⟩ := hlegal.resolve_left (by simp)
      exact receive_spec h hrst hpkt (hfin pkt hwake hrst) (horderly hrst).2
  | ackTimeout =>
    refine ⟨(written s.done).length, ?_⟩
    simp only [wake, ackTimeout]
    split
    · next hpending =>
        refine ⟨le_refl _, ⟨h.inv.within, h.inv.clientSeq, h.inv.unique, h.inv.charged, h.inv.held⟩,
          fun _ => h.room, by simp, [], _, rfl, by simp, by simp [written, slice], ?_⟩
        simp [Action.isWrite, SoundAt, h.pending hpending, h.inv.clientSeq]
    · exact h.turn
  | closed => exact ⟨_, hstop⟩

/-! ## A FIN that is not looked at -/

section Unseen

variable {accepts : Nat → Bool}

theorem tcpSeqBeforeOrEqual_of_after {seq other : UInt32} (h : tcpSeqAfter seq other = true) :
    tcpSeqBeforeOrEqual seq other = false := by
  simp only [tcpSeqAfter, tcpSeqBeforeOrEqual, decide_eq_true_eq, decide_eq_false_iff_not] at h ⊢
  omega

/-- Such a segment ends the loop, or takes no action before the acknowledgement that is refused. -/
theorem receivePayload_ends (hahead : tcpSeqAfter pkt.seq task.clientSeq = true)
    (h : EndsBeforeFin task pkt accepts) : (task.receivePayload pkt).1.running = false ∨
      accepts 0 = false ∧ ∃ ack,
        (task.receivePayload pkt).2 = [.loadServerSeq, .sendAck ack true] := by
  obtain ⟨hpayload, hends⟩ := h
  have hplace : task.place pkt = task.buffer pkt := by
    simp [place, hahead, tcpSeqBeforeOrEqual_of_after hahead]
  simp only [receivePayload, if_neg hpayload, hplace]
  by_cases hfull : Overfills task pkt
  · left
    unfold Overfills at hfull
    simp [buffer, hfull]
  · obtain ⟨hdue, hrefused⟩ := hends.resolve_left hfull
    unfold Overfills at hfull
    cases hrunning : task.running with
    | false =>
      left
      simp [buffer, hfull, hrunning]
    | true =>
      right
      simp [buffer, hfull, hrunning, acknowledge, hdue, hrefused]

theorem perform_refused (h : ∀ action ∈ quiet, action.isQuiet = true) (ack : UInt32)
    (rest : List Action) (hrefused : accepts 0 = false) :
    perform (quiet ++ .sendAck ack true :: rest) accepts = (quiet, false) := by
  rw [perform_quiet h]
  simp [perform, hrefused]

def TunTcpPacket.withoutFin (pkt : TunTcpPacket) : TunTcpPacket := { pkt with fin := false }

/-- What is done for the guest's acknowledgement. -/
def TunTcpPacket.acked (pkt : TunTcpPacket) : List Action :=
  if pkt.ack then [.advanceClientAcked pkt.ackNum] else []

theorem TunTcpPacket.acked_quiet (pkt : TunTcpPacket) :
    ∀ action ∈ pkt.acked, action.isQuiet = true := by
  unfold TunTcpPacket.acked
  cases pkt.ack <;> simp [Action.isQuiet]

theorem receive_of_unseen (hrst : pkt.rst = false)
    (hunseen : pkt.fin = false ∨ (task.receivePayload pkt).1.running = false) :
    task.receive pkt = ((task.receivePayload pkt).1, pkt.acked ++ (task.receivePayload pkt).2) := by
  unfold receive
  rw [hrst]
  dsimp only [TunTcpPacket.acked]
  rcases hunseen with hfin | hstops
  · rw [hfin]
    cases (task.receivePayload pkt).1.running <;> rfl
  · rw [hstops]
    rfl

theorem receive_of_fin (hrst : pkt.rst = false) (hfin : pkt.fin = true)
    (hrunning : (task.receivePayload pkt).1.running = true) :
    task.receive pkt = ({ (task.receivePayload pkt).1 with running := false },
      pkt.acked ++ (task.receivePayload pkt).2 ++ (task.receivePayload pkt).1.receiveFin.2) := by
  unfold receive
  rw [hrst]
  dsimp only [TunTcpPacket.acked]
  rw [hrunning, hfin]
  rfl

/-- The turn is then the one of the segment without its FIN. -/
theorem rxStep_withoutFin (hrst : pkt.rst = false)
    (hahead : tcpSeqAfter pkt.seq s.task.clientSeq = true)
    (hends : EndsBeforeFin s.task pkt accepts) : rxStep s ⟨.packet pkt, accepts⟩ =
      { rxStep s ⟨.packet pkt.withoutFin, accepts⟩ with
        finSeen := (rxStep s ⟨.packet pkt, accepts⟩).finSeen } := by
  have hwithout : s.task.receive pkt.withoutFin =
      ((s.task.receivePayload pkt).1, pkt.acked ++ (s.task.receivePayload pkt).2) :=
    receive_of_unseen (show pkt.withoutFin.rst = false from hrst) (.inl rfl)
  unfold rxStep
  simp only [wake, hwithout]
  split
  · rfl
  by_cases hunseen : pkt.fin = false ∨ (s.task.receivePayload pkt).1.running = false
  · rw [receive_of_unseen hrst hunseen]
  · rw [not_or, Bool.not_eq_false, Bool.not_eq_false] at hunseen
    obtain ⟨hrefused, ack, hactions⟩ :=
      (receivePayload_ends hahead hends).resolve_left (by simp [hunseen.2])
    -- the refused acknowledgement is the first packet of both turns
    have hperform : ∀ rest, perform (pkt.acked ++ ([.loadServerSeq, .sendAck ack true] ++ rest))
        accepts =
        (pkt.acked ++ [.loadServerSeq], false) := by
      intro rest
      have hquiet : ∀ action ∈ pkt.acked ++ [.loadServerSeq], action.isQuiet = true :=
        forall_mem_append.mpr ⟨pkt.acked_quiet, by simp [Action.isQuiet]⟩
      simpa using perform_refused hquiet ack rest hrefused
    have hfirst := hperform []
    rw [append_nil] at hfirst
    rw [receive_of_fin hrst hunseen.1 hunseen.2, hactions, append_assoc, hperform, hfirst,
      Bool.and_false, Bool.and_false]

end Unseen

/-! ## Runs keep it -/

variable {before : List Action}

theorem Action.isQuiet.sound (h : action.isQuiet = true) : ActionSound S isn before action := by
  cases action with
  | advanceClientAcked | loadServerSeq | write | storeClientSeq => trivial
  | sendAck | sendReset | sendFin | shutdown => cases h

theorem SoundAt.sound (hnext : next ≤ S.length)
    (hbefore : written before = S.take next) (h : SoundAt S isn next action) :
    ActionSound S isn before action := by
  have hlen : (written before).length = next := by rw [hbefore, length_take, min_eq_left hnext]
  have hall : next = S.length → written before = S := fun heq => by rw [hbefore, heq, take_length]
  cases action with
  | sendAck | sendReset => exact h.trans (by rw [hlen])
  | sendFin => exact ⟨h.1.trans (by rw [hlen]), hall h.2⟩
  | shutdown => exact hall h
  | advanceClientAcked | loadServerSeq | write | storeClientSeq => trivial

/-- Every action of `log` is sound after `before` and the actions of `log` in front of it. -/
def LogSound (S : Bytes) (isn : UInt32) : List Action → List Action → Prop
  | _, [] => True
  | before, action :: log =>
    ActionSound S isn before action ∧ LogSound S isn (before ++ [action]) log

theorem LogSound.append {more : List Action} (h : LogSound S isn before log)
    (hmore : LogSound S isn (before ++ log) more) : LogSound S isn before (log ++ more) := by
  induction log generalizing before with
  | nil => simpa using hmore
  | cons action log ih => exact ⟨h.1, ih h.2 (by simpa using hmore)⟩

theorem LogSound.of_split {after : List Action} (h : LogSound S isn before log)
    (hlog : log = l ++ action :: after) : ActionSound S isn (before ++ l) action := by
  induction l generalizing before log with
  | nil =>
    subst hlog
    simpa using h.1
  | cons first l ih =>
    subst hlog
    have := ih h.2 rfl
    simpa using this

theorem logSound_quiet (h : ∀ action ∈ log, action.isQuiet = true) : LogSound S isn before log := by
  induction log generalizing before with
  | nil => trivial
  | cons action log ih =>
    exact ⟨Action.isQuiet.sound (h action mem_cons_self), ih (forall_mem_cons.mp h).2⟩

theorem logSound_tail (hnext : next ≤ S.length) (hbefore : written before = S.take next)
    (h : ∀ action ∈ log, action.isWrite = false ∧ SoundAt S isn next action) :
    LogSound S isn before log := by
  induction log generalizing before with
  | nil => trivial
  | cons action log ih =>
    obtain ⟨hwrite, hsound⟩ := h action mem_cons_self
    refine ⟨hsound.sound hnext hbefore, ih ?_ (forall_mem_cons.mp h).2⟩
    have hnone : written [action] = [] := written_of_no_write (by simpa using hwrite)
    rw [written_append, hnone, append_nil, hbefore]

/-- The invariant of a flow. -/
structure RxInv (S : Bytes) (isn : UInt32) (s : RxState) : Prop where
  delivered : written s.done = S.take (written s.done).length
  inv : TaskInv S isn (written s.done).length s.task
  idle : s.task.running = true → Idle S isn (written s.done).length s.task
  actions : LogSound S isn [] s.done
  finSeen : ∀ ack, .sendFin ack ∈ s.done → s.finSeen = true

theorem RxInv.new (S : Bytes) (isn : UInt32) : RxInv S isn (.new isn) := by
  have hinv : TaskInv S isn 0 (.new (isn + 1)) :=
    ⟨zero_le _, by simp [RxTask.new, position], nodup_nil, rfl, by simp [RxTask.new]⟩
  have hidle : Idle S isn 0 (.new (isn + 1)) := ⟨hinv, rfl, zero_le _, fun _ => rfl⟩
  exact ⟨rfl, hinv, fun _ => hidle, trivial, by simp [RxState.new]⟩

theorem not_sendFin_of_quiet (h : action.isQuiet = true) : action ≠ .sendFin ack := by
  rintro rfl
  cases h

theorem receivePayload_no_fin (task : RxTask) (pkt : TunTcpPacket) (ack : UInt32) :
    .sendFin ack ∉ (task.receivePayload pkt).2 := by
  have hplace : .sendFin ack ∉ (task.place pkt).2 := by
    unfold place
    dsimp only
    split
    · exact fun hmem => not_sendFin_of_quiet (deliver_quiet task pkt _ hmem) rfl
    split
    · unfold buffer
      dsimp only
      split <;> simp
    · simp
  have hack : ∀ t : RxTask, .sendFin ack ∉ t.acknowledge.2 := by
    intro t
    unfold acknowledge
    dsimp only
    split <;> simp
  unfold receivePayload
  dsimp only
  split
  · simp
  split
  · exact hplace
  · simp [hplace, hack]

/-- Only the guest's FIN is answered with a FIN. -/
theorem hasFin_of_sendFin {wake : Wake} (h : .sendFin ack ∈ (task.wake wake).2) :
    wake.hasFin = true := by
  cases wake with
  | packet pkt =>
    by_contra hfin
    have hnone : pkt.fin = false := by simpa [Wake.hasFin] using hfin
    revert h
    simp only [wake, receive, hnone]
    split
    · simp
    · split <;> cases pkt.ack <;> simp [receivePayload_no_fin]
  | ackTimeout =>
    revert h
    simp only [wake, ackTimeout]
    split <;> simp
  | closed => simp [wake] at h

/-- A turn with nothing missing before its FIN. -/
theorem RxInv.step_inOrder (h : RxInv S isn s) {turn : Turn} (hlegal : Legal S isn s turn)
    (hfin : ∀ pkt, turn.wake = .packet pkt → pkt.rst = false → pkt.fin = true →
      tcpSeqAfter pkt.seq s.task.clientSeq = false)
    (horderly : Orderly s turn) : RxInv S isn (rxStep s turn) := by
  unfold rxStep
  cases hrunning : s.task.running with
  | false => exact h
  | true =>
  obtain ⟨next, hle, hinv, hroom, hpending, quiet, tail, hactions, hquiet, hwritten, hsound⟩ :=
    wake_spec (h.idle hrunning) hlegal hfin horderly
  have hperform := perform_quiet hquiet tail turn.accepts
  rw [← hactions] at hperform
  have hsub := perform_sublist tail turn.accepts
  have htail : ∀ action ∈ (perform tail turn.accepts).1, action.isWrite = false ∧
      SoundAt S isn next action :=
    fun action haction => hsound action (hsub.subset haction)
  -- What has been delivered after the turn.
  have hquietly : written (s.done ++ quiet) = S.take next := by
    rw [written_append, hwritten, ← take_append_slice hle, ← h.delivered]
  have hnow : written (s.done ++ (perform (s.task.wake turn.wake).2 turn.accepts).1) =
      S.take next := by
    rw [hperform, ← append_assoc, written_append, hquietly,
      written_of_no_write fun action haction => (htail action haction).1, append_nil]
  have hlen : (S.take next).length = next := by rw [length_take, min_eq_left hinv.within]
  simp only [Bool.not_true, Bool.false_eq_true, if_false]
  refine ⟨?_, ?_, fun hgoes => ?_, ?_, fun ack hack => ?_⟩
  · simp only [hnow, hlen]
  · simp only [hnow, hlen]
    exact ⟨hinv.within, hinv.clientSeq, hinv.unique, hinv.charged, hinv.held⟩
  · simp only [hnow, hlen]
    have hgoes' := (Bool.and_eq_true_iff.mp hgoes).1
    exact ⟨⟨hinv.within, hinv.clientSeq, hinv.unique, hinv.charged, hinv.held⟩, hgoes,
      hroom hgoes', hpending hgoes'⟩
  · refine h.actions.append ?_
    rw [hperform]
    refine (logSound_quiet hquiet).append (logSound_tail hinv.within ?_ htail)
    simpa using hquietly
  · rcases mem_append.mp hack with hold | hnew
    · simp [h.finSeen ack hold]
    · have hmem := (perform_sublist _ _).subset hnew
      simp [hasFin_of_sendFin hmem]

theorem RxInv.step (h : RxInv S isn s) {turn : Turn} (hlegal : Legal S isn s turn)
    (horderly : Orderly s turn) :
    RxInv S isn (rxStep s turn) := by
  obtain ⟨wake, accepts⟩ := turn
  by_cases hearly : ∃ pkt, wake = .packet pkt ∧ pkt.rst = false ∧ pkt.fin = true ∧
      tcpSeqAfter pkt.seq s.task.clientSeq = true
  · obtain ⟨pkt, rfl, hrst, hfin, hahead⟩ := hearly
    have hlegal' : Legal S isn s ⟨.packet pkt.withoutFin, accepts⟩ := by
      obtain ⟨a, b, hpkt⟩ := hlegal.resolve_left (by simp [hrst])
      exact .inr ⟨a, b, hpkt.le, hpkt.within, hpkt.seq, hpkt.payload, hpkt.notAhead, hpkt.notBehind,
        by rintro ⟨⟩⟩
    have horderly' : Orderly s ⟨.packet pkt.withoutFin, accepts⟩ := by
      refine fun _ => ⟨by rintro ⟨⟩, fun hafter hbefore => ?_⟩
      have hfree := (horderly hrst).2 hafter hbefore
      exact ⟨hfree.packet, hfree.buffered⟩
    have hwithout := h.step_inOrder hlegal' (by rintro _ ⟨⟩ _ ⟨⟩) horderly'
    rw [rxStep_withoutFin hrst hahead ((horderly hrst).1 hfin hahead)]
    refine ⟨hwithout.delivered, hwithout.inv, hwithout.idle, hwithout.actions, fun ack hack => ?_⟩
    have hseen := hwithout.finSeen ack hack
    unfold rxStep at hseen ⊢
    split at hseen <;> simp_all [TunTcpPacket.withoutFin, Wake.hasFin]
  · refine h.step_inOrder hlegal (fun pkt hwake hrst hfin => ?_) horderly
    rw [← Bool.not_eq_true]
    exact fun hahead => hearly ⟨pkt, hwake, hrst, hfin, hahead⟩

end Invariant

/-! ## The result -/

/-- A FIN with nothing before it, for a stream of two bytes. -/
def earlyFin : Turn := ⟨.packet ⟨3, false, 0, true, false, [], zero_le _⟩, fun _ => true⟩

theorem earlyFin_legal : Legal [1, 2] 0 (.new 0) earlyFin := by
  refine .inr ⟨2, 2, le_refl _, le_refl _, rfl, rfl, by decide, by decide, fun _ => rfl⟩

/-- An early FIN is answered at once: the backend is shut down with nothing written. -/
theorem early_fin_truncates :
    ¬ ∀ (S : Bytes) (isn : UInt32) (turns : List Turn), Runs.Along rxStep (Legal S isn)
    (.new isn) turns →
      Reassembles S isn (Runs.exec rxStep (.new isn) turns) := by
  intro hall
  have hsound := hall [1, 2] 0 [earlyFin] ⟨earlyFin_legal, trivial⟩
  have hshut : written [.loadServerSeq, .storeClientSeq 2, .sendFin 2] = [1, 2] :=
    hsound.actions [.loadServerSeq, .storeClientSeq 2, .sendFin 2] .shutdown [] rfl
  exact absurd hshut (by decide)

/-- The proxy reassembles the guest's stream exactly in every run in which each FIN that it looks at
arrives with nothing missing before it and no delivered segment runs past a buffered one. -/
theorem reassembles_of_orderly (S : Bytes) (isn : UInt32) (turns : List Turn)
    (hrun : Runs.Along rxStep (fun s turn => Legal S isn s turn ∧ Orderly s turn) (.new isn)
      turns) :
    Reassembles S isn (Runs.exec rxStep (.new isn) turns) := by
  have h : RxInv S isn (Runs.exec rxStep (.new isn) turns) :=
    Runs.Along.invariant (fun s turn hs hok => hs.step hok.1 hok.2) (.new S isn) hrun
  refine ⟨?_, fun before action after hsplit => ?_, h.finSeen, h.inv.charged,
    fun entry hentry => ?_⟩
  · rw [h.delivered]
    exact take_prefix _ _
  · simpa using h.actions.of_split hsplit
  · obtain ⟨a, ha⟩ := h.inv.held entry hentry
    exact ha.awaited

/-- The bytes of a two-byte stream, the second one first, and then again with the FIN. -/
def secondByte : Turn :=
  ⟨.packet ⟨2, false, 0, false, false, [2], le_of_ble_eq_true rfl⟩, fun _ => true⟩

def firstByte : Turn := ⟨.packet ⟨1, false, 0, false, false, [1], le_of_ble_eq_true rfl⟩,
    fun _ => true⟩

def secondByteFin : Turn :=
  ⟨.packet ⟨2, true, 1, true, false, [2], le_of_ble_eq_true rfl⟩, fun _ => true⟩

theorem reordered_reassembles :
    Reassembles [1, 2] 0 (Runs.exec rxStep (.new 0) [secondByte, firstByte, secondByteFin]) ∧
      written (Runs.exec rxStep (.new 0) [secondByte, firstByte, secondByteFin]).done = [1, 2] := by
  refine ⟨reassembles_of_orderly [1, 2] 0 _ ⟨⟨?_, ?_⟩, ⟨?_, ?_⟩, ⟨?_, ?_⟩, trivial⟩, by decide⟩
  · exact .inr ⟨1, 2, by decide, by decide, rfl, rfl, by decide, by decide, by rintro ⟨⟩⟩
  · exact fun _ => ⟨by rintro ⟨⟩, fun _ hbefore => absurd hbefore (by decide)⟩
  · exact .inr ⟨0, 1, by decide, by decide, rfl, rfl, by decide, by decide, by rintro ⟨⟩⟩
  · have htask : (rxStep (.new 0) secondByte).task = ⟨1, [(2, [2])], 1, true, 1, 1, true⟩ := by
      decide
    refine fun _ => ⟨by rintro ⟨⟩, fun _ _ => ⟨?_, ?_⟩⟩
    · rw [htask]
      intro entry hentry
      obtain rfl : entry = (2, [2]) := by simpa using hentry
      show ¬ (2 + ofNat 1 - 1).toNat ≤ (1 + ofNat 1 - 1).toNat
      decide
    rw [htask]
    intro entry hentry _ other hother hne
    obtain rfl : entry = (2, [2]) := by simpa using hentry
    obtain rfl : other = (2, [2]) := by simpa using hother
    exact absurd rfl hne
  · exact .inr ⟨1, 2, by decide, by decide, rfl, rfl, by decide, by decide, fun _ => rfl⟩
  · exact fun _ =>
      ⟨fun _ hahead => absurd hahead (by decide), fun hafter => absurd hafter (by decide)⟩

end QuicLite.Tun

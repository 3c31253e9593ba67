import QuicLite.Tun.Flow

/-!
# Half-closed flows

`handle_tcp_flow` and `handle_inbound_tcp_flow` both end in a `select!` that joins `rx_task` and
`tx_task`: the task that ends first aborts the other one, so that no task and no descriptor leaks.
An aborted task ends where it waits next; a write it is in the middle of stays half done.

Here the guest sends its stream `S` in order and again until it is acknowledged, the backend (or the
caller on the mesh) sends `B` and closes, and nothing fails. What survives of both streams then
depends only on which task was aborted.
-/

namespace QuicLite.Tun

open Serial List Bool Nat QuicLite.Tun.Action RxTask RxProcess
open QuicLite.Tun.Flow hiding next

/-! ## The inbound handler -/

variable {next : Nat} {data : Bytes} {event : TxEvent}

namespace RxTask

/-- There is no reorder buffer: a segment without the next byte is dropped. -/
def deliverInbound (self : RxTask) (pkt : TunTcpPacket) : RxTask × List Action :=
  let segmentEnd := pkt.seq + UInt32.ofNat pkt.payload.length
  if tcpSeqAfter segmentEnd self.clientSeq && tcpSeqBeforeOrEqual pkt.seq self.clientSeq then
    let newData := pkt.payload.drop (self.clientSeq - pkt.seq).toNat
    if newData = [] then (self, [])
    else
      let clientSeq := self.clientSeq + UInt32.ofNat newData.length
      ({ self with clientSeq := clientSeq }, [.write newData, .storeClientSeq clientSeq])
  else (self, [])

/-- Every segment with data is acknowledged at once. -/
def receivePayloadInbound (self : RxTask) (pkt : TunTcpPacket) : RxTask × List Action :=
  if pkt.payload = [] then (self, [])
  else
    let (next, actions) := self.deliverInbound pkt
    (next, actions ++ [.loadServerSeq, .sendAck next.clientSeq false])

def receiveFinInbound (self : RxTask) : RxTask × List Action :=
  let finalGuestSeq := self.clientSeq + 1
  ({ self with running := false }, [.loadServerSeq, .storeClientSeq finalGuestSeq,
    .sendFin finalGuestSeq, .shutdown])

def receiveInbound (self : RxTask) (pkt : TunTcpPacket) : RxTask × List Action :=
  if pkt.rst then ({ self with running := false }, [])
  else
    let acked : List Action := if pkt.ack then [.advanceClientAcked pkt.ackNum] else []
    let (next, actions) := self.receivePayloadInbound pkt
    if pkt.fin then
      let (next, fin) := next.receiveFinInbound
      (next, acked ++ actions ++ fin)
    else (next, acked ++ actions)

end RxTask

/-- `handle_tcp_flow` serves a flow that the guest opened, `handle_inbound_tcp_flow` one that was
opened towards the guest. They differ in what `rx_task` does with a packet. -/
inductive Handler where
  | outbound
  | inbound

/-- Only `handle_tcp_flow` delays acknowledgements. -/
def Handler.wake : Handler → RxTask → Wake → RxTask × List Action
  | .outbound, task, wake => task.wake wake
  | .inbound, task, .packet pkt => task.receiveInbound pkt
  | .inbound, task, .ackTimeout => (task, [])
  | .inbound, task, .closed => ({ task with running := false }, [])

def Flow.rxStepOf (handler : Handler) (self : Flow) : RxEvent → Flow
  | .wake wake =>
    if self.rx.task.running && self.rx.todo.isEmpty then
      let (task, actions) := handler.wake self.rx.task wake
      { self with rx := { self.rx with task := task, todo := actions } }
    else self
  | event => self.rxStep event

/-! ## The two tasks and the select -/

variable (self : Flow)

/-- How many bytes the backend's answer to a read takes from its stream. -/
def Flow.reads : TxEvent → Nat
  | .read data => if self.tx = .reading then data.length else 0
  | _ => 0

/-- The FIN of `tx_task` is accepted. -/
def Flow.announces : TxEvent → Bool
  | .step ok => match self.tx with
      | .sendFin .. => ok
      | _ => false
  | _ => false

def Action.refused (ok : Bool) : Action → Bool
  | .sendAck .. | .sendReset _ | .sendFin _ => !ok
  | _ => false

/-- What a step of `rx_task` has done. A comparison of `client_acked` that has to be made again has
done nothing. -/
def Flow.performed : RxEvent → List Action
  | .step ok =>
    match self.rx.todo with
    | [] => []
    | action :: rest =>
      if !action.refused ok && (self.perform ok rest action).rx.todo.length ≤ rest.length then
        [action] else []
  | _ => []

/-- The select aborts `tx_task` before it has ended. -/
def Flow.stopsTx : TxEvent → Bool
  | .abort => !self.tx.finished && (self.txStep .abort).tx.finished
  | _ => false

def Flow.stopsRx : RxEvent → Bool
  | .abort => !self.rx.finished && (self.rxStep .abort).rx.finished
  | _ => false

/-- A flow with what has become of the two streams: what `rx_task` has done, how many bytes
`tx_task` has read and whether its FIN was accepted, and which of the two was aborted. -/
structure Joined where
  flow : Flow
  done : List Action
  readBytes : Nat
  announced : Bool
  rxAborted : Bool
  txAborted : Bool
  deriving Repr

def Joined.new (initialServerSeq clientSeq : UInt32) : Joined :=
  ⟨.new initialServerSeq clientSeq, [], 0, false, false, false⟩

/-- A step of either task, or an abort of `rx_task` when `written` bytes of the write it performs
have gone out. -/
inductive JoinEvent where
  | tx (event : TxEvent)
  | rx (event : RxEvent)
  | cutWrite (written : Nat)

def Joined.cutWrite (self : Joined) (written : Nat) : Joined :=
  match self.flow.rx.todo with
  | .write data :: _ =>
    if self.flow.tx.finished then
      { self with
        flow := { self.flow with rx := self.flow.rx.abort }
        done := self.done ++ [.write (data.take written)]
        rxAborted := true }
    else self
  | _ => self

def Joined.step (handler : Handler) (self : Joined) : JoinEvent → Joined
  | .tx event =>
    { self with
      flow := self.flow.txStep event
      readBytes := self.readBytes + self.flow.reads event
      announced := self.announced || self.flow.announces event
      txAborted := self.txAborted || self.flow.stopsTx event }
  | .rx event =>
    { self with
      flow := self.flow.rxStepOf handler event
      done := self.done ++ self.flow.performed event
      rxAborted := self.rxAborted || self.flow.stopsRx event }
  | .cutWrite written => self.cutWrite written

/-! ## The specification -/

/-- The next action compares `client_acked`, and may have to compare it again. -/
def compares : List Action → Bool
  | .advanceClientAcked _ :: _ => true
  | _ => false

/-- The guest's segments are in order, the backend closes at the end of its stream, and nothing
fails: no reset, no error, no time-out, no packet refused. The flow's sender is dropped only when
the handler has returned. -/
def Allowed (S B : Bytes) (isn : UInt32) (s : Joined) : JoinEvent → Prop
  | .tx (.read data) => data <+: B.drop s.readBytes ∧ (data = [] → B.length ≤ s.readBytes)
  | .tx (.step ok) => ok = true
  | .tx .readError | .tx .timeout => False
  | .rx (.wake (.packet pkt)) =>
    pkt.rst = false ∧ ∃ a b, Carries S isn (written s.done).length pkt a b ∧
      a ≤ (written s.done).length
  | .rx (.wake .closed) => False
  | .rx (.step ok) => ok = true ∨ compares s.flow.rx.todo = true
  | .tx .abort | .rx (.wake .ackTimeout) | .rx .abort | .cutWrite _ => True

/-- What is delivered of both streams: in order, the end of each only after all of it, and all of it
when the task that delivers it has ended by itself. Only one of the tasks is ever aborted, after the
other one has ended. -/
structure HalfClosed (S B : Bytes) (isn : UInt32) (s : Joined) : Prop where
  toBackend : written s.done <+: S
  toGuest : sent s.flow.output <+: B
  announced : s.announced = true → sent s.flow.output = B
  answered : ∀ ack, .sendFin ack ∈ s.done → ack = position isn S.length + 1 ∧ written s.done = S
  passedOn : .shutdown ∈ s.done → written s.done = S
  rxEnded : s.flow.rx.finished = true → s.rxAborted = false →
    written s.done = S ∧ .shutdown ∈ s.done ∧ .sendFin (position isn S.length + 1) ∈ s.done
  txEnded : s.flow.tx.finished = true → s.txAborted = false →
    sent s.flow.output = B ∧ s.announced = true
  rxAborted : s.rxAborted = true → s.flow.tx.finished = true ∧ s.txAborted = false
  txAborted : s.txAborted = true → s.flow.rx.finished = true ∧ s.rxAborted = false

/-! ## A turn of either handler -/

section Turn

variable {S : Bytes} {isn : UInt32} {cursor a b : Nat} {task : RxTask} {pkt : TunTcpPacket}

/-- What an in-order guest leaves of the local variables: nothing waits in the reorder buffer, and
`rx_task` of the inbound handler owes no acknowledgement. -/
structure Handler.Settled (handler : Handler) (task : RxTask) : Prop where
  oooBuf : task.oooBuf = []
  pendingAck : handler = .inbound → task.pendingAck = false

/-- The turn answers the guest's FIN and passes it on. -/
def Answers (actions : List Action) : Prop := .shutdown ∈ actions ∧ ∃ ack, .sendFin ack ∈ actions

/-- Without a reorder buffer both handlers place a segment the same way, unless it lies ahead. -/
theorem place_eq_deliverInbound (hbuf : task.oooBuf = [])
    (hahead : tcpSeqAfter pkt.seq task.clientSeq = false) :
    task.place pkt = task.deliverInbound pkt := by
  unfold place deliverInbound deliver
  rw [hbuf, hahead]
  rfl

/-- A buffer with nothing in it is run past by nothing. -/
theorem runsPastNone_nil (hbuf : task.oooBuf = []) : RunsPastNone task pkt := by
  refine ⟨?_, ?_⟩ <;>
  · rw [hbuf]
    intro entry hentry
    cases hentry

/-- The data of an in-order segment. -/
theorem deliverInbound_spec (h : TaskInv S isn cursor task) (hbuf : task.oooBuf = [])
    (hpkt : Carries S isn cursor pkt a b) (hle : a ≤ cursor) :
    ∃ next, b ≤ next ∧ cursor ≤ next ∧ TaskInv S isn next (task.deliverInbound pkt).1 ∧
      written (task.deliverInbound pkt).2 = slice S cursor next ∧
      (∀ action ∈ (task.deliverInbound pkt).2, action.isQuiet = true) ∧
      (task.deliverInbound pkt).1 = { task with
        clientSeq := (task.deliverInbound pkt).1.clientSeq } := by
  have hahead : tcpSeqAfter pkt.seq task.clientSeq = false := by
    rw [hpkt.seqAfter h]
    exact decide_eq_false (not_lt.mpr hle)
  have hsame : (task.deliverInbound pkt).1 = { task with
      clientSeq := (task.deliverInbound pkt).1.clientSeq } := by
    unfold deliverInbound
    dsimp only
    split
    · split
      · rfl
      · rfl
    · rfl
  rw [← place_eq_deliverInbound hbuf hahead] at hsame ⊢
  have hend := hpkt.endAfter h hle
  have hbefore := hpkt.seqBeforeOrEqual h
  by_cases hnew : cursor < b
  · have hplace : task.place pkt = task.deliver pkt := by simp [place, hend, hbefore, hle, hnew]
    rw [hplace] at hsame ⊢
    obtain ⟨next, hreach, hinv, hwritten, -, -⟩ :=
      deliver_spec h hpkt hle hnew (runsPastNone_nil hbuf)
    exact ⟨next, hreach, by omega, hinv, hwritten, deliver_quiet task pkt, hsame⟩
  have hplace : task.place pkt = (task, []) := by simp [place, hend, hahead, hnew]
  rw [hplace]
  exact ⟨cursor, not_lt.mp hnew, le_refl _, h, by simp [written, slice], by simp, rfl⟩

/-- A turn of the outbound handler ends the loop only with its answer to the FIN. -/
theorem receive_ends (hrunning : task.running = true) (hrst : pkt.rst = false)
    (hbuf : task.oooBuf = [])
    (hplace : (task.place pkt).1 = { task with clientSeq := (task.place pkt).1.clientSeq }) :
    (task.receive pkt).1.oooBuf = [] ∧
      ((task.receive pkt).1.running = false → Answers (task.receive pkt).2) := by
  have hpayload : (task.receivePayload pkt).1.oooBuf = [] ∧ (task.receivePayload pkt).1.running =
      true := by
    have hnext : (task.place pkt).1.oooBuf = [] ∧ (task.place pkt).1.running = true := by
      rw [hplace]
      exact ⟨hbuf, hrunning⟩
    unfold receivePayload
    dsimp only
    rw [hnext.2]
    split
    · exact ⟨hbuf, hrunning⟩
    show (task.place pkt).1.acknowledge.1.oooBuf = [] ∧
      (task.place pkt).1.acknowledge.1.running = true
    unfold acknowledge
    dsimp only
    split
    · exact hnext
    · exact hnext
  unfold receive
  rw [hrst]
  dsimp only
  rw [hpayload.2]
  cases pkt.fin with
  | false => exact ⟨hpayload.1, fun hended => absurd (hpayload.2.symm.trans hended) (by simp)⟩
  | true => exact ⟨hpayload.1, fun _ => by simp [Answers, receiveFin]⟩

/-- The data of an in-order segment is written and acknowledged, and the inbound handler goes on. -/
theorem receivePayloadInbound_spec (h : Idle S isn cursor task)
    (hsettled : Handler.inbound.Settled task) (hpkt : Carries S isn cursor pkt a b)
    (hle : a ≤ cursor) :
    ∃ next, b ≤ next ∧ TurnSpec S isn cursor next (task.receivePayloadInbound pkt) ∧
      Handler.inbound.Settled (task.receivePayloadInbound pkt).1 ∧
        (task.receivePayloadInbound pkt).1.running = true := by
  unfold receivePayloadInbound
  split
  · next hempty =>
      have hlen : pkt.payload.length = b - a := by rw [hpkt.payload, length_slice hpkt.within]
      rw [hempty] at hlen
      have hnone : 0 = b - a := hlen
      exact ⟨cursor, by omega, h.turn, hsettled, h.running⟩
  obtain ⟨next, hreach, hle', hinv, hwritten, hquiet, hsame⟩ :=
    deliverInbound_spec h.inv hsettled.oooBuf hpkt hle
  have hnext : Handler.inbound.Settled (task.deliverInbound pkt).1 := by
    rw [hsame]
    exact ⟨hsettled.oooBuf, hsettled.pendingAck⟩
  refine ⟨next, hreach, ?_, hnext, ?_⟩
  · refine ⟨hle', hinv, fun _ => ?_, fun _ hpending => ?_, _, _, rfl, hquiet, hwritten, ?_⟩
    · show (task.deliverInbound pkt).1.oooBytes ≤ tcpReorderBufferMaxBytes
      rw [hinv.charged, hnext.oooBuf]
      exact zero_le _
    · exact absurd (hpending.symm.trans (hnext.pendingAck rfl)) (by simp)
    · simp [isWrite, SoundAt, hinv.clientSeq]
  show (task.deliverInbound pkt).1.running = true
  rw [hsame]
  exact h.running

/-- The inbound handler's answer to a FIN, once all of the stream is written. -/
theorem receiveFinInbound_sound (h : TaskInv S isn next task) (hall : next = S.length) :
    ∀ action ∈ task.receiveFinInbound.2, action.isWrite = false ∧ SoundAt S isn next action := by
  simp [receiveFinInbound, isWrite, SoundAt, h.clientSeq, hall]

/-- A turn of the inbound handler. -/
theorem receiveInbound_spec (h : Idle S isn cursor task) (hsettled : Handler.inbound.Settled task)
    (hrst : pkt.rst = false) (hpkt : Carries S isn cursor pkt a b) (hle : a ≤ cursor) :
    ∃ next, TurnSpec S isn cursor next (task.receiveInbound pkt) ∧
      Handler.inbound.Settled (task.receiveInbound pkt).1 ∧
      ((task.receiveInbound pkt).1.running = false → Answers (task.receiveInbound pkt).2) := by
  obtain ⟨next, hreach, hturn, hnext, hrunning⟩ := receivePayloadInbound_spec h hsettled hpkt hle
  refine ⟨next, ?_⟩
  unfold receiveInbound
  rw [hrst]
  cases hfin : pkt.fin with
  | false =>
    exact ⟨hturn.acked pkt, hnext, fun hended => absurd (hrunning.symm.trans hended) (by simp)⟩
  | true =>
  -- The FIN comes with the last byte, so all of the stream is written.
  have hall : next = S.length := by
    have hb := hpkt.fin hfin
    have hwithin := hturn.task.within
    omega
  refine ⟨(hturn.acked pkt).answered (receiveFinInbound_sound hturn.task hall),
    ⟨hnext.oooBuf, hnext.pendingAck⟩, fun _ => ?_⟩
  simp [Answers, receiveFinInbound]

/-- A turn of either handler that starts with nothing waiting and `cursor` bytes delivered. -/
theorem Handler.receive_spec (handler : Handler) (h : Idle S isn cursor task)
    (hsettled : handler.Settled task) (hrst : pkt.rst = false) (hpkt : Carries S isn cursor pkt a b)
    (hle : a ≤ cursor) : ∃ next, TurnSpec S isn cursor next (handler.wake task (.packet pkt)) ∧
      handler.Settled (handler.wake task (.packet pkt)).1 ∧
      ((handler.wake task (.packet pkt)).1.running = false →
        Answers (handler.wake task (.packet pkt)).2) := by
  cases handler with
  | inbound => exact receiveInbound_spec h hsettled hrst hpkt hle
  | outbound =>
  have hahead : tcpSeqAfter pkt.seq task.clientSeq = false := by
    rw [hpkt.seqAfter h.inv]
    exact decide_eq_false (not_lt.mpr hle)
  obtain ⟨-, -, -, -, -, -, hsame⟩ := deliverInbound_spec h.inv hsettled.oooBuf hpkt hle
  rw [← place_eq_deliverInbound hsettled.oooBuf hahead] at hsame
  obtain ⟨hbuf, hends⟩ := receive_ends h.running hrst hsettled.oooBuf hsame
  obtain ⟨next, hturn⟩ := QuicLite.Tun.receive_spec h hrst hpkt (fun _ => hahead) fun _ _ =>
    runsPastNone_nil hsettled.oooBuf
  exact ⟨next, hturn, ⟨hbuf, fun hother => by cases hother⟩, hends⟩

theorem Handler.ackTimeout_spec (handler : Handler) (h : Idle S isn cursor task)
    (hsettled : handler.Settled task) :
    TurnSpec S isn cursor cursor (handler.wake task .ackTimeout) ∧
      handler.Settled (handler.wake task .ackTimeout).1 ∧
      (handler.wake task .ackTimeout).1.running = true := by
  cases handler with
  | inbound => exact ⟨h.turn, hsettled, h.running⟩
  | outbound =>
  show TurnSpec S isn cursor cursor task.ackTimeout ∧ Handler.outbound.Settled task.ackTimeout.1 ∧
    task.ackTimeout.1.running = true
  unfold ackTimeout
  split
  · next hpending =>
      refine ⟨⟨le_refl _, ⟨h.inv.within, h.inv.clientSeq, h.inv.unique, h.inv.charged,
        h.inv.held⟩, fun _ => h.room, by simp, [], _, rfl, by simp, by simp [written, slice], ?_⟩,
        ⟨hsettled.oooBuf, fun _ => rfl⟩, h.running⟩
      simp [isWrite, SoundAt, h.pending hpending, h.inv.clientSeq]
  · exact ⟨h.turn, hsettled, h.running⟩

end Turn

/-! ## What the tasks leave alone -/

open QuicLite.Tun.Flow

section Frame

variable {s : Flow}

theorem txStep_rx (s : Flow) (event : TxEvent) : (s.txStep event).rx = s.rx := by
  cases event with
  | abort =>
    dsimp only [txStep]
    split
    · rfl
    · rfl
  | read data | readError | timeout =>
    dsimp only [txStep]
    split
    · rfl
    · rfl
  | step ok =>
    dsimp only [txStep]
    cases s.tx with
    | waiting | sendData =>
      dsimp only
      split
      · rfl
      · rfl
    | _ => rfl

/-- A task that has ended does nothing more. -/
theorem txStep_of_finished (h : s.tx.finished = true) (event : TxEvent) : s.txStep event = s := by
  cases htx : s.tx with
  | closed | stopped =>
    cases event with
    | abort =>
      have hsame : s.tx.abort = s.tx := by rw [htx]; rfl
      dsimp only [txStep]
      rw [hsame]
      split
      · rfl
      · rfl
    | read data | readError | timeout | step ok => simp [txStep, htx]
  | _ =>
    rw [htx] at h
    cases h

theorem rxStepOf_of_finished (handler : Handler) (h : s.rx.finished = true) (event : RxEvent) :
    s.rxStepOf handler event = s := by
  obtain ⟨hrunning, htodo⟩ : s.rx.task.running = false ∧ s.rx.todo = [] := by
    simpa [finished] using h
  cases event with
  | wake wake => simp [rxStepOf, hrunning]
  | step ok => simp [rxStepOf, Flow.rxStep, htodo]
  | abort =>
    have hsame : s.rx.abort = s.rx := by
      have htask : { s.rx.task with running := false } = s.rx.task := by rw [← hrunning]
      simp [abort, htodo, htask]
      rw [← htodo]
    simp [rxStepOf, Flow.rxStep, hsame]

variable (ok : Bool)

theorem sent_emit {packet : TcpOutput} (hbare : sent [packet] = []) :
    sent (s.emit ok packet).output = sent s.output := by
  cases ok with
  | false => rfl
  | true =>
    show sent (s.output ++ [packet]) = sent s.output
    rw [sent_append, hbare, append_nil]

theorem advanceTcpSeq_frame (seq : UInt32) (rest : List Action) :
    (s.advanceTcpSeq ok seq rest).tx = s.tx ∧ (s.advanceTcpSeq ok seq rest).output = s.output ∧
      (s.advanceTcpSeq ok seq rest).rx.task = s.rx.task := by
  unfold advanceTcpSeq
  cases s.rx.current with
  | none => exact ⟨rfl, rfl, rfl⟩
  | some current =>
    dsimp only
    split
    · split
      · exact ⟨rfl, rfl, rfl⟩
      · exact ⟨rfl, rfl, rfl⟩
    · exact ⟨rfl, rfl, rfl⟩

/-- `rx_task` leaves `tx_task` and what it sent alone. -/
theorem rxStepOf_frame (handler : Handler) (s : Flow) (event : RxEvent) :
    (s.rxStepOf handler event).tx = s.tx ∧ sent (s.rxStepOf handler event).output =
      sent s.output := by
  cases event with
  | wake wake =>
    dsimp only [rxStepOf]
    split
    · exact ⟨rfl, rfl⟩
    · exact ⟨rfl, rfl⟩
  | abort =>
    dsimp only [rxStepOf, Flow.rxStep]
    split
    · exact ⟨rfl, rfl⟩
    · exact ⟨rfl, rfl⟩
  | step ok =>
    dsimp only [rxStepOf, Flow.rxStep]
    cases s.rx.todo with
    | nil => exact ⟨rfl, rfl⟩
    | cons action rest =>
    cases action with
    | advanceClientAcked seq =>
      obtain ⟨htx, hout, -⟩ := advanceTcpSeq_frame (s := s) ok seq rest
      exact ⟨htx, congrArg sent hout⟩
    | sendAck ack fatal =>
      dsimp only [Flow.perform]
      split
      · exact ⟨rfl, rfl⟩
      · exact ⟨rfl, sent_emit ok rfl⟩
    | sendReset ack => exact ⟨rfl, sent_emit ok rfl⟩
    | sendFin ack => exact ⟨rfl, sent_emit ok rfl⟩
    | loadServerSeq | write | storeClientSeq | shutdown => exact ⟨rfl, rfl⟩

/-- When no packet is refused, a step of a turn moves the action from what is to be done to what is
done. -/
theorem performed_append (hok : ok = true ∨ compares s.rx.todo = true) :
    s.performed (.step ok) ++ (s.rxStep (.step ok)).rx.todo = s.rx.todo ∧
      (s.rxStep (.step ok)).rx.task = s.rx.task := by
  dsimp only [performed, Flow.rxStep]
  cases htodo : s.rx.todo with
  | nil => exact ⟨htodo, rfl⟩
  | cons action rest =>
  rw [htodo] at hok
  cases action with
  | advanceClientAcked seq =>
    have hmoved : (s.advanceTcpSeq ok seq rest).rx.todo = rest ∨
        (s.advanceTcpSeq ok seq rest).rx.todo = .advanceClientAcked seq :: rest := by
      rw [← htodo]
      unfold Flow.advanceTcpSeq
      cases s.rx.current with
      | none => exact .inr rfl
      | some current =>
        dsimp only
        split
        · split
          · exact .inl rfl
          · exact .inr rfl
        · exact .inl rfl
    refine ⟨?_, (advanceTcpSeq_frame ok seq rest).2.2⟩
    dsimp only [Flow.perform]
    rcases hmoved with hdone | hagain
    · simp [hdone, refused]
    · simp [hagain]
  | sendAck | sendReset | sendFin =>
    have haccepted : ok = true := hok.resolve_right (by simp [compares])
    subst haccepted
    simp [refused, Flow.perform, emit, Flow.next]
  | loadServerSeq | write | storeClientSeq | shutdown =>
    simp [refused, Flow.perform, Flow.next]

end Frame

/-! ## tx_task -/

/-- What `tx_task` has read and not sent yet. -/
def TxTask.unsent : TxTask → Bytes
  | .loadServerSeq payload | .loadClientAcked payload _ | .waiting payload _
    | .loadClientSeq payload _ _
  | .sendData payload _ _ _ => payload
  | _ => []

/-- `tx_task` has seen the end of the backend's stream. -/
def TxTask.closing : TxTask → Bool
  | .takeFin | .finLoadClientSeq _ | .sendFin .. => true
  | _ => false

/-- The backend's stream with `out` sent to the guest. -/
structure TxPart (B : Bytes) (tx : TxTask) (out : Bytes) (readBytes : Nat)
    (announced aborted : Bool) : Prop where
  within : readBytes ≤ B.length
  soFar : out <+: B
  all : tx.finished = false → out ++ tx.unsent = B.take readBytes
  closing : tx.closing = true → B.length ≤ readBytes
  final : announced = true → out = B
  ended : tx.finished = true → aborted = false → out = B ∧ announced = true
  stopped : aborted = true → tx.finished = true

section Tx

variable {B out : Bytes} {readBytes : Nat} {announced aborted : Bool} {tx next : TxTask}
    {sSeq cSeq : UInt32}

theorem TxPart.new (B : Bytes) : TxPart B .reading [] 0 false false where
  within := zero_le _
  soFar := nil_prefix
  all := fun _ => rfl
  closing := fun h => by cases h
  final := fun h => by cases h
  ended := fun h => by cases h
  stopped := fun h => by cases h

/-- A move within the loop that neither reads nor sends. -/
theorem TxPart.moved (h : TxPart B tx out readBytes announced aborted)
    (hgoing : tx.finished = false) (hgoes : next.finished = false)
    (hunsent : next.unsent = tx.unsent)
    (hclosing : next.closing = true → tx.closing = true ∨ B.length ≤ readBytes) :
    TxPart B next out readBytes announced aborted where
  within := h.within
  soFar := h.soFar
  all := fun _ => by rw [hunsent]; exact h.all hgoing
  closing := fun hend => (hclosing hend).elim h.closing id
  final := h.final
  ended := fun hended => absurd (hgoes.symm.trans hended) (by simp)
  stopped := fun habort => absurd (hgoing.symm.trans (h.stopped habort)) (by simp)

theorem TxPart.read (h : TxPart B .reading out readBytes announced aborted)
    (hdata : data <+: B.drop readBytes) :
    TxPart B (.loadServerSeq data) out (readBytes + data.length) announced aborted := by
  have hout : out = B.take readBytes := by simpa [TxTask.unsent] using h.all rfl
  have hlen := hdata.length_le
  rw [length_drop] at hlen
  have hwithin := h.within
  refine ⟨by omega, h.soFar, fun _ => ?_, fun hend => (by cases hend), h.final, fun hended =>
    (by cases hended), h.stopped⟩
  show out ++ data = B.take (readBytes + data.length)
  rw [take_add, ← prefix_iff_eq_take.mp hdata, hout]

theorem TxPart.sent {payload : Bytes} {acked : UInt32}
    (h : TxPart B (.sendData payload sSeq acked cSeq) out readBytes announced aborted) :
    TxPart B (.advance payload) (out ++ payload) readBytes announced aborted := by
  have hall : out ++ payload = B.take readBytes := h.all rfl
  have hsoFar : out ++ payload <+: B := by
    rw [hall]
    exact take_prefix _ _
  refine ⟨h.within, hsoFar, fun _ => ?_, fun hend => (by cases hend), fun hann => ?_, fun hended =>
    (by cases hended), h.stopped⟩
  · show out ++ payload ++ [] = B.take readBytes
    rw [append_nil, hall]
  -- After its announcement the stream has no further byte.
  obtain rfl := h.final hann
  exact (hsoFar.eq_of_length_le (by simp)).symm ▸ rfl

theorem TxPart.announce (h : TxPart B (.sendFin sSeq cSeq) out readBytes announced aborted) :
    TxPart B .closed out readBytes true aborted := by
  have hout : out = B := by
    have hall := h.all rfl
    rw [take_of_length_le (h.closing rfl)] at hall
    simpa [TxTask.unsent] using hall
  exact ⟨h.within, h.soFar, fun hgoing => (by cases hgoing), fun hend => (by cases hend), fun _ =>
    hout, fun _ _ => ⟨hout, rfl⟩, fun _ => rfl⟩

theorem TxPart.stop (h : TxPart B tx out readBytes announced aborted)
    (hended : next.finished = true) (hclosing : next.closing = false) :
    TxPart B next out readBytes announced true where
  within := h.within
  soFar := h.soFar
  all := fun hgoing => absurd (hgoing.symm.trans hended) (by simp)
  closing := fun hend => absurd (hclosing.symm.trans hend) (by simp)
  final := h.final
  ended := fun _ hnot => by cases hnot
  stopped := fun _ => hended

end Tx

/-- The invariant of `tx_task`. -/
def Joined.Sends (B : Bytes) (s : Joined) : Prop :=
  TxPart B s.flow.tx (sent s.flow.output) s.readBytes s.announced s.txAborted

section TxStep

variable {S B : Bytes} {isn : UInt32} {s : Joined}

section

variable (h : s.Sends B)
include h

section

variable (handler : Handler)
include handler

theorem Joined.Sends.read
    (hok : Allowed S B isn s (.tx (.read data))) : (s.step handler (.tx (.read data))).Sends B := by
  unfold Joined.Sends at h
  show TxPart B (s.flow.txStep (.read data)).tx (sent (s.flow.txStep (.read data)).output)
    (s.readBytes + s.flow.reads (.read data)) (s.announced || false) (s.txAborted || false)
  rw [Bool.or_false, Bool.or_false]
  dsimp only [txStep, reads]
  cases htx : s.flow.tx with
  | reading =>
    rw [htx] at h
    obtain ⟨hdata, hclosed⟩ := hok
    by_cases hend : data = []
    · subst hend
      exact h.moved rfl rfl rfl fun _ => .inr (hclosed rfl)
    · rw [if_neg hend]
      exact h.read hdata
  | _ => simpa [htx] using h

theorem Joined.Sends.abort : (s.step handler (.tx .abort)).Sends B := by
  unfold Joined.Sends at h
  show TxPart B (s.flow.txStep .abort).tx (sent (s.flow.txStep .abort).output) (s.readBytes + 0)
    (s.announced || false)
    (s.txAborted || s.flow.stopsTx .abort)
  rw [Bool.or_false]
  dsimp only [stopsTx, txStep]
  cases s.flow.rx.finished with
  | false =>
    have hnone : (!s.flow.tx.finished && s.flow.tx.finished) = false := by
      cases s.flow.tx.finished <;> rfl
    simpa [hnone] using h
  | true =>
  cases htx : s.flow.tx with
  | reading | waiting | sendData =>
    show TxPart B .stopped _ _ _ (s.txAborted || true)
    rw [Bool.or_true]
    exact h.stop rfl rfl
  | sendFin =>
    show TxPart B .closed _ _ _ (s.txAborted || true)
    rw [Bool.or_true]
    exact h.stop rfl rfl
  | _ =>
    -- The task does not wait here, or it has ended.
    rw [htx] at h
    show TxPart B _ _ _ _ (s.txAborted || false)
    rw [Bool.or_false]
    exact h

theorem Joined.Sends.advance : (s.step handler (.tx (.step true))).Sends B := by
  unfold Joined.Sends at h
  show TxPart B (s.flow.txStep (.step true)).tx (sent (s.flow.txStep (.step true)).output)
    (s.readBytes + 0)
    (s.announced || s.flow.announces (.step true)) (s.txAborted || false)
  rw [Bool.or_false]
  dsimp only [txStep, announces]
  cases htx : s.flow.tx with
  | reading | closed | stopped => simpa [htx] using h
  | loadServerSeq payload =>
    rw [htx] at h
    rw [Bool.or_false]
    exact h.moved rfl rfl rfl fun hend => by cases hend
  | loadClientAcked payload sSeq =>
    rw [htx] at h
    dsimp only
    rw [Bool.or_false]
    split
    · exact h.moved rfl rfl rfl fun hend => by cases hend
    · exact h.moved rfl rfl rfl fun hend => by cases hend
  | waiting payload sSeq =>
    rw [htx] at h
    dsimp only
    rw [Bool.or_false]
    split
    · exact h.moved rfl rfl rfl fun hend => by cases hend
    · rw [htx]
      exact h
  | loadClientSeq payload sSeq acked =>
    rw [htx] at h
    rw [Bool.or_false]
    exact h.moved rfl rfl rfl fun hend => by cases hend
  | sendData payload sSeq acked cSeq =>
    rw [htx] at h
    have hsent : sent (s.flow.output ++ [.data sSeq cSeq payload acked]) = sent s.flow.output ++
        payload := by
      rw [sent_append]
      simp [sent]
    simpa [hsent] using h.sent
  | advance payload =>
    rw [htx] at h
    rw [Bool.or_false]
    exact h.moved rfl rfl rfl fun hend => by cases hend
  | takeFin =>
    rw [htx] at h
    rw [Bool.or_false]
    exact h.moved rfl rfl rfl fun _ => .inl rfl
  | finLoadClientSeq sSeq =>
    rw [htx] at h
    rw [Bool.or_false]
    exact h.moved rfl rfl rfl fun _ => .inl rfl
  | sendFin sSeq cSeq =>
    rw [htx] at h
    have hsent : sent (s.flow.output ++ [.fin sSeq cSeq]) = sent s.flow.output := by
      rw [sent_append]
      exact append_nil _
    simpa [hsent] using h.announce

theorem Joined.Sends.txStep (hok : Allowed S B isn s (.tx event)) :
    (s.step handler (.tx event)).Sends B := by
  cases event with
  | read data => exact h.read handler hok
  | abort => exact h.abort handler
  | readError | timeout => exact hok.elim
  | step ok =>
    obtain rfl : ok = true := hok
    exact h.advance handler

theorem Joined.Sends.rxStep (event : RxEvent) : (s.step handler (.rx event)).Sends B := by
  obtain ⟨htx, hsent⟩ := rxStepOf_frame handler s.flow event
  show TxPart B (s.flow.rxStepOf handler event).tx (sent (s.flow.rxStepOf handler event).output)
    s.readBytes s.announced
    s.txAborted
  rw [htx, hsent]
  exact h

end

end

end TxStep

/-! ## rx_task -/

section Rx

variable {S : Bytes} {isn : UInt32} {handler : Handler} {rx : RxProcess} {done : List Action}
    {aborted : Bool}
variable {before : List Action} {result : RxTask × List Action}

/-- The guest's stream with the actions `done` behind `rx_task` and the rest of its turn before
it. -/
structure RxPart (S : Bytes) (isn : UInt32) (handler : Handler) (rx : RxProcess)
    (done : List Action) (aborted : Bool) :
    Prop where
  log : LogSound S isn [] (done ++ rx.todo)
  soFar : written (done ++ rx.todo) <+: S
  going : rx.task.running = true → Idle S isn (written (done ++ rx.todo)).length rx.task ∧
    handler.Settled rx.task
  ended : rx.task.running = false → aborted = false → Answers (done ++ rx.todo)
  stopped : aborted = true → rx.finished = true

theorem RxPart.new (S : Bytes) (isn sSeq : UInt32) (handler : Handler) :
    RxPart S isn handler ⟨.new (isn + 1), [], sSeq, none⟩ [] false := by
  have h := RxInv.new S isn
  exact ⟨trivial, nil_prefix, fun hrunning => ⟨h.idle hrunning, rfl, fun _ => rfl⟩, fun hended =>
    (by cases hended), fun habort => by cases habort⟩

theorem LogSound.left {log more : List Action} (h : LogSound S isn before (log ++ more)) :
    LogSound S isn before log := by
  induction log generalizing before with
  | nil => trivial
  | cons action log ih => exact ⟨h.1, ih h.2⟩

theorem written_left (log more : List Action) : written log <+: written (log ++ more) := by
  rw [written_append]
  exact prefix_append _ _

/-- The log of a turn that starts with `cursor` bytes delivered. -/
theorem TurnSpec.log {cursor : Nat} (h : TurnSpec S isn cursor next result)
    (hbefore : written before = S.take cursor) :
    LogSound S isn before result.2 ∧ written (before ++ result.2) = S.take next := by
  obtain ⟨quiet, tail, hactions, hquiet, hwritten, hsound⟩ := h.actions
  have hquietly : written (before ++ quiet) = S.take next := by
    rw [written_append, hbefore, hwritten, take_append_slice h.le]
  have hnone : written tail = [] := written_of_no_write fun action haction =>
    (hsound action haction).1
  rw [hactions]
  refine ⟨(logSound_quiet hquiet).append (logSound_tail h.task.within hquietly hsound), ?_⟩
  rw [← append_assoc, written_append, hquietly, hnone, append_nil]

theorem RxPart.turn (h : RxPart S isn handler rx done aborted) (hrunning : rx.task.running = true)
    (htodo : rx.todo = []) (hturn : TurnSpec S isn (written done).length next result)
    (hsettled : handler.Settled result.1) (hends : result.1.running = false → Answers result.2) :
    RxPart S isn handler { rx with task := result.1, todo := result.2 } done aborted := by
  have hlog := h.log
  have hsoFar := h.soFar
  rw [htodo, append_nil] at hlog hsoFar
  obtain ⟨hturnLog, hwritten⟩ := hturn.log (prefix_iff_eq_take.mp hsoFar)
  have hlen : (S.take next).length = next := by rw [length_take, min_eq_left hturn.task.within]
  refine ⟨hlog.append hturnLog, ?_, fun hgoes => ?_, fun hended _ => ?_, fun habort => ?_⟩
  · rw [hwritten]
    exact take_prefix _ _
  · rw [hwritten, hlen]
    exact ⟨⟨hturn.task, hgoes, hturn.room hgoes, hturn.pending hgoes⟩, hsettled⟩
  · obtain ⟨hshutdown, ack, hfin⟩ := hends hended
    exact ⟨mem_append_right _ hshutdown, ack, mem_append_right _ hfin⟩
  · have hfinished := h.stopped habort
    simp [finished, hrunning] at hfinished

/-- An action moves from what is to be done to what is done. -/
theorem RxPart.moved (h : RxPart S isn handler rx done aborted) {next : RxProcess}
    {actions : List Action} (hmove : actions ++ next.todo = rx.todo) (htask : next.task = rx.task)
    (hgoing : rx.finished = false) :
    RxPart S isn handler next (done ++ actions) aborted := by
  have hsame : done ++ actions ++ next.todo = done ++ rx.todo := by rw [append_assoc, hmove]
  refine ⟨?_, ?_, ?_, ?_, fun habort => absurd (hgoing.symm.trans (h.stopped habort)) (by simp)⟩
  · rw [hsame]
    exact h.log
  · rw [hsame]
    exact h.soFar
  · rw [hsame, htask]
    exact h.going
  · rw [hsame, htask]
    exact h.ended

/-- The select ends the task, and what was left of its turn is lost. -/
theorem RxPart.stop {next : RxProcess} (hlog : LogSound S isn [] done) (hsoFar : written done <+: S)
    (hrunning : next.task.running = false) (htodo : next.todo = []) :
    RxPart S isn handler next done true := by
  refine ⟨?_, ?_, fun hgoes => absurd (hrunning.symm.trans hgoes) (by simp), fun _ hnot =>
    (by cases hnot), fun _ => ?_⟩
  · rw [htodo, append_nil]
    exact hlog
  · rw [htodo, append_nil]
    exact hsoFar
  · simp [finished, hrunning, htodo]

end Rx

/-- The invariant of `rx_task`. -/
def Joined.Writes (S : Bytes) (isn : UInt32) (handler : Handler) (s : Joined) : Prop :=
  RxPart S isn handler s.flow.rx s.done s.rxAborted

section RxStep

variable {S B : Bytes} {isn : UInt32} {handler : Handler} {s : Joined}

theorem Joined.Writes.wake (h : s.Writes S isn handler) {wake : Wake}
    (hok : Allowed S B isn s (.rx (.wake wake))) :
    (s.step handler (.rx (.wake wake))).Writes S isn handler := by
  show RxPart S isn handler (s.flow.rxStepOf handler (.wake wake)).rx (s.done ++ [])
    (s.rxAborted || false)
  rw [append_nil, Bool.or_false]
  dsimp only [rxStepOf]
  split
  · next hstarts =>
      obtain ⟨hrunning, hempty⟩ := Bool.and_eq_true_iff.mp hstarts
      have htodo : s.flow.rx.todo = [] := isEmpty_iff.mp hempty
      obtain ⟨hidle, hsettled⟩ := h.going hrunning
      rw [htodo, append_nil] at hidle
      cases wake with
      | closed => exact hok.elim
      | ackTimeout =>
        obtain ⟨hturn, hnext, hgoes⟩ := handler.ackTimeout_spec hidle hsettled
        exact h.turn hrunning htodo hturn hnext fun hended =>
          absurd (hgoes.symm.trans hended) (by simp)
      | packet pkt =>
        obtain ⟨hrst, a, b, hpkt, hle⟩ := hok
        obtain ⟨next, hturn, hnext, hends⟩ := handler.receive_spec hidle hsettled hrst hpkt hle
        exact h.turn hrunning htodo hturn hnext hends
  · exact h

section

variable (h : s.Writes S isn handler)
include h

theorem Joined.Writes.perform {ok : Bool} (hok : Allowed S B isn s (.rx (.step ok))) :
    (s.step handler (.rx (.step ok))).Writes S isn handler := by
  unfold Joined.Writes at h
  show RxPart S isn handler (s.flow.rxStep (.step ok)).rx (s.done ++ s.flow.performed (.step ok))
    (s.rxAborted || false)
  rw [Bool.or_false]
  obtain ⟨hmove, htask⟩ := performed_append ok hok
  cases hfinished : s.flow.rx.finished with
  | false => exact h.moved hmove htask hfinished
  | true =>
    have htodo : s.flow.rx.todo = [] := by
      simp [finished] at hfinished
      exact hfinished.2
    simpa [Flow.rxStep, performed, htodo] using h

theorem Joined.Writes.abort : (s.step handler (.rx .abort)).Writes S isn handler := by
  unfold Joined.Writes at h
  show RxPart S isn handler (s.flow.rxStepOf handler .abort).rx (s.done ++ [])
    (s.rxAborted || s.flow.stopsRx .abort)
  rw [append_nil]
  cases hfinished : s.flow.rx.finished with
  | true =>
    rw [rxStepOf_of_finished handler hfinished]
    simpa [stopsRx, hfinished] using h
  | false =>
  dsimp only [stopsRx, rxStepOf, Flow.rxStep]
  cases s.flow.tx.finished with
  | false => simpa [hfinished] using h
  | true =>
  simp only [if_true, hfinished]
  cases hawaits : s.flow.rx.todo.head?.all awaits with
  | false =>
    have hsame : s.flow.rx.abort = s.flow.rx := by simp [RxProcess.abort, hawaits]
    rw [hsame, hfinished]
    simpa using h
  | true =>
    have hends : s.flow.rx.abort.task.running = false ∧ s.flow.rx.abort.todo = [] := by
      simp [RxProcess.abort, hawaits]
    have hended : s.flow.rx.abort.finished = true := by simp [RxProcess.finished, hends]
    rw [hended, Bool.not_false, Bool.and_true, Bool.or_true]
    exact .stop h.log.left ((written_left _ _).trans h.soFar) hends.1 hends.2

/-- `rx_task` is aborted in the middle of a write. -/
theorem Joined.Writes.cutWrite (count : Nat) :
    (s.step handler (.cutWrite count)).Writes S isn handler := by
  show (s.cutWrite count).Writes S isn handler
  unfold Joined.cutWrite
  cases htodo : s.flow.rx.todo with
  | nil => exact h
  | cons action rest =>
  cases action with
  | write data =>
    dsimp only
    split
    · -- What went out is a piece of what would have gone out.
      have hpiece : written (s.done ++ [.write (data.take count)]) <+: S := by
        have hall : written s.done ++ data <+: S := by
          refine .trans ?_ h.soFar
          rw [written_append, htodo, written, ← append_assoc]
          exact prefix_append _ _
        refine .trans ?_ hall
        simpa [written] using take_prefix count data
      have hends : s.flow.rx.abort.task.running = false ∧ s.flow.rx.abort.todo = [] := by
        simp [RxProcess.abort, htodo, awaits]
      exact .stop (h.log.left.append ⟨trivial, trivial⟩) hpiece hends.1 hends.2
    · exact h
  | _ => exact h

theorem Joined.Writes.rxStep {event : RxEvent} (hok : Allowed S B isn s (.rx event)) :
    (s.step handler (.rx event)).Writes S isn handler := by
  cases event with
  | wake wake => exact h.wake hok
  | step ok => exact h.perform hok
  | abort => exact h.abort

theorem Joined.Writes.txStep (event : TxEvent) :
    (s.step handler (.tx event)).Writes S isn handler := by
  show RxPart S isn handler (s.flow.txStep event).rx s.done s.rxAborted
  rw [txStep_rx]
  exact h

end

end RxStep

/-! ## Both tasks -/

structure JoinInv (S B : Bytes) (isn : UInt32) (handler : Handler) (s : Joined) : Prop where
  writes : s.Writes S isn handler
  sends : s.Sends B
  rxAborted : s.rxAborted = true → s.flow.tx.finished = true ∧ s.txAborted = false
  txAborted : s.txAborted = true → s.flow.rx.finished = true ∧ s.rxAborted = false

section Both

variable {S B : Bytes} {isn : UInt32} {handler : Handler} {s : Joined}

theorem JoinInv.new (S B : Bytes) (isn initialServerSeq : UInt32) (handler : Handler) :
    JoinInv S B isn handler (.new initialServerSeq (isn + 1)) where
  writes := .new S isn (initialServerSeq + 1) handler
  sends := .new B
  rxAborted := fun habort => by cases habort
  txAborted := fun habort => by cases habort

section

variable (h : JoinInv S B isn handler s)
include h

theorem JoinInv.txStep (hok : Allowed S B isn s (.tx event)) :
    JoinInv S B isn handler (s.step handler (.tx event)) := by
  refine ⟨h.writes.txStep event, h.sends.txStep handler hok, fun habort => ?_, fun habort => ?_⟩
  · -- A task that has ended stays as it is.
    obtain ⟨hended, hnot⟩ := h.rxAborted habort
    have hsame := txStep_of_finished hended event
    refine ⟨?_, ?_⟩
    · show (s.flow.txStep event).tx.finished = true
      rw [hsame]
      exact hended
    show (s.txAborted || s.flow.stopsTx event) = false
    rw [hnot]
    cases event with
    | abort => simp [stopsTx, hended]
    | read | readError | timeout | step => rfl
  · show (s.flow.txStep event).rx.finished = true ∧ s.rxAborted = false
    rw [txStep_rx]
    rcases or_eq_true_iff.mp habort with hold | hnew
    · exact h.txAborted hold
    cases event with
    | read | readError | timeout | step => cases hnew
    | abort =>
    obtain ⟨hgoing, hends⟩ := and_eq_true_iff.mp hnew
    cases hfinished : s.flow.rx.finished with
    | false =>
      simp [txStep, hfinished] at hends
      simp [hends] at hgoing
    | true =>
      refine ⟨rfl, ?_⟩
      cases hrx : s.rxAborted with
      | false => rfl
      | true => simp [(h.rxAborted hrx).1] at hgoing

theorem JoinInv.rxStep {event : RxEvent} (hok : Allowed S B isn s (.rx event)) :
    JoinInv S B isn handler (s.step handler (.rx event)) := by
  refine ⟨h.writes.rxStep hok, h.sends.rxStep handler event, fun habort => ?_, fun habort => ?_⟩
  · show (s.flow.rxStepOf handler event).tx.finished = true ∧ s.txAborted = false
    rw [(rxStepOf_frame handler s.flow event).1]
    rcases or_eq_true_iff.mp habort with hold | hnew
    · exact h.rxAborted hold
    cases event with
    | wake | step => cases hnew
    | abort =>
    obtain ⟨hgoing, hends⟩ := and_eq_true_iff.mp hnew
    cases hfinished : s.flow.tx.finished with
    | false =>
      simp [Flow.rxStep, hfinished] at hends
      simp [hends] at hgoing
    | true =>
      refine ⟨rfl, ?_⟩
      cases htx : s.txAborted with
      | false => rfl
      | true => simp [(h.txAborted htx).1] at hgoing
  · obtain ⟨hended, hnot⟩ := h.txAborted habort
    refine ⟨?_, ?_⟩
    · show (s.flow.rxStepOf handler event).rx.finished = true
      rw [rxStepOf_of_finished handler hended]
      exact hended
    show (s.rxAborted || s.flow.stopsRx event) = false
    rw [hnot]
    cases event with
    | abort => simp [stopsRx, hended]
    | wake | step => rfl

theorem JoinInv.cutWrite (count : Nat) :
    JoinInv S B isn handler (s.step handler (.cutWrite count)) := by
  have hwrites := h.writes.cutWrite count
  revert hwrites
  show (s.cutWrite count).Writes S isn handler → JoinInv S B isn handler (s.cutWrite count)
  unfold Joined.cutWrite
  cases htodo : s.flow.rx.todo with
  | nil => exact fun _ => h
  | cons action rest =>
  cases action with
  | write data =>
    dsimp only
    split
    · next hended =>
        intro hwrites
        -- A task that still has something to write has not ended, so the other one was not
        -- aborted.
        have hnot : s.txAborted = false := by
          cases htx : s.txAborted with
          | false => rfl
          | true =>
            have hfinished := (h.txAborted htx).1
            simp [finished, htodo] at hfinished
        refine ⟨hwrites, h.sends, fun _ => ⟨hended, hnot⟩, fun habort => ?_⟩
        exact absurd (hnot.symm.trans habort) (by simp)
    · exact fun _ => h
  | _ => exact fun _ => h

theorem JoinInv.step {event : JoinEvent} (hok : Allowed S B isn s event) :
    JoinInv S B isn handler (s.step handler event) := by
  cases event with
  | tx event => exact h.txStep hok
  | rx event => exact h.rxStep hok
  | cutWrite => exact h.cutWrite ..

/-- The log of `rx_task` tells what was written before each answer. -/
theorem JoinInv.halfClosed : HalfClosed S B isn s := by
  have hsoFar : written s.done <+: S := (written_left _ _).trans h.writes.soFar
  have hlog : LogSound S isn [] s.done := h.writes.log.left
  -- All of the stream is written before an action that says so.
  have hall : ∀ {before after action}, s.done = before ++ action :: after → written before = S →
      written s.done = S := by
    intro before after action hsplit hbefore
    refine hsoFar.eq_of_length_le ?_
    rw [hsplit, written_append, hbefore, length_append]
    exact le_add_right _ _
  have hanswered : ∀ ack, .sendFin ack ∈ s.done → ack = position isn S.length + 1 ∧
      written s.done = S := by
    intro ack hmem
    obtain ⟨before, after, hsplit⟩ := append_of_mem hmem
    obtain ⟨hack, hbefore⟩ := hlog.of_split hsplit
    rw [hbefore] at hack
    exact ⟨hack, hall hsplit hbefore⟩
  have hpassed : .shutdown ∈ s.done → written s.done = S := by
    intro hmem
    obtain ⟨before, after, hsplit⟩ := append_of_mem hmem
    exact hall hsplit (hlog.of_split hsplit)
  refine ⟨hsoFar, h.sends.soFar, h.sends.final, hanswered, hpassed, fun hfinished hnot =>
    ?_, h.sends.ended, h.rxAborted, h.txAborted⟩
  obtain ⟨hrunning, htodo⟩ : s.flow.rx.task.running = false ∧ s.flow.rx.todo = [] := by
    simpa [finished] using hfinished
  obtain ⟨hshutdown, ack, hfin⟩ := h.writes.ended hrunning hnot
  rw [htodo, append_nil] at hshutdown hfin
  exact ⟨hpassed hshutdown, hshutdown, (hanswered ack hfin).1 ▸ hfin⟩

end

end Both

/-! ## The result -/

/-- The backend closes at once, and the select aborts `rx_task`. -/
def backendFirst : List JoinEvent :=
  [.tx (.read []), .tx (.step true), .tx (.step true), .tx (.step true), .rx .abort]

/-- The guest sends a byte and its FIN, and the select aborts `tx_task`. -/
def guestFirst : List JoinEvent :=
  [.rx (.wake (.packet ⟨1, false, 0, true, false, [5], Nat.le_of_ble_eq_true rfl⟩)),
    .rx (.step true), .rx (.step true), .rx (.step true), .rx (.step true), .rx (.step true),
    .rx (.step true), .rx (.step true), .rx (.step true), .tx .abort]

theorem backendFirst_allowed : Runs.Along (Joined.step .outbound) (Allowed [5] [] 0)
    (.new 0 1) backendFirst :=
  ⟨⟨ nil_prefix, fun _ => le_refl _⟩, rfl, rfl, rfl, trivial, trivial⟩

theorem guestFirst_allowed : Runs.Along (Joined.step .inbound) (Allowed [5] [7] 0)
    (.new 0 1) guestFirst :=
  ⟨⟨rfl, 0, 1, ⟨by decide, by decide, rfl, rfl, by decide, by decide, fun _ => rfl⟩, le_refl _⟩,
    .inl rfl, .inl rfl,
    .inl rfl, .inl rfl, .inl rfl, .inl rfl, .inl rfl, .inl rfl, trivial, trivial⟩

/-- When both tasks have ended, both streams are delivered. -/
def Complete (S B : Bytes) (s : Joined) : Prop :=
  s.flow.rx.finished = true → s.flow.tx.finished = true →
    written s.done = S ∧ sent s.flow.output = B

/-- The side that ends first takes the other direction with it, whichever side that is and whoever
opened the flow. -/
theorem first_end_truncates :
    (¬ ∀ (S B : Bytes) (isn initialServerSeq : UInt32) (events : List JoinEvent),
      Runs.Along (Joined.step .outbound) (Allowed S B isn)
      (.new initialServerSeq (isn + 1)) events →
        Complete S B (Runs.exec (Joined.step .outbound) (.new initialServerSeq (isn + 1)) events)) ∧
    ¬ ∀ (S B : Bytes) (isn initialServerSeq : UInt32) (events : List JoinEvent),
      Runs.Along (Joined.step .inbound) (Allowed S B isn) (.new initialServerSeq (isn + 1)) events →
        Complete S B (Runs.exec (Joined.step .inbound) (.new initialServerSeq (isn + 1))
          events) := by
  refine ⟨fun hall => ?_, fun hall => ?_⟩
  · have hlost := (hall [5] [] 0 0 backendFirst backendFirst_allowed rfl rfl).1
    exact absurd hlost (by decide)
  · have hlost := (hall [5] [7] 0 0 guestFirst guestFirst_allowed rfl rfl).2
    exact absurd hlost (by decide)

/-- In every run of either handler the streams are delivered in order and closed only behind their
last byte, and the task that ended by itself has delivered all of its stream. -/
theorem halfClosed_of_allowed (handler : Handler) (S B : Bytes) (isn initialServerSeq : UInt32)
    (events : List JoinEvent)
    (hrun : Runs.Along (Joined.step handler) (Allowed S B isn) (.new initialServerSeq (isn + 1))
      events) :
    HalfClosed S B isn (Runs.exec (Joined.step handler) (.new initialServerSeq (isn + 1)) events) :=
  (Runs.Along.invariant (fun _ _ hs hok => hs.step hok)
    (JoinInv.new S B isn initialServerSeq handler) hrun).halfClosed

theorem guestFirst_halfClosed :
    HalfClosed [5] [7] 0 (Runs.exec (Joined.step .inbound) (.new 0 1) guestFirst) ∧
      written (Runs.exec (Joined.step .inbound) (.new 0 1) guestFirst).done = [5] ∧
      sent (Runs.exec (Joined.step .inbound) (.new 0 1) guestFirst).flow.output = [] :=
  ⟨halfClosed_of_allowed .inbound [5] [7] 0 0 guestFirst guestFirst_allowed, rfl, rfl⟩

end QuicLite.Tun

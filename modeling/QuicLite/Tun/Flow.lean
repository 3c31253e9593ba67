import QuicLite.Tun.Reassembly

/-!
# Host to guest: one meaning for every sequence number

Two tasks serve a proxied TCP flow. `tx_task` reads the backend and sends what it read to the guest;
`rx_task` takes the guest's segments and answers its FIN. They share `server_seq`, `client_seq` and
`client_acked`, and the output queue.

Each access to a shared variable, each backend read and each packet is one step here, and the steps
of the two tasks interleave in any order. `rx_task` touches the shared variables only through the
actions of a turn, so a turn is its list of actions, performed one at a time.
-/

namespace QuicLite.Tun

open Serial List

variable {rest : List Action} {packet : TcpOutput} {actions : List Action}

def tcpSyntheticWindowBytes : UInt32 := 1 * 1024 * 1024

/-- A packet that was accepted for output. `acked` is what the sender took as acknowledged when it
found room in the window for the segment; it is not on the wire. -/
inductive TcpOutput where
  | data (seq ack : UInt32) (payload : Bytes) (acked : UInt32)
  | fin (seq ack : UInt32)
  | ack (seq ack : UInt32)
  | reset (seq ack : UInt32)
  deriving DecidableEq, Repr

/-- Where `tx_task` is in its loop, with the local variables it still needs. -/
inductive TxTask where
  | reading
  | loadServerSeq (payload : Bytes)
  | loadClientAcked (payload : Bytes) (sSeq : UInt32)
  | waiting (payload : Bytes) (sSeq : UInt32)
  | loadClientSeq (payload : Bytes) (sSeq acked : UInt32)
  | sendData (payload : Bytes) (sSeq acked cSeq : UInt32)
  | advance (payload : Bytes)
  | takeFin
  | finLoadClientSeq (sSeq : UInt32)
  | sendFin (sSeq cSeq : UInt32)
  | closed
  | stopped
  deriving DecidableEq, Repr

/-- `rx_task` in the middle of a turn: the actions still to perform, the number it loaded last, and
the value it compares with while it advances `client_acked`. -/
structure RxProcess where
  task : RxTask
  todo : List Action
  sSeq : UInt32
  current : Option UInt32
  deriving Repr

structure Flow where
  serverSeq : UInt32
  clientSeq : UInt32
  clientAcked : UInt32
  ackNotify : Bool
  tx : TxTask
  rx : RxProcess
  output : List TcpOutput
  deriving Repr

/-- After the handshake. -/
def Flow.new (initialServerSeq clientSeq : UInt32) : Flow where
  serverSeq := initialServerSeq + 1
  clientSeq := clientSeq
  clientAcked := initialServerSeq + 1
  ackNotify := false
  tx := .reading
  rx := ⟨.new clientSeq, [], initialServerSeq + 1, none⟩
  output := []

/-! ## tx_task -/

/-- What happens to `tx_task` next: the backend's answer to a read, its own next step (`ok` is the
output queue's answer), or the deadline of the wait for room in the window. -/
inductive TxEvent where
  | read (data : Bytes)
  | readError
  | step (ok : Bool)
  | timeout
  | abort

/-- The task has ended. -/
def TxTask.finished : TxTask → Bool
  | .closed | .stopped => true
  | _ => false

def TxTask.inFlight (payload : Bytes) (sSeq acked : UInt32) : UInt32 :=
  sSeq + UInt32.ofNat payload.length - acked

def RxProcess.finished (self : RxProcess) : Bool := !self.task.running && self.todo.isEmpty

/-- A task that is aborted ends where it waits; a FIN number that was taken stays taken. -/
def TxTask.abort : TxTask → TxTask
  | .sendFin .. => .closed
  | .reading | .waiting .. | .sendData .. => .stopped
  | self => self

variable (self : Flow)

/-- An event that cannot happen here changes nothing. -/
def Flow.txStep : TxEvent → Flow
  | .read data =>
    match self.tx with
    | .reading => { self with tx := if data = [] then .takeFin else .loadServerSeq data }
    | _ => self
  | .readError =>
    match self.tx with
    | .reading => { self with tx := .stopped }
    | _ => self
  | .timeout =>
    match self.tx with
    | .waiting .. => { self with tx := .stopped }
    | _ => self
  | .abort => if self.rx.finished then { self with tx := self.tx.abort } else self
  | .step ok =>
    match self.tx with
    | .loadServerSeq payload => { self with tx := .loadClientAcked payload self.serverSeq }
    | .loadClientAcked payload sSeq =>
      { self with
        tx :=
          if TxTask.inFlight payload sSeq self.clientAcked ≤ tcpSyntheticWindowBytes then
            .loadClientSeq payload sSeq self.clientAcked
          else .waiting payload sSeq }
    | .waiting payload sSeq =>
      if self.ackNotify then { self with ackNotify := false, tx := .loadClientAcked payload sSeq }
      else self
    | .loadClientSeq payload sSeq acked =>
      { self with tx := .sendData payload sSeq acked self.clientSeq }
    | .sendData payload sSeq acked cSeq =>
      if ok then { self with
        output := self.output ++ [.data sSeq cSeq payload acked], tx := .advance payload }
      else { self with tx := .stopped }
    | .advance payload =>
      { self with serverSeq := self.serverSeq + UInt32.ofNat payload.length, tx := .reading }
    | .takeFin =>
      { self with serverSeq := self.serverSeq + 1, tx := .finLoadClientSeq self.serverSeq }
    | .finLoadClientSeq sSeq => { self with tx := .sendFin sSeq self.clientSeq }
    | .sendFin sSeq cSeq =>
      { self with
        output := if ok then self.output ++ [.fin sSeq cSeq] else self.output, tx := .closed }
    | _ => self

/-! ## rx_task -/

/-- What happens to `rx_task` next: the loop wakes, or it performs the next action of its turn. `ok`
is the output queue's answer, and whether a weak compare-and-exchange goes through. -/
inductive RxEvent where
  | wake (wake : Wake)
  | step (ok : Bool)
  | abort

/-- The action of the turn is done. -/
def Flow.next (rest : List Action) : Flow := { self with rx := { self.rx with todo := rest } }

def Flow.emit (ok : Bool) (packet : TcpOutput) : Flow :=
  { self with output := if ok then self.output ++ [packet] else self.output }

/-- `advance_tcp_seq`, one access of `client_acked` at a time. -/
def Flow.advanceTcpSeq (ok : Bool) (seq : UInt32) (rest : List Action) : Flow :=
  match self.rx.current with
  | none => { self with rx := { self.rx with current := some self.clientAcked } }
  | some current =>
    if tcpSeqAfter seq current then
      if ok && self.clientAcked == current then
        { self with
          clientAcked := seq, ackNotify := true,
          rx := { self.rx with todo := rest, current := none } }
      else { self with rx := { self.rx with current := some self.clientAcked } }
    else { self with ackNotify := true, rx := { self.rx with todo := rest, current := none } }

def Flow.perform (ok : Bool) (rest : List Action) : Action → Flow
  | .advanceClientAcked seq => self.advanceTcpSeq ok seq rest
  | .loadServerSeq => { self with rx := { self.rx with todo := rest, sSeq := self.serverSeq } }
  | .storeClientSeq seq => { self with clientSeq := seq, rx := { self.rx with todo := rest } }
  | .sendAck ack fatal =>
    if !ok && fatal then { self with
      rx := { self.rx with todo := [], task := { self.rx.task with running := false } } }
    else (self.emit ok (.ack self.rx.sSeq ack)).next rest
  | .sendReset ack => (self.emit ok (.reset self.rx.sSeq ack)).next rest
  | .sendFin ack => (self.emit ok (.fin self.rx.sSeq ack)).next rest
  | .write _ | .shutdown => self.next rest

/-- Actions at which the task waits, so that it may be aborted there. -/
def Action.awaits : Action → Bool
  | .write _ | .sendAck .. | .sendReset _ | .sendFin _ | .shutdown => true
  | _ => false

def RxProcess.abort (self : RxProcess) : RxProcess :=
  if self.todo.head?.all Action.awaits then
    { self with todo := [], task := { self.task with running := false } }
  else self

def Flow.rxStep : RxEvent → Flow
  | .wake wake =>
    if self.rx.task.running && self.rx.todo.isEmpty then
      let (task, actions) := self.rx.task.wake wake
      { self with rx := { self.rx with task := task, todo := actions } }
    else self
  | .step ok =>
    match self.rx.todo with
    | [] => self
    | action :: rest => self.perform ok rest action
  | .abort => if self.tx.finished then { self with rx := self.rx.abort } else self

/-- One step of either task. -/
inductive Event where
  | tx (event : TxEvent)
  | rx (event : RxEvent)

def Flow.step : Event → Flow
  | .tx event => self.txStep event
  | .rx event => self.rxStep event

/-! ## The specification -/

/-- The bytes that were read from the backend and sent. -/
def sent : List TcpOutput → Bytes
  | [] => []
  | .data _ _ payload _ :: rest => payload ++ sent rest
  | _ :: rest => sent rest

/-- Every number means one place of the bytes sent so far. -/
structure OneMeaning (isn : UInt32) (output : List TcpOutput) : Prop where
  data : ∀ seq ack payload acked, .data seq ack payload acked ∈ output →
    ∃ offset, seq = number (isn + 1) offset ∧ offset + payload.length ≤ (sent output).length ∧
      payload = slice (sent output) offset (offset + payload.length)
  fin : ∀ seq ack, .fin seq ack ∈ output → seq = number (isn + 1) (sent output).length
  nothingAfter : ∀ before seq ack after, output = before ++ .fin seq ack :: after → sent after = []
  oneFin : ∀ seq ack seq' ack', .fin seq ack ∈ output → .fin seq' ack' ∈ output → seq = seq'
  window : ∀ seq ack payload acked, .data seq ack payload acked ∈ output →
    (seq + UInt32.ofNat payload.length - acked).toNat ≤ tcpSyntheticWindowBytes.toNat

/-! ## When the code keeps it -/

/-- The task is about to send a segment. -/
def TxTask.sending : TxTask → Bool
  | .sendData .. => true
  | _ => false

def TcpOutput.isFin : TcpOutput → Bool
  | .fin .. => true
  | _ => false

/-- The turn's next action is the answer to the guest's FIN. -/
def answersFin : List Action → Bool
  | .sendFin _ :: _ => true
  | _ => false

/-- `server_seq`, with the segment that is sent and not yet counted, and without the number that
`tx_task` took for its own FIN. -/
def Flow.counted (s : Flow) : UInt32 :=
  match s.tx with
  | .advance payload => s.serverSeq + UInt32.ofNat payload.length
  | .finLoadClientSeq _ | .sendFin .. | .closed => s.serverSeq - 1
  | _ => s.serverSeq

/-- The answer to the guest's FIN goes out with a number that is still current, and no segment goes
out behind a FIN. -/
def Apart (s : Flow) : Event → Prop
  | .rx (.step ok) => answersFin s.rx.todo = true → ok = true → s.rx.sSeq = s.counted
  | .tx (.step ok) => s.tx.sending = true → ok = true → s.output.any TcpOutput.isFin = false
  | _ => True

instance (s : Flow) : (event : Event) → Decidable (Apart s event)
  | .rx (.step _) | .tx (.step _) => inferInstanceAs (Decidable (_ → _ → _))
  | .rx (.wake _) | .rx .abort | .tx (.read _) | .tx .readError | .tx .timeout | .tx .abort =>
    isTrue trivial

/-! ## What one more packet does to the output -/

section Output

variable {isn : UInt32} {output : List TcpOutput} {seq : UInt32}

theorem sent_append (before after : List TcpOutput) :
    sent (before ++ after) = sent before ++ sent after := by
  induction before with
  | nil => rfl
  | cons packet before ih => cases packet <;> simp [sent, ih]

/-- Sending more leaves a piece of what was sent where it is. -/
theorem slice_append_left (S T : Bytes) {a b : Nat} (hb : b ≤ S.length) :
    slice (S ++ T) a b = slice S a b := by
  rw [slice, slice, take_append_of_le_length hb]

/-- A packet behind the last one is the new packet, or an old one with that packet behind
everything. -/
theorem concat_split {before after : List TcpOutput} {last : TcpOutput}
    (h : output ++ [last] = before ++ packet :: after) :
    (packet = last ∧ after = []) ∨ ∃ rest, output = before ++ packet :: rest ∧
      after = rest ++ [last] := by
  rcases eq_nil_or_concat after with rfl | ⟨rest, final, rfl⟩
  · have := append_inj' h rfl
    exact .inl ⟨by simpa using this.2.symm, rfl⟩
  have happ : output ++ [last] = (before ++ packet :: rest) ++ [final] := by simpa using h
  obtain ⟨hout, hlast⟩ := append_inj' happ rfl
  exact .inr ⟨rest, hout, by simpa using hlast.symm⟩

/-- A bare acknowledgement or a reset has no place in the stream. -/
theorem OneMeaning.emit_bare (h : OneMeaning isn output) (hbare : sent [packet] = [])
    (hdata : ∀ seq ack payload acked, packet ≠ .data seq ack payload acked)
    (hfin : ∀ seq ack, packet ≠ .fin seq ack) :
    OneMeaning isn (output ++ [packet]) := by
  have hsent : sent (output ++ [packet]) = sent output := by rw [sent_append, hbare, append_nil]
  have hold : ∀ seq ack payload acked, .data seq ack payload acked ∈ output ++ [packet] →
      .data seq ack payload acked ∈ output := by
    intro seq ack payload acked hmem
    rcases mem_append.mp hmem with hold | hnew
    · exact hold
    · exact absurd (mem_singleton.mp hnew).symm (hdata seq ack payload acked)
  have holdFin : ∀ seq ack, .fin seq ack ∈ output ++ [packet] → .fin seq ack ∈ output := by
    intro seq ack hmem
    rcases mem_append.mp hmem with hold | hnew
    · exact hold
    · exact absurd (mem_singleton.mp hnew).symm (hfin seq ack)
  refine ⟨?_, ?_, ?_, ?_, ?_⟩
  · intro seq ack payload acked hmem
    rw [hsent]
    exact h.data seq ack payload acked (hold _ _ _ _ hmem)
  · intro seq ack hmem
    rw [hsent]
    exact h.fin seq ack (holdFin _ _ hmem)
  · intro before seq ack after hsplit
    rcases concat_split hsplit with ⟨heq, -⟩ | ⟨rest, hout, rfl⟩
    · exact absurd heq.symm (hfin seq ack)
    · rw [sent_append, hbare, h.nothingAfter before seq ack rest hout, append_nil]
  · intro seq ack seq' ack' hmem hmem'
    exact h.oneFin seq ack seq' ack' (holdFin _ _ hmem) (holdFin _ _ hmem')
  · intro seq ack payload acked hmem
    exact h.window seq ack payload acked (hold _ _ _ _ hmem)

/-- A FIN behind everything that was sent. -/
theorem OneMeaning.emit_fin (h : OneMeaning isn output)
    (hseq : seq = number (isn + 1) (sent output).length) (ack : UInt32) :
    OneMeaning isn (output ++ [.fin seq ack]) := by
  have hsent : sent (output ++ [.fin seq ack]) = sent output := by
    rw [sent_append]
    exact append_nil _
  have hfin : ∀ seq' ack', .fin seq' ack' ∈ output ++ [TcpOutput.fin seq ack] →
      seq' = number (isn + 1) (sent output).length := by
    intro seq' ack' hmem
    rcases mem_append.mp hmem with hold | hnew
    · exact h.fin seq' ack' hold
    · cases mem_singleton.mp hnew
      exact hseq
  have hdata : ∀ seq' ack' payload acked,
      .data seq' ack' payload acked ∈ output ++ [TcpOutput.fin seq ack] →
      .data seq' ack' payload acked ∈ output := by
    intro seq' ack' payload acked hmem
    rcases mem_append.mp hmem with hold | hnew
    · exact hold
    · cases mem_singleton.mp hnew
  refine ⟨?_, ?_, ?_, ?_, ?_⟩
  · intro seq' ack' payload acked hmem
    rw [hsent]
    exact h.data seq' ack' payload acked (hdata _ _ _ _ hmem)
  · intro seq' ack' hmem
    rw [hsent]
    exact hfin seq' ack' hmem
  · intro before seq' ack' after hsplit
    rcases concat_split hsplit with ⟨-, rfl⟩ | ⟨rest, hout, rfl⟩
    · rfl
    · rw [sent_append, h.nothingAfter before seq' ack' rest hout]
      rfl
  · intro seq' ack' seq'' ack'' hmem hmem'
    exact (hfin seq' ack' hmem).trans (hfin seq'' ack'' hmem').symm
  · intro seq' ack' payload acked hmem
    exact h.window seq' ack' payload acked (hdata _ _ _ _ hmem)

/-- The next bytes, as long as there is no FIN. -/
theorem OneMeaning.emit_data {acked : UInt32} {payload : Bytes} (h : OneMeaning isn output)
    (hseq : seq = number (isn + 1) (sent output).length)
    (hroom : TxTask.inFlight payload seq acked ≤ tcpSyntheticWindowBytes)
    (hopen : output.any TcpOutput.isFin = false) (ack : UInt32) :
    OneMeaning isn (output ++ [.data seq ack payload acked]) := by
  have hsent : sent (output ++ [.data seq ack payload acked]) = sent output ++ payload := by
    rw [sent_append]
    simp [sent]
  have hnone : ∀ seq' ack', .fin seq' ack' ∉ output ++ [TcpOutput.data seq ack payload acked] := by
    intro seq' ack' hmem
    rcases mem_append.mp hmem with hold | hnew
    · have := any_eq_false.mp hopen _ hold
      exact this rfl
    · cases mem_singleton.mp hnew
  refine ⟨?_, ?_, ?_, ?_, ?_⟩
  · intro seq' ack' payload' acked' hmem
    rw [hsent, length_append]
    rcases mem_append.mp hmem with hold | hnew
    · obtain ⟨offset, hplace, hend, hslice⟩ := h.data seq' ack' payload' acked' hold
      exact ⟨offset, hplace, by omega, by rw [slice_append_left _ _ hend, ← hslice]⟩
    cases mem_singleton.mp hnew
    refine ⟨(sent output).length, hseq, Nat.le_refl _, ?_⟩
    rw [slice, ← length_append, take_length, drop_left]
  · intro seq' ack' hmem
    exact absurd hmem (hnone seq' ack')
  · intro before seq' ack' after hsplit
    exact absurd (hsplit ▸ mem_append_right _ mem_cons_self) (hnone seq' ack')
  · intro seq' ack' _ _ hmem
    exact absurd hmem (hnone seq' ack')
  · intro seq' ack' payload' acked' hmem
    rcases mem_append.mp hmem with hold | hnew
    · exact h.window seq' ack' payload' acked' hold
    · cases mem_singleton.mp hnew
      exact hroom

end Output

/-! ## One step -/

/-- What `tx_task` knows at each place of its loop, where `last` is the number behind the bytes sent
so far. -/
def TxTask.Agrees (last serverSeq : UInt32) : TxTask → Prop
  | .reading | .loadServerSeq _ | .takeFin | .stopped => serverSeq = last
  | .loadClientAcked _ sSeq | .waiting _ sSeq => serverSeq = last ∧ sSeq = last
  | .loadClientSeq payload sSeq acked | .sendData payload sSeq acked _ =>
    serverSeq = last ∧ sSeq = last ∧ inFlight payload sSeq acked ≤ tcpSyntheticWindowBytes
  | .advance payload => serverSeq + UInt32.ofNat payload.length = last
  | .finLoadClientSeq sSeq | .sendFin sSeq _ => serverSeq = last + 1 ∧ sSeq = last
  | .closed => serverSeq = last + 1

/-- The invariant of the two tasks. -/
structure FlowInv (isn : UInt32) (s : Flow) : Prop where
  output : OneMeaning isn s.output
  tx : s.tx.Agrees (number (isn + 1) (sent s.output).length) s.serverSeq

section Step

variable {isn : UInt32} {s : Flow} {tx : TxTask} {last : UInt32}

theorem FlowInv.new (isn clientSeq : UInt32) : FlowInv isn (.new isn clientSeq) := by
  refine ⟨⟨?_, ?_, ?_, ?_, ?_⟩, ?_⟩
  · simp [Flow.new]
  · simp [Flow.new]
  · simp [Flow.new]
  · simp [Flow.new]
  · simp [Flow.new]
  · simp [Flow.new, TxTask.Agrees, sent]

/-- `tx_task` is done with its answer to an event that sends nothing. -/
theorem FlowInv.moved (h : FlowInv isn s) {serverSeq : UInt32} {ackNotify : Bool}
    (htx : tx.Agrees (number (isn + 1) (sent s.output).length) serverSeq) :
    FlowInv isn { s with serverSeq := serverSeq, ackNotify := ackNotify, tx := tx } :=
  ⟨h.output, htx⟩

theorem TxTask.Agrees.abort {serverSeq : UInt32} (h : tx.Agrees last serverSeq) :
    tx.abort.Agrees last serverSeq := by
  cases tx with
  | waiting => exact h.1
  | sendData => exact h.1
  | sendFin => exact h.1
  | reading => exact h
  | loadServerSeq | loadClientAcked | loadClientSeq | advance | takeFin | finLoadClientSeq | closed
  | stopped => exact h

theorem FlowInv.txStep (h : FlowInv isn s) (event : TxEvent) (hok : Apart s (.tx event)) :
    FlowInv isn (s.txStep event) := by
  have htx := h.tx
  cases event with
  | read data =>
    unfold Flow.txStep
    cases hpc : s.tx with
    | reading =>
      rw [hpc] at htx
      dsimp only
      split
      · exact h.moved htx
      · exact h.moved htx
    | _ => exact h
  | readError =>
    unfold Flow.txStep
    cases hpc : s.tx with
    | reading =>
      rw [hpc] at htx
      exact h.moved htx
    | _ => exact h
  | timeout =>
    unfold Flow.txStep
    cases hpc : s.tx with
    | waiting =>
      rw [hpc] at htx
      exact h.moved htx.1
    | _ => exact h
  | abort =>
    unfold Flow.txStep
    dsimp only
    split
    · exact h.moved htx.abort
    · exact h
  | step ok =>
    unfold Flow.txStep
    cases hpc : s.tx with
    | reading => exact h
    | closed => exact h
    | stopped => exact h
    | loadServerSeq payload =>
      rw [hpc] at htx
      exact h.moved ⟨htx, htx⟩
    | loadClientAcked payload sSeq =>
      rw [hpc] at htx
      dsimp only
      split
      · next hroom => exact h.moved ⟨htx.1, htx.2, hroom⟩
      · exact h.moved htx
    | waiting payload sSeq =>
      rw [hpc] at htx
      dsimp only
      split
      · exact h.moved htx
      · exact h
    | loadClientSeq payload sSeq acked =>
      rw [hpc] at htx
      exact h.moved htx
    | sendData payload sSeq acked cSeq =>
      rw [hpc] at htx
      obtain ⟨hserver, hseq, hroom⟩ := htx
      cases ok with
      | false => exact h.moved hserver
      | true =>
      have hopen := hok (by rw [hpc]; rfl) rfl
      have hlength : (sent (s.output ++ [.data sSeq cSeq payload acked])).length
          = (sent s.output).length + payload.length := by
        rw [sent_append]
        simp [sent]
      refine ⟨h.output.emit_data hseq hroom hopen cSeq, ?_⟩
      have hcounted : s.serverSeq + UInt32.ofNat payload.length =
          number (isn + 1) (sent (s.output ++ [.data sSeq cSeq payload acked])).length := by
        rw [hserver, number_add, hlength]
      exact hcounted
    | advance payload =>
      rw [hpc] at htx
      exact h.moved htx
    | takeFin =>
      rw [hpc] at htx
      exact h.moved ⟨congrArg (· + 1) htx, htx⟩
    | finLoadClientSeq sSeq =>
      rw [hpc] at htx
      exact h.moved htx
    | sendFin sSeq cSeq =>
      rw [hpc] at htx
      cases ok with
      | false => exact h.moved htx.1
      | true =>
      have hsame : sent (s.output ++ [.fin sSeq cSeq]) = sent s.output := by
        rw [sent_append]
        exact append_nil _
      have htaken : s.serverSeq = number (isn + 1) (sent (s.output ++ [.fin sSeq cSeq])).length +
          1 := by
        rw [hsame]
        exact htx.1
      exact ⟨h.output.emit_fin htx.2 cSeq, htaken⟩

/-- A packet of `rx_task` carries no data. -/
theorem FlowInv.emit (h : FlowInv isn s) (ok : Bool) (hbare : sent [packet] = [])
    (hmeaning : OneMeaning isn (s.output ++ [packet])) : FlowInv isn (s.emit ok packet) := by
  cases ok with
  | false => exact h
  | true =>
    have hsent : sent (s.emit true packet).output = sent s.output := by
      show sent (s.output ++ [packet]) = sent s.output
      rw [sent_append, hbare, append_nil]
    refine ⟨hmeaning, ?_⟩
    rw [hsent]
    exact h.tx

/-- Wherever `tx_task` is, this is the number behind the bytes sent so far. -/
theorem TxTask.Agrees.counted (h : s.tx.Agrees last s.serverSeq) : s.counted = last := by
  unfold Flow.counted
  cases htx : s.tx with
  | reading | loadServerSeq | takeFin | stopped | advance =>
    rw [htx] at h
    exact h
  | loadClientAcked | waiting | loadClientSeq | sendData =>
    rw [htx] at h
    exact h.1
  | finLoadClientSeq | sendFin =>
    rw [htx] at h
    dsimp only
    rw [h.1, UInt32.add_sub_cancel]
  | closed =>
    rw [htx] at h
    dsimp only
    rw [show s.serverSeq = last + 1 from h, UInt32.add_sub_cancel]

section

variable (h : FlowInv isn s)
include h

theorem FlowInv.next (rest : List Action) : FlowInv isn (s.next rest) := ⟨h.output, h.tx⟩

theorem FlowInv.advanceTcpSeq (ok : Bool) (seq : UInt32) (rest : List Action) :
    FlowInv isn (s.advanceTcpSeq ok seq rest) := by
  unfold Flow.advanceTcpSeq
  cases s.rx.current with
  | none => exact ⟨h.output, h.tx⟩
  | some current =>
    dsimp only
    split
    · split
      · exact ⟨h.output, h.tx⟩
      · exact ⟨h.output, h.tx⟩
    · exact ⟨h.output, h.tx⟩

theorem FlowInv.perform (ok : Bool) (rest : List Action) {action : Action}
    (hok : answersFin (action :: rest) = true → ok = true → s.rx.sSeq = s.counted) :
    FlowInv isn (s.perform ok rest action) := by
  cases action with
  | advanceClientAcked seq => exact h.advanceTcpSeq ok seq rest
  | loadServerSeq => exact ⟨h.output, h.tx⟩
  | storeClientSeq seq => exact ⟨h.output, h.tx⟩
  | sendAck ack fatal =>
    unfold Flow.perform
    dsimp only
    split
    · exact ⟨h.output, h.tx⟩
    · exact (h.emit ok rfl (h.output.emit_bare rfl (by simp) (by simp))).next rest
  | sendReset ack => exact (h.emit ok rfl (h.output.emit_bare rfl (by simp) (by simp))).next rest
  | sendFin ack =>
    cases ok with
    | false => exact h.next rest
    | true =>
      have hcurrent : s.rx.sSeq = number (isn + 1) (sent s.output).length :=
        (hok rfl rfl).trans h.tx.counted
      exact (h.emit true rfl (h.output.emit_fin hcurrent ack)).next rest
  | write data => exact h.next rest
  | shutdown => exact h.next rest

theorem FlowInv.rxStep (event : RxEvent) (hok : Apart s (.rx event)) :
    FlowInv isn (s.rxStep event) := by
  cases event with
  | wake wake =>
    unfold Flow.rxStep
    dsimp only
    split
    · exact ⟨h.output, h.tx⟩
    · exact h
  | step ok =>
    unfold Flow.rxStep
    unfold Apart at hok
    cases htodo : s.rx.todo with
    | nil => exact h
    | cons action rest =>
      rw [htodo] at hok
      exact h.perform ok rest hok
  | abort =>
    unfold Flow.rxStep
    dsimp only
    split
    · unfold RxProcess.abort
      split
      · exact ⟨h.output, h.tx⟩
      · exact h
    · exact h

theorem FlowInv.step (event : Event) (hok : Apart s event) : FlowInv isn (s.step event) := by
  cases event with
  | tx event => exact h.txStep event hok
  | rx event => exact h.rxStep event hok

end

end Step

/-! ## The result -/

/-- The guest's FIN, with nothing before it. -/
def guestFin : Event := .rx (.wake (.packet ⟨1, false, 0, true, false, [], Nat.zero_le _⟩))

/-- `tx_task` has read a byte and found room for it, and then `rx_task` answers the guest's FIN:
both packets carry one number. -/
def collision : List Event :=
  [.tx (.read [7]), .tx (.step true), .tx (.step true), .tx (.step true), guestFin,
    .rx (.step true), .rx (.step true), .rx (.step true), .tx (.step true)]

theorem fin_and_data_collide : ¬ ∀ (isn clientSeq : UInt32) (events : List Event),
      OneMeaning isn (Runs.exec Flow.step (.new isn clientSeq) events).output := by
  intro hall
  have houtput : (Runs.exec Flow.step (.new 0 1) collision).output = [.fin 1 2,
      .data 1 1 [7] 1] := by decide
  have hsound := hall 0 1 collision
  have hnone : sent [.data 1 1 [7] 1] = [] := hsound.nothingAfter [] 1 2 _ rfl
  exact absurd hnone (by decide)

/-- Sequence numbers towards the guest have one meaning in every run in which `rx_task` sends its
FIN with the number that `server_seq` still counts up to, and no segment goes out behind a FIN. -/
theorem one_meaning_of_apart (isn clientSeq : UInt32) (events : List Event)
    (hrun : Runs.Along Flow.step Apart (.new isn clientSeq) events) :
    OneMeaning isn (Runs.exec Flow.step (.new isn clientSeq) events).output :=
  (Runs.Along.invariant (fun _ event hs hok => hs.step event hok) (FlowInv.new isn clientSeq)
    hrun).output

/-- The byte is sent and counted, and then the guest's FIN is answered. -/
def inTurn : List Event :=
  [.tx (.read [7]), .tx (.step true), .tx (.step true), .tx (.step true), .tx (.step true),
    .tx (.step true), guestFin, .rx (.step true), .rx (.step true), .rx (.step true)]

theorem in_turn_one_meaning : OneMeaning 0 (Runs.exec Flow.step (.new 0 1) inTurn).output ∧
      (Runs.exec Flow.step (.new 0 1) inTurn).output = [.data 1 1 [7] 1, .fin 2 2] :=
  ⟨one_meaning_of_apart 0 1 inTurn (by decide), by decide⟩

end QuicLite.Tun

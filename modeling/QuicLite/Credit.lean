import QuicLite.Flow
import QuicLite.Lib.Runs

/-!
# Credit accounting

What both halves of flow control keep track of. On the receive side, when a refused STREAM frame
leaves no trace in `ConnectionState`: not when it is the first of its stream, fits the connection
and overruns the stream. On the send side, over every run of `SendFlowControl`: credit spent is the
sum of the bytes of all streams, and `available` is the longest write that `canSend` grants.
-/

namespace QuicLite

open FirstMatch List Option Nat

/-! ## Receive accounting -/

namespace ConnectionState

variable (self : ConnectionState) {stream : StreamState}

/-- How far a stream was received; not at all while it is not open. -/
def receivedOn (id : Nat) : Nat := ((self.find id).map (·.received)).getD 0

/-- The state once the stream of a frame is open. -/
def openFor (id : Nat) : ConnectionState :=
  if (self.find id).isSome then self else self.insertStream id

/-- A frame of this stream would be its first, and the peer may open it. -/
def MayOpen (id : Nat) : Prop :=
  self.find id = none ∧ self.isLocal id = false ∧
    streamOrdinal id < if isUnidirectional id then
      self.limits.maxStreamsUni else self.limits.maxStreamsBidi

/-- What the stream of a frame that ends at `stop` may receive. -/
def Grants (id stop : Nat) : Prop :=
  (∃ stream, self.find id = some stream ∧ stop ≤ stream.maxData) ∨
    (self.MayOpen id ∧ stop ≤ self.limits.maxStreamData)

/-- What the answer to a frame that ends at `stop` leaves behind. -/
structure Accounted (before : ConnectionState) (id stop : Nat) (fin : Bool)
    (after : ConnectionState × Except Error Unit) : Prop where
  refused : ∀ e, after.2 = .error e → after.1 = before
  /-- The stream of the frame is the only one that changes. -/
  streams : after.2 = .ok () → after.1.streams = modifyFirst (fun stream => stream.id == id)
    (fun stream =>
      { stream with received := max stream.received stop, finished := stream.finished || fin })
    (before.openFor id).streams
  received : after.2 = .ok () → after.1.receivedOn id = max (before.receivedOn id) stop
  total : after.2 = .ok () →
    after.1.receivedData = before.receivedData + (after.1.receivedOn id - before.receivedOn id)
  withinConnection : after.2 = .ok () → before.receivedData ≤ before.connection.maxData →
    after.1.receivedData ≤ after.1.connection.maxData
  withinStreams : after.2 = .ok () → (∀ stream ∈ before.streams, stream.received ≤ stream.maxData) →
    ∀ stream ∈ after.1.streams, stream.received ≤ stream.maxData

/-- The first frame of a stream, within the stream limit and the credit of the connection, that ends
beyond the credit a stream starts with: the stream is inserted before its own credit is checked. -/
def OpensInVain (id stop : Nat) : Prop :=
  stop ≤ u64Max ∧ self.MayOpen id ∧
    self.connection.canReceive (satAdd self.receivedData stop) = true ∧
    self.limits.maxStreamData < stop

/-- A granted frame on a connection without limit takes the total past `u64::MAX`. -/
def Saturates (id stop : Nat) : Prop :=
  stop ≤ u64Max ∧ self.Grants id stop ∧ u64Max ≤ self.connection.maxData ∧
    u64Max < self.receivedData + (stop - self.receivedOn id)

variable {self : ConnectionState} {id offset len : Nat} {fin : Bool}

theorem find_insertStream (h : self.find id = none) :
    (self.insertStream id).find id = some (StreamState.new id self.limits.maxStreamData) := by
  unfold find at h
  simp [find, insertStream, h, StreamState.new]

theorem receivedOn_of_find (h : self.find id = some stream) :
    self.receivedOn id = stream.received := by rw [receivedOn, h]; rfl

theorem receivedOn_of_none (h : self.find id = none) : self.receivedOn id = 0 := by
  rw [receivedOn, h]; rfl

/-- A frame of a stream that is not open is only let in when the peer may open it. -/
theorem acquire_of_none (h : self.find id = none) (stop : Nat) :
    (self.MayOpen id ∧ self.connection.canReceive (satAdd self.receivedData stop) = true ∧
        self.acquire id stop = .ok (self.insertStream id)) ∨
      (¬(self.MayOpen id ∧ self.connection.canReceive (satAdd self.receivedData stop) = true) ∧
        ∃ e, self.acquire id stop = .error e) := by
  unfold acquire MayOpen
  simp only [h, isSome_none, Bool.false_eq_true, if_false, true_and]
  by_cases hlocal : self.isLocal id = true
  · exact .inr ⟨by simp [hlocal], .invalid, by rw [if_pos hlocal]⟩
  rw [if_neg hlocal]
  by_cases hlimit : (if isUnidirectional id = true then
    self.limits.maxStreamsUni else self.limits.maxStreamsBidi) ≤
      streamOrdinal id
  · exact .inr ⟨fun hbad => absurd hbad.1.2 (by omega), .streamLimit, by rw [if_pos hlimit]⟩
  rw [if_neg hlimit]
  by_cases hcredit : self.connection.canReceive (satAdd self.receivedData stop) = true
  · exact .inl ⟨⟨by simpa using hlocal, by omega⟩, hcredit, by simp [hcredit]⟩
  · exact .inr ⟨fun hbad => hcredit hbad.2, .flowControl, by simp [hcredit]⟩

theorem openFor_of_find (h : self.find id = some stream) : self.openFor id = self := by
  rw [openFor, h]
  rfl

theorem openFor_of_none (h : self.find id = none) : self.openFor id = self.insertStream id := by
  rw [openFor, h]
  rfl

theorem openFor_receivedData (self : ConnectionState) (id : Nat) :
    (self.openFor id).receivedData = self.receivedData := by
  unfold openFor
  split <;> rfl

theorem openFor_connection (self : ConnectionState) (id : Nat) :
    (self.openFor id).connection = self.connection := by
  unfold openFor
  split <;> rfl

/-- A stream that was not open has received nothing. -/
theorem openFor_received (h : (self.openFor id).find id = some stream) :
    stream.received = self.receivedOn id := by
  cases hfind : self.find id with
  | some old =>
    rw [openFor_of_find hfind, hfind, some.injEq] at h
    rw [receivedOn_of_find hfind, h]
  | none =>
    rw [openFor_of_none hfind, find_insertStream hfind, some.injEq] at h
    rw [receivedOn_of_none hfind, ← h]
    rfl

theorem openFor_within (h : ∀ stream ∈ self.streams, stream.received ≤ stream.maxData) :
    ∀ stream ∈ (self.openFor id).streams, stream.received ≤ stream.maxData := by
  intro stream hmem
  unfold openFor at hmem
  split at hmem
  · exact h stream hmem
  rcases mem_append.mp hmem with hmem | hmem
  · exact h stream hmem
  · obtain rfl := mem_singleton.mp hmem
    exact zero_le _

/-- The counters move on in the stream `stream` of the frame. -/
def takeIn (self : ConnectionState) (stream : StreamState) (id stop : Nat) (fin : Bool) :
    ConnectionState :=
  { self.modifyStream id (fun _ =>
      { stream with received := max stream.received stop, finished := stream.finished || fin }) with
    receivedData := satAdd self.receivedData (stop - stream.received) }

/-- Once its stream is open, a frame is admitted within both credits. -/
theorem accept_of_acquire {opened : ConnectionState} (hfits : offset + len ≤ u64Max)
    (hacquire : self.acquire id (offset + len) = .ok opened)
    (hfind : opened.find id = some stream) : self.accept id offset len fin =
      if opened.connection.canReceive
        (satAdd opened.receivedData (offset + len - stream.received)) = true ∧
          offset + len ≤ stream.maxData then
        (opened.takeIn stream id (offset + len) fin, .ok ())
      else (opened, .error .flowControl) := by
  unfold accept StreamState.accept
  rw [if_neg (by omega)]
  simp only [hacquire, hfind]
  by_cases hcredit : opened.connection.canReceive
    (satAdd opened.receivedData (offset + len - stream.received)) = true
  · by_cases hstream : offset + len ≤ stream.maxData
    · rw [if_neg (by simp [hcredit]), if_neg (by omega), if_neg (by omega),
        if_pos ⟨hcredit, hstream⟩]
      rfl
    · rw [if_neg (by simp [hcredit]), if_neg (by omega), if_pos (by omega),
        if_neg (fun h => hstream h.2)]
  · rw [if_pos (by simp [hcredit]), if_neg (fun h => hcredit h.1)]

theorem accounted_refused (self : ConnectionState) (id stop : Nat) (fin : Bool) (e : Error) :
    self.Accounted id stop fin (self, .error e) := by
  refine ⟨fun _ _ => rfl, ?_, ?_, ?_, ?_, ?_⟩ <;> intro h <;> cases h

/-- An admitted frame is accounted for when the sum that counts it does not saturate. -/
theorem accounted_takeIn {stop : Nat} (hfind : (self.openFor id).find id = some stream)
    (hcredit : stop ≤ stream.maxData)
    (hconnection : satAdd self.receivedData (stop - self.receivedOn id) ≤ self.connection.maxData) :
    self.Accounted id stop fin ((self.openFor id).takeIn stream id stop fin, .ok ()) ↔
      self.receivedData + (stop - self.receivedOn id) ≤ u64Max := by
  have hid : stream.id = id := by simpa using find?_some hfind
  have hreceived := openFor_received hfind
  have hnow : ((self.openFor id).takeIn stream id stop fin).receivedOn id =
      max (self.receivedOn id) stop := by
    have hlookup := find?_modifyFirst (p := fun old : StreamState => old.id == id)
      (f := fun _ =>
        { stream with received := max stream.received stop, finished := stream.finished || fin })
      (fun _ _ => (by simp [hid])) (self.openFor id).streams
    unfold find at hfind
    rw [hfind] at hlookup
    rw [← hreceived]
    exact congrArg (fun found : Option StreamState => (found.map (·.received)).getD 0) hlookup
  have htotal : ((self.openFor id).takeIn stream id stop fin).receivedData =
      satAdd self.receivedData (stop - self.receivedOn id) := by
    rw [← hreceived, ← openFor_receivedData self id]
    rfl
  constructor
  · intro h
    have hsum := h.total rfl
    rw [hnow, htotal] at hsum
    unfold satAdd at hsum
    unfold u64Max
    omega
  intro hsum
  refine ⟨fun _ h => (by cases h), fun _ => ?_, fun _ => hnow, fun _ => ?_, fun _ _ =>
    ?_, fun _ hold => ?_⟩
  · obtain ⟨l₁, l₂, hl, -, -, -, hmodify⟩ := find?_split hfind
    show modifyFirst _ _ _ = modifyFirst _ _ _
    rw [hmodify, hmodify]
  · rw [hnow, htotal]
    unfold satAdd
    unfold u64Max at hsum
    omega
  · show _ ≤ (self.openFor id).connection.maxData
    rw [htotal, openFor_connection]
    exact hconnection
  · intro old hmem
    rcases mem_modifyFirst hfind hmem with rfl | hmem
    · have := openFor_within hold stream (mem_of_find?_eq_some hfind)
      show max stream.received stop ≤ stream.maxData
      omega
    · exact openFor_within hold old hmem

theorem grants_iff {stop : Nat} {stream : StreamState}
    (hfind : (self.openFor id).find id = some stream)
    (hopen : self.find id = none → self.MayOpen id) :
    self.Grants id stop ↔ stop ≤ stream.maxData := by
  cases hold : self.find id with
  | some old =>
    rw [openFor_of_find hold, hold, some.injEq] at hfind
    constructor
    · rintro (⟨found, hfound, hle⟩ | ⟨hbad, -⟩)
      · rw [hold, some.injEq] at hfound
        rw [← hfind, hfound]
        exact hle
      have := hbad.1
      rw [hold] at this
      cases this
    · exact fun hle => .inl ⟨old, hold, hfind ▸ hle⟩
  | none =>
    rw [openFor_of_none hold, find_insertStream hold, some.injEq] at hfind
    constructor
    · rintro (⟨found, hfound, -⟩ | ⟨-, hle⟩)
      · rw [hold] at hfound
        cases hfound
      · rw [← hfind]
        exact hle
    · intro hle
      exact .inr ⟨hopen hold, by rw [← hfind] at hle; exact hle⟩

/-- The stream of a frame is open already, or the peer may open it within the credit of the
connection, or the frame is refused. -/
theorem acquire_openFor (self : ConnectionState) (id stop : Nat) :
    (∃ stream, self.acquire id stop = .ok (self.openFor id) ∧
      (self.openFor id).find id = some stream ∧
      (self.find id = none → self.MayOpen id ∧
        self.connection.canReceive (satAdd self.receivedData stop) = true ∧
        stream.maxData = self.limits.maxStreamData)) ∨
      (∃ e, self.acquire id stop = .error e ∧ self.find id = none ∧
        ¬(self.MayOpen id ∧ self.connection.canReceive (satAdd self.receivedData stop) =
          true)) := by
  cases hfind : self.find id with
  | some stream =>
    refine .inl ⟨stream, ?_, ?_, fun h => by cases h⟩
    · rw [openFor_of_find hfind, acquire, hfind]
      rfl
    · rw [openFor_of_find hfind, hfind]
  | none =>
    rcases acquire_of_none hfind stop with ⟨hopen, hcredit, hacquire⟩ | ⟨hclosed, e, hacquire⟩
    · refine .inl ⟨.new id self.limits.maxStreamData, ?_, ?_, fun _ => ⟨hopen, hcredit, rfl⟩⟩
      · rw [openFor_of_none hfind, hacquire]
      · rw [openFor_of_none hfind, find_insertStream hfind]
    · exact .inr ⟨e, hacquire, rfl, hclosed⟩

/-- `accept` leaves a refused frame without trace, and counts an admitted one exactly, except where
the frame opens its stream in vain or the total saturates. -/
theorem accept_accounted_iff (self : ConnectionState) (id offset len : Nat) (fin : Bool) :
    self.Accounted id (offset + len) fin (self.accept id offset len fin) ↔
      ¬self.OpensInVain id (offset + len) ∧ ¬self.Saturates id (offset + len) := by
  by_cases hwraps : u64Max < offset + len
  · have hrefused : self.accept id offset len fin = (self, .error .flowControl) := by
      rw [accept, if_pos hwraps]
    rw [hrefused]
    exact iff_of_true (accounted_refused _ _ _ _ _) ⟨fun h => absurd h.1 (by omega), fun h =>
      absurd h.1 (by omega)⟩
  have hfits : offset + len ≤ u64Max := by omega
  rcases acquire_openFor self id (offset + len) with ⟨stream, hacquire, hfind, hnew⟩ |
    ⟨e, hacquire, hnone, hclosed⟩
  · have hgrants := @grants_iff self id (offset + len) stream hfind fun h => (hnew h).1
    have hreceived := openFor_received hfind
    rw [accept_of_acquire hfits hacquire hfind, hreceived, openFor_receivedData, openFor_connection]
    by_cases hcredit : offset + len ≤ stream.maxData
    · have hnovain : ¬self.OpensInVain id (offset + len) := by
        rintro ⟨-, hopen, -, hover⟩
        rw [(hnew hopen.1).2.2] at hcredit
        omega
      by_cases hreceive : self.connection.canReceive
        (satAdd self.receivedData (offset + len - self.receivedOn id)) = true
      · have hle : satAdd self.receivedData (offset + len - self.receivedOn id) ≤
            self.connection.maxData := by
          simpa [FlowControl.canReceive] using hreceive
        rw [if_pos ⟨hreceive, hcredit⟩, accounted_takeIn hfind hcredit hle]
        constructor
        · exact fun hsum => ⟨hnovain, fun h => absurd h.2.2.2 (by omega)⟩
        rintro ⟨-, hsat⟩
        by_contra hsum
        refine hsat ⟨hfits, hgrants.mpr hcredit, ?_, by omega⟩
        unfold satAdd at hle
        unfold u64Max at hsum ⊢
        omega
      · rw [if_neg (fun h => hreceive h.1)]
        -- the connection has no credit left: the stream was open before
        have hopen : self.openFor id = self := by
          cases hold : self.find id with
          | some old => exact openFor_of_find hold
          | none =>
            have hzero := receivedOn_of_none hold
            rw [hzero] at hreceive
            exact absurd (hnew hold).2.1 hreceive
        rw [hopen]
        refine iff_of_true (accounted_refused _ _ _ _ _) ⟨hnovain, fun h => hreceive ?_⟩
        have hbig := h.2.2.1
        unfold FlowControl.canReceive satAdd
        unfold u64Max at hbig
        exact decide_eq_true (by omega)
    · rw [if_neg (fun h => hcredit h.2)]
      cases hold : self.find id with
      | some old =>
        rw [openFor_of_find hold]
        refine iff_of_true (accounted_refused _ _ _ _ _) ⟨?_, fun h => hcredit (hgrants.mp h.2.1)⟩
        intro h
        have := h.2.1.1
        rw [hold] at this
        cases this
      | none =>
        obtain ⟨hopen, hreceive, hmax⟩ := hnew hold
        refine iff_of_false ?_ ?_
        · intro h
          have hsame := congrArg (fun state => state.find id) (h.refused _ rfl)
          simp only [openFor_of_none hold, find_insertStream hold, hold] at hsame
          cases hsame
        · intro h
          exact h.1 ⟨hfits, hopen, hreceive, by omega⟩
  · have hrefused : self.accept id offset len fin = (self, .error e) := by
      rw [accept, if_neg hwraps]
      simp only [hacquire]
    rw [hrefused]
    refine iff_of_true (accounted_refused _ _ _ _ _) ⟨fun h => hclosed ⟨h.2.1, h.2.2.1⟩, ?_⟩
    rintro ⟨-, hgrants, hbig, -⟩
    rcases hgrants with ⟨stream, hfound, -⟩ | ⟨hopen, -⟩
    · rw [hnone] at hfound
      cases hfound
    refine hclosed ⟨hopen, ?_⟩
    unfold FlowControl.canReceive satAdd
    unfold u64Max at hbig
    exact decide_eq_true (by omega)

/-- Five bytes for a new stream that starts with credit for four: refused, but the stream is
open. -/
theorem rejected_fragment_opens_stream :
    let server := ConnectionState.new .server ⟨1200, 100, 4, 8, 8⟩
    (server.accept 4 0 5 false).2 = .error .flowControl ∧
      (server.accept 4 0 5 false).1.streams = [StreamState.new 4 4] ∧
      ¬server.Accounted 4 5 false (server.accept 4 0 5 false) := by
  refine ⟨by decide, by decide, fun h => ?_⟩
  have hsame := h.refused .flowControl (by decide)
  exact absurd (congrArg (·.streams) hsame) (by decide)

end ConnectionState

/-! ## Send accounting -/

namespace SendFlowControl

variable {credit : SendFlowControl}

inductive Op where
  | openStream (id maxData : Nat)
  | reserve (id offset len : Nat)
  | extendConnection (maxData : Nat)
  | extendStream (id maxData : Nat)
  | finishStream (id : Nat)
  | removeStream (id : Nat)

/-- A lookup that fails returns before anything is written. -/
def answer (self : SendFlowControl) :
    Except Error SendFlowControl → SendFlowControl × Except Error Unit
  | .error e => (self, .error e)
  | .ok credit => (credit, .ok ())

/-- The state after an operation, which may be refused, and its answer. -/
def perform (self : SendFlowControl) : Op → SendFlowControl × Except Error Unit
  | .openStream id maxData => (self.openStream id maxData, .ok ())
  | .reserve id offset len => self.reserve id offset len
  | .extendConnection maxData => (self.extendConnection maxData, .ok ())
  | .extendStream id maxData => self.answer (self.extendStream id maxData)
  | .finishStream id => self.answer (self.finishStream id)
  | .removeStream id => (self.removeStream id, .ok ())

/-- The send credit of an association with every stream it dropped. -/
structure Account where
  credit : SendFlowControl
  removed : List SendStreamCredit

def Account.step (account : Account) (op : Op) : Account :=
  let credit := (account.credit.perform op).1
  match op with
  | .removeStream id => ⟨credit, (account.credit.stream id).toList ++ account.removed⟩
  | _ => ⟨credit, account.removed⟩

/-- The bytes sent on every stream ever opened. -/
def Account.spent (account : Account) : Nat :=
  ((account.credit.streams ++ account.removed).map (·.sent)).sum

/-- A limit the operation carries is a limit: `u64::MAX` would be none. -/
def Op.Limited : Op → Prop
  | .extendConnection maxData => maxData < u64Max
  | .extendStream _ maxData => maxData < u64Max
  | _ => True

/-- The spent credit is counted exactly and is within every limit. -/
structure Account.Exact (account : Account) : Prop where
  within : account.credit.sentData ≤ account.credit.maxData
  streamWithin : ∀ stream ∈ account.credit.streams, stream.sent ≤ stream.maxData
  total : account.credit.sentData = account.spent
  limited : account.credit.maxData < u64Max
  streamLimited : ∀ stream ∈ account.credit.streams, stream.maxData < u64Max
  initialLimited : account.credit.initialStreamMaxData < u64Max

/-- `count` is the longest write at `offset` that is granted, and zero when none is. -/
def Longest (self : SendFlowControl) (id offset count : Nat) : Prop :=
  (∀ len, self.canSend id offset len = true → len ≤ count) ∧
    (self.canSend id offset count = true ∨ count = 0)

variable {account : Account} {stream : SendStreamCredit} {id : Nat}

theorem Account.spent_eq (account : Account) : account.spent =
    (account.credit.streams.map (·.sent)).sum + (account.removed.map (·.sent)).sum := by
  rw [spent, map_append, sum_append_nat]

section

variable (h : account.Exact) (hstream : account.credit.stream id = some stream)
include h hstream

/-- A write is granted when it ends within both limits, and neither sum saturates there. -/
theorem Account.Exact.canSend_iff (offset len : Nat) : account.credit.canSend id offset len = true ↔
      offset + len ≤ stream.maxData ∧ account.credit.sentData + (offset + len - stream.sent) ≤
        account.credit.maxData := by
  have hlimited := h.limited
  have hstreamLimited := h.streamLimited stream (mem_of_find?_eq_some hstream)
  unfold canSend
  rw [hstream]
  simp only [Bool.and_eq_true, decide_eq_true_eq]
  unfold satAdd
  unfold u64Max at hlimited hstreamLimited
  omega

theorem Account.Exact.sent_le : stream.sent ≤ account.credit.sentData := by
  rw [h.total, Account.spent_eq]
  have := sum_eraseP hstream (·.sent)
  omega

theorem Account.Exact.longest (offset : Nat) :
    ∃ count, account.credit.available id offset = some count ∧
      account.credit.Longest id offset count := by
  have hwithin := h.within
  have hsent := h.sent_le hstream
  have hlimited := h.limited
  have hconnection : satAdd stream.sent (account.credit.maxData - account.credit.sentData) =
      stream.sent + (account.credit.maxData - account.credit.sentData) := by
    unfold satAdd
    unfold u64Max at hlimited
    omega
  refine ⟨_, by rw [available, hstream, map_some], fun len hlen => ?_, ?_⟩
  · rw [h.canSend_iff hstream] at hlen
    omega
  · rw [h.canSend_iff hstream]
    omega

/-- One entry is replaced, and the total moves with its bytes. -/
theorem Account.Exact.modify
    {f : SendStreamCredit → SendStreamCredit} {sentData : Nat}
    (hsent : (f stream).sent ≤ (f stream).maxData) (hlimit : (f stream).maxData < u64Max)
    (htotal : sentData + stream.sent = account.credit.sentData + (f stream).sent)
    (hwithin : sentData ≤ account.credit.maxData) :
    Account.Exact ⟨{ account.credit.modifyStream id f with
      sentData := sentData }, account.removed⟩ := by
  refine ⟨hwithin, fun old hmem => ?_, ?_, h.limited, fun old hmem => ?_, h.initialLimited⟩
  · rcases mem_modifyFirst hstream hmem with rfl | hmem
    · exact hsent
    · exact h.streamWithin old hmem
  · have hsum := sum_modifyFirst hstream f (·.sent)
    have hold := h.total
    rw [Account.spent_eq] at hold ⊢
    show sentData = ((modifyFirst _ f account.credit.streams).map (·.sent)).sum +
      (account.removed.map (·.sent)).sum
    omega
  rcases mem_modifyFirst hstream hmem with rfl | hmem
  · exact hlimit
  · exact h.streamLimited old hmem

end

section

variable (h : account.Exact)
include h

theorem Account.Exact.openStream (id maxData : Nat) :
    Account.Exact ⟨account.credit.openStream id maxData, account.removed⟩ := by
  unfold SendFlowControl.openStream
  split
  · exact h
  refine ⟨h.within, fun stream hmem => ?_, ?_, h.limited, fun stream hmem => ?_, h.initialLimited⟩
  · rcases mem_append.mp hmem with hmem | hmem
    · exact h.streamWithin stream hmem
    · rw [mem_singleton.mp hmem]
      exact zero_le _
  · have htotal := h.total
    rw [Account.spent_eq] at htotal ⊢
    simpa using htotal
  rcases mem_append.mp hmem with hmem | hmem
  · exact h.streamLimited stream hmem
  · rw [mem_singleton.mp hmem]
    exact lt_of_le_of_lt (min_le_right _ _) h.initialLimited

theorem Account.Exact.reserve (id offset len : Nat) :
    Account.Exact ⟨(account.credit.reserve id offset len).1, account.removed⟩ := by
  unfold SendFlowControl.reserve
  cases hcan : account.credit.canSend id offset len with
  | false => exact h
  | true =>
  obtain ⟨stream, hstream⟩ := account.credit.stream_of_canSend hcan
  rw [hstream]
  obtain ⟨hend, hsum⟩ := (h.canSend_iff hstream offset len).mp hcan
  have hlimited := h.limited
  have hstreamLimited := h.streamLimited stream (mem_of_find?_eq_some hstream)
  have hsent := h.streamWithin stream (mem_of_find?_eq_some hstream)
  have hstop : satAdd offset len = offset + len := by
    unfold satAdd
    unfold u64Max at hstreamLimited
    omega
  have hnew : satAdd account.credit.sentData (offset + len - stream.sent) =
      account.credit.sentData + (offset + len - stream.sent) := by
    unfold satAdd
    unfold u64Max at hlimited
    omega
  refine h.modify hstream ?_ hstreamLimited ?_ ?_
  · show max stream.sent (satAdd offset len) ≤ stream.maxData
    omega
  · show satAdd account.credit.sentData (satAdd offset len - stream.sent) + _ = _ +
      max stream.sent (satAdd offset len)
    rw [hstop, hnew]
    omega
  · show satAdd account.credit.sentData (satAdd offset len - stream.sent) ≤ _
    rw [hstop, hnew]
    exact hsum

/-- A dropped stream keeps its place in the sum. -/
theorem Account.Exact.removeStream (id : Nat) :
    Account.Exact ⟨account.credit.removeStream id, (account.credit.stream id).toList ++
      account.removed⟩ := by
  refine ⟨h.within, fun stream hmem => h.streamWithin stream (mem_of_mem_eraseP hmem), ?_,
    h.limited, fun stream hmem => h.streamLimited stream (mem_of_mem_eraseP hmem), h.initialLimited⟩
  have htotal := h.total
  rw [Account.spent_eq] at htotal ⊢
  show account.credit.sentData = ((account.credit.streams.eraseP _).map (·.sent)).sum + _
  cases hstream : account.credit.stream id with
  | none =>
    rw [eraseP_of_forall_not]
    · simpa using htotal
    · simpa [stream] using hstream
  | some stream =>
    have hsum := sum_eraseP hstream (·.sent)
    simp only [toList_some, cons_append, nil_append, map_cons, sum_cons]
    omega

theorem Account.Exact.step {op : Op} (hop : op.Limited) : (account.step op).Exact := by
  unfold Account.step
  cases op with
  | openStream => exact h.openStream ..
  | reserve => exact h.reserve ..
  | extendConnection maxData =>
    exact ⟨le_trans h.within (le_max_left _ _), h.streamWithin, h.total, max_lt h.limited hop,
      h.streamLimited, h.initialLimited⟩
  | extendStream id maxData =>
    simp only [perform, extendStream]
    cases hstream : account.credit.stream id with
    | none => exact h
    | some stream =>
      have hmem := mem_of_find?_eq_some hstream
      exact h.modify hstream (le_trans (h.streamWithin stream hmem) (le_max_left _ _))
        (max_lt (h.streamLimited stream hmem) hop) rfl h.within
  | finishStream id =>
    simp only [perform, finishStream]
    cases hstream : account.credit.stream id with
    | none => exact h
    | some stream =>
      have hmem := mem_of_find?_eq_some hstream
      exact h.modify hstream (h.streamWithin stream hmem) (h.streamLimited stream hmem) rfl h.within
  | removeStream => exact h.removeStream ..

end

/-- Bootstrap credit is only taken while nothing was sent. -/
theorem setInitialLimits_exact {fresh : SendFlowControl} {maxData maxStreamData : Nat}
    (hinit : fresh.setInitialLimits maxData maxStreamData = .ok credit) (hdata : maxData < u64Max)
    (hstreamData : maxStreamData < u64Max) : Account.Exact ⟨credit, []⟩ := by
  unfold setInitialLimits at hinit
  split at hinit
  · cases hinit
  rename_i hunused
  cases hinit
  have hsent : fresh.sentData = 0 := by
    by_contra hne
    exact hunused (by simp [hne])
  have hstreams : fresh.streams = [] := by
    by_contra hne
    exact hunused (by simp [hne])
  refine ⟨by simp [hsent], by simp [hstreams], by simp [Account.spent, hsent, hstreams], hdata,
    by simp [hstreams],
    hstreamData⟩

/-- Within limits that are limits, the credit spent is the bytes of all streams and `available` is
the longest write that is granted, after any run. -/
theorem credit_exact {fresh credit : SendFlowControl} {maxData maxStreamData : Nat}
    (hinit : fresh.setInitialLimits maxData maxStreamData = .ok credit) (hdata : maxData < u64Max)
    (hstreamData : maxStreamData < u64Max) (ops : List Op) (hops : ∀ op ∈ ops, op.Limited) :
    let account := Runs.exec Account.step ⟨credit, []⟩ ops
    account.credit.sentData ≤ account.credit.maxData ∧
      (∀ stream ∈ account.credit.streams, stream.sent ≤ stream.maxData) ∧
      account.credit.sentData = account.spent ∧
      (∀ id offset len e, (account.credit.reserve id offset len).2 = .error e →
        account.step (.reserve id offset len) = account) ∧
      ∀ id offset, (account.credit.stream id).isSome →
        ∃ count, account.credit.available id offset = some count ∧
          account.credit.Longest id offset count := by
  have hexact : (Runs.exec Account.step ⟨credit, []⟩ ops).Exact := by
    have hrun : Runs.Along Account.step (fun _ op => op.Limited) ⟨credit, []⟩ ops :=
      Runs.Along.of_forall fun op hop _ => hops op hop
    exact Runs.Along.invariant (fun account op h hop => h.step hop)
      (setInitialLimits_exact hinit hdata hstreamData) hrun
  refine ⟨hexact.within, hexact.streamWithin, hexact.total, fun id offset len e hreserve =>
    ?_, fun id offset hopen => ?_⟩
  · have hsame := reserve_refused _ hreserve
    simp only [Account.step, perform, hsame]
  · obtain ⟨stream, hstream⟩ := isSome_iff_exists.mp hopen
    exact hexact.longest hstream offset

/-- Two streams share a connection; the second is dropped, and what is left of the first is
counted. -/
theorem credit_exact_shared :
    let account := Runs.exec Account.step ⟨⟨100, 60, 0, []⟩, []⟩
      [.openStream 4 80, .openStream 8 50, .reserve 4 0 40, .reserve 8 0 50, .removeStream 8]
    account.credit.available 4 40 = some 10 ∧ account.credit.sentData = account.spent :=
  have h := @credit_exact (.new 1 1) ⟨100, 60, 0, []⟩ 100 60 rfl (by decide) (by decide)
    [.openStream 4 80, .openStream 8 50, .reserve 4 0 40, .reserve 8 0 50, .removeStream 8]
      (by simp [Op.Limited])
  ⟨by decide, h.2.2.1⟩

/-- Without limits the sum stops at `u64::MAX`, and a write is granted where `available` sees no
room. -/
theorem unlimited_credit_inexact :
    let account := Runs.exec Account.step ⟨⟨u64Max, u64Max, 0, []⟩, []⟩
      [.openStream 4 u64Max, .openStream 8 u64Max, .reserve 4 0 u64Max, .reserve 8 0 u64Max]
    (SendFlowControl.new 1 1).setInitialLimits u64Max u64Max = .ok ⟨u64Max, u64Max, 0, []⟩ ∧
      account.credit.sentData ≠ account.spent ∧
      account.credit.available 4 u64Max = some 0 ∧ account.credit.canSend 4 u64Max 1 = true := by
  decide

end SendFlowControl

end QuicLite

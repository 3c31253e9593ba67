import QuicLite.Endpoint.Ops
import QuicLite.RetiredIds

/-!
# Packets for retired streams

A retransmission may arrive after its stream was retired. Its packet is acknowledged like any other,
but its STREAM frames are dropped before any of them is admitted. `Retires` is what everything else
in a packet may do to the receive state: retire streams, and nothing to the bytes received.
-/

namespace QuicLite

open List

variable {r : ConnectionState} {id x : Nat} {stream : StreamState} {offset len : Nat} {fin : Bool}

/-- Streams may have been retired; none came back, and no byte was counted. -/
structure ConnectionState.Retires (r r' : ConnectionState) : Prop where
  data : r'.receivedData = r.receivedData
  retired : ∀ id, r.isRetired id = true → r'.isRetired id = true
  absent : ∀ id, r.find id = none → r'.find id = none

namespace ConnectionState.Retires

variable {r r' r'' : ConnectionState}

theorem refl (r : ConnectionState) : Retires r r := ⟨rfl, fun _ => id, fun _ => id⟩

theorem trans (h : Retires r r') (h' : Retires r' r'') : Retires r r'' :=
  ⟨h'.data.trans h.data, fun id hid => h'.retired id (h.retired id hid), fun id hid =>
    h'.absent id (h.absent id hid)⟩

theorem of_eq (h : r' = r) : Retires r r' := by
  rw [h]
  exact refl r

theorem retireStream (r : ConnectionState) (id : Nat) : Retires r (r.retireStream id) := by
  refine ⟨?_, fun _ => isRetired_of_retireStream, ?_⟩
  · unfold ConnectionState.retireStream
    split_ifs <;> rfl
  intro x hx
  unfold ConnectionState.retireStream
  split_ifs
  · exact hx
  unfold find at hx ⊢
  rw [find?_eq_none] at hx ⊢
  intro stream hmem
  exact hx stream (mem_of_mem_eraseP hmem)

end ConnectionState.Retires

namespace EndpointState

open ConnectionState (Retires)

variable {P : Nat} (s : EndpointState P)

theorem tryRetireStream_retires (streamId : Nat) :
    Retires s.receive (s.tryRetireStream streamId).receive := by
  unfold tryRetireStream
  split
  · exact .refl _
  have hremove : Retires s.receive (s.removeStream streamId).receive :=
    .retireStream s.receive streamId
  simp only
  split
  · refine hremove.trans ?_
    unfold replenishStreams
    simp only
    split <;> exact ⟨rfl, fun _ => id, fun _ => id⟩
  · exact hremove

theorem foldl_tryRetireStream_retires {α : Type} (key : α → Nat) (s : EndpointState P)
    (l : List α) :
    Retires s.receive (l.foldl (fun t a => t.tryRetireStream (key a)) s).receive := by
  induction l generalizing s with
  | nil => exact .refl _
  | cons a l ih => exact (tryRetireStream_retires s (key a)).trans (ih _)

/-! ## Control frames -/

theorem receiveFlowControl_receive (frames : List Frame) (s : EndpointState P) :
    (receiveFlowControl frames s).1.receive = s.receive := by
  induction frames generalizing s with
  | nil => rfl
  | cons frame frames ih =>
    unfold receiveFlowControl
    split
    · exact ih _
    · split
      · exact ih s
      split
      · rfl
      · exact ih _
    · exact ih _
    · exact ih _
    · exact ih s

theorem applyAckFrequency_receive (request : Nat × Nat × Nat × Nat) :
    (s.applyAckFrequency request).1.receive = s.receive := by
  unfold applyAckFrequency
  simp only
  split
  · rfl
  · split <;> rfl

theorem detectAckLosses_receive (pathId : Nat) (largestAcked : Option Nat) :
    (s.detectAckLosses pathId largestAcked).receive = s.receive := by
  unfold detectAckLosses
  split <;> rfl

theorem detectLosses_receive : s.detectLosses.receive = s.receive := by
  unfold detectLosses
  generalize range s.paths.length = ids
  induction ids generalizing s with
  | nil => rfl
  | cons id ids ih =>
    rw [foldl_cons, ih]
    exact detectAckLosses_receive s id _

theorem takeRttSample_receive (candidate : Option (Nat × Option Nat)) (delay path : Nat) :
    (s.takeRttSample candidate delay path).receive = s.receive := by
  unfold takeRttSample
  split <;> rfl

theorem retireTransmissions_receive (acknowledged : AckRangeSet) (scan : AckScan) :
    (s.retireTransmissions acknowledged scan).receive = s.receive := by
  unfold retireTransmissions raiseReceiveFloor
  simp only
  split <;> rfl

theorem retireCredit_receive : s.retireCredit.receive = s.receive := by
  unfold retireCredit
  split <;> rfl

theorem applyAckRangesOnPath_retires (acknowledged : AckRangeSet) (delay path : Nat) :
    Retires s.receive (s.applyAckRangesOnPath acknowledged delay path).1.receive := by
  unfold applyAckRangesOnPath acknowledge
  split
  · exact .refl _
  extract_lets +lift s₁ s₂ s₃ scan data fins newlyAcked s₄ s₅ s₆
  have h₂ : s₂.receive = s.receive := by
    unfold s₂
    split
    · exact retireCredit_receive s₁
    · rfl
  have h₄ : s₄.receive = s.receive := (retireTransmissions_receive s₃ acknowledged scan).trans h₂
  have h₅ : Retires s.receive s₅.receive := by
    rw [← h₄]
    exact foldl_tryRetireStream_retires _ s₄ _
  rw [detectLosses_receive, takeRttSample_receive]
  exact h₅

theorem applyControl_retires (parsed : ParsedFrames) (path : Nat) :
    Retires s.receive (s.applyControl parsed path).1.receive :=
  applyControl_along (R := fun s t => Retires s.receive t.receive) (fun _ => .refl _) .trans
    (.of_eq (receiveFlowControl_receive parsed.frames s)) (fun t _ _ =>
      applyAckRangesOnPath_retires t ..)
    fun t _ => .of_eq (applyAckFrequency_receive t _)

/-! ## STREAM frames -/

theorem scheduleAck_receive (pathId : Nat) (immediate : Bool) :
    (s.scheduleAck pathId immediate).receive = s.receive := by
  unfold scheduleAck
  split <;> rfl

theorem observePacketOnPath_receive (packetNumber pathId : Nat) :
    (s.observePacketOnPath packetNumber pathId).receive = s.receive := by
  unfold observePacketOnPath
  split
  · rfl
  split
  · rfl
  · simp only
    split <;> rfl

theorem commitStreamPacketReceive_receive (packetNumber path : Nat) :
    (s.commitStreamPacketReceive packetNumber path).receive = s.receive := by
  unfold commitStreamPacketReceive
  rw [scheduleAck_receive, observePacketOnPath_receive]
  split <;> rfl

end EndpointState

/-! ## STREAM frames -/

theorem StreamState.accept_id {stream' : StreamState}
    (h : stream.accept offset len fin = .ok stream') : stream'.id = stream.id := by
  unfold StreamState.accept at h
  split_ifs at h
  rw [← Except.ok.inj h]

namespace ConnectionState

theorem find_id (h : r.find id = some stream) : stream.id = id := by
  simpa using find?_some h

/-- Replacing a stream's entry does not bring another stream. -/
theorem find_modifyStream_other {f : StreamState → StreamState} (hne : x ≠ id)
    (hf : ∀ stream, (f stream).id = id) : (r.modifyStream id f).find x = r.find x := by
  apply FirstMatch.find?_modifyFirst_other
  intro stream hstream
  have hid : stream.id = id := by simpa using hstream
  simp [hf stream, hid, Ne.symm hne]

/-- Admitting a frame creates no stream but its own. -/
theorem find_accept (hne : x ≠ id) (h : r.find x = none) :
    (r.accept id offset len fin).1.find x = none := by
  have hinsert : ∀ r₁, r.acquire id (offset + len) = .ok r₁ → r₁.find x = none := by
    intro r₁ hacquire
    rcases acquire_cases hacquire with ⟨-, rfl⟩ | ⟨-, -, rfl⟩
    · exact h
    unfold find insertStream at *
    rw [find?_append, h]
    simp [StreamState.new, Ne.symm hne]
  unfold accept
  split
  · exact h
  simp only
  split
  · exact h
  rename_i r₁ hacquire
  have hr₁ := hinsert r₁ hacquire
  split
  · exact hr₁
  rename_i stream hfind
  split
  · exact hr₁
  split
  · exact hr₁
  rename_i stream' haccept
  show (r₁.modifyStream id fun _ => stream').find x = none
  rw [find_modifyStream_other hne fun _ =>
    (StreamState.accept_id haccept).trans (find_id hfind), hr₁]

end ConnectionState

namespace EndpointState

open ConnectionState (Retires)

variable {P : Nat}

theorem find_acceptStreams {frames : List StreamFrame}
    (hframes : ∀ frame ∈ frames, frame.id ≠ x) (h : r.find x = none) :
    (acceptStreams frames r).1.find x = none := by
  induction frames generalizing r with
  | nil => exact h
  | cons frame frames ih =>
    have hrest : ∀ f ∈ frames, f.id ≠ x := (forall_mem_cons.mp hframes).2
    have haccept : (r.accept frame.id frame.offset frame.data.length frame.fin).1.find x = none :=
      ConnectionState.find_accept (hframes frame mem_cons_self).symm h
    unfold acceptStreams
    split
    · rename_i heq
      rwa [heq] at haccept
    rename_i heq
    rw [heq] at haccept
    exact ih hrest haccept

/-! ## Packets -/

/-- What a packet with these STREAM frames does to the receive state `r`: retirement apart, it
admits frames of streams that are not retired, and only those may be handed on. -/
def SparesRetired (r : ConnectionState) (streams : List StreamFrame)
    (outcome : EndpointState P × Except Error TransportFrames) : Prop :=
  ∃ (r₁ : ConnectionState) (live : List StreamFrame),
    Retires r r₁ ∧ live.Sublist streams ∧ (∀ frame ∈ live, r₁.isRetired frame.id = false) ∧
      Retires (acceptStreams live r₁).1 outcome.1.receive ∧
      ∀ frames, outcome.2 = .ok frames → frames.streams = [] ∨ frames.streams = live

variable {r : ConnectionState} {streams : List StreamFrame}
    {outcome : EndpointState P × Except Error TransportFrames}

theorem SparesRetired.of_retires (h : Retires r outcome.1.receive)
    (hnone : ∀ frames, outcome.2 = .ok frames → frames.streams = []) :
    SparesRetired r streams outcome :=
  ⟨outcome.1.receive, [], h, nil_sublist _, by simp, .refl _, fun frames hframes =>
    .inl (hnone frames hframes)⟩

theorem SparesRetired.after {r' : ConnectionState} (hr : Retires r r')
    (h : SparesRetired r' streams outcome) :
    SparesRetired r streams outcome := by
  obtain ⟨r₁, live, hbefore, hrest⟩ := h
  exact ⟨r₁, live, hr.trans hbefore, hrest⟩

section

variable (h : SparesRetired r streams outcome)
include h

theorem SparesRetired.find (hid : r.isRetired id = true)
    (hnone : r.find id = none) : outcome.1.receive.find id = none := by
  obtain ⟨r₁, live, hbefore, -, hlive, hafter, -⟩ := h
  apply hafter.absent
  apply find_acceptStreams
  · intro frame hframe heq
    have := hlive frame hframe
    rw [heq, hbefore.retired id hid] at this
    cases this
  · exact hbefore.absent id hnone

theorem SparesRetired.returned {frames : TransportFrames}
    (hok : outcome.2 = .ok frames) {frame : StreamFrame} (hframe : frame ∈ frames.streams) :
    r.isRetired frame.id = false := by
  obtain ⟨r₁, live, hbefore, -, hlive, -, hreturned⟩ := h
  rcases hreturned frames hok with hnil | hall
  · rw [hnil] at hframe
    cases hframe
  rw [hall] at hframe
  by_contra hretired
  have := hbefore.retired frame.id (by simpa using hretired)
  rw [hlive frame hframe] at this
  cases this

/-- A packet with frames of retired streams only counts no byte. -/
theorem SparesRetired.receivedData
    (hall : ∀ frame ∈ streams, r.isRetired frame.id = true) :
    outcome.1.receive.receivedData = r.receivedData := by
  obtain ⟨r₁, live, hbefore, hsub, hlive, hafter, -⟩ := h
  have hnil : live = [] := by
    apply eq_nil_iff_forall_not_mem.mpr
    intro frame hframe
    have := hbefore.retired frame.id (hall frame (hsub.subset hframe))
    rw [hlive frame hframe] at this
    cases this
  rw [hnil] at hafter
  exact hafter.data.trans hbefore.data

end

variable (s : EndpointState P)

theorem receiveStreams_sparesRetired (header : ShortHeader) (streams : List StreamFrame)
    (path : Nat) (deferAck : Bool) :
    SparesRetired s.receive streams (s.receiveStreams header streams path deferAck) := by
  unfold receiveStreams
  extract_lets live
  have hlive : ∀ frame ∈ live, s.receive.isRetired frame.id = false := by
    intro frame hframe
    simpa using (mem_filter.mp hframe).2
  split
  · rename_i receive e heq
    refine ⟨s.receive, live, .refl _, filter_sublist, hlive, ?_, by simp⟩
    rw [heq]
    exact .refl _
  rename_i receive heq
  extract_lets s₁ s₂ s₃
  have hretire : Retires s₁.receive s₂.receive := foldl_tryRetireStream_retires StreamFrame.id s₁ _
  have hcommit : s₃.receive = s₂.receive := by
    unfold s₃
    split
    · rfl
    · exact commitStreamPacketReceive_receive _ _ _
  refine ⟨s.receive, live, .refl _, filter_sublist, hlive, ?_, ?_⟩
  · rw [heq]
    exact hretire.trans (.of_eq hcommit)
  intro frames h
  rw [← Except.ok.inj h]
  exact .inr rfl

theorem applyPacket_sparesRetired (header : ShortHeader) (parsed : ParsedFrames)
    (duplicate : Bool) (path : Nat) (deferAck : Bool) : SparesRetired s.receive parsed.streams
      (s.applyPacket header parsed duplicate path deferAck) := by
  have hcontrol := applyControl_retires s parsed path
  rcases s.applyPacket_cases header parsed duplicate path deferAck with
    ⟨t, e, ht | ht, heq⟩ | ⟨s₁, t, rfl, ⟨code, pending, ht⟩, heq | ⟨-, ⟨u, hu, heq⟩ | heq⟩⟩ <;>
      rw [heq]
  · exact .of_retires (.of_eq (by rw [ht])) (by simp)
  · exact .of_retires (ht ▸ hcontrol) (by simp)
  all_goals have hbefore : Retires s.receive t.receive := ht ▸ hcontrol
  · exact .of_retires (hbefore.trans (.of_eq (scheduleAck_receive ..))) (by simp)
  · have hobserve := observePacketOnPath_receive t header.packetNumber path
    rcases hu with rfl | ⟨immediate, rfl⟩
    · exact .of_retires (hbefore.trans (.of_eq hobserve)) (by simp)
    · exact .of_retires (hbefore.trans (.of_eq ((scheduleAck_receive ..).trans hobserve))) (by simp)
  · exact (receiveStreams_sparesRetired t header parsed.streams path deferAck).after hbefore

/-- The STREAM frames of a packet that parses. -/
def streamsOf (s : EndpointState P) (input : Bytes) : List StreamFrame :=
  match ShortHeader.decodeWithExpected input s.expectedPacketNumber with
  | .error _ => []
  | .ok (_, headerLen) =>
    match parseFrames s.receive.limits.maxDatagramFrameSize input.length (input.drop headerLen)
      emptyParse with
    | .error _ => []
    | .ok parsed => parsed.streams

theorem receivePacketBatchOnPath_sparesRetired (input : Bytes) (path : Nat) (deferAck : Bool) :
    SparesRetired s.receive (s.streamsOf input)
    (s.receivePacketBatchOnPath input path deferAck) := by
  rcases s.receivePacketBatchOnPath_cases input path deferAck with
    ⟨e, heq⟩ | ⟨header, headerLen, hheader, heq | heq | ⟨-, -, parsed, hparsed, heq⟩⟩ <;> rw [heq]
  · exact .of_retires (.refl _) (by simp)
  · exact .of_retires (.refl _) (by simp)
  · exact .of_retires ⟨rfl, fun _ => id, fun _ => id⟩ (by simp)
  have hstreams : s.streamsOf input = parsed.streams := by
    unfold streamsOf
    rw [hheader]
    simp only
    rw [hparsed]
  rw [hstreams]
  exact applyPacket_sparesRetired s _ _ _ path deferAck

/-- Retired ids are remembered exactly over every history of the receive state, and no packet,
whatever state it meets, brings a retired stream back, counts its bytes or hands its frames on. -/
theorem retired_ids_remembered (role : Role) (limits : ConnectionLimits)
    (ops : List ConnectionState.Op)
    (hids : Runs.Along ConnectionState.step (fun _ op => ConnectionState.InRange op)
      (ConnectionState.new role limits) ops)
    (s : EndpointState P) (input : Bytes) (path : Nat) (deferAck : Bool) :
    (let final := Runs.exec ConnectionState.step (ConnectionState.new role limits) ops
     (∀ id, final.isRetired id = true ↔
        id ∈ Runs.trace ConnectionState.step ConnectionState.retired
          (ConnectionState.new role limits) ops) ∧
      final.retiredStreams.Pairwise (fun a b => a.1 < b.1) ∧
        final.retiredStreams.Pairwise Separated ∧
      ∀ range ∈ final.retiredStreams, Strided range) ∧
    (let outcome := s.receivePacketBatchOnPath input path deferAck
     SparesRetired s.receive (s.streamsOf input) outcome ∧
      (∀ id, s.receive.isRetired id = true → s.receive.find id = none →
        outcome.1.receive.find id = none) ∧
      ((∀ frame ∈ s.streamsOf input, s.receive.isRetired frame.id = true) →
        outcome.1.receive.receivedData = s.receive.receivedData) ∧
      ∀ frames, outcome.2 = .ok frames → ∀ frame ∈ frames.streams,
        s.receive.isRetired frame.id = false) := by
  obtain ⟨hinv, hexact⟩ := ConnectionState.retired_of_run role limits hids
  have hpacket := receivePacketBatchOnPath_sparesRetired s input path deferAck
  refine ⟨⟨hexact, hinv.sorted, hinv.separated, hinv.strided⟩, hpacket, ?_, ?_, ?_⟩
  · exact fun id hid hnone => hpacket.find hid hnone
  · exact hpacket.receivedData
  · exact fun frames hok frame hframe => hpacket.returned hok hframe

/-- A client retires streams 4, 12 and then 8, which joins the first two; stream 16 was never
opened. -/
def retireRun : List ConnectionState.Op :=
  [.openLocal 4, .openLocal 8, .openLocal 12, .retire 4, .retire 12, .retire 8, .retire 16]

theorem retireRun_remembered :
    let start := .new .client ⟨1000, 100000, 50000, 16, 4⟩
    let final := Runs.exec ConnectionState.step start retireRun
    Runs.Along ConnectionState.step (fun _ op => ConnectionState.InRange op) start retireRun ∧
      final.retiredStreams = [(4, 12)] ∧ (final.isRetired 16 = true ↔ 16 ∈ [4, 12, 8]) := by
  intro start final
  have hids : Runs.Along ConnectionState.step (fun _ op => ConnectionState.InRange op) start
      retireRun := by
    simp [Runs.Along, retireRun, ConnectionState.InRange, idBound]
  have hexact := (retired_ids_remembered .client ⟨1000, 100000, 50000, 16, 4⟩ retireRun hids
    freshClient [] 0 false).1.1
  exact ⟨hids, by decide, hexact 16⟩

end EndpointState

end QuicLite

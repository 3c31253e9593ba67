import QuicLite.Endpoint.Ops
import QuicLite.Wire.RoundTrip

/-!
# What a packet is made of

Said once for every call that can write one: a packet is the header it was started with followed by
the wire form of its frames (`Packet.Formed`), and control frames carry the limits now in force and
what their flags promise (`ControlSpec`).
-/

namespace QuicLite

open List Except

/-! ## Bytes -/

variable {f : Frame} {bs : Bytes} {fs : List Frame} {capacity : Nat}

/-- The bytes are the wire forms of the frames, each of which can be encoded. -/
structure Wired (frames : List Frame) (bytes : Bytes) : Prop where
  bytes_eq : bytes = frames.flatMap Frame.wire
  encodable : ∀ f ∈ frames, f.Encodable

namespace Wired

theorem nil : Wired [] [] := ⟨rfl, by simp⟩

theorem append {gs : List Frame} {cs : Bytes} (h : Wired fs bs) (h' : Wired gs cs) :
    Wired (fs ++ gs) (bs ++ cs) := by
  refine ⟨by rw [h.bytes_eq, h'.bytes_eq, flatMap_append], ?_⟩
  intro f hf
  rcases mem_append.mp hf with hf | hf
  · exact h.encodable f hf
  · exact h'.encodable f hf

theorem single (h : f.encode capacity = .ok bs) : Wired [f] bs := by
  obtain ⟨henc, rfl, -⟩ := Frame.encode_eq_ok.mp h
  exact ⟨by simp, by simpa using henc⟩

theorem padding (n : Nat) : Wired (replicate n .padding)
    (replicate n (UInt8.ofNat framePadding)) := by
  induction n with
  | zero => exact nil
  | succ n ih =>
    have hone : Wired [.padding] [UInt8.ofNat framePadding] :=
      single (by rfl : Frame.padding.encode 1 = _)
    exact hone.append ih

end Wired

namespace Packet

/-- The packet is this header followed by its frames, in a buffer of this capacity. -/
structure Formed (header : ShortHeader) (capacity : Nat) (pkt : Packet) : Prop where
  header_eq : pkt.header = header
  body : ∃ body, pkt.bytes = header.bytes ++ body ∧ Wired pkt.frames body
  fits : pkt.bytes.length ≤ capacity

variable {header : ShortHeader} {capacity : Nat} {pkt pkt' : Packet}

theorem start_ok (h : start header capacity = .ok pkt) :
    pkt = ⟨header, [], header.bytes⟩ ∧ header.bytes.length ≤ capacity := by
  simp only [start, bind_eq_ok] at h
  obtain ⟨bytes, hbytes, h⟩ := h
  obtain ⟨rfl, hlen⟩ := ShortHeader.encode_eq_ok.mp hbytes
  exact ⟨(ok.inj h).symm, hlen⟩

theorem Formed.start (h : start header capacity = .ok pkt) : Formed header capacity pkt := by
  obtain ⟨rfl, hlen⟩ := start_ok h
  exact ⟨rfl, ⟨[], by simp, Wired.nil⟩, hlen⟩

theorem push_ok (h : pkt.push f capacity = .ok pkt') :
    ∃ bytes, pkt' = ⟨pkt.header, pkt.frames ++ [f], pkt.bytes ++ bytes⟩ ∧ Wired [f] bytes ∧
      bytes.length ≤ capacity - pkt.bytes.length := by
  simp only [push, bind_eq_ok] at h
  obtain ⟨bytes, hbytes, h⟩ := h
  exact ⟨bytes, (ok.inj h).symm, .single hbytes, (Frame.encode_eq_ok.mp hbytes).2.2⟩

section

variable (hpkt : Formed header capacity pkt)
include hpkt

theorem Formed.mono {room : Nat} (hle : capacity ≤ room) : Formed header room pkt :=
  ⟨hpkt.header_eq, hpkt.body, hpkt.fits.trans hle⟩

theorem Formed.extend (h : Wired fs bs) (hfits : bs.length ≤ capacity - pkt.bytes.length) :
    Formed header capacity ⟨pkt.header, pkt.frames ++ fs, pkt.bytes ++ bs⟩ := by
  obtain ⟨hheader, ⟨body, hbytes, hbody⟩, hlen⟩ := hpkt
  refine ⟨hheader, ⟨body ++ bs, by rw [hbytes, append_assoc], hbody.append h⟩, ?_⟩
  rw [length_append]
  omega

theorem Formed.push (h : pkt.push f capacity = .ok pkt') :
    Formed header capacity pkt' ∧ pkt'.frames = pkt.frames ++ [f] := by
  obtain ⟨bytes, rfl, hwired, hfits⟩ := push_ok h
  exact ⟨hpkt.extend hwired hfits, rfl⟩

theorem Formed.pushAll {frames : List Frame}
    (h : EndpointState.pushAll pkt capacity frames = .ok pkt') :
    Formed header capacity pkt' ∧ pkt'.frames = pkt.frames ++ frames := by
  induction frames generalizing pkt with
  | nil =>
    rw [EndpointState.pushAll, ok.injEq] at h
    rw [← h]
    exact ⟨hpkt, by simp⟩
  | cons f frames ih =>
    simp only [EndpointState.pushAll, bind_eq_ok] at h
    obtain ⟨next, hnext, h⟩ := h
    obtain ⟨hpushed, hframe⟩ := hpkt.push hnext
    obtain ⟨hformed, hframes⟩ := ih hpushed h
    exact ⟨hformed, by rw [hframes, hframe, append_assoc, singleton_append]⟩

theorem Formed.padChallenge (frame : Frame) {target : Nat} (htarget : target ≤ capacity) :
    Formed header capacity (EndpointState.padChallenge pkt frame target) := by
  unfold EndpointState.padChallenge
  split
  · exact hpkt.extend (.padding _) (by rw [length_replicate]; omega)
  · exact hpkt

end

end Packet

namespace EndpointState

variable {P : Nat} {piggyback : Bool}

/-! ## Control frames -/

/-- A credit frame that carries the limit now in force; control frames carry nothing else of a
stream. -/
def Current (s : EndpointState P) : Frame → Prop
  | .maxData max => max = s.receive.connection.maxData
  | .maxStreamData id max => max = s.advertisedStreamLimit id
  | .maxStreamsBidi max => max = s.receive.limits.maxStreamsBidi
  | .ackRanges .. | .ackFrequency .. => True
  | _ => False

/-- What encoded control frames hold: only current values, and those their flags promise. -/
structure ControlSpec (s : EndpointState P) (capacity : Nat)
    (control : EncodedControlFrames) : Prop where
  wired : Wired control.frames control.bytes
  fits : control.bytes.length ≤ capacity
  current : ∀ f ∈ control.frames, s.Current f
  maxData : control.credit → .maxData s.receive.connection.maxData ∈ control.frames
  streams : ∀ id ∈ s.publishedStreamIds.take control.creditStreamCount,
    .maxStreamData id (s.advertisedStreamLimit id) ∈ control.frames
  maxStreams : control.creditMaxStreamsBidi →
    .maxStreamsBidi s.receive.limits.maxStreamsBidi ∈ control.frames

namespace ControlSpec

variable {s : EndpointState P} {control control' : EncodedControlFrames} {capacity : Nat}
    {written : Written}

theorem empty (s : EndpointState P) (capacity : Nat) :
    ControlSpec s capacity EncodedControlFrames.empty :=
  ⟨.nil, by simp [EncodedControlFrames.empty], by simp [EncodedControlFrames.empty],
    by simp [EncodedControlFrames.empty],
    by simp [EncodedControlFrames.empty], by simp [EncodedControlFrames.empty]⟩

section

variable (h : ControlSpec s capacity control)
include h

theorem push (hf : s.Current f) (hpush : control.push f capacity = .ok control') :
    ControlSpec s capacity control' ∧ control' = { control with
      frames := control.frames ++ [f], bytes := control'.bytes } := by
  simp only [EncodedControlFrames.push, bind_eq_ok, ok.injEq] at hpush
  obtain ⟨bytes, hbytes, rfl⟩ := hpush
  have hlen := (Frame.encode_eq_ok.mp hbytes).2.2
  have hfits := h.fits
  refine ⟨⟨h.wired.append (.single hbytes), by simp only [length_append]; omega, ?_, ?_, ?_, ?_⟩,
    rfl⟩
  · intro g hg
    rcases mem_append.mp hg with hg | hg
    · exact h.current g hg
    · rw [mem_singleton.mp hg]
      exact hf
  · intro hcredit
    exact mem_append_left _ (h.maxData hcredit)
  · intro id hid
    exact mem_append_left _ (h.streams id hid)
  · intro hmax
    exact mem_append_left _ (h.maxStreams hmax)

/-- The loop over the stream ids: those counted so far are written. -/
theorem encodeStreamCredit {ids : List Nat}
    (hids : s.publishedStreamIds.drop control.creditStreamCount = ids)
    (henc : s.encodeStreamCredit capacity ids control = .ok control') :
    ControlSpec s capacity control' := by
  induction ids generalizing control with
  | nil =>
    rw [EndpointState.encodeStreamCredit, ok.injEq] at henc
    rw [← henc]
    exact h
  | cons id ids ih =>
    rw [EndpointState.encodeStreamCredit] at henc
    split at henc
    · rename_i next hpush
      obtain ⟨hnext, heq⟩ := h.push (show s.Current (.maxStreamData id _) from rfl) hpush
      have hcount : next.creditStreamCount = control.creditStreamCount := by rw [heq]
      have hlast : Frame.maxStreamData id (s.advertisedStreamLimit id) ∈ next.frames := by
        rw [heq]
        simp
      refine ih ?_ ?_ henc
      · refine ⟨hnext.wired, hnext.fits, hnext.current, hnext.maxData, ?_, hnext.maxStreams⟩
        intro id' hid'
        rw [hcount, take_add, hids] at hid'
        rcases mem_append.mp hid' with hid' | hid'
        · exact hnext.streams id' (by rwa [hcount])
        · obtain rfl : id' = id := by simpa using hid'
          exact hlast
      · rw [hcount, ← drop_drop, hids]
        rfl
    · split_ifs at henc
      rw [← ok.inj henc]
      exact h

theorem encodeMaxStreams
    (henc : s.encodeMaxStreams capacity control = .ok control') :
    ControlSpec s capacity control' := by
  unfold EndpointState.encodeMaxStreams at henc
  split_ifs at henc
  · rw [← ok.inj henc]
    exact h
  split at henc
  · rename_i next hpush
    obtain ⟨hnext, heq⟩ := h.push (show s.Current (.maxStreamsBidi _) from rfl) hpush
    rw [← ok.inj henc]
    refine ⟨hnext.wired, hnext.fits, hnext.current, hnext.maxData, hnext.streams, ?_⟩
    rw [heq]
    simp
  split_ifs at henc
  rw [← ok.inj henc]
  exact h

/-- Where the encoder stops or goes on, what it has written is in order. -/
def Reached (s : EndpointState P) (capacity : Nat) : Written → Prop
  | .done control => ∀ c ∈ control, ControlSpec s capacity c
  | .more control => ControlSpec s capacity control

theorem encodeCreditFrames (hfresh : control.creditStreamCount = 0)
    (henc : s.encodeCreditFrames capacity piggyback control = .ok written) :
    Reached s capacity written := by
  unfold EndpointState.encodeCreditFrames at henc
  split at henc
  · split_ifs at henc
    rw [← ok.inj henc]
    intro c hc
    rw [← Option.mem_some.mp hc]
    exact h
  rename_i next hpush
  obtain ⟨hnext, heq⟩ := h.push (show s.Current (.maxData _) from rfl) hpush
  have hcredit : ControlSpec s capacity { next with credit := true } := by
    refine ⟨hnext.wired, hnext.fits, hnext.current, ?_, hnext.streams, hnext.maxStreams⟩
    rw [heq]
    simp
  simp only [bind_eq_ok] at henc
  obtain ⟨c₁, h₁, c₂, h₂, henc⟩ := henc
  rw [← ok.inj henc]
  refine (hcredit.encodeStreamCredit ?_ h₁).encodeMaxStreams h₂
  rw [show ({ next with credit := true } : EncodedControlFrames).creditStreamCount =
    0 by rw [heq]; exact hfresh]
  rfl

end

theorem encodeAckFrames {path : PathState} {sendCredit : Bool}
    (henc : s.encodeAckFrames path capacity piggyback sendCredit = .ok written) :
    Reached s capacity written := by
  unfold EndpointState.encodeAckFrames at henc
  split at henc
  · cases henc
  simp only at henc
  split at henc
  · split_ifs at henc
    rw [← ok.inj henc]
    intro c hc
    cases hc
  rename_i next hpush
  obtain ⟨hnext, heq⟩ := (ControlSpec.empty s capacity).push
    (show s.Current (.ackRanges ..) from trivial) hpush
  have hack : ControlSpec s capacity { next with ack := true } :=
    ⟨hnext.wired, hnext.fits, hnext.current, hnext.maxData, hnext.streams, hnext.maxStreams⟩
  split_ifs at henc
  · exact hack.encodeCreditFrames (by rw [heq]; rfl) henc
  · rw [← ok.inj henc]
    exact hack

theorem encodeAckFrequency {frequency : Option (Nat × Nat × Nat × Nat)}
    {result : Option EncodedControlFrames} (h : ControlSpec s capacity control)
    (henc : EndpointState.encodeAckFrequency frequency capacity piggyback control = .ok result) :
    ∀ c ∈ result, ControlSpec s capacity c := by
  -- Nothing is sent when nothing was written.
  have hfinish : ∀ control : EncodedControlFrames, ControlSpec s capacity control →
      ∀ c ∈ (if control.bytes = [] then none else some control), ControlSpec s capacity c := by
    intro control hcontrol c hc
    split_ifs at hc
    · cases hc
    · rw [← Option.mem_some.mp hc]
      exact hcontrol
  unfold EndpointState.encodeAckFrequency at henc
  split at henc
  · rw [← ok.inj henc]
    exact hfinish control h
  split at henc
  · rename_i next hpush
    obtain ⟨hnext, -⟩ := h.push (show s.Current (.ackFrequency ..) from trivial) hpush
    rw [← ok.inj henc]
    exact hfinish { next with ackFrequency := true }
      ⟨hnext.wired, hnext.fits, hnext.current, hnext.maxData, hnext.streams, hnext.maxStreams⟩
  rename_i e _
  by_cases hroom : e.isRoom && piggyback
  · rw [if_pos hroom] at henc
    rw [← ok.inj henc]
    exact hfinish control h
  · rw [if_neg hroom] at henc
    cases henc

end ControlSpec

/-- Whatever control frames are encoded, they satisfy the specification. -/
theorem encodeControlFramesOnPath_spec {s : EndpointState P} {pathId : Nat}
    {control : EncodedControlFrames}
    (henc : s.encodeControlFramesOnPath pathId capacity piggyback = .ok (some control)) :
    ControlSpec s capacity control := by
  unfold encodeControlFramesOnPath at henc
  split at henc
  · cases henc
  by_cases hother : piggyback ∧ pathId ≠ s.pendingControlPath.getD s.pendingReceiveAckPath
  · rw [if_pos hother] at henc
    cases henc
  rw [if_neg hother] at henc
  extract_lets _ _ sendCredit sendAck ackFrequency jp at henc
  have hjp : ∀ written, ControlSpec.Reached s capacity written → jp written = .ok (some control) →
      ControlSpec s capacity control := by
    intro written hreached hdone
    cases written with
    | done c =>
      cases ok.inj hdone
      exact hreached control rfl
    | more c => exact .encodeAckFrequency hreached hdone control rfl
  by_cases hquiet : !sendAck && ackFrequency.isNone
  · rw [if_pos hquiet] at henc
    cases henc
  rw [if_neg hquiet] at henc
  split at henc
  · obtain ⟨written, hwritten, henc⟩ := bind_eq_ok.mp henc
    exact hjp written (ControlSpec.encodeAckFrames hwritten) henc
  · exact hjp (.more EncodedControlFrames.empty) (.empty s capacity) henc

end EndpointState

/-! ## Parsing what was written -/

variable {limit : Nat}

namespace Frame

def streams : Frame → List StreamFrame
  | stream value => [value]
  | _ => []

def frequencies : Frame → List (Nat × Nat × Nat × Nat)
  | ackFrequency sequence threshold delay reordering => [(sequence, threshold, delay, reordering)]
  | _ => []

def closes : Frame → List Nat
  | close code => [code]
  | _ => []

end Frame

namespace EndpointState

/-- What a payload may hold: eight STREAM frames, one ACK_FREQUENCY, one CLOSE, and DATAGRAMs within
the limit. -/
structure Parseable (limit : Nat) (fs : List Frame) : Prop where
  streams : (fs.flatMap Frame.streams).length ≤ maxStreamsPerPacket
  frequencies : (fs.flatMap Frame.frequencies).length ≤ 1
  closes : (fs.flatMap Frame.closes).length ≤ 1
  datagrams : ∀ data length, .datagram data length ∈ fs →
    limit ≠ 0 ∧ (Frame.datagram data length).wire.length ≤ limit

/-- What the loop has noted of the frames so far. -/
structure Notes (fs : List Frame) (parsed : ParsedFrames) : Prop where
  frames : parsed.frames = fs
  streams : parsed.streams = fs.flatMap Frame.streams
  frequencies : parsed.ackFrequency.toList = fs.flatMap Frame.frequencies
  closes : parsed.closeCode.toList = fs.flatMap Frame.closes

variable {seen : List Frame} {parsed : ParsedFrames}

/-- One turn of the loop takes its frame exactly when the payload may hold it too. -/
theorem noteFrame_notes {used : Nat} (h : Notes fs parsed) (hfs : Parseable limit fs)
    (hused : ∀ data length, f = .datagram data length → used = f.wire.length) :
    (∃ next, noteFrame limit used parsed f = .ok next ∧ Notes (fs ++ [f]) next ∧
      Parseable limit (fs ++ [f])) ∨
      (∃ failure, noteFrame limit used parsed f = .error failure) ∧
        ¬Parseable limit (fs ++ [f]) := by
  obtain ⟨hframes, hstreams, hfrequencies, hcloses⟩ := h
  obtain ⟨h₁, h₂, h₃, h₄⟩ := hfs
  have hnotes : ∀ next : ParsedFrames, Notes (fs ++ [f]) next ↔ next.frames = parsed.frames ++ [f] ∧
      next.streams = parsed.streams ++ f.streams ∧
        next.ackFrequency.toList = parsed.ackFrequency.toList ++ f.frequencies ∧
      next.closeCode.toList = parsed.closeCode.toList ++ f.closes := by
    grind [Notes]
  have hmore : Parseable limit (fs ++ [f]) ↔
      (parsed.streams ++ f.streams).length ≤ maxStreamsPerPacket ∧
      (parsed.ackFrequency.toList ++ f.frequencies).length ≤ 1 ∧
        (parsed.closeCode.toList ++ f.closes).length ≤ 1 ∧
      ∀ data length, f = .datagram data length → limit ≠ 0 ∧ f.wire.length ≤ limit := by
    grind [Parseable]
  rw [hmore]
  simp only [hnotes]
  simp only [← hstreams, ← hfrequencies, ← hcloses] at h₁ h₂ h₃
  clear hnotes hmore hframes hstreams hfrequencies hcloses h₄
  -- A frame adds to one count at most, so its own bound decides.
  unfold noteFrame
  cases f <;> grind [Frame.streams, Frame.frequencies, Frame.closes]

/-- A payload written from frames, behind what the loop has noted already, is taken whole or
refused: it is taken exactly when it keeps to the counts and to the DATAGRAM limit, and what is
noted then is what was written. -/
theorem parse_payload (hbytes : Wired fs bs) (hallow : ∀ f ∈ fs, f.Allowed)
    (hdelim : ∀ f ∈ fs.dropLast, f.SelfDelimiting) (hslice : IsSlice bs) {fuel : Nat}
    (hfuel : bs.length ≤ fuel) (h : Notes seen parsed) (hseen : Parseable limit seen) :
    (∃ last, parseFrames limit fuel bs parsed = .ok last ∧
        Notes (seen ++ fs.map Frame.wireForm) last ∧
          Parseable limit (seen ++ fs.map Frame.wireForm)) ∨
      (∃ failure, parseFrames limit fuel bs parsed = .error failure) ∧
        ¬Parseable limit (seen ++ fs.map Frame.wireForm) := by
  obtain ⟨rfl, henc⟩ := hbytes
  induction fs generalizing fuel seen parsed with
  | nil =>
    rw [map_nil, append_nil]
    exact .inl ⟨parsed, by cases fuel <;> rfl, h, hseen⟩
  | cons f fs ih =>
    obtain ⟨henc, hencs⟩ := forall_mem_cons.mp henc
    obtain ⟨hallow, hallows⟩ := forall_mem_cons.mp hallow
    have hdelim' : f.SelfDelimiting ∨ fs.flatMap Frame.wire = [] := by
      cases fs with
      | nil => exact .inr rfl
      | cons g gs => exact .inl (hdelim f (by simp))
    have htail : ∀ g ∈ fs.dropLast, g.SelfDelimiting :=
      fun g hg => hdelim g (by cases fs <;> simp_all)
    rw [flatMap_cons] at hslice hfuel ⊢
    have hdecode := Frame.decodeFrame_wire henc hallow _ hdelim' hslice
    have hpos := (decodeFrame_ok hdecode).advance
    rw [IsSlice, length_append] at hslice
    rw [length_append] at hfuel
    obtain ⟨fuel, rfl⟩ := Nat.exists_eq_succ_of_ne_zero (by omega : fuel ≠ 0)
    have hne : f.wire ++ fs.flatMap Frame.wire ≠ [] :=
      ne_nil_of_length_pos (by rw [length_append]; omega)
    rw [parseFrames.eq_3 _ _ _ _ hne, hdecode]
    simp only
    rw [if_neg (by omega), drop_left, map_cons, ← singleton_append, ← append_assoc]
    -- Only an ACK is read as another frame than was written.
    have hused : ∀ data length, f.wireForm = .datagram data length →
        f.wire.length = f.wireForm.wire.length := by
      intro data length hform
      cases f <;> grind [Frame.wireForm]
    obtain ⟨next, hnext, hnotes, hok⟩ | ⟨⟨failure, hfailure⟩, hno⟩ := noteFrame_notes h hseen hused
    · rw [hnext]
      exact ih hallows htail hnotes hok hencs (by unfold IsSlice; omega) (by omega)
    · rw [hfailure]
      exact .inr ⟨⟨failure, rfl⟩, fun hall => hno (by grind [Parseable])⟩

/-- The second CLOSE of a payload refuses it. -/
theorem parse_payload_two_closes : ∃ failure,
    parseFrames 9 99 ([.ping, .close 1, .close 2].flatMap Frame.wire) emptyParse =
      .error failure := by
  have hseen : Parseable 9 [] := ⟨by decide, by decide, by decide, by simp⟩
  refine (parse_payload ⟨rfl, ?_⟩ ?_ ?_ ?_ ?_ ⟨rfl, rfl, rfl, rfl⟩ hseen).elim (fun h => ?_)
    And.left
  · simp [Frame.Encodable, Frame.values, varintBound, frameConnectionClose]
  · simp [Frame.Allowed]
  · simp [Frame.SelfDelimiting]
  · unfold IsSlice
    decide
  · decide
  · obtain ⟨_, _, _, h⟩ := h
    exact absurd h.closes (by decide)

end EndpointState

end QuicLite

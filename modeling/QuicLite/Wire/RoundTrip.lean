import QuicLite.Wire.Frame

/-!
# Frames survive the wire

What `encode` writes is the concatenation of the frame's varints, connection ids and payload
(`Frame.wire`), whatever the buffer's size. The decoder is followed position by position: a reader
whose remaining input starts with an encoding returns the encoded value and moves just past it
(`readVarint_at`, `readCid_at`, `readRanges_at`). For the converse the readers' postconditions say
that whatever was accepted is a frame `encode` accepts again.
-/

namespace QuicLite

open Intervals List Except Nat ConnectionId QuicLite.Frame
open AckRangeSet hiding ranges

variable {capacity v t len count : Nat} {bs out data : Bytes} {s : AckRangeSet} {cid : ConnectionId}
variable {vs : List Nat} {f : Frame} {previous : AckRange} {ranges : List AckRange} {length : Bool}
variable {status : PathStatusKind}

/-- The length of a slice is a `usize`. -/
def IsSlice (bs : Bytes) : Prop := bs.length < usizeBound

/-- Every byte string in memory is this short: a 64-bit target's address space is smaller still. -/
def Addressable (bs : Bytes) : Prop := bs.length < 2 ^ 62

/-! ## What the writers write -/

theorem put_eq_ok (hout : out.length ≤ capacity) : put v capacity out = .ok bs ↔
      v < varintBound ∧ bs = out ++ varint v ∧ bs.length ≤ capacity := by
  simp only [put, bind_eq_ok, putVarint_eq_ok, ok.injEq]
  constructor
  · rintro ⟨w, ⟨hv, hlen, rfl⟩, rfl⟩
    simp
    omega
  rintro ⟨hv, rfl, hlen⟩
  simp only [length_append, length_varint] at hlen
  exact ⟨_, ⟨hv, by omega, rfl⟩, rfl⟩

/-- Consecutive varints. -/
def varints (vs : List Nat) : Bytes := vs.flatMap varint

@[simp] theorem varints_nil : varints [] = [] := rfl

@[simp] theorem varints_cons (v : Nat) (vs : List Nat) :
    varints (v :: vs) = varint v ++ varints vs := rfl

theorem putAll_eq_ok {vs : List Nat} {capacity : Nat} {out bs : Bytes}
    (hout : out.length ≤ capacity) :
    putAll vs capacity out = .ok bs ↔ (∀ v ∈ vs, v < varintBound) ∧ bs = out ++ varints vs ∧
      bs.length ≤ capacity := by
  induction vs generalizing out with
  | nil =>
    simp only [putAll, ok.injEq, varints_nil, append_nil]
    constructor
    · rintro rfl
      exact ⟨by simp, rfl, hout⟩
    · rintro ⟨-, rfl, -⟩
      rfl
  | cons v vs ih =>
    simp only [putAll, bind_eq_ok, put_eq_ok hout]
    constructor
    · rintro ⟨w, ⟨hv, rfl, hw⟩, h⟩
      obtain ⟨hvs, rfl, hlen⟩ := (ih hw).mp h
      exact ⟨by simpa using ⟨hv, hvs⟩, by simp, hlen⟩
    rintro ⟨hvs, rfl, hlen⟩
    have hfit : (out ++ varint v).length ≤ capacity := by
      simp only [varints_cons, length_append] at hlen ⊢
      omega
    refine ⟨_, ⟨hvs v (by simp), rfl, hfit⟩, (ih hfit).mpr ⟨?_, by simp, hlen⟩⟩
    intro x hx
    exact hvs x (by simp [hx])

theorem putCid_eq_ok (hout : out.length ≤ capacity) : putCid cid capacity out = .ok bs ↔
      cid.value ≠ 0 ∧ bs = out ++ cid.bytes ∧ bs.length ≤ capacity := by
  unfold putCid
  split_ifs with h
  · simp [h]
  simp only [bind_eq_ok, encode_eq_ok, ok.injEq]
  constructor
  · rintro ⟨w, ⟨hlen, rfl⟩, rfl⟩
    simp
    omega
  rintro ⟨-, rfl, hlen⟩
  simp only [length_append, length_bytes] at hlen
  exact ⟨_, ⟨by omega, rfl⟩, rfl⟩

theorem putData_eq_ok : putData data capacity out = .ok bs ↔
    bs = out ++ data ∧ bs.length ≤ capacity := by
  unfold putData
  split_ifs with h
  · simp only [false_iff, not_and]
    rintro rfl
    simp
    omega
  simp only [ok.injEq]
  constructor
  · rintro rfl
    exact ⟨rfl, by simp; omega⟩
  · rintro ⟨rfl, -⟩
    rfl

/-- The gap and length numbers of the additional ACK ranges. -/
def rangeValues (previous : AckRange) : List AckRange → List Nat
  | [] => []
  | current :: rest =>
    (previous.start - (current.stop + 2)) :: (current.stop - current.start) ::
      rangeValues current rest

/-- On canonical ranges no gap underflows, so `putRanges` is a plain sequence of `put`s. -/
theorem putRanges_eq_putAll {rest : List AckRange} (h : Canonical (previous :: rest)) :
    putRanges previous rest capacity out = putAll (rangeValues previous rest) capacity out := by
  induction rest generalizing previous out with
  | nil => rfl
  | cons current rest ih =>
    have hab : current.stop + 1 < previous.start := h.above current (by simp)
    rw [putRanges, if_neg (by omega)]
    simp only [putAll, bind_assoc]
    refine congrArg _ (funext fun w => congrArg _ (funext fun w' => ?_))
    exact ih h.tail

theorem putAll_append (vs ws : List Nat) (capacity : Nat) (out : Bytes) :
    putAll (vs ++ ws) capacity out = putAll vs capacity out >>= putAll ws capacity := by
  induction vs generalizing out with
  | nil => rfl
  | cons v vs ih => simp only [cons_append, putAll, bind_assoc, ih]

namespace Frame

/-- The numbers a frame starts with, before any connection id or payload. -/
def values : Frame → List Nat
  | padding => [framePadding]
  | ping => [framePing]
  | ack largest delay => [frameAck, largest, delay, 0, 0]
  | ackRanges largest delay ranges =>
    match ranges.ranges with
    | [] => []
    | first :: rest =>
      [frameAck, largest, delay, rest.length, first.stop - first.start] ++ rangeValues first rest
  | ackFrequency sequence packetThreshold maxAckDelayUs reorderingThreshold =>
    [frameAckFrequency, sequence, packetThreshold, maxAckDelayUs, reorderingThreshold]
  | stream s => [frameStreamBase ||| 0x04 ||| 0x02 ||| s.fin.toNat, s.id, s.offset, s.data.length]
  | datagram data length => if length then [0x31, data.length] else [0x30]
  | maxData max => [frameMaxData, max]
  | maxStreamData id max => [frameMaxStreamData, id, max]
  | maxStreamsBidi max => [frameMaxStreamsBidi, max]
  | maxStreamsUni max => [frameMaxStreamsUni, max]
  | pathJoin _ key transactionId _ =>
    [framePathJoin, key.openerRole.code, key.sequence, transactionId]
  | pathJoinAck key transactionId _ =>
    [framePathJoinAck, key.openerRole.code, key.sequence, transactionId]
  | pathChallenge token => [framePathChallenge, token]
  | pathResponse token => [framePathResponse, token]
  | pathStatus key sequence status =>
    [framePathStatus, key.openerRole.code, key.sequence, sequence, status.code]
  | close code => [frameConnectionClose, code, 0]

/-- What follows the numbers. -/
def trailer : Frame → Bytes
  | stream s => s.data
  | datagram data _ => data
  | pathJoin joinCid _ _ receiveCid => joinCid.bytes ++ receiveCid.bytes
  | pathJoinAck _ _ receiveCid => receiveCid.bytes
  | _ => []

/-- The bytes of a frame. -/
def wire (f : Frame) : Bytes := varints f.values ++ f.trailer

/-- What `encode` checks besides the buffer: every number fits a varint, an ACK's ranges start at
its largest number, path connection ids are non-zero. -/
def Encodable (f : Frame) : Prop :=
  (∀ v ∈ f.values, v < varintBound) ∧ match f with
    | ackRanges largest _ ranges => ∃ first, ranges.ranges.head? = some first ∧ first.stop = largest
    | pathJoin joinCid _ _ receiveCid => joinCid.value ≠ 0 ∧ receiveCid.value ≠ 0
    | pathJoinAck _ _ receiveCid => receiveCid.value ≠ 0
    | _ => True

theorem putAll_nil_eq_ok : putAll vs capacity [] = .ok bs ↔
      (∀ v ∈ vs, v < varintBound) ∧ bs = varints vs ∧ bs.length ≤ capacity := by
  simpa using @putAll_eq_ok vs capacity [] bs (by simp)

/-- `encode` succeeds exactly on the encodable frames that fit, and then writes `wire`. -/
theorem encode_eq_ok : f.encode capacity = .ok bs ↔
    f.Encodable ∧ bs = f.wire ∧ bs.length ≤ capacity := by
  cases f with
  | padding | ping =>
    have hwire : ∀ t : Nat, t < 2 → varint t = [UInt8.ofNat t] := by decide
    simp only [encode, Encodable, wire, values, varints_cons,
      hwire _ (show framePadding < 2 by decide), hwire _ (show framePing < 2 by decide)]
    split_ifs with h
    · simp only [false_iff, not_and]
      rintro - rfl
      simp [h]
    simp only [ok.injEq]
    constructor
    · rintro rfl
      exact ⟨by decide, rfl, by simp; omega⟩
    · rintro ⟨-, rfl, -⟩
      rfl
  | ackRanges largest delay ranges =>
    obtain ⟨ranges, hcanon, hbound⟩ := ranges
    cases ranges with
    | nil => simp [encode, Encodable]
    | cons first rest =>
      simp only [encode, Encodable, wire, values, trailer, append_nil, head?_cons,
        Option.some.injEq, exists_eq_left']
      split_ifs with h
      · simp [h]
      · simp only [not_not] at h
        simp [putRanges_eq_putAll hcanon, ← putAll_append, putAll_nil_eq_ok, h]
  | stream s =>
    simp only [encode, encodeStreamPrefix, Encodable, wire, values, bind_eq_ok, putAll_nil_eq_ok,
      putData_eq_ok, and_true]
    constructor
    · rintro ⟨w, ⟨hv, rfl, -⟩, rfl, hlen⟩
      exact ⟨hv, rfl, hlen⟩
    rintro ⟨hv, rfl, hlen⟩
    refine ⟨_, ⟨hv, rfl, ?_⟩, rfl, hlen⟩
    rw [length_append] at hlen
    omega
  | datagram data length =>
    simp only [encode, Encodable, wire, values, bind_eq_ok, putAll_nil_eq_ok, putData_eq_ok,
      and_true]
    constructor
    · rintro ⟨w, ⟨hv, rfl, -⟩, rfl, hlen⟩
      exact ⟨hv, rfl, hlen⟩
    rintro ⟨hv, rfl, hlen⟩
    refine ⟨_, ⟨hv, rfl, ?_⟩, rfl, hlen⟩
    rw [length_append] at hlen
    omega
  | pathJoin joinCid key transactionId receiveCid =>
    simp only [encode, wire, values, trailer, bind_eq_ok, putAll_nil_eq_ok]
    constructor
    · rintro ⟨w, ⟨hv, rfl, hw⟩, w', hjoin, hreceive⟩
      obtain ⟨hj, rfl, hw'⟩ := (putCid_eq_ok hw).mp hjoin
      obtain ⟨hr, rfl, hlen⟩ := (putCid_eq_ok hw').mp hreceive
      exact ⟨⟨hv, hj, hr⟩, by simp, hlen⟩
    rintro ⟨⟨hv, hj, hr⟩, rfl, hlen⟩
    simp only [length_append] at hlen
    have hw' : (varints [framePathJoin, key.openerRole.code, key.sequence, transactionId] ++
        joinCid.bytes).length ≤ capacity := by rw [length_append]; omega
    refine ⟨_, ⟨hv, rfl, by omega⟩, _, (putCid_eq_ok (by omega)).mpr ⟨hj, rfl, hw'⟩,
      (putCid_eq_ok hw').mpr ⟨hr, by simp, ?_⟩⟩
    simp only [length_append]
    omega
  | pathJoinAck key transactionId receiveCid =>
    simp only [encode, wire, values, bind_eq_ok, putAll_nil_eq_ok]
    constructor
    · rintro ⟨w, ⟨hv, rfl, hw⟩, hreceive⟩
      obtain ⟨hr, rfl, hlen⟩ := (putCid_eq_ok hw).mp hreceive
      exact ⟨⟨hv, hr⟩, rfl, hlen⟩
    rintro ⟨⟨hv, hr⟩, rfl, hlen⟩
    have hw : (varints [framePathJoinAck, key.openerRole.code, key.sequence,
        transactionId]).length ≤ capacity := by rw [length_append] at hlen; omega
    exact ⟨_, ⟨hv, rfl, hw⟩, (putCid_eq_ok hw).mpr ⟨hr, rfl, hlen⟩⟩
  | _ =>
    simp [encode, Encodable, wire, values, trailer, putAll_nil_eq_ok]

end Frame

/-! ## Following the decoder over what was written -/

section Forward

variable {input rest : Bytes} {p : Nat}

theorem readVarint_at (hv : v < varintBound) (h : input.drop p = varint v ++ rest) :
    readVarint input p = .ok (v, p + varintLen v) ∧ input.drop (p + varintLen v) = rest := by
  constructor
  · rw [readVarint, h, getVarint_varint hv]
    rfl
  · rw [← drop_drop, h, ← length_varint v, drop_left]

/-- The numbers that are read one after the other from a position, and the position behind them. -/
def Reads (input : Bytes) : Nat → List Nat → Nat → Prop
  | p, [], q => p = q
  | p, v :: vs, q =>
    readVarint input p = .ok (v, p + varintLen v) ∧ Reads input (p + varintLen v) vs q

theorem reads_at (hv : ∀ v ∈ vs, v < varintBound) (h : input.drop p = varints vs ++ rest) :
    Reads input p vs (p + (varints vs).length) ∧ input.drop (p + (varints vs).length) = rest := by
  induction vs generalizing p with
  | nil => exact ⟨rfl, h⟩
  | cons v vs ih =>
    rw [varints_cons, append_assoc] at h
    obtain ⟨hread, hdrop⟩ := readVarint_at (hv v mem_cons_self) h
    obtain ⟨hreads, hend⟩ := ih (forall_mem_cons.mp hv).2 hdrop
    rw [varints_cons, length_append, length_varint, ← add_assoc]
    exact ⟨⟨hread, hreads⟩, hend⟩

theorem readCid_at (hcid : cid.value ≠ 0) (h : input.drop p = cid.bytes ++ rest) :
    readCid input p = .ok (cid, p + cid.encodedLen) ∧ input.drop (p + cid.encodedLen) = rest := by
  constructor
  · rw [readCid, h, decode_bytes]
    simp only [ok_bind]
    rw [if_neg hcid]
  · rw [← drop_drop, h, ← cid.length_bytes, drop_left]

/-- A range below all the others is appended, as long as the set has room. -/
theorem AckRangeSet.insertRange_of_below {r : AckRange} (hr : r.start ≤ r.stop)
    (hbelow : ∀ x ∈ s.ranges, x.Above r) (hlen : s.ranges.length < ackRangeCapacity) :
    (s.insertRange r).ranges = s.ranges ++ [r] := by
  rw [insertRange, dif_pos hr, truncate]
  simp only
  rw [insertInto_of_below hbelow s.canonical.nonempty hr, take_of_length_le (by simp; omega)]

/-- The loop over the additional ranges rebuilds the set, one appended range at a time. -/
theorem readRanges_at (previous : AckRange) (ranges : List AckRange)
    (hsize : previous.stop ≤ u32Max) (hs : s.ranges.getLast? = some previous)
    (hcanon : Canonical (s.ranges ++ ranges))
    (hlen : (s.ranges ++ ranges).length ≤ ackRangeCapacity) (hp : p ≤ input.length)
    (h : input.drop p = varints (rangeValues previous ranges) ++ rest) :
    ∃ q s', readRanges input ranges.length previous.start p s = .ok (s', q) ∧
      s'.ranges = s.ranges ++ ranges ∧ q = p + (varints (rangeValues previous ranges)).length := by
  induction ranges generalizing previous s p with
  | nil => exact ⟨p, s, rfl, by simp, by simp [rangeValues]⟩
  | cons current ranges ih =>
    have hprev : previous ∈ s.ranges := mem_of_getLast? hs
    have hpair := pairwise_append.mp hcanon.descending
    have hab : current.stop + 1 < previous.start := hpair.2.2 previous hprev current (by simp)
    have hcur : current.start ≤ current.stop := hcanon.nonempty current (by simp)
    have hprevNe : previous.start ≤ previous.stop := hcanon.nonempty previous (by simp [hprev])
    have hbig : u32Max < varintBound := by decide
    simp only [rangeValues, varints_cons, append_assoc] at h
    obtain ⟨h₁, hd₁⟩ := readVarint_at (by omega) h
    obtain ⟨h₂, hd₂⟩ := readVarint_at (by omega) hd₁
    have hinsert : (s.insertRange ⟨current.start, current.stop⟩).ranges =
        s.ranges ++ [current] := by
      refine insertRange_of_below hcur ?_ ?_
      · intro x hx
        exact hpair.2.2 x hx current (by simp)
      · simp only [length_append, length_cons] at hlen
        omega
    have hfits : p + varintLen (previous.start - (current.stop + 2)) +
        varintLen (current.stop - current.start) ≤ input.length := by
      have := congrArg length h
      simp only [length_drop, length_append, length_varint] at this
      omega
    obtain ⟨q, s', hread, hranges, hq⟩ := ih current
      (s := s.insertRange ⟨current.start, current.stop⟩) (by omega) (by simp [hinsert])
      (by simpa [hinsert] using hcanon) (by simpa [hinsert] using hlen) hfits hd₂
    refine ⟨q, s', ?_, by simpa [hinsert] using hranges, ?_⟩
    · rw [length_cons, readRanges, h₁, ok_bind]
      simp only
      rw [h₂, ok_bind]
      rw [if_neg (by omega), if_neg (by omega), if_neg (by omega)]
      rw [show previous.start - (previous.start - (current.stop + 2) + 2) = current.stop by omega,
        show current.stop - (current.stop - current.start) = current.start by omega]
      exact hread
    · simp only [rangeValues, varints_cons, length_append, length_varint] at hq ⊢
      omega

end Forward

namespace Frame

/-- What comes back from the wire: a single-number range set is written as a plain ACK. -/
def wireForm : Frame → Frame
  | ackRanges largest delay ranges =>
    match ranges.ranges with
    | [r] => if r.start = r.stop then ack largest delay else ackRanges largest delay ranges
    | _ => ackRanges largest delay ranges
  | f => f

/-- The ids the protocol allows, and packet numbers of their 32-bit type. -/
def Allowed : Frame → Prop
  | ack largest _ => largest ≤ u32Max
  | ackRanges largest _ _ => largest ≤ u32Max
  | pathJoin joinCid key transactionId receiveCid =>
    key.sequence ≠ 0 ∧ transactionId ≠ 0 ∧ joinCid.value ≠ 0 ∧ receiveCid.value ≠ 0
  | pathJoinAck key transactionId receiveCid =>
    key.sequence ≠ 0 ∧ transactionId ≠ 0 ∧ receiveCid.value ≠ 0
  | pathChallenge token => token ≠ 0
  | pathResponse token => token ≠ 0
  | pathStatus _ sequence _ => sequence ≠ 0
  | _ => True

/-- Only the length-less DATAGRAM swallows whatever follows it. -/
def SelfDelimiting : Frame → Prop
  | datagram _ length => length = true
  | _ => True

@[simp] theorem decodeRole_code (role : Role) : decodeRole role.code = .ok role := by
  cases role <;> rfl

@[simp] theorem decodeStatus_code (status : PathStatusKind) :
    decodeStatus status.code = .ok status := by
  cases status <;> rfl

section Decode

variable {input rest : Bytes} {p : Nat}
variable {key : CircuitKey} {largest delay transactionId : Nat} {receiveCid : ConnectionId}

/-- Positions inside a slice do not overflow. -/
theorem checkedAdd_of_isSlice (h : IsSlice input) (hlen : p + len ≤ input.length) :
    checkedAdd p len = .ok (p + len) := by
  unfold IsSlice at h
  rw [checkedAdd, if_pos (by omega)]

theorem decodeAck_at {first : Nat} (hl : largest ≤ u32Max)
    (hd : delay < varintBound) (hc : count < varintBound) (hf : first ≤ largest)
    (h : input.drop p = varints [largest, delay, count, first] ++ rest) :
    ∃ q, q = p + (varints [largest, delay, count, first]).length ∧ input.drop q = rest ∧
      decodeAck input p =
        if count = 0 ∧ first = 0 then .ok (ack largest delay, q)
        else if count ≥ ackRangeCapacity then .error .invalid
        else (do
          let (ranges, p) ← readRanges input count (largest - first) q
            (new.insertRange ⟨largest - first, largest⟩)
          .ok (ackRanges largest delay ranges, p)) := by
  have hbig : u32Max < varintBound := by decide
  have hv : ∀ v ∈ [largest, delay, count, first], v < varintBound := by
    simp only [forall_mem_cons, not_mem_nil, false_implies, implies_true, and_true]
    omega
  obtain ⟨⟨h₁, h₂, h₃, h₄, (hq : _ = _)⟩, hdrop⟩ := reads_at hv h
  refine ⟨_, rfl, hdrop, ?_⟩
  simp only [decodeAck, h₁, h₂, h₃, h₄, ok_bind, hq]
  rw [if_neg (by omega)]

theorem decodeAckRanges_at {first : AckRange} (hs : s.ranges = first :: ranges)
    (hl : largest ≤ u32Max) (hd : delay < varintBound) (hfirst : first.stop = largest)
    (hp : p ≤ input.length) (h : input.drop p =
      varints ([largest, delay, ranges.length, first.stop - first.start] ++
      rangeValues first ranges) ++ rest) :
    decodeAck input p = .ok ((ackRanges largest delay s).wireForm,
      p + (varints ([largest, delay, ranges.length, first.stop - first.start] ++
        rangeValues first ranges)).length) := by
  have hcanon : Canonical (first :: ranges) := hs ▸ s.canonical
  have hlen : (first :: ranges).length ≤ ackRangeCapacity := hs ▸ s.bounded
  have hne : first.start ≤ first.stop := (Canonical.cons_iff.mp hcanon).1
  have hcap : ackRangeCapacity = 32 := rfl
  have hsplit : varints ([largest, delay, ranges.length, first.stop - first.start] ++
      rangeValues first ranges) =
        varints [largest, delay, ranges.length, first.stop - first.start] ++
        varints (rangeValues first ranges) := by simp
  rw [hsplit, append_assoc] at h
  rw [length_cons] at hlen
  obtain ⟨q, hq, hdrop, hdecode⟩ := decodeAck_at hl hd
    (by unfold varintBound; omega) (show first.stop - first.start ≤ largest by omega) h
  have hqle : q ≤ input.length := by
    have := congrArg length h
    rw [length_drop, length_append] at this
    omega
  rw [hdecode, hsplit, length_append]
  by_cases hsingle : ranges.length = 0 ∧ first.stop - first.start = 0
  · -- One number: the decoder takes the short form.
    obtain ⟨hnil, hpoint⟩ := hsingle
    obtain rfl : ranges = [] := length_eq_zero_iff.mp hnil
    rw [if_pos ⟨rfl, hpoint⟩]
    simp only [wireForm, hs]
    rw [if_pos (by omega), hq]
    simp [rangeValues]
  rw [if_neg hsingle, if_neg (by omega),
    show largest - (first.stop - first.start) = first.start by omega]
  have hinsert : (AckRangeSet.new.insertRange ⟨first.start, largest⟩).ranges = [first] := by
    rw [AckRangeSet.insertRange_of_below (by simp only; omega) (by simp [AckRangeSet.new])
      (by simp [AckRangeSet.new, hcap]), ← hfirst]
    rfl
  obtain ⟨q', s', hread, hranges, hq'⟩ := readRanges_at first ranges
    (s := new.insertRange ⟨first.start, largest⟩)
    (by omega) (by simp [hinsert]) (by simpa [hinsert] using hcanon)
    (by simpa [hinsert] using hlen) hqle hdrop
  have heq : s' = s := by
    obtain ⟨l, hc, hb⟩ := s
    obtain ⟨l', hc', hb'⟩ := s'
    simp only [hinsert] at hranges
    subst hs hranges
    rfl
  have hform : (ackRanges largest delay s).wireForm = ackRanges largest delay s := by
    simp only [wireForm, hs]
    cases ranges with
    | nil =>
      simp only
      rw [if_neg (by simp at hsingle; omega)]
    | cons _ _ => rfl
  rw [hform, hread]
  simp only [ok_bind, heq, hq', hq, add_assoc]

theorem decodeStream_at {s : StreamFrame} (hslice : IsSlice input) (hp : p ≤ input.length)
    (ht : t = frameStreamBase ||| 0x04 ||| 0x02 ||| s.fin.toNat)
    (hv : ∀ v ∈ [s.id, s.offset, s.data.length], v < varintBound)
    (h : input.drop p = varints [s.id, s.offset, s.data.length] ++ (s.data ++ rest)) :
    decodeStream t input p =
      .ok (stream s, p + (varints [s.id, s.offset, s.data.length]).length + s.data.length) := by
  have hbits : t &&& 4 ≠ 0 ∧ t &&& 2 ≠ 0 ∧ decide (t &&& 1 ≠ 0) = s.fin := by
    subst ht
    cases s.fin <;> decide
  have hlength := congrArg length h
  simp only [length_drop, length_append] at hlength
  obtain ⟨⟨h₁, h₂, h₃, (hq : _ = _)⟩, hdrop⟩ := reads_at hv h
  simp only [decodeStream, h₁, ok_bind, readOffset, decide_eq_true hbits.1, h₂, readLength,
    decide_eq_true hbits.2.1, if_true, h₃, hq]
  rw [checkedAdd_of_isSlice hslice (by omega)]
  simp only [ok_bind, hdrop, take_left]
  rw [if_neg (by omega), hbits.2.2]

theorem decodeDatagram_at (hslice : IsSlice input)
    (hp : p ≤ input.length) (hv : length = true → data.length < varintBound)
    (hrest : length = true ∨ rest = [])
    (h : input.drop p = varints (if length then [data.length] else []) ++ (data ++ rest)) :
    decodeDatagram length input p = .ok (datagram data length,
      p + (varints (if length then [data.length] else [])).length + data.length) := by
  have hlength := congrArg List.length h
  simp only [List.length_drop, List.length_append] at hlength
  cases length with
  | true =>
    simp only [if_true, varints_cons, varints_nil, append_nil, length_varint] at h hlength ⊢
    obtain ⟨h₁, hd₁⟩ := readVarint_at (hv rfl) h
    simp only [decodeDatagram, readLength, if_true, h₁, ok_bind]
    rw [checkedAdd_of_isSlice hslice (by omega)]
    simp only [ok_bind, hd₁, take_left]
    rw [if_neg (by omega)]
  | false =>
    obtain rfl : rest = [] := by simpa using hrest
    simp only [Bool.false_eq_true, if_false, varints_nil, append_nil, nil_append,
      length_nil, Nat.add_zero] at h hlength ⊢
    have hsub : input.length - p = data.length := by omega
    simp only [decodeDatagram, readLength, Bool.false_eq_true, if_false, ok_bind, hsub]
    rw [checkedAdd_of_isSlice hslice (by omega)]
    simp only [ok_bind, h, take_length]
    rw [if_neg (by omega)]

theorem decodePathJoin_at {joinCid : ConnectionId}
    (hallow : (pathJoin joinCid key transactionId receiveCid).Allowed)
    (hv : ∀ v ∈ [key.openerRole.code, key.sequence, transactionId], v < varintBound)
    (h : input.drop p = varints [key.openerRole.code, key.sequence, transactionId] ++
      (joinCid.bytes ++ receiveCid.bytes ++ rest)) :
    decodePathJoin input p = .ok (pathJoin joinCid key transactionId receiveCid,
      p + (varints [key.openerRole.code, key.sequence, transactionId]).length +
        (joinCid.bytes ++ receiveCid.bytes).length) := by
  obtain ⟨hseq, htid, hjoin, hreceive⟩ := hallow
  obtain ⟨⟨h₁, h₂, h₃, (hq : _ = _)⟩, hdrop⟩ := reads_at hv h
  rw [append_assoc] at hdrop
  obtain ⟨h₄, hdrop⟩ := readCid_at hjoin hdrop
  obtain ⟨h₅, -⟩ := readCid_at hreceive hdrop
  simp only [decodePathJoin, h₁, decodeRole_code, h₂, h₃, hq, h₄, h₅, ok_bind, hseq, htid, hjoin,
    hreceive, or_self, if_false, length_append, length_bytes]
  rw [Nat.add_assoc _ joinCid.encodedLen]

theorem decodePathJoinAck_at (hallow : (pathJoinAck key transactionId receiveCid).Allowed)
    (hv : ∀ v ∈ [key.openerRole.code, key.sequence, transactionId], v < varintBound)
    (h : input.drop p = varints [key.openerRole.code, key.sequence, transactionId] ++
      (receiveCid.bytes ++ rest)) :
    decodePathJoinAck input p = .ok (pathJoinAck key transactionId receiveCid,
      p + (varints [key.openerRole.code, key.sequence, transactionId]).length +
        receiveCid.bytes.length) := by
  obtain ⟨hseq, htid, hreceive⟩ := hallow
  obtain ⟨⟨h₁, h₂, h₃, (hq : _ = _)⟩, hdrop⟩ := reads_at hv h
  obtain ⟨h₄, -⟩ := readCid_at hreceive hdrop
  simp only [decodePathJoinAck, h₁, decodeRole_code, h₂, h₃, hq, h₄, ok_bind, hseq, htid, hreceive,
    or_self, if_false, length_bytes]

theorem decodePathStatus_at {sequence : Nat} (hseq : sequence ≠ 0)
    (hv : ∀ v ∈ [key.openerRole.code, key.sequence, sequence, status.code], v < varintBound)
    (h : input.drop p = varints [key.openerRole.code, key.sequence, sequence, status.code] ++
      rest) : decodePathStatus input p = .ok (pathStatus key sequence status,
      p + (varints [key.openerRole.code, key.sequence, sequence, status.code]).length) := by
  obtain ⟨⟨h₁, h₂, h₃, h₄, (hq : _ = _)⟩, -⟩ := reads_at hv h
  simp [decodePathStatus, h₁, decodeRole_code, h₂, h₃, h₄, hq, hseq, decodeStatus_code]

theorem decodeAckFrequency_at {a b c d : Nat} (hv : ∀ v ∈ [a, b, c, d], v < varintBound)
    (h : input.drop p = varints [a, b, c, d] ++ rest) :
    decodeAckFrequency input p = .ok (ackFrequency a b c d, p + (varints [a, b, c, d]).length) := by
  obtain ⟨⟨h₁, h₂, h₃, h₄, (hq : _ = _)⟩, -⟩ := reads_at hv h
  simp [decodeAckFrequency, h₁, h₂, h₃, h₄, hq]

theorem decodeClose_at {code : Nat} (hslice : IsSlice input) (hp : p ≤ input.length)
    (hv : code < varintBound) (h : input.drop p = varints [code, 0] ++ rest) :
    decodeClose input p = .ok (close code, p + (varints [code, 0]).length) := by
  have hlength := congrArg length h
  rw [length_drop, length_append] at hlength
  obtain ⟨⟨h₁, h₂, (hq : _ = _)⟩, -⟩ :=
    reads_at (by simpa using ⟨hv, show 0 < varintBound by decide⟩) h
  have := varintLen_pos code
  simp only [decodeClose, h₁, h₂, hq, ok_bind]
  rw [checkedAdd_of_isSlice hslice (by omega), ok_bind, if_neg (by omega)]
  rfl

end Decode

/-- The decoder reads the frame type first, whatever the frame. -/
theorem getVarint_wire (hv : ∀ v ∈ f.values, v < varintBound)
    (hvalues : f.values = t :: vs) (suffix : Bytes) :
    getVarint (f.wire ++ suffix) = .ok (t, varintLen t) ∧
      (f.wire ++ suffix).drop (varintLen t) = varints vs ++ (f.trailer ++ suffix) ∧
      varintLen t ≤ (f.wire ++ suffix).length ∧
      f.wire.length = varintLen t + (varints vs).length + f.trailer.length := by
  have hwire : f.wire ++ suffix = varint t ++ (varints vs ++ (f.trailer ++ suffix)) := by
    simp [wire, hvalues]
  refine ⟨?_, ?_, ?_, ?_⟩
  · rw [hwire, getVarint_varint (hv t (by simp [hvalues]))]
  · rw [hwire, ← length_varint t, drop_left]
  · rw [hwire, length_append, length_varint]
    omega
  · simp [wire, hvalues, add_assoc]

/-- Decoding what was written, followed by anything, returns the frame and stops at its end. -/
theorem decodeFrame_wire (henc : f.Encodable) (hallow : f.Allowed) (suffix : Bytes)
    (hsuffix : f.SelfDelimiting ∨ suffix = []) (hslice : IsSlice (f.wire ++ suffix)) :
    decodeFrame (f.wire ++ suffix) = .ok (f.wireForm, f.wire.length) := by
  obtain ⟨hv, hextra⟩ := henc
  cases f with
  | padding | ping =>
    obtain ⟨h₁, -, -, hlen⟩ := getVarint_wire hv rfl suffix
    rfl
  | ack largest delay =>
    obtain ⟨h₁, h₂, -, hlen⟩ := getVarint_wire hv rfl suffix
    obtain ⟨q, hq, -, hdecode⟩ := decodeAck_at hallow (hv delay (by simp [values]))
      (show 0 < varintBound by decide) (zero_le largest) h₂
    rw [decodeFrame, h₁, hlen]
    show decodeAck _ _ = _
    rw [hdecode, hq]
    rfl
  | ackRanges largest delay s =>
    obtain ⟨first, hhead, hfirst⟩ := hextra
    obtain ⟨ranges, hs⟩ : ∃ ranges, s.ranges = first :: ranges := by
      cases hr : s.ranges with
      | nil => simp [hr] at hhead
      | cons r ranges => exact ⟨ranges, by simpa [hr] using hhead⟩
    have hvalues : (ackRanges largest delay s).values =
        frameAck :: ([largest, delay, ranges.length, first.stop - first.start] ++
          rangeValues first ranges) := by simp [values, hs]
    obtain ⟨h₁, h₂, hp, hlen⟩ := getVarint_wire hv hvalues suffix
    rw [hvalues] at hv
    rw [decodeFrame, h₁, hlen]
    show decodeAck _ _ = _
    rw [decodeAckRanges_at hs hallow (hv delay (by simp)) hfirst hp h₂]
    rfl
  | ackFrequency a b c d =>
    obtain ⟨h₁, h₂, -, hlen⟩ := getVarint_wire hv rfl suffix
    rw [decodeFrame, h₁, hlen]
    show decodeAckFrequency _ _ = _
    rw [decodeAckFrequency_at (forall_mem_cons.mp hv).2 h₂]
    rfl
  | stream s =>
    obtain ⟨h₁, h₂, hp, hlen⟩ := getVarint_wire hv rfl suffix
    rw [decodeFrame, h₁, hlen]
    have hstream := decodeStream_at (s := s) hslice hp rfl
      (forall_mem_cons.mp hv).2 h₂
    cases hfin : s.fin with
    | false => rw [hfin] at hstream; exact hstream
    | true => rw [hfin] at hstream; exact hstream
  | datagram data length =>
    cases length with
    | false =>
      obtain ⟨h₁, h₂, hp, hlen⟩ := getVarint_wire hv rfl suffix
      rw [decodeFrame, h₁, hlen]
      show decodeDatagram false _ _ = _
      rw [decodeDatagram_at hslice hp (by simp) (.inr (by simpa [SelfDelimiting] using hsuffix)) h₂]
      rfl
    | true =>
      obtain ⟨h₁, h₂, hp, hlen⟩ := getVarint_wire hv rfl suffix
      rw [decodeFrame, h₁, hlen]
      show decodeDatagram true _ _ = _
      rw [decodeDatagram_at hslice hp (fun _ => hv _ (by simp [values])) (.inl rfl) h₂]
      rfl
  | maxData max | maxStreamsBidi max | maxStreamsUni max =>
    obtain ⟨h₁, h₂, -, hlen⟩ := getVarint_wire hv rfl suffix
    obtain ⟨h₃, -⟩ := readVarint_at (hv max (by simp [values])) (by simpa using h₂)
    rw [decodeFrame, h₁, hlen]
    show decodeValue _ _ _ = _
    rw [decodeValue, h₃]
    simp [wireForm, trailer]
  | maxStreamData id max =>
    obtain ⟨h₁, h₂, -, hlen⟩ := getVarint_wire hv rfl suffix
    obtain ⟨⟨h₃, h₄, (hq : _ = _)⟩, -⟩ := reads_at (forall_mem_cons.mp hv).2 h₂
    rw [decodeFrame, h₁, hlen]
    show decodeMaxStreamData _ _ = _
    simp only [decodeMaxStreamData, h₃, ok_bind, h₄, hq]
    rfl
  | pathJoin joinCid key transactionId receiveCid =>
    obtain ⟨h₁, h₂, -, hlen⟩ := getVarint_wire hv rfl suffix
    rw [decodeFrame, h₁, hlen]
    show decodePathJoin _ _ = _
    rw [decodePathJoin_at hallow (forall_mem_cons.mp hv).2 h₂]
    rfl
  | pathJoinAck key transactionId receiveCid =>
    obtain ⟨h₁, h₂, -, hlen⟩ := getVarint_wire hv rfl suffix
    rw [decodeFrame, h₁, hlen]
    show decodePathJoinAck _ _ = _
    rw [decodePathJoinAck_at hallow (forall_mem_cons.mp hv).2 h₂]
    rfl
  | pathChallenge token | pathResponse token =>
    obtain ⟨h₁, h₂, -, hlen⟩ := getVarint_wire hv rfl suffix
    obtain ⟨h₃, -⟩ := readVarint_at (hv token (by simp [values])) (by simpa using h₂)
    rw [decodeFrame, h₁, hlen]
    show decodePathToken _ _ _ = _
    rw [decodePathToken, h₃, ok_bind]
    simp only
    rw [if_neg hallow]
    simp [wireForm, trailer]
  | pathStatus key sequence status =>
    obtain ⟨h₁, h₂, -, hlen⟩ := getVarint_wire hv rfl suffix
    rw [decodeFrame, h₁, hlen]
    show decodePathStatus _ _ = _
    rw [decodePathStatus_at hallow (forall_mem_cons.mp hv).2 h₂]
    rfl
  | close code =>
    obtain ⟨h₁, h₂, hp, hlen⟩ := getVarint_wire hv rfl suffix
    rw [decodeFrame, h₁, hlen]
    show decodeClose _ _ = _
    rw [decodeClose_at hslice hp (hv code (by simp [values])) h₂]
    rfl

end Frame

/-! ## What the decoder accepts -/

section Backward

variable {input : Bytes} {p q : Nat} {f : Frame} {explicit : Bool} {kind : Nat → Frame}

theorem readVarint_ok (h : readVarint input p = .ok (v, q)) :
    v < varintBound ∧ p < q ∧ q ≤ input.length := by
  simp only [readVarint, bind_eq_ok] at h
  obtain ⟨⟨v', n⟩, hget, h⟩ := h
  cases h
  obtain ⟨hv, hn, hlen⟩ := getVarint_ok hget
  rw [length_drop] at hlen
  exact ⟨hv, by omega, by omega⟩

theorem readCid_ok (h : readCid input p = .ok (cid, q)) :
    cid.value ≠ 0 ∧ p < q ∧ q ≤ input.length := by
  simp only [readCid, bind_eq_ok] at h
  obtain ⟨⟨cid', n⟩, hdecode, h⟩ := h
  split_ifs at h with hzero
  cases h
  obtain ⟨-, hn, hlen⟩ := decode_ok hdecode
  rw [length_drop] at hlen
  exact ⟨hzero, by omega, by omega⟩

theorem checkedAdd_ok {stop : Nat} (h : checkedAdd p len = .ok stop) : stop = p + len := by
  unfold checkedAdd at h
  split_ifs at h
  exact (ok.inj h).symm

theorem readLength_ok (h : readLength explicit input p = .ok (len, q)) : p ≤ q := by
  unfold readLength at h
  split_ifs at h with hx
  · obtain ⟨-, hlt, -⟩ := readVarint_ok h
    omega
  · simp only [ok.injEq, Prod.mk.injEq] at h
    omega

theorem readOffset_ok {offset : Nat} (h : readOffset explicit input p = .ok (offset, q)) :
    offset < varintBound ∧ p ≤ q := by
  unfold readOffset at h
  split_ifs at h with hx
  · obtain ⟨hv, hlt, -⟩ := readVarint_ok h
    exact ⟨hv, by omega⟩
  · cases h
    exact ⟨by decide, le_refl _⟩

theorem decodeRole_ok {role : Role} (h : decodeRole v = .ok role) : role.code = v := by
  unfold decodeRole at h
  split at h <;> simp_all <;> subst h <;> rfl

theorem decodeStatus_ok (h : decodeStatus v = .ok status) : status.code = v := by
  unfold decodeStatus at h
  split at h <;> simp_all <;> subst h <;> rfl

/-- What every accepted frame satisfies: `encode` accepts it back (its payload fits in memory), its
ids are allowed, it is in wire form, and the decoder stayed inside the input. -/
structure Accepted (input : Bytes) (p : Nat) (f : Frame) (q : Nat) : Prop where
  encodable : Addressable input → f.Encodable
  allowed : f.Allowed
  wireForm : f.wireForm = f
  trailer : f.trailer.length ≤ input.length + 16
  advance : p ≤ q
  inside : q ≤ input.length

/-- Each additional range lies below the previous one with a gap, so the loop appends it. -/
theorem readRanges_ok {previousStart : Nat} {s' : AckRangeSet} (last : AckRange)
    (hs : s.ranges.getLast? = some last) (hlast : last.start = previousStart)
    (hlen : s.ranges.length + count ≤ ackRangeCapacity) (hp : p ≤ input.length)
    (h : readRanges input count previousStart p s = .ok (s', q)) :
    (∃ more, s'.ranges = s.ranges ++ more ∧ more.length = count) ∧ p ≤ q ∧ q ≤ input.length := by
  induction count generalizing p previousStart s last with
  | zero =>
    obtain ⟨rfl, rfl⟩ := h
    exact ⟨⟨[], by simp, rfl⟩, le_refl _, hp⟩
  | succ count ih =>
    simp only [readRanges, bind_eq_ok] at h
    obtain ⟨⟨gap, p₁⟩, hgap, ⟨range, p₂⟩, hrange, h⟩ := h
    split_ifs at h with h₁ h₂ h₃
    obtain ⟨-, hlt₁, -⟩ := readVarint_ok hgap
    obtain ⟨-, hlt₂, hin⟩ := readVarint_ok hrange
    have hbelow : ∀ x ∈ s.ranges,
        x.Above ⟨previousStart - (gap + 2) - range, previousStart - (gap + 2)⟩ := by
      intro x hx
      -- Descending order: the last range has the lowest start.
      have hle : last.start ≤ x.start := by
        obtain ⟨init, hinit⟩ : ∃ init, s.ranges = init ++ [last] :=
          ⟨s.ranges.dropLast, (dropLast_append_getLast? _ hs).symm⟩
        have hpair := s.canonical.descending
        rw [hinit] at hpair hx
        rcases mem_append.mp hx with hx | hx
        · have hab : last.stop + 1 < x.start := (pairwise_append.mp hpair).2.2 x hx last (by simp)
          have := s.canonical.nonempty last (mem_of_getLast? hs)
          omega
        · rw [mem_singleton.mp hx]
      simp only [Segment.Above]
      omega
    have hinsert := insertRange_of_below
      (r := ⟨previousStart - (gap + 2) - range, previousStart - (gap + 2)⟩) (by simp only; omega)
      hbelow (by omega)
    obtain ⟨⟨more, hmore, hcount⟩, hadv, hinside⟩ := ih
      ⟨previousStart - (gap + 2) - range, _⟩
      (by rw [hinsert, getLast?_concat]) rfl (by rw [hinsert]; simp; omega) hin h
    refine ⟨⟨⟨previousStart - (gap + 2) - range, previousStart - (gap + 2)⟩ :: more, ?_,
      by simp [hcount]⟩, by omega, hinside⟩
    rw [hmore, hinsert, append_assoc, singleton_append]

/-- The numbers of a range list all fit, since they are differences of packet numbers. -/
theorem rangeValues_lt (hcanon : Canonical (previous :: ranges))
    (hstart : previous.start ≤ u32Max) :
    ∀ v ∈ rangeValues previous ranges, v < varintBound := by
  have hbig : u32Max < varintBound := by decide
  induction ranges generalizing previous with
  | nil => simp [rangeValues]
  | cons current ranges ih =>
    have hab : current.stop + 1 < previous.start := hcanon.above current (by simp)
    have hne : current.start ≤ current.stop := hcanon.nonempty current (by simp)
    intro v hv
    simp only [rangeValues, mem_cons] at hv
    rcases hv with rfl | rfl | hv
    · omega
    · omega
    · exact ih hcanon.tail (by omega) v hv

theorem decodeAck_ok (h : decodeAck input p = .ok (f, q)) : Accepted input p f q := by
  have hbig : u32Max < varintBound := by decide
  simp only [decodeAck, bind_eq_ok] at h
  obtain ⟨⟨largest, p₁⟩, h₁, ⟨delay, p₂⟩, h₂, ⟨count, p₃⟩, h₃, ⟨first, p₄⟩, h₄, h⟩ := h
  obtain ⟨-, ha₁, -⟩ := readVarint_ok h₁
  obtain ⟨hdelay, ha₂, -⟩ := readVarint_ok h₂
  obtain ⟨-, ha₃, -⟩ := readVarint_ok h₃
  obtain ⟨-, ha₄, hin⟩ := readVarint_ok h₄
  split_ifs at h with hinvalid hsingle hcap
  · cases h
    refine ⟨fun _ => ⟨?_, trivial⟩, by simp only [Allowed]; omega, rfl,
      by simp [trailer], by omega, hin⟩
    intro v hv
    simp only [values, mem_cons, not_mem_nil, or_false] at hv
    rcases hv with rfl | rfl | rfl | rfl | rfl <;> first | omega | decide
  simp only [bind_eq_ok] at h
  obtain ⟨⟨s, q'⟩, hread, h⟩ := h
  cases h
  have hinsert : (AckRangeSet.new.insertRange ⟨largest - first, largest⟩).ranges =
      [⟨largest - first, largest⟩] :=
    AckRangeSet.insertRange_of_below (by simp only; omega) (by simp [AckRangeSet.new])
      (by simp [AckRangeSet.new, ackRangeCapacity])
  obtain ⟨⟨more, hmore, hcount⟩, hadv, hinside⟩ := readRanges_ok
    ⟨largest - first, largest⟩ (by simp [hinsert]) rfl
    (by rw [hinsert]; simp only [length_singleton]; omega) hin hread
  rw [hinsert, singleton_append] at hmore
  have hcanon : Canonical (⟨largest - first, largest⟩ :: more) := hmore ▸ s.canonical
  have hcapacity : ackRangeCapacity < varintBound := by decide
  refine ⟨fun _ => ⟨?_, ?_⟩, by simp only [Allowed]; omega, ?_, by simp [trailer],
    by omega, hinside⟩
  · intro v hv
    simp only [values, hmore, cons_append, mem_cons] at hv
    rcases hv with rfl | rfl | rfl | rfl | rfl | hv
    · decide
    · omega
    · exact hdelay
    · omega
    · omega
    · exact rangeValues_lt hcanon (by simp only; omega) v hv
  · exact ⟨_, by rw [hmore]; rfl, rfl⟩
  · simp only [wireForm, hmore]
    cases more with
    | nil =>
      simp only
      rw [if_neg (by simp only [length_nil] at hcount; omega)]
    | cons _ _ => rfl

theorem decodeAckFrequency_ok (h : decodeAckFrequency input p = .ok (f, q)) :
    Accepted input p f q := by
  simp only [decodeAckFrequency, bind_eq_ok] at h
  obtain ⟨⟨a, p₁⟩, h₁, ⟨b, p₂⟩, h₂, ⟨c, p₃⟩, h₃, ⟨d, p₄⟩, h₄, h⟩ := h
  obtain ⟨rfl, rfl⟩ := h
  obtain ⟨ha, ha₁, -⟩ := readVarint_ok h₁
  obtain ⟨hb, ha₂, -⟩ := readVarint_ok h₂
  obtain ⟨hc, ha₃, -⟩ := readVarint_ok h₃
  obtain ⟨hd, ha₄, hin⟩ := readVarint_ok h₄
  exact ⟨fun _ => ⟨by simp [values, ha, hb, hc, hd]; decide, trivial⟩, trivial, rfl,
    by simp [trailer], by omega, hin⟩

/-- A frame of one number. -/
theorem accepted_of_value (hread : readVarint input p = .ok (v, q)) (hvalues : f.values = [t, v])
    (ht : t < varintBound) (hform : f.wireForm = f) (htrailer : f.trailer = [])
    (hextra : (∀ x ∈ f.values, x < varintBound) → f.Encodable) (hallowed : f.Allowed) :
    Accepted input p f q := by
  obtain ⟨hv, ha₁, hin⟩ := readVarint_ok hread
  exact ⟨fun _ => hextra (by simp [hvalues, ht, hv]), hallowed, hform, by simp [htrailer],
    by omega, hin⟩

theorem decodeValue_ok (h : decodeValue kind input p = .ok (f, q)) :
    ∃ v, readVarint input p = .ok (v, q) ∧ f = kind v := by
  simp only [decodeValue, bind_eq_ok] at h
  obtain ⟨⟨v, p₁⟩, h₁, h⟩ := h
  cases h
  exact ⟨v, h₁, rfl⟩

theorem decodePathToken_ok (h : decodePathToken kind input p = .ok (f, q)) :
    ∃ v, v ≠ 0 ∧ readVarint input p = .ok (v, q) ∧ f = kind v := by
  simp only [decodePathToken, bind_eq_ok] at h
  obtain ⟨⟨v, p₁⟩, h₁, h⟩ := h
  split_ifs at h with hzero
  cases h
  exact ⟨v, hzero, h₁, rfl⟩

theorem decodeMaxStreamData_ok (h : decodeMaxStreamData input p = .ok (f, q)) :
    Accepted input p f q := by
  simp only [decodeMaxStreamData, bind_eq_ok] at h
  obtain ⟨⟨a, p₁⟩, h₁, ⟨b, p₂⟩, h₂, h⟩ := h
  obtain ⟨rfl, rfl⟩ := h
  obtain ⟨ha, ha₁, -⟩ := readVarint_ok h₁
  obtain ⟨hb, ha₂, hin⟩ := readVarint_ok h₂
  exact ⟨fun _ => ⟨by simp [values, ha, hb]; decide, trivial⟩, trivial, rfl, by simp [trailer],
    by omega, hin⟩

/-- A payload cut out of an addressable input has a representable length. -/
theorem payload_lt (haddr : Addressable input) (len : Nat) :
    ((input.drop p).take len).length < varintBound := by
  unfold Addressable at haddr
  unfold varintBound
  rw [length_take, length_drop]
  omega

theorem decodeDatagram_ok (h : decodeDatagram length input p = .ok (f, q)) :
    Accepted input p f q := by
  simp only [decodeDatagram, bind_eq_ok] at h
  obtain ⟨⟨len, p₁⟩, h₁, stop, h₂, h⟩ := h
  obtain rfl := checkedAdd_ok h₂
  split_ifs at h with hshort
  cases h
  have ha₁ := readLength_ok h₁
  refine ⟨fun haddr => ⟨?_, trivial⟩, trivial, rfl, by simp only [trailer, length_take]; omega,
    by omega, by omega⟩
  have := payload_lt (p := p₁) haddr len
  intro v hv
  cases length with
  | false =>
    simp only [values, Bool.false_eq_true, if_false, mem_singleton] at hv
    subst hv; decide
  | true =>
    simp only [values, if_true, mem_cons, not_mem_nil, or_false] at hv
    rcases hv with rfl | rfl
    · decide
    · exact this

theorem decodePathJoin_ok (h : decodePathJoin input p = .ok (f, q)) : Accepted input p f q := by
  simp only [decodePathJoin, bind_eq_ok] at h
  obtain ⟨⟨code, p₁⟩, h₁, role, hrole, ⟨seq, p₂⟩, h₂, ⟨tid, p₃⟩, h₃, ⟨join, p₄⟩, h₄, ⟨receive, p₅⟩,
      h₅, h⟩ := h
  split_ifs at h with hzero
  cases h
  obtain ⟨hcode, ha₁, -⟩ := readVarint_ok h₁
  obtain ⟨hseq, ha₂, -⟩ := readVarint_ok h₂
  obtain ⟨htid, ha₃, -⟩ := readVarint_ok h₃
  obtain ⟨hjoin, ha₄, -⟩ := readCid_ok h₄
  obtain ⟨hreceive, ha₅, hin⟩ := readCid_ok h₅
  push Not at hzero
  refine ⟨fun _ => ⟨?_, hjoin, hreceive⟩, hzero, rfl, ?_, by omega, hin⟩
  · simp [values, decodeRole_ok hrole, hcode, hseq, htid]
    decide
  have := join.encodedLen_le
  have := receive.encodedLen_le
  simp only [trailer, length_append, length_bytes]
  omega

theorem decodePathJoinAck_ok (h : decodePathJoinAck input p = .ok (f, q)) :
    Accepted input p f q := by
  simp only [decodePathJoinAck, bind_eq_ok] at h
  obtain ⟨⟨code, p₁⟩, h₁, role, hrole, ⟨seq, p₂⟩, h₂, ⟨tid, p₃⟩, h₃, ⟨receive, p₄⟩, h₄, h⟩ := h
  split_ifs at h with hzero
  cases h
  obtain ⟨hcode, ha₁, -⟩ := readVarint_ok h₁
  obtain ⟨hseq, ha₂, -⟩ := readVarint_ok h₂
  obtain ⟨htid, ha₃, -⟩ := readVarint_ok h₃
  obtain ⟨hreceive, ha₄, hin⟩ := readCid_ok h₄
  push Not at hzero
  refine ⟨fun _ => ⟨?_, hreceive⟩, hzero, rfl, ?_, by omega, hin⟩
  · simp [values, decodeRole_ok hrole, hcode, hseq, htid]
    decide
  have := receive.encodedLen_le
  simp only [trailer, length_bytes]
  omega

theorem decodePathStatus_ok (h : decodePathStatus input p = .ok (f, q)) : Accepted input p f q := by
  simp only [decodePathStatus, bind_eq_ok] at h
  obtain ⟨⟨code, p₁⟩, h₁, role, hrole, ⟨key, p₂⟩, h₂, ⟨seq, p₃⟩, h₃, ⟨st, p₄⟩, h₄, h⟩ := h
  split_ifs at h with hzero
  simp only [bind_eq_ok] at h
  obtain ⟨status, hstatus, h⟩ := h
  cases h
  obtain ⟨hcode, ha₁, -⟩ := readVarint_ok h₁
  obtain ⟨hkey, ha₂, -⟩ := readVarint_ok h₂
  obtain ⟨hseq, ha₃, -⟩ := readVarint_ok h₃
  obtain ⟨hst, ha₄, hin⟩ := readVarint_ok h₄
  refine ⟨fun _ => ⟨?_, trivial⟩, hzero, rfl, by simp [trailer], by omega, hin⟩
  simp [values, decodeRole_ok hrole, decodeStatus_ok hstatus, hcode, hkey, hseq, hst]
  decide

theorem decodeClose_ok (h : decodeClose input p = .ok (f, q)) : Accepted input p f q := by
  simp only [decodeClose, bind_eq_ok] at h
  obtain ⟨⟨code, p₁⟩, h₁, ⟨len, p₂⟩, h₂, stop, h₃, h⟩ := h
  obtain rfl := checkedAdd_ok h₃
  split_ifs at h with hshort
  cases h
  obtain ⟨hcode, ha₁, -⟩ := readVarint_ok h₁
  obtain ⟨-, ha₂, -⟩ := readVarint_ok h₂
  exact ⟨fun _ => ⟨by simp [values, hcode]; decide, trivial⟩, trivial, rfl, by simp [trailer],
    by omega, by omega⟩

theorem decodeStream_ok (h : decodeStream t input p = .ok (f, q)) : Accepted input p f q := by
  simp only [decodeStream, bind_eq_ok] at h
  obtain ⟨⟨id, p₁⟩, h₁, ⟨offset, p₂⟩, h₂, ⟨len, p₃⟩, h₃, stop, h₄, h⟩ := h
  obtain rfl := checkedAdd_ok h₄
  split_ifs at h with hshort
  cases h
  obtain ⟨hid, ha₁, -⟩ := readVarint_ok h₁
  have ha₃ := readLength_ok h₃
  obtain ⟨hoffset, ha₂⟩ := readOffset_ok h₂
  refine ⟨fun haddr => ⟨?_, trivial⟩, trivial, rfl, by simp only [trailer, length_take]; omega,
    by omega, by omega⟩
  have hlen := payload_lt (p := p₃) haddr len
  intro v hv
  simp only [values, mem_cons, not_mem_nil, or_false] at hv
  rcases hv with rfl | rfl | rfl | rfl
  · cases decide (t &&& 1 ≠ 0) <;> decide
  · exact hid
  · exact hoffset
  · exact hlen

theorem decodeFrame_ok (h : decodeFrame input = .ok (f, q)) : Accepted input 1 f q := by
  simp only [decodeFrame, bind_eq_ok] at h
  obtain ⟨⟨typ, p⟩, hget, h⟩ := h
  obtain ⟨-, hpos, hp⟩ := getVarint_ok hget
  have hmono : ∀ {f q}, Accepted input p f q → Accepted input 1 f q := fun hacc =>
    ⟨hacc.encodable, hacc.allowed, hacc.wireForm, hacc.trailer, hpos.trans hacc.advance,
      hacc.inside⟩
  refine hmono ?_
  split at h
  · cases h
    exact ⟨fun _ => ⟨by decide, trivial⟩, trivial, rfl, by simp [trailer], le_refl _, hp⟩
  · cases h
    exact ⟨fun _ => ⟨by decide, trivial⟩, trivial, rfl, by simp [trailer], le_refl _, hp⟩
  · exact decodeAck_ok h
  · exact decodeAckFrequency_ok h
  · obtain ⟨v, hread, rfl⟩ := decodeValue_ok h
    exact accepted_of_value hread rfl (by decide) rfl rfl (⟨·, trivial⟩) trivial
  · exact decodeDatagram_ok h
  · exact decodeDatagram_ok h
  · exact decodeMaxStreamData_ok h
  · obtain ⟨v, hread, rfl⟩ := decodeValue_ok h
    exact accepted_of_value hread rfl (by decide) rfl rfl (⟨·, trivial⟩) trivial
  · obtain ⟨v, hread, rfl⟩ := decodeValue_ok h
    exact accepted_of_value hread rfl (by decide) rfl rfl (⟨·, trivial⟩) trivial
  · exact decodePathJoin_ok h
  · exact decodePathJoinAck_ok h
  · obtain ⟨v, hzero, hread, rfl⟩ := decodePathToken_ok h
    exact accepted_of_value hread rfl (by decide) rfl rfl (⟨·, trivial⟩) hzero
  · obtain ⟨v, hzero, hread, rfl⟩ := decodePathToken_ok h
    exact accepted_of_value hread rfl (by decide) rfl rfl (⟨·, trivial⟩) hzero
  · exact decodePathStatus_ok h
  · exact decodeClose_ok h
  · split_ifs at h
    exact decodeStream_ok h

end Backward

/-! ## The round trip -/

theorem length_varints_le (vs : List Nat) : (varints vs).length ≤ 8 * vs.length := by
  induction vs with
  | nil => simp
  | cons v vs ih =>
    have := varintLen_le v
    rw [varints_cons, length_append, length_varint, length_cons]
    omega

theorem length_rangeValues (previous : AckRange) (ranges : List AckRange) :
    (rangeValues previous ranges).length = 2 * ranges.length := by
  induction ranges generalizing previous with
  | nil => rfl
  | cons current ranges ih => simp [rangeValues, ih]; omega

/-- An ACK with every range is the frame with the most numbers. -/
theorem length_values_le (f : Frame) : f.values.length ≤ 5 + 2 * ackRangeCapacity := by
  cases f with
  | ackRanges largest delay s =>
    have hbound := s.bounded
    cases hs : s.ranges with
    | nil => simp [values, hs]
    | cons first ranges =>
      rw [hs, length_cons] at hbound
      simp only [values, hs, length_append, length_rangeValues, length_cons, length_nil]
      omega
  | datagram data length => cases length <;> simp [values, ackRangeCapacity]
  | _ => simp [values, ackRangeCapacity]

/-- Both directions of the codec. Whatever `encode` accepts into some buffer it writes identically
into every buffer that is large enough, and decoding it, followed by any suffix, gives the frame
back and stops at its end. Whatever the decoder accepts, it consumes a positive part of the input,
and the decoded frame can be encoded and decoded again. -/
theorem frame_codec_roundTrip :
    (∀ (f : Frame) (capacity : Nat) (bs : Bytes), f.Allowed → f.encode capacity = .ok bs →
      (∀ large ≥ bs.length, f.encode large = .ok bs) ∧
      ∀ suffix, (f.SelfDelimiting ∨ suffix = []) → IsSlice (bs ++ suffix) →
        decodeFrame (bs ++ suffix) = .ok (f.wireForm, bs.length)) ∧
    (∀ (input : Bytes) (f : Frame) (n : Nat), decodeFrame input = .ok (f, n) →
      (1 ≤ n ∧ n ≤ input.length) ∧
      (Addressable input → ∃ bs, (∀ large ≥ bs.length, f.encode large = .ok bs) ∧
        decodeFrame bs = .ok (f, bs.length))) := by
  constructor
  · intro f capacity bs hallow henc
    obtain ⟨hencodable, rfl, -⟩ := encode_eq_ok.mp henc
    refine ⟨fun large hlarge => encode_eq_ok.mpr ⟨hencodable, rfl, hlarge⟩, ?_⟩
    intro suffix hsuffix hslice
    exact decodeFrame_wire hencodable hallow suffix hsuffix hslice
  intro input f n hdecode
  have hacc := decodeFrame_ok hdecode
  refine ⟨⟨hacc.advance, hacc.inside⟩, fun haddr => ?_⟩
  have hencodable := hacc.encodable haddr
  refine ⟨f.wire, fun large hlarge => encode_eq_ok.mpr ⟨hencodable, rfl, hlarge⟩, ?_⟩
  have hslice : IsSlice f.wire := by
    have := hacc.trailer
    have := length_varints_le f.values
    have := length_values_le f
    unfold IsSlice wire
    unfold Addressable at haddr
    rw [length_append]
    simp only [usizeBound, ackRangeCapacity] at *
    omega
  have := decodeFrame_wire hencodable hacc.allowed [] (.inr rfl) (by simpa using hslice)
  rwa [append_nil, hacc.wireForm] at this

end QuicLite

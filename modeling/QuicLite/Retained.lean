import QuicLite.Flow
import QuicLite.Lib.Bitmap

/-!
# Retained send ranges

A range keeps the bytes of one STREAM frame until the peer has acknowledged them. Acknowledgements
arrive by stream offset and are recorded in a bitmap; the stored payload shrinks from both ends as
its edges are acknowledged. `Sound r data` says that `r` still stores every byte of `data` it owes.
-/

namespace QuicLite

open Bitmap List Option Nat

/-- A transmission of the range whose ledger record was overwritten. -/
structure PriorPacketLineage where
  packetNumber : Nat
  offset : Nat
  dataLen : Nat
  fin : Bool

def maxPriorPackets : Nat := 16

structure RetainedSendRange where
  streamId : Nat
  offset : Nat
  dataLen : Nat
  fin : Bool
  /-- Copied bytes; the first one is byte `payloadStart` of the frame. -/
  payload : Option Bytes
  /-- A leased packet with all bytes of the frame. -/
  poolPayload : Option Bytes
  payloadStart : Nat
  payloadEnd : Nat
  acknowledged : List Word
  finAcked : Bool
  logicalPacketNumber : Nat
  /-- At most `maxPriorPackets` of them, oldest first. -/
  priorPackets : List PriorPacketLineage

/-- `bytes.get(start..stop)` -/
def getRange (bytes : Bytes) (start stop : Nat) : Option Bytes :=
  if start ≤ stop ∧ stop ≤ bytes.length then some ((bytes.drop start).take (stop - start)) else none

namespace RetainedSendRange

variable (self : RetainedSendRange) {start stop : Nat}

def storedEnd : Nat :=
  match self.payload with
  | some payload => self.payloadStart + payload.length
  | none => self.payloadEnd

def retainedLen : Nat := self.storedEnd - self.payloadStart

def hasPayload : Bool := self.payload.isSome || self.poolPayload.isSome

def payloadRange (start stop : Nat) : Option Bytes :=
  if start < self.payloadStart ∨ self.storedEnd < stop ∨ stop < start then none
  else
    match self.payload with
    | some payload => getRange payload (start - self.payloadStart) (stop - self.payloadStart)
    | none => self.poolPayload.bind fun packet => getRange packet start stop

/-- Nothing is left to store. -/
def dropPayload : RetainedSendRange :=
  { self with
    payload := none, poolPayload := none, payloadStart := self.dataLen, payloadEnd := self.dataLen }

def compactAcknowledgedEdges : RetainedSendRange :=
  if !self.hasPayload then self
  else
    match clearBounds self.acknowledged self.payloadStart self.storedEnd with
    | none => self.dropPayload
    | some (firstLive, lastLiveEnd) =>
      { self with
        payload := self.payload.map fun payload =>
          (payload.drop (firstLive - self.payloadStart)).take (lastLiveEnd - firstLive)
        payloadStart := max self.payloadStart firstLive
        payloadEnd := lastLiveEnd }

def markAcknowledged (offset length : Nat) : RetainedSendRange :=
  let start := max offset self.offset
  let stop := min (satAdd offset length) (satAdd self.offset self.dataLen)
  if stop ≤ start then self
  else if start = self.offset ∧ stop = satAdd self.offset self.dataLen then
    -- `self.acknowledged.fill(u64::MAX)`
    { self.dropPayload with
      acknowledged := List.replicate self.acknowledged.length (BitVec.allOnes 64) }
  else
    { self with
      acknowledged := setRange self.acknowledged (start - self.offset) (stop - self.offset)
        }.compactAcknowledgedEdges

def isByteAcknowledged (index : Nat) : Bool := bit self.acknowledged index

def allDataAcknowledged : Bool := self.payloadStart == self.dataLen

def firstUnacknowledgedRun : Option (Nat × Nat) :=
  if !self.hasPayload then none
  else
    match firstBit self.acknowledged self.payloadStart self.storedEnd false with
    | none => none
    | some start =>
      some (start, (firstBit self.acknowledged (start + 1) self.storedEnd true).getD self.storedEnd)

def addPriorPacket (lineage : PriorPacketLineage) : RetainedSendRange :=
  { self with
    priorPackets :=
      if self.priorPackets.length < maxPriorPackets then self.priorPackets ++ [lineage]
      else self.priorPackets.drop 1 ++ [lineage] }

/-! ## What a range stores -/

/-- The range still owes byte `index` of its frame. -/
def Owes (r : RetainedSendRange) (index : Nat) : Prop :=
  index < r.dataLen ∧ r.isByteAcknowledged index = false

/-- Every byte of `data` the range owes is stored, at its place. -/
structure Sound (r : RetainedSendRange) (data : Bytes) : Prop where
  dataLen_eq : r.dataLen = data.length
  words : r.dataLen ≤ 64 * r.acknowledged.length
  noWrap : r.offset + r.dataLen ≤ u64Max
  start_le : r.payloadStart ≤ r.storedEnd
  end_le : r.storedEnd ≤ r.dataLen
  owed : ∀ i, r.Owes i → r.payloadStart ≤ i ∧ i < r.storedEnd ∧ r.hasPayload = true
  copied : ∀ payload, r.payload = some payload →
    payload = (data.drop r.payloadStart).take payload.length
  leased : ∀ packet, r.poolPayload = some packet → packet = data
  all_acked : r.payloadStart = r.dataLen ↔ ∀ i, ¬r.Owes i
  closed : r.payloadStart = r.dataLen → r.payloadEnd = r.dataLen

theorem getRange_eq {bytes : Bytes} (h : start ≤ stop ∧ stop ≤ bytes.length) :
    getRange bytes start stop = some ((bytes.drop start).take (stop - start)) := if_pos h

variable {r : RetainedSendRange} {data : Bytes}

/-- A stored part of the range reads back as the part of the frame it stands for. -/
theorem Sound.payloadRange_eq (h : Sound r data) (hstart : r.payloadStart ≤ start)
    (hle : start ≤ stop) (hstop : stop ≤ r.storedEnd) (hstored : r.hasPayload = true) :
    r.payloadRange start stop = some ((data.drop start).take (stop - start)) := by
  have hend := h.end_le
  have hlen := h.dataLen_eq
  unfold payloadRange
  rw [if_neg (by omega)]
  cases hpayload : r.payload with
  | some payload =>
    have hstored : r.storedEnd = r.payloadStart + payload.length := by simp [storedEnd, hpayload]
    simp only
    rw [getRange_eq (by omega), h.copied payload hpayload, drop_take, drop_drop, take_take]
    congr 2
    · omega
    · congr 1
      omega
  | none =>
    obtain ⟨packet, hpacket⟩ : ∃ packet, r.poolPayload = some packet := by
      simpa [hasPayload, hpayload, isSome_iff_exists] using hstored
    simp only [hpacket, bind_some]
    rw [h.leased packet hpacket, getRange_eq (by omega)]

/-- Dropping acknowledged edges keeps every owed byte. The bitmap may have grown since the range was
last compact: what is then required of the payload is only that it reaches every owed byte. -/
theorem compactAcknowledgedEdges_sound (hlen : r.dataLen = data.length)
    (hwords : r.dataLen ≤ 64 * r.acknowledged.length) (hwrap : r.offset + r.dataLen ≤ u64Max)
    (hstart : r.payloadStart ≤ r.storedEnd) (hend : r.storedEnd ≤ r.dataLen)
    (howed : ∀ i, r.Owes i → r.payloadStart ≤ i ∧ i < r.storedEnd ∧ r.hasPayload = true)
    (hcopied : ∀ payload, r.payload = some payload →
      payload = (data.drop r.payloadStart).take payload.length)
    (hleased : ∀ packet, r.poolPayload = some packet → packet = data)
    (hdone : r.hasPayload = false → r.payloadStart = r.dataLen)
    (hclosed : r.payloadStart = r.dataLen → r.payloadEnd = r.dataLen) :
    Sound r.compactAcknowledgedEdges data := by
  unfold compactAcknowledgedEdges
  by_cases hpayload : r.hasPayload = true
  · rw [if_neg (by simp [hpayload])]
    cases hbounds : clearBounds r.acknowledged r.payloadStart r.storedEnd with
    | none =>
      have hacked : ∀ i, ¬r.Owes i := by
        intro i hi
        obtain ⟨h₁, h₂, -⟩ := howed i hi
        have := clearBounds_eq_none hbounds ⟨h₁, h₂⟩
        rw [← isByteAcknowledged, hi.2] at this
        cases this
      refine ⟨hlen, hwords, hwrap, le_refl _, le_refl _, ?_,
        by simp [RetainedSendRange.dropPayload],
        by simp [RetainedSendRange.dropPayload], ?_, fun _ => rfl⟩
      · intro i hi
        exact absurd hi (hacked i)
      · exact ⟨fun _ => hacked, fun _ => rfl⟩
    | some bounds =>
      obtain ⟨firstLive, lastLiveEnd⟩ := bounds
      have hb := clearBounds_eq_some hbounds
      have h₁ := hb.first_ge
      have h₂ := hb.first_lt
      have h₃ := hb.last_le
      have hmax : max r.payloadStart firstLive = firstLive := by omega
      have hlive : r.Owes firstLive := ⟨by omega, hb.first_clear⟩
      simp only [hmax]
      obtain ⟨r', hr'⟩ : ∃ r' : RetainedSendRange, r' = { r with
          payload := r.payload.map fun payload =>
            (payload.drop (firstLive - r.payloadStart)).take (lastLiveEnd - firstLive)
          payloadStart := firstLive
          payloadEnd := lastLiveEnd } := ⟨_, rfl⟩
      rw [← hr']
      have hstored : r'.storedEnd = lastLiveEnd := by
        cases hp : r.payload with
        | none => simp [hr', storedEnd, hp]
        | some payload =>
          have : r.storedEnd = r.payloadStart + payload.length := by simp [storedEnd, hp]
          simp only [hr', storedEnd, hp, map_some, length_take, length_drop]
          omega
      have hsame : ∀ i, r'.Owes i ↔ r.Owes i := by
        intro i
        rw [hr']
        rfl
      refine ⟨by rw [hr']; exact hlen, by rw [hr']; exact hwords, by rw [hr']; exact hwrap, ?_, ?_,
        ?_, ?_, ?_, ?_, ?_⟩
      · rw [hstored, hr']
        exact h₂.le
      · rw [hstored, hr']
        show lastLiveEnd ≤ r.dataLen
        omega
      · intro i hi
        have hi := (hsame i).mp hi
        obtain ⟨h₄, h₅, -⟩ := howed i hi
        refine ⟨?_, ?_, ?_⟩
        · rw [hr']
          by_contra hlt
          have := hb.below i h₄ (by simpa using hlt)
          rw [← isByteAcknowledged, hi.2] at this
          cases this
        · rw [hstored]
          by_contra hge
          have := hb.above i (by omega) h₅
          rw [← isByteAcknowledged, hi.2] at this
          cases this
        · rw [hr']
          simpa [hasPayload] using hpayload
      · intro payload hp
        rw [hr'] at hp ⊢
        obtain ⟨old, hold, rfl⟩ := map_eq_some_iff.mp hp
        simp only [length_take, length_drop]
        conv_lhs => rw [hcopied old hold]
        rw [drop_take, drop_drop, take_take]
        congr 2
        omega
      · rw [hr']
        exact hleased
      · constructor
        · intro hbad
          rw [hr'] at hbad
          simp only at hbad
          omega
        · intro hnone
          exact absurd ((hsame _).mpr hlive) (hnone _)
      · intro hbad
        rw [hr'] at hbad
        simp only at hbad
        omega
  · have hpayload : r.hasPayload = false := by simpa using hpayload
    rw [if_pos (by simp [hpayload])]
    have hacked : ∀ i, ¬r.Owes i := by
      intro i hi
      have := (howed i hi).2.2
      rw [hpayload] at this
      cases this
    exact ⟨hlen, hwords, hwrap, hstart, hend, howed, hcopied, hleased,
      ⟨fun _ => hacked, fun _ => hdone hpayload⟩, hclosed⟩

/-- The fields no acknowledgement changes. -/
structure SameFrame (r r' : RetainedSendRange) : Prop where
  streamId : r'.streamId = r.streamId
  offset : r'.offset = r.offset
  dataLen : r'.dataLen = r.dataLen
  fin : r'.fin = r.fin
  finAcked : r'.finAcked = r.finAcked
  logicalPacketNumber : r'.logicalPacketNumber = r.logicalPacketNumber
  priorPackets : r'.priorPackets = r.priorPackets

variable (r)

theorem SameFrame.refl : SameFrame r r := ⟨rfl, rfl, rfl, rfl, rfl, rfl, rfl⟩

theorem SameFrame.trans {r r' r'' : RetainedSendRange} (h : SameFrame r r')
    (h' : SameFrame r' r'') : SameFrame r r'' :=
  ⟨h'.streamId.trans h.streamId, h'.offset.trans h.offset, h'.dataLen.trans h.dataLen,
    h'.fin.trans h.fin, h'.finAcked.trans h.finAcked,
    h'.logicalPacketNumber.trans h.logicalPacketNumber, h'.priorPackets.trans h.priorPackets⟩

theorem compactAcknowledgedEdges_same : SameFrame r r.compactAcknowledgedEdges := by
  unfold compactAcknowledgedEdges
  split
  · exact .refl r
  · split <;> exact ⟨rfl, rfl, rfl, rfl, rfl, rfl, rfl⟩

theorem compactAcknowledgedEdges_acknowledged :
    r.compactAcknowledgedEdges.acknowledged = r.acknowledged := by
  unfold compactAcknowledgedEdges
  split
  · rfl
  · split <;> rfl

theorem markAcknowledged_same (offset length : Nat) :
    SameFrame r (r.markAcknowledged offset length) := by
  unfold markAcknowledged
  simp only
  split_ifs
  · exact .refl r
  · exact ⟨rfl, rfl, rfl, rfl, rfl, rfl, rfl⟩
  · refine .trans ?_ (compactAcknowledgedEdges_same _)
    exact ⟨rfl, rfl, rfl, rfl, rfl, rfl, rfl⟩

variable {r}

/-- An acknowledgement of stream bytes settles exactly the bytes of the range it names. -/
theorem Sound.markAcknowledged (h : Sound r data) (offset length : Nat) :
    Sound (r.markAcknowledged offset length) data ∧ ∀ i, (r.markAcknowledged offset length).Owes i ↔
        r.Owes i ∧ ¬(offset ≤ r.offset + i ∧ r.offset + i < offset + length) := by
  have hwrap := h.noWrap
  have hend : satAdd r.offset r.dataLen = r.offset + r.dataLen := by
    unfold satAdd
    unfold u64Max at hwrap
    omega
  have hstop : min (satAdd offset length) (r.offset + r.dataLen) =
      min (offset + length) (r.offset + r.dataLen) := by
    unfold satAdd
    unfold u64Max at hwrap
    omega
  unfold RetainedSendRange.markAcknowledged
  simp only [hend, hstop]
  by_cases hempty : min (offset + length) (r.offset + r.dataLen) ≤ max offset r.offset
  · rw [if_pos hempty]
    refine ⟨h, fun i => ⟨fun hi => ⟨hi, ?_⟩, fun hi => hi.1⟩⟩
    have := hi.1
    omega
  rw [if_neg hempty]
  by_cases hfull : max offset r.offset = r.offset ∧ min (offset + length) (r.offset + r.dataLen) =
    r.offset + r.dataLen
  · rw [if_pos hfull]
    have hnone : ∀ i, ¬RetainedSendRange.Owes { r.dropPayload with
        acknowledged := replicate r.acknowledged.length (.allOnes 64) } i := by
      intro i ⟨hlt, hbit⟩
      have hlt : i < r.dataLen := hlt
      have hwords := h.words
      have hset := bit_replicate (i := i) r.acknowledged.length (by omega)
      rw [isByteAcknowledged, hset] at hbit
      cases hbit
    refine ⟨⟨h.dataLen_eq, ?_, h.noWrap, le_refl _, le_refl _, fun i hi => absurd hi (hnone i),
      by simp [RetainedSendRange.dropPayload], by simp [RetainedSendRange.dropPayload],
      ⟨fun _ => hnone, fun _ => rfl⟩, fun _ => rfl⟩, ?_⟩
    · rw [length_replicate]
      exact h.words
    intro i
    constructor
    · intro hi
      exact absurd hi (hnone i)
    intro ⟨hi, hout⟩
    have := hi.1
    omega
  rw [if_neg hfull]
  obtain ⟨r', hr'⟩ : ∃ r' : RetainedSendRange, r' = { r with
      acknowledged := setRange r.acknowledged (max offset r.offset - r.offset)
        (min (offset + length) (r.offset + r.dataLen) - r.offset) } := ⟨_, rfl⟩
  have howes : ∀ i, r'.Owes i ↔
      r.Owes i ∧ ¬(offset ≤ r.offset + i ∧ r.offset + i < offset + length) := by
    intro i
    have hwords := h.words
    unfold Owes isByteAcknowledged
    rw [hr']
    simp only
    constructor
    · intro ⟨hlt, hbit⟩
      rw [bit_setRange (by omega) (by omega), Bool.or_eq_false_iff, decide_eq_false_iff_not] at hbit
      exact ⟨⟨hlt, hbit.1⟩, by omega⟩
    intro ⟨⟨hlt, hbit⟩, hout⟩
    rw [bit_setRange (by omega) (by omega), hbit, Bool.false_or, decide_eq_false_iff_not]
    omega
  have hstored : r'.storedEnd = r.storedEnd := by rw [hr']; rfl
  have hpayload : r'.hasPayload = r.hasPayload := by rw [hr']; rfl
  have hsound : Sound r'.compactAcknowledgedEdges data := by
    refine compactAcknowledgedEdges_sound (by rw [hr']; exact h.dataLen_eq) ?_
      (by rw [hr']; exact h.noWrap)
      (by rw [hr']; exact h.start_le) (by rw [hr']; exact h.end_le) ?_
      (by rw [hr']; exact h.copied) (by rw [hr']; exact h.leased) ?_ (by rw [hr']; exact h.closed)
    · rw [hr']
      simpa using h.words
    · intro i hi
      have := h.owed i ((howes i).mp hi).1
      rw [hstored, hr']
      exact this
    intro hno
    rw [hpayload] at hno
    rw [hr']
    refine h.all_acked.mpr ?_
    intro i hi
    have := (h.owed i hi).2.2
    rw [hno] at this
    cases this
  rw [← hr']
  refine ⟨hsound, ?_⟩
  intro i
  rw [← howes i]
  unfold Owes isByteAcknowledged
  rw [(compactAcknowledgedEdges_same r').dataLen, compactAcknowledgedEdges_acknowledged]

/-- What a retransmission sends: the first run of owed bytes, read from the stored payload. -/
theorem Sound.run_eq_some (h : Sound r data)
    (hrun : r.firstUnacknowledgedRun = some (start, stop)) :
    start < stop ∧ stop ≤ r.dataLen ∧ (∀ i, start ≤ i → i < stop → r.Owes i) ∧
      (∀ i, r.Owes i → start ≤ i) ∧
      r.payloadRange start stop = some ((data.drop start).take (stop - start)) := by
  unfold firstUnacknowledgedRun at hrun
  split_ifs at hrun with hpayload
  have hpayload : r.hasPayload = true := by simpa using hpayload
  split at hrun
  · cases hrun
  rename_i first hfirst
  obtain ⟨rfl, rfl⟩ := Prod.mk.inj (some.inj hrun)
  obtain ⟨h₁, h₂, hbit, hmin⟩ := firstBit_eq_some hfirst
  have hend := h.end_le
  have hrun : first < (firstBit r.acknowledged (first + 1) r.storedEnd true).getD r.storedEnd ∧
      (firstBit r.acknowledged (first + 1) r.storedEnd true).getD r.storedEnd ≤ r.storedEnd ∧
      ∀ i, first ≤ i → i < (firstBit r.acknowledged (first + 1) r.storedEnd true).getD r.storedEnd →
        r.isByteAcknowledged i = false := by
    cases hlast : firstBit r.acknowledged (first + 1) r.storedEnd true with
    | none =>
      refine ⟨h₂, le_refl _, ?_⟩
      intro i hi hlt
      by_cases heq : i = first
      · rw [heq]
        exact hbit
      · have := firstBit_eq_none hlast (k := i) ⟨by omega, hlt⟩
        simpa [isByteAcknowledged] using this
    | some last =>
      obtain ⟨h₃, h₄, -, hbetween⟩ := firstBit_eq_some hlast
      refine ⟨by simp only [getD_some]; omega, by simp only [getD_some]; omega, ?_⟩
      intro i hi hlt
      by_cases heq : i = first
      · rw [heq]
        exact hbit
      · have := hbetween i (by omega) hlt
        simpa [isByteAcknowledged] using this
  obtain ⟨hlt, hle, hclear⟩ := hrun
  refine ⟨hlt, by omega, ?_, ?_, ?_⟩
  · intro i hi hi'
    exact ⟨by omega, hclear i hi hi'⟩
  · intro i hi
    by_contra hbad
    exact hmin i (h.owed i hi).1 (by omega) hi.2
  · exact h.payloadRange_eq h₁ hlt.le hle hpayload

theorem Sound.run_eq_none (h : Sound r data) (hrun : r.firstUnacknowledgedRun = none) (i : Nat) :
    ¬r.Owes i := by
  intro hi
  obtain ⟨h₁, h₂, hpayload⟩ := h.owed i hi
  unfold firstUnacknowledgedRun at hrun
  rw [if_neg (by simp [hpayload])] at hrun
  split at hrun
  · rename_i hnone
    exact firstBit_eq_none hnone ⟨h₁, h₂⟩ hi.2
  · cases hrun

end RetainedSendRange

end QuicLite

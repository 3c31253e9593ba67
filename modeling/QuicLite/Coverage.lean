import QuicLite.Retained
import QuicLite.Lib.Runs

/-!
# Coverage of a retained range

What a range knows after any sequence of acknowledgements. `Sound` says that it stores what it owes;
`Tight` adds that it stores nothing beyond the first and the last byte it owes. From a fresh range
on, the bytes it owes are those that no acknowledgement covered, and its copied payload is handed
back for reuse by the call that covers the last of them.
-/

namespace QuicLite

open Bitmap List Option RetainedSendRange

namespace RetainedSendRange

variable (self : RetainedSendRange)

/-- The payload `compact_acknowledged_edges` hands back for reuse. -/
def compactReturns : Option Bytes :=
  if !self.hasPayload then none
  else
    match clearBounds self.acknowledged self.payloadStart self.storedEnd with
    | none => self.payload
    | some _ => none

/-- The payload `mark_acknowledged` hands back for reuse. -/
def markReturns (offset length : Nat) : Option Bytes :=
  let start := max offset self.offset
  let stop := min (satAdd offset length) (satAdd self.offset self.dataLen)
  if stop ≤ start then none
  else if start = self.offset ∧ stop = satAdd self.offset self.dataLen then self.payload
  else
    { self with
      acknowledged := setRange self.acknowledged (start - self.offset) (stop - self.offset)
        }.compactReturns

/-- The range after a sequence of acknowledgements, each an offset and a length. -/
def acknowledge (acks : List (Nat × Nat)) : RetainedSendRange :=
  Runs.exec (fun r ack => r.markAcknowledged ack.1 ack.2) self acks

/-- The payloads handed back on the way. -/
def returns (acks : List (Nat × Nat)) : List Bytes :=
  Runs.trace (fun r ack => r.markAcknowledged ack.1 ack.2) (fun r ack =>
    (r.markReturns ack.1 ack.2).toList) self acks

/-- A range as the encoder retains it: its bytes are copied, or leased with the packet. -/
structure Fresh (r : RetainedSendRange) (data : Bytes) : Prop where
  dataLen : r.dataLen = data.length
  noWrap : r.offset + data.length ≤ u64Max
  backing : r.payload = some data ∧ r.poolPayload = none ∨ r.payload = none ∧
    r.poolPayload = some data
  start : r.payloadStart = 0
  stop : r.payloadEnd = data.length
  acknowledged : r.acknowledged = List.replicate ((data.length + 63) / 64) 0

/-- Some acknowledgement names byte `i` of the range. -/
def Covered (r : RetainedSendRange) (acks : List (Nat × Nat)) (i : Nat) : Prop :=
  ∃ ack ∈ acks, ack.1 ≤ r.offset + i ∧ r.offset + i < ack.1 + ack.2

/-- A stored payload reaches from the first to the last byte the range owes, and none is kept
without one. -/
structure Tight (r : RetainedSendRange) (data : Bytes) : Prop where
  sound : Sound r data
  first : ∀ i, r.Owes i → r.Owes r.payloadStart
  last : ∀ i, r.Owes i → r.Owes (r.storedEnd - 1)
  settled : 0 < data.length → (∀ i, ¬r.Owes i) → r.payload = none

variable {r : RetainedSendRange} {data : Bytes}

theorem bit_zeros (n i : Nat) : bit (replicate n (0 : Word)) i = false := by
  unfold bit word
  rw [getD_eq_getElem?_getD, getElem?_replicate]
  split <;> simp

theorem Fresh.owes_iff (h : Fresh r data) (i : Nat) : r.Owes i ↔ i < data.length := by
  unfold Owes isByteAcknowledged
  rw [h.acknowledged, bit_zeros, h.dataLen]
  exact and_iff_left rfl

theorem Fresh.storedEnd (h : Fresh r data) : r.storedEnd = data.length := by
  unfold RetainedSendRange.storedEnd
  rcases h.backing with ⟨hpayload, -⟩ | ⟨hpayload, -⟩
  · simp [hpayload, h.start]
  · simp only [hpayload, h.stop]

theorem Fresh.tight (h : Fresh r data) : Tight r data := by
  have hend := h.storedEnd
  have hpayload : r.hasPayload = true := by
    unfold hasPayload
    rcases h.backing with ⟨hcopied, -⟩ | ⟨-, hleased⟩
    · rw [hcopied]
      rfl
    · rw [hleased, isSome_some, Bool.or_true]
  refine ⟨⟨h.dataLen, ?_, ?_, ?_, ?_, fun i hi => ?_, fun payload hp => ?_, fun packet hp =>
    ?_, ?_, ?_⟩, ?_, ?_, ?_⟩
  · rw [h.dataLen, h.acknowledged, length_replicate]
    omega
  · rw [h.dataLen]
    exact h.noWrap
  · rw [h.start]
    exact Nat.zero_le _
  · rw [hend, h.dataLen]
  · rw [h.start, hend]
    exact ⟨Nat.zero_le _, (h.owes_iff i).mp hi, hpayload⟩
  · rw [h.start, drop_zero]
    rcases h.backing with ⟨hcopied, -⟩ | ⟨hnone, -⟩
    · rw [hcopied, some.injEq] at hp
      rw [← hp, take_length]
    · rw [hnone] at hp
      cases hp
  · rcases h.backing with ⟨-, hnone⟩ | ⟨-, hleased⟩
    · rw [hnone] at hp
      cases hp
    · rw [hleased, some.injEq] at hp
      exact hp.symm
  · rw [h.start, h.dataLen]
    constructor
    · intro hzero i hi
      have := (h.owes_iff i).mp hi
      omega
    intro hnone
    by_contra hne
    exact hnone 0 ((h.owes_iff 0).mpr (by omega))
  · intro hzero
    rw [h.stop, h.dataLen]
  · intro i hi
    rw [h.owes_iff] at hi ⊢
    rw [h.start]
    omega
  · intro i hi
    rw [h.owes_iff] at hi ⊢
    omega
  · intro hpos hnone
    exact absurd ((h.owes_iff 0).mpr hpos) (hnone 0)

/-- Compaction keeps the part between two live bytes. -/
theorem compactAcknowledgedEdges_live {firstLive lastLiveEnd : Nat} (hpayload : r.hasPayload = true)
    (hbounds : clearBounds r.acknowledged r.payloadStart r.storedEnd =
      some (firstLive, lastLiveEnd)) :
    r.compactAcknowledgedEdges.payloadStart = firstLive ∧ r.compactAcknowledgedEdges.storedEnd =
      lastLiveEnd ∧
      r.compactAcknowledgedEdges.payload.isSome = r.payload.isSome := by
  have hb := clearBounds_eq_some hbounds
  have hge := hb.first_ge
  have hlt := hb.first_lt
  have hle := hb.last_le
  unfold compactAcknowledgedEdges
  rw [if_neg (by simp [hpayload]), hbounds]
  refine ⟨Nat.max_eq_right hge, ?_, isSome_map⟩
  cases hp : r.payload with
  | none => simp [storedEnd]
  | some payload =>
    have : r.storedEnd = r.payloadStart + payload.length := by simp [storedEnd, hp]
    simp only [storedEnd, map_some, length_take, length_drop]
    omega

theorem compactAcknowledgedEdges_owes (r : RetainedSendRange) (i : Nat) :
    r.compactAcknowledgedEdges.Owes i ↔ r.Owes i := by
  unfold Owes isByteAcknowledged
  rw [(compactAcknowledgedEdges_same r).dataLen, compactAcknowledgedEdges_acknowledged]

section

variable (h : Tight r data)
variable {i : Nat}
include h

/-- What one acknowledgement does to the payload: it touches nothing, or it settles the range and
hands back the payload, or live bytes remain at both ends of what is stored. -/
theorem Tight.mark_cases (offset length : Nat) :
    (r.markAcknowledged offset length = r ∧ r.markReturns offset length = none) ∨
      (0 < data.length ∧ (r.markAcknowledged offset length).payload = none ∧
        r.markReturns offset length = r.payload ∧ ∀ i, ¬(r.markAcknowledged offset length).Owes i) ∨
      (r.markReturns offset length = none ∧
        (r.markAcknowledged offset length).Owes (r.markAcknowledged offset length).payloadStart ∧
        (r.markAcknowledged offset length).Owes ((r.markAcknowledged offset length).storedEnd - 1) ∧
        (r.markAcknowledged offset length).payload.isSome = r.payload.isSome) := by
  obtain ⟨hsound, howes⟩ := h.sound.markAcknowledged offset length
  have hdone := hsound.all_acked
  have hlength := h.sound.dataLen_eq
  revert hdone howes
  unfold markAcknowledged markReturns
  simp only
  split_ifs with hempty hfull
  · exact fun _ _ => .inl ⟨rfl, rfl⟩
  · intro _ hdone
    refine .inr (.inl ⟨?_, rfl, rfl, hdone.mp rfl⟩)
    unfold satAdd at hempty
    omega
  obtain ⟨marked, hmarked⟩ : ∃ marked : RetainedSendRange, marked = { r with
      acknowledged := setRange r.acknowledged (max offset r.offset - r.offset)
        (min (satAdd offset length) (satAdd r.offset r.dataLen) - r.offset) } := ⟨_, rfl⟩
  have hpayloads : marked.payload = r.payload := by rw [hmarked]
  have hhas : marked.hasPayload = r.hasPayload := by rw [hmarked]; rfl
  have hstored : marked.storedEnd = r.storedEnd := by rw [hmarked]; rfl
  have hlen : marked.dataLen = r.dataLen := by rw [hmarked]
  have hpos : 0 < data.length := by
    unfold satAdd at hempty
    omega
  rw [← hmarked]
  intro howes hdone
  unfold compactReturns
  cases hpayload : marked.hasPayload with
  | false =>
    -- nothing is stored, so nothing was owed
    have hnone : marked.payload = none := by
      simpa using (Bool.or_eq_false_iff.mp hpayload).1
    have hkeep : marked.compactAcknowledgedEdges = marked := by
      unfold compactAcknowledgedEdges
      rw [if_pos (by simp [hpayload])]
    refine .inr (.inl ⟨hpos, by rw [hkeep, hnone], by rw [if_pos (by decide), ← hpayloads, hnone],
      fun i hi => ?_⟩)
    have := (h.sound.owed i ((howes i).mp hi).1).2.2
    rw [← hhas, hpayload] at this
    cases this
  | true =>
    cases hbounds : clearBounds marked.acknowledged marked.payloadStart marked.storedEnd with
    | none =>
      have hdrop : marked.compactAcknowledgedEdges = marked.dropPayload := by
        unfold compactAcknowledgedEdges
        rw [if_neg (by simp [hpayload]), hbounds]
      rw [hdrop] at hdone ⊢
      exact .inr (.inl ⟨hpos, rfl, hpayloads, hdone.mp rfl⟩)
    | some bounds =>
      have hb := clearBounds_eq_some hbounds
      have hlt := hb.first_lt
      have hle := hb.last_le
      have hend := h.sound.end_le
      obtain ⟨hstart, hstop, hsome⟩ := compactAcknowledgedEdges_live hpayload hbounds
      refine .inr (.inr ⟨rfl, ?_, ?_, by rw [hsome, hpayloads]⟩)
      · rw [hstart, compactAcknowledgedEdges_owes]
        exact ⟨by omega, hb.first_clear⟩
      · rw [hstop, compactAcknowledgedEdges_owes]
        exact ⟨by omega, hb.last_clear⟩

theorem Tight.markAcknowledged (offset length : Nat) :
    Tight (r.markAcknowledged offset length) data := by
  obtain ⟨hsound, -⟩ := h.sound.markAcknowledged offset length
  rcases h.mark_cases offset length with ⟨hsame, -⟩ | ⟨-, hpayload, -, hnone⟩ |
    ⟨-, hfirst, hlast, -⟩
  · rw [hsame]
    exact h
  · exact ⟨hsound, fun i hi => absurd hi (hnone i), fun i hi => absurd hi (hnone i), fun _ _ =>
      hpayload⟩
  · exact ⟨hsound, fun _ _ => hfirst, fun _ _ => hlast, fun _ hnone => absurd hfirst (hnone _)⟩

/-- The payload is handed back by the call after which nothing is owed any more. -/
theorem Tight.markReturns_isSome (offset length : Nat) : (r.markReturns offset length).isSome ↔
      r.payload.isSome ∧ (∃ i, r.Owes i) ∧ ∀ i, ¬(r.markAcknowledged offset length).Owes i := by
  rcases h.mark_cases offset length with ⟨hsame, hreturns⟩ | ⟨hpos, -, hreturns, hnone⟩ |
    ⟨hreturns, hfirst, -⟩
  · rw [hreturns, hsame]
    refine iff_of_false (by simp) ?_
    rintro ⟨-, ⟨i, hi⟩, hbad⟩
    exact hbad i hi
  · rw [hreturns]
    refine ⟨fun hsome => ⟨hsome, ?_, hnone⟩, fun hall => hall.1⟩
    by_contra hbad
    rw [h.settled hpos (not_exists.mp hbad)] at hsome
    cases hsome
  · rw [hreturns]
    refine iff_of_false (by simp) ?_
    rintro ⟨-, -, hbad⟩
    exact hbad _ hfirst

/-- While something is owed the payload is neither handed back nor dropped. -/
theorem Tight.payload_isSome {offset length : Nat}
    (hi : (r.markAcknowledged offset length).Owes i) :
    (r.markAcknowledged offset length).payload.isSome = r.payload.isSome := by
  rcases h.mark_cases offset length with ⟨hsame, -⟩ | ⟨-, -, -, hnone⟩ | ⟨-, -, -, hsome⟩
  · rw [hsame]
  · exact absurd hi (hnone i)
  · exact hsome

/-! ## Sequences of acknowledgements -/

variable (acks : List (Nat × Nat))

theorem Tight.acknowledge : Tight (r.acknowledge acks) data :=
  Runs.invariant (P := fun r => Tight r data) (fun _ ack hr =>
    hr.markAcknowledged ack.1 ack.2) h acks

theorem Tight.acknowledge_owes (i : Nat) :
    (r.acknowledge acks).Owes i ↔ r.Owes i ∧ ¬Covered r acks i := by
  induction acks generalizing r with
  | nil => simp [RetainedSendRange.acknowledge, Covered]
  | cons ack acks ih =>
    have hoffset := (markAcknowledged_same r ack.1 ack.2).offset
    have hrest := ih (h.markAcknowledged ack.1 ack.2)
    rw [(h.sound.markAcknowledged ack.1 ack.2).2 i] at hrest
    unfold RetainedSendRange.acknowledge at hrest ⊢
    rw [Runs.exec_cons, hrest]
    simp only [Covered, hoffset, mem_cons, exists_eq_or_imp, not_or, and_assoc]

theorem Tight.acknowledge_payload {acks : List (Nat × Nat)} (hi : (r.acknowledge acks).Owes i) :
    (r.acknowledge acks).payload.isSome = r.payload.isSome := by
  induction acks generalizing r with
  | nil => rfl
  | cons ack acks ih =>
    have hnext := h.markAcknowledged ack.1 ack.2
    rw [← h.payload_isSome ((hnext.acknowledge_owes acks i).mp hi).1]
    exact ih hnext hi

/-- A copied payload is handed back at most once, and is when everything is acknowledged. -/
theorem Tight.length_returns : (r.returns acks).length ≤ 1 ∧ ((r.returns acks).length = 1 ↔
      r.payload.isSome = true ∧ (∃ i, r.Owes i) ∧ ∀ i, ¬(r.acknowledge acks).Owes i) := by
  induction acks generalizing r with
  | nil =>
    refine ⟨Nat.zero_le _, iff_of_false (by simp [returns, Runs.trace]) ?_⟩
    rintro ⟨-, ⟨i, hi⟩, hnone⟩
    exact hnone i hi
  | cons ack acks ih =>
    obtain ⟨hle, hiff⟩ := ih (h.markAcknowledged ack.1 ack.2)
    have hreturns := h.markReturns_isSome ack.1 ack.2
    have hsplit : r.returns (ack :: acks) =
        (r.markReturns ack.1 ack.2).toList ++ (r.markAcknowledged ack.1 ack.2).returns acks := rfl
    have hafter : r.acknowledge (ack :: acks) = (r.markAcknowledged ack.1 ack.2).acknowledge acks :=
      rfl
    rw [hsplit, length_append]
    cases hcall : r.markReturns ack.1 ack.2 with
    | some payload =>
      obtain ⟨hpayload, howed, hnone⟩ := hreturns.mp (by rw [hcall]; rfl)
      have hzero : ((r.markAcknowledged ack.1 ack.2).returns acks).length ≠ 1 := by
        intro hone
        obtain ⟨i, hi⟩ := (hiff.mp hone).2.1
        exact hnone i hi
      refine ⟨by simp only [toList_some, length_singleton]; omega,
        iff_of_true (by simp only [toList_some, length_singleton]; omega)
          ⟨hpayload, howed, fun i hi =>
            hnone i (((h.markAcknowledged ack.1 ack.2).acknowledge_owes acks i).mp hi).1⟩⟩
    | none =>
      rw [toList_none, length_nil, Nat.zero_add, hiff]
      refine ⟨hle, ?_⟩
      by_cases hleft : ∃ i, (r.markAcknowledged ack.1 ack.2).Owes i
      · obtain ⟨i, hi⟩ := hleft
        rw [h.payload_isSome hi]
        have hold := ((h.sound.markAcknowledged ack.1 ack.2).2 i).mp hi
        exact ⟨fun hall => ⟨hall.1, ⟨i, hold.1⟩, hall.2.2⟩, fun hall => ⟨hall.1, ⟨i, hi⟩, hall.2.2⟩⟩
      refine iff_of_false (fun hall => hleft hall.2.1) ?_
      rintro ⟨hpayload, howed, -⟩
      have := hreturns.mpr ⟨hpayload, howed, not_exists.mp hleft⟩
      rw [hcall] at this
      cases this

/-- Bytes `[start, stop)` are the first maximal run of those that satisfy `P`. -/
structure FirstRun (P : Nat → Prop) (start stop : Nat) : Prop where
  first : IsLeast {i | P i} start
  nonempty : start < stop
  all : ∀ i, start ≤ i → i < stop → P i
  maximal : ¬P stop

theorem Tight.firstRun {start stop : Nat} (hrun : r.firstUnacknowledgedRun = some (start, stop)) :
    FirstRun r.Owes start stop := by
  obtain ⟨hlt, hle, hall, hmin, -⟩ := h.sound.run_eq_some hrun
  refine ⟨⟨hall start (Nat.le_refl _) hlt, fun i hi => hmin i hi⟩, hlt, hall, fun hstop => ?_⟩
  unfold firstUnacknowledgedRun at hrun
  split_ifs at hrun with hpayload
  split at hrun
  · cases hrun
  rename_i first hfirst
  obtain ⟨rfl, hend⟩ := Prod.mk.inj (some.inj hrun)
  have hbefore := (h.sound.owed stop hstop).2.1
  cases hlast : firstBit r.acknowledged (first + 1) r.storedEnd true with
  | none =>
    rw [hlast] at hend
    simp only [getD_none] at hend
    omega
  | some last =>
    rw [hlast] at hend
    obtain ⟨-, -, hbit, -⟩ := firstBit_eq_some hlast
    obtain rfl : last = stop := hend
    have hclear := hstop.2
    rw [isByteAcknowledged, hbit] at hclear
    cases hclear

theorem Tight.run_eq_none_iff : r.firstUnacknowledgedRun = none ↔ ∀ i, ¬r.Owes i := by
  refine ⟨fun hnone => h.sound.run_eq_none hnone, fun hnone => ?_⟩
  cases hrun : r.firstUnacknowledgedRun with
  | none => rfl
  | some run =>
    obtain ⟨start, stop⟩ := run
    exact absurd (h.firstRun hrun).first.1 (hnone start)

theorem Tight.payloadRange_byte (hi : r.Owes i) :
    r.payloadRange i (i + 1) = some (data[i]?).toList := by
  obtain ⟨hstart, hstop, hstored⟩ := h.sound.owed i hi
  have hone : i.succ - i = 1 := by omega
  rw [h.sound.payloadRange_eq hstart (Nat.le_succ i) hstop hstored, hone, take_one, head?_drop]

/-- What is stored reaches from the first byte owed to the last one. -/
theorem Tight.retained_span {first last : Nat} (hfirst : IsLeast {i | r.Owes i} first)
    (hlast : IsGreatest {i | r.Owes i} last) :
    r.payloadStart = first ∧ r.retainedLen = last + 1 - first := by
  have h₁ := h.sound.owed first hfirst.1
  have h₂ := h.sound.owed last hlast.1
  have h₃ := hfirst.2 (h.first first hfirst.1)
  have h₄ := hlast.2 (h.last first hfirst.1)
  unfold retainedLen
  omega

end

/-- Byte `i` of the range is still to be acknowledged. -/
def Uncovered (r : RetainedSendRange) (data : Bytes) (acks : List (Nat × Nat)) (i : Nat) : Prop :=
  i < data.length ∧ ¬Covered r acks i

theorem Fresh.acknowledge_owes (h : Fresh r data) (acks : List (Nat × Nat)) (i : Nat) :
    (r.acknowledge acks).Owes i ↔ Uncovered r data acks i := by
  rw [h.tight.acknowledge_owes, h.owes_iff]
  rfl

/-- A range tracks its acknowledgements exactly, whatever their order, extent and overlap. -/
theorem acknowledge_exact (h : Fresh r data) (acks : List (Nat × Nat)) :
    (∀ i < data.length, (r.acknowledge acks).isByteAcknowledged i = true ↔ Covered r acks i) ∧
      ((r.acknowledge acks).allDataAcknowledged = true ↔ ∀ i < data.length, Covered r acks i) ∧
      (∀ i (hi : i < data.length), ¬Covered r acks i →
        (r.acknowledge acks).payloadRange i (i + 1) = some [data[i]]) ∧
      (∀ first last, IsLeast {i | Uncovered r data acks i} first →
        IsGreatest {i | Uncovered r data acks i} last →
        (r.acknowledge acks).payloadStart = first ∧ (r.acknowledge acks).retainedLen = last +
          1 - first) ∧
      (∀ start stop, (r.acknowledge acks).firstUnacknowledgedRun = some (start, stop) →
        FirstRun (Uncovered r data acks) start stop) ∧
      ((r.acknowledge acks).firstUnacknowledgedRun = none ↔ ∀ i < data.length, Covered r acks i) ∧
      (r.returns acks).length ≤ 1 ∧
      ∀ ack, (r.acknowledge acks).markReturns ack.1 ack.2 ≠ none ↔
        r.payload.isSome = true ∧ (∃ i, Uncovered r data acks i) ∧ ∀ i < data.length,
          Covered r (acks ++ [ack]) i := by
  have htight := h.tight.acknowledge acks
  have howes := h.acknowledge_owes acks
  have hsame : (r.acknowledge acks).Owes = Uncovered r data acks :=
    funext fun i => propext (howes i)
  have hcovered : ∀ more, (∀ i, ¬Uncovered r data more i) ↔
      ∀ i < data.length, Covered r more i := by
    intro more
    exact forall_congr' fun i => by rw [Uncovered, not_and_not_right]
  refine ⟨fun i hi => ?_, ?_, fun i hi hfree => ?_, fun first last hfirst hlast =>
    ?_, fun start stop hrun => ?_, ?_, (h.tight.length_returns acks).1, fun ack => ?_⟩
  · have hbit := not_congr (howes i)
    rw [Uncovered, Owes, htight.sound.dataLen_eq, not_and_not_right, not_and,
      Bool.not_eq_false] at hbit
    exact ⟨fun hset => hbit.mp (fun _ => hset) hi, fun hc => hbit.mpr (fun _ => hc) hi⟩
  · rw [allDataAcknowledged, beq_iff_eq, htight.sound.all_acked, hsame, hcovered]
  · rw [htight.payloadRange_byte ((howes i).mpr ⟨hi, hfree⟩), getElem?_eq_getElem hi, toList_some]
  · rw [← hsame] at hfirst hlast
    exact htight.retained_span hfirst hlast
  · rw [← hsame]
    exact htight.firstRun hrun
  · rw [htight.run_eq_none_iff, hsame, hcovered]
  · have hnext : ((r.acknowledge acks).markAcknowledged ack.1 ack.2).Owes =
        Uncovered r data (acks ++ [ack]) := by
      have hstep : (r.acknowledge acks).markAcknowledged ack.1 ack.2 =
          r.acknowledge (acks ++ [ack]) := by
        rw [acknowledge, acknowledge, Runs.exec_append]
        rfl
      rw [hstep]
      exact funext fun i => propext (h.acknowledge_owes _ i)
    rw [← isSome_iff_ne_none, htight.markReturns_isSome, hnext, hcovered, hsame]
    constructor
    · rintro ⟨hpayload, ⟨i, hi⟩, hall⟩
      rw [h.tight.acknowledge_payload ((howes i).mpr hi)] at hpayload
      exact ⟨hpayload, ⟨i, hi⟩, hall⟩
    rintro ⟨hpayload, ⟨i, hi⟩, hall⟩
    refine ⟨?_, ⟨i, hi⟩, hall⟩
    rw [h.tight.acknowledge_payload ((howes i).mpr hi)]
    exact hpayload

/-- A copied range of three bytes at stream offset 17. -/
def threeBytes : RetainedSendRange :=
  ⟨4, 17, 3, true, some [1, 2, 3], none, 0, 3, [0], false, 1, []⟩

theorem threeBytes_fresh : Fresh threeBytes [1, 2, 3] :=
  ⟨rfl, by decide, .inl ⟨rfl, rfl⟩, rfl, rfl, rfl⟩

/-- The outer bytes are acknowledged, then everything. -/
theorem threeBytes_exact :
    (threeBytes.acknowledge [(17, 1), (19, 40)]).firstUnacknowledgedRun = some (1, 2) ∧
      (threeBytes.acknowledge [(17, 1), (19, 40)]).markReturns 0 60 ≠ none := by
  have h := acknowledge_exact threeBytes_fresh [(17, 1), (19, 40)]
  refine ⟨by decide, (h.2.2.2.2.2.2.2 (0, 60)).mpr ⟨rfl, ⟨1, by decide, ?_⟩, ?_⟩⟩
  · simp [Covered, threeBytes]
  · simp [Covered, threeBytes]
    omega

end RetainedSendRange

end QuicLite

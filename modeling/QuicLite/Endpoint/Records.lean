import QuicLite.Endpoint.Moves
import QuicLite.Endpoint.Numbering

/-!
# The history of a record

A record keeps its slot, its packet number and its acceptance for as long as it is in the ledger:
only a submission that is reported blocked takes the acceptance back. New records take the next
packet number. `Follows` says this of any number of calls, and everything that depends on which
records there can be is drawn from it.
-/

namespace QuicLite

open List Option

namespace EndpointState

variable {P : Nat} {index packetNumber i : Nat} {s' : EndpointState P} {new : Option SentPacket}
variable {op : Op} {sent' : SentPacket}

/-- The record in a slot. -/
def Holds (s : EndpointState P) (index : Nat) (sent : SentPacket) : Prop :=
  s.sentPackets[index]? = some (some sent)

variable {sent : SentPacket} {s : EndpointState P}

theorem mem_records : sent ∈ s.records ↔ ∃ index, s.Holds index sent := by
  rw [records, ← Slots.entries, Slots.mem_entries, mem_iff_getElem?]
  rfl

/-- A record that was there before. -/
structure Continues (old new : SentPacket) : Prop where
  number : new.packetNumber = old.packetNumber
  accepted : old.accepted → new.accepted

theorem Continues.refl (sent : SentPacket) : Continues sent sent := ⟨rfl, id⟩

theorem Continues.trans {a b c : SentPacket} (h : Continues a b) (h' : Continues b c) :
    Continues a c :=
  ⟨h'.number.trans h.number, fun ha => h'.accepted (h.accepted ha)⟩

/-- The records of `s'` are records of `s`, or were numbered since. -/
structure Follows (s s' : EndpointState P) : Prop where
  next : s.nextPacketNumber ≤ s'.nextPacketNumber
  origin : ∀ index sent', s'.Holds index sent' →
    (∃ sent, s.Holds index sent ∧ Continues sent sent') ∨
    sent'.accepted ∧ s.nextPacketNumber ≤ sent'.packetNumber ∧
      sent'.packetNumber < s'.nextPacketNumber
  once : ∀ i j a b, s'.Holds i a → s'.Holds j b → a.packetNumber = b.packetNumber →
    s.nextPacketNumber ≤ a.packetNumber →
      (∀ i sent, s.Holds i sent → sent.packetNumber < s.nextPacketNumber) → i = j

namespace Follows

variable {s s' s'' : EndpointState P}

theorem of_kept (hnext : s.nextPacketNumber ≤ s'.nextPacketNumber)
    (h : ∀ index sent', s'.Holds index sent' → ∃ sent, s.Holds index sent ∧ Continues sent sent') :
    Follows s s' := by
  refine ⟨hnext, fun index sent' hholds => .inl (h index sent' hholds), ?_⟩
  intro i j a b ha _ _ hnew hbelow
  obtain ⟨sent, hsent, hcontinues⟩ := h i a ha
  have := hbelow i sent hsent
  rw [hcontinues.number] at hnew
  omega

theorem of_slots (hslots : s'.sentPackets = s.sentPackets)
    (hnext : s.nextPacketNumber ≤ s'.nextPacketNumber) :
    Follows s s' := by
  apply of_kept hnext
  intro index sent' hholds
  rw [Holds, hslots] at hholds
  exact ⟨sent', hholds, .refl sent'⟩

theorem refl (s : EndpointState P) : Follows s s := of_slots rfl (le_refl _)

theorem of_same (h : SameLedger s s') : Follows s s' := of_slots h.slots h.number

theorem of_idle (h : Idle s s') : Follows s s' := of_slots h.slots (by rw [h.rest])

/-- Below the next number stays below it. -/
theorem below (h : Follows s s')
    (hbelow : ∀ i sent, s.Holds i sent → sent.packetNumber < s.nextPacketNumber) :
    ∀ i sent, s'.Holds i sent → sent.packetNumber < s'.nextPacketNumber := by
  intro i sent' hholds
  rcases h.origin i sent' hholds with ⟨sent, hsent, hcontinues⟩ | ⟨-, -, hlt⟩
  · have := hbelow i sent hsent
    have := h.next
    rw [hcontinues.number]
    omega
  · exact hlt

theorem trans (h : Follows s s') (h' : Follows s' s'') : Follows s s'' where
  next := h.next.trans h'.next
  origin := by
    intro index sent'' hholds
    have hnext := h.next
    have hnext' := h'.next
    rcases h'.origin index sent'' hholds with ⟨sent', hsent', hcontinues'⟩ | ⟨haccepted, hge, hlt⟩
    · rcases h.origin index sent' hsent' with ⟨sent, hsent, hcontinues⟩ | ⟨haccepted, hge, hlt⟩
      · exact .inl ⟨sent, hsent, hcontinues.trans hcontinues'⟩
      · rw [← hcontinues'.number] at hge hlt
        exact .inr ⟨hcontinues'.accepted haccepted, hge, by omega⟩
    · exact .inr ⟨haccepted, by omega, hlt⟩
  once := by
    intro i j a b ha hb heq hge hbelow
    by_cases hnew : s'.nextPacketNumber ≤ a.packetNumber
    · exact h'.once i j a b ha hb heq hnew (h.below hbelow)
    -- both were numbered before the second part, so they are records of the state between
    rcases h'.origin i a ha with ⟨a', ha', hcontinuesA⟩ | ⟨-, hlate, -⟩
    · rcases h'.origin j b hb with ⟨b', hb', hcontinuesB⟩ | ⟨-, hlate, -⟩
      · refine h.once i j a' b' ha' hb' ?_ ?_ hbelow
        · rw [← hcontinuesA.number, ← hcontinuesB.number, heq]
        · rw [← hcontinuesA.number]
          exact hge
      · omega
    · omega

theorem of_set (hfound : s.Holds index sent) (hslots : s'.sentPackets = s.sentPackets.set index new)
    (hnext : s.nextPacketNumber ≤ s'.nextPacketNumber) (hnew : ∀ o ∈ new, Continues sent o) :
    Follows s s' := by
  apply of_kept hnext
  intro i sent' hholds
  rw [Holds, hslots, getElem?_set] at hholds
  split at hholds
  · rename_i heq
    subst heq
    split at hholds
    · exact ⟨sent, hfound, hnew sent' (some.inj hholds)⟩
    · cases hholds
  · exact ⟨sent', hholds, .refl sent'⟩

theorem of_leaves (h : Leaves s s' index sent new) : Follows s s' :=
  .of_set h.found h.slots h.number.ge fun o ho =>
    ⟨(h.cargo o ho).packetNumber, fun _ => (h.marked o ho).1⟩

theorem of_bind {f : SentPacket → Option SentPacket}
    (hslots : s'.sentPackets = s.sentPackets.map (Option.bind · f))
    (hnext : s.nextPacketNumber ≤ s'.nextPacketNumber)
    (hf : ∀ sent, ∀ o ∈ f sent, Continues sent o) : Follows s s' := by
  apply of_kept hnext
  intro i sent' hholds
  rw [Holds, hslots, getElem?_map, map_eq_some_iff] at hholds
  obtain ⟨slot, hslot, hbind⟩ := hholds
  obtain ⟨sent, rfl, hsent⟩ := bind_eq_some_iff.mp hbind
  exact ⟨sent, hslot, hf sent sent' hsent⟩

theorem of_map {f : SentPacket → SentPacket}
    (hslots : s'.sentPackets = s.sentPackets.map (Option.map f))
    (hnext : s.nextPacketNumber ≤ s'.nextPacketNumber) (hf : ∀ sent, Continues sent (f sent)) :
    Follows s s' := by
  refine of_bind (hslots.trans (Slots.map_eq_bind f s.sentPackets)) hnext fun sent o ho => ?_
  rw [← some.inj ho]
  exact hf sent

theorem of_filter {p : SentPacket → Bool}
    (hslots : s'.sentPackets = s.sentPackets.map (Option.filter p))
    (hnext : s.nextPacketNumber ≤ s'.nextPacketNumber) : Follows s s' := by
  refine of_bind (hslots.trans (Slots.filter_eq_bind p s.sentPackets)) hnext fun sent o ho => ?_
  split at ho
  · rw [← some.inj ho]
    exact .refl sent
  · cases ho

theorem of_enters {slot : Nat} (h : Enters s s' slot sent)
    (hnumber : sent.packetNumber = s.nextPacketNumber) : Follows s s' where
  next := by
    have := h.next
    omega
  origin := by
    intro i sent' hholds
    rw [Holds, h.slots, getElem?_set] at hholds
    have hnext := h.next
    split at hholds
    · split at hholds
      · obtain rfl := some.inj (some.inj hholds)
        exact .inr ⟨h.accepted, hnumber.ge, by omega⟩
      · cases hholds
    · exact .inl ⟨sent', hholds, .refl sent'⟩
  once := by
    intro i j a b ha hb heq hge hbelow
    have hslot : ∀ k o, s'.Holds k o → s.nextPacketNumber ≤ o.packetNumber → k = slot := by
      intro k o hholds hnew
      rw [Holds, h.slots, getElem?_set] at hholds
      split at hholds
      · rename_i hsame
        exact hsame.symm
      · have := hbelow k o hholds
        omega
    rw [hslot i a ha hge, hslot j b hb (heq ▸ hge)]

end Follows

/-! ## The calls -/

theorem detectAckLosses_follows (s : EndpointState P) (pathId : Nat) (largestAcked : Option Nat) :
    Follows s (s.detectAckLosses pathId largestAcked) := by
  unfold detectAckLosses
  split
  · rename_i largest path _
    extract_lets newlyLost
    have hmarked : Follows s (s.markNewlyLost newlyLost) := by
      refine .of_map rfl (le_refl _) fun sent => ?_
      split
      · exact ⟨rfl, id⟩
      · exact .refl sent
    have hcleared : Follows (s.markNewlyLost newlyLost)
        ((s.markNewlyLost newlyLost).clearSpent pathId) :=
      .of_filter rfl (le_refl _)
    exact (hmarked.trans hcleared).trans (.of_slots rfl (le_refl _))
  · exact .refl s

theorem settleRecord_continues (rangeAt : Nat → Option RetainedSendRange) (sent : SentPacket) :
    ∀ o ∈ settleRecord rangeAt sent, Continues sent o := by
  intro o ho
  rw [mem_def] at ho
  unfold settleRecord at ho
  split at ho
  · rw [← some.inj ho]
    exact .refl sent
  split_ifs at ho
  · rw [← some.inj ho]
    exact .refl sent
  · rw [← some.inj ho]
    exact ⟨rfl, id⟩
  · rw [← some.inj ho]
    exact ⟨rfl, id⟩

theorem Follows.of_moves (h : Moves s s') : Follows s s' := by
  cases h with
  | declares h =>
    cases h with
    | same h => exact .of_same h
    | idle h => exact .of_idle h
    | losses pathId largestAcked => exact detectAckLosses_follows s pathId largestAcked
  | fails packetNumber =>
    rcases s.packetSubmissionFailed_leaves packetNumber with heq | ⟨index, sent, new, hleaves⟩
    · rw [heq]
      exact .refl s
    · exact .of_leaves hleaves
  | marks packetNumber =>
    rcases s.markLost_leaves packetNumber with heq | ⟨index, sent, new, hleaves⟩
    · rw [heq]
      exact .refl s
    · exact .of_leaves hleaves
  | ranges buffer limit => exact .of_slots rfl (le_refl _)
  | suspends pathId =>
    unfold suspendPath
    split
    · exact .refl s
    refine .of_map rfl (le_refl _) fun sent => ?_
    split
    · exact ⟨rfl, id⟩
    · exact .refl sent
  | opens =>
    unfold addPathState
    split
    · exact .refl s
    · exact .of_slots rfl (le_refl _)
  | removes pathId =>
    unfold removePathState
    split_ifs
    · exact .refl s
    · exact .refl s
    refine .of_map rfl (le_refl _) fun sent => ?_
    split
    · exact ⟨rfl, id⟩
    · exact .refl sent
  | resizes limit =>
    unfold setTransmissionCapacity
    split_ifs
    · exact .refl s
    refine .of_kept (le_refl _) fun index sent hholds => ⟨sent, ?_, .refl sent⟩
    have hslot := resizeSlots_getElem? s.sentPackets limit index
    rw [show (resizeSlots s.sentPackets limit)[index]? = some (some sent) from hholds] at hslot
    exact join_eq_some_iff.mp hslot.symm
  | retires acknowledged ingressPath =>
    have hwalked : Follows s { s with
        paths := (s.ackScan acknowledged ingressPath).paths
        sentPackets := retireAcked acknowledged s.sentPackets :
          EndpointState P } := .of_filter rfl (le_refl _)
    exact (hwalked.trans (.of_same (raiseReceiveFloor_same _ _))).trans (.of_slots rfl (le_refl _))
  | settles data fins => exact .of_bind rfl (le_refl _) (settleRecord_continues _)

theorem Follows.of_moved (h : Moved s s') : Follows s s' :=
  h.invariant (fun hfollows hmoves => hfollows.trans (.of_moves hmoves)) (.refl s)

/-- Every call keeps the records' numbers and acceptance, except the report that a submission was
blocked. -/
theorem step_follows (s : EndpointState P)
    (h : ∀ packetNumber, op ≠ .packetSubmissionBlocked packetNumber) :
    Follows s (s.step op) := by
  cases hreports : reports op with
  | false =>
    cases s.step_turn hreports with
    | moves hmoved => exact .of_moved hmoved
    | enrols before henrols after =>
      obtain ⟨slot, sent, henters, hnumber, -⟩ := henrols
      have hbefore : Moved s _ := before.lift id fun _ _ => .declares
      exact ((Follows.of_moved hbefore).trans (.of_enters henters hnumber)).trans (.of_moved after)
  | true =>
    cases op with
    | packetSubmissionBlocked packetNumber => exact absurd rfl (h packetNumber)
    | packetSubmissionAccepted packetNumber nowUs =>
      show Follows s (s.packetSubmissionAccepted packetNumber nowUs).1
      cases hfind : s.findSent packetNumber with
      | none =>
        simp only [packetSubmissionAccepted, hfind]
        exact .refl s
      | some found =>
        obtain ⟨new, hrelabels, haccepted, -⟩ := packetSubmissionAccepted_relabels nowUs hfind
        refine .of_set hrelabels.found hrelabels.slots (by rw [hrelabels.number]) fun o ho => ?_
        exact ⟨(hrelabels.cargo o ho).packetNumber, fun _ => some.inj ho ▸ haccepted⟩
    | _ => cases hreports

/-! ## One record for one number -/

/-- The numbers in the ledger are used up and distinct. -/
structure Distinct (s : EndpointState P) : Prop where
  below : ∀ i sent, s.Holds i sent → sent.packetNumber < s.nextPacketNumber
  once : ∀ i j a b, s.Holds i a → s.Holds j b → a.packetNumber = b.packetNumber → i = j

theorem Follows.distinct (h : Follows s s') (hdistinct : Distinct s) : Distinct s' where
  below := h.below hdistinct.below
  once := by
    intro i j a b ha hb heq
    by_cases hnew : s.nextPacketNumber ≤ a.packetNumber
    · exact h.once i j a b ha hb heq hnew hdistinct.below
    -- a number that was used up before belongs to an old record
    rcases h.origin i a ha with ⟨a', ha', hcontinuesA⟩ | ⟨-, hge, -⟩
    · rcases h.origin j b hb with ⟨b', hb', hcontinuesB⟩ | ⟨-, hge, -⟩
      · apply hdistinct.once i j a' b' ha' hb'
        rw [← hcontinuesA.number, ← hcontinuesB.number, heq]
      · omega
    · omega

theorem findSent_of_holds (hholds : s.Holds index sent)
    (hnumber : sent.packetNumber = packetNumber) :
    ∃ found, s.findSent packetNumber = some found := by
  unfold findSent
  cases hfind : s.sentPackets.findIdx? fun slot => slot.any fun sent =>
    sent.packetNumber == packetNumber with
  | none =>
    have := findIdx?_eq_none_iff.mp hfind (some sent) (mem_of_getElem? hholds)
    simp [hnumber] at this
  | some i =>
    obtain ⟨hlt, hmatch, -⟩ := findIdx?_eq_some_iff_getElem.mp hfind
    cases hslot : s.sentPackets[i] with
    | none =>
      rw [hslot] at hmatch
      cases hmatch
    | some found =>
      simp only [getElem?_eq_getElem hlt, hslot]
      exact ⟨_, rfl⟩

/-- Where numbers are distinct, the record looked up is the only one with the number. -/
theorem Distinct.findSent_eq (h : Distinct s)
    (hholds : s.Holds index sent) : s.findSent sent.packetNumber = some (index, sent) := by
  obtain ⟨⟨i, found⟩, hfind⟩ := findSent_of_holds hholds rfl
  obtain ⟨hfound, hnumber⟩ := findSent_spec hfind
  obtain rfl : i = index := h.once i index found sent hfound hholds hnumber
  rw [Holds, hfound] at hholds
  rw [hfind, some.inj (some.inj hholds)]

/-- What a relabelled ledger holds: the new record at its place, and the others. -/
theorem Relabels.holds (h : Relabels s s' index sent new) (hholds : s'.Holds i sent') :
    i = index ∧ new = some sent' ∨ i ≠ index ∧ s.Holds i sent' := by
  rw [Holds, h.slots, getElem?_set] at hholds
  split at hholds
  · rename_i heq
    split at hholds
    · exact .inl ⟨heq.symm, some.inj hholds⟩
    · cases hholds
  · rename_i hne
    exact .inr ⟨Ne.symm hne, hholds⟩

/-- After an acceptance, the record of that number is accepted. -/
theorem accepted_of_packetSubmissionAccepted (h : Distinct s) {nowUs : Nat}
    (hholds : (s.packetSubmissionAccepted packetNumber nowUs).1.Holds i sent)
    (hnumber : sent.packetNumber = packetNumber) : sent.accepted := by
  cases hfind : s.findSent packetNumber with
  | none =>
    simp only [packetSubmissionAccepted, hfind] at hholds
    obtain ⟨found, hfound⟩ := findSent_of_holds hholds hnumber
    rw [hfind] at hfound
    cases hfound
  | some found =>
    obtain ⟨new, hrelabels, haccepted, -⟩ := packetSubmissionAccepted_relabels nowUs hfind
    rcases hrelabels.holds hholds with ⟨-, heq⟩ | ⟨hne, hold⟩
    · rw [← some.inj heq]
      exact haccepted
    have hsame := h.findSent_eq hold
    rw [hnumber, hfind] at hsame
    exact absurd (congrArg Prod.fst (some.inj hsame)).symm hne

/-- A blocked submission only unaccepts the record of its number. -/
theorem packetSubmissionBlocked_origin
    (hholds : (s.packetSubmissionBlocked packetNumber).1.Holds i sent') :
    ∃ sent, s.Holds i sent ∧ sent'.packetNumber = sent.packetNumber ∧
      (sent'.packetNumber ≠ packetNumber → sent' = sent) := by
  cases hfind : s.findSent packetNumber with
  | none =>
    simp only [packetSubmissionBlocked, hfind] at hholds
    exact ⟨sent', hholds, rfl, fun _ => rfl⟩
  | some found =>
    have hrelabels := (packetSubmissionBlocked_relabels hfind).1
    have hnumber := (findSent_spec hfind).2
    rcases hrelabels.holds hholds with ⟨rfl, heq⟩ | ⟨-, hold⟩
    · obtain rfl := some.inj heq
      exact ⟨found.2, hrelabels.found, rfl, fun hne => absurd hnumber hne⟩
    · exact ⟨sent', hold, rfl, fun _ => rfl⟩

theorem packetSubmissionBlocked_next (s : EndpointState P) (packetNumber : Nat) :
    (s.packetSubmissionBlocked packetNumber).1.nextPacketNumber = s.nextPacketNumber := by
  cases hfind : s.findSent packetNumber with
  | none => simp only [packetSubmissionBlocked, hfind]
  | some found => exact (packetSubmissionBlocked_relabels hfind).1.number

theorem packetSubmissionBlocked_distinct (h : Distinct s) (packetNumber : Nat) :
    Distinct (s.packetSubmissionBlocked packetNumber).1 where
  below := by
    intro i sent' hholds
    obtain ⟨sent, hsent, hnumber, -⟩ := packetSubmissionBlocked_origin hholds
    rw [packetSubmissionBlocked_next, hnumber]
    exact h.below i sent hsent
  once := by
    intro i j a b ha hb heq
    obtain ⟨a', ha', hnumberA, -⟩ := packetSubmissionBlocked_origin ha
    obtain ⟨b', hb', hnumberB, -⟩ := packetSubmissionBlocked_origin hb
    exact h.once i j a' b' ha' hb' (by rw [← hnumberA, ← hnumberB, heq])

/-- A packet reads back with its number as soon as it is written. -/
theorem apply_read_back {pkt : Packet} (h : (s.apply op).result = .ok (some pkt)) :
    ∃ header len, ShortHeader.decodeWithExpected pkt.bytes (s.step op).nextPacketNumber =
      .ok (header, len) ∧
      header.packetNumber = s.nextPacketNumber ∧ pkt.header.packetNumber = s.nextPacketNumber := by
  have hleads := apply_leads h
  obtain ⟨dcid, digits, -, hdigits, hheader⟩ := hleads.header
  have hbounds := hdigits.bounds
  have hhalf : 2 ^ 7 ≤ 2 ^ (8 * pkt.header.packetNumberLen - 1) := by
    rw [hheader]
    exact Nat.pow_le_pow_right (by decide) (by simp only; omega)
  obtain ⟨header, hread, hnumber, -⟩ :=
    (read_back_iff hleads (e := s.nextPacketNumber + 1) (by omega)).mpr (by omega)
  rw [(apply_emits h).2]
  obtain ⟨lead, hlead, hread⟩ := bind_eq_ok.mp hread
  refine ⟨header, lead.headerLen, ?_, hnumber, by rw [hheader]⟩
  rw [ShortHeader.decodeWithExpected, hlead, ok_bind, hread, ok_bind]

end EndpointState

end QuicLite

import QuicLite.Endpoint.Records

/-!
# Every packet has a number of its own

A call either returns a packet under the next number, and then the next number is one higher, or it
returns none: over a run the numbers rise (`trace_numbers`). With keys the packet is sealed under
the number that its header has (`Seals`), so that no nonce is used twice.
-/

namespace QuicLite

open List Option Except Nat

namespace EndpointState

variable {P : Nat} {aead : Aead} {protection : EndpointProtection} {s : EndpointState P}
variable {dcid : ConnectionId} {room : Nat} {body : Bytes} {s' : EndpointState P} {op : Op}
variable {expected len : Nat} {plain : Packet} {header : ShortHeader} {s₁ : EndpointState P}

/-! ## One sealed packet -/

/-- The packet holds these frames, sealed under the next number for the peer of a path. -/
structure Seals (aead : Aead) (protection : EndpointProtection) (s : EndpointState P) (pathId : Nat)
    (pkt : Packet) (body : Bytes) : Prop where
  digits : 1 ≤ pkt.header.packetNumberLen ∧ pkt.header.packetNumberLen ≤ 4
  peer : s.peerConnectionIdOnPath pathId = some pkt.header.dcid
  nonzero : pkt.header.dcid.value ≠ 0
  number : pkt.header.packetNumber = s.nextPacketNumber
  wired : Wired pkt.frames body
  bytes : pkt.bytes = sealedPacket aead protection.send pkt.header.dcid pkt.header.dcid
    pkt.header.packetNumberLen
    s.nextPacketNumber body

/-- A number comes back from around itself and from around its successor. -/
theorem reconstructNumber_near {pnLen n : Nat} (hbounds : 1 ≤ pnLen ∧ pnLen ≤ 4) (hn : n < u32Max)
    (hnear : expected = n ∨ expected = n + 1) :
    reconstructNumber pnLen (n % 256 ^ pnLen) expected = .ok n := by
  have hhalf : 2 ^ 7 ≤ 2 ^ (8 * pnLen - 1) := Nat.pow_le_pow_right (by decide) (by omega)
  rw [reconstructNumber_iff hbounds (by omega) (by omega)]
  omega

variable {pathId capacity : Nat} {pkt : Packet}

/-- A fresh packet that is protected, now or right after its number was taken. -/
theorem protectPacketInPlace_seals {t : EndpointState P}
    (hformed : Packet.Formed ⟨flagFixed, dcid, s.nextPacketNumber, len⟩ room plain)
    (hlen : 1 ≤ len ∧ len ≤ 4) (hnumber : s.nextPacketNumber < u32Max)
    (hpeer : t.peerConnectionIdOnPath pathId = s.peerConnectionIdOnPath pathId)
    (hnext : t.nextPacketNumber = s.nextPacketNumber ∨ t.nextPacketNumber = s.nextPacketNumber + 1)
    (h : t.protectPacketInPlace aead protection pathId plain capacity = .ok pkt) :
    ∃ body, Seals aead protection s pathId pkt body := by
  obtain ⟨hheader, ⟨body, hbytes, hwired⟩, -⟩ := hformed
  unfold protectPacketInPlace at h
  rw [hpeer] at h
  cases hdestination : s.peerConnectionIdOnPath pathId with
  | none =>
    rw [hdestination] at h
    cases h
  | some destination =>
  rw [hdestination] at h
  obtain ⟨bytes, hprotect, h⟩ := bind_eq_ok.mp h
  rw [hbytes] at hprotect
  obtain ⟨rfl, hzero, rfl⟩ :=
    protectPacket_ok hlen (reconstructNumber_near hlen hnumber hnext) hprotect
  cases ok.inj h
  refine ⟨body, ?_⟩
  obtain ⟨header, frames, bytes⟩ := plain
  obtain rfl : header = _ := hheader
  exact ⟨hlen, hdestination, hzero, rfl, hwired, rfl⟩

/-- Every sealed packet, whichever call wrote it. -/
theorem Sends.seals (h : Sends (some (aead, protection)) s op pkt) :
    ∃ pathId body, Seals aead protection s pathId pkt body := by
  obtain ⟨dcid, len, pathId, capacity, -, hlen, t, plain, room, hformed, hpeer, hnext, hprotect⟩ :=
    h.written
  exact ⟨pathId, protectPacketInPlace_seals hformed hlen.bounds h.number hpeer hnext hprotect⟩

/-! ## One call -/

/-- The bytes read back with the packet's number. With keys, the body is sealed under that number
and this header. -/
structure Numbered (aead : Aead) (protection : Option EndpointProtection)
    (pkt : Packet) : Prop where
  below : pkt.header.packetNumber < u32Max
  plain : protection = none → ∃ header len,
    ShortHeader.decodeWithExpected pkt.bytes (pkt.header.packetNumber + 1) = .ok (header, len) ∧
      header.packetNumber = pkt.header.packetNumber
  enclosed : ∀ keys ∈ protection, ∃ header len aad body,
    ShortHeader.decodeWithExpectedKeyed pkt.bytes (pkt.header.packetNumber + 1) =
      .ok (header, len) ∧
      header.packetNumber = pkt.header.packetNumber ∧
        canonicalShortHeaderAad header pkt.header.dcid = .ok aad ∧
      Wired pkt.frames body ∧ pkt.bytes.drop len =
        (keys.send.seal aead header.packetNumber aad body).1 ++
          (keys.send.seal aead header.packetNumber aad body).2

/-- A sealed packet is marked, and its header reads back around its number. -/
theorem Seals.read (h : Seals aead protection s pathId pkt body)
    (hread : reconstructNumber pkt.header.packetNumberLen
      (s.nextPacketNumber % 256 ^ pkt.header.packetNumberLen) expected = .ok s.nextPacketNumber) :
    ShortHeader.decodeWithExpectedKeyed pkt.bytes expected =
      .ok (⟨sealedFirst pkt.header.packetNumberLen, pkt.header.dcid, s.nextPacketNumber,
        pkt.header.packetNumberLen⟩,
        1 + pkt.header.dcid.encodedLen + pkt.header.packetNumberLen) := by
  obtain ⟨hflags, hlen⟩ := (ShortHeader.keyedFirstByte_spec h.digits).2.2.2 _ (.inr rfl)
  rw [h.bytes]
  exact ShortHeader.decodeWithExpectedKeyed_cons hflags hlen pkt.header.dcid hread _

theorem Seals.numbered (h : Seals aead protection s pathId pkt body)
    (hnumber : s.nextPacketNumber < u32Max) : Numbered aead (some protection) pkt where
  below := by rw [h.number]; exact hnumber
  plain := fun hnone => by cases hnone
  enclosed := by
    intro keys hkeys
    obtain rfl := some.inj hkeys
    have hread := h.read (reconstructNumber_near h.digits hnumber (.inr rfl))
    have haad := canonicalShortHeaderAad_eq (n := s.nextPacketNumber) h.digits h.nonzero
      pkt.header.dcid
    rw [h.number]
    refine ⟨_, _, _, body, hread, rfl, haad, h.wired, ?_⟩
    have hlead : (sealedFirst pkt.header.packetNumberLen :: (pkt.header.dcid.bytes ++
          BigEndian.toBytes pkt.header.packetNumberLen s.nextPacketNumber)).length =
          1 + pkt.header.dcid.encodedLen + pkt.header.packetNumberLen := by
      simp only [length_cons, length_append, ConnectionId.length_bytes, BigEndian.length_toBytes]
      omega
    rw [h.bytes, sealedPacket, ← append_assoc pkt.header.dcid.bytes, ← cons_append,
      drop_left' hlead]

section

variable (aead : Aead) (protection : Option EndpointProtection) (self : EndpointState P) (op : Op)

def stepWith : EndpointState P := (self.applyWith (protection.map (aead, ·)) op).state

/-- The packets that a call returned, of which there is at most one. -/
def sentWith : List Packet := (self.applyWith (protection.map (aead, ·)) op).packet.toList

end

theorem step_number (s : EndpointState P) (op : Op) :
    s.nextPacketNumber ≤ (s.step op).nextPacketNumber := by
  by_cases hblocked : ∃ packetNumber, op = .packetSubmissionBlocked packetNumber
  · obtain ⟨packetNumber, rfl⟩ := hblocked
    exact (packetSubmissionBlocked_next s packetNumber).ge
  · exact (s.step_follows fun packetNumber h => hblocked ⟨packetNumber, h⟩).next

variable {protection : Option EndpointProtection}

theorem mem_sentWith : pkt ∈ s.sentWith aead protection op ↔
    (s.applyWith (protection.map (aead, ·)) op).packet = some pkt := by
  rw [sentWith, mem_toList]

/-- A packet takes the next number. -/
theorem sentWith_sends (h : pkt ∈ s.sentWith aead protection op) :
    Sends (protection.map (aead, ·)) s op pkt ∧
      (s.stepWith aead protection op).nextPacketNumber = s.nextPacketNumber + 1 := by
  have hnumbers := s.applyWith_numbers (protection.map (aead, ·)) op
  rw [mem_sentWith.mp h] at hnumbers
  exact hnumbers.of_some

/-- A call never takes a number back. -/
theorem stepWith_number (s : EndpointState P) (aead : Aead) (protection : Option EndpointProtection)
    (op : Op) : s.nextPacketNumber ≤ (s.stepWith aead protection op).nextPacketNumber := by
  have hnumbers := s.applyWith_numbers (protection.map (aead, ·)) op
  rw [stepWith]
  generalize (s.applyWith (protection.map (aead, ·)) op).packet = pkt at hnumbers
  generalize (s.applyWith (protection.map (aead, ·)) op).state = s' at hnumbers
  cases hnumbers with
  | quiet same => exact s.step_number same
  | refused next => exact next
  | sent sends next => exact le_of_lt (lt_of_succ_le (le_of_eq next.symm))

theorem sentWith_numbered (h : pkt ∈ s.sentWith aead protection op) :
    pkt.header.packetNumber = s.nextPacketNumber ∧
      (s.stepWith aead protection op).nextPacketNumber = s.nextPacketNumber + 1 ∧
        Numbered aead protection pkt := by
  obtain ⟨hsends, hnext⟩ := sentWith_sends h
  cases protection with
  | none =>
    obtain ⟨header, len, hread, hheader, hnumber⟩ :=
      apply_read_back (packet_eq_some.mp (mem_sentWith.mp h))
    rw [show (s.step op).nextPacketNumber = s.nextPacketNumber + 1 from hnext] at hread
    refine ⟨hnumber, hnext, ⟨?_, fun _ => ⟨header, len, ?_, ?_⟩, fun keys hkeys => by cases hkeys⟩⟩
    · rw [hnumber]
      exact hsends.number
    · rw [hnumber]
      exact hread
    · rw [hnumber]
      exact hheader
  | some protection =>
    obtain ⟨pathId, body, hseals⟩ := hsends.seals
    exact ⟨hseals.number, hnext, hseals.numbered hsends.number⟩

/-! ## Runs

A run also holds bare entries of datagrams. `commit_datagram_transmission` leaves the check of the
number to the layout before it (`LaidOut`); called without one, it takes the last number and the
counter starts over. -/

section

variable (aead : Aead) (protection : Option EndpointProtection) (self : EndpointState P)

/-- One step of a run: a call of the owner, or the entry of a datagram on its own. The node makes
that entry between the layout and the seal; all three together are the owner's call
`Op.sendDatagram`. -/
inductive Call where
  | owner (op : Op)
  | commitDatagramTransmission (pathId size : Nat)

def stepCall : Call → EndpointState P
  | .owner op => self.stepWith aead protection op
  | .commitDatagramTransmission pathId size => (self.commitDatagramTransmission pathId size).1

/-- An entry takes a number, but it returns no packet. -/
def sentByCall : Call → List Packet
  | .owner op => self.sentWith aead protection op
  | .commitDatagramTransmission _ _ => []

/-- An entry is for a datagram of this size whose layout is admitted in the same state. -/
def LaidOut : Call → Prop
  | .owner _ => True
  | .commitDatagramTransmission pathId size => ∃ start data storage priority packet,
      self.datagramSendLayout protection pathId start data storage priority = .ok packet ∧
        size = packet.bytes.length + datagramTagLen protection

end

/-- A laid out step never takes a number back. -/
theorem stepCall_number {call : Call} (h : s.LaidOut protection call) :
    s.nextPacketNumber ≤ (s.stepCall aead protection call).nextPacketNumber := by
  cases call with
  | owner op => exact s.stepWith_number aead protection op
  | commitDatagramTransmission pathId size =>
    obtain ⟨start, data, storage, priority, packet, hlayout, rfl⟩ := h
    have hspec := datagramSendLayout_spec hlayout
    show s.nextPacketNumber ≤ (s.commitDatagramTransmission pathId _).1.nextPacketNumber
    rcases commitDatagramTransmission_cases hspec with ⟨hidle, -⟩ | ⟨slot, path, _, -, -, heq⟩
    · rw [hidle.rest]
    rw [heq, enterDatagram_number (s := s.setPath pathId path) hspec.number]
    exact le_succ _

theorem sentByCall_numbered {call : Call} (h : pkt ∈ s.sentByCall aead protection call) :
    pkt.header.packetNumber = s.nextPacketNumber ∧
      (s.stepCall aead protection call).nextPacketNumber = s.nextPacketNumber + 1 ∧
        Numbered aead protection pkt := by
  cases call with
  | owner op => exact sentWith_numbered h
  | commitDatagramTransmission => cases h

/-- Over a run the numbers rise, from the next one on. The induction carries the counter, which no
step takes back. -/
theorem trace_numbers (aead : Aead) (protection : Option EndpointProtection) (s : EndpointState P)
    (calls : List Call) (hrun : Runs.Along (stepCall aead protection) (LaidOut protection) s
      calls) : (∀ pkt ∈ Runs.trace (stepCall aead protection) (sentByCall aead protection) s calls,
      s.nextPacketNumber ≤ pkt.header.packetNumber ∧ Numbered aead protection pkt) ∧
    (Runs.trace (stepCall aead protection) (sentByCall aead protection) s calls).Pairwise
      fun earlier later => earlier.header.packetNumber < later.header.packetNumber := by
  induction calls generalizing s with
  | nil => exact ⟨fun pkt h => absurd h not_mem_nil, .nil⟩
  | cons call calls ih =>
    obtain ⟨hlater, hpairs⟩ := ih (s.stepCall aead protection call) hrun.2
    have hmono : s.nextPacketNumber ≤ (s.stepCall aead protection call).nextPacketNumber :=
      stepCall_number hrun.1
    refine ⟨fun pkt h => ?_, ?_⟩
    · rcases mem_append.mp h with h | h
      · obtain ⟨hnumber, -, hnumbered⟩ := sentByCall_numbered h
        exact ⟨hnumber.ge, hnumbered⟩
      · exact ⟨le_trans hmono (hlater pkt h).1, (hlater pkt h).2⟩
    refine pairwise_append.mpr ⟨?_, hpairs, fun a ha b hb => ?_⟩
    · -- One step returns one packet at most.
      cases call with
      | commitDatagramTransmission => exact .nil
      | owner op =>
        show (s.sentWith aead protection op).Pairwise _
        unfold sentWith
        cases (s.applyWith (protection.map (aead, ·)) op).packet with
        | none => exact .nil
        | some pkt => exact pairwise_singleton _ _
    obtain ⟨hnumber, hnext, -⟩ := sentByCall_numbered ha
    have hge := (hlater b hb).1
    omega

/-- No number is used twice, and with keys no nonce is. In a run whose bare entries of datagrams are
all laid out, the packets have rising numbers, and each reads back with its own and is sealed under
it. After the last number no call sends anything, and no layout is admitted. -/
theorem sent_numbers (aead : Aead) (protection : Option EndpointProtection) (s : EndpointState P)
    (calls : List Call) (hrun : Runs.Along (stepCall aead protection) (LaidOut protection) s
      calls) :
    let sent := Runs.trace (stepCall aead protection) (sentByCall aead protection) s calls
    let after := Runs.exec (stepCall aead protection) s calls
    (sent.Pairwise fun earlier later => earlier.header.packetNumber < later.header.packetNumber) ∧
    (∀ pkt ∈ sent, Numbered aead protection pkt) ∧
    (∀ keys ∈ protection, (sent.map fun pkt => keys.send.nonce pkt.header.packetNumber).Nodup) ∧
    (u32Max ≤ after.nextPacketNumber → (∀ op, after.sentWith aead protection op = []) ∧
      ∀ pathId start data storage priority pkt,
        after.datagramSendLayout protection pathId start data storage priority ≠ .ok pkt) := by
  intro sent after
  obtain ⟨hall, hpairs⟩ := trace_numbers aead protection s calls hrun
  refine ⟨hpairs, fun pkt h => (hall pkt h).2, fun keys _ => ?_, fun hspent => ⟨fun op => ?_, ?_⟩⟩
  · refine pairwise_map.mpr (hpairs.imp_of_mem fun {a b} ha hb hlt hnonce => ?_)
    have hbelow := (hall a ha).2.below
    have hbelow' := (hall b hb).2.below
    exact Nat.ne_of_lt hlt (keys.send.nonce_injective (by omega) (by omega) hnonce)
  · refine eq_nil_iff_forall_not_mem.mpr fun pkt h => ?_
    obtain ⟨hnumber, -, hnumbered⟩ := sentWith_numbered h
    have hbelow := hnumbered.below
    omega
  · intro pathId start data storage priority pkt hlayout
    have hnumber := (datagramSendLayout_spec hlayout).number
    omega

/-! ## The last numbers -/

/-- A client that has three numbers left, and whose peer takes datagrams. -/
def nearTheEnd : EndpointState 1100 :=
  Runs.exec step freshClient
    [.config (.installConnectionIds clientId serverId), .config (.setPeerDatagramLimit 1100),
     .setInitialPeerBudget 100000 50000 16, .continuePacketNumbersFrom ⟨u32Max - 3, by decide⟩]

def plainKeys : EndpointProtection :=
  ⟨⟨replicate 16 0, replicate 12 0, rfl, rfl⟩,
    ⟨replicate 16 1, replicate 12 1, rfl, rfl⟩⟩

/-- A probe, the entry of a datagram of three bytes, and another probe. -/
def laidOutRun : List Call :=
  [.owner (.encodeProbePacket serverId 64), .commitDatagramTransmission 0 26,
    .owner (.encodeProbePacket serverId 64)]

/-- The entry takes the number between those of the probes. -/
theorem laidOutRun_numbers :
    let sent := Runs.trace (stepCall plainAead (some plainKeys))
      (sentByCall plainAead (some plainKeys)) nearTheEnd laidOutRun
    sent.map (·.header.packetNumber) = [4294967292, 4294967294] ∧
      sent.Pairwise fun earlier later =>
        earlier.header.packetNumber < later.header.packetNumber := by
  intro sent
  have hrun : Runs.Along (stepCall plainAead (some plainKeys)) (LaidOut (some plainKeys)) nearTheEnd
      laidOutRun :=
    ⟨trivial, ⟨100, [1, 2, 3], ⟨200, 0, 0, 1000⟩, .high,
      ⟨⟨flagFixed, serverId, u32Max - 2, 4⟩, [.datagram [1, 2, 3] false],
        [67, 7, 255, 255, 255, 253, 0x30, 1, 2, 3]⟩,
      rfl, rfl⟩, trivial, trivial⟩
  exact ⟨by decide +kernel, (sent_numbers plainAead (some plainKeys) nearTheEnd laidOutRun hrun).1⟩

/-- The same probes around three entries. -/
def bareRun : List Call :=
  [.owner (.encodeProbePacket serverId 64), .commitDatagramTransmission 0 26,
    .commitDatagramTransmission 0 26, .commitDatagramTransmission 0 26,
    .owner (.encodeProbePacket serverId 64)]

/-- Without a layout the third entry takes `u32::MAX`, which no header carries, and the counter
starts over: what is sent then has number zero, and the layout of the third datagram would have been
refused. -/
theorem bareRun_starts_over :
    let sent := Runs.trace (stepCall plainAead (some plainKeys))
      (sentByCall plainAead (some plainKeys)) nearTheEnd bareRun
    sent.map (·.header.packetNumber) = [4294967292, 0] ∧
      (¬sent.Pairwise fun earlier later =>
        earlier.header.packetNumber < later.header.packetNumber) ∧
      ¬Runs.Along (stepCall plainAead (some plainKeys)) (LaidOut (some plainKeys)) nearTheEnd
        bareRun := by
  intro sent
  have hnumbers : sent.map (·.header.packetNumber) = [4294967292, 0] := by decide +kernel
  have hfalls : ¬sent.Pairwise fun earlier later =>
    earlier.header.packetNumber < later.header.packetNumber := by
    rw [← pairwise_map (f := fun pkt : Packet => pkt.header.packetNumber), hnumbers]
    decide
  refine ⟨hnumbers, hfalls, fun hrun => ?_⟩
  exact hfalls (trace_numbers plainAead (some plainKeys) nearTheEnd bareRun hrun).2

end EndpointState

end QuicLite

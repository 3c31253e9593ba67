import QuicLite.Tun.PacketValid

/-!
# Two parsers of one packet

The zero-copy parser checks IPv4 and TCP lengths by hand and leaves all else to the copying one.
`tcpBytes` is what the IP header makes of a packet, on its own; both parsers are compared with it.
-/

namespace QuicLite.Tun.Packet

open List Option

/-- The TCP segment of a packet whose IP header is consistent. -/
def tcpBytes (packet : Bytes) : Option Bytes :=
  if byteAt packet 0 >>> 4 = 4 then
    let ihl := (byteAt packet 0 &&& 0x0f).toNat * 4
    let totalLen := (u16At packet 2).toNat
    if 20 ≤ ihl ∧ ihl ≤ totalLen ∧ totalLen ≤ packet.length ∧ byteAt packet 9 = 6 then
      some (range packet ihl totalLen)
    else none
  else if byteAt packet 0 >>> 4 = 6 then
    let totalLen := 40 + (u16At packet 4).toNat
    if totalLen ≤ packet.length ∧ byteAt packet 6 = 6 then some (range packet 40 totalLen) else none
  else none

/-- The length a TCP header gives itself. -/
def dataOffset (tcp : Bytes) : Nat := (byteAt tcp 12 >>> 4).toNat * 4

/-- A TCP packet has the bytes after a header of at least 20 bytes. -/
def TakesPayload (packet : Bytes) (parsed : TunPacket) : Prop :=
  ∀ fields, parsed = .tcp fields → ∃ tcp, tcpBytes packet = some tcp ∧ 20 ≤ dataOffset tcp ∧
    dataOffset tcp ≤ tcp.length ∧ fields.payload = tcp.drop (dataOffset tcp)

/-- Both parsers read the same, and where it is TCP they read the segment. -/
structure ParsersAgree (packet : Bytes) : Prop where
  same : parseIpPacketOwned packet = parseIpPacket packet
  owned : TakesPayload packet (parseIpPacketOwned packet)
  copied : TakesPayload packet (parseIpPacket packet)

/-- A TCP segment long enough for a header says that its header is shorter. -/
def CutsHeader (packet : Bytes) : Prop :=
  ∃ tcp, tcpBytes packet = some tcp ∧ 20 ≤ tcp.length ∧ dataOffset tcp < 20

section Parsers

variable {packet : Bytes} {tcp : Bytes}

theorem length_range {start stop : Nat} (h : stop ≤ packet.length) :
    (range packet start stop).length = stop - start := by
  rw [range, length_drop, length_take, Nat.min_eq_left h]

theorem range_take_add (start offset stop : Nat) :
    range (packet.take stop) (start + offset) stop = (range packet start stop).drop offset := by
  rw [range, range, take_take, Nat.min_self, drop_drop]

theorem parseUdpPayload_ne_tcp (src dst : IpAddr) (payload : Bytes) (fields : TunTcpPacket) :
    parseUdpPayload src dst payload ≠ .tcp fields := by
  unfold parseUdpPayload
  dsimp only
  split_ifs <;> simp

theorem parseTcpPayload_eq (src dst : IpAddr) (tcp : Bytes) : parseTcpPayload src dst tcp =
    if tcp.length < 20 ∨ tcp.length < dataOffset tcp then .other
    else .tcp (tcpPacket src dst tcp (tcp.drop (dataOffset tcp))) := by
  unfold parseTcpPayload dataOffset
  dsimp only
  split_ifs <;> first | rfl | omega

/-- The zero-copy parser asks for a whole header as well. -/
theorem parseIpv4_tcp (hversion : byteAt packet 0 >>> 4 = 4) (h : tcpBytes packet = some tcp) :
    ∃ src dst, parseIpv4Packet packet = parseTcpPayload src dst tcp ∧ parseIpv4PacketOwned packet =
      if tcp.length < 20 ∨ dataOffset tcp < 20 ∨ tcp.length < dataOffset tcp then .other
      else .tcp (tcpPacket src dst tcp (tcp.drop (dataOffset tcp))) := by
  refine ⟨.v4 (octets 4 (packet.drop 12)), .v4 (octets 4 (packet.drop 16)), ?_⟩
  unfold tcpBytes at h
  unfold parseIpv4Packet parseIpv4PacketOwned
  dsimp only at h ⊢
  generalize (byteAt packet 0 &&& 0x0f).toNat * 4 = ihl at h ⊢
  generalize (u16At packet 2).toNat = totalLen at h ⊢
  split_ifs at h with hchecks
  obtain ⟨hihl, htotal, hwhole, hprotocol⟩ := hchecks
  have hlength : tcp.length = totalLen - ihl := some.inj h ▸ length_range hwhole
  obtain rfl := some.inj h
  simp only [Bool.or_eq_true, decide_eq_true_eq]
  rw [if_neg (by omega), if_neg (by omega), if_neg (by omega), if_pos hprotocol, if_neg (by omega),
    if_neg (by omega), if_neg (by omega), if_pos hprotocol, range_take_add]
  refine ⟨rfl, ?_⟩
  change (if _ then _ else if dataOffset _ < 20 ∨ _ < _ + dataOffset _ then _ else _) = _
  split_ifs <;> first | rfl | omega

theorem parseIpv6_tcp (hversion : byteAt packet 0 >>> 4 = 6) (h : tcpBytes packet = some tcp) :
    ∃ src dst, parseIpv6Packet packet = parseTcpPayload src dst tcp := by
  refine ⟨.v6 (octets 16 (packet.drop 8)), .v6 (octets 16 (packet.drop 24)), ?_⟩
  unfold tcpBytes at h
  rw [if_neg (by rw [hversion]; decide)] at h
  dsimp only at h
  split_ifs at h with hchecks
  obtain rfl := some.inj h
  unfold parseIpv6Packet
  rw [if_neg (by omega), if_neg (by omega), if_pos hchecks.2]

theorem parse_of_some (h : tcpBytes packet = some tcp) :
    ∃ src dst, parseIpPacket packet = parseTcpPayload src dst tcp ∧ (parseIpPacketOwned packet =
      (if tcp.length < 20 ∨ dataOffset tcp < 20 ∨ tcp.length < dataOffset tcp then .other
      else .tcp (tcpPacket src dst tcp (tcp.drop (dataOffset tcp)))) ∨
        parseIpPacketOwned packet = parseIpPacket packet) := by
  have hne : packet ≠ [] := by
    rintro rfl
    simp [tcpBytes, byteAt] at h
  unfold parseIpPacketOwned parseIpPacket
  rw [if_neg hne, if_neg hne]
  by_cases hfour : byteAt packet 0 >>> 4 = 4
  · obtain ⟨src, dst, hcopied, howned⟩ := parseIpv4_tcp hfour h
    rw [if_pos hfour, if_pos hfour]
    exact ⟨src, dst, hcopied, .inl howned⟩
  by_cases hsix : byteAt packet 0 >>> 4 = 6
  · obtain ⟨src, dst, hcopied⟩ := parseIpv6_tcp hsix h
    rw [if_neg hfour, if_neg hfour, if_pos hsix]
    exact ⟨src, dst, hcopied, .inr rfl⟩
  · simp [tcpBytes, hfour, hsix] at h

/-- Without a TCP segment neither parser finds TCP. -/
theorem parse_of_none (h : tcpBytes packet = none) :
    parseIpPacketOwned packet = parseIpPacket packet ∧ ∀ fields,
      parseIpPacket packet ≠ .tcp fields := by
  unfold tcpBytes at h
  unfold parseIpPacketOwned parseIpPacket
  by_cases hne : packet = []
  · simp [hne]
  rw [if_neg hne]
  by_cases hfour : byteAt packet 0 >>> 4 = 4
  · rw [if_pos hfour] at h
    unfold parseIpv4PacketOwned parseIpv4Packet
    dsimp only at h ⊢
    generalize (byteAt packet 0 &&& 0x0f).toNat * 4 = ihl at h ⊢
    generalize (u16At packet 2).toNat = totalLen at h ⊢
    split_ifs at h with hchecks
    simp only [Bool.or_eq_true, decide_eq_true_eq]
    by_cases hprotocol : byteAt packet 9 = 6
    · rw [if_pos hprotocol]
      have hbad : ihl < 20 ∨ totalLen < ihl ∨ packet.length < totalLen := by
        by_contra hgood
        exact hchecks ⟨by omega, by omega, by omega, hprotocol⟩
      split_ifs <;> first | (exfalso; omega) | simp
    · rw [if_neg hprotocol]
      split_ifs <;> simp [parseUdpPayload_ne_tcp]
  · rw [if_neg hfour] at h
    rw [if_neg hfour, if_neg hfour]
    by_cases hsix : byteAt packet 0 >>> 4 = 6
    · rw [if_pos hsix] at h ⊢
      unfold parseIpv6Packet
      dsimp only at h ⊢
      split_ifs <;> simp_all [parseUdpPayload_ne_tcp]
    · simp [hsix]

/-- The parsers agree on every packet whose TCP header is not cut short by its own data offset. -/
theorem parsersAgree_iff (packet : Bytes) : ParsersAgree packet ↔ ¬ CutsHeader packet := by
  cases h : tcpBytes packet with
  | none =>
    obtain ⟨hsame, hother⟩ := parse_of_none h
    have htakes : TakesPayload packet (parseIpPacket packet) :=
      fun fields htcp => absurd htcp (hother fields)
    exact ⟨fun _ ⟨tcp, htcp, _⟩ => (by rw [h] at htcp; cases htcp), fun _ =>
      ⟨hsame, hsame ▸ htakes, htakes⟩⟩
  | some tcp =>
    have hcuts : CutsHeader packet ↔ 20 ≤ tcp.length ∧ dataOffset tcp < 20 := by
      simp [CutsHeader, h]
    obtain ⟨src, dst, hcopied, howned⟩ := parse_of_some h
    have htakes : ∀ parsed : TunPacket,
        (parsed = .other ∨ 20 ≤ dataOffset tcp ∧ dataOffset tcp ≤ tcp.length ∧
        parsed = .tcp (tcpPacket src dst tcp (tcp.drop (dataOffset tcp)))) →
          TakesPayload packet parsed := by
      rintro parsed (rfl | ⟨hheader, hfits, rfl⟩) fields hparsed
      · cases hparsed
      · cases hparsed
        exact ⟨tcp, h, hheader, hfits, rfl⟩
    rw [hcuts]
    constructor
    · rintro ⟨-, -, hpayload⟩ ⟨hlong, hcut⟩
      rw [hcopied, parseTcpPayload_eq, if_neg (by omega)] at hpayload
      obtain ⟨tcp', htcp', hheader, -⟩ := hpayload _ rfl
      obtain rfl := some.inj (h.symm.trans htcp')
      omega
    intro hwhole
    rw [parseTcpPayload_eq] at hcopied
    have hsame : parseIpPacketOwned packet = parseIpPacket packet := by
      rcases howned with howned | howned
      · rw [howned, hcopied]
        split_ifs <;> first | rfl | omega
      · exact howned
    have hpayload : TakesPayload packet (parseIpPacket packet) := by
      apply htakes
      rw [hcopied]
      split_ifs with hshort
      · exact .inl rfl
      · exact .inr ⟨by omega, by omega, rfl⟩
    exact ⟨hsame, hsame ▸ hpayload, hpayload⟩

end Parsers

/-- Forty bytes of TCP over IPv4 with a data offset of zero: the copying parser hands the header out
as payload. -/
def zeroOffset : Bytes := [0x45, 0, 0, 40, 0, 0, 0, 0, 64, 6, 0, 0, 10, 0, 0, 1, 10, 0, 0, 2] ++
    List.replicate 20 0

theorem zeroOffset_parsed_twice : ¬ ∀ packet : Bytes, ParsersAgree packet := by
  intro hall
  have hsame : parseIpPacketOwned zeroOffset = parseIpPacket zeroOffset := (hall zeroOffset).same
  revert hsame
  decide +kernel

end QuicLite.Tun.Packet

import QuicLite.Tun.Packet

/-!
# Synthesised packets are valid

What the builders write is read back by both parsers, the checksums verify, and the frame that is
written in place is the one that is put together from the packet. One builder falls short: it leaves
the UDP checksum over IPv6 zero, which no receiver accepts.
-/

namespace QuicLite.Tun.Packet

open BigEndian List Nat UInt16 OnesComplement

variable {n : Nat} {body : Bytes} {totalLen : Nat} {checksum : UInt16} {e : PacketError}

section Parse

/-! ## Parsing -/

variable {fields : TcpFields} {m : Nat}

theorem offset_roundTrip {q : Nat} (hq : q < 16) : ((UInt8.ofNat q <<< 4) >>> 4).toNat = q := by
  revert q
  decide

theorem drop_addresses (header : Bytes) (src dst : Octets n) (body : Bytes) {k : Nat}
    (hlen : header.length = k) (hm : m = k + n) :
    octets n ((header ++ (src.val ++ dst.val) ++ body).drop k) = src ∧
      octets n ((header ++ (src.val ++ dst.val) ++ body).drop m) = dst := by
  subst hlen hm
  constructor
  · rw [append_assoc, drop_left, append_assoc, octets_append]
  · rw [← drop_drop, append_assoc, drop_left, append_assoc, drop_left' src.property, octets_append]

theorem range_body {header : Bytes} (hlen : header.length = n) (hm : m = n + body.length) :
    range (header ++ body) n m = body := by
  rw [range, take_of_length_le (by rw [length_append]; omega), drop_left' hlen]

section

variable (srcAddr dstAddr : IpAddr)

theorem parseUdpPayload_datagram (srcPort dstPort : UInt16) (payload : Bytes)
    (hsize : 8 + payload.length ≤ u16Max) :
    parseUdpPayload srcAddr dstAddr (udpHeader srcPort dstPort (8 + payload.length) ++ payload) =
      .udp ⟨srcAddr, srcPort, dstAddr, dstPort, payload⟩ := by
  have hheader : (udpHeader srcPort dstPort (8 + payload.length)).length = 8 := rfl
  have hlen : (udpHeader srcPort dstPort (8 + payload.length) ++ payload).length = 8 +
      payload.length := by
    rw [length_append, hheader]
  have hudp : (u16At (udpHeader srcPort dstPort (8 + payload.length) ++ payload) 4).toNat = 8 +
      payload.length := by
    have hfield : u16At (udpHeader srcPort dstPort (8 + payload.length) ++ payload) 4 =
        ofNat (8 + payload.length) :=
      u16_roundTrip _
    rw [hfield, toNat_ofNat', mod_eq_of_lt (by unfold u16Max at hsize; omega)]
  have hsrc : u16At (udpHeader srcPort dstPort (8 + payload.length) ++ payload) 0 = srcPort :=
    u16_roundTrip _
  have hdst : u16At (udpHeader srcPort dstPort (8 + payload.length) ++ payload) 2 = dstPort :=
    u16_roundTrip _
  unfold parseUdpPayload
  rw [if_neg (by omega)]
  rw [hudp, hlen, if_neg (by simp), hsrc, hdst, range_body hheader rfl]

/-- What a parser makes of a segment. -/
def parsedTcp (fields : TcpFields) : TunTcpPacket where
  srcAddr := srcAddr
  srcPort := fields.srcPort
  dstAddr := dstAddr
  dstPort := fields.dstPort
  syn := fields.flags &&& 0x02 != 0
  ack := fields.flags &&& 0x10 != 0
  fin := fields.flags &&& 0x01 != 0
  rst := fields.flags &&& 0x04 != 0
  seq := fields.seq
  ackNum := fields.ack
  payload := fields.payload

theorem tcpPacket_segment (fields : TcpFields) (checksum : UInt16) :
    tcpPacket srcAddr dstAddr (tcpSegment fields checksum) fields.payload =
      parsedTcp srcAddr dstAddr fields := by
  have hsrc : u16At (tcpSegment fields checksum) 0 = fields.srcPort := u16_roundTrip _
  have hdst : u16At (tcpSegment fields checksum) 2 = fields.dstPort := u16_roundTrip _
  have hseq : u32At (tcpSegment fields checksum) 4 = fields.seq := u32_roundTrip _
  have hack : u32At (tcpSegment fields checksum) 8 = fields.ack := u32_roundTrip _
  have hflags : byteAt (tcpSegment fields checksum) 13 = fields.flags := rfl
  rw [tcpPacket, hsrc, hdst, hseq, hack]
  rfl

theorem dataOffset_segment (haligned : fields.options.length % 4 = 0)
    (hheader : fields.headerLen ≤ 60) (checksum : UInt16) :
    (byteAt (tcpSegment fields checksum) 12 >>> 4).toNat * 4 = fields.headerLen := by
  have hbyte : byteAt (tcpSegment fields checksum) 12 = UInt8.ofNat (fields.headerLen / 4) <<< 4 :=
    rfl
  unfold TcpFields.headerLen at hbyte hheader ⊢
  rw [hbyte, offset_roundTrip (by omega)]
  omega

theorem drop_segment (fields : TcpFields) (checksum : UInt16) :
    (tcpSegment fields checksum).drop fields.headerLen = fields.payload := by
  have hlen : (tcpHeader fields checksum ++ fields.options).length = fields.headerLen := by
    rw [length_append]
    rfl
  rw [tcpSegment, ← append_assoc, drop_left' hlen]

theorem parseTcpPayload_segment
    (haligned : fields.options.length % 4 = 0) (hheader : fields.headerLen ≤ 60)
    (checksum : UInt16) : parseTcpPayload srcAddr dstAddr (tcpSegment fields checksum) =
      .tcp (parsedTcp srcAddr dstAddr fields) := by
  have hlen := length_tcpSegment fields checksum
  have hmin : 20 ≤ fields.headerLen := le_add_right 20 _
  unfold parseTcpPayload
  rw [if_neg (by omega)]
  rw [dataOffset_segment haligned hheader, if_neg (by omega), drop_segment, tcpPacket_segment]

end

variable {packet : Bytes} (protocol : UInt8)

section

variable {totalLen : Nat} (checksum : UInt16) (src dst : Ipv4Addr) {body : Bytes}
  (hpacket : packet = ipv4Header totalLen protocol checksum src dst ++ body)
  (hlen : totalLen = 20 + body.length) (hsize : totalLen ≤ u16Max)
include hpacket hlen hsize

/-- What the parsers look at in an IPv4 packet. -/
theorem ipv4Packet_fields :
    packet.length = totalLen ∧ byteAt packet 0 = 0x45 ∧ (u16At packet 2).toNat = totalLen ∧
      byteAt packet 9 = protocol ∧
      octets 4 (packet.drop 12) = src ∧ octets 4 (packet.drop 16) = dst ∧
        range packet 20 totalLen = body := by
  subst hpacket
  have hheader := length_ipv4Header totalLen protocol checksum src dst
  have hfield : u16At (ipv4Header totalLen protocol checksum src dst ++ body) 2 = ofNat totalLen :=
    u16_roundTrip _
  obtain ⟨hsrc, hdst⟩ : octets 4 ((ipv4Header totalLen protocol checksum src dst ++ body).drop 12) =
      src ∧
      octets 4 ((ipv4Header totalLen protocol checksum src dst ++ body).drop 16) = dst :=
    drop_addresses ([0x45, 0] ++ u16ToBeBytes (.ofNat totalLen) ++ [0, 0, 0, 0, 64, protocol] ++
      u16ToBeBytes checksum) src dst body rfl rfl
  refine ⟨?_, rfl, ?_, rfl, hsrc, hdst, range_body hheader hlen⟩
  · rw [length_append, hheader, hlen]
  · rw [hfield, toNat_ofNat', mod_eq_of_lt (by unfold u16Max at hsize; omega)]

theorem parseIpv4Packet_packet :
    parseIpv4Packet packet = if protocol = 6 then parseTcpPayload (.v4 src) (.v4 dst) body
      else if protocol = 17 then parseUdpPayload (.v4 src) (.v4 dst) body
      else .other := by
  obtain ⟨hwhole, hfirst, htotal, hprotocol, hsrc, hdst, hbody⟩ :=
    ipv4Packet_fields protocol checksum src dst hpacket hlen hsize
  have hihl : ((0x45 : UInt8) &&& 0x0f).toNat * 4 = 20 := rfl
  unfold parseIpv4Packet
  rw [if_neg (by omega)]
  dsimp only
  rw [hfirst, hihl, htotal, hprotocol, hsrc, hdst, hbody, if_neg (by simp; omega),
    if_neg (by simp; omega)]

end

theorem parseIpv6Packet_packet {payloadLen : Nat} (src dst : Ipv6Addr) (body : Bytes)
    (hlen : payloadLen = body.length) (hsize : payloadLen ≤ u16Max) :
    parseIpv6Packet (ipv6Header payloadLen protocol src dst ++ body) =
      if protocol = 6 then parseTcpPayload (.v6 src) (.v6 dst) body
      else if protocol = 17 then parseUdpPayload (.v6 src) (.v6 dst) body
      else .other := by
  have hheader := length_ipv6Header payloadLen protocol src dst
  have hpacket : (ipv6Header payloadLen protocol src dst ++ body).length = 40 + payloadLen := by
    rw [length_append, hheader, hlen]
  have hpayload : (u16At (ipv6Header payloadLen protocol src dst ++ body) 4).toNat =
      payloadLen := by
    have hfield : u16At (ipv6Header payloadLen protocol src dst ++ body) 4 = ofNat payloadLen :=
      u16_roundTrip _
    rw [hfield, toNat_ofNat', mod_eq_of_lt (by unfold u16Max at hsize; omega)]
  have hprotocol : byteAt (ipv6Header payloadLen protocol src dst ++ body) 6 = protocol := rfl
  obtain ⟨hsrc, hdst⟩ : octets 16 ((ipv6Header payloadLen protocol src dst ++ body).drop 8) = src ∧
      octets 16 ((ipv6Header payloadLen protocol src dst ++ body).drop 24) = dst :=
    drop_addresses ([0x60, 0, 0, 0] ++ u16ToBeBytes (.ofNat payloadLen) ++ [protocol, 64]) src dst
      body rfl rfl
  unfold parseIpv6Packet
  rw [if_neg (by omega)]
  dsimp only
  rw [hpayload, hpacket, hprotocol, hsrc, hdst, range_body hheader (by omega), if_neg (lt_irrefl _)]

section

variable (totalLen : Nat) (protocol : UInt8) (checksum : UInt16) (src dst : Ipv4Addr) (body : Bytes)

theorem ipv4Header_ne_nil :
    ipv4Header totalLen protocol checksum src dst ++ body ≠ [] := cons_ne_nil _ _

theorem ipv4Header_version :
    byteAt (ipv4Header totalLen protocol checksum src dst ++ body) 0 >>> 4 = 4 := by
  have hfirst : byteAt (ipv4Header totalLen protocol checksum src dst ++ body) 0 = 0x45 := rfl
  rw [hfirst]
  rfl

end

theorem ipv6Header_ne_nil (payloadLen : Nat) (protocol : UInt8) (src dst : Ipv6Addr)
    (body : Bytes) : ipv6Header payloadLen protocol src dst ++ body ≠ [] := cons_ne_nil _ _

theorem ipv6Header_version (payloadLen : Nat) (protocol : UInt8) (src dst : Ipv6Addr)
    (body : Bytes) :
    byteAt (ipv6Header payloadLen protocol src dst ++ body) 0 >>> 4 = 6 := by
  have hfirst : byteAt (ipv6Header payloadLen protocol src dst ++ body) 0 = 0x60 := rfl
  rw [hfirst]
  rfl

/-- The version is the first half byte. -/
theorem parseIpPacket_ipv4 (hne : packet ≠ []) (hversion : byteAt packet 0 >>> 4 = 4) :
    parseIpPacket packet = parseIpv4Packet packet ∧
      parseIpPacketOwned packet = parseIpv4PacketOwned packet := by
  constructor
  · rw [parseIpPacket, if_neg hne, if_pos hversion]
  · rw [parseIpPacketOwned, if_neg hne, if_pos hversion]

theorem parseIpPacket_ipv6 (hne : packet ≠ []) (hversion : byteAt packet 0 >>> 4 = 6) :
    parseIpPacket packet = parseIpv6Packet packet ∧
      parseIpPacketOwned packet = parseIpv6Packet packet := by
  have hother : byteAt packet 0 >>> 4 ≠ 4 := by
    rw [hversion]
    decide
  have hborrowed : parseIpPacket packet = parseIpv6Packet packet := by
    rw [parseIpPacket, if_neg hne, if_neg hother, if_pos hversion]
  refine ⟨hborrowed, ?_⟩
  rw [parseIpPacketOwned, if_neg hne, if_neg hother, hborrowed]

/-- TCP in a buffer of its own reads the same. -/
theorem parseIpv4PacketOwned_segment (headerSum : UInt16) (src dst : Ipv4Addr)
    (hpacket : packet = ipv4Header totalLen 6 headerSum src dst ++ tcpSegment fields checksum)
    (haligned : fields.options.length % 4 = 0) (hheader : fields.headerLen ≤ 60)
    (hlen : totalLen = 20 + (fields.headerLen + fields.payload.length))
    (hsize : totalLen ≤ u16Max) :
    parseIpv4PacketOwned packet = .tcp (parsedTcp (.v4 src) (.v4 dst) fields) := by
  have hsegment := length_tcpSegment fields checksum
  obtain ⟨hwhole, hfirst, htotal, hprotocol, hsrc, hdst, hbody⟩ :=
    ipv4Packet_fields 6 headerSum src dst hpacket (by omega) hsize
  have hihl : ((0x45 : UInt8) &&& 0x0f).toNat * 4 = 20 := rfl
  have hmin : 20 ≤ fields.headerLen := le_add_right 20 _
  have hpayload : range (packet.take totalLen) (20 + fields.headerLen) totalLen =
      fields.payload := by
    rw [range, take_of_length_le (by omega : packet.length ≤ totalLen),
      take_of_length_le (by omega : packet.length ≤ totalLen), ← drop_drop, hpacket,
      drop_header (length_ipv4Header _ _ _ _ _), drop_segment]
  unfold parseIpv4PacketOwned
  rw [if_neg (by omega)]
  dsimp only
  rw [hfirst, hihl, htotal, hprotocol, hsrc, hdst, hbody, if_neg (by simp; omega),
    if_neg (by simp; omega), if_pos rfl, if_neg (by omega), dataOffset_segment haligned hheader,
    if_neg (by simp; omega), hpayload, tcpPacket_segment]

/-- The other protocols go the common way. -/
theorem parseIpv4PacketOwned_of_not_tcp (h : byteAt packet 9 ≠ 6) :
    parseIpv4PacketOwned packet = parseIpv4Packet packet := by
  unfold parseIpv4PacketOwned
  dsimp only
  split
  · next hshort => rw [parseIpv4Packet, if_pos hshort]
  next hshort =>
    split
    · next hihl => rw [parseIpv4Packet, if_neg hshort, if_pos hihl]
    next hihl =>
      split
      · next htotal =>
          rw [parseIpv4Packet, if_neg hshort]
          rw [if_neg hihl, if_pos htotal]
      · rfl

end Parse

/-! ## Frames -/

section Frames

variable {src dst : Ipv4Addr} {fields : TcpFields} {srcMac dstMac : Mac}

def ethernetHeader (srcMac dstMac : Mac) (ethertype : UInt16) : Bytes :=
  dstMac.val ++ srcMac.val ++ u16ToBeBytes ethertype

theorem length_ethernetHeader (srcMac dstMac : Mac) (ethertype : UInt16) :
    (ethernetHeader srcMac dstMac ethertype).length = 14 := by
  simp [ethernetHeader, srcMac.property, dstMac.property]

/-- The frame around a packet, padded to its least length. -/
def frameOf (srcMac dstMac : Mac) (minLen : Nat) (packet : Bytes) : Bytes :=
  ethernetHeader srcMac dstMac 0x0800 ++
    (packet ++ List.replicate (minLen - (14 + packet.length)) 0)

theorem ipToEthernetFrameInto_ipv4 (frame : Bytes) {packet : Bytes} (hne : packet ≠ [])
    (hversion : byteAt packet 0 >>> 4 = 4) (srcMac dstMac : Mac) (minLen : Nat) :
    ipToEthernetFrameInto frame packet srcMac dstMac minLen =
      (.ok (), frameOf srcMac dstMac minLen packet) := by
  have hlen : (dstMac.val ++ srcMac.val ++ u16ToBeBytes 0x0800 ++ packet).length = 14 +
      packet.length := by
    rw [length_append]
    exact congrArg (· + packet.length) (length_ethernetHeader srcMac dstMac 0x0800)
  rw [ipToEthernetFrameInto, if_neg hne]
  dsimp only
  rw [if_pos hversion, hlen]
  split
  · rw [frameOf, ethernetHeader, append_assoc _ packet]
  next hlong =>
    have hpad : minLen - (14 + packet.length) = 0 := by omega
    rw [frameOf, hpad, replicate_zero, append_nil, ethernetHeader]

/-- The zeroed frame with the Ethernet header written into it. -/
theorem write_ethernetHeader (srcMac dstMac : Mac) (tail : Bytes) :
    copyFromSlice (copyFromSlice (copyFromSlice (replicate 14 0 ++ tail) 0 dstMac.val) 6 srcMac.val)
      12
      (u16ToBeBytes 0x0800) = ethernetHeader srcMac dstMac 0x0800 ++ tail := by
  have hzero : replicate 14 (0 : UInt8) ++ tail =
      [] ++ (.replicate 6 0 ++ (.replicate 6 0 ++ (.replicate 2 0 ++ tail))) := rfl
  rw [hzero, copyFromSlice_append (length_nil : ([] : Bytes).length = 0)
    (by simp [dstMac.property]), nil_append,
    copyFromSlice_append dstMac.property (by simp [srcMac.property]), ← append_assoc,
    copyFromSlice_append (by simp [dstMac.property, srcMac.property]) (by simp), ← append_assoc]
  rfl

theorem buildEthernet_error {frame : Bytes} {minLen : Nat} (hlen : fields.segmentLen = .error e) :
    buildEthernetIpv4TcpFrameWithOptionsInto frame srcMac dstMac minLen src dst fields =
      (.error e, frame) := by
  unfold buildEthernetIpv4TcpFrameWithOptionsInto
  rw [hlen]

/-- Whatever the scratch buffer held, the frame is that of the packet. -/
theorem buildEthernet_eq (frame : Bytes) (minLen : Nat) {tcpLen : Nat}
    (hlen : fields.segmentLen = .ok tcpLen) :
    buildEthernetIpv4TcpFrameWithOptionsInto frame srcMac dstMac minLen src dst fields =
      if 20 + tcpLen > u16Max then (.error (.ipv4PacketTooLarge (20 + tcpLen)), frame)
      else (.ok (), frameOf srcMac dstMac minLen (segmentPacket src dst fields tcpLen)) := by
  obtain ⟨-, -, hsum⟩ := segmentLen_eq_ok hlen
  unfold buildEthernetIpv4TcpFrameWithOptionsInto
  rw [hlen]
  dsimp only
  split
  · rfl
  next hsize =>
    have heth := length_ethernetHeader srcMac dstMac 0x0800
    have hheader := length_ipv4Header (20 + tcpLen) 6
      (headerChecksum (20 + tcpLen) 6 src dst) src dst
    have hsegment := length_tcpSegment fields (segmentChecksum src.val dst.val fields)
    have htcp : writeTcp (.replicate tcpLen 0) fields = tcpSegment fields 0 :=
      hsum ▸ writeTcp_eq fields
    -- The zeroed frame falls into the Ethernet header, the packet and the padding.
    have hzero : replicate (max minLen (14 + (20 + tcpLen))) (0 : UInt8) =
        replicate 14 0 ++ (.replicate (20 + tcpLen) 0 ++
          replicate (minLen - (14 + (20 + tcpLen))) 0) := by
      rw [replicate_append_replicate, replicate_append_replicate]
      congr 1
      omega
    have hupto : (ethernetHeader srcMac dstMac 0x0800 ++ replicate (20 + tcpLen) 0).length = 14 +
        (20 + tcpLen) := by
      rw [length_append, heth, length_replicate]
    have hpacket : range (ethernetHeader srcMac dstMac 0x0800 ++ (.replicate (20 + tcpLen) 0 ++
        replicate (minLen - (14 + (20 + tcpLen))) 0)) 14 (14 + (20 + tcpLen)) =
          replicate (20 + tcpLen) 0 := by
      rw [range, ← append_assoc, take_left' hupto, drop_left' heth]
    have hpadding : (ethernetHeader srcMac dstMac 0x0800 ++ (replicate (20 + tcpLen) 0 ++
        replicate (minLen - (14 + (20 + tcpLen))) 0)).drop (14 + (20 + tcpLen)) =
          replicate (minLen - (14 + (20 + tcpLen))) 0 := by
      rw [← append_assoc, drop_left' hupto]
    rw [hzero, write_ethernetHeader, hpacket, writeIpv4Header_zero,
      range_body hheader (by rw [length_replicate]), htcp, ipv4TcpChecksum,
      tcpChecksum_segment (by omega), hpadding]
    dsimp only
    rw [take_header heth, take_header hheader, drop_of_length_le (by simp [hheader]),
      append_nil, frameOf, length_append, hheader, hsegment, ← hsum]
    exact congrArg _ (append_assoc _ _ _)

/-- Taking the packet out of its frame removes the padding. -/
theorem ethernetPayloadToIp_frameOf (checksum : UInt16) {packet : Bytes} (minLen : Nat)
    (hpacket : packet = ipv4Header totalLen 6 checksum src dst ++ body)
    (hlen : totalLen = 20 + body.length) (hsize : totalLen ≤ u16Max) :
    ethernetPayloadToIp (frameOf srcMac dstMac minLen packet) = some (packet, srcMac) := by
  have heth := length_ethernetHeader srcMac dstMac 0x0800
  have hwhole : packet.length = totalLen := by
    rw [hpacket, length_append, length_ipv4Header, hlen]
  have hframe : ¬ (frameOf srcMac dstMac minLen packet).length < 14 := by
    rw [frameOf, length_append]
    omega
  have hmac : octets 6 ((frameOf srcMac dstMac minLen packet).drop 6) = srcMac := by
    rw [frameOf, ethernetHeader, append_assoc, append_assoc, drop_left' dstMac.property,
      octets_append]
  have htype : u16At (frameOf srcMac dstMac minLen packet) 12 = 0x0800 := by
    have haddresses : (dstMac.val ++ srcMac.val).length = 12 := by
      simp [dstMac.property, srcMac.property]
    rw [frameOf, ethernetHeader, u16At, range, append_assoc (dstMac.val ++ srcMac.val),
      ← append_assoc (dstMac.val ++ srcMac.val),
      take_left' (by rw [length_append, haddresses]; rfl), drop_left' haddresses, u16_roundTrip]
  have hdrop : (frameOf srcMac dstMac minLen packet).drop 14 = packet ++
      replicate (minLen - (14 + packet.length)) 0 := by
    rw [frameOf, drop_left' heth]
  have hpayload : packet ++ replicate (minLen - (14 + packet.length)) 0 =
      ipv4Header totalLen 6 checksum src dst ++
      (body ++ replicate (minLen - (14 + packet.length)) 0) := by
    rw [hpacket, append_assoc]
  have htotal : (u16At (packet ++ replicate (minLen - (14 + packet.length)) 0) 2).toNat =
      totalLen := by
    have hfield : u16At (ipv4Header totalLen 6 checksum src dst ++
        (body ++ replicate (minLen - (14 + packet.length)) 0)) 2 = ofNat totalLen := u16_roundTrip _
    rw [hpayload, hfield, toNat_ofNat', mod_eq_of_lt (by unfold u16Max at hsize; omega)]
  have hihl : ipv4HeaderLen (packet ++ replicate (minLen - (14 + packet.length)) 0) = some 20 := by
    have hfirst : byteAt (packet ++ replicate (minLen - (14 + packet.length)) 0) 0 = 0x45 := by
      rw [hpayload]
      rfl
    have hversion : ((0x45 : UInt8) >>> 4 != 4) = false := rfl
    have hlow : ((0x45 : UInt8) &&& 0x0f).toNat * 4 = 20 := rfl
    rw [ipv4HeaderLen, hfirst, hversion]
    rw [hlow, if_neg (by simp; omega), if_pos (by simp; omega)]
  unfold ethernetPayloadToIp
  rw [if_neg hframe]
  dsimp only
  rw [htype, if_pos rfl, hdrop, hihl, hmac, Option.map_some, htotal, if_pos (by simp; omega),
    take_left' hwhole]

end Frames

/-! ## The result -/

/-- What may be built. -/
inductive Build where
  | ipv4Udp (src : Ipv4Addr) (srcPort : UInt16) (dst : Ipv4Addr) (dstPort : UInt16)
      (payload : Bytes)
  | ipv6Udp (src : Ipv6Addr) (srcPort : UInt16) (dst : Ipv6Addr) (dstPort : UInt16)
      (payload : Bytes)
  | ipv4Tcp (src dst : Ipv4Addr) (fields : TcpFields)
  | ipv6Tcp (src dst : Ipv6Addr) (fields : TcpFields)

def Build.packet : Build → Except PacketError Bytes
  | .ipv4Udp src srcPort dst dstPort payload => buildIpv4UdpPacket src srcPort dst dstPort payload
  | .ipv6Udp src srcPort dst dstPort payload => buildIpv6UdpPacket src srcPort dst dstPort payload
  | .ipv4Tcp src dst fields => buildIpv4TcpPacketWithOptions src dst fields
  | .ipv6Tcp src dst fields => buildIpv6TcpPacketWithOptions src dst fields

/-- What the guest should read. -/
def Build.parsed : Build → TunPacket
  | .ipv4Udp src srcPort dst dstPort payload => .udp ⟨.v4 src, srcPort, .v4 dst, dstPort, payload⟩
  | .ipv6Udp src srcPort dst dstPort payload => .udp ⟨.v6 src, srcPort, .v6 dst, dstPort, payload⟩
  | .ipv4Tcp src dst fields => .tcp (parsedTcp (.v4 src) (.v4 dst) fields)
  | .ipv6Tcp src dst fields => .tcp (parsedTcp (.v6 src) (.v6 dst) fields)

/-- The checksum over the pseudo-header and the datagram recomputes to zero. -/
def UdpVerifies (src dst udp : Bytes) : Prop :=
  finishChecksum (addChecksumBytes (pseudoHeaderSum src dst 17 udp.length) udp) = 0

/-- A receiver accepts the packet's checksums. Over IPv4 a zero UDP checksum means that there is
none; over IPv6 it is refused. -/
def Build.Accepted (packet : Bytes) : Build → Prop
  | .ipv4Udp src _ dst _ _ =>
    internetChecksum (packet.take 20) = 0 ∧
      (u16At (packet.drop 20) 6 = 0 ∨ UdpVerifies src.val dst.val (packet.drop 20))
  | .ipv6Udp src _ dst _ _ =>
    u16At (packet.drop 40) 6 ≠ 0 ∧ UdpVerifies src.val dst.val (packet.drop 40)
  | .ipv4Tcp src dst _ =>
    internetChecksum (packet.take 20) = 0 ∧ ipv4TcpChecksum src dst (packet.drop 20) = .ok 0
  | .ipv6Tcp src dst _ => ipv6TcpChecksum src dst (packet.drop 40) = .ok 0

/-- Every sum on the way to a checksum fits 32 bits: over an IPv4 header, and over any segment that
is not refused. -/
structure SumsFit : Prop where
  header : ∀ (header : Bytes) (n : Nat), header.length ≤ 60 →
    addChecksumBytes 0 (header.take n) ≤ 2 ^ 32 - 1
  ipv4 : ∀ (src dst : Ipv4Addr) (segment : Bytes) (checksum : UInt16) (n : Nat),
    ipv4TcpChecksum src dst segment = .ok checksum →
      addChecksumBytes (pseudoHeaderSum src.val dst.val 6 segment.length) (segment.take n) ≤
        2 ^ 32 - 1
  ipv6 : ∀ (src dst : Ipv6Addr) (segment : Bytes) (checksum : UInt16) (n : Nat),
    ipv6TcpChecksum src dst segment = .ok checksum →
      addChecksumBytes (pseudoHeaderSum src.val dst.val 6 segment.length) (segment.take n) ≤
        2 ^ 32 - 1

/-- The frame written in place is the frame made from the packet, whatever both buffers held; it
fails as the packet fails; and the packet and the sender can be taken out of it. -/
structure FramesAgree (src dst : Ipv4Addr) (fields : TcpFields) : Prop where
  same : ∀ (frame other packet : Bytes) (srcMac dstMac : Mac) (minLen : Nat),
    buildIpv4TcpPacketWithOptions src dst fields = .ok packet →
      buildEthernetIpv4TcpFrameWithOptionsInto frame srcMac dstMac minLen src dst fields =
        ipToEthernetFrameInto other packet srcMac dstMac minLen ∧
      (ipToEthernetFrameInto other packet srcMac dstMac minLen).1 = .ok ()
  fails : ∀ (frame : Bytes) (srcMac dstMac : Mac) (minLen : Nat) (e : PacketError),
    (buildEthernetIpv4TcpFrameWithOptionsInto frame srcMac dstMac minLen src dst fields).1 =
      .error e ↔
      buildIpv4TcpPacketWithOptions src dst fields = .error e
  back : ∀ (frame packet : Bytes) (srcMac dstMac : Mac) (minLen : Nat),
    buildIpv4TcpPacketWithOptions src dst fields = .ok packet →
      ethernetPayloadToIp (buildEthernetIpv4TcpFrameWithOptionsInto frame srcMac dstMac minLen src
        dst fields).2 =
        some (packet, srcMac)

/-- What is built is valid and parses back. -/
structure Build.Valid (build : Build) : Prop where
  parses : ∀ packet, build.packet = .ok packet →
    parseIpPacket packet = build.parsed ∧ parseIpPacketOwned packet = build.parsed
  accepted : ∀ packet, build.packet = .ok packet → build.Accepted packet
  sums : SumsFit
  frames : ∀ src dst fields, build = .ipv4Tcp src dst fields → FramesAgree src dst fields

/-- A UDP datagram over IPv6, not too long for its length field. -/
def Build.IsIpv6Udp : Build → Prop
  | .ipv6Udp _ _ _ _ payload => 8 + payload.length ≤ u16Max
  | _ => False

section Result

variable {src dst : Ipv4Addr} {fields : TcpFields}

theorem internetChecksum_ipv4Header (totalLen : Nat) (protocol : UInt8) (src dst : Ipv4Addr) :
    internetChecksum (ipv4Header totalLen protocol (headerChecksum totalLen protocol src dst) src
      dst) = 0 := by
  rw [internetChecksum, addChecksumBytes_eq, sum_ipv4Header, headerChecksum, internetChecksum,
    addChecksumBytes_eq, ← add_assoc, finishChecksum_verifies]

theorem tcpChecksum_checksummed {src dst : Bytes}
    (hlen : fields.headerLen + fields.payload.length ≤ u16Max) :
    tcpChecksum src dst (tcpSegment fields (segmentChecksum src dst fields)) = .ok 0 := by
  have hsame : (tcpSegment fields (segmentChecksum src dst fields)).length =
      (tcpSegment fields 0).length := by
    rw [length_tcpSegment, length_tcpSegment]
  rw [tcpChecksum, if_neg (by rw [length_tcpSegment]; omega), addChecksumBytes_eq, sum_tcpSegment,
    hsame, ← add_assoc, segmentChecksum, addChecksumBytes_eq, finishChecksum_verifies]

theorem addChecksumBytes_take_le (s : Nat) (bytes : Bytes) (n : Nat) :
    addChecksumBytes s (bytes.take n) ≤ s + 65535 * ((bytes.length + 1) / 2) := by
  rw [addChecksumBytes_eq]
  have htake := sum_take_le bytes n
  have hsum := sum_le bytes
  omega

theorem pseudoHeaderSum_le (src dst : Octets n) (len : Nat) :
    pseudoHeaderSum src.val dst.val 6 len ≤ 65535 * (n + 1) + 6 + len := by
  rw [pseudoHeaderSum, addChecksumBytes_eq, addChecksumBytes_eq]
  have hsrc := sum_le src.val
  have hdst := sum_le dst.val
  omega

theorem tcpSums_le {src dst : Octets n} {segment : Bytes} (hn : n ≤ 16)
    (h : tcpChecksum src.val dst.val segment = .ok checksum) (k : Nat) :
    addChecksumBytes (pseudoHeaderSum src.val dst.val 6 segment.length)
    (segment.take k) ≤ 2 ^ 32 - 1 := by
  have hlen : segment.length ≤ u16Max := by
    by_contra hlong
    rw [tcpChecksum, if_pos (by omega)] at h
    cases h
  have hsum := addChecksumBytes_take_le (pseudoHeaderSum src.val dst.val 6 segment.length) segment k
  have hpseudo := pseudoHeaderSum_le src dst segment.length
  unfold u16Max at hlen
  omega

theorem sumsFit : SumsFit where
  header := by
    intro header n hlen
    have hsum := addChecksumBytes_take_le 0 header n
    omega
  ipv4 := fun _ _ _ _ n h => tcpSums_le (by omega) h n
  ipv6 := fun _ _ _ _ n h => tcpSums_le (by omega) h n

theorem framesAgree_of_error (hbuild : buildIpv4TcpPacketWithOptions src dst fields = .error e)
    (hframe : ∀ frame srcMac dstMac minLen,
      (buildEthernetIpv4TcpFrameWithOptionsInto frame srcMac dstMac minLen src dst fields).1 =
        .error e) : FramesAgree src dst fields where
  same := by
    intro frame other packet srcMac dstMac minLen hpacket
    rw [hbuild] at hpacket
    cases hpacket
  fails := by
    intro frame srcMac dstMac minLen e'
    rw [hbuild, hframe]
    constructor
    · rintro ⟨⟩
      rfl
    · rintro ⟨⟩
      rfl
  back := by
    intro frame packet srcMac dstMac minLen hpacket
    rw [hbuild] at hpacket
    cases hpacket

theorem framesAgree (src dst : Ipv4Addr) (fields : TcpFields) : FramesAgree src dst fields := by
  cases hlen : fields.segmentLen with
  | error e =>
    refine framesAgree_of_error
      (buildIpv4TcpPacketWithOptions_error hlen) fun frame srcMac dstMac minLen => ?_
    rw [buildEthernet_error hlen]
  | ok tcpLen =>
  by_cases hsize : 20 + tcpLen > u16Max
  · refine framesAgree_of_error ((buildIpv4TcpPacketWithOptions_eq hlen).trans (if_pos hsize))
      fun frame srcMac dstMac minLen => ?_
    rw [buildEthernet_eq frame minLen hlen, if_pos hsize]
  have hbuild : buildIpv4TcpPacketWithOptions src dst fields =
      .ok (segmentPacket src dst fields tcpLen) := (buildIpv4TcpPacketWithOptions_eq hlen).trans
        (if_neg hsize)
  have hframe : ∀ frame srcMac dstMac minLen,
      buildEthernetIpv4TcpFrameWithOptionsInto frame srcMac dstMac minLen src dst fields =
        (.ok (), frameOf srcMac dstMac minLen (segmentPacket src dst fields tcpLen)) :=
    fun frame srcMac dstMac minLen => (buildEthernet_eq frame minLen hlen).trans (if_neg hsize)
  obtain ⟨-, -, hsum⟩ := segmentLen_eq_ok hlen
  refine ⟨?_, ?_, ?_⟩
  · intro frame other packet srcMac dstMac minLen hpacket
    obtain rfl := Except.ok.inj (hbuild.symm.trans hpacket)
    rw [hframe, ipToEthernetFrameInto_ipv4 other (ipv4Header_ne_nil _ _ _ _ _ _)
      (ipv4Header_version _ _ _ _ _ _)]
    exact ⟨rfl, rfl⟩
  · intro frame srcMac dstMac minLen e
    rw [hbuild, hframe]
    simp
  intro frame packet srcMac dstMac minLen hpacket
  obtain rfl := Except.ok.inj (hbuild.symm.trans hpacket)
  rw [hframe]
  refine ethernetPayloadToIp_frameOf _ minLen rfl ?_ (by omega)
  rw [length_tcpSegment, hsum]

theorem ipv4Udp_valid (src : Ipv4Addr) (srcPort : UInt16) (dst : Ipv4Addr) (dstPort : UInt16)
    (payload : Bytes) :
    (Build.ipv4Udp src srcPort dst dstPort payload).Valid := by
  refine ⟨fun packet hpacket => ?_, fun packet hpacket => ?_, sumsFit, by simp⟩
  · obtain ⟨hsize, rfl⟩ := buildIpv4UdpPacket_eq_ok hpacket
    obtain ⟨hparse, howned⟩ :=
      parseIpPacket_ipv4 (ipv4Header_ne_nil _ _ _ _ _ _) (ipv4Header_version
      (20 + (8 + payload.length)) 17 (headerChecksum (20 + (8 + payload.length)) 17 src dst) src dst
      (udpHeader srcPort dstPort (8 + payload.length) ++ payload))
    have hlen : 20 + (8 + payload.length) = 20 +
        (udpHeader srcPort dstPort (8 + payload.length) ++ payload).length := by
      rw [length_append]
      rfl
    have hread := parseIpv4Packet_packet 17 (headerChecksum (20 + (8 + payload.length)) 17 src dst)
      src dst rfl hlen hsize
    rw [if_pos rfl, parseUdpPayload_datagram _ _ _ _ _ (by omega)] at hread
    refine ⟨hparse.trans hread, howned.trans ((parseIpv4PacketOwned_of_not_tcp ?_).trans hread)⟩
    show (17 : UInt8) ≠ 6
    decide
  · obtain ⟨hsize, rfl⟩ := buildIpv4UdpPacket_eq_ok hpacket
    refine ⟨?_, .inl ?_⟩
    · rw [take_header (length_ipv4Header _ _ _ _ _), internetChecksum_ipv4Header]
    · rw [drop_header (length_ipv4Header _ _ _ _ _)]
      rfl

theorem ipv4Tcp_valid (src dst : Ipv4Addr) (fields : TcpFields) :
    (Build.ipv4Tcp src dst fields).Valid := by
  refine ⟨fun packet hpacket => ?_, fun packet hpacket => ?_, sumsFit, ?_⟩
  · obtain ⟨tcpLen, hlen, hsize, rfl⟩ := buildIpv4TcpPacketWithOptions_eq_ok hpacket
    obtain ⟨haligned, hheader, hsum⟩ := segmentLen_eq_ok hlen
    have hbody := length_tcpSegment fields (segmentChecksum src.val dst.val fields)
    obtain ⟨hparse, howned⟩ :=
      parseIpPacket_ipv4 (ipv4Header_ne_nil _ _ _ _ _ _) (ipv4Header_version
      (20 + tcpLen) 6 (headerChecksum (20 + tcpLen) 6 src dst) src dst
      (tcpSegment fields (segmentChecksum src.val dst.val fields)))
    have hread := parseIpv4Packet_packet 6 (headerChecksum (20 + tcpLen) 6 src dst) src dst rfl
      (by omega : 20 + tcpLen =
        20 + (tcpSegment fields (segmentChecksum src.val dst.val fields)).length) hsize
    rw [parseTcpPayload_segment _ _ haligned hheader] at hread
    exact ⟨hparse.trans hread,
      howned.trans (parseIpv4PacketOwned_segment _ _ _ rfl haligned hheader (by omega) hsize)⟩
  · obtain ⟨tcpLen, hlen, hsize, rfl⟩ := buildIpv4TcpPacketWithOptions_eq_ok hpacket
    obtain ⟨-, -, hsum⟩ := segmentLen_eq_ok hlen
    refine ⟨?_, ?_⟩
    · rw [take_header (length_ipv4Header _ _ _ _ _), internetChecksum_ipv4Header]
    · rw [drop_header (length_ipv4Header _ _ _ _ _)]
      exact tcpChecksum_checksummed (by omega)
  · rintro src' dst' fields' heq
    cases heq
    exact framesAgree src dst fields

theorem ipv6Tcp_valid (src dst : Ipv6Addr) (fields : TcpFields) :
    (Build.ipv6Tcp src dst fields).Valid := by
  refine ⟨fun packet hpacket => ?_, fun packet hpacket => ?_, sumsFit, by simp⟩
  · obtain ⟨tcpLen, hlen, hsize, rfl⟩ := buildIpv6TcpPacketWithOptions_eq_ok hpacket
    obtain ⟨haligned, hheader, hsum⟩ := segmentLen_eq_ok hlen
    have hbody := length_tcpSegment fields (segmentChecksum src.val dst.val fields)
    obtain ⟨hparse, howned⟩ :=
      parseIpPacket_ipv6 (ipv6Header_ne_nil _ _ _ _ _) (ipv6Header_version tcpLen 6 src dst
      (tcpSegment fields (segmentChecksum src.val dst.val fields)))
    have hread := parseIpv6Packet_packet 6 src dst _ (by omega :
      tcpLen = (tcpSegment fields (segmentChecksum src.val dst.val fields)).length) hsize
    rw [parseTcpPayload_segment _ _ haligned hheader] at hread
    exact ⟨hparse.trans hread, howned.trans hread⟩
  · obtain ⟨tcpLen, hlen, hsize, rfl⟩ := buildIpv6TcpPacketWithOptions_eq_ok hpacket
    obtain ⟨-, -, hsum⟩ := segmentLen_eq_ok hlen
    show ipv6TcpChecksum src dst _ = .ok 0
    rw [drop_header (length_ipv6Header _ _ _ _)]
    exact tcpChecksum_checksummed (by omega)

/-- The builder writes no checksum. -/
theorem ipv6Udp_zero {src dst : Ipv6Addr} {srcPort dstPort : UInt16} {payload packet : Bytes}
    (h : buildIpv6UdpPacket src srcPort dst dstPort payload = .ok packet) :
    u16At (packet.drop 40) 6 = 0 := by
  obtain ⟨-, rfl⟩ := buildIpv6UdpPacket_eq_ok h
  rw [drop_header (length_ipv6Header _ _ _ _)]
  rfl

theorem ipv6Udp_valid_iff (src : Ipv6Addr) (srcPort : UInt16) (dst : Ipv6Addr) (dstPort : UInt16)
    (payload : Bytes) :
    (Build.ipv6Udp src srcPort dst dstPort payload).Valid ↔ u16Max < 8 + payload.length := by
  constructor
  · intro hvalid
    by_contra hsize
    have hbuild : ∃ packet, buildIpv6UdpPacket src srcPort dst dstPort payload = .ok packet :=
      ⟨_, if_neg (by omega)⟩
    obtain ⟨packet, hpacket⟩ := hbuild
    exact (hvalid.accepted packet hpacket).1 (ipv6Udp_zero hpacket)
  intro hsize
  have hnone : ∀ packet, buildIpv6UdpPacket src srcPort dst dstPort payload ≠ .ok packet := by
    intro packet hpacket
    have := (buildIpv6UdpPacket_eq_ok hpacket).1
    omega
  exact ⟨fun packet hpacket => absurd hpacket (hnone packet), fun packet hpacket =>
    absurd hpacket (hnone packet), sumsFit, by simp⟩

/-- An empty datagram over IPv6. -/
def emptyDatagram : Build := .ipv6Udp (octets 16 [0xfd, 1]) 53 (octets 16 [0xfd, 2]) 4096 []

theorem empty_datagram_refused : ¬ ∀ build : Build, build.Valid := fun hall =>
  absurd ((ipv6Udp_valid_iff _ _ _ _ _).mp (hall emptyDatagram)) (by decide)

/-- Everything that is built is valid, except UDP over IPv6. -/
theorem built_valid_iff (build : Build) : build.Valid ↔ ¬ build.IsIpv6Udp := by
  cases build with
  | ipv4Udp src srcPort dst dstPort payload =>
    exact iff_of_true (ipv4Udp_valid src srcPort dst dstPort payload) id
  | ipv4Tcp src dst fields => exact iff_of_true (ipv4Tcp_valid src dst fields) id
  | ipv6Tcp src dst fields => exact iff_of_true (ipv6Tcp_valid src dst fields) id
  | ipv6Udp src srcPort dst dstPort payload =>
    rw [ipv6Udp_valid_iff]
    exact not_le.symm

end Result

end QuicLite.Tun.Packet

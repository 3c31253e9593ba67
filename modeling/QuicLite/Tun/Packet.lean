import QuicLite.Lib.OnesComplement
import QuicLite.Wire.Varint

/-!
# Synthesised IP packets

The proxy answers the guest with packets of its own: UDP and TCP over IPv4 and IPv6, each written
field by field into a zeroed buffer, and Ethernet frames around them, one of which is written in
place into a scratch buffer that is used again and again. The parsers read the guest's packets.

A buffer is a list of bytes. Where the source indexes behind a length check, `byteAt` and `range`
are total. Sums are natural numbers; that they fit the code's 32 bits is part of the result.
-/

namespace QuicLite.Tun.Packet

open BigEndian List Except Nat

/-- A fixed number of bytes. -/
abbrev Octets (n : Nat) := { octets : Bytes // octets.length = n }

abbrev Ipv4Addr := Octets 4

abbrev Ipv6Addr := Octets 16

abbrev Mac := Octets 6

inductive IpAddr where
  | v4 (addr : Ipv4Addr)
  | v6 (addr : Ipv6Addr)
  deriving DecidableEq

structure TunUdpPacket where
  srcAddr : IpAddr
  srcPort : UInt16
  dstAddr : IpAddr
  dstPort : UInt16
  payload : Bytes
  deriving DecidableEq

structure TunTcpPacket where
  srcAddr : IpAddr
  srcPort : UInt16
  dstAddr : IpAddr
  dstPort : UInt16
  syn : Bool
  ack : Bool
  fin : Bool
  rst : Bool
  seq : UInt32
  ackNum : UInt32
  payload : Bytes
  deriving DecidableEq

inductive TunPacket where
  | udp (packet : TunUdpPacket)
  | tcp (packet : TunTcpPacket)
  | other
  deriving DecidableEq

/-! ## Buffers -/

def byteAt (buf : Bytes) (i : Nat) : UInt8 := buf.getD i 0

/-- `buf[start..stop]` -/
def range (buf : Bytes) (start stop : Nat) : Bytes := (buf.take stop).drop start

/-- `buf[start..start + src.len()].copy_from_slice(src)` -/
def copyFromSlice (buf : Bytes) (start : Nat) (src : Bytes) : Bytes :=
  buf.take start ++ src ++ buf.drop (start + src.length)

def u16ToBeBytes (v : UInt16) : Bytes := toBytes 2 v.toNat

def u32ToBeBytes (v : UInt32) : Bytes := toBytes 4 v.toNat

def u16At (buf : Bytes) (i : Nat) : UInt16 := UInt16.ofNat (ofBytes 0 (range buf i (i + 2)))

def u32At (buf : Bytes) (i : Nat) : UInt32 := UInt32.ofNat (ofBytes 0 (range buf i (i + 4)))

theorem length_padded (n : Nat) (bytes : Bytes) : ((bytes ++ replicate n 0).take n).length = n := by
  simp

/-- The first `n` bytes; the parsers have checked that they are there. -/
def octets (n : Nat) (bytes : Bytes) : Octets n :=
  ⟨(bytes ++ replicate n 0).take n, length_padded n bytes⟩

/-! ## Checksums -/

def addChecksumBytes (sum : Nat) : Bytes → Nat
  | [] => sum
  | [byte] => sum + byte.toNat * 256
  | a :: b :: rest => addChecksumBytes (sum + (a.toNat * 256 + b.toNat)) rest

def finishChecksum (sum : Nat) : UInt16 := ~~~ UInt16.ofNat (OnesComplement.carry sum sum)

def internetChecksum (bytes : Bytes) : UInt16 := finishChecksum (addChecksumBytes 0 bytes)

inductive PacketError where
  | optionsNotAligned
  | tcpHeaderTooLarge (len : Nat)
  | ipv4PacketTooLarge (len : Nat)
  | ipv6PacketTooLarge (len : Nat)
  | tcpSegmentTooLarge (len : Nat)
  | emptyIpPacket
  | unsupportedIpVersion (version : UInt8)

def u16Max : Nat := 65535

/-- The sum of the pseudo-header of either IP version: the addresses, the protocol and the
length. -/
def pseudoHeaderSum (src dst : Bytes) (protocol len : Nat) : Nat :=
  addChecksumBytes (addChecksumBytes 0 src) dst + protocol + len

def tcpChecksum (src dst : Bytes) (tcpSegment : Bytes) : Except PacketError UInt16 :=
  if tcpSegment.length > u16Max then .error (.tcpSegmentTooLarge tcpSegment.length)
  else .ok (finishChecksum
    (addChecksumBytes (pseudoHeaderSum src dst 6 tcpSegment.length) tcpSegment))

def ipv4TcpChecksum (src dst : Ipv4Addr) : Bytes → Except PacketError UInt16 :=
  tcpChecksum src.val dst.val

def ipv6TcpChecksum (src dst : Ipv6Addr) : Bytes → Except PacketError UInt16 :=
  tcpChecksum src.val dst.val

/-! ## Parsers -/

def parseUdpPayload (srcAddr dstAddr : IpAddr) (payload : Bytes) : TunPacket :=
  if payload.length < 8 then .other
  else
    let udpLen := (u16At payload 4).toNat
    if udpLen < 8 || payload.length < udpLen then .other
    else .udp ⟨srcAddr, u16At payload 0, dstAddr, u16At payload 2, range payload 8 udpLen⟩

/-- The fields of a TCP header, with the segment's payload. -/
def tcpPacket (srcAddr dstAddr : IpAddr) (tcp payload : Bytes) : TunTcpPacket where
  srcAddr := srcAddr
  srcPort := u16At tcp 0
  dstAddr := dstAddr
  dstPort := u16At tcp 2
  syn := byteAt tcp 13 &&& 0x02 != 0
  ack := byteAt tcp 13 &&& 0x10 != 0
  fin := byteAt tcp 13 &&& 0x01 != 0
  rst := byteAt tcp 13 &&& 0x04 != 0
  seq := u32At tcp 4
  ackNum := u32At tcp 8
  payload := payload

def parseTcpPayload (srcAddr dstAddr : IpAddr) (payload : Bytes) : TunPacket :=
  if payload.length < 20 then .other
  else
    let dataOffset := (byteAt payload 12 >>> 4).toNat * 4
    if payload.length < dataOffset then .other
    else .tcp (tcpPacket srcAddr dstAddr payload (payload.drop dataOffset))

section

variable (packet : Bytes)

def parseIpv4Packet : TunPacket :=
  if packet.length < 20 then .other
  else
    let ihl := (byteAt packet 0 &&& 0x0f).toNat * 4
    if ihl < 20 || packet.length < ihl then .other
    else
      let totalLen := (u16At packet 2).toNat
      if totalLen < ihl || packet.length < totalLen then .other
      else
        let srcAddr := IpAddr.v4 (octets 4 (packet.drop 12))
        let dstAddr := IpAddr.v4 (octets 4 (packet.drop 16))
        let payload := range packet ihl totalLen
        if byteAt packet 9 = 6 then parseTcpPayload srcAddr dstAddr payload
        else if byteAt packet 9 = 17 then parseUdpPayload srcAddr dstAddr payload
        else .other

def parseIpv6Packet : TunPacket :=
  if packet.length < 40 then .other
  else
    let payloadLen := (u16At packet 4).toNat
    let totalLen := 40 + payloadLen
    if packet.length < totalLen then .other
    else
      let srcAddr := IpAddr.v6 (octets 16 (packet.drop 8))
      let dstAddr := IpAddr.v6 (octets 16 (packet.drop 24))
      let payload := range packet 40 totalLen
      if byteAt packet 6 = 6 then parseTcpPayload srcAddr dstAddr payload
      else if byteAt packet 6 = 17 then parseUdpPayload srcAddr dstAddr payload
      else .other

def parseIpPacket : TunPacket :=
  if packet = [] then .other
  else if byteAt packet 0 >>> 4 = 4 then parseIpv4Packet packet
  else if byteAt packet 0 >>> 4 = 6 then parseIpv6Packet packet
  else .other

/-- TCP is taken out of the packet's own allocation, with checks of its own. -/
def parseIpv4PacketOwned : TunPacket :=
  if packet.length < 20 then .other
  else
    let ihl := (byteAt packet 0 &&& 0x0f).toNat * 4
    if ihl < 20 || packet.length < ihl then .other
    else
      let totalLen := (u16At packet 2).toNat
      if totalLen < ihl || packet.length < totalLen then .other
      else
        let srcAddr := IpAddr.v4 (octets 4 (packet.drop 12))
        let dstAddr := IpAddr.v4 (octets 4 (packet.drop 16))
        if byteAt packet 9 = 6 then
          if totalLen < ihl + 20 then .other
          else
            let tcp := range packet ihl totalLen
            let dataOffset := (byteAt tcp 12 >>> 4).toNat * 4
            if dataOffset < 20 || totalLen < ihl + dataOffset then .other
            else .tcp (tcpPacket srcAddr dstAddr tcp
              (range (packet.take totalLen) (ihl + dataOffset) totalLen))
        else parseIpv4Packet packet

def parseIpPacketOwned : TunPacket :=
  if packet = [] then .other
  else if byteAt packet 0 >>> 4 = 4 then parseIpv4PacketOwned packet
  else parseIpPacket packet

def ipv4HeaderLen : Option Nat :=
  if packet.length < 20 || byteAt packet 0 >>> 4 != 4 then none
  else
    let ihl := (byteAt packet 0 &&& 0x0f).toNat * 4
    if ihl ≥ 20 && packet.length ≥ ihl then some ihl else none

/-! ## Builders -/

/-- The IPv4 header, written into the first 20 bytes of a zeroed buffer. -/
def writeIpv4Header (totalLen : Nat) (protocol : UInt8) (src dst : Ipv4Addr) : Bytes :=
  let packet := packet.set 0 0x45
  let packet := copyFromSlice packet 2 (u16ToBeBytes (UInt16.ofNat totalLen))
  let packet := packet.set 8 64
  let packet := packet.set 9 protocol
  let packet := copyFromSlice packet 12 src.val
  let packet := copyFromSlice packet 16 dst.val
  let headerChecksum := internetChecksum (packet.take 20)
  copyFromSlice packet 10 (u16ToBeBytes headerChecksum)

/-- The IPv6 header, written into the first 40 bytes of a zeroed buffer. -/
def writeIpv6Header (payloadLen : Nat) (protocol : UInt8) (src dst : Ipv6Addr) : Bytes :=
  let packet := packet.set 0 0x60
  let packet := copyFromSlice packet 4 (u16ToBeBytes (UInt16.ofNat payloadLen))
  let packet := packet.set 6 protocol
  let packet := packet.set 7 64
  let packet := copyFromSlice packet 8 src.val
  copyFromSlice packet 24 dst.val

end

/-- The datagram behind the IP header. Its checksum stays zero. -/
def writeUdp (udp : Bytes) (srcPort dstPort : UInt16) (udpLen : Nat) (payload : Bytes) : Bytes :=
  let udp := copyFromSlice udp 0 (u16ToBeBytes srcPort)
  let udp := copyFromSlice udp 2 (u16ToBeBytes dstPort)
  let udp := copyFromSlice udp 4 (u16ToBeBytes (UInt16.ofNat udpLen))
  copyFromSlice udp 8 payload

def buildIpv4UdpPacket (src : Ipv4Addr) (srcPort : UInt16) (dst : Ipv4Addr) (dstPort : UInt16)
    (payload : Bytes) : Except PacketError Bytes :=
  let udpLen := 8 + payload.length
  let totalLen := 20 + udpLen
  if totalLen > u16Max then .error (.ipv4PacketTooLarge totalLen)
  else
    let packet := writeIpv4Header (replicate totalLen 0) totalLen 17 src dst
    .ok (packet.take 20 ++ writeUdp (packet.drop 20) srcPort dstPort udpLen payload)

def buildIpv6UdpPacket (src : Ipv6Addr) (srcPort : UInt16) (dst : Ipv6Addr) (dstPort : UInt16)
    (payload : Bytes) : Except PacketError Bytes :=
  let udpLen := 8 + payload.length
  if udpLen > u16Max then .error (.ipv6PacketTooLarge udpLen)
  else
    let totalLen := 40 + udpLen
    let packet := writeIpv6Header (replicate totalLen 0) udpLen 17 src dst
    .ok (packet.take 40 ++ writeUdp (packet.drop 40) srcPort dstPort udpLen payload)

/-- What a TCP segment says beside the addresses. -/
structure TcpFields where
  srcPort : UInt16
  dstPort : UInt16
  flags : UInt8
  seq : UInt32
  ack : UInt32
  options : Bytes
  payload : Bytes

def TcpFields.headerLen (fields : TcpFields) : Nat := 20 + fields.options.length

/-- The segment without its checksum, written into a zeroed buffer. -/
def writeTcp (tcp : Bytes) (fields : TcpFields) : Bytes :=
  let tcp := copyFromSlice tcp 0 (u16ToBeBytes fields.srcPort)
  let tcp := copyFromSlice tcp 2 (u16ToBeBytes fields.dstPort)
  let tcp := copyFromSlice tcp 4 (u32ToBeBytes fields.seq)
  let tcp := copyFromSlice tcp 8 (u32ToBeBytes fields.ack)
  let tcp := tcp.set 12 (UInt8.ofNat (fields.headerLen / 4) <<< 4)
  let tcp := tcp.set 13 fields.flags
  let tcp := copyFromSlice tcp 14 (u16ToBeBytes 64240)
  let tcp := copyFromSlice tcp 20 fields.options
  copyFromSlice tcp fields.headerLen fields.payload

/-- The length of the segment, if its options are well-formed. -/
def TcpFields.segmentLen (fields : TcpFields) : Except PacketError Nat :=
  if fields.options.length % 4 ≠ 0 then .error .optionsNotAligned
  else if fields.headerLen > 60 then .error (.tcpHeaderTooLarge fields.headerLen)
  else .ok (fields.headerLen + fields.payload.length)

def buildIpv4TcpPacketWithOptions (src dst : Ipv4Addr) (fields : TcpFields) :
    Except PacketError Bytes := do
  let tcpLen ← fields.segmentLen
  let totalLen := 20 + tcpLen
  if totalLen > u16Max then throw (.ipv4PacketTooLarge totalLen)
  let packet := writeIpv4Header (replicate totalLen 0) totalLen 6 src dst
  let tcp := writeTcp (packet.drop 20) fields
  let tcpChecksum ← ipv4TcpChecksum src dst tcp
  return packet.take 20 ++ copyFromSlice tcp 16 (u16ToBeBytes tcpChecksum)

def buildIpv6TcpPacketWithOptions (src dst : Ipv6Addr) (fields : TcpFields) :
    Except PacketError Bytes := do
  let tcpLen ← fields.segmentLen
  let totalLen := 40 + tcpLen
  let packet := writeIpv6Header (replicate totalLen 0) tcpLen 6 src dst
  let tcp := writeTcp (packet.drop 40) fields
  let tcpChecksum ← ipv6TcpChecksum src dst tcp
  return packet.take 40 ++ copyFromSlice tcp 16 (u16ToBeBytes tcpChecksum)

/-! ## Ethernet -/

/-- The scratch buffer afterwards stands beside the result. -/
def ipToEthernetFrameInto (frame packet : Bytes) (srcMac dstMac : Mac) (minLen : Nat) :
    Except PacketError Unit × Bytes :=
  if packet = [] then (.error .emptyIpPacket, frame)
  else
    let write (ethertype : UInt16) : Except PacketError Unit × Bytes :=
      let frame := dstMac.val ++ srcMac.val ++ u16ToBeBytes ethertype ++ packet
      (.ok (), if frame.length < minLen then
        frame ++ replicate (minLen - frame.length) 0 else frame)
    if byteAt packet 0 >>> 4 = 4 then write 0x0800
    else if byteAt packet 0 >>> 4 = 6 then write 0x86dd
    else (.error (.unsupportedIpVersion (byteAt packet 0 >>> 4)), frame)

/-- Ethernet, IP and TCP in one go, in place. -/
def buildEthernetIpv4TcpFrameWithOptionsInto (frame : Bytes) (srcMac dstMac : Mac) (minLen : Nat)
    (src dst : Ipv4Addr) (fields : TcpFields) : Except PacketError Unit × Bytes :=
  match fields.segmentLen with
  | .error e => (.error e, frame)
  | .ok tcpLen =>
    let ipTotalLen := 20 + tcpLen
    if ipTotalLen > u16Max then (.error (.ipv4PacketTooLarge ipTotalLen), frame)
    else
      let frameLen := max minLen (14 + ipTotalLen)
      let frame := replicate frameLen 0
      let frame := copyFromSlice frame 0 dstMac.val
      let frame := copyFromSlice frame 6 srcMac.val
      let frame := copyFromSlice frame 12 (u16ToBeBytes 0x0800)
      let packet := writeIpv4Header (range frame 14 (14 + ipTotalLen)) ipTotalLen 6 src dst
      let tcp := writeTcp (range packet 20 (20 + tcpLen)) fields
      let written (tcp : Bytes) : Bytes :=
        frame.take 14 ++ (packet.take 20 ++ tcp ++ packet.drop (20 + tcpLen)) ++
          frame.drop (14 + ipTotalLen)
      match ipv4TcpChecksum src dst tcp with
      | .error e => (.error e, written tcp)
      | .ok tcpChecksum => (.ok (), written (copyFromSlice tcp 16 (u16ToBeBytes tcpChecksum)))

def ethernetPayloadToIp (frame : Bytes) : Option (Bytes × Mac) :=
  if frame.length < 14 then none
  else
    let srcMac := octets 6 (frame.drop 6)
    let payload := frame.drop 14
    if u16At frame 12 = 0x0800 then
      (ipv4HeaderLen payload).map fun ihl =>
        let totalLen := (u16At payload 2).toNat
        (if totalLen ≥ ihl && payload.length ≥ totalLen then
          payload.take totalLen else payload, srcMac)
    else if u16At frame 12 = 0x86dd then
      if payload.length < 40 then none
      else
        let totalLen := 40 + (u16At payload 4).toNat
        some (if payload.length ≥ totalLen then payload.take totalLen else payload, srcMac)
    else none

/-! ## What the builders write -/

section Layout

variable {n : Nat} {src dst : Ipv4Addr} {packet : Bytes}
variable {header body payload : Bytes} {srcPort dstPort : UInt16}

theorem copyFromSlice_append {l mid r src : Bytes} (hl : l.length = n)
    (hmid : mid.length = src.length) :
    copyFromSlice (l ++ (mid ++ r)) n src = l ++ (src ++ r) := by
  subst hl
  rw [copyFromSlice, take_left, ← hmid, ← drop_drop, drop_left, drop_left, append_assoc]

@[simp] theorem length_u16ToBeBytes (v : UInt16) : (u16ToBeBytes v).length = 2 := rfl

theorem u16_roundTrip (v : UInt16) : UInt16.ofNat (ofBytes 0 (u16ToBeBytes v)) = v := by
  rw [u16ToBeBytes, ofBytes_toBytes, zero_mul, zero_add,
    mod_eq_of_lt (show v.toNat < 256 ^ 2 from v.toNat_lt), UInt16.ofNat_toNat]

theorem u32_roundTrip (v : UInt32) : UInt32.ofNat (ofBytes 0 (u32ToBeBytes v)) = v := by
  rw [u32ToBeBytes, ofBytes_toBytes, zero_mul, zero_add,
    mod_eq_of_lt (show v.toNat < 256 ^ 4 from v.toNat_lt), UInt32.ofNat_toNat]

theorem octets_append (addr : Octets n) (rest : Bytes) : octets n (addr.val ++ rest) = addr := by
  apply Subtype.ext
  show ((addr.val ++ rest) ++ replicate n 0).take n = addr.val
  rw [append_assoc, take_left' addr.property]

/-- The IPv4 header, field by field. -/
def ipv4Header (totalLen : Nat) (protocol : UInt8) (checksum : UInt16) (src dst : Ipv4Addr) :
    Bytes :=
  [0x45, 0] ++ u16ToBeBytes (UInt16.ofNat totalLen) ++ [0, 0, 0, 0, 64, protocol] ++
    u16ToBeBytes checksum ++
    (src.val ++ dst.val)

def ipv6Header (payloadLen : Nat) (protocol : UInt8) (src dst : Ipv6Addr) : Bytes :=
  [0x60, 0, 0, 0] ++ u16ToBeBytes (UInt16.ofNat payloadLen) ++ [protocol, 64] ++
    (src.val ++ dst.val)

def udpHeader (srcPort dstPort : UInt16) (udpLen : Nat) : Bytes :=
  u16ToBeBytes srcPort ++ u16ToBeBytes dstPort ++ u16ToBeBytes (UInt16.ofNat udpLen) ++ [0, 0]

/-- The fixed part of the TCP header. -/
def tcpHeader (fields : TcpFields) (checksum : UInt16) : Bytes :=
  u16ToBeBytes fields.srcPort ++ u16ToBeBytes fields.dstPort ++ u32ToBeBytes fields.seq ++
    u32ToBeBytes fields.ack ++
    [UInt8.ofNat (fields.headerLen / 4) <<< 4, fields.flags] ++ u16ToBeBytes 64240 ++
      u16ToBeBytes checksum ++ [0, 0]

def tcpSegment (fields : TcpFields) (checksum : UInt16) : Bytes :=
  tcpHeader fields checksum ++ (fields.options ++ fields.payload)

/-- The checksum of an IPv4 header. -/
def headerChecksum (totalLen : Nat) (protocol : UInt8) (src dst : Ipv4Addr) : UInt16 :=
  internetChecksum (ipv4Header totalLen protocol 0 src dst)

theorem length_ipv4Header (totalLen : Nat) (protocol : UInt8) (checksum : UInt16)
    (src dst : Ipv4Addr) :
    (ipv4Header totalLen protocol checksum src dst).length = 20 := by
  simp [ipv4Header, src.property, dst.property]

theorem length_ipv6Header (payloadLen : Nat) (protocol : UInt8) (src dst : Ipv6Addr) :
    (ipv6Header payloadLen protocol src dst).length = 40 := by
  simp [ipv6Header, src.property, dst.property]

variable (fields : TcpFields) (checksum : UInt16)

theorem length_tcpSegment :
    (tcpSegment fields checksum).length = fields.headerLen + fields.payload.length := by
  have hheader : (tcpHeader fields checksum).length = 20 := rfl
  rw [tcpSegment, length_append, length_append, hheader, TcpFields.headerLen, add_assoc]

/-- The header's checksum is taken while its field is zero. -/
theorem writeIpv4Header_eq (rest : Bytes) (totalLen : Nat) (protocol : UInt8) (src dst : Ipv4Addr) :
    writeIpv4Header (replicate 20 0 ++ rest) totalLen protocol src dst =
      ipv4Header totalLen protocol (headerChecksum totalLen protocol src dst) src dst ++ rest := by
  -- Up to the addresses every field has its place in a list that is spelled out.
  have hfirst : ((copyFromSlice ((replicate 20 0 ++ rest).set 0 0x45) 2
      (u16ToBeBytes (.ofNat totalLen))).set 8 64).set 9 protocol =
        ([0x45, 0] ++ u16ToBeBytes (.ofNat totalLen) ++ [0, 0, 0, 0, 64, protocol, 0, 0]) ++
          (replicate 4 0 ++ (replicate 4 0 ++ rest)) := rfl
  have hlen : ([0x45, 0] ++
      u16ToBeBytes (.ofNat totalLen) ++ [0, 0, 0, 0, 64, protocol, 0, 0]).length = 12 := rfl
  have hsrc : ∀ tail : Bytes, copyFromSlice (([0x45, 0] ++ u16ToBeBytes (.ofNat totalLen) ++
      [0, 0, 0, 0, 64, protocol, 0, 0]) ++ (replicate 4 0 ++ tail)) 12 src.val =
        ([0x45, 0] ++ u16ToBeBytes (.ofNat totalLen) ++ [0, 0, 0, 0, 64, protocol, 0, 0] ++
          src.val) ++ tail := by
    intro tail
    rw [copyFromSlice_append hlen (by simp [src.property])]
    exact (append_assoc _ _ _).symm
  have hdst : copyFromSlice
      (([0x45, 0] ++ u16ToBeBytes (.ofNat totalLen) ++ [0, 0, 0, 0, 64, protocol, 0, 0] ++
      src.val) ++ (replicate 4 0 ++ rest)) 16 dst.val = ipv4Header totalLen protocol 0 src dst ++
        rest := by
    rw [copyFromSlice_append (by simp [src.property]) (by simp [dst.property])]
    simp [ipv4Header, u16ToBeBytes, toBytes]
  have htake : (ipv4Header totalLen protocol 0 src dst ++ rest).take 20 =
      ipv4Header totalLen protocol 0 src dst :=
    take_left' (length_ipv4Header totalLen protocol 0 src dst)
  unfold writeIpv4Header
  dsimp only
  rw [hfirst, hsrc, hdst, htake]
  -- The checksum's field is spelled out again.
  rfl

theorem writeIpv6Header_eq (rest : Bytes) (payloadLen : Nat) (protocol : UInt8)
    (src dst : Ipv6Addr) : writeIpv6Header (replicate 40 0 ++ rest) payloadLen protocol src dst =
      ipv6Header payloadLen protocol src dst ++ rest := by
  have hfirst : ((copyFromSlice ((replicate 40 0 ++ rest).set 0 0x60) 4
      (u16ToBeBytes (.ofNat payloadLen))).set 6 protocol).set 7 64 =
        ([0x60, 0, 0, 0] ++ u16ToBeBytes (.ofNat payloadLen) ++ [protocol, 64]) ++
          (replicate 16 0 ++ (replicate 16 0 ++ rest)) := rfl
  have hlen : ([0x60, 0, 0, 0] ++ u16ToBeBytes (.ofNat payloadLen) ++ [protocol, 64]).length = 8 :=
    rfl
  unfold writeIpv6Header
  dsimp only
  rw [hfirst, copyFromSlice_append hlen (by simp [src.property]), ← append_assoc,
    copyFromSlice_append (by simp [src.property]) (by simp [dst.property])]
  simp [ipv6Header]

theorem writeUdp_eq (srcPort dstPort : UInt16) (udpLen : Nat) (payload : Bytes) :
    writeUdp (replicate (8 + payload.length) 0) srcPort dstPort udpLen payload =
      udpHeader srcPort dstPort udpLen ++ payload := by
  have hzero : replicate (8 + payload.length) (0 : UInt8) = replicate 8 0 ++
      (replicate payload.length 0 ++ []) := by
    rw [append_nil, replicate_append_replicate]
  have hlen : (udpHeader srcPort dstPort udpLen).length = 8 := rfl
  have hfirst : ∀ tail : Bytes,
      copyFromSlice (copyFromSlice (copyFromSlice (replicate 8 0 ++ tail) 0
      (u16ToBeBytes srcPort)) 2 (u16ToBeBytes dstPort)) 4 (u16ToBeBytes (.ofNat udpLen)) =
        udpHeader srcPort dstPort udpLen ++ tail := fun _ => rfl
  unfold writeUdp
  dsimp only
  rw [hzero, hfirst, copyFromSlice_append hlen (by simp), append_nil]

theorem writeTcp_eq : writeTcp (replicate (fields.headerLen + fields.payload.length) 0) fields =
    tcpSegment fields 0 := by
  have hzero : replicate (fields.headerLen + fields.payload.length) (0 : UInt8) =
      replicate 20 0 ++ (replicate fields.options.length 0 ++
        (replicate fields.payload.length 0 ++ [])) := by
    rw [append_nil, replicate_append_replicate, replicate_append_replicate, TcpFields.headerLen,
      add_assoc]
  have hlen : (tcpHeader fields 0).length = 20 := rfl
  have hfirst : ∀ tail : Bytes,
      copyFromSlice (((copyFromSlice (copyFromSlice (copyFromSlice (copyFromSlice
      (replicate 20 0 ++ tail) 0 (u16ToBeBytes fields.srcPort)) 2 (u16ToBeBytes fields.dstPort)) 4
        (u32ToBeBytes fields.seq)) 8 (u32ToBeBytes fields.ack)).set 12
          (UInt8.ofNat (fields.headerLen / 4) <<< 4)).set 13
          fields.flags) 14 (u16ToBeBytes 64240) = tcpHeader fields 0 ++ tail := fun _ => rfl
  have hpayload : (tcpHeader fields 0 ++ fields.options).length = fields.headerLen := by
    rw [length_append, hlen, TcpFields.headerLen]
  unfold writeTcp
  dsimp only
  rw [hzero, hfirst, copyFromSlice_append hlen (by simp), ← append_assoc (tcpHeader fields 0),
    copyFromSlice_append hpayload (by simp), append_nil]
  rfl

/-! ## Sums -/

theorem addChecksumBytes_eq (s : Nat) (bytes : Bytes) :
    addChecksumBytes s bytes = s + OnesComplement.sum bytes := by
  induction bytes using OnesComplement.sum.induct generalizing s with
  | case1 => rfl
  | case2 a => rfl
  | case3 a b rest ih =>
    rw [addChecksumBytes, ih, OnesComplement.sum]
    omega

theorem toNat_finishChecksum (s : Nat) :
    (finishChecksum s).toNat = 65535 - OnesComplement.carry s s := by
  obtain ⟨hlt, -, -⟩ := OnesComplement.carry_spec (le_refl s)
  rw [finishChecksum, UInt16.toNat_not, UInt16.toNat_ofNat', mod_eq_of_lt hlt]
  rfl

/-- A sum together with its checksum verifies. -/
theorem finishChecksum_verifies (s : Nat) : finishChecksum (s + (finishChecksum s).toNat) = 0 := by
  apply UInt16.toNat_inj.mp
  rw [toNat_finishChecksum, toNat_finishChecksum, OnesComplement.carry_complement]
  rfl

theorem toNat_u16ToBeBytes (v : UInt16) :
    (UInt8.ofNat (v.toNat >>> 8)).toNat * 256 + (UInt8.ofNat (v.toNat >>> 0)).toNat = v.toNat := by
  have := v.toNat_lt
  rw [UInt8.toNat_ofNat', UInt8.toNat_ofNat']
  omega

/-- A word behind an even number of bytes adds its value. -/
theorem sum_word {before : Bytes} (hlen : before.length = 2 * n) (v : UInt16) (after : Bytes) :
    OnesComplement.sum (before ++ (u16ToBeBytes v ++ after)) =
      OnesComplement.sum (before ++ (u16ToBeBytes 0 ++ after)) + v.toNat := by
  have hbefore : before.length % 2 = 0 := by omega
  have hword : ∀ w : UInt16, OnesComplement.sum (u16ToBeBytes w ++ after) = w.toNat +
      OnesComplement.sum after := by
    intro w
    show (UInt8.ofNat (w.toNat >>> 8)).toNat * 256 + (UInt8.ofNat (w.toNat >>> 0)).toNat +
      OnesComplement.sum after = _
    rw [toNat_u16ToBeBytes]
  rw [OnesComplement.sum_append hbefore, OnesComplement.sum_append hbefore, hword, hword]
  show _ = _ + (0 + _) + _
  omega

theorem sum_ipv4Header (totalLen : Nat) (protocol : UInt8) (checksum : UInt16)
    (src dst : Ipv4Addr) : OnesComplement.sum (ipv4Header totalLen protocol checksum src dst) =
      OnesComplement.sum (ipv4Header totalLen protocol 0 src dst) + checksum.toNat := by
  have hsplit : ∀ c : UInt16, ipv4Header totalLen protocol c src dst =
      ([0x45, 0] ++ u16ToBeBytes (.ofNat totalLen) ++ [0, 0, 0, 0, 64, protocol]) ++
        (u16ToBeBytes c ++ (src.val ++ dst.val)) := fun _ => append_assoc _ _ _
  rw [hsplit, hsplit, sum_word (n := 5) rfl]

theorem sum_tcpSegment :
    OnesComplement.sum (tcpSegment fields checksum) = OnesComplement.sum (tcpSegment fields 0) +
      checksum.toNat := by
  have hsplit : ∀ c : UInt16, tcpSegment fields c =
      (u16ToBeBytes fields.srcPort ++ u16ToBeBytes fields.dstPort ++ u32ToBeBytes fields.seq ++
        u32ToBeBytes fields.ack ++
        [UInt8.ofNat (fields.headerLen / 4) <<< 4, fields.flags] ++ u16ToBeBytes 64240) ++
          (u16ToBeBytes c ++ ([0, 0] ++ (fields.options ++ fields.payload))) := by
    intro c
    simp only [tcpSegment, tcpHeader, append_assoc]
  rw [hsplit, hsplit, sum_word (n := 8) rfl]

/-! ## The packets -/

variable {fields : TcpFields}

theorem segmentLen_eq_ok {len : Nat} (h : fields.segmentLen = .ok len) :
    fields.options.length % 4 = 0 ∧ fields.headerLen ≤ 60 ∧ len = fields.headerLen +
      fields.payload.length := by
  unfold TcpFields.segmentLen at h
  split at h
  · cases h
  next haligned =>
    split at h
    · cases h
    next hheader =>
      cases h
      exact ⟨by omega, by omega, rfl⟩

/-- An IPv4 header in front of a zeroed body. -/
theorem writeIpv4Header_zero (bodyLen totalLen : Nat) (protocol : UInt8) (src dst : Ipv4Addr) :
    writeIpv4Header (replicate (20 + bodyLen) 0) totalLen protocol src dst =
      ipv4Header totalLen protocol (headerChecksum totalLen protocol src dst) src dst ++
        replicate bodyLen 0 := by
  rw [← replicate_append_replicate, writeIpv4Header_eq]

theorem take_header (hlen : header.length = n) : (header ++ body).take n = header :=
  take_left' hlen

theorem drop_header (hlen : header.length = n) : (header ++ body).drop n = body :=
  drop_left' hlen

/-- The checksum of a segment between two addresses. -/
def segmentChecksum (src dst : Bytes) (fields : TcpFields) : UInt16 :=
  finishChecksum (addChecksumBytes (pseudoHeaderSum src dst 6 (tcpSegment fields 0).length)
    (tcpSegment fields 0))

/-- The IPv4 packet of a segment of this length. -/
abbrev segmentPacket (src dst : Ipv4Addr) (fields : TcpFields) (tcpLen : Nat) : Bytes :=
  ipv4Header (20 + tcpLen) 6 (headerChecksum (20 + tcpLen) 6 src dst) src dst ++
    tcpSegment fields (segmentChecksum src.val dst.val fields)

theorem buildIpv4UdpPacket_eq_ok
    (h : buildIpv4UdpPacket src srcPort dst dstPort payload = .ok packet) :
    20 + (8 + payload.length) ≤ u16Max ∧
      packet = ipv4Header (20 + (8 + payload.length))
        17 (headerChecksum (20 + (8 + payload.length)) 17 src dst) src dst ++
        (udpHeader srcPort dstPort (8 + payload.length) ++ payload) := by
  unfold buildIpv4UdpPacket at h
  dsimp only at h
  split at h
  · cases h
  next hsize =>
    refine ⟨by omega, (ok.inj h).symm.trans ?_⟩
    rw [writeIpv4Header_zero, take_header (length_ipv4Header _ _ _ _ _),
      drop_header (length_ipv4Header _ _ _ _ _), writeUdp_eq]

theorem buildIpv6UdpPacket_eq_ok {src dst : Ipv6Addr}
    (h : buildIpv6UdpPacket src srcPort dst dstPort payload = .ok packet) :
    8 + payload.length ≤ u16Max ∧
      packet = ipv6Header (8 + payload.length) 17 src dst ++
        (udpHeader srcPort dstPort (8 + payload.length) ++ payload) := by
  unfold buildIpv6UdpPacket at h
  dsimp only at h
  split at h
  · cases h
  next hsize =>
    refine ⟨by omega, (ok.inj h).symm.trans ?_⟩
    rw [← replicate_append_replicate, writeIpv6Header_eq, take_header (length_ipv6Header _ _ _ _),
      drop_header (length_ipv6Header _ _ _ _), writeUdp_eq]

theorem tcpChecksum_segment {src dst : Bytes}
    (hlen : fields.headerLen + fields.payload.length ≤ u16Max) :
    tcpChecksum src dst (tcpSegment fields 0) = .ok (segmentChecksum src dst fields) := by
  rw [tcpChecksum, if_neg (by rw [length_tcpSegment]; omega), segmentChecksum]

theorem buildIpv4TcpPacketWithOptions_error {e : PacketError}
    (hlen : fields.segmentLen = .error e) :
    buildIpv4TcpPacketWithOptions src dst fields = .error e := by
  rw [buildIpv4TcpPacketWithOptions, hlen]
  rfl

/-- Behind the checks on the options only the size can be wrong. -/
theorem buildIpv4TcpPacketWithOptions_eq {tcpLen : Nat} (hlen : fields.segmentLen = .ok tcpLen) :
    buildIpv4TcpPacketWithOptions src dst fields = if 20 + tcpLen > u16Max then
      .error (.ipv4PacketTooLarge (20 + tcpLen))
      else .ok (segmentPacket src dst fields tcpLen) := by
  rw [buildIpv4TcpPacketWithOptions, hlen]
  obtain ⟨-, -, rfl⟩ := segmentLen_eq_ok hlen
  dsimp only [Bind.bind, Except.bind]
  split
  · rfl
  next hsize =>
    rw [writeIpv4Header_zero, take_header (length_ipv4Header _ _ _ _ _),
      drop_header (length_ipv4Header _ _ _ _ _), writeTcp_eq, ipv4TcpChecksum,
      tcpChecksum_segment (by omega)]
    rfl

theorem buildIpv4TcpPacketWithOptions_eq_ok
    (h : buildIpv4TcpPacketWithOptions src dst fields = .ok packet) :
    ∃ tcpLen, fields.segmentLen = .ok tcpLen ∧ 20 + tcpLen ≤ u16Max ∧
      packet = segmentPacket src dst fields tcpLen := by
  cases hlen : fields.segmentLen with
  | error e =>
    rw [buildIpv4TcpPacketWithOptions_error hlen] at h
    cases h
  | ok tcpLen =>
    rw [buildIpv4TcpPacketWithOptions_eq hlen] at h
    split at h
    · cases h
    · next hsize => exact ⟨tcpLen, rfl, by omega, (ok.inj h).symm⟩

theorem buildIpv6TcpPacketWithOptions_eq_ok {src dst : Ipv6Addr}
    (h : buildIpv6TcpPacketWithOptions src dst fields = .ok packet) :
    ∃ tcpLen, fields.segmentLen = .ok tcpLen ∧ tcpLen ≤ u16Max ∧
      packet = ipv6Header tcpLen 6 src dst ++
        tcpSegment fields (segmentChecksum src.val dst.val fields) := by
  unfold buildIpv6TcpPacketWithOptions at h
  cases hlen : fields.segmentLen with
  | error e =>
    rw [hlen] at h
    cases h
  | ok tcpLen =>
  obtain ⟨-, -, rfl⟩ := segmentLen_eq_ok hlen
  rw [hlen] at h
  dsimp only [Bind.bind, Except.bind] at h
  rw [← replicate_append_replicate, writeIpv6Header_eq,
    take_header (length_ipv6Header _ _ _ _), drop_header (length_ipv6Header _ _ _ _),
    writeTcp_eq] at h
  by_cases hsize : fields.headerLen + fields.payload.length ≤ u16Max
  · rw [ipv6TcpChecksum, tcpChecksum_segment hsize] at h
    exact ⟨_, rfl, hsize, (ok.inj h).symm⟩
  · rw [ipv6TcpChecksum, tcpChecksum, if_pos (by rw [length_tcpSegment]; omega)] at h
    cases h

end Layout

end QuicLite.Tun.Packet

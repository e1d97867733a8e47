import BrebOS.Network.ARP
import BrebOS.Network.Socket

/-!
# The way of a frame

`Ethernet.cpp`, `IPV4.cpp`, `ICMP.cpp` and the parts of `TCP.cpp` and `Socket.cpp` that take a received frame
apart.  Each layer reads its header and hands a pointer, mostly with a size, on to the next one; here a
pointer is a place in the frame.

The headers are read where they stand, so that a word is loaded with its first byte lowest.
-/

namespace BrebOS

/-- `ETHERTYPE_IPV4`. -/
def ethertypeIpv4 : BitVec 16 := 0x0800

/-- `ETHERTYPE_ARP`. -/
def ethertypeArp : BitVec 16 := 0x0806

/-- `IPV4_FLAG_MORE_FRAGMENTS`. -/
def ipv4FlagMoreFragments : BitVec 16 := 4

/-- `IPV4_PROTOCOL_ICMP`. -/
def ipv4ProtocolIcmp : Byte := 1

/-- `IPV4_PROTOCOL_TCP`. -/
def ipv4ProtocolTcp : Byte := 6

/-- `IPV4_PROTOCOL_UDP`. -/
def ipv4ProtocolUdp : Byte := 17

/-- `IPV4_DEFAULT_IHL`. -/
def ipv4DefaultIhl : Byte := 5

/-- `ICMP_ECHO_REQUEST`. -/
def icmpEchoRequest : Byte := 8

/-- `Network::broadcast_ip`. -/
def broadcastIp : IP := 0xffffffff

/-- `Ethernet::get_header_size`. -/
def ethernetHeaderSize : ℕ := 14

/-- `sizeof(IPV4::header_t)`. -/
def ipv4HeaderSize : ℕ := 20

/-- `ICMP::get_packet_size`. -/
def icmpPacketSize : ℕ := 4

/-- What the card hands over.  The length of a descriptor has 16 bits. -/
structure EthernetFrame where
  bytes : List Byte
  length_lt : bytes.length < 2 ^ 16

/-- What a layer hands on: the place of a packet, and the size it is said to have. -/
inductive Handed
  /-- To `ARP::handle_packet`, which is told no size. -/
  | arp (packet : ℕ)
  /-- To `ICMP::handle_packet`. -/
  | icmp (packet size : ℕ)
  /-- To `UDP::handle_packet`. -/
  | udp (packet size : ℕ)
  /-- To `TCP::handle_packet`. -/
  | tcp (packet size : ℕ)
  /-- To the `memcpy` of `ICMP::write_ping_reply`. -/
  | reply (payload size : ℕ)
  /-- To `TCP_listener::on_data_received`. -/
  | data (payload size : ℕ)
  deriving DecidableEq, Repr

/-- The addresses and the sockets that a packet is looked up in. -/
structure Host where
  /-- `Network::ip`. -/
  ip : IP
  /-- `Socket::sockets`, each with its port. -/
  sockets : List (BitVec 16 × Socket) := []
  deriving DecidableEq, Repr

/-- `Socket::port_used`. -/
def Host.portUsed (h : Host) (port : BitVec 16) : Option Socket :=
  (h.sockets.find? fun s => s.1 = port).map Prod.snd

/-- The difference of two sizes. -/
def subSize (a b : ℕ) : Except NetFault ℕ := if b ≤ a then .ok (a - b) else .error .wrapped

/-! ## Checksums -/

/-- The inner loop of `Network::checksum`, and the byte that may be left over. -/
def checksumSum : List Byte → BitVec 32
  | [] => 0
  | [a] => a.setWidth 32
  | a :: b :: bs => (b ++ a : BitVec 16).setWidth 32 + checksumSum bs

/-- A turn of the loop that folds the sum to 16 bits, if there is one. -/
def checksumFold (sum : BitVec 32) : BitVec 32 :=
  if sum >>> 16 = 0 then sum else (sum &&& (0xffff : BitVec 32)) + (sum >>> 16)

/-- `Network::checksum`.  Two turns are enough for every sum. -/
def checksum (bs : List Byte) : BitVec 16 :=
  ~~~((checksumFold (checksumFold (checksumSum bs))).setWidth 16)

lemma checksumFold_toNat (sum : BitVec 32) : (checksumFold sum).toNat =
    if sum.toNat / 2 ^ 16 = 0 then sum.toNat else sum.toNat % 2 ^ 16 + sum.toNat / 2 ^ 16 := by
  have hlt := sum.isLt
  have hzero : sum >>> 16 = 0 ↔ sum.toNat / 2 ^ 16 = 0 := by
    rw [← BitVec.toNat_inj, BitVec.toNat_ushiftRight, Nat.shiftRight_eq_div_pow]
    rfl
  have hand : (sum &&& (0xffff : BitVec 32)).toNat = sum.toNat % 2 ^ 16 := by
    rw [BitVec.toNat_and]
    exact Nat.and_two_pow_sub_one_eq_mod sum.toNat 16
  simp only [checksumFold, hzero]
  split
  · rfl
  · rw [BitVec.toNat_add, hand, BitVec.toNat_ushiftRight, Nat.shiftRight_eq_div_pow]
    omega

lemma checksumFold_done (sum : BitVec 32) : checksumFold (checksumFold sum) >>> 16 = 0 := by
  have hlt := sum.isLt
  have hone := checksumFold_toNat sum
  have htwo := checksumFold_toNat (checksumFold sum)
  rw [← BitVec.toNat_inj, BitVec.toNat_ushiftRight, Nat.shiftRight_eq_div_pow]
  change _ = 0
  split at hone <;> split at htwo <;> omega

/-! ## ICMP -/

/-- What every answer to a packet reads: `saddr` of the IPv4 header and `src` of the Ethernet header. -/
def replyAddress (p : List Byte) (ipv4Packet : ℕ) : Except NetFault (IP × List Byte) := do
  let saddr ← load32 p (ipv4Packet + 12)
  let src ← readBytes p 6 6
  return (saddr, src)

namespace ICMP

/-- `ICMP::packet_valid`. -/
def packetValid (p : List Byte) (packet size : ℕ) : Except NetFault Bool :=
  if size < icmpPacketSize then .ok false
  else do
    let type ← readByte p packet
    if type &&& icmpEchoRequest = 0 then return false
    else
      let code ← readByte p (packet + 1)
      if code ≠ 0 then return false
      else
        let bytes ← readBytes p packet size
        return checksum bytes == 0

/-- `ICMP::handle_packet`, with the copying of `write_ping_reply`. -/
def handlePacket (p : List Byte) (ipv4Packet packet size : ℕ) : Except NetFault (List Handed) := do
  if ← packetValid p packet size then
    let _ ← replyAddress p ipv4Packet
    let payloadSize ← subSize size icmpPacketSize
    return [.reply (packet + icmpPacketSize) payloadSize]
  else return []

end ICMP

/-! ## TCP -/

/-- `flags & flag`. -/
def hasFlag (flags flag : BitVec 8) : Bool := flags &&& flag != 0

/-- The flags that no socket handles. -/
def flagsNotHandled (flags : BitVec 8) : Bool := flags.setWidth 16 &&& tcpFlagsNotHandled != 0

/-- `(header_len >> 4) * sizeof(uint32_t)`. -/
def tcpHeaderSize (headerLen : Byte) : ℕ := (headerLen >>> 4).toNat * 4

namespace Socket

/-- `Socket::acknowledge`, the number it sets. -/
def acknowledge (p : List Byte) (packet size : ℕ) : Except NetFault (BitVec 32) := do
  let headerLen ← readByte p (packet + 12)
  let payloadSize ← subSize size (tcpHeaderSize headerLen)
  let seqNum ← load32 p (packet + 4)
  let flags ← readByte p (packet + 13)
  let ackNum := switch32 seqNum + BitVec.ofNat 32 payloadSize
  return if hasFlag flags (tcpFlagSyn ||| tcpFlagFin) then ackNum + 1 else ackNum

/-- The branch of `Socket::handle_packet` for an established connection. -/
def receive (s : Socket) (p : List Byte) (ipv4Packet packet size : ℕ) (flags : BitVec 8) :
    Except NetFault (List Handed) := do
  let headerLen ← readByte p (packet + 12)
  let headerSize := tcpHeaderSize headerLen
  let payloadSize ← subSize size headerSize
  if payloadSize ≠ 0 ∨ hasFlag flags tcpFlagFin then
    let _ ← replyAddress p ipv4Packet
    let _ ← acknowledge p packet size
    return if s.listener && payloadSize != 0 then [.data (packet + headerSize) payloadSize] else []
  else return []

/-- `Socket::handle_packet`, as far as it reads the packet. -/
def handlePacket (s : Socket) (p : List Byte) (ipv4Packet packet size : ℕ) :
    Except NetFault (List Handed) := do
  let flags ← readByte p (packet + 13)
  if flagsNotHandled flags then
    let _ ← replyAddress p ipv4Packet
    return []
  -- `flags & TCP_FLAG_SYN && flags && TCP_FLAG_ACK`
  else if hasFlag flags tcpFlagSyn && flags != 0 && tcpFlagAck != 0 && s.state == .synSent then
    let _ ← replyAddress p ipv4Packet
    let _ ← acknowledge p packet size
    return []
  else if flags == tcpFlagAck && s.state == .closeWait then return []
  else if hasFlag flags tcpFlagFin && hasFlag flags tcpFlagAck && s.state == .finWait1 then
    let _ ← replyAddress p ipv4Packet
    let _ ← acknowledge p packet size
    return []
  else if flags == tcpFlagRst ||| tcpFlagAck && s.state == .synSent then return []
  else if hasFlag flags tcpFlagAck && s.state == .established then
    s.receive p ipv4Packet packet size flags
  else if hasFlag flags tcpFlagRst then return []
  else
    let _ ← replyAddress p ipv4Packet
    return []

end Socket

/-- `TCP::handle_packet`.  `TCP::packet_valid` is called nowhere. -/
def TCP.handlePacket (h : Host) (p : List Byte) (ipv4Packet packet size : ℕ) :
    Except NetFault (List Handed) := do
  let destPort ← load16 p (packet + 2)
  match h.portUsed (switch16 destPort) with
  | some socket => socket.handlePacket p ipv4Packet packet size
  | none =>
      -- Force close connection
      let _ ← load32 p (ipv4Packet + 12)
      let _ ← load16 p packet
      let _ ← load32 p (packet + 4)
      let _ ← replyAddress p ipv4Packet
      return []

/-! ## IPv4 -/

namespace IPV4

/-- `get_ihl`. -/
def getIhl (versionAndIhl : Byte) : Byte := versionAndIhl &&& 0xf

/-- `get_version`. -/
def getVersion (versionAndIhl : Byte) : Byte := versionAndIhl >>> 4

/-- `get_flags`, on the word as it is loaded. -/
def getFlags (flagsAndFragOffset : BitVec 16) : BitVec 16 := (flagsAndFragOffset >>> 5) &&& 0x7

/-- `get_frag_offset`, on the word as it is loaded. -/
def getFragOffset (flagsAndFragOffset : BitVec 16) : BitVec 16 := flagsAndFragOffset &&& 0xff1f

/-- `IPV4::packet_valid`. -/
def packetValid (ip : IP) (p : List Byte) (packet : ℕ) : Except NetFault Bool := do
  let versionAndIhl ← readByte p packet
  if getVersion versionAndIhl ≠ 4 then return false
  else if getIhl versionAndIhl ≠ ipv4DefaultIhl then return false
  else
    let daddr ← load32 p (packet + 16)
    if ¬ (daddr = ip ∨ daddr = broadcastIp) then return false
    else
      let flagsAndFragOffset ← load16 p (packet + 6)
      if getFragOffset flagsAndFragOffset ≠ 0 ∨
          getFlags flagsAndFragOffset &&& ipv4FlagMoreFragments ≠ 0 then return false
      else
        let header ← readBytes p packet ipv4HeaderSize
        if checksum header ≠ 0 then return false
        else
          let proto ← readByte p (packet + 9)
          return proto == ipv4ProtocolIcmp || proto == ipv4ProtocolUdp || proto == ipv4ProtocolTcp

/-- `IPV4::handle_packet`.  `ICMP` and `UDP` keep the size in 16 bits, which hold it. -/
def handlePacket (h : Host) (p : List Byte) (packet : ℕ) : Except NetFault (List Handed) := do
  if ← packetValid h.ip p packet then
    let versionAndIhl ← readByte p packet
    let headerLen := (getIhl versionAndIhl).toNat * 4
    let len ← load16 p (packet + 2)
    let payloadSize ← subSize (switch16 len).toNat headerLen
    let payload := packet + ipv4HeaderSize
    let proto ← readByte p (packet + 9)
    if proto = ipv4ProtocolIcmp then
      return .icmp payload payloadSize :: (← ICMP.handlePacket p packet payload payloadSize)
    else if proto = ipv4ProtocolUdp then return [.udp payload payloadSize]
    else if proto = ipv4ProtocolTcp then
      return .tcp payload payloadSize :: (← TCP.handlePacket h p packet payload payloadSize)
    else return []
  else return []

end IPV4

/-! ## Ethernet -/

/-- `Ethernet::handle_packet`. -/
def Ethernet.handlePacket (h : Host) (p : List Byte) : Except NetFault (List Handed) :=
  if p.length < ethernetHeaderSize then .ok []
  else do
    let type ← load16 p 12
    if switch16 type = ethertypeArp then return [.arp ethernetHeaderSize]
    else if switch16 type = ethertypeIpv4 then IPV4.handlePacket h p ethernetHeaderSize
    else return []

/-- What becomes of a frame. -/
def EthernetFrame.handle (f : EthernetFrame) (h : Host) : Except NetFault (List Handed) :=
  Ethernet.handlePacket h f.bytes

end BrebOS

import BrebOS.Network.ARP
import BrebOS.Lib.Loop

/-!
# Answers of the DHCP server

`DHCP.cpp`, how a packet of the server is recognised and what is taken from its acknowledgement, and of
`Network.cpp` what happens once the address is known.

Each loop over the options goes on by two bytes or more with each turn, so that as many turns as the packet
has bytes, or as the length field says, are enough for it.
-/

namespace BrebOS

/-- `DHCP_MAGIC_COOKIE`. -/
def dhcpMagicCookie : BitVec 32 := 0x63825363

/-- `BOOT_REPLY`. -/
def bootReply : Byte := 2

/-- `DHCP_OFFER`. -/
def dhcpOffer : Byte := 2

/-- `DHCP_ACK`. -/
def dhcpAck : Byte := 5

/-- `DHCP_SRC_PORT`, the port of the client. -/
def dhcpSrcPort : BitVec 16 := 68

/-- `DHCP_DST_PORT`, the port of the server. -/
def dhcpDstPort : BitVec 16 := 67

/-- `DHCP_OPT_PAD`, which no function of `DHCP` looks for. -/
def dhcpOptPad : Byte := 0

/-- `DHCP_OPT_SUBNET_MASK`. -/
def dhcpOptSubnetMask : Byte := 1

/-- `DHCP_OPT_ROUTER`. -/
def dhcpOptRouter : Byte := 3

/-- `DHCP_OPT_MSG_TYPE`. -/
def dhcpOptMsgType : Byte := 53

/-- `DHCP_OPT_END`. -/
def dhcpOptEnd : Byte := 255

/-- `sizeof(packet_t)`, where the options start. -/
def dhcpPacketSize : ℕ := 240

/-- `sizeof(option_t)`, the code of an option and its length. -/
def dhcpOptionSize : ℕ := 2

/-- Where `yiaddr` stands. -/
def dhcpYiaddr : ℕ := 16

/-- Where `magic_cookie` stands. -/
def dhcpMagicCookieOffset : ℕ := 236

/-- `Network::on_ip_received`.  The address of the gateway is read where the pointer leads. -/
def Network.onIpReceived (ip : IP) (gatewayIp : Except NetFault IP) (n : Network) :
    Except NetFault Network := do
  let n := { n with ip := ip }
  let gatewayIp ← gatewayIp
  let n := { n with gatewayIp := gatewayIp }
  -- `ARP::resolve_gateway_mac`
  return n.resolveMac n.gatewayIp

namespace DHCP

/-- `packet->header.length`: the field is used as it stands in the packet. -/
def rawLength (packet : UDPPacket) : ℕ := (switch16 packet.length).toNat

/-- The loop of `is_dhcp_offer` and `is_dhcp_ack`. -/
def findMsgType (p : List Byte) (length : ℕ) : ℕ → ℕ → Except NetFault (Option ℕ)
  | 0, _ => .error .endless
  | fuel + 1, opt =>
      if opt + dhcpOptionSize > length then .ok none
      else do
        let code ← readByte p opt
        if code = dhcpOptMsgType then return some opt
        else
          let len ← readByte p (opt + 1)
          findMsgType p length fuel (opt + len.toNat + dhcpOptionSize)

/-- The two functions differ in the message they look for. -/
def isDhcp (type : Byte) (packet : UDPPacket) : Except NetFault Bool := do
  match ← findMsgType packet.payload (rawLength packet) (rawLength packet + 1) dhcpPacketSize with
  | none => return false
  | some opt =>
      let data ← readByte packet.payload (opt + dhcpOptionSize)
      return data == type

/-- `DHCP::is_dhcp_offer`. -/
def isDhcpOffer : UDPPacket → Except NetFault Bool := isDhcp dhcpOffer

/-- `DHCP::is_dhcp_ack`. -/
def isDhcpAck : UDPPacket → Except NetFault Bool := isDhcp dhcpAck

/-- `DHCP::packet_valid`. -/
def packetValid (packet : UDPPacket) : Except NetFault Byte :=
  if packet.srcPort ≠ dhcpDstPort ∨ packet.dstPort ≠ dhcpSrcPort then .ok 0
  else if rawLength packet < dhcpPacketSize then .ok 0
  else do
    let op ← readByte packet.payload 0
    if op ≠ bootReply then return 0
    else
      let magicCookie ← load32 packet.payload dhcpMagicCookieOffset
      if magicCookie ≠ switch32 dhcpMagicCookie then return 0
      else if ← isDhcpOffer packet then return dhcpOffer
      else if ← isDhcpAck packet then return dhcpAck
      else return 0

/-- The loop of `handle_ack`, with `gateway_ip`. -/
def readOptions (p : List Byte) : ℕ → ℕ → Option ℕ → Network → Except NetFault (Option ℕ × Network)
  | 0, _, _, _ => .error .endless
  | fuel + 1, opt, gatewayIp, n => do
      let code ← readByte p opt
      if code = dhcpOptEnd then return (gatewayIp, n)
      else
        let gatewayIp := if code = dhcpOptRouter then some (opt + dhcpOptionSize) else gatewayIp
        let n ←
          if code = dhcpOptSubnetMask then (do
            let mask ← load32 p (opt + dhcpOptionSize)
            return { n with subnetMask := mask } : Except NetFault Network)
          else pure n
        let len ← readByte p (opt + 1)
        readOptions p fuel (opt + len.toNat + dhcpOptionSize) gatewayIp n

/-- What stands at `gateway_ip`. -/
def readGateway (p : List Byte) : Option ℕ → Except NetFault IP
  | none => .error .nullPointer
  | some i => load32 p i

/-- `DHCP::handle_ack`. -/
def handleAck (p : List Byte) (n : Network) : Except NetFault Network := do
  let (gatewayIp, n) ← readOptions p (p.length + 1) dhcpPacketSize none n
  let yiaddr ← load32 p dhcpYiaddr
  n.onIpReceived yiaddr (readGateway p gatewayIp)

end DHCP

end BrebOS

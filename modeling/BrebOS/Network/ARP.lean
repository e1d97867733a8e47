import BrebOS.Network.Defs
import BrebOS.Lib.Run

/-!
# Address resolution

`ARP.cpp`, and of `Network.cpp` the sending of a packet and what the answer of the gateway does.  A packet
without a destination whose address is in the subnet waits in `pending_queue` until its receiver answers.

Addresses are words that hold their bytes in the order of memory, as the code loads them.
-/

namespace BrebOS

abbrev Mac := BitVec 48

abbrev IP := BitVec 32

/-- `ARP_PENDING_QUEUE_SIZE`. -/
def arpPendingQueueSize : ℕ := 10

/-- `ARP_CACHE_SIZE`. -/
def arpCacheSize : ℕ := 10

/-- `ARP_REQUEST`. -/
def arpRequest : BitVec 16 := 1

/-- `ARP_REPLY`. -/
def arpReply : BitVec 16 := 2

/-- `Network::broadcast_mac`. -/
def broadcastMac : Mac := 0xffffffffffff

/-- `TP::server_ip`. -/
def timeServerIp : IP := 0x0661a384

/-- `ARP::packet`, its opcode in host order.  The hardware and protocol types are the same in every
packet that the kernel writes, and it does not read them. -/
structure ArpPacket where
  opcode : BitVec 16
  srchw : Mac
  srcpr : IP
  dsthw : Mac
  dstpr : IP
  deriving DecidableEq, Repr

/-- What an Ethernet packet carries. -/
inductive EthernetPayload
  | arp (packet : ArpPacket)
  /-- An IP datagram, by its destination and what stands in it besides. -/
  | ipv4 (daddr : IP) (rest : List Byte)
  deriving DecidableEq, Repr

/-- The bytes at which the header of a datagram has its destination, whatever they are. -/
def EthernetPayload.daddr : EthernetPayload → IP
  | .arp packet => (packet.srcpr >>> 16) ||| ((packet.dsthw.setWidth 16).setWidth 32 <<< 16)
  | .ipv4 daddr _ => daddr

/-- An Ethernet packet to be sent. -/
structure Frame where
  dest : Mac
  src : Mac
  payload : EthernetPayload
  deriving DecidableEq, Repr

/-- The addresses of `Network`, the tables of `ARP`, and what was handed to the network card. -/
structure Network where
  ip : IP := 0
  subnetMask : IP := 0
  gatewayIp : IP := 0
  mac : Mac := broadcastMac
  gatewayMac : Mac := 0
  pendingQueue : List (Option Frame) := List.replicate arpPendingQueueSize none
  pendingQueueHead : ℕ := 0
  cache : List (IP × Mac) := List.replicate arpCacheSize (0, 0)
  cacheHead : ℕ := 0
  sent : List Frame := []
  deriving DecidableEq, Repr

namespace Network

/-- `IPV4::address_is_in_subnet`. -/
def addressIsInSubnet (n : Network) (address : IP) : Bool :=
  address &&& n.subnetMask == n.ip &&& n.subnetMask

/-- `E1000::sendPacket`. -/
def nicSendPacket (f : Frame) (n : Network) : Network := { n with sent := n.sent ++ [f] }

/-- The packet that `ARP::resolve_mac` writes. -/
def resolveMacFrame (n : Network) (ip : IP) : Frame :=
  ⟨broadcastMac, n.mac, .arp ⟨arpRequest, n.mac, n.ip, broadcastMac, ip⟩⟩

/-- `ARP::resolve_mac`.  Its packet has a destination, so `send_packet` hands it on. -/
def resolveMac (ip : IP) (n : Network) : Network := n.nicSendPacket (n.resolveMacFrame ip)

/-- `ARP::resolve_and_send`. -/
def resolveAndSend (f : Frame) (n : Network) : Network :=
  resolveMac f.payload.daddr { n with
    pendingQueue := n.pendingQueue.set n.pendingQueueHead (some f)
    pendingQueueHead := (n.pendingQueueHead + 1) % arpPendingQueueSize }

/-- `Network::send_packet`. -/
def sendPacket (f : Frame) (n : Network) : Network :=
  if f.dest = 0 then
    if n.addressIsInSubnet f.payload.daddr then n.resolveAndSend f
    else n.nicSendPacket { f with dest := n.gatewayMac }
  else n.nicSendPacket f

/-- `TP::send_request`, with the bytes of its datagram. -/
def timeRequest (n : Network) : Frame := ⟨n.gatewayMac, n.mac, .ipv4 timeServerIp []⟩

/-- `Network::on_gateway_mac_received`. -/
def onGatewayMacReceived (mac : Mac) (n : Network) : Network :=
  let n := { n with gatewayMac := mac }
  n.sendPacket n.timeRequest

/-- `ARP::is_valid`.  Both its tests ask for our own address. -/
def isValid (n : Network) (packet : ArpPacket) : Bool := packet.dstpr == n.ip || packet.dstpr == n.ip

/-- What `ARP::handle_packet` does with a reply before it looks at the packets that wait. -/
def learn (packet : ArpPacket) (n : Network) : Network :=
  let n := { n with
    cache := n.cache.set n.cacheHead (packet.srcpr, packet.srchw)
    cacheHead := (n.cacheHead + 1) % arpCacheSize }
  if packet.srcpr = n.gatewayIp then n.onGatewayMacReceived packet.srchw else n

/-- One turn of the loop over the packets that wait. -/
def sendPending (packet : ArpPacket) (n : Network) (i : ℕ) : Network :=
  match n.pendingQueue[i]? with
  | some (some f) =>
      if f.payload.daddr = packet.srcpr then
        let n := n.sendPacket { f with dest := packet.srchw }
        { n with pendingQueue := List.replicate arpPendingQueueSize none }
      else n
  | _ => n

/-- `ARP::handle_packet`; `src` is the source of the Ethernet packet it came in. -/
def handlePacket (packet : ArpPacket) (src : Mac) (n : Network) : Network :=
  if !n.isValid packet then n
  else if packet.opcode = arpRequest then
    n.sendPacket ⟨src, n.mac, .arp ⟨arpReply, n.mac, n.ip, packet.srchw, packet.srcpr⟩⟩
  else (List.range arpPendingQueueSize).foldl (sendPending packet) (n.learn packet)

/-- `ARP::get_mac`. -/
def getMac (n : Network) (ip : IP) : Mac :=
  (((List.range arpCacheSize).map fun i =>
    n.cache.getD ((n.cacheHead + i) % arpCacheSize) (0, 0)).find? (·.1 == ip)).elim 0 (·.2)

end Network

/-- What happens to the network. -/
inductive NetworkOp
  /-- `Network::send_packet`. -/
  | send (f : Frame)
  /-- An ARP packet arrives. -/
  | receive (packet : ArpPacket) (src : Mac)
  deriving DecidableEq, Repr

/-- Nothing of this can fail. -/
def Network.step (n : Network) : NetworkOp → Except NetFault Network
  | .send f => .ok (n.sendPacket f)
  | .receive packet src => .ok (n.handlePacket packet src)

end BrebOS

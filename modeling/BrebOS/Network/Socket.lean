import BrebOS.Network.Defs
import BrebOS.Lib.Loop
import BrebOS.Lib.Run

/-!
# TCP sockets

`Socket.cpp` and the part of `TCP.cpp` that writes its packets.  A connection is a socket together with
what it has done to the outside: the segments it sent, the names it asked for, and the calls of its
listener.

The buffers that `send_data` takes are deleted once they are sent.  A connection keeps the addresses of
those that are not, and sending one that was deleted is a fault.
-/

namespace BrebOS

/-- `TCP::State`. -/
inductive TCPState
  | listen
  | synSent
  | synReceived
  | established
  | finWait1
  | finWait2
  | closeWait
  | closing
  | lastAck
  | timeWait
  | closed
  deriving DecidableEq, Repr

/-! ## Flags -/

/-- `TCP_FLAG_FIN`. -/
def tcpFlagFin : BitVec 8 := 0x01

/-- `TCP_FLAG_SYN`. -/
def tcpFlagSyn : BitVec 8 := 0x02

/-- `TCP_FLAG_RST`. -/
def tcpFlagRst : BitVec 8 := 0x04

/-- `TCP_FLAG_PSH`. -/
def tcpFlagPsh : BitVec 8 := 0x08

/-- `TCP_FLAG_ACK`. -/
def tcpFlagAck : BitVec 8 := 0x10

/-- `TCP_FLAG_NS | TCP_FLAG_CWR | TCP_FLAG_URG`.  The flags of a header are a byte, so `TCP_FLAG_NS`
is never among them. -/
def tcpFlagsNotHandled : BitVec 16 := 0x100 ||| 0x80 ||| 0x20

/-- A segment, its header as far as sockets read or write it.  The numbers are in host order. -/
structure TCPSegment where
  seqNum : BitVec 32
  ackNum : BitVec 32
  flags : BitVec 8
  payload : List Byte := []
  deriving DecidableEq, Repr

namespace TCPSegment

/-- `flags & flag`. -/
def has (seg : TCPSegment) (flag : BitVec 8) : Bool := seg.flags &&& flag != 0

/-- The first test of `Socket::handle_packet`. -/
def notHandled (seg : TCPSegment) : Bool := seg.flags.setWidth 16 &&& tcpFlagsNotHandled != 0

end TCPSegment

/-- A buffer of the heap and what its owner wrote there. -/
structure Buffer where
  addr : ℕ
  bytes : List Byte
  deriving DecidableEq, Repr

/-- `Socket`. -/
structure Socket where
  hostname : Option String := none
  peerPort : BitVec 16 := 80
  /-- The four bytes of the address; it is null until the name of the peer is resolved. -/
  peerIp : BitVec 32 := 0
  state : TCPState := .closed
  seqNum : BitVec 32 := 0
  ackNum : BitVec 32 := 0
  listener : Bool := true
  /-- The data that waits for the handshake; null if there was none. -/
  startPacket : Option Buffer := none
  deriving DecidableEq, Repr

/-- What a socket does to the outside. -/
inductive SocketEvent
  /-- `Network::send_packet`. -/
  | sent (seg : TCPSegment)
  /-- `DNS::resolve_hostname`. -/
  | query (hostname : Option String)
  /-- `TCP_listener::on_data_received`. -/
  | data (payload : List Byte)
  /-- `TCP_listener::on_connection_terminated`. -/
  | terminated (errorMessage : Option String)
  deriving DecidableEq, Repr

/-- A socket, the buffers it was given that are not deleted, and what it has done. -/
structure Connection where
  socket : Socket
  buffers : List ℕ := []
  events : List SocketEvent := []
  deriving DecidableEq, Repr

namespace Connection

def log (c : Connection) (e : SocketEvent) : Connection := { c with events := c.events ++ [e] }

/-- `TCP::write_header`. -/
def writeHeader (s : Socket) (flags : BitVec 8) (data : List Byte) : TCPSegment :=
  ⟨s.seqNum, s.ackNum, flags, data⟩

/-- A header with its flags is written for the socket and sent. -/
def sendHeader (c : Connection) (flags : BitVec 8) : Connection :=
  c.log (.sent (writeHeader c.socket flags []))

/-- `Socket::close`. -/
def close (errorMessage : Option String) (c : Connection) : Connection :=
  let c := { c with socket := { c.socket with state := .closed } }
  if c.socket.listener then c.log (.terminated errorMessage) else c

/-- The number that comes after a segment; SYN and FIN consume a sequence number. -/
def nextNum (seg : TCPSegment) : BitVec 32 :=
  let ackNum := seg.seqNum + BitVec.ofNat 32 seg.payload.length
  if seg.has (tcpFlagSyn ||| tcpFlagFin) then ackNum + 1 else ackNum

/-- The flags of `TCP::write_ack_header`. -/
def ackFlags (fin : Bool) : BitVec 8 := if fin then tcpFlagAck ||| tcpFlagFin else tcpFlagAck

/-- `Socket::acknowledge` with `TCP::write_ack_header`, and the sending of what they write. -/
def acknowledge (seg : TCPSegment) (fin : Bool) (c : Connection) : Connection :=
  sendHeader { c with socket := { c.socket with ackNum := nextNum seg } } (ackFlags fin)

/-- `Socket::initialize`. -/
def initialize_ (c : Connection) : Connection :=
  sendHeader { c with socket := { c.socket with state := .synSent } } tcpFlagSyn

/-- `TCP::send_data`, which reads the buffer, and its deletion. -/
def transmit (data : Option Buffer) (c : Connection) : Except NetFault Connection :=
  match data with
  | none => .ok (c.sendHeader (tcpFlagPsh ||| tcpFlagAck))
  | some b =>
      if b.addr ∈ c.buffers then
        let c' := c.log (.sent (writeHeader c.socket (tcpFlagPsh ||| tcpFlagAck) b.bytes))
        let seqNum := c.socket.seqNum + BitVec.ofNat 32 b.bytes.length
        .ok { c' with
          socket := { c.socket with seqNum }
          buffers := c.buffers.erase b.addr }
      else .error .released

/-- `Socket::send_data`. -/
def sendData (data : Option Buffer) (c : Connection) : Except NetFault Connection :=
  if c.socket.state = .closed then
    let c := { c with socket := { c.socket with startPacket := data } }
    if c.socket.peerIp = 0 then .ok (c.log (.query c.socket.hostname)) else .ok c.initialize_
  else c.transmit data

/-- `Socket::on_hostname_resolved`. -/
def onHostnameResolved (peerIp : BitVec 32) (c : Connection) : Except NetFault Connection :=
  sendData c.socket.startPacket { c with socket := { c.socket with peerIp } }

/-- `TCP::send_fin_ack`. -/
def sendFinAck (c : Connection) : Connection :=
  let c' := c.sendHeader (tcpFlagFin ||| tcpFlagAck)
  { c' with socket := { c.socket with seqNum := c.socket.seqNum + 1, state := .finWait1 } }

/-- `%d.%d.%d.%d`. -/
def printIp (ip : BitVec 32) : String :=
  let byte (i : ℕ) : String := toString ((ip >>> (8 * i)) &&& 0xff).toNat
  byte 0 ++ "." ++ byte 1 ++ "." ++ byte 2 ++ "." ++ byte 3

/-- The response to our SYN is acknowledged, and the connection is established. -/
def establish (seg : TCPSegment) (c : Connection) : Connection :=
  let c := { c with socket := { c.socket with seqNum := c.socket.seqNum + 1 } }
  let c := c.acknowledge seg false
  { c with socket := { c.socket with state := .established } }

/-- The branch of `Socket::handle_packet` for the response to our SYN. -/
def synResponse (seg : TCPSegment) (c : Connection) : Except NetFault Connection :=
  -- Now that connection is established, send the first packet
  (c.establish seg).sendData (c.establish seg).socket.startPacket

/-- The branch of `Socket::handle_packet` for an established connection. -/
def receive (seg : TCPSegment) (c : Connection) : Connection :=
  let fin := seg.has tcpFlagFin
  if seg.payload ≠ [] ∨ fin then
    let c := c.acknowledge seg fin
    let c := if fin then { c with socket := { c.socket with state := .closeWait } } else c
    if c.socket.listener && !seg.payload.isEmpty then c.log (.data seg.payload) else c
  else c

/-- `Socket::handle_packet`. -/
def handlePacket (seg : TCPSegment) (c : Connection) : Except NetFault Connection :=
  if seg.notHandled then .ok (c.sendHeader tcpFlagRst)
  -- `flags & TCP_FLAG_SYN && flags && TCP_FLAG_ACK`
  else if seg.has tcpFlagSyn && seg.flags != 0 && tcpFlagAck != 0 && c.socket.state == .synSent then
    c.synResponse seg
  else if seg.flags == tcpFlagAck && c.socket.state == .closeWait then .ok (c.close none)
  else if seg.has tcpFlagFin && seg.has tcpFlagAck && c.socket.state == .finWait1 then
    .ok ((c.acknowledge seg false).close none)
  else if seg.flags == tcpFlagRst ||| tcpFlagAck && c.socket.state == .synSent then
    .ok (c.close (some ("TCP handshake with " ++ printIp c.socket.peerIp ++ " on port " ++
      toString c.socket.peerPort.toNat ++ " failed")))
  else if seg.has tcpFlagAck && c.socket.state == .established then .ok (c.receive seg)
  else if seg.has tcpFlagRst then .ok (c.close (some "Peer closed connection"))
  else
    .ok ((c.sendHeader tcpFlagRst).close (some ("Unknown TCP packet received. Flags: " ++
      String.ofList (Nat.toDigits 16 seg.flags.toNat))))

end Connection

/-- What happens to a socket. -/
inductive SocketOp
  /-- A segment arrives. -/
  | segment (seg : TCPSegment)
  /-- `Socket::send_data`, with a buffer of the caller's. -/
  | sendData (b : Buffer)
  /-- `TCP::send_fin_ack`. -/
  | sendFinAck
  /-- `Socket::on_hostname_resolved`. -/
  | onHostnameResolved (peerIp : BitVec 32)
  /-- `Socket::close`, by the listener. -/
  | close (errorMessage : Option String)
  deriving DecidableEq, Repr

namespace Connection

def step (c : Connection) : SocketOp → Except NetFault Connection
  | .segment seg => c.handlePacket seg
  | .sendData b => sendData (some b) { c with buffers := b.addr :: c.buffers }
  | .sendFinAck => .ok c.sendFinAck
  | .onHostnameResolved peerIp => c.onHostnameResolved peerIp
  | .close errorMessage => .ok (c.close errorMessage)

/-! ## What a step does -/

section Fields

variable (c : Connection)

@[simp] lemma log_socket (e : SocketEvent) : (c.log e).socket = c.socket := rfl

@[simp] lemma log_buffers (e : SocketEvent) : (c.log e).buffers = c.buffers := rfl

@[simp] lemma log_events (e : SocketEvent) : (c.log e).events = c.events ++ [e] := rfl

@[simp] lemma sendHeader_socket (flags : BitVec 8) : (c.sendHeader flags).socket = c.socket := rfl

@[simp] lemma sendHeader_buffers (flags : BitVec 8) : (c.sendHeader flags).buffers = c.buffers := rfl

@[simp] lemma sendHeader_events (flags : BitVec 8) :
    (c.sendHeader flags).events = c.events ++ [.sent (writeHeader c.socket flags [])] := rfl

@[simp] lemma close_socket (msg : Option String) :
    (c.close msg).socket = { c.socket with state := .closed } := by
  simp only [close]
  split <;> rfl

@[simp] lemma close_buffers (msg : Option String) : (c.close msg).buffers = c.buffers := by
  simp only [close]
  split <;> rfl

lemma close_events (msg : Option String) : (c.close msg).events =
    c.events ++ if c.socket.listener then [.terminated msg] else [] := by
  simp only [close]
  split <;> simp_all

end Fields

lemma receive_spec (seg : TCPSegment) (c : Connection) :
    seg.payload = [] ∧ seg.has tcpFlagFin = false ∧ c.receive seg = c ∨
    (seg.payload ≠ [] ∨ seg.has tcpFlagFin) ∧
      (c.receive seg).socket = { c.socket with
        ackNum := nextNum seg
        state := if seg.has tcpFlagFin then .closeWait else c.socket.state } ∧
      ∃ s, (c.receive seg).events = c.events ++
        ([.sent (writeHeader s (ackFlags (seg.has tcpFlagFin)) [])] ++
          if c.socket.listener && !seg.payload.isEmpty then [.data seg.payload] else []) := by
  simp only [receive]
  by_cases h : seg.payload ≠ [] ∨ seg.has tcpFlagFin
  · rw [if_pos h]
    refine .inr ⟨h, ?_, { c.socket with ackNum := nextNum seg }, ?_⟩
    · split <;> split <;> simp_all [acknowledge]
    · split <;> split <;> simp_all [acknowledge]
  · rw [if_neg h]
    simp only [not_or, not_not, Bool.not_eq_true] at h
    exact .inl ⟨h.1, h.2, rfl⟩

/-- What `handle_packet` can make of a segment. -/
inductive Handled (seg : TCPSegment) (c : Connection) : Except NetFault Connection → Prop
  | reset : seg.notHandled → Handled seg c (.ok (c.sendHeader tcpFlagRst))
  | opened : seg.notHandled = false → seg.has tcpFlagSyn → c.socket.state = .synSent →
      Handled seg c (c.synResponse seg)
  | ended : c.socket.state = .finWait1 → Handled seg c (.ok ((c.acknowledge seg false).close none))
  | received : seg.has tcpFlagAck → c.socket.state = .established →
      Handled seg c (.ok (c.receive seg))
  | closed (msg : Option String) : Handled seg c (.ok (c.close msg))
  | refused (msg : Option String) : Handled seg c (.ok ((c.sendHeader tcpFlagRst).close msg))

lemma handlePacket_handled (seg : TCPSegment) (c : Connection) :
    Handled seg c (c.handlePacket seg) := by
  simp only [handlePacket]
  split
  case isTrue h => exact .reset h
  case isFalse hflags =>
    split
    case isTrue h =>
      simp only [Bool.and_eq_true, beq_iff_eq] at h
      exact .opened (by simpa using hflags) h.1.1.1 h.2
    case isFalse =>
      split
      case isTrue => exact .closed _
      case isFalse =>
        split
        case isTrue h =>
          simp only [Bool.and_eq_true, beq_iff_eq] at h
          exact .ended h.2
        case isFalse =>
          split
          case isTrue => exact .closed _
          case isFalse =>
            split
            case isTrue h =>
              simp only [Bool.and_eq_true, beq_iff_eq] at h
              exact .received h.1 h.2
            case isFalse =>
              split
              · exact .closed _
              · exact .refused _

lemma sendData_queues (data : Option Buffer) {c : Connection} (h : c.socket.state = .closed) :
    ∃ c', c.sendData data = .ok c' ∧ c'.socket.startPacket = data ∧ c'.buffers = c.buffers ∧
      (c'.socket.state = .closed ∧ c'.events = c.events ++ [.query c.socket.hostname] ∨
        c'.socket.state = .synSent ∧
          c'.events = c.events ++ [.sent (writeHeader c.socket tcpFlagSyn [])]) := by
  simp only [sendData, h, if_true]
  split
  · exact ⟨_, rfl, rfl, rfl, .inl ⟨rfl, rfl⟩⟩
  · exact ⟨_, rfl, rfl, rfl, .inr ⟨rfl, rfl⟩⟩

lemma sendData_transmits {b : Buffer} {c : Connection} (h : c.socket.state ≠ .closed)
    (hb : b.addr ∈ c.buffers) :
    ∃ c' seqNum, c.sendData (some b) = .ok c' ∧ c'.socket = { c.socket with seqNum } ∧
      c'.buffers = c.buffers.erase b.addr ∧ c'.events = c.events ++
        [.sent (writeHeader c.socket (tcpFlagPsh ||| tcpFlagAck) b.bytes)] := by
  simp only [sendData, h, if_false, transmit, hb, if_true]
  exact ⟨_, _, rfl, rfl, rfl, rfl⟩

/-! ## What is read off the events -/

/-- The bytes that events pass to the listener. -/
def deliveredBy (es : List SocketEvent) : List Byte :=
  es.flatMap fun
    | .data payload => payload
    | _ => []

/-- The bytes passed to the listener. -/
def delivered (c : Connection) : List Byte := deliveredBy c.events

lemma delivered_of_append {c c' : Connection} {new : List SocketEvent}
    (h : c'.events = c.events ++ new) : c'.delivered = c.delivered ++ deliveredBy new := by
  rw [delivered, h, deliveredBy, List.flatMap_append]
  rfl

end Connection

end BrebOS

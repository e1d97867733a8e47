import BrebOS.Network.Frame
import BrebOS.Lib.Succeeds

/-!
# The bounds of a frame

What a frame must be for all of its parsing to stay inside it, and for `IPV4::packet_valid` to take whole
datagrams only.  The fields of the headers are named here as they are on the wire, most significant byte
first, and the code that reads them is brought down to them by the rules for `Succeeds`.
-/

namespace BrebOS

/-! ## Reading -/

/-- A word of a packet as it is loaded, its first byte lowest. -/
def loadedAt (p : List Byte) (i : ℕ) : BitVec 16 := p.getD (i + 1) 0 ++ p.getD i 0

lemma switch16_loadedAt (p : List Byte) (i : ℕ) : switch16 (loadedAt p i) = wordAt p i :=
  switch16_append _ _

section Reading

variable {p : List Byte} {i n a b : ℕ}

@[simp] lemma succeeds_readByte {Q : Byte → Prop} :
    Succeeds (readByte p i) Q ↔ i < p.length ∧ Q (p.getD i 0) := by
  rw [readByte]
  rcases lt_or_ge i p.length with h | h
  · simp [h]
  · simp [h.not_gt]

@[simp] lemma succeeds_load16 {Q : BitVec 16 → Prop} :
    Succeeds (load16 p i) Q ↔ i + 2 ≤ p.length ∧ Q (loadedAt p i) := by
  simp only [load16, succeeds_bind, succeeds_readByte, succeeds_pure, ← and_assoc]
  refine and_congr_left' ?_
  omega

@[simp] lemma succeeds_load32 {Q : BitVec 32 → Prop} :
    Succeeds (load32 p i) Q ↔ i + 4 ≤ p.length ∧ Q (addressAt p i) := by
  simp only [load32, succeeds_bind, succeeds_load16, succeeds_pure, ← and_assoc]
  refine and_congr (by omega) ?_
  rfl

@[simp] lemma succeeds_readBytes {Q : List Byte → Prop} :
    Succeeds (readBytes p i n) Q ↔ i + n ≤ p.length ∧ Q ((p.drop i).take n) := by
  rw [readBytes]
  split <;> simp_all

@[simp] lemma succeeds_subSize {Q : ℕ → Prop} : Succeeds (subSize a b) Q ↔ b ≤ a ∧ Q (a - b) := by
  rw [subSize]
  split <;> simp_all

end Reading

/-! ## The fields of a frame -/

/-- What is handed on lies in a frame of `n` bytes. -/
def Handed.InFrame (n : ℕ) : Handed → Prop
  | .arp packet => packet ≤ n
  | .icmp place size | .udp place size | .tcp place size | .reply place size | .data place size =>
      place + size ≤ n

namespace EthernetFrame

/-- All that is handed on lies in the frame. -/
def AllInFrame (f : EthernetFrame) (hs : List Handed) : Prop := ∀ x ∈ hs, x.InFrame f.bytes.length

section Fields

variable (f : EthernetFrame)

/-- The frame has a header, and an IPv4 packet is said to follow. -/
def IsIpv4 : Prop := 14 ≤ f.bytes.length ∧ wordAt f.bytes 12 = ethertypeIpv4

/-- The version is 4, and the header has no options. -/
def Plain : Prop := f.bytes.getD 14 0 >>> 4 = 4 ∧ f.bytes.getD 14 0 &&& 0xf = 5

/-- The total length of the datagram. -/
def totalLength : ℕ := (wordAt f.bytes 16).toNat

/-- The fragment offset. -/
def fragmentOffset : BitVec 16 := wordAt f.bytes 20 &&& 0x1fff

/-- The more-fragments bit. -/
def moreFragments : BitVec 16 := wordAt f.bytes 20 &&& 0x2000

/-- The bit before the one that forbids fragments. -/
def reserved : BitVec 16 := wordAt f.bytes 20 &&& 0x8000

/-- The protocol of the datagram. -/
def protocol : Byte := f.bytes.getD 23 0

/-- The header of the datagram. -/
def header : List Byte := (f.bytes.drop 14).take 20

/-- The destination of the datagram. -/
def destination : IP := addressAt f.bytes 30

/-- The port a segment is for. -/
def destPort : BitVec 16 := wordAt f.bytes 36

/-- The size of the header of a segment. -/
def dataOffset : ℕ := tcpHeaderSize (f.bytes.getD 46 0)

/-- The flags of a segment. -/
def flags : Byte := f.bytes.getD 47 0

end Fields

/-- The datagrams that `IPV4::packet_valid` takes: it tests the reserved bit for the more-fragments bit,
and does not look at the total length. -/
structure Taken (f : EthernetFrame) (ip : IP) : Prop where
  plain : f.Plain
  mine : f.destination = ip ∨ f.destination = broadcastIp
  first : f.fragmentOffset = 0
  unreserved : f.reserved = 0
  checked : checksum f.header = 0
  known : f.protocol = ipv4ProtocolIcmp ∨ f.protocol = ipv4ProtocolUdp ∨ f.protocol = ipv4ProtocolTcp

/-- The segments whose payload a socket measures. -/
def measures (s : Socket) (flags : Byte) : Bool :=
  !flagsNotHandled flags &&
    (hasFlag flags tcpFlagSyn && s.state == .synSent ||
      hasFlag flags tcpFlagFin && hasFlag flags tcpFlagAck && s.state == .finWait1 ||
      hasFlag flags tcpFlagAck && s.state == .established)

/-- The frame holds what is read of a segment, and a header that is subtracted fits in the segment. -/
def SegmentFits (f : EthernetFrame) (h : Host) : Prop :=
  38 ≤ f.bytes.length ∧
    match h.portUsed f.destPort with
    | none => 42 ≤ f.bytes.length
    | some s => 48 ≤ f.bytes.length ∧ (measures s f.flags → f.dataOffset ≤ f.totalLength - 20)

/-- The lengths and the flags of a frame are consistent, as far as they are used. -/
structure Consistent (f : EthernetFrame) (h : Host) : Prop where
  versioned : f.IsIpv4 → 15 ≤ f.bytes.length
  headed : f.IsIpv4 → f.Plain → 34 ≤ f.bytes.length
  whole : f.IsIpv4 → f.Taken h.ip → f.moreFragments = 0
  held : f.IsIpv4 → f.Taken h.ip → 20 ≤ f.totalLength ∧ 14 + f.totalLength ≤ f.bytes.length
  segment : f.IsIpv4 → f.Taken h.ip → f.protocol = ipv4ProtocolTcp → f.SegmentFits h

/-- Nothing is read outside the frame, all that is handed on lies in it, no size wraps, and only datagrams
that are whole are taken. -/
structure ParsedInside (f : EthernetFrame) (h : Host) : Prop where
  inside : Succeeds (f.handle h) f.AllInFrame
  whole : f.IsIpv4 → IPV4.packetValid h.ip f.bytes ethernetHeaderSize = .ok true →
    f.fragmentOffset = 0 ∧ f.moreFragments = 0 ∧ 20 ≤ f.totalLength

end EthernetFrame

/-! ## What the layers read -/

lemma switch16_switch16 (x : BitVec 16) : switch16 (switch16 x) = x := by
  apply BitVec.eq_of_getLsbD_eq
  intro i hi
  simp only [switch16, BitVec.getLsbD_or, BitVec.getLsbD_and, BitVec.getLsbD_ushiftRight,
    BitVec.getLsbD_shiftLeft]
  interval_cases i <;> simp

lemma switch16_and (x y : BitVec 16) : switch16 (x &&& y) = switch16 x &&& switch16 y := by
  apply BitVec.eq_of_getLsbD_eq
  intro i hi
  simp only [switch16, BitVec.getLsbD_or, BitVec.getLsbD_and, BitVec.getLsbD_ushiftRight,
    BitVec.getLsbD_shiftLeft]
  interval_cases i <;> simp

lemma loadedAt_and {p : List Byte} {i : ℕ} {mask : BitVec 16} :
    loadedAt p i &&& mask = 0 ↔ wordAt p i &&& switch16 mask = 0 := by
  rw [← switch16_loadedAt, ← switch16_and]
  constructor
  · intro h
    rw [h]
    rfl
  · intro h
    rw [← switch16_switch16 (loadedAt p i &&& mask), h]
    rfl

lemma getFragOffset_loadedAt {p : List Byte} {i : ℕ} :
    IPV4.getFragOffset (loadedAt p i) = 0 ↔ wordAt p i &&& 0x1fff = 0 := loadedAt_and

lemma getFlags_loadedAt {p : List Byte} {i : ℕ} :
    IPV4.getFlags (loadedAt p i) &&& ipv4FlagMoreFragments = 0 ↔ wordAt p i &&& 0x8000 = 0 := by
  have htwo (w : BitVec 16) (n : ℕ) (hn : n < 16) :
      w &&& BitVec.twoPow 16 n = 0 ↔ w.getLsbD n = false := by
    have hne : BitVec.twoPow 16 n ≠ 0 := by interval_cases n <;> decide
    rw [BitVec.and_twoPow]
    split <;> simp_all
  have hflag : ipv4FlagMoreFragments = BitVec.twoPow 16 2 := rfl
  have hbit : (0x80 : BitVec 16) = BitVec.twoPow 16 7 := rfl
  have hmask : (0x8000 : BitVec 16) = switch16 0x80 := rfl
  rw [hmask, ← loadedAt_and, hflag, hbit, htwo _ 2 (by omega), htwo _ 7 (by omega), IPV4.getFlags]
  simp

namespace EthernetFrame

variable {f : EthernetFrame} {h : Host}

lemma taken_iff {ip : IP} : f.Taken ip ↔
    f.Plain ∧ (f.destination = ip ∨ f.destination = broadcastIp) ∧ f.fragmentOffset = 0 ∧
      f.reserved = 0 ∧ checksum f.header = 0 ∧
      (f.protocol = ipv4ProtocolIcmp ∨ f.protocol = ipv4ProtocolUdp ∨ f.protocol = ipv4ProtocolTcp) :=
  ⟨fun ⟨h₁, h₂, h₃, h₄, h₅, h₆⟩ => ⟨h₁, h₂, h₃, h₄, h₅, h₆⟩,
    fun ⟨h₁, h₂, h₃, h₄, h₅, h₆⟩ => ⟨h₁, h₂, h₃, h₄, h₅, h₆⟩⟩

instance : Decidable f.Plain := inferInstanceAs (Decidable (_ ∧ _))

instance (ip : IP) : Decidable (f.Taken ip) := decidable_of_iff' _ taken_iff

lemma tests_iff {a b c d e : Prop} [Decidable a] [Decidable b] [Decidable c] [Decidable d] [Decidable e]
    {Q : Bool → Prop} {known : Bool} (hknown : known = decide e) :
    (if a then if ¬ b ∨ ¬ c then Q false else if d then Q known else Q false else Q false) ↔
      Q (decide (a ∧ b ∧ c ∧ d ∧ e)) := by
  by_cases ha : a <;> by_cases hb : b <;> by_cases hc : c <;> by_cases hd : d <;> simp [*]

lemma succeeds_packetValid {ip : IP} {Q : Bool → Prop} :
    Succeeds (IPV4.packetValid ip f.bytes ethernetHeaderSize) Q ↔
      14 < f.bytes.length ∧ (f.Plain → 34 ≤ f.bytes.length) ∧ Q (decide (f.Taken ip)) := by
  simp only [IPV4.packetValid, succeeds_bind, succeeds_readByte, succeeds_ite, succeeds_pure,
    succeeds_load32,
    succeeds_load16, succeeds_readBytes, ethernetHeaderSize, ipv4HeaderSize, ne_eq,
    getFragOffset_loadedAt, getFlags_loadedAt]
  by_cases hplain : f.Plain
  case neg =>
    have htaken : ¬ f.Taken ip := fun h => hplain h.plain
    have hfirst : ¬ IPV4.getVersion (f.bytes.getD 14 0) = 4 ∨
        ¬ IPV4.getIhl (f.bytes.getD 14 0) = ipv4DefaultIhl := not_and_or.mp hplain
    refine and_congr_right fun _ => ?_
    simp only [htaken, hplain, false_implies, true_and, decide_false]
    rcases hfirst with h | h
    · rw [if_pos h]
    · rw [if_pos h]
      split <;> rfl
  case pos =>
    have hversion : IPV4.getVersion (f.bytes.getD 14 0) = 4 := hplain.1
    have hihl : IPV4.getIhl (f.bytes.getD 14 0) = ipv4DefaultIhl := hplain.2
    have htaken : f.Taken ip ↔ (f.destination = ip ∨ f.destination = broadcastIp) ∧
        f.fragmentOffset = 0 ∧ f.reserved = 0 ∧ checksum f.header = 0 ∧
        (f.protocol = ipv4ProtocolIcmp ∨ f.protocol = ipv4ProtocolUdp ∨ f.protocol = ipv4ProtocolTcp) := by
      rw [taken_iff]
      exact and_iff_right hplain
    rcases lt_or_ge f.bytes.length 34 with hlen | hlen
    · simp only [hversion, hihl, hplain]
      simp
      omega
    · have h₁ : 14 < f.bytes.length := by omega
      have h₂ : 22 ≤ f.bytes.length := by omega
      have h₃ : 23 < f.bytes.length := by omega
      simp only [hversion, hihl, hlen, h₁, h₂, h₃, Nat.reduceAdd, not_true_eq_false, if_false,
        true_and, ite_not,
        implies_true, htaken, destination, fragmentOffset, reserved, header, protocol]
      exact tests_iff (by rw [Bool.eq_iff_iff]; simp [or_assoc])

@[simp] lemma allInFrame_nil : f.AllInFrame [] := by simp [AllInFrame]

@[simp] lemma allInFrame_cons {x : Handed} {hs : List Handed} :
    f.AllInFrame (x :: hs) ↔ x.InFrame f.bytes.length ∧ f.AllInFrame hs := by simp [AllInFrame]

lemma succeeds_replyAddress {Q : IP × List Byte → Prop} (hlen : 34 ≤ f.bytes.length) :
    Succeeds (replyAddress f.bytes 14) Q ↔ Q (addressAt f.bytes 26, (f.bytes.drop 6).take 6) := by
  have h₁ : 26 + 4 ≤ f.bytes.length := by omega
  have h₂ : 6 + 6 ≤ f.bytes.length := by omega
  simp only [replyAddress, succeeds_bind, succeeds_load32, succeeds_readBytes, succeeds_pure, Nat.reduceAdd,
    h₁, h₂, true_and]

lemma icmp_packetValid {size : ℕ} (hlen : 34 ≤ f.bytes.length) (hsize : 34 + size ≤ f.bytes.length) :
    Succeeds (ICMP.packetValid f.bytes 34 size) fun valid => valid = true → 4 ≤ size := by
  rw [ICMP.packetValid]
  split
  case isTrue => simp
  case isFalse h =>
    have hheader : 4 ≤ size := not_lt.mp h
    have h₁ : 34 < f.bytes.length := by omega
    have h₂ : 34 + 1 < f.bytes.length := by omega
    simp only [succeeds_bind, succeeds_readByte, succeeds_ite, succeeds_pure, succeeds_readBytes, h₁, h₂,
      hsize, hheader, implies_true, true_and, ite_self]

lemma icmp_inside {size : ℕ} (hlen : 34 ≤ f.bytes.length) (hsize : 34 + size ≤ f.bytes.length) :
    Succeeds (ICMP.handlePacket f.bytes 14 34 size) f.AllInFrame := by
  rw [ICMP.handlePacket, succeeds_bind]
  refine (icmp_packetValid hlen hsize).mono fun valid hvalid => ?_
  split
  case isTrue h =>
    have hheader := hvalid h
    simp only [succeeds_bind, succeeds_replyAddress hlen, succeeds_subSize, succeeds_pure, icmpPacketSize,
      allInFrame_cons, allInFrame_nil, and_true]
    refine ⟨hheader, ?_⟩
    show 34 + 4 + (size - 4) ≤ _
    omega
  case isFalse => simp

lemma succeeds_acknowledge {size : ℕ} {Q : Prop} (hlen : 48 ≤ f.bytes.length) :
    Succeeds (Socket.acknowledge f.bytes 34 size) (fun _ => Q) ↔ f.dataOffset ≤ size ∧ Q := by
  have h₁ : 46 < f.bytes.length := by omega
  have h₂ : 42 ≤ f.bytes.length := by omega
  have h₃ : 47 < f.bytes.length := by omega
  simp only [Socket.acknowledge, succeeds_bind, succeeds_readByte, succeeds_subSize, succeeds_load32,
    succeeds_pure, Nat.reduceAdd, h₁, h₂, h₃, true_and, dataOffset]

lemma receive_inside {s : Socket} {size : ℕ} (hlen : 48 ≤ f.bytes.length)
    (hsize : 34 + size ≤ f.bytes.length) :
    Succeeds (s.receive f.bytes 14 34 size f.flags) f.AllInFrame ↔ f.dataOffset ≤ size := by
  have h₁ : 46 < f.bytes.length := by omega
  simp only [Socket.receive, succeeds_bind, succeeds_readByte, succeeds_subSize, succeeds_ite,
    succeeds_pure,
    succeeds_replyAddress (show 34 ≤ f.bytes.length by omega), succeeds_acknowledge hlen,
    Nat.reduceAdd, h₁, true_and]
  refine and_iff_left_of_imp fun hheader => ?_
  have hdata : (Handed.data (34 + f.dataOffset) (size - f.dataOffset)).InFrame f.bytes.length := by
    show 34 + f.dataOffset + (size - f.dataOffset) ≤ _
    have : f.dataOffset ≤ size := hheader
    omega
  split
  · refine ⟨hheader, ?_⟩
    split
    · exact allInFrame_cons.mpr ⟨hdata, allInFrame_nil⟩
    · exact allInFrame_nil
  · exact allInFrame_nil

lemma syn_test (flags : Byte) :
    (hasFlag flags tcpFlagSyn && flags != 0 && tcpFlagAck != 0) = hasFlag flags tcpFlagSyn := by
  by_cases h : flags = 0
  · rw [h]
    rfl
  · have hack : (tcpFlagAck != 0) = true := rfl
    rw [bne_iff_ne.mpr h, hack, Bool.and_true, Bool.and_true]

lemma socket_inside {s : Socket} {size : ℕ} (hlen : 34 ≤ f.bytes.length)
    (hsize : 34 + size ≤ f.bytes.length) :
    Succeeds (s.handlePacket f.bytes 14 34 size) f.AllInFrame ↔
      48 ≤ f.bytes.length ∧ (measures s f.flags → f.dataOffset ≤ size) := by
  simp only [Socket.handlePacket, succeeds_bind, succeeds_readByte, succeeds_ite, succeeds_pure,
    succeeds_replyAddress hlen]
  rw [Nat.lt_iff_add_one_le]
  refine and_congr_right fun hflags => ?_
  have hget : f.bytes.getD 47 0 = f.flags := rfl
  simp only [succeeds_acknowledge hflags, allInFrame_nil, and_true, Nat.reduceAdd, ite_self, hget,
    receive_inside hflags hsize]
  simp only [measures, syn_test]
  generalize f.flags = flags
  split
  case isTrue h => simp [h]
  case isFalse hhandled =>
    split
    case isTrue hopen => simp [hhandled, hopen]
    case isFalse hopen =>
      split
      case isTrue h =>
        simp only [Bool.and_eq_true, beq_iff_eq] at h
        simp [h.2]
      case isFalse =>
        split
        case isTrue hend => simp [hhandled, hend]
        case isFalse hend =>
          split
          case isTrue h =>
            simp only [Bool.and_eq_true, beq_iff_eq] at h
            have hsyn : hasFlag (tcpFlagRst ||| tcpFlagAck) tcpFlagSyn = false := rfl
            simp [h.1, h.2, hsyn]
          case isFalse =>
            split
            case isTrue hreceive => simp [hhandled, hreceive]
            case isFalse hreceive => simp [hopen, hend, hreceive]

lemma tcp_inside (hlen : 34 ≤ f.bytes.length) (hsize : 14 + f.totalLength ≤ f.bytes.length)
    (hheader : 20 ≤ f.totalLength) :
    Succeeds (TCP.handlePacket h f.bytes 14 34 (f.totalLength - 20)) f.AllInFrame ↔ f.SegmentFits h := by
  have hsize' : 34 + (f.totalLength - 20) ≤ f.bytes.length := by omega
  simp only [TCP.handlePacket, SegmentFits, destPort, succeeds_bind, succeeds_load16, switch16_loadedAt,
    Nat.reduceAdd]
  refine and_congr_right fun _ => ?_
  cases h.portUsed (wordAt f.bytes 36) with
  | some s => exact socket_inside hlen hsize'
  | none =>
      have h₁ : 30 ≤ f.bytes.length := by omega
      have h₂ : 36 ≤ f.bytes.length := by omega
      simp only [succeeds_bind, succeeds_load32, succeeds_load16, succeeds_replyAddress hlen, succeeds_pure,
        allInFrame_nil, Nat.reduceAdd, h₁, h₂, true_and, and_true]

lemma ipv4_inside : Succeeds (IPV4.handlePacket h f.bytes ethernetHeaderSize) f.AllInFrame ↔
    14 < f.bytes.length ∧ (f.Plain → 34 ≤ f.bytes.length) ∧
      (f.Taken h.ip → 20 ≤ f.totalLength ∧ 14 + f.totalLength ≤ f.bytes.length ∧
        (f.protocol = ipv4ProtocolTcp → f.SegmentFits h)) := by
  rw [IPV4.handlePacket, succeeds_bind, succeeds_packetValid]
  refine and_congr_right fun h₁ => and_congr_right fun hplain => ?_
  by_cases htaken : f.Taken h.ip
  case neg => simp [htaken]
  case pos =>
    have hlen := hplain htaken.plain
    have h₂ : 18 ≤ f.bytes.length := by omega
    have h₃ : 23 < f.bytes.length := by omega
    have hihl : (IPV4.getIhl (f.bytes.getD 14 0)).toNat * 4 = 20 := by
      have : IPV4.getIhl (f.bytes.getD 14 0) = 5 := htaken.plain.2
      rw [this]
      rfl
    have hlength : (switch16 (loadedAt f.bytes 16)).toNat = f.totalLength := by
      rw [switch16_loadedAt]
      rfl
    have hproto : f.bytes.getD 23 0 = f.protocol := rfl
    simp only [htaken, decide_true, if_true, succeeds_bind, succeeds_readByte, succeeds_load16,
      succeeds_subSize,
      succeeds_ite, succeeds_pure, allInFrame_cons, allInFrame_nil, ethernetHeaderSize, ipv4HeaderSize,
      Nat.reduceAdd, hihl, hlength, hproto, h₁, h₂, h₃, true_and, forall_const, and_true]
    refine and_congr_right fun hheader => ?_
    have hframe : 34 + (f.totalLength - 20) ≤ f.bytes.length ↔ 14 + f.totalLength ≤ f.bytes.length := by
      omega
    have hicmp : ipv4ProtocolIcmp ≠ ipv4ProtocolTcp := by decide
    have hudp : ipv4ProtocolUdp ≠ ipv4ProtocolTcp := by decide
    rcases htaken.known with hp | hp | hp
    · rw [if_pos hp, succeeds_and_left, hp]
      simp only [hicmp, false_implies, and_true]
      refine (and_congr_left' hframe).trans (and_iff_left_of_imp fun hsize => ?_)
      exact icmp_inside hlen (hframe.mpr hsize)
    · rw [if_neg (hp ▸ by decide), if_pos hp, hp]
      simp only [hudp, false_implies, and_true]
      exact hframe
    · rw [if_neg (hp ▸ by decide), if_neg (hp ▸ by decide), if_pos hp, succeeds_and_left, hp]
      simp only [forall_const]
      refine (and_congr_left' hframe).trans (and_congr_right fun hsize => ?_)
      exact tcp_inside hlen hsize hheader

lemma handle_inside : Succeeds (f.handle h) f.AllInFrame ↔
    (f.IsIpv4 → Succeeds (IPV4.handlePacket h f.bytes ethernetHeaderSize) f.AllInFrame) := by
  rw [handle, Ethernet.handlePacket]
  by_cases hlen : f.bytes.length < ethernetHeaderSize
  case pos =>
    have hnot : ¬ f.IsIpv4 := fun hip => hlen.not_ge hip.1
    simp [hlen, hnot]
  case neg =>
    have hheader : 14 ≤ f.bytes.length := not_lt.mp hlen
    have hip : f.IsIpv4 ↔ wordAt f.bytes 12 = ethertypeIpv4 := and_iff_right hheader
    have harp : (Handed.arp ethernetHeaderSize).InFrame f.bytes.length := hheader
    simp only [hlen, if_false, succeeds_bind, succeeds_load16, hheader, Nat.reduceAdd, switch16_loadedAt,
      succeeds_ite, succeeds_pure, allInFrame_cons, allInFrame_nil, harp, true_and, and_true, hip]
    by_cases hv4 : wordAt f.bytes 12 = ethertypeIpv4
    · rw [hv4, if_neg (by decide), if_pos rfl]
      simp
    · simp [hv4]

lemma packetValid_iff {ip : IP} : IPV4.packetValid ip f.bytes ethernetHeaderSize = .ok true ↔
    14 < f.bytes.length ∧ (f.Plain → 34 ≤ f.bytes.length) ∧ f.Taken ip := by
  have hreturns : Succeeds (IPV4.packetValid ip f.bytes ethernetHeaderSize) (· = true) ↔
      IPV4.packetValid ip f.bytes ethernetHeaderSize = .ok true := by simp [Succeeds]
  rw [← hreturns, succeeds_packetValid, decide_eq_true_iff]

/-- The parsing of a frame stays inside it, and takes whole datagrams only, for the frames whose lengths
and flags are consistent. -/
theorem parsed_inside (f : EthernetFrame) (h : Host) : f.ParsedInside h ↔ f.Consistent h := by
  constructor
  · rintro ⟨hinside, hwhole⟩
    rw [handle_inside] at hinside
    have hparts : f.IsIpv4 → _ := fun hip => ipv4_inside.mp (hinside hip)
    have hvalid : f.IsIpv4 → f.Taken h.ip →
        IPV4.packetValid h.ip f.bytes ethernetHeaderSize = .ok true := fun hip htaken =>
      packetValid_iff.mpr ⟨(hparts hip).1, (hparts hip).2.1, htaken⟩
    exact {
      versioned := fun hip => (hparts hip).1
      headed := fun hip => (hparts hip).2.1
      whole := fun hip htaken => (hwhole hip (hvalid hip htaken)).2.1
      held := fun hip htaken => ⟨((hparts hip).2.2 htaken).1, ((hparts hip).2.2 htaken).2.1⟩
      segment := fun hip htaken => ((hparts hip).2.2 htaken).2.2 }
  · intro hc
    constructor
    · rw [handle_inside]
      intro hip
      refine ipv4_inside.mpr ⟨hc.versioned hip, hc.headed hip, fun htaken => ?_⟩
      exact ⟨(hc.held hip htaken).1, (hc.held hip htaken).2, hc.segment hip htaken⟩
    · intro hip hvalid
      obtain ⟨-, -, htaken⟩ := packetValid_iff.mp hvalid
      exact ⟨htaken.first, hc.whole hip htaken, (hc.held hip htaken).1⟩

/-- A frame of 60 bytes with a datagram that is said to have 1500. -/
def overlong : EthernetFrame where
  bytes := [0x52, 0x54, 0, 0x12, 0x34, 0x56, 0x52, 0x55, 10, 0, 2, 2, 8, 0,
      0x45, 0, 0x05, 0xdc, 0, 1, 0, 0, 0x40, 6, 0x5d, 0x0b, 10, 0, 2, 2, 10, 0, 2, 15,
      0, 80, 0xc0, 0, 0, 0, 0, 1, 0, 0, 0, 1, 0x50, 0x10, 0xff, 0xff, 0, 0, 0, 0] ++ List.replicate 6 0
  length_lt := by decide

/-- A host with an established connection on port 49152. -/
def connected : Host where
  ip := 0x0f02000a
  sockets := [(49152, { state := .established })]

/-- The listener is told of 1460 bytes, of which the frame has six. -/
theorem overlong_not_inside : ¬ overlong.ParsedInside connected := by
  rintro ⟨⟨hs, hok, hinside⟩, -⟩
  have hdata : overlong.handle connected = .ok [.tcp 34 1480, .data 54 1460] := by rfl
  rw [hdata, Except.ok.injEq] at hok
  rw [← hok, allInFrame_cons, allInFrame_cons] at hinside
  have hlong : 54 + 1460 ≤ overlong.bytes.length := hinside.2.1
  exact absurd hlong (by decide)

end EthernetFrame

end BrebOS

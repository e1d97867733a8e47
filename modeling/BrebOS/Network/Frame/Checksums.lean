import BrebOS.Lib.OnesComplement
import BrebOS.Lib.Succeeds
import BrebOS.Network.Frame

/-!
# The headers that are written

`IPV4.cpp`, `ICMP.cpp` and `TCP.cpp`, the functions that write the header of a packet to a buffer, and of
`Network.cpp` how two checksums are added.  A buffer is what its pointer leads to.
-/

namespace BrebOS

/-- `ICMP_ECHO_REPLY`. -/
def icmpEchoReply : Byte := 0

/-- `DEFAULT_TCP_WINDOW_SIZE`. -/
def defaultTcpWindowSize : BitVec 16 := 0xffff

/-- `sizeof(TCP::header_t)`. -/
def sizeofTcpHeader : ℕ := 20

/-- The bytes of a `uint16_t`. -/
def bytes16 (w : BitVec 16) : List Byte := [w.setWidth 8, (w >>> 8).setWidth 8]

/-- The bytes of a `uint32_t`. -/
def bytes32 (w : BitVec 32) : List Byte := bytes16 (w.setWidth 16) ++ bytes16 ((w >>> 16).setWidth 16)

/-- A `uint16_t` is written to a buffer. -/
def store16 (buf : List Byte) (i : ℕ) (w : BitVec 16) : Except NetFault (List Byte) :=
  writeBytes buf i (bytes16 w)

/-- A `uint32_t` is written to a buffer. -/
def store32 (buf : List Byte) (i : ℕ) (w : BitVec 32) : Except NetFault (List Byte) :=
  writeBytes buf i (bytes32 w)

/-- `Network::checksum_add`.  Here too two turns are enough. -/
def checksumAdd (checksum1 checksum2 : BitVec 16) : BitVec 16 :=
  (checksumFold (checksumFold (checksum1.setWidth 32 + checksum2.setWidth 32))).setWidth 16

namespace IPV4

/-- `set_version`. -/
def setVersion (buf : List Byte) (v : Byte) : Except NetFault (List Byte) := do
  let versionAndIhl ← readByte buf 0
  writeByte buf 0 (versionAndIhl ||| ((v &&& 0xf) <<< 4))

/-- `set_ihl`. -/
def setIhl (buf : List Byte) (v : Byte) : Except NetFault (List Byte) := do
  let versionAndIhl ← readByte buf 0
  writeByte buf 0 (versionAndIhl ||| (v &&& 0xf))

/-- `set_flags`. -/
def setFlags (buf : List Byte) (v : Byte) : Except NetFault (List Byte) := do
  let flagsAndFragOffset ← load16 buf 6
  store16 buf 6 (flagsAndFragOffset ||| ((v &&& 0x7).setWidth 16 <<< 5))

/-- `set_frag_offset_to_zero`. -/
def setFragOffsetToZero (buf : List Byte) : Except NetFault (List Byte) := do
  let flagsAndFragOffset ← load16 buf 6
  store16 buf 6 (flagsAndFragOffset &&& ~~~0xff1f)

/-- `IPV4::write_packet`, from the address `ip`; the buffer and the size of the header. -/
def writePacket (ip : IP) (buf : List Byte) (tos : Byte) (size id : BitVec 16) (flags ttl proto : Byte)
    (daddr : IP) : Except NetFault (List Byte × ℕ) := do
  let buf ← setVersion buf 4
  let buf ← setIhl buf ipv4DefaultIhl
  let buf ← writeByte buf 1 tos
  let buf ← store16 buf 2 (switch16 size)
  let buf ← store16 buf 4 (switch16 id)
  let buf ← setFlags buf flags
  let buf ← setFragOffsetToZero buf
  let buf ← writeByte buf 8 ttl
  let buf ← writeByte buf 9 proto
  let buf ← store32 buf 12 ip
  let buf ← store32 buf 16 daddr
  let versionAndIhl ← readByte buf 0
  let header ← readBytes buf 0 ((getIhl versionAndIhl).toNat * 4)
  let buf ← store16 buf 10 (checksum header)
  let versionAndIhl ← readByte buf 0
  return (buf, (getIhl versionAndIhl).toNat * 4)

end IPV4

/-- `ICMP::write_ping_reply` to a request of `size` bytes at `packet`. -/
def ICMP.writePingReply (buf p : List Byte) (packet size : ℕ) : Except NetFault (List Byte) := do
  let buf ← writeByte buf 0 icmpEchoReply
  let buf ← writeByte buf 1 0
  let payloadSize ← subSize size icmpPacketSize
  let payload ← readBytes p (packet + icmpPacketSize) payloadSize
  let buf ← writeBytes buf icmpPacketSize payload
  let message ← readBytes buf 0 size
  store16 buf 2 (checksum message)

namespace TCP

/-- `TCP::get_header_size`. -/
def getHeaderSize : ℕ := (sizeofTcpHeader + 3) / 4 * 4

/-- `TCP::fill_pseudo_header`. -/
def fillPseudoHeader (ip : IP) (headerLen : Byte) (destIp : IP) (payloadSize : BitVec 16) : List Byte :=
  let tcpLen := switch16 (BitVec.ofNat 16 (tcpHeaderSize headerLen + payloadSize.toNat))
  bytes32 ip ++ bytes32 destIp ++ [0, ipv4ProtocolTcp] ++ bytes16 tcpLen

/-- `TCP::compute_checksum`. -/
def computeChecksum (ip : IP) (header : List Byte) (destIp : IP) (payloadSize : BitVec 16) :
    Except NetFault (BitVec 16) := do
  -- Pseudo header checksum
  let headerLen ← readByte header 12
  let pseudoHeader := fillPseudoHeader ip headerLen destIp payloadSize
  let c1 := checksum pseudoHeader
  -- Header and payload checksum
  let tcpLen ← load16 pseudoHeader 10
  let segment ← readBytes header 0 (switch16 tcpLen).toNat
  return checksumAdd c1 (checksum segment)

/-- `TCP::write_header` for a socket at `port`. -/
def writeHeader (ip : IP) (buf : List Byte) (port : BitVec 16) (socket : Socket) (flags : BitVec 8)
    (dataSize : BitVec 16) : Except NetFault (List Byte) := do
  let buf ← store16 buf 0 (switch16 port)
  let buf ← store16 buf 2 (switch16 socket.peerPort)
  let buf ← store32 buf 4 (switch32 socket.seqNum)
  let buf ← store32 buf 8 (switch32 socket.ackNum)
  let buf ← writeByte buf 12 (BitVec.ofNat 8 (getHeaderSize / 4) <<< 4)
  let buf ← writeByte buf 13 flags
  let buf ← store16 buf 14 (switch16 defaultTcpWindowSize)
  let sum ← computeChecksum ip buf socket.peerIp dataSize
  store16 buf 16 sum

end TCP

end BrebOS

/-!
## Checksums that verify

The checksum of a header is computed while its own field is zero, and is then written there.  So the sum of
what is sent is zero modulo `2 ^ 16 - 1`, but it is not zero, and its checksum is zero.  For TCP the field is
not the complement of one sum but the sum of two complements, which comes to the same.
-/

namespace BrebOS

variable {buf buf' bs p : List Byte} {b : Byte} {w : BitVec 16} {ks : List (ℕ × Byte)} {i m n : ℕ}

/-! ## The sum of the words -/

lemma toNat_append (a b : Byte) : (b ++ a : BitVec 16).toNat = a.toNat + 256 * b.toNat := by
  have hlt := a.isLt
  rw [BitVec.toNat_append, ← Nat.shiftLeft_add_eq_or_of_lt hlt, Nat.shiftLeft_eq]
  omega

lemma checksumSum_toNat : bs.length ≤ 2 ^ 17 → (checksumSum bs).toNat = wordSum bs := by
  induction bs using wordSum.induct with
  | case1 =>
    intro _
    rfl
  | case2 a =>
    intro _
    have := a.isLt
    rw [checksumSum, wordSum, BitVec.toNat_setWidth, Nat.mod_eq_of_lt (by omega)]
  | case3 a b bs ih =>
    intro hlen
    have ha := a.isLt
    have hb := b.isLt
    have hle := wordSum_le bs
    rw [List.length_cons, List.length_cons] at hlen
    rw [checksumSum, wordSum, BitVec.toNat_add, ih (by omega), BitVec.toNat_setWidth, toNat_append,
      Nat.mod_eq_of_lt (a := a.toNat + _) (by omega), Nat.mod_eq_of_lt (by omega)]

lemma fold_toNat (sum : BitVec 32) : (checksumFold sum).toNat = fold16 sum.toNat := checksumFold_toNat sum

lemma wordSum_lt (hlen : bs.length ≤ 2 ^ 16 + 11) : wordSum bs < 2 ^ 32 := by
  have := wordSum_le bs
  omega

lemma checksum_toNat (hlen : bs.length ≤ 2 ^ 16 + 11) :
    (checksum bs).toNat = 65535 - fold16 (fold16 (wordSum bs)) := by
  have hlt := fold16_fold16_lt (wordSum_lt hlen)
  rw [checksum, BitVec.toNat_not, BitVec.toNat_setWidth, fold_toNat, fold_toNat,
    checksumSum_toNat (by omega), Nat.mod_eq_of_lt hlt]

lemma checksum_modEq (hlen : bs.length ≤ 2 ^ 16 + 11) :
    wordSum bs + (checksum bs).toNat ≡ 0 [MOD 65535] := by
  have hlt := fold16_fold16_lt (wordSum_lt hlen)
  have hmod := (fold16_modEq (fold16 (wordSum bs))).trans (fold16_modEq (wordSum bs))
  rw [checksum_toNat hlen]
  unfold Nat.ModEq at hmod ⊢
  omega

lemma checksum_eq_zero (hlen : bs.length ≤ 2 ^ 16 + 11) (hpos : 0 < wordSum bs)
    (hsum : wordSum bs ≡ 0 [MOD 65535]) : checksum bs = 0 := by
  rw [← BitVec.toNat_inj, checksum_toNat hlen, fold16_of_zero hpos (wordSum_lt hlen) hsum]
  rfl

lemma checksum_of_made_up (hlen : bs.length ≤ 2 ^ 16 + 11) (hlen' : p.length ≤ 2 ^ 16 + 11)
    (hsum : wordSum p = wordSum bs + (checksum bs).toNat) : checksum p = 0 := by
  refine checksum_eq_zero hlen' ?_ (hsum ▸ checksum_modEq hlen)
  rcases Nat.eq_zero_or_pos (wordSum bs) with hzero | hpos
  · rw [hsum, checksum_toNat hlen, hzero]
    decide
  · omega

lemma addWords_toNat (c1 c2 : BitVec 16) :
    (c1.setWidth 32 + c2.setWidth 32 : BitVec 32).toNat = c1.toNat + c2.toNat := by
  have h1 := c1.isLt
  have h2 := c2.isLt
  rw [BitVec.toNat_add, BitVec.toNat_setWidth, BitVec.toNat_setWidth,
    Nat.mod_eq_of_lt (by omega : c1.toNat < _), Nat.mod_eq_of_lt (by omega : c2.toNat < _),
    Nat.mod_eq_of_lt (by omega)]

lemma checksumAdd_modEq (c1 c2 : BitVec 16) :
    (checksumAdd c1 c2).toNat ≡ c1.toNat + c2.toNat [MOD 65535] := by
  have h1 := c1.isLt
  have h2 := c2.isLt
  have hlt : fold16 (fold16 (c1.toNat + c2.toNat)) < 2 ^ 16 := fold16_fold16_lt (by omega)
  rw [checksumAdd, BitVec.toNat_setWidth, fold_toNat, fold_toNat, addWords_toNat, Nat.mod_eq_of_lt hlt]
  exact (fold16_modEq _).trans (fold16_modEq _)

/-! ## Words in a buffer -/

lemma wordSum_bytes16 (w : BitVec 16) : wordSum (bytes16 w) = w.toNat := by
  have hlt := w.isLt
  rw [bytes16, wordSum, wordSum, BitVec.toNat_setWidth, BitVec.toNat_setWidth, BitVec.toNat_ushiftRight,
    Nat.shiftRight_eq_div_pow]
  omega

lemma bytes16_of_append (a b : Byte) : bytes16 (b ++ a) = [a, b] := by
  have ha := a.isLt
  have hb := b.isLt
  have hlow : (b ++ a : BitVec 16).setWidth 8 = a := by
    rw [← BitVec.toNat_inj, BitVec.toNat_setWidth, toNat_append]
    omega
  have hhigh : ((b ++ a : BitVec 16) >>> 8).setWidth 8 = b := by
    rw [← BitVec.toNat_inj, BitVec.toNat_setWidth, BitVec.toNat_ushiftRight, toNat_append,
      Nat.shiftRight_eq_div_pow]
    omega
  rw [bytes16, hlow, hhigh]

/-- A buffer of `n` bytes, and what some of them are. -/
structure Knows (n : ℕ) (ks : List (ℕ × Byte)) (buf : List Byte) : Prop where
  length : buf.length = n
  known : ∀ x ∈ ks, buf[x.1]? = some x.2

lemma Knows.imp {ks' : List (ℕ × Byte)} (h : Knows n ks buf) (hks : ∀ x ∈ ks', x ∈ ks) :
    Knows n ks' buf :=
  ⟨h.length, fun x hx => h.known x (hks x hx)⟩

lemma Knows.zeros (rest : List Byte) (hks : ∀ x ∈ ks, x.1 < m ∧ x.2 = 0) :
    Knows (m + rest.length) ks (List.replicate m 0 ++ rest) := by
  refine ⟨by simp, fun x hx => ?_⟩
  obtain ⟨hlt, hzero⟩ := hks x hx
  rw [List.getElem?_append_left (by simpa using hlt), List.getElem?_replicate, if_pos hlt, hzero]

lemma Knows.readByte (h : Knows n ks buf) (hi : (i, b) ∈ ks) : readByte buf i = .ok b :=
  readByte_eq_ok.mpr (h.known (i, b) hi)

lemma Knows.writeByte (h : Knows n ks buf) (hi : i < n) (hks : ∀ x ∈ ks, x.1 ≠ i) :
    Succeeds (BrebOS.writeByte buf i b) (Knows n ((i, b) :: ks)) := by
  rw [← h.length] at hi
  refine ⟨buf.set i b, writeByte_eq_ok.mpr ⟨hi, rfl⟩, ?_, fun x hx => ?_⟩
  · rw [List.length_set]
    exact h.length
  · rcases List.mem_cons.mp hx with rfl | hx
    · exact List.getElem?_set_self hi
    · rw [List.getElem?_set_ne (hks x hx).symm]
      exact h.known x hx

lemma Knows.writeBytes (h : Knows n ks buf) (hi : i + bs.length ≤ n)
    (hks : ∀ x ∈ ks, x.1 < i ∨ i + bs.length ≤ x.1) :
    Succeeds (BrebOS.writeBytes buf i bs) (Knows n ks) := by
  rw [← h.length] at hi
  refine ⟨_, writeBytes_eq_ok.mpr ⟨hi, rfl⟩, ?_, fun x hx => ?_⟩
  · rw [← h.length]
    simp
    omega
  · rw [← h.known x hx]
    rcases hks x hx with hlt | hle
    · rw [List.append_assoc, List.getElem?_append_left (by simp; omega), List.getElem?_take_of_lt hlt]
    · rw [List.getElem?_append_right (by simp; omega), List.getElem?_drop]
      congr 1
      simp
      omega

lemma Knows.store16 (h : Knows n [(i, 0), (i + 1, 0)] buf) (heven : i % 2 = 0) (hm : i + 2 ≤ m)
    (hmn : m ≤ n) :
    Succeeds (BrebOS.store16 buf i w) fun buf' => buf'.length = n ∧
      wordSum (buf'.take m) = wordSum (buf.take m) + w.toNat := by
  have hlen := h.length
  have hfirst := h.known (i, 0) (by simp)
  have hsecond := h.known (i + 1, 0) (by simp)
  have hsplit : ∀ v : List Byte, v.length = 2 →
      wordSum ((buf.take i ++ v ++ buf.drop (i + 2)).take m) =
        wordSum (buf.take i) + wordSum v + wordSum ((buf.drop (i + 2)).take (m - (i + 2))) := by
    intro v hv
    have htake : (buf.take i).length = i := by simp; omega
    rw [List.take_append, List.take_of_length_le (by simp [hv]; omega), wordSum_append (by simp [hv]; omega),
      wordSum_append (by omega), List.length_append, htake, hv]
  have hbuf : buf.take i ++ [0, 0] ++ buf.drop (i + 2) = buf := by
    have hdrop : buf.drop i = 0 :: 0 :: buf.drop (i + 2) := by
      obtain ⟨hi, h0⟩ := List.getElem?_eq_some_iff.mp hfirst
      obtain ⟨hi', h1⟩ := List.getElem?_eq_some_iff.mp hsecond
      rw [List.drop_eq_getElem_cons hi, h0, List.drop_eq_getElem_cons hi', h1]
    rw [List.append_assoc]
    show List.take i buf ++ 0 :: 0 :: List.drop (i + 2) buf = buf
    rw [← hdrop, List.take_append_drop]
  have hnew := hsplit (bytes16 w) rfl
  have hold := hsplit [0, 0] rfl
  rw [hbuf] at hold
  refine ⟨_, writeBytes_eq_ok.mpr ⟨by show i + 2 ≤ _; omega, rfl⟩, ?_, ?_⟩
  · rw [← hlen]
    simp [bytes16]
    omega
  · show wordSum ((buf.take i ++ bytes16 w ++ buf.drop (i + 2)).take m) = _
    rw [hnew, hold, wordSum_bytes16]
    simp [wordSum]
    omega

lemma Knows.reload16 (h : Knows n ks buf) (f : BitVec 16 → BitVec 16) (hi : i + 2 ≤ n)
    (hks : ∀ x ∈ ks, x.1 < i ∨ i + 2 ≤ x.1) :
    Succeeds (load16 buf i >>= fun w => BrebOS.store16 buf i (f w)) (Knows n ks) := by
  obtain ⟨w, hw⟩ : ∃ w, load16 buf i = .ok w := exists_load16 (by rw [h.length]; exact hi)
  rw [succeeds_bind]
  exact ⟨w, hw, h.writeBytes hi hks⟩

lemma readBytes_start (h : m ≤ buf.length) : readBytes buf 0 m = .ok (buf.take m) :=
  readBytes_eq_ok.mpr ⟨by omega, by rw [List.drop_zero]⟩

/-! ## The headers -/

lemma IPV4.writePacket_verifies (ip : IP) (rest : List Byte) (tos : Byte) (size id : BitVec 16)
    (flags ttl proto : Byte) (daddr : IP) :
    Succeeds (IPV4.writePacket ip (List.replicate ipv4HeaderSize 0 ++ rest) tos size id flags ttl proto daddr)
      fun r => r.2 = ipv4HeaderSize ∧ checksum (r.1.take ipv4HeaderSize) = 0 := by
  obtain ⟨n, hn⟩ : ∃ n, n = 20 + rest.length := ⟨_, rfl⟩
  have hle : 20 ≤ n := by omega
  have hzero : Knows n [(0, 0), (10, 0), (11, 0)] (List.replicate ipv4HeaderSize 0 ++ rest) :=
    hn ▸ Knows.zeros rest (by simp)
  have hclear : ∀ {b b' : Byte} {buf : List Byte}, Knows n [(0, b), (10, 0), (11, 0)] buf →
      Succeeds (BrebOS.writeByte buf 0 b') (Knows n [(0, b'), (10, 0), (11, 0)]) := by
    intro b b' buf h
    have hfield : Knows n [(10, 0), (11, 0)] buf := h.imp (by simp)
    exact hfield.writeByte (by omega) (by simp)
  have hbyte : ∀ {i : ℕ} {b : Byte} {buf : List Byte}, 0 < i → i < 10 →
      Knows n [(0, 0x45), (10, 0), (11, 0)] buf →
      Succeeds (BrebOS.writeByte buf i b) (Knows n [(0, 0x45), (10, 0), (11, 0)]) := by
    intro i b buf hpos hlt h
    refine (h.writeByte (by omega) ?_).mono fun buf h => h.imp (by simp)
    simp
    omega
  simp only [IPV4.writePacket, IPV4.setVersion, IPV4.setIhl, succeeds_bind]
  refine ⟨0, hzero.readByte (by simp), (hclear hzero).mono fun buf h => ?_⟩
  refine ⟨0x40, h.readByte (by simp), (hclear h).mono fun buf h => ?_⟩
  refine (hbyte (by omega) (by omega) h).mono fun buf h => ?_
  refine (h.writeBytes (by simp [bytes16]; omega) (by simp [bytes16])).mono fun buf h => ?_
  refine (h.writeBytes (by simp [bytes16]; omega) (by simp [bytes16])).mono fun buf h => ?_
  refine (h.reload16 _ (by omega) (by simp)).mono fun buf h => ?_
  refine (h.reload16 _ (by omega) (by simp)).mono fun buf h => ?_
  refine (hbyte (by omega) (by omega) h).mono fun buf h => ?_
  refine (hbyte (by omega) (by omega) h).mono fun buf h => ?_
  refine (h.writeBytes (by simp [bytes16, bytes32]; omega) (by simp)).mono fun buf h => ?_
  refine (h.writeBytes (by simp [bytes16, bytes32]; omega) (by simp)).mono fun buf h => ?_
  refine ⟨0x45, h.readByte (by simp), buf.take 20, readBytes_start (by rw [h.length]; exact hle), ?_⟩
  have hlen := h.length
  have hsum : Succeeds (BrebOS.store16 buf 10 (checksum (buf.take 20))) fun buf' => buf'.length = n ∧
      wordSum (buf'.take 20) = wordSum (buf.take 20) + (checksum (buf.take 20)).toNat :=
    Knows.store16 (h.imp (by simp)) rfl (by omega) hle
  have hversion : Succeeds (BrebOS.store16 buf 10 (checksum (buf.take 20))) (Knows n [(0, 0x45)]) :=
    Knows.writeBytes (h.imp (by simp)) (by simp [bytes16]; omega) (by simp)
  refine (hsum.and hversion).mono fun buf' hbuf => ?_
  obtain ⟨⟨hlen', hsum⟩, h⟩ := hbuf
  refine ⟨0x45, h.readByte (by simp), succeeds_pure.mpr ⟨rfl, ?_⟩⟩
  exact checksum_of_made_up (by simp) (by simp [ipv4HeaderSize]) hsum

lemma ICMP.writePingReply_verifies {packet size : ℕ} (hsize : icmpPacketSize ≤ size) (hlt : size < 2 ^ 16)
    (hp : packet + size ≤ p.length) :
    Succeeds (ICMP.writePingReply (List.replicate size 0) p packet size)
      fun buf => buf.length = size ∧ checksum buf = 0 := by
  rw [icmpPacketSize] at hsize
  have hzero : Knows size [(2, 0), (3, 0)] (List.replicate size 0) := by
    have hks : ∀ x ∈ [(2, (0 : Byte)), (3, 0)], x.1 < size ∧ x.2 = 0 := by
      simp
      omega
    simpa using Knows.zeros [] hks
  have hsub : subSize size icmpPacketSize = .ok (size - 4) := if_pos hsize
  have hpayload : readBytes p (packet + 4) (size - 4) = .ok ((p.drop (packet + 4)).take (size - 4)) :=
    readBytes_eq_ok.mpr ⟨by omega, rfl⟩
  have hlen : ((p.drop (packet + 4)).take (size - 4)).length = size - 4 := readBytes_length hpayload
  simp only [ICMP.writePingReply, succeeds_bind]
  refine (hzero.writeByte (by omega) (by simp)).mono fun buf h => ?_
  have h : Knows size [(2, 0), (3, 0)] buf := h.imp (by simp)
  refine (h.writeByte (by omega) (by simp)).mono fun buf h => ?_
  have h : Knows size [(2, 0), (3, 0)] buf := h.imp (by simp)
  refine ⟨size - 4, hsub, _, hpayload, ?_⟩
  refine (h.writeBytes (by rw [hlen, icmpPacketSize]; omega) (by simp [icmpPacketSize])).mono fun buf h => ?_
  have hlen := h.length
  refine ⟨_, readBytes_start hlen.ge, ?_⟩
  refine (h.store16 rfl (by omega) le_rfl).mono fun buf' hbuf => ?_
  obtain ⟨hlen', hsum⟩ := hbuf
  refine ⟨hlen', ?_⟩
  rw [List.take_of_length_le hlen'.le] at hsum
  exact checksum_of_made_up (by simp; omega) (by omega) hsum

namespace TCP

/-- What stands before a segment of `n` bytes when its checksum is computed. -/
def pseudoHeader (ip destIp : IP) (n : ℕ) : List Byte :=
  bytes32 ip ++ bytes32 destIp ++ [0, ipv4ProtocolTcp, BitVec.ofNat 8 (n / 256), BitVec.ofNat 8 n]

lemma fillPseudoHeader_eq {ip destIp : IP} (h : n = 20 + m) (hlt : n < 2 ^ 16) :
    fillPseudoHeader ip 0x50 destIp (BitVec.ofNat 16 m) = pseudoHeader ip destIp n := by
  have hlen : BitVec.ofNat 16 (tcpHeaderSize 0x50 + (BitVec.ofNat 16 m).toNat) =
      BitVec.ofNat 8 (n / 256) ++ BitVec.ofNat 8 n := by
    rw [← BitVec.toNat_inj, toNat_append, BitVec.toNat_ofNat, BitVec.toNat_ofNat, BitVec.toNat_ofNat,
      BitVec.toNat_ofNat, Nat.mod_eq_of_lt (by omega : m < 2 ^ 16)]
    show (20 + m) % 2 ^ 16 = _
    omega
  show _ ++ bytes16 (switch16 _) = _
  rw [hlen, switch16_append, bytes16_of_append, pseudoHeader, List.append_assoc]
  rfl

lemma load16_pseudoHeader (ip destIp : IP) (hlt : n < 2 ^ 16) :
    ∃ w, load16 (pseudoHeader ip destIp n) 10 = .ok w ∧ (switch16 w).toNat = n := by
  refine ⟨BitVec.ofNat 8 n ++ BitVec.ofNat 8 (n / 256), rfl, ?_⟩
  rw [switch16_append, toNat_append, BitVec.toNat_ofNat, BitVec.toNat_ofNat]
  omega

lemma wordSum_pseudoHeader_pos {ip destIp : IP} : 0 < wordSum (pseudoHeader ip destIp n) := by
  show 0 < _ + (_ + (_ + (_ + (0 + 256 * 6 + _))))
  omega

lemma writeHeader_verifies (ip : IP) (payload : List Byte) (port : BitVec 16) (socket : Socket)
    (flags : BitVec 8) (hlen : getHeaderSize + payload.length < 2 ^ 16) :
    Succeeds (writeHeader ip (List.replicate getHeaderSize 0 ++ payload) port socket flags
        (BitVec.ofNat 16 payload.length))
      fun buf => buf.length = getHeaderSize + payload.length ∧
        checksum (pseudoHeader ip socket.peerIp buf.length ++ buf) = 0 := by
  obtain ⟨n, hn⟩ : ∃ n, n = 20 + payload.length := ⟨_, rfl⟩
  have hlt : n < 2 ^ 16 := hn ▸ hlen
  have hzero : Knows n [(16, 0), (17, 0)] (List.replicate getHeaderSize 0 ++ payload) :=
    hn ▸ Knows.zeros payload (by simp)
  simp only [writeHeader, computeChecksum, succeeds_bind, succeeds_pure]
  refine (hzero.writeBytes (by simp [bytes16]; omega) (by simp [bytes16])).mono fun buf h => ?_
  refine (h.writeBytes (by simp [bytes16]; omega) (by simp [bytes16])).mono fun buf h => ?_
  refine (h.writeBytes (by simp [bytes16, bytes32]; omega) (by simp [bytes16, bytes32])).mono fun buf h => ?_
  refine (h.writeBytes (by simp [bytes16, bytes32]; omega) (by simp [bytes16, bytes32])).mono fun buf h => ?_
  refine (h.writeByte (by omega) (by simp)).mono fun buf h => ?_
  refine (h.writeByte (by omega) (by simp)).mono fun buf h => ?_
  have h : Knows n [(12, 0x50), (16, 0), (17, 0)] buf := h.imp (by simp [getHeaderSize, sizeofTcpHeader])
  refine (h.writeBytes (by simp [bytes16]; omega) (by simp [bytes16])).mono fun buf h => ?_
  obtain ⟨tcpLen, hload, htotal⟩ := load16_pseudoHeader ip socket.peerIp hlt
  obtain ⟨pseudo, hpseudo⟩ : ∃ pseudo, pseudo = pseudoHeader ip socket.peerIp n := ⟨_, rfl⟩
  have hpos : 0 < wordSum pseudo := hpseudo ▸ wordSum_pseudoHeader_pos
  have hpseudoLen : pseudo.length = 12 := hpseudo ▸ rfl
  rw [← hpseudo] at hload
  refine ⟨0x50, h.readByte (by simp), tcpLen, ?_, buf.take n, ?_, ?_⟩
  · rw [fillPseudoHeader_eq hn hlt, ← hpseudo]
    exact hload
  · rw [htotal]
    exact readBytes_start h.length.ge
  have hfield : Knows n [(16, 0), (17, 0)] buf := h.imp (by simp)
  refine (hfield.store16 rfl (by omega) le_rfl).mono fun buf' hbuf => ?_
  obtain ⟨hlen', hsum⟩ := hbuf
  refine ⟨hlen'.trans hn, ?_⟩
  have hbufLen := h.length
  rw [List.take_of_length_le hlen'.le] at hsum
  rw [hlen', ← hpseudo]
  refine checksum_eq_zero (by rw [List.length_append]; omega) ?_ ?_
  · rw [wordSum_append (by omega)]
    omega
  · -- both sums are made up for, one by each of the two checksums
    have hfirst : wordSum pseudo + (checksum pseudo).toNat ≡ 0 [MOD 65535] := checksum_modEq (by omega)
    have hsecond : wordSum (buf.take n) + (checksum (buf.take n)).toNat ≡ 0 [MOD 65535] :=
      checksum_modEq (by simp; omega)
    have hadd := checksumAdd_modEq (checksum pseudo) (checksum (buf.take n))
    rw [wordSum_append (by omega), hsum, fillPseudoHeader_eq hn hlt, ← hpseudo]
    unfold Nat.ModEq at hfirst hsecond hadd ⊢
    omega

end TCP

end BrebOS

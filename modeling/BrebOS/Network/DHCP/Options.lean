import BrebOS.Network.DHCP

/-!
# What is seen of the options

The options of a packet are pads of one byte, an end, and options with a code, a length and data.  The code
cuts them into blocks of a code, a length and data, also where there is a pad, and `is_dhcp_offer` and
`is_dhcp_ack` also behind the end; their only bound is the length field, its bytes in the wrong order.

So a packet is read as it should be exactly when the blocks lie inside the payload and show what the options
say.
-/

namespace BrebOS

/-- `sizeof(header_t)` of `UDP`. -/
def udpHeaderSize : ℕ := 8

namespace DHCP

/-! ## Well-formed options -/

/-- An option of a packet. -/
inductive PacketOption
  | pad
  | option (code : Byte) (data : List Byte)
  deriving DecidableEq, Repr

namespace PacketOption

/-- The bytes of an option. -/
def encode : PacketOption → List Byte
  | .pad => [dhcpOptPad]
  | .option code data => code :: BitVec.ofNat 8 data.length :: data

/-- Its code is none of a pad or an end, its length is a byte, and the three that are used have enough
data. -/
def Valid : PacketOption → Prop
  | .pad => True
  | .option code data => code ≠ dhcpOptPad ∧ code ≠ dhcpOptEnd ∧ data.length < 256 ∧
      (code = dhcpOptMsgType → 1 ≤ data.length) ∧
      (code = dhcpOptSubnetMask ∨ code = dhcpOptRouter → 4 ≤ data.length)

/-- The data, if it is the option with this code. -/
def data? (code : Byte) : PacketOption → Option (List Byte)
  | .pad => none
  | .option code' data => if code' = code then some data else none

end PacketOption

/-- The payload has these options up to an end. -/
def Carries (p : List Byte) (opts : List PacketOption) : Prop :=
  (∀ o ∈ opts, o.Valid) ∧ ∃ header rest, header.length = dhcpPacketSize ∧
    p = header ++ opts.flatMap PacketOption.encode ++ dhcpOptEnd :: rest

/-- The type of the message. -/
def messageType (opts : List PacketOption) : Option Byte :=
  (opts.filterMap (·.data? dhcpOptMsgType)).head?.map (·.getD 0 0)

/-- The address in the last option with a code. -/
def optionAddress (code : Byte) (opts : List PacketOption) : Option IP :=
  (opts.filterMap (·.data? code)).getLast?.map (addressAt · 0)

/-! ## Blocks -/

/-- Where the next block starts. -/
def next (p : List Byte) (i : ℕ) : ℕ := i + (p.getD (i + 1) 0).toNat + dhcpOptionSize

/-- The blocks from `i` to `j`.  Their codes and lengths are in the payload. -/
def Blocks (p : List Byte) : List ℕ → ℕ → ℕ → Prop
  | [], i, j => i = j
  | b :: bs, i, j => b = i ∧ i + dhcpOptionSize ≤ p.length ∧ Blocks p bs (next p i) j

/-- A block has a code. -/
def HasCode (p : List Byte) (code : Byte) (b : ℕ) : Prop := p[b]? = some code

instance (p : List Byte) (code : Byte) (b : ℕ) : Decidable (HasCode p code b) :=
  inferInstanceAs (Decidable (p[b]? = some code))

/-- The first block with the code `MSG_TYPE` that the length field lets through. -/
def ShowsType (p : List Byte) (length : ℕ) (type : Option Byte) : Prop :=
  ∃ bs j, Blocks p bs dhcpPacketSize j ∧
    (∀ b ∈ bs, b + dhcpOptionSize ≤ length ∧ ¬ HasCode p dhcpOptMsgType b) ∧
    ((type = none ∧ length < j + dhcpOptionSize) ∨
      (type.isSome ∧ j + dhcpOptionSize ≤ length ∧ HasCode p dhcpOptMsgType j ∧
        p[j + dhcpOptionSize]? = type))

/-- The last block with a code. -/
def lastBlock (p : List Byte) (code : Byte) (bs : List ℕ) : Option ℕ :=
  (bs.filter (HasCode p code ·)).getLast?

/-- The address that a block shows. -/
def blockAddress (p : List Byte) (b : ℕ) : IP := addressAt p (b + dhcpOptionSize)

/-- The blocks up to one with the code `END`. -/
def ShowsEnd (p : List Byte) (bs : List ℕ) : Prop :=
  ∃ j, Blocks p bs dhcpPacketSize j ∧ HasCode p dhcpOptEnd j ∧
    ∀ b ∈ bs, ¬ HasCode p dhcpOptEnd b ∧
      (HasCode p dhcpOptSubnetMask b → b + dhcpOptionSize + 4 ≤ p.length)

variable {p : List Byte}

lemma hasCode_lt {code : Byte} {b : ℕ} (h : HasCode p code b) : b < p.length :=
  (List.getElem?_eq_some_iff.mp h).1

lemma Blocks.le : ∀ {bs : List ℕ} {i j : ℕ}, Blocks p bs i j → i + dhcpOptionSize * bs.length ≤ j := by
  intro bs
  induction bs with
  | nil =>
      rintro i j rfl
      rfl
  | cons b bs ih =>
      rintro i j ⟨rfl, -, h⟩
      have hle := ih h
      rw [next] at hle
      simp only [dhcpOptionSize, List.length_cons] at hle ⊢
      omega

lemma Blocks.length_le {limit : ℕ} : ∀ {bs : List ℕ} {i j : ℕ}, Blocks p bs i j →
    (∀ b ∈ bs, b + dhcpOptionSize ≤ limit) → bs.length ≤ limit := by
  intro bs i j h hlimit
  rcases List.eq_nil_or_concat bs with rfl | ⟨bs', b, rfl⟩
  · simp
  · have hsplit : ∀ {bs' : List ℕ} {i : ℕ}, Blocks p (bs' ++ [b]) i j → Blocks p bs' i b := by
      intro bs'
      induction bs' with
      | nil =>
          rintro i ⟨rfl, -⟩
          rfl
      | cons c bs' ih =>
          rintro i ⟨rfl, hle, h⟩
          exact ⟨rfl, hle, ih h⟩
    have hle := (hsplit (by simpa using h)).le
    have hb := hlimit b (by simp)
    simp only [dhcpOptionSize] at hle hb
    simp only [List.concat_eq_append, List.length_append, List.length_singleton]
    omega

lemma readByte_getD {i : ℕ} (h : i < p.length) : readByte p i = .ok (p.getD i 0) := by
  rw [readByte_eq_ok]
  simp [h]

/-! ## The type of a message -/

lemma findMsgType_eq_ok {length : ℕ} : ∀ {fuel i : ℕ} {r : Option ℕ},
    findMsgType p length fuel i = .ok r ↔ ∃ bs j, bs.length < fuel ∧ Blocks p bs i j ∧
      (∀ b ∈ bs, b + dhcpOptionSize ≤ length ∧ ¬ HasCode p dhcpOptMsgType b) ∧
      ((r = none ∧ length < j + dhcpOptionSize) ∨
        (r = some j ∧ j + dhcpOptionSize ≤ length ∧ HasCode p dhcpOptMsgType j)) := by
  intro fuel
  induction fuel with
  | zero => simp [findMsgType]
  | succ fuel ih =>
      intro i r
      rw [findMsgType]
      by_cases hlen : i + dhcpOptionSize > length
      · rw [if_pos hlen, Except.ok.injEq]
        constructor
        · rintro rfl
          exact ⟨[], i, by simp, rfl, by simp, .inl ⟨rfl, hlen⟩⟩
        · rintro ⟨bs, j, -, hbs, hall, h⟩
          rcases bs with _ | ⟨b, bs⟩
          · obtain rfl : i = j := hbs
            rcases h with ⟨rfl, -⟩ | ⟨-, hle, -⟩
            · rfl
            · omega
          · obtain rfl := hbs.1
            have := (hall b (by simp)).1
            omega
      · rw [if_neg hlen]
        simp only [bind_eq_ok, readByte_eq_ok]
        constructor
        · rintro ⟨code, hcode, h⟩
          by_cases htype : code = dhcpOptMsgType
          · rw [if_pos htype] at h
            obtain rfl := Except.ok.inj h
            exact ⟨[], i, by simp, rfl, by simp, .inr ⟨rfl, by omega, htype ▸ hcode⟩⟩
          · rw [if_neg htype] at h
            simp only [bind_eq_ok, readByte_eq_ok] at h
            obtain ⟨len, hlen', h⟩ := h
            obtain ⟨bs, j, hfuel, hbs, hall, hr⟩ := ih.mp h
            have hlt := (List.getElem?_eq_some_iff.mp hlen').1
            refine ⟨i :: bs, j, by simpa using hfuel, ⟨rfl, by rw [dhcpOptionSize]; omega, ?_⟩, ?_, hr⟩
            · rw [next, List.getD_eq_getElem?_getD, hlen']
              exact hbs
            · intro b hb
              rcases List.mem_cons.mp hb with rfl | hb
              · refine ⟨by omega, fun h => htype ?_⟩
                exact Option.some.inj (hcode.symm.trans h)
              · exact hall b hb
        · rintro ⟨bs, j, hfuel, hbs, hall, hr⟩
          rcases bs with _ | ⟨b, bs⟩
          · obtain rfl : i = j := hbs
            rcases hr with ⟨-, hlt⟩ | ⟨rfl, -, hcode⟩
            · omega
            · exact ⟨dhcpOptMsgType, hcode, rfl⟩
          · obtain ⟨rfl, hle, hbs⟩ := hbs
            rw [dhcpOptionSize] at hle
            refine ⟨p.getD b 0, by simp [show b < p.length by omega], ?_⟩
            have hcode := (hall b (by simp)).2
            rw [HasCode, List.getElem?_eq_getElem (show b < p.length by omega)] at hcode
            rw [if_neg (by simpa [show b < p.length by omega] using hcode)]
            simp only [bind_eq_ok, readByte_eq_ok]
            refine ⟨p.getD (b + 1) 0, by simp [show b + 1 < p.length by omega], ih.mpr ?_⟩
            exact ⟨bs, j, by simpa using hfuel, hbs, fun c hc => hall c (by simp [hc]), hr⟩

lemma showsType_iff {length : ℕ} {type : Option Byte} : ShowsType p length type ↔
    ∃ r, findMsgType p length (length + 1) dhcpPacketSize = .ok r ∧
      ((r = none ∧ type = none) ∨ ∃ j, r = some j ∧ type.isSome ∧ p[j + dhcpOptionSize]? = type) := by
  simp only [findMsgType_eq_ok, ShowsType]
  constructor
  · rintro ⟨bs, j, hbs, hall, h⟩
    have hfuel : bs.length < length + 1 := Nat.lt_succ_of_le (hbs.length_le fun b hb => (hall b hb).1)
    rcases h with ⟨rfl, hlt⟩ | ⟨hsome, hle, hcode, hdata⟩
    · exact ⟨none, ⟨bs, j, hfuel, hbs, hall, .inl ⟨rfl, hlt⟩⟩, .inl ⟨rfl, rfl⟩⟩
    · exact ⟨some j, ⟨bs, j, hfuel, hbs, hall, .inr ⟨rfl, hle, hcode⟩⟩, .inr ⟨j, rfl, hsome, hdata⟩⟩
  · rintro ⟨r, ⟨bs, j, -, hbs, hall, h⟩, hr⟩
    refine ⟨bs, j, hbs, hall, ?_⟩
    rcases h with ⟨rfl, hlt⟩ | ⟨rfl, hle, hcode⟩
    · rcases hr with ⟨-, rfl⟩ | ⟨j', hj', -⟩
      · exact .inl ⟨rfl, hlt⟩
      · cases hj'
    · rcases hr with ⟨hj', -⟩ | ⟨j', hj', hsome, hdata⟩
      · cases hj'
      · obtain rfl := Option.some.inj hj'
        exact .inr ⟨hsome, hle, hcode, hdata⟩

lemma ShowsType.isDhcp {packet : UDPPacket} {type : Option Byte}
    (h : ShowsType packet.payload (rawLength packet) type) (t : Byte) :
    isDhcp t packet = .ok (type == some t) := by
  obtain ⟨r, hr, hr'⟩ := showsType_iff.mp h
  rw [DHCP.isDhcp, hr]
  rcases hr' with ⟨rfl, rfl⟩ | ⟨j, rfl, hsome, hdata⟩
  · rfl
  · obtain ⟨d, rfl⟩ := Option.isSome_iff_exists.mp hsome
    simp [readByte_eq_ok.mpr hdata, bind, Except.bind, pure, Except.pure]

lemma exists_showsType {packet : UDPPacket} {t : Byte} {b : Bool} (h : isDhcp t packet = .ok b) :
    ∃ type, ShowsType packet.payload (rawLength packet) type := by
  simp only [isDhcp, bind_eq_ok] at h
  obtain ⟨r, hr, h⟩ := h
  rcases r with _ | j
  · exact ⟨none, showsType_iff.mpr ⟨none, hr, .inl ⟨rfl, rfl⟩⟩⟩
  · simp only [bind_eq_ok, readByte_eq_ok] at h
    obtain ⟨d, hd, -⟩ := h
    exact ⟨some d, showsType_iff.mpr ⟨some j, hr, .inr ⟨j, rfl, rfl, hd⟩⟩⟩

/-! ## Packets of the server -/

/-- The ports, the operation and the magic cookie are those of an answer of the server. -/
structure FromServer (packet : UDPPacket) : Prop where
  srcPort : packet.srcPort = dhcpDstPort
  dstPort : packet.dstPort = dhcpSrcPort
  op : packet.payload[0]? = some bootReply
  size : dhcpPacketSize ≤ packet.payload.length
  magicCookie : addressAt packet.payload dhcpMagicCookieOffset = switch32 dhcpMagicCookie

/-- The packet is dropped before its options are looked at. -/
def Dropped (packet : UDPPacket) : Prop :=
  packet.srcPort ≠ dhcpDstPort ∨ packet.dstPort ≠ dhcpSrcPort ∨ rawLength packet < dhcpPacketSize ∨
    (∃ op, packet.payload[0]? = some op ∧ op ≠ bootReply) ∨
    (dhcpPacketSize ≤ packet.payload.length ∧
      addressAt packet.payload dhcpMagicCookieOffset ≠ switch32 dhcpMagicCookie)

/-- The type of message that is seen. -/
def Seen (packet : UDPPacket) (type : Option Byte) : Prop :=
  (Dropped packet ∧ type = none) ∨
    (dhcpPacketSize ≤ rawLength packet ∧ FromServer packet ∧
      ShowsType packet.payload (rawLength packet) type)

/-- What is made of it. -/
def kind (type : Option Byte) : Byte :=
  if type = some dhcpOffer then dhcpOffer else if type = some dhcpAck then dhcpAck else 0

lemma kind_eq_ack {type : Option Byte} : kind type = dhcpAck ↔ type = some dhcpAck := by
  rw [kind]
  split
  · next h => simp [h, dhcpOffer, dhcpAck]
  · split
    · next h => simp [h]
    · next h => exact iff_of_false (by decide) h

lemma FromServer.packetValid {packet : UDPPacket} (h : FromServer packet)
    (hlen : dhcpPacketSize ≤ rawLength packet) : packetValid packet = (do
      if ← isDhcpOffer packet then return dhcpOffer
      else if ← isDhcpAck packet then return dhcpAck
      else return 0) := by
  have hcookie : load32 packet.payload dhcpMagicCookieOffset = .ok (switch32 dhcpMagicCookie) :=
    load32_eq_ok.mpr ⟨h.size, h.magicCookie.symm⟩
  rw [DHCP.packetValid, if_neg (by simp [h.srcPort, h.dstPort]), if_neg (not_lt.mpr hlen),
    readByte_eq_ok.mpr h.op, hcookie]
  rfl

lemma Seen.packetValid {packet : UDPPacket} {type : Option Byte} (h : Seen packet type) :
    packetValid packet = .ok (kind type) := by
  rcases h with ⟨h, rfl⟩ | ⟨hlen, hserver, htype⟩
  · rw [DHCP.packetValid]
    by_cases hports : packet.srcPort ≠ dhcpDstPort ∨ packet.dstPort ≠ dhcpSrcPort
    · rw [if_pos hports]
      rfl
    by_cases hlen : rawLength packet < dhcpPacketSize
    · rw [if_neg hports, if_pos hlen]
      rfl
    rw [if_neg hports, if_neg hlen]
    rcases h with h | h | h | ⟨op, hop, hne⟩ | ⟨hle, hne⟩
    · exact absurd (.inl h) hports
    · exact absurd (.inr h) hports
    · exact absurd h hlen
    · rw [readByte_eq_ok.mpr hop]
      exact if_pos hne
    · obtain ⟨op, hop⟩ : ∃ op, packet.payload[0]? = some op :=
        ⟨_, List.getElem?_eq_getElem (lt_of_lt_of_le (by decide) hle)⟩
      have hcookie : load32 packet.payload dhcpMagicCookieOffset =
          .ok (addressAt packet.payload dhcpMagicCookieOffset) := load32_eq_ok.mpr ⟨hle, rfl⟩
      rw [readByte_eq_ok.mpr hop, hcookie]
      by_cases hreply : op ≠ bootReply
      · exact if_pos hreply
      · exact (if_neg hreply).trans (if_pos hne)
  · rw [hserver.packetValid hlen, isDhcpOffer, isDhcpAck, htype.isDhcp, htype.isDhcp]
    simp only [bind, Except.bind, pure, Except.pure, kind]
    by_cases hoffer : type = some dhcpOffer
    · simp [hoffer]
    · have hne : dhcpAck ≠ dhcpOffer := by decide
      by_cases hack : type = some dhcpAck <;> simp [hoffer, hack, hne]

lemma exists_seen {packet : UDPPacket} {t : Byte} (h : packetValid packet = .ok t) :
    ∃ type, Seen packet type := by
  by_cases hdropped : Dropped packet
  · exact ⟨none, .inl ⟨hdropped, rfl⟩⟩
  · have hdrop := id hdropped
    simp only [Dropped, not_or, not_not, not_exists, not_and, not_lt] at hdrop
    obtain ⟨hsrc, hdst, hlen, hop, hcookie⟩ := hdrop
    have hread := h
    rw [packetValid, if_neg (by simp [hsrc, hdst]), if_neg (not_lt.mpr hlen)] at hread
    simp only [bind_eq_ok, readByte_eq_ok] at hread
    obtain ⟨op, hop', hread⟩ := hread
    obtain rfl := hop op hop'
    rw [if_neg (by simp)] at hread
    simp only [bind_eq_ok, load32_eq_ok] at hread
    obtain ⟨cookie, ⟨hle, -⟩, -⟩ := hread
    have hserver : FromServer packet := ⟨hsrc, hdst, hop', hle, hcookie hle⟩
    rw [hserver.packetValid hlen, bind_eq_ok] at h
    obtain ⟨offer, hoffer, -⟩ := h
    obtain ⟨type, htype⟩ := exists_showsType hoffer
    exact ⟨type, .inr ⟨hlen, hserver, htype⟩⟩

/-! ## Acknowledgements -/

lemma lastBlock_cons (code : Byte) (b : ℕ) (bs : List ℕ) : lastBlock p code (b :: bs) =
    if HasCode p code b then some ((lastBlock p code bs).getD b) else lastBlock p code bs := by
  rw [lastBlock, List.filter_cons]
  by_cases h : HasCode p code b
  · simp [h, List.getLast?_cons, lastBlock]
  · simp [h, lastBlock]

section Turns

variable {fuel i : ℕ} {gatewayIp : Option ℕ} {n : Network}

lemma readOptions_end (h : HasCode p dhcpOptEnd i) :
    readOptions p (fuel + 1) i gatewayIp n = .ok (gatewayIp, n) := by
  rw [readOptions, readByte_eq_ok.mpr h]
  rfl

lemma readOptions_next (hle : i + dhcpOptionSize ≤ p.length) (hend : ¬ HasCode p dhcpOptEnd i)
    (hmask : HasCode p dhcpOptSubnetMask i → i + dhcpOptionSize + 4 ≤ p.length) :
    readOptions p (fuel + 1) i gatewayIp n = readOptions p fuel (next p i)
      (if HasCode p dhcpOptRouter i then some (i + dhcpOptionSize) else gatewayIp)
      (if HasCode p dhcpOptSubnetMask i then { n with subnetMask := blockAddress p i } else n) := by
  rw [dhcpOptionSize] at hle
  obtain ⟨code, hcode⟩ : ∃ code, p[i]? = some code := ⟨_, List.getElem?_eq_getElem (by omega)⟩
  have hiff : ∀ c, HasCode p c i ↔ code = c := fun c => by rw [HasCode, hcode, Option.some.injEq]
  have hlen : readByte p (i + 1) = .ok (p.getD (i + 1) 0) := readByte_getD (by omega)
  simp only [hiff] at hend hmask ⊢
  rw [readOptions, readByte_eq_ok.mpr hcode]
  refine (if_neg hend).trans ?_
  simp only [hlen]
  by_cases hcase : code = dhcpOptSubnetMask
  · have hload : load32 p (i + dhcpOptionSize) = .ok (blockAddress p i) :=
      load32_eq_ok.mpr ⟨hmask hcase, rfl⟩
    simp only [if_pos hcase, hload]
    rfl
  · simp only [if_neg hcase]
    rfl

lemma readOptions_turn {r : Option ℕ × Network}
    (h : readOptions p (fuel + 1) i gatewayIp n = .ok r) : HasCode p dhcpOptEnd i ∨
      i + dhcpOptionSize ≤ p.length ∧ ¬ HasCode p dhcpOptEnd i ∧
        (HasCode p dhcpOptSubnetMask i → i + dhcpOptionSize + 4 ≤ p.length) := by
  simp only [readOptions, bind_eq_ok, readByte_eq_ok] at h
  obtain ⟨code, hcode, h⟩ := h
  have hiff : ∀ c, HasCode p c i ↔ code = c := fun c => by rw [HasCode, hcode, Option.some.injEq]
  simp only [hiff]
  by_cases hend : code = dhcpOptEnd
  · exact .inl hend
  · rw [if_neg hend] at h
    by_cases hcase : code = dhcpOptSubnetMask
    · simp only [if_pos hcase, bind_eq_ok, load32_eq_ok, readByte_eq_ok] at h
      obtain ⟨-, ⟨mask, ⟨hmask, -⟩, -⟩, -⟩ := h
      exact .inr ⟨by omega, hend, fun _ => hmask⟩
    · simp only [if_neg hcase, bind_eq_ok, readByte_eq_ok] at h
      obtain ⟨-, -, len, hlen, -⟩ := h
      have hlt := (List.getElem?_eq_some_iff.mp hlen).1
      exact .inr ⟨hlt, hend, fun h => absurd h hcase⟩

end Turns

lemma readOptions_eq_ok : ∀ {fuel i : ℕ} {gatewayIp r : Option ℕ} {n n' : Network},
    readOptions p fuel i gatewayIp n = .ok (r, n') ↔
      ∃ bs j, bs.length < fuel ∧ Blocks p bs i j ∧ HasCode p dhcpOptEnd j ∧
        (∀ b ∈ bs, ¬ HasCode p dhcpOptEnd b ∧
          (HasCode p dhcpOptSubnetMask b → b + dhcpOptionSize + 4 ≤ p.length)) ∧
        r = ((lastBlock p dhcpOptRouter bs).map (· + dhcpOptionSize)).or gatewayIp ∧
        n' = { n with subnetMask :=
          ((lastBlock p dhcpOptSubnetMask bs).map (blockAddress p)).getD n.subnetMask } := by
  intro fuel
  induction fuel with
  | zero => simp [readOptions]
  | succ fuel ih =>
      intro i gatewayIp r n n'
      constructor
      · intro h
        rcases readOptions_turn h with hend | ⟨hle, hend, hmask⟩
        · rw [readOptions_end hend] at h
          obtain ⟨rfl, rfl⟩ := Prod.mk.inj (Except.ok.inj h)
          exact ⟨[], i, by simp, rfl, hend, by simp, by simp [lastBlock], by simp [lastBlock]⟩
        · rw [readOptions_next hle hend hmask] at h
          obtain ⟨bs, j, hfuel, hbs, hj, hall, rfl, rfl⟩ := ih.mp h
          refine ⟨i :: bs, j, by simpa using hfuel, ⟨rfl, hle, hbs⟩, hj, ?_, ?_, ?_⟩
          · intro b hb
            rcases List.mem_cons.mp hb with rfl | hb
            · exact ⟨hend, hmask⟩
            · exact hall b hb
          · rw [lastBlock_cons]
            split <;> cases lastBlock p dhcpOptRouter bs <;> simp
          · rw [lastBlock_cons]
            split <;> cases lastBlock p dhcpOptSubnetMask bs <;> simp
      · rintro ⟨bs, j, hfuel, hbs, hj, hall, rfl, rfl⟩
        rcases bs with _ | ⟨b, bs⟩
        · obtain rfl : i = j := hbs
          rw [readOptions_end hj]
          simp [lastBlock]
        · obtain ⟨rfl, hle, hbs⟩ := hbs
          obtain ⟨hend, hmask⟩ := hall b (by simp)
          rw [readOptions_next hle hend hmask, ih]
          refine ⟨bs, j, by simpa using hfuel, hbs, hj, fun c hc => hall c (by simp [hc]), ?_, ?_⟩
          · rw [lastBlock_cons]
            split <;> cases lastBlock p dhcpOptRouter bs <;> simp
          · rw [lastBlock_cons]
            split <;> cases lastBlock p dhcpOptSubnetMask bs <;> simp

/-- The network after an acknowledgement with these blocks, the last router of which is `b`. -/
def acked (p : List Byte) (bs : List ℕ) (b : ℕ) (n : Network) : Network :=
  Network.resolveMac (blockAddress p b) { n with
    subnetMask := ((lastBlock p dhcpOptSubnetMask bs).map (blockAddress p)).getD n.subnetMask
    ip := addressAt p dhcpYiaddr
    gatewayIp := blockAddress p b }

lemma handleAck_eq_ok {n n' : Network} : handleAck p n = .ok n' ↔
    ∃ bs b, ShowsEnd p bs ∧ lastBlock p dhcpOptRouter bs = some b ∧
      b + dhcpOptionSize + 4 ≤ p.length ∧ n' = acked p bs b n := by
  have hgateway : ∀ {bs : List ℕ} {a : IP},
      readGateway p (((lastBlock p dhcpOptRouter bs).map (· + dhcpOptionSize)).or none) = .ok a ↔
        ∃ b, lastBlock p dhcpOptRouter bs = some b ∧ b + dhcpOptionSize + 4 ≤ p.length ∧
          a = blockAddress p b := by
    intro bs a
    rcases lastBlock p dhcpOptRouter bs with _ | b
    · simp [readGateway]
    · simp [readGateway, load32_eq_ok, blockAddress]
  simp only [handleAck, Network.onIpReceived, bind_eq_ok, Prod.exists, readOptions_eq_ok]
  constructor
  · rintro ⟨-, -, ⟨bs, j, -, hbs, hj, hall, rfl, rfl⟩, yiaddr, hyiaddr, a, ha, h⟩
    obtain ⟨b, hb, hle, rfl⟩ := hgateway.mp ha
    obtain ⟨-, rfl⟩ := load32_eq_ok.mp hyiaddr
    obtain rfl := Except.ok.inj h
    exact ⟨bs, b, ⟨j, hbs, hj, hall⟩, hb, hle, rfl⟩
  · rintro ⟨bs, b, ⟨j, hbs, hj, hall⟩, hb, hle, rfl⟩
    have hlt := hasCode_lt hj
    have hfuel := hbs.le
    have hyiaddr : dhcpYiaddr + 4 ≤ p.length := by
      simp only [dhcpPacketSize, dhcpYiaddr] at hfuel ⊢
      omega
    simp only [dhcpOptionSize] at hfuel
    exact ⟨_, _, ⟨bs, j, by omega, hbs, hj, hall, rfl, rfl⟩, _, load32_eq_ok.mpr ⟨hyiaddr, rfl⟩, _,
      hgateway.mpr ⟨b, hb, hle, rfl⟩, rfl⟩

@[simp] lemma acked_subnetMask (bs : List ℕ) (b : ℕ) (n : Network) : (acked p bs b n).subnetMask =
    ((lastBlock p dhcpOptSubnetMask bs).map (blockAddress p)).getD n.subnetMask := rfl

@[simp] lemma acked_gatewayIp (bs : List ℕ) (b : ℕ) (n : Network) :
    (acked p bs b n).gatewayIp = blockAddress p b := rfl

/-! ## Packets that are read as they should be -/

/-- A packet of the server with these options and the length field of its datagram. -/
structure WellFormed (packet : UDPPacket) (opts : List PacketOption) : Prop where
  carries : Carries packet.payload opts
  fromServer : FromServer packet
  length : packet.length.toNat = udpHeaderSize + packet.payload.length

/-- The network knows what the options say. -/
def Knows (n n' : Network) (opts : List PacketOption) : Prop :=
  n'.subnetMask = (optionAddress dhcpOptSubnetMask opts).getD n.subnetMask ∧
    ∀ a, optionAddress dhcpOptRouter opts = some a → n'.gatewayIp = a

/-- `packet_valid` and `handle_ack` come to an end inside the payload and use no null address, and they see
the message type, the mask and the router of well-formed options. -/
def ReadRight (packet : UDPPacket) (n : Network) : Prop :=
  (∃ t, packetValid packet = .ok t ∧
    (t = dhcpAck → ∃ n', handleAck packet.payload n = .ok n')) ∧
  ∀ opts, WellFormed packet opts → packetValid packet = .ok (kind (messageType opts)) ∧
    (messageType opts = some dhcpAck →
      ∃ n', handleAck packet.payload n = .ok n' ∧ Knows n n' opts)

/-- The blocks go on inside the payload to the message type, or to the end that the length field sets, and
in an acknowledgement to an `END`, with a router among them; and they show what well-formed options say. -/
def BlocksShow (packet : UDPPacket) (n : Network) : Prop :=
  ∃ type, Seen packet type ∧ (∀ opts, WellFormed packet opts → kind type = kind (messageType opts)) ∧
    (type = some dhcpAck → ∃ bs b, ShowsEnd packet.payload bs ∧
      lastBlock packet.payload dhcpOptRouter bs = some b ∧
      b + dhcpOptionSize + 4 ≤ packet.payload.length ∧
      ∀ opts, WellFormed packet opts → Knows n (acked packet.payload bs b n) opts)

end DHCP

end BrebOS

import BrebOS.Lib.Loop

/-!
# Bytes and faults of the network stack

`NetworkConsts.h` and `Endianness.h`.  What the stack reads out of a packet it reads through the
functions of this file, which fail where the code would read past the end of the packet.
-/

namespace BrebOS

abbrev Byte := BitVec 8

/-- What a function of the network stack must never do. -/
inductive NetFault
  /-- A read or write outside the buffer it is made in. -/
  | outOfBounds
  /-- A size computed by an unsigned subtraction that went below zero. -/
  | wrapped
  /-- A null pointer is read through. -/
  | nullPointer
  /-- A buffer that was given back is read or given back again. -/
  | released
  /-- A recursion that does not come to an end. -/
  | endless
  deriving DecidableEq, Repr

/-! ## Endianness -/

/-- `Endianness::switch16`. -/
def switch16 (nb : BitVec 16) : BitVec 16 := ((nb >>> 8) &&& 0xff) ||| ((nb <<< 8) &&& 0xff00)

/-- `Endianness::switch32`. -/
def switch32 (nb : BitVec 32) : BitVec 32 :=
  ((nb >>> 24) &&& 0xff) ||| ((nb <<< 8) &&& 0xff0000) ||| ((nb >>> 8) &&& 0xff00) |||
    ((nb <<< 24) &&& 0xff000000)

/-! ## Reading a packet -/

/-- A byte of a packet. -/
def readByte (p : List Byte) (i : ℕ) : Except NetFault Byte :=
  match p[i]? with
  | some b => .ok b
  | none => .error .outOfBounds

/-- A `uint16_t` of a packet, as it is loaded. -/
def load16 (p : List Byte) (i : ℕ) : Except NetFault (BitVec 16) := do
  let a ← readByte p i
  let b ← readByte p (i + 1)
  return b ++ a

/-- Bytes that `memcpy` takes from a packet. -/
def readBytes (p : List Byte) (i n : ℕ) : Except NetFault (List Byte) :=
  if i + n ≤ p.length then .ok ((p.drop i).take n) else .error .outOfBounds

/-- A `uint32_t` of a packet, as it is loaded. -/
def load32 (p : List Byte) (i : ℕ) : Except NetFault (BitVec 32) := do
  let a ← load16 p i
  let b ← load16 p (i + 2)
  return b ++ a

/-- `strlen` of a string in a packet. -/
def strlenAt (p : List Byte) (i : ℕ) : Except NetFault ℕ :=
  match (p.drop i).findIdx? (· == 0) with
  | some n => .ok n
  | none => .error .outOfBounds

/-- The C string in a buffer. -/
def cstring (buf : List Byte) : List Byte := buf.takeWhile (· != 0)

/-! ## Writing to a buffer -/

/-- A byte is written to a buffer. -/
def writeByte (buf : List Byte) (i : ℕ) (b : Byte) : Except NetFault (List Byte) :=
  if i < buf.length then .ok (buf.set i b) else .error .outOfBounds

/-- `memcpy` to a buffer. -/
def writeBytes (buf : List Byte) (i : ℕ) (bs : List Byte) : Except NetFault (List Byte) :=
  if i + bs.length ≤ buf.length then .ok (buf.take i ++ bs ++ buf.drop (i + bs.length))
  else .error .outOfBounds

lemma readByte_eq_ok {p : List Byte} {i : ℕ} {b : Byte} : readByte p i = .ok b ↔ p[i]? = some b := by
  rw [readByte]
  cases p[i]? <;> simp

lemma load16_eq_ok {p : List Byte} {i : ℕ} {w : BitVec 16} : load16 p i = .ok w ↔
    ∃ a b, p[i]? = some a ∧ p[i + 1]? = some b ∧ w = b ++ a := by
  simp only [load16, bind_eq_ok, readByte_eq_ok, pure, Except.pure, Except.ok.injEq]
  constructor
  · rintro ⟨a, ha, b, hb, rfl⟩
    exact ⟨a, b, ha, hb, rfl⟩
  · rintro ⟨a, b, ha, hb, rfl⟩
    exact ⟨a, ha, b, hb, rfl⟩

/-- A word of a packet, in network order. -/
def wordAt (p : List Byte) (i : ℕ) : BitVec 16 := p.getD i 0 ++ p.getD (i + 1) 0

lemma getLsbD_append_byte (a b : Byte) (i : ℕ) : BitVec.getLsbD (a ++ b : BitVec 16) i =
    if i < 8 then b.getLsbD i else a.getLsbD (i - 8) := BitVec.getLsbD_append

lemma switch16_append (a b : Byte) : switch16 (b ++ a) = a ++ b := by
  apply BitVec.eq_of_getLsbD_eq
  intro i hi
  simp only [switch16, BitVec.getLsbD_or, BitVec.getLsbD_and, BitVec.getLsbD_ushiftRight,
    BitVec.getLsbD_shiftLeft, getLsbD_append_byte]
  interval_cases i <;> simp

lemma load16_word {p : List Byte} {i : ℕ} {w : BitVec 16} (h : load16 p i = .ok w) :
    i + 2 ≤ p.length ∧ switch16 w = wordAt p i := by
  obtain ⟨a, b, ha, hb, rfl⟩ := load16_eq_ok.mp h
  have hlt := (List.getElem?_eq_some_iff.mp hb).1
  refine ⟨by omega, ?_⟩
  rw [switch16_append, wordAt, List.getD_eq_getElem?_getD, List.getD_eq_getElem?_getD, ha, hb]
  rfl

lemma exists_load16 {p : List Byte} {i : ℕ} (h : i + 2 ≤ p.length) : ∃ w, load16 p i = .ok w :=
  ⟨_, load16_eq_ok.mpr ⟨_, _, List.getElem?_eq_getElem (by omega), List.getElem?_eq_getElem (by omega),
    rfl⟩⟩

/-- Four bytes of a packet, as they are loaded. -/
def addressAt (p : List Byte) (i : ℕ) : BitVec 32 :=
  (p.getD (i + 3) 0 ++ p.getD (i + 2) 0) ++ (p.getD (i + 1) 0 ++ p.getD i 0)

lemma load32_eq_ok {p : List Byte} {i : ℕ} {w : BitVec 32} : load32 p i = .ok w ↔
    i + 4 ≤ p.length ∧ w = addressAt p i := by
  have hget : ∀ j a, p[j]? = some a ↔ j < p.length ∧ a = p.getD j 0 := by
    intro j a
    rw [List.getElem?_eq_some_iff]
    constructor
    · rintro ⟨hj, rfl⟩
      exact ⟨hj, by simp [hj]⟩
    · rintro ⟨hj, rfl⟩
      exact ⟨hj, by simp [hj]⟩
  simp only [load32, bind_eq_ok, load16_eq_ok, hget, pure, Except.pure, Except.ok.injEq]
  constructor
  · rintro ⟨-, ⟨a, b, ⟨-, rfl⟩, ⟨-, rfl⟩, rfl⟩, -, ⟨c, d, ⟨-, rfl⟩, ⟨hd, rfl⟩, rfl⟩, rfl⟩
    exact ⟨hd, rfl⟩
  · rintro ⟨hlt, rfl⟩
    exact ⟨_, ⟨_, _, ⟨by omega, rfl⟩, ⟨by omega, rfl⟩, rfl⟩, _,
      ⟨_, _, ⟨by omega, rfl⟩, ⟨by omega, rfl⟩, rfl⟩, rfl⟩

lemma readBytes_eq_ok {p bs : List Byte} {i n : ℕ} : readBytes p i n = .ok bs ↔
    i + n ≤ p.length ∧ (p.drop i).take n = bs := by
  rw [readBytes]
  split <;> simp_all

lemma readBytes_length {p bs : List Byte} {i n : ℕ} (h : readBytes p i n = .ok bs) : bs.length = n := by
  obtain ⟨hle, rfl⟩ := readBytes_eq_ok.mp h
  simp
  omega

lemma writeByte_eq_ok {buf buf' : List Byte} {i : ℕ} {b : Byte} : writeByte buf i b = .ok buf' ↔
    i < buf.length ∧ buf.set i b = buf' := by
  rw [writeByte]
  split <;> simp_all

lemma writeBytes_eq_ok {buf buf' bs : List Byte} {i : ℕ} : writeBytes buf i bs = .ok buf' ↔
    i + bs.length ≤ buf.length ∧ buf.take i ++ bs ++ buf.drop (i + bs.length) = buf' := by
  rw [writeBytes]
  split <;> simp_all

/-- A UDP packet, the fields of its header in host order. -/
structure UDPPacket where
  srcPort : BitVec 16
  dstPort : BitVec 16
  length : BitVec 16
  payload : List Byte
  deriving DecidableEq, Repr

end BrebOS

import BrebOS.Core.Defs
import BrebOS.Lib.Loop

/-!
# `CircularBuffer<char>`

`utils/circular_buffer.hxx`.  Pointers into the buffer are offsets from `data`, so `limit` is the
capacity.  A `memcpy` outside the buffer or outside the range of the caller is a
`Fault.outOfBounds`.

`contents` is the queue the buffer stands for.  Reading always does what it should.  Writing does
only while the queue does not wrap: once it does, the length of the first `memcpy` is the difference
`limit - beg - size`, which is negative.
-/

namespace BrebOS

/-- `CircularBuffer<char>`. -/
structure CircularBuffer where
  capacity : ℕ
  beg : ℕ := 0
  size : ℕ := 0
  data : ℕ → UInt8 := fun _ => 0

namespace CircularBuffer

/-- `CircularBuffer::section`. -/
structure Section where
  beg : ℕ
  size : ℕ
  deriving DecidableEq, Repr

/-- `CircularBuffer::read`: the two sections to copy from, and the buffer without them. -/
def read (n : ℕ) (b : CircularBuffer) : (Section × Section) × CircularBuffer :=
  let n := min n b.size
  let sections :=
    if b.beg + n > b.capacity then
      (⟨b.beg, b.capacity - b.beg⟩, ⟨0, n - (b.capacity - b.beg)⟩)
    else (⟨b.beg, n⟩, ⟨b.beg + n, 0⟩)
  let beg := b.beg + n
  (sections, { b with
    beg := if b.capacity ≤ beg then beg - b.capacity else beg
    size := b.size - n })

/-- `memcpy` of `n` bytes of the caller, from `off` on, to the buffer. -/
def copyIn (dst : ℕ) (buf : List UInt8) (off n : ℕ) (b : CircularBuffer) :
    Except Fault CircularBuffer :=
  if b.capacity < dst + n ∨ buf.length < off + n then .error .outOfBounds
  else .ok { b with
    data := fun i => if dst ≤ i ∧ i < dst + n then buf.getD (off + (i - dst)) 0 else b.data i }

/-- `memcpy` of a section to the caller. -/
def copyOut (s : Section) (b : CircularBuffer) : Except Fault (List UInt8) :=
  if b.capacity < s.beg + s.size then .error .outOfBounds
  else .ok ((List.range s.size).map fun i => b.data (s.beg + i))

/-- `CircularBuffer::write` of the bytes of the caller: how many were accepted. -/
def write (buf : List UInt8) (b : CircularBuffer) : Except Fault (ℕ × CircularBuffer) :=
  let n := min buf.length (b.capacity - b.size)
  if b.beg + b.size + n ≤ b.capacity then do
    let b' ← copyIn (b.beg + b.size) buf 0 n b
    .ok (n, { b' with size := b.size + n })
  else do
    let s1 := u32Sub (b.capacity - b.beg) b.size
    let b' ← copyIn (b.beg + b.size) buf 0 s1 b
    let s2 := u32Sub n s1
    let b' ← copyIn 0 buf s1 s2 b'
    .ok (n, { b' with size := b.size + n })

/-! ## The queue -/

/-- The bytes buffered, oldest first. -/
def contents (b : CircularBuffer) : List UInt8 :=
  (List.range b.size).map fun i => b.data ((b.beg + i) % b.capacity)

/-- The pointers are inside the buffer. -/
structure InBounds (b : CircularBuffer) : Prop where
  pos : 0 < b.capacity
  capacity_lt : b.capacity < 2147483648
  beg_lt : b.beg < b.capacity
  size_le : b.size ≤ b.capacity

variable {b b' : CircularBuffer} {buf : List UInt8} {n i : ℕ}

@[simp] lemma length_contents : b.contents.length = b.size := by simp [contents]

lemma getElem_contents (hi : i < b.contents.length) :
    b.contents[i] = b.data ((b.beg + i) % b.capacity) := by simp [contents]

lemma InBounds.position (h : b.InBounds) (hi : i ≤ b.capacity) : (b.beg + i) % b.capacity =
    if b.beg + i < b.capacity then b.beg + i else b.beg + i - b.capacity := by
  have := h.beg_lt
  have := h.pos
  split_ifs with hlt
  · exact Nat.mod_eq_of_lt hlt
  · rw [Nat.mod_eq_sub_mod (by omega), Nat.mod_eq_of_lt]
    rcases Nat.lt_or_ge (b.beg + i - b.capacity) b.capacity with h' | h'
    · exact h'
    · omega

/-! ## Reading -/

lemma InBounds.read (h : b.InBounds) : (b.read n).2.InBounds := by
  have := h.beg_lt
  have := h.size_le
  have hmin : min n b.size ≤ b.size := min_le_right _ _
  refine ⟨h.pos, h.capacity_lt, ?_, ?_⟩
  · simp only [CircularBuffer.read]
    split_ifs <;> omega
  · simp only [CircularBuffer.read]
    omega

/-- **A read takes the oldest bytes from the queue.** -/
lemma contents_read (h : b.InBounds) : (b.read n).2.contents = b.contents.drop n := by
  have hbeg := h.beg_lt
  have hsize := h.size_le
  have hlen : (b.read n).2.contents.length = (b.contents.drop n).length := by
    rw [length_contents, List.length_drop, length_contents]
    simp only [read]
    omega
  refine List.ext_getElem hlen fun i hi hi' => ?_
  rw [List.length_drop, length_contents] at hi'
  have hmin : min n b.size = n := min_eq_left (by omega)
  rw [getElem_contents, List.getElem_drop, getElem_contents]
  -- both sides name the same position
  have hpos := h.read (n := n)
  have hcap : (b.read n).2.capacity = b.capacity := rfl
  rw [hpos.position (by rw [hcap]; omega), h.position (by omega)]
  simp only [read, hmin]
  congr 1
  split_ifs <;> omega

/-- **The sections of a read are the oldest bytes**, and inside the buffer. -/
lemma copyOut_read (h : b.InBounds) : ∃ l₁ l₂, copyOut (b.read n).1.1 b = .ok l₁ ∧
    copyOut (b.read n).1.2 b = .ok l₂ ∧ l₁ ++ l₂ = b.contents.take n ∧
    (b.read n).1.1.size = l₁.length ∧ (b.read n).1.2.size = l₂.length := by
  have hbeg := h.beg_lt
  have hsize := h.size_le
  have hmin : min n b.size ≤ b.size := min_le_right _ _
  simp only [read]
  by_cases hwrap : b.beg + min n b.size > b.capacity
  · rw [if_pos hwrap]
    refine ⟨_, _, if_neg (by simp only; omega), if_neg (by simp only; omega), ?_, by simp, by simp⟩
    refine List.ext_getElem (by simp; omega) fun i hi hi' => ?_
    simp only [List.length_append, List.length_map, List.length_range] at hi
    rw [List.getElem_take, getElem_contents, h.position (by omega)]
    by_cases hi₁ : i < b.capacity - b.beg
    · rw [List.getElem_append_left (by simpa using hi₁), if_pos (by omega)]
      simp
    · rw [List.getElem_append_right (by simpa using hi₁), if_neg (by omega)]
      simp only [List.getElem_map, List.getElem_range, List.length_map, List.length_range]
      congr 1
      omega
  · rw [if_neg hwrap]
    refine ⟨_, _, if_neg (by simp only; omega), if_neg (by simp only; omega), ?_, by simp, by simp⟩
    refine List.ext_getElem (by simp) fun i hi hi' => ?_
    simp only [List.length_append, List.length_map, List.length_range] at hi
    rw [List.getElem_take, getElem_contents, h.position (by omega), if_pos (by omega)]
    simp

/-! ## Writing -/

/-- The data after a write: `n` bytes behind the queue, around the end of the buffer. -/
def Appended (buf : List UInt8) (n : ℕ) (b b' : CircularBuffer) : Prop :=
  b'.capacity = b.capacity ∧ b'.beg = b.beg ∧ b'.size = b.size + n ∧
    ∀ i, i < b.size + n → b'.data ((b.beg + i) % b.capacity) =
      if i < b.size then b.data ((b.beg + i) % b.capacity) else buf.getD (i - b.size) 0

lemma Appended.contents (h : Appended buf n b b') (hn : n ≤ buf.length) :
    b'.contents = b.contents ++ buf.take n := by
  obtain ⟨hcap, hbeg, hsize, hdata⟩ := h
  refine List.ext_getElem (by simp [hsize, hn]) fun i hi hi' => ?_
  rw [length_contents, hsize] at hi
  rw [getElem_contents, hcap, hbeg, hdata i hi]
  by_cases hold : i < b.size
  · rw [if_pos hold, List.getElem_append_left (by simpa using hold), getElem_contents]
  · have hlt : i - b.size < buf.length := by omega
    rw [if_neg hold, List.getElem_append_right (by simpa using hold), List.getElem_take,
      List.getD_eq_getElem?_getD, List.getElem?_eq_getElem hlt]
    simp

lemma Appended.inBounds (h : Appended buf n b b') (hb : b.InBounds) (hn : b.size + n ≤ b.capacity) :
    b'.InBounds := by
  obtain ⟨hcap, hbeg, hsize, -⟩ := h
  exact ⟨hcap ▸ hb.pos, hcap ▸ hb.capacity_lt, by rw [hbeg, hcap]; exact hb.beg_lt,
    by rw [hsize, hcap]; exact hn⟩

/-- **A write appends to the queue what there is room for**, while the queue does not wrap. -/
lemma write_spec (buf : List UInt8) (h : b.InBounds) (hflat : b.beg + b.size ≤ b.capacity) : ∃ b',
    b.write buf = .ok (min buf.length (b.capacity - b.size), b') ∧
      Appended buf (min buf.length (b.capacity - b.size)) b b' := by
  have hbeg := h.beg_lt
  have hcap := h.capacity_lt
  set n := min buf.length (b.capacity - b.size) with hn
  have hlen : n ≤ buf.length := min_le_left _ _
  have hroom : n ≤ b.capacity - b.size := min_le_right _ _
  rw [write, ← hn]
  by_cases hone : b.beg + b.size + n ≤ b.capacity
  · -- the free space does not wrap either
    simp only [if_pos hone]
    refine ⟨_, bind_eq_ok.mpr ⟨_, if_neg (by omega), rfl⟩, rfl, rfl, rfl, fun i hi => ?_⟩
    have hmod : (b.beg + i) % b.capacity = b.beg + i := Nat.mod_eq_of_lt (by omega)
    rw [hmod]
    by_cases hold : i < b.size
    · simp only [if_pos hold, if_neg (show ¬ (b.beg + b.size ≤ b.beg + i ∧
        b.beg + i < b.beg + b.size + n) by omega)]
    · simp only [if_neg hold, if_pos (show b.beg + b.size ≤ b.beg + i ∧
        b.beg + i < b.beg + b.size + n by omega)]
      congr 1
      omega
  · -- the first part goes up to the end, the second to the start
    have hs1 : u32Sub (b.capacity - b.beg) b.size = b.capacity - b.beg - b.size :=
      u32Sub_of_le (by omega) (by omega)
    have hs2 : u32Sub n (b.capacity - b.beg - b.size) = n - (b.capacity - b.beg - b.size) :=
      u32Sub_of_le (by omega) (by omega)
    simp only [if_neg hone, hs1, hs2]
    refine ⟨_, bind_eq_ok.mpr ⟨_, if_neg (by omega), bind_eq_ok.mpr ⟨_, if_neg (by simp only; omega),
      rfl⟩⟩, rfl, rfl, rfl, fun i hi => ?_⟩
    rw [h.position (by omega)]
    by_cases hold : i < b.size
    · simp only [if_pos hold, if_pos (show b.beg + i < b.capacity by omega)]
      rw [if_neg (by omega), if_neg (by omega)]
    · simp only [if_neg hold]
      by_cases hlt : b.beg + i < b.capacity
      · simp only [if_pos hlt]
        rw [if_neg (by omega), if_pos (by omega)]
        congr 1
        omega
      · simp only [if_neg hlt]
        rw [if_pos (by omega)]
        congr 1
        omega

/-- **A write while the queue wraps goes out of bounds**, whatever it writes: the first `memcpy`
starts behind the end of the buffer, and its length is a negative number. -/
lemma write_wrapped (h : b.InBounds) (hwrap : b.capacity < b.beg + b.size) :
    b.write buf = .error .outOfBounds := by
  have hbeg := h.beg_lt
  have hcap := h.capacity_lt
  have hsize := h.size_le
  rw [write]
  simp only [if_neg (show ¬ b.beg + b.size + min buf.length (b.capacity - b.size) ≤ b.capacity by
    omega)]
  have hout : copyIn (b.beg + b.size) buf 0 (u32Sub (b.capacity - b.beg) b.size) b =
      .error .outOfBounds := if_pos (Or.inl (by omega))
  rw [hout]
  rfl

end CircularBuffer

end BrebOS

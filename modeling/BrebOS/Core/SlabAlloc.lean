import BrebOS.Core.Defs

/-!
# Slabs by size

`core/SlabAlloc.h`.  `slab_allocate` rounds the size up to a power of two and takes the slab
allocator of that size out of a table that a template builds; behind the end of the table it falls
back to `malloc`.  `slab_deallocate` computes the same index.

* `__builtin_clz(0)` is undefined: `clzZero` is what the processor leaves for it.
* A shift by the width of the word, and an index outside a table, are `none`.

The two sides agree as long as the index is in the table.  Behind it `slab_deallocate` calls `free`
and **goes on**: the `if` has no `return`, and the table is read past its end.
-/

namespace BrebOS.SlabAlloc

/-- `__builtin_clz` of a `uint32_t`. -/
def builtinClz (clzZero x : ℕ) : ℕ := if x = 0 then clzZero else 31 - Nat.log2 x

/-- `1 << n` in 32 bits. -/
def shiftOne (n : ℕ) : Option ℕ := if n < 32 then some (2 ^ n) else none

/-- `Pow2<N>::value`; there is no `Pow2<0>`. -/
def pow2 : ℕ → ℕ
  | 0 => 0
  | 1 => 1
  | n + 2 => pow2 (n + 1) * 2

/-- `MakeIndexSequence<N, Is...>::type`. -/
def makeIndexSequence : ℕ → List ℕ → List ℕ
  | 0, is => is
  | n + 1, is => makeIndexSequence n ((n + 1) :: is)

/-- `BucketSizes`. -/
def bucketSizes : List ℕ := makeIndexSequence 8 []

/-- Where a block comes from: the slab allocator of a size, or the general heap. -/
inductive Allocator
  | slab (size : ℕ)
  | heap
  deriving DecidableEq, Repr

/-- `AllocatorsTable::value`. -/
def allocatorsTable : List Allocator := bucketSizes.map fun i => .slab (pow2 i)

/-- `DeallocatorsTable::value`. -/
def deallocatorsTable : List Allocator := bucketSizes.map fun i => .slab (pow2 i)

section Calls

variable (clzZero : ℕ)

/-- `p2`. -/
def p2 (x : ℕ) : Option ℕ :=
  if x = 1 then some 1 else shiftOne (u32Sub 32 (builtinClz clzZero (u32Sub x 1)))

/-- The index both functions compute. -/
def index (size : ℕ) : Option ℕ := do
  let pow ← p2 clzZero size
  some (u32Sub 32 (builtinClz clzZero (u32Sub pow 1)))

/-- `slab_allocate`: the allocator that is asked for the block. -/
def slabAllocate (size : ℕ) : Option Allocator := do
  let idx ← index clzZero size
  if idx ≥ allocatorsTable.length then some .heap else allocatorsTable[idx]?

/-- `slab_deallocate`: the allocators the block is given back to, in order. -/
def slabDeallocate (data size : ℕ) : Option (List Allocator) := do
  if data = 0 then some []
  else do
    let idx ← index clzZero size
    let first := if idx ≥ deallocatorsTable.length then [Allocator.heap] else []
    let slab ← deallocatorsTable[idx]?
    some (first ++ [slab])

end Calls

/-- How many bytes a block has that an allocator gives for a request. -/
def Allocator.blockSize (size : ℕ) : Allocator → ℕ
  | .slab s => s
  | .heap => size

/-- The block is big enough, and goes back once, to where it came from; every index is in its
table. -/
def Balanced (clzZero data size : ℕ) : Prop :=
  ∃ a, slabAllocate clzZero size = some a ∧ size ≤ a.blockSize size ∧
    slabDeallocate clzZero data size = some [a]

/-! ## The index -/

variable {clzZero data size idx : ℕ}

lemma allocatorsTable_getElem? (h : idx < 8) : allocatorsTable[idx]? = some (.slab (2 ^ idx)) := by
  have : ∀ i < 8, allocatorsTable[i]? = some (.slab (2 ^ i)) := by decide
  exact this idx h

lemma length_allocatorsTable : allocatorsTable.length = 8 := rfl

lemma deallocatorsTable_eq : deallocatorsTable = allocatorsTable := rfl

lemma log2_two_pow_sub_one (k : ℕ) : Nat.log2 (2 ^ (k + 1) - 1) = k := by
  have hpos : 2 ^ k ≤ 2 ^ (k + 1) - 1 := by
    have := Nat.one_le_two_pow (n := k)
    rw [Nat.pow_succ]
    omega
  have hlt : 2 ^ (k + 1) - 1 < 2 ^ (k + 1) := Nat.sub_lt (by positivity) (by decide)
  exact (Nat.log2_eq_iff (by have := Nat.one_le_two_pow (n := k); omega)).mpr ⟨hpos, hlt⟩

lemma index_eq (clzZero : ℕ) (h₂ : 2 ≤ size) (hmax : size < 4294967296) :
    index clzZero size = if size ≤ 2147483648 then some (Nat.log2 (size - 1) + 1) else none := by
  have hsub : u32Sub size 1 = size - 1 := u32Sub_of_le (by omega) hmax
  have hlog : Nat.log2 (size - 1) < 32 := (Nat.log2_lt (by omega)).mpr (by omega)
  have hclz : u32Sub 32 (builtinClz clzZero (u32Sub size 1)) = Nat.log2 (size - 1) + 1 := by
    rw [hsub, builtinClz, if_neg (by omega), u32Sub]
    omega
  rw [index, p2, if_neg (by omega), hclz, shiftOne]
  by_cases hbig : size ≤ 2147483648
  · have hlog' : Nat.log2 (size - 1) < 31 := (Nat.log2_lt (by omega)).mpr (by omega)
    have hpow : 2 ^ (Nat.log2 (size - 1) + 1) < 4294967296 :=
      lt_of_lt_of_le (Nat.pow_lt_pow_right (by decide) (by omega)) (by decide : 2 ^ 32 ≤ 4294967296)
    have hone : 2 ≤ 2 ^ (Nat.log2 (size - 1) + 1) := by
      rw [Nat.pow_succ]
      have := Nat.one_le_two_pow (n := Nat.log2 (size - 1))
      omega
    rw [if_pos (by omega), if_pos hbig]
    simp only [Option.bind_eq_bind, Option.bind_some, Option.some.injEq]
    rw [u32Sub_of_le (by omega) hpow, builtinClz, if_neg (by omega), log2_two_pow_sub_one, u32Sub]
    omega
  · have hlog' : 31 ≤ Nat.log2 (size - 1) := (Nat.le_log2 (by omega)).mpr (by omega)
    rw [if_neg (by omega), if_neg hbig]
    rfl

lemma index_one : index clzZero 1 = some (u32Sub 32 clzZero) := rfl

/-- **In the table** the block is big enough and goes back to the same slab. -/
lemma balanced_of_lt (hdata : data ≠ 0) (hidx : index clzZero size = some idx) (hlt : idx < 8)
    (hsize : size ≤ 2 ^ idx) : Balanced clzZero data size := by
  refine ⟨.slab (2 ^ idx), ?_, hsize, ?_⟩
  · simp [slabAllocate, hidx, length_allocatorsTable, allocatorsTable_getElem? hlt, Nat.not_le.mpr hlt]
  · simp [slabDeallocate, hdata, hidx, deallocatorsTable_eq, length_allocatorsTable,
      allocatorsTable_getElem? hlt, Nat.not_le.mpr hlt]

/-- **Behind the table** `slab_deallocate` indexes past its end. -/
lemma not_balanced_of_le (hdata : data ≠ 0) (hidx : index clzZero size = some idx) (hle : 8 ≤ idx) :
    ¬ Balanced clzZero data size := by
  rintro ⟨a, -, -, hback⟩
  have hnone : deallocatorsTable[idx]? = none := List.getElem?_eq_none hle
  simp [slabDeallocate, hdata, hidx, hnone] at hback

/-- **`slab_allocate` and `slab_deallocate` fit together** exactly for the sizes from 2 to 128; for
one byte it depends on what `__builtin_clz(0)` leaves. -/
theorem balanced_iff (hdata : data ≠ 0) (hsize : 1 ≤ size) (hmax : size < 2 ^ 32) :
    Balanced clzZero data size ↔ 2 ≤ size ∧ size ≤ 128 ∨ size = 1 ∧ u32Sub 32 clzZero < 8 := by
  rcases Nat.eq_or_lt_of_le hsize with rfl | h₂
  · constructor
    · intro h
      by_contra hbig
      refine not_balanced_of_le hdata index_one ?_ h
      omega
    · intro h
      exact balanced_of_lt hdata index_one (by omega) Nat.one_le_two_pow
  · have hidx := index_eq clzZero h₂ hmax
    by_cases hbig : size ≤ 2147483648
    · rw [if_pos hbig] at hidx
      have hlog : Nat.log2 (size - 1) < 7 ↔ size - 1 < 128 := Nat.log2_lt (by omega)
      constructor
      · intro h
        by_contra hnot
        refine not_balanced_of_le hdata hidx ?_ h
        omega
      · intro h
        refine balanced_of_lt hdata hidx (by omega) ?_
        have := (Nat.lt_log2_self (n := size - 1))
        omega
    · rw [if_neg hbig] at hidx
      constructor
      · rintro ⟨a, halloc, -⟩
        simp [slabAllocate, hidx] at halloc
      · intro h
        omega

/-- A block of 100 bytes is a slab of 128. -/
theorem balanced_hundred : Balanced 32 4096 100 :=
  (balanced_iff (by decide) (by decide) (by decide)).mpr (Or.inl (by decide))

/-- **A block of 200 bytes** comes from the heap; giving it back reads past the end of the table,
after `free`. -/
theorem not_balanced_two_hundred : slabAllocate 32 200 = some .heap ∧ ¬ Balanced 32 4096 200 := by
  have hidx : index 32 200 = some 8 := by decide +kernel
  exact ⟨by simp [slabAllocate, hidx, length_allocatorsTable],
    not_balanced_of_le (by decide) hidx le_rfl⟩

end BrebOS.SlabAlloc

import BrebOS.Core.Defs

/-!
# Moving bytes

`memmove` of `kstring.cpp`.  It copies upwards or downwards, and what it has copied so far never covers
a byte that it has yet to read.
-/

namespace BrebOS.Kstring

/-- The bytes of the address space. -/
abbrev Memory := ℕ → UInt8

/-- `*(p + i) = *(s + i)`. -/
def copyByte (p s i : ℕ) (mem : Memory) : Memory :=
  Function.update mem (u32 (p + i)) (mem (u32 (s + i)))

/-- `for (size_t i = 0; i < n; i++) *(p + i) = *(s + i);`. -/
def copyUp (p s n : ℕ) (mem : Memory) : Memory :=
  (List.range n).foldl (fun mem i => copyByte p s i mem) mem

/-- `for (size_t i = n - 1; i > 0; i--) *(p + i) = *(s + i);`, from `i` on. -/
def copyDown (p s : ℕ) : ℕ → Memory → Memory
  | 0, mem => mem
  | i + 1, mem => copyDown p s i (copyByte p s (i + 1) mem)

/-- `ov` of `memmove`. -/
def overlap (p s n : ℕ) : ℕ := if s ≤ p ∧ p ≤ u32 (s + n) then u32Sub (u32 (s + n)) p else 0

/-- `memmove`: what it returns, and the memory. -/
def memmove (dest src n : ℕ) (mem : Memory) : ℕ × Memory :=
  if n = 0 then (dest, mem)
  else if 0 < overlap dest src n then
    -- the loop leaves out index 0
    let mem := copyDown dest src (n - 1) mem
    (dest, Function.update mem (u32 dest) (mem (u32 src)))
  else (dest, copyUp dest src n mem)

/-- The bytes from `lo` on and before `hi` of a range are copied, and nothing else is written. -/
structure Copied (p s lo hi : ℕ) (mem mem' : Memory) : Prop where
  copied : ∀ i, lo ≤ i → i < hi → mem' (p + i) = mem (s + i)
  frame : ∀ a, (∀ i, lo ≤ i → i < hi → a ≠ p + i) → mem' a = mem a

variable {p s n lo hi i : ℕ} {mem mem' : Memory}

lemma copyByte_eq (hp : p + i < 4294967296) (hs : s + i < 4294967296) :
    copyByte p s i mem = Function.update mem (p + i) (mem (s + i)) := by
  rw [copyByte, u32_of_lt hp, u32_of_lt hs]

lemma copied_nothing (p s i : ℕ) (mem : Memory) : Copied p s i i mem mem := by
  refine ⟨?_, ?_⟩
  · intro j hle hlt
    omega
  · intro a _
    rfl

lemma Copied.up (h : Copied p s lo hi mem mem') (hle : lo ≤ hi)
    (hkept : ∀ i, lo ≤ i → i < hi → s + hi ≠ p + i) :
    Copied p s lo (hi + 1) mem (Function.update mem' (p + hi) (mem' (s + hi))) := by
  have hread : mem' (s + hi) = mem (s + hi) := h.frame _ hkept
  refine ⟨?_, ?_⟩
  · intro i hlo hhi
    by_cases hi' : i = hi
    · subst hi'
      rw [Function.update_self, hread]
    · rw [Function.update_of_ne (by omega)]
      exact h.copied i hlo (by omega)
  · intro a ha
    rw [Function.update_of_ne (ha hi hle (by omega))]
    refine h.frame a ?_
    intro i hlo hhi
    exact ha i hlo (by omega)

lemma Copied.down (h : Copied p s (lo + 1) hi mem mem') (hlt : lo < hi)
    (hkept : ∀ i, lo < i → i < hi → s + lo ≠ p + i) :
    Copied p s lo hi mem (Function.update mem' (p + lo) (mem' (s + lo))) := by
  have hread : mem' (s + lo) = mem (s + lo) := h.frame _ hkept
  refine ⟨?_, ?_⟩
  · intro i hlo hhi
    by_cases hi' : i = lo
    · subst hi'
      rw [Function.update_self, hread]
    · rw [Function.update_of_ne (by omega)]
      exact h.copied i (by omega) hhi
  · intro a ha
    rw [Function.update_of_ne (ha lo le_rfl hlt)]
    refine h.frame a ?_
    intro i hlo hhi
    exact ha i (by omega) hhi

lemma copied_copyUp (hp : p + n ≤ 4294967296) (hs : s + n ≤ 4294967296) (horder : p ≤ s ∨ s + n ≤ p) :
    Copied p s 0 n mem (copyUp p s n mem) := by
  suffices h : ∀ k ≤ n, Copied p s 0 k mem (copyUp p s k mem) from h n le_rfl
  intro k
  induction k with
  | zero =>
      intro _
      exact copied_nothing p s 0 mem
  | succ k ih =>
      intro hk
      have hturn : copyUp p s (k + 1) mem = copyByte p s k (copyUp p s k mem) := by
        simp [copyUp, List.range_succ]
      rw [hturn, copyByte_eq (by omega) (by omega)]
      refine (ih (by omega)).up (Nat.zero_le k) ?_
      intro i _ hi
      omega

lemma copied_copyDown (hp : p + n ≤ 4294967296) (hs : s + n ≤ 4294967296) (horder : s ≤ p) :
    ∀ i mem', i < n → Copied p s (i + 1) n mem mem' → Copied p s 1 n mem (copyDown p s i mem') := by
  intro i
  induction i with
  | zero =>
      intro mem' _ h
      exact h
  | succ i ih =>
      intro mem' hi h
      rw [copyDown, copyByte_eq (by omega) (by omega)]
      refine ih _ (by omega) (h.down (by omega) ?_)
      intro j hij _
      omega

lemma le_of_overlap (h : 0 < overlap p s n) : s ≤ p := by
  unfold overlap at h
  split_ifs at h with hover
  · exact hover.1
  · exact absurd h (lt_irrefl 0)

lemma apart_of_overlap (hp : p + n ≤ 4294967296) (hs : s + n ≤ 4294967296) (h : ¬ 0 < overlap p s n) :
    p ≤ s ∨ s + n ≤ p := by
  have hend : u32 (s + n) = s + n ∨ s + n = 4294967296 := by
    unfold u32
    omega
  unfold overlap u32Sub at h
  split_ifs at h <;> omega

lemma copied_memmove (hp : p + n ≤ 4294967296) (hs : s + n ≤ 4294967296) :
    Copied p s 0 n mem (memmove p s n mem).2 := by
  rw [memmove]
  split_ifs with hn hov
  · subst hn
    exact copied_nothing p s 0 mem
  · have horder := le_of_overlap hov
    have hall : Copied p s (n - 1 + 1) n mem mem := by
      rw [Nat.sub_add_cancel (by omega)]
      exact copied_nothing p s n mem
    have hrest := copied_copyDown hp hs horder (n - 1) mem (by omega) hall
    rw [u32_of_lt (by omega), u32_of_lt (by omega)]
    refine hrest.down (by omega) ?_
    intro i hi _
    omega
  · exact copied_copyUp hp hs (apart_of_overlap hp hs hov)

/-- `memmove` is a simultaneous copy of ranges that are in the address space. -/
theorem memmove_simultaneous (dest src n : ℕ) (mem : Memory) (hdest : dest + n ≤ 4294967296)
    (hsrc : src + n ≤ 4294967296) :
    (memmove dest src n mem).1 = dest ∧
      (∀ i < n, (memmove dest src n mem).2 (dest + i) = mem (src + i)) ∧
      ∀ a, a < dest ∨ dest + n ≤ a → (memmove dest src n mem).2 a = mem a := by
  have hcopied : Copied dest src 0 n mem (memmove dest src n mem).2 := copied_memmove hdest hsrc
  refine ⟨?_, ?_, ?_⟩
  · unfold memmove
    split_ifs <;> rfl
  · intro i hi
    exact hcopied.copied i (Nat.zero_le i) hi
  · intro a ha
    refine hcopied.frame a ?_
    intro i _ hi
    omega

/-- Four bytes are moved up by two. -/
theorem memmove_overlapping :
    (memmove 102 100 4 fun a => UInt8.ofNat a).1 = 102 ∧
      (∀ i < 4, (memmove 102 100 4 fun a => UInt8.ofNat a).2 (102 + i) = UInt8.ofNat (100 + i)) ∧
      ∀ a, a < 102 ∨ 106 ≤ a → (memmove 102 100 4 fun a => UInt8.ofNat a).2 a = UInt8.ofNat a :=
  memmove_simultaneous 102 100 4 (fun a => UInt8.ofNat a) (by norm_num) (by norm_num)

end BrebOS.Kstring

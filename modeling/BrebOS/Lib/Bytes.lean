import Mathlib.Tactic

/-!
# Numbers in a store of bytes

A store has a byte at each index.  `splice` copies a stretch of one store into another, `leRead` reads a
number off a stretch, lowest byte first, and `leWrite` writes one.
-/

namespace BrebOS

variable {α : Type} {s t src : ℕ → UInt8} {i j k m n v : ℕ}

/-- A stretch of a store, replaced by the start of another. -/
def splice (i n : ℕ) (src s : ℕ → α) (k : ℕ) : α := if i ≤ k ∧ k < i + n then src (k - i) else s k

lemma splice_inside {src s : ℕ → α} (hk : k < n) : splice i n src s (i + k) = src k := by
  rw [splice, if_pos (by omega), Nat.add_sub_cancel_left]

lemma splice_outside {src s : ℕ → α} (hk : k < i ∨ i + n ≤ k) : splice i n src s k = s k :=
  if_neg (by omega)

/-- The bytes of a number, lowest first. -/
def leBytes (v k : ℕ) : UInt8 := UInt8.ofNat (v / 256 ^ k)

/-- The number of `n` bytes at an index. -/
def leRead (s : ℕ → UInt8) : ℕ → ℕ → ℕ
  | _, 0 => 0
  | i, n + 1 => (s i).toNat + 256 * leRead s (i + 1) n

/-- A number of `n` bytes, written at an index. -/
def leWrite (i n v : ℕ) (s : ℕ → UInt8) : ℕ → UInt8 := splice i n (leBytes v) s

lemma leRead_lt (s : ℕ → UInt8) : ∀ i n : ℕ, leRead s i n < 256 ^ n
  | _, 0 => by simp [leRead]
  | i, n + 1 => by
      have hrest := leRead_lt s (i + 1) n
      have hbyte := (s i).toNat_lt
      rw [leRead, pow_succ]
      omega

lemma leRead_congr : ∀ {i n : ℕ}, (∀ k, i ≤ k → k < i + n → s k = t k) → leRead s i n = leRead t i n
  | _, 0, _ => rfl
  | i, n + 1, h => by
      rw [leRead, leRead, h i le_rfl (by omega)]
      congr 2
      exact leRead_congr fun k hk hlt => h k (by omega) (by omega)

lemma leRead_of_bytes : ∀ {i n v : ℕ}, (∀ k < n, s (i + k) = leBytes v k) →
    leRead s i n = v % 256 ^ n
  | _, 0, v, _ => by simp [leRead, Nat.mod_one]
  | i, n + 1, v, h => by
      have hfirst : (s i).toNat = v % 256 := by
        have := h 0 (by omega)
        rw [Nat.add_zero] at this
        simp [this, leBytes]
      have hrest : leRead s (i + 1) n = v / 256 % 256 ^ n := by
        refine leRead_of_bytes fun k hk => ?_
        rw [Nat.add_assoc, Nat.add_comm 1, h (k + 1) (by omega), leBytes, leBytes, Nat.div_div_eq_div_mul,
          pow_succ, Nat.mul_comm]
      rw [leRead, hfirst, hrest, pow_succ, Nat.mul_comm (256 ^ n), Nat.mod_mul]

lemma leRead_leWrite (hv : v < 256 ^ n) : leRead (leWrite i n v s) i n = v := by
  rw [leWrite, leRead_of_bytes fun k hk => splice_inside hk, Nat.mod_eq_of_lt hv]

lemma leRead_splice_of_apart (h : j + m ≤ i ∨ i + n ≤ j) : leRead (splice i n src s) j m = leRead s j m :=
  leRead_congr fun k hk hlt => splice_outside (by omega)

lemma leRead_leWrite_of_apart (h : j + m ≤ i ∨ i + n ≤ j) : leRead (leWrite i n v s) j m = leRead s j m :=
  leRead_splice_of_apart h

end BrebOS

import Mathlib.Tactic

/-!
# Sums of words with their carries

A message is added up in words of 16 bits, lowest byte first, and the carries of the sum are added to it until
there are none.  This keeps the sum modulo `2 ^ 16 - 1`, and of the two words that stand for zero there a
sum that is not empty becomes the larger one.
-/

namespace BrebOS

/-- The sum of the words of a message; a byte that is left over is a word of its own. -/
def wordSum : List (BitVec 8) → ℕ
  | [] => 0
  | [a] => a.toNat
  | a :: b :: bs => a.toNat + 256 * b.toNat + wordSum bs

/-- The carries of a sum are added to its last 16 bits. -/
def fold16 (n : ℕ) : ℕ := if n / 2 ^ 16 = 0 then n else n % 2 ^ 16 + n / 2 ^ 16

variable {bs cs : List (BitVec 8)} {n : ℕ}

lemma wordSum_append : ∀ {bs : List (BitVec 8)}, bs.length % 2 = 0 →
    wordSum (bs ++ cs) = wordSum bs + wordSum cs := by
  intro bs
  induction bs using wordSum.induct with
  | case1 =>
    intro _
    simp [wordSum]
  | case2 a =>
    intro h
    simp at h
  | case3 a b bs ih =>
    intro h
    rw [List.length_cons, List.length_cons] at h
    rw [List.cons_append, List.cons_append, wordSum, wordSum, ih (by omega)]
    omega

lemma wordSum_le (bs : List (BitVec 8)) : wordSum bs ≤ 65535 * ((bs.length + 1) / 2) := by
  induction bs using wordSum.induct with
  | case1 => simp [wordSum]
  | case2 a =>
    have := a.isLt
    simp [wordSum]
    omega
  | case3 a b bs ih =>
    have ha := a.isLt
    have hb := b.isLt
    rw [wordSum, List.length_cons, List.length_cons]
    omega

/-! ## Carries -/

lemma fold16_modEq (n : ℕ) : fold16 n ≡ n [MOD 65535] := by
  rw [fold16]
  split_ifs
  · exact Nat.ModEq.refl n
  · unfold Nat.ModEq
    omega

lemma fold16_pos (hn : 0 < n) : 0 < fold16 n := by
  rw [fold16]
  split_ifs
  · exact hn
  · omega

lemma fold16_fold16_lt (hn : n < 2 ^ 32) : fold16 (fold16 n) < 2 ^ 16 := by
  have hone : fold16 n < 2 ^ 17 - 1 := by
    rw [fold16]
    split_ifs
    · omega
    · omega
  rw [fold16]
  split_ifs
  · omega
  · omega

lemma fold16_of_zero (hpos : 0 < n) (hlt : n < 2 ^ 32) (hn : n ≡ 0 [MOD 65535]) :
    fold16 (fold16 n) = 65535 := by
  have hmod := ((fold16_modEq (fold16 n)).trans (fold16_modEq n)).trans hn
  have hpos := fold16_pos (fold16_pos hpos)
  have hlt := fold16_fold16_lt hlt
  unfold Nat.ModEq at hmod
  omega

end BrebOS

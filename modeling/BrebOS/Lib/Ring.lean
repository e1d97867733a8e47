import Mathlib.Tactic

/-!
# Rings of rows

A buffer of `h` rows of `w` cells each, used as a ring: the row `r` of what is seen is the row
`ringRow h k r` of the buffer, if row `k` of the buffer comes first.  Indices wrap with a comparison and a
subtraction, on rows (`ringRow`) as on the offsets of cells (`offset_wrap`).
-/

namespace BrebOS

/-- The row of the ring that is `r` rows behind row `k`. -/
def ringRow (h k r : ℕ) : ℕ := if k + r ≥ h then k + r - h else k + r

variable {h k r r' w x x' : ℕ}

lemma ringRow_lt (hk : k < h) (hr : r < h) : ringRow h k r < h := by
  unfold ringRow
  split_ifs
  · omega
  · omega

lemma ringRow_inj (hr : r < h) (hr' : r' < h) (heq : ringRow h k r = ringRow h k r') : r = r' := by
  unfold ringRow at heq
  split_ifs at heq
  · omega
  · omega
  · omega
  · omega

lemma ringRow_succ (hk : k < h) (hr : r + 1 < h) : ringRow h (ringRow h k 1) r = ringRow h k (r + 1) := by
  unfold ringRow
  split_ifs
  · omega
  · omega
  · omega
  · omega
  · omega
  · omega
  · omega
  · omega

lemma ringRow_last (hk : k < h) : ringRow h (ringRow h k 1) (h - 1) = k := by
  unfold ringRow
  split_ifs
  · omega
  · omega
  · omega
  · omega

lemma mul_le_offset_iff (hx : x < w) : h * w ≤ r * w + x ↔ h ≤ r := by
  constructor
  · intro hle
    by_contra hlt
    have := Nat.mul_le_mul_right w (Nat.lt_of_not_le hlt)
    rw [Nat.succ_mul] at this
    omega
  · intro hle
    have := Nat.mul_le_mul_right w hle
    omega

lemma offset_lt (hr : r < h) (hx : x < w) : r * w + x < h * w :=
  lt_of_not_ge fun hle => absurd ((mul_le_offset_iff hx).mp hle) (Nat.not_le_of_lt hr)

lemma offset_inj (hx : x < w) (hx' : x' < w) (heq : r * w + x = r' * w + x') : r = r' ∧ x = x' := by
  have hrr : r = r' := by
    refine le_antisymm ?_ ?_
    · exact (mul_le_offset_iff hx').mp (by omega)
    · exact (mul_le_offset_iff hx).mp (by omega)
  subst hrr
  exact ⟨rfl, by omega⟩

lemma offset_wrap (hx : x < w) :
    (if k * w + r * w + x ≥ h * w then k * w + r * w + x - h * w else k * w + r * w + x) =
      ringRow h k r * w + x := by
  have hiff := mul_le_offset_iff (h := h) (r := k + r) hx
  rw [Nat.add_mul] at hiff
  unfold ringRow
  by_cases hle : h ≤ k + r
  · rw [if_pos (hiff.mpr hle), if_pos hle, Nat.sub_mul, Nat.add_mul]
    have := Nat.mul_le_mul_right w hle
    rw [Nat.add_mul] at this
    omega
  · rw [if_neg fun hge => hle (hiff.mp hge), if_neg hle, Nat.add_mul]

end BrebOS

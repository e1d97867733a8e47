import Mathlib.Tactic

/-!
# The numbers below a bound

`below p m` are the numbers under `m` with a property, in order.  A search that meets them in order finds
the first few of them, and these are all that are below a smaller bound.
-/

namespace BrebOS

variable {p : ℕ → Prop} [DecidablePred p] {i m n : ℕ}

/-- The numbers under `m` with the property, in order. -/
def below (p : ℕ → Prop) [DecidablePred p] (m : ℕ) : List ℕ := (List.range m).filter p

@[simp] lemma mem_below : i ∈ below p m ↔ i < m ∧ p i := by simp [below]

lemma nodup_below : (below p m).Nodup := List.nodup_range.filter _

lemma below_succ : below p (m + 1) = below p m ++ if p m then [m] else [] := by
  rw [below, List.range_succ, List.filter_append]
  by_cases hm : p m <;> simp [below, hm]

lemma below_add : below p (m + n) = below p m ++ (List.range' m n).filter p := by
  rw [below, below, ← List.filter_append, List.range_eq_range', List.range_eq_range',
    ← List.range'_append_1, Nat.zero_add]

lemma below_isPrefix (h : m ≤ n) : below p m <+: below p n := by
  obtain ⟨k, rfl⟩ := Nat.exists_eq_add_of_le h
  rw [below_add]
  exact List.prefix_append ..

lemma below_length_le (h : m ≤ n) : (below p m).length ≤ (below p n).length := (below_isPrefix h).length_le

lemma head?_below_le {p : ℕ → Prop} [DecidablePred p] {i j m : ℕ} (h : (below p m).head? = some i)
    (hj : j ∈ below p m) : i ≤ j := by
  rw [below, List.head?_filter, List.find?_range_eq_some] at h
  by_contra hlt
  have := h.2.2 j (not_le.mp hlt)
  simp [(mem_below.mp hj).2] at this

lemma take_below (n : ℕ) : ∀ m, ∃ k, (below p m).take n = below p k
  | 0 => ⟨0, by simp [below]⟩
  | m + 1 => by
      rw [below_succ]
      by_cases hn : n ≤ (below p m).length
      · rw [List.take_append_of_le_length hn]
        exact take_below n m
      · refine ⟨m + 1, ?_⟩
        rw [below_succ, List.take_of_length_le]
        rw [List.length_append]
        split <;> simp only [List.length_singleton, List.length_nil] <;> omega

lemma mem_below_of_length_le (h : (below p m).length ≤ (below p n).length) (hi : i ∈ below p m) :
    i ∈ below p n :=
  (List.prefix_of_prefix_length_le (below_isPrefix (le_max_left m n)) (below_isPrefix (le_max_right m n))
    h).subset hi

lemma below_length_le_of_mem (h : ∀ i ∈ below p m, i < n) : (below p m).length ≤ (below p n).length :=
  (List.subperm_of_subset nodup_below fun i hi =>
    mem_below.mpr ⟨h i hi, (mem_below.mp hi).2⟩).length_le

end BrebOS

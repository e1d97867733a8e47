import Mathlib.Tactic
import Mathlib.Algebra.BigOperators.Group.Finset.Basic

/-!
# Counting over finite index sets

A sum over a finite set after one summand has changed.  Reference counts are sums of indicators, so
this is all that a write to one entry needs.
-/

namespace BrebOS

variable {ι : Type*} [DecidableEq ι] {s : Finset ι} {g g' : ι → ℕ} {i : ι}

lemma sum_change (hi : i ∈ s) (h : ∀ j ∈ s, j ≠ i → g' j = g j) :
    ∑ j ∈ s, g' j + g i = ∑ j ∈ s, g j + g' i := by
  have hrest : ∑ j ∈ s.erase i, g' j = ∑ j ∈ s.erase i, g j :=
    Finset.sum_congr rfl fun j hj => h j (Finset.mem_of_mem_erase hj) (Finset.ne_of_mem_erase hj)
  rw [← Finset.add_sum_erase s g' hi, ← Finset.add_sum_erase s g hi, hrest]
  omega

end BrebOS

import BrebOS.Lib.Loop

/-!
# Taking the first free index, again and again

A cursor that never goes back looks for the first free index below a bound, takes it, and is asked
again.  `freeFrom` is what is still to come: each turn takes its head.

`Enough` is a run of such turns in which an index can only be taken while its count is zero, and
each turn may lower one count.  `enough_iff` says in closed form which runs come to their end.
-/

namespace BrebOS

/-! ## What is still free -/

/-- The free indices from `i` on, below `N`. -/
def freeFrom (free : ℕ → Bool) (i N : ℕ) : List ℕ := (List.range' i (N - i)).filter free

section

variable {free free' : ℕ → Bool} {i j N : ℕ} {rest : List ℕ}

lemma mem_freeFrom : j ∈ freeFrom free i N ↔ i ≤ j ∧ j < N ∧ free j = true := by
  simp only [freeFrom, List.mem_filter, List.mem_range'_1, and_assoc]
  refine and_congr_right fun hij => and_congr_left fun _ => ?_
  omega

lemma nodup_freeFrom : (freeFrom free i N).Nodup := (List.nodup_range' ..).filter _

lemma freeFrom_congr (h : ∀ j, i ≤ j → j < N → free j = free' j) :
    freeFrom free i N = freeFrom free' i N := by
  refine List.filter_congr fun j hj => ?_
  rw [List.mem_range'_1] at hj
  exact h j hj.1 (by omega)

lemma freeFrom_skip : ∀ {k i : ℕ}, i + k ≤ N → (∀ j, i ≤ j → j < i + k → free j = false) →
    freeFrom free i N = freeFrom free (i + k) N
  | 0, _, _, _ => rfl
  | k + 1, i, hk, hskip => by
      have hone : freeFrom free i N = freeFrom free (i + 1) N := by
        rw [freeFrom, freeFrom, show N - i = (N - (i + 1)) + 1 by omega, List.range'_succ,
          List.filter_cons, if_neg (by simp [hskip i le_rfl (by omega)])]
      rw [hone, show i + (k + 1) = i + 1 + k by omega]
      exact freeFrom_skip (by omega) fun j hj hlt => hskip j (by omega) (by omega)

/-- **The search** ends at the bound, or at the head of what is free. -/
lemma skipWhile_freeFrom (hi : i ≤ N) :
    skipWhile (fun j => !free j) (N - i) i = (freeFrom free i N).headD N := by
  obtain ⟨h₁, h₂, h₃, h₄⟩ := skipWhile_spec (fun j => !free j) (N - i) i
  set k := skipWhile (fun j => !free j) (N - i) i
  have hskip : freeFrom free i N = freeFrom free k N := by
    obtain ⟨c, hc⟩ := Nat.exists_eq_add_of_le h₁
    rw [hc]
    exact freeFrom_skip (by omega) fun j hj hlt => by simpa using h₃ j hj (by omega)
  rw [hskip]
  by_cases hk : k < N
  · have hfree : free k = true := by simpa using h₄ (by omega)
    rw [freeFrom, show N - k = (N - (k + 1)) + 1 by omega, List.range'_succ, List.filter_cons,
      if_pos hfree]
    rfl
  · have hend : k = N := by omega
    simp [freeFrom, hend]

lemma skipWhile_cons (h : freeFrom free i N = j :: rest) :
    skipWhile (fun k => !free k) (N - i) i = j := by
  have hmem := mem_freeFrom.mp (h ▸ List.mem_cons_self : j ∈ freeFrom free i N)
  rw [skipWhile_freeFrom (by omega), h, List.headD_cons]

lemma skipWhile_nil (h : freeFrom free i N = []) :
    N ≤ skipWhile (fun k => !free k) (N - i) i := by
  by_cases hle : i ≤ N
  · rw [skipWhile_freeFrom hle, h, List.headD_nil]
  · exact le_trans (by omega) (skipWhile_spec _ _ _).1

/-- **Taking the head** leaves the rest. -/
lemma freeFrom_take (h : freeFrom free i N = j :: rest) :
    freeFrom (fun k => free k && k ≠ j) j N = rest := by
  obtain ⟨hij, hjN, hfree⟩ := mem_freeFrom.mp (h ▸ List.mem_cons_self : j ∈ freeFrom free i N)
  have hi : i ≤ N := by omega
  -- nothing before the head is free
  have hhead : ∀ k, i ≤ k → k < j → free k = false := by
    intro k hk hlt
    by_contra hnot
    have hmem : k ∈ freeFrom free i N := mem_freeFrom.mpr ⟨hk, by omega, by simpa using hnot⟩
    have hsorted : (freeFrom free i N).Pairwise (· < ·) := (List.pairwise_lt_range' ..).filter _
    rw [h] at hmem hsorted
    rcases List.mem_cons.mp hmem with rfl | hmem
    · omega
    · have := (List.pairwise_cons.mp hsorted).1 k hmem
      omega
  obtain ⟨c, rfl⟩ := Nat.exists_eq_add_of_le hij
  rw [freeFrom_skip (by omega) hhead, freeFrom, show N - (i + c) = (N - (i + c + 1)) + 1 by omega,
    List.range'_succ, List.filter_cons, if_pos hfree, List.cons.injEq] at h
  rw [freeFrom, show N - (i + c) = (N - (i + c + 1)) + 1 by omega, List.range'_succ,
    List.filter_cons, if_neg (by simp), ← h.2]
  refine List.filter_congr fun k hk => ?_
  rw [List.mem_range'_1] at hk
  simp only [ne_eq, Bool.and_eq_left_iff_imp, decide_eq_true_eq]
  omega

end

/-! ## Turns with counts -/

/-- One turn for each element of the first list: the head of the second list is taken, whose count
has to be zero, and the count that the turn names, if any, goes down. -/
def Enough : List (Option ℕ) → List ℕ → (ℕ → ℕ) → Prop
  | [], _, _ => True
  | _ :: _, [], _ => False
  | d :: ds, f :: fs, count =>
      count f = 0 ∧ Enough ds fs fun g => count g - if d = some g then 1 else 0

section

variable {ds : List (Option ℕ)} {fs : List ℕ} {count count' : ℕ → ℕ}

lemma enough_congr : ∀ {ds : List (Option ℕ)} {fs : List ℕ} {count count' : ℕ → ℕ},
    (∀ f ∈ fs, count f = count' f) → (Enough ds fs count ↔ Enough ds fs count')
  | [], _, _, _, _ => Iff.rfl
  | _ :: _, [], _, _, _ => Iff.rfl
  | d :: ds, f :: fs, count, count', h => by
      rw [Enough, Enough, h f List.mem_cons_self]
      refine and_congr_right fun _ => enough_congr fun g hg => ?_
      rw [h g (List.mem_cons_of_mem f hg)]

/-- **The runs that come to their end**: in each turn there is an index to take, and its count is
not above the number of turns before that lowered it. -/
lemma enough_iff : ∀ {ds : List (Option ℕ)} {fs : List ℕ} {count : ℕ → ℕ}, Enough ds fs count ↔
    ∀ i < ds.length, ∃ f, fs[i]? = some f ∧ count f ≤ (ds.take i).count (some f)
  | [], fs, count => by simp [Enough]
  | d :: ds, [], count => by
      simp only [Enough, false_iff, not_forall]
      exact ⟨0, by simp, by simp⟩
  | d :: ds, f :: fs, count => by
      rw [Enough, enough_iff]
      constructor
      · rintro ⟨h₀, h⟩ i hi
        cases i with
        | zero => exact ⟨f, rfl, by simp [h₀]⟩
        | succ i =>
            obtain ⟨g, hg, hle⟩ := h i (by simpa using hi)
            refine ⟨g, hg, ?_⟩
            rw [List.take_succ_cons, List.count_cons]
            split_ifs at hle ⊢ <;> simp_all
      · intro h
        refine ⟨?_, fun i hi => ?_⟩
        · obtain ⟨g, hg, hle⟩ := h 0 (by simp)
          obtain rfl := Option.some.inj hg
          simpa using hle
        · obtain ⟨g, hg, hle⟩ := h (i + 1) (by simpa using hi)
          refine ⟨g, hg, ?_⟩
          rw [List.take_succ_cons, List.count_cons] at hle
          split_ifs at hle ⊢ <;> simp_all

end

end BrebOS

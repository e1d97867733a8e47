import Mathlib.Tactic

/-!
# The order of a binary heap

A heap is a function on positions; those that are not taken have a greatest value.  No position has a
smaller value than its parent.  An element that moves up or down leaves one place where this fails; the two
structures say what holds elsewhere, and the lemmas what one exchange does to them.
-/

namespace BrebOS

/-- The parent of a position other than 0. -/
def heapParent (i : ℕ) : ℕ := (i - 1) / 2

section Exchange

variable {β : Type} {a : ℕ → β} {i k m : ℕ}

/-- Two values change places. -/
def exchanged (a : ℕ → β) (i j : ℕ) : ℕ → β := a ∘ Equiv.swap i j

@[simp] lemma exchanged_left : exchanged a i k i = a k := congrArg a (Equiv.swap_apply_left i k)

@[simp] lemma exchanged_right : exchanged a i k k = a i := congrArg a (Equiv.swap_apply_right i k)

lemma exchanged_of_ne (hi : m ≠ i) (hk : m ≠ k) : exchanged a i k m = a m :=
  congrArg a (Equiv.swap_apply_of_ne_of_ne hi hk)

end Exchange

variable {β : Type} [LinearOrder β] {a a' : ℕ → β} {i k m : ℕ}

/-- No position has a smaller value than its parent. -/
def HeapOrdered (a : ℕ → β) : Prop := ∀ i, 0 < i → a (heapParent i) ≤ a i

/-- In order, but for a position that may have a smaller value than its parent. -/
structure OrderedUpTo (k : ℕ) (a : ℕ → β) : Prop where
  others : ∀ i, 0 < i → i ≠ k → a (heapParent i) ≤ a i
  grandchildren : 0 < k → ∀ i, 0 < i → heapParent i = k → a (heapParent k) ≤ a i

/-- In order, but for a position that may have a greater value than its children. -/
structure OrderedDownTo (k : ℕ) (a : ℕ → β) : Prop where
  others : ∀ i, 0 < i → heapParent i ≠ k → a (heapParent i) ≤ a i
  grandchildren : 0 < k → ∀ i, 0 < i → heapParent i = k → a (heapParent k) ≤ a i

lemma heapParent_lt (h : 0 < i) : heapParent i < i := by
  unfold heapParent
  omega

lemma heapParent_eq_iff (h : 0 < i) : heapParent i = k ↔ i = 2 * k + 1 ∨ i = 2 * k + 2 := by
  unfold heapParent
  omega

namespace HeapOrdered

lemma root_le (h : HeapOrdered a) (i : ℕ) : a 0 ≤ a i := by
  induction i using Nat.strong_induction_on with
  | _ i ih =>
    rcases Nat.eq_zero_or_pos i with rfl | hi
    · exact le_rfl
    · exact (ih _ (heapParent_lt hi)).trans (h i hi)

lemma orderedUpTo (h : HeapOrdered a) (hleaf : ∀ i, 0 < i → heapParent i = k → ∀ b, b ≤ a' i)
    (hsame : ∀ i, i ≠ k → a' i = a i) : OrderedUpTo k a' := by
  refine ⟨fun i hi hik => ?_, fun _ i hi hparent => hleaf i hi hparent _⟩
  by_cases hparent : heapParent i = k
  · exact hleaf i hi hparent _
  · rw [hsame i hik, hsame _ hparent]
    exact h i hi

lemma orderedDownTo (h : HeapOrdered a) (hsame : ∀ i, 0 < i → a' i = a i ∨ ∀ b, b ≤ a' i)
    (hleaf : ∀ i, 0 < i → a' (heapParent i) ≠ a (heapParent i) → 0 < heapParent i → ∀ b, b ≤ a' i) :
    OrderedDownTo 0 a' := by
  refine ⟨fun i hi hparent => ?_, fun h => absurd h (lt_irrefl 0)⟩
  by_cases hchanged : a' (heapParent i) = a (heapParent i)
  · rcases hsame i hi with heq | htop
    · rw [hchanged, heq]
      exact h i hi
    · exact htop _
  · exact hleaf i hi hchanged (Nat.pos_of_ne_zero hparent) _

end HeapOrdered

namespace OrderedUpTo

lemma ordered (h : OrderedUpTo k a) (hstop : 0 < k → a (heapParent k) ≤ a k) : HeapOrdered a := by
  intro i hi
  by_cases hik : i = k
  · subst hik
    exact hstop hi
  · exact h.others i hi hik

lemma up (h : OrderedUpTo k a) (hk : 0 < k) (hlt : a k < a (heapParent k)) :
    OrderedUpTo (heapParent k) (exchanged a k (heapParent k)) := by
  have hp := heapParent_lt hk
  refine ⟨fun i hi hip => ?_, fun hp0 i hi hparent => ?_⟩
  · by_cases hik : i = k
    · subst hik
      simp only [exchanged_right, exchanged_left]
      exact hlt.le
    · rw [exchanged_of_ne hik hip]
      by_cases hparent : heapParent i = k
      · rw [hparent, exchanged_left]
        exact h.grandchildren hk i hi hparent
      · by_cases hsibling : heapParent i = heapParent k
        · rw [hsibling, exchanged_right]
          have := h.others i hi hik
          rw [hsibling] at this
          exact hlt.le.trans this
        · rw [exchanged_of_ne hparent hsibling]
          exact h.others i hi hik
  · have hgrand : heapParent (heapParent k) < heapParent k := heapParent_lt hp0
    have habove : a (heapParent (heapParent k)) ≤ a (heapParent k) := h.others _ hp0 hp.ne
    rw [exchanged_of_ne (by omega) hgrand.ne]
    by_cases hik : i = k
    · subst hik
      rw [exchanged_left]
      exact habove
    · have hne : i ≠ heapParent k := fun heq => by
        rw [heq] at hparent
        omega
      rw [exchanged_of_ne hik hne]
      have := h.others i hi hik
      rw [hparent] at this
      exact habove.trans this

end OrderedUpTo

namespace OrderedDownTo

lemma ordered (h : OrderedDownTo k a) (hstop : ∀ i, 0 < i → heapParent i = k → a k ≤ a i) :
    HeapOrdered a := by
  intro i hi
  by_cases hparent : heapParent i = k
  · rw [hparent]
    exact hstop i hi hparent
  · exact h.others i hi hparent

lemma down (h : OrderedDownTo k a) (hm : 0 < m) (hchild : heapParent m = k) (hlt : a m < a k)
    (hleast : ∀ i, 0 < i → heapParent i = k → a m ≤ a i) : OrderedDownTo m (exchanged a k m) := by
  have hkm : k < m := hchild ▸ heapParent_lt hm
  refine ⟨fun i hi hparent => ?_, fun _ i hi hparent => ?_⟩
  · by_cases hik : i = k
    · subst hik
      have hne := (heapParent_lt hi).ne
      rw [exchanged_left, exchanged_of_ne hne (by omega)]
      exact h.grandchildren hi m hm hchild
    · by_cases hpk : heapParent i = k
      · rw [hpk, exchanged_left]
        by_cases him : i = m
        · subst him
          rw [exchanged_right]
          exact hlt.le
        · rw [exchanged_of_ne hik him]
          exact hleast i hi hpk
      · rw [exchanged_of_ne hpk hparent]
        by_cases him : i = m
        · subst him
          exact absurd hchild hpk
        · rw [exchanged_of_ne hik him]
          exact h.others i hi hpk
  · have him : i ≠ m := fun heq => by
      have := heapParent_lt hi
      omega
    have hik : i ≠ k := fun heq => by
      have := heapParent_lt hi
      omega
    rw [hchild, exchanged_left, exchanged_of_ne hik him]
    have := h.others i hi (by omega)
    rwa [hparent] at this

end OrderedDownTo

end BrebOS

import Mathlib.Tactic

/-!
# Sequences of half-open ranges

A list of values, each standing for a range `[lo a, hi a)`, sorted by left end and with disjoint
non-empty ranges.  Empty ranges are allowed anywhere between (they arise when a block is split
exactly at its end), which is why the relation `Before` between an earlier and a later value is
not transitive and the whole list is kept `Pairwise`.

The operations of an interval allocator are the lemmas: dropping ranges (`Ordered.sublist`),
cutting one from the right (`Ordered.cut`), inserting one where it fits (`Ordered.insert`), joining
two neighbours (`Ordered.join`).
-/

namespace BrebOS.Ranges

variable {α : Type*} (lo hi : α → ℕ)

/-- An earlier range starts no later, and ends before the later one starts unless one of the two is
empty. -/
def Before (a b : α) : Prop := lo a ≤ lo b ∧ (lo a = hi a ∨ lo b = hi b ∨ hi a ≤ lo b)

/-- The ranges of the list are in order and the non-empty ones disjoint. -/
structure Ordered (l : List α) : Prop where
  before : l.Pairwise (Before lo hi)
  le : ∀ a ∈ l, lo a ≤ hi a

/-- The address lies in one of the ranges. -/
def Covered (l : List α) (x : ℕ) : Prop := ∃ a ∈ l, lo a ≤ x ∧ x < hi a

variable {lo hi}

namespace Ordered

variable {A B l : List α} {a b c d m x : α}

lemma sublist {l' : List α} (h : Ordered lo hi l) (hs : l'.Sublist l) : Ordered lo hi l' :=
  ⟨h.before.sublist hs, fun a ha => h.le a (hs.subset ha)⟩

lemma apart (h : Ordered lo hi l) (ha : a ∈ l) (hb : b ∈ l) (hne : a ≠ b) (hae : lo a < hi a)
    (hbe : lo b < hi b) : hi a ≤ lo b ∨ hi b ≤ lo a := by
  have hp : l.Pairwise fun a b => Before lo hi a b ∨ Before lo hi b a := h.before.imp Or.inl
  have : Std.Symm fun a b => Before lo hi a b ∨ Before lo hi b a := ⟨fun _ _ h => h.symm⟩
  rcases hp.forall ha hb hne with ⟨_, h⟩ | ⟨_, h⟩
  · exact Or.inl (by omega)
  · exact Or.inr (by omega)

lemma eq_of_mem {y : ℕ} (h : Ordered lo hi l) (ha : a ∈ l) (hb : b ∈ l)
    (hay : lo a ≤ y ∧ y < hi a) (hby : lo b ≤ y ∧ y < hi b) : a = b := by
  by_contra hne
  rcases h.apart ha hb hne (by omega) (by omega) with h | h <;> omega

lemma notMem_of_split (h : Ordered lo hi (A ++ d :: B)) (hd : lo d < hi d) : d ∉ A ∧ d ∉ B := by
  have hp := h.before
  simp only [List.pairwise_append, List.pairwise_cons] at hp
  obtain ⟨_, ⟨hdB, _⟩, hA⟩ := hp
  constructor
  · intro hmem
    have := (hA d hmem d (by simp)).2
    omega
  · intro hmem
    have := (hdB d hmem).2
    omega

lemma cut (h : Ordered lo hi (A ++ d :: B)) (hlo : lo m = lo d) (hle : lo m ≤ hi m)
    (hhi : hi m ≤ hi d) : Ordered lo hi (A ++ m :: B) := by
  obtain ⟨hp, hb⟩ := h
  simp only [List.pairwise_append, List.pairwise_cons] at hp
  obtain ⟨hA, ⟨hdB, hB⟩, hAB⟩ := hp
  refine ⟨?_, ?_⟩
  · simp only [List.pairwise_append, List.pairwise_cons]
    refine ⟨hA, ⟨fun b hb => ?_, hB⟩, fun a ha b hb => ?_⟩
    · obtain ⟨h₁, h₂⟩ := hdB b hb
      exact ⟨by omega, by omega⟩
    · rcases List.mem_cons.mp hb with rfl | hb
      · obtain ⟨h₁, h₂⟩ := hAB a ha d (by simp)
        exact ⟨by omega, by omega⟩
      · exact hAB a ha b (by simp [hb])
  · intro a ha
    simp only [List.mem_append, List.mem_cons] at ha
    rcases ha with ha | rfl | ha
    · exact hb a (by simp [ha])
    · exact hle
    · exact hb a (by simp [ha])

lemma insert (h : Ordered lo hi (A ++ B)) (hx : lo x ≤ hi x) (hA : ∀ a ∈ A, lo a < lo x)
    (hB : ∀ b ∈ B, lo x ≤ lo b)
    (hapart : ∀ a ∈ A ++ B, lo a < hi a → lo x < hi x → hi a ≤ lo x ∨ hi x ≤ lo a) :
    Ordered lo hi (A ++ x :: B) := by
  obtain ⟨hp, hle⟩ := h
  simp only [List.pairwise_append] at hp
  obtain ⟨hpA, hpB, hAB⟩ := hp
  refine ⟨?_, ?_⟩
  · simp only [List.pairwise_append, List.pairwise_cons]
    refine ⟨hpA, ⟨fun b hb => ?_, hpB⟩, fun a ha b hb => ?_⟩
    · have h₁ := hB b hb
      have h₂ := hapart b (by simp [hb])
      have h₃ := hle b (by simp [hb])
      exact ⟨h₁, by omega⟩
    · rcases List.mem_cons.mp hb with rfl | hb
      · have h₁ := hA a ha
        have h₂ := hapart a (by simp [ha])
        have h₃ := hle a (by simp [ha])
        exact ⟨by omega, by omega⟩
      · exact hAB a ha b hb
  · intro a ha
    simp only [List.mem_append, List.mem_cons] at ha
    rcases ha with ha | rfl | ha
    · exact hle a (by simp [ha])
    · exact hx
    · exact hle a (by simp [ha])

lemma join (h : Ordered lo hi (A ++ c :: d :: B)) (htouch : hi c = lo d) (hlo : lo m = lo c)
    (hhi : hi m = hi d) : Ordered lo hi (A ++ m :: B) := by
  obtain ⟨hp, hle⟩ := h
  have hc := hle c (by simp)
  have hd := hle d (by simp)
  simp only [List.pairwise_append, List.pairwise_cons] at hp
  obtain ⟨hA, ⟨hcB, hdB, hB⟩, hAB⟩ := hp
  refine ⟨?_, ?_⟩
  · simp only [List.pairwise_append, List.pairwise_cons]
    refine ⟨hA, ⟨fun b hb => ?_, hB⟩, fun a ha b hb => ?_⟩
    · obtain ⟨h₁, h₂⟩ := hcB b (by simp [hb])
      obtain ⟨h₃, h₄⟩ := hdB b hb
      exact ⟨by omega, by omega⟩
    · rcases List.mem_cons.mp hb with rfl | hb
      · obtain ⟨h₁, h₂⟩ := hAB a ha c (by simp)
        obtain ⟨h₃, h₄⟩ := hAB a ha d (by simp)
        exact ⟨by omega, by omega⟩
      · exact hAB a ha b (by simp [hb])
  · intro a ha
    simp only [List.mem_append, List.mem_cons] at ha
    rcases ha with ha | rfl | ha
    · exact hle a (by simp [ha])
    · omega
    · exact hle a (by simp [ha])

lemma pairwise_of_nonempty (h : Ordered lo hi l) (hne : ∀ a ∈ l, lo a < hi a) :
    l.Pairwise fun a b => hi a ≤ lo b :=
  h.before.imp_of_mem fun {a b} ha hb hab => by
    have h₁ := hne a ha
    have h₂ := hne b hb
    have h₃ := hab.2
    omega

end Ordered

section Covered

variable {A B l l' : List α} {a c d m : α} {x : ℕ}

@[simp] lemma covered_nil : Covered lo hi [] x ↔ False := by
  simp [Covered]

lemma covered_cons : Covered lo hi (a :: l) x ↔ lo a ≤ x ∧ x < hi a ∨ Covered lo hi l x := by
  simp [Covered]

lemma covered_append : Covered lo hi (l ++ l') x ↔ Covered lo hi l x ∨ Covered lo hi l' x := by
  simp [Covered, or_and_right, exists_or]

lemma covered_cut (hlo : lo m = lo d) (hhi : hi m = hi d) :
    Covered lo hi (A ++ m :: B) x ↔ Covered lo hi (A ++ d :: B) x := by
  simp only [Covered, List.mem_append, List.mem_cons, or_and_right, exists_or, exists_eq_left,
    hlo, hhi]

lemma covered_join (hc : lo c ≤ hi c) (hd : lo d ≤ hi d) (htouch : hi c = lo d)
    (hlo : lo m = lo c) (hhi : hi m = hi d) :
    Covered lo hi (A ++ m :: B) x ↔ Covered lo hi (A ++ c :: d :: B) x := by
  have key : (lo m ≤ x ∧ x < hi m) ↔ (lo c ≤ x ∧ x < hi c) ∨ (lo d ≤ x ∧ x < hi d) := by
    constructor <;> intro h <;> omega
  simp only [Covered, List.mem_append, List.mem_cons, or_and_right, exists_or, exists_eq_left, key,
    or_assoc]

end Covered

end BrebOS.Ranges

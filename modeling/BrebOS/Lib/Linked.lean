import Mathlib.Tactic

/-!
# Linked lists through a next pointer

A list kept in memory is a head and a `next` field in each cell.  `Linked next head l` says that the
cells met from `head` on are those of `l`, in this order, and that the last one points nowhere.
-/

namespace BrebOS

variable {α : Type} {next next' : α → Option α} {head : Option α} {a : α} {l l' : List α}

/-- Following `next` from `head` meets the cells of `l` and stops. -/
def Linked (next : α → Option α) : Option α → List α → Prop
  | head, [] => head = none
  | head, a :: l => head = some a ∧ Linked next (next a) l

@[simp]
lemma linked_nil : Linked next head [] ↔ head = none := Iff.rfl

@[simp]
lemma linked_cons : Linked next head (a :: l) ↔ head = some a ∧ Linked next (next a) l := Iff.rfl

namespace Linked

lemma eq_nil (h : Linked next none l) : l = [] := by
  cases l with
  | nil => rfl
  | cons a l => simp at h

lemma eq_cons (h : Linked next (some a) l) : ∃ l', l = a :: l' ∧ Linked next (next a) l' := by
  cases l with
  | nil => simp at h
  | cons b l =>
    rw [linked_cons, Option.some.injEq] at h
    exact ⟨l, by rw [h.1], h.1 ▸ h.2⟩

lemma congr : ∀ {l : List α} {head : Option α}, Linked next head l →
    (∀ a ∈ l, next' a = next a) → Linked next' head l
  | [], _, h, _ => h
  | a :: l, head, h, hl => by
      refine ⟨h.1, ?_⟩
      rw [hl a (by simp)]
      exact congr h.2 fun b hb => hl b (by simp [hb])

lemma unique : ∀ {l l' : List α} {head : Option α}, Linked next head l → Linked next head l' → l = l'
  | [], _, head, h, h' => by
      rw [linked_nil] at h
      exact (eq_nil (h ▸ h')).symm
  | a :: l, _, head, h, h' => by
      rw [linked_cons] at h
      rw [h.1] at h'
      obtain ⟨l', rfl, ht⟩ := h'.eq_cons
      rw [unique h.2 ht]

lemma of_append : ∀ {l l' : List α} {head : Option α}, Linked next head (l ++ a :: l') →
    Linked next (some a) (a :: l')
  | [], _, _, h => ⟨rfl, h.2⟩
  | _ :: _, _, _, h => of_append h.2

lemma append {l₂ : List α} : ∀ {l : List α} {head : Option α}, Linked next head (l ++ a :: l₂) →
    Linked next' (some a) l' → (∀ b ∈ l, next' b = next b) → Linked next' head (l ++ l')
  | [], head, h, h', _ => by
      rw [List.nil_append, linked_cons] at h
      rwa [List.nil_append, h.1]
  | b :: l, head, h, h', hl => by
      rw [List.cons_append, linked_cons] at h ⊢
      refine ⟨h.1, ?_⟩
      rw [hl b List.mem_cons_self]
      exact append h.2 h' fun c hc => hl c (List.mem_cons_of_mem _ hc)

lemma nodup : ∀ {l : List α} {head : Option α}, Linked next head l → l.Nodup
  | [], _, _ => List.nodup_nil
  | a :: l, head, h => by
      refine List.nodup_cons.mpr ⟨?_, h.2.nodup⟩
      intro ha
      obtain ⟨l₁, l₂, rfl⟩ := List.append_of_mem ha
      have hlen := congrArg List.length (unique h (h.1 ▸ of_append h.2))
      simp only [List.length_cons, List.length_append] at hlen
      omega

lemma mem_of_changed : ∀ {l l' : List α} {head : Option α}, Linked next head l → a ∈ l →
    (∀ b, b ≠ a → next' b = next b) → Linked next' head l' → a ∈ l'
  | b :: l, l', head, h, ha, hn, h' => by
      rw [linked_cons] at h
      rw [h.1] at h'
      obtain ⟨l', rfl, ht⟩ := h'.eq_cons
      rcases eq_or_ne b a with rfl | hb
      · simp
      · rw [hn b hb] at ht
        rcases List.mem_cons.mp ha with ha | ha
        · exact absurd ha.symm hb
        · exact List.mem_cons_of_mem _ (mem_of_changed h.2 ha hn ht)

variable [DecidableEq α]

lemma update (h : Linked next head l) (ha : a ∉ l) (x : Option α) :
    Linked (Function.update next a x) head l := by
  refine h.congr fun b hb => ?_
  have hne : b ≠ a := by
    intro heq
    exact ha (heq ▸ hb)
  exact Function.update_of_ne hne _ _

lemma push (h : Linked next head l) (ha : a ∉ l) :
    Linked (Function.update next a head) (some a) (a :: l) := by
  refine ⟨rfl, ?_⟩
  rw [Function.update_self]
  exact h.update ha head

end Linked

end BrebOS

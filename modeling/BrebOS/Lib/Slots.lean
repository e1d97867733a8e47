import Mathlib.Tactic

/-!
# Tables with free entries

A table is a list of entries that are taken or free.  What is in it is counted up to order, so that
taking a free entry adds its value and freeing one takes it away, wherever it stands.
-/

namespace BrebOS

variable {α : Type}

/-- The values of a table. -/
def slotValues (slots : List (Option α)) : List α := slots.filterMap id

lemma slotValues_replicate (n : ℕ) : slotValues (List.replicate n (none : Option α)) = [] := by
  simp [slotValues]

lemma mem_slotValues {slots : List (Option α)} {a : α} : a ∈ slotValues slots ↔ some a ∈ slots := by
  simp [slotValues]

lemma mem_slotValues_of_getElem? {slots : List (Option α)} {i : ℕ} {a : α}
    (h : slots[i]? = some (some a)) : a ∈ slotValues slots :=
  mem_slotValues.mpr (List.mem_of_getElem? h)

lemma slotValues_take (a : α) : ∀ (slots : List (Option α)) (i : ℕ), slots[i]? = some none →
    (slotValues (slots.set i (some a))).Perm (a :: slotValues slots)
  | [], i, h => by simp at h
  | b :: slots, 0, h => by
      simp only [List.getElem?_cons_zero, Option.some.injEq] at h
      simp [slotValues, h]
  | b :: slots, i + 1, h => by
      have ih := slotValues_take a slots i (by simpa using h)
      cases b with
      | none => simpa [slotValues] using ih
      | some c => simpa [slotValues] using (ih.cons c).trans (List.Perm.swap a c _)

lemma slotValues_free (a : α) : ∀ (slots : List (Option α)) (i : ℕ), slots[i]? = some (some a) →
    (slotValues slots).Perm (a :: slotValues (slots.set i none))
  | [], i, h => by simp at h
  | b :: slots, 0, h => by
      simp only [List.getElem?_cons_zero, Option.some.injEq] at h
      simp [slotValues, h]
  | b :: slots, i + 1, h => by
      have ih := slotValues_free a slots i (by simpa using h)
      cases b with
      | none => simpa [slotValues] using ih
      | some c => simpa [slotValues] using (ih.cons c).trans (List.Perm.swap a c _)

lemma exists_free_of_length_lt (slots : List (Option α)) (h : (slotValues slots).length < slots.length) :
    none ∈ slots := by
  by_contra hnone
  have hall : ∀ a ∈ slots, (id a).isSome := by
    intro a ha
    refine Option.isSome_iff_ne_none.mpr ?_
    rintro rfl
    exact hnone ha
  have := List.filterMap_length_eq_length.mpr hall
  rw [slotValues] at h
  omega

end BrebOS

import BrebOS.Utils.List.Sequence

/-!
# Runs of calls of a list

What is left of the claim that a list is a sequence: every call of a run does what it should iff each one
`Fits` the sequence it is made on.
-/

namespace BrebOS

namespace LinkedList

variable {E : Type} {as as' : List ℕ} {l : LinkedList E} {es es' es₁ es₂ : List E} {e v : E}

lemma Holds.unique (h : Holds l as es) (h' : Holds l as' es') : es = es' := by
  have hvals := h.values
  rw [h.linked.unique h'.linked, Values, h'.values] at hvals
  exact (List.map_injective_iff.mpr (Option.some_injective E) hvals).symm

lemma insert_eq_iff (es₁ es₂ : List E) : es₁ ++ v :: e :: es₂ = es₁ ++ e :: v :: es₂ ↔ v = e := by
  constructor
  · intro heq
    exact (List.cons.inj (List.append_cancel_left heq)).1
  · rintro rfl
    rfl

lemma insertIdx_append (es₁ es₂ : List E) (e : E) : (es₁ ++ es₂).insertIdx es₁.length e = es₁ ++ e :: es₂ := by
  induction es₁ with
  | nil => rfl
  | cons v es₁ ih => exact congrArg (v :: ·) ih

lemma holds_empty : Holds ({} : LinkedList E) [] [] := ⟨rfl, rfl, by simp, rfl⟩

variable [BEq E]

/-- What a call returns and leaves of a sequence. -/
def spec (es : List E) : Call E → Answer E × List E
  | .add e => (.nothing, es ++ [e])
  | .addFirst e => (.nothing, e :: es)
  | .addLast e => (.nothing, es ++ [e])
  | .addAt index e =>
      if index < 0 ∨ index > es.length then (.bool false, es) else (.bool true, es.insertIdx index.toNat e)
  | .remove e => (.bool (es.any (· == e)), es.eraseP (· == e))
  | .removeFirst => (.bool !es.isEmpty, es.tail)
  | .removeLast => (.bool !es.isEmpty, es.dropLast)
  | .reverse => (.nothing, es.reverse)
  | .clear => (.nothing, [])
  | .get index => (.element (if index < 0 then none else es[index.toNat]?), es)
  | .contains e => (.bool (es.any (· == e)), es)
  | .size => (.number es.length, es)

/-- A call returns what it should, and leaves the sequence that it should. -/
def CallRight (l : LinkedList E) (es : List E) (c : Call E) : Prop :=
  ∃ l' as', l.step c = .ok ((spec es c).1, l') ∧ Holds l' as' (spec es c).2

/-- No element is removed as the last one that is the only one, and an element that is put inside the list
is the one that is there. -/
def Fits (es : List E) : Call E → Prop
  | .addAt index e => 0 < index → index < es.length → es[index.toNat]? = some e
  | .removeLast => es.length ≠ 1
  | _ => True

lemma callRight_addAt_iff (h : Holds l as es) (index : ℤ) (e : E) :
    CallRight l es (.addAt index e) ↔ Fits es (.addAt index e) := by
  have hsize := h.size
  by_cases hout : index < 0 ∨ index > es.length
  · refine iff_of_true ⟨l, as, ?_, ?_⟩ fun _ _ => by omega
    · rw [step, addAt, if_pos (by rwa [hsize]), spec, if_pos hout]
      rfl
    · rw [spec, if_pos hout]
      exact h
  · have hout' : ¬ (index < 0 ∨ index > l.s) := by rwa [hsize]
    by_cases hfirst : index = 0
    · obtain ⟨l', as', hrun, hl'⟩ := h.addFirst e
      refine iff_of_true ⟨l', as', ?_, ?_⟩ fun _ _ => by omega
      · rw [step, addAt, if_neg hout', if_pos hfirst, hrun, spec, if_neg hout]
        rfl
      · rw [spec, if_neg hout, hfirst]
        exact hl'
    · by_cases hlast : index = l.s
      · obtain ⟨l', as', hrun, hl'⟩ := h.add e
        refine iff_of_true ⟨l', as', ?_, ?_⟩ fun _ _ => by omega
        · rw [step, addAt, if_neg hout', if_neg hfirst, if_pos hlast, addLast, hrun, spec, if_neg hout]
          rfl
        · have hlen : index.toNat = es.length := by omega
          rw [spec, if_neg hout, hlen, List.insertIdx_length_self]
          exact hl'
      · obtain ⟨i, rfl⟩ := Int.eq_ofNat_of_zero_le (show 0 ≤ index by omega)
        have hlt : i < es.length := by omega
        have hsplit : es = es.take i ++ es[i] :: es.drop (i + 1) := by
          rw [← List.drop_eq_getElem_cons hlt, List.take_append_drop]
        have htake : (es.take i).length = i := by
          rw [List.length_take]
          omega
        have hne : es.take i ≠ [] := by
          intro hnil
          rw [hnil, List.length_nil] at htake
          omega
        have h' := h
        rw [hsplit] at h'
        obtain ⟨l', as', hrun, hl'⟩ := h'.addAt_inside hne e
        rw [htake] at hrun
        have hspec : spec es (.addAt (i : ℤ) e) =
            (.bool true, es.take i ++ e :: es[i] :: es.drop (i + 1)) := by
          have hinsert := insertIdx_append (es.take i) (es[i] :: es.drop (i + 1)) e
          rw [htake, ← hsplit] at hinsert
          rw [spec, if_neg hout, Int.toNat_natCast, hinsert]
        have hfits : Fits es (.addAt (i : ℤ) e) ↔ es[i] = e := by
          rw [Fits, Int.toNat_natCast, List.getElem?_eq_getElem hlt, Option.some.injEq]
          exact ⟨fun hf => hf (by omega) (by omega), fun heq _ _ => heq⟩
        rw [hfits, ← insert_eq_iff (es.take i) (es.drop (i + 1))]
        constructor
        · rintro ⟨l'', as'', hrun', hl''⟩
          rw [step, hrun] at hrun'
          obtain rfl : l' = l'' := (Prod.mk.inj (Except.ok.inj hrun')).2
          rw [hspec] at hl''
          exact hl'.unique hl''
        · intro heq
          refine ⟨l', as', ?_, ?_⟩
          · rw [step, hrun, hspec]
            rfl
          · rw [hspec, ← heq]
            exact hl'

lemma callRight_removeLast_iff (h : Holds l as es) :
    CallRight l es .removeLast ↔ Fits es (.removeLast : Call E) := by
  rcases List.eq_nil_or_concat' es with rfl | ⟨es, e', rfl⟩
  · refine iff_of_true ⟨l, as, ?_, h⟩ (by simp [Fits])
    have hnone : l.head = none := by
      have := h.linked
      rwa [List.length_eq_zero_iff.mp h.values.length_eq] at this
    simp [step, removeLast, hnone, spec, Except.map]
  · rcases List.eq_nil_or_concat' es with rfl | ⟨es, e, rfl⟩
    · refine iff_of_false ?_ (by simp [Fits])
      rintro ⟨l', as', hrun, -⟩
      rw [List.nil_append] at h
      rw [step, h.removeLast_single] at hrun
      cases hrun
    · rw [List.append_assoc] at h
      obtain ⟨l', as', hrun, hl'⟩ := h.removeLast
      refine iff_of_true ⟨l', as', ?_, ?_⟩ (by simp [Fits])
      · rw [step, hrun]
        simp [spec, Except.map]
      · simpa [spec] using hl'

lemma callRight_iff (h : Holds l as es) (c : Call E) : CallRight l es c ↔ Fits es c := by
  cases c with
  | add e =>
    obtain ⟨l', as', hrun, hl'⟩ := h.add e
    exact iff_of_true ⟨l', as', by rw [step, hrun]; rfl, hl'⟩ trivial
  | addFirst e =>
    obtain ⟨l', as', hrun, hl'⟩ := h.addFirst e
    exact iff_of_true ⟨l', as', by rw [step, hrun]; rfl, hl'⟩ trivial
  | addLast e =>
    obtain ⟨l', as', hrun, hl'⟩ := h.add e
    exact iff_of_true ⟨l', as', by rw [step, addLast, hrun]; rfl, hl'⟩ trivial
  | addAt index e => exact callRight_addAt_iff h index e
  | remove e =>
    obtain ⟨l', as', hrun, hl'⟩ := h.remove e
    exact iff_of_true ⟨l', as', by rw [step, hrun]; rfl, hl'⟩ trivial
  | removeFirst =>
    obtain ⟨l', as', hrun, hl'⟩ := h.removeFirst
    exact iff_of_true ⟨l', as', by rw [step, hrun]; rfl, hl'⟩ trivial
  | removeLast => exact callRight_removeLast_iff h
  | reverse =>
    obtain ⟨l', as', hrun, hl'⟩ := h.reverse
    exact iff_of_true ⟨l', as', by rw [step, hrun]; rfl, hl'⟩ trivial
  | clear =>
    obtain ⟨l', hrun, hl'⟩ := h.clear
    exact iff_of_true ⟨l', [], by rw [step, hrun]; rfl, hl'⟩ trivial
  | get index => exact iff_of_true ⟨l, as, by rw [step, h.get index]; rfl, h⟩ trivial
  | contains e =>
    have hrun : l.contains e = .ok (es.any (· == e)) := containsFrom_ok h.linked h.values h.length_le
    exact iff_of_true ⟨l, as, by rw [step, hrun]; rfl, h⟩ trivial
  | size => exact iff_of_true ⟨l, as, by rw [step, h.size]; rfl, h⟩ trivial

/-- Each call of a run returns what it should, and leaves the sequence that it should. -/
def RunRight : List (Call E) → LinkedList E → List E → Prop
  | [], _, _ => True
  | c :: cs, l, es => ∃ l' as', l.step c = .ok ((spec es c).1, l') ∧ Holds l' as' (spec es c).2 ∧
      RunRight cs l' (spec es c).2

/-- Each call of a run fits the sequence it is made on. -/
def AllFit : List (Call E) → List E → Prop
  | [], _ => True
  | c :: cs, es => Fits es c ∧ AllFit cs (spec es c).2

lemma Holds.runRight_iff {calls : List (Call E)} : ∀ {l : LinkedList E} {as : List ℕ} {es : List E},
    Holds l as es → (RunRight calls l es ↔ AllFit calls es) := by
  induction calls with
  | nil => exact fun _ => Iff.rfl
  | cons c calls ih =>
    intro l as es h
    have hcall := callRight_iff h c
    constructor
    · rintro ⟨l', as', hrun, hl', hrest⟩
      exact ⟨hcall.mp ⟨l', as', hrun, hl'⟩, (ih hl').mp hrest⟩
    · rintro ⟨hfits, hrest⟩
      obtain ⟨l', as', hrun, hl'⟩ := hcall.mpr hfits
      exact ⟨l', as', hrun, hl', (ih hl').mpr hrest⟩

/-- **A list is the sequence it should be, as long as the calls fit.** -/
theorem list_right_iff (calls : List (Call E)) : RunRight calls {} [] ↔ AllFit calls [] :=
  holds_empty.runRight_iff

/-- The last element is removed of a list of one element, and an element is put at the place 1 of two. -/
theorem list_not_right : ¬ RunRight [.add 1, .removeLast] ({} : LinkedList ℕ) [] ∧
    ¬ RunRight [.add 1, .add 2, .addAt 1 3] ({} : LinkedList ℕ) [] := by
  rw [holds_empty.runRight_iff, holds_empty.runRight_iff]
  simp [AllFit, Fits, spec]

end LinkedList

end BrebOS

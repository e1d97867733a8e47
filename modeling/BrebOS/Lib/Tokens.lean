import Mathlib.Tactic

/-!
# The runs of a list between its separators

`runs` lists the longest non-empty stretches without a separator, by the positions where they start and
end.  One pass over the list finds them.
-/

namespace BrebOS

variable {α : Type} {sep : α → Bool} {s t skip run : List α} {c : α} {o : Option ℕ} {i a b : ℕ}

/-- `[a, b)` is a longest non-empty stretch of a list without a separator. -/
structure IsRun (sep : α → Bool) (t : List α) (a b : ℕ) : Prop where
  nonempty : a < b
  bounded : b ≤ t.length
  inside : ∀ i c, a ≤ i → i < b → t[i]? = some c → sep c = false
  before : ∀ i c, i + 1 = a → t[i]? = some c → sep c = true
  behind : ∀ c, t[b]? = some c → sep c = true

/-- The runs of a list that starts at position `i`, when a run is open that started at `o`. -/
def runsFrom (sep : α → Bool) : Option ℕ → ℕ → List α → List (ℕ × ℕ)
  | none, _, [] => []
  | some a, i, [] => [(a, i)]
  | none, i, c :: s => if sep c then runsFrom sep none (i + 1) s else runsFrom sep (some i) (i + 1) s
  | some a, i, c :: s =>
      if sep c then (a, i) :: runsFrom sep none (i + 1) s else runsFrom sep (some a) (i + 1) s

/-- The runs of a list. -/
def runs (sep : α → Bool) (t : List α) : List (ℕ × ℕ) := runsFrom sep none 0 t

/-! ## One run after the other -/

lemma runsFrom_skip (hskip : ∀ c ∈ skip, sep c = true) :
    runsFrom sep none i (skip ++ s) = runsFrom sep none (i + skip.length) s := by
  induction skip generalizing i with
  | nil => rfl
  | cons c skip ih =>
      rw [List.cons_append, runsFrom, if_pos (hskip c (by simp)), ih fun c' h => hskip c' (by simp [h])]
      congr 1
      simp only [List.length_cons]
      omega

lemma runsFrom_open (hrun : ∀ c ∈ run, sep c = false) :
    runsFrom sep (some a) i (run ++ s) = runsFrom sep (some a) (i + run.length) s := by
  induction run generalizing i with
  | nil => rfl
  | cons c run ih =>
      have hc : ¬ sep c = true := by simp [hrun c (by simp)]
      rw [List.cons_append, runsFrom, if_neg hc, ih fun c' h => hrun c' (by simp [h])]
      congr 1
      simp only [List.length_cons]
      omega

lemma runsFrom_run (hne : run ≠ []) (hrun : ∀ c ∈ run, sep c = false) :
    runsFrom sep none i (run ++ s) = runsFrom sep (some i) (i + run.length) s := by
  cases run with
  | nil => exact absurd rfl hne
  | cons c run =>
      have hc : ¬ sep c = true := by simp [hrun c (by simp)]
      rw [List.cons_append, runsFrom, if_neg hc, runsFrom_open fun c' h => hrun c' (by simp [h])]
      congr 1
      simp only [List.length_cons]
      omega

lemma runsFrom_separators (hskip : ∀ c ∈ skip, sep c = true) : runsFrom sep none i skip = [] := by
  have h := runsFrom_skip (i := i) (s := []) hskip
  rwa [List.append_nil] at h

lemma runsFrom_last (hskip : ∀ c ∈ skip, sep c = true) (hne : run ≠ []) (hrun : ∀ c ∈ run, sep c = false) :
    runsFrom sep none i (skip ++ run) = [(i + skip.length, i + skip.length + run.length)] := by
  have h := runsFrom_run (i := i + skip.length) (s := []) hne hrun
  rw [List.append_nil] at h
  rw [runsFrom_skip hskip, h, runsFrom]

lemma runsFrom_next (hskip : ∀ c ∈ skip, sep c = true) (hne : run ≠ []) (hrun : ∀ c ∈ run, sep c = false)
    (hc : sep c = true) :
    runsFrom sep none i (skip ++ run ++ c :: s) =
      (i + skip.length, i + skip.length + run.length) ::
        runsFrom sep none (i + skip.length + run.length + 1) s := by
  rw [List.append_assoc, runsFrom_skip hskip, runsFrom_run hne hrun, runsFrom, if_pos hc]

lemma exists_run (sep : α → Bool) (t : List α) :
    (∀ c ∈ t, sep c = true) ∨ ∃ skip run s, t = skip ++ run ++ s ∧ (∀ c ∈ skip, sep c = true) ∧ run ≠ [] ∧
      (∀ c ∈ run, sep c = false) ∧ ∀ c ∈ s.head?, sep c = true := by
  induction t with
  | nil => exact Or.inl fun c hc => absurd hc List.not_mem_nil
  | cons b t ih =>
      by_cases hb : sep b = true
      · rcases ih with hall | ⟨skip, run, s, ht, hskip, hne, hrun, hs⟩
        · exact Or.inl (List.forall_mem_cons.mpr ⟨hb, hall⟩)
        · have hskip' : ∀ c ∈ b :: skip, sep c = true := List.forall_mem_cons.mpr ⟨hb, hskip⟩
          exact Or.inr ⟨b :: skip, run, s, by simp [ht], hskip', hne, hrun, hs⟩
      · have hb' : sep b = false := by simpa using hb
        refine Or.inr ⟨[], b :: t.takeWhile (!sep ·), t.dropWhile (!sep ·), ?_, ?_, ?_, ?_, ?_⟩
        · simp
        · simp
        · simp
        · refine List.forall_mem_cons.mpr ⟨hb', ?_⟩
          intro c hc
          simpa using List.all_eq_true.mp List.all_takeWhile c hc
        · intro c hc
          have hstop := List.head?_dropWhile_not (!sep ·) t
          rw [Option.mem_def.mp hc] at hstop
          simpa using hstop

/-! ## The list of runs -/

/-- What `runsFrom` knows about the part of the list before `i`. -/
def Opened (sep : α → Bool) (t : List α) (i : ℕ) : Option ℕ → Prop
  | none => ∀ j c, j + 1 = i → t[j]? = some c → sep c = true
  | some a => a < i ∧ (∀ j c, a ≤ j → j < i → t[j]? = some c → sep c = false) ∧
      ∀ j c, j + 1 = a → t[j]? = some c → sep c = true

lemma IsRun.ne_of_opened_none (h : IsRun sep t a b) (hopen : Opened sep t i none) : b ≠ i := by
  rintro rfl
  have hne := h.nonempty
  obtain ⟨c, hc⟩ : ∃ c, t[b - 1]? = some c := ⟨_, List.getElem?_eq_getElem (by have := h.bounded; omega)⟩
  have htrue := hopen (b - 1) c (by omega) hc
  have hfalse := h.inside (b - 1) c (by omega) (by omega) hc
  simp [htrue] at hfalse

lemma IsRun.eq_of_opened (h : IsRun sep t b i) (hopen : Opened sep t i (some a)) (hi : i ≤ t.length) :
    b = a := by
  obtain ⟨hlt, hinside, hbefore⟩ := hopen
  have hne := h.nonempty
  rcases lt_trichotomy b a with hba | hba | hba
  · obtain ⟨c, hc⟩ : ∃ c, t[a - 1]? = some c := ⟨_, List.getElem?_eq_getElem (by omega)⟩
    have htrue := hbefore (a - 1) c (by omega) hc
    have hfalse := h.inside (a - 1) c (by omega) (by omega) hc
    simp [htrue] at hfalse
  · exact hba
  · obtain ⟨c, hc⟩ : ∃ c, t[b - 1]? = some c := ⟨_, List.getElem?_eq_getElem (by omega)⟩
    have htrue := h.before (b - 1) c (by omega) hc
    have hfalse := hinside (b - 1) c (by omega) (by omega) hc
    simp [htrue] at hfalse

lemma Opened.isRun (hopen : Opened sep t i (some a)) (hi : i ≤ t.length)
    (hend : ∀ c, t[i]? = some c → sep c = true) : IsRun sep t a i :=
  ⟨hopen.1, hi, hopen.2.1, hopen.2.2, hend⟩

lemma Opened.separator (hc : t[i]? = some c) (hsep : sep c = true) : Opened sep t (i + 1) none := by
  intro j c' hj hc'
  obtain rfl : j = i := by omega
  rw [hc] at hc'
  cases hc'
  exact hsep

lemma Opened.start (hopen : Opened sep t i none) (hc : t[i]? = some c) (hsep : sep c = false) :
    Opened sep t (i + 1) (some i) := by
  refine ⟨Nat.lt_succ_self i, ?_, hopen⟩
  intro j c' hle hlt hc'
  obtain rfl : j = i := by omega
  rw [hc] at hc'
  cases hc'
  exact hsep

lemma Opened.extend (hopen : Opened sep t i (some a)) (hc : t[i]? = some c) (hsep : sep c = false) :
    Opened sep t (i + 1) (some a) := by
  obtain ⟨hlt, hinside, hbefore⟩ := hopen
  refine ⟨by omega, ?_, hbefore⟩
  intro j c' hle hj hc'
  by_cases hji : j = i
  · subst hji
    rw [hc] at hc'
    cases hc'
    exact hsep
  · exact hinside j c' hle (by omega) hc'

lemma mem_runsFrom (hs : t.drop i = s) (hi : i ≤ t.length) (hopen : Opened sep t i o) :
    (a, b) ∈ runsFrom sep o i s ↔ IsRun sep t a b ∧ i ≤ b := by
  induction s generalizing i o with
  | nil =>
      have hlen : t.length = i := le_antisymm (List.drop_eq_nil_iff.mp hs) hi
      have hb : IsRun sep t a b → i ≤ b → b = i := by
        intro h hle
        exact le_antisymm (hlen ▸ h.bounded) hle
      cases o with
      | none =>
          simp only [runsFrom, List.not_mem_nil, false_iff, not_and]
          intro h hle
          exact absurd (hb h hle) (h.ne_of_opened_none hopen)
      | some a₀ =>
          simp only [runsFrom, List.mem_singleton, Prod.mk.injEq]
          constructor
          · rintro ⟨rfl, rfl⟩
            refine ⟨hopen.isRun hi ?_, le_rfl⟩
            intro c hc
            simp [hlen] at hc
          · rintro ⟨h, hle⟩
            obtain rfl := hb h hle
            exact ⟨h.eq_of_opened hopen hi, rfl⟩
  | cons c s ih =>
      have hlt : i < t.length := by
        by_contra hge
        rw [List.drop_eq_nil_of_le (by omega)] at hs
        cases hs
      have hc : t[i]? = some c := by
        rw [← List.head?_drop, hs]
        rfl
      have hnext : t.drop (i + 1) = s := by
        rw [← List.tail_drop, hs]
        rfl
      -- a run does not end before an element that is in it
      have hstays : sep c = false → IsRun sep t a b → b ≠ i := by
        rintro hsep h rfl
        simp [h.behind c hc] at hsep
      have hlater : (IsRun sep t a b → b ≠ i) →
          (IsRun sep t a b ∧ i + 1 ≤ b ↔ IsRun sep t a b ∧ i ≤ b) := by
        intro hne
        refine and_congr_right fun h => ?_
        have := hne h
        omega
      cases o with
      | none =>
          rw [runsFrom]
          have hne : IsRun sep t a b → b ≠ i := fun h => h.ne_of_opened_none hopen
          split_ifs with hsep
          · rw [ih hnext hlt (Opened.separator hc hsep), hlater hne]
          · rw [ih hnext hlt (hopen.start hc (by simpa using hsep)), hlater hne]
      | some a₀ =>
          rw [runsFrom]
          split_ifs with hsep
          · rw [List.mem_cons, ih hnext hlt (Opened.separator hc hsep), Prod.mk.injEq]
            constructor
            · rintro (⟨rfl, rfl⟩ | ⟨h, hle⟩)
              · refine ⟨hopen.isRun hi ?_, le_rfl⟩
                intro c' hc'
                rw [hc] at hc'
                cases hc'
                exact hsep
              · exact ⟨h, by omega⟩
            · rintro ⟨h, hle⟩
              by_cases hb : b = i
              · subst hb
                exact Or.inl ⟨h.eq_of_opened hopen hi, rfl⟩
              · exact Or.inr ⟨h, by omega⟩
          · have hsep' : sep c = false := by simpa using hsep
            rw [ih hnext hlt (hopen.extend hc hsep'), hlater (hstays hsep')]

lemma mem_runs : (a, b) ∈ runs sep t ↔ IsRun sep t a b := by
  have hopen : Opened sep t 0 none := by
    intro j c hj
    omega
  rw [runs, mem_runsFrom List.drop_zero (Nat.zero_le _) hopen]
  simp

lemma le_of_mem_runsFrom {lo : ℕ} (hi : lo ≤ i) (ho : ∀ a, o = some a → lo ≤ a) :
    (a, b) ∈ runsFrom sep o i s → lo ≤ a := by
  induction s generalizing i o with
  | nil =>
      intro h
      cases o with
      | none => simp [runsFrom] at h
      | some a₀ =>
          simp only [runsFrom, List.mem_singleton, Prod.mk.injEq] at h
          rw [h.1]
          exact ho a₀ rfl
  | cons c s ih =>
      have hclosed : ∀ a : ℕ, none = some a → lo ≤ a := by
        intro a h
        cases h
      have hstart : ∀ a, some i = some a → lo ≤ a := by
        intro a h
        cases h
        exact hi
      intro h
      cases o with
      | none =>
          rw [runsFrom] at h
          split_ifs at h
          · exact ih (by omega) hclosed h
          · exact ih (by omega) hstart h
      | some a₀ =>
          rw [runsFrom] at h
          split_ifs at h
          · rcases List.mem_cons.mp h with h | h
            · cases h
              exact ho _ rfl
            · exact ih (by omega) hclosed h
          · exact ih (by omega) ho h

lemma pairwise_runsFrom : (runsFrom sep o i s).Pairwise fun r r' => r.2 < r'.1 := by
  induction s generalizing i o with
  | nil => cases o <;> simp [runsFrom]
  | cons c s ih =>
      cases o with
      | none =>
          rw [runsFrom]
          split_ifs <;> exact ih
      | some a₀ =>
          rw [runsFrom]
          split_ifs
          · refine List.pairwise_cons.mpr ⟨?_, ih⟩
            intro r hr
            refine le_of_mem_runsFrom le_rfl ?_ hr
            intro a h
            cases h
          · exact ih

end BrebOS

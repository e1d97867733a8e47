import BrebOS.Core.Memory.Effects

/-!
# The search for contiguous pages, read by read

`get_contiguous_pages` of `RawMemory.cpp`, on whatever table it is given.  In `Core.RawMemory` the
search is part of a larger step and an entry read in vain does not count; here every read of
`PTE_USED` is checked against the length of the table, and sums are sums of `uint`s.

Two slips meet.  The inner loop **reads before it tests the end**, so a run that ends with the table
reads one entry more.  And the test that gives up compares with the number of pages of the whole
address space, while the table of a process stops below `KERNEL_VIRTUAL_BASE`: a search that finds
nothing there **goes on behind it**.

* `LowestRun`: what the search is for.
* `search_right_iff`: when it stays in the table, and then it finds exactly that.
* `getContiguousPages_eq`: the search of `Core.RawMemory` agrees with it.
-/

namespace BrebOS.RawMemory

open Memory

variable {pt : ℕ → Entry} {size target n b c lo pte low : ℕ} {hint : HintInfo}

/-! ## The code -/

/-- `for (; !(PTE_USED(pt, pte)) && pte != target; pte++) {}` on a table of `size` entries. -/
def explore (pt : ℕ → Entry) (size target pte : ℕ) : Except Fault ℕ :=
  if size ≤ pte then .error .outOfBounds
  else if (pt pte).used then .ok pte
  else if pte = target then .ok pte
  else explore pt size target (pte + 1)
termination_by size - pte

lemma explore_spec : ∀ {pte r : ℕ}, explore pt size target pte = .ok r →
    pte ≤ r ∧ r < size ∧ ((pt r).used = true ∨ r = target) ∧
      ∀ i, pte ≤ i → i < r → (pt i).used = false ∧ i ≠ target := by
  intro pte
  fun_induction explore pt size target pte with
  | case1 pte hout => simp
  | case2 pte hout hused =>
      intro r h
      obtain rfl := Except.ok.inj h
      exact ⟨le_rfl, Nat.not_le.mp hout, Or.inl hused, fun i h₁ h₂ => by omega⟩
  | case3 hout hused =>
      intro r h
      obtain rfl := Except.ok.inj h
      exact ⟨le_rfl, Nat.not_le.mp hout, Or.inr rfl, fun i h₁ h₂ => by omega⟩
  | case4 pte hout hused hne ih =>
      intro r h
      obtain ⟨hle, hlt, hend, hbefore⟩ := ih h
      refine ⟨by omega, hlt, hend, fun i h₁ h₂ => ?_⟩
      rcases Nat.eq_or_lt_of_le h₁ with rfl | h₁
      · exact ⟨by simpa using hused, hne⟩
      · exact hbefore i h₁ h₂

lemma explore_error : ∀ {pte : ℕ} {f : Fault}, explore pt size target pte = .error f →
    ∀ i, pte ≤ i → i < size → (pt i).used = false ∧ i ≠ target := by
  intro pte
  fun_induction explore pt size target pte with
  | case1 pte hout =>
      intro f _ i h₁ h₂
      omega
  | case2 pte hout hused => simp
  | case3 hout hused => simp
  | case4 pte hout hused hne ih =>
      intro f h i h₁ h₂
      rcases Nat.eq_or_lt_of_le h₁ with rfl | h₁
      · exact ⟨by simpa using hused, hne⟩
      · exact ih h i h₁ h₂

/-- The `while (true)` of `get_contiguous_pages`. -/
def contiguousFrom (pt : ℕ → Entry) (size n b : ℕ) : Except Fault (Option ℕ) :=
  if u32 (b + n) > numFrames then .ok none
  else
    match h : explore pt size (u32 (b + n)) b with
    | .error f => .error f
    | .ok pte => if pte = u32 (b + n) then .ok (some b) else contiguousFrom pt size n (pte + 1)
termination_by size - b
decreasing_by
  have := explore_spec h
  omega

/-- `get_contiguous_pages`, `none` for `-1`. -/
def getContiguousPages (n : ℕ) (hint : HintInfo) (pt : ℕ → Entry) (size low : ℕ) :
    Except Fault (Option ℕ) :=
  if hint.isMandatory then
    if hint.hint % pageSize ≠ 0 then
      .error (.irrecoverableError "alloc_params->hint is not page aligned")
    else
      let b := addrPage hint.hint
      if u32 (b + n) > numFrames then .ok none
      else do
        let pte ← explore pt size (u32 (b + n)) b
        .ok (if pte = u32 (b + n) then some b else none)
  else contiguousFrom pt size n (max low (addrPage hint.hint))

/-! ## What it is for -/

/-- The `n` entries from `b` on are in the table and unused. -/
def IsRun (pt : ℕ → Entry) (size n b : ℕ) : Prop :=
  b + n ≤ size ∧ ∀ i, b ≤ i → i < b + n → (pt i).used = false

/-- The answer of the search: the lowest run from `lo` on, none if there is none. -/
def LowestRun (pt : ℕ → Entry) (size n lo : ℕ) : Option ℕ → Prop
  | some b => lo ≤ b ∧ IsRun pt size n b ∧ ∀ c, lo ≤ c → IsRun pt size n c → b ≤ c
  | none => ∀ c, lo ≤ c → ¬ IsRun pt size n c

/-- The search returns, having read entries of the table only, and its answer is right. -/
def SearchRight (pt : ℕ → Entry) (size n low : ℕ) (hint : HintInfo) : Prop :=
  ∃ r, getContiguousPages n hint pt size low = .ok r ∧
    LowestRun pt size n (max low (addrPage hint.hint)) r

/-- The search stays in the table: some run ends before the table does, or there is none and the
unused entries at the end of the table begin too high for the address space. -/
def StaysInside (pt : ℕ → Entry) (size n lo : ℕ) : Prop :=
  (∃ b, lo ≤ b ∧ IsRun pt size n b ∧ b + n < size) ∨
    (∀ c, lo ≤ c → ¬ IsRun pt size n c) ∧
      ∀ u, lo ≤ u → (∀ i, u ≤ i → i < size → (pt i).used = false) → numFrames < u + n

/-! ## One turn -/

lemma not_isRun (hc : c ≤ pte) (hlt : pte < c + n) (hused : (pt pte).used = true) :
    ¬ IsRun pt size n c := by
  rintro ⟨-, hrun⟩
  exact Bool.false_ne_true ((hrun pte hc hlt).symm.trans hused)

lemma lowestRun_skip {r : Option ℕ} (hb : b ≤ pte) (hlt : pte < b + n)
    (hused : (pt pte).used = true) :
    LowestRun pt size n (pte + 1) r ↔ LowestRun pt size n b r := by
  have hskip : ∀ c, b ≤ c → IsRun pt size n c → pte + 1 ≤ c := by
    intro c hc hrun
    by_contra hle
    exact not_isRun (by omega) (by omega) hused hrun
  cases r with
  | none =>
      simp only [LowestRun]
      constructor
      · intro h c hc hrun
        exact h c (hskip c hc hrun) hrun
      · intro h c hc
        exact h c (by omega)
  | some r =>
      simp only [LowestRun]
      constructor
      · rintro ⟨hle, hrun, hmin⟩
        exact ⟨by omega, hrun, fun c hc h => hmin c (hskip c hc h) h⟩
      · rintro ⟨hle, hrun, hmin⟩
        exact ⟨hskip r hle hrun, hrun, fun c hc h => hmin c (by omega) h⟩

lemma staysInside_skip (hb : b ≤ pte) (hlt : pte < b + n) (hin : pte < size)
    (hused : (pt pte).used = true) :
    StaysInside pt size n (pte + 1) ↔ StaysInside pt size n b := by
  have hskip : ∀ c, b ≤ c → IsRun pt size n c → pte + 1 ≤ c := by
    intro c hc hrun
    by_contra hle
    exact not_isRun (by omega) (by omega) hused hrun
  constructor
  · rintro (⟨c, hc, hrun, hend⟩ | ⟨hnone, htail⟩)
    · exact Or.inl ⟨c, by omega, hrun, hend⟩
    · refine Or.inr ⟨fun c hc hrun => hnone c (hskip c hc hrun) hrun, fun u hu hun => ?_⟩
      by_cases hle : u ≤ pte
      · exact absurd (hun pte hle hin) (by simp [hused])
      · exact htail u (by omega) hun
  · rintro (⟨c, hc, hrun, hend⟩ | ⟨hnone, htail⟩)
    · exact Or.inl ⟨c, hskip c hc hrun, hrun, hend⟩
    · exact Or.inr ⟨fun c hc => hnone c (by omega), fun u hu hun => htail u (by omega) hun⟩

/-- **The search without wrapping.** -/
lemma contiguousFrom_right (hsize : size ≤ numFrames) (hb : b + n < 2 ^ 32) :
    (∀ r, contiguousFrom pt size n b = .ok r → LowestRun pt size n b r ∧ StaysInside pt size n b) ∧
      ∀ f, contiguousFrom pt size n b = .error f → ¬ StaysInside pt size n b := by
  fun_induction contiguousFrom pt size n b with
  | case1 b hmax =>
      rw [u32_of_lt hb] at hmax
      have hnone : ∀ c, b ≤ c → ¬ IsRun pt size n c := by
        rintro c hc ⟨hend, -⟩
        omega
      refine ⟨fun r h => ?_, by simp⟩
      obtain rfl := Except.ok.inj h
      exact ⟨hnone, Or.inr ⟨hnone, fun u hu _ => by omega⟩⟩
  | case2 b hmax f hexp =>
      rw [u32_of_lt hb] at hmax hexp
      have hfree := explore_error hexp
      refine ⟨by simp, fun f' _ => ?_⟩
      rintro (⟨c, hc, -, hend⟩ | ⟨-, htail⟩)
      · exact (hfree (b + n) (by omega) (by omega)).2 rfl
      · have := htail b le_rfl fun i h₁ h₂ => (hfree i h₁ h₂).1
        omega
  | case3 b hmax hexp =>
      rw [u32_of_lt hb] at hexp
      obtain ⟨-, hlt, -, hbefore⟩ := explore_spec hexp
      have hrun : IsRun pt size n b := ⟨hlt.le, fun i h₁ h₂ => (hbefore i h₁ h₂).1⟩
      refine ⟨fun r h => ?_, by simp⟩
      obtain rfl := Except.ok.inj h
      exact ⟨⟨le_rfl, hrun, fun c hc _ => hc⟩, Or.inl ⟨b, le_rfl, hrun, hlt⟩⟩
  | case4 b hmax pte hexp hne ih =>
      rw [u32_of_lt hb] at hmax hexp hne
      obtain ⟨hle, hin, hend, hbefore⟩ := explore_spec hexp
      have hlt : pte < b + n := by
        by_contra hge
        exact (hbefore (b + n) (by omega) (by omega)).2 rfl
      have hused : (pt pte).used = true := hend.resolve_right hne
      have ih := ih (by simp only [numFrames] at *; omega)
      simp only [lowestRun_skip hle hlt hused, staysInside_skip hle hlt hin hused] at ih
      exact ih

lemma contiguousFrom_wraps (hsize : size ≤ numFrames) (hn : n < 2 ^ 32) (hb : b < 2 ^ 32)
    (hwrap : 2 ^ 32 ≤ b + n) (hlow : u32 (b + n) ≤ numFrames) (r : Option ℕ) :
    contiguousFrom pt size n b ≠ .ok r := by
  fun_induction contiguousFrom pt size n b with
  | case1 b hmax => omega
  | case2 b hmax f hexp => simp
  | case3 b hmax hexp =>
      have := (explore_spec hexp).1
      simp only [u32] at this
      omega
  | case4 b hmax pte hexp hne ih =>
      obtain ⟨hle, hin, -⟩ := explore_spec hexp
      simp only [numFrames, u32] at *
      exact ih (by omega) (by omega) (by omega)

/-- **When the search is right**: it gives up at once, or its sums do not wrap and it stays in the
table. -/
theorem search_right_iff (hmand : hint.isMandatory = false) (hsize : size ≤ numFrames)
    (hn : n < 2 ^ 32) (hlo : max low (addrPage hint.hint) < 2 ^ 32) :
    SearchRight pt size n low hint ↔
      numFrames < u32 (max low (addrPage hint.hint) + n) ∨
        max low (addrPage hint.hint) + n < 2 ^ 32 ∧
          StaysInside pt size n (max low (addrPage hint.hint)) := by
  rw [SearchRight, getContiguousPages, hmand, if_neg Bool.false_ne_true]
  set lo := max low (addrPage hint.hint) with hlodef
  by_cases hmax : numFrames < u32 (lo + n)
  · refine ⟨fun _ => Or.inl hmax, fun _ => ⟨none, ?_, ?_⟩⟩
    · rw [contiguousFrom, if_pos hmax]
    · rintro c hc ⟨hend, -⟩
      simp only [u32] at hmax
      omega
  · by_cases hwrap : lo + n < 2 ^ 32
    · obtain ⟨hok, herr⟩ := @contiguousFrom_right pt _ _ _ hsize hwrap
      constructor
      · rintro ⟨r, hrun, -⟩
        exact Or.inr ⟨hwrap, (hok r hrun).2⟩
      · rintro (h | ⟨-, h⟩)
        · exact absurd h hmax
        · cases hrun : contiguousFrom pt size n lo with
          | error f => exact absurd h (herr f hrun)
          | ok r => exact ⟨r, rfl, (hok r hrun).1⟩
    · constructor
      · rintro ⟨r, hrun, -⟩
        exact absurd hrun
          (contiguousFrom_wraps hsize hn hlo (Nat.not_lt.mp hwrap) (Nat.not_lt.mp hmax) r)
      · rintro (h | ⟨h, -⟩)
        · exact absurd h hmax
        · exact absurd h hwrap

/-- A search for two pages passes over a single unused entry. -/
theorem search_right_two : SearchRight (fun i => if i = 2 then ⟨7, { present := true }⟩ else {})
    numFrames 2 1 defaultHintInfo := by
  refine (search_right_iff rfl le_rfl (by decide) (by decide)).mpr
    (Or.inr ⟨by decide, Or.inl ⟨3, by decide, ⟨by decide, fun i h₁ h₂ => ?_⟩, by decide⟩⟩)
  simp only
  rw [if_neg (by omega)]
  rfl

/-- **A process that has mapped nothing** and asks for one page more than its table has from there
on: the search goes on behind the table. -/
theorem search_leaves_table : ¬ SearchRight (fun _ => {}) userEntries userEntries 1
    defaultHintInfo := by
  rintro ⟨r, hrun, -⟩
  have hlo : max 1 (addrPage defaultHintInfo.hint) = 1 := by decide
  rw [getContiguousPages, if_neg (by decide), hlo] at hrun
  rcases ((contiguousFrom_right (by decide) (by decide)).1 r hrun).2 with
    ⟨b, hb, ⟨hend, -⟩, -⟩ | ⟨-, htail⟩
  · simp only [userEntries] at hend
    omega
  · have := htail 1 le_rfl fun i _ _ => rfl
    simp only [numFrames, userEntries] at this
    omega

/-! ## The search of `Core.RawMemory` -/

lemma firstUsed_eq (h : explore pt size (b + n) b = .ok pte) : firstUsed n b size pt = .ok pte := by
  obtain ⟨hle, hlt, hend, hbefore⟩ := explore_spec h
  obtain ⟨h₁, h₂, h₃, h₄⟩ := skipWhile_spec (fun i => !(pt i).used) n b
  have hpte : pte ≤ b + n := by
    by_contra hgt
    exact (hbefore (b + n) (by omega) (by omega)).2 rfl
  have heq : skipWhile (fun i => !(pt i).used) n b = pte := by
    rcases Nat.lt_trichotomy (skipWhile (fun i => !(pt i).used) n b) pte with hs | hs | hs
    · have hused := h₄ (by omega)
      rw [(hbefore _ h₁ hs).1] at hused
      exact absurd hused (by decide)
    · exact hs
    · have hunused := h₃ pte hle hs
      rcases hend with hused | hend
      · rw [hused] at hunused
        exact absurd hunused (by decide)
      · omega
  rw [firstUsed, heq, if_neg (by omega)]

lemma contiguousFrom_eq {r : Option ℕ} (hb : b + n < 2 ^ 32) (hsize : size ≤ numFrames)
    (h : contiguousFrom pt size n b = .ok r) :
    ∀ fuel, size - b < fuel → Memory.contiguousFrom n size pt fuel b = .ok r := by
  fun_induction contiguousFrom pt size n b with
  | case1 b hmax =>
      rintro (_ | fuel) hfuel
      · omega
      · rw [u32_of_lt hb] at hmax
        rw [Memory.contiguousFrom, if_pos hmax, h]
  | case2 b hmax f hexp => simp at h
  | case3 b hmax hexp =>
      rintro (_ | fuel) hfuel
      · omega
      · rw [u32_of_lt hb] at hmax hexp
        rw [Memory.contiguousFrom, if_neg hmax, ← h]
        exact bind_eq_ok.mpr ⟨b + n, firstUsed_eq hexp, if_pos rfl⟩
  | case4 b hmax pte hexp hne ih =>
      rintro (_ | fuel) hfuel
      · omega
      · rw [u32_of_lt hb] at hmax hexp hne
        obtain ⟨hle, hin, -⟩ := explore_spec hexp
        rw [Memory.contiguousFrom, if_neg hmax]
        refine bind_eq_ok.mpr ⟨pte, firstUsed_eq hexp, ?_⟩
        rw [if_neg hne]
        exact ih (by simp only [numFrames] at *; omega) h fuel (by omega)

/-- **The two searches agree** whenever the one here stays in the table. -/
theorem getContiguousPages_eq {m : Memory} {proc : ProcId} {r : Option ℕ} (hn : n ≤ numFrames)
    (hlow : m.lowestPe proc < 2 ^ 31) (hhint : hint.hint < 2 ^ 32)
    (h : getContiguousPages n hint (m.pte proc) proc.entries (m.lowestPe proc) = .ok r) :
    Memory.getContiguousPages n hint proc m = .ok r := by
  have hsize := Memory.entries_le proc
  have hpage : addrPage hint.hint < numFrames := by
    simp only [addrPage, numFrames]
    omega
  have hmax : addrPage hint.hint + n < 2 ^ 32 := by
    simp only [numFrames] at *
    omega
  rw [getContiguousPages] at h
  rw [Memory.getContiguousPages]
  split_ifs at h ⊢ with hm halign
  · simp only [u32_of_lt hmax] at h ⊢
    split_ifs at h ⊢ with hfull
    · exact h
    · obtain ⟨pte, hexp, h⟩ := bind_eq_ok.mp h
      exact bind_eq_ok.mpr ⟨pte, firstUsed_eq hexp, h⟩
  · refine contiguousFrom_eq ?_ hsize h _ (by omega)
    simp only [numFrames] at *
    omega

end BrebOS.RawMemory

import BrebOS.Core.Memory.Alloc
import BrebOS.Core.Memory.Faults

/-!
# Zeroing a block page by page

`zero_out_possibly_lazily_allocated_memory` calls `memset` for the part of the block on its first
page, for each whole page and for the part on the last one, and leaves out the pages that are not
present.  `zeroParts` are these parts; together they are the block (`mem_zeroParts`), so what the
function does is said without them: `zeroOut_spec`.
-/

namespace BrebOS.Memory

variable {m m' : Memory} {proc : ProcId} {address n mem totalSize : ℕ}

/-! ## The parts -/

/-- The address and the length of each call of `memset`, as far as the page is present. -/
def zeroParts (totalSize mem : ℕ) : List (ℕ × ℕ) :=
  let first := min (pageSize - mem % pageSize) totalSize
  (mem, first) :: (List.range (addrPage (u32 (totalSize - first + pageSize - 1)))).map fun i =>
    ((addrPage mem + 1 + i) * pageSize, min (totalSize - first - i * pageSize) pageSize)

lemma zeroOut_eq : zeroOutPossiblyLazilyAllocatedMemory totalSize mem proc m =
    (zeroParts totalSize mem).foldlM (fun m r => zeroOutPart proc r.1 r.2 m) m := by
  set first := min (pageSize - mem % pageSize) totalSize with hfirst
  -- `rem` after `j` turns
  have hloop : ∀ (k j : ℕ) (m : Memory),
      ((List.range' j k).foldlM (zeroOutPage proc (addrPage mem))
        (m, totalSize - first - j * pageSize) >>= fun s => .ok s.1) =
        ((List.range' j k).map fun i => ((addrPage mem + 1 + i) * pageSize,
          min (totalSize - first - i * pageSize) pageSize)).foldlM
            (fun m r => zeroOutPart proc r.1 r.2 m) m := by
    intro k
    induction k with
    | zero => intro j m; rfl
    | succ k ih =>
        intro j m
        have hrem : totalSize - first - j * pageSize -
            min (totalSize - first - j * pageSize) pageSize = totalSize - first - (j + 1) * pageSize := by
          rw [Nat.add_one_mul]
          omega
        rw [List.range'_succ, List.map_cons, List.foldlM_cons, List.foldlM_cons, zeroOutPage]
        cases zeroOutPart proc ((addrPage mem + 1 + j) * pageSize)
            (min (totalSize - first - j * pageSize) pageSize) m with
        | error f => simp [bind, Except.bind]
        | ok m₁ =>
            have hrest := ih (j + 1) m₁
            simp only [bind, Except.bind, hrem] at hrest ⊢
            exact hrest
  rw [zeroOutPossiblyLazilyAllocatedMemory, zeroParts, List.foldlM_cons, ← hfirst]
  cases zeroOutPart proc mem first m with
  | error f => rfl
  | ok m₁ =>
      have hrest := hloop (addrPage (u32 (totalSize - first + pageSize - 1))) 0 m₁
      rw [Nat.zero_mul, Nat.sub_zero, ← List.range_eq_range'] at hrest
      exact hrest

lemma zeroParts_inPage {r : ℕ × ℕ} (h : r ∈ zeroParts totalSize mem) :
    r.1 % pageSize + r.2 ≤ pageSize := by
  simp only [zeroParts, List.mem_cons, List.mem_map, List.mem_range] at h
  rcases h with rfl | ⟨i, -, rfl⟩
  · simp only [pageSize]
    omega
  · simp only [Nat.mul_mod_left]
    omega

lemma zeroParts_nonempty (hmax : mem + totalSize ≤ 4294967296) {r : ℕ × ℕ}
    (h : r ∈ zeroParts totalSize mem) (hr : r.2 = 0) : r.1 = mem := by
  simp only [zeroParts, List.mem_cons, List.mem_map, List.mem_range] at h
  rcases h with rfl | ⟨i, hi, rfl⟩
  · rfl
  · simp only [pageSize, addrPage, u32] at *
    omega

lemma mem_zeroParts (hmax : mem + totalSize ≤ 4294967296) (x : ℕ) :
    (∃ r ∈ zeroParts totalSize mem, r.1 ≤ x ∧ x < r.1 + r.2) ↔ mem ≤ x ∧ x < mem + totalSize := by
  simp only [zeroParts, List.mem_cons, List.mem_map, List.mem_range, exists_eq_or_imp,
    exists_exists_and_eq_and]
  constructor
  · rintro (⟨h₁, h₂⟩ | ⟨i, hi, h₁, h₂⟩)
    · simp only [pageSize] at *
      omega
    · simp only [pageSize, addrPage] at *
      omega
  · rintro ⟨h₁, h₂⟩
    by_cases hfirst : addrPage x = addrPage mem
    · refine Or.inl ⟨h₁, ?_⟩
      simp only [pageSize, addrPage] at *
      omega
    · refine Or.inr ⟨addrPage x - addrPage mem - 1, ?_, ?_, ?_⟩
      · simp only [pageSize, addrPage, u32] at *
        omega
      · simp only [pageSize, addrPage] at *
        omega
      · simp only [pageSize, addrPage] at *
        omega

/-! ## What they do -/

/-- The byte `o` of the frame `f` belongs to a part on a page that is present. -/
def PartByte (proc : ProcId) (m : Memory) (parts : List (ℕ × ℕ)) (f o : ℕ) : Prop :=
  ∃ r ∈ parts, (m.pte proc (addrPage r.1)).flags.present = true ∧
    (m.pte proc (addrPage r.1)).frame = f ∧ r.1 % pageSize ≤ o ∧ o < r.1 % pageSize + r.2

/-- The same, with the bytes set to zero and the rest as it was. -/
structure Zeroed (proc : ProcId) (parts : List (ℕ × ℕ)) (m m' : Memory) : Prop where
  same : m' = { m with frames := m'.frames }
  zero : ∀ f o, PartByte proc m parts f o → m'.frames f o = 0
  other : ∀ f o, ¬ PartByte proc m parts f o → m'.frames f o = m.frames f o

lemma pte_of_frames (h : m' = { m with frames := m'.frames }) : m'.pte = m.pte := by
  rw [h]
  funext p i
  cases p <;> rfl

lemma Zeroed.pte {parts : List (ℕ × ℕ)} (h : Zeroed proc parts m m') : m'.pte = m.pte :=
  pte_of_frames h.same

lemma zeroOutPart_zeroed (hpage : addrPage address < proc.entries)
    (hwrite : n ≠ 0 → (m.pte proc (addrPage address)).flags.present = true →
      (m.pte proc (addrPage address)).flags.write = true) :
    ∃ m', zeroOutPart proc address n m = .ok m' ∧ Zeroed proc [(address, n)] m m' := by
  rw [zeroOutPart, if_neg (by omega)]
  by_cases hpresent : (m.pte proc (addrPage address)).flags.present = true
  · rw [if_pos hpresent, memset]
    by_cases hn : n = 0
    · refine ⟨m, if_pos hn, rfl, fun f o hbyte => ?_, fun _ _ _ => rfl⟩
      obtain ⟨r, hr, -, -, h₁, h₂⟩ := hbyte
      obtain rfl := List.mem_singleton.mp hr
      simp only [hn] at h₁ h₂
      omega
    · have haccess : kernelAccess proc (addrPage address) true m = .ok m := by
        rw [kernelAccess, kernelAllows, if_pos (by simp [hpresent, hwrite hn hpresent])]
      rw [if_neg hn, haccess]
      refine ⟨_, rfl, rfl, fun f o hbyte => ?_, fun f o hbyte => ?_⟩
      · obtain ⟨r, hr, -, rfl, hin⟩ := hbyte
        obtain rfl := List.mem_singleton.mp hr
        simp only [setFrame, Function.update_self, if_pos hin]
      · simp only [PartByte, List.mem_singleton, exists_eq_left, hpresent, true_and] at hbyte
        by_cases hf : (m.pte proc (addrPage address)).frame = f
        · subst hf
          have hout : ¬ (address % pageSize ≤ o ∧ o < address % pageSize + n) := by tauto
          simp only [setFrame, Function.update_self, if_neg hout]
        · simp only [setFrame, Function.update_of_ne (Ne.symm hf)]
  · refine ⟨m, if_neg hpresent, rfl, fun f o hbyte => ?_, fun _ _ _ => rfl⟩
    obtain ⟨r, hr, hp, -⟩ := hbyte
    obtain rfl := List.mem_singleton.mp hr
    exact absurd hp hpresent

lemma Zeroed.cons {r : ℕ × ℕ} {parts : List (ℕ × ℕ)} {m₁ : Memory} (h₁ : Zeroed proc [r] m m₁)
    (h : Zeroed proc parts m₁ m') : Zeroed proc (r :: parts) m m' := by
  have hbyte : ∀ f o, PartByte proc m (r :: parts) f o ↔
      PartByte proc m [r] f o ∨ PartByte proc m₁ parts f o := by
    intro f o
    simp only [PartByte, h₁.pte, List.mem_cons, List.not_mem_nil, or_false, exists_eq_or_imp,
      exists_eq_left]
  refine ⟨?_, fun f o hb => ?_, fun f o hb => ?_⟩
  · rw [h.same, h₁.same]
  · by_cases hrest : PartByte proc m₁ parts f o
    · exact h.zero f o hrest
    · rw [h.other f o hrest]
      exact h₁.zero f o (((hbyte f o).mp hb).resolve_right hrest)
  · rw [hbyte, not_or] at hb
    rw [h.other f o hb.2, h₁.other f o hb.1]

lemma parts_zeroed : ∀ {parts : List (ℕ × ℕ)} {m : Memory},
    (∀ r ∈ parts, addrPage r.1 < proc.entries ∧ (r.2 ≠ 0 →
      (m.pte proc (addrPage r.1)).flags.present = true →
        (m.pte proc (addrPage r.1)).flags.write = true)) →
      ∃ m', parts.foldlM (fun m r => zeroOutPart proc r.1 r.2 m) m = .ok m' ∧
        Zeroed proc parts m m'
  | [], m, _ => ⟨m, rfl, rfl, fun f o hb => by simp [PartByte] at hb, fun _ _ _ => rfl⟩
  | r :: parts, m, hparts => by
      obtain ⟨hpage, hwrite⟩ := hparts r List.mem_cons_self
      obtain ⟨m₁, h₁, hz₁⟩ := zeroOutPart_zeroed hpage hwrite
      obtain ⟨m', h, hz⟩ := @parts_zeroed parts m₁ fun r' hr' => by
        rw [hz₁.pte]
        exact hparts r' (List.mem_cons_of_mem r hr')
      exact ⟨m', by rw [List.foldlM_cons, h₁]; exact h, hz₁.cons hz⟩

/-- The byte `o` of the frame `f` is what some address from `lo` on below `hi` shows, on a page that
is present. -/
def ShownIn (proc : ProcId) (m : Memory) (lo hi f o : ℕ) : Prop :=
  ∃ x, lo ≤ x ∧ x < hi ∧ (m.pte proc (addrPage x)).flags.present = true ∧
    (m.pte proc (addrPage x)).frame = f ∧ x % pageSize = o

lemma partByte_zeroParts (hmax : mem + totalSize ≤ 4294967296) (f o : ℕ) :
    PartByte proc m (zeroParts totalSize mem) f o ↔ ShownIn proc m mem (mem + totalSize) f o := by
  constructor
  · rintro ⟨r, hr, hp, hf, h₁, h₂⟩
    have hin := zeroParts_inPage hr
    have hx := (mem_zeroParts hmax (r.1 + (o - r.1 % pageSize))).mp ⟨r, hr, by omega, by omega⟩
    have hpage : addrPage (r.1 + (o - r.1 % pageSize)) = addrPage r.1 := by
      simp only [addrPage, pageSize] at *
      omega
    have ho : (r.1 + (o - r.1 % pageSize)) % pageSize = o := by
      simp only [pageSize] at *
      omega
    exact ⟨_, hx.1, hx.2, by rwa [hpage], by rwa [hpage], ho⟩
  · rintro ⟨x, h₁, h₂, hp, hf, rfl⟩
    obtain ⟨r, hr, hlo, hhi⟩ := (mem_zeroParts hmax x).mpr ⟨h₁, h₂⟩
    have hin := zeroParts_inPage hr
    have hpage : addrPage r.1 = addrPage x := by
      simp only [addrPage, pageSize] at *
      omega
    refine ⟨r, hr, by rwa [hpage], by rwa [hpage], ?_, ?_⟩
    · simp only [addrPage, pageSize] at *
      omega
    · simp only [addrPage, pageSize] at *
      omega

/-- **What the zeroing does**, on a block whose pages are absent or can be written: it succeeds, the
bytes that the block shows are zero, and nothing else changes. -/
theorem zeroOut_spec (hmax : mem + totalSize ≤ 4294967296) (hmem : addrPage mem < proc.entries)
    (hpages : ∀ x, mem ≤ x → x < mem + totalSize → addrPage x < proc.entries ∧
      ((m.pte proc (addrPage x)).flags.present = true →
        (m.pte proc (addrPage x)).flags.write = true)) :
    ∃ m', zeroOutPossiblyLazilyAllocatedMemory totalSize mem proc m = .ok m' ∧
      m' = { m with frames := m'.frames } ∧
      (∀ f o, ShownIn proc m mem (mem + totalSize) f o → m'.frames f o = 0) ∧
      ∀ f o, ¬ ShownIn proc m mem (mem + totalSize) f o → m'.frames f o = m.frames f o := by
  have hparts : ∀ r ∈ zeroParts totalSize mem, addrPage r.1 < proc.entries ∧ (r.2 ≠ 0 →
      (m.pte proc (addrPage r.1)).flags.present = true →
        (m.pte proc (addrPage r.1)).flags.write = true) := by
    intro r hr
    by_cases hn : r.2 = 0
    · rw [zeroParts_nonempty hmax hr hn]
      exact ⟨hmem, fun h => absurd hn h⟩
    · have hx := (mem_zeroParts hmax r.1).mp ⟨r, hr, le_rfl, by omega⟩
      exact ⟨(hpages r.1 hx.1 hx.2).1, fun _ => (hpages r.1 hx.1 hx.2).2⟩
  obtain ⟨m', h, hz⟩ := parts_zeroed hparts
  refine ⟨m', by rw [zeroOut_eq, h], hz.same, fun f o hs => ?_, fun f o hs => ?_⟩
  · exact hz.zero f o ((partByte_zeroParts hmax f o).mpr hs)
  · exact hz.other f o fun hb => hs ((partByte_zeroParts hmax f o).mp hb)

/-! ## What they need in the kernel -/

lemma kernelAccess_kernel {page : ℕ} (hpage : page < numFrames)
    (hpresent : (m.pte .kernel page).flags.present = true)
    (hlazy : (m.pte .kernel page).flags.lazyZero = false)
    (h : kernelAccess .kernel page true m = .ok m') : (m.pte .kernel page).flags.write = true := by
  by_contra hwrite
  rw [Bool.not_eq_true] at hwrite
  have hallows : kernelAllows true (m.pte .kernel page) = false := by
    simp [kernelAllows, hpresent, hwrite]
  have haddr : addrPage (page * pageSize) = page := by
    simp only [addrPage, pageSize]
    omega
  have htable : ∀ higherHalf, faultTable .kernel higherHalf = .kernel := by
    intro higherHalf
    cases higherHalf <;> rfl
  rw [kernelAccess, hallows] at h
  simp only [Bool.false_eq_true, if_false] at h
  obtain ⟨⟨handled, m₁⟩, hfault, h⟩ := bind_eq_ok.mp h
  simp only [pageFaultHandler, haddr, htable, ProcId.entries] at hfault
  rw [if_neg (by omega)] at hfault
  by_cases hcow : (m.pte .kernel page).flags.cow = true
  · simp [hcow, handleCowPageFault, bind, Except.bind] at hfault
  · simp only [hcow, hlazy, Bool.false_eq_true, if_false, Bool.not_false, if_true, bind, Except.bind,
      Except.ok.injEq, Prod.mk.injEq] at hfault
    obtain ⟨-, rfl⟩ := hfault
    simp [hallows] at h

/-- **The parts of a block of the kernel** can all be written if the zeroing succeeds. -/
lemma parts_writable : ∀ {parts : List (ℕ × ℕ)} {m : Memory},
    (∀ i, (m.pte .kernel i).flags.present = true → (m.pte .kernel i).flags.lazyZero = false) →
    parts.foldlM (fun m r => zeroOutPart .kernel r.1 r.2 m) m = .ok m' →
      ∀ r ∈ parts, r.2 ≠ 0 → (m.pte .kernel (addrPage r.1)).flags.present = true →
        (m.pte .kernel (addrPage r.1)).flags.write = true
  | [], _, _, _, r, hr => by simp at hr
  | r :: parts, m, hlazy, h, r', hr' => by
      rw [List.foldlM_cons, bind_eq_ok] at h
      obtain ⟨m₁, h₁, h⟩ := h
      have hpage : addrPage r.1 < numFrames := by
        by_contra hout
        rw [zeroOutPart, if_pos (by simpa [ProcId.entries] using hout)] at h₁
        simp at h₁
      have hwrite : r.2 ≠ 0 → (m.pte .kernel (addrPage r.1)).flags.present = true →
          (m.pte .kernel (addrPage r.1)).flags.write = true := by
        intro hn hpresent
        rw [zeroOutPart, if_neg (by simpa [ProcId.entries] using hpage), if_pos hpresent, memset,
          if_neg hn] at h₁
        obtain ⟨m₂, haccess, -⟩ := bind_eq_ok.mp h₁
        exact kernelAccess_kernel hpage hpresent (hlazy _ hpresent) haccess
      obtain ⟨m₂, h₂, hz⟩ := @zeroOutPart_zeroed m .kernel r.1 r.2 hpage hwrite
      obtain rfl := Except.ok.inj (h₁.symm.trans h₂)
      rcases List.mem_cons.mp hr' with rfl | hr'
      · exact hwrite
      · have hrest := parts_writable (by rw [hz.pte]; exact hlazy) h r' hr'
        rwa [hz.pte] at hrest

end BrebOS.Memory

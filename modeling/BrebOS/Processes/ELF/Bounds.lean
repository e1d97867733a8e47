import BrebOS.Processes.ELFLoader.LoadELF
import BrebOS.Processes.ELF

/-!
# The overlap check

`ELF::is_valid` wants no read-only page to overlap with a write-allowed page.  It goes through the segments
once, and marks pages of read-only ones only, so a writable segment that comes before is not compared; and
it takes the number of pages of a segment from its size alone, so the last page of a segment that does not
begin at a page boundary may be missing.
-/

namespace BrebOS

namespace Elf32Phdr

/-- The pages that the check takes for those of a segment. -/
def Counted (h : Elf32Phdr) (page : ℕ) : Prop :=
  addrPage h.pVaddr ≤ page ∧ page < addrPage h.pVaddr + h.numPages

/-- The pages that have a byte of a segment. -/
def Touches (h : Elf32Phdr) (page : ℕ) : Prop :=
  ∃ addr, h.pVaddr ≤ addr ∧ addr < h.pVaddr + h.pMemsz ∧ addrPage addr = page

/-- A segment whose end has a page behind it. -/
def EndsInside (h : Elf32Phdr) : Prop := h.pVaddr + h.pMemsz ≤ 4294967296 - 4096

/-- A segment that is loaded, and whether it is written to. -/
def IsSegment (write : Bool) (h : Elf32Phdr) : Prop := h.isLoad ∧ h.write = write

variable {h : Elf32Phdr} {page : ℕ}

lemma Counted.touches (hc : h.Counted page) (hfits : h.EndsInside) : h.Touches page := by
  obtain ⟨hge, hlt⟩ := hc
  simp only [EndsInside] at hfits
  rw [numPages, u32_of_lt (by simp only [pageSize]; omega)] at hlt
  simp only [addrPage, pageSize] at hge hlt
  rcases Nat.lt_or_ge (page * 4096) h.pVaddr with hbefore | hbehind
  · exact ⟨h.pVaddr, le_rfl, by omega, by simp only [addrPage]; omega⟩
  · exact ⟨page * 4096, hbehind, by omega, by simp only [addrPage]; omega⟩

end Elf32Phdr

namespace ELF

/-- The overlap check of `ELF::is_valid` rejects the headers. -/
def rejects (phs : List Elf32Phdr) : Bool :=
  ((phs.filter Elf32Phdr.isLoad).foldlM checkPages fun _ => false).isNone

/-- Some page has bytes of a segment of each kind. -/
def SharesPage (phs : List Elf32Phdr) : Prop :=
  ∃ r ∈ phs, ∃ w ∈ phs, r.IsSegment false ∧ w.IsSegment true ∧ ∃ page, r.Touches page ∧ w.Touches page

/-- The outcome is the same for every order of the segments. -/
def OrderFree (phs : List Elf32Phdr) : Prop := ∀ phs', phs'.Perm phs → rejects phs' = rejects phs

/-- The check does what it should. -/
def CheckRight (phs : List Elf32Phdr) : Prop := (rejects phs ↔ SharesPage phs) ∧ OrderFree phs

/-- A segment that is read only comes before one that is written to, and has a page in common with it that
the check counts for both. -/
def FoundInOrder (phs : List Elf32Phdr) : Prop :=
  ∃ before w after, phs = before ++ w :: after ∧ w.IsSegment true ∧
    ∃ r ∈ before, r.IsSegment false ∧ ∃ page, r.Counted page ∧ w.Counted page

/-! ## What the check finds -/

variable {phs : List Elf32Phdr} {h : Elf32Phdr}

lemma checkPages_write (ro : ℕ → Bool) (hw : h.write = true) :
    (checkPages ro h = none ↔ ∃ page, h.Counted page ∧ ro page) ∧
      ((¬ ∃ page, h.Counted page ∧ ro page) → checkPages ro h = some ro) := by
  have hturn : ∀ js : List ℕ, js.foldlM (fun roPages j =>
      let pageId := addrPage h.pVaddr + j
      if h.write then if roPages pageId then none else some roPages
      else some (Function.update roPages pageId true)) ro =
        if ∃ j ∈ js, ro (addrPage h.pVaddr + j) then none else some ro := by
    intro js
    induction js with
    | nil => simp
    | cons j js ih =>
      rw [List.foldlM_cons]
      by_cases hj : ro (addrPage h.pVaddr + j)
      · simp [hw, hj]
      · simp only [hw, hj, if_true, Bool.false_eq_true, if_false, Option.bind_eq_bind, Option.bind_some]
        rw [hw] at ih
        simp only [if_true] at ih
        rw [ih]
        simp [hj]
  have hex : (∃ j ∈ List.range h.numPages, ro (addrPage h.pVaddr + j)) ↔
      ∃ page, h.Counted page ∧ ro page := by
    constructor
    · rintro ⟨j, hj, hro⟩
      exact ⟨_, ⟨Nat.le_add_right _ _, Nat.add_lt_add_left (List.mem_range.mp hj) _⟩, hro⟩
    · rintro ⟨page, ⟨hge, hlt⟩, hro⟩
      refine ⟨page - addrPage h.pVaddr, List.mem_range.mpr (by omega), ?_⟩
      rwa [Nat.add_sub_cancel' hge]
  rw [checkPages, hturn]
  simp only [← hex]
  constructor
  · split_ifs with hp
    · exact iff_of_true rfl hp
    · exact iff_of_false nofun hp
  · exact fun hp => if_neg hp

lemma checkPages_read (ro : ℕ → Bool) (hw : h.write = false) : ∃ ro', checkPages ro h = some ro' ∧
    ∀ page, ro' page ↔ ro page ∨ h.Counted page := by
  have hturn : ∀ (js : List ℕ) (ro : ℕ → Bool), ∃ ro', js.foldlM (fun roPages j =>
      let pageId := addrPage h.pVaddr + j
      if h.write then if roPages pageId then none else some roPages
      else some (Function.update roPages pageId true)) ro = some ro' ∧
        ∀ page, ro' page ↔ ro page ∨ ∃ j ∈ js, page = addrPage h.pVaddr + j := by
    intro js
    induction js with
    | nil => exact fun ro => ⟨ro, rfl, by simp⟩
    | cons j js ih =>
      intro ro
      obtain ⟨ro', hrun, hro'⟩ := ih (Function.update ro (addrPage h.pVaddr + j) true)
      refine ⟨ro', ?_, fun page => ?_⟩
      · rw [List.foldlM_cons]
        simpa [hw] using hrun
      · rw [hro', Function.update_apply]
        by_cases hpage : page = addrPage h.pVaddr + j
        · simp [hpage]
        · simp [hpage]
  obtain ⟨ro', hrun, hro'⟩ := hturn (List.range h.numPages) ro
  refine ⟨ro', hrun, fun page => (hro' page).trans (or_congr_right ?_)⟩
  constructor
  · rintro ⟨j, hj, rfl⟩
    exact ⟨Nat.le_add_right _ _, Nat.add_lt_add_left (List.mem_range.mp hj) _⟩
  · rintro ⟨hge, hlt⟩
    exact ⟨page - addrPage h.pVaddr, List.mem_range.mpr (by omega), (Nat.add_sub_cancel' hge).symm⟩

lemma exists_split_cons {P : List Elf32Phdr → Elf32Phdr → Prop} :
    (∃ before w after, h :: phs = before ++ w :: after ∧ P before w) ↔
      P [] h ∨ ∃ before w after, phs = before ++ w :: after ∧ P (h :: before) w := by
  constructor
  · rintro ⟨_ | ⟨h', before⟩, w, after, heq, hp⟩
    · obtain ⟨rfl, -⟩ := List.cons.inj heq
      exact Or.inl hp
    · obtain ⟨rfl, hrest⟩ := List.cons.inj heq
      exact Or.inr ⟨before, w, after, hrest, hp⟩
  · rintro (hp | ⟨before, w, after, rfl, hp⟩)
    · exact ⟨[], h, phs, rfl, hp⟩
    · exact ⟨h :: before, w, after, rfl, hp⟩

lemma foldlM_checkPages_eq_none : ∀ {phs : List Elf32Phdr} {ro : ℕ → Bool},
    (phs.filter Elf32Phdr.isLoad).foldlM checkPages ro = none ↔
      ∃ before w after, phs = before ++ w :: after ∧ w.IsSegment true ∧ ∃ page, w.Counted page ∧
        (ro page ∨ ∃ r ∈ before, r.IsSegment false ∧ r.Counted page) := by
  intro phs
  induction phs with
  | nil => simp
  | cons h phs ih =>
    intro ro
    rw [exists_split_cons]
    by_cases hload : h.isLoad
    · rw [List.filter_cons_of_pos hload, List.foldlM_cons]
      cases hw : h.write
      · obtain ⟨ro', hrun, hro'⟩ := checkPages_read ro hw
        have hread : h.IsSegment false := ⟨hload, hw⟩
        have hnot : ¬ h.IsSegment true := fun hseg => absurd (hw.symm.trans hseg.2) nofun
        rw [hrun]
        simp only [Option.bind_eq_bind, Option.bind_some, ih, hnot, false_and, false_or, hro',
          List.exists_mem_cons_iff, hread, true_and, or_assoc]
      · obtain ⟨hnone, hsome⟩ := checkPages_write ro hw
        have hwrite : h.IsSegment true := ⟨hload, hw⟩
        have hnot : ¬ h.IsSegment false := fun hseg => absurd (hw.symm.trans hseg.2) nofun
        by_cases hp : ∃ page, h.Counted page ∧ ro page
        · obtain ⟨page, hcount, hro⟩ := hp
          rw [hnone.mpr ⟨page, hcount, hro⟩]
          exact iff_of_true rfl (Or.inl ⟨hwrite, page, hcount, Or.inl hro⟩)
        · rw [hsome hp]
          have hfirst : ¬ (h.IsSegment true ∧ ∃ page, h.Counted page ∧
              (ro page ∨ ∃ r ∈ ([] : List Elf32Phdr), r.IsSegment false ∧ r.Counted page)) := by
            rintro ⟨-, page, hcount, hro | ⟨r, hr, -⟩⟩
            · exact hp ⟨page, hcount, hro⟩
            · cases hr
          simp only [Option.bind_eq_bind, Option.bind_some, ih, hfirst, false_or,
            List.exists_mem_cons_iff, hnot, false_and]
    · rw [List.filter_cons_of_neg hload, ih]
      have hnot : ∀ b, ¬ h.IsSegment b := fun b hseg => hload hseg.1
      simp [hnot]

lemma rejects_iff : rejects phs ↔ FoundInOrder phs := by
  rw [rejects, Option.isNone_iff_eq_none, foldlM_checkPages_eq_none]
  constructor
  · rintro ⟨before, w, after, rfl, hw, page, hcount, hro | ⟨r, hr, hread, hcount'⟩⟩
    · cases hro
    · exact ⟨before, w, after, rfl, hw, r, hr, hread, page, hcount', hcount⟩
  · rintro ⟨before, w, after, rfl, hw, r, hr, hread, page, hcount', hcount⟩
    exact ⟨before, w, after, rfl, hw, page, hcount, Or.inr ⟨r, hr, hread, hcount'⟩⟩

lemma FoundInOrder.sharesPage (h : FoundInOrder phs) (hfits : ∀ h ∈ phs, h.EndsInside) :
    SharesPage phs := by
  obtain ⟨before, w, after, rfl, hw, r, hr, hread, page, hcount', hcount⟩ := h
  have hr' : r ∈ before ++ w :: after := List.mem_append_left _ hr
  have hw' : w ∈ before ++ w :: after := List.mem_append_right _ List.mem_cons_self
  exact ⟨r, hr', w, hw', hread, hw, page, hcount'.touches (hfits r hr'), hcount.touches (hfits w hw')⟩

lemma not_rejects_writable_first : ∃ phs', phs'.Perm phs ∧ rejects phs' = false := by
  refine ⟨phs.filter Elf32Phdr.write ++ phs.filter fun h => !h.write, List.filter_append_perm _ _, ?_⟩
  rw [← Bool.not_eq_true, rejects_iff]
  rintro ⟨before, w, after, hsplit, hw, r, hr, hread, -⟩
  rcases List.append_eq_append_iff.mp hsplit with ⟨l, rfl, hrest⟩ | ⟨l, hfirst, -⟩
  · have hmem : w ∈ phs.filter fun h => !h.write := by
      rw [hrest]
      simp
    have hnot := (List.mem_filter.mp hmem).2
    rw [hw.2] at hnot
    cases hnot
  · have hmem : r ∈ phs.filter Elf32Phdr.write := by
      rw [hfirst]
      exact List.mem_append_left _ hr
    have hyes := (List.mem_filter.mp hmem).2
    rw [hread.2] at hyes
    cases hyes

/-- **The check does what it should exactly when there is nothing to reject.**  What it rejects, it does
rightly; it misses a shared page when it comes too early or is not counted. -/
theorem overlapCheck_right_iff (hfits : ∀ h ∈ phs, h.EndsInside) :
    (CheckRight phs ↔ ¬ SharesPage phs) ∧
      ((rejects phs ↔ SharesPage phs) ↔ (SharesPage phs → FoundInOrder phs)) := by
  have hsound : rejects phs → SharesPage phs := fun h => (rejects_iff.mp h).sharesPage hfits
  refine ⟨⟨?_, ?_⟩, ?_⟩
  · rintro ⟨hiff, hfree⟩ hshares
    obtain ⟨phs', hperm, hnot⟩ := @not_rejects_writable_first phs
    rw [hfree phs' hperm, hiff.mpr hshares] at hnot
    cases hnot
  · intro hnot
    refine ⟨⟨hsound, fun h => absurd h hnot⟩, fun phs' hperm => ?_⟩
    have hshares : ∀ phs' : List Elf32Phdr, phs'.Perm phs → rejects phs' = false := by
      intro phs' hperm
      rw [← Bool.not_eq_true, rejects_iff]
      intro hfound
      obtain ⟨r, hr, w, hw, hrest⟩ := hfound.sharesPage fun h hh => hfits h (hperm.mem_iff.mp hh)
      exact hnot ⟨r, hperm.mem_iff.mp hr, w, hperm.mem_iff.mp hw, hrest⟩
    rw [hshares phs' hperm, hshares phs (List.Perm.refl _)]
  · constructor
    · exact fun hiff hshares => rejects_iff.mp (hiff.mpr hshares)
    · exact fun hfound => ⟨hsound, fun hshares => rejects_iff.mpr (hfound hshares)⟩

/-- A page of code. -/
def codePage : Elf32Phdr := ⟨ptLoad, 0, 0x1000, 0x1000, 0x1000, 5⟩

/-- A page of data in the same place. -/
def dataPage : Elf32Phdr := ⟨ptLoad, 0, 0x1000, 0x1000, 0x1000, 6⟩

/-- Two bytes of code, at the end of a page and at the start of the next one. -/
def codeAcross : Elf32Phdr := ⟨ptLoad, 0, 0x1fff, 2, 2, 5⟩

/-- A page of data that begins there. -/
def dataBehind : Elf32Phdr := ⟨ptLoad, 0, 0x2000, 0x1000, 0x1000, 6⟩

/-- Data before code in the same page is accepted, and so is data in the second page of code that begins in
the middle of a page. -/
theorem overlapCheck_not_right : (∀ h ∈ [dataPage, codePage, codeAcross, dataBehind], h.EndsInside) ∧
    (SharesPage [dataPage, codePage] ∧ rejects [dataPage, codePage] = false ∧
      rejects [codePage, dataPage] = true) ∧
    SharesPage [codeAcross, dataBehind] ∧ rejects [codeAcross, dataBehind] = false := by
  refine ⟨by simp [Elf32Phdr.EndsInside, dataPage, codePage, codeAcross, dataBehind],
    ⟨?_, by decide, by decide⟩, ?_, by decide⟩
  · exact ⟨codePage, by simp, dataPage, by simp, ⟨rfl, rfl⟩, ⟨rfl, rfl⟩, 1, ⟨0x1000, by decide⟩,
      ⟨0x1000, by decide⟩⟩
  · exact ⟨codeAcross, by simp, dataBehind, by simp, ⟨rfl, rfl⟩, ⟨rfl, rfl⟩, 2, ⟨0x2000, by decide⟩,
      ⟨0x2000, by decide⟩⟩

/-- Code and data in pages of their own. -/
theorem overlapCheck_right_apart :
    (CheckRight [codePage, dataBehind] ↔ ¬ SharesPage [codePage, dataBehind]) ∧
      ((rejects [codePage, dataBehind] ↔ SharesPage [codePage, dataBehind]) ↔
        (SharesPage [codePage, dataBehind] → FoundInOrder [codePage, dataBehind])) :=
  overlapCheck_right_iff (by simp [Elf32Phdr.EndsInside, codePage, dataBehind])

end ELF

end BrebOS

/-!
## Indexes computed from a file

`ELF::is_valid` indexes `ro_pages`, which has `num_pages()` elements, and `ELFLoader::map_elf` the page
tables of the new process, which end at the kernel.  The size and the indexes come from sums of fields of the
program headers, which may have any value: a file is not rejected because a segment of it goes beyond the
end of the address space or into the kernel.
-/

namespace BrebOS

namespace ELF

/-- The indexes that the overlap check uses, if it does not reject the file before. -/
def roIndexes (e : ELF) : List ℕ :=
  e.loads.flatMap fun h => (List.range h.numPages).map fun j => addrPage h.pVaddr + j

/-- The sums that `num_pages` and the overlap check make. -/
def checkSums (e : ELF) : List ℕ :=
  (e.loads.flatMap fun h => [h.pVaddr + h.pMemsz, h.pMemsz + pageSize - 1]) ++
    [e.getHighestRuntimeAddr + pageSize - 1]

/-- The indexes that `map_elf` uses when the loader has got so many pages. -/
def mapIndexes (numPages : ℕ) (e : ELF) : List ℕ :=
  e.loads.flatMap fun h => (List.range h.numPages).map fun i =>
    addrPage (u32 (u32 (numPages * pageSize) + h.pVaddr)) + i

/-- The addresses that `load_elf` and `map_elf` compute. -/
def mapSums (numPages : ℕ) (e : ELF) : List ℕ :=
  numPages * pageSize :: e.loads.flatMap fun h =>
    [h.pMemsz + pageSize - 1, u32 (numPages * pageSize) + h.pVaddr,
      addrPage (u32 (u32 (numPages * pageSize) + h.pVaddr)) * pageSize + h.numPages * pageSize]

/-- No sum wraps, and each index is in the array it is used on. -/
structure IndexesRight (numPages : ℕ) (interpreterFound : Bool) (expectedType : ELFType) (e : ELF) :
    Prop where
  checkSums : ∀ x ∈ e.checkSums, x < 4294967296
  roIndexes : ∀ i ∈ e.roIndexes, i < e.numPages
  mapSums : e.isValid interpreterFound expectedType → ∀ x ∈ e.mapSums numPages, x < 4294967296
  mapIndexes : e.isValid interpreterFound expectedType →
    ∀ i ∈ e.mapIndexes numPages, i < userEntries

/-- The segments end where a page follows them; and if the file is accepted, those that have a size end
before the kernel begins, and the others begin in the address space. -/
def AddressesFit (numPages : ℕ) (interpreterFound : Bool) (expectedType : ELFType) (e : ELF) : Prop :=
  (∀ h ∈ e.loads, h.EndsInside) ∧
    (e.isValid interpreterFound expectedType → numPages * 4096 < 4294967296 ∧
      ∀ h ∈ e.loads,
        if h.pMemsz = 0 then numPages * 4096 + h.pVaddr < 4294967296
        else numPages + h.pVaddr / 4096 + (h.pMemsz + 4095) / 4096 ≤ 768 * 1024)

variable {e : ELF} {h : Elf32Phdr} {n : ℕ}

lemma le_getHighestRuntimeAddr (hh : h ∈ e.loads) (hlt : h.pVaddr + h.pMemsz < 4294967296) :
    h.pVaddr + h.pMemsz ≤ e.getHighestRuntimeAddr := by
  have hle := u32_le_getHighestRuntimeAddr hh
  rwa [u32_of_lt hlt] at hle

lemma numPages_of_lt (hlt : h.pMemsz + pageSize - 1 < 4294967296) :
    h.numPages = (h.pMemsz + 4095) / 4096 := by
  rw [Elf32Phdr.numPages, u32_of_lt hlt]
  rfl

lemma mem_checkSums {x : ℕ} : x ∈ e.checkSums ↔ (∃ h ∈ e.loads, x = h.pVaddr + h.pMemsz ∨
    x = h.pMemsz + pageSize - 1) ∨ x = e.getHighestRuntimeAddr + pageSize - 1 := by
  simp [checkSums]

lemma checkSums_iff : (∀ x ∈ e.checkSums, x < 4294967296) ↔ ∀ h ∈ e.loads, h.EndsInside := by
  simp only [mem_checkSums, pageSize, Elf32Phdr.EndsInside]
  constructor
  · intro hall h hh
    have hsum := hall _ (Or.inl ⟨h, hh, Or.inl rfl⟩)
    have htop := hall _ (Or.inr rfl)
    have hle := le_getHighestRuntimeAddr hh hsum
    omega
  · rintro hall x (⟨h, hh, rfl | rfl⟩ | rfl)
    · have := hall h hh
      omega
    · have := hall h hh
      omega
    · have hle : e.getHighestRuntimeAddr ≤ 4294967296 - 4096 :=
        getHighestRuntimeAddr_le fun h hh => (Nat.mod_le _ _).trans (hall h hh)
      omega

lemma roIndexes_lt (hends : ∀ h ∈ e.loads, h.EndsInside) : ∀ i ∈ e.roIndexes, i < e.numPages := by
  intro i hi
  obtain ⟨h, hh, hi⟩ := List.mem_flatMap.mp hi
  obtain ⟨j, hj, rfl⟩ := List.mem_map.mp hi
  have hend := hends h hh
  have hle : e.getHighestRuntimeAddr ≤ 4294967296 - 4096 :=
    getHighestRuntimeAddr_le fun h hh => (Nat.mod_le _ _).trans (hends h hh)
  simp only [Elf32Phdr.EndsInside] at hend
  have hge := le_getHighestRuntimeAddr hh (by omega)
  rw [List.mem_range, numPages_of_lt (by simp only [pageSize]; omega)] at hj
  rw [numPages, u32_of_lt (by simp only [pageSize]; omega)]
  simp only [addrPage, pageSize]
  omega

lemma mapHeader_iff (hend : h.EndsInside) (hn : n * pageSize < 4294967296) :
    ((∀ x ∈ [h.pMemsz + pageSize - 1, u32 (n * pageSize) + h.pVaddr,
        addrPage (u32 (u32 (n * pageSize) + h.pVaddr)) * pageSize + h.numPages * pageSize],
        x < 4294967296) ∧
      ∀ i < h.numPages, addrPage (u32 (u32 (n * pageSize) + h.pVaddr)) + i < userEntries) ↔
    if h.pMemsz = 0 then n * 4096 + h.pVaddr < 4294967296
    else n + h.pVaddr / 4096 + (h.pMemsz + 4095) / 4096 ≤ 768 * 1024 := by
  simp only [Elf32Phdr.EndsInside] at hend
  have hpages := numPages_of_lt (h := h) (by simp only [pageSize]; omega)
  rw [u32_of_lt hn, hpages]
  clear hpages
  simp only [pageSize] at hn ⊢
  simp only [List.mem_cons, List.not_mem_nil, or_false, forall_eq_or_imp, forall_eq, userEntries]
  constructor
  · rintro ⟨⟨-, hsum, -⟩, hindex⟩
    split_ifs with hzero
    · exact hsum
    · have hlast := hindex ((h.pMemsz + 4095) / 4096 - 1) (by omega)
      rw [u32_of_lt hsum] at hlast
      simp only [addrPage] at hlast
      omega
  · intro hfit
    have hsize : h.pMemsz + 4096 - 1 < 4294967296 := by omega
    -- the other bounds say nothing about the sum with the load address
    clear hend hn
    split_ifs at hfit with hzero
    · rw [u32_of_lt hfit, hzero]
      refine ⟨⟨by simp, hfit, ?_⟩, fun i hi => absurd hi (by simp)⟩
      simp only [addrPage, Nat.zero_add, Nat.reduceDiv, Nat.zero_mul, Nat.add_zero]
      exact (Nat.div_mul_le_self _ 4096).trans_lt hfit
    · have hsum : n * 4096 + h.pVaddr < 4294967296 := by omega
      have hpage : addrPage (n * 4096 + h.pVaddr) = n + h.pVaddr / 4096 := by
        simp only [addrPage]
        omega
      rw [u32_of_lt hsum, hpage]
      refine ⟨⟨hsize, hsum, ?_⟩, fun i hi => ?_⟩
      · clear hsize hsum
        generalize h.pVaddr / 4096 = page at hfit ⊢
        generalize (h.pMemsz + 4095) / 4096 = pages at hfit ⊢
        omega
      · omega

/-- **No computed address or index goes wrong exactly when each segment ends where it should.** -/
theorem indexes_right_iff (numPages : ℕ) (interpreterFound : Bool) (expectedType : ELFType) (e : ELF) :
    IndexesRight numPages interpreterFound expectedType e ↔
      AddressesFit numPages interpreterFound expectedType e := by
  have hmap : ∀ hn : numPages * pageSize < 4294967296, (∀ h ∈ e.loads, h.EndsInside) →
      (((∀ x ∈ e.mapSums numPages, x < 4294967296) ∧ ∀ i ∈ e.mapIndexes numPages, i < userEntries) ↔
        ∀ h ∈ e.loads, if h.pMemsz = 0 then numPages * 4096 + h.pVaddr < 4294967296
          else numPages + h.pVaddr / 4096 + (h.pMemsz + 4095) / 4096 ≤ 768 * 1024) := by
    intro hn hends
    have hsums : (∀ x ∈ e.mapSums numPages, x < 4294967296) ↔ ∀ h ∈ e.loads,
        ∀ x ∈ [h.pMemsz + pageSize - 1, u32 (numPages * pageSize) + h.pVaddr,
          addrPage (u32 (u32 (numPages * pageSize) + h.pVaddr)) * pageSize + h.numPages * pageSize],
          x < 4294967296 := by
      simp only [mapSums, List.forall_mem_cons, List.forall_mem_flatMap, hn, true_and]
    have hindexes : (∀ i ∈ e.mapIndexes numPages, i < userEntries) ↔ ∀ h ∈ e.loads,
        ∀ i < h.numPages, addrPage (u32 (u32 (numPages * pageSize) + h.pVaddr)) + i < userEntries := by
      simp only [mapIndexes, List.forall_mem_flatMap, List.forall_mem_map, List.mem_range]
    rw [hsums, hindexes, ← forall₂_and]
    exact forall₂_congr fun h hh => mapHeader_iff (hends h hh) hn
  constructor
  · intro hright
    have hends := checkSums_iff.mp hright.checkSums
    refine ⟨hends, fun hvalid => ?_⟩
    have hn : numPages * pageSize < 4294967296 := hright.mapSums hvalid _ List.mem_cons_self
    exact ⟨hn, (hmap hn hends).mp ⟨hright.mapSums hvalid, hright.mapIndexes hvalid⟩⟩
  · rintro ⟨hends, hfit⟩
    exact {
      checkSums := checkSums_iff.mpr hends
      roIndexes := roIndexes_lt hends
      mapSums := fun hvalid => ((hmap (hfit hvalid).1 hends).mpr (hfit hvalid).2).1
      mapIndexes := fun hvalid => ((hmap (hfit hvalid).1 hends).mpr (hfit hvalid).2).2 }

/-- A file with one segment of data. -/
def dataFile (vaddr memsz : ℕ) : ELF where
  eIdent := [0x7F, 0x45, 0x4C, 0x46, 1]
  eType := 2
  firstSection := 0
  sections := [0]
  progHdrs := [⟨ptLoad, 0, vaddr, 0, memsz, 6⟩]
  dynTable := false
  runtimeGotAddr := false
  bytes := []

/-- A segment at the end of the address space makes the check read behind `ro_pages`, and one in the kernel
is accepted and mapped. -/
theorem indexes_not_right : ¬ IndexesRight 0 false .executable (dataFile 0xfffff000 0x1000) ∧
    0xfffff ∈ (dataFile 0xfffff000 0x1000).roIndexes ∧ (dataFile 0xfffff000 0x1000).numPages = 0 ∧
    ¬ IndexesRight 0 false .executable (dataFile 0xc0000000 0x1000) ∧
    (dataFile 0xc0000000 0x1000).isValid false .executable ∧
    768 * 1024 ∈ (dataFile 0xc0000000 0x1000).mapIndexes 0 := by
  have hro : 0xfffff ∈ (dataFile 0xfffff000 0x1000).roIndexes := by decide
  have hzero : (dataFile 0xfffff000 0x1000).numPages = 0 := by decide
  have hvalid : (dataFile 0xc0000000 0x1000).isValid false .executable := by decide
  have hindex : 768 * 1024 ∈ (dataFile 0xc0000000 0x1000).mapIndexes 0 := by decide
  refine ⟨fun hright => ?_, hro, hzero, fun hright => ?_, hvalid, hindex⟩
  · have := hright.roIndexes _ hro
    rw [hzero] at this
    exact Nat.not_lt_zero _ this
  · exact absurd (hright.mapIndexes hvalid _ hindex) (lt_irrefl _)

end ELF

end BrebOS

import BrebOS.Processes.ELFLoader.Segments

/-!
# What a loaded file looks like

A segment of a file is mapped from the page its address lies in, over as many pages as its **size** fills.
If the address is not the beginning of that page, the end of the segment may lie behind these pages; and the
translation refuses even a range that ends where they do.  So a file is loaded, and then as it should be,
exactly when each of its segments leaves at least a byte of these pages free.
-/

namespace BrebOS

open Memory

/-! ## Files -/

/-- A byte of the segment is on this page, if the file is loaded at 0. -/
def Elf32Phdr.Occupies (h : Elf32Phdr) (page : ℕ) : Prop := ∃ i < h.pMemsz, addrPage (h.pVaddr + i) = page

/-- The segments of a file that is loaded at `base` have pages of their own below the stacks, and their bytes
are in the file. -/
structure ELF.Loadable (base : ℕ) (e : ELF) : Prop where
  disjoint : e.loads.Pairwise fun h h' => ∀ page, h.Occupies page → ¬ h'.Occupies page
  below : ∀ h ∈ e.loads, base + h.pVaddr + h.pMemsz ≤ kstackStartPageId * pageSize
  filesz : ∀ h ∈ e.loads, h.pFilesz ≤ h.pMemsz
  inside : ∀ h ∈ e.loads, h.pOffset + h.pFilesz ≤ e.bytes.length

/-- Each segment ends before the last of the pages that its size fills, counted from the page where it
begins; an empty one begins in the pages of another. -/
def ELF.Fits (e : ELF) : Prop :=
  ∀ h ∈ e.loads,
    (h.pMemsz ≠ 0 → h.pVaddr % pageSize + h.pMemsz < h.numPages * pageSize) ∧
    (h.pMemsz = 0 → ∃ h' ∈ e.loads, addrPage h'.pVaddr * pageSize ≤ h.pVaddr ∧
      h.pVaddr < (addrPage h'.pVaddr + h'.numPages) * pageSize)

/-- The files that are loaded, each where it is loaded. -/
def ELFFile.loaded : ELFFile → ELFType → ℕ → List (ℕ × ELF)
  | .alone elf, expectedType, numPages =>
      if (ELFFile.alone elf).isValid expectedType then [(numPages * pageSize, elf)] else []
  | .withInterpreter elf interpreter, expectedType, numPages =>
      if (ELFFile.withInterpreter elf interpreter).isValid expectedType then
        (numPages * pageSize, elf) ::
          if elf.hasInterpreter then interpreter.loaded .sharedObject (numPages + elf.numPages) else []
      else []

/-- What the process reads at an address, and whether it can write there. -/
structure Shows (l : ELFLoader) (addr : ℕ) (b : UInt8) (write : Bool) : Prop where
  mapped : (l.pageTables (addrPage addr)).mapped = true
  user : (l.pageTables (addrPage addr)).flags.user = true
  byte : l.frames (l.pageTables (addrPage addr)).frame (addr % pageSize) = b
  write : (l.pageTables (addrPage addr)).flags.write = write

/-- A file is loaded without an error, and the process has its segments, and those of the interpreters. -/
def LoadedRight (kernel : ℕ → Entry) (mmap : ℕ → ℕ) (frames : ℕ → PageData) (f : ELFFile)
    (expectedType : ELFType) : Prop :=
  ∃ done l, ELFLoader.loadElf kernel mmap f expectedType { frames := frames } = .ok (done, l) ∧
    ∀ x ∈ f.loaded expectedType 0, ∀ h ∈ x.2.loads, ∀ i < h.pMemsz,
      Shows l (x.1 + h.pVaddr + i) (h.byte x.2.bytes i) h.write

namespace ELF

variable {e : ELF} {base : ℕ}

lemma Loadable.numPages (hl : e.Loadable base) (hbase : base % pageSize = 0)
    (hlimit : base ≤ kstackStartPageId * pageSize) :
    (∀ h ∈ e.loads, h.pVaddr + h.pMemsz ≤ e.numPages * 4096) ∧ base / 4096 + e.numPages ≤ 786302 := by
  have hbelow := hl.below
  rw [Placed.kstack_eq] at hbelow hlimit
  simp only [pageSize] at hbase hbelow hlimit
  have hsmall : ∀ h ∈ e.loads, u32 (h.pVaddr + h.pMemsz) = h.pVaddr + h.pMemsz := by
    intro h hh
    have := hbelow h hh
    exact u32_of_lt (by omega)
  have hhighest : e.getHighestRuntimeAddr ≤ 786302 * 4096 - base := by
    refine getHighestRuntimeAddr_le fun h hh => ?_
    have := hbelow h hh
    rw [hsmall h hh]
    omega
  have hpages : e.numPages = (e.getHighestRuntimeAddr + 4095) / 4096 := by
    rw [ELF.numPages, addrPage, pageSize, u32_of_lt (by omega)]
    rfl
  refine ⟨fun h hh => ?_, by omega⟩
  have hle := u32_le_getHighestRuntimeAddr hh
  rw [hsmall h hh] at hle
  omega

end ELF

namespace ELFLoader

open Placed

variable {kernel : ℕ → Entry} {mmap : ℕ → ℕ} {l : ELFLoader} {P : List Placed} {p q : Placed} {e : ELF}
  {base k : ℕ} {bytes : List UInt8}

/-! ## The segments of a file -/

lemma map_hdr_placeAll : ∀ {hs : List Elf32Phdr} {k : ℕ}, (placeAll mmap base bytes k hs).map hdr = hs := by
  intro hs
  induction hs with
  | nil => intro k; rfl
  | cons h hs ih => intro k; exact congrArg (h :: ·) ih

lemma base_of_mem_placeAll : ∀ {hs : List Elf32Phdr} {k : ℕ},
    ∀ q ∈ placeAll mmap base bytes k hs, q.base = base ∧ q.bytes = bytes := by
  intro hs
  induction hs with
  | nil => simp [placeAll]
  | cons h hs ih =>
      intro k q hq
      rcases List.mem_cons.mp hq with rfl | hq
      · exact ⟨rfl, rfl⟩
      · exact ih q hq

lemma hdr_mem_of_placeAll {hs : List Elf32Phdr} (hq : q ∈ placeAll mmap base bytes k hs) : q.hdr ∈ hs := by
  rw [← @map_hdr_placeAll mmap base bytes hs k]
  exact List.mem_map_of_mem hq

lemma exists_placeAll {hs : List Elf32Phdr} (k : ℕ) {h : Elf32Phdr} (hh : h ∈ hs) :
    ∃ q ∈ placeAll mmap base bytes k hs, q.hdr = h := by
  rw [← @map_hdr_placeAll mmap base bytes hs k] at hh
  exact List.mem_map.mp hh

lemma fine_of_loadable (hl : e.Loadable base) (hbase : base % pageSize = 0) :
    ∀ q ∈ placeAll mmap base e.bytes k e.loads, q.Fine := by
  intro q hq
  obtain ⟨hb, hbytes⟩ := base_of_mem_placeAll q hq
  have hh := hdr_mem_of_placeAll hq
  exact ⟨hb ▸ hbase, hb ▸ hl.below _ hh, hl.filesz _ hh, hbytes ▸ hl.inside _ hh⟩

lemma occupies_of_lt (hf : p.Fine) {i : ℕ} (hi : i < p.hdr.numPages) :
    p.hdr.Occupies (addrPage p.hdr.pVaddr + i) := by
  have hnumbers := hf.numbers
  refine ⟨i * 4096 - p.hdr.pVaddr % 4096, by omega, ?_⟩
  simp only [addrPage]
  omega

lemma pagesApart_of_loadable (hl : e.Loadable base) (hbase : base % pageSize = 0) :
    (placeAll mmap base e.bytes k e.loads).Pairwise PagesApart := by
  have hpairs := hl.disjoint
  rw [← @map_hdr_placeAll mmap base e.bytes e.loads k, List.pairwise_map] at hpairs
  refine hpairs.imp_of_mem fun {p q} hp hq hdisjoint i hi j hj heq => ?_
  have hfp := fine_of_loadable hl hbase p hp
  have hfq := fine_of_loadable hl hbase q hq
  have hp' := hfp.numbers
  have hq' := hfq.numbers
  have hbase' := (base_of_mem_placeAll p hp).1.trans (base_of_mem_placeAll q hq).1.symm
  have hmod := hfp.base
  simp only [pageSize] at hmod
  refine hdisjoint _ (occupies_of_lt hfp hi) ?_
  have hpage : addrPage p.hdr.pVaddr + i = addrPage q.hdr.pVaddr + j := by
    simp only [addrPage]
    omega
  exact hpage ▸ occupies_of_lt hfq hj

lemma fits_iff (hl : e.Loadable base) (hbase : base % pageSize = 0)
    (hbefore : ∀ p ∈ P, (p.page + p.hdr.numPages) * pageSize ≤ base) :
    (∀ q ∈ placeAll mmap base e.bytes k e.loads, Fits (P ++ placeAll mmap base e.bytes k e.loads) q) ↔
      e.Fits := by
  have hcovers : ∀ q ∈ placeAll mmap base e.bytes k e.loads, ∀ addr,
      q.Covers (base + addr) ↔ addrPage q.hdr.pVaddr * pageSize ≤ addr ∧
        addr < (addrPage q.hdr.pVaddr + q.hdr.numPages) * pageSize := by
    intro q hq addr
    have hnumbers := (fine_of_loadable hl hbase q hq).numbers
    have hb := (base_of_mem_placeAll q hq).1
    simp only [Covers, addrPage, pageSize] at hbase ⊢
    omega
  constructor
  · intro hfits h hh
    obtain ⟨q, hq, rfl⟩ := @exists_placeAll mmap base e.bytes e.loads k _ hh
    refine ⟨(hfits q hq).1, fun hzero => ?_⟩
    obtain ⟨r, hr, hc⟩ := (hfits q hq).2 hzero
    rw [(base_of_mem_placeAll q hq).1] at hc
    rcases List.mem_append.mp hr with hr | hr
    · have hend := hbefore r hr
      have hlt := hc.2
      omega
    · exact ⟨r.hdr, hdr_mem_of_placeAll hr, (hcovers r hr _).mp hc⟩
  · intro hfits q hq
    obtain ⟨hne, hempty⟩ := hfits q.hdr (hdr_mem_of_placeAll hq)
    refine ⟨hne, fun hzero => ?_⟩
    obtain ⟨h', hh', hin⟩ := hempty hzero
    obtain ⟨r, hr, rfl⟩ := @exists_placeAll mmap base e.bytes e.loads k _ hh'
    rw [(base_of_mem_placeAll q hq).1]
    exact ⟨r, List.mem_append_right _ hr, (hcovers r hr _).mpr hin⟩

/-! ## Loading a file -/

/-- Some segments are loaded. -/
structure Loaded (kernel : ℕ → Entry) (P : List Placed) (l : ELFLoader) : Prop where
  separate : Separate kernel P
  mapped : Mapped kernel P l
  below : ∀ p ∈ P, p.page + p.hdr.numPages ≤ l.numPages
  limit : l.numPages ≤ kstackStartPageId
  fits : ∀ p ∈ P, Fits P p
  holds : ∀ p ∈ P, Holds kernel l p

/-- The blocks that a file gets are those of `mmap`'s next calls. -/
def place (mmap : ℕ → ℕ) (l : ELFLoader) (e : ELF) : List Placed :=
  placeAll mmap (l.numPages * pageSize) e.bytes l.allocations.length e.loads

lemma Loaded.loadSegments (hl : Loaded kernel P l) (he : e.Loadable (l.numPages * pageSize))
    (hhanded : ∀ q ∈ place mmap l e, q.Handed kernel)
    (hapart : (P ++ place mmap l e).Pairwise (Apart kernel)) :
    (e.Fits → ∃ l', loadSegments kernel mmap e l = .ok l' ∧ Loaded kernel (P ++ place mmap l e) l' ∧
      l'.numPages = l.numPages + e.numPages) ∧
    ∀ l', loadSegments kernel mmap e l = .ok l' → e.Fits := by
  have hlimit := hl.limit
  have hbase : l.numPages * pageSize % pageSize = 0 := Nat.mul_mod_left _ _
  obtain ⟨hends, hpages⟩ := he.numPages hbase (Nat.mul_le_mul_right _ hlimit)
  simp only [kstack_eq] at hlimit
  have hu32 : u32 (l.numPages * pageSize) = l.numPages * pageSize :=
    u32_of_lt (by simp only [pageSize]; omega)
  have hfine : ∀ q ∈ place mmap l e, q.Fine := fine_of_loadable he hbase
  have hbefore : ∀ p ∈ P, ∀ q ∈ place mmap l e, PagesApart p q := by
    intro p hp q hq i hi j hj heq
    have hbelow := hl.below p hp
    have hnumbers := (hfine q hq).numbers
    have hb := (base_of_mem_placeAll q hq).1
    simp only [pageSize] at hb
    omega
  have hpairs : (place mmap l e).Pairwise PagesApart := pagesApart_of_loadable he hbase
  have hs : Separate kernel (P ++ place mmap l e) := by
    refine ⟨fun p hp => ?_, fun p hp => ?_,
      List.pairwise_append.mpr ⟨hl.separate.pages, hpairs, hbefore⟩, hapart⟩
    · exact (List.mem_append.mp hp).elim (hl.separate.fine p) (hfine p)
    · exact (List.mem_append.mp hp).elim (hl.separate.handed p) (hhanded p)
  obtain ⟨l₁, hmap, hm₁, hframes₁, hnum₁⟩ :=
    hl.mapped.mapHeaders (fun q hq => ⟨hfine q hq, hhanded q hq⟩) hbefore hpairs
  have hm₂ : Mapped kernel (P ++ place mmap l e) { l₁ with numPages := l.numPages + e.numPages } :=
    ⟨hm₁.allocations, hm₁.entries, hm₁.free⟩
  have hrun : ELFLoader.loadSegments kernel mmap e l = loadElfCode kernel (l.numPages * pageSize) e
      { l₁ with numPages := l.numPages + e.numPages } := by
    simp only [ELFLoader.loadSegments, mapElf, hu32, hmap, bind, Except.bind, pure, Except.pure, hnum₁]
    rw [u32_of_lt (by simp only [pageSize] at hpages; omega)]
  have hfits := @fits_iff mmap P e _ l.allocations.length he hbase fun p hp =>
    Nat.mul_le_mul_right _ (hl.below p hp)
  obtain ⟨hcopy, hfit⟩ := hs.loadHeaders (Q := place mmap l e) hm₂ fun q hq =>
    ⟨List.mem_append_right _ hq, base_of_mem_placeAll q hq⟩
  rw [show (place mmap l e).map hdr = e.loads from map_hdr_placeAll] at hcopy hfit
  rw [hrun]
  refine ⟨fun he' => ?_, fun l' hl' => hfits.mp (hfit l' hl')⟩
  obtain ⟨l', hl', hsame, hnew, hold⟩ := hcopy (hfits.mpr he')
  have hnum' : l'.numPages = l.numPages + e.numPages := by rw [hsame]
  refine ⟨l', hl', ⟨hs, hsame ▸ hm₂.with_frames l'.frames, fun p hp => ?_, ?_, fun p hp => ?_,
    fun p hp => ?_⟩,
    hnum'⟩
  · rw [hnum']
    rcases List.mem_append.mp hp with hp | hp
    · exact Nat.le_add_right_of_le (hl.below p hp)
    · have hend := hends p.hdr (hdr_mem_of_placeAll hp)
      have hnumbers := (hfine p hp).numbers
      have hb := (base_of_mem_placeAll p hp).1
      simp only [pageSize] at hb
      omega
  · rw [hnum', kstack_eq]
    simp only [pageSize] at hpages
    omega
  · rcases List.mem_append.mp hp with hp | hp
    · obtain ⟨hne, hempty⟩ := hl.fits p hp
      refine ⟨hne, fun hzero => ?_⟩
      obtain ⟨q, hq, hc⟩ := hempty hzero
      exact ⟨q, List.mem_append_left _ hq, hc⟩
    · exact hfits.mpr he' p hp
  · rcases List.mem_append.mp hp with hp | hp
    · refine hold p (List.mem_append_left _ hp) fun i hi hin => ?_
      have hheld := hl.holds p hp i hi hin
      rw [← hframes₁] at hheld
      exact hheld
    · exact hnew p hp

/-! ## Loading a file and its interpreters -/

/-- The blocks of some files, from call number `k` on. -/
def placeFiles (mmap : ℕ → ℕ) : ℕ → List (ℕ × ELF) → List Placed
  | _, [] => []
  | k, x :: xs => placeAll mmap x.1 x.2.bytes k x.2.loads ++ placeFiles mmap (k + x.2.loads.length) xs

lemma mem_placeFiles : ∀ {xs : List (ℕ × ELF)} {k : ℕ} {x : ℕ × ELF}, x ∈ xs → ∀ h ∈ x.2.loads,
    ∃ q ∈ placeFiles mmap k xs, q.base = x.1 ∧ q.hdr = h ∧ q.bytes = x.2.bytes := by
  intro xs
  induction xs with
  | nil => intro _ _ hx; cases hx
  | cons y xs ih =>
      intro k x hx h hh
      rcases List.mem_cons.mp hx with rfl | hx
      · obtain ⟨q, hq, hhdr⟩ := @exists_placeAll mmap x.1 x.2.bytes x.2.loads k h hh
        obtain ⟨hb, hbytes⟩ := base_of_mem_placeAll q hq
        exact ⟨q, List.mem_append_left _ hq, hb, hhdr, hbytes⟩
      · obtain ⟨q, hq, hrest⟩ := @ih (k + y.2.loads.length) x hx h hh
        exact ⟨q, List.mem_append_right _ hq, hrest⟩

lemma Loaded.allocations_length {l' : ELFLoader} (hl : Loaded kernel P l)
    (hl' : Loaded kernel (P ++ place mmap l e) l') :
    l'.allocations.length = l.allocations.length + e.loads.length := by
  have hlen : (place mmap l e).length = e.loads.length := by
    rw [← @map_hdr_placeAll mmap (l.numPages * pageSize) e.bytes e.loads l.allocations.length,
      List.length_map]
    rfl
  rw [hl'.mapped.allocations, hl.mapped.allocations, List.length_map, List.length_append, hlen,
    List.length_map]

lemma Loaded.loadElf : ∀ {f : ELFFile} {t : ELFType} {P : List Placed} {l : ELFLoader}, Loaded kernel P l →
    (∀ x ∈ f.loaded t l.numPages, x.2.Loadable x.1) →
    (∀ q ∈ placeFiles mmap l.allocations.length (f.loaded t l.numPages), q.Handed kernel) →
    (P ++ placeFiles mmap l.allocations.length (f.loaded t l.numPages)).Pairwise (Apart kernel) →
    ((∀ x ∈ f.loaded t l.numPages, x.2.Fits) → ∃ done l',
      ELFLoader.loadElf kernel mmap f t l = .ok (done, l') ∧
      Loaded kernel (P ++ placeFiles mmap l.allocations.length (f.loaded t l.numPages)) l') ∧
    ∀ r, ELFLoader.loadElf kernel mmap f t l = .ok r → ∀ x ∈ f.loaded t l.numPages, x.2.Fits := by
  intro f
  induction f with
  | alone e =>
      intro t P l hl hloadable hhanded hapart
      by_cases hvalid : (ELFFile.alone e).isValid t = true
      · have hfiles : (ELFFile.alone e).loaded t l.numPages = [(l.numPages * pageSize, e)] := if_pos hvalid
        rw [hfiles] at hloadable hhanded hapart ⊢
        simp only [placeFiles, List.append_nil, List.mem_singleton, forall_eq] at hloadable hhanded hapart ⊢
        obtain ⟨hload, hfit⟩ := hl.loadSegments hloadable hhanded hapart
        rw [ELFLoader.loadElf, hvalid]
        refine ⟨fun he => ?_, fun r hr => ?_⟩
        · obtain ⟨l', hrun, hl', -⟩ := hload he
          exact ⟨true, l', bind_eq_ok.mpr ⟨l', hrun, rfl⟩, hl'⟩
        · obtain ⟨l', hrun, -⟩ := bind_eq_ok.mp hr
          exact hfit l' hrun
      · have hfiles : (ELFFile.alone e).loaded t l.numPages = [] := if_neg hvalid
        rw [hfiles, ELFLoader.loadElf, Bool.eq_false_iff.mpr hvalid]
        refine ⟨fun _ => ⟨false, l, rfl, ?_⟩, by simp⟩
        rw [placeFiles, List.append_nil]
        exact hl
  | withInterpreter e f ih =>
      intro t P l hl hloadable hhanded hapart
      by_cases hvalid : (ELFFile.withInterpreter e f).isValid t = true
      · obtain ⟨rest, hrest⟩ : ∃ rest, rest = if e.hasInterpreter then
            f.loaded .sharedObject (l.numPages + e.numPages) else [] := ⟨_, rfl⟩
        have hfiles : (ELFFile.withInterpreter e f).loaded t l.numPages =
            (l.numPages * pageSize, e) :: rest := by
          rw [hrest]
          exact if_pos hvalid
        rw [hfiles] at hloadable hhanded hapart ⊢
        rw [placeFiles, ← List.append_assoc] at hapart
        rw [placeFiles] at hhanded
        obtain ⟨hload, hfit⟩ := hl.loadSegments (hloadable _ List.mem_cons_self)
          (fun q hq => hhanded q (List.mem_append_left _ hq)) (List.pairwise_append.mp hapart).1
        rw [ELFLoader.loadElf, hvalid]
        by_cases hinterp : e.hasInterpreter = true
        · rw [if_pos hinterp] at hrest
          -- What is asked of the interpreter, after the file itself is loaded.
          have hnext : ∀ {l'}, Loaded kernel (P ++ place mmap l e) l' → l'.numPages =
            l.numPages + e.numPages →
              ((∀ x ∈ rest, x.2.Fits) → ∃ done l'', ELFLoader.loadElf kernel mmap f .sharedObject l' =
                  .ok (done, l'') ∧ Loaded kernel (P ++ placeFiles mmap l.allocations.length
                    ((l.numPages * pageSize, e) :: rest)) l'') ∧
              ∀ r, ELFLoader.loadElf kernel mmap f .sharedObject l' = .ok r → ∀ x ∈ rest, x.2.Fits := by
            intro l' hl' hnum
            have hlen := hl.allocations_length hl'
            rw [placeFiles, ← List.append_assoc]
            have hstep := @ih .sharedObject _ l' hl'
            rw [hnum, ← hrest, hlen] at hstep
            exact hstep (fun x hx => hloadable x (List.mem_cons_of_mem _ hx))
              (fun q hq => hhanded q (List.mem_append_right _ hq)) hapart
          refine ⟨fun he => ?_, fun r hr x hx => ?_⟩
          · obtain ⟨l', hrun, hl', hnum⟩ := hload (he _ List.mem_cons_self)
            obtain ⟨done, l'', hrun', hl''⟩ :=
              (hnext hl' hnum).1 fun x hx => he x (List.mem_cons_of_mem _ hx)
            exact ⟨done, l'', bind_eq_ok.mpr ⟨l', hrun, (if_pos hinterp).trans hrun'⟩, hl''⟩
          · obtain ⟨l₁, hrun, hr⟩ := bind_eq_ok.mp hr
            replace hr := (if_pos hinterp).symm.trans hr
            obtain ⟨l', hrun', hl', hnum⟩ := hload (hfit l₁ hrun)
            obtain rfl : l' = l₁ := Except.ok.inj (hrun'.symm.trans hrun)
            rcases List.mem_cons.mp hx with rfl | hx
            · exact hfit l' hrun
            · exact (hnext hl' hnum).2 r hr x hx
        · rw [if_neg hinterp] at hrest
          subst hrest
          simp only [placeFiles, List.append_nil, List.mem_singleton, forall_eq]
          refine ⟨fun he => ?_, fun r hr => ?_⟩
          · obtain ⟨l', hrun, hl', -⟩ := hload he
            exact ⟨true, l', bind_eq_ok.mpr ⟨l', hrun, if_neg hinterp⟩, hl'⟩
          · obtain ⟨l', hrun, -⟩ := bind_eq_ok.mp hr
            exact hfit l' hrun
      · have hfiles : (ELFFile.withInterpreter e f).loaded t l.numPages = [] := if_neg hvalid
        rw [hfiles, ELFLoader.loadElf, Bool.eq_false_iff.mpr hvalid]
        refine ⟨fun _ => ⟨false, l, rfl, ?_⟩, by simp⟩
        rw [placeFiles, List.append_nil]
        exact hl

lemma Loaded.shows (hl : Loaded kernel P l) (hq : q ∈ P) {i : ℕ} (hi : i < q.hdr.pMemsz) :
    Shows l (q.base + q.hdr.pVaddr + i) (q.hdr.byte q.bytes i) q.hdr.write := by
  have hnumbers := (hl.separate.fine q hq).numbers
  have hhanded := hl.separate.handed q hq
  have hfit := (hl.fits q hq).1 (by omega)
  have hheld := hl.holds q hq i hi (by omega)
  simp only [pageSize] at hfit hheld
  have hj : (q.hdr.pVaddr % 4096 + i) / 4096 < q.hdr.numPages := by omega
  have hpage : addrPage (q.base + q.hdr.pVaddr + i) = q.page + (q.hdr.pVaddr % 4096 + i) / 4096 := by
    simp only [addrPage]
    omega
  have hoff : (q.base + q.hdr.pVaddr + i) % pageSize = (q.hdr.pVaddr % 4096 + i) % 4096 := by
    simp only [pageSize]
    omega
  have hentry := hl.mapped.entries q hq _ hj
  refine ⟨?_, ?_, ?_, ?_⟩ <;> rw [hpage, hentry]
  · exact hhanded.mapped _ hj
  · rfl
  · rw [hoff]
    exact hheld
  · show (_ && _) = _
    rw [hhanded.write _ hj, Bool.true_and]

lemma loaded_nil (frames : ℕ → PageData) : Loaded kernel [] { frames := frames } where
  separate := ⟨by simp, by simp, List.Pairwise.nil, List.Pairwise.nil⟩
  mapped := ⟨rfl, by simp, fun _ _ => rfl⟩
  below := by simp
  limit := Nat.zero_le _
  fits := by simp
  holds := by simp

end ELFLoader

open ELFLoader Placed

/-- `mmap` keeps its promise for the blocks that are needed: they are of whole pages, which can be written
to, and no two have a frame in common. -/
structure Blocks (kernel : ℕ → Entry) (mmap : ℕ → ℕ) (files : List (ℕ × ELF)) : Prop where
  handed : ∀ p ∈ placeFiles mmap 0 files, p.Handed kernel
  apart : (placeFiles mmap 0 files).Pairwise (Apart kernel)

/-- A file is loaded as it should be exactly when its segments, and those of its interpreters, fit. -/
theorem elf_loaded (kernel : ℕ → Entry) (mmap : ℕ → ℕ) (frames : ℕ → PageData) (f : ELFFile) (t : ELFType)
    (hfiles : ∀ x ∈ f.loaded t 0, x.2.Loadable x.1) (hblocks : Blocks kernel mmap (f.loaded t 0)) :
    LoadedRight kernel mmap frames f t ↔ ∀ x ∈ f.loaded t 0, x.2.Fits := by
  obtain ⟨hload, hfit⟩ := (loaded_nil frames).loadElf hfiles hblocks.handed hblocks.apart
  constructor
  · rintro ⟨done, l, hrun, -⟩
    exact hfit _ hrun
  · intro hfits
    obtain ⟨done, l, hrun, hl⟩ := hload hfits
    refine ⟨done, l, hrun, fun x hx h hh i hi => ?_⟩
    obtain ⟨q, hq, hbase, rfl, hbytes⟩ := @mem_placeFiles mmap _ 0 x hx h hh
    rw [← hbase, ← hbytes]
    exact hl.shows hq hi

/-- An executable with one segment that can be written to. -/
def oneSegment (vaddr memsz : ℕ) (bytes : List UInt8) : ELF where
  eIdent := [0x7F, 0x45, 0x4C, 0x46, 1]
  eType := 2
  firstSection := 0
  sections := []
  progHdrs := [⟨ptLoad, 0, vaddr, bytes.length, memsz, 2⟩]
  dynTable := false
  runtimeGotAddr := false
  bytes := bytes

/-- Every page of the kernel is mapped to the frame with its number. -/
def identityTables (page : ℕ) : Entry := ⟨page, { present := true, write := true }⟩

lemma oneSegment_loadable {vaddr memsz : ℕ} {bytes : List UInt8} (hlen : bytes.length ≤ memsz)
    (hbelow : vaddr + memsz ≤ kstackStartPageId * pageSize) :
      (oneSegment vaddr memsz bytes).Loadable 0 := by
  have hloads : (oneSegment vaddr memsz bytes).loads = [⟨ptLoad, 0, vaddr, bytes.length, memsz, 2⟩] := rfl
  refine ⟨?_, ?_, ?_, ?_⟩ <;> rw [hloads]
  · exact List.pairwise_singleton ..
  · simpa using hbelow
  · simpa using hlen
  · simp [oneSegment]

/-- A byte, and zeros up to the last but one of its page. -/
theorem elf_loaded_below_a_page :
    LoadedRight identityTables (fun _ => 4096) (fun _ _ => 1) (.alone (oneSegment 4096 4095 [7]))
      .executable := by
  have hfiles : (ELFFile.alone (oneSegment 4096 4095 [7])).loaded .executable 0 =
      [(0, oneSegment 4096 4095 [7])] := if_pos (by decide)
  have hblocks : Blocks identityTables (fun _ => 4096) [(0, oneSegment 4096 4095 [7])] := by
    refine ⟨fun p hp => ?_, List.pairwise_singleton ..⟩
    obtain rfl := List.mem_singleton.mp hp
    refine ⟨by decide, by decide, by decide, fun _ _ => rfl, fun _ _ => rfl, fun i _ j _ heq => ?_⟩
    simpa [frame, identityTables] using heq
  refine (elf_loaded identityTables (fun _ => 4096)
    (fun _ _ => 1) _ .executable ?_ ?_).mpr ?_ <;> rw [hfiles]
  · intro x hx
    obtain rfl := List.mem_singleton.mp hx
    exact oneSegment_loadable (by decide) (by decide)
  · exact hblocks
  · intro x hx h hh
    obtain rfl := List.mem_singleton.mp hx
    obtain rfl := List.mem_singleton.mp hh
    exact ⟨fun _ => by decide, by decide⟩

/-- A page that the file has nothing for. -/
theorem whole_page_not_loaded :
    (ELFFile.alone (oneSegment 4096 4096 [])).isValid .executable = true ∧
      (oneSegment 4096 4096 []).Loadable 0 ∧
      ELFLoader.loadElf identityTables (fun _ => 4096) (.alone (oneSegment 4096 4096 [])) .executable
        { frames := fun _ _ => 0 } =
        .error (.irrecoverableError "allocation where lies ptr does not cover n bytes") ∧
      ¬ LoadedRight identityTables (fun _ => 4096) (fun _ _ => 0) (.alone (oneSegment 4096 4096 []))
        .executable := by
  have hrun : ELFLoader.loadElf identityTables (fun _ => 4096) (.alone (oneSegment 4096 4096 []))
      .executable { frames := fun _ _ => 0 } =
      .error (.irrecoverableError "allocation where lies ptr does not cover n bytes") := by rfl
  refine ⟨by decide, oneSegment_loadable (by decide) (by decide), hrun, ?_⟩
  rintro ⟨done, l, hl, -⟩
  cases hrun.symm.trans hl

end BrebOS

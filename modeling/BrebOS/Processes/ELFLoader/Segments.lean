import BrebOS.Processes.ELFLoader.Blocks

/-!
# Copying segments

`load_elf_code` writes what the file has of each segment, and zeros behind it.  Both go through `Lptr`, which
wants the range that is written to end *before* the last page of the segment does: a segment is copied
exactly when it leaves at least a byte of that page free (`loadHeaders`).
-/

namespace BrebOS

open Memory

/-- What a segment should hold, so far behind its address. -/
def Elf32Phdr.byte (bytes : List UInt8) (h : Elf32Phdr) (i : ℕ) : UInt8 :=
  if i < h.pFilesz then bytes.getD (h.pOffset + i) 0 else 0

namespace ELFLoader

open Placed

variable {kernel : ℕ → Entry} {mmap : ℕ → ℕ} {l : ELFLoader} {P : List Placed} {p : Placed}

/-! ## The translation -/

/-- The segments of a loader lie where they should and have blocks and pages of their own. -/
structure Separate (kernel : ℕ → Entry) (P : List Placed) : Prop where
  fine : ∀ p ∈ P, p.Fine
  handed : ∀ p ∈ P, p.Handed kernel
  pages : P.Pairwise PagesApart
  apart : P.Pairwise (Apart kernel)

lemma covers_alloc {addr : ℕ} :
    (decide (p.alloc.start ≤ addr) && decide (addr < p.alloc.end_)) = true ↔ p.Covers addr := by
  rw [Bool.and_eq_true, decide_eq_true_eq, decide_eq_true_eq]
  rfl

lemma Separate.lptr_of_covers (hs : Separate kernel P) (hp : p ∈ P) {addr : ℕ} (hc : p.Covers addr)
    (n : ℕ) :
    lptr (P.map alloc) addr n = if u32 (addr + n) < (p.page + p.hdr.numPages) * pageSize then
        .ok (u32 (p.loadAddr + (addr - p.page * pageSize)))
      else .error (.irrecoverableError "allocation where lies ptr does not cover n bytes") := by
  have hfind : (P.map alloc).find? (fun a => a.start ≤ addr && addr < a.end_) = some p.alloc := by
    have hsome : ((P.map alloc).find? fun a => a.start ≤ addr && addr < a.end_).isSome :=
      List.find?_isSome.mpr ⟨p.alloc, List.mem_map_of_mem hp, covers_alloc.mpr hc⟩
    obtain ⟨a, ha⟩ := Option.isSome_iff_exists.mp hsome
    obtain ⟨q, hq, rfl⟩ := List.mem_map.mp (List.mem_of_find?_eq_some ha)
    have htest := List.find?_some ha
    have hqc : q.Covers addr := covers_alloc.mp htest
    have heq : p = q := by
      by_contra hne
      exact (hs.pages.forall hp hq hne).not_covers hc hqc
    rw [ha, heq]
  rw [lptr, hfind]
  rfl

lemma exists_covers_of_lptr {addr n dest : ℕ} (h : lptr (P.map alloc) addr n = .ok dest) :
    ∃ p ∈ P, p.Covers addr := by
  rcases hfind : (P.map alloc).find? (fun a => a.start ≤ addr && addr < a.end_) with _ | a
  · rw [lptr, hfind] at h
    cases h
  · obtain ⟨q, hq, rfl⟩ := List.mem_map.mp (List.mem_of_find?_eq_some hfind)
    have htest := List.find?_some hfind
    exact ⟨q, hq, covers_alloc.mp htest⟩

/-- The blocks hold what they should. -/
def Holds (kernel : ℕ → Entry) (l : ELFLoader) (p : Placed) : Prop :=
  ∀ i < p.hdr.pMemsz, p.hdr.pVaddr % pageSize + i < p.hdr.numPages * pageSize →
    p.shown kernel l.frames (p.hdr.pVaddr % pageSize + i) = p.hdr.byte p.bytes i

lemma Separate.write (hs : Separate kernel P) (hp : p ∈ P) {d : ℕ} {bs : List UInt8}
    (hd : d + bs.length ≤ p.hdr.numPages * pageSize) (frames : ℕ → PageData) : ∃ frames',
      writeKernel kernel (p.loadAddr + d) bs frames = .ok frames' ∧
      (∀ x < p.hdr.numPages * pageSize, p.shown kernel frames' x =
        if d ≤ x ∧ x < d + bs.length then bs.getD (x - d) 0 else p.shown kernel frames x) ∧
      ∀ q ∈ P, p ≠ q → ∀ x < q.hdr.numPages * pageSize, q.shown kernel frames' x =
        q.shown kernel frames x := by
  obtain ⟨frames', hrun, hshown, hother⟩ := (hs.handed p hp).writeKernel hd
  refine ⟨frames', hrun, hshown, fun q hq hne x hx => ?_⟩
  rw [Placed.shown, hother _ fun i hi => hs.apart.forall hp hq hne i hi _ ?_]
  · rfl
  · simp only [pageSize] at hx ⊢
    omega

lemma Separate.store (hs : Separate kernel P) (hm : Mapped kernel P l)
    (hp : p ∈ P) {d : ℕ} {bs : List UInt8}
    (hd : d + bs.length < p.hdr.numPages * pageSize) : ∃ dest frames',
      lptr l.allocations (p.page * pageSize + d) bs.length = .ok dest ∧
      writeKernel kernel dest bs l.frames = .ok frames' ∧
      (∀ x < p.hdr.numPages * pageSize, p.shown kernel frames' x =
        if d ≤ x ∧ x < d + bs.length then bs.getD (x - d) 0 else p.shown kernel l.frames x) ∧
      ∀ q ∈ P, p ≠ q → ∀ x < q.hdr.numPages * pageSize,
        q.shown kernel frames' x = q.shown kernel l.frames x := by
  have hnumbers := (hs.fine p hp).numbers
  have hinside := (hs.handed p hp).inside
  have haligned := (hs.handed p hp).aligned
  obtain ⟨frames', hrun, hshown, hother⟩ := hs.write hp hd.le l.frames
  simp only [addrPage, numFrames, pageSize] at hinside haligned hd
  have hcovers : p.Covers (p.page * pageSize + d) := by
    simp only [Covers, pageSize]
    omega
  have hend : u32 (p.page * pageSize + d + bs.length) < (p.page + p.hdr.numPages) * pageSize := by
    rw [u32_of_lt (by simp only [pageSize]; omega)]
    simp only [pageSize]
    omega
  refine ⟨p.loadAddr + d, frames', ?_, hrun, hshown, hother⟩
  rw [hm.allocations, hs.lptr_of_covers hp hcovers, if_pos hend, Nat.add_sub_cancel_left,
    u32_of_lt (by omega)]

lemma Mapped.with_frames (hm : Mapped kernel P l) (frames : ℕ → PageData) :
    Mapped kernel P { l with frames := frames } := ⟨hm.allocations, hm.entries, hm.free⟩

lemma fileBytes_eq {bytes : List UInt8} {offset n : ℕ} (h : offset + n ≤ bytes.length) :
    ∃ data, fileBytes bytes offset n = .ok data ∧ data.length = n ∧
      ∀ i < n, data.getD i 0 = bytes.getD (offset + i) 0 := by
  refine ⟨(bytes.drop offset).take n, if_pos h, ?_, fun i hi => ?_⟩
  · rw [List.length_take, List.length_drop]
    omega
  · rw [List.getD_eq_getElem?_getD, List.getD_eq_getElem?_getD, List.getElem?_take_of_lt hi,
      List.getElem?_drop]

/-! ## One segment -/

/-- A segment that leaves a byte of its last page free, or has no page but begins in another one. -/
def Fits (P : List Placed) (p : Placed) : Prop :=
  (p.hdr.pMemsz ≠ 0 → p.hdr.pVaddr % pageSize + p.hdr.pMemsz < p.hdr.numPages * pageSize) ∧
    (p.hdr.pMemsz = 0 → ∃ q ∈ P, q.Covers (p.base + p.hdr.pVaddr))

/-- Only frames have changed; they hold the segment, and all that was held before. -/
structure Copied (kernel : ℕ → Entry) (P : List Placed) (p : Placed) (l l' : ELFLoader) : Prop where
  same : l' = { l with frames := l'.frames }
  new : Holds kernel l' p
  old : ∀ q ∈ P, Holds kernel l q → Holds kernel l' q

lemma loadHeader_empty (hs : Separate kernel P) (hm : Mapped kernel P l) (hp : p ∈ P)
    (hzero : p.hdr.pMemsz = 0) {q : Placed} (hq : q ∈ P) (hc : q.Covers (p.base + p.hdr.pVaddr)) :
    loadHeader kernel p.base p.bytes l p.hdr = .ok l := by
  have hf := hs.fine p hp
  have hnumbers := hf.numbers
  have hfilesz : p.hdr.pFilesz = 0 := by
    have := hf.filesz
    omega
  have hfile : fileBytes p.bytes p.hdr.pOffset 0 = .ok [] := by
    have := hf.inside
    rw [fileBytes, if_pos (by omega), List.take_zero]
  have hlptr := hs.lptr_of_covers hq hc 0
  rw [Nat.add_zero, u32_of_lt (by omega), if_pos hc.2, ← hm.allocations] at hlptr
  rw [loadHeader, memcpy, u32_of_lt (by omega), hfilesz, hlptr, hfile, hzero]
  rfl

lemma Separate.memcpy (hs : Separate kernel P) (hm : Mapped kernel P l) (hp : p ∈ P)
    (hfit : p.hdr.pVaddr % pageSize + p.hdr.pFilesz < p.hdr.numPages * pageSize) :
    ∃ frames', ELFLoader.memcpy kernel (u32 (p.base + p.hdr.pVaddr)) p.bytes p.hdr.pOffset p.hdr.pFilesz l =
        .ok { l with frames := frames' } ∧
      (∀ i < p.hdr.pFilesz, p.shown kernel frames' (p.hdr.pVaddr % pageSize + i) = p.hdr.byte p.bytes i) ∧
      ∀ q ∈ P, p ≠ q → ∀ x < q.hdr.numPages * pageSize,
        q.shown kernel frames' x = q.shown kernel l.frames x := by
  have hf := hs.fine p hp
  have hnumbers := hf.numbers
  obtain ⟨data, hdata, hlen, hbyte⟩ := fileBytes_eq hf.inside
  have haddr : u32 (p.base + p.hdr.pVaddr) = p.page * pageSize + p.hdr.pVaddr % pageSize := by
    rw [u32_of_lt (by omega)]
    simp only [pageSize]
    omega
  obtain ⟨dest, frames', hlptr, hrun, hshown, hother⟩ := hs.store hm hp (hlen.symm ▸ hfit)
  rw [hlen] at hlptr hshown
  refine ⟨frames', ?_, fun i hi => ?_, hother⟩
  · rw [ELFLoader.memcpy, haddr, hlptr]
    exact bind_eq_ok.mpr ⟨_, rfl, bind_eq_ok.mpr ⟨_, hdata, bind_eq_ok.mpr ⟨_, hrun, rfl⟩⟩⟩
  · rw [hshown _ (by omega), if_pos (by omega), Nat.add_sub_cancel_left, hbyte i hi, Elf32Phdr.byte,
      if_pos hi]

lemma Separate.memset (hs : Separate kernel P) (hm : Mapped kernel P l) (hp : p ∈ P)
    (hfit : p.hdr.pVaddr % pageSize + p.hdr.pMemsz < p.hdr.numPages * pageSize) :
    ∃ frames', ELFLoader.memset kernel (u32 (p.base + u32 (p.hdr.pVaddr + p.hdr.pFilesz)))
        (p.hdr.pMemsz - p.hdr.pFilesz) l = .ok { l with frames := frames' } ∧
      (∀ x < p.hdr.numPages * pageSize, p.shown kernel frames' x =
        if p.hdr.pVaddr % pageSize + p.hdr.pFilesz ≤ x ∧ x < p.hdr.pVaddr % pageSize + p.hdr.pMemsz then 0
        else p.shown kernel l.frames x) ∧
      ∀ q ∈ P, p ≠ q → ∀ x < q.hdr.numPages * pageSize,
        q.shown kernel frames' x = q.shown kernel l.frames x := by
  have hf := hs.fine p hp
  have hnumbers := hf.numbers
  have hfilesz := hf.filesz
  have haddr : u32 (p.base + u32 (p.hdr.pVaddr + p.hdr.pFilesz)) =
      p.page * pageSize + (p.hdr.pVaddr % pageSize + p.hdr.pFilesz) := by
    rw [hf.u32_addr hfilesz]
    simp only [pageSize]
    omega
  have hlen : (List.replicate (p.hdr.pMemsz - p.hdr.pFilesz) (0 : UInt8)).length =
      p.hdr.pMemsz - p.hdr.pFilesz := List.length_replicate
  obtain ⟨dest, frames', hlptr, hrun, hshown, hother⟩ := hs.store hm hp
    (show p.hdr.pVaddr % pageSize + p.hdr.pFilesz +
      (List.replicate (p.hdr.pMemsz - p.hdr.pFilesz) (0 : UInt8)).length < _ by omega)
  rw [hlen] at hlptr hshown
  refine ⟨frames', ?_, fun x hx => ?_, hother⟩
  · rw [ELFLoader.memset, haddr, hlptr]
    exact bind_eq_ok.mpr ⟨_, rfl, bind_eq_ok.mpr ⟨_, hrun, rfl⟩⟩
  · rw [hshown x hx, List.getD_eq_getElem?_getD]
    refine if_congr (by omega) ?_ rfl
    rw [List.getElem?_replicate]
    split <;> rfl

lemma Separate.loadHeader (hs : Separate kernel P) (hm : Mapped kernel P l) (hp : p ∈ P) (hfit : Fits P p) :
    ∃ l', ELFLoader.loadHeader kernel p.base p.bytes l p.hdr = .ok l' ∧ Copied kernel P p l l' := by
  have hfilesz := (hs.fine p hp).filesz
  rcases Nat.eq_zero_or_pos p.hdr.pMemsz with hzero | hpos
  · obtain ⟨q, hq, hc⟩ := hfit.2 hzero
    refine ⟨l, loadHeader_empty hs hm hp hzero hq hc, rfl, fun i hi => ?_, fun _ _ hold => hold⟩
    omega
  · have hlt := hfit.1 hpos.ne'
    obtain ⟨frames₁, hrun₁, hshown₁, hother₁⟩ := hs.memcpy hm hp (by omega)
    have hkeep : ∀ {frames}, (∀ q ∈ P, p ≠ q → ∀ x < q.hdr.numPages * pageSize,
          q.shown kernel frames x = q.shown kernel l.frames x) →
        Holds kernel { l with frames := frames } p → ∀ q ∈ P, Holds kernel l q →
          Holds kernel { l with frames := frames } q := by
      intro frames hother hnew q hq hold
      by_cases hpq : p = q
      · exact hpq ▸ hnew
      · intro i hi hin
        exact (hother q hq hpq _ hin).trans (hold i hi hin)
    by_cases hmore : p.hdr.pMemsz > p.hdr.pFilesz
    · obtain ⟨frames₂, hrun₂, hshown₂, hother₂⟩ := hs.memset (hm.with_frames frames₁) hp hlt
      have hnew : Holds kernel { l with frames := frames₂ } p := by
        intro i hi hin
        refine (hshown₂ _ hin).trans ?_
        by_cases hfile : i < p.hdr.pFilesz
        · rw [if_neg (by omega)]
          exact hshown₁ i hfile
        · rw [if_pos (by omega), Elf32Phdr.byte, if_neg hfile]
      refine ⟨{ l with frames := frames₂ }, ?_, rfl, hnew, hkeep (fun q hq hne x hx => ?_) hnew⟩
      · rw [ELFLoader.loadHeader]
        exact bind_eq_ok.mpr ⟨_, hrun₁, (if_pos hmore).trans hrun₂⟩
      · exact (hother₂ q hq hne x hx).trans (hother₁ q hq hne x hx)
    · have hnew : Holds kernel { l with frames := frames₁ } p := fun i hi _ => hshown₁ i (by omega)
      refine ⟨{ l with frames := frames₁ }, ?_, rfl, hnew, hkeep hother₁ hnew⟩
      rw [ELFLoader.loadHeader]
      exact bind_eq_ok.mpr ⟨_, hrun₁, if_neg hmore⟩

lemma Separate.fits_of_loadHeader (hs : Separate kernel P) (hm : Mapped kernel P l)
    (hp : p ∈ P) {l' : ELFLoader}
    (hrun : ELFLoader.loadHeader kernel p.base p.bytes l p.hdr = .ok l') : Fits P p := by
  have hf := hs.fine p hp
  have hnumbers := hf.numbers
  have hfilesz := hf.filesz
  obtain ⟨l₁, hcpy, hset⟩ := bind_eq_ok.mp hrun
  obtain ⟨dest, hdest, hcpy⟩ := bind_eq_ok.mp hcpy
  obtain ⟨data, -, hcpy⟩ := bind_eq_ok.mp hcpy
  obtain ⟨frames, -, hcpy⟩ := bind_eq_ok.mp hcpy
  obtain rfl := Except.ok.inj hcpy
  rw [u32_of_lt (by omega), hm.allocations] at hdest
  refine ⟨fun hne => ?_, fun _ => exists_covers_of_lptr hdest⟩
  -- The address is in the first page of the segment, which is there as the segment is not empty.
  have hcovers : p.Covers (p.base + p.hdr.pVaddr) := by
    simp only [Covers, pageSize]
    omega
  have hcpyEnd : p.base + p.hdr.pVaddr + p.hdr.pFilesz < (p.page + p.hdr.numPages) * pageSize := by
    rw [hs.lptr_of_covers hp hcovers, u32_of_lt (by omega)] at hdest
    by_contra hover
    rw [if_neg hover] at hdest
    cases hdest
  by_cases hmore : p.hdr.pMemsz > p.hdr.pFilesz
  · replace hset := (if_pos hmore).symm.trans hset
    obtain ⟨dest', hdest', -⟩ := bind_eq_ok.mp hset
    have hcovers' : p.Covers (p.base + p.hdr.pVaddr + p.hdr.pFilesz) := by
      refine ⟨?_, hcpyEnd⟩
      simp only [pageSize]
      omega
    rw [hf.u32_addr hfilesz] at hdest'
    change lptr l.allocations _ _ = _ at hdest'
    rw [hm.allocations, hs.lptr_of_covers hp hcovers', u32_of_lt (by omega)] at hdest'
    by_contra hover
    rw [if_neg (by simp only [pageSize] at hover ⊢; omega)] at hdest'
    cases hdest'
  · simp only [pageSize] at hcpyEnd ⊢
    omega

lemma Separate.loadHeaders (hs : Separate kernel P) {base : ℕ} {bytes : List UInt8} :
    ∀ {Q : List Placed} {l : ELFLoader}, Mapped kernel P l →
      (∀ q ∈ Q, q ∈ P ∧ q.base = base ∧ q.bytes = bytes) →
      ((∀ q ∈ Q, Fits P q) → ∃ l', (Q.map hdr).foldlM (ELFLoader.loadHeader kernel base bytes) l = .ok l' ∧
        l' = { l with frames := l'.frames } ∧ (∀ q ∈ Q, Holds kernel l' q) ∧
        ∀ q ∈ P, Holds kernel l q → Holds kernel l' q) ∧
      ∀ l', (Q.map hdr).foldlM (ELFLoader.loadHeader kernel base bytes) l = .ok l' → ∀ q ∈ Q, Fits P q := by
  intro Q
  induction Q with
  | nil =>
      intro l _ _
      exact ⟨fun _ => ⟨l, rfl, rfl, by simp, fun _ _ hold => hold⟩, by simp⟩
  | cons p Q ih =>
      intro l hm hQ
      obtain ⟨hp, rfl, rfl⟩ := hQ p List.mem_cons_self
      have hrest : ∀ q ∈ Q, q ∈ P ∧ q.base = p.base ∧ q.bytes = p.bytes :=
        fun q hq => hQ q (List.mem_cons_of_mem _ hq)
      rw [List.map_cons, List.foldlM_cons]
      constructor
      · intro hfits
        obtain ⟨l₁, hstep, hcopied⟩ := hs.loadHeader hm hp (hfits p List.mem_cons_self)
        have hm₁ : Mapped kernel P l₁ := hcopied.same ▸ hm.with_frames l₁.frames
        obtain ⟨l', hrun, hsame, hnew, hold⟩ :=
          (ih hm₁ hrest).1 fun q hq => hfits q (List.mem_cons_of_mem _ hq)
        refine ⟨l', bind_eq_ok.mpr ⟨l₁, hstep, hrun⟩, ?_, fun q hq => ?_, fun q hq hh =>
          hold q hq (hcopied.old q hq hh)⟩
        · rw [hsame, hcopied.same]
        · rcases List.mem_cons.mp hq with rfl | hq
          · exact hold q hp hcopied.new
          · exact hnew q hq
      · intro l' hrun
        obtain ⟨l₁, hstep, hrun⟩ := bind_eq_ok.mp hrun
        have hfit := hs.fits_of_loadHeader hm hp hstep
        obtain ⟨l₂, hstep', hcopied⟩ := hs.loadHeader hm hp hfit
        obtain rfl : l₁ = l₂ := Except.ok.inj (hstep.symm.trans hstep')
        have hm₁ : Mapped kernel P l₁ := hcopied.same ▸ hm.with_frames l₁.frames
        intro q hq
        rcases List.mem_cons.mp hq with rfl | hq
        · exact hfit
        · exact (ih hm₁ hrest).2 l' hrun q hq

end ELFLoader

end BrebOS

import BrebOS.Processes.ELFLoader.LoadELF
import BrebOS.Lib.Loop

/-!
# Segments and the blocks they are mapped from

`map_elf` enters the pages of a block of the kernel in the tables of the process.  What the kernel writes to
the block is then what the process reads: `Handed.writeKernel` says what a write changes of a block and that
it changes nothing else, and `Mapped.mapHeaders` which pages the segments of a file get.
-/

namespace BrebOS

open Memory

/-! ## Mapping a segment -/

section Mapping

variable {kernel tables : ℕ → Entry} {page window n : ℕ}

/-- What the tables of a process get from a page of a block. -/
def windowEntry (write : Bool) (w : Entry) : Entry :=
  { w with flags := { w.flags with user := true, write := w.flags.write && write } }

/-- The entries of `n` pages are set. -/
def setPages (page n : ℕ) (entries tables : ℕ → Entry) (q : ℕ) : Entry :=
  if page ≤ q ∧ q < page + n then entries q else tables q

lemma setPages_succ (entries : ℕ → Entry) : setPages page (n + 1) entries tables =
    Function.update (setPages page n entries tables) (page + n) (entries (page + n)) := by
  funext q
  by_cases hq : q = page + n
  · subst hq
    rw [Function.update_self, setPages, if_pos (by omega)]
  · rw [Function.update_of_ne hq, setPages, setPages]
    exact if_congr (by omega) rfl rfl

lemma mapWindowPages (msg : String)
    (hfree : ∀ i < n, page + i < userEntries ∧ window + i < numFrames ∧ tables (page + i) = {}) :
    (List.range n).foldlM (mapWindowPage msg true page window kernel) tables =
      .ok (setPages page n (fun q => windowEntry true (kernel (window + (q - page)))) tables) := by
  induction n with
  | zero =>
      refine congrArg Except.ok (funext fun q => ?_)
      rw [setPages, if_neg (by omega)]
  | succ n ih =>
      obtain ⟨hpage, hwindow, hempty⟩ := hfree n (Nat.lt_succ_self n)
      have hnew : setPages page n (fun q => windowEntry true (kernel (window + (q - page)))) tables
          (page + n) = {} := by
        rw [setPages, if_neg (by omega), hempty]
      rw [List.range_succ, List.foldlM_append, ih fun i hi => hfree i (Nat.lt_succ_of_lt hi), setPages_succ]
      show (List.foldlM _ _ [n] : Except Fault _) = _
      rw [List.foldlM_cons, mapWindowPage, if_neg (by omega), hnew, if_neg (by simp)]
      simp [windowEntry]

lemma dropWrites : (List.range n).foldl (dropWrite page) tables =
    setPages page n (fun q => { tables q with flags := { (tables q).flags with write := false } }) tables := by
  induction n with
  | zero =>
      funext q
      rw [setPages, if_neg (by omega)]
      rfl
  | succ n ih =>
      rw [List.range_succ, List.foldl_append, ih, setPages_succ]
      show dropWrite _ _ _ = _
      rw [dropWrite, setPages, if_neg (by omega)]

lemma mapSegment_eq {seg : Segment} (hfree : ∀ i < seg.numPages, seg.runtimePageId + i < userEntries ∧
      seg.window + i < numFrames ∧ tables (seg.runtimePageId + i) = {}) :
    mapSegment kernel tables seg = .ok (setPages seg.runtimePageId seg.numPages
      (fun q => windowEntry seg.write (kernel (seg.window + (q - seg.runtimePageId)))) tables) := by
  rw [mapSegment, mapWindowPages _ hfree]
  refine congrArg Except.ok ?_
  by_cases hwrite : seg.write = true
  · rw [if_pos hwrite, hwrite]
  · rw [if_neg hwrite, dropWrites]
    funext q
    rw [setPages, setPages, setPages]
    by_cases hq : seg.runtimePageId ≤ q ∧ q < seg.runtimePageId + seg.numPages
    · rw [if_pos hq, if_pos hq, if_pos hq]
      simp [windowEntry, hwrite]
    · rw [if_neg hq, if_neg hq, if_neg hq]

end Mapping

/-! ## Blocks of the kernel -/

/-- A segment of a file that is loaded at `base`, and the block it is mapped from. -/
structure Placed where
  base : ℕ
  hdr : Elf32Phdr
  bytes : List UInt8
  loadAddr : ℕ

namespace Placed

/-- The first page it is mapped to. -/
def page (p : Placed) : ℕ := addrPage (p.base + p.hdr.pVaddr)

/-- What the allocations say of it, if no number wraps around. -/
def alloc (p : Placed) : Alloc := ⟨p.page * pageSize, (p.page + p.hdr.numPages) * pageSize, p.loadAddr⟩

def frame (kernel : ℕ → Entry) (p : Placed) (i : ℕ) : ℕ := (kernel (addrPage p.loadAddr + i)).frame

/-- A byte of the block. -/
def shown (kernel : ℕ → Entry) (frames : ℕ → PageData) (p : Placed) (x : ℕ) : UInt8 :=
  frames (p.frame kernel (x / pageSize)) (x % pageSize)

/-- What `mmap` promises of a block: it consists of whole pages, which can be written to. -/
structure Handed (kernel : ℕ → Entry) (p : Placed) : Prop where
  nonnull : p.loadAddr ≠ 0
  aligned : p.loadAddr % pageSize = 0
  inside : addrPage p.loadAddr + p.hdr.numPages ≤ numFrames
  mapped : ∀ i < p.hdr.numPages, (kernel (addrPage p.loadAddr + i)).mapped = true
  write : ∀ i < p.hdr.numPages, (kernel (addrPage p.loadAddr + i)).flags.write = true
  frames : ∀ i < p.hdr.numPages, ∀ j < p.hdr.numPages, p.frame kernel i = p.frame kernel j → i = j

/-- Two blocks have no frame in common. -/
def Apart (kernel : ℕ → Entry) (p q : Placed) : Prop :=
  ∀ i < p.hdr.numPages, ∀ j < q.hdr.numPages, p.frame kernel i ≠ q.frame kernel j

/-- Two segments are mapped to different pages. -/
def PagesApart (p q : Placed) : Prop :=
  ∀ i < p.hdr.numPages, ∀ j < q.hdr.numPages, p.page + i ≠ q.page + j

variable {kernel : ℕ → Entry} {p q : Placed}

lemma Handed.shown_poke (hp : p.Handed kernel) {frames : ℕ → PageData} {b : UInt8} {d x : ℕ}
    (hd : d / 4096 < p.hdr.numPages) (hx : x < p.hdr.numPages * pageSize) :
    p.shown kernel (Function.update frames (p.frame kernel (d / 4096))
      (Function.update (frames (p.frame kernel (d / 4096))) (d % 4096) b)) x =
      if x = d then b else p.shown kernel frames x := by
  simp only [pageSize] at hx
  simp only [shown, pageSize]
  by_cases hpage : x / 4096 = d / 4096
  · rw [hpage, Function.update_self]
    by_cases hoff : x % 4096 = d % 4096
    · rw [hoff, Function.update_self, if_pos (by omega)]
    · rw [Function.update_of_ne hoff, if_neg (by rintro rfl; exact hoff rfl)]
  · have hframe : p.frame kernel (x / 4096) ≠ p.frame kernel (d / 4096) :=
      fun heq => hpage (hp.frames _ (by omega) _ hd heq)
    rw [Function.update_of_ne hframe, if_neg (by rintro rfl; exact hpage rfl)]

lemma Handed.writeKernel (hp : p.Handed kernel) : ∀ {bs : List UInt8} {d : ℕ} {frames : ℕ → PageData},
    d + bs.length ≤ p.hdr.numPages * pageSize → ∃ frames',
      BrebOS.writeKernel kernel (p.loadAddr + d) bs frames = .ok frames' ∧
      (∀ x < p.hdr.numPages * pageSize, p.shown kernel frames' x =
        if d ≤ x ∧ x < d + bs.length then bs.getD (x - d) 0 else p.shown kernel frames x) ∧
      ∀ f, (∀ i < p.hdr.numPages, p.frame kernel i ≠ f) → frames' f = frames f := by
  intro bs
  induction bs with
  | nil =>
      intro d frames _
      refine ⟨frames, rfl, fun x _ => ?_, fun _ _ => rfl⟩
      rw [if_neg (by simp only [List.length_nil]; omega)]
  | cons b bs ih =>
      intro d frames hd
      have haligned := hp.aligned
      simp only [List.length_cons, pageSize] at hd haligned
      have hpage : addrPage (p.loadAddr + d) = addrPage p.loadAddr + d / 4096 := by
        simp only [addrPage]
        omega
      have hoff : (p.loadAddr + d) % pageSize = d % 4096 := by
        simp only [pageSize]
        omega
      have hlt : d / 4096 < p.hdr.numPages := by omega
      rw [BrebOS.writeKernel, hpage, hoff, if_pos (hp.mapped _ hlt), Nat.add_assoc]
      obtain ⟨frames', hrun, hshown, hother⟩ :=
        @ih (d + 1) (Function.update frames (p.frame kernel (d / 4096))
        (Function.update (frames (p.frame kernel (d / 4096))) (d % 4096) b))
        (by simp only [pageSize]; omega)
      refine ⟨frames', hrun, fun x hx => ?_, fun f hf => ?_⟩
      · rw [hshown x hx, hp.shown_poke hlt hx]
        rcases Nat.lt_trichotomy x d with hless | rfl | hmore
        · rw [if_neg (by omega), if_neg (by omega), if_neg (by omega)]
        · rw [if_neg (by omega), if_pos rfl, if_pos (by simp), Nat.sub_self]
          rfl
        · rw [if_neg (show ¬ x = d by omega)]
          refine if_congr (by simp only [List.length_cons]; omega) ?_ rfl
          rw [show x - d = x - (d + 1) + 1 by omega]
          rfl
      · rw [hother f hf, Function.update_of_ne (hf _ hlt).symm]

/-! ## Segments that lie where they should -/

/-- What a segment of a file must meet. -/
structure Fine (p : Placed) : Prop where
  base : p.base % pageSize = 0
  below : p.base + p.hdr.pVaddr + p.hdr.pMemsz ≤ kstackStartPageId * pageSize
  filesz : p.hdr.pFilesz ≤ p.hdr.pMemsz
  inside : p.hdr.pOffset + p.hdr.pFilesz ≤ p.bytes.length

/-- An address is in the pages of a segment. -/
def Covers (p : Placed) (addr : ℕ) : Prop :=
  p.page * pageSize ≤ addr ∧ addr < (p.page + p.hdr.numPages) * pageSize

lemma kstack_eq : kstackStartPageId = 786302 := rfl

lemma Fine.numbers (hf : p.Fine) : p.base + p.hdr.pVaddr + p.hdr.pMemsz ≤ 786302 * 4096 ∧
    p.hdr.numPages = (p.hdr.pMemsz + 4095) / 4096 ∧ p.page = (p.base + p.hdr.pVaddr) / 4096 ∧
    p.page * 4096 + p.hdr.pVaddr % 4096 = p.base + p.hdr.pVaddr ∧
    p.page + p.hdr.numPages ≤ 786302 := by
  have hbase := hf.base
  have hbelow := hf.below
  rw [kstack_eq] at hbelow
  simp only [pageSize] at hbase hbelow
  have hpages : p.hdr.numPages = (p.hdr.pMemsz + 4095) / 4096 := by
    rw [Elf32Phdr.numPages, addrPage, pageSize, u32_of_lt (by omega)]
    rfl
  have hpage : p.page = (p.base + p.hdr.pVaddr) / 4096 := rfl
  refine ⟨hbelow, hpages, hpage, ?_, ?_⟩ <;> omega

lemma Fine.u32_addr (hf : p.Fine) {n : ℕ} (hn : n ≤ p.hdr.pMemsz) :
    u32 (p.base + u32 (p.hdr.pVaddr + n)) = p.base + p.hdr.pVaddr + n := by
  have hnumbers := hf.numbers
  rw [u32_of_lt (x := p.hdr.pVaddr + n) (by omega), u32_of_lt (by omega), Nat.add_assoc]

lemma Fine.alloc_eq (hf : p.Fine) : p.hdr.alloc p.base p.loadAddr = p.alloc := by
  have hnumbers := hf.numbers
  rw [Elf32Phdr.alloc, alloc, u32_of_lt (x := p.base + p.hdr.pVaddr) (by omega), Nat.add_mul,
    u32_of_lt (by simp only [pageSize]; change p.page * 4096 + _ < _; omega)]
  rfl

lemma Fine.segment_eq (hf : p.Fine) : p.hdr.segment p.base p.loadAddr =
    ⟨p.page, p.hdr.numPages, p.hdr.write, addrPage p.loadAddr⟩ := by
  have hnumbers := hf.numbers
  rw [Elf32Phdr.segment, u32_of_lt (by omega)]
  rfl

instance : Std.Symm (Apart kernel) := ⟨fun _ _ h i hi j hj heq => h j hj i hi heq.symm⟩

instance : Std.Symm PagesApart := ⟨fun _ _ h i hi j hj heq => h j hj i hi heq.symm⟩

lemma PagesApart.not_covers (h : PagesApart p q) {addr : ℕ} (hp : p.Covers addr) : ¬ q.Covers addr := by
  intro hq
  simp only [Covers, pageSize] at hp hq
  exact h (addr / 4096 - p.page) (by omega) (addr / 4096 - q.page) (by omega) (by omega)

end Placed

/-! ## Mapping all segments -/

namespace ELFLoader

open Placed

variable {kernel : ℕ → Entry} {mmap : ℕ → ℕ} {l : ELFLoader} {P : List Placed} {p : Placed}

/-- The allocations and the tables are those of some segments. -/
structure Mapped (kernel : ℕ → Entry) (P : List Placed) (l : ELFLoader) : Prop where
  allocations : l.allocations = P.map alloc
  entries : ∀ p ∈ P, ∀ i < p.hdr.numPages,
    l.pageTables (p.page + i) = windowEntry p.hdr.write (kernel (addrPage p.loadAddr + i))
  free : ∀ page, (∀ p ∈ P, ∀ i < p.hdr.numPages, p.page + i ≠ page) → l.pageTables page = {}

lemma Mapped.mapHeader (hm : Mapped kernel P l) (hf : p.Fine) (hh : p.Handed kernel)
    (hload : mmap l.allocations.length = p.loadAddr) (hapart : ∀ q ∈ P, PagesApart q p) :
    ∃ l', mapHeader kernel mmap p.base l p.hdr = .ok l' ∧ Mapped kernel (P ++ [p]) l' ∧
      l'.frames = l.frames ∧ l'.numPages = l.numPages := by
  have hnumbers := hf.numbers
  have hfree : ∀ i < p.hdr.numPages, p.page + i < userEntries ∧
      addrPage p.loadAddr + i < numFrames ∧ l.pageTables (p.page + i) = {} := by
    intro i hi
    have hinside := hh.inside
    refine ⟨by simp only [userEntries]; omega, by omega, hm.free _ fun q hq j hj heq => ?_⟩
    exact hapart q hq j hj i hi heq
  have hmap := @mapSegment_eq kernel l.pageTables
    ⟨p.page, p.hdr.numPages, p.hdr.write, addrPage p.loadAddr⟩ hfree
  refine ⟨{ l with
    pageTables := setPages p.page p.hdr.numPages
      (fun q => windowEntry p.hdr.write (kernel (addrPage p.loadAddr + (q - p.page)))) l.pageTables
    allocations := l.allocations ++ [p.alloc] }, ?_, ⟨?_, ?_, ?_⟩, rfl, rfl⟩
  · rw [ELFLoader.mapHeader, hload]
    refine (if_neg hh.nonnull).trans ?_
    rw [hf.segment_eq, hmap, hf.alloc_eq]
    rfl
  · rw [hm.allocations, List.map_append]
    rfl
  · intro q hq i hi
    rcases List.mem_append.mp hq with hq | hq
    · have hother : ¬ (p.page ≤ q.page + i ∧ q.page + i < p.page + p.hdr.numPages) :=
        fun hin => hapart q hq i hi (q.page + i - p.page) (by omega) (by omega)
      exact (if_neg hother).trans (hm.entries q hq i hi)
    · obtain rfl := List.mem_singleton.mp hq
      refine (if_pos (by omega)).trans ?_
      simp only [Nat.add_sub_cancel_left]
  · intro page hpage
    have hother : ¬ (p.page ≤ page ∧ page < p.page + p.hdr.numPages) :=
      fun hin => hpage p (by simp) (page - p.page) (by omega) (by omega)
    exact (if_neg hother).trans (hm.free page fun q hq => hpage q (List.mem_append_left _ hq))

/-- The segments of a file, with the blocks that `mmap` returns from call number `k` on. -/
def placeAll (mmap : ℕ → ℕ) (base : ℕ) (bytes : List UInt8) : ℕ → List Elf32Phdr → List Placed
  | _, [] => []
  | k, h :: hs => ⟨base, h, bytes, mmap k⟩ :: placeAll mmap base bytes (k + 1) hs

lemma Mapped.mapHeaders {base : ℕ} {bytes : List UInt8} : ∀ {hs : List Elf32Phdr} {l : ELFLoader}
    {P : List Placed}, Mapped kernel P l →
    (∀ p ∈ placeAll mmap base bytes l.allocations.length hs, p.Fine ∧ p.Handed kernel) →
    (∀ p ∈ P, ∀ q ∈ placeAll mmap base bytes l.allocations.length hs, PagesApart p q) →
    (placeAll mmap base bytes l.allocations.length hs).Pairwise PagesApart →
    ∃ l', hs.foldlM (ELFLoader.mapHeader kernel mmap base) l = .ok l' ∧
      Mapped kernel (P ++ placeAll mmap base bytes l.allocations.length hs) l' ∧
      l'.frames = l.frames ∧ l'.numPages = l.numPages := by
  intro hs
  induction hs with
  | nil =>
      intro l P hm _ _ _
      exact ⟨l, rfl, by rwa [placeAll, List.append_nil], rfl, rfl⟩
  | cons h hs ih =>
      intro l P hm hall hbefore hpairs
      rw [placeAll] at hall hbefore hpairs
      obtain ⟨hhead, htail⟩ := List.pairwise_cons.mp hpairs
      obtain ⟨hf, hh⟩ := hall _ List.mem_cons_self
      obtain ⟨l₁, hstep, hm₁, hframes₁, hnum₁⟩ := hm.mapHeader hf hh rfl fun q hq =>
        hbefore q hq _ List.mem_cons_self
      have hlen : l₁.allocations.length = l.allocations.length + 1 := by
        rw [hm₁.allocations, hm.allocations]
        simp
      have hrest : ∀ p ∈ placeAll mmap base bytes l₁.allocations.length hs, p.Fine ∧ p.Handed kernel := by
        rw [hlen]
        exact fun p hp => hall p (List.mem_cons_of_mem _ hp)
      have hbefore₁ : ∀ p ∈ P ++ [⟨base, h, bytes, mmap l.allocations.length⟩],
          ∀ q ∈ placeAll mmap base bytes l₁.allocations.length hs, PagesApart p q := by
        rw [hlen]
        intro p hp q hq
        rcases List.mem_append.mp hp with hp | hp
        · exact hbefore p hp q (List.mem_cons_of_mem _ hq)
        · rw [List.mem_singleton.mp hp]
          exact hhead q hq
      obtain ⟨l', hrun, hm', hframes', hnum'⟩ := ih hm₁ hrest hbefore₁ (hlen ▸ htail)
      refine ⟨l', ?_, ?_, hframes'.trans hframes₁, hnum'.trans hnum₁⟩
      · rw [List.foldlM_cons, hstep]
        exact hrun
      · rw [hlen, List.append_assoc] at hm'
        exact hm'

end ELFLoader

end BrebOS

import BrebOS.Core.Memory.Mmap
import BrebOS.Core.Memory.ZeroOut

/-!
# Page-aligned allocations

`malloca` and `calloca` ask `mmap` for `num_pages * size` bytes, where `num_pages * PAGE_SIZE` was
meant.  `mmap` wants whole pages, and `num_pages * size` wraps: the number of bytes may be refused,
too big, or too small, while `calloca` goes on to zero `num_pages * PAGE_SIZE` bytes.  Nothing
aligns the block either: `mmap` takes the first free node that is big enough, wherever it starts.

`aligned_right_iff` says when the two return null or an aligned block that is big enough.
-/

namespace BrebOS.Memory

open MemTree BinaryTree Ranges

/-! ## The requests -/

/-- A call of `malloca` or `calloca`. -/
inductive PageRequest
  | malloca (size : ℕ)
  | calloca (nmemb size : ℕ)

namespace PageRequest

/-- The bytes asked for. -/
def bytes : PageRequest → ℕ
  | malloca size => size
  | calloca nmemb size => nmemb * size

/-- `num_pages`. -/
def numPages (req : PageRequest) : ℕ := addrPage (u32 (req.bytes + pageSize - 1))

/-- The bytes that `mmap` is asked for. -/
def passed : PageRequest → ℕ
  | malloca size => u32 ((malloca size).numPages * size)
  | calloca nmemb size => u32 ((calloca nmemb size).numPages * size)

/-- The bytes that are zeroed. -/
def zeroed : PageRequest → ℕ
  | malloca _ => 0
  | calloca nmemb size => (calloca nmemb size).numPages * pageSize

/-- `calloca` gives up when the rounded product does not fit in a `uint`. -/
def Overflows : PageRequest → Prop
  | malloca _ => False
  | calloca nmemb size => 4294967296 - 4096 < nmemb * size

/-- What is done with the window. -/
def finish (addr : ℕ) (m : Memory) : PageRequest → Except Fault Memory
  | malloca _ => .ok m
  | calloca nmemb size =>
      zeroOutPossiblyLazilyAllocatedMemory (calloca nmemb size).zeroed addr .kernel m

/-- The call. -/
def run (t : MemTree) (m : Memory) : PageRequest → Except Fault ((ℕ × MemTree) × Memory)
  | malloca size => Memory.malloca size t m
  | calloca nmemb size => Memory.calloca nmemb size t m

end PageRequest

/-- Whatever is written is written in the node. -/
def WritesInside (c : Allocation) (m m' : Memory) : Prop :=
  ∀ f o, m'.frames f o ≠ m.frames f o → ShownIn .kernel m' c.start (c.start + nodeSize c) f o

/-- A page-aligned block: a used node starts there, and each that does covers the bytes asked for
and all that was written. -/
structure AlignedBlock (bytes addr : ℕ) (t' : MemTree) (m m' : Memory) : Prop where
  aligned : addr % pageSize = 0
  node : ∃ c ∈ t'.inorder, c.used = true ∧ c.start = addr
  covers : ∀ c ∈ t'.inorder, c.used = true → c.start = addr →
    bytes ≤ nodeSize c ∧ WritesInside c m m'

/-- The call returns null, and has written nothing, or an aligned block. -/
def AlignedRight (req : PageRequest) (t : MemTree) (m : Memory) : Prop :=
  ∃ addr t' m', req.run t m = .ok ((addr, t'), m') ∧
    (addr = 0 ∧ m'.frames = m.frames ∨ addr ≠ 0 ∧ AlignedBlock req.bytes addr t' m m')

/-! ## The call of `mmap` -/

/-- The call that both make. -/
def pageMmap (passed : ℕ) (t : MemTree) (m : Memory) :
    Except Fault ((Except ℤ ℕ × MemTree) × Memory) :=
  mmap kernelVirtualBase passed defaultKProt defaultFlags 0 .kernel false false t m

/-- The page policy it asks for. -/
abbrev pagePolicy : Flags := mmapPolicy defaultKProt false false

/-- The hint it passes on. -/
def pageHint (m : Memory) : HintInfo := ⟨mmapHint kernelVirtualBase m, isFixed defaultFlags⟩

section

variable {req : PageRequest} {t t' : MemTree} {m m' m₁ : Memory} {passed addr n : ℕ} {p : Path}
  {d c : Allocation} {a b : MemTree}

lemma run_eq (h : ¬ req.Overflows) : req.run t m = (pageMmap req.passed t m >>= fun r =>
    match r.1.1 with
    | .error _ => .ok ((0, r.1.2), r.2)
    | .ok addr => req.finish addr r.2 >>= fun m => .ok ((addr, r.1.2), m)) := by
  cases req with
  | malloca size =>
      simp only [PageRequest.run, malloca, pageMmap, PageRequest.passed, PageRequest.numPages,
        PageRequest.bytes]
      congr 1
      funext r
      obtain ⟨⟨w, t'⟩, m'⟩ := r
      cases w <;> rfl
  | calloca nmemb size =>
      have hle : nmemb * size ≤ 4294967296 - 4096 := not_lt.mp h
      have hnew : u32 (addrPage (u32 (nmemb * size + pageSize - 1)) * pageSize) =
          addrPage (u32 (nmemb * size + pageSize - 1)) * pageSize ∧
          ¬ 4294967296 ≤ nmemb * size + u32Sub (u32 (addrPage (u32 (nmemb * size + pageSize - 1)) *
            pageSize)) (nmemb * size) := by
        simp only [addrPage, u32, u32Sub, pageSize]
        omega
      simp only [PageRequest.run, calloca]
      rw [if_neg (by omega), if_neg hnew.2, hnew.1]
      rfl

lemma run_overflows (h : req.Overflows) : req.run t m = .ok ((0, t), m) := by
  cases req with
  | malloca size => exact h.elim
  | calloca nmemb size =>
      simp only [PageRequest.run, calloca]
      by_cases hmul : 4294967296 ≤ nmemb * size
      · rw [if_pos hmul]
      · have hlt : 4294967296 - 4096 < nmemb * size := h
        rw [if_neg hmul, if_pos]
        simp only [addrPage, u32, u32Sub, pageSize]
        omega

lemma refused_iff : Refused kernelVirtualBase passed defaultKProt defaultFlags 0 ↔
    passed % pageSize ≠ 0 := by
  have h₁ : defaultFlags &&& unsupportedFlags = 0 := by decide
  have h₂ : (defaultFlags &&& mapPrivate) ||| (defaultFlags &&& mapShared) ≠ 0 := by decide
  have h₃ : defaultFlags &&& mapAnonymous ≠ 0 := by decide
  have h₄ : kernelVirtualBase % pageSize = 0 := by decide
  have h₅ : defaultKProt ≠ 0 := by decide
  simp [Refused, h₁, h₂, h₃, h₄, h₅]

/-- The call of `allocate` behind it. -/
abbrev pageAllocate (passed : ℕ) (t : MemTree) (m : Memory) :
    Except Fault ((ℕ × MemTree) × Memory) :=
  mmapAllocate kernelVirtualBase passed defaultKProt defaultFlags .kernel false false t m

lemma pageMmap_window (hpages : passed % pageSize = 0)
    (h : pageAllocate passed t m = .ok ((addr, t'), m')) :
    pageMmap passed t m = .ok (((if addr = 0 then .error enomem else .ok addr), t'), m') := by
  have hfixed : isFixed defaultFlags = false := by decide
  simp only [pageAllocate] at h
  rw [pageMmap, mmap_accepted (by rw [refused_iff]; exact fun hn => hn hpages), h]
  simp only [bind, Except.bind, hfixed, Bool.false_eq_true, false_and, if_false]
  split_ifs <;> rfl

lemma pageMmap_error {f : Fault} (hpages : passed % pageSize = 0)
    (h : pageAllocate passed t m = .error f) : pageMmap passed t m = .error f := by
  simp only [pageAllocate] at h
  rw [pageMmap, mmap_accepted (by rw [refused_iff]; exact fun hn => hn hpages), h]
  rfl

lemma aligned_null (hover : ¬ req.Overflows) {err : ℤ}
    (h : pageMmap req.passed t m = .ok ((.error err, t'), m')) (hframes : m'.frames = m.frames) :
    AlignedRight req t m := by
  refine ⟨0, t', m', ?_, Or.inl ⟨rfl, hframes⟩⟩
  rw [run_eq hover, h]
  rfl

/-! ## A window -/

lemma zeroed_le (hpages : req.passed % pageSize = 0) (hle : req.bytes ≤ req.passed) :
    req.zeroed ≤ req.passed := by
  cases req with
  | malloca size => exact Nat.zero_le _
  | calloca nmemb size =>
      have hlt : (PageRequest.calloca nmemb size).passed < 4294967296 := Nat.mod_lt _ (by decide)
      simp only [PageRequest.zeroed, PageRequest.numPages, addrPage, u32]
      simp only [PageRequest.bytes] at *
      simp only [pageSize] at *
      omega

/-- The pages that are zeroed, from `addr` on, can be written if they are present. -/
def PageRequest.Writable (req : PageRequest) (addr : ℕ) (m : Memory) : Prop :=
  ∀ x, addr ≤ x → x < addr + req.zeroed → (m.pte .kernel (addrPage x)).flags.present = true →
    (m.pte .kernel (addrPage x)).flags.write = true

/-- What a window at `addr` needs. -/
def Suits (req : PageRequest) (addr : ℕ) (m : Memory) : Prop :=
  addr % pageSize = 0 ∧ req.bytes ≤ req.passed ∧ req.Writable addr m

lemma zeroOut_writable (hmax : addr + n ≤ 4294967296)
    (hlazy : ∀ i, (m.pte .kernel i).flags.present = true → (m.pte .kernel i).flags.lazyZero = false)
    (h : zeroOutPossiblyLazilyAllocatedMemory n addr .kernel m = .ok m') :
    ∀ x, addr ≤ x → x < addr + n → (m.pte .kernel (addrPage x)).flags.present = true →
      (m.pte .kernel (addrPage x)).flags.write = true := by
  intro x h₁ h₂
  rw [zeroOut_eq] at h
  obtain ⟨r, hr, hlo, hhi⟩ := (mem_zeroParts hmax x).mpr ⟨h₁, h₂⟩
  have hin := zeroParts_inPage hr
  have hpage : addrPage r.1 = addrPage x := by
    simp only [addrPage, pageSize] at *
    omega
  rw [← hpage]
  exact parts_writable hlazy h r hr (by omega)

/-- **What is done with a window** that is big enough: it goes through iff the pages that are zeroed
can be written, and writes nothing else. -/
lemma finish_spec (hle : req.zeroed ≤ n) (haddr : addr < 4294967296) (hmax : addr + n ≤ 4294967296)
    (hlazy : ∀ i, (m.pte .kernel i).flags.present = true → (m.pte .kernel i).flags.lazyZero = false) :
    ((∃ m', req.finish addr m = .ok m') ↔ req.Writable addr m) ∧
      ∀ m', req.finish addr m = .ok m' → m'.pte = m.pte ∧
        ∀ f o, m'.frames f o ≠ m.frames f o → ShownIn .kernel m' addr (addr + n) f o := by
  cases req with
  | malloca size =>
      refine ⟨iff_of_true ⟨m, rfl⟩ fun x h₁ h₂ => absurd h₁ (not_le.mpr h₂), fun m' h => ?_⟩
      obtain rfl := Except.ok.inj h
      exact ⟨rfl, fun f o hne => absurd rfl hne⟩
  | calloca nmemb size =>
      have hspec : (PageRequest.calloca nmemb size).Writable addr m → _ := fun hwrite =>
        @zeroOut_spec m .kernel addr (PageRequest.calloca nmemb size).zeroed (by omega)
          (by simp only [addrPage, ProcId.entries, numFrames]; omega) fun x h₁ h₂ =>
            ⟨by simp only [addrPage, ProcId.entries, numFrames]; omega, hwrite x h₁ h₂⟩
      refine ⟨⟨?_, fun hwrite => ?_⟩, fun m' h => ?_⟩
      · rintro ⟨m', h⟩
        exact zeroOut_writable (by omega) hlazy h
      · obtain ⟨m', hzero, -⟩ := hspec hwrite
        exact ⟨m', hzero⟩
      · obtain ⟨m₁, hzero, hsame, -, hother⟩ := hspec (zeroOut_writable (by omega) hlazy h)
        obtain rfl := Except.ok.inj (hzero.symm.trans h)
        have hpte := pte_of_frames hsame
        refine ⟨hpte, fun f o hne => ?_⟩
        by_contra hout
        refine hne (hother f o fun hshown => hout ?_)
        obtain ⟨x, h₁, h₂, hrest⟩ := hshown
        exact ⟨x, h₁, by omega, by rw [hpte]; exact hrest⟩

/-- **A window that is not null**: the request is right iff the window is aligned and big enough,
and the pages that are zeroed can be written. -/
lemma aligned_window (hover : ¬ req.Overflows) (hpages : req.passed % pageSize = 0)
    (hmmap : pageMmap req.passed t m = .ok ((.ok addr, t'), m₁)) (hnull : addr ≠ 0)
    (hframes : m₁.frames = m.frames) (haddr : addr < 4294967296)
    (hmax : addr + req.passed ≤ 4294967296)
    (hlazy : ∀ i, (m₁.pte .kernel i).flags.present = true →
      (m₁.pte .kernel i).flags.lazyZero = false)
    (hnode : ∃ c ∈ t'.inorder, c.used = true ∧ c.start = addr ∧ nodeSize c = req.passed)
    (hunique : req.passed ≠ 0 → ∀ c ∈ t'.inorder, c.used = true → c.start = addr →
      nodeSize c = req.passed) :
    AlignedRight req t m ↔ Suits req addr m₁ := by
  have hrun : req.run t m = (req.finish addr m₁ >>= fun m => .ok ((addr, t'), m)) := by
    rw [run_eq hover, hmmap]
    rfl
  constructor
  · rintro ⟨addr', t₂, m', hok, hright⟩
    rw [hrun] at hok
    obtain ⟨m₂, hfinish, hok⟩ := bind_eq_ok.mp hok
    simp only [Except.ok.injEq, Prod.mk.injEq] at hok
    obtain ⟨⟨rfl, rfl⟩, rfl⟩ := hok
    obtain ⟨-, hblock⟩ := hright.resolve_left fun h => hnull h.1
    obtain ⟨d, hd, hdu, hds, hdsize⟩ := hnode
    have hbytes := (hblock.covers d hd hdu hds).1
    rw [hdsize] at hbytes
    have hspec := (finish_spec (zeroed_le hpages hbytes) haddr hmax hlazy).1
    exact ⟨hblock.aligned, hbytes, hspec.mp ⟨_, hfinish⟩⟩
  · rintro ⟨halign, hle, hwrite⟩
    have hzle := zeroed_le hpages hle
    obtain ⟨m', hfinish⟩ := (finish_spec hzle haddr hmax hlazy).1.mpr hwrite
    obtain ⟨d, hd, hdu, hds, -⟩ := hnode
    refine ⟨addr, t', m', by rw [hrun, hfinish]; rfl, Or.inr ⟨hnull, halign, ⟨d, hd, hdu, hds⟩, ?_⟩⟩
    intro c hc hcu hcs
    -- every node there is big enough
    have hsize : req.bytes ≤ nodeSize c ∧ req.zeroed ≤ nodeSize c ∧
        addr + nodeSize c ≤ 4294967296 ∨ req.bytes = 0 ∧ req.zeroed = 0 := by
      by_cases h₀ : req.passed = 0
      · omega
      · have hcsize := hunique h₀ c hc hcu hcs
        omega
    refine ⟨by omega, fun f o hne => ?_⟩
    rw [← hframes] at hne
    have hshown : ∀ n, req.zeroed ≤ n → addr + n ≤ 4294967296 →
        ShownIn .kernel m' addr (addr + n) f o := fun n h₁ h₂ =>
      ((finish_spec h₁ haddr h₂ hlazy).2 m' hfinish).2 f o hne
    rw [hcs]
    rcases hsize with ⟨-, h₁, h₂⟩ | ⟨-, h₀⟩
    · exact hshown _ h₁ h₂
    · -- nothing is zeroed
      obtain ⟨x, h₁, h₂, -⟩ := hshown 0 h₀.le (by omega)
      omega

/-! ## The nodes at the window -/

lemma used_mem_allocateIn (info : PageInfo) (hsub : t.subtree p = node d a b) (hd : d.used = false)
    (hsize : n ≤ nodeSize d) (hc : c ∈ (allocateIn p n info t).2.inorder) (hcu : c.used = true) :
    c ∈ t.inorder ∨ c.start = d.start ∧ nodeSize c = n := by
  have hlt : nodeSize d < 4294967296 := Nat.mod_lt _ (by decide)
  obtain ⟨A, B, hsplit, hmap, -⟩ := exists_split hsub
  by_cases hshrink : u32Sub (nodeSize d) n = 0
  · rw [u32Sub_of_le hsize hlt] at hshrink
    simp only [allocateIn, hsub, root?, u32Sub_of_le hsize hlt, hshrink, ne_eq, not_true_eq_false,
      if_false] at hc
    rw [hmap fun d => { d with used := true }] at hc
    rw [hsplit]
    simp only [List.mem_append, List.mem_cons] at hc ⊢
    rcases hc with hc | rfl | hc
    · exact Or.inl (Or.inl hc)
    · refine Or.inr ⟨rfl, ?_⟩
      change nodeSize d = n
      omega
    · exact Or.inl (Or.inr (Or.inr hc))
  · -- the tree with the node cut and what is left of it put back
    have h₁ := subtree_modifyAt (mapRoot (shrinkBlock (u32Sub (nodeSize d) n))) p t (by simp [hsub])
    rw [hsub, mapRoot] at h₁
    obtain ⟨a₂, b₂, h₂⟩ := @BST.subtree_addNode _ compareFunc (leftOver d n info) p _ _ a b h₁
    obtain ⟨A₂, B₂, hsplit₂, hmap₂, -⟩ := exists_split h₂
    have hcut : ∀ e, e ∈ A₂ ++ shrinkBlock (u32Sub (nodeSize d) n) d :: B₂ →
        e.used = true → e ∈ t.inorder := by
      intro e he heu
      rw [← hsplit₂] at he
      rcases BST.mem_addNode.mp he with rfl | he
      · simp at heu
      · rw [hmap (shrinkBlock (u32Sub (nodeSize d) n))] at he
        rw [hsplit]
        simp only [List.mem_append, List.mem_cons] at he ⊢
        rcases he with he | rfl | he
        · exact Or.inl he
        · exact absurd heu (by simp [shrinkBlock, hd])
        · exact Or.inr (Or.inr he)
    have hlist : (allocateIn p n info t).2.inorder =
        A₂ ++ { shrinkBlock (u32Sub (nodeSize d) n) d with used := true } :: B₂ := by
      rw [← hmap₂ fun d => { d with used := true }]
      simp only [allocateIn, hsub, root?]
      rw [if_pos hshrink]
      rfl
    rw [hlist] at hc
    simp only [List.mem_append, List.mem_cons] at hc hcut
    rcases hc with hc | rfl | hc
    · exact Or.inl (hcut c (Or.inl hc) hcu)
    · refine Or.inr ⟨rfl, ?_⟩
      simp only [shrinkBlock, nodeSize, u32Sub] at *
      omega
    · exact Or.inl (hcut c (Or.inr (Or.inr hc)) hcu)

lemma not_used_at (h : Layout t.inorder) (hd : d ∈ t.inorder) (hdu : d.used = false)
    (hne : d.start < d.end_) (hc : c ∈ t.inorder) (hcu : c.used = true) : c.start ≠ d.start := by
  intro hstart
  have hcne := h.used_nonempty c hc hcu
  rcases h.apart hc hd (by rintro rfl; simp [hdu] at hcu) hcne hne with hend | hend
  · omega
  · omega

/-! ## The two ways to a window -/

/-- The page policy that is asked for. -/
def pageInfo : PageInfo := ⟨defaultFlags, pagePolicy⟩

section

variable (hlayout : Layout t.inorder)
  (hlazy : ∀ i, (m.pte .kernel i).flags.present = true → (m.pte .kernel i).flags.lazyZero = false)
  (hover : ¬ req.Overflows) (hpages : req.passed % pageSize = 0)

include hover hpages

lemma aligned_of_null (hall : pageAllocate req.passed t m = .ok ((0, t'), m'))
    (hframes : m'.frames = m.frames) : AlignedRight req t m := by
  have hmmap : pageMmap req.passed t m = .ok ((.error enomem, t'), m') := by
    rw [pageMmap_window hpages hall, if_pos rfl]
  exact aligned_null hover hmmap hframes

lemma aligned_sbrk_null (hfind : findFreeBlock req.passed (pageHint m) t = none)
    (hsbrk : sbrk .kernel (numPagesFor req.passed) pageInfo (pageHint m) m = .ok (0, m')) :
    AlignedRight req t m := by
  have hall : pageAllocate req.passed t m = .ok ((0, t), m') := by
    rw [pageAllocate, mmapAllocate]
    have hasked := allocate_asked rfl hfind hsbrk
    rwa [if_pos rfl] at hasked
  exact aligned_of_null hover hpages hall (sbrk_frames hsbrk)

lemma not_aligned_error {f : Fault} (hfind : findFreeBlock req.passed (pageHint m) t = none)
    (hsbrk : sbrk .kernel (numPagesFor req.passed) pageInfo (pageHint m) m = .error f) :
    ¬ AlignedRight req t m := by
  rintro ⟨addr, t', m', hok, -⟩
  have hall : pageAllocate req.passed t m = .error f := allocate_failed rfl hfind hsbrk
  rw [run_eq hover, pageMmap_error hpages hall] at hok
  simp [bind, Except.bind] at hok

include hlayout

section

include hlazy

lemma aligned_found (hfind : findFreeBlock req.passed (pageHint m) t = some p)
    (hsub : t.subtree p = node d a b) :
    AlignedRight req t m ↔ d.start = 0 ∨ Suits req d.start m := by
  obtain ⟨d', a', b', hsub', hdu, hbig⟩ := findFreeBlock_some hfind
  rw [hsub] at hsub'
  obtain ⟨rfl, rfl, rfl⟩ := node.inj hsub'
  obtain ⟨A, B, hsplit, -, -⟩ := exists_split hsub
  have hdm : d ∈ t.inorder := by simp [hsplit]
  have hns := hlayout.nodeSize_eq hdm
  have hmax := hlayout.lt_max d hdm
  have hle := hlayout.start_le hdm
  have hnode := allocateIn_nodeSize pageInfo hsub hbig
  have hmem := fun c => used_mem_allocateIn (c := c) pageInfo hsub hdu hbig
  have hfst : (allocateIn p req.passed pageInfo t).1 = d.start := allocateIn_fst hsub
  rcases hin : allocateIn p req.passed pageInfo t with ⟨addr, t'⟩
  rw [hin] at hnode hmem hfst
  simp only at hnode hmem hfst
  subst hfst
  have hall : pageAllocate req.passed t m = .ok ((d.start, t'), m) := by
    rw [← hin]
    exact allocate_found rfl hfind
  by_cases hnull : d.start = 0
  · rw [hnull] at hall
    exact iff_of_true (aligned_of_null hover hpages hall rfl) (Or.inl hnull)
  · rw [or_iff_right hnull]
    refine aligned_window hover hpages ?_ hnull rfl (by omega) (by omega) hlazy hnode ?_
    · rw [pageMmap_window hpages hall, if_neg hnull]
    · intro hpos c hc hcu hcs
      rcases hmem c hc hcu with hc | hc
      · exact absurd hcs (not_used_at hlayout hdm hdu (by omega) hc hcu)
      · exact hc.2

end

lemma aligned_pages (hused : ∀ x, Covers t.inorder x → (m.pte .kernel (addrPage x)).used = true)
    (hlazy : ∀ i, (m.pte .kernel i).flags.present = true → (m.pte .kernel i).flags.lazyZero = false)
    (hfind : findFreeBlock req.passed (pageHint m) t = none) (hfull : m.lowestFreeFrame ≠ numFrames)
    (hfound : getContiguousPages (numPagesFor req.passed) (pageHint m) .kernel m = .ok (some n))
    (hnull : n * pageSize ≠ 0)
    (hsbrk : sbrk .kernel (numPagesFor req.passed) pageInfo (pageHint m) m =
      .ok (n * pageSize, m₁)) :
    AlignedRight req t m ↔ req.bytes ≤ req.passed := by
  have hlt : req.passed < 4294967296 := by cases req <;> exact Nat.mod_lt _ (by decide)
  obtain ⟨hn, hunused, -⟩ := getContiguousPages_spec hfound
  have htwo : 2 ≤ numPagesFor req.passed := le_max_left _ _
  have hbytes : req.passed ≤ numPagesFor req.passed * pageSize := by
    simp only [numPagesFor, addrPage, u32, pageSize] at *
    omega
  -- what `sbrk` leaves
  obtain ⟨-, m₂, hloops, m₃, hadv, hr⟩ := (sbrk_found_eq_ok hfull hfound rfl).mp hsbrk
  simp only [Prod.mk.injEq, true_and] at hr
  subst hr
  obtain ⟨pe, -, rfl⟩ := advanceLowestPe_spec hadv
  have hfill := sbrkPages_filling rfl hn hloops
  have hlazy₁ : ∀ i, ((m₂.setLowestPe .kernel pe).pte .kernel i).flags.present = true →
      ((m₂.setLowestPe .kernel pe).pte .kernel i).flags.lazyZero = false := by
    intro i hi
    rw [pte_setLowestPe] at hi ⊢
    by_cases hin : n ≤ i ∧ i < n + numPagesFor req.passed
    · rw [hfill.flags i hin.1 hin.2]
      rfl
    · rw [hfill.other i hin] at hi ⊢
      exact hlazy i hi
  -- the block
  set d := physicalNode (n * pageSize) req.passed pageInfo with hd
  have hsub := @BST.subtree_addNodePath _ compareFunc d t
  have hbig : req.passed ≤ nodeSize d := nodeSize_physicalNode hpages hlt
  have hnode := allocateIn_nodeSize pageInfo hsub hbig
  have hmem := fun c => used_mem_allocateIn (c := c) pageInfo hsub rfl hbig
  have hfst : (allocateIn (BST.addNodePath compareFunc d t) req.passed pageInfo
      (addNode d t)).1 = n * pageSize := allocateIn_fst hsub
  rcases hin : allocateIn (BST.addNodePath compareFunc d t) req.passed pageInfo (addNode d t) with
    ⟨addr, t'⟩
  rw [← addNode, hin] at hnode hmem
  rw [hin] at hfst
  simp only at hnode hmem hfst
  subst hfst
  have hall : pageAllocate req.passed t m = .ok ((n * pageSize, t'), m₂.setLowestPe .kernel pe) := by
    rw [← hin, pageAllocate, mmapAllocate]
    have hasked := allocate_asked rfl hfind hsbrk
    rwa [if_neg hnull] at hasked
  simp only [ProcId.entries, numFrames, pageSize] at hn hbytes hnull hall hnode hmem ⊢
  rw [aligned_window hover hpages (by rw [pageMmap_window hpages hall, if_neg hnull]) hnull
    (sbrk_frames hsbrk) (by omega) (by omega) hlazy₁ hnode ?_]
  · constructor
    · exact fun h => h.2.1
    · intro hle
      have hzle := zeroed_le hpages hle
      refine ⟨by simp [pageSize], hle, fun x h₁ h₂ _ => ?_⟩
      rw [pte_setLowestPe, hfill.flags _ (by simp only [addrPage]; omega)
        (by simp only [addrPage]; omega)]
      rfl
  · intro _ c hc hcu hcs
    rcases hmem c hc hcu with hc | hc
    · rcases BST.mem_addNode.mp hc with rfl | hc
      · simp [hd] at hcu
      · -- its page would be used
        have hne := hlayout.used_nonempty c hc hcu
        have hx := hused (n * 4096) ⟨c, hc, by omega, by omega⟩
        rw [show addrPage (n * 4096) = n by simp [addrPage],
          hunused n le_rfl (by simp [numPagesFor])] at hx
        exact Bool.noConfusion hx
    · exact hc.2

end

/-- What a request needs that is not refused: a free node that suits it; or no free node, and no pages
either, or pages with room for them in `sbrk` when `mmap` is asked for enough bytes. -/
def PageRoom (req : PageRequest) (t : MemTree) (m : Memory) : Prop :=
  (∃ p d a b, findFreeBlock req.passed (pageHint m) t = some p ∧ t.subtree p = node d a b ∧
      (d.start = 0 ∨ Suits req d.start m)) ∨
    findFreeBlock req.passed (pageHint m) t = none ∧
      (m.lowestFreeFrame = numFrames ∨
        getContiguousPages (numPagesFor req.passed) (pageHint m) .kernel m = .ok none ∨
        ∃ b, getContiguousPages (numPagesFor req.passed) (pageHint m) .kernel m = .ok (some b) ∧
          Room .kernel (numPagesFor req.passed) b pagePolicy m ∧ (b = 0 ∨ req.bytes ≤ req.passed))

/-- **`malloca` and `calloca`** return null or an aligned block that is big enough, and write nothing
else, iff the product is too big, or `mmap` refuses the number of bytes it is given, or there is
room. -/
theorem aligned_right_iff (hlayout : Layout t.inorder)
    (hused : ∀ x, Covers t.inorder x → (m.pte .kernel (addrPage x)).used = true)
    (hlazy : ∀ i, (m.pte .kernel i).flags.present = true →
      (m.pte .kernel i).flags.lazyZero = false) :
    AlignedRight req t m ↔ req.Overflows ∨ req.passed % pageSize ≠ 0 ∨ PageRoom req t m := by
  by_cases hover : req.Overflows
  · exact iff_of_true ⟨0, t, m, run_overflows hover, Or.inl ⟨rfl, rfl⟩⟩ (Or.inl hover)
  by_cases hpages : req.passed % pageSize = 0
  swap
  · have hmmap : pageMmap req.passed t m = .ok ((.error einval, t), m) :=
      mmap_refused (refused_iff.mpr hpages)
    exact iff_of_true (aligned_null hover hmmap rfl) (Or.inr (Or.inl hpages))
  simp only [hover, hpages, ne_eq, not_true_eq_false, false_or, PageRoom]
  cases hfind : findFreeBlock req.passed (pageHint m) t with
  | some p =>
      obtain ⟨d, a, b, hsub, -, -⟩ := findFreeBlock_some hfind
      rw [aligned_found hlayout hlazy hover hpages hfind hsub]
      simp [hsub]
  | none =>
      simp only [reduceCtorEq, false_and, exists_false, true_and, false_or]
      by_cases hfull : m.lowestFreeFrame = numFrames
      · have hsbrk : sbrk .kernel (numPagesFor req.passed) pageInfo (pageHint m) m = .ok (0, m) := by
          rw [sbrk, if_pos hfull]
        exact iff_of_true (aligned_sbrk_null hover hpages hfind hsbrk) (Or.inl hfull)
      simp only [hfull, false_or]
      cases hgot : getContiguousPages (numPagesFor req.passed) (pageHint m) .kernel m with
      | error f =>
          have hsbrk : sbrk .kernel (numPagesFor req.passed) pageInfo (pageHint m) m = .error f := by
            rw [sbrk, if_neg hfull, hgot]
            rfl
          exact iff_of_false (not_aligned_error hover hpages hfind hsbrk) (by simp)
      | ok found =>
          cases found with
          | none =>
              have hsbrk : sbrk .kernel (numPagesFor req.passed) pageInfo (pageHint m) m =
                  .ok (0, m) := by
                rw [sbrk, if_neg hfull, hgot]
                rfl
              exact iff_of_true (aligned_sbrk_null hover hpages hfind hsbrk) (Or.inl rfl)
          | some b =>
              have hroom : _ ↔ Room .kernel (numPagesFor req.passed) b pagePolicy m :=
                @sbrk_found_iff m .kernel _ b pageInfo _ hfull hgot rfl
              simp only [Except.ok.injEq, reduceCtorEq, Option.some.injEq, false_or, exists_eq_left']
              cases hsbrk : sbrk .kernel (numPagesFor req.passed) pageInfo (pageHint m) m with
              | error f =>
                  refine iff_of_false (not_aligned_error hover hpages hfind hsbrk) ?_
                  rintro ⟨hr, -⟩
                  obtain ⟨r, hok⟩ := hroom.mpr hr
                  rw [hsbrk] at hok
                  simp at hok
              | ok r =>
                  obtain ⟨alloc, m₁⟩ := r
                  rw [and_iff_right (hroom.mp ⟨_, hsbrk⟩)]
                  obtain rfl := sbrk_found hfull hgot hsbrk
                  by_cases hb : b * pageSize = 0
                  · rw [hb] at hsbrk
                    refine iff_of_true (aligned_sbrk_null hover hpages hfind hsbrk) (Or.inl ?_)
                    simpa [pageSize] using hb
                  · rw [aligned_pages hlayout hover hpages hused hlazy hfind hfull hgot hb hsbrk,
                      or_iff_right (fun h₀ => hb (by rw [h₀, Nat.zero_mul]))]

end

/-- A page, with two frames left. -/
theorem aligned_right_page : AlignedRight (.malloca 4096) nil (framesFrom 1048574) := by
  refine (aligned_right_iff ⟨⟨by simp, by simp⟩, by simp, by simp⟩ (fun x hx => ?_) fun i => ?_).mpr
    (Or.inr (Or.inr (Or.inr ⟨by decide, Or.inr (Or.inr ⟨790528, by decide +kernel, ?_,
      Or.inr (by decide)⟩)⟩)))
  · simp at hx
  · simp only [framesFrom, bootMemory, pte]
    split_ifs <;> simp
  · have hlist : freeFrames (framesFrom 1048574) = [1048574, 1048575] := by decide +kernel
    refine ⟨⟨rfl, rfl⟩, fun h => absurd rfl h, fun _ k hk => ?_, fun _ h => absurd rfl h,
      790530, by decide +kernel⟩
    rw [hlist]
    have hk : k < 2 := hk
    interval_cases k
    · exact ⟨1048574, rfl, by decide +kernel⟩
    · exact ⟨1048575, rfl, by decide +kernel⟩

/-- **Four elements of 2048 bytes** get a node of one page, and two pages are zeroed. -/
theorem calloca_too_small : ¬ AlignedRight (.calloca 4 2048) nil (framesFrom 1048574) := by
  have hrun : ((PageRequest.calloca 4 2048).run nil (framesFrom 1048574)).map
      (fun r => (r.1.1, r.1.2.inorder)) = .ok (790528 * 4096,
        [⟨790528 * 4096, 790529 * 4096, pageInfo, true⟩,
          ⟨790529 * 4096, 790530 * 4096, pageInfo, false⟩]) := by
    decide +kernel
  rintro ⟨addr, t', m', hok, hright⟩
  rw [hok] at hrun
  simp only [Except.map, Except.ok.injEq, Prod.mk.injEq] at hrun
  obtain ⟨rfl, hlist⟩ := hrun
  obtain ⟨-, hblock⟩ := hright.resolve_left fun h => absurd h.1 (by decide)
  have hsize := (hblock.covers ⟨790528 * 4096, 790529 * 4096, pageInfo, true⟩
    (by simp [hlist]) rfl rfl).1
  simp [PageRequest.bytes, nodeSize, u32Sub] at hsize

end BrebOS.Memory

import BrebOS.Core.Memtree.Realloc

/-!
# When `realloc` keeps the tree valid

A `Valid` tree has no empty node and no two nodes with one start.  `realloc` breaks this in exactly
two ways.  An in-place exit with **nothing left over** inserts an empty node: the test is
`size <= base_node_size`, so the branch for equal sizes behind it is never reached.  And a move
with a size above `2^32 - 4096` makes `node_physical_alloc` round the page count **past `2^32`**,
so that the node made of two pages is cut to a size it does not have.
-/

namespace BrebOS.MemTree

open BinaryTree Ranges

variable {σ : Type} {sbrk : ℕ → PageInfo → HintInfo → σ → Except Fault (ℕ × σ)}
  {t t' : MemTree} {p : Path} {d : Allocation} {a b : MemTree}

/-- Whether an in-place exit is taken with nothing left over: the size asked for is that of the
block, or that of the block after the successor merge. -/
def leavesEmpty (address size : ℕ) (t : MemTree) : Bool :=
  match findAllocationNode address t with
  | none => false
  | some ptr =>
      match (t.subtree ptr).root?, ((grow ptr t).subtree ptr).root? with
      | some d, some m => size == nodeSize d || (nodeSize d < size && size == nodeSize m)
      | _, _ => false

/-- The request is moved to fresh pages although its page count wraps: no free node is big enough,
and `sbrk` answers the request for two pages. -/
def WrapsAround (sbrk : ℕ → PageInfo → HintInfo → σ → Except Fault (ℕ × σ)) (address size : ℕ)
    (t : MemTree) (s : σ) : Prop :=
  2 ^ 32 - 4096 < size ∧ ∃ ptr m, findAllocationNode address t = some ptr ∧
    ((grow ptr t).subtree ptr).root? = some m ∧ nodeSize m < size ∧
    findFreeBlock size defaultHintInfo (grow ptr t) = none ∧
    ∃ alloc s', alloc ≠ 0 ∧ sbrk (numPagesFor size) m.pageInfo defaultHintInfo s = .ok (alloc, s')

lemma allocateIn_mem {size : ℕ} (info : PageInfo) (hsub : t.subtree p = node d a b)
    (hshrink : u32Sub (nodeSize d) size ≠ 0) :
    ∃ c ∈ (allocateIn p size info t).2.inorder, c.used = true ∧ c.start = d.start ∧
      c.end_ = u32Sub d.end_ (u32Sub (nodeSize d) size) := by
  have h₁ := subtree_modifyAt (mapRoot (shrinkBlock (u32Sub (nodeSize d) size))) p t
    (by simp [hsub])
  rw [hsub, mapRoot] at h₁
  obtain ⟨a₂, b₂, h₂⟩ := @BST.subtree_addNode _ compareFunc
    { start := (shrinkBlock (u32Sub (nodeSize d) size) d).end_,
      end_ := u32 ((shrinkBlock (u32Sub (nodeSize d) size) d).end_ + u32Sub (nodeSize d) size),
      pageInfo := info } p _ _ a b h₁
  obtain ⟨A, B, -, hmap, -⟩ := exists_split h₂
  refine ⟨{ shrinkBlock (u32Sub (nodeSize d) size) d with used := true }, ?_, rfl, rfl, rfl⟩
  simp only [allocateIn, hsub, root?]
  rw [if_pos hshrink, addNode, hmap]
  simp

/-- **The wrapped move** leaves a used node that ends before it starts. -/
lemma wrapped_mem {size addr alloc : ℕ} {info : PageInfo} {s s' s₁ : σ}
    (hbig : 2 ^ 32 - 4096 < size) (hlt : size < 2 ^ 32) (hfresh : SbrkFresh sbrk t s)
    (hnone : findFreeBlock size defaultHintInfo t = none) (halloc : alloc ≠ 0)
    (hsbrk : sbrk (numPagesFor size) info defaultHintInfo s = .ok (alloc, s₁))
    (hrun : allocate sbrk size info defaultHintInfo t s = .ok ((addr, t'), s')) :
    addr ≠ 0 ∧ ∃ c ∈ t'.inorder, c.used = true ∧ c.end_ < c.start := by
  have hpages : numPagesFor size = 2 := by
    simp only [numPagesFor, addrPage, u32, pageSize]
    omega
  obtain ⟨halign, hmax, -⟩ := hfresh _ _ _ _ _ (by simp [numPagesFor]) hsbrk halloc
  rw [hpages] at hmax
  simp only [pageSize] at halign hmax
  have hend : (physicalNode alloc size info).end_ = alloc + 8192 := by
    simp only [hpages, pageSize]
    exact u32_of_lt (by omega)
  have hns : nodeSize (physicalNode alloc size info) = 8192 := by
    rw [nodeSize, hend, u32Sub_of_le (by simp) (by omega)]
    simp
  rcases allocate_cases hrun with ⟨q, hfind, -⟩ | ⟨-, alloc', hsbrk', hcase⟩
  · simp [hnone] at hfind
  · rw [hsbrk, Except.ok.injEq, Prod.mk.injEq] at hsbrk'
    obtain ⟨rfl, -⟩ := hsbrk'
    rcases hcase with ⟨h₀, -⟩ | ⟨-, hin⟩
    · exact absurd h₀ halloc
    · have hsub := @BST.subtree_addNodePath _ compareFunc (physicalNode alloc size info) t
      have hshrink : u32Sub (nodeSize (physicalNode alloc size info)) size ≠ 0 := by
        rw [hns]
        simp only [u32Sub]
        omega
      obtain ⟨c, hc, hcu, hcs, hce⟩ := allocateIn_mem info hsub hshrink
      have haddr : addr = alloc := by
        have : (allocateIn (BST.addNodePath compareFunc (physicalNode alloc size info) t) size info
            (addNode (physicalNode alloc size info) t)).1 = alloc := by
          rw [addNode]
          simp only [allocateIn, hsub, root?]
        rw [hin] at this
        exact this
      rw [← addNode, hin] at hc
      refine ⟨haddr ▸ halloc, c, hc, hcu, ?_⟩
      rw [hcs, hce, hns, hend]
      simp only [u32Sub]
      omega

lemma not_valid_of_mem {c : Allocation} (hc : c ∈ t.inorder) (hle : c.end_ ≤ c.start) :
    ¬ Valid t := fun h => absurd (h.nonempty c hc) (by omega)

lemma reallocInPlace_valid_iff {address size : ℕ} (h : Layout t.inorder) (hf : Full t.inorder)
    (hsub : t.subtree p = node d a b) (hpos : 0 < size) (hsize : size ≤ nodeSize d) :
    Valid (reallocInPlace p d address size t).tree ↔ size ≠ nodeSize d := by
  obtain ⟨hlay, hmem⟩ := reallocInPlace_spec address h hsub hpos hsize
  have hd := mem_of_subtree hsub
  have hns := h.nodeSize_eq hd
  have hde := hf d hd
  constructor
  · rintro hv rfl
    exact not_valid_of_mem ((hmem _).mpr (Or.inr (Or.inl rfl))) (by simp only; omega) hv
  · intro hne
    refine hlay.valid fun c hc => ?_
    rcases (hmem c).mp hc with rfl | rfl | ⟨hc, -⟩
    · simp [hpos]
    · simp only
      omega
    · exact hf c hc

/-- **`realloc` and the validity of the tree.**  On a valid tree, a call for a live block keeps the
tree valid if and only if it neither leaves an empty remainder nor moves a request whose page count
wraps. -/
theorem realloc_valid_iff {proc : ProcId} {live : Allocation} {size : ℕ} {s s' : σ}
    {res : Reallocated} (hv : Valid t) (hmax : ∀ d ∈ t.inorder, d.end_ < 2 ^ 32)
    (hmem : live ∈ t.inorder) (hnull : live.start ≠ 0) (hpos : 1 ≤ size) (hlt : size < 2 ^ 32)
    (hfresh : SbrkFresh sbrk t s)
    (hrun : realloc sbrk proc live.start size t s = .ok (res, s')) :
    Valid res.tree ↔
      leavesEmpty live.start size t = false ∧ ¬ WrapsAround sbrk live.start size t s := by
  have hlay := hv.layout hmax
  have hfull : Full t.inorder := hv.nonempty
  obtain ⟨p', hp'⟩ := findAllocationNode_isSome hlay hmem rfl
  rcases realloc_cases hnull (by omega) hrun with ⟨hnone, -⟩ | ⟨p, d, a, b, hp, hsub, -, hcase⟩
  · simp [hnone] at hp'
  obtain ⟨m, b', hsub', hg, -⟩ := grow_spec hlay hsub
  have hd := mem_of_subtree hsub
  have hm := mem_of_subtree hsub'
  have hgrow : nodeSize d ≤ nodeSize m := by
    rw [hlay.nodeSize_eq hd, hg.layout.nodeSize_eq hm, hg.start]
    have := hg.le
    omega
  have hempty : leavesEmpty live.start size t = false ↔
      size ≠ nodeSize d ∧ (nodeSize d < size → size ≠ nodeSize m) := by
    simp [leavesEmpty, hp, hsub, hsub', root?]
  have hwraps : WrapsAround sbrk live.start size t s ↔ 2 ^ 32 - 4096 < size ∧ nodeSize m < size ∧
      findFreeBlock size defaultHintInfo (grow p t) = none ∧ ∃ alloc s₁, alloc ≠ 0 ∧
        sbrk (numPagesFor size) m.pageInfo defaultHintInfo s = .ok (alloc, s₁) := by
    simp [WrapsAround, hp, hsub', root?]
  have hfits : nodeSize m < size → (Fits sbrk size m.pageInfo defaultHintInfo (grow p t) s ↔
      ¬ WrapsAround sbrk live.start size t s) := fun hlt'' => by
    rw [hwraps, Fits]
    push Not
    exact ⟨fun h hbig _ hnone alloc s₁ halloc hrun' => by
        have := h hnone alloc s₁ halloc hrun'
        omega,
      fun h hnone alloc s₁ halloc hrun' => by
        by_contra hbig
        exact h (by omega) hlt'' hnone alloc s₁ halloc hrun'⟩
  rcases hcase with ⟨hle, rfl, -⟩ | ⟨hlt', m', a', b'', hsub'', hcase⟩
  · rw [reallocInPlace_valid_iff hlay hfull hsub (by omega) hle, hempty, hwraps]
    exact ⟨fun h => ⟨⟨h, fun _ => by omega⟩, fun hw => by omega⟩, fun h => h.1.1⟩
  · rw [hsub', node.injEq] at hsub''
    obtain ⟨rfl, rfl, rfl⟩ := hsub''
    rcases hcase with ⟨hle, rfl, -⟩ | ⟨hlt'', addr, t₂, hall, hcase⟩
    · rw [reallocInPlace_valid_iff hg.layout (hg.full hfull) hsub' (by omega) hle, hempty, hwraps]
      exact ⟨fun h => ⟨⟨by omega, fun _ => h⟩, fun hw => by omega⟩, fun h => h.1.2 hlt'⟩
    · have hsbrk := hg.sbrkFresh hfresh
      rw [hempty, ← hfits hlt'']
      constructor
      · -- a wrapped move leaves its node in the tree
        refine fun hvalid => ⟨⟨by omega, fun _ => by omega⟩, fun hnone alloc s₁ halloc hrun' => ?_⟩
        by_contra hbig
        obtain ⟨haddr, c, hc, hcu, hce⟩ :=
          wrapped_mem (by omega) hlt hsbrk hnone halloc hrun' hall
        rcases hcase with ⟨h₀, -⟩ | ⟨-, t₃, pages, hfree, rfl⟩
        · exact haddr h₀
        · obtain ⟨a₂, b₂, hsub₂⟩ := allocate_subtree hsub' hlt'' hall
          have hcm : c ≠ m := by
            rintro rfl
            have := hg.layout.start_le hm
            omega
          exact not_valid_of_mem (mem_freeNode hcu hcm hsub₂ hc hfree) hce.le hvalid
      · rintro ⟨-, hsize⟩
        rcases hcase with ⟨-, rfl⟩ | ⟨hne₀, t₃, pages, hfree, rfl⟩
        · rcases allocate_spec hg.layout (by omega) hsize hsbrk hall with ⟨-, rfl, -⟩ |
            ⟨blk, -, -, hblk, -⟩
          · exact hg.layout.valid (hg.full hfull)
          · exact hblk.layout.valid (hblk.full (hg.full hfull))
        · obtain ⟨hl, hf, -⟩ := move_spec hg.layout hsub' (by omega) hsize hsbrk hlt'' hne₀ hall hfree
          exact hl.valid (hf (hg.full hfull))

/-- Asking for the size a block already has inserts an empty node behind it, with the start of the
next block. -/
theorem realloc_same_size_invalid : Valid twoBlocks ∧
    ∃ res, realloc bumpSbrk (.user 0) 65536 8 twoBlocks 73728 = .ok (res, 73728) ∧
      (⟨65544, 65544, defaultUPageInfo, false⟩ : Allocation) ∈ res.tree.inorder ∧
      ¬ Valid res.tree := by
  have hrun : realloc bumpSbrk (.user 0) 65536 8 twoBlocks 73728 =
      .ok (⟨.ok, some 65536, node ⟨65536, 65544, defaultUPageInfo, true⟩ nil
        (node ⟨65544, 65552, defaultUPageInfo, true⟩
          (node ⟨65544, 65544, defaultUPageInfo, false⟩ nil nil)
          (node ⟨65552, 73728, defaultUPageInfo, false⟩ nil nil)), []⟩, 73728) := by
    decide +kernel
  refine ⟨(heapReachable_layout heapReachable_twoBlocks).valid (by simp [Full, twoBlocks]), _, hrun,
    by simp, not_valid_of_mem (c := ⟨65544, 65544, defaultUPageInfo, false⟩) (by simp) le_rfl⟩

/-- Shrinking the first of two blocks keeps the tree valid. -/
theorem realloc_valid_shrink : ∃ res,
    realloc bumpSbrk (.user 0) 65536 4 twoBlocks 73728 = .ok (res, 73728) ∧
      (Valid res.tree ↔ leavesEmpty 65536 4 twoBlocks = false ∧
        ¬ WrapsAround bumpSbrk 65536 4 twoBlocks 73728) := by
  have hrun : realloc bumpSbrk (.user 0) 65536 4 twoBlocks 73728 =
      .ok (⟨.ok, some 65536, node ⟨65536, 65540, defaultUPageInfo, true⟩ nil
        (node ⟨65544, 65552, defaultUPageInfo, true⟩
          (node ⟨65540, 65544, defaultUPageInfo, false⟩ nil nil)
          (node ⟨65552, 73728, defaultUPageInfo, false⟩ nil nil)), []⟩, 73728) := by
    decide +kernel
  have hmem : (⟨65536, 65544, defaultUPageInfo, true⟩ : Allocation) ∈ twoBlocks.inorder := by
    simp [twoBlocks]
  exact ⟨_, hrun, realloc_valid_iff
    ((heapReachable_layout heapReachable_twoBlocks).valid (by simp [Full, twoBlocks]))
    (by simp [twoBlocks]) hmem (by simp) (by decide) (by decide)
    (sbrkFresh_bumpSbrk (by decide) (by simp [twoBlocks])) hrun⟩

end BrebOS.MemTree

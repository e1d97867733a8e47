import BrebOS.Core.Memtree.Run

/-!
# `realloc`

`realloc` cuts the block in place when it is big enough, else merges it with its successor and
tries again, else moves it.  Two things go wrong on the way.  The merge is the one written for
*free* nodes, so on the used block that `realloc` holds it takes in a **live** neighbour
(`realloc_keepsOthers_iff`); and the in-place exits insert a remainder even when there is none
(`ReallocValid`).

`Layout` survives both, which is what makes statements about arbitrary runs possible: the empty
nodes that `realloc` leaves behind are free.
-/

namespace BrebOS.MemTree

open BinaryTree Ranges

variable {σ : Type} {sbrk : ℕ → PageInfo → HintInfo → σ → Except Fault (ℕ × σ)}
  {t t' : MemTree} {p : Path} {d : Allocation} {a b : MemTree}

/-! ## The successor merge -/

/-- The tree after `merge_node_with_free_successor` on the node at a path. -/
abbrev grow (p : Path) (t : MemTree) : MemTree :=
  t.modifyAt (fun u => (mergeNodeWithFreeSuccessor u).2) p

lemma grow_cases (hsub : t.subtree p = node d a b) :
    (mergeNodeWithFreeSuccessor (node d a b)).1 = false ∧ (grow p t).subtree p = node d a b ∧
        (grow p t).inorder = t.inorder ∨
      (mergeNodeWithFreeSuccessor (node d a b)).1 = true ∧
        ∃ cur A B b', cur.isSimilarAndContiguous d = true ∧ t.inorder = A ++ d :: cur :: B ∧
          (grow p t).subtree p = node { d with end_ := u32 (d.end_ + nodeSize cur) } a b' ∧
          (grow p t).inorder = A ++ { d with end_ := u32 (d.end_ + nodeSize cur) } :: B := by
  obtain ⟨pre, post, hpre, hmod⟩ := exists_context p t (by simp [hsub])
  have hgrow := subtree_modifyAt (fun u => (mergeNodeWithFreeSuccessor u).2) p t (by simp [hsub])
  rw [hsub] at hpre hmod hgrow
  rcases mergeSuccessor_eq d a b with heq | ⟨cur, rest, b', hb, hsim, heq, hb'⟩
  · refine Or.inl ⟨by rw [heq], by rw [hgrow, heq], ?_⟩
    rw [hmod, hpre, heq]
  · refine Or.inr ⟨by rw [heq], cur, pre ++ a.inorder, rest ++ post, b', hsim, ?_, ?_, ?_⟩
    · rw [hpre]
      simp [hb]
    · rw [hgrow, heq]
    · rw [hmod, heq]
      simp [hb']

/-- What the merge keeps, whatever it does: a node in place with the same start and flags. -/
structure Grown (t t' : MemTree) (d m : Allocation) : Prop where
  layout : Layout t'.inorder
  full : Full t.inorder → Full t'.inorder
  start : m.start = d.start
  info : m.pageInfo = d.pageInfo
  isUsed : m.used = d.used
  le : d.end_ ≤ m.end_
  fresh : ∀ {lo hi : ℕ}, lo < hi → (∀ c ∈ t.inorder, c.end_ ≤ lo ∨ hi ≤ c.start) →
    ∀ c ∈ t'.inorder, c.end_ ≤ lo ∨ hi ≤ c.start

lemma Grown.sbrkFresh {m : Allocation} {s : σ} (h : Grown t t' d m) (hfresh : SbrkFresh sbrk t s) :
    SbrkFresh sbrk t' s := by
  intro n info hint alloc s' hn hrun halloc
  obtain ⟨halign, hmax, hdisj⟩ := hfresh n info hint alloc s' hn hrun halloc
  have : 0 < n * pageSize := Nat.mul_pos hn (by decide)
  exact ⟨halign, hmax, h.fresh (by omega) hdisj⟩

/-- Whether the merge takes in a live block: it succeeds on a used node. -/
def mergesLive : MemTree → Bool
  | nil => false
  | node d l r => d.used && (mergeNodeWithFreeSuccessor (node d l r)).1

/-- **The merge on any node.**  Without a live neighbour the other used blocks stay; with one, that
block is gone and the node reaches to its end. -/
lemma grow_spec (h : Layout t.inorder) (hsub : t.subtree p = node d a b) :
    ∃ m b', (grow p t).subtree p = node m a b' ∧ Grown t (grow p t) d m ∧
      (mergesLive (node d a b) = false → ∀ u : Allocation, u.used = true →
        (u ∈ (grow p t).inorder ∧ u ≠ m ↔ u ∈ t.inorder ∧ u ≠ d)) ∧
      (mergesLive (node d a b) = true → ∃ cur ∈ t.inorder, cur.used = true ∧ cur ≠ d ∧
        cur.start = d.end_ ∧ cur.end_ = m.end_) := by
  rcases grow_cases hsub with ⟨hmerge, hsub', hlist⟩ |
    ⟨hmerge, cur, A, B, b', hsim, hsplit, hsub', hlist⟩
  · refine ⟨d, b, hsub', ⟨by rwa [hlist], by rw [hlist]; exact id, rfl, rfl, rfl, le_rfl, ?_⟩,
      fun _ u _ => by rw [hlist], by simp [mergesLive, hmerge]⟩
    rw [hlist]
    exact fun _ h => h
  · obtain ⟨htouch, -, hused⟩ := isSimilarAndContiguous_iff.mp hsim
    have hlay : Layout (A ++ d :: cur :: B) := hsplit ▸ h
    have hcle := hlay.start_le (d := cur) (by simp)
    have hdle := hlay.start_le (d := d) (by simp)
    have hcmax := hlay.lt_max cur (by simp)
    have hdmax := hlay.lt_max d (by simp)
    have hsize := hlay.nodeSize_eq (d := cur) (by simp)
    have hbefore : d.start ≤ cur.start := by
      have hp := hlay.ordered.before
      simp only [List.pairwise_append, List.pairwise_cons] at hp
      exact (hp.2.1.1 cur (by simp)).1
    set m : Allocation := { d with end_ := u32 (d.end_ + nodeSize cur) } with hm
    -- the neighbour follows the node, or is empty at its start
    have hend : cur.start = d.end_ ∧ m.end_ = cur.end_ ∨
        cur.start = cur.end_ ∧ cur.start = d.start ∧ m.end_ = d.end_ := by
      simp only [hm, u32, hsize]
      omega
    have hfresh : ∀ {lo hi : ℕ}, lo < hi → (∀ c ∈ t.inorder, c.end_ ≤ lo ∨ hi ≤ c.start) →
        ∀ c ∈ (grow p t).inorder, c.end_ ≤ lo ∨ hi ≤ c.start := fun hlt hf c hc => by
      rw [hsplit] at hf
      rw [hlist] at hc
      simp only [List.mem_append, List.mem_cons] at hc
      rcases hc with hc | rfl | hc
      · exact hf c (by simp [hc])
      · have h₁ := hf d (by simp)
        have h₂ := hf cur (by simp)
        have h₃ : m.start = d.start := rfl
        omega
      · exact hf c (by simp [hc])
    refine ⟨m, b', hsub', ?_, ?_, ?_⟩
    · refine ⟨?_, ?_, rfl, rfl, rfl, by omega, hfresh⟩
      · rw [hlist]
        by_cases hdu : d.used = true
        · have hc := hlay.used_nonempty cur (by simp) (hused.trans hdu)
          exact hlay.join (by omega) rfl (by omega) fun _ => hdu
        · exact (Coalesced.of_mergeSuccessor hlay hsim (by simpa using hdu)).layout
      · intro hf c hc
        rw [hsplit] at hf
        rw [hlist] at hc
        simp only [List.mem_append, List.mem_cons] at hc
        rcases hc with hc | rfl | hc
        · exact hf c (by simp [hc])
        · have h₁ := hf d (by simp)
          have h₂ : m.start = d.start := rfl
          omega
        · exact hf c (by simp [hc])
    · intro hlive u hu
      have hdu : d.used = false := by simpa [mergesLive, hmerge] using hlive
      have hco := (Coalesced.of_mergeSuccessor hlay hsim hdu).used u hu
      rw [← hlist, ← hsplit] at hco
      have h₁ : u ≠ d := by rintro rfl; simp [hdu] at hu
      have h₂ : u ≠ m := by rintro rfl; simp [hm, hdu] at hu
      simp [hco, h₁, h₂]
    · intro hlive
      have hdu : d.used = true := by simpa [mergesLive, hmerge] using hlive
      have hc := hlay.used_nonempty cur (by simp) (hused.trans hdu)
      refine ⟨cur, by rw [hsplit]; simp, hused.trans hdu, ?_, by omega, by omega⟩
      rintro rfl
      omega

/-! ## Cutting in place -/

/-- What is left of a block behind the first `size` bytes, as `realloc` inserts it. -/
abbrev remainder (d : Allocation) (size : ℕ) : Allocation :=
  { start := d.start + size, end_ := d.end_, pageInfo := d.pageInfo }

lemma reallocInPlace_spec {size : ℕ} (address : ℕ) (h : Layout t.inorder)
    (hsub : t.subtree p = node d a b) (hpos : 0 < size) (hsize : size ≤ nodeSize d) :
    Layout (reallocInPlace p d address size t).tree.inorder ∧
      ∀ c, c ∈ (reallocInPlace p d address size t).tree.inorder ↔
        c = { d with end_ := d.start + size } ∨ c = remainder d size ∨ c ∈ t.inorder ∧ c ≠ d := by
  obtain ⟨A, B, hsplit, -, -⟩ := exists_split hsub
  have hdm : d ∈ t.inorder := by rw [hsplit]; simp
  have hdle := h.start_le hdm
  have hdmax := h.lt_max d hdm
  have hns := h.nodeSize_eq hdm
  have hshrink : u32Sub (nodeSize d) size = nodeSize d - size := u32Sub_of_le hsize (by omega)
  have hfd : shrinkBlock (nodeSize d - size) d = { d with end_ := d.start + size } := by
    simp only [shrinkBlock, Allocation.mk.injEq, true_and, and_true, u32Sub]
    omega
  have hend : u32 (d.start + size + (nodeSize d - size)) = d.end_ := by
    rw [u32_of_lt (by omega)]
    omega
  have hspec := splitNode_spec (r := remainder d size) (f := shrinkBlock (nodeSize d - size)) h hsub
    (by rw [hfd]) (by rw [hfd]) (by simp [hpos]) (by simp only; omega) rfl rfl
  rw [hfd] at hspec
  simpa only [reallocInPlace, hshrink, hfd, hend] using hspec

/-! ## Moving -/

lemma allocateIn_subtree {q : Path} (size : ℕ) (info : PageInfo) (hsub : t.subtree p = node d a b)
    (hne : p ≠ q) : ∃ a' b', (allocateIn q size info t).2.subtree p = node d a' b' := by
  refine exists_of_root? ?_
  have hroot : (t.subtree p).root? = some d := by rw [hsub, root?]
  rw [allocateIn]
  split
  · exact hroot
  · simp only
    rw [root?_subtree_mapRoot _ _ _ _ hne]
    split
    · obtain ⟨a₁, b₁, h₁⟩ := exists_of_root? (t := (modifyAt (mapRoot (shrinkBlock _)) q t).subtree p)
        ((root?_subtree_mapRoot _ p q t hne).trans hroot)
      obtain ⟨a₂, b₂, h₂⟩ := @BST.subtree_addNode _ compareFunc _ p _ d a₁ b₁ h₁
      rw [addNode, h₂, root?]
    · exact hroot

lemma allocate_subtree {size addr : ℕ} {info : PageInfo} {hint : HintInfo} {s s' : σ}
    (hsub : t.subtree p = node d a b) (hsize : nodeSize d < size)
    (hrun : allocate sbrk size info hint t s = .ok ((addr, t'), s')) :
    ∃ a' b', t'.subtree p = node d a' b' := by
  rcases allocate_cases hrun with ⟨q, hfind, hin, -⟩ | ⟨-, alloc, -, ⟨-, -, rfl⟩ | ⟨-, hin⟩⟩
  · obtain ⟨c, l, r, hq, -, hbig⟩ := findFreeBlock_some hfind
    have hne : p ≠ q := by
      rintro rfl
      rw [hsub, node.injEq] at hq
      obtain ⟨rfl, -, -⟩ := hq
      omega
    obtain ⟨a', b', h'⟩ := allocateIn_subtree size info hsub hne
    exact ⟨a', b', by rwa [hin] at h'⟩
  · exact ⟨a, b, hsub⟩
  · have hne : p ≠ BST.addNodePath compareFunc (physicalNode alloc size info) t := by
      rintro rfl
      rw [BST.subtree_addNodePath_eq_nil] at hsub
      simp at hsub
    obtain ⟨a₁, b₁, h₁⟩ := @BST.subtree_addNode _ compareFunc
      (physicalNode alloc size info) p t d a b hsub
    obtain ⟨a', b', h'⟩ := allocateIn_subtree size info h₁ hne
    exact ⟨a', b', by rwa [← addNode, hin] at h'⟩

/-! ## The exits of `realloc` -/

/-- **What a call of `realloc` on a non-null address with a non-zero size has done.** -/
lemma realloc_cases {proc : ProcId} {address size : ℕ} {s s' : σ} {res : Reallocated}
    (haddr : address ≠ 0) (hsize : size ≠ 0)
    (hrun : realloc sbrk proc address size t s = .ok (res, s')) :
    (findAllocationNode address t = none ∧ res = ⟨.failed, none, t, []⟩ ∧ s' = s) ∨
      ∃ p d a b, findAllocationNode address t = some p ∧ t.subtree p = node d a b ∧
        d.start = address ∧
        (size ≤ nodeSize d ∧ res = reallocInPlace p d address size t ∧ s' = s ∨
          nodeSize d < size ∧ ∃ m a' b', (grow p t).subtree p = node m a' b' ∧
            (size ≤ nodeSize m ∧ res = reallocInPlace p m address size (grow p t) ∧ s' = s ∨
              nodeSize m < size ∧ ∃ addr t₂,
                allocate sbrk size m.pageInfo defaultHintInfo (grow p t) s = .ok ((addr, t₂), s') ∧
                (addr = 0 ∧ res = ⟨.noMem, none, t₂, []⟩ ∨
                  addr ≠ 0 ∧ ∃ t₃ pages, freeNode t₂ p p = .ok (t₃, pages) ∧
                    res = ⟨.ok, some addr, t₃, pages⟩))) := by
  rw [realloc, if_neg haddr, if_neg hsize] at hrun
  split at hrun
  · next hnone =>
      simp only [Except.ok.injEq, Prod.mk.injEq] at hrun
      exact Or.inl ⟨hnone, hrun.1.symm, hrun.2.symm⟩
  · next p hp =>
      obtain ⟨d, a, b, hsub, hstart⟩ := findAllocationNode_some hp
      refine Or.inr ⟨p, d, a, b, hp, hsub, hstart, ?_⟩
      rw [hsub, root?] at hrun
      simp only at hrun
      split_ifs at hrun with h₁ h₂
      · simp only [Except.ok.injEq, Prod.mk.injEq] at hrun
        exact Or.inl ⟨h₁, hrun.1.symm, hrun.2.symm⟩
      · omega
      · refine Or.inr ⟨by omega, ?_⟩
        split at hrun
        · simp at hrun
        · next m hm =>
            obtain ⟨a', b', hsub'⟩ := exists_of_root? hm
            refine ⟨m, a', b', hsub', ?_⟩
            split_ifs at hrun with h₃
            · simp only [Except.ok.injEq, Prod.mk.injEq] at hrun
              exact Or.inl ⟨h₃, hrun.1.symm, hrun.2.symm⟩
            · refine Or.inr ⟨by omega, ?_⟩
              obtain ⟨⟨⟨addr, t₂⟩, s₂⟩, hall, hrest⟩ := bind_eq_ok.mp hrun
              simp only at hrest
              split_ifs at hrest with h₄
              · simp only [Except.ok.injEq, Prod.mk.injEq] at hrest
                obtain ⟨rfl, rfl⟩ := hrest
                exact ⟨addr, t₂, hall, Or.inl ⟨h₄, rfl⟩⟩
              · obtain ⟨⟨t₃, pages⟩, hfree, hrest⟩ := bind_eq_ok.mp hrest
                simp only [Except.ok.injEq, Prod.mk.injEq] at hrest
                obtain ⟨rfl, rfl⟩ := hrest
                exact ⟨addr, t₂, hall, Or.inr ⟨h₄, t₃, pages, hfree, rfl⟩⟩

lemma mem_of_subtree (hsub : t.subtree p = node d a b) : d ∈ t.inorder := by
  obtain ⟨A, B, hsplit, -, -⟩ := exists_split hsub
  rw [hsplit]
  simp

section Steps

variable {proc : ProcId} {address size : ℕ} {s s' : σ} {res : Reallocated}

lemma move_spec {m : Allocation} {t₂ t₃ : MemTree} {addr : ℕ} {pages : List ℕ}
    (h : Layout t.inorder) (hsub : t.subtree p = node m a b) (hpos : 0 < size)
    (hsize : Fits sbrk size m.pageInfo defaultHintInfo t s)
    (hfresh : SbrkFresh sbrk t s) (hlt : nodeSize m < size) (haddr : addr ≠ 0)
    (hall : allocate sbrk size m.pageInfo defaultHintInfo t s = .ok ((addr, t₂), s'))
    (hfree : freeNode t₂ p p = .ok (t₃, pages)) :
    Layout t₃.inorder ∧ (Full t.inorder → Full t₃.inorder) ∧
      ∃ blk, blk.start = addr ∧ blk.end_ = addr + size ∧
        (∀ u ∈ t.inorder, u.used = true → Apart u blk) ∧
        ∀ u : Allocation, u.used = true →
          (u ∈ t₃.inorder ↔ (u ∈ t.inorder ∨ u = blk) ∧ u ≠ m) := by
  obtain ⟨a', b', hsub'⟩ := allocate_subtree hsub hlt hall
  rcases allocate_spec h hpos hsize hfresh hall with ⟨h₀, -, -⟩ | ⟨blk, h₁, h₂, hblk, -⟩
  · exact absurd h₀ haddr
  · obtain ⟨t₄, pages', hfree', hlay, hmem, hfull, -⟩ := freeNode_spec hblk.layout hsub'
    rw [hfree, Except.ok.injEq, Prod.mk.injEq] at hfree'
    obtain ⟨rfl, -⟩ := hfree'
    refine ⟨hlay, fun hf => hfull (hblk.full hf), blk, h₁, h₂, hblk.fresh, fun u hu => ?_⟩
    rw [hmem u hu, hblk.used u hu]

lemma realloc_null (hrun : realloc sbrk proc 0 size t s = .ok (res, s')) :
    ∃ info addr, allocate sbrk size info defaultHintInfo t s = .ok ((addr, res.tree), s') ∧
      (addr = 0 ∧ res.state = .noMem ∨ addr ≠ 0 ∧ res.newAddress = some addr) := by
  rw [realloc, if_pos rfl] at hrun
  obtain ⟨⟨⟨addr, t₁⟩, s₁⟩, hall, hrest⟩ := bind_eq_ok.mp hrun
  simp only at hrest
  split_ifs at hrest with h₀
  · simp only [Except.ok.injEq, Prod.mk.injEq] at hrest
    obtain ⟨rfl, rfl⟩ := hrest
    exact ⟨_, addr, hall, Or.inl ⟨h₀, rfl⟩⟩
  · simp only [Except.ok.injEq, Prod.mk.injEq] at hrest
    obtain ⟨rfl, rfl⟩ := hrest
    exact ⟨_, addr, hall, Or.inr ⟨h₀, rfl⟩⟩

lemma realloc_zero (haddr : address ≠ 0)
    (hrun : realloc sbrk proc address 0 t s = .ok (res, s')) :
    free address t = .ok (.ok, res.tree, res.freedPages) ∧ res.newAddress = none := by
  rw [realloc, if_neg haddr, if_pos rfl] at hrun
  obtain ⟨⟨t₁, pages⟩, hpfree, hrest⟩ := bind_eq_ok.mp hrun
  obtain ⟨⟨state, t₂, pages₂⟩, hfree, hstate⟩ := bind_eq_ok.mp hpfree
  simp only [Except.ok.injEq, Prod.mk.injEq] at hrest
  obtain ⟨rfl, -⟩ := hrest
  cases state <;> cases proc <;> simp only [reduceCtorEq, Except.ok.injEq, Prod.mk.injEq] at hstate
  all_goals
    obtain ⟨rfl, rfl⟩ := hstate
    exact ⟨hfree, rfl⟩

/-- **`realloc` keeps the layout**, on every exit. -/
lemma realloc_layout (h : Layout t.inorder) (hpos : address = 0 → 0 < size)
    (hsize : size ≤ 4294967296 - 4096) (hfresh : SbrkFresh sbrk t s)
    (hrun : realloc sbrk proc address size t s = .ok (res, s')) : Layout res.tree.inorder := by
  by_cases haddr : address = 0
  · subst haddr
    obtain ⟨info, addr, hall, -⟩ := realloc_null hrun
    rcases allocate_spec h (hpos rfl) (fits_of_le hsize) hfresh hall with ⟨-, ht, -⟩ |
      ⟨blk, -, -, hblk, -⟩
    · exact ht ▸ h
    · exact hblk.layout
  · by_cases hzero : size = 0
    · subst hzero
      rcases free_spec h (realloc_zero haddr hrun).1 with ⟨ht, -, -⟩ |
        ⟨-, q, c, l, r, -, -, -, -, hlay, -⟩
      · exact ht ▸ h
      · exact hlay
    · rcases realloc_cases haddr hzero hrun with ⟨-, rfl, -⟩ | ⟨p, d, a, b, -, hsub, -, hcase⟩
      · exact h
      · rcases hcase with ⟨hle, rfl, -⟩ | ⟨-, m, a', b', hsub', hcase⟩
        · exact (reallocInPlace_spec _ h hsub (by omega) hle).1
        · obtain ⟨m', b'', hsub'', hg, -⟩ := grow_spec h hsub
          rw [hsub', node.injEq] at hsub''
          obtain ⟨rfl, rfl, rfl⟩ := hsub''
          rcases hcase with ⟨hle, rfl, -⟩ | ⟨hlt, addr, t₂, hall, hcase⟩
          · exact (reallocInPlace_spec _ hg.layout hsub' (by omega) hle).1
          · rcases hcase with ⟨h₀, rfl⟩ | ⟨hne, t₃, pages, hfree, rfl⟩
            · rcases allocate_spec hg.layout (by omega) (fits_of_le hsize) (hg.sbrkFresh hfresh) hall
                with ⟨-, rfl, -⟩ | ⟨blk, -, -, hblk, -⟩
              · exact hg.layout
              · exact hblk.layout
            · exact (move_spec hg.layout hsub' (by omega) (fits_of_le hsize) (hg.sbrkFresh hfresh)
                hlt hne hall hfree).1

/-! ## The other live blocks -/

/-- Whether `realloc` takes in a live block: the node it works on is used and too small, and the
successor merge succeeds on it.  The successor is then used as well. -/
def absorbsLive (address size : ℕ) (t : MemTree) : Bool :=
  match findAllocationNode address t with
  | none => false
  | some ptr =>
      match t.subtree ptr with
      | nil => false
      | node d l r => address ≠ 0 && nodeSize d < size && mergesLive (node d l r)

/-- The block `b` is still one node, and the `size` bytes now owned by the reallocated block keep
clear of it. -/
def Untouched (b : Allocation) (size : ℕ) (res : Reallocated) : Prop :=
  (∃ c ∈ res.tree.inorder, c.used = true ∧ c.start = b.start ∧ c.end_ = b.end_) ∧
    ∀ x, res.newAddress = some x → b.end_ ≤ x ∨ x + size ≤ b.start

lemma realloc_untouched {u : Allocation} (h : Layout t.inorder) (haddr : address ≠ 0)
    (hzero : size ≠ 0) (hsize : size ≤ 4294967296 - 4096) (hfresh : SbrkFresh sbrk t s)
    (hrun : realloc sbrk proc address size t s = .ok (res, s')) (hok : res.state = .ok)
    (hlive : absorbsLive address size t = false) (hu : u ∈ t.inorder) (hused : u.used = true)
    (hne : ∀ d ∈ t.inorder, d.used = true → d.start = address → u ≠ d) :
    Untouched u size res := by
  have hue := h.used_nonempty u hu hused
  rcases realloc_cases haddr hzero hrun with ⟨-, rfl, -⟩ | ⟨p, d, a, b, hp, hsub, hstart, hcase⟩
  · simp at hok
  · have hd := mem_of_subtree hsub
    have hud : u ≠ d := fun hud => hne d hd (hud ▸ hused) hstart hud
    rcases hcase with ⟨hle, rfl, -⟩ | ⟨hlt, m, a', b', hsub', hcase⟩
    · obtain ⟨-, hmem⟩ := reallocInPlace_spec address h hsub (by omega) hle
      have hns := h.nodeSize_eq hd
      refine ⟨⟨u, (hmem u).mpr (Or.inr (Or.inr ⟨hu, hud⟩)), hused, rfl, rfl⟩, fun x hx => ?_⟩
      obtain rfl := Option.some.inj hx
      rcases h.apart hu hd hud hue (by omega) with h | h <;> omega
    · have hml : mergesLive (node d a b) = false := by
        simpa [absorbsLive, hp, hsub, haddr, hlt] using hlive
      obtain ⟨m', b'', hsub'', hg, hkeep, -⟩ := grow_spec h hsub
      rw [hsub', node.injEq] at hsub''
      obtain ⟨rfl, rfl, rfl⟩ := hsub''
      obtain ⟨hum, hume⟩ := (hkeep hml u hused).mpr ⟨hu, hud⟩
      rcases hcase with ⟨hle, rfl, -⟩ | ⟨hlt', addr, t₂, hall, hcase⟩
      · obtain ⟨-, hmem⟩ := reallocInPlace_spec address hg.layout hsub' (by omega) hle
        have hm := mem_of_subtree hsub'
        have hns := hg.layout.nodeSize_eq hm
        have hms := hg.start
        refine ⟨⟨u, (hmem u).mpr (Or.inr (Or.inr ⟨hum, hume⟩)), hused, rfl, rfl⟩, fun x hx => ?_⟩
        obtain rfl := Option.some.inj hx
        rcases hg.layout.apart hum hm hume hue (by omega) with h | h <;> omega
      · rcases hcase with ⟨-, rfl⟩ | ⟨hne', t₃, pages, hfree, rfl⟩
        · simp at hok
        · obtain ⟨-, -, blk, h₁, h₂, hblk, hmem⟩ := move_spec hg.layout hsub' (by omega)
            (fits_of_le hsize) (hg.sbrkFresh hfresh) hlt' hne' hall hfree
          refine ⟨⟨u, (hmem u hused).mpr ⟨Or.inl hum, hume⟩, hused, rfl, rfl⟩, fun x hx => ?_⟩
          obtain rfl := Option.some.inj hx
          rcases hblk u hum hused with h | h <;> omega

lemma realloc_touched (h : Layout t.inorder) (hsize : size ≤ 4294967296 - 4096)
    (hfresh : SbrkFresh sbrk t s) (hrun : realloc sbrk proc address size t s = .ok (res, s'))
    (hok : res.state = .ok) (hlive : absorbsLive address size t = true) :
    ∃ u ∈ t.inorder, u.used = true ∧ u.start ≠ address ∧ ¬ Untouched u size res := by
  rw [absorbsLive] at hlive
  split at hlive
  · simp at hlive
  next p hp =>
  split at hlive
  · simp at hlive
  next d a b hsub =>
  simp only [ne_eq, decide_not, Bool.and_eq_true, Bool.not_eq_true', decide_eq_false_iff_not,
    decide_eq_true_eq] at hlive
  obtain ⟨⟨haddr, hlt⟩, hml⟩ := hlive
  obtain ⟨m, b', hsub', hg, -, htake⟩ := grow_spec h hsub
  obtain ⟨cur, hcm, hcu, hcd, hcs, hce⟩ := htake hml
  have hd := mem_of_subtree hsub
  have hdu : d.used = true := by
    simp only [mergesLive, Bool.and_eq_true] at hml
    exact hml.1
  have hde := h.used_nonempty d hd hdu
  have hcur := h.used_nonempty cur hcm hcu
  have hns := h.nodeSize_eq hd
  have hms := hg.start
  rcases realloc_cases haddr (by omega) hrun with ⟨-, rfl, -⟩ | ⟨p', d', a₁, b₁, hp', hsub₁, hstart, hcase⟩
  · simp at hok
  · rw [hp, Option.some.injEq] at hp'
    subst hp'
    rw [hsub, node.injEq] at hsub₁
    obtain ⟨rfl, rfl, rfl⟩ := hsub₁
    refine ⟨cur, hcm, hcu, by omega, fun hun => ?_⟩
    rcases hcase with ⟨hle, -⟩ | ⟨-, m', a₂, b₂, hsub₂, hcase⟩
    · omega
    · rw [hsub', node.injEq] at hsub₂
      obtain ⟨rfl, rfl, rfl⟩ := hsub₂
      rcases hcase with ⟨hle, rfl, -⟩ | ⟨hlt', addr, t₂, hall, hcase⟩
      · -- cut in place: the block is longer than the old one, so it meets its neighbour
        have := hun.2 address rfl
        omega
      · rcases hcase with ⟨-, rfl⟩ | ⟨hne, t₃, pages, hfree, rfl⟩
        · simp at hok
        · -- moved: the node of the neighbour was freed together with the old block
          obtain ⟨-, -, blk, h₁, h₂, hblk, hmem⟩ := move_spec hg.layout hsub' (by omega)
            (fits_of_le hsize) (hg.sbrkFresh hfresh) hlt' hne hall hfree
          obtain ⟨⟨c, hc, hcused, hcs', hce'⟩, -⟩ := hun
          have hmm := mem_of_subtree hsub'
          have hmu : m.used = true := hg.isUsed.trans hdu
          obtain ⟨hc | rfl, hcm'⟩ := (hmem c hcused).mp hc
          · rcases hg.layout.apart hc hmm hcm' (by omega) (by omega) with h | h <;> omega
          · rcases hblk m hmm hmu with h | h <;> omega

end Steps

/-- The trees of the runs of `allocate`, `free` and `realloc`. -/
inductive HeapReachable (sbrk : ℕ → PageInfo → HintInfo → σ → Except Fault (ℕ × σ))
    (proc : ProcId) : MemTree → Prop
  | empty : HeapReachable sbrk proc nil
  | allocate {t t' : MemTree} {s s' : σ} {size addr : ℕ} {info : PageInfo} {hint : HintInfo} :
      HeapReachable sbrk proc t → 1 ≤ size → size ≤ 2 ^ 32 - 4096 → SbrkFresh sbrk t s →
      allocate sbrk size info hint t s = .ok ((addr, t'), s') → HeapReachable sbrk proc t'
  | free {t t' : MemTree} {address : ℕ} {state : FreeState} {pages : List ℕ} :
      HeapReachable sbrk proc t → free address t = .ok (state, t', pages) →
      HeapReachable sbrk proc t'
  | realloc {t : MemTree} {s s' : σ} {address size : ℕ} {res : Reallocated} :
      HeapReachable sbrk proc t → (address = 0 → 1 ≤ size) → size ≤ 2 ^ 32 - 4096 →
      SbrkFresh sbrk t s → realloc sbrk proc address size t s = .ok (res, s') →
      HeapReachable sbrk proc res.tree

lemma heapReachable_layout {proc : ProcId} (h : HeapReachable sbrk proc t) : Layout t.inorder := by
  induction h with
  | empty => exact ⟨⟨by simp, by simp⟩, by simp, by simp⟩
  | allocate _ hpos hsize hfresh hrun ih =>
      rcases allocate_spec ih hpos (fits_of_le hsize) hfresh hrun with ⟨-, rfl, -⟩ |
        ⟨blk, -, -, hblk, -⟩
      · exact ih
      · exact hblk.layout
  | free _ hrun ih =>
      rcases free_spec ih hrun with ⟨rfl, -, -⟩ | ⟨-, p, d, a, b, -, -, -, -, hlay, -⟩
      · exact ih
      · exact hlay
  | realloc _ hpos hsize hfresh hrun ih => exact realloc_layout ih hpos hsize hfresh hrun

lemma realloc_untouched_of_null_or_zero {proc : ProcId} {live u : Allocation} {size : ℕ} {s s' : σ}
    {res : Reallocated} (h : Layout t.inorder) (hpos : live.start = 0 → 1 ≤ size)
    (hsize : size ≤ 2 ^ 32 - 4096) (hfresh : SbrkFresh sbrk t s)
    (hrun : realloc sbrk proc live.start size t s = .ok (res, s')) (hok : res.state = .ok)
    (hmem : live ∈ t.inorder) (hlive : live.used = true) (hu : u ∈ t.inorder)
    (hused : u.used = true) (hne : u ≠ live) (hcase : live.start = 0 ∨ size = 0) :
    Untouched u size res := by
  by_cases haddr : live.start = 0
  · rw [haddr] at hrun
    obtain ⟨info, addr, hall, hres⟩ := realloc_null hrun
    rcases hres with ⟨-, hno⟩ | ⟨hne₀, hnew⟩
    · simp [hno] at hok
    · rcases allocate_spec h (hpos haddr) (fits_of_le hsize) hfresh hall with ⟨rfl, ht, -⟩ |
        ⟨blk, h₁, h₂, hblk, -⟩
      · exact absurd rfl hne₀
      · refine ⟨⟨u, (hblk.used u hused).mpr (Or.inl hu), hused, rfl, rfl⟩, fun x hx => ?_⟩
        rw [hnew, Option.some.injEq] at hx
        have := hblk.fresh u hu hused
        rcases this with h | h <;> omega
  · obtain rfl := hcase.resolve_left haddr
    obtain ⟨hfree, hnew⟩ := realloc_zero haddr hrun
    refine ⟨⟨u, ?_, hused, rfl, rfl⟩, by simp [hnew]⟩
    rcases free_spec h hfree with ⟨ht, -, -⟩ | ⟨-, p, d, a, b, -, hsub, hstart, hdu, -, hkeep, -⟩
    · exact ht ▸ hu
    · have hd := mem_of_subtree hsub
      obtain rfl : d = live := h.eq_of_start hd hmem (h.used_nonempty d hd hdu)
        (h.used_nonempty live hmem hlive) hstart
      exact (hkeep u hused).mpr ⟨hu, hne⟩

/-- **`realloc` and the other live blocks.**  In every state of every run a successful
`realloc(a.start, size)` leaves all other live blocks alone if and only if it does not grow `a`
over a live neighbour. -/
theorem realloc_keepsOthers_iff {proc : ProcId} {live : Allocation} {size : ℕ} {s s' : σ}
    {res : Reallocated} (h : HeapReachable sbrk proc t) (hmem : live ∈ t.inorder)
    (hused : live.used = true) (hpos : live.start = 0 → 1 ≤ size) (hsize : size ≤ 2 ^ 32 - 4096)
    (hfresh : SbrkFresh sbrk t s)
    (hrun : realloc sbrk proc live.start size t s = .ok (res, s')) (hok : res.state = .ok) :
    (∀ b ∈ t.inorder, b.used = true → b ≠ live → Untouched b size res) ↔
      absorbsLive live.start size t = false := by
  have hlay := heapReachable_layout h
  have hle := hlay.used_nonempty live hmem hused
  constructor
  · intro hall
    by_contra hne
    obtain ⟨u, hu, huu, hus, hun⟩ :=
      realloc_touched hlay hsize hfresh hrun hok (by simpa using hne)
    exact hun (hall u hu huu fun hul => hus (by rw [hul]))
  · intro hlive b hb hbu hbl
    by_cases hcase : live.start = 0 ∨ size = 0
    · exact realloc_untouched_of_null_or_zero hlay hpos hsize hfresh hrun hok hmem hused hb hbu hbl
        hcase
    · push Not at hcase
      refine realloc_untouched hlay hcase.1 hcase.2 hsize hfresh hrun hok hlive hb hbu ?_
      rintro d hd hdu hstart rfl
      exact hbl (hlay.eq_of_start hd hmem (hlay.used_nonempty b hd hdu) hle hstart)

/-- Two blocks of 8 bytes next to each other, in one stretch of two pages. -/
def twoBlocks : MemTree :=
  node ⟨65536, 65544, defaultUPageInfo, true⟩ nil
    (node ⟨65544, 65552, defaultUPageInfo, true⟩ nil
      (node ⟨65552, 73728, defaultUPageInfo, false⟩ nil nil))

lemma heapReachable_twoBlocks : HeapReachable bumpSbrk (.user 0) twoBlocks := by
  have h₁ : allocate bumpSbrk 8 defaultUPageInfo defaultHintInfo nil 65536 =
      .ok ((65536, node ⟨65536, 65544, defaultUPageInfo, true⟩ nil
        (node ⟨65544, 73728, defaultUPageInfo, false⟩ nil nil)), 73728) := by decide +kernel
  have h₂ : allocate bumpSbrk 8 defaultUPageInfo defaultHintInfo
      (node ⟨65536, 65544, defaultUPageInfo, true⟩ nil
        (node ⟨65544, 73728, defaultUPageInfo, false⟩ nil nil)) 73728 =
      .ok ((65544, twoBlocks), 73728) := by decide +kernel
  refine .allocate (.allocate .empty (by decide) (by decide) ?_ h₁) (by decide) (by decide) ?_ h₂
  · exact sbrkFresh_bumpSbrk (by decide) (by simp)
  · exact sbrkFresh_bumpSbrk (by decide) (by simp)

/-- Shrinking the first of the two blocks leaves the second alone. -/
theorem realloc_keepsOthers_shrink : ∃ res,
    realloc bumpSbrk (.user 0) 65536 4 twoBlocks 73728 = .ok (res, 73728) ∧
      ((∀ b ∈ twoBlocks.inorder, b.used = true → b ≠ ⟨65536, 65544, defaultUPageInfo, true⟩ →
        Untouched b 4 res) ↔ absorbsLive 65536 4 twoBlocks = false) := by
  have hrun : realloc bumpSbrk (.user 0) 65536 4 twoBlocks 73728 =
      .ok (⟨.ok, some 65536, node ⟨65536, 65540, defaultUPageInfo, true⟩ nil
        (node ⟨65544, 65552, defaultUPageInfo, true⟩
          (node ⟨65540, 65544, defaultUPageInfo, false⟩ nil nil)
          (node ⟨65552, 73728, defaultUPageInfo, false⟩ nil nil)), []⟩, 73728) := by
    decide +kernel
  have hmem : (⟨65536, 65544, defaultUPageInfo, true⟩ : Allocation) ∈ twoBlocks.inorder := by
    simp [twoBlocks]
  exact ⟨_, hrun, realloc_keepsOthers_iff heapReachable_twoBlocks hmem rfl (by simp) (by decide)
    (sbrkFresh_bumpSbrk (by decide) (by simp [twoBlocks])) hrun rfl⟩

/-- **Growing the first block to 16 bytes swallows the second**, which is live: no node is left at
its address, and the 16 bytes returned run over it. -/
theorem realloc_swallows_neighbour :
    HeapReachable bumpSbrk (.user 0) twoBlocks ∧
      (⟨65544, 65552, defaultUPageInfo, true⟩ : Allocation) ∈ twoBlocks.inorder ∧
      ∃ res, realloc bumpSbrk (.user 0) 65536 16 twoBlocks 73728 = .ok (res, 73728) ∧
        res.state = .ok ∧ ¬ Untouched ⟨65544, 65552, defaultUPageInfo, true⟩ 16 res := by
  refine ⟨heapReachable_twoBlocks, by simp [twoBlocks],
    ⟨.ok, some 65536, node ⟨65536, 65552, defaultUPageInfo, true⟩ nil
      (node ⟨65552, 73728, defaultUPageInfo, false⟩
        (node ⟨65552, 65552, defaultUPageInfo, false⟩ nil nil) nil), []⟩, by decide +kernel, rfl, ?_⟩
  rintro ⟨-, hdisj⟩
  exact absurd (hdisj 65536 rfl) (by decide)

end BrebOS.MemTree

import BrebOS.Core.Memtree.Realloc

/-!
# What the nodes say about their addresses

Every node carries the `page_info` of its range.  `Labelled Q l` says that it is the right one, for a
law `Q` on a `page_info` and an address, at every address of every node.  Cutting a node, taking it
out and joining neighbours of one `page_info` keep that, so `free` does, whatever the law.  What
`allocate` leaves of a node gets the `page_info` of the request, so there the two have to agree.

Only the order of the starts matters here, not that the ranges are disjoint.  Unlike `Layout` this
allows the empty used nodes that a request of 0 bytes makes.
-/

namespace BrebOS.MemTree

open BinaryTree

/-- The nodes are in order of their starts, and `Q` holds of the `page_info` of each and its
addresses. -/
structure Labelled (Q : PageInfo → ℕ → Prop) (l : List Allocation) : Prop where
  sorted : l.Pairwise fun a b => a.start ≤ b.start
  le : ∀ a ∈ l, a.start ≤ a.end_
  lt_max : ∀ a ∈ l, a.end_ < 4294967296
  label : ∀ a ∈ l, ∀ x, a.start ≤ x → x < a.end_ → Q a.pageInfo x

variable {Q : PageInfo → ℕ → Prop}

namespace Labelled

variable {A B l l' : List Allocation} {c d m : Allocation}

lemma nil : Labelled Q [] := ⟨by simp, by simp, by simp, by simp⟩

lemma sublist (h : Labelled Q l) (hs : l'.Sublist l) : Labelled Q l' :=
  ⟨h.sorted.sublist hs, fun a ha => h.le a (hs.subset ha), fun a ha => h.lt_max a (hs.subset ha),
    fun a ha => h.label a (hs.subset ha)⟩

lemma nodeSize_eq (h : Labelled Q l) (hd : d ∈ l) : nodeSize d = d.end_ - d.start :=
  u32Sub_of_le (h.le d hd) (h.lt_max d hd)

lemma replace (h : Labelled Q (A ++ d :: B)) (hlo : m.start = d.start) (hle : m.start ≤ m.end_)
    (hmax : m.end_ < 4294967296) (hlabel : ∀ x, m.start ≤ x → x < m.end_ → Q m.pageInfo x) :
    Labelled Q (A ++ m :: B) := by
  -- a property of the new list that the old one has
  have hall : ∀ P : Allocation → Prop, P m → (∀ a ∈ A ++ d :: B, P a) → ∀ a ∈ A ++ m :: B, P a := by
    intro P hm hold a ha
    simp only [List.mem_append, List.mem_cons] at ha hold
    rcases ha with ha | rfl | ha
    · exact hold a (Or.inl ha)
    · exact hm
    · exact hold a (Or.inr (Or.inr ha))
  refine ⟨?_, hall _ hle h.le, hall _ hmax h.lt_max, hall _ hlabel h.label⟩
  have hsorted := h.sorted
  simp only [List.pairwise_append, List.pairwise_cons, List.mem_cons, forall_eq_or_imp, hlo]
    at hsorted ⊢
  exact hsorted

lemma cut (h : Labelled Q (A ++ d :: B)) (hlo : m.start = d.start) (hle : m.start ≤ m.end_)
    (hhi : m.end_ ≤ d.end_) (hinfo : m.pageInfo = d.pageInfo) : Labelled Q (A ++ m :: B) := by
  have hmax := h.lt_max d (by simp)
  refine h.replace hlo hle (by omega) fun x h₁ h₂ => ?_
  rw [hinfo]
  exact h.label d (by simp) x (by omega) (by omega)

lemma mergeSuccessor (h : Labelled Q (A ++ d :: c :: B))
    (hsim : c.isSimilarAndContiguous d = true) :
    Labelled Q (A ++ { d with end_ := u32 (d.end_ + nodeSize c) } :: B) := by
  obtain ⟨htouch, hinfo, -⟩ := isSimilarAndContiguous_iff.mp hsim
  have hsize := h.nodeSize_eq (d := c) (by simp)
  have hdle := h.le d (by simp)
  have hcle := h.le c (by simp)
  have hdmax := h.lt_max d (by simp)
  have hcmax := h.lt_max c (by simp)
  have hstart : d.start ≤ c.start := by
    have hsorted := h.sorted
    simp only [List.pairwise_append, List.pairwise_cons] at hsorted
    exact hsorted.2.1.1 c (by simp)
  -- either they touch, or both are at the start of the node and the successor is empty
  have hend : u32 (d.end_ + nodeSize c) = if c.start = d.end_ then c.end_ else d.end_ := by
    rw [hsize, u32_of_lt (by omega)]
    split_ifs <;> omega
  have hrest : Labelled Q (A ++ d :: B) := h.sublist (by simp)
  refine hrest.replace rfl ?_ ?_ fun x h₁ h₂ => ?_
  · simp only [hend]
    split_ifs <;> omega
  · simp only [hend]
    split_ifs <;> omega
  · simp only [hend] at h₁ h₂ ⊢
    by_cases hx : x < d.end_
    · exact h.label d (by simp) x h₁ hx
    · split_ifs at h₂ with hd
      · rw [← hinfo]
        exact h.label c (by simp) x (by omega) h₂
      · exact absurd h₂ hx

lemma mergePredecessor (h : Labelled Q (A ++ c :: d :: B))
    (hsim : c.isSimilarAndContiguous d = true) :
    Labelled Q (A ++ { d with start := c.start } :: B) := by
  obtain ⟨htouch, hinfo, -⟩ := isSimilarAndContiguous_iff.mp hsim
  have hdle := h.le d (by simp)
  have hcle := h.le c (by simp)
  have hdmax := h.lt_max d (by simp)
  have hstart : c.start ≤ d.start := by
    have hsorted := h.sorted
    simp only [List.pairwise_append, List.pairwise_cons] at hsorted
    exact hsorted.2.1.1 d (by simp)
  have hrest : Labelled Q (A ++ c :: B) := h.sublist (by simp)
  refine hrest.replace rfl (hstart.trans hdle) hdmax fun x h₁ h₂ => ?_
  simp only at h₁ h₂ ⊢
  by_cases hx : d.start ≤ x
  · exact h.label d (by simp) x hx h₂
  · rw [← hinfo]
    exact h.label c (by simp) x h₁ (by omega)

end Labelled

/-! ## What the tree functions keep -/

variable {t t' : MemTree} {p : Path} {d x : Allocation} {a b : MemTree} {size : ℕ} {info : PageInfo}

lemma Labelled.addNode (h : Labelled Q t.inorder) (hle : x.start ≤ x.end_)
    (hmax : x.end_ < 4294967296) (hlabel : ∀ y, x.start ≤ y → y < x.end_ → Q x.pageInfo y) :
    Labelled Q (MemTree.addNode x t).inorder := by
  have hmem : ∀ c, c ∈ (MemTree.addNode x t).inorder ↔ c = x ∨ c ∈ t.inorder :=
    fun c => BST.mem_addNode
  obtain ⟨l₁, l₂, e₁, e₂, h₁, h₂⟩ := @BST.inorder_addNode _ compareFunc x t <|
    h.sorted.imp fun {a b} hab hb => by
      rw [compareFunc_neg] at hb ⊢
      omega
  refine ⟨?_, fun c hc => ?_, fun c hc => ?_, fun c hc => ?_⟩
  · have hsorted := h.sorted
    rw [e₁, List.pairwise_append] at hsorted
    rw [MemTree.addNode, e₂, List.pairwise_append, List.pairwise_cons]
    refine ⟨hsorted.1, ⟨fun c hc => ?_, hsorted.2.1⟩, fun c hc e he => ?_⟩
    · have hge := h₂ c hc
      by_contra hlt
      have := compareFunc_neg.mpr (not_le.mp hlt)
      omega
    · rcases List.mem_cons.mp he with rfl | he
      · exact (compareFunc_neg.mp (h₁ c hc)).le
      · exact hsorted.2.2 c hc e he
  · rcases (hmem c).mp hc with rfl | hc
    · exact hle
    · exact h.le c hc
  · rcases (hmem c).mp hc with rfl | hc
    · exact hmax
    · exact h.lt_max c hc
  · rcases (hmem c).mp hc with rfl | hc
    · exact hlabel
    · exact h.label c hc

lemma Labelled.mapRoot {f : Allocation → Allocation} (h : Labelled Q t.inorder)
    (hsub : t.subtree p = node d a b) (hlo : (f d).start = d.start)
    (hle : d.start ≤ (f d).end_) (hhi : (f d).end_ ≤ d.end_)
    (hinfo : (f d).pageInfo = d.pageInfo) :
    Labelled Q (modifyAt (BinaryTree.mapRoot f) p t).inorder := by
  obtain ⟨A, B, hsplit, hmap, -⟩ := exists_split hsub
  rw [hmap]
  rw [hsplit] at h
  exact h.cut hlo (by omega) hhi hinfo

lemma Labelled.removeNode (h : Labelled Q t.inorder) (hsub : t.subtree p = node d a b) :
    Labelled Q (modifyAt MemTree.removeNode p t).inorder := by
  obtain ⟨A, B, hsplit, -, hrem⟩ := exists_split hsub
  rw [hrem]
  rw [hsplit] at h
  exact h.sublist (by simp)

/-- **Taking the front of a node** of the `page_info` asked for. -/
lemma Labelled.allocateIn (h : Labelled Q t.inorder) (hsub : t.subtree p = node d a b)
    (hsize : size ≤ nodeSize d) (hinfo : d.start < d.end_ → d.pageInfo = info) :
    Labelled Q (MemTree.allocateIn p size info t).2.inorder := by
  have hdm := mem_of_subtree hsub
  have hle := h.le d hdm
  have hmax := h.lt_max d hdm
  have hns := h.nodeSize_eq hdm
  have hshrink : u32Sub (nodeSize d) size = nodeSize d - size := u32Sub_of_le hsize (by omega)
  have hend : (shrinkBlock (nodeSize d - size) d).end_ = d.start + size := by
    simp only [shrinkBlock, u32Sub]
    omega
  have hrest : u32 (d.start + size + (nodeSize d - size)) = d.end_ := by
    rw [u32_of_lt (by omega)]
    omega
  simp only [MemTree.allocateIn, hsub, root?, hshrink, hend, hrest]
  by_cases hpart : nodeSize d - size ≠ 0
  · rw [if_pos hpart]
    -- the node is cut, what is left is inserted, and the node is marked used
    have hsub₁ : (modifyAt (BinaryTree.mapRoot (shrinkBlock (nodeSize d - size))) p t).subtree p =
        node (shrinkBlock (nodeSize d - size) d) a b := by
      rw [subtree_modifyAt _ _ _ (by simp [hsub]), hsub, BinaryTree.mapRoot]
    have h₁ := h.mapRoot (f := shrinkBlock (nodeSize d - size)) hsub rfl (by omega) (by omega) rfl
    have h₂ := h₁.addNode (x := { start := d.start + size, end_ := d.end_, pageInfo := info })
      (by simp only; omega) hmax fun y hy₁ hy₂ => by
        simp only at hy₁ hy₂ ⊢
        rw [← hinfo (by omega)]
        exact h.label d hdm y (by omega) hy₂
    obtain ⟨a', b', hsub₂⟩ := BST.subtree_addNode
      { start := d.start + size, end_ := d.end_, pageInfo := info } p _ _ a b hsub₁
    exact h₂.mapRoot hsub₂ rfl (by simp only [hend]; simp only [shrinkBlock]; omega) le_rfl rfl
  · rw [if_neg hpart]
    exact h.mapRoot hsub rfl hle le_rfl rfl

lemma Labelled.mergeFreeNode {pre post : List Allocation}
    (h : Labelled Q (pre ++ (node d a b).inorder ++ post)) :
    ∃ d' a' b', MemTree.mergeFreeNode (node d a b) = node d' a' b' ∧
      Labelled Q (pre ++ (node d' a' b').inorder ++ post) := by
  set P : MemTree → Prop := fun t => ∃ d a b, t = node d a b ∧
    Labelled Q (pre ++ t.inorder ++ post) with hP
  have hpred : ∀ t, P t → P (mergeNodeWithFreePredecessor t).2 := by
    rintro t ⟨d, a, b, rfl, ht⟩
    rcases mergePredecessor_eq d a b with heq | ⟨cur, rest, a', ha, hsim, heq, ha'⟩
    · rw [heq]
      exact ⟨d, a, b, rfl, ht⟩
    · rw [heq]
      refine ⟨_, a', b, rfl, ?_⟩
      have hjoin := @Labelled.mergePredecessor Q (pre ++ rest) (b.inorder ++ post) cur d
        (by simpa [ha] using ht) hsim
      simpa [ha'] using hjoin
  have hsucc : ∀ t, P t → P (mergeNodeWithFreeSuccessor t).2 := by
    rintro t ⟨d, a, b, rfl, ht⟩
    rcases mergeSuccessor_eq d a b with heq | ⟨cur, rest, b', hb, hsim, heq, hb'⟩
    · rw [heq]
      exact ⟨d, a, b, rfl, ht⟩
    · rw [heq]
      refine ⟨_, a, b', rfl, ?_⟩
      have hjoin := @Labelled.mergeSuccessor Q (pre ++ a.inorder) (rest ++ post) cur d
        (by simpa [hb] using ht) hsim
      simpa [hb'] using hjoin
  have h₁ := whileTrue_invariant P hpred ((node d a b).numNodes + 1) (node d a b) ⟨d, a, b, rfl, h⟩
  obtain ⟨d', a', b', heq, h₂⟩ := whileTrue_invariant P hsucc
    ((whileTrue mergeNodeWithFreePredecessor ((node d a b).numNodes + 1) (node d a b)).numNodes + 1)
    _ h₁
  exact ⟨d', a', b', heq, heq ▸ h₂⟩

lemma Labelled.releasePages (h : Labelled Q t.inorder) (hsub : t.subtree p = node d a b)
    (hpages : nFreePagesThreshold ≤ (releaseOf d).numPages) :
    Labelled Q (MemTree.releasePages d p p t).inorder := by
  have hdm := mem_of_subtree hsub
  have hle := h.le d hdm
  have hmax := h.lt_max d hdm
  have hns := h.nodeSize_eq hdm
  obtain ⟨hs₁, hs₂, he₁, he₂, hend, -⟩ := releaseOf_spec hle hmax hpages
  have hshrink : u32Sub (releaseOf d).alignedStart d.start ≠ 0 →
      (shrinkBlock (u32Sub (nodeSize d) (u32Sub (releaseOf d).alignedStart d.start)) d).end_ =
        (releaseOf d).alignedStart := fun _ => by
    simp only [shrinkBlock, hns, u32Sub]
    omega
  -- the part behind the pages
  set back : Allocation := { d with start := (releaseOf d).alignedEnd } with hback
  set t₁ : MemTree := if u32Sub d.end_ (releaseOf d).alignedEnd ≠ 0 then MemTree.addNode back t
    else t with ht₁
  have hpart : Labelled Q t₁.inorder ∧ ∃ a' b', t₁.subtree p = node d a' b' := by
    rw [ht₁]
    split_ifs
    · exact ⟨h.addNode he₁ hmax fun y hy₁ hy₂ => h.label d hdm y (by simp only [hback] at hy₁; omega)
        hy₂, BST.subtree_addNode back p t d a b hsub⟩
    · exact ⟨h, a, b, hsub⟩
  obtain ⟨h₁, a', b', hsub₁⟩ := hpart
  simp only [MemTree.releasePages, ← hback, ← ht₁]
  split_ifs with hwhole hfront
  · exact h.removeNode hsub
  · exact h₁.mapRoot hsub₁ rfl (by rw [hshrink hfront]; omega) (by rw [hshrink hfront]; omega) rfl
  · exact h₁.removeNode hsub₁

/-- **`free_node`** keeps any law. -/
lemma Labelled.freeNode {pages : List ℕ} (h : Labelled Q t.inorder)
    (hsub : t.subtree p = node d a b) (hrun : MemTree.freeNode t p p = .ok (t', pages)) :
    Labelled Q t'.inorder := by
  have hdm := mem_of_subtree hsub
  set t₁ := modifyAt (BinaryTree.mapRoot fun d => { d with used := false }) p t with ht₁
  have h₁ : Labelled Q t₁.inorder := h.mapRoot hsub rfl (h.le d hdm) le_rfl rfl
  have hsub₁ : t₁.subtree p = node { d with used := false } a b := by
    rw [ht₁, subtree_modifyAt _ _ _ (by simp [hsub]), hsub, BinaryTree.mapRoot]
  obtain ⟨pre, post, hpre, hmod⟩ := exists_context p t₁ (by simp [hsub₁])
  rw [hsub₁] at hpre hmod
  obtain ⟨d', a', b', hmerge, h₂⟩ := Labelled.mergeFreeNode (hpre ▸ h₁)
  set t₂ := modifyAt MemTree.mergeFreeNode p t₁ with ht₂
  have hsub₂ : t₂.subtree p = node d' a' b' := by
    rw [ht₂, subtree_modifyAt _ _ _ (by simp [hsub₁]), hsub₁, hmerge]
  have hlist₂ : t₂.inorder = pre ++ (node d' a' b').inorder ++ post := by rw [hmod, hmerge]
  rw [← hlist₂] at h₂
  simp only [MemTree.freeNode, ← ht₁, ← ht₂, hsub₂, root?, ne_eq, not_true_eq_false, if_false]
    at hrun
  split_ifs at hrun with hpages
  · simp only [Except.ok.injEq, Prod.mk.injEq] at hrun
    rw [← hrun.1]
    exact h₂.releasePages hsub₂ hpages
  · simp only [Except.ok.injEq, Prod.mk.injEq] at hrun
    rw [← hrun.1]
    exact h₂

/-! ## The pages that `free` hands to `free_page` -/

/-- The block `free` makes of the used node at the address: the node with its free neighbours. -/
def freedBlock (address : ℕ) (t : MemTree) : Option Allocation :=
  if address = 0 then none
  else
    match findAllocationNode address t with
    | none => none
    | some ptr =>
        match (t.subtree ptr).root? with
        | none => none
        | some d =>
            if !d.used then none
            else
              let t := t.modifyAt (BinaryTree.mapRoot fun d => { d with used := false }) ptr
              ((t.modifyAt MemTree.mergeFreeNode ptr).subtree ptr).root?

/-- The arguments of the `free_page` calls of `free`, when it gives pages back. -/
def freePageArguments (address : ℕ) (t : MemTree) : List ℕ :=
  match freedBlock address t with
  | none => []
  | some d =>
      if (releaseOf d).numPages ≥ nFreePagesThreshold then
        (List.range (releaseOf d).numPages).map fun i => addrPage (u32 ((releaseOf d).alignedStart + i))
      else []

/-- **`free`** keeps any law, and calls `free_page` as `freePageArguments` says. -/
lemma Labelled.free {address : ℕ} {state : FreeState} {pages : List ℕ} (h : Labelled Q t.inorder)
    (hrun : MemTree.free address t = .ok (state, t', pages)) :
    Labelled Q t'.inorder ∧ pages = freePageArguments address t := by
  rw [MemTree.free] at hrun
  rw [freePageArguments, freedBlock]
  by_cases haddr : address = 0
  · rw [if_pos haddr] at hrun ⊢
    simp only [Except.ok.injEq, Prod.mk.injEq] at hrun
    obtain ⟨-, rfl, rfl⟩ := hrun
    exact ⟨h, rfl⟩
  rw [if_neg haddr] at hrun ⊢
  cases hfind : findAllocationNode address t with
  | none =>
      simp only [hfind, Except.ok.injEq, Prod.mk.injEq] at hrun
      obtain ⟨-, rfl, rfl⟩ := hrun
      exact ⟨h, rfl⟩
  | some p =>
      obtain ⟨d, a, b, hsub, -⟩ := findAllocationNode_some hfind
      have hroot : (node d a b).root? = some d := rfl
      simp only [hfind, hsub, hroot] at hrun ⊢
      by_cases hused : (!d.used) = true
      · simp only [hused, if_true, Except.ok.injEq, Prod.mk.injEq] at hrun ⊢
        obtain ⟨-, rfl, rfl⟩ := hrun
        exact ⟨h, rfl⟩
      · rw [if_neg hused] at hrun ⊢
        obtain ⟨⟨t₁, pages₁⟩, hfree, hrun⟩ := bind_eq_ok.mp hrun
        simp only [Except.ok.injEq, Prod.mk.injEq] at hrun
        obtain ⟨-, rfl, rfl⟩ := hrun
        refine ⟨h.freeNode hsub hfree, ?_⟩
        rw [MemTree.freeNode] at hfree
        simp only at hfree
        split at hfree
        · simp at hfree
        · next d' hblock =>
            simp only [hblock, ne_eq, not_true_eq_false, if_false] at hfree ⊢
            split_ifs at hfree ⊢ with hpages
            · simp only [Except.ok.injEq, Prod.mk.injEq] at hfree
              exact hfree.2.symm
            · simp only [Except.ok.injEq, Prod.mk.injEq] at hfree
              exact hfree.2.symm

end BrebOS.MemTree

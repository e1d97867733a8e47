import BrebOS.Core.Memtree.Layout

/-!
# Freeing a block

`free_node` marks the node free, merges it with its free neighbours and, when the merged block
contains at least two whole pages, takes those pages out of the tree.  `freeNode_spec` says what
that does: the layout survives, the used blocks are the old ones without the freed one, and no
empty node appears.
-/

namespace BrebOS.MemTree

open BinaryTree Ranges

/-! ## Merging free neighbours -/

/-- What merging free nodes keeps. -/
structure Coalesced (l l' : List Allocation) : Prop where
  layout : Layout l'
  used : ∀ u : Allocation, u.used = true → (u ∈ l' ↔ u ∈ l)
  full : Full l → Full l'
  covers : Full l → ∀ x, Covers l' x ↔ Covers l x

namespace Coalesced

variable {A B l l' l'' : List Allocation} {cur d : Allocation}

lemma refl (h : Layout l) : Coalesced l l := ⟨h, fun _ _ => Iff.rfl, id, fun _ _ => Iff.rfl⟩

lemma trans (h : Coalesced l l') (h' : Coalesced l' l'') : Coalesced l l'' where
  layout := h'.layout
  used u hu := (h'.used u hu).trans (h.used u hu)
  full hf := h'.full (h.full hf)
  covers hf x := (h'.covers (h.full hf) x).trans (h.covers hf x)

lemma of_join {c m : Allocation} (h : Layout (A ++ c :: d :: B)) (htouch : c.end_ = d.start)
    (hlo : m.start = c.start) (hhi : m.end_ = d.end_) (hc : c.used = false) (hd : d.used = false)
    (hm : m.used = false) : Coalesced (A ++ c :: d :: B) (A ++ m :: B) := by
  have hcle := h.start_le (d := c) (by simp)
  have hdle := h.start_le (d := d) (by simp)
  refine ⟨h.join htouch hlo hhi (by simp [hm]), fun u hu => ?_, fun hf a ha => ?_, fun _ x => ?_⟩
  · have h₁ : u ≠ c := by rintro rfl; simp [hc] at hu
    have h₂ : u ≠ d := by rintro rfl; simp [hd] at hu
    have h₃ : u ≠ m := by rintro rfl; simp [hm] at hu
    simp [h₁, h₂, h₃]
  · simp only [List.mem_append, List.mem_cons] at ha
    rcases ha with ha | rfl | ha
    · exact hf a (by simp [ha])
    · have h₁ := hf c (by simp)
      have h₂ := hf d (by simp)
      omega
    · exact hf a (by simp [ha])
  · exact covered_join hcle hdle htouch hlo hhi

lemma of_drop {c : Allocation} (h : Layout l) (hs : l'.Sublist l)
    (hmem : ∀ a ∈ l, a = c ∨ a ∈ l') (hc : c.used = false) (hempty : ¬ Full l) :
    Coalesced l l' where
  layout := h.sublist hs
  used u hu := by
    refine ⟨fun hm => hs.subset hm, fun hm => ?_⟩
    rcases hmem u hm with rfl | hm
    · simp [hc] at hu
    · exact hm
  full hf := absurd hf hempty
  covers hf := absurd hf hempty

lemma of_mergeSuccessor (h : Layout (A ++ d :: cur :: B))
    (hsim : cur.isSimilarAndContiguous d = true) (hd : d.used = false) :
    Coalesced (A ++ d :: cur :: B) (A ++ { d with end_ := u32 (d.end_ + nodeSize cur) } :: B) := by
  obtain ⟨htouch, -, hused⟩ := isSimilarAndContiguous_iff.mp hsim
  have hsize := h.nodeSize_eq (d := cur) (by simp)
  have hcle := h.start_le (d := cur) (by simp)
  have hcmax := h.lt_max cur (by simp)
  have hdmax := h.lt_max d (by simp)
  have hbefore : d.start ≤ cur.start := by
    have hp := h.ordered.before
    simp only [List.pairwise_append, List.pairwise_cons] at hp
    exact (hp.2.1.1 cur (by simp)).1
  rcases htouch with htouch | htouch
  · refine of_join h htouch.symm rfl ?_ hd (hused.trans hd) hd
    simp only [hsize, u32]
    omega
  · -- the neighbour is empty and sits at the start of the node
    have hend : u32 (d.end_ + nodeSize cur) = d.end_ := by simp only [hsize, u32]; omega
    rw [hend]
    refine of_drop (c := cur) h ?_ (by simp; tauto) (hused.trans hd) fun hf => ?_
    · simp
    · have := hf cur (by simp)
      omega

lemma of_mergePredecessor (h : Layout (A ++ cur :: d :: B))
    (hsim : cur.isSimilarAndContiguous d = true) (hd : d.used = false) :
    Coalesced (A ++ cur :: d :: B) (A ++ { d with start := cur.start } :: B) := by
  obtain ⟨htouch, -, hused⟩ := isSimilarAndContiguous_iff.mp hsim
  have hdle := h.start_le (d := d) (by simp)
  have hbefore : cur.start ≤ d.start := by
    have hp := h.ordered.before
    simp only [List.pairwise_append, List.pairwise_cons] at hp
    exact (hp.2.1.1 d (by simp)).1
  rcases htouch with htouch | htouch
  · -- the node itself is empty and sits at the start of its neighbour
    have hstart : cur.start = d.start := by omega
    rw [hstart]
    refine of_drop (c := cur) h ?_ (by simp; tauto) (hused.trans hd) fun hf => ?_
    · simp
    · have := hf d (by simp)
      omega
  · exact of_join h htouch rfl rfl (hused.trans hd) hd hd

end Coalesced

/-- What the two loops of `merge_free_node` keep, the node standing between `pre` and `post`. -/
private def Merging (l pre post : List Allocation) (info : PageInfo) (t : MemTree) : Prop :=
  ∃ d a b, t = node d a b ∧ d.used = false ∧ d.pageInfo = info ∧
    Coalesced l (pre ++ t.inorder ++ post)

private lemma merging_successor {l pre post : List Allocation} {info : PageInfo} (t : MemTree)
    (h : Merging l pre post info t) :
    Merging l pre post info (mergeNodeWithFreeSuccessor t).2 := by
  obtain ⟨d, a, b, rfl, hused, hinfo, hco⟩ := h
  rcases mergeSuccessor_eq d a b with heq | ⟨cur, rest, b', hb, hsim, heq, hb'⟩
  · rw [heq]
    exact ⟨d, a, b, rfl, hused, hinfo, hco⟩
  · rw [heq]
    refine ⟨_, a, b', rfl, hused, hinfo, hco.trans ?_⟩
    have hlay := hco.layout
    simp only [inorder_node, hb, hb', List.append_assoc, List.cons_append] at hlay ⊢
    rw [← List.append_assoc] at hlay ⊢
    rw [← List.append_assoc pre]
    exact Coalesced.of_mergeSuccessor hlay hsim hused

private lemma merging_predecessor {l pre post : List Allocation} {info : PageInfo} (t : MemTree)
    (h : Merging l pre post info t) :
    Merging l pre post info (mergeNodeWithFreePredecessor t).2 := by
  obtain ⟨d, a, b, rfl, hused, hinfo, hco⟩ := h
  rcases mergePredecessor_eq d a b with heq | ⟨cur, rest, a', ha, hsim, heq, ha'⟩
  · rw [heq]
    exact ⟨d, a, b, rfl, hused, hinfo, hco⟩
  · rw [heq]
    refine ⟨_, a', b, rfl, hused, hinfo, hco.trans ?_⟩
    have hlay := hco.layout
    simp only [inorder_node, ha, ha', List.append_assoc, List.cons_append, List.nil_append]
      at hlay ⊢
    rw [← List.append_assoc] at hlay ⊢
    rw [← List.append_assoc pre]
    exact Coalesced.of_mergePredecessor hlay hsim hused

lemma mergeFreeNode_spec {pre post : List Allocation} {d : Allocation} {a b : MemTree}
    (h : Layout (pre ++ (node d a b).inorder ++ post)) (hused : d.used = false) :
    ∃ d' a' b', mergeFreeNode (node d a b) = node d' a' b' ∧ d'.used = false ∧
      d'.pageInfo = d.pageInfo ∧
      Coalesced (pre ++ (node d a b).inorder ++ post) (pre ++ (node d' a' b').inorder ++ post) := by
  have h₀ : Merging (pre ++ (node d a b).inorder ++ post) pre post d.pageInfo (node d a b) :=
    ⟨d, a, b, rfl, hused, rfl, Coalesced.refl h⟩
  have h₁ := whileTrue_invariant _ merging_predecessor ((node d a b).numNodes + 1) _ h₀
  have h₂ := whileTrue_invariant _ merging_successor
    ((whileTrue mergeNodeWithFreePredecessor ((node d a b).numNodes + 1) (node d a b)).numNodes + 1)
    _ h₁
  obtain ⟨d', a', b', heq, hu, hi, hco⟩ := h₂
  exact ⟨d', a', b', heq, hu, hi, heq ▸ hco⟩

lemma mergeFreeNode_stops (t : MemTree) :
    (mergeNodeWithFreeSuccessor (mergeFreeNode t)).1 = false := by
  refine whileTrue_stops BinaryTree.numNodes (fun t ht => ?_) (fun t ht => ?_) _ _ (by simp)
  · cases t with
    | nil => simp [mergeNodeWithFreeSuccessor] at ht
    | node d a b =>
        rcases mergeSuccessor_eq d a b with heq | ⟨cur, rest, b', hb, _, heq, hb'⟩
        · simp [heq] at ht
        · have h₁ := length_inorder b
          have h₂ := length_inorder b'
          rw [hb, List.length_cons] at h₁
          rw [hb'] at h₂
          rw [heq]
          simp only [numNodes]
          omega
  · cases t with
    | nil => simp [mergeNodeWithFreeSuccessor]
    | node d a b =>
        rcases mergeSuccessor_eq d a b with heq | ⟨cur, rest, b', _, _, heq, _⟩
        · rw [heq]
        · simp [heq] at ht

/-! ## Giving whole pages back -/

private lemma remove_addNode {t : MemTree} {p : Path} {d x : Allocation} {a b : MemTree}
    {A B : List Allocation} (h : Layout t.inorder) (hsub : t.subtree p = node d a b)
    (hsplit : t.inorder = A ++ d :: B) (hd : d.start < d.end_) (hx : d.start < x.start) :
    ∃ l₁ l₂, A ++ B = l₁ ++ l₂ ∧ (modifyAt removeNode p (addNode x t)).inorder = l₁ ++ x :: l₂ ∧
      (∀ a ∈ l₁, a.start < x.start) ∧ ∀ a ∈ l₂, x.start ≤ a.start := by
  obtain ⟨l₁, l₂, e₁, e₂, h₁, h₂⟩ := inorder_addNode h x
  obtain ⟨a', b', hsub'⟩ := BST.subtree_addNode x p t d a b hsub
  obtain ⟨A', B', e₃, -, hrem⟩ := exists_split (t := addNode x t) hsub'
  obtain ⟨hdA, hdB⟩ := (hsplit ▸ h).notMem_of_split hd
  have hdl₂ : d ∉ l₂ := fun hm => absurd (h₂ d hm) (by omega)
  have hdl₁ : d ∈ l₁ := by
    have hm : d ∈ t.inorder := by rw [hsplit]; simp
    rw [e₁] at hm
    exact (List.mem_append.mp hm).resolve_right hdl₂
  obtain ⟨C, D, rfl⟩ := List.append_of_mem hdl₁
  -- the two splits at `d` of the old list agree, and so do the two of the new one
  have hold : A ++ d :: B = C ++ d :: (D ++ l₂) := by rw [← hsplit, e₁]; simp
  obtain ⟨rfl, -, rfl⟩ := (List.append_cons_inj_of_notMem hdA hdB).mp hold
  have hnew : A ++ d :: (D ++ x :: l₂) = A' ++ d :: B' := by rw [← e₃, e₂]; simp
  have hdx : d ≠ x := by rintro rfl; omega
  have hdD : d ∉ D ++ x :: l₂ := by
    simp only [List.mem_append, List.mem_cons] at hdB ⊢
    tauto
  obtain ⟨rfl, -, rfl⟩ := (List.append_cons_inj_of_notMem hdA hdD).mp hnew
  refine ⟨A ++ D, l₂, by simp, by rw [hrem]; simp, fun a ha => h₁ a ?_, h₂⟩
  simp only [List.mem_append, List.mem_cons] at ha ⊢
  tauto

lemma releaseOf_spec {d : Allocation} (hle : d.start ≤ d.end_) (hmax : d.end_ < 4294967296)
    (hpages : nFreePagesThreshold ≤ (releaseOf d).numPages) :
    d.start ≤ (releaseOf d).alignedStart ∧ (releaseOf d).alignedStart < d.start + 4096 ∧
      (releaseOf d).alignedEnd ≤ d.end_ ∧ d.end_ < (releaseOf d).alignedEnd + 4096 ∧
      (releaseOf d).alignedEnd = (releaseOf d).alignedStart + 4096 * (releaseOf d).numPages ∧
      (releaseOf d).alignedStart % 4096 = 0 := by
  have hsize : nodeSize d = d.end_ - d.start := u32Sub_of_le hle hmax
  simp only [releaseOf, nFreePagesThreshold, pageSize, addrPage, hsize, u32Sub, u32] at hpages ⊢
  split_ifs at hpages ⊢ with hbig
  · omega
  · omega

/-- The list `l` is `keep` with free, non-empty remnants of a block put in. -/
structure Remnants (keep l : List Allocation) : Prop where
  layout : Layout l
  subset : ∀ c ∈ keep, c ∈ l
  new : ∀ c ∈ l, c ∈ keep ∨ (c.used = false ∧ c.start < c.end_)

namespace Remnants

variable {A B keep l l₁ l₂ : List Allocation} {d m x : Allocation}

lemma refl (h : Layout keep) : Remnants keep keep := ⟨h, fun _ hc => hc, fun _ hc => Or.inl hc⟩

lemma of_cut (h : Layout (A ++ d :: B)) (hlo : m.start = d.start) (hne : m.start < m.end_)
    (hhi : m.end_ ≤ d.end_) (hm : m.used = false) : Remnants (A ++ B) (A ++ m :: B) := by
  refine ⟨h.cut hlo hne.le hhi (by simp [hm]), fun c hc => ?_, fun c hc => ?_⟩
  · simp only [List.mem_append, List.mem_cons] at hc ⊢
    tauto
  · simp only [List.mem_append, List.mem_cons] at hc ⊢
    rcases hc with hc | rfl | hc
    · exact Or.inl (Or.inl hc)
    · exact Or.inr ⟨hm, hne⟩
    · exact Or.inl (Or.inr hc)

lemma insert (h : Remnants keep (l₁ ++ l₂)) (hx : x.start < x.end_) (hmax : x.end_ < 4294967296)
    (hused : x.used = false) (h₁ : ∀ a ∈ l₁, a.start < x.start) (h₂ : ∀ b ∈ l₂, x.start ≤ b.start)
    (hapart : ∀ a ∈ l₁ ++ l₂, a.start < a.end_ → Apart a x) : Remnants keep (l₁ ++ x :: l₂) := by
  refine ⟨h.layout.insert hx.le hmax (by simp [hused]) h₁ h₂ fun a ha hne _ => hapart a ha hne,
    fun c hc => ?_, fun c hc => ?_⟩
  · have := h.subset c hc
    simp only [List.mem_append, List.mem_cons] at this ⊢
    tauto
  · simp only [List.mem_append, List.mem_cons] at hc
    rcases hc with hc | rfl | hc
    · exact h.new c (by simp [hc])
    · exact Or.inr ⟨hused, hx⟩
    · exact h.new c (by simp [hc])

lemma used (h : Remnants keep l) (u : Allocation) (hu : u.used = true) : u ∈ l ↔ u ∈ keep :=
  ⟨fun hm => (h.new u hm).resolve_right (by simp [hu]), h.subset u⟩

lemma full (h : Remnants keep l) (hf : Full keep) : Full l :=
  fun c hc => (h.new c hc).elim (hf c) And.right

end Remnants

private lemma remnants_both {t : MemTree} {p : Path} {d x : Allocation} {a b : MemTree}
    {A B : List Allocation} {size : ℕ} (h : Layout t.inorder) (hsub : t.subtree p = node d a b)
    (hsplit : t.inorder = A ++ d :: B)
    (hmap : (modifyAt (mapRoot (shrinkBlock size)) p t).inorder = A ++ shrinkBlock size d :: B)
    (hd : d.used = false) (hxu : x.used = false) (hne : d.start < (shrinkBlock size d).end_)
    (hmid : (shrinkBlock size d).end_ ≤ x.start) (hx : x.start < x.end_) (hend : x.end_ = d.end_) :
    Remnants (A ++ B) (modifyAt (mapRoot (shrinkBlock size)) p (addNode x t)).inorder := by
  have hmax := h.lt_max d (by rw [hsplit]; simp)
  have hlay : Layout (A ++ d :: B) := hsplit ▸ h
  have hcut : Remnants (A ++ B) (A ++ shrinkBlock size d :: B) :=
    Remnants.of_cut hlay rfl hne (by omega) hd
  have hcomm := @BST.addNode_modifyAt_mapRoot _ compareFunc x (shrinkBlock size)
    (fun _ => rfl) p t (by simp [hsub])
  rw [addNode, hcomm]
  obtain ⟨l₁, l₂, e₁, e₂, h₁, h₂⟩ := inorder_addNode (hmap ▸ hcut.layout) x
  rw [addNode] at e₂
  rw [e₂]
  rw [hmap] at e₁
  refine (e₁ ▸ hcut).insert hx (hend ▸ hmax) hxu h₁ h₂ fun c hc hce => ?_
  rw [← e₁] at hc
  simp only [List.mem_append, List.mem_cons] at hc
  rcases hc with hc | rfl | hc
  · exact hlay.apart_part (by omega) (by omega) (by omega) (by simp [hc]) hce
  · exact Or.inl hmid
  · exact hlay.apart_part (by omega) (by omega) (by omega) (by simp [hc]) hce

private lemma remnants_back {t : MemTree} {p : Path} {d x : Allocation} {a b : MemTree}
    {A B : List Allocation} (h : Layout t.inorder) (hsub : t.subtree p = node d a b)
    (hsplit : t.inorder = A ++ d :: B) (hxu : x.used = false) (hlt : d.start < x.start)
    (hx : x.start < x.end_) (hend : x.end_ = d.end_) :
    Remnants (A ++ B) (modifyAt removeNode p (addNode x t)).inorder := by
  have hmax := h.lt_max d (by rw [hsplit]; simp)
  have hlay : Layout (A ++ d :: B) := hsplit ▸ h
  obtain ⟨l₁, l₂, e₁, e₂, h₁, h₂⟩ := remove_addNode h hsub hsplit (by omega) hlt
  have hkeep : Layout (l₁ ++ l₂) := e₁ ▸ hlay.sublist (by simp)
  rw [e₁, e₂]
  refine (Remnants.refl hkeep).insert hx (hend ▸ hmax) hxu h₁ h₂ fun c hc hce => ?_
  exact hlay.apart_part (by omega) hlt.le (by omega) (e₁ ▸ hc) hce

lemma releasePages_spec {t : MemTree} {p : Path} {d : Allocation} {a b : MemTree}
    {A B : List Allocation} (h : Layout t.inorder) (hsub : t.subtree p = node d a b)
    (hsplit : t.inorder = A ++ d :: B) (hd : d.used = false)
    (hpages : nFreePagesThreshold ≤ (releaseOf d).numPages) :
    Remnants (A ++ B) (releasePages d p p t).inorder := by
  have hmem : d ∈ t.inorder := by rw [hsplit]; simp
  have hle := h.start_le hmem
  have hmax := h.lt_max d hmem
  have hsize := h.nodeSize_eq hmem
  obtain ⟨hs₁, hs₂, he₁, he₂, hend, hal⟩ := releaseOf_spec hle hmax hpages
  have hnp : 2 ≤ (releaseOf d).numPages := hpages
  have hlay : Layout (A ++ d :: B) := hsplit ▸ h
  obtain ⟨A', B', e, hmap, hrem⟩ := exists_split hsub
  obtain ⟨hdA, hdB⟩ := hlay.notMem_of_split (by omega)
  obtain ⟨rfl, -, rfl⟩ := (List.append_cons_inj_of_notMem hdA hdB).mp (hsplit.symm.trans e)
  have hwhole : u32 ((releaseOf d).numPages * pageSize) = (releaseOf d).numPages * 4096 :=
    u32_of_lt (by simp only [pageSize]; omega)
  have hpart1 : u32Sub (releaseOf d).alignedStart d.start = (releaseOf d).alignedStart - d.start :=
    u32Sub_of_le hs₁ (by omega)
  have hpart2 : u32Sub d.end_ (releaseOf d).alignedEnd = d.end_ - (releaseOf d).alignedEnd :=
    u32Sub_of_le he₁ hmax
  have hshrink : (shrinkBlock (u32Sub (nodeSize d) ((releaseOf d).alignedStart - d.start)) d).end_ =
      (releaseOf d).alignedStart := by
    simp only [shrinkBlock, hsize, u32Sub]
    omega
  simp only [releasePages, hwhole, hpart1, hpart2]
  split_ifs with h₁ h₂ h₃ h₃
  · rw [hrem]
    exact Remnants.refl (hlay.sublist (by simp))
  · exact remnants_both h hsub hsplit (hmap _) hd hd (by omega) (by simp only; omega)
      (by simp only; omega) rfl
  · rw [hmap]
    exact Remnants.of_cut hlay rfl (by rw [hshrink]; simp only [shrinkBlock]; omega) (by omega) hd
  · exact remnants_back h hsub hsplit hd (by simp only; omega) (by simp only; omega) rfl
  · -- no remnant at all would mean that the pages are the whole block
    omega

/-! ## `free_node` and `free` -/

/-- Whether freeing the node at a path gives whole pages back: the test of `free_node` on the
coalesced block. -/
def releases (t : MemTree) (ptr : Path) : Bool :=
  let t := t.modifyAt (mapRoot fun d => { d with used := false }) ptr
  match ((t.modifyAt mergeFreeNode ptr).subtree ptr).root? with
  | none => false
  | some d => (releaseOf d).numPages ≥ nFreePagesThreshold

/-- **`free_node`** succeeds, keeps the layout, and leaves the used blocks other than the freed
one.  Without a release it covers the same addresses. -/
lemma freeNode_spec {t : MemTree} {p : Path} {d : Allocation} {a b : MemTree}
    (h : Layout t.inorder) (hsub : t.subtree p = node d a b) :
    ∃ t' pages, freeNode t p p = .ok (t', pages) ∧ Layout t'.inorder ∧
      (∀ u : Allocation, u.used = true → (u ∈ t'.inorder ↔ u ∈ t.inorder ∧ u ≠ d)) ∧
      (Full t.inorder → Full t'.inorder) ∧
      (releases t p = false → pages = [] ∧
        (Full t.inorder → ∀ x, Covers t'.inorder x ↔ Covers t.inorder x)) := by
  obtain ⟨A, B, hsplit, hmap, -⟩ := exists_split hsub
  have hlay : Layout (A ++ d :: B) := hsplit ▸ h
  -- the node is marked free
  set t₁ := modifyAt (mapRoot fun d => { d with used := false }) p t with ht₁
  have hlist₁ : t₁.inorder = A ++ { d with used := false } :: B := hmap _
  have hlay₁ : Layout t₁.inorder :=
    hlist₁ ▸ hlay.cut rfl (hlay.start_le (d := d) (by simp)) le_rfl (by simp)
  have hsub₁ : t₁.subtree p = node { d with used := false } a b := by
    rw [ht₁, subtree_modifyAt _ _ _ (by simp [hsub]), hsub, mapRoot]
  have hfull₁ : Full t.inorder → Full t₁.inorder := fun hf c hc => by
    rw [hlist₁] at hc
    simp only [List.mem_append, List.mem_cons] at hc
    rcases hc with hc | rfl | hc
    · exact hf c (by rw [hsplit]; simp [hc])
    · exact hf d (by rw [hsplit]; simp)
    · exact hf c (by rw [hsplit]; simp [hc])
  -- and merged with its free neighbours
  obtain ⟨pre, post, hpre, hmod⟩ := exists_context p t₁ (by simp [hsub₁])
  rw [hsub₁] at hpre hmod
  obtain ⟨d', a', b', hmerge, hused', -, hco⟩ := mergeFreeNode_spec (hpre ▸ hlay₁) rfl
  rw [← hpre] at hco
  set t₂ := modifyAt mergeFreeNode p t₁ with ht₂
  have hsub₂ : t₂.subtree p = node d' a' b' := by
    rw [ht₂, subtree_modifyAt _ _ _ (by simp [hsub₁]), hsub₁, hmerge]
  have hlist₂ : t₂.inorder = pre ++ (node d' a' b').inorder ++ post := by rw [hmod, hmerge]
  rw [← hlist₂] at hco
  have hused₂ : ∀ u : Allocation, u.used = true →
      (u ∈ t₂.inorder ↔ u ∈ t.inorder ∧ u ≠ d) := fun u hu => by
    have hne : u ≠ { d with used := false } := by rintro rfl; simp at hu
    have hAB : u ∈ A ∨ u ∈ B → u ≠ d := by
      rintro hm rfl
      obtain ⟨hA, hB⟩ := hlay.notMem_of_split (hlay.used_nonempty u (by simp) hu)
      exact hm.elim hA hB
    rw [hco.used u hu, hlist₁, hsplit]
    simp only [List.mem_append, List.mem_cons, hne]
    tauto
  have hrel : releases t p = decide ((releaseOf d').numPages ≥ nFreePagesThreshold) := by
    simp [releases, ← ht₁, ← ht₂, hsub₂, root?]
  by_cases hpages : (releaseOf d').numPages ≥ nFreePagesThreshold
  · obtain ⟨A', B', hsplit', -, -⟩ := exists_split hsub₂
    have hrem := releasePages_spec hco.layout hsub₂ hsplit' hused' hpages
    refine ⟨releasePages d' p p t₂, _,
      by simp only [freeNode, ← ht₁, ← ht₂, hsub₂, root?, hpages, if_true, ne_eq, not_true_eq_false,
        if_false]; rfl,
      hrem.layout, fun u hu => ?_, fun hf => hrem.full fun c hc => ?_,
      by simp [hrel, hpages]⟩
    · rw [hrem.used u hu, ← hused₂ u hu, hsplit']
      have : u ≠ d' := by rintro rfl; simp [hused'] at hu
      simp [this]
    · refine hco.full (hfull₁ hf) c ?_
      rw [hsplit']
      simp only [List.mem_append, List.mem_cons] at hc ⊢
      tauto
  · refine ⟨t₂, [], by simp [freeNode, ← ht₁, ← ht₂, hsub₂, root?, hpages], hco.layout, hused₂,
      fun hf => hco.full (hfull₁ hf), fun _ => ⟨rfl, fun hf x => ?_⟩⟩
    rw [hco.covers (hfull₁ hf) x, hlist₁, hsplit]
    exact covered_cut rfl rfl

/-! ## What `free_node` keeps on any tree -/

private lemma mem_mergeFreeNode {u d : Allocation} {a b : MemTree} (hu : u.used = true)
    (hd : d.used = false) :
    ∃ d' a' b', mergeFreeNode (node d a b) = node d' a' b' ∧ d'.used = false ∧
      (u ∈ (node d a b).inorder → u ∈ (node d' a' b').inorder) := by
  set old := (node d a b).inorder with hold
  have hstep : ∀ (merge : MemTree → Bool × MemTree),
      (∀ d a b, merge (node d a b) = (false, node d a b) ∨ ∃ cur d' a' b',
        merge (node d a b) = (true, node d' a' b') ∧ d'.used = d.used ∧ cur.used = d.used ∧
        ∀ c ∈ (node d a b).inorder, c = d ∨ c = cur ∨ c ∈ (node d' a' b').inorder) →
      ∀ t : MemTree, (∃ d a b, t = node d a b ∧ d.used = false ∧ (u ∈ old → u ∈ t.inorder)) →
        ∃ d a b, (merge t).2 = node d a b ∧ d.used = false ∧
          (u ∈ old → u ∈ (merge t).2.inorder) := by
    rintro merge hmerge t ⟨d, a, b, rfl, hd, hm⟩
    rcases hmerge d a b with heq | ⟨cur, d', a', b', heq, hd', hcur, hkeep⟩
    · exact ⟨d, a, b, by rw [heq], hd, by rwa [heq]⟩
    · refine ⟨d', a', b', by rw [heq], hd'.trans hd, fun hu' => ?_⟩
      rw [heq]
      rcases hkeep u (hm hu') with rfl | rfl | h
      · simp [hd] at hu
      · simp [hcur.trans hd] at hu
      · exact h
  have hpred := hstep mergeNodeWithFreePredecessor fun d a b => by
    rcases mergePredecessor_eq d a b with heq | ⟨cur, rest, a', ha, hsim, heq, ha'⟩
    · exact Or.inl heq
    · refine Or.inr ⟨cur, _, a', b, heq, rfl, (isSimilarAndContiguous_iff.mp hsim).2.2, ?_⟩
      intro c hc
      simp only [inorder_node, ha, ha', List.mem_append, List.mem_cons] at hc ⊢
      tauto
  have hsucc := hstep mergeNodeWithFreeSuccessor fun d a b => by
    rcases mergeSuccessor_eq d a b with heq | ⟨cur, rest, b', hb, hsim, heq, hb'⟩
    · exact Or.inl heq
    · refine Or.inr ⟨cur, _, a, b', heq, rfl, (isSimilarAndContiguous_iff.mp hsim).2.2, ?_⟩
      intro c hc
      simp only [inorder_node, hb, hb', List.mem_append, List.mem_cons] at hc ⊢
      tauto
  have h₁ := whileTrue_invariant _ hpred ((node d a b).numNodes + 1) _ ⟨d, a, b, rfl, hd, id⟩
  obtain ⟨d', a', b', heq, hd', hm'⟩ := whileTrue_invariant _ hsucc
    ((whileTrue mergeNodeWithFreePredecessor ((node d a b).numNodes + 1) (node d a b)).numNodes + 1)
    _ h₁
  exact ⟨d', a', b', heq, hd', heq ▸ hm'⟩

private lemma mem_releasePages {u d : Allocation} {a b : MemTree} {t : MemTree} {p : Path}
    (hu : u.used = true) (hd : d.used = false) (hsub : t.subtree p = node d a b)
    (hm : u ∈ t.inorder) : u ∈ (releasePages d p p t).inorder := by
  have hud : u ≠ d := by rintro rfl; simp [hd] at hu
  -- both writes at the path of the node only take that node out
  have hkeep : ∀ (t : MemTree) (a b : MemTree), t.subtree p = node d a b → u ∈ t.inorder →
      u ∈ (modifyAt removeNode p t).inorder ∧
      ∀ f, u ∈ (modifyAt (mapRoot f) p t).inorder := fun t a b hsub hm => by
    obtain ⟨A, B, hsplit, hmap, hrem⟩ := exists_split hsub
    rw [hsplit] at hm
    rw [hrem]
    simp only [List.mem_append, List.mem_cons, hud, false_or] at hm ⊢
    refine ⟨hm, fun f => ?_⟩
    rw [hmap f]
    simp only [List.mem_append, List.mem_cons]
    tauto
  obtain ⟨a', b', hsub'⟩ := @BST.subtree_addNode _ compareFunc
    { d with start := (releaseOf d).alignedEnd } p t d a b hsub
  have hadd := hkeep _ a' b' hsub' (BST.mem_addNode.mpr (Or.inr hm))
  have hold := hkeep t a b hsub hm
  simp only [releasePages]
  split_ifs
  · exact hold.1
  · exact hadd.2 _
  · exact hold.2 _
  · exact hadd.1
  · exact hold.1

lemma mem_freeNode {u d : Allocation} {a b t t' : MemTree} {p : Path} {pages : List ℕ}
    (hu : u.used = true) (hne : u ≠ d) (hsub : t.subtree p = node d a b) (hm : u ∈ t.inorder)
    (hrun : freeNode t p p = .ok (t', pages)) : u ∈ t'.inorder := by
  obtain ⟨A, B, hsplit, hmap, -⟩ := exists_split hsub
  set t₁ := modifyAt (mapRoot fun d => { d with used := false }) p t with ht₁
  have hsub₁ : t₁.subtree p = node { d with used := false } a b := by
    rw [ht₁, subtree_modifyAt _ _ _ (by simp [hsub]), hsub, mapRoot]
  have hm₁ : u ∈ t₁.inorder := by
    rw [hsplit] at hm
    rw [hmap]
    simp only [List.mem_append, List.mem_cons, hne, false_or] at hm ⊢
    tauto
  obtain ⟨pre, post, hpre, hmod⟩ := exists_context p t₁ (by simp [hsub₁])
  rw [hsub₁] at hpre hmod
  obtain ⟨d', a', b', hmerge, hd', hkeep⟩ := mem_mergeFreeNode (u := u)
    (d := { d with used := false }) (a := a) (b := b) hu rfl
  set t₂ := modifyAt mergeFreeNode p t₁ with ht₂
  have hsub₂ : t₂.subtree p = node d' a' b' := by
    rw [ht₂, subtree_modifyAt _ _ _ (by simp [hsub₁]), hsub₁, hmerge]
  have hm₂ : u ∈ t₂.inorder := by
    rw [hpre] at hm₁
    rw [hmod, hmerge]
    simp only [List.mem_append] at hm₁ ⊢
    rcases hm₁ with (hm₁ | hm₁) | hm₁
    · exact Or.inl (Or.inl hm₁)
    · exact Or.inl (Or.inr (hkeep hm₁))
    · exact Or.inr hm₁
  simp only [freeNode, ← ht₁, ← ht₂, hsub₂, root?, ne_eq, not_true_eq_false, if_false] at hrun
  split_ifs at hrun
  · simp only [Except.ok.injEq, Prod.mk.injEq] at hrun
    exact hrun.1 ▸ mem_releasePages hu hd' hsub₂ hm₂
  · simp only [Except.ok.injEq, Prod.mk.injEq] at hrun
    exact hrun.1 ▸ hm₂

end BrebOS.MemTree

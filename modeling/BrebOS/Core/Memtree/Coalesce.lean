import BrebOS.Core.Memtree.Run
import BrebOS.Lib.Run

/-!
# Coalescing

`merge_free_node` looks for the neighbours of a freed node below the node only: for the predecessor in
its left subtree, for the successor in its right one.  Where a subtree is empty the neighbour in the
order of the addresses is an ancestor, and it is missed.  The other way to two free nodes that touch is
the remainder `allocate` inserts, which takes the page info of the request and not the one of the node
it is cut from.

`merged_after_calls`: in a run in which neither happens, no two free nodes of one page info touch after
any call.  A node that is merged makes no new pair behind it, since it was in no pair before, so each of
the two loops of `merge_free_node` turns at most once (`predecessor_loop`, `successor_loop`).
-/

namespace BrebOS.MemTree

open BinaryTree Ranges

/-- Two free nodes of one page info, the second one starting where the first one ends. -/
def Mergeable (c d : Allocation) : Prop :=
  c.used = false ∧ d.used = false ∧ c.pageInfo = d.pageInfo ∧ c.end_ = d.start

instance (c d : Allocation) : Decidable (Mergeable c d) := by
  unfold Mergeable
  infer_instance

/-- No two nodes are left to merge. -/
def Merged (l : List Allocation) : Prop := ∀ c ∈ l, ∀ d ∈ l, ¬ Mergeable c d

/-! ## The loops of `merge_free_node` -/

section Loops

variable {A B l l' : List Allocation} {c d x : Allocation} {a b : MemTree} {n : ℕ}

lemma whileTrue_stopped {β : Type} {step : β → Bool × β} {x : β} (h : step x = (false, x)) (n : ℕ) :
    whileTrue step n x = x := by
  cases n with
  | zero => rfl
  | succ n => rw [whileTrue, h]

lemma whileTrue_once {β : Type} {step : β → Bool × β} {x y : β} (h : step x = (true, y))
    (hy : step y = (false, y)) (n : ℕ) : whileTrue step (n + 1) x = y := by
  rw [whileTrue, h]
  exact whileTrue_stopped hy n

lemma Layout.around (h : Layout (A ++ d :: B)) (hf : Full (A ++ d :: B)) :
    (∀ c ∈ A, c.end_ ≤ d.start) ∧ ∀ c ∈ B, d.end_ ≤ c.start := by
  have hp := h.ordered.pairwise_of_nonempty hf
  rw [List.pairwise_append, List.pairwise_cons] at hp
  exact ⟨fun c hc => hp.2.2 c hc d (by simp), hp.2.1.1⟩

lemma mergePredecessor_stays (hd : d.used = false) (hpos : d.start < d.end_)
    (hne : ∀ c ∈ a.inorder, c.start < c.end_ ∧ c.end_ ≤ d.start ∧ ¬ Mergeable c d) :
    mergeNodeWithFreePredecessor (node d a b) = (false, node d a b) := by
  rcases mergePredecessor_eq d a b with h | ⟨cur, pre, a', ha, hsim, -, -⟩
  · exact h
  · obtain ⟨htouch, hinfo, hused⟩ := isSimilarAndContiguous_iff.mp hsim
    obtain ⟨hcur, hle, hnot⟩ := hne cur (by simp [ha])
    refine absurd ⟨hused.trans hd, hd, hinfo, ?_⟩ hnot
    rcases htouch with htouch | htouch
    · omega
    · exact htouch

lemma mergeSuccessor_stays (hd : d.used = false) (hpos : d.start < d.end_)
    (hne : ∀ c ∈ b.inorder, c.start < c.end_ ∧ d.end_ ≤ c.start ∧ ¬ Mergeable d c) :
    mergeNodeWithFreeSuccessor (node d a b) = (false, node d a b) := by
  rcases mergeSuccessor_eq d a b with h | ⟨cur, post, b', hb, hsim, -, -⟩
  · exact h
  · obtain ⟨htouch, hinfo, hused⟩ := isSimilarAndContiguous_iff.mp hsim
    obtain ⟨hcur, hle, hnot⟩ := hne cur (by simp [hb])
    refine absurd ⟨hd, hused.trans hd, hinfo.symm, ?_⟩ hnot
    rcases htouch with htouch | htouch
    · exact htouch.symm
    · omega

lemma mergePredecessor_fst (ha : a.inorder = A ++ [c]) :
    (mergeNodeWithFreePredecessor (node d a b)).1 = c.isSimilarAndContiguous d := by
  obtain ⟨x, q, pre, hsub, hin, -⟩ := rightmostPath_spec a (by rintro rfl; simp at ha)
  have hx : x = c := by
    have hlast := congrArg List.getLast? (hin.symm.trans ha)
    simpa using hlast
  subst hx
  simp only [mergeNodeWithFreePredecessor, hsub, root?]
  split_ifs with h
  · exact h.symm
  · simpa using h

lemma mergeSuccessor_fst (hb : b.inorder = c :: B) :
    (mergeNodeWithFreeSuccessor (node d a b)).1 = c.isSimilarAndContiguous d := by
  obtain ⟨x, q, post, hsub, hin, -⟩ := leftmostPath_spec b (by rintro rfl; simp at hb)
  have hx : x = c := (List.cons.inj (hin.symm.trans hb)).1
  subst hx
  simp only [mergeNodeWithFreeSuccessor, hsub, root?]
  split_ifs with h
  · exact h.symm
  · simpa using h

lemma predecessor_loop (hd : d.used = false) (hpos : d.start < d.end_)
    (hne : ∀ c ∈ a.inorder, c.start < c.end_ ∧ c.end_ ≤ d.start)
    (hsorted : a.inorder.Pairwise fun c x => c.end_ ≤ x.start) (hmerged : Merged a.inorder) (n : ℕ) :
    ∃ s a', whileTrue mergeNodeWithFreePredecessor (n + 1) (node d a b) = node { d with start := s } a' b ∧
      s ≤ d.start ∧ (∀ c ∈ a'.inorder, c ∈ a.inorder ∧ c.end_ ≤ s) ∧
      (s = d.start ∧ (∀ c ∈ a.inorder, ¬ Mergeable c d) ∨
        ∃ c ∈ a.inorder, Mergeable c d ∧ c.start = s) := by
  by_cases hex : ∃ c ∈ a.inorder, Mergeable c d
  · obtain ⟨c, hc, hm⟩ := hex
    -- what touches the node is the last of the subtree
    obtain ⟨pre, post, hsplit⟩ := List.append_of_mem hc
    have hlast : post = [] := by
      refine List.eq_nil_iff_forall_not_mem.mpr fun x hx => ?_
      rw [hsplit, List.pairwise_append, List.pairwise_cons] at hsorted
      have h₁ := hsorted.2.1.1 x hx
      have h₂ := hne x (by rw [hsplit]; simp [hx])
      have h₃ := hm.2.2.2
      omega
    subst hlast
    have htrue : (mergeNodeWithFreePredecessor (node d a b)).1 = true := by
      rw [mergePredecessor_fst hsplit, isSimilarAndContiguous_iff]
      exact ⟨Or.inr hm.2.2.2, hm.2.2.1, hm.1.trans hm.2.1.symm⟩
    rcases mergePredecessor_eq d a b with h | ⟨cur, pre', a', ha, -, heq, ha'⟩
    · rw [h] at htrue
      cases htrue
    · obtain ⟨rfl, hcur⟩ := List.append_inj' (hsplit.symm.trans ha) rfl
      obtain rfl := (List.cons.inj hcur).1
      have hcne := hne c hc
      have hsub : ∀ x ∈ a'.inorder, x ∈ a.inorder ∧ x.end_ ≤ c.start := by
        intro x hx
        rw [ha'] at hx
        rw [hsplit, List.pairwise_append] at hsorted
        exact ⟨by rw [hsplit]; simp [hx], hsorted.2.2 x hx c (by simp)⟩
      refine ⟨c.start, a', whileTrue_once heq ?_ n, by omega, hsub, Or.inr ⟨c, hc, hm, rfl⟩⟩
      refine mergePredecessor_stays hd (by simp only; omega) fun x hx => ?_
      obtain ⟨hx, hxe⟩ := hsub x hx
      refine ⟨(hne x hx).1, hxe, fun hxm => hmerged x hx c hc ?_⟩
      exact ⟨hxm.1, hm.1, hxm.2.2.1.trans hm.2.2.1.symm, hxm.2.2.2⟩
  · push Not at hex
    refine ⟨d.start, a, whileTrue_stopped (mergePredecessor_stays hd hpos fun c hc => ?_) _, le_rfl,
      fun c hc => ⟨hc, (hne c hc).2⟩, Or.inl ⟨rfl, hex⟩⟩
    exact ⟨(hne c hc).1, (hne c hc).2, hex c hc⟩

lemma successor_loop (hd : d.used = false) (hpos : d.start < d.end_)
    (hne : ∀ c ∈ b.inorder, c.start < c.end_ ∧ d.end_ ≤ c.start ∧ c.end_ < 4294967296)
    (hsorted : b.inorder.Pairwise fun c x => c.end_ ≤ x.start) (hmerged : Merged b.inorder) (n : ℕ) :
    ∃ e b', whileTrue mergeNodeWithFreeSuccessor (n + 1) (node d a b) = node { d with end_ := e } a b' ∧
      d.end_ ≤ e ∧ (∀ c ∈ b'.inorder, c ∈ b.inorder ∧ e ≤ c.start) ∧
      (e = d.end_ ∧ (∀ c ∈ b.inorder, ¬ Mergeable d c) ∨
        ∃ c ∈ b.inorder, Mergeable d c ∧ c.end_ = e) := by
  by_cases hex : ∃ c ∈ b.inorder, Mergeable d c
  · obtain ⟨c, hc, hm⟩ := hex
    obtain ⟨pre, post, hsplit⟩ := List.append_of_mem hc
    have hfirst : pre = [] := by
      refine List.eq_nil_iff_forall_not_mem.mpr fun x hx => ?_
      rw [hsplit, List.pairwise_append] at hsorted
      have h₁ := hsorted.2.2 x hx c (by simp)
      have h₂ := hne x (by rw [hsplit]; simp [hx])
      have h₃ := hm.2.2.2
      omega
    subst hfirst
    have htrue : (mergeNodeWithFreeSuccessor (node d a b)).1 = true := by
      rw [mergeSuccessor_fst hsplit, isSimilarAndContiguous_iff]
      exact ⟨Or.inl hm.2.2.2.symm, hm.2.2.1.symm, hm.2.1.trans hm.1.symm⟩
    rcases mergeSuccessor_eq d a b with h | ⟨cur, post', b', hb, -, heq, hb'⟩
    · rw [h] at htrue
      cases htrue
    · obtain ⟨rfl, rfl⟩ := List.cons.inj (hsplit.symm.trans hb)
      have hcne := hne c hc
      have hend : u32 (d.end_ + nodeSize c) = c.end_ := by
        have htouch := hm.2.2.2
        rw [nodeSize, u32Sub_of_le hcne.1.le hcne.2.2, u32_of_lt (by omega)]
        omega
      rw [hend] at heq
      have hsub : ∀ x ∈ b'.inorder, x ∈ b.inorder ∧ c.end_ ≤ x.start := by
        intro x hx
        rw [hb'] at hx
        rw [hsplit, List.nil_append, List.pairwise_cons] at hsorted
        exact ⟨by rw [hsplit]; simp [hx], hsorted.1 x hx⟩
      refine ⟨c.end_, b', whileTrue_once heq ?_ n, by omega, hsub, Or.inr ⟨c, hc, hm, rfl⟩⟩
      refine mergeSuccessor_stays hd (by simp only; omega) fun x hx => ?_
      obtain ⟨hx, hxe⟩ := hsub x hx
      refine ⟨(hne x hx).1, hxe, fun hxm => hmerged c hc x hx ?_⟩
      exact ⟨hm.2.1, hxm.2.1, hm.2.2.1.symm.trans hxm.2.2.1, hxm.2.2.2⟩
  · push Not at hex
    refine ⟨d.end_, b, whileTrue_stopped (mergeSuccessor_stays hd hpos fun c hc => ?_) _, le_rfl,
      fun c hc => ⟨hc, (hne c hc).2.1⟩, Or.inl ⟨rfl, hex⟩⟩
    exact ⟨(hne c hc).1, (hne c hc).2.1, hex c hc⟩

end Loops

/-! ## What is left of a freed block -/

/-- `r` is left in the tree of the merged block `m`, when its whole pages are given back. -/
def LeftOver (m r : Allocation) : Prop :=
  r.used = false ∧ r.pageInfo = m.pageInfo ∧ r.start < r.end_ ∧
    if nFreePagesThreshold ≤ (releaseOf m).numPages then
      r.start = m.start ∧ r.end_ = (releaseOf m).alignedStart ∨
        r.start = (releaseOf m).alignedEnd ∧ r.end_ = m.end_
    else r.start = m.start ∧ r.end_ = m.end_

section LeftOvers

variable {A B keep l : List Allocation} {d m r r' : Allocation} {a b t : MemTree} {p : Path}

lemma LeftOver.inside (h : LeftOver m r) (hle : m.start ≤ m.end_) (hmax : m.end_ < 4294967296) :
    m.start ≤ r.start ∧ r.end_ ≤ m.end_ := by
  obtain ⟨-, -, hlt, h⟩ := h
  split_ifs at h with hpages
  · obtain ⟨h₁, h₂, h₃, h₄, h₅, -⟩ := releaseOf_spec hle hmax hpages
    omega
  · omega

lemma LeftOver.apart (h : LeftOver m r) (h' : LeftOver m r') (hle : m.start ≤ m.end_)
    (hmax : m.end_ < 4294967296) : r.end_ ≠ r'.start := by
  obtain ⟨-, -, hlt, h⟩ := h
  obtain ⟨-, -, hlt', h'⟩ := h'
  split_ifs at h h' with hpages
  · obtain ⟨h₁, h₂, h₃, h₄, h₅, -⟩ := releaseOf_spec hle hmax hpages
    have hnp : 2 ≤ (releaseOf m).numPages := hpages
    omega
  · omega

lemma merged_of_leftOver (keep : List Allocation) (m : Allocation) (hkeep : Merged keep)
    (hle : m.start < m.end_) (hmax : m.end_ < 4294967296)
    (hapart : ∀ c ∈ keep, c.start < c.end_ ∧ (c.end_ ≤ m.start ∨ m.end_ ≤ c.start))
    (hfirst : ∀ r, LeftOver m r → r.start = m.start → ∀ c ∈ keep, ¬ Mergeable c m)
    (hlast : ∀ r, LeftOver m r → r.end_ = m.end_ → ∀ c ∈ keep, ¬ Mergeable m c)
    (hm : m.used = false) (hl : ∀ c ∈ l, c ∈ keep ∨ LeftOver m c) : Merged l := by
  rintro c hc d hd hcd
  obtain ⟨hcu, hdu, hinfo, htouch⟩ := hcd
  rcases hl c hc with hc | hc
  · rcases hl d hd with hd | hd
    · exact hkeep c hc d hd ⟨hcu, hdu, hinfo, htouch⟩
    · -- a node that is kept ends where a part starts
      obtain ⟨h₁, h₂⟩ := hd.inside hle.le hmax
      obtain ⟨h₃, h₄⟩ := hapart c hc
      have h₅ := hd.2.2.1
      exact hfirst d hd (by omega) c hc ⟨hcu, hm, hinfo.trans hd.2.1, by omega⟩
  · obtain ⟨h₁, h₂⟩ := hc.inside hle.le hmax
    have h₅ := hc.2.2.1
    rcases hl d hd with hd | hd
    · obtain ⟨h₃, h₄⟩ := hapart d hd
      exact hlast c hc (by omega) d hd ⟨hm, hdu, hc.2.1.symm.trans hinfo, by omega⟩
    · exact hc.apart hd hle.le hmax htouch

lemma perm_addNode {x : Allocation} (h : Layout t.inorder) :
    (addNode x t).inorder.Perm (x :: t.inorder) := by
  obtain ⟨l₁, l₂, e₁, e₂, -⟩ := inorder_addNode h x
  rw [e₂, e₁]
  exact List.perm_middle

lemma mem_or_of_mem_middle {α : Type} {A B : List α} {m r : α} (h : r ∈ A ++ m :: B) :
    r = m ∨ r ∈ A ++ B := by
  simp only [List.mem_append, List.mem_cons] at h ⊢
  tauto

lemma releasePages_leaves (h : Layout t.inorder) (hsub : t.subtree p = node d a b)
    (hsplit : t.inorder = A ++ d :: B) (hd : d.used = false) (hlt : d.start < d.end_)
    (hpages : nFreePagesThreshold ≤ (releaseOf d).numPages)
    (hr : r ∈ (releasePages d p p t).inorder) : r ∈ A ++ B ∨ LeftOver d r := by
  have hmem : d ∈ t.inorder := by rw [hsplit]; simp
  have hmax := h.lt_max d hmem
  have hsize := h.nodeSize_eq hmem
  obtain ⟨hs₁, hs₂, he₁, he₂, hend, -⟩ := releaseOf_spec hlt.le hmax hpages
  have hlay : Layout (A ++ d :: B) := hsplit ▸ h
  obtain ⟨A', B', e, hmap, hrem⟩ := exists_split hsub
  obtain ⟨hdA, hdB⟩ := hlay.notMem_of_split hlt
  obtain ⟨rfl, -, rfl⟩ := (List.append_cons_inj_of_notMem hdA hdB).mp (hsplit.symm.trans e)
  have hpart1 : u32Sub (releaseOf d).alignedStart d.start = (releaseOf d).alignedStart - d.start :=
    u32Sub_of_le hs₁ (by omega)
  have hpart2 : u32Sub d.end_ (releaseOf d).alignedEnd = d.end_ - (releaseOf d).alignedEnd :=
    u32Sub_of_le he₁ hmax
  have hshrink : (shrinkBlock (u32Sub (nodeSize d) ((releaseOf d).alignedStart - d.start)) d).end_ =
      (releaseOf d).alignedStart := by
    simp only [shrinkBlock, hsize, u32Sub]
    omega
  have hfront : (releaseOf d).alignedStart - d.start ≠ 0 →
      LeftOver d (shrinkBlock (u32Sub (nodeSize d) ((releaseOf d).alignedStart - d.start)) d) := by
    intro hne
    refine ⟨hd, rfl, ?_, ?_⟩
    · rw [hshrink]
      simp only [shrinkBlock]
      omega
    · rw [if_pos hpages]
      exact Or.inl ⟨rfl, hshrink⟩
  have hback : d.end_ - (releaseOf d).alignedEnd ≠ 0 →
      LeftOver d { d with start := (releaseOf d).alignedEnd } := by
    intro hne
    refine ⟨hd, rfl, by simp only; omega, ?_⟩
    rw [if_pos hpages]
    exact Or.inr ⟨rfl, rfl⟩
  -- the other nodes once the back part is inserted
  have hothers : ∀ {C D : List Allocation},
      (addNode { d with start := (releaseOf d).alignedEnd } t).inorder = C ++ d :: D →
      ∀ c ∈ C ++ D, c = { d with start := (releaseOf d).alignedEnd } ∨ c ∈ A ++ B := by
    intro C D hCD c hc
    have hperm := (perm_addNode (x := { d with start := (releaseOf d).alignedEnd }) h)
    rw [hCD, hsplit] at hperm
    have hswap : (d :: (C ++ D)).Perm (d :: { d with start := (releaseOf d).alignedEnd } :: (A ++ B)) :=
      (List.perm_middle.symm.trans hperm).trans
        ((List.Perm.cons _ List.perm_middle).trans (List.Perm.swap _ _ _))
    exact List.mem_cons.mp (hswap.cons_inv.mem_iff.mp hc)
  simp only [releasePages, hpart1, hpart2] at hr
  split_ifs at hr with h₁ h₂ h₃ h₃
  · rw [hrem] at hr
    exact Or.inl hr
  · obtain ⟨a', b', hsub'⟩ :=
      BST.subtree_addNode { d with start := (releaseOf d).alignedEnd } p t d a b hsub
    obtain ⟨C, D, hCD, hmap', -⟩ :=
      exists_split (t := addNode { d with start := (releaseOf d).alignedEnd } t) hsub'
    rw [hmap'] at hr
    have hr' := mem_or_of_mem_middle hr
    rcases hr' with hr' | hr'
    · exact Or.inr (hr' ▸ hfront h₂)
    · rcases hothers hCD r hr' with hr' | hr'
      · exact Or.inr (hr' ▸ hback h₃)
      · exact Or.inl hr'
  · rw [hmap] at hr
    rcases mem_or_of_mem_middle hr with hr | hr
    · exact Or.inr (hr ▸ hfront h₂)
    · exact Or.inl hr
  · obtain ⟨a', b', hsub'⟩ :=
      BST.subtree_addNode { d with start := (releaseOf d).alignedEnd } p t d a b hsub
    obtain ⟨C, D, hCD, -, hrem'⟩ :=
      exists_split (t := addNode { d with start := (releaseOf d).alignedEnd } t) hsub'
    rw [hrem'] at hr
    rcases hothers hCD r hr with hr' | hr'
    · exact Or.inr (hr' ▸ hback h₃)
    · exact Or.inl hr'
  · rw [hrem] at hr
    exact Or.inl hr

end LeftOvers

/-! ## `free` -/

/-- The block `merge_free_node` makes of a freed node: joined with what touches it in its two
subtrees. -/
def mergedBlock (d : Allocation) (a b : MemTree) : Allocation :=
  { d with
    start := ((a.inorder.find? fun c => Mergeable c d).map Allocation.start).getD d.start
    end_ := ((b.inorder.find? fun c => Mergeable d c).map Allocation.end_).getD d.end_ }

/-- `free` misses no neighbour: where a subtree is empty, no free node of the same page info touches
the freed one on that side, or the pages next to that node are given back. -/
def FindsNeighbours (address : ℕ) (t : MemTree) : Prop :=
  ∀ p d a b, findAllocationNode address t = some p → t.subtree p = node d a b → d.used = true →
    let freed := { d with used := false }
    let block := mergedBlock freed a b
    (a = nil → (∃ c ∈ t.inorder, Mergeable c freed) →
      nFreePagesThreshold ≤ (releaseOf block).numPages ∧ (releaseOf block).alignedStart = block.start) ∧
    (b = nil → (∃ c ∈ t.inorder, Mergeable freed c) →
      nFreePagesThreshold ≤ (releaseOf block).numPages ∧ (releaseOf block).alignedEnd = block.end_)

section FreeNode

variable {t t' : MemTree} {p : Path} {d : Allocation} {a b : MemTree} {pages : List ℕ}
  {A B : List Allocation}

lemma find?_pred {s : ℕ} (h : Layout (A ++ d :: B)) (hf : Full (A ++ d :: B))
    (hs : s = d.start ∧ (∀ c ∈ A, ¬ Mergeable c d) ∨ ∃ c ∈ A, Mergeable c d ∧ c.start = s) :
    ((A.find? fun c => Mergeable c d).map Allocation.start).getD d.start = s := by
  have hbefore := (h.around hf).1
  cases hfind : A.find? fun c => Mergeable c d with
  | none =>
      rw [List.find?_eq_none] at hfind
      rcases hs with ⟨rfl, -⟩ | ⟨c, hc, hm, -⟩
      · rfl
      · exact absurd (decide_eq_true hm) (hfind c hc)
  | some x =>
      have hx := List.mem_of_find?_eq_some hfind
      have hxm : Mergeable x d := by simpa using List.find?_some hfind
      rcases hs with ⟨-, hno⟩ | ⟨c, hc, hm, rfl⟩
      · exact absurd hxm (hno x hx)
      · -- both contain the address before the node
        have h₁ := hf x (by simp [hx])
        have h₂ := hf c (by simp [hc])
        have h₃ := hxm.2.2.2
        have h₄ := hm.2.2.2
        have hxc : x = c := h.ordered.eq_of_mem (y := d.start - 1) (by simp [hx]) (by simp [hc])
          ⟨by omega, by omega⟩ ⟨by omega, by omega⟩
        rw [hxc]
        rfl

lemma find?_succ {e : ℕ} (h : Layout (A ++ d :: B)) (hf : Full (A ++ d :: B))
    (he : e = d.end_ ∧ (∀ c ∈ B, ¬ Mergeable d c) ∨ ∃ c ∈ B, Mergeable d c ∧ c.end_ = e) :
    ((B.find? fun c => Mergeable d c).map Allocation.end_).getD d.end_ = e := by
  cases hfind : B.find? fun c => Mergeable d c with
  | none =>
      rw [List.find?_eq_none] at hfind
      rcases he with ⟨rfl, -⟩ | ⟨c, hc, hm, -⟩
      · rfl
      · exact absurd (decide_eq_true hm) (hfind c hc)
  | some x =>
      have hx := List.mem_of_find?_eq_some hfind
      have hxm : Mergeable d x := by simpa using List.find?_some hfind
      rcases he with ⟨-, hno⟩ | ⟨c, hc, hm, rfl⟩
      · exact absurd hxm (hno x hx)
      · have hxc : x = c := h.eq_of_start (by simp [hx]) (by simp [hc]) (hf x (by simp [hx]))
          (hf c (by simp [hc])) (hxm.2.2.2.symm.trans hm.2.2.2)
        rw [hxc]
        rfl

lemma mergeFreeNode_eq (h : Layout (node d a b).inorder) (hf : Full (node d a b).inorder)
    (hA : Merged a.inorder) (hB : Merged b.inorder) (hd : d.used = false) :
    ∃ a' b', mergeFreeNode (node d a b) = node (mergedBlock d a b) a' b' ∧
      (mergedBlock d a b).start ≤ d.start ∧ d.end_ ≤ (mergedBlock d a b).end_ ∧
      (∀ c ∈ a'.inorder, c ∈ a.inorder ∧ c.end_ ≤ (mergedBlock d a b).start) ∧
      (∀ c ∈ b'.inorder, c ∈ b.inorder ∧ (mergedBlock d a b).end_ ≤ c.start) ∧
      ((mergedBlock d a b).start = d.start ∧ (∀ c ∈ a.inorder, ¬ Mergeable c d) ∨
        ∃ c ∈ a.inorder, Mergeable c d ∧ c.start = (mergedBlock d a b).start) ∧
      ((mergedBlock d a b).end_ = d.end_ ∧ (∀ c ∈ b.inorder, ¬ Mergeable d c) ∨
        ∃ c ∈ b.inorder, Mergeable d c ∧ c.end_ = (mergedBlock d a b).end_) := by
  rw [inorder_node] at h hf
  obtain ⟨hbefore, hafter⟩ := h.around hf
  have hpos := hf d (by simp)
  have hsorted := h.ordered.pairwise_of_nonempty hf
  rw [List.pairwise_append, List.pairwise_cons] at hsorted
  obtain ⟨s, a', hpred, hs, ha', hscase⟩ := predecessor_loop (b := b) hd hpos
    (fun c hc => ⟨hf c (by simp [hc]), hbefore c hc⟩) hsorted.1 hA (node d a b).numNodes
  obtain ⟨e, b', hsucc, he, hb', hecase⟩ := successor_loop (a := a') (d := { d with start := s }) hd
    (by simp only; omega)
    (fun c hc => ⟨hf c (by simp [hc]), hafter c hc, h.lt_max c (by simp [hc])⟩) hsorted.2.1.2 hB
    (node { d with start := s } a' b).numNodes
  have hstart := find?_pred h hf hscase
  have hend := find?_succ h hf hecase
  have hblock : mergedBlock d a b = { d with start := s, end_ := e } := by
    simp only [mergedBlock, hstart, hend]
  rw [hblock]
  refine ⟨a', b', ?_, hs, he, ha', hb', hscase, hecase⟩
  rw [mergeFreeNode, hpred]
  exact hsucc

/-- **`free_node`** leaves no mergeable pair when it misses no neighbour. -/
lemma freeNode_merged (h : Layout t.inorder) (hf : Full t.inorder) (hm : Merged t.inorder)
    (hsub : t.subtree p = node d a b)
    (hleft : a = nil → (∃ c ∈ t.inorder, Mergeable c { d with used := false }) →
      nFreePagesThreshold ≤ (releaseOf (mergedBlock { d with used := false } a b)).numPages ∧
        (releaseOf (mergedBlock { d with used := false } a b)).alignedStart =
          (mergedBlock { d with used := false } a b).start)
    (hright : b = nil → (∃ c ∈ t.inorder, Mergeable { d with used := false } c) →
      nFreePagesThreshold ≤ (releaseOf (mergedBlock { d with used := false } a b)).numPages ∧
        (releaseOf (mergedBlock { d with used := false } a b)).alignedEnd =
          (mergedBlock { d with used := false } a b).end_)
    (hrun : freeNode t p p = .ok (t', pages)) : Merged t'.inorder := by
  set freed : Allocation := { d with used := false } with hfreed
  set m := mergedBlock freed a b with hmdef
  -- the node is marked free
  set t₁ := modifyAt (mapRoot fun d => { d with used := false }) p t with ht₁
  have hsub₁ : t₁.subtree p = node freed a b := by
    rw [ht₁, subtree_modifyAt _ _ _ (by simp [hsub]), hsub, mapRoot]
  obtain ⟨pre, post, hpre, hmod⟩ := exists_context p t (by simp [hsub])
  have hlist : t.inorder = (pre ++ a.inorder) ++ d :: (b.inorder ++ post) := by
    rw [hpre, hsub]
    simp
  have hlist₁ : t₁.inorder = (pre ++ a.inorder) ++ freed :: (b.inorder ++ post) := by
    rw [ht₁, hmod, hsub]
    simp [mapRoot, hfreed]
  have hdmem : d ∈ t.inorder := by rw [hlist]; simp
  have hlay₁ : Layout ((pre ++ a.inorder) ++ freed :: (b.inorder ++ post)) :=
    by
    refine Layout.cut (d := d) (hlist ▸ h) rfl ?_ le_rfl ?_
    · show d.start ≤ d.end_
      exact h.start_le hdmem
    · simp [hfreed]
  have hmem : ∀ {c}, c ∈ pre ++ a.inorder ∨ c ∈ b.inorder ++ post → c ∈ t.inorder := by
    intro c hc
    rw [hlist]
    simp only [List.mem_append, List.mem_cons] at hc ⊢
    tauto
  have hfull₁ : Full ((pre ++ a.inorder) ++ freed :: (b.inorder ++ post)) := by
    intro c hc
    rcases mem_or_of_mem_middle hc with rfl | hc
    · exact hf d hdmem
    · exact hf c (hmem (List.mem_append.mp hc))
  obtain ⟨hbefore, hafter⟩ := hlay₁.around hfull₁
  have hpos : freed.start < freed.end_ := hf d hdmem
  -- and merged with its neighbours
  have hinner : ((node freed a b).inorder).Sublist
    ((pre ++ a.inorder) ++ freed :: (b.inorder ++ post)) := by
    have hsplit : (pre ++ a.inorder) ++ freed :: (b.inorder ++ post) =
        pre ++ (node freed a b).inorder ++ post := by simp
    rw [hsplit]
    exact (List.sublist_append_right _ _).trans (List.sublist_append_left _ _)
  obtain ⟨a', b', hmerge, hms, hme, ha', hb', hscase, hecase⟩ :=
    mergeFreeNode_eq (d := freed) (a := a) (b := b) (hlay₁.sublist hinner)
      (fun c hc => hfull₁ c (hinner.subset hc))
      (fun c hc e he => hm c (hmem (by simp [hc])) e (hmem (by simp [he])))
      (fun c hc e he => hm c (hmem (by simp [hc])) e (hmem (by simp [he]))) rfl
  rw [← hmdef] at hmerge hms hme ha' hb' hscase hecase
  set t₂ := modifyAt mergeFreeNode p t₁ with ht₂
  have hsub₂ : t₂.subtree p = node m a' b' := by
    rw [ht₂, subtree_modifyAt _ _ _ (by simp [hsub₁]), hsub₁, hmerge]
  have hlist₂ : t₂.inorder = (pre ++ a'.inorder) ++ m :: (b'.inorder ++ post) := by
    have hcomp : t₂ = modifyAt (mergeFreeNode ∘ mapRoot fun d => { d with used := false }) p t := by
      rw [ht₂, ht₁, modifyAt_modifyAt]
    rw [hcomp, hmod, hsub]
    simp [mapRoot, ← hfreed, hmerge]
  have hco₂ : Layout t₂.inorder ∧ Full t₂.inorder := by
    obtain ⟨pre', post', hpre', hmod'⟩ := exists_context p t₁ (by simp [hsub₁])
    rw [hsub₁] at hpre' hmod'
    obtain ⟨d', a'', b'', hmerge', -, -, hco⟩ := mergeFreeNode_spec (hpre' ▸ hlist₁ ▸ hlay₁) rfl
    rw [ht₂, hmod', hmerge']
    refine ⟨hco.layout, hco.full ?_⟩
    rw [← hpre', hlist₁]
    exact hfull₁
  obtain ⟨hlay₂, hfull₂⟩ := hco₂
  have hsorted₁ := hlay₁.ordered.pairwise_of_nonempty hfull₁
  rw [List.pairwise_append, List.pairwise_append, List.pairwise_cons, List.pairwise_append] at hsorted₁
  obtain ⟨⟨-, -, hpreA⟩, ⟨-, -, -, hBpost⟩, -⟩ := hsorted₁
  obtain ⟨hbefore₂, hafter₂⟩ := (hlist₂ ▸ hlay₂).around (hlist₂ ▸ hfull₂)
  have hm₂ : m ∈ t₂.inorder := by rw [hlist₂]; simp
  have hmpos := hfull₂ m hm₂
  have hmmax := hlay₂.lt_max m hm₂
  have hkeepOld : ∀ {c}, c ∈ (pre ++ a'.inorder) ++ (b'.inorder ++ post) → c ∈ t.inorder := by
    intro c hc
    refine hmem ?_
    simp only [List.mem_append] at hc ⊢
    rcases hc with (hc | hc) | hc | hc
    · exact Or.inl (Or.inl hc)
    · exact Or.inl (Or.inr (ha' c hc).1)
    · exact Or.inr (Or.inl (hb' c hc).1)
    · exact Or.inr (Or.inr hc)
  refine merged_of_leftOver ((pre ++ a'.inorder) ++ (b'.inorder ++ post)) m
    (fun c hc e he => hm c (hkeepOld hc) e (hkeepOld he)) hmpos hmmax ?_ ?_ ?_ rfl ?_
  · intro c hc
    refine ⟨hf c (hkeepOld hc), ?_⟩
    rcases List.mem_append.mp hc with hc | hc
    · exact Or.inl (hbefore₂ c hc)
    · exact Or.inr (hafter₂ c hc)
  · intro r hr hrs c hc hcm
    obtain ⟨hcu, -, hcinfo, htouch⟩ := hcm
    rcases hscase with ⟨hstart, hno⟩ | ⟨x, hx, hxm, hxs⟩
    · have hcfreed : Mergeable c freed := ⟨hcu, rfl, hcinfo, htouch.trans hstart⟩
      have hce := hf c (hkeepOld hc)
      simp only [List.mem_append] at hc
      rcases hc with (hc | hc) | hc
      · -- the node is an ancestor, so the left subtree is empty
        have hnil : a = nil := by
          cases a with
          | nil => rfl
          | node y l r =>
              have h₁ := hpreA c hc y (by simp)
              have h₂ := hbefore y (by simp)
              have h₃ := hf y (hmem (by simp))
              have h₄ := hcfreed.2.2.2
              omega
        obtain ⟨hpages, hfirst⟩ := hleft hnil ⟨c, hkeepOld (by simp [hc]), hcfreed⟩
        obtain ⟨-, -, hrlt, hr⟩ := hr
        rw [if_pos hpages] at hr
        obtain ⟨-, -, -, -, hgap, -⟩ := releaseOf_spec hmpos.le hmmax hpages
        have hpages' : 2 ≤ (releaseOf m).numPages := hpages
        omega
      · exact hno c (ha' c hc).1 hcfreed
      · have h₁ := hafter₂ c (List.mem_append.mpr hc)
        omega
    · exact hm c (hkeepOld hc) x (hmem (by simp [hx]))
        ⟨hcu, hxm.1, hcinfo.trans hxm.2.2.1.symm, htouch.trans hxs.symm⟩
  · intro r hr hre c hc hcm
    obtain ⟨-, hcu, hcinfo, htouch⟩ := hcm
    rcases hecase with ⟨hend, hno⟩ | ⟨x, hx, hxm, hxe⟩
    · have hcfreed : Mergeable freed c := ⟨rfl, hcu, hcinfo, hend.symm.trans htouch⟩
      have hce := hf c (hkeepOld hc)
      simp only [List.mem_append] at hc
      rcases hc with hc | hc | hc
      · have h₁ := hbefore₂ c (List.mem_append.mpr hc)
        omega
      · exact hno c (hb' c hc).1 hcfreed
      · have hnil : b = nil := by
          cases b with
          | nil => rfl
          | node y l r =>
              have h₁ := hBpost y (by simp) c hc
              have h₂ := hafter y (by simp)
              have h₃ := hf y (hmem (by simp))
              have h₄ := hcfreed.2.2.2
              omega
        obtain ⟨hpages, hlast⟩ := hright hnil ⟨c, hkeepOld (by simp [hc]), hcfreed⟩
        obtain ⟨-, -, hrlt, hr⟩ := hr
        rw [if_pos hpages] at hr
        obtain ⟨-, -, -, -, hgap, -⟩ := releaseOf_spec hmpos.le hmmax hpages
        have hpages' : 2 ≤ (releaseOf m).numPages := hpages
        omega
    · exact hm x (hmem (by simp [hx])) c (hkeepOld hc)
        ⟨hxm.2.1, hcu, hxm.2.2.1.symm.trans hcinfo, hxe.trans htouch⟩
  · intro c hc
    rw [freeNode, ← ht₁] at hrun
    simp only [← ht₂, hsub₂, root?, ne_eq, not_true_eq_false, if_false] at hrun
    split_ifs at hrun with hpages
    · obtain ⟨rfl, -⟩ := Prod.mk.inj (Except.ok.inj hrun)
      exact releasePages_leaves hlay₂ hsub₂ hlist₂ rfl hmpos hpages hc
    · obtain ⟨rfl, -⟩ := Prod.mk.inj (Except.ok.inj hrun)
      rw [hlist₂] at hc
      rcases mem_or_of_mem_middle hc with rfl | hc
      · refine Or.inr ⟨rfl, rfl, hmpos, ?_⟩
        rw [if_neg hpages]
        exact ⟨rfl, rfl⟩
      · exact Or.inl hc

end FreeNode

lemma free_merged {address : ℕ} {t t' : MemTree} {state : FreeState} {pages : List ℕ}
    (h : Layout t.inorder) (hf : Full t.inorder) (hm : Merged t.inorder)
    (hfinds : FindsNeighbours address t) (hrun : free address t = .ok (state, t', pages)) :
    Merged t'.inorder := by
  rw [free] at hrun
  split_ifs at hrun with h₀
  · obtain ⟨-, rfl, -⟩ := hrun
    exact hm
  · split at hrun
    · obtain ⟨-, rfl, -⟩ := hrun
      exact hm
    · next p hp =>
        obtain ⟨d, a, b, hsub, -⟩ := findAllocationNode_some hp
        rw [hsub, root?] at hrun
        simp only at hrun
        split_ifs at hrun with hused
        · obtain ⟨-, rfl, -⟩ := hrun
          exact hm
        · obtain ⟨⟨t₁, pages₁⟩, hfree, hok⟩ := bind_eq_ok.mp hrun
          obtain ⟨-, rfl, -⟩ := hok
          obtain ⟨hleft, hright⟩ := hfinds p d a b hp hsub (by simpa using hused)
          exact freeNode_merged h hf hm hsub hleft hright hfree

/-! ## `allocate` -/

section Allocate

variable {σ : Type} {sbrk : ℕ → PageInfo → HintInfo → σ → Except Fault (ℕ × σ)}

/-- What `allocate` leaves of the node it takes from touches no free node with the page info of the
request. -/
def RemainderApart (sbrk : ℕ → PageInfo → HintInfo → σ → Except Fault (ℕ × σ)) (size : ℕ) (info : PageInfo)
    (hint : HintInfo) (t : MemTree) (s : σ) : Prop :=
  match findFreeBlock size hint t with
  | some p => ∀ d, (t.subtree p).root? = some d → size < nodeSize d →
      ∀ c ∈ t.inorder, c.used = false → c.start = d.end_ → c.pageInfo ≠ info
  | none => ∀ alloc s', sbrk (numPagesFor size) info hint s = .ok (alloc, s') →
      size < numPagesFor size * pageSize →
      ∀ c ∈ t.inorder, c.used = false → c.start = alloc + numPagesFor size * pageSize → c.pageInfo ≠ info

lemma allocateIn_merged {t t' : MemTree} {p : Path} {d : Allocation} {a b : MemTree} {size addr : ℕ}
    {info : PageInfo} (h : Layout t.inorder) (hf : Full t.inorder) (hsub : t.subtree p = node d a b)
    (hpos : 0 < size) (hsize : size ≤ nodeSize d)
    (hm : ∀ c ∈ t.inorder, ∀ e ∈ t.inorder, c ≠ d → e ≠ d → ¬ Mergeable c e)
    (hapart : size < nodeSize d → ∀ c ∈ t.inorder, c.used = false → c.start = d.end_ → c.pageInfo ≠ info)
    (hrun : allocateIn p size info t = (addr, t')) : Merged t'.inorder := by
  obtain ⟨A, B, hsplit, -, -⟩ := exists_split hsub
  have hdm : d ∈ t.inorder := by rw [hsplit]; simp
  have hns := h.nodeSize_eq hdm
  have hdpos := hf d hdm
  intro c hc e he hce
  rcases free_mem_allocateIn h hsub hpos hsize hrun hc hce.1 with ⟨hc, hcd⟩ | ⟨hlt, rfl⟩
  · rcases free_mem_allocateIn h hsub hpos hsize hrun he hce.2.1 with ⟨he, hed⟩ | ⟨hlt, rfl⟩
    · exact hm c hc e he hcd hed hce
    · -- nothing ends inside the node
      have htouch := hce.2.2.2
      simp only at htouch
      have hcpos := hf c hc
      rcases h.apart hc hdm hcd hcpos hdpos with h₁ | h₁
      · omega
      · omega
  · have htouch := hce.2.2.2
    simp only at htouch
    rcases free_mem_allocateIn h hsub hpos hsize hrun he hce.2.1 with ⟨he, -⟩ | ⟨-, rfl⟩
    · exact hapart hlt e he hce.2.1 htouch.symm hce.2.2.1.symm
    · simp only at htouch
      omega

lemma allocate_merged {t t' : MemTree} {s s' : σ} {size addr : ℕ} {info : PageInfo} {hint : HintInfo}
    (h : Layout t.inorder) (hf : Full t.inorder) (hm : Merged t.inorder) (hpos : 0 < size)
    (hsize : size ≤ 4294967296 - 4096) (hfresh : SbrkFresh sbrk t s)
    (hapart : RemainderApart sbrk size info hint t s)
    (hrun : allocate sbrk size info hint t s = .ok ((addr, t'), s')) : Merged t'.inorder := by
  rcases allocate_cases hrun with ⟨p, hfind, hin, -⟩ | ⟨hnone, alloc, hsbrk, hcase⟩
  · obtain ⟨d, a, b, hsub, -, hd⟩ := findFreeBlock_some hfind
    rw [RemainderApart, hfind] at hapart
    refine allocateIn_merged h hf hsub hpos hd (fun c hc e he _ _ => hm c hc e he) ?_ hin
    exact hapart d (by rw [hsub]; rfl)
  · rcases hcase with ⟨-, -, rfl⟩ | ⟨halloc, hin⟩
    · exact hm
    · rw [RemainderApart, hnone] at hapart
      obtain ⟨-, hmax, hdisj⟩ := hfresh _ _ _ _ _ (by simp [numPagesFor]) hsbrk halloc
      obtain ⟨hlay, hmem, hbig, hlt⟩ := physicalNode_spec info h hsize hmax
        fun d hd _ => hdisj d hd
      have hend : (physicalNode alloc size info).end_ = alloc + numPagesFor size * pageSize :=
        u32_of_lt hmax
      have hns := hlay.nodeSize_eq ((hmem _).mpr (Or.inl rfl))
      refine allocateIn_merged hlay ?_ (BST.subtree_addNodePath _ _) hpos hbig ?_ ?_ hin
      · intro c hc
        rcases (hmem c).mp hc with rfl | hc
        · exact hlt
        · exact hf c hc
      · intro c hc e he hcd hed
        exact hm c (((hmem c).mp hc).resolve_left hcd) e (((hmem e).mp he).resolve_left hed)
      · intro hrest c hc hcu hcs
        rw [hend] at hcs
        rcases (hmem c).mp hc with rfl | hc
        · rw [hend] at hlt
          simp only at hcs hlt
          omega
        · refine hapart alloc s' hsbrk ?_ c hc hcu hcs
          rw [hend] at hns
          simp only at hns
          omega

end Allocate

/-! ## Runs -/

/-- A call of the allocator. -/
inductive HeapCall
  | allocate (size : ℕ) (info : PageInfo) (hint : HintInfo)
  | free (address : ℕ)

section Runs

variable {σ : Type} (sbrk : ℕ → PageInfo → HintInfo → σ → Except Fault (ℕ × σ))

/-- The tree and the state of `sbrk` after a call. -/
def heapStep (q : MemTree × σ) : HeapCall → Except Fault (MemTree × σ)
  | .allocate size info hint => do
      let ((_, t), s) ← MemTree.allocate sbrk size info hint q.1 q.2
      .ok (t, s)
  | .free address => do
      let (_, t, _) ← MemTree.free address q.1
      .ok (t, q.2)

/-- What callers and `sbrk` see to: `malloc` never asks for nothing, and fresh pages meet no node. -/
def Called (q : MemTree × σ) : HeapCall → Prop
  | .allocate size _ _ => 0 < size ∧ SbrkFresh sbrk q.1 q.2
  | .free _ => True

/-- The condition: a call leaves no pair behind. -/
def LeavesNoPair (q : MemTree × σ) : HeapCall → Prop
  | .allocate size info hint => size ≤ 4294967296 - 4096 ∧ RemainderApart sbrk size info hint q.1 q.2
  | .free address => FindsNeighbours address q.1

variable {sbrk}

lemma heapStep_keeps {q q' : MemTree × σ} {call : HeapCall}
    (hq : Layout q.1.inorder ∧ Full q.1.inorder ∧ Merged q.1.inorder) (hcalled : Called sbrk q call)
    (hpair : LeavesNoPair sbrk q call) (hrun : heapStep sbrk q call = .ok q') :
    Layout q'.1.inorder ∧ Full q'.1.inorder ∧ Merged q'.1.inorder := by
  obtain ⟨hlay, hfull, hm⟩ := hq
  cases call with
  | allocate size info hint =>
      obtain ⟨⟨⟨addr, t⟩, s⟩, hall, hok⟩ := bind_eq_ok.mp hrun
      obtain rfl := Except.ok.inj hok
      obtain ⟨hpos, hfresh⟩ := hcalled
      obtain ⟨hsize, hapart⟩ := hpair
      have hmerged := allocate_merged hlay hfull hm hpos hsize hfresh hapart hall
      rcases allocate_spec hlay hpos (fits_of_le hsize) hfresh hall with ⟨-, rfl, -⟩ | ⟨blk, -, -, hblk, -⟩
      · exact ⟨hlay, hfull, hmerged⟩
      · exact ⟨hblk.layout, hblk.full hfull, hmerged⟩
  | free address =>
      obtain ⟨⟨state, t, pages⟩, hfree, hok⟩ := bind_eq_ok.mp hrun
      obtain rfl := Except.ok.inj hok
      have hmerged := free_merged hlay hfull hm hpair hfree
      rcases free_spec hlay hfree with ⟨rfl, -, -⟩ | ⟨-, p, d, a, b, -, -, -, -, hlay', -, hfull', -⟩
      · exact ⟨hlay, hfull, hmerged⟩
      · exact ⟨hlay', hfull' hfull, hmerged⟩

/-- **Coalescing is complete in every run whose calls leave no pair behind**: after each call no two free
nodes of one page info touch. -/
theorem merged_after_calls (sbrk : ℕ → PageInfo → HintInfo → σ → Except Fault (ℕ × σ)) (s : σ)
    (calls : List HeapCall) (hcalled : EachCall (heapStep sbrk) (Called sbrk) calls (nil, s))
    (hpair : EachCall (heapStep sbrk) (LeavesNoPair sbrk) calls (nil, s)) :
    EachCall (heapStep sbrk) (After (heapStep sbrk) fun q => Merged q.1.inorder) calls (nil, s) := by
  have hnil : Layout (nil : MemTree).inorder ∧ Full (nil : MemTree).inorder ∧
    Merged (nil : MemTree).inorder :=
    ⟨⟨⟨by simp, by simp⟩, by simp, by simp⟩, fun a ha => by simp at ha, fun a ha => by simp at ha⟩
  have hinv := EachCall.invariant (fun q call q' hq hc hstep => heapStep_keeps hq hc.1 hc.2 hstep) hnil
    (hcalled.and hpair)
  exact hinv.imp fun q call hafter => hafter.imp fun q' hq' => hq'.2.2

end Runs

instance (l : List Allocation) : Decidable (Merged l) := by
  unfold Merged
  infer_instance

/-- Two blocks of 8 bytes, freed in the order in which they were taken. -/
def freedInOrder : List HeapCall :=
  [.allocate 8 defaultUPageInfo defaultHintInfo, .allocate 8 defaultUPageInfo defaultHintInfo,
    .free 65536, .free 65544]

/-- The first block is the parent of the second one and not below it: when the second one is freed, the
first one is not found. -/
theorem freed_in_order_not_merged :
    ¬ EachCall (heapStep bumpSbrk) (After (heapStep bumpSbrk) fun q => Merged q.1.inorder) freedInOrder
      (nil, 65536) := by
  decide +kernel

/-- One block of 8 bytes, taken and freed. -/
def takenAndFreed : List HeapCall := [.allocate 8 defaultUPageInfo defaultHintInfo, .free 65536]

theorem merged_after_calls_eight :
    EachCall (heapStep bumpSbrk) (After (heapStep bumpSbrk) fun q => Merged q.1.inorder) takenAndFreed
      (nil, 65536) := by
  have hstep : heapStep bumpSbrk (nil, 65536) (.allocate 8 defaultUPageInfo defaultHintInfo) =
      .ok (node ⟨65536, 65544, defaultUPageInfo, true⟩ nil
        (node ⟨65544, 73728, defaultUPageInfo, false⟩ nil nil), 73728) := by decide +kernel
  refine merged_after_calls bumpSbrk 65536 takenAndFreed ⟨⟨by decide, ?_⟩, ?_⟩ ⟨⟨by decide, ?_⟩, ?_⟩
  · exact sbrkFresh_bumpSbrk (by decide) (by simp)
  · rw [hstep]
    exact ⟨trivial, by split <;> trivial⟩
  · intro alloc s' _ _ c hc
    simp at hc
  · rw [hstep]
    refine ⟨?_, by split <;> trivial⟩
    intro p d a b hp hsub hused
    obtain rfl : p = [] := by
      have hfind : findAllocationNode 65536 (node ⟨65536, 65544, defaultUPageInfo, true⟩ nil
        (node ⟨65544, 73728, defaultUPageInfo, false⟩ nil nil)) = some [] := by decide +kernel
      exact Option.some.inj (hp.symm.trans hfind)
    simp only [subtree_nil_path, node.injEq] at hsub
    obtain ⟨rfl, rfl, rfl⟩ := hsub
    refine ⟨fun _ hex => absurd hex (by decide +kernel), fun hb => ?_⟩
    cases hb

end BrebOS.MemTree

import BrebOS.Core.Memtree.Allocate
import BrebOS.Core.Memtree.Free

/-!
# Runs of the allocator

`allocate`, `free` and `register_external_allocation` in any order, from the empty tree.  The state
of a run is the tree together with the blocks that `allocate` has returned and that have not been
freed.  `reachable_valid` is the correctness of the allocator as a data structure: the tree stays a
strict search tree of non-empty disjoint ranges, and every live block is exactly one used node.

What `sbrk` answers is the environment's choice at every call; the only assumption is that the
pages it returns meet no node (`SbrkFresh`).
-/

namespace BrebOS.MemTree

open BinaryTree Ranges

/-- A strict search tree on `start` whose nodes are non-empty, disjoint ranges. -/
structure Valid (t : MemTree) : Prop where
  search : t.Ordered fun a b => a.start < b.start
  nonempty : ∀ d ∈ t.inorder, d.start < d.end_
  disjoint : t.inorder.Pairwise Apart

lemma Layout.valid {t : MemTree} (h : Layout t.inorder) (hf : Full t.inorder) : Valid t := by
  have hp := h.ordered.pairwise_of_nonempty hf
  refine ⟨ordered_of_pairwise t (hp.imp_of_mem fun {a b} ha _ hab => ?_), hf, hp.imp Or.inl⟩
  have := hf a ha
  omega

lemma Valid.layout {t : MemTree} (h : Valid t) (hmax : ∀ d ∈ t.inorder, d.end_ < 4294967296) :
    Layout t.inorder := by
  have htrans : ∀ a b c : Allocation, a.start < b.start → b.start < c.start → a.start < c.start :=
    fun _ _ _ => lt_trans
  have hsorted := BinaryTree.Ordered.pairwise htrans h.search
  refine ⟨⟨?_, fun a ha => (h.nonempty a ha).le⟩, hmax, fun a ha _ => h.nonempty a ha⟩
  refine (hsorted.and h.disjoint).imp_of_mem fun {a b} ha hb hab => ?_
  have h₁ := h.nonempty a ha
  have h₂ := h.nonempty b hb
  have h₃ := hab.1
  rcases hab.2 with h₄ | h₄
  · exact ⟨by omega, by omega⟩
  · omega

/-! ## One lemma for each operation -/

lemma findAllocationNode_some {address : ℕ} {t : MemTree} {p : Path}
    (h : findAllocationNode address t = some p) :
    ∃ d a b, t.subtree p = node d a b ∧ d.start = address := by
  obtain ⟨d, a, b, hsub, hcmp⟩ := BST.findNode_some _ t p h
  exact ⟨d, a, b, hsub, compareFunc_zero.mp hcmp⟩

lemma findAllocationNode_isSome {address : ℕ} {t : MemTree} {d : Allocation}
    (h : Layout t.inorder) (hd : d ∈ t.inorder) (hs : d.start = address) :
    ∃ p, findAllocationNode address t = some p := by
  by_contra hnone
  push Not at hnone
  refine BST.findNode_none _ t ?_ (Option.eq_none_iff_forall_ne_some.mpr hnone) d hd
    (compareFunc_zero.mpr hs)
  refine h.ordered.before.imp fun {a b} hab => ?_
  have := hab.1
  rw [compareFunc_pos, compareFunc_pos, compareFunc_neg, compareFunc_neg]
  exact ⟨fun _ => by omega, fun _ => by omega⟩

/-- **`free`**: the tree is untouched, or the used block at the address is gone and nothing else. -/
lemma free_spec {address : ℕ} {t t' : MemTree} {state : FreeState} {pages : List ℕ}
    (h : Layout t.inorder) (hrun : free address t = .ok (state, t', pages)) :
    (t' = t ∧ pages = [] ∧ (state = .ok → address = 0)) ∨
      state = .ok ∧ ∃ p d a b, findAllocationNode address t = some p ∧
        t.subtree p = node d a b ∧ d.start = address ∧ d.used = true ∧ Layout t'.inorder ∧
        (∀ u : Allocation, u.used = true → (u ∈ t'.inorder ↔ u ∈ t.inorder ∧ u ≠ d)) ∧
        (Full t.inorder → Full t'.inorder) ∧
        (releases t p = false → pages = [] ∧
          (Full t.inorder → ∀ x, Covers t'.inorder x ↔ Covers t.inorder x)) := by
  rw [free] at hrun
  split_ifs at hrun with h₀
  · simp only [Except.ok.injEq, Prod.mk.injEq] at hrun
    obtain ⟨-, rfl, rfl⟩ := hrun
    exact Or.inl ⟨rfl, rfl, fun _ => h₀⟩
  · split at hrun
    · simp only [Except.ok.injEq, Prod.mk.injEq] at hrun
      obtain ⟨rfl, rfl, rfl⟩ := hrun
      exact Or.inl ⟨rfl, rfl, by simp⟩
    · next p hp =>
        obtain ⟨d, a, b, hsub, hstart⟩ := findAllocationNode_some hp
        rw [hsub, root?] at hrun
        simp only at hrun
        split_ifs at hrun with hused
        · simp only [Except.ok.injEq, Prod.mk.injEq] at hrun
          obtain ⟨rfl, rfl, rfl⟩ := hrun
          exact Or.inl ⟨rfl, rfl, by simp⟩
        · obtain ⟨t₁, pages₁, hfree, hlay, hmem, hfull, hrel⟩ := freeNode_spec h hsub
          rw [hfree] at hrun
          simp only [bind, Except.bind, Except.ok.injEq, Prod.mk.injEq] at hrun
          obtain ⟨rfl, rfl, rfl⟩ := hrun
          exact Or.inr ⟨rfl, p, d, a, b, hp, hsub, hstart, by simpa using hused, hlay, hmem, hfull,
            hrel⟩

lemma registerExternalAllocation_spec {d : Allocation} {t t' : MemTree} (h : Layout t.inorder)
    (hd : d.start < d.end_) (hmax : d.end_ < 4294967296) (hapart : ∀ a ∈ t.inorder, Apart a d)
    (hrun : registerExternalAllocation d t = .ok t') :
    Layout t'.inorder ∧ ∀ a, a ∈ t'.inorder ↔ a = d ∨ a ∈ t.inorder := by
  obtain ⟨-, -, hrun⟩ := bind_eq_ok.mp hrun
  obtain rfl := Except.ok.inj hrun
  exact addNode_spec h hd.le hmax (fun _ => hd) fun a ha _ _ => hapart a ha

/-! ## Runs -/

/-- The states of a run: the tree, and the live blocks as pairs of address and size. -/
inductive Reachable {σ : Type} (sbrk : ℕ → PageInfo → HintInfo → σ → Except Fault (ℕ × σ)) :
    MemTree → List (ℕ × ℕ) → Prop
  | empty : Reachable sbrk nil []
  | allocate {t t' : MemTree} {live : List (ℕ × ℕ)} {s s' : σ} {size addr : ℕ} {info : PageInfo}
      {hint : HintInfo} : Reachable sbrk t live → 1 ≤ size → size ≤ 2 ^ 32 - 4096 →
      SbrkFresh sbrk t s → allocate sbrk size info hint t s = .ok ((addr, t'), s') →
      Reachable sbrk t' (if addr = 0 then live else (addr, size) :: live)
  | free {t t' : MemTree} {live : List (ℕ × ℕ)} {address : ℕ} {state : FreeState}
      {pages : List ℕ} : Reachable sbrk t live → free address t = .ok (state, t', pages) →
      Reachable sbrk t' (if state = .ok then live.filter (·.1 ≠ address) else live)
  | register {t t' : MemTree} {live : List (ℕ × ℕ)} {d : Allocation} : Reachable sbrk t live →
      d.start < d.end_ → d.end_ < 2 ^ 32 → (∀ a ∈ t.inorder, Apart a d) →
      registerExternalAllocation d t = .ok t' → Reachable sbrk t' live

/-- The invariant of a run. -/
structure RunInv (t : MemTree) (live : List (ℕ × ℕ)) : Prop where
  layout : Layout t.inorder
  full : Full t.inorder
  live_mem : ∀ b ∈ live, ∃ d ∈ t.inorder, d.used = true ∧ d.start = b.1 ∧ d.end_ = b.1 + b.2

variable {σ : Type} {sbrk : ℕ → PageInfo → HintInfo → σ → Except Fault (ℕ × σ)}

lemma reachable_inv {t : MemTree} {live : List (ℕ × ℕ)} (h : Reachable sbrk t live) :
    RunInv t live := by
  induction h with
  | empty =>
      exact ⟨⟨⟨by simp, by simp⟩, by simp, by simp⟩, fun a ha => by simp at ha, by simp⟩
  | @allocate t t' live s s' size addr info hint _ hpos hsize hfresh hrun ih =>
      rcases allocate_spec ih.layout hpos (fits_of_le hsize) hfresh hrun with ⟨rfl, rfl, -⟩ |
        ⟨blk, h₁, h₂, hall, -⟩
      · simpa using ih
      · refine ⟨hall.layout, hall.full ih.full, fun b hb => ?_⟩
        have hold : ∀ b ∈ live, ∃ d ∈ t'.inorder,
            d.used = true ∧ d.start = b.1 ∧ d.end_ = b.1 + b.2 := fun b hb => by
          obtain ⟨d, hd, hu, hrange⟩ := ih.live_mem b hb
          exact ⟨d, (hall.used d hu).mpr (Or.inl hd), hu, hrange⟩
        split_ifs at hb
        · exact hold b hb
        · rcases List.mem_cons.mp hb with rfl | hb
          · exact ⟨blk, (hall.used blk hall.isUsed).mpr (Or.inr rfl), hall.isUsed, h₁, h₂⟩
          · exact hold b hb
  | @free t t' live address state pages _ hrun ih =>
      rcases free_spec ih.layout hrun with ⟨rfl, -, -⟩ |
        ⟨rfl, p, d, a, b, -, -, hstart, hused, hlay, hmem, hfull, -⟩
      · refine ⟨ih.layout, ih.full, fun b hb => ih.live_mem b ?_⟩
        split_ifs at hb
        · exact (List.mem_filter.mp hb).1
        · exact hb
      · refine ⟨hlay, hfull ih.full, fun b hb => ?_⟩
        rw [if_pos rfl, List.mem_filter] at hb
        obtain ⟨hb, hne⟩ := hb
        obtain ⟨c, hc, hu, hrange⟩ := ih.live_mem b hb
        -- a live block elsewhere is not the freed one
        have hcd : c ≠ d := by
          rintro rfl
          simp only [ne_eq, decide_not, Bool.not_eq_true', decide_eq_false_iff_not] at hne
          exact hne (by rw [← hrange.1, hstart])
        exact ⟨c, (hmem c hu).mpr ⟨hc, hcd⟩, hu, hrange⟩
  | register _ hd hmax hapart hrun ih =>
      obtain ⟨hlay, hmem⟩ := registerExternalAllocation_spec ih.layout hd hmax hapart hrun
      refine ⟨hlay, fun a ha => ?_, fun b hb => ?_⟩
      · rcases (hmem a).mp ha with rfl | ha
        · exact hd
        · exact ih.full a ha
      · obtain ⟨c, hc, hrest⟩ := ih.live_mem b hb
        exact ⟨c, (hmem c).mpr (Or.inr hc), hrest⟩

lemma filter_start_eq {t : MemTree} {d : Allocation} (h : Layout t.inorder)
    (hf : Full t.inorder) (hd : d ∈ t.inorder) :
    t.inorder.filter (fun a => a.start = d.start) = [d] := by
  obtain ⟨A, B, hsplit⟩ := List.append_of_mem hd
  have hlay : Layout (A ++ d :: B) := hsplit ▸ h
  obtain ⟨hdA, hdB⟩ := hlay.notMem_of_split (hf d hd)
  have hnone : ∀ l : List Allocation, d ∉ l → (∀ a ∈ l, a ∈ t.inorder) →
      l.filter (fun a => a.start = d.start) = [] := fun l hdl hl => by
    refine List.filter_eq_nil_iff.mpr fun a ha => ?_
    simp only [decide_eq_true_eq]
    intro hs
    have := h.eq_of_start (hl a ha) hd (hf a (hl a ha)) (hf d hd) hs
    exact hdl (this ▸ ha)
  rw [hsplit, List.filter_append, List.filter_cons_of_pos (by simp),
    hnone A hdA (fun a ha => by rw [hsplit]; simp [ha]),
    hnone B hdB (fun a ha => by rw [hsplit]; simp [ha])]
  rfl

/-- **The allocator is correct.**  In every state of every run the tree is a strict search tree of
non-empty, disjoint ranges, and a live block is exactly one node: it is used, starts at the address
that was returned and has the size that was asked for. -/
theorem reachable_valid {t : MemTree} {live : List (ℕ × ℕ)} (h : Reachable sbrk t live) :
    Valid t ∧ ∀ b ∈ live, ∃ d, t.inorder.filter (fun a => a.start = b.1) = [d] ∧
      d.used = true ∧ d.start = b.1 ∧ nodeSize d = b.2 := by
  obtain ⟨hlay, hfull, hlive⟩ := reachable_inv h
  refine ⟨hlay.valid hfull, fun b hb => ?_⟩
  obtain ⟨d, hd, hused, hstart, hend⟩ := hlive b hb
  refine ⟨d, hstart ▸ filter_start_eq hlay hfull hd, hused, hstart, ?_⟩
  rw [hlay.nodeSize_eq hd]
  omega

/-- An `sbrk` that hands out addresses upwards from its state. -/
def bumpSbrk (n : ℕ) (_ : PageInfo) (_ : HintInfo) (next : ℕ) : Except Fault (ℕ × ℕ) :=
  if next + n * pageSize < 4294967296 then .ok (next, next + n * pageSize) else .ok (0, next)

lemma sbrkFresh_bumpSbrk {t : MemTree} {next : ℕ} (hnext : next % pageSize = 0)
    (h : ∀ d ∈ t.inorder, d.end_ ≤ next) : SbrkFresh bumpSbrk t next := by
  intro n info hint alloc s' _ hrun halloc
  rw [bumpSbrk] at hrun
  split_ifs at hrun with hmax
  · simp only [Except.ok.injEq, Prod.mk.injEq] at hrun
    obtain ⟨rfl, -⟩ := hrun
    exact ⟨hnext, hmax, fun d hd => Or.inl (h d hd)⟩
  · simp only [Except.ok.injEq, Prod.mk.injEq] at hrun
    exact absurd hrun.1.symm halloc

/-- One block of 8 bytes: the run and what the theorem says about it. -/
theorem reachable_valid_eight : ∃ t, Reachable bumpSbrk t [(65536, 8)] ∧ Valid t ∧
    ∀ b ∈ [(65536, 8)], ∃ d, t.inorder.filter (fun a => a.start = b.1) = [d] ∧
      d.used = true ∧ d.start = b.1 ∧ nodeSize d = b.2 := by
  have hall : allocate bumpSbrk 8 defaultUPageInfo defaultHintInfo nil 65536 =
      .ok ((65536, node ⟨65536, 65544, defaultUPageInfo, true⟩ nil
        (node ⟨65544, 73728, defaultUPageInfo, false⟩ nil nil)), 73728) := by decide +kernel
  have hrun := Reachable.allocate Reachable.empty (by decide) (by decide)
    (sbrkFresh_bumpSbrk (by decide) (by simp)) hall
  exact ⟨_, hrun, reachable_valid hrun⟩

end BrebOS.MemTree

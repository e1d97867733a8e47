import BrebOS.Core.Memtree.Run

/-!
# `free_all`

The loop takes the lowest node out of the tree, goes on while the next one starts where the region
ends, and frees the pages of the region.  Seen on the in-order list, a turn of the outer loop cuts off
the longest prefix of nodes that touch (`takeRun`).  What the turn needs, `PageRuns`, passes to the
rest of the list, since a node behind the cut touches none of the nodes before it.

`free_all` reads `lowest_alloc->data.end` after the node was deleted.  `SlabAllocator::free` writes
the link behind the data only, so the value is the one the node had.
-/

namespace BrebOS.MemTree

open BinaryTree Ranges

/-- One turn of the outer loop of `free_all`: the tree it leaves and the addresses it frees. -/
def freeRegion (t : MemTree) : Except Fault (MemTree × List ℕ) :=
  match (t.subtree t.leftmostPath).root? with
  | none => .ok (t, [])
  | some lowest =>
      let (regionEnd, rest) :=
        takeRegion t.numNodes lowest.end_ (t.modifyAt removeNode t.leftmostPath)
      let size := u32Sub regionEnd lowest.start
      if size % pageSize ≠ 0 then
        .error (.irrecoverableError "memory region size is not a multiple of PAGE_SIZE")
      else
        .ok (rest, (List.range (size / pageSize)).map fun i => u32 (lowest.start + i * pageSize))

/-- `while (root)`, with the tree that is left. -/
def freeAllLoop : ℕ → MemTree → Except Fault (MemTree × List ℕ)
  | _, nil => .ok (nil, [])
  | 0, t => .ok (t, [])
  | fuel + 1, t => do
      let (rest, pages) ← freeRegion t
      let (t, pages') ← freeAllLoop fuel rest
      .ok (t, pages ++ pages')

/-! ## The loops on the in-order list -/

section Leftmost

variable {t : MemTree} {fuel e : ℕ} {d : Allocation} {l : List Allocation}

lemma root?_lowest (t : MemTree) : (t.subtree t.leftmostPath).root? = t.inorder.head? := by
  by_cases ht : t = nil
  · subst ht
    rfl
  · obtain ⟨a, q, post, hsub, hin, -⟩ := leftmostPath_spec t ht
    rw [hsub, hin]
    rfl

lemma inorder_removeLowest (t : MemTree) :
    (t.modifyAt removeNode t.leftmostPath).inorder = t.inorder.tail := by
  by_cases ht : t = nil
  · subst ht
    rfl
  · obtain ⟨a, q, post, -, hin, hmod⟩ := leftmostPath_spec t ht
    rw [hmod, inorder_removeNode, hin]
    rfl

lemma eq_nil_of_inorder (h : t.inorder = []) : t = nil := by
  cases t with
  | nil => rfl
  | node d l r => simp at h

/-- The nodes that touch one another from `e` on: where they end, and the nodes behind them. -/
def takeRun : ℕ → List Allocation → ℕ × List Allocation
  | e, [] => (e, [])
  | e, d :: l => if d.start = e then takeRun d.end_ l else (e, d :: l)

lemma takeRegion_spec (h : t.inorder.length ≤ fuel) :
    (takeRegion fuel e t).1 = (takeRun e t.inorder).1 ∧
      (takeRegion fuel e t).2.inorder = (takeRun e t.inorder).2 := by
  induction fuel generalizing e t with
  | zero =>
      rw [List.eq_nil_of_length_eq_zero (Nat.le_zero.mp h)]
      exact ⟨rfl, List.eq_nil_of_length_eq_zero (Nat.le_zero.mp h)⟩
  | succ fuel ih =>
      rw [takeRegion, root?_lowest]
      cases hl : t.inorder with
      | nil => exact ⟨rfl, hl⟩
      | cons d l =>
          have hrest : (t.modifyAt removeNode t.leftmostPath).inorder = l := by
            rw [inorder_removeLowest, hl]
            rfl
          simp only [List.head?_cons, takeRun]
          split_ifs
          · rw [← hrest]
            refine ih ?_
            rw [hrest]
            rw [hl, List.length_cons] at h
            omega
          · exact ⟨rfl, hl⟩

lemma takeRegion_length (fuel e : ℕ) (t : MemTree) : (takeRegion fuel e t).2.inorder.length ≤
    t.inorder.length := by
  induction fuel generalizing e t with
  | zero => exact le_rfl
  | succ fuel ih =>
      rw [takeRegion]
      split
      · exact le_rfl
      · split_ifs
        · refine (ih _ _).trans ?_
          rw [inorder_removeLowest, List.length_tail]
          omega
        · exact le_rfl

lemma takeRegion_fuel {fuel' : ℕ} (h : t.inorder.length ≤ fuel) (h' : t.inorder.length ≤ fuel') :
    takeRegion fuel e t = takeRegion fuel' e t := by
  induction fuel generalizing e t fuel' with
  | zero =>
      obtain rfl := eq_nil_of_inorder (List.eq_nil_of_length_eq_zero (Nat.le_zero.mp h))
      cases fuel' with
      | zero => rfl
      | succ fuel' => rfl
  | succ fuel ih =>
      cases hl : t.inorder with
      | nil =>
          obtain rfl := eq_nil_of_inorder hl
          cases fuel' with
          | zero => rfl
          | succ fuel' => rfl
      | cons d l =>
          rw [hl, List.length_cons] at h h'
          cases fuel' with
          | zero => omega
          | succ fuel' =>
              have hrest : (t.modifyAt removeNode t.leftmostPath).inorder = l := by
                rw [inorder_removeLowest, hl]
                rfl
              rw [takeRegion, takeRegion, root?_lowest, hl]
              simp only [List.head?_cons]
              split_ifs
              · refine ih ?_ ?_
                · rw [hrest]
                  omega
                · rw [hrest]
                  omega
              · rfl

end Leftmost

/-! ## Runs of touching nodes -/

/-- The nodes do not overlap, and every maximal run of touching ones begins and ends at the boundary
of a page. -/
structure PageRuns (l : List Allocation) : Prop where
  sorted : l.Pairwise fun a b => a.end_ ≤ b.start
  nonempty : ∀ d ∈ l, d.start < d.end_
  lt_max : ∀ d ∈ l, d.end_ < 4294967296
  start_mod : ∀ d ∈ l, (∀ c ∈ l, c.end_ ≠ d.start) → d.start % pageSize = 0
  end_mod : ∀ d ∈ l, (∀ c ∈ l, c.start ≠ d.end_) → d.end_ % pageSize = 0

section Runs

variable {e e' x : ℕ} {d lowest : Allocation} {l rest : List Allocation}

lemma takeRun_spec (hsorted : l.Pairwise fun a b => a.end_ ≤ b.start)
    (hne : ∀ d ∈ l, d.start < d.end_) (hle : ∀ d ∈ l, e ≤ d.start) (h : takeRun e l = (e', rest)) :
    ∃ run, l = run ++ rest ∧ e ≤ e' ∧ (e' = e ∨ ∃ d ∈ run, d.end_ = e') ∧ (∀ d ∈ run, d.end_ ≤ e') ∧
      (∀ x, Covers run x ↔ e ≤ x ∧ x < e') ∧ ∀ d ∈ rest, e' < d.start := by
  induction l generalizing e with
  | nil =>
      obtain ⟨rfl, rfl⟩ := Prod.mk.inj h
      refine ⟨[], rfl, le_rfl, Or.inl rfl, by simp, fun x => ?_, by simp⟩
      simp only [Covers, covered_nil, false_iff]
      omega
  | cons d l ih =>
      rw [takeRun] at h
      rw [List.pairwise_cons] at hsorted
      obtain ⟨hd, hl⟩ := hsorted
      have hde := hne d (by simp)
      split_ifs at h with hs
      · obtain ⟨run, rfl, hee, hend, hbound, hcov, hrest⟩ :=
          ih hl (fun c hc => hne c (by simp [hc])) hd h
        refine ⟨d :: run, rfl, by omega, Or.inr ?_, ?_, fun x => ?_, hrest⟩
        · rcases hend with rfl | ⟨c, hc, rfl⟩
          · exact ⟨d, by simp, rfl⟩
          · exact ⟨c, by simp [hc], rfl⟩
        · intro c hc
          rcases List.mem_cons.mp hc with rfl | hc
          · exact hee
          · exact hbound c hc
        · have hx := hcov x
          simp only [Covers, covered_cons] at hx ⊢
          rw [hx]
          omega
      · obtain ⟨rfl, rfl⟩ := Prod.mk.inj h
        have hlt : e < d.start := lt_of_le_of_ne (hle d (by simp)) (Ne.symm hs)
        refine ⟨[], rfl, le_rfl, Or.inl rfl, by simp, fun x => ?_, fun c hc => ?_⟩
        · simp only [Covers, covered_nil, false_iff]
          omega
        · rcases List.mem_cons.mp hc with rfl | hc
          · exact hlt
          · have := hd c hc
            omega

lemma PageRuns.takeRun (hl : PageRuns (lowest :: l)) (h : takeRun lowest.end_ l = (e', rest)) :
    lowest.start < e' ∧ e' < 4294967296 ∧ lowest.start % pageSize = 0 ∧ e' % pageSize = 0 ∧
      PageRuns rest ∧ rest.length ≤ l.length ∧
      (∀ x, Covers (lowest :: l) x ↔ lowest.start ≤ x ∧ x < e' ∨ Covers rest x) ∧
      ∀ x, Covers rest x → e' < x := by
  obtain ⟨hsorted, hne, hmax, hstart, hend⟩ := hl
  rw [List.pairwise_cons] at hsorted
  obtain ⟨run, rfl, hee, hlast, hbound, hcov, hrest⟩ :=
    takeRun_spec hsorted.2 (fun d hd => hne d (by simp [hd])) hsorted.1 h
  have hlow := hne lowest (by simp)
  -- the last node of the run ends where the region does, and no node starts there
  obtain ⟨last, hlastMem, rfl⟩ : ∃ d ∈ lowest :: run, d.end_ = e' := by
    rcases hlast with rfl | ⟨d, hd, hde⟩
    · exact ⟨lowest, by simp, rfl⟩
    · exact ⟨d, by simp [hd], hde⟩
  have hmem : ∀ {d}, d ∈ lowest :: run → d ∈ lowest :: (run ++ rest) := by
    intro d hd
    simp only [List.mem_cons, List.mem_append] at hd ⊢
    tauto
  have hmem' : ∀ {d}, d ∈ rest → d ∈ lowest :: (run ++ rest) := by
    intro d hd
    simp [hd]
  have hrun : ∀ d ∈ lowest :: run, d.end_ ≤ last.end_ := by
    intro d hd
    rcases List.mem_cons.mp hd with rfl | hd
    · exact hee
    · exact hbound d hd
  have hsplit : ∀ {d}, d ∈ lowest :: (run ++ rest) → d ∈ lowest :: run ∨ d ∈ rest := by
    intro d hd
    simp only [List.mem_cons, List.mem_append] at hd ⊢
    tauto
  refine ⟨by omega, hmax last (hmem hlastMem), ?_, ?_, ⟨?_, ?_, ?_, ?_, ?_⟩, by simp, ?_, ?_⟩
  · refine hstart lowest (by simp) fun c hc htouch => ?_
    have hce := hne c hc
    rcases List.mem_cons.mp hc with rfl | hc
    · omega
    · have := hsorted.1 c hc
      omega
  · refine hend last (hmem hlastMem) fun c hc htouch => ?_
    rcases hsplit hc with hc | hc
    · have h₁ := hrun c hc
      have h₂ := hne c (hmem hc)
      omega
    · have := hrest c hc
      omega
  · exact (List.pairwise_append.mp hsorted.2).2.1
  · exact fun d hd => hne d (hmem' hd)
  · exact fun d hd => hmax d (hmem' hd)
  · intro d hd hfirst
    refine hstart d (hmem' hd) fun c hc htouch => ?_
    rcases hsplit hc with hc | hc
    · have h₁ := hrun c hc
      have h₂ := hrest d hd
      omega
    · exact hfirst c hc htouch
  · intro d hd hlast
    refine hend d (hmem' hd) fun c hc htouch => ?_
    rcases hsplit hc with hc | hc
    · have h₁ := hrun c hc
      have h₂ := hne c (hmem hc)
      have h₃ := hrest d hd
      have h₄ := hne d (hmem' hd)
      omega
    · exact hlast c hc htouch
  · intro x
    have hx := hcov x
    simp only [Covers, covered_cons, covered_append] at hx ⊢
    rw [hx, ← or_assoc]
    refine or_congr_left ?_
    omega
  · rintro x ⟨d, hd, hdx, -⟩
    exact lt_of_lt_of_le (hrest d hd) hdx

end Runs

/-! ## The outer loop -/

section Loop

variable {t : MemTree} {fuel : ℕ}

lemma mem_pages {lo hi x : ℕ} (hhi : hi < 4294967296) (hlo : lo % pageSize = 0)
    (hmod : hi % pageSize = 0) (hle : lo ≤ hi) :
    x ∈ (List.range (u32Sub hi lo / pageSize)).map (fun i => u32 (lo + i * pageSize)) ↔
      x % pageSize = 0 ∧ lo ≤ x ∧ x < hi := by
  rw [u32Sub_of_le hle hhi]
  simp only [List.mem_map, List.mem_range, pageSize, u32] at *
  constructor
  · rintro ⟨i, hi', rfl⟩
    omega
  · rintro ⟨hx, h₁, h₂⟩
    exact ⟨(x - lo) / 4096, by omega, by omega⟩

lemma nodup_pages {lo hi : ℕ} (hhi : hi < 4294967296) (hle : lo ≤ hi) :
    ((List.range (u32Sub hi lo / pageSize)).map (fun i => u32 (lo + i * pageSize))).Nodup := by
  rw [u32Sub_of_le hle hhi]
  refine List.Nodup.map_on ?_ List.nodup_range
  intro i hi' j hj hij
  simp only [List.mem_range, pageSize, u32] at *
  omega

lemma freeRegion_spec {d : Allocation} {l : List Allocation} (hin : t.inorder = d :: l)
    (h : PageRuns t.inorder) :
    ∃ e rest pages, freeRegion t = .ok (rest, pages) ∧ takeRun d.end_ l = (e, rest.inorder) ∧
      pages.Nodup ∧ ∀ x, x ∈ pages ↔ x % pageSize = 0 ∧ d.start ≤ x ∧ x < e := by
  have hrest : (t.modifyAt removeNode t.leftmostPath).inorder = l := by
    rw [inorder_removeLowest, hin]
    rfl
  have hfuel : (t.modifyAt removeNode t.leftmostPath).inorder.length ≤ t.numNodes := by
    rw [← length_inorder, hrest, hin]
    simp
  obtain ⟨hend, hleft⟩ := takeRegion_spec (e := d.end_) hfuel
  rw [hrest] at hend hleft
  rw [hin] at h
  obtain ⟨hlt, hmax, hs, he, -⟩ := h.takeRun (Prod.mk.eta (p := takeRun d.end_ l)).symm
  refine ⟨(takeRun d.end_ l).1, _, _, ?_, Prod.ext rfl hleft.symm, nodup_pages hmax hlt.le,
    fun x => mem_pages hmax hs he hlt.le⟩
  rw [freeRegion, root?_lowest, hin]
  simp only [List.head?_cons]
  rw [hend, if_neg]
  rw [u32Sub_of_le hlt.le hmax]
  simp only [pageSize] at *
  omega

lemma freeAllLoop_node (d : Allocation) (l r : MemTree) :
    freeAllLoop (fuel + 1) (node d l r) = (do
      let (rest, pages) ← freeRegion (node d l r)
      let (t, pages') ← freeAllLoop fuel rest
      .ok (t, pages ++ pages')) := rfl

lemma freeAllLoop_spec (hfuel : t.inorder.length ≤ fuel) (h : PageRuns t.inorder) :
    ∃ pages, freeAllLoop fuel t = .ok (nil, pages) ∧ pages.Nodup ∧
      ∀ x, x ∈ pages ↔ x % pageSize = 0 ∧ Covers t.inorder x := by
  induction fuel generalizing t with
  | zero =>
      obtain rfl := eq_nil_of_inorder (List.eq_nil_of_length_eq_zero (Nat.le_zero.mp hfuel))
      exact ⟨[], rfl, List.nodup_nil, by simp⟩
  | succ fuel ih =>
      cases hin : t.inorder with
      | nil =>
          obtain rfl := eq_nil_of_inorder hin
          exact ⟨[], rfl, List.nodup_nil, by simp⟩
      | cons d l =>
          obtain ⟨e, rest, pages, hturn, hrun, hnodup, hpages⟩ := freeRegion_spec hin h
          rw [hin] at h hfuel
          obtain ⟨-, -, -, -, hrest, hlen, hcov, habove⟩ := h.takeRun hrun
          rw [List.length_cons] at hfuel
          obtain ⟨pages', hloop, hnodup', hpages'⟩ := ih (by omega) hrest
          refine ⟨pages ++ pages', ?_, ?_, fun x => ?_⟩
          · cases t with
            | nil => simp at hin
            | node a b c =>
                rw [freeAllLoop_node, hturn]
                exact bind_eq_ok.mpr ⟨_, rfl, bind_eq_ok.mpr ⟨_, hloop, rfl⟩⟩
          · refine hnodup.append hnodup' fun x hx hx' => ?_
            have h₁ := (hpages x).mp hx
            have h₂ := habove x ((hpages' x).mp hx').2
            omega
          · rw [List.mem_append, hpages, hpages', hcov]
            tauto

lemma freeAll_eq (h : t.inorder.length ≤ fuel) :
    freeAll fuel t = (freeAllLoop fuel t).map Prod.snd := by
  induction fuel generalizing t with
  | zero =>
      obtain rfl := eq_nil_of_inorder (List.eq_nil_of_length_eq_zero (Nat.le_zero.mp h))
      rfl
  | succ fuel ih =>
      cases t with
      | nil => rfl
      | node a b c =>
          rw [freeAllLoop_node, freeRegion, freeAll]
          cases hroot : (subtree (node a b c) (leftmostPath (node a b c))).root? with
          | none =>
              rw [root?_lowest] at hroot
              simp at hroot
          | some lowest =>
              have hlen : ((node a b c).modifyAt removeNode (leftmostPath (node a b c))).inorder.length =
                  (node a b c).inorder.length - 1 := by
                rw [inorder_removeLowest, List.length_tail]
              rw [length_inorder (node a b c)] at hlen h
              simp only
              have hsame : takeRegion fuel lowest.end_
                ((node a b c).modifyAt removeNode (leftmostPath (node a b c))) =
                  takeRegion (numNodes (node a b c)) lowest.end_
                    ((node a b c).modifyAt removeNode (leftmostPath (node a b c))) :=
                takeRegion_fuel (by omega) (by omega)
              rw [hsame]
              have hrest : (takeRegion (numNodes (node a b c)) lowest.end_
                  ((node a b c).modifyAt removeNode (leftmostPath (node a b c)))).2.inorder.length ≤
                    fuel := by
                have := takeRegion_length (numNodes (node a b c)) lowest.end_
                  ((node a b c).modifyAt removeNode (leftmostPath (node a b c)))
                omega
              split_ifs
              · rfl
              · rw [ih hrest]
                simp only [bind, Except.bind]
                cases freeAllLoop fuel _ with
                | error e => rfl
                | ok q => rfl

end Loop

/-- Two nodes that share a page, and a third one on its own. -/
def threeBlocks : MemTree :=
  node ⟨4104, 8192, defaultUPageInfo, false⟩ (node ⟨4096, 4104, defaultUPageInfo, true⟩ nil nil)
    (node ⟨16384, 24576, defaultUPageInfo, true⟩ nil nil)

end BrebOS.MemTree

import BrebOS.Core.Memtree.Layout

/-!
# The search for a free block

`find_free_block` leaves out the left subtree of a node that starts at or below the hint.  In a search
tree nothing is lost by that: all that is there starts below the hint, and such a block is not wanted.
-/

namespace BrebOS.MemTree

open BinaryTree

/-- The blocks that `find_free_block` looks for. -/
def Wanted (size : ℕ) (hint : HintInfo) (d : Allocation) : Prop :=
  d.used = false ∧ size ≤ nodeSize d ∧
    (d.start = hint.hint ∨ hint.hint < d.start ∧ hint.isMandatory = false)

variable {size : ℕ} {hint : HintInfo} {t : MemTree} {d : Allocation} {p : Path}

lemma wanted_iff : (!d.used && nodeSize d ≥ size &&
    (hint.hint == d.start || (d.start > hint.hint && !hint.isMandatory))) = true ↔ Wanted size hint d := by
  simp [Wanted, and_assoc, eq_comm (a := hint.hint)]

lemma wanted_of_findFreeBlock : ∀ {t : MemTree} {p : Path}, findFreeBlock size hint t = some p →
    ∃ d a b, t.subtree p = node d a b ∧ d ∈ t.inorder ∧ Wanted size hint d := by
  intro t
  induction t with
  | nil =>
      intro p h
      cases h
  | node d l r ihl ihr =>
      intro p h
      rw [findFreeBlock] at h
      split at h
      · next hd =>
          obtain rfl := Option.some.inj h
          exact ⟨d, l, r, rfl, by simp, wanted_iff.mp hd⟩
      · split at h
        · next q hq =>
            obtain rfl := Option.some.inj h
            split_ifs at hq
            obtain ⟨c, a, b, hsub, hmem, hc⟩ := ihl hq
            exact ⟨c, a, b, hsub, by simp [hmem], hc⟩
        · obtain ⟨q, hq, rfl⟩ := Option.map_eq_some_iff.mp h
          obtain ⟨c, a, b, hsub, hmem, hc⟩ := ihr hq
          exact ⟨c, a, b, hsub, by simp [hmem], hc⟩

lemma findFreeBlock_isSome : ∀ {t : MemTree}, t.Ordered (fun a b => a.start < b.start) →
    (∃ d ∈ t.inorder, Wanted size hint d) → (findFreeBlock size hint t).isSome := by
  intro t
  induction t with
  | nil =>
      rintro - ⟨d, hd, -⟩
      simp at hd
  | node d l r ihl ihr =>
      rintro ⟨hl, -, hol, hor⟩ ⟨c, hc, hwanted⟩
      rw [findFreeBlock]
      split
      · rfl
      · next hd =>
          have hne : c ≠ d := by
            rintro rfl
            exact hd (wanted_iff.mpr hwanted)
          rcases hleft : (if d.start > hint.hint then findFreeBlock size hint l else none) with _ | q
          case some => rfl
          case none =>
            simp only [Option.isSome_map]
            simp only [inorder_node, List.mem_append, List.mem_cons] at hc
            rcases hc with hc | hc | hc
            · -- everything on the left of a node that starts below the hint starts below it too
              have hlt := hl c hc
              have habove : hint.hint < d.start := by
                rcases hwanted.2.2 with h | ⟨h, -⟩
                · omega
                · omega
              rw [if_pos habove] at hleft
              have hsome := ihl hol ⟨c, hc, hwanted⟩
              rw [hleft] at hsome
              cases hsome
            · exact absurd hc hne
            · exact ihr hor ⟨c, hc, hwanted⟩

/-- **`find_free_block` finds a block iff there is one.** -/
theorem findFreeBlock_complete (size : ℕ) (hint : HintInfo) (t : MemTree)
    (h : t.Ordered fun a b => a.start < b.start) :
    ((findFreeBlock size hint t).isSome ↔ ∃ d ∈ t.inorder, Wanted size hint d) ∧
      ∀ p, findFreeBlock size hint t = some p → ∃ d a b, t.subtree p = node d a b ∧ Wanted size hint d := by
  refine ⟨⟨?_, findFreeBlock_isSome h⟩, ?_⟩
  · intro hsome
    obtain ⟨p, hp⟩ := Option.isSome_iff_exists.mp hsome
    obtain ⟨d, a, b, -, hmem, hd⟩ := wanted_of_findFreeBlock hp
    exact ⟨d, hmem, hd⟩
  · intro p hp
    obtain ⟨d, a, b, hsub, -, hd⟩ := wanted_of_findFreeBlock hp
    exact ⟨d, a, b, hsub, hd⟩

/-- A used block and the free one behind it. -/
def usedThenFree : MemTree :=
  node ⟨4096, 8192, defaultUPageInfo, true⟩ nil (node ⟨8192, 16384, defaultUPageInfo, false⟩ nil nil)

/-- The block at the hint is found behind a used one. -/
theorem findFreeBlock_complete_hint :
    ((findFreeBlock 16 ⟨8192, true⟩ usedThenFree).isSome ↔
        ∃ d ∈ usedThenFree.inorder, Wanted 16 ⟨8192, true⟩ d) ∧
      ∀ p, findFreeBlock 16 ⟨8192, true⟩ usedThenFree = some p →
        ∃ d a b, usedThenFree.subtree p = node d a b ∧ Wanted 16 ⟨8192, true⟩ d :=
  findFreeBlock_complete 16 ⟨8192, true⟩ _ (ordered_of_pairwise _ (by simp [usedThenFree]))

end BrebOS.MemTree

/-!
## The overlap check of `register_external_allocation`

`do_overlap` asks whether one end of the new range lies in the old one, and leaves out two equal
ranges: `ensure_validity` compares each node with itself as well.  So the check walks the whole
tree, but two positions of two ranges that meet pass it: the **same range**, and an old range
**strictly inside** the new one.
-/

namespace BrebOS.MemTree

open BinaryTree

variable {d a : Allocation}

/-- Two ranges have an address in common. -/
def Meets (d a : Allocation) : Prop := ∃ x, (d.start ≤ x ∧ x < d.end_) ∧ a.start ≤ x ∧ x < a.end_

/-- The old range has both its ends strictly inside the new one. -/
def StrictlyInside (a d : Allocation) : Prop := d.start < a.start ∧ a.end_ < d.end_

/-- Two ranges are the same. -/
def SameRange (d a : Allocation) : Prop := d.start = a.start ∧ d.end_ = a.end_

lemma meets_iff : Meets d a ↔
    d.start < d.end_ ∧ a.start < a.end_ ∧ d.start < a.end_ ∧ a.start < d.end_ := by
  constructor
  · rintro ⟨x, hd, ha⟩
    omega
  · rintro ⟨hd, ha, h₁, h₂⟩
    exact ⟨max d.start a.start, by omega, by omega⟩

lemma doOverlap_iff (hd : d.start < d.end_) :
    doOverlap d a = true ↔ Meets d a ∧ ¬ SameRange d a ∧ ¬ StrictlyInside a d := by
  rw [meets_iff]
  simp only [doOverlap, SameRange, StrictlyInside, Bool.and_eq_true, Bool.or_eq_true,
    decide_eq_true_eq, Bool.not_eq_true', Bool.and_eq_false_iff, beq_eq_false_iff_ne, ne_eq]
  omega

lemma ensureValidityAuxAux_eq : ∀ t : MemTree, ensureValidityAuxAux d t =
    if t.inorder.any (doOverlap d) then .error (.irrecoverableError "memtree overlap detected")
    else .ok () := by
  intro t
  induction t with
  | nil => rfl
  | node root l r ihl ihr =>
      rw [ensureValidityAuxAux, ihl, ihr, inorder_node, List.any_append, List.any_cons]
      cases hroot : doOverlap d root with
      | true => simp
      | false =>
          cases hl : l.inorder.any (doOverlap d) with
          | true => simp [bind, Except.bind]
          | false => simp [bind, Except.bind]

lemma registerExternalAllocation_eq_error {t : MemTree} :
    registerExternalAllocation d t = .error (.irrecoverableError "memtree overlap detected") ↔
      ∃ a ∈ t.inorder, doOverlap d a = true := by
  rw [registerExternalAllocation, ensureValidityAuxAux_eq, ← List.any_eq_true]
  cases t.inorder.any (doOverlap d) with
  | true => simp [bind, Except.bind]
  | false => simp [bind, Except.bind]

/-- **The overlap check** is right exactly when a new range that meets some node also meets one
that is neither the same range nor strictly inside it. -/
theorem register_overlap_iff (t : MemTree) (hd : d.start < d.end_) :
    (registerExternalAllocation d t = .error (.irrecoverableError "memtree overlap detected") ↔
        ∃ a ∈ t.inorder, Meets d a) ↔
      ((∃ a ∈ t.inorder, Meets d a) →
        ∃ a ∈ t.inorder, Meets d a ∧ ¬ SameRange d a ∧ ¬ StrictlyInside a d) := by
  rw [registerExternalAllocation_eq_error]
  simp only [doOverlap_iff hd]
  constructor
  · intro h
    exact h.mpr
  · intro h
    refine ⟨?_, h⟩
    rintro ⟨a, ha, hmeets, -⟩
    exact ⟨a, ha, hmeets⟩

/-- A tree with the block of the page at `0x2000`. -/
def onePage : MemTree := node ⟨0x2000, 0x3000, defaultUPageInfo, true⟩ nil nil

/-- A range whose end lies in the block raises the error. -/
theorem register_overlap_partial :
    (registerExternalAllocation ⟨0x1000, 0x2800, defaultUPageInfo, true⟩ onePage =
          .error (.irrecoverableError "memtree overlap detected") ↔
        ∃ a ∈ onePage.inorder, Meets ⟨0x1000, 0x2800, defaultUPageInfo, true⟩ a) := by
  refine (register_overlap_iff onePage (by decide)).mpr fun _ =>
    ⟨⟨0x2000, 0x3000, defaultUPageInfo, true⟩, by simp [onePage], meets_iff.mpr (by decide), ?_, ?_⟩
  · simp [SameRange]
  · simp [StrictlyInside]

/-- **A range around the block is registered**: two nodes now own the page. -/
theorem register_around :
    ¬ (registerExternalAllocation ⟨0x1000, 0x4000, defaultUPageInfo, true⟩ onePage =
          .error (.irrecoverableError "memtree overlap detected") ↔
        ∃ a ∈ onePage.inorder, Meets ⟨0x1000, 0x4000, defaultUPageInfo, true⟩ a) := by
  rw [registerExternalAllocation_eq_error]
  intro h
  obtain ⟨a, ha, hover⟩ := h.mpr
    ⟨⟨0x2000, 0x3000, defaultUPageInfo, true⟩, by simp [onePage], meets_iff.mpr (by decide)⟩
  simp only [onePage, inorder_node, inorder_nil, List.nil_append, List.mem_singleton] at ha
  rw [ha] at hover
  exact absurd hover (by decide)

end BrebOS.MemTree

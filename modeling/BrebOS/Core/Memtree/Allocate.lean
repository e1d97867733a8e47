import BrebOS.Core.Memtree.Layout

/-!
# Taking a block

`allocate` looks for a free node that is big enough, or gets pages from `sbrk` and makes one, and
then splits it.  `allocate_cases` lists what a call that returns can have done; `Allocated` is what
each of these does to the tree.
-/

namespace BrebOS.MemTree

open BinaryTree Ranges

/-! ## Inserting a range that overlaps no node -/

lemma addNode_spec {t : MemTree} {x : Allocation} (h : Layout t.inorder)
    (hx : x.start ≤ x.end_) (hmax : x.end_ < 4294967296)
    (hused : x.used = true → x.start < x.end_)
    (hapart : ∀ a ∈ t.inorder, a.start < a.end_ → x.start < x.end_ → Apart a x) :
    Layout (addNode x t).inorder ∧ ∀ a, a ∈ (addNode x t).inorder ↔ a = x ∨ a ∈ t.inorder := by
  obtain ⟨l₁, l₂, e₁, e₂, h₁, h₂⟩ := inorder_addNode h x
  rw [e₂]
  refine ⟨(e₁ ▸ h).insert hx hmax hused h₁ h₂ fun a ha => hapart a (e₁ ▸ ha), fun a => ?_⟩
  rw [e₁]
  simp only [List.mem_append, List.mem_cons]
  tauto

/-! ## Cutting a node -/

lemma cutNode_spec {t : MemTree} {p : Path} {d : Allocation} {a b : MemTree}
    {f : Allocation → Allocation} (h : Layout t.inorder) (hsub : t.subtree p = node d a b)
    (hd : d.start < d.end_) (hlo : (f d).start = d.start) (hlt : d.start < (f d).end_)
    (hhi : (f d).end_ ≤ d.end_) :
    Layout (modifyAt (mapRoot f) p t).inorder ∧
      ∀ c, c ∈ (modifyAt (mapRoot f) p t).inorder ↔ c = f d ∨ c ∈ t.inorder ∧ c ≠ d := by
  obtain ⟨A, B, hsplit, hmap, -⟩ := exists_split hsub
  have hlay : Layout (A ++ d :: B) := hsplit ▸ h
  obtain ⟨hdA, hdB⟩ := hlay.notMem_of_split hd
  rw [hmap f]
  refine ⟨hlay.cut hlo (by omega) hhi fun _ => by omega, fun c => ?_⟩
  have hA : c ∈ A → c ≠ d := fun hc hcd => hdA (hcd ▸ hc)
  have hB : c ∈ B → c ≠ d := fun hc hcd => hdB (hcd ▸ hc)
  rw [hsplit]
  simp only [List.mem_append, List.mem_cons]
  tauto

lemma splitNode_spec {t : MemTree} {p : Path} {d r : Allocation} {a b : MemTree}
    {f : Allocation → Allocation} (h : Layout t.inorder) (hsub : t.subtree p = node d a b)
    (hlo : (f d).start = d.start) (hmid : (f d).end_ = r.start) (hlt : d.start < r.start)
    (hrle : r.start ≤ r.end_) (hhi : r.end_ = d.end_) (hru : r.used = false) :
    Layout (addNode r (modifyAt (mapRoot f) p t)).inorder ∧
      ∀ c, c ∈ (addNode r (modifyAt (mapRoot f) p t)).inorder ↔
        c = f d ∨ c = r ∨ c ∈ t.inorder ∧ c ≠ d := by
  obtain ⟨A, B, hsplit, -, -⟩ := exists_split hsub
  have hdm : d ∈ t.inorder := by rw [hsplit]; simp
  have hmax := h.lt_max d hdm
  obtain ⟨hcut, hcmem⟩ := cutNode_spec (f := f) h hsub (by omega) hlo (by omega) (by omega)
  obtain ⟨hl, hm⟩ := addNode_spec (x := r) hcut hrle (by omega) (by simp [hru])
    fun c hc hce hr => by
      rcases (hcmem c).mp hc with rfl | ⟨hc, hcd⟩
      · exact Or.inl hmid.le
      · rcases h.apart hc hdm hcd hce (by omega) with h | h
        · exact Or.inl (by omega)
        · exact Or.inr (by omega)
  refine ⟨hl, fun c => ?_⟩
  rw [hm, hcmem]
  tauto

/-! ## Taking the front of a free node -/

/-- What a successful allocation of the block `blk` does to the tree. -/
structure Allocated (t t' : MemTree) (blk : Allocation) : Prop where
  layout : Layout t'.inorder
  used : ∀ u : Allocation, u.used = true → (u ∈ t'.inorder ↔ u ∈ t.inorder ∨ u = blk)
  full : Full t.inorder → Full t'.inorder
  isUsed : blk.used = true
  fresh : ∀ d ∈ t.inorder, d.used = true → Apart d blk

/-- The block cut from the front of a free node. -/
abbrev blockOf (d : Allocation) (size : ℕ) : Allocation :=
  { d with end_ := d.start + size, used := true }

private lemma allocated_of_mem {t t' : MemTree} {d : Allocation} {size : ℕ}
    (rest : Allocation → Prop) (h : Layout t.inorder) (hdm : d ∈ t.inorder) (hd : d.used = false)
    (hpos : 0 < size) (hsize : d.start + size ≤ d.end_) (hlay : Layout t'.inorder)
    (hmem : ∀ c, c ∈ t'.inorder ↔ c = blockOf d size ∨ rest c ∨ c ∈ t.inorder ∧ c ≠ d)
    (hrest : ∀ c, rest c → c.used = false ∧ c.start < c.end_)
    (hcov : ∀ x, (d.start + size ≤ x ∧ x < d.end_) ↔ ∃ c, rest c ∧ c.start ≤ x ∧ x < c.end_) :
    Allocated t t' (blockOf d size) ∧ ∀ x, Covers t'.inorder x ↔ Covers t.inorder x := by
  refine ⟨⟨hlay, fun u hu => ?_, fun hf c hc => ?_, rfl, fun c hc hcu => ?_⟩, fun x => ?_⟩
  · have hud : u ≠ d := by rintro rfl; simp [hd] at hu
    have hur : ¬ rest u := fun hr => by simp [(hrest u hr).1] at hu
    rw [hmem]
    tauto
  · rcases (hmem c).mp hc with rfl | hr | ⟨hc, -⟩
    · simp [hpos]
    · exact (hrest c hr).2
    · exact hf c hc
  · have hcd : c ≠ d := by rintro rfl; simp [hd] at hcu
    rcases h.apart hc hdm hcd (h.used_nonempty c hc hcu) (by omega) with h | h
    · exact Or.inl h
    · exact Or.inr (by simp only; omega)
  · constructor
    · rintro ⟨c, hc, hx⟩
      rcases (hmem c).mp hc with rfl | hr | ⟨hc, -⟩
      · have hxe := hx.2
        simp only at hxe
        exact ⟨d, hdm, hx.1, by omega⟩
      · have := (hcov x).mpr ⟨c, hr, hx⟩
        exact ⟨d, hdm, by omega, this.2⟩
      · exact ⟨c, hc, hx⟩
    · rintro ⟨c, hc, hx⟩
      by_cases hcd : c = d
      · subst hcd
        by_cases hxs : x < c.start + size
        · exact ⟨_, (hmem _).mpr (Or.inl rfl), hx.1, hxs⟩
        · obtain ⟨e, he, hxe⟩ := (hcov x).mp ⟨by omega, hx.2⟩
          exact ⟨e, (hmem e).mpr (Or.inr (Or.inl he)), hxe⟩
      · exact ⟨c, (hmem c).mpr (Or.inr (Or.inr ⟨hc, hcd⟩)), hx⟩

private lemma allocateIn_exact {t : MemTree} {p : Path} {d : Allocation} {a b : MemTree}
    (info : PageInfo) (h : Layout t.inorder) (hsub : t.subtree p = node d a b)
    (hd : d.used = false) (hpos : 0 < nodeSize d) :
    ∃ t', allocateIn p (nodeSize d) info t = (d.start, t') ∧
      Allocated t t' (blockOf d (nodeSize d)) ∧
      ∀ x, Covers t'.inorder x ↔ Covers t.inorder x := by
  obtain ⟨A, B, hsplit, -, -⟩ := exists_split hsub
  have hdm : d ∈ t.inorder := by rw [hsplit]; simp
  have hns := h.nodeSize_eq hdm
  have hshrink : u32Sub (nodeSize d) (nodeSize d) = 0 := by simp only [u32Sub]; omega
  obtain ⟨hlay, hmem⟩ := cutNode_spec (f := fun d => { d with used := true }) h hsub (by omega) rfl
    (by simp only; omega) le_rfl
  have hd' : ({ d with used := true } : Allocation) = blockOf d (nodeSize d) := by
    simp only [Allocation.mk.injEq, true_and, and_true]
    omega
  rw [hd'] at hmem
  refine ⟨modifyAt (mapRoot fun d => { d with used := true }) p t,
    by simp [allocateIn, hsub, root?, hshrink],
    allocated_of_mem (fun _ => False) h hdm hd hpos (by omega) hlay
      (by simpa using hmem) (by simp) fun x => ?_⟩
  simp only [false_and, exists_false, iff_false, not_and, not_lt]
  omega

private lemma allocateIn_eq {t : MemTree} {p : Path} {d : Allocation} {a b : MemTree} {size : ℕ}
    {info : PageInfo} (h : Layout t.inorder) (hsub : t.subtree p = node d a b)
    (hdm : d ∈ t.inorder) (hlt : size < nodeSize d) :
    allocateIn p size info t = (d.start,
      addNode { start := d.start + size, end_ := d.end_, pageInfo := info }
        (modifyAt (mapRoot ((fun d => { d with used := true }) ∘ shrinkBlock (nodeSize d - size)))
          p t)) := by
  have hdle := h.start_le hdm
  have hdmax := h.lt_max d hdm
  have hns := h.nodeSize_eq hdm
  have hshrink : u32Sub (nodeSize d) size = nodeSize d - size := u32Sub_of_le hlt.le (by omega)
  have hend : (shrinkBlock (nodeSize d - size) d).end_ = d.start + size := by
    simp only [shrinkBlock, u32Sub]
    omega
  have hrend : u32 (d.start + size + (nodeSize d - size)) = d.end_ := by
    rw [u32_of_lt (by omega)]
    omega
  simp only [allocateIn, hsub, root?, hshrink, hend, hrend]
  rw [if_pos (by omega), addNode, @BST.addNode_modifyAt_mapRoot _ compareFunc _
    (fun d => { d with used := true }) (fun _ => rfl) p _
    (by rw [subtree_modifyAt _ _ _ (by simp [hsub]), hsub]; simp [mapRoot]), modifyAt_modifyAt]
  congr 4
  funext u
  cases u <;> rfl

private lemma allocateIn_split {t : MemTree} {p : Path} {d : Allocation} {a b : MemTree} {size : ℕ}
    (info : PageInfo) (h : Layout t.inorder) (hsub : t.subtree p = node d a b)
    (hd : d.used = false) (hpos : 0 < size) (hlt : size < nodeSize d) :
    ∃ t', allocateIn p size info t = (d.start, t') ∧ Allocated t t' (blockOf d size) ∧
      ∀ x, Covers t'.inorder x ↔ Covers t.inorder x := by
  obtain ⟨A, B, hsplit, -, -⟩ := exists_split hsub
  have hdm : d ∈ t.inorder := by rw [hsplit]; simp
  have hdle := h.start_le hdm
  have hdmax := h.lt_max d hdm
  have hns := h.nodeSize_eq hdm
  set f : Allocation → Allocation :=
    (fun d => { d with used := true }) ∘ shrinkBlock (nodeSize d - size)
  set r : Allocation := { start := d.start + size, end_ := d.end_, pageInfo := info } with hr
  have hre : r.start < r.end_ := by simp only [hr]; omega
  have hfd : f d = blockOf d size := by
    simp only [f, Function.comp_apply, shrinkBlock, Allocation.mk.injEq, true_and, and_true, u32Sub]
    omega
  obtain ⟨hlay, hmem⟩ := splitNode_spec (r := r) (f := f) h hsub (by rw [hfd]) (by rw [hfd])
    (by simp [hr, hpos]) hre.le rfl rfl
  rw [hfd] at hmem
  refine ⟨_, allocateIn_eq h hsub hdm hlt,
    allocated_of_mem (· = r) h hdm hd hpos (by omega) hlay hmem ?_ fun x => by simp [hr]⟩
  rintro c rfl
  exact ⟨rfl, hre⟩

lemma allocateIn_spec {t : MemTree} {p : Path} {d : Allocation} {a b : MemTree} {size : ℕ}
    (info : PageInfo) (h : Layout t.inorder) (hsub : t.subtree p = node d a b)
    (hd : d.used = false) (hpos : 0 < size) (hsize : size ≤ nodeSize d) :
    ∃ t', allocateIn p size info t = (d.start, t') ∧ Allocated t t' (blockOf d size) ∧
      ∀ x, Covers t'.inorder x ↔ Covers t.inorder x := by
  rcases Nat.eq_or_lt_of_le hsize with rfl | hlt
  · exact allocateIn_exact info h hsub hd hpos
  · exact allocateIn_split info h hsub hd hpos hlt

lemma free_mem_allocateIn {t t' : MemTree} {p : Path} {d c : Allocation} {a b : MemTree} {size addr : ℕ}
    {info : PageInfo} (h : Layout t.inorder) (hsub : t.subtree p = node d a b)
    (hpos : 0 < size) (hsize : size ≤ nodeSize d)
    (hrun : allocateIn p size info t = (addr, t')) (hc : c ∈ t'.inorder) (hcu : c.used = false) :
    c ∈ t.inorder ∧ c ≠ d ∨ size < nodeSize d ∧
      c = { start := d.start + size, end_ := d.end_, pageInfo := info } := by
  obtain ⟨A, B, hsplit, -, -⟩ := exists_split hsub
  have hdm : d ∈ t.inorder := by rw [hsplit]; simp
  have hdle := h.start_le hdm
  have hdmax := h.lt_max d hdm
  have hns := h.nodeSize_eq hdm
  rcases Nat.eq_or_lt_of_le hsize with rfl | hlt
  · -- the whole node is taken
    have hshrink : u32Sub (nodeSize d) (nodeSize d) = 0 := by simp only [u32Sub]; omega
    simp only [allocateIn, hsub, root?, hshrink, ne_eq, not_true_eq_false, if_false, Prod.mk.injEq] at hrun
    obtain ⟨-, rfl⟩ := hrun
    obtain ⟨-, hmem⟩ := cutNode_spec (f := fun d => { d with used := true }) h hsub (by omega) rfl
      (by simp only; omega) le_rfl
    rcases (hmem c).mp hc with rfl | hc
    · simp at hcu
    · exact Or.inl hc
  · rw [allocateIn_eq h hsub hdm hlt, Prod.mk.injEq] at hrun
    obtain ⟨-, rfl⟩ := hrun
    have hend : (shrinkBlock (nodeSize d - size) d).end_ = d.start + size := by
      simp only [shrinkBlock, u32Sub]
      omega
    obtain ⟨-, hmem⟩ := splitNode_spec (r := { start := d.start + size, end_ := d.end_, pageInfo := info })
      (f := (fun d => { d with used := true }) ∘ shrinkBlock (nodeSize d - size)) h hsub rfl hend
      (by simp only; omega) (by simp only; omega) rfl rfl
    rcases (hmem c).mp hc with rfl | rfl | hc
    · simp at hcu
    · exact Or.inr ⟨hlt, rfl⟩
    · exact Or.inl hc

/-! ## `allocate` -/

lemma findFreeBlock_some {size : ℕ} {hint : HintInfo} : ∀ {t : MemTree} {p : Path},
    findFreeBlock size hint t = some p →
      ∃ d a b, t.subtree p = node d a b ∧ d.used = false ∧ size ≤ nodeSize d
  | nil, p, h => by simp [findFreeBlock] at h
  | node d a b, p, h => by
      rw [findFreeBlock] at h
      split at h
      · next hd =>
          obtain rfl := Option.some.inj h
          simp only [Bool.and_eq_true, Bool.not_eq_true', decide_eq_true_eq] at hd
          exact ⟨d, a, b, by simp, hd.1.1, hd.1.2⟩
      · split at h
        · next q hq =>
            obtain rfl := Option.some.inj h
            split_ifs at hq
            obtain ⟨c, l, r, hc⟩ := findFreeBlock_some hq
            exact ⟨c, l, r, hc⟩
        · obtain ⟨q, hq, rfl⟩ := Option.map_eq_some_iff.mp h
          obtain ⟨c, l, r, hc⟩ := findFreeBlock_some hq
          exact ⟨c, l, r, hc⟩

section Allocate

variable {σ : Type} {sbrk : ℕ → PageInfo → HintInfo → σ → Except Fault (ℕ × σ)}

/-- The free node `node_physical_alloc` makes of the pages at `alloc`. -/
abbrev physicalNode (alloc size : ℕ) (info : PageInfo) : Allocation :=
  { start := alloc, end_ := u32 (alloc + numPagesFor size * pageSize), pageInfo := info }

/-- **What a call of `allocate` that returns has done**: split a free node, got nothing from
`sbrk`, or split the node made of the pages `sbrk` returned. -/
lemma allocate_cases {size : ℕ} {info : PageInfo} {hint : HintInfo} {t t' : MemTree} {s s' : σ}
    {addr : ℕ} (h : allocate sbrk size info hint t s = .ok ((addr, t'), s')) :
    (∃ p, findFreeBlock size hint t = some p ∧ allocateIn p size info t = (addr, t') ∧ s' = s) ∨
      findFreeBlock size hint t = none ∧ ∃ alloc,
        sbrk (numPagesFor size) info hint s = .ok (alloc, s') ∧
          (alloc = 0 ∧ addr = 0 ∧ t' = t ∨
            alloc ≠ 0 ∧ allocateIn (BST.addNodePath compareFunc (physicalNode alloc size info) t)
              size info (addNode (physicalNode alloc size info) t) = (addr, t')) := by
  rw [allocate] at h
  split_ifs at h
  split at h
  · next p hp =>
      simp only [Except.ok.injEq, Prod.mk.injEq] at h
      exact Or.inl ⟨p, hp, h.1, h.2.symm⟩
  · next hnone =>
      refine Or.inr ⟨hnone, ?_⟩
      obtain ⟨⟨block, s₁⟩, hblock, hrest⟩ := bind_eq_ok.mp h
      obtain ⟨⟨alloc, s₂⟩, hsbrk, hnode⟩ := bind_eq_ok.mp hblock
      refine ⟨alloc, ?_⟩
      simp only at hnode hrest
      split_ifs at hnode with halloc
      · simp only [Except.ok.injEq, Prod.mk.injEq] at hnode
        obtain ⟨rfl, rfl⟩ := hnode
        simp only [Except.ok.injEq, Prod.mk.injEq] at hrest
        obtain ⟨⟨rfl, rfl⟩, rfl⟩ := hrest
        exact ⟨hsbrk, Or.inl ⟨halloc, rfl, rfl⟩⟩
      · simp only [Except.ok.injEq, Prod.mk.injEq] at hnode
        obtain ⟨rfl, rfl⟩ := hnode
        simp only [Except.ok.injEq, Prod.mk.injEq] at hrest
        obtain ⟨hin, rfl⟩ := hrest
        exact ⟨hsbrk, Or.inr ⟨halloc, hin⟩⟩

/-- The assumption on `sbrk`: in the state `s` it only returns page ranges that meet no node of the
tree and do not reach `2^32`. -/
def SbrkFresh (sbrk : ℕ → PageInfo → HintInfo → σ → Except Fault (ℕ × σ)) (t : MemTree) (s : σ) :
    Prop :=
  ∀ n info hint alloc s', 0 < n → sbrk n info hint s = .ok (alloc, s') → alloc ≠ 0 →
    alloc % pageSize = 0 ∧ alloc + n * pageSize < 4294967296 ∧
      ∀ d ∈ t.inorder, d.end_ ≤ alloc ∨ alloc + n * pageSize ≤ d.start

/-- A request that reaches `sbrk` and gets pages is small enough for the page count not to wrap. -/
def Fits (sbrk : ℕ → PageInfo → HintInfo → σ → Except Fault (ℕ × σ)) (size : ℕ) (info : PageInfo)
    (hint : HintInfo) (t : MemTree) (s : σ) : Prop :=
  findFreeBlock size hint t = none → ∀ alloc s', alloc ≠ 0 →
    sbrk (numPagesFor size) info hint s = .ok (alloc, s') → size ≤ 4294967296 - 4096

lemma fits_of_le {size : ℕ} {info : PageInfo} {hint : HintInfo} {t : MemTree} {s : σ}
    (h : size ≤ 4294967296 - 4096) : Fits sbrk size info hint t s := fun _ _ _ _ _ => h

lemma numPagesFor_spec {size : ℕ} (hsize : size ≤ 4294967296 - 4096) :
    size ≤ numPagesFor size * pageSize ∧ 2 ≤ numPagesFor size := by
  simp only [numPagesFor, pageSize, addrPage, u32]
  omega

lemma physicalNode_spec {size alloc : ℕ} {t : MemTree} (info : PageInfo) (h : Layout t.inorder)
    (hsize : size ≤ 4294967296 - 4096) (hmax : alloc + numPagesFor size * pageSize < 4294967296)
    (hfresh : ∀ d ∈ t.inorder, d.start < d.end_ →
      d.end_ ≤ alloc ∨ alloc + numPagesFor size * pageSize ≤ d.start) :
    Layout (addNode (physicalNode alloc size info) t).inorder ∧
      (∀ a, a ∈ (addNode (physicalNode alloc size info) t).inorder ↔
        a = physicalNode alloc size info ∨ a ∈ t.inorder) ∧
      size ≤ nodeSize (physicalNode alloc size info) ∧
      (physicalNode alloc size info).start < (physicalNode alloc size info).end_ := by
  obtain ⟨hn, hn2⟩ := numPagesFor_spec hsize
  have hend : (physicalNode alloc size info).end_ = alloc + numPagesFor size * pageSize :=
    u32_of_lt hmax
  have hpages : 0 < numPagesFor size * pageSize := Nat.mul_pos (by omega) (by decide)
  have hlt : (physicalNode alloc size info).start < (physicalNode alloc size info).end_ := by
    rw [hend]
    simp only
    omega
  obtain ⟨h₁, h₂⟩ := addNode_spec (x := physicalNode alloc size info) h hlt.le (by omega)
    (fun _ => hlt) (fun a ha hae _ => by
      rcases hfresh a ha hae with h | h
      · exact Or.inl h
      · exact Or.inr (by omega))
  refine ⟨h₁, h₂, ?_, hlt⟩
  have hns : nodeSize (physicalNode alloc size info) = alloc + numPagesFor size * pageSize - alloc := by
    rw [nodeSize, u32Sub_of_le hlt.le (by omega), hend]
  omega

/-- **`allocate`** either fails and leaves the tree alone, or adds one used block of exactly the
size asked for; the tree then covers the pages `sbrk` returned, if it was called, besides what it
covered before. -/
lemma allocate_spec {size : ℕ} {info : PageInfo} {hint : HintInfo} {t t' : MemTree} {s s' : σ}
    {addr : ℕ} (h : Layout t.inorder) (hpos : 0 < size)
    (hsize : Fits sbrk size info hint t s) (hfresh : SbrkFresh sbrk t s)
    (hrun : allocate sbrk size info hint t s = .ok ((addr, t'), s')) :
    addr = 0 ∧ t' = t ∧ sbrk (numPagesFor size) info hint s = .ok (0, s') ∨
      ∃ blk, blk.start = addr ∧ blk.end_ = addr + size ∧ Allocated t t' blk ∧
        (s' = s ∧ (∀ x, Covers t'.inorder x ↔ Covers t.inorder x) ∨
          ∃ alloc ≠ 0, sbrk (numPagesFor size) info hint s = .ok (alloc, s') ∧
            ∀ x, Covers t'.inorder x ↔
              Covers t.inorder x ∨ alloc ≤ x ∧ x < alloc + numPagesFor size * pageSize) := by
  rcases allocate_cases hrun with ⟨p, hfind, hin, hs⟩ | ⟨hnone, alloc, hsbrk, hcase⟩
  · obtain ⟨d, a, b, hsub, hd, hd'⟩ := findFreeBlock_some hfind
    obtain ⟨t₁, h₁, h₂, hcov⟩ := allocateIn_spec info h hsub hd hpos hd'
    rw [h₁, Prod.mk.injEq] at hin
    obtain ⟨rfl, rfl⟩ := hin
    exact Or.inr ⟨blockOf d size, rfl, rfl, h₂, Or.inl ⟨hs, hcov⟩⟩
  · rcases hcase with ⟨rfl, rfl, rfl⟩ | ⟨halloc, hin⟩
    · exact Or.inl ⟨rfl, rfl, hsbrk⟩
    · have hsize := hsize hnone alloc s' halloc hsbrk
      obtain ⟨-, hmax, hdisj⟩ := hfresh _ _ _ _ _ (by simp [numPagesFor]) hsbrk halloc
      obtain ⟨hlay, hmem, hbig, hlt⟩ := physicalNode_spec info h hsize hmax
        fun d hd _ => hdisj d hd
      have hend : (physicalNode alloc size info).end_ = alloc + numPagesFor size * pageSize :=
        u32_of_lt hmax
      obtain ⟨t₁, h₁, h₂, hcov⟩ :=
        allocateIn_spec info hlay (BST.subtree_addNodePath _ _) rfl hpos hbig
      rw [h₁, Prod.mk.injEq] at hin
      obtain ⟨rfl, rfl⟩ := hin
      refine Or.inr ⟨blockOf _ size, rfl, rfl, ⟨h₂.layout, fun u hu => ?_,
        fun hf => h₂.full fun c hc => ?_, rfl, fun c hc => h₂.fresh c ((hmem c).mpr (Or.inr hc))⟩,
        Or.inr ⟨alloc, halloc, hsbrk, fun x => ?_⟩⟩
      · have : u ≠ physicalNode alloc size info := by rintro rfl; simp at hu
        rw [h₂.used u hu, hmem]
        simp [this]
      · rcases (hmem c).mp hc with rfl | hc
        · exact hlt
        · exact hf c hc
      · rw [hcov, ← hend]
        simp only [Covers, Covered, hmem, or_and_right, exists_or, exists_eq_left]
        exact or_comm

end Allocate

end BrebOS.MemTree

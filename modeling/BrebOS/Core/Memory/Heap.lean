import BrebOS.Core.Memory.Effects
import BrebOS.Core.Memtree.Run

/-!
# The heap of a process and its page tables

`MemTree::allocate` and `MemTree::free` on the tree of a user process, with the real `sbrk` and
`free_page` behind them.  The two structures stay in step as long as no call of `free` gives pages
back: a page outside those mapped at the start is used **iff** the tree covers it, and a page once
mapped keeps its entry.

A `free` that does give pages back calls `free_page` with a page number where an address is
expected (`free_all` passes an address), so it never unmaps the pages that leave the tree.
-/

namespace BrebOS.Memory

open MemTree

variable {pid : ℕ} {m m' : Memory} {policy : Flags}

/-! ## The calls -/

/-- Write `process->memtree`. -/
def setMemtree (m : Memory) (pid : ℕ) (t : MemTree) : Memory :=
  { m with process := Function.update m.process pid { m.process pid with memtree := t } }

/-- `process->memtree.allocate`. -/
def heapAllocate (pid size : ℕ) (info : PageInfo) (hint : HintInfo) (m : Memory) :
    Except Fault (ℕ × Memory) := do
  let ((addr, t), m) ← MemTree.allocate (sbrk (.user pid)) size info hint
    (m.process pid).memtree m
  .ok (addr, m.setMemtree pid t)

/-- `process->memtree.free`. -/
def heapFree (pid address : ℕ) (m : Memory) : Except Fault (FreeState × Memory) := do
  let (state, t, pages) ← MemTree.free address (m.process pid).memtree
  let m ← pages.foldlM (fun m a => freePageOf (.user pid) a m) (m.setMemtree pid t)
  .ok (state, m)

@[simp] lemma pte_setMemtree {t : MemTree} : (m.setMemtree pid t).pte = m.pte := by
  funext p i
  cases p with
  | kernel => rfl
  | user pid' => by_cases h : pid' = pid <;> simp [setMemtree, pte, h]

@[simp] lemma memtree_setMemtree {t : MemTree} :
    ((m.setMemtree pid t).process pid).memtree = t := by simp [setMemtree]

@[simp] lemma lowestPe_setMemtree {t : MemTree} {proc : ProcId} :
    (m.setMemtree pid t).lowestPe proc = m.lowestPe proc := by
  cases proc with
  | kernel => rfl
  | user pid' => by_cases h : pid' = pid <;> simp [setMemtree, lowestPe, h]

/-! ## What `sbrk` does to the tables of the process -/

/-- `m'` differs from `m`, as far as the process is concerned, in the entries of `pages` only, and
these have the flags `policy`. -/
structure Filled (pid : ℕ) (policy : Flags) (pages : List ℕ) (m m' : Memory) : Prop where
  other : ∀ i, i ∉ pages → m'.pte (.user pid) i = m.pte (.user pid) i
  flags : ∀ i ∈ pages, (m'.pte (.user pid) i).flags = policy
  memtree : (m'.process pid).memtree = (m.process pid).memtree
  lowestPe : m'.lowestPe (.user pid) = m.lowestPe (.user pid)

lemma filled_of_foldlM {step : Memory → ℕ → Except Fault Memory}
    (hstep : ∀ m m' page, step m page = .ok m' → Filled pid policy [page] m m') :
    ∀ {pages : List ℕ} {m m' : Memory}, pages.foldlM step m = .ok m' →
      Filled pid policy pages m m'
  | [], m, m', h => by
      simp only [List.foldlM_nil, pure, Except.pure, Except.ok.injEq] at h
      subst h
      exact ⟨fun _ _ => rfl, by simp, rfl, rfl⟩
  | page :: pages, m, m', h => by
      rw [List.foldlM_cons, bind_eq_ok] at h
      obtain ⟨m₁, h₁, h⟩ := h
      have hone := hstep m m₁ page h₁
      have hrest := filled_of_foldlM hstep h
      refine ⟨fun i hi => ?_, fun i hi => ?_, hrest.memtree.trans hone.memtree,
        hrest.lowestPe.trans hone.lowestPe⟩
      · rw [List.mem_cons, not_or] at hi
        rw [hrest.other i hi.2, hone.other i (by simpa using hi.1)]
      · by_cases hmem : i ∈ pages
        · exact hrest.flags i hmem
        · obtain rfl := (List.mem_cons.mp hi).resolve_right hmem
          rw [hrest.other i hmem]
          exact hone.flags i (by simp)

lemma sbrkUserPage_filled {page : ℕ} (h : sbrkUserPage pid policy m page = .ok m') :
    Filled pid policy [page] m m' := by
  obtain ⟨frame, sysPe, m₁, hs, -, -, -, -, -, rfl⟩ := sbrkUserPage_spec h
  refine ⟨fun i hi => ?_, fun i hi => ?_, ?_, ?_⟩
  · rw [pte_updated_of_ne (fun _ => by simpa using hi), pte_allocated_user, hs.pte]
  · obtain rfl := List.mem_singleton.mp hi
    rw [pte_updated_self]
  · rw [memtree_updated, process_allocated, hs.process]
  · rw [lowestPe_updated]
    simp only [lowestPe, process_allocated, hs.process]

lemma sbrkLazyPage_filled {page : ℕ} (h : sbrkLazyPage pid policy m page = .ok m') :
    Filled pid policy [page] m m' := by
  obtain ⟨-, -, rfl⟩ := updatePte_eq_ok.mp h
  refine ⟨fun i hi => pte_updated_of_ne (fun _ => by simpa using hi), fun i hi => ?_,
    memtree_updated, lowestPe_updated⟩
  obtain rfl := List.mem_singleton.mp hi
  rw [pte_updated_self]

/-- **What a call of `sbrk` for a process that returns has done**: nothing, or filled a stretch of
unused pages and moved `lowest_free_pe` up. -/
lemma sbrk_user_spec {n addr : ℕ} {info : PageInfo} {hint : HintInfo}
    (h : sbrk (.user pid) n info hint m = .ok (addr, m')) :
    addr = 0 ∧ m' = m ∨
      ∃ b, addr = b * pageSize ∧ b + n ≤ userEntries ∧
        (∀ i, b ≤ i → i < b + n → (m.pte (.user pid) i).used = false) ∧
        (∀ i, ¬(b ≤ i ∧ i < b + n) → m'.pte (.user pid) i = m.pte (.user pid) i) ∧
        (∀ i, b ≤ i → i < b + n → (m'.pte (.user pid) i).flags = info.policy) ∧
        (m'.process pid).memtree = (m.process pid).memtree ∧
        m.lowestPe (.user pid) ≤ m'.lowestPe (.user pid) ∧
        (hint.isMandatory = true → b = addrPage hint.hint) ∧
        (hint.isMandatory = false → m.lowestPe (.user pid) ≤ b) := by
  rcases sbrk_cases h with h | ⟨b, m₁, haddr, hr, -, -, -, hpages, hadv⟩
  · exact Or.inl h
  · obtain ⟨hb, hunused, hmand, hlow⟩ := getContiguousPages_spec hr
    obtain ⟨pe, hle, rfl⟩ := advanceLowestPe_spec hadv
    have hfill : Filled pid info.policy (List.range' b n) m m₁ := by
      simp only [sbrkPages] at hpages
      split_ifs at hpages with h₃ h₄
      · exact filled_of_foldlM (fun _ _ _ => sbrkUserPage_filled) hpages
      · exact filled_of_foldlM (fun _ _ _ => sbrkLazyPage_filled) hpages
    refine Or.inr ⟨b, haddr, hb, hunused, fun i hi => ?_, fun i h₁ h₂ => ?_, ?_, ?_, hmand, hlow⟩
    · rw [pte_setLowestPe]
      exact hfill.other i (by simp only [List.mem_range'_1]; omega)
    · rw [pte_setLowestPe]
      exact hfill.flags i (by simp only [List.mem_range'_1]; omega)
    · rw [memtree_setLowestPe, hfill.memtree]
    · rw [lowestPe_setLowestPe, ← hfill.lowestPe]
      exact hle

/-! ## Tree and tables in step -/

/-- Some address of the page belongs to a node. -/
def CoversPage (t : MemTree) (page : ℕ) : Prop := ∃ x, Covers t.inorder x ∧ addrPage x = page

/-- Whether `free(address)` gives pages back: it finds a used block, and the block it makes of it
contains two whole pages. -/
def givesBack (address : ℕ) (t : MemTree) : Bool :=
  match findAllocationNode address t with
  | none => false
  | some ptr =>
      match (t.subtree ptr).root? with
      | none => false
      | some d => address ≠ 0 && d.used && releases t ptr

/-- A process whose heap is about to be used: whatever its tree covers is mapped (the segments and
stacks the loader registered; nothing after a `fork`), and page 0 is not up for allocation. -/
structure HeapStart (pid : ℕ) (m : Memory) : Prop where
  layout : Layout (m.process pid).memtree.inorder
  full : Full (m.process pid).memtree.inorder
  used : ∀ x, Covers (m.process pid).memtree.inorder x →
    (m.pte (.user pid) (addrPage x)).used = true
  low : 1 ≤ m.lowestPe (.user pid)

/-- Runs of `allocate` and `free` on the heap of a process, in which no `free` gives pages back and
no request is for page 0.  Between two calls the rest of the system may do anything that leaves the
process alone. -/
inductive HeapRun (pid : ℕ) (m₀ : Memory) : Memory → Prop
  | refl : HeapRun pid m₀ m₀
  | allocate {m m' : Memory} {size addr : ℕ} {info : PageInfo} {hint : HintInfo} :
      HeapRun pid m₀ m → 1 ≤ size → size ≤ 2 ^ 32 - 4096 →
      (hint.isMandatory = true → pageSize ≤ hint.hint) →
      heapAllocate pid size info hint m = .ok (addr, m') → HeapRun pid m₀ m'
  | free {m m' : Memory} {address : ℕ} {state : FreeState} : HeapRun pid m₀ m →
      givesBack address (m.process pid).memtree = false →
      heapFree pid address m = .ok (state, m') → HeapRun pid m₀ m'
  | other {m m' : Memory} : HeapRun pid m₀ m → m'.process pid = m.process pid → HeapRun pid m₀ m'

/-- The invariant: `HeapStart`, and the pages used since the start are covered. -/
structure InStep (pid : ℕ) (m₀ m : Memory) : Prop extends HeapStart pid m where
  covered : ∀ page, (m₀.pte (.user pid) page).used = false →
    (m.pte (.user pid) page).used = true → CoversPage (m.process pid).memtree page

lemma apart_of_unused {proc : ProcId} {t : MemTree} {d : Allocation} {b n : ℕ}
    (hused : ∀ x, Covers t.inorder x → (m.pte proc (addrPage x)).used = true)
    (hunused : ∀ i, b ≤ i → i < b + n → (m.pte proc i).used = false) (hd : d ∈ t.inorder)
    (hne : d.start < d.end_) (hn : 0 < n) :
    d.end_ ≤ b * pageSize ∨ b * pageSize + n * pageSize ≤ d.start := by
  by_contra hmeet
  push Not at hmeet
  -- a common address lies on a page that is both used and unused
  have hx : Covers t.inorder (max d.start (b * pageSize)) := by
    refine ⟨d, hd, by omega, ?_⟩
    simp only [pageSize] at *
    omega
  have hpage : b ≤ addrPage (max d.start (b * pageSize)) ∧
      addrPage (max d.start (b * pageSize)) < b + n := by
    simp only [addrPage, pageSize] at *
    omega
  have hun := hunused _ hpage.1 hpage.2
  rw [hused _ hx] at hun
  exact Bool.noConfusion hun

lemma HeapStart.sbrkFresh (h : HeapStart pid m) :
    SbrkFresh (sbrk (.user pid)) (m.process pid).memtree m := by
  intro n info hint alloc m' hn hrun halloc
  rcases sbrk_user_spec hrun with ⟨h₀, -⟩ | ⟨b, rfl, hb, hunused, -⟩
  · exact absurd h₀ halloc
  · simp only [userEntries] at hb
    exact ⟨by simp [pageSize], by simp only [pageSize]; omega,
      fun d hd => apart_of_unused h.used hunused hd (h.full d hd) hn⟩

lemma allocate_valid {σ : Type} {sb : ℕ → PageInfo → HintInfo → σ → Except Fault (ℕ × σ)}
    {size : ℕ} {info : PageInfo} {hint : HintInfo} {t : MemTree} {s : σ}
    {r : (ℕ × MemTree) × σ} (h : MemTree.allocate sb size info hint t s = .ok r) :
    info.policy.present = !info.policy.lazyZero := by
  rw [MemTree.allocate] at h
  split_ifs at h with hp
  revert hp
  cases info.policy.present <;> cases info.policy.lazyZero <;> simp

lemma heapAllocate_spec {m₀ : Memory} {size addr : ℕ} {info : PageInfo} {hint : HintInfo}
    (h : InStep pid m₀ m) (hpos : 1 ≤ size) (hsize : size ≤ 2 ^ 32 - 4096)
    (hhint : hint.isMandatory = true → pageSize ≤ hint.hint)
    (hrun : heapAllocate pid size info hint m = .ok (addr, m')) :
    InStep pid m₀ m' ∧ ∀ page, (m.pte (.user pid) page).used = true →
      m'.pte (.user pid) page = m.pte (.user pid) page := by
  obtain ⟨⟨⟨addr', t⟩, m₁⟩, hall, hrun⟩ := bind_eq_ok.mp hrun
  simp only [Except.ok.injEq, Prod.mk.injEq] at hrun
  obtain ⟨-, rfl⟩ := hrun
  have hvalid := allocate_valid hall
  rcases allocate_spec h.layout hpos (fits_of_le hsize) h.sbrkFresh hall with ⟨-, rfl, hsbrk⟩ |
    ⟨blk, -, -, hblk, ⟨rfl, hcov⟩ | ⟨alloc, halloc, hsbrk, hcov⟩⟩
  · -- `sbrk` returned null, so it did nothing: it was not asked for page 0
    have hsame : m₁ = m := by
      rcases sbrk_user_spec hsbrk with ⟨-, hsame⟩ | ⟨b, h₀, -, -, -, -, -, -, hmand, hlow⟩
      · exact hsame
      · have hlow₁ := h.low
        have hb : b = 0 := by simp only [pageSize] at h₀; omega
        cases hm : hint.isMandatory with
        | true =>
            have := hhint hm
            have := hmand hm
            simp only [addrPage, pageSize] at *
            omega
        | false =>
            have := hlow hm
            omega
    subst hsame
    refine ⟨⟨⟨?_, ?_, ?_, ?_⟩, ?_⟩, by simp⟩ <;> simp
    · exact h.layout
    · exact h.full
    · exact fun x hx => h.used x hx
    · exact h.low
    · exact h.covered
  · refine ⟨⟨⟨?_, ?_, ?_, ?_⟩, ?_⟩, by simp⟩ <;> simp only [memtree_setMemtree, pte_setMemtree,
      lowestPe_setMemtree]
    · exact hblk.layout
    · exact hblk.full h.full
    · exact fun x hx => h.used x ((hcov x).mp hx)
    · exact h.low
    · intro page h₁ h₂
      obtain ⟨x, hx, hpage⟩ := h.covered page h₁ h₂
      exact ⟨x, (hcov x).mpr hx, hpage⟩
  · rcases sbrk_user_spec hsbrk with ⟨h₀, -⟩ |
      ⟨b, rfl, hb, hunused, hother, hnew, -, hlow, -, -⟩
    · exact absurd h₀ halloc
    have hnewUsed : ∀ i, b ≤ i → i < b + numPagesFor size → (m₁.pte (.user pid) i).used = true :=
      fun i h₁ h₂ => by simp [Entry.used, hnew i h₁ h₂, hvalid]
    have hkeep : ∀ page, (m.pte (.user pid) page).used = true →
        m₁.pte (.user pid) page = m.pte (.user pid) page := fun page hu => by
      refine hother page fun hin => ?_
      rw [hunused page hin.1 hin.2] at hu
      exact Bool.noConfusion hu
    refine ⟨⟨⟨?_, ?_, ?_, ?_⟩, ?_⟩, ?_⟩ <;> simp only [memtree_setMemtree, pte_setMemtree,
      lowestPe_setMemtree]
    · exact hblk.layout
    · exact hblk.full h.full
    · intro x hx
      rcases (hcov x).mp hx with hx | hx
      · rw [hkeep _ (h.used x hx)]
        exact h.used x hx
      · exact hnewUsed _ (by simp only [addrPage, pageSize] at hx ⊢; omega)
          (by simp only [addrPage, pageSize] at hx ⊢; omega)
    · exact h.low.trans hlow
    · intro page h₁ h₂
      by_cases hin : b ≤ page ∧ page < b + numPagesFor size
      · refine ⟨page * pageSize, (hcov _).mpr (Or.inr ?_), by simp [addrPage, pageSize]⟩
        simp only [pageSize]
        omega
      · rw [hother page hin] at h₂
        obtain ⟨x, hx, hpage⟩ := h.covered page h₁ h₂
        exact ⟨x, (hcov x).mpr (Or.inl hx), hpage⟩
    · exact hkeep

lemma heapFree_spec {m₀ : Memory} {address : ℕ} {state : FreeState} (h : InStep pid m₀ m)
    (hback : givesBack address (m.process pid).memtree = false)
    (hrun : heapFree pid address m = .ok (state, m')) :
    InStep pid m₀ m' ∧ m'.pte (.user pid) = m.pte (.user pid) := by
  obtain ⟨⟨state', t, pages⟩, hfree, hrun⟩ := bind_eq_ok.mp hrun
  obtain ⟨m₁, hpages, hrun⟩ := bind_eq_ok.mp hrun
  simp only [Except.ok.injEq, Prod.mk.injEq] at hrun
  obtain ⟨-, rfl⟩ := hrun
  have hspec : pages = [] ∧ Layout t.inorder ∧ Full t.inorder ∧
      ∀ x, Covers t.inorder x ↔ Covers (m.process pid).memtree.inorder x := by
    by_cases haddr : address = 0
    · rw [MemTree.free, if_pos haddr] at hfree
      simp only [Except.ok.injEq, Prod.mk.injEq] at hfree
      obtain ⟨-, rfl, rfl⟩ := hfree
      exact ⟨rfl, h.layout, h.full, fun _ => Iff.rfl⟩
    rcases free_spec h.layout hfree with ⟨rfl, rfl, -⟩ |
      ⟨-, p, d, a, b, hp, hsub, -, hused, hlay, -, hfull, hrel⟩
    · exact ⟨rfl, h.layout, h.full, fun _ => Iff.rfl⟩
    · have hnot : releases (m.process pid).memtree p = false := by
        simpa [givesBack, hp, hsub, BinaryTree.root?, hused, haddr] using hback
      obtain ⟨hnil, hcov⟩ := hrel hnot
      exact ⟨hnil, hlay, hfull h.full, hcov h.full⟩
  obtain ⟨rfl, hlay, hfull, hcov⟩ := hspec
  simp only [List.foldlM_nil, pure, Except.pure, Except.ok.injEq] at hpages
  subst hpages
  refine ⟨⟨⟨?_, ?_, ?_, ?_⟩, ?_⟩, by simp⟩ <;> simp only [memtree_setMemtree, pte_setMemtree,
    lowestPe_setMemtree]
  · exact hlay
  · exact hfull
  · exact fun x hx => h.used x ((hcov x).mp hx)
  · exact h.low
  · intro page h₁ h₂
    obtain ⟨x, hx, hpage⟩ := h.covered page h₁ h₂
    exact ⟨x, (hcov x).mpr hx, hpage⟩

lemma InStep.of_process_eq {m₀ : Memory} (h : InStep pid m₀ m)
    (heq : m'.process pid = m.process pid) :
    InStep pid m₀ m' ∧ m'.pte (.user pid) = m.pte (.user pid) := by
  have hpte : m'.pte (.user pid) = m.pte (.user pid) := by
    funext i
    simp only [pte, heq]
  refine ⟨⟨⟨?_, ?_, ?_, ?_⟩, ?_⟩, hpte⟩
  · exact heq ▸ h.layout
  · exact heq ▸ h.full
  · rw [heq, hpte]
    exact h.used
  · simpa only [lowestPe, heq] using h.low
  · rw [heq, hpte]
    exact h.covered

lemma heapRun_inv {m₀ : Memory} (hstart : HeapStart pid m₀) (hrun : HeapRun pid m₀ m) :
    InStep pid m₀ m := by
  induction hrun with
  | refl => exact ⟨hstart, fun page h₁ h₂ => by simp [h₁] at h₂⟩
  | allocate _ hpos hsize hhint hrun ih => exact (heapAllocate_spec ih hpos hsize hhint hrun).1
  | free _ hback hrun ih => exact (heapFree_spec ih hback hrun).1
  | other _ heq ih => exact (ih.of_process_eq heq).1

lemma heapRun_pte {m₁ m₂ : Memory} {page : ℕ} (hstart : HeapStart pid m₁)
    (hrun : HeapRun pid m₁ m₂) (hused : (m₁.pte (.user pid) page).used = true) :
    m₂.pte (.user pid) page = m₁.pte (.user pid) page := by
  induction hrun with
  | refl => rfl
  | allocate hrun hpos hsize hhint hstep ih =>
      rw [(heapAllocate_spec (heapRun_inv hstart hrun) hpos hsize hhint hstep).2 page
        (by rw [ih]; exact hused), ih]
  | free hrun hback hstep ih => rw [(heapFree_spec (heapRun_inv hstart hrun) hback hstep).2, ih]
  | other hrun heq ih => rw [((heapRun_inv hstart hrun).of_process_eq heq).2, ih]

/-- **Tree and tables stay in step** in every run in which no `free` gives pages back: among the
pages that were free at the start, the used ones are exactly those the tree covers, and whatever is
mapped keeps its entry, frame included, to the end of the run. -/
theorem heapRun_inStep {m₀ : Memory} (hstart : HeapStart pid m₀) (hrun : HeapRun pid m₀ m) :
    (∀ page, (m₀.pte (.user pid) page).used = false →
      ((m.pte (.user pid) page).used = true ↔ CoversPage (m.process pid).memtree page)) ∧
    ∀ m', HeapRun pid m m' → ∀ page, (m.pte (.user pid) page).used = true →
      m'.pte (.user pid) page = m.pte (.user pid) page := by
  have hinv := heapRun_inv hstart hrun
  refine ⟨fun page hfree => ⟨hinv.covered page hfree, ?_⟩, fun m' hrun' page hused =>
    heapRun_pte hinv.toHeapStart hrun' hused⟩
  rintro ⟨x, hx, rfl⟩
  exact hinv.used x hx

/-! ## A `free` that gives pages back -/

/-- Memory as the boot code leaves it: the kernel image, the page tables and the two frame arrays in
the first 4096 frames, mapped from `KERNEL_VIRTUAL_BASE` on.  The counts are those `init_frame_rc`
writes, which takes page ids for frame ids. -/
def bootMemory : Memory where
  pageTables i :=
    if 786432 ≤ i ∧ i < 790528 then ⟨i - 786432, { present := true, write := true }⟩ else {}
  process _ := {}
  live := ∅
  frameToPage f := if f < 4096 then some (786432 + f) else none
  frameRc f := if 786432 ≤ f ∧ f < 789504 then 1 else 0
  lowestFreeFrame := 4096
  lowestFreePe := 790528
  lowestFreePeUser := 1
  frames _ _ := 0

/-- The same with one process, whose program spans one page. -/
def oneProcess : Memory :=
  { bootMemory with process := fun _ => { numPages := 1, lowestFreePe := 1 }, live := {0} }

lemma heapStart_oneProcess : HeapStart 0 oneProcess where
  layout := ⟨⟨by simp [oneProcess], by simp [oneProcess]⟩, by simp [oneProcess],
    by simp [oneProcess]⟩
  full := fun d hd => by simp [oneProcess] at hd
  used := fun x hx => by
    obtain ⟨d, hd, -⟩ := hx
    simp [oneProcess] at hd
  low := le_rfl

/-- One allocation of two pages, and what the theorem says about it. -/
theorem heapRun_inStep_one : ∃ addr m, heapAllocate 0 8192 defaultUPageInfo defaultHintInfo
      oneProcess = .ok (addr, m) ∧ HeapRun 0 oneProcess m ∧
    (∀ page, (oneProcess.pte (.user 0) page).used = false →
      ((m.pte (.user 0) page).used = true ↔ CoversPage (m.process 0).memtree page)) ∧
    ∀ m', HeapRun 0 m m' → ∀ page, (m.pte (.user 0) page).used = true →
      m'.pte (.user 0) page = m.pte (.user 0) page := by
  have hok : (heapAllocate 0 8192 defaultUPageInfo defaultHintInfo oneProcess).isOk = true := by
    decide +kernel
  cases h : heapAllocate 0 8192 defaultUPageInfo defaultHintInfo oneProcess with
  | error e => simp [h, Except.isOk, Except.toBool] at hok
  | ok r =>
      have hrun : HeapRun 0 oneProcess r.2 :=
        .allocate .refl (by decide) (by decide) (by simp [defaultHintInfo]) h
      exact ⟨r.1, r.2, rfl, hrun, heapRun_inStep heapStart_oneProcess hrun⟩

/-- **Freeing two whole pages brings the kernel down.**  The block at `4096` is exactly pages 1 and
2; `free_page` is called with the page number 1, which is an address on page 0.  Nothing is mapped
there, so the call ends up releasing the kernel page that maps frame 0. -/
theorem heapFree_two_pages_panics :
    (heapAllocate 0 8192 defaultUPageInfo defaultHintInfo oneProcess).map Prod.fst = .ok 4096 ∧
      (heapAllocate 0 8192 defaultUPageInfo defaultHintInfo oneProcess >>= fun r =>
        heapFree 0 4096 r.2).map Prod.fst = .error (.irrecoverableError "wut") := by
  constructor <;> decide +kernel

end BrebOS.Memory

import BrebOS.Core.Memory.Faults
import BrebOS.Core.Memory.NoWrap
import BrebOS.Core.Memory.Sbrk
import BrebOS.Core.Memtree.Labels
import BrebOS.Lib.Run

/-!
# The `page_info` of a node

A node of the tree says with which flags and policy its pages were mapped.  `find_free_block` looks
at size and address only, so a request can get a block of a node that was mapped another way, and
`allocate` gives what is left of that node the `page_info` of the request.  As long as no request
does, and nothing wraps, and `free` clears no entry of a page in use, every node tells the truth and
every block is mapped as it was asked for (`pageInfo_faithful`).

The state of a run holds, besides the tree and the memory, a record of the `page_info` that `sbrk`
was given when it last mapped each page.
-/

namespace BrebOS.Memory

open MemTree BinaryTree

/-! ## Keeping a record of `page_info` -/

/-- The `page_info` with which `sbrk` last mapped a page. -/
abbrev PageRecord := ℕ → Option PageInfo

/-- `sbrk` that keeps a record. -/
def sbrkRecorded (proc : ProcId) (n : ℕ) (info : PageInfo) (hint : HintInfo)
    (s : Memory × PageRecord) : Except Fault (ℕ × (Memory × PageRecord)) := do
  let (alloc, m) ← sbrk proc n info hint s.1
  .ok (alloc, m, fun page =>
    if alloc ≠ 0 ∧ addrPage alloc ≤ page ∧ page < addrPage alloc + n then some info else s.2 page)

lemma allocate_sbrkRecorded (proc : ProcId) (size : ℕ) (info : PageInfo) (hint : HintInfo)
    (t : MemTree) (m : Memory) (record : PageRecord) :
    (MemTree.allocate (sbrkRecorded proc) size info hint t (m, record)).map
        (fun r => (r.1, r.2.1)) = MemTree.allocate (sbrk proc) size info hint t m := by
  refine allocate_map (f := Prod.fst) (fun n info hint s => ?_) size info hint t (m, record)
  simp only [sbrkRecorded]
  cases sbrk proc n info hint s.1 <;> rfl

/-- A tree, the memory behind it and the record. -/
structure Traced where
  tree : MemTree
  memory : Memory
  record : PageRecord

/-- The calls of a run. -/
inductive HeapCall
  | allocate (size : ℕ) (info : PageInfo) (hint : HintInfo)
  | free (address : ℕ)

namespace Traced

variable (proc : ProcId)

/-- A call of `MemTree::allocate` or `MemTree::free`, with the address that `allocate` returns. -/
def call (s : Traced) : HeapCall → Except Fault (ℕ × Traced)
  | .allocate size info hint => do
      let ((addr, t), m, record) ← MemTree.allocate (sbrkRecorded proc) size info hint s.tree
        (s.memory, s.record)
      .ok (addr, ⟨t, m, record⟩)
  | .free address => do
      let (_, t, pages) ← MemTree.free address s.tree
      let m ← pages.foldlM (fun m a => freePageOf proc a m) s.memory
      .ok (0, ⟨t, m, s.record⟩)

/-- The state after a call. -/
def step (s : Traced) (c : HeapCall) : Except Fault Traced := (s.call proc c).map Prod.snd

/-- The page of the address was mapped with this `page_info`, and its entry still has the policy. -/
def MappedAs (s : Traced) (info : PageInfo) (x : ℕ) : Prop :=
  s.record (addrPage x) = some info ∧ (s.memory.pte proc (addrPage x)).flags = info.policy

/-- Every node records the `page_info` with which its pages were mapped. -/
def Faithful (s : Traced) : Prop :=
  ∀ c ∈ s.tree.inorder, ∀ x, c.start ≤ x → x < c.end_ → s.MappedAs proc c.pageInfo x

/-- The block that a call returns lies in pages that were mapped with the `page_info` it asks for. -/
def BlockFaithful (s : Traced) : HeapCall → Prop
  | .allocate size info hint => ∀ addr s', s.call proc (.allocate size info hint) = .ok (addr, s') →
      addr ≠ 0 → ∀ x, addr ≤ x → x < addr + size → s'.MappedAs proc info x
  | .free _ => True

/-- The free node that `find_free_block` finds. -/
def foundNode (size : ℕ) (hint : HintInfo) (t : MemTree) : Option Allocation :=
  (findFreeBlock size hint t).bind fun p => (t.subtree p).root?

/-- What a call needs.  `allocate`: the free node it finds has the `page_info` asked for, or is
empty; without one, the computations for the new node do not wrap.  `free`: no node covers a page
whose entry its calls of `free_page` clear. -/
def Suited (s : Traced) : HeapCall → Prop
  | .allocate size info hint =>
      (∀ d ∈ foundNode size hint s.tree, d.start < d.end_ → d.pageInfo = info) ∧
        AllocateCall.NoWrap proc ⟨size, info, hint, s.tree⟩ s.memory
  | .free address => ∀ a ∈ freePageArguments address s.tree, ¬ CoversPage s.tree (addrPage a)

/-- The nodes are in order and tell the truth about pages in use. -/
def Ready (s : Traced) : Prop :=
  Labelled (fun info x => s.MappedAs proc info x ∧
    (s.memory.pte proc (addrPage x)).used = true) s.tree.inorder

end Traced

section

variable {proc : ProcId} {s s' : Traced} {m m' : Memory} {record record' : PageRecord}
  {size addr alloc n address : ℕ} {info : PageInfo} {hint : HintInfo}

lemma ready_nil : Traced.Ready proc ⟨nil, m, record⟩ := Labelled.nil

lemma Traced.Ready.faithful (h : s.Ready proc) : s.Faithful proc :=
  fun c hc x h₁ h₂ => (h.label c hc x h₁ h₂).1

/-! ## `allocate` -/

lemma sbrkRecorded_spec (hpolicy : info.policy.present = !info.policy.lazyZero)
    (h : sbrkRecorded proc n info hint (m, record) = .ok (alloc, m', record')) :
    (∀ i, (m.pte proc i).used = true → m'.pte proc i = m.pte proc i ∧ record' i = record i) ∧
      (alloc ≠ 0 → m.lowestFreeFrame ≠ numFrames ∧ ∃ b ≠ 0, alloc = b * pageSize ∧
        getContiguousPages n hint proc m = .ok (some b) ∧
        ∀ i, b ≤ i → i < b + n → record' i = some info ∧ (m'.pte proc i).flags = info.policy) := by
  obtain ⟨r, hs, h⟩ := bind_eq_ok.mp h
  simp only [Except.ok.injEq, Prod.mk.injEq] at h
  obtain ⟨rfl, rfl, rfl⟩ := h
  rcases sbrk_cases hs with ⟨hnull, hsame⟩ | ⟨b, m₁, haddr, hpages, -, -, -, hloop, hadv⟩
  · exact ⟨fun i _ => by simp [hsame, hnull], fun hne => absurd hnull hne⟩
  · obtain ⟨hb, hunused, -⟩ := getContiguousPages_spec hpages
    obtain ⟨pe, -, hm'⟩ := advanceLowestPe_spec hadv
    have hfill := sbrkPages_filling hpolicy hb hloop
    have hpage : addrPage r.1 = b := by
      rw [haddr]
      simp [addrPage, pageSize]
    have hpte : ∀ i, r.2.pte proc i = m₁.pte proc i := fun i => by rw [hm', pte_setLowestPe]
    refine ⟨fun i hi => ?_, fun hne => ⟨fun hfull => ?_, b, ?_, haddr, hpages, fun i h₁ h₂ => ?_⟩⟩
    · have hout : ¬ (b ≤ i ∧ i < b + n) := by
        rintro ⟨h₁, h₂⟩
        rw [hunused i h₁ h₂] at hi
        exact Bool.noConfusion hi
      have hrecord : ¬ (r.1 ≠ 0 ∧ b ≤ i ∧ i < b + n) := fun hin => hout hin.2
      simp only [hpte, hfill.other i hout, hpage, if_neg hrecord, and_self]
    · rw [sbrk, if_pos hfull] at hs
      exact hne (congrArg Prod.fst (Except.ok.inj hs)).symm
    · rintro rfl
      exact hne (by simp [haddr])
    · have hrecord : r.1 ≠ 0 ∧ b ≤ i ∧ i < b + n := ⟨hne, h₁, h₂⟩
      simp only [hpte, hpage, if_pos hrecord, hfill.flags i h₁ h₂, and_self]

/-- **`allocate`** keeps the nodes truthful, and its block is mapped as asked. -/
lemma Traced.Ready.allocate (h : s.Ready proc) (hsuit : s.Suited proc (.allocate size info hint))
    (hrun : s.call proc (.allocate size info hint) = .ok (addr, s')) :
    s'.Ready proc ∧ (addr ≠ 0 → ∀ x, addr ≤ x → x < addr + size → s'.MappedAs proc info x) := by
  obtain ⟨hinfo, hno⟩ := hsuit
  obtain ⟨⟨⟨addr', t⟩, m, record⟩, hall, hrun⟩ := bind_eq_ok.mp hrun
  simp only [Except.ok.injEq, Prod.mk.injEq] at hrun
  obtain ⟨rfl, rfl⟩ := hrun
  have hpolicy := allocate_valid hall
  rcases allocate_cases hall with ⟨p, hfind, hin, hsame⟩ | ⟨hnone, alloc, hsbrk, hcase⟩
  · -- part of a free node
    simp only [Prod.mk.injEq] at hsame
    obtain ⟨rfl, rfl⟩ := hsame
    obtain ⟨d, a, b, hsub, -, hbig⟩ := findFreeBlock_some hfind
    have hdm := mem_of_subtree hsub
    have hd : d.start < d.end_ → d.pageInfo = info :=
      hinfo d (by simp [foundNode, hfind, hsub, root?])
    have hstart : addr' = d.start := by
      rw [← allocateIn_fst hsub, hin]
    have htree := h.allocateIn hsub hbig hd
    rw [hin] at htree
    refine ⟨htree, fun _ x h₁ h₂ => ?_⟩
    have hns := h.nodeSize_eq hdm
    rw [← hd (by omega)]
    exact (h.label d hdm x (by omega) (by omega)).1
  · obtain ⟨hkeep, hpages⟩ := sbrkRecorded_spec hpolicy hsbrk
    -- the nodes are still right about the memory after `sbrk`
    have hold : Labelled (fun info x => MappedAs proc ⟨t, m, record⟩ info x ∧
        (m.pte proc (addrPage x)).used = true) s.tree.inorder := by
      refine ⟨h.sorted, h.le, h.lt_max, fun c hc x h₁ h₂ => ?_⟩
      obtain ⟨⟨hrec, hflags⟩, hused⟩ := h.label c hc x h₁ h₂
      obtain ⟨hpte, hsame⟩ := hkeep _ hused
      exact ⟨⟨hsame.trans hrec, by rw [hpte]; exact hflags⟩, by rw [hpte]; exact hused⟩
    rcases hcase with ⟨-, rfl, rfl⟩ | ⟨halloc, hin⟩
    · exact ⟨hold, fun hne => absurd rfl hne⟩
    · obtain ⟨hfull, b, hb, rfl, hfound, hmapped⟩ := hpages halloc
      have hfits : size ≤ 4294967296 - 4096 ∧ b + numPagesFor size < numFrames :=
        hno hnone hfull b hfound hb
      obtain ⟨hsize, -⟩ := numPagesFor_spec hfits.1
      have hmax : b * pageSize + numPagesFor size * pageSize < 4294967296 := by
        simp only [numFrames, pageSize] at *
        omega
      set d := physicalNode (b * pageSize) size info with hd
      have hstart : d.start = b * pageSize := rfl
      have hend : d.end_ = b * pageSize + numPagesFor size * pageSize := u32_of_lt hmax
      -- the new node is right about its pages
      have hnew : ∀ x, d.start ≤ x → x < d.end_ → MappedAs proc ⟨t, m, record⟩ info x ∧
          (m.pte proc (addrPage x)).used = true := fun x h₁ h₂ => by
        have hrange : b ≤ addrPage x ∧ addrPage x < b + numPagesFor size := by
          simp only [addrPage, pageSize] at *
          omega
        have hpage := hmapped _ hrange.1 hrange.2
        exact ⟨hpage, used_of_policy hpolicy hpage.2⟩
      have hadded := hold.addNode (x := d) (by omega) (by omega) hnew
      have hns := hadded.nodeSize_eq (d := d) (BST.mem_addNode.mpr (Or.inl rfl))
      have hsub := @BST.subtree_addNodePath _ compareFunc d s.tree
      have haddr : addr' = d.start := by
        rw [← @allocateIn_fst _ _ _ _ _ size info hsub, addNode] at *
        rw [hin]
      have hbig : size ≤ nodeSize d := by omega
      have htree := hadded.allocateIn hsub hbig fun _ => rfl
      rw [hin] at htree
      exact ⟨htree, fun _ x h₁ h₂ => (hnew x (by omega) (by omega)).1⟩

/-! ## `free` -/

lemma pte_freePageOf (h : freePageOf proc address m = .ok m') {i : ℕ} (hi : i ≠ addrPage address) :
    m'.pte proc i = m.pte proc i := by
  cases proc with
  | kernel =>
      obtain ⟨e, -, -, ⟨rfl, -⟩ | ⟨-, hfree⟩⟩ := freePageOf_kernel_cases h
      · simp
      · obtain ⟨-, -, rfl⟩ := freePage_eq_ok.mp hfree
        simp [pte_released, hi]
  | user pid =>
      obtain ⟨e, -, -, -, ⟨rfl, -⟩ | ⟨-, -, p, -, hfree⟩⟩ := freePageOf_user_cases h
      · simp [pte_updated, hi]
      · obtain ⟨-, -, rfl⟩ := freePage_eq_ok.mp hfree
        simp [pte_released, pte_updated, hi]

lemma Traced.Ready.free (h : s.Ready proc) (hsuit : s.Suited proc (.free address))
    (hrun : s.call proc (.free address) = .ok (addr, s')) : s'.Ready proc := by
  obtain ⟨⟨state, t, pages⟩, hfree, hrun⟩ := bind_eq_ok.mp hrun
  obtain ⟨m, hpages, hrun⟩ := bind_eq_ok.mp hrun
  simp only [Except.ok.injEq, Prod.mk.injEq] at hrun
  obtain ⟨-, rfl⟩ := hrun
  -- every address left in the tree was in it before
  have hold : Labelled (fun info x => (s.MappedAs proc info x ∧
      (s.memory.pte proc (addrPage x)).used = true) ∧ CoversPage s.tree (addrPage x))
      s.tree.inorder :=
    ⟨h.sorted, h.le, h.lt_max, fun c hc x h₁ h₂ =>
      ⟨h.label c hc x h₁ h₂, x, ⟨c, hc, h₁, h₂⟩, rfl⟩⟩
  obtain ⟨hnew, rfl⟩ := hold.free hfree
  refine ⟨hnew.sorted, hnew.le, hnew.lt_max, fun c hc x h₁ h₂ => ?_⟩
  obtain ⟨⟨⟨hrec, hflags⟩, hused⟩, hcov⟩ := hnew.label c hc x h₁ h₂
  have hpte : m.pte proc (addrPage x) = s.memory.pte proc (addrPage x) := by
    refine foldlM_invariant (fun c => c.pte proc (addrPage x) = s.memory.pte proc (addrPage x))
      hpages rfl ?_
    intro a ha c c' hc hrun
    have hne : addrPage x ≠ addrPage a := fun heq => hsuit a ha (heq ▸ hcov)
    exact (pte_freePageOf hrun hne).trans hc
  exact ⟨⟨hrec, by rw [hpte]; exact hflags⟩, by rw [hpte]; exact hused⟩

/-! ## Runs -/

lemma Traced.Ready.step {c : HeapCall} (h : s.Ready proc) (hsuit : s.Suited proc c)
    (hrun : s.step proc c = .ok s') : s'.Ready proc := by
  obtain ⟨⟨addr, s₁⟩, hcall, rfl⟩ := map_eq_ok.mp hrun
  cases c with
  | allocate size info hint => exact (h.allocate hsuit hcall).1
  | free address => exact h.free hsuit hcall

lemma Traced.Ready.blockFaithful {c : HeapCall} (h : s.Ready proc) (hsuit : s.Suited proc c) :
    s.BlockFaithful proc c := by
  cases c with
  | allocate size info hint => exact fun addr s' hrun => (h.allocate hsuit hrun).2
  | free address => trivial

/-- **`page_info` is faithful** in every run of suited calls, from an empty tree or any other that
tells the truth: every block lies in pages mapped as the call asked, and in every state reached every
node records how its pages were mapped. -/
theorem pageInfo_faithful {calls : List HeapCall} (h : s.Ready proc)
    (hsuit : EachCall (Traced.step proc) (Traced.Suited proc) calls s) :
    EachCall (Traced.step proc) (Traced.BlockFaithful proc) calls s ∧
      ∀ s', calls.foldlM (Traced.step proc) s = .ok s' → s'.Faithful proc := by
  have hkeeps : ∀ s c s', Traced.Ready proc s → s.Suited proc c → s.step proc c = .ok s' →
      s'.Ready proc := fun _ _ _ h hsuit hrun => h.step hsuit hrun
  refine ⟨EachCall.imp_of_invariant (fun _ _ h hsuit => h.blockFaithful hsuit) hkeeps h hsuit, ?_⟩
  intro s' hrun
  exact ((EachCall.invariant hkeeps h hsuit).reached h s' hrun).faithful

end

/-! ## A block of another policy -/

/-- `DEFAULT_U_PAGE_INFO` without write permission. -/
def readOnlyPageInfo : PageInfo := ⟨defaultFlags, { present := true, user := true }⟩

/-- A process that has not allocated anything. -/
def freshHeap : Traced := ⟨nil, oneProcess, fun _ => none⟩

/-- Two blocks of one policy, the second from what is left of the pages of the first, and the first
freed again. -/
theorem pageInfo_faithful_two_blocks :
    let calls : List HeapCall := [.allocate 100 defaultUPageInfo defaultHintInfo,
      .allocate 50 defaultUPageInfo defaultHintInfo, .free 4096]
    EachCall (Traced.step (.user 0)) (Traced.BlockFaithful (.user 0)) calls freshHeap ∧
      ∀ s', calls.foldlM (Traced.step (.user 0)) freshHeap = .ok s' → s'.Faithful (.user 0) := by
  set first : HeapCall := .allocate 100 defaultUPageInfo defaultHintInfo with hfirst
  set second : HeapCall := .allocate 50 defaultUPageInfo defaultHintInfo with hsecond
  refine pageInfo_faithful ready_nil ?_
  have h₁ : EachCall (Traced.step (.user 0)) (Traced.Suited (.user 0)) [first] freshHeap := by
    refine ⟨⟨by decide, fun _ _ b hpages _ => ?_⟩, by split <;> trivial⟩
    have hpages' : getContiguousPages 2 defaultHintInfo (.user 0) oneProcess = .ok (some 1) := by
      decide +kernel
    have hb : b = 1 := by
      have heq := hpages'.symm.trans hpages
      simp only [Except.ok.injEq, Option.some.injEq] at heq
      exact heq.symm
    subst hb
    exact ⟨by decide, by decide⟩
  have h₂ : ∀ s, [first].foldlM (Traced.step (.user 0)) freshHeap = .ok s →
      s.Suited (.user 0) second := by
    intro s hs
    have hfound : ∀ s, [first].foldlM (Traced.step (.user 0)) freshHeap = .ok s →
        (∀ d ∈ Traced.foundNode 50 defaultHintInfo s.tree,
          d.start < d.end_ → d.pageInfo = defaultUPageInfo) ∧
        (findFreeBlock 50 defaultHintInfo s.tree).isSome = true := by decide +kernel
    obtain ⟨hinfo, hsome⟩ := hfound s hs
    refine ⟨hinfo, fun hnone => ?_⟩
    simp only at hnone
    simp [hnone] at hsome
  have h₃ : ∀ s, [first, second].foldlM (Traced.step (.user 0)) freshHeap = .ok s →
      s.Suited (.user 0) (.free 4096) := by
    have hnone : ∀ s, [first, second].foldlM (Traced.step (.user 0)) freshHeap = .ok s →
        freePageArguments 4096 s.tree = [] := by decide +kernel
    intro s hs a ha
    rw [hnone s hs] at ha
    simp at ha
  have h₁₂ : EachCall (Traced.step (.user 0)) (Traced.Suited (.user 0)) [first, second] freshHeap :=
    EachCall.concat.mpr ⟨h₁, h₂⟩
  exact EachCall.concat.mpr ⟨h₁₂, h₃⟩

/-- **A read-only block in writable pages.**  The second request gets what the first left of its
pages; the node behind it then says that they are read-only too. -/
theorem readOnly_block_writable :
    let calls : List HeapCall := [.allocate 100 defaultUPageInfo defaultHintInfo,
      .allocate 100 readOnlyPageInfo defaultHintInfo]
    ¬ EachCall (Traced.step (.user 0)) (Traced.BlockFaithful (.user 0)) calls freshHeap ∧
      ¬ ∀ s', calls.foldlM (Traced.step (.user 0)) freshHeap = .ok s' → s'.Faithful (.user 0) := by
  intro calls
  constructor
  · intro h
    have hcalls : calls = [.allocate 100 defaultUPageInfo defaultHintInfo] ++
      [.allocate 100 readOnlyPageInfo defaultHintInfo] := rfl
    rw [hcalls, EachCall.concat] at h
    obtain ⟨s, hs, hblock⟩ := @exists_reached _ _ _ (Traced.step (.user 0))
      (fun s => (s.call (.user 0) (.allocate 100 readOnlyPageInfo defaultHintInfo)).toOption.any
        fun r => r.1 == 4196 && r.2.record 1 == some defaultUPageInfo)
      [.allocate 100 defaultUPageInfo defaultHintInfo] freshHeap (by decide +kernel)
    have hfaithful := h.2 s hs
    rcases hcall : s.call (.user 0) (.allocate 100 readOnlyPageInfo defaultHintInfo) with e | ⟨addr, s'⟩
    · simp [hcall, Except.toOption] at hblock
    · simp only [hcall, Except.toOption, Option.any_some, Bool.and_eq_true, beq_iff_eq] at hblock
      obtain ⟨rfl, hrecord⟩ := hblock
      have hmapped := (hfaithful 4196 s' hcall (by decide) 4196 le_rfl (by decide)).1
      have hother : s'.record (addrPage 4196) = some defaultUPageInfo := hrecord
      rw [hother] at hmapped
      exact absurd hmapped (by decide)
  · intro h
    obtain ⟨s, hs, hnode⟩ := @exists_reached _ _ _ (Traced.step (.user 0))
      (fun s => s.tree.inorder.any (fun c => c == ⟨4296, 12288, readOnlyPageInfo, false⟩) &&
        s.record 1 == some defaultUPageInfo) calls freshHeap (by decide +kernel)
    simp only [Bool.and_eq_true, List.any_eq_true, beq_iff_eq] at hnode
    obtain ⟨⟨c, hc, rfl⟩, hrecord⟩ := hnode
    have hmapped := (h s hs _ hc 4296 le_rfl (by decide)).1
    have hother : s.record (addrPage 4296) = some defaultUPageInfo := hrecord
    rw [hother] at hmapped
    exact absurd hmapped (by decide)

end BrebOS.Memory

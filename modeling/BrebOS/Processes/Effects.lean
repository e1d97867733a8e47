import BrebOS.Core.Memory.Faults
import BrebOS.Processes.System

/-!
# What `fork` and the loader do

`fork` is two loops of page operations between a start, where the child has no page, and an end,
where the mapping page is cleared.  `fork_rule` is the invariant rule for it, with one invariant for
each loop.  The loader only writes the table of the new process, and every
entry it writes comes from a window: `buildProcess_entry`.
-/

namespace BrebOS

/-- An entry the loader made from that of a window: `PAGE_USER` may be added, `PAGE_WRITE` taken
away. -/
structure Entry.FromWindow (w e : Entry) : Prop where
  frame : e.frame = w.frame
  present : e.flags.present = w.flags.present
  lazyZero : e.flags.lazyZero = w.flags.lazyZero
  cow : e.flags.cow = w.flags.cow
  write : e.flags.write = true → w.flags.write = true

namespace Memory

variable {m m' : Memory} {self other child pid page i frame f : ℕ} {policy : Flags}

/-! ## Pids -/

lemma getFreePid_not_mem (h : m.getFreePid < maxProcesses) : m.getFreePid ∉ m.live := by
  obtain ⟨-, -, -, h₄⟩ := skipWhile_spec (fun i => decide (i ∈ m.live)) maxProcesses 0
  have := h₄ (by simpa [getFreePid] using h)
  simpa [getFreePid] using this

/-! ## The two page operations of `fork` -/

lemma copyPageToOtherProcessShared_cases
    (h : copyPageToOtherProcessShared self other page m = .ok m') :
    ((m.pte (.user self) page).flags.present = false ∧ m' = m) ∨
      ((m.pte (.user self) page).flags.present = true ∧ page < userEntries ∧
        ((m.pte (.user self) page).mapped = true →
          m.frameRc (m.pte (.user self) page).frame ≠ 0) ∧
        m' = (m.updated (.user self) page (sharedEntry (m.pte (.user self) page))).updated
          (.user other) page (sharedEntry (m.pte (.user self) page))) := by
  rw [copyPageToOtherProcessShared] at h
  by_cases hp : (m.pte (.user self) page).flags.present = true
  · simp only [hp, Bool.not_true, Bool.false_eq_true, if_false] at h
    obtain ⟨m₁, hup, h⟩ := bind_eq_ok.mp h
    obtain ⟨hpage, hrc, rfl⟩ := updatePte_eq_ok.mp hup
    obtain ⟨-, -, rfl⟩ := updatePte_eq_ok.mp h
    exact Or.inr ⟨hp, hpage, hrc, rfl⟩
  · rw [Bool.not_eq_true] at hp
    simp only [hp, Bool.not_false, if_true, Except.ok.injEq] at h
    exact Or.inl ⟨hp, h.symm⟩

/-- The state after a stack page has been copied. -/
def stackCopied (self other page mapping frame sysPe : ℕ) (m : Memory) : Memory :=
  let e : Entry := ⟨frame % numFrames, (m.pte (.user self) page).flags⟩
  copyPage (.user self) mapping page
    (((m.allocated frame sysPe e.flags).updated (.user other) page e).updated (.user self) mapping e)

lemma pte_stackCopied {mapping sysPe : ℕ} {proc : ProcId} :
    (stackCopied self other page mapping frame sysPe m).pte proc i =
      if proc = .user self ∧ i = mapping then ⟨frame % numFrames, (m.pte (.user self) page).flags⟩
      else if proc = .user other ∧ i = page then ⟨frame % numFrames, (m.pte (.user self) page).flags⟩
      else if proc = .kernel ∧ i = sysPe then ⟨frame % numFrames, (m.pte (.user self) page).flags⟩
      else m.pte proc i := by
  simp only [stackCopied, pte_copyPage, pte_updated, pte_allocated]

/-- **`copy_page_to_other_process`**: an empty entry is skipped. -/
lemma copyPageToOtherProcess_cases {mapping : ℕ}
    (h : copyPageToOtherProcess self other page mapping m = .ok m') :
    (m.pte (.user self) page = {} ∧ m' = m) ∨
      (m.pte (.user self) page ≠ {} ∧ ∃ frame sysPe m₁, Scanned m m₁ ∧
        m₁.lowestFreeFrame = frame ∧ page < userEntries ∧ mapping < userEntries ∧
          sysPe < numFrames ∧ (m.pte .kernel sysPe).used = false ∧
        (frame < numFrames → m.frameToPage frame = none) ∧
        ((m.pte (.user self) page).flags.present = true →
          frame < numFrames ∧ m.frameRc frame = 0) ∧
        m' = stackCopied self other page mapping frame sysPe m₁) := by
  rw [copyPageToOtherProcess] at h
  by_cases hz : m.pte (.user self) page = {}
  · rw [if_pos hz, Except.ok.injEq] at h
    exact Or.inl ⟨hz, h.symm⟩
  rw [if_neg hz] at h
  rcases hpe : m.getFreePeUser with ⟨sysPe, m₁⟩
  simp only [hpe] at h
  rcases hfr : m₁.getFreeFrame with ⟨frame, m₂⟩
  simp only [hfr] at h
  obtain ⟨hs₁, hunused⟩ := getFreePeUser_spec hpe
  obtain ⟨hs₂, hfree⟩ := getFreeFrame_spec hfr
  obtain ⟨m₃, hall, h⟩ := bind_eq_ok.mp h
  obtain ⟨hsys, hrc, rfl⟩ := allocatePage_eq_ok.mp hall
  obtain ⟨m₄, hup₁, h⟩ := bind_eq_ok.mp h
  obtain ⟨hlt₁, -, rfl⟩ := updatePte_eq_ok.mp hup₁
  obtain ⟨m₅, hup₂, h⟩ := bind_eq_ok.mp h
  obtain ⟨hlt₂, -, rfl⟩ := updatePte_eq_ok.mp hup₂
  obtain rfl := Except.ok.inj h
  rw [hs₂.pte, hs₁.pte, hs₂.frameRc, hs₁.frameRc] at hrc
  rw [hs₁.frameToPage] at hfree
  refine Or.inr ⟨hz, frame, sysPe, m₂, hs₁.trans hs₂, lowestFreeFrame_getFreeFrame hfr, hlt₁, hlt₂,
    hsys, hunused hsys, hfree, hrc, ?_⟩
  -- the entry of the mapping page is read back from the kernel's table
  have hread : ((m₂.allocated frame sysPe (m₂.pte (.user self) page).flags).updated (.user other) page
      ⟨frame % numFrames, (m₂.pte (.user self) page).flags⟩).pageTables sysPe =
        ⟨frame % numFrames, (m₂.pte (.user self) page).flags⟩ := by
    change Memory.pte _ .kernel sysPe = _
    rw [pte_updated_of_ne (by simp), pte_allocated, if_pos ⟨rfl, rfl⟩]
  rw [stackCopied, hread]

/-! ## The invariant rule of `fork` -/

/-- The state in which the loops of `fork` start. -/
def withChild (self child : ℕ) (m : Memory) : Memory :=
  { m with process := Function.update m.process child (newChild (m.process self)) }

/-- The copy of the page directory at the end of `fork`. -/
def copyPdt (self child : ℕ) (m : Memory) : Memory :=
  { m with process := Function.update m.process child { m.process child with
    pdt := (m.process self).pdt } }

@[simp] lemma pte_copyPdt : (m.copyPdt self child).pte = m.pte := by
  funext p i
  cases p with
  | kernel => rfl
  | user pid => by_cases h : pid = child <;> simp [copyPdt, pte, h]

/-- **The parts of a `fork` that returns.**  `m₁` is the state between the sharing and the stack
loops, `s` what these return. -/
lemma fork_parts {r : Forked} (h : fork self m = .ok r) :
    m.getFreePid < maxProcesses ∧ (m.withChild self m.getFreePid).pte (.user self) mappingPage = {} ∧
      ∃ m₁ s, (List.range sharedTables).foldlM (shareTable self m.getFreePid)
          (m.withChild self m.getFreePid) = .ok m₁ ∧
        (stackLoopPages ++ syscallStackLoopPages).foldlM (copyStackPage self m.getFreePid) ([], m₁) =
          .ok s ∧
        ((s.2.pte (.user self) mappingPage).mapped = true →
          s.2.frameRc (s.2.pte (.user self) mappingPage).frame ≠ 0) ∧
        r.child = m.getFreePid ∧ r.copied = s.1 ∧
        r.memory = { (s.2.copyPdt self m.getFreePid).updated (.user self) mappingPage {} with
          live := insert m.getFreePid s.2.live } := by
  rw [fork] at h
  by_cases hpid : maxProcesses ≤ m.getFreePid
  · simp [hpid] at h
  simp only [if_neg hpid] at h
  change (if (m.withChild self m.getFreePid).pte (.user self) mappingPage ≠ {} then _ else _) = _ at h
  by_cases hmap : (m.withChild self m.getFreePid).pte (.user self) mappingPage = {}
  swap
  · rw [if_pos hmap] at h
    simp at h
  rw [if_neg (not_not.mpr hmap)] at h
  refine ⟨by omega, hmap, ?_⟩
  obtain ⟨m₁, hm₁, h⟩ := bind_eq_ok.mp h
  obtain ⟨s₁, hs₁, h⟩ := bind_eq_ok.mp h
  obtain ⟨s₂, hs₂, h⟩ := bind_eq_ok.mp h
  obtain ⟨m₂, hm₂, h⟩ := bind_eq_ok.mp h
  change updatePte (.user self) mappingPage {} (s₂.2.copyPdt self m.getFreePid) = .ok m₂ at hm₂
  obtain ⟨-, hrc, rfl⟩ := updatePte_eq_ok.mp hm₂
  obtain rfl := Except.ok.inj h
  rw [pte_copyPdt] at hrc
  refine ⟨m₁, s₂, hm₁, ?_, hrc, rfl, rfl, ?_⟩
  · rw [List.foldlM_append, hs₁]
    exact hs₂
  · rw [live_updated]
    rfl

/-- **The invariant rule of `fork`**: `P` holds while pages are shared, `Q` while stack pages are
copied. -/
lemma fork_rule {P Q : Memory → Prop} {r : Forked} (h : fork self m = .ok r)
    (hstart : P (m.withChild self m.getFreePid))
    (hshare : ∀ m₁ m₂ page, P m₁ → page < sharedTables * ptEntries →
      copyPageToOtherProcessShared self m.getFreePid page m₁ = .ok m₂ → P m₂)
    (hmid : ∀ m₁, P m₁ → Q m₁)
    (hcopy : ∀ m₁ m₂ page, Q m₁ → page ∈ stackLoopPages ++ syscallStackLoopPages →
      copyPageToOtherProcess self m.getFreePid page mappingPage m₁ = .ok m₂ → Q m₂)
    (hpdt : ∀ m₁, Q m₁ → Q (m₁.copyPdt self m.getFreePid)) :
    m.getFreePid < maxProcesses ∧ (m.withChild self m.getFreePid).pte (.user self) mappingPage = {} ∧
      ∃ m₁, Q m₁ ∧ ((m₁.pte (.user self) mappingPage).mapped = true →
          m₁.frameRc (m₁.pte (.user self) mappingPage).frame ≠ 0) ∧
        r.child = m.getFreePid ∧
        r.memory = { m₁.updated (.user self) mappingPage {} with
          live := insert m.getFreePid (m₁.updated (.user self) mappingPage {}).live } := by
  obtain ⟨hpid, hmap, m₁, s, hm₁, hs, hrc, hchild, -, hmem⟩ := fork_parts h
  have hP : P m₁ := by
    refine foldlM_invariant P hm₁ hstart fun i hi c c' hc hstep => ?_
    rw [shareTable] at hstep
    split_ifs at hstep with hdir
    · refine foldlM_invariant P hstep hc fun j hj d d' hd hd' => ?_
      simp only [List.mem_range] at hi hj
      split_ifs at hd' with hz
      · exact Except.ok.inj hd' ▸ hd
      · refine hshare d d' _ hd ?_ hd'
        have : (i + 1) * ptEntries ≤ sharedTables * ptEntries := Nat.mul_le_mul_right _ hi
        rw [Nat.add_mul] at this
        omega
    · exact Except.ok.inj hstep ▸ hc
  have hQ : Q s.2 := by
    refine foldlM_invariant (fun s => Q s.2) hs (hmid _ hP) fun page hpage c c' hc hstep => ?_
    rw [copyStackPage] at hstep
    obtain ⟨m₃, hm₃, hstep⟩ := bind_eq_ok.mp hstep
    obtain rfl := Except.ok.inj hstep
    exact hcopy _ _ page hc hpage hm₃
  refine ⟨hpid, hmap, s.2.copyPdt self m.getFreePid, hpdt _ hQ, ?_, hchild, ?_⟩
  · rw [pte_copyPdt]
    exact hrc
  · rw [hmem, live_updated]
    rfl

lemma fork_child_lt {r : Forked} (h : fork self m = .ok r) : m.getFreePid < maxProcesses :=
  (fork_rule (P := fun _ => True) h trivial (fun _ _ _ _ _ _ => trivial) (fun _ => id)
    (fun _ _ _ _ _ _ => trivial) fun _ _ => trivial).1

lemma fork_live {r : Forked} (h : fork self m = .ok r) :
    r.memory.live = insert m.getFreePid m.live := by
  obtain ⟨-, -, m₁, hlive, -, -, hmem⟩ : _ ∧ _ ∧ ∃ m₁, Memory.live m₁ = m.live ∧ _ := by
    refine fork_rule (P := fun c => c.live = m.live) h rfl ?_ (fun _ => id) ?_ fun _ => id
    · intro m₁ m₂ page hc _ hstep
      rcases copyPageToOtherProcessShared_cases hstep with ⟨-, rfl⟩ | ⟨-, -, -, rfl⟩
      · exact hc
      · simpa
    · intro m₁ m₂ page hc _ hstep
      rcases copyPageToOtherProcess_cases hstep with ⟨-, rfl⟩ | ⟨-, frame, sysPe, m₃, hs, -, -, -, -, -,
        -, -, rfl⟩
      · exact hc
      · simp only [stackCopied, live_copyPage, live_updated, live_allocated, hs.live, hc]
  rw [hmem, live_updated, hlive]

lemma fork_mapping_empty {r : Forked} (h : fork self m = .ok r) :
    (m.withChild self m.getFreePid).pte (.user self) mappingPage = {} :=
  (fork_rule (P := fun _ => True) h trivial (fun _ _ _ _ _ _ => trivial) (fun _ => id)
    (fun _ _ _ _ _ _ => trivial) fun _ _ => trivial).2.1

lemma fork_child_not_mem {r : Forked} (h : fork self m = .ok r) : m.getFreePid ∉ m.live :=
  getFreePid_not_mem (fork_child_lt h)

/-! ## The loader -/

section Loader

variable {kernel tables tables' : ℕ → Entry} {l : List (ℕ × ℕ)} {req : LoadRequest}

/-- Every entry of a table is empty or comes from the window of one of the given mappings. -/
def FromWindows (kernel : ℕ → Entry) (l : List (ℕ × ℕ)) (tables : ℕ → Entry) : Prop :=
  ∀ i, tables i = {} ∨ ∃ w, (i, w) ∈ l ∧ w < numFrames ∧ (kernel w).FromWindow (tables i)

lemma mapWindowPage_fromWindows {msg : String} {user : Bool} {window n : ℕ}
    (hl : ∀ i < n, (page + i, window + i) ∈ l) (h : FromWindows kernel l tables)
    (hrun : (List.range n).foldlM (mapWindowPage msg user page window kernel) tables = .ok tables') :
    FromWindows kernel l tables' := by
  refine foldlM_invariant (FromWindows kernel l) hrun h fun j hj t t' ht hstep => ?_
  rw [List.mem_range] at hj
  rw [mapWindowPage] at hstep
  split_ifs at hstep with h₁ h₂
  obtain rfl := Except.ok.inj hstep
  intro i
  by_cases hi : i = page + j
  · subst hi
    rw [Function.update_self]
    exact Or.inr ⟨window + j, hl j hj, by omega, rfl, rfl, rfl, rfl, fun h => h⟩
  · rw [Function.update_of_ne hi]
    exact ht i

lemma dropWrite_fromWindows {n : ℕ} (h : FromWindows kernel l tables) :
    FromWindows kernel l ((List.range n).foldl (dropWrite page) tables) := by
  refine List.foldlRecOn (List.range n) _ h fun t ht j _ => ?_
  intro i
  rw [dropWrite]
  by_cases hi : i = page + j
  · subst hi
    rw [Function.update_self]
    rcases ht (page + j) with hz | ⟨w, hw, hlt, hfrom⟩
    · exact Or.inl (by rw [hz])
    · exact Or.inr ⟨w, hw, hlt, hfrom.frame, hfrom.present, hfrom.lazyZero, hfrom.cow, by simp⟩
  · rw [Function.update_of_ne hi]
    exact ht i

/-- **Every entry of a new process comes from a window.** -/
lemma buildProcess_fromWindows {p : Process} (h : buildProcess req m = .ok p) :
    FromWindows m.pageTables req.mappings p.pageTables := by
  rw [buildProcess] at h
  obtain ⟨t₁, ht₁, h⟩ := bind_eq_ok.mp h
  obtain ⟨t₂, ht₂, h⟩ := bind_eq_ok.mp h
  obtain ⟨mt, -, h⟩ := bind_eq_ok.mp h
  obtain rfl := Except.ok.inj h
  have hsegs : FromWindows m.pageTables req.mappings t₁ := by
    refine foldlM_invariant (FromWindows m.pageTables req.mappings) ht₁ (fun _ => Or.inl rfl) ?_
    intro seg hseg t t' ht hstep
    rw [mapSegment] at hstep
    obtain ⟨t₃, ht₃, hstep⟩ := bind_eq_ok.mp hstep
    have hmap : FromWindows m.pageTables req.mappings t₃ := by
      refine mapWindowPage_fromWindows (fun i hi => ?_) ht ht₃
      simp only [LoadRequest.mappings, List.append_assoc, List.mem_append, List.mem_flatMap,
        List.mem_map, List.mem_range]
      exact Or.inl ⟨seg, hseg, i, hi, rfl⟩
    obtain rfl := Except.ok.inj hstep
    split_ifs
    · exact hmap
    · exact dropWrite_fromWindows hmap
  rw [allocateStacks] at ht₂
  obtain ⟨t₃, ht₃, ht₂⟩ := bind_eq_ok.mp ht₂
  have hstack : FromWindows m.pageTables req.mappings t₃ := by
    refine mapWindowPage_fromWindows (fun i hi => ?_) hsegs ht₃
    simp only [LoadRequest.mappings, List.append_assoc, List.mem_append, List.mem_map,
      List.mem_range]
    exact Or.inr (Or.inl ⟨i, hi, rfl⟩)
  refine mapWindowPage_fromWindows (fun i hi => ?_) hstack ht₂
  simp only [LoadRequest.mappings, List.append_assoc, List.mem_append, List.mem_map,
    List.mem_range]
  exact Or.inr (Or.inr ⟨i, hi, rfl⟩)

/-- The state after the loader has made a process. -/
def loaded (pid : ℕ) (p : Process) (m : Memory) : Memory :=
  { m with process := Function.update m.process pid p, live := insert pid m.live }

lemma exec_cases {r : Option ℕ} (h : exec req m = .ok (r, m')) :
    m' = m ∨ ∃ p, buildProcess req m = .ok p ∧ m.getFreePid < maxProcesses ∧
      m' = m.loaded m.getFreePid p := by
  rw [exec] at h
  by_cases hpid : maxProcesses ≤ m.getFreePid
  · simp only [if_pos hpid, Except.ok.injEq, Prod.mk.injEq] at h
    exact Or.inl h.2.symm
  · simp only [if_neg hpid] at h
    obtain ⟨p, hp, h⟩ := bind_eq_ok.mp h
    simp only [Except.ok.injEq, Prod.mk.injEq] at h
    exact Or.inr ⟨p, hp, by omega, h.2.symm⟩

lemma pte_loaded {p : Process} {proc : ProcId} : (m.loaded pid p).pte proc i =
    if proc = .user pid then p.pageTables i else m.pte proc i := by
  cases proc with
  | kernel => simp [loaded, pte]
  | user pid' => by_cases h : pid' = pid <;> simp [loaded, pte, h]

lemma pte_withChild {proc : ProcId} : (m.withChild self child).pte proc i =
    if proc = .user child then {} else m.pte proc i := by
  cases proc with
  | kernel => simp [withChild, pte]
  | user pid' => by_cases h : pid' = child <;> simp [withChild, pte, newChild, h]

end Loader

end Memory

end BrebOS

import BrebOS.Core.Memory.NoWrap
import BrebOS.Core.Memory.Sbrk

/-!
# What `mmap` makes of its arguments

`mmap` refuses some arguments, and passes the others on to `MemTree::allocate`.  With `MAP_FIXED` the
hint is mandatory there, and then a request that *fails* is one whose window does not match the
hint: the check behind the allocation is made before the one for null, and panics.

`mmap_right_iff` says exactly when a call for a process returns, with a window or an error.
-/

namespace BrebOS.Memory

open MemTree BinaryTree

variable {t t' : MemTree} {p : Path} {d : Allocation} {a b : MemTree} {m m' : Memory}
  {pid hint size prot flags offset addr alloc : ℕ} {lazyZero pageUser : Bool} {info : PageInfo}

/-- The arguments that `mmap` answers with `EINVAL`. -/
def Refused (hint size prot flags offset : ℕ) : Prop :=
  flags &&& unsupportedFlags ≠ 0 ∨ (flags &&& mapPrivate) ||| (flags &&& mapShared) = 0 ∨
    (hint % pageSize ≠ 0 ∨ size % pageSize ≠ 0 ∨ offset % pageSize ≠ 0) ∨
    flags &&& mapAnonymous = 0 ∨ prot = 0

/-- The hint that `mmap` passes on: `KERNEL_VIRTUAL_BASE` stands for the lowest free page of the
kernel. -/
def mmapHint (hint : ℕ) (m : Memory) : ℕ :=
  if hint = kernelVirtualBase then u32 (m.lowestPe .kernel * pageSize) else hint

/-- The result of `mmap`: an error, or a window of at least `size` bytes at the hint if that is
fixed. -/
def MmapRight (hint size flags : ℕ) (r : Except Fault ((Except ℤ ℕ × MemTree) × Memory)) : Prop :=
  (∃ err t' m', r = .ok ((.error err, t'), m') ∧ err ≠ 0) ∨
    ∃ window t' m', r = .ok ((.ok window, t'), m') ∧ window ≠ 0 ∧
      (∃ c ∈ t'.inorder, c.start = window ∧ size ≤ nodeSize c) ∧
      (flags &&& mapFixed ≠ 0 → window = hint)

/-! ## Windows -/

lemma findFreeBlock_mandatory : ∀ {t : MemTree} {p : Path},
    findFreeBlock size ⟨hint, true⟩ t = some p → t.subtree p = node d a b → d.start = hint
  | nil, p, h, _ => by simp [findFreeBlock] at h
  | node c l r, p, h, hsub => by
      rw [findFreeBlock] at h
      split at h
      · next hc =>
          obtain rfl := Option.some.inj h
          simp only [subtree_nil_path, node.injEq] at hsub
          obtain ⟨rfl, -, -⟩ := hsub
          simp only [Bool.not_true, Bool.and_false, Bool.or_false, Bool.and_eq_true,
            beq_iff_eq] at hc
          exact hc.2.symm
      · split at h
        · next q hq =>
            obtain rfl := Option.some.inj h
            split_ifs at hq
            exact findFreeBlock_mandatory hq hsub
        · obtain ⟨q, hq, rfl⟩ := Option.map_eq_some_iff.mp h
          exact findFreeBlock_mandatory hq hsub

lemma allocateIn_nodeSize (info : PageInfo) (hsub : t.subtree p = node d a b)
    (hsize : size ≤ nodeSize d) :
    ∃ c ∈ (allocateIn p size info t).2.inorder,
      c.used = true ∧ c.start = d.start ∧ nodeSize c = size := by
  have hlt : nodeSize d < 4294967296 := Nat.mod_lt _ (by decide)
  by_cases hshrink : u32Sub (nodeSize d) size = 0
  · obtain ⟨A, B, -, hmap, -⟩ := exists_split hsub
    refine ⟨{ d with used := true }, ?_, rfl, rfl, ?_⟩
    · simp only [allocateIn, hsub, root?, hshrink, ne_eq, not_true_eq_false, if_false]
      rw [hmap fun d => { d with used := true }]
      simp
    · rw [u32Sub_of_le hsize hlt] at hshrink
      change nodeSize d = size
      omega
  · obtain ⟨c, hc, hcu, hcs, hce⟩ := allocateIn_mem info hsub hshrink
    refine ⟨c, hc, hcu, hcs, ?_⟩
    rw [u32Sub_of_le hsize hlt] at hce
    rw [nodeSize, hcs, hce]
    simp only [nodeSize, u32Sub] at *
    omega

lemma nodeSize_physicalNode (hpages : size % pageSize = 0) (hlt : size < 4294967296) :
    size ≤ nodeSize (physicalNode alloc size info) := by
  have hn : numPagesFor size * pageSize < 4294967296 ∧ size ≤ numPagesFor size * pageSize := by
    simp only [numPagesFor, addrPage, u32, pageSize] at *
    omega
  simp only [nodeSize, u32Sub, u32]
  omega

/-! ## From `allocate` to `mmap` -/

section

variable {window : ℕ} {proc : ProcId}

/-- `MAP_FIXED` is set. -/
abbrev isFixed (flags : ℕ) : Bool := decide (flags &&& mapFixed ≠ 0)

lemma mmap_refused (h : Refused hint size prot flags offset) :
    mmap hint size prot flags offset proc lazyZero pageUser t m = .ok ((.error einval, t), m) := by
  rw [mmap]
  rw [Refused] at h
  split_ifs
  all_goals first
    | rfl
    | exact absurd h (by tauto)

/-- The call of `allocate` that `mmap` makes. -/
abbrev mmapAllocate (hint size prot flags : ℕ) (proc : ProcId) (lazyZero pageUser : Bool)
    (t : MemTree) (m : Memory) : Except Fault ((ℕ × MemTree) × Memory) :=
  MemTree.allocate (sbrk proc) size ⟨flags, mmapPolicy prot lazyZero pageUser⟩
    ⟨mmapHint hint m, isFixed flags⟩ t m

lemma mmap_accepted (h : ¬ Refused hint size prot flags offset) :
    mmap hint size prot flags offset proc lazyZero pageUser t m =
      (mmapAllocate hint size prot flags proc lazyZero pageUser t m >>= fun r =>
        if isFixed flags = true ∧ r.1.1 ≠ mmapHint hint m then
          .error (.irrecoverableError "mmap: MAP_FIXED set, but returned window does not match hit")
        else if r.1.1 = 0 then .ok ((.error enomem, r.1.2), r.2)
        else .ok ((.ok r.1.1, r.1.2), r.2)) := by
  simp only [Refused, not_or] at h
  obtain ⟨h₁, h₂, ⟨h₃, h₄, h₅⟩, h₆, h₇⟩ := h
  rw [mmap, if_neg h₁, if_neg h₂, if_neg (by tauto), if_neg h₆, if_neg h₇]
  rfl

lemma mmapRight_window (h : ¬ Refused hint size prot flags offset)
    (hall : mmapAllocate hint size prot flags proc lazyZero pageUser t m = .ok ((window, t'), m')) :
    MmapRight hint size flags (mmap hint size prot flags offset proc lazyZero pageUser t m) ↔
      (isFixed flags = true → window = mmapHint hint m) ∧ (window ≠ 0 →
        (∃ c ∈ t'.inorder, c.start = window ∧ size ≤ nodeSize c) ∧
          (isFixed flags = true → window = hint)) := by
  rw [mmap_accepted h, hall]
  simp only [bind, Except.bind, isFixed, decide_eq_true_eq]
  split_ifs with hmiss hnull
  · simp only [MmapRight, reduceCtorEq, false_and, exists_false, or_self, false_iff, not_and]
    exact fun hfixed => absurd (hfixed hmiss.1) hmiss.2
  · have hfixed : flags &&& mapFixed ≠ 0 → window = mmapHint hint m := by tauto
    simp only [hnull, ne_eq, not_true_eq_false, false_imp_iff, and_true]
    refine iff_of_true (Or.inl ⟨enomem, t', m', rfl, by decide⟩) fun hf => ?_
    rw [← hfixed hf, hnull]
  · have hfixed : flags &&& mapFixed ≠ 0 → window = mmapHint hint m := by tauto
    constructor
    · rintro (⟨err, t₁, m₁, heq, -⟩ | ⟨w, t₁, m₁, heq, hw, hnode, hhint⟩)
      · simp at heq
      · simp only [Except.ok.injEq, Prod.mk.injEq] at heq
        obtain ⟨⟨rfl, rfl⟩, rfl⟩ := heq
        exact ⟨hfixed, fun _ => ⟨hnode, hhint⟩⟩
    · rintro ⟨-, hright⟩
      obtain ⟨hnode, hhint⟩ := hright hnull
      exact Or.inr ⟨window, t', m', rfl, hnull, hnode, hhint⟩

lemma not_mmapRight_error {f : Fault} (h : ¬ Refused hint size prot flags offset)
    (hall : mmapAllocate hint size prot flags proc lazyZero pageUser t m = .error f) :
    ¬ MmapRight hint size flags (mmap hint size prot flags offset proc lazyZero pageUser t m) := by
  rw [mmap_accepted h, hall]
  simp [MmapRight, bind, Except.bind]

end

/-! ## `allocate` for `mmap` -/

section

variable {hinfo : HintInfo}

lemma allocate_found {proc : ProcId} (hvalid : info.policy.present = !info.policy.lazyZero)
    (hfind : findFreeBlock size hinfo t = some p) :
    MemTree.allocate (sbrk proc) size info hinfo t m = .ok (allocateIn p size info t, m) := by
  rw [MemTree.allocate, hvalid, hfind]
  cases info.policy.lazyZero <;> simp

lemma allocate_asked {proc : ProcId} (hvalid : info.policy.present = !info.policy.lazyZero)
    (hfind : findFreeBlock size hinfo t = none)
    (hsbrk : sbrk proc (numPagesFor size) info hinfo m = .ok (alloc, m')) :
    MemTree.allocate (sbrk proc) size info hinfo t m = if alloc = 0 then .ok ((0, t), m') else
      .ok (allocateIn (BST.addNodePath compareFunc (physicalNode alloc size info) t) size info
        (addNode (physicalNode alloc size info) t), m') := by
  rw [MemTree.allocate, hvalid, hfind]
  simp only [nodePhysicalAlloc, hsbrk, bind, Except.bind]
  cases info.policy.lazyZero <;> split_ifs <;> simp_all

lemma allocate_failed {proc : ProcId} {f : Fault}
    (hvalid : info.policy.present = !info.policy.lazyZero)
    (hfind : findFreeBlock size hinfo t = none)
    (hsbrk : sbrk proc (numPagesFor size) info hinfo m = .error f) :
    MemTree.allocate (sbrk proc) size info hinfo t m = .error f := by
  rw [MemTree.allocate, hvalid, hfind]
  simp only [nodePhysicalAlloc, hsbrk, bind, Except.bind]
  cases info.policy.lazyZero <;> simp

end

/-! ## `mmap` -/

/-- What a call that is not refused needs.  Either a free node is found; or there are no pages, which is an
error and not a panic only without `MAP_FIXED`; or there are, with room for them in `sbrk`.  In the
first and the last case a fixed hint must not be `KERNEL_VIRTUAL_BASE`, unless it stands for itself or
for `0`. -/
def MmapRoom (pid hint size prot flags : ℕ) (lazyZero pageUser : Bool) (t : MemTree) (m : Memory) :
    Prop :=
  let hinfo : HintInfo := ⟨mmapHint hint m, isFixed flags⟩
  let matching := isFixed flags = true → hinfo.hint = hint ∨ hinfo.hint = 0
  (∃ p, findFreeBlock size hinfo t = some p) ∧ matching ∨
    findFreeBlock size hinfo t = none ∧
      ((m.lowestFreeFrame = numFrames ∨
          getContiguousPages (numPagesFor size) hinfo (.user pid) m = .ok none) ∧
        (isFixed flags = true → hinfo.hint = 0) ∨
      m.lowestFreeFrame ≠ numFrames ∧ ∃ b,
        getContiguousPages (numPagesFor size) hinfo (.user pid) m = .ok (some b) ∧
        Room (.user pid) (numPagesFor size) b (mmapPolicy prot lazyZero pageUser) m ∧ matching)

section

variable (hsize : size < 4294967296) (haccept : ¬ Refused hint size prot flags offset)

lemma mmapHint_aligned (haccept : ¬ Refused hint size prot flags offset) :
    addrPage (mmapHint hint m) * pageSize = mmapHint hint m := by
  simp only [Refused, not_or] at haccept
  have halign := haccept.2.2.1.1
  simp only [mmapHint, addrPage, u32, pageSize] at *
  split_ifs <;> omega

include haccept

lemma mmapRight_found (hfind : findFreeBlock size ⟨mmapHint hint m, isFixed flags⟩ t = some p) :
    MmapRight hint size flags (mmap hint size prot flags offset (.user pid) lazyZero pageUser t m) ↔
      (isFixed flags = true → mmapHint hint m = hint ∨ mmapHint hint m = 0) := by
  obtain ⟨d, a, b, hsub, -, hbig⟩ := findFreeBlock_some hfind
  obtain ⟨c, hc, -, hcs, hcsize⟩ :=
    allocateIn_nodeSize ⟨flags, mmapPolicy prot lazyZero pageUser⟩ hsub hbig
  have hfst : (allocateIn p size ⟨flags, mmapPolicy prot lazyZero pageUser⟩ t).1 = d.start :=
    allocateIn_fst hsub
  rcases hin : allocateIn p size ⟨flags, mmapPolicy prot lazyZero pageUser⟩ t with ⟨window, t'⟩
  rw [hin] at hc hfst
  simp only at hfst hc
  subst hfst
  have hall : mmapAllocate hint size prot flags (.user pid) lazyZero pageUser t m =
      .ok ((d.start, t'), m) := by
    rw [mmapAllocate, allocate_found rfl hfind, hin]
  have hstart : isFixed flags = true → d.start = mmapHint hint m := by
    intro hfixed
    rw [hfixed] at hfind
    exact findFreeBlock_mandatory hfind hsub
  rw [mmapRight_window haccept hall]
  constructor
  · rintro ⟨-, hright⟩ hfixed
    by_cases hnull : d.start = 0
    · exact Or.inr (by rw [← hstart hfixed, hnull])
    · exact Or.inl (by rw [← hstart hfixed, (hright hnull).2 hfixed])
  · intro hmatch
    refine ⟨hstart, fun hnull => ⟨⟨c, hc, hcs, hcsize.ge⟩, fun hfixed => ?_⟩⟩
    rcases hmatch hfixed with heq | hzero
    · rw [hstart hfixed, heq]
    · exact absurd ((hstart hfixed).trans hzero) hnull

lemma mmapRight_null (hfind : findFreeBlock size ⟨mmapHint hint m, isFixed flags⟩ t = none)
    (hsbrk : sbrk (.user pid) (numPagesFor size) ⟨flags, mmapPolicy prot lazyZero pageUser⟩
      ⟨mmapHint hint m, isFixed flags⟩ m = .ok (0, m')) :
    MmapRight hint size flags (mmap hint size prot flags offset (.user pid) lazyZero pageUser t m) ↔
      (isFixed flags = true → mmapHint hint m = 0) := by
  have hall : mmapAllocate hint size prot flags (.user pid) lazyZero pageUser t m =
      .ok ((0, t), m') := by
    rw [mmapAllocate, allocate_asked rfl hfind hsbrk, if_pos rfl]
  rw [mmapRight_window haccept hall]
  simp only [ne_eq, not_true_eq_false, false_imp_iff, and_true]
  exact ⟨fun h hfixed => (h hfixed).symm, fun h hfixed => (h hfixed).symm⟩

include hsize

lemma mmapRight_pages (hfind : findFreeBlock size ⟨mmapHint hint m, isFixed flags⟩ t = none)
    (hnull : alloc ≠ 0)
    (hsbrk : sbrk (.user pid) (numPagesFor size) ⟨flags, mmapPolicy prot lazyZero pageUser⟩
      ⟨mmapHint hint m, isFixed flags⟩ m = .ok (alloc, m'))
    (hstart : isFixed flags = true → alloc = mmapHint hint m) :
    MmapRight hint size flags (mmap hint size prot flags offset (.user pid) lazyZero pageUser t m) ↔
      (isFixed flags = true → mmapHint hint m = hint ∨ mmapHint hint m = 0) := by
  set info : PageInfo := ⟨flags, mmapPolicy prot lazyZero pageUser⟩
  have halign : size % pageSize = 0 := by
    simp only [Refused, not_or, not_not] at haccept
    exact haccept.2.2.1.2.1
  have hsub := @BST.subtree_addNodePath _ compareFunc (physicalNode alloc size info) t
  obtain ⟨c, hc, -, hcs, hcsize⟩ := allocateIn_nodeSize info hsub (nodeSize_physicalNode halign hsize)
  have hfst : (allocateIn (BST.addNodePath compareFunc (physicalNode alloc size info) t) size info
      (addNode (physicalNode alloc size info) t)).1 = alloc := allocateIn_fst hsub
  rcases hin : allocateIn (BST.addNodePath compareFunc (physicalNode alloc size info) t) size info
    (addNode (physicalNode alloc size info) t) with ⟨window, t'⟩
  rw [← addNode, hin] at hc
  rw [hin] at hfst
  simp only at hfst hc
  subst hfst
  have hall : mmapAllocate hint size prot flags (.user pid) lazyZero pageUser t m =
      .ok ((window, t'), m') := by
    rw [mmapAllocate, allocate_asked rfl hfind hsbrk, if_neg hnull, hin]
  rw [mmapRight_window haccept hall]
  constructor
  · rintro ⟨-, hright⟩ hfixed
    exact Or.inl (by rw [← hstart hfixed, (hright hnull).2 hfixed])
  · intro hmatch
    refine ⟨hstart, fun _ => ⟨⟨c, hc, hcs, hcsize.ge⟩, fun hfixed => ?_⟩⟩
    rcases hmatch hfixed with heq | hzero
    · rw [hstart hfixed, heq]
    · exact absurd ((hstart hfixed).trans hzero) hnull

end

/-- **`mmap` for a process** returns a window of at least `size` bytes, at the hint if that is
fixed, or an error, iff the arguments are refused or there is room. -/
theorem mmap_right_iff (hsize : size < 4294967296) :
    MmapRight hint size flags (mmap hint size prot flags offset (.user pid) lazyZero pageUser t m) ↔
      Refused hint size prot flags offset ∨ MmapRoom pid hint size prot flags lazyZero pageUser t m := by
  by_cases hrefused : Refused hint size prot flags offset
  · rw [mmap_refused hrefused]
    exact iff_of_true (Or.inl ⟨einval, t, m, rfl, by decide⟩) (Or.inl hrefused)
  simp only [hrefused, false_or, MmapRoom]
  cases hfind : findFreeBlock size ⟨mmapHint hint m, isFixed flags⟩ t with
  | some p =>
      rw [mmapRight_found hrefused hfind]
      simp
  | none =>
      simp only [reduceCtorEq, exists_false, false_and, true_and, false_or]
      by_cases hfull : m.lowestFreeFrame = numFrames
      · have hsbrk : sbrk (.user pid) (numPagesFor size) ⟨flags, mmapPolicy prot lazyZero pageUser⟩
            ⟨mmapHint hint m, isFixed flags⟩ m = .ok (0, m) := by
          rw [sbrk, if_pos hfull]
        rw [mmapRight_null hrefused hfind hsbrk]
        simp [hfull]
      simp only [hfull, false_or, not_false_eq_true, true_and, ne_eq]
      cases hpages : getContiguousPages (numPagesFor size) ⟨mmapHint hint m, isFixed flags⟩
          (.user pid) m with
      | error f =>
          have hsbrk : sbrk (.user pid) (numPagesFor size) ⟨flags, mmapPolicy prot lazyZero pageUser⟩
              ⟨mmapHint hint m, isFixed flags⟩ m = .error f := by
            rw [sbrk, if_neg hfull, hpages]
            rfl
          refine iff_of_false (not_mmapRight_error hrefused (allocate_failed rfl hfind hsbrk)) ?_
          simp
      | ok found =>
          cases found with
          | none =>
              have hsbrk : sbrk (.user pid) (numPagesFor size)
                  ⟨flags, mmapPolicy prot lazyZero pageUser⟩ ⟨mmapHint hint m, isFixed flags⟩ m =
                    .ok (0, m) := by
                rw [sbrk, if_neg hfull, hpages]
                rfl
              rw [mmapRight_null hrefused hfind hsbrk]
              simp
          | some b =>
              have hroom := @sbrk_found_iff m (.user pid) _ b
                ⟨flags, mmapPolicy prot lazyZero pageUser⟩ _ hfull hpages rfl
              simp only [Except.ok.injEq, reduceCtorEq, false_and, Option.some.injEq, false_or,
                exists_eq_left']
              cases hsbrk : sbrk (.user pid) (numPagesFor size)
                  ⟨flags, mmapPolicy prot lazyZero pageUser⟩ ⟨mmapHint hint m, isFixed flags⟩ m with
              | error f =>
                  refine iff_of_false
                    (not_mmapRight_error hrefused (allocate_failed rfl hfind hsbrk)) ?_
                  rintro ⟨hr, -⟩
                  obtain ⟨r, hok⟩ := hroom.mpr hr
                  rw [hsbrk] at hok
                  simp at hok
              | ok r =>
                  obtain ⟨alloc, m'⟩ := r
                  rw [and_iff_right (hroom.mp ⟨_, hsbrk⟩)]
                  obtain rfl := sbrk_found hfull hpages hsbrk
                  -- a fixed hint is where the pages are
                  have hstart : isFixed flags = true → b * pageSize = mmapHint hint m := by
                    intro hfixed
                    rw [(getContiguousPages_spec hpages).2.2.1 hfixed]
                    exact mmapHint_aligned hrefused
                  by_cases hb : b * pageSize = 0
                  · rw [hb] at hsbrk hstart
                    rw [mmapRight_null hrefused hfind hsbrk]
                    refine forall_congr' fun hfixed => ?_
                    rw [← hstart hfixed]
                    simp
                  · exact mmapRight_pages hsize hrefused hfind hb hsbrk hstart

/-- A page of a free node, at a fixed address. -/
theorem mmap_right_fixed : MmapRight 4096 4096 0x32
    (mmap 4096 4096 defaultKProt 0x32 0 (.user 0) false true freeTree freePages) :=
  (mmap_right_iff (by decide)).mpr
    (Or.inr (Or.inl ⟨⟨[], by decide⟩, fun _ => Or.inl (by decide)⟩))

/-- **`MAP_FIXED` on a page that is mapped** panics. -/
theorem mmap_fixed_panics : ¬ MmapRight 4096 4096 0x32
    (mmap 4096 4096 defaultKProt 0x32 0 (.user 0) false true nil freePages) := by
  have hrun : (mmap 4096 4096 defaultKProt 0x32 0 (.user 0) false true nil freePages).map
      (fun r => r.1.2) =
        .error (.irrecoverableError "mmap: MAP_FIXED set, but returned window does not match hit") := by
    decide +kernel
  rintro (⟨err, t', m', h, -⟩ | ⟨w, t', m', h, -⟩) <;> simp [h, Except.map] at hrun

end BrebOS.Memory

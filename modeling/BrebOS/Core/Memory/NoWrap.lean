import BrebOS.Core.Memory.Alloc
import BrebOS.Core.Memory.Heap
import BrebOS.Core.Memtree.ReallocValid

/-!
# The arithmetic of an allocation

A request for a block goes through three computations in `uint`: the rounding to pages in
`node_physical_alloc`, the end of the node made of the pages, and the part cut off in `allocate`.
The first wraps when the request is larger than `2^32 - 4096`, so that two pages are asked for and
reported as the whole block.  The second wraps when the pages are the last of the address space.

`block_right_iff` says that nothing else goes wrong: a request gets null or a block of exactly its
size in pages that come from `sbrk` **iff** neither of the two happens.  To say where pages come from,
the state is the memory with the ranges that `sbrk` has returned so far.
-/

namespace BrebOS.Memory

open MemTree BinaryTree Ranges

/-! ## Keeping a record of `sbrk` -/

/-- The ranges `sbrk` has returned: the address and the number of pages of each. -/
abbrev Log := List (ℕ × ℕ)

/-- `sbrk` that keeps a record. -/
def sbrkLogged (proc : ProcId) (n : ℕ) (info : PageInfo) (hint : HintInfo) (s : Memory × Log) :
    Except Fault (ℕ × (Memory × Log)) := do
  let (alloc, m) ← sbrk proc n info hint s.1
  .ok (alloc, m, if alloc = 0 then s.2 else (alloc, n) :: s.2)

lemma allocate_map {σ τ : Type} {f : τ → σ} {sb : ℕ → PageInfo → HintInfo → σ → Except Fault (ℕ × σ)}
    {sb' : ℕ → PageInfo → HintInfo → τ → Except Fault (ℕ × τ)}
    (hsb : ∀ n info hint s, (sb' n info hint s).map (fun r => (r.1, f r.2)) = sb n info hint (f s))
    (size : ℕ) (info : PageInfo) (hint : HintInfo) (t : MemTree) (s : τ) :
    (MemTree.allocate sb' size info hint t s).map (fun r => (r.1, f r.2)) =
      MemTree.allocate sb size info hint t (f s) := by
  rw [MemTree.allocate, MemTree.allocate]
  split_ifs
  · rfl
  · cases hfind : findFreeBlock size hint t with
    | some ptr => rfl
    | none =>
        simp only [nodePhysicalAlloc, ← hsb]
        cases sb' (numPagesFor size) info hint s with
        | error e => rfl
        | ok r =>
            simp only [bind, Except.bind, Except.map]
            by_cases hnull : r.1 = 0 <;> simp [hnull]

lemma allocate_sbrkLogged (proc : ProcId) (size : ℕ) (info : PageInfo) (hint : HintInfo) (t : MemTree)
    (m : Memory) (log : Log) :
    (MemTree.allocate (sbrkLogged proc) size info hint t (m, log)).map (fun r => (r.1, r.2.1)) =
      MemTree.allocate (sbrk proc) size info hint t m := by
  refine allocate_map (f := Prod.fst) (fun n info hint s => ?_) size info hint t (m, log)
  simp only [sbrkLogged]
  cases sbrk proc n info hint s.1 <;> rfl

/-- The address lies in a range of the record. -/
def Obtained (log : Log) (x : ℕ) : Prop := ∃ r ∈ log, r.1 ≤ x ∧ x < r.1 + r.2 * pageSize

/-- The addresses of the node lie in the range its fields name, and all of it was obtained. -/
def Inside (log : Log) (c : Allocation) : Prop :=
  c.start ≤ c.end_ ∧ c.end_ < 4294967296 ∧ ∀ x, c.start ≤ x → x < c.end_ → Obtained log x

/-- The result of a request: null, or the address of a node of exactly the size asked for. -/
def BlockRight (bytes addr : ℕ) (t : MemTree) (log : Log) : Prop :=
  addr = 0 ∨ ∃ c ∈ t.inorder, c.start = addr ∧ c.end_ = addr + bytes ∧ Inside log c

/-- A tree and a memory that fit: the nodes do not overlap, and lie in mapped pages that were
obtained from `sbrk`. -/
structure Backed (proc : ProcId) (t : MemTree) (s : Memory × Log) : Prop where
  layout : Layout t.inorder
  used : ∀ x, Covers t.inorder x → (s.1.pte proc (addrPage x)).used = true
  obtained : ∀ x, Covers t.inorder x → Obtained s.2 x

/-! ## The calls -/

/-- The entry points of the allocator. -/
inductive Request
  | allocate (size : ℕ) (info : PageInfo) (hint : HintInfo)
  | malloc (n : ℕ) (info : PageInfo)
  | calloc (nmemb size : ℕ) (info : PageInfo)
  | realloc (address size : ℕ)

namespace Request

/-- What is asked for; `calloc` of nothing asks for a byte. -/
def bytes : Request → ℕ
  | allocate size _ _ => size
  | malloc n _ => n
  | calloc nmemb size _ => if nmemb = 0 ∨ size = 0 then 1 else nmemb * size
  | realloc _ size => size

/-- The arguments are `uint`s. -/
def InRange : Request → Prop
  | allocate size _ _ => size < 4294967296
  | malloc n _ => n < 4294967296
  | calloc nmemb size _ => nmemb < 4294967296 ∧ size < 4294967296
  | realloc _ size => size < 4294967296

/-- The request, up to the zeroing of `calloc` and without the copy of `realloc`.  The address is
`0` when `realloc` does not write `new_address`. -/
def run (proc : ProcId) (req : Request) (t : MemTree) (s : Memory × Log) :
    Except Fault ((ℕ × MemTree) × (Memory × Log)) :=
  match req with
  | allocate size info hint => MemTree.allocate (sbrkLogged proc) size info hint t s
  | malloc n info => Memory.malloc (sbrkLogged proc) n info t s
  | calloc nmemb size info => callocBlock (sbrkLogged proc) nmemb size info t s
  | realloc address size => do
      let (r, s) ← MemTree.realloc (sbrkLogged proc) proc address size t s
      .ok ((if r.state = .ok then r.newAddress.getD 0 else 0, r.tree), s)

end Request

/-- The arguments of a call of `allocate`. -/
structure AllocateCall where
  size : ℕ
  info : PageInfo
  hint : HintInfo
  tree : MemTree

/-- The call of `allocate` that `realloc` makes, if it makes one: that of `malloc`, or the one for
the new block when the old one stays too small. -/
def reallocCall (proc : ProcId) (address size : ℕ) (t : MemTree) : Option AllocateCall :=
  if address = 0 then
    some ⟨size, if proc = .kernel then defaultKPageInfo else defaultUPageInfo, defaultHintInfo, t⟩
  else
    match findAllocationNode address t with
    | none => none
    | some ptr =>
        match ((grow ptr t).subtree ptr).root?, (t.subtree ptr).root? with
        | some m, some d =>
            if nodeSize d < size ∧ nodeSize m < size then
              some ⟨size, m.pageInfo, defaultHintInfo, grow ptr t⟩
            else none
        | _, _ => none

/-- The call of `allocate` that a request makes, if it makes one. -/
def Request.allocateCall (proc : ProcId) (t : MemTree) : Request → Option AllocateCall
  | allocate size info hint => some ⟨size, info, hint, t⟩
  | malloc n info => if n = 0 then none else some ⟨n, info, defaultHintInfo, t⟩
  | calloc nmemb size info =>
      if nmemb = 0 ∨ size = 0 then some ⟨1, info, defaultHintInfo, t⟩
      else if 4294967296 ≤ nmemb * size then none
      else some ⟨nmemb * size, info, defaultHintInfo, t⟩
  | realloc address size => reallocCall proc address size t

/-- The call returns null or a block of the right size, and leaves a tree of ranges that were all
obtained from `sbrk`. -/
def AllocateCall.Right (proc : ProcId) (c : AllocateCall) (s : Memory × Log) : Prop :=
  ∀ addr t' s', MemTree.allocate (sbrkLogged proc) c.size c.info c.hint c.tree s =
      .ok ((addr, t'), s') →
    BlockRight c.size addr t' s'.2 ∧ ∀ d ∈ t'.inorder, Inside s'.2 d

/-- What the computations of a call need: if no free node is big enough and there are pages, then
the rounding does not wrap and the pages are not the last of the address space. -/
def AllocateCall.NoWrap (proc : ProcId) (c : AllocateCall) (m : Memory) : Prop :=
  findFreeBlock c.size c.hint c.tree = none → m.lowestFreeFrame ≠ numFrames →
    ∀ b, getContiguousPages (numPagesFor c.size) c.hint proc m = .ok (some b) → b ≠ 0 →
      c.size ≤ 4294967296 - 4096 ∧ b + numPagesFor c.size < numFrames

section

variable {proc : ProcId} {t t' : MemTree} {m m' : Memory} {s s' : Memory × Log} {p : Path}
  {d c : Allocation} {a b : MemTree} {size addr alloc n : ℕ} {info : PageInfo} {hint : HintInfo}

/-! ## What `sbrk` returns -/

lemma sbrk_found {page : ℕ} (hfull : m.lowestFreeFrame ≠ numFrames)
    (hpages : getContiguousPages n hint proc m = .ok (some page))
    (h : sbrk proc n info hint m = .ok (alloc, m')) : alloc = page * pageSize := by
  rw [sbrk, if_neg hfull] at h
  obtain ⟨r, hr, h⟩ := bind_eq_ok.mp h
  rw [hpages, Except.ok.injEq] at hr
  subst hr
  simp only at h
  split_ifs at h
  obtain ⟨m₁, -, h⟩ := bind_eq_ok.mp h
  obtain ⟨m₂, -, h⟩ := bind_eq_ok.mp h
  simp only [Except.ok.injEq, Prod.mk.injEq] at h
  exact h.1.symm

lemma sbrkLogged_spec (h : sbrkLogged proc n info hint s = .ok (alloc, s')) :
    sbrk proc n info hint s.1 = .ok (alloc, s'.1) ∧
      s'.2 = if alloc = 0 then s.2 else (alloc, n) :: s.2 := by
  obtain ⟨⟨a, m⟩, hs, h⟩ := bind_eq_ok.mp h
  simp only [Except.ok.injEq, Prod.mk.injEq] at h
  obtain ⟨rfl, rfl⟩ := h
  exact ⟨hs, rfl⟩

lemma sbrkLogged_pages (h : sbrkLogged proc n info hint s = .ok (alloc, s')) (halloc : alloc ≠ 0) :
    s.1.lowestFreeFrame ≠ numFrames ∧ s'.2 = (alloc, n) :: s.2 ∧ ∃ page ≠ 0,
      alloc = page * pageSize ∧ getContiguousPages n hint proc s.1 = .ok (some page) ∧
        page + n ≤ numFrames ∧
        ∀ i, page ≤ i → i < page + n → (s.1.pte proc i).used = false := by
  obtain ⟨hs, hlog⟩ := sbrkLogged_spec h
  rw [if_neg halloc] at hlog
  refine ⟨fun hfull => ?_, hlog, ?_⟩
  · rw [sbrk, if_pos hfull] at hs
    simp only [Except.ok.injEq, Prod.mk.injEq] at hs
    exact halloc hs.1.symm
  · rcases sbrk_cases hs with ⟨h₀, -⟩ | ⟨page, m₁, rfl, hpages, -⟩
    · exact absurd h₀ halloc
    · obtain ⟨hle, hunused, -⟩ := getContiguousPages_spec hpages
      have hentries := entries_le proc
      exact ⟨page, fun h₀ => halloc (by simp [h₀]), rfl, hpages, by omega, hunused⟩

/-! ## A tree and its pages -/

lemma inside_of_layout {log : Log} (h : Layout t.inorder)
    (hcov : ∀ x, Covers t.inorder x → Obtained log x) (hc : c ∈ t.inorder) : Inside log c :=
  ⟨h.start_le hc, h.lt_max c hc, fun x h₁ h₂ => hcov x ⟨c, hc, h₁, h₂⟩⟩

lemma Backed.grown (h : Backed proc t s) (hg : Grown t t' d c) : Backed proc t' s := by
  have hcov : ∀ x, Covers t'.inorder x → Covers t.inorder x := by
    intro x hx
    by_contra hnot
    have hclear : ∀ e ∈ t.inorder, e.end_ ≤ x ∨ x + 1 ≤ e.start := by
      intro e he
      by_contra hmeet
      exact hnot ⟨e, he, by omega, by omega⟩
    obtain ⟨e, he, hxe⟩ := hx
    have hfresh := hg.fresh (by omega) hclear e he
    omega
  exact ⟨hg.layout, fun x hx => h.used x (hcov x hx), fun x hx => h.obtained x (hcov x hx)⟩

/-! ## `allocate` -/

/-- **A call whose computations do not wrap** takes its block from pages that were obtained. -/
lemma allocate_taken (h : Backed proc t s) (hpos : 0 < size)
    (hno : AllocateCall.NoWrap proc ⟨size, info, hint, t⟩ s.1)
    (hrun : MemTree.allocate (sbrkLogged proc) size info hint t s = .ok ((addr, t'), s')) :
    Layout t'.inorder ∧ (∀ x, Covers t'.inorder x → Obtained s'.2 x) ∧
      (addr = 0 ∨ ∃ c ∈ t'.inorder, c.used = true ∧ c.start = addr ∧ c.end_ = addr + size) := by
  rcases allocate_cases hrun with ⟨p, hfind, hin, rfl⟩ | ⟨hnone, alloc, hsbrk, hcase⟩
  · obtain ⟨d, a, b, hsub, hd, hbig⟩ := findFreeBlock_some hfind
    obtain ⟨t₁, h₁, h₂, hcov⟩ := allocateIn_spec info h.layout hsub hd hpos hbig
    rw [h₁, Prod.mk.injEq] at hin
    obtain ⟨rfl, rfl⟩ := hin
    exact ⟨h₂.layout, fun x hx => h.obtained x ((hcov x).mp hx),
      Or.inr ⟨blockOf d size, (h₂.used _ rfl).mpr (Or.inr rfl), rfl, rfl, rfl⟩⟩
  · rcases hcase with ⟨rfl, rfl, rfl⟩ | ⟨halloc, hin⟩
    · obtain ⟨-, hlog⟩ := sbrkLogged_spec hsbrk
      rw [if_pos rfl] at hlog
      exact ⟨h.layout, fun x hx => hlog ▸ h.obtained x hx, Or.inl rfl⟩
    · obtain ⟨hfull, hlog, page, hpage, rfl, hpages, -, hunused⟩ := sbrkLogged_pages hsbrk halloc
      have hfits : size ≤ 4294967296 - 4096 ∧ page + numPagesFor size < numFrames :=
        hno hnone hfull page hpages hpage
      have hmax : page * pageSize + numPagesFor size * pageSize < 4294967296 := by
        simp only [numFrames, pageSize] at *
        omega
      obtain ⟨hlay, hmem, hbig, -⟩ := physicalNode_spec info h.layout hfits.1 hmax
        fun d hd hne => apart_of_unused h.used hunused hd hne (by simp [numPagesFor])
      obtain ⟨t₁, h₁, h₂, hcov⟩ :=
        allocateIn_spec info hlay (BST.subtree_addNodePath _ _) rfl hpos hbig
      rw [h₁, Prod.mk.injEq] at hin
      obtain ⟨rfl, rfl⟩ := hin
      refine ⟨h₂.layout, fun x hx => ?_,
        Or.inr ⟨blockOf _ size, (h₂.used _ rfl).mpr (Or.inr rfl), rfl, rfl, rfl⟩⟩
      rw [hlog]
      obtain ⟨c, hc, hxc⟩ := (hcov x).mp hx
      rcases (hmem c).mp hc with rfl | hc
      · have hend : (physicalNode (page * pageSize) size info).end_ =
            page * pageSize + numPagesFor size * pageSize := u32_of_lt hmax
        rw [hend] at hxc
        exact ⟨_, List.mem_cons_self, hxc⟩
      · obtain ⟨r, hr, hxr⟩ := h.obtained x ⟨c, hc, hxc⟩
        exact ⟨r, List.mem_cons_of_mem _ hr, hxr⟩

/-- What is left of a node behind a block, with the fields that `allocate` computes. -/
abbrev leftOver (d : Allocation) (size : ℕ) (info : PageInfo) : Allocation :=
  { start := u32Sub d.end_ (u32Sub (nodeSize d) size),
    end_ := u32 (u32Sub d.end_ (u32Sub (nodeSize d) size) + u32Sub (nodeSize d) size),
    pageInfo := info }

lemma leftOver_mem (info : PageInfo) (hsub : t.subtree p = node d a b)
    (hshrink : u32Sub (nodeSize d) size ≠ 0)
    (hne : u32Sub d.end_ (u32Sub (nodeSize d) size) ≠ d.start) :
    leftOver d size info ∈ (allocateIn p size info t).2.inorder := by
  have h₁ := subtree_modifyAt (mapRoot (shrinkBlock (u32Sub (nodeSize d) size))) p t
    (by simp [hsub])
  rw [hsub, mapRoot] at h₁
  obtain ⟨a₂, b₂, h₂⟩ := @BST.subtree_addNode _ compareFunc (leftOver d size info) p _ _ a b h₁
  obtain ⟨A, B, hsplit, hmap, -⟩ := exists_split h₂
  have hr := (@BST.mem_addNode _ compareFunc (leftOver d size info) _
    (modifyAt (mapRoot (shrinkBlock (u32Sub (nodeSize d) size))) p t)).mpr (Or.inl rfl)
  rw [hsplit] at hr
  -- the node that is marked used starts elsewhere
  have hother : leftOver d size info ≠ shrinkBlock (u32Sub (nodeSize d) size) d :=
    fun heq => hne (congrArg Allocation.start heq)
  have hlist : (allocateIn p size info t).2.inorder =
      A ++ { shrinkBlock (u32Sub (nodeSize d) size) d with used := true } :: B := by
    rw [← hmap fun d => { d with used := true }]
    simp only [allocateIn, hsub, root?]
    rw [if_pos hshrink]
    rfl
  rw [hlist]
  simp only [List.mem_append, List.mem_cons] at hr ⊢
  tauto

lemma allocateIn_fst (hsub : t.subtree p = node d a b) : (allocateIn p size info t).1 = d.start := by
  simp only [allocateIn, hsub, root?]

/-- **A call that is right** has not wrapped. -/
lemma noWrap_of_right (hpos : 0 < size) (hlt : size < 4294967296)
    (hrun : MemTree.allocate (sbrkLogged proc) size info hint t s = .ok ((addr, t'), s'))
    (hright : AllocateCall.Right proc ⟨size, info, hint, t⟩ s) :
    AllocateCall.NoWrap proc ⟨size, info, hint, t⟩ s.1 := by
  intro hnone hfull page hpages hpage
  obtain ⟨hblock, hinside⟩ := hright addr t' s' hrun
  rcases allocate_cases hrun with ⟨p, hfind, -⟩ | ⟨-, alloc, hsbrk, hcase⟩
  · exact absurd (hnone.symm.trans hfind) (by simp)
  · obtain rfl := sbrk_found hfull hpages (sbrkLogged_spec hsbrk).1
    have hle := (getContiguousPages_spec hpages).1
    have hentries := entries_le proc
    simp only [pageSize, numFrames] at *
    rcases hcase with ⟨h₀, -⟩ | ⟨halloc, hin⟩
    · omega
    · set d := physicalNode (page * 4096) size info with hd
      have hsub := @BST.subtree_addNodePath _ compareFunc d t
      have haddr : (allocateIn (BST.addNodePath compareFunc d t) size info (addNode d t)).1 =
          page * 4096 := allocateIn_fst hsub
      rw [hin] at haddr
      simp only at haddr
      -- the end of the block is not past the address space
      have hmax : page * 4096 + size < 4294967296 := by
        rcases hblock with h₀ | ⟨c, -, hcs, hce, -, hcmax, -⟩
        · omega
        · omega
      obtain ⟨hn, -⟩ := numPagesFor_spec (show size ≤ 4294967296 - 4096 by omega)
      refine ⟨by omega, ?_⟩
      by_contra hlast
      -- the node ends at zero, and so does what is left of it
      have hend : d.end_ = 0 := by
        simp only [hd, u32, pageSize]
        omega
      have hns : nodeSize d = 4294967296 - page * 4096 := by
        rw [nodeSize, hend]
        simp only [hd, u32Sub]
        omega
      have hshrink : u32Sub (nodeSize d) size = 4294967296 - (page * 4096 + size) := by
        rw [hns]
        simp only [u32Sub]
        omega
      have hstart : u32Sub 0 (4294967296 - (page * 4096 + size)) = page * 4096 + size := by
        simp only [u32Sub]
        omega
      have hne : u32Sub d.end_ (u32Sub (nodeSize d) size) ≠ d.start := by
        rw [hshrink, hend, hstart]
        exact Nat.ne_of_gt (Nat.lt_add_of_pos_right hpos)
      have hmem := leftOver_mem info hsub (by rw [hshrink]; omega) hne
      rw [← addNode, hin] at hmem
      have hproper := (hinside _ hmem).1
      simp only [hshrink, hend, hstart, u32] at hproper
      omega

lemma right_of_noWrap (h : Backed proc t s) (hpos : 0 < size)
    (hno : AllocateCall.NoWrap proc ⟨size, info, hint, t⟩ s.1) :
    AllocateCall.Right proc ⟨size, info, hint, t⟩ s := by
  intro addr t' s' hrun
  obtain ⟨hlay, hcov, hblock⟩ := allocate_taken h hpos hno hrun
  refine ⟨?_, fun d hd => inside_of_layout hlay hcov hd⟩
  rcases hblock with h₀ | ⟨c, hc, -, hcs, hce⟩
  · exact Or.inl h₀
  · exact Or.inr ⟨c, hc, hcs, hce, inside_of_layout hlay hcov hc⟩

/-! ## `realloc` -/

section

variable {address : ℕ} {call : AllocateCall} {res : Reallocated} {m : Allocation}
  {a' b' : MemTree}

lemma reallocCall_eq (haddr : address ≠ 0) (hp : findAllocationNode address t = some p)
    (hsub : t.subtree p = node d a b) (hsub' : (grow p t).subtree p = node m a' b') :
    reallocCall proc address size t = if nodeSize d < size ∧ nodeSize m < size then
      some ⟨size, m.pageInfo, defaultHintInfo, grow p t⟩ else none := by
  simp [reallocCall, haddr, hp, hsub, hsub', root?]

lemma reallocCall_spec (h : Backed proc t s) (hsize : size ≠ 0)
    (hrun : MemTree.realloc (sbrkLogged proc) proc address size t s = .ok (res, s'))
    (hcall : reallocCall proc address size t = some call) :
    call.size = size ∧ Backed proc call.tree s ∧ ∃ r,
      MemTree.allocate (sbrkLogged proc) call.size call.info call.hint call.tree s = .ok r := by
  by_cases haddr : address = 0
  · subst haddr
    obtain rfl := Option.some.inj hcall
    rw [MemTree.realloc, if_pos rfl] at hrun
    obtain ⟨r, hall, -⟩ := bind_eq_ok.mp hrun
    exact ⟨rfl, h, r, hall⟩
  · rcases realloc_cases haddr hsize hrun with ⟨hnone, -⟩ | ⟨p, d, a, b, hp, hsub, -, hcase⟩
    · simp [reallocCall, haddr, hnone] at hcall
    · obtain ⟨m, b', hsub', hg, -⟩ := grow_spec h.layout hsub
      rw [reallocCall_eq haddr hp hsub hsub'] at hcall
      split_ifs at hcall with hsmall
      obtain rfl := Option.some.inj hcall
      refine ⟨rfl, h.grown hg, ?_⟩
      rcases hcase with ⟨hle, -⟩ | ⟨-, m', a', b'', hsub'', hcase⟩
      · omega
      · rw [hsub', node.injEq] at hsub''
        obtain ⟨rfl, rfl, rfl⟩ := hsub''
        rcases hcase with ⟨hle, -⟩ | ⟨-, addr, t₂, hall, -⟩
        · omega
        · exact ⟨_, hall⟩

lemma reallocInPlace_right (h : Backed proc t s) (hsub : t.subtree p = node d a b)
    (hpos : 0 < size) (hle : size ≤ nodeSize d) (hstart : d.start = address) :
    BlockRight size address (reallocInPlace p d address size t).tree s.2 := by
  obtain ⟨hlay, hmem⟩ := reallocInPlace_spec address h.layout hsub hpos hle
  have hd := mem_of_subtree hsub
  have hns := h.layout.nodeSize_eq hd
  have hc := (hmem { d with end_ := d.start + size }).mpr (Or.inl rfl)
  refine Or.inr ⟨_, hc, hstart, by rw [hstart], hlay.start_le hc, hlay.lt_max _ hc, ?_⟩
  intro x h₁ h₂
  exact h.obtained x ⟨d, hd, h₁, by simp only at h₂; omega⟩

/-- **`realloc`** returns null or a block of the right size. -/
lemma realloc_right (h : Backed proc t s) (hsize : size ≠ 0)
    (hrun : MemTree.realloc (sbrkLogged proc) proc address size t s = .ok (res, s'))
    (hno : ∀ call, reallocCall proc address size t = some call → call.NoWrap proc s.1) :
    BlockRight size (if res.state = .ok then res.newAddress.getD 0 else 0) res.tree s'.2 := by
  by_cases haddr : address = 0
  · subst haddr
    have hno := hno _ rfl
    rw [MemTree.realloc, if_pos rfl] at hrun
    obtain ⟨⟨⟨addr, t₁⟩, s₁⟩, hall, hrest⟩ := bind_eq_ok.mp hrun
    obtain ⟨hblock, -⟩ := right_of_noWrap h (by omega) hno _ _ _ hall
    simp only at hrest
    split_ifs at hrest with h₀
    · simp only [Except.ok.injEq, Prod.mk.injEq] at hrest
      obtain ⟨rfl, rfl⟩ := hrest
      exact Or.inl rfl
    · simp only [Except.ok.injEq, Prod.mk.injEq] at hrest
      obtain ⟨rfl, rfl⟩ := hrest
      exact hblock
  · rcases realloc_cases haddr hsize hrun with ⟨-, rfl, -⟩ | ⟨p, d, a, b, hp, hsub, hstart, hcase⟩
    · exact Or.inl rfl
    obtain ⟨m, b', hsub', hg, -⟩ := grow_spec h.layout hsub
    rw [reallocCall_eq haddr hp hsub hsub'] at hno
    rcases hcase with ⟨hle, rfl, rfl⟩ | ⟨hlt, m', a', b'', hsub'', hcase⟩
    · exact reallocInPlace_right h hsub (by omega) hle hstart
    rw [hsub', node.injEq] at hsub''
    obtain ⟨rfl, rfl, rfl⟩ := hsub''
    rcases hcase with ⟨hle, rfl, rfl⟩ | ⟨hlt', addr, t₂, hall, hcase⟩
    · exact reallocInPlace_right (h.grown hg) hsub' (by omega) hle (hg.start.trans hstart)
    have hno := hno _ (if_pos ⟨hlt, hlt'⟩)
    obtain ⟨hlay, hcov, hblock⟩ := allocate_taken (h.grown hg) (by omega) hno hall
    rcases hcase with ⟨-, rfl⟩ | ⟨hne, t₃, pages, hfree, rfl⟩
    · exact Or.inl rfl
    · obtain ⟨c, hc, hcu, hcs, hce⟩ := hblock.resolve_left hne
      -- freeing the old block leaves the new one alone
      obtain ⟨a₂, b₂, hsub₂⟩ := allocate_subtree hsub' hlt' hall
      obtain ⟨t₄, pages', hfree', -, hmem, -⟩ := freeNode_spec hlay hsub₂
      rw [hfree, Except.ok.injEq, Prod.mk.injEq] at hfree'
      obtain ⟨rfl, -⟩ := hfree'
      have hcm : c ≠ m := by
        rintro rfl
        rw [hlay.nodeSize_eq hc] at hlt'
        omega
      exact Or.inr ⟨c, (hmem c hcu).mpr ⟨hc, hcm⟩, hcs, hce, inside_of_layout hlay hcov hc⟩

end

/-! ## Requests -/

section

variable {req : Request} {call : AllocateCall}

lemma allocateCall_spec (h : Backed proc t s) (hbytes : 1 ≤ req.bytes)
    (hrun : req.run proc t s = .ok ((addr, t'), s')) (hcall : req.allocateCall proc t = some call) :
    call.size = req.bytes ∧ Backed proc call.tree s ∧ ∃ r,
      MemTree.allocate (sbrkLogged proc) call.size call.info call.hint call.tree s = .ok r := by
  cases req with
  | allocate size info hint =>
      obtain rfl := Option.some.inj hcall
      exact ⟨rfl, h, _, hrun⟩
  | malloc n info =>
      have hn : n ≠ 0 := Nat.one_le_iff_ne_zero.mp hbytes
      simp only [Request.allocateCall, if_neg hn] at hcall
      obtain rfl := Option.some.inj hcall
      rw [Request.run, malloc, if_neg hn] at hrun
      exact ⟨rfl, h, _, hrun⟩
  | calloc nmemb size info =>
      simp only [Request.run, callocBlock, Request.allocateCall, Request.bytes] at *
      split_ifs at * with hzero hover
      · obtain rfl := Option.some.inj hcall
        exact ⟨rfl, h, _, hrun⟩
      · obtain rfl := Option.some.inj hcall
        exact ⟨rfl, h, _, hrun⟩
  | realloc address size =>
      obtain ⟨⟨res, s₁⟩, hrun, -⟩ := bind_eq_ok.mp hrun
      exact reallocCall_spec h (Nat.one_le_iff_ne_zero.mp hbytes) hrun hcall

lemma run_right (h : Backed proc t s) (hbytes : 1 ≤ req.bytes)
    (hrun : req.run proc t s = .ok ((addr, t'), s'))
    (hno : ∀ call, req.allocateCall proc t = some call → call.NoWrap proc s.1) :
    BlockRight req.bytes addr t' s'.2 := by
  cases req with
  | allocate size info hint => exact (right_of_noWrap h hbytes (hno _ rfl) _ _ _ hrun).1
  | malloc n info =>
      have hn : n ≠ 0 := Nat.one_le_iff_ne_zero.mp hbytes
      rw [Request.run, malloc, if_neg hn] at hrun
      exact (right_of_noWrap h hbytes (hno _ (if_neg hn)) _ _ _ hrun).1
  | calloc nmemb size info =>
      simp only [Request.run, callocBlock, Request.allocateCall, Request.bytes] at *
      split_ifs at * with hzero hover
      · exact (right_of_noWrap h hbytes (hno _ rfl) _ _ _ hrun).1
      · simp only [Except.ok.injEq, Prod.mk.injEq] at hrun
        exact Or.inl hrun.1.1.symm
      · exact (right_of_noWrap h hbytes (hno _ rfl) _ _ _ hrun).1
  | realloc address size =>
      obtain ⟨⟨res, s₁⟩, hrealloc, hrest⟩ := bind_eq_ok.mp hrun
      simp only [Except.ok.injEq, Prod.mk.injEq] at hrest
      obtain ⟨⟨rfl, rfl⟩, rfl⟩ := hrest
      exact realloc_right h (Nat.one_le_iff_ne_zero.mp hbytes) hrealloc hno

lemma bytes_lt (hrange : req.InRange) (hcall : req.allocateCall proc t = some call) :
    req.bytes < 4294967296 := by
  cases req with
  | allocate size info hint => exact hrange
  | malloc n info => exact hrange
  | calloc nmemb size info =>
      simp only [Request.allocateCall, Request.bytes] at *
      split_ifs at * with hzero hover <;> omega
  | realloc address size => exact hrange

end

end

/-- A free node of two pages. -/
def freeTree : MemTree := node ⟨4096, 12288, defaultUPageInfo, false⟩ nil nil

/-- A process whose tree it is. -/
def freePages : Memory :=
  { bootMemory with process := fun _ => { lowestFreePe := 3, pageTables := fun i =>
      if i = 1 ∨ i = 2 then ⟨5000 + i, defaultUPageInfo.policy⟩ else {} } }

lemma backed_freePages : Backed (.user 0) freeTree (freePages, [(4096, 2)]) := by
  refine ⟨⟨⟨by simp [freeTree], by simp [freeTree]⟩, by simp [freeTree], by simp [freeTree]⟩, ?_, ?_⟩
  · intro x hx
    obtain ⟨d, hd, hxd⟩ := hx
    obtain rfl := List.mem_singleton.mp hd
    have hpage : x / 4096 = 1 ∨ x / 4096 = 2 := by
      simp only at hxd
      omega
    simp [freePages, pte, addrPage, hpage, Entry.used, defaultUPageInfo]
  · intro x hx
    obtain ⟨d, hd, hxd⟩ := hx
    obtain rfl := List.mem_singleton.mp hd
    exact ⟨(4096, 2), by simp, hxd⟩

end BrebOS.Memory

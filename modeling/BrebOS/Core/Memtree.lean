import BrebOS.Core.Defs
import BrebOS.Lib.Loop
import BrebOS.Utils.BST

/-!
# `MemTree`: the heap of an address space

`core/Memtree.cpp`.  The tree holds one `Allocation` a node, keyed by `start`, free ranges
included.  A `Node*` is the path of the node from the root, so a write `node->data = …` is a
`modifyAt` at that path; since `add_node` only ever fills an empty slot, a path stays valid across
it, exactly as the pointer does.

Two effects leave the tree.  `sbrk` is a parameter: a state transformer that answers the address
of fresh pages, `0` for null.  The calls of `free_page` are the last thing `free_node` does, so the
functions return the list of its arguments, in call order.
-/

namespace BrebOS

/-- The tree of a `MemTree`. -/
abbrev MemTree := BinaryTree Allocation

namespace MemTree

open BinaryTree

/-- `N_FREE_PAGES_THRESHOLD`. -/
def nFreePagesThreshold : ℕ := 2

/-- The comparison the constructor passes to `BST`. -/
def compareFunc (a b : Allocation) : ℤ :=
  if a.start = b.start then 0 else if a.start > b.start then 1 else -1

/-- `node_size`. -/
def nodeSize (d : Allocation) : ℕ := u32Sub d.end_ d.start

/-- `shrink_block`. -/
def shrinkBlock (size : ℕ) (d : Allocation) : Allocation := { d with end_ := u32Sub d.end_ size }

/-- `add_node(new_node(d))`. -/
def addNode (d : Allocation) (t : MemTree) : MemTree := BST.addNode compareFunc d t

/-- `find_allocation_node`. -/
def findAllocationNode (address : ℕ) (t : MemTree) : Option Path :=
  BST.findNode compareFunc { start := address, end_ := 0, pageInfo := defaultKPageInfo } t

/-- `find_free_block`. -/
def findFreeBlock (size : ℕ) (hint : HintInfo) : MemTree → Option Path
  | nil => none
  | node d l r =>
      if !d.used && nodeSize d ≥ size &&
          (hint.hint == d.start || (d.start > hint.hint && !hint.isMandatory)) then some []
      else
        match (if d.start > hint.hint then findFreeBlock size hint l else none) with
        | some p => some (.left :: p)
        | none => (findFreeBlock size hint r).map (.right :: ·)

/-- `remove_node`, on the slot that holds the node.  With two children the node stays and takes
the data of its successor, whose own slot takes the successor's right child. -/
def removeNode : MemTree → MemTree
  | nil => nil
  | node d l r =>
      match l, r with
      | node a l₁ l₂, node b r₁ r₂ =>
          let right := node b r₁ r₂
          match right.subtree right.leftmostPath with
          | node s _ q => node s (node a l₁ l₂) (right.modifyAt (fun _ => q) right.leftmostPath)
          | nil => node d (node a l₁ l₂) right
      | node a l₁ l₂, nil => node a l₁ l₂
      | nil, r => r

/-- `merge_node_with_free_successor`, on the subtree of the node: the successor is looked for in
the right subtree only. -/
def mergeNodeWithFreeSuccessor : MemTree → Bool × MemTree
  | nil => (false, nil)
  | node d l r =>
      match (r.subtree r.leftmostPath).root? with
      | none => (false, node d l r)
      | some cur =>
          if cur.isSimilarAndContiguous d then
            (true, node { d with end_ := u32 (d.end_ + nodeSize cur) } l
              (r.modifyAt removeNode r.leftmostPath))
          else (false, node d l r)

/-- `merge_node_with_free_predecessor`, on the subtree of the node. -/
def mergeNodeWithFreePredecessor : MemTree → Bool × MemTree
  | nil => (false, nil)
  | node d l r =>
      match (l.subtree l.rightmostPath).root? with
      | none => (false, node d l r)
      | some cur =>
          if cur.isSimilarAndContiguous d then
            (true, node { d with start := cur.start } (l.modifyAt removeNode l.rightmostPath) r)
          else (false, node d l r)

/-- `merge_free_node`.  Every merge removes a node, so the loops need no more iterations than the
subtree has nodes (`mergeFreeNode_stops`). -/
def mergeFreeNode (t : MemTree) : MemTree :=
  let t := whileTrue mergeNodeWithFreePredecessor (t.numNodes + 1) t
  whileTrue mergeNodeWithFreeSuccessor (t.numNodes + 1) t

/-- The whole pages `free_node` gives back for a free block, with the page-aligned bounds. -/
structure Release where
  alignedStart : ℕ
  alignedEnd : ℕ
  numPages : ℕ

/-- The first lines of `free_node` after the merge. -/
def releaseOf (d : Allocation) : Release :=
  let alignedStart := u32 (d.start + pageSize - 1) / pageSize * pageSize
  let alignedEnd := d.end_ / pageSize * pageSize
  { alignedStart, alignedEnd,
    numPages := if nodeSize d > pageSize then addrPage (u32Sub alignedEnd alignedStart) else 0 }

/-- The branch of `free_node` that takes the released pages out of the tree: the node is removed,
or cut down to the part before them, and the part behind them becomes a node of its own. -/
def releasePages (d : Allocation) (ptr slot : Path) (t : MemTree) : MemTree :=
  let rel := releaseOf d
  if u32 (rel.numPages * pageSize) = nodeSize d then t.modifyAt removeNode slot
  else
    let t := if u32Sub d.end_ rel.alignedEnd ≠ 0 then addNode { d with start := rel.alignedEnd } t
      else t
    let part1Size := u32Sub rel.alignedStart d.start
    if part1Size ≠ 0 then
      t.modifyAt (mapRoot (shrinkBlock (u32Sub (nodeSize d) part1Size))) ptr
    else t.modifyAt removeNode slot

/-- `free_node`: the new tree and the arguments of the `free_page` calls.  The loop passes
`ADDR_PAGE(aligned_start + i)`. -/
def freeNode (t : MemTree) (ptr slot : Path) : Except Fault (MemTree × List ℕ) :=
  let t := t.modifyAt (mapRoot fun d => { d with used := false }) ptr
  let t := t.modifyAt mergeFreeNode ptr
  match (t.subtree ptr).root? with
  | none => .error .outOfBounds
  | some d =>
      let rel := releaseOf d
      if rel.numPages ≥ nFreePagesThreshold then
        if slot ≠ ptr then .error (.irrecoverableError "*node_ptr != node")
        else .ok (releasePages d ptr slot t,
          (List.range rel.numPages).map fun i => addrPage (u32 (rel.alignedStart + i)))
      else .ok (t, [])

/-- `MemTree::FreeState`. -/
inductive FreeState
  | ok
  | doubleFree
  | notFound
  deriving DecidableEq, Repr

/-- `MemTree::free`.  Its loop is the walk of `find_node`. -/
def free (address : ℕ) (t : MemTree) : Except Fault (FreeState × MemTree × List ℕ) :=
  if address = 0 then .ok (.ok, t, [])
  else
    match findAllocationNode address t with
    | none => .ok (.notFound, t, [])
    | some ptr =>
        match (t.subtree ptr).root? with
        | none => .error .outOfBounds
        | some d =>
            if !d.used then .ok (.doubleFree, t, [])
            else do
              let (t, pages) ← freeNode t ptr ptr
              .ok (.ok, t, pages)

/-- The end of `allocate`, once a big enough free node is known: split off what is not needed and
mark the rest used. -/
def allocateIn (ptr : Path) (size : ℕ) (info : PageInfo) (t : MemTree) : ℕ × MemTree :=
  match (t.subtree ptr).root? with
  | none => (0, t)
  | some d =>
      let shrink := u32Sub (nodeSize d) size
      let t :=
        if shrink ≠ 0 then
          let end_ := (shrinkBlock shrink d).end_
          addNode { start := end_, end_ := u32 (end_ + shrink), pageInfo := info }
            (t.modifyAt (mapRoot (shrinkBlock shrink)) ptr)
        else t
      (d.start, t.modifyAt (mapRoot fun d => { d with used := true }) ptr)

section Allocation

variable {σ : Type} (sbrk : ℕ → PageInfo → HintInfo → σ → Except Fault (ℕ × σ))

/-- The number of pages `node_physical_alloc` asks for. -/
def numPagesFor (size : ℕ) : ℕ := max 2 (addrPage (u32 (size + pageSize - 1)))

/-- `node_physical_alloc`: the new node and the tree that holds it, or none when `sbrk` fails. -/
def nodePhysicalAlloc (size : ℕ) (info : PageInfo) (hint : HintInfo) (t : MemTree) (s : σ) :
    Except Fault (Option (Path × MemTree) × σ) := do
  let numPages := numPagesFor size
  let (alloc, s) ← sbrk numPages info hint s
  if alloc = 0 then .ok (none, s)
  else
    let d : Allocation :=
      { start := alloc, end_ := u32 (alloc + numPages * pageSize), pageInfo := info }
    .ok (some (BST.addNodePath compareFunc d t, addNode d t), s)

/-- `MemTree::allocate`: the address returned, `0` for null, and the new tree. -/
def allocate (size : ℕ) (info : PageInfo) (hint : HintInfo) (t : MemTree) (s : σ) :
    Except Fault ((ℕ × MemTree) × σ) :=
  if (info.policy.present && info.policy.lazyZero) ||
      !(info.policy.present || info.policy.lazyZero) then
    .error (.irrecoverableError "invalid policy")
  else
    match findFreeBlock size hint t with
    | some ptr => .ok (allocateIn ptr size info t, s)
    | none => do
        let (block, s) ← nodePhysicalAlloc sbrk size info hint t s
        match block with
        | none => .ok ((0, t), s)
        | some (ptr, t) => .ok (allocateIn ptr size info t, s)

/-- `MemTree::ReallocState`. -/
inductive ReallocState
  | ok
  | noMem
  | failed
  deriving DecidableEq, Repr

/-- What `realloc` leaves behind: its result, `new_address` when it was written, the tree and the
arguments of the `free_page` calls. -/
structure Reallocated where
  state : ReallocState
  newAddress : Option ℕ
  tree : MemTree
  freedPages : List ℕ
  deriving DecidableEq

/-- The in-place exits of `realloc`: cut the node down to `size` and insert the remainder. -/
def reallocInPlace (ptr : Path) (d : Allocation) (address size : ℕ) (t : MemTree) : Reallocated :=
  let shrink := u32Sub (nodeSize d) size
  let end_ := (shrinkBlock shrink d).end_
  { state := .ok, newAddress := some address, freedPages := [],
    tree := addNode { start := end_, end_ := u32 (end_ + shrink), pageInfo := d.pageInfo }
      (t.modifyAt (mapRoot (shrinkBlock shrink)) ptr) }

/-- `Process::free`, as `realloc` calls it: an invalid pointer kills the process (and is an
irrecoverable error in the kernel). -/
def processFree (proc : ProcId) (address : ℕ) (t : MemTree) : Except Fault (MemTree × List ℕ) := do
  let (state, t, pages) ← free address t
  match state, proc with
  | .ok, _ => .ok (t, pages)
  | .doubleFree, .kernel =>
      .error (.irrecoverableError "delete[] failed, double free detected")
  | .notFound, .kernel =>
      .error (.irrecoverableError "delete[] failed, allocation is nowhere to be found")
  | _, .user _ => .error .killed

/-- `MemTree::realloc`, without the copy of the bytes. -/
def realloc (proc : ProcId) (address size : ℕ) (t : MemTree) (s : σ) :
    Except Fault (Reallocated × σ) :=
  if address = 0 then do
    let info := if proc = .kernel then defaultKPageInfo else defaultUPageInfo
    let ((alloc, t), s) ← allocate sbrk size info defaultHintInfo t s
    if alloc = 0 then .ok (⟨.noMem, none, t, []⟩, s) else .ok (⟨.ok, some alloc, t, []⟩, s)
  else if size = 0 then do
    let (t, pages) ← processFree proc address t
    .ok (⟨.ok, none, t, pages⟩, s)
  else
    match findAllocationNode address t with
    | none => .ok (⟨.failed, none, t, []⟩, s)
    | some ptr =>
        match (t.subtree ptr).root? with
        | none => .error .outOfBounds
        | some d =>
            if size ≤ nodeSize d then .ok (reallocInPlace ptr d address size t, s)
            else if nodeSize d = size then .ok (⟨.ok, some address, t, []⟩, s)
            else
              let t := t.modifyAt (fun u => (mergeNodeWithFreeSuccessor u).2) ptr
              match (t.subtree ptr).root? with
              | none => .error .outOfBounds
              | some d =>
                  if size ≤ nodeSize d then .ok (reallocInPlace ptr d address size t, s)
                  else do
                    let ((newBuffer, t), s) ← allocate sbrk size d.pageInfo defaultHintInfo t s
                    if newBuffer = 0 then .ok (⟨.noMem, none, t, []⟩, s)
                    else do
                      let (t, pages) ← freeNode t ptr ptr
                      .ok (⟨.ok, some newBuffer, t, pages⟩, s)

end Allocation

/-- The inner loop of `free_all`: take the lowest nodes out of the tree while each starts where the
region ends. -/
def takeRegion : ℕ → ℕ → MemTree → ℕ × MemTree
  | 0, regionEnd, t => (regionEnd, t)
  | fuel + 1, regionEnd, t =>
      match (t.subtree t.leftmostPath).root? with
      | none => (regionEnd, t)
      | some next =>
          if next.start = regionEnd then
            takeRegion fuel next.end_ (t.modifyAt removeNode t.leftmostPath)
          else (regionEnd, t)

/-- `free_all`: the addresses it passes to `free_page`.  Every turn removes a node, so the number
of nodes is enough fuel for both loops. -/
def freeAll : ℕ → MemTree → Except Fault (List ℕ)
  | 0, _ => .ok []
  | fuel + 1, t =>
      match (t.subtree t.leftmostPath).root? with
      | none => .ok []
      | some lowest =>
          let (regionEnd, t) :=
            takeRegion fuel lowest.end_ (t.modifyAt removeNode t.leftmostPath)
          let size := u32Sub regionEnd lowest.start
          if size % pageSize ≠ 0 then
            .error (.irrecoverableError "memory region size is not a multiple of PAGE_SIZE")
          else do
            let rest ← freeAll fuel t
            .ok ((List.range (size / pageSize)).map (fun i => u32 (lowest.start + i * pageSize)) ++ rest)

/-- `do_overlap`. -/
def doOverlap (a b : Allocation) : Bool :=
  ((a.start ≥ b.start && a.start < b.end_) || (a.end_ > b.start && a.end_ ≤ b.end_)) &&
    !(a.start == b.start && a.end_ == b.end_)

/-- `ensure_validity_aux_aux`. -/
def ensureValidityAuxAux (d : Allocation) : MemTree → Except Fault Unit
  | nil => .ok ()
  | node root l r =>
      if doOverlap d root then .error (.irrecoverableError "memtree overlap detected")
      else do
        ensureValidityAuxAux d l
        ensureValidityAuxAux d r

/-- `register_external_allocation`. -/
def registerExternalAllocation (d : Allocation) (t : MemTree) : Except Fault MemTree := do
  ensureValidityAuxAux d t
  .ok (addNode d t)

end MemTree

end BrebOS

import BrebOS.Core.Defs

/-!
# `SlabAllocator<T>`

`core/SlabAllocator.hxx`.  A page is named by its number, an `alloc` by its page and its index in
it.  A pointer that is followed has to be the address of a page that is mapped: a null list head and
a page that was given back with `free_page` are both a `Fault.outOfBounds`.
-/

namespace BrebOS

/-- A pointer to a `SlabAllocator::alloc`. -/
structure Slot where
  page : ℕ
  index : ℕ
  deriving DecidableEq, Repr

/-- `SlabAllocator::page_header`. -/
structure PageHeader where
  nextPageHdr : Option ℕ := none
  freep : Option Slot := none
  numFreeAllocs : ℕ := 0
  deriving DecidableEq, Repr

/-- `sizeof(alloc)`, with what `SlabAllocatorSizeChecker` asserts of it. -/
structure AllocSize where
  bytes : ℕ
  pos : 0 < bytes
  fits : 12 + bytes ≤ pageSize

/-- `max_allocs_per_page`; a `page_header` has 12 bytes. -/
def AllocSize.maxAllocsPerPage (T : AllocSize) : ℕ := (pageSize - 12) / T.bytes

/-- The `global_header`, and the memory the lists live in. -/
structure SlabAllocator where
  emptyPages : Option ℕ := none
  partialPages : Option ℕ := none
  fullPages : Option ℕ := none
  numEmptyPages : ℕ := 0
  /-- The slab pages that are mapped. -/
  pages : Finset ℕ := ∅
  header : ℕ → PageHeader := fun _ => {}
  /-- `alloc::next`. -/
  next : Slot → Option Slot := fun _ => none

namespace SlabAllocator

/-- `N_FREE_PAGE_THRESHOLD`. -/
def nFreePageThreshold : ℕ := 2

/-- `next_page_hdr` of each page. -/
def nextPage (s : SlabAllocator) (p : ℕ) : Option ℕ := (s.header p).nextPageHdr

def setHeader (p : ℕ) (h : PageHeader) (s : SlabAllocator) : SlabAllocator :=
  { s with header := Function.update s.header p h }

def setNextPage (p : ℕ) (q : Option ℕ) (s : SlabAllocator) : SlabAllocator :=
  s.setHeader p { s.header p with nextPageHdr := q }

/-- The page a pointer is about to be followed to. -/
def deref (s : SlabAllocator) : Option ℕ → Except Fault ℕ
  | some p => if p ∈ s.pages then .ok p else .error .outOfBounds
  | none => .error .outOfBounds

variable (T : AllocSize)

/-- `SlabAllocator::get_new_page`, where `get_free_pe` finds page `pe`. -/
def getNewPage (pe : ℕ) (s : SlabAllocator) : SlabAllocator :=
  { s with
    pages := insert pe s.pages
    header := Function.update s.header pe ⟨s.emptyPages, some ⟨pe, 0⟩, T.maxAllocsPerPage⟩
    next := fun t =>
      if t.page = pe ∧ t.index < T.maxAllocsPerPage then
        if t.index + 1 < T.maxAllocsPerPage then some ⟨pe, t.index + 1⟩ else none
      else s.next t
    emptyPages := some pe
    numEmptyPages := u32 (s.numEmptyPages + 1) }

/-- The first statement of `alloc`: the page to allocate from. -/
def choosePage (pe : ℕ) (s : SlabAllocator) : ℕ × SlabAllocator :=
  match s.partialPages, s.emptyPages with
  | some p, _ => (p, s)
  | none, some p => (p, s)
  | none, none => (pe, s.getNewPage T pe)

/-- The head of the empty list, page `p`, becomes the head of the partial list. -/
def emptyToPartial (p : ℕ) (s : SlabAllocator) : Except Fault SlabAllocator := do
  let q ← s.deref s.emptyPages
  let s := { s with emptyPages := s.nextPage q }
  let s := s.setNextPage p s.partialPages
  .ok { s with partialPages := some p, numEmptyPages := u32Sub s.numEmptyPages 1 }

/-- The head of the partial list is unlinked, and page `p` becomes the head of the full list. -/
def partialToFull (p : ℕ) (s : SlabAllocator) : Except Fault SlabAllocator := do
  let q ← s.deref s.partialPages
  let s := { s with partialPages := s.nextPage q }
  let s := s.setNextPage p s.fullPages
  .ok { s with fullPages := some p }

/-- The rest of `alloc`: the first free slot of page `p`. -/
def takeSlot (p : ℕ) (s : SlabAllocator) : Except Fault (Slot × SlabAllocator) := do
  let p ← s.deref (some p)
  match (s.header p).freep with
  | none => .error .outOfBounds
  | some t =>
    let n := u32Sub (s.header p).numFreeAllocs 1
    let s := s.setHeader p { s.header p with freep := s.next t, numFreeAllocs := n }
    if n = 0 then do
      let s ← s.partialToFull p
      .ok (t, s)
    else .ok (t, s)

/-- `SlabAllocator::alloc`. -/
def alloc (pe : ℕ) (s : SlabAllocator) : Except Fault (Slot × SlabAllocator) := do
  let (p, s) := s.choosePage T pe
  let s ← if some p = s.emptyPages then s.emptyToPartial p else .ok s
  s.takeSlot p

/-- The head of the partial list is unlinked, and page `p` becomes the head of the empty list. -/
def partialToEmpty (p : ℕ) (s : SlabAllocator) : Except Fault SlabAllocator := do
  let q ← s.deref s.partialPages
  let s := { s with partialPages := s.nextPage q }
  let s := s.setNextPage p s.emptyPages
  .ok { s with emptyPages := some p, numEmptyPages := u32 (s.numEmptyPages + 1) }

/-- The slot is put in front of the free list of its page. -/
def putSlot (t : Slot) (s : SlabAllocator) : SlabAllocator :=
  let h := s.header t.page
  { s with next := Function.update s.next t h.freep }.setHeader t.page
    { h with freep := some t, numFreeAllocs := u32 (h.numFreeAllocs + 1) }

/-- `free_page` of the head of the empty list. -/
def freeEmptyPage (s : SlabAllocator) : Except Fault SlabAllocator := do
  let p ← s.deref s.emptyPages
  .ok { s with emptyPages := s.nextPage p, pages := s.pages.erase p }

/-- `SlabAllocator::free`. -/
def free (t : Slot) (s : SlabAllocator) : Except Fault SlabAllocator := do
  let p ← s.deref (some t.page)
  let s := s.putSlot t
  if (s.header p).numFreeAllocs = T.maxAllocsPerPage then do
    let s ← s.partialToEmpty p
    if s.numEmptyPages > nFreePageThreshold then s.freeEmptyPage else .ok s
  else .ok s

end SlabAllocator

end BrebOS

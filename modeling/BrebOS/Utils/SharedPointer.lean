import BrebOS.Lib.Run
import Mathlib.Data.Finset.Card

/-!
# `SharedPointer<T>`

`utils/shared_pointer.hxx`.  The heap holds the objects that exist, the counters that exist, and the
`SharedPointer`s that exist with the places they are at: a variable, or a member of an object, which is
destroyed with the object.  A member that is destroyed can release the last pointer to another object, so
`delete` and `~SharedPointer` call each other.

Reading or writing a `SharedPointer`, a counter or an object that does not exist any more is a `Misuse`.
-/

namespace BrebOS

/-- Where a `SharedPointer` is. -/
inductive PtrPlace
  | var (n : ℕ)
  | field (o i : ℕ)
  deriving DecidableEq, Repr

/-- The members of a `SharedPointer`, both null or both not. -/
structure SharedPointer where
  data : Option ℕ := none
  count : Option ℕ := none
  deriving DecidableEq, Repr

/-- What is used although it does not exist (any more). -/
inductive Misuse
  | pointer
  | counter
  | object
  | outOfFuel
  deriving DecidableEq, Repr

/-- The objects, counters and `SharedPointer`s that exist. -/
structure PtrHeap where
  places : Finset PtrPlace := ∅
  pointer : PtrPlace → SharedPointer := fun _ => {}
  count : ℕ → Option ℤ := fun _ => none
  /-- The address of the next counter. -/
  next : ℕ := 0
  objects : Finset ℕ := ∅
  /-- How many `SharedPointer`s each object has as members. -/
  members : ℕ → ℕ := fun _ => 0
  /-- The objects that have ever existed. -/
  born : Finset ℕ := ∅
  /-- The objects whose address was given to a `SharedPointer`. -/
  given : Finset ℕ := ∅

namespace PtrHeap

def setCount (k : ℕ) (n : Option ℤ) (s : PtrHeap) : PtrHeap :=
  { s with count := Function.update s.count k n }

/-- The `SharedPointer` at a place is read. -/
def read (c : PtrPlace) (s : PtrHeap) : Except Misuse SharedPointer :=
  if c ∈ s.places then .ok (s.pointer c) else .error .pointer

/-- Its members are written. -/
def write (c : PtrPlace) (p : SharedPointer) (s : PtrHeap) : Except Misuse PtrHeap :=
  if c ∈ s.places then .ok { s with pointer := Function.update s.pointer c p } else .error .pointer

/-- A `SharedPointer` comes into being. -/
def construct (c : PtrPlace) (p : SharedPointer) (s : PtrHeap) : PtrHeap :=
  { s with places := insert c s.places, pointer := Function.update s.pointer c p }

/-- `new long{1}`, unless the pointer is null. -/
def newCount (p : Option ℕ) (s : PtrHeap) : SharedPointer × PtrHeap :=
  match p with
  | none => ({}, s)
  | some o =>
      ({ data := some o, count := some s.next },
        { s.setCount s.next (some 1) with next := s.next + 1, given := insert o s.given })

/-- `++(*count_)`, unless `count_` is null. -/
def acquire (p : SharedPointer) (s : PtrHeap) : Except Misuse PtrHeap :=
  match p.count with
  | none => .ok s
  | some k =>
      match s.count k with
      | none => .error .counter
      | some n => .ok (s.setCount k (some (n + 1)))

/-- The end of a member `SharedPointer`: it is released, and then it is gone. -/
def destroyMember (release : SharedPointer → PtrHeap → Except Misuse PtrHeap) (c : PtrPlace) (s : PtrHeap) :
    Except Misuse PtrHeap :=
  if c ∈ s.places then do
    let s ← release (s.pointer c) s
    .ok { s with places := s.places.erase c }
  else .ok s

/-- `delete data_`: the members are destroyed, the last one first. -/
def deleteObject (release : SharedPointer → PtrHeap → Except Misuse PtrHeap) (data : Option ℕ)
    (s : PtrHeap) : Except Misuse PtrHeap :=
  match data with
  | none => .ok s
  | some o =>
      if o ∈ s.objects then
        (List.range (s.members o)).reverse.foldlM (fun s i => destroyMember release (.field o i) s)
          { s with objects := s.objects.erase o }
      else .error .object

/-- `delete count_`. -/
def deleteCount (k : ℕ) (s : PtrHeap) : Except Misuse PtrHeap :=
  match s.count k with
  | none => .error .counter
  | some _ => .ok (s.setCount k none)

/-- `if (count_) { if (--(*count_) == 0) { delete data_; delete count_; } }`.  Each nested deletion takes
an object away, so the number of objects is enough fuel. -/
def release : ℕ → SharedPointer → PtrHeap → Except Misuse PtrHeap
  | 0, _, _ => .error .outOfFuel
  | fuel + 1, p, s =>
      match p.count with
      | none => .ok s
      | some k =>
          match s.count k with
          | none => .error .counter
          | some n =>
              let s := s.setCount k (some (n - 1))
              if n - 1 = 0 then do
                let s ← deleteObject (release fuel) p.data s
                s.deleteCount k
              else .ok s

/-- The release that the members of `SharedPointer` start with. -/
def releaseAll (p : SharedPointer) (s : PtrHeap) : Except Misuse PtrHeap :=
  release (s.objects.card + 1) p s

/-- What a program does with `SharedPointer`s. -/
inductive PtrOp
  /-- `new T`, with that many members -/
  | new (o members : ℕ)
  /-- `SharedPointer(p)` -/
  | fromRaw (c : PtrPlace) (p : Option ℕ)
  /-- `SharedPointer(const SharedPointer&)` -/
  | copy (c other : PtrPlace)
  /-- `SharedPointer(SharedPointer&&)` -/
  | move (c other : PtrPlace)
  /-- `operator=(const SharedPointer&)` -/
  | assign (c other : PtrPlace)
  /-- `operator=(SharedPointer&&)` -/
  | moveAssign (c other : PtrPlace)
  | reset (c : PtrPlace) (p : Option ℕ)
  /-- `~SharedPointer`, of a variable -/
  | destroy (c : PtrPlace)

def step (s : PtrHeap) : PtrOp → Except Misuse PtrHeap
  | .new o members =>
      .ok { s with
        objects := insert o s.objects, born := insert o s.born,
        members := Function.update s.members o members }
  | .fromRaw c p =>
      let (ptr, s) := s.newCount p
      .ok (s.construct c ptr)
  | .copy c other => do
      let ptr ← s.read other
      (s.construct c ptr).acquire ptr
  | .move c other => do
      let ptr ← s.read other
      (s.construct c ptr).write other {}
  | .assign c other => do
      let this ← s.read c
      let s ← s.releaseAll this
      let ptr ← s.read other
      let s ← s.write c ptr
      s.acquire ptr
  | .moveAssign c other =>
      if c = other then .ok s
      else do
        let this ← s.read c
        let s ← s.releaseAll this
        let ptr ← s.read other
        let s ← s.write c ptr
        s.write other {}
  | .reset c p => do
      let this ← s.read c
      if p = this.data then .ok s
      else do
        let s ← s.releaseAll this
        let (ptr, s) := s.newCount p
        s.write c ptr
  | .destroy c => do
      let this ← s.read c
      let s ← s.releaseAll this
      .ok { s with places := s.places.erase c }

/-- There is room for a new `SharedPointer` at the place. -/
def Free (s : PtrHeap) (c : PtrPlace) : Prop :=
  c ∉ s.places ∧ ∀ o i, c = .field o i → o ∈ s.objects ∧ i < s.members o

/-- A raw pointer that may be given to a `SharedPointer`. -/
def Givable (s : PtrHeap) (p : Option ℕ) : Prop := ∀ o, p = some o → o ∈ s.objects ∧ o ∉ s.given

/-- What the language asks of a program: it uses only what it has made, gives each raw pointer once, and
leaves the members of objects to the objects. -/
def Legal (s : PtrHeap) : PtrOp → Prop
  | .new o _ => o ∉ s.born
  | .fromRaw c p => s.Free c ∧ s.Givable p
  | .copy c other | .move c other => s.Free c ∧ other ∈ s.places
  | .assign c other | .moveAssign c other => c ∈ s.places ∧ other ∈ s.places
  | .reset c p => c ∈ s.places ∧ s.Givable p
  | .destroy c => c ∈ s.places ∧ ∃ n, c = .var n

end PtrHeap

end BrebOS

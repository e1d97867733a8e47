import BrebOS.Lib.Linked
import BrebOS.Lib.Loop

/-!
# `list<E>`

The singly linked list of `utils/list.hxx`.  A node is known by its number, which `new` never gives twice,
so a read through a pointer to a deleted node is seen.  A loop over the nodes that makes more turns than
there have ever been nodes does not end.  The counter `s` cannot overflow: memory does not hold so many nodes.
-/

namespace BrebOS

/-- What a function of a list must never do. -/
inductive ListFault
  /-- A null pointer is followed. -/
  | nullPointer
  /-- A deleted node is read. -/
  | deleted
  /-- A loop that does not come to an end. -/
  | endless
  deriving DecidableEq, Repr

/-- `list<E>::Node`. -/
structure ListNode (E : Type) where
  value : E
  next : Option ℕ
  deriving DecidableEq, Repr

/-- The nodes that exist. -/
abbrev NodeHeap (E : Type) := ℕ → Option (ListNode E)

/-- `list<E>`, with the nodes and the number of the next one. -/
structure LinkedList (E : Type) where
  head : Option ℕ := none
  s : ℤ := 0
  heap : NodeHeap E := fun _ => none
  fresh : ℕ := 0

namespace NodeHeap

variable {E : Type}

/-- A pointer is followed. -/
def deref (heap : NodeHeap E) : Option ℕ → Except ListFault (ListNode E)
  | none => .error .nullPointer
  | some a =>
      match heap a with
      | none => .error .deleted
      | some node => .ok node

/-- `p->next = next`. -/
def setNext (p next : Option ℕ) (heap : NodeHeap E) : Except ListFault (NodeHeap E) := do
  let node ← heap.deref p
  match p with
  | none => .error .nullPointer
  | some a => return Function.update heap a (some { node with next := next })

/-- `delete`. -/
def delete (a : ℕ) (heap : NodeHeap E) : NodeHeap E := Function.update heap a none

/-- The loop of `add`: the last node. -/
def lastFrom (heap : NodeHeap E) : ℕ → ℕ → Except ListFault ℕ
  | 0, _ => .error .endless
  | turns + 1, current => do
      let node ← heap.deref (some current)
      match node.next with
      | none => return current
      | some next => lastFrom heap turns next

/-- The loop of `remove`: the first node with the value, and the one before. -/
def findFrom [BEq E] (heap : NodeHeap E) (e : E) :
    ℕ → Option ℕ → ℕ → Except ListFault (Option (Option ℕ × ℕ))
  | 0, _, _ => .error .endless
  | turns + 1, prev, current => do
      let node ← heap.deref (some current)
      if node.value == e then return some (prev, current)
      else
        match node.next with
        | none => return none
        | some next => findFrom heap e turns (some current) next

/-- The loop of `removeLast`: the last node but one, and what comes after it. -/
def lastTwoFrom (heap : NodeHeap E) : ℕ → ℕ → Except ListFault (ℕ × Option ℕ)
  | 0, _ => .error .endless
  | turns + 1, prev => do
      let node ← heap.deref (some prev)
      let current ← heap.deref node.next
      match current.next, node.next with
      | some _, some next => lastTwoFrom heap turns next
      | _, current => return (prev, current)

/-- The loop of `reverse`. -/
def reverseFrom : ℕ → ℕ → Option ℕ → NodeHeap E → Except ListFault (NodeHeap E × Option ℕ)
  | 0, _, _, _ => .error .endless
  | turns + 1, current, newNext, heap => do
      let node ← heap.deref (some current)
      let heap ← heap.setNext (some current) newNext
      match node.next with
      | none => return (heap, some current)
      | some next => reverseFrom turns next (some current) heap

/-- The loop of `clear`. -/
def clearFrom : ℕ → Option ℕ → NodeHeap E → Except ListFault (NodeHeap E)
  | _, none, heap => .ok heap
  | 0, some _, _ => .error .endless
  | turns + 1, some current, heap => do
      let node ← heap.deref (some current)
      clearFrom turns node.next (heap.delete current)

/-- The loop of `get`. -/
def nthFrom (heap : NodeHeap E) : ℕ → Option ℕ → Except ListFault (Option ℕ)
  | 0, current => .ok current
  | index + 1, current => do
      let node ← heap.deref current
      nthFrom heap index node.next

/-- The loop of `add` with an index. -/
def walkFrom (heap : NodeHeap E) : ℕ → ℕ → Except ListFault (Option ℕ)
  | 0, current => .ok (some current)
  | index + 1, current => do
      let node ← heap.deref (some current)
      match node.next with
      | none => return none
      | some next => walkFrom heap index next

/-- The loop of `contains`. -/
def containsFrom [BEq E] (heap : NodeHeap E) (e : E) : ℕ → Option ℕ → Except ListFault Bool
  | _, none => .ok false
  | 0, some _ => .error .endless
  | turns + 1, some current => do
      let node ← heap.deref (some current)
      if node.value == e then return true else containsFrom heap e turns node.next

end NodeHeap

namespace LinkedList

variable {E : Type}

/-- `new Node(e)`. -/
def newNode (e : E) (l : LinkedList E) : ℕ × LinkedList E :=
  (l.fresh, { l with
    heap := Function.update l.heap l.fresh (some ⟨e, none⟩)
    fresh := l.fresh + 1 })

/-- `list::add`, of a node. -/
def addNode (newNode : ℕ) (l : LinkedList E) : Except ListFault (LinkedList E) :=
  match l.head with
  | none => .ok { l with head := some newNode, s := l.s + 1 }
  | some head => do
      let tmp ← l.heap.lastFrom l.fresh head
      let heap ← l.heap.setNext (some tmp) (some newNode)
      return { l with heap := heap, s := l.s + 1 }

/-- `list::add`. -/
def add (e : E) (l : LinkedList E) : Except ListFault (LinkedList E) :=
  let (newNode, l) := l.newNode e
  l.addNode newNode

/-- `list::addLast`. -/
def addLast (e : E) (l : LinkedList E) : Except ListFault (LinkedList E) := l.add e

/-- `list::addFirst`. -/
def addFirst (e : E) (l : LinkedList E) : Except ListFault (LinkedList E) :=
  let (newNode, l) := l.newNode e
  match l.head with
  | none => .ok { l with head := some newNode, s := l.s + 1 }
  | some head => do
      let heap ← l.heap.setNext (some newNode) (some head)
      return { l with heap := heap, head := some newNode, s := l.s + 1 }

/-- `list::add`, with an index. -/
def addAt (index : ℤ) (e : E) (l : LinkedList E) : Except ListFault (Bool × LinkedList E) :=
  if index < 0 ∨ index > l.s then .ok (false, l)
  else if index = 0 then (l.addFirst e).map (true, ·)
  else if index = l.s then (l.addLast e).map (true, ·)
  else
    let (newNode, l) := l.newNode e
    match l.head with
    | none => .error .nullPointer
    | some head => do
        let current ← l.heap.walkFrom index.toNat head
        let node ← l.heap.deref current
        let heap ← l.heap.setNext (some newNode) node.next
        let heap ← heap.setNext current (some newNode)
        return (true, { l with heap := heap, s := l.s + 1 })

/-- `list::remove`. -/
def remove [BEq E] (e : E) (l : LinkedList E) : Except ListFault (Bool × LinkedList E) :=
  match l.head with
  | none => .ok (false, l)
  | some head => do
      match ← l.heap.findFrom e l.fresh none head with
      | none => return (false, l)
      | some (prev, current) =>
          let node ← l.heap.deref (some current)
          if current = head then
            return (true, { l with head := node.next, heap := l.heap.delete current, s := l.s - 1 })
          else
            match node.next with
            | none =>
                let heap ← l.heap.setNext prev none
                return (true, { l with heap := heap.delete current, s := l.s - 1 })
            | some next =>
                let heap ← l.heap.setNext prev (some next)
                return (true, { l with heap := heap.delete current, s := l.s - 1 })

/-- `list::removeFirst`. -/
def removeFirst (l : LinkedList E) : Except ListFault (Bool × LinkedList E) :=
  match l.head with
  | none => .ok (false, l)
  | some tmp => do
      let node ← l.heap.deref (some tmp)
      return (true, { l with head := node.next, heap := l.heap.delete tmp, s := l.s - 1 })

/-- `list::removeLast`. -/
def removeLast (l : LinkedList E) : Except ListFault (Bool × LinkedList E) :=
  match l.head with
  | none => .ok (false, l)
  | some head => do
      let (prev, current) ← l.heap.lastTwoFrom l.fresh head
      let heap ← l.heap.setNext (some prev) none
      match current with
      | none => throw .nullPointer
      | some current => return (true, { l with heap := heap.delete current, s := l.s - 1 })

/-- `list::reverse`. -/
def reverse (l : LinkedList E) : Except ListFault (LinkedList E) :=
  match l.head with
  | none => .ok l
  | some head => do
      let (heap, newNext) ← l.heap.reverseFrom l.fresh head none
      return { l with heap := heap, head := newNext }

/-- `list::clear`. -/
def clear (l : LinkedList E) : Except ListFault (LinkedList E) := do
  let heap ← l.heap.clearFrom l.fresh l.head
  return { l with heap := heap, head := none, s := 0 }

/-- `list::get`: the value that the pointer it returns points to. -/
def get (index : ℤ) (l : LinkedList E) : Except ListFault (Option E) :=
  if index < 0 ∨ index ≥ l.s then .ok none
  else do
    let current ← l.heap.nthFrom index.toNat l.head
    let node ← l.heap.deref current
    return some node.value

/-- `list::contains`. -/
def contains [BEq E] (e : E) (l : LinkedList E) : Except ListFault Bool :=
  l.heap.containsFrom e l.fresh l.head

/-- A call of a member of `list`. -/
inductive Call (E : Type)
  | add (e : E)
  | addFirst (e : E)
  | addLast (e : E)
  | addAt (index : ℤ) (e : E)
  | remove (e : E)
  | removeFirst
  | removeLast
  | reverse
  | clear
  | get (index : ℤ)
  | contains (e : E)
  | size

/-- What a call returns. -/
inductive Answer (E : Type)
  | nothing
  | bool (b : Bool)
  | element (e : Option E)
  | number (n : ℤ)

/-- A call is made. -/
def step [BEq E] (l : LinkedList E) : Call E → Except ListFault (Answer E × LinkedList E)
  | .add e => (l.add e).map (.nothing, ·)
  | .addFirst e => (l.addFirst e).map (.nothing, ·)
  | .addLast e => (l.addLast e).map (.nothing, ·)
  | .addAt index e => (l.addAt index e).map fun (b, l) => (.bool b, l)
  | .remove e => (l.remove e).map fun (b, l) => (.bool b, l)
  | .removeFirst => l.removeFirst.map fun (b, l) => (.bool b, l)
  | .removeLast => l.removeLast.map fun (b, l) => (.bool b, l)
  | .reverse => l.reverse.map (.nothing, ·)
  | .clear => l.clear.map (.nothing, ·)
  | .get index => (l.get index).map (.element ·, l)
  | .contains e => (l.contains e).map (.bool ·, l)
  | .size => .ok (.number l.s, l)

end LinkedList

end BrebOS

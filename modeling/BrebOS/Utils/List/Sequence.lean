import BrebOS.Utils.List
import Mathlib.Data.List.TakeWhile

/-!
# Lists are sequences

What each member of `list` does to the sequence of the values that are met from `head` on.  All of them do
what they should but two: `removeLast` of a list of one element follows a null pointer, and `add` with an
index that is neither the first nor the last one puts the element one place too far.
-/

namespace BrebOS

namespace NodeHeap

variable {E : Type} {heap : NodeHeap E} {a b : ℕ} {e : E} {p : Option ℕ}

/-- The value of a node. -/
def valueAt (heap : NodeHeap E) (a : ℕ) : Option E := (heap a).map ListNode.value

/-- The next pointer of a node. -/
def nextAt (heap : NodeHeap E) (a : ℕ) : Option ℕ := (heap a).bind ListNode.next

lemma deref_ok (h : heap.valueAt a = some e) : heap.deref (some a) = .ok ⟨e, heap.nextAt a⟩ := by
  obtain ⟨node, hnode, rfl⟩ := Option.map_eq_some_iff.mp h
  simp [deref, nextAt, hnode]

lemma valueAt_update (node : Option (ListNode E)) : valueAt (Function.update heap a node) =
    Function.update heap.valueAt a (node.map ListNode.value) := by
  funext b
  rcases eq_or_ne b a with rfl | h <;> simp [valueAt, *]

lemma nextAt_update (node : Option (ListNode E)) : nextAt (Function.update heap a node) =
    Function.update heap.nextAt a (node.bind ListNode.next) := by
  funext b
  rcases eq_or_ne b a with rfl | h <;> simp [nextAt, *]

lemma setNext_ok (h : heap.valueAt a = some e) (p : Option ℕ) :
    ∃ heap', heap.setNext (some a) p = .ok heap' ∧ heap'.valueAt = heap.valueAt ∧
      heap'.nextAt = Function.update heap.nextAt a p := by
  refine ⟨_, bind_eq_ok.mpr ⟨_, deref_ok h, rfl⟩, ?_, ?_⟩
  · rw [valueAt_update]
    exact (congrArg _ h.symm).trans (Function.update_eq_self a _)
  · exact nextAt_update _

end NodeHeap

namespace LinkedList

open NodeHeap

variable {E : Type} {heap : NodeHeap E} {as : List ℕ} {a n : ℕ} {l : LinkedList E} {es : List E} {e : E}

/-- The nodes are there and have these values. -/
def Values (heap : NodeHeap E) (as : List ℕ) (es : List E) : Prop :=
  as.map heap.valueAt = es.map some

lemma values_cons : Values heap (a :: as) (e :: es) ↔ heap.valueAt a = some e ∧ Values heap as es := by
  simp [Values]

lemma Values.length_eq (h : Values heap as es) : as.length = es.length := by
  simpa using congrArg List.length h

lemma Values.exists_cons (h : Values heap (a :: as) es) :
    ∃ e es', es = e :: es' ∧ heap.valueAt a = some e ∧ Values heap as es' := by
  rcases es with _ | ⟨e, es⟩
  · cases h
  · exact ⟨e, es, rfl, values_cons.mp h⟩

lemma Values.congr {heap' : NodeHeap E} (h : Values heap as es)
    (heq : ∀ a ∈ as, heap'.valueAt a = heap.valueAt a) : Values heap' as es :=
  (List.map_congr_left heq).trans h

lemma Values.append {as' : List ℕ} {es' : List E} (h : Values heap as es) (h' : Values heap as' es') :
    Values heap (as ++ as') (es ++ es') := by
  rw [Values, List.map_append, List.map_append, h, h']

lemma Values.split {es' : List E} (h : Values heap as (es ++ es')) :
    ∃ as₁ as₂, as = as₁ ++ as₂ ∧ Values heap as₁ es ∧ Values heap as₂ es' := by
  rw [Values, List.map_append] at h
  exact List.map_eq_append_iff.mp h

lemma Values.exists_value (h : Values heap as es) (ha : a ∈ as) : ∃ e, heap.valueAt a = some e := by
  have hmem : heap.valueAt a ∈ es.map some := by
    rw [← h]
    exact List.mem_map_of_mem ha
  obtain ⟨e, -, he⟩ := List.mem_map.mp hmem
  exact ⟨e, he.symm⟩

/-- The values of the nodes that are met from the head on are this sequence. -/
structure Holds (l : LinkedList E) (as : List ℕ) (es : List E) : Prop where
  linked : Linked l.heap.nextAt l.head as
  values : Values l.heap as es
  below : ∀ a ∈ as, a < l.fresh
  size : l.s = es.length

lemma Holds.nodup (h : Holds l as es) : as.Nodup := h.linked.nodup

lemma Holds.length_le (h : Holds l as es) : as.length ≤ l.fresh := by
  have hsub : as.toFinset ⊆ Finset.range l.fresh := by
    intro a ha
    simpa using h.below a (by simpa using ha)
  have hcard := Finset.card_le_card hsub
  rwa [List.toFinset_card_of_nodup h.nodup, Finset.card_range] at hcard

lemma Holds.exists_head (h : Holds l as es) (hne : as ≠ []) : ∃ head, l.head = some head := by
  rcases hhd : l.head with _ | head
  · exact absurd (hhd ▸ h.linked).eq_nil hne
  · exact ⟨head, rfl⟩

lemma Holds.nil_of_head (h : Holds l as es) (hhd : l.head = none) : as = [] ∧ es = [] := by
  obtain rfl := (hhd ▸ h.linked).eq_nil
  exact ⟨rfl, List.length_eq_zero_iff.mp h.values.length_eq.symm⟩

lemma Holds.cons_of_head (h : Holds l as es) {head : ℕ} (hhd : l.head = some head) :
    ∃ rest e es', as = head :: rest ∧ es = e :: es' ∧ l.heap.valueAt head = some e ∧
      Linked l.heap.nextAt (l.heap.nextAt head) rest ∧ Values l.heap rest es' := by
  obtain ⟨rest, rfl, hrest⟩ := (hhd ▸ h.linked).eq_cons
  obtain ⟨e, es', rfl, he, hvals⟩ := h.values.exists_cons
  exact ⟨rest, e, es', rfl, rfl, he, hrest, hvals⟩

/-! ## New nodes -/

lemma Holds.newNode (h : Holds l as es) (e : E) : ∃ l', l.newNode e = (l.fresh, l') ∧ l'.head = l.head ∧
    l'.s = l.s ∧ l'.fresh = l.fresh + 1 ∧ l.fresh ∉ as ∧ Linked l'.heap.nextAt l.head as ∧
    Values l'.heap as es ∧ l'.heap.valueAt l.fresh = some e ∧ l'.heap.nextAt l.fresh = none := by
  have hnew : l.fresh ∉ as := fun hmem => absurd (h.below _ hmem) (lt_irrefl _)
  refine ⟨_, rfl, rfl, rfl, rfl, hnew, ?_, ?_, ?_, ?_⟩
  · rw [nextAt_update]
    exact h.linked.update hnew _
  · refine h.values.congr fun a ha => ?_
    rw [valueAt_update, Function.update_of_ne (fun heq => hnew (by rwa [← heq]))]
  · simp [valueAt]
  · simp [nextAt]

lemma lastFrom_ok {z : ℕ} : ∀ {before : List ℕ} {head n : ℕ} {es : List E},
    Linked heap.nextAt (some head) (before ++ [z]) → Values heap (before ++ [z]) es →
    before.length < n → heap.lastFrom n head = .ok z := by
  intro before
  induction before with
  | nil =>
    intro head n es hlink hval hn
    obtain ⟨e, es, rfl, hz, -⟩ := hval.exists_cons
    obtain ⟨rfl, hnext⟩ : head = z ∧ heap.nextAt z = none := by simpa using hlink
    cases n with
    | zero => exact absurd hn (Nat.not_lt_zero _)
    | succ n =>
      rw [lastFrom, deref_ok hz, hnext]
      rfl
  | cons b before ih =>
    intro head n es hlink hval hn
    obtain ⟨e, es, rfl, hb, hval'⟩ := hval.exists_cons
    obtain ⟨hhead, hlink'⟩ := hlink
    obtain rfl := Option.some.inj hhead
    rcases hnext : heap.nextAt head with _ | next
    · rw [hnext] at hlink'
      exact absurd hlink'.eq_nil (by simp)
    · rw [hnext] at hlink'
      cases n with
      | zero => exact absurd hn (Nat.not_lt_zero _)
      | succ n =>
        rw [lastFrom, deref_ok hb, hnext]
        exact ih hlink' hval' (Nat.lt_of_succ_lt_succ hn)

lemma Holds.add (h : Holds l as es) (e : E) :
    ∃ l' as', l.add e = .ok l' ∧ Holds l' as' (es ++ [e]) := by
  obtain ⟨l', hrun, hhead, hs, hfresh, hnew, hlink, hval, hvalue, hnext⟩ := h.newNode e
  have hbelow : ∀ b ∈ as ++ [l.fresh], b < l'.fresh := by
    intro b hb
    rw [hfresh]
    rcases List.mem_append.mp hb with hb | hb
    · exact Nat.lt_succ_of_lt (h.below b hb)
    · rw [List.mem_singleton.mp hb]
      exact Nat.lt_succ_self _
  have hsize : l'.s + 1 = ((es ++ [e]).length : ℤ) := by
    rw [hs, h.size]
    simp
  have hadd : l.add e = l'.addNode l.fresh := by
    rw [LinkedList.add, hrun]
  rcases List.eq_nil_or_concat' as with rfl | ⟨before, tmp, rfl⟩
  · obtain rfl : es = [] := List.length_eq_zero_iff.mp h.values.length_eq.symm
    have hnone : l'.head = none := hhead.trans h.linked
    refine ⟨{ l' with head := some l.fresh, s := l'.s + 1 }, [l.fresh], ?_, ⟨rfl, hnext⟩,
      values_cons.mpr ⟨hvalue, rfl⟩, hbelow, hsize⟩
    simp [hadd, addNode, hnone]
  · obtain ⟨head, hhd⟩ := h.exists_head (by simp)
    rw [hhd] at hlink
    have hle := h.length_le
    rw [List.length_append, List.length_singleton] at hle
    have hlast := lastFrom_ok (n := l'.fresh) hlink hval (by omega)
    obtain ⟨v, hv⟩ := hval.exists_value (a := tmp) (by simp)
    obtain ⟨heap', hset, hvals, hnexts⟩ := setNext_ok hv (some l.fresh)
    have hne : l.fresh ≠ tmp := fun heq => hnew (by simp [heq])
    have hends : Linked heap'.nextAt (some tmp) [tmp, l.fresh] := by
      rw [hnexts]
      exact ⟨rfl, Function.update_self .., by rw [Function.update_of_ne hne]; exact hnext⟩
    have hlink' : Linked heap'.nextAt (some head) (before ++ [tmp, l.fresh]) := by
      refine hlink.append hends fun b hb => ?_
      have hbt : b ≠ tmp := by
        rintro rfl
        exact (List.nodup_append.mp hlink.nodup).2.2 b hb b (by simp) rfl
      rw [hnexts, Function.update_of_ne hbt]
    refine ⟨{ l' with heap := heap', s := l'.s + 1 }, before ++ [tmp, l.fresh], ?_, ?_, ?_, ?_, hsize⟩
    · simp [hadd, addNode, hhead, hhd, hlast, hset, bind, Except.bind, pure, Except.pure]
    · exact (hhead.trans hhd).symm ▸ hlink'
    · have hall := hval.append (values_cons.mpr ⟨hvalue, rfl⟩ : Values l'.heap [l.fresh] [e])
      rw [List.append_assoc] at hall
      exact hall.congr fun b _ => congrFun hvals b
    · simpa using hbelow

lemma Holds.addFirst (h : Holds l as es) (e : E) :
    ∃ l' as', l.addFirst e = .ok l' ∧ Holds l' as' (e :: es) := by
  obtain ⟨l', hrun, hhead, hs, hfresh, hnew, hlink, hval, hvalue, hnext⟩ := h.newNode e
  have hbelow : ∀ b ∈ l.fresh :: as, b < l'.fresh := by
    intro b hb
    rw [hfresh]
    rcases List.mem_cons.mp hb with rfl | hb
    · exact Nat.lt_succ_self _
    · exact Nat.lt_succ_of_lt (h.below b hb)
  have hsize : l'.s + 1 = ((e :: es).length : ℤ) := by
    rw [hs, h.size]
    simp
  rcases hhd : l.head with _ | head
  · obtain ⟨rfl, rfl⟩ := h.nil_of_head hhd
    refine ⟨{ l' with head := some l.fresh, s := l'.s + 1 }, [l.fresh], ?_, ⟨rfl, hnext⟩,
      values_cons.mpr ⟨hvalue, rfl⟩, hbelow, hsize⟩
    simp [LinkedList.addFirst, hrun, hhead, hhd]
  · obtain ⟨heap', hset, hvals, hnexts⟩ := setNext_ok hvalue (some head)
    refine ⟨{ l' with heap := heap', head := some l.fresh, s := l'.s + 1 }, l.fresh :: as, ?_, ?_, ?_,
      hbelow, hsize⟩
    · simp [LinkedList.addFirst, hrun, hhead, hhd, hset, bind, Except.bind, pure, Except.pure]
    · show Linked heap'.nextAt _ _
      rw [hnexts]
      rw [hhd] at hlink
      exact hlink.push hnew
    · exact (values_cons.mpr ⟨hvalue, hval⟩ : Values l'.heap (l.fresh :: as) (e :: es)).congr
        fun b _ => congrFun hvals b

/-! ## Nodes that are deleted -/

lemma Values.delete (h : Values heap as es) (ha : a ∉ as) : Values (heap.delete a) as es := by
  refine h.congr fun b hb => ?_
  rw [NodeHeap.delete, valueAt_update, Function.update_of_ne fun heq => ha (by rwa [← heq])]

lemma Linked.delete {head : Option ℕ} (h : Linked heap.nextAt head as) (ha : a ∉ as) :
    Linked (heap.delete a).nextAt head as := by
  rw [NodeHeap.delete, nextAt_update]
  exact h.update ha _

lemma Holds.removeFirst (h : Holds l as es) :
    ∃ l' as', l.removeFirst = .ok (!es.isEmpty, l') ∧ Holds l' as' es.tail := by
  rcases hhd : l.head with _ | head
  · obtain ⟨rfl, rfl⟩ := h.nil_of_head hhd
    exact ⟨l, [], by simp [LinkedList.removeFirst, hhd], h⟩
  · obtain ⟨rest, e, es, rfl, rfl, he, hlink, hvals⟩ := h.cons_of_head hhd
    obtain ⟨hnot, -⟩ := List.nodup_cons.mp h.nodup
    refine ⟨{ l with head := l.heap.nextAt head, heap := l.heap.delete head, s := l.s - 1 }, rest, ?_,
      Linked.delete hlink hnot, hvals.delete hnot, fun b hb => h.below b (List.mem_cons_of_mem _ hb), ?_⟩
    · simp [LinkedList.removeFirst, hhd, deref_ok he, bind, Except.bind, pure, Except.pure]
    · show l.s - 1 = _
      rw [h.size]
      simp

lemma clearFrom_ok : ∀ {as : List ℕ} {heap : NodeHeap E} {head : Option ℕ} {n : ℕ} {es : List E},
    Linked heap.nextAt head as → Values heap as es → as.length ≤ n →
    ∃ heap', heap.clearFrom n head = .ok heap' := by
  intro as
  induction as with
  | nil =>
    intro heap head n es hlink _ _
    obtain rfl : head = none := hlink
    exact ⟨heap, by cases n <;> rfl⟩
  | cons a as ih =>
    intro heap head n es hlink hval hn
    obtain ⟨e, es, rfl, ha, hval'⟩ := hval.exists_cons
    obtain ⟨hnot, -⟩ := List.nodup_cons.mp hlink.nodup
    obtain ⟨rfl, hlink'⟩ := hlink
    cases n with
    | zero => exact absurd hn (Nat.not_succ_le_zero _)
    | succ n =>
      rw [clearFrom, deref_ok ha]
      exact ih (Linked.delete hlink' hnot) (hval'.delete hnot) (Nat.le_of_succ_le_succ hn)

lemma Holds.clear (h : Holds l as es) : ∃ l', l.clear = .ok l' ∧ Holds l' [] ([] : List E) := by
  obtain ⟨heap', hrun⟩ := clearFrom_ok h.linked h.values h.length_le
  refine ⟨{ l with heap := heap', head := none, s := 0 }, ?_, rfl, rfl, by simp, rfl⟩
  exact bind_eq_ok.mpr ⟨_, hrun, rfl⟩

lemma unlink {as₁ as₂ : List ℕ} {b head : ℕ} (hlink : Linked heap.nextAt (some head) (as₁ ++ b :: a :: as₂))
    (hval : Values heap (as₁ ++ b :: a :: as₂) es) : ∃ heap',
    heap.setNext (some b) (heap.nextAt a) = .ok heap' ∧
    Linked (heap'.delete a).nextAt (some head) (as₁ ++ b :: as₂) ∧
    (heap'.delete a).valueAt = Function.update heap.valueAt a none := by
  obtain ⟨v, hv⟩ := hval.exists_value (a := b) (by simp)
  obtain ⟨heap', hset, hvals, hnexts⟩ := setNext_ok hv (heap.nextAt a)
  refine ⟨heap', hset, ?_, ?_⟩
  · have hnodup := List.nodup_append.mp hlink.nodup
    obtain ⟨hb, hnodup₂⟩ := List.nodup_cons.mp hnodup.2.1
    obtain ⟨ha, -⟩ := List.nodup_cons.mp hnodup₂
    have hba : b ≠ a := fun heq => hb (by simp [heq])
    have hother : ∀ c, c ≠ a → c ≠ b → (heap'.delete a).nextAt c = heap.nextAt c := by
      intro c hca hcb
      rw [NodeHeap.delete, nextAt_update, Function.update_of_ne hca, hnexts, Function.update_of_ne hcb]
    have hbnext : (heap'.delete a).nextAt b = heap.nextAt a := by
      rw [NodeHeap.delete, nextAt_update, Function.update_of_ne hba, hnexts, Function.update_self]
    have hrest : Linked heap.nextAt (heap.nextAt a) as₂ := hlink.of_append.2.2
    refine hlink.append (show Linked _ _ (b :: as₂) from ⟨rfl, ?_⟩) fun c hc => hother c ?_ ?_
    · rw [hbnext]
      refine hrest.congr fun c hc => hother c ?_ ?_
      · exact fun heq => ha (heq ▸ hc)
      · exact fun heq => hb (List.mem_cons_of_mem _ (heq ▸ hc))
    · exact hnodup.2.2 c hc a (by simp)
    · exact hnodup.2.2 c hc b (by simp)
  · rw [NodeHeap.delete, valueAt_update, hvals]
    rfl

lemma lastTwoFrom_ok {b z : ℕ} : ∀ {before : List ℕ} {head n : ℕ} {es : List E},
    Linked heap.nextAt (some head) (before ++ [b, z]) → Values heap (before ++ [b, z]) es →
    before.length < n → heap.lastTwoFrom n head = .ok (b, some z) := by
  intro before
  induction before with
  | nil =>
    intro head n es hlink hval hn
    obtain ⟨e, es, rfl, hb, hval⟩ := hval.exists_cons
    obtain ⟨e', es, rfl, hz, -⟩ := hval.exists_cons
    obtain ⟨rfl, hnext, hend⟩ : head = b ∧ heap.nextAt b = some z ∧ heap.nextAt z = none := by
      simpa using hlink
    cases n with
    | zero => exact absurd hn (Nat.not_lt_zero _)
    | succ n =>
      rw [lastTwoFrom, deref_ok hb, hnext]
      refine bind_eq_ok.mpr ⟨_, rfl, bind_eq_ok.mpr ⟨_, deref_ok hz, ?_⟩⟩
      rw [hend]
      rfl
  | cons c before ih =>
    intro head n es hlink hval hn
    obtain ⟨e, es, rfl, hc, hval'⟩ := hval.exists_cons
    obtain ⟨hhead, hlink'⟩ := hlink
    obtain rfl := Option.some.inj hhead
    rcases hnext : heap.nextAt head with _ | next
    · rw [hnext] at hlink'
      exact absurd hlink'.eq_nil (by simp)
    · rw [hnext] at hlink'
      cases n with
      | zero => exact absurd hn (Nat.not_lt_zero _)
      | succ n =>
        have hgoes : ∃ e' next', heap.valueAt next = some e' ∧ heap.nextAt next = some next' := by
          rcases before with _ | ⟨d, before⟩
          · obtain ⟨rfl, hnext', -⟩ : next = b ∧ heap.nextAt b = some z ∧ heap.nextAt z = none := by
              simpa using hlink'
            obtain ⟨e', he'⟩ := hval'.exists_value (a := next) (by simp)
            exact ⟨e', z, he', hnext'⟩
          · obtain ⟨hd, hlink''⟩ := hlink'
            obtain rfl := Option.some.inj hd
            obtain ⟨e', he'⟩ := hval'.exists_value (a := next) (by simp)
            rcases hnext' : heap.nextAt next with _ | next'
            · rw [hnext'] at hlink''
              exact absurd hlink''.eq_nil (by simp)
            · exact ⟨e', next', he', rfl⟩
        obtain ⟨e', next', he', hnext'⟩ := hgoes
        have hrest := ih hlink' hval' (Nat.lt_of_succ_lt_succ hn)
        rw [lastTwoFrom, deref_ok hc, hnext]
        refine bind_eq_ok.mpr ⟨_, rfl, bind_eq_ok.mpr ⟨_, deref_ok he', ?_⟩⟩
        rw [hnext']
        exact hrest

lemma Holds.removeLast {e' : E} (h : Holds l as (es ++ [e, e'])) :
    ∃ l' as', l.removeLast = .ok (true, l') ∧ Holds l' as' (es ++ [e]) := by
  obtain ⟨before, bz, rfl, hbefore, hbz⟩ := h.values.split
  obtain ⟨b, z, rfl⟩ := List.length_eq_two.mp (hbz.length_eq.trans rfl)
  obtain ⟨hb, -⟩ := values_cons.mp hbz
  obtain ⟨head, hhd⟩ := h.exists_head (by simp)
  have hlink := h.linked
  rw [hhd] at hlink
  have hle := h.length_le
  simp only [List.length_append, List.length_cons, List.length_nil] at hle
  have hloop := lastTwoFrom_ok (n := l.fresh) hlink h.values (by omega)
  obtain ⟨heap', hset, hlink', hvals⟩ := unlink hlink h.values
  have hnodup := h.nodup
  have hend : l.heap.nextAt z = none := by
    have := hlink.of_append
    simpa using this.2.2
  rw [hend] at hset
  refine ⟨{ l with heap := heap'.delete z, s := l.s - 1 }, before ++ [b], ?_, ?_, ?_, ?_, ?_⟩
  · simp [LinkedList.removeLast, hhd, hloop, hset, bind, Except.bind, pure, Except.pure]
  · exact hhd ▸ hlink'
  · have hkept : Values l.heap (before ++ [b]) (es ++ [e]) := hbefore.append (values_cons.mpr ⟨hb, rfl⟩)
    refine hkept.congr fun c hc => ?_
    have hne : c ≠ z := by
      rintro rfl
      rw [show before ++ [b, c] = (before ++ [b]) ++ [c] by simp] at hnodup
      exact (List.nodup_append.mp hnodup).2.2 c hc c (by simp) rfl
    rw [hvals, Function.update_of_ne hne]
  · intro c hc
    exact h.below c (by simp only [List.mem_append, List.mem_cons] at hc ⊢; tauto)
  · show l.s - 1 = _
    rw [h.size]
    simp only [List.length_append, List.length_cons, List.length_nil]
    omega

lemma Holds.removeLast_single (h : Holds l as [e]) : l.removeLast = .error .nullPointer := by
  obtain ⟨head, hhd⟩ := h.exists_head (by rintro rfl; cases h.values)
  obtain ⟨rest, e', es', rfl, heq, he, hlink, hvals⟩ := h.cons_of_head hhd
  obtain ⟨-, rfl⟩ := List.cons.inj heq
  obtain rfl := List.length_eq_zero_iff.mp hvals.length_eq
  have hle := h.length_le
  obtain ⟨n, hn⟩ : ∃ n, l.fresh = n + 1 := ⟨l.fresh - 1, by simp at hle; omega⟩
  have hnext : l.heap.nextAt head = none := hlink
  have hloop : l.heap.lastTwoFrom (n + 1) head = .error .nullPointer := by
    rw [lastTwoFrom, deref_ok he, hnext]
    rfl
  simp [LinkedList.removeLast, hhd, hn, hloop, bind, Except.bind]

/-! ## The order of the nodes -/

lemma reverseFrom_ok : ∀ {as done : List ℕ} {a n : ℕ} {heap : NodeHeap E} {newNext : Option ℕ} {es : List E},
    Linked heap.nextAt (some a) (a :: as) → Linked heap.nextAt newNext done → Values heap (a :: as) es →
    (a :: as ++ done).Nodup → as.length < n →
    ∃ heap' head', heap.reverseFrom n a newNext = .ok (heap', head') ∧ heap'.valueAt = heap.valueAt ∧
      Linked heap'.nextAt head' ((a :: as).reverse ++ done) := by
  intro as
  induction as with
  | nil =>
    intro done a n heap newNext es hlink hdone hval hnodup hn
    obtain ⟨e, es, rfl, ha, -⟩ := hval.exists_cons
    obtain ⟨heap', hset, hvals, hnexts⟩ := setNext_ok ha newNext
    cases n with
    | zero => exact absurd hn (Nat.not_lt_zero _)
    | succ n =>
      refine ⟨heap', some a, ?_, hvals, ?_⟩
      · have hend : heap.nextAt a = none := hlink.2
        refine bind_eq_ok.mpr ⟨_, deref_ok ha, bind_eq_ok.mpr ⟨_, hset, ?_⟩⟩
        rw [hend]
        rfl
      · rw [hnexts]
        exact hdone.push (List.nodup_cons.mp hnodup).1
  | cons b as ih =>
    intro done a n heap newNext es hlink hdone hval hnodup hn
    obtain ⟨e, es, rfl, ha, hval'⟩ := hval.exists_cons
    obtain ⟨heap', hset, hvals, hnexts⟩ := setNext_ok ha newNext
    obtain ⟨hnot, hnodup'⟩ := List.nodup_cons.mp hnodup
    obtain ⟨hnext, hlink'⟩ := hlink.2
    cases n with
    | zero => exact absurd hn (Nat.not_lt_zero _)
    | succ n =>
      have hab : a ∉ b :: as := fun hmem => hnot (List.mem_append_left _ hmem)
      have hlink'' : Linked heap'.nextAt (some b) (b :: as) := by
        rw [hnexts]
        exact Linked.update (l := b :: as) ⟨rfl, hlink'⟩ hab _
      have hdone' : Linked heap'.nextAt (some a) (a :: done) := by
        rw [hnexts]
        exact hdone.push fun hmem => hnot (List.mem_append_right _ hmem)
      have hnodup'' : (b :: as ++ a :: done).Nodup := by
        rw [List.cons_append] at hnodup
        exact (List.perm_middle : (b :: as ++ a :: done).Perm _).nodup_iff.mpr hnodup
      obtain ⟨heap'', head', hrun, hvals', hrev⟩ := ih hlink'' hdone'
        (hval'.congr fun c _ => congrFun hvals c) hnodup'' (Nat.lt_of_succ_lt_succ hn)
      refine ⟨heap'', head', ?_, hvals'.trans hvals, ?_⟩
      · refine bind_eq_ok.mpr ⟨_, deref_ok ha, bind_eq_ok.mpr ⟨_, hset, ?_⟩⟩
        rw [hnext]
        exact hrun
      · rw [List.reverse_cons, List.append_assoc, List.singleton_append]
        exact hrev

lemma Holds.reverse (h : Holds l as es) : ∃ l' as', l.reverse = .ok l' ∧ Holds l' as' es.reverse := by
  rcases hhd : l.head with _ | head
  · obtain ⟨rfl, rfl⟩ := h.nil_of_head hhd
    exact ⟨l, [], by simp [LinkedList.reverse, hhd], h⟩
  · obtain ⟨rest, e, es, rfl, rfl, he, hlink, hvals⟩ := h.cons_of_head hhd
    have hle := h.length_le
    obtain ⟨heap', head', hrun, hvals', hrev⟩ := reverseFrom_ok (n := l.fresh)
      (hhd ▸ h.linked) (show Linked _ none [] from rfl) h.values (by simpa using h.nodup) (by simpa using hle)
    refine ⟨{ l with heap := heap', head := head' }, (head :: rest).reverse, ?_, ?_, ?_, ?_, ?_⟩
    · simp [LinkedList.reverse, hhd, hrun, bind, Except.bind, pure, Except.pure]
    · simpa using hrev
    · have hrev : Values l.heap (head :: rest).reverse (e :: es).reverse := by
        rw [Values, List.map_reverse, List.map_reverse, h.values]
      exact hrev.congr fun c _ => congrFun hvals' c
    · intro c hc
      exact h.below c (List.mem_reverse.mp hc)
    · exact h.size.trans (by simp)

/-! ## Looking for an element -/

section Search

variable [BEq E]

lemma findFrom_absent : ∀ {as : List ℕ} {head n : ℕ} (prev : Option ℕ) {es : List E},
    Linked heap.nextAt (some head) as → Values heap as es → (∀ x ∈ es, ¬ x == e) → as.length ≤ n →
    heap.findFrom e n prev head = .ok none := by
  intro as
  induction as with
  | nil => intro _ _ _ _ hlink; cases hlink
  | cons a as ih =>
    intro head n prev es hlink hval hnot hn
    obtain ⟨e', es, rfl, ha, hval'⟩ := hval.exists_cons
    obtain ⟨hhead, hlink'⟩ := hlink
    obtain rfl := Option.some.inj hhead
    cases n with
    | zero => exact absurd hn (Nat.not_succ_le_zero _)
    | succ n =>
      refine bind_eq_ok.mpr ⟨_, deref_ok ha, (if_neg (hnot e' List.mem_cons_self)).trans ?_⟩
      rcases hnext : heap.nextAt head with _ | next
      · rfl
      · rw [hnext] at hlink'
        exact ih _ hlink' hval' (fun x hx => hnot x (List.mem_cons_of_mem _ hx))
          (Nat.le_of_succ_le_succ hn)

lemma findFrom_present {v : E} {as₂ : List ℕ} (hv : v == e) :
    ∀ {as₁ : List ℕ} {head n : ℕ} (prev : Option ℕ) {es₁ : List E},
    Linked heap.nextAt (some head) (as₁ ++ a :: as₂) → Values heap as₁ es₁ → heap.valueAt a = some v →
    (∀ x ∈ es₁, ¬ x == e) → as₁.length < n →
    heap.findFrom e n prev head = .ok (some (as₁.getLast?.or prev, a)) := by
  intro as₁
  induction as₁ with
  | nil =>
    intro head n prev es₁ hlink _ ha _ hn
    obtain ⟨hhead, -⟩ := hlink
    obtain rfl := Option.some.inj hhead
    cases n with
    | zero => exact absurd hn (Nat.not_lt_zero _)
    | succ n => exact bind_eq_ok.mpr ⟨_, deref_ok ha, if_pos hv⟩
  | cons b as₁ ih =>
    intro head n prev es₁ hlink hval ha hnot hn
    obtain ⟨e', es₁, rfl, hb, hval'⟩ := hval.exists_cons
    obtain ⟨hhead, hlink'⟩ := hlink
    obtain rfl := Option.some.inj hhead
    cases n with
    | zero => exact absurd hn (Nat.not_lt_zero _)
    | succ n =>
      refine bind_eq_ok.mpr ⟨_, deref_ok hb, (if_neg (hnot e' List.mem_cons_self)).trans ?_⟩
      rcases hnext : heap.nextAt head with _ | next
      · rw [hnext] at hlink'
        exact absurd hlink'.eq_nil (by simp)
      · rw [hnext] at hlink'
        have hrest := ih (some head) hlink' hval' ha
          (fun x hx => hnot x (List.mem_cons_of_mem _ hx)) (Nat.lt_of_succ_lt_succ hn)
        have hlast : (head :: as₁).getLast?.or prev = as₁.getLast?.or (some head) := by
          rw [List.getLast?_cons]
          cases as₁.getLast? <;> rfl
        rw [hlast]
        exact hrest

lemma Holds.remove (h : Holds l as es) (e : E) :
    ∃ l' as', l.remove e = .ok (es.any (· == e), l') ∧ Holds l' as' (es.eraseP (· == e)) := by
  by_cases hex : ∃ x ∈ es, x == e
  · obtain ⟨x, hx, hxe⟩ := hex
    obtain ⟨v, es₁, es₂, hnot, hv, rfl, herase⟩ := List.exists_of_eraseP (p := (· == e)) hx hxe
    have hany : (es₁ ++ v :: es₂).any (· == e) = true := by
      rw [List.any_eq_true]
      exact ⟨v, by simp, hv⟩
    obtain ⟨as₁, as', rfl, hval₁, hval'⟩ := h.values.split
    obtain ⟨a, as₂, rfl⟩ : ∃ a as₂, as' = a :: as₂ := by
      rcases as' with _ | ⟨a, as₂⟩
      · cases hval'
      · exact ⟨a, as₂, rfl⟩
    obtain ⟨ha, hval₂⟩ := values_cons.mp hval'
    obtain ⟨head, hhd⟩ := h.exists_head (by simp)
    have hlink := h.linked
    rw [hhd] at hlink
    have hle := h.length_le
    rw [List.length_append, List.length_cons] at hle
    have hloop := findFrom_present (n := l.fresh) hv none hlink hval₁ ha hnot (by omega)
    have hnodup := h.nodup
    have hsize : l.s - 1 = ((es₁ ++ es₂).length : ℤ) := by
      rw [h.size]
      simp only [List.length_append, List.length_cons]
      omega
    have hdiff : a ∉ as₁ ++ as₂ := (List.nodup_middle.mp hnodup |> List.nodup_cons.mp).1
    have hbelow : ∀ c ∈ as₁ ++ as₂, c < l.fresh := by
      intro c hc
      exact h.below c (by simp only [List.mem_append, List.mem_cons] at hc ⊢; tauto)
    have hkept : Values l.heap (as₁ ++ as₂) (es₁ ++ es₂) := hval₁.append hval₂
    rw [hany, herase]
    rcases List.eq_nil_or_concat' as₁ with rfl | ⟨before, b, rfl⟩
    · obtain ⟨hhead, hrest⟩ := hlink
      obtain rfl := Option.some.inj hhead
      refine ⟨{ l with head := l.heap.nextAt head, heap := l.heap.delete head, s := l.s - 1 }, as₂, ?_,
        Linked.delete hrest hdiff, hkept.delete hdiff, hbelow, hsize⟩
      simp [LinkedList.remove, hhd, hloop, deref_ok ha, bind, Except.bind, pure, Except.pure]
    · have hne : a ≠ head := by
        rintro rfl
        rcases before with _ | ⟨c, before⟩
        · exact hdiff (by simp [Option.some.inj hlink.1])
        · exact hdiff (by simp [Option.some.inj hlink.1])
      have hlink' : Linked l.heap.nextAt (some head) (before ++ b :: a :: as₂) := by simpa using hlink
      have hval' : Values l.heap (before ++ b :: a :: as₂) (es₁ ++ v :: es₂) := by simpa using h.values
      obtain ⟨heap', hset, hcut, hvals⟩ := unlink hlink' hval'
      refine ⟨{ l with heap := heap'.delete a, s := l.s - 1 }, before ++ [b] ++ as₂, ?_, ?_, ?_, hbelow,
        hsize⟩
      · have hprev : (before ++ [b]).getLast?.or none = some b := by simp
        rw [hprev] at hloop
        rcases hnext : l.heap.nextAt a with _ | next
        · rw [hnext] at hset
          simp [LinkedList.remove, hhd, hloop, deref_ok ha, hne, hnext, hset, bind, Except.bind, pure,
            Except.pure]
        · rw [hnext] at hset
          simp [LinkedList.remove, hhd, hloop, deref_ok ha, hne, hnext, hset, bind, Except.bind, pure,
            Except.pure]
      · rw [List.append_assoc]
        exact hhd ▸ hcut
      · refine hkept.congr fun c hc => ?_
        have hca : c ≠ a := fun heq => hdiff (heq ▸ hc)
        rw [hvals, Function.update_of_ne hca]
  · have hnot : ∀ x ∈ es, ¬ x == e := fun x hx hxe => hex ⟨x, hx, hxe⟩
    have hany : es.any (· == e) = false := List.any_eq_false.mpr hnot
    rw [hany, List.eraseP_of_forall_not hnot]
    refine ⟨l, as, ?_, h⟩
    rcases hhd : l.head with _ | head
    · simp [LinkedList.remove, hhd]
    · have hlink := h.linked
      rw [hhd] at hlink
      have hloop := findFrom_absent (n := l.fresh) none hlink h.values hnot h.length_le
      simp [LinkedList.remove, hhd, hloop, bind, Except.bind, pure, Except.pure]

lemma containsFrom_ok : ∀ {as : List ℕ} {head : Option ℕ} {n : ℕ} {es : List E},
    Linked heap.nextAt head as → Values heap as es → as.length ≤ n →
    heap.containsFrom e n head = .ok (es.any (· == e)) := by
  intro as
  induction as with
  | nil =>
    intro head n es hlink hval _
    obtain rfl : head = none := hlink
    obtain rfl : es = [] := List.length_eq_zero_iff.mp hval.length_eq.symm
    cases n <;> rfl
  | cons a as ih =>
    intro head n es hlink hval hn
    obtain ⟨e', es, rfl, ha, hval'⟩ := hval.exists_cons
    obtain ⟨rfl, hlink'⟩ := hlink
    cases n with
    | zero => exact absurd hn (Nat.not_succ_le_zero _)
    | succ n =>
      refine bind_eq_ok.mpr ⟨_, deref_ok ha, ?_⟩
      by_cases he : e' == e
      · simp [he, pure, Except.pure]
      · simp [he, ih hlink' hval' (Nat.le_of_succ_le_succ hn)]

end Search

lemma nthFrom_ok : ∀ {as : List ℕ} {head : Option ℕ} {i : ℕ} {es : List E},
    Linked heap.nextAt head as → Values heap as es → i ≤ as.length → heap.nthFrom i head = .ok as[i]? := by
  intro as
  induction as with
  | nil =>
    intro head i es hlink _ hi
    obtain rfl : i = 0 := Nat.le_zero.mp hi
    obtain rfl : head = none := hlink
    rfl
  | cons a as ih =>
    intro head i es hlink hval hi
    obtain ⟨e', es, rfl, ha, hval'⟩ := hval.exists_cons
    obtain ⟨rfl, hlink'⟩ := hlink
    cases i with
    | zero => rfl
    | succ i =>
      rw [List.getElem?_cons_succ]
      exact bind_eq_ok.mpr ⟨_, deref_ok ha, ih hlink' hval' (Nat.le_of_succ_le_succ hi)⟩

lemma Holds.get (h : Holds l as es) (index : ℤ) :
    l.get index = .ok (if index < 0 then none else es[index.toNat]?) := by
  have hlen := h.values.length_eq
  by_cases hneg : index < 0
  · simp [LinkedList.get, hneg]
  · by_cases hge : l.s ≤ index
    · rw [LinkedList.get, if_pos (Or.inr hge), if_neg hneg, List.getElem?_eq_none]
      rw [h.size] at hge
      omega
    · have hlt : index.toNat < as.length := by
        rw [h.size] at hge
        omega
      have hget : l.heap.valueAt as[index.toNat] = some es[index.toNat] := by
        have := congrArg (·[index.toNat]?) h.values
        simpa [hlt, hlen ▸ hlt] using this
      rw [LinkedList.get, if_neg (not_or.mpr ⟨hneg, hge⟩), if_neg hneg, List.getElem?_eq_getElem (by omega)]
      refine bind_eq_ok.mpr ⟨_, nthFrom_ok h.linked h.values hlt.le, ?_⟩
      rw [List.getElem?_eq_getElem hlt, deref_ok hget]
      rfl

lemma walkFrom_ok {as₂ : List ℕ} : ∀ {as₁ : List ℕ} {head : ℕ} {es : List E},
    Linked heap.nextAt (some head) (as₁ ++ a :: as₂) → Values heap as₁ es →
    heap.walkFrom as₁.length head = .ok (some a) := by
  intro as₁
  induction as₁ with
  | nil =>
    intro head es hlink _
    rw [List.length_nil, walkFrom, hlink.1]
  | cons b as₁ ih =>
    intro head es hlink hval
    obtain ⟨e', es₁, rfl, hb, hval'⟩ := hval.exists_cons
    obtain ⟨hhead, hlink'⟩ := hlink
    obtain rfl := Option.some.inj hhead
    refine bind_eq_ok.mpr ⟨_, deref_ok hb, ?_⟩
    rcases hnext : heap.nextAt head with _ | next
    · rw [hnext] at hlink'
      exact absurd hlink'.eq_nil (by simp)
    · rw [hnext] at hlink'
      exact ih hlink' hval'

lemma Holds.addAt_inside {es₁ es₂ : List E} {v : E} (h : Holds l as (es₁ ++ v :: es₂)) (hne : es₁ ≠ [])
    (e : E) : ∃ l' as', l.addAt es₁.length e = .ok (true, l') ∧ Holds l' as' (es₁ ++ v :: e :: es₂) := by
  obtain ⟨l', hrun, hhead, hs, hfresh, hnew, hlink, hval, hvalue, hnext⟩ := h.newNode e
  obtain ⟨as₁, as', rfl, hval₁, hval'⟩ := hval.split
  obtain ⟨a, as₂, rfl⟩ : ∃ a as₂, as' = a :: as₂ := by
    rcases as' with _ | ⟨a, as₂⟩
    · cases hval'
    · exact ⟨a, as₂, rfl⟩
  obtain ⟨ha, hval₂⟩ := values_cons.mp hval'
  obtain ⟨head, hhd⟩ := h.exists_head (by simp)
  rw [hhd] at hlink
  have hwalk := walkFrom_ok hlink hval₁
  rw [hval₁.length_eq] at hwalk
  obtain ⟨heap₁, hset₁, hvals₁, hnexts₁⟩ := setNext_ok hvalue (l'.heap.nextAt a)
  obtain ⟨heap₂, hset₂, hvals₂, hnexts₂⟩ := setNext_ok (hvals₁ ▸ ha) (some l.fresh)
  have hfa : l.fresh ≠ a := fun heq => hnew (by simp [heq])
  have hsize : l'.s + 1 = ((es₁ ++ v :: e :: es₂).length : ℤ) := by
    rw [hs, h.size]
    simp only [List.length_append, List.length_cons]
    omega
  have hlink₂ : Linked heap₂.nextAt (some head) (as₁ ++ a :: l.fresh :: as₂) := by
    have hnodup := List.nodup_append.mp hlink.nodup
    obtain ⟨ha₂, -⟩ := List.nodup_cons.mp hnodup.2.1
    have hother : ∀ c, c ≠ a → c ≠ l.fresh → heap₂.nextAt c = l'.heap.nextAt c := by
      intro c hca hcf
      rw [hnexts₂, Function.update_of_ne hca, hnexts₁, Function.update_of_ne hcf]
    have hfnext : heap₂.nextAt l.fresh = l'.heap.nextAt a := by
      rw [hnexts₂, Function.update_of_ne hfa, hnexts₁, Function.update_self]
    refine hlink.append (show Linked _ _ (a :: l.fresh :: as₂) from ⟨rfl, ?_, ?_⟩) fun c hc => hother c ?_ ?_
    · rw [hnexts₂, Function.update_self]
    · rw [hfnext]
      refine hlink.of_append.2.congr fun c hc => hother c ?_ ?_
      · exact fun heq => ha₂ (heq ▸ hc)
      · exact fun heq => hnew (by simp [← heq, hc])
    · exact hnodup.2.2 c hc a (by simp)
    · exact fun heq => hnew (by simp [← heq, hc])
  refine ⟨{ l' with heap := heap₂, s := l'.s + 1 }, as₁ ++ a :: l.fresh :: as₂, ?_, ?_, ?_, ?_, hsize⟩
  · have hlen : 0 < es₁.length := List.length_pos_iff.mpr hne
    have hin : ¬ ((es₁.length : ℤ) < 0 ∨ (es₁.length : ℤ) > l.s) := by
      rw [h.size, List.length_append, List.length_cons]
      omega
    have hne₀ : (es₁.length : ℤ) ≠ 0 := by omega
    have hne₁ : (es₁.length : ℤ) ≠ l.s := by
      rw [h.size, List.length_append, List.length_cons]
      omega
    rw [LinkedList.addAt, if_neg hin, if_neg hne₀, if_neg hne₁]
    simp [hrun, hhead, hhd, hwalk, deref_ok ha, hset₁, hset₂, bind, Except.bind, pure, Except.pure]
  · exact (hhead.trans hhd).symm ▸ hlink₂
  · have hall : Values l'.heap (as₁ ++ a :: l.fresh :: as₂) (es₁ ++ v :: e :: es₂) :=
      hval₁.append (values_cons.mpr ⟨ha, values_cons.mpr ⟨hvalue, hval₂⟩⟩)
    exact hall.congr fun c _ => by rw [hvals₂, hvals₁]
  · intro c hc
    rw [hfresh]
    by_cases hcf : c = l.fresh
    · omega
    · have := h.below c (by simp only [List.mem_append, List.mem_cons] at hc ⊢; tauto)
      omega

end LinkedList

end BrebOS

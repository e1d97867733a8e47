import BrebOS.Lib.Loop
import BrebOS.Utils.BST
import Mathlib.Data.Multiset.AddSub

/-!
# Removal from a `BST<T>`

`BST::remove`, `extract_replacement` and `find_node` with its `node_ptr`.  A node is removed by a write to
the slot that holds it, which the loop knows by the node before and the last comparison; a node with two
children is kept, and gets the smallest value of its right subtree.

`remove` takes the node that `find_node` returns out of the in-order list (`remove_eq`), whatever the order
of the tree.
-/

namespace BrebOS.BST

open BinaryTree

variable {α : Type} (cmp : α → α → ℤ)

/-- `prev_cmp > 0 ? prev->left : prev->right`. -/
def childTurn (prevCmp : ℤ) : Turn := if prevCmp > 0 then .left else .right

/-- The loop of `extract_replacement`, with the tree at `cur`. -/
def replacementFrom : BinaryTree α → Path → Path → Path × Path
  | node _ (node b l r) _, _, cur => replacementFrom (node b l r) cur (cur ++ [.left])
  | _, prev, cur => (prev, cur)

/-- `BST::extract_replacement`: the value, and the tree without its node.  There must be a right child. -/
def extractReplacement (n : Path) (t : BinaryTree α) : Except Unit (α × BinaryTree α) :=
  let (prev, cur) := replacementFrom (t.subtree (n ++ [.right])) n (n ++ [.right])
  match t.subtree cur with
  | nil => .error ()
  | node a _ right =>
      let slot := if cur = n ++ [.right] then prev ++ [.right] else prev ++ [.left]
      .ok (a, modifyAt (fun _ => right) slot t)

/-- `cur->data = extract_replacement(cur)`. -/
def replaceData (cur : Path) (t : BinaryTree α) : Except Unit (BinaryTree α) := do
  let (a, t) ← extractReplacement cur t
  return modifyAt (mapRoot fun _ => a) cur t

/-- The node in `slot`, which has these children, is removed. -/
def removeMatch (t : BinaryTree α) (slot : Path) : BinaryTree α → BinaryTree α → Except Unit (BinaryTree α)
  | node .., node .. => replaceData slot t
  | node b l r, nil => .ok (modifyAt (fun _ => node b l r) slot t)
  | nil, node b l r => .ok (modifyAt (fun _ => node b l r) slot t)
  | nil, nil => .ok (modifyAt (fun _ => nil) slot t)

/-- The loop of `BST::remove`, with the tree at `cur`. -/
def removeFrom (elem : α) (t : BinaryTree α) : BinaryTree α → Path → ℤ → Except Unit (Bool × BinaryTree α)
  | nil, _, _ => .ok (false, t)
  | node a l r, prev, prevCmp =>
      let slot := prev ++ [childTurn prevCmp]
      if cmp a elem = 0 then (removeMatch t slot l r).map (true, ·)
      else if cmp a elem > 0 then removeFrom elem t l slot (cmp a elem)
      else removeFrom elem t r slot (cmp a elem)

/-- The root, which has these children, is removed. -/
def removeRoot (t : BinaryTree α) : BinaryTree α → BinaryTree α → Except Unit (BinaryTree α)
  | _, node .. => replaceData [] t
  | node b l r, nil => .ok (node b l r)
  | nil, nil => .ok nil

/-- `BST::remove`. -/
def remove (elem : α) : BinaryTree α → Except Unit (Bool × BinaryTree α)
  | nil => .ok (false, nil)
  | node a l r =>
      if cmp a elem = 0 then (removeRoot (node a l r) l r).map (true, ·)
      else removeFrom cmp elem (node a l r) (if cmp a elem > 0 then l else r) [] (cmp a elem)

/-- A `Node**`: the root, or a child of a node. -/
inductive Link
  | root
  | child (prev : Path) (turn : Turn)
  deriving DecidableEq, Repr

/-- Where the node is to which the link points. -/
def Link.path : Link → Path
  | root => []
  | child prev turn => prev ++ [turn]

/-- `prev ? (prev_cmp > 0 ? &prev->left : &prev->right) : &root`. -/
def nodePtr (prev : Option Path) (prevCmp : ℤ) : Link :=
  match prev with
  | some prev => .child prev (childTurn prevCmp)
  | none => .root

/-- The loop of `BST::find_node`, with the tree at `cur`. -/
def findNodeFrom (elem : α) : BinaryTree α → Path → Option Path → ℤ → Option (Path × Link)
  | nil, _, _, _ => none
  | node a l r, cur, prev, prevCmp =>
      if cmp a elem = 0 then some (cur, nodePtr prev prevCmp)
      else if cmp a elem > 0 then findNodeFrom elem l (cur ++ [.left]) (some cur) (cmp a elem)
      else findNodeFrom elem r (cur ++ [.right]) (some cur) (cmp a elem)

/-- `BST::find_node`: the node, and `node_ptr`. -/
def findNodePtr (elem : α) (t : BinaryTree α) : Option (Path × Link) := findNodeFrom cmp elem t [] none 0

/-- A call that changes the tree. -/
inductive Call (α : Type)
  | add (x : α)
  | remove (elem : α)

/-- A call: what it returns, and the tree it leaves. -/
def step (t : BinaryTree α) : Call α → Except Unit (Option Bool × BinaryTree α)
  | .add x => .ok (none, addNode cmp x t)
  | .remove elem => (remove cmp elem t).map fun (b, t) => (some b, t)

/-- Calls, one after another. -/
def run : List (Call α) → BinaryTree α → Except Unit (List (Option Bool) × BinaryTree α)
  | [], t => .ok ([], t)
  | c :: cs, t => do
      let (answer, t) ← step cmp t c
      let (answers, t) ← run cs t
      return (answer :: answers, t)

/-! ## A bag of values -/

/-- What a call does to a bag of values. -/
inductive BagStep : Multiset α → Call α → Option Bool → Multiset α → Prop
  | add (x : α) (s : Multiset α) : BagStep s (.add x) none (x ::ₘ s)
  | removed {a elem : α} (h : cmp a elem = 0) (s : Multiset α) :
      BagStep (a ::ₘ s) (.remove elem) (some true) s
  | absent {elem : α} {s : Multiset α} (h : ∀ a ∈ s, cmp a elem ≠ 0) :
      BagStep s (.remove elem) (some false) s

/-- What calls do to a bag of values. -/
inductive BagRun : Multiset α → List (Call α) → List (Option Bool) → Multiset α → Prop
  | nil (s : Multiset α) : BagRun s [] [] s
  | cons {s s' s'' : Multiset α} {c : Call α} {cs : List (Call α)} {answer : Option Bool}
      {answers : List (Option Bool)} (h : BagStep cmp s c answer s') (hs : BagRun s' cs answers s'') :
      BagRun s (c :: cs) (answer :: answers) s''

/-- The comparison is that of a total order, in which several values may be equal. -/
structure IsOrder : Prop where
  swap : ∀ a b, cmp a b < 0 ↔ 0 < cmp b a
  trans : ∀ a b c, cmp a b ≤ 0 → cmp b c ≤ 0 → cmp a c ≤ 0

/-- The values are in order, from left to right. -/
def Sorted (t : BinaryTree α) : Prop := t.inorder.Pairwise fun a b => cmp a b ≤ 0

/-- A node is found iff there is one, and the link that is returned holds it. -/
structure FindRight (elem : α) (t : BinaryTree α) : Prop where
  found : (findNodePtr cmp elem t).isSome ↔ ∃ a ∈ t.inorder, cmp a elem = 0
  equal : ∀ p link, findNodePtr cmp elem t = some (p, link) →
    link.path = p ∧ ∃ a l r, t.subtree link.path = node a l r ∧ cmp a elem = 0

variable {cmp} {elem : α}

/-! ## The node that is found -/

variable (cmp elem) in
lemma map_findNodeFrom (t : BinaryTree α) : ∀ (cur : Path) (prev : Option Path) (prevCmp : ℤ),
    (findNodeFrom cmp elem t cur prev prevCmp).map Prod.fst = (findNode cmp elem t).map (cur ++ ·) := by
  induction t with
  | nil => intros; rfl
  | node a l r ihl ihr =>
      intro cur prev prevCmp
      rw [findNodeFrom, findNode]
      split_ifs with h₀ h₁
      · simp
      · rw [ihl, Option.map_map]
        exact congrArg (Option.map · _) (funext fun q => by simp)
      · rw [ihr, Option.map_map]
        exact congrArg (Option.map · _) (funext fun q => by simp)

lemma path_of_findNodeFrom (t : BinaryTree α) : ∀ (cur : Path) (prev : Option Path) (prevCmp : ℤ),
    (prev = none → cur = []) → (∀ n, prev = some n → cur = n ++ [childTurn prevCmp]) →
    ∀ p link, findNodeFrom cmp elem t cur prev prevCmp = some (p, link) → link.path = p := by
  induction t with
  | nil => intro _ _ _ _ _ p link h; cases h
  | node a l r ihl ihr =>
      intro cur prev prevCmp hnone hsome p link h
      rw [findNodeFrom] at h
      split_ifs at h with h₀ h₁
      · obtain ⟨rfl, rfl⟩ := Prod.mk.inj (Option.some.inj h)
        rcases prev with _ | n
        · exact (hnone rfl).symm
        · exact (hsome n rfl).symm
      · refine ihl _ (some cur) _ nofun ?_ p link h
        rintro n ⟨⟩
        rw [childTurn, if_pos h₁]
      · refine ihr _ (some cur) _ nofun ?_ p link h
        rintro n ⟨⟩
        rw [childTurn, if_neg h₁]

lemma findNodePtr_eq_some {t : BinaryTree α} {p : Path} {link : Link}
    (h : findNodePtr cmp elem t = some (p, link)) : findNode cmp elem t = some p ∧ link.path = p := by
  have hmap := map_findNodeFrom cmp elem t [] none 0
  rw [show findNodeFrom cmp elem t [] none 0 = some (p, link) from h] at hmap
  refine ⟨?_, path_of_findNodeFrom t [] none 0 (fun _ => rfl) nofun p link h⟩
  simpa using hmap.symm

lemma findNodePtr_isSome (t : BinaryTree α) :
    (findNodePtr cmp elem t).isSome = (findNode cmp elem t).isSome := by
  have hmap := map_findNodeFrom cmp elem t [] none 0
  simpa [findNodePtr] using congrArg Option.isSome hmap

/-! ## The node that is removed -/

lemma subtree_append : ∀ (p q : Path) (t : BinaryTree α), t.subtree (p ++ q) = (t.subtree p).subtree q
  | [], q, t => by simp
  | _ :: _, q, nil => by simp
  | .left :: p, q, node a l r => subtree_append p q l
  | .right :: p, q, node a l r => subtree_append p q r

lemma modifyAt_append (f : BinaryTree α → BinaryTree α) : ∀ (p q : Path) (t : BinaryTree α),
    modifyAt f (p ++ q) t = modifyAt (modifyAt f q) p t
  | [], q, t => by simp
  | _ :: _, q, nil => rfl
  | .left :: p, q, node a l r => by simp [modifyAt, modifyAt_append f p q l]
  | .right :: p, q, node a l r => by simp [modifyAt, modifyAt_append f p q r]

lemma replacementFrom_eq (t : BinaryTree α) : ∀ prev cur : Path,
    (replacementFrom t prev cur).2 = cur ++ t.leftmostPath ∧
      (t.leftmostPath = [] → (replacementFrom t prev cur).1 = prev) ∧
      (t.leftmostPath ≠ [] → (replacementFrom t prev cur).1 ++ [.left] = cur ++ t.leftmostPath) := by
  induction t with
  | nil => intro prev cur; exact ⟨by simp [replacementFrom, leftmostPath], fun _ => rfl, absurd rfl⟩
  | node a l r ihl _ =>
      intro prev cur
      rcases l with _ | ⟨b, l, l'⟩
      · exact ⟨by simp [replacementFrom, leftmostPath], fun _ => rfl, absurd rfl⟩
      · obtain ⟨hcur, hprev, hprev'⟩ := ihl cur (cur ++ [.left])
        refine ⟨?_, fun hnil => absurd hnil (List.cons_ne_nil _ _), fun _ => ?_⟩
        · rw [replacementFrom, hcur, leftmostPath, List.append_assoc, List.singleton_append]
        · rw [replacementFrom, leftmostPath]
          by_cases hnil : (node b l l').leftmostPath = []
          · rw [hprev hnil, hnil]
          · rw [hprev' hnil, List.append_assoc, List.singleton_append]

/-- A change of a tree that drops the value of its root. -/
def DropsRoot (f : BinaryTree α → BinaryTree α) (t : BinaryTree α) : Prop :=
  ∀ a l r, t = node a l r → (f t).inorder = l.inorder ++ r.inorder

lemma replaceData_ok {n : Path} {t l r : BinaryTree α} {a : α} (hn : t.subtree n = node a l r)
    (hr : r ≠ nil) : ∃ f, replaceData n t = .ok (modifyAt f n t) ∧ DropsRoot f (t.subtree n) := by
  obtain ⟨b, q, post, hsub, hin, hmod⟩ := leftmostPath_spec r hr
  obtain ⟨hcur, hprev, hprev'⟩ := replacementFrom_eq r n (n ++ [.right])
  generalize hloop : replacementFrom r n (n ++ [.right]) = place at hcur hprev hprev'
  obtain ⟨prev, cur⟩ := place
  dsimp only at hcur hprev hprev'
  have hright : t.subtree (n ++ [.right]) = r := by
    rw [subtree_append, hn]
    exact subtree_nil_path r
  have hnode : t.subtree cur = node b nil q := by
    rw [hcur, subtree_append, hright, hsub]
  have hslot : (if cur = n ++ [.right] then prev ++ [.right] else prev ++ [.left]) = cur := by
    by_cases hnil : r.leftmostPath = []
    · rw [hnil, List.append_nil] at hcur
      rw [if_pos hcur, hprev hnil, hcur]
    · have hne : cur ≠ n ++ [.right] := by
        rw [hcur]
        simpa using hnil
      rw [if_neg hne, hprev' hnil, hcur]
  have hext : extractReplacement n t = .ok (b, modifyAt (fun _ => q) cur t) := by
    simp only [extractReplacement, hright, hloop, hnode, hslot]
  refine ⟨mapRoot (fun _ => b) ∘ modifyAt (fun _ => q) (.right :: r.leftmostPath), ?_, ?_⟩
  · rw [replaceData, hext, hcur, List.append_assoc, modifyAt_append]
    exact congrArg Except.ok (modifyAt_modifyAt _ _ n t)
  · rintro a' l' r' heq
    rw [hn, node.injEq] at heq
    obtain ⟨rfl, rfl, rfl⟩ := heq
    rw [hn, Function.comp, modifyAt, mapRoot, inorder_node, hmod, hin]

lemma removeFrom_eq {t : BinaryTree α} (s : BinaryTree α) : ∀ (prev : Path) (prevCmp : ℤ),
    t.subtree (prev ++ [childTurn prevCmp]) = s →
    (findNode cmp elem s = none → removeFrom cmp elem t s prev prevCmp = .ok (false, t)) ∧
      ∀ q, findNode cmp elem s = some q → ∃ f,
        removeFrom cmp elem t s prev prevCmp =
          .ok (true, modifyAt f (prev ++ [childTurn prevCmp] ++ q) t) ∧
        DropsRoot f (t.subtree (prev ++ [childTurn prevCmp] ++ q)) := by
  induction s with
  | nil => intro prev prevCmp _; exact ⟨fun _ => rfl, fun q hq => by cases hq⟩
  | node a l r ihl ihr =>
      intro prev prevCmp hs
      rw [removeFrom, findNode]
      split_ifs with h₀ h₁
      · refine ⟨fun hnone => (by cases hnone), ?_⟩
        rintro q ⟨⟩
        rw [List.append_nil, hs]
        rcases l with _ | ⟨b, l₁, l₂⟩
        · rcases r with _ | ⟨c, r₁, r₂⟩
          · refine ⟨fun _ => nil, rfl, ?_⟩
            rintro _ _ _ ⟨⟩
            rfl
          · refine ⟨fun _ => node c r₁ r₂, rfl, ?_⟩
            rintro _ _ _ ⟨⟩
            rfl
        · rcases r with _ | ⟨c, r₁, r₂⟩
          · refine ⟨fun _ => node b l₁ l₂, rfl, ?_⟩
            rintro _ _ _ ⟨⟩
            exact (List.append_nil _).symm
          · obtain ⟨f, hrun, hf⟩ := replaceData_ok hs (fun hnil => by cases hnil)
            rw [hs] at hf
            exact ⟨f, by rw [removeMatch, hrun]; rfl, hf⟩
      · have hl : t.subtree (prev ++ [childTurn prevCmp] ++ [childTurn (cmp a elem)]) = l := by
          rw [subtree_append, hs, childTurn, if_pos h₁]
          exact subtree_nil_path l
        obtain ⟨hnone, hsome⟩ := ihl _ _ hl
        refine ⟨fun h => hnone (Option.map_eq_none_iff.mp h), fun q hq => ?_⟩
        obtain ⟨q', hq', rfl⟩ := Option.map_eq_some_iff.mp hq
        have := hsome q' hq'
        rwa [show childTurn (cmp a elem) = .left from if_pos h₁, List.append_assoc _ [Turn.left],
          List.singleton_append] at this
      · have hr : t.subtree (prev ++ [childTurn prevCmp] ++ [childTurn (cmp a elem)]) = r := by
          rw [subtree_append, hs, childTurn, if_neg h₁]
          exact subtree_nil_path r
        obtain ⟨hnone, hsome⟩ := ihr _ _ hr
        refine ⟨fun h => hnone (Option.map_eq_none_iff.mp h), fun q hq => ?_⟩
        obtain ⟨q', hq', rfl⟩ := Option.map_eq_some_iff.mp hq
        have := hsome q' hq'
        rwa [show childTurn (cmp a elem) = .right from if_neg h₁, List.append_assoc _ [Turn.right],
          List.singleton_append] at this

variable (cmp elem) in
lemma remove_eq (t : BinaryTree α) :
    (findNode cmp elem t = none → remove cmp elem t = .ok (false, t)) ∧
      ∀ p, findNode cmp elem t = some p →
        ∃ f, remove cmp elem t = .ok (true, modifyAt f p t) ∧ DropsRoot f (t.subtree p) := by
  rcases t with _ | ⟨a, l, r⟩
  · exact ⟨fun _ => rfl, fun p hp => by cases hp⟩
  · rw [remove, findNode]
    split_ifs with h₀ h₁
    · refine ⟨fun hnone => (by cases hnone), ?_⟩
      rintro p ⟨⟩
      rcases r with _ | ⟨c, r₁, r₂⟩
      · refine ⟨fun _ => l, ?_, ?_⟩
        · cases l <;> rfl
        · rintro _ _ _ ⟨⟩
          exact (List.append_nil _).symm
      · obtain ⟨f, hrun, hf⟩ := replaceData_ok (n := []) (subtree_nil_path (node a l (node c r₁ r₂)))
          fun hnil => by cases hnil
        exact ⟨f, by rw [removeRoot, hrun]; rfl, hf⟩
    · have hl : (node a l r).subtree ([] ++ [childTurn (cmp a elem)]) = l := by
        rw [childTurn, if_pos h₁]
        exact subtree_nil_path l
      obtain ⟨hnone, hsome⟩ := removeFrom_eq l [] (cmp a elem) hl
      refine ⟨fun h => hnone (Option.map_eq_none_iff.mp h), fun p hp => ?_⟩
      obtain ⟨q, hq, rfl⟩ := Option.map_eq_some_iff.mp hp
      have := hsome q hq
      rwa [show childTurn (cmp a elem) = .left from if_pos h₁] at this
    · have hr : (node a l r).subtree ([] ++ [childTurn (cmp a elem)]) = r := by
        rw [childTurn, if_neg h₁]
        exact subtree_nil_path r
      obtain ⟨hnone, hsome⟩ := removeFrom_eq r [] (cmp a elem) hr
      refine ⟨fun h => hnone (Option.map_eq_none_iff.mp h), fun p hp => ?_⟩
      obtain ⟨q, hq, rfl⟩ := Option.map_eq_some_iff.mp hp
      have := hsome q hq
      rwa [show childTurn (cmp a elem) = .right from if_neg h₁] at this

/-! ## Sorted trees -/

section Order

variable (h : IsOrder cmp) {t t' : BinaryTree α} {a b x : α} {c : Call α}

include h

lemma IsOrder.lt_of_le_of_lt (hab : cmp a b ≤ 0) (hbx : cmp b x < 0) : cmp a x < 0 := by
  by_contra hax
  have hxa : cmp x a ≤ 0 := not_lt.mp fun hlt => hax ((h.swap a x).mpr hlt)
  exact absurd ((h.swap b x).mp hbx) (not_lt.mpr (h.trans x a b hxa hab))

lemma IsOrder.lt_of_lt_of_le (hax : 0 < cmp a x) (hab : cmp a b ≤ 0) : 0 < cmp b x := by
  by_contra hbx
  exact absurd hax (not_lt.mpr (h.trans a b x hab (not_lt.mp hbx)))

lemma Sorted.findNode_isSome (ht : Sorted cmp t) :
    (findNode cmp elem t).isSome ↔ ∃ a ∈ t.inorder, cmp a elem = 0 := by
  constructor
  · intro hsome
    obtain ⟨p, hp⟩ := Option.isSome_iff_exists.mp hsome
    obtain ⟨a, l, r, hsub, ha⟩ := findNode_some elem t p hp
    obtain ⟨pre, post, hin, -⟩ := exists_context p t (by rw [hsub]; nofun)
    refine ⟨a, ?_, ha⟩
    rw [hin, hsub]
    simp
  · rintro ⟨a, hmem, ha⟩
    by_contra hnone
    rw [Bool.not_eq_true, Option.isSome_eq_false_iff, Option.isNone_iff_eq_none] at hnone
    refine findNode_none elem t (ht.imp ?_) hnone a hmem ha
    intro a b hab
    exact ⟨fun ha => h.lt_of_lt_of_le ha hab, fun hb => h.lt_of_le_of_lt hab hb⟩

lemma Sorted.findRight (ht : Sorted cmp t) : FindRight cmp elem t where
  found := by rw [findNodePtr_isSome, ht.findNode_isSome h]
  equal p link hp := by
    obtain ⟨hfind, rfl⟩ := findNodePtr_eq_some hp
    exact ⟨rfl, findNode_some elem t _ hfind⟩

lemma Sorted.add (ht : Sorted cmp t) : Sorted cmp (addNode cmp x t) ∧
    ((addNode cmp x t).inorder : Multiset α) = x ::ₘ (t.inorder : Multiset α) := by
  obtain ⟨l₁, l₂, hin, hadd, hl₁, hl₂⟩ := @inorder_addNode _ cmp x t
    (ht.imp fun hab hb => h.lt_of_le_of_lt hab hb)
  rw [Sorted, hin, List.pairwise_append] at ht
  obtain ⟨h₁, h₂, h₁₂⟩ := ht
  constructor
  · rw [Sorted, hadd, List.pairwise_append, List.pairwise_cons]
    refine ⟨h₁, ⟨fun b hb => ?_, h₂⟩, fun a ha b hb => ?_⟩
    · exact not_lt.mp fun hlt => absurd ((h.swap b x).mpr hlt) (not_lt.mpr (hl₂ b hb))
    · rcases List.mem_cons.mp hb with rfl | hb
      · exact (hl₁ a ha).le
      · exact h₁₂ a ha b hb
  · rw [hadd, hin]
    exact Multiset.coe_eq_coe.mpr List.perm_middle

lemma Sorted.remove (ht : Sorted cmp t) (elem : α) : ∃ b t', remove cmp elem t = .ok (b, t') ∧ Sorted cmp t' ∧
    BagStep cmp t.inorder (.remove elem) (some b) t'.inorder := by
  obtain ⟨hnone, hsome⟩ := remove_eq cmp elem t
  rcases hfind : findNode cmp elem t with _ | p
  · refine ⟨false, t, hnone hfind, ht, .absent fun a ha heq => ?_⟩
    have := (ht.findNode_isSome h).mpr ⟨a, ha, heq⟩
    rw [hfind] at this
    cases this
  · obtain ⟨a, l, r, hsub, ha⟩ := findNode_some elem t p hfind
    obtain ⟨f, hrun, hf⟩ := hsome p hfind
    obtain ⟨pre, post, hin, hmod⟩ := exists_context p t (by rw [hsub]; nofun)
    have hnew : (modifyAt f p t).inorder = pre ++ (l.inorder ++ r.inorder) ++ post := by
      rw [hmod, hf a l r hsub]
    have hold : t.inorder = (pre ++ l.inorder) ++ a :: (r.inorder ++ post) := by
      rw [hin, hsub]
      simp
    refine ⟨true, _, hrun, ?_, ?_⟩
    · refine List.Pairwise.sublist ?_ ht
      rw [hnew, hold, ← List.append_assoc pre, List.append_assoc _ r.inorder]
      exact List.Sublist.append_left (List.sublist_cons_self a _) _
    · have hbag : (t.inorder : Multiset α) = a ::ₘ ((modifyAt f p t).inorder : Multiset α) := by
        rw [hold, hnew, ← List.append_assoc pre, List.append_assoc _ r.inorder]
        exact Multiset.coe_eq_coe.mpr List.perm_middle
      rw [hbag]
      exact .removed ha _

lemma Sorted.step (ht : Sorted cmp t) (c : Call α) : ∃ answer t', step cmp t c = .ok (answer, t') ∧
    Sorted cmp t' ∧ BagStep cmp t.inorder c answer t'.inorder := by
  cases c with
  | add x =>
    obtain ⟨hsorted, hbag⟩ := ht.add (x := x) h
    refine ⟨none, _, rfl, hsorted, ?_⟩
    rw [hbag]
    exact .add x _
  | remove elem =>
    obtain ⟨b, t', hrun, hsorted, hbag⟩ := ht.remove h elem
    exact ⟨some b, t', by rw [BST.step, hrun]; rfl, hsorted, hbag⟩

lemma Sorted.run (calls : List (Call α)) : ∀ {t : BinaryTree α}, Sorted cmp t →
    ∃ answers t', run cmp calls t = .ok (answers, t') ∧ Sorted cmp t' ∧
      BagRun cmp t.inorder calls answers t'.inorder := by
  induction calls with
  | nil => exact fun ht => ⟨[], _, rfl, ht, .nil _⟩
  | cons c calls ih =>
    intro t ht
    obtain ⟨answer, t₁, hstep, hsorted, hbag⟩ := ht.step h c
    obtain ⟨answers, t', hrun, hsorted', hbags⟩ := ih hsorted
    refine ⟨answer :: answers, t', ?_, hsorted', .cons hbag hbags⟩
    exact bind_eq_ok.mpr ⟨_, hstep, bind_eq_ok.mpr ⟨_, hrun, rfl⟩⟩

/-- **After any calls, the tree is a sorted bag of what was added and not removed.** -/
theorem tree_right (calls : List (Call α)) : ∃ answers t, BST.run cmp calls nil = .ok (answers, t) ∧
    Sorted cmp t ∧ BagRun cmp 0 calls answers t.inorder ∧ ∀ elem, FindRight cmp elem t := by
  obtain ⟨answers, t, hrun, hsorted, hbag⟩ := Sorted.run h calls (t := nil) List.Pairwise.nil
  exact ⟨answers, t, hrun, hsorted, hbag, fun elem => hsorted.findRight h⟩

end Order

/-- Numbers, compared by their difference: two equal ones are added, and one of them is removed. -/
theorem tree_right_numbers : ∃ answers t,
    run (fun a b : ℤ => a - b) [.add 3, .add 5, .add 3, .remove 3, .remove 4] nil = .ok (answers, t) ∧
    Sorted (fun a b => a - b) t ∧
    BagRun (fun a b => a - b) 0 [.add 3, .add 5, .add 3, .remove 3, .remove 4] answers t.inorder ∧
    ∀ elem, FindRight (fun a b => a - b) elem t :=
  tree_right ⟨fun a b => by omega, fun a b c => by omega⟩ _

end BrebOS.BST

import Mathlib.Tactic

/-!
# Trees of directories without links

A directory is the list of the names that lead to it from the root.  A path is a list of hops: to the
parent, to a child, or nowhere.  Its normal form goes up first and down then; it leads from every directory
to where the path leads, when the directories on the way exist (`walk_normalize`).
-/

namespace BrebOS

variable {α : Type}

/-- Which directories there are.  The parent of a directory is one. -/
structure DirTree (α : Type) where
  isDir : List α → Bool
  root : isDir [] = true
  closed : ∀ d a, isDir (d ++ [a]) = true → isDir d = true

/-- A component of a path. -/
inductive Hop (α : Type)
  | stay
  | up
  | down (name : α)
  deriving DecidableEq, Repr

/-- The directory a hop leads to; the parent of the root is the root. -/
def DirTree.hop (t : DirTree α) (d : List α) : Hop α → Option (List α)
  | .stay => some d
  | .up => some d.dropLast
  | .down a => if t.isDir (d ++ [a]) then some (d ++ [a]) else none

/-- The directory a path leads to. -/
def DirTree.walk (t : DirTree α) (d : List α) (hops : List (Hop α)) : Option (List α) := hops.foldlM t.hop d

/-- So many hops up, and then down. -/
@[ext]
structure NormalForm (α : Type) where
  ups : ℕ
  names : List α
  deriving DecidableEq, Repr

namespace NormalForm

/-- A hop more. -/
def add [DecidableEq α] (n : NormalForm α) : Hop α → NormalForm α
  | .stay => n
  | .up => if n.names = [] then { n with ups := n.ups + 1 } else { n with names := n.names.dropLast }
  | .down a => { n with names := n.names ++ [a] }

/-- The directory it leads to, if that exists. -/
def target (n : NormalForm α) (d : List α) : List α := d.take (d.length - n.ups) ++ n.names

def hops (n : NormalForm α) : List (Hop α) := List.replicate n.ups .up ++ n.names.map .down

end NormalForm

/-- The normal form of a path. -/
def normalize [DecidableEq α] (hops : List (Hop α)) : NormalForm α := hops.foldl NormalForm.add ⟨0, []⟩

variable {t : DirTree α} {d e : List α} {hops : List (Hop α)} {n : NormalForm α} {h : Hop α}

/-! ## The hops of a normal form -/

lemma NormalForm.ups_le_add [DecidableEq α] (n : NormalForm α) (h : Hop α) : n.ups ≤ (n.add h).ups := by
  cases h with
  | stay => exact le_rfl
  | up =>
      rw [add]
      split_ifs
      · exact Nat.le_succ _
      · exact le_rfl
  | down a => exact le_rfl

lemma NormalForm.ups_le_foldl [DecidableEq α] (hops : List (Hop α)) (n : NormalForm α) :
    n.ups ≤ (hops.foldl add n).ups := by
  induction hops generalizing n with
  | nil => exact le_rfl
  | cons h hops ih => exact (n.ups_le_add h).trans (ih (n.add h))

lemma NormalForm.foldl_ups [DecidableEq α] (k m : ℕ) :
    (List.replicate k Hop.up).foldl add ⟨m, ([] : List α)⟩ = ⟨m + k, []⟩ := by
  induction k generalizing m with
  | zero => rfl
  | succ k ih =>
      rw [List.replicate_succ, List.foldl_cons, add, if_pos rfl, ih, Nat.add_right_comm, Nat.add_assoc]

lemma NormalForm.foldl_downs [DecidableEq α] (names : List α) (n : NormalForm α) :
    (names.map Hop.down).foldl add n = { n with names := n.names ++ names } := by
  induction names generalizing n with
  | nil => simp
  | cons a names ih =>
      rw [List.map_cons, List.foldl_cons, ih]
      simp [add]

lemma normalize_hops [DecidableEq α] (n : NormalForm α) : normalize n.hops = n := by
  rw [normalize, NormalForm.hops, List.foldl_append, NormalForm.foldl_ups, NormalForm.foldl_downs]
  simp

/-! ## Walking -/

@[simp]
lemma DirTree.walk_nil : t.walk d [] = some d := rfl

@[simp]
lemma DirTree.walk_cons : t.walk d (h :: hops) = t.hop d h >>= fun e => t.walk e hops := rfl

lemma DirTree.walk_append (hops' : List (Hop α)) :
    t.walk d (hops ++ hops') = t.walk d hops >>= fun e => t.walk e hops' := by
  simp only [walk, List.foldlM_append]

lemma DirTree.isDir_take (hd : t.isDir d = true) (k : ℕ) : t.isDir (d.take k) = true := by
  induction d using List.reverseRecOn with
  | nil => simpa using hd
  | append_singleton d a ih =>
      rcases Nat.lt_or_ge d.length k with hlt | hge
      · rwa [List.take_of_length_le (by simpa using hlt)]
      · rw [List.take_append_of_le_length hge]
        exact ih (t.closed d a hd)

lemma DirTree.isDir_dropLast (hd : t.isDir d = true) : t.isDir d.dropLast = true := by
  rw [List.dropLast_eq_take]
  exact t.isDir_take hd _

lemma DirTree.isDir_hop (hd : t.isDir d = true) (he : t.hop d h = some e) : t.isDir e = true := by
  cases h with
  | stay =>
      cases he
      exact hd
  | up =>
      cases he
      exact t.isDir_dropLast hd
  | down a =>
      rw [hop] at he
      split_ifs at he with hdir
      cases he
      exact hdir

lemma DirTree.isDir_walk (hd : t.isDir d = true) (he : t.walk d hops = some e) : t.isDir e = true := by
  induction hops generalizing d with
  | nil =>
      cases he
      exact hd
  | cons h hops ih =>
      rw [walk_cons] at he
      obtain ⟨e', he', hrest⟩ := Option.bind_eq_some_iff.mp he
      exact ih (t.isDir_hop hd he') hrest

/-! ## The normal form -/

lemma target_add [DecidableEq α] (he : t.hop (n.target d) h = some e) : e = (n.add h).target d := by
  cases h with
  | stay =>
      cases he
      rfl
  | up =>
      cases he
      rw [NormalForm.add]
      split_ifs with hnames
      · simp only [NormalForm.target, hnames, List.append_nil, List.dropLast_eq_take, List.take_take,
          List.length_take]
        congr 1
        omega
      · rw [NormalForm.target, NormalForm.target, List.dropLast_append_of_ne_nil hnames]
  | down a =>
      rw [DirTree.hop] at he
      split_ifs at he
      cases he
      simp [NormalForm.target, NormalForm.add]

lemma walk_target [DecidableEq α] (he : t.walk (n.target d) hops = some e) :
    e = (hops.foldl NormalForm.add n).target d := by
  induction hops generalizing n with
  | nil =>
      cases he
      rfl
  | cons h hops ih =>
      rw [DirTree.walk_cons] at he
      obtain ⟨e', he', hrest⟩ := Option.bind_eq_some_iff.mp he
      rw [target_add he'] at hrest
      exact ih hrest

lemma target_start (d : List α) : (NormalForm.mk 0 []).target d = d := by simp [NormalForm.target]

lemma walk_ups (k : ℕ) : t.walk d (List.replicate k .up) = some (d.take (d.length - k)) := by
  induction k generalizing d with
  | zero => simp
  | succ k ih =>
      rw [List.replicate_succ, DirTree.walk_cons]
      simp only [DirTree.hop, Option.bind_eq_bind, Option.bind_some, ih, List.dropLast_eq_take,
        List.take_take, List.length_take]
      congr 2
      omega

lemma walk_downs (hd : t.isDir d = true) (names : List α) :
    t.walk d (names.map .down) = if t.isDir (d ++ names) then some (d ++ names) else none := by
  induction names generalizing d with
  | nil => simp [hd]
  | cons a names ih =>
      have hsplit : d ++ a :: names = (d ++ [a]) ++ names := by simp
      rw [List.map_cons, DirTree.walk_cons, DirTree.hop]
      split_ifs with hdir hend hend
      · rw [Option.bind_eq_bind, Option.bind_some, ih hdir, ← hsplit, if_pos hend]
      · rw [Option.bind_eq_bind, Option.bind_some, ih hdir, ← hsplit, if_neg hend]
      · have hfirst := t.isDir_take hend (d ++ [a]).length
        rw [hsplit, List.take_left] at hfirst
        exact absurd hfirst hdir
      · rfl

lemma walk_hops (hd : t.isDir d = true) (n : NormalForm α) :
    t.walk d n.hops = if t.isDir (n.target d) then some (n.target d) else none := by
  rw [NormalForm.hops, DirTree.walk_append, walk_ups, Option.bind_eq_bind, Option.bind_some]
  exact walk_downs (t.isDir_take hd _) n.names

/-- The normal form of a path leads to where the path leads, when the directories on the way exist. -/
theorem walk_normalize [DecidableEq α] (hd : t.isDir d = true) (hway : (t.walk d hops.dropLast).isSome) :
    t.walk d (normalize hops).hops = t.walk d hops := by
  rw [walk_hops hd]
  cases hops using List.reverseRecOn with
  | nil =>
      have htarget : (normalize ([] : List (Hop α))).target d = d := target_start d
      simp [htarget, hd]
  | append_singleton init h =>
      rw [List.dropLast_concat] at hway
      obtain ⟨e, he⟩ := Option.isSome_iff_exists.mp hway
      have htarget : e = (normalize init).target d := by
        rw [← target_start d] at he
        exact walk_target he
      have hadd : normalize (init ++ [h]) = (normalize init).add h := by simp [normalize]
      rw [DirTree.walk_append, he, Option.bind_eq_bind, Option.bind_some, DirTree.walk_cons, hadd]
      cases hnext : t.hop e h with
      | some e' =>
          have hdir := t.isDir_hop (t.isDir_walk hd he) hnext
          rw [htarget] at hnext
          rw [target_add hnext] at hdir ⊢
          simp [hdir]
      | none =>
          cases h with
          | stay => cases hnext
          | up => cases hnext
          | down a =>
              have hnone : ¬ t.isDir (e ++ [a]) = true := by
                intro hdir
                rw [DirTree.hop, if_pos hdir] at hnext
                cases hnext
              have hend : ((normalize init).add (.down a)).target d = e ++ [a] := by
                rw [htarget]
                simp [NormalForm.target, NormalForm.add]
              simp [hend, hnone]

end BrebOS

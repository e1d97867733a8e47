import Mathlib.Tactic

/-!
# The last entries

What stands in a ring that is overwritten at its head, from the head on: the last values that were written,
the oldest of them first, behind as many of the initial ones as are left.
-/

namespace BrebOS

variable {α : Type} {l : List α} {a d : α} {n k : ℕ}

/-- The last `n` elements. -/
def recent (n : ℕ) (l : List α) : List α := l.drop (l.length - n)

/-- The last `n` elements; where there are fewer, what is left of `n` initial ones stands before them. -/
def window (n : ℕ) (d : α) (l : List α) : List α := (List.replicate n d ++ l).drop l.length

lemma window_nil : window n d [] = List.replicate n d := by
  simp [window]

lemma window_eq : window n d l = List.replicate (n - l.length) d ++ recent n l := by
  rw [window, recent, List.drop_append, List.drop_replicate, List.length_replicate]

lemma window_concat (hn : 0 < n) : window n d (l ++ [a]) = (window n d l).tail ++ [a] := by
  have hle : l.length + 1 ≤ (List.replicate n d ++ l).length := by
    rw [List.length_append, List.length_replicate]
    omega
  rw [window, window, List.length_append, List.length_singleton, ← List.append_assoc,
    List.drop_append_of_le_length hle, List.tail_drop]

lemma rotate_set (hk : k < l.length) :
    (l.set k a).rotate ((k + 1) % l.length) = (l.rotate k).tail ++ [a] := by
  have hlen : (l.set k a).length = l.length := List.length_set
  have hdrop : l.rotate k = l[k] :: (l.drop (k + 1) ++ l.take k) := by
    rw [List.rotate_eq_drop_append_take hk.le, List.drop_eq_getElem_cons hk, List.cons_append]
  have htake : (l.set k a).take (k + 1) = l.take k ++ [a] := by
    rw [List.take_succ_eq_append_getElem (by rwa [hlen]), List.getElem_set_self,
      List.take_set_of_le le_rfl]
  rw [hdrop, List.tail_cons, ← hlen, List.rotate_mod, List.rotate_eq_drop_append_take (by omega),
    List.drop_set_of_lt (Nat.lt_succ_self k), htake, List.append_assoc]

lemma map_range_rotate : (List.range l.length).map (fun i => l.getD ((k + i) % l.length) d) = l.rotate k := by
  refine List.ext_getElem (by simp) fun i hi hi' => ?_
  have hmod : (k + i) % l.length < l.length := Nat.mod_lt _ (by rw [List.length_rotate] at hi'; omega)
  rw [List.getElem_map, List.getElem_range, List.getD_eq_getElem?_getD, List.getElem?_eq_getElem hmod,
    Option.getD_some, List.getElem_rotate]
  simp only [Nat.add_comm i k]

end BrebOS

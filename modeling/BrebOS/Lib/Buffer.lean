import Mathlib.Tactic

/-!
# Buffers of a fixed length

Writes into a buffer that are checked against its length.  A run of writes from an index on succeeds
iff all of it is in the buffer, and then replaces that stretch of it.
-/

namespace BrebOS

variable {α ε : Type} {e : ε} {i : ℕ} {b : α} {bs cs buf : List α}

/-- A write at an index, or `e` when the index is not in the buffer. -/
def poke (e : ε) (i : ℕ) (b : α) (buf : List α) : Except ε (List α) :=
  if i < buf.length then .ok (buf.set i b) else .error e

/-- Writes from an index on. -/
def pokes (e : ε) : ℕ → List α → List α → Except ε (List α)
  | _, [], buf => .ok buf
  | i, b :: bs, buf => poke e i b buf >>= pokes e (i + 1) bs

lemma poke_ok (h : i < buf.length) : poke e i b buf = .ok (buf.set i b) := if_pos h

lemma poke_error (h : buf.length ≤ i) : poke e i b buf = .error e := if_neg (by omega)

@[simp]
lemma pokes_nil : pokes e i [] buf = .ok buf := rfl

lemma pokes_cons_ok (h : i < buf.length) :
    pokes e i (b :: bs) buf = pokes e (i + 1) bs (buf.set i b) := by
  rw [pokes, poke_ok h]
  rfl

lemma pokes_ok : ∀ {bs : List α} {i : ℕ} {buf : List α}, i + bs.length ≤ buf.length →
    pokes e i bs buf = .ok (buf.take i ++ bs ++ buf.drop (i + bs.length))
  | [], i, buf, _ => by simp
  | b :: bs, i, buf, h => by
      simp only [List.length_cons] at h
      have hset : buf.set i b = buf.take i ++ b :: buf.drop (i + 1) :=
        List.set_eq_take_append_cons_drop.trans (if_pos (by omega))
      have htake : (buf.set i b).take (i + 1) = buf.take i ++ [b] := by
        rw [hset, List.take_append, List.length_take, min_eq_left (by omega)]
        simp
      have hdrop : (buf.set i b).drop (i + 1 + bs.length) = buf.drop (i + (bs.length + 1)) := by
        rw [List.drop_set_of_lt (by omega), show i + 1 + bs.length = i + (bs.length + 1) by omega]
      rw [pokes_cons_ok (by omega), pokes_ok (by rw [List.length_set]; omega), htake, hdrop]
      simp

lemma pokes_error : ∀ {bs : List α} {i : ℕ} {buf : List α}, bs ≠ [] → buf.length < i + bs.length →
    pokes e i bs buf = .error e
  | [], _, _, hne, _ => absurd rfl hne
  | b :: bs, i, buf, _, h => by
      simp only [List.length_cons] at h
      by_cases hi : i < buf.length
      · have hne : bs ≠ [] := by
          rintro rfl
          simp at h
          omega
        rw [pokes_cons_ok hi]
        exact pokes_error hne (by rw [List.length_set]; omega)
      · rw [pokes, poke_error (by omega)]
        rfl

lemma pokes_append (cs : List α) (h : bs.length ≤ buf.length) :
    pokes e cs.length bs (cs ++ buf) = .ok (cs ++ bs ++ buf.drop bs.length) := by
  rw [pokes_ok (by simp [h])]
  simp

lemma poke_append {c : α} (cs : List α) (b : α) (buf : List α) :
    poke e cs.length b (cs ++ c :: buf) = .ok (cs ++ b :: buf) := by
  rw [poke_ok (by simp)]
  simp

end BrebOS

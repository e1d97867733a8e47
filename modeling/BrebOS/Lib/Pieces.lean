import BrebOS.Lib.Bytes

/-!
# Pieces that lie in a memory

A memory has a byte at some of its addresses.  Pieces that lie one after the other in it lie each at its own
address (`Lies.pieces`), and do not overlap (`endsBefore_stretches`); a piece that consists of words is read
word by word (`Lies.words`).
-/

namespace BrebOS

variable {mem mem' : ℕ → Option UInt8} {a b : ℕ} {bs cs : List UInt8}

/-- The bytes lie in the memory, from an address on. -/
def Lies (mem : ℕ → Option UInt8) (a : ℕ) (bs : List UInt8) : Prop := ∀ i < bs.length, mem (a + i) = bs[i]?

lemma lies_nil : Lies mem a [] := by simp [Lies]

lemma lies_append : Lies mem a (bs ++ cs) ↔ Lies mem a bs ∧ Lies mem (a + bs.length) cs := by
  constructor
  · intro h
    refine ⟨fun i hi => ?_, fun i hi => ?_⟩
    · rw [h i (by simp only [List.length_append]; omega), List.getElem?_append_left hi]
    · rw [Nat.add_assoc, h (bs.length + i) (by simp only [List.length_append]; omega),
        List.getElem?_append_right (by omega), Nat.add_sub_cancel_left]
  · rintro ⟨hb, hc⟩ i hi
    simp only [List.length_append] at hi
    rcases Nat.lt_or_ge i bs.length with hlt | hge
    · rw [hb i hlt, List.getElem?_append_left hlt]
    · rw [List.getElem?_append_right hge, ← hc (i - bs.length) (by omega)]
      congr 1
      omega

lemma Lies.congr (h : Lies mem a bs) (hsame : ∀ i < bs.length, mem' (a + i) = mem (a + i)) :
    Lies mem' a bs := by
  intro i hi
  rw [hsame i hi, h i hi]

/-! ## Words -/

/-- The bytes of a word of 32 bits. -/
def wordBytes (v : ℕ) : List UInt8 := (List.range 4).map (leBytes v)

@[simp]
lemma length_wordBytes (v : ℕ) : (wordBytes v).length = 4 := rfl

/-- The word at an address. -/
def readWord (mem : ℕ → Option UInt8) (a : ℕ) : Option ℕ := do
  let b₀ ← mem a
  let b₁ ← mem (a + 1)
  let b₂ ← mem (a + 2)
  let b₃ ← mem (a + 3)
  return b₀.toNat + 256 * (b₁.toNat + 256 * (b₂.toNat + 256 * b₃.toNat))

lemma Lies.word {v : ℕ} (h : Lies mem a (wordBytes v)) : readWord mem a = some (v % 4294967296) := by
  have h₀ : mem a = some (leBytes v 0) := h 0 (by simp)
  have h₁ : mem (a + 1) = some (leBytes v 1) := h 1 (by simp)
  have h₂ : mem (a + 2) = some (leBytes v 2) := h 2 (by simp)
  have h₃ : mem (a + 3) = some (leBytes v 3) := h 3 (by simp)
  have hread := leRead_of_bytes (s := leBytes v) (i := 0) (n := 4) (v := v) fun k _ => by rw [Nat.zero_add]
  simp only [readWord, h₀, h₁, h₂, h₃]
  refine congrArg some (Eq.trans ?_ hread)
  simp [leRead]

lemma Lies.words : ∀ {ws : List ℕ} {a : ℕ}, Lies mem a (ws.flatMap wordBytes) →
    ∀ k < ws.length, readWord mem (a + 4 * k) = ws[k]?.map (· % 4294967296) := by
  intro ws
  induction ws with
  | nil => simp
  | cons w ws ih =>
      intro a h k hk
      rw [List.flatMap_cons, lies_append] at h
      obtain ⟨hword, hrest⟩ := h
      cases k with
      | zero => rw [Nat.mul_zero, Nat.add_zero, hword.word]; rfl
      | succ k =>
          have hnext := ih hrest k (by simpa using hk)
          rw [length_wordBytes, Nat.add_assoc] at hnext
          rw [show 4 * (k + 1) = 4 + 4 * k by omega, hnext]
          rfl

lemma length_flatMap_wordBytes (ws : List ℕ) : (ws.flatMap wordBytes).length = 4 * ws.length := by
  induction ws with
  | nil => rfl
  | cons w ws ih =>
      rw [List.flatMap_cons, List.length_append, length_wordBytes, List.length_cons, ih]
      omega

/-! ## Pieces one after the other -/

/-- Where the pieces begin that lie one after the other from an address on. -/
def starts : ℕ → List (List UInt8) → List ℕ
  | _, [] => []
  | a, p :: ps => a :: starts (a + p.length) ps

variable {ps qs : List (List UInt8)}

@[simp]
lemma length_starts : ∀ {ps : List (List UInt8)} {a : ℕ}, (starts a ps).length = ps.length := by
  intro ps
  induction ps with
  | nil => simp [starts]
  | cons p ps ih => simp [starts, ih]

lemma starts_append : ∀ {ps : List (List UInt8)} {a : ℕ},
    starts a (ps ++ qs) = starts a ps ++ starts (a + ps.flatten.length) qs := by
  intro ps
  induction ps with
  | nil => simp [starts]
  | cons p ps ih =>
      intro a
      rw [List.cons_append, starts, starts, ih, List.flatten_cons, List.length_append, Nat.add_assoc,
        List.cons_append]

lemma starts_le : ∀ {ps : List (List UInt8)} {a : ℕ}, ∀ x ∈ starts a ps, x ≤ a + ps.flatten.length := by
  intro ps
  induction ps with
  | nil => simp [starts]
  | cons p ps ih =>
      intro a x hx
      rw [List.flatten_cons, List.length_append]
      rcases List.mem_cons.mp hx with rfl | hx
      · exact Nat.le_add_right _ _
      · have hle := ih x hx
        omega

lemma Lies.pieces : ∀ {ps : List (List UInt8)} {a : ℕ}, Lies mem a ps.flatten →
    List.Forall₂ (Lies mem) (starts a ps) ps := by
  intro ps
  induction ps with
  | nil => intro a _; exact List.Forall₂.nil
  | cons p ps ih =>
      intro a h
      rw [List.flatten_cons, lies_append] at h
      exact List.Forall₂.cons h.1 (ih h.2)

/-- A stretch of memory, by its first address and its length, ends where another begins, or before. -/
def EndsBefore (x y : ℕ × ℕ) : Prop := x.1 + x.2 ≤ y.1

/-- The stretches of the pieces. -/
def stretches (a : ℕ) (ps : List (List UInt8)) : List (ℕ × ℕ) := (starts a ps).zip (ps.map List.length)

@[simp]
lemma stretches_nil : stretches a [] = [] := rfl

@[simp]
lemma stretches_cons (p : List UInt8) : stretches a (p :: ps) = (a, p.length) :: stretches (a + p.length) ps :=
  rfl

lemma stretches_append : stretches a (ps ++ qs) = stretches a ps ++ stretches (a + ps.flatten.length) qs := by
  rw [stretches, starts_append, List.map_append, List.zip_append (by rw [length_starts, List.length_map])]
  rfl

lemma stretches_mem : ∀ {ps : List (List UInt8)} {a : ℕ}, ∀ x ∈ stretches a ps,
    a ≤ x.1 ∧ x.1 + x.2 ≤ a + ps.flatten.length := by
  intro ps
  induction ps with
  | nil => simp [stretches, starts]
  | cons p ps ih =>
      intro a x hx
      rw [stretches_cons] at hx
      rw [List.flatten_cons, List.length_append]
      rcases List.mem_cons.mp hx with rfl | hx
      · exact ⟨le_rfl, by dsimp only; omega⟩
      · have hin := ih x hx
        omega

lemma endsBefore_stretches : ∀ {ps : List (List UInt8)} {a : ℕ}, (stretches a ps).Pairwise EndsBefore := by
  intro ps
  induction ps with
  | nil => intro a; exact List.Pairwise.nil
  | cons p ps ih =>
      intro a
      rw [stretches_cons]
      exact List.Pairwise.cons (fun x hx => (stretches_mem x hx).1) ih

end BrebOS

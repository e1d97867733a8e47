import BrebOS.Lib.Loop

/-!
# The descriptors of the shell

The descriptor table of a POSIX process, as the calls `open`, `dup`, `dup2`, `close`, `pipe` and `fcntl` see
it: which descriptors are open, and the open file description each refers to.  A new descriptor is the lowest
one that is free.  The flag `FD_CLOEXEC` is left out: it matters only to a process that calls `exec`.
-/

namespace BrebOS.Shell

/-- `O_ACCMODE` of an open file. -/
inductive AccessMode
  | rdonly
  | wronly
  | rdwr
  deriving DecidableEq, Repr

/-- An open file description. -/
inductive OpenFile
  | file (id : ℕ) (mode : AccessMode)
  | readEnd (pipe : ℕ)
  | writeEnd (pipe : ℕ)
  deriving DecidableEq, Repr

def OpenFile.mode : OpenFile → AccessMode
  | .file _ mode => mode
  | .readEnd _ => .rdonly
  | .writeEnd _ => .wronly

/-- What each descriptor refers to. -/
abbrev Fds := ℕ → Option OpenFile

namespace Fds

/-- What an `int` refers to. -/
def get (fd : ℤ) (t : Fds) : Option OpenFile := if 0 ≤ fd then t fd.toNat else none

/-- The lowest free descriptor, of `openMax` ones. -/
def lowestFree (openMax : ℕ) (t : Fds) : Option ℕ :=
  let i := skipWhile (fun j => (t j).isSome) openMax 0
  if i < openMax then some i else none

/-- A new descriptor, or −1. -/
def alloc (openMax : ℕ) (f : OpenFile) (t : Fds) : ℤ × Fds :=
  match t.lowestFree openMax with
  | some i => (i, Function.update t i (some f))
  | none => (-1, t)

/-- `dup`. -/
def dup (openMax : ℕ) (fd : ℤ) (t : Fds) : ℤ × Fds :=
  match t.get fd with
  | some f => t.alloc openMax f
  | none => (-1, t)

/-- `dup2`, which may fail. -/
def dup2 (openMax : ℕ) (oldfd newfd : ℤ) (t : Fds) : Option Fds :=
  match t.get oldfd with
  | some f => if 0 ≤ newfd ∧ newfd < openMax then some (Function.update t newfd.toNat (some f)) else none
  | none => none

/-- `close`, which fails on a descriptor that is not open. -/
def close (fd : ℤ) (t : Fds) : Option Fds :=
  match t.get fd with
  | some _ => some (Function.update t fd.toNat none)
  | none => none

/-! ## What the calls do -/

variable {openMax i : ℕ} {t t' : Fds} {fd newfd : ℤ} {f : OpenFile}

@[simp] lemma get_natCast (i : ℕ) (t : Fds) : t.get i = t i := by simp [get]

lemma get_eq_some : t.get fd = some f ↔ ∃ i : ℕ, fd = i ∧ t i = some f := by
  constructor
  · intro h
    rw [get] at h
    split_ifs at h with hfd
    exact ⟨fd.toNat, (Int.toNat_of_nonneg hfd).symm, h⟩
  · rintro ⟨i, rfl, h⟩
    rw [get_natCast]
    exact h

lemma lowestFree_spec (h : t.lowestFree openMax = some i) : i < openMax ∧ t i = none := by
  simp only [lowestFree, Option.ite_none_right_eq_some, Option.some.injEq] at h
  obtain ⟨hlt, rfl⟩ := h
  obtain ⟨-, -, -, hend⟩ := skipWhile_spec (fun j => (t j).isSome) openMax 0
  have hfree := hend (by omega)
  exact ⟨hlt, by simpa using hfree⟩

lemma exists_lowestFree (hi : i < openMax) (hfree : t i = none) : ∃ j, t.lowestFree openMax = some j := by
  obtain ⟨-, hle, hskip, -⟩ := skipWhile_spec (fun j => (t j).isSome) openMax 0
  have hlt : skipWhile (fun j => (t j).isSome) openMax 0 < openMax := by
    by_contra hge
    have := hskip i (Nat.zero_le i) (by omega)
    simp [hfree] at this
  exact ⟨_, if_pos hlt⟩

lemma alloc_eq (h : t.lowestFree openMax = some i) : t.alloc openMax f =
    (↑i, Function.update t i (some f)) := by
  rw [alloc, h]

lemma alloc_full (h : t.lowestFree openMax = none) : t.alloc openMax f = (-1, t) := by
  rw [alloc, h]

lemma dup_eq (hfd : t.get fd = some f) : t.dup openMax fd = t.alloc openMax f := by
  rw [dup, hfd]

lemma dup2_eq {j : ℕ} (hfd : t.get fd = some f) (hj : j < openMax) :
    t.dup2 openMax fd j = some (Function.update t j (some f)) := by
  rw [dup2, hfd]
  exact if_pos ⟨Int.natCast_nonneg j, by exact_mod_cast hj⟩

lemma dup2_eq_some (h : t.dup2 openMax fd newfd = some t') :
    ∃ f, ∃ j : ℕ, t.get fd = some f ∧ newfd = j ∧ j < openMax ∧ t' = Function.update t j (some f) := by
  rw [dup2] at h
  split at h
  · next f hf =>
      split_ifs at h with hnew
      refine ⟨f, newfd.toNat, hf, (Int.toNat_of_nonneg hnew.1).symm, by omega, ?_⟩
      cases h
      rfl
  · cases h

lemma close_eq (h : t i = some f) : t.close i = some (Function.update t i none) := by
  rw [close, get_natCast, h, Int.toNat_natCast]

end Fds

end BrebOS.Shell

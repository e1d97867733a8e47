import BrebOS.Processes.Descriptors
import BrebOS.FileManagement.PipeEnds
import BrebOS.Lib.Count

/-!
# Open files and the descriptors for them

`Files` says that the reference count of an open file is the number of descriptors for it, in all
processes, and that no descriptor is for a file that is gone.  `Waits` is about the processes that
wait for a pipe; each of them has a descriptor for the read end, so the read end cannot go away under
it.

The lemmas are about the parts calls are made of: a slot filled or emptied, an entry made or removed.
-/

namespace BrebOS

namespace Descriptors

/-- The slots of all tables. -/
def allSlots : Finset (ℕ × ℕ) :=
  Finset.range (maxProcesses + 1) ×ˢ Finset.range maxFdPerProcess

/-- The system descriptor in slot `x.2` of process `x.1`. -/
def sysFdAt (s : Descriptors) (x : ℕ × ℕ) : Option ℕ :=
  ((s.table x.1).slots x.2).map FileDescriptor.sysFd

/-- The number of descriptors for a file. -/
def refs (s : Descriptors) (fd : ℕ) : ℕ :=
  ∑ x ∈ allSlots, if s.sysFdAt x = some fd then 1 else 0

/-- Reference counts. -/
structure Files (s : Descriptors) : Prop where
  index : ∀ pid i d, (s.table pid).slots i = some d → (pid, i) ∈ allSlots ∧ d.fd = i
  opened : ∀ x fd, s.sysFdAt x = some fd → (s.vfs.files fd).isSome
  rc : ∀ fd f, s.vfs.files fd = some f → f.rc = s.refs fd

section Slots

variable {s s' : Descriptors} {pid q i j fd : ℕ} {t : FdTable} {d : FileDescriptor}

@[simp]
lemma table_setTable : (s.setTable pid t).table pid = t := by simp [table, setTable]

@[simp]
lemma table_setTable_ne (h : q ≠ pid) : (s.setTable pid t).table q = s.table q := by
  simp [table, setTable, h]

@[simp]
lemma slots_setSlot {o : Option FileDescriptor} : (t.setSlot i o).slots i = o := by
  simp [FdTable.setSlot]

@[simp]
lemma slots_setSlot_ne {o : Option FileDescriptor} (h : j ≠ i) :
    (t.setSlot i o).slots j = t.slots j := by
  simp [FdTable.setSlot, h]

lemma refs_change (fd : ℕ) {x : ℕ × ℕ} (hx : x ∈ allSlots)
    (h : ∀ y, y ≠ x → s'.sysFdAt y = s.sysFdAt y) :
    s'.refs fd + (if s.sysFdAt x = some fd then 1 else 0) =
      s.refs fd + (if s'.sysFdAt x = some fd then 1 else 0) := by
  let count (s : Descriptors) (y : ℕ × ℕ) : ℕ := if s.sysFdAt y = some fd then 1 else 0
  have hcount : ∀ y ∈ allSlots, y ≠ x → count s' y = count s y := by
    intro y _ hy
    simp only [count, h y hy]
  exact sum_change hx hcount

lemma refs_congr (h : s'.sysFdAt = s.sysFdAt) : s'.refs fd = s.refs fd := by
  unfold refs
  rw [h]

lemma refs_pos {x : ℕ × ℕ} (hx : x ∈ allSlots) (h : s.sysFdAt x = some fd) : 0 < s.refs fd := by
  refine Finset.sum_pos' (fun _ _ => Nat.zero_le _) ⟨x, hx, ?_⟩
  rw [if_pos h]
  exact Nat.one_pos

namespace Files

lemma mem_allSlots (h : s.Files) {x : ℕ × ℕ} (hx : s.sysFdAt x = some fd) : x ∈ allSlots := by
  rcases x with ⟨pid, i⟩
  obtain ⟨d, hd, -⟩ := Option.map_eq_some_iff.mp hx
  exact (h.index pid i d hd).1

lemma refs_eq_zero (h : s.Files) (hfd : s.vfs.files fd = none) : s.refs fd = 0 := by
  refine Finset.sum_eq_zero fun x _ => if_neg fun hx => ?_
  simpa [hfd] using h.opened x fd hx

lemma congr_sysFdAt (h : s.Files) (hsys : s'.sysFdAt = s.sysFdAt)
    (hindex : ∀ pid i d, (s'.table pid).slots i = some d →
      ∃ d', (s.table pid).slots i = some d' ∧ d'.fd = d.fd)
    (hfiles : s'.vfs.files = s.vfs.files) : s'.Files := by
  refine ⟨?_, ?_, ?_⟩
  · intro pid i d hd
    obtain ⟨d', hd', hfd⟩ := hindex pid i d hd
    exact hfd ▸ h.index pid i d' hd'
  · rw [hsys, hfiles]
    exact h.opened
  · intro fd f hf
    rw [refs_congr hsys]
    exact h.rc fd f (hfiles ▸ hf)

lemma congr (h : s.Files) (hslots : ∀ pid i, (s'.table pid).slots i = (s.table pid).slots i)
    (hfiles : s'.vfs.files = s.vfs.files) : s'.Files := by
  refine h.congr_sysFdAt ?_ ?_ hfiles
  · funext x
    simp [sysFdAt, hslots]
  · intro pid i d hd
    exact ⟨d, hslots pid i ▸ hd, rfl⟩

lemma add (h : s.Files) {k : FileKind} (hnone : s.vfs.files fd = none)
    (hslots : ∀ pid i, (s'.table pid).slots i = (s.table pid).slots i)
    (hfiles : s'.vfs.files = Function.update s.vfs.files fd (some { kind := k })) : s'.Files := by
  have hsys : s'.sysFdAt = s.sysFdAt := by
    funext x
    simp [sysFdAt, hslots]
  refine ⟨?_, ?_, ?_⟩
  · intro pid i d hd
    rw [hslots] at hd
    exact h.index pid i d hd
  · intro x j hx
    rw [hsys] at hx
    rw [hfiles]
    rcases eq_or_ne j fd with rfl | hj
    · simp
    · rw [Function.update_of_ne hj]
      exact h.opened x j hx
  · intro j f hf
    rw [refs_congr hsys]
    rw [hfiles] at hf
    rcases eq_or_ne j fd with rfl | hj
    · obtain rfl : _ = f := by simpa using hf
      simp [h.refs_eq_zero hnone]
    · rw [Function.update_of_ne hj] at hf
      exact h.rc j f hf

lemma remove (h : s.Files) (hzero : s.refs fd = 0)
    (hslots : ∀ pid i, (s'.table pid).slots i = (s.table pid).slots i)
    (hfiles : s'.vfs.files = Function.update s.vfs.files fd none) : s'.Files := by
  have hsys : s'.sysFdAt = s.sysFdAt := by
    funext x
    simp [sysFdAt, hslots]
  refine ⟨?_, ?_, ?_⟩
  · intro pid i d hd
    rw [hslots] at hd
    exact h.index pid i d hd
  · intro x j hx
    rw [hsys] at hx
    rw [hfiles]
    rcases eq_or_ne j fd with rfl | hj
    · have := refs_pos (h.mem_allSlots hx) hx
      omega
    · rw [Function.update_of_ne hj]
      exact h.opened x j hx
  · intro j f hf
    rw [refs_congr hsys]
    rw [hfiles] at hf
    rcases eq_or_ne j fd with rfl | hj
    · simp at hf
    · rw [Function.update_of_ne hj] at hf
      exact h.rc j f hf

lemma fill {f : FileInterface} (h : s.Files) (hslot : (s.table pid).slots i = none)
    (hi : (pid, i) ∈ allSlots) (hd : d.fd = i) (hf : s.vfs.files d.sysFd = some f)
    (hslots : ∀ q j, (s'.table q).slots j =
      if q = pid ∧ j = i then some d else (s.table q).slots j)
    (hfiles : s'.vfs.files = Function.update s.vfs.files d.sysFd (some { f with rc := f.rc + 1 })) :
    s'.Files := by
  have hself : s'.sysFdAt (pid, i) = some d.sysFd := by simp [sysFdAt, hslots]
  have hother : ∀ y, y ≠ (pid, i) → s'.sysFdAt y = s.sysFdAt y := by
    rintro ⟨q, j⟩ hy
    have hne : ¬ (q = pid ∧ j = i) := by simpa using hy
    simp only [sysFdAt, hslots, if_neg hne]
  have hold : s.sysFdAt (pid, i) = none := by simp [sysFdAt, hslot]
  refine ⟨?_, ?_, ?_⟩
  · intro q j e he
    rw [hslots] at he
    split_ifs at he with hqj
    · obtain ⟨rfl, rfl⟩ := hqj
      obtain rfl : d = e := by simpa using he
      exact ⟨hi, hd⟩
    · exact h.index q j e he
  · intro x j hx
    rw [hfiles]
    rcases eq_or_ne j d.sysFd with rfl | hj
    · simp
    · rw [Function.update_of_ne hj]
      rcases eq_or_ne x (pid, i) with rfl | hx'
      · rw [hself, Option.some.injEq] at hx
        exact absurd hx.symm hj
      · exact h.opened x j (hother x hx' ▸ hx)
  · intro j g hg
    have hrefs := refs_change j hi hother
    rw [hold, hself] at hrefs
    rw [hfiles] at hg
    rcases eq_or_ne j d.sysFd with rfl | hj
    · obtain rfl : _ = g := by simpa using hg
      have := h.rc d.sysFd f hf
      simp at hrefs
      push_cast [hrefs]
      omega
    · rw [Function.update_of_ne hj] at hg
      rw [if_neg (by simp), if_neg (by simpa using hj.symm)] at hrefs
      have := h.rc j g hg
      omega

lemma clear {f : FileInterface} (h : s.Files) (hslot : (s.table pid).slots i = some d)
    (hf : s.vfs.files d.sysFd = some f)
    (hslots : ∀ q j, (s'.table q).slots j = if q = pid ∧ j = i then none else (s.table q).slots j)
    (hfiles : s'.vfs.files = Function.update s.vfs.files d.sysFd (some { f with rc := f.rc - 1 })) :
    s'.Files := by
  have hself : s'.sysFdAt (pid, i) = none := by simp [sysFdAt, hslots]
  have hother : ∀ y, y ≠ (pid, i) → s'.sysFdAt y = s.sysFdAt y := by
    rintro ⟨q, j⟩ hy
    have hne : ¬ (q = pid ∧ j = i) := by simpa using hy
    simp only [sysFdAt, hslots, if_neg hne]
  have hold : s.sysFdAt (pid, i) = some d.sysFd := by simp [sysFdAt, hslot]
  have hi := (h.index pid i d hslot).1
  refine ⟨?_, ?_, ?_⟩
  · intro q j e he
    rw [hslots] at he
    split_ifs at he
    exact h.index q j e he
  · intro x j hx
    rw [hfiles]
    rcases eq_or_ne j d.sysFd with rfl | hj
    · simp
    · rw [Function.update_of_ne hj]
      rcases eq_or_ne x (pid, i) with rfl | hx'
      · simp [hself] at hx
      · exact h.opened x j (hother x hx' ▸ hx)
  · intro j g hg
    have hrefs := refs_change j hi hother
    rw [hold, hself] at hrefs
    rw [hfiles] at hg
    rcases eq_or_ne j d.sysFd with rfl | hj
    · obtain rfl : _ = g := by simpa using hg
      have := h.rc d.sysFd f hf
      simp at hrefs
      rw [← hrefs] at this
      push_cast at this ⊢
      omega
    · rw [Function.update_of_ne hj] at hg
      rw [if_neg (by simpa using hj.symm), if_neg (by simp)] at hrefs
      have := h.rc j g hg
      omega

end Files

end Slots

end Descriptors

end BrebOS

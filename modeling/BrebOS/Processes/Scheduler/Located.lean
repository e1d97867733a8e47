import Mathlib.Tactic

/-!
# One place for each

What a scheduler's queues are for: each process that is neither gone nor a zombie is in one place, and
a queue lists once who is there.  A process that blocks takes its new place at once, and leaves the
ready queue only when the scheduler looks at it; meanwhile it is `mid`.

Nobody keeps a list of who waits for a process.
-/

namespace BrebOS

/-- Where a process can be. -/
inductive Place
  | ready
  | key
  | sleep
  | read
  | wait
  deriving DecidableEq, Repr

variable {α : Type} [DecidableEq α] {place : α → Option Place} {mid : Option α}
  {ready key sleep read : List α} {pid q : α}

/-- The lists say who is where. -/
structure Located (place : α → Option Place) (mid : Option α) (ready key sleep read : List α) : Prop where
  ready : ∀ q, ready.count q = if place q = some .ready ∨ mid = some q then 1 else 0
  key : ∀ q, key.count q = if place q = some .key ∧ mid ≠ some q then 1 else 0
  sleep : ∀ q, sleep.count q = if place q = some .sleep then 1 else 0
  read : ∀ q, read.count q = if place q = some .read then 1 else 0
  mid : ∀ q, mid = some q → place q ≠ some .ready ∧ place q ≠ none

section Counts

variable {l : List α} {P : α → Prop} [DecidablePred P]

lemma mem_iff_of_count (h : ∀ q, l.count q = if P q then 1 else 0) : q ∈ l ↔ P q := by
  rw [← List.count_pos_iff, h]
  split_ifs with hq
  · simp [hq]
  · simp [hq]

lemma nodup_of_count (h : ∀ q, l.count q = if P q then 1 else 0) : l.Nodup := by
  rw [List.nodup_iff_count_le_one]
  intro q
  rw [h]
  split_ifs
  · exact le_rfl
  · exact zero_le_one

end Counts

namespace Located

lemma mem_ready (h : Located place mid ready key sleep read) :
    q ∈ ready ↔ place q = some .ready ∨ mid = some q := mem_iff_of_count h.ready

lemma mem_key (h : Located place mid ready key sleep read) :
    q ∈ key ↔ place q = some .key ∧ mid ≠ some q := mem_iff_of_count h.key

lemma mem_sleep (h : Located place mid ready key sleep read) : q ∈ sleep ↔ place q = some .sleep :=
  mem_iff_of_count h.sleep

lemma mem_read (h : Located place mid ready key sleep read) : q ∈ read ↔ place q = some .read :=
  mem_iff_of_count h.read

lemma nodup_ready (h : Located place mid ready key sleep read) : ready.Nodup := nodup_of_count h.ready

lemma nodup_key (h : Located place mid ready key sleep read) : key.Nodup := nodup_of_count h.key

lemma nodup_read (h : Located place mid ready key sleep read) : read.Nodup := nodup_of_count h.read

lemma perm {ready' key' sleep' read' : List α} (h : Located place mid ready key sleep read)
    (hready : ready'.Perm ready) (hkey : key'.Perm key) (hsleep : sleep'.Perm sleep)
    (hread : read'.Perm read) : Located place mid ready' key' sleep' read' where
  ready q := (hready.count_eq q).trans (h.ready q)
  key q := (hkey.count_eq q).trans (h.key q)
  sleep q := (hsleep.count_eq q).trans (h.sleep q)
  read q := (hread.count_eq q).trans (h.read q)
  mid := h.mid

lemma wake {key' sleep' read' : List α} {b : Place} (h : Located place mid ready key sleep read)
    (hb : place pid = some b) (hne : b ≠ .ready) (hmid : mid ≠ some pid)
    (hkey : key.Perm (if b = .key then pid :: key' else key'))
    (hsleep : sleep.Perm (if b = .sleep then pid :: sleep' else sleep'))
    (hread : read.Perm (if b = .read then pid :: read' else read')) :
    Located (Function.update place pid (some .ready)) mid (ready ++ [pid]) key' sleep' read' := by
  refine ⟨?_, ?_, ?_, ?_, ?_⟩
  · intro q
    have hq := h.ready q
    rw [List.count_append, List.count_singleton, Function.update_apply]
    grind
  · intro q
    have hq := h.key q
    rw [hkey.count_eq] at hq
    rw [Function.update_apply]
    grind
  · intro q
    have hq := h.sleep q
    rw [hsleep.count_eq] at hq
    rw [Function.update_apply]
    grind
  · intro q
    have hq := h.read q
    rw [hread.count_eq] at hq
    rw [Function.update_apply]
    grind
  · intro q hq
    have hne' : q ≠ pid := by
      rintro rfl
      exact hmid hq
    rw [Function.update_of_ne hne']
    exact h.mid q hq

lemma block {b : Place} (h : Located place none ready key sleep read) (hpid : place pid = some .ready)
    (hb : b ≠ .ready) :
    Located (Function.update place pid (some b)) (some pid) ready key
      (if b = .sleep then pid :: sleep else sleep) (if b = .read then pid :: read else read) := by
  refine ⟨?_, ?_, ?_, ?_, ?_⟩
  · intro q
    have hq := h.ready q
    rw [Function.update_apply]
    grind
  · intro q
    have hq := h.key q
    rw [Function.update_apply]
    grind
  · intro q
    have hq := h.sleep q
    rw [Function.update_apply]
    grind
  · intro q
    have hq := h.read q
    rw [Function.update_apply]
    grind
  · rintro q ⟨⟩
    simpa using hb

lemma leave (h : Located place (some pid) (pid :: ready) key sleep read) :
    Located place none ready (if place pid = some .key then key ++ [pid] else key) sleep read := by
  obtain ⟨hpid, -⟩ := h.mid pid rfl
  refine ⟨?_, ?_, ?_, ?_, ?_⟩
  · intro q
    have hq := h.ready q
    rw [List.count_cons] at hq
    grind
  · intro q
    have hq := h.key q
    by_cases hkey : place pid = some .key
    · rw [if_pos hkey, List.count_append, List.count_singleton]
      grind
    · rw [if_neg hkey]
      grind
  · intro q
    exact h.sleep q
  · intro q
    exact h.read q
  · intro q hq
    cases hq

lemma add (h : Located place mid ready key sleep read) (hpid : place pid = none) :
    Located (Function.update place pid (some .ready)) mid (ready ++ [pid]) key sleep read := by
  have hmid : mid ≠ some pid := by
    intro hmid
    exact (h.mid pid hmid).2 hpid
  refine ⟨?_, ?_, ?_, ?_, ?_⟩
  · intro q
    have hq := h.ready q
    rw [List.count_append, List.count_singleton, Function.update_apply]
    grind
  · intro q
    have hq := h.key q
    rw [Function.update_apply]
    grind
  · intro q
    have hq := h.sleep q
    rw [Function.update_apply]
    grind
  · intro q
    have hq := h.read q
    rw [Function.update_apply]
    grind
  · intro q hq
    have hne : q ≠ pid := by
      rintro rfl
      exact hmid hq
    rw [Function.update_of_ne hne]
    exact h.mid q hq

lemma remove {ready' : List α} (h : Located place none ready key sleep read)
    (hpid : place pid = some .ready) (hready : ready.Perm (pid :: ready')) :
    Located (Function.update place pid none) none ready' key sleep read := by
  refine ⟨?_, ?_, ?_, ?_, ?_⟩
  · intro q
    have hq := h.ready q
    rw [hready.count_eq, List.count_cons] at hq
    rw [Function.update_apply]
    grind
  · intro q
    have hq := h.key q
    rw [Function.update_apply]
    grind
  · intro q
    have hq := h.sleep q
    rw [Function.update_apply]
    grind
  · intro q
    have hq := h.read q
    rw [Function.update_apply]
    grind
  · intro q hq
    cases hq

end Located

end BrebOS

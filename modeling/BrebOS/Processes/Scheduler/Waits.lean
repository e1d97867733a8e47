import BrebOS.Processes.Scheduler.Orderly

/-!
# Who waits for whom

A process that is waited for by its parent has a parent that waits, and for nobody else; a process that
waits for any child waits.  A process wakes its parent when it ends because of one of the two, so this is
what makes the wake-up reach a process that has blocked.
-/

namespace BrebOS

/-- The fields that say who waits for whom do not change. -/
structure Pcb.SameWait (p p' : Pcb) : Prop where
  zombie : p'.flags.zombie = p.flags.zombie
  waits : p'.flags.waitingProcess = p.flags.waitingProcess
  any : p'.isWaitingForAnyChildToTerminate = p.isWaitingForAnyChildToTerminate
  waited : p'.isWaitedByParent = p.isWaitedByParent
  ppid : p'.ppid = p.ppid

instance Pcb.SameWait.isPreorder : IsPreorder Pcb Pcb.SameWait where
  refl _ := ⟨rfl, rfl, rfl, rfl, rfl⟩
  trans _ _ _ h h' := ⟨h'.1.trans h.1, h'.2.trans h.2, h'.3.trans h.3, h'.4.trans h.4, h'.5.trans h.5⟩

lemma Pcb.Woken.sameWait {p p' : Pcb} (h : p.Woken p') : p.SameWait p' := by
  refine ⟨h.zombie, h.waits, ?_, ?_, ?_⟩
  all_goals rw [h.rest]

namespace Scheduler

variable {s s' : Scheduler} {pid q : ℕ} {p : Pcb} {f : Pcb → Pcb}

structure Waits (s : Scheduler) : Prop where
  any : ∀ q p, s.processes q = some p → p.isWaitingForAnyChildToTerminate → p.flags.waitingProcess
  waited : ∀ c p, s.processes c = some p → p.isWaitedByParent → p.ppid ≠ c →
    ∃ q, s.processes p.ppid = some q ∧ q.flags.waitingProcess ∧
      q.isWaitingForAnyChildToTerminate = false
  unique : ∀ c c' p p', s.processes c = some p → s.processes c' = some p' → p.isWaitedByParent →
    p'.isWaitedByParent → p.ppid ≠ c → p'.ppid ≠ c' → p.ppid = p'.ppid → c = c'
  zombie : ∀ q p, s.processes q = some p → p.flags.zombie → p.isWaitedByParent = false

lemma sameWait_preFree {wakes : List ReadWake} (h : s.preFree pid p wakes = .ok s') :
    Alters Pcb.SameWait ∅ s s' := by
  rcases preFree_cases h with ⟨-, rfl⟩ | ⟨-, -, s₁, hwakes, rfl⟩
  · exact .refl s'
  · exact ((Wakes.wakeAll hwakes).mono fun _ _ => Pcb.Woken.sameWait).andThen
      (.modify _ pid fun _ _ => ⟨rfl, rfl, rfl, rfl, rfl⟩)

namespace Waits

lemma relax (h : s.Waits)
    (hold : ∀ q p', s'.processes q = some p' → ∃ p, s.processes q = some p ∧
      (p'.isWaitedByParent → p.isWaitedByParent ∧ (p'.flags.zombie → p.flags.zombie)) ∧
      (p'.ppid ≠ q → p'.ppid = p.ppid) ∧
      (p'.isWaitingForAnyChildToTerminate → p'.flags.waitingProcess))
    (hkeep : ∀ q p, s.processes q = some p → p.flags.waitingProcess →
      p.isWaitingForAnyChildToTerminate = false →
      (∃ c p', s'.processes c = some p' ∧ p'.isWaitedByParent ∧ p'.ppid = q ∧ q ≠ c) →
      ∃ p', s'.processes q = some p' ∧ p'.flags.waitingProcess ∧
        p'.isWaitingForAnyChildToTerminate = false) : s'.Waits := by
  refine ⟨?_, ?_, ?_, ?_⟩
  · intro q p' hp'
    obtain ⟨p, -, -, -, hany⟩ := hold q p' hp'
    exact hany
  · intro c p' hp' hwaited hne
    obtain ⟨p, hp, hwaited', hppid, -⟩ := hold c p' hp'
    obtain ⟨q, hq, hwaits, hany⟩ := h.waited c p hp (hwaited' hwaited).1 (hppid hne ▸ hne)
    rw [hppid hne]
    exact hkeep _ q hq hwaits hany ⟨c, p', hp', hwaited, hppid hne, hppid hne ▸ hne⟩
  · intro c c' p₁' p₂' hp₁' hp₂' hw₁ hw₂ hne₁ hne₂ heq
    obtain ⟨p₁, hp₁, hw₁', hppid₁, -⟩ := hold c p₁' hp₁'
    obtain ⟨p₂, hp₂, hw₂', hppid₂, -⟩ := hold c' p₂' hp₂'
    refine h.unique c c' p₁ p₂ hp₁ hp₂ (hw₁' hw₁).1 (hw₂' hw₂).1 (hppid₁ hne₁ ▸ hne₁)
      (hppid₂ hne₂ ▸ hne₂) ?_
    rw [← hppid₁ hne₁, ← hppid₂ hne₂, heq]
  · intro q p' hp' hz
    obtain ⟨p, hp, hwaited, -⟩ := hold q p' hp'
    by_contra hcon
    obtain ⟨hw, hz'⟩ := hwaited (by simpa using hcon)
    rw [h.zombie q p hp (hz' hz)] at hw
    cases hw

lemma alters (h : s.Waits) (halters : Alters Pcb.SameWait ∅ s s') : s'.Waits := by
  refine h.relax ?_ ?_
  · intro q p' hp'
    obtain ⟨p, hp, hsame⟩ := halters.alters q p' hp'
    refine ⟨p, hp, ?_, fun _ => hsame.ppid, ?_⟩
    · rw [hsame.waited, hsame.zombie]
      exact fun hw => ⟨hw, id⟩
    · rw [hsame.any, hsame.waits]
      exact h.any q p hp
  · intro q p hp hwaits hany _
    obtain ⟨p', hp', hsame⟩ := halters.kept hp (by simp)
    exact ⟨p', hp', by rw [hsame.waits, hwaits], by rw [hsame.any, hany]⟩

lemma wakes (h : s.Waits) (hwakes : Wakes s s') : s'.Waits :=
  h.alters (hwakes.mono fun _ _ => Pcb.Woken.sameWait)

lemma modify (h : s.Waits) (hf : ∀ p, s.processes pid = some p → p.SameWait (f p)) :
    (s.modify pid f).Waits :=
  h.alters (.modify s pid hf)

lemma congr (h : s.Waits) (hprocs : s'.processes = s.processes) : s'.Waits := by
  constructor
  all_goals rw [hprocs]
  exacts [h.any, h.waited, h.unique, h.zombie]

lemma preFree {wakes : List ReadWake} (h : s.Waits) (hs' : s.preFree pid p wakes = .ok s') :
    s'.Waits :=
  h.alters (sameWait_preFree hs')

lemma replace {r : Pcb} (h : s.Waits) (hp : s.processes pid = some p) (hr : p.SameWait r)
    (hprocs : s'.processes = Function.update s.processes pid (some r)) : s'.Waits := by
  have hmodify : s'.processes = (s.modify pid fun _ => r).processes := by
    rw [hprocs, Scheduler.modify, hp]
    rfl
  refine congr (h.modify (f := fun _ => r) ?_) hmodify
  intro p' hp'
  obtain rfl : p = p' := by simpa [hp] using hp'
  exact hr

lemma runFirst (h : s.Waits) (hp : s.processes pid = some p) : (s.runFirst pid p).Waits := by
  unfold Scheduler.runFirst
  split_ifs
  · exact h.replace (r := p.resumed) hp ⟨rfl, rfl, rfl, rfl, rfl⟩ rfl
  · exact h.replace (r := p.resetQuantum) hp ⟨rfl, rfl, rfl, rfl, rfl⟩ rfl

lemma becomeZombie (h : s.Waits) (hp : s.processes pid = some p) (hwaited : p.isWaitedByParent = false) :
    (s.modify pid fun p => { p with flags := { p.flags with zombie := true } }).Waits := by
  refine h.relax ?_ ?_
  · intro q p' hp'
    rcases eq_or_ne q pid with rfl | hne
    · rw [processes_modify, hp] at hp'
      obtain rfl : _ = p' := by simpa using hp'
      exact ⟨p, hp, by simp [hwaited], fun _ => rfl, h.any q p hp⟩
    · rw [processes_modify_ne hne] at hp'
      exact ⟨p', hp', fun hw => ⟨hw, id⟩, fun _ => rfl, h.any q p' hp'⟩
  · intro q p' hp' hwaits hany _
    rcases eq_or_ne q pid with rfl | hne
    · rw [processes_modify, hp']
      exact ⟨_, rfl, hwaits, hany⟩
    · rw [processes_modify_ne hne, hp']
      exact ⟨p', rfl, hwaits, hany⟩

lemma orphan {child : ℕ} (h : s.Waits) (hs' : s.orphan child = .ok s') : s'.Waits := by
  obtain ⟨p, -, hs'⟩ := bind_eq_ok.mp hs'
  cases hs'
  refine h.relax ?_ ?_
  · intro q p' hp'
    rcases eq_or_ne q child with rfl | hne
    · rw [processes_modify] at hp'
      obtain ⟨p, hp, rfl⟩ := Option.map_eq_some_iff.mp hp'
      exact ⟨p, hp, fun hw => ⟨hw, id⟩, fun hne => absurd rfl hne, h.any q p hp⟩
    · rw [processes_modify_ne hne] at hp'
      exact ⟨p', hp', fun hw => ⟨hw, id⟩, fun _ => rfl, h.any q p' hp'⟩
  · intro q p hp hwaits hany _
    rcases eq_or_ne q child with rfl | hne
    · rw [processes_modify, hp]
      exact ⟨_, rfl, hwaits, hany⟩
    · rw [processes_modify_ne hne, hp]
      exact ⟨p, rfl, hwaits, hany⟩

lemma unregister (h : s.Waits) (hp : s.processes pid = some p)
    (hwaits : p.flags.waitingProcess = false) : (s.unregistered pid).Waits := by
  have hother : ∀ q, q ≠ pid → (s.unregistered pid).processes q = s.processes q := by
    intro q hne
    exact Function.update_of_ne hne ..
  refine h.relax ?_ ?_
  · intro q p' hp'
    have hne : q ≠ pid := by
      rintro rfl
      simp at hp'
    rw [hother q hne] at hp'
    exact ⟨p', hp', fun hw => ⟨hw, id⟩, fun _ => rfl, h.any q p' hp'⟩
  · intro q p' hp' hwaits' hany _
    have hne : q ≠ pid := by
      rintro rfl
      obtain rfl : p = p' := by simpa [hp] using hp'
      simp [hwaits] at hwaits'
    rw [hother q hne]
    exact ⟨p', hp', hwaits', hany⟩

lemma tell (h : s.Waits) (status : ℤ) (hp : s.processes pid = some p)
    (halone : ∀ c c', s.processes c = some c' → c ≠ pid → c'.isWaitedByParent → c'.ppid = p.ppid →
      c'.ppid ≠ c → False)
    (hprocs : s'.processes = ((s.modify p.ppid (Pcb.told pid status)).modify pid fun p =>
      { p with isWaitedByParent := false }).processes) : s'.Waits := by
  -- who is who after the two changes
  have hold : ∀ q p', s'.processes q = some p' → ∃ p₀, s.processes q = some p₀ ∧ p'.ppid = p₀.ppid ∧
      p'.flags.zombie = p₀.flags.zombie ∧
      (p'.isWaitedByParent → p₀.isWaitedByParent ∧ q ≠ pid) ∧
      (q = p.ppid ∧ p'.isWaitingForAnyChildToTerminate = false ∨
        q ≠ p.ppid ∧ p'.isWaitingForAnyChildToTerminate = p₀.isWaitingForAnyChildToTerminate ∧
          p'.flags.waitingProcess = p₀.flags.waitingProcess) := by
    intro q p' hp'
    rw [hprocs] at hp'
    rcases eq_or_ne q pid with rfl | hne
    · rw [processes_modify] at hp'
      obtain ⟨p₁, hp₁, rfl⟩ := Option.map_eq_some_iff.mp hp'
      rcases eq_or_ne q p.ppid with heq | hne'
      · rw [← heq, processes_modify] at hp₁
        obtain ⟨p₀, hp₀, rfl⟩ := Option.map_eq_some_iff.mp hp₁
        exact ⟨p₀, hp₀, rfl, rfl, by simp, Or.inl ⟨heq, rfl⟩⟩
      · rw [processes_modify_ne hne'] at hp₁
        exact ⟨p₁, hp₁, rfl, rfl, by simp, Or.inr ⟨hne', rfl, rfl⟩⟩
    · rw [processes_modify_ne hne] at hp'
      rcases eq_or_ne q p.ppid with heq | hne'
      · rw [← heq, processes_modify] at hp'
        obtain ⟨p₀, hp₀, rfl⟩ := Option.map_eq_some_iff.mp hp'
        exact ⟨p₀, hp₀, rfl, rfl, fun hw => ⟨hw, hne⟩, Or.inl ⟨heq, rfl⟩⟩
      · rw [processes_modify_ne hne'] at hp'
        exact ⟨p', hp', rfl, rfl, fun hw => ⟨hw, hne⟩, Or.inr ⟨hne', rfl, rfl⟩⟩
  refine h.relax ?_ ?_
  · intro q p' hp'
    obtain ⟨p₀, hp₀, hppid, hz, hw, hany⟩ := hold q p' hp'
    refine ⟨p₀, hp₀, fun hw' => ⟨(hw hw').1, hz ▸ id⟩, fun _ => hppid, ?_⟩
    rcases hany with ⟨-, hany⟩ | ⟨-, hany, hwaits⟩
    · simp [hany]
    · rw [hany, hwaits]
      exact h.any q p₀ hp₀
  · rintro q p₀ hp₀ hwaits hany ⟨c, c', hc', hw, hppid, hne⟩
    obtain ⟨c₀, hc₀, hppid', -, hw', -⟩ := hold c c' hc'
    have hq : q ≠ p.ppid := by
      rintro rfl
      exact halone c c₀ hc₀ (hw' hw).2 (hw' hw).1 (hppid' ▸ hppid) (hppid' ▸ hppid ▸ hne)
    have hsome : s'.processes q ≠ none := by
      rw [hprocs]
      rcases eq_or_ne q pid with rfl | hne'
      · simp [processes_modify_ne hq, hp₀]
      · rw [processes_modify_ne hne', processes_modify_ne hq, hp₀]
        simp
    obtain ⟨p', hp'⟩ := Option.ne_none_iff_exists'.mp hsome
    obtain ⟨p₁, hp₁, -, -, -, ⟨heq, -⟩ | ⟨-, hany', hwaits'⟩⟩ := hold q p' hp'
    · exact absurd heq hq
    · obtain rfl : p₀ = p₁ := by simpa [hp₀] using hp₁
      exact ⟨p', hp', by rw [hwaits', hwaits], by rw [hany', hany]⟩

lemma tellParent (h : s.Waits) (hp : s.processes pid = some p)
    (hwaits : p.flags.waitingProcess = false) (hs' : s.tellParent pid = .ok s') : s'.Waits := by
  obtain ⟨p', hp', ⟨-, rfl⟩ | ⟨hparent, ⟨q, hq⟩, rfl⟩⟩ := tellParent_cases hs'
  · exact h
  obtain rfl : p = p' := by simpa [hp] using hp'
  refine h.tell p.retStatus hp ?_ ?_
  · intro c c' hc' hne hw hppid hne'
    obtain ⟨q', hq', hwaits', hany'⟩ := h.waited c c' hc' hw hne'
    rw [hppid] at hq'
    obtain rfl : q = q' := by simpa [hq] using hq'
    by_cases hwaited : p.isWaitedByParent
    · rcases eq_or_ne p.ppid pid with hself | hother
      · rw [hself] at hq
        obtain rfl : p = q := by simpa [hp] using hq
        simp [hwaits] at hwaits'
      · exact hne (h.unique c pid c' p hc' hp hw hwaited hne' hother hppid)
    · have hproc : s.proc p.ppid = .ok q := proc_eq_ok.mpr hq
      simp [parentWaits, hwaited, hproc, Except.map, hany'] at hparent
  · split_ifs
    · rfl
    · rfl

lemma freeRest {wakes : List ReadWake} {s₁ s₂ : Scheduler} {p₁ p' : Pcb} (h : s₁.Waits)
    (hp₁ : s₁.processes pid = some p₁) (hwaits : p₁.flags.waitingProcess = false)
    (horphan : p₁.children.foldlM Scheduler.orphan s₁ = .ok s₂)
    (hfree : (s₂.unregistered pid).preFree pid p' wakes = .ok s') : s'.Waits := by
  have h₂ : s₂.Waits := foldlM_invariant Waits horphan h fun _ _ _ _ hs hstep => hs.orphan hstep
  have hcalms : Calms ∅ s₁ s₂ := .foldlM (fun _ _ _ => Calms.orphan) horphan
  obtain ⟨p₂, hp₂, hcalm⟩ := hcalms.kept hp₁ (by simp)
  have hwaits₂ : p₂.flags.waitingProcess = false := by
    by_contra hcon
    have := hcalm.waitingProcess (by simpa using hcon)
    simp [hwaits] at this
  exact (h₂.unregister hp₂ hwaits₂).preFree hfree

lemma freeTerminatedProcess {wakes : List ReadWake} (h : s.Waits) (hp : s.processes pid = some p)
    (hwaits : p.flags.waitingProcess = false)
    (hs' : s.freeTerminatedProcess pid wakes = .ok s') : s'.Waits := by
  obtain ⟨p', hp', -, ⟨-, hfree⟩ | ⟨-, s₁, p₁, s₂, htell, hp₁, horphan, hfree⟩⟩ :=
    freeTerminatedProcess_cases hs'
  · exact h.preFree hfree
  · obtain rfl : p = p' := by simpa [hp] using hp'
    obtain ⟨p₁', hp₁', hcalm⟩ := (Calms.tellParent htell).kept hp (by simp)
    obtain rfl : p₁ = p₁' := by simpa [hp₁] using hp₁'
    refine (h.tellParent hp hwaits htell).freeRest hp₁ ?_ horphan hfree
    by_contra hcon
    have := hcalm.waitingProcess (by simpa using hcon)
    simp [hwaits] at this

/-! ## Calls -/

lemma starts (h : s.Waits) (hstarts : Starts pid p s s') (hnone : s.processes pid = none)
    (hany : p.isWaitingForAnyChildToTerminate = false) (hwaited : p.isWaitedByParent = false) :
    s'.Waits := by
  have hprocs : s'.processes = Function.update s.processes pid (some p.resetQuantum) := by
    rw [hstarts.eq]
  have hcases : ∀ q p', s'.processes q = some p' → q = pid ∧ p' = p.resetQuantum ∨
      s.processes q = some p' := by
    intro q p' hp'
    rw [hprocs] at hp'
    rcases eq_or_ne q pid with rfl | hne
    · rw [Function.update_self, Option.some.injEq] at hp'
      exact Or.inl ⟨rfl, hp'.symm⟩
    · rw [Function.update_of_ne hne] at hp'
      exact Or.inr hp'
  refine ⟨?_, ?_, ?_, ?_⟩
  · intro q p' hp' hany'
    rcases hcases q p' hp' with ⟨-, rfl⟩ | hp'
    · simp [Pcb.resetQuantum, hany] at hany'
    · exact h.any q p' hp' hany'
  · intro c p' hp' hw hne
    rcases hcases c p' hp' with ⟨-, rfl⟩ | hp'
    · simp [Pcb.resetQuantum, hwaited] at hw
    · obtain ⟨q, hq, hrest⟩ := h.waited c p' hp' hw hne
      have hne' : p'.ppid ≠ pid := by
        intro heq
        simp [heq, hnone] at hq
      exact ⟨q, by rw [hprocs, Function.update_of_ne hne', hq], hrest⟩
  · intro c c' p₁ p₂ hp₁ hp₂ hw₁ hw₂ hne₁ hne₂ heq
    rcases hcases c p₁ hp₁ with ⟨-, rfl⟩ | hp₁
    · simp [Pcb.resetQuantum, hwaited] at hw₁
    rcases hcases c' p₂ hp₂ with ⟨-, rfl⟩ | hp₂
    · simp [Pcb.resetQuantum, hwaited] at hw₂
    exact h.unique c c' p₁ p₂ hp₁ hp₂ hw₁ hw₂ hne₁ hne₂ heq
  · intro q p' hp' hz
    rcases hcases q p' hp' with ⟨-, rfl⟩ | hp'
    · exact hwaited
    · exact h.zombie q p' hp' hz

lemma waitAny (h : s.Waits) (hp : s.processes pid = some p) (hwaits : p.flags.waitingProcess = false) :
    (s.modify pid fun p => { p with
      isWaitingForAnyChildToTerminate := true
      flags := { p.flags with waitingProcess := true } }).Waits := by
  refine h.relax ?_ ?_
  · intro q p' hp'
    rcases eq_or_ne q pid with rfl | hne
    · rw [processes_modify] at hp'
      obtain ⟨p₀, hp₀, rfl⟩ := Option.map_eq_some_iff.mp hp'
      exact ⟨p₀, hp₀, fun hw => ⟨hw, id⟩, fun _ => rfl, fun _ => rfl⟩
    · rw [processes_modify_ne hne] at hp'
      exact ⟨p', hp', fun hw => ⟨hw, id⟩, fun _ => rfl, h.any q p' hp'⟩
  · intro q p' hp' hwaits' hany _
    have hne : q ≠ pid := by
      rintro rfl
      obtain rfl : p = p' := by simpa [hp] using hp'
      simp [hwaits] at hwaits'
    rw [processes_modify_ne hne]
    exact ⟨p', hp', hwaits', hany⟩

lemma waitOne {child : ℕ} {c : Pcb} (h : s.Waits) (hp : s.processes pid = some p)
    (hwaits : p.flags.waitingProcess = false) (hc : s.processes child = some c) (hppid : c.ppid = pid)
    (hz : ¬ c.flags.zombie) :
    ((s.modify child fun c => { c with isWaitedByParent := true }).modify pid fun p =>
      { p with flags := { p.flags with waitingProcess := true } }).Waits := by
  have hany : p.isWaitingForAnyChildToTerminate = false := by
    by_contra hcon
    have := h.any pid p hp (by simpa using hcon)
    simp [hwaits] at this
  set s' := (s.modify child fun c => { c with isWaitedByParent := true }).modify pid fun p =>
    { p with flags := { p.flags with waitingProcess := true } } with hs'
  have hprocs : ∀ q, s'.processes q = (s.processes q).map fun p => { p with
      isWaitedByParent := p.isWaitedByParent || decide (q = child)
      flags := { p.flags with waitingProcess := p.flags.waitingProcess || decide (q = pid) } } := by
    intro q
    rw [hs']
    rcases eq_or_ne q pid with rfl | hne
    · rw [processes_modify]
      rcases eq_or_ne q child with rfl | hne'
      · rw [processes_modify]
        rcases s.processes q with _ | p₀
        · rfl
        · simp
      · rw [processes_modify_ne hne']
        rcases s.processes q with _ | p₀
        · rfl
        · simp [hne']
    · rw [processes_modify_ne hne]
      rcases eq_or_ne q child with rfl | hne'
      · rw [processes_modify]
        rcases s.processes q with _ | p₀
        · rfl
        · simp [hne]
      · rw [processes_modify_ne hne']
        rcases s.processes q with _ | p₀
        · rfl
        · simp [hne, hne']
  have hnobody : ∀ x x', s.processes x = some x' → x'.isWaitedByParent → x'.ppid ≠ x →
      x'.ppid ≠ pid := by
    intro x x' hx' hw hne heq
    obtain ⟨p', hp', hwaits', -⟩ := h.waited x x' hx' hw hne
    rw [heq] at hp'
    obtain rfl : p = p' := by simpa [hp] using hp'
    simp [hwaits] at hwaits'
  have hold : ∀ q p', s'.processes q = some p' → ∃ p₀, s.processes q = some p₀ ∧ p' = { p₀ with
      isWaitedByParent := p₀.isWaitedByParent || decide (q = child)
      flags := { p₀.flags with waitingProcess := p₀.flags.waitingProcess || decide (q = pid) } } := by
    intro q p' hp'
    rw [hprocs] at hp'
    obtain ⟨p₀, hp₀, rfl⟩ := Option.map_eq_some_iff.mp hp'
    exact ⟨p₀, hp₀, rfl⟩
  refine ⟨?_, ?_, ?_, ?_⟩
  · intro q p' hp' hany'
    obtain ⟨p₀, hp₀, rfl⟩ := hold q p' hp'
    simp [h.any q p₀ hp₀ hany']
  · intro x x' hx' hw hne
    obtain ⟨x₀, hx₀, rfl⟩ := hold x x' hx'
    simp only at hne ⊢
    rw [hprocs]
    rcases eq_or_ne x child with rfl | hchild
    · obtain rfl : c = x₀ := by simpa [hc] using hx₀
      rw [hppid, hp]
      exact ⟨_, rfl, by simp, hany⟩
    · obtain ⟨q, hq, hwaits', hany'⟩ := h.waited x x₀ hx₀ (by simpa [hchild] using hw) hne
      rw [hq]
      exact ⟨_, rfl, by simp [hwaits'], hany'⟩
  · intro x y x' y' hx' hy' hwx hwy hnex hney heq
    obtain ⟨x₀, hx₀, rfl⟩ := hold x x' hx'
    obtain ⟨y₀, hy₀, rfl⟩ := hold y y' hy'
    simp only at hnex hney heq
    rcases eq_or_ne x child with rfl | hx
    · obtain rfl : c = x₀ := by simpa [hc] using hx₀
      rcases eq_or_ne y x with rfl | hy
      · rfl
      · exact absurd (heq.symm.trans hppid) (hnobody y y₀ hy₀ (by simpa [hy] using hwy) hney)
    · rcases eq_or_ne y child with rfl | hy
      · obtain rfl : c = y₀ := by simpa [hc] using hy₀
        exact absurd (heq.trans hppid) (hnobody x x₀ hx₀ (by simpa [hx] using hwx) hnex)
      · exact h.unique x y x₀ y₀ hx₀ hy₀ (by simpa [hx] using hwx) (by simpa [hy] using hwy) hnex hney
          heq
  · intro q p' hp' hz'
    obtain ⟨p₀, hp₀, rfl⟩ := hold q p' hp'
    simp only at hz' ⊢
    rcases eq_or_ne q child with rfl | hne
    · obtain rfl : c = p₀ := by simpa [hc] using hp₀
      exact absurd hz' hz
    · simp [h.zombie q p₀ hp₀ hz', hne]

lemma freeChild {child : ℕ} {c : Pcb} (h : s.Waits) (hp : s.processes pid = some p)
    (hwaits : p.flags.waitingProcess = false) (hc : s.processes child = some c) (hppid : c.ppid = pid)
    (hz : c.flags.waitingProcess = false) (hne : child ≠ pid) (hexec : c.flags.exec = false)
    (hs' : (s.modify child fun c => { c with isWaitedByParent := true }).freeTerminatedProcess child [] =
      .ok s') : s'.Waits := by
  obtain ⟨c', hc', -, ⟨hexec', -⟩ | ⟨-, s₁, p₁, s₂, htell, hp₁, horphan, hfree⟩⟩ :=
    freeTerminatedProcess_cases hs'
  all_goals
    rw [processes_modify, hc] at hc'
    obtain rfl : _ = c' := by simpa using hc'
  · simp [hexec] at hexec'
  · have hcalm := (Calms.tellParent htell).kept (q := child) (by rw [processes_modify, hc]; rfl) (by simp)
    obtain ⟨p₁', hp₁', hcalm⟩ := hcalm
    obtain rfl : p₁ = p₁' := by simpa [hp₁] using hp₁'
    obtain ⟨c₀, hc₀, ⟨hparent, -⟩ | ⟨-, -, hs₁⟩⟩ := tellParent_cases htell
    all_goals
      rw [processes_modify, hc] at hc₀
      obtain rfl : _ = c₀ := by simpa using hc₀
    · simp [parentWaits] at hparent
    · have h₁ : s₁.Waits := by
        refine h.tell c.retStatus hc ?_ ?_
        · intro x x' hx' _ hw heq hne'
          obtain ⟨p', hp', hwaits', -⟩ := h.waited x x' hx' hw hne'
          rw [heq, hppid] at hp'
          obtain rfl : p = p' := by simpa [hp] using hp'
          simp [hwaits] at hwaits'
        · rw [hs₁]
          funext q
          simp only [hppid]
          rcases eq_or_ne q child with rfl | hq
          · rw [processes_modify, processes_modify, processes_modify_ne hne, processes_modify_ne hne,
              processes_readyUnlessRuns, processes_modify, hc]
            rfl
          · rw [processes_modify_ne hq, processes_modify_ne hq]
            rcases eq_or_ne q pid with rfl | hq'
            · rw [processes_modify, processes_modify, processes_readyUnlessRuns, processes_modify_ne hq]
            · rw [processes_modify_ne hq', processes_modify_ne hq', processes_readyUnlessRuns,
                processes_modify_ne hq]
      refine h₁.freeRest hp₁ ?_ horphan hfree
      by_contra hcon
      have := hcalm.waitingProcess (by simpa using hcon)
      simp [hz] at this

end Waits

end Scheduler

end BrebOS

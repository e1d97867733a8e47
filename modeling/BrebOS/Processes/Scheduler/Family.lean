import BrebOS.Processes.Scheduler.Orderly
import BrebOS.Lib.Run

/-!
# Parents and children

Who is whose parent is stored twice: each process names its parent, and has a list of its children.
`Kin` says that the lists hold only children, `Complete` that the list of a process holds all of them.

The list of a process that starts another one with `exec` is not updated, and neither is that of a
process that waits for any child and finds a zombie.
-/

namespace BrebOS

section Kin

variable {α : Type} [DecidableEq α] {parent : α → Option α} {children : α → List α} {a b c : α}

/-- A list of children holds children, and each once. -/
structure Kin (parent : α → Option α) (children : α → List α) : Prop where
  nodup : ∀ a, (children a).Nodup
  sound : ∀ a c, c ∈ children a → c ≠ a ∧ parent c = some a

/-- The list of `a` holds all children of `a`. -/
def Complete (parent : α → Option α) (children : α → List α) (a : α) : Prop :=
  ∀ c, parent c = some a → c ≠ a → c ∈ children a

/-- The parents when someone goes: the children become their own. -/
def parentFreed (parent : α → Option α) (children : α → List α) (a x : α) : Option α :=
  if x = a then none else if x ∈ children a then some x else parent x

def childrenFreed (children : α → List α) (a x : α) : List α :=
  if x = a then [] else (children x).erase a

namespace Kin

lemma start (h : Kin parent children) (hnew : parent a = none) (hnone : children a = []) (b : α) :
    Kin (Function.update parent a (some b)) children := by
  refine ⟨h.nodup, ?_⟩
  intro x c hc
  obtain ⟨hne, hparent⟩ := h.sound x c hc
  have hca : c ≠ a := by
    rintro rfl
    simp [hnew] at hparent
  exact ⟨hne, by rw [Function.update_of_ne hca, hparent]⟩

lemma add (h : Kin parent children) (hnew : parent a = none) (hne : a ≠ b) (hnone : children a = []) :
    Kin (Function.update parent a (some b)) (Function.update children b (children b ++ [a])) := by
  have hold := h.start hnew hnone b
  have hnot : a ∉ children b := by
    intro hmem
    have hparent := (h.sound b a hmem).2
    simp [hnew] at hparent
  refine ⟨?_, ?_⟩
  · intro x
    rcases eq_or_ne x b with rfl | hx
    · rw [Function.update_self, List.nodup_append]
      refine ⟨h.nodup x, by simp, ?_⟩
      intro y hy z hz heq
      rw [List.mem_singleton] at hz
      rw [heq, hz] at hy
      exact hnot hy
    · rw [Function.update_of_ne hx]
      exact h.nodup x
  · intro x c hc
    rcases eq_or_ne x b with rfl | hx
    · rw [Function.update_self, List.mem_append, List.mem_singleton] at hc
      rcases hc with hc | rfl
      · exact hold.sound x c hc
      · exact ⟨hne, Function.update_self ..⟩
    · rw [Function.update_of_ne hx] at hc
      exact hold.sound x c hc

lemma free (h : Kin parent children) (a : α) :
    Kin (parentFreed parent children a) (childrenFreed children a) := by
  refine ⟨?_, ?_⟩
  · intro x
    unfold childrenFreed
    split_ifs
    · exact List.nodup_nil
    · exact (h.nodup x).erase a
  · intro x c hc
    unfold childrenFreed at hc
    split_ifs at hc with hx
    · cases hc
    · rw [(h.nodup x).mem_erase_iff] at hc
      obtain ⟨hne, hparent⟩ := h.sound x c hc.2
      have hnot : c ∉ children a := by
        intro hmem
        have hparent' := (h.sound a c hmem).2
        rw [hparent, Option.some.injEq] at hparent'
        exact hx hparent'
      refine ⟨hne, ?_⟩
      rw [parentFreed, if_neg hc.1, if_neg hnot, hparent]

end Kin

namespace Complete

lemma start (h : Complete parent children c) (hne : b ≠ c ∨ b = a) :
    Complete (Function.update parent a (some b)) children c := by
  intro x hx hxc
  rcases eq_or_ne x a with rfl | hxa
  · rw [Function.update_self, Option.some.injEq] at hx
    rcases hne with hne | rfl
    · exact absurd hx hne
    · exact absurd hx hxc
  · rw [Function.update_of_ne hxa] at hx
    exact h x hx hxc

lemma add (h : Complete parent children c) :
    Complete (Function.update parent a (some b)) (Function.update children b (children b ++ [a])) c := by
  intro x hx hxc
  rw [Function.update_apply] at hx
  split_ifs at hx with hxa
  · rw [Option.some.injEq] at hx
    rw [hx, hxa, Function.update_self]
    simp
  · have hmem := h x hx hxc
    rw [Function.update_apply]
    split_ifs with hcb
    · rw [← hcb]
      exact List.mem_append_left _ hmem
    · exact hmem

lemma free (h : Complete parent children c) (a : α) :
    Complete (parentFreed parent children a) (childrenFreed children a) c := by
  intro x hx hxc
  unfold parentFreed at hx
  split_ifs at hx with hxa hmem
  · exact absurd (by simpa using hx) hxc
  · have hmem' := h x hx hxc
    have hca : c ≠ a := by
      rintro rfl
      exact hmem hmem'
    rw [childrenFreed, if_neg hca]
    exact (List.mem_erase_of_ne hxa).mpr hmem'

end Complete

end Kin

/-- The parent and the children of a process do not change. -/
structure Pcb.SameFamily (p p' : Pcb) : Prop where
  ppid : p'.ppid = p.ppid
  children : p'.children = p.children

instance Pcb.SameFamily.isPreorder : IsPreorder Pcb Pcb.SameFamily where
  refl _ := ⟨rfl, rfl⟩
  trans _ _ _ h h' := ⟨h'.1.trans h.1, h'.2.trans h.2⟩

lemma Pcb.Woken.sameFamily {p p' : Pcb} (h : p.Woken p') : p.SameFamily p' := by
  refine ⟨?_, ?_⟩
  all_goals rw [h.rest]

namespace Scheduler

variable {s s' : Scheduler} {pid q : ℕ} {p : Pcb} {f : Pcb → Pcb} {op : SchedOp}

def parentOf (s : Scheduler) (q : ℕ) : Option ℕ := (s.processes q).map Pcb.ppid

def childrenOf (s : Scheduler) (q : ℕ) : List ℕ := (s.processes q).elim [] Pcb.children

lemma parentOf_eq (hp : s.processes pid = some p) : s.parentOf pid = some p.ppid := by
  rw [parentOf, hp]
  rfl

lemma childrenOf_eq (hp : s.processes pid = some p) : s.childrenOf pid = p.children := by
  rw [childrenOf, hp]
  rfl

/-- The table says the same about the families. -/
structure SameKin (s s' : Scheduler) : Prop where
  parents : s'.parentOf = s.parentOf
  children : s'.childrenOf = s.childrenOf

namespace SameKin

lemma trans {s'' : Scheduler} (h : SameKin s s') (h' : SameKin s' s'') : SameKin s s'' :=
  ⟨h'.1.trans h.1, h'.2.trans h.2⟩

lemma alters (h : Alters Pcb.SameFamily ∅ s s') : SameKin s s' := by
  have hq : ∀ q, s'.parentOf q = s.parentOf q ∧ s'.childrenOf q = s.childrenOf q := by
    intro q
    rcases hp : s.processes q with _ | p
    · have hp' : s'.processes q = none := (h.none_iff q).mpr (Or.inl hp)
      simp [parentOf, childrenOf, hp, hp']
    · obtain ⟨p', hp', hsame⟩ := h.kept hp (by simp)
      simp [parentOf, childrenOf, hp, hp', hsame.ppid, hsame.children]
  exact ⟨funext fun q => (hq q).1, funext fun q => (hq q).2⟩

lemma wakes (h : Wakes s s') : SameKin s s' := alters (h.mono fun _ _ => Pcb.Woken.sameFamily)

lemma of_eq (h : s'.processes = s.processes) : SameKin s s' := by
  refine ⟨?_, ?_⟩
  · unfold parentOf
    rw [h]
  · unfold childrenOf
    rw [h]

lemma modify (hf : ∀ p : Pcb, p.SameFamily (f p)) (hprocs : s'.processes = (s.modify pid f).processes) :
    SameKin s s' :=
  (alters (.modify s pid fun p _ => hf p)).trans (of_eq hprocs)

lemma replace {r : Pcb} (hp : s.processes pid = some p) (hr : p.SameFamily r)
    (hprocs : s'.processes = Function.update s.processes pid (some r)) : SameKin s s' := by
  have hmodify : (s.modify pid fun _ => r).processes = s'.processes := by
    rw [hprocs, Scheduler.modify, hp]
    rfl
  refine (alters (.modify s pid ?_)).trans (of_eq hmodify.symm)
  intro p' hp'
  obtain rfl : p = p' := by simpa [hp] using hp'
  exact hr

lemma runFirst (hp : s.processes pid = some p) : SameKin s (s.runFirst pid p) := by
  unfold Scheduler.runFirst
  split_ifs
  · exact replace (r := p.resumed) hp ⟨rfl, rfl⟩ rfl
  · exact replace (r := p.resetQuantum) hp ⟨rfl, rfl⟩ rfl

lemma preFree {wakes : List ReadWake} (h : s.preFree pid p wakes = .ok s') : SameKin s s' := by
  rcases preFree_cases h with ⟨-, rfl⟩ | ⟨-, -, s₁, hwakes, rfl⟩
  · exact of_eq rfl
  · exact (SameKin.wakes (Wakes.wakeAll hwakes)).trans
      (modify (f := fun p => { p with isPreFreed := true }) (fun _ => ⟨rfl, rfl⟩) rfl)

end SameKin

/-! ## The end of a process -/

lemma orphan_loop : ∀ {l : List ℕ} {s : Scheduler}, l.foldlM orphan s = .ok s' →
    s'.childrenOf = s.childrenOf ∧ ∀ q, s'.parentOf q = if q ∈ l then some q else s.parentOf q := by
  intro l
  induction l with
  | nil =>
    intro s h
    cases h
    exact ⟨rfl, by simp⟩
  | cons c l ih =>
    intro s h
    rw [List.foldlM_cons] at h
    obtain ⟨s₁, hs₁, h⟩ := bind_eq_ok.mp h
    obtain ⟨p, hp, hs₁⟩ := bind_eq_ok.mp hs₁
    rw [proc_eq_ok] at hp
    cases hs₁
    obtain ⟨hchildren, hparents⟩ := ih h
    have hother : ∀ q, (s.modify c fun p => { p with ppid := c }).childrenOf q = s.childrenOf q ∧
        (s.modify c fun p => { p with ppid := c }).parentOf q =
          if q = c then some c else s.parentOf q := by
      intro q
      unfold childrenOf parentOf
      rcases eq_or_ne q c with rfl | hne
      · rw [processes_modify, hp]
        simp
      · rw [processes_modify_ne hne, if_neg hne]
        exact ⟨rfl, rfl⟩
    refine ⟨hchildren.trans (funext fun q => (hother q).1), ?_⟩
    intro q
    rw [hparents, (hother q).2]
    simp only [List.mem_cons]
    by_cases hl : q ∈ l
    · simp [hl]
    · by_cases hqc : q = c
      · simp [hqc]
      · simp [hl, hqc]

lemma kin_told (hp : s.processes pid = some p) (hwaits : s.parentWaits p = .ok true)
    (h : s.tellParent pid = .ok s') : s'.parentOf = s.parentOf ∧
      s'.childrenOf = Function.update s.childrenOf p.ppid ((s.childrenOf p.ppid).erase pid) := by
  obtain ⟨p', hp', ⟨hno, -⟩ | ⟨-, ⟨q, hq⟩, rfl⟩⟩ := tellParent_cases h
  all_goals obtain rfl : p = p' := by simpa [hp] using hp'
  · simp [hno] at hwaits
  · obtain ⟨hparents, hchildren⟩ : SameKin ((if s.runningProcess ≠ some p.ppid then
        s.enqueueReady p.ppid else s).modify p.ppid (Pcb.told pid p.retStatus)) (((if s.runningProcess ≠
        some p.ppid then s.enqueueReady p.ppid else s).modify p.ppid (Pcb.told pid p.retStatus)).modify pid
        fun p => { p with isWaitedByParent := false }) :=
      SameKin.modify (f := fun p => { p with isWaitedByParent := false }) (fun _ => ⟨rfl, rfl⟩) rfl
    rw [hparents, hchildren]
    refine ⟨?_, ?_⟩
    · funext x
      unfold parentOf
      rcases eq_or_ne x p.ppid with rfl | hne
      · rw [processes_modify, processes_readyUnlessRuns, hq]
        rfl
      · rw [processes_modify_ne hne, processes_readyUnlessRuns]
    · funext x
      unfold childrenOf
      rcases eq_or_ne x p.ppid with rfl | hne
      · rw [processes_modify, processes_readyUnlessRuns, Function.update_self, hq]
        rfl
      · rw [processes_modify_ne hne, processes_readyUnlessRuns, Function.update_of_ne hne]

lemma kin_freed {wakes : List ReadWake} (hkin : Kin s.parentOf s.childrenOf)
    (hp : s.processes pid = some p) (hexec : p.flags.exec = false)
    (htold : p.ppid = pid ∨ s.parentWaits p = .ok true)
    (h : s.freeTerminatedProcess pid wakes = .ok s') :
    s'.parentOf = parentFreed s.parentOf s.childrenOf pid ∧
      s'.childrenOf = childrenFreed s.childrenOf pid := by
  obtain ⟨p', hp', -, ⟨hexec', -⟩ | ⟨-, s₁, p₁, s₂, htell, hp₁, horphan, hfree⟩⟩ :=
    freeTerminatedProcess_cases h
  all_goals obtain rfl : p = p' := by simpa [hp] using hp'
  · simp [hexec] at hexec'
  -- the process is in no list once its parent has been told
  have hlists : s₁.parentOf = s.parentOf ∧ ∀ x, s₁.childrenOf x = (s.childrenOf x).erase pid := by
    have hnot : ∀ x, x ≠ p.ppid ∨ p.ppid = pid → pid ∉ s.childrenOf x := by
      intro x hx hmem
      obtain ⟨hne, hparent⟩ := hkin.sound x pid hmem
      rw [parentOf_eq hp, Option.some.injEq] at hparent
      rcases hx with hx | hself
      · exact hx hparent.symm
      · exact hne (hself.symm.trans hparent)
    by_cases hwaits : s.parentWaits p = .ok true
    · obtain ⟨hparents, hchildren⟩ := kin_told hp hwaits htell
      refine ⟨hparents, ?_⟩
      intro x
      rw [hchildren]
      rcases eq_or_ne x p.ppid with rfl | hne
      · rw [Function.update_self]
      · rw [Function.update_of_ne hne, List.erase_of_not_mem (hnot x (Or.inl hne))]
    · have hself : p.ppid = pid := by
        rcases htold with hself | hwaits'
        · exact hself
        · exact absurd hwaits' hwaits
      obtain ⟨p', hp', ⟨-, rfl⟩ | ⟨hyes, -, -⟩⟩ := tellParent_cases htell
      · refine ⟨rfl, ?_⟩
        intro x
        rw [List.erase_of_not_mem (hnot x (Or.inr hself))]
      · obtain rfl : p = p' := by simpa [hp] using hp'
        exact absurd hyes hwaits
  have hown : p₁.children = s.childrenOf pid := by
    rw [← childrenOf_eq hp₁, hlists.2, List.erase_of_not_mem]
    intro hmem
    exact (hkin.sound pid pid hmem).1 rfl
  obtain ⟨hchildren₂, hparents₂⟩ := orphan_loop horphan
  obtain ⟨hparents', hchildren'⟩ := SameKin.preFree hfree
  rw [hparents', hchildren']
  refine ⟨?_, ?_⟩
  · funext x
    unfold parentFreed
    show (Function.update s₂.processes pid none x).map Pcb.ppid = _
    rcases eq_or_ne x pid with rfl | hne
    · rw [Function.update_self, if_pos rfl]
      rfl
    · rw [Function.update_of_ne hne, if_neg hne]
      show s₂.parentOf x = _
      rw [hparents₂, hown, hlists.1]
  · funext x
    unfold childrenFreed
    show (Function.update s₂.processes pid none x).elim [] Pcb.children = _
    rcases eq_or_ne x pid with rfl | hne
    · rw [Function.update_self, if_pos rfl]
      rfl
    · rw [Function.update_of_ne hne, if_neg hne]
      show s₂.childrenOf x = _
      rw [hchildren₂, hlists.2]

/-! ## Steps -/

/-- What a step does to the families.  A process that starts without being put on the list of its parent
is not a child of `a`. -/
inductive Regroups (a : ℕ) (s s' : Scheduler) : Prop
  | same (h : SameKin s s')
  | start {pid ppid : ℕ} (hnew : s.processes pid = none) (hne : ppid ≠ a ∨ ppid = pid)
      (hparents : s'.parentOf = Function.update s.parentOf pid (some ppid))
      (hchildren : s'.childrenOf = s.childrenOf)
  | fork {pid ppid : ℕ} (hnew : s.processes pid = none) (hne : pid ≠ ppid)
      (hparents : s'.parentOf = Function.update s.parentOf pid (some ppid))
      (hchildren : s'.childrenOf = Function.update s.childrenOf ppid (s.childrenOf ppid ++ [pid]))
  | freed (pid : ℕ) (hparents : s'.parentOf = parentFreed s.parentOf s.childrenOf pid)
      (hchildren : s'.childrenOf = childrenFreed s.childrenOf pid)

lemma kin_new (hnew : s.processes pid = none) : s.parentOf pid = none ∧ s.childrenOf pid = [] := by
  unfold parentOf childrenOf
  rw [hnew]
  exact ⟨rfl, rfl⟩

namespace Regroups

variable {a : ℕ}

lemma kin (h : Regroups a s s') (hkin : Kin s.parentOf s.childrenOf) : Kin s'.parentOf s'.childrenOf := by
  rcases h with ⟨hparents, hchildren⟩ | ⟨hnew, -, hparents, hchildren⟩ | ⟨hnew, hne, hparents, hchildren⟩ |
    ⟨pid, hparents, hchildren⟩
  all_goals rw [hparents, hchildren]
  case same => exact hkin
  case start pid ppid =>
    obtain ⟨hparent, hnone⟩ := kin_new hnew
    exact hkin.start hparent hnone ppid
  case fork pid ppid =>
    obtain ⟨hparent, hnone⟩ := kin_new hnew
    exact hkin.add hparent hne hnone
  case freed => exact hkin.free pid

lemma complete (h : Regroups a s s') (hcomplete : Complete s.parentOf s.childrenOf a) :
    Complete s'.parentOf s'.childrenOf a := by
  rcases h with ⟨hparents, hchildren⟩ | ⟨hnew, hne, hparents, hchildren⟩ | ⟨hnew, -, hparents, hchildren⟩ |
    ⟨pid, hparents, hchildren⟩
  all_goals rw [hparents, hchildren]
  case same => exact hcomplete
  case start pid ppid => exact hcomplete.start hne
  case fork pid ppid => exact hcomplete.add
  case freed => exact hcomplete.free pid

end Regroups

/-- The steps that take a child that is freed off the list of its parent. -/
def Reaps (s : Scheduler) : SchedOp → Prop
  | .waitPid waitedFor _ => waitedFor = -1 → ∀ p, s.processes s.caller = some p →
      ∀ child ∈ p.children, ∀ c, s.processes child = some c → ¬ c.flags.zombie
  | _ => True

lemma starts_kin (h : Starts pid p s s') : s'.parentOf = Function.update s.parentOf pid (some p.ppid) ∧
    s'.childrenOf = Function.update s.childrenOf pid p.children := by
  have hprocs : s'.processes = Function.update s.processes pid (some p.resetQuantum) := by rw [h.eq]
  refine ⟨?_, ?_⟩
  · funext q
    unfold parentOf
    rw [hprocs]
    rcases eq_or_ne q pid with rfl | hne
    · rw [Function.update_self, Function.update_self]
      rfl
    · rw [Function.update_of_ne hne, Function.update_of_ne hne]
  · funext q
    unfold childrenOf
    rw [hprocs]
    rcases eq_or_ne q pid with rfl | hne
    · rw [Function.update_self, Function.update_self]
      rfl
    · rw [Function.update_of_ne hne, Function.update_of_ne hne]

lemma regroups_starts {a : ℕ} (h : Starts pid p s s') (hnew : s.processes pid = none)
    (hchildren : p.children = []) (hne : p.ppid ≠ a ∨ p.ppid = pid) : Regroups a s s' := by
  obtain ⟨hparents, hchildren'⟩ := starts_kin h
  refine .start hnew hne hparents ?_
  rw [hchildren', hchildren, ← (kin_new hnew).2, Function.update_eq_self]

lemma regroups_fork {a : ℕ} (horderly : s.Orderly) (h : s.fork s.caller = .ok s') :
    Regroups a s s' := by
  obtain ⟨p, child, s₁, hp, hstarts, rfl⟩ := fork_cases h
  have hnew := horderly.starts_none hstarts
  have hne : child ≠ s.caller := by
    rintro rfl
    simp [hnew] at hp
  obtain ⟨hparents, hchildren⟩ := starts_kin hstarts
  have hp₁ : s₁.processes s.caller = some p := by
    rw [hstarts.eq]
    show Function.update s.processes child _ s.caller = some p
    rw [Function.update_of_ne hne.symm, hp]
  refine .fork hnew hne ?_ ?_
  · show _ = Function.update s.parentOf child (some (p.forked s.caller).ppid)
    rw [← hparents]
    funext q
    unfold parentOf
    rcases eq_or_ne q s.caller with rfl | hq
    · rw [processes_modify, hp₁]
      rfl
    · rw [processes_modify_ne hq]
  · have hsame : s₁.childrenOf = s.childrenOf := by
      rw [hchildren]
      show Function.update s.childrenOf child [] = _
      rw [← (kin_new hnew).2, Function.update_eq_self]
    rw [← hsame]
    funext q
    rcases eq_or_ne q s.caller with rfl | hq
    · rw [Function.update_self, childrenOf_eq hp₁]
      unfold childrenOf
      rw [processes_modify, hp₁]
      rfl
    · rw [Function.update_of_ne hq]
      unfold childrenOf
      rw [processes_modify_ne hq]

lemma regroups_turn {a : ℕ} {wakes : List ReadWake} (horderly : s.Orderly)
    (hkin : Kin s.parentOf s.childrenOf) (h : s.turn wakes = .ok s') : Regroups a s s' := by
  rcases turn_cases h with ⟨hready, rfl⟩ | ⟨hready, hp, hterm, hs'⟩ | ⟨hready, hp, hflags, rfl⟩ |
    ⟨hready, hp, hflags, rfl⟩ | ⟨hready, hp, hexec, hr, hs₁, rfl⟩ | ⟨hready, hp, hflags, rfl⟩
  case idle =>
    refine .same (.of_eq ?_)
    unfold noProcess
    split_ifs
    · rfl
    · rfl
  case ended pid rest p =>
    have hexec : p.flags.exec = false := by
      by_contra hexec
      have hflags := (horderly.exec pid p hp (by simpa using hexec)).2.2.1
      simp [hflags] at hterm
    obtain ⟨p', hp', hcases⟩ := relinquish_cases hs'
    have hp' : s.processes pid = some p' := hp'
    obtain rfl : p = p' := by simpa [hp] using hp'
    rcases hcases with ⟨-, -, -, -, hzombie⟩ | ⟨hwhy, hfree⟩
    · refine .same (SameKin.trans ?_ (SameKin.preFree hzombie))
      exact SameKin.modify (f := fun p => { p with flags := { p.flags with zombie := true } })
        (fun _ => ⟨rfl, rfl⟩) rfl
    · rw [if_neg (by simp [hexec])] at hfree
      have htold : p.ppid = pid ∨
          ((s.lookAt pid).setReadyQueue (s.lookAt pid).readyQueue.tail).parentWaits p = .ok true := by
        rcases hwhy with hself | hexec' | hwaited | ⟨q, hq, hany⟩
        · exact Or.inl hself
        · simp [hexec] at hexec'
        · right
          rw [parentWaits, if_pos hwaited]
        · right
          by_cases hwaited : p.isWaitedByParent
          · rw [parentWaits, if_pos hwaited]
          · rw [parentWaits, if_neg hwaited]
            exact map_eq_ok.mpr ⟨q, proc_eq_ok.mpr hq, hany⟩
      obtain ⟨hparents, hchildren⟩ := kin_freed
        (s := (s.lookAt pid).setReadyQueue (s.lookAt pid).readyQueue.tail) hkin hp hexec htold hfree
      exact .freed pid hparents hchildren
  case key pid rest p => exact .same (.of_eq rfl)
  case blocked pid rest p => exact .same (.of_eq rfl)
  case replaced pid rest p r s₁ =>
    obtain ⟨-, -, -, r', hr', hrep⟩ := horderly.exec pid p hp hexec
    obtain rfl : r = r' := by simpa [hr] using hr'
    have hmark : SameKin s (s.markReplaced pid) :=
      SameKin.modify (f := fun p => { p with flags := { p.flags with terminated := true } })
        (fun _ => ⟨rfl, rfl⟩) rfl
    have hsame := hmark.trans (SameKin.preFree hs₁)
    have hpm : (s.markReplaced pid).processes pid =
        some { p with flags := { p.flags with terminated := true } } := by
      rw [processes_modify, show (s.lookAt pid).processes pid = some p from hp]
      rfl
    obtain ⟨p₁, hp₁, -⟩ := (Calms.preFree hs₁).kept hpm (by simp)
    have hppid : p₁.ppid = p.ppid := by
      have heq := congrFun hsame.parents pid
      rw [parentOf_eq hp₁, parentOf_eq hp] at heq
      simpa using heq
    have hchildren : p₁.children = p.children := by
      have heq := congrFun hsame.children pid
      rwa [childrenOf_eq hp₁, childrenOf_eq hp] at heq
    have hr₁ : SameKin s₁ { s₁ with
        processes := Function.update s₁.processes pid (some r)
        execReplacement := Function.update s₁.execReplacement pid none } :=
      SameKin.replace hp₁ ⟨hrep.ppid.trans hppid.symm, hrep.children.trans hchildren.symm⟩ rfl
    exact .same ((hsame.trans hr₁).trans (SameKin.runFirst (Function.update_self ..)))
  case runs pid rest p =>
    have hlook : SameKin s (s.lookAt pid) := .of_eq rfl
    exact .same (hlook.trans (SameKin.runFirst hp))

lemma sameKin_endWait {wait : ℤ} {wstatus : ℕ} : SameKin s (s.endWait pid wait wstatus) := by
  unfold endWait
  split_ifs
  · exact .of_eq rfl
  · exact .modify (f := fun p => { p with eax := wait }) (fun _ => ⟨rfl, rfl⟩) rfl
  · exact .modify (f := Pcb.terminateWithSignal sigsegv) (fun _ => ⟨rfl, rfl⟩) rfl
  · exact .modify (f := fun p => { p with
      words := Function.update p.words wstatus (wait * 256), eax := wait }) (fun _ => ⟨rfl, rfl⟩) rfl

lemma regroups_waitPid {a : ℕ} {waitedFor : ℤ} {wstatus : ℕ} (horderly : s.Orderly)
    (huser : s.cpu = .user) (hkin : Kin s.parentOf s.childrenOf)
    (hreaps : s.Reaps (.waitPid waitedFor wstatus))
    (h : s.waitPid s.caller waitedFor wstatus = .ok s') : Regroups a s s' := by
  obtain ⟨p₀, -, -, hp₀, hflags⟩ := horderly.caller huser
  obtain ⟨wait, s₁, hreg, rfl⟩ := waitPid_eq h
  obtain ⟨p, hp, hreg⟩ := registerProcessWait_cases hreg
  have hesi : SameKin s (s.modify s.caller fun p => { p with esi := wstatus }) :=
    .modify (f := fun p => { p with esi := wstatus }) (fun _ => ⟨rfl, rfl⟩) rfl
  have hp' : p = { p₀ with esi := wstatus } := by
    rw [processes_modify, hp₀] at hp
    simpa using hp.symm
  have hno : (s.modify s.caller fun p => { p with esi := wstatus }).NoExec :=
    (horderly.noExec_of_user huser).modify fun _ => rfl
  cases hreg with
  | noChild _ _ => exact .same (hesi.trans sameKin_endWait)
  | @anyZombie child c s₂ hany hmem hc hz hfree =>
    exfalso
    have hmem₀ : child ∈ p₀.children := by simpa [hp'] using hmem
    rcases eq_or_ne child s.caller with rfl | hne
    · rw [hp] at hc
      obtain rfl : p = c := by simpa using hc
      simp [hp', hflags] at hz
    · rw [processes_modify_ne hne] at hc
      exact hreaps hany p₀ hp₀ child hmem₀ c hc hz
  | any _ _ _ =>
    have hmark : SameKin (s.modify s.caller fun p => { p with esi := wstatus })
        ((s.modify s.caller fun p => { p with esi := wstatus }).modify s.caller fun p => { p with
          isWaitingForAnyChildToTerminate := true
          flags := { p.flags with waitingProcess := true } }) :=
      .modify (f := fun p => { p with
        isWaitingForAnyChildToTerminate := true
        flags := { p.flags with waitingProcess := true } }) (fun _ => ⟨rfl, rfl⟩) rfl
    exact .same ((hesi.trans hmark).trans sameKin_endWait)
  | @zombie child c s₂ _ _ hc _ hfree =>
    have hmark : SameKin (s.modify s.caller fun p => { p with esi := wstatus })
        ((s.modify s.caller fun p => { p with esi := wstatus }).modify child fun c => { c with
          isWaitedByParent := true }) :=
      .modify (f := fun c => { c with isWaitedByParent := true }) (fun _ => ⟨rfl, rfl⟩) rfl
    have hsame := hesi.trans hmark
    have hc₁ : ((s.modify s.caller fun p => { p with esi := wstatus }).modify child fun c => { c with
        isWaitedByParent := true }).processes child = some { c with isWaitedByParent := true } := by
      rw [processes_modify, hc]
      rfl
    have hkin₁ := hkin
    rw [← hsame.parents, ← hsame.children] at hkin₁
    obtain ⟨hparents, hchildren⟩ := kin_freed hkin₁ hc₁ (hno child c hc) (Or.inr rfl) hfree
    obtain ⟨hparents', hchildren'⟩ : SameKin s₁ (s₁.endWait s.caller child wstatus) := sameKin_endWait
    refine .freed child ?_ ?_
    · rw [hparents', hparents, hsame.parents, hsame.children]
    · rw [hchildren', hchildren, hsame.children]
  | @one child c _ _ _ _ =>
    have hmark : SameKin (s.modify s.caller fun p => { p with esi := wstatus })
        ((s.modify s.caller fun p => { p with esi := wstatus }).modify child fun c => { c with
          isWaitedByParent := true }) :=
      .modify (f := fun c => { c with isWaitedByParent := true }) (fun _ => ⟨rfl, rfl⟩) rfl
    have hwait : SameKin ((s.modify s.caller fun p => { p with esi := wstatus }).modify child fun c =>
        { c with isWaitedByParent := true }) (((s.modify s.caller fun p => { p with
        esi := wstatus }).modify child fun c => { c with isWaitedByParent := true }).modify s.caller fun p =>
        { p with flags := { p.flags with waitingProcess := true } }) :=
      .modify (f := fun p => { p with flags := { p.flags with waitingProcess := true } })
        (fun _ => ⟨rfl, rfl⟩) rfl
    exact .same (((hesi.trans hmark).trans hwait).trans sameKin_endWait)

lemma regroups_step {a : ℕ} (horderly : s.Orderly) (hkin : Kin s.parentOf s.childrenOf)
    (hallowed : s.Allowed op) (hreaps : s.Reaps op) (hexec : ∀ loads, op ≠ .exec a loads)
    (hs' : s.step op = .ok s') : Regroups a s s' := by
  cases op with
  | timer =>
    obtain ⟨s₁, hs₁, hs'⟩ := bind_eq_ok.mp hs'
    cases hs'
    have hticks : SameKin s { s with ticks := u32 (s.ticks + 1) } := .of_eq rfl
    have hwakes := hticks.trans (SameKin.wakes (Wakes.checkForProcessesToWakeUp hs₁))
    exact .same (hwakes.trans (.of_eq rfl))
  | turn wakes => exact regroups_turn horderly hkin hs'
  | key c => exact .same (.wakes (Wakes.wakeUpKeyWaitingProcesses hs'))
  | fork => exact regroups_fork horderly hs'
  | exec ppid loads =>
    cases hs'
    rcases exec_cases s ppid loads with heq | ⟨pid, heq⟩ | ⟨pid, hstarts⟩
    · rw [heq]
      exact .same (.of_eq rfl)
    · rw [heq]
      exact .same (.of_eq rfl)
    · refine regroups_starts hstarts (horderly.starts_none hstarts) rfl (Or.inl ?_)
      rintro rfl
      exact hexec loads rfl
  | startKernelProcess =>
    obtain ⟨pid, hstarts⟩ := startKernelProcess_cases hs'
    exact regroups_starts hstarts (horderly.starts_none hstarts) rfl (Or.inr rfl)
  | stopKernelInitProcess =>
    cases hs'
    exact .same (.of_eq rfl)
  | execve loads wakes =>
    rcases execve_cases hs' with rfl | ⟨p, s₁, -, hwakes, rfl⟩
    · exact .same (.modify (f := fun p => { p with eax := -1 }) (fun _ => ⟨rfl, rfl⟩) rfl)
    · refine .same ((SameKin.wakes (Wakes.wakeAll hwakes)).trans ?_)
      exact .modify (f := fun p => { p with flags := { p.flags with exec := true } })
        (fun _ => ⟨rfl, rfl⟩) rfl
  | exit retVal =>
    cases hs'
    exact .same (.modify (f := Pcb.terminateWithValue retVal) (fun _ => ⟨rfl, rfl⟩) rfl)
  | kill target signal =>
    cases hs'
    unfold Scheduler.kill
    split_ifs
    · have hterm : SameKin s (s.modify target.toNat (Pcb.terminateWithSignal signal)) :=
        .modify (f := Pcb.terminateWithSignal signal) (fun _ => ⟨rfl, rfl⟩) rfl
      exact .same (hterm.trans (.modify (f := fun p => { p with eax := 0 }) (fun _ => ⟨rfl, rfl⟩) rfl))
    · exact .same (.modify (f := fun p => { p with eax := -esrch }) (fun _ => ⟨rfl, rfl⟩) rfl)
  | waitPid waitedFor wstatus => exact regroups_waitPid horderly hallowed hkin hreaps hs'
  | sleep ticks =>
    obtain ⟨heap, -, rfl⟩ := sleep_cases hs'
    exact .same (.modify (f := fun p => { p with flags := { p.flags with sleeping := true } })
      (fun _ => ⟨rfl, rfl⟩) rfl)
  | getKey =>
    cases hs'
    exact .same (.modify (f := fun p => { p with flags := { p.flags with waitingKey := true } })
      (fun _ => ⟨rfl, rfl⟩) rfl)
  | readWait fd n =>
    cases hs'
    exact .same (.modify (f := fun p => { p with flags := { p.flags with waitingRead := true } })
      (fun _ => ⟨rfl, rfl⟩) rfl)
  | wakeReaders w => exact .same (.wakes (Wakes.wakeUpReadWaitingProcesses hs'))

/-! ## Runs -/

/-- The list of a process holds its children, each once. -/
def FamilyRight (a : ℕ) (s : Scheduler) : Prop :=
  ∀ p, s.processes a = some p → p.children.Nodup ∧
    ∀ c, c ∈ p.children ↔ c ≠ a ∧ ∃ c', s.processes c = some c' ∧ c'.ppid = a

/-- The steps that keep the list of a process right. -/
def FamilyKept (a : ℕ) (s : Scheduler) (op : SchedOp) : Prop :=
  s.Reaps op ∧ ∀ loads, op ≠ .exec a loads

lemma familyRight {a : ℕ} (hkin : Kin s.parentOf s.childrenOf)
    (hcomplete : Complete s.parentOf s.childrenOf a) : s.FamilyRight a := by
  intro p hp
  rw [← childrenOf_eq hp]
  refine ⟨hkin.nodup a, ?_⟩
  intro c
  have hparent : s.parentOf c = some a ↔ ∃ c', s.processes c = some c' ∧ c'.ppid = a :=
    Option.map_eq_some_iff
  rw [← hparent]
  constructor
  · exact hkin.sound a c
  · rintro ⟨hne, hc⟩
    exact hcomplete c hc hne

lemma kin_boot : Kin boot.parentOf boot.childrenOf := by
  have hnone : ∀ q, boot.childrenOf q = [] := by
    intro q
    show (if q = 0 then some (Pcb.resetQuantum { ppid := 0 }) else none).elim [] Pcb.children = []
    split_ifs
    · rfl
    · rfl
  refine ⟨?_, ?_⟩
  · intro q
    rw [hnone]
    exact List.nodup_nil
  · intro q c hc
    simp [hnone] at hc

lemma complete_boot (a : ℕ) : Complete boot.parentOf boot.childrenOf a := by
  intro c hc hne
  have hc : (if c = 0 then some (Pcb.resetQuantum { ppid := 0 }) else none).map Pcb.ppid = some a := hc
  split_ifs at hc with hzero
  · exact absurd (hzero.trans (by simpa [Pcb.resetQuantum] using hc)) hne
  · cases hc

/-- In every run in which nobody who waits for any child finds a zombie, and in which no `exec` starts a
child of `a`, the list of `a` is right in every state. -/
theorem family_right (a : ℕ) (ops : List SchedOp)
    (h : EachCall step (fun s op => s.Allowed op ∧ s.FamilyKept a op) ops boot) :
    boot.FamilyRight a ∧ EachCall step (After step (FamilyRight a)) ops boot := by
  refine ⟨familyRight kin_boot (complete_boot a), ?_⟩
  have hinv : EachCall step (After step fun s => s.Orderly ∧ Kin s.parentOf s.childrenOf ∧
      Complete s.parentOf s.childrenOf a) ops boot := by
    refine EachCall.invariant ?_ ⟨orderly_boot, kin_boot, complete_boot a⟩ h
    rintro s op s' ⟨horderly, hkin, hcomplete⟩ ⟨hallowed, hreaps, hexec⟩ hs'
    have hregroups := regroups_step horderly hkin hallowed hreaps hexec hs'
    exact ⟨horderly.step hallowed hs', hregroups.kin hkin, hregroups.complete hcomplete⟩
  refine hinv.imp ?_
  intro s op hafter
  unfold After at hafter ⊢
  split
  next s' hs' =>
    rw [hs'] at hafter
    exact familyRight hafter.2.1 hafter.2.2
  next => trivial

instance decidableReaps (s : Scheduler) : DecidablePred s.Reaps
  | .waitPid waitedFor _ => decidable_of_iff
      (waitedFor = -1 → (s.processes s.caller).all fun p => p.children.all fun child =>
        (s.processes child).all fun c => !c.flags.zombie) (by
        simp only [Option.all_eq_true, List.all_eq_true, Bool.not_eq_true', Reaps, Bool.not_eq_true])
  | .timer | .turn _ | .key _ | .fork | .exec .. | .startKernelProcess | .stopKernelInitProcess
  | .execve .. | .exit _ | .kill .. | .sleep _ | .getKey | .readWait .. | .wakeReaders _ =>
      inferInstanceAs (Decidable True)

instance decidableFamilyKept (a : ℕ) (s : Scheduler) : DecidablePred (s.FamilyKept a)
  | .exec ppid _ => decidable_of_iff (ppid ≠ a) (by simp [FamilyKept, Reaps])
  | .timer | .turn _ | .key _ | .fork | .startKernelProcess | .stopKernelInitProcess | .waitPid ..
  | .execve .. | .exit _ | .kill .. | .sleep _ | .getKey | .readWait .. | .wakeReaders _ =>
      decidable_of_iff (s.Reaps _) ⟨fun h => ⟨h, fun _ => by simp⟩, And.left⟩

/-- The first program forks twice, waits for one child that has ended and for any child that has not. -/
theorem family_right_first :
    EachCall step (fun s op => s.Allowed op ∧ s.FamilyKept 1 op)
        [.exec 0 true, .stopKernelInitProcess, .timer, .turn [], .fork, .timer, .turn [], .turn [], .exit 3,
          .timer, .turn [], .turn [], .waitPid 2 100, .fork, .waitPid (-1) 100, .timer, .turn [], .turn [],
          .exit 4, .timer, .turn [], .turn [], .turn []] boot ∧
      EachCall step (After step (FamilyRight 1))
        [.exec 0 true, .stopKernelInitProcess, .timer, .turn [], .fork, .timer, .turn [], .turn [], .exit 3,
          .timer, .turn [], .turn [], .waitPid 2 100, .fork, .waitPid (-1) 100, .timer, .turn [], .turn [],
          .exit 4, .timer, .turn [], .turn [], .turn []] boot :=
  have hkept : EachCall step (fun s op => s.Allowed op ∧ s.FamilyKept 1 op)
      [.exec 0 true, .stopKernelInitProcess, .timer, .turn [], .fork, .timer, .turn [], .turn [], .exit 3,
        .timer, .turn [], .turn [], .waitPid 2 100, .fork, .waitPid (-1) 100, .timer, .turn [], .turn [],
        .exit 4, .timer, .turn [], .turn [], .turn []] boot := by
    decide +kernel
  ⟨hkept, (family_right 1 _ hkept).2⟩

lemma not_familyRight {a c : ℕ} {ops : List SchedOp}
    (h : (ops.foldlM step boot).toOption.any (fun s => (s.processes a).any fun p =>
      c ∈ p.children ∧ s.processes c = none ∨
        c ∉ p.children ∧ c ≠ a ∧ (s.processes c).any fun c' => c'.ppid = a)) :
    ¬ EachCall step (After step (FamilyRight a)) ops boot := by
  intro hafter
  obtain ⟨s, hrun, hwrong⟩ := exists_reached h
  have hright := hafter.reached (familyRight kin_boot (complete_boot a)) s hrun
  obtain ⟨p, hp, hwrong⟩ := (Option.any_eq_true ..).mp hwrong
  rw [decide_eq_true_eq] at hwrong
  rcases hwrong with ⟨hmem, hnone⟩ | ⟨hmem, hne, hchild⟩
  · obtain ⟨-, c', hc', -⟩ := ((hright p hp).2 c).mp hmem
    simp [hnone] at hc'
  · obtain ⟨c', hc', hppid⟩ := (Option.any_eq_true ..).mp hchild
    exact hmem (((hright p hp).2 c).mpr ⟨hne, c', hc', by simpa using hppid⟩)

/-- A child that has ended is freed for a process that waits for any, and stays on its list; the first
program is a child of the init process, and not on its list. -/
theorem family_wrong :
    (EachCall step Allowed [.exec 0 true, .stopKernelInitProcess, .timer, .turn [], .fork, .timer, .turn [],
        .turn [], .exit 3, .timer, .turn [], .turn [], .waitPid (-1) 100] boot ∧
      ¬ EachCall step (After step (FamilyRight 1)) [.exec 0 true, .stopKernelInitProcess, .timer, .turn [],
        .fork, .timer, .turn [], .turn [], .exit 3, .timer, .turn [], .turn [], .waitPid (-1) 100] boot) ∧
    EachCall step Allowed [.exec 0 true] boot ∧
      ¬ EachCall step (After step (FamilyRight 0)) [.exec 0 true] boot := by
  refine ⟨⟨by decide +kernel, ?_⟩, by decide +kernel, ?_⟩
  · exact not_familyRight (c := 2) (by decide +kernel)
  · exact not_familyRight (c := 1) (by decide +kernel)

end Scheduler

end BrebOS

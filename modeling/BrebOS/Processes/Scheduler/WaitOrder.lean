import BrebOS.Processes.Scheduler.NoPanic

/-!
# Waiting before and after the end

A parent that waits for a child may come before or after the end of the child.  If it comes first it is
told when the scheduler frees the child, and finds its status when it runs again; if it comes last it
finds a zombie, and frees it in the call.
-/

namespace BrebOS

/-- How a process ends. -/
inductive Ending
  | value (retVal : ℤ)
  | signal (retSig : ℕ)
  deriving DecidableEq, Repr

/-- A process that ends. -/
def Ending.mark : Ending → Pcb → Pcb
  | .value retVal => Pcb.terminateWithValue retVal
  | .signal retSig => Pcb.terminateWithSignal retSig

/-- The status of a process that has ended. -/
def Ending.status : Ending → ℤ
  | .value retVal => retVal % 256 * 256
  | .signal retSig => retSig % 128

lemma Ending.mark_eq (e : Ending) (p : Pcb) : e.mark p =
    { p with flags := { p.flags with terminated := true }, retStatus := e.status } := by
  cases e with
  | value _ => rfl
  | signal _ => rfl

/-- A process that has got data to read, or not even that. -/
def Pcb.Roused (p p' : Pcb) : Prop :=
  p' = { p with flags := { p.flags with waitingRead := p'.flags.waitingRead } }

instance Pcb.Roused.isPreorder : IsPreorder Pcb Pcb.Roused where
  refl _ := rfl
  trans _ _ _ h h' := by
    unfold Pcb.Roused at h h' ⊢
    conv_lhs => rw [h', h]

lemma Pcb.Roused.same {α : Type} {p p' : Pcb} (h : p.Roused p') (f : Pcb → α)
    (hf : ∀ b, f { p with flags := { p.flags with waitingRead := b } } = f p) : f p' = f p :=
  (congrArg f h).trans (hf _)

/-- What `waitpid` leaves behind. -/
structure WaitResult where
  /-- What is returned; none when the process has ended. -/
  value : Option ℤ
  status : ℤ
  children : List ℕ
  pool : ℕ → Bool

namespace Scheduler

variable {s s' : Scheduler} {parent child : ℕ} {p c : Pcb} {e : Ending} {waitedFor : ℤ} {wstatus : ℕ}
  {wakes : List ReadWake} {rest : List ℕ}

/-! ## The two orders -/

/-- The child ends, and the scheduler comes to it. -/
def endProcess (child : ℕ) (e : Ending) (wakes : List ReadWake) (rest : List ℕ) (s : Scheduler) :
    Except Fault Scheduler :=
  (((s.modify child e.mark).setReadyQueue (child :: rest)).lookAt child).relinquishFirstReadyProcess child
    wakes

/-- The child ends, and the parent waits for it. -/
def exitThenWait (parent child : ℕ) (e : Ending) (waitedFor : ℤ) (wstatus : ℕ) (wakes : List ReadWake)
    (rest : List ℕ) (s : Scheduler) : Except Fault Scheduler := do
  let s ← s.endProcess child e wakes rest
  (s.lookAt parent).waitPid parent waitedFor wstatus

/-- The parent waits for the child, the child ends, and the parent runs again. -/
def waitThenExit (parent child : ℕ) (e : Ending) (waitedFor : ℤ) (wstatus : ℕ) (wakes : List ReadWake)
    (rest : List ℕ) (s : Scheduler) : Except Fault Scheduler := do
  let s ← (s.lookAt parent).waitPid parent waitedFor wstatus
  let s ← s.endProcess child e wakes rest
  .ok (s.modify parent Pcb.resumed)

def waitResult (parent wstatus : ℕ) (s : Scheduler) : Option WaitResult :=
  (s.processes parent).map fun p =>
    { value := if p.flags.terminated then none else some p.eax
      status := p.words wstatus
      children := p.children
      pool := s.pidPool }

/-- None of the other children of a process has ended. -/
def Alone (p : Pcb) (child : ℕ) (s : Scheduler) : Prop :=
  ∀ q ∈ p.children, q ≠ child → ∀ c, s.processes q = some c → c.flags.zombie = false

/-- A process has a child. -/
structure Pair (parent child : ℕ) (p c : Pcb) (s : Scheduler) : Prop where
  self : s.processes parent = some p
  other : s.processes child = some c
  pos : 0 < child
  ne : parent ≠ child
  ppid : c.ppid = parent
  mem : child ∈ p.children
  runs : p.flags.terminated = false
  notAny : p.isWaitingForAnyChildToTerminate = false
  notWaited : c.isWaitedByParent = false
  notReplaced : c.flags.exec = false
  readers : s.Known s.readers
  notReader : child ∉ s.readers

/-- The child has not ended yet. -/
structure Scene (parent child : ℕ) (p c : Pcb) (s : Scheduler) : Prop extends Pair parent child p c s where
  alive : c.flags.zombie = false
  notFreed : c.isPreFreed = false

/-! ## Readers -/

lemma roused_wakeAll (h : wakes.foldlM wakeUpReadWaitingProcesses s = .ok s') :
    Alters Pcb.Roused ∅ s s' := by
  refine .foldlM ?_ h
  intro s w s' hs'
  have hcount : Alters Pcb.Roused ∅ s { s with
      processesWaitingForRead := (s.processesWaitingForRead.map (countBytes w)).map Prod.fst } :=
    .of_eq rfl rfl rfl ⟨rfl, rfl, rfl, rfl, rfl⟩
  refine hcount.andThen (.foldlM ?_ hs')
  intro s e s' hs'
  have hread : Alters Pcb.Roused ∅ s { s with
      processesWaitingForRead :=
        s.processesWaitingForRead.eraseP fun x => x.pid = e.pid ∧ x.fd = e.fd } :=
    .of_eq rfl rfl rfl ⟨rfl, rfl, rfl, rfl, rfl⟩
  refine hread.andThen (.wakeUp ?_ hs')
  intro p
  rfl

/-! ## The child is freed -/

lemma tellParent_told (hp : s.processes parent = some p) (hc : s.processes child = some c)
    (hppid : c.ppid = parent) (hwaits : c.isWaitedByParent ∨ p.isWaitingForAnyChildToTerminate) :
    s.tellParent child = .ok (((if s.runningProcess ≠ some parent then s.enqueueReady parent else s).modify
      parent (Pcb.told child c.retStatus)).modify child fun c => { c with isWaitedByParent := false }) := by
  subst hppid
  obtain ⟨s', hs'⟩ := tellParent_ok hc (by rw [hp]; rfl)
  obtain ⟨c', hc', hcases⟩ := tellParent_cases hs'
  obtain rfl : c = c' := by simpa [hc] using hc'
  have hparent : s.parentWaits c = .ok true := by
    unfold parentWaits
    split_ifs with hwaited
    · rfl
    · exact map_eq_ok.mpr ⟨p, proc_eq_ok.mpr hp, hwaits.resolve_left hwaited⟩
  rcases hcases with ⟨hno, -⟩ | ⟨-, -, heq⟩
  · rw [hparent] at hno
    cases hno
  · rw [hs', heq]

lemma tellParent_quiet (hp : s.processes parent = some p) (hc : s.processes child = some c)
    (hppid : c.ppid = parent) (hwaited : c.isWaitedByParent = false)
    (hany : p.isWaitingForAnyChildToTerminate = false) : s.tellParent child = .ok s := by
  subst hppid
  have hparent : s.parentWaits c = .ok false := by
    rw [parentWaits, if_neg (by simp [hwaited])]
    exact map_eq_ok.mpr ⟨p, proc_eq_ok.mpr hp, hany⟩
  exact bind_eq_ok.mpr ⟨c, proc_eq_ok.mpr hc, bind_eq_ok.mpr ⟨false, hparent, rfl⟩⟩

lemma freed {s₁ : Scheduler} {c₁ : Pcb} (wakes : List ReadWake) (hc : s.processes child = some c)
    (hended : c.flags.terminated ∨ c.flags.zombie) (hexec : c.flags.exec = false)
    (hparent : (s.processes c.ppid).isSome) (hnone : c.children = []) (hreaders : s.Known s.readers)
    (hnot : child ∉ s.readers) (htell : s.tellParent child = .ok s₁)
    (hc₁ : s₁.processes child = some c₁) (hnone₁ : c₁.children = []) :
    ∃ s', s.freeTerminatedProcess child wakes = .ok s' ∧
      Alters Pcb.Roused ∅ (s₁.unregistered child) s' := by
  have hknown : s.Known c.children := by
    intro q hq
    simp [hnone] at hq
  obtain ⟨s', hs'⟩ : ∃ s', s.freeTerminatedProcess child wakes = .ok s' :=
    freeTerminatedProcess_ok hc hended hparent hknown hreaders hnot
  refine ⟨s', hs', ?_⟩
  obtain ⟨c', hc', -, ⟨hexec', -⟩ | ⟨-, s₁', c₁', s₂, htell', hc₁', horphan, hfree⟩⟩ :=
    freeTerminatedProcess_cases hs'
  · obtain rfl : c = c' := by simpa [hc] using hc'
    simp [hexec] at hexec'
  · obtain rfl : s₁ = s₁' := by simpa [htell] using htell'
    obtain rfl : c₁ = c₁' := by simpa [hc₁] using hc₁'
    rw [hnone₁] at horphan
    cases horphan
    rcases preFree_cases hfree with ⟨-, rfl⟩ | ⟨-, -, s₃, hwakes, rfl⟩
    · exact .refl _
    · refine (roused_wakeAll hwakes).andThen (.modify _ child ?_)
      intro c' hc'
      obtain ⟨c₀, hc₀, -⟩ := (roused_wakeAll hwakes).alters child c' hc'
      have hc₀ : Function.update s₁.processes child none child = some c₀ := hc₀
      simp at hc₀

lemma processes_unregistered_ne (hne : parent ≠ child) :
    (s.unregistered child).processes parent = s.processes parent :=
  Function.update_of_ne hne ..

lemma pidPool_freed (h : Alters Pcb.Roused ∅ (s.unregistered child) s') :
    s'.pidPool = Function.update s.pidPool child false := by
  funext q
  rw [h.pool]
  simp [releasePid]

lemma freed_told (wakes : List ReadWake) (hp : s.processes parent = some p)
    (hc : s.processes child = some c)
    (hppid : c.ppid = parent) (hne : parent ≠ child) (hended : c.flags.terminated ∨ c.flags.zombie)
    (hexec : c.flags.exec = false) (hnone : c.children = []) (hreaders : s.Known s.readers)
    (hnot : child ∉ s.readers) (hwaits : c.isWaitedByParent ∨ p.isWaitingForAnyChildToTerminate) :
    ∃ s' p', s.freeTerminatedProcess child wakes = .ok s' ∧ s'.processes parent = some p' ∧
      (p.told child c.retStatus).Roused p' ∧ s'.pidPool = Function.update s.pidPool child false := by
  have htell := tellParent_told hp hc hppid hwaits
  have hpool : (if s.runningProcess ≠ some parent then s.enqueueReady parent else s).pidPool =
    s.pidPool := by
    split_ifs
    · rfl
    · rfl
  have hprocs : (if s.runningProcess ≠ some parent then s.enqueueReady parent else s).processes =
      s.processes := processes_readyUnlessRuns
  generalize (if s.runningProcess ≠ some parent then s.enqueueReady parent else s) = s₁ at *
  have hc₁ : ((s₁.modify parent (Pcb.told child c.retStatus)).modify child fun c => { c with
      isWaitedByParent := false }).processes child = some { c with isWaitedByParent := false } := by
    rw [processes_modify, processes_modify_ne hne.symm, hprocs, hc]
    rfl
  obtain ⟨s', hs', halters⟩ := freed wakes hc hended hexec (by rw [hppid, hp]; rfl) hnone
    hreaders hnot htell hc₁ hnone
  have hp₁ : (((s₁.modify parent (Pcb.told child c.retStatus)).modify child fun c => { c with
      isWaitedByParent := false }).unregistered child).processes parent =
      some (p.told child c.retStatus) := by
    rw [processes_unregistered_ne hne, processes_modify_ne hne, processes_modify, hprocs, hp]
    rfl
  obtain ⟨p', hp', hroused⟩ := halters.kept hp₁ (by simp)
  refine ⟨s', p', hs', hp', hroused, ?_⟩
  rw [pidPool_freed halters]
  show Function.update s₁.pidPool child false = _
  rw [hpool]

lemma freed_quiet (wakes : List ReadWake) (hp : s.processes parent = some p)
    (hc : s.processes child = some c)
    (hppid : c.ppid = parent) (hne : parent ≠ child) (hended : c.flags.terminated ∨ c.flags.zombie)
    (hexec : c.flags.exec = false) (hnone : c.children = []) (hreaders : s.Known s.readers)
    (hnot : child ∉ s.readers) (hwaited : c.isWaitedByParent = false)
    (hany : p.isWaitingForAnyChildToTerminate = false) :
    ∃ s' p', s.freeTerminatedProcess child wakes = .ok s' ∧ s'.processes parent = some p' ∧
      p.Roused p' ∧ s'.pidPool = Function.update s.pidPool child false := by
  obtain ⟨s', hs', halters⟩ := freed wakes hc hended hexec (by rw [hppid, hp]; rfl) hnone hreaders hnot
    (tellParent_quiet hp hc hppid hwaited hany) hc hnone
  have hp₁ : (s.unregistered child).processes parent = some p := by
    rw [processes_unregistered_ne hne, hp]
  obtain ⟨p', hp', hroused⟩ := halters.kept hp₁ (by simp)
  exact ⟨s', p', hs', hp', hroused, pidPool_freed halters⟩

/-! ## The child ends -/

lemma relinquish_zombie (hp : s.processes parent = some p) (hc : s.processes child = some c)
    (hppid : c.ppid = parent) (hne : parent ≠ child) (hexec : c.flags.exec = false)
    (hwaited : c.isWaitedByParent = false) (hany : p.isWaitingForAnyChildToTerminate = false) :
    s.relinquishFirstReadyProcess child wakes =
      ((s.setReadyQueue s.readyQueue.tail).modify child fun c =>
        { c with flags := { c.flags with zombie := true } }).preFree child c wakes := by
  have hproc : s.proc child = .ok c := proc_eq_ok.mpr hc
  have hparent : (s.setReadyQueue s.readyQueue.tail).proc parent = .ok p := proc_eq_ok.mpr hp
  unfold relinquishFirstReadyProcess
  rw [hproc]
  simp [bind, Except.bind, hexec, hppid, hne, hparent, hwaited, hany]

lemma relinquish_freed (hp : s.processes parent = some p) (hc : s.processes child = some c)
    (hppid : c.ppid = parent) (hne : parent ≠ child) (hexec : c.flags.exec = false)
    (hwaits : c.isWaitedByParent ∨ p.isWaitingForAnyChildToTerminate) :
    s.relinquishFirstReadyProcess child wakes =
      (s.setReadyQueue s.readyQueue.tail).freeTerminatedProcess child wakes := by
  have hproc : s.proc child = .ok c := proc_eq_ok.mpr hc
  have hparent : (s.setReadyQueue s.readyQueue.tail).proc parent = .ok p := proc_eq_ok.mpr hp
  unfold relinquishFirstReadyProcess
  rw [hproc]
  simp only [bind, Except.bind, hexec, hppid, if_neg hne, if_neg Bool.false_ne_true, hparent]
  rw [if_neg]
  rcases hwaits with hwaited | hany
  · simp [hwaited]
  · simp [hany]

lemma preFree_eq {s₁ : Scheduler} (hfreed : c.isPreFreed = false) (hnone : c.children = [])
    (hwakes : wakes.foldlM wakeUpReadWaitingProcesses s = .ok s₁) :
    s.preFree child c wakes = .ok (s₁.modify child fun p => { p with isPreFreed := true }) := by
  rw [preFree, if_neg (by simp [hfreed]), hwakes]
  simp [bind, Except.bind, hnone]

/-- The state in which the scheduler comes to the child. -/
abbrev ending (child : ℕ) (e : Ending) (rest : List ℕ) (s : Scheduler) : Scheduler :=
  ((s.modify child e.mark).setReadyQueue (child :: rest)).lookAt child

lemma ending_child (e : Ending) (rest : List ℕ) (hc : s.processes child = some c) :
    (s.ending child e rest).processes child = some (e.mark c) := by
  show (s.modify child e.mark).processes child = _
  rw [processes_modify, hc]
  rfl

lemma ending_ne {q : ℕ} (e : Ending) (rest : List ℕ) (hne : q ≠ child) :
    (s.ending child e rest).processes q = s.processes q :=
  processes_modify_ne hne

namespace Scene

lemma endProcess_zombie (e : Ending) (wakes : List ReadWake) (rest : List ℕ)
    (h : Scene parent child p c s) (hnone : c.children = []) :
    ∃ s₁ p₁ c₁, s.endProcess child e wakes rest = .ok s₁ ∧ Pair parent child p₁ c₁ s₁ ∧ p.Roused p₁ ∧
      c₁.flags.zombie ∧ c₁.children = [] ∧ s₁.pidPool = s.pidPool ∧
        (s.Alone p child → s₁.Alone p₁ child) := by
  have hc₀ := ending_child e rest h.other
  have hp₀ := (ending_ne e rest h.ne).trans h.self
  have hmark := e.mark_eq c
  have hkeeps : KeepsReaders s (((s.ending child e rest).setReadyQueue rest).modify child fun c =>
      { c with flags := { c.flags with zombie := true } }) := by
    have hready : KeepsReaders (s.modify child e.mark) ((s.ending child e rest).setReadyQueue rest) :=
      ⟨fun _ => rfl, List.Subset.refl _⟩
    exact ((KeepsReaders.modify s child e.mark).trans hready).trans (.modify _ child _)
  obtain ⟨s₁, hwakes, hkeeps₁⟩ := wakeAll_ok wakes (hkeeps.known_readers h.readers)
  have hall := (hkeeps.trans hkeeps₁).trans (.modify s₁ child fun p => { p with isPreFreed := true })
  have halters := roused_wakeAll hwakes
  have hp₁ : (((s.ending child e rest).setReadyQueue rest).modify child fun c =>
      { c with flags := { c.flags with zombie := true } }).processes parent = some p := by
    rw [processes_modify_ne h.ne]
    exact hp₀
  have hc₁ : (((s.ending child e rest).setReadyQueue rest).modify child fun c =>
      { c with flags := { c.flags with zombie := true } }).processes child =
      some { e.mark c with flags := { (e.mark c).flags with zombie := true } } := by
    rw [processes_modify]
    show ((s.ending child e rest).processes child).map _ = _
    rw [hc₀]
    rfl
  obtain ⟨p₂, hp₂, hroused⟩ := halters.kept hp₁ (by simp)
  obtain ⟨c₂, hc₂, hrousedc⟩ := halters.kept hc₁ (by simp)
  refine ⟨s₁.modify child fun p => { p with isPreFreed := true }, p₂,
    { c₂ with isPreFreed := true }, ?_, ?_,
    hroused, ?_, ?_, ?_, ?_⟩
  · rw [endProcess, relinquish_zombie hp₀ hc₀ (by rw [hmark, h.ppid]) h.ne (by rw [hmark, h.notReplaced])
      (by rw [hmark, h.notWaited]) h.notAny]
    exact preFree_eq (by rw [hmark, h.notFreed]) (by rw [hmark, hnone]) hwakes
  · refine ⟨?_, ?_, h.pos, h.ne, ?_, ?_, ?_, ?_, ?_, ?_, hall.known_readers h.readers, ?_⟩
    · rw [processes_modify_ne h.ne, hp₂]
    · rw [processes_modify, hc₂]
      rfl
    · show c₂.ppid = parent
      rw [hrousedc.same Pcb.ppid fun _ => rfl, hmark, h.ppid]
    · rw [hroused.same Pcb.children fun _ => rfl]
      exact h.mem
    · rw [hroused.same (fun p => p.flags.terminated) fun _ => rfl]
      exact h.runs
    · rw [hroused.same Pcb.isWaitingForAnyChildToTerminate fun _ => rfl]
      exact h.notAny
    · show c₂.isWaitedByParent = false
      rw [hrousedc.same Pcb.isWaitedByParent fun _ => rfl, hmark, h.notWaited]
    · show c₂.flags.exec = false
      rw [hrousedc.same (fun p => p.flags.exec) fun _ => rfl, hmark, h.notReplaced]
    · intro hmem
      exact h.notReader (hall.readers hmem)
  · show c₂.flags.zombie
    rw [hrousedc.same (fun p => p.flags.zombie) fun _ => rfl]
  · show c₂.children = []
    rw [hrousedc.same Pcb.children fun _ => rfl, hmark, hnone]
  · show s₁.pidPool = s.pidPool
    funext q
    rw [halters.pool]
    simp [modify, setReadyQueue]
  · intro halone q hq hne c' hc'
    rw [hroused.same Pcb.children fun _ => rfl] at hq
    rw [processes_modify_ne hne] at hc'
    obtain ⟨c₀, hc₀, hroused₀⟩ := halters.alters q c' hc'
    rw [processes_modify_ne hne] at hc₀
    rw [hroused₀.same (fun p => p.flags.zombie) fun _ => rfl]
    exact halone q hq hne c₀ ((ending_ne e rest hne).symm.trans hc₀)

end Scene

/-! ## The parent comes last -/

namespace Pair

lemma call (h : Pair parent child p c s) (wstatus : ℕ) : Pair parent child { p with esi := wstatus } c
    ((s.lookAt parent).modify parent fun p => { p with esi := wstatus }) := by
  have hlook : KeepsReaders s (s.lookAt parent) := ⟨fun _ => rfl, List.Subset.refl _⟩
  have hkeeps := hlook.trans (.modify _ parent fun p => { p with esi := wstatus })
  refine ⟨?_, ?_, h.pos, h.ne, h.ppid, h.mem, h.runs, h.notAny, h.notWaited, h.notReplaced,
    hkeeps.known_readers h.readers, h.notReader⟩
  · rw [processes_modify, show (s.lookAt parent).processes parent = some p from h.self]
    rfl
  · rw [processes_modify_ne h.ne.symm]
    exact h.other

lemma alone (h : Pair parent child p c s) (halone : s.Alone p child) (wstatus : ℕ) :
    Alone { p with esi := wstatus } child
      ((s.lookAt parent).modify parent fun p => { p with esi := wstatus }) := by
  intro q hq hne c' hc'
  rcases eq_or_ne q parent with rfl | hother
  · rw [processes_modify, show (s.lookAt q).processes q = some p from h.self, Option.map_some] at hc'
    obtain rfl : { p with esi := wstatus } = c' := by simpa using hc'
    exact halone q hq hne p h.self
  · rw [processes_modify_ne hother] at hc'
    exact halone q hq hne c' hc'

lemma find_zombie (h : Pair parent child p c s) (halone : s.Alone p child) (hz : c.flags.zombie) :
    p.children.find? (fun q => (s.processes q).any fun c => c.flags.zombie) = some child := by
  rcases hfind : p.children.find? (fun q => (s.processes q).any fun c => c.flags.zombie) with _ | q
  · rw [List.find?_eq_none] at hfind
    exact absurd (by simp [h.other, hz]) (hfind child h.mem)
  · have hany := List.find?_some hfind
    obtain ⟨c', hc', hz'⟩ := (Option.any_eq_true ..).mp hany
    rcases eq_or_ne q child with rfl | hne
    · exact hfind
    · simp [halone q (List.mem_of_find?_eq_some hfind) hne c' hc'] at hz'

lemma register_any (h : Pair parent child p c s) (halone : s.Alone p child) (hz : c.flags.zombie)
    (hnone : c.children = []) :
    ∃ s' p', s.registerProcessWait parent (-1) = .ok ((child : ℤ), s') ∧ s'.processes parent = some p' ∧
      p.Roused p' ∧ s'.pidPool = Function.update s.pidPool child false := by
  obtain ⟨s', p', hs', hp', hroused, hpool⟩ := freed_quiet [] h.self h.other h.ppid h.ne (Or.inr hz)
    h.notReplaced hnone h.readers h.notReader h.notWaited h.notAny
  refine ⟨s', p', ?_, hp', hroused, hpool⟩
  refine bind_eq_ok.mpr ⟨p, proc_eq_ok.mpr h.self, ?_⟩
  simp only [h.find_zombie halone hz, if_true]
  exact bind_eq_ok.mpr ⟨s', hs', rfl⟩

lemma register_one (h : Pair parent child p c s) (hz : c.flags.zombie) (hnone : c.children = []) :
    ∃ s' p', s.registerProcessWait parent child = .ok ((child : ℤ), s') ∧ s'.processes parent = some p' ∧
      (p.told child c.retStatus).Roused p' ∧ s'.pidPool = Function.update s.pidPool child false := by
  have hkeeps : KeepsReaders s (s.modify child fun c => { c with isWaitedByParent := true }) :=
    .modify s child _
  obtain ⟨s', p', hs', hp', hroused, hpool⟩ :=
    freed_told [] (p := p) (c := { c with isWaitedByParent := true })
    (s := s.modify child fun c => { c with isWaitedByParent := true })
    (by rw [processes_modify_ne h.ne, h.self]) (by rw [processes_modify, h.other]; rfl) h.ppid h.ne
    (Or.inr hz) h.notReplaced hnone (hkeeps.known_readers h.readers) h.notReader (Or.inl rfl)
  refine ⟨s', p', ?_, hp', hroused, hpool⟩
  refine bind_eq_ok.mpr ⟨p, proc_eq_ok.mpr h.self, ?_⟩
  have hmem : 0 ≤ (child : ℤ) ∧ child ∈ p.children := ⟨by omega, h.mem⟩
  simp only [if_neg (show (child : ℤ) ≠ -1 by omega), Int.toNat_natCast, if_neg (not_not.mpr hmem)]
  refine bind_eq_ok.mpr ⟨c, proc_eq_ok.mpr h.other, ?_⟩
  simp only [hz, if_true]
  exact bind_eq_ok.mpr ⟨s', hs', rfl⟩

end Pair

lemma waitPid_of_register {pid : ℕ} {wait : ℤ} (h : (s.modify pid fun p => { p with
    esi := wstatus }).registerProcessWait pid waitedFor = .ok (wait, s')) :
    s.waitPid pid waitedFor wstatus = .ok (s'.endWait pid wait wstatus) := by
  refine bind_eq_ok.mpr ⟨(wait, s'), h, ?_⟩
  unfold endWait
  simp only
  split_ifs
  all_goals rfl

lemma waitResult_endWait (wstatus : ℕ) (hpos : 0 < child) (hp : s.processes parent = some p)
    (hruns : p.flags.terminated = false) :
    ∃ status, (s.endWait parent child wstatus).waitResult parent wstatus = some
        { value := if wstatus = 0 then none else some (child : ℤ)
          status := status
          children := p.children
          pool := s.pidPool } ∧ (wstatus ≠ 0 → status = child * 256) := by
  unfold endWait
  rw [if_neg (by omega), if_neg (by omega)]
  by_cases hnull : wstatus = 0
  · refine ⟨p.words wstatus, ?_, fun hne => absurd hnull hne⟩
    simp only [if_pos hnull]
    unfold waitResult
    rw [processes_modify, hp]
    rfl
  · refine ⟨child * 256, ?_, fun _ => rfl⟩
    simp only [if_neg hnull]
    unfold waitResult
    rw [processes_modify, hp]
    simp [hruns, modify]

namespace Scene

lemma exitThenWait_ok (e : Ending) (wstatus : ℕ) (wakes : List ReadWake) (rest : List ℕ)
    (h : Scene parent child p c s) (hform : waitedFor = child ∨ waitedFor = -1 ∧ s.Alone p child)
    (hnone : c.children = []) : ∃ s₁ status,
      s.exitThenWait parent child e waitedFor wstatus wakes rest = .ok s₁ ∧
      s₁.waitResult parent wstatus = some
        { value := if wstatus = 0 then none else some (child : ℤ)
          status := status
          children := if waitedFor = -1 then p.children else p.children.erase child
          pool := Function.update s.pidPool child false } ∧ (wstatus ≠ 0 → status = child * 256) := by
  obtain ⟨s₁, p₁, c₁, hs₁, hpair, hroused, hz, hnone₁, hpool₁, halone₁⟩ :=
    h.endProcess_zombie e wakes rest hnone
  have hchildren : p₁.children = p.children := hroused.same Pcb.children fun _ => rfl
  have hcall := hpair.call wstatus
  rcases hform with rfl | ⟨rfl, halone⟩
  · obtain ⟨s₂, p₂, hreg, hp₂, htold, hpool₂⟩ := hcall.register_one hz hnone₁
    have hruns : p₂.flags.terminated = false := by
      rw [htold.same (fun p => p.flags.terminated) fun _ => rfl]
      exact hpair.runs
    obtain ⟨status, hresult, hstatus⟩ := waitResult_endWait wstatus h.pos hp₂ hruns
    refine ⟨_, status, bind_eq_ok.mpr ⟨s₁, hs₁, waitPid_of_register hreg⟩, ?_, hstatus⟩
    have hpool : s₂.pidPool = Function.update s.pidPool child false := by
      rw [hpool₂, ← hpool₁]
      rfl
    rw [hresult, if_neg (show (child : ℤ) ≠ -1 by omega), hpool, htold.same Pcb.children fun _ => rfl,
      ← hchildren]
    rfl
  · obtain ⟨s₂, p₂, hreg, hp₂, hroused₂, hpool₂⟩ :=
      hcall.register_any (hpair.alone (halone₁ halone) wstatus) hz hnone₁
    have hruns : p₂.flags.terminated = false := by
      rw [hroused₂.same (fun p => p.flags.terminated) fun _ => rfl]
      exact hpair.runs
    obtain ⟨status, hresult, hstatus⟩ := waitResult_endWait wstatus h.pos hp₂ hruns
    refine ⟨_, status, bind_eq_ok.mpr ⟨s₁, hs₁, waitPid_of_register hreg⟩, ?_, hstatus⟩
    have hpool : s₂.pidPool = Function.update s.pidPool child false := by
      rw [hpool₂, ← hpool₁]
      rfl
    rw [hresult, if_pos rfl, hpool, hroused₂.same Pcb.children fun _ => rfl, ← hchildren]

lemma exitThenWait_error (h : Scene parent child p c s) (hsome : c.children ≠ []) (s₁ : Scheduler) :
    s.exitThenWait parent child e waitedFor wstatus wakes rest ≠ .ok s₁ := by
  intro hs₁
  obtain ⟨s₀, hs₀, -⟩ := bind_eq_ok.mp hs₁
  have hmark := e.mark_eq c
  rw [endProcess, relinquish_zombie ((ending_ne e rest h.ne).trans h.self) (ending_child e rest h.other)
    (by rw [hmark, h.ppid]) h.ne (by rw [hmark, h.notReplaced])
      (by rw [hmark, h.notWaited]) h.notAny] at hs₀
  rcases preFree_cases hs₀ with ⟨hfreed, -⟩ | ⟨-, hnone | hexec, -⟩
  · simp [hmark, h.notFreed] at hfreed
  · simp [hmark, hsome] at hnone
  · simp [hmark, h.notReplaced] at hexec

end Scene

/-! ## The parent comes first -/

lemma endProcess_told (e : Ending) (wakes : List ReadWake) (rest : List ℕ)
    (hp : s.processes parent = some p) (hc : s.processes child = some c) (hppid : c.ppid = parent)
    (hne : parent ≠ child) (hexec : c.flags.exec = false) (hnone : c.children = [])
    (hreaders : s.Known s.readers) (hnot : child ∉ s.readers)
    (hwaits : c.isWaitedByParent ∨ p.isWaitingForAnyChildToTerminate) :
    ∃ s' p', s.endProcess child e wakes rest = .ok s' ∧ s'.processes parent = some p' ∧
      (p.told child e.status).Roused p' ∧ s'.pidPool = Function.update s.pidPool child false := by
  have hc₀ := ending_child e rest hc
  have hp₀ := (ending_ne e rest hne).trans hp
  have hmark := e.mark_eq c
  have hkeeps : KeepsReaders s ((s.ending child e rest).setReadyQueue rest) := by
    have hready : KeepsReaders (s.modify child e.mark) ((s.ending child e rest).setReadyQueue rest) :=
      ⟨fun _ => rfl, List.Subset.refl _⟩
    exact (KeepsReaders.modify s child e.mark).trans hready
  obtain ⟨s', p', hs', hp', hroused, hpool⟩ := freed_told wakes
    (s := (s.ending child e rest).setReadyQueue rest) hp₀ hc₀ (by rw [hmark, hppid]) hne
    (Or.inl (by rw [hmark])) (by rw [hmark, hexec]) (by rw [hmark, hnone])
      (hkeeps.known_readers hreaders) hnot
    (by rw [hmark]; exact hwaits)
  refine ⟨s', p', ?_, hp', ?_, hpool⟩
  · rw [endProcess, relinquish_freed hp₀ hc₀ (by rw [hmark, hppid]) hne (by rw [hmark, hexec])
      (by rw [hmark]; exact hwaits)]
    exact hs'
  · rw [hmark] at hroused
    exact hroused

lemma words_resumed {a : ℕ} {v : ℤ} {l : List (ℕ × ℤ)} (h : p.valuesToWrite = l ++ [(a, v)]) :
    p.resumed.words a = v := by
  simp [Pcb.resumed, Pcb.writeValues, h]

lemma waitThenExit_of_blocked {s₁ : Scheduler} (p₁ c₁ : Pcb)
    (hs₁ : (s.lookAt parent).waitPid parent waitedFor wstatus = .ok s₁)
    (hp₁ : s₁.processes parent = some p₁) (hc₁ : s₁.processes child = some c₁) (hppid : c₁.ppid = parent)
    (hne : parent ≠ child) (hexec : c₁.flags.exec = false) (hnone : c₁.children = [])
    (hreaders : s₁.Known s₁.readers) (hnot : child ∉ s₁.readers)
    (hwaits : c₁.isWaitedByParent ∨ p₁.isWaitingForAnyChildToTerminate)
    (hruns : p₁.flags.terminated = false) (hesi : p₁.esi = wstatus) (hchildren₁ : p₁.children = p.children)
    (hpool₁ : s₁.pidPool = s.pidPool) : ∃ s₂ status,
      s.waitThenExit parent child e waitedFor wstatus wakes rest = .ok s₂ ∧
      s₂.waitResult parent wstatus = some
        { value := some (child : ℤ)
          status := status
          children := p.children.erase child
          pool := Function.update s.pidPool child false } ∧ (wstatus ≠ 0 → status = e.status) := by
  obtain ⟨s₂, p₂, hs₂, hp₂, htold, hpool⟩ := endProcess_told e wakes rest hp₁ hc₁ hppid hne hexec hnone
    hreaders hnot hwaits
  refine ⟨s₂.modify parent Pcb.resumed, p₂.resumed.words wstatus,
    bind_eq_ok.mpr ⟨s₁, hs₁, bind_eq_ok.mpr ⟨s₂, hs₂, rfl⟩⟩, ?_, ?_⟩
  · have hterm : p₂.resumed.flags.terminated = false :=
      (htold.same (fun p => p.flags.terminated) fun _ => rfl).trans hruns
    have heax : p₂.resumed.eax = child := htold.same Pcb.eax fun _ => rfl
    have hchildren : p₂.resumed.children = p₁.children.erase child := htold.same Pcb.children fun _ => rfl
    unfold waitResult
    rw [processes_modify, hp₂, Option.map_some, Option.map_some, if_neg (by simp [hterm]), heax, hchildren,
      hchildren₁, ← hpool₁, ← hpool]
    rfl
  · intro hnull
    have hvalues : p₂.valuesToWrite = p₁.valuesToWrite ++ [(wstatus, e.status)] := by
      rw [htold.same Pcb.valuesToWrite fun _ => rfl]
      show (if p₁.esi ≠ 0 then _ else _) = _
      rw [hesi, if_pos hnull]
    exact words_resumed hvalues

lemma Pair.blocks_one (h : Pair parent child p c s) (halive : c.flags.zombie = false) :
    s.registerProcessWait parent child = .ok ((0 : ℤ), (s.modify child fun c => { c with
      isWaitedByParent := true }).modify parent fun p => { p with
        flags := { p.flags with waitingProcess := true } }) := by
  refine bind_eq_ok.mpr ⟨p, proc_eq_ok.mpr h.self, ?_⟩
  have hmem : 0 ≤ (child : ℤ) ∧ child ∈ p.children := ⟨by omega, h.mem⟩
  simp only [if_neg (show (child : ℤ) ≠ -1 by omega), Int.toNat_natCast, if_neg (not_not.mpr hmem)]
  refine bind_eq_ok.mpr ⟨c, proc_eq_ok.mpr h.other, ?_⟩
  simp only [halive, if_neg Bool.false_ne_true]

lemma Pair.blocks_any (h : Pair parent child p c s) (halone : s.Alone p child)
    (halive : c.flags.zombie = false) :
    s.registerProcessWait parent (-1) = .ok ((0 : ℤ), (s.modify parent fun p => { p with
      isWaitingForAnyChildToTerminate := true }).modify parent fun p => { p with
        flags := { p.flags with waitingProcess := true } }) := by
  refine bind_eq_ok.mpr ⟨p, proc_eq_ok.mpr h.self, ?_⟩
  have hfind : p.children.find? (fun q => (s.processes q).any fun c => c.flags.zombie) = none := by
    rw [List.find?_eq_none]
    intro q hq hany
    obtain ⟨c', hc', hz⟩ := (Option.any_eq_true ..).mp hany
    rcases eq_or_ne q child with rfl | hne
    · obtain rfl : c = c' := by simpa [h.other] using hc'
      simp [halive] at hz
    · simp [halone q hq hne c' hc'] at hz
  simp only [hfind, if_true, if_pos (List.ne_nil_of_mem h.mem)]

lemma Scene.waitThenExit_ok (e : Ending) (wstatus : ℕ) (wakes : List ReadWake) (rest : List ℕ)
    (h : Scene parent child p c s) (hform : waitedFor = child ∨ waitedFor = -1 ∧ s.Alone p child)
    (hnone : c.children = []) : ∃ s₂ status,
      s.waitThenExit parent child e waitedFor wstatus wakes rest = .ok s₂ ∧
      s₂.waitResult parent wstatus = some
        { value := some (child : ℤ)
          status := status
          children := p.children.erase child
          pool := Function.update s.pidPool child false } ∧ (wstatus ≠ 0 → status = e.status) := by
  have hcall := h.toPair.call wstatus
  rcases hform with rfl | ⟨rfl, halone⟩
  · have hwait := waitPid_of_register (hcall.blocks_one h.alive)
    refine waitThenExit_of_blocked
      { p with esi := wstatus, flags := { p.flags with waitingProcess := true } }
      { c with isWaitedByParent := true } hwait ?_ ?_ h.ppid h.ne h.notReplaced hnone ?_ h.notReader
      (Or.inl rfl) h.runs rfl rfl rfl
    · show ((_ : Scheduler).modify parent _).processes parent = _
      rw [processes_modify, processes_modify_ne h.ne, hcall.self]
      rfl
    · show ((_ : Scheduler).modify parent _).processes child = _
      rw [processes_modify_ne h.ne.symm, processes_modify, hcall.other]
      rfl
    · exact ((KeepsReaders.modify _ child _).trans (.modify _ parent _)).known_readers hcall.readers
  · have hwait := waitPid_of_register (hcall.blocks_any (h.toPair.alone halone wstatus) h.alive)
    refine waitThenExit_of_blocked
      { p with
        esi := wstatus
        isWaitingForAnyChildToTerminate := true
        flags := { p.flags with waitingProcess := true } }
      c hwait ?_ ?_ h.ppid h.ne h.notReplaced hnone ?_ h.notReader (Or.inr rfl) h.runs rfl rfl rfl
    · show ((_ : Scheduler).modify parent _).processes parent = _
      rw [processes_modify, processes_modify, hcall.self]
      rfl
    · show ((_ : Scheduler).modify parent _).processes child = _
      rw [processes_modify_ne h.ne.symm, processes_modify_ne h.ne.symm, hcall.other]
    · exact ((KeepsReaders.modify _ parent _).trans (.modify _ parent _)).known_readers hcall.readers

/-- Both orders end, and leave the same behind. -/
def SameEitherWay (parent child : ℕ) (e : Ending) (waitedFor : ℤ) (wstatus : ℕ) (wakes : List ReadWake)
    (rest : List ℕ) (s : Scheduler) : Prop :=
  ∃ s₁ s₂, s.exitThenWait parent child e waitedFor wstatus wakes rest = .ok s₁ ∧
    s.waitThenExit parent child e waitedFor wstatus wakes rest = .ok s₂ ∧
    s₁.waitResult parent wstatus = s₂.waitResult parent wstatus

/-- The two orders agree iff the parent names its child and an address, the child has no children, and its
status is what the call makes of its pid. -/
theorem same_either_way_iff (parent child : ℕ) (p c : Pcb) (s : Scheduler) (e : Ending) (waitedFor : ℤ)
    (wstatus : ℕ) (wakes : List ReadWake) (rest : List ℕ) (h : Scene parent child p c s)
    (hform : waitedFor = child ∨ waitedFor = -1 ∧ s.Alone p child) :
    s.SameEitherWay parent child e waitedFor wstatus wakes rest ↔
      waitedFor = child ∧ wstatus ≠ 0 ∧ c.children = [] ∧ e.status = child * 256 := by
  constructor
  · rintro ⟨s₁, s₂, hs₁, hs₂, hsame⟩
    have hnone : c.children = [] := by
      by_contra hsome
      exact h.exitThenWait_error hsome s₁ hs₁
    obtain ⟨s₁', status₁, hs₁', hresult₁, hstatus₁⟩ := h.exitThenWait_ok e wstatus wakes rest hform hnone
    obtain ⟨s₂', status₂, hs₂', hresult₂, hstatus₂⟩ := h.waitThenExit_ok e wstatus wakes rest hform hnone
    obtain rfl : s₁' = s₁ := by simpa [hs₁] using hs₁'.symm
    obtain rfl : s₂' = s₂ := by simpa [hs₂] using hs₂'.symm
    rw [hresult₁, hresult₂, Option.some.injEq, WaitResult.mk.injEq] at hsame
    obtain ⟨hvalue, hstatus, hchildren, -⟩ := hsame
    have hnull : wstatus ≠ 0 := by
      intro hnull
      simp [hnull] at hvalue
    refine ⟨?_, hnull, hnone, ?_⟩
    · rcases hform with hone | ⟨hany, -⟩
      · exact hone
      · rw [if_pos hany] at hchildren
        have hlength := List.length_erase_of_mem h.mem
        rw [← hchildren] at hlength
        have hpos := List.length_pos_of_mem h.mem
        omega
    · rw [← hstatus₂ hnull, ← hstatus, hstatus₁ hnull]
  · rintro ⟨hone, hnull, hnone, hpid⟩
    obtain ⟨s₁, status₁, hs₁, hresult₁, hstatus₁⟩ := h.exitThenWait_ok e wstatus wakes rest hform hnone
    obtain ⟨s₂, status₂, hs₂, hresult₂, hstatus₂⟩ := h.waitThenExit_ok e wstatus wakes rest hform hnone
    refine ⟨s₁, s₂, hs₁, hs₂, ?_⟩
    rw [hresult₁, hresult₂, hstatus₁ hnull, hstatus₂ hnull, hpid, if_neg hnull,
      if_neg (by rw [hone]; omega)]

/-- The terminal has been started, and has forked. -/
def couple : Scheduler :=
  (List.foldlM step boot [.exec 0 true, .stopKernelInitProcess, .timer, .turn [], .fork]).toOption.getD boot

/-- A process of that state. -/
def coupled (pid : ℕ) : Pcb := (couple.processes pid).getD { ppid := 0 }

lemma scene_couple : Scene 1 2 (coupled 1) (coupled 2) couple := by
  have hsome : ∀ pid, (couple.processes pid).isSome → couple.processes pid = some (coupled pid) := by
    intro pid hpid
    obtain ⟨p, hp⟩ := Option.isSome_iff_exists.mp hpid
    rw [coupled, hp]
    rfl
  have hreaders : couple.Known couple.readers := by
    have hnone : couple.readers = [] := by decide +kernel
    intro q hq
    rw [hnone] at hq
    cases hq
  refine ⟨⟨hsome 1 (by decide +kernel), hsome 2 (by decide +kernel), ?_, ?_, ?_, ?_, ?_, ?_, ?_, ?_,
    hreaders,
    ?_⟩, ?_, ?_⟩
  all_goals decide +kernel

/-- The child ends with its own pid. -/
theorem same_either_way_pid :
    Scene 1 2 (coupled 1) (coupled 2) couple ∧ couple.SameEitherWay 1 2 (.value 2) 2 100 [] [] :=
  ⟨scene_couple, (same_either_way_iff 1 2 _ _ couple (.value 2) 2 100 [] [] scene_couple (Or.inl rfl)).mpr
    (by decide +kernel)⟩

lemma not_sameEitherWay {α : Type} {e : Ending} {waitedFor : ℤ} {wstatus : ℕ} {wakes : List ReadWake}
    {rest : List ℕ} (f : WaitResult → α)
    (h : (s.exitThenWait parent child e waitedFor wstatus wakes rest).toOption.bind
          (fun s => (s.waitResult parent wstatus).map f) ≠
        (s.waitThenExit parent child e waitedFor wstatus wakes rest).toOption.bind
          (fun s => (s.waitResult parent wstatus).map f)) :
    ¬ s.SameEitherWay parent child e waitedFor wstatus wakes rest := by
  rintro ⟨s₁, s₂, hs₁, hs₂, hsame⟩
  rw [hs₁, hs₂] at h
  simp [Except.toOption, hsame] at h

/-- The child ends with 3: a parent that comes last finds another status; one that waits for any child
keeps the pid on its list; one that has no use for the status is killed. -/
theorem not_same_either_way :
    Scene 1 2 (coupled 1) (coupled 2) couple ∧ couple.Alone (coupled 1) 2 ∧
      ¬ couple.SameEitherWay 1 2 (.value 3) 2 100 [] [] ∧
      ¬ couple.SameEitherWay 1 2 (.value 3) (-1) 100 [] [] ∧
      ¬ couple.SameEitherWay 1 2 (.value 3) 2 0 [] [] := by
  refine ⟨scene_couple, ?_, ?_, ?_, ?_⟩
  · intro q hq hne
    have hchildren : (coupled 1).children = [2] := by decide +kernel
    rw [hchildren, List.mem_singleton] at hq
    exact absurd hq hne
  · exact not_sameEitherWay WaitResult.status (by decide +kernel)
  · exact not_sameEitherWay WaitResult.children (by decide +kernel)
  · exact not_sameEitherWay WaitResult.value (by decide +kernel)

end Scheduler

end BrebOS

import BrebOS.Lib.Nested
import BrebOS.Processes.Signals

/-!
# Signals do not disturb the program

When the handlers that are started all return, a program goes on with the registers and the mask it had.
But nothing keeps a program from returning from a handler that was never started, and then the context at
the bottom is gone.
-/

namespace BrebOS

/-- The registers of a context. -/
def SignalCtx.registers (c : SignalCtx) : CpuState × StackState := (c.cpuState, c.stackState)

namespace SignalState

variable {p p' : SignalState} {signal : ℕ} {op : SigOp}

/-! ## What the parts do -/

lemma send_cases (h : p.send signal = .ok p') :
    (p.EndsOn signal ∧ p' = { p with endedBy := some signal }) ∨
      (¬ p.EndsOn signal ∧ signal ≠ 0 ∧
        p' = { p with pendingSignals := p.pendingSignals ||| BitVec.twoPow 1024 (sigBit signal) }) := by
  unfold send at h
  by_cases hends : p.EndsOn signal
  · rw [if_pos hends] at h
    cases h
    exact Or.inl ⟨hends, rfl⟩
  · rw [if_neg hends] at h
    by_cases hzero : signal = 0
    · rw [if_pos hzero] at h
      cases h
    · rw [if_neg hzero] at h
      cases h
      exact Or.inr ⟨hends, hzero, rfl⟩

/-- The signal that a call of `kill` sends. -/
def killSignal (signal : ℤ) : ℕ := if signal = sigcancel then sigquit else signal.toNat

lemma kill_cases {signal r : ℤ} (h : p.kill signal = .ok (r, p')) :
    p' = p ∨ p.send (killSignal signal) = .ok p' := by
  unfold kill at h
  unfold killSignal
  by_cases hcancel : signal = sigcancel
  · rw [if_pos hcancel] at h ⊢
    obtain ⟨q, hq, h⟩ := bind_eq_ok.mp h
    cases h
    exact Or.inr hq
  · rw [if_neg hcancel] at h ⊢
    split_ifs at h
    · cases h
      exact Or.inl rfl
    · obtain ⟨q, hq, h⟩ := bind_eq_ok.mp h
      cases h
      exact Or.inr hq

/-- What `signal_handling` can do. -/
inductive Handled (context : SignalCtx) (p : SignalState) : Option ℕ → SignalState → Prop
  | nothing : Handled context p none p
  /-- There is no room for the context. -/
  | ended (hfull : p.signalsContexts.length = maxConcurrentSignalHandlers) (hends : p.EndsOn sigquit) :
      Handled context p none { p with endedBy := some sigquit }
  /-- There is no room for the context, but the process does not end. -/
  | crowded {signal addr : ℕ} {act : SigAction}
      (hfull : p.signalsContexts.length = maxConcurrentSignalHandlers) (hends : ¬ p.EndsOn sigquit)
      (hle : signal ≤ highestSignal) (hpending : p.pendingSignals.getLsbD (sigBit signal))
      (hblocked : ¬ context.blockedMask.getLsbD (sigBit signal))
      (haction : p.signalAction signal = .call addr) (hact : p.oldact signal = some act) :
      Handled context p (some signal) (enterHandler { p with
        pendingSignals := p.pendingSignals ||| BitVec.twoPow 1024 (sigBit sigquit) } signal addr
        act.saRestorer)
  | delivered {signal addr : ℕ} {act : SigAction}
      (hroom : p.signalsContexts.length ≠ maxConcurrentSignalHandlers)
      (hle : signal ≤ highestSignal) (hpending : p.pendingSignals.getLsbD (sigBit signal))
      (hblocked : ¬ context.blockedMask.getLsbD (sigBit signal))
      (haction : p.signalAction signal = .call addr) (hact : p.oldact signal = some act) :
      Handled context p (some signal) (enterHandler { p with
        signalsContexts := ⟨p.cpuState, p.stackState, act.saMask⟩ :: p.signalsContexts } signal addr
        act.saRestorer)

lemma deliver_cases {context : SignalCtx} {addr : ℕ} {r : Option ℕ} (hle : signal ≤ highestSignal)
    (hpending : p.pendingSignals.getLsbD (sigBit signal))
    (hblocked : ¬ context.blockedMask.getLsbD (sigBit signal))
    (haction : p.signalAction signal = .call addr) (h : p.deliver signal addr = .ok (r, p')) :
    Handled context p r p' := by
  obtain ⟨⟨back, q⟩, hsave, h⟩ := bind_eq_ok.mp h
  unfold signalContextSave at hsave
  rcases hact : p.oldact signal with _ | act
  · rw [hact] at hsave
    cases hsave
  · rw [hact] at hsave
    simp only at hsave h
    by_cases hfull : p.signalsContexts.length = maxConcurrentSignalHandlers
    · rw [if_pos hfull] at hsave
      obtain ⟨q', hsend, heq⟩ := map_eq_ok.mp hsave
      obtain ⟨hback, rfl⟩ := Prod.mk.inj heq
      rcases send_cases hsend with ⟨hends, rfl⟩ | ⟨hends, -, rfl⟩
      · rw [if_pos (by simp [← hback, hends])] at h
        cases h
        exact .ended hfull hends
      · rw [if_neg (by simp [← hback, hends]), hact] at h
        simp only at h
        split_ifs at h
        cases h
        exact .crowded hfull hends hle hpending hblocked haction hact
    · rw [if_neg hfull] at hsave
      cases hsave
      rw [if_neg (by simp), hact] at h
      simp only at h
      split_ifs at h
      cases h
      exact .delivered hfull hle hpending hblocked haction hact

lemma handleSignals_cases {context : SignalCtx} {r : Option ℕ} : ∀ {signals : List ℕ},
    (∀ t ∈ signals, t ≤ highestSignal) → p.handleSignals context.blockedMask signals = .ok (r, p') →
      Handled context p r p' := by
  intro signals
  induction signals with
  | nil =>
    intro _ h
    cases h
    exact .nothing
  | cons t rest ih =>
    intro hle h
    have hrest := ih fun u hu => hle u (List.mem_cons_of_mem t hu)
    unfold handleSignals at h
    by_cases hskip : ¬ p.pendingSignals.getLsbD (sigBit t) ∨ context.blockedMask.getLsbD (sigBit t)
    · rw [if_pos hskip] at h
      exact hrest h
    · rw [if_neg hskip] at h
      rw [not_or, not_not] at hskip
      rcases haction : p.signalAction t with _ | _ | addr
      all_goals rw [haction] at h
      · simp only at h
        rcases hdefault : signalDefaultAction t with _ | _ | _ | _ | _ | _
        all_goals rw [hdefault] at h
        case ign => exact hrest h
        all_goals cases h
      · exact hrest h
      · exact deliver_cases (hle t List.mem_cons_self) hskip.1 hskip.2 haction h

lemma signalHandling_cases {r : Option ℕ} (h : p.signalHandling = .ok (r, p')) :
    ∃ context rest, p.signalsContexts = context :: rest ∧ Handled context p r p' := by
  unfold signalHandling at h
  rcases hcontexts : p.signalsContexts with _ | ⟨context, rest⟩
  · rw [hcontexts] at h
    cases h
  · rw [hcontexts] at h
    refine ⟨context, rest, rfl, handleSignals_cases ?_ h⟩
    intro t ht
    exact Nat.le_of_lt_succ (List.mem_range.mp ht)

/-! ## The stack of contexts -/

lemma contexts_send (h : p.send signal = .ok p') : p'.signalsContexts = p.signalsContexts := by
  rcases send_cases h with ⟨-, rfl⟩ | ⟨-, -, rfl⟩
  · rfl
  · rfl

lemma contexts_kill {signal r : ℤ} (h : p.kill signal = .ok (r, p')) :
    p'.signalsContexts = p.signalsContexts := by
  rcases kill_cases h with rfl | hsend
  · rfl
  · exact contexts_send hsend

lemma registerSignalHandler_eq {signal : ℤ} {handler prev : SigHandler}
    (h : p.registerSignalHandler signal handler = .ok (prev, p')) :
    p' = { p with signalAction := Function.update p.signalAction signal.toNat handler } := by
  unfold registerSignalHandler at h
  split_ifs at h
  cases h
  rfl

lemma sigaction_cases {signum r : ℤ} {act : SigAction} {oldNull : Bool}
    (h : p.sigaction signum act oldNull = .ok (r, p')) :
    p' = p ∨ act.saMask = 0 ∧ ∃ oldact, p' = { p with
      signalAction := Function.update p.signalAction signum.toNat act.saHandler
      oldact := oldact } ∧
      (oldact = p.oldact ∨ oldact = Function.update p.oldact signum.toNat (some act)) := by
  unfold sigaction at h
  by_cases hlarge : signum > highestSignal
  · rw [if_pos hlarge] at h
    split_ifs at h
    · cases h
      exact Or.inl rfl
    · cases h
      exact Or.inl rfl
  rw [if_neg hlarge] at h
  by_cases hflags : act.saFlags &&& ~~~saRestorer ≠ 0
  · rw [if_pos hflags] at h
    cases h
    exact Or.inl rfl
  rw [if_neg hflags] at h
  by_cases hmask : act.saMask ≠ 0
  · rw [if_pos hmask] at h
    cases h
    exact Or.inl rfl
  · rw [if_neg hmask] at h
    obtain ⟨⟨prev, q⟩, hq, h⟩ := bind_eq_ok.mp h
    have hq := registerSignalHandler_eq hq
    subst hq
    simp only at h
    split_ifs at h
    · cases h
      exact Or.inr ⟨not_not.mp hmask, p.oldact, rfl, Or.inl rfl⟩
    · cases h
      exact Or.inr ⟨not_not.mp hmask, _, rfl, Or.inr rfl⟩

/-- The mask `sigprocmask` leaves, when it does not fail. -/
def newMask (mask : SigSet) (set : SigSet) : SigHow → SigSet
  | .block => mask ||| set
  | .unblock => mask &&& ~~~set
  | .setmask => set
  | .unknown => mask

lemma sigprogmask_cases {how : SigHow} {set : Option SigSet} {r : ℤ} {oldset : Option SigSet}
    (h : p.sigprogmask how set = .ok (r, oldset, p')) :
    ∃ context rest, p.signalsContexts = context :: rest ∧
      p' = { p with signalsContexts :=
        { context with
          blockedMask := set.elim context.blockedMask fun set => newMask context.blockedMask set how } ::
          rest } := by
  unfold sigprogmask at h
  rcases hcontexts : p.signalsContexts with _ | ⟨context, rest⟩
  · rw [hcontexts] at h
    cases h
  · rw [hcontexts] at h
    refine ⟨context, rest, rfl, ?_⟩
    have hsame : p = { p with signalsContexts := context :: rest } := by rw [← hcontexts]
    cases how with
    | unknown =>
      cases h
      cases set with
      | none => exact hsame
      | some set => exact hsame
    | block | unblock | setmask =>
      cases set with
      | none =>
        cases h
        exact hsame
      | some set =>
        cases h
        rfl

/-- A step in which no handler starts, and the process does not return from one. -/
def Quiet (p p' : SignalState) : Prop :=
  (∃ op, op ≠ .sigreturn ∧ op ≠ .resume ∧ p.step op = .ok p') ∨ p.signalHandling = .ok (none, p')

/-- A handler starts, and there is room for the context. -/
def Delivers (p p' : SignalState) : Prop :=
  p.signalsContexts.length < maxConcurrentSignalHandlers ∧
    ∃ signal, p.signalHandling = .ok (some signal, p')

/-- The process returns from a handler. -/
def SigReturns (p p' : SignalState) : Prop := p.step .sigreturn = .ok p'

lemma contexts_of_calm (hreturn : op ≠ .sigreturn) (hresume : op ≠ .resume) (h : p.step op = .ok p') :
    (∃ how set, op = .sigprocmask how set) ∨ p'.signalsContexts = p.signalsContexts := by
  cases op with
  | enter _ _ =>
    cases h
    exact Or.inr rfl
  | sent signal =>
    obtain ⟨⟨r, q⟩, hq, rfl⟩ := map_eq_ok.mp h
    exact Or.inr (contexts_kill hq)
  | kill signal =>
    obtain ⟨⟨r, q⟩, hq, rfl⟩ := map_eq_ok.mp h
    right
    show q.signalsContexts = p.signalsContexts
    exact contexts_kill hq
  | signal signum handler =>
    obtain ⟨⟨prev, q⟩, hq, rfl⟩ := map_eq_ok.mp h
    rw [registerSignalHandler_eq hq]
    exact Or.inr rfl
  | sigaction signum act oldNull =>
    obtain ⟨⟨r, q⟩, hq, rfl⟩ := map_eq_ok.mp h
    rcases sigaction_cases hq with rfl | ⟨-, oldact, rfl, -⟩
    · exact Or.inr rfl
    · exact Or.inr rfl
  | sigprocmask how set => exact Or.inl ⟨how, set, rfl⟩
  | sigreturn => exact absurd rfl hreturn
  | resume => exact absurd rfl hresume

lemma Quiet.contexts {context : SignalCtx} {rest : List SignalCtx} (h : Quiet p p')
    (hp : p.signalsContexts = context :: rest) :
    ∃ context', p'.signalsContexts = context' :: rest ∧ context'.registers = context.registers := by
  rcases h with ⟨op, hreturn, hresume, hop⟩ | hhandling
  · rcases contexts_of_calm hreturn hresume hop with ⟨how, set, rfl⟩ | hsame
    · obtain ⟨⟨r, oldset, q⟩, hq, rfl⟩ := map_eq_ok.mp hop
      obtain ⟨context₁, rest₁, hp₁, rfl⟩ := sigprogmask_cases hq
      rw [hp] at hp₁
      obtain ⟨rfl, rfl⟩ := List.cons.inj hp₁
      exact ⟨_, rfl, rfl⟩
    · exact ⟨context, hsame.trans hp, rfl⟩
  · obtain ⟨context₁, rest₁, -, hhandled⟩ := signalHandling_cases hhandling
    cases hhandled with
    | nothing => exact ⟨context, hp, rfl⟩
    | ended _ _ => exact ⟨context, hp, rfl⟩

lemma Delivers.contexts (h : Delivers p p') :
    ∃ mask, p'.signalsContexts = ⟨p.cpuState, p.stackState, mask⟩ :: p.signalsContexts := by
  obtain ⟨hroom, signal, hhandling⟩ := h
  obtain ⟨context, rest, -, hhandled⟩ := signalHandling_cases hhandling
  cases hhandled with
  | crowded hfull => omega
  | delivered _ _ _ _ _ _ => exact ⟨_, rfl⟩

lemma signalContextRestore_eq {context : SignalCtx} {rest : List SignalCtx}
    (hp : p.signalsContexts = context :: rest) : p.signalContextRestore = .ok { p with
      signalsContexts := rest
      cpuState := context.cpuState
      stackState := context.stackState } := by
  rw [signalContextRestore, hp]

lemma signalContextRestore_cases (h : p.signalContextRestore = .ok p') :
    ∃ context rest, p.signalsContexts = context :: rest ∧ p' = { p with
      signalsContexts := rest
      cpuState := context.cpuState
      stackState := context.stackState } := by
  rcases hp : p.signalsContexts with _ | ⟨context, rest⟩
  · rw [signalContextRestore, hp] at h
    cases h
  · rw [signalContextRestore_eq hp] at h
    cases h
    exact ⟨context, rest, rfl, rfl⟩

lemma SigReturns.contexts {context : SignalCtx} {rest : List SignalCtx} (h : SigReturns p p')
    (hp : p.signalsContexts = context :: rest) : p'.signalsContexts = rest := by
  obtain ⟨context', rest', hp', rfl⟩ := signalContextRestore_cases h
  rw [hp] at hp'
  exact (List.cons.inj hp').2.symm

/-- The mask in force. -/
def blockedMask (p : SignalState) : Option SigSet := p.signalsContexts.head?.map SignalCtx.blockedMask

lemma restored {p₁ p₂ : SignalState} (hdelivers : Delivers p p₁)
    (hrun : Nested Quiet Delivers SigReturns p₁ p₂) :
    ∃ p₃, SigReturns p₂ p₃ ∧ p₃.cpuState = p.cpuState ∧ p₃.stackState = p.stackState ∧
      p₃.blockedMask = p.blockedMask := by
  obtain ⟨mask, hp₁⟩ := hdelivers.contexts
  obtain ⟨context, hp₂, hkey⟩ := Nested.stack_eq signalsContexts SignalCtx.registers
    (fun _ _ _ _ => Quiet.contexts) (fun _ _ hpush => ⟨_, hpush.contexts.choose_spec⟩)
    (fun _ _ _ _ => SigReturns.contexts) hrun _ _ hp₁
  obtain ⟨hcpu, hstack⟩ := Prod.mk.inj hkey
  refine ⟨_, signalContextRestore_eq hp₂, hcpu, hstack, ?_⟩
  rfl

/-! ## Runs -/

lemma contexts_resume (h : p.step .resume = .ok p') (hp : p.signalsContexts ≠ []) :
    p'.signalsContexts ≠ [] := by
  obtain ⟨⟨r, q⟩, hq, rfl⟩ := map_eq_ok.mp h
  obtain ⟨context, rest, -, hhandled⟩ := signalHandling_cases hq
  cases hhandled with
  | nothing => exact hp
  | ended _ _ => exact hp
  | crowded _ _ _ _ _ _ _ => exact hp
  | delivered _ _ _ _ _ _ => exact List.cons_ne_nil _ _

/-- The process returns only from a handler that has started. -/
def Unwinds (p : SignalState) (op : SigOp) : Prop := op = .sigreturn → 2 ≤ p.signalsContexts.length

instance decidableUnwinds (p : SignalState) (op : SigOp) : Decidable (p.Unwinds op) :=
  inferInstanceAs (Decidable (_ → _))

lemma contexts_step (hp : p.signalsContexts ≠ []) (h : p.step op = .ok p') :
    p'.signalsContexts ≠ [] ↔ p.Unwinds op := by
  obtain ⟨context, rest, hcontexts⟩ := List.exists_cons_of_ne_nil hp
  by_cases hreturn : op = .sigreturn
  · subst hreturn
    rw [SigReturns.contexts h hcontexts]
    simp [Unwinds, hcontexts, List.length_pos_iff, Nat.succ_le_iff]
  · have hunwinds : p.Unwinds op := fun heq => absurd heq hreturn
    refine iff_of_true ?_ hunwinds
    by_cases hresume : op = .resume
    · subst hresume
      exact contexts_resume h hp
    · obtain ⟨context', hp', -⟩ := Quiet.contexts (Or.inl ⟨op, hreturn, hresume, h⟩) hcontexts
      rw [hp']
      exact List.cons_ne_nil _ _

lemma contexts_run (ops : List SigOp) (hp : p.signalsContexts ≠ []) :
    EachCall step (After step fun p => p.signalsContexts ≠ []) ops p ↔ EachCall step Unwinds ops p := by
  refine EachCall.congr (A := fun _ _ => True) (Q := fun p => p.signalsContexts ≠ []) ?_ ?_ hp
    (.of_forall (fun _ _ => trivial) ops p)
  · intro p op hp _
    rcases hop : p.step op with e | p'
    · refine iff_of_true (by rw [After, hop]; trivial) ?_
      rintro rfl
      obtain ⟨context, rest, hcontexts⟩ := List.exists_cons_of_ne_nil hp
      have hok : p.step .sigreturn = .ok _ := signalContextRestore_eq hcontexts
      rw [hok] at hop
      cases hop
    · rw [After, hop]
      exact contexts_step hp hop
  · intro p op p' hp _ hunwinds hop
    exact (contexts_step hp hop).mpr hunwinds

/-- A process that returns from a handler goes on as before, whatever handlers have come and gone
meanwhile; and it is left without a context iff it returns from a handler that has not started. -/
theorem signals_transparent (p : SignalState) :
    (∀ p₁ p₂ : SignalState, Delivers p p₁ → Nested Quiet Delivers SigReturns p₁ p₂ →
      ∃ p₃, SigReturns p₂ p₃ ∧ p₃.cpuState = p.cpuState ∧ p₃.stackState = p.stackState ∧
        p₃.blockedMask = p.blockedMask) ∧
    ∀ ops : List SigOp, p.signalsContexts ≠ [] →
      (EachCall step (After step fun p => p.signalsContexts ≠ []) ops p ↔ EachCall step Unwinds ops p) :=
  ⟨fun _ _ => restored, contexts_run⟩

/-- A process with a handler for `SIGUSR1`, and the signal has been sent. -/
def interrupted : SignalState :=
  (List.foldlM step {} [.sigaction 10
    { saHandler := .call 4096, saFlags := saRestorer, saRestorer := 8192 } false,
    .enter { eax := 7 } { eip := 100, esp := 5001 }, .kill 10]).toOption.getD {}

theorem signals_transparent_once :
    (∃ p₁ p₃, Delivers interrupted p₁ ∧ SigReturns p₁ p₃ ∧ p₃.cpuState = interrupted.cpuState ∧
      p₃.stackState = interrupted.stackState ∧ p₃.blockedMask = interrupted.blockedMask) ∧
    EachCall step (After step fun p => p.signalsContexts ≠ []) [.resume, .sigreturn] interrupted := by
  constructor
  · have hany : interrupted.signalHandling.toOption.any (fun r => r.1 = some 10) := by decide +kernel
    obtain ⟨⟨r, p₁⟩, hr, hsignal⟩ := (Option.any_eq_true ..).mp hany
    obtain rfl : r = some 10 := by simpa using hsignal
    have hok : interrupted.signalHandling = .ok (some 10, p₁) := by
      rcases hh : interrupted.signalHandling with e | r
      · simp [hh, Except.toOption] at hr
      · simpa [hh, Except.toOption] using hr
    have hdelivers : Delivers interrupted p₁ := ⟨by decide +kernel, 10, hok⟩
    obtain ⟨p₃, hp₃⟩ := (signals_transparent interrupted).1 p₁ p₁ hdelivers (.refl p₁)
    exact ⟨p₁, p₃, hdelivers, hp₃⟩
  · exact ((signals_transparent _).2 _ (by decide +kernel)).mpr (by decide +kernel)

/-- A process returns from a handler, and none has started. -/
theorem context_lost :
    ¬ EachCall step (After step fun p => p.signalsContexts ≠ []) [.sigreturn] {} := by
  rintro ⟨hafter, -⟩
  exact hafter rfl

end SignalState

end BrebOS

import BrebOS.Processes.Signals.Blocked

/-!
# Signals and the life of the kernel

A signal that is delivered needs a record of its handler, with an address to return to; and a signal that
waits must not lose its handler to the default action.  `sigaction` keeps records, `signal` does not, and
neither looks at what is pending.  `Careful` says of each call what it has to heed, and `Sound` is the
state in which the kernel delivers whatever comes.
-/

namespace BrebOS

namespace SignalState

/-- The kernel lives through the step: no table is read or written outside, no record is missing, and
`irrecoverable_error` is not reached.  The process itself may be killed. -/
def Survives (p : SignalState) (op : SigOp) : Prop := ∀ e, p.step op = .error e → e = .killed

/-- What is not a signal is not sent: the call fails, and nothing changes. -/
def Refuses (p : SignalState) : SigOp → Prop
  | .sent signal | .kill signal =>
      signal < 1 ∨ (highestSignal : ℤ) < signal → ∃ r < 0, p.kill signal = .ok (r, p)
  | _ => True

/-- There is a record for the signal, with an address to return to. -/
def Recorded (p : SignalState) (s : ℕ) : Prop := ∃ act ∈ p.oldact s, act.saFlags &&& saRestorer ≠ 0

/-- A handler may be registered for a signal: the default action only if the signal is not pending, and a
function only with a record. -/
def Registrable (p : SignalState) (s : ℕ) (recorded : Prop) : SigHandler → Prop
  | .dfl => ¬ p.IsPending s
  | .ign => True
  | .call _ => s ≠ 0 → recorded

/-- `sigaction` comes back from registering a handler. -/
def Comes (p : SignalState) (s : ℕ) (oldNull : Bool) : Prop :=
  2147483648 ≤ (p.signalAction s).addr ∨ oldNull = false

/-- The steps that the kernel lives through, in every run of such steps. -/
def Careful (p : SignalState) : SigOp → Prop
  | .enter _ _ | .sigprocmask _ _ | .resume => True
  | .sent signal | .kill signal =>
      1 ≤ signal ∧ (signal = sigcancel → p.IsPending sigquit)
  | .signal signum handler =>
      0 ≤ signum ∧ signum ≤ highestSignal ∧
        p.Registrable signum.toNat (p.Recorded signum.toNat) handler
  | .sigaction signum act oldNull =>
      (signum = sigcancel → oldNull) ∧
      (signum ≤ highestSignal → act.saFlags &&& ~~~saRestorer = 0 → act.saMask = 0 → 0 ≤ signum ∧
        (p.Comes signum.toNat oldNull → p.Registrable signum.toNat
          ((p.signalAction signum.toNat).addr < 2147483648 → act.saFlags &&& saRestorer ≠ 0)
          act.saHandler))
  | .sigreturn => 2 ≤ p.signalsContexts.length

/-- Every signal that is pending can be delivered. -/
structure Sound (p : SignalState) : Prop where
  contexts : p.signalsContexts ≠ []
  pending : ∀ i, p.pendingSignals.getLsbD i → i < highestSignal
  caught : ∀ s ≤ highestSignal, p.IsPending s → p.signalAction s ≠ .dfl
  recorded : ∀ s addr, s ≠ 0 → p.signalAction s = .call addr → p.Recorded s

section Signals

variable {p p' : SignalState} {s : ℕ} {op : SigOp}

/-! ## Sending -/

lemma signalDefaultAction_ends (s : ℕ) : signalDefaultAction s = .core ∨ signalDefaultAction s = .term := by
  unfold signalDefaultAction
  split
  · exact Or.inl rfl
  · exact Or.inr rfl

lemma endsOn_iff : p.EndsOn s ↔ p.signalAction s = .dfl := and_iff_left (signalDefaultAction_ends s)

lemma Sound.not_pending_zero (h : p.Sound) : ¬ p.IsPending 0 := by
  intro hpending
  have hlt := h.pending 31 hpending
  exact absurd hlt (by decide)

lemma getLsbD_or_twoPow {mask : SigSet} {i n : ℕ} (h : (mask ||| BitVec.twoPow 1024 n).getLsbD i) :
    mask.getLsbD i ∨ n = i := by
  rw [BitVec.getLsbD_or, BitVec.getLsbD_twoPow, Bool.or_eq_true, Bool.and_eq_true, decide_eq_true_iff,
    decide_eq_true_iff] at h
  exact h.imp_right And.right

lemma sigBit_lt_highest (hs : s ≠ 0) (hle : s ≤ highestSignal) : sigBit s < highestSignal := by
  cases s with
  | zero => exact absurd rfl hs
  | succ n => exact hle

lemma Sound.send (h : p.Sound) (hs : s ≠ 0) (hle : s ≤ highestSignal) :
    ∃ p', p.send s = .ok p' ∧ p'.Sound ∧ p'.oldact = p.oldact ∧ p'.signalsContexts = p.signalsContexts := by
  by_cases hends : p.EndsOn s
  · refine ⟨_, if_pos hends, ?_, rfl, rfl⟩
    exact ⟨h.contexts, h.pending, h.caught, h.recorded⟩
  · refine ⟨_, (if_neg hends).trans (if_neg hs), ?_, rfl, rfl⟩
    refine ⟨h.contexts, ?_, ?_, h.recorded⟩
    · intro i hi
      rcases getLsbD_or_twoPow hi with hi | rfl
      · exact h.pending i hi
      · exact sigBit_lt_highest hs hle
    · intro t ht hpending
      rcases getLsbD_or_twoPow hpending with hpending | heq
      · exact h.caught t ht hpending
      · obtain rfl := sigBit_injective hle ht heq
        exact mt endsOn_iff.mpr hends

lemma Sound.setEax (h : p.Sound) (x : ℤ) : (p.setEax x).Sound :=
  ⟨h.contexts, h.pending, h.caught, h.recorded⟩

lemma send_pending (hs : s ≠ 0) (hends : ¬ p.EndsOn s) (hpending : p.IsPending s) : p.send s = .ok p := by
  have hmask : p.pendingSignals ||| BitVec.twoPow 1024 (sigBit s) = p.pendingSignals := by
    apply BitVec.eq_of_getLsbD_eq
    intro i hi
    rw [BitVec.getLsbD_or, BitVec.getLsbD_twoPow]
    rcases eq_or_ne (sigBit s) i with rfl | hne
    · rw [show p.pendingSignals.getLsbD (sigBit s) = true from hpending, Bool.true_or]
    · simp [hne]
  rw [SignalState.send, if_neg hends, if_neg hs, hmask]

lemma Sound.kill (h : p.Sound) {signal : ℤ} (hpos : 1 ≤ signal)
    (hcancel : signal = sigcancel → p.IsPending sigquit) :
    ∃ r p', p.kill signal = .ok (r, p') ∧ p'.Sound ∧ ((highestSignal : ℤ) < signal → r < 0 ∧ p' = p) := by
  unfold SignalState.kill
  by_cases hc : signal = sigcancel
  · have hpending := hcancel hc
    have hends : ¬ p.EndsOn sigquit := mt endsOn_iff.mp (h.caught _ (by decide) hpending)
    rw [if_pos hc, send_pending (by decide) hends hpending]
    exact ⟨-1, p, rfl, h, fun _ => ⟨by decide, rfl⟩⟩
  rw [if_neg hc]
  by_cases hlarge : signal > highestSignal
  · rw [if_pos hlarge]
    exact ⟨-einval, p, rfl, h, fun _ => ⟨by decide, rfl⟩⟩
  · rw [if_neg hlarge, if_neg (by omega)]
    have hle : signal.toNat ≤ highestSignal := by omega
    obtain ⟨p', hp', hsound, -⟩ := h.send (by omega) hle
    rw [hp']
    exact ⟨0, p', rfl, hsound, fun hlt => absurd hlt hlarge⟩

/-! ## Registering -/

lemma Sound.register (h : p.Sound)
    (hs : s ≤ highestSignal) {handler : SigHandler} {oldact : ℕ → Option SigAction}
    (hrest : ∀ t ≠ s, oldact t = p.oldact t)
    (hfits : p.Registrable s (∃ act ∈ oldact s, act.saFlags &&& saRestorer ≠ 0) handler) :
    Sound { p with signalAction := Function.update p.signalAction s handler, oldact := oldact } := by
  refine ⟨h.contexts, h.pending, ?_, ?_⟩
  · intro t ht hpending
    show Function.update p.signalAction s handler t ≠ .dfl
    rcases eq_or_ne t s with rfl | hne
    · rw [Function.update_self]
      rintro rfl
      exact hfits hpending
    · rw [Function.update_of_ne hne]
      exact h.caught t ht hpending
  · intro t addr hzero haction
    have haction : Function.update p.signalAction s handler t = .call addr := haction
    show ∃ act ∈ oldact t, _
    rcases eq_or_ne t s with rfl | hne
    · rw [Function.update_self] at haction
      subst haction
      exact hfits hzero
    · rw [Function.update_of_ne hne] at haction
      rw [hrest t hne]
      exact h.recorded t addr hzero haction

lemma Sound.signal (h : p.Sound) {signum : ℤ} {handler : SigHandler}
    (hc : p.Careful (.signal signum handler)) : ∃ p', p.step (.signal signum handler) = .ok p' ∧
      p'.Sound := by
  obtain ⟨hnonneg, hle, hfits⟩ := hc
  have hreg : p.registerSignalHandler signum handler = .ok _ := if_neg (by omega)
  refine ⟨_, by rw [step, hreg]; rfl, ?_⟩
  have hsound := h.register (by omega) (fun _ _ => rfl) hfits
  exact hsound.setEax _

lemma Sound.sigaction (h : p.Sound) {signum : ℤ} {act : SigAction} {oldNull : Bool}
    (hc : p.Careful (.sigaction signum act oldNull)) :
    p.sigaction signum act oldNull = .error .killed ∨
      ∃ r p', p.sigaction signum act oldNull = .ok (r, p') ∧ p'.Sound := by
  obtain ⟨hcancels, hc⟩ := hc
  unfold SignalState.sigaction
  by_cases hlarge : signum > highestSignal
  · rw [if_pos hlarge]
    by_cases hcancel : signum = sigcancel
    · have hnull := hcancels hcancel
      rw [if_pos hcancel, if_neg (by simp [hnull])]
      exact Or.inr ⟨_, _, rfl, h⟩
    · rw [if_neg hcancel]
      exact Or.inr ⟨_, _, rfl, h⟩
  rw [if_neg hlarge]
  by_cases hflags : act.saFlags &&& ~~~saRestorer = 0
  case neg =>
    rw [if_pos hflags]
    exact Or.inr ⟨_, _, rfl, h⟩
  by_cases hmask : act.saMask = 0
  case neg =>
    rw [if_neg (not_not.mpr hflags), if_pos hmask]
    exact Or.inr ⟨_, _, rfl, h⟩
  obtain ⟨hnonneg, hfits⟩ := hc (not_lt.mp hlarge) hflags hmask
  have hle : signum.toNat ≤ highestSignal := by omega
  have hreg : p.registerSignalHandler signum act.saHandler = .ok _ := if_neg (by omega)
  rw [if_neg (not_not.mpr hflags), if_neg (not_not.mpr hmask), hreg]
  simp only [bind, Except.bind]
  by_cases hupper : 2147483648 ≤ (p.signalAction signum.toNat).addr
  · rw [if_pos hupper]
    refine Or.inr ⟨_, _, rfl, h.register hle (fun _ _ => rfl) ?_⟩
    -- the function that was registered has a record
    have hrecorded : signum.toNat ≠ 0 → p.Recorded signum.toNat := by
      intro hzero
      rcases haction : p.signalAction signum.toNat with _ | _ | addr
      · simp [haction, SigHandler.addr] at hupper
      · simp [haction, SigHandler.addr] at hupper
      · exact h.recorded _ addr hzero haction
    have hfits := hfits (Or.inl hupper)
    cases hhandler : act.saHandler with
    | dfl =>
      rw [hhandler] at hfits
      exact hfits
    | ign => trivial
    | call addr => exact hrecorded
  · rw [if_neg hupper]
    cases oldNull with
    | true => exact Or.inl rfl
    | false =>
      refine Or.inr ⟨_, _, rfl, h.register hle (fun t hne => Function.update_of_ne hne _ _) ?_⟩
      have hfits := hfits (Or.inr rfl)
      cases hhandler : act.saHandler with
      | dfl =>
        rw [hhandler] at hfits
        exact hfits
      | ign => trivial
      | call addr =>
        rw [hhandler] at hfits
        intro hzero
        exact ⟨act, Function.update_self .., hfits hzero (not_le.mp hupper)⟩

/-! ## Contexts -/

lemma Sound.sigprogmask (h : p.Sound) (how : SigHow) (set : Option SigSet) :
    ∃ r oldset p', p.sigprogmask how set = .ok (r, oldset, p') ∧ p'.Sound := by
  obtain ⟨context, rest, hcontexts⟩ := List.exists_cons_of_ne_nil h.contexts
  have hmask : ∀ mask, Sound { p with signalsContexts := { context with blockedMask := mask } :: rest } :=
    fun _ => ⟨List.cons_ne_nil _ _, h.pending, h.caught, h.recorded⟩
  unfold SignalState.sigprogmask
  rw [hcontexts]
  cases how with
  | unknown => exact ⟨_, _, _, rfl, h⟩
  | block | unblock | setmask =>
    cases set with
    | none => exact ⟨_, _, _, rfl, h⟩
    | some set => exact ⟨_, _, _, rfl, hmask _⟩

lemma Sound.sigreturn (h : p.Sound) (hc : 2 ≤ p.signalsContexts.length) :
    ∃ p', p.signalContextRestore = .ok p' ∧ p'.Sound := by
  obtain ⟨context, rest, hcontexts⟩ := List.exists_cons_of_ne_nil h.contexts
  refine ⟨_, signalContextRestore_eq hcontexts, ?_⟩
  rw [hcontexts] at hc
  have hrest : rest ≠ [] := by
    rintro rfl
    exact absurd hc (by simp)
  exact ⟨hrest, h.pending, h.caught, h.recorded⟩

/-! ## Delivery -/

lemma Sound.enterHandler (h : p.Sound) (addr restorer : ℕ) : (p.enterHandler s addr restorer).Sound := by
  have hpending : ∀ i, (p.pendingSignals &&& ~~~BitVec.twoPow 1024 (sigBit s)).getLsbD i →
      p.pendingSignals.getLsbD i := by
    intro i hi
    rw [BitVec.getLsbD_and, Bool.and_eq_true] at hi
    exact hi.1
  exact ⟨h.contexts, fun i hi => h.pending i (hpending i hi), fun t ht hi => h.caught t ht (hpending _ hi),
    h.recorded⟩

lemma Sound.deliver (h : p.Sound) {addr : ℕ} (hs : s ≠ 0) (haction : p.signalAction s = .call addr) :
    ∃ r p', p.deliver s addr = .ok (r, p') ∧ p'.Sound := by
  obtain ⟨act, hact, hflags⟩ := h.recorded s addr hs haction
  have hact : p.oldact s = some act := hact
  unfold SignalState.deliver signalContextSave
  rw [hact]
  by_cases hfull : p.signalsContexts.length = maxConcurrentSignalHandlers
  · obtain ⟨q, hq, hsound, hold, -⟩ := h.send (show sigquit ≠ 0 by decide) (by decide)
    simp only [if_pos hfull, hq, Except.map, bind, Except.bind]
    by_cases hends : p.EndsOn sigquit
    · rw [if_pos (by simpa using hends)]
      exact ⟨none, q, rfl, hsound⟩
    · rw [if_neg (by simpa using hends), hold, hact]
      simp only [if_neg hflags]
      exact ⟨_, _, rfl, hsound.enterHandler _ _⟩
  · simp only [if_neg hfull, bind, Except.bind]
    rw [if_neg (by simp)]
    simp only [hact, if_neg hflags]
    refine ⟨_, _, rfl, Sound.enterHandler ?_ _ _⟩
    exact ⟨List.cons_ne_nil _ _, h.pending, h.caught, h.recorded⟩

lemma Sound.handleSignals (h : p.Sound) (blocked : SigSet) : ∀ {signals : List ℕ},
    (∀ t ∈ signals, t ≤ highestSignal) →
      ∃ r p', p.handleSignals blocked signals = .ok (r, p') ∧ p'.Sound := by
  intro signals
  induction signals with
  | nil =>
    intro _
    exact ⟨none, p, rfl, h⟩
  | cons t rest ih =>
    intro hle
    have hrest := ih fun u hu => hle u (List.mem_cons_of_mem t hu)
    unfold SignalState.handleSignals
    by_cases hskip : ¬ p.pendingSignals.getLsbD (sigBit t) ∨ blocked.getLsbD (sigBit t)
    · rw [if_pos hskip]
      exact hrest
    · rw [if_neg hskip]
      have hpending : p.IsPending t := not_not.mp (not_or.mp hskip).1
      have hzero : t ≠ 0 := by
        rintro rfl
        exact h.not_pending_zero hpending
      rcases haction : p.signalAction t with _ | _ | addr
      · exact absurd haction (h.caught t (hle t List.mem_cons_self) hpending)
      · exact hrest
      · exact h.deliver hzero haction

lemma Sound.signalHandling (h : p.Sound) : ∃ r p', p.signalHandling = .ok (r, p') ∧ p'.Sound := by
  obtain ⟨context, rest, hcontexts⟩ := List.exists_cons_of_ne_nil h.contexts
  unfold SignalState.signalHandling
  rw [hcontexts]
  refine h.handleSignals _ ?_
  intro t ht
  exact Nat.le_of_lt_succ (List.mem_range.mp ht)

/-! ## Runs -/

lemma Sound.step (h : p.Sound) (hc : p.Careful op) :
    p.step op = .error .killed ∨ ∃ p', p.step op = .ok p' ∧ p'.Sound := by
  cases op with
  | enter cpuState stackState => exact Or.inr ⟨_, rfl, h.contexts, h.pending, h.caught, h.recorded⟩
  | sent signal =>
    obtain ⟨r, p', hp', hsound, -⟩ := h.kill hc.1 hc.2
    exact Or.inr ⟨p', by rw [SignalState.step, hp']; rfl, hsound⟩
  | kill signal =>
    obtain ⟨r, p', hp', hsound, -⟩ := h.kill hc.1 hc.2
    exact Or.inr ⟨_, by rw [SignalState.step, hp']; rfl, hsound.setEax r⟩
  | signal signum handler => exact Or.inr (h.signal hc)
  | sigaction signum act oldNull =>
    rcases h.sigaction hc with hkilled | ⟨r, p', hp', hsound⟩
    · exact Or.inl (by rw [SignalState.step, hkilled]; rfl)
    · exact Or.inr ⟨_, by rw [SignalState.step, hp']; rfl, hsound.setEax r⟩
  | sigprocmask how set =>
    obtain ⟨r, oldset, p', hp', hsound⟩ := h.sigprogmask how set
    exact Or.inr ⟨_, by rw [SignalState.step, hp']; rfl, hsound.setEax r⟩
  | sigreturn => exact Or.inr (h.sigreturn hc)
  | resume =>
    obtain ⟨r, p', hp', hsound⟩ := h.signalHandling
    exact Or.inr ⟨p', by rw [SignalState.step, hp']; rfl, hsound⟩

lemma Sound.survives (h : p.Sound) (hc : p.Careful op) : p.Survives op := by
  intro e he
  rcases h.step hc with hkilled | ⟨p', hp', -⟩
  · rw [hkilled] at he
    exact (Except.error.inj he).symm
  · rw [hp'] at he
    cases he

lemma Sound.refuses (h : p.Sound) (hc : p.Careful op) : p.Refuses op := by
  have hkill : ∀ {signal : ℤ}, 1 ≤ signal → (signal = sigcancel → p.IsPending sigquit) →
      signal < 1 ∨ (highestSignal : ℤ) < signal → ∃ r < 0, p.kill signal = .ok (r, p) := by
    intro signal hpos hcancel hout
    obtain ⟨r, p', hp', -, hrefused⟩ := h.kill hpos hcancel
    obtain ⟨hr, rfl⟩ := hrefused (hout.resolve_left (by omega))
    exact ⟨r, hr, hp'⟩
  cases op with
  | sent signal => exact hkill hc.1 hc.2
  | kill signal => exact hkill hc.1 hc.2
  | _ => trivial

end Signals

/-- A process as it is made. -/
def made (cpuState : CpuState) (stackState : StackState) (words : ℕ → ℕ) (base : SignalCtx) : SignalState :=
  { cpuState, stackState, words, signalsContexts := [base] }

lemma sound_made (cpuState : CpuState) (stackState : StackState) (words : ℕ → ℕ) (base : SignalCtx) :
    (made cpuState stackState words base).Sound := by
  refine ⟨List.cons_ne_nil _ _, ?_, ?_, ?_⟩
  · intro i hi
    exact absurd hi (by simp [made])
  · intro s _ hpending
    exact absurd hpending (by simp [made, IsPending])
  · intro s addr _ haction
    cases haction

/-- In every run of careful steps the kernel lives through each of them, and what is not a signal is
refused. -/
theorem kernel_survives (cpuState : CpuState) (stackState : StackState) (words : ℕ → ℕ) (base : SignalCtx)
    (ops : List SigOp) (h : EachCall step Careful ops (made cpuState stackState words base)) :
    EachCall step (fun p op => p.Survives op ∧ p.Refuses op) ops (made cpuState stackState words base) := by
  refine EachCall.imp_of_invariant (Q := Sound) ?_ ?_ (sound_made cpuState stackState words base) h
  · intro p op hsound hc
    exact ⟨hsound.survives hc, hsound.refuses hc⟩
  · intro p op p' hsound hc hp'
    rcases hsound.step hc with hkilled | ⟨q, hq, hqsound⟩
    · rw [hkilled] at hp'
      cases hp'
    · rw [hq] at hp'
      cases hp'
      exact hqsound

instance decidableSurvives (p : SignalState) (op : SigOp) : Decidable (p.Survives op) :=
  match h : p.step op with
  | .ok _ => isTrue fun e he => by rw [h] at he; cases he
  | .error e =>
      decidable_of_iff (e = .killed)
        ⟨fun heq e' he => by rw [h] at he; cases he; exact heq, fun hsurvives => hsurvives e h⟩

instance decidableRecorded (p : SignalState) (s : ℕ) : Decidable (p.Recorded s) :=
  inferInstanceAs (Decidable (∃ act ∈ p.oldact s, act.saFlags &&& saRestorer ≠ 0))

instance decidableRegistrable (p : SignalState) (s : ℕ) (recorded : Prop) [Decidable recorded] :
    DecidablePred (p.Registrable s recorded)
  | .dfl => inferInstanceAs (Decidable (¬ _))
  | .ign => isTrue trivial
  | .call _ => inferInstanceAs (Decidable (_ → _))

instance decidableComes (p : SignalState) (s : ℕ) (oldNull : Bool) : Decidable (p.Comes s oldNull) :=
  inferInstanceAs (Decidable (_ ∨ _))

instance decidableCareful (p : SignalState) : DecidablePred p.Careful
  | .enter _ _ | .sigprocmask _ _ | .resume => isTrue trivial
  | .sent _ | .kill _ | .signal _ _ | .sigaction _ _ _ => inferInstanceAs (Decidable (_ ∧ _))
  | .sigreturn => inferInstanceAs (Decidable (2 ≤ _))

/-- A handler is registered and called, and returns; then the signal is ignored, and two numbers that are
no signals are refused. -/
theorem kernel_survives_usr1 :
    EachCall step Careful
        [.sigaction 10 (Watched.handlerAt 4096) false, .kill 10, .resume, .sigreturn,
          .signal 10 .ign, .kill 10,
          .resume, .kill 13, .sent 1000] (made {} {} (fun _ => 0) {}) ∧
      EachCall step (fun p op => p.Survives op ∧ p.Refuses op)
        [.sigaction 10 (Watched.handlerAt 4096) false, .kill 10, .resume, .sigreturn,
          .signal 10 .ign, .kill 10,
          .resume, .kill 13, .sent 1000] (made {} {} (fun _ => 0) {}) :=
  have hcareful : EachCall step Careful
      [.sigaction 10 (Watched.handlerAt 4096) false, .kill 10, .resume, .sigreturn, .signal 10 .ign,
        .kill 10,
        .resume, .kill 13, .sent 1000] (made {} {} (fun _ => 0) {}) := by decide +kernel
  ⟨hcareful, kernel_survives {} {} (fun _ => 0) {} _ hcareful⟩

/-- A handler from `signal` has no record when it is called; a handler is taken back while its signal is
pending; and a negative number is no index. -/
theorem kernel_not_survives :
    ¬ EachCall step (fun p op => p.Survives op ∧ p.Refuses op)
        [.signal 10 (.call 4096), .kill 10, .resume] (made {} {} (fun _ => 0) {}) ∧
      ¬ EachCall step (fun p op => p.Survives op ∧ p.Refuses op)
        [.sigaction 10 (Watched.handlerAt 4096) false, .kill 10, .signal 10 .dfl, .resume]
        (made {} {} (fun _ => 0) {}) ∧
      ¬ EachCall step (fun p op => p.Survives op ∧ p.Refuses op)
        [.kill (-5)] (made {} {} (fun _ => 0) {}) := by
  have hweaker : ∀ {ops : List SigOp} {p : SignalState},
      EachCall step (fun p op => p.Survives op ∧ p.Refuses op) ops p → EachCall step Survives ops p :=
    EachCall.imp fun _ _ => And.left
  refine ⟨fun h => absurd (hweaker h) ?_, fun h => absurd (hweaker h) ?_, fun h => absurd (hweaker h) ?_⟩
  · decide +kernel
  · decide +kernel
  · decide +kernel

end SignalState

end BrebOS

import BrebOS.Processes.Signals.Contexts

/-!
# Saving and restoring the mask

A program blocks signals around a critical section and gives the old mask back behind it.  The calls that
add to the mask or take from it hand the old one out; the one that sets it hands out the new one.
-/

namespace BrebOS

/-- The signals in a set. -/
def SigSet.signals (set : SigSet) : Set ℕ := {n | set.getLsbD n = true}

/-- What each call should make of the signals that are blocked. -/
def SigHow.apply (mask set : Set ℕ) : SigHow → Set ℕ
  | .block => mask ∪ set
  | .unblock => mask \ set
  | .setmask => set
  | .unknown => mask

namespace SigSet

variable {mask set : SigSet}

lemma mem_signals {n : ℕ} : n ∈ set.signals ↔ set.getLsbD n = true := Iff.rfl

lemma lt_of_mem_signals {n : ℕ} (h : n ∈ set.signals) : n < 1024 := BitVec.lt_of_getLsbD h

lemma signals_or : (mask ||| set).signals = mask.signals ∪ set.signals := by
  ext n
  rw [Set.mem_union, mem_signals, mem_signals, mem_signals, BitVec.getLsbD_or, Bool.or_eq_true]

lemma signals_and_not : (mask &&& ~~~set).signals = mask.signals \ set.signals := by
  ext n
  rw [Set.mem_sdiff, mem_signals, BitVec.getLsbD_and, BitVec.getLsbD_not, Bool.and_eq_true,
    Bool.and_eq_true, decide_eq_true_eq, Bool.not_eq_true']
  constructor
  · rintro ⟨hmask, -, hset⟩
    refine ⟨hmask, fun h => ?_⟩
    rw [mem_signals.mp h] at hset
    exact Bool.noConfusion hset
  · rintro ⟨hmask, hset⟩
    exact ⟨hmask, lt_of_mem_signals hmask, Bool.eq_false_iff.mpr hset⟩

end SigSet

namespace SignalState

variable {p : SignalState} {how : SigHow} {set : SigSet} {context : SignalCtx} {rest : List SignalCtx}

/-- The mask of the context on top is another one. -/
def withMask (p : SignalState) (mask : SigSet) : SignalState :=
  match p.signalsContexts with
  | [] => p
  | context :: rest => { p with signalsContexts := { context with blockedMask := mask } :: rest }

/-- The mask before the call is handed out, the one after it has the signals it should, nothing else
changes, and setting the mask that was handed out gives the state before the call back. -/
def MaskRight (how : SigHow) (set : SigSet) (p : SignalState) : Prop :=
  ∃ context rest old mask, p.signalsContexts = context :: rest ∧
    p.sigprogmask how (some set) = .ok (0, some old, p.withMask mask) ∧
    old = context.blockedMask ∧ mask.signals = how.apply context.blockedMask.signals set.signals ∧
    ∃ again, (p.withMask mask).sigprogmask .setmask (some old) = .ok (0, again, p)

/-- What is handed out. -/
def handedOut (mask set : SigSet) : SigHow → SigSet
  | .setmask => set
  | _ => mask

lemma sigprogmask_eq (h : p.signalsContexts = context :: rest) (hhow : how ≠ .unknown) :
    p.sigprogmask how (some set) = .ok (0, some (handedOut context.blockedMask set how),
      p.withMask (newMask context.blockedMask set how)) := by
  rw [sigprogmask, withMask, h]
  cases how with
  | unknown => exact absurd rfl hhow
  | block | unblock | setmask => rfl

lemma signals_newMask {mask : SigSet} :
    (newMask mask set how).signals = how.apply mask.signals set.signals := by
  cases how with
  | block => exact SigSet.signals_or
  | unblock => exact SigSet.signals_and_not
  | setmask | unknown => rfl

lemma restore_mask (h : p.signalsContexts = context :: rest) (mask : SigSet) :
    (p.withMask mask).sigprogmask .setmask (some context.blockedMask) =
      .ok (0, some context.blockedMask, p) := by
  rcases p with ⟨cpuState, stackState, signalAction, oldact, pendingSignals, contexts, words, endedBy⟩
  cases h
  rfl

lemma maskRight_iff (h : p.signalsContexts = context :: rest) (hhow : how ≠ .unknown) :
    MaskRight how set p ↔ (how = .setmask → set = context.blockedMask) := by
  constructor
  · rintro ⟨context', rest', old, mask, hcontexts, hcall, rfl, -, -⟩ rfl
    rw [h] at hcontexts
    cases hcontexts
    rw [sigprogmask_eq h hhow] at hcall
    simp only [Except.ok.injEq, Prod.mk.injEq, Option.some.injEq] at hcall
    exact hcall.2.1
  · intro hset
    have hold : handedOut context.blockedMask set how = context.blockedMask := by
      cases how with
      | setmask => exact hset rfl
      | block | unblock | unknown => rfl
    refine ⟨context, rest, context.blockedMask, newMask context.blockedMask set how, h, ?_, rfl,
      signals_newMask, _, restore_mask h _⟩
    rw [sigprogmask_eq h hhow, hold]

end SignalState

/-- `SIG_BLOCK` and `SIG_UNBLOCK` save the mask; `SIG_SETMASK` saves it only if it does not change. -/
theorem sigprocmask_right_iff {p : SignalState} {how : SigHow} {set : SigSet} {context : SignalCtx}
    {rest : List SignalCtx} (h : p.signalsContexts = context :: rest) (hhow : how ≠ .unknown) :
    p.MaskRight how set ↔ (how = .setmask → set = context.blockedMask) :=
  SignalState.maskRight_iff h hhow

/-- A signal is blocked for a while. -/
theorem sigprocmask_right_block : SignalState.MaskRight .block 1 {} :=
  (sigprocmask_right_iff rfl (by decide)).mpr nofun

/-- Setting the mask to block one signal hands out that mask. -/
theorem sigprocmask_not_right_setmask : ¬SignalState.MaskRight .setmask 1 {} := by
  rw [SignalState.maskRight_iff rfl (by decide)]
  intro hset
  have hbit : (1 : SigSet).getLsbD 0 = (0 : SigSet).getLsbD 0 := congrArg (BitVec.getLsbD · 0) (hset rfl)
  simp at hbit

end BrebOS

/-!
## Blocked signals

A program that blocks a signal expects to be left alone by it until it asks for it again, also while
another handler runs.  `Hold` says of each context whether the program has blocked the signal there, or
had blocked it when the handler started; this is what the program knows, and not what the masks say.
-/

namespace BrebOS

/-- What a program knows of a signal while a handler runs. -/
inductive Hold
  /-- The signal may come. -/
  | free
  /-- It has been blocked here. -/
  | own
  /-- It was blocked when the handler started. -/
  | inherited
  deriving DecidableEq, Repr

/-- After `sigprocmask`, with a set that holds the signal or not. -/
def Hold.change (hold : Hold) (held : Bool) : SigHow → Hold
  | .block => if held then .own else hold
  | .unblock => if held then .free else hold
  | .setmask => if held then .own else .free
  | .unknown => hold

/-- In a handler that starts. -/
def Hold.enter : Hold → Hold
  | .free => .free
  | .own | .inherited => .inherited

namespace SignalState

/-- The signal whose handler starts when the process is resumed. -/
def started (p : SignalState) : Option ℕ :=
  match p.signalHandling with
  | .ok r => r.1
  | .error _ => none

def IsPending (s : ℕ) (p : SignalState) : Prop := p.pendingSignals.getLsbD (sigBit s)

instance decidableIsPending (s : ℕ) : DecidablePred (IsPending s) :=
  fun p => inferInstanceAs (Decidable (p.pendingSignals.getLsbD (sigBit s) = true))

/-- There is a handler for the signal. -/
def Caught (s : ℕ) (p : SignalState) : Prop := p.signalAction s ≠ .dfl ∧ p.signalAction s ≠ .ign

instance decidableCaught (s : ℕ) : DecidablePred (Caught s) :=
  fun p => inferInstanceAs (Decidable (p.signalAction s ≠ .dfl ∧ p.signalAction s ≠ .ign))

/-- The step does not start the handler of the signal, nor end the process because of it, and the signal
stays pending. -/
def Spared (s : ℕ) (p : SignalState) (op : SigOp) : Prop :=
  (op = .resume → p.started ≠ some s) ∧
    After step (fun p' => (p'.endedBy = some s → p.endedBy = some s) ∧
      (p.IsPending s → p'.IsPending s)) p op

instance decidableSpared (s : ℕ) (p : SignalState) (op : SigOp) : Decidable (p.Spared s op) :=
  inferInstanceAs (Decidable (_ ∧ _))

end SignalState

/-- A process, and what its program knows of a signal in each of its contexts, the top first. -/
structure Watched where
  process : SignalState
  holds : List Hold

namespace Watched

def holdsAfter (s : ℕ) (w : Watched) : SigOp → List Hold
  | .sigprocmask how (some set) =>
      match w.holds with
      | [] => []
      | hold :: rest => hold.change (set.getLsbD (sigBit s)) how :: rest
  | .sigreturn => w.holds.tail
  | .resume =>
      if w.process.started.isSome ∧ w.process.signalsContexts.length ≠ maxConcurrentSignalHandlers then
        match w.holds with
        | [] => []
        | hold :: rest => hold.enter :: hold :: rest
      else w.holds
  | _ => w.holds

def step (s : ℕ) (w : Watched) (op : SigOp) : Except Fault Watched :=
  (w.process.step op).map fun p => ⟨p, w.holdsAfter s op⟩

/-- The signal has been blocked, and not been let through again. -/
def Held (w : Watched) : Prop := ∃ hold ∈ w.holds.head?, hold ≠ .free

/-- The steps that leave a blocked signal alone: it is not sent when that ends the process; and when the
process is resumed with the signal pending and a handler for it, it is not in a handler that started while
the signal was blocked, unless it has blocked the signal again. -/
def Heeds (s : ℕ) (w : Watched) : SigOp → Prop
  | .sent signal | .kill signal => SignalState.killSignal signal = s → ¬ w.process.EndsOn s
  | .resume =>
      (w.process.IsPending s → w.process.Caught s → w.holds.head? ≠ some .inherited) ∧
      (s = sigquit → w.process.signalsContexts.length ≠ maxConcurrentSignalHandlers)
  | _ => True

/-- The masks say what the program knows, but for signals that were blocked when a handler started. -/
structure Matches (s : ℕ) (w : Watched) : Prop where
  masks : List.Forall₂ (fun hold context => hold = Hold.own ↔ context.blockedMask.getLsbD (sigBit s))
    w.holds w.process.signalsContexts
  empty : ∀ t act, w.process.oldact t = some act → act.saMask = 0

end Watched

namespace SignalState

variable {p p' : SignalState} {s signal : ℕ}

/-! ## Pending signals -/

lemma sigBit_lt (h : s ≤ highestSignal) : sigBit s < 1024 := by
  cases s with
  | zero => decide
  | succ n =>
    have h : n + 1 ≤ 12 := h
    show n < 1024
    omega

lemma sigBit_injective {t : ℕ} (hs : s ≤ highestSignal) (ht : t ≤ highestSignal) (h : sigBit s = sigBit t) :
    s = t := by
  have hs : s ≤ 12 := hs
  have ht : t ≤ 12 := ht
  cases s with
  | zero =>
    cases t with
    | zero => rfl
    | succ m =>
      have h : 31 = m := h
      omega
  | succ n =>
    cases t with
    | zero =>
      have h : n = 31 := h
      omega
    | succ m =>
      have h : n = m := h
      omega

lemma isPending_enterHandler {addr restorer : ℕ} (hs : s ≤ highestSignal) (hsignal : signal ≤ highestSignal)
    (hne : signal ≠ s) (h : p.IsPending s) : (p.enterHandler signal addr restorer).IsPending s := by
  have hbit : sigBit s ≠ sigBit signal := fun heq => hne (sigBit_injective hs hsignal heq).symm
  have hlt := sigBit_lt hs
  show (p.pendingSignals &&& ~~~BitVec.twoPow 1024 (sigBit signal)).getLsbD (sigBit s) = true
  have h : p.pendingSignals.getLsbD (sigBit s) = true := h
  simp [h, hlt, hbit]

lemma isPending_or {set : SigSet} (h : p.IsPending s) :
    { p with pendingSignals := p.pendingSignals ||| set }.IsPending s := by
  show (p.pendingSignals ||| set).getLsbD (sigBit s) = true
  have h : p.pendingSignals.getLsbD (sigBit s) = true := h
  simp [h]

lemma spared_send (h : p.send signal = .ok p') (hends : signal = s → ¬ p.EndsOn s) :
    (p'.endedBy = some s → p.endedBy = some s) ∧ (p.IsPending s → p'.IsPending s) := by
  rcases send_cases h with ⟨hend, rfl⟩ | ⟨-, -, rfl⟩
  · refine ⟨?_, id⟩
    intro heq
    obtain rfl : signal = s := by simpa using heq
    exact absurd hend (hends rfl)
  · exact ⟨id, isPending_or⟩

lemma spared_kill {signal r : ℤ} (h : p.kill signal = .ok (r, p'))
    (hends : killSignal signal = s → ¬ p.EndsOn s) :
    (p'.endedBy = some s → p.endedBy = some s) ∧ (p.IsPending s → p'.IsPending s) := by
  rcases kill_cases h with rfl | hsend
  · exact ⟨id, id⟩
  · exact spared_send hsend hends

lemma empty_masks {op : SigOp} (hreturn : op ≠ .sigreturn) (hresume : op ≠ .resume)
    (h : ∀ t act, p.oldact t = some act → act.saMask = 0) (hp' : p.step op = .ok p') :
    ∀ t act, p'.oldact t = some act → act.saMask = 0 := by
  have hsend : ∀ {signal : ℤ} {r : ℤ} {q : SignalState}, p.kill signal = .ok (r, q) → q.oldact =
    p.oldact := by
    intro signal r q hq
    rcases kill_cases hq with rfl | hsend
    · rfl
    · rcases send_cases hsend with ⟨-, rfl⟩ | ⟨-, -, rfl⟩
      · rfl
      · rfl
  cases op with
  | enter _ _ =>
    cases hp'
    exact h
  | sent signal =>
    obtain ⟨⟨r, q⟩, hq, rfl⟩ := map_eq_ok.mp hp'
    rw [hsend hq]
    exact h
  | kill signal =>
    obtain ⟨⟨r, q⟩, hq, rfl⟩ := map_eq_ok.mp hp'
    show ∀ t act, q.oldact t = some act → act.saMask = 0
    rw [hsend hq]
    exact h
  | signal signum handler =>
    obtain ⟨⟨prev, q⟩, hq, rfl⟩ := map_eq_ok.mp hp'
    rw [registerSignalHandler_eq hq]
    exact h
  | sigaction signum act oldNull =>
    obtain ⟨⟨r, q⟩, hq, rfl⟩ := map_eq_ok.mp hp'
    rcases sigaction_cases hq with rfl | ⟨hmask, oldact, rfl, rfl | rfl⟩
    · exact h
    · exact h
    · intro t act' hact'
      have hact' : Function.update p.oldact signum.toNat (some act) t = some act' := hact'
      rcases eq_or_ne t signum.toNat with rfl | hne
      · rw [Function.update_self] at hact'
        cases hact'
        exact hmask
      · rw [Function.update_of_ne hne] at hact'
        exact h t act' hact'
  | sigprocmask how set =>
    obtain ⟨⟨r, oldset, q⟩, hq, rfl⟩ := map_eq_ok.mp hp'
    obtain ⟨context, rest, -, rfl⟩ := sigprogmask_cases hq
    exact h
  | sigreturn => exact absurd rfl hreturn
  | resume => exact absurd rfl hresume

lemma started_eq {t : ℕ} (h : p.started = some t) : ∃ p', p.signalHandling = .ok (some t, p') := by
  unfold started at h
  rcases hhandling : p.signalHandling with e | ⟨r, p'⟩
  · rw [hhandling] at h
    cases h
  · rw [hhandling] at h
    obtain rfl : r = some t := h
    exact ⟨p', rfl⟩

end SignalState

namespace Watched

open SignalState

variable {s : ℕ} {w w' : Watched} {op : SigOp}

/-! ## Steps -/

lemma Matches.inherited {context : SignalCtx} {rest : List SignalCtx} (h : w.Matches s) (hheld : w.Held)
    (hcontexts : w.process.signalsContexts = context :: rest)
    (hmask : ¬ context.blockedMask.getLsbD (sigBit s)) : w.holds.head? = some .inherited := by
  have hmasks := h.masks
  rw [hcontexts] at hmasks
  obtain ⟨hold, holds, htop, -, heq⟩ := List.forall₂_cons_right_iff.mp hmasks
  obtain ⟨hold', hmem, hfree⟩ := hheld
  rw [heq] at hmem ⊢
  obtain rfl : hold = hold' := by simpa using hmem
  cases hold with
  | free => exact absurd rfl hfree
  | own => exact absurd (htop.mp rfl) hmask
  | inherited => rfl

lemma Matches.spared_resume (h : w.Matches s) (hs : s ≤ highestSignal) (hheld : w.Held)
    (hheeds : w.Heeds s .resume) : w.process.Spared s .resume := by
  obtain ⟨hpending, hquit⟩ := hheeds
  have hstarted : w.process.started ≠ some s := by
    intro hstart
    obtain ⟨p', hp'⟩ := started_eq hstart
    obtain ⟨context, rest, hcontexts, hhandled⟩ := signalHandling_cases hp'
    cases hhandled with
    | crowded _ _ _ hpend hblocked haction _ =>
      exact hpending hpend (by simp [Caught, haction]) (h.inherited hheld hcontexts hblocked)
    | delivered _ _ hpend hblocked haction _ =>
      exact hpending hpend (by simp [Caught, haction]) (h.inherited hheld hcontexts hblocked)
  refine ⟨fun _ => hstarted, ?_⟩
  unfold After
  split
  next p' hp' =>
    obtain ⟨⟨r, q⟩, hq, rfl⟩ := map_eq_ok.mp hp'
    have hne : r ≠ some s := by
      rintro rfl
      exact hstarted (by rw [started, hq])
    obtain ⟨context, rest, -, hhandled⟩ := signalHandling_cases hq
    cases hhandled with
    | nothing => exact ⟨id, id⟩
    | ended hfull _ =>
      refine ⟨?_, id⟩
      intro heq
      exact absurd hfull (hquit (by simpa using heq.symm))
    | crowded _ _ hle _ _ _ _ =>
      refine ⟨id, ?_⟩
      intro hpend
      exact isPending_enterHandler hs hle (by simpa using hne) (isPending_or hpend)
    | delivered _ hle _ _ _ _ =>
      refine ⟨id, ?_⟩
      intro hpend
      exact isPending_enterHandler hs hle (by simpa using hne) hpend
  next => trivial

lemma spared_call (hresume : op ≠ .resume) (hheeds : w.Heeds s op) : w.process.Spared s op := by
  refine ⟨fun heq => absurd heq hresume, ?_⟩
  unfold After
  split
  next p' hp' =>
    cases op with
    | enter _ _ =>
      cases hp'
      exact ⟨id, id⟩
    | sent signal =>
      obtain ⟨⟨r, q⟩, hq, rfl⟩ := map_eq_ok.mp hp'
      exact spared_kill hq hheeds
    | kill signal =>
      obtain ⟨⟨r, q⟩, hq, rfl⟩ := map_eq_ok.mp hp'
      have hkill := spared_kill hq hheeds
      exact hkill
    | signal signum handler =>
      obtain ⟨⟨prev, q⟩, hq, rfl⟩ := map_eq_ok.mp hp'
      obtain rfl := registerSignalHandler_eq hq
      exact ⟨id, id⟩
    | sigaction signum act oldNull =>
      obtain ⟨⟨r, q⟩, hq, rfl⟩ := map_eq_ok.mp hp'
      rcases sigaction_cases hq with rfl | ⟨-, oldact, rfl, -⟩
      · exact ⟨id, id⟩
      · exact ⟨id, id⟩
    | sigprocmask how set =>
      obtain ⟨⟨r, oldset, q⟩, hq, rfl⟩ := map_eq_ok.mp hp'
      obtain ⟨context, rest, -, rfl⟩ := sigprogmask_cases hq
      exact ⟨id, id⟩
    | sigreturn =>
      obtain ⟨context, rest, -, rfl⟩ := signalContextRestore_cases hp'
      exact ⟨id, id⟩
    | resume => exact absurd rfl hresume
  next => trivial

lemma change_own {hold : Hold} {mask set : SigSet} {how : SigHow} (hs : s ≤ highestSignal)
    (h : hold = .own ↔ mask.getLsbD (sigBit s)) :
    hold.change (set.getLsbD (sigBit s)) how = .own ↔ (newMask mask set how).getLsbD (sigBit s) := by
  have hlt := sigBit_lt hs
  cases how with
  | block =>
    cases hbit : set.getLsbD (sigBit s) with
    | false => simpa [Hold.change, newMask, hbit] using h
    | true => simp [Hold.change, newMask, hbit]
  | unblock =>
    cases hbit : set.getLsbD (sigBit s) with
    | false =>
      have hget : (mask &&& ~~~set).getLsbD (sigBit s) = mask.getLsbD (sigBit s) := by
        rw [BitVec.getLsbD_and, BitVec.getLsbD_not, hbit]
        simp [hlt]
      rw [newMask, hget]
      exact h
    | true => simp [Hold.change, newMask, hbit]
  | setmask =>
    cases hbit : set.getLsbD (sigBit s) with
    | false => simp [Hold.change, newMask, hbit]
    | true => simp [Hold.change, newMask, hbit]
  | unknown => exact h

lemma Matches.same {p : SignalState} (h : w.Matches s)
    (hcontexts : p.signalsContexts = w.process.signalsContexts)
    (hempty : ∀ t act, p.oldact t = some act → act.saMask = 0) : Matches s ⟨p, w.holds⟩ := by
  refine ⟨?_, hempty⟩
  show List.Forall₂ _ w.holds p.signalsContexts
  rw [hcontexts]
  exact h.masks

lemma Matches.sigprocmask {how : SigHow} {set : Option SigSet} (h : w.Matches s) (hs : s ≤ highestSignal)
    (hw' : w.step s (.sigprocmask how set) = .ok w') : w'.Matches s := by
  obtain ⟨p', hp', rfl⟩ := map_eq_ok.mp hw'
  obtain ⟨⟨r, oldset, q⟩, hq, rfl⟩ := map_eq_ok.mp hp'
  obtain ⟨context, rest, hcontexts, rfl⟩ := sigprogmask_cases hq
  cases set with
  | none => exact h.same hcontexts.symm h.empty
  | some set =>
    have hmasks := h.masks
    rw [hcontexts] at hmasks
    obtain ⟨hold, holds, htop, hrest, heq⟩ := List.forall₂_cons_right_iff.mp hmasks
    refine ⟨?_, h.empty⟩
    simp only [holdsAfter, heq]
    exact .cons (change_own hs htop) hrest

lemma Matches.sigreturn (h : w.Matches s) (hw' : w.step s .sigreturn = .ok w') : w'.Matches s := by
  obtain ⟨p', hp', rfl⟩ := map_eq_ok.mp hw'
  obtain ⟨context, rest, hcontexts, rfl⟩ := signalContextRestore_cases hp'
  have hmasks := h.masks
  rw [hcontexts] at hmasks
  obtain ⟨hold, holds, -, hrest, heq⟩ := List.forall₂_cons_right_iff.mp hmasks
  refine ⟨?_, h.empty⟩
  show List.Forall₂ _ w.holds.tail rest
  rw [heq]
  exact hrest

lemma Matches.resume (h : w.Matches s) (hw' : w.step s .resume = .ok w') : w'.Matches s := by
  obtain ⟨p', hp', rfl⟩ := map_eq_ok.mp hw'
  obtain ⟨⟨r, q⟩, hq, rfl⟩ := map_eq_ok.mp hp'
  obtain ⟨context, rest, hcontexts, hhandled⟩ := signalHandling_cases hq
  have hstarted : w.process.started = r := by rw [started, hq]
  unfold holdsAfter
  rw [hstarted]
  cases hhandled with
  | nothing => exact h.same rfl h.empty
  | ended _ _ => exact h.same rfl h.empty
  | crowded hfull _ _ _ _ _ _ =>
    rw [if_neg (by simp [hfull])]
    exact h.same rfl h.empty
  | @delivered signal addr act hroom _ _ _ _ hact =>
    rw [if_pos ⟨rfl, hroom⟩]
    have hmasks := h.masks
    rw [hcontexts] at hmasks
    obtain ⟨hold, holds, htop, hrest, heq⟩ := List.forall₂_cons_right_iff.mp hmasks
    refine ⟨?_, h.empty⟩
    simp only [heq]
    show List.Forall₂ _ (hold.enter :: hold :: holds) (_ :: w.process.signalsContexts)
    rw [hcontexts]
    refine .cons ?_ (.cons htop hrest)
    rw [h.empty signal act hact]
    cases hold with
    | free => simp [Hold.enter]
    | own => simp [Hold.enter]
    | inherited => simp [Hold.enter]

lemma Matches.step (h : w.Matches s) (hs : s ≤ highestSignal) (hw' : w.step s op = .ok w') :
    w'.Matches s := by
  by_cases hreturn : op = .sigreturn
  · subst hreturn
    exact h.sigreturn hw'
  by_cases hresume : op = .resume
  · subst hresume
    exact h.resume hw'
  by_cases hmask : ∃ how set, op = .sigprocmask how set
  · obtain ⟨how, set, rfl⟩ := hmask
    exact h.sigprocmask hs hw'
  obtain ⟨p', hp', rfl⟩ := map_eq_ok.mp hw'
  have hcontexts := (contexts_of_calm hreturn hresume hp').resolve_left hmask
  have hholds : w.holdsAfter s op = w.holds := by
    cases op with
    | sigreturn => exact absurd rfl hreturn
    | resume => exact absurd rfl hresume
    | sigprocmask how set => exact absurd ⟨how, set, rfl⟩ hmask
    | _ => rfl
  rw [hholds]
  exact h.same hcontexts (empty_masks hreturn hresume h.empty hp')

/-! ## Runs -/

/-- A process whose program runs, with a mask. -/
def start (s : ℕ) (p : SignalState) (mask : SigSet) : Watched :=
  ⟨p, [if mask.getLsbD (sigBit s) then .own else .free]⟩

lemma matches_start {p : SignalState} {base : SignalCtx} (hbase : p.signalsContexts = [base])
    (hempty : ∀ t act, p.oldact t = some act → act.saMask = 0) :
      (start s p base.blockedMask).Matches s := by
  refine ⟨?_, hempty⟩
  show List.Forall₂ _ [_] p.signalsContexts
  rw [hbase]
  refine .cons ?_ .nil
  split_ifs with hbit
  · simp [hbit]
  · simp [hbit]

/-- In every run whose steps heed a signal while it is blocked, a blocked signal is not delivered, and
stays pending. -/
theorem blocked_spared (s : ℕ) (hs : s ≤ highestSignal) (p : SignalState) (base : SignalCtx)
    (hbase : p.signalsContexts = [base])
    (hempty : ∀ t act, p.oldact t = some act → act.saMask = 0) (ops : List SigOp)
    (h : EachCall (step s) (fun w op => w.Held → w.Heeds s op) ops (start s p base.blockedMask)) :
    EachCall (step s) (fun w op => w.Held → w.process.Spared s op) ops (start s p base.blockedMask) := by
  refine EachCall.imp_of_invariant (Q := Matches s) ?_ ?_ (matches_start hbase hempty) h
  · intro w op hmatches hheeds hheld
    by_cases hresume : op = .resume
    · subst hresume
      exact hmatches.spared_resume hs hheld (hheeds hheld)
    · exact spared_call hresume (hheeds hheld)
  · intro w op w' hmatches _ hw'
    exact hmatches.step hs hw'

instance decidableHeld (w : Watched) : Decidable w.Held :=
  inferInstanceAs (Decidable (∃ hold ∈ w.holds.head?, hold ≠ .free))

instance decidableHeeds (s : ℕ) (w : Watched) : DecidablePred (w.Heeds s)
  | .sent signal | .kill signal =>
      inferInstanceAs (Decidable (killSignal signal = s → ¬ w.process.EndsOn s))
  | .resume => inferInstanceAs (Decidable (_ ∧ _))
  | .enter _ _ | .signal _ _ | .sigaction _ _ _ | .sigprocmask _ _ | .sigreturn =>
      inferInstanceAs (Decidable True)

/-- A handler as the C library registers it. -/
def handlerAt (addr : ℕ) : SigAction :=
  { saHandler := .call addr, saFlags := saRestorer, saRestorer := 8192 }

/-- `SIGUSR2` is blocked when it is sent, stays pending, and comes when it is let through. -/
theorem blocked_spared_usr2 :
    EachCall (step 12) (fun w op => w.Held → w.Heeds 12 op)
        [.sigaction 12 (handlerAt 4096) false, .sigprocmask .block (some (BitVec.twoPow 1024 11)), .kill 12,
          .resume, .sigprocmask .unblock (some (BitVec.twoPow 1024 11)), .resume] (start 12 {} 0) ∧
      EachCall (step 12) (fun w op => w.Held → w.process.Spared 12 op)
        [.sigaction 12 (handlerAt 4096) false, .sigprocmask .block (some (BitVec.twoPow 1024 11)), .kill 12,
          .resume, .sigprocmask .unblock (some (BitVec.twoPow 1024 11)), .resume] (start 12 {} 0) :=
  have hheeds : EachCall (step 12) (fun w op => w.Held → w.Heeds 12 op)
      [.sigaction 12 (handlerAt 4096) false, .sigprocmask .block (some (BitVec.twoPow 1024 11)), .kill 12,
        .resume, .sigprocmask .unblock (some (BitVec.twoPow 1024 11)), .resume] (start 12 {} 0) := by
    decide +kernel
  ⟨hheeds, blocked_spared 12 (by decide) {} {} rfl (fun _ _ hact => by cases hact) _ hheeds⟩

/-- `SIGINT` is blocked, and ends the process when it is sent.  `SIGUSR2` is blocked and pending, and
comes while the handler of `SIGUSR1` runs. -/
theorem blocked_not_spared :
    ¬ EachCall (step 2) (fun w op => w.Held → w.process.Spared 2 op)
        [.sigprocmask .block (some (BitVec.twoPow 1024 1)), .kill 2] (start 2 {} 0) ∧
      ¬ EachCall (step 12) (fun w op => w.Held → w.process.Spared 12 op)
        [.sigaction 10 (handlerAt 4096) false, .sigaction 12 (handlerAt 5000) false,
          .sigprocmask .block (some (BitVec.twoPow 1024 11)), .kill 12, .kill 10, .resume, .enter {} {},
          .resume] (start 12 {} 0) := by
  decide +kernel

end Watched

end BrebOS

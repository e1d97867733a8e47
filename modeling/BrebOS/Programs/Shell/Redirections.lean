import BrebOS.Programs.Shell.Frames

/-!
# Redirections and the descriptor table

Around a command that restores the descriptors, `>`, `>>`, `>|` and `<>` execute it once and restore them
themselves, if two descriptors are free.  `<` closes the descriptor that it has just restored, and keeps the
copy.  `>&` and `<&` close the descriptor they duplicate, and do not execute the command at all when it is the
one that is redirected.
-/

namespace BrebOS.Shell

/-! ## What is asked of a redirection -/

/-- The command ends, with the descriptors as they were. -/
def Restores (cmd : Context → Result) : Prop := ∀ c, ∃ c', cmd c = .ok c' ∧ c'.table = c.table

/-- A redirection of a descriptor that is open: the target is a file that opens, or a descriptor that is open. -/
structure Meant (env : Env) (r : RedirInfo) (c : Context) : Prop where
  limit : ∀ i, env.openMax ≤ i → c.table i = none
  isOpen : (c.table.get (getFd r)).isSome
  file : ¬ (r.type = .LA ∨ r.type = .GA) →
    env.opens c.moment r.word = true ∧ ∃ i < env.openMax, c.table i = none
  descriptor : r.type = .LA ∨ r.type = .GA → isNumber r.word = true ∧ (c.table.get (atoi r.word)).isSome

/-- Whatever the command, it is executed once, in the same context, and what it leaves is what is left, with
the descriptors there were. -/
def Transparent (env : Env) (r : RedirInfo) (c : Context) : Prop :=
  ∃ c₁, ∀ cmd, Restores cmd → ∃ c₂, cmd c₁ = .ok c₂ ∧ execRedir env cmd r c =
    .ok { c₂ with table := c.table }

/-- The operators that restore the descriptors. -/
def RedirType.restores : RedirType → Prop
  | .G | .GG | .GO | .LG => True
  | .L | .GA | .LA => False

/-- Two descriptors are free. -/
def TwoFree (env : Env) (c : Context) : Prop :=
  ∃ i j, i ≠ j ∧ i < env.openMax ∧ j < env.openMax ∧ c.table i = none ∧ c.table j = none

section Saved

variable {env : Env} {cmd : Context → Result} {r : RedirInfo} {c c' : Context} {i j k : ℕ} {f g : OpenFile}
  {fd : ℤ}

/-! ## Saving and restoring -/

/-- The context the command is executed in. -/
def redirected (c : Context) (i j k : ℕ) (f g : OpenFile) : Context :=
  { c with table := Function.update (Function.update (Function.update c.table j (some g)) k (some f)) i none }

lemma dupFd_eq (hk : c.table k = some g) (hj : c.table.lowestFree env.openMax = some j) :
    dupFd env k c = .ok (j, { c with table := Function.update c.table j (some g) }) := by
  have hget : c.table.get k = some g := by
    rw [Fds.get_natCast]
    exact hk
  have hne : (j : ℤ) ≠ -1 := by omega
  rw [dupFd, Fds.dup_eq hget, Fds.alloc_eq hj]
  exact if_neg hne

lemma dupFd_eq_ok {d : ℤ} (h : dupFd env fd c = .ok (d, c')) :
    ∃ g j, c.table.get fd = some g ∧ c.table.lowestFree env.openMax = some j ∧ d = j ∧
      c' = { c with table := Function.update c.table j (some g) } := by
  rw [dupFd, Fds.dup] at h
  cases hget : c.table.get fd with
  | none =>
      rw [hget] at h
      cases h
  | some g =>
      rw [hget] at h
      cases hj : c.table.lowestFree env.openMax with
      | none =>
          simp only [Fds.alloc_full hj] at h
          cases h
      | some j =>
          have hne : (j : ℤ) ≠ -1 := by omega
          simp only [Fds.alloc_eq hj, if_neg hne] at h
          cases h
          exact ⟨g, j, rfl, rfl, rfl, rfl⟩

lemma dup2_eq {oldfd : ℤ} (hget : c.table.get oldfd = some f) (hk : k < env.openMax) :
    dup2_ env oldfd k c = .ok { c with table := Function.update c.table k (some f) } := by
  rw [dup2_, Fds.dup2_eq hget hk]

lemma dup2_eq_ok {oldfd newfd : ℤ} (h : dup2_ env oldfd newfd c = .ok c') :
    ∃ f, ∃ k : ℕ, c.table.get oldfd = some f ∧ newfd = k ∧ k < env.openMax ∧
      c' = { c with table := Function.update c.table k (some f) } := by
  rw [dup2_] at h
  split at h
  · next table htable =>
      obtain ⟨f, k, hget, hnew, hk, rfl⟩ := Fds.dup2_eq_some htable
      cases h
      exact ⟨f, k, hget, hnew, hk, rfl⟩
  · cases h

lemma close_eq (h : c.table i = some f) : c.close i =
    { c with table := Function.update c.table i none } := by
  rw [Context.close, Fds.close_eq h]

@[simp] lemma close_apply_self (c : Context) (i : ℕ) : (c.close i).table i = none := by
  cases h : c.table i with
  | none =>
      rw [Context.close, Fds.close, Fds.get_natCast, h]
      exact h
  | some f =>
      rw [close_eq h]
      exact Function.update_self ..

lemma close_apply_of_ne {x : ℕ} (hx : x ≠ i) : (c.close i).table x = c.table x := by
  cases h : c.table i with
  | none => rw [Context.close, Fds.close, Fds.get_natCast, h]
  | some f =>
      rw [close_eq h]
      exact Function.update_of_ne hx _ _

lemma execSaved_eq (hi : c.table i = some f) (hk : c.table k = some g) (hik : i ≠ k)
    (hmax : k < env.openMax)
    (hj : c.table.lowestFree env.openMax = some j) :
    execSaved env cmd i k c =
      (cmd (redirected c i j k f g) >>= fun c => dup2_ env j k c >>= fun c => .ok (c.close j)) := by
  have hfree := (Fds.lowestFree_spec hj).2
  have hij : i ≠ j := by
    rintro rfl
    rw [hi] at hfree
    cases hfree
  rw [execSaved, dupFd_eq hk hj]
  have hfile : Fds.get i (Function.update c.table j (some g)) = some f := by
    rw [Fds.get_natCast, Function.update_of_ne hij]
    exact hi
  show (dup2_ env i k { c with table := Function.update c.table j (some g) } >>= _) = _
  rw [dup2_eq hfile hmax]
  show (cmd (Context.close i { c with
    table := Function.update (Function.update c.table j (some g)) k (some f) }) >>= _) = _
  have hopen : Function.update (Function.update c.table j (some g)) k (some f) i = some f := by
    rw [Function.update_of_ne hik, Function.update_of_ne hij]
    exact hi
  rw [close_eq (c := { c with table := Function.update (Function.update c.table j (some g)) k (some f) }) hopen]
  rfl

lemma restore_eq {c₂ : Context} (hi : c.table i = some f) (hk : c.table k = some g) (hik : i ≠ k)
    (hmax : k < env.openMax) (hj : c.table.lowestFree env.openMax = some j)
    (htable : c₂.table = (redirected c i j k f g).table) :
    (dup2_ env j k c₂ >>= fun c => (.ok (c.close j) : Result)) =
      .ok { c₂ with table := Function.update c.table i none } := by
  have hfree := (Fds.lowestFree_spec hj).2
  have hij : j ≠ i := by
    rintro rfl
    rw [hi] at hfree
    cases hfree
  have hjk : j ≠ k := by
    rintro rfl
    rw [hk] at hfree
    cases hfree
  have hsaved : c₂.table j = some g := by
    rw [htable]
    show Function.update (Function.update (Function.update c.table j (some g)) k (some f)) i none j = _
    rw [Function.update_of_ne hij, Function.update_of_ne hjk, Function.update_self]
  have hget : c₂.table.get j = some g := by
    rw [Fds.get_natCast]
    exact hsaved
  rw [dup2_eq hget hmax]
  have hopen : Function.update c₂.table k (some g) j = some g := by
    rw [Function.update_of_ne hjk]
    exact hsaved
  show Except.ok (Context.close j { c₂ with table := Function.update c₂.table k (some g) }) = _
  rw [close_eq (c := { c₂ with table := Function.update c₂.table k (some g) }) hopen]
  congr 2
  funext x
  rw [htable]
  simp only [redirected, Function.update_apply]
  by_cases hxj : x = j
  · rw [if_pos hxj, if_neg (by omega), hxj]
    exact hfree.symm
  · rw [if_neg hxj]
    by_cases hxk : x = k
    · rw [if_pos hxk, if_neg (by omega), hxk]
      exact hk.symm
    · rw [if_neg hxk, if_neg hxk, if_neg hxj]

/-! ## Opening the target -/

/-- The context after the file was opened as descriptor `i`. -/
def opened (c : Context) (i : ℕ) (mode : AccessMode) : Context :=
  { c.tick with table := Function.update c.table i (some (.file c.nextFile mode)), nextFile := c.nextFile + 1 }

lemma openFile_eq {mode : AccessMode} (hopens : env.opens c.moment r.word = true)
    (hi : c.table.lowestFree env.openMax = some i) : openFile env r.word mode c =
      (↑i, opened c i mode) := by
  rw [openFile, if_pos hopens, Fds.alloc_eq hi]
  rfl

lemma openFile_cases (env : Env) (word : Word) (mode : AccessMode) (c : Context) :
    (∃ o, openFile env word mode c = (-1, o)) ∨
      ∃ i, c.table.lowestFree env.openMax = some i ∧ openFile env word mode c = (↑i, opened c i mode) := by
  rw [openFile]
  split_ifs
  · cases hi : c.table.lowestFree env.openMax with
    | none =>
        rw [Fds.alloc_full hi]
        exact Or.inl ⟨_, rfl⟩
    | some i =>
        rw [Fds.alloc_eq hi]
        exact Or.inr ⟨i, rfl, rfl⟩
  · exact Or.inl ⟨_, rfl⟩

lemma opened_lowestFree (mode : AccessMode) (hi : c.table.lowestFree env.openMax = some i) :
    (∃ j, (opened c i mode).table.lowestFree env.openMax = some j) ↔ TwoFree env c := by
  obtain ⟨hlt, hfree⟩ := Fds.lowestFree_spec hi
  constructor
  · rintro ⟨j, hj⟩
    obtain ⟨hjlt, hjfree⟩ := Fds.lowestFree_spec hj
    have hij : j ≠ i := by
      rintro rfl
      simp [opened] at hjfree
    have hjc : c.table j = none := by
      rw [← hjfree]
      exact (Function.update_of_ne hij _ _).symm
    exact ⟨j, i, hij, hjlt, hlt, hjc, hfree⟩
  · rintro ⟨a, b, hab, ha, hb, hafree, hbfree⟩
    by_cases hai : a = i
    · have hbi : b ≠ i := fun h => hab (hai.trans h.symm)
      exact Fds.exists_lowestFree hb ((Function.update_of_ne hbi _ _).trans hbfree)
    · exact Fds.exists_lowestFree ha ((Function.update_of_ne hai _ _).trans hafree)

lemma opened_apply (mode : AccessMode) (hi : c.table i = none) (hk : c.table k = some g) :
    i ≠ k ∧ (opened c i mode).table k = some g := by
  have hik : k ≠ i := by
    rintro rfl
    rw [hi] at hk
    cases hk
  exact ⟨hik.symm, (Function.update_of_ne hik _ _).trans hk⟩

/-! ## The operators that restore the descriptors -/

lemma saved_transparent (mode : AccessMode) (hi : c.table.lowestFree env.openMax = some i)
    (hk : c.table k = some g) (hmax : k < env.openMax) (htwo : TwoFree env c) :
    ∃ c₁, ∀ cmd, Restores cmd → ∃ c₂, cmd c₁ = .ok c₂ ∧
      execSaved env cmd i k (opened c i mode) = .ok { c₂ with table := c.table } := by
  obtain ⟨-, hfree⟩ := Fds.lowestFree_spec hi
  obtain ⟨hik, hk'⟩ := opened_apply mode hfree hk
  obtain ⟨j, hj⟩ := (opened_lowestFree mode hi).mpr htwo
  have hi' : (opened c i mode).table i = some (.file c.nextFile mode) := Function.update_self ..
  refine ⟨redirected (opened c i mode) i j k (.file c.nextFile mode) g, fun cmd hcmd => ?_⟩
  obtain ⟨c₂, hrun, htable⟩ := hcmd (redirected (opened c i mode) i j k (.file c.nextFile mode) g)
  refine ⟨c₂, hrun, ?_⟩
  rw [execSaved_eq hi' hk' hik hmax hj, hrun]
  refine (restore_eq hi' hk' hik hmax hj htable).trans ?_
  congr 2
  funext x
  by_cases hx : x = i
  · rw [hx, Function.update_self, hfree]
  · rw [Function.update_of_ne hx]
    exact Function.update_of_ne hx _ _

lemma saved_twoFree {mode : AccessMode} (hi : c.table.lowestFree env.openMax = some i)
    (h : execSaved env cmd i fd (opened c i mode) = .ok c') : TwoFree env c := by
  obtain ⟨⟨d, c₁⟩, hdup, -⟩ := bind_eq_ok.mp h
  obtain ⟨-, j, -, hj, -⟩ := dupFd_eq_ok hdup
  exact (opened_lowestFree mode hi).mp ⟨j, hj⟩

/-! ## The operators that do not -/

lemma restores_ok (n : ℤ) : Restores fun c => .ok { c with lastRv := n } := fun _ => ⟨_, rfl, rfl⟩

lemma execRedirInput_closes (h : execRedirInput env cmd r c = .ok c') : c'.table.get (getFd r) = none := by
  rw [execRedirInput] at h
  dsimp only at h
  split_ifs at h
  · cases h
  · cases h
  · obtain ⟨⟨d, c₁⟩, -, h⟩ := bind_eq_ok.mp h
    obtain ⟨c₂, -, h⟩ := bind_eq_ok.mp h
    obtain ⟨c₃, -, h⟩ := bind_eq_ok.mp h
    obtain ⟨c₄, hdup2, h⟩ := bind_eq_ok.mp h
    obtain ⟨f, k, -, hk, -, rfl⟩ := dup2_eq_ok hdup2
    cases h
    rw [hk, Fds.get_natCast]
    exact close_apply_self ..

lemma execRedirDuplicate_self (hnum : isNumber r.word = true) (hself : atoi r.word = getFd r)
    (cmd' : Context → Result) :
    execRedirDuplicate env cmd r c = execRedirDuplicate env cmd' r c := by
  rw [execRedirDuplicate, execRedirDuplicate]
  simp only [hnum, hself, if_true]

lemma execRedirDuplicate_closes (hnum : isNumber r.word = true) (hne : atoi r.word ≠ getFd r)
    (hisOpen : (c.table.get (getFd r)).isSome) (hout : c.table.get (atoi r.word) = some f) (n : ℤ)
    (h : execRedirDuplicate env (fun c => .ok { c with lastRv := n }) r c = .ok c') :
    c'.table.get (atoi r.word) = none := by
  obtain ⟨o, ho, hof⟩ := Fds.get_eq_some.mp hout
  rw [execRedirDuplicate] at h
  simp only [hnum, if_true] at h
  obtain ⟨⟨d, c₁⟩, hsave, h⟩ := bind_eq_ok.mp h
  rw [saveFd, if_pos hisOpen] at hsave
  obtain ⟨g, j, hg, hj, rfl, rfl⟩ := dupFd_eq_ok hsave
  have hcopy : (j : ℤ) ≠ -1 := by omega
  simp only [hne, hcopy, if_false] at h
  split_ifs at h
  · obtain ⟨c₂, hdup2, h⟩ := bind_eq_ok.mp h
    obtain ⟨f', k, -, hk, -, rfl⟩ := dup2_eq_ok hdup2
    obtain ⟨c₃, hrun, h⟩ := bind_eq_ok.mp h
    cases hrun
    obtain ⟨c₄, hback, h⟩ := bind_eq_ok.mp h
    obtain ⟨f'', k', -, hk', -, rfl⟩ := dup2_eq_ok hback
    cases h
    have hok : o ≠ k' := by
      rintro rfl
      exact hne (ho.trans hk'.symm)
    have hoj : o ≠ j := by
      rintro rfl
      rw [(Fds.lowestFree_spec hj).2] at hof
      cases hof
    rw [ho, Fds.get_natCast, close_apply_of_ne hoj]
    refine (Function.update_of_ne hok _ _).trans ?_
    exact close_apply_self ..
  · cases h

/-! ## One redirection -/

lemma Meant.redirects (h : Meant env r c) : ∃ k : ℕ, ∃ g, getFd r = k ∧ c.table k = some g ∧
    k < env.openMax := by
  obtain ⟨g, hg⟩ := Option.isSome_iff_exists.mp h.isOpen
  obtain ⟨k, hk, hkg⟩ := Fds.get_eq_some.mp hg
  refine ⟨k, g, hk, hkg, ?_⟩
  by_contra hge
  rw [h.limit k (by omega)] at hkg
  cases hkg

lemma Meant.transparent_iff_twoFree (h : Meant env r c) (hkind : ¬ (r.type = .LA ∨ r.type = .GA))
    (mode : AccessMode)
    (heq : ∀ cmd, execRedir env cmd r c =
      execSaved env cmd (openFile env r.word mode c).1 (getFd r) (openFile env r.word mode c).2) :
    Transparent env r c ↔ TwoFree env c := by
  obtain ⟨k, g, hk, hkg, hmax⟩ := h.redirects
  obtain ⟨hopens, a, ha, hafree⟩ := h.file hkind
  obtain ⟨i, hi⟩ := Fds.exists_lowestFree ha hafree
  simp only [openFile_eq hopens hi, hk] at heq
  constructor
  · rintro ⟨c₁, htr⟩
    obtain ⟨c₂, -, hrun⟩ := htr _ (restores_ok 0)
    rw [heq] at hrun
    exact saved_twoFree hi hrun
  · intro htwo
    obtain ⟨c₁, hsaved⟩ := saved_transparent mode hi hkg hmax htwo
    refine ⟨c₁, fun cmd hcmd => ?_⟩
    rw [heq]
    exact hsaved cmd hcmd

lemma Meant.output_transparent_iff (h : Meant env r c) (hkind : ¬ (r.type = .LA ∨ r.type = .GA))
    (heq : ∀ cmd, execRedir env cmd r c = execRedirOutput env cmd r c) : Transparent env r c ↔
      TwoFree env c := by
  refine h.transparent_iff_twoFree hkind .wronly fun cmd => (heq cmd).trans ?_
  obtain ⟨g, hg⟩ := Option.isSome_iff_exists.mp h.isOpen
  simp only [execRedirOutput, hg]
  rfl

lemma Meant.duplicate_not_transparent (h : Meant env r c) (hkind : r.type = .LA ∨ r.type = .GA)
    (heq : ∀ cmd, execRedir env cmd r c = execRedirDuplicate env cmd r c) : ¬ Transparent env r c := by
  rintro ⟨c₁, htr⟩
  obtain ⟨hnum, hout⟩ := h.descriptor hkind
  by_cases hself : atoi r.word = getFd r
  · -- two commands that leave different results would leave the same one
    obtain ⟨c₂, hc₂, h₀⟩ := htr _ (restores_ok 0)
    obtain ⟨c₃, hc₃, h₁⟩ := htr _ (restores_ok 1)
    rw [heq, execRedirDuplicate_self hnum hself fun c => .ok { c with lastRv := 1 }, ← heq, h₁] at h₀
    cases hc₂
    cases hc₃
    have hsame := congrArg Context.lastRv (Except.ok.inj h₀)
    exact absurd hsame one_ne_zero
  · obtain ⟨f, hf⟩ := Option.isSome_iff_exists.mp hout
    obtain ⟨c₂, -, hrun⟩ := htr _ (restores_ok 0)
    rw [heq] at hrun
    have hclosed := execRedirDuplicate_closes hnum hself h.isOpen hf 0 hrun
    rw [hf] at hclosed
    cases hclosed

lemma Meant.input_not_transparent (h : Meant env r c)
    (heq : ∀ cmd, execRedir env cmd r c = execRedirInput env cmd r c) : ¬ Transparent env r c := by
  rintro ⟨c₁, htr⟩
  obtain ⟨c₂, -, hrun⟩ := htr _ (restores_ok 0)
  rw [heq] at hrun
  have hopen := h.isOpen
  rw [execRedirInput_closes hrun] at hopen
  cases hopen

/-- **When a redirection is transparent.** -/
lemma transparent_iff (h : Meant env r c) : Transparent env r c ↔ r.type.restores ∧ TwoFree env c := by
  cases htype : r.type with
  | G =>
      rw [h.output_transparent_iff (by rw [htype]; decide) fun cmd => by rw [execRedir, htype],
        RedirType.restores,
        true_and]
  | GG =>
      rw [h.output_transparent_iff (by rw [htype]; decide) fun cmd => by rw [execRedir, htype],
        RedirType.restores,
        true_and]
  | GO =>
      rw [h.output_transparent_iff (by rw [htype]; decide) fun cmd => by rw [execRedir, htype],
        RedirType.restores,
        true_and]
  | LG =>
      rw [h.transparent_iff_twoFree
        (by rw [htype]; decide) .rdonly fun cmd => by rw [execRedir, htype]; rfl,
        RedirType.restores, true_and]
  | L =>
      rw [RedirType.restores, false_and, iff_false]
      exact h.input_not_transparent fun cmd => by rw [execRedir, htype]
  | LA =>
      rw [RedirType.restores, false_and, iff_false]
      exact h.duplicate_not_transparent (Or.inl htype) fun cmd => by rw [execRedir, htype]
  | GA =>
      rw [RedirType.restores, false_and, iff_false]
      exact h.duplicate_not_transparent (Or.inr htype) fun cmd => by rw [execRedir, htype]

/-! ## Nested redirections -/

/-- The descriptors in `keep` are open. -/
def Opens (keep : ℤ → Prop) (c : Context) : Prop := ∀ fd, keep fd → (c.table.get fd).isSome

/-- A redirection that restores the descriptors; `<>` does not look whether its own is open. -/
def Restoring (keep : ℤ → Prop) (r : RedirInfo) : Prop := r.type.restores ∧ (r.type = .LG → keep (getFd r))

/-- While the descriptors in `keep` are open, the table stays the same. -/
def SameTable (keep : ℤ → Prop) (c c' : Context) : Prop := Opens keep c → c'.table = c.table

lemma sameTable_frame (keep : ℤ → Prop) : Frame (SameTable keep) := by
  refine ⟨fun c c' htable _ _ _ => htable, fun c c' c'' h h' hopens => ?_⟩
  have htable := h hopens
  have hopens' : Opens keep c' := by
    intro fd hfd
    rw [htable]
    exact hopens fd hfd
  exact (h' hopens').trans htable

lemma close_listFunc (fd : ℤ) (c : Context) : (c.close fd).listFunc = c.listFunc := by
  unfold Context.close
  split
  · rfl
  · rfl

lemma execSaved_inv {file : ℤ} (h : execSaved env cmd file fd c = .ok c') :
    ∃ g, ∃ k : ℕ, c.table.get fd = some g ∧ fd = k ∧ k < env.openMax ∧ file ≠ -1 ∧
      ∃ j, c.table.lowestFree env.openMax = some j ∧
        ∃ c₁ c₂, c₁.listFunc = c.listFunc ∧ cmd c₁ = .ok c₂ ∧ c'.listFunc = c₂.listFunc := by
  obtain ⟨⟨d, a⟩, hdup, h⟩ := bind_eq_ok.mp h
  obtain ⟨g, j, hg, hj, -, rfl⟩ := dupFd_eq_ok hdup
  obtain ⟨b, hdup2, h⟩ := bind_eq_ok.mp h
  obtain ⟨f, k, hfile, hk, hmax, rfl⟩ := dup2_eq_ok hdup2
  obtain ⟨c₂, hrun, h⟩ := bind_eq_ok.mp h
  obtain ⟨e, hback, h⟩ := bind_eq_ok.mp h
  obtain ⟨f', k', -, -, -, rfl⟩ := dup2_eq_ok hback
  cases h
  refine ⟨g, k, hg, hk, hmax, ?_, j, hj, _, c₂, ?_, hrun, close_listFunc ..⟩
  · rintro rfl
    cases hfile
  · exact close_listFunc ..

variable {redirs : RedirInfo → Prop} {pipes : Prop} {keep : ℤ → Prop}

lemma redirected_opens {mode : AccessMode} (hi : c.table i = none)
    (hj : (opened c i mode).table.lowestFree env.openMax = some j) (hopens : Opens keep c) :
    Opens keep (redirected (opened c i mode) i j k f g) := by
  intro fd hfd
  obtain ⟨e, he⟩ := Option.isSome_iff_exists.mp (hopens fd hfd)
  obtain ⟨n, rfl, hn⟩ := Fds.get_eq_some.mp he
  obtain ⟨hin, hn'⟩ := opened_apply mode hi hn
  have hnj : n ≠ j := by
    rintro rfl
    rw [(Fds.lowestFree_spec hj).2] at hn'
    cases hn'
  rw [Fds.get_natCast]
  simp only [redirected, Function.update_apply, hnj, hin.symm, if_false]
  split_ifs
  · rfl
  · rw [hn']
    rfl

/-- **A file in the place of an open descriptor**, around a command that keeps the table. -/
lemma saved_keeps {mode : AccessMode} (hcmd : Keeps (FunsAllowed redirs pipes) (SameTable keep) cmd)
    (hc : FunsAllowed redirs pipes c)
    (hopen : Opens keep c → (c.table.get fd).isSome)
    (h : execSaved env cmd (openFile env r.word mode c).1 fd (openFile env r.word mode c).2 = .ok c') :
    SameTable keep c c' ∧ FunsAllowed redirs pipes c' := by
  obtain ⟨g, k, hg, rfl, hmax, hfile, j, hj, c₁, c₂, hc₁, hrun, hc'⟩ := execSaved_inv h
  rcases openFile_cases env r.word mode c with ⟨o, ho⟩ | ⟨i, hi, ho⟩
  · rw [ho] at hfile
    exact absurd rfl hfile
  · rw [ho] at h hg hj hc₁
    obtain ⟨-, hfree⟩ := Fds.lowestFree_spec hi
    have hfuns : FunsAllowed redirs pipes c₁ := by
      rw [FunsAllowed, hc₁]
      show ∀ f ∈ c.tick.listFunc, _
      rw [tick_listFunc]
      exact hc
    constructor
    · intro hopens
      obtain ⟨g', hg'⟩ := Option.isSome_iff_exists.mp (hopen hopens)
      rw [Fds.get_natCast] at hg'
      obtain ⟨hik, hk'⟩ := opened_apply mode hfree hg'
      have hi' : (opened c i mode).table i = some (.file c.nextFile mode) := Function.update_self ..
      rw [execSaved_eq hi' hk' hik hmax hj] at h
      obtain ⟨c₃, hrun', h⟩ := bind_eq_ok.mp h
      have hredirected : FunsAllowed redirs pipes
        (redirected (opened c i mode) i j k (.file c.nextFile mode) g') := by
        show ∀ f ∈ c.tick.listFunc, _
        rw [tick_listFunc]
        exact hc
      have htable := (hcmd _ _ hredirected hrun').1 (redirected_opens hfree hj hopens)
      rw [restore_eq hi' hk' hik hmax hj htable] at h
      cases h
      funext x
      by_cases hx : x = i
      · rw [hx, hfree]
        exact Function.update_self ..
      · exact (Function.update_of_ne hx _ _).trans (Function.update_of_ne hx _ _)
    · rw [FunsAllowed, hc']
      exact (hcmd _ _ hfuns hrun).2

/-- **A redirection** that restores the descriptors, around a command that keeps the table. -/
lemma execRedir_keeps (hr : Restoring keep r)
    (hcmd : Keeps (FunsAllowed redirs pipes) (SameTable keep) cmd) :
    Keeps (FunsAllowed redirs pipes) (SameTable keep) (execRedir env cmd r) := by
  have houtput : ∀ c c', FunsAllowed redirs pipes c → execRedirOutput env cmd r c = .ok c' →
      SameTable keep c c' ∧ FunsAllowed redirs pipes c' := by
    intro c c' hc h
    rw [execRedirOutput] at h
    dsimp only at h
    split_ifs at h with hnone
    · cases h
    · exact saved_keeps hcmd hc (fun _ => by simpa [Option.isSome_iff_ne_none] using hnone) h
  obtain ⟨hrestores, hkeep⟩ := hr
  intro c c' hc h
  rw [execRedir] at h
  cases htype : r.type with
  | G =>
      rw [htype] at h
      exact houtput c c' hc h
  | GG =>
      rw [htype] at h
      exact houtput c c' hc h
  | GO =>
      rw [htype] at h
      exact houtput c c' hc h
  | LG =>
      rw [htype] at h
      exact saved_keeps hcmd hc (fun hopens => hopens _ (hkeep htype)) h
  | L =>
      rw [htype] at hrestores
      exact hrestores.elim
  | LA =>
      rw [htype] at hrestores
      exact hrestores.elim
  | GA =>
      rw [htype] at hrestores
      exact hrestores.elim

lemma runInputs_sameTable (n : ℕ) {inputs : List Ast}
    (hast : ∀ ast ∈ inputs, ast.Allowed (Restoring keep) False) :
    Keeps (FunsAllowed (Restoring keep) False) (SameTable keep) (runInputs env n inputs) := by
  have hexec : ∀ ast, ast.Allowed (Restoring keep) False →
      Keeps (FunsAllowed (Restoring keep) False) (SameTable keep) (exec env n ast) :=
    exec_keeps (sameTable_frame keep) (fun _ _ => execRedir_keeps) False.elim n
  induction inputs with
  | nil => exact keeps_ok fun c hc => (sameTable_frame keep).unchanged rfl rfl rfl rfl hc
  | cons ast inputs ih =>
      intro c c' hc h
      rw [runInputs, List.foldlM_cons] at h
      obtain ⟨c₁, hrun, h⟩ := bind_eq_ok.mp h
      obtain ⟨hr, hc₁⟩ := execList_keeps (sameTable_frame keep) hexec
        (hast ast (List.mem_cons_self ..)) c c₁ hc hrun
      obtain ⟨hr', hc'⟩ := ih (fun a ha => hast a (List.mem_cons_of_mem _ ha)) c₁ c' hc₁ h
      exact ⟨(sameTable_frame keep).trans _ _ _ hr hr', hc'⟩

end Saved

/-- Eight descriptors; every file opens, and every program ends with 0. -/
def smallEnv : Env where
  openMax := 8
  expand := fun _ words => words
  run := fun _ _ => 0
  opens := fun _ _ => true
  forks := fun _ => true

/-- A shell with its three streams. -/
def started : Context where
  table := fun i => if i < 3 then some (.file i .rdwr) else none
  nextFile := 3

/-- The input `{ true > a; } >> b`. -/
def nestedOutput : Ast :=
  .list (.redir ⟨.GG, -1, ['b']⟩
    (.list (.redir ⟨.G, -1, ['a']⟩ (.argv [['t', 'r', 'u', 'e']])) .null)) .null

lemma started_meant {type : RedirType} (hkind : ¬ (type = .LA ∨ type = .GA)) :
    Meant smallEnv ⟨type, 0, ['a']⟩ started := by
  refine ⟨?_, rfl, fun _ => ⟨rfl, 3, ?_, rfl⟩, fun h => absurd h hkind⟩
  · intro i hi
    have hle : 8 ≤ i := hi
    exact if_neg (by omega)
  · decide

end BrebOS.Shell

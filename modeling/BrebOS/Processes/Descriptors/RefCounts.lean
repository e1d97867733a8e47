import BrebOS.Processes.Descriptors.Cursors

/-!
# Reference counts of open files

`rc` of an open file is the number of descriptors for it, and a file is open exactly as long as there
are any.  The first is part of the invariant; for the second, a file without descriptors exists only
between the parts of a call: `UsedBut` names those files.
-/

namespace BrebOS

namespace FileTable

variable {v v' : FileTable} {fd : ℕ} {X : List ℕ} {f : FileInterface}

/-- All files but some have a positive count, and no count is negative. -/
def UsedBut (X : List ℕ) (v : FileTable) : Prop :=
  ∀ fd f, v.files fd = some f → 0 ≤ f.rc ∧ (fd ∉ X → 0 < f.rc)

lemma UsedBut.congr (h : v.UsedBut X) (hfiles : v'.files = v.files) : v'.UsedBut X := by
  intro fd f hf
  exact h fd f (hfiles ▸ hf)

lemma UsedBut.mono {Y : List ℕ} (h : v.UsedBut X) (hXY : X ⊆ Y) : v.UsedBut Y := by
  intro x f hf
  obtain ⟨hpos, hrest⟩ := h x f hf
  exact ⟨hpos, fun hx => hrest fun hmem => hx (hXY hmem)⟩

lemma UsedBut.cons (h : v.UsedBut X) (fd : ℕ) : v.UsedBut (fd :: X) := h.mono (List.subset_cons_self fd X)

lemma UsedBut.add (h : v.UsedBut X) (hrc : f.rc = 0)
    (hfiles : v'.files = Function.update v.files fd (some f)) : v'.UsedBut (fd :: X) := by
  intro x g hg
  rw [hfiles] at hg
  rcases eq_or_ne x fd with rfl | hne
  · rw [Function.update_self, Option.some.injEq] at hg
    subst hg
    exact ⟨le_of_eq hrc.symm, fun hx => absurd List.mem_cons_self hx⟩
  · rw [Function.update_of_ne hne] at hg
    obtain ⟨hpos, hrest⟩ := h x g hg
    exact ⟨hpos, fun hx => hrest fun hmem => hx (List.mem_cons_of_mem _ hmem)⟩

lemma UsedBut.addRef (h : v.UsedBut (fd :: X)) (hrun : v.addRef fd = .ok v') : v'.UsedBut X := by
  unfold FileTable.addRef at hrun
  rcases hf : v.files fd with _ | f
  · simp [hf] at hrun
  · rw [hf] at hrun
    obtain rfl : v.setFile fd (some { f with rc := f.rc + 1 }) = v' := by simpa using hrun
    intro x g hg
    have hg : Function.update v.files fd _ x = some g := hg
    rcases eq_or_ne x fd with rfl | hne
    · rw [Function.update_self, Option.some.injEq] at hg
      subst hg
      have hpos := (h x f hf).1
      exact ⟨by simp only; omega, fun _ => by simp only; omega⟩
    · rw [Function.update_of_ne hne] at hg
      obtain ⟨hpos, hrest⟩ := h x g hg
      exact ⟨hpos, fun hx => hrest (by simp [hne, hx])⟩

lemma UsedBut.dropRef (h : v.UsedBut []) (hrun : v.dropRef fd = .ok v') : v'.UsedBut [fd] := by
  unfold FileTable.dropRef at hrun
  rcases hf : v.files fd with _ | f
  · simp [hf] at hrun
  · rw [hf] at hrun
    obtain rfl : v.setFile fd (some { f with rc := f.rc - 1 }) = v' := by simpa using hrun
    intro x g hg
    have hg : Function.update v.files fd _ x = some g := hg
    rcases eq_or_ne x fd with rfl | hne
    · rw [Function.update_self, Option.some.injEq] at hg
      subst hg
      have hpos := (h x f hf).2 (by simp)
      exact ⟨by simp only; omega, fun hx => absurd List.mem_cons_self hx⟩
    · rw [Function.update_of_ne hne] at hg
      obtain ⟨hpos, hrest⟩ := h x g hg
      exact ⟨hpos, fun _ => hrest (by simp)⟩

end FileTable

namespace Descriptors

variable {α β : Type} {s s' : Descriptors} {pid child i fd sysFd : ℕ} {X : List ℕ} {d : FileDescriptor}

/-- A call that leaves every file with a descriptor. -/
def LeavesUsed (r : Except Fault (α × Descriptors)) : Prop :=
  ∀ a s', r = .ok (a, s') → s'.vfs.UsedBut []

/-! ## The parts of the calls -/

lemma vfs_wake {writeFd readFd count : ℕ}
    (h : s.wakeUpReadWaitingProcesses writeFd readFd count = .ok s') : s'.vfs = s.vfs := by
  obtain ⟨⟨waiting, resumed⟩, -, hs'⟩ := bind_eq_ok.mp h
  obtain rfl : resumed.foldl resume { s with waiting } = s' := by simpa using hs'
  have hfold : ∀ (l : List ProcWaitingForRead) (s : Descriptors), (l.foldl resume s).vfs = s.vfs := by
    intro l
    induction l with
    | nil =>
      intro s
      rfl
    | cons w l ih =>
      intro s
      rw [List.foldl_cons, ih]
      rfl
  exact hfold resumed _

lemma used_vfsClose (h : s.vfs.UsedBut [fd]) : LeavesUsed (s.vfsClose fd) := by
  intro r s' hrun
  unfold vfsClose at hrun
  rcases hf : s.vfs.files fd with _ | f
  · obtain ⟨-, rfl⟩ : _ = r ∧ s = s' := by simpa [hf] using hrun
    intro x g hg
    obtain ⟨hpos, hrest⟩ := h x g hg
    refine ⟨hpos, fun _ => hrest ?_⟩
    rintro hx
    rw [List.mem_singleton.mp hx, hf] at hg
    cases hg
  rw [hf] at hrun
  by_cases hrc : f.rc = 0
  · have hremoved : (s.vfs.remove fd f).UsedBut [] := by
      intro x g hg
      rw [files_remove] at hg
      rcases eq_or_ne x fd with rfl | hne
      · simp at hg
      · rw [Function.update_of_ne hne] at hg
        obtain ⟨hpos, hrest⟩ := h x g hg
        exact ⟨hpos, fun _ => hrest (by simp [hne])⟩
    simp only [hrc, if_true] at hrun
    split at hrun
    · obtain ⟨s₁, hwake, hs'⟩ := bind_eq_ok.mp hrun
      obtain ⟨-, rfl⟩ : _ = r ∧ s₁ = s' := by simpa using hs'
      rw [vfs_wake hwake]
      exact hremoved
    · obtain ⟨-, rfl⟩ : _ = r ∧ _ = s' := by simpa using hrun
      exact hremoved
  · obtain ⟨-, rfl⟩ : _ = r ∧ s = s' := by simpa [hrc] using hrun
    intro x g hg
    obtain ⟨hpos, hrest⟩ := h x g hg
    refine ⟨hpos, fun _ => ?_⟩
    rcases eq_or_ne x fd with rfl | hne
    · obtain rfl : f = g := by simpa [hf] using hg
      omega
    · exact hrest (by simp [hne])

lemma vfs_releaseFd (h : s.releaseFd pid i = .ok s') :
    ((s.table pid).slots i = none ∧ s'.vfs = s.vfs) ∨
      ∃ d, (s.table pid).slots i = some d ∧ s.vfs.dropRef d.sysFd = .ok s'.vfs := by
  unfold releaseFd at h
  rcases hd : (s.table pid).slots i with _ | d
  · rw [hd] at h
    obtain rfl : _ = s' := by simpa [bind, Except.bind] using h
    exact Or.inl ⟨rfl, rfl⟩
  · rw [hd] at h
    obtain ⟨v, hv, hs'⟩ := bind_eq_ok.mp h
    obtain rfl : _ = s' := by simpa using hs'
    exact Or.inr ⟨d, rfl, hv⟩

lemma slots_releaseFd (h : s.releaseFd pid i = .ok s') :
    (s'.table pid).slots = Function.update (s.table pid).slots i none := by
  unfold releaseFd at h
  rcases hd : (s.table pid).slots i with _ | d
  · rw [hd] at h
    obtain rfl : _ = s' := by simpa [bind, Except.bind] using h
    rw [table_setTable]
    rfl
  · rw [hd] at h
    obtain ⟨v, -, hs'⟩ := bind_eq_ok.mp h
    obtain rfl : _ = s' := by simpa using hs'
    rw [table_setTable]
    rfl

lemma used_close (h : s.vfs.UsedBut []) (fd : ℤ) : LeavesUsed (s.close pid fd) := by
  intro r s' hrun
  obtain ⟨found, hfound, hrun⟩ := bind_eq_ok.mp hrun
  rcases found with _ | sysFd
  · obtain ⟨-, rfl⟩ : _ = r ∧ s = s' := by simpa using hrun
    exact h
  · obtain ⟨s₁, hrel, hclose⟩ := bind_eq_ok.mp hrun
    have hslot : ∃ d, (s.table pid).slots fd.toNat = some d ∧ d.sysFd = sysFd := by
      unfold procToSysFd at hfound
      split_ifs at hfound
      · rcases hd : (s.table pid).slots fd.toNat with _ | d
        · simp [hd] at hfound
        · refine ⟨d, rfl, ?_⟩
          rw [hd] at hfound
          rcases hf : s.vfs.files d.sysFd with _ | f
          · simp [hf] at hfound
          · simpa [hf] using hfound
      · simp at hfound
    obtain ⟨d, hd, rfl⟩ := hslot
    rcases vfs_releaseFd hrel with ⟨hnone, -⟩ | ⟨d', hd', hdrop⟩
    · rw [hnone] at hd
      cases hd
    · obtain rfl : d = d' := by simpa [hd] using hd'
      exact used_vfsClose (h.dropRef hdrop) r s' hclose

lemma used_install (h : s.vfs.UsedBut (d.sysFd :: X)) (hrun : s.install pid i d = .ok s') :
    s'.vfs.UsedBut X := by
  obtain ⟨v, hv, hs'⟩ := bind_eq_ok.mp hrun
  obtain rfl : _ = s' := by simpa using hs'
  exact h.addRef hv

lemma vfs_getFreeFd {r : Option ℕ} (hrun : s.getFreeFd pid = .ok (r, s')) : s'.vfs = s.vfs ∧
    (s'.table pid).slots = (s.table pid).slots ∧ ∀ fd, r = some fd → (s.table pid).slots fd = none := by
  rcases s.getFreeFd_cases pid with ⟨e, he, -⟩ | hok | ⟨-, hslot, hok⟩
  · rw [he] at hrun
    cases hrun
  · rw [hok] at hrun
    obtain ⟨rfl, rfl⟩ : none = r ∧ _ = s' := by simpa using hrun
    refine ⟨rfl, by rw [table_setTable], ?_⟩
    intro fd hfd
    cases hfd
  · rw [hok] at hrun
    obtain ⟨rfl, rfl⟩ : some _ = r ∧ _ = s' := by simpa using hrun
    refine ⟨rfl, by rw [table_setTable]; rfl, ?_⟩
    intro fd hfd
    obtain rfl : _ = fd := by simpa using hfd
    exact hslot

/-! ## The calls -/

lemma used_openFile (h : s.vfs.UsedBut []) (err : Option OpenError) :
    LeavesUsed (s.openFile pid err) := by
  intro r s' hrun
  obtain ⟨⟨found, s₁⟩, hfree, hrun⟩ := bind_eq_ok.mp hrun
  obtain ⟨hvfs, hslots, hnone⟩ := vfs_getFreeFd hfree
  have h₁ : s₁.vfs.UsedBut [] := h.congr (by rw [hvfs])
  rcases found with _ | fd
  · obtain ⟨-, rfl⟩ : _ = r ∧ s₁ = s' := by simpa using hrun
    exact h₁
  simp only at hrun
  rcases hopen : s₁.vfs.openFile err with ⟨e | sysFd, v⟩
  · rw [hopen] at hrun
    obtain ⟨s₂, hrel, hs'⟩ := bind_eq_ok.mp hrun
    obtain ⟨-, rfl⟩ : _ = r ∧ s₂ = s' := by simpa using hs'
    rcases vfs_releaseFd hrel with ⟨-, hvfs'⟩ | ⟨d, hd, -⟩
    · exact h₁.congr (by rw [hvfs', (FileTable.openFile_error hopen).1])
    · have hd : (s₁.table pid).slots fd = some d := hd
      rw [hslots, hnone fd rfl] at hd
      cases hd
  · rw [hopen] at hrun
    obtain ⟨s₂, hins, hs'⟩ := bind_eq_ok.mp hrun
    obtain ⟨-, rfl⟩ : _ = r ∧ s₂ = s' := by simpa using hs'
    exact used_install (h₁.add rfl (FileTable.openFile_spec hopen).2.2.1) hins

lemma used_dup (h : s.vfs.UsedBut []) (oldFd : ℤ) : LeavesUsed (s.dup pid oldFd) := by
  intro r s' hrun
  obtain ⟨found, -, hrun⟩ := bind_eq_ok.mp hrun
  rcases found with _ | sysFd
  · obtain ⟨-, rfl⟩ : _ = r ∧ s = s' := by simpa using hrun
    exact h
  obtain ⟨⟨found, s₁⟩, hfree, hrun⟩ := bind_eq_ok.mp hrun
  have h₁ : s₁.vfs.UsedBut [] := h.congr (by rw [(vfs_getFreeFd hfree).1])
  rcases found with _ | fd
  · obtain ⟨-, rfl⟩ : _ = r ∧ s₁ = s' := by simpa using hrun
    exact h₁
  · obtain ⟨s₂, hins, hs'⟩ := bind_eq_ok.mp hrun
    obtain ⟨-, rfl⟩ : _ = r ∧ s₂ = s' := by simpa using hs'
    exact used_install (h₁.cons _) hins

lemma used_closed {r : Except Fault (ℤ × Descriptors)} (h : LeavesUsed r)
    (hrun : r.map Prod.snd = .ok s') : s'.vfs.UsedBut [] := by
  obtain ⟨⟨a, s'⟩, hr, rfl⟩ := map_eq_ok.mp hrun
  exact h a s' hr

lemma used_dup2 (h : s.vfs.UsedBut []) (oldFd newFd : ℤ) : LeavesUsed (s.dup2 pid oldFd newFd) := by
  intro r s' hrun
  obtain ⟨found, -, hrun⟩ := bind_eq_ok.mp hrun
  rcases found with _ | sysFd
  · obtain ⟨-, rfl⟩ : _ = r ∧ s = s' := by simpa using hrun
    exact h
  -- what follows once the target is free
  have hrest : ∀ s₁ : Descriptors, s₁.vfs.UsedBut [] → (do
      let s ← s₁.install pid newFd.toNat { fd := newFd.toNat, sysFd }
      let t := s.table pid
      .ok (newFd, s.setTable pid { t with lowestFreeFd := t.nextFree t.lowestFreeFd }) :
        Except Fault (ℤ × Descriptors)) = .ok (r, s') → s'.vfs.UsedBut [] := by
    intro s₁ h₁ hrun
    obtain ⟨s₂, hins, hs'⟩ := bind_eq_ok.mp hrun
    obtain ⟨-, rfl⟩ : _ = r ∧ _ = s' := by simpa using hs'
    show s₂.vfs.UsedBut []
    exact used_install (h₁.cons _) hins
  simp only at hrun
  split_ifs at hrun
  · obtain ⟨-, rfl⟩ : _ = r ∧ s = s' := by simpa using hrun
    exact h
  · obtain ⟨s₁, hclose, hrun⟩ := bind_eq_ok.mp hrun
    exact hrest s₁ (used_closed (used_close h newFd) hclose) hrun
  · exact hrest s h hrun

lemma used_pipe (h : s.vfs.UsedBut []) : LeavesUsed (s.pipe pid) := by
  intro r s' hrun
  obtain ⟨⟨found, s₁⟩, hfree, hrun⟩ := bind_eq_ok.mp hrun
  obtain ⟨hvfs, hslots, hnone⟩ := vfs_getFreeFd hfree
  have h₁ : s₁.vfs.UsedBut [] := h.congr (by rw [hvfs])
  rcases found with _ | rfd
  · obtain ⟨-, rfl⟩ : _ = r ∧ s₁ = s' := by simpa using hrun
    exact h₁
  obtain ⟨⟨found, s₂⟩, hfree', hrun⟩ := bind_eq_ok.mp hrun
  obtain ⟨hvfs', hslots', hnone'⟩ := vfs_getFreeFd hfree'
  have h₂ : s₂.vfs.UsedBut [] := h₁.congr (by rw [hvfs'])
  have hrfd : (s₂.table pid).slots rfd = none := by rw [hslots', hslots, hnone rfd rfl]
  -- a reserved slot that is given back has no file
  have hback : ∀ {u u' : Descriptors} {i : ℕ}, u.vfs.UsedBut [] → (u.table pid).slots i = none →
      u.releaseFd pid i = .ok u' → u'.vfs.UsedBut [] := by
    intro u u' i hu hi hrel
    rcases vfs_releaseFd hrel with ⟨-, hvfs'⟩ | ⟨d, hd, -⟩
    · exact hu.congr (by rw [hvfs'])
    · rw [hi] at hd
      cases hd
  rcases found with _ | wfd
  · obtain ⟨s₃, hrel, hs'⟩ := bind_eq_ok.mp hrun
    obtain ⟨-, rfl⟩ : _ = r ∧ s₃ = s' := by simpa using hs'
    exact hback h₂ hrfd hrel
  simp only at hrun
  rcases hpipe : s₂.vfs.pipe with ⟨_ | ⟨sysRfd, sysWfd⟩, v⟩
  · rw [hpipe] at hrun
    obtain ⟨s₃, hrel, hrun⟩ := bind_eq_ok.mp hrun
    obtain ⟨s₄, hrel', hs'⟩ := bind_eq_ok.mp hrun
    obtain ⟨-, rfl⟩ : _ = r ∧ s₄ = s' := by simpa using hs'
    have h₃ := hback (u := { s₂ with vfs := v }) (h₂.congr (FileTable.pipe_none hpipe).1) hrfd hrel
    refine hback h₃ ?_ hrel'
    have hwfd : (s₂.table pid).slots wfd = none := by rw [hslots', hnone' wfd rfl]
    rw [slots_releaseFd hrel, Function.update_apply]
    split_ifs
    · rfl
    · exact hwfd
  · rw [hpipe] at hrun
    obtain ⟨s₃, hins, hrun⟩ := bind_eq_ok.mp hrun
    obtain ⟨s₄, hins', hs'⟩ := bind_eq_ok.mp hrun
    obtain ⟨-, rfl⟩ : _ = r ∧ s₄ = s' := by simpa using hs'
    have hv : v.UsedBut [sysRfd, sysWfd] := by
      obtain ⟨-, -, -, hfiles, -⟩ := FileTable.pipe_spec hpipe
      have hread : (s₂.vfs.setFile sysRfd (some { kind := .pipe s₂.vfs.pipes.length .read })).UsedBut
          [sysRfd] := h₂.add rfl rfl
      refine (hread.add rfl hfiles).mono ?_
      intro x hx
      simpa [or_comm] using hx
    exact used_install (used_install (s := { s₂ with vfs := v }) hv hins) hins'

/-! ## Processes -/

lemma used_foldlM {f : Descriptors → ℕ → Except Fault Descriptors}
    (hf : ∀ s i s', s.vfs.UsedBut [] → f s i = .ok s' → s'.vfs.UsedBut []) (l : List ℕ) :
    ∀ {s s' : Descriptors}, s.vfs.UsedBut [] → l.foldlM f s = .ok s' → s'.vfs.UsedBut [] := by
  induction l with
  | nil =>
    intro s s' h hrun
    obtain rfl : s = s' := by simpa [pure, Except.pure] using hrun
    exact h
  | cons i l ih =>
    intro s s' h hrun
    rw [List.foldlM_cons] at hrun
    obtain ⟨s₁, hturn, hrest⟩ := bind_eq_ok.mp hrun
    exact ih (hf s i s₁ h hturn) hrest

lemma used_newProcess (h : s.vfs.UsedBut []) (hrun : s.newProcess pid = .ok s') :
    s'.vfs.UsedBut [] := by
  obtain ⟨s₁, hloop, hs'⟩ := bind_eq_ok.mp hrun
  obtain rfl : _ = s' := by simpa using hs'
  show s₁.vfs.UsedBut []
  refine used_foldlM ?_ (List.range 3) (s := s.setTable pid {}) h hloop
  intro s i s' h hrun
  unfold openTtyAt at hrun
  rcases hopen : s.vfs.openTty with ⟨_ | sysFd, v⟩
  · rw [hopen] at hrun
    obtain rfl : _ = s' := by simpa using hrun
    exact h.congr (by rw [FileTable.openTty_none hopen])
  · rw [hopen] at hrun
    exact used_install (h.add rfl (FileTable.openTty_spec hopen).2.2.1) hrun

lemma used_fork (h : s.vfs.UsedBut []) : LeavesUsed (s.fork pid child) := by
  intro r s' hrun
  obtain ⟨s₁, hnew, hrun⟩ := bind_eq_ok.mp hrun
  obtain ⟨s₂, hloop, hs'⟩ := bind_eq_ok.mp hrun
  obtain ⟨-, rfl⟩ : _ = r ∧ _ = s' := by simpa using hs'
  show s₂.vfs.UsedBut []
  refine used_foldlM ?_ _ (used_newProcess h hnew) hloop
  intro s i s' h hrun
  unfold copyFd at hrun
  rcases hd : (s.table pid).slots i with _ | d
  · rw [hd] at hrun
    obtain rfl : s = s' := by simpa using hrun
    exact h
  rw [hd] at hrun
  simp only at hrun
  rcases hd' : (s.table child).slots i with _ | d'
  · rw [hd'] at hrun
    exact used_install (h.cons d.sysFd) hrun
  · rw [hd'] at hrun
    obtain ⟨s₁, hclose, hins⟩ := bind_eq_ok.mp hrun
    have h₁ := used_closed (used_close h d'.fd) hclose
    exact used_install (h₁.cons d.sysFd) hins

lemma used_loadElfs (loads : List ElfLoad) : ∀ {s : Descriptors}, s.vfs.UsedBut [] →
    LeavesUsed (s.loadElfs pid loads) := by
  induction loads with
  | nil =>
    intro s h r s' hrun
    obtain ⟨-, rfl⟩ : r = true ∧ s = s' := by simpa [loadElfs] using hrun
    exact h
  | cons load loads ih =>
    intro s h r s' hrun
    obtain ⟨⟨fd, s₁⟩, hopen, hrun⟩ := bind_eq_ok.mp hrun
    have h₁ := used_openFile h _ fd s₁ hopen
    simp only at hrun
    split_ifs at hrun
    · obtain ⟨-, rfl⟩ : r = false ∧ s₁ = s' := by simpa using hrun
      exact h₁
    · cases load with
      | loaded => exact ih h₁ r s' hrun
      | readFails =>
        obtain ⟨⟨c, s₂⟩, hclose, hs'⟩ := bind_eq_ok.mp hrun
        obtain ⟨-, rfl⟩ : r = false ∧ s₂ = s' := by simpa using hs'
        exact used_close h₁ fd c s₂ hclose
      | openFails e =>
        obtain ⟨-, rfl⟩ : r = false ∧ s₁ = s' := by simpa using hrun
        exact h₁
      | invalid =>
        obtain ⟨-, rfl⟩ : r = false ∧ s₁ = s' := by simpa using hrun
        exact h₁

lemma used_exec (h : s.vfs.UsedBut []) (loads : List ElfLoad) :
    LeavesUsed (s.exec pid child loads) := by
  intro r s' hrun
  obtain ⟨⟨ok, s₁⟩, hload, hrun⟩ := bind_eq_ok.mp hrun
  have h₁ := used_loadElfs loads h ok s₁ hload
  rcases ok with _ | _
  · obtain ⟨-, rfl⟩ : _ = r ∧ s₁ = s' := by simpa using hrun
    exact h₁
  · obtain ⟨s₂, hnew, hs'⟩ := bind_eq_ok.mp hrun
    obtain ⟨-, rfl⟩ : _ = r ∧ _ = s' := by simpa using hs'
    show s₂.vfs.UsedBut []
    exact used_newProcess h₁ hnew

lemma used_transferFd (h : s.vfs.UsedBut []) (hrun : s.transferFd pid i = .ok s') :
    s'.vfs.UsedBut [] := by
  unfold transferFd at hrun
  rcases hd : (s.table pid).slots i with _ | d
  · rw [hd] at hrun
    obtain rfl : s = s' := by simpa using hrun
    exact h
  rw [hd] at hrun
  simp only at hrun
  split_ifs at hrun
  · exact used_closed (used_close h d.fd) hrun
  rcases hd' : (s.table execReplacement).slots i with _ | d'
  · rw [hd'] at hrun
    obtain rfl : _ = s' := by simpa [bind, Except.bind] using hrun
    exact h
  · rw [hd'] at hrun
    obtain ⟨s₁, hclose, hs'⟩ := bind_eq_ok.mp hrun
    obtain rfl : _ = s' := by simpa using hs'
    show s₁.vfs.UsedBut []
    exact used_closed (used_close h i) hclose

lemma used_execve (h : s.vfs.UsedBut []) (loads : List ElfLoad) :
    LeavesUsed (s.execve pid loads) := by
  intro r s' hrun
  obtain ⟨⟨ok, s₁⟩, hload, hrun⟩ := bind_eq_ok.mp hrun
  have h₁ := used_loadElfs loads h ok s₁ hload
  rcases ok with _ | _
  · obtain ⟨-, rfl⟩ : _ = r ∧ s₁ = s' := by simpa using hrun
    exact h₁
  · obtain ⟨s₂, hnew, hrun⟩ := bind_eq_ok.mp hrun
    obtain ⟨s₃, htransfer, hs'⟩ := bind_eq_ok.mp hrun
    obtain ⟨-, rfl⟩ : _ = r ∧ s₃ = s' := by simpa using hs'
    obtain ⟨s₄, hloop, hs₃⟩ := bind_eq_ok.mp htransfer
    obtain rfl : _ = s₃ := by simpa using hs₃
    show s₄.vfs.UsedBut []
    exact used_foldlM (fun _ _ _ h hrun => used_transferFd h hrun) _ (used_newProcess h₁ hnew) hloop

lemma used_exit (h : s.vfs.UsedBut []) (hrun : s.exit pid = .ok s') : s'.vfs.UsedBut [] := by
  obtain ⟨s₁, hloop, hs'⟩ := bind_eq_ok.mp hrun
  obtain rfl : _ = s' := by simpa using hs'
  show s₁.vfs.UsedBut []
  refine used_foldlM ?_ _ h hloop
  intro s i s' h hrun
  unfold closeSlot at hrun
  rcases hd : (s.table pid).slots i with _ | d
  · rw [hd] at hrun
    obtain rfl : s = s' := by simpa using hrun
    exact h
  · rw [hd] at hrun
    exact used_closed (used_close h d.fd) hrun

lemma used_setCloExec (h : s.vfs.UsedBut []) (fd : ℤ) (cloExec : Bool) :
    LeavesUsed (s.setCloExec pid fd cloExec) := by
  intro r s' hrun
  obtain ⟨found, -, hrun⟩ := bind_eq_ok.mp hrun
  rcases found with _ | sysFd
  · obtain ⟨-, rfl⟩ : _ = r ∧ s = s' := by simpa using hrun
    exact h
  · obtain ⟨-, rfl⟩ : _ = r ∧ _ = s' := by simpa using hrun
    exact h

/-! ## Steps -/

variable {op : FdOp}

lemma used_step (h : s.vfs.UsedBut []) (hop : op.OnTables) (hrun : s.step op = .ok s') :
    s'.vfs.UsedBut [] := by
  have hmap : ∀ {r : Except Fault (ℤ × Descriptors)}, LeavesUsed r → r.map Prod.snd = .ok s' →
      s'.vfs.UsedBut [] := fun hr hrun => used_closed hr hrun
  cases op with
  | spawn child =>
    obtain ⟨s₁, hnew, rfl⟩ := map_eq_ok.mp hrun
    show s₁.vfs.UsedBut []
    exact used_newProcess h hnew
  | openFile pid err => exact hmap (used_openFile h err) hrun
  | close pid fd => exact hmap (used_close h fd) hrun
  | dup pid oldFd => exact hmap (used_dup h oldFd) hrun
  | dup2 pid oldFd newFd => exact hmap (used_dup2 h oldFd newFd) hrun
  | pipe pid => exact hmap (used_pipe h) hrun
  | setCloExec pid fd cloExec => exact hmap (used_setCloExec h fd cloExec) hrun
  | fork pid child => exact hmap (used_fork h) hrun
  | exec pid child loads => exact hmap (used_exec h loads) hrun
  | execve pid loads => exact hmap (used_execve h loads) hrun
  | exit pid => exact used_exit h hrun
  | read pid fd n => exact hop.elim
  | write pid fd bytes => exact hop.elim
  | resume pid => exact hop.elim

lemma map_eq_error {f : α → β} {r : Except Fault α} {e : Fault} (h : r.map f = .error e) :
    r = .error e := by
  rcases r with e' | a
  · cases h
    rfl
  · cases h

lemma Between.fault {e : Fault} (h : s.Between) (hallowed : s.Allowed op) (hop : op.OnTables)
    (herr : s.step op = .error e) : FdTable.CursorFault e := by
  cases op with
  | spawn child =>
    obtain ⟨s₁, -, hok, -⟩ := h.inv.start hallowed
    rw [step, hok] at herr
    cases herr
  | openFile pid err => exact ((hallowed.calls h.inv).openFile err).fault e (map_eq_error herr)
  | close pid fd => exact ((hallowed.calls h.inv).close fd).fault e (map_eq_error herr)
  | dup pid oldFd => exact ((hallowed.calls h.inv).dup oldFd).fault e (map_eq_error herr)
  | dup2 pid oldFd newFd =>
    by_cases hcond : s.KeepsCursors (.dup2 pid oldFd newFd)
    · exact ((hallowed.calls h.inv).dup2 oldFd newFd hcond).fault e (map_eq_error herr)
    · rw [step, h.dup2_outOfRange hcond] at herr
      cases herr
      exact Or.inr rfl
  | pipe pid => exact (hallowed.calls h.inv).pipe.fault e (map_eq_error herr)
  | setCloExec pid fd cloExec =>
    exact ((hallowed.calls h.inv).setCloExec fd cloExec).fault e (map_eq_error herr)
  | fork pid child =>
    obtain ⟨s', t, hok, -⟩ := (hallowed.1.calls h.inv).fork hallowed.2
    rw [step, hok] at herr
    cases herr
  | exec pid child loads =>
    have hload := (hallowed.1.calls h.inv).loadElfs loads
    have herr := map_eq_error herr
    unfold Descriptors.exec at herr
    rcases hr : s.loadElfs pid loads with e' | ⟨ok, s₁⟩
    · rw [hr] at herr
      cases herr
      exact hload.fault e hr
    · -- the constructor of the new process does not fail
      rw [hr] at herr
      obtain ⟨hinv₁, t₁, he₁, -⟩ := hload.keeps ok s₁ hr
      have hne : child ≠ pid := by
        rintro rfl
        have hlive := hallowed.1.2.1
        simp [hallowed.2.2] at hlive
      have hfree₁ : s₁.FreePid child := by
        refine ⟨hallowed.2.1, ?_⟩
        rw [he₁.procs, Function.update_of_ne hne]
        exact hallowed.2.2
      obtain ⟨s₂, -, hok, -⟩ := hinv₁.start hfree₁
      rcases ok with _ | _
      · cases herr
      · simp [bind, Except.bind, hok] at herr
  | execve pid loads =>
    exact ((hallowed.calls h.inv).execve hallowed.1 h.vacant loads).fault e (map_eq_error herr)
  | exit pid =>
    obtain ⟨s', hok, -⟩ := (hallowed.calls h.inv).exit
    rw [step, hok] at herr
    cases herr
  | read pid fd n => exact hop.elim
  | write pid fd bytes => exact hop.elim
  | resume pid => exact hop.elim

/-! ## Runs -/

/-- Every open file counts the descriptors for it, a file is open as long as there are any, and no
descriptor is for a file that is gone. -/
structure RcRight (s : Descriptors) : Prop where
  rc : ∀ fd f, s.vfs.files fd = some f → f.rc = s.refs fd
  open_iff : ∀ fd, (s.vfs.files fd).isSome ↔ 0 < s.refs fd
  opened : ∀ pid i d, (s.table pid).slots i = some d → (s.vfs.files d.sysFd).isSome

/-- After a step the counts are right, and a file that was open is gone exactly when its last
descriptor is; `close` takes away one.  No step finds a descriptor for a file that is gone. -/
def RcRightAfter (s : Descriptors) (op : FdOp) : Prop :=
  match s.step op with
  | .ok s' => s'.RcRight ∧
      (∀ fd, (s.vfs.files fd).isSome → (s'.vfs.files fd = none ↔ s'.refs fd = 0)) ∧
      ∀ pid fd d, op = .close pid fd → 0 ≤ fd ∧ fd < maxFdPerProcess →
        (s.table pid).slots fd.toNat = some d → (s'.vfs.files d.sysFd = none ↔ s.refs d.sysFd = 1)
  | .error e => ∀ text, e = .irrecoverableError text → text = "get_free_fd: fd lowest_free_id is not free"

lemma Between.rcRight (h : s.Between) (hused : s.vfs.UsedBut []) : s.RcRight := by
  have hpos : ∀ fd f, s.vfs.files fd = some f → 0 < s.refs fd := by
    intro fd f hf
    have hrc := h.inv.files.rc fd f hf
    have := (hused fd f hf).2 (by simp)
    omega
  refine ⟨h.inv.files.rc, ?_, ?_⟩
  · intro fd
    constructor
    · intro hsome
      obtain ⟨f, hf⟩ := Option.isSome_iff_exists.mp hsome
      exact hpos fd f hf
    · intro hrefs
      by_contra hnone
      have := h.inv.files.refs_eq_zero (Option.not_isSome_iff_eq_none.mp hnone)
      omega
  · intro pid i d hd
    exact h.inv.files.opened (pid, i) d.sysFd (by simp [sysFdAt, hd])

lemma RcRight.none_iff (h : s.RcRight) (fd : ℕ) : s.vfs.files fd = none ↔ s.refs fd = 0 := by
  rw [← Option.not_isSome_iff_eq_none, h.open_iff fd]
  omega

lemma Between.refs_close {fd : ℤ} (h : s.Between) (hcall : s.MayCall pid)
    (hrange : 0 ≤ fd ∧ fd < maxFdPerProcess) (hd : (s.table pid).slots fd.toNat = some d)
    (hrun : s.step (.close pid fd) = .ok s') : s'.refs d.sysFd + 1 = s.refs d.sysFd := by
  have hcalls := hcall.calls h.inv
  obtain ⟨r, s₁, hok, -, -, hprocs⟩ := h.inv.close hcalls.idle fd
  obtain rfl : s₁ = s' := by simpa [step, hok, Except.map] using hrun
  rw [if_pos ⟨hrange, by simp [hd]⟩] at hprocs
  have hsys : s.sysFdAt (pid, fd.toNat) = some d.sysFd := by simp [sysFdAt, hd]
  have hsys' : s₁.sysFdAt (pid, fd.toNat) = none := by
    simp [sysFdAt, table, hprocs, FdTable.release, FdTable.setSlot]
  have hother : ∀ y, y ≠ (pid, fd.toNat) → s₁.sysFdAt y = s.sysFdAt y := by
    rintro ⟨q, j⟩ hy
    rcases eq_or_ne q pid with rfl | hq
    · have hj : j ≠ fd.toNat := fun hj => hy (by rw [hj])
      simp [sysFdAt, table, hprocs, FdTable.release, FdTable.setSlot, hj]
    · simp [sysFdAt, table, hprocs, hq]
  have hchange := refs_change d.sysFd (hcalls.mem_allSlots (by omega)) hother
  simpa [hsys, hsys'] using hchange

lemma Between.rcRightAfter (h : s.Between) (hused : s.vfs.UsedBut []) (hallowed : s.Allowed op)
    (hop : op.OnTables) : s.RcRightAfter op := by
  unfold RcRightAfter
  rcases hstep : s.step op with e | s'
  · intro text htext
    rcases h.fault hallowed hop hstep with rfl | rfl
    · cases htext
      rfl
    · cases htext
  · have hright := ((h.steps hallowed hop).between s' hstep).rcRight (used_step hused hop hstep)
    refine ⟨hright, fun fd _ => hright.none_iff fd, ?_⟩
    rintro pid fd d rfl hrange hd
    have := h.refs_close hallowed hrange hd hstep
    rw [hright.none_iff]
    omega

/-- In every run of calls on descriptor tables from a system without processes, each step leaves the
reference counts right. -/
theorem refs_counted (ops : List FdOp)
    (h : EachCall step (fun s op => s.Allowed op ∧ op.OnTables) ops {}) :
    EachCall step RcRightAfter ops {} := by
  have hrun : ∀ (ops : List FdOp) (s : Descriptors), s.Between → s.vfs.UsedBut [] →
      EachCall step (fun s op => s.Allowed op ∧ op.OnTables) ops s →
      EachCall step RcRightAfter ops s := by
    intro ops
    induction ops with
    | nil =>
      intro s _ _ _
      trivial
    | cons op ops ih =>
      intro s hb hused hallowed
      obtain ⟨⟨hallowed, hop⟩, hrest⟩ := hallowed
      refine ⟨hb.rcRightAfter hused hallowed hop, ?_⟩
      rcases hstep : s.step op with e | s'
      · trivial
      · rw [hstep] at hrest
        exact ih s' ((hb.steps hallowed hop).between s' hstep) (used_step hused hop hstep) hrest
  refine hrun ops {} between_new ?_ h
  intro fd f hf
  cases hf

/-- A process makes a pipe and forks; the child moves an end to its output and loads a program, and
both of them end. -/
theorem refs_counted_shell :
    EachCall step (fun s op => s.Allowed op ∧ op.OnTables)
        [.spawn 0, .pipe 0, .fork 0 1, .dup2 1 4 1, .close 1 4, .close 0 4, .openFile 1 none,
          .execve 1 [.loaded], .dup 1 1, .exit 1, .exit 0] {} ∧
      EachCall step RcRightAfter
        [.spawn 0, .pipe 0, .fork 0 1, .dup2 1 4 1, .close 1 4, .close 0 4, .openFile 1 none,
          .execve 1 [.loaded], .dup 1 1, .exit 1, .exit 0] {} :=
  have hallowed : EachCall step (fun s op => s.Allowed op ∧ op.OnTables)
      [.spawn 0, .pipe 0, .fork 0 1, .dup2 1 4 1, .close 1 4, .close 0 4, .openFile 1 none,
        .execve 1 [.loaded], .dup 1 1, .exit 1, .exit 0] {} := by
    decide +kernel
  ⟨hallowed, refs_counted _ hallowed⟩

end Descriptors

end BrebOS

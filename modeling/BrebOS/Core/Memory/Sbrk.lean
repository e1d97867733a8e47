import BrebOS.Core.Memory.Heap
import BrebOS.Lib.FirstFree

/-!
# When `sbrk` goes through

`sbrk` tests once whether memory is full and then takes frames, and for a process entries of the
kernel's tables too, one at a time.  Nothing is given back when they run out on the way: the kernel
indexes its arrays behind their end, or panics.  `Room` is what a request needs to go through once
its pages are found, and `sbrk_found_iff` says that it needs nothing else.

A frame that is free can still have a reference count, and then taking it panics.  For a process the
count may have gone down before: `update_pte` takes a reference from the frame that the entry named,
even if the entry was not used.
-/

namespace BrebOS.Memory

variable {m m' m₁ : Memory} {proc : ProcId} {pid page f n b : ℕ} {policy : Flags} {rest : List ℕ}

/-! ## The frames and the entries that are left -/

/-- The frames `get_free_frame` answers, when each is marked used. -/
def freeFrames (m : Memory) : List ℕ :=
  freeFrom (fun f => !m.frameUsed f) m.lowestFreeFrame numFrames

/-- The entries `get_free_pe` answers, when each gets used. -/
def freePes (m : Memory) : List ℕ :=
  freeFrom (fun i => !(m.pageTables i).used) m.lowestFreePe numFrames

lemma mem_freeFrames : f ∈ freeFrames m ↔
    m.lowestFreeFrame ≤ f ∧ f < numFrames ∧ m.frameToPage f = none := by
  simp [freeFrames, mem_freeFrom, frameUsed]

lemma nodup_freeFrames : (freeFrames m).Nodup := nodup_freeFrom

lemma getFreeFrame_cons (h : freeFrames m = f :: rest) :
    m.getFreeFrame = (f, { m with lowestFreeFrame := f }) := by
  have hskip := skipWhile_cons h
  simp only [Bool.not_not] at hskip
  rw [getFreeFrame, hskip]

lemma getFreeFrame_nil (h : freeFrames m = []) : numFrames ≤ m.getFreeFrame.1 := by
  have hskip := skipWhile_nil h
  simp only [Bool.not_not] at hskip
  exact hskip

lemma getFreePe_cons (h : freePes m = page :: rest) :
    m.getFreePe = (page, { m with lowestFreePe := page }) := by
  have hskip := skipWhile_cons h
  simp only [Bool.not_not] at hskip
  rw [getFreePe, hskip]

lemma getFreePe_nil (h : freePes m = []) : numFrames ≤ m.getFreePe.1 := by
  have hskip := skipWhile_nil h
  simp only [Bool.not_not] at hskip
  exact hskip

/-! ## One page that gets a frame -/

/-- The step of the loop of `sbrk` that gives a page a frame. -/
def sbrkPage (proc : ProcId) (policy : Flags) : Memory → ℕ → Except Fault Memory :=
  match proc with
  | .kernel => sbrkKernelPage policy
  | .user pid => sbrkUserPage pid policy

/-- The frame that loses a reference when an entry is overwritten: `update_pte` is only used for the
tables of a process. -/
def dropped (proc : ProcId) (e : Entry) : Option ℕ :=
  match proc with
  | .kernel => none
  | .user _ => some e.frame

/-- The page got the frame `f`, the first that was left. -/
structure Took (proc : ProcId) (policy : Flags) (page f : ℕ) (m m' : Memory) : Prop where
  count : m.frameRc f = 0
  frames : freeFrames m = f :: freeFrames m'
  pes : proc ≠ .kernel → ∃ pe, freePes m = pe :: freePes m'
  rc : ∀ g ≠ f, m'.frameRc g =
    m.frameRc g - if dropped proc (m.pte proc page) = some g then 1 else 0
  entry : m'.pte proc page = ⟨f, policy⟩
  other : ∀ i ≠ page, m'.pte proc i = m.pte proc i
  lowestPe : m'.lowestPe proc = m.lowestPe proc

lemma freeFrames_tail (page : ℕ) (h : freeFrames m = f :: rest) (hlow : m'.lowestFreeFrame = f)
    (hpage : ∀ g, m'.frameToPage g = if g = f then some page else m.frameToPage g) :
    freeFrames m' = rest := by
  rw [freeFrames, hlow, ← freeFrom_take h]
  refine freeFrom_congr fun g _ _ => ?_
  rw [frameUsed, hpage]
  by_cases hg : g = f <;> simp [hg, frameUsed]

lemma freePes_tail (h : freePes m = page :: rest) (hlow : m'.lowestFreePe = page)
    (hused : (m'.pageTables page).used = true)
    (hother : ∀ i ≠ page, m'.pageTables i = m.pageTables i) : freePes m' = rest := by
  rw [freePes, hlow, ← freeFrom_take h]
  refine freeFrom_congr fun i _ _ => ?_
  by_cases hi : i = page
  · subst hi
    simp [hused]
  · simp [hi, hother i hi]

/-- The state after `allocate_page(page, policy)` has taken the frame `f`. -/
def givenFrame (policy : Flags) (page f : ℕ) (m : Memory) : Memory :=
  Memory.allocated f page policy { m with lowestFreeFrame := f }

lemma pte_givenFrame {proc' : ProcId} {i : ℕ} : (m.givenFrame policy page f).pte proc' i =
    if proc' = .kernel ∧ i = page then ⟨f % numFrames, policy⟩ else m.pte proc' i := by
  rw [givenFrame, pte_allocated]
  cases proc' <;> rfl

lemma frameRc_givenFrame {g : ℕ} (hpolicy : policy.present = true) :
    (m.givenFrame policy page f).frameRc g = if g = f then 1 else m.frameRc g := by
  simp [givenFrame, frameRc_allocated, hpolicy]

lemma lowestPe_givenFrame {proc' : ProcId} :
    (m.givenFrame policy page f).lowestPe proc' = m.lowestPe proc' := by
  rw [givenFrame, allocated]
  cases proc' <;> split_ifs <;> rfl

lemma freeFrames_givenFrame (hpolicy : policy.present = true) (hfree : freeFrames m = f :: rest) :
    freeFrames (m.givenFrame policy page f) = rest := by
  refine freeFrames_tail page hfree (by simp [givenFrame]) fun g => ?_
  simp [givenFrame, frameToPage_allocated, hpolicy]

lemma allocateFreePage_cons (hpolicy : policy.present = true) (hfree : freeFrames m = f :: rest) :
    allocateFreePage page policy m = .ok m' ↔
      page < numFrames ∧ m.frameRc f = 0 ∧ m' = m.givenFrame policy page f := by
  have hlt := (mem_freeFrames.mp (hfree ▸ List.mem_cons_self : f ∈ freeFrames m)).2.1
  rw [allocateFreePage, getFreeFrame_cons hfree]
  simp only
  rw [allocatePage_eq_ok, givenFrame]
  simp only [hpolicy, forall_const, hlt, true_and]

lemma allocateFreePage_nil (hpolicy : policy.present = true) (hfree : freeFrames m = []) :
    allocateFreePage page policy m ≠ .ok m' := by
  intro h
  have hbehind := getFreeFrame_nil hfree
  rw [allocateFreePage] at h
  rcases hr : m.getFreeFrame with ⟨frame, m₁⟩
  rw [hr] at h hbehind
  have hframe := ((allocatePage_eq_ok.mp h).2.1 hpolicy).1
  omega

lemma kernelPage_took (hpolicy : policy.present = true)
    (h : sbrkKernelPage policy m page = .ok m') : ∃ f, Took .kernel policy page f m m' := by
  rw [sbrkKernelPage] at h
  cases hfree : freeFrames m with
  | nil => exact absurd h (allocateFreePage_nil hpolicy hfree)
  | cons f rest =>
      have hlt := (mem_freeFrames.mp (hfree ▸ List.mem_cons_self : f ∈ freeFrames m)).2.1
      obtain ⟨-, hrc, rfl⟩ := (allocateFreePage_cons hpolicy hfree).mp h
      refine ⟨f, hrc, ?_, fun hk => absurd rfl hk, fun g hg => ?_, ?_, fun i hi => ?_,
        lowestPe_givenFrame⟩
      · rw [freeFrames_givenFrame hpolicy hfree, hfree]
      · simp [frameRc_givenFrame hpolicy, hg, dropped]
      · rw [pte_givenFrame, if_pos ⟨rfl, rfl⟩, Nat.mod_eq_of_lt hlt]
      · rw [pte_givenFrame, if_neg fun hc => hi hc.2]

/-- The state after a page of a process has got the frame `f` under the entry `pe` of the kernel. -/
def givenShared (pid : ℕ) (policy : Flags) (page pe f : ℕ) (m : Memory) : Memory :=
  (Memory.givenFrame policy pe f { m with lowestFreePe := pe }).updated (.user pid) page
    ((Memory.givenFrame policy pe f { m with lowestFreePe := pe }).pageTables pe)

/-- **A page of a process** needs an entry of the kernel as well. -/
lemma sbrkUserPage_cases (hpolicy : policy.present = true)
    (h : sbrkUserPage pid policy m page = .ok m') : ∃ pe restPe f restF,
      freePes m = pe :: restPe ∧ freeFrames m = f :: restF ∧ m.frameRc f = 0 ∧
        m' = m.givenShared pid policy page pe f := by
  rw [sbrkUserPage] at h
  cases hpes : freePes m with
  | nil =>
      have hbehind := getFreePe_nil hpes
      rcases hr : m.getFreePe with ⟨sysPe, m₁⟩
      rw [hr] at h hbehind
      obtain ⟨m₂, hall, -⟩ := bind_eq_ok.mp h
      obtain ⟨-, -, -, hpe, -⟩ := allocateFreePage_spec hall
      omega
  | cons pe restPe =>
      simp only [getFreePe_cons hpes] at h
      obtain ⟨m₂, hall, h⟩ := bind_eq_ok.mp h
      cases hfree : freeFrames m with
      | nil =>
          have hnil : freeFrames { m with lowestFreePe := pe } = [] := hfree
          exact absurd hall (allocateFreePage_nil hpolicy hnil)
      | cons f restF =>
          have hfree' : freeFrames { m with lowestFreePe := pe } = f :: restF := hfree
          obtain ⟨-, hrc, rfl⟩ := (allocateFreePage_cons hpolicy hfree').mp hall
          obtain ⟨-, -, rfl⟩ := updatePte_eq_ok.mp h
          exact ⟨pe, restPe, f, restF, rfl, rfl, hrc, rfl⟩

lemma took_givenShared {pe : ℕ} {restPe restF : List ℕ} (hpolicy : policy.present = true)
    (hpes : freePes m = pe :: restPe) (hfree : freeFrames m = f :: restF) (hrc : m.frameRc f = 0) :
    Took (.user pid) policy page f m (m.givenShared pid policy page pe f) := by
  have hlt := (mem_freeFrames.mp (hfree ▸ List.mem_cons_self : f ∈ freeFrames m)).2.1
  have hfree' : freeFrames { m with lowestFreePe := pe } = f :: restF := hfree
  have hframes := @freeFrames_givenFrame _ pe f policy restF hpolicy hfree'
  have hlow := @lowestPe_givenFrame { m with lowestFreePe := pe } pe f policy .kernel
  have hlowUser := @lowestPe_givenFrame { m with lowestFreePe := pe } pe f policy (.user pid)
  have hrc' := @frameRc_givenFrame { m with lowestFreePe := pe } pe f policy
  have huser : ∀ i, (Memory.givenFrame policy pe f { m with lowestFreePe := pe }).pte
      (.user pid) i = m.pte (.user pid) i := by
    intro i
    rw [pte_givenFrame, if_neg (by simp)]
    rfl
  have hkernel : ∀ i, (Memory.givenFrame policy pe f { m with lowestFreePe := pe }).pageTables i =
      if i = pe then ⟨f, policy⟩ else m.pageTables i := by
    intro i
    have hi := @pte_givenFrame { m with lowestFreePe := pe } pe f policy .kernel i
    simp only [Nat.mod_eq_of_lt hlt, true_and] at hi
    exact hi
  rw [givenShared]
  set m₂ := Memory.givenFrame policy pe f { m with lowestFreePe := pe }
  have hpes' : freePes (m₂.updated (.user pid) page (m₂.pageTables pe)) = restPe := by
    have hsame : ∀ i, (m₂.updated (.user pid) page (m₂.pageTables pe)).pageTables i =
        m₂.pageTables i := fun i => @pte_updated_of_ne m₂ (.user pid) .kernel _ i _ (by simp)
    refine freePes_tail hpes ?_ ?_ fun i hi => ?_
    · exact (@lowestPe_updated m₂ (.user pid) .kernel _ _).trans hlow
    · rw [hsame, hkernel, if_pos rfl]
      simp [Entry.used, hpolicy]
    · rw [hsame, hkernel, if_neg hi]
  refine ⟨hrc, ?_, fun _ => ⟨pe, by rw [hpes', hpes]⟩, fun g hg => ?_, ?_, fun i hi => ?_, ?_⟩
  · rw [hfree, ← hframes]
    simp [freeFrames, frameUsed]
  · have hrefs : Entry.refs ⟨f, policy⟩ g = 0 := by simp [Entry.refs, Ne.symm hg]
    rw [frameRc_updated, hrc' hpolicy, if_neg hg, huser, hkernel, if_pos rfl, hrefs]
    simp [dropped]
  · rw [pte_updated_self, hkernel, if_pos rfl]
  · rw [pte_updated_of_ne fun _ => hi, huser]
  · rw [lowestPe_updated, hlowUser]
    rfl

lemma sbrkPage_succeeds (hpolicy : policy.present = true) (hpage : page < proc.entries)
    (hunused : (m.pte proc page).used = false) (hpes : proc ≠ .kernel → freePes m ≠ [])
    (hfree : freeFrames m = f :: rest) (hrc : m.frameRc f = 0) :
    ∃ m', sbrkPage proc policy m page = .ok m' := by
  cases proc with
  | kernel => exact ⟨_, (allocateFreePage_cons hpolicy hfree).mpr ⟨hpage, hrc, rfl⟩⟩
  | user pid =>
      obtain ⟨pe, restPe, hcons⟩ := List.exists_cons_of_ne_nil (hpes (by simp))
      have hpe := (mem_freeFrom.mp (hcons ▸ List.mem_cons_self : pe ∈ freePes m)).2.1
      have hfree' : freeFrames { m with lowestFreePe := pe } = f :: rest := hfree
      simp only [sbrkPage, sbrkUserPage, getFreePe_cons hcons]
      refine exists_bind_eq_ok ((allocateFreePage_cons hpolicy hfree').mpr ⟨hpe, hrc, rfl⟩)
        ⟨_, updatePte_eq_ok.mpr ⟨hpage, ?_, rfl⟩⟩
      rw [pte_givenFrame, if_neg (by simp)]
      intro hmapped
      have hused := Entry.used_of_mapped hmapped
      rw [show Memory.pte { m with lowestFreePe := pe } (.user pid) page = m.pte (.user pid) page from rfl,
        hunused] at hused
      exact Bool.noConfusion hused

lemma sbrkPage_took (hpolicy : policy.present = true) (h : sbrkPage proc policy m page = .ok m') :
    ∃ f, Took proc policy page f m m' := by
  cases proc with
  | kernel => exact kernelPage_took hpolicy h
  | user pid =>
      obtain ⟨pe, restPe, f, restF, hpes, hfree, hrc, rfl⟩ := sbrkUserPage_cases hpolicy h
      exact ⟨f, took_givenShared hpolicy hpes hfree hrc⟩

/-! ## The loop over pages that get frames -/

/-- **The loop goes through** iff the entries and the frames suffice. -/
lemma pages_succeed_iff (hpolicy : policy.present = true) : ∀ {pages : List ℕ} {m : Memory},
    pages.Nodup → (∀ i ∈ pages, i < proc.entries ∧ (m.pte proc i).used = false) →
      ((∃ m', pages.foldlM (sbrkPage proc policy) m = .ok m') ↔
        (proc ≠ .kernel → pages.length ≤ (freePes m).length) ∧
          Enough (pages.map fun i => dropped proc (m.pte proc i)) (freeFrames m) m.frameRc)
  | [], m, _, _ => by simp [Enough, pure, Except.pure]
  | page :: pages, m, hnodup, hpages => by
      obtain ⟨hnot, hnodup⟩ := List.nodup_cons.mp hnodup
      obtain ⟨hpage, hunused⟩ := hpages page List.mem_cons_self
      -- what a turn leaves for the others
      have hrest : ∀ {f m₁}, Took proc policy page f m m₁ →
          ((∃ m', pages.foldlM (sbrkPage proc policy) m₁ = .ok m') ↔
            (proc ≠ .kernel → pages.length ≤ (freePes m₁).length) ∧
              Enough (pages.map fun i => dropped proc (m.pte proc i)) (freeFrames m₁)
                fun g => m.frameRc g - if dropped proc (m.pte proc page) = some g then 1 else 0) := by
        intro f m₁ htook
        have hsame : ∀ i ∈ pages, m₁.pte proc i = m.pte proc i :=
          fun i hi => htook.other i fun hc => hnot (hc ▸ hi)
        have hloop := pages_succeed_iff hpolicy hnodup fun i hi => by
          rw [hsame i hi]
          exact hpages i (List.mem_cons_of_mem page hi)
        have hdrop : (pages.map fun i => dropped proc (m₁.pte proc i)) =
            pages.map fun i => dropped proc (m.pte proc i) :=
          List.map_congr_left fun i hi => by rw [hsame i hi]
        rw [hloop, hdrop]
        refine and_congr_right fun _ => enough_congr fun g hg => htook.rc g ?_
        rintro rfl
        have hdup := nodup_freeFrames (m := m)
        rw [htook.frames] at hdup
        exact (List.nodup_cons.mp hdup).1 hg
      rw [List.map_cons]
      constructor
      · rintro ⟨m', h⟩
        rw [List.foldlM_cons, bind_eq_ok] at h
        obtain ⟨m₁, h₁, h⟩ := h
        obtain ⟨f, htook⟩ := sbrkPage_took hpolicy h₁
        obtain ⟨hpes, henough⟩ := (hrest htook).mp ⟨m', h⟩
        refine ⟨fun hk => ?_, ?_⟩
        · obtain ⟨pe, hpe⟩ := htook.pes hk
          simpa [hpe] using hpes hk
        · rw [htook.frames]
          exact ⟨htook.count, henough⟩
      · rintro ⟨hpes, henough⟩
        cases hfree : freeFrames m with
        | nil =>
            rw [hfree] at henough
            exact henough.elim
        | cons f rest =>
            rw [hfree] at henough
            obtain ⟨hrc, henough⟩ := henough
            obtain ⟨m₁, h₁⟩ := sbrkPage_succeeds hpolicy hpage hunused
              (fun hk hnil => by simpa [hnil] using hpes hk) hfree hrc
            obtain ⟨g, htook⟩ := sbrkPage_took hpolicy h₁
            have hcons := hfree.symm.trans htook.frames
            rw [List.cons.injEq] at hcons
            obtain ⟨rfl, rfl⟩ := hcons
            obtain ⟨m', h⟩ := (hrest htook).mpr ⟨fun hk => by
              obtain ⟨pe, hpe⟩ := htook.pes hk
              simpa [hpe] using hpes hk, henough⟩
            refine ⟨m', ?_⟩
            rw [List.foldlM_cons, h₁]
            exact h

lemma pages_took (hpolicy : policy.present = true) : ∀ {pages : List ℕ} {m : Memory},
    pages.Nodup → pages.foldlM (sbrkPage proc policy) m = .ok m' →
      pages.length ≤ (freeFrames m).length ∧
        (∀ x ∈ pages.zip (freeFrames m), m'.pte proc x.1 = ⟨x.2, policy⟩) ∧
        (∀ i ∉ pages, m'.pte proc i = m.pte proc i) ∧ m'.lowestPe proc = m.lowestPe proc
  | [], m, _, h => by
      obtain rfl := Except.ok.inj h
      simp
  | page :: pages, m, hnodup, h => by
      obtain ⟨hnot, hnodup⟩ := List.nodup_cons.mp hnodup
      rw [List.foldlM_cons, bind_eq_ok] at h
      obtain ⟨m₁, h₁, h⟩ := h
      obtain ⟨f, htook⟩ := sbrkPage_took hpolicy h₁
      obtain ⟨hlen, hentries, hother, hlow⟩ := pages_took hpolicy hnodup h
      rw [htook.frames]
      refine ⟨by simpa using hlen, fun x hx => ?_, fun i hi => ?_, hlow.trans htook.lowestPe⟩
      · rw [List.zip_cons_cons, List.mem_cons] at hx
        rcases hx with rfl | hx
        · exact (hother _ hnot).trans htook.entry
        · exact hentries x hx
      · rw [List.mem_cons, not_or] at hi
        exact (hother i hi.2).trans (htook.other i hi.1)

/-! ## The loop over lazily allocated pages -/

lemma getFreeFrame_again (hlow : m'.lowestFreeFrame = m.getFreeFrame.1)
    (hpage : m'.frameToPage = m.frameToPage) : m'.getFreeFrame.1 = m.getFreeFrame.1 := by
  obtain ⟨h₁, h₂, -, h₄⟩ := skipWhile_spec m.frameUsed (numFrames - m.lowestFreeFrame)
    m.lowestFreeFrame
  have hused : m'.frameUsed = m.frameUsed := by
    funext f
    rw [frameUsed, frameUsed, hpage]
  simp only [getFreeFrame] at hlow ⊢
  rw [hlow, hused]
  set k := skipWhile m.frameUsed (numFrames - m.lowestFreeFrame) m.lowestFreeFrame
  cases hfuel : numFrames - k with
  | zero => rfl
  | succ fuel => rw [skipWhile, h₄ (by omega), if_neg (by simp)]

lemma kernelLazy_loop (hpolicy : policy.present = false) : ∀ {pages : List ℕ} {m : Memory},
    (∀ i ∈ pages, i < numFrames) → ∃ m', pages.foldlM (sbrkKernelPage policy) m = .ok m' ∧
      (∀ i ∈ pages, m'.pte .kernel i = ⟨m.getFreeFrame.1 % numFrames, policy⟩) ∧
      (∀ i ∉ pages, m'.pte .kernel i = m.pte .kernel i) ∧ m'.lowestPe .kernel = m.lowestPe .kernel
  | [], m, _ => ⟨m, rfl, by simp⟩
  | page :: pages, m, hpages => by
      set m₁ := m.givenFrame policy page m.getFreeFrame.1 with hm₁
      have h₁ : sbrkKernelPage policy m page = .ok m₁ :=
        allocatePage_eq_ok.mpr ⟨hpages page List.mem_cons_self, by simp [hpolicy], rfl⟩
      obtain ⟨m', h, hentries, hother, hlow⟩ := @kernelLazy_loop hpolicy pages m₁
        fun i hi => hpages i (List.mem_cons_of_mem page hi)
      have hagain : m₁.getFreeFrame.1 = m.getFreeFrame.1 := by
        refine getFreeFrame_again ?_ ?_
        · rw [hm₁, givenFrame, lowestFreeFrame_allocated]
        · simp [hm₁, givenFrame, allocated, hpolicy]
      rw [hagain] at hentries
      refine ⟨m', by rw [List.foldlM_cons, h₁]; exact h, fun i hi => ?_, fun i hi => ?_, ?_⟩
      · by_cases hmem : i ∈ pages
        · exact hentries i hmem
        · obtain rfl := (List.mem_cons.mp hi).resolve_right hmem
          rw [hother i hmem, hm₁, pte_givenFrame, if_pos ⟨rfl, rfl⟩]
      · rw [List.mem_cons, not_or] at hi
        rw [hother i hi.2, hm₁, pte_givenFrame, if_neg fun hc => hi.1 hc.2]
      · rw [hlow, hm₁, lowestPe_givenFrame]

lemma userLazy_loop : ∀ {pages : List ℕ} {m : Memory}, pages.Nodup →
    (∀ i ∈ pages, i < userEntries ∧ (m.pte (.user pid) i).used = false) →
      ∃ m', pages.foldlM (sbrkLazyPage pid policy) m = .ok m'
  | [], m, _, _ => ⟨m, rfl⟩
  | page :: pages, m, hnodup, hpages => by
      obtain ⟨hnot, hnodup⟩ := List.nodup_cons.mp hnodup
      obtain ⟨hpage, hunused⟩ := hpages page List.mem_cons_self
      have h₁ : sbrkLazyPage pid policy m page = .ok (m.updated (.user pid) page ⟨0, policy⟩) := by
        refine updatePte_eq_ok.mpr ⟨hpage, fun hmapped => ?_, rfl⟩
        rw [Entry.used_of_mapped hmapped] at hunused
        exact Bool.noConfusion hunused
      obtain ⟨m', h⟩ := @userLazy_loop pages (m.updated (.user pid) page ⟨0, policy⟩) hnodup
        fun i hi => by
          have hne : i ≠ page := fun hc => hnot (hc ▸ hi)
          rw [pte_updated_of_ne fun _ => hne]
          exact hpages i (List.mem_cons_of_mem page hi)
      refine ⟨m', ?_⟩
      rw [List.foldlM_cons, h₁]
      exact h

/-! ## The whole of `sbrk` -/

/-- The turns before the `k`th that took a reference from the frame `f`: those whose page had an
entry that named it. -/
def droppedBefore (proc : ProcId) (b k f : ℕ) (m : Memory) : ℕ :=
  ((List.range' b k).map fun i => dropped proc (m.pte proc i)).count (some f)

/-- What a request for the pages from `b` on needs to go through. -/
structure Room (proc : ProcId) (n b : ℕ) (policy : Flags) (m : Memory) : Prop where
  supported : policy.cow = false ∧ policy.shro = false
  user : proc ≠ .kernel → policy.user = true
  frames : policy.present = true →
    ∀ k < n, ∃ f, (freeFrames m)[k]? = some f ∧ m.frameRc f ≤ droppedBefore proc b k f m
  pes : policy.present = true → proc ≠ .kernel → n ≤ (freePes m).length
  left : ∃ i, m.lowestPe proc ≤ i ∧ i < proc.entries ∧ (m.pte proc i).used = false ∧
    ¬ (b ≤ i ∧ i < b + n)

lemma enough_range' : Enough ((List.range' b n).map fun i => dropped proc (m.pte proc i))
    (freeFrames m) m.frameRc ↔
      ∀ k < n, ∃ f, (freeFrames m)[k]? = some f ∧ m.frameRc f ≤ droppedBefore proc b k f m := by
  rw [enough_iff, List.length_map, List.length_range']
  refine forall₂_congr fun k hk => ?_
  simp only [← List.map_take, droppedBefore, List.take_range'_of_length_ge hk.le]

lemma advanceLowestPe_succeeds_iff : (∃ m', advanceLowestPe proc m = .ok m') ↔
    ∃ i, m.lowestPe proc ≤ i ∧ i < proc.entries ∧ (m.pte proc i).used = false := by
  obtain ⟨h₁, h₂, h₃, h₄⟩ := skipWhile_spec (fun i => (m.pte proc i).used)
    (proc.entries - m.lowestPe proc) (m.lowestPe proc)
  rw [advanceLowestPe]
  constructor
  · rintro ⟨m', h⟩
    split_ifs at h with hout
    exact ⟨_, h₁, by omega, h₄ (by omega)⟩
  · rintro ⟨i, hlow, hlt, hunused⟩
    refine ⟨_, if_neg fun hout => ?_⟩
    have hused := h₃ i hlow (by omega)
    rw [hunused] at hused
    exact Bool.noConfusion hused

/-- What the loops of `sbrk` leave in the table. -/
structure Filling (proc : ProcId) (n b : ℕ) (policy : Flags) (m m' : Memory) : Prop where
  flags : ∀ i, b ≤ i → i < b + n → (m'.pte proc i).flags = policy
  other : ∀ i, ¬ (b ≤ i ∧ i < b + n) → m'.pte proc i = m.pte proc i
  lowestPe : m'.lowestPe proc = m.lowestPe proc
  mapped : policy.present = true → n ≤ (freeFrames m).length ∧
    ∀ x ∈ (List.range' b n).zip (freeFrames m), m'.pte proc x.1 = ⟨x.2, policy⟩
  named : policy.present = false → proc = .kernel → ∀ i, b ≤ i → i < b + n →
    (m'.pte proc i).frame = m.getFreeFrame.1 % numFrames

section

variable (hpolicy : policy.present = !policy.lazyZero)

include hpolicy

/-- **The loops of `sbrk`** go through iff the frames and the entries suffice. -/
lemma sbrkPages_succeed_iff (hb : b + n ≤ proc.entries)
    (hunused : ∀ i, b ≤ i → i < b + n → (m.pte proc i).used = false) :
    (∃ m', sbrkPages proc n b policy m = .ok m') ↔
      (proc ≠ .kernel → policy.user = true) ∧
      (policy.present = true → ∀ k < n, ∃ f, (freeFrames m)[k]? = some f ∧
        m.frameRc f ≤ droppedBefore proc b k f m) ∧
      (policy.present = true → proc ≠ .kernel → n ≤ (freePes m).length) := by
  have hpages : ∀ i ∈ List.range' b n, i < proc.entries ∧ (m.pte proc i).used = false := by
    intro i hi
    rw [List.mem_range'_1] at hi
    exact ⟨by omega, hunused i hi.1 hi.2⟩
  have hnodup : (List.range' b n).Nodup := List.nodup_range' ..
  by_cases hpresent : policy.present = true
  · have hloop := pages_succeed_iff hpresent hnodup hpages
    rw [List.length_range', enough_range'] at hloop
    have hlazy : policy.lazyZero = false := by simpa [hpresent] using hpolicy
    cases proc with
    | kernel =>
        simp only [sbrkPage] at hloop
        simp only [sbrkPages, hloop, hpresent]
        simp
    | user pid =>
        simp only [sbrkPage] at hloop
        by_cases huser : policy.user = true
        · simp only [sbrkPages, huser, hlazy, hpresent, Bool.not_true, Bool.false_eq_true, if_false,
            Bool.not_false, if_true, hloop]
          simp [and_comm]
        · simp [sbrkPages, huser]
  · have hlazy : policy.lazyZero = true := by simpa [hpresent] using hpolicy
    simp only [hpresent, Bool.false_eq_true, false_imp_iff, and_true]
    cases proc with
    | kernel =>
        obtain ⟨m', h, -⟩ := @kernelLazy_loop policy (by simpa using hpresent) (List.range' b n) m
          fun i hi => (hpages i hi).1
        simp only [ne_eq, not_true_eq_false, false_imp_iff, iff_true]
        exact ⟨m', h⟩
    | user pid =>
        obtain ⟨m', h⟩ := @userLazy_loop pid policy _ m hnodup hpages
        by_cases huser : policy.user = true
        · simp only [huser, implies_true, iff_true]
          exact ⟨m', by simpa [sbrkPages, huser, hlazy] using h⟩
        · simp [sbrkPages, huser]

lemma sbrkPages_filling (hb : b + n ≤ proc.entries) (h : sbrkPages proc n b policy m = .ok m') :
    Filling proc n b policy m m' := by
  have hmem : ∀ i, i ∈ List.range' b n ↔ b ≤ i ∧ i < b + n := fun i => by rw [List.mem_range'_1]
  have hnodup : (List.range' b n).Nodup := List.nodup_range' ..
  by_cases hpresent : policy.present = true
  · have hlazy : policy.lazyZero = false := by simpa [hpresent] using hpolicy
    have hloop : (List.range' b n).foldlM (sbrkPage proc policy) m = .ok m' := by
      cases proc with
      | kernel => exact h
      | user pid =>
          simp only [sbrkPages, hlazy, Bool.not_false, if_true] at h
          split_ifs at h with huser
          exact h
    obtain ⟨hlen, hentries, hother, hlow⟩ := pages_took hpresent hnodup hloop
    rw [List.length_range'] at hlen
    refine ⟨fun i h₁ h₂ => ?_, fun i hi => hother i (by rwa [hmem]), hlow,
      fun _ => ⟨hlen, hentries⟩, fun hp => by simp [hpresent] at hp⟩
    -- the page at `i` is the one that got the frame at that place
    have hk : i - b < ((List.range' b n).zip (freeFrames m)).length := by
      rw [List.length_zip, List.length_range']
      omega
    have hx := hentries _ (List.getElem_mem hk)
    rw [List.getElem_zip, List.getElem_range'] at hx
    rw [show i = b + 1 * (i - b) by omega, hx]
  · have hlazy : policy.lazyZero = true := by simpa [hpresent] using hpolicy
    cases proc with
    | kernel =>
        obtain ⟨m₁, hok, hentries, hother, hlow⟩ := @kernelLazy_loop policy (by simpa using hpresent)
          (List.range' b n) m fun i hi => by
            rw [hmem] at hi
            exact lt_of_lt_of_le hi.2 hb
        rw [sbrkPages, hok, Except.ok.injEq] at h
        subst h
        exact ⟨fun i h₁ h₂ => by rw [hentries i ((hmem i).mpr ⟨h₁, h₂⟩)],
          fun i hi => hother i (by rwa [hmem]), hlow, fun hp => absurd hp hpresent,
          fun _ _ i h₁ h₂ => by rw [hentries i ((hmem i).mpr ⟨h₁, h₂⟩)]⟩
    | user pid =>
        simp only [sbrkPages, hlazy, Bool.not_true, Bool.false_eq_true, if_false] at h
        split_ifs at h with huser
        have hfill := filled_of_foldlM (fun _ _ _ => sbrkLazyPage_filled) h
        exact ⟨fun i h₁ h₂ => hfill.flags i ((hmem i).mpr ⟨h₁, h₂⟩),
          fun i hi => hfill.other i (by rwa [hmem]), hfill.lowestPe, fun hp => absurd hp hpresent,
          fun _ hk => by simp at hk⟩

end

section

variable {info : PageInfo} {hint : HintInfo}

lemma sbrk_frames {addr : ℕ} (h : sbrk proc n info hint m = .ok (addr, m')) :
    m'.frames = m.frames := by
  refine sbrk_rule (P := fun c => c.frames = m.frames) h rfl ?_ ?_ ?_ ?_
  · intro _ m₁ m₂ page hP _ hrun
    obtain ⟨frame, m₃, hs, -, -, -, rfl⟩ := allocateFreePage_spec hrun
    rw [frames_allocated, hs.frames, hP]
  · intro pid _ _ m₁ m₂ page hP _ hrun
    obtain ⟨frame, sysPe, m₃, hs, -, -, -, -, -, rfl⟩ := sbrkUserPage_spec hrun
    rw [frames_updated, frames_allocated, hs.frames, hP]
  · intro pid _ _ m₁ page hP _ _
    rw [frames_updated, hP]
  · intro m₁ pe hP
    rw [frames_setLowestPe, hP]

lemma sbrk_found_eq_ok {r : ℕ × Memory} (hfull : m.lowestFreeFrame ≠ numFrames)
    (hpages : getContiguousPages n hint proc m = .ok (some b))
    (hpolicy : info.policy.present = !info.policy.lazyZero) : sbrk proc n info hint m = .ok r ↔
      (info.policy.cow = false ∧ info.policy.shro = false) ∧
        ∃ m₁, sbrkPages proc n b info.policy m = .ok m₁ ∧
          ∃ m₂, advanceLowestPe proc m₁ = .ok m₂ ∧ r = (b * pageSize, m₂) := by
  have hboth : (info.policy.present && info.policy.lazyZero) = false := by
    rw [hpolicy]
    simp
  rw [sbrk, if_neg hfull, hpages]
  by_cases hflags : (info.policy.cow || info.policy.shro) = true
  · have hnot : ¬ (info.policy.cow = false ∧ info.policy.shro = false) := by
      rintro ⟨h₁, h₂⟩
      simp [h₁, h₂] at hflags
    simp [bind, Except.bind, hflags, hnot]
  · have hgood : info.policy.cow = false ∧ info.policy.shro = false := by
      simpa only [Bool.or_eq_true, not_or, Bool.not_eq_true] using hflags
    simp only [hgood, hboth, Bool.or_self, Bool.false_eq_true, if_false, and_self, true_and]
    constructor
    · intro h
      obtain ⟨r₁, hr₁, h⟩ := bind_eq_ok.mp h
      obtain rfl := Except.ok.inj hr₁
      obtain ⟨m₁, h₁, h⟩ := bind_eq_ok.mp h
      obtain ⟨m₂, h₂, h⟩ := bind_eq_ok.mp h
      exact ⟨m₁, h₁, m₂, h₂, (Except.ok.inj h).symm⟩
    · rintro ⟨m₁, h₁, m₂, h₂, rfl⟩
      exact bind_eq_ok.mpr ⟨_, rfl, bind_eq_ok.mpr ⟨m₁, h₁, bind_eq_ok.mpr ⟨m₂, h₂, rfl⟩⟩⟩

lemma used_of_policy {e : Entry} (hpolicy : policy.present = !policy.lazyZero)
    (he : e.flags = policy) : e.used = true := by
  rw [Entry.used, he, hpolicy]
  simp

/-- **`sbrk` goes through** iff there is room, once its pages are found. -/
theorem sbrk_found_iff (hfull : m.lowestFreeFrame ≠ numFrames)
    (hpages : getContiguousPages n hint proc m = .ok (some b))
    (hpolicy : info.policy.present = !info.policy.lazyZero) :
    (∃ r, sbrk proc n info hint m = .ok r) ↔ Room proc n b info.policy m := by
  obtain ⟨hb, hunused, -⟩ := getContiguousPages_spec hpages
  simp only [sbrk_found_eq_ok hfull hpages hpolicy]
  -- the unused entries after the loop are those that were unused and are not filled
  have hleft : ∀ m₁, Filling proc n b info.policy m m₁ →
      ((∃ m₂, advanceLowestPe proc m₁ = .ok m₂) ↔ ∃ i, m.lowestPe proc ≤ i ∧ i < proc.entries ∧
        (m.pte proc i).used = false ∧ ¬ (b ≤ i ∧ i < b + n)) := by
    intro m₁ hfill
    rw [advanceLowestPe_succeeds_iff, hfill.lowestPe]
    refine exists_congr fun i => and_congr_right fun _ => and_congr_right fun _ => ?_
    constructor
    · intro hi
      have hout : ¬ (b ≤ i ∧ i < b + n) := by
        rintro ⟨h₁, h₂⟩
        rw [used_of_policy hpolicy (hfill.flags i h₁ h₂)] at hi
        exact Bool.noConfusion hi
      exact ⟨by rw [← hfill.other i hout, hi], hout⟩
    · rintro ⟨hi, hout⟩
      rw [hfill.other i hout, hi]
  constructor
  · rintro ⟨r, hflags, m₁, h₁, m₂, h₂, -⟩
    obtain ⟨huser, hframes, hpes⟩ := (sbrkPages_succeed_iff hpolicy hb hunused).mp ⟨m₁, h₁⟩
    exact ⟨hflags, huser, hframes, hpes, (hleft m₁ (sbrkPages_filling hpolicy hb h₁)).mp ⟨m₂, h₂⟩⟩
  · intro hroom
    obtain ⟨m₁, h₁⟩ := (sbrkPages_succeed_iff hpolicy hb hunused).mpr
      ⟨hroom.user, hroom.frames, hroom.pes⟩
    obtain ⟨m₂, h₂⟩ := (hleft m₁ (sbrkPages_filling hpolicy hb h₁)).mpr hroom.left
    exact ⟨_, hroom.supported, m₁, h₁, m₂, h₂, rfl⟩

/-! ## All or nothing -/

/-- The pages from `b` on are mapped as asked: frames that were free, no two the same, under the
pages that are present, and no other frame named in the tables of the kernel. -/
structure Maps (proc : ProcId) (n b : ℕ) (policy : Flags) (m m' : Memory) : Prop where
  flags : ∀ k < n, (m'.pte proc (b + k)).flags = policy
  distinct : policy.present = true → ∃ fs : List ℕ, fs.length = n ∧ fs.Nodup ∧
    (∀ f ∈ fs, f ∈ freeFrames m) ∧ ∀ k f, fs[k]? = some f → m'.pte proc (b + k) = ⟨f, policy⟩
  named : proc = .kernel → ∀ k < n, (m'.pte .kernel (b + k)).frame ∈ freeFrames m

/-- `sbrk` returns the pages it was asked for, or null without having done anything. -/
def SbrkRight (proc : ProcId) (n : ℕ) (info : PageInfo) (hint : HintInfo) (m : Memory) : Prop :=
  ∃ addr m', sbrk proc n info hint m = .ok (addr, m') ∧
    (addr = 0 ∧ m' = m ∨ ∃ b ≠ 0, addr = b * pageSize ∧ Maps proc n b info.policy m m')

lemma Filling.maps (h : Filling proc n b policy m m₁) (hpte : m'.pte = m₁.pte)
    (hfree : proc = .kernel → freeFrames m ≠ []) : Maps proc n b policy m m' := by
  have hdistinct : policy.present = true → ∃ fs : List ℕ, fs.length = n ∧ fs.Nodup ∧
      (∀ f ∈ fs, f ∈ freeFrames m) ∧ ∀ k f, fs[k]? = some f → m'.pte proc (b + k) = ⟨f, policy⟩ := by
    intro hpresent
    obtain ⟨hlen, hentries⟩ := h.mapped hpresent
    refine ⟨(freeFrames m).take n, by simp [hlen], nodup_freeFrames.sublist (List.take_sublist ..),
      fun f hf => List.mem_of_mem_take hf, fun k f hk => ?_⟩
    rw [List.getElem?_take] at hk
    split_ifs at hk with hlt
    rw [hpte]
    refine hentries (b + k, f) ?_
    rw [List.mem_iff_getElem?]
    refine ⟨k, ?_⟩
    rw [List.getElem?_zip_eq_some]
    exact ⟨by simp [hlt], hk⟩
  refine ⟨fun k hk => ?_, hdistinct, fun hproc k hk => ?_⟩
  · rw [hpte]
    exact h.flags _ (by omega) (by omega)
  · subst hproc
    by_cases hpresent : policy.present = true
    · obtain ⟨fs, hlen, -, hmem, hentry⟩ := hdistinct hpresent
      have hklt : k < fs.length := by omega
      have hget : fs[k]? = some fs[k] := List.getElem?_eq_getElem hklt
      rw [hentry k _ hget]
      exact hmem _ (List.getElem_mem _)
    · obtain ⟨f, rest, hcons⟩ := List.exists_cons_of_ne_nil (hfree rfl)
      have hmem : f ∈ freeFrames m := by simp [hcons]
      rw [hpte, h.named (by simpa using hpresent) rfl _ (by omega) (by omega),
        getFreeFrame_cons hcons, Nat.mod_eq_of_lt (mem_freeFrames.mp hmem).2.1]
      exact hmem

/-- **All or nothing.**  For a request that gets past the checks of `allocate`, `sbrk` is right iff
memory is full, or there are no such pages, or they are found, not at address `0`, with room for the
whole request, and the kernel has a free frame to name. -/
theorem sbrk_right_iff (hn : 1 ≤ n) (hpolicy : info.policy.present = !info.policy.lazyZero) :
    SbrkRight proc n info hint m ↔
      m.lowestFreeFrame = numFrames ∨ getContiguousPages n hint proc m = .ok none ∨
        ∃ b ≠ 0, getContiguousPages n hint proc m = .ok (some b) ∧
          Room proc n b info.policy m ∧ (proc = .kernel → freeFrames m ≠ []) := by
  by_cases hfull : m.lowestFreeFrame = numFrames
  · refine iff_of_true ⟨0, m, ?_, Or.inl ⟨rfl, rfl⟩⟩ (Or.inl hfull)
    rw [sbrk, if_pos hfull]
  simp only [hfull, false_or]
  cases hpages : getContiguousPages n hint proc m with
  | error f =>
      refine iff_of_false ?_ (by simp)
      rintro ⟨addr, m', h, -⟩
      rw [sbrk, if_neg hfull, hpages] at h
      simp [bind, Except.bind] at h
  | ok found =>
      cases found with
      | none =>
          refine iff_of_true ⟨0, m, ?_, Or.inl ⟨rfl, rfl⟩⟩ (Or.inl rfl)
          rw [sbrk, if_neg hfull, hpages]
          rfl
      | some b =>
          obtain ⟨hb, hunused, -⟩ := getContiguousPages_spec hpages
          constructor
          · rintro ⟨addr, m', h, hright⟩
            have hroom := (sbrk_found_iff hfull hpages hpolicy).mp ⟨_, h⟩
            obtain ⟨-, m₁, h₁, m₂, h₂, hr⟩ := (sbrk_found_eq_ok hfull hpages hpolicy).mp h
            simp only [Prod.mk.injEq] at hr
            obtain ⟨rfl, rfl⟩ := hr
            obtain ⟨pe, -, rfl⟩ := advanceLowestPe_spec h₂
            have hfill := sbrkPages_filling hpolicy hb h₁
            -- the first page was unused, so the state is not the one before
            have hchanged : m₁.setLowestPe proc pe ≠ m := by
              intro hsame
              have hused := used_of_policy hpolicy (hfill.flags b le_rfl (by omega))
              rw [← pte_setLowestPe m₁ proc pe, hsame, hunused b le_rfl (by omega)] at hused
              exact Bool.noConfusion hused
            rcases hright with ⟨-, hsame⟩ | ⟨c, hc, haddr, hmaps⟩
            · exact absurd hsame hchanged
            · obtain rfl : b = c := by
                simp only [pageSize] at haddr
                omega
              refine Or.inr ⟨b, hc, rfl, hroom, fun hproc hnil => ?_⟩
              have hnamed := hmaps.named hproc 0 (by omega)
              rw [hnil] at hnamed
              simp at hnamed
          · rintro (hnone | ⟨c, hc, hsome, hroom, hfree⟩)
            · simp at hnone
            · simp only [Except.ok.injEq, Option.some.injEq] at hsome
              subst hsome
              obtain ⟨⟨addr, m'⟩, h⟩ := (sbrk_found_iff hfull hpages hpolicy).mpr hroom
              refine ⟨addr, m', h, Or.inr ⟨b, hc, ?_⟩⟩
              obtain ⟨-, m₁, h₁, m₂, h₂, hr⟩ := (sbrk_found_eq_ok hfull hpages hpolicy).mp h
              simp only [Prod.mk.injEq] at hr
              obtain ⟨rfl, rfl⟩ := hr
              obtain ⟨pe, -, rfl⟩ := advanceLowestPe_spec h₂
              exact ⟨rfl, (sbrkPages_filling hpolicy hb h₁).maps (by simp) hfree⟩

end

/-- Memory in which only the frames from `first` on are free. -/
def framesFrom (first : ℕ) : Memory :=
  { bootMemory with
    frameToPage := fun f => if first ≤ f then none else some 0
    lowestFreeFrame := first }

/-- Two pages for the kernel, with two frames left. -/
theorem sbrk_right_two_frames :
    SbrkRight .kernel 2 defaultKPageInfo defaultHintInfo (framesFrom 1048574) := by
  refine (sbrk_right_iff (by decide) rfl).mpr
    (Or.inr (Or.inr ⟨790528, by decide, by decide +kernel, ?_, ?_⟩))
  · have hlist : freeFrames (framesFrom 1048574) = [1048574, 1048575] := by decide +kernel
    refine ⟨⟨rfl, rfl⟩, fun h => absurd rfl h, fun _ k hk => ?_, fun _ h => absurd rfl h,
      790530, by decide +kernel⟩
    rw [hlist]
    interval_cases k
    · exact ⟨1048574, rfl, by decide +kernel⟩
    · exact ⟨1048575, rfl, by decide +kernel⟩
  · intro _ hnil
    have hlist : freeFrames (framesFrom 1048574) = [1048574, 1048575] := by decide +kernel
    simp [hlist] at hnil

/-- **With one frame left** the second page makes the kernel index `frame_to_page` behind its end. -/
theorem sbrk_one_frame_left :
    ¬ SbrkRight .kernel 2 defaultKPageInfo defaultHintInfo (framesFrom 1048575) := by
  have hrun : (sbrk .kernel 2 defaultKPageInfo defaultHintInfo (framesFrom 1048575)).map Prod.fst =
      .error .outOfBounds := by decide +kernel
  rintro ⟨addr, m', h, -⟩
  simp [h, Except.map] at hrun

end BrebOS.Memory

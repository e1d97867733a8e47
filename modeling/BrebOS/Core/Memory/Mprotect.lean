import BrebOS.Core.Memory.Heap
import BrebOS.Core.Memory.Faults

/-!
# What `mprotect` changes

`mprotect` counts the pages of the range and runs two loops over that many turns, one that checks
and one that applies.  Both compute the page of turn `id` as `ADDR_PAGE(uaddr + id)`: the index is
added to an **address**, so 4096 turns go by before the next page is looked at.  The call is right
for one page; for a longer range it is right only by what happens to be in the pages it never looks
at.

* `mprotectPages` (from `Core.Memory.Faults`) are the pages looked at, one a turn;
* `Intersects` are the pages meant;
* `mprotect_right_iff` compares the two.
-/

namespace BrebOS.Memory

variable {m m' : Memory} {proc : ProcId} {addr len page : ℕ} {prot : Prot} {pages : List ℕ}

/-- The page has an address of `[addr, addr + len)`. -/
def Intersects (addr len page : ℕ) : Prop := ∃ x, addr ≤ x ∧ x < addr + len ∧ addrPage x = page

/-- The page has an entry, and it is `PRESENT` or `LAZY_ZERO`. -/
def InUse (m : Memory) (proc : ProcId) (page : ℕ) : Prop :=
  page < proc.entries ∧ (m.pte proc page).used = true

/-- `mprotect` does what its caller asks: an error and no change if some page of the range is not
mapped, else exactly the pages of the range get the new value of `PAGE_WRITE`. -/
def MprotectRight (addr len : ℕ) (prot : Prot) (proc : ProcId) (m : Memory) : Prop :=
  ∃ r m', mprotect addr len prot proc m = .ok (r, m') ∧
    ((∃ page, Intersects addr len page ∧ ¬ InUse m proc page) → r = .enomem ∧ m'.pte = m.pte) ∧
    ((∀ page, Intersects addr len page → InUse m proc page) → r = .ok ∧
      (∀ page, Intersects addr len page →
        m'.pte proc page = withWrite prot.write (m.pte proc page)) ∧
      ∀ p page, ¬ (p = proc ∧ Intersects addr len page) → m'.pte p page = m.pte p page)

/-- The check stops: the first page looked at that is not mapped has an entry, which is neither
`COW` nor `SHRO`. -/
def Stops (m : Memory) (proc : ProcId) (pages : List ℕ) : Prop :=
  ∃ before page after, pages = before ++ page :: after ∧ (∀ i ∈ before, InUse m proc i) ∧
    page < proc.entries ∧ (m.pte proc page).used = false ∧ (m.pte proc page).flags.cow = false ∧
    (m.pte proc page).flags.shro = false

/-- The reference counts last: when `update_pte` comes to a present page, its frame still has a
reference.  An entry that maps no frame takes one off the frame it names. -/
def CountsLast (m : Memory) (proc : ProcId) (pages : List ℕ) : Prop :=
  ∀ before page after, pages = before ++ page :: after → (m.pte proc page).mapped = true →
    before.countP (fun i => !(m.pte proc i).mapped &&
      (m.pte proc i).frame == (m.pte proc page).frame) < m.frameRc (m.pte proc page).frame

/-! ## The check -/

lemma mprotectCheck_eq_true : ∀ {ids : List ℕ}, mprotectCheck proc addr m ids = .ok true ↔
    ∀ i ∈ ids.map (mprotectPage addr), InUse m proc i := by
  intro ids
  induction ids with
  | nil => simp [mprotectCheck]
  | cons id ids ih =>
      simp only [mprotectCheck, List.map_cons, List.forall_mem_cons, ← ih]
      by_cases hout : proc.entries ≤ mprotectPage addr id
      · simp [hout, InUse, Nat.not_lt.mpr hout]
      · rw [if_neg hout]
        have hlt := Nat.not_le.mp hout
        by_cases hused : (m.pte proc (mprotectPage addr id)).used = true
        · simp only [Entry.used] at hused
          simp [hused, InUse, hlt, Entry.used]
        · simp only [Entry.used, Bool.not_eq_true] at hused
          simp only [hused, InUse, Entry.used, Bool.not_false, if_true]
          split_ifs <;> simp

lemma stops_cons : Stops m proc (page :: pages) ↔
    (page < proc.entries ∧ (m.pte proc page).used = false ∧ (m.pte proc page).flags.cow = false ∧
      (m.pte proc page).flags.shro = false) ∨ InUse m proc page ∧ Stops m proc pages := by
  constructor
  · rintro ⟨before, i, after, heq, hbefore, hi⟩
    cases before with
    | nil =>
        obtain ⟨rfl, rfl⟩ := List.cons.inj heq
        exact Or.inl hi
    | cons j before =>
        obtain ⟨rfl, rfl⟩ := List.cons.inj heq
        exact Or.inr ⟨hbefore page (by simp), before, i, after, rfl,
          fun k hk => hbefore k (by simp [hk]), hi⟩
  · rintro (h | ⟨hpage, before, i, after, rfl, hbefore, hi⟩)
    · exact ⟨[], page, pages, rfl, by simp, h⟩
    · exact ⟨page :: before, i, after, rfl, List.forall_mem_cons.mpr ⟨hpage, hbefore⟩, hi⟩

lemma mprotectCheck_eq_false : ∀ {ids : List ℕ}, mprotectCheck proc addr m ids = .ok false ↔
    Stops m proc (ids.map (mprotectPage addr)) := by
  intro ids
  induction ids with
  | nil => simp [mprotectCheck, Stops]
  | cons id ids ih =>
      rw [List.map_cons, stops_cons, ← ih, mprotectCheck]
      by_cases hout : proc.entries ≤ mprotectPage addr id
      · simp [hout, InUse, Nat.not_lt.mpr hout]
      · rw [if_neg hout]
        have hlt := Nat.not_le.mp hout
        cases hused : (m.pte proc (mprotectPage addr id)).used with
        | true =>
            simp only [Entry.used] at hused
            simp [hused, InUse, hlt, Entry.used]
        | false =>
            simp only [Entry.used] at hused
            simp only [hused, InUse, Entry.used, hlt, Bool.not_false, if_true]
            split_ifs with h
            · simp only [Bool.or_eq_true] at h
              rcases h with h | h <;> simp [h]
            · simp only [Bool.or_eq_true, not_or, Bool.not_eq_true] at h
              simp [h]

/-! ## The change -/

lemma frameRc_withWrite {write : Bool} {f : ℕ}
    (h : (m.pte proc page).mapped = true → m.frameRc (m.pte proc page).frame ≠ 0) :
    (m.updated proc page (withWrite write (m.pte proc page))).frameRc f = m.frameRc f -
      if !(m.pte proc page).mapped && (m.pte proc page).frame == f then 1 else 0 := by
  have hmap : (withWrite write (m.pte proc page)).mapped = (m.pte proc page).mapped := rfl
  have hframe : (withWrite write (m.pte proc page)).frame = (m.pte proc page).frame := rfl
  rw [frameRc_updated, Entry.refs, hmap, hframe]
  cases hm : (m.pte proc page).mapped with
  | false => simp
  | true =>
      by_cases hf : (m.pte proc page).frame = f
      · have := h hm
        rw [hf] at this
        simp only [hf, if_true, and_self, Bool.not_true, Bool.false_and, Bool.false_eq_true, if_false]
        omega
      · simp [hf]

lemma pte_withWrite_mapped {write : Bool} (i : ℕ) :
    ((m.updated proc page (withWrite write (m.pte proc page))).pte proc i).mapped =
        (m.pte proc i).mapped ∧
      ((m.updated proc page (withWrite write (m.pte proc page))).pte proc i).frame =
        (m.pte proc i).frame := by
  rw [pte_updated]
  split_ifs with h
  · obtain ⟨-, rfl⟩ := h
    exact ⟨rfl, rfl⟩
  · exact ⟨rfl, rfl⟩

lemma countsLast_cons (write : Bool) : CountsLast m proc (page :: pages) ↔
    ((m.pte proc page).mapped = true → m.frameRc (m.pte proc page).frame ≠ 0) ∧
      CountsLast (m.updated proc page (withWrite write (m.pte proc page))) proc pages := by
  have hcount : ((m.pte proc page).mapped = true → m.frameRc (m.pte proc page).frame ≠ 0) →
      ∀ (before : List ℕ) (i : ℕ),
        ((page :: before).countP (fun j => !(m.pte proc j).mapped &&
            (m.pte proc j).frame == (m.pte proc i).frame) < m.frameRc (m.pte proc i).frame ↔
          before.countP (fun j => !(m.pte proc j).mapped &&
              (m.pte proc j).frame == (m.pte proc i).frame) <
            (m.updated proc page (withWrite write (m.pte proc page))).frameRc
              (m.pte proc i).frame) := by
    intro hrc before i
    rw [frameRc_withWrite hrc, List.countP_cons]
    omega
  constructor
  · intro h
    have hrc : (m.pte proc page).mapped = true → m.frameRc (m.pte proc page).frame ≠ 0 := by
      intro hm
      have := h [] page pages rfl hm
      omega
    refine ⟨hrc, ?_⟩
    rintro before i after rfl hi
    simp only [pte_withWrite_mapped] at hi ⊢
    exact (hcount hrc before i).mp (h (page :: before) i after rfl hi)
  · rintro ⟨hrc, h⟩ before i after heq hi
    cases before with
    | nil =>
        obtain ⟨rfl, rfl⟩ := List.cons.inj heq
        simpa using Nat.pos_of_ne_zero (hrc hi)
    | cons j before =>
        obtain ⟨rfl, rfl⟩ := List.cons.inj heq
        refine (hcount hrc before i).mpr ?_
        have := h before i after rfl
        simp only [pte_withWrite_mapped] at this
        exact this hi

/-- **The loop that applies the new flags** goes to its end iff the counts last, and then it has
written the pages it looked at and nothing else. -/
lemma mprotectApply_loop {write : Bool} : ∀ {ids : List ℕ} {m : Memory},
    (∀ i ∈ ids.map (mprotectPage addr), InUse m proc i) →
      (∀ m', ids.foldlM (mprotectApply proc addr write) m = .ok m' →
        CountsLast m proc (ids.map (mprotectPage addr)) ∧ ∀ p i, m'.pte p i =
          if p = proc ∧ i ∈ ids.map (mprotectPage addr) then withWrite write (m.pte p i)
          else m.pte p i) ∧
      (CountsLast m proc (ids.map (mprotectPage addr)) →
        ∃ m', ids.foldlM (mprotectApply proc addr write) m = .ok m') := by
  intro ids
  induction ids with
  | nil =>
      intro m _
      refine ⟨?_, fun _ => ⟨m, rfl⟩⟩
      rintro m' h
      simp only [List.foldlM_nil, pure, Except.pure, Except.ok.injEq] at h
      subst h
      refine ⟨?_, by simp⟩
      rintro before i after h
      simp at h
  | cons id ids ih =>
      intro m huse
      rw [List.map_cons] at huse ⊢
      obtain ⟨⟨hlt, hused⟩, hrest⟩ := List.forall_mem_cons.mp huse
      set page := mprotectPage addr id with hpage
      set m₁ := m.updated proc page (withWrite write (m.pte proc page)) with hm₁
      have hpte : ∀ p i, m₁.pte p i =
          if p = proc ∧ i = page then withWrite write (m.pte p i) else m.pte p i := by
        intro p i
        rw [hm₁, pte_updated]
        split_ifs with h
        · rw [h.1, h.2]
        · rfl
      have hrest₁ : ∀ i ∈ ids.map (mprotectPage addr), InUse m₁ proc i := by
        intro i hi
        refine ⟨(hrest i hi).1, ?_⟩
        rw [hpte]
        split_ifs
        · exact (hrest i hi).2
        · exact (hrest i hi).2
      obtain ⟨ihok, ihruns⟩ := ih hrest₁
      constructor
      · intro m' h
        rw [List.foldlM_cons, bind_eq_ok] at h
        obtain ⟨m₂, hstep, h⟩ := h
        obtain ⟨-, hrc, rfl⟩ := updatePte_eq_ok.mp hstep
        obtain ⟨hcounts, hall⟩ := ihok m' h
        refine ⟨(countsLast_cons write).mpr ⟨hrc, hcounts⟩, fun p i => ?_⟩
        rw [hall, hpte]
        simp only [List.mem_cons]
        by_cases hp : p = proc
        · by_cases hi : i = page
          · simp only [hp, hi, true_and, true_or, if_true]
            split_ifs <;> rfl
          · simp [hp, hi]
        · simp [hp]
      · intro hcounts
        obtain ⟨hrc, hcounts⟩ := (countsLast_cons write).mp hcounts
        obtain ⟨m', h⟩ := ihruns hcounts
        have hstep : mprotectApply proc addr write m id = .ok m₁ :=
          updatePte_eq_ok.mpr ⟨hlt, hrc, rfl⟩
        refine ⟨m', ?_⟩
        rw [List.foldlM_cons]
        exact bind_eq_ok.mpr ⟨m₁, hstep, h⟩

/-! ## The call -/

lemma intersects_or_outside (hlen : len < 2 ^ 32) (h : page ∈ mprotectPages addr len) :
    Intersects addr len page ∨ ∃ i, Intersects addr len i ∧ numFrames ≤ i := by
  simp only [mprotectPages, List.mem_map, List.mem_range] at h
  obtain ⟨id, hid, rfl⟩ := h
  simp only [addrPage, u32, pageSize] at hid
  have hin : addr + id < addr + len := by omega
  by_cases hmax : addr + id < 4294967296
  · refine Or.inl ⟨addr + id, by omega, hin, ?_⟩
    rw [mprotectPage, u32_of_lt hmax]
  · refine Or.inr ⟨addrPage (addr + id), ⟨addr + id, by omega, hin, rfl⟩, ?_⟩
    simp only [addrPage, numFrames]
    omega

lemma mprotect_eq (halign : addr % pageSize = 0) (hprot : prot.other = false) :
    mprotect addr len prot proc m =
      (do
        if !(← mprotectCheck proc addr m (List.range (addrPage (u32 (len + pageSize - 1))))) then
          .ok (.enomem, m)
        else do
          let m ← (List.range (addrPage (u32 (len + pageSize - 1)))).foldlM
            (mprotectApply proc addr prot.write) m
          .ok (.ok, m)) := by
  rw [mprotect, if_neg (not_not.mpr halign), hprot]
  rfl

/-- **When `mprotect` does what its caller asks.**  Either it stops at a page it looks at, or all
pages of the range are in use, those it never looks at already have the value of `PAGE_WRITE` asked
for, and the reference counts last. -/
theorem mprotect_right_iff (halign : addr % pageSize = 0) (hprot : prot.other = false)
    (hlen : len < 2 ^ 32) : MprotectRight addr len prot proc m ↔
      Stops m proc (mprotectPages addr len) ∨
        (∀ page ∈ mprotectPages addr len, InUse m proc page) ∧
          CountsLast m proc (mprotectPages addr len) ∧
          ∀ page, Intersects addr len page → InUse m proc page ∧
            (page ∉ mprotectPages addr len → (m.pte proc page).flags.write = prot.write) := by
  set ids := List.range (addrPage (u32 (len + pageSize - 1))) with hids
  have hpages : mprotectPages addr len = ids.map (mprotectPage addr) := rfl
  constructor
  · rintro ⟨r, m', hrun, herr, hok⟩
    rw [mprotect_eq halign hprot] at hrun
    obtain ⟨b, hcheck, hrun⟩ := bind_eq_ok.mp hrun
    cases b with
    | false => exact Or.inl (mprotectCheck_eq_false.mp hcheck)
    | true =>
        have huse := mprotectCheck_eq_true.mp hcheck
        obtain ⟨m₁, hloop, hrun⟩ := bind_eq_ok.mp hrun
        simp only [Except.ok.injEq, Prod.mk.injEq] at hrun
        obtain ⟨rfl, rfl⟩ := hrun
        obtain ⟨hcounts, hpte⟩ := (mprotectApply_loop huse).1 m₁ hloop
        -- the call answered `0`, so the whole range is in use
        have hrange : ∀ page, Intersects addr len page → InUse m proc page := by
          intro page hpage
          by_contra hnot
          have := (herr ⟨page, hpage, hnot⟩).1
          simp at this
        refine Or.inr ⟨huse, hcounts, fun page hpage => ⟨hrange page hpage, fun hmem => ?_⟩⟩
        have hnew := (hok hrange).2.1 page hpage
        rw [hpte, if_neg fun h => hmem (hpages ▸ h.2)] at hnew
        rw [hnew]
        rfl
  · rintro (hstop | ⟨huse, hcounts, hrange⟩)
    · have hcheck := mprotectCheck_eq_false.mpr (hpages ▸ hstop)
      refine ⟨.enomem, m, ?_, fun _ => ⟨rfl, rfl⟩, fun hall => ?_⟩
      · rw [mprotect_eq halign hprot]
        exact bind_eq_ok.mpr ⟨false, hcheck, rfl⟩
      · -- the page it stops at is one of the range, or the range has a page without an entry
        obtain ⟨before, page, after, heq, -, -, hunused, -⟩ := hstop
        exfalso
        have hmem : page ∈ mprotectPages addr len := by
          rw [heq]
          simp
        rcases intersects_or_outside hlen hmem with hin | ⟨i, hin, hout⟩
        · exact Bool.false_ne_true (hunused.symm.trans (hall page hin).2)
        · have := (hall i hin).1
          have := entries_le proc
          omega
    · obtain ⟨m', hloop⟩ : ∃ m', _ = Except.ok m' :=
        (@mprotectApply_loop _ _ prot.write _ _ (hpages ▸ huse)).2 (hpages ▸ hcounts)
      obtain ⟨-, hpte⟩ := (mprotectApply_loop (hpages ▸ huse)).1 m' hloop
      refine ⟨.ok, m', ?_, ?_, fun _ => ⟨rfl, fun page hpage => ?_, fun p page hp => ?_⟩⟩
      · rw [mprotect_eq halign hprot]
        refine bind_eq_ok.mpr ⟨true, mprotectCheck_eq_true.mpr (hpages ▸ huse), ?_⟩
        exact bind_eq_ok.mpr ⟨m', hloop, rfl⟩
      · rintro ⟨page, hpage, hnot⟩
        exact absurd (hrange page hpage).1 hnot
      · rw [hpte]
        split_ifs with h
        · rfl
        · have hw := (hrange page hpage).2 fun hmem => h ⟨rfl, hpages ▸ hmem⟩
          rw [← hw]
          rfl
      · rw [hpte]
        split_ifs with h
        · obtain ⟨rfl, hmem⟩ := h
          rcases intersects_or_outside hlen (hpages ▸ hmem) with hin | ⟨i, hin, hout⟩
          · exact absurd ⟨rfl, hin⟩ hp
          · have := (hrange i hin).1.1
            have := entries_le p
            omega
        · rfl

/-- A process with two writable pages, each on a frame of its own. -/
def twoPages : Memory :=
  { bootMemory with
    process := fun _ =>
      { pageTables := fun i => if i = 1 ∨ i = 2 then
          ⟨5000 + i, { present := true, write := true, user := true }⟩ else {} }
    frameRc := fun f => if f = 5001 ∨ f = 5002 then 1 else 0
    live := {0} }

lemma intersects_twoPages {i : ℕ} : Intersects 4096 8192 i ↔ i = 1 ∨ i = 2 := by
  constructor
  · rintro ⟨x, h₁, h₂, rfl⟩
    simp only [addrPage]
    omega
  · rintro (rfl | rfl)
    · exact ⟨4096, by decide, by decide, by decide⟩
    · exact ⟨8192, by decide, by decide, by decide⟩

/-- Taking write access from the first page. -/
theorem mprotect_right_one_page :
    MprotectRight 4096 4096 { read := true } (.user 0) twoPages := by
  have hpages : mprotectPages 4096 4096 = [1] := by decide
  refine (mprotect_right_iff (by decide) rfl (by decide)).mpr (Or.inr ⟨?_, ?_, ?_⟩)
  · rw [hpages]
    simp only [List.forall_mem_singleton]
    exact ⟨by decide, by decide⟩
  · rw [hpages]
    rintro before page after heq -
    cases before with
    | nil =>
        obtain ⟨rfl, -⟩ := List.cons.inj heq
        decide
    | cons j before => simp at heq
  · rintro page ⟨x, h₁, h₂, rfl⟩
    have hpage : addrPage x = 1 := by
      simp only [addrPage]
      omega
    rw [hpage, hpages]
    exact ⟨⟨by decide, by decide⟩, by simp⟩

/-- **Two pages**: the second keeps its write access. -/
theorem mprotect_not_right_two_pages :
    ¬ MprotectRight 4096 8192 { read := true } (.user 0) twoPages := by
  rintro ⟨r, m', hrun, -, hok⟩
  have huse : ∀ page, Intersects 4096 8192 page → InUse twoPages (.user 0) page := by
    intro page hpage
    rcases intersects_twoPages.mp hpage with rfl | rfl
    · exact ⟨by decide, by decide⟩
    · exact ⟨by decide, by decide⟩
  have hnew := (hok huse).2.1 2 (intersects_twoPages.mpr (Or.inr rfl))
  -- both turns look at page 1
  have hpages : mprotectPages 4096 8192 = [1, 1] := by decide
  have hold : m'.pte (.user 0) 2 = twoPages.pte (.user 0) 2 := by
    rcases mprotect_cases hrun with rfl | ⟨⟨-, -, hcheck⟩, hloop⟩
    · rfl
    · have := ((mprotectApply_loop (mprotectCheck_eq_true.mp hcheck)).1 m' hloop).2 (.user 0) 2
      rw [this, if_neg]
      rintro ⟨-, hmem⟩
      have : 2 ∈ mprotectPages 4096 8192 := hmem
      simp [hpages] at this
  rw [hold] at hnew
  exact absurd (congrArg (fun e => e.flags.write) hnew) (by decide)

end BrebOS.Memory

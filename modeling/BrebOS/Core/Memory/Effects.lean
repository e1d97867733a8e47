import BrebOS.Core.Memory

/-!
# What the memory operations do

For each operation that may fail: when it succeeds, and the state it then leaves, as a total
function of the old one.  `updated` is the effect of `update_pte` and `allocated` that of
`allocate_page`; the rest is built from these two and from the release of a kernel page.

A reference count only ever goes down by one, and a count of zero stays zero, so truncated
subtraction says exactly what `update_pte` does to the frame an entry named.
-/

namespace BrebOS.Memory

variable {m m' : Memory} {proc proc' : ProcId} {page i frame f : ℕ} {val e : Entry} {policy : Flags}

/-! ## `update_pte` -/

/-- The state after `update_pte`. -/
def updated (proc : ProcId) (page : ℕ) (val : Entry) (m : Memory) : Memory :=
  acquireFrame val (((m.setRc (m.pte proc page).frame (m.frameRc (m.pte proc page).frame - 1)).setPte
    proc page val).fillPdt proc (page / ptEntries))

/-- **`update_pte`** succeeds unless the page is outside the table or a mapped frame has no
reference. -/
lemma updatePte_eq_ok : updatePte proc page val m = .ok m' ↔
    page < proc.entries ∧
      ((m.pte proc page).mapped = true → m.frameRc (m.pte proc page).frame ≠ 0) ∧
      m' = m.updated proc page val := by
  rw [updatePte]
  by_cases hpage : proc.entries ≤ page
  · simp [hpage]
  · have hrel : ∀ m₁, releaseFrame (m.pte proc page) m = .ok m₁ ↔
        ((m.pte proc page).mapped = true → m.frameRc (m.pte proc page).frame ≠ 0) ∧
          m₁ = m.setRc (m.pte proc page).frame (m.frameRc (m.pte proc page).frame - 1) := by
      intro m₁
      rw [releaseFrame]
      split_ifs with h₁ h₂
      · rw [Except.ok.injEq]
        exact ⟨fun h => ⟨fun _ => h₁, h.symm⟩, fun h => h.2.symm⟩
      · rw [not_ne_iff] at h₁
        exact ⟨fun h => h.elim, fun h => absurd h₁ (h.1 h₂)⟩
      · rw [not_ne_iff] at h₁
        have hsame : m.setRc (m.pte proc page).frame (m.frameRc (m.pte proc page).frame - 1) = m := by
          have h₃ : m.frameRc (m.pte proc page).frame - 1 = m.frameRc (m.pte proc page).frame := by
            omega
          rw [h₃, setRc, Function.update_eq_self]
        rw [hsame, Except.ok.injEq]
        exact ⟨fun h => ⟨fun h' => absurd h' h₂, h.symm⟩, fun h => h.2.symm⟩
    rw [if_neg hpage, bind_eq_ok]
    constructor
    · rintro ⟨m₁, h₁, h₂⟩
      obtain ⟨hmap, rfl⟩ := (hrel m₁).mp h₁
      exact ⟨by omega, hmap, (Except.ok.inj h₂).symm⟩
    · rintro ⟨-, hmap, rfl⟩
      exact ⟨_, (hrel _).mpr ⟨hmap, rfl⟩, rfl⟩

lemma pte_updated : (m.updated proc page val).pte proc' i =
    if proc' = proc ∧ i = page then val else m.pte proc' i := by
  rw [updated, acquireFrame]
  split_ifs <;> simp_all [pte_setPte]

@[simp] lemma pte_updated_self : (m.updated proc page val).pte proc page = val := by
  simp [pte_updated]

lemma pte_updated_of_ne (h : proc' = proc → i ≠ page) :
    (m.updated proc page val).pte proc' i = m.pte proc' i := by
  rw [pte_updated, if_neg fun h' => h h'.1 h'.2]

lemma frameRc_updated : (m.updated proc page val).frameRc f =
    m.frameRc f - (if (m.pte proc page).frame = f then 1 else 0) + val.refs f := by
  set m₁ := ((m.setRc (m.pte proc page).frame (m.frameRc (m.pte proc page).frame - 1)).setPte
    proc page val).fillPdt proc (page / ptEntries) with hm₁
  have hrel : m₁.frameRc f = m.frameRc f - if (m.pte proc page).frame = f then 1 else 0 := by
    rw [hm₁, frameRc_fillPdt, frameRc_setPte, frameRc_setRc, Function.update_apply]
    by_cases h : (m.pte proc page).frame = f
    · rw [if_pos h.symm, if_pos h, h]
    · rw [if_neg (Ne.symm h), if_neg h, Nat.sub_zero]
  rw [← hrel, updated, ← hm₁, acquireFrame, Entry.refs]
  by_cases hval : val.mapped = true
  · rw [if_pos hval, frameRc_setRc, Function.update_apply]
    by_cases h : val.frame = f
    · rw [if_pos h.symm, if_pos ⟨hval, h⟩, h]
    · rw [if_neg (Ne.symm h), if_neg (by simp [h]), Nat.add_zero]
  · rw [if_neg hval, if_neg (by simp [hval]), Nat.add_zero]

@[simp] lemma frameToPage_updated : (m.updated proc page val).frameToPage = m.frameToPage := by
  rw [updated, acquireFrame]
  split_ifs <;> simp [setRc]

@[simp] lemma frames_updated : (m.updated proc page val).frames = m.frames := by
  rw [updated, acquireFrame]
  split_ifs <;> simp [setRc]

@[simp] lemma live_updated : (m.updated proc page val).live = m.live := by
  rw [updated, acquireFrame]
  split_ifs <;> simp [setRc]

@[simp] lemma memtree_updated {pid : ℕ} :
    ((m.updated proc page val).process pid).memtree = (m.process pid).memtree := by
  rw [updated, acquireFrame]
  split_ifs <;> simp [setRc]

@[simp] lemma lowestFreeFrame_updated :
    (m.updated proc page val).lowestFreeFrame = m.lowestFreeFrame := by
  rw [updated, acquireFrame]
  split_ifs <;> cases proc <;> rfl

@[simp] lemma lowestPe_updated : (m.updated proc page val).lowestPe proc' = m.lowestPe proc' := by
  rw [updated, acquireFrame]
  split_ifs <;> simp

/-! ## Free frames and free entries -/

/-- A scan moves one of the three `lowest_free` indices and nothing else. -/
structure Scanned (m m' : Memory) : Prop where
  pte : m'.pte = m.pte
  process : m'.process = m.process
  live : m'.live = m.live
  frameToPage : m'.frameToPage = m.frameToPage
  frameRc : m'.frameRc = m.frameRc
  frames : m'.frames = m.frames
  lowestFreeFrame : m.lowestFreeFrame ≤ m'.lowestFreeFrame

lemma Scanned.of_lowest (m : Memory) {a : ℕ} (b c : ℕ) (ha : m.lowestFreeFrame ≤ a) : Scanned m
    { m with lowestFreeFrame := a, lowestFreePe := b, lowestFreePeUser := c } :=
  ⟨by funext p; cases p <;> rfl, rfl, rfl, rfl, rfl, rfl, ha⟩

lemma getFreeFrame_spec (h : m.getFreeFrame = (frame, m')) :
    Scanned m m' ∧ (frame < numFrames → m.frameToPage frame = none) := by
  simp only [getFreeFrame, Prod.mk.injEq] at h
  obtain ⟨rfl, rfl⟩ := h
  obtain ⟨h₁, -, -, h₄⟩ := skipWhile_spec m.frameUsed (numFrames - m.lowestFreeFrame)
    m.lowestFreeFrame
  refine ⟨Scanned.of_lowest m m.lowestFreePe m.lowestFreePeUser h₁, fun h => ?_⟩
  have := h₄ (by omega)
  simpa [frameUsed] using this

lemma lowestFreeFrame_getFreeFrame (h : m.getFreeFrame = (frame, m')) : m'.lowestFreeFrame = frame := by
  simp only [getFreeFrame, Prod.mk.injEq] at h
  obtain ⟨rfl, rfl⟩ := h
  rfl

lemma getFreePe_spec (h : m.getFreePe = (page, m')) :
    Scanned m m' ∧ (page < numFrames → (m.pte .kernel page).used = false) := by
  simp only [getFreePe, Prod.mk.injEq] at h
  obtain ⟨rfl, rfl⟩ := h
  refine ⟨Scanned.of_lowest m _ m.lowestFreePeUser le_rfl, fun h => ?_⟩
  obtain ⟨h₁, -, -, h₄⟩ := skipWhile_spec (fun i => (m.pageTables i).used)
    (numFrames - m.lowestFreePe) m.lowestFreePe
  exact h₄ (by omega)

lemma getFreePeUser_spec (h : m.getFreePeUser = (page, m')) :
    Scanned m m' ∧ (page < numFrames → (m.pte .kernel page).used = false) := by
  simp only [getFreePeUser, Prod.mk.injEq] at h
  obtain ⟨rfl, rfl⟩ := h
  refine ⟨Scanned.of_lowest m m.lowestFreePe _ le_rfl, fun h => ?_⟩
  obtain ⟨h₁, -, -, h₄⟩ := skipWhile_spec (fun i => (m.pageTables i).used)
    (numFrames - m.lowestFreePeUser) m.lowestFreePeUser
  exact h₄ (by omega)

lemma Scanned.trans {m'' : Memory} (h : Scanned m m') (h' : Scanned m' m'') : Scanned m m'' :=
  ⟨h'.pte.trans h.pte, h'.process.trans h.process, h'.live.trans h.live,
    h'.frameToPage.trans h.frameToPage, h'.frameRc.trans h.frameRc, h'.frames.trans h.frames,
    h.lowestFreeFrame.trans h'.lowestFreeFrame⟩

lemma entries_le (proc : ProcId) : proc.entries ≤ numFrames := by
  cases proc with
  | kernel => exact le_rfl
  | user pid => simp [ProcId.entries, userEntries, numFrames]

lemma firstUsed_spec {n b size pte : ℕ} {tables : ℕ → Entry}
    (h : firstUsed n b size tables = .ok pte) (hpte : pte = b + n) :
    b + n ≤ size ∧ ∀ i, b ≤ i → i < b + n → (tables i).used = false := by
  obtain ⟨-, -, h₃, -⟩ := skipWhile_spec (fun i => !(tables i).used) n b
  rw [firstUsed] at h
  split_ifs at h with hout
  obtain rfl := Except.ok.inj h
  refine ⟨by omega, fun i hi hlt => ?_⟩
  have := h₃ i hi (by omega)
  simpa using this

lemma contiguousFrom_spec {n size : ℕ} {tables : ℕ → Entry} : ∀ {fuel b r : ℕ},
    contiguousFrom n size tables fuel b = .ok (some r) →
      b ≤ r ∧ r + n ≤ size ∧ ∀ i, r ≤ i → i < r + n → (tables i).used = false
  | 0, b, r, h => by simp [contiguousFrom] at h
  | fuel + 1, b, r, h => by
      rw [contiguousFrom] at h
      by_cases hmax : b + n > numFrames
      · simp [hmax] at h
      rw [if_neg hmax] at h
      obtain ⟨pte, hpte, h⟩ := bind_eq_ok.mp h
      split_ifs at h with heq
      · simp only [Except.ok.injEq, Option.some.injEq] at h
        subst h
        exact ⟨le_rfl, firstUsed_spec hpte heq⟩
      · obtain ⟨h₁, h₂⟩ := contiguousFrom_spec h
        have h₃ := (skipWhile_spec (fun i => !(tables i).used) n b).1
        rw [firstUsed] at hpte
        split_ifs at hpte with hout
        obtain rfl := Except.ok.inj hpte
        exact ⟨by omega, h₂⟩

lemma contiguousFrom_one {size : ℕ} {tables : ℕ → Entry} (hsize : size ≤ numFrames) (hi : i < size)
    (hun : (tables i).used = false) : ∀ {fuel b : ℕ}, b ≤ i → i < b + fuel →
      ∃ r, contiguousFrom 1 size tables fuel b = .ok (some r)
  | 0, b, hb, hlt => by omega
  | fuel + 1, b, hb, hlt => by
      rw [contiguousFrom, if_neg (by omega)]
      by_cases hu : (tables b).used = true
      · have hfirst : firstUsed 1 b size tables = .ok b := by
          simp only [firstUsed, skipWhile, hu, Bool.not_true, Bool.false_eq_true, if_false]
          rw [if_neg (by omega)]
        have hne : b ≠ i := by
          rintro rfl
          exact Bool.false_ne_true (hun.symm.trans hu)
        obtain ⟨r, hr⟩ : ∃ r, contiguousFrom 1 size tables fuel (b + 1) = .ok (some r) :=
          contiguousFrom_one hsize hi hun (by omega) (by omega)
        refine ⟨r, bind_eq_ok.mpr ⟨b, hfirst, ?_⟩⟩
        rw [if_neg (by omega), hr]
      · have hfirst : firstUsed 1 b size tables = .ok (b + 1) := by
          simp only [firstUsed, skipWhile, hu, Bool.not_false, if_true]
          rw [if_neg (by omega)]
        exact ⟨b, bind_eq_ok.mpr ⟨b + 1, hfirst, if_pos rfl⟩⟩

lemma getContiguousPages_spec {n b : ℕ} {hint : HintInfo}
    (h : getContiguousPages n hint proc m = .ok (some b)) :
    b + n ≤ proc.entries ∧ (∀ i, b ≤ i → i < b + n → (m.pte proc i).used = false) ∧
      (hint.isMandatory = true → b = addrPage hint.hint) ∧
      (hint.isMandatory = false → m.lowestPe proc ≤ b) := by
  rw [getContiguousPages] at h
  split_ifs at h with hm halign
  · simp only at h
    by_cases hmax : addrPage hint.hint + n > numFrames
    · simp [hmax] at h
    rw [if_neg hmax] at h
    obtain ⟨pte, hpte, h⟩ := bind_eq_ok.mp h
    simp only [Except.ok.injEq] at h
    split_ifs at h with heq
    obtain rfl := Option.some.inj h
    obtain ⟨h₁, h₂⟩ := firstUsed_spec hpte heq
    exact ⟨h₁, h₂, fun _ => rfl, by simp [hm]⟩
  · obtain ⟨h₁, h₂, h₃⟩ := contiguousFrom_spec h
    exact ⟨h₂, h₃, by simp [hm], fun _ => by omega⟩

/-! ## `allocate_page` -/

/-- The state after `allocate_page`. -/
def allocated (frame page : ℕ) (policy : Flags) (m : Memory) : Memory :=
  let m := m.setPte .kernel page ⟨frame % numFrames, policy⟩
  if policy.present then (m.setPageOf frame (some page)).setRc frame 1 else m

lemma allocatePage_eq_ok : allocatePage frame page policy m = .ok m' ↔
    page < numFrames ∧ (policy.present = true → frame < numFrames ∧ m.frameRc frame = 0) ∧
      m' = m.allocated frame page policy := by
  rw [allocatePage, allocated]
  by_cases hpage : numFrames ≤ page
  · simp [hpage]
  · rw [if_neg hpage]
    by_cases hp : policy.present = true
    · simp only [hp, if_true, markFrameUsed, frameRc_setPte, forall_const]
      split_ifs with h₁ h₂
      · simp only [false_iff, not_and]
        omega
      · simp only [false_iff, not_and]
        exact fun _ h => absurd h.2 h₂
      · rw [not_ne_iff] at h₂
        rw [h₂, Except.ok.injEq]
        exact ⟨fun h => ⟨by omega, ⟨by omega, rfl⟩, h.symm⟩, fun h => h.2.2.symm⟩
    · simp only [hp, Bool.false_eq_true, if_false, Except.ok.injEq]
      exact ⟨fun h => ⟨by omega, by simp, h.symm⟩, fun h => h.2.2.symm⟩

lemma pte_allocated : (m.allocated frame page policy).pte proc' i =
    if proc' = .kernel ∧ i = page then ⟨frame % numFrames, policy⟩ else m.pte proc' i := by
  rw [allocated]
  split_ifs <;> simp_all [pte_setPte]

lemma pte_allocated_user {pid : ℕ} :
    (m.allocated frame page policy).pte (.user pid) i = m.pte (.user pid) i := by
  simp [pte_allocated]

lemma pageTables_allocated :
    (m.allocated frame page policy).pageTables page = ⟨frame % numFrames, policy⟩ := by
  change (m.allocated frame page policy).pte .kernel page = _
  simp [pte_allocated]

lemma frameRc_allocated : (m.allocated frame page policy).frameRc f =
    if policy.present = true ∧ f = frame then 1 else m.frameRc f := by
  rw [allocated]
  by_cases hp : policy.present = true
  · simp [hp, frameRc_setRc, Function.update_apply, setPageOf]
  · simp [hp]

lemma frameToPage_allocated : (m.allocated frame page policy).frameToPage f =
    if policy.present = true ∧ f = frame then some page else m.frameToPage f := by
  rw [allocated]
  by_cases hp : policy.present = true
  · simp [hp, setRc, Function.update_apply, setPageOf]
  · simp [hp]

@[simp] lemma frames_allocated : (m.allocated frame page policy).frames = m.frames := by
  rw [allocated]
  split_ifs <;> simp [setRc, setPageOf]

@[simp] lemma process_allocated : (m.allocated frame page policy).process = m.process := by
  rw [allocated]
  split_ifs <;> rfl

@[simp] lemma lowestFreeFrame_allocated :
    (m.allocated frame page policy).lowestFreeFrame = m.lowestFreeFrame := by
  rw [allocated]
  split_ifs <;> rfl

@[simp] lemma live_allocated : (m.allocated frame page policy).live = m.live := by
  rw [allocated]
  split_ifs <;> simp [setRc, setPageOf]

lemma allocateFreePage_spec (h : allocateFreePage page policy m = .ok m') :
    ∃ frame m₁, Scanned m m₁ ∧ page < numFrames ∧ (frame < numFrames → m.frameToPage frame = none) ∧
      (policy.present = true → frame < numFrames ∧ m.frameRc frame = 0) ∧
      m' = m₁.allocated frame page policy := by
  rw [allocateFreePage] at h
  rcases hr : m.getFreeFrame with ⟨frame, m₁⟩
  rw [hr] at h
  obtain ⟨hs, hfree⟩ := getFreeFrame_spec hr
  obtain ⟨hpage, hp, rfl⟩ := allocatePage_eq_ok.mp h
  rw [hs.frameRc] at hp
  exact ⟨frame, m₁, hs, hpage, hfree, hp, rfl⟩

lemma sbrkUserPage_spec {pid : ℕ} (h : sbrkUserPage pid policy m page = .ok m') :
    ∃ frame sysPe m₁, Scanned m m₁ ∧ page < userEntries ∧ sysPe < numFrames ∧
      (m.pte .kernel sysPe).used = false ∧ (frame < numFrames → m.frameToPage frame = none) ∧
      (policy.present = true → frame < numFrames ∧ m.frameRc frame = 0) ∧
      m' = (m₁.allocated frame sysPe policy).updated (.user pid) page
        ⟨frame % numFrames, policy⟩ := by
  rw [sbrkUserPage] at h
  rcases hr : m.getFreePe with ⟨sysPe, m₁⟩
  simp only [hr] at h
  obtain ⟨hs, hunused⟩ := getFreePe_spec hr
  obtain ⟨m₂, hall, h⟩ := bind_eq_ok.mp h
  obtain ⟨frame, m₃, hs', hpe, hfree, hp, rfl⟩ := allocateFreePage_spec hall
  obtain ⟨hpage, -, rfl⟩ := updatePte_eq_ok.mp h
  rw [hs.frameToPage] at hfree
  rw [hs.frameRc] at hp
  exact ⟨frame, sysPe, m₃, hs.trans hs', hpage, hpe, hunused hpe, hfree, hp,
    by rw [pageTables_allocated]⟩

/-- **What a call of `sbrk` that returns has done**: nothing, or filled the pages that
`get_contiguous_pages` found. -/
lemma sbrk_cases {n addr : ℕ} {info : PageInfo} {hint : HintInfo}
    (h : sbrk proc n info hint m = .ok (addr, m')) :
    addr = 0 ∧ m' = m ∨
      ∃ b m₁, addr = b * pageSize ∧ getContiguousPages n hint proc m = .ok (some b) ∧
        info.policy.cow = false ∧ info.policy.shro = false ∧
        (info.policy.present = true → info.policy.lazyZero = false) ∧
        sbrkPages proc n b info.policy m = .ok m₁ ∧ advanceLowestPe proc m₁ = .ok m' := by
  rw [sbrk] at h
  by_cases hfull : m.lowestFreeFrame = numFrames
  · rw [if_pos hfull, Except.ok.injEq, Prod.mk.injEq] at h
    exact Or.inl ⟨h.1.symm, h.2.symm⟩
  · rw [if_neg hfull] at h
    obtain ⟨r, hr, h⟩ := bind_eq_ok.mp h
    cases r with
    | none =>
        simp only [Except.ok.injEq, Prod.mk.injEq] at h
        exact Or.inl ⟨h.1.symm, h.2.symm⟩
    | some b =>
        by_cases h₁ : (info.policy.cow || info.policy.shro) = true
        · simp [h₁] at h
        by_cases h₂ : (info.policy.present && info.policy.lazyZero) = true
        · simp [h₁, h₂] at h
        simp only [if_neg h₁, if_neg h₂] at h
        obtain ⟨m₁, hpages, h⟩ := bind_eq_ok.mp h
        obtain ⟨m₂, hadv, h⟩ := bind_eq_ok.mp h
        simp only [Except.ok.injEq, Prod.mk.injEq] at h
        obtain ⟨rfl, rfl⟩ := h
        simp only [Bool.or_eq_true, not_or, Bool.not_eq_true] at h₁
        simp only [Bool.and_eq_true, not_and, Bool.not_eq_true] at h₂
        exact Or.inr ⟨b, m₁, rfl, hr, h₁.1, h₁.2, h₂, hpages, hadv⟩

lemma advanceLowestPe_spec (h : advanceLowestPe proc m = .ok m') :
    ∃ pe, m.lowestPe proc ≤ pe ∧ m' = m.setLowestPe proc pe := by
  have hle := (skipWhile_spec (fun i => (m.pte proc i).used) (proc.entries - m.lowestPe proc)
    (m.lowestPe proc)).1
  rw [advanceLowestPe] at h
  split_ifs at h with hout
  exact ⟨_, hle, (Except.ok.inj h).symm⟩

/-- **What the page operations of `sbrk` keep holds at its end.**  Each page is unused when its turn
comes. -/
lemma sbrk_rule {P : Memory → Prop} {n addr : ℕ} {info : PageInfo} {hint : HintInfo}
    (h : sbrk proc n info hint m = .ok (addr, m')) (hstart : P m)
    (hkernel : proc = .kernel → ∀ m₁ m₂ page, P m₁ → (m₁.pte .kernel page).used = false →
      allocateFreePage page info.policy m₁ = .ok m₂ → P m₂)
    (huser : ∀ pid, proc = .user pid → info.policy.lazyZero = false → ∀ m₁ m₂ page, P m₁ →
      (m₁.pte (.user pid) page).used = false → sbrkUserPage pid info.policy m₁ page = .ok m₂ → P m₂)
    (hlazy : ∀ pid, proc = .user pid → info.policy.lazyZero = true → ∀ m₁ page, P m₁ →
      page < userEntries → (m₁.pte (.user pid) page).used = false →
      P (m₁.updated (.user pid) page ⟨0, info.policy⟩))
    (hlow : ∀ m₁ pe, P m₁ → P (m₁.setLowestPe proc pe)) : P m' := by
  rcases sbrk_cases h with ⟨-, rfl⟩ | ⟨b, m₁, -, hr, -, -, -, hpages, hadv⟩
  · exact hstart
  obtain ⟨-, hunused, -, -⟩ := getContiguousPages_spec hr
  obtain ⟨pe, -, rfl⟩ := advanceLowestPe_spec hadv
  refine hlow _ _ ?_
  -- the pages whose turn has not come are still unused
  have hloop : ∀ step : Memory → ℕ → Except Fault Memory,
      (∀ m₁ m₂ page, P m₁ → (m₁.pte proc page).used = false → step m₁ page = .ok m₂ →
        P m₂ ∧ ∀ i, i ≠ page → m₂.pte proc i = m₁.pte proc i) →
      (List.range' b n).foldlM step m = .ok m₁ → P m₁ := by
    intro step hstep hfold
    refine (foldlM_range'_invariant (fun i c => P c ∧ ∀ j, i ≤ j → j < b + n →
      (c.pte proc j).used = false) hfold ⟨hstart, hunused⟩ ?_).1
    rintro i c c' h₁ h₂ ⟨hP, hrest⟩ hrun
    obtain ⟨hP', hsame⟩ := hstep c c' i hP (hrest i le_rfl h₂) hrun
    refine ⟨hP', fun j hj hlt => ?_⟩
    rw [hsame j (by omega)]
    exact hrest j (by omega) hlt
  cases proc with
  | kernel =>
      refine hloop _ (fun m₁ m₂ page hP hun hrun => ⟨hkernel rfl m₁ m₂ page hP hun hrun, ?_⟩) hpages
      intro i hi
      obtain ⟨frame, m₃, hs, -, -, -, rfl⟩ := allocateFreePage_spec hrun
      rw [pte_allocated, if_neg fun h => hi h.2, hs.pte]
  | user pid =>
      simp only [sbrkPages] at hpages
      split_ifs at hpages with h₁ h₂
      · refine hloop _ (fun m₁ m₂ page hP hun hrun =>
          ⟨huser pid rfl (by simpa using h₂) m₁ m₂ page hP hun hrun, ?_⟩) hpages
        intro i hi
        obtain ⟨frame, sysPe, m₃, hs, -, -, -, -, -, rfl⟩ := sbrkUserPage_spec hrun
        rw [pte_updated_of_ne fun _ => hi, pte_allocated_user, hs.pte]
      · refine hloop _ (fun m₁ m₂ page hP hun hrun => ?_) hpages
        obtain ⟨hlt, -, rfl⟩ := updatePte_eq_ok.mp hrun
        exact ⟨hlazy pid rfl (by simpa using h₂) m₁ page hP hlt hun,
          fun i hi => pte_updated_of_ne fun _ => hi⟩

/-! ## `free_page(page_id)` -/

/-- The state after `free_page(page_id)`. -/
def released (page : ℕ) (m : Memory) : Memory :=
  let e := m.pageTables page
  let m := m.setPte .kernel page {}
  if e.flags.lazyZero then m
  else { (m.setPageOf e.frame none).setRc e.frame 0 with
    lowestFreeFrame := min m.lowestFreeFrame e.frame }

/-- **`free_page(page_id)`** on a mapped page succeeds unless its frame is frame 0 or has further
references. -/
lemma freePage_eq_ok : freePage page m = .ok m' ↔
    page < numFrames ∧
      ((m.pte .kernel page).flags.lazyZero = false →
        (m.pte .kernel page).frame ≠ 0 ∧ m.frameRc (m.pte .kernel page).frame ≤ 1) ∧
      m' = m.released page := by
  rw [freePage, released]
  by_cases hpage : numFrames ≤ page
  · simp [hpage]
  · rw [if_neg hpage]
    simp only [pte]
    by_cases hl : (m.pageTables page).flags.lazyZero = true
    · simp only [hl, Bool.not_true, Bool.false_and, Bool.false_eq_true, if_false, if_true,
        Except.ok.injEq, false_implies, true_and, reduceCtorEq]
      exact ⟨fun h => ⟨by omega, h.symm⟩, fun h => h.2.symm⟩
    · rw [Bool.not_eq_true] at hl
      by_cases hf : (m.pageTables page).frame = 0
      · simp [hl, hf]
      · simp only [hl, hf, Bool.not_false, Bool.true_and, beq_iff_eq, if_false, Bool.false_eq_true,
          markFrameFree, frameRc_setPte, forall_const, not_false_eq_true, ne_eq, true_and]
        split_ifs with hrc
        · simp only [false_iff, not_and]
          omega
        · rw [Except.ok.injEq]
          exact ⟨fun h => ⟨by omega, by omega, h.symm⟩, fun h => h.2.2.symm⟩

lemma pte_released : (m.released page).pte proc' i =
    if proc' = .kernel ∧ i = page then {} else m.pte proc' i := by
  rw [released]
  simp only
  split_ifs with h₁ h₂ h₂ <;> cases proc' <;> simp_all [pte, setPte, setRc, setPageOf]

lemma frameRc_released : (m.released page).frameRc f =
    if (m.pte .kernel page).flags.lazyZero = false ∧ f = (m.pte .kernel page).frame then 0
    else m.frameRc f := by
  rw [released]
  by_cases hl : (m.pageTables page).flags.lazyZero = true
  · simp [hl, pte]
  · simp [hl, pte, setRc, Function.update_apply, setPageOf]

lemma frameToPage_released : (m.released page).frameToPage f =
    if (m.pte .kernel page).flags.lazyZero = false ∧ f = (m.pte .kernel page).frame then none
    else m.frameToPage f := by
  rw [released]
  by_cases hl : (m.pageTables page).flags.lazyZero = true
  · simp [hl, pte]
  · simp [hl, pte, setRc, Function.update_apply, setPageOf]

@[simp] lemma live_released : (m.released page).live = m.live := by
  rw [released]
  simp only
  split_ifs <;> simp [setRc, setPageOf]

@[simp] lemma process_released : (m.released page).process = m.process := by
  rw [released]
  simp only
  split_ifs <;> rfl

end BrebOS.Memory

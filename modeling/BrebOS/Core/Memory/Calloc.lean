import BrebOS.Core.Memory.Mmap
import BrebOS.Core.Memory.Shown

/-!
# `calloc`

`calloc` zeroes the pages of its block that are present, and leaves the others to their first
access.  Afterwards every address of the block shows zero and every other address shows what it did.

The zeroing is a series of writes of the kernel.  They fail where a page of the block is present but
neither writable nor copy-on-write, which happens when a free node is taken that was mapped for
another request, and where the block is larger than the pages behind it (`Core.Memory.NoWrap`).
`calloc_right_iff` says that nothing else goes wrong.
-/

namespace BrebOS.Memory

open MemTree BinaryTree Ranges

variable {m m' m₁ : Memory} {proc : ProcId} {page address n mem totalSize x : ℕ}

/-! ## What the zeroing does -/

lemma Own.congr (h : Own proc m) (hpte : m'.pte = m.pte) (hpages : m'.frameToPage = m.frameToPage) :
    Own proc m' :=
  ⟨by rw [hpte]; exact h.lazy, by rw [hpte, hpages]; exact h.taken, by rw [hpte]; exact h.apart⟩

lemma shown_setFrame {frame : ℕ} {data : PageData} : (m.setFrame frame data).shown proc x =
    if (m.pte proc (addrPage x)).flags.present = true ∧ (m.pte proc (addrPage x)).frame = frame then
      data (x % pageSize)
    else m.shown proc x := by
  rw [shown, shown, pte_setFrame]
  by_cases hp : (m.pte proc (addrPage x)).flags.present = true
  · by_cases hf : (m.pte proc (addrPage x)).frame = frame
    · simp [hp, hf, setFrame]
    · simp [hp, hf, setFrame, Function.update_of_ne]
  · simp [hp]

/-- What a write of zeros to a range of addresses leaves. -/
structure Cleared (proc : ProcId) (P : ℕ → Prop) (m m' : Memory) : Prop where
  own : Own proc m'
  inUse : ∀ i, InUse m proc i → InUse m' proc i
  zero : ∀ x, InUse m proc (addrPage x) → P x → m'.shown proc x = 0
  other : ∀ x, InUse m proc (addrPage x) → ¬ P x → m'.shown proc x = m.shown proc x

/-- **One part**, on a page in use. -/
lemma zeroOutPart_cleared (hown : Own proc m) (huse : InUse m proc (addrPage address))
    (hin : address % pageSize + n ≤ pageSize) (h : zeroOutPart proc address n m = .ok m') :
    Cleared proc (fun x => address ≤ x ∧ x < address + n) m m' := by
  rw [zeroOutPart, if_neg (Nat.not_le.mpr huse.1)] at h
  by_cases hpresent : (m.pte proc (addrPage address)).flags.present = true
  · rw [if_pos hpresent, memset] at h
    by_cases hn : n = 0
    · rw [if_pos hn] at h
      obtain rfl := Except.ok.inj h
      exact ⟨hown, fun _ h => h, fun x _ hx => by omega, fun _ _ _ => rfl⟩
    · rw [if_neg hn] at h
      obtain ⟨m₁, haccess, h⟩ := bind_eq_ok.mp h
      obtain ⟨hallows, hacc⟩ := kernelAccess_spec hown huse haccess
      simp only [kernelAllows, Bool.and_eq_true] at hallows
      obtain rfl := Except.ok.inj h
      refine ⟨hacc.own.congr (by simp) rfl, fun i hi => ?_, fun x hx hzero => ?_, fun x hx hout => ?_⟩
      · have hi' := hacc.inUse i hi
        rwa [InUse, pte_setFrame]
      · have hpage : addrPage x = addrPage address := by
          simp only [addrPage, pageSize] at *
          omega
        have hrange : address % pageSize ≤ x % pageSize ∧
            x % pageSize < address % pageSize + n := by
          simp only [addrPage, pageSize] at *
          omega
        rw [shown_setFrame, hpage, if_pos ⟨hallows.1, rfl⟩, if_pos hrange]
      · rw [← hacc.shown x hx, shown_setFrame]
        split_ifs with hsame hrange
        · -- the other pages have other frames
          have hpage : addrPage x = addrPage address :=
            hacc.own.apart _ hx.1 _ huse.1 hsame.1 hallows.1 hsame.2
          exfalso
          simp only [addrPage, pageSize] at *
          omega
        · rw [shown, if_pos hsame.1, hsame.2]
        · rfl
  · rw [if_neg hpresent] at h
    obtain rfl := Except.ok.inj h
    refine ⟨hown, fun _ h => h, fun x _ hx => ?_, fun _ _ _ => rfl⟩
    have hpage : addrPage x = addrPage address := by
      simp only [addrPage, pageSize] at *
      omega
    rw [shown, hpage, if_neg hpresent]

lemma parts_cleared : ∀ {parts : List (ℕ × ℕ)} {m : Memory}, Own proc m →
    (∀ r ∈ parts, InUse m proc (addrPage r.1) ∧ r.1 % pageSize + r.2 ≤ pageSize) →
      parts.foldlM (fun m r => zeroOutPart proc r.1 r.2 m) m = .ok m' →
        Cleared proc (fun x => ∃ r ∈ parts, r.1 ≤ x ∧ x < r.1 + r.2) m m'
  | [], m, hown, _, h => by
      obtain rfl := Except.ok.inj h
      exact ⟨hown, fun _ h => h, fun x _ hx => by simp at hx, fun _ _ _ => rfl⟩
  | r :: parts, m, hown, hparts, h => by
      rw [List.foldlM_cons, bind_eq_ok] at h
      obtain ⟨m₁, h₁, h⟩ := h
      obtain ⟨huse, hin⟩ := hparts r List.mem_cons_self
      have hone := zeroOutPart_cleared hown huse hin h₁
      have hrest := parts_cleared hone.own (fun r' hr' =>
        ⟨hone.inUse _ (hparts r' (List.mem_cons_of_mem r hr')).1,
          (hparts r' (List.mem_cons_of_mem r hr')).2⟩) h
      refine ⟨hrest.own, fun i hi => hrest.inUse i (hone.inUse i hi), fun x hx hzero => ?_,
        fun x hx hout => ?_⟩
      · by_cases hlater : ∃ r' ∈ parts, r'.1 ≤ x ∧ x < r'.1 + r'.2
        · exact hrest.zero x (hone.inUse _ hx) hlater
        · rw [hrest.other x (hone.inUse _ hx) hlater]
          obtain ⟨r', hr', hxr⟩ := hzero
          rcases List.mem_cons.mp hr' with rfl | hr'
          · exact hone.zero x hx hxr
          · exact absurd ⟨r', hr', hxr⟩ hlater
      · have hlater : ¬ ∃ r' ∈ parts, r'.1 ≤ x ∧ x < r'.1 + r'.2 := by
          rintro ⟨r', hr', hxr⟩
          exact hout ⟨r', List.mem_cons_of_mem r hr', hxr⟩
        rw [hrest.other x (hone.inUse _ hx) hlater]
        exact hone.other x hx fun hxr => hout ⟨r, List.mem_cons_self, hxr⟩

lemma zeroOut_cleared (hown : Own proc m) (hpos : 0 < totalSize)
    (hmax : mem + totalSize ≤ 4294967296)
    (huse : ∀ x, mem ≤ x → x < mem + totalSize → InUse m proc (addrPage x))
    (h : zeroOutPossiblyLazilyAllocatedMemory totalSize mem proc m = .ok m') :
    Cleared proc (fun x => mem ≤ x ∧ x < mem + totalSize) m m' := by
  rw [zeroOut_eq] at h
  have hparts := parts_cleared hown (fun r hr => ⟨?_, zeroParts_inPage hr⟩) h
  · simp only [mem_zeroParts hmax] at hparts
    exact hparts
  · by_cases hn : r.2 = 0
    · rw [zeroParts_nonempty hmax hr hn]
      exact huse mem le_rfl (by omega)
    · have hx := (mem_zeroParts hmax r.1).mp ⟨r, hr, le_rfl, by omega⟩
      exact huse r.1 hx.1 hx.2

/-! ## When the zeroing goes through -/

/-- The access that the zeroing makes to a page. -/
def writeAccess (proc : ProcId) (m : Memory) (page : ℕ) : Except Fault Memory :=
  if (m.pte proc page).flags.present then kernelAccess proc page true m else .ok m

/-- The pages of a block. -/
def blockPages (mem totalSize : ℕ) : List ℕ :=
  List.range' (addrPage mem) (addrPage (mem + totalSize - 1) + 1 - addrPage mem)

/-- The pages that are present can be written, one after the other: each is writable, or is
copy-on-write and its fault is handled. -/
def Served (proc : ProcId) (pages : List ℕ) (m : Memory) : Prop :=
  ∃ m', pages.foldlM (writeAccess proc) m = .ok m'

/-! The contents of frames decide nothing here. -/

/-- The same tables over other contents. -/
def withFrames (g : ℕ → PageData) (m : Memory) : Memory := { m with frames := g }

section

variable {g : ℕ → PageData} {higherHalf handled write : Bool} {frame : ℕ} {val : Entry}
  {policy : Flags}

@[simp] lemma pte_withFrames : (m.withFrames g).pte = m.pte := by
  funext p
  cases p <;> rfl

@[simp] lemma frameRc_withFrames : (m.withFrames g).frameRc = m.frameRc := rfl

@[simp] lemma getFreePeUser_withFrames : (m.withFrames g).getFreePeUser =
    (m.getFreePeUser.1, m.getFreePeUser.2.withFrames g) := rfl

@[simp] lemma getFreeFrame_withFrames : (m.withFrames g).getFreeFrame =
    (m.getFreeFrame.1, m.getFreeFrame.2.withFrames g) := rfl

@[simp] lemma getContiguousPages_withFrames {hint : HintInfo} :
    getContiguousPages n hint proc (m.withFrames g) = getContiguousPages n hint proc m := by
  cases proc <;> rfl

lemma allocatePage_withFrames (h : allocatePage frame page policy m = .ok m') :
    allocatePage frame page policy (m.withFrames g) = .ok (m'.withFrames g) := by
  obtain ⟨hpage, hrc, rfl⟩ := allocatePage_eq_ok.mp h
  refine allocatePage_eq_ok.mpr ⟨hpage, hrc, ?_⟩
  rw [allocated, allocated]
  split_ifs <;> rfl

lemma updatePte_withFrames (h : updatePte proc page val m = .ok m') :
    updatePte proc page val (m.withFrames g) = .ok (m'.withFrames g) := by
  obtain ⟨hlt, hrc, rfl⟩ := updatePte_eq_ok.mp h
  refine updatePte_eq_ok.mpr ⟨hlt, by simpa using hrc, ?_⟩
  rw [updated, updated, acquireFrame, acquireFrame]
  cases proc <;> split_ifs <;> rfl

lemma copyPage_withFrames (dst src : ℕ) : ∃ g', copyPage proc dst src (m.withFrames g) =
    (copyPage proc dst src m).withFrames g' := by
  refine ⟨Function.update g (m.pte proc dst).frame (g (m.pte proc src).frame), ?_⟩
  rw [copyPage, pte_withFrames]
  rfl

lemma markFrameFree_withFrames (h : markFrameFree frame m = .ok m') :
    markFrameFree frame (m.withFrames g) = .ok (m'.withFrames g) := by
  rw [markFrameFree] at h ⊢
  split_ifs at h with hrc
  rw [frameRc_withFrames, if_neg hrc, ← Except.ok.inj h]
  rfl

lemma handleCowPageFault_withFrames (h : handleCowPageFault proc higherHalf page m = .ok m') :
    ∃ g', handleCowPageFault proc higherHalf page (m.withFrames g) = .ok (m'.withFrames g') := by
  rw [handleCowPageFault] at h ⊢
  split_ifs at h ⊢
  simp only [getFreePeUser_withFrames, getFreeFrame_withFrames, pte_withFrames] at h ⊢
  obtain ⟨m₁, h₁, h⟩ := bind_eq_ok.mp h
  obtain ⟨r, h₂, h⟩ := bind_eq_ok.mp h
  cases r with
  | none => simp at h
  | some mappingPe =>
      obtain ⟨m₂, h₃, h⟩ := bind_eq_ok.mp h
      obtain ⟨m₃, h₄, h⟩ := bind_eq_ok.mp h
      obtain ⟨m₄, h₅, h⟩ := bind_eq_ok.mp h
      obtain ⟨g', hcopy⟩ := @copyPage_withFrames m₃ proc g page mappingPe
      refine ⟨g', bind_eq_ok.mpr ⟨_, allocatePage_withFrames h₁, bind_eq_ok.mpr ⟨some mappingPe,
        by rwa [getContiguousPages_withFrames], bind_eq_ok.mpr ⟨_, updatePte_withFrames h₃,
          bind_eq_ok.mpr ⟨_, updatePte_withFrames h₄, bind_eq_ok.mpr ⟨m₄.withFrames g', ?_, ?_⟩⟩⟩⟩⟩⟩
      · rw [hcopy]
        exact updatePte_withFrames h₅
      · by_cases hrc : m₄.frameRc m.getFreePeUser.2.getFreeFrame.1 = 0
        · rw [if_pos hrc] at h
          exact (if_pos hrc).trans (markFrameFree_withFrames h)
        · rw [if_neg hrc] at h
          exact (if_neg hrc).trans (by rw [← Except.ok.inj h])

lemma pageFaultHandler_write (hpage : page < proc.entries)
    (hlazy : (m.pte proc page).flags.lazyZero = false) :
    pageFaultHandler proc (page * pageSize) true m =
      if (m.pte proc page).flags.cow then
        (handleCowPageFault proc (decide (kernelVirtualBase ≤ page * pageSize)) page m).map
          fun m => (true, m)
      else .ok (false, m) := by
  have htable := faultTable_eq hpage
  have haddr : addrPage (page * pageSize) = page := by simp [addrPage, pageSize]
  simp only [pageFaultHandler, htable, haddr, hlazy, Bool.not_false, Bool.not_true,
    Bool.false_eq_true, if_true, if_false]
  rw [if_neg (Nat.not_le.mpr hpage)]
  by_cases hcow : (m.pte proc page).flags.cow = true
  · rw [if_pos hcow, if_pos hcow]
    cases handleCowPageFault proc (decide (kernelVirtualBase ≤ page * pageSize)) page m <;> rfl
  · rw [if_neg hcow, if_neg hcow]
    rfl

lemma writeAccess_withFrames (hlazy : (m.pte proc page).flags.present = true →
      (m.pte proc page).flags.lazyZero = false) (hpage : page < proc.entries)
    (h : writeAccess proc m page = .ok m') :
    ∃ g', writeAccess proc (m.withFrames g) page = .ok (m'.withFrames g') := by
  rw [writeAccess] at h ⊢
  rw [pte_withFrames]
  split_ifs at h ⊢ with hpresent
  · rw [kernelAccess] at h ⊢
    rw [pte_withFrames]
    split_ifs at h ⊢ with hallows
    · obtain rfl := Except.ok.inj h
      exact ⟨g, rfl⟩
    · rw [pageFaultHandler_write hpage (hlazy hpresent)] at h
      rw [pageFaultHandler_write hpage (by rw [pte_withFrames]; exact hlazy hpresent), pte_withFrames]
      split_ifs at h ⊢ with hcow
      · obtain ⟨r, hr, h⟩ := bind_eq_ok.mp h
        obtain ⟨m₁, hhandled, rfl⟩ := map_eq_ok.mp hr
        obtain ⟨g', hhandled'⟩ := @handleCowPageFault_withFrames _ _ _ _ g _ hhandled
        refine ⟨g', bind_eq_ok.mpr ⟨(true, m₁.withFrames g'), by rw [hhandled']; rfl, ?_⟩⟩
        simp only [pte_withFrames] at h ⊢
        split_ifs at h ⊢
        rw [Except.ok.inj h]
      · simp [bind, Except.bind, hallows] at h
  · obtain rfl := Except.ok.inj h
    exact ⟨g, rfl⟩

lemma Own.writeAccess (hown : Own proc m) (hpage : page < proc.entries)
    (h : m.writeAccess proc page = .ok m') : Own proc m' := by
  rw [Memory.writeAccess] at h
  split_ifs at h with hpresent
  · exact (kernelAccess_spec hown ⟨hpage, by simp [Entry.used, hpresent]⟩ h).2.own
  · obtain rfl := Except.ok.inj h
    exact hown

lemma Own.eager (hown : Own proc m) (hpage : page < proc.entries) :
    (m.pte proc page).flags.present = true → (m.pte proc page).flags.lazyZero = false := by
  intro hpresent
  by_contra hlazy
  rw [(hown.lazy page hpage (by simpa using hlazy)).1] at hpresent
  exact Bool.noConfusion hpresent

lemma zeroOutPart_of_writeAccess (hown : Own proc m) (hpage : addrPage address < proc.entries)
    (hn : n ≠ 0) (h : m.writeAccess proc (addrPage address) = .ok m') :
    ∃ g', zeroOutPart proc address n (m.withFrames g) = .ok (m'.withFrames g') := by
  obtain ⟨g₁, h₁⟩ := @writeAccess_withFrames _ _ _ _ g (hown.eager hpage) hpage h
  rw [zeroOutPart, if_neg (Nat.not_le.mpr hpage)]
  rw [writeAccess] at h₁
  split_ifs at h₁ ⊢ with hpresent
  · rw [memset, if_neg hn, h₁]
    exact ⟨_, rfl⟩
  · exact ⟨g₁, h₁⟩

lemma writeAccess_of_zeroOutPart (hown : Own proc m) (hpage : addrPage address < proc.entries)
    (hn : n ≠ 0) (h : zeroOutPart proc address n (m.withFrames g) = .ok m') :
    ∃ m₁ g', m.writeAccess proc (addrPage address) = .ok m₁ ∧ m' = m₁.withFrames g' := by
  rw [zeroOutPart, if_neg (Nat.not_le.mpr hpage)] at h
  -- the same access on the memory itself
  have hback : ∀ m₂, (m.withFrames g).writeAccess proc (addrPage address) = .ok m₂ →
      ∃ g₂, m.writeAccess proc (addrPage address) = .ok (m₂.withFrames g₂) := fun m₂ h₂ =>
    @writeAccess_withFrames (m.withFrames g) m₂ proc _ m.frames
      (by rw [pte_withFrames]; exact hown.eager hpage) hpage h₂
  split_ifs at h with hpresent
  · rw [memset, if_neg hn] at h
    obtain ⟨m₂, haccess, h⟩ := bind_eq_ok.mp h
    obtain ⟨g₂, hok⟩ := hback m₂ (by rw [writeAccess, if_pos hpresent, haccess])
    exact ⟨m₂.withFrames g₂, m'.frames, hok, by rw [← Except.ok.inj h]; rfl⟩
  · obtain ⟨g₂, hok⟩ := hback m' (by rw [writeAccess, if_neg hpresent, h])
    exact ⟨m'.withFrames g₂, m'.frames, hok, rfl⟩

lemma parts_served : ∀ {parts : List (ℕ × ℕ)} {m : Memory} {g : ℕ → PageData}, Own proc m →
    (∀ r ∈ parts, addrPage r.1 < proc.entries ∧ r.2 ≠ 0) →
      ((∃ m', parts.foldlM (fun m r => zeroOutPart proc r.1 r.2 m) (m.withFrames g) = .ok m') ↔
        Served proc (parts.map fun r => addrPage r.1) m)
  | [], m, g, _, _ => iff_of_true ⟨_, rfl⟩ ⟨m, rfl⟩
  | r :: parts, m, g, hown, hparts => by
      obtain ⟨hpage, hn⟩ := hparts r List.mem_cons_self
      have hrest : ∀ m₁ g₁, m.writeAccess proc (addrPage r.1) = .ok m₁ → _ := fun m₁ g₁ h₁ =>
        @parts_served parts m₁ g₁ (hown.writeAccess hpage h₁) fun r' hr' =>
          hparts r' (List.mem_cons_of_mem r hr')
      simp only [Served, List.map_cons, List.foldlM_cons, bind_eq_ok]
      constructor
      · rintro ⟨m', m₁, h₁, h⟩
        obtain ⟨m₂, g₂, h₂, rfl⟩ := writeAccess_of_zeroOutPart hown hpage hn h₁
        obtain ⟨m₃, h₃⟩ := (hrest m₂ g₂ h₂).mp ⟨m', h⟩
        exact ⟨m₃, m₂, h₂, h₃⟩
      · rintro ⟨m', m₁, h₁, h⟩
        obtain ⟨g₁, h₂⟩ := @zeroOutPart_of_writeAccess _ _ _ _ _ g hown hpage hn h₁
        obtain ⟨m₃, h₃⟩ := (hrest m₁ g₁ h₁).mpr ⟨m', h⟩
        exact ⟨m₃, m₁.withFrames g₁, h₂, h₃⟩

lemma zeroParts_pos (hpos : 0 < totalSize) {r : ℕ × ℕ} (h : r ∈ zeroParts totalSize mem) : r.2 ≠ 0 := by
  simp only [zeroParts, List.mem_cons, List.mem_map, List.mem_range] at h
  rcases h with rfl | ⟨i, hi, rfl⟩
  · simp only [pageSize]
    omega
  · simp only [pageSize, addrPage, u32] at *
    omega

lemma map_zeroParts (hpos : 0 < totalSize) (hmax : mem + totalSize ≤ 4294967296) :
    ((zeroParts totalSize mem).map fun r => addrPage r.1) = blockPages mem totalSize := by
  set first := min (pageSize - mem % pageSize) totalSize with hfirst
  have hcount : addrPage (mem + totalSize - 1) + 1 - addrPage mem =
      addrPage (u32 (totalSize - first + pageSize - 1)) + 1 := by
    simp only [hfirst, pageSize, addrPage, u32] at *
    omega
  have hpage : ∀ i, addrPage (i * pageSize) = i := fun i => by simp [addrPage, pageSize]
  rw [blockPages, hcount, List.range'_succ, zeroParts, List.map_cons, List.map_map,
    List.range'_eq_map_range]
  congr 1
  exact List.map_congr_left fun i _ => hpage _

lemma zeroOut_succeeds_iff (hown : Own proc m) (hpos : 0 < totalSize)
    (hmax : mem + totalSize ≤ 4294967296)
    (hpages : ∀ x, mem ≤ x → x < mem + totalSize → addrPage x < proc.entries) :
    (∃ m', zeroOutPossiblyLazilyAllocatedMemory totalSize mem proc m = .ok m') ↔
      Served proc (blockPages mem totalSize) m := by
  rw [zeroOut_eq, ← map_zeroParts hpos hmax]
  refine @parts_served proc _ m m.frames hown fun r hr => ⟨?_, zeroParts_pos hpos hr⟩
  have hn := zeroParts_pos hpos hr
  have hx := (mem_zeroParts hmax r.1).mp ⟨r, hr, le_rfl, by omega⟩
  exact hpages r.1 hx.1 hx.2

end

/-! ## The pages that `sbrk` adds -/

section

variable {policy : Flags} {frame addr pid : ℕ} {info : PageInfo} {hint : HintInfo}

lemma allocated_refilled (hlazy : policy.lazyZero = true → policy.present = false)
    (hcow : policy.cow = false) (hfree : frame < numFrames → m.frameToPage frame = none)
    (hframe : policy.present = true → frame < numFrames) :
    Refilled .kernel page m (m.allocated frame page policy) := by
  refine ⟨fun hl => ?_, fun hp => ?_, fun i hi => Or.inl ?_, fun g hg => ?_⟩
  · simp only [pte_allocated, and_self, if_true] at hl ⊢
    exact ⟨hlazy hl, hcow⟩
  · simp only [pte_allocated, and_self, if_true] at hp ⊢
    have hlt := hframe hp
    rw [Nat.mod_eq_of_lt hlt, frameToPage_allocated, if_pos ⟨hp, rfl⟩]
    exact ⟨hfree hlt, by simp⟩
  · rw [pte_allocated, if_neg fun h => hi h.2]
  · rw [frameToPage_allocated, frames_allocated]
    split_ifs <;> simp [hg]

lemma updated_refilled {e : Entry} (hlazy : e.flags.lazyZero = true → e.flags.present = false)
    (hcow : e.flags.cow = false) (hfree : e.flags.present = true → m.frameToPage e.frame = none)
    (hother : ∀ i, m₁.pte (.user pid) i = m.pte (.user pid) i)
    (htaken : ∀ g, m.frameToPage g ≠ none → m₁.frameToPage g ≠ none)
    (hmarked : e.flags.present = true → m₁.frameToPage e.frame ≠ none)
    (hframes : m₁.frames = m.frames) :
    Refilled (.user pid) page m (m₁.updated (.user pid) page e) := by
  refine ⟨fun hl => ?_, fun hp => ?_, fun i hi => Or.inl ?_, fun g hg => ?_⟩
  · rw [pte_updated_self] at hl ⊢
    exact ⟨hlazy hl, hcow⟩
  · rw [pte_updated_self] at hp ⊢
    rw [frameToPage_updated]
    exact ⟨hfree hp, hmarked hp⟩
  · rw [pte_updated_of_ne fun _ => hi, hother]
  · rw [frameToPage_updated, frames_updated, hframes]
    exact ⟨htaken g hg, rfl⟩

/-- **`sbrk` keeps the address space in order**, and the pages that were in use as they are. -/
lemma sbrk_own (hown : Own proc m) (hpolicy : info.policy.present = !info.policy.lazyZero)
    (h : sbrk proc n info hint m = .ok (addr, m')) :
    Own proc m' ∧ ∀ i, InUse m proc i → m'.pte proc i = m.pte proc i := by
  rcases sbrk_cases h with ⟨-, rfl⟩ | ⟨b, m₁, -, -, hcow, -, -, -, -⟩
  · exact ⟨hown, fun _ _ => rfl⟩
  have hlazy : info.policy.lazyZero = true → info.policy.present = false := by
    intro hl
    rw [hpolicy, hl]
    rfl
  have hstep : ∀ m₁ m₂ page, (Own proc m₁ ∧ ∀ i, InUse m proc i → m₁.pte proc i = m.pte proc i) →
      (m₁.pte proc page).used = false → Refilled proc page m₁ m₂ →
        Own proc m₂ ∧ ∀ i, InUse m proc i → m₂.pte proc i = m.pte proc i := by
    rintro m₁ m₂ page ⟨hown₁, hsame⟩ hunused href
    refine ⟨href.own hown₁, fun i hi => ?_⟩
    rcases href.other i (by
      rintro rfl
      rw [hsame i hi, hi.2] at hunused
      exact Bool.noConfusion hunused) with heq | ⟨hun, -⟩
    · rw [heq, hsame i hi]
    · rw [hsame i hi, hi.2] at hun
      exact Bool.noConfusion hun
  refine sbrk_rule (P := fun c => Own proc c ∧ ∀ i, InUse m proc i → c.pte proc i = m.pte proc i) h
    ⟨hown, fun _ _ => rfl⟩ ?_ ?_ ?_ ?_
  · rintro rfl m₁ m₂ page hP hunused hrun
    obtain ⟨frame, m₃, hs, -, hfree, hrc, rfl⟩ := allocateFreePage_spec hrun
    refine hstep m₁ _ page hP hunused ((allocated_refilled hlazy hcow ?_ ?_).scanned hs)
    · rwa [hs.frameToPage]
    · exact fun hp => (hrc hp).1
  · rintro pid rfl - m₁ m₂ page hP hunused hrun
    obtain ⟨frame, sysPe, m₃, hs, -, -, -, hfree, hrc, rfl⟩ := sbrkUserPage_spec hrun
    refine hstep m₁ _ page hP hunused (updated_refilled hlazy hcow ?_ ?_ ?_ ?_ ?_)
    · intro hp
      rw [Nat.mod_eq_of_lt (hrc hp).1]
      exact hfree (hrc hp).1
    · intro i
      rw [pte_allocated_user, hs.pte]
    · intro g hg
      rw [frameToPage_allocated, hs.frameToPage]
      split_ifs <;> simp [hg]
    · intro hp
      rw [Nat.mod_eq_of_lt (hrc hp).1, frameToPage_allocated, if_pos ⟨hp, rfl⟩]
      simp
    · rw [frames_allocated, hs.frames]
  · rintro pid rfl hl m₁ page hP - hunused
    have habsent : info.policy.present ≠ true := by simp [hlazy hl]
    exact hstep m₁ _ page hP hunused (updated_refilled hlazy hcow (fun hp => absurd hp habsent)
      (fun _ => rfl) (fun _ hg => hg) (fun hp => absurd hp habsent) rfl)
  · rintro m₁ pe ⟨hown₁, hsame⟩
    exact ⟨hown₁.congr (by simp) (by simp), by simpa using hsame⟩

end

lemma served_iff {pages : List ℕ} {policy : Flags} (hne : pages ≠ [])
    (hpages : ∀ i ∈ pages, i < proc.entries) (hflags : ∀ i ∈ pages, (m.pte proc i).flags = policy)
    (hpolicy : policy.present = !policy.lazyZero) (hcow : policy.cow = false) :
    Served proc pages m ↔ (policy.present = true → policy.write = true) := by
  by_cases hwrite : policy.present = true → policy.write = true
  · refine iff_of_true ?_ hwrite
    have hall : ∀ {pages : List ℕ}, (∀ i ∈ pages, (m.pte proc i).flags = policy) →
        pages.foldlM (writeAccess proc) m = .ok m := by
      intro pages
      induction pages with
      | nil => exact fun _ => rfl
      | cons i pages ih =>
          intro h
          have hi := h i List.mem_cons_self
          have hone : m.writeAccess proc i = .ok m := by
            rw [writeAccess, hi]
            split_ifs with hpresent
            · rw [kernelAccess, kernelAllows, hi, if_pos (by simp [hpresent, hwrite hpresent])]
            · rfl
          rw [List.foldlM_cons, hone]
          exact ih fun j hj => h j (List.mem_cons_of_mem i hj)
    exact ⟨m, hall hflags⟩
  · refine iff_of_false ?_ hwrite
    rw [Classical.not_imp] at hwrite
    obtain ⟨hpresent, hro⟩ := hwrite
    -- the first page fails
    obtain ⟨i, rest, rfl⟩ := List.exists_cons_of_ne_nil hne
    rintro ⟨m', h⟩
    rw [List.foldlM_cons, bind_eq_ok] at h
    obtain ⟨m₁, h₁, -⟩ := h
    have hi := hflags i List.mem_cons_self
    have hlazy : (m.pte proc i).flags.lazyZero = false := by simpa [hi, hpresent] using hpolicy
    have hallows : kernelAllows true (m.pte proc i) = false := by
      simpa [kernelAllows, hi, hpresent] using hro
    rw [writeAccess, hi, if_pos hpresent, kernelAccess, if_neg (by simp [hallows]),
      pageFaultHandler_write (hpages i List.mem_cons_self) hlazy, hi, if_neg (by simp [hcow])] at h₁
    simp [bind, Except.bind, hallows] at h₁

/-! ## The claim of `calloc` -/

/-- What reads after a call see: zero from `lo` on below `hi`, and elsewhere what a read before it
gave.  Any other reads may come in between. -/
structure ReadsBack (proc : ProcId) (lo hi : ℕ) (m m' : Memory) : Prop where
  values : ∀ xs vs m₂, (∀ x ∈ xs, InUse m' proc (addrPage x)) → loads proc xs m' = .ok (vs, m₂) →
    ∀ (k x : ℕ) (v : UInt8), xs[k]? = some x → vs[k]? = some v →
      (lo ≤ x ∧ x < hi → v = 0) ∧
        (¬ (lo ≤ x ∧ x < hi) → ∀ w m₃, kernelLoad proc x m = .ok (w, m₃) → v = w)
  returns : ∀ x, lo ≤ x → x < hi →
    ((m'.pte proc (addrPage x)).flags.present = true ∨ FrameLeft proc m') →
      ∃ r, kernelLoad proc x m' = .ok r

/-- A block that is not null is zeroed, and nothing else is changed. -/
def CallocRight (proc : ProcId) (nmemb size : ℕ) (info : PageInfo) (t : MemTree) (m : Memory) :
    Prop :=
  ∀ addr t' m₁, callocBlock (sbrk proc) nmemb size info t m = .ok ((addr, t'), m₁) → addr ≠ 0 →
    ∃ m', calloc proc nmemb size info t m = .ok ((addr, t'), m') ∧
      ReadsBack proc addr (addr + nmemb * size) m m'

section

variable {t t' : MemTree} {nmemb size addr b : ℕ} {info : PageInfo} {lo hi : ℕ} {p : Path}
  {d : Allocation} {l r : MemTree} {hint : HintInfo}

lemma readsBack_of_cleared (hown : Own proc m)
    (hsame : ∀ x, InUse m proc (addrPage x) →
      InUse m₁ proc (addrPage x) ∧ m₁.shown proc x = m.shown proc x)
    (huse : ∀ x, lo ≤ x → x < hi → InUse m₁ proc (addrPage x))
    (h : Cleared proc (fun x => lo ≤ x ∧ x < hi) m₁ m') : ReadsBack proc lo hi m m' := by
  refine ⟨fun xs vs m₂ hxs hloads k x v hx hv => ?_, fun x h₁ h₂ hpresent => ?_⟩
  · rw [loads_spec h.own hxs hloads, List.getElem?_map, hx, Option.map_some, Option.some.injEq] at hv
    subst hv
    refine ⟨fun hin => h.zero x (huse x hin.1 hin.2) hin, fun hout w m₃ hload => ?_⟩
    have hbefore := inUse_of_load (hxs x (List.mem_of_getElem? hx)).1 hload
    obtain ⟨huse₁, hshown⟩ := hsame x hbefore
    rw [h.other x huse₁ hout, hshown, (kernelLoad_spec hown hbefore hload).1]
  · exact kernelLoad_succeeds h.own (h.inUse _ (huse x h₁ h₂)) hpresent

lemma calloc_eq (hblock : callocBlock (sbrk proc) nmemb size info t m = .ok ((addr, t'), m₁))
    (hpos : 0 < nmemb * size) (hnull : addr ≠ 0) : calloc proc nmemb size info t m =
      (zeroOutPossiblyLazilyAllocatedMemory (nmemb * size) addr proc m₁ >>= fun m =>
        .ok ((addr, t'), m)) := by
  have hprod : ¬ (nmemb = 0 ∨ size = 0 ∨ addr = 0) := by
    rintro (rfl | rfl | h₀)
    · simp at hpos
    · simp at hpos
    · exact hnull h₀
  rw [calloc, hblock]
  exact if_neg hprod

lemma calloc_block (hown : Own proc m) (hown₁ : Own proc m₁)
    (hsame : ∀ x, InUse m proc (addrPage x) →
      InUse m₁ proc (addrPage x) ∧ m₁.shown proc x = m.shown proc x)
    (hblock : callocBlock (sbrk proc) nmemb size info t m = .ok ((addr, t'), m₁)) (hnull : addr ≠ 0)
    (hpos : 0 < nmemb * size) (hmax : addr + nmemb * size ≤ 4294967296)
    (huse : ∀ x, addr ≤ x → x < addr + nmemb * size → InUse m₁ proc (addrPage x)) :
    (∃ m', calloc proc nmemb size info t m = .ok ((addr, t'), m') ∧
      ReadsBack proc addr (addr + nmemb * size) m m') ↔
        Served proc (blockPages addr (nmemb * size)) m₁ := by
  rw [← zeroOut_succeeds_iff hown₁ hpos hmax fun x h₁ h₂ => (huse x h₁ h₂).1,
    calloc_eq hblock hpos hnull]
  constructor
  · rintro ⟨m', hok, -⟩
    obtain ⟨m₂, hzero, -⟩ := bind_eq_ok.mp hok
    exact ⟨m₂, hzero⟩
  · rintro ⟨m', hzero⟩
    have hcleared := zeroOut_cleared hown₁ hpos hmax huse hzero
    exact ⟨m', by rw [hzero]; rfl, readsBack_of_cleared hown hsame huse hcleared⟩

lemma zeroOut_runs_out (hb : b ≠ 0) (hbig : 4294967296 - 4096 < totalSize)
    (hlt : totalSize < 4294967296) :
    ¬ ∃ m', zeroOutPossiblyLazilyAllocatedMemory totalSize (b * pageSize) proc m = .ok m' := by
  rintro ⟨m', h⟩
  rw [zeroOut_eq] at h
  have hpages : ∀ {parts : List (ℕ × ℕ)} {m : Memory},
      parts.foldlM (fun m r => zeroOutPart proc r.1 r.2 m) m = .ok m' →
        ∀ r ∈ parts, addrPage r.1 < proc.entries := by
    intro parts
    induction parts with
    | nil => simp
    | cons r parts ih =>
        intro m h r' hr'
        rw [List.foldlM_cons, bind_eq_ok] at h
        obtain ⟨m₁, h₁, h⟩ := h
        rcases List.mem_cons.mp hr' with rfl | hr'
        · by_contra hout
          rw [zeroOutPart, if_pos (not_lt.mp hout)] at h₁
          simp at h₁
        · exact ih h r' hr'
  have hentries := entries_le proc
  -- the last part
  have hlast := hpages h ((addrPage (b * pageSize) + 1 + 1048574) * pageSize,
    min (totalSize - min (pageSize - b * pageSize % pageSize) totalSize - 1048574 * pageSize) pageSize)
    (by
      refine List.mem_cons_of_mem _ (List.mem_map.mpr ⟨1048574, ?_, rfl⟩)
      simp only [List.mem_range, addrPage, u32, pageSize]
      omega)
  simp only [addrPage, pageSize, numFrames] at *
  omega

lemma sbrk_shown (hown : Own proc m) (hpolicy : info.policy.present = !info.policy.lazyZero)
    (h : sbrk proc n info hint m = .ok (addr, m₁)) (x : ℕ) (huse : InUse m proc (addrPage x)) :
    InUse m₁ proc (addrPage x) ∧ m₁.shown proc x = m.shown proc x := by
  have hsame := (sbrk_own hown hpolicy h).2 _ huse
  refine ⟨⟨huse.1, by rw [hsame]; exact huse.2⟩, ?_⟩
  rw [shown, shown, hsame, sbrk_frames h]

lemma calloc_empty (hown : Own proc m) (hzero : nmemb = 0 ∨ size = 0) :
    CallocRight proc nmemb size info t m := by
  intro addr t' m₁ hblock hnull
  have hprod : nmemb * size = 0 := by
    rcases hzero with rfl | rfl <;> simp
  have hor : nmemb = 0 ∨ size = 0 ∨ addr = 0 := by tauto
  refine ⟨m₁, by rw [calloc, hblock]; exact if_pos hor, ?_⟩
  rw [callocBlock, if_pos hzero] at hblock
  have hpolicy := allocate_valid hblock
  have hstate : Own proc m₁ ∧ ∀ x, InUse m proc (addrPage x) →
      InUse m₁ proc (addrPage x) ∧ m₁.shown proc x = m.shown proc x := by
    rcases allocate_cases hblock with ⟨p, -, -, rfl⟩ | ⟨-, alloc, hsbrk, -⟩
    · exact ⟨hown, fun x hx => ⟨hx, rfl⟩⟩
    · exact ⟨(sbrk_own hown hpolicy hsbrk).1, sbrk_shown hown hpolicy hsbrk⟩
  have hnone : ∀ x, ¬ (addr ≤ x ∧ x < addr + nmemb * size) := fun x => by omega
  exact readsBack_of_cleared hown hstate.2 (fun x h₁ h₂ => absurd ⟨h₁, h₂⟩ (hnone x))
    ⟨hstate.1, fun _ h => h, fun x _ hx => absurd hx (hnone x), fun _ _ _ => rfl⟩

/-- What a call needs.  Either there is nothing to zero; or the free node that is found is at address
`0`, where it is not used, or its pages can be written; or there is none, and if `sbrk` has pages, they
are as many as the block needs and can be written. -/
def CallocFits (proc : ProcId) (nmemb size : ℕ) (info : PageInfo) (t : MemTree) (m : Memory) : Prop :=
  (nmemb = 0 ∨ size = 0) ∨ 4294967296 ≤ nmemb * size ∨
    info.policy.present = info.policy.lazyZero ∨
    (∃ p d l r, findFreeBlock (nmemb * size) defaultHintInfo t = some p ∧ t.subtree p = node d l r ∧
      (d.start = 0 ∨ Served proc (blockPages d.start (nmemb * size)) m)) ∨
    findFreeBlock (nmemb * size) defaultHintInfo t = none ∧ (m.lowestFreeFrame ≠ numFrames →
      ∀ b, getContiguousPages (numPagesFor (nmemb * size)) defaultHintInfo proc m = .ok (some b) →
        b ≠ 0 → Room proc (numPagesFor (nmemb * size)) b info.policy m →
          nmemb * size ≤ 4294967296 - 4096 ∧
            (info.policy.present = true → info.policy.write = true))

section

variable (hlayout : Layout t.inorder)
  (hused : ∀ x, Covers t.inorder x → InUse m proc (addrPage x)) (hown : Own proc m)
  (hpos : 0 < nmemb * size) (hlt : nmemb * size < 4294967296)
  (hpolicy : info.policy.present = !info.policy.lazyZero)

include hpos hlt

lemma callocBlock_eq : callocBlock (sbrk proc) nmemb size info t m =
    MemTree.allocate (sbrk proc) (nmemb * size) info defaultHintInfo t m := by
  have hprod : ¬ (nmemb = 0 ∨ size = 0) := by
    rintro (rfl | rfl) <;> simp at hpos
  rw [callocBlock, if_neg hprod, if_neg (Nat.not_le.mpr hlt)]

include hpolicy hown

include hlayout hused in
lemma calloc_found (hfind : findFreeBlock (nmemb * size) defaultHintInfo t = some p)
    (hsub : t.subtree p = node d l r) : CallocRight proc nmemb size info t m ↔
      d.start = 0 ∨ Served proc (blockPages d.start (nmemb * size)) m := by
  obtain ⟨d', l', r', hsub', -, hbig⟩ := findFreeBlock_some hfind
  rw [hsub] at hsub'
  obtain ⟨rfl, rfl, rfl⟩ := node.inj hsub'
  obtain ⟨A, B, hsplit, -, -⟩ := exists_split hsub
  have hdm : d ∈ t.inorder := by simp [hsplit]
  have hns := hlayout.nodeSize_eq hdm
  have hmax := hlayout.lt_max d hdm
  have hfst : (allocateIn p (nmemb * size) info t).1 = d.start := allocateIn_fst hsub
  rcases hin : allocateIn p (nmemb * size) info t with ⟨addr, t'⟩
  rw [hin] at hfst
  simp only at hfst
  subst hfst
  have hblock : callocBlock (sbrk proc) nmemb size info t m = .ok ((d.start, t'), m) := by
    rw [callocBlock_eq hpos hlt, allocate_found hpolicy hfind, hin]
  have hiff : d.start ≠ 0 → _ := fun hnull =>
    calloc_block hown hown (fun x hx => ⟨hx, rfl⟩) hblock hnull hpos (by omega) fun x h₁ h₂ =>
      hused x ⟨d, hdm, h₁, by omega⟩
  constructor
  · intro h
    by_cases hnull : d.start = 0
    · exact Or.inl hnull
    · exact Or.inr ((hiff hnull).mp (h _ _ _ hblock hnull))
  · rintro h addr t₁ m₁ hok hnull
    rw [hblock, Except.ok.injEq, Prod.mk.injEq, Prod.mk.injEq] at hok
    obtain ⟨⟨rfl, rfl⟩, rfl⟩ := hok
    exact (hiff hnull).mpr (h.resolve_left hnull)

lemma calloc_pages (hfind : findFreeBlock (nmemb * size) defaultHintInfo t = none)
    (hfull : m.lowestFreeFrame ≠ numFrames)
    (hgot : getContiguousPages (numPagesFor (nmemb * size)) defaultHintInfo proc m = .ok (some b))
    (hb : b ≠ 0) (hroom : Room proc (numPagesFor (nmemb * size)) b info.policy m) :
    CallocRight proc nmemb size info t m ↔ nmemb * size ≤ 4294967296 - 4096 ∧
      (info.policy.present = true → info.policy.write = true) := by
  obtain ⟨⟨alloc, m₁⟩, hsbrk⟩ := (sbrk_found_iff hfull hgot hpolicy).mpr hroom
  obtain rfl := sbrk_found hfull hgot hsbrk
  have hnull : b * pageSize ≠ 0 := by simp [hb, pageSize]
  obtain ⟨hbn, hunused, -⟩ := getContiguousPages_spec hgot
  have hentries := entries_le proc
  -- what `sbrk` leaves
  have hflags : ∀ i, b ≤ i → i < b + numPagesFor (nmemb * size) →
      (m₁.pte proc i).flags = info.policy := by
    obtain ⟨-, m₂, hloops, m₃, hadv, hr⟩ := (sbrk_found_eq_ok hfull hgot hpolicy).mp hsbrk
    simp only [Prod.mk.injEq, true_and] at hr
    subst hr
    obtain ⟨pe, -, rfl⟩ := advanceLowestPe_spec hadv
    intro i h₁ h₂
    rw [pte_setLowestPe]
    exact (sbrkPages_filling hpolicy hbn hloops).flags i h₁ h₂
  have hown₁ := (sbrk_own hown hpolicy hsbrk).1
  set d := physicalNode (b * pageSize) (nmemb * size) info
  have hfst : (allocateIn (BST.addNodePath compareFunc d t) (nmemb * size) info (addNode d t)).1 =
      b * pageSize := allocateIn_fst (@BST.subtree_addNodePath _ compareFunc d t)
  rcases hin : allocateIn (BST.addNodePath compareFunc d t) (nmemb * size) info (addNode d t) with
    ⟨addr, t'⟩
  rw [hin] at hfst
  simp only at hfst
  subst hfst
  have hblock : callocBlock (sbrk proc) nmemb size info t m = .ok ((b * pageSize, t'), m₁) := by
    rw [callocBlock_eq hpos hlt, allocate_asked hpolicy hfind hsbrk, if_neg hnull, hin]
  have hright : CallocRight proc nmemb size info t m ↔
      ∃ m', calloc proc nmemb size info t m = .ok ((b * pageSize, t'), m') ∧
        ReadsBack proc (b * pageSize) (b * pageSize + nmemb * size) m m' := by
    refine ⟨fun h => h _ _ _ hblock hnull, fun h addr t₁ m₂ hok _ => ?_⟩
    rw [hblock, Except.ok.injEq, Prod.mk.injEq, Prod.mk.injEq] at hok
    obtain ⟨⟨rfl, rfl⟩, rfl⟩ := hok
    exact h
  rw [hright]
  by_cases hsize : nmemb * size ≤ 4294967296 - 4096
  swap
  · refine iff_of_false ?_ fun h => hsize h.1
    rintro ⟨m', hok, -⟩
    rw [calloc_eq hblock hpos hnull] at hok
    obtain ⟨m₂, hzero, -⟩ := bind_eq_ok.mp hok
    exact zeroOut_runs_out hb (by omega) hlt ⟨m₂, hzero⟩
  have hcount : nmemb * size ≤ numPagesFor (nmemb * size) * pageSize := by
    simp only [numPagesFor, addrPage, u32, pageSize]
    omega
  have hrange : ∀ x, b * pageSize ≤ x → x < b * pageSize + nmemb * size →
      b ≤ addrPage x ∧ addrPage x < b + numPagesFor (nmemb * size) := by
    intro x h₁ h₂
    simp only [addrPage, pageSize] at *
    omega
  rw [calloc_block hown hown₁ (sbrk_shown hown hpolicy hsbrk) hblock hnull hpos (by
    simp only [pageSize, numFrames] at *
    omega) fun x h₁ h₂ => ?_]
  · rw [and_iff_right hsize]
    have hmem : ∀ i ∈ blockPages (b * pageSize) (nmemb * size),
        b ≤ i ∧ i < b + numPagesFor (nmemb * size) := by
      intro i hi
      rw [blockPages, List.mem_range'_1] at hi
      obtain ⟨-, hlast⟩ := hrange (b * pageSize + nmemb * size - 1) (by omega) (by omega)
      simp only [addrPage, pageSize] at *
      omega
    refine served_iff ?_ (fun i hi => ?_) (fun i hi => hflags i (hmem i hi).1 (hmem i hi).2) hpolicy
      hroom.supported.1
    · simp only [blockPages, ne_eq, List.range'_eq_nil_iff, addrPage, pageSize]
      omega
    · have hin := hmem i hi
      omega
  · obtain ⟨hlo, hhi⟩ := hrange x h₁ h₂
    exact ⟨by omega, used_of_policy hpolicy (hflags _ hlo hhi)⟩

end

/-- **`calloc`** zeroes its block and nothing else, as far as reads can tell, iff it fits. -/
theorem calloc_right_iff (hlayout : Layout t.inorder)
    (hused : ∀ x, Covers t.inorder x → InUse m proc (addrPage x)) (hown : Own proc m) :
    CallocRight proc nmemb size info t m ↔ CallocFits proc nmemb size info t m := by
  by_cases hzero : nmemb = 0 ∨ size = 0
  · exact iff_of_true (calloc_empty hown hzero) (Or.inl hzero)
  by_cases hover : 4294967296 ≤ nmemb * size
  · refine iff_of_true (fun addr t' m₁ hok hnull => ?_) (Or.inr (Or.inl hover))
    rw [callocBlock, if_neg hzero, if_pos hover, Except.ok.injEq, Prod.mk.injEq,
      Prod.mk.injEq] at hok
    exact absurd hok.1.1.symm hnull
  have hpos : 0 < nmemb * size := by
    rw [not_or] at hzero
    exact Nat.mul_pos (Nat.pos_of_ne_zero hzero.1) (Nat.pos_of_ne_zero hzero.2)
  have hlt : nmemb * size < 4294967296 := not_le.mp hover
  by_cases hvalid : info.policy.present = info.policy.lazyZero
  · refine iff_of_true (fun addr t' m₁ hok _ => ?_) (Or.inr (Or.inr (Or.inl hvalid)))
    rw [callocBlock_eq hpos hlt, MemTree.allocate, hvalid] at hok
    cases hlazy : info.policy.lazyZero <;> simp [hlazy] at hok
  have hpolicy : info.policy.present = !info.policy.lazyZero := Bool.eq_not.mpr hvalid
  simp only [CallocFits, hzero, hover, hvalid, false_or]
  cases hfind : findFreeBlock (nmemb * size) defaultHintInfo t with
  | some p =>
      obtain ⟨d, l, r, hsub, -, -⟩ := findFreeBlock_some hfind
      rw [calloc_found hlayout hused hown hpos hlt hpolicy hfind hsub]
      simp [hsub]
  | none =>
      simp only [reduceCtorEq, false_and, exists_false, true_and, false_or]
      -- without pages the answer is null, or there is none
      have hnull : (∀ alloc m₁, sbrk proc (numPagesFor (nmemb * size)) info defaultHintInfo m =
          .ok (alloc, m₁) → alloc = 0) → CallocRight proc nmemb size info t m := by
        intro hsbrk addr t' m₁ hok hne
        rw [callocBlock_eq hpos hlt] at hok
        rcases allocate_cases hok with ⟨p, hp, -⟩ | ⟨-, alloc, hran, ⟨-, h₀, -⟩ | ⟨halloc, -⟩⟩
        · simp [hfind] at hp
        · exact absurd h₀ hne
        · exact absurd (hsbrk _ _ hran) halloc
      by_cases hpages : m.lowestFreeFrame ≠ numFrames ∧ ∃ b ≠ 0,
          getContiguousPages (numPagesFor (nmemb * size)) defaultHintInfo proc m = .ok (some b) ∧
            Room proc (numPagesFor (nmemb * size)) b info.policy m
      · obtain ⟨hfull, b, hb, hgot, hroom⟩ := hpages
        rw [calloc_pages hown hpos hlt hpolicy hfind hfull hgot hb hroom]
        constructor
        · intro h _ c hc _ _
          exact h
        · exact fun h => h hfull b hgot hb hroom
      · refine iff_of_true (hnull fun alloc m₁ hsbrk => ?_) fun hfull b hgot hb hroom =>
          absurd ⟨hfull, b, hb, hgot, hroom⟩ hpages
        by_contra halloc
        rcases sbrk_cases hsbrk with ⟨h₀, -⟩ | ⟨b, m₂, rfl, hgot, -⟩
        · exact halloc h₀
        · have hfull : m.lowestFreeFrame ≠ numFrames := by
            intro hfull
            rw [sbrk, if_pos hfull, Except.ok.injEq, Prod.mk.injEq] at hsbrk
            exact halloc hsbrk.1.symm
          refine hpages ⟨hfull, b, fun h₀ => halloc (by rw [h₀, Nat.zero_mul]), hgot,
            (sbrk_found_iff hfull hgot hpolicy).mp ⟨_, hsbrk⟩⟩

end

/-- `freePages` with its two frames marked used. -/
def ownPages : Memory :=
  { freePages with frameToPage := fun f =>
      if f = 5001 ∨ f = 5002 then some (785431 + f) else bootMemory.frameToPage f }

lemma own_ownPages : Own (.user 0) ownPages := by
  have hpresent : ∀ i, (ownPages.pte (.user 0) i).flags.present = true → i = 1 ∨ i = 2 := by
    intro i hi
    by_contra hne
    simp [ownPages, freePages, pte, hne] at hi
  refine ⟨fun i _ hlazy => ?_, fun i _ hp => ?_, fun i _ j _ hi hj hframe => ?_⟩
  · simp only [ownPages, freePages, pte] at hlazy
    split_ifs at hlazy
    simp [defaultUPageInfo] at hlazy
  · rcases hpresent i hp with rfl | rfl <;> decide
  · rcases hpresent i hi with rfl | rfl <;> rcases hpresent j hj with rfl | rfl
    all_goals first
      | rfl
      | exact absurd hframe (by decide)

/-- Four times 25 bytes, of a free node whose pages can be written. -/
theorem calloc_right_hundred : CallocRight (.user 0) 4 25 defaultUPageInfo freeTree ownPages := by
  refine (calloc_right_iff ?_ (fun x hx => ?_) own_ownPages).mpr
    (Or.inr (Or.inr (Or.inr (Or.inl ⟨[], _, _, _, by decide, rfl, Or.inr ⟨ownPages, rfl⟩⟩))))
  · exact ⟨⟨by simp [freeTree], by simp [freeTree]⟩, by simp [freeTree], by simp [freeTree]⟩
  · obtain ⟨d, hd, hxd⟩ := hx
    obtain rfl := List.mem_singleton.mp hd
    have hpage : addrPage x = 1 ∨ addrPage x = 2 := by
      simp only [addrPage] at *
      omega
    rcases hpage with hpage | hpage <;> rw [hpage] <;> exact ⟨by decide, by decide⟩

/-- **A product of `2^32 - 1`** gets two pages, and the zeroing runs out of the page table. -/
theorem calloc_runs_out : ¬ CallocRight (.user 0) 65535 65537 defaultUPageInfo nil oneProcess := by
  have hrun : (callocBlock (sbrk (.user 0)) 65535 65537 defaultUPageInfo nil oneProcess).map
      (fun r => r.1.1) = .ok 4096 := by decide +kernel
  obtain ⟨⟨⟨addr, t'⟩, m₁⟩, hblock, hres⟩ := map_eq_ok.mp hrun
  simp only at hres
  subst hres
  intro hright
  obtain ⟨m', hok, -⟩ := hright _ _ _ hblock (by decide)
  rw [calloc_eq hblock (by decide) (by decide)] at hok
  obtain ⟨m₂, hzero, -⟩ := bind_eq_ok.mp hok
  exact @zeroOut_runs_out m₁ (.user 0) (65535 * 65537) 1 (by decide) (by decide) (by decide)
    ⟨m₂, hzero⟩

end BrebOS.Memory

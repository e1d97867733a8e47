import BrebOS.Core.SlabAllocator.Lists
import BrebOS.Lib.Loop
import BrebOS.Lib.Run

/-!
# Runs of a slab allocator

`alloc` keeps the three lists right.  `free` does only where the page of the slot is where `free`
looks for it: a page that becomes empty has to be the head of the partial list, because it is the
head that is unlinked, and a full page that gets a free slot back is never moved at all.  A page
given back is not taken off the count of empty pages either.
-/

namespace BrebOS

namespace SlabAllocator

/-! ## `alloc` -/

section Alloc

variable {T : AllocSize} {s s' : SlabAllocator} {live : Finset Slot} {p q pe : ℕ} {t : Slot}

/-- The state between the choice of page `p` and the taking of a slot: `p` is the head of the
partial list, whatever the number of its free slots, which is not 0. -/
structure Chosen (T : AllocSize) (live : Finset Slot) (p : ℕ) (s : SlabAllocator) : Prop where
  listed : ∃ lists, Listed s (Function.update (s.kind T) p .inPartial) lists ∧
    s.numEmptyPages = (lists .empty).length
  few : s.numEmptyPages ≤ nFreePageThreshold
  slots : Slots T live s
  head : s.partialPages = some p
  pos : 0 < (s.header p).numFreeAllocs

lemma Chosen.mem_pages (h : Chosen T live p s) : p ∈ s.pages := by
  obtain ⟨lists, hl, -⟩ := h.listed
  have hlinked : Linked s.nextPage s.partialPages (lists .inPartial) := hl.linked .inPartial
  rw [h.head] at hlinked
  obtain ⟨l, hcons, -⟩ := hlinked.eq_cons
  exact ((hl.mem .inPartial p).mp (by simp [hcons])).1

lemma kind_getNewPage :
    (s.getNewPage T pe).kind T = Function.update (s.kind T) pe .empty := by
  funext q
  rcases eq_or_ne q pe with rfl | hq
  · simp [kind, getNewPage, kindOf]
  · simp [kind, getNewPage, hq]

lemma Inv.getNewPage (h : Inv T live s) (hpe : pe ∉ s.pages) (hempty : s.emptyPages = none) :
    Inv T live (s.getNewPage T pe) := by
  obtain ⟨lists, hl, hlen⟩ := h.listed
  have hlinked : Linked s.nextPage s.emptyPages (lists .empty) := hl.linked .empty
  rw [hempty] at hlinked
  have hnil : lists .empty = [] := hlinked.eq_nil
  have hnum : s.numEmptyPages = 0 := by simpa [hnil] using hlen
  have hnotMem : ∀ k, pe ∉ lists k := fun k hk => hpe ((hl.mem k pe).mp hk).1
  have hnext : (s.getNewPage T pe).nextPage = Function.update s.nextPage pe s.emptyPages := by
    funext q
    rcases eq_or_ne q pe with rfl | hq
    · simp [nextPage, SlabAllocator.getNewPage]
    · simp [nextPage, SlabAllocator.getNewPage, hq]
  refine ⟨⟨Function.update lists .empty [pe], ⟨?_, ?_, ?_⟩, ?_⟩, ?_, h.slots.getNewPage hpe⟩
  · intro k
    rw [hnext]
    rcases eq_or_ne k .empty with rfl | hk
    · rw [Function.update_self]
      exact hnil ▸ (hl.linked .empty).push (hnotMem _)
    · rw [Function.update_of_ne hk]
      cases k with
      | empty => exact absurd rfl hk
      | inPartial => exact (hl.linked .inPartial).update (hnotMem _) _
      | full => exact (hl.linked .full).update (hnotMem _) _
  · intro k
    rcases eq_or_ne k .empty with rfl | hk
    · simp
    · rw [Function.update_of_ne hk]
      exact hl.nodup k
  · intro k q
    rw [kind_getNewPage]
    show _ ↔ q ∈ insert pe s.pages ∧ _
    rw [Finset.mem_insert]
    rcases eq_or_ne q pe with rfl | hq
    · rcases eq_or_ne k .empty with rfl | hk
      · simp
      · simp [hk, hk.symm, hnotMem]
    · rcases eq_or_ne k .empty with rfl | hk
      · have := (hl.mem .empty q).not.mp (by simp [hnil])
        simpa [hq] using this
      · rw [Function.update_of_ne hk, Function.update_of_ne hq, hl.mem k q]
        simp [hq]
  · simp [SlabAllocator.getNewPage, hnum, u32]
  · simp [SlabAllocator.getNewPage, hnum, u32, nFreePageThreshold]

lemma choosePage_spec (h : Inv T live s) (hpe : pe ∉ s.pages) :
    ∃ p s₁, s.choosePage T pe = (p, s₁) ∧ Inv T live s₁ ∧
      (s₁.partialPages = some p ∨ s₁.partialPages = none ∧ s₁.emptyPages = some p) := by
  rcases hp : s.partialPages with _ | p
  · rcases he : s.emptyPages with _ | p
    · exact ⟨pe, _, by rw [choosePage, hp, he], h.getNewPage hpe he, Or.inr ⟨hp, rfl⟩⟩
    · exact ⟨p, s, by rw [choosePage, hp, he], h, Or.inr ⟨hp, he⟩⟩
  · exact ⟨p, s, by rw [choosePage, hp], h, Or.inl hp⟩

lemma kindOf_eq_inPartial {n : ℕ} :
    kindOf T n = .inPartial ↔ 0 < n ∧ n ≠ T.maxAllocsPerPage := by
  unfold kindOf
  have := maxAllocsPerPage_pos (T := T)
  split_ifs <;> simp <;> omega

lemma kindOf_eq_empty {n : ℕ} : kindOf T n = .empty ↔ n = T.maxAllocsPerPage := by
  unfold kindOf
  split_ifs <;> simp <;> omega

lemma Inv.chosen (h : Inv T live s) (hp : s.partialPages = some p) : Chosen T live p s := by
  obtain ⟨lists, hl, hlen⟩ := h.listed
  have hlinked : Linked s.nextPage s.partialPages (lists .inPartial) := hl.linked .inPartial
  rw [hp] at hlinked
  obtain ⟨l, hcons, -⟩ := hlinked.eq_cons
  have hkind : s.kind T p = .inPartial := ((hl.mem .inPartial p).mp (by simp [hcons])).2
  refine ⟨⟨lists, ?_, hlen⟩, h.few, h.slots, hp, (kindOf_eq_inPartial.mp hkind).1⟩
  rw [← hkind, Function.update_eq_self]
  exact hl

lemma Inv.head_ne (h : Inv T live s) (hp : s.partialPages = some p) : some p ≠ s.emptyPages := by
  intro he
  obtain ⟨lists, hl, -⟩ := h.listed
  have hpartial : Linked s.nextPage s.partialPages (lists .inPartial) := hl.linked .inPartial
  have hempty : Linked s.nextPage s.emptyPages (lists .empty) := hl.linked .empty
  rw [hp] at hpartial
  rw [← he] at hempty
  obtain ⟨l, hcons, -⟩ := hpartial.eq_cons
  obtain ⟨l', hcons', -⟩ := hempty.eq_cons
  have hkind := ((hl.mem .inPartial p).mp (by simp [hcons])).2
  have hkind' := ((hl.mem .empty p).mp (by simp [hcons'])).2
  rw [hkind] at hkind'
  cases hkind'

lemma Inv.emptyToPartial (h : Inv T live s) (he : s.emptyPages = some p) :
    ∃ s', s.emptyToPartial p = .ok s' ∧ Chosen T live p s' := by
  obtain ⟨lists, hl, hlen⟩ := h.listed
  have hmem : p ∈ s.pages ∧ s.kind T p = .empty := by
    have hempty : Linked s.nextPage s.emptyPages (lists .empty) := hl.linked .empty
    rw [he] at hempty
    obtain ⟨l, hcons, -⟩ := hempty.eq_cons
    exact (hl.mem .empty p).mp (by simp [hcons])
  obtain ⟨s', hok, hm, hnum⟩ := emptyToPartial_moved he hmem.1
  obtain ⟨l, hcons, hmoved⟩ := hl.move (show s.head .empty = some p from he) (by decide) hm
  have hlen' : s.numEmptyPages = l.length + 1 := by rw [hlen, hcons, List.length_cons]
  have hfew := h.few
  unfold nFreePageThreshold at hfew
  rw [u32Sub_of_le (by omega) (by omega)] at hnum
  refine ⟨s', hok, ⟨_, hm.kind T ▸ hmoved, ?_⟩, ?_, h.slots.move hm, ?_, ?_⟩
  · rw [hnum, hlen']
    simp
  · show _ ≤ 2
    omega
  · show s'.head .inPartial = _
    rw [hm.head, Function.update_self]
  · rw [hm.numFreeAllocs, (kindOf_eq_empty.mp hmem.2)]
    exact maxAllocsPerPage_pos

lemma Chosen.slotTaken (h : Chosen T live p s) :
    ∃ t s₁, s.takeSlot p = (if (s₁.header p).numFreeAllocs = 0 then
        s₁.partialToFull p >>= fun s => .ok (t, s) else .ok (t, s₁)) ∧
      t ∉ live ∧ Slots T (insert t live) s₁ ∧ s₁.partialPages = some p ∧ p ∈ s₁.pages ∧
      (s₁.header p).numFreeAllocs < T.maxAllocsPerPage ∧ s₁.numEmptyPages = s.numEmptyPages ∧
      ∃ lists, Listed s₁ (Function.update (s₁.kind T) p .inPartial) lists ∧
        s₁.numEmptyPages = (lists .empty).length := by
  obtain ⟨lists, hl, hlen⟩ := h.listed
  have hp := h.mem_pages
  obtain ⟨m, hm⟩ := h.slots.free p hp
  obtain ⟨t, m, rfl⟩ : ∃ t m', m = t :: m' := by
    refine List.exists_cons_of_ne_nil fun hnil => ?_
    have := hm.length
    have := h.pos
    simp_all
  have hfree : (s.header p).freep = some t := (linked_cons.mp hm.linked).1
  have hpos := h.pos
  have hle := hm.length ▸ hm.length_le
  have hmax := maxAllocsPerPage_lt (T := T)
  have hsub := u32Sub_of_le hpos (lt_of_le_of_lt hle (by omega))
  set s₁ := s.setHeader p { s.header p with
    freep := s.next t, numFreeAllocs := (s.header p).numFreeAllocs - 1 } with hs₁
  have hself : (s₁.header p).numFreeAllocs = (s.header p).numFreeAllocs - 1 ∧
      (s₁.header p).freep = s.next t := by
    simp [hs₁, setHeader]
  have hheader : ∀ q, q ≠ p → s₁.header q = s.header q := by
    intro q hq
    simp [hs₁, setHeader, hq]
  have hnext : s₁.nextPage = s.nextPage := by
    funext q
    rcases eq_or_ne q p with rfl | hq
    · simp [hs₁, setHeader, nextPage]
    · rw [nextPage, hheader q hq, nextPage]
  have hkinds : Function.update (s₁.kind T) p .inPartial = Function.update (s.kind T) p .inPartial := by
    funext q
    rcases eq_or_ne q p with rfl | hq
    · simp
    · rw [Function.update_of_ne hq, Function.update_of_ne hq, kind, hheader q hq, kind]
  have htaken : t ∉ live ∧ Slots T (insert t live) s₁ := by
    refine h.slots.take hp hfree rfl rfl ?_ ⟨hself.2, hself.1⟩
    intro q hq
    rw [hheader q hq]
    exact ⟨rfl, rfl⟩
  refine ⟨t, s₁, ?_, htaken.1, htaken.2, h.head, hp, by omega, rfl, lists, ?_, hlen⟩
  · rw [hself.1]
    simp only [SlabAllocator.takeSlot, deref_some hp, bind, Except.bind, hfree, hsub]
    rfl
  · rw [hkinds]
    exact hl.congr hnext (by funext k; cases k <;> rfl) rfl

lemma Chosen.takeSlot (h : Chosen T live p s) :
    ∃ t s', s.takeSlot p = .ok (t, s') ∧ t ∉ live ∧ Inv T (insert t live) s' := by
  obtain ⟨t, s₁, htake, hfresh, hslots, hhead, hp, hlt, hempty, lists, hl, hlen⟩ := h.slotTaken
  rw [htake]
  by_cases hzero : (s₁.header p).numFreeAllocs = 0
  · rw [if_pos hzero]
    obtain ⟨s', hok, hm, hnum⟩ := partialToFull_moved hhead hp
    obtain ⟨l, -, hmoved⟩ :=
      hl.move (show s₁.head .inPartial = some p from hhead) (by decide) hm
    have hkind : s'.kind T = Function.update (s₁.kind T) p .full := by
      have hp : s₁.kind T p = .full := by
        rw [kind, hzero, kindOf, if_neg (by omega), if_pos rfl]
      rw [← hp, Function.update_eq_self, hm.kind]
    rw [Function.update_idem, ← hkind] at hmoved
    refine ⟨t, s', by rw [hok]; rfl, hfresh, ⟨_, hmoved, ?_⟩, ?_, hslots.move hm⟩
    · simpa [hnum] using hlen
    · rw [hnum, hempty]
      exact h.few
  · rw [if_neg hzero]
    have hkind : s₁.kind T p = .inPartial := kindOf_eq_inPartial.mpr ⟨by omega, by omega⟩
    rw [← hkind, Function.update_eq_self] at hl
    exact ⟨t, s₁, rfl, hfresh, ⟨lists, hl, hlen⟩, hempty ▸ h.few, hslots⟩

lemma Inv.alloc (h : Inv T live s) (hpe : pe ∉ s.pages) :
    ∃ t s', s.alloc T pe = .ok (t, s') ∧ t ∉ live ∧ Inv T (insert t live) s' := by
  obtain ⟨p, s₁, hchoose, h₁, hp⟩ := choosePage_spec h hpe
  rcases hp with hp | ⟨-, he⟩
  · obtain ⟨t, s', htake, hfresh, hinv⟩ := (h₁.chosen hp).takeSlot
    refine ⟨t, s', ?_, hfresh, hinv⟩
    simp only [SlabAllocator.alloc, hchoose, if_neg (h₁.head_ne hp), bind, Except.bind]
    exact htake
  · obtain ⟨s₂, hok, h₂⟩ := h₁.emptyToPartial he
    obtain ⟨t, s', htake, hfresh, hinv⟩ := h₂.takeSlot
    refine ⟨t, s', ?_, hfresh, hinv⟩
    simp only [SlabAllocator.alloc, hchoose, if_pos he.symm, hok, bind, Except.bind]
    exact htake

end Alloc

/-! ## `free` -/

section Free

variable {T : AllocSize} {s s' : SlabAllocator} {live : Finset Slot} {p q : ℕ} {t : Slot}
  {lists : PageKind → List ℕ}

/-- The page of the slot is where `free` takes it to be: a page that becomes empty is the head of
the partial list, and does not have to be given back; another page is in the partial list
already. -/
def FreesHead (T : AllocSize) (t : Slot) (s : SlabAllocator) : Prop :=
  if (s.header t.page).numFreeAllocs + 1 = T.maxAllocsPerPage then
    s.partialPages = some t.page ∧ s.numEmptyPages < nFreePageThreshold
  else 0 < (s.header t.page).numFreeAllocs

instance : Decidable (FreesHead T t s) := by unfold FreesHead; infer_instance

lemma nextPage_putSlot : (s.putSlot t).nextPage = s.nextPage := by
  funext q
  rcases eq_or_ne q t.page with rfl | hq
  · simp [putSlot, setHeader, nextPage]
  · simp [putSlot, setHeader, nextPage, hq]

lemma head_putSlot : (s.putSlot t).head = s.head := by
  funext k
  cases k <;> rfl

lemma header_putSlot (hq : q ≠ t.page) : (s.putSlot t).header q = s.header q := by
  simp [putSlot, setHeader, hq]

lemma Slots.numFreeAllocs_putSlot (h : Slots T live s) (ht : t ∈ live) :
    ((s.putSlot t).header t.page).numFreeAllocs = (s.header t.page).numFreeAllocs + 1 ∧
      (s.header t.page).numFreeAllocs + 1 ≤ T.maxAllocsPerPage := by
  obtain ⟨l, hl⟩ := (h.put ht).free t.page (h.live t ht).1
  have hlen := hl.length
  have hle := hl.length_le
  obtain ⟨m, hm⟩ := h.free t.page (h.live t ht).1
  have hlen' := hm.length
  have hle' := hm.length_le
  have hmax := maxAllocsPerPage_lt (T := T)
  have hu : ((s.putSlot t).header t.page).numFreeAllocs =
      u32 ((s.header t.page).numFreeAllocs + 1) := by
    simp [putSlot, setHeader]
  rw [u32_of_lt (by omega)] at hu
  exact ⟨hu, by omega⟩

lemma Listed.putSlot {kinds : ℕ → PageKind} (h : Listed s kinds lists) :
    Listed (s.putSlot t) kinds lists :=
  h.congr nextPage_putSlot head_putSlot rfl

lemma Slots.kind_putSlot (h : Slots T live s) (ht : t ∈ live) :
    (s.putSlot t).kind T = Function.update (s.kind T) t.page
      (kindOf T ((s.header t.page).numFreeAllocs + 1)) := by
  funext q
  rcases eq_or_ne q t.page with rfl | hq
  · rw [Function.update_self, kind, (h.numFreeAllocs_putSlot ht).1]
  · rw [Function.update_of_ne hq, kind, header_putSlot hq, kind]

lemma Slots.free_eq (h : Slots T live s) (ht : t ∈ live) :
    s.free T t = if (s.header t.page).numFreeAllocs + 1 = T.maxAllocsPerPage then
      (s.putSlot t).partialToEmpty t.page >>= fun s =>
        if s.numEmptyPages > nFreePageThreshold then s.freeEmptyPage else .ok s
      else .ok (s.putSlot t) := by
  simp only [SlabAllocator.free, deref_some (h.live t ht).1, bind, Except.bind]
  rw [(h.numFreeAllocs_putSlot ht).1]

lemma Inv.free (h : Inv T live s) (ht : t ∈ live) (hsafe : FreesHead T t s) :
    ∃ s', s.free T t = .ok s' ∧ Inv T (live.erase t) s' := by
  obtain ⟨lists, hl, hlen⟩ := h.listed
  have hpage := (h.slots.live t ht).1
  have hkind := h.slots.kind_putSlot ht
  have hle := (h.slots.numFreeAllocs_putSlot ht).2
  rw [h.slots.free_eq ht]
  unfold FreesHead at hsafe
  split_ifs at hsafe ⊢ with hmax
  · have hhead : (s.putSlot t).partialPages = some t.page := hsafe.1
    obtain ⟨s', hok, hnext, hheads, hpages, hslot, hfreep, hnum, hcount⟩ :=
      partialToEmpty_ok hhead (show t.page ∈ (s.putSlot t).pages from hpage) t.page
    have hm : Moved t.page .inPartial .empty (s.putSlot t) s' :=
      ⟨hnext, hheads, hpages, hslot, hfreep, hnum⟩
    have hcount : s'.numEmptyPages = s.numEmptyPages + 1 := by
      rw [hcount]
      exact u32_of_lt (lt_of_le_of_lt hsafe.2 (by decide))
    obtain ⟨l, -, hmoved⟩ :=
      hl.putSlot.move (show (s.putSlot t).head .inPartial = some t.page from hhead) (by decide) hm
    rw [hmax, kindOf_eq_empty.mpr rfl, ← hm.kind] at hkind
    have hfew : s'.numEmptyPages ≤ nFreePageThreshold := hcount ▸ hsafe.2
    refine ⟨s', ?_, ⟨_, hkind ▸ hmoved, ?_⟩, hfew, (h.slots.put ht).move hm⟩
    · rw [hok]
      exact if_neg (not_lt.mpr hfew)
    · rw [hcount, hlen]
      simp
  · refine ⟨_, rfl, ⟨lists, ?_, hlen⟩, h.few, h.slots.put ht⟩
    have hsame : s.kind T t.page = kindOf T ((s.header t.page).numFreeAllocs + 1) := by
      rw [kindOf_eq_inPartial.mpr ⟨by omega, hmax⟩]
      exact kindOf_eq_inPartial.mpr ⟨hsafe, by omega⟩
    rw [← hsame, Function.update_eq_self] at hkind
    rw [hkind]
    exact hl.putSlot

lemma Inv.free_full (h : Inv T live s) (ht : t ∈ live)
    (hmax : (s.header t.page).numFreeAllocs + 1 ≠ T.maxAllocsPerPage)
    (hzero : (s.header t.page).numFreeAllocs = 0) : ¬ Consistent T (s.putSlot t) := by
  rintro ⟨⟨lists', hl', -⟩, -⟩
  obtain ⟨lists, hl, -⟩ := h.listed
  have hpage := (h.slots.live t ht).1
  have hkind : (s.putSlot t).kind T t.page = .inPartial := by
    rw [h.slots.kind_putSlot ht, Function.update_self]
    exact kindOf_eq_inPartial.mpr ⟨by omega, hmax⟩
  have hmem : t.page ∈ lists' .inPartial := (hl'.mem .inPartial t.page).mpr ⟨hpage, hkind⟩
  rw [hl.unique hl' nextPage_putSlot (by rw [head_putSlot])] at hmem
  have hpos := (kindOf_eq_inPartial.mp ((hl.mem .inPartial t.page).mp hmem).2).1
  omega

lemma Inv.free_not_head (h : Inv T live s) (ht : t ∈ live) (hq : s.partialPages = some q)
    (hne : q ≠ t.page) (hmax : (s.header t.page).numFreeAllocs + 1 = T.maxAllocsPerPage)
    (hnext : s'.nextPage = Function.update s.nextPage t.page s.emptyPages)
    (hhead : s'.partialPages = s.nextPage q) (hpages : q ∈ s'.pages)
    (hnum : ∀ r, (s'.header r).numFreeAllocs = ((s.putSlot t).header r).numFreeAllocs) :
    ¬ Consistent T s' := by
  rintro ⟨⟨lists', hl', -⟩, -⟩
  obtain ⟨lists, hl, -⟩ := h.listed
  have hpartial : Linked s.nextPage s.partialPages (lists .inPartial) := hl.linked .inPartial
  have hpartial' : Linked s'.nextPage s'.partialPages (lists' .inPartial) := hl'.linked .inPartial
  rw [hq] at hpartial
  rw [hhead, hnext] at hpartial'
  obtain ⟨l, hcons, hlinked⟩ := hpartial.eq_cons
  have hqkind : s.kind T q = .inPartial := ((hl.mem .inPartial q).mp (by simp [hcons])).2
  have hqmem : q ∈ lists' .inPartial := by
    refine (hl'.mem .inPartial q).mpr ⟨hpages, ?_⟩
    rw [kind, hnum, header_putSlot hne]
    exact hqkind
  by_cases hmem : t.page ∈ l
  · -- the chain leads through the page of the slot, which is not partial any more
    have hin : t.page ∈ lists' .inPartial :=
      hlinked.mem_of_changed hmem (fun b hb => Function.update_of_ne hb _ _) hpartial'
    have hkind := ((hl'.mem .inPartial t.page).mp hin).2
    rw [kind, hnum, (h.slots.numFreeAllocs_putSlot ht).1, hmax] at hkind
    exact (kindOf_eq_inPartial.mp hkind).2 rfl
  · rw [hpartial'.unique (hlinked.update hmem _)] at hqmem
    have hnodup := hl.nodup .inPartial
    rw [hcons, List.nodup_cons] at hnodup
    exact hnodup.1 hqmem

lemma Inv.free_given_back (h : Inv T live s)
    (hhalf : (s.header t.page).numFreeAllocs ≠ T.maxAllocsPerPage)
    (hnext : s'.nextPage = Function.update s.nextPage t.page s.emptyPages)
    (hhead : s'.emptyPages = s.emptyPages) (hcount : s'.numEmptyPages = s.numEmptyPages + 1) :
    ¬ Consistent T s' := by
  rintro ⟨⟨lists', hl', hlen'⟩, -⟩
  obtain ⟨lists, hl, hlen⟩ := h.listed
  have hempty : Linked s.nextPage s.emptyPages (lists .empty) := hl.linked .empty
  have hempty' : Linked s'.nextPage s'.emptyPages (lists' .empty) := hl'.linked .empty
  have hnotMem : t.page ∉ lists .empty := by
    intro hmem
    exact hhalf (kindOf_eq_empty.mp ((hl.mem .empty t.page).mp hmem).2)
  rw [hhead, hnext] at hempty'
  rw [hempty'.unique (hempty.update hnotMem _)] at hlen'
  omega

lemma Inv.free_wrong (h : Inv T live s) (ht : t ∈ live) (hsafe : ¬ FreesHead T t s)
    (hok : s.free T t = .ok s') : ¬ Consistent T s' := by
  have hle := (h.slots.numFreeAllocs_putSlot ht).2
  rw [h.slots.free_eq ht] at hok
  unfold FreesHead at hsafe
  split_ifs at hsafe hok with hmax
  · rcases hq : s.partialPages with _ | q
    · rw [partialToEmpty, show (s.putSlot t).partialPages = none from hq] at hok
      cases hok
    obtain ⟨lists, hl, hlen⟩ := h.listed
    have hmem : q ∈ s.pages := by
      have hpartial : Linked s.nextPage s.partialPages (lists .inPartial) := hl.linked .inPartial
      rw [hq] at hpartial
      obtain ⟨l, hcons, -⟩ := hpartial.eq_cons
      exact ((hl.mem .inPartial q).mp (by simp [hcons])).1
    obtain ⟨s₁, hok₁, hnext, hheads, hpages, -, -, hnum, hcount⟩ :=
      partialToEmpty_ok (s := s.putSlot t) hq hmem t.page
    rw [nextPage_putSlot] at hnext
    have hempty₁ : s₁.emptyPages = some t.page := congrFun hheads .empty
    have hpartial₁ : s₁.partialPages = s.nextPage q := by
      rw [← nextPage_putSlot (t := t)]
      exact congrFun hheads .inPartial
    have hfew := h.few
    have hcount : s₁.numEmptyPages = s.numEmptyPages + 1 := by
      rw [hcount]
      exact u32_of_lt (lt_of_le_of_lt (Nat.succ_le_succ hfew) (by decide))
    rw [hok₁] at hok
    change (if s₁.numEmptyPages > nFreePageThreshold then s₁.freeEmptyPage else .ok s₁) = .ok s'
      at hok
    by_cases hover : s₁.numEmptyPages > nFreePageThreshold
    · -- the page goes back to the kernel
      have hpage : t.page ∈ s₁.pages := hpages ▸ (h.slots.live t ht).1
      rw [if_pos hover, freeEmptyPage, hempty₁, deref_some hpage] at hok
      obtain rfl : _ = s' := Except.ok.inj hok
      by_cases hne : q = t.page
      · refine h.free_given_back (by omega) hnext ?_ hcount
        show s₁.nextPage t.page = s.emptyPages
        rw [hnext, Function.update_self]
        rfl
      · refine h.free_not_head ht hq hne hmax hnext hpartial₁ ?_ hnum
        exact Finset.mem_erase.mpr ⟨hne, hpages ▸ hmem⟩
    · rw [if_neg hover] at hok
      obtain rfl : s₁ = s' := Except.ok.inj hok
      have hne : q ≠ t.page := by
        intro heq
        exact hsafe ⟨heq ▸ hq, by omega⟩
      exact h.free_not_head ht hq hne hmax hnext hpartial₁ (hpages ▸ hmem) hnum
  · obtain rfl : s.putSlot t = s' := Except.ok.inj hok
    exact h.free_full ht hmax (by omega)

end Free

/-! ## Runs -/

/-- A call of the allocator.  `pe` is the page `get_free_pe` finds, should one be needed. -/
inductive SlabOp
  | alloc (pe : ℕ)
  | free (t : Slot)
  deriving DecidableEq, Repr

/-- An allocator and the slots its users hold. -/
structure SlabUse where
  slab : SlabAllocator := {}
  live : Finset Slot := ∅

namespace SlabOp

variable (T : AllocSize)

def step (u : SlabUse) : SlabOp → Except Fault SlabUse
  | .alloc pe => (u.slab.alloc T pe).map fun r => ⟨r.2, insert r.1 u.live⟩
  | .free t => (u.slab.free T t).map fun s => ⟨s, u.live.erase t⟩

/-- `get_free_pe` finds a page that is not in use, and only slots in use are freed. -/
def Allowed (u : SlabUse) : SlabOp → Prop
  | .alloc pe => pe ∉ u.slab.pages
  | .free t => t ∈ u.live

/-- The slot an allocation returns is not in use. -/
def ReturnsFresh (u : SlabUse) : SlabOp → Prop
  | .alloc pe => ∀ t s, u.slab.alloc T pe = .ok (t, s) → t ∉ u.live
  | .free _ => True

/-- A page is freed only where `free` looks for it. -/
def FreesHead (u : SlabUse) : SlabOp → Prop
  | .alloc _ => True
  | .free t => SlabAllocator.FreesHead T t u.slab

instance (u : SlabUse) : (op : SlabOp) → Decidable (op.Allowed u)
  | .alloc _ => inferInstanceAs (Decidable (_ ∉ _))
  | .free _ => inferInstanceAs (Decidable (_ ∈ _))

instance (u : SlabUse) : (op : SlabOp) → Decidable (op.FreesHead T u)
  | .alloc _ => inferInstanceAs (Decidable True)
  | .free t => inferInstanceAs (Decidable (SlabAllocator.FreesHead T t u.slab))

end SlabOp

/-- Every call of a run returns, allocations return slots that are not in use, and the lists and
counters are right in every state of the run. -/
def RunsRight (T : AllocSize) : List SlabOp → SlabUse → Prop
  | [], u => Consistent T u.slab
  | op :: ops, u => Consistent T u.slab ∧ op.ReturnsFresh T u ∧
      ∃ u', op.step T u = .ok u' ∧ RunsRight T ops u'

section Runs

variable {T : AllocSize} {u u' : SlabUse} {op : SlabOp} {ops : List SlabOp}

lemma Inv.consistent {live : Finset Slot} {s : SlabAllocator} (h : Inv T live s) :
    Consistent T s := by
  refine ⟨h.listed, ?_⟩
  intro p hp
  obtain ⟨l, hl⟩ := h.slots.free p hp
  exact ⟨hl.length ▸ hl.length_le, l, hl.linked, hl.length⟩

lemma inv_new : Inv T ∅ {} := by
  refine ⟨⟨fun _ => [], ⟨?_, ?_, ?_⟩, rfl⟩, Nat.zero_le _, ?_, ?_⟩
  · intro k
    cases k <;> rfl
  · intro k
    exact List.nodup_nil
  · intro k p
    simp
  · intro p hp
    simp at hp
  · intro t ht
    simp at ht

lemma Inv.step (h : Inv T u.live u.slab) (hallowed : op.Allowed u) (hsafe : op.FreesHead T u) :
    op.ReturnsFresh T u ∧ ∃ u', op.step T u = .ok u' ∧ Inv T u'.live u'.slab := by
  cases op with
  | alloc pe =>
    obtain ⟨t, s', hok, hfresh, hinv⟩ := h.alloc hallowed
    refine ⟨?_, ⟨s', insert t u.live⟩, by rw [SlabOp.step, hok]; rfl, hinv⟩
    intro t' s'' hok'
    obtain ⟨rfl, -⟩ : t = t' ∧ s' = s'' := by simpa [hok] using hok'
    exact hfresh
  | free t =>
    obtain ⟨s', hok, hinv⟩ := h.free hallowed hsafe
    exact ⟨trivial, ⟨s', u.live.erase t⟩, by rw [SlabOp.step, hok]; rfl, hinv⟩

lemma Inv.step_wrong (h : Inv T u.live u.slab) (hallowed : op.Allowed u)
    (hsafe : ¬ op.FreesHead T u) (hok : op.step T u = .ok u') : ¬ Consistent T u'.slab := by
  cases op with
  | alloc pe => exact absurd trivial hsafe
  | free t =>
    obtain ⟨s', hfree, rfl⟩ := map_eq_ok.mp hok
    exact h.free_wrong hallowed hsafe hfree

lemma RunsRight.consistent (h : RunsRight T ops u) : Consistent T u.slab := by
  cases ops with
  | nil => exact h
  | cons op ops => exact h.1

lemma Inv.runsRight_iff : ∀ {ops : List SlabOp} {u : SlabUse}, Inv T u.live u.slab →
    EachCall (SlabOp.step T) SlabOp.Allowed ops u →
    (RunsRight T ops u ↔ EachCall (SlabOp.step T) (SlabOp.FreesHead T) ops u)
  | [], u, h, _ => by
      constructor
      · intro _
        trivial
      · intro _
        exact h.consistent
  | op :: ops, u, h, hallowed => by
      constructor
      · rintro ⟨-, -, u', hok, hright⟩
        by_cases hsafe : op.FreesHead T u
        · obtain ⟨-, u'', hok', hinv⟩ := h.step hallowed.1 hsafe
          obtain rfl : u'' = u' := by simpa [hok'] using hok
          refine ⟨hsafe, ?_⟩
          have hrest := hallowed.2
          rw [hok] at hrest ⊢
          exact (hinv.runsRight_iff hrest).mp hright
        · exact absurd hright.consistent (h.step_wrong hallowed.1 hsafe hok)
      · rintro ⟨hsafe, hrest⟩
        obtain ⟨hfresh, u', hok, hinv⟩ := h.step hallowed.1 hsafe
        have hallowed' := hallowed.2
        rw [hok] at hrest hallowed'
        exact ⟨h.consistent, hfresh, u', hok, (hinv.runsRight_iff hallowed').mpr hrest⟩

/-- In a run of `alloc` and `free`, from a new allocator, every call does what it should iff every
`free` is of a slot whose page is where `free` looks for it. -/
theorem slab_right_iff (T : AllocSize) (ops : List SlabOp)
    (h : EachCall (SlabOp.step T) SlabOp.Allowed ops {}) :
    RunsRight T ops {} ↔ EachCall (SlabOp.step T) (SlabOp.FreesHead T) ops {} :=
  inv_new.runsRight_iff h

/-- `sizeof(alloc)` for the texts of at most 128 bytes (`SlabAlloc.h`): 30 of them to a page. -/
def text128 : AllocSize := ⟨132, by decide, by decide⟩

/-- The run that takes two slots and gives the first one back. -/
theorem slab_right_two :
    EachCall (SlabOp.step text128) SlabOp.Allowed [.alloc 0, .alloc 1, .free ⟨0, 0⟩] {} ∧
      RunsRight text128 [.alloc 0, .alloc 1, .free ⟨0, 0⟩] {} :=
  have hallowed :
      EachCall (SlabOp.step text128) SlabOp.Allowed [.alloc 0, .alloc 1, .free ⟨0, 0⟩] {} := by
    decide
  ⟨hallowed, (slab_right_iff text128 _ hallowed).mpr (by decide)⟩

/-- The run that takes the 30 slots of a page and gives one of them back: the page stays in the full
list. -/
theorem slab_full_page_stays :
    EachCall (SlabOp.step text128) SlabOp.Allowed ((List.range 30).map .alloc ++ [.free ⟨0, 0⟩]) {} ∧
      ¬ RunsRight text128 ((List.range 30).map .alloc ++ [.free ⟨0, 0⟩]) {} := by
  have hallowed :
      EachCall (SlabOp.step text128) SlabOp.Allowed ((List.range 30).map .alloc ++ [.free ⟨0, 0⟩]) {} := by
    decide +kernel
  refine ⟨hallowed, ?_⟩
  rw [inv_new.runsRight_iff hallowed]
  decide +kernel

end Runs

end SlabAllocator

end BrebOS

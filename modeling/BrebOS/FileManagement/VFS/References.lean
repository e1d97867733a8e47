import BrebOS.FileManagement.VFS

/-!
# Dentries that are referred to

Eviction takes a dentry only when its slot is the last that refers to it.  So what is in the cache
exists, and so do the parents of what exists, which are in the cache as well.
-/

namespace BrebOS

namespace Vfs

variable {D : Type} {s s' : Vfs D} {d x i p : ℕ} {locals : List ℕ}

/-- A dentry with a slot. -/
def Cached (s : Vfs D) (d : ℕ) : Prop := ∃ i < maxDentries, s.slots i = some d

/-- The objects and the slots. -/
structure Wf (s : Vfs D) : Prop where
  below : ∀ d o, s.dents d = some o → d < s.next ∧ o.inode < s.next
  parent : ∀ d o p, s.dents d = some o → o.parent = some p → s.Cached p
  slot : ∀ i d, s.slots i = some d → i < maxDentries ∧ (s.dents d).isSome
  cursor : s.lowestFreeDentry ≤ maxDentries ∧
    (s.lowestFreeDentry < maxDentries → s.slots s.lowestFreeDentry = none)

/-- Slots and dentries go, but not those that variables refer to. -/
structure Evicts (locals : List ℕ) (s s' : Vfs D) : Prop where
  inodes : s'.inodes = s.inodes
  next : s'.next = s.next
  held : s'.held = s.held
  disk : s'.disk = s.disk
  pinned : ∀ i < 2, s'.slots i = s.slots i
  slots : ∀ i x, s'.slots i = some x → s.slots i = some x
  dents : ∀ x o, s'.dents x = some o → s.dents x = some o
  kept : ∀ x ∈ locals, s'.dents x = s.dents x ∧ ∀ i, s.slots i = some x → s'.slots i = some x

lemma Evicts.refl (locals : List ℕ) (s : Vfs D) : Evicts locals s s :=
  ⟨rfl, rfl, rfl, rfl, fun _ _ => rfl, fun _ _ h => h, fun _ _ h => h,
    fun _ _ => ⟨rfl, fun _ h => h⟩⟩

lemma Evicts.trans {s'' : Vfs D} (h : Evicts locals s s') (h' : Evicts locals s' s'') :
    Evicts locals s s'' := by
  refine ⟨h'.inodes.trans h.inodes, h'.next.trans h.next, h'.held.trans h.held,
    h'.disk.trans h.disk, fun i hi => (h'.pinned i hi).trans (h.pinned i hi),
    fun i x hx => h.slots i x (h'.slots i x hx),
    fun x o hx => h.dents x o (h'.dents x o hx), ?_⟩
  intro x hx
  obtain ⟨hd, hs⟩ := h.kept x hx
  obtain ⟨hd', hs'⟩ := h'.kept x hx
  exact ⟨hd'.trans hd, fun i hi => hs' i (hs i hi)⟩

lemma Cached.isSome (h : s.Wf) (hd : s.Cached d) : (s.dents d).isSome := by
  obtain ⟨i, -, hi⟩ := hd
  exact (h.slot i d hi).2

/-! ## Counting references -/

lemma useCount_eq_zero (h : s.useCount locals d = 0) :
    (∀ i < maxDentries, s.slots i ≠ some d) ∧ (∀ x < s.next, s.parentOf x ≠ some d) ∧
      d ∉ s.held ∧ d ∉ locals := by
  simp only [useCount, Nat.add_eq_zero_iff, Finset.card_eq_zero, Finset.filter_eq_empty_iff,
    Finset.mem_range, List.count_eq_zero] at h
  obtain ⟨⟨⟨hslots, hparents⟩, hheld⟩, hlocals⟩ := h
  exact ⟨fun i hi => hslots hi, fun x hx => hparents hx, hheld, hlocals⟩

lemma useCount_eq_one (h : s.useCount locals d = 1) (hi : i < maxDentries)
    (hslot : s.slots i = some d) : (∀ j < maxDentries, s.slots j = some d → j = i) ∧
      (∀ x < s.next, s.parentOf x ≠ some d) ∧ d ∉ s.held ∧ d ∉ locals := by
  have hmem : i ∈ {j ∈ Finset.range maxDentries | s.slots j = some d} := by
    simp [hi, hslot]
  have hpos : 0 < {j ∈ Finset.range maxDentries | s.slots j = some d}.card :=
    Finset.card_pos.mpr ⟨i, hmem⟩
  unfold useCount at h
  refine ⟨?_, ?_, ?_, ?_⟩
  · intro j hj hjd
    have hle : {j ∈ Finset.range maxDentries | s.slots j = some d}.card ≤ 1 := by omega
    exact Finset.card_le_one.mp hle j (by simp [hj, hjd]) i hmem
  · intro x hx hp
    have : 0 < {y ∈ Finset.range s.next | s.parentOf y = some d}.card :=
      Finset.card_pos.mpr ⟨x, by simp [hx, hp]⟩
    omega
  · intro hmem
    have := List.count_pos_iff.mpr hmem
    omega
  · intro hmem
    have := List.count_pos_iff.mpr hmem
    omega

/-! ## Eviction -/

lemma Wf.remove (h : s.Wf) (hzero : s.useCount locals d = 0) :
    Wf { s with dents := Function.update s.dents d none } ∧
      Evicts locals s { s with dents := Function.update s.dents d none } := by
  obtain ⟨hslots, hparents, -, hlocals⟩ := useCount_eq_zero hzero
  have hsub : ∀ x o, Function.update s.dents d none x = some o → x ≠ d ∧ s.dents x = some o := by
    intro x o hx
    rcases eq_or_ne x d with rfl | hne
    · simp at hx
    · exact ⟨hne, by rwa [Function.update_of_ne hne] at hx⟩
  refine ⟨⟨fun x o hx => h.below x o (hsub x o hx).2, fun x o p hx => h.parent x o p (hsub x o hx).2,
    ?_, h.cursor⟩, ⟨rfl, rfl, rfl, rfl, fun _ _ => rfl, fun _ _ hx => hx,
    fun x o hx => (hsub x o hx).2, ?_⟩⟩
  · intro i x hx
    have hx : s.slots i = some x := hx
    obtain ⟨hi, hsome⟩ := h.slot i x hx
    have hne : x ≠ d := by
      rintro rfl
      exact hslots i hi hx
    refine ⟨hi, ?_⟩
    show (Function.update s.dents d none x).isSome
    rw [Function.update_of_ne hne]
    exact hsome
  · intro x hx
    have hne : x ≠ d := by
      rintro rfl
      exact hlocals hx
    exact ⟨Function.update_of_ne hne _ _, fun _ hi => hi⟩

lemma Wf.collect (locals : List ℕ) : ∀ (fuel d : ℕ) {s : Vfs D}, s.Wf →
    (s.collect locals fuel d).Wf ∧ Evicts locals s (s.collect locals fuel d)
  | 0, _, s, h => ⟨h, .refl _ s⟩
  | fuel + 1, d, s, h => by
      unfold Vfs.collect
      rcases hd : s.dents d with _ | o
      · exact ⟨h, .refl _ s⟩
      simp only
      split_ifs with hzero
      · obtain ⟨hwf, he⟩ := h.remove hzero
        rcases hp : o.parent with _ | p
        · exact ⟨hwf, he⟩
        · obtain ⟨hwf', he'⟩ := collect locals fuel p hwf
          exact ⟨hwf', he.trans he'⟩
      · exact ⟨h, .refl _ s⟩

lemma collect_slots : ∀ {fuel d : ℕ} {s : Vfs D}, (s.collect locals fuel d).slots = s.slots ∧
    (s.collect locals fuel d).lowestFreeDentry = s.lowestFreeDentry
  | 0, _, _ => ⟨rfl, rfl⟩
  | fuel + 1, d, s => by
      unfold Vfs.collect
      rcases s.dents d with _ | o
      · exact ⟨rfl, rfl⟩
      simp only
      split_ifs
      · rcases o.parent with _ | p
        · exact ⟨rfl, rfl⟩
        · exact collect_slots
      · exact ⟨rfl, rfl⟩

lemma Wf.release (h : s.Wf) (locals : List ℕ) (d : ℕ) :
    (s.release locals d).Wf ∧ Evicts locals s (s.release locals d) := h.collect locals s.next d

lemma Wf.setCursor (h : s.Wf) (hi : x ≤ maxDentries) (hfree : x < maxDentries → s.slots x = none) :
    Wf { s with lowestFreeDentry := x } :=
  ⟨h.below, h.parent, h.slot, hi, hfree⟩

lemma Wf.freeSlot (h : s.Wf) (hi : i < maxDentries) (hpin : 2 ≤ i) :
    (s.freeSlot locals i).Wf ∧ Evicts locals s (s.freeSlot locals i) := by
  unfold Vfs.freeSlot
  rcases hd : s.slots i with _ | d
  · refine ⟨h.setCursor (le_trans (min_le_left _ _) (le_of_lt hi)) ?_,
      ⟨rfl, rfl, rfl, rfl, fun _ _ => rfl, fun _ _ hx => hx, fun _ _ hx => hx,
        fun _ _ => ⟨rfl, fun _ hx => hx⟩⟩⟩
    intro hlt
    rcases min_choice i s.lowestFreeDentry with hmin | hmin
    · rw [hmin]
      exact hd
    · rw [hmin] at hlt ⊢
      exact h.cursor.2 hlt
  simp only
  split_ifs with hone
  · obtain ⟨honly, hparents, -, hlocals⟩ := useCount_eq_one hone hi hd
    set s₁ : Vfs D := { s with slots := Function.update s.slots i none } with hs₁
    have hslots₁ : ∀ j x, s₁.slots j = some x → j ≠ i ∧ s.slots j = some x := by
      intro j x hx
      rcases eq_or_ne j i with rfl | hne
      · simp [hs₁] at hx
      · exact ⟨hne, by simpa [hs₁, hne] using hx⟩
    have hwf₁ : s₁.Wf := by
      refine ⟨h.below, ?_, fun j x hx => h.slot j x (hslots₁ j x hx).2, h.cursor.1, ?_⟩
      · intro x o p hx hp
        have hparent : s.parentOf x = some p := by
          rw [parentOf, show s.dents x = some o from hx]
          exact hp
        obtain ⟨j, hj, hjp⟩ := h.parent x o p hx hp
        have hne : j ≠ i := by
          rintro rfl
          obtain rfl : d = p := by simpa [hd] using hjp
          exact hparents x (h.below x o hx).1 hparent
        exact ⟨j, hj, by simpa [hs₁, hne] using hjp⟩
      · intro hlt
        have := h.cursor.2 hlt
        simp only [hs₁, Function.update_apply]
        split_ifs
        · rfl
        · exact this
    have he₁ : Evicts locals s s₁ := by
      refine ⟨rfl, rfl, rfl, rfl, fun j hj => Function.update_of_ne (by omega) _ _,
        fun j x hx => (hslots₁ j x hx).2, fun _ _ hx => hx, ?_⟩
      intro x hx
      refine ⟨rfl, ?_⟩
      intro j hj
      have hne : j ≠ i := by
        rintro rfl
        have hxd : d = x := by simpa [hd] using hj
        exact hlocals (hxd ▸ hx)
      simpa [hs₁, hne] using hj
    obtain ⟨hwf₂, he₂⟩ := hwf₁.release locals d
    obtain ⟨hslots₂, hcursor₂⟩ : (s₁.release locals d).slots = s₁.slots ∧
        (s₁.release locals d).lowestFreeDentry = s₁.lowestFreeDentry := collect_slots
    refine ⟨hwf₂.setCursor (le_trans (min_le_right _ _) (le_of_lt hi)) ?_, ?_⟩
    · intro hlt
      rcases min_choice (s₁.release locals d).lowestFreeDentry i with hmin | hmin
      · rw [hmin] at hlt ⊢
        exact hwf₂.cursor.2 hlt
      · rw [hmin, hslots₂]
        simp [hs₁]
    · have he := he₁.trans he₂
      exact ⟨he.inodes, he.next, he.held, he.disk, he.pinned, he.slots, he.dents, he.kept⟩
  · exact ⟨h, .refl _ s⟩

lemma Wf.freeSlots : ∀ {l : List ℕ} {s : Vfs D}, s.Wf → (∀ i ∈ l, i < maxDentries ∧ 2 ≤ i) →
    (l.foldl (Vfs.freeSlot locals) s).Wf ∧ Evicts locals s (l.foldl (Vfs.freeSlot locals) s)
  | [], s, h, _ => ⟨h, .refl _ s⟩
  | i :: l, s, h, hl => by
      obtain ⟨hlt, hpin⟩ := hl i List.mem_cons_self
      obtain ⟨hwf, he⟩ := h.freeSlot (s := s) hlt hpin
      obtain ⟨hwf', he'⟩ := hwf.freeSlots fun j hj => hl j (List.mem_cons_of_mem _ hj)
      exact ⟨hwf', he.trans he'⟩

lemma Wf.freeUnused (h : s.Wf) : (s.freeUnusedDentryCacheEntries locals).Wf ∧
    Evicts locals s (s.freeUnusedDentryCacheEntries locals) := by
  refine h.freeSlots ?_
  intro i hi
  rw [List.mem_range'_1] at hi
  have : (2 : ℕ) ≤ maxDentries := by decide
  omega

/-! ## New dentries -/

/-- A dentry with a new slot, after an eviction. -/
structure Slotted (d i : ℕ) (s s' : Vfs D) : Prop where
  inodes : s'.inodes = s.inodes
  next : s'.next = s.next
  held : s'.held = s.held
  disk : s'.disk = s.disk
  dents : s'.dents = s.dents
  lt : i < maxDentries
  free : s.slots i = none
  slots : s'.slots = Function.update s.slots i (some d)

lemma Wf.cacheDentry (h : s.Wf) (locals : List ℕ) (hd : (s.dents d).isSome) : ∃ s₁, s₁.Wf ∧
    Evicts (d :: locals) s s₁ ∧
    ((s.cacheDentry locals d = (false, s₁) ∧ s.lowestFreeDentry = maxDentries) ∨
      ∃ i s', s.cacheDentry locals d = (true, s') ∧ s'.Wf ∧ Slotted d i s₁ s') := by
  set s₁ : Vfs D := if s.lowestFreeDentry = maxDentries then
    s.freeUnusedDentryCacheEntries (d :: locals) else s with hs₁
  have hfreed : s₁.Wf ∧ Evicts (d :: locals) s s₁ := by
    rw [hs₁]
    split_ifs
    · exact h.freeUnused
    · exact ⟨h, .refl _ s⟩
  obtain ⟨hwf, he⟩ := hfreed
  refine ⟨s₁, hwf, he, ?_⟩
  have hcache : s.cacheDentry locals d = if s₁.lowestFreeDentry = maxDentries then (false, s₁) else
      (true, { s₁ with
        slots := Function.update s₁.slots s₁.lowestFreeDentry (some d)
        lowestFreeDentry := skipWhile
          (fun j => (Function.update s₁.slots s₁.lowestFreeDentry (some d) j).isSome)
          (maxDentries - (s₁.lowestFreeDentry + 1)) (s₁.lowestFreeDentry + 1) }) := rfl
  by_cases hfull : s₁.lowestFreeDentry = maxDentries
  · left
    rw [hcache, if_pos hfull]
    refine ⟨rfl, ?_⟩
    by_contra hne
    rw [hs₁, if_neg hne] at hfull
    exact hne hfull
  · right
    have hlt : s₁.lowestFreeDentry < maxDentries := lt_of_le_of_ne hwf.cursor.1 hfull
    rw [if_neg hfull] at hcache
    refine ⟨s₁.lowestFreeDentry, _, hcache, ?_,
      ⟨rfl, rfl, rfl, rfl, rfl, hlt, hwf.cursor.2 hlt, rfl⟩⟩
    obtain ⟨hge, hle, -, hfree⟩ := skipWhile_spec
      (fun j => (Function.update s₁.slots s₁.lowestFreeDentry (some d) j).isSome)
      (maxDentries - (s₁.lowestFreeDentry + 1)) (s₁.lowestFreeDentry + 1)
    refine ⟨hwf.below, ?_, ?_, ?_, ?_⟩
    · intro x o p hx hp
      obtain ⟨j, hj, hjp⟩ := hwf.parent x o p hx hp
      have hne : j ≠ s₁.lowestFreeDentry := by
        rintro rfl
        rw [hwf.cursor.2 hlt] at hjp
        cases hjp
      exact ⟨j, hj, (Function.update_of_ne hne _ _).trans hjp⟩
    · intro j x hx
      have hx : Function.update s₁.slots s₁.lowestFreeDentry (some d) j = some x := hx
      rcases eq_or_ne j s₁.lowestFreeDentry with rfl | hne
      · obtain rfl : d = x := by simpa using hx
        refine ⟨hlt, ?_⟩
        show (s₁.dents d).isSome
        rw [(he.kept d (by simp)).1]
        exact hd
      · rw [Function.update_of_ne hne] at hx
        exact hwf.slot j x hx
    · show skipWhile _ _ _ ≤ _
      omega
    · intro hlt'
      have hlt' : skipWhile (fun j => (Function.update s₁.slots s₁.lowestFreeDentry (some d) j).isSome)
        (maxDentries - (s₁.lowestFreeDentry + 1)) (s₁.lowestFreeDentry + 1) < maxDentries := hlt'
      simpa using hfree (by omega)

lemma Wf.newDentry (h : s.Wf) (hp : s.Cached p) (fs : ℕ) (name : Name) (e : EntryData) :
    (s.newDentry fs p name e).2.Wf := by
  refine ⟨?_, ?_, ?_, h.cursor⟩
  · intro x o hx
    have hx : Function.update s.dents s.next (some { inode := s.next, parent := some p, name }) x =
      some o := hx
    show x < s.next + 1 ∧ o.inode < s.next + 1
    rcases eq_or_ne x s.next with rfl | hne
    · rw [Function.update_self, Option.some.injEq] at hx
      subst hx
      exact ⟨Nat.lt_succ_self _, Nat.lt_succ_self _⟩
    · rw [Function.update_of_ne hne] at hx
      have := h.below x o hx
      omega
  · intro x o q hx hq
    have hx : Function.update s.dents s.next (some { inode := s.next, parent := some p, name }) x =
      some o := hx
    rcases eq_or_ne x s.next with rfl | hne
    · rw [Function.update_self, Option.some.injEq] at hx
      subst hx
      obtain rfl : p = q := by simpa using hq
      exact hp
    · rw [Function.update_of_ne hne] at hx
      exact h.parent x o q hx hq
  · intro i x hx
    obtain ⟨hi, hsome⟩ := h.slot i x hx
    refine ⟨hi, ?_⟩
    show (Function.update s.dents s.next _ x).isSome
    rw [Function.update_apply]
    split_ifs
    · rfl
    · exact hsome

end Vfs

end BrebOS

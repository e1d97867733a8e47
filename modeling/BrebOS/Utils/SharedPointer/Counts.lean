import BrebOS.Lib.Loop
import BrebOS.Utils.SharedPointer

/-!
# Counts and pointers

The counter of an object is the number of `SharedPointer`s to it, and an object that was given to a
`SharedPointer` exists as long as there is one (`Right`).  `operator=` and `reset` release what they had
before they acquire what they get.  That goes wrong in one way: what is deleted by the release is looked
at afterwards.  `Careful` rules this out: the last pointer to an object is not assigned to itself, and
neither the target nor the source lies in an object that goes with the release (`Doomed`).

A release is followed through its nested deletions with the set `L` of the `SharedPointer`s that still
count (`Mid`): those that are left, without the ones that are being destroyed.
-/

namespace BrebOS.PtrHeap

/-- The `SharedPointer`s to an object, among some. -/
def holders (s : PtrHeap) (L : Finset PtrPlace) (o : ℕ) : Finset PtrPlace :=
  L.filter fun p => (s.pointer p).data = some o

/-- **The counts are right**: the counter of an object is the number of `SharedPointer`s to it, and an
object that was given to one exists as long as there is one. -/
structure Right (s : PtrHeap) : Prop where
  counted : ∀ p ∈ s.places, ∀ o, (s.pointer p).data = some o →
    ∃ k, (s.pointer p).count = some k ∧ s.count k = some ((s.holders s.places o).card : ℤ)
  alive : ∀ o ∈ s.given, o ∈ s.objects ↔ (s.holders s.places o).Nonempty

/-- The object is deleted when the `SharedPointer` at `c` is released: every other pointer to it is a
member of an object that is deleted. -/
inductive Doomed (s : PtrHeap) (c : PtrPlace) : ℕ → Prop
  | mk (o : ℕ) : (s.holders s.places o).Nonempty →
      (∀ p ∈ s.holders s.places o, p ≠ c → ∃ q i, p = .field q i) →
      (∀ q i, .field q i ∈ s.holders s.places o → .field q i ≠ c → Doomed s c q) → Doomed s c o

/-- The place goes when the `SharedPointer` at `c` is released. -/
def GoesWith (s : PtrHeap) (c p : PtrPlace) : Prop := ∃ o i, p = .field o i ∧ s.Doomed c o

/-- The condition: nothing that is deleted is needed afterwards. -/
def Careful (s : PtrHeap) : PtrOp → Prop
  | .assign c other =>
      (c = other → ∀ o, (s.pointer c).data = some o → ¬ s.Doomed c o) ∧
        ¬ s.GoesWith c other ∧ ¬ s.GoesWith c c
  | .moveAssign c other => c ≠ other → ¬ s.GoesWith c other ∧ ¬ s.GoesWith c c
  | .reset c p => p ≠ (s.pointer c).data → ¬ s.GoesWith c c
  | _ => True

/-! ## The invariant -/

/-- Counters and objects belong together, one to one. -/
structure Linked (s : PtrHeap) (P : Finset PtrPlace) : Prop where
  none_iff : ∀ p ∈ P, (s.pointer p).data = none ↔ (s.pointer p).count = none
  same : ∀ p ∈ P, ∀ q ∈ P, (s.pointer p).data = (s.pointer q).data ↔
    (s.pointer p).count = (s.pointer q).count
  fresh : ∀ p ∈ P, ∀ k, (s.pointer p).count = some k → k < s.next
  given : ∀ p ∈ P, ∀ o, (s.pointer p).data = some o → o ∈ s.given

/-- The counters count the pointers in `L`, and what is given and exists has one there. -/
structure Counted (s : PtrHeap) (L : Finset PtrPlace) : Prop where
  live : ∀ p ∈ L, ∀ o, (s.pointer p).data = some o → o ∈ s.objects ∧
    ∃ k, (s.pointer p).count = some k ∧ s.count k = some ((s.holders L o).card : ℤ)
  owned : ∀ o ∈ s.objects, o ∈ s.given → (s.holders L o).Nonempty

/-- What exists was made, and members exist in objects only. -/
structure Made (s : PtrHeap) : Prop where
  inside : ∀ o i, .field o i ∈ s.places → o ∈ s.objects ∧ i < s.members o
  objects : s.objects ⊆ s.born
  given : s.given ⊆ s.born

/-- The invariant between two operations, but for what the `SharedPointer` at `c` says. -/
structure InvBut (s : PtrHeap) (c : PtrPlace) : Prop where
  linked : s.Linked (s.places.erase c)
  counted : s.Counted (s.places.erase c)
  made : s.Made

structure Inv (s : PtrHeap) : Prop where
  linked : s.Linked s.places
  counted : s.Counted s.places
  made : s.Made

section Release

variable {h s s' : PtrHeap} {c p q x : PtrPlace} {o k : ℕ} {L L' P : Finset PtrPlace}

@[simp] lemma mem_holders : p ∈ s.holders L o ↔ p ∈ L ∧ (s.pointer p).data = some o := Finset.mem_filter

/-- The place is in an object that exists in `s` and not in `s'`. -/
def Lost (s s' : PtrHeap) (p : PtrPlace) : Prop := ∃ o i, p = .field o i ∧ o ∈ s.objects ∧ o ∉ s'.objects

/-- The state in the middle of the release of the pointer at `c`, from the state `h`. -/
structure Mid (h : PtrHeap) (c : PtrPlace) (s : PtrHeap) (L : Finset PtrPlace) : Prop where
  frame : s = { h with places := s.places, count := s.count, objects := s.objects }
  sub : L ⊆ s.places
  places : s.places ⊆ h.places
  objects : s.objects ⊆ h.objects
  gone : ∀ p ∈ h.places, p ∉ L → p = c ∨ Lost h s p
  doomed : ∀ o ∈ h.objects, o ∉ s.objects → h.Doomed c o
  counted : s.Counted L

lemma Mid.pointer (hm : Mid h c s L) : s.pointer = h.pointer := by rw [hm.frame]
lemma Mid.members (hm : Mid h c s L) : s.members = h.members := by rw [hm.frame]
/-- What the release of the pointers at `X` has done, after which those at `Y` do not exist any more. -/
structure Released (h : PtrHeap) (c : PtrPlace) (X Y : PtrPlace → Prop) (s s' : PtrHeap)
    (L L' : Finset PtrPlace) : Prop where
  mid : Mid h c s' L'
  objects : s'.objects ⊆ s.objects
  places : ∀ p, p ∈ s'.places ↔ p ∈ s.places ∧ ¬ Y p ∧ ¬ Lost s s' p
  left : ∀ p, p ∈ L' ↔ p ∈ L ∧ ¬ X p ∧ ¬ Lost s s' p
  untouched : ∀ k, (∀ p ∈ L, (h.pointer p).count ≠ some k) → s'.count k = s.count k

lemma lost_self : ¬ Lost s s p := by
  rintro ⟨o, i, -, ho, hno⟩
  exact hno ho

lemma lost_trans {s₁ : PtrHeap} (h₁ : s₁.objects ⊆ s.objects) (h₂ : s'.objects ⊆ s₁.objects) :
    Lost s s' p ↔ Lost s s₁ p ∨ Lost s₁ s' p := by
  constructor
  · rintro ⟨o, i, rfl, ho, hno⟩
    by_cases hmem : o ∈ s₁.objects
    · exact Or.inr ⟨o, i, rfl, hmem, hno⟩
    · exact Or.inl ⟨o, i, rfl, ho, hmem⟩
  · rintro (⟨o, i, rfl, ho, hno⟩ | ⟨o, i, rfl, ho, hno⟩)
    · exact ⟨o, i, rfl, ho, fun hmem => hno (h₂ hmem)⟩
    · exact ⟨o, i, rfl, h₁ ho, hno⟩

lemma Released.refl (hm : Mid h c s L) : Released h c (fun _ => False) (fun _ => False) s s L L :=
  ⟨hm, subset_rfl, fun p => by simp [lost_self], fun p => by simp [lost_self], fun _ _ => rfl⟩

lemma Released.trans {X X' Y Y' : PtrPlace → Prop} {s₁ : PtrHeap} {L₁ : Finset PtrPlace}
    (h₁ : Released h c X Y s s₁ L L₁) (h₂ : Released h c X' Y' s₁ s' L₁ L') :
    Released h c (fun p => X p ∨ X' p) (fun p => Y p ∨ Y' p) s s' L L' where
  mid := h₂.mid
  objects := h₂.objects.trans h₁.objects
  places p := by
    rw [h₂.places, h₁.places, lost_trans h₁.objects h₂.objects]
    tauto
  left p := by
    rw [h₂.left, h₁.left, lost_trans h₁.objects h₂.objects]
    tauto
  untouched k hk := by
    rw [h₂.untouched k fun p hp => hk p ((h₁.left p).mp hp).1, h₁.untouched k hk]

lemma holders_erase : s.holders (L.erase x) o = (s.holders L o).erase x := by
  ext p
  simp only [mem_holders, Finset.mem_erase]
  tauto

lemma holders_erase_of_ne {o' : ℕ} (hdata : (s.pointer x).data = some o) (hne : o' ≠ o) :
    s.holders (L.erase x) o' = s.holders L o' := by
  rw [holders_erase, Finset.erase_eq_of_notMem]
  intro hmem
  have hdata' := (mem_holders.mp hmem).2
  exact hne (Option.some.inj (hdata'.symm.trans hdata))

lemma card_holders_erase (hx : x ∈ L) (hdata : (s.pointer x).data = some o) :
    ((s.holders (L.erase x) o).card : ℤ) = ((s.holders L o).card : ℤ) - 1 := by
  have hmem : x ∈ s.holders L o := mem_holders.mpr ⟨hx, hdata⟩
  have hpos := Finset.card_pos.mpr ⟨x, hmem⟩
  rw [holders_erase, Finset.card_erase_of_mem hmem]
  omega

@[simp] lemma setCount_pointer (k : ℕ) (n : Option ℤ) : (s.setCount k n).pointer = s.pointer := rfl
@[simp] lemma setCount_objects (k : ℕ) (n : Option ℤ) : (s.setCount k n).objects = s.objects := rfl
@[simp] lemma setCount_places (k : ℕ) (n : Option ℤ) : (s.setCount k n).places = s.places := rfl
@[simp] lemma setCount_given (k : ℕ) (n : Option ℤ) : (s.setCount k n).given = s.given := rfl
@[simp] lemma setCount_holders (k : ℕ) (n : Option ℤ) : (s.setCount k n).holders L o = s.holders L o := rfl

lemma Linked.count_ne (hl : s.Linked P) {o' k' : ℕ} (hp : p ∈ P) (hq : q ∈ P)
    (hpd : (s.pointer p).data = some o) (hqd : (s.pointer q).data = some o') (hne : o ≠ o')
    (hpc : (s.pointer p).count = some k) (hqc : (s.pointer q).count = some k') : k ≠ k' := by
  rintro rfl
  have hdata := (hl.same p hp q hq).mpr (hpc.trans hqc.symm)
  rw [hpd, hqd] at hdata
  exact hne (Option.some.inj hdata)

lemma Linked.count_eq (hl : s.Linked P) {k' : ℕ} (hp : p ∈ P) (hq : q ∈ P)
    (hpd : (s.pointer p).data = some o) (hqd : (s.pointer q).data = some o)
    (hpc : (s.pointer p).count = some k) (hqc : (s.pointer q).count = some k') : k = k' := by
  have hcount := (hl.same p hp q hq).mp (hpd.trans hqd.symm)
  rw [hpc, hqc] at hcount
  exact Option.some.inj hcount

lemma Counted.other (hl : s.Linked P) (hL : L ⊆ P) (hc : s.Counted L) (hx : x ∈ L) {o' : ℕ} {n : Option ℤ}
    (hdata : (s.pointer x).data = some o) (hk : (s.pointer x).count = some k) (hp : p ∈ L)
    (hpd : (s.pointer p).data = some o') (hne : o' ≠ o) :
    o' ∈ s.objects ∧ ∃ k', (s.pointer p).count = some k' ∧
      (s.setCount k n).count k' = some ((s.holders (L.erase x) o').card : ℤ) := by
  obtain ⟨hobj, k', hk', hcount⟩ := hc.live p hp o' hpd
  have hkk := hl.count_ne (hL hp) (hL hx) hpd hdata hne hk' hk
  refine ⟨hobj, k', hk', ?_⟩
  rw [holders_erase_of_ne hdata hne]
  simp only [setCount]
  rw [Function.update_of_ne hkk, hcount]

lemma Counted.drop (hl : s.Linked P) (hL : L ⊆ P) (hc : s.Counted L) (hx : x ∈ L)
    (hdata : (s.pointer x).data = some o) (hk : (s.pointer x).count = some k)
    (hne : ((s.holders L o).card : ℤ) - 1 ≠ 0) :
    (s.setCount k (some (((s.holders L o).card : ℤ) - 1))).Counted (L.erase x) := by
  refine ⟨fun p hp o' ho' => ?_, fun o' ho' hg => ?_⟩
  · have hpL := Finset.mem_of_mem_erase hp
    by_cases hoo : o' = o
    · subst hoo
      obtain ⟨hobj, k', hk', -⟩ := hc.live p hpL o' ho'
      obtain rfl := hl.count_eq (hL hpL) (hL hx) ho' hdata hk' hk
      refine ⟨hobj, k', hk', ?_⟩
      rw [setCount_holders, card_holders_erase hx hdata]
      exact Function.update_self _ _ _
    · exact hc.other hl hL hx hdata hk hpL ho' hoo
  · by_cases hoo : o' = o
    · subst hoo
      have hcard := card_holders_erase hx hdata
      rw [setCount_holders, ← Finset.card_pos]
      omega
    · rw [setCount_holders, holders_erase_of_ne hdata hoo]
      exact hc.owned o' ho' hg

lemma Counted.last (hl : s.Linked P) (hL : L ⊆ P) (hc : s.Counted L) (hx : x ∈ L)
    (hdata : (s.pointer x).data = some o) (hk : (s.pointer x).count = some k)
    (hlast : ((s.holders L o).card : ℤ) - 1 = 0) (n : Option ℤ) :
    ({ s.setCount k n with objects := s.objects.erase o } : PtrHeap).Counted (L.erase x) := by
  have hone : ∀ p ∈ L, (s.pointer p).data = some o → p = x := by
    intro p hp hpd
    have hcard : (s.holders L o).card ≤ 1 := by omega
    exact Finset.card_le_one.mp hcard p (mem_holders.mpr ⟨hp, hpd⟩) x (mem_holders.mpr ⟨hx, hdata⟩)
  refine ⟨fun p hp o' ho' => ?_, fun o' ho' hg => ?_⟩
  · obtain ⟨hpx, hpL⟩ := Finset.mem_erase.mp hp
    have hoo : o' ≠ o := by
      rintro rfl
      exact hpx (hone p hpL ho')
    obtain ⟨hobj, hcount⟩ := hc.other hl hL hx hdata hk hpL ho' hoo (n := n)
    exact ⟨Finset.mem_erase.mpr ⟨hoo, hobj⟩, hcount⟩
  · obtain ⟨hoo, ho'⟩ := Finset.mem_erase.mp ho'
    obtain ⟨p, hp⟩ := hc.owned o' ho' hg
    refine ⟨p, ?_⟩
    have herase := holders_erase_of_ne (L := L) hdata hoo
    rw [← herase] at hp
    exact hp

lemma Mid.linked (hl : h.Linked h.places) (hm : Mid h c s L) : s.Linked h.places := by
  rw [hm.frame]
  exact ⟨hl.none_iff, hl.same, hl.fresh, hl.given⟩

lemma Mid.subset (hm : Mid h c s L) : L ⊆ h.places := hm.sub.trans hm.places

lemma Mid.gone_erase (s₁ : PtrHeap) (hm : Mid h c s L) (hobj : s₁.objects ⊆ s.objects)
    (hx : x = c ∨ Lost h s x) : ∀ p ∈ h.places, p ∉ L.erase x → p = c ∨ Lost h s₁ p := by
  have hmono : ∀ {p}, Lost h s p → Lost h s₁ p := by
    rintro p ⟨o, i, rfl, ho, hno⟩
    exact ⟨o, i, rfl, ho, fun hmem => hno (hobj hmem)⟩
  intro p hp hpL
  by_cases hpx : p = x
  · rw [hpx]
    exact hx.imp_right hmono
  · refine (hm.gone p hp fun hmem => hpL ?_).imp_right hmono
    exact Finset.mem_erase.mpr ⟨hpx, hmem⟩

lemma Mid.drop (hl : h.Linked h.places) (hm : Mid h c s L) (hx : x ∈ L) (hlost : x = c ∨ Lost h s x)
    (hdata : (h.pointer x).data = some o) (hk : (h.pointer x).count = some k)
    (hne : ((s.holders L o).card : ℤ) - 1 ≠ 0) :
    Mid h c (s.setCount k (some (((s.holders L o).card : ℤ) - 1))) (L.erase x) where
  frame := by
    rw [hm.frame]
    rfl
  sub := (Finset.erase_subset _ _).trans hm.sub
  places := hm.places
  objects := hm.objects
  gone := hm.gone_erase (s.setCount k (some (((s.holders L o).card : ℤ) - 1))) subset_rfl hlost
  doomed := hm.doomed
  counted := by
    rw [← hm.pointer] at hdata hk
    exact hm.counted.drop (hm.linked hl) hm.subset hx hdata hk hne

lemma Mid.drop_null (hm : Mid h c s L) (hlost : x = c ∨ Lost h s x)
    (hdata : (h.pointer x).data = none) : Mid h c s (L.erase x) where
  frame := hm.frame
  sub := (Finset.erase_subset _ _).trans hm.sub
  places := hm.places
  objects := hm.objects
  gone := hm.gone_erase s subset_rfl hlost
  doomed := hm.doomed
  counted := by
    rw [← hm.pointer] at hdata
    have hsame : ∀ o, s.holders (L.erase x) o = s.holders L o := by
      intro o
      rw [holders_erase, Finset.erase_eq_of_notMem]
      intro hmem
      have := (mem_holders.mp hmem).2
      rw [hdata] at this
      cases this
    refine ⟨fun p hp o ho => ?_, fun o ho hg => ?_⟩
    · rw [hsame]
      exact hm.counted.live p (Finset.mem_of_mem_erase hp) o ho
    · rw [hsame]
      exact hm.counted.owned o ho hg

lemma Mid.doomed_last (hm : Mid h c s L) (hx : x ∈ L) (hlost : x = c ∨ Lost h s x)
    (hdata : (h.pointer x).data = some o) (hlast : ((s.holders L o).card : ℤ) - 1 = 0) : h.Doomed c o := by
  have hgone : ∀ p ∈ h.holders h.places o, p = c ∨ Lost h s p := by
    intro p hp
    obtain ⟨hpp, hpd⟩ := mem_holders.mp hp
    by_cases hpL : p ∈ L
    · have hcard : (s.holders L o).card ≤ 1 := by omega
      have hpx : p = x := Finset.card_le_one.mp hcard p (mem_holders.mpr ⟨hpL, by rw [hm.pointer, hpd]⟩) x
        (mem_holders.mpr ⟨hx, by rw [hm.pointer, hdata]⟩)
      rw [hpx]
      exact hlost
    · exact hm.gone p hpp hpL
  refine Doomed.mk o ⟨x, mem_holders.mpr ⟨hm.subset hx, hdata⟩⟩ ?_ ?_
  · intro p hp hpc
    obtain ⟨q, i, rfl, -⟩ := (hgone p hp).resolve_left hpc
    exact ⟨q, i, rfl⟩
  · intro q i hp hpc
    obtain ⟨q', i', heq, hq, hno⟩ := (hgone _ hp).resolve_left hpc
    obtain ⟨rfl, rfl⟩ := PtrPlace.field.inj heq
    exact hm.doomed q hq hno

lemma Mid.last (hl : h.Linked h.places) (hm : Mid h c s L) (hx : x ∈ L) (hlost : x = c ∨ Lost h s x)
    (hdata : (h.pointer x).data = some o) (hk : (h.pointer x).count = some k)
    (hlast : ((s.holders L o).card : ℤ) - 1 = 0) (n : Option ℤ) :
    Mid h c { s.setCount k n with objects := s.objects.erase o } (L.erase x) where
  frame := by
    rw [hm.frame]
    rfl
  sub := (Finset.erase_subset _ _).trans hm.sub
  places := hm.places
  objects := (Finset.erase_subset _ _).trans hm.objects
  gone := hm.gone_erase { s.setCount k n with objects := s.objects.erase o }
    (Finset.erase_subset _ _) hlost
  doomed := by
    intro o' ho' hno
    by_cases hoo : o' = o
    · rw [hoo]
      exact hm.doomed_last hx hlost hdata hlast
    · exact hm.doomed o' ho' fun hmem => hno (Finset.mem_erase.mpr ⟨hoo, hmem⟩)
  counted := by
    rw [← hm.pointer] at hdata hk
    exact hm.counted.last (hm.linked hl) hm.subset hx hdata hk hlast n

/-! ## The nested deletions -/

/-- What is asked of the release of one pointer. -/
def ReleaseSpec (h : PtrHeap) (c : PtrPlace) (release : SharedPointer → PtrHeap → Except Misuse PtrHeap)
    (fuel : ℕ) : Prop :=
  ∀ s L x, Mid h c s L → x ∈ L → (x = c ∨ Lost h s x) → s.objects.card < fuel →
    ∃ s' L', release (h.pointer x) s = .ok s' ∧ Released h c (· = x) (fun _ => False) s s' L L'

lemma destroyMember_spec {release : SharedPointer → PtrHeap → Except Misuse PtrHeap} {fuel : ℕ}
    (hrel : ReleaseSpec h c release fuel) (hm : Mid h c s L) (hlost : Lost h s x)
    (hleft : x ∈ s.places → x ∈ L) (hfuel : s.objects.card < fuel) :
    ∃ s' L', destroyMember release x s = .ok s' ∧ Released h c (· = x) (· = x) s s' L L' := by
  rw [destroyMember]
  by_cases hx : x ∈ s.places
  · rw [if_pos hx]
    obtain ⟨s₁, L₁, hrun, hr⟩ := hrel s L x hm (hleft hx) (Or.inr hlost) hfuel
    have hxL : x ∉ L₁ := fun hmem => ((hr.left x).mp hmem).2.1 rfl
    refine ⟨{ s₁ with places := s₁.places.erase x }, L₁, ?_, ?_, hr.objects, ?_, hr.left, hr.untouched⟩
    · rw [hm.pointer, hrun]
      rfl
    · have hm₁ := hr.mid
      refine ⟨?_, ?_, (Finset.erase_subset _ _).trans hm₁.places, hm₁.objects, hm₁.gone, hm₁.doomed,
        ⟨hm₁.counted.live, hm₁.counted.owned⟩⟩
      · rw [hm₁.frame]
      · intro p hp
        refine Finset.mem_erase.mpr ⟨?_, hm₁.sub hp⟩
        rintro rfl
        exact hxL hp
    · intro p
      show p ∈ s₁.places.erase x ↔ _
      rw [Finset.mem_erase, hr.places]
      have hsame : Lost s { s₁ with places := s₁.places.erase x } p ↔ Lost s s₁ p := Iff.rfl
      rw [hsame]
      tauto
  · rw [if_neg hx]
    refine ⟨s, L, rfl, hm, subset_rfl, ?_, ?_, fun _ _ => rfl⟩
    · intro p
      have hpx : p ∈ s.places → p ≠ x := by
        rintro hp rfl
        exact hx hp
      have := lost_self (s := s) (p := p)
      tauto
    · intro p
      have hpx : p ∈ L → p ≠ x := by
        rintro hp rfl
        exact hx (hm.sub hp)
      have := lost_self (s := s) (p := p)
      tauto

lemma Released.congr {X X' Y Y' : PtrPlace → Prop} (hr : Released h c X Y s s' L L')
    (hX : ∀ p, X p ↔ X' p) (hY : ∀ p, Y p ↔ Y' p) : Released h c X' Y' s s' L L' where
  mid := hr.mid
  objects := hr.objects
  places p := by rw [hr.places, hY]
  left p := by rw [hr.left, hX]
  untouched := hr.untouched

lemma members_spec {release : SharedPointer → PtrHeap → Except Misuse PtrHeap} {fuel : ℕ}
    (hrel : ReleaseSpec h c release fuel) (ho : o ∈ h.objects) (is : List ℕ) (hnodup : is.Nodup)
    (hm : Mid h c s L) (hno : o ∉ s.objects)
    (hleft : ∀ i ∈ is, .field o i ∈ s.places → .field o i ∈ L) (hfuel : s.objects.card < fuel) :
    ∃ s' L', is.foldlM (fun s i => destroyMember release (.field o i) s) s = .ok s' ∧
      Released h c (fun p => ∃ i ∈ is, p = .field o i) (fun p => ∃ i ∈ is, p = .field o i) s s' L L' := by
  induction is generalizing s L with
  | nil => exact ⟨s, L, rfl, (Released.refl hm).congr (by simp) (by simp)⟩
  | cons i is ih =>
      obtain ⟨hi, hnodup⟩ := List.nodup_cons.mp hnodup
      obtain ⟨s₁, L₁, hrun, hr⟩ := destroyMember_spec hrel hm ⟨o, i, rfl, ho, hno⟩ (hleft i (by simp)) hfuel
      have hleft₁ : ∀ j ∈ is, .field o j ∈ s₁.places → .field o j ∈ L₁ := by
        intro j hj hp
        obtain ⟨hp, hne, hnl⟩ := (hr.places _).mp hp
        exact (hr.left _).mpr ⟨hleft j (by simp [hj]) hp, hne, hnl⟩
      have hcard := Finset.card_le_card hr.objects
      obtain ⟨s', L', hrun', hr'⟩ := ih hnodup hr.mid (fun hmem => hno (hr.objects hmem)) hleft₁ (by omega)
      refine ⟨s', L', ?_, (hr.trans hr').congr (by simp) (by simp)⟩
      rw [List.foldlM_cons, hrun]
      exact hrun'

lemma release_last {fuel : ℕ} {n : ℤ} (hl : h.Linked h.places)
    (hin : ∀ o i, .field o i ∈ h.places → i < h.members o)
    (hm : Mid h c s L) (hx : x ∈ L) (hobj : o ∈ s.objects) (hdata : (h.pointer x).data = some o)
    (hk : (h.pointer x).count = some k) (hlast : ((s.holders L o).card : ℤ) - 1 = 0)
    (hrun : (List.range (s.members o)).reverse.foldlM
      (fun s i => destroyMember (release fuel) (.field o i) s)
      { s.setCount k (some n) with objects := s.objects.erase o } = .ok s')
    (hr : Released h c (fun p => ∃ i ∈ (List.range (s.members o)).reverse, p = .field o i)
      (fun p => ∃ i ∈ (List.range (s.members o)).reverse, p = .field o i)
      { s.setCount k (some n) with objects := s.objects.erase o } s' (L.erase x) L') :
    ∃ s' L', (deleteObject (release fuel) (some o) (s.setCount k (some n)) >>= deleteCount k) = .ok s' ∧
      Released h c (· = x) (fun _ => False) s s' L L' := by
  -- no other pointer that counts has this counter
  have hother : ∀ p ∈ L.erase x, (h.pointer p).count ≠ some k := by
    intro p hp hpk
    obtain ⟨hpx, hpL⟩ := Finset.mem_erase.mp hp
    have hpd := (hl.same p (hm.subset hpL) x (hm.subset hx)).mpr (hpk.trans hk.symm)
    have hcard : (s.holders L o).card ≤ 1 := by omega
    exact hpx (Finset.card_le_one.mp hcard p (mem_holders.mpr ⟨hpL, by rw [hm.pointer, hpd, hdata]⟩) x
      (mem_holders.mpr ⟨hx, by rw [hm.pointer, hdata]⟩))
  have hcount : s'.count k = some n := by
    rw [hr.untouched k hother]
    exact Function.update_self _ _ _
  have hlost : ∀ p ∈ h.places, Lost s s' p ↔ (∃ i ∈ (List.range (s.members o)).reverse, p = .field o i) ∨
      Lost { s.setCount k (some n) with objects := s.objects.erase o } s' p := by
    intro p hp
    constructor
    · rintro ⟨o', i, rfl, ho', hno⟩
      by_cases hoo : o' = o
      · subst hoo
        have hi := hin o' i hp
        exact Or.inl ⟨i, by simpa [hm.members] using hi, rfl⟩
      · exact Or.inr ⟨o', i, rfl, Finset.mem_erase.mpr ⟨hoo, ho'⟩, hno⟩
    · rintro (⟨i, -, rfl⟩ | ⟨o', i, rfl, ho', hno⟩)
      · exact ⟨o, i, rfl, hobj, fun hmem => Finset.notMem_erase o _ (hr.objects hmem)⟩
      · exact ⟨o', i, rfl, Finset.mem_of_mem_erase ho', hno⟩
  have hm' := hr.mid
  refine ⟨s'.setCount k none, L', ?_, ⟨?_, hm'.sub, hm'.places, hm'.objects, hm'.gone, hm'.doomed, ?_⟩,
    hr.objects.trans (Finset.erase_subset _ _), ?_, ?_, ?_⟩
  · rw [deleteObject, setCount_objects, if_pos hobj]
    refine bind_eq_ok.mpr ⟨s', hrun, ?_⟩
    rw [deleteCount, hcount]
  · rw [hm'.frame]
    rfl
  · refine ⟨fun p hp o' ho' => ?_, hm'.counted.owned⟩
    obtain ⟨hobj', k', hk', hcount'⟩ := hm'.counted.live p hp o' ho'
    refine ⟨hobj', k', hk', ?_⟩
    have hne : k' ≠ k := by
      rintro rfl
      rw [hm'.pointer] at hk'
      exact hother p ((hr.left p).mp hp).1 hk'
    exact (Function.update_of_ne hne _ _).trans hcount'
  · intro p
    show p ∈ s'.places ↔ _
    rw [hr.places]
    have hsame : Lost s (s'.setCount k none) p ↔ Lost s s' p := Iff.rfl
    rw [hsame]
    constructor
    · rintro ⟨hp, hY, hnl⟩
      refine ⟨hp, not_false, fun hp' => ?_⟩
      exact ((hlost p (hm.places hp)).mp hp').elim hY hnl
    · rintro ⟨hp, -, hnl⟩
      rw [hlost p (hm.places hp), not_or] at hnl
      exact ⟨hp, hnl⟩
  · intro p
    rw [hr.left, Finset.mem_erase]
    have hsame : Lost s (s'.setCount k none) p ↔ Lost s s' p := Iff.rfl
    rw [hsame]
    constructor
    · rintro ⟨⟨hpx, hp⟩, hX, hnl⟩
      refine ⟨hp, hpx, fun hp' => ?_⟩
      exact ((hlost p (hm.subset hp)).mp hp').elim hX hnl
    · rintro ⟨hp, hpx, hnl⟩
      rw [hlost p (hm.subset hp), not_or] at hnl
      exact ⟨⟨hpx, hp⟩, hnl⟩
  · intro k' hk'
    have hne : k' ≠ k := by
      rintro rfl
      exact hk' x hx hk
    have hun := hr.untouched k' fun p hp => hk' p (Finset.mem_of_mem_erase hp)
    have hset : (s'.setCount k none).count k' = s'.count k' := Function.update_of_ne hne _ _
    rw [hset, hun]
    exact Function.update_of_ne hne _ _

/-- **The release of a pointer**: it succeeds, and deletes what is doomed and nothing else. -/
lemma release_spec (hl : h.Linked h.places) (hin : ∀ o i, .field o i ∈ h.places → i < h.members o)
    (hcc : ¬ h.GoesWith c c) (fuel : ℕ) : ReleaseSpec h c (release fuel) fuel := by
  induction fuel with
  | zero =>
      intro s L x hm hx hlost hfuel
      omega
  | succ fuel ih =>
      intro s L x hm hx hlost hfuel
      rw [release]
      cases hk : (h.pointer x).count with
      | none =>
          have hdata := (hl.none_iff x (hm.subset hx)).mpr hk
          refine ⟨s, L.erase x, rfl, hm.drop_null hlost hdata, subset_rfl, ?_, ?_, fun _ _ => rfl⟩
          · simp [lost_self]
          · intro p
            have := lost_self (s := s) (p := p)
            rw [Finset.mem_erase]
            tauto
      | some k =>
          obtain ⟨o, hdata⟩ : ∃ o, (h.pointer x).data = some o := by
            rw [← Option.ne_none_iff_exists']
            intro hnone
            have := (hl.none_iff x (hm.subset hx)).mp hnone
            rw [hk] at this
            cases this
          obtain ⟨hobj, k', hk', hcount⟩ := hm.counted.live x hx o (by rw [hm.pointer, hdata])
          obtain rfl : k' = k := by
            rw [hm.pointer, hk] at hk'
            exact (Option.some.inj hk').symm
          simp only [hcount]
          by_cases hlast : ((s.holders L o).card : ℤ) - 1 = 0
          · -- the last pointer: the object and its members go
            rw [if_pos hlast, hdata]
            have hm₁ := hm.last hl hx hlost hdata hk hlast (some (((s.holders L o).card : ℤ) - 1))
            have hdoomed := hm.doomed_last hx hlost hdata hlast
            have hnl : ∀ i, ¬ Lost h s (.field o i) := by
              rintro i ⟨o', i', heq, -, hno⟩
              obtain ⟨rfl, -⟩ := PtrPlace.field.inj heq
              exact hno hobj
            have hnc : ∀ i, PtrPlace.field o i ≠ c := by
              rintro i rfl
              exact hcc ⟨o, i, rfl, hdoomed⟩
            have hleft : ∀ i, PtrPlace.field o i ∈ s.places → PtrPlace.field o i ∈ L.erase x := by
              intro i hp
              refine Finset.mem_erase.mpr ⟨?_, ?_⟩
              · intro heq
                rcases hlost with hxc | hxl
                · exact hnc i (heq.trans hxc)
                · exact hnl i (heq ▸ hxl)
              · by_contra hnL
                rcases hm.gone _ (hm.places hp) hnL with hpc | hpl
                · exact hnc i hpc
                · exact hnl i hpl
            have hcard : (s.objects.erase o).card < fuel := by
              rw [Finset.card_erase_of_mem hobj]
              have := Finset.card_pos.mpr ⟨o, hobj⟩
              omega
            obtain ⟨s', L', hrun, hr⟩ :=
              members_spec ih (hm.objects hobj) (List.range (s.members o)).reverse
              (List.nodup_reverse.mpr List.nodup_range) hm₁ (Finset.notMem_erase o s.objects)
              (fun i _ hp => hleft i hp) hcard
            exact release_last hl hin hm hx hobj hdata hk hlast hrun hr
          · rw [if_neg hlast]
            have hsame : ∀ p, Lost s (s.setCount k' (some (((s.holders L o).card : ℤ) - 1))) p ↔ False := by
              intro p
              exact iff_of_false lost_self id
            refine ⟨_, L.erase x, rfl, hm.drop hl hx hlost hdata hk hlast, subset_rfl, ?_, ?_, ?_⟩
            · simp [hsame]
            · intro p
              rw [hsame, Finset.mem_erase]
              tauto
            · intro k hk₂
              have hne : k ≠ k' := by
                rintro rfl
                exact hk₂ x hx hk
              exact Function.update_of_ne hne _ _

lemma Inv.release (hi : s.Inv) (hc : c ∈ s.places) (hcc : ¬ s.GoesWith c c) :
    ∃ s', s.releaseAll (s.pointer c) = .ok s' ∧ s'.InvBut c ∧
      s' = { s with places := s'.places, count := s'.count, objects := s'.objects } ∧
      (∀ o ∈ s.objects, o ∉ s'.objects → s.Doomed c o) ∧
      ∀ p ∈ s.places, ¬ s.GoesWith c p → p ∈ s'.places := by
  have hm : Mid s c s s.places := ⟨rfl, subset_rfl, subset_rfl, subset_rfl, fun p hp hno => absurd hp hno,
    fun o ho hno => absurd ho hno, hi.counted⟩
  obtain ⟨s', L', hrun, hr⟩ := release_spec hi.linked (fun o i hp => (hi.made.inside o i hp).2) hcc
    (s.objects.card + 1) s s.places c hm hc (Or.inl rfl) (Nat.lt_succ_self _)
  have hm' := hr.mid
  have hL : L' = s'.places.erase c := by
    ext p
    rw [hr.left, Finset.mem_erase, hr.places]
    tauto
  refine ⟨s', hrun, ⟨?_, hL ▸ hm'.counted, ?_, ?_, ?_⟩, hm'.frame, hm'.doomed, ?_⟩
  · have hl := hm'.linked hi.linked
    have hsub : ∀ p ∈ s'.places.erase c, p ∈ s.places := fun p hp =>
      hm'.places (Finset.mem_of_mem_erase hp)
    exact ⟨fun p hp => hl.none_iff p (hsub p hp), fun p hp q hq => hl.same p (hsub p hp) q (hsub q hq),
      fun p hp => hl.fresh p (hsub p hp), fun p hp => hl.given p (hsub p hp)⟩
  · intro o i hp
    obtain ⟨hp, -, hnl⟩ := (hr.places _).mp hp
    obtain ⟨ho, hlt⟩ := hi.made.inside o i hp
    refine ⟨?_, by rwa [hm'.members]⟩
    by_contra hno
    exact hnl ⟨o, i, rfl, ho, hno⟩
  · rw [hm'.frame]
    exact hr.objects.trans hi.made.objects
  · rw [hm'.frame]
    exact hi.made.given
  · intro p hp hgoes
    refine (hr.places p).mpr ⟨hp, not_false, ?_⟩
    rintro ⟨o, i, rfl, ho, hno⟩
    exact hgoes ⟨o, i, rfl, hm'.doomed o ho hno⟩

end Release

/-! ## What is acquired -/

section Acquire

variable {s s' : PtrHeap} {c p q other : PtrPlace} {ptr : SharedPointer} {o k : ℕ} {L : Finset PtrPlace}

@[simp] lemma construct_pointer_self : (s.construct c ptr).pointer c = ptr := Function.update_self _ _ _

lemma construct_pointer_of_ne (h : p ≠ c) : (s.construct c ptr).pointer p = s.pointer p :=
  Function.update_of_ne h _ _

lemma mem_construct_places : p ∈ (s.construct c ptr).places ↔ p = c ∨ p ∈ s.places.erase c := by
  simp only [construct, Finset.mem_insert, Finset.mem_erase]
  tauto

lemma write_eq (h : c ∈ s.places) : s.write c ptr = .ok (s.construct c ptr) := by
  rw [write, if_pos h, construct, Finset.insert_eq_of_mem h]

lemma holders_construct : (s.construct c ptr).holders (s.construct c ptr).places o =
    if ptr.data = some o then insert c (s.holders (s.places.erase c) o)
      else s.holders (s.places.erase c) o := by
  ext p
  have hmem : p ∈ (s.construct c ptr).holders (s.construct c ptr).places o ↔
      p = c ∧ ptr.data = some o ∨ p ∈ s.holders (s.places.erase c) o := by
    rw [mem_holders, mem_construct_places, mem_holders]
    constructor
    · rintro ⟨rfl | hp, hdata⟩
      · rw [construct_pointer_self] at hdata
        exact Or.inl ⟨rfl, hdata⟩
      · rw [construct_pointer_of_ne (Finset.ne_of_mem_erase hp)] at hdata
        exact Or.inr ⟨hp, hdata⟩
    · rintro (⟨rfl, hdata⟩ | ⟨hp, hdata⟩)
      · rw [construct_pointer_self]
        exact ⟨Or.inl rfl, hdata⟩
      · rw [construct_pointer_of_ne (Finset.ne_of_mem_erase hp)]
        exact ⟨Or.inr hp, hdata⟩
  rw [hmem]
  split_ifs with h
  · rw [Finset.mem_insert]
    tauto
  · tauto

lemma notMem_holders_erase : c ∉ s.holders (s.places.erase c) o := by
  intro hmem
  exact Finset.notMem_erase c _ (mem_holders.mp hmem).1

/-- There is room at the place. -/
def Room (s : PtrHeap) (c : PtrPlace) : Prop := ∀ o i, c = .field o i → o ∈ s.objects ∧ i < s.members o

lemma Made.construct (hm : s.Made) (hroom : s.Room c) (ptr : SharedPointer) : (s.construct c ptr).Made := by
  refine ⟨fun o i hp => ?_, hm.objects, hm.given⟩
  rcases mem_construct_places.mp hp with hc | hp
  · exact hroom o i hc.symm
  · exact hm.inside o i (Finset.mem_of_mem_erase hp)

lemma Linked.construct (hl : s.Linked (s.places.erase c)) (ptr : SharedPointer)
    (hnone : ptr.data = none ↔ ptr.count = none)
    (hsame : ∀ q ∈ s.places.erase c, ptr.data = (s.pointer q).data ↔ ptr.count = (s.pointer q).count)
    (hfresh : ∀ k, ptr.count = some k → k < s.next) (hgiven : ∀ o, ptr.data = some o → o ∈ s.given) :
    (s.construct c ptr).Linked (s.construct c ptr).places := by
  have hcases : ∀ p ∈ (s.construct c ptr).places, (s.construct c ptr).pointer p = ptr ∨
      p ∈ s.places.erase c ∧ (s.construct c ptr).pointer p = s.pointer p := by
    intro p hp
    rcases mem_construct_places.mp hp with rfl | hp
    · exact Or.inl construct_pointer_self
    · exact Or.inr ⟨hp, construct_pointer_of_ne (Finset.ne_of_mem_erase hp)⟩
  refine ⟨fun p hp => ?_, fun p hp q hq => ?_, fun p hp k hk => ?_, fun p hp o ho => ?_⟩
  · rcases hcases p hp with h | ⟨hp, h⟩
    · rw [h]
      exact hnone
    · rw [h]
      exact hl.none_iff p hp
  · rcases hcases p hp with h | ⟨hp, h⟩
    · rcases hcases q hq with h' | ⟨hq, h'⟩
      · rw [h, h']
        simp
      · rw [h, h']
        exact hsame q hq
    · rcases hcases q hq with h' | ⟨hq, h'⟩
      · rw [h, h', eq_comm, hsame p hp, eq_comm]
      · rw [h, h']
        exact hl.same p hp q hq
  · rcases hcases p hp with h | ⟨hp, h⟩
    · rw [h] at hk
      exact hfresh k hk
    · rw [h] at hk
      exact hl.fresh p hp k hk
  · rcases hcases p hp with h | ⟨hp, h⟩
    · rw [h] at ho
      exact hgiven o ho
    · rw [h] at ho
      exact hl.given p hp o ho

lemma InvBut.null (hi : s.InvBut c) (hroom : s.Room c) : (s.construct c {}).Inv := by
  have hholders : ∀ o, (s.construct c {}).holders (s.construct c {}).places o =
    s.holders (s.places.erase c) o := by
    intro o
    rw [holders_construct, if_neg nofun]
  refine ⟨hi.linked.construct {} (by simp) (fun q hq => ?_) nofun nofun,
    ⟨fun p hp o ho => ?_, fun o ho hg => ?_⟩,
    hi.made.construct hroom _⟩
  · rw [eq_comm, hi.linked.none_iff q hq, eq_comm]
  · rw [hholders]
    rcases mem_construct_places.mp hp with rfl | hp
    · rw [construct_pointer_self] at ho
      cases ho
    · rw [construct_pointer_of_ne (Finset.ne_of_mem_erase hp)] at ho ⊢
      exact hi.counted.live p hp o ho
  · rw [hholders]
    exact hi.counted.owned o ho hg

/-- **A pointer is copied**, and the counter raised. -/
lemma InvBut.copy (hi : s.InvBut c) (ptr : SharedPointer) (hroom : s.Room c)
    (hptr : ptr = {} ∨ ∃ q ∈ s.places.erase c, s.pointer q = ptr) :
    ∃ s', (s.construct c ptr).acquire ptr = .ok s' ∧ s'.Inv := by
  rcases hptr with rfl | ⟨q, hq, rfl⟩
  · exact ⟨_, rfl, hi.null hroom⟩
  · cases hdata : (s.pointer q).data with
    | none =>
        have hcount := (hi.linked.none_iff q hq).mp hdata
        have hnull : s.pointer q = {} := by
          rw [SharedPointer.mk.injEq]
          exact ⟨hdata, hcount⟩
        rw [hnull]
        exact ⟨_, rfl, hi.null hroom⟩
    | some o =>
        obtain ⟨hobj, k, hk, hcount⟩ := hi.counted.live q hq o hdata
        have hcount' : (s.construct c (s.pointer q)).count k =
          some ((s.holders (s.places.erase c) o).card : ℤ) :=
          hcount
        have hl := hi.linked.construct (s.pointer q) (hi.linked.none_iff q hq)
          (fun p hp => hi.linked.same q hq p hp) (hi.linked.fresh q hq) (hi.linked.given q hq)
        refine ⟨(s.construct c (s.pointer q)).setCount k
          (some (((s.holders (s.places.erase c) o).card : ℤ) + 1)),
          ?_, ⟨hl.none_iff, hl.same, hl.fresh, hl.given⟩, ⟨fun p hp o' ho' => ?_, fun o' ho' hg => ?_⟩, ?_⟩
        · rw [acquire, hk]
          simp only [hcount']
        · rw [setCount_holders, setCount_places, holders_construct, hdata]
          by_cases hoo : o' = o
          · subst hoo
            rw [if_pos rfl, Finset.card_insert_of_notMem notMem_holders_erase]
            refine ⟨hobj, k, ?_, Function.update_self _ _ _⟩
            have hself : (s.construct c (s.pointer q)).pointer c = s.pointer q := construct_pointer_self
            have hcp : c ∈ (s.construct c (s.pointer q)).places := mem_construct_places.mpr (Or.inl rfl)
            have hsame := (hl.same p hp c hcp).mp (by rw [hself, hdata]; exact ho')
            rw [hself, hk] at hsame
            exact hsame
          · have hne : ¬ some o = some o' := fun h => hoo (Option.some.inj h).symm
            rw [if_neg hne]
            rw [setCount_places] at hp
            rcases mem_construct_places.mp hp with rfl | hp
            · rw [setCount_pointer, construct_pointer_self, hdata] at ho'
              exact absurd ho' hne
            · have hpne := Finset.ne_of_mem_erase hp
              rw [setCount_pointer, construct_pointer_of_ne hpne] at ho' ⊢
              obtain ⟨hobj', k', hk', hcount''⟩ := hi.counted.live p hp o' ho'
              have hkk := hi.linked.count_ne hp hq ho' hdata hoo hk' hk
              exact ⟨hobj', k', hk', (Function.update_of_ne hkk _ _).trans hcount''⟩
        · rw [setCount_holders, setCount_places, holders_construct]
          have hne := hi.counted.owned o' ho' hg
          split_ifs
          · exact Finset.insert_nonempty _ _
          · exact hne
        · have hmade := hi.made.construct hroom (s.pointer q)
          exact ⟨hmade.inside, hmade.objects, hmade.given⟩

/-- **A raw pointer is given** to a `SharedPointer`: a new counter stands at one. -/
lemma InvBut.new (hi : s.InvBut c) (hroom : s.Room c) {raw : Option ℕ} (hraw : s.Givable raw) :
    ((s.newCount raw).2.construct c (s.newCount raw).1).Inv := by
  cases raw with
  | none => exact hi.null hroom
  | some o =>
      obtain ⟨hobj, hnew⟩ := hraw o rfl
      have hnone : ∀ q ∈ s.places.erase c, (s.pointer q).data ≠ some o := by
        intro q hq hdata
        exact hnew (hi.linked.given q hq o hdata)
      have hempty : s.holders (s.places.erase c) o = ∅ := by
        rw [Finset.eq_empty_iff_forall_notMem]
        intro q hq
        exact hnone q (mem_holders.mp hq).1 (mem_holders.mp hq).2
      have hother : ∀ q ∈ s.places.erase c, (s.pointer q).count ≠ some s.next := by
        intro q hq hk
        exact lt_irrefl _ (hi.linked.fresh q hq _ hk)
      set t := (s.newCount (some o)).2
      show (t.construct c ⟨some o, some s.next⟩).Inv
      have hl : t.Linked (t.places.erase c) := by
        refine ⟨hi.linked.none_iff, hi.linked.same, fun p hp k hk => ?_, fun p hp o' ho' => ?_⟩
        · exact Nat.lt_succ_of_lt (hi.linked.fresh p hp k hk)
        · exact Finset.mem_insert_of_mem (hi.linked.given p hp o' ho')
      have hth : ∀ o', t.holders (t.places.erase c) o' = s.holders (s.places.erase c) o' := fun _ => rfl
      refine ⟨hl.construct ⟨some o, some s.next⟩ (by simp) (fun q hq => ?_) ?_ ?_,
        ⟨fun p hp o' ho' => ?_, fun o' ho' hg => ?_⟩, ?_⟩
      · exact iff_of_false (fun h => hnone q hq h.symm) (fun h => hother q hq h.symm)
      · rintro k ⟨⟩
        exact Nat.lt_succ_self _
      · rintro o' ⟨⟩
        exact Finset.mem_insert_self _ _
      · rw [holders_construct, hth]
        rcases mem_construct_places.mp hp with rfl | hp
        · rw [construct_pointer_self] at ho' ⊢
          obtain rfl := Option.some.inj ho'
          rw [if_pos rfl, hempty]
          refine ⟨hobj, s.next, rfl, ?_⟩
          exact Function.update_self _ _ _
        · have hpne := Finset.ne_of_mem_erase hp
          rw [construct_pointer_of_ne hpne] at ho' ⊢
          have hoo : ¬ some o = some o' := by
            rintro ⟨⟩
            exact hnone p hp ho'
          rw [if_neg hoo]
          obtain ⟨hobj', k, hk, hcount⟩ := hi.counted.live p hp o' ho'
          refine ⟨hobj', k, hk, ?_⟩
          have hkn : k ≠ s.next := fun h => hother p hp (hk.trans (congrArg some h))
          exact (Function.update_of_ne hkn _ _).trans hcount
      · rw [holders_construct, hth]
        split_ifs with hoo
        · exact Finset.insert_nonempty _ _
        · refine hi.counted.owned o' ho' ?_
          rcases Finset.mem_insert.mp hg with rfl | hg
          · exact absurd rfl hoo
          · exact hg
      · have hmade : t.Made := by
          refine ⟨hi.made.inside, hi.made.objects, ?_⟩
          intro o' ho'
          rcases Finset.mem_insert.mp ho' with rfl | ho'
          · exact hi.made.objects hobj
          · exact hi.made.given ho'
        exact hmade.construct hroom _

/-- **A pointer is moved**: what it was is null afterwards. -/
lemma InvBut.move (hi : s.InvBut c) (hroom : s.Room c) (hother : other ∈ s.places) (hne : other ≠ c) :
    ((s.construct c (s.pointer other)).construct other {}).Inv := by
  have hmem : other ∈ s.places.erase c := Finset.mem_erase.mpr ⟨hne, hother⟩
  have hl := hi.linked.construct (s.pointer other) (hi.linked.none_iff other hmem)
    (fun p hp => hi.linked.same other hmem p hp) (hi.linked.fresh other hmem) (hi.linked.given other hmem)
  have hmade := hi.made.construct hroom (s.pointer other)
  set t := s.construct c (s.pointer other) with ht
  -- one pointer to the object for the other
  have hcard : ∀ o, (t.holders (t.places.erase other) o).card = (s.holders (s.places.erase c) o).card := by
    intro o
    rw [holders_erase, ht, holders_construct]
    split_ifs with hdata
    · have hin : other ∈ s.holders (s.places.erase c) o := mem_holders.mpr ⟨hmem, hdata⟩
      rw [Finset.card_erase_of_mem (Finset.mem_insert_of_mem hin),
        Finset.card_insert_of_notMem notMem_holders_erase]
      rfl
    · rw [Finset.erase_eq_of_notMem]
      intro hin
      exact hdata (mem_holders.mp hin).2
  have hbut : t.InvBut other := by
    refine ⟨?_, ⟨fun p hp o ho => ?_, fun o ho hg => ?_⟩, hmade⟩
    · have hsub : ∀ p ∈ t.places.erase other, p ∈ t.places := fun p hp => Finset.mem_of_mem_erase hp
      exact ⟨fun p hp => hl.none_iff p (hsub p hp), fun p hp q hq => hl.same p (hsub p hp) q (hsub q hq),
        fun p hp => hl.fresh p (hsub p hp), fun p hp => hl.given p (hsub p hp)⟩
    · rw [hcard]
      rcases mem_construct_places.mp (Finset.mem_of_mem_erase hp) with rfl | hp
      · rw [ht, construct_pointer_self] at ho ⊢
        exact hi.counted.live other hmem o ho
      · rw [ht, construct_pointer_of_ne (Finset.ne_of_mem_erase hp)] at ho ⊢
        exact hi.counted.live p hp o ho
    · rw [← Finset.card_pos, hcard, Finset.card_pos]
      exact hi.counted.owned o ho hg
  refine hbut.null ?_
  intro o i ho
  exact hi.made.inside o i (ho ▸ hother)

end Acquire

/-! ## Runs -/

section Runs

variable {s s' : PtrHeap} {c other : PtrPlace} {op : PtrOp}

lemma Inv.right (hi : s.Inv) : s.Right where
  counted p hp o ho := (hi.counted.live p hp o ho).2
  alive o hg := by
    constructor
    · intro ho
      exact hi.counted.owned o ho hg
    · rintro ⟨p, hp⟩
      exact (hi.counted.live p (mem_holders.mp hp).1 o (mem_holders.mp hp).2).1

lemma Inv.invBut (hi : s.Inv) (hc : c ∉ s.places) : s.InvBut c := by
  have herase : s.places.erase c = s.places := Finset.erase_eq_of_notMem hc
  refine ⟨?_, ?_, hi.made⟩
  · rw [herase]
    exact hi.linked
  · rw [herase]
    exact hi.counted

lemma Inv.room (hi : s.Inv) (hc : c ∈ s.places) : s.Room c := by
  rintro o i rfl
  exact hi.made.inside o i hc

lemma InvBut.erase (hi : s.InvBut c) : ({ s with places := s.places.erase c } : PtrHeap).Inv where
  linked := ⟨hi.linked.none_iff, hi.linked.same, hi.linked.fresh, hi.linked.given⟩
  counted := ⟨hi.counted.live, hi.counted.owned⟩
  made := ⟨fun o i hp => hi.made.inside o i (Finset.mem_of_mem_erase hp), hi.made.objects, hi.made.given⟩

lemma Doomed.root {o : ℕ} (h : s.Doomed c o) : ∃ o', (s.pointer c).data = some o' ∧ s.Doomed c o' := by
  induction h with
  | mk o hne hfields hdoomed ih =>
      obtain ⟨p, hp⟩ := hne
      by_cases hpc : p = c
      · subst hpc
        exact ⟨o, (mem_holders.mp hp).2, Doomed.mk o ⟨p, hp⟩ hfields hdoomed⟩
      · obtain ⟨q, i, rfl⟩ := hfields p hp hpc
        exact ih q i hp hpc

lemma exists_like (hc : c ∈ s.places) (hlast : ∀ o, (s.pointer c).data = some o → ¬ s.Doomed c o) {o : ℕ}
    (hdata : (s.pointer c).data = some o) : ∃ q ∈ s.places, q ≠ c ∧ (s.pointer q).data = some o := by
  by_contra hnone
  push Not at hnone
  have honly : ∀ p ∈ s.holders s.places o, p = c := by
    intro p hp
    by_contra hpc
    exact hnone p (mem_holders.mp hp).1 hpc (mem_holders.mp hp).2
  refine hlast o hdata (Doomed.mk o ⟨c, mem_holders.mpr ⟨hc, hdata⟩⟩ ?_ ?_)
  · intro p hp hpc
    exact absurd (honly p hp) hpc
  · intro q i hp hpc
    exact absurd (honly _ hp) hpc

lemma Inv.assign (hi : s.Inv) (hlegal : s.Legal (.assign c other))
    (hcareful : s.Careful (.assign c other)) :
    ∃ s', s.step (.assign c other) = .ok s' ∧ s'.Inv := by
  obtain ⟨hc, hother⟩ := hlegal
  obtain ⟨hself, hgo, hgc⟩ := hcareful
  obtain ⟨s₁, hrun, hbut, hframe, hobj, hkeep⟩ := hi.release hc hgc
  have hptr : s₁.pointer = s.pointer := by rw [hframe]
  have hc₁ := hkeep c hc hgc
  have ho₁ := hkeep other hother hgo
  have hroom : s₁.Room c := fun o i h => hbut.made.inside o i (h ▸ hc₁)
  have hsource : s₁.pointer other = {} ∨ ∃ q ∈ s₁.places.erase c, s₁.pointer q = s₁.pointer other := by
    by_cases hco : c = other
    · subst hco
      rw [hptr]
      cases hdata : (s.pointer c).data with
      | none =>
          left
          rw [SharedPointer.mk.injEq]
          exact ⟨hdata, (hi.linked.none_iff c hc).mp hdata⟩
      | some o =>
          -- another pointer to the object has the same members
          obtain ⟨q, hq, hqc, hqd⟩ := exists_like hc (hself rfl) hdata
          have hqk := (hi.linked.same q hq c hc).mp (hqd.trans hdata.symm)
          have hgq : ¬ s.GoesWith c q := by
            rintro ⟨o', i, rfl, hdoomed⟩
            obtain ⟨o'', hc'', hdoomed''⟩ := hdoomed.root
            exact hself rfl o'' hc'' hdoomed''
          refine Or.inr ⟨q, Finset.mem_erase.mpr ⟨hqc, hkeep q hq hgq⟩, ?_⟩
          rw [SharedPointer.mk.injEq]
          exact ⟨hqd.trans hdata.symm, hqk⟩
    · exact Or.inr ⟨other, Finset.mem_erase.mpr ⟨Ne.symm hco, ho₁⟩, rfl⟩
  obtain ⟨s', hacq, hinv⟩ := hbut.copy _ hroom hsource
  refine ⟨s', ?_, hinv⟩
  refine bind_eq_ok.mpr ⟨_, if_pos hc, bind_eq_ok.mpr ⟨s₁, hrun, bind_eq_ok.mpr ⟨_, if_pos ho₁, ?_⟩⟩⟩
  exact bind_eq_ok.mpr ⟨_, write_eq hc₁, hacq⟩

lemma Inv.moveAssign (hi : s.Inv) (hlegal : s.Legal (.moveAssign c other))
    (hcareful : s.Careful (.moveAssign c other)) : ∃ s', s.step (.moveAssign c other) = .ok s' ∧
      s'.Inv := by
  obtain ⟨hc, hother⟩ := hlegal
  rw [step]
  by_cases hco : c = other
  · rw [if_pos hco]
    exact ⟨s, rfl, hi⟩
  · rw [if_neg hco]
    obtain ⟨hgo, hgc⟩ := hcareful hco
    obtain ⟨s₁, hrun, hbut, hframe, hobj, hkeep⟩ := hi.release hc hgc
    have hc₁ := hkeep c hc hgc
    have ho₁ := hkeep other hother hgo
    have hroom : s₁.Room c := fun o i h => hbut.made.inside o i (h ▸ hc₁)
    refine ⟨_, ?_, hbut.move hroom ho₁ (Ne.symm hco)⟩
    refine bind_eq_ok.mpr ⟨_, if_pos hc, bind_eq_ok.mpr ⟨s₁, hrun, bind_eq_ok.mpr ⟨_, if_pos ho₁, ?_⟩⟩⟩
    refine bind_eq_ok.mpr ⟨_, write_eq hc₁, write_eq ?_⟩
    exact mem_construct_places.mpr (Or.inr (Finset.mem_erase.mpr ⟨Ne.symm hco, ho₁⟩))

lemma Inv.reset {raw : Option ℕ} (hi : s.Inv) (hlegal : s.Legal (.reset c raw))
    (hcareful : s.Careful (.reset c raw)) : ∃ s', s.step (.reset c raw) = .ok s' ∧ s'.Inv := by
  obtain ⟨hc, hraw⟩ := hlegal
  by_cases hsame : raw = (s.pointer c).data
  · refine ⟨s, bind_eq_ok.mpr ⟨_, if_pos hc, ?_⟩, hi⟩
    rw [if_pos hsame]
  · obtain ⟨s₁, hrun, hbut, hframe, hobj, hkeep⟩ := hi.release hc (hcareful hsame)
    have hc₁ := hkeep c hc (hcareful hsame)
    have hroom : s₁.Room c := fun o i h => hbut.made.inside o i (h ▸ hc₁)
    have hraw₁ : s₁.Givable raw := by
      rintro o rfl
      obtain ⟨ho, hnew⟩ := hraw o rfl
      have hgiven : s₁.given = s.given := by rw [hframe]
      refine ⟨?_, by rwa [hgiven]⟩
      -- what was not given has no pointer to it, and is not deleted
      by_contra hgone
      have hdoomed := hobj o ho hgone
      cases hdoomed with
      | mk o hne _ _ =>
          obtain ⟨p, hp⟩ := hne
          exact hnew (hi.linked.given p (mem_holders.mp hp).1 o (mem_holders.mp hp).2)
    refine ⟨_, bind_eq_ok.mpr ⟨_, if_pos hc, ?_⟩, hbut.new hroom hraw₁⟩
    rw [if_neg hsame]
    refine bind_eq_ok.mpr ⟨s₁, hrun, write_eq ?_⟩
    cases raw with
    | none => exact hc₁
    | some o => exact hc₁

/-- **An operation that is careful succeeds and keeps the counts.** -/
lemma Inv.step (hi : s.Inv) (hlegal : s.Legal op) (hcareful : s.Careful op) :
    ∃ s', s.step op = .ok s' ∧ s'.Inv := by
  cases op with
  | new o n =>
      have hgiven : o ∉ s.given := fun hmem => hlegal (hi.made.given hmem)
      have hobj : o ∉ s.objects := fun hmem => hlegal (hi.made.objects hmem)
      refine ⟨_, rfl, ⟨hi.linked.none_iff, hi.linked.same, hi.linked.fresh, hi.linked.given⟩,
        ⟨fun p hp o' ho' => ?_, fun o' ho' hg => ?_⟩, ⟨fun o' i hp => ?_, ?_, ?_⟩⟩
      · obtain ⟨ho, hrest⟩ := hi.counted.live p hp o' ho'
        exact ⟨Finset.mem_insert_of_mem ho, hrest⟩
      · rcases Finset.mem_insert.mp ho' with rfl | ho'
        · exact absurd hg hgiven
        · exact hi.counted.owned o' ho' hg
      · obtain ⟨ho, hlt⟩ := hi.made.inside o' i hp
        have hne : o' ≠ o := by
          rintro rfl
          exact hobj ho
        refine ⟨Finset.mem_insert_of_mem ho, ?_⟩
        show i < Function.update s.members o n o'
        rw [Function.update_of_ne hne]
        exact hlt
      · exact Finset.insert_subset_insert _ hi.made.objects
      · exact hi.made.given.trans (Finset.subset_insert _ _)
  | fromRaw c raw =>
      obtain ⟨⟨hc, hroom⟩, hraw⟩ := hlegal
      exact ⟨_, rfl, (hi.invBut hc).new hroom hraw⟩
  | copy c other =>
      obtain ⟨⟨hc, hroom⟩, hother⟩ := hlegal
      have hne : other ≠ c := by
        rintro rfl
        exact hc hother
      obtain ⟨s', hacq, hinv⟩ := (hi.invBut hc).copy (s.pointer other) hroom
        (Or.inr ⟨other, Finset.mem_erase.mpr ⟨hne, hother⟩, rfl⟩)
      exact ⟨s', bind_eq_ok.mpr ⟨_, if_pos hother, hacq⟩, hinv⟩
  | move c other =>
      obtain ⟨⟨hc, hroom⟩, hother⟩ := hlegal
      have hne : other ≠ c := by
        rintro rfl
        exact hc hother
      refine ⟨_, bind_eq_ok.mpr ⟨_, if_pos hother, write_eq ?_⟩, (hi.invBut hc).move hroom hother hne⟩
      exact mem_construct_places.mpr (Or.inr (Finset.mem_erase.mpr ⟨hne, hother⟩))
  | assign c other => exact hi.assign hlegal hcareful
  | moveAssign c other => exact hi.moveAssign hlegal hcareful
  | reset c raw => exact hi.reset hlegal hcareful
  | destroy c =>
      obtain ⟨hc, n, rfl⟩ := hlegal
      have hgc : ¬ s.GoesWith (.var n) (.var n) := by
        rintro ⟨o, i, h, -⟩
        cases h
      obtain ⟨s₁, hrun, hbut, -⟩ := hi.release hc hgc
      exact ⟨_, bind_eq_ok.mpr ⟨_, if_pos hc, bind_eq_ok.mpr ⟨s₁, hrun, rfl⟩⟩, hbut.erase⟩

/-- **In every run of careful operations the counts are right**, and nothing is used after it was
deleted. -/
theorem shared_pointers_right (ops : List PtrOp) (hlegal : EachCall step Legal ops {})
    (hcareful : EachCall step Careful ops {}) :
    EachCall step (fun s op => ∃ s', s.step op = .ok s' ∧ s'.Right) ops {} := by
  have hempty : Inv {} := ⟨⟨by simp, by simp, by simp, by simp⟩, ⟨by simp, by simp⟩,
    ⟨fun o i h => by simp at h, by simp, by simp⟩⟩
  refine (hlegal.and hcareful).imp_of_invariant (Q := Inv) ?_ ?_ hempty
  · rintro s op hi ⟨hl, hc⟩
    obtain ⟨s', hrun, hinv⟩ := hi.step hl hc
    exact ⟨s', hrun, hinv.right⟩
  · rintro s op s' hi ⟨hl, hc⟩ hrun
    obtain ⟨s'', hrun', hinv⟩ := hi.step hl hc
    obtain rfl := Except.ok.inj (hrun.symm.trans hrun')
    exact hinv

end Runs

/-- The only pointer to an object is assigned to itself. -/
def selfAssigned : List PtrOp := [.new 0 0, .fromRaw (.var 0) (some 0), .assign (.var 0) (.var 0)]

/-- The object and its counter are deleted, and then the counter is raised. -/
theorem self_assigned_uses_deleted : EachCall step Legal selfAssigned {} ∧
    selfAssigned.foldlM step {} = .error .counter ∧
      ¬ EachCall step (fun s op => ∃ s', s.step op = .ok s' ∧ s'.Right) selfAssigned {} := by
  refine ⟨⟨?_, ⟨⟨?_, ?_⟩, ?_⟩, ⟨?_, ?_⟩, trivial⟩, rfl, ?_⟩
  · exact Finset.notMem_empty 0
  · decide
  · rintro o i ⟨⟩
  · rintro o ⟨⟩
    decide
  · decide
  · decide
  · rintro ⟨-, -, ⟨s', hrun, -⟩, -⟩
    cases hrun

/-- An object is given to a pointer, which is copied; the two are destroyed. -/
def copied : List PtrOp :=
  [.new 0 0, .fromRaw (.var 0) (some 0), .copy (.var 1) (.var 0), .destroy (.var 0), .destroy (.var 1)]

theorem shared_pointers_right_copied :
    EachCall step (fun s op => ∃ s', s.step op = .ok s' ∧ s'.Right) copied {} := by
  refine shared_pointers_right copied
    ⟨?_, ⟨⟨?_, ?_⟩, ?_⟩, ⟨⟨?_, ?_⟩, ?_⟩, ⟨?_, ?_⟩, ⟨?_, ?_⟩, trivial⟩
    ⟨trivial, trivial, trivial, trivial, trivial, trivial⟩
  · exact Finset.notMem_empty 0
  · decide
  · rintro o i ⟨⟩
  · rintro o ⟨⟩
    decide
  · decide
  · rintro o i ⟨⟩
  · decide
  · decide
  · exact ⟨0, rfl⟩
  · decide
  · exact ⟨1, rfl⟩

end BrebOS.PtrHeap

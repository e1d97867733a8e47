import BrebOS.FileManagement.VFS.References
import BrebOS.Lib.Run

/-!
# One inode for each file

The cache has one dentry for each name in a directory, along every run in which nothing is created
under a name that is in the cache already, and no path goes back with `..` to a directory and names
something there once it left the cache: `browse_to` does not look at the cache again.
-/

namespace BrebOS

namespace Vfs

variable {D : Type} {s s' : Vfs D} {d x i p : ℕ} {locals : List ℕ} {name : Name}

/-- Dentries in the cache with the same parent and name have the same inode. -/
def OneInode (s : Vfs D) : Prop :=
  ∀ i j d e o o', s.slots i = some d → s.slots j = some e → s.dents d = some o →
    s.dents e = some o' → o.parent = o'.parent → o.name = o'.name → o.inode = o'.inode

/-- Dentries in the cache with the same parent and name are the same. -/
def Keyed (s : Vfs D) : Prop :=
  ∀ i j d e o o', s.slots i = some d → s.slots j = some e → s.dents d = some o →
    s.dents e = some o' → o.parent = o'.parent → o.name = o'.name → d = e

/-- No dentry in the cache has this parent and name. -/
def NoEntry (p : ℕ) (name : Name) (s : Vfs D) : Prop :=
  ∀ i d o, s.slots i = some d → s.dents d = some o → o.parent = some p → o.name ≠ name

/-- No name comes after the first `..`. -/
def NoReturn : List Name → Prop
  | [] => True
  | t :: ts => if t = Name.dotDot then ∀ t' ∈ ts, t' = Name.dot ∨ t' = Name.dotDot else NoReturn ts

/-- The part of a path behind the first component that is not in the cache does not go back to name
something. -/
def BrowseOk (s : Vfs D) (path : List Name) (start : ℕ) : Prop :=
  NoReturn (s.browseCached path start).2.tail

/-- The directory is found as it should, and the name is not in the cache. -/
def CreateOk (s : Vfs D) (dir : List Name) (name : Name)
    (find : Vfs D → Except Fault (Option ℕ × Vfs D)) : Prop :=
  s.BrowseOk dir s.rootDentry ∧
    ∀ r, find s = .ok r → ∀ p ∈ r.1, r.2.getCachedDentry p name = none

/-- The calls that keep one dentry for each name. -/
def KeepsKeyed (F : FileSystems D) (s : Vfs D) : VfsOp → Prop
  | .browseTo path | .addToPath path => s.BrowseOk path s.rootDentry
  | .touch dir fileName =>
      s.CreateOk dir fileName fun s => s.getFileParentDentry F dir fileName true
  | .mkdir dir dirName => s.CreateOk dir dirName fun s => s.browseTo F dir s.rootDentry true []
  | .openFile dir fileName creat _ => s.BrowseOk dir s.rootDentry ∧
      (creat = true → ∀ r, s.getFileDentry F dir fileName = .ok r → r.1 = none →
        r.2.CreateOk dir fileName fun s => s.getFileParentDentry F dir fileName true)
  | .closeFile _ | .resize _ _ | .evict => True

lemma Keyed.oneInode (h : s.Keyed) : s.OneInode := by
  intro i j d e o o' hi hj hd he hparent hname
  obtain rfl := h i j d e o o' hi hj hd he hparent hname
  rw [hd, Option.some.injEq] at he
  rw [he]

lemma Evicts.keyed (he : Evicts locals s s') (h : s.Keyed) : s'.Keyed := by
  intro i j d e o o' hi hj hd he'
  exact h i j d e o o' (he.slots i d hi) (he.slots j e hj) (he.dents d o hd) (he.dents e o' he')

lemma Evicts.noEntry (he : Evicts locals s s') (h : s.NoEntry p name) : s'.NoEntry p name := by
  intro i d o hi hd
  exact h i d o (he.slots i d hi) (he.dents d o hd)

lemma Evicts.cached (he : Evicts locals s s') (hd : d ∈ locals) (h : s.Cached d) : s'.Cached d := by
  obtain ⟨i, hi, hid⟩ := h
  exact ⟨i, hi, (he.kept d hd).2 i hid⟩

lemma getCachedDentry_eq_none (h : s.Wf) (hnone : s.getCachedDentry p name = none) :
    s.NoEntry p name := by
  intro i d o hi hd hparent hname
  have hnot := List.findSome?_eq_none_iff.mp hnone i (List.mem_range.mpr (h.slot i d hi).1)
  simp [hi, hd, hparent, hname] at hnot

lemma getCachedDentry_eq_some (h : s.getCachedDentry p name = some d) :
    s.Cached d ∧ ∃ o, s.dents d = some o ∧ o.parent = some p ∧ o.name = name := by
  obtain ⟨i, hi, heq⟩ := List.exists_of_findSome?_eq_some h
  rcases hslot : s.slots i with _ | x
  · simp [hslot] at heq
  rcases hx : s.dents x with _ | o
  · simp [hslot, hx] at heq
  simp only [hslot, hx, bind, Option.bind] at heq
  split_ifs at heq with hkey
  obtain rfl : x = d := by simpa using heq
  exact ⟨⟨i, List.mem_range.mp hi, hslot⟩, o, hx, hkey.2, hkey.1⟩

/-! ## Caching -/

/-- The objects are right, and the cache has one dentry for each name. -/
structure Good (s : Vfs D) : Prop where
  wf : s.Wf
  keyed : s.Keyed
  root : (s.slots 0).isSome

lemma Evicts.good (he : Evicts locals s s') (h : s.Good) (hwf : s'.Wf) : s'.Good := by
  refine ⟨hwf, he.keyed h.keyed, ?_⟩
  rw [he.pinned 0 (by decide)]
  exact h.root

lemma Slotted.root (h : Slotted d i s s') (hroot : (s.slots 0).isSome) : (s'.slots 0).isSome := by
  rw [h.slots, Function.update_apply]
  split_ifs
  · rfl
  · exact hroot

lemma Good.cacheAgain (h : s.Good) (hd : s.Cached d) {b : Bool} (hrun : s.cacheDentry locals d = (b, s')) :
    s'.Good ∧ s'.Cached d ∧ ∀ p name, s.NoEntry p name → s'.NoEntry p name := by
  obtain ⟨s₁, hwf₁, he, hcase⟩ := h.wf.cacheDentry locals (hd.isSome h.wf)
  have hcached₁ := he.cached List.mem_cons_self hd
  rcases hcase with ⟨hfalse, -⟩ | ⟨j, s₂, htrue, hwf₂, hslot⟩
  · obtain ⟨-, rfl⟩ : false = b ∧ s₁ = s' := by simpa [hfalse] using hrun
    exact ⟨he.good h hwf₁, hcached₁, fun p name hno => he.noEntry hno⟩
  · obtain ⟨-, rfl⟩ : true = b ∧ s₂ = s' := by simpa [htrue] using hrun
    obtain ⟨k, hk, hkd⟩ := hcached₁
    -- whoever has the new slot has an old one
    have hold : ∀ i x, s₂.slots i = some x → ∃ i', s₁.slots i' = some x := by
      intro i x hx
      rw [hslot.slots] at hx
      rcases eq_or_ne i j with rfl | hne
      · obtain rfl : d = x := by simpa using hx
        exact ⟨k, hkd⟩
      · exact ⟨i, by rwa [Function.update_of_ne hne] at hx⟩
    refine ⟨⟨hwf₂, ?_, hslot.root (he.good h hwf₁).root⟩, ⟨j, hslot.lt, by simp [hslot.slots]⟩, ?_⟩
    · intro i i' x y o o' hx hy ho ho'
      obtain ⟨m, hm⟩ := hold i x hx
      obtain ⟨m', hm'⟩ := hold i' y hy
      rw [hslot.dents] at ho ho'
      exact he.keyed h.keyed m m' x y o o' hm hm' ho ho'
    · intro p name hno i x o hx ho
      obtain ⟨m, hm⟩ := hold i x hx
      rw [hslot.dents] at ho
      exact he.noEntry hno m x o hm ho

lemma Good.cacheNew (h : s.Good) (hp : s.Cached p) (hno : s.NoEntry p name) {fs : ℕ} {e : EntryData}
    {b : Bool} (hrun : (s.newDentry fs p name e).2.cacheDentry locals s.next = (b, s')) :
    s'.Good ∧ (b = true → s'.Cached s.next ∧ ∀ n, s'.NoEntry s.next n) := by
  set s₀ := (s.newDentry fs p name e).2 with hs₀
  have hdents₀ : s₀.dents =
      Function.update s.dents s.next (some { inode := s.next, parent := some p, name }) := rfl
  have hwf₀ : s₀.Wf := h.wf.newDentry hp fs name e
  have hne₀ : ∀ i x, s₀.slots i = some x → x ≠ s.next ∧ s₀.dents x = s.dents x := by
    intro i x hx
    obtain ⟨-, hsome⟩ := h.wf.slot i x hx
    obtain ⟨o, ho⟩ := Option.isSome_iff_exists.mp hsome
    have hne : x ≠ s.next := (h.wf.below x o ho).1.ne
    exact ⟨hne, by rw [hdents₀, Function.update_of_ne hne]⟩
  have hkeyed₀ : s₀.Keyed := by
    intro i j x y o o' hx hy ho ho'
    rw [(hne₀ i x hx).2] at ho
    rw [(hne₀ j y hy).2] at ho'
    exact h.keyed i j x y o o' hx hy ho ho'
  have hgood₀ : s₀.Good := ⟨hwf₀, hkeyed₀, h.root⟩
  have hno₀ : s₀.NoEntry p name := by
    intro i x o hx ho
    rw [(hne₀ i x hx).2] at ho
    exact hno i x o hx ho
  have hchild₀ : ∀ n, s₀.NoEntry s.next n := by
    intro n i x o hx ho hparent
    rw [(hne₀ i x hx).2] at ho
    have hcached := h.wf.parent x o _ ho hparent
    obtain ⟨o', ho'⟩ := Option.isSome_iff_exists.mp (hcached.isSome h.wf)
    exact absurd (h.wf.below _ o' ho').1 (lt_irrefl _)
  obtain ⟨s₁, hwf₁, he, hcase⟩ := hwf₀.cacheDentry (d := s.next) locals (by simp [hdents₀])
  rcases hcase with ⟨hfalse, -⟩ | ⟨j, s₂, htrue, hwf₂, hslot⟩
  · obtain ⟨rfl, rfl⟩ : false = b ∧ s₁ = s' := by simpa [hfalse] using hrun
    exact ⟨he.good hgood₀ hwf₁, nofun⟩
  · obtain ⟨rfl, rfl⟩ : true = b ∧ s₂ = s' := by simpa [htrue] using hrun
    have hkey : ∀ i x o, s₁.slots i = some x → s₁.dents x = some o → o.parent = some p →
        o.name ≠ name := he.noEntry hno₀
    have hnew : s₁.dents s.next = some { inode := s.next, parent := some p, name } := by
      rw [(he.kept s.next List.mem_cons_self).1]
      simp [hdents₀]
    have hslots : ∀ i x, s₂.slots i = some x → i = j ∧ x = s.next ∨ s₁.slots i = some x := by
      intro i x hx
      rw [hslot.slots] at hx
      rcases eq_or_ne i j with rfl | hne
      · exact Or.inl ⟨rfl, by simpa using hx.symm⟩
      · exact Or.inr (by rwa [Function.update_of_ne hne] at hx)
    refine ⟨⟨hwf₂, ?_, hslot.root (he.good hgood₀ hwf₁).root⟩,
      fun _ => ⟨⟨j, hslot.lt, by simp [hslot.slots]⟩, ?_⟩⟩
    · intro i i' x y o o' hx hy ho ho' hparent hname
      rw [hslot.dents] at ho ho'
      rcases hslots i x hx with ⟨-, rfl⟩ | hx
      · rcases hslots i' y hy with ⟨-, rfl⟩ | hy
        · rfl
        · obtain rfl : _ = o := by simpa [hnew] using ho
          exact absurd hname.symm (hkey i' y o' hy ho' hparent.symm)
      · rcases hslots i' y hy with ⟨-, rfl⟩ | hy
        · obtain rfl : _ = o' := by simpa [hnew] using ho'
          exact absurd hname (hkey i x o hx ho hparent)
        · exact he.keyed hkeyed₀ i i' x y o o' hx hy ho ho' hparent hname
    · intro n i x o hx ho hparent
      rw [hslot.dents] at ho
      rcases hslots i x hx with ⟨-, rfl⟩ | hx
      · -- the new dentry is not its own parent, which is in the cache already
        obtain rfl : _ = o := by simpa [hnew] using ho
        obtain rfl : p = s.next := by simpa using hparent
        obtain ⟨o', ho'⟩ := Option.isSome_iff_exists.mp (hp.isSome h.wf)
        exact absurd (h.wf.below _ o' ho').1 (lt_irrefl _)
      · exact he.noEntry (hchild₀ n) i x o hx ho hparent

/-! ## Paths -/

lemma Good.release (h : s.Good) (d : ℕ) : (s.release locals d).Good := by
  obtain ⟨hwf, he⟩ := h.wf.release locals d
  exact he.good h hwf

/-- A call that leaves the cache right, and finds dentries in the cache. -/
def Ends (r : Except Fault (Option ℕ × Vfs D)) : Prop :=
  ∀ o s', r = .ok (o, s') → s'.Good ∧ ∀ d, o = some d → s'.Cached d

lemma Good.ends_none (h : s.Good) : Ends (.ok (none, s)) := by
  rintro o s' ⟨⟩
  exact ⟨h, nofun⟩

lemma Good.parentOf (h : s.Good) (hp : s.parentOf d = some p) : s.Cached p := by
  obtain ⟨o, ho, hparent⟩ := Option.bind_eq_some_iff.mp hp
  exact h.wf.parent d o p ho hparent

section Manual

variable {F : FileSystems D} {fs : ℕ} {print : Bool} {t : Name} {ts : List Name}

lemma Good.cached_ends {b : Bool} (h : s.Good)
    (hrest : b = true → Ends (browseManually F fs print locals ts d s)) :
    Ends (match (b, s) with
      | (true, s) => browseManually F fs print locals ts d s
      | (false, s) => if print then .error tooMany else .ok (none, s.release locals d)) := by
  cases b with
  | true => exact hrest rfl
  | false =>
    cases print with
    | true => exact nofun
    | false => exact (h.release d).ends_none

lemma Good.browseName (h : s.Good) (hd : s.Cached d) (hdot : t ≠ Name.dot) (hdots : t ≠ Name.dotDot)
    (hno : s.NoEntry d t) (hrest : ∀ s₁ d₁, s₁.Good → s₁.Cached d₁ → (∀ n, s₁.NoEntry d₁ n) →
      Ends (browseManually F fs print locals ts d₁ s₁)) :
    Ends (browseManually F fs print locals (t :: ts) d s) := by
  unfold browseManually
  by_cases hdir : (s.inodeOf d).type ≠ .dir
  · rw [if_pos hdir]
    exact h.ends_none
  rw [if_neg hdir]
  rcases F.getChildDentry s.disk fs (s.inodeOf d).lba t with _ | e
  · simp only [hdot, hdots, if_false, Option.map_none]
    exact h.ends_none
  · simp only [hdot, hdots, if_false, Option.map_some]
    show Ends (match (s.newDentry fs d t e).2.cacheDentry locals s.next with
      | (true, s₁) => browseManually F fs print locals ts s.next s₁
      | (false, s₁) => if print then .error tooMany else .ok (none, s₁.release locals s.next))
    rcases hrun : (s.newDentry fs d t e).2.cacheDentry locals s.next with ⟨b, s₁⟩
    obtain ⟨hgood, hcached⟩ := h.cacheNew hd hno hrun
    refine hgood.cached_ends fun hb => ?_
    exact hrest s₁ _ hgood (hcached hb).1 (hcached hb).2

lemma Good.browseAgain (h : s.Good) (hd : s.Cached p) (hrest : ∀ s₁, s₁.Good → s₁.Cached p →
      (∀ q n, s.NoEntry q n → s₁.NoEntry q n) → Ends (browseManually F fs print locals ts p s₁)) :
    Ends (match s.cacheDentry locals p with
      | (true, s₁) => browseManually F fs print locals ts p s₁
      | (false, s₁) => if print then .error tooMany else .ok (none, s₁.release locals p)) := by
  rcases hrun : s.cacheDentry locals p with ⟨b, s₁⟩
  obtain ⟨hgood, hcached, hno⟩ := h.cacheAgain hd hrun
  exact hgood.cached_ends fun _ => hrest s₁ hgood hcached hno

/-- What the rest of a path may be: from a directory with nothing in the cache, one that does not
go back to name something; or no names at all. -/
def Onwards (s : Vfs D) (d : ℕ) (ts : List Name) : Prop :=
  ((∀ n, s.NoEntry d n) ∧ NoReturn ts) ∨ ∀ t ∈ ts, t = Name.dot ∨ t = Name.dotDot

lemma Good.browseManually : ∀ {ts : List Name} {d : ℕ} {s : Vfs D}, s.Good → s.Cached d →
    s.Onwards d ts → Ends (Vfs.browseManually F fs print locals ts d s)
  | [], d, s, h, hd, _ => by
      rintro o s' ⟨⟩
      refine ⟨h, ?_⟩
      rintro d' ⟨⟩
      exact hd
  | t :: ts, d, s, h, hd, honwards => by
      by_cases hdot : t = Name.dot
      · subst hdot
        have hnext : ∀ s₁ : Vfs D, (∀ q n, s.NoEntry q n → s₁.NoEntry q n) → s₁.Onwards d ts := by
          intro s₁ hno
          rcases honwards with ⟨hfresh, hreturn⟩ | hdots
          · exact Or.inl ⟨fun n => hno d n (hfresh n), hreturn⟩
          · exact Or.inr fun t' ht' => hdots t' (List.mem_cons_of_mem _ ht')
        unfold Vfs.browseManually
        by_cases hdir : (s.inodeOf d).type ≠ .dir
        · rw [if_pos hdir]
          exact h.ends_none
        · rw [if_neg hdir]
          exact h.browseAgain hd fun s₁ hgood hcached hno =>
            hgood.browseManually hcached (hnext s₁ hno)
      by_cases hdots : t = Name.dotDot
      · subst hdots
        have hnames : ∀ t' ∈ ts, t' = Name.dot ∨ t' = Name.dotDot := by
          rcases honwards with ⟨-, hreturn⟩ | hdots
          · exact hreturn
          · exact fun t' ht' => hdots t' (List.mem_cons_of_mem _ ht')
        unfold Vfs.browseManually
        by_cases hdir : (s.inodeOf d).type ≠ .dir
        · rw [if_pos hdir]
          exact h.ends_none
        rw [if_neg hdir]
        rcases hp : s.parentOf d with _ | p
        · simp only [hdot, if_false, if_true, Option.map_none]
          exact h.ends_none
        · simp only [hdot, if_false, if_true, Option.map_some]
          exact h.browseAgain (h.parentOf hp) fun s₁ hgood hcached _ =>
            hgood.browseManually hcached (Or.inr hnames)
      · rcases honwards with ⟨hfresh, hreturn⟩ | hnames
        · refine h.browseName hd hdot hdots (hfresh t) fun s₁ d₁ hgood hcached hfresh₁ => ?_
          refine hgood.browseManually hcached (Or.inl ⟨hfresh₁, ?_⟩)
          simpa [NoReturn, hdots] using hreturn
        · rcases hnames t List.mem_cons_self with ht | ht
          · exact absurd ht hdot
          · exact absurd ht hdots

end Manual

lemma Good.browseCached (h : s.Good) : ∀ {path : List Name} {d : ℕ}, s.Cached d →
    s.Cached (s.browseCached path d).1 ∧ ∀ t ts, (s.browseCached path d).2 = t :: ts →
      (s.inodeOf (s.browseCached path d).1).type ≠ .dir ∨
      (t ≠ Name.dot ∧ (t = Name.dotDot → s.parentOf (s.browseCached path d).1 = none) ∧
        (t ≠ Name.dotDot → s.NoEntry (s.browseCached path d).1 t))
  | [], d, hd => ⟨hd, nofun⟩
  | t :: ts, d, hd => by
      rcases hnext : (if t = Name.dot then some d else if t = Name.dotDot then s.parentOf d
        else s.getCachedDentry d t) with _ | d'
      · have hstop : s.browseCached (t :: ts) d = (d, t :: ts) := by
          rw [Vfs.browseCached, hnext]
        rw [hstop]
        refine ⟨hd, ?_⟩
        rintro t' ts' ⟨⟩
        right
        split_ifs at hnext with hdot hdots
        · exact ⟨hdot, fun _ => hnext, fun hne => absurd hdots hne⟩
        · exact ⟨hdot, fun heq => absurd heq hdots, fun _ => getCachedDentry_eq_none h.wf hnext⟩
      · have hd' : s.Cached d' := by
          split_ifs at hnext with hdot hdots
          · obtain rfl : d = d' := by simpa using hnext
            exact hd
          · exact h.parentOf hnext
          · exact (getCachedDentry_eq_some hnext).1
        by_cases htype : (s.inodeOf d').type = .dir
        · have hgo : s.browseCached (t :: ts) d = s.browseCached ts d' := by
            rw [Vfs.browseCached, hnext]
            simp [htype]
          rw [hgo]
          exact h.browseCached hd'
        · have hstop : s.browseCached (t :: ts) d = (d', ts) := by
            rw [Vfs.browseCached, hnext]
            simp [htype]
          rw [hstop]
          exact ⟨hd', fun _ _ _ => Or.inl htype⟩

section Calls

variable {F : FileSystems D} {dir path : List Name} {start : ℕ} {print : Bool}

lemma Good.browseTo (h : s.Good) (hstart : s.Cached start) (hok : s.BrowseOk path start) :
    Ends (s.browseTo F path start print locals) := by
  obtain ⟨hcached, hstop⟩ := @Good.browseCached _ _ h path _ hstart
  unfold Vfs.browseTo
  unfold BrowseOk at hok
  rcases hwalk : s.browseCached path start with ⟨d, rest⟩
  rw [hwalk] at hcached hstop hok
  simp only
  rcases (s.inodeOf d).superblock with _ | fs
  · exact h.ends_none
  simp only
  by_cases hfile : rest ≠ [] ∧ (s.inodeOf d).type ≠ .dir
  · rw [if_pos hfile]
    exact h.ends_none
  rw [if_neg hfile]
  cases rest with
  | nil => exact h.browseManually hcached (Or.inr nofun)
  | cons t ts =>
    have hdir : (s.inodeOf d).type = .dir := by
      by_contra hne
      exact hfile ⟨nofun, hne⟩
    rcases hstop t ts rfl with hne | ⟨hdot, hroot, hno⟩
    · exact absurd hdir hne
    by_cases hdots : t = Name.dotDot
    · unfold Vfs.browseManually
      simp only [hdir, ne_eq, not_true_eq_false, if_false, hdots, if_true, hroot hdots,
        Option.map_none]
      exact h.ends_none
    · exact h.browseName hcached hdot hdots (hno hdots) fun s₁ d₁ hgood hcached₁ hfresh =>
        hgood.browseManually hcached₁ (Or.inl ⟨hfresh, hok⟩)

lemma Good.rootDentry (h : s.Good) : s.Cached s.rootDentry := by
  obtain ⟨d, hd⟩ := Option.isSome_iff_exists.mp h.root
  exact ⟨0, by decide, by simp [Vfs.rootDentry, hd]⟩

lemma Good.getFileParentDentry (h : s.Good) (hok : s.BrowseOk dir s.rootDentry) :
    Ends (s.getFileParentDentry F dir name print) := by
  unfold Vfs.getFileParentDentry
  split_ifs
  · exact h.ends_none
  intro o s' hrun
  obtain ⟨⟨parent, s₁⟩, hfind, hrun⟩ := bind_eq_ok.mp hrun
  obtain ⟨hgood, hcached⟩ := h.browseTo h.rootDentry hok parent s₁ hfind
  cases parent with
  | none => exact hgood.ends_none o s' hrun
  | some p =>
    simp only at hrun
    split_ifs at hrun
    · exact hgood.ends_none o s' hrun
    · obtain ⟨rfl, rfl⟩ : some p = o ∧ s₁ = s' := by simpa using hrun
      exact ⟨hgood, hcached⟩

lemma Good.addCreated (h : s.Good) (hp : s.Cached p) (hno : s.NoEntry p name) {fs : ℕ}
    {r : Option EntryData × D} : (s.addCreated fs p name r).2.Good := by
  rcases r with ⟨_ | e, disk⟩
  · exact ⟨⟨h.wf.below, h.wf.parent, h.wf.slot, h.wf.cursor⟩, h.keyed, h.root⟩
  · have hgood : Good { s with disk } :=
      ⟨⟨h.wf.below, h.wf.parent, h.wf.slot, h.wf.cursor⟩, h.keyed, h.root⟩
    exact (hgood.cacheNew (e := e) hp hno rfl).1

lemma Good.touch (h : s.Good)
    (hok : s.CreateOk dir name fun s => s.getFileParentDentry F dir name true) {o : Option ℕ}
    (hrun : s.touch F dir name = .ok (o, s')) : s'.Good := by
  obtain ⟨⟨parent, s₁⟩, hfind, hrun⟩ := bind_eq_ok.mp hrun
  obtain ⟨hgood, hcached⟩ := h.getFileParentDentry hok.1 parent s₁ hfind
  cases parent with
  | none => exact (hgood.ends_none o s' hrun).1
  | some p =>
    simp only at hrun
    rcases hfs : (s₁.inodeOf p).superblock with _ | fs
    · simp [hfs] at hrun
    · have hno := getCachedDentry_eq_none hgood.wf (hok.2 _ hfind p rfl)
      rw [hfs] at hrun
      have hs' : _ = s' := congrArg Prod.snd (Except.ok.inj hrun)
      exact hs' ▸ hgood.addCreated (hcached p rfl) hno

lemma Good.mkdir (h : s.Good)
    (hok : s.CreateOk dir name fun s => s.browseTo F dir s.rootDentry true []) {o : Option ℕ}
    (hrun : s.mkdir F dir name = .ok (o, s')) : s'.Good := by
  obtain ⟨⟨parent, s₁⟩, hfind, hrun⟩ := bind_eq_ok.mp hrun
  obtain ⟨hgood, hcached⟩ := h.browseTo h.rootDentry hok.1 parent s₁ hfind
  cases parent with
  | none => exact (hgood.ends_none o s' hrun).1
  | some p =>
    simp only at hrun
    split_ifs at hrun
    · exact (hgood.ends_none o s' hrun).1
    rcases hfs : (s₁.inodeOf p).superblock with _ | fs
    · simp [hfs] at hrun
    · have hno := getCachedDentry_eq_none hgood.wf (hok.2 _ hfind p rfl)
      rw [hfs] at hrun
      have hs' : _ = s' := congrArg Prod.snd (Except.ok.inj hrun)
      exact hs' ▸ hgood.addCreated (hcached p rfl) hno

lemma browseOk_singleton {t : Name} : s.BrowseOk [t] d := by
  unfold BrowseOk
  have hrest : (s.browseCached [t] d).2.tail = [] := by
    unfold Vfs.browseCached
    split
    · rfl
    · split_ifs
      · rfl
      · rfl
  rw [hrest]
  trivial

lemma Good.getFileDentry (h : s.Good) (hok : s.BrowseOk dir s.rootDentry) :
    Ends (s.getFileDentry F dir name) := by
  intro o s' hrun
  obtain ⟨⟨parent, s₁⟩, hfind, hrun⟩ := bind_eq_ok.mp hrun
  obtain ⟨hgood, hcached⟩ := h.getFileParentDentry hok parent s₁ hfind
  cases parent with
  | none => exact hgood.ends_none o s' hrun
  | some p =>
    refine hgood.browseTo (hcached p rfl) ?_ o s' hrun
    exact browseOk_singleton

lemma Good.resize (h : s.Good) {newSize : ℕ} {b : Bool} (hrun : s.resize F d newSize = .ok (b, s')) :
    s'.Good := by
  unfold Vfs.resize at hrun
  rcases hd : s.dents d with _ | o
  · simp [hd] at hrun
  rcases hfs : (s.inodeOf d).superblock with _ | fs
  · simp [hd, hfs] at hrun
  rcases hp : o.parent with _ | p
  · simp [hd, hfs, hp] at hrun
  · simp only [hd, hfs, hp] at hrun
    have hs' : _ = s' := congrArg Prod.snd (Except.ok.inj hrun)
    rw [← hs']
    split_ifs
    · exact ⟨⟨h.wf.below, h.wf.parent, h.wf.slot, h.wf.cursor⟩, h.keyed, h.root⟩
    · exact ⟨⟨h.wf.below, h.wf.parent, h.wf.slot, h.wf.cursor⟩, h.keyed, h.root⟩

lemma Good.setHeld (h : s.Good) (held : List ℕ) : Good { s with held } :=
  ⟨⟨h.wf.below, h.wf.parent, h.wf.slot, h.wf.cursor⟩, h.keyed, h.root⟩

lemma Good.drop {o : Option ℕ} (h : s.Good) : (Vfs.drop (o, s)).Good := by
  cases o with
  | none => exact h
  | some d => exact h.release d

lemma Good.openFile (h : s.Good) {creat trunc : Bool}
    (hok : s.KeepsKeyed F (.openFile dir name creat trunc)) {o : Option ℕ}
    (hrun : s.openFile F dir name creat trunc = .ok (o, s')) : s'.Good := by
  obtain ⟨⟨dentry, s₂⟩, hfind, hrun⟩ := bind_eq_ok.mp hrun
  have hgood₂ : s₂.Good := by
    obtain ⟨⟨found, s₁⟩, hfind, hcreate⟩ := bind_eq_ok.mp hfind
    obtain ⟨hgood₁, -⟩ := h.getFileDentry hok.1 found s₁ hfind
    cases found with
    | some d =>
      obtain ⟨-, rfl⟩ : some d = dentry ∧ s₁ = s₂ := by simpa using hcreate
      exact hgood₁
    | none =>
      simp only at hcreate
      split_ifs at hcreate with hcreat
      · exact hgood₁.touch (hok.2 hcreat _ hfind rfl) hcreate
      · obtain ⟨-, rfl⟩ : none = dentry ∧ s₁ = s₂ := by simpa using hcreate
        exact hgood₁
  cases dentry with
  | none =>
    obtain ⟨-, rfl⟩ : none = o ∧ s₂ = s' := by simpa using hrun
    exact hgood₂
  | some d =>
    simp only at hrun
    split_ifs at hrun with hdir htrunc
    · obtain ⟨-, rfl⟩ : none = o ∧ _ = s' := by simpa using hrun
      exact hgood₂.release d
    · obtain ⟨⟨b, s₃⟩, hresize, hrun⟩ := bind_eq_ok.mp hrun
      obtain ⟨-, rfl⟩ : some d = o ∧ s₃ = s' := by simpa using hrun
      exact (hgood₂.setHeld _).resize hresize
    · obtain ⟨-, rfl⟩ : some d = o ∧ _ = s' := by simpa using hrun
      exact hgood₂.setHeld _

lemma Good.step {op : VfsOp} (h : s.Good) (hok : s.KeepsKeyed F op) (hrun : s.step F op = .ok s') :
    s'.Good := by
  cases op with
  | browseTo path =>
    obtain ⟨⟨o, s₁⟩, hfind, rfl⟩ := map_eq_ok.mp hrun
    exact (h.browseTo h.rootDentry hok o s₁ hfind).1.drop
  | addToPath path =>
    obtain ⟨⟨o, s₁⟩, hfind, hrun⟩ := bind_eq_ok.mp hrun
    have hgood := (h.browseTo h.rootDentry hok o s₁ hfind).1
    cases o with
    | none =>
      obtain rfl : s₁ = s' := by simpa using hrun
      exact hgood
    | some d =>
      simp only at hrun
      split_ifs at hrun
      · obtain rfl : _ = s' := by simpa using hrun
        exact hgood.release d
      · obtain rfl : _ = s' := by simpa using hrun
        exact hgood.setHeld _
  | touch dir fileName =>
    obtain ⟨⟨o, s₁⟩, htouch, rfl⟩ := map_eq_ok.mp hrun
    exact (h.touch hok htouch).drop
  | mkdir dir dirName =>
    obtain ⟨⟨o, s₁⟩, hmkdir, rfl⟩ := map_eq_ok.mp hrun
    exact (h.mkdir hok hmkdir).drop
  | openFile dir fileName creat trunc =>
    obtain ⟨⟨o, s₁⟩, hopen, rfl⟩ := map_eq_ok.mp hrun
    exact h.openFile hok hopen
  | closeFile d =>
    obtain rfl : _ = s' := by simpa [Vfs.step] using hrun
    exact (h.setHeld _).release d
  | resize d newSize =>
    obtain ⟨⟨b, s₁⟩, hresize, rfl⟩ := map_eq_ok.mp hrun
    exact h.resize hresize
  | evict =>
    obtain rfl : _ = s' := by simpa [Vfs.step] using hrun
    obtain ⟨hwf, he⟩ := h.wf.freeUnused (s := s)
    exact he.good h hwf

end Calls

/-! ## Runs -/

lemma boot_dents (disk : D) (roots : List ℕ) (d : ℕ) (o : Dentry)
    (hd : (boot disk roots).dents d = some o) : d < 2 + roots.length ∧
      (d = 0 ∧ o = { inode := 0, parent := none, name := [47] } ∨
        d = 1 ∧ o = { inode := 1, parent := some 0, name := Name.mnt } ∨
        2 ≤ d ∧ o = mountDentry d) := by
  simp only [boot] at hd
  split_ifs at hd with h0 h1 h2
  · exact ⟨by omega, Or.inl ⟨h0, (Option.some.inj hd).symm⟩⟩
  · exact ⟨by omega, Or.inr (Or.inl ⟨h1, (Option.some.inj hd).symm⟩)⟩
  · exact ⟨h2, Or.inr (Or.inr ⟨by omega, (Option.some.inj hd).symm⟩)⟩

lemma good_boot (disk : D) {roots : List ℕ} (hroots : roots.length < 10) : (boot disk roots).Good := by
  have hmax : 2 + roots.length < maxDentries := lt_of_lt_of_le (by omega) (show 12 ≤ maxDentries by decide)
  have hslot : ∀ i d, (boot disk roots).slots i = some d → i < 2 + roots.length ∧ d = i := by
    intro i d hd
    simp only [boot, Option.ite_none_right_eq_some, Option.some.injEq] at hd
    exact ⟨hd.1, hd.2.symm⟩
  have hcached : ∀ d < 2 + roots.length, (boot disk roots).Cached d := by
    intro d hd
    exact ⟨d, lt_trans hd hmax, if_pos hd⟩
  have hdents := boot_dents disk roots
  refine ⟨⟨?_, ?_, ?_, le_of_lt hmax, fun _ => if_neg (lt_irrefl _)⟩, ?_, by simp [boot]⟩
  · intro d o hd
    obtain ⟨hlt, ⟨rfl, rfl⟩ | ⟨rfl, rfl⟩ | ⟨h2, rfl⟩⟩ := hdents d o hd
    · exact ⟨hlt, hlt⟩
    · exact ⟨hlt, hlt⟩
    · refine ⟨hlt, ?_⟩
      show (if d = 2 then 0 else d) < 2 + roots.length
      split_ifs
      · omega
      · exact hlt
  · intro d o p hd hp
    obtain ⟨hlt, ⟨rfl, rfl⟩ | ⟨rfl, rfl⟩ | ⟨h2, rfl⟩⟩ := hdents d o hd
    · cases hp
    · obtain rfl : 0 = p := by simpa using hp
      exact hcached 0 (by omega)
    · obtain rfl : 1 = p := by simpa [mountDentry] using hp
      exact hcached 1 (by omega)
  · intro i d hd
    obtain ⟨hi, rfl⟩ := hslot i d hd
    refine ⟨lt_trans hi hmax, ?_⟩
    simp only [boot]
    split_ifs
    all_goals rfl
  · intro i j d e o o' _ _ hd he hparent hname
    obtain ⟨hlt, ⟨rfl, rfl⟩ | ⟨rfl, rfl⟩ | ⟨h2, rfl⟩⟩ := hdents d o hd
    · obtain ⟨-, ⟨rfl, -⟩ | ⟨-, rfl⟩ | ⟨-, rfl⟩⟩ := hdents e o' he
      · rfl
      · cases hparent
      · cases hparent
    · obtain ⟨-, ⟨-, rfl⟩ | ⟨rfl, -⟩ | ⟨-, rfl⟩⟩ := hdents e o' he
      · cases hparent
      · rfl
      · simp [mountDentry] at hparent
    · obtain ⟨hlt', ⟨-, rfl⟩ | ⟨-, rfl⟩ | ⟨h2', rfl⟩⟩ := hdents e o' he
      · cases hparent
      · simp [mountDentry] at hparent
      · have hname : (49 + UInt8.ofNat (d - 2)).toNat = (49 + UInt8.ofNat (e - 2)).toNat := by
          simpa [mountDentry] using congrArg (List.map UInt8.toNat) hname
        simp only [UInt8.toNat_add, UInt8.toNat_ofNat', UInt8.reduceToNat] at hname
        omega

instance decidableNoReturn : DecidablePred NoReturn
  | [] => isTrue trivial
  | t :: ts =>
      have := decidableNoReturn ts
      inferInstanceAs (Decidable (if t = Name.dotDot then
        ∀ t' ∈ ts, t' = Name.dot ∨ t' = Name.dotDot else NoReturn ts))

instance decidableBrowseOk (s : Vfs D) (path : List Name) (start : ℕ) :
    Decidable (s.BrowseOk path start) :=
  decidableNoReturn _

instance decidableCreateOk (s : Vfs D) (dir : List Name) (name : Name)
    (find : Vfs D → Except Fault (Option ℕ × Vfs D)) : Decidable (s.CreateOk dir name find) :=
  inferInstanceAs (Decidable (_ ∧ ∀ r, find s = .ok r → ∀ p ∈ r.1, r.2.getCachedDentry p name = none))

instance decidableKeepsKeyed (F : FileSystems D) (s : Vfs D) : DecidablePred (s.KeepsKeyed F)
  | .browseTo path | .addToPath path => s.decidableBrowseOk path s.rootDentry
  | .touch dir fileName => s.decidableCreateOk dir fileName _
  | .mkdir dir dirName => s.decidableCreateOk dir dirName _
  | .openFile dir fileName creat _ =>
      inferInstanceAs (Decidable (_ ∧ (creat = true → ∀ r, s.getFileDentry F dir fileName = .ok r →
        r.1 = none → r.2.CreateOk dir fileName fun s => s.getFileParentDentry F dir fileName true)))
  | .closeFile _ | .resize _ _ | .evict => isTrue trivial

/-- In every run from what `VFS::init` makes, dentries in the cache with the same parent and name have
the same inode, as long as nothing is created under a name that is in the cache, and no path goes back
to a directory to name something there once it left the cache. -/
theorem one_inode (F : FileSystems D) (disk : D) (roots : List ℕ) (hroots : roots.length < 10)
    (ops : List VfsOp) (h : EachCall (step F) (KeepsKeyed F) ops (boot disk roots)) :
    EachCall (step F) (After (step F) OneInode) ops (boot disk roots) := by
  have hgood : EachCall (step F) (After (step F) Good) ops (boot disk roots) :=
    EachCall.invariant (fun s op s' hs hok hrun => Good.step hs hok hrun) (good_boot disk hroots) h
  refine hgood.imp ?_
  intro s op hafter
  unfold After at hafter ⊢
  split at hafter
  · exact hafter.keyed.oneInode
  · trivial

/-- A file system whose files are in one directory and empty, with the names of its files for a disk.
As in the FAT driver, `touch` makes a dentry for a name that exists as well. -/
def flatFiles : FileSystems (List Name) where
  getChildDentry disk _ _ name := if name ∈ disk then some ⟨.file, 0, 0⟩ else none
  touch disk _ _ name := (some ⟨.file, 0, 0⟩, if name ∈ disk then disk else name :: disk)
  mkdir disk _ _ _ := (none, disk)
  resize disk _ _ _ _ _ := (true, disk)

/-- A file is made and opened twice, resized, and looked up; another one is made by opening it. -/
theorem one_inode_flatFiles :
    EachCall (step flatFiles) (KeepsKeyed flatFiles) [.touch [] [97], .openFile [] [97] false false,
        .openFile [[109, 110, 116], [49]] [98] true false, .resize 3 600, .browseTo [[97]], .evict,
        .closeFile 3] (boot [] [2]) ∧
      EachCall (step flatFiles) (After (step flatFiles) OneInode) [.touch [] [97],
        .openFile [] [97] false false, .openFile [[109, 110, 116], [49]] [98] true false,
        .resize 3 600, .browseTo [[97]], .evict, .closeFile 3] (boot [] [2]) :=
  have hok : EachCall (step flatFiles) (KeepsKeyed flatFiles) [.touch [] [97],
      .openFile [] [97] false false, .openFile [[109, 110, 116], [49]] [98] true false,
      .resize 3 600, .browseTo [[97]], .evict, .closeFile 3] (boot [] [2]) := by
    decide +kernel
  ⟨hok, one_inode flatFiles [] [2] (by decide) _ hok⟩

/-- A file made twice has two dentries in the cache, with an inode each. -/
theorem two_inodes_touch : ¬ EachCall (step flatFiles) (After (step flatFiles) OneInode)
    [.touch [] [97], .touch [] [97]] (boot [] [2]) := by
  intro h
  have hstart : OneInode (boot [] [2] : Vfs (List Name)) :=
    (good_boot [] (by decide)).keyed.oneInode
  have hcontra : ∀ s', [VfsOp.touch [] [97], .touch [] [97]].foldlM (step flatFiles) (boot [] [2]) =
      .ok s' → s'.slots 3 = some 3 ∧ s'.slots 4 = some 4 ∧
        s'.dents 3 = some { inode := 3, parent := some 0, name := [97] } ∧
        s'.dents 4 = some { inode := 4, parent := some 0, name := [97] } := by
    decide +kernel
  obtain ⟨s', hs'⟩ : ∃ s', [VfsOp.touch [] [97], .touch [] [97]].foldlM (step flatFiles)
      (boot [] [2]) = .ok s' := ⟨_, rfl⟩
  obtain ⟨hslot, hslot', hdent, hdent'⟩ := hcontra s' hs'
  have hinode := h.reached hstart s' hs' 3 4 3 4 _ _ hslot hslot' hdent hdent' rfl rfl
  cases hinode

end Vfs

end BrebOS

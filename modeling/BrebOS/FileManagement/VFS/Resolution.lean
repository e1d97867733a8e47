import BrebOS.FileManagement.VFS.Inodes

/-!
# What a path stands for

A path stands for a place in the tree that the file systems and the mount points form: `Tree.resolve`
says which.  `browse_to` finds it from any cache that is right, as long as the path does not leave the
file system in which it left the cache: there `browse_to` goes on with one file system, and does not
see mount points.
-/

namespace BrebOS

/-- An inode, as far as paths are concerned. -/
structure Node where
  superblock : Option ℕ
  lba : ℕ
  type : InodeType
  deriving DecidableEq, Repr

def Inode.node (i : Inode) : Node := ⟨i.superblock, i.lba, i.type⟩

/-- The file systems and where they are mounted. -/
structure Tree where
  child : ℕ → ℕ → Name → Option EntryData
  root : Node
  mounts : Name → Option Node
  root_dir : root.type = .dir
  root_disk : root.superblock ≠ none
  mounts_disk : ∀ t n, mounts t = some n → n.superblock ≠ none

namespace Tree

/-- `/mnt`. -/
def mnt : Node := ⟨none, 0, .dir⟩

/-- One component, from a place: the nodes from there up to the root. -/
def step (T : Tree) (t : Name) (p : List Node) : Option (List Node) :=
  if t = Name.dot then some p
  else match p with
    | [] => none
    | n :: q =>
      if t = Name.dotDot then if q = [] then none else some q
      else match n.superblock with
        | none => (T.mounts t).map (· :: n :: q)
        | some fs =>
          if q = [] ∧ t = Name.mnt then some (mnt :: n :: q)
          else (T.child fs n.lba t).map fun e => ⟨some fs, e.lba, e.type⟩ :: n :: q

/-- The place of a path.  Only a directory has something in it, and `/mnt` is no place to end at. -/
def resolve (T : Tree) : List Name → List Node → Option (List Node)
  | [], p => if p.head?.bind Node.superblock = none then none else some p
  | t :: ts, p =>
    if p.head?.map Node.type = some .dir then (T.step t p).bind (T.resolve ts) else none

/-- The path stays in the file system it is in: it does not go up from a mount point, and not from
the root to `/mnt`. -/
def Stays (T : Tree) : List Name → List Node → Prop
  | [], _ => True
  | t :: ts, p =>
    (t = Name.dotDot → p.tail.head?.map Node.superblock ≠ some none) ∧
      (t = Name.mnt → p.tail ≠ []) ∧ ∀ p', T.step t p = some p' → T.Stays ts p'

/-- From the first component on that may have to be read from a disk the path stays where it is. -/
def PathOk (T : Tree) : List Name → List Node → Prop
  | [], _ => True
  | t :: ts, p =>
    if t = Name.dot ∨ t = Name.dotDot ∨ p.head?.map Node.superblock = some none ∨
        (p.tail = [] ∧ t = Name.mnt) then
      ∀ p', T.step t p = some p' → T.PathOk ts p'
    else T.Stays (t :: ts) p

/-- How a name leads to the first node of a place. -/
def Right (T : Tree) (name : Name) : List Node → Prop
  | [] => False
  | [n] => n = T.root
  | n :: q => name ≠ Name.dot ∧ name ≠ Name.dotDot ∧ T.step name q = some (n :: q) ∧
      q.head?.map Node.type = some .dir

lemma Stays.pathOk {T : Tree} : ∀ {ts : List Name} {p : List Node}, T.Stays ts p → T.PathOk ts p
  | [], _, _ => trivial
  | t :: ts, p, h => by
      rw [PathOk]
      split_ifs
      · intro p' hp'
        exact (h.2.2 p' hp').pathOk
      · exact h

lemma stays_of_names {T : Tree} : ∀ {ts : List Name} {p : List Node},
    (∀ t ∈ ts, t ≠ Name.dotDot ∧ t ≠ Name.mnt) → T.Stays ts p
  | [], _, _ => trivial
  | t :: ts, p, h => by
      obtain ⟨hdots, hmnt⟩ := h t List.mem_cons_self
      refine ⟨fun ht => absurd ht hdots, fun ht => absurd ht hmnt, ?_⟩
      intro p' _
      exact stays_of_names fun t' ht' => h t' (List.mem_cons_of_mem _ ht')

lemma PathOk.tail {T : Tree} {t : Name} {ts : List Name} {p p' : List Node} (h : T.PathOk (t :: ts) p)
    (hp' : T.step t p = some p') : T.PathOk ts p' := by
  rw [PathOk] at h
  split_ifs at h
  · exact h p' hp'
  · exact (h.2.2 p' hp').pathOk

end Tree

namespace Vfs

variable {D : Type} {s s' : Vfs D} {d x i : ℕ} {locals : List ℕ} {T : Tree} {p q : List Node}
  {n : Node} {o : Dentry} {t : Name} {ts path rest : List Name} {fs : ℕ} {F : FileSystems D}

/-- The place of a dentry: its node, and those of its parents. -/
def Denotes (s : Vfs D) : ℕ → List Node → Prop
  | _, [] => False
  | d, n :: q => ∃ o, s.dents d = some o ∧ (s.inodes o.inode).node = n ∧
      match q with
      | [] => o.parent = none
      | _ :: _ => ∃ x, o.parent = some x ∧ s.Denotes x q

/-- Every dentry is where its name leads. -/
structure Sound (T : Tree) (s : Vfs D) : Prop where
  wf : s.Wf
  right : ∀ d o, s.dents d = some o → ∃ p, s.Denotes d p ∧ T.Right o.name p

/-- The cache is right, and the root, `/mnt` and the mount points are in it. -/
structure Consistent (T : Tree) (s : Vfs D) : Prop extends Sound T s where
  root : s.Denotes s.rootDentry [T.root]
  rootSlot : (s.slots 0).isSome
  mnt : ∀ d, s.Denotes d [T.root] → (s.getCachedDentry d Name.mnt).isSome
  mounts : ∀ d t, s.Denotes d [Tree.mnt, T.root] → (T.mounts t).isSome →
    (s.getCachedDentry d t).isSome

lemma Denotes.unique : ∀ {p q : List Node} {d : ℕ}, s.Denotes d p → s.Denotes d q → p = q
  | [], _, _, hp, _ => hp.elim
  | _ :: _, [], _, _, hq => hq.elim
  | [n], [m], d, ⟨o, ho, hn, _⟩, ⟨o', ho', hm, _⟩ => by
      obtain rfl : o = o' := by simpa [ho] using ho'
      rw [← hn, ← hm]
  | [n], m :: m' :: q, d, ⟨o, ho, _, hroot⟩, ⟨o', ho', _, x, hx, _⟩ => by
      obtain rfl : o = o' := by simpa [ho] using ho'
      have hroot : o.parent = none := hroot
      rw [hroot] at hx
      cases hx
  | n :: n' :: p, [m], d, ⟨o, ho, _, x, hx, _⟩, ⟨o', ho', _, hroot⟩ => by
      obtain rfl : o = o' := by simpa [ho] using ho'
      have hroot : o.parent = none := hroot
      rw [hroot] at hx
      cases hx
  | n :: n' :: p, m :: m' :: q, d, ⟨o, ho, hn, x, hx, hp⟩, ⟨o', ho', hm, y, hy, hq⟩ => by
      obtain rfl : o = o' := by simpa [ho] using ho'
      obtain rfl : x = y := by simpa [hx] using hy
      rw [← hn, ← hm, hp.unique hq]

lemma Denotes.inodeOf (h : s.Denotes d (n :: q)) : (s.inodeOf d).node = n := by
  obtain ⟨o, ho, hn, -⟩ := h
  simp only [Vfs.inodeOf, ho, hn]

lemma Denotes.parentOf (h : s.Denotes d (n :: q)) :
    (q = [] ∧ s.parentOf d = none) ∨ ∃ x, q ≠ [] ∧ s.parentOf d = some x ∧ s.Denotes x q := by
  obtain ⟨o, ho, -, hrest⟩ := h
  cases q with
  | nil => exact Or.inl ⟨rfl, by simpa [Vfs.parentOf, ho] using hrest⟩
  | cons m q =>
    obtain ⟨x, hx, hd⟩ := hrest
    exact Or.inr ⟨x, List.cons_ne_nil m q, by simpa [Vfs.parentOf, ho] using hx, hd⟩

lemma Denotes.congr (hdents : s'.dents = s.dents) (hinodes : s'.inodes = s.inodes) :
    ∀ {p : List Node} {d : ℕ}, s.Denotes d p → s'.Denotes d p
  | [], _, h => h
  | [_], _, ⟨o, ho, hn, hroot⟩ => ⟨o, hdents ▸ ho, hinodes ▸ hn, hroot⟩
  | _ :: _ :: _, _, ⟨o, ho, hn, x, hx, hp⟩ =>
      ⟨o, hdents ▸ ho, hinodes ▸ hn, x, hx, hp.congr hdents hinodes⟩

lemma Denotes.evicts (he : Evicts locals s s') (hwf : s'.Wf) : ∀ {p : List Node} {d : ℕ},
    s.Denotes d p → (s'.dents d).isSome → s'.Denotes d p
  | [], _, h, _ => h
  | n :: p, d, ⟨o, ho, hn, hrest⟩, hsome => by
      obtain ⟨o', ho'⟩ := Option.isSome_iff_exists.mp hsome
      obtain rfl : o = o' := by simpa [ho] using he.dents d o' ho'
      refine ⟨o, ho', by rw [he.inodes]; exact hn, ?_⟩
      cases p with
      | nil => exact hrest
      | cons m p =>
        obtain ⟨x, hx, hp⟩ := hrest
        exact ⟨x, hx, hp.evicts he hwf ((hwf.parent d o x ho' hx).isSome hwf)⟩

lemma Sound.evicts (h : Sound T s) (he : Evicts locals s s') (hwf : s'.Wf) : Sound T s' := by
  refine ⟨hwf, ?_⟩
  intro d o ho
  obtain ⟨p, hp, hright⟩ := h.right d o (he.dents d o ho)
  exact ⟨p, hp.evicts he hwf (by simp [ho]), hright⟩

lemma Sound.congr (h : Sound T s) (hwf : s'.Wf) (hdents : s'.dents = s.dents)
    (hinodes : s'.inodes = s.inodes) : Sound T s' := by
  refine ⟨hwf, ?_⟩
  intro d o ho
  obtain ⟨p, hp, hright⟩ := h.right d o (hdents ▸ ho)
  exact ⟨p, hp.congr hdents hinodes, hright⟩

/-! ## The walk through the cache -/

lemma Sound.step_eq (h : Sound T s) (ho : s.dents x = some o) (hparent : o.parent = some d)
    (hd : s.Denotes d p) : ∃ n, s.Denotes x (n :: p) ∧ T.step o.name p = some (n :: p) := by
  obtain ⟨p', hp', hright⟩ := h.right x o ho
  cases p' with
  | nil => exact hp'.elim
  | cons n q =>
    refine ⟨n, ?_⟩
    obtain ⟨-, hnone⟩ | ⟨y, hne, hy, hq⟩ := hp'.parentOf
    · simp [Vfs.parentOf, ho, hparent] at hnone
    · obtain rfl : d = y := by simpa [Vfs.parentOf, ho, hparent] using hy
      obtain rfl := hq.unique hd
      cases q with
      | nil => exact absurd rfl hne
      | cons m q => exact ⟨hp', hright.2.2.1⟩

lemma Sound.virtual (h : Sound T s) (hd : s.Denotes d (n :: q)) (hn : n.superblock = none) :
    n = Tree.mnt ∧ q = [T.root] := by
  obtain ⟨o, ho, -⟩ := id hd
  obtain ⟨p', hp', hright⟩ := h.right d o ho
  obtain rfl := hp'.unique hd
  cases q with
  | nil =>
    have hroot : n = T.root := hright
    exact absurd (hroot ▸ hn) T.root_disk
  | cons m q =>
    obtain ⟨hdot, hdots, hstep, -⟩ := hright
    simp only [Tree.step, if_neg hdot, if_neg hdots] at hstep
    split at hstep
    · obtain ⟨k, hk, heq⟩ := Option.map_eq_some_iff.mp hstep
      obtain rfl : k = n := by simpa using heq
      exact absurd hn (T.mounts_disk _ _ hk)
    · split_ifs at hstep with hmnt
      · obtain ⟨rfl, hname⟩ := hmnt
        obtain rfl : Tree.mnt = n := by simpa using hstep
        refine ⟨rfl, ?_⟩
        obtain ⟨hnil, -⟩ | ⟨y, -, -, hy⟩ := hp'.parentOf
        · cases hnil
        · obtain ⟨o', ho', -⟩ := id hy
          obtain ⟨q', hq', hright'⟩ := h.right y o' ho'
          obtain rfl := hq'.unique hy
          have hm : m = T.root := hright'
          rw [hm]
      · obtain ⟨e, -, heq⟩ := Option.map_eq_some_iff.mp hstep
        rw [← (List.cons.inj heq).1] at hn
        cases hn

lemma Sound.lookup (h : Sound T s) (hd : s.Denotes d p)
    (hx : (if t = Name.dot then some d else if t = Name.dotDot then s.parentOf d
      else s.getCachedDentry d t) = some x) :
    ∃ p', s.Denotes x p' ∧ T.step t p = some p' ∧ (s.Cached d → s.Cached x) := by
  cases p with
  | nil => exact hd.elim
  | cons n q =>
    split_ifs at hx with hdot hdots
    · obtain rfl : d = x := by simpa using hx
      exact ⟨n :: q, hd, by simp [Tree.step, hdot], id⟩
    · obtain ⟨-, hnone⟩ | ⟨y, hne, hy, hq⟩ := hd.parentOf
      · simp [hnone] at hx
      · obtain rfl : y = x := by simpa [hy] using hx
        refine ⟨q, hq, by simp [Tree.step, hdots, hne, Name.dot, Name.dotDot], ?_⟩
        intro _
        obtain ⟨o, ho, hparent⟩ := Option.bind_eq_some_iff.mp hy
        exact h.wf.parent d o y ho hparent
    · obtain ⟨hcached, o, ho, hparent, rfl⟩ := getCachedDentry_eq_some hx
      obtain ⟨n', hx', hstep⟩ := h.step_eq ho hparent hd
      exact ⟨n' :: n :: q, hx', hstep, fun _ => hcached⟩

/-- Where the walk through the cache stops. -/
structure Stop (T : Tree) (s : Vfs D) (path : List Name) (p : List Node) (d : ℕ) (rest : List Name)
    (p' : List Node) : Prop where
  denotes : s.Denotes d p'
  cached : s.Cached d
  resolve : T.resolve path p = T.resolve rest p'
  room : rest.length ≤ path.length
  /-- From `/mnt` there is nowhere to go that is not cached. -/
  virtual : (s.inodeOf d).type = .dir → (s.inodeOf d).superblock = none → T.resolve rest p' = none
  stays : (s.inodeOf d).type = .dir → T.Stays rest p' ∨ (s.inodeOf d).superblock = none

lemma Consistent.stays (h : Consistent T s) (hd : s.Denotes d p) (hok : T.PathOk (t :: ts) p)
    (hx : (if t = Name.dot then some d else if t = Name.dotDot then s.parentOf d
      else s.getCachedDentry d t) = none) :
    ((s.inodeOf d).superblock = none → T.resolve (t :: ts) p = none) ∧
      (T.Stays (t :: ts) p ∨ (s.inodeOf d).superblock = none) := by
  cases p with
  | nil => exact hd.elim
  | cons n q =>
    have hnode := hd.inodeOf
    split_ifs at hx with hdot hdots
    · obtain ⟨rfl, -⟩ | ⟨y, -, hy, -⟩ := hd.parentOf
      · subst hdots
        have hnone : T.step Name.dotDot [n] = none := by simp [Tree.step, Name.dotDot, Name.dot]
        refine ⟨?_, Or.inl ⟨by simp, by simp [Name.dotDot, Name.mnt], ?_⟩⟩
        · intro _
          simp [Tree.resolve, hnone]
        · intro p' hp'
          rw [hnone] at hp'
          cases hp'
      · simp [hy] at hx
    · rcases hsuper : n.superblock with _ | fs
      · obtain ⟨rfl, rfl⟩ := h.toSound.virtual hd hsuper
        have hmount : T.mounts t = none := by
          by_contra hne
          have := h.mounts d t hd (Option.ne_none_iff_isSome.mp hne)
          simp [hx] at this
        refine ⟨?_, Or.inr ?_⟩
        · intro _
          simp [Tree.resolve, Tree.step, hdot, hdots, hmount, Tree.mnt]
        · rw [← hsuper, ← hnode]
          rfl
      · have hnot : ¬ (t = Name.dot ∨ t = Name.dotDot ∨ (n :: q).head?.map Node.superblock = some none ∨
            ((n :: q).tail = [] ∧ t = Name.mnt)) := by
          rintro (hd' | hd' | hd' | ⟨hq, rfl⟩)
          · exact hdot hd'
          · exact hdots hd'
          · simp [hsuper] at hd'
          · have hq : q = [] := hq
            subst hq
            obtain ⟨o, ho, -⟩ := id hd
            obtain ⟨p', hp', hright⟩ := h.right d o ho
            obtain rfl := hp'.unique hd
            obtain rfl : n = T.root := hright
            have := h.mnt d hd
            simp [hx] at this
        rw [Tree.PathOk, if_neg hnot] at hok
        refine ⟨?_, Or.inl hok⟩
        intro hnone
        have hnone : n.superblock = none := by
          rw [← hnode]
          exact hnone
        rw [hnone] at hsuper
        cases hsuper

lemma Consistent.browseCached (h : Consistent T s) : ∀ {path : List Name} {d : ℕ} {p : List Node},
    s.Denotes d p → s.Cached d → (s.inodeOf d).type = .dir → T.PathOk path p →
    ∃ p', Stop T s path p (s.browseCached path d).1 (s.browseCached path d).2 p'
  | [], d, p, hd, hc, _, _ => by
      refine ⟨p, hd, hc, rfl, le_rfl, ?_, fun _ => Or.inl trivial⟩
      intro _ hnone
      cases p with
      | nil => exact hd.elim
      | cons n q =>
        have hnone : n.superblock = none := by
          rw [← hd.inodeOf]
          exact hnone
        exact if_pos hnone
  | t :: ts, d, p, hd, hc, hdir, hok => by
      rw [Vfs.browseCached]
      have hhead : p.head?.map Node.type = some .dir := by
        cases p with
        | nil => exact hd.elim
        | cons n q =>
          rw [← hdir, ← hd.inodeOf]
          rfl
      split
      · case h_1 hx =>
        obtain ⟨hvirtual, hstays⟩ := h.stays hd hok hx
        exact ⟨p, hd, hc, rfl, le_rfl, fun _ => hvirtual, fun _ => hstays⟩
      · case h_2 x hx =>
        obtain ⟨p', hp', hstep, hcached⟩ := h.toSound.lookup hd hx
        have hresolve : T.resolve (t :: ts) p = T.resolve ts p' := by
          simp [Tree.resolve, hhead, hstep]
        split_ifs with htype
        · exact ⟨p', hp', hcached hc, hresolve, Nat.le_succ _, fun hdir' => absurd hdir' htype,
            fun hdir' => absurd hdir' htype⟩
        · obtain ⟨p'', hstop⟩ := h.browseCached hp' (hcached hc) (not_not.mp htype) (hok.tail hstep)
          exact ⟨p'', hstop.denotes, hstop.cached, hresolve.trans hstop.resolve,
            hstop.room.trans (Nat.le_succ _), hstop.virtual, hstop.stays⟩

/-! ## The walk on the disk -/

lemma Sound.superblock_tail (h : Sound T s) {m : Node} (hd : s.Denotes d (n :: m :: q))
    (hn : n.superblock = some fs) (hm : m.superblock ≠ none) : m.superblock = some fs := by
  obtain ⟨o, ho, -⟩ := id hd
  obtain ⟨p', hp', hright⟩ := h.right d o ho
  obtain rfl := hp'.unique hd
  obtain ⟨hdot, hdots, hstep, -⟩ := hright
  simp only [Tree.step, if_neg hdot, if_neg hdots] at hstep
  split at hstep
  · case h_1 hnone => exact absurd hnone hm
  · case h_2 fs' hfs' =>
    split_ifs at hstep
    · obtain rfl : Tree.mnt = n := by simpa using hstep
      cases hn
    · obtain ⟨e, -, heq⟩ := Option.map_eq_some_iff.mp hstep
      rw [← (List.cons.inj heq).1] at hn
      rw [hfs', ← hn]

lemma Sound.cacheDentry (h : Sound T s) (hd : s.Denotes d p) {b : Bool}
    (hrun : s.cacheDentry locals d = (b, s')) :
    Sound T s' ∧ s'.disk = s.disk ∧ (b = true → s'.Denotes d p ∧ s'.Cached d) := by
  have hsome : (s.dents d).isSome := by
    cases p with
    | nil => exact hd.elim
    | cons n q =>
      obtain ⟨o, ho, -⟩ := hd
      simp [ho]
  obtain ⟨s₁, hwf, he, ⟨hcache, -⟩ | ⟨i, s₂, hcache, hwf', hslot⟩⟩ := h.wf.cacheDentry locals hsome
  · obtain ⟨rfl, rfl⟩ : false = b ∧ s₁ = s' := by simpa [hcache] using hrun
    exact ⟨h.evicts he hwf, he.disk, nofun⟩
  · obtain ⟨rfl, rfl⟩ : true = b ∧ s₂ = s' := by simpa [hcache] using hrun
    have hplace : s₁.Denotes d p := hd.evicts he hwf (by rwa [(he.kept d List.mem_cons_self).1])
    refine ⟨(h.evicts he hwf).congr hwf' hslot.dents hslot.inodes, hslot.disk.trans he.disk, ?_⟩
    intro _
    refine ⟨hplace.congr hslot.dents hslot.inodes, i, hslot.lt, ?_⟩
    rw [hslot.slots, Function.update_self]

lemma Denotes.newDentry (h : s.Wf) (fs x : ℕ) (name : Name) (e : EntryData) :
    ∀ {p : List Node} {d : ℕ}, s.Denotes d p → (s.newDentry fs x name e).2.Denotes d p
  | [], _, hd => hd
  | n :: p, d, ⟨o, ho, hn, hrest⟩ => by
      have hlt := h.below d o ho
      refine ⟨o, ?_, ?_, ?_⟩
      · show Function.update s.dents s.next _ d = some o
        rw [Function.update_of_ne (by omega), ho]
      · show (Function.update s.inodes s.next _ o.inode).node = n
        rw [Function.update_of_ne (by omega), hn]
      · cases p with
        | nil => exact hrest
        | cons m p =>
          obtain ⟨y, hy, hp⟩ := hrest
          exact ⟨y, hy, hp.newDentry h fs x name e⟩

lemma Sound.newDentry (h : Sound T s) (hd : s.Denotes d (n :: q)) (hc : s.Cached d)
    (hdir : n.type = .dir) (hdot : t ≠ Name.dot) (hdots : t ≠ Name.dotDot) {e : EntryData}
    (hstep : T.step t (n :: q) = some (⟨some fs, e.lba, e.type⟩ :: n :: q)) :
    Sound T (s.newDentry fs d t e).2 ∧
      (s.newDentry fs d t e).2.Denotes s.next (⟨some fs, e.lba, e.type⟩ :: n :: q) := by
  have hnew : (s.newDentry fs d t e).2.Denotes s.next (⟨some fs, e.lba, e.type⟩ :: n :: q) := by
    refine ⟨{ inode := s.next, parent := some d, name := t }, ?_, ?_, d, rfl, ?_⟩
    · show Function.update s.dents s.next _ s.next = _
      rw [Function.update_self]
    · show (Function.update s.inodes s.next _ s.next).node = _
      rw [Function.update_self]
      rfl
    · exact hd.newDentry h.wf fs d t e
  refine ⟨⟨h.wf.newDentry hc fs t e, ?_⟩, hnew⟩
  intro x o ho
  have ho' : Function.update s.dents s.next (some ⟨s.next, some d, t⟩) x = some o := ho
  rcases eq_or_ne x s.next with rfl | hne
  · rw [Function.update_self, Option.some.injEq] at ho'
    subst ho'
    exact ⟨_, hnew, hdot, hdots, hstep, by simp [hdir]⟩
  · rw [Function.update_of_ne hne] at ho'
    obtain ⟨p, hp, hright⟩ := h.right x o ho'
    exact ⟨p, hp.newDentry h.wf fs d t e, hright⟩

/-- What a call returned is at the place of the path. -/
def Found (s : Vfs D) : Option ℕ → Option (List Node) → Prop
  | none, none => True
  | some d, some p => s.Denotes d p
  | _, _ => False

lemma Sound.next (h : Sound T s) (hchild : F.getChildDentry s.disk = T.child)
    (hd : s.Denotes d (n :: q)) (hc : s.Cached d) (hfs : n.superblock = some fs)
    (hdir : n.type = .dir) (hstays : T.Stays (t :: ts) (n :: q)) :
    match (if t = Name.dot then some (d, s)
        else if t = Name.dotDot then (s.parentOf d).map fun p => (p, s)
        else (F.getChildDentry s.disk fs (s.inodeOf d).lba t).map fun e =>
          s.newDentry fs d t e) with
    | none => T.step t (n :: q) = none
    | some (x, s') => ∃ p', T.step t (n :: q) = some p' ∧ Sound T s' ∧ s'.disk = s.disk ∧
        s'.Denotes x p' ∧ p'.head?.bind Node.superblock = some fs := by
  split_ifs with hdot hdots
  · exact ⟨n :: q, by simp [Tree.step, hdot], h, rfl, hd, by simp [hfs]⟩
  · obtain ⟨rfl, hnone⟩ | ⟨y, hq, hy, hyd⟩ := hd.parentOf
    · simp [hnone, Tree.step, hdots, Name.dot, Name.dotDot]
    · cases q with
      | nil => exact absurd rfl hq
      | cons m q =>
        simp only [hy, Option.map_some]
        refine ⟨m :: q, by simp [Tree.step, hdots, Name.dot, Name.dotDot], h, trivial, hyd, ?_⟩
        have hm : m.superblock ≠ none := by simpa using hstays.1 hdots
        simp [h.superblock_tail hd hfs hm]
  · have hlba : (s.inodeOf d).lba = n.lba := congrArg Node.lba hd.inodeOf
    have hnot : ¬ (q = [] ∧ t = Name.mnt) := fun hq => hstays.2.1 hq.2 hq.1
    have hstep : T.step t (n :: q) = (T.child fs n.lba t).map
        fun e => ⟨some fs, e.lba, e.type⟩ :: n :: q := by
      simp [Tree.step, hdot, hdots, hfs, hnot]
    rw [hchild, hlba]
    rcases hentry : T.child fs n.lba t with _ | e
    · simp [hstep, hentry]
    · rw [hentry, Option.map_some] at hstep
      obtain ⟨hsound, hplace⟩ := h.newDentry hd hc hdir hdot hdots hstep
      exact ⟨_, hstep, hsound, rfl, hplace, rfl⟩

lemma Sound.browseManually : ∀ {ts : List Name} {d : ℕ} {s : Vfs D} {p : List Node} {r : Option ℕ},
    Sound T s → F.getChildDentry s.disk = T.child → s.Denotes d p → s.Cached d →
    p.head?.bind Node.superblock = some fs → T.Stays ts p →
    browseManually F fs true locals ts d s = .ok (r, s') → Found s' r (T.resolve ts p)
  | [], d, s, p, r, _, _, hd, _, hfs, _, hrun => by
      obtain ⟨rfl, rfl⟩ : some d = r ∧ s = s' := by simpa [Vfs.browseManually] using hrun
      simpa [Tree.resolve, hfs, Found] using hd
  | t :: ts, d, s, p, r, h, hchild, hd, hc, hfs, hstays, hrun => by
      cases p with
      | nil => exact hd.elim
      | cons n q =>
        have htype : (s.inodeOf d).type = n.type := congrArg Node.type hd.inodeOf
        rw [Vfs.browseManually] at hrun
        by_cases hdir : (s.inodeOf d).type ≠ .dir
        · rw [if_pos hdir] at hrun
          obtain ⟨rfl, rfl⟩ : none = r ∧ s = s' := by simpa using hrun
          simp [Tree.resolve, ← htype, hdir, Found]
        · rw [if_neg hdir] at hrun
          have hdir : n.type = .dir := htype ▸ not_not.mp hdir
          have hnext := h.next hchild hd hc (by simpa using hfs) hdir hstays
          dsimp only at hrun
          split at hrun
          · case h_1 heq =>
            rw [heq] at hnext
            obtain ⟨rfl, rfl⟩ : none = r ∧ s = s' := by simpa using hrun
            have hstep : T.step t (n :: q) = none := hnext
            simp [Tree.resolve, hdir, hstep, Found]
          · case h_2 x s₁ heq =>
            rw [heq] at hnext
            obtain ⟨p', hstep, hsound, hdisk, hplace, hsuper⟩ := hnext
            have hresolve : T.resolve (t :: ts) (n :: q) = T.resolve ts p' := by
              simp [Tree.resolve, hdir, hstep]
            split at hrun
            · case h_1 s₂ hcache =>
              obtain ⟨hsound', hdisk', hkept⟩ := hsound.cacheDentry hplace hcache
              obtain ⟨hplace', hc'⟩ := hkept rfl
              rw [hresolve]
              exact hsound'.browseManually (by rw [hdisk', hdisk, hchild]) hplace' hc' hsuper
                (hstays.2.2 p' hstep) hrun
            · simp at hrun

lemma Consistent.rootCached (h : Consistent T s) : s.Cached s.rootDentry := by
  obtain ⟨x, hx⟩ := Option.isSome_iff_exists.mp h.rootSlot
  exact ⟨0, by decide, by simp [Vfs.rootDentry, hx]⟩

lemma Consistent.rootDir (h : Consistent T s) : (s.inodeOf s.rootDentry).type = .dir := by
  rw [← T.root_dir, ← h.root.inodeOf]
  rfl

lemma Consistent.browseTo (h : Consistent T s) (hchild : F.getChildDentry s.disk = T.child)
    (hok : T.PathOk path [T.root]) {r : Option ℕ}
    (hrun : s.browseTo F path s.rootDentry true locals = .ok (r, s')) :
    Found s' r (T.resolve path [T.root]) := by
  obtain ⟨p, hstop⟩ := h.browseCached h.root h.rootCached h.rootDir hok
  rw [Vfs.browseTo] at hrun
  rw [hstop.resolve]
  generalize s.browseCached path s.rootDentry = stop at hstop hrun
  obtain ⟨d, rest⟩ := stop
  cases p with
  | nil => exact hstop.denotes.elim
  | cons n q =>
    have hsuper : (s.inodeOf d).superblock = n.superblock :=
      congrArg Node.superblock hstop.denotes.inodeOf
    have htype : (s.inodeOf d).type = n.type := congrArg Node.type hstop.denotes.inodeOf
    dsimp only at hrun
    split at hrun
    · case h_1 hnone =>
      obtain ⟨rfl, rfl⟩ : none = r ∧ s = s' := by simpa using hrun
      cases rest with
      | nil => simp [Tree.resolve, ← hsuper, hnone, Found]
      | cons t ts =>
        rcases eq_or_ne n.type .dir with hn | hn
        · rw [hstop.virtual (htype.trans hn) hnone]
          trivial
        · simp [Tree.resolve, hn, Found]
    · case h_2 fs hfs =>
      split_ifs at hrun with hfile
      · obtain ⟨rfl, rfl⟩ : none = r ∧ s = s' := by simpa using hrun
        cases rest with
        | nil => exact absurd rfl hfile.1
        | cons t ts => simp [Tree.resolve, ← htype, hfile.2, Found]
      · have hstays : T.Stays rest (n :: q) := by
          cases rest with
          | nil => trivial
          | cons t ts =>
            obtain hstays | hnone := hstop.stays (by simpa using hfile)
            · exact hstays
            · rw [hnone] at hfs
              cases hfs
        exact h.toSound.browseManually hchild hstop.denotes hstop.cached (by simp [← hsuper, hfs])
          hstays hrun

/-! ## Room in the cache -/

/-- The free slots that `free_unused_dentry_cache_entries` looks at. -/
def room (s : Vfs D) : ℕ := {i ∈ Finset.Ico 2 maxDentries | s.slots i = none}.card

lemma freeSlot_cursor (locals : List ℕ) (i : ℕ) (s : Vfs D) :
    (s.freeSlot locals i).lowestFreeDentry ≤ s.lowestFreeDentry ∧
      (s.slots i = none → (s.freeSlot locals i).lowestFreeDentry ≤ i) := by
  rw [freeSlot]
  split
  · exact ⟨min_le_right _ _, fun _ => min_le_left _ _⟩
  · case h_2 d hd =>
    refine ⟨?_, fun hnone => ?_⟩
    · split_ifs
      · refine (min_le_left _ _).trans (le_of_eq ?_)
        exact collect_slots.2
      · exact le_rfl
    · rw [hnone] at hd
      cases hd

lemma Wf.freeSlots_cursor : ∀ {l : List ℕ} {s : Vfs D}, s.Wf → (∀ j ∈ l, j < maxDentries ∧ 2 ≤ j) →
    (l.foldl (Vfs.freeSlot locals) s).lowestFreeDentry ≤ s.lowestFreeDentry ∧
      ∀ i ∈ l, s.slots i = none → (l.foldl (Vfs.freeSlot locals) s).lowestFreeDentry ≤ i
  | [], s, _, _ => ⟨le_rfl, nofun⟩
  | j :: l, s, h, hl => by
      obtain ⟨hlt, hpin⟩ := hl j List.mem_cons_self
      obtain ⟨hwf, he⟩ : (s.freeSlot locals j).Wf ∧ Evicts locals s (s.freeSlot locals j) :=
        h.freeSlot hlt hpin
      obtain ⟨hle, hfree⟩ := freeSlot_cursor locals j s
      obtain ⟨hle', hfree'⟩ := hwf.freeSlots_cursor fun i hi => hl i (List.mem_cons_of_mem _ hi)
      refine ⟨hle'.trans hle, ?_⟩
      intro i hi hnone
      rcases List.mem_cons.mp hi with rfl | hi
      · exact hle'.trans (hfree hnone)
      · refine hfree' i hi ?_
        by_contra hne
        obtain ⟨x, hx⟩ := Option.ne_none_iff_exists'.mp hne
        rw [he.slots i x hx] at hnone
        cases hnone

lemma Evicts.room_le (he : Evicts locals s s') : s.room ≤ s'.room := by
  refine Finset.card_le_card ?_
  intro i hi
  rw [Finset.mem_filter] at hi ⊢
  refine ⟨hi.1, ?_⟩
  by_contra hne
  obtain ⟨x, hx⟩ := Option.ne_none_iff_exists'.mp hne
  rw [he.slots i x hx] at hi
  cases hi.2

lemma Slotted.room_le (h : Slotted d i s s') : s.room ≤ s'.room + 1 := by
  have hsub : {j ∈ Finset.Ico 2 maxDentries | s.slots j = none} ⊆
      insert i {j ∈ Finset.Ico 2 maxDentries | s'.slots j = none} := by
    intro j hj
    rw [Finset.mem_filter] at hj
    rcases eq_or_ne j i with rfl | hne
    · exact Finset.mem_insert_self _ _
    · refine Finset.mem_insert_of_mem (Finset.mem_filter.mpr ⟨hj.1, ?_⟩)
      rw [h.slots, Function.update_of_ne hne, hj.2]
  exact (Finset.card_le_card hsub).trans (Finset.card_insert_le _ _)

lemma Wf.cacheDentry_room (h : s.Wf) (hd : (s.dents d).isSome) (hroom : 0 < s.room) :
    ∃ s', s.cacheDentry locals d = (true, s') ∧ s'.Wf ∧ s'.Cached d ∧ s.room ≤ s'.room + 1 := by
  obtain ⟨s₁, hwf, he, ⟨hcache, hfull⟩ | ⟨i, s', hcache, hwf', hslot⟩⟩ := h.cacheDentry locals hd
  · exfalso
    obtain ⟨j, hj⟩ := Finset.card_pos.mp hroom
    rw [Finset.mem_filter, Finset.mem_Ico] at hj
    have hcursor : (s.freeUnusedDentryCacheEntries (d :: locals)).lowestFreeDentry ≤ j := by
      refine (h.freeSlots_cursor ?_).2 j ?_ hj.2
      · intro k hk
        rw [List.mem_range'_1] at hk
        have : (2 : ℕ) ≤ maxDentries := by decide
        omega
      · rw [List.mem_range'_1]
        omega
    have hlt : (s.freeUnusedDentryCacheEntries (d :: locals)).lowestFreeDentry ≠ maxDentries :=
      Nat.ne_of_lt (lt_of_le_of_lt hcursor hj.1.2)
    simp [Vfs.cacheDentry, hfull, hlt] at hcache
  · refine ⟨s', hcache, hwf', ⟨i, hslot.lt, ?_⟩, he.room_le.trans hslot.room_le⟩
    rw [hslot.slots, Function.update_self]

lemma Wf.next (h : s.Wf) (hc : s.Cached d) {r : ℕ × Vfs D}
    (hr : (if t = Name.dot then some (d, s)
        else if t = Name.dotDot then (s.parentOf d).map fun p => (p, s)
        else (F.getChildDentry s.disk fs (s.inodeOf d).lba t).map fun e =>
          s.newDentry fs d t e) = some r) :
    r.2.Wf ∧ (r.2.dents r.1).isSome ∧ r.2.room = s.room := by
  split_ifs at hr
  · obtain rfl : (d, s) = r := by simpa using hr
    exact ⟨h, hc.isSome h, rfl⟩
  · obtain ⟨y, hy, rfl⟩ := Option.map_eq_some_iff.mp hr
    obtain ⟨o, ho, hparent⟩ := Option.bind_eq_some_iff.mp hy
    exact ⟨h, (h.parent d o y ho hparent).isSome h, rfl⟩
  · obtain ⟨e, -, rfl⟩ := Option.map_eq_some_iff.mp hr
    refine ⟨h.newDentry hc fs t e, ?_, rfl⟩
    show (Function.update s.dents s.next _ s.next).isSome
    rw [Function.update_self]
    rfl

lemma Wf.browseManually_ok : ∀ {ts : List Name} {d : ℕ} {s : Vfs D}, s.Wf → s.Cached d →
    ts.length ≤ s.room → ∃ r, browseManually F fs true locals ts d s = .ok r
  | [], d, s, _, _, _ => ⟨_, rfl⟩
  | t :: ts, d, s, h, hc, hroom => by
      rw [Vfs.browseManually]
      by_cases hdir : (s.inodeOf d).type ≠ .dir
      · rw [if_pos hdir]
        exact ⟨_, rfl⟩
      rw [if_neg hdir]
      dsimp only
      split
      · exact ⟨_, rfl⟩
      · case h_2 x s₁ heq =>
        obtain ⟨hwf, hsome, hsame⟩ := h.next hc heq
        simp only [List.length_cons] at hroom
        obtain ⟨s₂, hcache, hwf', hc', hroom'⟩ : ∃ s₂, s₁.cacheDentry locals x = (true, s₂) ∧ s₂.Wf ∧
            s₂.Cached x ∧ s₁.room ≤ s₂.room + 1 :=
          hwf.cacheDentry_room hsome (by dsimp only at hsame ⊢; omega)
        dsimp only at hsame
        rw [hcache]
        exact hwf'.browseManually_ok hc' (by omega)

lemma Consistent.browseTo_ok (h : Consistent T s) (hok : T.PathOk path [T.root])
    (hroom : path.length ≤ s.room) : ∃ r, s.browseTo F path s.rootDentry true locals = .ok r := by
  obtain ⟨p, hstop⟩ := h.browseCached h.root h.rootCached h.rootDir hok
  rw [Vfs.browseTo]
  generalize s.browseCached path s.rootDentry = stop at hstop
  obtain ⟨d, rest⟩ := stop
  dsimp only
  split
  · exact ⟨_, rfl⟩
  · split_ifs
    · exact ⟨_, rfl⟩
    · exact h.wf.browseManually_ok hstop.cached (hstop.room.trans hroom)

/-! ## Two caches -/

/-- Two calls fail alike, or return dentries for the same inode on the same file system. -/
def Agree (r r' : Option ℕ × Vfs D) : Prop :=
  r.1.map (fun d => (r.2.inodeOf d).node) = r'.1.map fun d => (r'.2.inodeOf d).node

instance decidableAgree (r r' : Option ℕ × Vfs D) : Decidable (Agree r r') :=
  inferInstanceAs (Decidable (_ = _))

lemma Found.node {r : Option ℕ} {a : Option (List Node)} (h : Found s r a) :
    r.map (fun d => (s.inodeOf d).node) = a.bind List.head? := by
  match r, a, h with
  | none, none, _ => rfl
  | some d, some (n :: q), h => simp [Denotes.inodeOf h]

/-- The tree of the file systems that `VFS::init` mounts. -/
def bootTree (child : ℕ → ℕ → Name → Option EntryData) (roots : List ℕ) : Tree where
  child
  root := ⟨some 0, roots.getD 0 0, .dir⟩
  mounts
    | [c] => if (c - 49).toNat < roots.length then
        some ⟨some (c - 49).toNat, roots.getD (c - 49).toNat 0, .dir⟩ else none
    | _ => none
  root_dir := rfl
  root_disk := nofun
  mounts_disk := by
    intro t n hn
    split at hn
    · split_ifs at hn
      obtain rfl := Option.some.inj hn
      nofun
    · cases hn

lemma consistent_boot (disk : D) {roots : List ℕ} (hroots : roots.length < 10)
    (child : ℕ → ℕ → Name → Option EntryData) :
    Consistent (bootTree child roots) (boot disk roots) := by
  set T := bootTree child roots
  have hwf := (good_boot disk hroots).wf
  have hroot : (boot disk roots).Denotes 0 [T.root] := ⟨_, rfl, rfl, rfl⟩
  have hmnt : (boot disk roots).Denotes 1 [Tree.mnt, T.root] := ⟨_, rfl, rfl, 0, rfl, hroot⟩
  have hname : ∀ k < 10, ((49 + UInt8.ofNat k) - 49).toNat = k := by decide
  have hnames : ∀ k < 10, [49 + UInt8.ofNat k] ≠ Name.dot ∧ [49 + UInt8.ofNat k] ≠ Name.dotDot := by
    decide
  have hslot : (boot disk roots).slots 0 = some 0 := if_pos (by omega)
  refine ⟨⟨hwf, ?_⟩, by simpa [rootDentry, hslot] using hroot, by simp [hslot], ?_, ?_⟩
  · intro d o hd
    obtain ⟨hlt, ⟨rfl, rfl⟩ | ⟨rfl, rfl⟩ | ⟨h2, rfl⟩⟩ := boot_dents disk roots d o hd
    · exact ⟨_, hroot, rfl⟩
    · exact ⟨_, hmnt, by decide, by decide, rfl, rfl⟩
    · have hnode : ((boot disk roots).inodes (mountDentry d).inode).node =
          ⟨some (d - 2), roots.getD (d - 2) 0, .dir⟩ := by
        rcases eq_or_ne d 2 with rfl | hne
        · rfl
        · have hne1 : d ≠ 1 := by omega
          simp [mountDentry, boot, hne, hne1, Inode.node]
      refine ⟨[⟨some (d - 2), roots.getD (d - 2) 0, .dir⟩, Tree.mnt, T.root],
        ⟨_, hd, hnode, 1, rfl, hmnt⟩, (hnames (d - 2) (by omega)).1,
        (hnames (d - 2) (by omega)).2, ?_, rfl⟩
      have hmounts : T.mounts (mountDentry d).name = some ⟨some (d - 2), roots.getD (d - 2) 0, .dir⟩ := by
        show (if (49 + UInt8.ofNat (d - 2) - 49).toNat < roots.length then _ else none) = _
        rw [hname (d - 2) (by omega), if_pos (by omega)]
      show (if [49 + UInt8.ofNat (d - 2)] = Name.dot then _
        else if [49 + UInt8.ofNat (d - 2)] = Name.dotDot then _
        else (T.mounts (mountDentry d).name).map _) = _
      rw [if_neg (hnames (d - 2) (by omega)).1, if_neg (hnames (d - 2) (by omega)).2, hmounts]
      rfl
  · rintro d ⟨o, hd, -, hparent⟩
    have hparent : o.parent = none := hparent
    obtain ⟨-, ⟨rfl, rfl⟩ | ⟨rfl, rfl⟩ | ⟨-, rfl⟩⟩ := boot_dents disk roots d o hd
    · by_contra hnone
      rw [Bool.not_eq_true, Option.isSome_eq_false_iff, Option.isNone_iff_eq_none] at hnone
      refine getCachedDentry_eq_none hwf hnone 1 1 _ (if_pos (by omega)) rfl rfl rfl
    · cases hparent
    · cases hparent
  · rintro d t ⟨o, hd, hnode, -⟩ ht
    obtain ⟨-, ⟨rfl, rfl⟩ | ⟨rfl, rfl⟩ | ⟨h2, rfl⟩⟩ := boot_dents disk roots d o hd
    · cases hnode
    · by_contra hnone
      rw [Bool.not_eq_true, Option.isSome_eq_false_iff, Option.isNone_iff_eq_none] at hnone
      obtain ⟨n, hn⟩ := Option.isSome_iff_exists.mp ht
      obtain ⟨c, rfl, hc⟩ : ∃ c : UInt8, t = [c] ∧ (c - 49).toNat < roots.length := by
        simp only [T, bootTree] at hn
        split at hn
        · split_ifs at hn with hlt
          exact ⟨_, rfl, hlt⟩
        · cases hn
      have hc2 : ((boot disk roots).dents (2 + (c - 49).toNat)) =
          some (mountDentry (2 + (c - 49).toNat)) := by
        simp only [boot]
        rw [if_neg (by omega), if_neg (by omega), if_pos (by omega)]
      refine getCachedDentry_eq_none hwf hnone (2 + (c - 49).toNat) _ _ (if_pos (by omega)) hc2 rfl ?_
      show [49 + UInt8.ofNat (2 + (c - 49).toNat - 2)] = [c]
      rw [Nat.add_sub_cancel_left, UInt8.ofNat_toNat, UInt8.add_comm, UInt8.sub_add_cancel]
    · have hsuper := congrArg Node.superblock hnode
      rcases eq_or_ne d 2 with rfl | hne
      · cases hsuper
      · have hne1 : d ≠ 1 := by omega
        simp [mountDentry, boot, hne, hne1, Inode.node, Tree.mnt] at hsuper

lemma getCachedDentry_mono (hwf : s'.Wf)
    (hslots : ∀ i x, s.slots i = some x → s'.slots i = some x)
    (hdents : ∀ x o, s.dents x = some o → s'.dents x = some o)
    (h : (s.getCachedDentry d t).isSome) : (s'.getCachedDentry d t).isSome := by
  by_contra hnone
  rw [Bool.not_eq_true, Option.isSome_eq_false_iff, Option.isNone_iff_eq_none] at hnone
  obtain ⟨x, hx⟩ := Option.isSome_iff_exists.mp h
  obtain ⟨⟨i, -, hi⟩, o, ho, hparent, hname⟩ := getCachedDentry_eq_some hx
  exact getCachedDentry_eq_none hwf hnone i x o (hslots i x hi) (hdents x o ho) hparent hname

lemma Consistent.addDentry (h : Consistent T s) (hd : s.Denotes d (n :: q)) (hc : s.Cached d)
    (hdir : n.type = .dir) (hdot : t ≠ Name.dot) (hdots : t ≠ Name.dotDot) {e : EntryData}
    (hstep : T.step t (n :: q) = some (⟨some fs, e.lba, e.type⟩ :: n :: q))
    (hfree : s.lowestFreeDentry ≠ maxDentries) :
    Consistent T ((s.newDentry fs d t e).2.cacheDentry locals s.next).2 := by
  obtain ⟨hsound, hplace⟩ := h.toSound.newDentry hd hc hdir hdot hdots hstep
  set s₁ := (s.newDentry fs d t e).2 with hs₁
  have hcache : (s₁.cacheDentry locals s.next).2 =
      { s₁ with
        slots := Function.update s.slots s.lowestFreeDentry (some s.next)
        lowestFreeDentry := skipWhile
          (fun j => (Function.update s.slots s.lowestFreeDentry (some s.next) j).isSome)
          (maxDentries - (s.lowestFreeDentry + 1)) (s.lowestFreeDentry + 1) } := by
    have hfree₁ : s₁.lowestFreeDentry ≠ maxDentries := hfree
    rw [Vfs.cacheDentry, if_neg hfree₁, if_neg hfree₁]
    rfl
  have hsound' : Sound T (s₁.cacheDentry locals s.next).2 :=
    (hsound.cacheDentry hplace Prod.mk.eta.symm).1
  rw [hcache] at hsound' ⊢
  set s' : Vfs D := { s₁ with
    slots := Function.update s.slots s.lowestFreeDentry (some s.next)
    lowestFreeDentry := skipWhile
      (fun j => (Function.update s.slots s.lowestFreeDentry (some s.next) j).isSome)
      (maxDentries - (s.lowestFreeDentry + 1)) (s.lowestFreeDentry + 1) } with hs'
  have hkept : ∀ {x : ℕ} {p : List Node}, s.Denotes x p → s'.Denotes x p := fun hx =>
    Denotes.congr (show s'.dents = s₁.dents from rfl) (show s'.inodes = s₁.inodes from rfl)
      (hx.newDentry h.wf fs d t e)
  have hslots : ∀ i x, s.slots i = some x → s'.slots i = some x := by
    intro i x hx
    have hne : i ≠ s.lowestFreeDentry := by
      rintro rfl
      rw [h.wf.cursor.2 (lt_of_le_of_ne h.wf.cursor.1 hfree)] at hx
      cases hx
    exact (Function.update_of_ne hne _ _).trans hx
  have hdents : ∀ x o, s.dents x = some o → s'.dents x = some o := by
    intro x o hx
    have := h.wf.below x o hx
    exact (Function.update_of_ne (by omega) _ _).trans hx
  -- the new dentry is none of those that have to be there
  have hold : ∀ x p, s'.Denotes x p → p ≠ ⟨some fs, e.lba, e.type⟩ :: n :: q → s.Denotes x p := by
    intro x p hx hne
    have hxne : x ≠ s.next := by
      rintro rfl
      exact hne (hx.unique (Denotes.congr (show s'.dents = s₁.dents from rfl)
        (show s'.inodes = s₁.inodes from rfl) hplace))
    cases p with
    | nil => exact hx.elim
    | cons m p =>
      obtain ⟨o, ho, -⟩ := id hx
      have ho : Function.update s.dents s.next _ x = some o := ho
      rw [Function.update_of_ne hxne] at ho
      obtain ⟨p', hp', -⟩ := h.right x o ho
      obtain rfl := hx.unique (hkept hp')
      exact hp'
  obtain ⟨x₀, hx₀⟩ := Option.isSome_iff_exists.mp h.rootSlot
  have hroot : s'.rootDentry = s.rootDentry := by
    simp [rootDentry, hx₀, hslots 0 x₀ hx₀]
  refine ⟨hsound', by rw [hroot]; exact hkept h.root, by simp [hslots 0 x₀ hx₀], ?_, ?_⟩
  · intro x hx
    refine getCachedDentry_mono hsound'.wf hslots hdents (h.mnt x (hold x _ hx ?_))
    simp
  · intro x t' hx ht'
    refine getCachedDentry_mono hsound'.wf hslots hdents (h.mounts x t' (hold x _ hx ?_) ht')
    simp [Tree.mnt]

/-- A file system with a directory in its root, and a file in that. -/
def oneDir : FileSystems Unit where
  getChildDentry _ _ lba name :=
    if lba = 2 ∧ name = [97] then some ⟨.dir, 3, 0⟩
    else if lba = 3 ∧ name = [98] then some ⟨.file, 4, 5⟩
    else none
  touch disk _ _ _ := (none, disk)
  mkdir disk _ _ _ := (none, disk)
  resize disk _ _ _ _ _ := (false, disk)

/-- The cache of `VFS::init`, and that with the directory in it. -/
def oneDirCached : Vfs Unit :=
  ((boot () [2] : Vfs Unit).newDentry 0 0 [97] ⟨.dir, 3, 0⟩).2.cacheDentry [] 3 |>.2

lemma consistent_oneDirCached :
    Consistent (bootTree (oneDir.getChildDentry ()) [2]) oneDirCached := by
  have h : Consistent (bootTree (oneDir.getChildDentry ()) [2]) (boot () [2]) :=
    consistent_boot () (by decide) _
  have hc : (boot () [2] : Vfs Unit).Cached 0 := ⟨0, by decide, rfl⟩
  exact h.addDentry h.root hc rfl (by decide) (by decide) rfl (by decide)

end Vfs

end BrebOS

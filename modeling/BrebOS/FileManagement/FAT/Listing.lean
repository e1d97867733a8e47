import BrebOS.FileManagement.FAT.Resize

/-!
# Listing a directory

`ls` shows the short entries of a cluster up to the first free one.  What it takes for pieces of long names
it does not show, so a cluster with nothing else in it adds nothing to the list.
-/

namespace BrebOS

namespace FAT

open Attempt

/-! ## The blocks of a directory -/

/-- The clusters that the table links, from one on, when their entries are on the disk. -/
structure TableChain (v : Volume) (c : ℕ) (cs : List ℕ) : Prop where
  linked : Linked v.next (some c) cs
  onDisk : ∀ x ∈ cs, v.bs.fatSectorOf x ≠ 0 ∧ u32 (v.bs.fatSectorOf x + 1) ≤ v.disk.size

/-- The buffer has the sector of the table that `ctx` names. -/
def Session.HoldsTable (s : Session) : Prop :=
  s.ctx.fatSector ≠ 0 → s.drive.table = s.drive.disk.sectors s.ctx.fatSector

/-- A cluster was passed without loading it. -/
def Session.pass (c : ℕ) (s : Session) : Session :=
  (s.setCtx { s.ctx with bufferUpdated := s.ctx.activeCluster ≠ c, activeCluster := c }).lookAt c

section Blocks

variable {v : Volume} {s s' : Session} {c : ℕ} {cs : List ℕ} {e : DirEntry}

lemma Volume.Chain.tableChain (h : v.Chain c cs) (hw : Layout v) : TableChain v c cs :=
  ⟨h.1, fun x hx => ⟨(hw.placed (h.2 x hx)).fat_ne_zero, (hw.onDisk (h.2 x hx)).2⟩⟩

lemma TableChain.single (hlast : clusterMinEoc ≤ v.tableEntry c)
    (hc : v.bs.fatSectorOf c ≠ 0 ∧ u32 (v.bs.fatSectorOf c + 1) ≤ v.disk.size) : TableChain v c [c] where
  linked := by
    rw [linked_cons, linked_nil, Volume.next, if_neg (not_lt.mpr hlast)]
    exact ⟨rfl, rfl⟩
  onDisk x hx := by rwa [List.mem_singleton.mp hx]

lemma changeActiveCluster_pass (hreads : s.drive.disk.readErrors = fun _ => false) (hs : s.HoldsTable)
    (hc : s.drive.bs.fatSectorOf c ≠ 0 ∧ u32 (s.drive.bs.fatSectorOf c + 1) ≤ s.drive.disk.size) :
    (changeActiveCluster c none).run s = .ok (some (), s.pass c) := by
  unfold changeActiveCluster
  rw [state_bind]
  dsimp only
  rw [update_bind]
  refine readTableEntry_ok hreads hc.2 fun heq => ?_
  exact hs (heq ▸ hc.1)

lemma countBlocks_ok : ∀ {cs : List ℕ} {fuel blocks c : ℕ} {s : Session},
    s.drive.disk.readErrors = (fun _ => false) → TableChain s.drive.toVolume c cs → cs.length ≤ fuel →
    s.HoldsTable → ∃ s', (dirEntryToDentry.countBlocks fuel blocks c).run s =
      .ok (some (blocks + cs.length), s') ∧ s'.drive.toVolume = s.drive.toVolume ∧
        s'.drive.buf = s.drive.buf := by
  intro cs
  induction cs with
  | nil =>
      intro fuel blocks c s _ hchain _ _
      obtain ⟨rest, hnil, -⟩ := hchain.linked.eq_cons
      cases hnil
  | cons x cs ih =>
      intro fuel blocks c s hreads hchain hfuel hs
      obtain ⟨rest, hcs, hrest⟩ := hchain.linked.eq_cons
      cases hcs
      obtain ⟨fuel, rfl⟩ := Nat.exists_eq_add_of_le' (Nat.lt_of_lt_of_le (Nat.succ_pos _) hfuel)
      have hpass := changeActiveCluster_pass hreads hs (hchain.onDisk x List.mem_cons_self)
      rw [dirEntryToDentry.countBlocks, bind_run hpass, state_bind, ite_run]
      have hvalue : (s.pass x).ctx.tableValue = s.drive.tableEntry x := rfl
      rw [hvalue]
      by_cases hlt : s.drive.tableEntry x < clusterMinEoc
      · rw [Volume.next, if_pos hlt] at hrest
        have hnext : TableChain (s.pass x).drive.toVolume (s.drive.tableEntry x) cs :=
          ⟨hrest, fun y hy => hchain.onDisk y (List.mem_cons_of_mem _ hy)⟩
        have hlen : cs.length ≤ fuel := by simpa using hfuel
        obtain ⟨s', hrun, hvolume, hbuf⟩ :=
          @ih fuel (blocks + 1) _ (s.pass x) hreads hnext hlen fun _ => rfl
        refine ⟨s', ?_, hvolume, hbuf⟩
        rw [if_pos hlt, hrun, List.length_cons, Nat.add_assoc, Nat.add_comm 1]
      · rw [Volume.next, if_neg hlt] at hrest
        rw [if_neg hlt, hrest.eq_nil]
        exact ⟨s.pass x, rfl, rfl, rfl⟩

lemma withCtx_inv {α : Type} {x : Act α} {r : Option α} (h : (withCtx x).run s = .ok (r, s')) :
    ∃ t, x.run (s.setCtx {}) = .ok (r, t) ∧ s' = t.setCtx s.ctx := by
  cases hx : x.run (s.setCtx {}) with
  | error e =>
      rw [withCtx_stop hx] at h
      cases h
  | ok p =>
      have hrun : (withCtx x).run s = .ok (p.1, p.2.setCtx s.ctx) := withCtx_run hx
      rw [hrun] at h
      cases h
      exact ⟨p.2, rfl, rfl⟩

lemma dirEntryToDentry_ctx {r : Option (EntryData × ℕ)} (h : (dirEntryToDentry e).run s = .ok (r, s')) :
    s'.ctx = s.ctx := by
  rw [dirEntryToDentry] at h
  split at h
  · cases h
    rfl
  · obtain ⟨t, -, rfl⟩ := withCtx_inv h
    rfl

lemma dirEntryToDentry_dir (he : DirEntry.isDirectory e)
    (hfirst : u32 (DirEntry.firstClusterAddr e * s.drive.bs.sectorsPerCluster) = c)
    (hreads : s.drive.disk.readErrors = fun _ => false) (hchain : TableChain s.drive.toVolume c cs)
    (hlen : cs.length ≤ chainFuel) : ∃ s', (dirEntryToDentry e).run s =
      .ok (some (⟨.dir, DirEntry.firstClusterAddr e, DirEntry.fileSize e⟩, cs.length), s') ∧
        s'.drive.toVolume = s.drive.toVolume ∧ s'.drive.buf = s.drive.buf ∧ s'.ctx = s.ctx := by
  obtain ⟨t, hrun, hvolume, hbuf⟩ := @countBlocks_ok cs chainFuel 0 c (s.setCtx {}) hreads hchain hlen
    fun h => absurd rfl h
  refine ⟨t.setCtx s.ctx, ?_, hvolume, hbuf, rfl⟩
  rw [dirEntryToDentry, if_neg (by simp [he])]
  refine withCtx_run ?_
  have hfirst : u32 (DirEntry.firstClusterAddr e * (s.setCtx {}).drive.bs.sectorsPerCluster) = c := hfirst
  rw [Nat.zero_add] at hrun
  rw [state_bind, hfirst, bind_run hrun]
  rfl

end Blocks

/-! ## The entries of a cluster -/

section Entries

variable {s s' : Session} {n : ℕ} {shown : List (Name × EntryData)} {prev : Name}

/-- The entry that the loop looks at. -/
def Session.current (s : Session) : DirEntry := entryAt s.drive.buf s.ctx.dirEntryId

/-- The loop went on to the next entry. -/
def Session.forward (s : Session) : Session := s.setCtx { s.ctx with dirEntryId := s.ctx.dirEntryId + 1 }

lemma listCluster_free (h : DirEntry.isFree s.current) :
    (ls.listCluster n shown prev).run s = .ok (some shown, s) := by
  cases n with
  | zero => rfl
  | succ n =>
      rw [ls.listCluster, state_bind]
      exact congrArg (fun x => Attempt.run x s) (if_pos h)

lemma listCluster_piece (hfree : DirEntry.isFree s.current = false) (hlfn : DirEntry.isLFN s.current) :
    (ls.listCluster (n + 1) shown prev).run s =
      (ls.listCluster n shown (DirEntry.getLongName s.current ++ prev)).run s.forward := by
  rw [Session.current] at hfree hlfn
  rw [ls.listCluster, state_bind]
  simp only [hfree, hlfn, Bool.false_eq_true, if_false, if_true, pure_bind_run, update_bind]
  rfl

lemma listCluster_short (hfree : DirEntry.isFree s.current = false)
    (hlfn : DirEntry.isLFN s.current = false) :
    (ls.listCluster (n + 1) shown prev).run s =
      (orStop (.fault .outOfBounds) (dirEntryToDentry s.current) >>= fun d =>
        update Session.forward >>= fun _ => ls.listCluster n
          (shown ++ [(if prev ≠ [] then prev else DirEntry.getName s.current, d.1)]) []).run s := by
  rw [Session.current] at hfree hlfn ⊢
  rw [ls.listCluster, state_bind]
  simp only [hfree, hlfn, Bool.false_eq_true, if_false]
  rfl

lemma listCluster_grows : ∀ {n : ℕ} {shown : List (Name × EntryData)} {prev : Name} {s s' : Session}
    {r : Option (List (Name × EntryData))}, (ls.listCluster n shown prev).run s = .ok (r, s') →
      s'.ctx.tableValue = s.ctx.tableValue ∧ ∀ l, r = some l → shown <+: l := by
  intro n
  induction n with
  | zero =>
      intro shown prev s s' r h
      cases h
      refine ⟨rfl, fun l hl => ?_⟩
      cases hl
      exact List.prefix_rfl
  | succ n ih =>
      intro shown prev s s' r h
      cases hfree : DirEntry.isFree s.current with
      | true =>
          rw [listCluster_free hfree] at h
          cases h
          refine ⟨rfl, fun l hl => ?_⟩
          cases hl
          exact List.prefix_rfl
      | false =>
          cases hlfn : DirEntry.isLFN s.current with
          | true =>
              rw [listCluster_piece hfree hlfn] at h
              have hrest := ih h
              exact hrest
          | false =>
              rw [listCluster_short hfree hlfn] at h
              obtain ⟨d, s₁, hd, h⟩ := orStop_bind h
              obtain ⟨hvalue, hshown⟩ := ih h
              refine ⟨hvalue.trans ?_, fun l hl => (List.prefix_append ..).trans (hshown l hl)⟩
              have hctx := dirEntryToDentry_ctx hd
              show s₁.ctx.tableValue = s.ctx.tableValue
              rw [hctx]

/-- No entry from one on to another is free. -/
def UsedFrom (data : Sector) (i j : ℕ) : Prop := ∀ m ≤ j, DirEntry.isFree (entryAt data (i + m)) = false

/-- Of `n` entries, those up to the first free one are taken for pieces of long names. -/
def OnlyPieces (data : Sector) (i n : ℕ) : Prop :=
  ∀ j < n, UsedFrom data i j → DirEntry.isLFN (entryAt data (i + j))

variable {data : Sector} {i j : ℕ}

lemma usedFrom_succ : UsedFrom data i (j + 1) ↔
    DirEntry.isFree (entryAt data i) = false ∧ UsedFrom data (i + 1) j := by
  constructor
  · intro h
    refine ⟨h 0 (Nat.zero_le _), fun m hm => ?_⟩
    have := h (m + 1) (Nat.succ_le_succ hm)
    rwa [← Nat.add_assoc, Nat.add_right_comm] at this
  · rintro ⟨hfirst, hrest⟩ m hm
    cases m with
    | zero => exact hfirst
    | succ m =>
        rw [← Nat.add_assoc, Nat.add_right_comm]
        exact hrest m (Nat.le_of_succ_le_succ hm)

lemma onlyPieces_succ : OnlyPieces data i (n + 1) ↔ (DirEntry.isFree (entryAt data i) = false →
    DirEntry.isLFN (entryAt data i) ∧ OnlyPieces data (i + 1) n) := by
  constructor
  · intro h hfirst
    have hused : UsedFrom data i 0 := by
      intro m hm
      rwa [Nat.le_zero.mp hm]
    refine ⟨h 0 (Nat.succ_pos n) hused, fun j hj hrest => ?_⟩
    have := h (j + 1) (Nat.succ_lt_succ hj) (usedFrom_succ.mpr ⟨hfirst, hrest⟩)
    rwa [← Nat.add_assoc, Nat.add_right_comm] at this
  · intro h j hj hused
    obtain ⟨hlfn, hrest⟩ := h (hused 0 (Nat.zero_le j))
    cases j with
    | zero => exact hlfn
    | succ j =>
        rw [← Nat.add_assoc, Nat.add_right_comm]
        exact hrest j (Nat.lt_of_succ_lt_succ hj) (usedFrom_succ.mp hused).2

lemma listCluster_nothing_iff : ∀ {n : ℕ} {prev : Name} {s : Session},
    (∃ s', (ls.listCluster n shown prev).run s = .ok (some shown, s')) ↔
      OnlyPieces s.drive.buf s.ctx.dirEntryId n := by
  intro n
  induction n with
  | zero =>
      intro prev s
      exact iff_of_true ⟨s, rfl⟩ fun j hj => absurd hj (Nat.not_lt_zero j)
  | succ n ih =>
      intro prev s
      rw [onlyPieces_succ]
      cases hfree : DirEntry.isFree s.current with
      | true =>
          refine iff_of_true ⟨s, listCluster_free hfree⟩ fun hused => ?_
          rw [← Session.current, hfree] at hused
          cases hused
      | false =>
          rw [← Session.current]
          cases hlfn : DirEntry.isLFN s.current with
          | true =>
              rw [listCluster_piece hfree hlfn, ih]
              exact ⟨fun h _ => ⟨rfl, h⟩, fun h => (h hfree).2⟩
          | false =>
              refine iff_of_false ?_ fun h => Bool.false_ne_true (h hfree).1
              rintro ⟨s', h⟩
              rw [listCluster_short hfree hlfn] at h
              obtain ⟨d, s₁, -, h⟩ := orStop_bind h
              have hlong := ((listCluster_grows h).2 shown rfl).length_le
              rw [List.length_append, List.length_singleton] at hlong
              omega

lemma ls_single_iff {d : ℕ} {l : List (Name × EntryData)} (hw : WellFormed s.drive.toVolume)
    (hchain : s.drive.toVolume.Chain d [d]) : (∃ s', (ls d).run s = .ok (some l, s')) ↔
      ∃ s', (ls.listCluster entriesPerSector [] []).run ((s.setCtx {}).goto d) = .ok (some l, s') := by
  have hd : Valid s.drive.toVolume d := hchain.2 d List.mem_cons_self
  have hlast : clusterMinEoc ≤ s.drive.tableEntry d := by
    rcases hchain.cons with ⟨rest, hrest, -, ⟨-, h⟩ | ⟨-, h⟩⟩
    · exact h
    · cases hrest
      obtain ⟨rest, hnil, -⟩ := h.cons
      cases hnil
  have hload := changeActiveCluster_buf (s := s.setCtx {}) hw hd (Session.holds_new s)
  have hfirst : u32 (d * (s.setCtx {}).drive.bs.sectorsPerCluster) = d := hchain.u32_mul hw.toLayout
  have hrun : (ls.list chainFuel [] d).run (s.setCtx {}) =
      (ls.listCluster entriesPerSector [] [] >>= fun shown => state >>= fun t =>
        if t.ctx.tableValue < clusterMinEoc then ls.list clusterMinEoc shown t.ctx.tableValue
        else pure shown).run ((s.setCtx {}).goto d) := by
    rw [chainFuel, ls.list, bind_run hload]
  constructor
  · rintro ⟨s', h⟩
    obtain ⟨t, h, -⟩ := withCtx_inv h
    rw [state_bind, hfirst, hrun] at h
    obtain ⟨shown, t', hlist, h⟩ := bind_eq_some h
    have hvalue : t'.ctx.tableValue = s.drive.tableEntry d := (listCluster_grows hlist).1
    rw [state_bind, ite_run, if_neg (by omega)] at h
    cases h
    exact ⟨t, hlist⟩
  · rintro ⟨t, hlist⟩
    refine ⟨t.setCtx s.ctx, ?_⟩
    refine withCtx_run ?_
    have hvalue : t.ctx.tableValue = s.drive.tableEntry d := (listCluster_grows hlist).1
    rw [state_bind, hfirst, hrun, bind_run hlist, state_bind, ite_run, if_neg (by omega)]
    rfl

end Entries

end FAT

end BrebOS

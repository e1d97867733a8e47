import BrebOS.FileManagement.FAT.Load

/-!
# Writing to the table

What is on a volume after the entry of a cluster has been written, and after clusters have been linked one
to the next.  Neither touches what the clusters hold.
-/

namespace BrebOS

namespace FAT

open Attempt

/-- A volume with another value in the entry of a cluster. -/
def Volume.setEntryOf (c value : ℕ) (v : Volume) : Volume :=
  { v with disk := { v.disk with
      sectors := Function.update v.disk.sectors (v.bs.fatSectorOf c)
        (leWrite (fatEntryOffsetOf c) 4 value (v.disk.sectors (v.bs.fatSectorOf c))) } }

/-- A volume with clusters linked one to the next, and the mark behind the last one. -/
def Volume.link : List ℕ → Volume → Volume
  | [], v => v
  | [c], v => v.setEntryOf c clusterEoc
  | c :: d :: cs, v => Volume.link (d :: cs) (v.setEntryOf c d)

section Entries

variable {v : Volume} {c d value : ℕ} {cs ds : List ℕ}

lemma Layout.setEntryOf (h : Layout v) : Layout (v.setEntryOf c value) where
  bytesPerSector := h.bytesPerSector
  sectorsPerCluster := h.sectorsPerCluster
  reserved := h.reserved
  tables := h.tables
  parts := h.parts
  disk := h.disk
  size := h.size
  table := h.table
  clusters := h.clusters

lemma WellFormed.setEntryOf (h : WellFormed v) : WellFormed (v.setEntryOf c value) where
  toLayout := h.toLayout.setEntryOf
  reads := h.reads

lemma content_setEntryOf (h : Layout v) (hc : Valid v c) (hd : Valid v d) :
    (v.setEntryOf c value).content d = v.content d :=
  Function.update_of_ne (ne_of_gt (lt_of_lt_of_le (h.placed hc).fatSector (h.placed hd).behind)) _ _

lemma tableEntry_setEntryOf (hvalue : value < 0x10000000) : (v.setEntryOf c value).tableEntry c = value := by
  have hsector : (v.setEntryOf c value).disk.sectors ((v.setEntryOf c value).bs.fatSectorOf c) =
      leWrite (fatEntryOffsetOf c) 4 value (v.disk.sectors (v.bs.fatSectorOf c)) := Function.update_self ..
  rw [Volume.tableEntry, hsector, leRead_leWrite (by omega), Nat.mod_eq_of_lt hvalue]

lemma Layout.entry_place (h : Layout v) (hc : Valid v c) :
    v.bs.fatSectorOf c = v.bs.firstFatSector + c / 128 ∧ fatEntryOffsetOf c = 4 * (c % 128) := by
  have htable := h.table
  have hfew := h.clusters
  have hlt := hc.2
  exact ⟨h.fatSectorOf (by omega) (by omega), fatEntryOffsetOf_eq (by omega)⟩

lemma tableEntry_setEntryOf_of_ne (h : Layout v) (hc : Valid v c) (hd : Valid v d) (hne : d ≠ c) :
    (v.setEntryOf c value).tableEntry d = v.tableEntry d := by
  obtain ⟨hsector, hoffset⟩ := h.entry_place hc
  obtain ⟨hsector', hoffset'⟩ := h.entry_place hd
  rw [Volume.tableEntry, Volume.tableEntry]
  congr 1
  by_cases hsame : v.bs.fatSectorOf d = v.bs.fatSectorOf c
  · -- two entries in one sector
    have hupdate : (v.setEntryOf c value).disk.sectors ((v.setEntryOf c value).bs.fatSectorOf d) =
        leWrite (fatEntryOffsetOf c) 4 value (v.disk.sectors (v.bs.fatSectorOf d)) := by
      show Function.update v.disk.sectors (v.bs.fatSectorOf c) _ (v.bs.fatSectorOf d) = _
      rw [hsame, Function.update_self]
    rw [hupdate, leRead_leWrite_of_apart (by omega)]
  · have hupdate : (v.setEntryOf c value).disk.sectors ((v.setEntryOf c value).bs.fatSectorOf d) =
        v.disk.sectors (v.bs.fatSectorOf d) := Function.update_of_ne hsame _ _
    rw [hupdate]

lemma WellFormed.link : ∀ {cs : List ℕ} {v : Volume}, WellFormed v → WellFormed (v.link cs)
  | [], _, h => h
  | [_], _, h => h.setEntryOf
  | _ :: _ :: _, _, h => h.setEntryOf.link

lemma link_bs : ∀ {cs : List ℕ} {v : Volume}, (v.link cs).bs = v.bs
  | [], _ => rfl
  | [_], _ => rfl
  | _ :: d :: cs, _ => @link_bs (d :: cs) _

lemma content_link : ∀ {cs : List ℕ} {v : Volume}, Layout v → (∀ c ∈ cs, Valid v c) → Valid v d →
    (v.link cs).content d = v.content d
  | [], _, _, _, _ => rfl
  | [c], _, h, hcs, hd => content_setEntryOf h (hcs c List.mem_cons_self) hd
  | c :: d' :: cs, v, h, hcs, hd => by
      have hrest : ∀ x ∈ d' :: cs, Valid (v.setEntryOf c d') x := fun x hx =>
        hcs x (List.mem_cons_of_mem _ hx)
      rw [Volume.link, content_link h.setEntryOf hrest hd]
      exact content_setEntryOf h (hcs c List.mem_cons_self) hd

lemma tableEntry_link : ∀ {cs : List ℕ} {v : Volume}, Layout v → (∀ c ∈ cs, Valid v c) → Valid v d → d ∉ cs →
    (v.link cs).tableEntry d = v.tableEntry d
  | [], _, _, _, _, _ => rfl
  | [c], _, h, hcs, hd, hne =>
      tableEntry_setEntryOf_of_ne h (hcs c List.mem_cons_self) hd fun heq => hne (heq ▸ List.mem_cons_self)
  | c :: d' :: cs, v, h, hcs, hd, hne => by
      have hrest : ∀ x ∈ d' :: cs, Valid (v.setEntryOf c d') x := fun x hx =>
        hcs x (List.mem_cons_of_mem _ hx)
      rw [Volume.link, tableEntry_link h.setEntryOf hrest hd fun hmem => hne (List.mem_cons_of_mem _ hmem)]
      refine tableEntry_setEntryOf_of_ne h (hcs c List.mem_cons_self) hd ?_
      rintro rfl
      exact hne List.mem_cons_self

lemma Layout.valid_lt_table (h : Layout v) (hc : Valid v c) : c < 0x10000000 := by
  have := hc.2
  have := h.clusters
  omega

lemma chain_link : ∀ {cs : List ℕ} {c : ℕ} {v : Volume}, Layout v → (∀ x ∈ c :: cs, Valid v x) →
    (c :: cs).Nodup → (v.link (c :: cs)).Chain c (c :: cs)
  | [], c, v, h, hcs, _ => by
      have hlast : (v.setEntryOf c clusterEoc).tableEntry c = clusterEoc := tableEntry_setEntryOf (by decide)
      refine ⟨⟨rfl, ?_⟩, hcs⟩
      show (v.setEntryOf c clusterEoc).next c = none
      rw [Volume.next, hlast]
      decide
  | d :: cs, c, v, h, hcs, hnodup => by
      obtain ⟨hc, hnodup'⟩ := List.nodup_cons.mp hnodup
      have hvalid := hcs c List.mem_cons_self
      have hd := hcs d (List.mem_cons_of_mem _ List.mem_cons_self)
      have hrest : ∀ x ∈ d :: cs, Valid (v.setEntryOf c d) x := fun x hx => hcs x (List.mem_cons_of_mem _ hx)
      have hentry : (v.link (c :: d :: cs)).tableEntry c = d := by
        rw [Volume.link, tableEntry_link h.setEntryOf hrest hvalid hc]
        exact tableEntry_setEntryOf (h.valid_lt_table hd)
      have hchain := chain_link h.setEntryOf hrest hnodup'
      refine ⟨⟨rfl, ?_⟩, ?_⟩
      · rw [Volume.next, hentry, if_pos (h.valid_lt hd)]
        exact hchain.1
      · intro x hx
        rcases List.mem_cons.mp hx with rfl | hx
        · rwa [Valid, link_bs]
        · exact hchain.2 x hx

lemma Volume.Chain.entry_ne_zero : ∀ {cs : List ℕ} {c : ℕ}, v.Chain c cs → ∀ d ∈ cs, v.tableEntry d ≠ 0
  | [], _, _, d, hd => absurd hd List.not_mem_nil
  | c' :: cs, c, h, d, hd => by
      obtain ⟨rest, hcs, -, hrest⟩ := h.cons
      cases hcs
      rcases hrest with ⟨rfl, hlast⟩ | ⟨-, hrest⟩
      · rw [List.mem_singleton.mp hd]
        unfold clusterMinEoc at hlast
        omega
      · rcases List.mem_cons.mp hd with rfl | hd
        · obtain ⟨rest', rfl, hvalid, -⟩ := hrest.cons
          have := hvalid.1
          omega
        · exact hrest.entry_ne_zero d hd

lemma chain_append {l : ℕ} (h : Layout v) (hchain : v.Chain c (ds ++ [l])) (hcs : ∀ x ∈ cs, Valid v x)
    (hnodup : (l :: cs).Nodup) (hnew : ∀ x ∈ cs, x ∉ ds) : (v.link (l :: cs)).Chain c (ds ++ l :: cs) := by
  have hl : Valid v l := hchain.2 l (List.mem_append_right _ List.mem_cons_self)
  have hvalid : ∀ x ∈ l :: cs, Valid v x := by
    intro x hx
    rcases List.mem_cons.mp hx with rfl | hx
    · exact hl
    · exact hcs x hx
  have hends := chain_link h hvalid hnodup
  have hapart := hchain.1.nodup
  refine ⟨hchain.1.append hends.1 fun x hx => ?_, fun x hx => ?_⟩
  · have hx' : Valid v x := hchain.2 x (List.mem_append_left _ hx)
    have hout : x ∉ l :: cs := by
      intro hmem
      rcases List.mem_cons.mp hmem with rfl | hmem
      · exact List.disjoint_of_nodup_append hapart hx List.mem_cons_self
      · exact hnew x hmem hx
    rw [Volume.next, Volume.next, tableEntry_link h hvalid hx' hout]
  · rcases List.mem_append.mp hx with hx | hx
    · have hx' : Valid v x := hchain.2 x (List.mem_append_left _ hx)
      rwa [Valid, link_bs]
    · exact hends.2 x hx

lemma Volume.Chain.link (h : v.Chain c ds) (hv : Layout v) (hcs : ∀ x ∈ cs, Valid v x)
    (hapart : ∀ x ∈ ds, x ∉ cs) : (v.link cs).Chain c ds := by
  refine ⟨h.1.congr fun x hx => ?_, fun x hx => ?_⟩
  · rw [Volume.next, Volume.next, tableEntry_link hv hcs (h.2 x hx) (hapart x hx)]
  · have hx' := h.2 x hx
    rwa [Valid, link_bs]

end Entries

/-! ## Steps along a chain -/

/-- A session on another volume. -/
def Session.onVolume (v : Volume) (s : Session) : Session :=
  { s with drive := { s.drive with toVolume := v } }

/-- A session that may have gone to another cluster. -/
def Session.Moved (s s' : Session) : Prop := s' = s ∨ ∃ d, s' = s.goto d

section Steps

variable {v : Volume} {s s' : Session} {c value : ℕ} {cs : List ℕ}

lemma Session.Moved.holds (h : s.Moved s') (hs : s.Holds) : s'.Holds := by
  rcases h with rfl | ⟨d, rfl⟩
  · exact hs
  · exact Session.holds_goto d s

lemma Session.Moved.toVolume (h : s.Moved s') : s'.drive.toVolume = s.drive.toVolume := by
  rcases h with rfl | ⟨d, rfl⟩
  · rfl
  · rfl

lemma Session.Moved.goto (h : s.Moved s') : (s'.onVolume v).goto c = (s.onVolume v).goto c := by
  rcases h with rfl | ⟨d, rfl⟩
  · rfl
  · rfl

/-- An entry was written to the sector of the table that is in the buffer. -/
def Session.wroteEntry (value : ℕ) (s : Session) : Session :=
  let table := leWrite s.ctx.fatEntryOffset 4 value s.drive.table
  { s with
    drive := { s.drive with
      disk := { s.drive.disk with
        sectors := Function.update s.drive.disk.sectors s.ctx.fatSector table }
      table }
    ctx := { s.ctx with tableValue := value } }

lemma writeFat_run (s : Session) : writeFat.run s =
    .ok (if (s.drive.disk.write s.ctx.fatSector s.drive.table).1 then some () else none,
      s.setDisk (s.drive.disk.write s.ctx.fatSector s.drive.table).2) := rfl

lemma setTableEntry_run (hlba : s.ctx.fatSector < s.drive.disk.size) (hsize : s.drive.disk.size < 4294967296) :
    (setTableEntry value).run s = .ok (some (), s.wroteEntry value) := by
  have hwrite := Disk.write_ok hlba hsize (leWrite s.ctx.fatEntryOffset 4 value s.drive.table)
  unfold setTableEntry
  rw [update_bind, update_bind, writeFat_run]
  show Except.ok (if (s.drive.disk.write s.ctx.fatSector (leWrite s.ctx.fatEntryOffset 4 value
    s.drive.table)).1 then some () else none, Session.setDisk (s.drive.disk.write s.ctx.fatSector
      (leWrite s.ctx.fatEntryOffset 4 value s.drive.table)).2 _) = _
  rw [hwrite]
  rfl

lemma wroteEntry_goto (hw : Layout s.drive.toVolume) (hc : Valid s.drive.toVolume c)
    (hvalue : value < 0x10000000) :
    (s.goto c).wroteEntry value = (s.onVolume (s.drive.toVolume.setEntryOf c value)).goto c := by
  have hentry : (s.drive.toVolume.setEntryOf c value).tableEntry c = value := tableEntry_setEntryOf hvalue
  have hcontent : (s.drive.toVolume.setEntryOf c value).content c = s.drive.content c :=
    content_setEntryOf hw hc hc
  have hsector : (s.drive.toVolume.setEntryOf c value).disk.sectors (s.drive.bs.fatSectorOf c) =
      leWrite (fatEntryOffsetOf c) 4 value (s.drive.disk.sectors (s.drive.bs.fatSectorOf c)) :=
    Function.update_self ..
  rw [show (s.onVolume (s.drive.toVolume.setEntryOf c value)).goto c = { s with
    drive := {
      toVolume := s.drive.toVolume.setEntryOf c value
      buf := (s.drive.toVolume.setEntryOf c value).content c
      table := (s.drive.toVolume.setEntryOf c value).disk.sectors (s.drive.bs.fatSectorOf c) }
    ctx := {
      activeCluster := c
      activeSector := s.drive.bs.firstSectorOfCluster c
      fatSector := s.drive.bs.fatSectorOf c
      fatEntryOffset := fatEntryOffsetOf c
      tableValue := (s.drive.toVolume.setEntryOf c value).tableEntry c } } from rfl, hentry, hcontent, hsector]
  rfl

lemma setTableEntry_ok (hw : Layout s.drive.toVolume) (hc : Valid s.drive.toVolume c)
    (hvalue : value < 0x10000000) : (setTableEntry value).run (s.goto c) =
      .ok (some (), (s.onVolume (s.drive.toVolume.setEntryOf c value)).goto c) := by
  have hp := hw.placed hc
  have hlba : s.drive.bs.fatSectorOf c < s.drive.disk.size :=
    lt_of_lt_of_le hp.fatSector (le_trans hp.behind hp.sector.le)
  rw [← wroteEntry_goto hw hc hvalue]
  exact setTableEntry_run hlba hw.size

lemma followChain_ok : ∀ {n c : ℕ} {cs : List ℕ} {s : Session}, WellFormed s.drive.toVolume → s.Holds →
    s.drive.toVolume.Chain c cs → n < cs.length →
      ∃ s', (followChain n c).run s = .ok (some (cs.getD n 0), s') ∧ s.Moved s'
  | 0, c, cs, s, _, _, hchain, _ => by
      obtain ⟨rest, rfl, -⟩ := hchain.cons
      exact ⟨s, rfl, Or.inl rfl⟩
  | n + 1, c, cs, s, hw, hs, hchain, hn => by
      obtain ⟨rest, rfl, hvalid, hrest⟩ := hchain.cons
      rcases hrest with ⟨rfl, -⟩ | ⟨-, hrest⟩
      · simp at hn
      · obtain ⟨s', hrun, hmoved⟩ := followChain_ok (s := s.goto c) (n := n) hw (Session.holds_goto c s) hrest
          (by simpa using hn)
        refine ⟨s', ?_, Or.inr ?_⟩
        · rw [followChain, bind_run (changeActiveCluster_buf hw hvalid hs), state_bind]
          exact hrun
        · rcases hmoved with rfl | ⟨d, rfl⟩
          · exact ⟨c, rfl⟩
          · exact ⟨d, rfl⟩

@[simp] lemma onVolume_toVolume (v : Volume) (s : Session) : (s.onVolume v).drive.toVolume = v := rfl

@[simp] lemma onVolume_goto (v v' : Volume) (c d : ℕ) (s : Session) :
    (((s.onVolume v).goto c).onVolume v').goto d = (s.onVolume v').goto d := rfl

@[simp] lemma goto_toVolume (c : ℕ) (s : Session) : (s.goto c).drive.toVolume = s.drive.toVolume := rfl

lemma extendChain_ok : ∀ {cs : List ℕ} {c : ℕ} {s : Session}, WellFormed s.drive.toVolume →
    (∀ x ∈ c :: cs, Valid s.drive.toVolume x) → s.Holds →
      ∃ l, (extendChain cs c >>= fun last => changeActiveCluster last (some .buf) >>= fun _ =>
        setTableEntry clusterEoc).run s =
          .ok (some (), (s.onVolume (s.drive.toVolume.link (c :: cs))).goto l)
  | [], c, s, hw, hcs, hs => by
      have hc := hcs c List.mem_cons_self
      have hmark : clusterEoc < 0x10000000 := by decide
      refine ⟨c, ?_⟩
      rw [extendChain, pure_bind_run, bind_run (changeActiveCluster_buf hw hc hs),
        setTableEntry_ok hw.toLayout hc hmark, Volume.link]
  | d :: cs, c, s, hw, hcs, hs => by
      have hc := hcs c List.mem_cons_self
      have hd := hcs d (List.mem_cons_of_mem _ List.mem_cons_self)
      obtain ⟨l, hrun⟩ := @extendChain_ok cs d
        ((s.onVolume (s.drive.toVolume.setEntryOf c d)).goto c) hw.setEntryOf
        (fun x hx => hcs x (List.mem_cons_of_mem _ hx)) (Session.holds_goto c _)
      rw [goto_toVolume, onVolume_toVolume, onVolume_goto] at hrun
      refine ⟨l, ?_⟩
      rw [extendChain, bind_bind, bind_run (changeActiveCluster_buf hw hc hs), bind_bind,
        bind_run (setTableEntry_ok hw.toLayout hc (hw.valid_lt_table hd)), hrun, Volume.link]

end Steps

end FAT

end BrebOS

import BrebOS.FileManagement.FAT.Resize

/-!
# Writing files

`write_buf_to_file` gives the file its new size and then writes its clusters one after the other, whole
sectors straight from the caller's buffer and the last one by way of `buf`.
-/

namespace BrebOS

namespace FAT

open Attempt

/-- The clusters `ds` of a volume hold other bytes, and nothing else has changed. -/
structure WrittenTo (ds : List ℕ) (data : ℕ → UInt8) (n : ℕ) (v v' : Volume) : Prop where
  wellFormed : WellFormed v'
  bs : v'.bs = v.bs
  table : ∀ c, Valid v c → v'.tableEntry c = v.tableEntry c
  other : ∀ c, Valid v c → c ∉ ds → v'.content c = v.content c
  bytes : ∀ j < n, fileByte v' ds j = data j

section Bytes

variable {v v' v₁ : Volume} {c d n : ℕ} {ds : List ℕ} {data : ℕ → UInt8} {chunk : Sector}

lemma WrittenTo.refl (hw : WellFormed v) : WrittenTo ds data 0 v v :=
  ⟨hw, rfl, fun _ _ => rfl, fun _ _ _ => rfl, fun _ hj => absurd hj (Nat.not_lt_zero _)⟩

lemma WrittenTo.valid (h : WrittenTo ds data n v v') (hc : Valid v c) : Valid v' c := by
  rwa [Valid, h.bs]

lemma WrittenTo.congr {data' : ℕ → UInt8} {m : ℕ} (h : WrittenTo ds data n v v') (hn : m = n)
    (hdata : ∀ j < m, data j = data' j) : WrittenTo ds data' m v v' :=
  ⟨h.wellFormed, h.bs, h.table, h.other, fun j hj => (h.bytes j (hn ▸ hj)).trans (hdata j hj)⟩

lemma WrittenTo.chain {cs : List ℕ} (h : WrittenTo ds data n v v') (hchain : v.Chain c cs) : v'.Chain c cs := by
  refine ⟨hchain.1.congr fun x hx => ?_, fun x hx => h.valid (hchain.2 x hx)⟩
  rw [Volume.next, Volume.next, h.table x (hchain.2 x hx)]

lemma fileByte_cons_lt (hn : n < 512) : fileByte v (d :: ds) n = v.content d n := by
  have hdiv : n / sectorSize = 0 := Nat.div_eq_of_lt hn
  have hmod : n % sectorSize = n := Nat.mod_eq_of_lt hn
  rw [fileByte, hdiv, hmod]
  rfl

lemma fileByte_cons_add : fileByte v (d :: ds) (512 + n) = fileByte v ds n := by
  have hdiv : (512 + n) / sectorSize = n / sectorSize + 1 := by
    show (512 + n) / 512 = n / 512 + 1
    omega
  have hmod : (512 + n) % sectorSize = n % sectorSize := by
    show (512 + n) % 512 = n % 512
    omega
  rw [fileByte, fileByte, hdiv, hmod]
  rfl

lemma WrittenTo.cons (hw : WellFormed v) (hd : Valid v d) (hnew : d ∉ ds)
    (hchunk : ∀ j < min 512 n, chunk j = data j)
    (h : WrittenTo ds (fun j => data (512 + j)) (n - 512) (v.setContent d chunk) v') :
    WrittenTo (d :: ds) data n v v' where
  wellFormed := h.wellFormed
  bs := h.bs
  table c hc := (h.table c hc).trans (tableEntry_setContent hw.toLayout hd hc)
  other c hc hne := by
    have hcd : c ≠ d := fun heq => hne (heq ▸ List.mem_cons_self)
    have hcds : c ∉ ds := fun hmem => hne (List.mem_cons_of_mem _ hmem)
    rw [h.other c hc hcds, content_setContent_of_ne hw.toLayout hd hc hcd]
  bytes j hj := by
    by_cases hlt : j < 512
    · rw [fileByte_cons_lt hlt, h.other d hd hnew, content_setContent]
      exact hchunk j (by omega)
    · obtain ⟨i, rfl⟩ := Nat.exists_eq_add_of_le (not_lt.mp hlt)
      rw [fileByte_cons_add]
      exact h.bytes i (by omega)

end Bytes

section Loop

variable {s : Session} {d : ℕ} {data : ℕ → UInt8} {length : ℕ} {chunk b : Sector} {isBuf : Bool}

lemma holds_written (hw : Layout s.drive.toVolume) (hd : Valid s.drive.toVolume d)
    (hbuf : isBuf = true → b = chunk) :
    (((s.goto d).setBuf b).written (s.drive.bs.firstSectorOfCluster d) chunk isBuf).Holds := by
  have hp := hw.placed hd
  have hne : s.drive.bs.fatSectorOf d ≠ s.drive.bs.firstSectorOfCluster d :=
    ne_of_lt (lt_of_lt_of_le hp.fatSector hp.behind)
  constructor
  · intro _
    show s.drive.disk.sectors (s.drive.bs.fatSectorOf d) =
      Function.update s.drive.disk.sectors (s.drive.bs.firstSectorOfCluster d) _ (s.drive.bs.fatSectorOf d)
    rw [Function.update_of_ne hne]
  · intro _ hupdated
    have hcontent : (s.drive.toVolume.setContent d chunk).content d = chunk := content_setContent
    have hisBuf : isBuf = true := by simpa [Session.written, Session.setCtx] using hupdated
    exact ⟨(hbuf hisBuf).trans hcontent.symm, rfl⟩

variable (data) in
lemma writeClusters_turn (fuel : ℕ) (hw : WellFormed s.drive.toVolume) (hd : Valid s.drive.toVolume d)
    (hs : s.Holds) {wrote : ℕ} (hlt : wrote < length) : ∃ chunk t,
      (writeClusters data length (fuel + 1) wrote d).run s =
        (writeClusters data length fuel (wrote + min 512 (length - wrote)) (s.drive.toVolume.tableEntry d)).run t ∧
      t.drive.toVolume = s.drive.toVolume.setContent d chunk ∧ t.Holds ∧ t.user = s.user ∧
      t.inodeSize = s.inodeSize ∧ ∀ j < min 512 (length - wrote), chunk j = data (wrote + j) := by
  have hp := hw.placed hd
  have hgoto := changeActiveCluster_buf hw hd hs
  have hlow := hw.valid_lt hd
  by_cases hwhole : sectorSize ≤ length - wrote
  · -- a whole sector, from the caller's buffer
    have hwrite := @writeDataSectors_ok (s.goto d) _ (fun k => data (wrote + k)) false
      hp.sector hw.size
    refine ⟨fun k => data (wrote + k), (s.goto d).written (s.drive.bs.firstSectorOfCluster d)
      (fun k => data (wrote + k)) false, ?_, rfl, ?_, rfl, rfl, fun _ _ => rfl⟩
    · have hstep : (if length - wrote < sectorSize then length - wrote else sectorSize) =
          min 512 (length - wrote) := by
        rw [if_neg (not_lt.mpr hwhole)]
        exact (min_eq_left hwhole).symm
      rw [writeClusters, if_pos ⟨hlt, hlow⟩, bind_run hgoto]
      dsimp only
      rw [if_pos hwhole, state_bind, hstep]
      exact (bind_run hwrite).trans rfl
    · exact holds_written (b := s.drive.content d) hw.toLayout hd nofun
  · -- the end of the data, by way of `buf`
    set chunk := splice 0 (length - wrote) (fun k => data (wrote + k)) (s.drive.content d) with hchunk
    have hwrite := @writeDataSectors_ok ((s.goto d).setBuf chunk) _ chunk true
      hp.sector hw.size
    have hstep : (if length - wrote < sectorSize then length - wrote else sectorSize) =
        min 512 (length - wrote) := by
      rw [if_pos (not_le.mp hwhole)]
      exact (min_eq_right (not_le.mp hwhole).le).symm
    refine ⟨chunk, ((s.goto d).setBuf chunk).written (s.drive.bs.firstSectorOfCluster d) chunk true, ?_, rfl,
      ?_, rfl, rfl, ?_⟩
    · rw [writeClusters, if_pos ⟨hlt, hlow⟩, bind_run hgoto]
      dsimp only
      rw [if_neg hwhole, update_bind, state_bind, hstep]
      exact (bind_run hwrite).trans rfl
    · exact holds_written (b := chunk) hw.toLayout hd fun _ => rfl
    · intro j hj
      have hin := @splice_inside _ 0 j _ (fun k => data (wrote + k)) (s.drive.content d)
        (lt_of_lt_of_le hj (min_le_right _ _))
      rwa [Nat.zero_add] at hin

lemma writeClusters_ok : ∀ {ds : List ℕ} {fuel wrote cluster : ℕ} {s : Session}, WellFormed s.drive.toVolume →
    s.Holds → (wrote < length → s.drive.toVolume.Chain cluster ds) → length - wrote ≤ 512 * ds.length →
    length - wrote < fuel →
      ∃ s', (writeClusters data length fuel wrote cluster).run s = .ok (some (), s') ∧ s'.user = s.user ∧
        s'.inodeSize = s.inodeSize ∧
        WrittenTo ds (fun j => data (wrote + j)) (length - wrote) s.drive.toVolume s'.drive.toVolume
  | ds, 0, wrote, cluster, s, _, _, _, _, hfuel => absurd hfuel (Nat.not_lt_zero _)
  | ds, fuel + 1, wrote, cluster, s, hw, hs, hchain, hroom, hfuel => by
      by_cases hlt : wrote < length
      · obtain ⟨rest, rfl, hd, hrest⟩ := (hchain hlt).cons
        obtain ⟨chunk, t, hturn, hvolume, ht, huser, hinode, hchunk⟩ :=
          writeClusters_turn data fuel hw hd hs hlt
        have hnew : cluster ∉ rest := (List.nodup_cons.mp (hchain hlt).1.nodup).1
        have hentry : (s.drive.toVolume.setContent cluster chunk).tableEntry cluster =
            s.drive.toVolume.tableEntry cluster := tableEntry_setContent hw.toLayout hd hd
        rw [List.length_cons] at hroom
        obtain ⟨s', hrun, huser', hinode', hwritten⟩ := @writeClusters_ok rest fuel
          (wrote + min 512 (length - wrote)) (s.drive.toVolume.tableEntry cluster) t (by rw [hvolume]; exact hw.setContent) ht
          (fun hlt' => by
            rw [hvolume]
            rcases hrest with ⟨rfl, -⟩ | ⟨-, hrest⟩
            · rw [List.length_nil] at hroom
              omega
            · exact hrest.setContent hw.toLayout hd) (by omega) (by omega)
        refine ⟨s', hturn.trans hrun, huser'.trans huser, hinode'.trans hinode, ?_⟩
        rw [hvolume] at hwritten
        refine WrittenTo.cons hw hd hnew hchunk (hwritten.congr (by omega) fun j hj => ?_)
        rw [show min 512 (length - wrote) = 512 by omega, Nat.add_assoc]
      · have hnone : length - wrote = 0 := by omega
        refine ⟨s, ?_, rfl, rfl, ?_⟩
        · rw [writeClusters, if_neg fun h => hlt h.1]
          rfl
        · rw [hnone]
          exact WrittenTo.refl hw

end Loop

/-! ## A call -/

section Call

variable {v v' : Volume} {s : Session} {c size length n : ℕ} {cs ds : List ℕ} {name : Name} {p : Slot}
  {data : ℕ → UInt8}

lemma FileOn.written (h : FileOn v c cs name p ds size) (hw : WrittenTo ds data n v v') :
    FileOn v' c cs name p ds size := by
  have hcontent : ∀ d ∈ cs, v'.content d = v.content d := fun d hd =>
    hw.other d (h.directory.2 d hd) fun hds => h.stored.apart d hds hd
  have hentry : v'.entryIn p = v.entryIn p := by
    rw [Volume.entryIn, Volume.entryIn, hcontent _ h.stored.mem_cs]
  refine ⟨hw.wellFormed, hw.chain h.directory, ?_, by rw [hentry, h.size]⟩
  refine ⟨?_, h.stored.no_slash, by rw [hentry, h.stored.regular], by rw [hentry, h.stored.length], ?_, ?_,
    h.stored.apart⟩
  · rw [firstLooking_congr (v := v) fun d hd => by rw [hcontent d hd], h.stored.first]
  · rw [hentry]
    exact h.stored.empty
  · intro hds
    rw [hentry]
    exact hw.chain (h.stored.chain hds)

lemma resizeTo_ok (h : FileOn s.drive.toVolume c cs name p ds s.inodeSize) (hle : s.inodeSize ≤ length)
    (hnew : length + 511 < 4294967296)
    (hfree : (length + 511) / 512 - ds.length ≤ s.drive.toVolume.freeClusters.length) :
    ∃ ds' s', (if s.inodeSize ≠ length then resize c name length else pure ()).run s = .ok (some (), s') ∧
      FileOn s'.drive.toVolume c cs name p ds' length ∧ s'.user = s.user ∧ s'.inodeSize = length := by
  by_cases hsame : s.inodeSize = length
  · rw [if_neg fun hne => hne hsame]
    exact ⟨ds, s, rfl, hsame ▸ h, rfl, hsame⟩
  · rw [if_pos hsame]
    exact resize_ok h hle hnew hfree

variable (data) in
/-- **A call of `write_buf_to_file`** with no fewer bytes than the file has, when there are enough free
clusters for it. -/
lemma writeBufToFile_ok (h : FileOn s.drive.toVolume c cs name p ds s.inodeSize) (hle : s.inodeSize ≤ length)
    (hnew : length + 511 < 4294967296)
    (hfree : (length + 511) / 512 - ds.length ≤ s.drive.toVolume.freeClusters.length) :
    ∃ ds' s', (writeBufToFile c name data length).run s = .ok (some (), s') ∧
      FileOn s'.drive.toVolume c cs name p ds' length ∧ s'.inodeSize = length ∧
      ∀ i < length, fileByte s'.drive.toVolume ds' i = data i := by
  obtain ⟨ds', t, hresize, hfile, -, hinode⟩ := resizeTo_ok h hle hnew hfree
  have hrun : (writeBufToFile c name data length).run s =
      (if length = 0 then pure () else withCtx do
        let id ← getChildDirEntryId c name
        let e ← entry id
        writeClusters data length (length + 1) 0 (DirEntry.firstClusterAddr e)).run t := by
    unfold writeBufToFile
    rw [state_bind]
    dsimp only
    by_cases hsame : s.inodeSize = length
    · rw [if_neg fun hne => hne hsame] at hresize ⊢
      cases hresize
      rfl
    · rw [if_pos hsame] at hresize ⊢
      exact bind_run hresize
  by_cases hzero : length = 0
  · refine ⟨ds', t, ?_, hfile, hinode, fun i hi => absurd hi (by omega)⟩
    rw [hrun, if_pos hzero]
    rfl
  · have hds : ds' ≠ [] := by
      have hlength := hfile.stored.length
      rw [hfile.size] at hlength
      rintro rfl
      rw [List.length_nil] at hlength
      omega
    obtain ⟨t', hwrite, -, hinode', hwritten⟩ := @writeClusters_ok data length ds' (length + 1) 0 _
      (t.gotoEntry p.1 p.2) hfile.wellFormed (Session.holds_gotoEntry ..)
      (fun _ => hfile.stored.chain hds)
      (by rw [hfile.stored.length, hfile.size]; omega) (by omega)
    have hbytes : WrittenTo ds' data length t.drive.toVolume t'.drive.toVolume :=
      hwritten.congr rfl fun j _ => by rw [Nat.zero_add]
    refine ⟨ds', t'.setCtx t.ctx, ?_, hfile.written hbytes, hinode'.trans hinode, hbytes.bytes⟩
    rw [hrun, if_neg hzero]
    refine withCtx_run ?_
    rw [bind_run (hfile.stored.lookup_eq hfile.wellFormed hfile.directory), bind_run entry_run]
    exact hwrite

variable (data) in
lemma writeBufToFile_gives_up (h : FileOn s.drive.toVolume c cs name p ds s.inodeSize)
    (hle : s.inodeSize ≤ length) (hnew : length + 511 < 4294967296)
    (hfew : s.drive.toVolume.zeroWords.length < (length + 511) / 512 - ds.length) :
    ∃ s', (writeBufToFile c name data length).run s = .ok (none, s') ∧
      s'.drive.toVolume = s.drive.toVolume ∧ s'.inodeSize = s.inodeSize := by
  obtain ⟨s', hresize, hvolume, hinode⟩ := resize_gives_up h hle hnew hfew
  have hlength : ds.length = (s.inodeSize + 511) / 512 := by rw [h.stored.length, h.size]
  have hne : s.inodeSize ≠ length := by
    rintro rfl
    omega
  refine ⟨s', ?_, hvolume, hinode⟩
  unfold writeBufToFile
  rw [state_bind]
  dsimp only
  rw [if_pos hne]
  exact bind_giveUp hresize

end Call

end FAT

end BrebOS

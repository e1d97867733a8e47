import BrebOS.FileManagement.FAT.Touch
import BrebOS.Lib.Buffer

/-!
# Loading files

`load_file_to_buf` skips the clusters in front of the offset and loads what follows, whole sectors straight
to where they belong and the others by way of `buf`.  A whole sector that went to the caller's buffer is not
in `buf`, so what the loop relies on is that the next cluster is always another one.
-/

namespace BrebOS

namespace FAT

open Attempt

/-! ## Going from cluster to cluster -/

/-- The call is at a cluster of a volume: the buffer of the table is up to date, and `ctx` has the entry. -/
structure Session.At (v : Volume) (c : ℕ) (user : List UInt8) (s : Session) : Prop where
  volume : s.drive.toVolume = v
  fatSector : s.ctx.fatSector = v.bs.fatSectorOf c
  table : s.drive.table = v.disk.sectors (v.bs.fatSectorOf c)
  active : s.ctx.activeCluster = c
  value : s.ctx.tableValue = v.tableEntry c
  user : s.user = user

/-- The caller's buffer with bytes written at an index. -/
def Session.setUser (i : ℕ) (bytes : List UInt8) (s : Session) : Session :=
  { s with user := s.user.take i ++ bytes ++ s.user.drop (i + bytes.length) }

section Moves

variable {v : Volume} {s : Session} {c d i : ℕ} {user : List UInt8}

lemma Session.At.table_eq (h : s.At v c user) : s.drive.table = s.drive.disk.sectors s.ctx.fatSector := by
  obtain rfl := h.volume
  rw [h.table, h.fatSector]

lemma Session.At.must_load (h : s.At v c user) (hne : d ≠ c) :
    s.ctx.activeCluster ≠ d ∨ s.ctx.bufferUpdated := Or.inl (by rw [h.active]; exact hne.symm)

lemma Session.At.load (h : s.At v c user) (hw : WellFormed v) (hd : OnDisk v d) (hne : d ≠ c) :
    (changeActiveCluster d (some .buf)).run s = .ok (some (), s.goto d) := by
  obtain rfl := h.volume
  exact changeActiveCluster_read hw.reads hd (h.must_load hne) fun _ => h.table_eq

lemma Session.At.load_fails (h : s.At v c user) (hw : WellFormed v) (hc : Valid v c) (hd : ¬OnDisk v d)
    (hne : d ≠ c) : ∃ s', (changeActiveCluster d (some .buf)).run s = .ok (none, s') ∧
      s'.drive.toVolume = v := by
  obtain rfl := h.volume
  unfold changeActiveCluster
  rw [state_bind]
  dsimp only
  rw [if_pos (h.must_load hne), update_bind]
  by_cases hsector : u32 (s.drive.bs.firstSectorOfCluster d + 1) ≤ s.drive.disk.size
  · have hfat : ¬u32 (s.drive.bs.fatSectorOf d + 1) ≤ s.drive.disk.size := fun hfat => hd ⟨hsector, hfat⟩
    -- the sector of the table is not the one in the buffer, which is on the disk
    have hother : s.drive.bs.fatSectorOf d ≠ s.ctx.fatSector := by
      intro heq
      rw [heq, h.fatSector] at hfat
      exact hfat (hw.onDisk hc).2
    have hread := bind_run (f := fun data => do
      store data .buf
      update fun s => s.setCtx { s.ctx with bufferUpdated := false }
      readTableEntry d) (readSectors_onDisk (s := s.setCtx
        { s.ctx with activeCluster := d, activeSector := s.drive.bs.firstSectorOfCluster d })
      (by exact hw.reads) (by exact hsector))
    rw [hread]
    unfold store
    rw [update_bind, update_bind]
    exact readTableEntry_offDisk (by exact hfat) (by exact hother)
  · exact ⟨_, bind_giveUp (readSectors_offDisk (by exact hsector)), rfl⟩

lemma store_user_ok {data : Sector} (hroom : i + sectorSize ≤ s.user.length) :
    (store data (.user i)).run s =
      .ok (some (), s.setUser i ((List.range sectorSize).map data)) := by
  refine check_run ?_
  rw [pokes_ok (by rwa [List.length_map, List.length_range])]
  rfl

lemma copyToUser_ok {f n : ℕ} (hroom : i + n ≤ s.user.length) :
    (copyToUser i f n).run s = .ok (some (), s.setUser i ((List.range' f n).map s.drive.buf)) := by
  refine check_run ?_
  rw [pokes_ok (by rwa [List.length_map, List.length_range'])]
  rfl

/-- A cluster was read to the caller's buffer. -/
def Session.gotoUser (d i : ℕ) (s : Session) : Session :=
  ((s.goto d).setBuf s.drive.buf).setUser i ((List.range sectorSize).map (s.drive.content d))

lemma Session.At.loadUser (h : s.At v c user) (hw : WellFormed v) (hd : OnDisk v d) (hne : d ≠ c)
    (hroom : i + sectorSize ≤ user.length) :
    (changeActiveCluster d (some (.user i))).run s = .ok (some (), s.gotoUser d i) := by
  obtain rfl := h.volume
  unfold changeActiveCluster
  rw [state_bind]
  dsimp only
  rw [if_pos (h.must_load hne), update_bind]
  refine (bind_run (readSectors_onDisk ?_ ?_)).trans ?_
  · exact hw.reads
  · exact hd.1
  · refine (bind_run (store_user_ok ?_)).trans ?_
    · rw [← h.user] at hroom
      exact hroom
    · rw [update_bind]
      exact readTableEntry_ok hw.reads hd.2 fun _ => h.table_eq

lemma Session.At.skip (h : s.At v c user) (hw : WellFormed v) (hd : OnDisk v d) :
    ∃ s', (changeActiveCluster d none).run s = .ok (some (), s') ∧ s'.At v d user := by
  obtain rfl := h.volume
  unfold changeActiveCluster
  rw [state_bind]
  dsimp only
  rw [update_bind]
  exact ⟨_, readTableEntry_ok hw.reads hd.2 fun _ => h.table_eq, rfl, rfl, rfl, rfl, rfl, h.user⟩

lemma Session.At.goto (h : s.At v c user) : (s.goto d).At v d user := by
  obtain rfl := h.volume
  exact ⟨rfl, rfl, rfl, rfl, rfl, h.user⟩

lemma Session.At.setUser {bytes : List UInt8} (h : s.At v c user) :
    (s.setUser i bytes).At v c (s.setUser i bytes).user :=
  ⟨h.volume, h.fatSector, h.table, h.active, h.value, rfl⟩

end Moves

/-! ## Files -/

/-- A byte of a file with some clusters. -/
def fileByte (v : Volume) (ds : List ℕ) (i : ℕ) : UInt8 :=
  v.content (ds.getD (i / sectorSize) 0) (i % sectorSize)

/-- The caller's buffer when some bytes of a file from an offset on were loaded. -/
def loadedTo (v : Volume) (ds : List ℕ) (offset n : ℕ) (user : List UInt8) : List UInt8 :=
  (List.range n).map (fun j => fileByte v ds (offset + j)) ++ user.drop n

/-- A regular file in a slot of a directory, with a short name that nothing else in the directory looks to
have, and its clusters, which are as many as its size needs and not those of the directory. -/
structure RegularFile (v : Volume) (cs : List ℕ) (name : Name) (p : Slot) (ds : List ℕ) : Prop where
  mem : p ∈ slots cs
  looks : looksNamed name (v.content p.1) p.2 = true
  unique : ∀ q ∈ slots cs, looksNamed name (v.content q.1) q.2 = true → q = p
  no_slash : name.head? ≠ some slash
  short : DirEntry.getName (v.entryIn p) = name
  regular : DirEntry.isDirectory (v.entryIn p) = false
  length : ds.length = (DirEntry.fileSize (v.entryIn p) + 511) / 512
  empty : ds = [] → DirEntry.firstClusterAddr (v.entryIn p) = 0
  chain : ds ≠ [] → v.Chain (DirEntry.firstClusterAddr (v.entryIn p)) ds
  apart : ∀ d ∈ ds, d ∉ cs

/-- A regular file that a lookup of a name, short or long, comes to first. -/
structure StoredFile (v : Volume) (cs : List ℕ) (name : Name) (p : Slot) (ds : List ℕ) : Prop where
  first : v.firstLooking cs name = some p
  no_slash : name.head? ≠ some slash
  regular : DirEntry.isDirectory (v.entryIn p) = false
  length : ds.length = (DirEntry.fileSize (v.entryIn p) + 511) / 512
  empty : ds = [] → DirEntry.firstClusterAddr (v.entryIn p) = 0
  chain : ds ≠ [] → v.Chain (DirEntry.firstClusterAddr (v.entryIn p)) ds
  apart : ∀ d ∈ ds, d ∉ cs

lemma RegularFile.stored {v : Volume} {cs : List ℕ} {name : Name} {p : Slot} {ds : List ℕ}
    (h : RegularFile v cs name p ds) : StoredFile v cs name p ds := by
  refine ⟨?_, h.no_slash, h.regular, h.length, h.empty, h.chain, h.apart⟩
  have hsome : (v.firstLooking cs name).isSome := List.find?_isSome.mpr ⟨p, h.mem, h.looks⟩
  obtain ⟨q, hq⟩ := Option.isSome_iff_exists.mp hsome
  have hlooks : looksNamed name (v.content q.1) q.2 = true := by
    have := List.find?_some hq
    exact this
  rw [hq, h.unique q (List.mem_of_find?_eq_some hq) hlooks]

section Loops

variable {v : Volume} {s : Session} {c k n offset : ℕ} {ds : List ℕ} {user : List UInt8}

lemma setUser_loadedTo (hs : s.user = loadedTo v ds offset k user) {bytes : List UInt8}
    (hbytes : bytes = (List.range n).map fun j => fileByte v ds (offset + k + j)) :
    (s.setUser k bytes).user = loadedTo v ds offset (k + n) user := by
  have hlen : bytes.length = n := by rw [hbytes, List.length_map, List.length_range]
  have hfront : ((List.range k).map fun j => fileByte v ds (offset + j)).length = k := by
    rw [List.length_map, List.length_range]
  show s.user.take k ++ bytes ++ s.user.drop (k + bytes.length) = _
  rw [hs, loadedTo, loadedTo, List.take_left' hfront, hlen, List.drop_append, hfront,
    List.drop_of_length_le (by rw [hfront]; omega), List.nil_append, List.drop_drop,
    show k + (k + n - k) = k + n by omega, List.range_add, List.map_append, List.map_map, hbytes]
  simp only [Function.comp_def, Nat.add_assoc]

lemma fileByte_of_drop {d : ℕ} {rest : List ℕ} (hd : ds.drop k = d :: rest) {j : ℕ} (hj : j < 512) :
    fileByte v ds (512 * k + j) = v.content d j := by
  have hget : ds.getD k 0 = d := by
    rw [List.getD_eq_getElem?_getD, ← List.head?_drop, hd]
    rfl
  rw [fileByte, show (512 * k + j) / sectorSize = k by show (512 * k + j) / 512 = k; omega,
    show (512 * k + j) % sectorSize = j by show (512 * k + j) % 512 = j; omega, hget]

lemma skipClusters_ok (hw : WellFormed v) : ∀ {n : ℕ} (co : ℕ) {cluster c : ℕ} {ds : List ℕ}
    {s : Session}, v.Chain cluster ds → n ≤ ds.length → s.At v c user →
    ∃ c' s', (skipClusters n co cluster).run s =
        .ok (some (co + n, ds.getD n (v.tableEntry (ds.getLastD 0))), s') ∧
      s'.At v c' user ∧ (c' = c ∨ c' ∈ ds.take n)
  | 0, co, cluster, c, ds, s, hchain, _, hs => by
      obtain ⟨rest, rfl, -⟩ := hchain.cons
      exact ⟨c, s, rfl, hs, Or.inl rfl⟩
  | n + 1, co, cluster, c, ds, s, hchain, hn, hs => by
      obtain ⟨rest, rfl, hvalid, hrest⟩ := hchain.cons
      obtain ⟨s₁, hrun, hs₁⟩ := hs.skip hw (hw.onDisk hvalid)
      have hlt : cluster < clusterMinEoc := by
        have := hvalid.2
        have := hw.clusters
        unfold clusterMinEoc
        omega
      rw [skipClusters, if_pos hlt, bind_run hrun, state_bind, hs₁.value]
      rcases hrest with ⟨rfl, -⟩ | ⟨-, hrest⟩
      · obtain rfl : n = 0 := by simpa using hn
        exact ⟨cluster, s₁, rfl, hs₁, Or.inr (by simp)⟩
      · obtain ⟨c', s', hrun', hs', hc'⟩ := skipClusters_ok hw (n := n) (co + 1) hrest (by simpa using hn) hs₁
        obtain ⟨rest', rfl, -⟩ := hrest.cons
        refine ⟨c', s', ?_, hs', ?_⟩
        · rw [hrun', Nat.add_assoc, Nat.add_comm 1]
          rfl
        · rw [List.take_succ_cons, List.mem_cons]
          exact Or.inr hc'

lemma length_loadedTo (h : k ≤ user.length) : (loadedTo v ds offset k user).length = user.length := by
  rw [loadedTo, List.length_append, List.length_map, List.length_range, List.length_drop]
  omega

lemma Session.At.gotoUser {d m : ℕ} {rest : List ℕ} (h : s.At v c (loadedTo v ds offset k user))
    (hk : offset + k = 512 * m) (hd : ds.drop m = d :: rest) :
    (s.gotoUser d k).At v d (loadedTo v ds offset (k + sectorSize) user) := by
  have hbytes : (List.range sectorSize).map (s.drive.content d) =
      (List.range sectorSize).map fun j => fileByte v ds (offset + k + j) := by
    refine List.map_congr_left fun j hj => ?_
    rw [hk, fileByte_of_drop hd (List.mem_range.mp hj), h.volume]
  have huser : (s.gotoUser d k).user = loadedTo v ds offset (k + sectorSize) user :=
    setUser_loadedTo (s := (s.goto d).setBuf s.drive.buf) h.user hbytes
  obtain rfl := h.volume
  exact ⟨rfl, rfl, rfl, rfl, rfl, huser⟩

/-- What the loop that loads the rest finds: the next cluster of the file, if there is more to load. -/
def More (v : Volume) (ds : List ℕ) (offset length loaded c cluster : ℕ) : Prop :=
  loaded < length → ∃ k, offset + loaded = 512 * k ∧ v.Chain cluster (ds.drop k) ∧ c ∉ ds.drop k

lemma more_next {length loaded d : ℕ} (hd : v.Chain d (ds.drop k))
    (hlen : offset + length ≤ 512 * ds.length) (hloaded : loaded < length → offset + loaded = 512 * (k + 1)) :
    More v ds offset length loaded d (v.tableEntry d) := by
  intro hlt
  have hoffset := hloaded hlt
  obtain ⟨rest, hdrop, -, hrest⟩ := hd.cons
  have hnext : ds.drop (k + 1) = rest := by
    rw [← List.drop_drop, hdrop]
    rfl
  refine ⟨k + 1, hoffset, ?_, ?_⟩
  · rcases hrest with ⟨rfl, -⟩ | ⟨-, hrest⟩
    · have := congrArg List.length hnext
      rw [List.length_drop, List.length_nil] at this
      omega
    · rwa [hnext]
  · have hnodup := hd.1.nodup
    rw [hdrop] at hnodup
    rw [hnext]
    exact (List.nodup_cons.mp hnodup).1

lemma loadRest_ok (hw : WellFormed v) {length : ℕ} (hlen : offset + length ≤ 512 * ds.length)
    (huser : length ≤ user.length) : ∀ {fuel loaded cluster c : ℕ} {s : Session}, loaded ≤ length →
      length - loaded < fuel → s.At v c (loadedTo v ds offset loaded user) →
      More v ds offset length loaded c cluster →
      ∃ c' s', (loadRest length fuel loaded cluster).run s = .ok (some length, s') ∧
        s'.At v c' (loadedTo v ds offset length user)
  | 0, _, _, _, _, _, hfuel, _, _ => absurd hfuel (Nat.not_lt_zero _)
  | fuel + 1, loaded, cluster, c, s, hle, hfuel, hs, hmore => by
      by_cases hlt : loaded < length
      · obtain ⟨k, hk, hchain, hc⟩ := hmore hlt
        obtain ⟨rest, hdrop, hvalid, -⟩ := hchain.cons
        have hne : cluster ≠ c := by
          rintro rfl
          rw [hdrop] at hc
          exact hc List.mem_cons_self
        have hlow : cluster < clusterMinEoc := by
          have := hvalid.2
          have := hw.clusters
          unfold clusterMinEoc
          omega
        have hroom : (loadedTo v ds offset loaded user).length = user.length := length_loadedTo (by omega)
        rw [loadRest, if_pos ⟨hlt, hlow⟩]
        dsimp only
        by_cases hrem : length - loaded < sectorSize
        · -- the end of what is to be loaded
          have hsum : loaded + (length - loaded) = length := by omega
          have hs₁ : (s.goto cluster).At v cluster (loadedTo v ds offset loaded user) := hs.goto
          have hcopy := copyToUser_ok (s := s.goto cluster) (i := loaded) (n := length - loaded) (f := 0)
            (by rw [hs₁.user, hroom]; omega)
          have hbytes : (List.range' 0 (length - loaded)).map (s.goto cluster).drive.buf =
              (List.range (length - loaded)).map fun j => fileByte v ds (offset + loaded + j) := by
            rw [← List.range_eq_range']
            refine List.map_congr_left fun j hj => ?_
            rw [hk, fileByte_of_drop hdrop (lt_trans (List.mem_range.mp hj) hrem), Session.goto_buf, hs.volume]
          have huser' := setUser_loadedTo hs₁.user hbytes
          rw [if_pos hrem, bind_run (hs.load hw (hw.onDisk hvalid) hne), bind_run hcopy, state_bind,
            if_neg (by omega), hsum]
          rw [hsum] at huser'
          refine loadRest_ok hw hlen huser le_rfl (by omega) (huser' ▸ hs₁.setUser) ?_
          exact fun hlt => absurd hlt (lt_irrefl _)
        · have hs₁ := hs.gotoUser hk hdrop
          rw [if_neg hrem, bind_run (hs.loadUser hw (hw.onDisk hvalid) hne (by rw [hroom]; omega)), state_bind,
            hs₁.value, show (if sectorSize < length - loaded then sectorSize else length - loaded) =
              sectorSize by split <;> omega]
          refine loadRest_ok hw hlen huser (by omega) ?_ hs₁ (more_next hchain hlen ?_)
          · have : 0 < sectorSize := by decide
            omega
          · intro _
            show offset + (loaded + 512) = 512 * (k + 1)
            omega
      · obtain rfl : loaded = length := by omega
        rw [loadRest, if_neg fun h => hlt h.1]
        exact ⟨c, s, rfl, hs⟩

lemma loadFrom_ok (hw : WellFormed v) {length d i : ℕ} (hi : i < 512) (hoffset : offset = 512 * k + i)
    (hlen : offset + length ≤ 512 * ds.length) (huser : length ≤ user.length)
    (hchain : v.Chain d (ds.drop k)) (hc : c ∉ ds.drop k) (hs : s.At v c user) :
    ∃ c' s', (loadFrom d i length).run s = .ok (some length, s') ∧
      s'.At v c' (loadedTo v ds offset length user) := by
  obtain ⟨rest, hdrop, hvalid, -⟩ := hchain.cons
  have hne : d ≠ c := by
    rintro rfl
    rw [hdrop] at hc
    exact hc List.mem_cons_self
  have hs : s.At v c (loadedTo v ds offset 0 user) := hs
  unfold loadFrom
  by_cases hwhole : i = 0 ∧ sectorSize ≤ length
  · obtain ⟨rfl, hwhole⟩ := hwhole
    have hs₁ := hs.gotoUser (m := k) (by omega) hdrop
    rw [Nat.zero_add] at hs₁
    rw [if_pos ⟨rfl, hwhole⟩, bind_run (hs.loadUser hw (hw.onDisk hvalid) hne ?_), pure_bind_run]
    beta_reduce
    rw [state_bind, hs₁.value]
    · refine loadRest_ok hw hlen huser hwhole (by omega) hs₁ (more_next hchain hlen ?_)
      intro _
      show offset + 512 = 512 * (k + 1)
      omega
    · show 0 + sectorSize ≤ user.length
      omega
  · have hs₁ : (s.goto d).At v d (loadedTo v ds offset 0 user) := hs.goto
    have hcopy := copyToUser_ok (s := s.goto d) (i := 0) (n := min length (sectorSize - i)) (f := i)
      (by rw [hs₁.user]; show 0 + _ ≤ user.length; omega)
    have hbytes : (List.range' i (min length (sectorSize - i))).map (s.goto d).drive.buf =
        (List.range (min length (sectorSize - i))).map fun j => fileByte v ds (offset + 0 + j) := by
      rw [show List.range' i (min length (sectorSize - i)) =
        (List.range (min length (sectorSize - i))).map (i + ·) by
          rw [List.range_eq_range', List.map_add_range', Nat.add_zero], List.map_map]
      refine List.map_congr_left fun j hj => ?_
      have hj := List.mem_range.mp hj
      have hjlt : i + j < 512 := by
        have : j < 512 - i := lt_of_lt_of_le hj (min_le_right ..)
        omega
      rw [Function.comp_apply, Nat.add_zero, hoffset, Nat.add_assoc, fileByte_of_drop hdrop hjlt,
        Session.goto_buf, hs.volume]
    have huser' := setUser_loadedTo hs₁.user hbytes
    rw [Nat.zero_add] at huser'
    rw [if_neg hwhole, bind_run (hs.load hw (hw.onDisk hvalid) hne)]
    dsimp only
    rw [bind_run hcopy, pure_bind_run, state_bind]
    have hs₂ : ((s.goto d).setUser 0 _).At v d (loadedTo v ds offset (min length (sectorSize - i)) user) :=
      huser' ▸ hs₁.setUser
    rw [hs₂.value]
    refine loadRest_ok hw hlen huser (min_le_left ..) (by omega) hs₂ (more_next hchain hlen ?_)
    intro hlt
    have hlt : min length (512 - i) < length := hlt
    have hmin : min length (sectorSize - i) = 512 - i := by
      show min length (512 - i) = 512 - i
      omega
    rw [hmin]
    omega

lemma loadFrom_nothing (hw : WellFormed v) {d i : ℕ} (hd : OnDisk v d) (hne : d ≠ c) (hs : s.At v c user) :
    ∃ s', (loadFrom d i 0).run s = .ok (some 0, s') ∧ s'.At v d user := by
  have huser : ((s.goto d).setUser 0 []).user = user := by
    show s.user.take 0 ++ [] ++ s.user.drop 0 = user
    simp [hs.user]
  refine ⟨(s.goto d).setUser 0 [], ?_, huser ▸ hs.goto.setUser⟩
  · unfold loadFrom
    have hcopy := copyToUser_ok (s := s.goto d) (i := 0) (n := min 0 (sectorSize - i)) (f := i)
      (by rw [Nat.zero_min]; omega)
    rw [if_neg fun h => absurd h.2 (by decide), bind_run (hs.load hw hd hne)]
    dsimp only
    rw [bind_run hcopy, pure_bind_run, state_bind, Nat.zero_min]
    rfl

end Loops

/-! ## A call -/

/-- `load_file_to_buf` loads as many bytes as were asked for, those of the file from the offset on, and
writes nothing else to the caller's buffer. -/
def LoadRight (c : ℕ) (name : Name) (ds : List ℕ) (offset length : ℕ) (s : Session) : Prop :=
  ∀ user : List UInt8, length ≤ user.length →
    ∃ s', (loadFileToBuf c name offset length).run { s with user } = .ok (some length, s') ∧
      s'.user = loadedTo s.drive.toVolume ds offset length user

/-- The load starts behind the last byte of a last sector. -/
def AtEnd (size offset length : ℕ) : Prop :=
  length = 0 ∧ offset = size ∧ 0 < size ∧ size % 512 = 0

section Call

variable {s : Session} {v : Volume} {c offset length : ℕ} {cs ds : List ℕ} {name : Name} {p : Slot}

lemma StoredFile.lookup (h : StoredFile s.drive.toVolume cs name p ds) (hw : WellFormed s.drive.toVolume)
    (hchain : s.drive.toVolume.Chain c cs) :
    ∃ s', (getChildDirEntryId c name).run (s.setCtx {}) = .ok (some p.2, s') ∧
      s'.At s.drive.toVolume p.1 s.user ∧ s'.drive.buf = s.drive.content p.1 := by
  have hrun := getChildDirEntryId_ok (s := s.setCtx {}) hw hchain (Session.holds_new s) h.no_slash
  have hcs : cs ≠ [] := by
    obtain ⟨rest, rfl, -⟩ := hchain.cons
    exact List.cons_ne_nil _ _
  have hfirst := h.first
  rw [firstLooking_eq _ hcs, Option.map_eq_some_iff] at hfirst
  obtain ⟨id, hid, rfl⟩ := hfirst
  refine ⟨(s.setCtx {}).lookedUp name cs, ?_, ⟨rfl, rfl, rfl, rfl, rfl, rfl⟩, rfl⟩
  rw [hrun]
  exact congrArg (fun r => Except.ok (r, (s.setCtx {}).lookedUp name cs)) hid

lemma entry_run {id : ℕ} : (entry id).run s = .ok (some (entryAt s.drive.buf id), s) := rfl

/-- The cluster that the load starts from. -/
def startCluster (v : Volume) (ds : List ℕ) (offset : ℕ) : ℕ :=
  if ds = [] then 0 else ds.getD (offset / sectorSize) (v.tableEntry (ds.getLastD 0))

lemma StoredFile.mem_cs (h : StoredFile v cs name p ds) : p.1 ∈ cs := by
  obtain ⟨c, hc, hp⟩ := List.mem_flatMap.mp (List.mem_of_find?_eq_some h.first)
  obtain ⟨i, -, rfl⟩ := List.mem_map.mp hp
  exact hc

lemma loadFileToBuf_run (user : List UInt8) (h : StoredFile s.drive.toVolume cs name p ds)
    (hw : WellFormed s.drive.toVolume) (hchain : s.drive.toVolume.Chain c cs)
    (hle : offset + length ≤ DirEntry.fileSize (s.drive.toVolume.entryIn p)) :
    ∃ c' s', s'.At s.drive.toVolume c' user ∧ (c' = p.1 ∨ c' ∈ ds.take (offset / sectorSize)) ∧
      ∀ r s'', (loadFrom (startCluster s.drive.toVolume ds offset) (offset % 512) length).run s' = .ok (r, s'') →
        (loadFileToBuf c name offset length).run { s with user } = .ok (r, s''.setCtx s.ctx) := by
  set v := s.drive.toVolume with hv
  obtain ⟨s₁, hlookup, hs₁, hbuf⟩ := StoredFile.lookup (s := { s with user }) h hw hchain
  have hsize : DirEntry.fileSize (v.entryIn p) < 4294967296 := leRead_lt _ 28 4
  have hentry : entryAt s₁.drive.buf p.2 = v.entryIn p := by
    rw [hbuf]
    rfl
  have hoffset : offset - offset / sectorSize * sectorSize = offset % 512 := by
    show offset - offset / 512 * 512 = offset % 512
    omega
  have hn : offset / sectorSize ≤ ds.length := by
    rw [h.length]
    show offset / 512 ≤ _
    omega
  -- the clusters in front of the offset
  obtain ⟨c', s', hskip, hs', hc'⟩ : ∃ c' s', (skipClusters (offset / sectorSize) 0
      (DirEntry.firstClusterAddr (v.entryIn p))).run s₁ =
        .ok (some (offset / sectorSize, startCluster v ds offset), s') ∧
      s'.At v c' user ∧ (c' = p.1 ∨ c' ∈ ds.take (offset / sectorSize)) := by
    by_cases hds : ds = []
    · have hzero : offset / sectorSize = 0 := by
        rw [hds, List.length_nil] at hn
        exact Nat.le_zero.mp hn
      refine ⟨p.1, s₁, ?_, hs₁, Or.inl rfl⟩
      rw [hzero, h.empty hds, startCluster, if_pos hds]
      rfl
    · obtain ⟨c', s', hrun, hs', hc'⟩ := skipClusters_ok hw 0 (h.chain hds) hn hs₁
      refine ⟨c', s', ?_, hs', hc'⟩
      rw [hrun, startCluster, if_neg hds, Nat.zero_add]
  refine ⟨c', s', hs', hc', fun r s'' hload => withCtx_run (t := s'') ?_⟩
  rw [bind_run hlookup, bind_run entry_run, hentry, if_neg (by rw [u32_of_lt (by omega)]; omega)]
  dsimp only
  rw [bind_run hskip]
  dsimp only
  rw [if_neg (lt_irrefl _), hoffset]
  exact hload

lemma Volume.Chain.last_eoc : ∀ {cs : List ℕ} {c : ℕ}, v.Chain c cs →
    clusterMinEoc ≤ v.tableEntry (cs.getLastD 0)
  | [], c, h => by
      obtain ⟨rest, hcs, -⟩ := h.cons
      exact nomatch hcs
  | c' :: cs, c, h => by
      obtain ⟨rest, hcs, -, hrest⟩ := h.cons
      cases hcs
      rcases hrest with ⟨rfl, hlast⟩ | ⟨-, hrest⟩
      · exact hlast
      · have hlast := hrest.last_eoc
        obtain ⟨rest', rfl, -⟩ := hrest.cons
        exact hlast

lemma Volume.Chain.drop {d k : ℕ} {rest : List ℕ} (h : v.Chain c ds) (hd : ds.drop k = d :: rest) :
    v.Chain d (ds.drop k) := by
  have hsplit : ds = ds.take k ++ d :: rest := by rw [← hd, List.take_append_drop]
  rw [hd]
  refine ⟨Linked.of_append (hsplit ▸ h.1), fun x hx => h.2 x ?_⟩
  rw [hsplit]
  exact List.mem_append_right _ hx

lemma Layout.valid_lt (hw : Layout v) {d : ℕ} (hd : Valid v d) : d < clusterMinEoc := by
  have := hd.2
  have := hw.clusters
  unfold clusterMinEoc
  omega

lemma Layout.onDisk_zero (hw : Layout v) : OnDisk v 0 := by
  have htable := hw.table
  have hle := hw.table_le
  have htotal := hw.totalSectors
  have hdisk := hw.disk
  have hsize := hw.size
  have hreserved := hw.reserved
  have hfirst : v.bs.firstFatSector = v.bs.reservedSectorCount := rfl
  have hsector : v.bs.firstSectorOfCluster 0 = v.bs.firstDataSector - 2 := by
    rw [BootSector.firstSectorOfCluster, hw.sectorsPerCluster, show u32Sub 0 2 = 4294967294 by decide]
    unfold u32
    omega
  have hfat : v.bs.fatSectorOf 0 = v.bs.firstFatSector := by
    rw [BootSector.fatSectorOf, Nat.zero_mul, show u32 0 / sectorSize = 0 by decide, Nat.add_zero,
      u32_of_lt (by omega)]
  rw [OnDisk, hsector, hfat, u32_of_lt (by omega), u32_of_lt (by omega)]
  omega

lemma StoredFile.start_lt (h : StoredFile v cs name p ds) (hds : ds ≠ [])
    (hle : offset + length ≤ DirEntry.fileSize (v.entryIn p))
    (hend : ¬AtEnd (DirEntry.fileSize (v.entryIn p)) offset length) : offset / 512 < ds.length := by
  have hpos := List.length_pos_of_ne_nil hds
  have hlength := h.length
  by_contra hge
  refine hend ⟨by omega, by omega, by omega, by omega⟩

/-- **A load** gives what was asked for, or fails at the end of a file; it changes nothing on the volume. -/
lemma loadFileToBuf_cases {user : List UInt8} (h : StoredFile s.drive.toVolume cs name p ds)
    (hw : WellFormed s.drive.toVolume) (hchain : s.drive.toVolume.Chain c cs)
    (hle : offset + length ≤ DirEntry.fileSize (s.drive.toVolume.entryIn p)) (huser : length ≤ user.length) :
    ∃ s', s'.drive.toVolume = s.drive.toVolume ∧
      ((loadFileToBuf c name offset length).run { s with user } = .ok (some length, s') ∧
          s'.user = loadedTo s.drive.toVolume ds offset length user ∧
          (AtEnd (DirEntry.fileSize (s.drive.toVolume.entryIn p)) offset length →
            OnDisk s.drive.toVolume (s.drive.toVolume.tableEntry (ds.getLastD 0))) ∨
        (loadFileToBuf c name offset length).run { s with user } = .ok (none, s') ∧
          AtEnd (DirEntry.fileSize (s.drive.toVolume.entryIn p)) offset length ∧
          ¬OnDisk s.drive.toVolume (s.drive.toVolume.tableEntry (ds.getLastD 0))) := by
  obtain ⟨c', s', hs', hc', hrun⟩ := loadFileToBuf_run user h hw hchain hle
  set v := s.drive.toVolume with hv
  have hlength := h.length
  -- the cluster that was active before is one of the volume
  have hvalid : Valid v c' := by
    rcases hc' with rfl | hc'
    · exact hchain.2 _ h.mem_cs
    · have hmem := List.mem_of_mem_take hc'
      exact (h.chain (List.ne_nil_of_mem hmem)).2 c' hmem
  by_cases hds : ds = []
  · -- an empty file is read from cluster 0, which is in front of the data
    rw [hds, List.length_nil] at hlength
    obtain rfl : length = 0 := by omega
    have hne : 0 ≠ c' := by
      have := hvalid.1
      omega
    rw [startCluster, if_pos hds] at hrun
    obtain ⟨s'', hload, hs''⟩ := loadFrom_nothing (i := offset % 512) hw hw.onDisk_zero hne hs'
    refine ⟨s''.setCtx s.ctx, hs''.volume, Or.inl ⟨hrun _ _ hload, hs''.user, fun hend => ?_⟩⟩
    have := hend.2.2.1
    omega
  · by_cases hend : AtEnd (DirEntry.fileSize (v.entryIn p)) offset length
    · obtain ⟨rfl, hoffset, hpos, hmod⟩ := id hend
      have hstart : startCluster v ds offset = v.tableEntry (ds.getLastD 0) := by
        rw [startCluster, if_neg hds, List.getD_eq_default]
        show ds.length ≤ offset / 512
        omega
      have hne : v.tableEntry (ds.getLastD 0) ≠ c' :=
        ne_of_gt (lt_of_lt_of_le (hw.valid_lt hvalid) (h.chain hds).last_eoc)
      rw [hstart] at hrun
      by_cases hon : OnDisk v (v.tableEntry (ds.getLastD 0))
      · obtain ⟨s'', hload, hs''⟩ := loadFrom_nothing (i := offset % 512) hw hon hne hs'
        exact ⟨s''.setCtx s.ctx, hs''.volume, Or.inl ⟨hrun _ _ hload, hs''.user, fun _ => hon⟩⟩
      · obtain ⟨s'', hload, hs''⟩ := hs'.load_fails hw hvalid hon hne
        have hnone : (loadFrom (v.tableEntry (ds.getLastD 0)) (offset % 512) 0).run s' = .ok (none, s'') := by
          unfold loadFrom
          rw [if_neg fun h => absurd h.2 (by decide), bind_giveUp hload]
        exact ⟨s''.setCtx s.ctx, hs'', Or.inr ⟨hrun _ _ hnone, hend, hon⟩⟩
    · have hn : offset / sectorSize < ds.length := h.start_lt hds hle hend
      have hdrop := List.drop_eq_getElem_cons hn
      have hstart : startCluster v ds offset = ds[offset / sectorSize] := by
        rw [startCluster, if_neg hds, List.getD_eq_getElem _ _ hn]
      have hactive : c' ∉ ds.drop (offset / sectorSize) := by
        rcases hc' with rfl | hc'
        · exact fun hmem => h.apart _ (List.mem_of_mem_drop hmem) h.mem_cs
        · have hnodup := (h.chain hds).1.nodup
          rw [← List.take_append_drop (offset / sectorSize) ds] at hnodup
          exact List.disjoint_of_nodup_append hnodup hc'
      rw [hstart] at hrun
      obtain ⟨c'', s'', hload, hs''⟩ := loadFrom_ok hw (i := offset % 512) (Nat.mod_lt _ (by decide))
        (Nat.div_add_mod offset 512).symm (by omega) huser ((h.chain hds).drop hdrop) hactive hs'
      exact ⟨s''.setCtx s.ctx, hs''.volume, Or.inl ⟨hrun _ _ hload, hs''.user, fun hend' => absurd hend' hend⟩⟩

lemma loadRight_iff (h : StoredFile s.drive.toVolume cs name p ds) (hw : WellFormed s.drive.toVolume)
    (hchain : s.drive.toVolume.Chain c cs)
    (hle : offset + length ≤ DirEntry.fileSize (s.drive.toVolume.entryIn p)) :
    LoadRight c name ds offset length s ↔
      (AtEnd (DirEntry.fileSize (s.drive.toVolume.entryIn p)) offset length →
        OnDisk s.drive.toVolume (s.drive.toVolume.tableEntry (ds.getLastD 0))) := by
  constructor
  · intro hright hend
    have hroom : length ≤ ([] : List UInt8).length := le_of_eq hend.1
    obtain ⟨t, ht, -⟩ := hright [] hroom
    obtain ⟨s', -, ⟨-, -, hon⟩ | ⟨hnone, -⟩⟩ := loadFileToBuf_cases h hw hchain hle hroom
    · exact hon hend
    · rw [hnone] at ht
      exact nomatch ht
  · intro hon user huser
    obtain ⟨s', -, ⟨hrun, huser', -⟩ | ⟨-, hend, hoff⟩⟩ := loadFileToBuf_cases h hw hchain hle huser
    · exact ⟨s', hrun, huser'⟩
    · exact absurd (hon hend) hoff

end Call

section OneFile

variable {e : DirEntry}

lemma three_valid : Valid (plainVolume 255) 3 := ⟨by decide, by decide⟩

lemma oneEntry_entryIn : (oneEntry e).entryIn (2, 0) = entryAt (setEntry 0 e fun _ => 0) 0 := by
  rw [Volume.entryIn, oneEntry_content]

lemma oneEntry_file {name : Name} (size : ℕ) (hname : name.head? ≠ some slash)
    (hlooks : looksNamed name (setEntry 0 e fun _ => 0) 0 = true)
    (honly : ∀ i ∈ List.range entriesPerSector, looksNamed name (setEntry 0 e fun _ => 0) i = true → i = 0)
    (hshort : DirEntry.getName (entryAt (setEntry 0 e fun _ => 0) 0) = name)
    (hdir : DirEntry.isDirectory (entryAt (setEntry 0 e fun _ => 0) 0) = false)
    (hsize : DirEntry.fileSize (entryAt (setEntry 0 e fun _ => 0) 0) = size) (hpos : 1 = (size + 511) / 512)
    (hfirst : DirEntry.firstClusterAddr (entryAt (setEntry 0 e fun _ => 0) 0) = 3) :
    RegularFile (oneEntry e) [2] name (2, 0) [3] where
  mem := by decide
  looks := by rwa [oneEntry_content]
  unique := by
    intro q hq hlooks
    obtain ⟨c, hc, hq⟩ := List.mem_flatMap.mp hq
    obtain rfl := List.mem_singleton.mp hc
    obtain ⟨i, hi, rfl⟩ := List.mem_map.mp hq
    rw [oneEntry_content] at hlooks
    rw [honly i hi hlooks]
  no_slash := hname
  short := by rw [oneEntry_entryIn, hshort]
  regular := by rw [oneEntry_entryIn, hdir]
  length := by rw [oneEntry_entryIn, hsize, ← hpos]; rfl
  empty := nofun
  chain := by
    intro _
    rw [oneEntry_entryIn, hfirst]
    exact oneEntry_chain three_valid
  apart := by decide

end OneFile

/-- The root directory with a file of 512 bytes in cluster 3. -/
abbrev fullSector : Volume := oneEntry (newEntry [97] 0 3 512)

lemma fullSector_size : DirEntry.fileSize (fullSector.entryIn (2, 0)) = 512 := by
  rw [oneEntry_entryIn]
  decide

lemma fullSector_file : RegularFile fullSector [2] [97] (2, 0) [3] :=
  oneEntry_file 512 (by decide) (by decide) (by decide) (by decide) (by decide) (by decide) rfl
    (by decide)

end FAT

end BrebOS

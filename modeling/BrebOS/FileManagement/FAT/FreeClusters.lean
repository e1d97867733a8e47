import BrebOS.FileManagement.FAT.Volume
import BrebOS.Lib.Below

/-!
# Looking for free clusters

`get_free_clusters` takes every zero word it meets for a free cluster, from the first sector of the table
to the last sector of the volume.  It does what it should when it has enough before it comes to the end of
the table.
-/

namespace BrebOS

namespace FAT

open Attempt

namespace Volume

variable (v : Volume)

/-- A word of the disk, counted from the start of the table. -/
def word (i : ℕ) : ℕ := leRead (v.disk.sectors (v.bs.firstFatSector + i / 128)) (4 * (i % 128)) 4

/-- A word that the search takes for a free cluster. -/
abbrev LooksFree (i : ℕ) : Prop := v.word i = 0 ∧ 2 ≤ i

/-- The clusters are numbers under this: they have data, are a `uint`, and have an entry in the table. -/
def clusterBound : ℕ := min (v.bs.totalClusters + 2) (min 4294967296 (128 * v.bs.fatSize))

/-- A cluster whose entry is 0. -/
abbrev IsFree (c : ℕ) : Prop := c < v.clusterBound ∧ v.LooksFree c

/-- The clusters whose entries are 0. -/
def freeClusters : List ℕ := below v.LooksFree v.clusterBound

/-- The first `k` sectors from the table on are on the volume, and the disk reads them. -/
def Reads (k : ℕ) : Prop := ∀ i < k, v.bs.firstFatSector + i < v.bs.totalSectors ∧
  u32 (v.bs.firstFatSector + i + 1) ≤ v.disk.size ∧ v.disk.readErrors i = false

variable {v}

lemma Reads.mono {j k : ℕ} (h : v.Reads k) (hj : j ≤ k) : v.Reads j := fun i hi => h i (by omega)

end Volume

/-- `disk` after some of the reads to come. -/
def Session.advance (k : ℕ) (s : Session) : Session :=
  s.setDisk { s.drive.disk with readErrors := fun i => s.drive.disk.readErrors (i + k) }

section Scan

variable {n : ℕ}

lemma freeInSector_eq {isFirst : Bool} {base : ℕ} {data : Sector} :
    ∀ {m : ℕ} {found : List ℕ}, m ≤ 128 → found.length < n →
      freeInSector n isFirst base data m found =
        let all := found ++ ((List.range' (128 - m) m).filter fun j =>
          leRead data (4 * j) 4 = 0 ∧ ¬(isFirst = true ∧ j < 2)).map fun j => u32 (base + j)
        if n ≤ all.length then (true, all.take n) else (false, all)
  | 0, found, _, hfound => by
      simp only [freeInSector, List.range'_zero, List.filter_nil, List.map_nil, List.append_nil]
      rw [if_neg (by omega)]
  | m + 1, found, hm, hfound => by
      have hnext : 128 - (m + 1) + 1 = 128 - m := by omega
      rw [freeInSector, List.range'_succ, List.filter_cons, hnext]
      by_cases hzero : leRead data (4 * (128 - (m + 1))) 4 = 0 ∧ ¬(isFirst = true ∧ 128 - (m + 1) < 2)
      · simp only [if_pos hzero, decide_eq_true hzero, if_true, List.map_cons]
        rw [List.append_cons found _ (List.map _ _)]
        by_cases henough : (found ++ [u32 (base + (128 - (m + 1)))]).length = n
        · -- this one makes them enough
          rw [if_pos henough, if_pos (by rw [List.length_append, henough]; omega),
            List.take_left' henough]
        · rw [if_neg henough]
          refine freeInSector_eq (by omega) ?_
          rw [List.length_append, List.length_singleton] at henough ⊢
          omega
      · simp only [if_neg hzero, decide_eq_false hzero]
        exact freeInSector_eq (by omega) hfound

variable {v : Volume}

/-- The numbers of the words found in the first `k` sectors. -/
def foundIn (v : Volume) (k : ℕ) : List ℕ := (below v.LooksFree (128 * k)).map u32

lemma foundIn_succ (t : ℕ) : foundIn v t ++ ((List.range' 0 128).filter fun j =>
      leRead (v.disk.sectors (v.bs.firstFatSector + t)) (4 * j) 4 = 0 ∧
        ¬(decide (v.bs.firstFatSector + t = v.bs.firstFatSector) = true ∧ j < 2)).map
          (fun j => u32 (t * 128 + j)) = foundIn v (t + 1) := by
  rw [foundIn, foundIn, Nat.mul_add, Nat.mul_one, below_add, List.map_append]
  congr 1
  rw [show List.range' (128 * t) 128 = (List.range' 0 128).map (128 * t + ·) by
    rw [List.map_add_range', Nat.add_zero], List.filter_map, List.map_map]
  have hfilter : ∀ j ∈ List.range' 0 128,
      decide (leRead (v.disk.sectors (v.bs.firstFatSector + t)) (4 * j) 4 = 0 ∧
        ¬(decide (v.bs.firstFatSector + t = v.bs.firstFatSector) = true ∧ j < 2)) =
      ((fun i => decide (v.LooksFree i)) ∘ (128 * t + ·)) j := by
    intro j hj
    have hj : j < 128 := by simpa using hj
    have hword : v.word (128 * t + j) =
        leRead (v.disk.sectors (v.bs.firstFatSector + t)) (4 * j) 4 := by
      rw [Volume.word, show (128 * t + j) / 128 = t by omega, show (128 * t + j) % 128 = j by omega]
    simp only [Function.comp_apply, Volume.LooksFree, hword, decide_eq_true_eq, decide_eq_decide]
    refine and_congr_right fun _ => ?_
    omega
  rw [List.filter_congr hfilter]
  refine List.map_congr_left fun j _ => ?_
  simp only [Function.comp_apply, Nat.mul_comm 128 t]

lemma foundIn_length (t : ℕ) : (foundIn v t).length = (below v.LooksFree (128 * t)).length :=
  List.length_map _

lemma freeInSector_next {t : ℕ} (hfew : (below v.LooksFree (128 * t)).length < n) :
    freeInSector n (decide (v.bs.firstFatSector + t = v.bs.firstFatSector))
        ((v.bs.firstFatSector + t - v.bs.firstFatSector) * 128)
        (v.disk.sectors (v.bs.firstFatSector + t)) 128 (foundIn v t) =
      if n ≤ (below v.LooksFree (128 * (t + 1))).length then (true, (foundIn v (t + 1)).take n)
      else (false, foundIn v (t + 1)) := by
  rw [Nat.add_sub_cancel_left, freeInSector_eq le_rfl (by rwa [foundIn_length]), Nat.sub_self,
    foundIn_succ, ← foundIn_length]

/-- How the search from the start of the table ends: behind the first sector with which it has enough, or
in front of the first that it cannot have. -/
structure Searched (n : ℕ) (v : Volume) (enough : Bool) (found : List ℕ) (k : ℕ) : Prop where
  reads : v.Reads k
  few : ∀ j < k, (below v.LooksFree (128 * j)).length < n
  found : enough = true → n ≤ (below v.LooksFree (128 * k)).length ∧ found = (foundIn v k).take n
  ended : enough = false → (below v.LooksFree (128 * k)).length < n ∧ ¬v.Reads (k + 1)

lemma advance_bs (k : ℕ) (s : Session) : (s.advance k).drive.bs = s.drive.bs := rfl

lemma read_advance {s : Session} {t : ℕ} (ht : u32 (s.drive.bs.firstFatSector + t + 1) ≤ s.drive.disk.size) :
    (s.advance t).drive.disk.read (s.drive.bs.firstFatSector + t) =
      (if s.drive.disk.readErrors t then none else
        some (s.drive.disk.sectors (s.drive.bs.firstFatSector + t)), (s.advance (t + 1)).drive.disk) := by
  have hnext : (fun i => s.drive.disk.readErrors (i + 1 + t)) =
      fun i => s.drive.disk.readErrors (i + (t + 1)) := by
    funext i
    rw [Nat.add_assoc, Nat.add_comm 1]
  simp only [Session.advance, Session.setDisk, Disk.read, if_neg (not_lt.mpr ht), hnext, Nat.zero_add]
  split <;> rfl

lemma read_advance_error {s : Session} {t : ℕ} (h : ¬(u32 (s.drive.bs.firstFatSector + t + 1) ≤
      s.drive.disk.size ∧ s.drive.disk.readErrors t = false)) :
    ∃ a, (s.advance t).drive.disk.read (s.drive.bs.firstFatSector + t) =
      (none, (s.advance a).drive.disk) := by
  by_cases hsize : u32 (s.drive.bs.firstFatSector + t + 1) ≤ s.drive.disk.size
  · refine ⟨t + 1, ?_⟩
    have herror : s.drive.disk.readErrors t = true := by simpa using fun hread => h ⟨hsize, hread⟩
    rw [read_advance hsize, if_pos herror]
  · exact ⟨t, if_pos (not_le.mp hsize)⟩

lemma scanSectors_searched {s : Session} : ∀ {m t : ℕ},
    m = s.drive.bs.totalSectors - (s.drive.bs.firstFatSector + t) → s.drive.toVolume.Reads t →
    (∀ j ≤ t, (below s.drive.toVolume.LooksFree (128 * j)).length < n) →
    ∃ enough found k a, Searched n s.drive.toVolume enough found k ∧ (enough = true → a = k) ∧
      (scanSectors n m (s.drive.bs.firstFatSector + t) (foundIn s.drive.toVolume t) t).run (s.advance t) =
        .ok (some (enough, found, k), s.advance a)
  | 0, t, hm, hreads, hfew => by
      refine ⟨false, _, t, t, ⟨hreads, fun j hj => hfew j hj.le, nofun, fun _ => ⟨hfew t le_rfl, ?_⟩⟩, nofun,
        rfl⟩
      intro hnext
      have := (hnext t (by omega)).1
      omega
  | m + 1, t, hm, hreads, hfew => by
      rw [scanSectors, state_bind]
      by_cases hread : u32 (s.drive.bs.firstFatSector + t + 1) ≤ s.drive.disk.size ∧
        s.drive.disk.readErrors t = false
      · have hreads' : s.drive.toVolume.Reads (t + 1) := by
          intro i hi
          rcases Nat.lt_succ_iff_lt_or_eq.mp hi with hi | rfl
          · exact hreads i hi
          · exact ⟨by omega, hread⟩
        rw [read_advance hread.1, if_neg (by simp [hread.2])]
        dsimp only
        rw [update_bind, advance_bs, freeInSector_next (v := s.drive.toVolume) (hfew t le_rfl)]
        by_cases henough : n ≤ (below s.drive.toVolume.LooksFree (128 * (t + 1))).length
        · rw [if_pos henough]
          exact ⟨true, _, t + 1, t + 1, ⟨hreads', fun j hj => hfew j (by omega),
            fun _ => ⟨henough, rfl⟩, nofun⟩, fun _ => rfl, rfl⟩
        · rw [if_neg henough]
          refine scanSectors_searched (by omega) hreads' fun j hj => ?_
          rcases Nat.le_succ_iff.mp hj with hj | rfl
          · exact hfew j hj
          · exact not_le.mp henough
      · -- a sector that is not on the disk, or an error of the disk
        obtain ⟨a, ha⟩ := read_advance_error hread
        rw [ha]
        refine ⟨false, _, t, a, ⟨hreads, fun j hj => hfew j hj.le, nofun,
          fun _ => ⟨hfew t le_rfl, ?_⟩⟩, nofun, rfl⟩
        intro hnext
        exact hread (hnext t (by omega)).2

/-- **The search** of `get_free_clusters`. -/
lemma scanFat_searched (hn : 1 ≤ n) (s : Session) :
    ∃ enough found k a, Searched n s.drive.toVolume enough found k ∧ (enough = true → a = k) ∧
      (scanFat n).run s = .ok (some (enough, found, k), s.advance a) := by
  have hnone : below s.drive.toVolume.LooksFree (128 * 0) = [] := rfl
  have hfew : ∀ j ≤ 0, (below s.drive.toVolume.LooksFree (128 * j)).length < n := by
    intro j hj
    rw [Nat.le_zero.mp hj, hnone]
    exact hn
  exact scanSectors_searched (m := s.drive.bs.totalSectors - s.drive.bs.firstFatSector) (t := 0) rfl
    (fun i hi => absurd hi (Nat.not_lt_zero i)) hfew

end Scan

/-! ## What is found -/

/-- `get_free_clusters` returns as many free clusters as it should, or null when there are not as many, and
looks at no sectors behind the table. -/
structure FreeClustersRight (n : ℕ) (v : Volume) (result : Option (List ℕ)) (looked : ℕ) : Prop where
  enough : n ≤ v.freeClusters.length →
    ∃ cs, result = some cs ∧ cs.length = n ∧ cs.Nodup ∧ ∀ c ∈ cs, v.IsFree c
  few : v.freeClusters.length < n → result = none
  inside : looked ≤ v.bs.fatSize

/-- There are enough free clusters whose entries are in sectors that can be read from the table's start on;
or there are not, and the search cannot leave the table and meets too few zero words. -/
def CanFind (n : ℕ) (v : Volume) : Prop :=
  (∃ k, v.Reads k ∧ n ≤ (below v.LooksFree (min (128 * k) v.clusterBound)).length) ∨
    v.freeClusters.length < n ∧ ¬v.Reads (v.bs.fatSize + 1) ∧
      ∀ k, v.Reads k → (below v.LooksFree (128 * k)).length < n

section Found

variable {n k : ℕ} {v : Volume} {enough : Bool} {found : List ℕ}

lemma Searched.right_iff_of_few (h : Searched n v enough found k) (henough : enough = false) :
    FreeClustersRight n v none k ↔ CanFind n v := by
  obtain ⟨hfew, hlast⟩ := h.ended henough
  have hle : ∀ k', v.Reads k' → k' ≤ k := by
    intro k' hk'
    by_contra hlt
    exact hlast (hk'.mono (by omega))
  have hzeros : ∀ k', v.Reads k' → (below v.LooksFree (128 * k')).length < n := fun k' hk' =>
    lt_of_le_of_lt (below_length_le (Nat.mul_le_mul_left 128 (hle k' hk'))) hfew
  constructor
  · intro hright
    refine Or.inr ⟨?_, ?_, hzeros⟩
    · by_contra hmany
      obtain ⟨cs, hcs, -⟩ := hright.enough (by omega)
      exact nomatch hcs
    · intro hreads
      have := hle _ hreads
      have := hright.inside
      omega
  · rintro (⟨k', hk', hn⟩ | ⟨hfree, hleave, -⟩)
    · have := hzeros k' hk'
      have := below_length_le (p := v.LooksFree) (min_le_left (128 * k') v.clusterBound)
      omega
    · refine ⟨fun hn => absurd hn (by omega), fun _ => rfl, ?_⟩
      by_contra hlt
      exact hleave (h.reads.mono (by omega))

lemma Searched.right_iff_of_enough (h : Searched n v enough found k) (henough : enough = true) :
    FreeClustersRight n v (some found) k ↔ CanFind n v := by
  obtain ⟨hn, hfound⟩ := h.found henough
  obtain ⟨m, hm⟩ := take_below (p := v.LooksFree) n (128 * k)
  have hfound : found = (below v.LooksFree m).map u32 := by rw [hfound, foundIn, ← List.map_take, hm]
  have hlength : (below v.LooksFree m).length = n := by
    rw [← hm, List.length_take]
    omega
  have hmk : ∀ i ∈ below v.LooksFree m, i < 128 * k := by
    intro i hi
    rw [← hm] at hi
    exact (mem_below.mp (List.mem_of_mem_take hi)).1
  constructor
  · intro hright
    have hmany : n ≤ v.freeClusters.length := by
      by_contra hlt
      exact nomatch hright.few (by omega)
    obtain ⟨cs, hcs, -, hnodup, hfree⟩ := hright.enough hmany
    obtain rfl : found = cs := Option.some.inj hcs
    rw [hfound] at hnodup hfree
    -- two words with one number would both be found
    have hbound : ∀ i ∈ below v.LooksFree m, i < v.clusterBound := by
      intro i hi
      have hi' := hfree (u32 i) (List.mem_map_of_mem hi)
      have hle : u32 i ≤ i := Nat.mod_le ..
      have hmem : u32 i ∈ below v.LooksFree m :=
        mem_below.mpr ⟨lt_of_le_of_lt hle (mem_below.mp hi).1, hi'.2⟩
      have heq := List.inj_on_of_nodup_map hnodup hmem hi (Nat.mod_mod ..)
      exact heq ▸ hi'.1
    refine Or.inl ⟨k, h.reads, ?_⟩
    rw [← hlength]
    exact below_length_le_of_mem fun i hi => lt_min (hmk i hi) (hbound i hi)
  · rintro (⟨k', hk', hk'n⟩ | ⟨-, -, hzeros⟩)
    · have hfree : ∀ i ∈ below v.LooksFree m, i < v.clusterBound := by
        intro i hi
        have hi := mem_below_of_length_le (n := min (128 * k') v.clusterBound) (by rwa [hlength]) hi
        exact lt_of_lt_of_le (mem_below.mp hi).1 (min_le_right ..)
      have hu32 : ∀ i ∈ below v.LooksFree m, u32 i = i := by
        intro i hi
        refine u32_of_lt (lt_of_lt_of_le (hfree i hi) ?_)
        exact le_trans (min_le_right ..) (min_le_left ..)
      have hfound : found = below v.LooksFree m := by
        rw [hfound, List.map_congr_left hu32, List.map_id']
      refine ⟨fun _ => ⟨found, rfl, ?_, ?_, ?_⟩, fun hlt => absurd hlt ?_, ?_⟩
      · rw [hfound, hlength]
      · rw [hfound]
        exact nodup_below
      · intro c hc
        rw [hfound] at hc
        exact ⟨hfree c hc, (mem_below.mp hc).2⟩
      · have := below_length_le (p := v.LooksFree) (min_le_right (128 * k') v.clusterBound)
        rw [Volume.freeClusters]
        omega
      · -- with the whole table it would have enough
        by_contra hlt
        have hfew := h.few v.bs.fatSize (by omega)
        have := below_length_le (p := v.LooksFree) (m := min (128 * k') v.clusterBound)
          (le_trans (min_le_right ..) (le_trans (min_le_right ..) (min_le_right ..)) :
            _ ≤ 128 * v.bs.fatSize)
        omega
    · exact absurd (hzeros k h.reads) (by omega)

lemma Searched.right_iff (h : Searched n v enough found k) :
    FreeClustersRight n v (if enough then some found else none) k ↔ CanFind n v := by
  cases enough with
  | false => exact h.right_iff_of_few rfl
  | true => exact h.right_iff_of_enough rfl

lemma canFind_iff (hfat : v.bs.firstFatSector + v.bs.fatSize < v.bs.totalSectors)
    (hdisk : v.bs.totalSectors ≤ v.disk.size) (hsize : v.disk.size < 4294967296)
    (hreads : v.disk.readErrors = fun _ => false) : CanFind n v ↔ n ≤ v.freeClusters.length := by
  have htable : v.Reads (v.bs.fatSize + 1) := by
    intro i hi
    refine ⟨by omega, ?_, by rw [hreads]⟩
    rw [u32_of_lt (by omega)]
    omega
  constructor
  · rintro (⟨k, -, hk⟩ | ⟨-, hleave, -⟩)
    · exact le_trans hk (below_length_le (min_le_right ..))
    · exact absurd htable hleave
  · intro hn
    refine Or.inl ⟨v.bs.fatSize, htable.mono (by omega), ?_⟩
    have hbound : v.clusterBound ≤ 128 * v.bs.fatSize := le_trans (min_le_right ..) (min_le_right ..)
    rwa [min_eq_right hbound]

end Found

/-- A call of `get_free_clusters` does what it should. -/
def GetFreeClustersRight (n : ℕ) (s : Session) : Prop :=
  ∃ result enough found looked s', (getFreeClusters n).run s = .ok (result, s') ∧
    (scanFat n).run s = .ok (some (enough, found, looked), s') ∧
    FreeClustersRight n s.drive.toVolume result looked

lemma getFreeClusters_of_scan {n k a : ℕ} {s : Session} {enough : Bool} {found : List ℕ} (hn : 1 ≤ n)
    (h : (scanFat n).run s = .ok (some (enough, found, k), s.advance a)) :
    (getFreeClusters n).run s = .ok (if enough then some found else none, s.advance a) := by
  rw [getFreeClusters, if_neg (by omega), bind_run h]
  cases enough <;> rfl

lemma getFreeClustersRight_iff {n : ℕ} (hn : 1 ≤ n) (s : Session) :
    GetFreeClustersRight n s ↔ CanFind n s.drive.toVolume := by
  obtain ⟨enough, found, k, a, hsearched, -, hscan⟩ := scanFat_searched hn s
  constructor
  · rintro ⟨result, enough', found', looked, s', hrun, hscan', hright⟩
    rw [hscan] at hscan'
    cases hscan'
    rw [getFreeClusters_of_scan hn hscan] at hrun
    cases hrun
    exact hsearched.right_iff.mp hright
  · intro hfind
    exact ⟨_, enough, found, k, s.advance a, getFreeClusters_of_scan hn hscan, hscan,
      hsearched.right_iff.mpr hfind⟩

/-- `get_free_clusters` does what it should when there are enough free clusters; otherwise it leaves the
table, and takes what it meets there for free clusters. -/
theorem getFreeClusters_right_iff {n : ℕ} (hn : 1 ≤ n) (s : Session) :
    GetFreeClustersRight n s ↔ CanFind n s.drive.toVolume := getFreeClustersRight_iff hn s

/-- What the boot sector of a volume of 65525 clusters says. -/
def plainBoot : BootSector where
  reservedSectorCount := 32
  tableCount := 2
  totalSectors32 := 66581
  tableSize32 := 512
  rootCluster := 2

/-- A volume whose table is one byte over and over, with nothing in the clusters. -/
def plainVolume (b : UInt8) : Volume where
  bs := plainBoot
  disk := { sectors := fun lba _ => if lba < 1056 then b else 0, size := 66581 }

lemma plainVolume_canFind (b : UInt8) (n : ℕ) :
    CanFind n (plainVolume b) ↔ n ≤ (plainVolume b).freeClusters.length :=
  canFind_iff (show plainBoot.firstFatSector + plainBoot.fatSize < plainBoot.totalSectors by decide)
    (show plainBoot.totalSectors ≤ 66581 by decide) (show 66581 < 4294967296 by decide) rfl

/-- With an empty table there is a free cluster to find. -/
theorem getFreeClusters_right_empty : GetFreeClustersRight 1 { drive := { toVolume := plainVolume 0 } } := by
  refine (getFreeClusters_right_iff le_rfl _).mpr ((plainVolume_canFind 0 1).mpr ?_)
  have hmem : 2 ∈ (plainVolume 0).freeClusters := mem_below.mpr ⟨by decide, by decide, by decide⟩
  exact List.length_pos_of_mem hmem

/-- With a full one there is none, and the search goes on behind it. -/
theorem getFreeClusters_not_right_full :
    ¬GetFreeClustersRight 1 { drive := { toVolume := plainVolume 255 } } := by
  rw [getFreeClustersRight_iff le_rfl, plainVolume_canFind, not_le, Nat.lt_one_iff,
    List.length_eq_zero_iff, List.eq_nil_iff_forall_not_mem]
  intro c hc
  obtain ⟨hbound, hzero, -⟩ := mem_below.mp hc
  have hc : c < 65536 := lt_of_lt_of_le hbound (le_trans (min_le_right ..) (min_le_right ..))
  have hsector : 32 + c / 128 < 1056 := by omega
  have hword : (plainVolume 255).word c = leRead (fun _ => 255) (4 * (c % 128)) 4 :=
    congrArg (fun s => leRead s (4 * (c % 128)) 4) (funext fun _ => if_pos hsector)
  rw [hword] at hzero
  simp [leRead] at hzero

end FAT

end BrebOS

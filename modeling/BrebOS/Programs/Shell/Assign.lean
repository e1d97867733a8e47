import BrebOS.FileManagement.VFS.Paths
import BrebOS.Lib.Loop

/-!
# The value of an assignment

`compress_str` of the shell joins the words that a value expands to.  The buffer has room for the words and
a terminator, and none for the spaces between them.
-/

namespace BrebOS.Shell

/-- `my_strlen`. -/
def myStrlen (s : List UInt8) : ℕ := s.foldl (fun len _ => u32 (len + 1)) 0

/-- `calloc`, of as many bytes.  Whether the allocator grants a size is a parameter. -/
def calloc (granted : ℕ → Bool) (size : ℕ) : Option (List UInt8) :=
  if granted size then some (List.replicate size 0) else none

/-- `strcat`: the bytes of `src` and its terminator are written from the terminator of `dest` on. -/
def strcat (dest src : List UInt8) : Except Fault (List UInt8) :=
  pokes .outOfBounds (cString dest).length (src ++ [0]) dest

/-- `total_len` of `compress_str`. -/
def totalLen (strArr : List (List UInt8)) : ℕ := strArr.foldl (fun total s => u32 (total + myStrlen s)) 0

/-- The size `compress_str` asks for. -/
def compressedSize : Option (List (List UInt8)) → ℕ
  | none => 2
  | some [] => 2
  | some (s :: ss) => u32 (totalLen (s :: ss) + 1)

/-- `compress_str`.  It frees the array too. -/
def compressStr (granted : ℕ → Bool) : Option (List (List UInt8)) → Except Fault (Option (List UInt8))
  | none => .ok (calloc granted 2)
  | some [] => .ok (calloc granted 2)
  | some (s :: ss) =>
      match calloc granted (u32 (totalLen (s :: ss) + 1)) with
      -- `strcat` reads from the null pointer
      | none => .error .outOfBounds
      | some strVal => do
          let strVal ← strcat strVal s
          let strVal ← ss.foldlM (fun strVal s => do
            let strVal ← strcat strVal [32]
            strcat strVal s) strVal
          return some strVal

variable {granted : ℕ → Bool} {s dest dest' src : List UInt8} {ss : List (List UInt8)}

lemma myStrlen_eq (hs : s.length < 4294967296) : myStrlen s = s.length := by
  have hfold : ∀ (t : List UInt8) (len : ℕ), len + t.length < 4294967296 →
      t.foldl (fun len _ => u32 (len + 1)) len = len + t.length := by
    intro t
    induction t with
    | nil => simp
    | cons c t ih =>
        intro len hlen
        rw [List.length_cons] at hlen
        rw [List.foldl_cons, u32_of_lt (by omega), ih _ (by omega), List.length_cons]
        omega
  rw [myStrlen, hfold s 0 (by omega), Nat.zero_add]

lemma myStrlen_le (s : List UInt8) : myStrlen s ≤ s.length := by
  have hfold : ∀ (t : List UInt8) (len : ℕ), t.foldl (fun len _ => u32 (len + 1)) len ≤ len + t.length := by
    intro t
    induction t with
    | nil => simp
    | cons c t ih =>
        intro len
        have hmod : u32 (len + 1) ≤ len + 1 := Nat.mod_le _ _
        have := ih (u32 (len + 1))
        rw [List.foldl_cons, List.length_cons]
        omega
  simpa [myStrlen] using hfold s 0

lemma totalLen_le (strArr : List (List UInt8)) : totalLen strArr ≤ (strArr.map List.length).sum := by
  have hfold : ∀ (ss : List (List UInt8)) (total : ℕ),
      ss.foldl (fun total s => u32 (total + myStrlen s)) total ≤ total + (ss.map List.length).sum := by
    intro ss
    induction ss with
    | nil => simp
    | cons s ss ih =>
        intro total
        have hmod : u32 (total + myStrlen s) ≤ total + myStrlen s := Nat.mod_le _ _
        have hlen := myStrlen_le s
        have := ih (u32 (total + myStrlen s))
        rw [List.foldl_cons, List.map_cons, List.sum_cons]
        omega
  simpa [totalLen] using hfold strArr 0

/-! ## `strcat` -/

lemma cString_take (dest : List UInt8) : dest.take (cString dest).length = cString dest := by
  rw [cString]
  exact (List.prefix_iff_eq_take.mp (List.takeWhile_prefix _)).symm

lemma strcat_appends (hsrc : 0 ∉ src) (h : strcat dest src = .ok dest') :
    cString dest' = cString dest ++ src ∧ dest'.length = dest.length ∧
      (cString dest).length + src.length < dest.length := by
  have hfits : (cString dest).length + (src ++ [0]).length ≤ dest.length := by
    by_contra hover
    rw [strcat, pokes_error (by simp) (by omega)] at h
    cases h
  rw [strcat, pokes_ok hfits, cString_take] at h
  cases h
  have hdest : 0 ∉ cString dest := by
    intro hmem
    simpa using List.all_eq_true.mp List.all_takeWhile 0 hmem
  simp only [List.length_append, List.length_singleton] at hfits
  refine ⟨?_, ?_, by omega⟩
  · rw [List.append_assoc, List.append_assoc, ← List.append_assoc, List.singleton_append]
    exact cString_append (by simp [hdest, hsrc]) _
  · simp only [List.length_append, List.length_singleton, List.length_drop]
    omega

lemma strcat_fits (hsrc : 0 ∉ src) (hfits : (cString dest).length + src.length < dest.length) :
    ∃ dest', strcat dest src = .ok dest' ∧ cString dest' = cString dest ++ src ∧
      dest'.length = dest.length := by
  have hroom : (cString dest).length + (src ++ [0]).length ≤ dest.length := by
    simp only [List.length_append, List.length_singleton]
    omega
  have hok := pokes_ok (e := Fault.outOfBounds) hroom
  rw [← strcat] at hok
  obtain ⟨hstring, hlen, -⟩ := strcat_appends hsrc hok
  exact ⟨_, hok, hstring, hlen⟩

lemma strcat_overflows (hover : dest.length ≤ (cString dest).length + src.length) :
    strcat dest src = .error .outOfBounds :=
  pokes_error (by simp) (by simp only [List.length_append, List.length_singleton]; omega)

lemma appends_words : ∀ {ss : List (List UInt8)} {dest dest' : List UInt8}, (∀ s ∈ ss, 0 ∉ s) →
    (ss.foldlM (fun strVal s => do
      let strVal ← strcat strVal [32]
      strcat strVal s) dest : Except Fault (List UInt8)) = .ok dest' → (cString dest).length < dest.length →
    dest'.length = dest.length ∧
      (cString dest).length + ss.length + (ss.map List.length).sum < dest.length
  | [], dest, dest', _, h, hroom => by
      cases h
      simpa using hroom
  | s :: ss, dest, dest', hnul, h, _ => by
      rw [List.foldlM_cons] at h
      obtain ⟨next, hturn, h⟩ := bind_eq_ok.mp h
      obtain ⟨spaced, hspace, hword⟩ := bind_eq_ok.mp hturn
      obtain ⟨hspaced, hlen, -⟩ := strcat_appends (by decide) hspace
      obtain ⟨hnext, hlen', hroom⟩ := strcat_appends (hnul s (by simp)) hword
      have hlengths := congrArg List.length hnext
      rw [hspaced, List.length_append, List.length_append, List.length_singleton] at hlengths
      rw [hspaced, List.length_append, List.length_singleton] at hroom
      obtain ⟨hsame, hrest⟩ := appends_words (fun s' h' => hnul s' (by simp [h'])) h (by omega)
      simp only [List.map_cons, List.sum_cons, List.length_cons]
      omega

/-! ## `compress_str` -/

/-- The words joined by single spaces are returned. -/
def Joins (granted : ℕ → Bool) (strArr : Option (List (List UInt8))) : Prop :=
  ∃ strVal, compressStr granted strArr = .ok (some strVal) ∧
    cString strVal = [32].intercalate (strArr.getD [])

lemma compressStr_overflows {s₂ : List UInt8} (hnul : ∀ t ∈ s :: s₂ :: ss, 0 ∉ t) (strVal : List UInt8) :
    compressStr granted (some (s :: s₂ :: ss)) ≠ .ok (some strVal) := by
  intro h
  have hsize : u32 (totalLen (s :: s₂ :: ss) + 1) ≤ totalLen (s :: s₂ :: ss) + 1 := Nat.mod_le _ _
  have htotal := totalLen_le (s :: s₂ :: ss)
  have hempty (n : ℕ) : cString (List.replicate n 0) = [] := by simp [cString]
  rw [compressStr, calloc] at h
  split_ifs at h with hgranted
  · obtain ⟨first, hfirst, h⟩ := bind_eq_ok.mp h
    obtain ⟨joined, hjoined, -⟩ := bind_eq_ok.mp h
    obtain ⟨hone, hlen, hroom⟩ := strcat_appends (hnul s (by simp)) hfirst
    rw [hempty, List.nil_append] at hone
    rw [hempty, List.length_nil, Nat.zero_add, ← hlen] at hroom
    have hfit := (appends_words (fun t ht => hnul t (by simp [ht])) hjoined (by rw [hone]; exact hroom)).2
    rw [hone, hlen, List.length_replicate] at hfit
    simp only [List.map_cons, List.sum_cons, List.length_cons] at htotal hfit
    omega

lemma compressStr_single (hlen : s.length + 1 < 4294967296) :
    compressStr granted (some [s]) =
      if granted (compressedSize (some [s])) then .ok (some (s ++ [0])) else .error .outOfBounds := by
  have hsize : compressedSize (some [s]) = s.length + 1 := by
    rw [compressedSize]
    simp only [totalLen, List.foldl_cons, List.foldl_nil, Nat.zero_add]
    rw [myStrlen_eq (by omega), u32_of_lt (x := s.length) (by omega), u32_of_lt hlen]
  rw [compressStr, ← compressedSize, hsize, calloc]
  split_ifs with hgranted
  · have hempty : cString (List.replicate (s.length + 1) 0) = [] := by simp [cString]
    have hcat : strcat (List.replicate (s.length + 1) 0) s = .ok (s ++ [0]) := by
      rw [strcat, hempty, pokes_ok (by simp)]
      simp
    simp [hcat, pure, Except.pure, bind, Except.bind]
  · rfl

/-- The words are joined when there are less than two of them and the allocation succeeds.  A word has an
address other than 0, and ends before the end of the address space. -/
theorem compressStr_joins_iff (granted : ℕ → Bool) (strArr : Option (List (List UInt8)))
    (hnul : ∀ s ∈ strArr.getD [], 0 ∉ s) (hlen : ∀ s ∈ strArr.getD [], s.length + 1 < 4294967296) :
    Joins granted strArr ↔ (strArr.getD []).length ≤ 1 ∧ granted (compressedSize strArr) = true := by
  have hnothing : (∃ strVal, (Except.ok (calloc granted 2) : Except Fault _) = .ok (some strVal) ∧
      cString strVal = [32].intercalate []) ↔ granted 2 = true := by
    rw [calloc]
    split_ifs with hgranted
    · simp [hgranted, cString]
    · simp [hgranted]
  cases strArr with
  | none => simpa [Joins, compressStr, compressedSize] using hnothing
  | some strs =>
      cases strs with
      | nil => simpa [Joins, compressStr, compressedSize] using hnothing
      | cons s ss =>
          cases ss with
          | nil =>
              have hs : 0 ∉ s := hnul s (by simp)
              have hjoined : [32].intercalate [s] = s := by simp [List.intercalate]
              simp only [Joins, compressStr_single (hlen s (by simp)), Option.getD_some, hjoined]
              split_ifs with hgranted
              · simp [hgranted, cString_append hs]
              · simp [hgranted]
          | cons s₂ ss =>
              constructor
              · rintro ⟨strVal, h, -⟩
                exact absurd h (compressStr_overflows hnul strVal)
              · rintro ⟨hlen, -⟩
                simp at hlen

/-- One word is a value. -/
theorem compressStr_word :
    Joins (fun _ => true) (some [[97, 98]]) ↔
      ((some [[97, 98]]).getD []).length ≤ 1 ∧ (fun _ => true) (compressedSize (some [[97, 98]])) = true :=
  compressStr_joins_iff (fun _ => true) (some [[97, 98]]) (by decide) (by decide)

/-- Two words overflow the buffer. -/
theorem compressStr_two_words :
    compressStr (fun _ => true) (some [[97], [98]]) = .error .outOfBounds ∧
      ¬ Joins (fun _ => true) (some [[97], [98]]) := by
  have hrun : compressStr (fun _ => true) (some [[97], [98]]) = .error .outOfBounds := by decide
  refine ⟨hrun, ?_⟩
  rintro ⟨strVal, h, -⟩
  rw [hrun] at h
  cases h

end BrebOS.Shell

import Mathlib.Data.List.TakeWhile
import BrebOS.FileManagement.VFS.Paths
import BrebOS.Lib.Tokens

/-!
# Tokens

`strtok_r` of `kstring.cpp`.  The buffer holds the string and its terminator and nothing else, so that a
read past the terminator is an error, and `*saveptr` is an index into it.  Before that index the buffer
may be cut into tokens, from it on it is still the string.
-/

namespace BrebOS.Kstring

/-- A buffer, and the index where `*saveptr` points to. -/
structure Tokenizer where
  buf : List UInt8
  saveptr : ℕ
  deriving DecidableEq, Repr

/-- `in_set`.  The list is the memory at `set`. -/
def inSet : List UInt8 → UInt8 → Except Fault Bool
  | [], _ => .error .outOfBounds
  | b :: set, c => if b = 0 then .ok false else if b = c then .ok true else inSet set c

/-- `while (**saveptr && in_set(delim, **saveptr) == want) (*saveptr)++;`.  The list is the memory from
`saveptr` on. -/
def advance (want : Bool) (delim : List UInt8) : List UInt8 → ℕ → Except Fault ℕ
  | [], _ => .error .outOfBounds
  | c :: mem, saveptr =>
      if c = 0 then .ok saveptr
      else do
        if (← inSet delim c) = want then advance want delim mem (saveptr + 1) else .ok saveptr

/-- `buf[i]`. -/
def peek (buf : List UInt8) (i : ℕ) : Except Fault UInt8 :=
  match buf[i]? with
  | some c => .ok c
  | none => .error .outOfBounds

/-- `strtok_r`: the index where the token starts, or null. -/
def strtokR (str : Option ℕ) (delim : List UInt8) (t : Tokenizer) :
    Except Fault (Option ℕ × Tokenizer) := do
  let saveptr := str.getD t.saveptr
  let saveptr ← advance true delim (t.buf.drop saveptr) saveptr
  if (← peek t.buf saveptr) = 0 then return (none, { t with saveptr })
  let start := saveptr
  let saveptr ← advance false delim (t.buf.drop saveptr) saveptr
  if (← peek t.buf saveptr) = 0 then return (some start, { t with saveptr })
  let buf ← poke .outOfBounds saveptr 0 t.buf
  return (some start, { buf, saveptr := saveptr + 1 })

/-- Calls one after the other, given by their arguments `str`. -/
def strtokRs (delim : List UInt8) :
    List (Option ℕ) → Tokenizer → Except Fault (List (Option ℕ) × Tokenizer)
  | [], t => .ok ([], t)
  | str :: strs, t => do
      let (start, t) ← strtokR str delim t
      let (starts, t) ← strtokRs delim strs t
      return (start :: starts, t)

/-! ## One call -/

/-- The separators between tokens. -/
def isDelim (delim : List UInt8) (c : UInt8) : Bool := decide (c ∈ delim)

variable {delim text front skip run rest : List UInt8} {c : UInt8}

lemma inSet_eq (hdelim : 0 ∉ delim) : inSet (delim ++ [0]) c = .ok (isDelim delim c) := by
  induction delim with
  | nil => simp [inSet, isDelim]
  | cons b delim ih =>
      simp only [List.mem_cons, not_or] at hdelim
      rw [List.cons_append, inSet, if_neg (Ne.symm hdelim.1), ih hdelim.2]
      by_cases hb : b = c
      · simp [hb, isDelim]
      · simp [hb, isDelim, Ne.symm hb]

lemma advance_eq {want : Bool} (hdelim : 0 ∉ delim) (hskip : ∀ c ∈ skip, isDelim delim c = want)
    (hnul : 0 ∉ skip) (hc : c = 0 ∨ isDelim delim c ≠ want) (saveptr : ℕ) :
    advance want (delim ++ [0]) (skip ++ c :: rest) saveptr = .ok (saveptr + skip.length) := by
  induction skip generalizing saveptr with
  | nil =>
      simp only [List.nil_append, advance, inSet_eq hdelim]
      split_ifs with hzero
      · rfl
      · simp [bind, Except.bind, hc.resolve_left hzero]
  | cons b skip ih =>
      simp only [List.mem_cons, not_or] at hnul
      rw [List.cons_append, advance, if_neg (Ne.symm hnul.1), inSet_eq hdelim]
      simp only [bind, Except.bind, hskip b (by simp), if_true, List.length_cons]
      rw [ih (fun c' h => hskip c' (by simp [h])) hnul.2 (saveptr + 1)]
      congr 1
      omega

/-- The state when what is before `*saveptr` is `front`: the rest is as in the string. -/
def tokenizer (text front : List UInt8) : Tokenizer :=
  { buf := front ++ text.drop front.length ++ [0], saveptr := front.length }

lemma peek_append {buf : List UInt8} (i : ℕ) (hi : i = buf.length) :
    peek (buf ++ c :: rest) i = .ok c := by
  subst hi
  simp [peek]

lemma strtokR_first (delim text : List UInt8) (junk : ℕ) :
    strtokR (some 0) delim { buf := text ++ [0], saveptr := junk } =
      strtokR none delim (tokenizer text []) := by
  simp [strtokR, tokenizer]

lemma strtokR_null (hdelim : 0 ∉ delim) (hrest : text.drop front.length = skip)
    (hskip : ∀ c ∈ skip, isDelim delim c = true) (hnul : 0 ∉ skip) :
    strtokR none (delim ++ [0]) (tokenizer text front) = .ok (none, tokenizer text (front ++ skip)) := by
  have hmem : (tokenizer text front).buf.drop front.length = skip ++ [0] := by
    simp [tokenizer, hrest, List.append_assoc]
  have hstop : advance true (delim ++ [0]) (skip ++ [0]) front.length = .ok (front.length + skip.length) :=
    advance_eq hdelim hskip hnul (Or.inl rfl) front.length
  have hpeek : peek (tokenizer text front).buf (front.length + skip.length) = .ok 0 := by
    rw [tokenizer, hrest]
    exact peek_append _ (by simp)
  have hdone : text.drop (front.length + skip.length) = [] := by
    rw [← List.drop_drop, hrest, List.drop_length]
  rw [strtokR]
  simp only [Option.getD_none, show (tokenizer text front).saveptr = front.length from rfl, hmem, hstop,
    bind, Except.bind, hpeek, if_true]
  simp [tokenizer, hrest, hdone, pure, Except.pure]

lemma strtokR_start (hdelim : 0 ∉ delim) (hrest : text.drop front.length = skip ++ run ++ rest)
    (hskip : ∀ c ∈ skip, isDelim delim c = true) (hnul : 0 ∉ skip ++ run) (hne : run ≠ [])
    (hrun : ∀ c ∈ run, isDelim delim c = false) :
    advance true (delim ++ [0]) ((tokenizer text front).buf.drop front.length) front.length =
        .ok (front.length + skip.length) ∧
      ∃ c, c ≠ 0 ∧ peek (tokenizer text front).buf (front.length + skip.length) = .ok c := by
  obtain ⟨c, run', rfl⟩ := List.exists_cons_of_ne_nil hne
  simp only [List.mem_append, List.mem_cons, not_or] at hnul
  have hmem : (tokenizer text front).buf.drop front.length = skip ++ c :: (run' ++ rest ++ [0]) := by
    simp [tokenizer, hrest, List.append_assoc]
  refine ⟨?_, c, Ne.symm hnul.2.1, ?_⟩
  · rw [hmem]
    exact advance_eq hdelim hskip hnul.1 (Or.inr (by simp [hrun c (by simp)])) _
  · have hbuf : (tokenizer text front).buf = (front ++ skip) ++ c :: (run' ++ rest ++ [0]) := by
      simp [tokenizer, hrest, List.append_assoc]
    rw [hbuf]
    exact peek_append _ (by simp)

lemma strtokR_token (hdelim : 0 ∉ delim) (hrest : text.drop front.length = skip ++ run ++ c :: rest)
    (hskip : ∀ c ∈ skip, isDelim delim c = true) (hnul : 0 ∉ skip ++ run) (hne : run ≠ [])
    (hrun : ∀ c ∈ run, isDelim delim c = false) (hc : isDelim delim c = true) (hzero : c ≠ 0) :
    strtokR none (delim ++ [0]) (tokenizer text front) =
      .ok (some (front.length + skip.length), tokenizer text (front ++ skip ++ run ++ [0])) := by
  obtain ⟨hstop, c', hc', hpeek⟩ := strtokR_start hdelim hrest hskip hnul hne hrun
  simp only [List.mem_append, not_or] at hnul
  have hmem : (tokenizer text front).buf.drop (front.length + skip.length) = run ++ c :: (rest ++ [0]) := by
    rw [← List.drop_drop]
    simp [tokenizer, hrest, List.append_assoc]
  have hstop' : advance false (delim ++ [0]) (run ++ c :: (rest ++ [0])) (front.length + skip.length) =
      .ok (front.length + skip.length + run.length) :=
    advance_eq hdelim hrun hnul.2 (Or.inr (by simp [hc])) _
  have hbuf : (tokenizer text front).buf = (front ++ skip ++ run) ++ c :: (rest ++ [0]) := by
    simp [tokenizer, hrest, List.append_assoc]
  have hlen : front.length + skip.length + run.length = (front ++ skip ++ run).length := by
    simp [Nat.add_assoc]
  have hpeek' : peek (tokenizer text front).buf (front.length + skip.length + run.length) = .ok c := by
    rw [hbuf]
    exact peek_append _ hlen
  have hleft : text.drop ((front ++ skip ++ run).length + 1) = rest := by
    rw [← hlen, Nat.add_assoc, Nat.add_assoc, ← List.drop_drop, hrest, List.append_assoc,
      ← List.drop_drop, List.drop_left, ← List.drop_drop, List.drop_left]
    rfl
  rw [strtokR]
  simp only [Option.getD_none, show (tokenizer text front).saveptr = front.length from rfl, hstop,
    bind, Except.bind, hpeek, hc', if_false, hmem, hstop', hpeek', hzero]
  rw [hbuf, hlen, poke_append]
  simp only [pure, Except.pure, tokenizer, List.length_append, List.length_singleton] at hleft ⊢
  rw [hleft]
  simp

lemma strtokR_last (hdelim : 0 ∉ delim) (hrest : text.drop front.length = skip ++ run)
    (hskip : ∀ c ∈ skip, isDelim delim c = true) (hnul : 0 ∉ skip ++ run) (hne : run ≠ [])
    (hrun : ∀ c ∈ run, isDelim delim c = false) :
    strtokR none (delim ++ [0]) (tokenizer text front) =
      .ok (some (front.length + skip.length), tokenizer text (front ++ skip ++ run)) := by
  have hrest' : text.drop front.length = skip ++ run ++ [] := by rw [hrest, List.append_nil]
  obtain ⟨hstop, c', hc', hpeek⟩ := strtokR_start hdelim hrest' hskip hnul hne hrun
  simp only [List.mem_append, not_or] at hnul
  have hmem : (tokenizer text front).buf.drop (front.length + skip.length) = run ++ [0] := by
    rw [← List.drop_drop]
    simp [tokenizer, hrest, List.append_assoc]
  have hstop' : advance false (delim ++ [0]) (run ++ [0]) (front.length + skip.length) =
      .ok (front.length + skip.length + run.length) :=
    advance_eq hdelim hrun hnul.2 (Or.inl rfl) _
  have hbuf : (tokenizer text front).buf = (front ++ skip ++ run) ++ [0] := by
    simp [tokenizer, hrest, List.append_assoc]
  have hlen : front.length + skip.length + run.length = (front ++ skip ++ run).length := by
    simp [Nat.add_assoc]
  have hpeek' : peek (tokenizer text front).buf (front.length + skip.length + run.length) = .ok 0 := by
    rw [hbuf]
    exact peek_append _ hlen
  have hleft : text.drop (front ++ skip ++ run).length = [] := by
    rw [← hlen, Nat.add_assoc, ← List.drop_drop, hrest, ← List.length_append, List.drop_length]
  rw [strtokR]
  simp only [Option.getD_none, show (tokenizer text front).saveptr = front.length from rfl, hstop,
    bind, Except.bind, hpeek, hc', if_false, hmem, hstop', hpeek', if_true]
  rw [hbuf, hlen]
  simp only [tokenizer, pure, Except.pure, hleft, List.append_nil]

/-! ## All calls -/

/-- The token `[a, b)` is a string of its own. -/
def IsCut (text buf : List UInt8) (r : ℕ × ℕ) : Prop :=
  cString (buf.drop r.1) = (text.drop r.1).take (r.2 - r.1)

/-- The runs of what is behind `front`. -/
def runsBehind (delim text front : List UInt8) : List (ℕ × ℕ) :=
  runsFrom (isDelim delim) none front.length (text.drop front.length)

lemma isCut_of_front {buf : List UInt8} {a : ℕ} (ha : text.drop a = run ++ rest) (hnul : 0 ∉ run)
    (more : List UInt8) (hbuf : buf.drop a = run ++ 0 :: more) : IsCut text buf (a, a + run.length) := by
  rw [IsCut, hbuf, cString_append hnul, ha]
  simp

/-- Between `front` and `front'` is the run `[a, b)`, and it is cut off. -/
structure NextRun (delim text front front' : List UInt8) (a b : ℕ) : Prop where
  bounded : front'.length ≤ text.length
  next : runsBehind delim text front = (a, b) :: runsBehind delim text front'
  cut : ∀ later, (front' ++ later).length ≤ text.length →
    IsCut text (tokenizer text (front' ++ later)).buf (a, b)

lemma drop_skipped (hrest : text.drop front.length = skip ++ run ++ rest) :
    text.drop (front.length + skip.length) = run ++ rest := by
  rw [← List.drop_drop, hrest, List.append_assoc, List.drop_left]

lemma nextRun_token (hrest : text.drop front.length = skip ++ run ++ c :: rest)
    (hskip : ∀ c ∈ skip, isDelim delim c = true) (hnul : 0 ∉ run) (hne : run ≠ [])
    (hrun : ∀ c ∈ run, isDelim delim c = false) (hc : isDelim delim c = true) :
    NextRun delim text front (front ++ skip ++ run ++ [0]) (front.length + skip.length)
      (front.length + skip.length + run.length) := by
  have hsize := congrArg List.length hrest
  simp only [List.length_drop, List.length_append, List.length_cons] at hsize
  have hbehind : text.drop (front ++ skip ++ run ++ [0]).length = rest := by
    rw [List.append_assoc, List.append_assoc, List.length_append, ← List.drop_drop, hrest]
    simp
  refine ⟨?_, ?_, ?_⟩
  · simp only [List.length_append, List.length_singleton]
    omega
  · rw [runsBehind, hrest, runsFrom_next hskip hne hrun hc, runsBehind, hbehind]
    simp [Nat.add_assoc]
  · intro later hlater
    refine isCut_of_front (drop_skipped hrest) hnul
      (later ++ text.drop (front ++ skip ++ run ++ [0] ++ later).length ++ [0]) ?_
    rw [← List.drop_drop]
    simp [tokenizer, List.append_assoc]

lemma nextRun_last (hrest : text.drop front.length = skip ++ run)
    (hskip : ∀ c ∈ skip, isDelim delim c = true) (hnul : 0 ∉ run) (hne : run ≠ [])
    (hrun : ∀ c ∈ run, isDelim delim c = false) (hfront : front.length ≤ text.length) :
    NextRun delim text front (front ++ skip ++ run) (front.length + skip.length)
      (front.length + skip.length + run.length) := by
  have hsize := congrArg List.length hrest
  simp only [List.length_drop, List.length_append] at hsize
  have hend : text.drop (front ++ skip ++ run).length = [] := by
    rw [List.append_assoc, List.length_append, ← List.drop_drop, hrest, List.drop_length]
  refine ⟨?_, ?_, ?_⟩
  · simp only [List.length_append]
    omega
  · rw [runsBehind, hrest, runsFrom_last hskip hne hrun, runsBehind, hend]
    rfl
  · intro later hlater
    simp only [List.length_append] at hlater
    have hnothing : later = [] := List.length_eq_zero_iff.mp (by omega)
    have hrest' : text.drop front.length = skip ++ run ++ [] := by rw [hrest, List.append_nil]
    refine isCut_of_front (drop_skipped hrest') hnul [] ?_
    rw [hnothing, List.append_nil, tokenizer]
    simp only [hend, List.append_nil]
    rw [← List.drop_drop, List.append_assoc, List.append_assoc, List.drop_left, List.drop_left]

lemma strtokR_step (hdelim : 0 ∉ delim) (hnul : 0 ∉ text) (hfront : front.length ≤ text.length) :
    (∃ more, strtokR none (delim ++ [0]) (tokenizer text front) =
          .ok (none, tokenizer text (front ++ more)) ∧
        (front ++ more).length ≤ text.length ∧
        runsBehind delim text front = [] ∧ runsBehind delim text (front ++ more) = []) ∨
      ∃ a b more, strtokR none (delim ++ [0]) (tokenizer text front) =
          .ok (some a, tokenizer text (front ++ more)) ∧
        NextRun delim text front (front ++ more) a b := by
  have hrestNul : 0 ∉ text.drop front.length := fun h => hnul (List.mem_of_mem_drop h)
  rcases exists_run (isDelim delim) (text.drop front.length) with
    hall | ⟨skip, run, rest, hrest, hskip, hne, hrun, hhead⟩
  · refine Or.inl ⟨text.drop front.length, strtokR_null hdelim rfl hall hrestNul, ?_, ?_, ?_⟩
    · rw [List.length_append, List.length_drop]
      omega
    · exact runsFrom_separators hall
    · rw [runsBehind, List.length_append, ← List.drop_drop, List.drop_length]
      rfl
  · rw [hrest] at hrestNul
    simp only [List.mem_append, not_or] at hrestNul
    have hcutNul : 0 ∉ skip ++ run := by simp [hrestNul.1.1, hrestNul.1.2]
    cases rest with
    | nil =>
        rw [List.append_nil] at hrest
        have hcall := strtokR_last hdelim hrest hskip hcutNul hne hrun
        have hnext := nextRun_last hrest hskip hrestNul.1.2 hne hrun hfront
        rw [List.append_assoc] at hcall hnext
        exact Or.inr ⟨_, _, _, hcall, hnext⟩
    | cons c rest =>
        have hc : isDelim delim c = true := hhead c rfl
        have hzero : c ≠ 0 := by
          rintro rfl
          exact hrestNul.2 (by simp)
        have hcall := strtokR_token hdelim hrest hskip hcutNul hne hrun hc hzero
        have hnext := nextRun_token hrest hskip hrestNul.1.2 hne hrun hc
        rw [List.append_assoc, List.append_assoc] at hcall hnext
        exact Or.inr ⟨_, _, _, hcall, hnext⟩

lemma strtokRs_nulls (hdelim : 0 ∉ delim) (hnul : 0 ∉ text) (n : ℕ) :
    ∀ front : List UInt8, front.length ≤ text.length →
      ∃ more, strtokRs (delim ++ [0]) (List.replicate n none) (tokenizer text front) =
          .ok ((List.range n).map (fun k => ((runsBehind delim text front)[k]?).map Prod.fst),
            tokenizer text (front ++ more)) ∧
        (front ++ more).length ≤ text.length ∧
        ∀ k < n, ∀ r, (runsBehind delim text front)[k]? = some r →
          IsCut text (tokenizer text (front ++ more)).buf r := by
  induction n with
  | zero =>
      intro front hfront
      refine ⟨[], by simp [strtokRs], by simpa using hfront, ?_⟩
      intro k hk
      omega
  | succ n ih =>
      intro front hfront
      rcases strtokR_step hdelim hnul hfront with
        ⟨more, hcall, hfront', hnone, hnone'⟩ | ⟨a, b, more, hcall, hnext⟩
      · obtain ⟨more', hcalls, hlen, -⟩ := ih (front ++ more) hfront'
        refine ⟨more ++ more', ?_, ?_, ?_⟩
        · rw [List.replicate_succ, strtokRs, hcall]
          simp only [bind, Except.bind, hcalls, hnone, hnone', List.range_succ_eq_map, ← List.append_assoc]
          rw [List.map_cons, List.map_map]
          rfl
        · rw [← List.append_assoc]
          exact hlen
        · intro k hk r hr
          rw [hnone] at hr
          cases hr
      · obtain ⟨more', hcalls, hlen, hcut⟩ := ih (front ++ more) hnext.bounded
        refine ⟨more ++ more', ?_, ?_, ?_⟩
        · rw [List.replicate_succ, strtokRs, hcall]
          simp only [bind, Except.bind, hcalls, hnext.next, List.range_succ_eq_map]
          simp [pure, Except.pure, Function.comp_def]
        · rw [← List.append_assoc]
          exact hlen
        · intro k hk r hr
          rw [hnext.next] at hr
          rw [← List.append_assoc]
          cases k with
          | zero =>
              cases hr
              exact hnext.cut more' hlen
          | succ k => exact hcut k (by omega) r hr

/-- The calls return the longest stretches without a delimiter, in order and each with its terminator, and
after the last of them null; none of them reads behind the string's terminator. -/
theorem strtokR_tokens (text delim : List UInt8) (hnul : 0 ∉ text) (hdelim : 0 ∉ delim) :
    ∃ tokens : List (ℕ × ℕ),
      (∀ a b, (a, b) ∈ tokens ↔ IsRun (fun c => decide (c ∈ delim)) text a b) ∧
      tokens.Pairwise (fun r r' => r.2 < r'.1) ∧
      ∀ junk n, ∃ t,
        strtokRs (delim ++ [0]) (some 0 :: List.replicate n none) { buf := text ++ [0], saveptr := junk } =
          .ok ((List.range (n + 1)).map fun k => (tokens[k]?).map Prod.fst, t) ∧
        ∀ k ≤ n, ∀ r, tokens[k]? = some r →
          cString (t.buf.drop r.1) = (text.drop r.1).take (r.2 - r.1) := by
  refine ⟨runs (isDelim delim) text, ?_, pairwise_runsFrom, ?_⟩
  · intro a b
    exact mem_runs
  · intro junk n
    obtain ⟨more, hcalls, -, hcut⟩ := strtokRs_nulls hdelim hnul (n + 1) [] (Nat.zero_le _)
    refine ⟨tokenizer text ([] ++ more), ?_, ?_⟩
    · rw [List.replicate_succ, strtokRs] at hcalls
      rw [strtokRs, strtokR_first]
      exact hcalls
    · intro k hk r hr
      exact hcut k (by omega) r hr

/-- `"/a//b"` with the delimiter `'/'`. -/
theorem strtokR_two_names :
    ∃ tokens : List (ℕ × ℕ),
      (∀ a b, (a, b) ∈ tokens ↔
        IsRun (fun c => decide (c ∈ [slash])) [slash, 97, slash, slash, 98] a b) ∧
      tokens.Pairwise (fun r r' => r.2 < r'.1) ∧
      ∀ junk n, ∃ t,
        strtokRs ([slash] ++ [0]) (some 0 :: List.replicate n none)
            { buf := [slash, 97, slash, slash, 98] ++ [0], saveptr := junk } =
          .ok ((List.range (n + 1)).map fun k => (tokens[k]?).map Prod.fst, t) ∧
        ∀ k ≤ n, ∀ r, tokens[k]? = some r →
          cString (t.buf.drop r.1) = ([slash, 97, slash, slash, 98].drop r.1).take (r.2 - r.1) :=
  strtokR_tokens [slash, 97, slash, slash, 98] [slash] (by decide) (by decide)

/-! ## Path resolution -/

lemma strtokR_of_run {name : List UInt8} (hskip : ∀ c ∈ skip, isDelim [slash] c = true) (hne : name ≠ [])
    (hname : ∀ c ∈ name, isDelim [slash] c = false) (hrest : ∀ c ∈ rest.head?, isDelim [slash] c = true) :
    BrebOS.strtokR (skip ++ name ++ rest) = some (name, rest.drop 1) := by
  obtain ⟨b, name', rfl⟩ := List.exists_cons_of_ne_nil hne
  have hb : b ≠ slash := by simpa [isDelim] using hname b (by simp)
  have hslashes : ∀ c ∈ skip, decide (c = slash) = true := by simpa [isDelim] using hskip
  have hletters : ∀ c ∈ b :: name', decide (c ≠ slash) = true := by simpa [isDelim] using hname
  have hstop : rest.takeWhile (fun c => decide (c ≠ slash)) = [] ∧
      rest.dropWhile (fun c => decide (c ≠ slash)) = rest := by
    cases rest with
    | nil => simp
    | cons c rest =>
        have hc : c = slash := by simpa [isDelim] using hrest c rfl
        simp [hc]
  have hdrop : (skip ++ b :: name' ++ rest).dropWhile (fun c => decide (c = slash)) =
      b :: (name' ++ rest) := by
    rw [List.append_assoc, List.dropWhile_append_of_pos hslashes]
    simp [hb]
  rw [BrebOS.strtokR, hdrop]
  simp only [← List.cons_append]
  rw [List.takeWhile_append_of_pos hletters, List.dropWhile_append_of_pos hletters, hstop.1, hstop.2,
    List.append_nil]

lemma tokens_go_eq (fuel : ℕ) : ∀ (s : List UInt8) (i : ℕ), text.drop i = s → s.length ≤ fuel →
    tokens.go fuel s =
      (runsFrom (isDelim [slash]) none i s).map fun r => (text.drop r.1).take (r.2 - r.1) := by
  induction fuel with
  | zero =>
      intro s i hs hlen
      rw [List.length_eq_zero_iff.mp (Nat.le_zero.mp hlen)]
      rfl
  | succ fuel ih =>
      intro s i hs hlen
      rcases exists_run (isDelim [slash]) s with hall | ⟨skip, name, rest, rfl, hskip, hne, hname, hrest⟩
      · have hnone : BrebOS.strtokR s = none := by
          have hdrop : s.dropWhile (fun c => decide (c = slash)) = [] :=
            List.dropWhile_eq_nil_iff.mpr (by simpa [isDelim] using hall)
          rw [BrebOS.strtokR, hdrop]
        rw [tokens.go, hnone, runsFrom_separators hall]
        rfl
      · have hword : text.drop (i + skip.length) = name ++ rest := by
          rw [← List.drop_drop, hs, List.append_assoc, List.drop_left]
        have htext : (text.drop (i + skip.length)).take name.length = name := by
          rw [hword, List.take_left]
        rw [tokens.go, strtokR_of_run hskip hne hname hrest]
        cases rest with
        | nil =>
            rw [List.append_nil, runsFrom_last hskip hne hname]
            simp only [List.map_cons, Nat.add_sub_cancel_left, htext]
            cases fuel <;> simp [tokens.go, BrebOS.strtokR]
        | cons c rest =>
            have hpos := List.length_pos_of_ne_nil hne
            simp only [List.length_append, List.length_cons] at hlen
            have hbehind : text.drop (i + skip.length + name.length + 1) = rest := by
              rw [Nat.add_assoc _ name.length, ← List.drop_drop, hword, ← List.drop_drop, List.drop_left]
              rfl
            rw [runsFrom_next hskip hne hname (hrest c rfl)]
            simp only [List.map_cons, Nat.add_sub_cancel_left, htext, List.drop_succ_cons, List.drop_zero]
            rw [ih rest _ hbehind (by omega)]

lemma tokens_eq_runs (path : List UInt8) :
    tokens path = (runs (isDelim [slash]) path).map fun r => (path.drop r.1).take (r.2 - r.1) :=
  tokens_go_eq path.length path 0 rfl le_rfl

end BrebOS.Kstring

import BrebOS.FileManagement.VFS.Paths
import BrebOS.Lib.Loop
import BrebOS.Programs.Shell.Lexer

/-!
# The lines of the input

`io_backend_get_line` with its buffer.  A character is read through a signed `char`, so that a byte from
0x80 on looks like an error; and the capacity of the buffer is a signed `int` that is doubled.
-/

namespace BrebOS.Shell.IoBackend

/-- The value of a byte as a `char`. -/
def signed (b : UInt8) : ℤ := if b.toNat < 128 then b.toNat else b.toNat - 256

/-- `read_char`; its result is −1 at the end of the file. -/
def readChar : List UInt8 → ℤ × List UInt8
  | [] => (-1, [])
  | b :: file => (signed b, file)

/-- `buf`, `buf_capacity` and `buf_size` of `io_backend_get_line`; a null `buf` is `none`. -/
structure Line where
  buf : Option (List UInt8)
  capacity : ℕ
  size : ℕ

/-- `malloc`, of a size that the allocator may grant or not. -/
def malloc (granted : ℕ → Bool) (junk : ℕ → UInt8) (size : ℕ) : Option (List UInt8) :=
  if granted size then some (fresh junk size) else none

/-- `realloc`. -/
def realloc (granted : ℕ → Bool) (junk : ℕ → UInt8) (buf : List UInt8) (size : ℕ) : Option (List UInt8) :=
  (malloc granted junk size).map fun mem => buf.take size ++ mem.drop buf.length

/-- `buf[buf_size] = b`. -/
def Line.write (b : UInt8) (l : Line) : Except Stop (List UInt8) :=
  match l.buf with
  | none => .error .undefined
  | some buf => poke .undefined l.size b buf

/-- `buf[buf_size++] = b`. -/
def Line.push (b : UInt8) (l : Line) : Except Stop Line := do
  let buf ← l.write b
  return { l with buf := some buf, size := l.size + 1 }

/-- `if (buf_size > buf_capacity - 3)`: twice the capacity, unless that overflows. -/
def Line.grow (granted : ℕ → Bool) (junk : ℕ → UInt8) (l : Line) : Except Stop Line :=
  if l.capacity < l.size + 3 then
    if 2147483648 ≤ l.capacity * 2 then .error .undefined
    else .ok { l with
      buf := l.buf.bind fun buf => realloc granted junk buf (l.capacity * 2), capacity := l.capacity * 2 }
  else .ok l

/-- `while (r > 0 && r != '\\n')`.  The list is the file from the character on that `r` holds. -/
def readLine (granted : ℕ → Bool) (junk : ℕ → UInt8) :
    List UInt8 → Line → Except Stop (ℤ × List UInt8 × Line)
  | [], l => .ok (-1, [], l)
  | b :: file, l =>
      if 0 < signed b ∧ signed b ≠ 10 then do
        let l ← l.push b
        let l ← l.grow granted junk
        readLine granted junk file l
      else .ok (signed b, file, l)

/-- `io_backend_get_line`: the string, if there is one, and the rest of the file. -/
def getLine (granted : ℕ → Bool) (junk : ℕ → UInt8) (file : List UInt8) :
    Except Stop (Option (List UInt8) × List UInt8) :=
  if (readChar file).1 = -1 then .ok (none, (readChar file).2)
  else do
    let l := { buf := malloc granted junk 1024, capacity := 1024, size := 0 }
    let (r, file, l) ← readLine granted junk file l
    let l ← if r = 10 then l.push 10 else .ok l
    let buf ← l.write 0
    return (if r = -2 then none else some (cString buf), file)

/-- Calls until `NULL` is returned, and the strings they return. -/
inductive Reads (granted : ℕ → Bool) (junk : ℕ → UInt8) : List UInt8 → List (List UInt8) → Prop
  | null {file rest : List UInt8} (h : getLine granted junk file = .ok (none, rest)) :
      Reads granted junk file []
  | line {file rest line : List UInt8} {lines : List (List UInt8)}
      (h : getLine granted junk file = .ok (some line, rest)) (hrest : Reads granted junk rest lines) :
      Reads granted junk file (line :: lines)

/-- The stream is read without a loss, in lines, and within the buffers. -/
def Lossless (granted : ℕ → Bool) (junk : ℕ → UInt8) (stream : List UInt8) : Prop :=
  ∃ lines, Reads granted junk stream lines ∧ lines.flatten = stream ∧
    ∀ line ∈ lines.dropLast, line.getLast? = some 10

/-- The capacities that a line of this length takes are within an `int` and granted. -/
def Fits (granted : ℕ → Bool) (n : ℕ) : Prop :=
  ∀ j, j = 0 ∨ 1024 * 2 ^ j ≤ 2 * n + 4 → 1024 * 2 ^ j < 2147483648 ∧ granted (1024 * 2 ^ j) = true

variable {granted : ℕ → Bool} {junk : ℕ → UInt8} {file rest content : List UInt8} {l l' : Line} {b : UInt8}
  {k m n : ℕ}

lemma Fits.mono (h : Fits granted n) (hm : m ≤ n) : Fits granted m := by
  intro j hj
  exact h j (by omega)

/-! ## One line -/

/-- The buffer holds `content` and has room, and its capacity is no larger than it has to be. -/
structure Holds (granted : ℕ → Bool) (l : Line) (content : List UInt8) (k : ℕ) : Prop where
  size : l.size = content.length
  capacity : l.capacity = 1024 * 2 ^ k
  room : content.length + 3 ≤ 1024 * 2 ^ k
  tight : k = 0 ∨ 1024 * 2 ^ k ≤ 2 * content.length + 4
  buf : ∃ rest, l.buf = some (content ++ rest) ∧ (content ++ rest).length = 1024 * 2 ^ k
  granted : ∀ j ≤ k, 1024 * 2 ^ j < 2147483648 ∧ granted (1024 * 2 ^ j) = true

lemma fits_of_capacities (hroom : n + 2 < 1024 * 2 ^ k)
    (hgranted : ∀ j ≤ k, 1024 * 2 ^ j < 2147483648 ∧ granted (1024 * 2 ^ j) = true) : Fits granted n := by
  rintro j (rfl | hj)
  · exact hgranted 0 (Nat.zero_le k)
  · refine hgranted j ?_
    by_contra hlt
    have hpow : 2 ^ (k + 1) ≤ 2 ^ j := Nat.pow_le_pow_right (by norm_num) (by omega)
    rw [pow_succ] at hpow
    omega

lemma Holds.fits (h : Holds granted l content k) : Fits granted content.length :=
  fits_of_capacities (by have := h.room; omega) h.granted

lemma realloc_keeps (junk : ℕ → UInt8) {buf : List UInt8} (hgranted : granted n = true)
    (hlen : buf.length ≤ n) :
    ∃ more, realloc granted junk buf n = some (buf ++ more) ∧ (buf ++ more).length = n := by
  refine ⟨(fresh junk n).drop buf.length, ?_, ?_⟩
  · rw [realloc, malloc, if_pos hgranted, Option.map_some, List.take_of_length_le hlen]
  · rw [List.length_append, List.length_drop, length_fresh]
    omega

lemma holds_first (junk : ℕ → UInt8) (hgranted : granted 1024 = true) :
    Holds granted { buf := malloc granted junk 1024, capacity := 1024, size := 0 } [] 0 := by
  refine ⟨rfl, rfl, by norm_num, Or.inl rfl, ⟨fresh junk 1024, ?_, ?_⟩, ?_⟩
  · simp only [malloc, if_pos hgranted, List.nil_append]
  · rw [List.nil_append, length_fresh, pow_zero, Nat.mul_one]
  · intro j hj
    obtain rfl : j = 0 := by omega
    exact ⟨by norm_num, hgranted⟩

lemma Holds.write (h : Holds granted l content k) (b : UInt8) :
    ∃ rest, l.write b = .ok (content ++ b :: rest) ∧ (content ++ b :: rest).length = 1024 * 2 ^ k := by
  obtain ⟨rest, hbuf, hlen⟩ := h.buf
  have hroom := h.room
  cases rest with
  | nil =>
      simp only [List.append_nil] at hlen
      omega
  | cons c rest =>
      refine ⟨rest, ?_, by simpa using hlen⟩
      rw [Line.write, hbuf, h.size]
      exact poke_append content b rest

lemma Holds.store (h : Holds granted l content k) (junk : ℕ → UInt8) (b : UInt8) :
    (Fits granted (content.length + 1) ∧
        ∃ l' k', (l.push b >>= Line.grow granted junk) = .ok l' ∧ Holds granted l' (content ++ [b]) k') ∨
      ¬ Fits granted (content.length + 1) ∧
        ((l.push b >>= Line.grow granted junk) = .error .undefined ∨
          ∃ l', (l.push b >>= Line.grow granted junk) = .ok l' ∧ l'.buf = none) := by
  obtain ⟨rest, hwrite, hlen⟩ := h.write b
  have hroom := h.room
  have hpush : l.push b = .ok { l with buf := some (content ++ b :: rest), size := l.size + 1 } := by
    rw [Line.push, hwrite]
    rfl
  rw [hpush]
  simp only [bind, Except.bind, Line.grow, h.capacity, h.size]
  have htight := h.tight
  have hsplit : content ++ b :: rest = (content ++ [b]) ++ rest := by simp
  by_cases hfull : 1024 * 2 ^ k < content.length + 1 + 3
  · rw [if_pos hfull]
    have hnext : 1024 * 2 ^ (k + 1) = 2 * (content.length + 1) + 4 := by
      rw [pow_succ]
      omega
    have hdouble : 1024 * 2 ^ k * 2 = 1024 * 2 ^ (k + 1) := by
      rw [pow_succ, Nat.mul_assoc]
    have hneed : Fits granted (content.length + 1) →
        1024 * 2 ^ (k + 1) < 2147483648 ∧ granted (1024 * 2 ^ (k + 1)) = true :=
      fun hfits => hfits (k + 1) (Or.inr hnext.le)
    rw [hdouble]
    split_ifs with hover
    · exact Or.inr ⟨fun hfits => absurd (hneed hfits).1 (by omega), Or.inl rfl⟩
    · by_cases hgrant : granted (1024 * 2 ^ (k + 1)) = true
      · have hall : ∀ j ≤ k + 1, 1024 * 2 ^ j < 2147483648 ∧ granted (1024 * 2 ^ j) = true := by
          intro j hj
          rcases Nat.lt_or_eq_of_le hj with hlt | rfl
          · exact h.granted j (by omega)
          · exact ⟨by omega, hgrant⟩
        have hlarger : (content ++ b :: rest).length ≤ 1024 * 2 ^ (k + 1) := by omega
        obtain ⟨more, hmore, hsize⟩ := realloc_keeps junk hgrant hlarger
        refine Or.inl ⟨fits_of_capacities (by omega) hall, _, k + 1, rfl, ?_⟩
        refine ⟨by simp, rfl, by simp; omega, Or.inr (by simp; omega), ⟨rest ++ more, ?_, ?_⟩, hall⟩
        · rw [Option.bind_some, hmore, hsplit, List.append_assoc]
        · rw [← List.append_assoc, ← hsplit]
          exact hsize
      · refine Or.inr ⟨fun hfits => hgrant (hneed hfits).2, Or.inr ⟨_, rfl, ?_⟩⟩
        simp [realloc, malloc, hgrant]
  · rw [if_neg hfull]
    refine Or.inl ⟨fits_of_capacities (by omega) h.granted, _, k, rfl, ?_⟩
    refine ⟨by simp, rfl, by simp; omega, ?_, ⟨rest, by simp, by simpa using hlen⟩, h.granted⟩
    simp only [List.length_append, List.length_singleton]
    omega

/-- The bytes a line goes on with. -/
def InLine (b : UInt8) : Prop := 0 < signed b ∧ signed b ≠ 10

instance (b : UInt8) : Decidable (InLine b) := inferInstanceAs (Decidable (_ ∧ _))

lemma readLine_lost (hlost : l.buf = none) {r : ℤ} {l' : Line}
    (h : readLine granted junk file l = .ok (r, rest, l')) : l'.buf = none := by
  cases file with
  | nil =>
      cases h
      exact hlost
  | cons b file =>
      rw [readLine] at h
      split_ifs at h with hin
      · have hpush : l.push b = .error .undefined := by
          simp [Line.push, Line.write, hlost, bind, Except.bind]
        rw [hpush] at h
        cases h
      · cases h
        exact hlost

lemma readLine_run (junk : ℕ → UInt8) {tail : List UInt8} (htail : ∀ b ∈ tail.head?, ¬ InLine b) :
    ∀ {w content : List UInt8} {l : Line} {k : ℕ}, Holds granted l content k → (∀ b ∈ w, InLine b) →
      (Fits granted (content ++ w).length ∧
          ∃ l' k', readLine granted junk (w ++ tail) l = .ok ((readChar tail).1, (readChar tail).2, l') ∧
            Holds granted l' (content ++ w) k') ∨
        ¬ Fits granted (content ++ w).length ∧
          ∀ r rest l', readLine granted junk (w ++ tail) l = .ok (r, rest, l') → l'.buf = none
  | [], content, l, k, h, _ => by
      left
      rw [List.append_nil, List.nil_append]
      refine ⟨h.fits, l, k, ?_, h⟩
      cases tail with
      | nil => rfl
      | cons b tail => exact if_neg (htail b rfl)
  | b :: w, content, l, k, h, hw => by
      have hb : InLine b := hw b (by simp)
      have hsplit : content ++ b :: w = (content ++ [b]) ++ w := by simp
      have hturn : readLine granted junk (b :: w ++ tail) l =
          (l.push b >>= Line.grow granted junk) >>= readLine granted junk (w ++ tail) := by
        rw [List.cons_append, readLine, if_pos (show 0 < signed b ∧ signed b ≠ 10 from hb), bind_assoc]
      rw [hturn, hsplit]
      rcases h.store junk b with ⟨-, l₁, k₁, hstore, hholds⟩ | ⟨hunfit, hlost⟩
      · rw [hstore]
        exact readLine_run junk htail hholds fun b' hb' => hw b' (by simp [hb'])
      · right
        refine ⟨fun hfits => hunfit (hfits.mono (by simp)), ?_⟩
        intro r rest l' hrun
        rcases hlost with herror | ⟨l₁, hstore, hnull⟩
        · rw [herror] at hrun
          cases hrun
        · rw [hstore] at hrun
          exact readLine_lost hnull hrun

/-- What a call returns when its line fits. -/
def lineResult (w tail : List UInt8) : Option (List UInt8) × List UInt8 :=
  (if (readChar tail).1 = -2 then none else some (if (readChar tail).1 = 10 then w ++ [10] else w),
    (readChar tail).2)

lemma InLine.ne_zero (h : InLine b) : b ≠ 0 := by
  rintro rfl
  exact absurd h.1 (by decide)

lemma Holds.newline (h : Holds granted l content k) :
    ∃ l' more, l.push 10 = .ok l' ∧ l'.write 0 = .ok (content ++ [10] ++ 0 :: more) := by
  obtain ⟨rest, hwrite, hlen⟩ := h.write 10
  have hroom := h.room
  simp only [List.length_append, List.length_cons] at hlen
  cases rest with
  | nil =>
      rw [List.length_nil] at hlen
      omega
  | cons c rest =>
      refine ⟨{ l with buf := some (content ++ 10 :: c :: rest), size := l.size + 1 }, rest, ?_, ?_⟩
      · rw [Line.push, hwrite]
        rfl
      · have hsplit : content ++ 10 :: c :: rest = (content ++ [10]) ++ c :: rest := by simp
        have hsize : l.size + 1 = (content ++ [10]).length := by simp [h.size]
        rw [Line.write, hsplit, hsize]
        exact poke_append _ 0 rest

/-- How `io_backend_get_line` ends. -/
def finish (r : ℤ) (file : List UInt8) (l : Line) : Except Stop (Option (List UInt8) × List UInt8) := do
  let l ← if r = 10 then l.push 10 else .ok l
  let buf ← l.write 0
  return (if r = -2 then none else some (cString buf), file)

lemma getLine_finish (hsome : (readChar file).1 ≠ -1) :
    getLine granted junk file =
      readLine granted junk file { buf := malloc granted junk 1024, capacity := 1024, size := 0 } >>=
        fun res => finish res.1 res.2.1 res.2.2 := by
  rw [getLine, if_neg hsome]
  rfl

lemma finish_holds (h : Holds granted l content k) (hnul : 0 ∉ content) (r : ℤ) :
    finish r file l =
      .ok (if r = -2 then none else some (if r = 10 then content ++ [10] else content), file) := by
  by_cases hnewline : r = 10
  · subst hnewline
    obtain ⟨l', more, hpush, hwrite⟩ := h.newline
    have hstring := cString_append (s := content ++ [10]) (by simp [hnul]) more
    rw [finish, if_pos rfl, hpush]
    simp only [bind, Except.bind, hwrite, hstring]
    rfl
  · obtain ⟨more, hwrite, -⟩ := h.write 0
    simp [finish, hnewline, hwrite, bind, Except.bind, pure, Except.pure, cString_append hnul]

lemma finish_lost (hlost : l.buf = none) (r : ℤ) : finish r file l = .error .undefined := by
  have hwrite (b : UInt8) : l.write b = .error .undefined := by simp [Line.write, hlost]
  by_cases hnewline : r = 10
  · simp [finish, hnewline, Line.push, hwrite, bind, Except.bind]
  · simp [finish, hnewline, hwrite, bind, Except.bind]

lemma getLine_eq (granted : ℕ → Bool) (junk : ℕ → UInt8) {w tail : List UInt8} (hw : ∀ b ∈ w, InLine b)
    (htail : ∀ b ∈ tail.head?, ¬ InLine b) (hsome : (readChar (w ++ tail)).1 ≠ -1) :
    (Fits granted w.length ∧ getLine granted junk (w ++ tail) = .ok (lineResult w tail)) ∨
      ¬ Fits granted w.length ∧ ∀ res, getLine granted junk (w ++ tail) ≠ .ok res := by
  rw [getLine_finish hsome]
  by_cases hfirst : granted 1024 = true
  · rcases readLine_run junk htail (holds_first junk hfirst) hw with
      ⟨hfits, l, k, hrun, hholds⟩ | ⟨hunfit, hlost⟩
    · have hnul : 0 ∉ w := fun h => (hw 0 h).ne_zero rfl
      rw [List.nil_append] at hfits hholds
      rw [hrun]
      exact Or.inl ⟨hfits, finish_holds hholds hnul _⟩
    · refine Or.inr ⟨hunfit, ?_⟩
      intro res h
      obtain ⟨⟨r, rest, l⟩, hrun, hfinish⟩ := bind_eq_ok.mp h
      rw [finish_lost (hlost r rest l hrun)] at hfinish
      cases hfinish
  · refine Or.inr ⟨fun hfits => hfirst (hfits 0 (Or.inl rfl)).2, ?_⟩
    intro res h
    obtain ⟨⟨r, rest, l⟩, hrun, hfinish⟩ := bind_eq_ok.mp h
    rw [finish_lost (readLine_lost (by simp [malloc, hfirst]) hrun)] at hfinish
    cases hfinish

/-! ## The whole input -/

lemma signed_pos {b : UInt8} : 0 < signed b ↔ 0 < b ∧ b < 128 := by
  have hlt := b.toNat_lt
  rw [signed, UInt8.lt_iff_toNat_lt, UInt8.lt_iff_toNat_lt, show (0 : UInt8).toNat = 0 from rfl,
    show (128 : UInt8).toNat = 128 from rfl]
  split_ifs <;> omega

lemma signed_eq_newline {b : UInt8} (h : signed b = 10) : b = 10 := by
  have hlt := b.toNat_lt
  refine UInt8.toNat_inj.mp ?_
  rw [signed] at h
  rw [show (10 : UInt8).toNat = 10 from rfl]
  split_ifs at h <;> omega

lemma exists_line (stream : List UInt8) : ∃ w tail, stream = w ++ tail ∧ (∀ b ∈ w, InLine b) ∧
    ∀ b ∈ tail.head?, ¬ InLine b := by
  refine ⟨stream.takeWhile fun b => decide (InLine b), stream.dropWhile fun b => decide (InLine b),
    ?_, ?_, ?_⟩
  · exact List.takeWhile_append_dropWhile.symm
  · intro b hb
    simpa using List.all_eq_true.mp List.all_takeWhile b hb
  · intro b hb
    have hstop := List.head?_dropWhile_not (fun b => decide (InLine b)) stream
    rw [Option.mem_def.mp hb] at hstop
    simpa using hstop

lemma getLine_ascii {line : List UInt8} (h : getLine granted junk file = .ok (some line, rest)) :
    ∀ b ∈ line, 0 < signed b := by
  by_cases hsome : (readChar file).1 = -1
  · rw [getLine, if_pos hsome] at h
    cases h
  · obtain ⟨w, tail, rfl, hw, htail⟩ := exists_line file
    rcases getLine_eq granted junk hw htail hsome with ⟨-, hres⟩ | ⟨-, hwrong⟩
    · rw [hres, lineResult] at h
      have hline := congrArg Prod.fst (Except.ok.inj h)
      simp only at hline
      split_ifs at hline with herror hnewline
      · cases hline
        intro b hb
        rcases List.mem_append.mp hb with hb | hb
        · exact (hw b hb).1
        · obtain rfl := List.mem_singleton.mp hb
          decide
      · cases hline
        intro b hb
        exact (hw b hb).1
    · exact absurd h (hwrong _)

lemma reads_ascii {lines : List (List UInt8)} (h : Reads granted junk file lines) :
    ∀ b ∈ lines.flatten, 0 < signed b := by
  induction h with
  | null h => simp
  | line h hrest ih =>
      intro b hb
      rw [List.flatten_cons, List.mem_append] at hb
      exact hb.elim (getLine_ascii h b) (ih b)

lemma tail_of_ascii {w tail : List UInt8} (hascii : ∀ b ∈ w ++ tail, 0 < signed b)
    (htail : ∀ b ∈ tail.head?, ¬ InLine b) : tail = [] ∨ ∃ rest, tail = 10 :: rest := by
  cases tail with
  | nil => exact Or.inl rfl
  | cons b rest =>
      have hb : signed b = 10 := by
        by_contra hne
        exact htail b rfl ⟨hascii b (by simp), hne⟩
      rw [signed_eq_newline hb]
      exact Or.inr ⟨rest, rfl⟩

lemma splitOn_line {w : List UInt8} (hw : ∀ b ∈ w, InLine b) (rest : List UInt8) :
    (w ++ 10 :: rest).splitOn 10 = w :: rest.splitOn 10 ∧ w.splitOn 10 = [w] := by
  have hno : ∀ b ∈ w, (b == 10) = false := by
    intro b hb
    simp only [beq_eq_false_iff_ne]
    rintro rfl
    exact (hw 10 hb).2 rfl
  exact ⟨List.splitOnP_append_cons_of_forall_mem hno 10 rfl rest, List.splitOnP_eq_singleton hno⟩

lemma readChar_of_ascii {b : UInt8} (hascii : ∀ c ∈ b :: file, 0 < signed c) :
    (readChar (b :: file)).1 ≠ -1 := by
  have hb := hascii b (by simp)
  simp only [readChar]
  omega

/-- The lines of a stream fit. -/
def LinesFit (granted : ℕ → Bool) (stream : List UInt8) : Prop :=
  stream = [] ∨ ∀ line ∈ stream.splitOn 10, Fits granted line.length

lemma linesFit_last {w : List UInt8} (hw : ∀ b ∈ w, InLine b) (hne : w ≠ []) :
    LinesFit granted w ↔ Fits granted w.length := by
  simp [LinesFit, (splitOn_line hw []).2, hne]

lemma linesFit_line {w : List UInt8} (hw : ∀ b ∈ w, InLine b) :
    LinesFit granted (w ++ 10 :: rest) ↔ Fits granted w.length ∧ LinesFit granted rest := by
  rw [LinesFit, (splitOn_line hw rest).1, LinesFit]
  simp only [List.append_eq_nil_iff, reduceCtorEq, and_false, false_or, List.forall_mem_cons]
  refine and_congr_right fun hfits => ?_
  constructor
  · exact Or.inr
  · rintro (rfl | hrest)
    · simpa using hfits.mono (Nat.zero_le _)
    · exact hrest

lemma getLine_last (granted : ℕ → Bool) (junk : ℕ → UInt8) {w : List UInt8} (hw : ∀ b ∈ w, InLine b) (hne : w ≠ []) :
    (Fits granted w.length ∧ getLine granted junk w = .ok (some w, [])) ∨
      ¬ Fits granted w.length ∧ ∀ res, getLine granted junk w ≠ .ok res := by
  obtain ⟨b, w', rfl⟩ := List.exists_cons_of_ne_nil hne
  have hsome := readChar_of_ascii fun c hc => (hw c hc).1
  have hend : ∀ b ∈ ([] : List UInt8).head?, ¬ InLine b := by simp
  have h := getLine_eq granted junk hw hend
  rw [List.append_nil] at h
  exact h hsome

lemma getLine_line (granted : ℕ → Bool) (junk : ℕ → UInt8) (rest : List UInt8) {w : List UInt8}
    (hw : ∀ b ∈ w, InLine b) :
    (Fits granted w.length ∧ getLine granted junk (w ++ 10 :: rest) = .ok (some (w ++ [10]), rest)) ∨
      ¬ Fits granted w.length ∧ ∀ res, getLine granted junk (w ++ 10 :: rest) ≠ .ok res := by
  have hsome : (readChar (w ++ 10 :: rest)).1 ≠ -1 := by
    cases w with
    | nil =>
        have hvalue : signed 10 = 10 := by decide
        simp [readChar, hvalue]
    | cons b w =>
        have hb := (hw b (by simp)).1
        simp only [List.cons_append, readChar]
        omega
  have hstop : ∀ b ∈ (10 :: rest).head?, ¬ InLine b := by
    intro b hb
    cases hb
    decide
  exact getLine_eq granted junk hw hstop hsome

lemma reads_fits {lines : List (List UInt8)} (h : Reads granted junk file lines) :
    (∀ b ∈ file, 0 < signed b) → LinesFit granted file := by
  induction h with
  | @null file rest h =>
      intro hascii
      by_cases hne : file = []
      · exact Or.inl hne
      obtain ⟨w, tail, rfl, hw, htail⟩ := exists_line file
      rcases tail_of_ascii hascii htail with rfl | ⟨rest', rfl⟩
      · rw [List.append_nil] at h hne
        rcases getLine_last granted junk hw hne with ⟨-, hres⟩ | ⟨-, hwrong⟩
        · rw [hres] at h
          cases h
        · exact absurd h (hwrong _)
      · rcases getLine_line granted junk rest' hw with
          ⟨-, hres⟩ | ⟨-, hwrong⟩
        · rw [hres] at h
          cases h
        · exact absurd h (hwrong _)
  | @line file rest line lines h hrest ih =>
      intro hascii
      by_cases hne : file = []
      · exact Or.inl hne
      obtain ⟨w, tail, rfl, hw, htail⟩ := exists_line file
      rcases tail_of_ascii hascii htail with rfl | ⟨rest', rfl⟩
      · rw [List.append_nil] at h hne ⊢
        rcases getLine_last granted junk hw hne with ⟨hfits, -⟩ | ⟨-, hwrong⟩
        · exact (linesFit_last hw hne).mpr hfits
        · exact absurd h (hwrong _)
      · rcases getLine_line granted junk rest' hw with
          ⟨hfits, hres⟩ | ⟨-, hwrong⟩
        · rw [hres] at h
          cases h
          exact (linesFit_line hw).mpr ⟨hfits, ih fun b hb => hascii b (by simp [hb])⟩
        · exact absurd h (hwrong _)

lemma lossless_of_fits (n : ℕ) : ∀ stream : List UInt8, stream.length ≤ n → (∀ b ∈ stream, 0 < signed b) →
    LinesFit granted stream → Lossless granted junk stream := by
  have hend : getLine granted junk [] = .ok (none, []) := by
    rw [getLine, if_pos (show (readChar []).1 = -1 from rfl)]
    rfl
  have hnull : Reads granted junk [] [] := Reads.null hend
  induction n with
  | zero =>
      intro stream hlen _ _
      rw [List.length_eq_zero_iff.mp (Nat.le_zero.mp hlen)]
      exact ⟨[], hnull, rfl, by simp⟩
  | succ n ih =>
      intro stream hlen hascii hfit
      by_cases hne : stream = []
      · subst hne
        exact ⟨[], hnull, rfl, by simp⟩
      obtain ⟨w, tail, rfl, hw, htail⟩ := exists_line stream
      rcases tail_of_ascii hascii htail with rfl | ⟨rest, rfl⟩
      · rw [List.append_nil] at hfit hne ⊢
        have hfits := (linesFit_last hw hne).mp hfit
        rcases getLine_last granted junk hw hne with ⟨-, hres⟩ | ⟨hunfit, -⟩
        · exact ⟨[w], Reads.line hres hnull, by simp, by simp⟩
        · exact absurd hfits hunfit
      · obtain ⟨hfits, hrest⟩ := (linesFit_line hw).mp hfit
        simp only [List.length_append, List.length_cons] at hlen
        obtain ⟨lines, hreads, hflat, hends⟩ :=
          ih rest (by omega) (fun b hb => hascii b (by simp [hb])) hrest
        rcases getLine_line granted junk rest hw with
          ⟨-, hres⟩ | ⟨hunfit, -⟩
        · refine ⟨(w ++ [10]) :: lines, Reads.line hres hreads, by simp [hflat], ?_⟩
          intro line hline
          cases lines with
          | nil => simp at hline
          | cons next lines =>
              rw [List.dropLast_cons_of_ne_nil (List.cons_ne_nil _ _), List.mem_cons] at hline
              rcases hline with rfl | hline
              · simp
              · exact hends line hline
        · exact absurd hfits hunfit

/-- The input is lossless when it is ASCII, and for each of its lines the capacities of the buffer are
granted and do not overflow. -/
theorem lossless_iff (granted : ℕ → Bool) (junk : ℕ → UInt8) (stream : List UInt8) :
    Lossless granted junk stream ↔
      (∀ b ∈ stream, 0 < b ∧ b < 128) ∧
        (stream = [] ∨ ∀ line ∈ stream.splitOn 10, Fits granted line.length) := by
  have hascii : (∀ b ∈ stream, 0 < b ∧ b < 128) ↔ ∀ b ∈ stream, 0 < signed b := by
    simp only [signed_pos]
  rw [hascii]
  constructor
  · rintro ⟨lines, hreads, hflat, -⟩
    have hall : ∀ b ∈ stream, 0 < signed b := by
      rw [← hflat]
      exact reads_ascii hreads
    exact ⟨hall, reads_fits hreads hall⟩
  · rintro ⟨hall, hfit⟩
    exact lossless_of_fits stream.length stream le_rfl hall hfit

/-- The two bytes of an accented letter are lost. -/
theorem input_accent : ¬ Lossless (fun _ => true) (fun _ => 0) [195, 169, 10] := by
  rintro ⟨lines, hreads, hflat, -⟩
  have hpos := reads_ascii hreads 195 (by simp [hflat])
  exact absurd hpos (by decide)

/-! ## The lexer's input -/

/-- The character of a byte. -/
def byteChar (b : UInt8) : Char := Char.ofNat b.toNat

lemma toNat_byteChar (b : UInt8) : (byteChar b).toNat = b.toNat := by
  have hlt := b.toNat_lt
  have hvalid : b.toNat.isValidChar := Or.inl (by omega)
  rw [byteChar, Char.ofNat, dif_pos hvalid]
  rfl

lemma charValue_byteChar (b : UInt8) : charValue (byteChar b) = signed b := by
  rw [charValue, toNat_byteChar, signed]

lemma byteChar_eq_newline (b : UInt8) : byteChar b = '\n' ↔ signed b = 10 := by
  constructor
  · intro h
    have hnat : b.toNat = 10 := by
      rw [← toNat_byteChar, h]
      rfl
    rw [signed, hnat]
    rfl
  · intro h
    rw [signed_eq_newline h]
    rfl

lemma inLine_byteChar (b : UInt8) : inLine (byteChar b) = decide (InLine b) := by
  rw [inLine, charValue_byteChar]
  by_cases hnewline : signed b = 10
  · simp [InLine, hnewline, (byteChar_eq_newline b).mpr hnewline]
  · simp [InLine, hnewline, mt (byteChar_eq_newline b).mp hnewline]

lemma ioBackendGetLine_bytes {line : Option (List UInt8)}
    (h : getLine granted junk file = .ok (line, rest)) :
    ioBackendGetLine (file.map byteChar) = (line.map (List.map byteChar), rest.map byteChar) := by
  have hread (s : List UInt8) :
      Shell.readChar (s.map byteChar) = ((readChar s).1, (readChar s).2.map byteChar) := by
    cases s with
    | nil => rfl
    | cons b s => simp [Shell.readChar, readChar, charValue_byteChar]
  by_cases hsome : (readChar file).1 = -1
  · rw [getLine, if_pos hsome] at h
    cases h
    simp [ioBackendGetLine, hread, hsome]
  · obtain ⟨w, tail, rfl, hw, htail⟩ := exists_line file
    rcases getLine_eq granted junk hw htail hsome with ⟨-, hres⟩ | ⟨-, hwrong⟩
    · rw [hres] at h
      cases h
      have hletters : ∀ c ∈ w.map byteChar, inLine c = true := by
        simpa [inLine_byteChar] using hw
      have hstop : (tail.map byteChar).takeWhile inLine = [] ∧
          (tail.map byteChar).dropWhile inLine = tail.map byteChar := by
        cases tail with
        | nil => simp
        | cons b tail => simp [inLine_byteChar, htail b rfl]
      rw [ioBackendGetLine, hread, if_neg hsome, List.map_append, List.dropWhile_append_of_pos hletters,
        List.takeWhile_append_of_pos hletters, hstop.1, hstop.2]
      cases tail with
      | nil => simp [readChar]
      | cons b tail =>
          have hbyte : byteChar 10 = '\n' := rfl
          simp only [List.map_cons, byteChar_eq_newline, charValue_byteChar, readChar]
          by_cases hnewline : signed b = 10
          · simp [hnewline, hbyte]
          · by_cases herror : signed b = -2
            · simp [herror]
            · simp [hnewline, herror]
    · exact absurd h (hwrong _)

end BrebOS.Shell.IoBackend

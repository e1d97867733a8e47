import BrebOS.Network.HTTP.Response

/-!
# Well-formed responses

The head of a response is a status line and lines with headers, and an empty line ends it.  The constructor
of `response` reads the first segment of such a response as it should, whatever follows the head.
-/

namespace BrebOS

namespace HTTP

namespace HeaderLine

/-- Neither part has the end of a line or of a string in it, and the name is there and has no colon. -/
structure Valid (h : HeaderLine) : Prop where
  name_ne : h.name ≠ []
  name_colon : colon ∉ h.name
  line_end : carriageReturn ∉ h.line
  line_null : 0 ∉ h.line

end HeaderLine

/-- The head of a response with the status 200. -/
structure ResponseHead where
  version : List Byte
  reason : List Byte
  headers : List HeaderLine
  deriving DecidableEq, Repr

namespace ResponseHead

/-- The status line, without its end. -/
def statusLine (r : ResponseHead) : List Byte := r.version ++ space :: [50, 48, 48] ++ space :: r.reason

/-- The lines and an empty one. -/
def text (r : ResponseHead) : List Byte :=
  (r.statusLine :: r.headers.map HeaderLine.line).flatMap (· ++ crlf) ++ crlf

structure Valid (r : ResponseHead) : Prop where
  version_length : 2 ≤ r.version.length
  version_space : space ∉ r.version
  statusLine_end : carriageReturn ∉ r.statusLine
  headers : ∀ h ∈ r.headers, h.Valid
  headers_ne : r.headers ≠ []

end ResponseHead

variable {p : List Byte}

/-! ## Lines -/

/-- The lines of a head. -/
def IsLine (l : List Byte) : Prop := l ≠ [] ∧ carriageReturn ∉ l

lemma matchesAt_crlf_lineFeed {i : ℕ} {t cs : List Byte} (h : p.drop i = lineFeed :: t) :
    matchesAt p i (carriageReturn :: cs) = .ok false := matchesAt_ne h (by decide)

lemma not_crlf_of_line {i : ℕ} {l t cs : List Byte} (hl : IsLine l) (h : p.drop i = l ++ t) :
    matchesAt p i (carriageReturn :: cs) = .ok false :=
  @matchesAt_skip p i carriageReturn cs l t h hl.2 0 (List.length_pos_iff.mpr hl.1)

lemma not_end_in_line {i : ℕ} {l l' t : List Byte} (hl : IsLine l) (hl' : IsLine l')
    (h : p.drop i = l ++ (crlf ++ (l' ++ t))) :
    ∀ j < (l ++ crlf).length, matchesAt p (i + j) (crlf ++ crlf) = .ok false := by
  intro j hj
  have hend : p.drop (i + l.length) = carriageReturn :: lineFeed :: (l' ++ t) := drop_add_length h
  have hfeed : p.drop (i + l.length + 1) = lineFeed :: (l' ++ t) := drop_succ hend
  have hnext : p.drop (i + l.length + 1 + 1) = l' ++ t := drop_succ hfeed
  simp only [List.length_append, crlf, List.length_cons, List.length_nil] at hj
  rcases Nat.lt_trichotomy j l.length with hlt | rfl | hgt
  · exact matchesAt_skip h hl.2 j hlt
  · rw [crlf, List.cons_append, matchesAt_cons hend, List.cons_append, matchesAt_cons hfeed]
    exact not_crlf_of_line hl' hnext
  · obtain rfl : j = l.length + 1 := by omega
    exact matchesAt_crlf_lineFeed hfeed

lemma search_end {t : List Byte} : ∀ {ls : List (List Byte)} {i left : ℕ}, ls ≠ [] →
    (∀ l ∈ ls, IsLine l) → p.drop i = lines ls ++ (crlf ++ t) → (lines ls).length ≤ left + 1 →
    search (fun k => matchesAt p k (crlf ++ crlf)) left i =
      .ok (some (i + (lines ls).length - crlf.length)) := by
  intro ls
  induction ls with
  | nil => intro _ _ hne; exact absurd rfl hne
  | cons l ls ih =>
      intro i left _ hall h hle
      rcases ls with _ | ⟨l', ls⟩
      · have h' : p.drop i = l ++ (crlf ++ (crlf ++ t)) := by simpa [lines] using h
        have hlen : (lines [l]).length = l.length + 2 := by simp [lines, crlf]
        have hend : matchesAt p (i + l.length) (crlf ++ crlf) = .ok true :=
          matchesAt_of_drop (t := t) (by rw [drop_add_length h', List.append_assoc])
        rw [search_found _ (matchesAt_skip h' (hall l (by simp)).2) hend (by omega), hlen,
          ← Nat.add_assoc]
        rfl
      · have hlen : (lines (l :: l' :: ls)).length = (l ++ crlf).length + (lines (l' :: ls)).length := by
          simp [lines, Nat.add_assoc]
        have h' : p.drop i = (l ++ crlf) ++ (lines (l' :: ls) ++ (crlf ++ t)) := by
          rw [h]
          simp [lines]
        have hskip := not_end_in_line (p := p) (i := i) (t := crlf ++ (lines ls ++ (crlf ++ t)))
          (hall l (by simp)) (hall l' (by simp)) (by rw [h]; simp [lines])
        have hpos : 2 ≤ (lines (l' :: ls)).length := by
          simp [lines, crlf]
          omega
        obtain ⟨left, rfl⟩ := Nat.exists_eq_add_of_le (show (l ++ crlf).length ≤ left by omega)
        rw [Nat.add_comm (l ++ crlf).length left, search_skip _ _ _ hskip,
          ih (by simp) (fun l hl => hall l (by simp [hl])) (drop_add_length h') (by omega), hlen,
          ← Nat.add_assoc]

lemma IsLine.unbroken {l : List Byte} (hl : IsLine l) : Unbroken l :=
  fun h => hl.2 (h.subset (by simp [crlf]))

lemma HeaderLine.Valid.isLine {h : HeaderLine} (hv : h.Valid) : IsLine h.line :=
  ⟨by simp [HeaderLine.line], hv.line_end⟩

lemma HeaderLine.Valid.fine {h : HeaderLine} (hv : h.Valid) : h.Fine where
  name_null := fun hc => hv.line_null (List.mem_append_left _ hc)
  raw_null := fun hc => hv.line_null (List.mem_append_right _ (List.mem_cons_of_mem _ hc))
  raw_end := fun hc => hv.line_end (List.mem_append_right _ (List.mem_cons_of_mem _ hc))
  name_space := fun hnil => absurd hnil hv.name_ne

namespace ResponseHead

variable {r : ResponseHead} {data : List Byte}

/-- What is read of the head. -/
def response (r : ResponseHead) : Response :=
  { method := .text r.version
    status := httpOk
    reason := .text r.reason
    headers := r.headers.map HeaderLine.header
    numHeaders := BitVec.ofNat 16 r.headers.length }

lemma Valid.isLine (hr : r.Valid) : ∀ l ∈ r.statusLine :: r.headers.map HeaderLine.line, IsLine l := by
  intro l hl
  rcases List.mem_cons.mp hl with rfl | hl
  · exact ⟨by simp [statusLine], hr.statusLine_end⟩
  · obtain ⟨h, hh, rfl⟩ := List.mem_map.mp hl
    exact (hr.headers h hh).isLine

/-- A head and what follows it, taken apart. -/
def parts (r : ResponseHead) (data : List Byte) : ResponseParts where
  method := r.version
  digit₁ := 50
  digit₂ := 48
  digit₃ := 48
  afterCode := space
  reason := r.reason
  afterReason := lineFeed
  headers := r.headers
  rest := data

lemma text_eq (r : ResponseHead) (data : List Byte) : r.text ++ data = (r.parts data).text := by
  simp [text, statusLine, ResponseParts.text, ResponseParts.region, parts, lines, crlf]

lemma parts_status (r : ResponseHead) (data : List Byte) : (r.parts data).status = httpOk := by
  simp [parts, ResponseParts.status, isDigit, digit, httpOk]

lemma parts_response (r : ResponseHead) (data : List Byte) : (r.parts data).response = r.response := by
  rw [ResponseParts.response, parts_status]
  rfl

lemma Valid.readable (hr : r.Valid) : (r.parts data).Readable where
  method_space := hr.version_space
  reason_end := fun hc => hr.statusLine_end (by simp [statusLine, parts] at hc ⊢; simp [hc])
  headers_line := fun h hh => (hr.headers h hh).isLine.unbroken
  headers_colon := fun h hh => (hr.headers h hh).name_colon
  method_length := hr.version_length
  status_ne := by
    rw [parts_status]
    decide
  headers_ne := hr.headers_ne
  headers_fine := fun h hh => (hr.headers h hh).fine

lemma readResponse_text (hr : r.Valid) (hlt : (r.text ++ data).length < 65536) :
    readResponse (r.text ++ data) (BitVec.ofNat 16 (r.text ++ data).length) = .ok r.response := by
  rw [text_eq] at hlt ⊢
  rw [← r.parts_response data]
  exact readResponse_of_checked (hr.readable.readResponse hlt)

lemma Valid.three_mul_le_lines (hr : r.Valid) : 3 * (r.headers.length + 1) ≤
    (lines (r.statusLine :: r.headers.map HeaderLine.line)).length := by
  have hle := ResponseParts.three_mul_le_lines fun l hl => ⟨(hr.isLine l hl).1, (hr.isLine l hl).unbroken⟩
  rwa [List.length_cons, List.length_map] at hle

lemma memmem_text (hr : r.Valid) : memmem (r.text ++ data) 0 (r.text ++ data).length (crlf ++ crlf) =
    .ok (some (r.text.length - (crlf ++ crlf).length)) := by
  have hdrop : (r.text ++ data).drop 0 =
      lines (r.statusLine :: r.headers.map HeaderLine.line) ++ (crlf ++ data) := by
    simp [text, lines]
  have hlen : r.text.length = (lines (r.statusLine :: r.headers.map HeaderLine.line)).length + 2 := by
    simp [text, lines, crlf]
    omega
  have hpos := hr.three_mul_le_lines
  have hfour : (crlf ++ crlf).length = 4 := rfl
  have htwo : crlf.length = 2 := rfl
  rw [memmem, if_neg (by rw [List.length_append, hfour]; omega)]
  simp only [Nat.zero_add]
  rw [search_end (by simp) hr.isLine hdrop (by rw [List.length_append, hfour]; omega), hlen, hfour, htwo]
  congr 2
  omega

lemma crlf_length_le (hr : r.Valid) : (crlf ++ crlf).length ≤ r.text.length := by
  have hpos := hr.three_mul_le_lines
  rw [show r.text.length = (lines (r.statusLine :: r.headers.map HeaderLine.line)).length + 2 by
    simp [text, lines, crlf]; omega]
  show 4 ≤ _
  omega

end ResponseHead

end HTTP

end BrebOS

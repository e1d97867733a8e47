import BrebOS.Network.DNS.Responses

/-!
# The positions of the records

Both loops find the end of a name with `strlen`, unless its first byte is a pointer.  That is the end of plain
labels, but a name that goes on at another place after some labels ends with its pointer: what follows is read
where the next null byte is.
-/

namespace BrebOS

namespace DNS

/-- A legal name takes `n` bytes: labels up to a null byte or a pointer. -/
inductive NameAt (p : List Byte) : ℕ → ℕ → Prop
  | stop {i : ℕ} (hc : p[i]? = some 0) : NameAt p i 1
  | pointer {i : ℕ} {c d : Byte} (hc : p[i]? = some c) (hptr : isPointer c) (hd : p[i + 1]? = some d) :
      NameAt p i 2
  | label {i n : ℕ} {c : Byte} (hc : p[i]? = some c) (hne : c ≠ 0) (hlt : c < 64)
      (hrest : NameAt p (i + (c.toNat + 1)) n) : NameAt p i (c.toNat + 1 + n)

/-- Records stand one behind the other between two places of a packet.  Each is given by its start and the
length of its name; `size` is the length of what follows a name. -/
def RecordsAt (p : List Byte) (size : ℕ → ℕ) : List (ℕ × ℕ) → ℕ → ℕ → Prop
  | [], b, b' => b = b'
  | r :: rs, b, b' => r.1 = b ∧ NameAt p r.1 r.2 ∧ r.1 + r.2 + size (r.1 + r.2) ≤ p.length ∧
      RecordsAt p size rs (r.1 + r.2 + size (r.1 + r.2)) b'

/-- The length of an answer behind its name. -/
def answerSize (p : List Byte) (rc : ℕ) : ℕ := dnsRecordSize + (wordAt p (rc + 8)).toNat

/-- A well-formed message, with its questions and answers. -/
structure Message (p : List Byte) (qs as : List (ℕ × ℕ)) : Prop where
  header : dnsHeaderSize ≤ p.length
  questCount : (wordAt p 4).toNat = qs.length
  ansCount : (wordAt p 6).toNat = as.length
  records : ∃ b b', RecordsAt p (fun _ => dnsQuestionSize) qs dnsHeaderSize b ∧
    RecordsAt p (answerSize p) as b b'

/-- The types and the data of the answers of the class `DNS_IN`. -/
def inRecords (p : List Byte) (as : List (ℕ × ℕ)) : List (BitVec 16 × ℕ) :=
  (as.filter fun r => wordAt p (r.1 + r.2 + 2) == dnsIn).map fun r =>
    (wordAt p (r.1 + r.2), r.1 + r.2 + dnsRecordSize)

/-- The loops over the answers, up to where the one after the first `n` starts. -/
def skipAnswers (junk : ℕ → Byte) (p : List Byte) (fuel : ℕ) : ℕ → ℕ → Except NetFault ℕ
  | 0, b => .ok b
  | n + 1, b => do
      let (_, next) ← readAnswer junk p fuel b
      skipAnswers junk p fuel n next

/-- The loops are at the start of each record when they come to it, and read what follows its name where it
stands; so they read the answers of the message, and the address is that of the last `A` record. -/
structure ReadsMessage (junk : ℕ → Byte) (p : List Byte) (fuel : ℕ) (qs as : List (ℕ × ℕ)) : Prop where
  questions : ∀ i (h : i < qs.length), skipQueries p i dnsHeaderSize = .ok qs[i].1
  answers : ∀ i (h : i < as.length), ∃ b, skipQueries p qs.length dnsHeaderSize = .ok b ∧
    skipAnswers junk p fuel i b = .ok as[i].1
  contents : ∀ r ∈ qs ++ as, nameLen p r.1 = .ok r.2
  read : ∃ answers st, readResponse junk p fuel = .ok answers ∧
    answers.map (fun a => (a.type, a.data)) = inRecords p as ∧
    answers.foldlM Scan.follow {} = .ok st ∧
    st.resolvedIp = ((inRecords p as).filter (·.1 == dnsRequestA)).getLast?.map Prod.snd

/-- A name is a pointer, or its last byte is its only null byte. -/
def EndsAtNull (p : List Byte) (i n : ℕ) : Prop :=
  (∃ c, p[i]? = some c ∧ isPointer c) ∨ p[i + (n - 1)]? = some 0 ∧ ∀ k < n - 1, p[i + k]? ≠ some 0

/-- The names of an answer that are read are finite and fit their buffers. -/
def NamesReadable (p : List Byte) (r : ℕ × ℕ) : Prop :=
  wordAt p (r.1 + r.2 + 2) = dnsIn → Readable p r.1 ∧
    (wordAt p (r.1 + r.2) = dnsRequestCname → Readable p (r.1 + r.2 + dnsRecordSize))

variable {junk : ℕ → Byte} {p : List Byte} {size : ℕ → ℕ} {qs as l : List (ℕ × ℕ)} {b b' i k n : ℕ}

/-! ## The length of a name -/

lemma isPointer_of_lt {c : Byte} (h : c < 64) : isPointer c = false := by
  revert h
  revert c
  decide

lemma NameAt.pos (h : NameAt p i n) : 0 < n := by
  cases h with
  | stop hc => exact Nat.one_pos
  | pointer hc hptr hd => exact Nat.two_pos
  | label hc hne hlt hrest => omega

lemma strlenAt_eq_ok : strlenAt p i = .ok n ↔ p[i + n]? = some 0 ∧ ∀ k < n, p[i + k]? ≠ some 0 := by
  have hfind : strlenAt p i = .ok n ↔ (p.drop i).findIdx? (· == 0) = some n := by
    rw [strlenAt]
    cases (p.drop i).findIdx? (· == 0) with
    | none => simp
    | some m => simp
  rw [hfind, List.findIdx?_eq_some_iff_getElem]
  constructor
  · rintro ⟨hlt, hzero, hbefore⟩
    refine ⟨?_, fun k hk heq => ?_⟩
    · rw [← List.getElem?_drop, List.getElem?_eq_getElem hlt, eq_of_beq hzero]
    · have hne := hbefore k hk
      rw [← List.getElem?_drop, List.getElem?_eq_getElem (hk.trans hlt)] at heq
      rw [Option.some.inj heq] at hne
      exact hne rfl
  · rintro ⟨hzero, hbefore⟩
    rw [← List.getElem?_drop] at hzero
    obtain ⟨hlt, hget⟩ := List.getElem?_eq_some_iff.mp hzero
    refine ⟨hlt, beq_iff_eq.mpr hget, fun k hk heq => hbefore k hk ?_⟩
    rw [← List.getElem?_drop, List.getElem?_eq_getElem (hk.trans hlt), eq_of_beq heq]

lemma NameAt.of_pointer {c : Byte} (h : NameAt p i n) (hc : p[i]? = some c) (hptr : isPointer c) : n = 2 := by
  cases h with
  | stop hzero =>
    rw [hzero, Option.some.injEq] at hc
    subst hc
    exact absurd hptr (by decide)
  | pointer hc hptr hd => rfl
  | label hc' hne hlt hrest =>
    rw [hc', Option.some.injEq] at hc
    subst hc
    rw [isPointer_of_lt hlt] at hptr
    cases hptr

lemma NameAt.nameLen_iff (h : NameAt p i n) : nameLen p i = .ok n ↔ EndsAtNull p i n := by
  have hpos := h.pos
  obtain ⟨c, hc⟩ : ∃ c, p[i]? = some c := by
    cases h with
    | stop hc => exact ⟨_, hc⟩
    | pointer hc hptr hd => exact ⟨_, hc⟩
    | label hc hne hlt hrest => exact ⟨_, hc⟩
  rw [nameLen_eq_ok, NameSpan, EndsAtNull]
  simp only [hc, Option.some.injEq, exists_eq_left']
  by_cases hptr : isPointer c
  · rw [if_pos hptr]
    exact iff_of_true (h.of_pointer hc hptr) (Or.inl hptr)
  · rw [if_neg hptr, or_iff_right hptr]
    constructor
    · rintro ⟨k, hk, rfl⟩
      exact strlenAt_eq_ok.mp hk
    · intro hnull
      exact ⟨n - 1, strlenAt_eq_ok.mpr hnull, by omega⟩

/-! ## Questions -/

lemma RecordsAt.name : ∀ {l : List (ℕ × ℕ)} {b : ℕ}, RecordsAt p size l b b' → ∀ r ∈ l, NameAt p r.1 r.2 := by
  intro l
  induction l with
  | nil =>
    intro b _ r hr
    exact absurd hr List.not_mem_nil
  | cons r l ih =>
    rintro b ⟨-, hname, -, hrest⟩ r' hr'
    rcases List.mem_cons.mp hr' with rfl | hr'
    · exact hname
    · exact ih hrest r' hr'

lemma skipQueries_get : ∀ {qs : List (ℕ × ℕ)} {b : ℕ}, RecordsAt p (fun _ => dnsQuestionSize) qs b b' →
    (∀ r ∈ qs, nameLen p r.1 = .ok r.2) →
      (∀ i (h : i < qs.length), skipQueries p i b = .ok qs[i].1) ∧ skipQueries p qs.length b = .ok b' := by
  intro qs
  induction qs with
  | nil =>
    rintro b rfl _
    exact ⟨fun i h => absurd h (Nat.not_lt_zero i), rfl⟩
  | cons r qs ih =>
    rintro b ⟨rfl, -, -, hrest⟩ hlen
    obtain ⟨hget, hend⟩ := ih hrest fun r' hr' => hlen r' (List.mem_cons_of_mem r hr')
    have hstep : ∀ i, skipQueries p (i + 1) r.1 = skipQueries p i (r.1 + r.2 + dnsQuestionSize) := by
      intro i
      rw [skipQueries, hlen r List.mem_cons_self]
      rfl
    refine ⟨fun i h => ?_, ?_⟩
    · cases i with
      | zero => rfl
      | succ i =>
        rw [hstep]
        exact hget i (Nat.lt_of_succ_lt_succ h)
    · rw [List.length_cons, hstep]
      exact hend

/-! ## Answers -/

lemma nameSpan_iff {r : ℕ × ℕ} (hlen : nameLen p r.1 = .ok r.2) : NameSpan p r.1 k ↔ k = r.2 := by
  rw [← nameLen_eq_ok, hlen, Except.ok.injEq, eq_comm]

lemma recordAt_iff {r : ℕ × ℕ} {o : Option Record} {next : ℕ} (hlen : nameLen p r.1 = .ok r.2)
    (hle : r.1 + r.2 + answerSize p (r.1 + r.2) ≤ p.length) :
    RecordAt p r.1 o next ↔ next = r.1 + r.2 + answerSize p (r.1 + r.2) ∧
      if wordAt p (r.1 + r.2 + 2) = dnsIn then
        ∃ e : Encoding, e.At p false r.1 ∧ e.Fits 0 ∧
          (wordAt p (r.1 + r.2) = dnsRequestCname → Readable p (r.1 + r.2 + dnsRecordSize)) ∧
          o = some ⟨e, wordAt p (r.1 + r.2), r.1 + r.2 + dnsRecordSize⟩
      else o = none := by
  rw [answerSize] at hle
  simp only [RecordAt, nameSpan_iff hlen, exists_eq_left, answerSize, Nat.add_assoc]
  constructor
  · rintro ⟨-, hnext, hrest⟩
    exact ⟨hnext, hrest⟩
  · rintro ⟨hnext, hrest⟩
    exact ⟨by omega, hnext, hrest⟩

lemma inRecords_cons {r : ℕ × ℕ} : inRecords p (r :: as) =
    (if wordAt p (r.1 + r.2 + 2) = dnsIn then [(wordAt p (r.1 + r.2), r.1 + r.2 + dnsRecordSize)] else []) ++
      inRecords p as := by
  by_cases hin : wordAt p (r.1 + r.2 + 2) = dnsIn
  · simp [inRecords, hin]
  · simp [inRecords, hin]

lemma exists_records : ∀ {as : List (ℕ × ℕ)} {b : ℕ}, RecordsAt p (answerSize p) as b b' →
    (∀ r ∈ as, nameLen p r.1 = .ok r.2) → (∀ r ∈ as, NamesReadable p r) →
      ∃ rs, Records p as.length b rs ∧ rs.map (fun r => (r.type, r.data)) = inRecords p as := by
  intro as
  induction as with
  | nil =>
    intro b _ _ _
    exact ⟨[], rfl, rfl⟩
  | cons r as ih =>
    rintro b ⟨rfl, -, hle, hrest⟩ hlen hread
    obtain ⟨rs, hrs, hmap⟩ := ih hrest (fun r' hr' => hlen r' (List.mem_cons_of_mem r hr'))
      fun r' hr' => hread r' (List.mem_cons_of_mem r hr')
    have hat := @recordAt_iff p r
    by_cases hin : wordAt p (r.1 + r.2 + 2) = dnsIn
    · obtain ⟨⟨e, he, hfits⟩, halias⟩ := hread r List.mem_cons_self hin
      refine ⟨_, ⟨some ⟨e, wordAt p (r.1 + r.2), r.1 + r.2 + dnsRecordSize⟩, _, rs,
        (hat (hlen r List.mem_cons_self) hle).mpr ⟨rfl, ?_⟩, hrs, rfl⟩, ?_⟩
      · rw [if_pos hin]
        exact ⟨e, he, hfits, halias, rfl⟩
      · rw [inRecords_cons, if_pos hin, ← hmap]
        rfl
    · refine ⟨_, ⟨none, _, rs, (hat (hlen r List.mem_cons_self) hle).mpr ⟨rfl, ?_⟩, hrs, rfl⟩, ?_⟩
      · rw [if_neg hin]
      · rw [inRecords_cons, if_neg hin, ← hmap]
        rfl

lemma readable_of_records : ∀ {as : List (ℕ × ℕ)} {b : ℕ} {rs : List Record},
    RecordsAt p (answerSize p) as b b' → (∀ r ∈ as, nameLen p r.1 = .ok r.2) →
      Records p as.length b rs → ∀ r ∈ as, NamesReadable p r := by
  intro as
  induction as with
  | nil =>
    intro b rs _ _ _ r hr
    exact absurd hr List.not_mem_nil
  | cons r as ih =>
    rintro b rs ⟨rfl, -, hle, hrest⟩ hlen ⟨o, next, rs', hat, hrs, -⟩ r' hr'
    obtain ⟨rfl, hcase⟩ := (recordAt_iff (hlen r List.mem_cons_self) hle).mp hat
    rcases List.mem_cons.mp hr' with rfl | hr'
    · intro hin
      rw [if_pos hin] at hcase
      obtain ⟨e, he, hfits, halias, -⟩ := hcase
      exact ⟨⟨e, he, hfits⟩, halias⟩
    · exact ih hrest (fun r' hr' => hlen r' (List.mem_cons_of_mem r hr')) hrs r' hr'

lemma skipAnswers_get (junk : ℕ → Byte) : ∀ {as : List (ℕ × ℕ)} {b : ℕ},
    RecordsAt p (answerSize p) as b b' → (∀ r ∈ as, nameLen p r.1 = .ok r.2) →
      (∀ r ∈ as, NamesReadable p r) →
        ∃ N, ∀ fuel ≥ N, ∀ i (h : i < as.length), skipAnswers junk p fuel i b = .ok as[i].1 := by
  intro as
  induction as with
  | nil =>
    intro b _ _ _
    exact ⟨0, fun fuel _ i h => absurd h (Nat.not_lt_zero i)⟩
  | cons r as ih =>
    rintro b ⟨rfl, hname, hle, hrest⟩ hlen hread
    obtain ⟨N, hN⟩ := ih hrest (fun r' hr' => hlen r' (List.mem_cons_of_mem r hr'))
      fun r' hr' => hread r' (List.mem_cons_of_mem r hr')
    have hone : RecordsAt p (answerSize p) [r] r.1 (r.1 + r.2 + answerSize p (r.1 + r.2)) :=
      ⟨rfl, hname, hle, rfl⟩
    obtain ⟨rs, ⟨o, next, -, hat, -, -⟩, -⟩ := exists_records hone
      (fun r' hr' => hlen r' (List.mem_of_mem_head? (List.mem_singleton.mp hr' ▸ rfl)))
      fun r' hr' => hread r' (List.mem_of_mem_head? (List.mem_singleton.mp hr' ▸ rfl))
    obtain ⟨rfl, -⟩ := (recordAt_iff (hlen r List.mem_cons_self) hle).mp hat
    obtain ⟨M, hM⟩ := readAnswer_complete junk hat
    refine ⟨max N M, fun fuel hfuel i h => ?_⟩
    cases i with
    | zero => rfl
    | succ i =>
      obtain ⟨a, ha, -⟩ := hM fuel (le_trans (le_max_right N M) hfuel)
      rw [skipAnswers, ha]
      exact hN fuel (le_trans (le_max_left N M) hfuel) i (Nat.lt_of_succ_lt_succ h)

/-! ## The message -/

lemma map_of_reads {rs : List Record} {answers : List Answer} (h : List.Forall₂ Reads rs answers) :
    answers.map (fun a => (a.type, a.data)) = rs.map fun r => (r.type, r.data) := by
  induction h with
  | nil => rfl
  | cons hr _ ih => rw [List.map_cons, List.map_cons, ih, hr.type, hr.data]

lemma follow_answers {rs : List Record} {answers : List Answer} (h : List.Forall₂ Reads rs answers) :
    ∃ st, answers.foldlM Scan.follow {} = .ok st ∧ st.resolvedIp =
      ((answers.map fun a => (a.type, a.data)).filter (·.1 == dnsRequestA)).getLast?.map Prod.snd := by
  obtain ⟨st, hst, -, -, hip⟩ := Scan.foldlM_follow Scan.Sound.init (alias_not_address h)
  refine ⟨st, hst, ?_⟩
  rw [hip, List.filter_map, List.getLast?_map, Option.map_map, Option.or_none]
  rfl

/-- Each record of a message is read where it stands, exactly when each name ends where the code looks for its
end, and those that are read fit. -/
theorem message_read_iff (junk : ℕ → Byte) {p : List Byte} {qs as : List (ℕ × ℕ)} (hm : Message p qs as) :
    (∃ N, ∀ fuel ≥ N, ReadsMessage junk p fuel qs as) ↔
      (∀ r ∈ qs ++ as, EndsAtNull p r.1 r.2) ∧ ∀ r ∈ as, NamesReadable p r := by
  obtain ⟨b, b', hqs, has⟩ := hm.records
  have hnames : ∀ r ∈ qs ++ as, NameAt p r.1 r.2 := by
    intro r hr
    rcases List.mem_append.mp hr with hr | hr
    · exact hqs.name r hr
    · exact has.name r hr
  have hheader := hm.header
  rw [dnsHeaderSize] at hheader
  constructor
  · rintro ⟨N, hN⟩
    have hright := hN N le_rfl
    have hlen := hright.contents
    have hlenAs : ∀ r ∈ as, nameLen p r.1 = .ok r.2 := fun r hr => hlen r (List.mem_append_right qs hr)
    refine ⟨fun r hr => (hnames r hr).nameLen_iff.mp (hlen r hr), ?_⟩
    obtain ⟨answers, -, hread, -⟩ := hright.read
    obtain ⟨-, c, rs, hquest, hrs, -⟩ := readResponse_sound hread
    rw [← skipQueries_eq_ok, hm.questCount,
      (skipQueries_get hqs fun r hr => hlen r (List.mem_append_left as hr)).2] at hquest
    cases hquest
    rw [hm.ansCount] at hrs
    exact readable_of_records has hlenAs hrs
  · rintro ⟨hnull, hread⟩
    have hlen : ∀ r ∈ qs ++ as, nameLen p r.1 = .ok r.2 :=
      fun r hr => (hnames r hr).nameLen_iff.mpr (hnull r hr)
    have hlenAs : ∀ r ∈ as, nameLen p r.1 = .ok r.2 := fun r hr => hlen r (List.mem_append_right qs hr)
    obtain ⟨hget, hend⟩ := skipQueries_get hqs fun r hr => hlen r (List.mem_append_left as hr)
    obtain ⟨N, hN⟩ := skipAnswers_get junk has hlenAs hread
    obtain ⟨rs, hrs, hmap⟩ := exists_records has hlenAs hread
    have hquest : Questions p (wordAt p 4).toNat dnsHeaderSize b := by
      rw [hm.questCount]
      exact skipQueries_eq_ok.mp hend
    rw [← hm.ansCount] at hrs
    obtain ⟨M, hM⟩ := readResponse_complete junk (by omega) hquest hrs
    refine ⟨max N M, fun fuel hfuel => ⟨hget, fun i h => ⟨b, hend, ?_⟩, hlen, ?_⟩⟩
    · exact hN fuel (le_trans (le_max_left N M) hfuel) i h
    · obtain ⟨answers, hanswers, hall⟩ := hM fuel (le_trans (le_max_right N M) hfuel)
      obtain ⟨st, hst, hip⟩ := follow_answers hall
      rw [map_of_reads hall, hmap] at hip
      exact ⟨answers, st, hanswers, (map_of_reads hall).trans hmap, hst, hip⟩

/-- A question for the name a.b, and an address for `name`. -/
def response (name : List Byte) : List Byte :=
  [0, 0, 0x81, 0x80, 0, 1, 0, 1, 0, 0, 0, 0, 1, 97, 1, 98, 0, 0, 1, 0, 1] ++ name ++
    [0, 1, 0, 1, 0, 0, 0, 0, 0, 4, 10, 0, 0, 2]

lemma nameAt_question (name : List Byte) : NameAt (response name) 12 5 :=
  .label (c := 1) rfl (by decide) (by decide) (.label (c := 1) rfl (by decide) (by decide) (.stop rfl))

lemma message_pointer : Message (response [0xC0, 12]) [(12, 5)] [(21, 2)] where
  header := by decide
  questCount := rfl
  ansCount := rfl
  records := ⟨21, 37, ⟨rfl, nameAt_question _, by decide, rfl⟩,
    ⟨rfl, .pointer rfl (by decide) rfl, by decide, rfl⟩⟩

theorem message_read_pointer :
    ∃ N, ∀ fuel ≥ N, ReadsMessage (fun _ => 0) (response [0xC0, 12]) fuel [(12, 5)] [(21, 2)] := by
  refine (message_read_iff (fun _ => 0) message_pointer).mpr ⟨?_, ?_⟩
  · simp only [List.cons_append, List.nil_append, List.forall_mem_cons]
    refine ⟨Or.inr ⟨rfl, by decide⟩, Or.inl ⟨0xC0, rfl, by decide⟩, nofun⟩
  · simp only [List.forall_mem_cons]
    refine ⟨fun _ => ⟨⟨.pointer (.label [97] (.label [98] .stop)), ?_, ?_⟩, fun h => ?_⟩, nofun⟩
    · exact ⟨0xC0, 12, rfl, by decide, rfl, nofun, 1, rfl, by decide, by decide, rfl, 1, rfl, by decide,
        by decide, rfl, rfl⟩
    · exact ⟨by decide, by decide, Nat.succ_pos _⟩
    · exact absurd h (by decide)

lemma message_labels : Message (response [1, 97, 0xC0, 14]) [(12, 5)] [(21, 4)] where
  header := by decide
  questCount := rfl
  ansCount := rfl
  records := ⟨21, 39, ⟨rfl, nameAt_question _, by decide, rfl⟩,
    ⟨rfl, .label (c := 1) rfl (by decide) (by decide) (.pointer (c := 0xC0) rfl (by decide) rfl), by decide,
      rfl⟩⟩

/-- What follows a name that ends with a pointer is read one byte too far on. -/
theorem message_misread : Message (response [1, 97, 0xC0, 14]) [(12, 5)] [(21, 4)] ∧
    ¬∃ N, ∀ fuel ≥ N, ReadsMessage (fun _ => 0) (response [1, 97, 0xC0, 14]) fuel [(12, 5)] [(21, 4)] := by
  refine ⟨message_labels, ?_⟩
  rintro ⟨N, hN⟩
  have hlen := (hN N le_rfl).contents (21, 4) (by simp)
  have hfive : nameLen (response [1, 97, 0xC0, 14]) 21 = .ok 5 := rfl
  rw [hfive] at hlen
  exact absurd (Except.ok.inj hlen) (by decide)

end DNS

end BrebOS

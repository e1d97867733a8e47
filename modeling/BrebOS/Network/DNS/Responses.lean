import BrebOS.Network.DNS.Names

/-!
# Responses that do not crash the kernel

`handle_packet` trusts the counts, the lengths and the pointers of a response.  It comes to an end, and
stays inside the packet and its buffers, exactly when the questions and answers lie inside the packet, each
name it reads is a finite one that fits its buffer, and what the socket in the table is told is there: an
answer at all, and an address if the name is one that a socket waits for.

The names it allocates are never deleted twice, whatever the answers are.
-/

namespace BrebOS

namespace DNS

/-- A name in front of a question or an answer takes `n` bytes: two for a pointer, otherwise all up to the
next null byte. -/
def NameSpan (p : List Byte) (b n : ℕ) : Prop :=
  ∃ c, p[b]? = some c ∧ if isPointer c then n = 2 else ∃ k, strlenAt p b = .ok k ∧ n = k + 1

/-- The questions take the bytes from `b` to `b'`. -/
def Questions (p : List Byte) : ℕ → ℕ → ℕ → Prop
  | 0, b, b' => b = b'
  | n + 1, b, b' => ∃ k, NameSpan p b k ∧ Questions p n (b + k + dnsQuestionSize) b'

/-- An answer of the class `DNS_IN`. -/
structure Record where
  encoding : Encoding
  type : BitVec 16
  data : ℕ

/-- A finite name that fits its buffer stands at a place of the packet. -/
def Readable (p : List Byte) (i : ℕ) : Prop := ∃ e : Encoding, e.At p false i ∧ e.Fits 0

/-- The answer at `b` lies inside the packet, and the next one is at `next`.  It is a record if it is of
the class `DNS_IN`, and then its names can be read. -/
def RecordAt (p : List Byte) (b : ℕ) (r : Option Record) (next : ℕ) : Prop :=
  ∃ k, NameSpan p b k ∧ b + k + dnsRecordSize ≤ p.length ∧
    next = b + k + dnsRecordSize + (wordAt p (b + k + 8)).toNat ∧
    if wordAt p (b + k + 2) = dnsIn then
      ∃ e : Encoding, e.At p false b ∧ e.Fits 0 ∧
        (wordAt p (b + k) = dnsRequestCname → Readable p (b + k + dnsRecordSize)) ∧
        r = some ⟨e, wordAt p (b + k), b + k + dnsRecordSize⟩
    else r = none

/-- The answers from `b` on. -/
def Records (p : List Byte) : ℕ → ℕ → List Record → Prop
  | 0, _, rs => rs = []
  | n + 1, b, rs => ∃ r next rest, RecordAt p b r next ∧ Records p n next rest ∧ rs = r.toList ++ rest

/-- What the socket is told is there. -/
def Tellable (s : DNS) (p : List Byte) : List Record → Prop
  | [] => slotValues s.pendingQueue = []
  | r :: rs => (∃ e ∈ slotValues s.pendingQueue, e.hostname = cstring r.encoding.name) →
      ∃ a, ((r :: rs).filter (·.type == dnsRequestA)).getLast? = some a ∧ a.data + 4 ≤ p.length

/-- A response whose parts lie inside the packet and whose names can be read. -/
def WellFormed (s : DNS) (p : List Byte) : Prop :=
  8 ≤ p.length ∧ ∃ b rs, Questions p (wordAt p 4).toNat dnsHeaderSize b ∧
    Records p (wordAt p 6).toNat b rs ∧ Tellable s p rs

/-- The packet is dropped, or it can be seen whether it answers the last query; then it is well formed. -/
def Harmless (s : DNS) (packet : UDPPacket) : Prop :=
  packet.dstPort = dnsPort → dnsHeaderSize ≤ packet.length.toNat →
    2 ≤ packet.payload.length ∧
      (load16 packet.payload 0 = .ok s.lastQueryId → WellFormed s packet.payload)

variable {junk : ℕ → Byte} {p : List Byte}

/-! ## Questions -/

lemma nameLen_eq_ok {b n : ℕ} : nameLen p b = .ok n ↔ NameSpan p b n := by
  simp only [nameLen, NameSpan, bind_eq_ok, readByte_eq_ok]
  refine exists_congr fun c => and_congr_right fun _ => ?_
  split
  · simp [pure, Except.pure, eq_comm]
  · simp only [bind_eq_ok, pure, Except.pure, Except.ok.injEq, eq_comm (a := n)]

lemma skipQueries_eq_ok {n b b' : ℕ} : skipQueries p n b = .ok b' ↔ Questions p n b b' := by
  induction n generalizing b with
  | zero => simp [skipQueries, Questions]
  | succ n ih => simp only [skipQueries, Questions, bind_eq_ok, nameLen_eq_ok, ih]

/-! ## Reading answers -/

/-- What is read of a record. -/
structure Reads (r : Record) (a : Answer) : Prop where
  name : Holds a.name r.encoding.name
  type : a.type = r.type
  data : a.data = r.data
  aliasName : a.aliasName.isSome ↔ r.type = dnsRequestCname

lemma readAlias_sound {type : BitVec 16} {fuel i : ℕ} {aliasName : Option (List Byte)}
    (h : readAlias junk p fuel type i = .ok aliasName) :
    (aliasName.isSome ↔ type = dnsRequestCname) ∧ (type = dnsRequestCname → Readable p i) := by
  rw [readAlias] at h
  split at h
  · next hcname =>
      obtain ⟨r, hr, rfl⟩ := map_eq_ok.mp h
      exact ⟨by simp [hcname], fun _ => parseName_iff.mp ⟨fuel, r, hr⟩⟩
  · next hcname =>
      obtain rfl := Except.ok.inj h
      exact ⟨by simp [hcname], fun h => absurd h hcname⟩

lemma readAlias_complete (junk : ℕ → Byte) {type : BitVec 16} {i : ℕ}
    (h : type = dnsRequestCname → Readable p i) :
    ∃ n, ∀ fuel ≥ n, ∃ aliasName, readAlias junk p fuel type i = .ok aliasName := by
  by_cases hcname : type = dnsRequestCname
  · obtain ⟨e, hat, hfits⟩ := h hcname
    obtain ⟨n, hn⟩ := (@parseName_complete junk p e).1 i hat hfits
    refine ⟨n, fun fuel hfuel => ?_⟩
    obtain ⟨r, hr⟩ := hn fuel hfuel
    rw [readAlias, if_pos hcname]
    exact ⟨some r, map_eq_ok.mpr ⟨r, hr, rfl⟩⟩
  · refine ⟨0, fun fuel _ => ⟨none, ?_⟩⟩
    rw [readAlias, if_neg hcname]

lemma readAnswer_sound {fuel b next : ℕ} {a : Option Answer}
    (h : readAnswer junk p fuel b = .ok (a, next)) :
    ∃ r, RecordAt p b r next ∧ Option.Rel Reads r a := by
  simp only [readAnswer, bind_eq_ok, nameLen_eq_ok] at h
  obtain ⟨k, hk, cls, hcls, h⟩ := h
  have hclass := (load16_word hcls).2
  split at h
  · next hother =>
      simp only [bind_eq_ok] at h
      obtain ⟨dataLen, hlen, h⟩ := h
      obtain ⟨rfl, rfl⟩ := Prod.mk.inj (Except.ok.inj h)
      obtain ⟨hle, hword⟩ := load16_word hlen
      refine ⟨none, ⟨k, hk, by rw [dnsRecordSize]; omega, by rw [hword], ?_⟩, .none⟩
      rw [if_neg (hclass ▸ hother)]
  · next hin =>
      simp only [bind_eq_ok] at h
      obtain ⟨name, hname, type, htype, aliasName, halias, dataLen, hlen, h⟩ := h
      obtain ⟨rfl, rfl⟩ := Prod.mk.inj (Except.ok.inj h)
      obtain ⟨hle, hword⟩ := load16_word hlen
      have htype' := (load16_word htype).2
      obtain ⟨e, hat, hfits, hholds⟩ := (parseName_sound fuel).1 b name hname
      obtain ⟨hsome, hreadable⟩ := readAlias_sound halias
      rw [htype'] at hsome hreadable
      refine ⟨some ⟨e, wordAt p (b + k), b + k + dnsRecordSize⟩,
        ⟨k, hk, by rw [dnsRecordSize]; omega, by rw [hword], ?_⟩, .some ⟨hholds, htype', rfl, hsome⟩⟩
      rw [if_pos (hclass ▸ not_not.mp hin)]
      exact ⟨e, hat, hfits, hreadable, rfl⟩

lemma readAnswer_complete (junk : ℕ → Byte) {b next : ℕ} {r : Option Record} (h : RecordAt p b r next) :
    ∃ n, ∀ fuel ≥ n, ∃ a, readAnswer junk p fuel b = .ok (a, next) ∧ Option.Rel Reads r a := by
  obtain ⟨k, hk, hle, rfl, h⟩ := h
  rw [dnsRecordSize] at hle
  obtain ⟨cls, hcls⟩ : ∃ w, load16 p (b + k + 2) = .ok w := exists_load16 (by omega)
  obtain ⟨type, htype⟩ : ∃ w, load16 p (b + k) = .ok w := exists_load16 (by omega)
  obtain ⟨dataLen, hlen⟩ : ∃ w, load16 p (b + k + 8) = .ok w := exists_load16 (by omega)
  have hclass := (load16_word hcls).2
  have htype' := (load16_word htype).2
  have hlen' := (load16_word hlen).2
  split at h
  · next hin =>
      obtain ⟨e, hat, hfits, hreadable, rfl⟩ := h
      obtain ⟨n, hn⟩ := (@parseName_complete junk p e).1 b hat hfits
      obtain ⟨m, hm⟩ := readAlias_complete junk hreadable
      refine ⟨max n m, fun fuel hfuel => ?_⟩
      obtain ⟨name, hname⟩ := hn fuel (le_trans (le_max_left n m) hfuel)
      obtain ⟨aliasName, halias⟩ := hm fuel (le_trans (le_max_right n m) hfuel)
      -- The name that is read is the one of this encoding.
      obtain ⟨e', hat', -, hholds⟩ := (parseName_sound fuel).1 b name hname
      obtain rfl := hat'.unique hat
      refine ⟨some ⟨name, wordAt p (b + k), aliasName, b + k + dnsRecordSize⟩, ?_,
        .some ⟨hholds, rfl, rfl, (readAlias_sound halias).1⟩⟩
      simp only [readAnswer, bind_eq_ok, nameLen_eq_ok]
      refine ⟨k, hk, cls, hcls, ?_⟩
      rw [if_neg (not_not.mpr (hclass.trans hin))]
      simp only [bind_eq_ok]
      refine ⟨name, hname, type, htype, aliasName, ?_, dataLen, hlen, ?_⟩
      · rw [htype']
        exact halias
      · rw [htype', hlen']
        rfl
  · next hother =>
      subst h
      refine ⟨0, fun fuel _ => ⟨none, ?_, .none⟩⟩
      simp only [readAnswer, bind_eq_ok, nameLen_eq_ok]
      refine ⟨k, hk, cls, hcls, ?_⟩
      rw [if_pos (by rw [hclass]; exact hother)]
      simp only [bind_eq_ok]
      refine ⟨dataLen, hlen, ?_⟩
      rw [hlen']
      rfl

lemma forall₂_toList_append {r : Option Record} {a : Option Answer} {rs : List Record}
    {answers : List Answer} (h : Option.Rel Reads r a) (hrest : List.Forall₂ Reads rs answers) :
    List.Forall₂ Reads (r.toList ++ rs) (a.toList ++ answers) := by
  cases h with
  | none => exact hrest
  | some h => exact .cons h hrest

lemma readAnswers_sound {fuel : ℕ} : ∀ {n b : ℕ} {answers : List Answer},
    readAnswers junk p fuel n b = .ok answers →
    ∃ rs, Records p n b rs ∧ List.Forall₂ Reads rs answers := by
  intro n
  induction n with
  | zero =>
      intro b answers h
      obtain rfl := Except.ok.inj h
      exact ⟨[], rfl, .nil⟩
  | succ n ih =>
      intro b answers h
      simp only [readAnswers, bind_eq_ok] at h
      obtain ⟨⟨a, next⟩, ha, rest, hrest, h⟩ := h
      obtain rfl := Except.ok.inj h
      obtain ⟨r, hr, hreads⟩ := readAnswer_sound ha
      obtain ⟨rs, hrs, hall⟩ := ih hrest
      exact ⟨_, ⟨r, next, rs, hr, hrs, rfl⟩, forall₂_toList_append hreads hall⟩

lemma readAnswers_complete (junk : ℕ → Byte) : ∀ {n b : ℕ} {rs : List Record}, Records p n b rs →
    ∃ N, ∀ fuel ≥ N, ∃ answers, readAnswers junk p fuel n b = .ok answers ∧
      List.Forall₂ Reads rs answers := by
  intro n
  induction n with
  | zero =>
      intro b rs h
      rw [Records] at h
      subst h
      exact ⟨0, fun fuel _ => ⟨[], rfl, .nil⟩⟩
  | succ n ih =>
      rintro b rs ⟨r, next, rest, hr, hrest, rfl⟩
      obtain ⟨N, hN⟩ := readAnswer_complete junk hr
      obtain ⟨M, hM⟩ := ih hrest
      refine ⟨max N M, fun fuel hfuel => ?_⟩
      obtain ⟨a, ha, hreads⟩ := hN fuel (le_trans (le_max_left N M) hfuel)
      obtain ⟨answers, hanswers, hall⟩ := hM fuel (le_trans (le_max_right N M) hfuel)
      refine ⟨a.toList ++ answers, ?_, forall₂_toList_append hreads hall⟩
      simp only [readAnswers, bind_eq_ok]
      exact ⟨(a, next), ha, answers, hanswers, rfl⟩

lemma readResponse_sound {fuel : ℕ} {answers : List Answer}
    (h : readResponse junk p fuel = .ok answers) :
    8 ≤ p.length ∧ ∃ b rs, Questions p (wordAt p 4).toNat dnsHeaderSize b ∧
      Records p (wordAt p 6).toNat b rs ∧ List.Forall₂ Reads rs answers := by
  simp only [readResponse, bind_eq_ok] at h
  obtain ⟨quests, hquests, count, hcount, b, hb, h⟩ := h
  obtain ⟨hle, hcount⟩ := load16_word hcount
  rw [(load16_word hquests).2] at hb
  rw [hcount] at h
  obtain ⟨rs, hrs, hall⟩ := readAnswers_sound h
  exact ⟨hle, b, rs, skipQueries_eq_ok.mp hb, hrs, hall⟩

lemma readResponse_complete (junk : ℕ → Byte) {b : ℕ} {rs : List Record} (hle : 8 ≤ p.length)
    (hb : Questions p (wordAt p 4).toNat dnsHeaderSize b) (hrs : Records p (wordAt p 6).toNat b rs) :
    ∃ N, ∀ fuel ≥ N, ∃ answers, readResponse junk p fuel = .ok answers ∧
      List.Forall₂ Reads rs answers := by
  obtain ⟨quests, hquests⟩ : ∃ w, load16 p 4 = .ok w := exists_load16 (by omega)
  obtain ⟨count, hcount⟩ : ∃ w, load16 p 6 = .ok w := exists_load16 (by omega)
  obtain ⟨N, hN⟩ := readAnswers_complete junk hrs
  refine ⟨N, fun fuel hfuel => ?_⟩
  obtain ⟨answers, hanswers, hall⟩ := hN fuel hfuel
  refine ⟨answers, ?_, hall⟩
  simp only [readResponse, bind_eq_ok]
  refine ⟨quests, hquests, count, hcount, b, ?_, ?_⟩
  · rw [(load16_word hquests).2]
    exact skipQueries_eq_ok.mpr hb
  · rw [(load16_word hcount).2]
    exact hanswers

/-! ## The names on the heap -/

namespace Scan

variable {st : Scan}

/-- The loop keeps no name, or two that are allocated; different ones stand at different addresses. -/
structure Sound (st : Scan) : Prop where
  fresh : ∀ a ∈ st.live, a < st.fresh
  names : (st.resolvedHostname = none ∧ st.lastSeenAlias = none) ∨
    ∃ n m, st.resolvedHostname = some n ∧ st.lastSeenAlias = some m ∧ n.addr ∈ st.live ∧
      m.addr ∈ st.live ∧ (n.addr = m.addr → n = m)

lemma Sound.init : ({} : Scan).Sound := ⟨by simp, .inl ⟨rfl, rfl⟩⟩

lemma meetName_spec (hs : st.Sound) (buf : List Byte) : (st.meetName buf).Sound ∧
    (st.meetName buf).resolvedHostname.isSome ∧
    (st.meetName buf).resolvedHostname.map (·.text) =
      (st.resolvedHostname.map (·.text)).or (some (cstring buf)) ∧
    (st.meetName buf).resolvedIp = st.resolvedIp := by
  rcases hs.names with ⟨hn, hm⟩ | ⟨n, m, hn, hm, hnl, hml, hapart⟩
  · refine ⟨⟨?_, .inr ⟨⟨st.fresh, cstring buf⟩, ⟨st.fresh, cstring buf⟩, ?_, ?_, ?_, ?_, fun _ => rfl⟩⟩,
      ?_, ?_, ?_⟩ <;> simp [meetName, alloc, hn, hm]
    exact fun a ha => (hs.fresh a ha).le
  · refine ⟨⟨?_, .inr ⟨n, m, ?_, ?_, ?_, ?_, hapart⟩⟩, ?_, ?_, ?_⟩ <;>
      simp [meetName, alloc, hn, hm, hnl, hml]
    exact fun a ha => (hs.fresh a ha).le

lemma followAlias_spec (hs : st.Sound) (hsome : st.resolvedHostname.isSome) (buf : List Byte) :
    ∃ st', st.followAlias buf = .ok st' ∧ st'.Sound ∧ st'.resolvedHostname = st.resolvedHostname ∧
      st'.resolvedIp = st.resolvedIp := by
  rcases hs.names with ⟨hn, hm⟩ | ⟨n, m, hn, hm, hnl, hml, hapart⟩
  · rw [hn] at hsome
    cases hsome
  have hnew : n.addr ≠ st.fresh := (hs.fresh _ hnl).ne
  have hlt : ∀ a ∈ st.live, a < st.fresh + 1 := fun a ha => Nat.lt_succ_of_lt (hs.fresh a ha)
  by_cases hnm : m = n
  · -- The last name is the one that was asked for, which is kept.
    refine ⟨{ st with
      lastSeenAlias := some ⟨st.fresh, cstring buf⟩
      live := st.fresh :: st.live
      fresh := st.fresh + 1 }, ?_, ⟨?_, .inr ⟨n, _, hn, rfl, ?_, ?_, ?_⟩⟩, rfl, rfl⟩
    · simp [followAlias, alloc, hn, hm, hnm, pure, Except.pure, bind, Except.bind]
    · simpa using hlt
    · exact List.mem_cons_of_mem _ hnl
    · exact List.mem_cons_self ..
    · exact fun h => absurd h hnew
  · have haddr : n.addr ≠ m.addr := fun h => hnm (hapart h).symm
    have hmnew : m.addr ≠ st.fresh := (hs.fresh _ hml).ne
    refine ⟨{ st with
      lastSeenAlias := some ⟨st.fresh, cstring buf⟩
      live := (st.fresh :: st.live).erase m.addr
      fresh := st.fresh + 1 }, ?_, ⟨?_, .inr ⟨n, _, hn, rfl, ?_, ?_, ?_⟩⟩, rfl, rfl⟩
    · simp [followAlias, alloc, delete, hn, hm, hnm, hml, pure, Except.pure, bind, Except.bind]
    · intro a ha
      rcases List.mem_cons.mp (List.mem_of_mem_erase ha) with rfl | ha
      · exact Nat.lt_succ_self _
      · exact hlt a ha
    · exact (List.mem_erase_of_ne haddr).mpr (List.mem_cons_of_mem _ hnl)
    · exact (List.mem_erase_of_ne hmnew.symm).mpr (List.mem_cons_self ..)
    · exact fun h => absurd h hnew

lemma follow_spec (hs : st.Sound) {answer : Answer}
    (halias : answer.aliasName.isSome → answer.type ≠ dnsRequestA) :
    ∃ st', st.follow answer = .ok st' ∧ st'.Sound ∧
      st'.resolvedHostname.map (·.text) =
        (st.resolvedHostname.map (·.text)).or (some (cstring answer.name)) ∧
      st'.resolvedIp = if answer.type = dnsRequestA then some answer.data else st.resolvedIp := by
  obtain ⟨hsound, hsome, htext, hip⟩ := meetName_spec hs answer.name
  rcases hcase : answer.aliasName with _ | buf
  · refine ⟨_, by rw [follow, hcase], ?_⟩
    split
    · exact ⟨⟨hsound.fresh, hsound.names⟩, htext, rfl⟩
    · exact ⟨hsound, htext, hip⟩
  · rw [hcase] at halias
    obtain ⟨st', hst', hsound', hname, hip'⟩ := followAlias_spec hsound hsome buf
    refine ⟨st', by rw [follow, hcase]; exact hst', hsound', by rw [hname, htext], ?_⟩
    rw [hip', hip, if_neg (halias rfl)]

lemma foldlM_follow : ∀ {answers : List Answer} {st : Scan}, st.Sound →
    (∀ a ∈ answers, a.aliasName.isSome → a.type ≠ dnsRequestA) →
    ∃ st', answers.foldlM follow st = .ok st' ∧ st'.Sound ∧
      st'.resolvedHostname.map (·.text) =
        (st.resolvedHostname.map (·.text)).or (answers.head?.map (cstring ·.name)) ∧
      st'.resolvedIp =
        ((answers.filter (·.type == dnsRequestA)).getLast?.map (·.data)).or st.resolvedIp := by
  intro answers
  induction answers with
  | nil =>
      intro st hs _
      exact ⟨st, rfl, hs, by simp, by simp⟩
  | cons a answers ih =>
      intro st hs halias
      obtain ⟨st₁, hst₁, hs₁, htext₁, hip₁⟩ := follow_spec hs (halias a (by simp))
      obtain ⟨st', hst', hs', htext, hip⟩ := ih hs₁ fun b hb => halias b (by simp [hb])
      refine ⟨st', ?_, hs', ?_, ?_⟩
      · rw [List.foldlM_cons, hst₁]
        exact hst'
      · rw [htext, htext₁]
        cases st.resolvedHostname <;> simp
      · rw [hip, hip₁]
        by_cases ha : a.type = dnsRequestA
        · rw [if_pos ha, List.filter_cons_of_pos (by simpa using ha), List.getLast?_cons]
          cases (answers.filter (·.type == dnsRequestA)).getLast? <;> simp
        · rw [if_neg ha, List.filter_cons_of_neg (by simpa using ha)]

lemma deleteNames_ok (hs : st.Sound) : ∃ st', st.deleteNames = .ok st' := by
  rcases hs.names with ⟨hn, hm⟩ | ⟨n, m, hn, hm, hnl, hml, hapart⟩
  · exact ⟨st, by simp [deleteNames, delete, hn, hm, pure, Except.pure, bind, Except.bind]⟩
  · by_cases hnm : n = m
    · refine ⟨{ st with live := st.live.erase m.addr }, ?_⟩
      simp [deleteNames, delete, hn, hm, hnm, hml, pure, Except.pure, bind, Except.bind]
    · have hlive : n.addr ∈ st.live.erase m.addr :=
        (List.mem_erase_of_ne fun h => hnm (hapart h)).mpr hnl
      refine ⟨{ st with live := (st.live.erase m.addr).erase n.addr }, ?_⟩
      simp [deleteNames, delete, hn, hm, hnm, hml, hlive, bind, Except.bind]

end Scan

/-! ## The socket is told -/

lemma exists_readIp {ip : Option ℕ} :
    (∃ a, readIp p ip = .ok a) ↔ ∃ d, ip = some d ∧ d + 4 ≤ p.length := by
  rcases ip with _ | d
  · simp [readIp]
  · simp only [readIp, load32, bind_eq_ok, Option.some.injEq, exists_eq_left']
    constructor
    · rintro ⟨-, -, -, b, hb, -⟩
      have := (load16_word hb).1
      omega
    · intro hle
      obtain ⟨a, ha⟩ : ∃ w, load16 p d = .ok w := exists_load16 (by omega)
      obtain ⟨b, hb⟩ : ∃ w, load16 p (d + 2) = .ok w := exists_load16 (by omega)
      exact ⟨_, a, ha, b, hb, rfl⟩

lemma exists_tellSocket_none {s : DNS} {ip : Except NetFault IP} :
    (∃ s', s.tellSocket none ip = .ok s') ↔ slotValues s.pendingQueue = [] := by
  have hall : s.pendingQueue.all (·.isNone) ↔ slotValues s.pendingQueue = [] := by
    simp [List.eq_nil_iff_forall_not_mem, mem_slotValues, List.all_eq_true, Option.isNone_iff_eq_none,
      Option.forall]
  rw [← hall]
  simp only [tellSocket, findPending]
  split
  · next h => simp [h, bind, Except.bind, pure, Except.pure]
  · next h => simp [h, bind, Except.bind]

lemma exists_tellSocket_some {s : DNS} {ip : Except NetFault IP} {name : List Byte} :
    (∃ s', s.tellSocket (some name) ip = .ok s') ↔
      ((∃ e ∈ slotValues s.pendingQueue, e.hostname = name) → ∃ a, ip = .ok a) := by
  obtain ⟨o, ho⟩ : ∃ o, s.findPending (some name) = .ok o := ⟨_, rfl⟩
  have hidx : s.pendingQueue.findIdx? (fun e => e.any (·.hostname == name)) = o := Except.ok.inj ho
  rw [tellSocket, ho]
  rcases o with _ | i
  · rw [List.findIdx?_eq_none_iff] at hidx
    refine ⟨fun _ => ?_, fun _ => ⟨s, rfl⟩⟩
    rintro ⟨e, he, rfl⟩
    simpa using hidx _ (mem_slotValues.mp he)
  · obtain ⟨hlt, hany, -⟩ := List.findIdx?_eq_some_iff_getElem.mp hidx
    obtain ⟨e, he, hname⟩ := (Option.any_eq_true ..).mp hany
    have hslot : s.pendingQueue[i]? = some (some e) := by rw [List.getElem?_eq_getElem hlt, he]
    have hmem : e ∈ slotValues s.pendingQueue := mem_slotValues_of_getElem? hslot
    simp only [bind, Except.bind, hslot]
    constructor
    · rintro ⟨s', hs'⟩ -
      cases ip with
      | ok a => exact ⟨a, rfl⟩
      | error err => cases hs'
    · intro h
      obtain ⟨a, rfl⟩ := h ⟨e, hmem, by simpa using hname⟩
      exact ⟨_, rfl⟩

lemma head_name {rs : List Record} {answers : List Answer} (h : List.Forall₂ Reads rs answers) :
    answers.head?.map (cstring ·.name) = rs.head?.map (cstring ·.encoding.name) := by
  cases h with
  | nil => rfl
  | cons hread _ => simp [hread.name.cstring]

lemma last_address {rs : List Record} {answers : List Answer} (h : List.Forall₂ Reads rs answers) :
    (answers.filter (·.type == dnsRequestA)).getLast?.map (·.data) =
      (rs.filter (·.type == dnsRequestA)).getLast?.map (·.data) := by
  induction h with
  | nil => rfl
  | @cons r a rs answers hread _ ih =>
      by_cases ha : r.type = dnsRequestA
      · rw [List.filter_cons_of_pos (by simpa [hread.type] using ha),
          List.filter_cons_of_pos (by simpa using ha), List.getLast?_cons, List.getLast?_cons,
          Option.map_some, Option.map_some, ← Option.getD_map (fun x : Answer => x.data),
          ← Option.getD_map (fun x : Record => x.data), ih, hread.data]
      · rw [List.filter_cons_of_neg (by simpa [hread.type] using ha),
          List.filter_cons_of_neg (by simpa using ha), ih]

lemma alias_not_address {rs : List Record} {answers : List Answer}
    (h : List.Forall₂ Reads rs answers) :
    ∀ a ∈ answers, a.aliasName.isSome → a.type ≠ dnsRequestA := by
  induction h with
  | nil => simp
  | cons hread _ ih =>
      intro a ha hsome
      rcases List.mem_cons.mp ha with rfl | ha
      · rw [hread.type, hread.aliasName.mp hsome]
        decide
      · exact ih a ha hsome

lemma answers_told {s : DNS} {rs : List Record} {answers : List Answer}
    (h : List.Forall₂ Reads rs answers) :
    (∃ st s' st', answers.foldlM Scan.follow {} = .ok st ∧
      s.tellSocket (st.resolvedHostname.map (·.text)) (readIp p st.resolvedIp) = .ok s' ∧
      st.deleteNames = .ok st') ↔ Tellable s p rs := by
  obtain ⟨st, hst, hsound, hname, hip⟩ := Scan.foldlM_follow Scan.Sound.init (alias_not_address h)
  obtain ⟨st', hst'⟩ := Scan.deleteNames_ok hsound
  have htell : (∃ st s' st', answers.foldlM Scan.follow {} = .ok st ∧
      s.tellSocket (st.resolvedHostname.map (·.text)) (readIp p st.resolvedIp) = .ok s' ∧
      st.deleteNames = .ok st') ↔
      ∃ s', s.tellSocket (st.resolvedHostname.map (·.text)) (readIp p st.resolvedIp) = .ok s' := by
    constructor
    · rintro ⟨st₁, s', -, hst₁, hs', -⟩
      obtain rfl : st₁ = st := Except.ok.inj (hst₁.symm.trans hst)
      exact ⟨s', hs'⟩
    · rintro ⟨s', hs'⟩
      exact ⟨st, s', st', hst, hs', hst'⟩
  rw [head_name h, Option.map_none, Option.none_or] at hname
  rw [last_address h, Option.or_none] at hip
  rw [htell, hname]
  cases rs with
  | nil => exact exists_tellSocket_none
  | cons r rs =>
      rw [Tellable, List.head?_cons, Option.map_some, exists_tellSocket_some, exists_readIp, hip]
      simp

/-! ## Packets -/

lemma handlePacket_answers {fuel : ℕ} {packet : UDPPacket} {s : DNS}
    (hport : packet.dstPort = dnsPort) (hlen : dnsHeaderSize ≤ packet.length.toNat)
    (hid : load16 packet.payload 0 = .ok s.lastQueryId) :
    (∃ r, handlePacket junk fuel packet s = .ok r) ↔
      ∃ answers, readResponse junk packet.payload fuel = .ok answers ∧
        ∃ st s' st', answers.foldlM Scan.follow {} = .ok st ∧
          s.tellSocket (st.resolvedHostname.map (·.text)) (readIp packet.payload st.resolvedIp) = .ok s' ∧
          st.deleteNames = .ok st' := by
  rw [handlePacket, if_neg (by simp only [hport, ne_eq, not_true_eq_false, false_or]; omega)]
  simp only [bind_eq_ok, hid, Except.ok.injEq, exists_eq_left', ne_eq, not_true_eq_false, if_false,
    displayResponse]
  constructor
  · rintro ⟨r, -, -, answers, hanswers, st, hst, s', hs', st', hst', -⟩
    exact ⟨answers, hanswers, st, s', st', hst, hs', hst'⟩
  · rintro ⟨answers, hanswers, st, s', st', hst, hs', hst'⟩
    exact ⟨(true, s'), (), ⟨answers, hanswers, rfl⟩, answers, hanswers, st, hst, s', hs', st', hst', rfl⟩

lemma wellFormed_iff {packet : UDPPacket} {s : DNS} (hport : packet.dstPort = dnsPort)
    (hlen : dnsHeaderSize ≤ packet.length.toNat)
    (hid : load16 packet.payload 0 = .ok s.lastQueryId) :
    (∃ n, ∀ fuel ≥ n, ∃ r, handlePacket junk fuel packet s = .ok r) ↔ WellFormed s packet.payload := by
  simp only [handlePacket_answers hport hlen hid]
  constructor
  · rintro ⟨n, hn⟩
    obtain ⟨answers, hanswers, htold⟩ := hn n le_rfl
    obtain ⟨hle, b, rs, hb, hrs, hall⟩ := readResponse_sound hanswers
    exact ⟨hle, b, rs, hb, hrs, (answers_told hall).mp htold⟩
  · rintro ⟨hle, b, rs, hb, hrs, htellable⟩
    obtain ⟨n, hn⟩ := readResponse_complete junk hle hb hrs
    refine ⟨n, fun fuel hfuel => ?_⟩
    obtain ⟨answers, hanswers, hall⟩ := hn fuel hfuel
    exact ⟨answers, hanswers, (answers_told hall).mpr htellable⟩

/-- The packets that are handled: none is read or written outside its bounds, no null name or address is
used, no name is deleted twice, and the recursion ends. -/
theorem response_handled (junk : ℕ → Byte) (packet : UDPPacket) (s : DNS) :
    (∃ n, ∀ fuel ≥ n, ∃ r, handlePacket junk fuel packet s = .ok r) ↔ Harmless s packet := by
  by_cases hport : packet.dstPort = dnsPort
  · by_cases hlen : dnsHeaderSize ≤ packet.length.toNat
    · rw [Harmless]
      simp only [hport, hlen, true_implies]
      by_cases htwo : 2 ≤ packet.payload.length
      · obtain ⟨id, hid⟩ : ∃ w, load16 packet.payload 0 = .ok w := exists_load16 htwo
        by_cases heq : id = s.lastQueryId
        · subst heq
          simp only [htwo, hid, true_and, true_implies, wellFormed_iff hport hlen hid]
        · refine iff_of_true ⟨0, fun fuel _ => ⟨(false, s), ?_⟩⟩ ⟨htwo, fun h => ?_⟩
          · rw [handlePacket, if_neg (by simp only [hport, ne_eq, not_true_eq_false, false_or]; omega)]
            simp only [hid, bind, Except.bind]
            exact if_pos heq
          · exact absurd (Except.ok.inj (hid.symm.trans h)) heq
      · refine iff_of_false ?_ fun h => htwo h.1
        rintro ⟨n, hn⟩
        obtain ⟨r, hr⟩ := hn n le_rfl
        rw [handlePacket, if_neg (by simp only [hport, ne_eq, not_true_eq_false, false_or]; omega)] at hr
        simp only [bind_eq_ok] at hr
        obtain ⟨id, hid, -⟩ := hr
        exact htwo (load16_word hid).1
    · refine iff_of_true ⟨0, fun fuel _ => ⟨(false, s), ?_⟩⟩ fun _ h => absurd h hlen
      rw [handlePacket, if_pos (.inr (not_le.mp hlen))]
  · refine iff_of_true ⟨0, fun fuel _ => ⟨(false, s), ?_⟩⟩ fun h => absurd h hport
    rw [handlePacket, if_pos (.inl hport)]

lemma Encoding.not_at_self {j : ℕ} {c : Byte} (hc : p[j]? = some c) (hptr : isPointer c)
    (hj : pointerTarget p j = .ok j) (e : Encoding) (inner : Bool) : ¬ e.At p inner j := by
  induction e generalizing inner with
  | stop =>
      intro hat
      obtain rfl : c = 0 := Option.some.inj (hc.symm.trans hat)
      exact absurd hptr (by decide)
  | label bytes rest _ =>
      rintro ⟨c', hc', -, hlabel, -⟩
      obtain rfl : c = c' := Option.some.inj (hc.symm.trans hc')
      rw [hlabel] at hptr
      cases hptr
  | pointer target ih =>
      rintro ⟨c', j', -, -, hj', -, hat⟩
      obtain rfl : j = j' := Except.ok.inj (hj.symm.trans hj')
      exact ih false hat

/-- An answer whose name is a pointer to itself is followed for ever, and with no answer at all the null
name is compared with the one a socket waits for. -/
theorem response_not_handled :
    (∀ fuel r, handlePacket (fun _ => 0) fuel
      ⟨53, 53, 32, [0, 0, 0, 0, 0, 0, 0, 1, 0, 0, 0, 0, 0xC0, 12, 0, 1, 0, 1, 0, 0, 0, 0, 0, 0]⟩ {} ≠
        .ok r) ∧
    ∃ s, resolveHostname [97] 1 17 {} = .ok s ∧
      ∀ fuel, handlePacket (fun _ => 0) fuel ⟨53, 53, 20, [17, 0, 0, 0, 0, 0, 0, 0, 0, 0, 0, 0]⟩ s =
        .error .nullPointer := by
  refine ⟨fun fuel r hr => ?_, _, rfl, fun fuel => rfl⟩
  obtain ⟨answers, hanswers, -⟩ := (handlePacket_answers rfl (by decide) rfl).mp ⟨r, hr⟩
  obtain ⟨-, b, rs, hb, ⟨record, next, rest, ⟨k, ⟨c, hc, hk⟩, -, -, hrecord⟩, -⟩, -⟩ :=
    readResponse_sound hanswers
  obtain rfl : dnsHeaderSize = b := hb
  obtain rfl : 0xC0 = c := Option.some.inj hc
  obtain rfl : k = 2 := hk
  rw [if_pos (by decide)] at hrecord
  obtain ⟨e, hat, -⟩ := hrecord
  exact Encoding.not_at_self (c := 0xC0) rfl rfl rfl e false hat

end DNS

end BrebOS

import BrebOS.Network.HTTP
import Mathlib.Data.List.TakeWhile

/-!
# The constructor of a response

What `HTTP::response::response` makes of a packet.  The cursor and the remaining size go down the packet
together; every error exit that it can reach leaves a pointer to a method that was deleted, and a search that
finds nothing reads on behind the packet.  So the constructor does what it should exactly on the packets that
are responses from the status line to the empty line.
-/

namespace BrebOS

namespace HTTP

/-- A header, with all that stands between its colon and the end of the line. -/
structure HeaderLine where
  name : List Byte
  raw : List Byte
  deriving DecidableEq, Repr

namespace HeaderLine

/-- The line, without its end. -/
def line (h : HeaderLine) : List Byte := h.name ++ colon :: h.raw

/-- One space is taken off the value. -/
def value (h : HeaderLine) : List Byte := if h.raw.head? = some space then h.raw.tail else h.raw

/-- The header that is made of a line. -/
def header (h : HeaderLine) : Header := ⟨h.name, h.value⟩

end HeaderLine

variable {p : List Byte}

/-! ## Searching -/

lemma drop_add_length {i : ℕ} {a t : List Byte} (h : p.drop i = a ++ t) : p.drop (i + a.length) = t := by
  rw [← List.drop_drop, h, List.drop_left]

lemma drop_succ {i : ℕ} {b : Byte} {t : List Byte} (h : p.drop i = b :: t) : p.drop (i + 1) = t :=
  drop_add_length (a := [b]) h

lemma readByte_of_drop {i : ℕ} {b : Byte} {t : List Byte} (h : p.drop i = b :: t) :
    readByte p i = .ok b := by
  rw [readByte_eq_ok, ← List.head?_drop, h]
  rfl

lemma readBytes_of_drop {i : ℕ} {a t : List Byte} (h : p.drop i = a ++ t) (ht : t ≠ []) :
    readBytes p i a.length = .ok a := by
  have hlen := congrArg List.length h
  have hpos := List.length_pos_iff.mpr ht
  rw [List.length_drop, List.length_append] at hlen
  rw [readBytes_eq_ok, h, List.take_left]
  exact ⟨by omega, rfl⟩

lemma matchesAt_cons {i : ℕ} {c : Byte} {cs t : List Byte} (h : p.drop i = c :: t) :
    matchesAt p i (c :: cs) = matchesAt p (i + 1) cs := by
  rw [matchesAt, readByte_of_drop h]
  exact if_pos rfl

lemma matchesAt_of_drop {cs t : List Byte} {i : ℕ} (h : p.drop i = cs ++ t) :
    matchesAt p i cs = .ok true := by
  induction cs generalizing i with
  | nil => rfl
  | cons c cs ih =>
      rw [matchesAt_cons h]
      exact ih (drop_succ h)

lemma matchesAt_ne {i : ℕ} {b c : Byte} {cs t : List Byte} (h : p.drop i = b :: t) (hne : b ≠ c) :
    matchesAt p i (c :: cs) = .ok false := by
  rw [matchesAt, readByte_of_drop h]
  exact if_neg hne

lemma search_skip {test : ℕ → Except NetFault Bool} (left : ℕ) : ∀ (m k : ℕ),
    (∀ j < m, test (k + j) = .ok false) → search test (left + m) k = search test left (k + m) := by
  intro m
  induction m with
  | zero => intro k _; rfl
  | succ m ih =>
      intro k h
      rw [← Nat.add_assoc, search, show test k = .ok false from h 0 (Nat.succ_pos m)]
      refine (ih (k + 1) fun j hj => ?_).trans ?_
      · rw [Nat.add_assoc, Nat.add_comm 1 j]
        exact h (j + 1) (Nat.succ_lt_succ hj)
      · rw [Nat.add_assoc, Nat.add_comm 1 m]

lemma search_found (test : ℕ → Except NetFault Bool) {left k m : ℕ}
    (hskip : ∀ j < m, test (k + j) = .ok false) (hfound : test (k + m) = .ok true) (hle : m < left) :
    search test left k = .ok (some (k + m)) := by
  obtain ⟨left, rfl⟩ := Nat.exists_eq_add_of_lt hle
  rw [show m + left + 1 = (left + 1) + m by omega, search_skip _ m k hskip, search, hfound]
  rfl

lemma matchesAt_skip {i : ℕ} {c : Byte} {cs l t : List Byte} (h : p.drop i = l ++ t) (hc : c ∉ l) :
    ∀ j < l.length, matchesAt p (i + j) (c :: cs) = .ok false := by
  intro j hj
  have hdrop : p.drop (i + j) = l[j] :: (l.drop (j + 1) ++ t) := by
    rw [← List.drop_drop, h, List.drop_append_of_le_length hj.le, List.drop_eq_getElem_cons hj]
    rfl
  refine matchesAt_ne hdrop fun heq => hc ?_
  rw [← heq]
  exact List.getElem_mem hj

lemma findChar_of_drop {str : ℕ} {c : Byte} {l t : List Byte} {len : BitVec 16}
    (h : p.drop str = l ++ c :: t) (hc : c ∉ l) (hlen : l.length ≤ len.toNat) :
    findChar p str c len = .ok (some l.length) := by
  have hfound : matchesAt p (str + (0 + l.length)) [c] = .ok true := by
    rw [Nat.zero_add]
    exact matchesAt_of_drop (t := t) (drop_add_length h)
  have hskip : ∀ j < l.length, matchesAt p (str + (0 + j)) [c] = .ok false := by
    intro j hj
    rw [Nat.zero_add]
    exact matchesAt_skip h hc j hj
  rw [findChar, search_found (fun k => matchesAt p (str + k) [c]) hskip hfound (by omega),
    Nat.zero_add]

/-! ## Lines -/

/-- A line that is not empty, and its end. -/
def lines (ls : List (List Byte)) : List Byte := ls.flatMap (· ++ crlf)

/-- No end of a line in a text. -/
def Unbroken (l : List Byte) : Prop := ¬ crlf <:+: l

lemma matchesAt_unbroken {i : ℕ} {l t : List Byte} (h : p.drop i = l ++ (crlf ++ t)) (hl : Unbroken l) :
    ∀ j < l.length, matchesAt p (i + j) crlf = .ok false := by
  intro j hj
  have hdrop : p.drop (i + j) = l[j] :: (l.drop (j + 1) ++ (crlf ++ t)) := by
    rw [← List.drop_drop, h, List.drop_append_of_le_length hj.le, List.drop_eq_getElem_cons hj]
    rfl
  by_cases hc : l[j] = carriageReturn
  · rw [hc] at hdrop
    rw [crlf, matchesAt_cons hdrop]
    have hnext := drop_succ hdrop
    rcases hrest : l.drop (j + 1) with _ | ⟨b, rest⟩
    · rw [hrest] at hnext
      exact matchesAt_ne hnext (by decide)
    · rw [hrest] at hnext
      refine matchesAt_ne hnext fun hb => hl ⟨l.take j, rest, ?_⟩
      have hsplit := List.take_append_drop j l
      rw [List.drop_eq_getElem_cons hj, hc, hrest, hb] at hsplit
      simpa [crlf] using hsplit
  · exact matchesAt_ne hdrop hc

lemma ofNat_sub_ofNat {m k : ℕ} (hk : k ≤ m) (hm : m < 65536) :
    BitVec.ofNat 16 m - BitVec.ofNat 16 k = BitVec.ofNat 16 (m - k) := by
  apply BitVec.eq_of_toNat_eq
  rw [BitVec.toNat_sub, BitVec.toNat_ofNat, BitVec.toNat_ofNat, BitVec.toNat_ofNat]
  omega

lemma toNat_ofNat_of_lt {m : ℕ} (hm : m < 65536) : (BitVec.ofNat 16 m).toNat = m := by
  rw [BitVec.toNat_ofNat]
  exact Nat.mod_eq_of_lt hm

lemma countHeadersFrom_skip {headerBeg left : ℕ} {c : BitVec 16} : ∀ (m k : ℕ),
    (∀ j < m, matchesAt p (headerBeg + k + j) crlf = .ok false) →
    countHeadersFrom p headerBeg (left + m) k c = countHeadersFrom p headerBeg left (k + m) c := by
  intro m
  induction m with
  | zero => intro k _; rfl
  | succ m ih =>
      intro k h
      rw [← Nat.add_assoc, countHeadersFrom,
        show matchesAt p (headerBeg + k) crlf = .ok false from h 0 (Nat.succ_pos m)]
      refine (ih (k + 1) fun j hj => ?_).trans ?_
      · rw [show headerBeg + (k + 1) + j = headerBeg + k + (j + 1) by omega]
        exact h (j + 1) (Nat.succ_lt_succ hj)
      · rw [Nat.add_assoc, Nat.add_comm 1 m]

/-- What is one line of a head: there is something in it, and no end of a line. -/
def OneLine (l : List Byte) : Prop := l ≠ [] ∧ Unbroken l

lemma countHeadersFrom_lines {headerBeg : ℕ} {t : List Byte} : ∀ {ls : List (List Byte)} {k left : ℕ}
    {c : BitVec 16}, ls ≠ [] → (∀ l ∈ ls, OneLine l) →
    p.drop (headerBeg + k) = lines ls ++ (crlf ++ t) → (lines ls).length ≤ left →
    countHeadersFrom p headerBeg left k c = .ok (c + BitVec.ofNat 16 ls.length) := by
  intro ls
  induction ls with
  | nil => intro _ _ _ hne; exact absurd rfl hne
  | cons l ls ih =>
      intro k left c _ hall h hle
      have hlen : (lines (l :: ls)).length = l.length + 2 + (lines ls).length := by
        simp [lines, crlf]
        omega
      have h' : p.drop (headerBeg + k) = l ++ (crlf ++ (lines ls ++ (crlf ++ t))) := by
        rw [h]
        simp [lines]
      have hend : p.drop (headerBeg + k + l.length) = crlf ++ (lines ls ++ (crlf ++ t)) :=
        drop_add_length h'
      have hnext : p.drop (headerBeg + k + l.length + 2) = lines ls ++ (crlf ++ t) := drop_add_length hend
      obtain ⟨left, rfl⟩ := Nat.exists_eq_add_of_le (show l.length + 2 ≤ left by omega)
      rw [show l.length + 2 + left = (left + 1 + 1) + l.length by omega,
        countHeadersFrom_skip _ _ (matchesAt_unbroken h' (hall l (by simp)).2), countHeadersFrom,
        ← Nat.add_assoc, matchesAt_of_drop hend]
      rcases ls with _ | ⟨l', ls⟩
      · rw [show matchesAt p (headerBeg + k + l.length + 2) crlf = .ok true from
          matchesAt_of_drop (by simpa [lines] using hnext)]
        rfl
      · have hline : p.drop (headerBeg + k + l.length + 2) =
            l' ++ (crlf ++ (lines ls ++ (crlf ++ t))) := by
          rw [hnext]
          simp [lines]
        have hl' := hall l' (by simp)
        rw [show matchesAt p (headerBeg + k + l.length + 2) crlf = .ok false from
          matchesAt_unbroken hline hl'.2 0 (List.length_pos_iff.mpr hl'.1)]
        have hfeed : p.drop (headerBeg + (k + l.length + 1)) =
            lineFeed :: (lines (l' :: ls) ++ (crlf ++ t)) := by
          rw [← Nat.add_assoc, ← Nat.add_assoc]
          exact drop_succ hend
        show countHeadersFrom p headerBeg (left + 1) (k + l.length + 1) (c + 1) = _
        rw [countHeadersFrom, show matchesAt p _ crlf = .ok false from matchesAt_ne hfeed (by decide)]
        show countHeadersFrom p headerBeg left (k + l.length + 1 + 1) (c + 1) = _
        rw [ih (by simp) (fun l hl => hall l (by simp [hl]))
          (by rw [← hnext]; congr 1; omega) (by omega)]
        congr 1
        rw [List.length_cons, List.length_cons, List.length_cons, BitVec.ofNat_add (ls.length + 1),
          BitVec.add_assoc, BitVec.add_comm 1]
        rfl

lemma countHeadersFrom_ne_zero {headerBeg : ℕ} : ∀ {left k : ℕ} {c n : BitVec 16}, c.toNat + left < 65536 →
    countHeadersFrom p headerBeg left k c = .ok n → n ≠ 0 := by
  intro left
  induction left with
  | zero =>
      intro k c n _ h
      cases h
      decide
  | succ left ih =>
      intro k c n hlt h
      have hsucc : (c + 1).toNat = c.toNat + 1 := by
        rw [BitVec.toNat_add]
        exact Nat.mod_eq_of_lt (by simpa using by omega)
      obtain ⟨b, -, h⟩ := bind_eq_ok.mp h
      split at h
      · obtain ⟨b', -, h⟩ := bind_eq_ok.mp h
        split at h
        · cases h
          intro hzero
          rw [hzero] at hsucc
          exact absurd hsucc (by simp)
        · exact ih (by omega) h
      · exact ih (by omega) h

lemma countHeaders_ne_zero {i m : ℕ} {n : BitVec 16} (hm : m + 1 < 65536)
    (h : countHeaders p i (BitVec.ofNat 16 m) = .ok n) : n ≠ 0 := by
  rw [countHeaders] at h
  split at h
  · cases h
    decide
  · refine countHeadersFrom_ne_zero ?_ h
    rw [toNat_ofNat_of_lt (by omega)]
    simpa using hm

/-! ## Sizes that do not wrap -/

section Sizes

-- How a size is made smaller.
variable (sub : BitVec 16 → ℕ → Except NetFault (BitVec 16))

/-- `readHeader`. -/
def readHeaderWith (p : List Byte) (cpacket : ℕ) (remainingSize : BitVec 16) :
    Except NetFault (Header × ℕ × BitVec 16) := do
  let nameEnd ← findChar p cpacket colon remainingSize
  let headerNameLen ← found nameEnd
  let name ← readBytes p cpacket headerNameLen
  let cpacket := cpacket + headerNameLen + 1
  let remainingSize ← sub remainingSize (headerNameLen + 1)
  let valueEnd ← findChar p cpacket carriageReturn remainingSize
  let headerValueLen ← found valueEnd
  let value ← readValue p cpacket headerNameLen headerValueLen
  let remainingSize ← sub remainingSize (headerValueLen + 2)
  return (⟨cstring name, cstring value⟩, cpacket + headerValueLen + 2, remainingSize)

/-- `readHeaders`. -/
def readHeadersWith (p : List Byte) : ℕ → ℕ → BitVec 16 → Except NetFault (List Header)
  | 0, _, _ => .ok []
  | n + 1, cpacket, remainingSize => do
      let (header, cpacket, remainingSize) ← readHeaderWith sub p cpacket remainingSize
      let headers ← readHeadersWith p n cpacket remainingSize
      return header :: headers

/-- `readResponse`. -/
def readResponseWith (p : List Byte) (packetSize : BitVec 16) : Except NetFault Response := do
  match ← findChar p 0 space packetSize with
  | none => return {}
  | some methodLen =>
      let method ← readBytes p 0 methodLen
      let remainingSize ← sub packetSize (methodLen + 1)
      let cpacket := methodLen + 1
      if remainingSize.toNat + 3 > packetSize.toNat then return { method := .deleted }
      else
        let status ← parseStatusCode p cpacket
        if status = 0 then return { method := .deleted }
        else
          let remainingSize ← sub remainingSize 4
          let cpacket := cpacket + 4
          match ← findChar p cpacket carriageReturn remainingSize with
          | none => return { method := .deleted }
          | some reasonLen =>
              let reason ← readBytes p cpacket reasonLen
              let remainingSize ← sub remainingSize (reasonLen + 2)
              let cpacket := cpacket + reasonLen + 2
              let numHeaders ← countHeaders p cpacket remainingSize
              if numHeaders = -1 then return { method := .deleted, reason := .deleted, numHeaders }
              else
                let headers ← readHeadersWith sub p numHeaders.toNat cpacket remainingSize
                return { method := .text method, status, reason := .text reason, headers, numHeaders }

end Sizes

/-- What the code does: a size that is too small wraps around. -/
def wrapSize (size : BitVec 16) (n : ℕ) : Except NetFault (BitVec 16) := .ok (size - BitVec.ofNat 16 n)

/-- A size that is too small is an error. -/
def subSize (size : BitVec 16) (n : ℕ) : Except NetFault (BitVec 16) :=
  if n ≤ size.toNat then .ok (size - BitVec.ofNat 16 n) else .error .wrapped

lemma readHeader_eq (p : List Byte) : readHeader p = readHeaderWith wrapSize p := rfl

lemma readHeaders_eq (p : List Byte) : readHeaders p = readHeadersWith wrapSize p := by
  funext n
  induction n with
  | zero => rfl
  | succ n ih =>
      funext cpacket remainingSize
      rw [readHeaders, readHeadersWith, ih]
      rfl

lemma readResponse_eq (p : List Byte) : readResponse p = readResponseWith wrapSize p := by
  funext packetSize
  rw [readResponse, readResponseWith, ← readHeaders_eq]
  rfl

lemma wrapSize_of_subSize {size size' : BitVec 16} {n : ℕ} (h : subSize size n = .ok size') :
    wrapSize size n = .ok size' := by
  rw [subSize] at h
  split at h
  · exact h
  · cases h

lemma readHeader_of_checked {cpacket : ℕ} {size : BitVec 16} {r : Header × ℕ × BitVec 16}
    (h : readHeaderWith subSize p cpacket size = .ok r) : readHeader p cpacket size = .ok r := by
  rw [readHeader_eq]
  obtain ⟨nameEnd, hfind, h⟩ := bind_eq_ok.mp h
  obtain ⟨len, hfound, h⟩ := bind_eq_ok.mp h
  obtain ⟨name, hname, h⟩ := bind_eq_ok.mp h
  obtain ⟨size₁, hsub, h⟩ := bind_eq_ok.mp h
  obtain ⟨valueEnd, hfind', h⟩ := bind_eq_ok.mp h
  obtain ⟨len', hfound', h⟩ := bind_eq_ok.mp h
  obtain ⟨value, hvalue, h⟩ := bind_eq_ok.mp h
  obtain ⟨size₂, hsub', h⟩ := bind_eq_ok.mp h
  exact bind_eq_ok.mpr ⟨_, hfind, bind_eq_ok.mpr ⟨_, hfound, bind_eq_ok.mpr ⟨_, hname,
    bind_eq_ok.mpr ⟨_, wrapSize_of_subSize hsub, bind_eq_ok.mpr ⟨_, hfind', bind_eq_ok.mpr ⟨_, hfound',
    bind_eq_ok.mpr ⟨_, hvalue, bind_eq_ok.mpr ⟨_, wrapSize_of_subSize hsub', h⟩⟩⟩⟩⟩⟩⟩⟩

lemma readHeaders_of_checked : ∀ {n cpacket : ℕ} {size : BitVec 16} {hs : List Header},
    readHeadersWith subSize p n cpacket size = .ok hs → readHeaders p n cpacket size = .ok hs := by
  intro n
  induction n with
  | zero => exact fun h => h
  | succ n ih =>
      intro cpacket size hs h
      obtain ⟨r, hheader, h⟩ := bind_eq_ok.mp h
      obtain ⟨hs', hrest, h⟩ := bind_eq_ok.mp h
      exact bind_eq_ok.mpr ⟨r, readHeader_of_checked hheader, bind_eq_ok.mpr ⟨hs', ih hrest, h⟩⟩

lemma readResponse_of_checked {size : BitVec 16} {r : Response} (h : readResponseWith subSize p size = .ok r) :
    readResponse p size = .ok r := by
  obtain ⟨methodLen, hfind, h⟩ := bind_eq_ok.mp h
  refine bind_eq_ok.mpr ⟨methodLen, hfind, ?_⟩
  cases methodLen with
  | none => exact h
  | some methodLen =>
      obtain ⟨method, hmethod, h⟩ := bind_eq_ok.mp h
      obtain ⟨size₁, hsub, h⟩ := bind_eq_ok.mp h
      obtain rfl := Except.ok.inj (wrapSize_of_subSize hsub)
      refine bind_eq_ok.mpr ⟨method, hmethod, ?_⟩
      split at h
      · next hlong => exact (if_pos hlong).trans h
      next hlong =>
      refine (if_neg hlong).trans ?_
      obtain ⟨status, hstatus, h⟩ := bind_eq_ok.mp h
      refine bind_eq_ok.mpr ⟨status, hstatus, ?_⟩
      split at h
      · next hzero => exact (if_pos hzero).trans h
      next hzero =>
      refine (if_neg hzero).trans ?_
      obtain ⟨size₂, hsub₂, h⟩ := bind_eq_ok.mp h
      obtain rfl := Except.ok.inj (wrapSize_of_subSize hsub₂)
      obtain ⟨reasonLen, hfind₂, h⟩ := bind_eq_ok.mp h
      refine bind_eq_ok.mpr ⟨reasonLen, hfind₂, ?_⟩
      cases reasonLen with
      | none => exact h
      | some reasonLen =>
          obtain ⟨reason, hreason, h⟩ := bind_eq_ok.mp h
          obtain ⟨size₃, hsub₃, h⟩ := bind_eq_ok.mp h
          obtain rfl := Except.ok.inj (wrapSize_of_subSize hsub₃)
          obtain ⟨numHeaders, hcount, h⟩ := bind_eq_ok.mp h
          refine bind_eq_ok.mpr ⟨reason, hreason, bind_eq_ok.mpr ⟨numHeaders, hcount, ?_⟩⟩
          split at h
          · next hmax => exact (if_pos hmax).trans h
          next hmax =>
          obtain ⟨headers, hheaders, h⟩ := bind_eq_ok.mp h
          exact (if_neg hmax).trans (bind_eq_ok.mpr ⟨headers, readHeaders_of_checked hheaders, h⟩)

lemma subSize_ofNat {m k : ℕ} (hk : k ≤ m) (hm : m < 65536) :
    subSize (BitVec.ofNat 16 m) k = .ok (BitVec.ofNat 16 (m - k)) := by
  rw [subSize, toNat_ofNat_of_lt hm, if_pos hk, ofNat_sub_ofNat hk hm]

/-! ## Reading a header -/

lemma cstring_eq_self {s : List Byte} : cstring s = s ↔ 0 ∉ s := by
  rw [cstring, List.takeWhile_eq_self_iff]
  constructor
  · intro h hzero
    simpa using h 0 hzero
  · intro h c hc
    simpa using fun hzero : c = 0 => h (hzero ▸ hc)

lemma length_cstring_le (s : List Byte) : (cstring s).length ≤ s.length :=
  (List.takeWhile_prefix _).length_le

/-- Up to its first carriage return. -/
def upToReturn (s : List Byte) : List Byte := s.takeWhile (· != carriageReturn)

lemma upToReturn_eq_self {s : List Byte} : upToReturn s = s ↔ carriageReturn ∉ s := by
  rw [upToReturn, List.takeWhile_eq_self_iff]
  constructor
  · intro h hc
    simpa using h _ hc
  · intro h c hc
    simpa using fun heq : c = carriageReturn => h (heq ▸ hc)

lemma upToReturn_split (s t : List Byte) : ∃ u, s ++ carriageReturn :: t = upToReturn s ++ carriageReturn :: u ∧
    carriageReturn ∉ upToReturn s := by
  induction s with
  | nil => exact ⟨t, rfl, by simp [upToReturn]⟩
  | cons b s ih =>
      by_cases hb : b = carriageReturn
      · subst hb
        exact ⟨s ++ carriageReturn :: t, by simp [upToReturn], by simp [upToReturn]⟩
      · obtain ⟨u, hu, hmem⟩ := ih
        have hcons : upToReturn (b :: s) = b :: upToReturn s := by simp [upToReturn, hb]
        refine ⟨u, by rw [hcons, List.cons_append, hu, List.cons_append], ?_⟩
        rw [hcons, List.mem_cons, not_or]
        exact ⟨Ne.symm hb, hmem⟩

lemma ne_space_cons_cstring (s : List Byte) : s ≠ space :: cstring (upToReturn s) := by
  induction s with
  | nil => simp
  | cons b s ih =>
      intro h
      obtain ⟨rfl, h⟩ := List.cons.inj h
      refine ih (h.trans ?_)
      rw [upToReturn, List.takeWhile_cons_of_pos (by decide), cstring, List.takeWhile_cons_of_pos (by decide)]
      rfl

/-- What is taken for the value of a header, where no carriage return is in it. -/
def valueRead (nameLen : ℕ) (s : List Byte) : List Byte :=
  if nameLen ≠ 0 ∧ s.head? = some space then s.tail else s

lemma readValue_of_drop {i n : ℕ} {s t : List Byte} (hdrop : p.drop i = s ++ carriageReturn :: t) :
    readValue p i n s.length = .ok (valueRead n s) := by
  rw [readValue, valueRead]
  by_cases hn : n = 0
  · rw [if_pos hn, if_neg (by simp [hn])]
    exact readBytes_of_drop hdrop (by simp)
  rw [if_neg hn]
  rcases s with _ | ⟨b, s⟩
  · rw [matchesAt_ne hdrop (by decide)]
    exact (readBytes_of_drop (a := []) hdrop (by simp)).trans (by simp)
  by_cases hb : b = space
  · subst hb
    rw [matchesAt_of_drop (show p.drop i = [space] ++ _ from hdrop), if_pos ⟨hn, rfl⟩]
    exact readBytes_of_drop (drop_succ hdrop) (by simp)
  · rw [matchesAt_ne hdrop hb, if_neg (by simp [hb])]
    exact readBytes_of_drop hdrop (by simp)

/-- The bytes of a header are all in its name and its value. -/
structure HeaderLine.Fine (h : HeaderLine) : Prop where
  name_null : 0 ∉ h.name
  raw_null : 0 ∉ h.raw
  raw_end : carriageReturn ∉ h.raw
  name_space : h.name = [] → h.raw.head? ≠ some space

variable {h : HeaderLine}

lemma readHeader_of_drop (hcolon : colon ∉ h.name) {i m : ℕ} {t : List Byte}
    (hdrop : p.drop i = h.line ++ (crlf ++ t)) (hm : h.line.length + 2 ≤ m) (hlt : m < 65536) :
    readHeaderWith subSize p i (BitVec.ofNat 16 m) =
      .ok (⟨cstring h.name, cstring (valueRead h.name.length (upToReturn h.raw))⟩,
        i + h.name.length + 1 + (upToReturn h.raw).length + 2,
        BitVec.ofNat 16 (m - (h.name.length + 1) - ((upToReturn h.raw).length + 2))) := by
  have hlen : h.line.length = h.name.length + 1 + h.raw.length := by
    simp [HeaderLine.line]
    omega
  have hle : (upToReturn h.raw).length ≤ h.raw.length := (List.takeWhile_prefix _).length_le
  have hname : p.drop i = h.name ++ colon :: (h.raw ++ carriageReturn :: lineFeed :: t) := by
    rw [hdrop]
    simp [HeaderLine.line, crlf]
  obtain ⟨u, hu, hend⟩ := upToReturn_split h.raw (lineFeed :: t)
  have hraw : p.drop (i + h.name.length + 1) = upToReturn h.raw ++ carriageReturn :: u :=
    hu ▸ drop_succ (drop_add_length hname)
  have hfind : findChar p i colon (BitVec.ofNat 16 m) = .ok (some h.name.length) :=
    findChar_of_drop hname hcolon (by rw [toNat_ofNat_of_lt hlt]; omega)
  have hfind' : findChar p (i + h.name.length + 1) carriageReturn
      (BitVec.ofNat 16 (m - (h.name.length + 1))) = .ok (some (upToReturn h.raw).length) :=
    findChar_of_drop hraw hend (by rw [toNat_ofNat_of_lt (by omega)]; omega)
  exact bind_eq_ok.mpr ⟨_, hfind, bind_eq_ok.mpr ⟨_, rfl, bind_eq_ok.mpr ⟨_,
    readBytes_of_drop hname (by simp), bind_eq_ok.mpr ⟨_, subSize_ofNat (by omega) hlt,
    bind_eq_ok.mpr ⟨_, hfind', bind_eq_ok.mpr ⟨_, rfl, bind_eq_ok.mpr ⟨_, readValue_of_drop hraw,
    bind_eq_ok.mpr ⟨_, subSize_ofNat (by omega) (by omega), rfl⟩⟩⟩⟩⟩⟩⟩⟩

lemma cstring_upToReturn_eq_self {s : List Byte} : cstring (upToReturn s) = s ↔ 0 ∉ s ∧ carriageReturn ∉ s := by
  constructor
  · intro hs
    have hle := length_cstring_le (upToReturn s)
    rw [hs] at hle
    have hwhole : upToReturn s = s := (List.takeWhile_prefix _).eq_of_length_le hle
    rw [hwhole] at hs
    exact ⟨cstring_eq_self.mp hs, upToReturn_eq_self.mp hwhole⟩
  · rintro ⟨hnull, hend⟩
    rw [upToReturn_eq_self.mpr hend, cstring_eq_self.mpr hnull]

lemma value_read_iff {n : ℕ} {s : List Byte} : cstring (valueRead n (upToReturn s)) =
      (if s.head? = some space then s.tail else s) ↔
    0 ∉ s ∧ carriageReturn ∉ s ∧ (n = 0 → s.head? ≠ some space) := by
  rcases s with _ | ⟨b, s⟩
  · simp [upToReturn, valueRead, cstring]
  by_cases hb : b = space
  · subst hb
    have hcons : upToReturn (space :: s) = space :: upToReturn s :=
      List.takeWhile_cons_of_pos (by decide)
    rw [hcons, List.head?_cons, if_pos rfl, List.tail_cons, valueRead]
    by_cases hn : n = 0
    · rw [if_neg (by simp [hn])]
      have hne : cstring (space :: upToReturn s) ≠ s := by
        rw [cstring, List.takeWhile_cons_of_pos (by decide)]
        exact (ne_space_cons_cstring s).symm
      simp [hn, hne]
    · rw [if_pos ⟨hn, rfl⟩, List.tail_cons, cstring_upToReturn_eq_self]
      simp [hn, space, carriageReturn]
  · have hhead : (upToReturn (b :: s)).head? ≠ some space := by
      intro hhead
      have hmem := List.mem_of_mem_head? hhead
      rw [upToReturn, List.takeWhile_cons] at hhead
      split at hhead
      · exact hb (Option.some.inj hhead)
      · cases hhead
    rw [valueRead, if_neg (fun h => hhead h.2), if_neg (by simpa using hb), cstring_upToReturn_eq_self]
    simp [hb]

lemma header_read_iff : (⟨cstring h.name, cstring (valueRead h.name.length (upToReturn h.raw))⟩ : Header) =
    h.header ↔ h.Fine := by
  rw [HeaderLine.header, Header.mk.injEq, cstring_eq_self, HeaderLine.value, value_read_iff,
    List.length_eq_zero_iff]
  constructor
  · rintro ⟨hname, hnull, hend, hspace⟩
    exact ⟨hname, hnull, hend, hspace⟩
  · intro hf
    exact ⟨hf.name_null, hf.raw_null, hf.raw_end, hf.name_space⟩

lemma HeaderLine.Fine.readHeader (hf : h.Fine) (hcolon : colon ∉ h.name) {i m : ℕ} {t : List Byte}
    (hdrop : p.drop i = h.line ++ (crlf ++ t)) (hm : h.line.length + 2 ≤ m) (hlt : m < 65536) :
    readHeaderWith subSize p i (BitVec.ofNat 16 m) =
      .ok (h.header, i + h.line.length + 2, BitVec.ofNat 16 (m - (h.line.length + 2))) := by
  have hlen : h.line.length = h.name.length + 1 + h.raw.length := by
    simp [HeaderLine.line]
    omega
  rw [readHeader_of_drop hcolon hdrop hm hlt, header_read_iff.mpr hf, upToReturn_eq_self.mpr hf.raw_end, hlen]
  congr 3
  · omega
  · congr 1
    omega

lemma readHeaders_iff {t : List Byte} : ∀ {hs : List HeaderLine} {i m : ℕ},
    (∀ h ∈ hs, colon ∉ h.name) → p.drop i = lines (hs.map HeaderLine.line) ++ t →
    (lines (hs.map HeaderLine.line)).length ≤ m → m < 65536 →
    (readHeadersWith subSize p hs.length i (BitVec.ofNat 16 m) = .ok (hs.map HeaderLine.header) ↔
      ∀ h ∈ hs, h.Fine) := by
  intro hs
  induction hs with
  | nil => simp [readHeadersWith]
  | cons h hs ih =>
      intro i m hall hdrop hm hlt
      have hlen : (lines ((h :: hs).map HeaderLine.line)).length =
          h.line.length + 2 + (lines (hs.map HeaderLine.line)).length := by
        simp [lines, crlf]
        omega
      have hline : p.drop i = h.line ++ (crlf ++ (lines (hs.map HeaderLine.line) ++ t)) := by
        rw [hdrop]
        simp [lines]
      have hrest : p.drop (i + h.line.length + 2) = lines (hs.map HeaderLine.line) ++ t :=
        drop_add_length (a := crlf) (drop_add_length hline)
      have hcolon := hall h (by simp)
      have hnext := ih (fun h hh => hall h (by simp [hh])) hrest (m := m - (h.line.length + 2)) (by omega)
        (by omega)
      rw [List.length_cons, readHeadersWith, List.map_cons, List.forall_mem_cons, ← hnext]
      constructor
      · intro hrun
        obtain ⟨⟨header, i', size⟩, hheader, hrun⟩ := bind_eq_ok.mp hrun
        obtain ⟨headers, hheaders, hend⟩ := bind_eq_ok.mp hrun
        obtain ⟨hfirst, hothers⟩ := List.cons.inj (Except.ok.inj hend)
        have hread := hheader.symm.trans (readHeader_of_drop hcolon hline (by omega) hlt)
        have hf : h.Fine := by
          rw [← header_read_iff, ← hfirst]
          exact (Prod.mk.inj (Except.ok.inj hread)).1.symm
        refine ⟨hf, ?_⟩
        have hwhere := hheader.symm.trans (hf.readHeader hcolon hline (by omega) hlt)
        obtain ⟨-, hwhere⟩ := Prod.mk.inj (Except.ok.inj hwhere)
        obtain ⟨rfl, rfl⟩ := Prod.mk.inj hwhere
        rw [hheaders, hothers]
      · rintro ⟨hf, hheaders⟩
        exact bind_eq_ok.mpr ⟨_, hf.readHeader hcolon hline (by omega) hlt,
          bind_eq_ok.mpr ⟨_, hheaders, rfl⟩⟩

/-! ## Responses, taken apart -/

/-- The parts of a response: the bytes behind the status code and behind the carriage return that ends the
reason are whatever they are. -/
structure ResponseParts where
  method : List Byte
  digit₁ : Byte
  digit₂ : Byte
  digit₃ : Byte
  afterCode : Byte
  reason : List Byte
  afterReason : Byte
  headers : List HeaderLine
  rest : List Byte
  deriving DecidableEq, Repr

namespace ResponseParts

/-- The lines of the headers, an empty line and what follows. -/
def region (r : ResponseParts) : List Byte := lines (r.headers.map HeaderLine.line) ++ (crlf ++ r.rest)

def text (r : ResponseParts) : List Byte :=
  r.method ++ space :: r.digit₁ :: r.digit₂ :: r.digit₃ :: r.afterCode ::
    (r.reason ++ carriageReturn :: r.afterReason :: r.region)

/-- The number that the status code writes, and 0 if it is none. -/
def status (r : ResponseParts) : ℕ :=
  if isDigit r.digit₁ && isDigit r.digit₂ && isDigit r.digit₃ then
    digit r.digit₁ * 100 + digit r.digit₂ * 10 + digit r.digit₃ else 0

/-- The parts are where they are said to be: the method ends with the first space, the reason with the first
carriage return, a line with the first end of a line, and a name with the first colon. -/
structure Divided (r : ResponseParts) : Prop where
  method_space : space ∉ r.method
  reason_end : carriageReturn ∉ r.reason
  headers_line : ∀ h ∈ r.headers, Unbroken h.line
  headers_colon : ∀ h ∈ r.headers, colon ∉ h.name

/-- A response that the constructor can take apart. -/
structure Readable (r : ResponseParts) : Prop extends r.Divided where
  method_length : 2 ≤ r.method.length
  status_ne : r.status ≠ 0
  headers_ne : r.headers ≠ []
  headers_fine : ∀ h ∈ r.headers, h.Fine

variable {r : ResponseParts}

lemma parseStatusCode_of_drop {i : ℕ} {t : List Byte} (h : p.drop i = r.digit₁ :: r.digit₂ :: r.digit₃ :: t) :
    parseStatusCode p i = .ok r.status := by
  have h₁ := readByte_of_drop h
  have h₂ := readByte_of_drop (drop_succ h)
  have h₃ := readByte_of_drop (drop_succ (drop_succ h))
  simp only [parseStatusCode, status]
  rw [h₁]
  by_cases hd₁ : isDigit r.digit₁ = true
  · by_cases hd₂ : isDigit r.digit₂ = true
    · by_cases hd₃ : isDigit r.digit₃ = true
      · simp [hd₁, hd₂, hd₃, bind, Except.bind, h₂, h₃, pure, Except.pure]
      · simp [hd₁, hd₂, hd₃, bind, Except.bind, h₂, h₃, pure, Except.pure]
    · simp [hd₁, hd₂, bind, Except.bind, h₂, pure, Except.pure]
  · simp [hd₁, bind, Except.bind, pure, Except.pure]

/-- Where the lines of the headers begin. -/
def start (r : ResponseParts) : ℕ := r.method.length + 1 + 4 + r.reason.length + 2

lemma length_text (r : ResponseParts) : r.text.length = r.start + r.region.length := by
  simp [text, start]
  omega

lemma Divided.readResponse (hr : r.Divided) (hlt : r.text.length < 65536) :
    readResponseWith subSize r.text (BitVec.ofNat 16 r.text.length) =
      if r.method.length < 2 ∨ r.status = 0 then .ok { method := .deleted }
      else do
        let numHeaders ← countHeaders r.text r.start (BitVec.ofNat 16 r.region.length)
        if numHeaders = -1 then return { method := .deleted, reason := .deleted, numHeaders }
        else
          let headers ← readHeadersWith subSize r.text numHeaders.toNat r.start
            (BitVec.ofNat 16 r.region.length)
          return { method := .text r.method, status := r.status, reason := .text r.reason, headers,
                   numHeaders } := by
  have hlen := r.length_text
  have hmethod : r.text.drop 0 = r.method ++ space :: r.digit₁ :: r.digit₂ :: r.digit₃ :: r.afterCode ::
    (r.reason ++ carriageReturn :: r.afterReason :: r.region) := rfl
  generalize r.text = p at hlt hlen hmethod ⊢
  rw [start] at hlen ⊢
  have hstatus := drop_succ (drop_add_length hmethod)
  rw [Nat.zero_add] at hstatus
  have hreason : p.drop (r.method.length + 1 + 4) = r.reason ++ carriageReturn :: r.afterReason :: r.region :=
    drop_succ (drop_succ (drop_succ (drop_succ hstatus)))
  have hfind : findChar p 0 space (BitVec.ofNat 16 p.length) = .ok (some r.method.length) :=
    findChar_of_drop hmethod hr.method_space (by rw [toNat_ofNat_of_lt hlt]; omega)
  have hfind' : findChar p (r.method.length + 1 + 4) carriageReturn
      (BitVec.ofNat 16 (p.length - (r.method.length + 1) - 4)) = .ok (some r.reason.length) :=
    findChar_of_drop hreason hr.reason_end (by rw [toNat_ofNat_of_lt (by omega)]; omega)
  have hregion : p.length - (r.method.length + 1) - 4 - (r.reason.length + 2) = r.region.length := by omega
  simp only [readResponseWith, hfind, hfind', readBytes_of_drop hmethod (List.cons_ne_nil _ _),
    readBytes_of_drop hreason (List.cons_ne_nil _ _), parseStatusCode_of_drop hstatus,
    subSize_ofNat (show r.method.length + 1 ≤ p.length by omega) hlt,
    subSize_ofNat (show 4 ≤ p.length - (r.method.length + 1) by omega) (by omega),
    subSize_ofNat (show r.reason.length + 2 ≤ p.length - (r.method.length + 1) - 4 by omega) (by omega),
    hregion, bind, Except.bind]
  rw [toNat_ofNat_of_lt (by omega), toNat_ofNat_of_lt hlt]
  by_cases hshort : r.method.length < 2
  · rw [if_pos (by omega), if_pos (Or.inl hshort)]
    rfl
  rw [if_neg (by omega)]
  by_cases hzero : r.status = 0
  · rw [if_pos hzero, if_pos (Or.inr hzero)]
    rfl
  rw [if_neg hzero, if_neg (by simp only [hshort, hzero]; simp)]

lemma Divided.oneLine (hr : r.Divided) : ∀ l ∈ r.headers.map HeaderLine.line, OneLine l := by
  intro l hl
  obtain ⟨h, hh, rfl⟩ := List.mem_map.mp hl
  exact ⟨by simp [HeaderLine.line], hr.headers_line h hh⟩

lemma three_mul_le_lines : ∀ {ls : List (List Byte)}, (∀ l ∈ ls, OneLine l) →
    3 * ls.length ≤ (lines ls).length := by
  intro ls
  induction ls with
  | nil => simp [lines]
  | cons l ls ih =>
      intro h
      have hrest := ih fun l hl => h l (by simp [hl])
      have hpos := List.length_pos_iff.mpr (h l (by simp)).1
      rw [show lines (l :: ls) = l ++ (crlf ++ lines ls) by simp [lines]]
      simp only [List.length_append, crlf, List.length_cons, List.length_nil]
      omega

lemma drop_start (r : ResponseParts) : r.text.drop r.start = r.region := by
  have hsplit : r.text = (r.method ++ space :: r.digit₁ :: r.digit₂ :: r.digit₃ :: r.afterCode ::
      (r.reason ++ [carriageReturn, r.afterReason])) ++ r.region := by simp [text]
  have hlen : (r.method ++ space :: r.digit₁ :: r.digit₂ :: r.digit₃ :: r.afterCode ::
      (r.reason ++ [carriageReturn, r.afterReason])).length = r.start := by
    simp [start]
    omega
  rw [hsplit, ← hlen, List.drop_left]

lemma Divided.countHeaders (hr : r.Divided) (hne : r.headers ≠ []) (hlt : r.region.length < 65536) :
    HTTP.countHeaders r.text r.start (BitVec.ofNat 16 r.region.length) =
      .ok (BitVec.ofNat 16 r.headers.length) ∧ 3 * r.headers.length + 2 ≤ r.region.length := by
  have hle := three_mul_le_lines hr.oneLine
  have hpos := List.length_pos_iff.mpr hne
  have hlen : r.region.length = (lines (r.headers.map HeaderLine.line)).length + 2 + r.rest.length := by
    simp [region, crlf]
    omega
  rw [List.length_map] at hle
  rw [HTTP.countHeaders, toNat_ofNat_of_lt hlt, if_neg (by omega),
    countHeadersFrom_lines (p := r.text) (k := 0) (t := r.rest) (by simpa using hne) hr.oneLine
      (by rw [Nat.add_zero, drop_start]; rfl) (by omega)]
  exact ⟨by simp, by omega⟩

/-- What is made of a response. -/
def response (r : ResponseParts) : Response :=
  { method := .text r.method
    status := r.status
    reason := .text r.reason
    headers := r.headers.map HeaderLine.header
    numHeaders := BitVec.ofNat 16 r.headers.length }

lemma Readable.readResponse (hr : r.Readable) (hlt : r.text.length < 65536) :
    readResponseWith subSize r.text (BitVec.ofNat 16 r.text.length) = .ok r.response := by
  have hlen := r.length_text
  obtain ⟨hcount, hle⟩ := hr.countHeaders hr.headers_ne (by omega)
  have hsize : (BitVec.ofNat 16 r.headers.length).toNat = r.headers.length :=
    toNat_ofNat_of_lt (by omega)
  have hmethod := hr.method_length
  rw [hr.toDivided.readResponse hlt, if_neg (by rintro (h | h); exacts [by omega, hr.status_ne h])]
  refine bind_eq_ok.mpr ⟨_, hcount, (if_neg ?_).trans (bind_eq_ok.mpr ⟨_, ?_, rfl⟩)⟩
  · intro hmax
    rw [hmax] at hsize
    exact absurd hsize (by rw [show (-1 : BitVec 16).toNat = 65535 from rfl]; omega)
  · rw [hsize]
    refine (readHeaders_iff hr.headers_colon (t := crlf ++ r.rest) r.drop_start ?_ (by omega)).mpr
      hr.headers_fine
    rw [region, List.length_append]
    omega

end ResponseParts

/-! ## The constructor -/

/-- The constructor comes to its end, without a read outside the packet and without a size that wraps around;
it leaves no pointer to what was deleted; and the status is 0, or the headers are those of the lines. -/
def ResponseRight (p : List Byte) : Prop :=
  ∃ r, readResponse p (BitVec.ofNat 16 p.length) = .ok r ∧
    readResponseWith subSize p (BitVec.ofNat 16 p.length) = .ok r ∧
    r.method ≠ .deleted ∧ r.reason ≠ .deleted ∧
    (r.status = 0 ∨ ∃ parts : ResponseParts, parts.Divided ∧ p = parts.text ∧
      r.headers = parts.headers.map HeaderLine.header ∧ r.numHeaders.toNat = parts.headers.length)

lemma search_none {test : ℕ → Except NetFault Bool} : ∀ {left k : ℕ}, search test left k = .ok none →
    ∀ j < left, test (k + j) = .ok false := by
  intro left
  induction left with
  | zero => intro _ _ j hj; omega
  | succ left ih =>
      intro k h j hj
      obtain ⟨b, htest, h⟩ := bind_eq_ok.mp h
      split at h
      · cases h
      next hb =>
      cases j with
      | zero => rw [Nat.add_zero, htest, Bool.eq_false_iff.mpr hb]
      | succ j =>
          rw [Nat.add_succ, ← Nat.succ_add]
          exact ih h j (by omega)

lemma findChar_ne_none {c : Byte} (hlt : p.length < 65536) :
    findChar p 0 c (BitVec.ofNat 16 p.length) ≠ .ok none := by
  intro h
  have hlast := search_none h p.length (by rw [toNat_ofNat_of_lt hlt]; omega)
  have hread : readByte p p.length = .error .outOfBounds := by
    rw [readByte, List.getElem?_eq_none le_rfl]
  rw [Nat.zero_add, Nat.zero_add, matchesAt, hread] at hlast
  cases hlast

lemma method_deleted {r : Response} (hlt : p.length < 65536)
    (h : readResponseWith subSize p (BitVec.ofNat 16 p.length) = .ok r) (hzero : r.status = 0) :
    r.method = .deleted := by
  obtain ⟨methodLen, hfind, h⟩ := bind_eq_ok.mp h
  cases methodLen with
  | none => exact absurd hfind (findChar_ne_none hlt)
  | some methodLen =>
      obtain ⟨method, -, h⟩ := bind_eq_ok.mp h
      obtain ⟨size₁, -, h⟩ := bind_eq_ok.mp h
      split at h
      · cases h
        rfl
      obtain ⟨status, -, h⟩ := bind_eq_ok.mp h
      split at h
      · cases h
        rfl
      next hstatus =>
      obtain ⟨size₂, -, h⟩ := bind_eq_ok.mp h
      obtain ⟨reasonLen, -, h⟩ := bind_eq_ok.mp h
      cases reasonLen with
      | none =>
          cases h
          rfl
      | some reasonLen =>
          obtain ⟨reason, -, h⟩ := bind_eq_ok.mp h
          obtain ⟨size₃, -, h⟩ := bind_eq_ok.mp h
          obtain ⟨numHeaders, -, h⟩ := bind_eq_ok.mp h
          split at h
          · cases h
            rfl
          obtain ⟨headers, -, h⟩ := bind_eq_ok.mp h
          cases h
          exact absurd hzero hstatus

/-- **The constructor does what it should exactly on readable responses.** -/
theorem response_right_iff (hlt : p.length < 65536) :
    ResponseRight p ↔ ∃ parts : ResponseParts, parts.Readable ∧ p = parts.text := by
  constructor
  · rintro ⟨r, -, hrun, hmethod, -, hzero | ⟨parts, hdivided, rfl, hheaders, hnum⟩⟩
    · exact absurd (method_deleted hlt hrun hzero) hmethod
    · have hlen := parts.length_text
      rw [hdivided.readResponse hlt] at hrun
      split at hrun
      · cases hrun
        exact absurd rfl hmethod
      next hlong =>
      rw [not_or] at hlong
      obtain ⟨n, hcount, hrun⟩ := bind_eq_ok.mp hrun
      split at hrun
      · cases hrun
        exact absurd rfl hmethod
      next hmax =>
      obtain ⟨headers, hread, hend⟩ := bind_eq_ok.mp hrun
      cases hend
      have hne : parts.headers ≠ [] := by
        intro hnil
        rw [hnil] at hnum
        refine countHeaders_ne_zero ?_ hcount (BitVec.eq_of_toNat_eq hnum)
        rw [ResponseParts.start] at hlen
        omega
      have hle := (hdivided.countHeaders hne (by omega)).2
      refine ⟨parts, ⟨hdivided, by omega, hlong.2, hne, ?_⟩, rfl⟩
      simp only at hheaders hnum
      rw [hnum, hheaders] at hread
      refine (readHeaders_iff (t := crlf ++ parts.rest) hdivided.headers_colon parts.drop_start ?_
        (by omega)).mp hread
      rw [ResponseParts.region, List.length_append]
      omega
  · rintro ⟨parts, hreadable, rfl⟩
    have hrun := hreadable.readResponse hlt
    have hlen := parts.length_text
    have hle := (hreadable.countHeaders hreadable.headers_ne (by omega)).2
    exact ⟨_, readResponse_of_checked hrun, hrun, by simp [ResponseParts.response],
      by simp [ResponseParts.response], Or.inr ⟨parts, hreadable.toDivided, rfl, rfl,
        toNat_ofNat_of_lt (by omega)⟩⟩

/-- A response with one header. -/
def oneHeader : ResponseParts where
  method := [72, 84, 84, 80]
  digit₁ := 50
  digit₂ := 48
  digit₃ := 48
  afterCode := space
  reason := [79, 75]
  afterReason := lineFeed
  headers := [⟨[65], [32, 98]⟩]
  rest := []

theorem response_right_oneHeader : ResponseRight oneHeader.text := by
  refine (response_right_iff (by decide)).mpr ⟨oneHeader, ⟨⟨by decide, by decide, ?_, by decide⟩, by decide,
    by decide, by decide, ?_⟩, rfl⟩
  · intro h hh
    obtain rfl := List.mem_singleton.mp hh
    show ¬ crlf <:+: _
    decide
  · intro h hh
    obtain rfl := List.mem_singleton.mp hh
    exact ⟨by decide, by decide, by decide, by decide⟩

/-- A packet without a space is read on behind its end; and where there is no status code, the method is
deleted and still pointed to. -/
theorem response_not_right : ¬ ResponseRight [72] ∧ ¬ ResponseRight [72, 84, space, 120] := by
  constructor
  · rintro ⟨r, hrun, -⟩
    cases hrun
  · rintro ⟨r, hrun, -, hmethod, -⟩
    cases hrun
    exact hmethod rfl

end HTTP

end BrebOS

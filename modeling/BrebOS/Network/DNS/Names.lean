import BrebOS.Network.DNS

/-!
# Reading names

A name in a packet is a tree of labels and pointers.  `parse_name_aux` follows it with one buffer for each
run of labels, which starts with five bytes and is doubled, once, when the next label does not fit.  So a
name is read exactly when each label, and each name behind a pointer, fits in twice the buffer that holds
what comes before it.

What is behind a pointer is measured by `strlen` and the length kept in a byte.
-/

namespace BrebOS

namespace DNS

/-- How a name stands in a packet. -/
inductive Encoding
  | stop
  | label (bytes : List Byte) (rest : Encoding)
  | pointer (target : Encoding)
  deriving DecidableEq, Repr

/-- The size of the buffer when `size` bytes of it are used. -/
def capacityFor (size : ℕ) : ℕ := 5 * 2 ^ Nat.clog 2 ((size + 4) / 5)

namespace Encoding

/-- The encoding stands at a place of the packet.  Behind a label, the byte after a pointer is looked at
too. -/
def At (p : List Byte) : Encoding → Bool → ℕ → Prop
  | .stop, _, i => p[i]? = some 0
  | .label bytes rest, _, i => ∃ c, p[i]? = some c ∧ c ≠ 0 ∧ isPointer c = false ∧
      readBytes p (i + 1) c.toNat = .ok bytes ∧ rest.At p true (i + c.toNat + 1)
  | .pointer target, inner, i => ∃ c j, p[i]? = some c ∧ isPointer c ∧ pointerTarget p i = .ok j ∧
      (inner → i + 2 < p.length) ∧ target.At p false j

/-- The characters that `parse_name_aux` puts in its buffer, with the dot after the last label. -/
def text : Encoding → Bool → List Byte
  | .stop, _ => []
  | .label bytes rest, _ => bytes ++ dot :: rest.text true
  | .pointer target, false => target.text false
  | .pointer target, true =>
      let sub := cstring (target.text false).dropLast
      sub.take (sub.length % 256) ++ [dot]

/-- The name that is read. -/
def name (e : Encoding) : List Byte := (e.text false).dropLast

/-- The length that is kept of what is behind a pointer. -/
def len (e : Encoding) : ℕ := (cstring e.name).length % 256

/-- Each piece fits in twice the buffer for what comes before it, and the name is not empty. -/
def Fits : Encoding → ℕ → Prop
  | .stop, size => 0 < size
  | .label bytes rest, size => size + bytes.length + 1 ≤ 2 * capacityFor size ∧
      rest.Fits (size + bytes.length + 1)
  | .pointer target, 0 => target.Fits 0
  | .pointer target, size + 1 => target.Fits 0 ∧ size + 1 + target.len + 1 ≤ 2 * capacityFor (size + 1)

end Encoding

/-! ## The buffer -/

lemma capacityFor_zero : capacityFor 0 = 5 := by decide

lemma le_capacityFor (size : ℕ) : size ≤ capacityFor size := by
  have := Nat.le_pow_clog (b := 2) (by norm_num) ((size + 4) / 5)
  rw [capacityFor]
  omega

lemma capacityFor_of_le (size size' : ℕ) (hle : size ≤ size') (hfits : size' ≤ capacityFor size) :
    capacityFor size' = capacityFor size := by
  have hmono : Nat.clog 2 ((size + 4) / 5) ≤ Nat.clog 2 ((size' + 4) / 5) :=
    Nat.clog_mono_right 2 (by omega)
  simp only [capacityFor] at hfits ⊢
  have hle : Nat.clog 2 ((size' + 4) / 5) ≤ Nat.clog 2 ((size + 4) / 5) := by
    rw [Nat.clog_le_iff_le_pow (by norm_num)]
    omega
  rw [Nat.le_antisymm hle hmono]

lemma capacityFor_of_gt (size size' : ℕ) (hgt : capacityFor size < size')
    (hfits : size' ≤ 2 * capacityFor size) : capacityFor size' = 2 * capacityFor size := by
  simp only [capacityFor] at hgt hfits ⊢
  generalize Nat.clog 2 ((size + 4) / 5) = k at hgt hfits ⊢
  have hlt : k < Nat.clog 2 ((size' + 4) / 5) := by
    rw [Nat.lt_clog_iff_pow_lt (by norm_num)]
    omega
  have hle : Nat.clog 2 ((size' + 4) / 5) ≤ k + 1 := by
    rw [Nat.clog_le_iff_le_pow (by norm_num), pow_succ]
    omega
  rw [Nat.le_antisymm hle hlt, pow_succ]
  ring

lemma growName_length (junk : ℕ → Byte) (res : List Byte) (size l : ℕ) (hres : size ≤ res.length) :
    (growName junk res size l).length =
      if size + l + 1 > res.length then 2 * res.length else res.length := by
  rw [growName]
  split
  · simp [newChars]
    omega
  · rfl

lemma growName_take (junk : ℕ → Byte) (res : List Byte) (size l : ℕ) (hres : size ≤ res.length) :
    (growName junk res size l).take size = res.take size := by
  rw [growName]
  split
  · rw [List.take_append_of_le_length (by simp; omega), List.take_take, Nat.min_self]
  · rfl

lemma putLabel_eq_ok {junk : ℕ → Byte} {res : List Byte} {size : ℕ} (sub : List Byte)
    (hres : res.length = capacityFor size) :
    (∃ r, putLabel junk res size sub = .ok r) ↔ size + sub.length + 1 ≤ 2 * capacityFor size := by
  have hle := le_capacityFor size
  have hgrow := growName_length junk res size sub.length (by omega)
  simp only [putLabel, bind_eq_ok, writeBytes_eq_ok, writeByte_eq_ok]
  generalize growName junk res size sub.length = buf at hgrow ⊢
  constructor
  · rintro ⟨r, res', ⟨hlen, rfl⟩, hlt, -⟩
    simp only [List.length_append, List.length_take, List.length_drop] at hlt
    split at hgrow <;> omega
  · intro hfits
    refine ⟨_, _, ⟨?_, rfl⟩, ?_, rfl⟩
    · split at hgrow <;> omega
    · simp only [List.length_append, List.length_take, List.length_drop]
      split at hgrow <;> omega

lemma putLabel_spec {junk : ℕ → Byte} {res sub r : List Byte} {size : ℕ}
    (hres : res.length = capacityFor size) (hr : putLabel junk res size sub = .ok r) :
    r.length = capacityFor (size + sub.length + 1) ∧
      r.take (size + sub.length + 1) = res.take size ++ (sub ++ [dot]) := by
  have hfits := (putLabel_eq_ok sub hres).mp ⟨r, hr⟩
  have hle := le_capacityFor size
  have hgrow := growName_length junk res size sub.length (by omega)
  have htake := growName_take junk res size sub.length (by omega)
  simp only [putLabel, bind_eq_ok, writeBytes_eq_ok, writeByte_eq_ok] at hr
  obtain ⟨res', ⟨hlen, rfl⟩, hlt, rfl⟩ := hr
  generalize growName junk res size sub.length = buf at hgrow htake hlen hlt ⊢
  simp only [List.length_append, List.length_take, List.length_drop] at hlt
  obtain ⟨d, rest, hdrop⟩ : ∃ d rest, buf.drop (size + sub.length) = d :: rest :=
    List.exists_cons_of_length_pos (by rw [List.length_drop]; omega)
  have hprefix : (buf.take size ++ sub).length = size + sub.length := by
    rw [List.length_append, List.length_take]
    omega
  have hset : (buf.take size ++ sub ++ buf.drop (size + sub.length)).set (size + sub.length) dot =
      res.take size ++ (sub ++ [dot]) ++ rest := by
    rw [hdrop, List.set_append_right _ _ (by omega), hprefix, Nat.sub_self, htake]
    simp
  rw [hset]
  constructor
  · have hlength := congrArg List.length hdrop
    have hsize : (res.take size).length = size := by
      rw [List.length_take]
      omega
    rw [List.length_drop, List.length_cons] at hlength
    simp only [List.length_append, List.length_singleton, hsize]
    split at hgrow
    · rw [capacityFor_of_gt size _ (by omega) hfits]
      omega
    · rw [capacityFor_of_le size _ (by omega) (by omega)]
      omega
  · refine List.take_left' ?_
    simp only [List.length_append, List.length_take, List.length_singleton]
    omega

lemma endName_eq_ok {res r : List Byte} {size : ℕ} (hres : size ≤ res.length) :
    endName res size = .ok r ↔ 0 < size ∧ (res.take size).dropLast ++ 0 :: res.drop size = r := by
  rw [endName]
  rcases size with _ | size
  · simp
  · rw [if_neg (by omega), writeByte_eq_ok]
    have hset : res.set size 0 = (res.take (size + 1)).dropLast ++ 0 :: res.drop (size + 1) := by
      have hlast : (res.take (size + 1)).dropLast = res.take size := by
        rw [List.dropLast_eq_take, List.length_take, List.take_take]
        congr 1
        omega
      rw [List.set_eq_take_append_cons_drop, if_pos (by omega), hlast]
    simp only [Nat.add_sub_cancel, hset, Nat.succ_pos, true_and, and_iff_right_iff_imp]
    intro _
    omega

/-! ## Names are read -/

/-- A buffer that holds a string. -/
def Holds (buf s : List Byte) : Prop := ∃ tail, buf = s ++ 0 :: tail

lemma Holds.cstring {buf s : List Byte} (h : Holds buf s) : BrebOS.cstring buf = BrebOS.cstring s := by
  obtain ⟨tail, rfl⟩ := h
  rw [BrebOS.cstring, BrebOS.cstring]
  induction s with
  | nil => simp
  | cons c s ih => simp only [List.cons_append, List.takeWhile_cons, ih]

lemma Holds.strlen {buf s : List Byte} (h : Holds buf s) :
    strlenAt buf 0 = .ok (BrebOS.cstring s).length := by
  obtain ⟨tail, rfl⟩ := h
  have hidx : (s ++ 0 :: tail).findIdx? (· == 0) = some (BrebOS.cstring s).length := by
    induction s with
    | nil => simp [BrebOS.cstring, List.findIdx?_cons]
    | cons c s ih =>
        by_cases hc : c = 0
        · simp [BrebOS.cstring, hc, List.findIdx?_cons]
        · rw [BrebOS.cstring] at ih ⊢
          rw [List.cons_append, List.findIdx?_cons, if_neg (by simpa using hc), ih,
            List.takeWhile_cons_of_pos (by simpa using hc)]
          rfl
  rw [strlenAt, List.drop_zero, hidx]

lemma Holds.take {buf s : List Byte} (h : Holds buf s) {l : ℕ} (hl : l ≤ (BrebOS.cstring s).length) :
    buf.take l = (BrebOS.cstring s).take l := by
  rw [← h.cstring] at hl ⊢
  conv_lhs => rw [← List.takeWhile_append_dropWhile (p := (· != 0)) (l := buf)]
  exact List.take_append_of_le_length hl

lemma Encoding.At.unique {p : List Byte} : ∀ {e e' : Encoding} {inner : Bool} {i : ℕ},
    e.At p inner i → e'.At p inner i → e = e'
  | .stop, .stop, _, _, _, _ => rfl
  | .stop, .label _ _, _, i, h, ⟨c, hc, hne, _⟩ => by
      rw [At, hc, Option.some.injEq] at h
      exact absurd h hne
  | .stop, .pointer _, _, i, h, ⟨c, j, hc, hptr, _⟩ => by
      rw [At, hc, Option.some.injEq] at h
      subst h
      exact absurd hptr (by decide)
  | .label _ _, .stop, _, i, ⟨c, hc, hne, _⟩, h => by
      rw [At, hc, Option.some.injEq] at h
      exact absurd h hne
  | .label bytes rest, .label bytes' rest', _, i, ⟨c, hc, _, _, hb, hrest⟩,
      ⟨c', hc', _, _, hb', hrest'⟩ => by
      obtain rfl : c = c' := Option.some.inj (hc.symm.trans hc')
      obtain rfl : bytes = bytes' := Except.ok.inj (hb.symm.trans hb')
      rw [At.unique hrest hrest']
  | .label _ _, .pointer _, _, i, ⟨c, hc, _, hptr, _⟩, ⟨c', _, hc', hptr', _⟩ => by
      obtain rfl : c = c' := Option.some.inj (hc.symm.trans hc')
      rw [hptr] at hptr'
      cases hptr'
  | .pointer _, .stop, _, i, ⟨c, j, hc, hptr, _⟩, h => by
      rw [At, hc, Option.some.injEq] at h
      subst h
      exact absurd hptr (by decide)
  | .pointer _, .label _ _, _, i, ⟨c', _, hc', hptr', _⟩, ⟨c, hc, _, hptr, _⟩ => by
      obtain rfl : c = c' := Option.some.inj (hc.symm.trans hc')
      rw [hptr] at hptr'
      cases hptr'
  | .pointer target, .pointer target', _, i, ⟨c, j, _, _, hj, _, htarget⟩,
      ⟨c', j', _, _, hj', _, htarget'⟩ => by
      obtain rfl : j = j' := Except.ok.inj (hj.symm.trans hj')
      rw [At.unique htarget htarget']

section Turns

variable {junk : ℕ → Byte} {p res : List Byte} {fuel i size : ℕ} {c : Byte}

lemma parseNameAux_pointer (hc : p[i]? = some c) (hptr : isPointer c) :
    parseNameAux junk p (fuel + 1) i = (pointerTarget p i >>= parseNameAux junk p fuel) := by
  rw [parseNameAux, readByte_eq_ok.mpr hc]
  exact if_pos hptr

lemma parseNameAux_loop (hc : p[i]? = some c) (hptr : isPointer c = false) :
    parseNameAux junk p (fuel + 1) i = parseNameLoop junk p fuel i 0 (newChars junk 5) := by
  rw [parseNameAux, readByte_eq_ok.mpr hc]
  exact if_neg (by simp [hptr])

lemma parseNameLoop_stop (hc : p[i + size]? = some 0) :
    parseNameLoop junk p (fuel + 1) i size res = endName res size := by
  rw [parseNameLoop, readByte_eq_ok.mpr hc]
  rfl

lemma parseNameLoop_label (hc : p[i + size]? = some c) (hzero : c ≠ 0) (hptr : isPointer c = false) :
    parseNameLoop junk p (fuel + 1) i size res = (do
      let sub ← readBytes p (i + size + 1) c.toNat
      let res ← putLabel junk res size sub
      parseNameLoop junk p fuel i (size + c.toNat + 1) res) := by
  rw [parseNameLoop, readByte_eq_ok.mpr hc]
  exact (if_neg hzero).trans (if_neg (by simp [hptr]))

lemma parseNameLoop_pointer (hc : p[i + size]? = some c) (hptr : isPointer c) :
    parseNameLoop junk p (fuel + 1) i size res = (do
      let target ← pointerTarget p (i + size)
      let sub ← parseNameAux junk p fuel target
      let len ← strlenAt sub 0
      let res ← putLabel junk res size (sub.take (len % 256))
      let _ ← readByte p (i + size + 2)
      endName res (size + len % 256 + 1)) := by
  have hzero : c ≠ 0 := by
    rintro rfl
    exact absurd hptr (by decide)
  rw [parseNameLoop, readByte_eq_ok.mpr hc]
  exact (if_neg hzero).trans (if_pos hptr)

end Turns

lemma Holds.take_len {sub : List Byte} {e : Encoding} (h : Holds sub e.name) :
    sub.take e.len = (BrebOS.cstring e.name).take e.len ∧ (sub.take e.len).length = e.len := by
  have hle : e.len ≤ (BrebOS.cstring e.name).length := Nat.mod_le _ _
  refine ⟨h.take hle, ?_⟩
  rw [h.take hle, List.length_take, Nat.min_eq_left hle]

section Sound

variable (junk : ℕ → Byte) (p : List Byte)

/-- What `parse_name_aux` returns is the name of an encoding that fits, as it stands in the packet. -/
def AuxSound (fuel : ℕ) : Prop := ∀ i r, parseNameAux junk p fuel i = .ok r →
  ∃ e : Encoding, e.At p false i ∧ e.Fits 0 ∧ Holds r e.name

/-- And its loop adds such a name to its buffer. -/
def LoopSound (fuel : ℕ) : Prop := ∀ i size res r, res.length = capacityFor size →
  (size = 0 → ∀ c, p[i]? = some c → isPointer c = false) →
  parseNameLoop junk p fuel i size res = .ok r →
  ∃ e : Encoding, e.At p (decide (0 < size)) (i + size) ∧ e.Fits size ∧
    Holds r (res.take size ++ e.text (decide (0 < size))).dropLast

variable {junk p}

lemma AuxSound.succ {fuel : ℕ} (haux : AuxSound junk p fuel) (hloop : LoopSound junk p fuel) :
    AuxSound junk p (fuel + 1) := by
  intro i r h
  obtain ⟨c, hc⟩ : ∃ c, p[i]? = some c := by
    rw [parseNameAux, bind_eq_ok] at h
    obtain ⟨c, hc, -⟩ := h
    exact ⟨c, readByte_eq_ok.mp hc⟩
  rcases hptr : isPointer c with _ | _
  · rw [parseNameAux_loop hc hptr] at h
    obtain ⟨e, he, hfits, hholds⟩ := hloop i 0 _ r (by simp [newChars, capacityFor_zero])
      (fun _ c' hc' => Option.some.inj (hc.symm.trans hc') ▸ hptr) h
    exact ⟨e, he, hfits, by simpa [Encoding.name] using hholds⟩
  · rw [parseNameAux_pointer hc hptr, bind_eq_ok] at h
    obtain ⟨j, hj, h⟩ := h
    obtain ⟨e, he, hfits, hholds⟩ := haux j r h
    exact ⟨.pointer e, ⟨c, j, hc, hptr, hj, by simp, he⟩, hfits, hholds⟩

lemma LoopSound.label {fuel i size : ℕ} {res r : List Byte} {c : Byte} (hloop : LoopSound junk p fuel)
    (hres : res.length = capacityFor size) (hc : p[i + size]? = some c) (hzero : c ≠ 0)
    (hptr : isPointer c = false) (h : parseNameLoop junk p (fuel + 1) i size res = .ok r) :
    ∃ e : Encoding, e.At p (decide (0 < size)) (i + size) ∧ e.Fits size ∧
      Holds r (res.take size ++ e.text (decide (0 < size))).dropLast := by
  rw [parseNameLoop_label hc hzero hptr] at h
  simp only [bind_eq_ok] at h
  obtain ⟨sub, hsub, res', hres', h⟩ := h
  have hlen := readBytes_length hsub
  obtain ⟨hlength, hcontent⟩ := putLabel_spec hres hres'
  have hput := (putLabel_eq_ok _ hres).mp ⟨res', hres'⟩
  rw [hlen] at hlength hcontent hput
  obtain ⟨e, he, hfits, hholds⟩ := hloop i _ res' r hlength (by omega) h
  rw [decide_eq_true (by omega)] at he hholds
  refine ⟨.label sub e, ⟨c, hc, hzero, hptr, hsub, ?_⟩, ⟨?_, ?_⟩, ?_⟩
  · rw [show i + size + c.toNat + 1 = i + (size + c.toNat + 1) by omega]
    exact he
  · rw [hlen]
    exact hput
  · rw [hlen]
    exact hfits
  · rw [hcontent] at hholds
    simpa [Encoding.text] using hholds

lemma AuxSound.pointer {fuel i size : ℕ} {res r : List Byte} {c : Byte} (haux : AuxSound junk p fuel)
    (hres : res.length = capacityFor size) (hc : p[i + size]? = some c) (hptr : isPointer c)
    (hpos : 0 < size) (h : parseNameLoop junk p (fuel + 1) i size res = .ok r) :
    ∃ e : Encoding, e.At p (decide (0 < size)) (i + size) ∧ e.Fits size ∧
      Holds r (res.take size ++ e.text (decide (0 < size))).dropLast := by
  rw [parseNameLoop_pointer hc hptr] at h
  simp only [bind_eq_ok, readByte_eq_ok] at h
  obtain ⟨j, hj, sub, hsub, len, hlen, res', hres', next, hnext, h⟩ := h
  obtain ⟨e, he, hfits, hholds⟩ := haux j sub hsub
  rw [hholds.strlen, Except.ok.injEq] at hlen
  subst hlen
  have hl : (cstring e.name).length % 256 = e.len := rfl
  obtain ⟨htake, hlength⟩ := hholds.take_len
  rw [hl] at hres' h
  obtain ⟨hlength', hcontent⟩ := putLabel_spec hres hres'
  have hput := (putLabel_eq_ok _ hres).mp ⟨res', hres'⟩
  rw [hlength] at hlength' hcontent hput
  rw [endName_eq_ok (hlength' ▸ le_capacityFor _)] at h
  obtain ⟨-, rfl⟩ := h
  refine ⟨.pointer e, ⟨c, j, hc, hptr, hj, fun _ => (List.getElem?_eq_some_iff.mp hnext).1, he⟩, ?_,
    res'.drop (size + e.len + 1), ?_⟩
  · obtain ⟨size, rfl⟩ := Nat.exists_eq_succ_of_ne_zero hpos.ne'
    exact ⟨hfits, hput⟩
  · rw [hcontent, htake, decide_eq_true hpos]
    rfl

lemma LoopSound.succ {fuel : ℕ} (haux : AuxSound junk p fuel) (hloop : LoopSound junk p fuel) :
    LoopSound junk p (fuel + 1) := by
  intro i size res r hres hplain h
  obtain ⟨c, hc⟩ : ∃ c, p[i + size]? = some c := by
    rw [parseNameLoop, bind_eq_ok] at h
    obtain ⟨c, hc, -⟩ := h
    exact ⟨c, readByte_eq_ok.mp hc⟩
  by_cases hzero : c = 0
  · subst hzero
    have hle := le_capacityFor size
    rw [parseNameLoop_stop hc, endName_eq_ok (by omega)] at h
    obtain ⟨hpos, rfl⟩ := h
    exact ⟨.stop, hc, hpos, res.drop size, by simp [Encoding.text]⟩
  · rcases hptr : isPointer c with _ | _
    · exact hloop.label hres hc hzero hptr h
    · refine haux.pointer hres hc hptr (Nat.pos_of_ne_zero ?_) h
      rintro rfl
      rw [hplain rfl c hc] at hptr
      cases hptr

lemma parseName_sound (fuel : ℕ) : AuxSound junk p fuel ∧ LoopSound junk p fuel := by
  induction fuel with
  | zero => simp [AuxSound, LoopSound, parseNameAux, parseNameLoop]
  | succ fuel ih => exact ⟨ih.1.succ ih.2, LoopSound.succ ih.1 ih.2⟩

end Sound

section Complete

variable (junk : ℕ → Byte) (p : List Byte)

/-- A name that fits is read, with enough fuel. -/
def AuxReads (e : Encoding) : Prop := ∀ i, e.At p false i → e.Fits 0 →
  ∃ n, ∀ fuel ≥ n, ∃ r, parseNameAux junk p fuel i = .ok r

/-- And the loop goes on with it. -/
def LoopReads (e : Encoding) : Prop := ∀ i size res, e.At p (decide (0 < size)) (i + size) →
  e.Fits size → res.length = capacityFor size → (size = 0 → ∀ t, e ≠ .pointer t) →
  ∃ n, ∀ fuel ≥ n, ∃ r, parseNameLoop junk p fuel i size res = .ok r

variable {junk p}

lemma loopReads_stop : LoopReads junk p .stop := by
  intro i size res hat hpos hres _
  have hle := le_capacityFor size
  refine ⟨1, fun fuel hfuel => ?_⟩
  obtain ⟨fuel, rfl⟩ := Nat.exists_eq_add_of_le' hfuel
  rw [parseNameLoop_stop hat]
  exact ⟨_, (endName_eq_ok (by omega)).mpr ⟨hpos, rfl⟩⟩

lemma LoopReads.label {bytes : List Byte} {rest : Encoding} (hrest : LoopReads junk p rest) :
    LoopReads junk p (.label bytes rest) := by
  rintro i size res ⟨c, hc, hzero, hptr, hbytes, hat⟩ ⟨hput, hfits⟩ hres _
  have hlen := readBytes_length hbytes
  obtain ⟨res', hres'⟩ : ∃ res', putLabel junk res size bytes = .ok res' :=
    (putLabel_eq_ok bytes hres).mpr hput
  obtain ⟨hlength, -⟩ := putLabel_spec hres hres'
  rw [hlen] at hlength hfits
  rw [show i + size + c.toNat + 1 = i + (size + c.toNat + 1) by omega,
    show true = decide (0 < size + c.toNat + 1) by simp] at hat
  obtain ⟨n, hn⟩ := hrest i _ res' hat hfits hlength (by omega)
  refine ⟨n + 1, fun fuel hfuel => ?_⟩
  obtain ⟨fuel, rfl⟩ := Nat.exists_eq_add_of_le' hfuel
  obtain ⟨r, hr⟩ := hn (fuel + n) (Nat.le_add_left n fuel)
  refine ⟨r, ?_⟩
  rw [← Nat.add_assoc, parseNameLoop_label hc hzero hptr]
  simp only [bind_eq_ok]
  exact ⟨bytes, hbytes, res', hres', hr⟩

lemma AuxReads.label {bytes : List Byte} {rest : Encoding}
    (hloop : LoopReads junk p (.label bytes rest)) : AuxReads junk p (.label bytes rest) := by
  intro i hat hfits
  obtain ⟨c, hc, -, hptr, -⟩ := id hat
  obtain ⟨n, hn⟩ := hloop i 0 (newChars junk 5) hat hfits (by simp [newChars, capacityFor_zero])
    (by simp)
  refine ⟨n + 1, fun fuel hfuel => ?_⟩
  obtain ⟨fuel, rfl⟩ := Nat.exists_eq_add_of_le' hfuel
  rw [← Nat.add_assoc, parseNameAux_loop hc hptr]
  exact hn (fuel + n) (Nat.le_add_left n fuel)

lemma AuxReads.pointer {target : Encoding} (htarget : AuxReads junk p target) :
    AuxReads junk p (.pointer target) := by
  rintro i ⟨c, j, hc, hptr, hj, -, hat⟩ hfits
  obtain ⟨n, hn⟩ := htarget j hat hfits
  refine ⟨n + 1, fun fuel hfuel => ?_⟩
  obtain ⟨fuel, rfl⟩ := Nat.exists_eq_add_of_le' hfuel
  rw [← Nat.add_assoc, parseNameAux_pointer hc hptr, hj]
  exact hn (fuel + n) (Nat.le_add_left n fuel)

lemma LoopReads.pointer {target : Encoding} (htarget : AuxReads junk p target) :
    LoopReads junk p (.pointer target) := by
  rintro i size res ⟨c, j, hc, hptr, hj, hafter, hat⟩ hfits hres hsize
  rcases size with _ | size
  · exact absurd rfl (hsize rfl target)
  obtain ⟨hfits, hput⟩ := hfits
  obtain ⟨n, hn⟩ := htarget j hat hfits
  refine ⟨n + 1, fun fuel hfuel => ?_⟩
  obtain ⟨fuel, rfl⟩ := Nat.exists_eq_add_of_le' hfuel
  obtain ⟨sub, hsub⟩ := hn (fuel + n) (Nat.le_add_left n fuel)
  -- The name behind the pointer is the one that stands there.
  obtain ⟨e, he, -, hholds⟩ := (parseName_sound (fuel + n)).1 j sub hsub
  obtain rfl := he.unique hat
  obtain ⟨-, hlen⟩ := hholds.take_len
  obtain ⟨res', hres'⟩ : ∃ res', putLabel junk res (size + 1) (sub.take e.len) = .ok res' :=
    (putLabel_eq_ok _ hres).mpr (by rw [hlen]; exact hput)
  obtain ⟨hlength, -⟩ := putLabel_spec hres hres'
  rw [hlen] at hlength
  have hnext : i + (size + 1) + 2 < p.length := hafter (by simp)
  obtain ⟨r, hr⟩ : ∃ r, endName res' (size + 1 + e.len + 1) = .ok r :=
    ⟨_, (endName_eq_ok (hlength ▸ le_capacityFor _)).mpr ⟨by omega, rfl⟩⟩
  refine ⟨r, ?_⟩
  rw [← Nat.add_assoc, parseNameLoop_pointer hc hptr]
  simp only [bind_eq_ok, readByte_eq_ok]
  exact ⟨j, hj, sub, hsub, _, hholds.strlen, res', hres', _, List.getElem?_eq_getElem hnext, hr⟩

lemma parseName_complete : ∀ e : Encoding, AuxReads junk p e ∧ LoopReads junk p e
  | .stop => ⟨fun _ _ hfits => absurd hfits (lt_irrefl 0), loopReads_stop⟩
  | .label bytes rest => by
      have hloop : LoopReads junk p (.label bytes rest) := (parseName_complete rest).2.label
      exact ⟨.label hloop, hloop⟩
  | .pointer target =>
      have htarget := (parseName_complete target).1
      ⟨htarget.pointer, .pointer htarget⟩

lemma parseName_iff {i : ℕ} : (∃ fuel r, parseName junk p fuel i = .ok r) ↔
    ∃ e : Encoding, e.At p false i ∧ e.Fits 0 := by
  constructor
  · rintro ⟨fuel, r, hr⟩
    obtain ⟨e, he, hfits, -⟩ := (parseName_sound fuel).1 i r hr
    exact ⟨e, he, hfits⟩
  · rintro ⟨e, he, hfits⟩
    obtain ⟨n, hn⟩ := (parseName_complete e).1 i he hfits
    exact ⟨n, hn n le_rfl⟩

end Complete

end DNS

end BrebOS

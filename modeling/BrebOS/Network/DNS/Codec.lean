import BrebOS.Network.DNS.Names
import Mathlib.Data.List.TakeWhile

/-!
# Host names in packets

A host name is written with `get_encoded_name_len` bytes.  It is read back, from these or from any
encoding with pointers, exactly when its pieces fit the buffer as it grows and no more than 255 characters
stand behind a pointer that follows a label.
-/

namespace BrebOS

namespace DNS

/-- A label of a host name. -/
structure ValidLabel (l : List Byte) : Prop where
  pos : 0 < l.length
  short : l.length ≤ 63
  chars : ∀ c ∈ l, c ≠ dot ∧ c ≠ 0

/-- A host name of labels. -/
def hostname (ls : List (List Byte)) : List Byte := [dot].intercalate ls

/-- The labels with a dot after each. -/
def dotted (ls : List (List Byte)) : List Byte := ls.flatMap (· ++ [dot])

lemma dotted_cons (l : List Byte) (ls : List (List Byte)) : dotted (l :: ls) = l ++ dot :: dotted ls := by
  simp [dotted]

lemma hostname_append_dot : ∀ (ls : List (List Byte)), ls ≠ [] → hostname ls ++ [dot] = dotted ls
  | [], h => absurd rfl h
  | [l], _ => by simp [hostname, dotted, List.intercalate]
  | l :: l' :: ls, _ => by
      have ih := hostname_append_dot (l' :: ls) (by simp)
      rw [dotted_cons, ← ih]
      simp [hostname, List.intercalate, List.intersperse]

lemma dropLast_dotted {ls : List (List Byte)} (h : ls ≠ []) : (dotted ls).dropLast = hostname ls := by
  rw [← hostname_append_dot ls h, List.dropLast_concat]

lemma length_dotted {ls : List (List Byte)} (h : ls ≠ []) :
    (dotted ls).length = (hostname ls).length + 1 := by
  rw [← hostname_append_dot ls h, List.length_append, List.length_singleton]

lemma hostname_ne_zero {ls : List (List Byte)} (hne : ls ≠ []) (h : ∀ l ∈ ls, ∀ c ∈ l, c ≠ 0) :
    ∀ c ∈ hostname ls, c ≠ 0 := by
  intro c hc
  have hmem : c ∈ dotted ls := by
    rw [← hostname_append_dot ls hne]
    exact List.mem_append_left _ hc
  simp only [dotted, List.mem_flatMap, List.mem_append, List.mem_singleton] at hmem
  obtain ⟨l, hl, hc | rfl⟩ := hmem
  · exact h l hl c hc
  · decide

lemma cstring_of_ne_zero {s : List Byte} (h : ∀ c ∈ s, c ≠ 0) : cstring s = s := by
  rw [cstring, List.takeWhile_eq_self_iff]
  intro c hc
  simpa using h c hc

/-! ## Writing -/

lemma writeEncodedNameFrom_label (tail : List Byte) : ∀ (cs before l : List Byte),
    (∀ c ∈ cs, c ≠ dot) →
    writeEncodedNameFrom (before ++ l) (BitVec.ofNat 8 l.length) (cs ++ tail) =
      writeEncodedNameFrom (before ++ (l ++ cs)) (BitVec.ofNat 8 (l ++ cs).length) tail
  | [], before, l, _ => by simp
  | c :: cs, before, l, h => by
      have hc : c ≠ dot := h c (by simp)
      have ih := writeEncodedNameFrom_label tail cs before (l ++ [c])
        fun d hd => h d (by simp [hd])
      rw [List.cons_append, writeEncodedNameFrom, if_neg hc]
      rw [List.append_assoc, List.singleton_append] at ih
      rw [← ih]
      simp [BitVec.ofNat_add]

lemma writeLabel_eq {before l : List Byte} (h : l.length ≤ 63) :
    writeLabel (before ++ l) (BitVec.ofNat 8 l.length) = BitVec.ofNat 8 l.length :: l := by
  have hlen : (BitVec.ofNat 8 l.length).toNat = l.length := by
    rw [BitVec.toNat_ofNat]
    omega
  rw [writeLabel, hlen, List.length_append, Nat.add_sub_cancel, List.drop_left]

/-- A name as it is written: each label after its length, and a null byte at the end. -/
def wire (ls : List (List Byte)) : List Byte := ls.flatMap (fun l => BitVec.ofNat 8 l.length :: l) ++ [0]

lemma writeEncodedNameFrom_hostname : ∀ (ls : List (List Byte)) (before : List Byte), ls ≠ [] →
    (∀ l ∈ ls, ValidLabel l) → writeEncodedNameFrom before 0 (hostname ls) = wire ls
  | [], _, h, _ => absurd rfl h
  | [l], before, _, hvalid => by
      have hl := hvalid l (by simp)
      have hlabel := writeEncodedNameFrom_label [] l before []
        fun c hc => (hl.chars c hc).1
      simp only [List.append_nil, List.length_nil, List.nil_append] at hlabel
      rw [show hostname [l] = l by simp [hostname, List.intercalate], show (0 : BitVec 8) =
        BitVec.ofNat 8 0 from rfl, hlabel,
        writeEncodedNameFrom, writeLabel_eq hl.short]
      simp [wire]
  | l :: l' :: ls, before, _, hvalid => by
      have hl := hvalid l (by simp)
      have ih := writeEncodedNameFrom_hostname (l' :: ls) (before ++ l ++ [dot]) (by simp)
        fun k hk => hvalid k (List.mem_cons_of_mem l hk)
      have hlabel := writeEncodedNameFrom_label (dot :: hostname (l' :: ls)) l before []
        fun c hc => (hl.chars c hc).1
      simp only [List.append_nil, List.length_nil, List.nil_append] at hlabel
      rw [show hostname (l :: l' :: ls) = l ++ dot :: hostname (l' :: ls) by
          simp [hostname, List.intercalate, List.intersperse],
        show (0 : BitVec 8) = BitVec.ofNat 8 0 from rfl, hlabel, writeEncodedNameFrom, if_pos rfl,
        writeLabel_eq hl.short, ih]
      simp [wire]

lemma length_wire (ls : List (List Byte)) : (wire ls).length = (dotted ls).length + 1 := by
  simp only [wire, dotted, List.length_append, List.length_flatMap, List.length_cons, List.length_nil]

/-! ## Reading -/

namespace Encoding

/-- The labels of an encoding. -/
def labels : Encoding → List (List Byte)
  | .stop => []
  | .label bytes rest => bytes :: rest.labels
  | .pointer target => target.labels

/-- Behind a pointer that follows a label there are at most 255 characters. -/
def Short : Encoding → Bool → Prop
  | .stop, _ => True
  | .label _ rest, _ => rest.Short true
  | .pointer target, false => target.Short false
  | .pointer target, true => (hostname target.labels).length < 256 ∧ target.Short false

/-- The encoding without pointers. -/
def plain : List (List Byte) → Encoding
  | [] => .stop
  | l :: ls => .label l (plain ls)

lemma labels_plain : ∀ ls : List (List Byte), (plain ls).labels = ls
  | [] => rfl
  | l :: ls => by rw [plain, labels, labels_plain ls]

lemma Fits.labels_ne_nil : ∀ {e : Encoding}, e.Fits 0 → e.labels ≠ []
  | .stop, h => absurd h (lt_irrefl 0)
  | .label _ _, _ => by simp [labels]
  | .pointer target, h => Fits.labels_ne_nil (e := target) h

lemma Fits.length_text_pos : ∀ {e : Encoding}, e.Fits 0 → 0 < (e.text false).length
  | .stop, h => absurd h (lt_irrefl 0)
  | .label _ _, _ => by simp [text]
  | .pointer target, h => Fits.length_text_pos (e := target) h

lemma text_eq_dotted : ∀ (e : Encoding) (inner : Bool) (size : ℕ), (inner = true ↔ 0 < size) →
    e.Fits size → e.Short inner → (∀ l ∈ e.labels, ∀ c ∈ l, c ≠ 0) → e.text inner = dotted e.labels
  | .stop, _, _, _, _, _, _ => rfl
  | .label bytes rest, inner, size, _, hfits, hshort, hzero => by
      rw [text, labels, dotted_cons, text_eq_dotted rest true (size + bytes.length + 1) (by simp) hfits.2
        hshort fun l hl => hzero l (List.mem_cons_of_mem bytes hl)]
  | .pointer target, false, size, hsize, hfits, hshort, hzero => by
      obtain rfl : size = 0 := by simpa using hsize
      exact text_eq_dotted target false 0 (by simp) hfits hshort hzero
  | .pointer target, true, size, hsize, hfits, hshort, hzero => by
      obtain ⟨size, rfl⟩ := Nat.exists_eq_succ_of_ne_zero (hsize.mp rfl).ne'
      have hne := Fits.labels_ne_nil hfits.1
      have ih := text_eq_dotted target false 0 (by simp) hfits.1 hshort.2 hzero
      rw [text, ih, dropLast_dotted hne, cstring_of_ne_zero (hostname_ne_zero hne hzero),
        Nat.mod_eq_of_lt hshort.1, List.take_length, hostname_append_dot _ hne]
      rfl

lemma length_text_le : ∀ (e : Encoding) (inner : Bool) (size : ℕ), (inner = true ↔ 0 < size) →
    e.Fits size → (e.text inner).length ≤ (dotted e.labels).length ∧
      ((e.text inner).length = (dotted e.labels).length → e.Short inner)
  | .stop, _, _, _, _ => ⟨le_rfl, fun _ => trivial⟩
  | .label bytes rest, inner, size, _, hfits => by
      have ih := length_text_le rest true (size + bytes.length + 1) (by simp) hfits.2
      rw [text, labels, dotted_cons]
      simp only [List.length_append, List.length_cons]
      exact ⟨by omega, fun h => ih.2 (by omega)⟩
  | .pointer target, false, size, hsize, hfits => by
      obtain rfl : size = 0 := by simpa using hsize
      exact length_text_le target false 0 (by simp) hfits
  | .pointer target, true, size, hsize, hfits => by
      obtain ⟨size, rfl⟩ := Nat.exists_eq_succ_of_ne_zero (hsize.mp rfl).ne'
      have hne := Fits.labels_ne_nil hfits.1
      have ih := length_text_le target false 0 (by simp) hfits.1
      have hlen := length_dotted hne
      have hpos := Fits.length_text_pos hfits.1
      have hsub : (cstring (target.text false).dropLast).length ≤ (target.text false).length - 1 :=
        (List.takeWhile_prefix _).length_le.trans (by simp)
      rw [text, labels]
      simp only [List.length_append, List.length_take, List.length_singleton]
      generalize (cstring (target.text false).dropLast).length = n at hsub ⊢
      have hmod : n % 256 ≤ n := Nat.mod_le n 256
      have hlt : n % 256 < 256 := Nat.mod_lt n (by norm_num)
      exact ⟨by omega, fun h => ⟨by omega, ih.2 (by omega)⟩⟩

lemma cstring_name_eq_iff {e : Encoding} (hfits : e.Fits 0) (hzero : ∀ l ∈ e.labels, ∀ c ∈ l, c ≠ 0) :
    cstring e.name = hostname e.labels ↔ e.Short false := by
  have hne := hfits.labels_ne_nil
  constructor
  · intro h
    obtain ⟨hle, hshort⟩ := length_text_le e false 0 (by simp) hfits
    refine hshort (Nat.le_antisymm hle ?_)
    have hlen : (hostname e.labels).length ≤ e.name.length := by
      rw [← h]
      exact (List.takeWhile_prefix _).length_le
    have hpos := hfits.length_text_pos
    rw [name, List.length_dropLast] at hlen
    rw [length_dotted hne]
    omega
  · intro hshort
    rw [name, text_eq_dotted e false 0 (by simp) hfits hshort hzero, dropLast_dotted hne,
      cstring_of_ne_zero (hostname_ne_zero hne hzero)]

lemma plain_at : ∀ {ls : List (List Byte)}, (∀ l ∈ ls, ValidLabel l) → ∀ (inner : Bool)
    (before after : List Byte), (plain ls).At (before ++ wire ls ++ after) inner before.length
  | [], _, _, before, after => by simp [plain, At, wire]
  | l :: ls, hvalid, _, before, after => by
      have hl := hvalid l (by simp)
      have hpos := hl.pos
      have hshort := hl.short
      have hlen : (BitVec.ofNat 8 l.length).toNat = l.length := by
        rw [BitVec.toNat_ofNat]
        omega
      have hsplit : before ++ wire (l :: ls) ++ after =
          (before ++ (BitVec.ofNat 8 l.length :: l)) ++ wire ls ++ after := by simp [wire]
      have hptr : ∀ n < 64, isPointer (BitVec.ofNat 8 n) = false := by decide
      refine ⟨BitVec.ofNat 8 l.length, ?_, ?_, hptr _ (by omega), ?_, ?_⟩
      · simp [wire]
      · intro h
        rw [h] at hlen
        simp at hlen
        omega
      · rw [hlen, readBytes_eq_ok]
        refine ⟨by simp [wire]; omega, ?_⟩
        rw [show before.length + 1 = (before ++ [BitVec.ofNat 8 l.length]).length by simp,
          show before ++ wire (l :: ls) ++ after =
            (before ++ [BitVec.ofNat 8 l.length]) ++ (l ++ (wire ls ++ after)) by simp [wire],
          List.drop_left, List.take_left]
      · have ih := plain_at (fun k hk => hvalid k (List.mem_cons_of_mem l hk)) true
          (before ++ (BitVec.ofNat 8 l.length :: l)) after
        rw [hsplit, hlen]
        simpa [Nat.add_assoc] using ih

end Encoding

/-- A host name is written with the length that is computed for it; and from what is written, or from any
encoding of it, it is read back exactly when its pieces fit and nothing is cut off. -/
theorem name_codec (ls : List (List Byte)) (hne : ls ≠ []) (hvalid : ∀ l ∈ ls, ValidLabel l) :
    (writeEncodedName (hostname ls)).length = getEncodedNameLen (hostname ls) ∧
    (∀ before after, (Encoding.plain ls).At (before ++ writeEncodedName (hostname ls) ++ after) false
      before.length) ∧
    ∀ (p : List Byte) (i : ℕ) (e : Encoding), e.At p false i → e.labels = ls →
      ((∀ junk, ∃ fuel r, parseName junk p fuel i = .ok r ∧ cstring r = hostname ls) ↔
        e.Fits 0 ∧ e.Short false) := by
  have hwire : writeEncodedName (hostname ls) = wire ls := writeEncodedNameFrom_hostname ls [] hne hvalid
  refine ⟨?_, ?_, ?_⟩
  · rw [hwire, length_wire, length_dotted hne, getEncodedNameLen]
  · rw [hwire]
    exact Encoding.plain_at hvalid false
  · rintro p i e he rfl
    have hzero : ∀ l ∈ e.labels, ∀ c ∈ l, c ≠ 0 := fun l hl c hc => ((hvalid l hl).chars c hc).2
    constructor
    · intro h
      obtain ⟨fuel, r, hr, hname⟩ := h fun _ => 0
      obtain ⟨e', he', hfits, hholds⟩ := (parseName_sound fuel).1 i r hr
      obtain rfl := he'.unique he
      rw [hholds.cstring] at hname
      exact ⟨hfits, (Encoding.cstring_name_eq_iff hfits hzero).mp hname⟩
    · rintro ⟨hfits, hshort⟩ junk
      obtain ⟨n, hn⟩ : ∃ n, ∀ fuel ≥ n, ∃ r, parseNameAux junk p fuel i = .ok r :=
        (parseName_complete e).1 i he hfits
      obtain ⟨r, hr⟩ := hn n le_rfl
      obtain ⟨e', he', -, hholds⟩ := (parseName_sound n).1 i r hr
      obtain rfl := he'.unique he
      refine ⟨n, r, hr, ?_⟩
      rw [hholds.cstring]
      exact (Encoding.cstring_name_eq_iff hfits hzero).mpr hshort

/-- `ab.c`, in full and behind a pointer. -/
theorem name_codec_short :
    (writeEncodedName (hostname [[97, 98], [99]])).length = 6 ∧
    (∀ junk, ∃ fuel r, parseName junk (writeEncodedName (hostname [[97, 98], [99]])) fuel 0 = .ok r ∧
      cstring r = hostname [[97, 98], [99]]) ∧
    ∀ junk, ∃ fuel r, parseName junk [1, 99, 0, 2, 97, 98, 0xC0, 0, 0] fuel 3 = .ok r ∧
      cstring r = hostname [[97, 98], [99]] := by
  have hvalid : ∀ l ∈ ([[97, 98], [99]] : List (List Byte)), ValidLabel l := by
    intro l hl
    simp only [List.mem_cons, List.not_mem_nil, or_false] at hl
    rcases hl with rfl | rfl <;> exact ⟨by decide, by decide, by decide⟩
  obtain ⟨hlen, hplain, hread⟩ := name_codec [[97, 98], [99]] (by simp) hvalid
  refine ⟨hlen, ?_, ?_⟩
  · have hat := hplain [] []
    rw [List.nil_append, List.append_nil] at hat
    refine (hread _ _ _ hat (Encoding.labels_plain _)).mpr ⟨⟨by decide, by decide, Nat.succ_pos _⟩, trivial⟩
  · have hat : Encoding.At [1, 99, 0, 2, 97, 98, 0xC0, 0, 0]
        (.label [97, 98] (.pointer (.label [99] .stop))) false 3 :=
      ⟨2, rfl, by decide, rfl, rfl, 0xC0, 0, rfl, rfl, rfl, by simp, 1, rfl, by decide, rfl, rfl, rfl⟩
    exact (hread _ _ _ hat rfl).mpr
      ⟨⟨by decide, ⟨by decide, Nat.succ_pos _⟩, by decide⟩, by decide, trivial⟩

/-- A name whose first label has ten characters is written past the buffer when it is read back. -/
theorem long_label_not_read : ¬ ∀ junk, ∃ fuel r,
    parseName junk (writeEncodedName (hostname [List.replicate 10 97])) fuel 0 = .ok r ∧
      cstring r = hostname [List.replicate 10 97] := by
  intro h
  obtain ⟨fuel, r, hr, -⟩ := h fun _ => 0
  obtain ⟨e, he, hfits, -⟩ := (parseName_sound fuel).1 0 r hr
  have hat : Encoding.At (writeEncodedName (hostname [List.replicate 10 97]))
      (.label (List.replicate 10 97) .stop) false 0 :=
    ⟨10, rfl, by decide, rfl, rfl, rfl⟩
  obtain rfl := he.unique hat
  exact absurd hfits.1 (by decide)

end DNS

end BrebOS

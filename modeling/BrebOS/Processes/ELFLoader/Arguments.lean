import BrebOS.Processes.ELFLoader.Stack
import BrebOS.Processes.ELFLoader.Blocks

/-!
# The arguments of a program

What is written from the top of the stack down lies there as one stretch of bytes.
-/

namespace BrebOS

open Memory

/-! ## The stack of a loaded program -/

section Mapping

variable {kernel tables tables' : ℕ → Entry} {page window n : ℕ} {user : Bool}

lemma mapWindowPages_inv (msg : String)
    (h : (List.range n).foldlM (mapWindowPage msg user page window kernel) tables = .ok tables') :
    (∀ i < n, tables (page + i) = {}) ∧
      (∀ i < n, tables' (page + i) = { kernel (window + i) with
        flags := { (kernel (window + i)).flags with user := (kernel (window + i)).flags.user || user } }) ∧
      ∀ q, q < page ∨ page + n ≤ q → tables' q = tables q := by
  induction n generalizing tables' with
  | zero =>
      cases h
      simp
  | succ n ih =>
      rw [List.range_succ, List.foldlM_append] at h
      obtain ⟨tables₁, hrun, hlast⟩ := bind_eq_ok.mp h
      obtain ⟨hempty, hset, hsame⟩ := ih hrun
      rw [List.foldlM_cons] at hlast
      obtain ⟨tables₂, hstep, hend⟩ := bind_eq_ok.mp hlast
      cases hend
      rw [mapWindowPage] at hstep
      split at hstep
      · cases hstep
      split at hstep
      · cases hstep
      next hfree =>
      simp only [not_not] at hfree
      cases hstep
      refine ⟨fun i hi => ?_, fun i hi => ?_, fun q hq => ?_⟩
      · rcases Nat.lt_succ_iff_lt_or_eq.mp hi with hi | rfl
        · exact hempty i hi
        · rw [← hfree, hsame _ (by omega)]
      · rcases Nat.lt_succ_iff_lt_or_eq.mp hi with hi | rfl
        · rw [Function.update_of_ne (by omega), hset i hi]
        · rw [Function.update_self]
      · rw [Function.update_of_ne (by omega), hsame q (by omega)]

end Mapping

namespace ELFLoader

variable {kernel : ℕ → Entry} {mmap : ℕ → ℕ} {l l' : ELFLoader} {base : ℕ}

/-- No allocation covers a page that is not mapped. -/
def Covered (l : ELFLoader) : Prop :=
  ∀ a ∈ l.allocations, ∀ addr, a.start ≤ addr → addr < a.end_ → l.pageTables (addrPage addr) ≠ {}

lemma mapSegment_inv {tables tables' : ℕ → Entry} {seg : Segment}
    (h : mapSegment kernel tables seg = .ok tables') :
    (∀ i < seg.numPages, tables (seg.runtimePageId + i) = {} ∧ tables' (seg.runtimePageId + i) ≠ {}) ∧
      ∀ q, q < seg.runtimePageId ∨ seg.runtimePageId + seg.numPages ≤ q → tables' q = tables q := by
  obtain ⟨tables₁, hrun, hend⟩ := bind_eq_ok.mp h
  obtain ⟨hempty, hset, hsame⟩ := mapWindowPages_inv _ hrun
  have huser : ∀ i < seg.numPages, (tables' (seg.runtimePageId + i)).flags.user = true := by
    intro i hi
    cases hend
    split
    · simp [hset i hi]
    · rw [dropWrites, setPages, if_pos (by omega)]
      simp [hset i hi]
  refine ⟨fun i hi => ⟨hempty i hi, fun hnone => ?_⟩, fun q hq => ?_⟩
  · have := huser i hi
    rw [hnone] at this
    cases this
  · cases hend
    split
    · exact hsame q hq
    · rw [dropWrites, setPages, if_neg (by omega), hsame q hq]

lemma Covered.mapHeader {h : Elf32Phdr} (hc : Covered l)
    (hrun : ELFLoader.mapHeader kernel mmap base l h = .ok l') : Covered l' := by
  rw [ELFLoader.mapHeader] at hrun
  split at hrun
  · cases hrun
  obtain ⟨tables, hmap, hend⟩ := bind_eq_ok.mp hrun
  obtain ⟨hnew, hsame⟩ := mapSegment_inv hmap
  cases hend
  intro a ha addr hstart hend
  rcases List.mem_append.mp ha with ha | ha
  · have hold := hc a ha addr hstart hend
    show tables (addrPage addr) ≠ {}
    rw [hsame]
    · exact hold
    · by_contra hin
      obtain ⟨hempty, -⟩ := hnew (addrPage addr - (h.segment base (mmap l.allocations.length)).runtimePageId)
        (by omega)
      rw [Nat.add_sub_cancel' (by omega)] at hempty
      exact hold hempty
  · obtain rfl := List.mem_singleton.mp ha
    have hstart' : addrPage (u32 (base + h.pVaddr)) * 4096 ≤ addr := hstart
    have hend' : addr < (addrPage (u32 (base + h.pVaddr)) * 4096 + h.numPages * 4096) % 4294967296 := hend
    change ∀ i < h.numPages, l.pageTables (addrPage (u32 (base + h.pVaddr)) + i) = {} ∧
      tables (addrPage (u32 (base + h.pVaddr)) + i) ≠ {} at hnew
    generalize addrPage (u32 (base + h.pVaddr)) = page at hstart' hend' hnew
    have hle := Nat.mod_le (page * 4096 + h.numPages * 4096) 4294967296
    obtain ⟨-, hmapped⟩ := hnew (addr / 4096 - page) (by omega)
    rw [Nat.add_sub_cancel' (by omega)] at hmapped
    exact hmapped

lemma loadHeader_same {h : Elf32Phdr} {bytes : List UInt8}
    (hrun : loadHeader kernel base bytes l h = .ok l') : ∃ frames, l' = { l with frames := frames } := by
  obtain ⟨l₁, hcopy, hrun⟩ := bind_eq_ok.mp hrun
  have hsame : ∃ frames, l₁ = { l with frames := frames } := by
    obtain ⟨_, -, hcopy⟩ := bind_eq_ok.mp hcopy
    obtain ⟨_, -, hcopy⟩ := bind_eq_ok.mp hcopy
    obtain ⟨frames, -, hcopy⟩ := bind_eq_ok.mp hcopy
    cases hcopy
    exact ⟨frames, rfl⟩
  obtain ⟨frames, rfl⟩ := hsame
  split at hrun
  · obtain ⟨_, -, hrun⟩ := bind_eq_ok.mp hrun
    obtain ⟨frames', -, hrun⟩ := bind_eq_ok.mp hrun
    cases hrun
    exact ⟨frames', rfl⟩
  · cases hrun
    exact ⟨frames, rfl⟩

lemma Covered.loadSegments {elf : ELF} (hc : Covered l)
    (hrun : ELFLoader.loadSegments kernel mmap elf l = .ok l') : Covered l' := by
  obtain ⟨l₁, hmap, hcopy⟩ := bind_eq_ok.mp hrun
  obtain ⟨l₂, hmap, hend⟩ := bind_eq_ok.mp hmap
  have hmapped : Covered l₂ := foldlM_invariant Covered hmap hc fun _ _ _ _ h => h.mapHeader
  have hcovered : Covered l₁ := by
    cases hend
    exact hmapped
  refine foldlM_invariant Covered hcopy hcovered fun h _ c c' hcc hstep => ?_
  obtain ⟨frames, rfl⟩ := loadHeader_same hstep
  exact hcc

lemma Covered.loadElf : ∀ {f : ELFFile} {t : ELFType} {l l' : ELFLoader} {b : Bool}, Covered l →
    ELFLoader.loadElf kernel mmap f t l = .ok (b, l') → Covered l' := by
  intro f
  induction f with
  | alone e =>
      intro t l l' b hc hrun
      rw [ELFLoader.loadElf] at hrun
      split at hrun
      · cases hrun
        exact hc
      · obtain ⟨l₁, hload, hend⟩ := bind_eq_ok.mp hrun
        cases hend
        exact hc.loadSegments hload
  | withInterpreter e f ih =>
      intro t l l' b hc hrun
      rw [ELFLoader.loadElf] at hrun
      split at hrun
      · cases hrun
        exact hc
      · obtain ⟨l₁, hload, hrest⟩ := bind_eq_ok.mp hrun
        split at hrest
        · exact ih (hc.loadSegments hload) hrest
        · cases hrest
          exact hc.loadSegments hload

/-- The process stack, as a segment that is mapped from a block. -/
def stack (loadAddr : ℕ) : Placed where
  base := 0
  hdr := ⟨ptLoad, 0, stackStartPageId * pageSize, 0, processStackNPages * pageSize, 6⟩
  bytes := []
  loadAddr := loadAddr

lemma stack_numPages (loadAddr : ℕ) : (stack loadAddr).hdr.numPages = 128 := by
  simp [stack, Elf32Phdr.numPages, addrPage, u32, pageSize, processStackNPages]

/-- What `mmap` promises of the block for the process stack, which it is asked for with `DEFAULT_U_PROT`. -/
structure StackBlock (kernel : ℕ → Entry) (loadAddr : ℕ) : Prop where
  handed : (stack loadAddr).Handed kernel
  user : ∀ i < processStackNPages, (kernel (addrPage loadAddr + i)).flags.user = true

/-- The process stack is mapped, and found in the allocations. -/
structure HasStack (kernel : ℕ → Entry) (loadAddr : ℕ) (l : ELFLoader) : Prop where
  lptr : ∀ d n, d + n < 128 * 4096 → lptr l.allocations (786304 * 4096 + d) n = .ok (loadAddr + d)
  entries : ∀ i < 128, l.pageTables (786304 + i) = kernel (addrPage loadAddr + i)

variable {loadAddr : ℕ}

lemma allocateStack_inv {page n : ℕ} (hrun : allocateStack kernel mmap page n l = .ok l') :
    l'.allocations = l.allocations ++
        [⟨page * pageSize, (page + n) * pageSize, mmap l.allocations.length⟩] ∧
      (∀ i < n, l.pageTables (page + i) = {} ∧
        l'.pageTables (page + i) = kernel (addrPage (mmap l.allocations.length) + i)) ∧
      ∀ q, q < page ∨ page + n ≤ q → l'.pageTables q = l.pageTables q := by
  rw [allocateStack] at hrun
  split at hrun
  · cases hrun
  obtain ⟨tables, hmap, hend⟩ := bind_eq_ok.mp hrun
  obtain ⟨hempty, hset, hsame⟩ := mapWindowPages_inv _ hmap
  cases hend
  refine ⟨rfl, fun i hi => ⟨hempty i hi, ?_⟩, hsame⟩
  show tables (page + i) = _
  rw [hset i hi, Bool.or_false]

lemma HasStack.of_allocateStacks (hc : Covered l) (hb : StackBlock kernel (mmap l.allocations.length))
    (hrun : allocateStacks kernel mmap l = .ok l') :
    HasStack kernel (mmap l.allocations.length) l' := by
  obtain ⟨l₁, hstack, hkstack⟩ := bind_eq_ok.mp hrun
  obtain ⟨halloc, hpages, -⟩ := allocateStack_inv hstack
  obtain ⟨hkalloc, -, hsame⟩ := allocateStack_inv hkstack
  change ∀ i < 128, l.pageTables (786304 + i) = {} ∧ _ = _ at hpages
  change ∀ q, q < 786302 ∨ 786304 ≤ q → _ = _ at hsame
  have hinside := hb.handed.inside
  rw [stack_numPages] at hinside
  change addrPage (mmap l.allocations.length) + 128 ≤ 1048576 at hinside
  refine ⟨fun d n hd => ?_, fun i hi => ?_⟩
  · have hnone : l.allocations.find? (fun a => a.start ≤ 786304 * 4096 + d && 786304 * 4096 + d < a.end_) =
        none := by
      rw [List.find?_eq_none]
      intro a ha hcovers
      simp only [Bool.and_eq_true, decide_eq_true_eq] at hcovers
      have hpage : addrPage (786304 * 4096 + d) = 786304 + d / 4096 := by
        simp only [addrPage]
        omega
      have hmapped := hc a ha _ hcovers.1 hcovers.2
      rw [hpage] at hmapped
      exact hmapped (hpages (d / 4096) (by omega)).1
    have haligned := hb.handed.aligned
    change mmap l.allocations.length % 4096 = 0 at haligned
    simp only [addrPage] at hinside
    have hfirst : (786304 * 4096 + d < 786432 * 4096) := by omega
    rw [BrebOS.lptr, hkalloc, halloc, List.append_assoc, List.find?_append, hnone, Option.none_or,
      List.singleton_append, List.find?_cons_of_pos (by
        simp [stackStartPageId, userEntries, processStackNPages, pageSize, hfirst])]
    refine (if_pos ?_).trans (congrArg Except.ok ?_)
    · simp only [stackStartPageId, userEntries, processStackNPages, pageSize]
      rw [u32_of_lt (by omega)]
      omega
    · simp only [stackStartPageId, userEntries, processStackNPages, pageSize]
      rw [u32_of_lt (by omega)]
      omega
  · rw [hsame _ (Or.inr (by omega))]
    exact (hpages i hi).2

/-! ## Writing downwards -/

/-- What has been written ends at the end of the stack, and lies there. -/
structure Stacked (kernel : ℕ → Entry) (loadAddr : ℕ) (bs : List UInt8) (st : ℕ × ELFLoader) : Prop where
  has : HasStack kernel loadAddr st.2
  top : st.1 + bs.length = 786432 * 4096 - 4
  room : bs.length ≤ 128 * 4096 - 4
  lies : Lies st.2.read st.1 bs

variable {bs : List UInt8} {st : ℕ × ELFLoader}

lemma HasStack.read (hs : HasStack kernel loadAddr l) (hb : StackBlock kernel loadAddr) {x : ℕ}
    (hx : x < 128 * 4096) :
    l.read (786304 * 4096 + x) = some ((stack loadAddr).shown kernel l.frames x) := by
  have hpage : addrPage (786304 * 4096 + x) = 786304 + x / 4096 := by
    simp only [addrPage]
    omega
  have hoff : (786304 * 4096 + x) % pageSize = x % 4096 := by
    simp only [pageSize]
    omega
  have hmapped : (kernel (addrPage loadAddr + x / 4096)).mapped = true :=
    hb.handed.mapped _ (by rw [stack_numPages]; omega)
  have huser := hb.user (x / 4096) (by simp only [processStackNPages]; omega)
  rw [ELFLoader.read, hpage, hs.entries _ (by omega), hmapped, huser, hoff]
  rfl

lemma Stacked.write (hs : Stacked kernel loadAddr bs st) (hb : StackBlock kernel loadAddr)
    (content : List UInt8) (hroom : content.length + bs.length ≤ 128 * 4096 - 4) :
    ∃ st', writeToStack kernel content st = .ok st' ∧ Stacked kernel loadAddr (content ++ bs) st' := by
  have htop := hs.top
  obtain ⟨d, hd⟩ : ∃ d, st.1 = 786304 * 4096 + d + content.length :=
    ⟨st.1 - 786304 * 4096 - content.length, by omega⟩
  have hsub : u32Sub st.1 content.length = 786304 * 4096 + d := by
    rw [u32Sub_of_le (by omega) (by omega)]
    omega
  have hbound : d + content.length ≤ (stack loadAddr).hdr.numPages * pageSize := by
    rw [stack_numPages, pageSize]
    omega
  obtain ⟨frames, hwrite, hshown, -⟩ := @Placed.Handed.writeKernel _ _ hb.handed content d st.2.frames hbound
  have hhas : HasStack kernel loadAddr { st.2 with frames := frames } := ⟨hs.has.lptr, hs.has.entries⟩
  refine ⟨(786304 * 4096 + d, { st.2 with frames := frames }), ?_, ⟨hhas, ?_, ?_, ?_⟩⟩
  · rw [writeToStack, hsub]
    exact bind_eq_ok.mpr ⟨_, hs.has.lptr d _ (by omega), bind_eq_ok.mpr ⟨frames, hwrite, rfl⟩⟩
  · rw [List.length_append]
    omega
  · rw [List.length_append]
    exact hroom
  · have hread : ∀ x < 128 * 4096, ({ st.2 with frames := frames } : ELFLoader).read (786304 * 4096 + x) =
        if d ≤ x ∧ x < d + content.length then content[x - d]? else st.2.read (786304 * 4096 + x) := by
      intro x hx
      rw [hhas.read hb hx, hs.has.read hb hx, hshown x (by rw [stack_numPages, pageSize]; omega)]
      split
      · rw [List.getD_eq_getElem?_getD, List.getElem?_eq_getElem (by omega)]
        rfl
      · rfl
    have hend : 786304 * 4096 + d + content.length = st.1 := hd.symm
    refine lies_append.mpr ⟨fun i hi => ?_, ?_⟩
    · rw [Nat.add_assoc, hread (d + i) (by omega), if_pos (by omega), Nat.add_sub_cancel_left]
    · rw [hend]
      refine hs.lies.congr fun i hi => ?_
      rw [hd, Nat.add_assoc (786304 * 4096), Nat.add_assoc (786304 * 4096), hread _ (by omega),
        if_neg (by omega)]

/-- The strings, one after the other. -/
def contents (ss : List CString) : List (List UInt8) := ss.map CString.bytes

@[simp]
lemma length_contents (ss : List CString) : (contents ss).length = ss.length := List.length_map _

lemma Stacked.contents (hb : StackBlock kernel loadAddr) (hs : Stacked kernel loadAddr bs st) :
    ∀ ss : List CString, (ELFLoader.contents ss).flatten.length + bs.length ≤ 128 * 4096 - 4 →
    ∃ st', ss.foldrM (writeContent kernel) st = .ok st' ∧
      Stacked kernel loadAddr ((ELFLoader.contents ss).flatten ++ bs) st' := by
  intro ss
  induction ss with
  | nil => exact fun _ => ⟨st, rfl, hs⟩
  | cons s ss ih =>
      intro hroom
      rw [ELFLoader.contents, List.map_cons, List.flatten_cons, List.length_append] at hroom
      obtain ⟨st₁, hrun, hs₁⟩ := ih (by rw [ELFLoader.contents]; omega)
      obtain ⟨st₂, hlast, hs₂⟩ := hs₁.write hb s.bytes
        (by rw [List.length_append, ELFLoader.contents]; omega)
      refine ⟨st₂, ?_, ?_⟩
      · rw [List.foldrM_cons, hrun]
        exact hlast
      · rw [ELFLoader.contents, List.map_cons, List.flatten_cons, List.append_assoc]
        exact hs₂

lemma Stacked.pointers (hb : StackBlock kernel loadAddr) (hs : Stacked kernel loadAddr bs st) :
    ∀ (ss : List CString) (a : ℕ), 4 * ss.length + bs.length ≤ 128 * 4096 - 4 →
    a + (ELFLoader.contents ss).flatten.length < 4294967296 →
    ∃ st', ss.foldrM (writePointer kernel) (a + (ELFLoader.contents ss).flatten.length, st) = .ok (a, st') ∧
      Stacked kernel loadAddr ((starts a (ELFLoader.contents ss)).flatMap wordBytes ++ bs) st' := by
  intro ss
  induction ss with
  | nil => exact fun a _ _ => ⟨st, rfl, hs⟩
  | cons s ss ih =>
      intro a hroom hptr
      rw [ELFLoader.contents, List.map_cons, List.flatten_cons, List.length_append, ← Nat.add_assoc] at hptr ⊢
      rw [List.length_cons] at hroom
      obtain ⟨st₁, hrun, hs₁⟩ := ih (a + s.bytes.length) (by omega) hptr
      obtain ⟨st₂, hlast, hs₂⟩ := hs₁.write hb (wordBytes a) (by
        rw [List.length_append, length_flatMap_wordBytes, length_starts, length_contents, length_wordBytes]
        omega)
      have hback : u32Sub (a + s.bytes.length) (s.strlen + 1) = a := by
        rw [← CString.length_bytes, u32Sub_of_le (by omega) (by omega), Nat.add_sub_cancel]
      refine ⟨st₂, ?_, ?_⟩
      · rw [List.foldrM_cons]
        refine bind_eq_ok.mpr ⟨_, hrun, ?_⟩
        rw [writePointer]
        simp only [hback]
        exact bind_eq_ok.mpr ⟨st₂, hlast, rfl⟩
      · rw [starts, List.flatMap_cons, List.append_assoc]
        exact hs₂

/-! ## The auxiliary vector -/

/-- The auxiliary vector, from its first entry on. -/
def auxv (hasInterpreter : Bool) (hdr : Elf32Ehdr) (progHdrs : List Elf32Phdr) (argv0 random : ℕ) :
    List (AuxType × ℕ) :=
  (if hasInterpreter then
    [(.entry, hdr.eEntry), (.execfn, argv0), (.phnum, hdr.ePhnum), (.phent, hdr.ePhentsize),
      (.phdr, phdrRuntimeAddr progHdrs)] else []) ++
  [(.random, random), (.secure, 0), (.pagesz, pageSize), (.null, 0)]

/-- The bytes of an entry. -/
def auxBytes (e : AuxType × ℕ) : List UInt8 := wordBytes e.1.num ++ wordBytes e.2

lemma length_flatMap_auxBytes (es : List (AuxType × ℕ)) : (es.flatMap auxBytes).length = 8 * es.length := by
  induction es with
  | nil => rfl
  | cons e es ih =>
      rw [List.flatMap_cons, List.length_append, ih, auxBytes, List.length_append, length_wordBytes,
        length_wordBytes, List.length_cons]
      omega

/-- The number of entries. -/
def auxCount (hasInterpreter : Bool) : ℕ := if hasInterpreter then 9 else 4

lemma auxCount_true : auxCount true = 9 := rfl

lemma auxCount_false : auxCount false = 4 := rfl

variable {hasInterpreter : Bool} {hdr : Elf32Ehdr} {progHdrs : List Elf32Phdr} {argv0 random : ℕ}

lemma length_auxv : (auxv hasInterpreter hdr progHdrs argv0 random).length = auxCount hasInterpreter := by
  cases hasInterpreter <;> rfl

lemma Stacked.aux (hs : Stacked kernel loadAddr bs st) (hb : StackBlock kernel loadAddr) (type : AuxType)
    (value : ℕ) (hroom : 8 + bs.length ≤ 128 * 4096 - 4) :
    ∃ st', writeAux kernel type value st = .ok st' ∧
      Stacked kernel loadAddr (auxBytes (type, value) ++ bs) st' :=
  hs.write hb _ hroom

lemma Stacked.commonAuxv (hs : Stacked kernel loadAddr bs st) (hb : StackBlock kernel loadAddr)
    (hdr : Elf32Ehdr) (progHdrs : List Elf32Phdr) (argv0 random : ℕ)
    (hroom : 32 + bs.length ≤ 128 * 4096 - 4) : ∃ st₁ st₂ st₃ st₄,
      writeAux kernel .null 0 st = .ok st₁ ∧ writeAux kernel .pagesz pageSize st₁ = .ok st₂ ∧
      writeAux kernel .secure 0 st₂ = .ok st₃ ∧ writeAux kernel .random random st₃ = .ok st₄ ∧
      Stacked kernel loadAddr ((auxv false hdr progHdrs argv0 random).flatMap auxBytes ++ bs) st₄ := by
  have hlen : ∀ e, (auxBytes e).length = 8 := fun e => rfl
  obtain ⟨st₁, h₁, hs₁⟩ := hs.aux hb .null 0 (by omega)
  obtain ⟨st₂, h₂, hs₂⟩ := hs₁.aux hb .pagesz pageSize (by simp only [List.length_append, hlen]; omega)
  obtain ⟨st₃, h₃, hs₃⟩ := hs₂.aux hb .secure 0 (by simp only [List.length_append, hlen]; omega)
  obtain ⟨st₄, h₄, hs₄⟩ := hs₃.aux hb .random random (by simp only [List.length_append, hlen]; omega)
  exact ⟨st₁, st₂, st₃, st₄, h₁, h₂, h₃, h₄, hs₄⟩

lemma Stacked.writeAuxv (hs : Stacked kernel loadAddr bs st) (hb : StackBlock kernel loadAddr)
    (hdr : Elf32Ehdr) (argv0 random : ℕ)
    (hroom : 8 * auxCount hasInterpreter + bs.length ≤ 128 * 4096 - 4)
    (hfound : hasInterpreter → phdrRuntimeAddr progHdrs ≠ elf32AddrErr) : ∃ st',
      ELFLoader.writeAuxv kernel hasInterpreter hdr progHdrs argv0 random st = .ok st' ∧
      Stacked kernel loadAddr
        ((auxv hasInterpreter hdr progHdrs argv0 random).flatMap auxBytes ++ bs) st' := by
  obtain ⟨st₁, st₂, st₃, st₄, h₁, h₂, h₃, h₄, hs₄⟩ :=
    hs.commonAuxv hb hdr progHdrs argv0 random
      (by cases hasInterpreter <;> simp only [auxCount_true, auxCount_false] at hroom <;> omega)
  simp only [ELFLoader.writeAuxv, h₁, h₂, h₃, h₄, bind, Except.bind]
  cases hasInterpreter with
  | false => exact ⟨st₄, rfl, hs₄⟩
  | true =>
      have hlen : ∀ e, (auxBytes e).length = 8 := fun e => rfl
      have hfour : ((auxv false hdr progHdrs argv0 random).flatMap auxBytes).length = 32 := rfl
      rw [auxCount_true] at hroom
      obtain ⟨st₅, h₅, hs₅⟩ := hs₄.aux hb .phdr (phdrRuntimeAddr progHdrs)
        (by simp only [List.length_append, hfour]; omega)
      obtain ⟨st₆, h₆, hs₆⟩ := hs₅.aux hb .phent hdr.ePhentsize
        (by simp only [List.length_append, hlen, hfour]; omega)
      obtain ⟨st₇, h₇, hs₇⟩ := hs₆.aux hb .phnum hdr.ePhnum
        (by simp only [List.length_append, hlen, hfour]; omega)
      obtain ⟨st₈, h₈, hs₈⟩ := hs₇.aux hb .execfn argv0
        (by simp only [List.length_append, hlen, hfour]; omega)
      obtain ⟨st₉, h₉, hs₉⟩ := hs₈.aux hb .entry hdr.eEntry
        (by simp only [List.length_append, hlen, hfour]; omega)
      refine ⟨st₉, ?_, hs₉⟩
      refine (if_neg (by simp)).trans ((if_neg (hfound rfl)).trans ?_)
      simp only [h₅, h₆, h₇, h₈, h₉]

lemma Stacked.writeAuxv_fails (hs : Stacked kernel loadAddr bs st) (hb : StackBlock kernel loadAddr)
    (hdr : Elf32Ehdr) (argv0 random : ℕ)
    (hroom : 32 + bs.length ≤ 128 * 4096 - 4) (hmissing : phdrRuntimeAddr progHdrs = elf32AddrErr) :
    ELFLoader.writeAuxv kernel true hdr progHdrs argv0 random st =
      .error (.irrecoverableError "no PHDR found in program") := by
  obtain ⟨st₁, st₂, st₃, st₄, h₁, h₂, h₃, h₄, -⟩ :=
    hs.commonAuxv hb hdr progHdrs argv0 random hroom
  simp only [ELFLoader.writeAuxv, h₁, h₂, h₃, h₄, bind, Except.bind]
  exact (if_neg (by simp)).trans (if_pos hmissing)

/-! ## All of it -/

/-- The bytes that the arguments, the environment and the rest take on the stack. -/
def initialSize (hasInterpreter : Bool) (argv envp : List CString) : ℕ :=
  4 * (argv.length + envp.length + 3) + 8 * auxCount hasInterpreter + 16 +
    (contents envp).flatten.length + (contents argv).flatten.length

/-- What is below the contents, from the stack pointer on: `a` is where the arguments begin, and `b` where
the environment does. -/
def pieces (hasInterpreter : Bool) (hdr : Elf32Ehdr) (progHdrs : List Elf32Phdr) (rdtsc : ℕ → ℕ)
    (argv envp : List CString) (a b : ℕ) : List (List UInt8) :=
  [wordBytes argv.length, (starts a (contents argv) ++ [0]).flatMap wordBytes,
    (starts b (contents envp) ++ [0]).flatMap wordBytes,
    (auxv hasInterpreter hdr progHdrs a (b - 16)).flatMap auxBytes, randomBytes rdtsc]

lemma trimArgv_eq {argv : List (Option CString)} {args : List CString}
    (h : argv = args.map some ∨ argv = args.map some ++ [none]) : trimArgv argv = args.map some := by
  rcases h with rfl | rfl
  · rw [trimArgv]
    rcases args.eq_nil_or_concat' with rfl | ⟨args, s, rfl⟩
    · rfl
    · rw [List.map_append, List.map_singleton, List.getLast?_concat]
  · rw [trimArgv, List.getLast?_concat]
    exact List.dropLast_concat

lemma length_randomBytes (rdtsc : ℕ → ℕ) : (randomBytes rdtsc).length = 16 := rfl

section

variable {elf : ELF} {rdtsc : ℕ → ℕ} {argv : List (Option CString)} {args envp : List CString} {a b : ℕ}

lemma HasStack.writeContents (hs : HasStack kernel loadAddr l) (hb : StackBlock kernel loadAddr)
    (hroom : initialSize hasInterpreter args envp ≤ 128 * 4096 - 4)
    (ha : a + (contents args).flatten.length = 786432 * 4096 - 4)
    (hb' : b + (contents envp).flatten.length = a) (rdtsc : ℕ → ℕ) : ∃ l₁ l₂ st₃,
      args.foldrM (writeContent kernel) (stackEndRuntimeAddr, l) = .ok (a, l₁) ∧
      envp.foldrM (writeContent kernel) (a, l₁) = .ok (b, l₂) ∧
      writeToStack kernel (randomBytes rdtsc) (b, l₂) = .ok st₃ ∧ st₃.1 = b - 16 ∧
      Stacked kernel loadAddr
        (randomBytes rdtsc ++ ((contents envp).flatten ++ (contents args).flatten)) st₃ := by
  rw [initialSize] at hroom
  have hempty : Stacked kernel loadAddr [] (stackEndRuntimeAddr, l) := ⟨hs, rfl, by simp, lies_nil⟩
  obtain ⟨⟨top₁, l₁⟩, hrun₁, hs₁⟩ := hempty.contents hb args (by simp only [List.length_nil]; omega)
  rw [List.append_nil] at hs₁
  have htop₁ : top₁ + (contents args).flatten.length = 786432 * 4096 - 4 := hs₁.top
  obtain rfl : a = top₁ := by omega
  obtain ⟨⟨top₂, l₂⟩, hrun₂, hs₂⟩ := hs₁.contents hb envp (by omega)
  have htop₂ := hs₂.top
  rw [List.length_append] at htop₂
  obtain rfl : b = top₂ := by
    change top₂ + _ = _ at htop₂
    omega
  obtain ⟨st₃, hrun₃, hs₃⟩ := hs₂.write hb (randomBytes rdtsc)
    (by rw [List.length_append, length_randomBytes]; omega)
  refine ⟨l₁, l₂, st₃, hrun₁, hrun₂, hrun₃, ?_, hs₃⟩
  have htop₃ := hs₃.top
  rw [List.length_append, List.length_append, length_randomBytes] at htop₃
  omega

lemma foldrM_argument {σ : Type} (f : CString → σ → Except Fault σ) (args : List CString) (x : σ) :
    (args.map some).foldrM (fun arg x => do f (← argument arg) x) x = args.foldrM f x := by
  induction args with
  | nil => rfl
  | cons s args ih =>
      rw [List.map_cons, List.foldrM_cons, List.foldrM_cons, ih]
      rfl

lemma HasStack.writeArgsToStack (hs : HasStack kernel loadAddr l) (hb : StackBlock kernel loadAddr)
    (hroom : initialSize elf.hasInterpreter args envp ≤ 128 * 4096 - 4)
    (hargs : trimArgv argv = args.map some)
    (ha : a + (contents args).flatten.length = 786432 * 4096 - 4)
    (hb' : b + (contents envp).flatten.length = a)
    (hfound : elf.hasInterpreter → phdrRuntimeAddr progHdrs ≠ elf32AddrErr) : ∃ st,
      ELFLoader.writeArgsToStack kernel elf hdr progHdrs rdtsc argv envp l = .ok st ∧
      Stacked kernel loadAddr ((pieces elf.hasInterpreter hdr progHdrs rdtsc args envp a b).flatten ++
        ((contents envp).flatten ++ (contents args).flatten)) st := by
  obtain ⟨l₁, l₂, st₃, h₁, h₂, h₃, htop₃, hs₃⟩ :=
    hs.writeContents hb hroom ha hb' rdtsc
  rw [initialSize] at hroom
  obtain ⟨st₄, h₄, hs₄⟩ := hs₃.writeAuxv hb hdr a (b - 16)
    (by simp only [List.length_append, length_randomBytes]; omega) hfound
  have hlen₄ : ((auxv elf.hasInterpreter hdr progHdrs a (b - 16)).flatMap auxBytes ++
      (randomBytes rdtsc ++ ((contents envp).flatten ++ (contents args).flatten))).length =
        8 * auxCount elf.hasInterpreter + 16 + (contents envp).flatten.length +
          (contents args).flatten.length := by
    rw [List.length_append, length_flatMap_auxBytes, length_auxv, List.length_append, List.length_append,
      length_randomBytes]
    omega
  obtain ⟨st₅, h₅, hs₅⟩ := hs₄.write hb (wordBytes 0) (by rw [hlen₄, length_wordBytes]; omega)
  obtain ⟨st₆, h₆, hs₆⟩ := hs₅.pointers hb envp b
    (by rw [List.length_append, hlen₄, length_wordBytes]; omega) (by omega)
  obtain ⟨st₇, h₇, hs₇⟩ := hs₆.write hb (wordBytes 0) (by
    rw [List.length_append, List.length_append, hlen₄, length_wordBytes, length_flatMap_wordBytes,
      length_starts, length_contents]
    omega)
  obtain ⟨st₈, h₈, hs₈⟩ := hs₇.pointers hb args a (by
      rw [List.length_append, List.length_append, List.length_append, hlen₄, length_wordBytes,
        length_flatMap_wordBytes, length_starts, length_contents]
      omega) (by omega)
  obtain ⟨st₉, h₉, hs₉⟩ := hs₈.write hb (wordBytes args.length) (by
    rw [List.length_append, List.length_append, List.length_append, List.length_append, hlen₄,
      length_wordBytes, length_flatMap_wordBytes, length_flatMap_wordBytes, length_starts, length_starts,
      length_contents, length_contents, length_wordBytes]
    omega)
  refine ⟨st₉, ?_, ?_⟩
  · have hend : stackEndRuntimeAddr = a + (contents args).flatten.length := ha.symm
    rw [← hend] at h₈
    rw [hb'] at h₆
    rw [← List.length_map (f := some)] at h₉
    simp only [ELFLoader.writeArgsToStack, hargs, foldrM_argument]
    exact bind_eq_ok.mpr ⟨_, h₁, bind_eq_ok.mpr ⟨_, h₂, bind_eq_ok.mpr ⟨_, h₃, bind_eq_ok.mpr ⟨_,
      htop₃ ▸ h₄, bind_eq_ok.mpr ⟨_, h₅, bind_eq_ok.mpr ⟨_, h₆, bind_eq_ok.mpr ⟨_, h₇, bind_eq_ok.mpr ⟨_, h₈,
      h₉⟩⟩⟩⟩⟩⟩⟩⟩
  · simp only [pieces, List.flatten_cons, List.flatten_nil, List.append_nil, List.flatMap_append,
      List.flatMap_singleton, List.append_assoc]
    exact hs₉

lemma HasStack.writeArgsToStack_fails (hs : HasStack kernel loadAddr l) (hb : StackBlock kernel loadAddr)
    (hroom : initialSize true args envp ≤ 128 * 4096 - 4) (hargs : trimArgv argv = args.map some)
    (hinterpreter : elf.hasInterpreter = true) (hmissing : phdrRuntimeAddr progHdrs = elf32AddrErr) :
    ELFLoader.writeArgsToStack kernel elf hdr progHdrs rdtsc argv envp l =
      .error (.irrecoverableError "no PHDR found in program") := by
  have hsize := hroom
  rw [initialSize, auxCount_true] at hsize
  obtain ⟨a, ha⟩ : ∃ a, a + (contents args).flatten.length = 786432 * 4096 - 4 :=
    ⟨786432 * 4096 - 4 - (contents args).flatten.length, by omega⟩
  obtain ⟨b, hb'⟩ : ∃ b, b + (contents envp).flatten.length = a :=
    ⟨a - (contents envp).flatten.length, by omega⟩
  obtain ⟨l₁, l₂, st₃, h₁, h₂, h₃, -, hs₃⟩ := hs.writeContents hb hroom ha hb' rdtsc
  have h₄ := hs₃.writeAuxv_fails hb hdr a st₃.1
    (by simp only [List.length_append, length_randomBytes]; omega) hmissing
  simp only [ELFLoader.writeArgsToStack, hargs, foldrM_argument]
  simp only [h₁, h₂, h₃, hinterpreter, h₄, bind, Except.bind]

end

end ELFLoader

end BrebOS

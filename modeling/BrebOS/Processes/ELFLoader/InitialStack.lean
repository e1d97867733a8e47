import BrebOS.Processes.ELFLoader.Arguments
import BrebOS.Processes.ELFLoader.Image

/-!
# What a program finds on its stack

`write_args_to_stack` writes the contents first and computes the pointers to them later, from the lengths
alone.  `InitialStack` says what the program is to find at its stack pointer, as it reads its memory: the
number of its arguments, pointers to them, pointers to the environment, and the auxiliary vector.
-/

namespace BrebOS

open Memory ELFLoader

/-- The initial stack: `argvPtrs` and `envpPtrs` are the pointers that the program reads, `auxv` the vector,
and `random` where the random bytes are. -/
structure InitialStack (mem : ℕ → Option UInt8) (sp : ℕ) (argv envp : List CString)
    (argvPtrs envpPtrs : List ℕ) (auxv : List (AuxType × ℕ)) (random : ℕ) : Prop where
  argc : readWord mem sp = some argv.length
  argvTable : ∀ i < argv.length, readWord mem (sp + 4 + 4 * i) = argvPtrs[i]?
  argvEnd : readWord mem (sp + 4 + 4 * argv.length) = some 0
  args : List.Forall₂ (fun ptr s => Lies mem ptr s.bytes) argvPtrs argv
  envpTable : ∀ i < envp.length, readWord mem (sp + 4 + 4 * (argv.length + 1) + 4 * i) = envpPtrs[i]?
  envpEnd : readWord mem (sp + 4 + 4 * (argv.length + 1) + 4 * envp.length) = some 0
  env : List.Forall₂ (fun ptr s => Lies mem ptr s.bytes) envpPtrs envp
  auxvTable : ∀ i < auxv.length,
    readWord mem (sp + 4 + 4 * (argv.length + 1) + 4 * (envp.length + 1) + 8 * i) =
      auxv[i]?.map (·.1.num) ∧
    readWord mem (sp + 4 + 4 * (argv.length + 1) + 4 * (envp.length + 1) + 8 * i + 4) =
      auxv[i]?.map (u32 ·.2)
  auxvEnd : ∃ entries, auxv = entries ++ [(.null, 0)] ∧ ∀ e ∈ entries, e.1 ≠ .null
  apart : ((sp, 4) :: (sp + 4, 4 * (argv.length + 1)) ::
    (sp + 4 + 4 * (argv.length + 1), 4 * (envp.length + 1)) ::
    (sp + 4 + 4 * (argv.length + 1) + 4 * (envp.length + 1), 8 * auxv.length) :: (random, 16) ::
    (envpPtrs.zip (envp.map (·.strlen + 1)) ++ argvPtrs.zip (argv.map (·.strlen + 1)))).Pairwise EndsBefore
  inside : stackStartPageId * pageSize ≤ sp ∧
    ∀ x ∈ argvPtrs.zip (argv.map (·.strlen + 1)), x.1 + x.2 ≤ stackEndRuntimeAddr

namespace ELFLoader

variable {kernel : ℕ → Entry} {mmap : ℕ → ℕ} {l : ELFLoader} {loadAddr : ℕ} {st : ℕ × ELFLoader}
  {hasInterpreter : Bool} {hdr : Elf32Ehdr} {progHdrs : List Elf32Phdr} {rdtsc : ℕ → ℕ}
  {args envp : List CString} {a b : ℕ}

lemma contents_lengths (ss : List CString) : (contents ss).map List.length = ss.map (·.strlen + 1) := by
  rw [contents, List.map_map]
  exact List.map_congr_left fun s _ => s.length_bytes

lemma auxType_num_lt (type : AuxType) : type.num % 4294967296 = type.num := by cases type <;> rfl

lemma readAuxv {mem : ℕ → Option UInt8} : ∀ {es : List (AuxType × ℕ)} {p : ℕ},
    Lies mem p (es.flatMap auxBytes) → ∀ i < es.length,
      readWord mem (p + 8 * i) = es[i]?.map (·.1.num) ∧
      readWord mem (p + 8 * i + 4) = es[i]?.map (u32 ·.2) := by
  intro es
  induction es with
  | nil => simp
  | cons e es ih =>
      intro p h i hi
      rw [List.flatMap_cons, lies_append, auxBytes, lies_append] at h
      obtain ⟨⟨htype, hvalue⟩, hrest⟩ := h
      cases i with
      | zero =>
          rw [Nat.mul_zero, Nat.add_zero, htype.word, auxType_num_lt]
          exact ⟨rfl, hvalue.word⟩
      | succ i =>
          have hnext := ih hrest i (by simpa using hi)
          rw [List.length_append, length_wordBytes, length_wordBytes] at hnext
          rw [show p + 8 * (i + 1) = p + (4 + 4) + 8 * i by omega]
          exact hnext

lemma readPointers {mem : ℕ → Option UInt8} {ptrs : List ℕ} {p : ℕ}
    (h : Lies mem p ((ptrs ++ [0]).flatMap wordBytes)) (hlt : ∀ ptr ∈ ptrs, ptr < 4294967296) :
    (∀ i < ptrs.length, readWord mem (p + 4 * i) = ptrs[i]?) ∧
      readWord mem (p + 4 * ptrs.length) = some 0 := by
  have hwords := h.words
  refine ⟨fun i hi => ?_, ?_⟩
  · rw [hwords i (by rw [List.length_append]; omega), List.getElem?_append_left hi,
      List.getElem?_eq_getElem hi, Option.map_some, Nat.mod_eq_of_lt (hlt _ (List.getElem_mem hi))]
  · rw [hwords ptrs.length (by simp), List.getElem?_append_right le_rfl, Nat.sub_self]
    rfl

lemma initialStack_of_stacked (hs : Stacked kernel loadAddr
      ((pieces hasInterpreter hdr progHdrs rdtsc args envp a b).flatten ++
        ((contents envp).flatten ++ (contents args).flatten)) st)
    (ha : a + (contents args).flatten.length = 786432 * 4096 - 4)
    (hb' : b + (contents envp).flatten.length = a) :
    InitialStack st.2.read st.1 args envp (starts a (contents args)) (starts b (contents envp))
      (ELFLoader.auxv hasInterpreter hdr progHdrs a (b - 16)) (b - 16) := by
  have htop := hs.top
  have hroom := hs.room
  have hlies := hs.lies
  simp only [pieces, List.flatten_cons, List.flatten_nil, List.append_nil, List.append_assoc, lies_append,
    length_wordBytes, length_flatMap_wordBytes, length_flatMap_auxBytes, length_randomBytes, List.length_append,
    List.length_singleton, length_starts, length_contents] at htop hroom hlies
  obtain ⟨hargc, hargv, henvp, haux, -, henvs, hargs⟩ := hlies
  obtain ⟨sp, l'⟩ := st
  simp only at htop hargc hargv henvp haux henvs hargs ⊢
  have hsp : a < 4294967296 ∧ b < 4294967296 := by omega
  have hargvPtrs := readPointers hargv fun ptr hptr => by
    have := starts_le ptr hptr
    omega
  have henvpPtrs := readPointers henvp fun ptr hptr => by
    have := starts_le ptr hptr
    omega
  simp only [length_starts, length_contents] at hargvPtrs henvpPtrs
  have hforall : ∀ {c : ℕ} {ss : List CString}, Lies l'.read c (contents ss).flatten →
      List.Forall₂ (fun ptr s => Lies l'.read ptr (CString.bytes s)) (starts c (contents ss)) ss := by
    intro c ss h
    exact List.forall₂_map_right_iff.mp h.pieces
  constructor
  · rw [hargc.word, Nat.mod_eq_of_lt (by omega)]
  · exact hargvPtrs.1
  · exact hargvPtrs.2
  · apply hforall
    convert hargs using 1
    omega
  · exact henvpPtrs.1
  · exact henvpPtrs.2
  · apply hforall
    convert henvs using 1
    omega
  · exact readAuxv haux
  · cases hasInterpreter with
    | false => exact ⟨[(.random, b - 16), (.secure, 0), (.pagesz, pageSize)], rfl, by simp⟩
    | true =>
        exact ⟨[(.entry, hdr.eEntry), (.execfn, a), (.phnum, hdr.ePhnum), (.phent, hdr.ePhentsize),
          (.phdr, phdrRuntimeAddr progHdrs), (.random, b - 16), (.secure, 0), (.pagesz, pageSize)], rfl,
          by simp⟩
  · have hall := @endsBefore_stretches (pieces hasInterpreter hdr progHdrs rdtsc args envp a b ++
      (contents envp ++ contents args)) sp
    simp only [pieces, List.cons_append, List.nil_append, stretches_cons, stretches_append,
      length_wordBytes, length_flatMap_wordBytes, length_flatMap_auxBytes, length_randomBytes,
      List.length_append, List.length_singleton, length_starts, length_contents] at hall
    have hrandom : sp + 4 + 4 * (args.length + 1) + 4 * (envp.length + 1) +
        8 * (ELFLoader.auxv hasInterpreter hdr progHdrs a (b - 16)).length = b - 16 := by omega
    have hend : b - 16 + 16 = b := by omega
    rw [hrandom, hend, hb', stretches, stretches, contents_lengths, contents_lengths] at hall
    exact hall
  · refine ⟨?_, fun x hx => ?_⟩
    · simp only [stackStartPageId, userEntries, processStackNPages, pageSize]
      omega
    · rw [← contents_lengths] at hx
      have hin := (stretches_mem x hx).2
      change _ ≤ 786432 * 4096 - 4
      omega

end ELFLoader

/-- A program whose stack can hold its arguments and its environment starts with the initial stack: whatever
has been loaded, and whatever the headers of the program have become, `write_args_to_stack` ends.  It gives up
only on a program that has an interpreter, and no header for its headers. -/
theorem initialStack_right (kernel : ℕ → Entry) (mmap : ℕ → ℕ) (frames : ℕ → PageData) (f : ELFFile)
    (l l' : ELFLoader) (hdr : Elf32Ehdr) (progHdrs : List Elf32Phdr) (rdtsc : ℕ → ℕ)
    (argv : List (Option CString)) (args envp : List CString)
    (hload : loadElf kernel mmap f .executable { frames := frames } = .ok (true, l))
    (hblock : StackBlock kernel (mmap l.allocations.length))
    (hstacks : allocateStacks kernel mmap l = .ok l')
    (hargs : argv = args.map some ∨ argv = args.map some ++ [none])
    (hfits : initialSize f.elf.hasInterpreter args envp ≤ processStackNPages * pageSize - 4) :
    if f.elf.hasInterpreter = true ∧ phdrRuntimeAddr progHdrs = elf32AddrErr then
      writeArgsToStack kernel f.elf hdr progHdrs rdtsc argv envp l' =
        .error (.irrecoverableError "no PHDR found in program")
    else ∃ sp l'' argvPtrs envpPtrs auxv random,
      writeArgsToStack kernel f.elf hdr progHdrs rdtsc argv envp l' = .ok (sp, l'') ∧
      InitialStack l''.read sp args envp argvPtrs envpPtrs auxv random := by
  have hnone : Covered { frames := frames } := by
    intro a ha
    cases ha
  have hstack := HasStack.of_allocateStacks (hnone.loadElf hload) hblock hstacks
  have htrim := trimArgv_eq hargs
  have hroom : initialSize f.elf.hasInterpreter args envp ≤ 128 * 4096 - 4 := hfits
  split
  · next hmissing => exact hstack.writeArgsToStack_fails hblock (hmissing.1 ▸ hroom) htrim hmissing.1 hmissing.2
  · next hfound =>
    have hsize := hroom
    rw [initialSize] at hsize
    obtain ⟨a, ha⟩ : ∃ a, a + (contents args).flatten.length = 786432 * 4096 - 4 :=
      ⟨786432 * 4096 - 4 - (contents args).flatten.length, by omega⟩
    obtain ⟨b, hb⟩ : ∃ b, b + (contents envp).flatten.length = a :=
      ⟨a - (contents envp).flatten.length, by omega⟩
    obtain ⟨st, hrun, hst⟩ := hstack.writeArgsToStack hblock hroom htrim ha hb
      fun hinterpreter hmissing => hfound ⟨hinterpreter, hmissing⟩
    exact ⟨st.1, st.2, _, _, _, _, hrun, initialStack_of_stacked hst ha hb⟩

lemma allocateStack_ok {kernel : ℕ → Entry} {mmap : ℕ → ℕ} {l : ELFLoader} {page n : ℕ}
    (hne : mmap l.allocations.length ≠ 0) (hfree : ∀ i < n, page + i < userEntries ∧
      addrPage (mmap l.allocations.length) + i < numFrames ∧ l.pageTables (page + i) = {}) :
    ∃ l', allocateStack kernel mmap page n l = .ok l' := by
  have hloop : ∀ k ≤ n, ∃ tables, (List.range k).foldlM
      (mapWindowPage "Process kernel stack page entry is not empty" false page
        (addrPage (mmap l.allocations.length)) kernel) l.pageTables = .ok tables := by
    intro k
    induction k with
    | zero => exact fun _ => ⟨_, rfl⟩
    | succ k ih =>
        intro hk
        obtain ⟨hpage, hwindow, hempty⟩ := hfree k (by omega)
        obtain ⟨tables, hrun⟩ := ih (by omega)
        have hsame := (mapWindowPages_inv _ hrun).2.2 (page + k) (Or.inr le_rfl)
        rw [List.range_succ, List.foldlM_append]
        refine ⟨_, bind_eq_ok.mpr ⟨tables, hrun, bind_eq_ok.mpr
          ⟨_, (if_neg (by omega)).trans (if_neg ?_), rfl⟩⟩⟩
        rw [hsame, hempty]
        simp
  obtain ⟨tables, hrun⟩ := hloop n le_rfl
  exact ⟨_, (if_neg hne).trans (bind_eq_ok.mpr ⟨tables, hrun, rfl⟩)⟩

/-- Every page of the kernel is mapped to the frame with its number, and open to the user. -/
def userTables (page : ℕ) : Entry := ⟨page, { present := true, write := true, user := true }⟩

/-- Blocks of 256 pages. -/
def farBlocks (k : ℕ) : ℕ := 4096 * 256 * (k + 1)

lemma addrPage_farBlocks (k : ℕ) : addrPage (farBlocks k) = 256 * (k + 1) := by
  simp only [farBlocks, addrPage]
  omega

lemma handed_farBlocks {p : Placed} {k : ℕ} (hk : k < 2) (hp : p.loadAddr = farBlocks k)
    (hpages : p.hdr.numPages ≤ 128) : p.Handed userTables := by
  refine ⟨?_, ?_, ?_, fun _ _ => rfl, fun _ _ => rfl, fun i _ j _ heq => ?_⟩
  · rw [hp]
    simp [farBlocks]
  · rw [hp]
    simp only [farBlocks, pageSize]
    omega
  · rw [hp, addrPage_farBlocks, numFrames]
    omega
  · simpa [Placed.frame, userTables] using heq

lemma oneByte_loaded : ∃ l, loadElf userTables farBlocks (.alone (oneSegment 4096 1 [7])) .executable
      { frames := fun _ _ => 0 } = .ok (true, l) ∧ l.allocations.length = 1 ∧
      ∀ page, page ≠ 1 → l.pageTables page = {} := by
  have hfiles : (ELFFile.alone (oneSegment 4096 1 [7])).loaded .executable 0 = [(0, oneSegment 4096 1 [7])] :=
    if_pos (by decide)
  have hplace : placeFiles farBlocks 0 [(0, oneSegment 4096 1 [7])] =
      [⟨0, ⟨ptLoad, 0, 4096, 1, 1, 2⟩, [7], farBlocks 0⟩] := rfl
  have hload := @Loaded.loadElf userTables farBlocks (.alone (oneSegment 4096 1 [7])) .executable []
    { frames := fun _ _ => 0 } (loaded_nil _)
  simp only [hfiles, List.length_nil, hplace, List.nil_append] at hload
  obtain ⟨hload, -⟩ := hload
    (fun x hx => List.mem_singleton.mp hx ▸ oneSegment_loadable (by decide) (by decide))
    (fun q hq => List.mem_singleton.mp hq ▸ handed_farBlocks (by decide) rfl (by decide))
    (List.pairwise_singleton ..)
  obtain ⟨done, l, hrun, hl⟩ := hload fun x hx h hh => by
    obtain rfl := List.mem_singleton.mp hx
    obtain rfl := List.mem_singleton.mp hh
    exact ⟨fun _ => by decide, by decide⟩
  have hdone : done = true := by
    rw [loadElf, if_neg (by decide)] at hrun
    obtain ⟨_, -, hend⟩ := bind_eq_ok.mp hrun
    cases hend
    rfl
  refine ⟨l, hdone ▸ hrun, ?_, fun page hpage => hl.mapped.free page fun p hp i hi => ?_⟩
  · rw [hl.mapped.allocations]
    rfl
  · obtain rfl := List.mem_singleton.mp hp
    change i < 1 at hi
    change 1 + i ≠ page
    omega

/-- `ls -l`, with one variable in the environment. -/
theorem initialStack_right_ls : ∃ l l',
    loadElf userTables farBlocks (.alone (oneSegment 4096 1 [7])) .executable
      { frames := fun _ _ => 0 } = .ok (true, l) ∧
    allocateStacks userTables farBlocks l = .ok l' ∧
    ∃ sp l'' argvPtrs envpPtrs auxv random,
      writeArgsToStack userTables (oneSegment 4096 1 [7]) ⟨4096, 32, 1⟩ [] (fun _ => 0)
        [some ⟨[0x6c, 0x73], by decide⟩, some ⟨[0x2d, 0x6c], by decide⟩, none]
        [⟨[0x41, 0x3d, 0x42], by decide⟩] l' = .ok (sp, l'') ∧
      InitialStack l''.read sp [⟨[0x6c, 0x73], by decide⟩, ⟨[0x2d, 0x6c], by decide⟩]
        [⟨[0x41, 0x3d, 0x42], by decide⟩] argvPtrs envpPtrs auxv random := by
  obtain ⟨l, hload, hlen, hfree⟩ := oneByte_loaded
  have hpages : ∀ k < 3, ∀ i < 128, addrPage (farBlocks k) + i < numFrames := by
    intro k hk i hi
    rw [addrPage_farBlocks, numFrames]
    omega
  obtain ⟨l₁, hstack⟩ := @allocateStack_ok userTables farBlocks l stackStartPageId processStackNPages
    (by simp [farBlocks]) (by
      rw [hlen]
      intro i hi
      change i < 128 at hi
      have hpage : stackStartPageId + i = 786304 + i := rfl
      exact ⟨by rw [hpage, userEntries]; omega, hpages 1 (by decide) i hi, hfree _ (by omega)⟩)
  obtain ⟨halloc, -, hsame⟩ := allocateStack_inv hstack
  obtain ⟨l', hkstack⟩ := @allocateStack_ok userTables farBlocks l₁ kstackStartPageId
    processSyscallStackNPages (by simp [farBlocks]) (by
      rw [halloc, List.length_append, hlen]
      intro i hi
      change i < 2 at hi
      have hpage : kstackStartPageId + i = 786302 + i := rfl
      refine ⟨by rw [hpage, userEntries]; omega, hpages 2 (by decide) i (by omega), ?_⟩
      rw [hsame _ (Or.inl (by rw [hpage]; change _ < 786304; omega)), hfree _ (by omega)])
  have hstacks : allocateStacks userTables farBlocks l = .ok l' := bind_eq_ok.mpr ⟨l₁, hstack, hkstack⟩
  have hblock : StackBlock userTables (farBlocks l.allocations.length) :=
    ⟨handed_farBlocks (k := 1) (by decide) (by rw [hlen]; rfl) (by rw [stack_numPages]), fun _ _ => rfl⟩
  exact ⟨l, l', hload, hstacks, initialStack_right userTables farBlocks (fun _ _ => 0)
    (.alone (oneSegment 4096 1 [7])) l l' ⟨4096, 32, 1⟩ [] (fun _ => 0) _ _ _ hload hblock hstacks
    (Or.inr rfl) (by decide)⟩

end BrebOS

import BrebOS.Core.Defs

/-!
# ELF files

What of `processes/ELF.cpp` decides whether a file is loaded, and how many pages it spans.  A file is taken
apart already: its headers are records, and an offset is a place in its bytes.
-/

namespace BrebOS

/-- `Elf32_Phdr`. -/
structure Elf32Phdr where
  pType : ℕ
  pOffset : ℕ
  pVaddr : ℕ
  pFilesz : ℕ
  pMemsz : ℕ
  pFlags : ℕ
  deriving DecidableEq, Repr

/-- `ELF_type`. -/
inductive ELFType
  | executable
  | sharedObject
  | relocatable
  deriving DecidableEq, Repr

/-- `ELF`, and the bytes of the file.  The first section header is read even if there is none;
`dynTable` and `runtimeGotAddr` tell whether these were found. -/
structure ELF where
  eIdent : List UInt8
  eType : ℕ
  firstSection : ℕ
  sections : List ℕ
  progHdrs : List Elf32Phdr
  dynTable : Bool
  runtimeGotAddr : Bool
  bytes : List UInt8
  deriving DecidableEq, Repr

/-- `PT_LOAD`. -/
def ptLoad : ℕ := 1

/-- `PT_INTERP`. -/
def ptInterp : ℕ := 3

/-- `SHT_NULL`. -/
def shtNull : ℕ := 0

/-- `supported_phdr_types`. -/
def supportedPhdrTypes : List ℕ := [ptLoad, ptInterp, 7, 0x6474e550, 0x6474e551, 2, 6]

/-- The section types that `is_valid` takes. -/
def supportedSections : List ℕ :=
  [shtNull, 1, 8, 2, 3, 11, 5, 0x6ffffff6, 9, 6, 14, 15, 0x6fffffff, 0x6ffffffe, 0x6ffffffd]

/-- `ET_EXEC`, `ET_DYN` and `ET_REL`. -/
def ELFType.eType : ELFType → ℕ
  | executable => 2
  | sharedObject => 3
  | relocatable => 1

namespace Elf32Phdr

/-- `p_type == PT_LOAD`. -/
def isLoad (h : Elf32Phdr) : Bool := h.pType == ptLoad

/-- `p_flags & PF_W`. -/
def write (h : Elf32Phdr) : Bool := h.pFlags.testBit 1

/-- `segment_num_pages`. -/
def numPages (h : Elf32Phdr) : ℕ := addrPage (u32 (h.pMemsz + pageSize - 1))

end Elf32Phdr

namespace ELF

/-- The headers that the loops of the loader do not pass over. -/
def loads (e : ELF) : List Elf32Phdr := e.progHdrs.filter Elf32Phdr.isLoad

/-- `ELF::get_highest_runtime_addr`. -/
def getHighestRuntimeAddr (e : ELF) : ℕ :=
  e.loads.foldl (fun highest h => max highest (u32 (h.pVaddr + h.pMemsz))) 0

lemma le_foldl_max (f : Elf32Phdr → ℕ) (hs : List Elf32Phdr) : ∀ m : ℕ,
    m ≤ hs.foldl (fun m h => max m (f h)) m ∧ ∀ h ∈ hs, f h ≤ hs.foldl (fun m h => max m (f h)) m := by
  induction hs with
  | nil => simp
  | cons h hs ih =>
    intro m
    obtain ⟨hm, hall⟩ := ih (max m (f h))
    refine ⟨(le_max_left _ _).trans hm, fun h' hh' => ?_⟩
    rcases List.mem_cons.mp hh' with rfl | hh'
    · exact (le_max_right _ _).trans hm
    · exact hall h' hh'

lemma foldl_max_le {f : Elf32Phdr → ℕ} {b : ℕ} {hs : List Elf32Phdr} : ∀ {m : ℕ}, m ≤ b →
    (∀ h ∈ hs, f h ≤ b) → hs.foldl (fun m h => max m (f h)) m ≤ b := by
  induction hs with
  | nil => exact fun hm _ => hm
  | cons h hs ih =>
    intro m hm hall
    exact ih (max_le hm (hall h List.mem_cons_self)) fun h' hh' => hall h' (List.mem_cons_of_mem _ hh')

lemma u32_le_getHighestRuntimeAddr {e : ELF} {h : Elf32Phdr} (hh : h ∈ e.loads) :
    u32 (h.pVaddr + h.pMemsz) ≤ e.getHighestRuntimeAddr :=
  (le_foldl_max (fun h => u32 (h.pVaddr + h.pMemsz)) e.loads 0).2 h hh

lemma getHighestRuntimeAddr_le {e : ELF} {b : ℕ} (hall : ∀ h ∈ e.loads, u32 (h.pVaddr + h.pMemsz) ≤ b) :
    e.getHighestRuntimeAddr ≤ b :=
  foldl_max_le (Nat.zero_le b) hall

/-- `ELF::num_pages`. -/
def numPages (e : ELF) : ℕ := addrPage (u32 (e.getHighestRuntimeAddr + pageSize - 1))

/-- `ELF::base_address`. -/
def baseAddress (e : ELF) : ℕ :=
  addrPage (e.loads.foldl (fun lowest h => min lowest h.pVaddr) 4294967295) * pageSize

/-- `interpreter_name` is set. -/
def hasInterpreter (e : ELF) : Bool := e.progHdrs.any fun h => h.pType == ptInterp

/-- The pages of a segment, in the check of `is_valid`: none when a read-only page is to be written to. -/
def checkPages (roPages : ℕ → Bool) (h : Elf32Phdr) : Option (ℕ → Bool) :=
  (List.range h.numPages).foldlM (fun roPages j =>
    let pageId := addrPage h.pVaddr + j
    if h.write then if roPages pageId then none else some roPages
    else some (Function.update roPages pageId true)) roPages

/-- `ELF::is_valid`; the caller tells whether the interpreter is there. -/
def isValid (e : ELF) (interpreterFound : Bool) (expectedType : ELFType) : Bool :=
  e.eIdent.take 5 == [0x7F, 0x45, 0x4C, 0x46, 1] && e.eType == expectedType.eType &&
    e.firstSection == shtNull && e.sections.all (supportedSections.contains ·) &&
    !e.progHdrs.isEmpty && e.progHdrs.all (supportedPhdrTypes.contains ·.pType) &&
    (e.loads.foldlM checkPages fun _ => false).isSome && e.baseAddress != 4294967295 &&
    (!e.hasInterpreter || e.dynTable && interpreterFound && e.runtimeGotAddr)

end ELF

/-- A file, with the file that its `PT_INTERP` names. -/
inductive ELFFile
  | alone (elf : ELF)
  | withInterpreter (elf : ELF) (interpreter : ELFFile)

namespace ELFFile

def elf : ELFFile → ELF
  | alone elf => elf
  | withInterpreter elf _ => elf

/-- The file is taken, if it is read where this type is expected. -/
def isValid (expectedType : ELFType) : ELFFile → Bool
  | alone elf => elf.isValid false expectedType
  | withInterpreter elf _ => elf.isValid true expectedType

end ELFFile

end BrebOS

import Mathlib.Data.Finset.Sort
import Mathlib.Order.Interval.Finset.Nat

/-!
# `elf_to_memh.py`

The script that turns an ELF executable into the text with which the simulation fills the memory.
Files are lists of bytes, and Python's integers are unbounded. `base` and `size` are checked to be
non-negative by `main`. The size is one that a `bytearray` can have, below `2 ^ 63`: for a larger
one the interpreter raises its own error, which is not modelled.

* `loadElf`: the memory image and the words that some segment touches;
* `writeMemh`: the text for them.
-/

namespace Rv32im

namespace ElfToMemh

/-! ### Python -/

/-- What `load_elf` can raise: its own exception, and those of `struct` and of an index. -/
inductive LoadError
  | elfError (message : String)
  | structError
  | indexError
deriving DecidableEq, Repr

/-- `data[start : stop]`. -/
def slice {α : Type} (data : List α) (start stop : ℕ) : List α := (data.take stop).drop start

/-- `memory[start : stop] = data`, which changes the length if the data has another one. -/
def assignSlice {α : Type} (memory : List α) (start stop : ℕ) (data : List α) : List α :=
  memory.take start ++ data ++ memory.drop (max start stop)

/-- `data[i]`. -/
def index {α : Type} (data : List α) (i : ℕ) : Except LoadError α :=
  match data[i]? with
  | some b => .ok b
  | none => .error .indexError

/-- `int.from_bytes(data, "little")`. -/
def fromBytes (data : List (BitVec 8)) : ℕ := data.foldr (fun b n => b.toNat + 256 * n) 0

/-- `format(n, "x")`. -/
def hex (n : ℕ) : List Char := Nat.toDigits 16 n

/-- `format(n, "08x")`. -/
def hex08 (n : ℕ) : List Char := (hex n).leftpad 8 '0'

/-- `if c: raise ElfError(message)`. -/
def raiseIf (c : Prop) [Decidable c] (message : String) : Except LoadError Unit :=
  if c then .error (.elfError message) else .ok ()

/-- An element of a slice. -/
theorem getElem?_slice {α : Type} (data : List α) (start stop x : ℕ) :
    (slice data start stop)[x]? = if start + x < stop then data[start + x]? else none := by
  rw [slice, List.getElem?_drop, List.getElem?_take]

theorem length_slice {α : Type} (data : List α) (start stop : ℕ) :
    (slice data start stop).length = min stop data.length - start := by
  rw [slice, List.length_drop, List.length_take]

/-- An index in range raises nothing. -/
theorem index_of_some {α : Type} {data : List α} {i : ℕ} {b : α} (h : data[i]? = some b) :
    index data i = .ok b := by
  rw [index, h]

/-- A slice of the same length is replaced in place. -/
theorem getElem?_assignSlice {α : Type} {memory data : List α} {start stop : ℕ}
    (hdata : data.length = stop - start) (hle : start ≤ stop) (hstop : stop ≤ memory.length)
    (x : ℕ) : (assignSlice memory start stop data)[x]? =
      if start ≤ x ∧ x < stop then data[x - start]? else memory[x]? := by
  have htake : (memory.take start).length = start := by rw [List.length_take]; omega
  rw [assignSlice, Nat.max_eq_right hle, List.append_assoc]
  by_cases hlo : x < start
  · rw [List.getElem?_append_left (by omega), List.getElem?_take, if_pos hlo, if_neg (by omega)]
  · rw [List.getElem?_append_right (by omega), htake]
    by_cases hhi : x < stop
    · rw [List.getElem?_append_left (by omega), if_pos ⟨not_lt.mp hlo, hhi⟩]
    · rw [List.getElem?_append_right (by omega), List.getElem?_drop, if_neg (by omega), hdata]
      congr 1
      omega

/-! ### The headers -/

/-- `ELF_HEADER.size`. -/
def elfHeaderSize : ℕ := 52

/-- `PROGRAM_HEADER.size`. -/
def programHeaderSize : ℕ := 32

/-- `PT_LOAD`. -/
def ptLoad : ℕ := 1

/-- `EM_RISCV`. -/
def emRiscv : ℕ := 243

/-- The fields of the ELF header that `load_elf` unpacks. -/
structure ElfHeader where
  ident : List (BitVec 8)
  eType : ℕ
  eMachine : ℕ
  eVersion : ℕ
  eEntry : ℕ
  ePhoff : ℕ
  eShoff : ℕ
  eFlags : ℕ
  eEhsize : ℕ
  ePhentsize : ℕ
  ePhnum : ℕ
deriving DecidableEq, Repr

/-- The fields of a program header that `load_elf` unpacks. -/
structure ProgramHeader where
  pType : ℕ
  pOffset : ℕ
  pVaddr : ℕ
  pPaddr : ℕ
  pFilesz : ℕ
  pMemsz : ℕ
deriving DecidableEq, Repr

/-- The two bytes from `offset` on. -/
def half (raw : List (BitVec 8)) (offset : ℕ) : ℕ := fromBytes (slice raw offset (offset + 2))

/-- The four bytes from `offset` on. -/
def word (raw : List (BitVec 8)) (offset : ℕ) : ℕ := fromBytes (slice raw offset (offset + 4))

/-- The header `"<16sHHIIIIIHHHHHH"` at the start of the file. -/
def ElfHeader.decode (raw : List (BitVec 8)) : ElfHeader where
  ident := slice raw 0 16
  eType := half raw 16
  eMachine := half raw 18
  eVersion := word raw 20
  eEntry := word raw 24
  ePhoff := word raw 28
  eShoff := word raw 32
  eFlags := word raw 36
  eEhsize := half raw 40
  ePhentsize := half raw 42
  ePhnum := half raw 44

/-- The header `"<IIIIIIII"` at an offset. -/
def ProgramHeader.decode (raw : List (BitVec 8)) (offset : ℕ) : ProgramHeader where
  pType := word raw offset
  pOffset := word raw (offset + 4)
  pVaddr := word raw (offset + 8)
  pPaddr := word raw (offset + 12)
  pFilesz := word raw (offset + 16)
  pMemsz := word raw (offset + 20)

/-- `ELF_HEADER.unpack_from(raw)`. -/
def ElfHeader.unpackFrom (raw : List (BitVec 8)) : Except LoadError ElfHeader :=
  if elfHeaderSize ≤ raw.length then .ok (.decode raw) else .error .structError

/-- `PROGRAM_HEADER.unpack_from(raw, offset)`. -/
def ProgramHeader.unpackFrom (raw : List (BitVec 8)) (offset : ℕ) :
    Except LoadError ProgramHeader :=
  if offset + programHeaderSize ≤ raw.length then .ok (.decode raw offset) else .error .structError

/-! ### `load_elf` -/

/-- The variables of the loop. -/
structure LoadState where
  memory : List (BitVec 8)
  touchedWords : Finset ℕ
  loadCount : ℕ

variable (raw : List (BitVec 8)) (base size : ℕ)

/-- The part of `load_elf` before the loop. -/
def loadHeader : Except LoadError ElfHeader := do
  raiseIf (raw.length < elfHeaderSize) "file is shorter than an ELF32 header"
  let header ← ElfHeader.unpackFrom raw
  let ident := header.ident
  raiseIf (slice ident 0 4 ≠ [0x7f#8, 0x45#8, 0x4c#8, 0x46#8]) "not an ELF file"
  let eiClass ← index ident 4
  let eiData ← index ident 5
  let eiVersion ← index ident 6
  raiseIf (eiClass ≠ 1#8 ∨ eiData ≠ 1#8 ∨ eiVersion ≠ 1#8)
    "ACT4 requires ELF32, little-endian, version 1"
  raiseIf (header.eType ≠ 2) s!"expected ET_EXEC (2), found e_type={header.eType}"
  raiseIf (header.eMachine ≠ emRiscv) s!"expected EM_RISCV ({emRiscv}), found {header.eMachine}"
  raiseIf (header.eEntry ≠ base)
    (s!"entry point 0x{String.ofList (hex08 header.eEntry)} does not match TCM base " ++
      s!"0x{String.ofList (hex08 base)}")
  raiseIf (header.ePhentsize < programHeaderSize)
    s!"program-header size {header.ePhentsize} is too small"
  raiseIf (header.ePhoff + header.ePhentsize * header.ePhnum > raw.length)
    "program-header table extends beyond end of file"
  return header

/-- The copy of a segment and the words that it touches. -/
def LoadState.load (s : LoadState) (f : ProgramHeader) : LoadState :=
  let start := f.pPaddr - base
  { memory := assignSlice s.memory start (start + f.pFilesz)
      (slice raw f.pOffset (f.pOffset + f.pFilesz))
    touchedWords :=
      if f.pMemsz ≠ 0 then
        s.touchedWords ∪ Finset.Ico (start / 4) ((start + f.pMemsz - 1) / 4 + 1)
      else s.touchedWords
    loadCount := s.loadCount + 1 }

/-- An iteration of the loop. -/
def loadEntry (header : ElfHeader) (s : LoadState) (index : ℕ) : Except LoadError LoadState := do
  let offset := header.ePhoff + index * header.ePhentsize
  let f ← ProgramHeader.unpackFrom raw offset
  if f.pType ≠ ptLoad then
    return s
  else
    let address := f.pPaddr
    raiseIf (f.pFilesz > f.pMemsz) s!"PT_LOAD[{index}] has p_filesz > p_memsz"
    raiseIf (f.pOffset + f.pFilesz > raw.length)
      s!"PT_LOAD[{index}] data extends beyond end of file"
    raiseIf (address < base ∨ address + f.pMemsz > base + size)
      (s!"PT_LOAD[{index}] 0x{String.ofList (hex08 address)}.." ++
        s!"0x{String.ofList (hex08 (address + f.pMemsz))} is outside TCM " ++
        s!"0x{String.ofList (hex08 base)}..0x{String.ofList (hex08 (base + size))}")
    let s := s.load raw base f
    -- the segment is copied before this last check
    raiseIf (f.pVaddr ≠ f.pPaddr)
      (s!"PT_LOAD[{index}] has different virtual/physical addresses " ++
        s!"0x{String.ofList (hex08 f.pVaddr)}/0x{String.ofList (hex08 f.pPaddr)}")
    return s

/-- `load_elf`. -/
def loadElf : Except LoadError (List (BitVec 8) × Finset ℕ) := do
  let header ← loadHeader raw base
  let s ← (List.range header.ePhnum).foldlM (loadEntry raw base size header)
    { memory := List.replicate size 0#8, touchedWords := ∅, loadCount := 0 }
  raiseIf (s.loadCount = 0) "ELF has no PT_LOAD segment"
  return (s.memory, s.touchedWords)

/-! ### `write_memh` -/

/-- The lines of `write_memh` for the words that follow `previous` in the sorted list. -/
def memhLines (memory : List (BitVec 8)) : ℤ → List ℕ → List Char
  | _, [] => []
  | previous, wordIndex :: ws =>
    let start := wordIndex * 4
    (if (wordIndex : ℤ) ≠ previous + 1 then '@' :: hex wordIndex ++ ['\n'] else []) ++
      hex08 (fromBytes (slice memory start (start + 4))) ++ ['\n'] ++
      memhLines memory wordIndex ws

/-- The first line of the file. -/
def memhComment : List Char :=
  "// ELF32 little-endian PT_LOAD image; addresses are word indices\n".toList

/-- `write_memh`: the text of the file. -/
def writeMemh (memory : List (BitVec 8)) (touchedWords : Finset ℕ) : List Char :=
  memhComment ++ memhLines memory (-2) (touchedWords.sort (· ≤ ·))

end ElfToMemh

end Rv32im

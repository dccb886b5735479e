import Mathlib.Algebra.Group.Int.Defs
import Mathlib.Algebra.Group.Nat.Defs
import Mathlib.Data.List.Basic
import Mathlib.Tactic.Common

/-!
# The instruction formats of RV32IM and Zicsr

The instructions of the RISC-V unprivileged base with the `M` and `Zicsr` extensions and the
privileged `MRET` and `WFI`, as syntax, and their 32-bit encodings in the six formats of the
manual. Immediates are kept as the instruction states them: branch and jump offsets in units of
two bytes, upper immediates in units of `2 ^ 12`.

* `rType`, `iType`, `sType`, `bType`, `uType`, `jType`: the formats;
* `Instr`, `Instr.encode`: the instructions and their encodings;
* `Instr.readsRs1`, `Instr.readsRs2`, `Instr.writesRd`: the registers an instruction uses;
* `opcode_rType`, …, `rType_fields`: the fields of a word, and a word from its fields.
-/

namespace Riscv

/-! ### Formats -/

section Formats

variable (opcode : BitVec 7) (rd : BitVec 5) (funct3 : BitVec 3) (rs1 rs2 : BitVec 5)
  (funct7 : BitVec 7)

/-- The format of the operations on two registers. -/
def rType : BitVec 32 := funct7 ++ rs2 ++ rs1 ++ funct3 ++ rd ++ opcode

/-- The format with a twelve-bit immediate. -/
def iType (imm : BitVec 12) : BitVec 32 := imm ++ rs1 ++ funct3 ++ rd ++ opcode

/-- The format of the stores, whose immediate is split. -/
def sType (imm : BitVec 12) : BitVec 32 :=
  imm.extractLsb 11 5 ++ rs2 ++ rs1 ++ funct3 ++ imm.extractLsb 4 0 ++ opcode

/-- `offset` is `imm[12:1]` of the manual. -/
def bType (offset : BitVec 12) : BitVec 32 :=
  offset.extractLsb 11 11 ++ offset.extractLsb 9 4 ++ rs2 ++ rs1 ++ funct3
    ++ offset.extractLsb 3 0 ++ offset.extractLsb 10 10 ++ opcode

/-- `imm` is `imm[31:12]` of the manual. -/
def uType (imm : BitVec 20) : BitVec 32 := imm ++ rd ++ opcode

/-- `offset` is `imm[20:1]` of the manual. -/
def jType (offset : BitVec 20) : BitVec 32 :=
  offset.extractLsb 19 19 ++ offset.extractLsb 9 0 ++ offset.extractLsb 10 10
    ++ offset.extractLsb 18 11 ++ rd ++ opcode

end Formats

/-! ### Instructions -/

/-- The conditions of the branches. -/
inductive BranchOp
  | beq | bne | blt | bge | bltu | bgeu
deriving DecidableEq, Repr

/-- The loads, by size and extension. -/
inductive LoadOp
  | lb | lh | lw | lbu | lhu
deriving DecidableEq, Repr

/-- The stores, by size. -/
inductive StoreOp
  | sb | sh | sw
deriving DecidableEq, Repr

/-- The operations with a twelve-bit immediate. -/
inductive ImmOp
  | addi | slti | sltiu | xori | ori | andi
deriving DecidableEq, Repr

/-- The shifts by an immediate. -/
inductive ShiftOp
  | slli | srli | srai
deriving DecidableEq, Repr

/-- The operations on two registers. -/
inductive RegOp
  | add | sub | sll | slt | sltu | xor | srl | sra | or | and
deriving DecidableEq, Repr

/-- The operations of the M extension. -/
inductive MulDivOp
  | mul | mulh | mulhsu | mulhu | div | divu | rem | remu
deriving DecidableEq, Repr

/-- The three CSR operations; each has a register and an immediate form. -/
inductive CsrOp
  | rw | rs | rc
deriving DecidableEq, Repr

/-- An instruction with its operands. `FENCE` keeps the fields that do not select it. -/
inductive Instr
  | lui (rd : BitVec 5) (imm : BitVec 20)
  | auipc (rd : BitVec 5) (imm : BitVec 20)
  | jal (rd : BitVec 5) (offset : BitVec 20)
  | jalr (rd rs1 : BitVec 5) (imm : BitVec 12)
  | branch (op : BranchOp) (rs1 rs2 : BitVec 5) (offset : BitVec 12)
  | load (op : LoadOp) (rd rs1 : BitVec 5) (imm : BitVec 12)
  | store (op : StoreOp) (rs1 rs2 : BitVec 5) (imm : BitVec 12)
  | opImm (op : ImmOp) (rd rs1 : BitVec 5) (imm : BitVec 12)
  | shiftImm (op : ShiftOp) (rd rs1 shamt : BitVec 5)
  | reg (op : RegOp) (rd rs1 rs2 : BitVec 5)
  | mulDiv (op : MulDivOp) (rd rs1 rs2 : BitVec 5)
  | fence (rd rs1 : BitVec 5) (imm : BitVec 12)
  | csr (op : CsrOp) (rd rs1 : BitVec 5) (num : BitVec 12)
  | csrImm (op : CsrOp) (rd zimm : BitVec 5) (num : BitVec 12)
  | ecall
  | ebreak
  | mret
  | wfi
deriving DecidableEq, Repr

/-! ### Encodings -/

/-- The minor opcode of a branch. -/
def BranchOp.funct3 : BranchOp → BitVec 3
  | .beq => 0b000#3 | .bne => 0b001#3 | .blt => 0b100#3
  | .bge => 0b101#3 | .bltu => 0b110#3 | .bgeu => 0b111#3

/-- The minor opcode of a load. -/
def LoadOp.funct3 : LoadOp → BitVec 3
  | .lb => 0b000#3 | .lh => 0b001#3 | .lw => 0b010#3 | .lbu => 0b100#3 | .lhu => 0b101#3

/-- The minor opcode of a store. -/
def StoreOp.funct3 : StoreOp → BitVec 3
  | .sb => 0b000#3 | .sh => 0b001#3 | .sw => 0b010#3

/-- The minor opcode of an operation with an immediate. -/
def ImmOp.funct3 : ImmOp → BitVec 3
  | .addi => 0b000#3 | .slti => 0b010#3 | .sltiu => 0b011#3
  | .xori => 0b100#3 | .ori => 0b110#3 | .andi => 0b111#3

/-- The minor opcode of a shift by an immediate. -/
def ShiftOp.funct3 : ShiftOp → BitVec 3
  | .slli => 0b001#3 | .srli => 0b101#3 | .srai => 0b101#3

/-- The upper immediate bits, which tell the right shifts apart. -/
def ShiftOp.funct7 : ShiftOp → BitVec 7
  | .slli => 0b0000000#7 | .srli => 0b0000000#7 | .srai => 0b0100000#7

/-- The minor opcode of an operation on registers. -/
def RegOp.funct3 : RegOp → BitVec 3
  | .add => 0b000#3 | .sub => 0b000#3 | .sll => 0b001#3 | .slt => 0b010#3 | .sltu => 0b011#3
  | .xor => 0b100#3 | .srl => 0b101#3 | .sra => 0b101#3 | .or => 0b110#3 | .and => 0b111#3

/-- The upper bits, which select subtraction and the arithmetic shift. -/
def RegOp.funct7 : RegOp → BitVec 7
  | .sub => 0b0100000#7 | .sra => 0b0100000#7 | _ => 0b0000000#7

/-- The minor opcode of a multiplication or division. -/
def MulDivOp.funct3 : MulDivOp → BitVec 3
  | .mul => 0b000#3 | .mulh => 0b001#3 | .mulhsu => 0b010#3 | .mulhu => 0b011#3
  | .div => 0b100#3 | .divu => 0b101#3 | .rem => 0b110#3 | .remu => 0b111#3

/-- `funct3` of the register form; the immediate form sets bit 2. -/
def CsrOp.funct3 : CsrOp → BitVec 3
  | .rw => 0b001#3 | .rs => 0b010#3 | .rc => 0b011#3

/-- `funct3` of the immediate form. -/
def CsrOp.funct3Imm : CsrOp → BitVec 3
  | .rw => 0b101#3 | .rs => 0b110#3 | .rc => 0b111#3

namespace Instr

/-- The encoding of the manual's instruction listings. -/
def encode : Instr → BitVec 32
  | lui rd imm => uType 0b0110111#7 rd imm
  | auipc rd imm => uType 0b0010111#7 rd imm
  | jal rd offset => jType 0b1101111#7 rd offset
  | jalr rd rs1 imm => iType 0b1100111#7 rd 0b000#3 rs1 imm
  | branch op rs1 rs2 offset => bType 0b1100011#7 op.funct3 rs1 rs2 offset
  | load op rd rs1 imm => iType 0b0000011#7 rd op.funct3 rs1 imm
  | store op rs1 rs2 imm => sType 0b0100011#7 op.funct3 rs1 rs2 imm
  | opImm op rd rs1 imm => iType 0b0010011#7 rd op.funct3 rs1 imm
  | shiftImm op rd rs1 shamt => rType 0b0010011#7 rd op.funct3 rs1 shamt op.funct7
  | reg op rd rs1 rs2 => rType 0b0110011#7 rd op.funct3 rs1 rs2 op.funct7
  | mulDiv op rd rs1 rs2 => rType 0b0110011#7 rd op.funct3 rs1 rs2 0b0000001#7
  | fence rd rs1 imm => iType 0b0001111#7 rd 0b000#3 rs1 imm
  | csr op rd rs1 num => iType 0b1110011#7 rd op.funct3 rs1 num
  | csrImm op rd zimm num => iType 0b1110011#7 rd op.funct3Imm zimm num
  | ecall => 0x00000073#32
  | ebreak => 0x00100073#32
  | mret => 0x30200073#32
  | wfi => 0x10500073#32

/-- Whether the instruction reads its `rs1`. -/
def readsRs1 : Instr → Bool
  | jalr .. | branch .. | load .. | store .. | opImm .. | shiftImm .. | reg .. | mulDiv ..
  | csr .. => true
  | lui .. | auipc .. | jal .. | fence .. | csrImm .. | ecall | ebreak | mret | wfi => false

/-- Whether the instruction reads its `rs2`. -/
def readsRs2 : Instr → Bool
  | branch .. | store .. | reg .. | mulDiv .. => true
  | _ => false

/-- Whether the instruction writes its `rd`. -/
def writesRd : Instr → Bool
  | branch .. | store .. | fence .. | ecall | ebreak | mret | wfi => false
  | _ => true

end Instr

/-! ### Fields -/

section Fields

variable {opcode : BitVec 7} {rd : BitVec 5} {funct3 : BitVec 3} {rs1 rs2 : BitVec 5}
  {funct7 : BitVec 7}

@[simp] theorem opcode_rType :
    (rType opcode rd funct3 rs1 rs2 funct7).extractLsb 6 0 = opcode := by
  unfold rType
  ext k hk
  grind

@[simp] theorem rd_rType :
    (rType opcode rd funct3 rs1 rs2 funct7).extractLsb 11 7 = rd := by
  unfold rType
  ext k hk
  grind

@[simp] theorem funct3_rType :
    (rType opcode rd funct3 rs1 rs2 funct7).extractLsb 14 12 = funct3 := by
  unfold rType
  ext k hk
  grind

@[simp] theorem rs1_rType :
    (rType opcode rd funct3 rs1 rs2 funct7).extractLsb 19 15 = rs1 := by
  unfold rType
  ext k hk
  grind

@[simp] theorem rs2_rType :
    (rType opcode rd funct3 rs1 rs2 funct7).extractLsb 24 20 = rs2 := by
  unfold rType
  ext k hk
  grind

@[simp] theorem funct7_rType :
    (rType opcode rd funct3 rs1 rs2 funct7).extractLsb 31 25 = funct7 := by
  unfold rType
  ext k hk
  grind

/-- A word from its `R` fields. -/
theorem rType_fields (w : BitVec 32) :
    rType (w.extractLsb 6 0) (w.extractLsb 11 7) (w.extractLsb 14 12) (w.extractLsb 19 15)
      (w.extractLsb 24 20) (w.extractLsb 31 25) = w := by
  unfold rType
  ext k hk
  grind

/-- A word is the I-type word of its fields. -/
theorem iType_fields (w : BitVec 32) :
    iType (w.extractLsb 6 0) (w.extractLsb 11 7) (w.extractLsb 14 12) (w.extractLsb 19 15)
      (w.extractLsb 31 20) = w := by
  unfold iType
  ext k hk
  grind

theorem sType_fields (w : BitVec 32) :
    sType (w.extractLsb 6 0) (w.extractLsb 14 12) (w.extractLsb 19 15) (w.extractLsb 24 20)
      (w.extractLsb 31 25 ++ w.extractLsb 11 7) = w := by
  unfold sType
  ext k hk
  grind

/-- A branch offset from the pieces that the `B` format scatters. -/
private theorem extract_offset12 (a b : BitVec 1) (c : BitVec 6) (d : BitVec 4) :
    (a ++ b ++ c ++ d).extractLsb 11 11 = a ∧ (a ++ b ++ c ++ d).extractLsb 10 10 = b ∧
      (a ++ b ++ c ++ d).extractLsb 9 4 = c ∧ (a ++ b ++ c ++ d).extractLsb 3 0 = d := by
  refine ⟨?_, ?_, ?_, ?_⟩ <;>
    · ext k hk
      grind

theorem bType_fields (w : BitVec 32) :
    bType (w.extractLsb 6 0) (w.extractLsb 14 12) (w.extractLsb 19 15) (w.extractLsb 24 20)
      (w.extractLsb 31 31 ++ w.extractLsb 7 7 ++ w.extractLsb 30 25 ++ w.extractLsb 11 8) = w := by
  unfold bType
  obtain ⟨h₁, h₂, h₃, h₄⟩ := extract_offset12 (w.extractLsb 31 31) (w.extractLsb 7 7)
    (w.extractLsb 30 25) (w.extractLsb 11 8)
  rw [h₁, h₂, h₃, h₄]
  ext k hk
  grind

theorem uType_fields (w : BitVec 32) :
    uType (w.extractLsb 6 0) (w.extractLsb 11 7) (w.extractLsb 31 12) = w := by
  unfold uType
  ext k hk
  grind

/-- A jump offset from the pieces that the `J` format scatters. -/
private theorem extract_offset20 (a b : BitVec 1) (c : BitVec 8) (d : BitVec 10) :
    (a ++ c ++ b ++ d).extractLsb 19 19 = a ∧ (a ++ c ++ b ++ d).extractLsb 10 10 = b ∧
      (a ++ c ++ b ++ d).extractLsb 18 11 = c ∧ (a ++ c ++ b ++ d).extractLsb 9 0 = d := by
  refine ⟨?_, ?_, ?_, ?_⟩ <;>
    · ext k hk
      grind

theorem jType_fields (w : BitVec 32) :
    jType (w.extractLsb 6 0) (w.extractLsb 11 7)
      (w.extractLsb 31 31 ++ w.extractLsb 19 12 ++ w.extractLsb 20 20 ++ w.extractLsb 30 21) =
        w := by
  unfold jType
  obtain ⟨h₁, h₂, h₃, h₄⟩ := extract_offset20 (w.extractLsb 31 31) (w.extractLsb 20 20)
    (w.extractLsb 19 12) (w.extractLsb 30 21)
  rw [h₁, h₂, h₃, h₄]
  ext k hk
  grind

/-! The formats with register sources place their fields as the `R` format does. -/

/-- The I-type word has its immediate in place of two R-type fields. -/
theorem iType_eq_rType (imm : BitVec 12) :
    iType opcode rd funct3 rs1 imm =
      rType opcode rd funct3 rs1 (imm.extractLsb 4 0) (imm.extractLsb 11 5) := by
  unfold iType rType
  ext k hk
  grind

theorem sType_eq_rType (imm : BitVec 12) :
    sType opcode funct3 rs1 rs2 imm =
      rType opcode (imm.extractLsb 4 0) funct3 rs1 rs2 (imm.extractLsb 11 5) := rfl

theorem bType_eq_rType (offset : BitVec 12) :
    bType opcode funct3 rs1 rs2 offset =
      rType opcode (offset.extractLsb 3 0 ++ offset.extractLsb 10 10) funct3 rs1 rs2
        (offset.extractLsb 11 11 ++ offset.extractLsb 9 4) := by
  unfold bType rType
  ext k hk
  grind

@[simp] theorem rd_iType (imm : BitVec 12) :
    (iType opcode rd funct3 rs1 imm).extractLsb 11 7 = rd := by
  rw [iType_eq_rType, rd_rType]

@[simp] theorem rs1_iType (imm : BitVec 12) :
    (iType opcode rd funct3 rs1 imm).extractLsb 19 15 = rs1 := by
  rw [iType_eq_rType, rs1_rType]

@[simp] theorem opcode_uType (imm : BitVec 20) :
    (uType opcode rd imm).extractLsb 6 0 = opcode := by
  unfold uType
  ext k hk
  grind

@[simp] theorem rd_uType (imm : BitVec 20) : (uType opcode rd imm).extractLsb 11 7 = rd := by
  unfold uType
  ext k hk
  grind

@[simp] theorem opcode_jType (offset : BitVec 20) :
    (jType opcode rd offset).extractLsb 6 0 = opcode := by
  unfold jType
  ext k hk
  grind

@[simp] theorem rd_jType (offset : BitVec 20) :
    (jType opcode rd offset).extractLsb 11 7 = rd := by
  unfold jType
  ext k hk
  grind

end Fields

end Riscv

import Rv32im.Isa.Encoding
import Rv32im.Rtl.Decoder

/-!
# The decoder and the instruction set

The decoder accepts a word exactly if it encodes an instruction of `Riscv.Instr`, and then selects
the immediate format and the controls of that instruction.

* `Instr.immSel`, `Instr.ctrl`: what an instruction asks of the pipeline;
* `decoder_encode`: the decoder on an encoding;
* `exists_encode_of_legal`: a word that the decoder accepts is an encoding;
* `decoder_exact`: the two together, with the register uses.
-/

namespace Rv32im

open Riscv

/-! ### The controls of an instruction -/

section Controls

/-- The branch kind of a condition. -/
def branchOf : BranchOp → Branch
  | .beq => .beq | .bne => .bne | .blt => .blt | .bge => .bge | .bltu => .bltu | .bgeu => .bgeu

/-- The size of a load. -/
def loadSizeOf : LoadOp → MemSize
  | .lb | .lbu => .byte
  | .lh | .lhu => .half
  | .lw => .word

/-- A load extends with zeros. -/
def loadUnsignedOf : LoadOp → Bool
  | .lbu | .lhu => true
  | .lb | .lh | .lw => false

/-- The size of a store. -/
def storeSizeOf : StoreOp → MemSize
  | .sb => .byte | .sh => .half | .sw => .word

/-- The ALU operation for an immediate. -/
def aluOfImm : ImmOp → AluOp
  | .addi => .add | .slti => .slt | .sltiu => .sltu | .xori => .xor | .ori => .or | .andi => .and

/-- The ALU operation of a shift by an immediate. -/
def aluOfShift : ShiftOp → AluOp
  | .slli => .sll | .srli => .srl | .srai => .sra

/-- The ALU operation on two registers. -/
def aluOfReg : RegOp → AluOp
  | .add => .add | .sub => .sub | .sll => .sll | .slt => .slt | .sltu => .sltu
  | .xor => .xor | .srl => .srl | .sra => .sra | .or => .or | .and => .and

/-- The operation of the RV32M units. -/
def mduOf : MulDivOp → MduOp
  | .mul => .mul | .mulh => .mulh | .mulhsu => .mulhsu | .mulhu => .mulhu
  | .div => .div | .divu => .divu | .rem => .rem | .remu => .remu

/-- The CSR command with a register. -/
def csrCmdOf : CsrOp → CsrCmd
  | .rw => .rw | .rs => .rs | .rc => .rc

/-- The CSR command with an immediate. -/
def csrImmCmdOf : CsrOp → CsrCmd
  | .rw => .rwi | .rs => .rsi | .rc => .rci

/-- The immediate format of an instruction. -/
def immSelOf : Instr → ImmSel
  | .lui .. | .auipc .. => .u
  | .jal .. => .j
  | .jalr .. | .load .. | .opImm .. | .shiftImm .. => .i
  | .branch .. => .b
  | .store .. => .s
  | _ => .none

/-- The control bundle of an instruction, over the defaults of the decoder. -/
def ctrlOf : Instr → DecodeCtrl
  | .lui .. => { Decoder.defaultCtrl with regWrite := true, aluOp := .add }
  | .auipc .. => { Decoder.defaultCtrl with regWrite := true, aluOp := .add, opASel := .pc }
  | .jal .. =>
    { Decoder.defaultCtrl with regWrite := true, wbSel := .pc4, branchKind := .jal }
  | .jalr .. =>
    { Decoder.defaultCtrl with
      usesRs1 := true, regWrite := true, wbSel := .pc4, branchKind := .jalr }
  | .branch op .. =>
    { Decoder.defaultCtrl with usesRs1 := true, usesRs2 := true, branchKind := branchOf op }
  | .load op .. =>
    { Decoder.defaultCtrl with
      usesRs1 := true, regWrite := true, aluOp := .add, opASel := .rs1, wbSel := .load
      memCmd := .load, memSize := loadSizeOf op, loadUnsigned := loadUnsignedOf op }
  | .store op .. =>
    { Decoder.defaultCtrl with
      usesRs1 := true, usesRs2 := true, aluOp := .add, opASel := .rs1
      memCmd := .store, memSize := storeSizeOf op }
  | .opImm op .. =>
    { Decoder.defaultCtrl with
      usesRs1 := true, regWrite := true, aluOp := aluOfImm op, opASel := .rs1 }
  | .shiftImm op .. =>
    { Decoder.defaultCtrl with
      usesRs1 := true, regWrite := true, aluOp := aluOfShift op, opASel := .rs1 }
  | .reg op .. =>
    { Decoder.defaultCtrl with
      usesRs1 := true, usesRs2 := true, regWrite := true, aluOp := aluOfReg op
      opASel := .rs1, opBSel := .rs2 }
  | .mulDiv op .. =>
    { Decoder.defaultCtrl with
      usesRs1 := true, usesRs2 := true, regWrite := true, mduOp := mduOf op
      opASel := .rs1, opBSel := .rs2 }
  | .fence .. => { Decoder.defaultCtrl with isFence := true }
  | .csr op .. =>
    { Decoder.defaultCtrl with
      usesRs1 := true, regWrite := true, wbSel := .csr, csrCmd := csrCmdOf op }
  | .csrImm op .. =>
    { Decoder.defaultCtrl with regWrite := true, wbSel := .csr, csrCmd := csrImmCmdOf op }
  | .mret => { Decoder.defaultCtrl with isMret := true }
  | .ecall | .ebreak | .wfi => Decoder.defaultCtrl

/-- The control bundle uses the registers that the instruction uses. -/
theorem ctrlOf_uses (n : Instr) :
    (ctrlOf n).usesRs1 = n.readsRs1 ∧ (ctrlOf n).usesRs2 = n.readsRs2 ∧
      (ctrlOf n).regWrite = n.writesRd := by
  cases n <;> exact ⟨rfl, rfl, rfl⟩

end Controls

/-! ### Encodings are accepted -/

/-- The decoder on a word whose lookups succeed. -/
theorem decoder_of_legalCtrl {w : Word} {sel : ImmSel} {c : DecodeCtrl}
    (h : Decoder.legalCtrl w (w.extractLsb 6 0) (w.extractLsb 14 12) (w.extractLsb 31 25) =
      some (sel, c)) :
    decoder w =
      { rs1 := w.extractLsb 19 15, rs2 := w.extractLsb 24 20, rd := w.extractLsb 11 7
        immSel := sel, ctrl := c, illegal := false } := by
  unfold decoder
  rw [h]

/-- The controls of an encoded instruction are those of its syntax. -/
private theorem legalCtrl_encode (n : Instr) :
    Decoder.legalCtrl n.encode (n.encode.extractLsb 6 0) (n.encode.extractLsb 14 12)
      (n.encode.extractLsb 31 25) = some (immSelOf n, ctrlOf n) := by
  -- the opcode selects the branch, the minor fields the operation in it
  cases n with
  | lui rd imm =>
    simp only [Instr.encode, Decoder.legalCtrl, opcode_uType]
    rfl
  | auipc rd imm =>
    simp only [Instr.encode, Decoder.legalCtrl, opcode_uType]
    rfl
  | jal rd offset =>
    simp only [Instr.encode, Decoder.legalCtrl, opcode_jType]
    rfl
  | jalr rd rs1 imm =>
    simp only [Instr.encode, Decoder.legalCtrl, iType_eq_rType, opcode_rType, funct3_rType]
    rfl
  | branch op rs1 rs2 offset =>
    simp only [Instr.encode, Decoder.legalCtrl, bType_eq_rType, opcode_rType, funct3_rType]
    cases op <;> rfl
  | load op rd rs1 imm =>
    simp only [Instr.encode, Decoder.legalCtrl, iType_eq_rType, opcode_rType, funct3_rType]
    cases op <;> rfl
  | store op rs1 rs2 imm =>
    simp only [Instr.encode, Decoder.legalCtrl, sType_eq_rType, opcode_rType, funct3_rType]
    cases op <;> rfl
  | opImm op rd rs1 imm =>
    simp only [Instr.encode, Decoder.legalCtrl, iType_eq_rType, opcode_rType, funct3_rType]
    cases op <;> rfl
  | shiftImm op rd rs1 shamt =>
    simp only [Instr.encode, Decoder.legalCtrl, opcode_rType, funct3_rType, funct7_rType]
    cases op <;> rfl
  | reg op rd rs1 rs2 =>
    simp only [Instr.encode, Decoder.legalCtrl, opcode_rType, funct3_rType, funct7_rType]
    cases op <;> rfl
  | mulDiv op rd rs1 rs2 =>
    simp only [Instr.encode, Decoder.legalCtrl, opcode_rType, funct3_rType, funct7_rType]
    cases op <;> rfl
  | fence rd rs1 imm =>
    simp only [Instr.encode, Decoder.legalCtrl, iType_eq_rType, opcode_rType, funct3_rType]
    rfl
  | csr op rd rs1 num =>
    simp only [Instr.encode, Decoder.legalCtrl, iType_eq_rType, opcode_rType, funct3_rType]
    cases op <;> rfl
  | csrImm op rd zimm num =>
    simp only [Instr.encode, Decoder.legalCtrl, iType_eq_rType, opcode_rType, funct3_rType]
    cases op <;> rfl
  | ecall => rfl
  | ebreak => rfl
  | mret => rfl
  | wfi => rfl

/-- The decoder on the encoding of an instruction. -/
theorem decoder_encode (n : Instr) :
    decoder n.encode =
      { rs1 := n.encode.extractLsb 19 15, rs2 := n.encode.extractLsb 24 20
        rd := n.encode.extractLsb 11 7, immSel := immSelOf n, ctrl := ctrlOf n
        illegal := false } :=
  decoder_of_legalCtrl (legalCtrl_encode n)

/-! ### Accepted words are encodings -/

section Accepted

variable {w : Word} {funct3 : BitVec 3} {funct7 : BitVec 7}

/-- A legal `funct3` is that of a branch. -/
private theorem exists_branchOp (h : (Decoder.branchKind funct3).isSome) :
    ∃ op : BranchOp, op.funct3 = funct3 := by
  unfold Decoder.branchKind at h
  split_ifs at h with h₀ h₁ h₄ h₅ h₆ h₇
  · exact ⟨.beq, h₀.symm⟩
  · exact ⟨.bne, h₁.symm⟩
  · exact ⟨.blt, h₄.symm⟩
  · exact ⟨.bge, h₅.symm⟩
  · exact ⟨.bltu, h₆.symm⟩
  · exact ⟨.bgeu, h₇.symm⟩
  · simp at h

private theorem exists_loadOp (h : (Decoder.loadKind funct3).isSome) :
    ∃ op : LoadOp, op.funct3 = funct3 := by
  unfold Decoder.loadKind at h
  split_ifs at h with h₀ h₁ h₂ h₄ h₅
  · exact ⟨.lb, h₀.symm⟩
  · exact ⟨.lh, h₁.symm⟩
  · exact ⟨.lw, h₂.symm⟩
  · exact ⟨.lbu, h₄.symm⟩
  · exact ⟨.lhu, h₅.symm⟩
  · simp at h

private theorem exists_storeOp (h : (Decoder.storeSize funct3).isSome) :
    ∃ op : StoreOp, op.funct3 = funct3 := by
  unfold Decoder.storeSize at h
  split_ifs at h with h₀ h₁ h₂
  · exact ⟨.sb, h₀.symm⟩
  · exact ⟨.sh, h₁.symm⟩
  · exact ⟨.sw, h₂.symm⟩
  · simp at h

private theorem exists_csrOp (h : (Decoder.csrKind funct3).isSome) :
    ∃ op : CsrOp, op.funct3 = funct3 ∨ op.funct3Imm = funct3 := by
  unfold Decoder.csrKind at h
  split_ifs at h with h₁ h₂ h₃ h₅ h₆ h₇
  · exact ⟨.rw, .inl h₁.symm⟩
  · exact ⟨.rs, .inl h₂.symm⟩
  · exact ⟨.rc, .inl h₃.symm⟩
  · exact ⟨.rw, .inr h₅.symm⟩
  · exact ⟨.rs, .inr h₆.symm⟩
  · exact ⟨.rc, .inr h₇.symm⟩
  · simp at h

/-- An `OP-IMM` word is an immediate operation, or a shift with a fixed `funct7`. -/
private theorem exists_immOp (h : (Decoder.opImmAlu funct3 funct7).isSome) :
    (∃ op : ImmOp, op.funct3 = funct3) ∨
      ∃ op : ShiftOp, op.funct3 = funct3 ∧ op.funct7 = funct7 := by
  -- `SRLI` and `SRAI` share a `funct3` and are told apart by `funct7`
  by_cases h₅ : funct3 = 0b101#3
  · subst h₅
    by_cases h : funct7 = funct7Base
    · exact .inr ⟨.srli, rfl, h.symm⟩
    · by_cases hs : funct7 = funct7SubSra
      · exact .inr ⟨.srai, rfl, hs.symm⟩
      · simp_all [Decoder.opImmAlu]
  · unfold Decoder.opImmAlu at h
    split_ifs at h with h₀ h₂ h₃ h₄ h₆ h₇ h₁ hf
    · exact .inl ⟨.addi, h₀.symm⟩
    · exact .inl ⟨.slti, h₂.symm⟩
    · exact .inl ⟨.sltiu, h₃.symm⟩
    · exact .inl ⟨.xori, h₄.symm⟩
    · exact .inl ⟨.ori, h₆.symm⟩
    · exact .inl ⟨.andi, h₇.symm⟩
    · exact .inr ⟨.slli, h₁.symm, hf.symm⟩
    -- the remaining goals contradict the two tests on `funct3`
    all_goals grind

/-- The eight values of `funct3`. -/
private theorem funct3_cases (f : BitVec 3) :
    f = 0b000#3 ∨ f = 0b001#3 ∨ f = 0b010#3 ∨ f = 0b011#3 ∨ f = 0b100#3 ∨ f = 0b101#3 ∨
      f = 0b110#3 ∨ f = 0b111#3 := by
  revert f
  decide

private theorem exists_mulDivOp (funct3 : BitVec 3) : ∃ op : MulDivOp, op.funct3 = funct3 := by
  -- every `funct3` is taken in this row of the table
  obtain rfl | rfl | rfl | rfl | rfl | rfl | rfl | rfl := funct3_cases funct3
  exacts [⟨.mul, rfl⟩, ⟨.mulh, rfl⟩, ⟨.mulhsu, rfl⟩, ⟨.mulhu, rfl⟩, ⟨.div, rfl⟩, ⟨.divu, rfl⟩,
    ⟨.rem, rfl⟩, ⟨.remu, rfl⟩]

private theorem exists_baseOp (funct3 : BitVec 3) :
    ∃ op : RegOp, op.funct3 = funct3 ∧ op.funct7 = funct7Base := by
  obtain rfl | rfl | rfl | rfl | rfl | rfl | rfl | rfl := funct3_cases funct3
  exacts [⟨.add, rfl, rfl⟩, ⟨.sll, rfl, rfl⟩, ⟨.slt, rfl, rfl⟩, ⟨.sltu, rfl, rfl⟩,
    ⟨.xor, rfl, rfl⟩, ⟨.srl, rfl, rfl⟩, ⟨.or, rfl, rfl⟩, ⟨.and, rfl, rfl⟩]

/-- An `OP` word is a base operation or an operation of the `M` extension. -/
private theorem exists_regOp (h : (Decoder.opAluMdu funct3 funct7).isSome) :
    (∃ op : RegOp, op.funct3 = funct3 ∧ op.funct7 = funct7) ∨
      (∃ op : MulDivOp, op.funct3 = funct3) ∧ funct7 = funct7M := by
  by_cases hm : funct7 = funct7M
  · exact .inr ⟨exists_mulDivOp funct3, hm⟩
  by_cases hb : funct7 = funct7Base
  · exact .inl (hb ▸ exists_baseOp funct3)
  · unfold Decoder.opAluMdu at h
    rw [if_neg hb] at h
    split_ifs at h with hs h₀ h₅
    · exact .inl ⟨.sub, h₀.symm, hs.symm⟩
    · exact .inl ⟨.sra, h₅.symm, hs.symm⟩
    all_goals simp at h

/-- A word whose lookups succeed encodes an instruction: the fields that the lookups do not see
are operands. -/
private theorem exists_encode_of_legalCtrl
    (h : (Decoder.legalCtrl w (w.extractLsb 6 0) (w.extractLsb 14 12)
      (w.extractLsb 31 25)).isSome) : ∃ n : Instr, n.encode = w := by
  have hi := iType_fields w
  have hs := sType_fields w
  have hb := bType_fields w
  have hr := rType_fields w
  have hu := uType_fields w
  have hj := jType_fields w
  -- from here on only the fields matter: each equation above rebuilds `w` from them
  generalize w.extractLsb 6 0 = opcode at *
  generalize w.extractLsb 14 12 = funct3 at *
  generalize w.extractLsb 31 25 = funct7 at *
  unfold Decoder.legalCtrl at h
  by_cases h₁ : opcode = opcodeLui
  · exact ⟨.lui _ _, h₁ ▸ hu⟩
  rw [if_neg h₁] at h
  by_cases h₂ : opcode = opcodeAuipc
  · exact ⟨.auipc _ _, h₂ ▸ hu⟩
  rw [if_neg h₂] at h
  by_cases h₃ : opcode = opcodeJal
  · exact ⟨.jal _ _, h₃ ▸ hj⟩
  rw [if_neg h₃] at h
  by_cases h₄ : opcode = opcodeJalr
  · rw [if_pos h₄] at h
    by_cases h0 : funct3 = 0b000#3
    · exact ⟨.jalr _ _ _, by rw [← hi, h₄, h0]; rfl⟩
    · simp [h0] at h
  rw [if_neg h₄] at h
  by_cases h₅ : opcode = opcodeBranch
  · rw [if_pos h₅, Option.isSome_map] at h
    obtain ⟨op, hop⟩ := exists_branchOp h
    exact ⟨.branch op _ _ _, by rw [← hb, h₅, ← hop]; rfl⟩
  rw [if_neg h₅] at h
  by_cases h₆ : opcode = opcodeLoad
  · rw [if_pos h₆, Option.isSome_map] at h
    obtain ⟨op, hop⟩ := exists_loadOp h
    exact ⟨.load op _ _ _, by rw [← hi, h₆, ← hop]; rfl⟩
  rw [if_neg h₆] at h
  by_cases h₇ : opcode = opcodeStore
  · rw [if_pos h₇, Option.isSome_map] at h
    obtain ⟨op, hop⟩ := exists_storeOp h
    exact ⟨.store op _ _ _, by rw [← hs, h₇, ← hop]; rfl⟩
  rw [if_neg h₇] at h
  by_cases h₈ : opcode = opcodeOpImm
  · rw [if_pos h₈, Option.isSome_map] at h
    obtain ⟨op, hop⟩ | ⟨op, hop, hf⟩ := exists_immOp h
    · exact ⟨.opImm op _ _ _, by rw [← hi, h₈, ← hop]; rfl⟩
    · exact ⟨.shiftImm op _ _ _, by rw [← hr, h₈, ← hop, ← hf]; rfl⟩
  rw [if_neg h₈] at h
  by_cases h₉ : opcode = opcodeOp
  · rw [if_pos h₉, Option.isSome_map] at h
    obtain ⟨op, hop, hf⟩ | ⟨⟨op, hop⟩, hf⟩ := exists_regOp h
    · exact ⟨.reg op _ _ _, by rw [← hr, h₉, ← hop, ← hf]; rfl⟩
    · exact ⟨.mulDiv op _ _ _, by rw [← hr, h₉, ← hop, hf]; rfl⟩
  rw [if_neg h₉] at h
  by_cases h₁₀ : opcode = opcodeMiscMem
  · rw [if_pos h₁₀] at h
    by_cases h0 : funct3 = 0b000#3
    · exact ⟨.fence _ _ _, by rw [← hi, h₁₀, h0]; rfl⟩
    · simp [h0] at h
  rw [if_neg h₁₀] at h
  by_cases h₁₁ : opcode = opcodeSystem
  · rw [if_pos h₁₁] at h
    by_cases h0 : funct3 = 0b000#3
    · rw [if_pos h0] at h
      -- the four words of `SYSTEM` that have no operands
      split_ifs at h with he hm hw
      · rcases he with rfl | rfl
        exacts [⟨.ecall, rfl⟩, ⟨.ebreak, rfl⟩]
      · exact ⟨.mret, hm.symm⟩
      · exact ⟨.wfi, hw.symm⟩
      · simp at h
    · rw [if_neg h0, Option.isSome_map] at h
      obtain ⟨op, hop | hop⟩ := exists_csrOp h
      · exact ⟨.csr op _ _ _, by rw [← hi, h₁₁, ← hop]; rfl⟩
      · exact ⟨.csrImm op _ _ _, by rw [← hi, h₁₁, ← hop]; rfl⟩
  · simp [h₁₁] at h

/-- A word that the decoder accepts encodes an instruction. -/
theorem exists_encode_of_legal (h : (decoder w).illegal = false) : ∃ n : Instr, n.encode = w := by
  apply exists_encode_of_legalCtrl
  by_contra hnone
  rw [Bool.not_eq_true, Option.isSome_eq_false_iff, Option.isNone_iff_eq_none] at hnone
  unfold decoder at h
  rw [hnone] at h
  contradiction

end Accepted

/-! ### The accepted set -/

/-- A control bundle that asks for nothing. -/
structure DecodeCtrl.Inert (c : DecodeCtrl) : Prop where
  regWrite : c.regWrite = false
  memCmd : c.memCmd = .none
  branchKind : c.branchKind = .none
  mduOp : c.mduOp = .none
  csrCmd : c.csrCmd = .none
  isMret : c.isMret = false

/-- The controls of an illegal word are the defaults. -/
theorem inert_of_illegal {w : Word} (h : (decoder w).illegal = true) :
    (decoder w).ctrl.Inert := by
  unfold decoder at h ⊢
  split at h
  next => constructor <;> rfl
  next => contradiction

/-- The decoder accepts exactly the encodings of the instructions; its controls ask for nothing
on any other word, and on an encoding they name the registers that the instruction uses. -/
theorem decoder_exact (w : Word) :
    ((decoder w).illegal = false ↔ ∃ n : Instr, n.encode = w) ∧
      ((decoder w).illegal = true → (decoder w).ctrl.Inert) ∧
      ∀ n : Instr, n.encode = w →
        (decoder w).ctrl.usesRs1 = n.readsRs1 ∧ (decoder w).ctrl.usesRs2 = n.readsRs2 ∧
          (decoder w).ctrl.regWrite = n.writesRd := by
  refine ⟨⟨exists_encode_of_legal, ?_⟩, inert_of_illegal, ?_⟩
  · rintro ⟨n, rfl⟩
    rw [decoder_encode]
  · rintro n rfl
    rw [decoder_encode]
    exact ctrlOf_uses n

/-- `CSRRSI` reads no register although its `zimm` lies in the `rs1` field. -/
theorem decoder_exact_csrrsi :
    ((decoder 0x3002e073#32).illegal = false ∧ (decoder 0x3002e073#32).ctrl.usesRs1 = false) ∧
      (decoder 0x0000100f#32).ctrl.Inert := by
  have h := decoder_exact 0x3002e073#32
  have hf := decoder_exact 0x0000100f#32
  exact ⟨⟨h.1.mpr ⟨.csrImm .rs 0 5 0x300, by decide⟩,
    (h.2.2 (.csrImm .rs 0 5 0x300) (by decide)).1⟩, hf.2.1 (by decide)⟩

end Rv32im

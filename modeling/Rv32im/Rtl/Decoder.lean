import Rv32im.Rtl.Pkg

/-!
# `decoder` and `imm_gen`

The combinational instruction decoder and the immediate generator. The decoder starts from
side-effect-free defaults and enables controls only for encodings it has fully checked; each
nested `case` of the source is a lookup that returns `none` for its `default` branch, and
`illegal` keeps the defaults.

* `decoder`, `immGen`: the two modules;
* `DecodeCtrl.Legal`: the shapes of a legal control bundle, one per instruction class;
* `decoder_legal`: every word decodes to one of them or to the illegal defaults.
-/

namespace Rv32im

/-- The outputs of `decoder`. -/
structure Decoded where
  rs1 : RegAddr
  rs2 : RegAddr
  rd : RegAddr
  immSel : ImmSel := .none
  ctrl : DecodeCtrl := { opASel := .zero, opBSel := .imm, memSize := .word }
  illegal : Bool := true
deriving DecidableEq, Repr

namespace Decoder

/-- The controls assigned before the opcode is looked at. -/
def defaultCtrl : DecodeCtrl := { opASel := .zero, opBSel := .imm, memSize := .word }

/-- The `funct3` lookup of `OPCODE_BRANCH`. -/
def branchKind (funct3 : BitVec 3) : Option Branch :=
  if funct3 = 0b000#3 then some .beq
  else if funct3 = 0b001#3 then some .bne
  else if funct3 = 0b100#3 then some .blt
  else if funct3 = 0b101#3 then some .bge
  else if funct3 = 0b110#3 then some .bltu
  else if funct3 = 0b111#3 then some .bgeu
  else none

/-- The `funct3` lookup of `OPCODE_LOAD`: access size and `load_unsigned`. -/
def loadKind (funct3 : BitVec 3) : Option (MemSize × Bool) :=
  if funct3 = 0b000#3 then some (.byte, false)
  else if funct3 = 0b001#3 then some (.half, false)
  else if funct3 = 0b010#3 then some (.word, false)
  else if funct3 = 0b100#3 then some (.byte, true)
  else if funct3 = 0b101#3 then some (.half, true)
  else none

/-- The `funct3` lookup of `OPCODE_STORE`. -/
def storeSize (funct3 : BitVec 3) : Option MemSize :=
  if funct3 = 0b000#3 then some .byte
  else if funct3 = 0b001#3 then some .half
  else if funct3 = 0b010#3 then some .word
  else none

/-- The `funct3`/`funct7` lookup of `OPCODE_OP_IMM`. -/
def opImmAlu (funct3 : BitVec 3) (funct7 : BitVec 7) : Option AluOp :=
  if funct3 = 0b000#3 then some .add
  else if funct3 = 0b010#3 then some .slt
  else if funct3 = 0b011#3 then some .sltu
  else if funct3 = 0b100#3 then some .xor
  else if funct3 = 0b110#3 then some .or
  else if funct3 = 0b111#3 then some .and
  else if funct3 = 0b001#3 then
    if funct7 = funct7Base then some .sll else none
  else -- FUNCT3_SRL_SRA
    if funct7 = funct7Base then some .srl
    else if funct7 = funct7SubSra then some .sra
    else none

/-- The `funct7`/`funct3` lookup of `OPCODE_OP`: the ALU operation and the MDU operation. -/
def opAluMdu (funct3 : BitVec 3) (funct7 : BitVec 7) : Option (AluOp × MduOp) :=
  if funct7 = funct7Base then
    if funct3 = 0b000#3 then some (.add, .none)
    else if funct3 = 0b001#3 then some (.sll, .none)
    else if funct3 = 0b010#3 then some (.slt, .none)
    else if funct3 = 0b011#3 then some (.sltu, .none)
    else if funct3 = 0b100#3 then some (.xor, .none)
    else if funct3 = 0b101#3 then some (.srl, .none)
    else if funct3 = 0b110#3 then some (.or, .none)
    else some (.and, .none)
  else if funct7 = funct7SubSra then
    if funct3 = 0b000#3 then some (.sub, .none)
    else if funct3 = 0b101#3 then some (.sra, .none)
    else none
  else if funct7 = funct7M then
    if funct3 = 0b000#3 then some (.none, .mul)
    else if funct3 = 0b001#3 then some (.none, .mulh)
    else if funct3 = 0b010#3 then some (.none, .mulhsu)
    else if funct3 = 0b011#3 then some (.none, .mulhu)
    else if funct3 = 0b100#3 then some (.none, .div)
    else if funct3 = 0b101#3 then some (.none, .divu)
    else if funct3 = 0b110#3 then some (.none, .rem)
    else some (.none, .remu)
  else none

/-- The Zicsr commands of `OPCODE_SYSTEM` by `funct3`, with `uses_rs1`. -/
def csrKind (funct3 : BitVec 3) : Option (CsrCmd × Bool) :=
  if funct3 = 0b001#3 then some (.rw, true)
  else if funct3 = 0b010#3 then some (.rs, true)
  else if funct3 = 0b011#3 then some (.rc, true)
  else if funct3 = 0b101#3 then some (.rwi, false)
  else if funct3 = 0b110#3 then some (.rsi, false)
  else if funct3 = 0b111#3 then some (.rci, false)
  else none

/-- Immediate format and controls of a legal word with the given fields; `none` stands for
the defaults with `illegal` set. -/
def legalCtrl (insn : Word) (opcode : BitVec 7) (funct3 : BitVec 3) (funct7 : BitVec 7) :
    Option (ImmSel × DecodeCtrl) :=
  if opcode = opcodeLui then
    some (.u, { defaultCtrl with regWrite := true, aluOp := .add, opASel := .zero, opBSel := .imm })
  else if opcode = opcodeAuipc then
    some (.u, { defaultCtrl with regWrite := true, aluOp := .add, opASel := .pc, opBSel := .imm })
  else if opcode = opcodeJal then
    some (.j, { defaultCtrl with regWrite := true, wbSel := .pc4, branchKind := .jal })
  else if opcode = opcodeJalr then
    if funct3 = 0b000#3 then
      some (.i, { defaultCtrl with
        usesRs1 := true, regWrite := true, wbSel := .pc4, branchKind := .jalr })
    else none
  else if opcode = opcodeBranch then
    (branchKind funct3).map fun kind =>
      (.b, { defaultCtrl with branchKind := kind, usesRs1 := true, usesRs2 := true })
  else if opcode = opcodeLoad then
    (loadKind funct3).map fun (size, uns) =>
      (.i, { defaultCtrl with
        memSize := size, loadUnsigned := uns, usesRs1 := true, regWrite := true,
        aluOp := .add, opASel := .rs1, opBSel := .imm, wbSel := .load, memCmd := .load })
  else if opcode = opcodeStore then
    (storeSize funct3).map fun size =>
      (.s, { defaultCtrl with
        memSize := size, usesRs1 := true, usesRs2 := true,
        aluOp := .add, opASel := .rs1, opBSel := .imm, memCmd := .store })
  else if opcode = opcodeOpImm then
    (opImmAlu funct3 funct7).map fun op =>
      (.i, { defaultCtrl with
        aluOp := op, usesRs1 := true, regWrite := true, opASel := .rs1, opBSel := .imm })
  else if opcode = opcodeOp then
    (opAluMdu funct3 funct7).map fun (op, mdu) =>
      (.none, { defaultCtrl with
        aluOp := op, mduOp := mdu, usesRs1 := true, usesRs2 := true, regWrite := true,
        opASel := .rs1, opBSel := .rs2 })
  else if opcode = opcodeMiscMem then
    -- FENCE is a legal NOP; FENCE.I is not implemented.
    if funct3 = 0b000#3 then some (.none, { defaultCtrl with isFence := true }) else none
  else if opcode = opcodeSystem then
    if funct3 = 0b000#3 then
      if insn = insnEcall ∨ insn = insnEbreak then some (.none, defaultCtrl)
      else if insn = insnMret then some (.none, { defaultCtrl with isMret := true })
      else if insn = insnWfi then some (.none, defaultCtrl)
      else none
    else
      (csrKind funct3).map fun (cmd, uses) =>
        (.none, { defaultCtrl with
          usesRs1 := uses, csrCmd := cmd, regWrite := true, wbSel := .csr })
  else none

end Decoder

/-- `decoder`. Register indices are always exposed. -/
def decoder (insn : Word) : Decoded :=
  match Decoder.legalCtrl insn (insn.extractLsb 6 0) (insn.extractLsb 14 12)
      (insn.extractLsb 31 25) with
  | none =>
    { rs1 := insn.extractLsb 19 15, rs2 := insn.extractLsb 24 20, rd := insn.extractLsb 11 7 }
  | some (immSel, ctrl) =>
    { rs1 := insn.extractLsb 19 15, rs2 := insn.extractLsb 24 20, rd := insn.extractLsb 11 7
      immSel, ctrl, illegal := false }

/-- `imm_gen`: the encoded immediate as a 32-bit value. -/
def immGen (insn : Word) (sel : ImmSel) : Word :=
  match sel with
  | .none => 0#32
  | .i => (insn.extractLsb 31 20).signExtend 32
  | .s => (insn.extractLsb 31 25 ++ insn.extractLsb 11 7).signExtend 32
  | .b => (insn.extractLsb 31 31 ++ insn.extractLsb 7 7 ++ insn.extractLsb 30 25
      ++ insn.extractLsb 11 8 ++ 0#1).signExtend 32
  | .u => insn.extractLsb 31 12 ++ 0#12
  | .j => (insn.extractLsb 31 31 ++ insn.extractLsb 19 12 ++ insn.extractLsb 20 20
      ++ insn.extractLsb 30 21 ++ 0#1).signExtend 32

/-! ### Legal control bundles -/

/-- What the decoder promises of a legal control bundle: at most one of memory command, MDU
operation, CSR command and control transfer is selected, and the writeback source, the operand
uses and the register write go with it. -/
structure DecodeCtrl.Legal (c : DecodeCtrl) : Prop where
  load : c.memCmd = .load →
    c.wbSel = .load ∧ c.regWrite = true ∧ c.usesRs2 = false
  notLoad : c.memCmd ≠ .load → c.wbSel ≠ .load
  store : c.memCmd = .store → c.regWrite = false
  mem : c.memCmd ≠ .none →
    c.mduOp = .none ∧ c.csrCmd = .none ∧ c.isMret = false ∧ c.branchKind = .none
  mdu : c.mduOp ≠ .none →
    c.usesRs1 = true ∧ c.usesRs2 = true ∧ c.csrCmd = .none ∧ c.isMret = false ∧
      c.branchKind = .none ∧ c.wbSel = .exResult
  csr : c.csrCmd ≠ .none → c.isMret = false ∧ c.branchKind = .none ∧ c.wbSel = .csr
  mret : c.isMret = true → c.regWrite = false ∧ c.branchKind = .none ∧ c.csrCmd = .none

/-- The all-zero bundle of exception packets is legal. -/
theorem DecodeCtrl.legal_zero : DecodeCtrl.Legal {} := by
  constructor <;> simp

/-- The controls of a word that decodes are marked legal. -/
private theorem legalCtrl_legal {insn : Word} {opcode : BitVec 7} {funct3 : BitVec 3}
    {funct7 : BitVec 7} {sel : ImmSel} {c : DecodeCtrl}
    (h : Decoder.legalCtrl insn opcode funct3 funct7 = some (sel, c)) : c.Legal := by
  revert h
  fun_cases Decoder.legalCtrl insn opcode funct3 funct7 <;> intro h
  all_goals first
    | contradiction
    | (simp only [Option.some.injEq, Prod.mk.injEq] at h
       obtain ⟨-, rfl⟩ := h
       constructor <;> simp [Decoder.defaultCtrl])
    | (obtain ⟨x, -, hx⟩ := Option.map_eq_some_iff.mp h
       simp only [Prod.mk.injEq] at hx
       obtain ⟨-, rfl⟩ := hx
       constructor <;> simp [Decoder.defaultCtrl])

/-- The control bundle of every word, legal or not, is one of the legal shapes. -/
theorem decoder_legal (insn : Word) : (decoder insn).ctrl.Legal := by
  unfold decoder
  split
  next => constructor <;> simp
  next h => exact legalCtrl_legal h

@[simp] theorem decoder_rs1 (insn : Word) : (decoder insn).rs1 = insn.extractLsb 19 15 := by
  unfold decoder; split <;> rfl

@[simp] theorem decoder_rs2 (insn : Word) : (decoder insn).rs2 = insn.extractLsb 24 20 := by
  unfold decoder; split <;> rfl

@[simp] theorem decoder_rd (insn : Word) : (decoder insn).rd = insn.extractLsb 11 7 := by
  unfold decoder; split <;> rfl

end Rv32im

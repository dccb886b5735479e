import Rv32im.Datapath.Decode
import Rv32im.Isa.Semantics
import Rv32im.Rtl.Core

/-!
# Execution and the instruction set

Decode, operand selection, ALU, branch unit and CSR read-modify-write compute the outcome that the
instruction set prescribes for every instruction of the base and of `Zicsr`.

* `immGen_i` to `immGen_j`: the immediate generator against the operands of an instruction;
* `alu_reg`, `branchTaken_branchOf`: the units against the integer operations;
* `Effects`, `ExStage.effects`: what EX hands on for an instruction;
* `effects_of_outcome`: EX hands on the outcome, or the exception of a misaligned target or of an
  inaccessible CSR.
-/

namespace Rv32im

open Riscv

/-! ### Immediates -/

section Immediates

variable {opcode : BitVec 7} {rd : BitVec 5} {funct3 : BitVec 3} {rs1 rs2 : BitVec 5}

/-- The CSR number lies where an `I` immediate does. -/
@[simp] theorem csrField_iType (imm : BitVec 12) :
    csrField (iType opcode rd funct3 rs1 imm) = imm := by
  unfold csrField iType
  ext k hk
  grind

@[simp] theorem immGen_i (imm : BitVec 12) :
    immGen (iType opcode rd funct3 rs1 imm) .i = .ofInt 32 imm.toInt := by
  rw [immGen, ← csrField, csrField_iType]
  rfl

@[simp] theorem immGen_s (imm : BitVec 12) :
    immGen (sType opcode funct3 rs1 rs2 imm) .s = .ofInt 32 imm.toInt := by
  have h : (sType opcode funct3 rs1 rs2 imm).extractLsb 31 25 ++
      (sType opcode funct3 rs1 rs2 imm).extractLsb 11 7 = imm := by
    rw [sType_eq_rType, funct7_rType, rd_rType]
    ext k hk
    grind
  rw [immGen, h]
  rfl

/-- An offset in units of two bytes. -/
private theorem signExtend_double {n : ℕ} (x : BitVec n) :
    (x ++ 0#1).signExtend 32 = .ofInt 32 (2 * x.toInt) := by
  -- the appended zero bit doubles the value
  rw [BitVec.signExtend, BitVec.toInt_append]
  by_cases hn : n = 0
  · subst hn
    simp [BitVec.eq_nil x]
  · simp [hn, Int.mul_comm]

/-- The pieces of a branch offset lie in the `funct7` and `rd` fields. -/
private theorem offset_fields (w : Word) :
    w.extractLsb 31 31 ++ w.extractLsb 7 7 ++ w.extractLsb 30 25 ++ w.extractLsb 11 8 =
      (w.extractLsb 31 25).extractLsb 6 6 ++ (w.extractLsb 11 7).extractLsb 0 0 ++
        (w.extractLsb 31 25).extractLsb 5 0 ++ (w.extractLsb 11 7).extractLsb 4 1 := by
  ext k hk
  grind

@[simp] theorem immGen_b (offset : BitVec 12) :
    immGen (bType opcode funct3 rs1 rs2 offset) .b = .ofInt 32 (2 * offset.toInt) := by
  have h : (offset.extractLsb 11 11 ++ offset.extractLsb 9 4).extractLsb 6 6 ++
      (offset.extractLsb 3 0 ++ offset.extractLsb 10 10).extractLsb 0 0 ++
      (offset.extractLsb 11 11 ++ offset.extractLsb 9 4).extractLsb 5 0 ++
      (offset.extractLsb 3 0 ++ offset.extractLsb 10 10).extractLsb 4 1 = offset := by
    ext k hk
    grind
  rw [bType_eq_rType, immGen, offset_fields, funct7_rType, rd_rType, h]
  exact signExtend_double offset

@[simp] theorem immGen_u (imm : BitVec 20) :
    immGen (uType opcode rd imm) .u = .ofNat 32 (imm.toNat * 2 ^ 12) := by
  have h : (uType opcode rd imm).extractLsb 31 12 = imm := by
    unfold uType
    ext k hk
    grind
  rw [immGen, h]
  apply BitVec.eq_of_toNat_eq
  have hlt := imm.isLt
  rw [BitVec.toNat_append, Nat.shiftLeft_eq, BitVec.toNat_ofNat, BitVec.toNat_ofNat,
    Nat.or_zero]
  exact (Nat.mod_eq_of_lt (by omega)).symm

@[simp] theorem immGen_j (offset : BitVec 20) :
    immGen (jType opcode rd offset) .j = .ofInt 32 (2 * offset.toInt) := by
  -- the four pieces of the scattered offset, in the order in which `imm_gen` joins them
  have h₁ : (jType opcode rd offset).extractLsb 31 31 = offset.extractLsb 19 19 := by
    unfold jType; ext k hk; grind
  have h₂ : (jType opcode rd offset).extractLsb 19 12 = offset.extractLsb 18 11 := by
    unfold jType; ext k hk; grind
  have h₃ : (jType opcode rd offset).extractLsb 20 20 = offset.extractLsb 10 10 := by
    unfold jType; ext k hk; grind
  have h₄ : (jType opcode rd offset).extractLsb 30 21 = offset.extractLsb 9 0 := by
    unfold jType; ext k hk; grind
  have h : offset.extractLsb 19 19 ++ offset.extractLsb 18 11 ++ offset.extractLsb 10 10 ++
      offset.extractLsb 9 0 = offset := by ext k hk; grind
  rw [immGen, h₁, h₂, h₃, h₄, h]
  exact signExtend_double offset

end Immediates

/-! ### Units -/

section Units

variable (a b : Word)

private theorem append_ofBool (p : Bool) :
    (0#31 ++ BitVec.ofBool p : Word) = if p then 1#32 else 0#32 := by
  cases p <;> rfl

/-- The ALU against the integer operations. -/
theorem alu_reg (op : RegOp) : alu (aluOfReg op) a b = op.eval a b := by
  have hsh : (b.extractLsb 4 0).toNat = b.toNat % 32 := by simp
  cases op with
  | add => exact BitVec.eq_of_toInt_eq (by simp [alu, aluOfReg, RegOp.eval])
  | sub => exact BitVec.eq_of_toInt_eq (by simp [alu, aluOfReg, RegOp.eval])
  | sll =>
    apply BitVec.eq_of_toNat_eq
    simp [alu, aluOfReg, RegOp.eval, Nat.shiftLeft_eq]
  | slt => simp [alu, aluOfReg, RegOp.eval, append_ofBool, BitVec.slt]
  | sltu => simp [alu, aluOfReg, RegOp.eval, append_ofBool, BitVec.ult]
  | srl =>
    apply BitVec.eq_of_toNat_eq
    -- the quotient needs no reduction modulo 2 ^ 32
    have hlt : a.toNat / 2 ^ (b.toNat % 32) < 2 ^ 32 :=
      Nat.lt_of_le_of_lt (Nat.div_le_self _ _) a.isLt
    change (a >>> (b.extractLsb 4 0).toNat).toNat = _
    rw [BitVec.toNat_ushiftRight, hsh, Nat.shiftRight_eq_div_pow, RegOp.eval, BitVec.toNat_ofNat,
      Nat.mod_eq_of_lt hlt]
  | sra =>
    have h : (alu (aluOfReg .sra) a b).toInt = a.toInt / 2 ^ (b.toNat % 32) := by
      change (a.sshiftRight (b.extractLsb 4 0).toNat).toInt = _
      rw [BitVec.toInt_sshiftRight, hsh, Int.shiftRight_eq_div_pow]
      norm_cast
    rw [RegOp.eval, ← h, BitVec.ofInt_toInt]
  | xor => rfl
  | or => rfl
  | and => rfl

/-- The branch unit against the integer comparisons. -/
theorem branchTaken_branchOf (op : BranchOp) :
    branchTaken (branchOf op) a b = op.taken a b := by
  cases op with
  | beq => rfl
  | bne => simp [branchTaken, branchOf, BranchOp.taken, bne, beq_eq_decide]
  | blt => rfl
  | bge => simp [branchTaken, branchOf, BranchOp.taken, BitVec.slt]; grind
  | bltu => rfl
  | bgeu => simp [branchTaken, branchOf, BranchOp.taken, BitVec.ult]; grind

end Units

/-! ### What EX hands on -/

/-- What EX hands on for an instruction: an exception with its `tval`, a register write, a load or
a store, a CSR write, the control-transfer flags and the redirect of the fetch. -/
structure Effects where
  exc : Option (TrapCause × Word) := none
  /-- The register and the value, which only a load does not know yet. -/
  rd : Option (RegAddr × Word) := none
  /-- The register, the address, the bytes and whether they are extended with the sign. -/
  load : Option (RegAddr × Word × ℕ × Bool) := none
  /-- The address, the bytes and the data. -/
  store : Option (Word × ℕ × Word) := none
  csr : Option (CsrAddr × Word) := none
  /-- Whether the transfer is taken, and its target. -/
  control : Option (Bool × Word) := none
  redirect : Option Word := none
  mret : Bool := false
deriving DecidableEq, Repr

/-- The effects of an EX/MEM packet and the redirect that goes with it. -/
def ExMem.effects (x : ExMem) (r : Redirect) : Effects where
  exc := if x.exc.valid then some (x.exc.cause, x.exc.tval) else none
  rd := if x.regWrite && x.memCmd != .load then some (x.rd, x.fwdValue) else none
  load :=
    if x.regWrite && x.memCmd == .load then
      some (x.rd, x.exResult, x.memSize.bytes, !x.loadUnsigned)
    else none
  store := if x.memCmd == .store then some (x.exResult, x.memSize.bytes, x.storeData) else none
  csr := if x.csrWrite then some (x.csrAddr, x.csrWdata) else none
  control := if x.control then some (x.controlTaken, x.controlTarget) else none
  redirect := if r.valid then some r.target else none
  mret := x.isMret

/-- The effects of a control transfer, with those of its link register: a taken target that is not
four-byte aligned raises the exception and does nothing else. -/
def Effects.transfer (taken : Bool) (target : Word) (link : Option (RegAddr × Word)) : Effects :=
  if taken ∧ target.toNat % 4 ≠ 0 then
    { control := some (taken, target), exc := some (excInstAddrMisaligned, target) }
  else
    { control := some (taken, target), rd := link
      redirect := if taken then some target else none }

/-- The effects that an outcome asks of EX. -/
def Effects.of : Outcome → Effects
  | .value rd v => { rd := some (rd, v) }
  | .branch taken target => .transfer taken target none
  | .jump rd link target => .transfer true target (some (rd, link))
  | .load rd address bytes signed => { load := some (rd, address, bytes, signed) }
  | .store address bytes data => { store := some (address, bytes, data) }
  | .csr rd old num new => { rd := some (rd, old), csr := new.map fun v => (num, v) }

section Execute

variable {n : Instr} {pc a b old : Word} {o : Outcome}

/-- The control bundle of an instruction with an outcome is not the empty one of `ECALL`. -/
private theorem ctrlOf_ne_of_outcome (ho : n.outcome pc a b old = some o) :
    ctrlOf n ≠ Decoder.defaultCtrl := by
  cases n with
  | branch op => cases op <;> simp [ctrlOf, Decoder.defaultCtrl]
  | _ => simp_all [ctrlOf, Decoder.defaultCtrl, Instr.outcome]

/-- Decoding attaches no exception to an instruction with an outcome. -/
private theorem exc_of_outcome (ho : n.outcome pc a b old = some o) :
    IdStage.exc { valid := true, pc, insn := n.encode } = {} := by
  have hd := decoder_encode n
  -- `ECALL` and `EBREAK` are told from other words by their controls
  have hne := ctrlOf_ne_of_outcome ho
  have he : n.encode ≠ insnEcall := by
    intro h
    rw [h] at hd
    exact hne (congrArg (·.ctrl) hd).symm
  have hb : n.encode ≠ insnEbreak := by
    intro h
    rw [h] at hd
    exact hne (congrArg (·.ctrl) hd).symm
  simp [IdStage.exc, decoder_encode, he, hb]

/-- The ID/EX packet of an instruction with an outcome. -/
private theorem packet_of_outcome (ho : n.outcome pc a b old = some o) (x y : Word) :
    IdStage.packet { valid := true, pc, insn := n.encode } x y =
      { valid := true, pc, insn := n.encode, rs1 := n.encode.extractLsb 19 15
        rs2 := n.encode.extractLsb 24 20, rd := n.encode.extractLsb 11 7, rs1Value := x
        rs2Value := y, imm := immGen n.encode (immSelOf n), ctrl := ctrlOf n } := by
  rw [IdStage.packet, exc_of_outcome ho, decoder_encode]
  simp

/-- The redirect of a packet that EX/MEM accepts. -/
def ExMem.redirect (x : ExMem) : Redirect :=
  if x.control && x.controlTaken && !x.exc.valid then { valid := true, target := x.controlTarget }
  else {}

/-- The effects of a packet that EX/MEM accepts. -/
def ExMem.acceptedEffects (x : ExMem) : Effects := x.effects x.redirect

section Packet

variable {d : IdEx} {x y rdata mepc mdu : Word} {illegal : Bool}

/-- The effects of a packet that neither transfers control nor accesses a CSR. -/
private theorem effects_packet_local (hx : d.exc = {}) (hb : d.ctrl.branchKind = .none)
    (hm : d.ctrl.isMret = false) (hc : d.ctrl.csrCmd = .none) (hu : d.ctrl.mduOp = .none)
    (hw : d.ctrl.memCmd ≠ .load → d.ctrl.wbSel = .exResult) :
    (ExStage.packet d x y rdata mepc illegal mdu).acceptedEffects =
      { rd := if d.ctrl.regWrite && d.ctrl.memCmd != .load then
          some (d.rd, ExStage.aluResult d x y) else none
        load := if d.ctrl.regWrite && d.ctrl.memCmd == .load then
          some (d.rd, ExStage.aluResult d x y, d.ctrl.memSize.bytes, !d.ctrl.loadUnsigned) else none
        store := if d.ctrl.memCmd == .store then
          some (ExStage.aluResult d x y, d.ctrl.memSize.bytes, y) else none } := by
  have hcsr : ExStage.isCsr d = false := by simp [ExStage.isCsr, hc]
  have hctl : ExStage.isControl d = false := by simp [ExStage.isControl, hb, hm]
  have hmdu : ExStage.isMdu d = false := by
    simp [ExStage.isMdu, ExStage.isMul, ExStage.isDiv, hu]
  have hexc : ExStage.exc d x y mepc illegal = {} := by simp [ExStage.exc, hx, hcsr, hctl]
  -- a load forwards nothing, its result comes from memory
  by_cases hl : d.ctrl.memCmd = .load
  · simp [ExMem.acceptedEffects, ExMem.effects, ExMem.redirect, ExStage.packet, hexc, hcsr, hctl,
      hmdu, hm, hl]
  · simp [ExMem.acceptedEffects, ExMem.effects, ExMem.redirect, ExStage.packet, ExMem.fwdValue,
      hexc, hcsr, hctl, hmdu, hm, hw hl]

/-- Four-byte alignment in terms of the low bits. -/
private theorem low_bits_ne_iff (t : Word) : t.extractLsb 1 0 ≠ 0#2 ↔ t.toNat % 4 ≠ 0 := by
  rw [ne_eq, ne_eq, not_iff_not, ← BitVec.toNat_inj]
  simp

/-- The effects of a packet that transfers control. -/
private theorem effects_packet_transfer (hx : d.exc = {}) (hb : d.ctrl.branchKind ≠ .none)
    (hm : d.ctrl.isMret = false) (hc : d.ctrl.csrCmd = .none) (hl : d.ctrl.memCmd = .none)
    (hw : d.ctrl.regWrite = true → d.ctrl.wbSel = .pc4) :
    (ExStage.packet d x y rdata mepc illegal mdu).acceptedEffects =
      .transfer (branchTaken d.ctrl.branchKind x y) (branchTarget d.ctrl.branchKind d.pc d.imm x)
        (if d.ctrl.regWrite then some (d.rd, d.pc + 4#32) else none) := by
  have hcsr : ExStage.isCsr d = false := by simp [ExStage.isCsr, hc]
  have hctl : ExStage.isControl d = true := by simp [ExStage.isControl, hb]
  -- the decision and the target are opaque: only whether the target is aligned matters
  generalize htk : branchTaken d.ctrl.branchKind x y = taken
  generalize htg : branchTarget d.ctrl.branchKind d.pc d.imm x = target
  have htaken : ExStage.controlTaken d x y = taken := by
    simp [ExStage.controlTaken, hm, branchUnit, htk]
  have htarget : ExStage.controlTarget d x y mepc = target := by
    simp [ExStage.controlTarget, hm, branchUnit, htg]
  have hmis : ExStage.controlTargetMisaligned d x y mepc = true ↔
      taken = true ∧ target.toNat % 4 ≠ 0 := by
    simp [ExStage.controlTargetMisaligned, hm, branchUnit, htk, htg, ← low_bits_ne_iff]
  unfold Effects.transfer
  -- the exception suppresses the link register and the redirect
  by_cases h : taken = true ∧ target.toNat % 4 ≠ 0
  · have hexc : ExStage.exc d x y mepc illegal =
        { valid := true, cause := excInstAddrMisaligned, tval := target } := by
      simp [ExStage.exc, hx, hcsr, hctl, hmis.mpr h, htarget]
    rw [if_pos h]
    simp [ExMem.acceptedEffects, ExMem.effects, ExMem.redirect, ExStage.packet, hexc, hcsr, hctl,
      htaken, htarget]
  · have hexc : ExStage.exc d x y mepc illegal = {} := by
      have hno := mt hmis.mp h
      simp [ExStage.exc, hx, hcsr, hctl, hno]
    rw [if_neg h]
    by_cases hr : d.ctrl.regWrite = true
    · simp [ExMem.acceptedEffects, ExMem.effects, ExMem.redirect, ExStage.packet, ExMem.fwdValue,
        hexc, hcsr, hctl, htaken, htarget, hm, hl, hr, hw hr]
      cases taken <;> simp
    · simp [ExMem.acceptedEffects, ExMem.effects, ExMem.redirect, ExStage.packet, hexc, hcsr, hctl,
        htaken, htarget, hm, hl, hr]
      cases taken <;> simp

/-- The effects of a packet that accesses a CSR. -/
private theorem effects_packet_csr (hx : d.exc = {}) (hb : d.ctrl.branchKind = .none)
    (hm : d.ctrl.isMret = false) (hc : d.ctrl.csrCmd ≠ .none) (hl : d.ctrl.memCmd = .none)
    (hr : d.ctrl.regWrite = true) (hw : d.ctrl.wbSel = .csr) :
    (ExStage.packet d x y rdata mepc illegal mdu).acceptedEffects =
      if illegal then { exc := some (excIllegalInsn, d.insn) }
      else
        { rd := some (d.rd, rdata)
          csr := if ExStage.csrWrite d then
            some (csrField d.insn, ExStage.csrWdata d rdata x) else none } := by
  have hcsr : ExStage.isCsr d = true := by simp [ExStage.isCsr, hc]
  have hctl : ExStage.isControl d = false := by simp [ExStage.isControl, hb, hm]
  cases illegal with
  | true =>
    have hexc : ExStage.exc d x y mepc true =
        { valid := true, cause := excIllegalInsn, tval := d.insn } := by
      simp [ExStage.exc, hx, hcsr]
    simp [ExMem.acceptedEffects, ExMem.effects, ExMem.redirect, ExStage.packet, hexc, hcsr, hctl]
  | false =>
    have hexc : ExStage.exc d x y mepc false = {} := by simp [ExStage.exc, hx, hctl]
    simp [ExMem.acceptedEffects, ExMem.effects, ExMem.redirect, ExStage.packet, ExMem.fwdValue,
      hexc, hcsr, hctl, hm, hl, hr, hw]

end Packet

/-- Sums of the datapath as integer sums. -/
private theorem add_ofInt (u : Word) (k : Int) : u + .ofInt 32 k = .ofInt 32 (u.toInt + k) := by
  rw [BitVec.ofInt_add, BitVec.ofInt_toInt]

/-- The return address. -/
private theorem add_four (u : Word) : u + 4#32 = .ofInt 32 (u.toInt + 4) := add_ofInt u 4

private theorem add_ofNat (u : Word) (k : ℕ) : u + .ofNat 32 k = .ofInt 32 (u.toInt + k) := by
  rw [← add_ofInt, BitVec.ofInt_natCast]

private theorem and_eq_shift (u : Word) : u &&& 0xfffffffe#32 = u >>> 1 <<< 1 := by
  ext k hk
  have hmask : (0xfffffffe#32)[k] = decide (1 ≤ k) := by
    revert k
    decide
  rw [BitVec.getElem_and, hmask]
  simp
  grind

/-- Clearing bit 0 of a sum. -/
private theorem and_ofInt (k : Int) :
    BitVec.ofInt 32 k &&& 0xfffffffe#32 = .ofInt 32 (2 * (k / 2)) := by
  rw [and_eq_shift]
  apply BitVec.eq_of_toNat_eq
  rw [BitVec.toNat_shiftLeft, BitVec.toNat_ushiftRight, BitVec.toNat_ofInt, BitVec.toNat_ofInt,
    Nat.shiftLeft_eq, Nat.shiftRight_eq_div_pow]
  omega

/-- A branch is relative to its own address. -/
private theorem branchTarget_branchOf (op : BranchOp) (u k v : Word) :
    branchTarget (branchOf op) u k v = u + k := by
  cases op <;> rfl

private theorem aluOfImm_eq (op : ImmOp) : aluOfImm op = aluOfReg op.reg := by
  cases op <;> rfl

private theorem aluOfShift_eq (op : ShiftOp) : aluOfShift op = aluOfReg op.reg := by
  cases op <;> rfl

/-- A shift by a constant uses the low five bits of its immediate. -/
private theorem shift_eval (op : ShiftOp) (u : Word) (shamt : BitVec 5) (f : BitVec 7) :
    op.reg.eval u (.ofInt 32 (f ++ shamt).toInt) = op.reg.eval u (.ofNat 32 shamt.toNat) := by
  have h : (BitVec.ofInt 32 (f ++ shamt).toInt).toNat % 32 =
      (BitVec.ofNat 32 shamt.toNat).toNat % 32 := by
    -- `funct7` sits above the five bits that the shifter reads
    have happ : (f ++ shamt).toNat = f.toNat * 32 + shamt.toNat := by
      rw [BitVec.toNat_append, ← Nat.shiftLeft_add_eq_or_of_lt shamt.isLt, Nat.shiftLeft_eq]
    have hlt := shamt.isLt
    rw [BitVec.toNat_ofInt, BitVec.toInt_eq_toNat_bmod, happ, BitVec.toNat_ofNat]
    simp only [Int.bmod_def]
    omega
  cases op <;> simp only [ShiftOp.reg, RegOp.eval, h]

private theorem append_zimm (z : BitVec 5) : (0#27 ++ z : Word) = .setWidth 32 z := by
  ext k hk
  grind

variable {x y mepc mdu : Word} {illegal : Bool}

/-- The packet of an instruction with an outcome has the effects of the outcome. -/
theorem effects_packet (ho : n.outcome pc a b old = some o)
    (ha : n.readsRs1 = true → x = a) (hb : n.readsRs2 = true → y = b) (u v : Word) :
    (ExStage.packet (IdStage.packet { valid := true, pc, insn := n.encode } u v) x y old mepc
        illegal mdu).acceptedEffects =
      if o.isCsr && illegal then { exc := some (excIllegalInsn, n.encode) } else .of o := by
  rw [packet_of_outcome ho]
  cases n with
  | lui rd imm =>
    obtain rfl : _ = o := Option.some.inj ho
    rw [effects_packet_local rfl rfl rfl rfl rfl (fun _ => rfl)]
    simp [Instr.encode, ctrlOf, immSelOf, ExStage.aluResult, ExStage.aluOperandA,
      ExStage.aluOperandB, Decoder.defaultCtrl, alu, Effects.of, Outcome.isCsr]
  | auipc rd imm =>
    obtain rfl : _ = o := Option.some.inj ho
    rw [effects_packet_local rfl rfl rfl rfl rfl (fun _ => rfl)]
    simp [Instr.encode, ctrlOf, immSelOf, ExStage.aluResult, ExStage.aluOperandA,
      ExStage.aluOperandB, Decoder.defaultCtrl, alu, Effects.of, Outcome.isCsr, add_ofNat]
  | jal rd offset =>
    obtain rfl : _ = o := Option.some.inj ho
    rw [effects_packet_transfer rfl (by simp [ctrlOf]) rfl rfl rfl (fun _ => rfl)]
    simp [Instr.encode, ctrlOf, immSelOf, branchTaken, branchTarget, add_ofInt, add_four,
      Effects.of, Outcome.isCsr, Decoder.defaultCtrl]
  | jalr rd rs1 imm =>
    obtain rfl : _ = o := Option.some.inj ho
    rw [effects_packet_transfer rfl (by simp [ctrlOf]) rfl rfl rfl (fun _ => rfl)]
    simp [Instr.encode, ctrlOf, immSelOf, branchTaken, branchTarget, add_ofInt, add_four, and_ofInt,
      Effects.of, Outcome.isCsr, Decoder.defaultCtrl, ha rfl]
  | branch op rs1 rs2 offset =>
    obtain rfl : _ = o := Option.some.inj ho
    have hk : branchOf op ≠ .none := by cases op <;> simp [branchOf]
    rw [effects_packet_transfer rfl hk rfl rfl rfl
      (fun h => by simp [ctrlOf, Decoder.defaultCtrl] at h)]
    simp [Instr.encode, ctrlOf, immSelOf, branchTaken_branchOf, branchTarget_branchOf, add_ofInt,
      Effects.of, Outcome.isCsr, Decoder.defaultCtrl, ha rfl, hb rfl]
  | load op rd rs1 imm =>
    obtain rfl : _ = o := Option.some.inj ho
    have hs : (loadSizeOf op).bytes = op.bytes := by cases op <;> rfl
    have hu : (!loadUnsignedOf op) = op.signed := by cases op <;> rfl
    -- the address is the ALU result; MEM does the rest
    rw [effects_packet_local rfl rfl rfl rfl rfl (fun h => absurd rfl h)]
    simp [Instr.encode, ctrlOf, immSelOf, ExStage.aluResult, ExStage.aluOperandA,
      ExStage.aluOperandB, Decoder.defaultCtrl, alu, Effects.of, Outcome.isCsr, add_ofInt, ha rfl,
      hs, hu]
  | store op rs1 rs2 imm =>
    obtain rfl : _ = o := Option.some.inj ho
    have hs : (storeSizeOf op).bytes = op.bytes := by cases op <;> rfl
    rw [effects_packet_local rfl rfl rfl rfl rfl (fun _ => rfl)]
    simp [Instr.encode, ctrlOf, immSelOf, ExStage.aluResult, ExStage.aluOperandA,
      ExStage.aluOperandB, Decoder.defaultCtrl, alu, Effects.of, Outcome.isCsr, add_ofInt, ha rfl,
      hb rfl, hs]
  | opImm op rd rs1 imm =>
    obtain rfl : _ = o := Option.some.inj ho
    rw [effects_packet_local rfl rfl rfl rfl rfl (fun _ => rfl)]
    simp [Instr.encode, ctrlOf, immSelOf, ExStage.aluResult, ExStage.aluOperandA,
      ExStage.aluOperandB, Decoder.defaultCtrl, aluOfImm_eq, alu_reg, Effects.of, Outcome.isCsr,
      ha rfl]
  | shiftImm op rd rs1 shamt =>
    obtain rfl : _ = o := Option.some.inj ho
    rw [effects_packet_local rfl rfl rfl rfl rfl (fun _ => rfl)]
    -- `imm_gen` sees `funct7` and the shift amount as one `I` immediate
    have hi : (Instr.shiftImm op rd rs1 shamt).encode =
        iType 0b0010011#7 rd op.funct3 rs1 (op.funct7 ++ shamt) := by
      unfold Instr.encode rType iType
      ext k hk
      grind
    simp [hi, ctrlOf, immSelOf, ExStage.aluResult, ExStage.aluOperandA,
      ExStage.aluOperandB, Decoder.defaultCtrl, aluOfShift_eq, alu_reg, Effects.of, Outcome.isCsr,
      ha rfl, shift_eval]
  | reg op rd rs1 rs2 =>
    obtain rfl : _ = o := Option.some.inj ho
    rw [effects_packet_local rfl rfl rfl rfl rfl (fun _ => rfl)]
    simp [Instr.encode, ctrlOf, ExStage.aluResult, ExStage.aluOperandA,
      ExStage.aluOperandB, Decoder.defaultCtrl, alu_reg, Effects.of, Outcome.isCsr, ha rfl, hb rfl]
  | csr op rd rs1 num =>
    obtain rfl : _ = o := Option.some.inj ho
    have hc : csrCmdOf op ≠ .none := by cases op <;> simp [csrCmdOf]
    rw [effects_packet_csr rfl rfl rfl hc rfl rfl rfl]
    cases op <;>
      simp [Instr.encode, ctrlOf, csrCmdOf, ExStage.csrWrite, ExStage.csrWdata, CsrOp.writes,
        CsrOp.eval, Effects.of, Outcome.isCsr, ha rfl, apply_ite (Option.map _)]
  | csrImm op rd zimm num =>
    obtain rfl : _ = o := Option.some.inj ho
    have hc : csrImmCmdOf op ≠ .none := by cases op <;> simp [csrImmCmdOf]
    rw [effects_packet_csr rfl rfl rfl hc rfl rfl rfl]
    cases op <;>
      simp [Instr.encode, ctrlOf, csrImmCmdOf, ExStage.csrWrite, ExStage.csrWdata, CsrOp.writes,
        CsrOp.eval, ExStage.zimm, append_zimm, Effects.of, Outcome.isCsr, apply_ite (Option.map _)]
  | mulDiv | fence | ecall | ebreak | mret | wfi => simp [Instr.outcome] at ho

/-- An instruction with an outcome is no MDU operation. -/
private theorem not_isMdu_of_outcome (ho : n.outcome pc a b old = some o) (u v : Word) :
    ExStage.isMdu (IdStage.packet { valid := true, pc, insn := n.encode } u v) = false := by
  have hmdu : (ctrlOf n).mduOp = .none := by
    cases n with
    | mulDiv => simp [Instr.outcome] at ho
    | _ => rfl
  rw [packet_of_outcome ho]
  simp [ExStage.isMdu, ExStage.isMul, ExStage.isDiv, hmdu]

/-- EX hands on what the instruction set prescribes: for an instruction at `pc` with source values
`a` and `b` and CSR value `csrRdata`, read or forwarded, the effects of its outcome, or the
exception of a CSR access that the CSR file refuses. -/
theorem effects_of_outcome {i : ExStage.In} {we : Bool} {rd : RegAddr} {data : Word} {r : Regfile}
    (hid : i.idEx = idStage { valid := true, pc, insn := n.encode } we rd data r)
    (hactive : ExStage.active i = true) (hready : i.resultReady = true)
    (ha : n.readsRs1 = true → ExStage.forwardedRs1 i = a)
    (hb : n.readsRs2 = true → ExStage.forwardedRs2 i = b)
    (ho : n.outcome pc a b i.csrRdata = some o) :
    (ExStage.exMemD i).valid = true ∧
      (ExStage.exMemD i).effects (ExStage.controlRedirect i) =
        if o.isCsr && i.csrAccessIllegal then { exc := some (excIllegalInsn, n.encode) }
        else .of o := by
  have hmdu : ExStage.isMdu i.idEx = false := by
    rw [hid]
    exact not_isMdu_of_outcome ho _ _
  have hvalid : ExStage.resultValid i = true := by
    simp [ExStage.resultValid, hactive, hmdu]
  -- nothing but the MDU delays EX, so the packet fires in this cycle
  have hfire : ExStage.exFire i = true := by simp [ExStage.exFire, hvalid, hready]
  have hpacket : ExStage.exMemD i = ExStage.packet i.idEx (ExStage.forwardedRs1 i)
      (ExStage.forwardedRs2 i) i.csrRdata i.csrMepc i.csrAccessIllegal (ExStage.mduResult i) := by
    rw [ExStage.exMemD, if_pos hvalid]
  have hredirect : ExStage.controlRedirect i = (ExStage.exMemD i).redirect := by
    rw [ExStage.controlRedirect, hfire, Bool.true_and, hpacket]
    rfl
  refine ⟨by rw [hpacket, ExStage.packet_valid], ?_⟩
  rw [hredirect, hpacket, hid]
  exact effects_packet ho ha hb _ _

end Execute

/-- The ports of EX for a `BLTU` with a far backward offset whose first source is forwarded. -/
def bltuIn : ExStage.In where
  rst := false
  kill := false
  idEx := idStage { valid := true, pc := 0x80000000#32, insn := 0xc020e1e3#32 } false 0#5 0#32
    fun _ => 7#32
  fwdASel := .exMem
  fwdBSel := .regfile
  exMemFwdValue := 3#32
  memWbFwdValue := 0#32
  csrRdata := 0#32
  csrMepc := 0#32
  csrAccessIllegal := true
  resultReady := true
  mulUnit := {}
  divUnit := {}

/-- It is taken, its target is not aligned, and there is no redirect. -/
theorem effects_of_outcome_bltu :
    (ExStage.exMemD bltuIn).effects (ExStage.controlRedirect bltuIn) =
      { control := some (true, 0x7ffffc02#32)
        exc := some (excInstAddrMisaligned, 0x7ffffc02#32) } := by
  have ho : (Instr.branch .bltu 1#5 2#5 0xe01#12).outcome 0x80000000#32 3#32 7#32
      bltuIn.csrRdata = some (.branch true 0x7ffffc02#32) := by decide
  exact (effects_of_outcome (i := bltuIn) rfl rfl rfl (fun _ => rfl) (fun _ => rfl) ho).2

end Rv32im

import Rv32im.Rtl.Pkg

/-!
# `alu` and `branch_unit`

The combinational datapath of EX: the integer ALU and the control-transfer comparator with its
target generator. With `IALIGN = 32` a taken target is misaligned if either low bit is set.
-/

namespace Rv32im

/-- `alu`. -/
def alu (op : AluOp) (a b : Word) : Word :=
  match op with
  | .none => 0#32
  | .add => a + b
  | .sub => a - b
  | .sll => a <<< b.extractLsb 4 0
  | .srl => a >>> b.extractLsb 4 0
  | .sra => a.sshiftRight' (b.extractLsb 4 0)
  | .slt => 0#31 ++ BitVec.ofBool (a.slt b)
  | .sltu => 0#31 ++ BitVec.ofBool (a.ult b)
  | .xor => a ^^^ b
  | .or => a ||| b
  | .and => a &&& b

/-- The outputs of `branch_unit`. -/
structure BranchOut where
  taken : Bool := false
  target : Word := 0#32
  misaligned : Bool := false
deriving DecidableEq, Repr

/-- `taken_o` of `branch_unit`. -/
def branchTaken (kind : Branch) (rs1 rs2 : Word) : Bool :=
  match kind with
  | .none => false
  | .beq => rs1 == rs2
  | .bne => rs1 != rs2
  | .blt => rs1.slt rs2
  | .bge => !rs1.slt rs2
  | .bltu => rs1.ult rs2
  | .bgeu => !rs1.ult rs2
  | .jal => true
  | .jalr => true

/-- `target_o` of `branch_unit`. -/
def branchTarget (kind : Branch) (pc imm rs1 : Word) : Word :=
  match kind with
  | .none => 0#32
  | .jalr => (rs1 + imm) &&& 0xfffffffe#32
  | _ => pc + imm

/-- `branch_unit`. -/
def branchUnit (kind : Branch) (pc imm rs1 rs2 : Word) : BranchOut where
  taken := branchTaken kind rs1 rs2
  target := branchTarget kind pc imm rs1
  misaligned := branchTaken kind rs1 rs2 && (branchTarget kind pc imm rs1).extractLsb 1 0 != 0#2

/-- Without a control transfer nothing is taken. -/
@[simp] theorem branchUnit_none (pc imm rs1 rs2 : Word) :
    branchUnit .none pc imm rs1 rs2 = {} := rfl

end Rv32im

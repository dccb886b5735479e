import Rv32im.Isa.Encoding

/-!
# What the instructions prescribe

The effect of an instruction of the base and of `Zicsr` on the architectural state, in integer
arithmetic modulo `2 ^ 32`, from the values of `pc`, its source registers and its CSR. The effect
of loads and stores ends at their effective address and data.

* `RegOp.eval`, `ShiftOp.eval`, `BranchOp.taken`: the computations;
* `Outcome`: a register value, a control transfer, a memory access or a CSR access;
* `Instr.outcome`: the outcome of an instruction.
-/

namespace Riscv

/-! ### Computations -/

/-- The integer operations; `sra` rounds towards minus infinity. -/
def RegOp.eval (op : RegOp) (a b : BitVec 32) : BitVec 32 :=
  match op with
  | .add => .ofInt 32 (a.toInt + b.toInt)
  | .sub => .ofInt 32 (a.toInt - b.toInt)
  | .slt => if a.toInt < b.toInt then 1#32 else 0#32
  | .sltu => if a.toNat < b.toNat then 1#32 else 0#32
  | .sll => .ofNat 32 (a.toNat * 2 ^ (b.toNat % 32))
  | .srl => .ofNat 32 (a.toNat / 2 ^ (b.toNat % 32))
  | .sra => .ofInt 32 (a.toInt / 2 ^ (b.toNat % 32))
  | .xor => a ^^^ b
  | .or => a ||| b
  | .and => a &&& b

/-- The operation of an immediate instruction. -/
def ImmOp.reg : ImmOp → RegOp
  | .addi => .add | .slti => .slt | .sltiu => .sltu | .xori => .xor | .ori => .or | .andi => .and

/-- The operation of a shift by a constant. -/
def ShiftOp.reg : ShiftOp → RegOp
  | .slli => .sll | .srli => .srl | .srai => .sra

/-- The operations of the `M` extension. The quotient is truncated towards zero and the remainder
has the sign of the dividend; the quotient of the most negative number by `-1` wraps. -/
def MulDivOp.eval (op : MulDivOp) (a b : BitVec 32) : BitVec 32 :=
  match op with
  | .mul => .ofInt 32 (a.toInt * b.toInt)
  | .mulh => .ofInt 32 (a.toInt * b.toInt / 2 ^ 32)
  | .mulhsu => .ofInt 32 (a.toInt * b.toNat / 2 ^ 32)
  | .mulhu => .ofNat 32 (a.toNat * b.toNat / 2 ^ 32)
  | .div => if b.toNat = 0 then .allOnes 32 else .ofInt 32 (a.toInt.tdiv b.toInt)
  | .divu => if b.toNat = 0 then .allOnes 32 else .ofNat 32 (a.toNat / b.toNat)
  | .rem => if b.toNat = 0 then a else .ofInt 32 (a.toInt.tmod b.toInt)
  | .remu => if b.toNat = 0 then a else .ofNat 32 (a.toNat % b.toNat)

/-- Whether a conditional branch is taken. -/
def BranchOp.taken (op : BranchOp) (a b : BitVec 32) : Bool :=
  match op with
  | .beq => a = b
  | .bne => a ≠ b
  | .blt => a.toInt < b.toInt
  | .bge => b.toInt ≤ a.toInt
  | .bltu => a.toNat < b.toNat
  | .bgeu => b.toNat ≤ a.toNat

/-- The new value of a CSR. -/
def CsrOp.eval (op : CsrOp) (old source : BitVec 32) : BitVec 32 :=
  match op with
  | .rw => source
  | .rs => old ||| source
  | .rc => old &&& ~~~source

/-- The set and clear forms write only if their `rs1` or `zimm` field is not zero. -/
def CsrOp.writes (op : CsrOp) (field : BitVec 5) : Bool :=
  match op with
  | .rw => true
  | .rs | .rc => field ≠ 0#5

/-- The number of bytes that a load reads. -/
def LoadOp.bytes : LoadOp → ℕ
  | .lb | .lbu => 1
  | .lh | .lhu => 2
  | .lw => 4

/-- The loads that extend with the sign. -/
def LoadOp.signed : LoadOp → Bool
  | .lb | .lh | .lw => true
  | .lbu | .lhu => false

/-- The number of bytes that a store writes. -/
def StoreOp.bytes : StoreOp → ℕ
  | .sb => 1 | .sh => 2 | .sw => 4

/-! ### Outcomes -/

/-- The effect of an instruction. -/
inductive Outcome
  /-- `rd := v`. -/
  | value (rd : BitVec 5) (v : BitVec 32)
  /-- A conditional branch. -/
  | branch (taken : Bool) (target : BitVec 32)
  /-- `rd := link` and a jump. -/
  | jump (rd : BitVec 5) (link target : BitVec 32)
  | load (rd : BitVec 5) (address : BitVec 32) (bytes : ℕ) (signed : Bool)
  | store (address : BitVec 32) (bytes : ℕ) (data : BitVec 32)
  /-- `rd := old`, and a write of the CSR unless it is suppressed. -/
  | csr (rd : BitVec 5) (old : BitVec 32) (num : BitVec 12) (new : Option (BitVec 32))
deriving DecidableEq, Repr

/-- Whether an outcome is a CSR access, which the hart may refuse. -/
def Outcome.isCsr : Outcome → Bool
  | .csr .. => true
  | _ => false

/-- The outcome of an instruction at `pc` with source values `a` and `b` and CSR value `old`.
Multiplications and divisions, `FENCE` and the environment instructions have none. -/
def Instr.outcome (n : Instr) (pc a b old : BitVec 32) : Option Outcome :=
  match n with
  | .lui rd imm => some (.value rd (.ofNat 32 (imm.toNat * 2 ^ 12)))
  | .auipc rd imm => some (.value rd (.ofInt 32 (pc.toInt + imm.toNat * 2 ^ 12)))
  | .jal rd offset =>
    some (.jump rd (.ofInt 32 (pc.toInt + 4)) (.ofInt 32 (pc.toInt + 2 * offset.toInt)))
  | .jalr rd _ imm =>
    -- bit 0 of the sum is cleared
    some (.jump rd (.ofInt 32 (pc.toInt + 4)) (.ofInt 32 (2 * ((a.toInt + imm.toInt) / 2))))
  | .branch op _ _ offset =>
    some (.branch (op.taken a b) (.ofInt 32 (pc.toInt + 2 * offset.toInt)))
  | .load op rd _ imm =>
    some (.load rd (.ofInt 32 (a.toInt + imm.toInt)) op.bytes op.signed)
  | .store op _ _ imm => some (.store (.ofInt 32 (a.toInt + imm.toInt)) op.bytes b)
  | .opImm op rd _ imm => some (.value rd (op.reg.eval a (.ofInt 32 imm.toInt)))
  | .shiftImm op rd _ shamt => some (.value rd (op.reg.eval a (.ofNat 32 shamt.toNat)))
  | .reg op rd _ _ => some (.value rd (op.eval a b))
  | .csr op rd rs1 num =>
    some (.csr rd old num (if op.writes rs1 then some (op.eval old a) else none))
  | .csrImm op rd zimm num =>
    some (.csr rd old num
      (if op.writes zimm then some (op.eval old (.ofNat 32 zimm.toNat)) else none))
  | .mulDiv .. | .fence .. | .ecall | .ebreak | .mret | .wfi => none

end Riscv

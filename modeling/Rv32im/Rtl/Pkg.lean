import Mathlib.Algebra.Group.Int.Defs
import Mathlib.Algebra.Group.Nat.Defs
import Mathlib.Data.List.Basic
import Mathlib.Tactic.Common

/-!
# `rv32_pkg`: shared types of the core

Word types, control enumerations, constants and the packed pipeline bundles of
`rtl/core/rv32_pkg.sv`. A structure's defaults are the values the all-zero literal `'0` gives
its fields, so `{}` is `'0`. The signals of one `rv32_mem_if` port are here too: `MemReq` and
`req_valid` travel from master to slave, `MemIn` from slave to master.
-/

namespace Rv32im

/-- A word of the datapath. -/
abbrev Word := BitVec 32
/-- The number of an integer register. -/
abbrev RegAddr := BitVec 5
/-- The number of a CSR. -/
abbrev CsrAddr := BitVec 12
/-- The code of a trap, without the interrupt bit. -/
abbrev TrapCause := BitVec 5

/-! ### Instruction fields -/

abbrev opcodeLoad : BitVec 7 := 0b0000011#7
abbrev opcodeMiscMem : BitVec 7 := 0b0001111#7
abbrev opcodeOpImm : BitVec 7 := 0b0010011#7
abbrev opcodeAuipc : BitVec 7 := 0b0010111#7
abbrev opcodeStore : BitVec 7 := 0b0100011#7
abbrev opcodeOp : BitVec 7 := 0b0110011#7
abbrev opcodeLui : BitVec 7 := 0b0110111#7
abbrev opcodeBranch : BitVec 7 := 0b1100011#7
abbrev opcodeJalr : BitVec 7 := 0b1100111#7
abbrev opcodeJal : BitVec 7 := 0b1101111#7
abbrev opcodeSystem : BitVec 7 := 0b1110011#7

abbrev funct7Base : BitVec 7 := 0b0000000#7
abbrev funct7SubSra : BitVec 7 := 0b0100000#7
abbrev funct7M : BitVec 7 := 0b0000001#7

abbrev insnEcall : Word := 0x00000073#32
abbrev insnEbreak : Word := 0x00100073#32
abbrev insnMret : Word := 0x30200073#32
abbrev insnWfi : Word := 0x10500073#32

/-! ### Datapath and decode controls -/

/-- `alu_op_e`. -/
inductive AluOp
  | none | add | sub | sll | srl | sra | slt | sltu | xor | or | and
deriving DecidableEq, Repr

/-- `imm_sel_e`, the format of the immediate. -/
inductive ImmSel
  | none | i | s | b | u | j
deriving DecidableEq, Repr

/-- `op_a_sel_e`. -/
inductive OpASel
  | rs1 | pc | zero
deriving DecidableEq, Repr

/-- `op_b_sel_e`. -/
inductive OpBSel
  | rs2 | imm
deriving DecidableEq, Repr

/-- `wb_sel_e`, what is written back. -/
inductive WbSel
  | exResult | load | pc4 | csr
deriving DecidableEq, Repr

/-- `branch_e`, the branches and jumps. -/
inductive Branch
  | none | beq | bne | blt | bge | bltu | bgeu | jal | jalr
deriving DecidableEq, Repr

/-- `mem_cmd_e`. -/
inductive MemCmd
  | none | load | store
deriving DecidableEq, Repr

/-- `mem_size_e`. -/
inductive MemSize
  | byte | half | word
deriving DecidableEq, Repr

/-- The number of bytes of an access. -/
def MemSize.bytes : MemSize → ℕ
  | .byte => 1 | .half => 2 | .word => 4

/-- `mdu_op_e`. -/
inductive MduOp
  | none | mul | mulh | mulhsu | mulhu | div | divu | rem | remu
deriving DecidableEq, Repr

/-- `csr_cmd_e`. -/
inductive CsrCmd
  | none | rw | rs | rc | rwi | rsi | rci
deriving DecidableEq, Repr

/-- `fwd_sel_e`, where an operand comes from. -/
inductive FwdSel
  | regfile | exMem | memWb
deriving DecidableEq, Repr

/-! ### CSR addresses and fields -/

abbrev csrMstatus : CsrAddr := 0x300#12
abbrev csrMisa : CsrAddr := 0x301#12
abbrev csrMie : CsrAddr := 0x304#12
abbrev csrMtvec : CsrAddr := 0x305#12
abbrev csrMscratch : CsrAddr := 0x340#12
abbrev csrMepc : CsrAddr := 0x341#12
abbrev csrMcause : CsrAddr := 0x342#12
abbrev csrMtval : CsrAddr := 0x343#12
abbrev csrMip : CsrAddr := 0x344#12
abbrev csrMcycle : CsrAddr := 0xb00#12
abbrev csrMinstret : CsrAddr := 0xb02#12
abbrev csrMcycleh : CsrAddr := 0xb80#12
abbrev csrMinstreth : CsrAddr := 0xb82#12
abbrev csrMvendorid : CsrAddr := 0xf11#12
abbrev csrMarchid : CsrAddr := 0xf12#12
abbrev csrMimpid : CsrAddr := 0xf13#12
abbrev csrMhartid : CsrAddr := 0xf14#12
abbrev csrMconfigptr : CsrAddr := 0xf15#12

/-- `MISA_RV32IM`. -/
abbrev misaRv32im : Word := 0x40001100#32

/-- `MSTATUS_MIE_BIT`. -/
abbrev mstatusMieBit : ℕ := 3
/-- `MSTATUS_MPIE_BIT`. -/
abbrev mstatusMpieBit : ℕ := 7
/-- `MSTATUS_MPP_M_VALUE`, also the reset value. -/
abbrev mstatusMppMValue : Word := 0x00001800#32
/-- `MSTATUS_WRITABLE_MASK`: MIE and MPIE. -/
abbrev mstatusWritableMask : Word := 0x00000088#32
/-- `MINT_MTIP_BIT`, the bit of MTIP in `mip` and of MTIE in `mie`. -/
abbrev mintMtipBit : ℕ := 7
/-- `MIE_WRITABLE_MASK`: only MTIE. -/
abbrev mieWritableMask : Word := 0x00000080#32
/-- `MIP_MTIP_MASK`. -/
abbrev mipMtipMask : Word := 0x00000080#32
/-- `MCAUSE_INTERRUPT_MASK`. -/
abbrev mcauseInterruptMask : Word := 0x80000000#32
/-- `MCAUSE_CODE_MASK`. -/
abbrev mcauseCodeMask : Word := 0x0000001f#32

/-- `IRQ_M_TIMER_CAUSE`. -/
abbrev irqMTimerCause : TrapCause := 7#5

/-! ### Synchronous exception causes

`exc_cause_e` is a five-bit enumeration into which the core also casts the interrupt cause, so
a cause is its five-bit value here. -/

abbrev excInstAddrMisaligned : TrapCause := 0#5
abbrev excInstAccessFault : TrapCause := 1#5
abbrev excIllegalInsn : TrapCause := 2#5
abbrev excBreakpoint : TrapCause := 3#5
abbrev excLoadAddrMisaligned : TrapCause := 4#5
abbrev excLoadAccessFault : TrapCause := 5#5
abbrev excStoreAddrMisaligned : TrapCause := 6#5
abbrev excStoreAccessFault : TrapCause := 7#5
abbrev excEcallM : TrapCause := 11#5

/-! ### Bundles -/

/-- `redirect_t`. -/
structure Redirect where
  valid : Bool := false
  target : Word := 0#32
deriving DecidableEq, Repr

/-- `exc_t`. -/
structure Exc where
  valid : Bool := false
  isInterrupt : Bool := false
  cause : TrapCause := 0#5
  tval : Word := 0#32
deriving DecidableEq, Repr

/-- `decode_ctrl_t`. -/
structure DecodeCtrl where
  usesRs1 : Bool := false
  usesRs2 : Bool := false
  regWrite : Bool := false
  aluOp : AluOp := .none
  opASel : OpASel := .rs1
  opBSel : OpBSel := .rs2
  wbSel : WbSel := .exResult
  branchKind : Branch := .none
  memCmd : MemCmd := .none
  memSize : MemSize := .byte
  loadUnsigned : Bool := false
  mduOp : MduOp := .none
  csrCmd : CsrCmd := .none
  isMret : Bool := false
  isFence : Bool := false
deriving DecidableEq, Repr

/-- `if_id_t`. -/
structure IfId where
  valid : Bool := false
  pc : Word := 0#32
  insn : Word := 0#32
  exc : Exc := {}
deriving DecidableEq, Repr

/-- `id_ex_t`. -/
structure IdEx where
  valid : Bool := false
  pc : Word := 0#32
  insn : Word := 0#32
  rs1 : RegAddr := 0#5
  rs2 : RegAddr := 0#5
  rd : RegAddr := 0#5
  rs1Value : Word := 0#32
  rs2Value : Word := 0#32
  imm : Word := 0#32
  ctrl : DecodeCtrl := {}
  exc : Exc := {}
deriving DecidableEq, Repr

/-- `ex_mem_t`. -/
structure ExMem where
  valid : Bool := false
  pc : Word := 0#32
  insn : Word := 0#32
  rd : RegAddr := 0#5
  regWrite : Bool := false
  wbSel : WbSel := .exResult
  exResult : Word := 0#32
  storeData : Word := 0#32
  memCmd : MemCmd := .none
  memSize : MemSize := .byte
  loadUnsigned : Bool := false
  csrAddr : CsrAddr := 0#12
  csrWrite : Bool := false
  csrWdata : Word := 0#32
  csrOld : Word := 0#32
  isMret : Bool := false
  control : Bool := false
  controlTaken : Bool := false
  controlTarget : Word := 0#32
  exc : Exc := {}
deriving DecidableEq, Repr

/-- `mem_wb_t`. -/
structure MemWb where
  valid : Bool := false
  pc : Word := 0#32
  insn : Word := 0#32
  rd : RegAddr := 0#5
  regWrite : Bool := false
  wbData : Word := 0#32
  csrWrite : Bool := false
  csrAddr : CsrAddr := 0#12
  csrWdata : Word := 0#32
  isMret : Bool := false
  memWrite : Bool := false
  memAddr : Word := 0#32
  memWstrb : BitVec 4 := 0#4
  memWdata : Word := 0#32
  control : Bool := false
  controlTaken : Bool := false
  controlTarget : Word := 0#32
  exc : Exc := {}
deriving DecidableEq, Repr

/-! ### Memory ports -/

/-- The payload of a request on one `rv32_mem_if` port. -/
structure MemReq where
  addr : Word := 0#32
  write : Bool := false
  wdata : Word := 0#32
  wstrb : BitVec 4 := 0#4
deriving DecidableEq, Repr

/-- The payload of a response. -/
structure MemRsp where
  rdata : Word := 0#32
  err : Bool := false
deriving DecidableEq, Repr

/-- What the slave drives on one port in a cycle: `req_ready` and the response channel. -/
structure MemIn where
  reqReady : Bool := false
  rspValid : Bool := false
  rspRdata : Word := 0#32
  rspErr : Bool := false
deriving DecidableEq, Repr

/-- The response delivered in a cycle, if `rsp_valid` is high. -/
def MemIn.rsp (m : MemIn) : Option MemRsp :=
  if m.rspValid then some { rdata := m.rspRdata, err := m.rspErr } else none

@[simp] theorem MemIn.rsp_of_valid {m : MemIn} (h : m.rspValid = true) :
    m.rsp = some { rdata := m.rspRdata, err := m.rspErr } := by
  simp [MemIn.rsp, h]

@[simp] theorem MemIn.rsp_of_not_valid {m : MemIn} (h : m.rspValid = false) : m.rsp = none := by
  simp [MemIn.rsp, h]

/-- `{x[31:2], 2'b00}`. -/
def Word.align (x : Word) : Word := x.extractLsb 31 2 ++ 0#2

/-- The two low bits are zero. -/
def Word.Aligned (x : Word) : Prop := x.extractLsb 1 0 = 0#2

/-- Whether an address is aligned can be computed. -/
instance (x : Word) : Decidable (Word.Aligned x) := inferInstanceAs (Decidable (_ = _))

/-- The word that an address lies in is aligned. -/
theorem Word.aligned_align (x : Word) : Word.Aligned (Word.align x) := by
  unfold Word.Aligned Word.align
  apply BitVec.eq_of_getLsbD_eq
  intro k hk
  simp only [BitVec.getLsbD_extractLsb, BitVec.getLsbD_append, BitVec.getLsbD_zero]
  grind

theorem Word.aligned_and (x : Word) : Word.Aligned (x &&& 0xfffffffc#32) := by
  unfold Word.Aligned
  ext k hk
  have : k = 0 ∨ k = 1 := by omega
  rcases this with rfl | rfl <;> simp

/-- The sum of aligned addresses is aligned. -/
theorem Word.aligned_add {x y : Word} (hx : Word.Aligned x) (hy : Word.Aligned y) :
    Word.Aligned (x + y) := by
  have hx' := congrArg BitVec.toNat hx
  have hy' := congrArg BitVec.toNat hy
  apply BitVec.eq_of_toNat_eq
  simp only [BitVec.extractLsb_toNat, BitVec.toNat_add, Nat.shiftRight_zero] at hx' hy' ⊢
  change x.toNat % 4 = 0 at hx'
  change y.toNat % 4 = 0 at hy'
  change (x.toNat + y.toNat) % 2 ^ 32 % 4 = 0
  omega

theorem Word.aligned_add_four {x : Word} (h : Word.Aligned x) : Word.Aligned (x + 4#32) :=
  Word.aligned_add h (by decide)

/-- An aligned address is its own word address. -/
theorem Word.align_of_aligned {x : Word} (h : Word.Aligned x) : Word.align x = x := by
  unfold Word.Aligned at h
  unfold Word.align
  apply BitVec.eq_of_getLsbD_eq
  intro k hk
  rw [← h]
  simp only [BitVec.getLsbD_extractLsb, BitVec.getLsbD_append]
  grind

/-! ### The halves of a 64-bit value -/

/-- The lower half of two words. -/
theorem Word.low_append (hi lo : Word) : (hi ++ lo : BitVec 64).extractLsb 31 0 = lo :=
  BitVec.extractLsb'_append_eq_right

theorem Word.high_append (hi lo : Word) : (hi ++ lo : BitVec 64).extractLsb 63 32 = hi :=
  BitVec.extractLsb'_append_eq_left

/-- A value is made up of its halves. -/
theorem Word.high_append_low (v : BitVec 64) :
    (v.extractLsb 63 32 ++ v.extractLsb 31 0 : BitVec 64) = v :=
  BitVec.extractLsb'_append_extractLsb' (w := 32)

/-- The halves as C casts take them. -/
theorem Word.setWidth_shiftRight (v : BitVec 64) : (v >>> 32).setWidth 32 = v.extractLsb 63 32 := by
  apply BitVec.eq_of_toNat_eq
  rw [BitVec.toNat_setWidth, BitVec.toNat_ushiftRight, BitVec.extractLsb_toNat]

@[inherit_doc Word.setWidth_shiftRight]
theorem Word.setWidth_low (v : BitVec 64) : v.setWidth 32 = v.extractLsb 31 0 := by
  apply BitVec.eq_of_toNat_eq
  rw [BitVec.toNat_setWidth, BitVec.extractLsb_toNat, Nat.shiftRight_zero]

end Rv32im

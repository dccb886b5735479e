import Rv32im.Rtl.Alu
import Rv32im.Rtl.CsrFile
import Rv32im.Rtl.Hazard
import Rv32im.Rtl.Mdu

/-!
# `ex_stage`

Operand forwarding, the ALU and branch unit, CSR read-modify-write, the launch and collection
of multiply/divide operations, and the EX/MEM packet with its control redirect.

The stage's outputs are functions of `ExStage.In`, the values on its input ports together with
the state of its two MDU units.

* `ExStage.packet`: the EX/MEM packet of an instruction from its operand values, the CSR value
  it read and the MDU result;
* `ExStage.exMemD`, `ExStage.controlRedirect`: the stage's outputs.
-/

namespace Rv32im

/-- The values `ex_stage` works on in a cycle. -/
structure ExStage.In where
  rst : Bool
  kill : Bool
  idEx : IdEx
  fwdASel : FwdSel
  fwdBSel : FwdSel
  exMemFwdValue : Word
  memWbFwdValue : Word
  csrRdata : Word
  csrMepc : Word
  csrAccessIllegal : Bool
  resultReady : Bool
  mulUnit : MulUnit
  divUnit : DivUnit

namespace ExStage

/-- `select_forwarded_operand`. -/
def selectForwardedOperand (select : FwdSel) (regfileValue exMemValue memWbValue : Word) : Word :=
  match select with
  | .exMem => exMemValue
  | .memWb => memWbValue
  | .regfile => regfileValue

/-- `is_csr`. -/
def isCsr (d : IdEx) : Bool := d.ctrl.csrCmd != .none

/-- `is_mul`. -/
def isMul (d : IdEx) : Bool :=
  d.ctrl.mduOp == .mul || d.ctrl.mduOp == .mulh || d.ctrl.mduOp == .mulhsu
    || d.ctrl.mduOp == .mulhu

/-- `is_div`. -/
def isDiv (d : IdEx) : Bool :=
  d.ctrl.mduOp == .div || d.ctrl.mduOp == .divu || d.ctrl.mduOp == .rem || d.ctrl.mduOp == .remu

/-- `is_mdu`: an incoming exception drains without a stale MDU request. -/
def isMdu (d : IdEx) : Bool := (isMul d || isDiv d) && !d.exc.valid

/-- `is_control`. -/
def isControl (d : IdEx) : Bool := d.ctrl.branchKind != .none || d.ctrl.isMret

/-- `alu_operand_a`. -/
def aluOperandA (d : IdEx) (rs1 : Word) : Word :=
  match d.ctrl.opASel with
  | .rs1 => rs1
  | .pc => d.pc
  | .zero => 0#32

/-- `alu_operand_b`. -/
def aluOperandB (d : IdEx) (rs2 : Word) : Word :=
  match d.ctrl.opBSel with
  | .rs2 => rs2
  | .imm => d.imm

/-- `alu_result`. -/
def aluResult (d : IdEx) (rs1 rs2 : Word) : Word :=
  alu d.ctrl.aluOp (aluOperandA d rs1) (aluOperandB d rs2)

/-- `{27'b0, id_ex_i.rs1}`, the immediate of the CSR immediate forms. -/
def zimm (d : IdEx) : Word := 0#27 ++ d.rs1

/-- `csr_wdata` from the CSR value read and the forwarded `rs1`. -/
def csrWdata (d : IdEx) (csrRdata rs1 : Word) : Word :=
  match d.ctrl.csrCmd with
  | .none => 0#32
  | .rw => rs1
  | .rs => csrRdata ||| rs1
  | .rc => csrRdata &&& ~~~rs1
  | .rwi => zimm d
  | .rsi => csrRdata ||| zimm d
  | .rci => csrRdata &&& ~~~zimm d

/-- `csr_write`: the set/clear forms suppress the write when `rs1`/`zimm` is zero. -/
def csrWrite (d : IdEx) : Bool :=
  match d.ctrl.csrCmd with
  | .none => false
  | .rw | .rwi => true
  | .rs | .rc | .rsi | .rci => d.rs1 != 0#5

/-- `csr_raddr_o`. -/
def csrRaddr (active : Bool) (d : IdEx) : CsrAddr :=
  if active && isCsr d then csrField d.insn else 0#12

/-- `csr_access_write_o`. -/
def csrAccessWrite (active : Bool) (d : IdEx) : Bool := active && isCsr d && csrWrite d

/-- `control_taken`. -/
def controlTaken (d : IdEx) (rs1 rs2 : Word) : Bool :=
  if d.ctrl.isMret then true
  else (branchUnit d.ctrl.branchKind d.pc d.imm rs1 rs2).taken

/-- `control_target`. -/
def controlTarget (d : IdEx) (rs1 rs2 csrMepc : Word) : Word :=
  if d.ctrl.isMret then csrMepc
  else (branchUnit d.ctrl.branchKind d.pc d.imm rs1 rs2).target

/-- `control_target_misaligned`. -/
def controlTargetMisaligned (d : IdEx) (rs1 rs2 csrMepc : Word) : Bool :=
  if d.ctrl.isMret then csrMepc.extractLsb 1 0 != 0#2
  else (branchUnit d.ctrl.branchKind d.pc d.imm rs1 rs2).misaligned

/-- The exception of the EX/MEM packet: one already attached precedes those found in EX. -/
def exc (d : IdEx) (rs1 rs2 csrMepc : Word) (csrAccessIllegal : Bool) : Exc :=
  if d.exc.valid then d.exc
  else if isCsr d && csrAccessIllegal then
    { d.exc with valid := true, cause := excIllegalInsn, tval := d.insn }
  else if isControl d && controlTargetMisaligned d rs1 rs2 csrMepc then
    { d.exc with valid := true, cause := excInstAddrMisaligned
                 tval := controlTarget d rs1 rs2 csrMepc }
  else d.exc

/-- `ex_mem_d` once the result is valid: the packet of `d` executed with operand values `rs1`
and `rs2`, the CSR value `csrRdata` and the MDU result `mduResult`. Exception packets carry no
side effects. -/
def packet (d : IdEx) (rs1 rs2 csrRdata csrMepc : Word) (csrAccessIllegal : Bool)
    (mduResult : Word) : ExMem :=
  let e := exc d rs1 rs2 csrMepc csrAccessIllegal
  { valid := true
    pc := d.pc
    insn := d.insn
    rd := d.rd
    regWrite := if e.valid then false else d.ctrl.regWrite
    wbSel := d.ctrl.wbSel
    exResult := if isMdu d then mduResult else aluResult d rs1 rs2
    storeData := rs2
    memCmd := if e.valid then .none else d.ctrl.memCmd
    memSize := d.ctrl.memSize
    loadUnsigned := d.ctrl.loadUnsigned
    csrAddr := if isCsr d then csrField d.insn else 0#12
    csrWrite := if e.valid then false else isCsr d && csrWrite d
    csrWdata := if isCsr d then csrWdata d csrRdata rs1 else 0#32
    csrOld := if isCsr d then csrRdata else 0#32
    isMret := if e.valid then false else d.ctrl.isMret
    control := isControl d
    controlTaken := controlTaken d rs1 rs2
    controlTarget := controlTarget d rs1 rs2 csrMepc
    exc := e }

variable (i : In)

/-- `active`. -/
def active : Bool := i.idEx.valid && !i.rst && !i.kill

/-- `forwarded_rs1`. -/
def forwardedRs1 : Word :=
  selectForwardedOperand i.fwdASel i.idEx.rs1Value i.exMemFwdValue i.memWbFwdValue

/-- `forwarded_rs2`. -/
def forwardedRs2 : Word :=
  selectForwardedOperand i.fwdBSel i.idEx.rs2Value i.exMemFwdValue i.memWbFwdValue

/-- The ports of an MDU unit, with its `req_valid` and `rsp_ready`. -/
def mduIn (reqValid rspReady : Bool) : MduIn where
  rst := i.rst
  kill := i.kill
  reqValid := reqValid
  op := i.idEx.ctrl.mduOp
  lhs := forwardedRs1 i
  rhs := forwardedRs2 i
  rspReady := rspReady

/-- The inputs of `u_mul_unit`; `result_ready_i` also prevents a launch while an older event
owns priority. -/
def mulIn : MduIn :=
  mduIn i
    (active i && isMul i.idEx && i.resultReady && i.mulUnit.reqReady (mduIn i false false))
    (active i && isMul i.idEx && i.resultReady)

/-- The inputs of `u_div_unit`. -/
def divIn : MduIn :=
  mduIn i
    (active i && isDiv i.idEx && i.resultReady && i.divUnit.reqReady (mduIn i false false))
    (active i && isDiv i.idEx && i.resultReady)

/-- `mdu_rsp_valid`. -/
def mduRspValid : Bool :=
  if isMul i.idEx then i.mulUnit.rspValid (mulIn i)
  else if isDiv i.idEx then i.divUnit.rspValid (divIn i)
  else false

/-- `mdu_result`. -/
def mduResult : Word :=
  if isMul i.idEx then i.mulUnit.result
  else if isDiv i.idEx then i.divUnit.result
  else 0#32

/-- `result_valid_o`, independent of the downstream ready. -/
def resultValid : Bool := active i && (!isMdu i.idEx || mduRspValid i)

/-- `ex_fire`: EX/MEM accepts the instruction. -/
def exFire : Bool := resultValid i && i.resultReady

/-- `wait_o`. -/
def wait : Bool := active i && !exFire i

/-- `ex_mem_o`. -/
def exMemD : ExMem :=
  if resultValid i then
    packet i.idEx (forwardedRs1 i) (forwardedRs2 i) i.csrRdata i.csrMepc i.csrAccessIllegal
      (mduResult i)
  else {}

/-- `control_redirect_o`. -/
def controlRedirect : Redirect :=
  if exFire i && isControl i.idEx && controlTaken i.idEx (forwardedRs1 i) (forwardedRs2 i)
      && !(exMemD i).exc.valid then
    { valid := true
      target := controlTarget i.idEx (forwardedRs1 i) (forwardedRs2 i) i.csrMepc }
  else {}

/-! ### The executed packet -/

variable {d : IdEx} {rs1 rs2 rdata mepc mdu : Word} {illegal : Bool}

@[simp] theorem packet_valid : (packet d rs1 rs2 rdata mepc illegal mdu).valid = true := rfl

@[simp] theorem packet_pc : (packet d rs1 rs2 rdata mepc illegal mdu).pc = d.pc := rfl

@[simp] theorem packet_exc :
    (packet d rs1 rs2 rdata mepc illegal mdu).exc = exc d rs1 rs2 mepc illegal := rfl

/-- `ex_stage` and the interlocks compute the same write predicate. -/
theorem csrWrite_eq_csrCommandWrites (d : IdEx) :
    csrWrite d = csrCommandWrites d.ctrl.csrCmd d.rs1 := by
  unfold csrWrite csrCommandWrites
  cases d.ctrl.csrCmd <;> rfl

/-- An exception attached earlier is kept. -/
theorem exc_of_exc (h : d.exc.valid = true) : exc d rs1 rs2 mepc illegal = d.exc := by
  simp [exc, h]

/-- A taken control transfer is a control transfer. -/
theorem isControl_of_controlTaken (h : controlTaken d rs1 rs2 = true) : isControl d = true := by
  unfold controlTaken at h
  unfold isControl
  by_cases hm : d.ctrl.isMret = true
  · simp [hm]
  · by_cases hb : d.ctrl.branchKind = .none
    · simp [hm, hb] at h
    · simp [hb]

/-- The target of a taken transfer without exception is four-byte aligned. -/
theorem aligned_controlTarget (ht : controlTaken d rs1 rs2 = true)
    (he : (exc d rs1 rs2 mepc illegal).valid = false) :
    Word.Aligned (controlTarget d rs1 rs2 mepc) := by
  have hc := isControl_of_controlTaken ht
  unfold exc at he
  split_ifs at he with h₁ h₂ h₃
  · simp [h₁] at he
  · simp only [hc, Bool.true_and, Bool.not_eq_true] at h₃
    unfold controlTargetMisaligned at h₃
    unfold controlTarget Word.Aligned
    split_ifs at h₃ ⊢ with hm
    · simpa using h₃
    · have htaken : branchTaken d.ctrl.branchKind rs1 rs2 = true := by
        simpa [controlTaken, hm, branchUnit] using ht
      simpa [branchUnit, htaken] using h₃

end ExStage

end Rv32im

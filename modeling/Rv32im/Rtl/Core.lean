import Rv32im.Rtl.IdStage
import Rv32im.Rtl.ExStage
import Rv32im.Rtl.Lsu
import Rv32im.Rtl.IfStage
import Rv32im.Rtl.PipelineCtrl

/-!
# `rv32_core`

The five-stage pipeline: its registers, the wiring of the stages and units, and the clock edge.
Every signal of the source is a function of the registers `Core` and of the inputs `CoreIn` of
the cycle.

* `Core.event`: the trace port;
* `Core.action`: the action the pipeline controller takes;
* `Core.next`: the clock edge.

The `perf_*` counters, which feed nothing back, are not part of the state.
-/

namespace Rv32im

/-- The parameters of `rv32_core`. -/
structure CoreParams where
  resetVector : Word := 0#32
  trapVector : Word := 0x100#32
deriving DecidableEq, Repr

/-- All registers of `rv32_core` and of the units it contains. -/
structure Core where
  ifIdQ : IfId := {}
  idExQ : IdEx := {}
  exMemQ : ExMem := {}
  memWbQ : MemWb := {}
  trapDrainQ : Bool := false
  ifStage : IfStage
  lsu : Lsu := {}
  mulUnit : MulUnit := {}
  divUnit : DivUnit := {}
  csrFile : CsrFile
  regfile : Regfile

/-- The inputs of `rv32_core` in a cycle. -/
structure CoreIn where
  rst : Bool := false
  mtip : Bool := false
  imem : MemIn := {}
  dmem : MemIn := {}
deriving DecidableEq, Repr

/-- What the trace port shows in a cycle with `trace_valid_o`. -/
structure TraceEvent where
  pc : Word := 0#32
  insn : Word := 0#32
  rdWe : Bool := false
  rdAddr : RegAddr := 0#5
  rdData : Word := 0#32
  memAddr : Word := 0#32
  memWstrb : BitVec 4 := 0#4
  memWdata : Word := 0#32
  trap : Bool := false
  cause : TrapCause := 0#5
  isInterrupt : Bool := false
  control : Bool := false
  taken : Bool := false
  target : Word := 0#32
deriving DecidableEq, Repr

/-! ### Writeback -/

namespace MemWb

variable (w : MemWb)

/-- `wb_trap`. -/
def trap : Bool := w.valid && w.exc.valid

/-- `wb_retire`. -/
def retire : Bool := w.valid && !w.exc.valid

/-- `wb_reg_write`. -/
def writesReg : Bool := w.retire && w.regWrite && w.rd != 0#5

/-- The commit inputs of `csr_file`. -/
def commit : CsrCommit where
  commitWrite := w.retire && w.csrWrite
  commitWaddr := w.csrAddr
  commitWdata := w.csrWdata
  retire := w.retire
  mretCommit := w.retire && w.isMret
  trapValid := w.trap
  trapPc := w.pc
  trapIsInterrupt := w.exc.isInterrupt
  trapCause := w.exc.cause
  trapTval := w.exc.tval

/-- The trace port, whose only source is MEM/WB. -/
def event : TraceEvent where
  pc := w.pc
  insn := w.insn
  rdWe := w.writesReg
  rdAddr := w.rd
  rdData := w.wbData
  memAddr := w.memAddr
  memWstrb := w.memWstrb
  memWdata := w.memWdata
  trap := w.trap
  cause := if w.trap then w.exc.cause else 0#5
  isInterrupt := if w.trap then w.exc.isInterrupt else false
  control := w.retire && w.control
  taken := w.retire && w.controlTaken
  target := w.controlTarget

/-- `mem_wb_irq_state_writer`. -/
def irqStateWriter : Bool :=
  w.valid && !w.exc.valid
    && (w.isMret || (w.csrWrite && (w.csrAddr == csrMstatus || w.csrAddr == csrMie)))

end MemWb

/-! ### Memory stage -/

namespace ExMem

variable (x : ExMem)

/-- `mem_is_memory`. -/
def isMemory : Bool := x.valid && !x.exc.valid && (x.memCmd == .load || x.memCmd == .store)

/-- `ex_mem_fwd_value`, which is also the writeback value of a non-memory packet. -/
def fwdValue : Word :=
  match x.wbSel with
  | .exResult => x.exResult
  | .pc4 => x.pc + 4#32
  | .csr => x.csrOld
  | .load => 0#32

/-- `mem_wb_d` of a packet that is not a memory operation. -/
def localPacket : MemWb where
  valid := true
  pc := x.pc
  insn := x.insn
  rd := x.rd
  regWrite := if x.exc.valid then false else x.regWrite
  wbData := x.fwdValue
  csrWrite := if x.exc.valid then false else x.csrWrite
  csrAddr := x.csrAddr
  csrWdata := x.csrWdata
  isMret := if x.exc.valid then false else x.isMret
  control := x.control
  controlTaken := x.controlTaken
  controlTarget := x.controlTarget
  exc := x.exc

/-- `mem_wb_d` of a memory operation from the LSU's response. -/
def accessPacket (loadData : Word) (exc : Exc) (wstrb : BitVec 4) (wdata : Word) : MemWb where
  valid := true
  pc := x.pc
  insn := x.insn
  rd := x.rd
  regWrite := if exc.valid then false else x.regWrite
  wbData := if x.memCmd = .load then loadData else 0#32
  memWrite := if exc.valid then false else x.memCmd == .store
  memAddr := x.exResult
  memWstrb := if exc.valid then 0#4 else wstrb
  memWdata := if exc.valid then 0#32 else wdata
  control := x.control
  controlTaken := x.controlTaken
  controlTarget := x.controlTarget
  exc := exc

/-- `ex_mem_irq_state_writer`. -/
def irqStateWriter : Bool :=
  x.valid && !x.exc.valid
    && (x.isMret || (x.csrWrite && (x.csrAddr == csrMstatus || x.csrAddr == csrMie)))

end ExMem

namespace IdEx

/-- `id_ex_irq_state_writer`. -/
def irqStateWriter (d : IdEx) : Bool :=
  d.valid && !d.exc.valid
    && (d.ctrl.isMret
      || (csrCommandWrites d.ctrl.csrCmd d.rs1
        && (csrField d.insn == csrMstatus || csrField d.insn == csrMie)))

/-- The packet that replaces the instruction at `pc` when the timer interrupt is taken. -/
def interrupt (pc : Word) : IdEx :=
  { valid := true, pc := pc
    exc := { valid := true, isInterrupt := true, cause := irqMTimerCause } }

/-- The operand refresh of a held packet when the writeback stage writes `rd`. -/
def refresh (d : IdEx) (wbRegWrite : Bool) (rd : RegAddr) (data : Word) : IdEx :=
  if d.valid && wbRegWrite then
    { d with rs1Value := if d.ctrl.usesRs1 && d.rs1 == rd then data else d.rs1Value
             rs2Value := if d.ctrl.usesRs2 && d.rs2 == rd then data else d.rs2Value }
  else d

end IdEx

namespace Core

variable (P : CoreParams) (c : Core) (i : CoreIn)

/-! ### Decode and interrupt injection -/

/-- `id_ex_decoded`. -/
def idExDecoded : IdEx :=
  idStage c.ifIdQ c.memWbQ.writesReg c.memWbQ.rd c.memWbQ.wbData c.regfile

/-- `mtimer_irq_eligible`, on the post-commit state. -/
def irqEligible : Bool := c.csrFile.mtimerIrqEligibleAfterCommit c.memWbQ.commit i.mtip

/-- `irq_state_wait`. -/
def irqStateWait : Bool := c.idExQ.irqStateWriter || c.exMemQ.irqStateWriter

/-- `id_interrupt_candidate`. -/
def idInterruptCandidate : Bool :=
  !i.rst && !c.trapDrainQ && c.irqEligible i && !c.irqStateWait && c.idExDecoded.valid
    && !c.idExDecoded.exc.valid

/-- `id_ex_d`. -/
def idExD : IdEx :=
  if c.idInterruptCandidate i then IdEx.interrupt c.idExDecoded.pc else c.idExDecoded

/-- `id_exception`. -/
def idException : Bool :=
  (c.idExD i).valid && (c.idExD i).exc.valid && !(c.idExD i).exc.isInterrupt

/-- `id_interrupt`. -/
def idInterrupt : Bool :=
  (c.idExD i).valid && (c.idExD i).exc.valid && (c.idExD i).exc.isInterrupt

/-! ### Memory access -/

/-- The inputs of `u_lsu`. -/
def lsuIn : Lsu.In where
  rst := i.rst
  kill := c.memWbQ.trap
  reqValid := c.exMemQ.isMemory && !c.memWbQ.trap
  cmd := c.exMemQ.memCmd
  size := c.exMemQ.memSize
  loadUnsigned := c.exMemQ.loadUnsigned
  addr := c.exMemQ.exResult
  storeData := c.exMemQ.storeData
  dmem := i.dmem

/-- `lsu_rsp_valid`. -/
def lsuRspValid : Bool := c.lsu.rspValid (c.lsuIn i)

/-- `mem_wait`. -/
def memWait : Bool := c.exMemQ.isMemory && !c.lsuRspValid i

/-- `mem_exception`. -/
def memException : Bool :=
  c.exMemQ.isMemory && c.lsuRspValid i && (c.lsu.exception (c.lsuIn i)).valid

/-- `mem_wb_d`. -/
def memWbD : MemWb :=
  if c.exMemQ.valid then
    if c.exMemQ.isMemory then
      -- a memory packet leaves only with its response
      if c.lsuRspValid i then
        c.exMemQ.accessPacket (c.lsu.loadData (c.lsuIn i)) (c.lsu.exception (c.lsuIn i))
          (c.lsu.traceWstrb (c.lsuIn i)) (c.lsu.traceWdata (c.lsuIn i))
      else {}
    else c.exMemQ.localPacket
  else {}

/-! ### Execute -/

/-- `ex_kill`. -/
def exKill : Bool := c.memWbQ.trap || c.memException i

/-- `ex_result_ready`. -/
def exResultReady : Bool := !c.memWbQ.trap && !c.memWait i && !c.memException i

/-- `active` of `u_ex_stage`. -/
def exActive : Bool := c.idExQ.valid && !i.rst && !c.exKill i

/-- The inputs of `u_ex_stage`. -/
def exIn : ExStage.In where
  rst := i.rst
  kill := c.exKill i
  idEx := c.idExQ
  fwdASel := ForwardingUnit.sel c.idExQ c.exMemQ c.memWbQ c.idExQ.ctrl.usesRs1 c.idExQ.rs1
  fwdBSel := ForwardingUnit.sel c.idExQ c.exMemQ c.memWbQ c.idExQ.ctrl.usesRs2 c.idExQ.rs2
  exMemFwdValue := c.exMemQ.fwdValue
  memWbFwdValue := c.memWbQ.wbData
  csrRdata := c.csrFile.rdata i.mtip (ExStage.csrRaddr (c.exActive i) c.idExQ)
  csrMepc := c.csrFile.mepcQ
  csrAccessIllegal :=
    CsrFile.accessIllegal (ExStage.csrRaddr (c.exActive i) c.idExQ) c.idExQ.ctrl.csrCmd
      (ExStage.csrAccessWrite (c.exActive i) c.idExQ)
  resultReady := c.exResultReady i
  mulUnit := c.mulUnit
  divUnit := c.divUnit

/-- `ex_mem_d`. -/
def exMemD : ExMem := ExStage.exMemD (c.exIn i)

/-- `control_redirect`. -/
def controlRedirect : Redirect := ExStage.controlRedirect (c.exIn i)

/-- `ex_fire` of `u_ex_stage`: EX/MEM accepts the packet in ID/EX. -/
def exFire : Bool := ExStage.exFire (c.exIn i)

/-- `ex_exception`. -/
def exException : Bool :=
  -- an exception found in EX, not one that came in with the packet
  ExStage.resultValid (c.exIn i) && (c.exMemD i).exc.valid && !c.idExQ.exc.valid
    && c.exResultReady i

/-! ### Control -/

/-- The inputs of `u_pipeline_ctrl`. -/
def ctrlIn : PipelineCtrl.In where
  rst := i.rst
  loadUse := HazardUnit.loadUse (c.idExD i) c.idExQ
  csrDep := HazardUnit.csrDep (c.idExD i) c.idExQ c.exMemQ
  irqStateWait := c.irqStateWait
  exWait := ExStage.wait (c.exIn i)
  memWait := c.memWait i
  idException := c.idException i
  idInterrupt := c.idInterrupt i
  exException := c.exException i
  memException := c.memException i
  wbTrap := c.memWbQ.trap
  controlRedirect := c.controlRedirect i
  mtvec := c.csrFile.mtvecQ

/-- The action the controller takes. -/
def action : PipelineAction := PipelineCtrl.action c.trapDrainQ (c.ctrlIn i)

/-- The outputs of `u_pipeline_ctrl`. -/
def ctrl : PipelineCtrl.Out := PipelineCtrl.out c.trapDrainQ (c.ctrlIn i)

/-- `lsu_rsp_ready`. -/
def lsuRspReady : Bool := (c.ctrl i).memWbEnable && !(c.ctrl i).memWbFlush && !c.memWbQ.trap

/-- The inputs of `u_if_stage`. -/
def ifIn : IfStage.In where
  rst := i.rst
  enable := (c.ctrl i).pcEnable
  consume := (c.ctrl i).ifIdEnable && !(c.ctrl i).ifIdFlush
  flush := (c.ctrl i).ifIdFlush
  redirectValid := (c.ctrl i).redirectValid
  redirectPc := (c.ctrl i).redirectPc
  imem := i.imem

/-- `if_id_d`. -/
def ifIdD : IfId := c.ifStage.fetchPacket (c.ifIn i)

/-! ### The clock edge -/

/-- A pipeline register: reset and flush clear it, then enable loads it, else it keeps
`hold`. -/
def pipeReg {α : Type} (rst flush enable : Bool) (zero d hold : α) : α :=
  if rst then zero else if flush then zero else if enable then d else hold

/-- The clock edge of `rv32_core`. -/
def next : Core where
  ifIdQ := pipeReg i.rst (c.ctrl i).ifIdFlush (c.ctrl i).ifIdEnable {} (c.ifIdD i) c.ifIdQ
  -- a held packet still picks up the value written back in this cycle
  idExQ := pipeReg i.rst (c.ctrl i).idExFlush (c.ctrl i).idExEnable {} (c.idExD i)
    (c.idExQ.refresh c.memWbQ.writesReg c.memWbQ.rd c.memWbQ.wbData)
  exMemQ := pipeReg i.rst (c.ctrl i).exMemFlush (c.ctrl i).exMemEnable {} (c.exMemD i) c.exMemQ
  memWbQ := pipeReg i.rst (c.ctrl i).memWbFlush (c.ctrl i).memWbEnable {} (c.memWbD i) c.memWbQ
  trapDrainQ := if i.rst then false else (c.ctrl i).trapDrainD
  ifStage := c.ifStage.next (c.ifIn i) P.resetVector
  lsu := c.lsu.next (c.lsuIn i) (c.lsuRspReady i)
  mulUnit := c.mulUnit.next (ExStage.mulIn (c.exIn i))
  divUnit := c.divUnit.next (ExStage.divIn (c.exIn i))
  csrFile := if i.rst then CsrFile.reset P.trapVector else c.csrFile.next c.memWbQ.commit
  -- not reset
  regfile := c.regfile.write c.memWbQ.writesReg c.memWbQ.rd c.memWbQ.wbData

/-- The trace port: an event in the cycles with `trace_valid_o`. -/
def event : Option TraceEvent := if c.memWbQ.valid then some c.memWbQ.event else none

end Core

end Rv32im

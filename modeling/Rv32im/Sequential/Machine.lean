import Rv32im.Core.Interrupts
import Rv32im.Core.MulDiv
import Rv32im.System.Wiring

/-!
# The sequential machine

The machine the core implements, without pipeline and without ports: a step fetches, decodes and
executes the instruction at `pc` with the functions of the stages and commits its packet, or it
takes the timer interrupt in front of that instruction. Its `mcycle` is that of the CSR file, a
count of clock cycles that the program may write: each step is labelled with the cycles in which
its packet leaves EX, where it reads the counter, and commits, where it writes it.

* `Env`: the program and the answers to its data accesses;
* `Seq.csrAt`: the CSRs in a clock cycle;
* `Seq.packet`, `Seq.instr`: the packet an instruction commits, and its step;
* `Seq.interrupt`: the interrupt step;
* `Seq.Step`: the steps, labelled with the event and with what depends on the timing of cycles.
-/

namespace Rv32im

open Clocked

/-- The memory map of the instruction port, by word addresses, and the answers of the data port in
the order of the requests. -/
structure Env where
  prog : BitVec 30 → MemRsp
  answers : ℕ → MemRsp

/-- The word that an address lies in. -/
def Word.index (a : Word) : BitVec 30 := a.extractLsb 31 2

namespace CsrFile

variable (q : CsrFile) (t : ℕ)

/-- The CSR state without `mcycle`, which counts cycles and not instructions. -/
def arch : CsrFile := { q with mcycleQ := 0#64 }

/-- The CSR state `t` clock cycles later, if nothing commits in them. -/
def later : CsrFile := { q with mcycleQ := q.mcycleQ + BitVec.ofNat 64 t }

/-- The CSR state that is `q` after `t` cycles without commit. -/
def earlier : CsrFile := { q with mcycleQ := q.mcycleQ - BitVec.ofNat 64 t }

end CsrFile

/-- The state of the machine. -/
structure Seq where
  pc : Word
  regs : Regfile
  /-- The CSR state, with `mcycle` carried back to the reset: the lead of the counter over the
  clock, which only a write to `mcycle` or `mcycleh` changes. -/
  csr : CsrFile
  /-- The data requests made so far. -/
  requests : List MemReq := []

namespace Seq

variable (E : Env) (S : Seq) (o : Observation)

/-- The state after a reset. -/
def reset (P : CoreParams) (r : Regfile) : Seq where
  pc := P.resetVector
  regs := r
  csr := .reset P.trapVector

/-- The CSRs in clock cycle `t` after the reset. -/
def csrAt (t : ℕ) : CsrFile := S.csr.later t

/-! ### Instructions -/

/-- The instruction at `pc`. -/
def fetch : IfId := IfId.fetched S.pc (E.prog S.pc.index)

/-- It is decoded with the current registers. -/
def decode : IdEx := idStage (S.fetch E) false 0#5 0#32 S.regs

/-- The CSR state as the instruction reads it, in the cycle in which EX hands it over. -/
def csrRead : CsrFile := S.csrAt o.exCycle

/-- It reads `mcycle` or `mcycleh`. -/
def readsMcycle : Bool :=
  ExStage.isCsr (S.decode E) &&
    (csrField (S.decode E).insn == csrMcycle || csrField (S.decode E).insn == csrMcycleh)

/-- If it does, it finds the counter of the machine in the CSR file of the core. -/
def Counts : Prop := S.readsMcycle E = true → o.mcycle = (S.csrRead o).mcycleQ

/-- It is executed with the CSR value it reads and the RV32M result of its operands. -/
def execute : ExMem :=
  let d := S.decode E
  ExStage.packet d d.rs1Value d.rs2Value
    ((S.csrRead o).rdata o.mtipEx (ExStage.csrRaddr true d)) S.csr.mepcQ
    (CsrFile.accessIllegal (ExStage.csrRaddr true d) d.ctrl.csrCmd (ExStage.csrAccessWrite true d))
    (d.ctrl.mduOp.result d.rs1Value d.rs2Value)

/-- The data request of a packet: aligned loads and stores have one. -/
def request (x : ExMem) : List MemReq := if x.onBus then [x.request] else []

/-- What the instruction commits, with the answer to its access if it has one. -/
def packet : MemWb :=
  if (S.execute E o).isMemory then (S.execute E o).completed (E.answers S.requests.length)
  else (S.execute E o).localPacket

/-- The state after a commit in clock cycle `t`. -/
def commit (t : ℕ) (w : MemWb) (r : List MemReq) : Seq where
  pc := w.nextPc S.csr.mtvecQ
  regs := S.regs.write w.writesReg w.rd w.wbData
  csr := ((S.csrAt t).next w.commit).earlier (t + 1)
  requests := S.requests ++ r

/-- The step of the instruction at `pc`. -/
def instr : Seq := S.commit o.wbCycle (S.packet E o) (request (S.execute E o))

/-! ### Interrupts -/

/-- The timer interrupt in front of the instruction at `pc`: `mepc := pc`, `mcause := 0x80000007`,
`mtval := 0`, `MPIE := MIE`, `MIE := 0`, `pc := mtvec`. `mcycle` keeps its lead over the clock. -/
def interrupt : Seq :=
  { S with
    pc := S.csr.mtvecQ
    csr :=
      { S.csr with
        mstatusQ := CsrFile.assignBit
          (CsrFile.assignBit S.csr.mstatusQ mstatusMpieBit (S.csr.mstatusQ.getLsbD mstatusMieBit))
          mstatusMieBit false
        mepcQ := Word.align S.pc
        mcauseQ := 0x80000007#32
        mtvalQ := 0#32 } }

/-- Its event. -/
def interruptEvent : TraceEvent :=
  { pc := S.pc, trap := true, cause := irqMTimerCause, isInterrupt := true }

/-- A step of the machine. The interrupt needs both enable bits, `mtip_i` in the cycle in which
its packet entered ID/EX, and an instruction without fetch and decode exception. -/
inductive Step (E : Env) (S : Seq) : Observation × TraceEvent → Seq → Prop
  | instr (o : Observation) (counter : S.Counts E o) :
      Step E S (o, (S.packet E o).event) (S.instr E o)
  | interrupt (o : Observation) (enabled : S.csr.timerEnabled = true) (pending : o.mtipId = true)
      (clean : (IdStage.exc (S.fetch E)).valid = false) :
      Step E S (o, S.interruptEvent) S.interrupt

end Seq

end Rv32im

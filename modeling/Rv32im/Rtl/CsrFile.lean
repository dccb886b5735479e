import Rv32im.Rtl.Pkg

/-!
# `csr_file`

Machine-mode CSR state. Reads and their legality are combinational; all state changes happen
at the WB commit, with trap entry before `MRET` before a normal write. `mcycle` and `minstret`
are 64-bit counters whose halves are separate CSRs.

* `CsrFile.rdata`, `CsrFile.accessIllegal`: the read port;
* `CsrFile.next`: the clock edge;
* `CsrFile.mtimerIrqEligibleAfterCommit`: eligibility of the timer interrupt in the
  post-commit state.
-/

namespace Rv32im

/-- The registers of `csr_file`. -/
structure CsrFile where
  mstatusQ : Word := mstatusMppMValue
  mieQ : Word := 0#32
  mtvecQ : Word := 0#32
  mscratchQ : Word := 0#32
  mepcQ : Word := 0#32
  mcauseQ : Word := 0#32
  mtvalQ : Word := 0#32
  mcycleQ : BitVec 64 := 0#64
  minstretQ : BitVec 64 := 0#64
deriving DecidableEq, Repr

/-- The commit-side inputs of `csr_file`. -/
structure CsrCommit where
  commitWrite : Bool := false
  commitWaddr : CsrAddr := 0#12
  commitWdata : Word := 0#32
  retire : Bool := false
  mretCommit : Bool := false
  trapValid : Bool := false
  trapPc : Word := 0#32
  trapIsInterrupt : Bool := false
  trapCause : TrapCause := 0#5
  trapTval : Word := 0#32
deriving DecidableEq, Repr

/-- Set/clear commands become pure reads for `rs1`/`zimm` zero; `RW` always writes. -/
def csrCommandWrites (command : CsrCmd) (source : RegAddr) : Bool :=
  match command with
  | .rw | .rwi => true
  | .rs | .rc | .rsi | .rci => source != 0#5
  | .none => false

namespace CsrFile

/-- The bit assignment `w[k] = b`. -/
def assignBit (w : Word) (k : ℕ) (b : Bool) : Word :=
  if b then w ||| (1#32 <<< k) else w &&& ~~~(1#32 <<< k)

/-- `mip_value`. -/
def mipValue (mtip : Bool) : Word := if mtip then mipMtipMask else 0#32

/-- `rdata_o`; unimplemented addresses read as zero. -/
def rdata (q : CsrFile) (mtip : Bool) (raddr : CsrAddr) : Word :=
  if raddr = csrMstatus then q.mstatusQ
  else if raddr = csrMisa then misaRv32im
  else if raddr = csrMie then q.mieQ
  else if raddr = csrMtvec then q.mtvecQ
  else if raddr = csrMscratch then q.mscratchQ
  else if raddr = csrMepc then q.mepcQ
  else if raddr = csrMcause then q.mcauseQ
  else if raddr = csrMtval then q.mtvalQ
  else if raddr = csrMip then mipValue mtip
  else if raddr = csrMcycle then q.mcycleQ.extractLsb 31 0
  else if raddr = csrMcycleh then q.mcycleQ.extractLsb 63 32
  else if raddr = csrMinstret then q.minstretQ.extractLsb 31 0
  else if raddr = csrMinstreth then q.minstretQ.extractLsb 63 32
  else 0#32

/-- The writable rows of the access table. -/
def writableAddrs : List CsrAddr :=
  [csrMstatus, csrMisa, csrMie, csrMtvec, csrMscratch, csrMepc, csrMcause, csrMtval, csrMip,
    csrMcycle, csrMcycleh, csrMinstret, csrMinstreth]

/-- The read-only rows of the access table. -/
def readOnlyAddrs : List CsrAddr :=
  [csrMvendorid, csrMarchid, csrMimpid, csrMhartid, csrMconfigptr]

/-- `access_implemented`. -/
def accessImplemented (raddr : CsrAddr) : Bool :=
  writableAddrs.contains raddr || readOnlyAddrs.contains raddr

/-- `access_writable`. -/
def accessWritable (raddr : CsrAddr) : Bool := writableAddrs.contains raddr

/-- `access_writes`; `accessWrite` carries the source-nonzero decision. -/
def accessWrites (cmd : CsrCmd) (accessWrite : Bool) : Bool :=
  match cmd with
  | .none => false
  | .rw | .rwi => true
  | .rs | .rc | .rsi | .rci => accessWrite

/-- `access_illegal_o`. -/
def accessIllegal (raddr : CsrAddr) (cmd : CsrCmd) (accessWrite : Bool) : Bool :=
  cmd != .none
    && (!accessImplemented raddr || (accessWrites cmd accessWrite && !accessWritable raddr))

variable (q : CsrFile) (c : CsrCommit)

/-- `mstatus_d` before normalisation. -/
def mstatusUpdate : Word :=
  if c.trapValid then
    -- trap entry: MPIE keeps the old MIE
    let w := assignBit q.mstatusQ mstatusMpieBit (q.mstatusQ.getLsbD mstatusMieBit)
    assignBit w mstatusMieBit false ||| mstatusMppMValue
  else if c.mretCommit then
    -- `MRET`: MIE is restored
    let w := assignBit q.mstatusQ mstatusMieBit (q.mstatusQ.getLsbD mstatusMpieBit)
    assignBit w mstatusMpieBit true ||| mstatusMppMValue
  else if c.commitWrite && c.commitWaddr == csrMstatus then
    mstatusMppMValue ||| (c.commitWdata &&& mstatusWritableMask)
  else q.mstatusQ

/-- `mstatus_d`. -/
def mstatusD : Word := mstatusMppMValue ||| (q.mstatusUpdate c &&& mstatusWritableMask)

/-- A normal write is effective: no trap and no `MRET` commits with it. -/
def normalWrite : Bool := !c.trapValid && !c.mretCommit && c.commitWrite

/-- A normal write to address `a`. -/
def writes (a : CsrAddr) : Bool := normalWrite c && c.commitWaddr == a

/-- `mie_d`. -/
def mieD : Word :=
  (if writes c csrMie then c.commitWdata &&& mieWritableMask else q.mieQ) &&& mieWritableMask

/-- `mepc_d`. -/
def mepcD : Word :=
  if c.trapValid then c.trapPc &&& 0xfffffffc#32
  else if writes c csrMepc then Word.align c.commitWdata
  else q.mepcQ

/-- `mcause_d`. -/
def mcauseD : Word :=
  if c.trapValid then
    (if c.trapIsInterrupt then mcauseInterruptMask else 0#32) ||| (0#27 ++ c.trapCause)
  else if writes c csrMcause then c.commitWdata &&& (mcauseInterruptMask ||| mcauseCodeMask)
  else q.mcauseQ

/-- `mtval_d`. -/
def mtvalD : Word :=
  if c.trapValid then c.trapTval
  else if writes c csrMtval then c.commitWdata
  else q.mtvalQ

/-- `mcycle_d`: an explicit write to either half suppresses the increment. -/
def mcycleD : BitVec 64 :=
  if writes c csrMcycle then q.mcycleQ.extractLsb 63 32 ++ c.commitWdata
  else if writes c csrMcycleh then c.commitWdata ++ q.mcycleQ.extractLsb 31 0
  else q.mcycleQ + 1#64

/-- `minstret_d`: an explicit write to either half suppresses the increment. -/
def minstretD : BitVec 64 :=
  if writes c csrMinstret then q.minstretQ.extractLsb 63 32 ++ c.commitWdata
  else if writes c csrMinstreth then c.commitWdata ++ q.minstretQ.extractLsb 31 0
  else if c.retire && !c.trapValid then q.minstretQ + 1#64
  else q.minstretQ

/-- The state installed by a clock edge without reset. -/
def next : CsrFile where
  mstatusQ := q.mstatusD c
  mieQ := q.mieD c
  mtvecQ := if writes c csrMtvec then Word.align c.commitWdata else q.mtvecQ
  mscratchQ := if writes c csrMscratch then c.commitWdata else q.mscratchQ
  mepcQ := q.mepcD c
  mcauseQ := q.mcauseD c
  mtvalQ := q.mtvalD c
  mcycleQ := q.mcycleD c
  minstretQ := q.minstretD c

/-- The state installed by a clock edge under reset. -/
def reset (trapVector : Word) : CsrFile :=
  { mtvecQ := Word.align trapVector }

/-- `mtimer_irq_eligible_after_commit_o`. -/
def mtimerIrqEligibleAfterCommit (mtip : Bool) : Bool :=
  -- on the values this edge installs, so a write in WB counts already
  (mipValue mtip).getLsbD mintMtipBit && (q.mieD c).getLsbD mintMtipBit
    && (q.mstatusD c).getLsbD mstatusMieBit

/-! ### Well-formed CSR state -/

/-- The read-only fields have their only value and the address registers are aligned. -/
structure Wf (q : CsrFile) : Prop where
  mstatus : mstatusMppMValue ||| (q.mstatusQ &&& mstatusWritableMask) = q.mstatusQ
  mie : q.mieQ &&& mieWritableMask = q.mieQ
  mtvec : Word.Aligned q.mtvecQ
  mepc : Word.Aligned q.mepcQ

variable {q c}

/-- A reset makes it well formed. -/
theorem Wf.reset (trapVector : Word) : Wf (reset trapVector) where
  mstatus := by simp only [CsrFile.reset]; decide
  mie := by simp [CsrFile.reset]
  mtvec := Word.aligned_align _
  mepc := by simp [CsrFile.reset, Word.Aligned]

/-- So does every commit, whatever it writes, given aligned address registers. -/
theorem Wf.next (h : Wf q) : Wf (q.next c) := by
  constructor
  · simp only [CsrFile.next, mstatusD]
    rw [BitVec.and_or_distrib_right, BitVec.and_assoc, BitVec.and_self,
      ← BitVec.or_assoc]
    rfl
  · simp only [CsrFile.next, mieD, BitVec.and_assoc, BitVec.and_self]
  · simp only [CsrFile.next]
    split
    · exact Word.aligned_align _
    · exact h.mtvec
  · simp only [CsrFile.next, mepcD]
    split
    · exact Word.aligned_and _
    · split
      · exact Word.aligned_align _
      · exact h.mepc

end CsrFile

end Rv32im

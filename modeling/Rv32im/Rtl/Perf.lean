import Rv32im.Rtl.Core

/-!
# The performance counters of `rv32_core`

Read-only counters of cycles, retirements, stalls by category, redirects and squashed packets. The
stall categories repeat the age priority of `pipeline_ctrl`.
-/

namespace Rv32im

/-- The `perf_*_o` registers, with their reset values. -/
structure Perf where
  cycle : BitVec 64 := 0#64
  instret : BitVec 64 := 0#64
  loadUseStall : BitVec 64 := 0#64
  csrStall : BitVec 64 := 0#64
  mduStall : BitVec 64 := 0#64
  memStall : BitVec 64 := 0#64
  redirect : BitVec 64 := 0#64
  squash : BitVec 64 := 0#64
deriving DecidableEq, Repr

namespace Core

variable (c : Core) (i : CoreIn)

/-- `effective_mem_stall`. -/
def effectiveMemStall : Bool := c.memWait i && !c.memWbQ.trap && !c.memException i

/-- `effective_mdu_stall`. -/
def effectiveMduStall : Bool :=
  (c.ctrlIn i).exWait && c.idExQ.ctrl.mduOp != .none && !c.memWbQ.trap && !c.memException i
    && !c.memWait i && !c.exException i

/-- Nothing older than ID stalls, redirects or traps: the common part of the two ID stalls. -/
def idStallVisible : Bool :=
  !c.memWbQ.trap && !c.memException i && !c.memWait i && !c.exException i && !(c.ctrlIn i).exWait
    && !c.trapDrainQ && !(c.controlRedirect i).valid && !c.idException i && !c.idInterrupt i

/-- `effective_load_use_stall`. -/
def effectiveLoadUseStall : Bool :=
  (c.ctrlIn i).loadUse && !c.irqStateWait && c.idStallVisible i

/-- `effective_csr_stall`. -/
def effectiveCsrStall : Bool :=
  (c.irqStateWait || ((c.ctrlIn i).csrDep && !(c.ctrlIn i).loadUse)) && c.idStallVisible i

/-- A counter that counts the cycles with `b`. -/
def count (x : BitVec 64) (b : Bool) : BitVec 64 := if b then x + 1#64 else x

/-- The clock edge of the counters. -/
def perfNext (f : Perf) : Perf :=
  if i.rst then {}
  else
    { cycle := f.cycle + 1#64
      instret := count f.instret c.memWbQ.retire
      loadUseStall := count f.loadUseStall (c.effectiveLoadUseStall i)
      csrStall := count f.csrStall (c.effectiveCsrStall i)
      mduStall := count f.mduStall (c.effectiveMduStall i)
      memStall := count f.memStall (c.effectiveMemStall i)
      redirect := count f.redirect (c.controlRedirect i).valid
      squash :=
        if (c.controlRedirect i).valid then
          f.squash + (BitVec.ofBool c.ifIdQ.valid).setWidth 64
            + (BitVec.ofBool (c.ifStage.fetchValid (c.ifIn i))).setWidth 64
        else f.squash }

end Core

end Rv32im

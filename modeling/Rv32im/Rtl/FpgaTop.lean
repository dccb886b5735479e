import Rv32im.Rtl.SocTop

/-!
# `fpga_top` and `reset_sync`

The board around the SoC: the reset synchroniser on the clock domain of the SoC, the heartbeat and
the polarity of the status outputs. The clocking wizard is not modelled; an edge below is an edge of
`clk_75m`, so there is none while the clock stands still.

* `ResetSync`: the synchroniser of the asynchronous reset;
* `FpgaTop`: the registers of the board, `FpgaTop.next` the clock edge.
-/

namespace Rv32im

/-- The registers of `reset_sync`, with the values of the `initial` block. -/
structure ResetSync (stages : ℕ) where
  resetPipeQ : BitVec stages := 0#_
  functionalRstQ : Bool := true
deriving DecidableEq, Repr

/-- `arst_ni` in a period of the clock. It is asynchronous, so it may be low between two edges and
high again at the second one. -/
structure ResetSync.In where
  /-- It fell since the last edge. -/
  fell : Bool := false
  /-- Its level at the edge. -/
  arstN : Bool := true
deriving DecidableEq, Repr

namespace ResetSync

variable {stages : ℕ} (q : ResetSync stages) (i : In)

/-- `reset_pipe_q` as the edge finds it: every falling edge of `arst_ni` has cleared it. -/
def pipeAtEdge : BitVec stages := if i.fell || !i.arstN then 0#_ else q.resetPipeQ

/-- The clock edge of `reset_sync`. -/
def next : ResetSync stages where
  resetPipeQ := if i.arstN then (q.pipeAtEdge i).shiftConcat true else 0#_
  functionalRstQ := !(q.pipeAtEdge i).getLsbD (stages - 1)

end ResetSync

/-- The parameters of `fpga_top`. -/
structure FpgaParams where
  soc : SocParams
  resetSyncStages : ℕ := 2
  heartbeatWidth : ℕ := 24
  resetSyncStages_pos : 0 < resetSyncStages

/-- The registers of `fpga_top` and of its instances. -/
structure FpgaTop (F : FpgaParams) where
  resetSync : ResetSync F.resetSyncStages := {}
  heartbeatQ : BitVec F.heartbeatWidth
  soc : Soc F.soc

/-- The pins in a period of the clock, and `clk_locked` of the clocking wizard. -/
structure FpgaTop.In where
  resetN : Bool := true
  userResetN : Bool := true
  clkLocked : Bool := true
  /-- One of the three fell since the last edge. -/
  fell : Bool := false
  uartRx : Bool := true
deriving DecidableEq, Repr

namespace FpgaTop

variable {F : FpgaParams} (b : FpgaTop F) (i : In)

/-- `clock_reset_ni`. -/
def In.clockResetN : Bool := i.resetN && i.userResetN && i.clkLocked

/-- The inputs of `u_reset_sync`. -/
def resetSyncIn : ResetSync.In where
  fell := i.fell
  arstN := i.clockResetN

/-- `soc_rst`. -/
def socRst : Bool := b.resetSync.functionalRstQ

/-- The inputs of `u_soc`. -/
def socIn : Soc.In F.soc where
  rst := b.socRst
  uartRx := i.uartRx
  gpioIn := 0#_

/-- The clock edge of `fpga_top`. -/
def next : FpgaTop F where
  resetSync := b.resetSync.next (resetSyncIn i)
  heartbeatQ := if b.socRst || b.soc.testDone then 0#_ else b.heartbeatQ + 1#_
  soc := b.soc.next (b.socIn i)

/-- The condition under which the status outputs are driven. -/
def shows : Bool := i.clockResetN && !b.socRst

/-- `heartbeat`. -/
def heartbeat : Bool :=
  b.shows i && b.heartbeatQ.getLsbD (F.heartbeatWidth - 1) && !b.soc.testDone

/-- `led1_n_o`. -/
def led1N : Bool := if b.shows i then !b.heartbeat i else true

/-- `led2_n_o`. -/
def led2N : Bool := if b.shows i then !b.soc.testPass else true

/-- `fail_o`. -/
def fail : Bool := b.shows i && b.soc.testFail

/-- `done_o`. -/
def done : Bool := b.shows i && b.soc.testDone

/-- `uart_tx_o`. -/
def uartTx : Bool := if i.clockResetN then b.soc.uartTx (b.socIn i) else true

/-- `gpio_led_o`. -/
def gpioLed : Bool :=
  b.shows i && b.soc.gpio.outputEnableQ.getLsbD 0 && b.soc.gpio.outputQ.getLsbD 0

end FpgaTop

end Rv32im

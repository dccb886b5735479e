import Rv32im.Rtl.Perf
import Rv32im.Rtl.MemDemux
import Rv32im.Rtl.Tcm
import Rv32im.Rtl.Mtimer
import Rv32im.Rtl.Gpio
import Rv32im.Rtl.Uart

/-!
# `soc_tcm_top`

The core, the demultiplexer on its data port, the memory and the three peripherals, wired together,
with the mailbox that a retired store to TEST_STATUS_ADDR completes.

* `SocParams`: the parameters, with those of the instances they determine;
* `Soc.coreIn`, `Soc.demuxIn`, `Soc.tcmIn` and the like: the wiring;
* `Soc.next`: the clock edge.
-/

namespace Rv32im

/-- The parameters of `soc_tcm_top`. -/
structure SocParams where
  core : CoreParams := {}
  tcm : TcmParams
  demux : DemuxParams
  mtimeResetValue : BitVec 64 := 0#64
  mtimecmpResetValue : BitVec 64 := 0xffffffffffffffff#64
  uartClkFreqHz : Word := 50000000#32
  uartBaudRate : Word := 115200#32
  uartBaudRate_ne : uartBaudRate ≠ 0#32
  uartClkFreqHz_ne : uartClkFreqHz ≠ 0#32
  uart_four_le : 4#32 ≤ clksPerBitCalc uartClkFreqHz uartBaudRate
  gpioWidth : ℕ := 32
  gpioWidth_pos : 0 < gpioWidth
  gpioWidth_le : gpioWidth ≤ 32
  gpioOutputResetValue : Word := 0#32
  gpioOutputEnableResetValue : Word := 0#32
  testStatusAddr : Word := tcm.baseAddr + BitVec.ofNat 32 tcm.bytes - 4#32
  testPassValue : Word := 1#32

namespace SocParams

variable (P : SocParams)

/-- The parameters of `u_mtimer`. -/
def mtimer : MtimerParams where
  baseAddr := P.demux.timerBaseAddr
  mtimeResetValue := P.mtimeResetValue
  mtimecmpResetValue := P.mtimecmpResetValue

/-- The parameters of `u_uart`. -/
def uart : UartParams where
  baseAddr := P.demux.uartBaseAddr
  clkFreqHz := P.uartClkFreqHz
  baudRate := P.uartBaudRate
  baudRate_ne := P.uartBaudRate_ne
  clkFreqHz_ne := P.uartClkFreqHz_ne
  four_le := P.uart_four_le

/-- The parameters of `u_gpio`. -/
def gpio : GpioParams where
  baseAddr := P.demux.gpioBaseAddr
  gpioWidth := P.gpioWidth
  outputResetValue := P.gpioOutputResetValue
  outputEnableResetValue := P.gpioOutputEnableResetValue
  width_pos := P.gpioWidth_pos
  width_le := P.gpioWidth_le

end SocParams

/-- The registers of `soc_tcm_top` and of its instances. -/
structure Soc (P : SocParams) where
  core : Core
  perf : Perf := {}
  testDone : Bool := false
  testStatus : Word := 0#32
  demux : MemDemux := {}
  tcm : Tcm P.tcm
  mtimer : Mtimer
  uart : Uart P.uart := {}
  gpio : Gpio P.gpio

/-- The reset and the pins. -/
structure Soc.In (P : SocParams) where
  rst : Bool := false
  uartRx : Bool := true
  gpioIn : BitVec P.gpio.gpioWidth

namespace Soc

variable {P : SocParams} (s : Soc P) (i : In P)

/-- `core_dmem`, as the core drives it; the request depends on no response. -/
def coreDmem : MemOut where
  -- taken with an idle bus: the request reads neither port, which closes no loop
  reqValid := s.core.lsu.reqValid (s.core.lsuIn { rst := i.rst })
  req := s.core.lsu.req (s.core.lsuIn { rst := i.rst })

/-- The inputs of `u_dmem_demux`. -/
def demuxIn : MemDemux.In where
  rst := i.rst
  core := s.coreDmem i
  tcm := s.tcm.dmemRsp.drive true
  timer := s.mtimer.rsp.drive (Mtimer.reqReady { rst := i.rst })
  uart := s.uart.rsp.drive (s.uart.reqReady { rst := i.rst, bus := s.coreDmem i })
  gpio := s.gpio.rsp.drive (Gpio.reqReady { rst := i.rst, gpioIn := i.gpioIn })

/-- The inputs of `u_core`. -/
def coreIn : CoreIn where
  rst := i.rst
  mtip := s.mtimer.mtip
  imem := s.tcm.imemRsp.drive true
  dmem := s.demux.coreIn P.demux (s.demuxIn i)

/-- `imem`, as the core drives it. -/
def imem : MemOut where
  reqValid := s.core.ifStage.reqValid (s.core.ifIn (s.coreIn i))
  req := s.core.ifStage.req (s.core.ifIn (s.coreIn i))

/-- What the demultiplexer drives on the bus of a target. -/
def bus (t : DemuxTarget) : MemOut := s.demux.slaveReq P.demux (s.demuxIn i) t

/-- The inputs of `u_tcm`. -/
def tcmIn : Tcm.In where
  imem := s.imem i
  dmem := s.bus i .tcm

/-- The inputs of `u_mtimer`. -/
def mtimerIn : Mtimer.In where
  rst := i.rst
  bus := s.bus i .timer

/-- The inputs of `u_uart`. -/
def uartIn : Uart.In where
  rst := i.rst
  bus := s.bus i .uart
  uartRx := i.uartRx

/-- The inputs of `u_gpio`. -/
def gpioIn : Gpio.In P.gpio where
  rst := i.rst
  bus := s.bus i .gpio
  gpioIn := i.gpioIn

/-- `test_status_commit`. -/
def testStatusCommit : Bool :=
  match s.core.event with
  -- a whole-word store that retires; a trapping one completes nothing
  | some e => !e.trap && e.memWstrb == 0b1111#4 && e.memAddr == P.testStatusAddr
  | none => false

/-- The mailbox takes the first completion. -/
def mailboxTakes : Bool := !s.testDone && s.testStatusCommit

/-- `test_pass_o`. -/
def testPass : Bool := s.testDone && s.testStatus == P.testPassValue

/-- `test_fail_o`. -/
def testFail : Bool := s.testDone && s.testStatus != P.testPassValue

/-- `uart_tx_o`. -/
def uartTx : Bool := s.uart.uartTx (s.uartIn i)

/-- The clock edge of `soc_tcm_top`. -/
def next : Soc P where
  core := s.core.next P.core (s.coreIn i)
  perf := s.core.perfNext (s.coreIn i) s.perf
  testDone := if i.rst then false else s.testDone || s.mailboxTakes
  testStatus :=
    if i.rst then 0#32 else if s.mailboxTakes then s.core.memWbQ.event.memWdata else s.testStatus
  demux := s.demux.next P.demux (s.demuxIn i)
  tcm := s.tcm.next (s.tcmIn i)
  mtimer := s.mtimer.next P.mtimer (s.mtimerIn i)
  uart := s.uart.next (s.uartIn i)
  gpio := s.gpio.next (s.gpioIn i)

/-- The fixed reset state, with the registers and the array, which are not reset. -/
def resetState (P : SocParams) (regfile : Regfile) (mem : Vector Word P.tcm.wordCount) : Soc P where
  core :=
    { ifStage := { nextPcQ := P.core.resetVector, requestPcQ := P.core.resetVector }
      csrFile := CsrFile.reset P.core.trapVector
      regfile := regfile }
  tcm := { mem := mem }
  mtimer := Mtimer.resetState P.mtimer
  gpio := Gpio.resetState P.gpio

end Soc

end Rv32im

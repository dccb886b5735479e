import Rv32im.Rtl.Slave
import Mathlib.Data.Nat.Log

/-!
# `rv32_uart`

The 8-N-1 serial port: a ten-bit transmit shift register, a receiver that samples a synchronised
line in the middle of each bit, and a one-byte holding register with sticky errors.

* `UartParams`: the rates, with the elaboration check;
* `Uart.accessValid`, `Uart.readData`, `Uart.reqReady`: the bus side;
* `Uart.Tx.next`, `Uart.Rx.next`: the two directions;
* `Uart.next`: the clock edge.
-/

namespace Rv32im

/-- `CLKS_PER_BIT_CALC`: the rounded number of clocks per bit, in 32-bit arithmetic. -/
def clksPerBitCalc (clkFreqHz baudRate : Word) : Word :=
  if 0#32 < baudRate then (clkFreqHz + baudRate / 2#32) / baudRate else 0#32

/-- The parameters of `rv32_uart` that pass its elaboration check. -/
structure UartParams where
  baseAddr : Word := 0x10000000#32
  clkFreqHz : Word := 50000000#32
  baudRate : Word := 115200#32
  baudRate_ne : baudRate ≠ 0#32
  clkFreqHz_ne : clkFreqHz ≠ 0#32
  four_le : 4#32 ≤ clksPerBitCalc clkFreqHz baudRate

namespace UartParams

variable (p : UartParams)

/-- `TXDATA_ADDR`. -/
def txDataAddr : Word := p.baseAddr + 0x00#32
/-- `RXDATA_ADDR`. -/
def rxDataAddr : Word := p.baseAddr + 0x04#32
/-- `STATUS_ADDR`. -/
def statusAddr : Word := p.baseAddr + 0x08#32
/-- `BAUDDIV_ADDR`. -/
def bauddivAddr : Word := p.baseAddr + 0x0c#32

/-- `CLKS_PER_BIT`. -/
def clksPerBit : ℕ :=
  if 0#32 < clksPerBitCalc p.clkFreqHz p.baudRate then
    (clksPerBitCalc p.clkFreqHz p.baudRate).toNat
  else 1

/-- `HALF_BIT_CLKS`. -/
def halfBitClks : ℕ := if p.clksPerBit ≥ 2 then p.clksPerBit / 2 else 1

/-- `BAUD_COUNT_W`. -/
def baudCountW : ℕ := if p.clksPerBit > 1 then Nat.clog 2 p.clksPerBit else 1

/-- `BAUD_COUNT_W'(CLKS_PER_BIT - 1)`. -/
def bitReload : BitVec p.baudCountW := BitVec.ofNat _ (p.clksPerBit - 1)

/-- `BAUD_COUNT_W'(HALF_BIT_CLKS - 1)`. -/
def halfReload : BitVec p.baudCountW := BitVec.ofNat _ (p.halfBitClks - 1)

end UartParams

/-- `rx_state_e`. -/
inductive UartRxState
  | idle | start | data | stop
deriving DecidableEq, Repr

/-- The transmitter registers `tx_*_q`, with their reset values. -/
structure Uart.Tx (p : UartParams) where
  shiftQ : BitVec 10 := 0x3ff#10
  bitQ : BitVec 4 := 0#4
  countQ : BitVec p.baudCountW := 0#_
  busyQ : Bool := false
deriving DecidableEq, Repr

/-- The receiver registers `rx_*_q`, with their reset values. -/
structure Uart.Rx (p : UartParams) where
  metaQ : Bool := true
  syncQ : Bool := true
  stateQ : UartRxState := .idle
  countQ : BitVec p.baudCountW := 0#_
  bitQ : BitVec 3 := 0#3
  shiftQ : BitVec 8 := 0#8
  dataQ : BitVec 8 := 0#8
  validQ : Bool := false
  overrunQ : Bool := false
  frameErrorQ : Bool := false
deriving DecidableEq, Repr

/-- The registers of `rv32_uart`, with their reset values. -/
structure Uart (p : UartParams) where
  tx : Uart.Tx p := {}
  rx : Uart.Rx p := {}
  rsp : MemRspQ := {}
deriving DecidableEq, Repr

/-- The inputs of `rv32_uart`. -/
structure Uart.In where
  rst : Bool := false
  bus : MemOut := {}
  uartRx : Bool := true
deriving DecidableEq, Repr

namespace Uart

variable {p : UartParams} (q : Uart p) (i : In)

/-! ### The bus side -/

/-- `read_access_shape`. -/
def readAccessShape (r : MemReq) : Bool := !r.write && r.wstrb == 0b0000#4

/-- `write_access_shape`. -/
def writeAccessShape (r : MemReq) : Bool :=
  r.write && (r.wstrb == 0b0001#4 || r.wstrb == 0b0011#4 || r.wstrb == 0b1111#4)

/-- `access_valid`. -/
def accessValid (p : UartParams) (r : MemReq) : Bool :=
  (if r.addr = p.txDataAddr then readAccessShape r || writeAccessShape r
    else if r.addr = p.rxDataAddr then readAccessShape r
    else if r.addr = p.statusAddr then readAccessShape r || writeAccessShape r
    else if r.addr = p.bauddivAddr then readAccessShape r
    else false)
    && r.addr.extractLsb 1 0 == 0#2

/-- `read_data`. -/
def readData (addr : Word) : Word :=
  if addr = p.txDataAddr then BitVec.ofBool q.tx.busyQ ++ 0#31
  else if addr = p.rxDataAddr then BitVec.ofBool (!q.rx.validQ) ++ 0#23 ++ q.rx.dataQ
  else if addr = p.statusAddr then
    0#27 ++ BitVec.ofBool q.rx.frameErrorQ ++ BitVec.ofBool q.rx.overrunQ
      ++ BitVec.ofBool q.rx.validQ ++ BitVec.ofBool q.tx.busyQ ++ BitVec.ofBool (!q.tx.busyQ)
  else if addr = p.bauddivAddr then clksPerBitCalc p.clkFreqHz p.baudRate
  else 0#32

/-- `request_is_legal_tx_write`. -/
def requestIsLegalTxWrite (p : UartParams) (r : MemReq) : Bool :=
  r.addr == p.txDataAddr && writeAccessShape r && r.addr.extractLsb 1 0 == 0#2

/-- `uart_s.req_ready`. -/
def reqReady : Bool := !i.rst && (!requestIsLegalTxWrite p i.bus.req || !q.tx.busyQ)

/-- `req_fire`. -/
def reqFire : Bool := i.bus.reqValid && q.reqReady i

/-- `tx_write_accept`. -/
def txWriteAccept : Bool :=
  q.reqFire i && accessValid p i.bus.req && i.bus.req.write && i.bus.req.addr == p.txDataAddr

/-- `rx_read_accept`. -/
def rxReadAccept : Bool :=
  q.reqFire i && accessValid p i.bus.req && !i.bus.req.write && i.bus.req.addr == p.rxDataAddr

/-- `status_write_accept`. -/
def statusWriteAccept : Bool :=
  q.reqFire i && accessValid p i.bus.req && i.bus.req.write && i.bus.req.addr == p.statusAddr

/-- `rx_pop`. -/
def rxPop : Bool := q.rxReadAccept i && q.rx.validQ

/-- `uart_tx_o`. -/
def uartTx : Bool := if !i.rst && q.tx.busyQ then q.tx.shiftQ.getLsbD 0 else true

/-! ### The transmitter -/

/-- `tx_*_d`: `write` holds the byte of a store accepted in this cycle. -/
def Tx.next (t : Tx p) (write : Option (BitVec 8)) : Tx p :=
  match write with
  | some byte =>
    { shiftQ := 1#1 ++ byte ++ 0#1, bitQ := 0#4, countQ := p.bitReload, busyQ := true }
  | none =>
    if t.busyQ then
      if t.countQ = 0#_ then
        -- the stop bit has been sent
        if t.bitQ = 9#4 then
          { shiftQ := 0x3ff#10, bitQ := 0#4, countQ := p.bitReload, busyQ := false }
        else
          { t with shiftQ := 1#1 ++ t.shiftQ.extractLsb 9 1, bitQ := t.bitQ + 1#4
                   countQ := p.bitReload }
      else { t with countQ := t.countQ - 1#_ }
    else t

/-- The byte of the TXDATA store accepted in this cycle. -/
def txWrite : Option (BitVec 8) :=
  if q.txWriteAccept i then some (i.bus.req.wdata.extractLsb 7 0) else none

/-! ### The receiver -/

/-- A vector with one bit replaced. -/
def setBit (v : BitVec 8) (k : BitVec 3) (b : Bool) : BitVec 8 :=
  if b then v ||| 1#8 <<< k else v &&& ~~~(1#8 <<< k)

/-- The receiver after the bus access of the cycle: a STATUS store clears the errors it names and
an RXDATA read empties the holding register. -/
def Rx.access (r : Rx p) (clearOverrun clearFrameError pop : Bool) : Rx p :=
  { r with overrunQ := r.overrunQ && !clearOverrun
           frameErrorQ := r.frameErrorQ && !clearFrameError
           validQ := r.validQ && !pop }

/-- The state machine of the receiver, on the registers after the bus access. -/
def Rx.advance (r : Rx p) : Rx p :=
  match r.stateQ with
  | .idle => if r.syncQ then r else { r with stateQ := .start, countQ := p.halfReload }
  | .start =>
    if r.countQ = 0#_ then
      -- the line is high again in the middle of the start bit: a glitch
      if r.syncQ then { r with stateQ := .idle }
      else { r with stateQ := .data, countQ := p.bitReload, bitQ := 0#3 }
    else { r with countQ := r.countQ - 1#_ }
  | .data =>
    if r.countQ = 0#_ then
      let r := { r with shiftQ := setBit r.shiftQ r.bitQ r.syncQ, countQ := p.bitReload }
      if r.bitQ = 7#3 then { r with stateQ := .stop } else { r with bitQ := r.bitQ + 1#3 }
    else { r with countQ := r.countQ - 1#_ }
  | .stop =>
    if r.countQ = 0#_ then
      -- `validQ` is low here when this cycle pops, so the byte replaces the one just read
      { r with dataQ := if r.validQ then r.dataQ else r.shiftQ
               validQ := true
               overrunQ := r.overrunQ || r.validQ
               frameErrorQ := r.frameErrorQ || !r.syncQ
               stateQ := .idle, countQ := 0#_, bitQ := 0#3 }
    else { r with countQ := r.countQ - 1#_ }

/-- `rx_*_d` and the two-flop synchroniser. -/
def Rx.next (r : Rx p) (clearOverrun clearFrameError pop line : Bool) : Rx p :=
  { (r.access clearOverrun clearFrameError pop).advance with metaQ := line, syncQ := r.metaQ }

/-! ### The clock edge -/

/-- The clock edge of `rv32_uart`. -/
def next : Uart p :=
  if i.rst then {}
  else
    { tx := q.tx.next (q.txWrite i)
      rx := q.rx.next (q.statusWriteAccept i && i.bus.req.wdata.getLsbD 3)
        (q.statusWriteAccept i && i.bus.req.wdata.getLsbD 4) (q.rxPop i) i.uartRx
      rsp := .next (q.reqFire i) (accessValid p i.bus.req)
        (if i.bus.req.write then 0#32 else q.readData i.bus.req.addr) }

end Uart

end Rv32im

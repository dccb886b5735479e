import Rv32im.Rtl.Slave

/-!
# `rv32_gpio`

The general-purpose pins: synchronised inputs, an output latch and an output enable with byte
strobes, and the atomic set, clear and toggle registers.
-/

namespace Rv32im

/-- The parameters of `rv32_gpio`; the elaboration check bounds the width. -/
structure GpioParams where
  baseAddr : Word := 0x10010000#32
  gpioWidth : ℕ := 32
  outputResetValue : Word := 0#32
  outputEnableResetValue : Word := 0#32
  width_pos : 0 < gpioWidth
  width_le : gpioWidth ≤ 32

namespace GpioParams

variable (p : GpioParams)

/-- `INPUT_ADDR`. -/
def inputAddr : Word := p.baseAddr + 0x00#32
/-- `OUTPUT_ADDR`. -/
def outputAddr : Word := p.baseAddr + 0x04#32
/-- `OUTPUT_ENABLE_ADDR`. -/
def outputEnableAddr : Word := p.baseAddr + 0x08#32
/-- `OUTPUT_SET_ADDR`. -/
def outputSetAddr : Word := p.baseAddr + 0x0c#32
/-- `OUTPUT_CLEAR_ADDR`. -/
def outputClearAddr : Word := p.baseAddr + 0x10#32
/-- `OUTPUT_TOGGLE_ADDR`. -/
def outputToggleAddr : Word := p.baseAddr + 0x14#32

end GpioParams

/-- The registers of `rv32_gpio`. -/
structure Gpio (p : GpioParams) where
  inputMetaQ : BitVec p.gpioWidth
  inputSyncQ : BitVec p.gpioWidth
  outputQ : BitVec p.gpioWidth
  outputEnableQ : BitVec p.gpioWidth
  rsp : MemRspQ := {}
deriving DecidableEq, Repr

/-- The inputs of `rv32_gpio`. -/
structure Gpio.In (p : GpioParams) where
  rst : Bool := false
  bus : MemOut := {}
  gpioIn : BitVec p.gpioWidth
deriving DecidableEq, Repr

namespace Gpio

variable {p : GpioParams} (q : Gpio p) (i : In p)

/-- `gpio_s.req_ready`. -/
def reqReady : Bool := !i.rst

/-- `req_fire`. -/
def reqFire : Bool := i.bus.reqValid && reqReady i

/-- `read_access_shape`. -/
def readAccessShape (r : MemReq) : Bool := !r.write && r.wstrb == 0b0000#4

/-- `write_access_shape`. -/
def writeAccessShape (r : MemReq) : Bool := r.write && r.wstrb != 0b0000#4

/-- `write_byte_mask`. -/
def writeByteMask (r : MemReq) : Word := mergeBytes r.wstrb 0#32 0xffffffff#32

/-- `write_masked_data`. -/
def writeMaskedData (r : MemReq) : Word := r.wdata &&& writeByteMask r

/-- `access_valid`. -/
def accessValid (p : GpioParams) (r : MemReq) : Bool :=
  (if r.addr = p.inputAddr then readAccessShape r
    else if r.addr = p.outputAddr || r.addr = p.outputEnableAddr then
      readAccessShape r || writeAccessShape r
    else if r.addr = p.outputSetAddr || r.addr = p.outputClearAddr || r.addr = p.outputToggleAddr
      then writeAccessShape r
    else false)
    && r.addr.extractLsb 1 0 == 0#2

/-- `read_data`. -/
def readData (addr : Word) : Word :=
  if addr = p.inputAddr then q.inputSyncQ.setWidth 32
  else if addr = p.outputAddr then q.outputQ.setWidth 32
  else if addr = p.outputEnableAddr then q.outputEnableQ.setWidth 32
  else 0#32

/-- `register_write_accept`. -/
def registerWriteAccept : Bool := reqFire i && accessValid p i.bus.req && i.bus.req.write

/-- A latch after a write under the byte strobes. -/
def latch (q : BitVec p.gpioWidth) (r : MemReq) : BitVec p.gpioWidth :=
  q &&& ~~~(writeByteMask r).setWidth p.gpioWidth ||| (writeMaskedData r).setWidth p.gpioWidth

/-- `output_d`. -/
def outputD : BitVec p.gpioWidth :=
  let data := (writeMaskedData i.bus.req).setWidth p.gpioWidth
  if registerWriteAccept i then
    if i.bus.req.addr = p.outputAddr then latch q.outputQ i.bus.req
    else if i.bus.req.addr = p.outputSetAddr then q.outputQ ||| data
    else if i.bus.req.addr = p.outputClearAddr then q.outputQ &&& ~~~data
    else if i.bus.req.addr = p.outputToggleAddr then q.outputQ ^^^ data
    else q.outputQ
  else q.outputQ

/-- `output_enable_d`. -/
def outputEnableD : BitVec p.gpioWidth :=
  if registerWriteAccept i && i.bus.req.addr == p.outputEnableAddr then
    latch q.outputEnableQ i.bus.req
  else q.outputEnableQ

/-- The reset values. -/
def resetState (p : GpioParams) : Gpio p where
  inputMetaQ := 0#_
  inputSyncQ := 0#_
  outputQ := p.outputResetValue.setWidth p.gpioWidth
  outputEnableQ := p.outputEnableResetValue.setWidth p.gpioWidth

/-- The clock edge of `rv32_gpio`. -/
def next : Gpio p :=
  if i.rst then resetState p
  else
    { inputMetaQ := i.gpioIn
      inputSyncQ := q.inputMetaQ
      outputQ := q.outputD i
      outputEnableQ := q.outputEnableD i
      rsp := .next (reqFire i) (accessValid p i.bus.req)
        (if i.bus.req.write then 0#32 else q.readData i.bus.req.addr) }

end Gpio

end Rv32im

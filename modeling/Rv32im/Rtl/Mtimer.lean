import Rv32im.Rtl.Slave

/-!
# `rv32_mtimer`

The machine timer: `mtime`, which advances in every cycle that does not write it, and `mtimecmp`,
both accessible as aligned 32-bit halves.
-/

namespace Rv32im

/-- The parameters of `rv32_mtimer`. -/
structure MtimerParams where
  baseAddr : Word := 0x02000000#32
  mtimeResetValue : BitVec 64 := 0#64
  mtimecmpResetValue : BitVec 64 := 0xffffffffffffffff#64

namespace MtimerParams

variable (p : MtimerParams)

/-- `MTIMECMP_LO_ADDR`. -/
def mtimecmpLoAddr : Word := p.baseAddr + 0x4000#32
/-- `MTIMECMP_HI_ADDR`. -/
def mtimecmpHiAddr : Word := p.baseAddr + 0x4004#32
/-- `MTIME_LO_ADDR`. -/
def mtimeLoAddr : Word := p.baseAddr + 0xbff8#32
/-- `MTIME_HI_ADDR`. -/
def mtimeHiAddr : Word := p.baseAddr + 0xbffc#32

end MtimerParams

/-- The registers of `rv32_mtimer`. -/
structure Mtimer where
  mtimeQ : BitVec 64
  mtimecmpQ : BitVec 64
  rsp : MemRspQ := {}
deriving DecidableEq, Repr

/-- The inputs of `rv32_mtimer`. -/
structure Mtimer.In where
  rst : Bool := false
  bus : MemOut := {}
deriving DecidableEq, Repr

namespace Mtimer

variable (p : MtimerParams) (q : Mtimer) (i : In)

/-- `timer_s.req_ready`. -/
def reqReady : Bool := !i.rst

/-- `req_fire`. -/
def reqFire : Bool := i.bus.reqValid && reqReady i

/-- `mtip_o`. -/
def mtip : Bool := q.mtimecmpQ ≤ q.mtimeQ

/-- `addr_implemented`. -/
def addrImplemented (addr : Word) : Bool :=
  addr == p.mtimecmpLoAddr || addr == p.mtimecmpHiAddr || addr == p.mtimeLoAddr
    || addr == p.mtimeHiAddr

/-- `read_data`. -/
def readData (addr : Word) : Word :=
  if addr = p.mtimecmpLoAddr then q.mtimecmpQ.extractLsb 31 0
  else if addr = p.mtimecmpHiAddr then q.mtimecmpQ.extractLsb 63 32
  else if addr = p.mtimeLoAddr then q.mtimeQ.extractLsb 31 0
  else if addr = p.mtimeHiAddr then q.mtimeQ.extractLsb 63 32
  else 0#32

/-- `access_shape_valid`. -/
def accessShapeValid (r : MemReq) : Bool :=
  if r.write then r.wstrb == 0b1111#4 else r.wstrb == 0b0000#4

/-- `access_valid`. -/
def accessValid (r : MemReq) : Bool :=
  r.addr.extractLsb 1 0 == 0#2 && addrImplemented p r.addr && accessShapeValid r

/-- A software write takes effect in this cycle. -/
def writes : Bool := reqFire i && accessValid p i.bus.req && i.bus.req.write

/-- `mtime_d`: a write to either half suppresses the tick. -/
def mtimeD : BitVec 64 :=
  if writes p i then
    -- a write to the compare register does not stop the clock
    if i.bus.req.addr = p.mtimecmpLoAddr || i.bus.req.addr = p.mtimecmpHiAddr then q.mtimeQ + 1#64
    else if i.bus.req.addr = p.mtimeLoAddr then q.mtimeQ.extractLsb 63 32 ++ i.bus.req.wdata
    else if i.bus.req.addr = p.mtimeHiAddr then i.bus.req.wdata ++ q.mtimeQ.extractLsb 31 0
    else q.mtimeQ + 1#64
  else q.mtimeQ + 1#64

/-- `mtimecmp_d`. -/
def mtimecmpD : BitVec 64 :=
  if writes p i then
    if i.bus.req.addr = p.mtimecmpLoAddr then q.mtimecmpQ.extractLsb 63 32 ++ i.bus.req.wdata
    else if i.bus.req.addr = p.mtimecmpHiAddr then i.bus.req.wdata ++ q.mtimecmpQ.extractLsb 31 0
    else q.mtimecmpQ
  else q.mtimecmpQ

/-- The reset values. -/
def resetState : Mtimer where
  mtimeQ := p.mtimeResetValue
  mtimecmpQ := p.mtimecmpResetValue

/-- The clock edge of `rv32_mtimer`. -/
def next : Mtimer :=
  if i.rst then resetState p
  else
    { mtimeQ := q.mtimeD p i
      mtimecmpQ := q.mtimecmpD p i
      rsp := .next (reqFire i) (accessValid p i.bus.req)
        (if i.bus.req.write then 0#32 else q.readData p i.bus.req.addr) }

end Mtimer

end Rv32im

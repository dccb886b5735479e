import Rv32im.Rtl.Slave

/-!
# `rv32_mem_demux`

The data port of the core routed to the memory and three peripherals by a masked address compare.
One slot holds the target that owns the unanswered request; it is retaken in the cycle that
releases it.

* `DemuxParams`: the apertures, with the elaboration checks;
* `MemDemux.slaveReq`, `MemDemux.coreIn`: what the demultiplexer drives on each side;
* `MemDemux.next`: the clock edge.
-/

namespace Rv32im

/-- `address_matches`. -/
def addressMatches (address base mask : Word) : Bool := (address ^^^ base) &&& mask == 0#32

/-- `regions_overlap`. -/
def regionsOverlap (baseA maskA baseB maskB : Word) : Bool :=
  (baseA ^^^ baseB) &&& maskA &&& maskB == 0#32

/-- The parameters of `rv32_mem_demux` that pass its elaboration checks. -/
structure DemuxParams where
  timerBaseAddr : Word := 0x02000000#32
  timerAddrMask : Word := 0xffff0000#32
  uartBaseAddr : Word := 0x10000000#32
  uartAddrMask : Word := 0xffff0000#32
  gpioBaseAddr : Word := 0x10010000#32
  gpioAddrMask : Word := 0xffff0000#32
  timer_uart : regionsOverlap timerBaseAddr timerAddrMask uartBaseAddr uartAddrMask = false
  timer_gpio : regionsOverlap timerBaseAddr timerAddrMask gpioBaseAddr gpioAddrMask = false
  uart_gpio : regionsOverlap uartBaseAddr uartAddrMask gpioBaseAddr gpioAddrMask = false

/-- `target_e`. -/
inductive DemuxTarget
  | tcm | timer | uart | gpio
deriving DecidableEq, Repr

/-- The registers of `rv32_mem_demux`, with their reset values. -/
structure MemDemux where
  pendingQ : Bool := false
  pendingTargetQ : DemuxTarget := .tcm
deriving DecidableEq, Repr

/-- The inputs of `rv32_mem_demux`: the request of the core and what the slaves drive. -/
structure MemDemux.In where
  rst : Bool := false
  core : MemOut := {}
  tcm : MemIn := {}
  timer : MemIn := {}
  uart : MemIn := {}
  gpio : MemIn := {}
deriving DecidableEq, Repr

/-- What the slave at a target drives. -/
def MemDemux.In.slave (i : MemDemux.In) : DemuxTarget → MemIn
  | .tcm => i.tcm
  | .timer => i.timer
  | .uart => i.uart
  | .gpio => i.gpio

namespace MemDemux

variable (p : DemuxParams) (q : MemDemux) (i : In)

/-- `request_target`. -/
def requestTarget (addr : Word) : DemuxTarget :=
  if addressMatches addr p.timerBaseAddr p.timerAddrMask then .timer
  else if addressMatches addr p.uartBaseAddr p.uartAddrMask then .uart
  else if addressMatches addr p.gpioBaseAddr p.gpioAddrMask then .gpio
  else .tcm

/-- `selected_req_ready`. -/
def selectedReqReady : Bool := (i.slave (requestTarget p i.core.req.addr)).reqReady

/-- `pending_rsp_valid`, `pending_rsp_rdata` and `pending_rsp_err`. -/
def pendingRsp : MemRspQ :=
  if q.pendingQ then
    let m := i.slave q.pendingTargetQ
    { valid := m.rspValid, rsp := { rdata := m.rspRdata, err := m.rspErr } }
  else {}

/-- `issue_allowed`. -/
def issueAllowed : Bool := !i.rst && (!q.pendingQ || (q.pendingRsp i).valid)

/-- `core_s.req_ready`. -/
def reqReady : Bool := q.issueAllowed i && selectedReqReady p i

/-- What is driven on the port of a target: the payload is broadcast. -/
def slaveReq (t : DemuxTarget) : MemOut where
  reqValid := q.issueAllowed i && i.core.reqValid && requestTarget p i.core.req.addr == t
  req := i.core.req

/-- `core_s.rsp_valid`. -/
def rspValid : Bool := q.pendingQ && (q.pendingRsp i).valid

/-- What is driven on the port of the core. -/
def coreIn : MemIn where
  reqReady := q.reqReady p i
  rspValid := q.rspValid i
  rspRdata := if q.rspValid i then (q.pendingRsp i).rsp.rdata else 0#32
  rspErr := if q.rspValid i then (q.pendingRsp i).rsp.err else false

/-- `request_fire`. -/
def requestFire : Bool := i.core.reqValid && q.reqReady p i

/-- The clock edge of `rv32_mem_demux`. -/
def next : MemDemux :=
  if i.rst then {}
  else
    match q.requestFire p i, q.rspValid i with
    -- a request fires only when the slot is free or released in this cycle
    | true, _ => { pendingQ := true, pendingTargetQ := requestTarget p i.core.req.addr }
    | false, true => { q with pendingQ := false }
    | false, false => q

end MemDemux

end Rv32im

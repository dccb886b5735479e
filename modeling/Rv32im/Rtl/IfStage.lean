import Rv32im.Rtl.Pkg

/-!
# `if_stage`

The fetch unit: one request slot, one output holding register, a stale tag for a request that
a flush or redirect invalidated, and a remembered redirect.

* `IfStage.reqValid`, `IfStage.reqAddr`: the request channel;
* `IfStage.fetchValid`, `IfStage.fetchPacket`: the packet offered to IF/ID;
* `IfStage.next`: the clock edge.
-/

namespace Rv32im

/-- `if_state_e`. -/
inductive IfState
  | idle | busy
deriving DecidableEq, Repr

/-- The registers of `if_stage`. -/
structure IfStage where
  stateQ : IfState := .idle
  nextPcQ : Word
  requestPcQ : Word
  requestSentQ : Bool := false
  discardQ : Bool := false
  redirectPendingQ : Bool := false
  packetValidQ : Bool := false
  packetPcQ : Word := 0#32
  packetInsnQ : Word := 0#32
  packetExcQ : Exc := {}
deriving DecidableEq, Repr

/-- The inputs of `if_stage`. -/
structure IfStage.In where
  rst : Bool := false
  enable : Bool := false
  consume : Bool := false
  flush : Bool := false
  redirectValid : Bool := false
  redirectPc : Word := 0#32
  imem : MemIn := {}
deriving DecidableEq, Repr

namespace IfStage

variable (q : IfStage) (i : In)

/-- `kill_event`. -/
def killEvent : Bool := i.flush || i.redirectValid

/-- `want_fetch`. -/
def wantFetch : Bool := i.redirectValid || (!i.flush && (i.enable || q.redirectPendingQ))

/-- `launch_pc`. -/
def launchPc : Word := if i.redirectValid then i.redirectPc else q.nextPcQ

/-- `held_request`. -/
def heldRequest : Bool := q.stateQ == .busy && !q.requestSentQ

/-- `launch_request`. -/
def launchRequest : Bool :=
  if !i.rst && q.wantFetch i then
    -- a request is launched only when its packet will find the holding register free
    if q.stateQ = .idle then killEvent i || !q.packetValidQ || i.consume
    else if q.requestSentQ && i.imem.rspValid then
      -- the slot is reused in the cycle of its response
      i.redirectValid || (!i.flush && !q.packetValidQ && (q.discardQ || i.consume))
    else false
  else false

/-- `imem_m.req_valid`. -/
def reqValid : Bool := !i.rst && (q.heldRequest || q.launchRequest i)

/-- `imem_m.req_addr`. -/
def reqAddr : Word := if q.heldRequest then q.requestPcQ else q.launchPc i

/-- The payload driven on the request channel; the instruction port never writes. -/
def req : MemReq := { addr := q.reqAddr i }

/-- `request_fire`. -/
def requestFire : Bool := q.reqValid i && i.imem.reqReady

/-- `request_stale`. -/
def requestStale : Bool := q.discardQ || killEvent i

/-- `response_seen`. -/
def responseSeen : Bool :=
  if q.stateQ = .busy then i.imem.rspValid && (q.requestSentQ || q.requestFire i)
  else q.launchRequest i && q.requestFire i && i.imem.rspValid

/-- `response_pc`. -/
def responsePc : Word := if q.stateQ = .busy then q.requestPcQ else q.launchPc i

/-- `response_stale`. -/
def responseStale : Bool := if q.stateQ = .busy then q.requestStale i else false

/-- `response_live`. -/
def responseLive : Bool := q.responseSeen i && !q.responseStale i

/-- `response_insn` of a live response. -/
def responseInsn : Word := if i.imem.rspErr then 0#32 else i.imem.rspRdata

/-- `response_exc` of a live response. -/
def responseExc : Exc :=
  if i.imem.rspErr then
    { valid := true, cause := excInstAccessFault, tval := q.responsePc i }
  else {}

/-- `fetch_valid_o`. -/
def fetchValid : Bool := !i.rst && !killEvent i && (q.packetValidQ || q.responseLive i)

/-- The packet `if_id_d` built from the fetch outputs: a held packet has priority over the
response of this cycle. -/
def fetchPacket : IfId :=
  if q.fetchValid i then
    if q.packetValidQ then
      { valid := true, pc := q.packetPcQ, insn := q.packetInsnQ, exc := q.packetExcQ }
    else
      { valid := true, pc := q.responsePc i, insn := responseInsn i, exc := q.responseExc i }
  else {}

/-- `packet_consumed`. -/
def packetConsumed : Bool := q.packetValidQ && !killEvent i && i.consume

/-- `response_consumed`. -/
def responseConsumed : Bool :=
  q.responseLive i && !q.packetValidQ && !killEvent i && i.consume

/-- The holding register: emptied by a kill or by its consumer, filled by a live response that
is not consumed at once. -/
def nextPacket : IfStage :=
  let q' : IfStage :=
    if killEvent i || q.packetConsumed i then { q with packetValidQ := false } else q
  if q.responseLive i && !q.responseConsumed i then
    { q' with packetValidQ := true, packetPcQ := q.responsePc i
              packetInsnQ := responseInsn i, packetExcQ := q.responseExc i }
  else q'

/-- The newest redirect target is the next useful PC; a pure flush forgets a remembered
redirect. -/
def nextRedirect (q' : IfStage) : IfStage :=
  if i.redirectValid then { q' with nextPcQ := i.redirectPc, redirectPendingQ := true }
  else if i.flush then { q' with redirectPendingQ := false }
  else q'

/-- `IF_IDLE`: the request slot. -/
def nextIdle (q' : IfStage) : IfStage :=
  let q' : IfStage := { q' with discardQ := false, requestSentQ := false }
  if q.launchRequest i then
    let q' : IfStage := { q' with requestPcQ := q.launchPc i }
    if q.requestFire i then
      let q' : IfStage :=
        { q' with nextPcQ := q.launchPc i + 4#32, redirectPendingQ := false }
      -- a response in the cycle of the request leaves the slot free
      if i.imem.rspValid then q' else { q' with stateQ := .busy, requestSentQ := true }
    else { q' with stateQ := .busy, requestSentQ := false }
  else q'

/-- `IF_BUSY`: the request slot. -/
def nextBusy (q' : IfStage) : IfStage :=
  let q' : IfStage := if killEvent i then { q' with discardQ := true } else q'
  if !q.requestSentQ && q.requestFire i then
    let q' : IfStage :=
      -- a stale request is still held to its handshake but no longer moves the PC
      if q.requestStale i then q'
      else { q' with nextPcQ := q.requestPcQ + 4#32, redirectPendingQ := false }
    if i.imem.rspValid then
      { q' with stateQ := .idle, requestSentQ := false, discardQ := false }
    else { q' with requestSentQ := true, discardQ := q.requestStale i }
  else if q.requestSentQ && i.imem.rspValid then
    let q' : IfStage := { q' with stateQ := .idle, requestSentQ := false, discardQ := false }
    -- the response frees the slot and the next request takes it at once
    if q.launchRequest i then
      let q' : IfStage := { q' with requestPcQ := q.launchPc i, stateQ := .busy }
      if q.requestFire i then
        { q' with requestSentQ := true, nextPcQ := q.launchPc i + 4#32
                  redirectPendingQ := false }
      else { q' with requestSentQ := false }
    else q'
  else q'

/-- The clock edge under reset: a request accepted before reset and still unanswered is
drained. -/
def reset (resetVector : Word) : IfStage :=
  if q.stateQ = .busy ∧ q.requestSentQ = true ∧ i.imem.rspValid = false then
    { stateQ := .busy, nextPcQ := resetVector, requestPcQ := resetVector
      requestSentQ := true, discardQ := true }
  else { nextPcQ := resetVector, requestPcQ := resetVector }

/-- The clock edge of `if_stage`. -/
def next (resetVector : Word) : IfStage :=
  if i.rst then q.reset i resetVector
  else
    let q' := nextRedirect i (q.nextPacket i)
    match q.stateQ with
    | .idle => q.nextIdle i q'
    | .busy => q.nextBusy i q'

/-- A clock edge without reset works on the request slot by its state. -/
theorem next_eq {q : IfStage} {i : In} (w : Word) (hrst : i.rst = false) : q.next i w =
    if q.stateQ = .idle then q.nextIdle i (nextRedirect i (q.nextPacket i))
    else q.nextBusy i (nextRedirect i (q.nextPacket i)) := by
  cases hs : q.stateQ <;> simp [next, hrst, hs]

end IfStage

end Rv32im

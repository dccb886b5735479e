import Rv32im.Rtl.Pkg

/-!
# `lsu`

The blocking load/store unit: lane formatting, local alignment faults, one bus transaction at
a time, and the drain of a response whose operation was killed or reset away.

* `Lsu.req`: the request channel, independent of the response datapath;
* `Lsu.rspValid`, `Lsu.loadData`, `Lsu.exception`: the response to the pipeline;
* `Lsu.next`: the clock edge.
-/

namespace Rv32im

/-- `lsu_state_e`. -/
inductive LsuState
  | idle | busy | resp
deriving DecidableEq, Repr

/-- The registers of `lsu`, with their reset values. -/
structure Lsu where
  stateQ : LsuState := .idle
  cmdQ : MemCmd := .none
  sizeQ : MemSize := .word
  loadUnsignedQ : Bool := false
  addrQ : Word := 0#32
  storeWstrbQ : BitVec 4 := 0#4
  storeWdataQ : Word := 0#32
  requestSentQ : Bool := false
  discardQ : Bool := false
  loadDataQ : Word := 0#32
  exceptionQ : Exc := {}
deriving DecidableEq, Repr

/-- The inputs of `lsu` other than `rsp_ready_i`, on which no output depends. -/
structure Lsu.In where
  rst : Bool := false
  kill : Bool := false
  reqValid : Bool := false
  cmd : MemCmd := .none
  size : MemSize := .byte
  loadUnsigned : Bool := false
  addr : Word := 0#32
  storeData : Word := 0#32
  dmem : MemIn := {}
deriving DecidableEq, Repr

namespace Lsu

/-! ### Lane formatting and exceptions -/

/-- `address_misaligned`. -/
def addressMisaligned (size : MemSize) (addr : Word) : Bool :=
  match size with
  | .byte => false
  | .half => addr.getLsbD 0
  | .word => addr.extractLsb 1 0 != 0#2

/-- `make_misaligned_exception`. -/
def makeMisalignedException (cmd : MemCmd) (addr : Word) : Exc :=
  { valid := true, tval := addr
    cause := if cmd = .load then excLoadAddrMisaligned else excStoreAddrMisaligned }

/-- `make_access_exception`. -/
def makeAccessException (cmd : MemCmd) (addr : Word) (error : Bool) : Exc :=
  if error then
    { valid := true, tval := addr
      cause := if cmd = .load then excLoadAccessFault else excStoreAccessFault }
  else {}

/-- `extract_load_data`. -/
def extractLoadData (readData addr : Word) (size : MemSize) (loadUnsigned : Bool) : Word :=
  let shifted := readData >>> (addr.extractLsb 1 0 ++ 0#3)
  match size with
  | .byte =>
    if loadUnsigned then (shifted.extractLsb 7 0).setWidth 32
    else (shifted.extractLsb 7 0).signExtend 32
  | .half =>
    if loadUnsigned then (shifted.extractLsb 15 0).setWidth 32
    else (shifted.extractLsb 15 0).signExtend 32
  | .word => shifted

/-- `input_store_wstrb`. -/
def inputStoreWstrb (size : MemSize) (addr : Word) : BitVec 4 :=
  match size with
  | .byte => 0b0001#4 <<< addr.extractLsb 1 0
  | .half => 0b0011#4 <<< (addr.extractLsb 1 1 ++ 0#1)
  | .word => 0b1111#4

/-- `input_store_wdata`. -/
def inputStoreWdata (size : MemSize) (addr storeData : Word) : Word :=
  match size with
  | .byte => (0#24 ++ storeData.extractLsb 7 0) <<< (addr.extractLsb 1 0 ++ 0#3)
  | .half => (0#16 ++ storeData.extractLsb 15 0) <<< (addr.extractLsb 1 1 ++ 0#4)
  | .word => storeData

/-- A load or a store. -/
def isMemory (cmd : MemCmd) : Bool := cmd == .load || cmd == .store

/-- The load result a bus answer gives: zero for a store or an error. -/
def responseData (cmd : MemCmd) (size : MemSize) (loadUnsigned : Bool) (addr : Word)
    (rsp : MemRsp) : Word :=
  if cmd = .load ∧ rsp.err = false then extractLoadData rsp.rdata addr size loadUnsigned else 0#32

/-! ### The unit -/

variable (q : Lsu) (i : In)

/-- `input_is_memory`. -/
def inputIsMemory : Bool := isMemory i.cmd

/-- `input_misaligned`. -/
def inputMisaligned : Bool := addressMisaligned i.size i.addr

/-- `req_ready_o`. -/
def reqReady : Bool := q.stateQ == .idle && !i.rst && !i.kill

/-- The pipeline operation is accepted in this cycle. -/
def accepts : Bool := i.reqValid && q.reqReady i

/-- `issue_input`. -/
def issueInput : Bool := i.reqValid && q.reqReady i && inputIsMemory i && !inputMisaligned i

/-- `issue_saved`. -/
def issueSaved : Bool := q.stateQ == .busy && !q.requestSentQ

/-- `dmem_m.req_valid`. -/
def reqValid : Bool := q.issueInput i || q.issueSaved

/-- `dmem_m.req_write`. -/
def reqWrite : Bool := if q.issueInput i then i.cmd == .store else q.cmdQ == .store

/-- The payload driven on the request channel. -/
def req : MemReq where
  addr := if q.issueInput i then Word.align i.addr else Word.align q.addrQ
  -- the payload is held from the saved operation once the unit is busy
  write := q.reqWrite i
  wdata := if q.issueInput i then inputStoreWdata i.size i.addr i.storeData else q.storeWdataQ
  wstrb :=
    if q.reqWrite i then
      if q.issueInput i then inputStoreWstrb i.size i.addr else q.storeWstrbQ
    else 0#4

/-- `request_fire`. -/
def requestFire : Bool := q.reqValid i && i.dmem.reqReady

/-- `response_seen`. -/
def responseSeen : Bool :=
  i.dmem.rspValid
    -- an answer counts only for a request sent before or accepted in this cycle
    && ((q.stateQ == .busy && (q.requestSentQ || q.requestFire i))
      || (q.stateQ == .idle && q.requestFire i))

/-- `response_discard`. -/
def responseDiscard : Bool := i.kill || (q.stateQ == .busy && q.discardQ)

/-- The bus response of this cycle. -/
def busRsp : MemRsp := { rdata := i.dmem.rspRdata, err := i.dmem.rspErr }

/-- `response_load_data`: from the live inputs in `LSU_IDLE`, from the saved operation else. -/
def responseLoadData : Word :=
  if q.stateQ = .idle then responseData i.cmd i.size i.loadUnsigned i.addr (busRsp i)
  else responseData q.cmdQ q.sizeQ q.loadUnsignedQ q.addrQ (busRsp i)

/-- `response_exception`. -/
def responseException : Exc :=
  if q.stateQ = .idle then makeAccessException i.cmd i.addr i.dmem.rspErr
  else makeAccessException q.cmdQ q.addrQ i.dmem.rspErr

/-- `rsp_valid_o`. -/
def rspValid : Bool :=
  if q.stateQ = .resp then !i.kill else q.responseSeen i && !q.responseDiscard i

/-- `load_data_o`. -/
def loadData : Word :=
  if q.rspValid i then
    if q.stateQ = .resp then q.loadDataQ else q.responseLoadData i
  else 0#32

/-- `exception_o`. -/
def exception : Exc :=
  if q.rspValid i then
    if q.stateQ = .resp then q.exceptionQ else q.responseException i
  else {}

/-- `trace_wstrb_o`. -/
def traceWstrb : BitVec 4 :=
  if q.stateQ = .idle then
    if q.issueInput i && i.cmd == .store then inputStoreWstrb i.size i.addr else 0#4
  else if q.cmdQ = .store then q.storeWstrbQ else 0#4

/-- `trace_wdata_o`. -/
def traceWdata : Word :=
  if q.stateQ = .idle then
    if q.issueInput i && i.cmd == .store then inputStoreWdata i.size i.addr i.storeData else 0#32
  else if q.cmdQ = .store then q.storeWdataQ else 0#32

/-- The clock edge under reset: a request accepted before reset and still unanswered is
drained. -/
def reset : Lsu :=
  if q.stateQ = .busy ∧ q.requestSentQ = true ∧ i.dmem.rspValid = false then
    { stateQ := .busy, requestSentQ := true, discardQ := true }
  else {}

/-- `LSU_IDLE`: the accepted operation is saved, whatever becomes of it. -/
def nextIdle (rspReady : Bool) : Lsu :=
  if q.accepts i then
    let saves := i.cmd == .store && !inputMisaligned i
    let s : Lsu :=
      { q with discardQ := false, cmdQ := i.cmd, sizeQ := i.size
               loadUnsignedQ := i.loadUnsigned, addrQ := i.addr
               storeWstrbQ := if saves then inputStoreWstrb i.size i.addr else 0#4
               storeWdataQ := if saves then inputStoreWdata i.size i.addr i.storeData else 0#32
               loadDataQ := 0#32, exceptionQ := {} }
    -- a local answer: no bus request is made
    if !inputIsMemory i || inputMisaligned i then
      { s with exceptionQ :=
                 if inputIsMemory i && inputMisaligned i then makeMisalignedException i.cmd i.addr
                 else {}
               stateQ := .resp }
    -- accepted and answered in one cycle; the result is buffered only if it is not taken
    else if q.requestFire i && i.dmem.rspValid then
      if rspReady then s
      else { s with loadDataQ := q.responseLoadData i, exceptionQ := q.responseException i
                    stateQ := .resp }
    else { s with requestSentQ := q.requestFire i, stateQ := .busy }
  else { q with discardQ := false }

/-- `LSU_BUSY`. -/
def nextBusy (rspReady : Bool) : Lsu :=
  if q.responseSeen i then
    let s : Lsu := { q with requestSentQ := false, discardQ := false }
    -- a drained response goes nowhere, so nobody has to take it
    if q.responseDiscard i || rspReady then { s with stateQ := .idle }
    else { s with loadDataQ := q.responseLoadData i, exceptionQ := q.responseException i
                  stateQ := .resp }
  else
    -- the request stays on the bus after a kill; only its response is marked
    { q with discardQ := if i.kill then true else q.discardQ
             requestSentQ := if q.requestFire i then true else q.requestSentQ }

/-- `LSU_RESP`. -/
def nextResp (rspReady : Bool) : Lsu :=
  if i.kill || rspReady then { q with stateQ := .idle } else q

/-- The clock edge of `lsu`. -/
def next (rspReady : Bool) : Lsu :=
  if i.rst then q.reset i
  else
    match q.stateQ with
    | .idle => q.nextIdle i rspReady
    | .busy => q.nextBusy i rspReady
    | .resp => q.nextResp i rspReady

/-- A clock edge without reset works on the operation by the state. -/
theorem next_eq {q : Lsu} {i : In} (b : Bool) (hrst : i.rst = false) : q.next i b =
    if q.stateQ = .idle then q.nextIdle i b
    else if q.stateQ = .busy then q.nextBusy i b
    else q.nextResp i b := by
  cases hs : q.stateQ <;> simp [next, hrst, hs]

end Lsu

end Rv32im

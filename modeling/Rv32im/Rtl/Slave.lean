import Rv32im.Rtl.Pkg

/-!
# The slave side of `rv32_mem_if`

What a master drives on a port, and the response registers that every target of the SoC keeps:
an accepted request is answered by registers in the next cycle.

* `MemOut`: `req_valid` and the payload;
* `MemRspQ`: the response registers, with `MemRspQ.next` as all targets write them;
* `mergeBytes`: a write under byte strobes.
-/

namespace Rv32im

/-- What the master drives on one port in a cycle: `req_valid` and the request payload. -/
structure MemOut where
  reqValid : Bool := false
  req : MemReq := {}
deriving DecidableEq, Repr

/-- The request accepted in a cycle in which the slave drives `reqReady`. -/
def MemOut.accepted (m : MemOut) (reqReady : Bool) : Option MemReq :=
  if m.reqValid && reqReady then some m.req else none

/-- A request is accepted in a handshake. -/
theorem MemOut.isSome_accepted (m : MemOut) (b : Bool) :
    (m.accepted b).isSome = (m.reqValid && b) := by
  unfold MemOut.accepted
  split <;> simp_all

/-- What is accepted is what is presented. -/
theorem MemOut.accepted_eq_some {m : MemOut} {b : Bool} {r : MemReq} :
    m.accepted b = some r ↔ (m.reqValid && b) = true ∧ m.req = r := by
  unfold MemOut.accepted
  split <;> simp_all

/-- The same payload with `req_valid` low. -/
def MemOut.quiet (m : MemOut) : MemOut := { m with reqValid := false }

/-- `rsp_valid`, `rsp_rdata` and `rsp_err` as registers. -/
structure MemRspQ where
  valid : Bool := false
  rsp : MemRsp := {}
deriving DecidableEq, Repr

namespace MemRspQ

/-- The clock edge of the response registers: an access that fires is answered, with an error and
no data unless it is valid. -/
def next (fire accessValid : Bool) (readData : Word) : MemRspQ where
  valid := fire
  rsp :=
    if fire then { rdata := if accessValid then readData else 0#32, err := !accessValid } else {}

/-- The response the registers show. -/
def response (q : MemRspQ) : Option MemRsp := if q.valid then some q.rsp else none

/-- What the slave drives on its port. -/
def drive (q : MemRspQ) (reqReady : Bool) : MemIn where
  reqReady := reqReady
  rspValid := q.valid
  rspRdata := q.rsp.rdata
  rspErr := q.rsp.err

@[simp] theorem rsp_drive (q : MemRspQ) (b : Bool) : (q.drive b).rsp = q.response := rfl

@[simp] theorem isSome_response_next (fire accessValid : Bool) (readData : Word) :
    (next fire accessValid readData).response.isSome = fire := by
  cases fire <;> rfl

/-- The failure of an answer is its error. -/
@[simp] theorem any_err_next (fire accessValid : Bool) (readData : Word) :
    (next fire accessValid readData).response.any MemRsp.err = (fire && !accessValid) := by
  cases fire <;> simp [next, response]

end MemRspQ

/-- Byte lane `k` of a word. -/
def Word.lane (w : Word) (k : ℕ) : BitVec 8 := w.extractLsb' (8 * k) 8

/-- The bytes of `new` that `wstrb` selects over the bytes of `old`. -/
def mergeBytes (wstrb : BitVec 4) (old new : Word) : Word :=
  let byte (k : ℕ) : BitVec 8 := if wstrb.getLsbD k then Word.lane new k else Word.lane old k
  byte 3 ++ byte 2 ++ byte 1 ++ byte 0

/-- Each lane is written or kept as its strobe says. -/
theorem Word.lane_mergeBytes (wstrb : BitVec 4) (old new : Word) {k : ℕ} (hk : k < 4) :
    Word.lane (mergeBytes wstrb old new) k =
      if wstrb.getLsbD k then Word.lane new k else Word.lane old k := by
  have : k = 0 ∨ k = 1 ∨ k = 2 ∨ k = 3 := by omega
  unfold mergeBytes
  rcases this with rfl | rfl | rfl | rfl <;>
  · apply BitVec.eq_of_getLsbD_eq
    intro j hj
    simp [Word.lane, hj]
    grind

end Rv32im

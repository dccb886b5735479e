import Rv32im.Rtl.Lsu
import Rv32im.Clocked.Channel

/-!
# The load/store unit on its port

What one clock edge of `lsu` can do, and how its state follows the history of the data port.

* `LsuOp`: what the unit keeps of an operation, and the request and response it stands for;
* `Lsu.next_cases`: the cases of a clock edge without reset;
* `Lsu.ResetAccepts`: a reset cycle in which the memory accepts the request the unit holds;
* `Lsu.Port`: the relation between the unit and the channel, kept by every cycle that is not
  of that kind;
* `Lsu.Awaits`: what is left of it that every cycle keeps.
-/

namespace Rv32im

open Clocked

/-- What the LSU keeps of an operation. -/
structure LsuOp where
  cmd : MemCmd
  size : MemSize
  loadUnsigned : Bool
  addr : Word
  wstrb : BitVec 4
  wdata : Word
deriving DecidableEq, Repr

namespace LsuOp

variable (o : LsuOp)

/-- The request of an aligned load or store. -/
def req : MemReq where
  addr := Word.align o.addr
  write := o.cmd == .store
  wdata := o.wdata
  wstrb := if o.cmd == .store then o.wstrb else 0#4

/-- The load result a bus answer gives. -/
def loadData (rsp : MemRsp) : Word :=
  Lsu.responseData o.cmd o.size o.loadUnsigned o.addr rsp

/-- The exception a bus answer gives. -/
def exception (rsp : MemRsp) : Exc := Lsu.makeAccessException o.cmd o.addr rsp.err

/-- A load or store that goes to the bus. -/
def onBus : Bool := Lsu.isMemory o.cmd && !Lsu.addressMisaligned o.size o.addr

/-- The exception of an operation that does not go to the bus. -/
def localException : Exc :=
  if Lsu.isMemory o.cmd && Lsu.addressMisaligned o.size o.addr then
    Lsu.makeMisalignedException o.cmd o.addr
  else {}

end LsuOp

namespace Lsu

/-- The operation saved in the registers. -/
def op (q : Lsu) : LsuOp :=
  ⟨q.cmdQ, q.sizeQ, q.loadUnsignedQ, q.addrQ, q.storeWstrbQ, q.storeWdataQ⟩

/-- The operation offered on the inputs, as the unit saves it. -/
def In.op (i : In) : LsuOp :=
  let saves := i.cmd == .store && !inputMisaligned i
  { cmd := i.cmd, size := i.size, loadUnsigned := i.loadUnsigned, addr := i.addr
    wstrb := if saves then inputStoreWstrb i.size i.addr else 0#4
    wdata := if saves then inputStoreWdata i.size i.addr i.storeData else 0#32 }

variable {q : Lsu} {i : In} {b : Bool}

theorem op_onBus : i.op.onBus = (inputIsMemory i && !inputMisaligned i) := rfl

/-- A shift moves no lane of zero data. -/
theorem inputStoreWdata_zero (size : MemSize) (addr : Word) :
    inputStoreWdata size addr 0#32 = 0#32 := by
  cases size <;> simp [inputStoreWdata]

/-- The request driven for a new operation is the one its saved copy stands for, provided a
load carries no store data. -/
theorem req_of_issueInput (h : q.issueInput i = true)
    (hload : i.cmd = .load → i.storeData = 0#32) : q.req i = i.op.req := by
  have hmem : inputIsMemory i = true ∧ inputMisaligned i = false := by
    simp only [issueInput, Bool.and_eq_true, Bool.not_eq_true'] at h
    exact ⟨h.1.2, h.2⟩
  obtain ⟨hm, ha⟩ := hmem
  simp only [inputIsMemory, isMemory, Bool.or_eq_true, beq_iff_eq] at hm
  -- a load drives its store data shifted, the saved copy has zero there
  rcases hm with hc | hc
  · simp [req, reqWrite, h, LsuOp.req, In.op, hc, hload hc, inputStoreWdata_zero]
  · simp [req, reqWrite, h, LsuOp.req, In.op, hc, ha]

/-- The address, the write flag and the strobes are those of the operation in any case. -/
theorem req_of_issueInput_lanes (h : q.issueInput i = true) :
    (q.req i).addr = i.op.req.addr ∧ (q.req i).write = i.op.req.write ∧
      (q.req i).wstrb = i.op.req.wstrb := by
  have ha : inputMisaligned i = false := by
    simp only [issueInput, Bool.and_eq_true, Bool.not_eq_true'] at h
    exact h.2
  cases hc : i.cmd <;> simp [req, reqWrite, h, LsuOp.req, In.op, hc, ha]

/-- The request driven for a saved operation. -/
theorem req_of_not_issueInput (h : q.issueInput i = false) : q.req i = q.op.req := by
  simp [req, reqWrite, h, LsuOp.req, op]

/-- A clock edge without reset, with what the unit drives in that cycle. -/
inductive Case (q : Lsu) (i : In) (b : Bool) (q' : Lsu) : Prop
  /-- Nothing is accepted. -/
  | ignored (state : q.stateQ = .idle) (accepts : q.accepts i = false)
      (fire : q.requestFire i = false) (rsp : q.rspValid i = false)
      (next : q' = { q with discardQ := false })
  /-- An operation is accepted that needs no bus transaction. -/
  | offBus (state : q.stateQ = .idle) (accepts : q.accepts i = true)
      (bus : i.op.onBus = false) (fire : q.requestFire i = false) (rsp : q.rspValid i = false)
      (next : q'.stateQ = .resp ∧ q'.requestSentQ = q.requestSentQ ∧ q'.op = i.op ∧
        q'.loadDataQ = 0#32 ∧ q'.exceptionQ = i.op.localException)
  /-- An operation is accepted and its request presented, not answered yet. -/
  | issued (state : q.stateQ = .idle) (accepts : q.accepts i = true)
      (bus : i.op.onBus = true) (rsp : q.rspValid i = false)
      (fire : q.requestFire i = i.dmem.reqReady)
      (open' : q.requestFire i = true → i.dmem.rspValid = false)
      (next : q'.stateQ = .busy ∧ q'.requestSentQ = q.requestFire i ∧ q'.discardQ = false ∧
        q'.op = i.op)
  /-- An operation is accepted, requested and answered in one cycle. -/
  | answered (state : q.stateQ = .idle) (accepts : q.accepts i = true)
      (bus : i.op.onBus = true) (fire : q.requestFire i = true)
      (valid : i.dmem.rspValid = true) (rsp : q.rspValid i = true)
      (data : q.loadData i = i.op.loadData (busRsp i))
      (exc : q.exception i = i.op.exception (busRsp i))
      (next : q'.requestSentQ = q.requestSentQ ∧ q'.op = i.op ∧
        (b = true ∧ q'.stateQ = .idle ∨ b = false ∧ q'.stateQ = .resp ∧
          q'.loadDataQ = i.op.loadData (busRsp i) ∧ q'.exceptionQ = i.op.exception (busRsp i)))
  /-- The answer to the saved operation has not arrived. -/
  | waits (state : q.stateQ = .busy) (seen : q.responseSeen i = false)
      (rsp : q.rspValid i = false)
      (fire : q.requestFire i = (!q.requestSentQ && i.dmem.reqReady))
      (next : q' = { q with discardQ := i.kill || q.discardQ
                            requestSentQ := q.requestFire i || q.requestSentQ })
  /-- The answer arrives; it is dropped if the operation was killed. -/
  | finishes (state : q.stateQ = .busy) (seen : q.responseSeen i = true)
      (valid : i.dmem.rspValid = true)
      (sent : q.requestSentQ = true ∨ q.requestFire i = true)
      (fire : q.requestFire i = (!q.requestSentQ && i.dmem.reqReady))
      (rsp : q.rspValid i = (!i.kill && !q.discardQ))
      (data : q.rspValid i = true → q.loadData i = q.op.loadData (busRsp i) ∧
        q.exception i = q.op.exception (busRsp i))
      (next : q'.requestSentQ = false ∧ q'.op = q.op ∧
        (q'.stateQ = .idle ∨ q.rspValid i = true ∧ b = false ∧ q'.stateQ = .resp ∧
          q'.loadDataQ = q.op.loadData (busRsp i) ∧ q'.exceptionQ = q.op.exception (busRsp i)))
  /-- A completed operation is offered to the pipeline. -/
  | offers (state : q.stateQ = .resp) (fire : q.requestFire i = false)
      (rsp : q.rspValid i = !i.kill)
      (data : q.rspValid i = true →
        q.loadData i = q.loadDataQ ∧ q.exception i = q.exceptionQ)
      (next : q' = if i.kill || b then { q with stateQ := .idle } else q)

/-- Every clock edge without reset is one of the cases. -/
theorem next_cases (hrst : i.rst = false) : Case q i b (q.next i b) := by
  rw [next_eq b hrst]
  cases hs : q.stateQ with
  | idle =>
    rw [if_pos rfl]
    -- only `LSU_BUSY` presents a saved request
    have hsaved : q.issueSaved = false := by simp [issueSaved, hs]
    cases ha : q.accepts i with
    | false =>
      have hin : q.issueInput i = false := by
        simp only [accepts] at ha
        simp [issueInput, ha]
      have hfire : q.requestFire i = false := by simp [requestFire, reqValid, hin, hsaved]
      refine .ignored hs ha hfire ?_ (by simp [nextIdle, ha])
      simp [rspValid, hs, responseSeen, hfire]
    | true =>
      -- a killed operation is not accepted
      have hkill : i.kill = false := by
        simp only [accepts, reqReady, Bool.and_eq_true, Bool.not_eq_true'] at ha
        exact ha.2.2
      have hin : q.issueInput i = i.op.onBus := by
        simp only [accepts] at ha
        rw [issueInput, ha, Bool.true_and]
        rfl
      have hfire : q.requestFire i = (i.op.onBus && i.dmem.reqReady) := by
        simp [requestFire, reqValid, hin, hsaved]
      have hrsp : q.rspValid i = (q.requestFire i && i.dmem.rspValid) := by
        cases hf : q.requestFire i <;>
          simp [rspValid, hs, responseSeen, responseDiscard, hkill, hf]
      cases hb : i.op.onBus with
      | false =>
        rw [hb, Bool.false_and] at hfire
        rw [hfire, Bool.false_and] at hrsp
        refine .offBus hs ha hb hfire hrsp ?_
        -- completes without the bus, with the exception computed from the inputs
        have hloc : (!inputIsMemory i || inputMisaligned i) = true := by
          rw [op_onBus] at hb
          cases hm : inputIsMemory i <;> cases hx : inputMisaligned i <;> simp_all
        generalize hq : q.nextIdle i b = q'
        simp only [nextIdle, ha, hloc, if_true] at hq
        subst hq
        exact ⟨rfl, rfl, rfl, rfl, rfl⟩
      | true =>
        rw [hb, Bool.true_and] at hfire
        have hloc : (!inputIsMemory i || inputMisaligned i) = false := by
          rw [op_onBus] at hb
          cases hm : inputIsMemory i <;> cases hx : inputMisaligned i <;> simp_all
        -- answered in the cycle of the request, or the operation is saved and waits
        cases hr : q.requestFire i && i.dmem.rspValid with
        | false =>
          refine .issued hs ha hb (hrsp.trans hr) hfire ?_ ?_
          · intro hf
            simpa [hf] using hr
          · generalize hq : q.nextIdle i b = q'
            simp only [nextIdle, ha, hloc, hr, if_true, Bool.false_eq_true, if_false] at hq
            subst hq
            exact ⟨rfl, rfl, rfl, rfl⟩
        | true =>
          obtain ⟨hf, hv⟩ := Bool.and_eq_true_iff.mp hr
          rw [hr] at hrsp
          refine .answered hs ha hb hf hv hrsp ?_ ?_ ?_
          · simp [loadData, hrsp, hs, responseLoadData, LsuOp.loadData, In.op]
          · simp [exception, hrsp, hs, responseException, LsuOp.exception, In.op, busRsp]
          · generalize hq : q.nextIdle i b = q'
            simp only [nextIdle, ha, hloc, hr, if_true, Bool.false_eq_true, if_false] at hq
            subst hq
            cases b with
            | true => exact ⟨rfl, rfl, .inl ⟨rfl, hs⟩⟩
            | false =>
              refine ⟨rfl, rfl, .inr ⟨rfl, rfl, ?_, ?_⟩⟩
              · simp [responseLoadData, hs, LsuOp.loadData, In.op]
              · simp [responseException, hs, LsuOp.exception, In.op, busRsp]
  | busy =>
    rw [if_neg (by simp), if_pos rfl]
    have hin : q.issueInput i = false := by simp [issueInput, reqReady, hs]
    have hfire : q.requestFire i = (!q.requestSentQ && i.dmem.reqReady) := by
      simp [requestFire, reqValid, hin, issueSaved, hs]
    have hrsp : q.rspValid i = (q.responseSeen i && !(i.kill || q.discardQ)) := by
      simp [rspValid, hs, responseDiscard]
    cases hseen : q.responseSeen i with
    | false =>
      refine .waits hs hseen (by rw [hrsp, hseen]; rfl) hfire ?_
      simp only [nextBusy, hseen, Bool.false_eq_true, if_false]
      cases i.kill <;> cases q.requestFire i <;> simp
    | true =>
      have hseen' := hseen
      simp only [responseSeen, hs, Bool.and_eq_true, Bool.or_eq_true] at hseen'
      -- the answer is formatted with the saved operation
      have hdata : q.rspValid i = true → q.loadData i = q.op.loadData (busRsp i) ∧
          q.exception i = q.op.exception (busRsp i) := by
        intro hr
        simp [loadData, exception, hr, hs, responseLoadData, responseException,
          LsuOp.loadData, LsuOp.exception, op, busRsp]
      refine .finishes hs hseen hseen'.1 (by simpa using hseen'.2) hfire ?_ hdata ?_
      · rw [hrsp, hseen]
        cases i.kill <;> cases q.discardQ <;> rfl
      · rw [hrsp, hseen]
        generalize hq : q.nextBusy i b = q'
        simp only [nextBusy, hseen, if_true, responseDiscard, hs, beq_self_eq_true,
          Bool.true_and] at hq
        -- a killed answer frees the unit at once, a live one is held unless it is taken
        cases hd : i.kill || q.discardQ with
        | true =>
          simp only [hd, Bool.true_or, if_true] at hq
          subst hq
          exact ⟨rfl, rfl, .inl rfl⟩
        | false =>
          cases b with
          | true =>
            simp only [hd, Bool.or_true, if_true] at hq
            subst hq
            exact ⟨rfl, rfl, .inl rfl⟩
          | false =>
            simp only [hd, Bool.or_false, Bool.false_eq_true, if_false] at hq
            subst hq
            refine ⟨rfl, rfl, .inr ⟨rfl, rfl, rfl, ?_, ?_⟩⟩
            · simp [responseLoadData, hs, LsuOp.loadData, op]
            · simp [responseException, hs, LsuOp.exception, op, busRsp]
  | resp =>
    rw [if_neg (by simp), if_neg (by simp)]
    have hin : q.issueInput i = false := by simp [issueInput, reqReady, hs]
    have hfire : q.requestFire i = false := by
      simp [requestFire, reqValid, hin, issueSaved, hs]
    refine .offers hs hfire (by simp [rspValid, hs]) ?_ rfl
    intro hr
    simp [loadData, exception, hr, hs]

/-! ### The unit and the history of its port -/

/-- A request outstanding after a cycle was accepted in it or still awaits its answer. -/
theorem sent_next (hrst : i.rst = false) (hs : (q.next i b).stateQ = .busy)
    (hsent : (q.next i b).requestSentQ = true) : q.requestFire i = true ∨
      q.stateQ = .busy ∧ q.requestSentQ = true ∧ i.dmem.rspValid = false := by
  cases next_cases (q := q) (b := b) hrst with
  | issued state accepts bus rsp fire open' next => exact .inl (next.2.1 ▸ hsent)
  | waits state seen rsp fire next =>
    rw [next] at hsent
    cases hf : q.requestFire i
    · have hsent : q.requestSentQ = true := by simpa [hf] using hsent
      exact .inr ⟨state, hsent, by simpa [responseSeen, state, hsent] using seen⟩
    · exact .inl rfl
  -- no other case ends with a request outstanding
  | finishes state seen valid sent fire rsp data next => simp_all
  | ignored state accepts fire rsp next => simp_all
  | offBus state accepts bus fire rsp next => simp_all
  | answered state accepts bus fire valid rsp data exc next => simp_all
  | offers state fire rsp data next =>
    rw [next] at hs
    split at hs <;> simp_all

/-- The defect of the reset: the memory accepts the request the unit still holds in a reset
cycle and does not answer it in that cycle, so that its response is not awaited. -/
def ResetAccepts (q : Lsu) (i : In) : Prop :=
  i.rst = true ∧ q.issueSaved = true ∧ i.dmem.reqReady = true ∧ i.dmem.rspValid = false

/-- Whether a cycle meets the defect can be computed. -/
instance (q : Lsu) (i : In) : Decidable (ResetAccepts q i) :=
  inferInstanceAs (Decidable (_ ∧ _))

/-- The unit awaits exactly the response the channel owes; unless it will be dropped, it is the
response to one of the requests `mine`. -/
structure Port {ρ : Type*} (q : Lsu) (ch : Channel ρ MemRsp) (mine : ρ → Prop) : Prop where
  quiet : q.requestSentQ = false → ch.Quiet
  sent : q.requestSentQ = true → q.stateQ = .busy ∧ ∃ r, ch.Owes r ∧ (q.discardQ = false → mine r)

namespace Port

variable {ρ : Type*} {ch : Channel ρ MemRsp} {mine m : ρ → Prop} {acc : Option ρ}

/-- No request is outstanding outside of `LSU_BUSY`. -/
theorem not_sent (h : Port q ch mine) (hs : q.stateQ ≠ .busy) : q.requestSentQ = false := by
  by_contra hne
  exact hs (h.sent (by simpa using hne)).1

/-- A quiet channel that accepts nothing gets no response. -/
private theorem rsp_of_quiet (hq : ch.Quiet) (hok : ch.Ok none i.dmem.rsp) :
    i.dmem.rspValid = false := by
  by_contra hne
  have hv : i.dmem.rspValid = true := by simpa using hne
  rw [MemIn.rsp_of_valid hv] at hok
  exact hq.not_ok _ hok

/-- A cycle without reset. `acc` is the request accepted in it, if any. -/
theorem next (h : Port q ch mine) (hrst : i.rst = false)
    (hacc : acc.isSome = q.requestFire i) (hok : ch.Ok acc i.dmem.rsp)
    (hnew : ∀ r, acc = some r → (q.next i b).requestSentQ = true →
      (q.next i b).discardQ = false → m r)
    (hkeep : ∀ r, q.stateQ = .busy → (q.next i b).requestSentQ = true →
      (q.next i b).discardQ = false → mine r → m r) :
    Port (q.next i b) (ch.step acc i.dmem.rsp) m := by
  have hcase := next_cases (q := q) (b := b) hrst
  have hnone (hf : q.requestFire i = false) : acc = none := by
    rw [hf] at hacc
    simpa using hacc
  have hsome (hf : q.requestFire i = true) : ∃ r, acc = some r := by
    rw [hf] at hacc
    exact Option.isSome_iff_exists.mp hacc
  -- one case per branch of the unit, each a step of the channel
  generalize q.next i b = q' at hcase hnew hkeep
  cases hcase with
  | ignored state accepts fire rsp next =>
    obtain rfl := hnone fire
    subst next
    -- an idle unit has nothing out, so the channel is quiet
    have hsent := h.not_sent (by rw [state]; decide)
    have hq := h.quiet hsent
    rw [MemIn.rsp_of_not_valid (rsp_of_quiet hq hok)]
    exact ⟨fun _ => hq.step_none, fun hs => by simp [hsent] at hs⟩
  | offBus state accepts bus fire rsp next =>
    obtain rfl := hnone fire
    have hsent := h.not_sent (by rw [state]; decide)
    have hq := h.quiet hsent
    rw [MemIn.rsp_of_not_valid (rsp_of_quiet hq hok)]
    exact ⟨fun _ => hq.step_none, fun hs => by simp [next.2.1, hsent] at hs⟩
  | issued state accepts bus rsp fire open' next =>
    obtain ⟨hbusy, hsent', hd, -⟩ := next
    have hsent := h.not_sent (by rw [state]; decide)
    have hq := h.quiet hsent
    cases hf : q.requestFire i with
    | false =>
      obtain rfl := hnone hf
      rw [MemIn.rsp_of_not_valid (rsp_of_quiet hq hok)]
      exact ⟨fun _ => hq.step_none, fun hs => by simp [hsent', hf] at hs⟩
    | true =>
      obtain ⟨r, rfl⟩ := hsome hf
      rw [MemIn.rsp_of_not_valid (open' hf)]
      refine ⟨fun hs => by simp [hsent', hf] at hs, fun _ => ⟨hbusy, r, hq.step_some_none r, ?_⟩⟩
      exact hnew r rfl (hsent'.trans hf)
  | answered state accepts bus fire valid rsp data exc next =>
    obtain ⟨r, rfl⟩ := hsome fire
    have hsent := h.not_sent (by rw [state]; decide)
    rw [MemIn.rsp_of_valid valid]
    exact ⟨fun _ => (h.quiet hsent).step_some_some .., fun hs => by simp [next.1, hsent] at hs⟩
  | waits state seen rsp fire next =>
    subst next
    cases hs : q.requestSentQ with
    | false =>
      have hq := h.quiet hs
      cases hf : q.requestFire i with
      | false =>
        obtain rfl := hnone hf
        rw [MemIn.rsp_of_not_valid (rsp_of_quiet hq hok)]
        exact ⟨fun _ => hq.step_none, fun hs' => by simp at hs'⟩
      | true =>
        obtain ⟨r, rfl⟩ := hsome hf
        -- accepted late and not answered, so from now on its answer is owed
        have hv : i.dmem.rspValid = false := by simpa [responseSeen, state, hf] using seen
        rw [MemIn.rsp_of_not_valid hv]
        exact ⟨fun hs' => by simp at hs',
          fun _ => ⟨state, r, hq.step_some_none r, hnew r rfl (by simp [hf])⟩⟩
    | true =>
      obtain ⟨-, r, howes, hmine⟩ := h.sent hs
      obtain rfl := hnone (by simp [fire, hs])
      have hv : i.dmem.rspValid = false := by simpa [responseSeen, state, hs] using seen
      rw [MemIn.rsp_of_not_valid hv, Channel.step_none_none]
      refine ⟨fun hs' => by simp at hs', fun _ => ⟨state, r, howes, fun hd => ?_⟩⟩
      -- a kill marks the request, so a live one was live before
      refine hkeep r state (by simp [hs]) hd (hmine ?_)
      simp only [Bool.or_eq_false_iff] at hd
      exact hd.2
  | finishes state seen valid sent fire rsp data next =>
    rw [MemIn.rsp_of_valid valid]
    refine ⟨fun _ => ?_, fun hs => by simp [next.1] at hs⟩
    cases hs : q.requestSentQ with
    | false =>
      -- accepted and answered in this cycle
      obtain ⟨r, rfl⟩ := hsome (by simpa [hs] using sent)
      exact (h.quiet hs).step_some_some ..
    | true =>
      obtain ⟨-, r, howes, -⟩ := h.sent hs
      obtain rfl := hnone (by simp [fire, hs])
      exact howes.step_none_some _
  | offers state fire rsp data next =>
    obtain rfl := hnone fire
    have hsent := h.not_sent (by rw [state]; decide)
    have hq := h.quiet hsent
    rw [MemIn.rsp_of_not_valid (rsp_of_quiet hq hok)]
    have hsent' : q'.requestSentQ = false := by rw [next]; split <;> exact hsent
    exact ⟨fun _ => hq.step_none, fun hs => by simp [hsent'] at hs⟩

/-- A reset cycle in which the memory does not accept a held request for a later answer. -/
theorem reset (h : Port q ch mine) (hrst : i.rst = true)
    (hacc : acc.isSome = q.requestFire i) (hok : ch.Ok acc i.dmem.rsp)
    (hbad : ¬ ResetAccepts q i) :
    Port (q.next i b) (ch.step acc i.dmem.rsp) m ∧
      ((q.next i b).stateQ = .idle ∨ (q.next i b).stateQ = .busy ∧
        (q.next i b).requestSentQ = true ∧ (q.next i b).discardQ = true) := by
  have hnext : q.next i b = q.reset i := if_pos hrst
  have hin : q.issueInput i = false := by simp [issueInput, reqReady, hrst]
  rw [hnext, Lsu.reset]
  cases hs : q.requestSentQ with
  | true =>
    -- a request that is out is drained, unless its answer arrives in the reset cycle
    obtain ⟨hbusy, r, howes, -⟩ := h.sent hs
    have hfire : q.requestFire i = false := by
      simp [requestFire, reqValid, hin, issueSaved, hs]
    rw [hfire] at hacc
    obtain rfl : acc = none := by simpa using hacc
    cases hv : i.dmem.rspValid with
    | true =>
      rw [MemIn.rsp_of_valid hv, if_neg (by simp)]
      exact ⟨⟨fun _ => howes.step_none_some _, by simp⟩, .inl rfl⟩
    | false =>
      rw [MemIn.rsp_of_not_valid hv, if_pos ⟨hbusy, rfl, rfl⟩, Channel.step_none_none]
      exact ⟨⟨by simp, fun _ => ⟨rfl, r, howes, by simp⟩⟩, .inr ⟨rfl, rfl, rfl⟩⟩
  | false =>
    -- a presented request that is not out yet is forgotten
    have hq := h.quiet hs
    rw [if_neg (by simp)]
    refine ⟨⟨fun _ => ?_, by simp⟩, .inl rfl⟩
    cases hf : q.requestFire i with
    | false =>
      rw [hf] at hacc
      obtain rfl : acc = none := by simpa using hacc
      rw [MemIn.rsp_of_not_valid (rsp_of_quiet hq hok)]
      exact hq.step_none
    | true =>
      rw [hf] at hacc
      obtain ⟨r, rfl⟩ := Option.isSome_iff_exists.mp hacc
      -- unless the memory accepts it now: then it has to answer it now
      have hv : i.dmem.rspValid = true := by
        by_contra hne
        simp only [requestFire, reqValid, hin, Bool.false_or, Bool.and_eq_true] at hf
        exact hbad ⟨hrst, hf.1, hf.2, by simpa using hne⟩
      rw [MemIn.rsp_of_valid hv]
      exact hq.step_some_some ..

/-- A response handed to the pipeline as it arrives is the answer to a request that is `mine` or
was accepted in this very cycle. -/
theorem answeredAt (h : Port q ch mine) (hrst : i.rst = false)
    (hacc : acc.isSome = q.requestFire i) (hs : q.stateQ ≠ .resp) (hr : q.rspValid i = true) :
    i.dmem.rspValid = true ∧ ∃ r, (q.stateQ = .busy ∧ mine r ∨ acc = some r) ∧
      (ch.step acc i.dmem.rsp).AnsweredAt ch.answered.length r (busRsp i) := by
  cases next_cases (q := q) (b := true) hrst with
  | ignored state accepts fire rsp next => simp [rsp] at hr
  | offBus state accepts bus fire rsp next => simp [rsp] at hr
  | issued state accepts bus rsp fire open' next => simp [rsp] at hr
  | answered state accepts bus fire valid rsp data exc next =>
    rw [fire] at hacc
    obtain ⟨r, rfl⟩ := Option.isSome_iff_exists.mp hacc
    rw [MemIn.rsp_of_valid valid]
    exact ⟨valid, r, .inr rfl, (h.quiet (h.not_sent (by rw [state]; decide))).answeredAt ..⟩
  | waits state seen rsp fire next => simp [rsp] at hr
  | finishes state seen valid sent fire rsp data next =>
    rw [MemIn.rsp_of_valid valid]
    refine ⟨valid, ?_⟩
    cases hsent : q.requestSentQ with
    | false =>
      rw [show q.requestFire i = true by simpa [hsent] using sent] at hacc
      obtain ⟨r, rfl⟩ := Option.isSome_iff_exists.mp hacc
      exact ⟨r, .inr rfl, (h.quiet hsent).answeredAt ..⟩
    | true =>
      -- the channel owes one answer, and the request was not discarded
      obtain ⟨-, r, howes, hmine⟩ := h.sent hsent
      rw [rsp] at hr
      simp only [Bool.and_eq_true, Bool.not_eq_true'] at hr
      exact ⟨r, .inl ⟨state, hmine hr.2⟩, howes.answeredAt ..⟩
  | offers state fire rsp data next => exact absurd state hs

end Port

/-- A request that is out is unanswered. After a reset that meets the defect it may not be the
only one. -/
structure Awaits {ρ : Type*} (q : Lsu) (ch : Channel ρ MemRsp) : Prop where
  causal : ch.answered.length ≤ ch.accepted.length
  sent : q.requestSentQ = true → q.stateQ = .busy ∧ ch.Pending

namespace Awaits

variable {ρ : Type*} {ch : Channel ρ MemRsp} {acc : Option ρ}

/-- The LSU waits for the answer to its own request. -/
theorem of_port {mine : ρ → Prop} (h : Port q ch mine) : Awaits q ch := by
  refine ⟨?_, fun hs => ?_⟩
  · cases hs : q.requestSentQ with
    | false => exact Nat.le_of_eq (h.quiet hs).symm
    | true =>
      obtain ⟨-, r, howes, -⟩ := h.sent hs
      exact Nat.le_of_lt howes.pending
  · obtain ⟨hbusy, r, howes, -⟩ := h.sent hs
    exact ⟨hbusy, howes.pending⟩

/-- Only an operation in `LSU_BUSY` leaves a request out. -/
private theorem busy_next (h : Awaits q ch) (hrst : i.rst = false)
    (hs : (q.next i b).requestSentQ = true) : (q.next i b).stateQ = .busy := by
  have hidle (hstate : q.stateQ ≠ .busy) : q.requestSentQ = false := by
    by_contra hne
    exact hstate (h.sent (by simpa using hne)).1
  cases next_cases (q := q) (b := b) hrst with
  | ignored state accepts fire rsp next =>
    rw [next] at hs
    exact absurd hs (by simp [hidle (by rw [state]; decide)])
  | offBus state accepts bus fire rsp next =>
    rw [next.2.1] at hs
    exact absurd hs (by simp [hidle (by rw [state]; decide)])
  | issued state accepts bus rsp fire open' next => exact next.1
  | answered state accepts bus fire valid rsp data exc next =>
    rw [next.1] at hs
    exact absurd hs (by simp [hidle (by rw [state]; decide)])
  | waits state seen rsp fire next =>
    rw [next]
    exact state
  | finishes state seen valid sent fire rsp data next => exact absurd hs (by simp [next.1])
  | offers state fire rsp data next =>
    have hsent : (q.next i b).requestSentQ = q.requestSentQ := by rw [next]; split <;> rfl
    rw [hsent] at hs
    exact absurd hs (by simp [hidle (by rw [state]; decide)])

/-- Every cycle keeps it, a reset too. -/
theorem next (h : Awaits q ch) (hacc : acc.isSome = q.requestFire i)
    (hok : ch.Ok acc i.dmem.rsp) : Awaits (q.next i b) (ch.step acc i.dmem.rsp) := by
  refine ⟨hok.length_le h.causal, fun hs => ?_⟩
  cases hrst : i.rst with
  | true =>
    have hnext : q.next i b = q.reset i := if_pos hrst
    rw [hnext, Lsu.reset] at hs ⊢
    by_cases hdrain : q.stateQ = .busy ∧ q.requestSentQ = true ∧ i.dmem.rspValid = false
    · rw [if_pos hdrain, MemIn.rsp_of_not_valid hdrain.2.2]
      exact ⟨rfl, (h.sent hdrain.2.1).2.step_none acc⟩
    · rw [if_neg hdrain] at hs
      simp at hs
  | false =>
    have hbusy := h.busy_next hrst hs
    refine ⟨hbusy, ?_⟩
    rcases sent_next hrst hbusy hs with hfire | ⟨-, hsent, hv⟩
    · -- accepted in this cycle, and an answer in it would have completed the operation
      have hv : i.dmem.rspValid = false := by
        cases next_cases (q := q) (b := b) hrst with
        | issued state accepts bus rsp fire open' next => exact open' hfire
        | waits state seen rsp fire next => simpa [responseSeen, state, hfire] using seen
        | ignored state accepts fire rsp next => simp [fire] at hfire
        | offBus state accepts bus fire rsp next => simp [fire] at hfire
        | answered state accepts bus fire valid rsp data exc next =>
          rcases next.2.2 with ⟨-, hi⟩ | ⟨-, hi, -⟩ <;> simp [hi] at hbusy
        | finishes state seen valid sent fire rsp data next => simp [next.1] at hs
        | offers state fire rsp data next => simp [fire] at hfire
      rw [hfire] at hacc
      obtain ⟨r, rfl⟩ := Option.isSome_iff_exists.mp hacc
      rw [MemIn.rsp_of_not_valid hv]
      exact Channel.pending_step_some h.causal r
    · rw [MemIn.rsp_of_not_valid hv]
      exact (h.sent hsent).2.step_none acc

end Awaits

end Lsu

end Rv32im

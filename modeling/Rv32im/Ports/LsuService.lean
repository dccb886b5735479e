import Rv32im.Clocked.Service
import Rv32im.Ports.LsuReset

/-!
# The transactions of the load/store unit

Without reset, for any operations, kills, ready patterns and any memory that answers every accepted
request once and in order: an operation that is not killed before its response is taken gets one
response, built from the answer to its own request. The answer to a killed operation is drained.

* `Lsu.keeps`: a response that is not taken is kept;
* `LsuSystem.ports`, `LsuSystem.Built`: what is seen at the unit, and the response of an operation;
* `LsuSystem.Tracks`: the invariant that ties the unit to the ledger of its operations;
* `LsuSystem.lsu_serves`: the transaction law.
-/

namespace Rv32im

open Clocked

namespace Lsu

variable {q : Lsu} {i : In}

/-- A response that is offered and not taken is kept. -/
theorem keeps (hrst : i.rst = false) (hr : q.rspValid i = true) :
    (q.next i false).stateQ = .resp ∧ (q.next i false).loadDataQ = q.loadData i ∧
      (q.next i false).exceptionQ = q.exception i := by
  cases next_cases (q := q) (b := false) hrst with
  | ignored state accepts fire rsp next => simp [rsp] at hr
  | offBus state accepts bus fire rsp next => simp [rsp] at hr
  | issued state accepts bus rsp fire open' next => simp [rsp] at hr
  | answered state accepts bus fire valid rsp data exc next =>
    obtain ⟨-, -, ⟨hb, -⟩ | ⟨-, hs, hd, he⟩⟩ := next
    · contradiction
    · exact ⟨hs, hd.trans data.symm, he.trans exc.symm⟩
  | waits state seen rsp fire next => simp [rsp] at hr
  | finishes state seen valid sent fire rsp data next =>
    have hdiscard : q.responseDiscard i = false := by
      rw [rsp] at hr
      simp only [Bool.and_eq_true, Bool.not_eq_true'] at hr
      simp [responseDiscard, state, hr.1, hr.2]
    have hnext : q.next i false =
        { q with requestSentQ := false, discardQ := false, stateQ := .resp
                 loadDataQ := q.responseLoadData i, exceptionQ := q.responseException i } := by
      rw [next_eq false hrst, if_neg (by simp [state]), if_pos state]
      simp [nextBusy, seen, hdiscard]
    rw [hnext]
    simp [loadData, exception, hr, state]
  | offers state fire rsp data next =>
    obtain ⟨hd, he⟩ := data hr
    have hkill : i.kill = false := by simpa [hr] using rsp
    rw [next, hkill, hd, he]
    exact ⟨state, rfl, rfl⟩

/-- A response that is taken leaves the unit idle. -/
theorem idle_next_of_rspValid (hrst : i.rst = false) (hr : q.rspValid i = true) :
    (q.next i true).stateQ = .idle := by
  cases next_cases (q := q) (b := true) hrst with
  | ignored state accepts fire rsp next => simp [rsp] at hr
  | offBus state accepts bus fire rsp next => simp [rsp] at hr
  | issued state accepts bus rsp fire open' next => simp [rsp] at hr
  | answered state accepts bus fire valid rsp data exc next => simpa using next.2.2
  | waits state seen rsp fire next => simp [rsp] at hr
  | finishes state seen valid sent fire rsp data next => simpa using next.2.2
  | offers state fire rsp data next => simp [next]

/-- The unit has an operation to answer: one that is busy and not killed, or one with a response. -/
def live (q : Lsu) : Bool := q.stateQ == .resp || q.stateQ == .busy && !q.discardQ

/-- An idle LSU has no operation. -/
theorem live_of_idle (h : q.stateQ = .idle) : q.live = false := by
  rw [live, h]
  rfl

theorem live_of_busy (h : q.stateQ = .busy) : q.live = !q.discardQ := by
  rw [live, h]
  rfl

theorem live_of_resp (h : q.stateQ = .resp) : q.live = true := by
  rw [live, h]
  rfl

/-- An operation is accepted only by an idle unit, without a kill. -/
theorem idle_of_accepts (h : q.accepts i = true) : q.stateQ = .idle ∧ i.kill = false := by
  simp only [accepts, reqReady, Bool.and_eq_true, beq_iff_eq, Bool.not_eq_true'] at h
  exact ⟨h.2.1.1, h.2.2⟩

/-- Only an idle LSU accepts an operation. -/
theorem accepts_of_ne_idle (h : q.stateQ ≠ .idle) : q.accepts i = false := by
  by_contra hne
  exact h (idle_of_accepts (by simpa using hne)).1

/-- The operation at hand lives until it is killed or its response is taken. -/
theorem live_next (hrst : i.rst = false) (b : Bool) : (q.next i b).live =
    ((q.accepts i || q.live) && !i.kill && !(q.rspValid i && b)) := by
  cases next_cases (q := q) (b := b) hrst with
  | ignored state accepts fire rsp next =>
    have hidle : (q.next i b).stateQ = .idle := by rw [next, state]
    rw [live_of_idle hidle, accepts, live_of_idle state]
    rfl
  | offBus state accepts bus fire rsp next =>
    rw [live_of_resp next.1, accepts, (idle_of_accepts accepts).2, rsp]
    rfl
  | issued state accepts bus rsp fire open' next =>
    rw [live_of_busy next.1, next.2.2.1, accepts, (idle_of_accepts accepts).2, rsp]
    rfl
  | answered state accepts bus fire valid rsp data exc next =>
    rw [accepts, (idle_of_accepts accepts).2, rsp]
    obtain ⟨-, -, ⟨rfl, hs⟩ | ⟨rfl, hs, -⟩⟩ := next
    · rw [live_of_idle hs]
      rfl
    · rw [live_of_resp hs]
      rfl
  | waits state seen rsp fire next =>
    have hbusy : (q.next i b).stateQ = .busy := by rw [next, state]
    rw [live_of_busy hbusy, next, rsp, live_of_busy state, accepts_of_ne_idle (by simp [state])]
    cases i.kill <;> cases q.discardQ <;> rfl
  | finishes state seen valid sent fire rsp data next =>
    rw [live_of_busy state, accepts_of_ne_idle (by simp [state])]
    by_cases hr : q.rspValid i = true ∧ b = false
    · obtain ⟨hr, rfl⟩ := hr
      rw [live_of_resp (keeps hrst hr).1, hr]
      rw [hr] at rsp
      cases hk : i.kill <;> cases hd : q.discardQ <;> simp [hk, hd] at rsp ⊢
    · have hidle : (q.next i b).stateQ = .idle :=
        next.2.2.resolve_right fun h => hr ⟨h.1, h.2.1⟩
      rw [live_of_idle hidle, rsp]
      rw [rsp] at hr
      cases hk : i.kill <;> cases hd : q.discardQ <;> cases b <;> simp [hk, hd] at hr ⊢
  | offers state fire rsp data next =>
    rw [live_of_resp state, accepts_of_ne_idle (by simp [state]), rsp, next]
    cases i.kill <;> cases b
    · exact live_of_resp state
    all_goals rfl

/-- A response is that of the operation at hand. -/
theorem atHand_of_rspValid (hrst : i.rst = false) (hr : q.rspValid i = true) :
    (q.accepts i || q.live) = true := by
  cases next_cases (q := q) (b := true) hrst with
  | answered state accepts bus fire valid rsp data exc next => rw [accepts, Bool.true_or]
  | finishes state seen valid sent fire rsp data next =>
    rw [hr] at rsp
    rw [live_of_busy state]
    cases hd : q.discardQ <;> simp [hd] at rsp ⊢
  | offers state fire rsp data next => rw [live_of_resp state, Bool.or_true]
  | ignored state accepts fire rsp next => simp [rsp] at hr
  | offBus state accepts bus fire rsp next => simp [rsp] at hr
  | issued state accepts bus rsp fire open' next => simp [rsp] at hr
  | waits state seen rsp fire next => simp [rsp] at hr

/-- A saved operation whose request is not accepted yet is presented. -/
theorem presents_saved (hs : q.stateQ = .busy) (hsent : q.requestSentQ = false) :
    q.reqValid i = true ∧ q.req i = q.op.req := by
  have hin : q.issueInput i = false := by simp [issueInput, reqReady, hs]
  exact ⟨by simp [reqValid, issueSaved, hs, hsent], req_of_not_issueInput hin⟩

/-- A request that is presented and not accepted is presented again, killed or not; of a load, all
but the unused data. -/
theorem presents (hrst : i.rst = false) (hv : q.reqValid i = true)
    (hready : i.dmem.reqReady = false) (b : Bool) (j : In) :
    (q.next i b).reqValid j = true ∧ ((q.next i b).req j).addr = (q.req i).addr ∧
      ((q.next i b).req j).write = (q.req i).write ∧
      ((q.next i b).req j).wstrb = (q.req i).wstrb ∧
      ((q.req i).write = true → ((q.next i b).req j).wdata = (q.req i).wdata) := by
  have hfire : q.requestFire i = false := by simp [requestFire, hready]
  have hcase := next_cases (q := q) (b := b) hrst
  generalize q.next i b = q' at hcase
  -- from the saved registers, or from the live inputs
  by_cases hs : q.stateQ = .busy
  · have hsent : q.requestSentQ = false := by
      simpa [reqValid, issueInput, issueSaved, reqReady, hs] using hv
    rw [(presents_saved (i := i) hs hsent).2]
    cases hcase with
    | waits state seen rsp fire next =>
      subst next
      rw [hfire, Bool.false_or]
      obtain ⟨hv', hreq⟩ := presents_saved (i := j)
        (q := { q with discardQ := i.kill || q.discardQ, requestSentQ := q.requestSentQ }) hs hsent
      exact ⟨hv', by rw [hreq]; rfl, by rw [hreq]; rfl, by rw [hreq]; rfl,
        fun _ => by rw [hreq]; rfl⟩
    | finishes state seen valid sent fire rsp data next => simp [hsent, hfire] at sent
    | _ => simp_all
  · have hin : q.issueInput i = true := by
      simpa [reqValid, issueSaved, hs] using hv
    have haccepts : q.accepts i = true := by
      simp only [issueInput, Bool.and_eq_true] at hin
      simp only [accepts, Bool.and_eq_true]
      exact hin.1.1
    have hbus : i.op.onBus = true := by
      simp only [issueInput, Bool.and_eq_true] at hin
      rw [op_onBus, Bool.and_eq_true]
      exact ⟨hin.1.2, hin.2⟩
    have hidle := (idle_of_accepts haccepts).1
    obtain ⟨ha, hw, hl⟩ := req_of_issueInput_lanes hin
    cases hcase with
    | issued state accepts bus rsp fire open' next =>
      obtain ⟨hstate, hsent, -, hop⟩ := next
      obtain ⟨hv', hreq⟩ := presents_saved (i := j) hstate (hsent.trans hfire)
      rw [hreq, hop]
      refine ⟨hv', ha.symm, hw.symm, hl.symm, fun hwrite => ?_⟩
      -- only a load has other write data on its live inputs
      have hstore : i.cmd ≠ .load := by
        intro hc
        rw [hw] at hwrite
        simp [LsuOp.req, In.op, hc] at hwrite
      rw [req_of_issueInput hin fun hc => absurd hc hstore]
    | _ => simp_all

end Lsu

namespace LsuSystem

/-- The unit without reset. -/
def running : Circuit LsuSystem In where
  legal s i := i.lsu.rst = false ∧ circuit.legal s i
  next := circuit.next

/-- Whether a cycle without reset is legal can be computed. -/
instance (s : LsuSystem) (i : In) : Decidable (running.legal s i) :=
  inferInstanceAs (Decidable (_ ∧ circuit.legal s i))

/-- What is seen at the unit: the operations with their numbers, and the load data and exception of
a response. -/
def ports (s : LsuSystem) (i : In) : Ports (ℕ × LsuOp) (Word × Exc) where
  accept := if s.lsu.accepts i.lsu then some (s.ops + 1, i.lsu.op) else none
  offer :=
    if s.lsu.rspValid i.lsu then some (s.lsu.loadData i.lsu, s.lsu.exception i.lsu) else none
  ready := i.rspReady
  cancel := i.lsu.kill

/-- The response of an operation: of one on the bus, what the answer to its own request gives. -/
def Built (s : LsuSystem) (o : ℕ × LsuOp) (v : Word × Exc) : Prop :=
  if o.2.onBus then
    ∃ rsp, AnsweredBy s.dmem o.1 o.2 rsp ∧ v = (o.2.loadData rsp, o.2.exception rsp)
  else v = (0#32, o.2.localException)

/-- The unit keeps the open operation of the ledger, and no operation has two requests. -/
structure Tracks (s : Ledgered LsuSystem (ℕ × LsuOp) (Word × Exc)) : Prop where
  inv : s.state.Inv
  current : s.ledger.current =
    if s.state.lsu.live then some (s.state.ops, s.state.last) else none
  numbers : s.ledger.accepted.map Prod.fst = List.range' 1 s.state.ops
  /-- Requests carry increasing numbers, -/
  ordered : s.state.dmem.accepted.Pairwise fun r r' => r.1 < r'.1
  /-- none of them above that of the last operation, -/
  bound : ∀ r ∈ s.state.dmem.accepted, r.1 ≤ s.state.ops
  /-- which has none while it is presented. -/
  unsent : s.state.lsu.stateQ = .busy → s.state.lsu.requestSentQ = false →
    ∀ r ∈ s.state.dmem.accepted, r.1 < s.state.ops

namespace Tracks

variable {s : Ledgered LsuSystem (ℕ × LsuOp) (Word × Exc)} {i : In}

/-- The operation at hand in a cycle is the one the unit numbers. -/
theorem atHand (h : Tracks s) : s.ledger.atHand (ports s.state i) =
    if s.state.lsu.accepts i.lsu || s.state.lsu.live then some (s.state.number i, s.state.op i)
    else none := by
  unfold Ledger.atHand
  rw [h.current]
  cases ha : s.state.lsu.accepts i.lsu with
  | false =>
    cases s.state.lsu.live <;> simp [ports, number, op, ha]
  | true =>
    simp [ports, number, op, ha, Lsu.live_of_idle (Lsu.idle_of_accepts ha).1]

/-- The ports obey the rules in each cycle. -/
theorem lawful (h : Tracks s) (hl : running.legal s.state i) :
    s.ledger.Lawful (ports s.state i) (Built (running.next s.state i)) := by
  constructor
  · intro hacc
    have ha : s.state.lsu.accepts i.lsu = true := by
      by_contra hne
      simp [ports, hne] at hacc
    rw [h.current, Lsu.live_of_idle (Lsu.idle_of_accepts ha).1]
    rfl
  · intro v hv
    have hr : s.state.lsu.rspValid i.lsu = true ∧
        (s.state.lsu.loadData i.lsu, s.state.lsu.exception i.lsu) = v := by
      simpa [ports] using hv
    obtain ⟨hr, rfl⟩ := hr
    refine ⟨(s.state.number i, s.state.op i), ?_, ?_⟩
    · rw [h.atHand, if_pos (Lsu.atHand_of_rspValid hl.1 hr)]
    · have hans := h.inv.answers hl.2 hl.1
      unfold Built
      by_cases hbus : (s.state.op i).onBus = true
      · obtain ⟨rsp, hrsp, hdata, hexc⟩ := hans.bus hr hbus
        rw [if_pos hbus, hdata, hexc]
        exact ⟨rsp, hrsp, rfl⟩
      · obtain ⟨hdata, hexc⟩ := hans.offBus hr (by simpa using hbus)
        rw [if_neg hbus, hdata, hexc]

/-- The request of a cycle has the number of the operation at hand, which no earlier one has. -/
theorem request_number (h : Tracks s) {r : ℕ × MemReq} (hr : s.state.request i = some r) :
    r.1 = s.state.number i ∧ ∀ r' ∈ s.state.dmem.accepted, r'.1 < s.state.number i := by
  have hfire : s.state.lsu.requestFire i.lsu = true := by
    rw [← request_isSome, hr]
    rfl
  refine ⟨?_, fun r' hr' => ?_⟩
  · unfold request at hr
    rw [if_pos hfire] at hr
    rw [← Option.some.inj hr]
  · unfold number
    by_cases ha : s.state.lsu.accepts i.lsu = true
    · rw [if_pos ha]
      exact Nat.lt_succ_of_le (h.bound r' hr')
    · rw [if_neg ha]
      have hsaved : s.state.lsu.issueSaved = true := by
        -- no operation enters, so the request is the one that the unit keeps presenting
        have hin : s.state.lsu.issueInput i.lsu = false := by
          simp only [Lsu.accepts] at ha
          simp [Lsu.issueInput, ha]
        simpa [Lsu.requestFire, Lsu.reqValid, hin] using
          (Bool.and_eq_true_iff.mp hfire).1
      simp only [Lsu.issueSaved, Bool.and_eq_true, beq_iff_eq, Bool.not_eq_true'] at hsaved
      exact h.unsent hsaved.1 hsaved.2 r' hr'

/-- A response leaves the unit when it is offered and taken. -/
theorem taken_isSome : (ports s.state i).taken.isSome =
    (s.state.lsu.rspValid i.lsu && i.rspReady) := by
  unfold Ports.taken ports
  cases i.rspReady <;> cases s.state.lsu.rspValid i.lsu <;> rfl

/-- The ledger stays open as long as the unit has an operation to answer. -/
private theorem current_step (h : Tracks s) (hl : running.legal s.state i) :
    (s.ledger.step (ports s.state i)).current =
      if (s.state.lsu.next i.lsu i.rspReady).live then some (s.state.number i, s.state.op i)
      else none := by
  have hat := h.atHand (i := i)
  rw [Lsu.live_next hl.1, ← taken_isSome (s := s)]
  -- the ledger and the unit agree on whether an operation is at hand, case by case
  obtain ⟨hcur, hacc, -, hstep⟩ | ⟨a, ha, hcase⟩ := (h.lawful hl).step_cases
  · have hnone : s.ledger.atHand (ports s.state i) = none := by
      rw [Ledger.atHand_of_none hcur, hacc]
    rw [hnone] at hat
    split at hat
    · contradiction
    next hno =>
      rw [hstep, hcur, if_neg]
      simp [hno]
  · rw [ha] at hat
    split at hat
    next hsome =>
      obtain rfl := Option.some.inj hat
      rw [hsome]
      obtain ⟨v, hv, -, hstep⟩ | ⟨hv, hc, hstep⟩ | ⟨hv, hc, hstep⟩ := hcase
      · rw [hstep, hv]
        simp [Ledger.settle]
      · have hkill : i.lsu.kill = true := hc
        rw [hstep, hkill]
        simp [Ledger.settle]
      · have hkill : i.lsu.kill = false := hc
        rw [hstep, hv, hkill]
        rfl
    · contradiction

/-- The invariant is kept by each cycle. -/
theorem next (h : Tracks s) (hl : running.legal s.state i) :
    Tracks ((running.withLedger ports).next s i) := by
  have hlaw := h.lawful hl
  have hmem {r : ℕ × MemReq} (hr : r ∈ (s.state.dmemAfter i).accepted) :
      r ∈ s.state.dmem.accepted ∨ s.state.request i = some r := by
    simpa [dmemAfter] using hr
  have hnumber : s.state.ops ≤ s.state.number i := by
    unfold number
    split <;> omega
  have hinv : Inv (running.next s.state i) :=
    h.inv.next hl.2 fun hbad => absurd hbad.1 (by simp [hl.1])
  refine ⟨hinv, ?_, ?_, ?_, fun r hr => ?_, fun hb hsent r hr => ?_⟩
  · exact h.current_step hl
  · -- the ledger lists the operation that gets the next number
    change (s.ledger.step (ports s.state i)).accepted.map Prod.fst =
      List.range' 1 (s.state.number i)
    rw [Ledger.accepted_step hlaw, List.map_append, h.numbers, number]
    by_cases ha : s.state.lsu.accepts i.lsu = true
    · simp [ports, ha, List.range'_1_concat, Nat.add_comm]
    · simp [ports, ha]
  · change (s.state.dmem.accepted ++ (s.state.request i).toList).Pairwise _
    refine List.pairwise_append.mpr ⟨h.ordered, ?_, fun r hr r' hr' => ?_⟩
    · cases s.state.request i <;> simp
    · have hreq : s.state.request i = some r' := by simpa using hr'
      obtain ⟨hn, hlt⟩ := h.request_number hreq
      rw [hn]
      exact hlt r hr
  · change r.1 ≤ s.state.number i
    rcases hmem hr with hr | hr
    · exact Nat.le_trans (h.bound r hr) hnumber
    · exact Nat.le_of_eq (h.request_number hr).1
  · change r.1 < s.state.number i
    change (s.state.lsu.next i.lsu i.rspReady).stateQ = .busy at hb
    change (s.state.lsu.next i.lsu i.rspReady).requestSentQ = false at hsent
    have hold (hf : s.state.lsu.requestFire i.lsu = false) : r ∈ s.state.dmem.accepted := by
      refine (hmem hr).resolve_right fun hreq => ?_
      simp [request, hf] at hreq
    -- only an operation that has just been issued, or still waits, leaves a request unsent
    cases Lsu.next_cases (q := s.state.lsu) (b := i.rspReady) hl.1 with
    | issued state accepts bus rsp fire open' next =>
      rw [number, if_pos accepts]
      exact Nat.lt_succ_of_le (h.bound r (hold (next.2.1 ▸ hsent)))
    | waits state seen rsp fire next =>
      rw [next, Bool.or_eq_false_iff] at hsent
      rw [number, if_neg (by simp [Lsu.accepts_of_ne_idle, state])]
      exact h.unsent state hsent.2 r (hold hsent.1)
    | ignored state accepts fire rsp next => simp [next, state] at hb
    | offBus state accepts bus fire rsp next => simp [next.1] at hb
    | answered state accepts bus fire valid rsp data exc next =>
      rcases next.2.2 with ⟨-, hs⟩ | ⟨-, hs, -⟩ <;> simp [hs] at hb
    | finishes state seen valid sent fire rsp data next =>
      rcases next.2.2 with hs | ⟨-, -, hs, -⟩ <;> simp [hs] at hb
    | offers state fire rsp data next =>
      rw [next] at hb
      split at hb <;> simp [state] at hb

/-- While the unit waits for the answer to an operation that is not killed, the memory has not
given it. -/
theorem not_answered (h : Tracks s) (hb : s.state.lsu.stateQ = .busy)
    (hd : s.state.lsu.discardQ = false) (o : LsuOp) (rsp : MemRsp) :
    ¬ AnsweredBy s.state.dmem s.state.ops o rsp := by
  rintro ⟨req, ⟨k, hreq, hrsp⟩, -⟩
  obtain ⟨hk, hk'⟩ := List.getElem?_eq_some_iff.mp hreq
  have hlt := (List.getElem?_eq_some_iff.mp hrsp).1
  cases hsent : s.state.lsu.requestSentQ with
  | false =>
    -- an unsent request has a number that the memory has not seen
    have := h.unsent hb hsent (s.state.ops, req) (List.mem_of_getElem? hreq)
    exact absurd this (Nat.lt_irrefl _)
  | true =>
    -- the last request is the only one without an answer
    obtain ⟨-, r, ⟨hlen, hlast⟩, hmine⟩ := h.inv.port.sent hsent
    rw [List.getLast?_eq_getElem?] at hlast
    obtain ⟨hm, hm'⟩ := List.getElem?_eq_some_iff.mp hlast
    have hord := List.pairwise_iff_getElem.mp h.ordered k _ hk hm (by omega)
    rw [hk', hm', (hmine hd).1] at hord
    exact absurd hord (Nat.lt_irrefl _)

/-- An operation on the bus that is not killed is offered its response as soon as the memory
answers its request, any other one in the cycle after its acceptance. -/
theorem prompt (h : Tracks s) (hl : running.legal s.state i) (hkill : i.lsu.kill = false) {n : ℕ}
    {o : LsuOp} (hat : s.ledger.atHand (ports s.state i) = some (n, o))
    (hans : if o.onBus then ∃ rsp, AnsweredBy (running.next s.state i).dmem n o rsp
      else s.ledger.current.isSome) : (ports s.state i).offer.isSome := by
  rw [h.atHand] at hat
  split at hat
  next hlive =>
    obtain ⟨rfl, rfl⟩ := Prod.mk.inj (Option.some.inj hat)
    -- without an offer the operation goes on, and so has not been answered
    by_contra hoffer
    have hr : s.state.lsu.rspValid i.lsu = false := by
      by_contra hne
      simp [ports, hne] at hoffer
    have hnext := Lsu.live_next (q := s.state.lsu) hl.1 i.rspReady
    rw [hlive, hkill, hr] at hnext
    have hinv := h.next hl
    cases Lsu.next_cases (q := s.state.lsu) (b := i.rspReady) hl.1 with
    | ignored state accepts fire rsp next =>
      rw [Lsu.live_of_idle (by rw [next, state])] at hnext
      contradiction
    | offBus state accepts bus fire rsp next =>
      have hop : s.state.op i = i.lsu.op := by simp [op, accepts]
      rw [hop, bus, h.current, Lsu.live_of_idle state] at hans
      simp at hans
    | issued state accepts bus rsp fire open' next =>
      have hop : s.state.op i = i.lsu.op := by simp [op, accepts]
      rw [hop, bus, if_pos rfl] at hans
      obtain ⟨rsp, hrsp⟩ := hans
      exact hinv.not_answered next.1 next.2.2.1 _ rsp hrsp
    | answered state accepts bus fire valid rsp data exc next => simp [hr] at rsp
    | waits state seen rsp fire next =>
      have hbusy : (s.state.lsu.next i.lsu i.rspReady).stateQ = .busy := by rw [next, state]
      have hd : (s.state.lsu.next i.lsu i.rspReady).discardQ = false := by
        simpa [Lsu.live_of_busy hbusy] using hnext
      have hd' : s.state.lsu.discardQ = false := by
        rw [next, Bool.or_eq_false_iff] at hd
        exact hd.2
      have hop : s.state.op i = s.state.last := by
        simp [op, Lsu.accepts_of_ne_idle, state]
      rw [hop, (h.inv.live state hd').2.2, if_pos rfl] at hans
      obtain ⟨rsp, hrsp⟩ := hans
      exact hinv.not_answered hbusy hd _ rsp hrsp
    | finishes state seen valid sent fire rsp data next =>
      rw [Lsu.live_of_idle (next.2.2.resolve_right fun h => by simp [hr] at h)] at hnext
      contradiction
    | offers state fire rsp data next => simp [hr, hkill] at rsp
  · contradiction

end Tracks

section Response

variable {s : LsuSystem} {i j : In} {o : ℕ × LsuOp} {v : Word × Exc}

/-- What is offered is the response of the LSU. -/
theorem ports_offer (h : (ports s i).offer = some v) : s.lsu.rspValid i.lsu = true ∧
    v = (s.lsu.loadData i.lsu, s.lsu.exception i.lsu) := by
  simp only [ports, Option.ite_none_right_eq_some, Option.some.injEq] at h
  exact ⟨h.1, h.2.symm⟩

/-- A response that is neither taken nor killed is offered again. -/
theorem offer_next (hl : running.legal s i) (hv : (ports s i).offer = some v)
    (hready : i.rspReady = false) (hkill : j.lsu.kill = false) :
    (ports (running.next s i) j).offer = some v := by
  obtain ⟨hr, rfl⟩ := ports_offer hv
  obtain ⟨hs, hd, he⟩ := Lsu.keeps hl.1 hr
  have hvalid : (s.lsu.next i.lsu false).rspValid j.lsu = true := by
    simp [Lsu.rspValid, hs, hkill]
  have hdata : (s.lsu.next i.lsu false).loadData j.lsu = s.lsu.loadData i.lsu := by
    rw [← hd, Lsu.loadData, if_pos hvalid, if_pos hs]
  have hexc : (s.lsu.next i.lsu false).exception j.lsu = s.lsu.exception i.lsu := by
    rw [← he, Lsu.exception, if_pos hvalid, if_pos hs]
  have hlsu : (running.next s i).lsu = s.lsu.next i.lsu false := by
    rw [← hready]
    rfl
  simp only [ports, hlsu, hvalid, hdata, hexc, if_true]

/-- Answers are final. -/
theorem Built.next (h : Built s o v) : Built (running.next s i) o v := by
  unfold Built at h ⊢
  by_cases hbus : o.2.onBus = true
  · rw [if_pos hbus] at h ⊢
    obtain ⟨rsp, ⟨r, hans, hreq⟩, hv⟩ := h
    exact ⟨rsp, ⟨r, hans.step .., hreq⟩, hv⟩
  · rw [if_neg hbus] at h ⊢
    exact h

end Response

/-- The transaction law: without reset, an operation that is not killed before its response is
taken gets one response, built from the answer to its own request and kept until it is taken; a
killed one gets none. An operation makes at most one request, a presented request stays, and no
operation is accepted while a request is unanswered. -/
theorem lsu_serves {is : List In} {s : Ledgered LsuSystem (ℕ × LsuOp) (Word × Exc)}
    (hr : (running.withLedger ports).Run { state := {} } is s) :
    Serves running ports Built {} is s ∧
      s.ledger.accepted.map Prod.fst = List.range' 1 s.state.ops ∧
      s.state.dmem.accepted.Pairwise (fun r r' => r.1 < r'.1) ∧
      ∀ i, running.legal s.state i →
        (∀ n o, i.lsu.kill = false → s.ledger.atHand (ports s.state i) = some (n, o) →
          (if o.onBus then ∃ rsp, AnsweredBy (running.next s.state i).dmem n o rsp
            else s.ledger.current.isSome) → (ports s.state i).offer.isSome) ∧
        (∀ j : In, s.state.lsu.reqValid i.lsu = true → i.lsu.dmem.reqReady = false →
          (running.next s.state i).lsu.reqValid j.lsu = true ∧
            ((running.next s.state i).lsu.req j.lsu).addr = (s.state.lsu.req i.lsu).addr ∧
            ((running.next s.state i).lsu.req j.lsu).write = (s.state.lsu.req i.lsu).write ∧
            ((running.next s.state i).lsu.req j.lsu).wstrb = (s.state.lsu.req i.lsu).wstrb ∧
            ((s.state.lsu.req i.lsu).write = true →
              ((running.next s.state i).lsu.req j.lsu).wdata = (s.state.lsu.req i.lsu).wdata)) ∧
        (s.state.lsu.accepts i.lsu = true → s.state.dmem.Quiet) := by
  have h₀ : Tracks { state := {} } :=
    ⟨.init, rfl, rfl, .nil, fun _ hm => (List.not_mem_nil hm).elim, fun hs => by simp at hs⟩
  obtain ⟨htracks, hserves⟩ := Serves.of_invariant hr h₀
    (fun s i h hl => h.next hl) (fun s i h hl => h.lawful hl)
    (fun s i j v _ hl hv hready _ hkill => offer_next hl hv hready hkill)
    (fun s i o v _ hv => hv.next)
  refine ⟨hserves, htracks.numbers, htracks.ordered, fun i hl => ⟨?_, fun j hv hready => ?_, ?_⟩⟩
  · exact fun n o hkill hat hans => htracks.prompt hl hkill hat hans
  · exact Lsu.presents hl.1 hv hready i.rspReady j.lsu
  · intro ha
    exact htracks.inv.port.quiet (htracks.inv.port.not_sent
      (by rw [(Lsu.idle_of_accepts ha).1]; decide))

/-- A load that is killed while its request is outstanding, the drain of its answer, and a load that
gets its own. -/
theorem serves_kill :
    let s := (running.withLedger ports).exec { state := {} }
      [load 0x1000#32 { reqReady := true }, { lsu := { kill := true } },
        { lsu := { dmem := { rspValid := true, rspRdata := 17#32 } }, rspReady := true },
        load 0x2000#32 { reqReady := true, rspValid := true, rspRdata := 34#32 }]
    s.ledger.responses = [(34#32, {})] ∧ s.ledger.Correct (Built s.state) :=
  ⟨by decide, (lsu_serves (.of_always (by decide))).1.correct⟩

end LsuSystem

end Rv32im

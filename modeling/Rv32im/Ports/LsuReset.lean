import Rv32im.Ports.Lsu
import Rv32im.Clocked.Circuit

/-!
# Resetting the load/store unit

The unit connected to a memory that answers every accepted request exactly once and in order,
whatever the reset does. Operations are numbered in the order in which the unit accepts them and
every request carries the number of its operation.

* `LsuSystem`: the unit, the history of the port and the numbering;
* `LsuSystem.Answers`: a response offered to the pipeline is the one of the current operation;
* `LsuSystem.answers_of_drains`: this holds in every run in which the memory never accepts a held
  request during reset; `LsuSystem.not_answers` is a run in which it does.
-/

namespace Rv32im

open Clocked

/-- The unit and the observations of its environment. -/
structure LsuSystem where
  lsu : Lsu := {}
  /-- The requests accepted, each with the number of its operation, and the responses. -/
  dmem : Channel (ℕ × MemReq) MemRsp := {}
  /-- The number of operations accepted so far, -/
  ops : ℕ := 0
  /-- of those accepted when the last reset ended, -/
  base : ℕ := 0
  /-- and the last one. -/
  last : LsuOp := ⟨.none, .word, false, 0#32, 0#4, 0#32⟩
deriving DecidableEq

namespace LsuSystem

/-- The inputs of the unit, `rsp_ready_i` included. -/
structure In where
  lsu : Lsu.In := {}
  rspReady : Bool := false
deriving DecidableEq

variable (s : LsuSystem) (i : In)

/-- The number of the operation the unit works on in this cycle: the one accepted now, or the
last one. -/
def number : ℕ := if s.lsu.accepts i.lsu then s.ops + 1 else s.ops

/-- The operation itself. -/
def op : LsuOp := if s.lsu.accepts i.lsu then i.lsu.op else s.last

/-- The request accepted in this cycle. -/
def request : Option (ℕ × MemReq) :=
  if s.lsu.requestFire i.lsu then some (s.number i, s.lsu.req i.lsu) else none

/-- The port's history after this cycle. -/
def dmemAfter : Channel (ℕ × MemReq) MemRsp := s.dmem.step (s.request i) i.lsu.dmem.rsp

/-- Any operations, kills, resets, ready patterns and response delays, as long as the memory
answers accepted requests only. -/
def circuit : Circuit LsuSystem In where
  legal s i := s.dmem.Ok (s.request i) i.lsu.dmem.rsp
  next s i :=
    { lsu := s.lsu.next i.lsu i.rspReady
      dmem := s.dmemAfter i
      ops := s.number i
      base := if i.lsu.rst then s.number i else s.base
      last := s.op i }

/-- Whether a cycle is legal can be computed. -/
instance (s : LsuSystem) (i : In) : Decidable (circuit.legal s i) :=
  inferInstanceAs (Decidable (Channel.Ok _ _ _))

/-- The request of operation number `n`, which is `o`, has been answered by `rsp`. -/
def AnsweredBy (ch : Channel (ℕ × MemReq) MemRsp) (n : ℕ) (o : LsuOp) (rsp : MemRsp) : Prop :=
  ∃ r : MemReq, ch.Answered (n, r) rsp ∧ r.addr = o.req.addr ∧ r.write = o.req.write

/-- What `rsp_valid_o` promises in a cycle with `rst_i` low: the operation was accepted after the
last reset, and the data and error are those of the answer to its own request, or local ones
if it needs no request. A request accepted before the end of the last reset is answered
silently. Of a cycle with `rst_i` high, at whose edge a response is drained, it says nothing. -/
structure Answers : Prop where
  fresh : s.lsu.rspValid i.lsu = true → s.base < s.number i
  bus : s.lsu.rspValid i.lsu = true → (s.op i).onBus = true → ∃ rsp,
    AnsweredBy (s.dmemAfter i) (s.number i) (s.op i) rsp ∧
      s.lsu.loadData i.lsu = (s.op i).loadData rsp ∧
      s.lsu.exception i.lsu = (s.op i).exception rsp
  offBus : s.lsu.rspValid i.lsu = true → (s.op i).onBus = false →
    s.lsu.loadData i.lsu = 0#32 ∧ s.lsu.exception i.lsu = (s.op i).localException
  silent : i.lsu.dmem.rspValid = true →
    ∀ r, (s.dmemAfter i).accepted[s.dmem.answered.length]? = some r → r.1 ≤ s.base →
      s.lsu.rspValid i.lsu = false

/-- The channel answers the unit's own operation, whose copy the unit keeps. -/
structure Inv (s : LsuSystem) : Prop where
  port : s.lsu.Port s.dmem fun r =>
    r.1 = s.ops ∧ r.2.addr = s.last.req.addr ∧ r.2.write = s.last.req.write
  base : s.base ≤ s.ops
  live : s.lsu.stateQ = .busy → s.lsu.discardQ = false →
    s.base < s.ops ∧ s.lsu.op = s.last ∧ s.last.onBus = true
  resp : s.lsu.stateQ = .resp → s.base < s.ops ∧
    (s.last.onBus = true → ∃ rsp, AnsweredBy s.dmem s.ops s.last rsp ∧
      s.lsu.loadDataQ = s.last.loadData rsp ∧ s.lsu.exceptionQ = s.last.exception rsp) ∧
    (s.last.onBus = false →
      s.lsu.loadDataQ = 0#32 ∧ s.lsu.exceptionQ = s.last.localException)

variable {s i}

/-- A request is accepted when the LSU and the memory agree on it. -/
theorem request_isSome : (s.request i).isSome = s.lsu.requestFire i.lsu := by
  unfold request
  split <;> simp_all

/-- The accepted request is the one of the current operation. -/
theorem request_of_live (h : Inv s) (hlive : s.lsu.accepts i.lsu = true ∧ s.lsu.stateQ = .idle ∨
      s.lsu.stateQ = .busy ∧ s.lsu.discardQ = false) {r : ℕ × MemReq}
    (hr : s.request i = some r) :
    r.1 = s.number i ∧ r.2.addr = (s.op i).req.addr ∧ r.2.write = (s.op i).req.write := by
  unfold request at hr
  split at hr
  next hf =>
    obtain rfl := Option.some.inj hr
    refine ⟨rfl, ?_⟩
    rcases hlive with ⟨ha, hs⟩ | ⟨hs, hd⟩
    · have hin : s.lsu.issueInput i.lsu = true := by
        simp only [Lsu.requestFire, Lsu.reqValid, Lsu.issueSaved, hs, Bool.and_eq_true,
          Bool.or_eq_true] at hf
        simpa using hf.1
      -- presented from the inputs: address, strobes and direction are those of the operation
      have hlanes := Lsu.req_of_issueInput_lanes hin
      simp only [op, ha, if_true]
      exact ⟨hlanes.1, hlanes.2.1⟩
    · have ha : s.lsu.accepts i.lsu = false := by simp [Lsu.accepts, Lsu.reqReady, hs]
      have hin : s.lsu.issueInput i.lsu = false := by
        simp [Lsu.issueInput, Lsu.reqReady, hs]
      obtain ⟨-, hop, -⟩ := h.live hs hd
      rw [Lsu.req_of_not_issueInput hin, hop]
      simp [op, ha]
  next => simp at hr

/-- A response offered as it arrives answers the request of the current operation, which was
accepted after the last reset. -/
private theorem Inv.arriving (h : Inv s) (hrst : i.lsu.rst = false)
    (hs : s.lsu.stateQ ≠ .resp) (hr : s.lsu.rspValid i.lsu = true) :
    s.base < s.number i ∧ (s.op i).onBus = true ∧
      s.lsu.loadData i.lsu = (s.op i).loadData (Lsu.busRsp i.lsu) ∧
      s.lsu.exception i.lsu = (s.op i).exception (Lsu.busRsp i.lsu) ∧
      ∃ r, (s.dmemAfter i).AnsweredAt s.dmem.answered.length r (Lsu.busRsp i.lsu) ∧
        r.1 = s.number i ∧ r.2.addr = (s.op i).req.addr ∧ r.2.write = (s.op i).req.write := by
  obtain ⟨-, r, hmine, hans⟩ := h.port.answeredAt hrst request_isSome hs hr
  cases Lsu.next_cases (q := s.lsu) (i := i.lsu) (b := true) hrst with
  | ignored state accepts fire rsp next => simp [rsp] at hr
  | offBus state accepts bus fire rsp next => simp [rsp] at hr
  | issued state accepts bus rsp fire open' next => simp [rsp] at hr
  | answered state accepts bus fire valid rsp data exc next =>
    -- accepted, requested and answered in this cycle
    have hreq := request_of_live h (.inl ⟨accepts, state⟩) (by simpa [state] using hmine)
    refine ⟨?_, ?_, ?_, ?_, r, hans, hreq⟩
    · simpa [number, accepts] using Nat.lt_succ_of_le h.base
    · simpa [op, accepts] using bus
    · simpa [op, accepts] using data
    · simpa [op, accepts] using exc
  | waits state seen rsp fire next => simp [rsp] at hr
  | finishes state seen valid sent fire rsp data next =>
    have ha : s.lsu.accepts i.lsu = false := by simp [Lsu.accepts, Lsu.reqReady, state]
    -- an answer that is offered has not been discarded
    have hd : s.lsu.discardQ = false := by
      rw [rsp] at hr
      simp only [Bool.and_eq_true, Bool.not_eq_true'] at hr
      exact hr.2
    obtain ⟨hbase, hop, hbus⟩ := h.live state hd
    obtain ⟨hdata, hexc⟩ := data hr
    have hreq : r.1 = s.number i ∧ r.2.addr = (s.op i).req.addr ∧
        r.2.write = (s.op i).req.write := by
      -- its request is out already, or is accepted together with the answer
      rcases hmine with ⟨-, hm⟩ | hacc
      · simpa [number, op, ha] using hm
      · exact request_of_live h (.inr ⟨state, hd⟩) hacc
    refine ⟨?_, ?_, ?_, ?_, r, hans, hreq⟩
    · simpa [number, ha] using hbase
    · simpa [op, ha] using hbus
    · simpa [op, ha, hop] using hdata
    · simpa [op, ha, hop] using hexc
  | offers state fire rsp data next => exact absurd state hs

/-- In a cycle without reset the promise holds. -/
theorem Inv.answers (h : Inv s) (hl : circuit.legal s i) (hrst : i.lsu.rst = false) :
    Answers s i := by
  by_cases hs : s.lsu.stateQ = .resp
  · have ha : s.lsu.accepts i.lsu = false := by simp [Lsu.accepts, Lsu.reqReady, hs]
    obtain ⟨hbase, hbus, hloc⟩ := h.resp hs
    cases Lsu.next_cases (q := s.lsu) (i := i.lsu) (b := true) hrst with
    | offers state fire rsp data next =>
      refine ⟨fun _ => ?_, fun hr hb => ?_, fun hr hb => ?_, fun hv => ?_⟩
      · simpa [number, ha] using hbase
      · obtain ⟨hdata, hexc⟩ := data hr
        obtain ⟨r, ⟨req, hans, hreq⟩, hd, he⟩ := hbus (by simpa [op, ha] using hb)
        refine ⟨r, ⟨req, ?_, ?_⟩, ?_, ?_⟩
        · rw [show s.number i = s.ops by simp [number, ha]]
          exact hans.step ..
        · simpa [op, ha] using hreq
        · rw [hdata, hd]; simp [op, ha]
        · rw [hexc, he]; simp [op, ha]
      · obtain ⟨hdata, hexc⟩ := data hr
        rw [hdata, hexc]
        simpa [op, ha] using hloc (by simpa [op, ha] using hb)
      · -- nothing is outstanding, so the memory cannot answer
        have hq := h.port.quiet (h.port.not_sent (by rw [hs]; decide))
        have hl : s.dmem.Ok (s.request i) i.lsu.dmem.rsp := hl
        have hnone : s.request i = none := by simp [request, fire]
        rw [hnone, MemIn.rsp_of_valid hv] at hl
        exact absurd hl (hq.not_ok _)
    | _ => simp_all
  · have harr := fun hr => h.arriving hrst hs hr
    refine ⟨fun hr => (harr hr).1, fun hr _ => ?_, fun hr hb => ?_, fun hv r hacc hle => ?_⟩
    · obtain ⟨-, -, hdata, hexc, ⟨n, r⟩, hans, rfl, hreq⟩ := harr hr
      exact ⟨_, ⟨r, ⟨_, hans⟩, hreq⟩, hdata, hexc⟩
    · simp [(harr hr).2.1] at hb
    · by_contra hne
      -- an answer offered belongs to an operation after the reset
      obtain ⟨hbase, -, -, -, r', hans, hn, -⟩ := harr (by simpa using hne)
      obtain rfl : r = r' := Option.some.inj (hacc.symm.trans hans.1)
      omega

/-- It holds before the first cycle. -/
theorem Inv.init : Inv {} :=
  ⟨⟨fun _ => rfl, fun hs => by simp at hs⟩, Nat.le_refl _, fun hs => by simp at hs,
    fun hs => by simp at hs⟩

/-- Every cycle in which the memory does not accept a held request during reset keeps the
invariant. -/
theorem Inv.next (h : Inv s) (hl : circuit.legal s i) (hbad : ¬ Lsu.ResetAccepts s.lsu i.lsu) :
    Inv (circuit.next s i) := by
  have hl : s.dmem.Ok (s.request i) i.lsu.dmem.rsp := hl
  have hnumber : s.base ≤ s.number i := by
    have := h.base
    unfold number
    split <;> omega
  cases hrst : i.lsu.rst with
  | true =>
    -- after the reset the unit is idle or drains, so no operation is live
    obtain ⟨hport, hstate⟩ := h.port.reset (b := i.rspReady) (m := fun r =>
      r.1 = s.number i ∧ r.2.addr = (s.op i).req.addr ∧ r.2.write = (s.op i).req.write)
      hrst request_isSome hl hbad
    refine ⟨hport, ?_, fun hb hd => ?_, fun hr => ?_⟩
    · simp [circuit, hrst]
    · simp only [circuit] at hb hd
      rcases hstate with h | ⟨-, -, h⟩ <;> simp_all
    · simp only [circuit] at hr
      rcases hstate with h | ⟨h, -⟩ <;> simp_all
  | false =>
    have hcase := Lsu.next_cases (q := s.lsu) (b := i.rspReady) hrst
    have hport := h.port.next (b := i.rspReady) (m := fun r =>
      r.1 = s.number i ∧ r.2.addr = (s.op i).req.addr ∧ r.2.write = (s.op i).req.write)
      hrst request_isSome hl
    have harr := h.arriving hrst
    have hbase' : (if i.lsu.rst then s.number i else s.base) = s.base := by simp [hrst]
    have hidle (hs : s.lsu.stateQ ≠ .idle) : s.number i = s.ops ∧ s.op i = s.last := by
      have ha : s.lsu.accepts i.lsu = false := by simp [Lsu.accepts, Lsu.reqReady, hs]
      simp [number, op, ha]
    -- an operation accepted now gets a new number
    have hacc (ha : s.lsu.accepts i.lsu = true) :
        s.base < s.number i ∧ s.op i = i.lsu.op := by
      have := h.base
      simp only [number, op, ha, if_true]
      exact ⟨by omega, trivial⟩
    -- an answer that is not taken at once is kept with its data and its error
    have hresp (q' : Lsu) (hs : s.lsu.stateQ ≠ .resp) (hr : s.lsu.rspValid i.lsu = true)
        (hdata : q'.loadDataQ = (s.op i).loadData (Lsu.busRsp i.lsu))
        (hexc : q'.exceptionQ = (s.op i).exception (Lsu.busRsp i.lsu)) :
        s.base < s.number i ∧
          ((s.op i).onBus = true → ∃ rsp, AnsweredBy (s.dmemAfter i) (s.number i) (s.op i) rsp ∧
            q'.loadDataQ = (s.op i).loadData rsp ∧ q'.exceptionQ = (s.op i).exception rsp) ∧
          ((s.op i).onBus = false →
            q'.loadDataQ = 0#32 ∧ q'.exceptionQ = (s.op i).localException) := by
      obtain ⟨hb, hbus, -, -, ⟨n, r⟩, hans, rfl, hreq⟩ := harr hs hr
      exact ⟨hb, fun _ => ⟨_, ⟨r, ⟨_, hans⟩, hreq⟩, hdata, hexc⟩, fun hne => by simp [hbus] at hne⟩
    simp only [circuit, hbase']
    generalize s.lsu.next i.lsu i.rspReady = q' at hcase hport
    cases hcase with
    | ignored state accepts fire rsp next =>
      subst next
      have hnone : s.request i = none := by simp [request, fire]
      refine ⟨hport (fun r hr => by simp [hnone] at hr) fun r hb => by simp [state] at hb,
        hnumber, fun hb => ?_, fun hr => ?_⟩
      · simp [state] at hb
      · simp [state] at hr
    | offBus state accepts bus fire rsp next =>
      obtain ⟨hstate, -, -, hdata, hexc⟩ := next
      have hnone : s.request i = none := by simp [request, fire]
      refine ⟨hport (fun r hr => by simp [hnone] at hr) fun r hb => by simp [state] at hb,
        hnumber, fun hb => ?_, fun _ => ⟨(hacc accepts).1, ?_, ?_⟩⟩
      · simp [hstate] at hb
      · simp [(hacc accepts).2, bus]
      · rw [(hacc accepts).2]
        exact fun _ => ⟨hdata, hexc⟩
    | issued state accepts bus rsp fire open' next =>
      obtain ⟨hstate, -, -, hop⟩ := next
      refine ⟨hport (fun r hr _ _ => request_of_live h (.inl ⟨accepts, state⟩) hr)
        fun r hb => by simp [state] at hb, hnumber, fun _ _ => ⟨(hacc accepts).1, ?_, ?_⟩,
        fun hr => by simp [hstate] at hr⟩
      · rw [hop, (hacc accepts).2]
      · rw [(hacc accepts).2, bus]
    | answered state accepts bus fire valid rsp data exc next =>
      obtain ⟨hsent, -, hnext⟩ := next
      have hsent' := h.port.not_sent (by rw [state]; decide)
      refine ⟨hport (fun r _ hs => by simp [hsent, hsent'] at hs)
        fun r hb => by simp [state] at hb, hnumber, fun hb => ?_, fun hr => ?_⟩
      · rcases hnext with ⟨-, hi⟩ | ⟨-, hi, -⟩ <;> simp [hi] at hb
      · rcases hnext with ⟨-, hi⟩ | ⟨-, -, hdata, hexc⟩
        · simp [hi] at hr
        · rw [← (hacc accepts).2] at hdata hexc
          exact hresp q' (by rw [state]; decide) rsp hdata hexc
    | waits state seen rsp fire next =>
      subst next
      obtain ⟨hn, ho⟩ := hidle (by rw [state]; decide)
      refine ⟨hport (fun r hr _ hd => ?_) (fun r _ _ _ hm => by rwa [hn, ho]), hnumber,
        fun _ hd => ?_, fun hr => by simp [state] at hr⟩
      · simp only [Bool.or_eq_false_iff] at hd
        exact request_of_live h (.inr ⟨state, hd.2⟩) hr
      · simp only [Bool.or_eq_false_iff] at hd
        rw [hn, ho]
        exact h.live state hd.2
    | finishes state seen valid sent fire rsp data next =>
      obtain ⟨hsent, -, hnext⟩ := next
      obtain ⟨hn, ho⟩ := hidle (by rw [state]; decide)
      refine ⟨hport (fun r _ hs => by simp [hsent] at hs) (fun r _ _ _ hm => by rwa [hn, ho]),
        hnumber, fun hb => ?_, fun hr => ?_⟩
      · rcases hnext with hi | ⟨-, -, hi, -⟩ <;> simp [hi] at hb
      · rcases hnext with hi | ⟨hr', -, -, hdata, hexc⟩
        · simp [hi] at hr
        · have hd : s.lsu.discardQ = false := by
            rw [rsp, Bool.and_eq_true] at hr'
            simpa using hr'.2
          rw [(h.live state hd).2.1, ← ho] at hdata hexc
          exact hresp q' (by rw [state]; decide) hr' hdata hexc
    | offers state fire rsp data next =>
      subst next
      obtain ⟨hn, ho⟩ := hidle (by rw [state]; decide)
      obtain ⟨hb, hbus, hloc⟩ := h.resp state
      have hnone : s.request i = none := by simp [request, fire]
      refine ⟨hport (fun r hr => by simp [hnone] at hr) fun r hb => by simp [state] at hb,
        hnumber, fun hb => ?_, fun hr => ?_⟩
      · split at hb <;> simp [state] at hb
      · split at hr
        · simp at hr
        next hkeep =>
          rw [hn, ho, if_neg hkeep]
          refine ⟨hb, fun hon => ?_, hloc⟩
          obtain ⟨rsp, ⟨r, hans, hreq⟩, hd⟩ := hbus hon
          exact ⟨rsp, ⟨r, hans.step .., hreq⟩, hd⟩

/-- A cycle that avoids the defect of the reset. -/
def Drains (s : LsuSystem) (i : In) : Prop := ¬ Lsu.ResetAccepts s.lsu i.lsu

/-- Whether a cycle avoids the defect can be computed. -/
instance (s : LsuSystem) (i : In) : Decidable (Drains s i) := inferInstanceAs (Decidable (¬ _))

/-- If in every cycle of the run under reset the memory does not accept a held request or
answers it at once, the promise holds in every cycle without reset. -/
theorem answers_of_drains {is : List In} (h : circuit.Run {} is s)
    (hdrains : circuit.Always Drains {} is) (hl : circuit.legal s i)
    (hrst : i.lsu.rst = false) : Answers s i := by
  refine Inv.answers ?_ hl hrst
  exact h.invariant_of_always .init hdrains fun s j hs hb hl => hs.next hl hb

/-! ### Runs with a reset -/

/-- A word load at `addr`, offered in a cycle with `dmem` on the port. -/
def load (addr : Word) (dmem : MemIn) : In :=
  { lsu := { reqValid := true, cmd := .load, size := .word, addr, dmem }, rspReady := true }

/-- A reset cycle with `dmem` on the port. -/
def resets (dmem : MemIn) : In := { lsu := { rst := true, dmem } }

/-- A load accepted by the memory, a reset, the drain of its response, and another load. -/
theorem answers_of_drains_accepted :
    let is := [load 0x1000#32 { reqReady := true }, resets { reqReady := true },
      { lsu := { dmem := { rspValid := true, rspRdata := 17#32 } } }]
    let i := load 0x2000#32 { reqReady := true, rspValid := true, rspRdata := 34#32 }
    (circuit.exec {} is).lsu.rspValid i.lsu = true ∧ Answers (circuit.exec {} is) i :=
  ⟨by decide, answers_of_drains (.of_always (by decide)) (by decide) (by decide) rfl⟩

/-- The load at `0x1000` waits for the memory when the reset strikes; the memory accepts its
request in the reset cycle, and its answer is offered as that of the load at `0x2000`. -/
theorem not_answers : ¬ ∀ (is : List In) (s : LsuSystem) (i : In),
    circuit.Run {} is s → circuit.legal s i → i.lsu.rst = false → Answers s i := by
  intro h
  have hsilent := (h [load 0x1000#32 {}, resets { reqReady := true }] _
    (load 0x2000#32 { reqReady := true, rspValid := true, rspRdata := 17#32 })
    (.of_always (by decide)) (by decide) rfl).silent rfl (1, { addr := 0x1000#32 })
    (by decide) (by decide)
  exact absurd hsilent (by decide)

end LsuSystem

end Rv32im

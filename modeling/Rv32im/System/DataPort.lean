import Rv32im.System.Wiring

/-!
# Data accesses are made once and for good

Without a further reset, the accepted data requests are those of the aligned loads and stores
that MEM/WB captures, in program order, and of the one in EX/MEM if its request is out. A
request once presented keeps its instruction in EX/MEM until the answer, and nothing that is
still in front of it can flush it.

* `System.captured`: the packet that MEM/WB captures in a cycle;
* `System.outstanding`: the request of EX/MEM that awaits its answer;
* `System.NonSpeculative`: what a cycle does with the data port.
-/

namespace Rv32im

open Clocked

namespace System

variable {P : CoreParams} {s s₀ : System} {i : CoreIn} {is : List CoreIn}

/-- The packet in EX/MEM that MEM/WB captures in this cycle. -/
def captured (P : CoreParams) (s : System) (i : CoreIn) : Option ExMem :=
  if (s.next P i).core.memWbQ.valid then some s.core.exMemQ else none

/-- The request accepted for the packet in EX/MEM, while it is unanswered. -/
def outstanding (s : System) : List MemReq :=
  if s.core.lsu.requestSentQ && !s.core.lsu.discardQ then [s.core.exMemQ.request] else []

/-- The unit follows its port and awaits the answer to the request of EX/MEM. -/
abbrev DataPort (s : System) : Prop :=
  s.core.lsu.Port s.dmem (· = s.core.exMemQ.request)

/-- After a reset there is nothing to answer but what is drained. -/
theorem Started.dataPort (h : Started P s) : DataPort s := by
  obtain ⟨c₀, i, hrst, hc⟩ := h.core
  refine ⟨h.dmem.quiet, fun hs => ?_⟩
  obtain ⟨hbusy, r, howes, -⟩ := h.dmem.sent hs
  refine ⟨hbusy, r, howes, fun hd => ?_⟩
  have hlsu : s.core.lsu = c₀.lsu.reset (c₀.lsuIn i) := by
    rw [hc]
    exact if_pos hrst
  rw [hlsu, Lsu.reset] at hd hs
  by_cases hdrain : c₀.lsu.stateQ = .busy ∧ c₀.lsu.requestSentQ = true ∧
      (c₀.lsuIn i).dmem.rspValid = false
  · rw [if_pos hdrain] at hd
    simp at hd
  · rw [if_neg hdrain] at hs
    simp at hs

/-- An accepted request is that of the packet in EX/MEM. -/
theorem eq_of_dmemReq (hda : s.core.DataAccess) (ht : s.core.TrapDrain)
    {F : IfId → Prop} (hp : s.core.Packets F) (hrst : i.rst = false) {r : MemReq}
    (hr : s.dmemReq i = some r) : s.core.exMemQ.onBus = true ∧ r = s.core.exMemQ.request := by
  unfold dmemReq at hr
  split at hr
  next hf =>
    have hv : s.core.lsu.reqValid (s.core.lsuIn i) = true := (Bool.and_eq_true_iff.mp hf).1
    obtain ⟨hbus, -, hreq⟩ := hda.request ht hp hrst hv
    exact ⟨hbus, by rw [← hreq]; exact (Option.some.inj hr).symm⟩
  next => simp at hr

/-- A request that is out is not presented again. -/
theorem requestFire_of_sent (hs : s.core.lsu.stateQ = .busy)
    (hsent : s.core.lsu.requestSentQ = true) :
    s.core.lsu.requestFire (s.core.lsuIn i) = false := by
  simp [Lsu.requestFire, Lsu.reqValid, Lsu.issueInput, Lsu.reqReady, Lsu.issueSaved, hs, hsent]

/-- A cycle without reset keeps the unit on its port. -/
theorem DataPort.next (h : DataPort s) (hda : s.core.DataAccess) (ht : s.core.TrapDrain)
    {F : IfId → Prop} (hp : s.core.Packets F) (hrst : i.rst = false)
    (hok : s.dmem.Ok (s.dmemReq i) i.dmem.rsp) : DataPort (s.next P i) := by
  -- an operation whose request is out after the cycle was held in EX/MEM
  have hheld (hs : (s.next P i).core.lsu.requestSentQ = true)
      (hd : (s.next P i).core.lsu.discardQ = false)
      (hb : (s.next P i).core.lsu.stateQ = .busy) :
      (s.next P i).core.exMemQ = s.core.exMemQ := by
    cases hda.access (P := P) ht hrst with
    | none fire valid mem state next =>
      rcases next with hi | ⟨hdr, -⟩
      · exact absurd (hi.symm.trans hb) (by simp)
      · exact absurd (hdr.2.symm.trans hd) (by simp)
    | drains fire valid mem trap wait state next held => exact held.1
    | offBus fire valid mem bus trap step =>
      rcases step with ⟨-, -, hr, -⟩ | ⟨-, -, hi⟩
      · exact absurd (hr.symm.trans hb) (by simp)
      · exact absurd (hi.symm.trans hb) (by simp)
    | waits bus trap state wait rsp next held => exact held.1
    | answered bus trap state wait sent valid next =>
      exact absurd (next.symm.trans hb) (by simp)
  have hnext : Lsu.Port (s.next P i).core.lsu (s.next P i).dmem fun _ => True :=
    Lsu.Port.next h hrst dmemReq_isSome hok (fun _ _ _ _ => trivial) fun _ _ _ _ _ => trivial
  refine Lsu.Port.next h hrst dmemReq_isSome hok (fun r hr hs hd => ?_) fun r _ hs hd hm => ?_
  · rw [hheld hs hd (hnext.sent hs).1]
    exact (eq_of_dmemReq hda ht hp hrst hr).2
  · rw [hheld hs hd (hnext.sent hs).1]
    exact hm

/-- The log of the port grows with the packets that MEM/WB captures. -/
theorem DataPort.log (h : DataPort s) (hda : s.core.DataAccess) (ht : s.core.TrapDrain)
    {F : IfId → Prop} (hp : s.core.Packets F) (hrst : i.rst = false)
    (hok : s.dmem.Ok (s.dmemReq i) i.dmem.rsp) :
    s.outstanding ++ (s.dmemReq i).toList =
      (((s.captured P i).toList.filter (·.onBus)).map (·.request)) ++
        (s.next P i).outstanding := by
  have hport := h.next (P := P) hda ht hp hrst hok
  -- a request is out only while the LSU is busy with it
  have hout {q : System} (hq : DataPort q) (hs : q.core.lsu.stateQ = .idle ∨
      q.core.lsu.stateQ = .resp ∨ Core.Draining q.core.lsu) : q.outstanding = [] := by
    rcases hs with hs | hs | hs
    · simp [outstanding, hq.not_sent (by simp [hs])]
    · simp [outstanding, hq.not_sent (by simp [hs])]
    · simp [outstanding, hs.2]
  have hreq (hf : s.core.lsu.requestFire (s.core.lsuIn i) = true) :
      s.dmemReq i = some s.core.exMemQ.request := by
    obtain ⟨r, hr⟩ := Option.isSome_iff_exists.mp (dmemReq_isSome.trans hf)
    rw [hr, (eq_of_dmemReq hda ht hp hrst hr).2]
  have hnone (hf : s.core.lsu.requestFire (s.core.lsuIn i) = false) : s.dmemReq i = none := by
    simp [dmemReq, hf]
  have hoff (hb : s.core.exMemQ.onBus = false) :
      (s.captured P i).toList.filter (·.onBus) = [] := by
    unfold captured
    split <;> simp [hb]
  -- MEM/WB captures nothing while EX/MEM is held
  have hheld (hw : (s.next P i).core.memWbQ = {}) : s.captured P i = none := by
    simp [captured, hw]
  -- what the packet in EX/MEM does in this cycle
  cases hda.access (P := P) ht hrst with
  | none fire valid mem state next =>
    rw [hout h (state.imp id .inr), hout hport (next.imp id fun hn => .inr hn.1), hnone fire,
      hoff (by simp [ExMem.onBus, mem])]
    rfl
  | drains fire valid mem trap wait state next held =>
    rw [hout h (.inr (.inr state)), hout hport (next.imp id fun hn => .inr hn.1), hnone fire,
      hheld held.2]
    rfl
  | offBus fire valid mem bus trap step =>
    rw [hnone fire, hoff (by simp [ExMem.onBus, bus])]
    rcases step with ⟨hs, -, hs', -⟩ | ⟨hs, -, hs'⟩
    · rw [hout h (.inl hs), hout hport (.inr (.inl hs'))]
      rfl
    · rw [hout h (.inr (.inl hs)), hout hport (.inl hs')]
      rfl
  | waits bus trap state wait rsp next held =>
    have hout' : (s.next P i).outstanding =
        if s.core.lsu.requestFire (s.core.lsuIn i) ||
          s.core.lsu.stateQ == .busy && s.core.lsu.requestSentQ then [s.core.exMemQ.request]
        else [] := by
      rw [outstanding, show (s.next P i).core.lsu.requestSentQ = _ from next.2.2.2,
        show (s.next P i).core.lsu.discardQ = false from next.2.1,
        show (s.next P i).core.exMemQ = s.core.exMemQ from held.1, Bool.not_false, Bool.and_true]
    rw [hheld held.2, hout']
    rcases state with hs | ⟨hs, hd⟩
    · rw [hout h (.inl hs)]
      cases hf : s.core.lsu.requestFire (s.core.lsuIn i) with
      | false => simp [hnone hf, hs]
      | true => simp [hreq hf]
    · cases hsent : s.core.lsu.requestSentQ with
      | true =>
        have hf := requestFire_of_sent (i := i) hs hsent
        simp [hnone hf, outstanding, hsent, hs, hd]
      | false =>
        cases hf : s.core.lsu.requestFire (s.core.lsuIn i) with
        | false => simp [hnone hf, outstanding, hsent]
        | true => simp [hreq hf, outstanding, hsent]
  | answered bus trap state wait sent valid next =>
    rw [hout hport (.inl next)]
    have hcap : s.captured P i = some s.core.exMemQ := by
      have hw := (Core.memWb_of_not_memWait P hrst trap wait).2
      have hv : (s.core.memWbD i).valid = true := by
        simp [ExMem.valid_of_isMemory (ExMem.isMemory_of_onBus bus), wait]
      exact if_pos (show (s.core.next P i).memWbQ.valid = true by rw [hw, hv])
    rw [hcap]
    -- the request is that of this cycle or an earlier one, out until now
    rcases state with hs | ⟨hs, hd⟩
    · have hf : s.core.lsu.requestFire (s.core.lsuIn i) = true := by simpa [hs] using sent
      simp [hout h (.inl hs), hreq hf, bus]
    · cases hsent : s.core.lsu.requestSentQ with
      | true =>
        have hf := requestFire_of_sent (i := i) hs hsent
        simp [hnone hf, outstanding, hsent, hd, bus]
      | false =>
        have hf : s.core.lsu.requestFire (s.core.lsuIn i) = true := by simpa [hsent] using sent
        simp [hreq hf, outstanding, hsent, bus]

/-- The response of this cycle on the data port. -/
def dmemRsp (i : CoreIn) : MemRsp := { rdata := i.dmem.rspRdata, err := i.dmem.rspErr }

/-- An answer to a load or store is the answer to its own request. -/
theorem DataPort.answered (h : DataPort s) (hda : s.core.DataAccess) (ht : s.core.TrapDrain)
    {F : IfId → Prop} (hp : s.core.Packets F) (hrst : i.rst = false)
    (hbus : s.core.exMemQ.onBus = true) (hwait : s.core.memWait i = false) :
    i.dmem.rspValid = true ∧
      (s.dmemAfter i).AnsweredAt s.dmem.answered.length s.core.exMemQ.request (dmemRsp i) := by
  have hm := ExMem.isMemory_of_onBus hbus
  have hr : s.core.lsu.rspValid (s.core.lsuIn i) = true := by
    simpa [Core.memWait, hm, Core.lsuRspValid] using hwait
  have hs : s.core.lsu.stateQ ≠ .resp := by
    intro hs
    simp [(hda.resp hs).2.1, ExMem.onBus] at hbus
  obtain ⟨hv, r, hreq, hans⟩ :=
    Lsu.Port.answeredAt (i := s.core.lsuIn i) h hrst dmemReq_isSome hs hr
  refine ⟨hv, ?_⟩
  rcases hreq with ⟨-, rfl⟩ | hreq
  · exact hans
  · rw [(eq_of_dmemReq hda ht hp hrst hreq).2] at hans
    exact hans

/-- What a cycle without reset does with the data port. -/
structure NonSpeculative (P : CoreParams) (s : System) (i : CoreIn) : Prop where
  /-- A handshake is that of the aligned load or store in EX/MEM, with its request. -/
  handshake : ∀ r, s.dmemReq i = some r →
    s.core.exMemQ.onBus = true ∧ r = s.core.exMemQ.request
  /-- Until the answer the instruction stays in EX/MEM and nothing enters MEM/WB. -/
  held : s.core.OwnsRequest i → i.dmem.rspValid = false →
    (s.next P i).core.exMemQ = s.core.exMemQ ∧ (s.next P i).core.memWbQ.valid = false ∧
      ∀ i', (s.next P i).core.OwnsRequest i'
  /-- The answer is the one to its request, and MEM/WB captures it with that answer: -/
  completes : s.core.OwnsRequest i → i.dmem.rspValid = true →
    (s.dmemAfter i).AnsweredAt s.dmem.answered.length s.core.exMemQ.request (dmemRsp i) ∧
      (s.next P i).core.memWbQ = s.core.exMemQ.completed (dmemRsp i)
  /-- it retires, or traps with its own access fault. -/
  outcome : s.core.OwnsRequest i → i.dmem.rspValid = true →
    (s.next P i).core.memWbQ.pc = s.core.exMemQ.pc ∧
      (i.dmem.rspErr = false → (s.next P i).core.memWbQ.retire = true) ∧
      (i.dmem.rspErr = true → (s.next P i).core.memWbQ.trap = true ∧
        (s.next P i).core.memWbQ.exc =
          { valid := true, tval := s.core.exMemQ.exResult
            cause := if s.core.exMemQ.memCmd = .load then excLoadAccessFault
              else excStoreAccessFault })
  kill : s.core.OwnsRequest i → (s.core.lsuIn i).kill = false

/-- A cycle without reset uses the data port for the instruction in EX/MEM only. -/
theorem DataPort.nonSpeculative (h : DataPort s) (hda : s.core.DataAccess)
    (ht : s.core.TrapDrain) {F : IfId → Prop} (hp : s.core.Packets F) (hrst : i.rst = false)
    (hok : s.dmem.Ok (s.dmemReq i) i.dmem.rsp) : NonSpeculative P s i := by
  have howns (hown : s.core.OwnsRequest i) :
      s.core.exMemQ.onBus = true ∧ s.core.memWbQ.trap = false := by
    rcases hown with hv | ⟨hs, hd⟩
    · exact ⟨(hda.request ht hp hrst hv).1, (hda.request ht hp hrst hv).2.1⟩
    · obtain ⟨hbus, -, hwb⟩ := hda.busy hs hd
      exact ⟨hbus, by simp [MemWb.trap, hwb]⟩
  -- without an answer the access waits, and an answer completes it
  have hstep (hown : s.core.OwnsRequest i) :
      i.dmem.rspValid = false ∧ (s.next P i).core.exMemQ = s.core.exMemQ ∧
          (s.next P i).core.memWbQ = {} ∧ (s.next P i).core.lsu.stateQ = .busy ∧
          (s.next P i).core.lsu.discardQ = false ∨
        i.dmem.rspValid = true ∧ s.core.memWait i = false := by
    cases hda.access (P := P) ht hrst with
    | none fire valid mem state next => simpa [ExMem.onBus, mem] using (howns hown).1
    | drains fire valid mem trap wait state next held =>
      rcases hown with hv | ⟨-, hd⟩
      · simp [valid] at hv
      · simp [state.2] at hd
    | offBus fire valid mem bus trap step => simpa [ExMem.onBus, bus] using (howns hown).1
    | waits bus trap state wait rsp next held =>
      refine .inl ⟨?_, held.1, held.2, next.1, next.2.1⟩
      by_cases hs : s.core.lsu.requestSentQ = true
      · exact rsp (.inl ⟨(h.sent hs).1, hs⟩)
      · cases hf : s.core.lsu.requestFire (s.core.lsuIn i) with
        | true => exact rsp (.inr hf)
        | false =>
          -- nothing is unanswered
          have hnone : s.dmemReq i = none := by simp [dmemReq, hf]
          rw [hnone] at hok
          by_contra hne
          rw [MemIn.rsp_of_valid (by simpa using hne)] at hok
          exact (h.quiet (by simpa using hs)).not_ok _ hok
    | answered bus trap state wait sent valid next => exact .inr ⟨valid, wait⟩
  have hdone (hown : s.core.OwnsRequest i) (hv : i.dmem.rspValid = true) :
      s.core.memWait i = false ∧
        (s.next P i).core.memWbQ = s.core.exMemQ.completed (dmemRsp i) := by
    obtain ⟨hbus, htrap⟩ := howns hown
    rcases hstep hown with ⟨hne, -⟩ | ⟨-, hw⟩
    · simp [hv] at hne
    · have hmem := (Core.memWb_of_not_memWait P hrst htrap hw).2
      exact ⟨hw, hmem.trans (hda.memWbD_completed hrst (ExMem.isMemory_of_onBus hbus) hw)⟩
  refine ⟨fun r hr => eq_of_dmemReq hda ht hp hrst hr, fun hown hv => ?_, fun hown hv => ?_,
    fun hown hv => ?_, fun hown => (howns hown).2⟩
  · rcases hstep hown with ⟨-, hx, hw, hs, hd⟩ | ⟨hne, -⟩
    · exact ⟨hx, by rw [hw], fun _ => .inr ⟨hs, hd⟩⟩
    · simp [hv] at hne
  · obtain ⟨hw, hmem⟩ := hdone hown hv
    exact ⟨(h.answered hda ht hp hrst (howns hown).1 hw).2, hmem⟩
  · obtain ⟨-, hmem⟩ := hdone hown hv
    rw [hmem, ExMem.completed, if_pos (ExMem.op_onBus_of_onBus (howns hown).1)]
    refine ⟨rfl, fun he => ?_, fun he => ?_⟩
    · simp [MemWb.retire, ExMem.accessPacket, LsuOp.exception, Lsu.makeAccessException, dmemRsp, he]
    · simp [MemWb.trap, ExMem.accessPacket, LsuOp.exception, Lsu.makeAccessException, dmemRsp, he,
        ExMem.op]

/-! ### Runs -/

/-- No request of the run is out after a reset edge. -/
theorem Started.outstanding (h : Started P s) : s.outstanding = [] := by
  obtain ⟨c₀, i, hrst, hc⟩ := h.core
  have hlsu : s.core.lsu = c₀.lsu.reset (c₀.lsuIn i) := by
    rw [hc]
    exact if_pos hrst
  rw [System.outstanding, hlsu, Lsu.reset]
  split <;> simp

/-- What holds of the data port at the end of a run without reset. -/
structure DataLog (P : CoreParams) (s₀ : System) (es : List ExMem) (s : System) : Prop where
  reachable : Reachable P s
  port : DataPort s
  /-- The requests accepted are those of the aligned accesses captured by MEM/WB, and of the
  one in EX/MEM. -/
  log : s.dmem.accepted =
    s₀.dmem.accepted ++ (es.filter (·.onBus)).map (·.request) ++ s.outstanding

/-- Nothing has been recorded yet. -/
theorem Started.dataLog (h : Started P s₀) : DataLog P s₀ [] s₀ :=
  ⟨.start h, h.dataPort, by simp [h.outstanding]⟩

/-- A cycle without reset extends the log. -/
theorem DataLog.next {es : List ExMem} (h : DataLog P s₀ es s) (hrst : i.rst = false)
    (hl : (circuit P).legal s i) :
    DataLog P s₀ (es ++ (s.captured P i).toList) (s.next P i) := by
  have hc := h.reachable.core
  refine ⟨h.reachable.step hl, h.port.next hc.dataAccess hc.trapDrain hc.packets hrst hl.2, ?_⟩
  have hlog := h.port.log (P := P) hc.dataAccess hc.trapDrain hc.packets hrst hl.2
  calc (s.next P i).dmem.accepted
      = s.dmem.accepted ++ (s.dmemReq i).toList := rfl
    _ = s₀.dmem.accepted ++ (es.filter (·.onBus)).map (·.request) ++
          (s.outstanding ++ (s.dmemReq i).toList) := by rw [h.log, List.append_assoc]
    _ = _ := by rw [hlog]; simp [List.append_assoc]

/-- The data port along a run: handshakes are in program order, one for each aligned load or
store that completes, and every cycle is non-speculative. -/
structure ExactlyOnce (P : CoreParams) (s₀ : System) (is : List CoreIn) (s : System) : Prop where
  /-- The handshakes are the requests of the aligned loads and stores captured by MEM/WB, in
  order, and of the one in EX/MEM whose answer is awaited; a misaligned access has none. -/
  handshakes : s.dmem.accepted = s₀.dmem.accepted ++
    (((circuit P).trace (captured P) s₀ is).filter (·.onBus)).map (·.request) ++ s.outstanding
  /-- The packets captured are those that commit. -/
  commits : ((circuit P).trace (captured P) s₀ is).map (fun x => (x.pc, x.insn)) =
    ((circuit P).trace event s₀ is ++ s.core.event.toList).map fun e => (e.pc, e.insn)
  cycle : ∀ i, i.rst = false → (circuit P).legal s i → NonSpeculative P s i

/-- The packet captured is the next event. -/
theorem captured_event : (s.captured P i).map (fun x => (x.pc, x.insn)) =
    (s.next P i).core.event.map fun e => (e.pc, e.insn) := by
  unfold captured Core.event
  split
  next hv =>
    have hw : (s.next P i).core.memWbQ = s.core.memWbD i := by
      rcases Core.next_memWbQ P s.core i with hw | hw
      · rw [show (s.next P i).core.memWbQ = {} from hw] at hv
        simp at hv
      · exact hw
    rw [hw] at hv ⊢
    obtain ⟨hpc, hinsn⟩ := Core.memWbD_pc hv
    simp [MemWb.event, hpc, hinsn]
  next => rfl

/-- In every run from a reset without further reset, data accesses are non-speculative and made
exactly once. A request that the reset found outstanding is drained and owned by no instruction. -/
theorem exactly_once (hs : Started P s₀) (hr : (circuit P).Run s₀ is s)
    (hrst : ∀ i ∈ is, i.rst = false) : ExactlyOnce P s₀ is s := by
  have hlog : DataLog P s₀ ((circuit P).trace (captured P) s₀ is) s ∧
      ((circuit P).trace (captured P) s₀ is).map (fun x => (x.pc, x.insn)) =
        ((circuit P).trace event s₀ is ++ s.core.event.toList).map fun e => (e.pc, e.insn) := by
    induction hr with
    | nil =>
      obtain ⟨-, -, -, hw⟩ := hs.slots
      exact ⟨hs.dataLog, by simp [Core.event, hw]⟩
    | @snoc is s i hr hl ih =>
      obtain ⟨hlog, hcommit⟩ := ih fun j hj => hrst j (by simp [hj])
      rw [hr.trace_snoc, hr.trace_snoc]
      refine ⟨hlog.next (hrst i (by simp)) hl, ?_⟩
      have hlast : (s.captured P i).toList.map (fun x => (x.pc, x.insn)) =
          (s.next P i).core.event.toList.map fun e => (e.pc, e.insn) := by
        rw [← Option.toList_map, captured_event, Option.toList_map]
      rw [List.map_append, hcommit, hlast]
      simp [circuit, event]
  obtain ⟨⟨hreach, hport, haccepted⟩, hcommit⟩ := hlog
  have hc := hreach.core
  exact ⟨haccepted, hcommit, fun i hi hl =>
    hport.nonSpeculative hc.dataAccess hc.trapDrain hc.packets hi hl.2⟩

/-- `sw x0, 8(x0)` waits for the port to accept its request and for the answer. -/
theorem exactly_once_store :
    let s := boot {} fun _ => 0#32
    let is : List CoreIn := [Core.fetches 0x00002423#32, {}, {}, {},
      { dmem := { reqReady := true } }, {}, { dmem := { rspValid := true } }]
    ExactlyOnce {} s is ((circuit {}).exec s is) ∧
      ((circuit {}).exec s is).dmem.accepted =
        [{ addr := 8#32, write := true, wstrb := 0b1111#4 }] :=
  ⟨exactly_once (started_boot {} _) (.of_always (by decide +kernel)) (by decide),
    by decide +kernel⟩

end System

end Rv32im

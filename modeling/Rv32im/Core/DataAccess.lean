import Rv32im.Core.Packets
import Rv32im.Ports.Lsu

/-!
# Data accesses

The load/store unit works for the packet in EX/MEM and for nothing else: an operation it holds
is that packet's, no older packet is left in MEM/WB that could trap, and the operation ends in the
cycle in which MEM/WB takes its result. The exception is the drain of a request from before a
reset.

* `ExMem.request`, `ExMem.completed`: the request of a memory operation and the MEM/WB packet that
  its answer makes of it;
* `Core.DataAccess`: the invariant;
* `Core.Access`: what the unit and the memory stage do in one cycle.
-/

namespace Rv32im

open Clocked

namespace ExMem

variable (x : ExMem)

/-- The operation the packet offers to the unit. -/
def op : LsuOp where
  cmd := x.memCmd
  size := x.memSize
  loadUnsigned := x.loadUnsigned
  addr := x.exResult
  wstrb :=
    if x.memCmd == .store && !Lsu.addressMisaligned x.memSize x.exResult then
      Lsu.inputStoreWstrb x.memSize x.exResult
    else 0#4
  wdata :=
    if x.memCmd == .store && !Lsu.addressMisaligned x.memSize x.exResult then
      Lsu.inputStoreWdata x.memSize x.exResult x.storeData
    else 0#32

/-- An aligned memory operation, which goes to the data port. -/
def onBus : Bool := x.isMemory && x.op.onBus

/-- The request of an aligned memory operation. -/
def request : MemReq := x.op.req

/-- The MEM/WB packet of a memory operation whose access is answered by `rsp`; a misaligned one
needs no answer. -/
def completed (rsp : MemRsp) : MemWb :=
  if x.op.onBus then
    x.accessPacket (x.op.loadData rsp) (x.op.exception rsp) x.op.wstrb x.op.wdata
  else x.accessPacket 0#32 x.op.localException x.op.wstrb x.op.wdata

variable {x}

theorem isMemory_of_onBus (h : x.onBus = true) : x.isMemory = true :=
  (Bool.and_eq_true_iff.mp h).1

theorem op_onBus_of_onBus (h : x.onBus = true) : x.op.onBus = true :=
  (Bool.and_eq_true_iff.mp h).2

end ExMem

namespace Core

variable {P : CoreParams} {F : IfId → Prop} {c : Core} {i : CoreIn}

@[simp] theorem lsuIn_op : (c.lsuIn i).op = c.exMemQ.op := rfl

@[simp] theorem lsuIn_kill : (c.lsuIn i).kill = c.memWbQ.trap := rfl

@[simp] theorem lsuIn_rst : (c.lsuIn i).rst = i.rst := rfl

@[simp] theorem lsuIn_dmem : (c.lsuIn i).dmem = i.dmem := rfl

/-- The unit only drains the request that a reset found outstanding. -/
def Draining (q : Lsu) : Prop := q.stateQ = .busy ∧ q.discardQ = true

/-- The unit presents the request of an operation or waits for its answer. A request being drained
from before the reset belongs to no operation and does not count. -/
def OwnsRequest (c : Core) (i : CoreIn) : Prop :=
  c.lsu.reqValid (c.lsuIn i) = true ∨ c.lsu.stateQ = .busy ∧ c.lsu.discardQ = false

/-- The operation held by the load/store unit is the one in EX/MEM, with nothing older left. -/
structure DataAccess (c : Core) : Prop where
  drain : c.lsu.stateQ = .busy → c.lsu.discardQ = true → c.lsu.requestSentQ = true
  busy : c.lsu.stateQ = .busy → c.lsu.discardQ = false →
    c.exMemQ.onBus = true ∧ c.lsu.op = c.exMemQ.op ∧ c.memWbQ.valid = false
  resp : c.lsu.stateQ = .resp → c.exMemQ.isMemory = true ∧ c.exMemQ.op.onBus = false ∧
    c.lsu.op = c.exMemQ.op ∧ c.lsu.loadDataQ = 0#32 ∧
    c.lsu.exceptionQ = c.exMemQ.op.localException ∧ c.memWbQ.valid = false

/-- What the unit and the memory stage do in a cycle without reset. -/
inductive Access (P : CoreParams) (c : Core) (i : CoreIn) : Prop
  /-- There is no memory operation, or it is behind a trap. -/
  | none (fire : c.lsu.requestFire (c.lsuIn i) = false)
      (valid : c.lsu.reqValid (c.lsuIn i) = false) (mem : c.exMemQ.isMemory = false)
      (state : c.lsu.stateQ = .idle ∨ Draining c.lsu)
      (next : (c.next P i).lsu.stateQ = .idle ∨
        Draining (c.next P i).lsu ∧ (c.next P i).lsu.requestSentQ = true)
  /-- The unit drains, and a memory operation has to wait. -/
  | drains (fire : c.lsu.requestFire (c.lsuIn i) = false)
      (valid : c.lsu.reqValid (c.lsuIn i) = false) (mem : c.exMemQ.isMemory = true)
      (trap : c.memWbQ.trap = false) (wait : c.memWait i = true) (state : Draining c.lsu)
      (next : (c.next P i).lsu.stateQ = .idle ∨
        Draining (c.next P i).lsu ∧ (c.next P i).lsu.requestSentQ = true)
      (held : (c.next P i).exMemQ = c.exMemQ ∧ (c.next P i).memWbQ = {})
  /-- A misaligned operation is accepted or completes, without request. -/
  | offBus (fire : c.lsu.requestFire (c.lsuIn i) = false)
      (valid : c.lsu.reqValid (c.lsuIn i) = false) (mem : c.exMemQ.isMemory = true)
      (bus : c.exMemQ.op.onBus = false) (trap : c.memWbQ.trap = false)
      (step : c.lsu.stateQ = .idle ∧ c.memWait i = true ∧ (c.next P i).lsu.stateQ = .resp ∧
          (c.next P i).lsu.op = c.exMemQ.op ∧ (c.next P i).lsu.loadDataQ = 0#32 ∧
          (c.next P i).lsu.exceptionQ = c.exMemQ.op.localException ∧
          (c.next P i).exMemQ = c.exMemQ ∧ (c.next P i).memWbQ = {} ∨
        c.lsu.stateQ = .resp ∧ c.memWait i = false ∧ (c.next P i).lsu.stateQ = .idle)
  /-- The request of an aligned operation is presented or awaits its answer. -/
  | waits (bus : c.exMemQ.onBus = true) (trap : c.memWbQ.trap = false)
      (state : c.lsu.stateQ = .idle ∨ c.lsu.stateQ = .busy ∧ c.lsu.discardQ = false)
      (wait : c.memWait i = true)
      (rsp : (c.lsu.stateQ = .busy ∧ c.lsu.requestSentQ = true ∨
        c.lsu.requestFire (c.lsuIn i) = true) → i.dmem.rspValid = false)
      (next : (c.next P i).lsu.stateQ = .busy ∧ (c.next P i).lsu.discardQ = false ∧
        (c.next P i).lsu.op = c.exMemQ.op ∧
        (c.next P i).lsu.requestSentQ = (c.lsu.requestFire (c.lsuIn i) ||
          c.lsu.stateQ == .busy && c.lsu.requestSentQ))
      (held : (c.next P i).exMemQ = c.exMemQ ∧ (c.next P i).memWbQ = {})
  /-- Its answer arrives and completes it. -/
  | answered (bus : c.exMemQ.onBus = true) (trap : c.memWbQ.trap = false)
      (state : c.lsu.stateQ = .idle ∨ c.lsu.stateQ = .busy ∧ c.lsu.discardQ = false)
      (wait : c.memWait i = false)
      (sent : c.lsu.stateQ = .busy ∧ c.lsu.requestSentQ = true ∨
        c.lsu.requestFire (c.lsuIn i) = true)
      (valid : i.dmem.rspValid = true) (next : (c.next P i).lsu.stateQ = .idle)

/-- An access that waits holds its packet and lets nothing into MEM/WB. -/
theorem held_of_memWait (P : CoreParams) (hrst : i.rst = false) (htrap : c.memWbQ.trap = false)
    (hw : c.memWait i = true) :
    Edge P c i c.ifIdQ c.idExHeld c.exMemQ {} c.trapDrainQ .hold false := by
  cases next_cases P c i with
  | reset rst edge => simp [hrst] at rst
  | wbTrap rst trap edge => simp [htrap] at trap
  | memException rst trap exc edge =>
    -- an exception of MEM comes with the response, so nothing waits
    have := (memException_iff.mp exc).2.1
    simp [memWait, this] at hw
  | memWait rst trap wait edge => exact edge
  | exException ready exc edge => simp [ready.memWait] at hw
  | exWait ready wait edge => simp [ready.memWait] at hw
  | trapDrain fires drain edge => simp [fires.memWait] at hw
  | exRedirect fires drain redirect edge => simp [fires.memWait] at hw
  | stall fires drain redirect stall edge => simp [fires.memWait] at hw
  | idTrap fires drain redirect irqWait exc edge => simp [fires.memWait] at hw
  | advance fires drain redirect irqWait exc loadUse csrDep edge => simp [fires.memWait] at hw

/-- Otherwise MEM/WB takes what MEM offers. -/
theorem memWb_of_not_memWait (P : CoreParams) (hrst : i.rst = false)
    (htrap : c.memWbQ.trap = false) (hw : c.memWait i = false) :
    c.lsuRspReady i = true ∧ (c.next P i).memWbQ = c.memWbD i := by
  cases next_cases P c i with
  | reset rst edge => simp [hrst] at rst
  | wbTrap rst trap edge => simp [htrap] at trap
  | memException rst trap exc edge => exact ⟨edge.rspReady, edge.memWb⟩
  | memWait rst trap wait edge => simp [wait] at hw
  | exException ready exc edge => exact ⟨edge.rspReady, edge.memWb⟩
  | exWait ready wait edge => exact ⟨edge.rspReady, edge.memWb⟩
  | trapDrain fires drain edge => exact ⟨edge.rspReady, edge.memWb⟩
  | exRedirect fires drain redirect edge => exact ⟨edge.rspReady, edge.memWb⟩
  | stall fires drain redirect stall edge => exact ⟨edge.rspReady, edge.memWb⟩
  | idTrap fires drain redirect irqWait exc edge => exact ⟨edge.rspReady, edge.memWb⟩
  | advance fires drain redirect irqWait exc loadUse csrDep edge =>
    exact ⟨edge.rspReady, edge.memWb⟩

/-- There is no memory operation behind a trap. -/
theorem TrapDrain.trap_of_isMemory (h : TrapDrain c) (hm : c.exMemQ.isMemory = true) :
    c.memWbQ.trap = false := by
  by_contra hne
  have := (h.memWb (by simpa using hne)).2.2.1
  simp [ExMem.valid_of_isMemory hm] at this

/-- Without a new operation the unit presents a request only if it holds one. -/
theorem reqValid_eq : c.lsu.reqValid (c.lsuIn i) =
    (c.lsu.accepts (c.lsuIn i) && c.exMemQ.op.onBus || c.lsu.issueSaved) := by
  simp only [Lsu.reqValid, Lsu.issueInput, Lsu.accepts, ← lsuIn_op (i := i), Lsu.op_onBus,
    Bool.and_assoc]

/-- An idle unit accepts the memory operation in EX/MEM. -/
theorem accepts_eq (hrst : i.rst = false) : c.lsu.accepts (c.lsuIn i) =
    (c.exMemQ.isMemory && !c.memWbQ.trap && c.lsu.stateQ == .idle) := by
  simp only [Lsu.accepts, Lsu.reqReady, lsuIn_kill, lsuIn_rst, hrst]
  simp only [lsuIn]
  cases c.memWbQ.trap <;> simp

/-- What the unit accepts is a memory operation with no trap ahead of it. -/
private theorem isMemory_of_accepts (ht : TrapDrain c) (hrst : i.rst = false)
    (ha : c.lsu.accepts (c.lsuIn i) = true) :
    c.exMemQ.isMemory = true ∧ c.memWbQ.trap = false := by
  rw [accepts_eq hrst, Bool.and_eq_true, Bool.and_eq_true] at ha
  exact ⟨ha.1.1, ht.trap_of_isMemory ha.1.1⟩

/-- The cases of a cycle without reset. -/
theorem DataAccess.access (h : DataAccess c) (ht : TrapDrain c) (hrst : i.rst = false) :
    Access P c i := by
  have hnext : (c.next P i).lsu = c.lsu.next (c.lsuIn i) (c.lsuRspReady i) := rfl
  have hacc := accepts_eq (c := c) hrst
  have hrv := reqValid_eq (c := c) (i := i)
  have hwait : c.memWait i = (c.exMemQ.isMemory && !c.lsu.rspValid (c.lsuIn i)) := rfl
  have hheld (htrap : c.memWbQ.trap = false) (hw : c.memWait i = true) :
      (c.next P i).exMemQ = c.exMemQ ∧ (c.next P i).memWbQ = {} :=
    have edge := held_of_memWait P hrst htrap hw
    ⟨edge.exMem, edge.memWb⟩
  have hready (htrap : c.memWbQ.trap = false) (hw : c.memWait i = false) :
      c.lsuRspReady i = true := (memWb_of_not_memWait P hrst htrap hw).1
  cases Lsu.next_cases (q := c.lsu) (i := c.lsuIn i) (b := c.lsuRspReady i) hrst with
  | ignored state accepts fire rsp next =>
    -- an idle unit accepts whatever memory operation EX/MEM has
    have hmem : c.exMemQ.isMemory = false := by
      by_contra hne
      have hm : c.exMemQ.isMemory = true := by simpa using hne
      simp [hacc, hm, ht.trap_of_isMemory hm, state] at accepts
    refine .none fire ?_ hmem (.inl state) (.inl ?_)
    · simp [hrv, accepts, Lsu.issueSaved, state]
    · rw [hnext, next]
      exact state
  | offBus state accepts bus fire rsp next =>
    obtain ⟨hm, htrap⟩ := isMemory_of_accepts ht hrst accepts
    have hw : c.memWait i = true := by rw [hwait, hm, rsp]; rfl
    rw [lsuIn_op] at bus next
    refine .offBus fire ?_ hm bus htrap (.inl ⟨state, hw, ?_⟩)
    · simp [hrv, bus, Lsu.issueSaved, state]
    · rw [hnext]
      exact ⟨next.1, next.2.2.1, next.2.2.2.1, next.2.2.2.2, hheld htrap hw⟩
  | issued state accepts bus rsp fire open' next =>
    obtain ⟨hm, htrap⟩ := isMemory_of_accepts ht hrst accepts
    have hw : c.memWait i = true := by rw [hwait, hm, rsp]; rfl
    rw [lsuIn_op] at bus next
    refine .waits (by rw [ExMem.onBus, hm, bus]; rfl) htrap (.inl state) hw ?_ ?_ (hheld htrap hw)
    · rintro (⟨hb, -⟩ | hf)
      · simp [state] at hb
      · exact open' hf
    · rw [hnext]
      exact ⟨next.1, next.2.2.1, next.2.2.2, by simp [next.2.1, state]⟩
  | answered state accepts bus fire valid rsp data exc next =>
    obtain ⟨hm, htrap⟩ := isMemory_of_accepts ht hrst accepts
    have hw : c.memWait i = false := by rw [hwait, hm, rsp]; rfl
    rw [lsuIn_op] at bus
    refine .answered (by rw [ExMem.onBus, hm, bus]; rfl) htrap (.inl state) hw (.inr fire) valid ?_
    rw [hnext]
    rcases next.2.2 with ⟨-, hidle⟩ | ⟨hrdy, -⟩
    · exact hidle
    · -- an operation that does not wait is taken in the same cycle
      simp [hready htrap hw] at hrdy
  | waits state seen rsp fire next =>
    cases hd : c.lsu.discardQ with
    | true =>
      -- a request left over from before the reset; the pipeline waits behind it
      have hsent := h.drain state hd
      have hfire : c.lsu.requestFire (c.lsuIn i) = false := by simp [fire, hsent]
      have hrv' : c.lsu.reqValid (c.lsuIn i) = false := by
        simp [hrv, hacc, Lsu.issueSaved, state, hsent]
      have hdrain : Draining (c.next P i).lsu ∧ (c.next P i).lsu.requestSentQ = true := by
        rw [hnext, next]
        simp [Draining, state, hd, hsent]
      cases hm : c.exMemQ.isMemory with
      | false => exact .none hfire hrv' hm (.inr ⟨state, hd⟩) (.inr hdrain)
      | true =>
        have htrap := ht.trap_of_isMemory hm
        have hw : c.memWait i = true := by rw [hwait, hm, rsp]; rfl
        exact .drains hfire hrv' hm htrap hw ⟨state, hd⟩ (.inr hdrain) (hheld htrap hw)
    | false =>
      -- the request of EX/MEM itself; MEM/WB is empty, so nothing can kill it
      obtain ⟨hbus, hop, hwb⟩ := h.busy state hd
      have htrap : c.memWbQ.trap = false := by simp [MemWb.trap, hwb]
      have hw : c.memWait i = true := by
        rw [hwait, ExMem.isMemory_of_onBus hbus, rsp]
        rfl
      refine .waits hbus htrap (.inr ⟨state, hd⟩) hw ?_ ?_ (hheld htrap hw)
      · intro hs
        simp only [Lsu.responseSeen, state, lsuIn_dmem, beq_self_eq_true, Bool.true_and] at seen
        rcases hs with ⟨-, hs⟩ | hs
        · simpa [hs] using seen
        · simpa [hs] using seen
      · rw [hnext, next]
        exact ⟨state, by simp [hd, htrap], hop, by simp [state]⟩
  | finishes state seen valid sent fire rsp data next =>
    cases hd : c.lsu.discardQ with
    | true =>
      have hsent := h.drain state hd
      have hfire : c.lsu.requestFire (c.lsuIn i) = false := by simp [fire, hsent]
      have hrv' : c.lsu.reqValid (c.lsuIn i) = false := by
        simp [hrv, hacc, Lsu.issueSaved, state, hsent]
      -- the late answer is dropped
      have hrsp : c.lsu.rspValid (c.lsuIn i) = false := by simp [rsp, hd]
      have hidle : (c.next P i).lsu.stateQ = .idle := by
        rw [hnext]
        rcases next.2.2 with hidle | ⟨hr, -⟩
        · exact hidle
        · simp [hrsp] at hr
      cases hm : c.exMemQ.isMemory with
      | false => exact .none hfire hrv' hm (.inr ⟨state, hd⟩) (.inl hidle)
      | true =>
        have htrap := ht.trap_of_isMemory hm
        have hw : c.memWait i = true := by rw [hwait, hm, hrsp]; rfl
        exact .drains hfire hrv' hm htrap hw ⟨state, hd⟩ (.inl hidle) (hheld htrap hw)
    | false =>
      obtain ⟨hbus, hop, hwb⟩ := h.busy state hd
      have htrap : c.memWbQ.trap = false := by simp [MemWb.trap, hwb]
      have hw : c.memWait i = false := by
        rw [hwait, rsp, lsuIn_kill, htrap, hd]
        simp
      refine .answered hbus htrap (.inr ⟨state, hd⟩) hw (sent.imp (⟨state, ·⟩) id) valid ?_
      rw [hnext]
      rcases next.2.2 with hidle | ⟨-, hrdy, -⟩
      · exact hidle
      · simp [hready htrap hw] at hrdy
  | offers state fire rsp data next =>
    obtain ⟨hm, hbus, hop, -, -, hwb⟩ := h.resp state
    have htrap : c.memWbQ.trap = false := by simp [MemWb.trap, hwb]
    have hw : c.memWait i = false := by
      rw [hwait, rsp, lsuIn_kill, htrap]
      simp
    refine .offBus fire ?_ hm hbus htrap (.inr ⟨state, hw, ?_⟩)
    · simp [hrv, hbus, Lsu.issueSaved, state]
    · rw [hnext, next]
      simp [hready htrap hw]

/-- A reset leaves the unit idle or draining. -/
theorem DataAccess.of_reset (hrst : i.rst = true) : DataAccess (Core.next P c i) := by
  have hlsu : (Core.next P c i).lsu = c.lsu.reset (c.lsuIn i) := if_pos hrst
  constructor <;> rw [hlsu, Lsu.reset] <;> split <;> simp

/-- Every cycle keeps the invariant. -/
theorem DataAccess.next (h : DataAccess c) (ht : TrapDrain c) : DataAccess (Core.next P c i) := by
  cases hrst : i.rst with
  | true => exact .of_reset hrst
  | false =>
    have of_idle (hs : (Core.next P c i).lsu.stateQ = .idle) : DataAccess (Core.next P c i) := by
      constructor <;> simp [hs]
    have of_drain (hs : (Core.next P c i).lsu.stateQ = .idle ∨ Draining (Core.next P c i).lsu ∧
        (Core.next P c i).lsu.requestSentQ = true) : DataAccess (Core.next P c i) := by
      rcases hs with hs | ⟨⟨hs, hd⟩, hsent⟩
      · exact of_idle hs
      · constructor <;> simp [hs, hd, hsent]
    cases h.access (P := P) ht hrst with
    | none fire valid mem state next => exact of_drain next
    | drains fire valid mem trap wait state next held => exact of_drain next
    | offBus fire valid mem bus trap step =>
      rcases step with ⟨-, -, hs, hop, hdata, hexc, hx, hw⟩ | ⟨-, -, hs⟩
      · constructor <;> simp [hs, hop, hdata, hexc, hx, hw, mem, bus]
      · exact of_idle hs
    | waits bus trap state wait rsp next held =>
      obtain ⟨hs, hd, hop, -⟩ := next
      constructor <;> simp [hs, hd, hop, held, bus]
    | answered bus trap state wait sent valid next => exact of_idle next

/-- The invariant holds in every reachable state. -/
theorem Reachable.dataAccess (h : Reachable P c) : DataAccess c :=
  h.holds (fun _ _ hrst => .of_reset hrst) fun _ _ hc h => h.next hc.trapDrain

/-! ### Requests and completions -/

/-- A request presented is that of the aligned operation in EX/MEM, and no older packet can
trap any more. -/
theorem DataAccess.request (h : DataAccess c) (ht : TrapDrain c) (hp : Packets F c)
    (hrst : i.rst = false) (hv : c.lsu.reqValid (c.lsuIn i) = true) :
    c.exMemQ.onBus = true ∧ c.memWbQ.trap = false ∧
      c.lsu.req (c.lsuIn i) = c.exMemQ.request := by
  -- ID gives a load no second operand, so its request carries no data
  have hload : c.exMemQ.isMemory = true → c.exMemQ.memCmd = .load → c.exMemQ.storeData = 0#32 :=
    fun hm hl => ((hp.exMem (ExMem.valid_of_isMemory hm)).load hl).2.2
  have hreq (hbus : c.exMemQ.onBus = true) (htrap : c.memWbQ.trap = false)
      (hs : c.lsu.stateQ = .idle ∨ c.lsu.stateQ = .busy ∧ c.lsu.discardQ = false) :
      c.lsu.req (c.lsuIn i) = c.exMemQ.request := by
    rcases hs with hs | ⟨hs, hd⟩
    · -- presented for the first time, from the inputs, or held in the registers
      refine Lsu.req_of_issueInput ?_ (hload (ExMem.isMemory_of_onBus hbus))
      have hacc := accepts_eq (c := c) hrst
      rw [ExMem.isMemory_of_onBus hbus, htrap, hs] at hacc
      have hon : (c.lsuIn i).op.onBus = true := ExMem.op_onBus_of_onBus hbus
      rw [Lsu.op_onBus] at hon
      rw [Lsu.issueInput, Bool.and_assoc, hon]
      simpa [Lsu.accepts] using hacc
    · obtain ⟨-, hop, -⟩ := h.busy hs hd
      have hin : c.lsu.issueInput (c.lsuIn i) = false := by
        simp [Lsu.issueInput, Lsu.reqReady, hs]
      rw [Lsu.req_of_not_issueInput hin, hop]
      rfl
  cases h.access (P := {}) ht hrst with
  | none fire valid mem state next => simp [valid] at hv
  | drains fire valid mem trap wait state next held => simp [valid] at hv
  | offBus fire valid mem bus trap step => simp [valid] at hv
  | waits bus trap state wait rsp next held => exact ⟨bus, trap, hreq bus trap state⟩
  | answered bus trap state wait sent valid next => exact ⟨bus, trap, hreq bus trap state⟩

/-- A memory operation leaves MEM with the answer to its access. -/
theorem DataAccess.memWbD_completed (h : DataAccess c) (hrst : i.rst = false)
    (hm : c.exMemQ.isMemory = true) (hw : c.memWait i = false) :
    c.memWbD i = c.exMemQ.completed { rdata := i.dmem.rspRdata, err := i.dmem.rspErr } := by
  have hr : c.lsu.rspValid (c.lsuIn i) = true := by
    simpa [memWait, hm, lsuRspValid] using hw
  have hpacket : c.memWbD i = c.exMemQ.accessPacket (c.lsu.loadData (c.lsuIn i))
      (c.lsu.exception (c.lsuIn i)) (c.lsu.traceWstrb (c.lsuIn i))
      (c.lsu.traceWdata (c.lsuIn i)) := by
    simp [memWbD, ExMem.valid_of_isMemory hm, hm, lsuRspValid, hr]
  -- the strobes and data shown are those of the operation saved
  have hsaved (hs : c.lsu.stateQ ≠ .idle) (hop : c.lsu.op = c.exMemQ.op) :
      c.lsu.traceWstrb (c.lsuIn i) = c.exMemQ.op.wstrb ∧
        c.lsu.traceWdata (c.lsuIn i) = c.exMemQ.op.wdata := by
    have hcmd : c.lsu.cmdQ = c.exMemQ.memCmd := congrArg LsuOp.cmd hop
    have hstrb : c.lsu.storeWstrbQ = c.exMemQ.op.wstrb := congrArg LsuOp.wstrb hop
    have hdata : c.lsu.storeWdataQ = c.exMemQ.op.wdata := congrArg LsuOp.wdata hop
    rw [Lsu.traceWstrb, Lsu.traceWdata, if_neg hs, if_neg hs, hcmd, hstrb, hdata]
    by_cases hst : c.exMemQ.memCmd = .store
    · simp [hst]
    · simp [hst, ExMem.op]
  rw [hpacket]
  cases Lsu.next_cases (q := c.lsu) (i := c.lsuIn i) (b := true) hrst with
  | ignored state accepts fire rsp next => simp [rsp] at hr
  | offBus state accepts bus fire rsp next => simp [rsp] at hr
  | issued state accepts bus rsp fire open' next => simp [rsp] at hr
  | answered state accepts bus fire valid rsp data exc next =>
    -- answered in the cycle of the request: nothing has been saved yet
    have hin : c.lsu.issueInput (c.lsuIn i) = true ∧ Lsu.inputMisaligned (c.lsuIn i) = false := by
      rw [Lsu.op_onBus, Bool.and_eq_true, Bool.not_eq_true'] at bus
      simp only [Lsu.accepts] at accepts
      simp [Lsu.issueInput, accepts, bus]
    have hmis : Lsu.addressMisaligned c.exMemQ.memSize c.exMemQ.exResult = false := hin.2
    have hlanes : c.lsu.traceWstrb (c.lsuIn i) = c.exMemQ.op.wstrb ∧
        c.lsu.traceWdata (c.lsuIn i) = c.exMemQ.op.wdata := by
      simp only [Lsu.traceWstrb, Lsu.traceWdata, state, hin.1, ExMem.op, hmis, if_true,
        Bool.true_and, Bool.not_false, Bool.and_true]
      exact ⟨rfl, rfl⟩
    rw [lsuIn_op] at bus data exc
    rw [ExMem.completed, if_pos bus, data, exc, hlanes.1, hlanes.2]
    rfl
  | waits state seen rsp fire next => simp [rsp] at hr
  | finishes state seen valid sent fire rsp data next =>
    have hd : c.lsu.discardQ = false := by
      rw [hr] at rsp
      simpa using (Bool.and_eq_true_iff.mp rsp.symm).2
    obtain ⟨hbus, hop, -⟩ := h.busy state hd
    obtain ⟨hdata, hexc⟩ := data hr
    have hlanes := hsaved (by simp [state]) hop
    rw [ExMem.completed, if_pos (ExMem.op_onBus_of_onBus hbus), hdata, hexc, hlanes.1, hlanes.2,
      hop]
    rfl
  | offers state fire rsp data next =>
    -- only a misaligned operation waits in `LSU_RESP`
    obtain ⟨-, hbus, hop, hdata, hexc, -⟩ := h.resp state
    have hlanes := hsaved (by simp [state]) hop
    rw [ExMem.completed, if_neg (by simp [hbus]), (data hr).1, (data hr).2, hdata, hexc,
      hlanes.1, hlanes.2]

end Core

end Rv32im

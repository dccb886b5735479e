import Rv32im.System.ProgramOrder
import Rv32im.Core.MduOwner

/-!
# No orphaned wait

Whenever the controller holds the pipeline, something in flight will release it: a request the
load/store unit presents or has out, an operation of a multiply/divide unit, a trap packet on its
way, an older instruction that moves on, or a fetch.

* `Core.waitsIdEx`, `Core.waitsExMem`: the slots a held packet in ID waits for;
* `System.Released`: what releases each of the waits;
* `System.released`: it is there in every reachable state.
-/

namespace Rv32im

open Clocked

namespace Core

variable {P : CoreParams} {c : Core} {i : CoreIn}

/-! ### What is waited for -/

/-- The access in EX/MEM is misaligned, and the idle unit will answer it itself in the next
cycle. -/
def AnswersItself (P : CoreParams) (c : Core) (i : CoreIn) : Prop :=
  c.lsu.stateQ = .idle ∧ Lsu.addressMisaligned c.exMemQ.memSize c.exMemQ.exResult = true ∧
    ∀ i', i'.rst = false → (c.next P i).lsuRspValid i' = true ∧
      ((c.next P i).lsu.exception ((c.next P i).lsuIn i')).valid = true

/-- The multiplier takes on the instruction in ID/EX in this cycle, or is computing it. -/
def MulAtWork (c : Core) (i : CoreIn) : Prop :=
  ExStage.isMul c.idExQ = true ∧ (c.launchesMul i = true ∨ c.mulUnit.stateQ = .exec ∧
    c.mulUnit.Works c.idExQ.ctrl.mduOp (c.regsAfterWb.read c.idExQ.rs1)
      (c.regsAfterWb.read c.idExQ.rs2))

@[inherit_doc MulAtWork]
def DivAtWork (c : Core) (i : CoreIn) : Prop :=
  ExStage.isDiv c.idExQ = true ∧ (c.launchesDiv i = true ∨ c.divUnit.stateQ = .run ∧
    c.divUnit.Works c.idExQ.ctrl.mduOp (c.regsAfterWb.read c.idExQ.rs1)
      (c.regsAfterWb.read c.idExQ.rs2))

/-- ID waits for the packet in ID/EX. -/
def waitsIdEx (c : Core) (i : CoreIn) : Bool :=
  match c.action i with
  | .idHazard =>
    HazardUnit.loadUse (c.idExD i) c.idExQ || HazardUnit.csrDep (c.idExD i) c.idExQ {}
  | .irqStateWait => c.idExQ.irqStateWriter
  | _ => false

/-- ID waits for the packet in EX/MEM. -/
def waitsExMem (c : Core) (i : CoreIn) : Bool :=
  match c.action i with
  | .idHazard => HazardUnit.csrDep (c.idExD i) {} c.exMemQ
  | .irqStateWait => c.exMemQ.irqStateWriter
  | _ => false

/-- EX/MEM takes the packet in ID/EX at this clock edge, with an empty slot behind it. -/
def LeavesIdEx (P : CoreParams) (c : Core) (i : CoreIn) : Prop :=
  c.exFire i = true ∧ (c.next P i).idExQ = {} ∧ (c.next P i).exMemQ.valid = true ∧
    (c.next P i).exMemQ.pc = c.idExQ.pc

/-- MEM/WB takes the packet in EX/MEM at this clock edge, and EX/MEM what comes behind it. -/
def LeavesExMem (P : CoreParams) (c : Core) (i : CoreIn) : Prop :=
  (c.next P i).exMemQ = c.exMemD i ∧ (c.next P i).memWbQ.valid = true ∧
    (c.next P i).memWbQ.pc = c.exMemQ.pc

/-- A conflict over CSR state is with the packet in ID/EX or with the one in EX/MEM. -/
theorem csrDep_eq (id ex : IdEx) (x : ExMem) : HazardUnit.csrDep id ex x =
    (HazardUnit.csrDep id ex {} || HazardUnit.csrDep id {} x) := by
  have hex : HazardUnit.idExCsrWriter {} = false := rfl
  have hx : HazardUnit.exMemCsrWriter {} = false := rfl
  simp only [HazardUnit.csrDep, HazardUnit.csrDependency, HazardUnit.mretDependency,
    HazardUnit.minstretDependency, hex, hx, Bool.false_and, Bool.or_false, Bool.false_or,
    Bool.and_or_distrib_left]
  ac_rfl

/-- Only a packet that is there is waited for. -/
theorem valid_of_waitsIdEx (h : c.waitsIdEx i = true) : c.idExQ.valid = true := by
  by_contra hne
  have hv : c.idExQ.valid = false := by simpa using hne
  unfold waitsIdEx at h
  split at h
  · simp [HazardUnit.loadUse, HazardUnit.rawMatch, HazardUnit.idExIsLoad, HazardUnit.csrDep,
      HazardUnit.csrDependency, HazardUnit.mretDependency, HazardUnit.minstretDependency,
      HazardUnit.idExCsrWriter, HazardUnit.exMemCsrWriter, hv] at h
  · simp [IdEx.irqStateWriter, hv] at h
  · simp at h

@[inherit_doc valid_of_waitsIdEx]
theorem valid_of_waitsExMem (h : c.waitsExMem i = true) : c.exMemQ.valid = true := by
  by_contra hne
  have hv : c.exMemQ.valid = false := by simpa using hne
  unfold waitsExMem at h
  split at h
  · simp [HazardUnit.csrDep, HazardUnit.csrDependency, HazardUnit.mretDependency,
      HazardUnit.minstretDependency, HazardUnit.idExCsrWriter, HazardUnit.exMemCsrWriter,
      hv] at h
  · simp [ExMem.irqStateWriter, hv] at h
  · simp at h

/-- A hold of ID names the packet it waits for. -/
theorem waits_of_action (h : c.action i = .idHazard ∨ c.action i = .irqStateWait) :
    c.waitsIdEx i = true ∨ c.waitsExMem i = true := by
  have hsel := c.selected i
  rw [waitsIdEx, waitsExMem]
  rcases h with h | h
  · rw [h] at hsel ⊢
    cases hsel with
    | younger _ _ _ _ _ _ hyounger =>
      have hz : PipelineCtrl.idHazard (c.ctrlIn i) = true := by
        simp only [reduceCtorEq, false_and, false_or, true_and, or_false] at hyounger
        exact hyounger.2.2.2.2.2
      have hz : (HazardUnit.loadUse (c.idExD i) c.idExQ ||
          HazardUnit.csrDep (c.idExD i) c.idExQ c.exMemQ) = true := hz
      rw [csrDep_eq, ← Bool.or_assoc, Bool.or_eq_true] at hz
      exact hz
  · rw [h] at hsel ⊢
    cases hsel with
    | younger _ _ _ _ _ _ hyounger =>
      have hw : (c.ctrlIn i).irqStateWait = true := by
        simp only [reduceCtorEq, false_and, false_or, true_and, or_false, and_false] at hyounger
        exact hyounger.2.2
      exact Bool.or_eq_true_iff.mp hw

/-! ### What releases it -/

/-- A packet waited for moves on at once. -/
theorem leaves_of_waits (P : CoreParams)
    (h : c.action i = .idHazard ∨ c.action i = .irqStateWait) :
    (c.waitsIdEx i = true → LeavesIdEx P c i) ∧ (c.waitsExMem i = true → LeavesExMem P c i) := by
  obtain ⟨fires, edge⟩ := of_action_hold P h
  constructor
  · intro hw
    have hv := valid_of_waitsIdEx hw
    have hx : (c.exMemD i).valid = true := by rw [exMemD_valid, fires.resultValid, hv]
    refine ⟨fires.exFire.trans hv, edge.idEx, ?_⟩
    rw [edge.exMem]
    exact ⟨hx, exMemD_pc hx⟩
  · intro hw
    have hm : (c.memWbD i).valid = true := by
      rw [memWbD_valid, valid_of_waitsExMem hw, fires.memWait]
      rfl
    refine ⟨edge.exMem, ?_⟩
    rw [edge.memWb]
    exact ⟨hm, (memWbD_pc hm).1⟩

/-- An access waits for the unit, which presents or awaits a request, or answers by itself. -/
theorem DataAccess.of_memWait (h : DataAccess c) (ht : TrapDrain c) (hrst : i.rst = false)
    (hwait : c.memWait i = true) :
    c.lsu.reqValid (c.lsuIn i) = true ∨ c.lsu.stateQ = .busy ∧ c.lsu.requestSentQ = true ∨
      AnswersItself P c i := by
  cases h.access (P := P) ht hrst with
  | none fire valid mem state next => simp [memWait, mem] at hwait
  | drains fire valid mem trap wait state next held =>
    exact .inr (.inl ⟨state.1, h.drain state.1 state.2⟩)
  | offBus fire valid mem bus trap step =>
    rcases step with ⟨hs, -, hresp, hop, -, hexc, hx, hw⟩ | ⟨-, hw, -⟩
    · have hm : Lsu.isMemory c.exMemQ.op.cmd = true := by
        simpa [ExMem.op, Lsu.isMemory] using ExMem.memCmd_of_isMemory mem
      have hmis : Lsu.addressMisaligned c.exMemQ.op.size c.exMemQ.op.addr = true := by
        simpa [LsuOp.onBus, hm] using bus
      refine .inr (.inr ⟨hs, hmis, fun i' hrst' => ?_⟩)
      have hr : (c.next P i).lsuRspValid i' = true := by
        simp [lsuRspValid, Lsu.rspValid, hresp, hw]
      refine ⟨hr, ?_⟩
      -- the answer is the misaligned exception saved with the operation
      have hr' : (c.next P i).lsu.rspValid ((c.next P i).lsuIn i') = true := hr
      rw [Lsu.exception, if_pos hr', if_pos hresp, hexc, LsuOp.localException, hm, hmis]
      rfl
    · simp [hwait] at hw
  | waits bus trap state wait rsp next held =>
    rcases state with hs | ⟨hs, hd⟩
    · left
      rw [reqValid_eq, accepts_eq hrst, ExMem.isMemory_of_onBus bus, ExMem.op_onBus_of_onBus bus,
        trap, hs]
      rfl
    · cases hsent : c.lsu.requestSentQ with
      | true => exact .inr (.inl ⟨hs, rfl⟩)
      | false =>
        left
        simp [Lsu.reqValid, Lsu.issueSaved, hs, hsent]
  | answered bus trap state wait sent valid next => simp [hwait] at wait

/-- EX waits for the unit of the instruction in ID/EX. -/
theorem MulDiv.waitsMdu (h : MulDiv c) (hready : Ready c i)
    (hwait : ExStage.wait (c.exIn i) = true) :
    c.idExQ.valid = true ∧ c.idExQ.exc.valid = false ∧ (c.MulAtWork i ∨ c.DivAtWork i) := by
  obtain ⟨hv, hmdu, hrsp⟩ := isMdu_of_wait hready hwait
  have hactive : ExStage.active (c.exIn i) = true := hready.active.trans hv
  have hr := hready.exResultReady
  simp only [ExStage.isMdu, Bool.and_eq_true, Bool.or_eq_true, Bool.not_eq_true'] at hmdu
  refine ⟨hv, hmdu.2, ?_⟩
  by_cases hm : ExStage.isMul c.idExQ = true
  · refine .inl ⟨hm, ?_⟩
    rw [mduRspValid_of_isMul hm, hready.exKill] at hrsp
    cases hs : c.mulUnit.stateQ with
    | idle => exact .inl (launchesMul_iff.mpr ⟨hactive, hm, hr, hs⟩)
    | exec => exact .inr ⟨rfl, (h.mul (by rw [hs]; decide)).2.2⟩
    | resp => simp [hs] at hrsp
  · have hd := hmdu.1.resolve_left hm
    refine .inr ⟨hd, ?_⟩
    rw [mduRspValid_of_isDiv hd, hready.exKill] at hrsp
    cases hs : c.divUnit.stateQ with
    | idle => exact .inl (launchesDiv_iff.mpr ⟨hactive, hd, hr, hs⟩)
    | run => exact .inr ⟨rfl, (h.div (by rw [hs]; decide)).2.2⟩
    | resp => simp [hs] at hrsp

end Core

/-- A fetch unit asked for a packet presents a request unless it has one out. -/
theorem IfStage.reqValid_of_consume {q : IfStage} {imem : MemIn}
    (h : q.stateQ = .busy → q.requestSentQ = false) :
    q.reqValid (FetchCmd.consume.drive imem) = true := by
  cases hs : q.stateQ with
  | idle =>
    simp [IfStage.reqValid, IfStage.launchRequest, IfStage.wantFetch, FetchCmd.drive, hs]
  | busy => simp [IfStage.reqValid, IfStage.heldRequest, FetchCmd.drive, hs, h hs]

namespace System

variable {P : CoreParams} {s : System} {i : CoreIn}

/-- The data port follows the load/store unit in every run. -/
theorem Reachable.lsuAwaits (h : Reachable P s) : s.core.lsu.Awaits s.dmem :=
  Circuit.Reachable.invariant (I := fun s => s.core.lsu.Awaits s.dmem) h
    (fun _ hs => .of_port hs.dmem) fun _ _ hI hl => hI.next dmemReq_isSome hl.2

/-- What releases the waits of the controller. -/
structure Released (P : CoreParams) (s : System) (i : CoreIn) : Prop where
  /-- A request that is presented, or one that is out and was unanswered when the cycle began, or
  the unit itself. -/
  memWait : s.core.action i = .memWait → s.core.lsu.reqValid (s.core.lsuIn i) = true ∨
    (s.core.lsu.stateQ = .busy ∧ s.core.lsu.requestSentQ = true ∧ s.dmem.Pending) ∨
      s.core.AnswersItself P i
  exWait : s.core.action i = .exWait → s.core.idExQ.valid = true ∧
    s.core.idExQ.exc.valid = false ∧ (s.core.MulAtWork i ∨ s.core.DivAtWork i)
  trapDrain : s.core.action i = .trapDrain →
    s.core.idExQ.trap = true ∨ s.core.exMemQ.trap = true ∨ s.core.memWbQ.trap = true
  hold : s.core.action i = .idHazard ∨ s.core.action i = .irqStateWait →
    (s.core.waitsIdEx i = true ∨ s.core.waitsExMem i = true) ∧
      (s.core.waitsIdEx i = true → s.core.LeavesIdEx P i) ∧
      (s.core.waitsExMem i = true → s.core.LeavesExMem P i)
  advance : s.core.action i = .advance → s.core.ifIdQ.valid = false →
    s.core.ifStage.fetchValid (s.core.ifIn i) = true ∨
      s.core.ifStage.reqValid (s.core.ifIn i) = true ∨
      s.core.ifStage.stateQ = .busy ∧ s.core.ifStage.requestSentQ = true ∧ s.imem.Pending

/-- In every reachable state each wait of the controller has an owner that can end it. -/
theorem released (h : Reachable P s) (hrst : i.rst = false) : Released P s i := by
  have hc := h.core
  have ht := hc.trapDrain
  refine ⟨fun ha => ?_, fun ha => ?_, fun ha => ?_, fun ha => ?_, fun ha _ => ?_⟩
  · obtain ⟨-, -, -, hwait⟩ := Core.of_action_memWait ha
    rcases hc.dataAccess.of_memWait (P := P) ht hrst hwait with hv | ⟨hb, hs⟩ | ha
    · exact .inl hv
    · exact .inr (.inl ⟨hb, hs, (h.lsuAwaits.sent hs).2⟩)
    · exact .inr (.inr ha)
  · obtain ⟨hready, hwait⟩ := Core.of_action_exWait ha
    exact hc.mulDiv.waitsMdu hready hwait
  · have hd := Core.of_action_trapDrain ha
    rw [ht.drain] at hd
    simpa [or_assoc] using hd
  · exact ⟨Core.waits_of_action ha, Core.leaves_of_waits P ha⟩
  · rw [Core.of_action_advance ha]
    by_cases hout : s.core.ifStage.stateQ = .busy ∧ s.core.ifStage.requestSentQ = true
    · obtain ⟨r, howes, -⟩ := h.inOrder.port.sent hout.1 hout.2
      exact .inr (.inr ⟨hout.1, hout.2, howes.pending⟩)
    · refine .inr (.inl (IfStage.reqValid_of_consume fun hb => ?_))
      simpa [hb] using hout

/-- A load whose request the memory has accepted and not answered. -/
theorem released_load :
    let is : List CoreIn := [Core.fetches 0x00002083#32, {}, {}, { dmem := { reqReady := true } }]
    let s := (circuit {}).exec (boot {} fun _ => 0#32) is
    s.core.action {} = .memWait ∧ s.dmem.Pending ∧ Released {} s {} :=
  ⟨by decide +kernel, by decide +kernel,
    released ⟨_, _, started_boot {} _, .of_always (by decide +kernel)⟩ rfl⟩

end System

end Rv32im

import Rv32im.Core.Operands
import Rv32im.Units.Mdu

/-!
# Multiplication and division in the pipeline

A unit that is not idle works for the instruction in ID/EX, whose operands cannot change any more:
nothing is left in EX/MEM that could write them.

* `Core.MulDiv`: the invariant that ties the units to ID/EX;
* `MulDiv.mduResult`: the result that EX hands on is the RV32M result of the operands.
-/

namespace Rv32im

namespace Core

variable {P : CoreParams} {F : IfId → Prop} {c : Core} {i : CoreIn}

/-- A commit that MEM hands over writes the register that EX/MEM is about to write. -/
theorem write_memWbD (hp : Packets F c) (hexc : c.memException i = false)
    (hwait : c.memWait i = false) :
    c.regsAfterWb.write (c.memWbD i).writesReg (c.memWbD i).rd (c.memWbD i).wbData =
      c.pendingRegs (c.memWbD i).wbData := by
  cases hv : c.exMemQ.valid with
  | false =>
    have hd : c.memWbD i = {} := if_neg (by simp [hv])
    have hw : c.exMemQ.writesReg = false := by simp [ExMem.writesReg, hv]
    rw [hd, pendingRegs, hw]
    rfl
  | true =>
  rw [pendingRegs]
  cases hm : c.exMemQ.isMemory with
  | false =>
    rw [memWbD_of_not_isMemory hm, if_pos hv]
    -- the value in EX/MEM is the one written back
    have hw : c.exMemQ.localPacket.writesReg = c.exMemQ.writesReg := by
      simp only [MemWb.writesReg, MemWb.retire, ExMem.localPacket, ExMem.writesReg, hv]
      cases c.exMemQ.exc.valid <;> simp
    rw [hw]
    have hcmd : c.exMemQ.writesReg = true → c.exMemQ.memCmd ≠ .load := by
      intro hw hcmd
      simp only [ExMem.writesReg, Bool.and_eq_true] at hw
      simp [ExMem.isMemory, hw.1.1.1, hw.1.1.2, hcmd] at hm
    cases hx : c.exMemQ.writesReg with
    | false => rfl
    | true =>
      rw [if_neg (hcmd hx)]
      rfl
  | true =>
    have hr : c.lsuRspValid i = true := by simpa [memWait, hm] using hwait
    -- a completed access without fault; a load writes what it returns
    have he : (c.lsu.exception (c.lsuIn i)).valid = false := by
      simpa [memException, hm, hr] using hexc
    have hd : c.memWbD i = c.exMemQ.accessPacket (c.lsu.loadData (c.lsuIn i))
        (c.lsu.exception (c.lsuIn i)) (c.lsu.traceWstrb (c.lsuIn i))
        (c.lsu.traceWdata (c.lsuIn i)) := by
      rw [memWbD, if_pos hv, if_pos hm, if_pos hr]
    have hw : (c.memWbD i).writesReg = c.exMemQ.writesReg := by
      simp [hd, MemWb.writesReg, MemWb.retire, ExMem.accessPacket, he, ExMem.writesReg, hv,
        ExMem.exc_of_isMemory hm]
    have hrd : (c.memWbD i).rd = c.exMemQ.rd := by rw [hd]; rfl
    rw [hw, hrd]
    rcases ExMem.memCmd_of_isMemory hm with hcmd | hcmd
    · rw [if_pos hcmd]
    · -- a store writes no register
      have hreg := (hp.exMem hv).store hcmd
      simp [ExMem.writesReg, hreg]

/-- When EX/MEM has handed its packet over, the registers are those awaited before. -/
theorem regsAfterWb_next (hp : Packets F c) (hready : Ready c i)
    (hw : (next P c i).memWbQ = c.memWbD i) :
    (next P c i).regsAfterWb = c.pendingRegs (c.memWbD i).wbData := by
  rw [← write_memWbD hp hready.memException hready.memWait, ← hw]
  rfl

/-- Nothing is left in front of the instruction in ID/EX that could write its operands. -/
structure Settled (c : Core) : Prop where
  valid : c.idExQ.valid = true
  exc : c.idExQ.exc.valid = false
  exMem : c.exMemQ.valid = false

/-- A unit that is not idle works for the instruction in ID/EX, on its operands. -/
structure MulDiv (c : Core) : Prop where
  mul : c.mulUnit.stateQ ≠ .idle → Settled c ∧ ExStage.isMul c.idExQ = true ∧
    c.mulUnit.Works c.idExQ.ctrl.mduOp (c.regsAfterWb.read c.idExQ.rs1)
      (c.regsAfterWb.read c.idExQ.rs2)
  div : c.divUnit.stateQ ≠ .idle → Settled c ∧ ExStage.isDiv c.idExQ = true ∧
    c.divUnit.Works c.idExQ.ctrl.mduOp (c.regsAfterWb.read c.idExQ.rs1)
      (c.regsAfterWb.read c.idExQ.rs2)

/-- The operations of the multiplier. -/
theorem mduOp_of_isMul {d : IdEx} (h : ExStage.isMul d = true) :
    d.ctrl.mduOp = .mul ∨ d.ctrl.mduOp = .mulh ∨ d.ctrl.mduOp = .mulhsu ∨
      d.ctrl.mduOp = .mulhu := by
  simpa [ExStage.isMul, or_assoc] using h

/-- The operations of the divider. -/
theorem mduOp_of_isDiv {d : IdEx} (h : ExStage.isDiv d = true) :
    d.ctrl.mduOp = .div ∨ d.ctrl.mduOp = .divu ∨ d.ctrl.mduOp = .rem ∨ d.ctrl.mduOp = .remu := by
  simpa [ExStage.isDiv, or_assoc] using h

theorem isMul_eq_false_of_isDiv {d : IdEx} (h : ExStage.isDiv d = true) :
    ExStage.isMul d = false := by
  rcases mduOp_of_isDiv h with h | h | h | h <;> simp [ExStage.isMul, h]

/-- The response of the unit that a multiply instruction asks. -/
theorem mduRspValid_of_isMul (h : ExStage.isMul c.idExQ = true) :
    ExStage.mduRspValid (c.exIn i) = (c.mulUnit.stateQ == .resp && !c.exKill i) := by
  have hm : ExStage.isMul (c.exIn i).idEx = true := h
  rw [ExStage.mduRspValid, if_pos hm]
  rfl

@[inherit_doc mduRspValid_of_isMul]
theorem mduRspValid_of_isDiv (h : ExStage.isDiv c.idExQ = true) :
    ExStage.mduRspValid (c.exIn i) = (c.divUnit.stateQ == .resp && !c.exKill i) := by
  have hm : ExStage.isMul (c.exIn i).idEx = false := isMul_eq_false_of_isDiv h
  have hd : ExStage.isDiv (c.exIn i).idEx = true := h
  rw [ExStage.mduRspValid, hm, if_neg Bool.false_ne_true, if_pos hd]
  rfl

/-- The operands forwarded to a multiply or divide instruction are the awaited registers. -/
theorem Operands.forwarded_mdu (h : Operands c) (hp : Packets F c) (hv : c.idExQ.valid = true)
    (hmdu : ExStage.isMdu c.idExQ = true) (loadData : Word) :
    ExStage.forwardedRs1 (c.exIn i) = (c.pendingRegs loadData).read c.idExQ.rs1 ∧
      ExStage.forwardedRs2 (c.exIn i) = (c.pendingRegs loadData).read c.idExQ.rs2 := by
  simp only [ExStage.isMdu, Bool.and_eq_true, Bool.not_eq_true'] at hmdu
  have hne : c.idExQ.ctrl.mduOp ≠ .none := by
    intro hnone
    simp [ExStage.isMul, ExStage.isDiv, hnone] at hmdu
  obtain ⟨hu₁, hu₂, -⟩ := (hp.idEx hv).legal.mdu hne
  obtain ⟨h₁, h₂⟩ := h.coherent hp hv hmdu.2 i
  exact ⟨(h₁ hu₁).2 loadData, (h₂ hu₂).2 loadData⟩

/-- With EX/MEM empty only MEM/WB has a register to write. -/
theorem pendingRegs_of_not_valid (h : c.exMemQ.valid = false) (loadData : Word) :
    c.pendingRegs loadData = c.regsAfterWb := by
  have hw : c.exMemQ.writesReg = false := by simp [ExMem.writesReg, h]
  rw [pendingRegs, hw]
  rfl

/-- EX waits for one of the units only. -/
theorem isMdu_of_wait (hready : Ready c i) (hwait : ExStage.wait (c.exIn i) = true) :
    c.idExQ.valid = true ∧ ExStage.isMdu c.idExQ = true ∧
      ExStage.mduRspValid (c.exIn i) = false := by
  have hfire : ExStage.exFire (c.exIn i) = _ := hready.exFire
  rw [ExStage.wait, hready.active, hfire, Bool.and_eq_true, Bool.not_eq_true',
    ExStage.resultValid, hready.active] at hwait
  obtain ⟨hv, hres⟩ := hwait
  rw [hv, Bool.true_and, Bool.or_eq_false_iff, Bool.not_eq_false'] at hres
  exact ⟨hv, hres.1, hres.2⟩

/-- A packet for a unit carries no exception. -/
theorem Packets.isMdu (hp : Packets F c) (hv : c.idExQ.valid = true)
    (h : ExStage.isMul c.idExQ = true ∨ ExStage.isDiv c.idExQ = true) :
    ExStage.isMdu c.idExQ = true := by
  have he : c.idExQ.exc.valid = false := by
    by_contra hne
    have hctrl := (hp.idEx hv).ctrl_of_exc (by simpa using hne)
    simp [ExStage.isMul, ExStage.isDiv, hctrl] at h
  simpa [ExStage.isMdu, he] using h

/-- When EX hands over, the unit asked has its result. -/
theorem mduRspValid_of_not_wait (hp : Packets F c) (hready : Ready c i)
    (hwait : ExStage.wait (c.exIn i) = false) (hv : c.idExQ.valid = true)
    (h : ExStage.isMul c.idExQ = true ∨ ExStage.isDiv c.idExQ = true) :
    ExStage.mduRspValid (c.exIn i) = true := by
  have hmdu := hp.isMdu hv h
  have hfire : ExStage.exFire (c.exIn i) = _ := hready.exFire
  rw [ExStage.wait, hready.active, hv, Bool.true_and, Bool.not_eq_false', hfire,
    ExStage.resultValid, hready.active, hv, Bool.true_and] at hwait
  have hmdu' : ExStage.isMdu (c.exIn i).idEx = true := hmdu
  simpa [hmdu'] using hwait

/-- When EX hands over, the units are empty afterwards. -/
theorem MulDiv.idle_of_not_wait (h : MulDiv c) (hp : Packets F c) (hready : Ready c i)
    (hwait : ExStage.wait (c.exIn i) = false) :
    (Core.next P c i).mulUnit.stateQ = .idle ∧ (Core.next P c i).divUnit.stateQ = .idle := by
  constructor
  · refine MulUnit.stateQ_next ?_
    have hresp (hv : c.idExQ.valid = true) (hm : ExStage.isMul c.idExQ = true) :
        c.mulUnit.stateQ = .resp := by
      have hrsp := mduRspValid_of_not_wait hp hready hwait hv (.inl hm)
      rw [mduRspValid_of_isMul hm, Bool.and_eq_true] at hrsp
      exact beq_iff_eq.mp hrsp.1
    -- an idle unit has not been asked, else EX would wait; one with the result gives it up
    by_cases hs : c.mulUnit.stateQ = .idle
    · refine .inr (.inr (.inl ⟨hs, ?_⟩))
      by_contra hne
      simp only [ExStage.mulIn, ExStage.mduIn, Bool.not_eq_false, Bool.and_eq_true,
        hready.active] at hne
      have := hresp hne.1.1.1 hne.1.1.2
      simp [hs] at this
    · obtain ⟨hset, hm, -⟩ := h.mul hs
      refine .inr (.inr (.inr ⟨hresp hset.valid hm, ?_⟩))
      have hm' : ExStage.isMul (c.exIn i).idEx = true := hm
      have hready' : (c.exIn i).resultReady = true := hready.exResultReady
      simp only [ExStage.mulIn, ExStage.mduIn, hready.active, hset.valid, hm', hready',
        Bool.and_self]
  · refine DivUnit.stateQ_next ?_
    have hresp (hv : c.idExQ.valid = true) (hm : ExStage.isDiv c.idExQ = true) :
        c.divUnit.stateQ = .resp := by
      have hrsp := mduRspValid_of_not_wait hp hready hwait hv (.inr hm)
      rw [mduRspValid_of_isDiv hm, Bool.and_eq_true] at hrsp
      exact beq_iff_eq.mp hrsp.1
    by_cases hs : c.divUnit.stateQ = .idle
    · refine .inr (.inr (.inl ⟨hs, ?_⟩))
      by_contra hne
      simp only [ExStage.divIn, ExStage.mduIn, Bool.not_eq_false, Bool.and_eq_true,
        hready.active] at hne
      have := hresp hne.1.1.1 hne.1.1.2
      simp [hs] at this
    · obtain ⟨hset, hm, -⟩ := h.div hs
      refine .inr (.inr (.inr ⟨hresp hset.valid hm, ?_⟩))
      have hm' : ExStage.isDiv (c.exIn i).idEx = true := hm
      have hready' : (c.exIn i).resultReady = true := hready.exResultReady
      simp only [ExStage.divIn, ExStage.mduIn, hready.active, hset.valid, hm', hready',
        Bool.and_self]

/-- Units that are empty work for nobody. -/
theorem MulDiv.of_idle (h : (Core.next P c i).mulUnit.stateQ = .idle ∧
    (Core.next P c i).divUnit.stateQ = .idle) : MulDiv (Core.next P c i) :=
  ⟨fun hs => absurd h.1 hs, fun hs => absurd h.2 hs⟩

/-- A unit that is not asked stays empty. -/
theorem next_mulUnit_idle (hq : c.mulUnit.stateQ = .idle)
    (hm : ExStage.isMul c.idExQ = false) : (Core.next P c i).mulUnit.stateQ = .idle := by
  refine MulUnit.stateQ_next (.inr (.inr (.inl ⟨hq, ?_⟩)))
  have hm' : ExStage.isMul (c.exIn i).idEx = false := hm
  simp [ExStage.mulIn, ExStage.mduIn, hm']

@[inherit_doc next_mulUnit_idle]
theorem next_divUnit_idle (hq : c.divUnit.stateQ = .idle)
    (hd : ExStage.isDiv c.idExQ = false) : (Core.next P c i).divUnit.stateQ = .idle := by
  refine DivUnit.stateQ_next (.inr (.inr (.inl ⟨hq, ?_⟩)))
  have hd' : ExStage.isDiv (c.exIn i).idEx = false := hd
  simp [ExStage.divIn, ExStage.mduIn, hd']

/-- While EX waits, the unit asked starts or goes on, and the other one stays empty. -/
private theorem MulDiv.of_exWait (h : MulDiv c) (hp : Packets F c) (ho : Operands c)
    (hready : Ready c i) (hwait : ExStage.wait (c.exIn i) = true)
    (hid : (Core.next P c i).idExQ = c.idExHeld) (hx : (Core.next P c i).exMemQ = {})
    (hw : (Core.next P c i).memWbQ = c.memWbD i) : MulDiv (Core.next P c i) := by
  obtain ⟨hv, hmdu, hrsp⟩ := isMdu_of_wait hready hwait
  have hexc : c.idExQ.exc.valid = false := by
    simp only [ExStage.isMdu, Bool.and_eq_true, Bool.not_eq_true'] at hmdu
    exact hmdu.2
  have hset : Settled (Core.next P c i) := by
    constructor <;> simp [hid, hx, hv, hexc]
  have hregs := regsAfterWb_next hp hready hw
  obtain ⟨h₁, h₂⟩ := ho.forwarded_mdu (i := i) hp hv hmdu (c.memWbD i).wbData
  -- the operands of an operation under way are those it was given
  have hkeep (hx : c.exMemQ.valid = false) :
      (Core.next P c i).regsAfterWb = c.regsAfterWb := by
    rw [hregs, pendingRegs_of_not_valid hx]
  have hkill : c.exKill i = false := hready.exKill
  constructor
  · intro hs
    -- first the multiplier, then the divider: the one asked works, the other was idle
    by_cases hm : ExStage.isMul c.idExQ = true
    · refine ⟨hset, by rw [hid]; simpa [ExStage.isMul] using hm, ?_⟩
      rw [hid, IdEx.refresh_ctrl, IdEx.refresh_rs1, IdEx.refresh_rs2]
      by_cases hq : c.mulUnit.stateQ = .idle
      · -- it starts with the forwarded operands, which the refresh will put into ID/EX
        rw [hregs, ← h₁, ← h₂]
        exact MulUnit.Works.accept hq hready.rst hkill
      · obtain ⟨hset', -, hwork⟩ := h.mul hq
        rw [hkeep hset'.exMem]
        exact hwork.next hq hready.rst hkill (mduOp_of_isMul hm)
    · have hq : c.mulUnit.stateQ = .idle := by
        by_contra hne
        exact hm (h.mul hne).2.1
      exact absurd (next_mulUnit_idle hq (Bool.eq_false_iff.mpr hm)) hs
  · intro hs
    by_cases hm : ExStage.isDiv c.idExQ = true
    · refine ⟨hset, by rw [hid]; simpa [ExStage.isDiv] using hm, ?_⟩
      rw [hid, IdEx.refresh_ctrl, IdEx.refresh_rs1, IdEx.refresh_rs2]
      by_cases hq : c.divUnit.stateQ = .idle
      · rw [hregs, ← h₁, ← h₂]
        exact DivUnit.Works.accept hq hready.rst hkill (mduOp_of_isDiv hm)
      · obtain ⟨hset', -, hwork⟩ := h.div hq
        rw [hkeep hset'.exMem]
        exact hwork.next hq hready.rst hkill (mduOp_of_isDiv hm)
    · have hq : c.divUnit.stateQ = .idle := by
        by_contra hne
        exact hm (h.div hne).2.1
      exact absurd (next_divUnit_idle hq (Bool.eq_false_iff.mpr hm)) hs

/-- Every cycle keeps the units with their instruction. -/
theorem MulDiv.next (h : MulDiv c) (hp : Packets F c) (ho : Operands c) :
    MulDiv (Core.next P c i) := by
  have hkill (hk : i.rst = true ∨ c.exKill i = true) : MulDiv (Core.next P c i) :=
    .of_idle ⟨MulUnit.stateQ_next (hk.imp id .inl), DivUnit.stateQ_next (hk.imp id .inl)⟩
  have hfire (hready : Ready c i) (hwait : ExStage.wait (c.exIn i) = false) :
      MulDiv (Core.next P c i) := .of_idle (h.idle_of_not_wait hp hready hwait)
  cases next_cases P c i with
  | reset rst edge => exact hkill (.inl rst)
  | wbTrap rst trap edge => exact hkill (.inr (by rw [exKill, trap]; rfl))
  | memException rst trap exc edge => exact hkill (.inr (by rw [exKill, exc, Bool.or_true]))
  | memWait rst trap wait edge =>
    -- with an access in EX/MEM nothing is launched
    have hx : c.exMemQ.valid = true := by
      simp only [memWait, Bool.and_eq_true] at wait
      exact ExMem.valid_of_isMemory wait.1
    have hr : (c.exIn i).resultReady = false := by
      show c.exResultReady i = false
      simp [exResultReady, wait]
    refine .of_idle ⟨MulUnit.stateQ_next (.inr (.inr (.inl ⟨?_, ?_⟩))),
      DivUnit.stateQ_next (.inr (.inr (.inl ⟨?_, ?_⟩)))⟩
    · by_contra hne
      simp [(h.mul hne).1.exMem] at hx
    · simp [ExStage.mulIn, ExStage.mduIn, hr]
    · by_contra hne
      simp [(h.div hne).1.exMem] at hx
    · simp [ExStage.divIn, ExStage.mduIn, hr]
  | exException ready exc edge =>
    refine hfire ready ?_
    -- an exception found in EX comes with a result, so EX does not wait
    have hf : ExStage.exFire (c.exIn i) = _ := ready.exFire
    rw [ExStage.wait, hf, (exException_iff.mp exc).1, Bool.not_true, Bool.and_false]
  | exWait ready wait edge => exact h.of_exWait hp ho ready wait edge.idEx edge.exMem edge.memWb
  | trapDrain fires drain edge => exact hfire fires.toReady fires.exWait
  | exRedirect fires drain redirect edge => exact hfire fires.toReady fires.exWait
  | stall fires drain redirect stall edge => exact hfire fires.toReady fires.exWait
  | idTrap fires drain redirect irqWait exc edge => exact hfire fires.toReady fires.exWait
  | advance fires drain redirect irqWait exc loadUse csrDep edge =>
    exact hfire fires.toReady fires.exWait

/-- It holds in every reachable state. -/
theorem Reachable.mulDiv (h : Reachable P c) : MulDiv c := by
  refine h.holds (fun c i hrst => ?_) fun c i hc hm => hm.next hc.packets hc.operands
  exact .of_idle ⟨MulUnit.stateQ_next (.inl hrst), DivUnit.stateQ_next (.inl hrst)⟩

/-- A multiply or divide instruction leaves EX with the RV32M result of its operands. -/
theorem MulDiv.mduResult (h : MulDiv c) (hp : Packets F c) (ho : Operands c)
    (hr : ExStage.resultValid (c.exIn i) = true) (hmdu : ExStage.isMdu c.idExQ = true) :
    ExStage.mduResult (c.exIn i) = c.idExQ.ctrl.mduOp.result
      (ExStage.forwardedRs1 (c.exIn i)) (ExStage.forwardedRs2 (c.exIn i)) := by
  have hv := valid_of_resultValid hr
  obtain ⟨h₁, h₂⟩ := ho.forwarded_mdu (i := i) hp hv hmdu 0#32
  have hmdu' : ExStage.isMdu (c.exIn i).idEx = true := hmdu
  have hrsp : ExStage.mduRspValid (c.exIn i) = true := by
    simp only [ExStage.resultValid, hmdu', Bool.and_eq_true] at hr
    simpa using hr.2
  rw [h₁, h₂]
  by_cases hm : ExStage.isMul c.idExQ = true
  · have hm' : ExStage.isMul (c.exIn i).idEx = true := hm
    rw [mduRspValid_of_isMul hm, Bool.and_eq_true] at hrsp
    have hs : c.mulUnit.stateQ = .resp := beq_iff_eq.mp hrsp.1
    -- nothing is left in front, so the awaited registers are the committed ones
    obtain ⟨hset, -, hwork⟩ := h.mul (by simp [hs])
    rw [ExStage.mduResult, if_pos hm', pendingRegs_of_not_valid hset.exMem]
    exact hwork.resp hs
  · have hd : ExStage.isDiv c.idExQ = true := by
      simp only [ExStage.isMdu, Bool.and_eq_true, Bool.or_eq_true] at hmdu
      exact hmdu.1.resolve_left hm
    have hm' : ¬ ExStage.isMul (c.exIn i).idEx = true := hm
    have hd' : ExStage.isDiv (c.exIn i).idEx = true := hd
    rw [mduRspValid_of_isDiv hd, Bool.and_eq_true] at hrsp
    have hs : c.divUnit.stateQ = .resp := beq_iff_eq.mp hrsp.1
    obtain ⟨hset, -, hwork⟩ := h.div (by simp [hs])
    rw [ExStage.mduResult, if_neg hm', if_pos hd', pendingRegs_of_not_valid hset.exMem]
    exact hwork.resp hs

end Core

end Rv32im

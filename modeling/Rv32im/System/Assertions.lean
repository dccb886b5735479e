import Rv32im.Core.Performance
import Rv32im.System.Protocol

/-!
# The checkers bound to the core

The assertions on retirement and on interrupts that the testbenches bind to `rv32_core` fail in no
state that the core can reach, whatever its ports and `mtip_i` do and whenever it is reset.

* `Core.RetirementSva`: `rv32_core_retirement_sva`;
* `Core.InterruptSva`: `rv32_core_interrupt_sva`;
* `MemWb.Proper`, `Core.PacketsAligned`: the invariants they rest on;
* `Core.assertions_hold`: all of them, in every reachable state.
-/

namespace Rv32im

/-- `mtimer_irq_eligible_o`, on the state before the commit. -/
def CsrFile.mtimerIrqEligible (q : CsrFile) (mtip : Bool) : Bool :=
  (mipValue mtip).getLsbD mintMtipBit && q.mieQ.getLsbD mintMtipBit &&
    q.mstatusQ.getLsbD mstatusMieBit

namespace Core

variable (P : CoreParams) (c : Core) (i : CoreIn)

/-- The assertions of `rv32_core_retirement_sva`, on the trace port. -/
structure RetirementSva : Prop where
  commitSlotNeverRetiresWhileHeld : c.memWbQ.valid = true →
    (c.ctrl i).memWbEnable = true ∨ (c.ctrl i).memWbFlush = true
  trapHasNoSideEffect : c.memWbQ.event.trap = true →
    c.memWbQ.valid = true ∧ c.memWbQ.event.rdWe = false ∧ c.memWbQ.event.memWstrb = 0#4
  gprWriteIsLegalRetirement : c.memWbQ.event.rdWe = true →
    c.memWbQ.valid = true ∧ c.memWbQ.event.trap = false ∧ c.memWbQ.event.rdAddr ≠ 0#5
  storeIsLegalRetirement : c.memWbQ.event.memWstrb ≠ 0#4 →
    c.memWbQ.valid = true ∧ c.memWbQ.event.trap = false
  invalidSlotHasNoEvent : c.memWbQ.valid = false →
    c.memWbQ.event.rdWe = false ∧ c.memWbQ.event.memWstrb = 0#4 ∧ c.memWbQ.event.trap = false ∧
      c.memWbQ.event.control = false ∧ c.memWbQ.event.taken = false
  nontrapCauseIsZero : c.memWbQ.valid = true → c.memWbQ.event.trap = false →
    c.memWbQ.event.cause = 0#5
  controlMetadataIsConsistent : c.memWbQ.event.taken = true →
    c.memWbQ.valid = true ∧ c.memWbQ.event.control = true ∧ c.memWbQ.event.trap = false
  retirementPcIsAligned : c.memWbQ.valid = true → Word.Aligned c.memWbQ.event.pc

/-- The assertions of `rv32_core_interrupt_sva`. -/
structure InterruptSva : Prop where
  candidateRequiresEffectiveEligibility : c.idInterruptCandidate i = true →
    c.irqEligible i = true ∧ c.irqStateWait = false ∧ c.trapDrainQ = false
  enableCommitBuildsImmediateCandidate : c.memWbQ.irqStateWriter = true →
    c.csrFile.mtimerIrqEligible i.mtip = false →
    c.csrFile.mtimerIrqEligibleAfterCommit c.memWbQ.commit i.mtip = true →
    c.idExDecoded.valid = true → c.idExDecoded.exc.valid = false →
    c.irqStateWait = false → c.trapDrainQ = false → c.idInterruptCandidate i = true
  interruptEventOriginatesFromCandidate : c.idInterrupt i = true →
    c.idInterruptCandidate i = true
  /-- An accepted interrupt is in ID/EX in the next cycle. -/
  acceptedInterruptBuildsPrecisePacket :
    c.idInterrupt i = true → (c.ctrl i).idExEnable = true → (c.ctrl i).idExFlush = false →
    (c.next P i).idExQ.valid = true ∧ (c.next P i).idExQ.exc.valid = true ∧
      (c.next P i).idExQ.exc.isInterrupt = true ∧ (c.next P i).idExQ.exc.cause = 7#5 ∧
      (c.next P i).idExQ.exc.tval = 0#32 ∧ (c.next P i).idExQ.pc = c.idExDecoded.pc ∧
      (c.next P i).idExQ.insn = 0#32 ∧ (c.next P i).idExQ.ctrl = {}

end Core

/-! ### Addresses -/

/-- The address of a packet in IF/ID is aligned. -/
def IfId.Aligned (f : IfId) : Prop := Word.Aligned f.pc

namespace Core

variable {P : CoreParams} {c : Core} {i : CoreIn}

/-- The packets in flight and the one held by the fetch unit have aligned addresses. -/
structure PacketsAligned (c : Core) : Prop where
  packets : Packets IfId.Aligned c
  held : Word.Aligned c.ifStage.packetPcQ

/-- A response comes from an aligned address. -/
private theorem aligned_responsePc (ha : c.ifStage.Aligned) :
    Word.Aligned (c.ifStage.responsePc (c.ifIn i)) := by
  unfold IfStage.responsePc
  split
  next hb => exact ha.request hb
  next => exact ha.launchPc aligned_redirectPc

/-- A cycle keeps the packets aligned. -/
theorem PacketsAligned.next (h : PacketsAligned c) (ha : c.ifStage.Aligned) :
    PacketsAligned (Core.next P c i) := by
  constructor
  · refine h.packets.next fun _ _ hv => ?_
    unfold Core.ifIdD IfStage.fetchPacket IfId.Aligned at *
    split at hv
    next hf =>
      rw [if_pos hf]
      split
      · exact h.held
      · exact aligned_responsePc ha
    next => contradiction
  · show Word.Aligned (c.ifStage.next (c.ifIn i) P.resetVector).packetPcQ
    cases hrst : i.rst with
    | true =>
      have hrst' : (c.ifIn i).rst = true := hrst
      rw [IfStage.next, if_pos hrst', IfStage.reset]
      split <;> rfl
    | false =>
      have hnext := IfStage.next_packet (q := c.ifStage) (i := c.ifIn i) (w := P.resetVector) hrst
      by_cases hl : (c.ifStage.responseLive (c.ifIn i) &&
          !c.ifStage.responseConsumed (c.ifIn i)) = true
      · rw [Bool.and_eq_true, Bool.not_eq_true'] at hl
        rw [(hnext.captured hl.1 hl.2).2.1]
        exact aligned_responsePc ha
      · rw [(hnext.kept (by simpa using hl)).2.1]
        exact h.held

/-- They are in every reachable state. -/
theorem Reachable.packetsAligned (h : Reachable P c) (hP : Word.Aligned P.resetVector) :
    PacketsAligned c := by
  refine h.holds (fun c i hrst => ⟨.of_empty (edge_reset P c hrst), ?_⟩)
    fun _ _ hc h => h.next (hc.fetchAligned hP)
  have hrst' : (c.ifIn i).rst = true := hrst
  show Word.Aligned (c.ifStage.next (c.ifIn i) P.resetVector).packetPcQ
  rw [IfStage.next, if_pos hrst', IfStage.reset]
  split <;> rfl

end Core

/-! ### The slot before the trace port -/

/-- The packet in MEM/WB: an empty slot is a bubble, and the metadata of a packet fit together. -/
structure MemWb.Proper (w : MemWb) : Prop where
  bubble : w.valid = false → w = {}
  aligned : w.valid = true → Word.Aligned w.pc
  control : w.controlTaken = true → w.control = true
  strobes : w.exc.valid = true → w.memWstrb = 0#4

theorem MemWb.Proper.empty : MemWb.Proper {} where
  bubble _ := rfl
  aligned h := by cases h
  control h := by cases h
  strobes _ := rfl

namespace Core

variable {P : CoreParams} {c : Core} {i : CoreIn}

/-- What EX hands on has an aligned address, and takes a transfer only if it is a control one. -/
private theorem executed_proper {x : ExMem} (h : x.Executed IfId.Aligned) :
    Word.Aligned x.pc ∧ (x.controlTaken = true → x.control = true) := by
  obtain ⟨d, rs1, rs2, rdata, mepc, illegal, mdu, hd, -, -, rfl⟩ := h
  refine ⟨?_, ExStage.isControl_of_controlTaken⟩
  obtain ⟨f, hf, hv, hd | ⟨-, hd⟩⟩ := hd.form
  · rw [hd]
    simpa [ExStage.packet, IdStage.packet, hv, IfId.Aligned] using hf
  · rw [hd]
    exact hf

/-- What MEM hands on is proper. -/
theorem memWbD_proper (h : Packets IfId.Aligned c) : (c.memWbD i).Proper := by
  unfold memWbD
  cases hv : c.exMemQ.valid with
  | false => exact .empty
  | true =>
    obtain ⟨haligned, hcontrol⟩ := executed_proper (h.exMem hv)
    simp only [if_true]
    split
    · split
      · constructor
        · intro hf
          cases hf
        · exact fun _ => haligned
        · exact hcontrol
        · intro he
          exact if_pos he
      · exact .empty
    · constructor
      · intro hf
        cases hf
      · exact fun _ => haligned
      · exact hcontrol
      · exact fun _ => rfl

/-- It is proper in every reachable state. -/
theorem Reachable.memWb_proper (h : Reachable P c) (hP : Word.Aligned P.resetVector) :
    c.memWbQ.Proper := by
  refine h.holds (I := fun c => c.memWbQ.Proper) (fun c i hrst => ?_) fun c i hc _ => ?_
  · rw [(edge_reset P c hrst).memWb]
    exact .empty
  · rcases next_memWbQ P c i with hw | hw
    · rw [hw]
      exact .empty
    · rw [hw]
      exact memWbD_proper (hc.packetsAligned hP).packets

/-! ### The assertions -/

/-- The slot of the trace port is never held: it is loaded or cleared in every cycle. -/
theorem memWb_not_held (c : Core) (i : CoreIn) :
    (c.ctrl i).memWbEnable = true ∨ (c.ctrl i).memWbFlush = true := by
  rw [ctrl, PipelineCtrl.out]
  cases PipelineCtrl.action c.trapDrainQ (c.ctrlIn i) <;> simp [PipelineCtrl.table]

/-- The assertions on retirement follow. -/
theorem retirementSva (hw : c.memWbQ.Proper) : RetirementSva c i where
  commitSlotNeverRetiresWhileHeld _ := memWb_not_held c i
  trapHasNoSideEffect ht := by
    have ht : c.memWbQ.trap = true := ht
    simp only [MemWb.trap, Bool.and_eq_true] at ht
    refine ⟨ht.1, ?_, hw.strobes ht.2⟩
    simp [MemWb.event, MemWb.writesReg, MemWb.retire, ht.2]
  gprWriteIsLegalRetirement hr := by
    have hr : c.memWbQ.writesReg = true := hr
    simp only [MemWb.writesReg, MemWb.retire, Bool.and_eq_true, Bool.not_eq_true',
      bne_iff_ne] at hr
    obtain ⟨⟨⟨hv, he⟩, -⟩, hrd⟩ := hr
    exact ⟨hv, by simp [MemWb.event, MemWb.trap, he], hrd⟩
  storeIsLegalRetirement hs := by
    have hv : c.memWbQ.valid = true := by
      by_contra hv
      rw [hw.bubble (by simpa using hv)] at hs
      exact hs rfl
    have he : c.memWbQ.exc.valid = false := by
      by_contra he
      exact hs (hw.strobes (by simpa using he))
    exact ⟨hv, by simp [MemWb.event, MemWb.trap, he]⟩
  invalidSlotHasNoEvent hv := by
    rw [hw.bubble hv]
    exact ⟨rfl, rfl, rfl, rfl, rfl⟩
  nontrapCauseIsZero _ ht := by
    have ht : c.memWbQ.trap = false := ht
    simp [MemWb.event, ht]
  controlMetadataIsConsistent ht := by
    have ht : (c.memWbQ.retire && c.memWbQ.controlTaken) = true := ht
    simp only [MemWb.retire, Bool.and_eq_true, Bool.not_eq_true'] at ht
    obtain ⟨⟨hv, he⟩, htaken⟩ := ht
    refine ⟨hv, ?_, by simp [MemWb.event, MemWb.trap, he]⟩
    simp [MemWb.event, MemWb.retire, hv, he, hw.control htaken]
  retirementPcIsAligned hv := hw.aligned hv

/-- Only the arbitration of the timer makes an interrupt packet. -/
theorem FetchClean.candidate (h : FetchClean c) (hi : c.idInterrupt i = true) :
    c.idInterruptCandidate i = true := by
  by_contra hc
  have hd : c.idExD i = c.idExDecoded := if_neg hc
  rw [Core.idInterrupt, hd, idExDecoded] at hi
  cases hv : c.ifIdQ.valid with
  | false => simp [idStage, IdStage.packet, hv] at hi
  | true =>
    rw [idStage, IdStage.packet_exc hv, isInterrupt_exc (h.packets.ifId hv)] at hi
    simp at hi

/-- So do those on interrupts. -/
theorem interruptSva (h : FetchClean c) (hrst : i.rst = false) : InterruptSva P c i where
  candidateRequiresEffectiveEligibility hc := by
    simp only [idInterruptCandidate, Bool.and_eq_true, Bool.not_eq_true'] at hc
    obtain ⟨⟨⟨⟨⟨-, hdrain⟩, hirq⟩, hwait⟩, -⟩, -⟩ := hc
    exact ⟨hirq, hwait, hdrain⟩
  enableCommitBuildsImmediateCandidate _ _ hafter hv he hwait hdrain := by
    rw [idExDecoded_valid] at hv
    simp [idInterruptCandidate, irqEligible, hrst, hafter, hv, he, hwait, hdrain]
  interruptEventOriginatesFromCandidate := h.candidate
  acceptedInterruptBuildsPrecisePacket hi henable hflush := by
    have hd : c.idExD i = IdEx.interrupt c.idExDecoded.pc := if_pos (h.candidate hi)
    have hnext : (c.next P i).idExQ = IdEx.interrupt c.idExDecoded.pc := by
      simp [next, pipeReg, hrst, hflush, henable, hd]
    rw [hnext]
    exact ⟨rfl, rfl, rfl, rfl, rfl, rfl, rfl, rfl⟩

/-- The assertions bound to the core hold in every cycle without reset, whatever was before. -/
theorem assertions_hold (h : Reachable P c) (hP : Word.Aligned P.resetVector)
    (hrst : i.rst = false) : RetirementSva c i ∧ InterruptSva P c i :=
  ⟨retirementSva (h.memWb_proper hP), interruptSva h.fetchClean hrst⟩

/-- A store that the data port refuses. -/
theorem assertions_hold_storeFault :
    let c := (circuit {}).exec (boot {}) [fetches 0x00002423#32, {}, {}, {},
      { dmem := { reqReady := true } }, { dmem := { rspValid := true, rspErr := true } }]
    (c.memWbQ.event.trap = true ∧ c.memWbQ.event.cause = 7#5) ∧
      RetirementSva c {} ∧ InterruptSva {} c {} :=
  ⟨by decide +kernel, assertions_hold ((reachable_boot {}).exec _) (by decide) rfl⟩

end Core

end Rv32im

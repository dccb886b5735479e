import Rv32im.Core.Cycle

/-!
# What the stages hand over

The packet each stage offers to its pipeline register, by the cases that matter to the
invariants: bubbles stay bubbles, exceptions are kept, and a packet that leaves EX without a
redirect continues at the next instruction.

* `IdEx.trap`, `ExMem.trap`, `MemWb.trap`: the slot holds a trap packet;
* `Core.exPacket`: the EX/MEM packet of the instruction in ID/EX;
* `Core.memWbD_trap`, `Core.Fires.exMemD_trap`, `Core.idExD_of_not_valid`.
-/

namespace Rv32im

/-- The slot holds a valid packet with an exception. -/
def IdEx.trap (d : IdEx) : Bool := d.valid && d.exc.valid

@[inherit_doc IdEx.trap]
def ExMem.trap (x : ExMem) : Bool := x.valid && x.exc.valid

@[simp] theorem IdEx.trap_bubble : IdEx.trap {} = false := rfl

@[simp] theorem ExMem.trap_bubble : ExMem.trap {} = false := rfl

@[simp] theorem MemWb.trap_bubble : MemWb.trap {} = false := rfl

theorem IdEx.trap_of_not_valid {d : IdEx} (h : d.valid = false) : d.trap = false := by
  simp [IdEx.trap, h]

section Refresh

variable (d : IdEx) (we : Bool) (rd : RegAddr) (v : Word)

/-- A refresh changes the operand values only. -/
theorem IdEx.refresh_eq : ∃ a b, d.refresh we rd v = { d with rs1Value := a, rs2Value := b } := by
  unfold refresh
  split
  · exact ⟨_, _, rfl⟩
  · exact ⟨_, _, rfl⟩

/-- A packet without operands is not changed by a refresh. -/
theorem IdEx.refresh_of_not_uses (h₁ : d.ctrl.usesRs1 = false) (h₂ : d.ctrl.usesRs2 = false) :
    d.refresh we rd v = d := by
  unfold refresh
  split <;> simp [h₁, h₂]

@[simp] theorem IdEx.refresh_valid : (d.refresh we rd v).valid = d.valid := by
  unfold refresh; split <;> rfl

@[simp] theorem IdEx.refresh_pc : (d.refresh we rd v).pc = d.pc := by
  unfold refresh; split <;> rfl

@[simp] theorem IdEx.refresh_insn : (d.refresh we rd v).insn = d.insn := by
  unfold refresh; split <;> rfl

@[simp] theorem IdEx.refresh_rs1 : (d.refresh we rd v).rs1 = d.rs1 := by
  unfold refresh; split <;> rfl

@[simp] theorem IdEx.refresh_rs2 : (d.refresh we rd v).rs2 = d.rs2 := by
  unfold refresh; split <;> rfl

@[simp] theorem IdEx.refresh_ctrl : (d.refresh we rd v).ctrl = d.ctrl := by
  unfold refresh; split <;> rfl

@[simp] theorem IdEx.refresh_exc : (d.refresh we rd v).exc = d.exc := by
  unfold refresh; split <;> rfl

@[simp] theorem IdEx.refresh_trap : (d.refresh we rd v).trap = d.trap := by
  simp [IdEx.trap]

end Refresh

theorem ExMem.valid_of_isMemory {x : ExMem} (h : x.isMemory = true) :
    x.valid = true := by
  simp only [ExMem.isMemory, Bool.and_eq_true] at h
  exact h.1.1

theorem ExMem.exc_of_isMemory {x : ExMem} (h : x.isMemory = true) : x.exc.valid = false := by
  simp only [ExMem.isMemory, Bool.and_eq_true] at h
  simpa using h.1.2

/-- A memory operation is no trap packet. -/
theorem ExMem.trap_of_isMemory {x : ExMem} (h : x.isMemory = true) : x.trap = false := by
  simp [ExMem.trap, ExMem.exc_of_isMemory h]

/-- The command of a memory operation. -/
theorem ExMem.memCmd_of_isMemory {x : ExMem} (h : x.isMemory = true) :
    x.memCmd = .load ∨ x.memCmd = .store := by
  simp only [ExMem.isMemory, Bool.and_eq_true] at h
  simpa using h.2

namespace Core

variable {P : CoreParams} {c : Core} {i : CoreIn}

/-! ### Decode -/

@[simp] theorem idExDecoded_valid : c.idExDecoded.valid = c.ifIdQ.valid := IdStage.packet_valid

/-- Nothing to decode: no packet, and no interrupt either. -/
theorem idExD_of_not_valid (h : c.ifIdQ.valid = false) : c.idExD i = {} := by
  have hcand : c.idInterruptCandidate i = false := by simp [idInterruptCandidate, h]
  simp only [idExD, hcand, Bool.false_eq_true, if_false]
  exact IdStage.packet_of_not_valid h

@[simp] theorem idExD_valid : (c.idExD i).valid = c.ifIdQ.valid := by
  unfold idExD
  split
  next h =>
    simp only [idInterruptCandidate, Bool.and_eq_true, idExDecoded_valid] at h
    exact h.1.2.symm
  next => exact idExDecoded_valid

/-- The packet keeps the address of the instruction it comes from. -/
theorem idExD_pc (h : c.ifIdQ.valid = true) : (c.idExD i).pc = c.ifIdQ.pc := by
  have hpc : c.idExDecoded.pc = c.ifIdQ.pc := by
    simp [idExDecoded, idStage, IdStage.packet, h]
  unfold idExD
  split
  · exact hpc
  · exact hpc

/-! ### Execute -/

/-- The EX/MEM packet of the instruction in ID/EX. -/
def exPacket (c : Core) (i : CoreIn) : ExMem :=
  ExStage.packet c.idExQ (ExStage.forwardedRs1 (c.exIn i)) (ExStage.forwardedRs2 (c.exIn i))
    (c.exIn i).csrRdata c.csrFile.mepcQ (c.exIn i).csrAccessIllegal
    (ExStage.mduResult (c.exIn i))

/-- EX hands over its packet, or a bubble. -/
theorem exMemD_eq : c.exMemD i = if ExStage.resultValid (c.exIn i) then c.exPacket i else {} := rfl

@[simp] theorem exMemD_valid : (c.exMemD i).valid = ExStage.resultValid (c.exIn i) := by
  rw [exMemD_eq]
  split <;> simp_all [exPacket]

/-- EX/MEM takes the address from ID/EX. -/
theorem exMemD_pc (hv : (c.exMemD i).valid = true) : (c.exMemD i).pc = c.idExQ.pc := by
  rw [exMemD_valid] at hv
  rw [exMemD_eq, if_pos hv]
  rfl

/-- Only a valid packet has a result. -/
theorem valid_of_resultValid (h : ExStage.resultValid (c.exIn i) = true) :
    c.idExQ.valid = true := by
  simp only [ExStage.resultValid, ExStage.active, Bool.and_eq_true] at h
  exact h.1.1.1

/-- EX fires when it has a result and may hand it over. -/
theorem exFire_eq : c.exFire i = (ExStage.resultValid (c.exIn i) && c.exResultReady i) := rfl

namespace Ready

theorem exResultReady (h : Ready c i) : c.exResultReady i = true := by
  simp [Core.exResultReady, h.trap, h.memWait, h.memException]

theorem exKill (h : Ready c i) : c.exKill i = false := by
  simp [Core.exKill, h.trap, h.memException]

theorem exActive (h : Ready c i) : c.exActive i = c.idExQ.valid := by
  simp [Core.exActive, h.rst, h.exKill]

theorem active (h : Ready c i) : ExStage.active (c.exIn i) = c.idExQ.valid := h.exActive

/-- EX fires when it has a result. -/
theorem exFire (h : Ready c i) : c.exFire i = ExStage.resultValid (c.exIn i) := by
  rw [exFire_eq, h.exResultReady, Bool.and_true]

end Ready

namespace Fires

/-- An instruction in EX has its result. -/
theorem resultValid (h : Fires c i) : ExStage.resultValid (c.exIn i) = c.idExQ.valid := by
  have hwait := h.exWait
  have hfire : ExStage.exFire (c.exIn i) = _ := h.toReady.exFire
  rw [ExStage.wait, hfire, h.toReady.active] at hwait
  cases hv : c.idExQ.valid with
  | false => simp [ExStage.resultValid, h.toReady.active, hv]
  | true => simpa [hv] using hwait

theorem exFire (h : Fires c i) : c.exFire i = c.idExQ.valid := by
  rw [h.toReady.exFire, h.resultValid]

/-- EX/MEM receives the packet of the instruction in ID/EX, or a bubble. -/
theorem exMemD (h : Fires c i) : c.exMemD i = if c.idExQ.valid then c.exPacket i else {} := by
  rw [exMemD_eq, h.resultValid]

/-- The packet is an exception only if it already was in ID/EX. -/
theorem exMemD_exc (h : Fires c i) (he : (c.exMemD i).exc.valid = true) :
    c.idExQ.valid = true ∧ c.idExQ.exc.valid = true := by
  have hexc := h.exException
  cases hv : c.idExQ.valid with
  | false => simp [h.exMemD, hv] at he
  | true => simpa [Core.exException, h.resultValid, hv, he, h.toReady.exResultReady] using hexc

theorem exMemD_trap (h : Fires c i) : (c.exMemD i).trap = c.idExQ.trap := by
  cases hv : c.idExQ.valid with
  | false => simp [ExMem.trap, IdEx.trap, h.exMemD, hv]
  | true =>
    simp only [ExMem.trap, IdEx.trap, exMemD_valid, h.resultValid, hv, Bool.true_and]
    cases he : c.idExQ.exc.valid with
    | false =>
      by_contra hne
      have := (h.exMemD_exc (by simpa using hne)).2
      simp_all
    | true => simp [h.exMemD, hv, exPacket, ExStage.exc_of_exc he, he]

end Fires

/-- A new exception in EX: the packet in ID/EX was none. -/
theorem exException_iff : c.exException i = true ↔
    ExStage.resultValid (c.exIn i) = true ∧ (c.exPacket i).exc.valid = true ∧
      c.idExQ.exc.valid = false ∧ c.exResultReady i = true := by
  unfold exException
  rw [exMemD_eq]
  cases ExStage.resultValid (c.exIn i) <;> simp [and_assoc]

/-- The redirect of EX, unfolded. -/
theorem controlRedirect_eq : c.controlRedirect i =
    if c.exFire i && ExStage.isControl c.idExQ && (c.exPacket i).controlTaken
        && !(c.exMemD i).exc.valid then
      { valid := true, target := (c.exPacket i).controlTarget }
    else {} := rfl

/-- A redirect comes from the packet that leaves EX, which takes a transfer without
exception. -/
theorem of_controlRedirect (h : (c.controlRedirect i).valid = true) :
    c.exFire i = true ∧ c.exMemD i = c.exPacket i ∧ (c.exPacket i).controlTaken = true ∧
      (c.exPacket i).exc.valid = false ∧
      (c.controlRedirect i).target = (c.exPacket i).controlTarget := by
  rw [controlRedirect_eq] at h ⊢
  split at h
  next hc =>
    simp only [Bool.and_eq_true, Bool.not_eq_true', exFire_eq] at hc
    obtain ⟨⟨⟨⟨hr, hready⟩, hctl⟩, htaken⟩, hexc⟩ := hc
    have hx : c.exMemD i = c.exPacket i := by rw [exMemD_eq, if_pos hr]
    rw [hx] at hexc
    simp [exFire_eq, hr, hready, hctl, htaken, hexc, hx]
  next => simp at h

/-- Without a redirect, the packet that leaves EX without exception takes no transfer. -/
theorem Fires.controlTaken (hf : Fires c i) (h : (c.controlRedirect i).valid = false)
    (hv : c.idExQ.valid = true) (hexc : (c.exPacket i).exc.valid = false) :
    (c.exPacket i).controlTaken = false := by
  rw [controlRedirect_eq, hf.exFire, hv, hf.exMemD, if_pos hv, hexc] at h
  by_contra htaken
  have htaken : (c.exPacket i).controlTaken = true := by simpa using htaken
  have hctl : ExStage.isControl c.idExQ = true := ExStage.isControl_of_controlTaken htaken
  simp [hctl, htaken] at h

/-- An exception packet redirects nothing. -/
theorem controlRedirect_of_not_valid (h : c.idExQ.valid = true → c.idExQ.exc.valid = true) :
    (c.controlRedirect i).valid = false := by
  by_contra hne
  obtain ⟨hfire, -, -, hexc, -⟩ := of_controlRedirect (Bool.not_eq_false _ ▸ hne)
  rw [exFire_eq, Bool.and_eq_true] at hfire
  have he := h (valid_of_resultValid hfire.1)
  have hkept : (c.exPacket i).exc = c.idExQ.exc := ExStage.exc_of_exc he
  simp [hkept, he] at hexc

/-! ### Memory -/

/-- A memory fault is that of an access that is answered. -/
theorem memException_iff : c.memException i = true ↔
    c.exMemQ.isMemory = true ∧ c.lsuRspValid i = true ∧
      (c.lsu.exception (c.lsuIn i)).valid = true := by
  simp [memException, and_assoc]

@[simp] theorem memWbD_valid : (c.memWbD i).valid = (c.exMemQ.valid && !c.memWait i) := by
  unfold memWbD memWait
  cases hv : c.exMemQ.valid <;> cases hm : c.exMemQ.isMemory <;> cases hr : c.lsuRspValid i <;>
    simp_all [ExMem.accessPacket, ExMem.localPacket]

/-- MEM/WB takes the instruction from EX/MEM. -/
theorem memWbD_pc (hv : (c.memWbD i).valid = true) :
    (c.memWbD i).pc = c.exMemQ.pc ∧ (c.memWbD i).insn = c.exMemQ.insn := by
  unfold memWbD at hv ⊢
  split at hv
  · split at hv
    · split at hv
      · simp_all [ExMem.accessPacket]
      · simp at hv
    · simp_all [ExMem.localPacket]
  · simp at hv

/-- MEM/WB receives a trap packet that EX/MEM held, or one for a fault of the access. -/
theorem memWbD_trap : (c.memWbD i).trap = (c.exMemQ.trap || c.memException i) := by
  unfold memWbD memException
  cases hv : c.exMemQ.valid with
  | false => simp [MemWb.trap, ExMem.trap, hv, ExMem.isMemory]
  | true =>
    cases hm : c.exMemQ.isMemory with
    | false => simp [MemWb.trap, ExMem.trap, hv, ExMem.localPacket]
    | true =>
      cases hr : c.lsuRspValid i <;>
        simp [MemWb.trap, ExMem.trap_of_isMemory hm, ExMem.accessPacket]

/-- A trap packet in MEM/WB has no side effect. -/
theorem memWbD_of_trap (h : (c.memWbD i).exc.valid = true) :
    (c.memWbD i).regWrite = false ∧ (c.memWbD i).csrWrite = false ∧
      (c.memWbD i).isMret = false ∧ (c.memWbD i).memWrite = false := by
  unfold memWbD at h ⊢
  split at h
  · split at h
    · split at h
      · simp_all [ExMem.accessPacket]
      · simp at h
    · simp_all [ExMem.localPacket]
  · simp at h

/-- No access is outstanding: MEM hands over what EX/MEM holds. -/
theorem memWbD_of_not_isMemory (h : c.exMemQ.isMemory = false) :
    c.memWbD i = if c.exMemQ.valid then c.exMemQ.localPacket else {} := by
  simp [memWbD, h]

end Core

end Rv32im

import Rv32im.Datapath.Execute
import Rv32im.Sequential.Commits
import Rv32im.Sequential.Runs
import Rv32im.Units.MduService

/-!
# The core as a RISC-V hart

Each step of the sequential machine is a step of a hart: the fetch fault, the illegal word, each
instruction and the timer interrupt. So every run of the core from a reset is one of the hart.

* `Seq.does_effects`: the packet with the effects that EX hands on;
* `Seq.does_outcome`, `Seq.does_instr`: the instructions;
* `Seq.step_hart`, `Seq.path_hart`: the steps and runs of the machine;
* `System.executes_isa`: the runs of the core.
-/

namespace Rv32im

open Clocked Riscv

namespace Seq

variable {E : Env} {S S' : Seq} {o : Observation}

/-! ### Instructions -/

/-- What EX hands on for a fetched instruction. -/
structure Handed (E : Env) (S : Seq) (o : Observation) : Prop where
  pc : (S.execute E o).pc = S.pc
  isInterrupt : (S.execute E o).exc.isInterrupt = false
  /-- A transfer that is taken is a transfer. -/
  control : (S.execute E o).control = false → (S.execute E o).controlTaken = false
  /-- A load writes a register. -/
  load : (S.execute E o).memCmd = .load → (S.execute E o).regWrite = true

/-- EX attaches no interrupt. -/
theorem execute_isInterrupt : (S.execute E o).exc.isInterrupt = (S.decode E).exc.isInterrupt := by
  show (ExStage.exc ..).isInterrupt = _
  unfold ExStage.exc
  split_ifs <;> rfl

theorem fetch_valid (E : Env) (S : Seq) : (S.fetch E).valid = true := rfl

/-- ID attaches no interrupt. -/
theorem decode_isInterrupt : (S.decode E).exc.isInterrupt = false := by
  rw [decode, idStage, IdStage.packet_exc (fetch_valid E S)]
  unfold IdStage.exc fetch IfId.fetched
  split_ifs <;> rfl

/-- The machine decodes as the hart does. -/
theorem handed (E : Env) (S : Seq) (o : Observation) : Handed E S o where
  pc := by
    show (S.decode E).pc = S.pc
    simp [decode, idStage, IdStage.packet, fetch_valid]
    rfl
  isInterrupt := execute_isInterrupt.trans decode_isInterrupt
  control h := by
    by_contra hne
    have ht : (S.execute E o).controlTaken = true := by simpa using hne
    have hc : (S.execute E o).control = true := ExStage.isControl_of_controlTaken ht
    simp [h] at hc
  load h := by
    have hd : (S.decode E).Decoded (fun _ => True) := .idStage trivial (fetch_valid E S) ..
    have hx : (S.execute E o).Executed (fun _ => True) :=
      ⟨_, _, _, _, _, _, _, hd, by simp [decode, idStage, fetch_valid], fun hu => hd.rs2 hu, rfl⟩
    exact (hx.load h).2.1

section Effects

variable {e : Effects}

/-- An exception among the effects. -/
theorem does_effects_trap (hq : S.csr.Wf) (hx : (S.execute E o).acceptedEffects = e)
    {x : Riscv.Exception} {tval : Word} (hexc : e.exc = some (x.code, tval)) :
    S.Does E o (.trap x tval S.requests) := by
  have h := handed E S o
  refine does_trap hq h.pc ?_
  rw [← hx] at hexc
  have hint := h.isInterrupt
  simp only [ExMem.acceptedEffects, ExMem.effects] at hexc
  split at hexc
  next hv =>
    obtain ⟨hc, ht⟩ : (S.execute E o).exc.cause = x.code ∧ (S.execute E o).exc.tval = tval := by
      simpa using hexc
    rw [← hc, ← ht, ← hv, ← hint]
  next => contradiction

/-- Where the effects let the next instruction be. -/
def nextPc (e : Effects) (pc : Word) : Word :=
  match e.control with
  | some (true, target) => target
  | _ => pc

/-- Effects without exception and without access. -/
theorem does_effects (hx : (S.execute E o).acceptedEffects = e) (hexc : e.exc = none)
    (hl : e.load = none) (hs : e.store = none) {csrs : Csrs}
    (hcsrs : (S.csr.next (S.execute E o).localPacket.commit).csrs = csrs) :
    S.Does E o (.retire (nextPc e (S.pc + 4#32)) e.rd csrs [] S.requests) := by
  have h := handed E S o
  subst hx
  simp only [ExMem.acceptedEffects, ExMem.effects] at hexc hl hs
  have hload : (S.execute E o).memCmd ≠ .load := fun hm => by
    simp [hm, h.load hm] at hl
  refine does_local h.pc ?_ hload ?_ ?_ ?_ hcsrs
  · split at hexc
    next => contradiction
    next hv => simpa using hv
  · intro hm
    simp [hm] at hs
  · simp only [nextPc, ExMem.acceptedEffects, ExMem.effects]
    cases hc : (S.execute E o).control with
    | false => simp [h.control hc]
    | true => cases (S.execute E o).controlTaken <;> rfl
  · simp [ExMem.acceptedEffects, ExMem.effects, hload]

/-- Nor a CSR write. -/
theorem does_effects_counted (hx : (S.execute E o).acceptedEffects = e) (hexc : e.exc = none)
    (hl : e.load = none) (hs : e.store = none) (hc : e.csr = none) (hm : e.mret = false) :
    S.Does E o
      (.retire (nextPc e (S.pc + 4#32)) e.rd S.hart.csrs.counted [] S.requests) := by
  refine does_effects hx hexc hl hs ?_
  subst hx
  simp only [ExMem.acceptedEffects, ExMem.effects] at hexc hc hm
  refine csrs_localPacket _ ?_ ?_ hm
  · split at hexc
    next => contradiction
    next hv => simpa using hv
  · split at hc
    next => contradiction
    next hw => simpa using hw

end Effects

section Outcome

variable {n : Instr} {out : Outcome}

/-- EX hands on the effects of the outcome. -/
theorem effects_execute (hf : E.bus.fetch S.requests S.pc = some n.encode)
    (ho : n.outcome S.pc (S.hart.reg n.rs1) (S.hart.reg n.rs2)
      ((S.csrRead o).rdata o.mtipEx (ExStage.csrRaddr true (S.decode E))) = some out) :
    (S.execute E o).acceptedEffects =
      if out.isCsr && CsrFile.accessIllegal (ExStage.csrRaddr true (S.decode E))
          (S.decode E).ctrl.csrCmd (ExStage.csrAccessWrite true (S.decode E)) then
        { exc := some (excIllegalInsn, n.encode) }
      else .of out := by
  have he : n ≠ .ecall := by rintro rfl; simp [Instr.outcome] at ho
  have hb : n ≠ .ebreak := by rintro rfl; simp [Instr.outcome] at ho
  have hd := decode_encode hf he hb
  have hv₁ : n.readsRs1 = true → (S.decode E).rs1Value = S.hart.reg n.rs1 := fun h => by
    rw [hd]
    simp [h]
  have hv₂ : n.readsRs2 = true → (S.decode E).rs2Value = S.hart.reg n.rs2 := fun h => by
    rw [hd]
    simp [h]
  have hp : S.decode E = IdStage.packet { valid := true, pc := S.pc, insn := n.encode }
      (S.decode E).rs1Value (S.decode E).rs2Value := by
    rw [hd, IdStage.packet, exc_encode he hb, decoder_encode]
    simp
  have hx (mepc mdu : Word) (illegal : Bool) :=
    @effects_packet _ _ _ _ _ _ _ _ mepc mdu illegal ho hv₁ hv₂ (S.decode E).rs1Value
      (S.decode E).rs2Value
  simp only [← hp] at hx
  exact hx _ _ _

/-- The CSR value that an outcome depends on. -/
theorem outcome_csrRead (hq : S.csr.Wf) (hf : E.bus.fetch S.requests S.pc = some n.encode)
    (hcount : S.Counts E o) (a b : Word) :
    n.outcome S.pc a b ((S.csrRead o).rdata o.mtipEx (ExStage.csrRaddr true (S.decode E))) =
      n.outcome S.pc a b (S.hart.csrs.value o.inputs n.csrNum) := by
  have hread (he : n ≠ .ecall) (hb : n ≠ .ebreak) (hc : (ctrlOf n).csrCmd ≠ .none) :
      (S.csrRead o).rdata o.mtipEx (ExStage.csrRaddr true (S.decode E)) =
        S.hart.csrs.value o.inputs (csrField n.encode) := by
    have hd := decode_encode hf he hb
    have hcsr : ExStage.isCsr (S.decode E) = true := by
      rw [hd]
      simp [ExStage.isCsr, hc]
    have hinsn : (S.decode E).insn = n.encode := by rw [hd]
    have hwf : (S.csrRead o).Wf := ⟨hq.mstatus, hq.mie, hq.mtvec, hq.mepc⟩
    rw [ExStage.csrRaddr, if_pos (by simp [hcsr]), hinsn]
    refine CsrFile.rdata_eq_value hwf o.inputs _ fun ha => ?_
    exact (hcount (by simp [readsMcycle, hcsr, hinsn, ha])).symm
  cases n with
  | csr op rd rs1 num =>
    rw [hread (by simp) (by simp) (by cases op <;> simp [ctrlOf, csrCmdOf])]
    simp [Instr.encode, Instr.csrNum]
  | csrImm op rd zimm num =>
    rw [hread (by simp) (by simp) (by cases op <;> simp [ctrlOf, csrImmCmdOf])]
    simp [Instr.encode, Instr.csrNum]
  | _ => rfl

/-- A jump or a taken branch. -/
theorem does_jump (hq : S.csr.Wf) {target : Word} {link : Option (RegAddr × Word)}
    (hx : (S.execute E o).acceptedEffects = .transfer true target link) :
    S.Does E o (S.hart.jump target link) := by
  by_cases ha : target.toNat % 4 = 0
  · rw [Effects.transfer, if_neg (by simp [ha])] at hx
    have hd := does_effects_counted hx rfl rfl rfl rfl rfl
    rw [Hart.jump, if_neg (by simp [ha])]
    exact hd
  · rw [Effects.transfer, if_pos ⟨rfl, ha⟩] at hx
    rw [Hart.jump, if_pos ha]
    exact does_effects_trap hq hx (x := .instMisaligned) rfl

/-- The packet of an access among the effects. -/
theorem accesses_of_effects {e : Effects} (hx : (S.execute E o).acceptedEffects = e)
    (hexc : e.exc = none) (hc : e.control = none)
    (hm : Lsu.isMemory (S.execute E o).memCmd = true) :
    Accesses (S.execute E o) S (S.execute E o).memCmd (S.execute E o).memSize
      (S.execute E o).exResult := by
  have h := handed E S o
  subst hx
  simp only [ExMem.acceptedEffects, ExMem.effects] at hexc hc
  refine ⟨rfl, h.pc, ?_, h.control ?_, rfl, hm, rfl, rfl⟩
  · split at hexc
    next => contradiction
    next hv => simpa using hv
  · split at hc
    next => contradiction
    next hv => simpa using hv

/-- The access of a CSR instruction, as the CSR file sees it. -/
theorem access_of_outcome {rd : RegAddr} {old a b v : Word} {num : CsrAddr}
    {new : Option Word} (hf : E.bus.fetch S.requests S.pc = some n.encode)
    (ho : n.outcome S.pc a b v = some (.csr rd old num new)) :
    (S.decode E).ctrl.csrCmd ≠ .none ∧ ExStage.csrRaddr true (S.decode E) = num ∧
      CsrFile.accessWrites (S.decode E).ctrl.csrCmd (ExStage.csrAccessWrite true (S.decode E)) =
        new.isSome := by
  cases n with
  | csr op rd rs1 num =>
    obtain ⟨-, -, rfl, rfl⟩ : _ ∧ _ ∧ _ ∧ _ := by simpa [Instr.outcome] using ho
    rw [decode_encode hf (by simp) (by simp)]
    -- the set and clear forms write unless their field is zero
    cases op <;> by_cases hz : rs1 = 0#5 <;> simp [ctrlOf, csrCmdOf, ExStage.csrRaddr,
      ExStage.csrAccessWrite, ExStage.isCsr, ExStage.csrWrite, CsrFile.accessWrites, Instr.encode,
      CsrOp.writes, hz]
  | csrImm op rd zimm num =>
    obtain ⟨-, -, rfl, rfl⟩ : _ ∧ _ ∧ _ ∧ _ := by simpa [Instr.outcome] using ho
    rw [decode_encode hf (by simp) (by simp)]
    cases op <;> by_cases hz : zimm = 0#5 <;> simp [ctrlOf, csrImmCmdOf, ExStage.csrRaddr,
      ExStage.csrAccessWrite, ExStage.isCsr, ExStage.csrWrite, CsrFile.accessWrites, Instr.encode,
      CsrOp.writes, hz]
  | _ => simp [Instr.outcome] at ho

/-- A CSR instruction. -/
theorem does_access (hq : S.csr.Wf) {rd : RegAddr} {old insn : Word} {num : CsrAddr}
    {new : Option Word} {illegal : Bool}
    (hill : illegal = ((Csr.ofNum num).isNone || (new.isSome && (Csr.ofNum num).any Csr.readOnly)))
    (hx : (S.execute E o).acceptedEffects = if illegal then { exc := some (excIllegalInsn, insn) }
      else { rd := some (rd, old), csr := new.map fun v => (num, v) }) :
    S.Does E o (S.hart.access insn rd old num new) := by
  unfold Hart.access
  cases hr : Csr.ofNum num with
  | none =>
    rw [hr] at hill
    rw [if_pos (by simp [hill])] at hx
    exact does_effects_trap hq hx (x := .illegal) rfl
  | some r =>
    have hnum := Csr.num_of_ofNum hr
    rw [hr] at hill
    cases new with
    | none =>
      rw [if_neg (by simp [hill])] at hx
      exact does_effects_counted hx rfl rfl rfl rfl rfl
    | some v =>
      cases hro : r.readOnly with
      | true =>
        rw [if_pos (by simp [hill, hro])] at hx
        simp only [hro, if_true]
        exact does_effects_trap hq hx (x := .illegal) rfl
      | false =>
        rw [if_neg (by simp [hill, hro])] at hx
        simp only [hro, Bool.false_eq_true, if_false]
        refine does_effects hx rfl rfl rfl ?_
        -- the write is the one that the packet carries
        have hc : (S.execute E o).acceptedEffects.csr = some (num, v) := by
          rw [hx]
          rfl
        have hexc : (S.execute E o).acceptedEffects.exc = none := by rw [hx]
        have hm : (S.execute E o).acceptedEffects.mret = false := by rw [hx]
        simp only [ExMem.acceptedEffects, ExMem.effects] at hc hexc hm
        split at hc
        next hw =>
          obtain ⟨ha, hv⟩ : (S.execute E o).csrAddr = num ∧ (S.execute E o).csrWdata = v := by
            simpa using hc
          rw [csrs_localPacket_written _ (by simpa using hexc) hw hm (ha.trans hnum.symm), hv]
          rfl
        next => contradiction

/-- An instruction with an outcome. -/
theorem does_outcome (hq : S.csr.Wf) (hf : E.bus.fetch S.requests S.pc = some n.encode)
    (hcount : S.Counts E o)
    (ho : n.outcome S.pc (S.hart.reg n.rs1) (S.hart.reg n.rs2)
      (S.hart.csrs.value o.inputs n.csrNum) = some out) :
    S.Does E o (out.result E.bus S.hart n.encode) := by
  -- EX accepts the effects of the outcome, whatever it is
  have hx := effects_execute (o := o) hf (by rw [outcome_csrRead hq hf hcount, ho])
  cases out with
  | value rd v => exact does_effects_counted hx rfl rfl rfl rfl rfl
  | branch taken target =>
    cases taken with
    | false => exact does_effects_counted hx rfl rfl rfl rfl rfl
    | true => exact does_jump hq hx
  | jump rd link target => exact does_jump hq hx
  | load rd a k signed =>
    have hl : (S.execute E o).acceptedEffects.load = some (rd, a, k, signed) := by
      rw [hx]
      rfl
    -- they tell the command, the address and the size that EX hands over
    simp only [ExMem.acceptedEffects, ExMem.effects] at hl
    split at hl
    next hm =>
      simp only [Bool.and_eq_true, beq_iff_eq] at hm
      simp only [Option.some.injEq, Prod.mk.injEq] at hl
      obtain ⟨hrd, ha, hk, hsigned⟩ := hl
      have hacc := accesses_of_effects hx rfl rfl (by rw [hm.2]; rfl)
      rw [hm.2, ha] at hacc
      subst hk
      exact does_load hq hacc hm.1 hrd (by simp [← hsigned])
    next => contradiction
  | store a k v =>
    have hs : (S.execute E o).acceptedEffects.store = some (a, k, v) := by
      rw [hx]
      rfl
    have hr : (S.execute E o).acceptedEffects.rd = none := by
      rw [hx]
      rfl
    simp only [ExMem.acceptedEffects, ExMem.effects] at hs hr
    split at hs
    next hm =>
      rw [beq_iff_eq] at hm
      simp only [Option.some.injEq, Prod.mk.injEq] at hs
      obtain ⟨ha, hk, hv⟩ := hs
      have hacc := accesses_of_effects hx rfl rfl (by rw [hm]; rfl)
      rw [hm, ha] at hacc
      subst hk
      refine does_store hq hacc ?_ hv
      simpa [hm] using hr
    next => contradiction
  | csr rd old num new =>
    -- EX has the same address and write enable for the check of the access
    obtain ⟨hcmd, haddr, hwrites⟩ := access_of_outcome hf ho
    rw [CsrFile.accessIllegal_eq hcmd, hwrites, haddr] at hx
    exact does_access hq rfl hx

end Outcome

section Others

variable {n : Instr}

/-- An exception found before EX. -/
theorem does_idTrap (hq : S.csr.Wf) {x : Riscv.Exception} {tval : Word}
    (h : IdStage.exc (S.fetch E) =
      { valid := true, isInterrupt := false, cause := x.code, tval := tval }) :
    S.Does E o (.trap x tval S.requests) := by
  refine does_trap hq (handed E S o).pc ?_
  have hd : (S.decode E).exc = IdStage.exc (S.fetch E) := IdStage.packet_exc (fetch_valid E S)
  have hx : (S.execute E o).exc = (S.decode E).exc :=
    ExStage.exc_of_exc (by rw [hd, h])
  rw [hx, hd, h]

/-- A refused fetch. -/
theorem does_fault (hq : S.csr.Wf) (hf : E.bus.fetch S.requests S.pc = none) :
    S.Does E o (.trap .instFault S.pc S.requests) := by
  refine does_idTrap hq ?_
  rw [fetch_of_none hf]
  rfl

/-- A word that encodes no instruction. -/
theorem does_illegal (hq : S.csr.Wf) {w : Word} (hf : E.bus.fetch S.requests S.pc = some w)
    (hn : ∀ n : Instr, n.encode ≠ w) : S.Does E o (.trap .illegal w S.requests) := by
  refine does_idTrap hq ?_
  have hill : (decoder w).illegal = true := by
    by_contra hlegal
    obtain ⟨n, hw⟩ := exists_encode_of_legal (by simpa using hlegal)
    exact hn n hw
  rw [fetch_of_some hf]
  simp [IdStage.exc, hill, Riscv.Exception.code]

/-- A multiplication or division. -/
theorem does_mulDiv {op : MulDivOp} {rd rs1 rs2 : RegAddr}
    (hf : E.bus.fetch S.requests S.pc = some (Instr.mulDiv op rd rs1 rs2).encode) :
    S.Does E o (S.hart.next (some (rd, op.eval (S.hart.reg rs1) (S.hart.reg rs2)))) := by
  have hd := decode_encode hf (by simp) (by simp)
  have hmdu : ExStage.isMdu (S.decode E) = true := by
    rw [hd]
    cases op <;> rfl
  have hresult : (S.execute E o).exResult = op.eval (S.hart.reg rs1) (S.hart.reg rs2) := by
    show (if ExStage.isMdu (S.decode E) then _ else _) = _
    rw [if_pos hmdu, hd, ← result_mduOf]
    rfl
  -- the other controls are the defaults
  have hctrl : (S.execute E o).exc = {} ∧ (S.execute E o).regWrite = true ∧
      (S.execute E o).rd = rd ∧ (S.execute E o).wbSel = .exResult ∧
      (S.execute E o).memCmd = .none ∧ (S.execute E o).csrWrite = false ∧
      (S.execute E o).control = false ∧ (S.execute E o).isMret = false := by
    have hrd : (Instr.mulDiv op rd rs1 rs2).encode.extractLsb 11 7 = rd := by
      simp [Instr.encode]
    rw [execute, hd, hrd]
    exact ⟨rfl, rfl, rfl, rfl, rfl, rfl, rfl, rfl⟩
  obtain ⟨hexc, hreg, hrd, hsel, hmem, hcsr, hcontrol, hmret⟩ := hctrl
  have hx : (S.execute E o).acceptedEffects =
      { rd := some (rd, op.eval (S.hart.reg rs1) (S.hart.reg rs2)) } := by
    simp [ExMem.acceptedEffects, ExMem.effects, ExMem.redirect, ExMem.fwdValue, hexc, hreg, hrd,
      hsel, hmem, hcsr, hcontrol, hmret, hresult]
  exact does_effects_counted hx rfl rfl rfl rfl rfl

/-- `FENCE` and `WFI`. -/
theorem does_nothing (hf : E.bus.fetch S.requests S.pc = some n.encode)
    (hn : (∃ rd rs1 imm, n = .fence rd rs1 imm) ∨ n = .wfi) :
    S.Does E o (S.hart.next none) := by
  have hx : (S.execute E o).acceptedEffects = {} := by
    obtain ⟨rd, rs1, imm, rfl⟩ | rfl := hn <;>
    · rw [execute, decode_encode hf (by simp) (by simp)]
      rfl
  exact does_effects_counted hx rfl rfl rfl rfl rfl

/-- `MRET`. -/
theorem does_mret (hq : S.csr.Wf) (hf : E.bus.fetch S.requests S.pc = some Instr.mret.encode) :
    S.Does E o (.retire S.hart.csrs.mepc none S.hart.csrs.mret [] S.requests) := by
  have hd := decode_encode hf (by simp) (by simp)
  -- `mepc` is aligned
  have hmis : (S.csr.mepcQ.extractLsb 1 0 != 0#2) = false := by
    rw [hq.mepc]
    rfl
  have hexc : (S.execute E o).exc = {} := by
    show ExStage.exc .. = _
    rw [hd]
    simp [ExStage.exc, ctrlOf, Decoder.defaultCtrl, ExStage.isCsr, ExStage.isControl,
      ExStage.controlTargetMisaligned, hmis]
  have hctrl : (S.execute E o).regWrite = false ∧ (S.execute E o).memCmd = .none ∧
      (S.execute E o).csrWrite = false ∧ (S.execute E o).control = true ∧
      (S.execute E o).controlTaken = true ∧ (S.execute E o).controlTarget = S.csr.mepcQ ∧
      (S.execute E o).isMret = true := by
    have hkeep {α : Type} (a b : α) : (if (S.execute E o).exc.valid then a else b) = b := by
      rw [hexc]
      rfl
    refine ⟨(hkeep ..).trans ?_, (hkeep ..).trans ?_, (hkeep ..).trans ?_,
      by rw [execute, hd]; rfl, by rw [execute, hd]; rfl, by rw [execute, hd]; rfl,
      (hkeep ..).trans ?_⟩ <;> rw [hd] <;> rfl
  obtain ⟨hreg, hmem, hcsr, hcontrol, htaken, htarget, hmret⟩ := hctrl
  have hx : (S.execute E o).acceptedEffects =
      { control := some (true, S.csr.mepcQ), redirect := some S.csr.mepcQ, mret := true } := by
    simp [ExMem.acceptedEffects, ExMem.effects, ExMem.redirect, hexc, hreg, hmem, hcsr, hcontrol,
      htaken, htarget, hmret]
  exact does_effects hx rfl rfl rfl (csrs_localPacket_mret hq (by rw [hexc]) hmret)

/-- Each instruction does what the instruction set prescribes. -/
theorem does_instr (hq : S.csr.Wf) (hf : E.bus.fetch S.requests S.pc = some n.encode)
    (hcount : S.Counts E o) :
    S.Does E o (n.result E.bus S.hart o.inputs) := by
  cases n with
  | ecall =>
    have hill : (decoder insnEcall).illegal = false := by decide
    refine does_idTrap hq ?_
    rw [fetch_of_some hf, show Instr.ecall.encode = insnEcall from rfl]
    simp [IdStage.exc, hill, Riscv.Exception.code]
  | ebreak =>
    have hill : (decoder insnEbreak).illegal = false := by decide
    have hne : insnEbreak ≠ insnEcall := by decide
    refine does_idTrap hq ?_
    rw [fetch_of_some hf, show Instr.ebreak.encode = insnEbreak from rfl]
    simp [IdStage.exc, hill, hne, Riscv.Exception.code, hart]
  | mret => exact does_mret hq hf
  | mulDiv op rd rs1 rs2 => exact does_mulDiv hf
  | fence rd rs1 imm => exact does_nothing hf (.inl ⟨_, _, _, rfl⟩)
  | wfi => exact does_nothing hf (.inr rfl)
  | _ => exact does_outcome hq hf hcount rfl

end Others

/-! ### Steps -/

/-- The interrupt. -/
theorem interrupt_hart (hq : S.csr.Wf) :
    S.interrupt.hart = S.hart.take .timer 0#32 S.requests := by
  have hs : S.interrupt.csr.mstatusQ.getLsbD mstatusMieBit = false ∧
      S.interrupt.csr.mstatusQ.getLsbD mstatusMpieBit = S.csr.mstatusQ.getLsbD mstatusMieBit := by
    simp only [interrupt]
    obtain h | h | h | h := CsrFile.mstatus_cases hq.mstatus <;> rw [h] <;> decide
  have hc : S.interrupt.csr.csrs = S.csr.csrs.trap .timer S.pc 0#32 := by
    apply Csrs.ext <;> try rfl
    · exact hs.1
    · exact hs.2
    · exact (CsrFile.base_eq_align S.pc).symm
  simp only [hart, hc]
  rfl

/-- Each step of the machine is one of the hart. -/
theorem step_hart {l : Observation × TraceEvent} (hq : S.csr.Wf) (h : Seq.Step E S l S') :
    ∃ k, l.2.Shows k ∧ Hart.Step E.bus S.hart l.1.inputs k S'.hart := by
  cases h with
  | instr o counter =>
    cases hf : E.bus.fetch S.requests S.pc with
    | none =>
      obtain ⟨hstate, hshows⟩ := does_fault (o := o) hq hf
      exact ⟨_, hshows, hstate o.wbCycle ▸ .fault hf⟩
    | some w =>
      by_cases hn : ∃ n : Instr, n.encode = w
      · obtain ⟨n, rfl⟩ := hn
        obtain ⟨hstate, hshows⟩ := does_instr (o := o) hq hf counter
        exact ⟨_, hshows, hstate o.wbCycle ▸ .instr n hf⟩
      · obtain ⟨hstate, hshows⟩ := does_illegal (o := o) hq hf (not_exists.mp hn)
        exact ⟨_, hshows, hstate o.wbCycle ▸ .illegal w hf (not_exists.mp hn)⟩
  | interrupt o enabled pending clean =>
    refine ⟨{ pc := S.pc, trap := some .timer }, ⟨rfl, rfl, bytes_of_strobes rfl, rfl, ?_⟩, ?_⟩
    · intro c hc
      obtain rfl : .timer = c := by simpa using hc
      exact ⟨rfl, rfl⟩
    · rw [interrupt_hart hq]
      exact .interrupt enabled pending

/-- The CSR file of the machine stays well formed. -/
theorem step_wf {l : Observation × TraceEvent} (hq : S.csr.Wf) (h : Seq.Step E S l S') :
    S'.csr.Wf := by
  cases h with
  | instr o =>
    have hq : (S.csrAt o.wbCycle).Wf := ⟨hq.mstatus, hq.mie, hq.mtvec, hq.mepc⟩
    have hn := hq.next (c := (S.packet E o).commit)
    exact ⟨hn.mstatus, hn.mie, hn.mtvec, hn.mepc⟩
  | interrupt o enabled pending clean =>
    refine ⟨?_, hq.mie, hq.mtvec, Word.aligned_align _⟩
    simp only [interrupt]
    obtain h | h | h | h := CsrFile.mstatus_cases hq.mstatus <;> rw [h] <;> decide

/-- A step makes at most one request. -/
theorem step_requests {l : Observation × TraceEvent} (h : Seq.Step E S l S') :
    ∃ rs, S'.requests = S.requests ++ rs ∧ rs.length ≤ 1 := by
  cases h with
  | instr o =>
    refine ⟨request (S.execute E o), rfl, ?_⟩
    unfold request
    split <;> simp
  | interrupt o enabled pending clean => exact ⟨[], by simp [interrupt], by simp⟩

/-- The steps of a hart behind the ports, seen on the trace port. -/
def HartStep (E : Env) (h : Hart (List MemReq)) (l : Observation × TraceEvent)
    (h' : Hart (List MemReq)) : Prop :=
  ∃ k, l.2.Shows k ∧ Hart.Step E.bus h l.1.inputs k h'

/-- Each run of the machine is one of the hart. -/
theorem path_hart {ls : List (Observation × TraceEvent)} (hq : S.csr.Wf)
    (h : Path (Seq.Step E) S ls S') : Path (HartStep E) S.hart ls S'.hart ∧ S'.csr.Wf := by
  induction h with
  | nil => exact ⟨.nil, hq⟩
  | snoc _ hstep ih => exact ⟨ih.1.snoc (step_hart ih.2 hstep), step_wf ih.2 hstep⟩

end Seq

namespace System

variable {P : CoreParams} {E : Env} {s s₀ : System} {is : List CoreIn}

/-- A hart after a reset. -/
def resetHart (P : CoreParams) (r : Regfile) : Hart (List MemReq) where
  pc := P.resetVector
  x := r
  csrs := { mtvec := Word.align P.trapVector }
  mem := []

/-- The hart has done what the core has done in the run: its registers and CSRs are those of the
core, and its requests those on the data port, apart from the steps not yet committed. -/
structure Executed (P : CoreParams) (E : Env) (s₀ : System) (is : List CoreIn) (s : System)
    (h : Hart (List MemReq)) : Prop where
  path : Path (Seq.HartStep E) (resetHart P s₀.core.regfile) ((circuit P).trace observed s₀ is) h
  pc : h.pc = s.pc
  x : h.x = s.core.regfile
  csrs : h.csrs = s.core.csrFile.csrs
  requests : ∃ rs, s.dmem.accepted = s₀.dmem.accepted ++ h.mem ++ rs ∧ rs.length ≤ 1

/-- At most one request is not yet committed. -/
theorem requests_of_matches {d₀ : List MemReq} {S : Seq}
    (hquiet : s.core.memWbQ.valid = true → s.outstanding = [])
    (h : Matches (Seq.Step E) S (s.observed {}) (InFlight E d₀ s)) :
    ∃ rs, s.dmem.accepted = d₀ ++ S.requests ++ rs ∧ rs.length ≤ 1 := by
  have hone : s.outstanding.length ≤ 1 := by
    unfold outstanding
    split <;> simp
  cases hv : s.core.memWbQ.valid with
  | false =>
    rw [observed, Core.event, if_neg (by simp [hv])] at h
    exact ⟨s.outstanding, h.log, hone⟩
  | true =>
    rw [observed, Core.event, if_pos hv] at h
    obtain ⟨S', hstep, hflight⟩ := h
    have hlog := hflight.log
    rw [hquiet hv, List.append_nil] at hlog
    obtain ⟨rs, hrs, hlen⟩ := Seq.step_requests hstep
    exact ⟨rs, by rw [hlog, hrs, List.append_assoc], hlen⟩

/-- The hart of a run is the sequential machine of the run. -/
theorem Started.executed (hs : Started P s₀) (hr : (circuit P).Run s₀ is s)
    (hrst : ∀ i ∈ is, i.rst = false) (hE : E.Explains s₀.dmem.accepted.length s) :
    ∃ h, Executed P E s₀ is s h := by
  obtain ⟨S, hpath, hS⟩ := refines_run hs hr hrst hE
  have hcsrs : (CsrFile.reset P.trapVector).csrs = { mtvec := Word.align P.trapVector } := by
    have hmie : mstatusMppMValue.getLsbD mstatusMieBit = false := by decide
    have hmpie : mstatusMppMValue.getLsbD mstatusMpieBit = false := by decide
    simp only [CsrFile.csrs, CsrFile.reset, hmie, hmpie]
    rfl
  have hp := (Seq.path_hart (.reset P.trapVector) hpath).1
  have hhart : (Seq.reset P s₀.core.regfile).hart = resetHart P s₀.core.regfile := by
    simp only [Seq.hart, Seq.reset, resetHart, hcsrs]
  rw [hhart] at hp
  obtain ⟨hpc, hregs, hcsr⟩ := hS.refines.agrees
  refine ⟨S.hart, hp, hpc, hregs, ?_, ?_⟩
  · rw [← hcsr]
    rfl
  · exact requests_of_matches (outstanding_of_memWb hS.reachable hS.port) hS.refines.inFlight

/-- Every run of the core from a reset, with a program that does not change, is one of a RISC-V
hart. A step that reads `mcycle` has its value as an input. -/
theorem executes_isa (hs : Started P s₀) (hr : (circuit P).Run s₀ is s)
    (hrst : ∀ i ∈ is, i.rst = false) (hE : E.Explains s₀.dmem.accepted.length s) :
    ∃ h, Executed P E s₀ is s h :=
  hs.executed hr hrst hE

/-- `ecall`, and `mret` at the trap vector. -/
theorem executes_isa_ecall :
    let E : Env :=
      { prog := fun a => { rdata := if a = 0#30 then 0x00000073#32 else 0x30200073#32 }
        answers := fun _ => {} }
    let s₀ := boot {} fun _ => 0#32
    let mret := Core.fetches 0x30200073#32
    let is : List CoreIn := [Core.fetches 0x00000073#32, {}, {}, {}, mret, mret, mret,
      Core.fetches 0x00000073#32, {}, mret]
    (∃ h, Executed {} E s₀ is ((circuit {}).exec s₀ is) h) ∧
      ((circuit {}).trace event s₀ is).map (fun e => (e.pc, e.trap, e.cause, e.target)) =
        [(0#32, true, 11#5, 0#32), (0x100#32, false, 0#5, 0#32)] := by
  intro E s₀ mret is
  have hE : E.Explains s₀.dmem.accepted.length ((circuit {}).exec s₀ is) :=
    explains_of_exchanges (fun _ => rfl) (by decide +kernel) (by decide +kernel)
  exact ⟨executes_isa (started_boot {} _) (Circuit.Run.of_always (by decide +kernel))
    (by decide +kernel) hE, by decide +kernel⟩

end System

end Rv32im

import Rv32im.Core.Packets

/-!
# Operand coherence

The value of a source register held in ID/EX is at every moment the one in the register file:
the register read and the WB-to-ID bypass establish it, the refresh of a held packet keeps it.
What is still in flight is added by the two forwarding paths, except for a load in EX/MEM,
which the load-use bubble keeps away from its consumer.

* `IdEx.Reads`: the operands a packet uses;
* `Core.Operands`: the invariant;
* `Core.pendingRegs`: the register file after the writes in MEM/WB and EX/MEM.
-/

namespace Rv32im

/-- `d` uses register `rs`, whose value it holds as `v`. -/
def IdEx.Reads (d : IdEx) (rs : RegAddr) (v : Word) : Prop :=
  d.ctrl.usesRs1 = true ∧ d.rs1 = rs ∧ d.rs1Value = v ∨
    d.ctrl.usesRs2 = true ∧ d.rs2 = rs ∧ d.rs2Value = v

/-- The packet is a load to the nonzero register `rd`. -/
def ExMem.LoadsTo (x : ExMem) (rd : RegAddr) : Prop :=
  x.valid = true ∧ x.exc.valid = false ∧ x.memCmd = .load ∧ x.rd = rd ∧ rd ≠ 0#5

/-- The packet writes a nonzero register. -/
def ExMem.writesReg (x : ExMem) : Bool := x.valid && !x.exc.valid && x.regWrite && x.rd != 0#5

namespace Core

variable {P : CoreParams} {F : IfId → Prop} {c : Core} {i : CoreIn}

/-- The register file after the pending write of MEM/WB. -/
def regsAfterWb (c : Core) : Regfile :=
  c.regfile.write c.memWbQ.writesReg c.memWbQ.rd c.memWbQ.wbData

/-- The register file after the pending writes of MEM/WB and then EX/MEM, whose load, if it is
one, returns `loadData`. -/
def pendingRegs (c : Core) (loadData : Word) : Regfile :=
  c.regsAfterWb.write c.exMemQ.writesReg c.exMemQ.rd
    (if c.exMemQ.memCmd = .load then loadData else c.exMemQ.fwdValue)

/-- The operands held in ID/EX are the current registers, and none of them is awaited from a
load in EX/MEM. -/
structure Operands (c : Core) : Prop where
  value : ∀ rs v, c.idExQ.valid = true → c.idExQ.Reads rs v → v = c.regfile.read rs
  load : ∀ rs v, c.idExQ.valid = true → c.idExQ.Reads rs v → ¬ c.exMemQ.LoadsTo rs

theorem next_regfile : (next P c i).regfile = c.regsAfterWb := rfl

/-- The refresh follows the register file. -/
theorem reads_idExHeld {rs : RegAddr} {v : Word}
    (h : ∀ v, c.idExQ.Reads rs v → v = c.regfile.read rs) (hv : c.idExQ.valid = true)
    (hr : c.idExHeld.Reads rs v) : v = c.regsAfterWb.read rs := by
  unfold regsAfterWb
  unfold idExHeld IdEx.refresh at hr
  cases hwe : c.memWbQ.writesReg with
  | false =>
    rw [hwe, Bool.and_false] at hr
    exact h v hr
  | true =>
    have hrd : c.memWbQ.rd ≠ 0#5 := by
      simp only [MemWb.writesReg, Bool.and_eq_true] at hwe
      simpa using hwe.2
    rw [hwe, hv, Bool.and_self, if_pos rfl] at hr
    -- the same for both operands: refreshed if MEM/WB writes its register
    have hread (u : Bool) (r : RegAddr) (w : Word) (hu : u = true) (hrs : r = rs)
        (hw : (if u && r == c.memWbQ.rd then c.memWbQ.wbData else w) = v)
        (hold : w = c.regfile.read rs) :
        v = (c.regfile.write true c.memWbQ.rd c.memWbQ.wbData).read rs := by
      subst hrs hu
      by_cases heq : r = c.memWbQ.rd
      · rw [← hw, heq, Regfile.read_write_self _ hrd]
        simp
      · rw [← hw, Regfile.read_write_of_ne _ _ fun _ => heq]
        simpa [heq] using hold
    rcases hr with ⟨hu, hrs, hw⟩ | ⟨hu, hrs, hw⟩
    · exact hread _ _ _ hu hrs hw (h _ (.inl ⟨hu, hrs, rfl⟩))
    · exact hread _ _ _ hu hrs hw (h _ (.inr ⟨hu, hrs, rfl⟩))

/-- The operands ID reads are those of the register file after this cycle's write. -/
theorem reads_idExD {rs : RegAddr} {v : Word} (hr : (c.idExD i).Reads rs v) :
    v = c.regsAfterWb.read rs := by
  unfold idExD at hr
  split at hr
  · -- neither an interrupt packet nor one with an exception has operands
    simp [IdEx.Reads, IdEx.interrupt] at hr
  · simp only [idExDecoded, idStage, IdStage.packet] at hr
    split at hr
    · simp only [IdEx.Reads] at hr
      cases he : (IdStage.exc c.ifIdQ).valid with
      | true => simp [he] at hr
      | false =>
        simp only [he, Bool.false_eq_true, if_false] at hr
        rcases hr with ⟨hu, hrs, hw⟩ | ⟨hu, hrs, hw⟩ <;>
          rw [← hw, IdStage.operand_eq_read_write, hu, hrs, if_pos rfl] <;> rfl
    · simp [IdEx.Reads] at hr

/-- A load leaving EX is one of those the load-use check looks at. -/
theorem Packets.loadsTo_exMemD (hp : Packets F c) {rd : RegAddr}
    (h : (c.exMemD i).LoadsTo rd) :
    HazardUnit.idExIsLoad c.idExQ = true ∧ c.idExQ.ctrl.regWrite = true ∧ c.idExQ.rd = rd ∧
      rd ≠ 0#5 := by
  obtain ⟨hv, hexc, hcmd, hrd, hne⟩ := h
  rw [exMemD_valid] at hv
  have hval := valid_of_resultValid hv
  rw [exMemD_eq, if_pos hv] at hexc hcmd hrd
  -- EX keeps an exception it is handed
  have hd : c.idExQ.exc.valid = false := by
    by_contra h
    have h : c.idExQ.exc.valid = true := by simpa using h
    simp [exPacket, ExStage.exc_of_exc h, h] at hexc
  have hload : c.idExQ.ctrl.memCmd = .load := by
    have he : (ExStage.exc c.idExQ _ _ _ _).valid = false := hexc
    simpa [exPacket, ExStage.packet, he] using hcmd
  have hreg := ((hp.idEx hval).legal.load hload).2.1
  exact ⟨by simp [HazardUnit.idExIsLoad, hval, hd, hload, hreg], hreg, hrd, hne⟩

/-- Without a load-use hazard the packet entering ID/EX does not read the load ahead of it. -/
theorem Packets.not_loadsTo (hp : Packets F c)
    (hlu : HazardUnit.loadUse (c.idExD i) c.idExQ = false) {rs : RegAddr} {v : Word}
    (hv : (c.idExD i).valid = true) (hr : (c.idExD i).Reads rs v) :
    ¬ (c.exMemD i).LoadsTo rs := by
  intro hl
  obtain ⟨hload, hreg, hrd, hne⟩ := hp.loadsTo_exMemD hl
  simp only [HazardUnit.loadUse, HazardUnit.rawMatch, hv, hload, hreg, hrd, Bool.true_and,
    Bool.or_eq_false_iff] at hlu
  rcases hr with ⟨hu, hrs, -⟩ | ⟨hu, hrs, -⟩
  · simp [hu, hrs, hne] at hlu
  · simp [hu, hrs, hne] at hlu

/-- A trap packet reads no register. -/
theorem not_reads_of_exc (hv : (c.idExD i).exc.valid = true) {rs : RegAddr} {v : Word} :
    ¬ (c.idExD i).Reads rs v := by
  simp [IdEx.Reads, idExD_ctrl_of_exc hv]

theorem Operands.of_not_valid (h : (next P c i).idExQ.valid = false) : Operands (next P c i) := by
  constructor <;> simp [h]

/-- A held packet keeps its operands and stays apart from the load ahead of it. -/
private theorem Operands.of_held {f : IfId} {x : ExMem} {w : MemWb} {b : Bool} {cmd : FetchCmd}
    {r : Bool} (h : Operands c) (edge : Edge P c i f c.idExHeld x w b cmd r)
    (hx : ∀ rd, x.LoadsTo rd → c.exMemQ.LoadsTo rd) : Operands (Core.next P c i) := by
  have hreads : ∀ rs v, c.idExHeld.Reads rs v → ∃ w, c.idExQ.Reads rs w := by
    intro rs v hr
    simp only [IdEx.Reads, IdEx.refresh_ctrl, IdEx.refresh_rs1, IdEx.refresh_rs2] at hr
    rcases hr with ⟨hu, hrs, -⟩ | ⟨hu, hrs, -⟩
    · exact ⟨_, .inl ⟨hu, hrs, rfl⟩⟩
    · exact ⟨_, .inr ⟨hu, hrs, rfl⟩⟩
  constructor
  · intro rs v hv hr
    rw [edge.idEx, IdEx.refresh_valid] at hv
    rw [edge.idEx] at hr
    rw [next_regfile]
    exact reads_idExHeld (fun w hw => h.value rs w hv hw) hv hr
  · intro rs v hv hr hl
    rw [edge.idEx, IdEx.refresh_valid] at hv
    rw [edge.idEx] at hr
    rw [edge.exMem] at hl
    obtain ⟨w, hw⟩ := hreads rs v hr
    exact h.load rs w hv hw (hx rs hl)

/-- Every cycle keeps the operands coherent. -/
theorem Operands.next (h : Operands c) (hp : Packets F c) (ht : TrapDrain c) :
    Operands (next P c i) := by
  cases next_cases P c i with
  | reset rst edge => exact .of_not_valid (by rw [edge.idEx])
  | wbTrap rst trap edge => exact .of_not_valid (by rw [edge.idEx])
  | memException rst trap exc edge => exact .of_not_valid (by rw [edge.idEx])
  -- EX/MEM is held as well, or a bubble enters it
  | memWait rst trap wait edge => exact h.of_held edge fun _ hl => hl
  | exException ready exc edge => exact .of_not_valid (by rw [edge.idEx])
  | exWait ready wait edge => exact h.of_held edge fun _ hl => by simp [ExMem.LoadsTo] at hl
  | trapDrain fires drain edge =>
    refine .of_not_valid ?_
    rw [edge.idEx, idExD_of_not_valid (ht.ifId drain)]
  | exRedirect fires drain redirect edge => exact .of_not_valid (by rw [edge.idEx])
  | stall fires drain redirect stall edge => exact .of_not_valid (by rw [edge.idEx])
  | idTrap fires drain redirect irqWait exc edge =>
    constructor
    · -- a trap packet reads no register
      intro rs v _ hr
      exact absurd (edge.idEx ▸ hr) (not_reads_of_exc exc.2)
    · intro rs v _ hr
      exact absurd (edge.idEx ▸ hr) (not_reads_of_exc exc.2)
  | advance fires drain redirect irqWait exc loadUse csrDep edge =>
    constructor
    · intro rs v hv hr
      rw [edge.idEx] at hr
      exact reads_idExD hr
    · intro rs v hv hr
      rw [edge.idEx] at hr hv
      rw [edge.exMem]
      exact hp.not_loadsTo loadUse hv hr

/-- The operands are coherent in every reachable state. -/
theorem Reachable.operands (h : Reachable P c) : Operands c := by
  refine h.holds (fun c i hrst => .of_not_valid ?_) fun c i hc ho => ho.next hc.packets hc.trapDrain
  rw [(edge_reset P c hrst).idEx]

/-! ### Forwarding -/

/-- The forwarded operand is the register after the pending writes. -/
private theorem forward_eq {x : ExMem} {d : IdEx} {w : MemWb} {r : Regfile} {rs : RegAddr}
    {value : Word} (hv : d.valid = true) (he : d.exc.valid = false) (hr : value = r.read rs)
    {xv : Word} (hx : x.writesReg = true → x.rd = rs → x.wbSel ≠ .load ∧ xv = x.fwdValue) :
    ExStage.selectForwardedOperand (ForwardingUnit.sel d x w true rs) value x.fwdValue w.wbData =
      ((r.write w.writesReg w.rd w.wbData).write x.writesReg x.rd xv).read rs := by
  -- a packet in MEM/WB has its value in any case
  have hw : ForwardingUnit.memWbValueReady w = w.writesReg := by
    simp only [ForwardingUnit.memWbValueReady, MemWb.writesReg, MemWb.retire]
    cases w.valid <;> cases w.exc.valid <;> cases w.regWrite <;> rfl
  unfold ForwardingUnit.sel ForwardingUnit.sourceMatches
  rw [hv, he, hw]
  -- the younger writer wins: first EX/MEM, then MEM/WB, else the register file
  by_cases hxm : x.writesReg = true ∧ x.rd = rs
  · obtain ⟨hxw, rfl⟩ := hxm
    obtain ⟨hsel, rfl⟩ := hx hxw rfl
    have hready : ForwardingUnit.exMemValueReady x = true := by
      simp only [ExMem.writesReg, Bool.and_eq_true, Bool.not_eq_true', bne_iff_ne] at hxw
      simp [ForwardingUnit.exMemValueReady, hxw, hsel]
    have hrd : x.rd ≠ 0#5 := by
      simp only [ExMem.writesReg, Bool.and_eq_true, bne_iff_ne] at hxw
      exact hxw.2
    rw [hxw, Regfile.read_write_self _ hrd]
    simp [hready, ExStage.selectForwardedOperand]
  · have hready : (ForwardingUnit.exMemValueReady x && (x.rd == rs)) = false := by
      by_contra hne
      simp only [ForwardingUnit.exMemValueReady, Bool.not_eq_false, Bool.and_eq_true,
        Bool.not_eq_true', bne_iff_ne, beq_iff_eq] at hne
      obtain ⟨⟨⟨⟨⟨hv, hw⟩, he⟩, hrd⟩, -⟩, hrs⟩ := hne
      exact hxm ⟨by simp [ExMem.writesReg, hv, hw, he, hrd], hrs⟩
    rw [Regfile.read_write_of_ne _ _ fun hxw hrs => hxm ⟨hxw, hrs.symm⟩]
    by_cases hwm : w.writesReg = true ∧ w.rd = rs
    · obtain ⟨hww, rfl⟩ := hwm
      have hrd : w.rd ≠ 0#5 := by
        simp only [MemWb.writesReg, Bool.and_eq_true, bne_iff_ne] at hww
        exact hww.2
      rw [hww, Regfile.read_write_self _ hrd]
      simp [hready, ExStage.selectForwardedOperand]
    · rw [Regfile.read_write_of_ne _ _ fun hww hrs => hwm ⟨hww, hrs.symm⟩]
      have hmiss : (w.writesReg && (w.rd == rs)) = false := by
        by_contra hne
        simp only [Bool.not_eq_false, Bool.and_eq_true, beq_iff_eq] at hne
        exact hwm hne
      simp [hready, hmiss, ExStage.selectForwardedOperand, hr]

/-- What an operand selected in EX must be: not awaited from a load, and the register after the
pending writes, whatever a load in EX/MEM returns. -/
def OperandCoherent (c : Core) (rs : RegAddr) (selected : Word) : Prop :=
  ¬ c.exMemQ.LoadsTo rs ∧ ∀ loadData, selected = (c.pendingRegs loadData).read rs

/-- What EX computes with is what the older instructions have left in the registers. -/
theorem Operands.coherent (h : Operands c) (hp : Packets F c) (hv : c.idExQ.valid = true)
    (he : c.idExQ.exc.valid = false) (i : CoreIn) :
    (c.idExQ.ctrl.usesRs1 = true →
      OperandCoherent c c.idExQ.rs1 (ExStage.forwardedRs1 (c.exIn i))) ∧
    (c.idExQ.ctrl.usesRs2 = true →
      OperandCoherent c c.idExQ.rs2 (ExStage.forwardedRs2 (c.exIn i))) := by
  -- a writer of the register is no load, so its value can be forwarded
  have hx (rs : RegAddr) (hl : ¬ c.exMemQ.LoadsTo rs) (loadData : Word)
      (hw : c.exMemQ.writesReg = true) (hrd : c.exMemQ.rd = rs) : c.exMemQ.wbSel ≠ .load ∧
        (if c.exMemQ.memCmd = .load then loadData else c.exMemQ.fwdValue) =
          c.exMemQ.fwdValue := by
    simp only [ExMem.writesReg, Bool.and_eq_true, Bool.not_eq_true', bne_iff_ne] at hw
    have hcmd : c.exMemQ.memCmd ≠ .load := fun hcmd =>
      hl ⟨hw.1.1.1, hw.1.1.2, hcmd, hrd, hrd ▸ hw.2⟩
    exact ⟨fun hsel => hcmd ((hp.exMem hw.1.1.1).load_of_wbSel hw.1.1.2 hsel), by simp [hcmd]⟩
  constructor
  · intro hu
    have hr : c.idExQ.Reads c.idExQ.rs1 c.idExQ.rs1Value := .inl ⟨hu, rfl, rfl⟩
    have hl := h.load _ _ hv hr
    refine ⟨hl, fun loadData => ?_⟩
    have := forward_eq (w := c.memWbQ) hv he (h.value _ _ hv hr) (hx _ hl loadData)
    simpa [ExStage.forwardedRs1, exIn, hu, pendingRegs, regsAfterWb] using this
  · intro hu
    have hr : c.idExQ.Reads c.idExQ.rs2 c.idExQ.rs2Value := .inr ⟨hu, rfl, rfl⟩
    have hl := h.load _ _ hv hr
    refine ⟨hl, fun loadData => ?_⟩
    have := forward_eq (w := c.memWbQ) hv he (h.value _ _ hv hr) (hx _ hl loadData)
    simpa [ExStage.forwardedRs2, exIn, hu, pendingRegs, regsAfterWb] using this

/-- In every cycle a valid packet without exception spends in ID/EX, each operand it uses is
the register after all older writes. -/
theorem Reachable.operands_coherent (h : Reachable P c) (hv : c.idExQ.valid = true)
    (he : c.idExQ.exc.valid = false) (i : CoreIn) :
    (c.idExQ.ctrl.usesRs1 = true →
      OperandCoherent c c.idExQ.rs1 (ExStage.forwardedRs1 (c.exIn i))) ∧
    (c.idExQ.ctrl.usesRs2 = true →
      OperandCoherent c c.idExQ.rs2 (ExStage.forwardedRs2 (c.exIn i))) :=
  h.operands.coherent h.packets hv he i

/-- `addi x1, x0, 5` forwards its result from EX/MEM to `add x2, x1, x1`. -/
theorem operands_coherent_forwarded :
    let c := (circuit {}).exec (boot {}) [fetches 0x00500093#32, fetches 0x00108133#32, {}]
    OperandCoherent c 1#5 (ExStage.forwardedRs1 (c.exIn {})) ∧
      ExStage.forwardedRs1 (c.exIn {}) = 5#32 :=
  ⟨(((reachable_boot {}).exec _).operands_coherent (by decide +kernel) (by decide +kernel) {}).1
    (by decide +kernel), by decide +kernel⟩

end Core

end Rv32im

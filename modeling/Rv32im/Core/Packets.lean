import Rv32im.Core.TrapDrain

/-!
# The packets in flight

Every valid packet is one that the stages could have built: ID/EX holds a decoded instruction or
an interrupt packet, EX/MEM an executed one. The invariant is relative to a property `F` of the
fetched packets, so that a memory's contents can be carried along.

* `IdEx.Decoded`, `ExMem.Executed`: the two forms;
* `Core.Packets`: the invariant, kept by every cycle that fetches packets satisfying `F`.
-/

namespace Rv32im

/-- `d` is what ID makes of a fetched packet satisfying `F`, or the interrupt packet that
displaces one without exception; operands that are not used are zero. -/
structure IdEx.Decoded (F : IfId → Prop) (d : IdEx) : Prop where
  form : ∃ f, F f ∧ f.valid = true ∧ (d = IdStage.packet f d.rs1Value d.rs2Value ∨
    (IdStage.exc f).valid = false ∧ d = IdEx.interrupt f.pc)
  rs1 : d.ctrl.usesRs1 = false → d.rs1Value = 0#32
  rs2 : d.ctrl.usesRs2 = false → d.rs2Value = 0#32

/-- `x` is what EX makes of a decoded packet; operands that are not used are zero. -/
def ExMem.Executed (F : IfId → Prop) (x : ExMem) : Prop :=
  ∃ d rs1 rs2 rdata mepc illegal mdu, IdEx.Decoded F d ∧ d.valid = true ∧
    (d.ctrl.usesRs2 = false → rs2 = 0#32) ∧
    x = ExStage.packet d rs1 rs2 rdata mepc illegal mdu

namespace IdEx.Decoded

variable {F : IfId → Prop} {d : IdEx}

/-- The controls are one of the legal shapes. -/
theorem legal (h : d.Decoded F) : d.ctrl.Legal := by
  obtain ⟨f, -, hf, hd | ⟨-, hd⟩⟩ := h.form
  · rw [hd]
    simp only [IdStage.packet, hf, if_true]
    split
    · exact DecodeCtrl.legal_zero
    · exact decoder_legal f.insn
  · rw [hd]
    exact DecodeCtrl.legal_zero

/-- An exception packet has no controls. -/
theorem ctrl_of_exc (h : d.Decoded F) (he : d.exc.valid = true) : d.ctrl = {} := by
  obtain ⟨f, -, -, hd | ⟨-, hd⟩⟩ := h.form
  · rw [hd] at he ⊢
    exact IdStage.packet_ctrl_of_exc he
  · rw [hd]
    rfl

/-- A refresh keeps the form. -/
theorem refresh (h : d.Decoded F) (we : Bool) (rd : RegAddr) (v : Word) :
    (d.refresh we rd v).Decoded F := by
  refine ⟨?_, ?_, ?_⟩
  · obtain ⟨a, b, heq⟩ := d.refresh_eq we rd v
    obtain ⟨f, hF, hf, hd | ⟨hexc, hd⟩⟩ := h.form
    · refine ⟨f, hF, hf, .inl ?_⟩
      by_cases he : d.exc.valid = true
      · -- an exception packet has no operands to refresh
        have hctrl := h.ctrl_of_exc he
        rw [IdEx.refresh_of_not_uses d we rd v (by rw [hctrl]) (by rw [hctrl])]
        exact hd
      · have hexc : (IdStage.exc f).valid = false := by
          rw [hd, IdStage.packet_exc hf] at he
          simpa using he
        rw [heq, hd]
        simp [IdStage.packet, hf, hexc]
    · have hctrl : d.ctrl = {} := by rw [hd]; rfl
      rw [IdEx.refresh_of_not_uses d we rd v (by rw [hctrl]) (by rw [hctrl])]
      exact ⟨f, hF, hf, .inr ⟨hexc, hd⟩⟩
  · intro hu
    rw [IdEx.refresh_ctrl] at hu
    unfold IdEx.refresh
    split <;> simp [hu, h.rs1 hu]
  · intro hu
    rw [IdEx.refresh_ctrl] at hu
    unfold IdEx.refresh
    split <;> simp [hu, h.rs2 hu]

/-- What ID hands over has the form. -/
theorem idStage {f : IfId} (hF : F f) (hf : f.valid = true) (we : Bool) (rd : RegAddr) (v : Word)
    (r : Regfile) : (idStage f we rd v r).Decoded F := by
  refine ⟨⟨f, hF, hf, .inl ?_⟩, ?_, ?_⟩
  · simp only [Rv32im.idStage, IdStage.packet, hf, if_true]
    split <;> rfl
  all_goals
    simp only [Rv32im.idStage, IdStage.packet, hf, if_true]
    split
    · simp
    · intro hu
      simp [IdStage.operand, hu]

/-- The packet that displaces a fetched packet without exception has the form. -/
theorem interrupt {f : IfId} (hF : F f) (hf : f.valid = true)
    (he : (IdStage.exc f).valid = false) : (IdEx.interrupt f.pc).Decoded F :=
  ⟨⟨f, hF, hf, .inr ⟨he, rfl⟩⟩, fun _ => rfl, fun _ => rfl⟩

theorem mono {G : IfId → Prop} (h : d.Decoded F) (hFG : ∀ f, F f → G f) : d.Decoded G := by
  obtain ⟨f, hF, hf, hd⟩ := h.form
  exact ⟨⟨f, hFG f hF, hf, hd⟩, h.rs1, h.rs2⟩

end IdEx.Decoded

namespace ExMem.Executed

variable {F : IfId → Prop} {x : ExMem}

theorem mono {G : IfId → Prop} (h : x.Executed F) (hFG : ∀ f, F f → G f) : x.Executed G := by
  obtain ⟨d, rs1, rs2, rdata, mepc, illegal, mdu, hd, hx⟩ := h
  exact ⟨d, rs1, rs2, rdata, mepc, illegal, mdu, hd.mono hFG, hx⟩

/-- A load writes back the data of its access, has no store data and is nothing else. -/
theorem load (h : x.Executed F) (hl : x.memCmd = .load) :
    x.wbSel = .load ∧ x.regWrite = true ∧ x.storeData = 0#32 := by
  obtain ⟨d, rs1, rs2, rdata, mepc, illegal, mdu, hd, -, hrs2, rfl⟩ := h
  simp only [ExStage.packet] at hl ⊢
  split at hl
  · contradiction
  next he =>
    obtain ⟨hsel, hreg, huse⟩ := hd.legal.load hl
    obtain rfl := hrs2 huse
    simp [he, hsel, hreg]

/-- Only a load writes back the data of an access. -/
theorem load_of_wbSel (h : x.Executed F) (he : x.exc.valid = false) (hs : x.wbSel = .load) :
    x.memCmd = .load := by
  obtain ⟨d, rs1, rs2, rdata, mepc, illegal, mdu, hd, -, -, rfl⟩ := h
  have hexc : (ExStage.exc d rs1 rs2 mepc illegal).valid = false := he
  by_contra hne
  refine hd.legal.notLoad ?_ hs
  intro hcmd
  simp [ExStage.packet, hexc, hcmd] at hne

/-- A store writes no register. -/
theorem store (h : x.Executed F) (hs : x.memCmd = .store) : x.regWrite = false := by
  obtain ⟨d, rs1, rs2, rdata, mepc, illegal, mdu, hd, -, -, rfl⟩ := h
  simp only [ExStage.packet] at hs ⊢
  split at hs
  · contradiction
  next he => simp [he, hd.legal.store hs]

end ExMem.Executed

namespace Core

variable {P : CoreParams} {F : IfId → Prop} {c : Core} {i : CoreIn}

/-- Every valid packet has the form its stage gives it. -/
structure Packets (F : IfId → Prop) (c : Core) : Prop where
  ifId : c.ifIdQ.valid = true → F c.ifIdQ
  idEx : c.idExQ.valid = true → c.idExQ.Decoded F
  exMem : c.exMemQ.valid = true → c.exMemQ.Executed F

/-- What is known of the fetched packets can be weakened. -/
theorem Packets.mono {G : IfId → Prop} (h : Packets F c) (hFG : ∀ f, F f → G f) :
    Packets G c :=
  ⟨fun hv => hFG _ (h.ifId hv), fun hv => (h.idEx hv).mono hFG, fun hv => (h.exMem hv).mono hFG⟩

/-- What enters ID/EX has been decoded. -/
theorem Packets.idExD (h : Packets F c) (hv : (c.idExD i).valid = true) :
    (c.idExD i).Decoded F := by
  rw [idExD_valid] at hv
  unfold Core.idExD
  split
  next hc =>
    -- the displaced instruction carries no exception, and its address is kept
    have hpc : c.idExDecoded.pc = c.ifIdQ.pc := by
      simp [idExDecoded, Rv32im.idStage, IdStage.packet, hv]
    have hexc : (IdStage.exc c.ifIdQ).valid = false := by
      simp only [idInterruptCandidate, idExDecoded, Rv32im.idStage, IdStage.packet_exc hv,
        Bool.and_eq_true, Bool.not_eq_true'] at hc
      exact hc.2
    rw [hpc]
    exact .interrupt (h.ifId hv) hv hexc
  next =>
    exact .idStage (h.ifId hv) hv ..

/-- An operand that is not used is not forwarded either. -/
theorem forwardedRs2_of_not_uses (h : c.idExQ.ctrl.usesRs2 = false) :
    ExStage.forwardedRs2 (c.exIn i) = c.idExQ.rs2Value := by
  have hsel : (c.exIn i).fwdBSel = .regfile := by
    simp [exIn, ForwardingUnit.sel, ForwardingUnit.sourceMatches, h]
  rw [ExStage.forwardedRs2, hsel]
  rfl

@[inherit_doc forwardedRs2_of_not_uses]
theorem forwardedRs1_of_not_uses (h : c.idExQ.ctrl.usesRs1 = false) :
    ExStage.forwardedRs1 (c.exIn i) = c.idExQ.rs1Value := by
  have hsel : (c.exIn i).fwdASel = .regfile := by
    simp [exIn, ForwardingUnit.sel, ForwardingUnit.sourceMatches, h]
  rw [ExStage.forwardedRs1, hsel]
  rfl

/-- What enters EX/MEM has been executed. -/
theorem Packets.exMemD (h : Packets F c) (hv : (c.exMemD i).valid = true) :
    (c.exMemD i).Executed F := by
  rw [exMemD_valid] at hv
  have hd := h.idEx (valid_of_resultValid hv)
  refine ⟨c.idExQ, _, _, _, _, _, _, hd, valid_of_resultValid hv, fun hu => ?_, if_pos hv⟩
  -- an unused second operand is zero in ID/EX and stays zero
  rw [forwardedRs2_of_not_uses hu]
  exact hd.rs2 hu

/-- The empty pipeline. -/
theorem Packets.of_empty {w : MemWb} {b : Bool} {fetch : FetchCmd} {r : Bool}
    (h : Edge P c i {} {} {} w b fetch r) : Packets F (next P c i) := by
  constructor <;> simp [h.ifId, h.idEx, h.exMem]

/-- Every cycle keeps the forms, whatever it fetches satisfying `F`. -/
theorem Packets.next (h : Packets F c)
    (hF : i.rst = false → c.trapDrainQ = false → (c.ifIdD i).valid = true → F (c.ifIdD i)) :
    Packets F (next P c i) := by
  -- each slot is emptied, held, or filled from the one before it
  cases next_cases P c i with
  | reset rst edge => exact .of_empty edge
  | wbTrap rst trap edge => exact .of_empty edge
  | memException rst trap exc edge => exact .of_empty edge
  | memWait rst trap wait edge =>
    constructor <;> simp only [edge.ifId, edge.idEx, edge.exMem, IdEx.refresh_valid]
    · exact h.ifId
    · exact fun hv => (h.idEx hv).refresh ..
    · exact h.exMem
  | exException ready exc edge =>
    constructor <;> simp only [edge.ifId, edge.idEx, edge.exMem, Bool.false_eq_true, false_implies]
    exact h.exMemD
  | exWait ready wait edge =>
    constructor <;> simp only [edge.ifId, edge.idEx, edge.exMem, IdEx.refresh_valid,
      Bool.false_eq_true, false_implies]
    · exact h.ifId
    · exact fun hv => (h.idEx hv).refresh ..
  | trapDrain fires drain edge =>
    constructor <;> simp only [edge.ifId, edge.idEx, edge.exMem]
    · exact h.ifId
    · exact h.idExD
    · exact h.exMemD
  | exRedirect fires drain redirect edge =>
    constructor <;> simp only [edge.ifId, edge.idEx, edge.exMem, Bool.false_eq_true, false_implies]
    exact h.exMemD
  | stall fires drain redirect stall edge =>
    constructor <;> simp only [edge.ifId, edge.idEx, edge.exMem, Bool.false_eq_true, false_implies]
    · exact h.ifId
    · exact h.exMemD
  | idTrap fires drain redirect irqWait exc edge =>
    constructor <;> simp only [edge.ifId, edge.idEx, edge.exMem, Bool.false_eq_true, false_implies]
    · exact h.idExD
    · exact h.exMemD
  | advance fires drain redirect irqWait exc loadUse csrDep edge =>
    constructor <;> simp only [edge.ifId, edge.idEx, edge.exMem]
    · exact hF fires.rst drain
    · exact h.idExD
    · exact h.exMemD

/-- Every reachable state has packets of these forms. -/
theorem Reachable.packets (h : Reachable P c) : Packets (fun _ => True) c :=
  h.holds (fun _ _ hrst => .of_empty (edge_reset P _ hrst)) fun _ _ _ h =>
    h.next fun _ _ _ => trivial

end Core

end Rv32im

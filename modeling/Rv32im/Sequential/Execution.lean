import Rv32im.Sequential.Machine

/-!
# Instructions in the pipeline and alone

EX hands over the packet that the sequential machine makes of the instruction in the state left by
all older instructions: its operands are the awaited registers, its CSR value and `mepc` are those
of program order, its RV32M result is that of its operands.

* `CsrFile.arch_next`: no CSR but `mcycle` depends on `mcycle`;
* `CsrFile.next_bubble`: a cycle without commit;
* `ExStage.packet_congr`: what the packet depends on;
* `Core.exMemD_execute`, `Core.exMemD_interrupted`: what EX hands over;
* `Seq.interrupted`: the packet of the timer interrupt, and the commit of it.
-/

namespace Rv32im

/-! ### CSR state and `mcycle` -/

namespace CsrFile

variable {q q' : CsrFile} {t : ℕ}

@[simp] theorem arch_later : (q.later t).arch = q.arch := rfl

@[simp] theorem later_earlier : (q.earlier t).later t = q := by
  have hm : q.mcycleQ - BitVec.ofNat 64 t + BitVec.ofNat 64 t = q.mcycleQ :=
    BitVec.sub_add_cancel ..
  simp only [earlier, later, hm]

theorem later_zero : q.later 0 = q := by
  simp [later]

/-- The counter a cycle later. -/
theorem later_succ : q.later (t + 1) = (q.later t).later 1 := by
  simp [later, BitVec.ofNat_add, BitVec.add_assoc]

/-- States that agree up to `mcycle`. -/
theorem arch_eq_iff : q.arch = q'.arch ↔ q.mstatusQ = q'.mstatusQ ∧ q.mieQ = q'.mieQ ∧
    q.mtvecQ = q'.mtvecQ ∧ q.mscratchQ = q'.mscratchQ ∧ q.mepcQ = q'.mepcQ ∧
    q.mcauseQ = q'.mcauseQ ∧ q.mtvalQ = q'.mtvalQ ∧ q.minstretQ = q'.minstretQ := by
  simp [arch]

/-- A state is given by its parts with and without `mcycle`. -/
theorem eq_of_arch (h : q.arch = q'.arch) (hm : q.mcycleQ = q'.mcycleQ) : q = q' := by
  obtain ⟨hs, hi, ht, hc, he, hu, hv, hn⟩ := arch_eq_iff.mp h
  cases q
  cases q'
  rw [mk.injEq]
  exact ⟨hs, hi, ht, hc, he, hu, hv, hm, hn⟩

/-- `mcycle` changes nothing but itself. -/
theorem arch_next (h : q.arch = q'.arch) (k : CsrCommit) : (q.next k).arch = (q'.next k).arch := by
  obtain ⟨hs, hi, ht, hc, he, hu, hv, hn⟩ := arch_eq_iff.mp h
  refine arch_eq_iff.mpr ⟨?_, ?_, ?_, ?_, ?_, ?_, ?_, ?_⟩
  · simp only [next, mstatusD, mstatusUpdate, hs]
  · simp only [next, mieD, hi]
  · simp only [next, ht]
  · simp only [next, hc]
  · simp only [next, mepcD, he]
  · simp only [next, mcauseD, hu]
  · simp only [next, mtvalD, hv]
  · simp only [next, minstretD, hn]

/-- Any other CSR reads the same. -/
theorem rdata_arch (h : q.arch = q'.arch) (mtip : Bool) {a : CsrAddr} (hc : a ≠ csrMcycle)
    (hch : a ≠ csrMcycleh) : q.rdata mtip a = q'.rdata mtip a := by
  obtain ⟨hs, hi, ht, hsc, he, hu, hv, hn⟩ := arch_eq_iff.mp h
  simp only [rdata, hc, hch, if_false, hs, hi, ht, hsc, he, hu, hv, hn]

/-- Nothing is asked of `mcycle`. -/
theorem Wf.of_arch (hq : q'.Wf) (h : q.arch = q'.arch) : q.Wf := by
  obtain ⟨hs, hi, ht, -, he, -⟩ := arch_eq_iff.mp h
  exact ⟨hs ▸ hq.mstatus, hi ▸ hq.mie, ht ▸ hq.mtvec, he ▸ hq.mepc⟩

/-- The status register is determined by its two writable bits. -/
theorem mstatus_cases {w : Word} (h : mstatusMppMValue ||| (w &&& mstatusWritableMask) = w) :
    w = 0x1800#32 ∨ w = 0x1808#32 ∨ w = 0x1880#32 ∨ w = 0x1888#32 := by
  have hbits : w &&& mstatusWritableMask =
      (if w.getLsbD mstatusMieBit then 8#32 else 0#32) |||
        if w.getLsbD mstatusMpieBit then 0x80#32 else 0#32 := by
    apply BitVec.eq_of_getLsbD_eq
    intro k hk
    have hmask : ∀ k < 32, mstatusWritableMask.getLsbD k = (decide (k = 3) || decide (k = 7)) := by
      decide
    have h8 : ∀ k < 32, (8#32).getLsbD k = decide (k = 3) := by decide
    have h80 : ∀ k < 32, (0x80#32).getLsbD k = decide (k = 7) := by decide
    rw [BitVec.getLsbD_and, hmask k hk, BitVec.getLsbD_or]
    by_cases h3 : k = 3
    · subst h3
      cases w.getLsbD 3 <;> cases w.getLsbD 7 <;> simp
    by_cases h7 : k = 7
    · subst h7
      cases w.getLsbD 3 <;> cases w.getLsbD 7 <;> simp
    · cases w.getLsbD 3 <;> cases w.getLsbD 7 <;> simp [h8 k hk, h80 k hk, h3, h7]
  rw [hbits] at h
  rw [← h]
  cases w.getLsbD mstatusMieBit <;> cases w.getLsbD mstatusMpieBit <;> decide

/-- A cycle without commit lets the counter count and changes nothing else. -/
theorem next_bubble (hq : q.Wf) : q.next (MemWb.commit {}) = q.later 1 := by
  have hm : q.mstatusD (MemWb.commit {}) = q.mstatusQ := hq.mstatus
  have hi : q.mieD (MemWb.commit {}) = q.mieQ := hq.mie
  simp only [next, hm, hi]
  rfl

end CsrFile

/-! ### The packet of EX -/

namespace ExStage

variable {d : IdEx} {x y r r' m m' u u' : Word} {illegal : Bool}

/-- Only a CSR instruction uses the CSR value, only an `MRET` uses `mepc`, and only an RV32M
instruction uses the result of the units. -/
theorem packet_congr (hr : isCsr d = true → r = r') (hm : d.ctrl.isMret = true → m = m')
    (hu : isMdu d = true → u = u') :
    packet d x y r m illegal u = packet d x y r' m' illegal u' := by
  have htarget : controlTarget d x y m = controlTarget d x y m' := by
    unfold controlTarget
    split
    next h => exact hm h
    next => rfl
  have hmis : controlTargetMisaligned d x y m = controlTargetMisaligned d x y m' := by
    unfold controlTargetMisaligned
    split
    next h => rw [hm h]
    next => rfl
  have hexc : exc d x y m illegal = exc d x y m' illegal := by
    simp only [exc, htarget, hmis]
  have hres : (if isMdu d then u else aluResult d x y) =
      if isMdu d then u' else aluResult d x y := by
    split
    next h => exact hu h
    next => rfl
  have hold : (if isCsr d then r else 0#32) = if isCsr d then r' else 0#32 := by
    split
    next h => exact hr h
    next => rfl
  have hnew : (if isCsr d then csrWdata d r x else 0#32) =
      if isCsr d then csrWdata d r' x else 0#32 := by
    split
    next h => rw [hr h]
    next => rfl
  simp only [packet, hexc, hres, hold, hnew, htarget]

end ExStage

namespace IdStage

/-- Two packets decoded from one fetched packet differ in their operand values only. -/
theorem packet_eq (f : IfId) (a b a' b' : Word) :
    ∃ v w, packet f a b = { packet f a' b' with rs1Value := v, rs2Value := w } := by
  unfold packet
  split
  · exact ⟨_, _, rfl⟩
  · exact ⟨_, _, rfl⟩

end IdStage

namespace Seq

variable {E : Env} {S : Seq} {o : Observation} {t : ℕ} {pc : Word} {r : Regfile} {q : CsrFile}

/-- The packet that EX makes of the timer interrupt in front of the instruction at `pc`. -/
def interrupted (pc : Word) : ExMem :=
  ExStage.packet (IdEx.interrupt pc) 0#32 0#32 0#32 0#32 false 0#32

/-- `x` is what EX makes of the next step of the machine. -/
inductive Executes (E : Env) (S : Seq) (o : Observation) : ExMem → Prop
  | instr (counter : S.Counts E o) : Executes E S o (S.execute E o)
  | interrupt (enabled : S.csr.timerEnabled = true) (pending : o.mtipId = true)
      (clean : (IdStage.exc (S.fetch E)).valid = false) : Executes E S o (interrupted S.pc)

/-- In clock cycle `t` the state of the machine is that of the core. -/
structure Agrees (S : Seq) (t : ℕ) (pc : Word) (r : Regfile) (q : CsrFile) : Prop where
  pc : S.pc = pc
  regs : S.regs = r
  csr : S.csrAt t = q

/-- A state apart from `mcycle` is that of any cycle. -/
theorem Agrees.arch (h : S.Agrees t pc r q) : S.csr.arch = q.arch := by
  rw [← h.csr]
  rfl

/-- A cycle without commit. -/
theorem Agrees.bubble (h : S.Agrees t pc r q) (hq : q.Wf) :
    S.csrAt (t + 1) = q.next (MemWb.commit {}) := by
  rw [CsrFile.next_bubble hq, csrAt, CsrFile.later_succ, ← csrAt, h.csr]

/-- A commit has the same effect on both. -/
theorem Agrees.commit (h : S.Agrees t pc r q) (w : MemWb) (rs : List MemReq) :
    (S.commit t w rs).Agrees (t + 1) (w.nextPc q.mtvecQ) (r.write w.writesReg w.rd w.wbData)
      (q.next w.commit) where
  pc := by
    rw [← h.csr]
    rfl
  regs := by
    rw [← h.regs]
    rfl
  csr := by
    rw [← h.csr]
    exact CsrFile.later_earlier

/-- The two ways to clear the low bits. -/
theorem and_align (x : Word) : x &&& 0xfffffffc#32 = Word.align x := by
  apply BitVec.eq_of_getLsbD_eq
  intro k hk
  have hmask : ∀ k < 32, (0xfffffffc#32).getLsbD k = decide (2 ≤ k) := by decide
  rw [BitVec.getLsbD_and, hmask k hk, Word.align]
  simp only [BitVec.getLsbD_append, BitVec.getLsbD_extractLsb]
  by_cases h2 : 2 ≤ k
  · have hsub : 2 + (k - 2) = k := by omega
    have hlt : ¬ k < 2 := by omega
    simp [h2, hlt, hsub]
    omega
  · have hlt : k < 2 := by omega
    simp [h2, hlt]

/-- The commit of the interrupt packet makes the CSR updates of the interrupt. -/
private theorem csr_interrupt (hq : S.csr.Wf) :
    S.interrupt.csrAt (t + 1) = (S.csrAt t).next (interrupted S.pc).localPacket.commit := by
  have hs : S.csr.mstatusD (interrupted S.pc).localPacket.commit = S.interrupt.csr.mstatusQ := by
    -- the other bits have their reset values, so the normalisation does nothing
    let f (x : Word) := CsrFile.assignBit
      (CsrFile.assignBit x mstatusMpieBit (x.getLsbD mstatusMieBit)) mstatusMieBit false
    show mstatusMppMValue ||| ((f S.csr.mstatusQ ||| mstatusMppMValue) &&& mstatusWritableMask) =
      f S.csr.mstatusQ
    obtain h | h | h | h := CsrFile.mstatus_cases hq.mstatus <;> rw [h] <;> decide
  have hi : S.csr.mieD (interrupted S.pc).localPacket.commit = S.csr.mieQ := hq.mie
  have he : S.csr.mepcD (interrupted S.pc).localPacket.commit = S.interrupt.csr.mepcQ :=
    and_align S.pc
  have hu : S.csr.mcauseD (interrupted S.pc).localPacket.commit = 0x80000007#32 := by
    show mcauseInterruptMask ||| (0#27 ++ irqMTimerCause) = 0x80000007#32
    decide
  refine CsrFile.eq_of_arch ?_ ?_
  · exact CsrFile.arch_eq_iff.mpr ⟨hs.symm, hi.symm, rfl, rfl, he.symm, hu.symm, rfl, rfl⟩
  · -- the packet writes no CSR, so the counter counts
    have hm : (S.csr.later (t + 1)).mcycleQ = (S.csr.later t).mcycleQ + 1#64 :=
      congrArg CsrFile.mcycleQ CsrFile.later_succ
    exact hm

/-- The commit of the interrupt packet is the interrupt. -/
theorem Agrees.interrupt (h : S.Agrees t pc r q) (hq : q.Wf) {w : MemWb}
    (hw : w = (interrupted S.pc).localPacket) :
    S.interrupt.Agrees (t + 1) (w.nextPc q.mtvecQ) (r.write w.writesReg w.rd w.wbData)
      (q.next w.commit) := by
  subst hw
  refine ⟨?_, h.regs, ?_⟩
  · rw [← h.csr] at hq ⊢
    exact (Word.align_of_aligned hq.mtvec).symm
  · rw [csr_interrupt (hq.of_arch h.arch), h.csr]

end Seq

namespace Core

variable {P : CoreParams} {F : IfId → Prop} {c : Core} {i : CoreIn} {E : Env} {S : Seq}

/-- What EX computes for the CSR file depends on the instruction only. -/
private theorem exIn_csr (hready : Ready c i) (hv : c.idExQ.valid = true) :
    (c.exIn i).csrRdata = c.csrFile.rdata i.mtip (ExStage.csrRaddr true c.idExQ) ∧
      (c.exIn i).csrAccessIllegal = CsrFile.accessIllegal (ExStage.csrRaddr true c.idExQ)
        c.idExQ.ctrl.csrCmd (ExStage.csrAccessWrite true c.idExQ) := by
  have hactive : c.exActive i = true := hready.exActive.trans hv
  simp only [exIn, hactive, and_self]

/-- A read of the counter finds that of program order. -/
private theorem mcycle_eq (h : Reachable P c) (hv : c.idExQ.valid = true) {t : ℕ}
    (hcsr : S.csrAt (t + 2) = c.csrAfterOlder i) (hd : ExStage.isCsr c.idExQ = true)
    (hread : csrField c.idExQ.insn = csrMcycle ∨ csrField c.idExQ.insn = csrMcycleh) :
    c.csrFile.mcycleQ = (S.csrAt t).mcycleQ := by
  have hcmd : c.idExQ.ctrl.csrCmd ≠ .none := by simpa [ExStage.isCsr] using hd
  have hlater : (S.csrAt (t + 2)).mcycleQ = (S.csrAt t).mcycleQ + 2#64 := by
    simp [Seq.csrAt, CsrFile.later, BitVec.ofNat_add, BitVec.add_assoc]
  rw [hcsr, h.csrOrder.mcycle_csrAfterOlder hv hcmd hread] at hlater
  exact (BitVec.add_left_inj _).mp hlater

/-- The CSR value read is that of program order, and that of this cycle for the counter. -/
private theorem csrRdata_eq (h : Reachable P c) (hready : Ready c i)
    (hv : c.idExQ.valid = true) (o : Observation) (ho : o.mtipEx = i.mtip)
    (hcsr : S.csrAt (o.exCycle + 2) = c.csrAfterOlder i) (hd : ExStage.isCsr c.idExQ = true) :
    (c.exIn i).csrRdata = (S.csrRead o).rdata o.mtipEx (ExStage.csrRaddr true c.idExQ) := by
  have hcmd : c.idExQ.ctrl.csrCmd ≠ .none := by simpa [ExStage.isCsr] using hd
  have haddr : ExStage.csrRaddr true c.idExQ = csrField c.idExQ.insn := by
    simp [ExStage.csrRaddr, hd]
  have hread (hvol : csrField c.idExQ.insn ∉ volatileCsrs) (mtip : Bool) :
      c.csrFile.rdata i.mtip (csrField c.idExQ.insn) =
        (c.csrAfterOlder i).rdata mtip (csrField c.idExQ.insn) := by
    -- neither the commit of MEM/WB nor that of EX/MEM writes what is read
    have hw := h.csrOrder.memWb hv
    have hx := (h.csrOrder.exMem hv).mono (csrEffect_memWbD (i := i))
    rw [csrAfterOlder, rdata_next h.csrFile_wf.next hx (h.trapDrain.memWbD_clean hready hv) hcmd
      hvol i.mtip mtip, rdata_next h.csrFile_wf hw hready.trap hcmd hvol i.mtip i.mtip]
  have hcount := mcycle_eq h hv hcsr hd
  have harch : (S.csrRead o).arch = (c.csrAfterOlder i).arch := by
    rw [← hcsr]
    rfl
  rw [(exIn_csr hready hv).1, haddr, ho]
  generalize csrField c.idExQ.insn = a at hread hcount ⊢
  by_cases hc : a = csrMcycle
  · subst hc
    exact congrArg (BitVec.extractLsb 31 0) (hcount (.inl rfl))
  by_cases hch : a = csrMcycleh
  · subst hch
    exact congrArg (BitVec.extractLsb 63 32) (hcount (.inr rfl))
  by_cases hip : a = csrMip
  · subst hip
    rfl
  · rw [hread (by simp [volatileCsrs, hc, hch, hip]) i.mtip]
    exact (CsrFile.rdata_arch harch i.mtip hc hch).symm

/-- An `MRET` finds the `mepc` of program order. -/
private theorem mepc_eq (h : Reachable P c) (hready : Ready c i) (hv : c.idExQ.valid = true)
    {t : ℕ} (hcsr : S.csrAt t = c.csrAfterOlder i) (hm : c.idExQ.ctrl.isMret = true) :
    c.csrFile.mepcQ = S.csr.mepcQ := by
  have hS : S.csr.mepcQ = (c.csrAfterOlder i).mepcQ := by
    rw [← hcsr]
    rfl
  rw [hS, h.csrOrder.mepc_csrAfterOlder h.trapDrain hready hv hm]

/-- The operands are those that the machine decodes. -/
private theorem operands_eq {f : IfId} (h : Reachable P c) (hv : c.idExQ.valid = true)
    (hF : c.idExQ.Decoded F) (hf : f.valid = true)
    (hd : c.idExQ = IdStage.packet f c.idExQ.rs1Value c.idExQ.rs2Value) (loadData : Word) :
    ExStage.forwardedRs1 (c.exIn i) =
        (idStage f false 0#5 0#32 (c.pendingRegs loadData)).rs1Value ∧
      ExStage.forwardedRs2 (c.exIn i) =
        (idStage f false 0#5 0#32 (c.pendingRegs loadData)).rs2Value := by
  cases he : (IdStage.exc f).valid with
  | true =>
    -- an exception packet has no operands
    have hctrl : c.idExQ.ctrl = {} := hF.ctrl_of_exc (by rw [hd, IdStage.packet_exc hf, he])
    rw [forwardedRs1_of_not_uses (by rw [hctrl]), forwardedRs2_of_not_uses (by rw [hctrl]),
      hF.rs1 (by rw [hctrl]), hF.rs2 (by rw [hctrl])]
    simp [idStage, IdStage.packet, hf, he]
  | false =>
    have hexc : c.idExQ.exc.valid = false := by rw [hd, IdStage.packet_exc hf, he]
    obtain ⟨hc₁, hc₂⟩ := h.operands.coherent h.packets hv hexc i
    have hctrl : c.idExQ.ctrl = (decoder f.insn).ctrl := by
      rw [hd]
      simp [IdStage.packet, hf, he]
    have h₁ : c.idExQ.rs1 = (decoder f.insn).rs1 := by
      rw [hd]
      simp [IdStage.packet, hf]
    have h₂ : c.idExQ.rs2 = (decoder f.insn).rs2 := by
      rw [hd]
      simp [IdStage.packet, hf]
    simp only [idStage, IdStage.packet, hf, he, if_true, Bool.false_eq_true, if_false,
      IdStage.operand_eq_read_write, Regfile.write_false]
    rw [← hctrl, ← h₁, ← h₂]
    constructor
    · split
      next hu => exact (hc₁ hu).2 loadData
      next hu =>
        have hu : c.idExQ.ctrl.usesRs1 = false := by simpa using hu
        rw [forwardedRs1_of_not_uses hu, hF.rs1 hu]
    · split
      next hu => exact (hc₂ hu).2 loadData
      next hu =>
        have hu : c.idExQ.ctrl.usesRs2 = false := by simpa using hu
        rw [forwardedRs2_of_not_uses hu, hF.rs2 hu]

/-- EX hands over what the machine executes in the state left by all older instructions, which
commit in this cycle and in the next. -/
theorem exMemD_execute (h : Reachable P c) (hready : Ready c i)
    (hres : ExStage.resultValid (c.exIn i) = true) (hF : c.idExQ.Decoded F)
    (hf : (S.fetch E).valid = true)
    (hd : c.idExQ = IdStage.packet (S.fetch E) c.idExQ.rs1Value c.idExQ.rs2Value)
    (hregs : S.regs = c.pendingRegs (c.memWbD i).wbData) (o : Observation)
    (ho : o.mtipEx = i.mtip) (hm : o.mcycle = c.csrFile.mcycleQ)
    (hcsr : S.csrAt (o.exCycle + 2) = c.csrAfterOlder i) :
    c.exMemD i = S.execute E o ∧ S.Counts E o := by
  have hv := valid_of_resultValid hres
  obtain ⟨h₁, h₂⟩ := operands_eq (i := i) h hv hF hf hd (c.memWbD i).wbData
  rw [← hregs] at h₁ h₂
  have hmdu (hu : ExStage.isMdu c.idExQ = true) :=
    h.mulDiv.mduResult h.packets h.operands hres hu
  obtain ⟨v, w, hdec⟩ : ∃ v w, c.idExQ = { S.decode E with rs1Value := v, rs2Value := w } := by
    rw [hd]
    exact IdStage.packet_eq ..
  constructor
  · rw [exMemD_eq, if_pos hres, exPacket, (exIn_csr hready hv).2,
      ExStage.packet_congr
        (fun hc => csrRdata_eq h hready hv o ho hcsr hc)
        (fun hm => mepc_eq h hready hv hcsr hm) hmdu, h₁, h₂, hdec]
    -- EX looks at the forwarded operands, not at the values in the packet
    rfl
  · intro hread
    simp only [Seq.readsMcycle, Bool.and_eq_true, Bool.or_eq_true, beq_iff_eq] at hread
    rw [hm]
    exact mcycle_eq h hv hcsr (by rw [hdec]; exact hread.1) (by rw [hdec]; exact hread.2)

/-- An interrupt packet passes EX as it is. -/
theorem exMemD_interrupted (hready : Ready c i) (hres : ExStage.resultValid (c.exIn i) = true)
    {pc : Word} (hd : c.idExQ = IdEx.interrupt pc) : c.exMemD i = Seq.interrupted pc := by
  have hctrl : c.idExQ.ctrl = {} := by rw [hd]; rfl
  have h₁ : ExStage.forwardedRs1 (c.exIn i) = 0#32 := by
    rw [forwardedRs1_of_not_uses (by rw [hctrl]), hd]
    rfl
  have h₂ : ExStage.forwardedRs2 (c.exIn i) = 0#32 := by
    rw [forwardedRs2_of_not_uses (by rw [hctrl]), hd]
    rfl
  have hill := (exIn_csr hready (valid_of_resultValid hres)).2
  rw [hctrl] at hill
  rw [exMemD_eq, if_pos hres, exPacket, h₁, h₂, hill, hd]
  rfl

end Core

end Rv32im

import Rv32im.Core.CsrOrder
import Rv32im.Core.DataAccess

/-!
# Timer interrupts

The enable bits `mstatus.MIE` and `mie.MTIE` that let an interrupt packet into ID/EX are still
set when it commits: what could clear them has left the pipeline, and nothing behind it commits
before.

* `CsrFile.timerEnabled`: both enable bits are set;
* `Core.WriterAlone`: a writer of the enable bits in MEM/WB has nothing behind it in EX/MEM;
* `Core.Interrupts`: an interrupt packet in any slot finds them set.
-/

namespace Rv32im

namespace CsrFile

variable (q : CsrFile) (k : CsrCommit)

/-- `mstatus.MIE` and `mie.MTIE` are set. -/
def timerEnabled : Bool := q.mstatusQ.getLsbD mstatusMieBit && q.mieQ.getLsbD mintMtipBit

variable {q k}

/-- The timer interrupt is eligible if it is pending and the state after the commit enables it. -/
theorem eligible_eq (mtip : Bool) : q.mtimerIrqEligibleAfterCommit k mtip =
    (mtip && (q.next k).timerEnabled) := by
  have hmip : (mipValue mtip).getLsbD mintMtipBit = mtip := by cases mtip <;> decide
  rw [mtimerIrqEligibleAfterCommit, hmip, Bool.and_assoc, Bool.and_comm (BitVec.getLsbD _ _)]
  rfl

/-- A commit that is no trap and does not write the enable state keeps it. -/
theorem timerEnabled_commit {w : MemWb} (hq : q.Wf) (ht : w.trap = false)
    (hw : w.irqStateWriter = false) : (q.next w.commit).timerEnabled = q.timerEnabled := by
  have htrap : w.commit.trapValid = false := ht
  -- an `MRET` would be a writer of the enable state
  have hmret : w.commit.mretCommit = false := by
    simp only [MemWb.commit, MemWb.retire]
    simp only [MemWb.irqStateWriter] at hw
    grind
  have hwrite (a : CsrAddr) (ha : a = csrMstatus ∨ a = csrMie) :
      (w.commit.commitWrite && w.commit.commitWaddr == a) = false := by
    simp only [MemWb.commit, MemWb.retire]
    simp only [MemWb.irqStateWriter] at hw
    grind
  have hmstatus : (q.next w.commit).mstatusQ = q.mstatusQ := by
    show q.mstatusD w.commit = q.mstatusQ
    simp only [mstatusD, mstatusUpdate, htrap, hmret, hwrite csrMstatus (.inl rfl),
      Bool.false_eq_true, if_false]
    exact hq.mstatus
  have hmie : (q.next w.commit).mieQ = q.mieQ := by
    show q.mieD w.commit = q.mieQ
    simp only [mieD, writes, normalWrite, htrap, hmret, Bool.not_false, Bool.true_and,
      hwrite csrMie (.inr rfl), Bool.false_eq_true, if_false]
    exact hq.mie
  rw [timerEnabled, hmstatus, hmie, timerEnabled]

end CsrFile

namespace Core

variable {P : CoreParams} {c : Core} {i : CoreIn}

/-- Behind a writer of the enable state in MEM/WB there is nothing in EX/MEM; the packet in
ID/EX is covered by `CsrOrder`. -/
def WriterAlone (c : Core) : Prop := c.exMemQ.valid = true → c.memWbQ.irqStateWriter = false

/-- What MEM hands over writes the enable state only if the packet in EX/MEM does. -/
theorem CsrOrder.irqStateWriter_memWbD (h : CsrOrder c) (hv : c.idExQ.valid = true) :
    (c.memWbD i).irqStateWriter = false := by
  by_contra hne
  have hirq : (c.memWbD i).csrEffect.irqState = true := by
    rw [← Bool.not_eq_false]
    exact hne
  have := csrEffect_memWbD.irqState hirq
  simp [(h.exMem hv).irqState] at this

/-- Every cycle keeps a writer alone. -/
theorem WriterAlone.next (h : CsrOrder c) : WriterAlone (next P c i) := by
  -- EX/MEM is filled from ID/EX, whose packet had no writer in EX/MEM before it
  have hmove (hx : (Core.next P c i).exMemQ = c.exMemD i)
      (hw : (Core.next P c i).memWbQ = c.memWbD i) : WriterAlone (Core.next P c i) := by
    intro hv
    rw [hx, exMemD_valid] at hv
    rw [hw]
    exact h.irqStateWriter_memWbD (valid_of_resultValid hv)
  have hbubble (hx : (Core.next P c i).exMemQ = {}) : WriterAlone (Core.next P c i) := by
    intro hv
    simp [hx] at hv
  cases next_cases P c i with
  | reset rst edge => exact hbubble edge.exMem
  | wbTrap rst trap edge => exact hbubble edge.exMem
  | memException rst trap exc edge => exact hbubble edge.exMem
  | memWait rst trap wait edge =>
    -- MEM/WB is emptied
    intro _
    rw [edge.memWb]
    rfl
  | exException ready exc edge => exact hmove edge.exMem edge.memWb
  | exWait ready wait edge => exact hbubble edge.exMem
  | trapDrain fires drain edge => exact hmove edge.exMem edge.memWb
  | exRedirect fires drain redirect edge => exact hmove edge.exMem edge.memWb
  | stall fires drain redirect stall edge => exact hmove edge.exMem edge.memWb
  | idTrap fires drain redirect irqWait exc edge => exact hmove edge.exMem edge.memWb
  | advance fires drain redirect irqWait exc loadUse csrDep edge =>
    exact hmove edge.exMem edge.memWb

/-- It is so in every reachable state. -/
theorem Reachable.writerAlone (h : Reachable P c) : WriterAlone c := by
  refine h.holds (fun c i hrst => ?_) fun c i hc _ => WriterAlone.next hc.csrOrder
  intro hv
  simp [(edge_reset P c hrst).exMem] at hv

/-- An interrupt packet finds the interrupt enabled: in ID/EX now, in EX/MEM after the commit
of MEM/WB, in MEM/WB at its own commit. -/
structure Interrupts (c : Core) : Prop where
  idEx : c.idExQ.trap = true → c.idExQ.exc.isInterrupt = true → c.csrFile.timerEnabled = true
  exMem : c.exMemQ.trap = true → c.exMemQ.exc.isInterrupt = true →
    (c.csrFile.next c.memWbQ.commit).timerEnabled = true
  memWb : c.memWbQ.trap = true → c.memWbQ.exc.isInterrupt = true →
    c.csrFile.timerEnabled = true

variable {F : IfId → Prop}

/-- A fetched packet is no interrupt. -/
theorem isInterrupt_exc {f : IfId} (hf : f.exc.isInterrupt = false) :
    (IdStage.exc f).isInterrupt = false := by
  unfold IdStage.exc
  split_ifs <;> simp [hf]

/-- Only the interrupt packet carries an interrupt. -/
theorem Packets.eq_interrupt (hp : Packets F c) (hF : ∀ f, F f → f.exc.isInterrupt = false)
    (hv : c.idExQ.valid = true) (hi : c.idExQ.exc.isInterrupt = true) :
    ∃ f, F f ∧ f.valid = true ∧ (IdStage.exc f).valid = false ∧
      c.idExQ = IdEx.interrupt f.pc := by
  obtain ⟨f, hf, hfv, hd | ⟨he, hd⟩⟩ := (hp.idEx hv).form
  · rw [hd, IdStage.packet_exc hfv, isInterrupt_exc (hF f hf)] at hi
    simp at hi
  · exact ⟨f, hf, hfv, he, hd⟩

/-- EX finds no interrupts. -/
theorem Packets.isInterrupt_exMemD (hp : Packets F c) (hF : ∀ f, F f → f.exc.isInterrupt = false)
    (ht : (c.exMemD i).valid = true) (hi : (c.exMemD i).exc.isInterrupt = true) :
    c.idExQ.trap = true ∧ c.idExQ.exc.isInterrupt = true := by
  rw [exMemD_valid] at ht
  have hv := valid_of_resultValid ht
  rw [exMemD_eq, if_pos ht] at hi
  have hint : c.idExQ.exc.isInterrupt = true := by
    by_contra hne
    simp only [exPacket, ExStage.packet_exc, ExStage.exc] at hi
    split_ifs at hi <;> simp_all
  obtain ⟨f, -, -, -, hd⟩ := hp.eq_interrupt hF hv hint
  exact ⟨by rw [hd]; rfl, hint⟩

/-- An access fault is no interrupt, so MEM takes interrupts from EX/MEM only. -/
theorem DataAccess.isInterrupt_memWbD (h : DataAccess c) (hrst : i.rst = false)
    (ht : (c.memWbD i).trap = true) (hi : (c.memWbD i).exc.isInterrupt = true) :
    c.exMemQ.trap = true ∧ c.exMemQ.exc.isInterrupt = true := by
  have hv : c.exMemQ.valid = true ∧ c.memWait i = false := by
    have := (Bool.and_eq_true_iff.mp ht).1
    rw [memWbD_valid, Bool.and_eq_true, Bool.not_eq_true'] at this
    exact this
  cases hm : c.exMemQ.isMemory with
  | true =>
    rw [h.memWbD_completed hrst hm hv.2, ExMem.completed] at hi
    split at hi
    · simp only [ExMem.accessPacket, LsuOp.exception, Lsu.makeAccessException] at hi
      split at hi <;> simp at hi
    · simp only [ExMem.accessPacket, LsuOp.localException, Lsu.makeMisalignedException] at hi
      split at hi <;> simp at hi
  | false =>
    rw [memWbD_of_not_isMemory hm, if_pos hv.1] at ht hi
    simp only [MemWb.trap, ExMem.localPacket, Bool.true_and] at ht hi
    exact ⟨by rw [ExMem.trap, hv.1, ht]; rfl, hi⟩

/-- An interrupt packet enters ID/EX only if the commit of this cycle leaves it enabled. -/
theorem enabled_of_idExD (hf : c.ifIdQ.valid = true → c.ifIdQ.exc.isInterrupt = false)
    (hv : (c.idExD i).valid = true) (hi : (c.idExD i).exc.isInterrupt = true) :
    i.mtip = true ∧ (c.csrFile.next c.memWbQ.commit).timerEnabled = true := by
  have hc : c.idInterruptCandidate i = true := by
    by_contra hne
    have hd : c.idExD i = c.idExDecoded := if_neg hne
    rw [idExD_valid] at hv
    rw [hd, idExDecoded, idStage, IdStage.packet_exc hv, isInterrupt_exc (hf hv)] at hi
    simp at hi
  simp only [idInterruptCandidate, irqEligible, CsrFile.eligible_eq, Bool.and_eq_true] at hc
  exact hc.1.1.1.2

theorem Interrupts.of_empty {b : Bool} {k : FetchCmd} {r : Bool}
    (edge : Edge P c i {} {} {} {} b k r) : Interrupts (next P c i) := by
  constructor <;> simp [edge.idEx, edge.exMem, edge.memWb]

/-- Every cycle keeps interrupt packets enabled. -/
theorem Interrupts.next (h : Interrupts c) (hp : Packets F c)
    (hF : ∀ f, F f → f.exc.isInterrupt = false) (hwf : c.csrFile.Wf) (ho : CsrOrder c)
    (ht : TrapDrain c) (ha : DataAccess c) : Interrupts (Core.next P c i) := by
  cases hrst : i.rst with
  | true => exact .of_empty (edge_reset P c hrst)
  | false =>
  have hcsr := next_csrFile P c hrst
  -- the commit of this cycle keeps the state a packet in ID/EX has found
  have hkeep (hv : c.idExQ.valid = true) (htrap : c.memWbQ.trap = false) :
      (Core.next P c i).csrFile.timerEnabled = c.csrFile.timerEnabled := by
    rw [hcsr]
    exact CsrFile.timerEnabled_commit hwf htrap (ho.memWb hv).irqState
  have hid (htrap : c.memWbQ.trap = false) (hd : c.idExQ.trap = true)
      (hi : c.idExQ.exc.isInterrupt = true) :
      (Core.next P c i).csrFile.timerEnabled = true := by
    rw [hkeep (Bool.and_eq_true_iff.mp hd).1 htrap]
    exact h.idEx hd hi
  have hmem (hw : (Core.next P c i).memWbQ = {} ∨ (Core.next P c i).memWbQ = c.memWbD i)
      (hm : (Core.next P c i).memWbQ.trap = true)
      (hi : (Core.next P c i).memWbQ.exc.isInterrupt = true) :
      (Core.next P c i).csrFile.timerEnabled = true := by
    rcases hw with hw | hw
    · simp [hw] at hm
    · rw [hw] at hm hi
      obtain ⟨hx, hxi⟩ := ha.isInterrupt_memWbD hrst hm hi
      rw [hcsr]
      exact h.exMem hx hxi
  have hex (hready : Ready c i) (hw : (Core.next P c i).memWbQ = c.memWbD i)
      (hx : (c.exMemD i).trap = true) (hi : (c.exMemD i).exc.isInterrupt = true) :
      ((Core.next P c i).csrFile.next (Core.next P c i).memWbQ.commit).timerEnabled = true := by
    obtain ⟨hd, hdi⟩ := hp.isInterrupt_exMemD hF (Bool.and_eq_true_iff.mp hx).1 hi
    have hv := (Bool.and_eq_true_iff.mp hd).1
    -- the packet in front of the interrupt packet neither traps nor writes the enable bits
    have hmt : (c.memWbD i).trap = false := by
      rw [memWbD_trap, (ht.idEx hd).2.1, hready.memException]
      rfl
    have hwf' : (Core.next P c i).csrFile.Wf := hcsr ▸ hwf.next
    rw [hw, CsrFile.timerEnabled_commit hwf' hmt (ho.irqStateWriter_memWbD hv)]
    exact hid hready.trap hd hdi
  have hdec (hv : (c.idExD i).trap = true) (hi : (c.idExD i).exc.isInterrupt = true) :
      (Core.next P c i).csrFile.timerEnabled = true := by
    rw [hcsr]
    exact (enabled_of_idExD (fun hf => hF _ (hp.ifId hf)) (Bool.and_eq_true_iff.mp hv).1 hi).2
  have hw := next_memWbQ P c i
  cases next_cases P c i with
  | reset rst edge => exact .of_empty edge
  | wbTrap rst trap edge => exact .of_empty edge
  | memException rst trap exc edge =>
    exact ⟨by simp [edge.idEx], by simp [edge.exMem], hmem hw⟩
  | memWait rst trap wait edge =>
    have hx : c.exMemQ.trap = false := by
      simp only [memWait, Bool.and_eq_true] at wait
      exact ExMem.trap_of_isMemory wait.1
    refine ⟨fun hd hi => ?_, fun hx' => ?_, hmem hw⟩
    · rw [edge.idEx] at hd hi
      exact hid trap (by simpa using hd) (by simpa using hi)
    · simp [edge.exMem, hx] at hx'
  | exException ready exc edge =>
    exact ⟨by simp [edge.idEx],
      fun hx hi => hex ready edge.memWb (edge.exMem ▸ hx) (edge.exMem ▸ hi),
      hmem hw⟩
  | exWait ready wait edge =>
    refine ⟨fun hd hi => ?_, by simp [edge.exMem], hmem hw⟩
    rw [edge.idEx] at hd hi
    exact hid ready.trap (by simpa using hd) (by simpa using hi)
  | trapDrain fires drain edge =>
    refine ⟨fun hd hi => ?_, fun hx hi => ?_, hmem hw⟩
    · exact hdec (edge.idEx ▸ hd) (edge.idEx ▸ hi)
    · exact hex fires.toReady edge.memWb (edge.exMem ▸ hx) (edge.exMem ▸ hi)
  | exRedirect fires drain redirect edge =>
    exact ⟨by simp [edge.idEx], fun hx hi => hex fires.toReady edge.memWb (edge.exMem ▸ hx)
      (edge.exMem ▸ hi), hmem hw⟩
  | stall fires drain redirect stall edge =>
    exact ⟨by simp [edge.idEx], fun hx hi => hex fires.toReady edge.memWb (edge.exMem ▸ hx)
      (edge.exMem ▸ hi), hmem hw⟩
  | idTrap fires drain redirect irqWait exc edge =>
    refine ⟨fun hd hi => ?_, fun hx hi => ?_, hmem hw⟩
    · exact hdec (edge.idEx ▸ hd) (edge.idEx ▸ hi)
    · exact hex fires.toReady edge.memWb (edge.exMem ▸ hx) (edge.exMem ▸ hi)
  | advance fires drain redirect irqWait exc loadUse csrDep edge =>
    refine ⟨fun hd hi => ?_, fun hx hi => ?_, hmem hw⟩
    · exact hdec (edge.idEx ▸ hd) (edge.idEx ▸ hi)
    · exact hex fires.toReady edge.memWb (edge.exMem ▸ hx) (edge.exMem ▸ hi)

end Core

end Rv32im

import Rv32im.Core.Operands

/-!
# CSR reads in program order

There is no CSR forwarding: an instruction enters ID/EX only when no older instruction still in
flight can change what it reads. The invariant states this by the effects of the two older
slots on the CSR state.

* `CsrEffect`: what the packet of a slot will do to the CSR state when it commits;
* `IdEx.After`: an effect that does not matter to a packet;
* `Core.CsrOrder`: the invariant;
* `Core.csrAfterOlder`: the CSR state after the commits of MEM/WB and EX/MEM.
-/

namespace Rv32im

/-- What the packet of a slot does to the CSR state when it commits. -/
structure CsrEffect where
  /-- It writes the CSR `addr`, -/
  writes : Bool
  addr : CsrAddr
  /-- changes the interrupt-enable state, -/
  irqState : Bool
  /-- counts as a retirement. -/
  retires : Bool

/-- What the packet in ID/EX can still do; EX may turn it into a trap. -/
def IdEx.csrEffect (d : IdEx) : CsrEffect where
  writes := HazardUnit.idExCsrWriter d
  addr := csrField d.insn
  irqState := d.irqStateWriter
  retires := d.valid && !d.exc.valid

/-- What the packet in EX/MEM can still do; MEM may turn it into a trap. -/
def ExMem.csrEffect (x : ExMem) : CsrEffect where
  writes := HazardUnit.exMemCsrWriter x
  addr := x.csrAddr
  irqState := x.irqStateWriter
  retires := x.valid && !x.exc.valid

/-- What the packet in MEM/WB does in this cycle. -/
def MemWb.csrEffect (w : MemWb) : CsrEffect where
  writes := w.retire && w.csrWrite
  addr := w.csrAddr
  irqState := w.irqStateWriter
  retires := w.retire

/-- The address belongs to the retirement counter. -/
def isMinstret (a : CsrAddr) : Bool := a == csrMinstret || a == csrMinstreth

/-- `d` reads the CSR state after effect `e` already, or the effect does not change what `d`
reads. -/
structure IdEx.After (d : IdEx) (e : CsrEffect) : Prop where
  irqState : e.irqState = false
  csr : d.ctrl.csrCmd ≠ .none → e.writes = true →
    HazardUnit.csrAddressesConflict (csrField d.insn) e.addr = false
  mret : d.ctrl.isMret = true → e.writes = true → e.addr ≠ csrMepc
  minstret : d.ctrl.csrCmd ≠ .none → isMinstret (csrField d.insn) = true → e.retires = false

/-- `e'` does no more than `e`. -/
structure CsrEffect.Le (e' e : CsrEffect) : Prop where
  writes : e'.writes = true → e.writes = true ∧ e'.addr = e.addr
  irqState : e'.irqState = true → e.irqState = true
  retires : e'.retires = true → e.retires = true

/-- A packet that comes after an effect comes after any smaller one. -/
theorem IdEx.After.mono {d : IdEx} {e e' : CsrEffect} (h : d.After e) (hle : e'.Le e) :
    d.After e' := by
  constructor
  · by_contra hne
    have := hle.irqState (by simpa using hne)
    simp [h.irqState] at this
  · intro hcmd hw
    obtain ⟨hw', haddr⟩ := hle.writes hw
    rw [haddr]
    exact h.csr hcmd hw'
  · intro hm hw
    obtain ⟨hw', haddr⟩ := hle.writes hw
    rw [haddr]
    exact h.mret hm hw'
  · intro hcmd ha
    by_contra hne
    have := hle.retires (by simpa using hne)
    simp [h.minstret hcmd ha] at this

/-- The order depends on the instruction only. -/
theorem IdEx.After.congr {d d' : IdEx} {e : CsrEffect} (h : d.After e) (hinsn : d'.insn = d.insn)
    (hctrl : d'.ctrl = d.ctrl) : d'.After e := by
  constructor
  · exact h.irqState
  · rw [hctrl, hinsn]; exact h.csr
  · rw [hctrl]; exact h.mret
  · rw [hctrl, hinsn]; exact h.minstret

/-- Nothing comes after a bubble's effect in vain. -/
theorem IdEx.after_bubble (d : IdEx) : d.After (ExMem.csrEffect {}) := by
  constructor <;> simp [ExMem.csrEffect, HazardUnit.exMemCsrWriter, ExMem.irqStateWriter]

namespace Core

variable {P : CoreParams} {F : IfId → Prop} {c : Core} {i : CoreIn}

/-- EX adds no effect. -/
theorem csrEffect_exMemD : (c.exMemD i).csrEffect.Le c.idExQ.csrEffect := by
  rw [exMemD_eq]
  split
  next hr =>
    have hv := valid_of_resultValid hr
    -- EX keeps an older exception, so a packet that leaves without one had none
    have hexc : (c.exPacket i).exc.valid = false → c.idExQ.exc.valid = false := by
      intro he
      by_contra hne
      have hd : c.idExQ.exc.valid = true := by simpa using hne
      simp [exPacket, ExStage.exc_of_exc hd, hd] at he
    constructor
    · intro hw
      simp only [ExMem.csrEffect, HazardUnit.exMemCsrWriter, Bool.and_eq_true,
        Bool.not_eq_true'] at hw
      have hd := hexc hw.1.2
      have he : (ExStage.exc c.idExQ _ _ _ _).valid = false := hw.1.2
      have hcsr := hw.2
      simp only [exPacket, ExStage.packet, he, Bool.false_eq_true, if_false,
        Bool.and_eq_true, ExStage.csrWrite_eq_csrCommandWrites] at hcsr
      simp [IdEx.csrEffect, ExMem.csrEffect, HazardUnit.idExCsrWriter, hv, hd, hcsr.2, exPacket,
        ExStage.packet, hcsr.1]
    · intro hirq
      simp only [ExMem.csrEffect, ExMem.irqStateWriter, Bool.and_eq_true, Bool.not_eq_true'] at hirq
      obtain ⟨⟨-, he⟩, hw⟩ := hirq
      have hd := hexc he
      have he : (ExStage.exc c.idExQ _ _ _ _).valid = false := he
      simp only [exPacket, ExStage.packet, he, Bool.false_eq_true, if_false,
        ExStage.csrWrite_eq_csrCommandWrites] at hw
      -- an `MRET` or a write to `mstatus` or `mie` is one already in ID/EX
      cases hcsr : ExStage.isCsr c.idExQ <;>
        simp_all [IdEx.csrEffect, IdEx.irqStateWriter]
    · intro hret
      simp only [ExMem.csrEffect, Bool.and_eq_true, Bool.not_eq_true'] at hret
      simp [IdEx.csrEffect, hv, hexc hret.2]
  next =>
    constructor <;> simp [ExMem.csrEffect, HazardUnit.exMemCsrWriter, ExMem.irqStateWriter]

/-- MEM adds no effect. -/
theorem csrEffect_memWbD : (c.memWbD i).csrEffect.Le c.exMemQ.csrEffect := by
  unfold memWbD
  cases hv : c.exMemQ.valid with
  | false => constructor <;> simp [MemWb.csrEffect, MemWb.retire, MemWb.irqStateWriter]
  | true =>
    cases hm : c.exMemQ.isMemory with
    | true =>
      -- a memory operation writes no CSR, and it retires only if its access succeeds
      have hexc := ExMem.exc_of_isMemory hm
      cases c.lsuRspValid i <;> constructor <;>
        simp [MemWb.csrEffect, MemWb.retire, MemWb.irqStateWriter, ExMem.accessPacket,
          ExMem.csrEffect, hv, hexc]
    | false =>
      cases hexc : c.exMemQ.exc.valid <;> constructor <;>
        simp [MemWb.csrEffect, MemWb.retire, MemWb.irqStateWriter, ExMem.localPacket,
          ExMem.csrEffect, HazardUnit.exMemCsrWriter, ExMem.irqStateWriter, hv, hexc]

/-- What is in ID/EX comes after the effects of the older slots. -/
structure CsrOrder (c : Core) : Prop where
  exMem : c.idExQ.valid = true → c.idExQ.After c.exMemQ.csrEffect
  memWb : c.idExQ.valid = true → c.idExQ.After c.memWbQ.csrEffect

/-- The interlocks let a packet enter ID/EX only after the effects of ID/EX and EX/MEM. -/
theorem after_idExD (hv : (c.idExD i).valid = true) (hirq : c.irqStateWait = false)
    (hdep : HazardUnit.csrDep (c.idExD i) c.idExQ c.exMemQ = false) :
    (c.idExD i).After c.idExQ.csrEffect ∧ (c.idExD i).After c.exMemQ.csrEffect := by
  simp only [irqStateWait, Bool.or_eq_false_iff] at hirq
  simp only [HazardUnit.csrDep, HazardUnit.csrDependency, HazardUnit.mretDependency,
    HazardUnit.minstretDependency, hv, Bool.true_and, Bool.or_eq_false_iff] at hdep
  obtain ⟨⟨hcsr, hmret⟩, hmin⟩ := hdep
  -- one interlock for each field, each looking at both older slots
  have hcsr' (hcmd : (c.idExD i).ctrl.csrCmd ≠ .none) := by simpa [hcmd] using hcsr
  have hmret' (hm : (c.idExD i).ctrl.isMret = true) := by simpa [hm] using hmret
  have hmin' (hcmd : (c.idExD i).ctrl.csrCmd ≠ .none)
      (ha : isMinstret (csrField (c.idExD i).insn) = true) := by
    simp only [isMinstret] at ha
    simpa [hcmd, ha] using hmin
  refine ⟨⟨hirq.1, ?_, ?_, ?_⟩, ⟨hirq.2, ?_, ?_, ?_⟩⟩
  · exact fun hcmd => (hcsr' hcmd).1
  · exact fun hm => (hmret' hm).1
  · intro hcmd ha
    simpa [IdEx.csrEffect] using (hmin' hcmd ha).1
  · exact fun hcmd => (hcsr' hcmd).2
  · exact fun hm => (hmret' hm).2
  · intro hcmd ha
    simpa [ExMem.csrEffect] using (hmin' hcmd ha).2

/-- A trap packet reads no CSR, it only waits for the interrupt-enable state. -/
theorem after_of_exc {d : IdEx} {e : CsrEffect} (hctrl : d.ctrl = {}) (he : e.irqState = false) :
    d.After e := by
  constructor <;> simp [hctrl, he]

theorem CsrOrder.of_not_valid (h : (next P c i).idExQ.valid = false) : CsrOrder (next P c i) := by
  constructor <;> simp [h]

/-- Every cycle keeps the order. -/
theorem CsrOrder.next (h : CsrOrder c) (ht : TrapDrain c) : CsrOrder (next P c i) := by
  cases next_cases P c i with
  | reset rst edge => exact .of_not_valid (by rw [edge.idEx])
  | wbTrap rst trap edge => exact .of_not_valid (by rw [edge.idEx])
  | memException rst trap exc edge => exact .of_not_valid (by rw [edge.idEx])
  | memWait rst trap wait edge =>
    constructor <;> simp only [edge.idEx, edge.exMem, edge.memWb, IdEx.refresh_valid]
    · -- refreshed operands are all that changes in a held packet, and MEM/WB is empty
      exact fun hv => (h.exMem hv).congr (by simp) (by simp)
    · intro _
      constructor <;> simp [MemWb.csrEffect, MemWb.retire, MemWb.irqStateWriter]
  | exException ready exc edge => exact .of_not_valid (by rw [edge.idEx])
  | exWait ready wait edge =>
    constructor <;> simp only [edge.idEx, edge.exMem, edge.memWb, IdEx.refresh_valid]
    · exact fun _ => IdEx.after_bubble _
    · exact fun hv => ((h.exMem hv).mono csrEffect_memWbD).congr (by simp) (by simp)
  | trapDrain fires drain edge =>
    refine .of_not_valid ?_
    rw [edge.idEx, idExD_of_not_valid (ht.ifId drain)]
  | exRedirect fires drain redirect edge => exact .of_not_valid (by rw [edge.idEx])
  | stall fires drain redirect stall edge => exact .of_not_valid (by rw [edge.idEx])
  | idTrap fires drain redirect irqWait exc edge =>
    -- a trap packet waits for the writers of the enable state only
    have hctrl := idExD_ctrl_of_exc exc.2
    simp only [irqStateWait, Bool.or_eq_false_iff] at irqWait
    constructor <;> simp only [edge.idEx, edge.exMem, edge.memWb] <;> intro _
    · exact (after_of_exc (e := c.idExQ.csrEffect) hctrl irqWait.1).mono csrEffect_exMemD
    · exact (after_of_exc (e := c.exMemQ.csrEffect) hctrl irqWait.2).mono csrEffect_memWbD
  | advance fires drain redirect irqWait exc loadUse csrDep edge =>
    constructor <;> simp only [edge.idEx, edge.exMem, edge.memWb] <;> intro hv
    · -- both older packets move one slot on, and lose effects at most
      exact (after_idExD hv irqWait csrDep).1.mono csrEffect_exMemD
    · exact (after_idExD hv irqWait csrDep).2.mono csrEffect_memWbD

/-- The order holds in every reachable state. -/
theorem Reachable.csrOrder (h : Reachable P c) : CsrOrder c := by
  refine h.holds (fun c i hrst => .of_not_valid ?_) fun c i hc ho => ho.next hc.trapDrain
  rw [(edge_reset P c hrst).idEx]

/-- The CSR state is well formed in every reachable state. -/
theorem Reachable.csrFile_wf (h : Reachable P c) : c.csrFile.Wf := by
  refine h.holds (I := fun c => c.csrFile.Wf) (fun c i hrst => ?_) fun c i _ hw => ?_
  · simp only [next, hrst, if_true]
    exact .reset _
  · simp only [next]
    split
    · exact .reset _
    · exact hw.next

/-! ### The value read -/

/-- The CSR state after the commits of MEM/WB and of the packet EX/MEM hands over. -/
def csrAfterOlder (c : Core) (i : CoreIn) : CsrFile :=
  (c.csrFile.next c.memWbQ.commit).next (c.memWbD i).commit

/-- The CSRs that change without a commit of the program. -/
def volatileCsrs : List CsrAddr := [csrMcycle, csrMcycleh, csrMip]

/-- A commit that `d` comes after writes no address that conflicts with the one that `d` reads: it
would have stalled `d`. -/
theorem writes_of_after {d : IdEx} {w : MemWb} {a : CsrAddr} (ha : d.After w.csrEffect)
    (hcmd : d.ctrl.csrCmd ≠ .none)
    (hconf : HazardUnit.csrAddressesConflict (csrField d.insn) a = true) :
    CsrFile.writes w.commit a = false := by
  by_contra hne
  simp only [CsrFile.writes, CsrFile.normalWrite, MemWb.commit, Bool.not_eq_false,
    Bool.and_eq_true, beq_iff_eq] at hne
  have := ha.csr hcmd (by simpa [MemWb.csrEffect] using hne.1.2)
  simp [MemWb.csrEffect, hne.2, hconf] at this

/-- A commit that `d` comes after leaves the CSR `d` reads as it is. -/
theorem rdata_next {d : IdEx} {w : MemWb} {q : CsrFile} (hq : q.Wf) (ha : d.After w.csrEffect)
    (htrap : w.trap = false) (hcmd : d.ctrl.csrCmd ≠ .none)
    (hvol : csrField d.insn ∉ volatileCsrs) (mtip mtip' : Bool) :
    (q.next w.commit).rdata mtip' (csrField d.insn) = q.rdata mtip (csrField d.insn) := by
  have hmret : (w.retire && w.isMret) = false := by
    have := ha.irqState
    simp only [MemWb.csrEffect, MemWb.irqStateWriter] at this
    simp only [MemWb.retire]
    grind
  have hwrites (a : CsrAddr) := writes_of_after (a := a) ha hcmd
  have hconf : HazardUnit.csrAddressesConflict (csrField d.insn) (csrField d.insn) = true := by
    unfold HazardUnit.csrAddressesConflict
    split_ifs with h₁ h₂
    · rcases h₁ with h | h <;> simp [h]
    · rcases h₂ with h | h <;> simp [h]
    · simp
  have hself := hwrites _ hconf
  have hcommit : w.commit.trapValid = false ∧ w.commit.mretCommit = false := ⟨htrap, hmret⟩
  have hret : isMinstret (csrField d.insn) = true → w.commit.retire = false := ha.minstret hcmd
  -- the two halves of the counter conflict with each other
  have hmin : isMinstret (csrField d.insn) = true →
      CsrFile.writes w.commit csrMinstret = false ∧
        CsrFile.writes w.commit csrMinstreth = false := by
    intro hm
    simp only [isMinstret, Bool.or_eq_true, beq_iff_eq] at hm
    constructor <;> apply hwrites <;> rcases hm with h | h <;> rw [h] <;> decide
  generalize csrField d.insn = a at *
  generalize w.commit = k at *
  clear ha hwrites hconf
  simp only [volatileCsrs, List.mem_cons, List.not_mem_nil, or_false, not_or] at hvol
  obtain ⟨hc, hch, hip⟩ := hvol
  -- one case per implemented CSR; the volatile ones are excluded by `hvol`
  fun_cases CsrFile.rdata q mtip a
  case case1 =>
    obtain rfl : a = csrMstatus := ‹_›
    have hw : (k.commitWrite && k.commitWaddr == csrMstatus) = false := by
      simpa [CsrFile.writes, CsrFile.normalWrite, hcommit] using hself
    show q.mstatusD k = q.mstatusQ
    simp only [CsrFile.mstatusD, CsrFile.mstatusUpdate, hcommit, hw, Bool.false_eq_true, if_false]
    exact hq.mstatus
  case case2 =>
    obtain rfl : a = csrMisa := ‹_›
    rfl
  case case3 =>
    obtain rfl : a = csrMie := ‹_›
    show q.mieD k = q.mieQ
    simp only [CsrFile.mieD, hself, Bool.false_eq_true, if_false]
    exact hq.mie
  case case4 =>
    obtain rfl : a = csrMtvec := ‹_›
    show (if CsrFile.writes k csrMtvec then _ else q.mtvecQ) = q.mtvecQ
    simp only [hself, Bool.false_eq_true, if_false]
  case case5 =>
    obtain rfl : a = csrMscratch := ‹_›
    show (if CsrFile.writes k csrMscratch then _ else q.mscratchQ) = q.mscratchQ
    simp only [hself, Bool.false_eq_true, if_false]
  case case6 =>
    obtain rfl : a = csrMepc := ‹_›
    show q.mepcD k = q.mepcQ
    simp only [CsrFile.mepcD, hcommit, hself, Bool.false_eq_true, if_false]
  case case7 =>
    obtain rfl : a = csrMcause := ‹_›
    show q.mcauseD k = q.mcauseQ
    simp only [CsrFile.mcauseD, hcommit, hself, Bool.false_eq_true, if_false]
  case case8 =>
    obtain rfl : a = csrMtval := ‹_›
    show q.mtvalD k = q.mtvalQ
    simp only [CsrFile.mtvalD, hcommit, hself, Bool.false_eq_true, if_false]
  case case9 => contradiction
  case case10 => contradiction
  case case11 => contradiction
  case case12 =>
    obtain rfl : a = csrMinstret := ‹_›
    show (q.minstretD k).extractLsb 31 0 = q.minstretQ.extractLsb 31 0
    simp only [CsrFile.minstretD, hmin rfl, hret rfl, Bool.false_and, Bool.false_eq_true, if_false]
  case case13 =>
    obtain rfl : a = csrMinstreth := ‹_›
    show (q.minstretD k).extractLsb 63 32 = q.minstretQ.extractLsb 63 32
    simp only [CsrFile.minstretD, hmin rfl, hret rfl, Bool.false_and, Bool.false_eq_true, if_false]
  case case14 => simp only [CsrFile.rdata, *, if_false]

/-- A commit that an `MRET` comes after leaves `mepc` as it is. -/
theorem mepc_next {d : IdEx} {w : MemWb} (q : CsrFile) (ha : d.After w.csrEffect)
    (htrap : w.trap = false) (hm : d.ctrl.isMret = true) :
    (q.next w.commit).mepcQ = q.mepcQ := by
  have hw : CsrFile.writes w.commit csrMepc = false := by
    by_contra hne
    simp only [CsrFile.writes, CsrFile.normalWrite, MemWb.commit, Bool.not_eq_false,
      Bool.and_eq_true, beq_iff_eq] at hne
    exact ha.mret hm (by simpa [MemWb.csrEffect] using hne.1.2) hne.2
  have ht : w.commit.trapValid = false := htrap
  simp [CsrFile.next, CsrFile.mepcD, ht, hw]

/-- An `MRET` in ID/EX finds `mepc` as all older packets leave it. -/
theorem CsrOrder.mepc_csrAfterOlder (h : CsrOrder c) (ht : TrapDrain c) (hready : Ready c i)
    (hv : c.idExQ.valid = true) (hm : c.idExQ.ctrl.isMret = true) :
    (c.csrAfterOlder i).mepcQ = c.csrFile.mepcQ := by
  have hx := (h.exMem hv).mono (csrEffect_memWbD (i := i))
  rw [csrAfterOlder, mepc_next _ hx (ht.memWbD_clean hready hv) hm,
    mepc_next _ (h.memWb hv) hready.trap hm]

/-- A commit that a read of `mcycle` or `mcycleh` comes after lets the counter count. -/
theorem mcycle_next {d : IdEx} {w : MemWb} (q : CsrFile) (ha : d.After w.csrEffect)
    (hcmd : d.ctrl.csrCmd ≠ .none)
    (hread : csrField d.insn = csrMcycle ∨ csrField d.insn = csrMcycleh) :
    (q.next w.commit).mcycleQ = q.mcycleQ + 1#64 := by
  -- the two halves of the counter conflict with each other
  have hw : CsrFile.writes w.commit csrMcycle = false ∧
      CsrFile.writes w.commit csrMcycleh = false := by
    constructor <;> apply writes_of_after ha hcmd <;> rcases hread with h | h <;> rw [h] <;> decide
  simp [CsrFile.next, CsrFile.mcycleD, hw]

/-- Neither of the commits in front of a read of `mcycle` or `mcycleh` in ID/EX writes it. -/
theorem CsrOrder.mcycle_csrAfterOlder (h : CsrOrder c) (hv : c.idExQ.valid = true)
    (hcmd : c.idExQ.ctrl.csrCmd ≠ .none)
    (hread : csrField c.idExQ.insn = csrMcycle ∨ csrField c.idExQ.insn = csrMcycleh) :
    (c.csrAfterOlder i).mcycleQ = c.csrFile.mcycleQ + 2#64 := by
  have hx := (h.exMem hv).mono (csrEffect_memWbD (i := i))
  rw [csrAfterOlder, mcycle_next _ hx hcmd hread, mcycle_next _ (h.memWb hv) hcmd hread,
    BitVec.add_assoc]
  rfl

/-! ### The retirement counter -/

/-- A cycle in which an instruction retires. -/
def retires (c : Core) (_ : CoreIn) : Option Unit := if c.memWbQ.retire then some () else none

/-- A cycle in which an instruction writes `minstret` or `minstreth`. -/
def writesMinstret (c : Core) (_ : CoreIn) : Option Unit :=
  if CsrFile.writes c.memWbQ.commit csrMinstret || CsrFile.writes c.memWbQ.commit csrMinstreth then
    some ()
  else none

/-- A commit that does not write the counter counts if it retires. -/
private theorem minstretD_commit {q : CsrFile} {w : MemWb}
    (h₁ : CsrFile.writes w.commit csrMinstret = false)
    (h₂ : CsrFile.writes w.commit csrMinstreth = false) :
    q.minstretD w.commit = if w.retire then q.minstretQ + 1#64 else q.minstretQ := by
  -- `instret` counts a retirement only if the same packet does not trap
  have hret : (w.commit.retire && !w.commit.trapValid) = w.retire := by
    simp only [MemWb.commit, MemWb.retire, MemWb.trap]
    cases w.valid <;> cases w.exc.valid <;> rfl
  simp only [CsrFile.minstretD, h₁, h₂, hret, Bool.false_eq_true, if_false]

/-- Between two writes of the program `minstret` counts the retirements, in 64 bits. -/
theorem minstret_count {c₁ : Core} {js : List CoreIn} (hr : (circuit P).Run c₁ js c)
    (hrst : ∀ j ∈ js, j.rst = false) (hw : (circuit P).trace writesMinstret c₁ js = []) :
    c.csrFile.minstretQ = c₁.csrFile.minstretQ +
      BitVec.ofNat 64 ((circuit P).trace retires c₁ js).length := by
  induction hr with
  | nil => simp
  | @snoc js s j hr _ ih =>
    rw [hr.trace_snoc, List.append_eq_nil_iff] at hw
    have ih := ih (fun k hk => hrst k (by simp [hk])) hw.1
    have hj : j.rst = false := hrst j (by simp)
    have hnow : CsrFile.writes s.memWbQ.commit csrMinstret = false ∧
        CsrFile.writes s.memWbQ.commit csrMinstreth = false := by
      by_contra hne
      have := hw.2
      simp only [writesMinstret] at this
      grind
    have hnext : ((circuit P).next s j).csrFile = s.csrFile.next s.memWbQ.commit :=
      next_csrFile P s hj
    rw [hr.trace_snoc, hnext, List.length_append]
    show s.csrFile.minstretD s.memWbQ.commit = _
    -- a cycle adds one to both sides or to none
    rw [minstretD_commit hnow.1 hnow.2, ih, retires]
    cases s.memWbQ.retire <;> simp [BitVec.ofNat_add, BitVec.add_assoc]

/-! ### Accepted CSR instructions -/

/-- What an instruction accepted by EX reads of the CSR state is the state left by all older
instructions. -/
structure CsrReadInOrder (P : CoreParams) (c : Core) (i : CoreIn) : Prop where
  /-- The CSR read, -/
  read : c.idExQ.ctrl.csrCmd ≠ .none → csrField c.idExQ.insn ∉ volatileCsrs → ∀ mtip,
    (c.exIn i).csrRdata = (c.csrAfterOlder i).rdata mtip (csrField c.idExQ.insn)
  /-- which is also what the read-modify-write uses. -/
  used : c.idExQ.ctrl.csrCmd ≠ .none →
    (c.exMemD i).csrOld = (c.exIn i).csrRdata ∧
      (c.exMemD i).csrWdata =
        ExStage.csrWdata c.idExQ (c.exIn i).csrRdata (ExStage.forwardedRs1 (c.exIn i))
  /-- `minstret[h]` is read with every older instruction counted, none being in flight. -/
  minstret : c.idExQ.ctrl.csrCmd ≠ .none → isMinstret (csrField c.idExQ.insn) = true →
    c.exMemQ.valid = false ∧ c.memWbQ.valid = false ∧
      ∀ c₁ js, (circuit P).Run c₁ js c → (∀ j ∈ js, j.rst = false) →
        (circuit P).trace writesMinstret c₁ js = [] →
        let count := c₁.csrFile.minstretQ +
          BitVec.ofNat 64 ((circuit P).trace retires c₁ js).length
        (c.exIn i).csrRdata =
          if csrField c.idExQ.insn = csrMinstret then count.extractLsb 31 0
          else count.extractLsb 63 32
  /-- `MRET` redirects to the `mepc` left by them. -/
  mret : c.idExQ.ctrl.isMret = true →
    c.controlRedirect i = { valid := true, target := (c.csrAfterOlder i).mepcQ }

/-- An accepted instruction finds MEM and WB without trap, wait and fault. -/
theorem ready_of_exFire (h : c.exFire i = true) : Ready c i ∧ c.idExQ.valid = true := by
  rw [exFire_eq, Bool.and_eq_true] at h
  have hrst : i.rst = false := by
    have := h.1
    simp only [ExStage.resultValid, ExStage.active, Bool.and_eq_true, Bool.not_eq_true'] at this
    exact this.1.1.2
  have hready := h.2
  simp only [exResultReady, Bool.and_eq_true, Bool.not_eq_true'] at hready
  exact ⟨⟨hrst, hready.1.1, hready.2, hready.1.2⟩, valid_of_resultValid h.1⟩

/-- An accepted `MRET` redirects to `mepc`, which is aligned. -/
private theorem controlRedirect_mret (hl : c.idExQ.ctrl.Legal) (hwf : c.csrFile.Wf)
    (hfire : c.exFire i = true) (hexc : c.idExQ.exc.valid = false)
    (hm : c.idExQ.ctrl.isMret = true) :
    c.controlRedirect i = { valid := true, target := c.csrFile.mepcQ } := by
  have hcsr : ExStage.isCsr c.idExQ = false := by simp [ExStage.isCsr, (hl.mret hm).2.2]
  have halign : c.csrFile.mepcQ.extractLsb 1 0 = 0#2 := hwf.mepc
  -- `mepc` is aligned, so an `MRET` raises no misaligned-target exception
  have hmis (rs1 rs2 : Word) :
      ExStage.controlTargetMisaligned c.idExQ rs1 rs2 c.csrFile.mepcQ = false := by
    rw [ExStage.controlTargetMisaligned, if_pos hm, halign]
    rfl
  have he : (c.exPacket i).exc.valid = false := by
    simp [exPacket, ExStage.exc, hexc, hcsr, hmis]
  have hx : c.exMemD i = c.exPacket i := by
    rw [exFire_eq, Bool.and_eq_true] at hfire
    rw [exMemD_eq, if_pos hfire.1]
  have htaken : (c.exPacket i).controlTaken = true := if_pos hm
  have htarget : (c.exPacket i).controlTarget = c.csrFile.mepcQ := if_pos hm
  have hctl : ExStage.isControl c.idExQ = true := by simp [ExStage.isControl, hm]
  simp [controlRedirect_eq, hfire, hctl, htaken, htarget, hx, he]

/-- CSR instructions and `MRET` accepted by EX read the state left by all older instructions. -/
theorem Reachable.csr_read_in_order (h : Reachable P c) (hfire : c.exFire i = true)
    (hexc : c.idExQ.exc.valid = false) : CsrReadInOrder P c i := by
  obtain ⟨hready, hv⟩ := ready_of_exFire hfire
  have hresult : ExStage.resultValid (c.exIn i) = true := by rw [← hready.exFire, hfire]
  have ht := h.trapDrain
  have hxtrap := ht.exMem_clean hv
  have hwtrap := ht.memWbD_clean hready hv
  have hafter := h.csrOrder
  -- first the commit of MEM/WB, then that of the packet that leaves EX/MEM
  have hw := hafter.memWb hv
  have hx := (hafter.exMem hv).mono (csrEffect_memWbD (i := i))
  have hwf := h.csrFile_wf
  have haddr (hcmd : c.idExQ.ctrl.csrCmd ≠ .none) :
      (c.exIn i).csrRdata = c.csrFile.rdata i.mtip (csrField c.idExQ.insn) := by
    simp [exIn, ExStage.csrRaddr, hready.exActive, hv, ExStage.isCsr, hcmd]
  refine ⟨fun hcmd hvol mtip => ?_, fun hcmd => ?_, fun hcmd hmin => ?_, fun hm => ?_⟩
  · rw [haddr hcmd, csrAfterOlder, rdata_next hwf.next hx hwtrap hcmd hvol i.mtip mtip,
      rdata_next hwf hw hready.trap hcmd hvol i.mtip i.mtip]
  · rw [exMemD_eq, if_pos hresult]
    simp [exPacket, ExStage.packet, ExStage.isCsr, hcmd]
  · have hxret := (hafter.exMem hv).minstret hcmd hmin
    have hwret := hw.minstret hcmd hmin
    refine ⟨?_, ?_, fun c₁ js hrun hrst hnone => ?_⟩
    · -- a valid packet without exception would retire, and one with exception is a trap
      simp only [ExMem.csrEffect] at hxret
      simp only [ExMem.trap] at hxtrap
      grind
    · have htrap := hready.trap
      simp only [MemWb.csrEffect, MemWb.retire] at hwret
      simp only [MemWb.trap] at htrap
      grind
    · rw [haddr hcmd]
      simp only
      rw [← minstret_count hrun hrst hnone]
      simp only [isMinstret, Bool.or_eq_true, beq_iff_eq] at hmin
      rcases hmin with ha | ha <;> rw [ha] <;> rfl
  · rw [hafter.mepc_csrAfterOlder ht hready hv hm]
    exact controlRedirect_mret (h.packets.idEx hv).legal hwf hfire hexc hm

/-- `csrrw x0, mscratch, x1` followed by a read of `mscratch`, which waits for the write, and
then by a read of `minstret`. -/
theorem csr_read_in_order_mscratch :
    let c := (circuit {}).exec (boot {})
      [fetches 0x3400d073#32, fetches 0x34002173#32, {}, {}, fetches 0xb02021f3#32, {}, {}, {}]
    c.idExQ.insn = 0xb02021f3#32 ∧ CsrReadInOrder {} c {} :=
  ⟨by decide +kernel,
    ((reachable_boot {}).exec _).csr_read_in_order (by decide +kernel) (by decide +kernel)⟩

end Core

end Rv32im

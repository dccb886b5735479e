import Rv32im.Core.Interrupts
import Rv32im.System.ProgramOrder

/-!
# The first boundary after enabling the timer interrupt

After a CSR write or an `MRET` that leaves the pending timer interrupt enabled, nothing but a trap
packet can enter ID/EX. So the next event is the trap at the address that follows.

* `Core.Successors`: where the program continues after a writer of the enable state;
* `System.Boundary`: what holds from the commit of the writer to the next event;
* `System.interrupt_taken`: the next event and the data port in between.
-/

namespace Rv32im

open Clocked

/-! ### The instruction that follows a writer of the enable state -/

/-- The address of the instruction after a CSR write or an `MRET`. -/
def ExMem.successor (x : ExMem) (mepc : Word) : Word := if x.isMret then mepc else x.pc + 4#32

@[inherit_doc ExMem.successor]
def MemWb.successor (w : MemWb) (mepc : Word) : Word := if w.isMret then mepc else w.pc + 4#32

namespace Core

variable {P : CoreParams} {F : IfId → Prop} {c : Core} {i : CoreIn}

/-- The program continues at `mepc` after an `MRET`, with its value once all older packets have
committed, and at the next instruction after a CSR write. -/
structure Successors (c : Core) : Prop where
  exMem : c.exMemQ.irqStateWriter = true →
    c.exMemQ.nextPc = c.exMemQ.successor (c.csrFile.next c.memWbQ.commit).mepcQ
  memWb : c.memWbQ.irqStateWriter = true →
    c.memWbQ.nextPc c.csrFile.mtvecQ = c.memWbQ.successor c.csrFile.mepcQ

/-- Only a trap or a write to `mepc` changes it. -/
theorem mepc_of_bubble (q : CsrFile) : (q.next (MemWb.commit {})).mepcQ = q.mepcQ := rfl

/-- The packet that EX makes of a writer continues as the instruction says. -/
private theorem exMemD_nextPc (hp : Packets F c) (hw : (c.exMemD i).irqStateWriter = true) :
    c.idExQ.valid = true ∧ (c.exMemD i).nextPc = (c.exMemD i).successor c.csrFile.mepcQ ∧
      ((c.exMemD i).isMret = true → c.idExQ.ctrl.isMret = true) := by
  have hr : ExStage.resultValid (c.exIn i) = true := by
    rw [← exMemD_valid]
    simp only [ExMem.irqStateWriter, Bool.and_eq_true] at hw
    exact hw.1.1
  have hv := valid_of_resultValid hr
  have hl := (hp.idEx hv).legal
  rw [exMemD_eq, if_pos hr] at hw ⊢
  simp only [ExMem.irqStateWriter, Bool.and_eq_true, Bool.not_eq_true'] at hw
  have he : (ExStage.exc c.idExQ _ _ _ _).valid = false := hw.1.2
  have hwrite := hw.2
  simp only [exPacket, ExStage.packet, he, Bool.false_eq_true, if_false] at hwrite ⊢
  refine ⟨hv, ?_, id⟩
  cases hm : c.idExQ.ctrl.isMret with
  | true => simp [ExMem.nextPc, ExMem.successor, ExStage.controlTaken, ExStage.controlTarget, hm]
  | false =>
    -- a CSR instruction is no control transfer
    have hcsr : c.idExQ.ctrl.csrCmd ≠ .none := by
      simp only [hm, Bool.false_or, Bool.and_eq_true, ExStage.isCsr, bne_iff_ne] at hwrite
      exact hwrite.1.1
    have hbranch := (hl.csr hcsr).2.1
    simp [ExMem.nextPc, ExMem.successor, ExStage.controlTaken, hm, hbranch, branchUnit,
      branchTaken]

/-- MEM takes a writer over as it is. -/
private theorem memWbD_successor (hw : (c.memWbD i).irqStateWriter = true) (mtvec mepc : Word) :
    c.exMemQ.irqStateWriter = true ∧ (c.memWbD i).nextPc mtvec = c.exMemQ.nextPc ∧
      (c.memWbD i).successor mepc = c.exMemQ.successor mepc := by
  have hx : c.exMemQ.irqStateWriter = true := csrEffect_memWbD.irqState hw
  simp only [MemWb.irqStateWriter, Bool.and_eq_true, Bool.not_eq_true'] at hw
  have ht : (c.memWbD i).trap = false := by rw [MemWb.trap, hw.1.2, Bool.and_false]
  refine ⟨hx, memWbD_nextPc mtvec hw.1.1 ht, ?_⟩
  have hm : c.exMemQ.isMemory = false := by
    by_contra hne
    have hm : c.exMemQ.isMemory = true := by simpa using hne
    unfold memWbD at hw
    rw [if_pos (ExMem.valid_of_isMemory hm), if_pos hm] at hw
    split at hw <;> simp [ExMem.accessPacket] at hw
  simp only [ExMem.irqStateWriter, Bool.and_eq_true, Bool.not_eq_true'] at hx
  rw [memWbD_of_not_isMemory hm, if_pos hx.1.1]
  simp [MemWb.successor, ExMem.successor, ExMem.localPacket, hx.1.2]

/-- Every cycle keeps the successors. -/
theorem Successors.next (h : Successors c) (hp : Packets F c) (ho : CsrOrder c)
    (ht : TrapDrain c) : Successors (Core.next P c i) := by
  cases hrst : i.rst with
  | true =>
    have edge := edge_reset P c hrst
    constructor <;> simp [edge.exMem, edge.memWb, ExMem.irqStateWriter, MemWb.irqStateWriter]
  | false =>
  have hcsr := next_csrFile P c hrst
  have hmem : (Core.next P c i).memWbQ.irqStateWriter = true →
      (Core.next P c i).memWbQ.nextPc (Core.next P c i).csrFile.mtvecQ =
        (Core.next P c i).memWbQ.successor (Core.next P c i).csrFile.mepcQ := by
    intro hw
    rcases next_memWbQ P c i with hq | hq
    · simp [hq, MemWb.irqStateWriter] at hw
    · rw [hq] at hw ⊢
      -- MEM hands a writer over as EX/MEM had it
      obtain ⟨hx, hnext, hsucc⟩ := memWbD_successor hw (Core.next P c i).csrFile.mtvecQ
        (Core.next P c i).csrFile.mepcQ
      rw [hnext, hsucc, hcsr]
      exact h.exMem hx
  -- EX reads `mepc` as the older packets leave it
  have hex (hready : Ready c i) (hq : (Core.next P c i).memWbQ = c.memWbD i)
      (hx : (Core.next P c i).exMemQ = c.exMemD i) : Successors (Core.next P c i) := by
    refine ⟨fun hw => ?_, hmem⟩
    rw [hx] at hw ⊢
    obtain ⟨hv, hnext, hmret⟩ := exMemD_nextPc hp hw
    rw [hnext, hq, hcsr, ExMem.successor, ExMem.successor]
    split
    next hm =>
      exact (ho.mepc_csrAfterOlder ht hready hv (hmret hm)).symm
    next => rfl
  have hbubble (hx : (Core.next P c i).exMemQ = {}) : Successors (Core.next P c i) := by
    refine ⟨fun hw => ?_, hmem⟩
    simp [hx, ExMem.irqStateWriter] at hw
  cases next_cases P c i with
  | reset rst edge => exact hbubble edge.exMem
  | wbTrap rst trap edge => exact hbubble edge.exMem
  | memException rst trap exc edge => exact hbubble edge.exMem
  | memWait rst trap wait edge =>
    refine ⟨fun hw => ?_, hmem⟩
    rw [edge.exMem] at hw ⊢
    rw [edge.memWb, mepc_of_bubble, hcsr]
    exact h.exMem hw
  | exException ready exc edge => exact hex ready edge.memWb edge.exMem
  | exWait ready wait edge => exact hbubble edge.exMem
  | trapDrain fires drain edge => exact hex fires.toReady edge.memWb edge.exMem
  | exRedirect fires drain redirect edge => exact hex fires.toReady edge.memWb edge.exMem
  | stall fires drain redirect stall edge => exact hex fires.toReady edge.memWb edge.exMem
  | idTrap fires drain redirect irqWait exc edge =>
    exact hex fires.toReady edge.memWb edge.exMem
  | advance fires drain redirect irqWait exc loadUse csrDep edge =>
    exact hex fires.toReady edge.memWb edge.exMem

/-- It holds in every reachable state. -/
theorem Reachable.successors (h : Reachable P c) : Successors c := by
  refine h.holds (fun c i hrst => ?_) fun c i hc hs => hs.next hc.packets hc.csrOrder hc.trapDrain
  have edge := edge_reset P c hrst
  constructor <;> simp [edge.exMem, edge.memWb, ExMem.irqStateWriter, MemWb.irqStateWriter]

end Core

/-! ### The boundary -/

/-- The exception of the trap packet that stands for a fetched packet: its own one, or the timer
interrupt. -/
def IfId.boundaryExc (f : IfId) : Exc :=
  if (IdStage.exc f).valid then IdStage.exc f
  else { valid := true, isInterrupt := true, cause := irqMTimerCause }

/-- A decoded trap packet stands for a fetched one. -/
theorem IdEx.Decoded.exc_eq {F : IfId → Prop} {d : IdEx} (h : d.Decoded F)
    (he : d.exc.valid = true) : ∃ f, F f ∧ d.pc = f.pc ∧ d.exc = f.boundaryExc := by
  obtain ⟨f, hF, hf, hd | ⟨hexc, hd⟩⟩ := h.form
  · have heq : d.exc = IdStage.exc f := by rw [hd, IdStage.packet_exc hf]
    -- its own exception, or the interrupt in front of a clean packet
    refine ⟨f, hF, by rw [hd]; simp [IdStage.packet, hf], ?_⟩
    rw [IfId.boundaryExc, ← heq, if_pos he]
  · refine ⟨f, hF, by rw [hd]; rfl, ?_⟩
    rw [IfId.boundaryExc, hexc, if_neg (by simp), hd]
    rfl

namespace System

variable {P : CoreParams} {s s' : System} {i : CoreIn} {is : List CoreIn} {pc : Word}

/-- A packet with this address and exception stands for a fetched one. -/
def BoundaryTrap (s : System) (pc : Word) (e : Exc) : Prop :=
  ∃ f, s.Fetched f ∧ pc = f.pc ∧ e = f.boundaryExc

/-- A trap at the boundary is the next event. -/
theorem BoundaryTrap.step {e : Exc} (h : s.BoundaryTrap pc e) :
    (s.next P i).BoundaryTrap pc e := by
  obtain ⟨f, hf, hpc, he⟩ := h
  exact ⟨f, hf.step, hpc, he⟩

/-- Behind MEM/WB there are trap packets only, and its commit leaves the interrupt enabled. -/
structure Boundary (s : System) : Prop where
  idEx : s.core.idExQ.valid = true → s.core.idExQ.exc.valid = true
  exMem : s.core.exMemQ.valid = true → s.core.exMemQ.exc.valid = true ∧
    s.BoundaryTrap s.core.exMemQ.pc s.core.exMemQ.exc
  enabled : (s.core.csrFile.next s.core.memWbQ.commit).timerEnabled = true

/-- There is no memory operation at the boundary. -/
theorem Boundary.isMemory (h : Boundary s) : s.core.exMemQ.isMemory = false := by
  by_contra hne
  have hm : s.core.exMemQ.isMemory = true := by simpa using hne
  have := (h.exMem (ExMem.valid_of_isMemory hm)).1
  simp [ExMem.exc_of_isMemory hm] at this

/-- MEM/WB can only receive a trap packet. -/
theorem Boundary.memWbD (h : Boundary s) (hv : (s.core.memWbD i).valid = true) :
    (s.core.memWbD i).exc.valid = true ∧
      s.BoundaryTrap (s.core.memWbD i).pc (s.core.memWbD i).exc := by
  have hx : s.core.exMemQ.valid = true := by
    rw [Core.memWbD_valid, Bool.and_eq_true] at hv
    exact hv.1
  rw [Core.memWbD_of_not_isMemory h.isMemory, if_pos hx]
  exact h.exMem hx

/-- EX/MEM can only receive a trap packet. -/
theorem Boundary.exMemD (h : Boundary s) (hp : s.core.Packets s.Fetched)
    (hv : (s.core.exMemD i).valid = true) : (s.core.exMemD i).exc.valid = true ∧
      s.BoundaryTrap (s.core.exMemD i).pc (s.core.exMemD i).exc := by
  have hpc := Core.exMemD_pc hv
  rw [Core.exMemD_valid] at hv
  have hd := Core.valid_of_resultValid hv
  have he := h.idEx hd
  have hexc : (s.core.exMemD i).exc = s.core.idExQ.exc := by
    rw [Core.exMemD_eq, if_pos hv]
    exact ExStage.exc_of_exc he
  obtain ⟨f, hf, hfpc, hfe⟩ := (hp.idEx hd).exc_eq he
  exact ⟨by rw [hexc, he], f, hf, hpc.trans hfpc, hexc.trans hfe⟩

/-- While the interrupt is pending and enabled, ID hands over trap packets only. -/
theorem Boundary.idExD (h : Boundary s) (hrst : i.rst = false) (hmtip : i.mtip = true)
    (hd : s.core.trapDrainQ = false) (hirq : s.core.irqStateWait = false)
    (hv : (s.core.idExD i).valid = true) : (s.core.idExD i).exc.valid = true := by
  by_contra hne
  have hel : s.core.irqEligible i = true := by
    rw [Core.irqEligible, CsrFile.eligible_eq, hmtip, h.enabled]
    rfl
  rw [Core.idExD_valid] at hv
  unfold Core.idExD at hne
  split at hne
  · exact hne rfl
  next hc =>
    -- all conditions of the candidate hold except a decode exception
    refine hc ?_
    simp only [Core.idInterruptCandidate, hrst, hd, hel, hirq, Core.idExDecoded_valid, hv]
    simpa using hne

/-- A cycle without event keeps the boundary, and the next event is a trap. -/
theorem Boundary.next (h : Boundary s) (hs : Reachable P s) (htrap : s.core.memWbQ.trap = false)
    (hrst : i.rst = false) (hmtip : i.mtip = true) :
    ((s.next P i).core.memWbQ.valid = true → (s.next P i).core.memWbQ.exc.valid = true ∧
      (s.next P i).BoundaryTrap (s.next P i).core.memWbQ.pc (s.next P i).core.memWbQ.exc) ∧
    ((s.next P i).core.memWbQ.valid = false → Boundary (s.next P i)) := by
  have hp := hs.inOrder.packets
  have ht := hs.core.trapDrain
  have hmem : (s.next P i).core.memWbQ.valid = true →
      (s.next P i).core.memWbQ.exc.valid = true ∧
        (s.next P i).BoundaryTrap (s.next P i).core.memWbQ.pc (s.next P i).core.memWbQ.exc := by
    intro hv
    have hq : (s.next P i).core.memWbQ = {} ∨ (s.next P i).core.memWbQ = s.core.memWbD i :=
      Core.next_memWbQ P s.core i
    rcases hq with hq | hq
    · simp [hq] at hv
    · rw [hq] at hv ⊢
      exact ⟨(h.memWbD hv).1, (h.memWbD hv).2.step⟩
  refine ⟨hmem, fun hv => ?_⟩
  -- without an event the commit changes nothing
  have henabled : ((s.next P i).core.csrFile.next (s.next P i).core.memWbQ.commit).timerEnabled =
      true := by
    have hcsr : (s.next P i).core.csrFile = s.core.csrFile.next s.core.memWbQ.commit :=
      Core.next_csrFile P s.core hrst
    rw [CsrFile.timerEnabled_commit (by rw [hcsr]; exact hs.core.csrFile_wf.next)
      (by simp [MemWb.trap, hv]) (by simp [MemWb.irqStateWriter, hv]), hcsr]
    exact h.enabled
  -- what enters ID/EX traps, and what enters EX/MEM as well
  have hkeep {d : IdEx} {x : ExMem} (hd : (s.next P i).core.idExQ = d)
      (hx : (s.next P i).core.exMemQ = x) (hdv : d.valid = true → d.exc.valid = true)
      (hxv : x = {} ∨ x = s.core.exMemD i) : Boundary (s.next P i) := by
    refine ⟨by rwa [hd], fun hv => ?_, henabled⟩
    rw [hx] at hv ⊢
    rcases hxv with rfl | rfl
    · simp at hv
    · exact ⟨(h.exMemD hp hv).1, (h.exMemD hp hv).2.step⟩
  have hwait : s.core.memWait i = false := by simp [Core.memWait, h.isMemory]
  -- no load or store is left, so MEM neither waits nor faults
  cases Core.next_cases P s.core i with
  | reset rst edge => simp [hrst] at rst
  | wbTrap rst trap edge => simp [htrap] at trap
  | memException rst trap exc edge => simp [Core.memException, h.isMemory] at exc
  | memWait rst trap wait edge => simp [hwait] at wait
  | exException ready exc edge => exact hkeep edge.idEx edge.exMem (by simp) (.inr rfl)
  | exWait ready wait edge =>
    exact hkeep edge.idEx edge.exMem (by simpa using h.idEx) (.inl rfl)
  | trapDrain fires drain edge =>
    refine hkeep edge.idEx edge.exMem ?_ (.inr rfl)
    simp [Core.idExD_of_not_valid (ht.ifId drain)]
  | exRedirect fires drain redirect edge => exact hkeep edge.idEx edge.exMem (by simp) (.inr rfl)
  | stall fires drain redirect stall edge =>
    exact hkeep edge.idEx edge.exMem (by simp) (.inr rfl)
  | idTrap fires drain redirect irqWait exc edge =>
    exact hkeep edge.idEx edge.exMem (fun _ => exc.2) (.inr rfl)
  | advance fires drain redirect irqWait exc loadUse csrDep edge =>
    exact hkeep edge.idEx edge.exMem (h.idExD hrst hmtip drain irqWait) (.inr rfl)

/-- The writer that enables the interrupt is a boundary: nothing has followed it. -/
theorem boundary_of_writer (hs : Reachable P s) (hw : s.core.memWbQ.irqStateWriter = true)
    (hen : (s.core.csrFile.next s.core.memWbQ.commit).timerEnabled = true) : Boundary s := by
  refine ⟨fun hv => ?_, fun hv => ?_, hen⟩
  · -- the interlocks have kept ID/EX empty behind the writer, and EX/MEM as well
    have hirq : s.core.memWbQ.irqStateWriter = false := (hs.core.csrOrder.memWb hv).irqState
    simp [hirq] at hw
  · simp [hs.core.writerAlone hv] at hw

/-- No data request is presented at a boundary. -/
theorem Boundary.reqValid (h : Boundary s) (hs : Reachable P s) (hrst : i.rst = false) :
    s.core.lsu.reqValid (s.core.lsuIn i) = false := by
  by_contra hne
  obtain ⟨hbus, -, -⟩ := hs.core.dataAccess.request hs.core.trapDrain hs.core.packets hrst
    (by simpa using hne)
  simp [ExMem.onBus, h.isMemory] at hbus

/-- After an enabling commit whose successor is at `pc`, the state before or at the next event:
the event is a trap at `pc`, and no data request is presented. -/
structure Taken (s : System) (pc : Word) : Prop where
  /-- The next event is a trap at `pc`: -/
  trap : ∀ e, s.core.event = some e → e.trap = true ∧ e.pc = pc
  /-- that of the instruction there, if its fetch or its decoding fails, else the timer
  interrupt. -/
  cause : ∀ e, s.core.event = some e → ∃ rsp, s.imem.Answered (fetchReq pc) rsp ∧
    ((IdStage.exc (IfId.fetched pc rsp)).valid = true →
      e.isInterrupt = false ∧ e.cause = (IdStage.exc (IfId.fetched pc rsp)).cause) ∧
    ((IdStage.exc (IfId.fetched pc rsp)).valid = false →
      e.isInterrupt = true ∧ e.cause = irqMTimerCause)
  noRequest : ∀ i, i.rst = false → s.core.lsu.reqValid (s.core.lsuIn i) = false

/-- From the commit to the next event the boundary holds, and the event is a trap. -/
private theorem boundary_run (hs : Reachable P s) (hb : Boundary s)
    (htrap : s.core.memWbQ.trap = false) (hl : (circuit P).legal s i)
    (hr : (circuit P).Run (s.next P i) is s')
    (hin : ∀ j ∈ i :: is, j.rst = false ∧ j.mtip = true)
    (hnone : (circuit P).trace event (s.next P i) is = []) :
    Reachable P s' ∧ s'.pc = s.pcMem ∧
      (s'.core.memWbQ.valid = true → s'.core.memWbQ.exc.valid = true ∧
        s'.BoundaryTrap s'.core.memWbQ.pc s'.core.memWbQ.exc) ∧
      (s'.core.memWbQ.valid = false → Boundary s') := by
  obtain ⟨hrst, hmtip⟩ := hin i (by simp)
  induction hr with
  | nil => exact ⟨hs.step hl, pc_next hrst, hb.next hs htrap hrst hmtip⟩
  | @snoc is s' j hr hlj ih =>
    rw [hr.trace_snoc, List.append_eq_nil_iff] at hnone
    obtain ⟨hs', hpc, -, hb'⟩ := ih (fun k hk => hin k (by grind)) hnone.1
    obtain ⟨hrstj, hmtipj⟩ := hin j (by simp)
    -- no event so far, so MEM/WB is empty and the boundary goes on
    have hv : s'.core.memWbQ.valid = false := by
      by_contra hne
      have hv : s'.core.memWbQ.valid = true := by simpa using hne
      simp [event, Core.event, hv] at hnone
    refine ⟨hs'.step hlj, ?_, (hb' hv).next hs' (by simp [MemWb.trap, hv]) hrstj hmtipj⟩
    have hpcj : ((circuit P).next s' j).pc = s'.pcMem := pc_next hrstj
    rw [hpcj, pcMem, if_neg (by simp [hv]), hpc]

/-- A pending timer interrupt is taken at the first boundary after the commit that enables it:
if a CSR write or an `MRET` retires, leaves `mstatus.MIE` and `mie.MTIE` set, and `mtip_i` is
high from then on, the next event is the trap at the address that follows. -/
theorem interrupt_taken (hs : Reachable P s) (hw : s.core.memWbQ.irqStateWriter = true)
    (hen : (s.core.csrFile.next s.core.memWbQ.commit).timerEnabled = true)
    (hl : (circuit P).legal s i) (hr : (circuit P).Run (s.next P i) is s')
    (hin : ∀ j ∈ i :: is, j.rst = false ∧ j.mtip = true)
    (hnone : (circuit P).trace event (s.next P i) is = []) :
    s.core.lsu.reqValid (s.core.lsuIn i) = false ∧
      Taken s' (s.core.memWbQ.successor s.core.csrFile.mepcQ) := by
  have hb := boundary_of_writer hs hw hen
  have hretire := hw
  simp only [MemWb.irqStateWriter, Bool.and_eq_true, Bool.not_eq_true'] at hretire
  obtain ⟨⟨hv, he⟩, -⟩ := hretire
  obtain ⟨hs', hpc, htrap, hb'⟩ :=
    boundary_run hs hb (by simp [MemWb.trap, he]) hl hr hin hnone
  rw [pcMem, if_pos hv, hs.core.successors.memWb hw] at hpc
  -- an event of the last state is the trap packet in MEM/WB
  have hevent (e : TraceEvent) (h : s'.core.event = some e) : s'.core.memWbQ.valid = true ∧
      s'.core.memWbQ.exc.valid = true ∧ s'.core.memWbQ.event = e := by
    unfold Core.event at h
    split at h
    next hv => exact ⟨hv, (htrap hv).1, Option.some.inj h⟩
    next => simp at h
  refine ⟨hb.reqValid hs (hin i (by simp)).1, fun e h => ?_, fun e h => ?_, fun j hj => ?_⟩
  · obtain ⟨hv', he', rfl⟩ := hevent e h
    exact ⟨by simp [MemWb.event, MemWb.trap, hv', he'], (hs'.inOrder.memWb hv').trans hpc⟩
  · obtain ⟨hv', he', rfl⟩ := hevent e h
    -- the instruction at the boundary may fault or be illegal, which wins
    obtain ⟨f, ⟨rsp, hans, hf⟩, hfpc, hexc⟩ := (htrap hv').2
    have hpc' : f.pc = s.core.memWbQ.successor s.core.csrFile.mepcQ := by
      rw [← hfpc, ← hpc, hs'.inOrder.memWb hv']
    rw [hpc'] at hans hf
    have hirq : (IdStage.exc f).isInterrupt = false := Core.isInterrupt_exc (by
      rw [hf, IfId.fetched]
      split <;> rfl)
    rw [hf, IfId.boundaryExc] at hexc
    rw [hf] at hirq
    refine ⟨rsp, hans, fun hx => ?_, fun hx => ?_⟩
    · rw [if_pos hx] at hexc
      simp [MemWb.event, MemWb.trap, hv', hexc, hirq, hx]
    · rw [hx, if_neg (by simp)] at hexc
      simp [MemWb.event, MemWb.trap, hv', hexc]
  · cases hv' : s'.core.memWbQ.valid with
    | false => exact (hb' hv').reqValid hs' hj
    | true =>
      have ht : s'.core.memWbQ.trap = true := by rw [MemWb.trap, hv', (htrap hv').1]; rfl
      by_contra hne
      have := (hs'.core.dataAccess.request hs'.core.trapDrain hs'.core.packets hj
        (by simpa using hne)).2.1
      simp [ht] at this

/-- `csrrw x0, mie, x1` and `csrrw x0, mstatus, x2` enable the interrupt, and the `nop` that
follows is displaced. -/
theorem interrupt_taken_mstatus :
    let boot := boot {} fun a => if a = 1#5 then 0x80#32 else 8#32
    let s := (circuit {}).exec boot
      [Core.fetches 0x30409073#32, Core.fetches 0x30011073#32, {}, {}, {}, {}, {}]
    let waits : CoreIn := { mtip := true }
    let is := [{ Core.fetches 0x00000013#32 with mtip := true }, waits, waits, waits]
    let s' := (circuit {}).exec (s.next {} waits) is
    s'.core.event = some
        { pc := 8#32, trap := true, cause := irqMTimerCause, isInterrupt := true } ∧
      s.core.lsu.reqValid (s.core.lsuIn waits) = false ∧
      Taken s' (s.core.memWbQ.successor s.core.csrFile.mepcQ) := by
  intro boot s waits is s'
  have hs : Reachable {} s :=
    .run (.start (started_boot {} _)) (Circuit.Run.of_always (by decide +kernel))
  exact ⟨by decide +kernel, interrupt_taken hs (by decide +kernel) (by decide +kernel)
    (by decide +kernel) (Circuit.Run.of_always (by decide +kernel)) (by decide +kernel)
    (by decide +kernel)⟩

end System

end Rv32im

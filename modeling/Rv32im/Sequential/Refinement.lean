import Rv32im.Sequential.Execution
import Rv32im.System.DataPort
import Rv32im.System.ProgramOrder

/-!
# The pipeline refines the sequential machine

The machine runs along with the packets that commit: program counter, registers and CSRs are those
of the machine. A packet in MEM/WB is its step in the committed state; one in EX/MEM is what EX
makes of the step after that.

* `Env.Explains`: the environment that the histories of the ports show;
* `System.InFlight`, `System.Refines`: the relation between core and machine;
* `InFlight.commit`: what enters MEM/WB is a step of the machine;
* `InFlight.next`: a cycle keeps the relation.
-/

namespace Rv32im

open Clocked

/-- The histories of the ports are those of the environment: the instruction port answers with the
program, and the data port answers its requests from the `n`-th on as the environment does. -/
structure Env.Explains (E : Env) (n : ℕ) (s : System) : Prop where
  imem : ∀ req rsp, s.imem.Answered req rsp → rsp = E.prog req.addr.index
  dmem : ∀ k rsp, s.dmem.answered[n + k]? = some rsp → rsp = E.answers k

namespace System

variable {P : CoreParams} {E : Env} {d₀ : List MemReq} {s s₀ : System} {i : CoreIn} {S S' : Seq}

/-- What the histories show in a cycle they showed before. -/
theorem explains_of_next {n : ℕ} (h : E.Explains n (s.next P i)) :
    E.Explains n s where
  imem req rsp hans := h.imem req rsp (hans.step _ _)
  dmem k rsp hrsp := by
    refine h.dmem k rsp ?_
    have hlt := (List.getElem?_eq_some_iff.mp hrsp).1
    exact (List.getElem?_append_left hlt).trans hrsp

/-- The event of a cycle with what its packet met. -/
def observed (s : System) (_ : CoreIn) : Option (Observation × TraceEvent) :=
  s.core.event.map fun e => ({ s.memWbObs with wbCycle := s.clock }, e)

/-! ### The slots after a cycle -/

/-- What enters MEM/WB was in EX/MEM. -/
theorem memWb_next (hv : (s.next P i).core.memWbQ.valid = true) :
    (s.next P i).core.memWbQ = s.core.memWbD i ∧ s.core.exMemQ.valid = true ∧
      s.core.memWait i = false := by
  rcases Core.next_memWbQ P s.core i with hw | hw
  · have hw : (s.next P i).core.memWbQ = {} := hw
    simp [hw] at hv
  · have hw : (s.next P i).core.memWbQ = s.core.memWbD i := hw
    rw [hw, Core.memWbD_valid, Bool.and_eq_true, Bool.not_eq_true'] at hv
    exact ⟨hw, hv⟩

/-- An invalid packet in MEM/WB is a bubble. -/
theorem memWb_next_bubble (hv : (s.next P i).core.memWbQ.valid = false) :
    (s.next P i).core.memWbQ = {} := by
  rcases Core.next_memWbQ P s.core i with hw | hw
  · exact hw
  · have hw : (s.next P i).core.memWbQ = s.core.memWbD i := hw
    rw [hw] at hv ⊢
    unfold Core.memWbD at hv ⊢
    split_ifs at hv ⊢ <;> first | rfl | contradiction

/-- The observation that goes with a packet leaving EX. -/
def exObs (s : System) (i : CoreIn) : Observation :=
  { mtipId := s.idExMtip, mtipEx := i.mtip, mcycle := s.core.csrFile.mcycleQ, exCycle := s.clock }

/-- EX/MEM is filled from ID/EX, or it is held and MEM/WB is empty. -/
theorem exMem_next (hv : (s.next P i).core.exMemQ.valid = true) :
    (s.core.Ready i ∧ ExStage.resultValid (s.core.exIn i) = true ∧
        (s.next P i).core.exMemQ = s.core.exMemD i ∧
        (s.next P i).core.memWbQ = s.core.memWbD i ∧ (s.next P i).exMemObs = s.exObs i) ∨
      ((s.next P i).core.exMemQ = s.core.exMemQ ∧ (s.next P i).core.memWbQ = {} ∧
        (s.next P i).exMemObs = s.exMemObs) := by
  have hobs : (s.next P i).exMemObs = if s.core.exFire i then s.exObs i else s.exMemObs := rfl
  have hempty (hx : (s.core.next P i).exMemQ = {}) : False := by
    have hx : (s.next P i).core.exMemQ = {} := hx
    simp [hx] at hv
  have hfill (hready : s.core.Ready i) (hx : (s.core.next P i).exMemQ = s.core.exMemD i)
      (hw : (s.core.next P i).memWbQ = s.core.memWbD i) :
      s.core.Ready i ∧ ExStage.resultValid (s.core.exIn i) = true ∧
        (s.next P i).core.exMemQ = s.core.exMemD i ∧
        (s.next P i).core.memWbQ = s.core.memWbD i ∧ (s.next P i).exMemObs = s.exObs i := by
    have hx : (s.next P i).core.exMemQ = s.core.exMemD i := hx
    rw [hx, Core.exMemD_valid] at hv
    refine ⟨hready, hv, hx, hw, ?_⟩
    rw [hobs, hready.exFire, if_pos hv]
  cases Core.next_cases P s.core i with
  | reset rst edge => exact (hempty edge.exMem).elim
  | wbTrap rst trap edge => exact (hempty edge.exMem).elim
  | memException rst trap exc edge => exact (hempty edge.exMem).elim
  | memWait rst trap wait edge =>
    have hfire : s.core.exFire i = false := by
      simp [Core.exFire_eq, Core.exResultReady, wait]
    exact .inr ⟨edge.exMem, edge.memWb, by rw [hobs, hfire, if_neg (by simp)]⟩
  | exException ready exc edge => exact .inl (hfill ready edge.exMem edge.memWb)
  | exWait ready wait edge => exact (hempty edge.exMem).elim
  | trapDrain fires drain edge => exact .inl (hfill fires.toReady edge.exMem edge.memWb)
  | exRedirect fires drain redirect edge => exact .inl (hfill fires.toReady edge.exMem edge.memWb)
  | stall fires drain redirect stall edge => exact .inl (hfill fires.toReady edge.exMem edge.memWb)
  | idTrap fires drain redirect irqWait exc edge =>
    exact .inl (hfill fires.toReady edge.exMem edge.memWb)
  | advance fires drain redirect irqWait exc loadUse csrDep edge =>
    exact .inl (hfill fires.toReady edge.exMem edge.memWb)

/-- ID/EX is filled from ID, with `mtip_i` sampled, or it is held. -/
theorem idEx_next (hv : (s.next P i).core.idExQ.valid = true) :
    ((s.next P i).core.idExQ = s.core.idExD i ∧ (s.next P i).idExMtip = i.mtip) ∨
      ((s.next P i).core.idExQ = s.core.idExHeld ∧ (s.next P i).idExMtip = s.idExMtip) := by
  have hq : (s.next P i).core.idExQ = Core.pipeReg i.rst (s.core.ctrl i).idExFlush
    (s.core.ctrl i).idExEnable {} (s.core.idExD i) s.core.idExHeld := rfl
  have hm : (s.next P i).idExMtip =
    if (s.core.ctrl i).idExEnable then i.mtip else s.idExMtip := rfl
  rw [hq, Core.pipeReg] at hv ⊢
  rw [hm]
  split_ifs at hv ⊢
  · exact .inl ⟨rfl, rfl⟩
  · exact .inr ⟨rfl, rfl⟩

/-! ### The relation -/

/-- The machine has stepped over the packet in MEM/WB; the packet in EX/MEM is what EX makes of its
next step. -/
structure InFlight (E : Env) (d₀ : List MemReq) (s : System) (S : Seq) : Prop where
  agrees : S.Agrees (s.clock + 1) s.pcMem s.core.regsAfterWb
    (s.core.csrFile.next s.core.memWbQ.commit)
  exMem : s.core.exMemQ.valid = true → S.Executes E s.exMemObs s.core.exMemQ
  /-- The data requests accepted so far are those of the machine and the one of EX/MEM. -/
  log : s.dmem.accepted = d₀ ++ S.requests ++ s.outstanding

/-- The machine is in the committed state, and its step over the packet in MEM/WB has the event of
the trace port. -/
structure Refines (E : Env) (d₀ : List MemReq) (s : System) (S : Seq) : Prop where
  agrees : S.Agrees s.clock s.pc s.core.regfile s.core.csrFile
  inFlight : Matches (Seq.Step E) S (s.observed {}) (InFlight E d₀ s)

/-- A fetched packet in flight is what the machine fetches. -/
theorem Fetched.eq_fetch {f : IfId} {n : ℕ} (h : s.Fetched f) (hE : E.Explains n s)
    (hpc : S.pc = f.pc) : f = S.fetch E := by
  obtain ⟨rsp, hans, hf⟩ := h
  rw [hf, hE.imem _ _ hans, Seq.fetch, hpc]

/-- The instruction port delivers no interrupts. -/
theorem Fetched.isInterrupt {f : IfId} (h : s.Fetched f) : f.exc.isInterrupt = false := by
  obtain ⟨rsp, -, hf⟩ := h
  rw [hf, IfId.fetched]
  split <;> rfl

/-- An interrupt packet finds the interrupt enabled in every reachable state. -/
theorem Reachable.interrupts (h : Reachable P s) : s.core.Interrupts := by
  have hboth : Reachable P s ∧ s.core.Interrupts := by
    refine Circuit.Reachable.invariant (I := fun s => Reachable P s ∧ s.core.Interrupts) h
      (fun s hs => ⟨.start hs, ?_⟩) fun s i hI hl => ⟨hI.1.step hl, ?_⟩
    · obtain ⟨c₀, i, hrst, hc⟩ := hs.core
      rw [hc]
      exact .of_empty (Core.edge_reset P c₀ hrst)
    · have hc := hI.1.core
      exact hI.2.next hI.1.inOrder.packets (fun _ hf => hf.isInterrupt) hc.csrFile_wf hc.csrOrder
        hc.trapDrain hc.dataAccess
  exact hboth.2

/-- What leaves EX is what EX makes of the next step, in the state left by MEM. -/
theorem executes_exMemD {n : ℕ} (hs : Reachable P s) (hE : E.Explains n s)
    (hmtip : s.core.idExQ.valid = true → s.core.idExQ.exc.isInterrupt = true → s.idExMtip = true)
    (hready : s.core.Ready i) (hres : ExStage.resultValid (s.core.exIn i) = true)
    (hx : (s.next P i).core.exMemQ = s.core.exMemD i)
    (hw : (s.next P i).core.memWbQ = s.core.memWbD i)
    (hS : S.Agrees (s.clock + 2) (s.next P i).pcMem (s.next P i).core.regsAfterWb
      ((s.next P i).core.csrFile.next (s.next P i).core.memWbQ.commit)) :
    S.Executes E (s.exObs i) (s.core.exMemD i) := by
  have hv := Core.valid_of_resultValid hres
  have hrst := hready.rst
  have hin := hs.inOrder
  have htrap := hs.core.trapDrain.memWbD_clean hready hv
  have hcsr' : (s.next P i).core.csrFile = s.core.csrFile.next s.core.memWbQ.commit :=
    Core.next_csrFile P s.core hrst
  -- the state left by MEM is the one that ID/EX finds
  have hpc : S.pc = s.core.idExQ.pc := by
    rw [hS.pc, pcMem_next hrst hw hready.memWait htrap, hin.idEx hv]
  have hregs : S.regs = s.core.pendingRegs (s.core.memWbD i).wbData := by
    rw [hS.regs]
    exact Core.regsAfterWb_next hs.core.packets hready hw
  have hcsr : S.csrAt (s.clock + 2) = s.core.csrAfterOlder i := by
    rw [hS.csr, hcsr', hw]
    rfl
  have hdec := hin.packets.idEx hv
  -- ID/EX holds a decoded instruction or the interrupt in front of one
  obtain ⟨f, hf, hfv, hd | ⟨hexc, hd⟩⟩ := hdec.form
  · have hfpc : S.pc = f.pc := by
      rw [hpc, hd]
      simp [IdStage.packet, hfv]
    obtain rfl := hf.eq_fetch hE hfpc
    obtain ⟨hx, hcount⟩ :=
      Core.exMemD_execute hs.core hready hres hdec hfv hd hregs (s.exObs i) rfl rfl hcsr
    rw [hx]
    exact .instr hcount
  · have hfpc : S.pc = f.pc := by
      rw [hpc, hd]
      rfl
    obtain rfl := hf.eq_fetch hE hfpc
    have hxi := Core.exMemD_interrupted hready hres hd
    rw [hxi]
    refine .interrupt ?_ ?_ hexc
    · -- nothing older than the interrupt packet can have cleared the enable bits
      have hc := hs.core
      have hint := (hs.interrupts.next (P := P) (i := i) hin.packets (fun _ hf => hf.isInterrupt)
        hc.csrFile_wf hc.csrOrder hc.trapDrain hc.dataAccess).exMem
      have hx : (s.core.next P i).exMemQ = Seq.interrupted (S.fetch E).pc := hx.trans hxi
      obtain ⟨hs, hi, -⟩ := CsrFile.arch_eq_iff.mp hS.arch
      rw [CsrFile.timerEnabled, hs, hi]
      exact hint (by rw [hx]; rfl) (by rw [hx]; rfl)
    · exact hmtip hv (by rw [hd]; rfl)

/-- The answer to the access in EX/MEM is the one that the machine gets. -/
theorem InFlight.answer (h : InFlight E d₀ s S) (hs : Reachable P s) (hport : DataPort s)
    (hE : E.Explains d₀.length (s.next P i)) (hrst : i.rst = false)
    (hbus : s.core.exMemQ.onBus = true) (hwait : s.core.memWait i = false) :
    dmemRsp i = E.answers S.requests.length := by
  have hc := hs.core
  obtain ⟨-, -, hrsp⟩ := hport.answered hc.dataAccess hc.trapDrain hc.packets hrst hbus hwait
  refine hE.dmem _ _ ?_
  -- the requests of the machine are all answered
  have hlen : d₀.length + S.requests.length = s.dmem.answered.length := by
    have hlog := congrArg List.length h.log
    simp only [List.length_append] at hlog
    by_cases hsent : s.core.lsu.requestSentQ = true
    · obtain ⟨hb, r, howes, -⟩ := hport.sent hsent
      have hlen := howes.1
      have hd : s.core.lsu.discardQ = false := by
        -- only an access whose answer is awaited completes
        cases hc.dataAccess.access (P := P) hc.trapDrain hrst with
        | none _ _ mem => simp [ExMem.onBus, mem] at hbus
        | drains _ _ _ _ wait => simp [wait] at hwait
        | offBus _ _ _ bus => simp [ExMem.onBus, bus] at hbus
        | waits _ _ _ wait => simp [wait] at hwait
        | answered _ _ state =>
          rcases state with hi | ⟨-, hd⟩
          · simp [hb] at hi
          · exact hd
      simp only [outstanding, hsent, hd, Bool.not_false, Bool.and_self, if_true,
        List.length_singleton] at hlog
      omega
    · have hq := hport.quiet (by simpa using hsent)
      simp only [outstanding, hsent, Bool.false_and, Bool.false_eq_true, if_false,
        List.length_nil] at hlog
      have := hq
      unfold Channel.Quiet at this
      omega
  rw [hlen]
  exact hrsp

/-- What enters MEM/WB is the step of the machine. -/
theorem InFlight.commit (h : InFlight E d₀ s S) (hs : Reachable P s) (hport : DataPort s)
    (hE : E.Explains d₀.length (s.next P i)) (hrst : i.rst = false)
    (hv : (s.next P i).core.memWbQ.valid = true) :
    ∃ S', Seq.Step E S ({ s.exMemObs with wbCycle := s.clock + 1 },
          (s.next P i).core.memWbQ.event) S' ∧
      S'.Agrees (s.clock + 2) (s.next P i).pcMem (s.next P i).core.regsAfterWb
        ((s.next P i).core.csrFile.next (s.next P i).core.memWbQ.commit) ∧
      S'.requests = S.requests ++ Seq.request s.core.exMemQ := by
  obtain ⟨hw, hx, hwait⟩ := memWb_next hv
  have hpcMem : (s.next P i).pcMem =
      (s.core.memWbD i).nextPc (s.next P i).core.csrFile.mtvecQ := by
    rw [pcMem, if_pos hv, hw]
  have hregs : (s.next P i).core.regsAfterWb = s.core.regsAfterWb.write
      (s.core.memWbD i).writesReg (s.core.memWbD i).rd (s.core.memWbD i).wbData := by
    rw [Core.regsAfterWb, hw]
    rfl
  have hcsr : (s.next P i).core.csrFile = s.core.csrFile.next s.core.memWbQ.commit :=
    Core.next_csrFile P s.core hrst
  have hwf : (s.core.csrFile.next s.core.memWbQ.commit).Wf := hs.core.csrFile_wf.next
  rw [hpcMem, hregs, hcsr, hw]
  let o : Observation := { s.exMemObs with wbCycle := s.clock + 1 }
  have hexec := h.exMem hx
  generalize hxe : s.core.exMemQ = x at hexec
  -- the step is that of the packet in EX/MEM
  cases hexec with
  | instr counter =>
    -- the cycle of the commit does not matter to what is executed
    have hxo : s.core.exMemQ = S.execute E o := hxe
    have hpacket : s.core.memWbD i = S.packet E o := by
      unfold Seq.packet
      cases hm : s.core.exMemQ.isMemory with
      | false =>
        rw [Core.memWbD_of_not_isMemory hm, if_pos hx, ← hxo, hm, if_neg (by simp)]
      | true =>
        rw [hs.core.dataAccess.memWbD_completed hrst hm hwait, ← hxo, hm, if_pos rfl]
        by_cases hbus : s.core.exMemQ.onBus = true
        · rw [← h.answer hs hport hE hrst hbus hwait]
          rfl
        · -- a misaligned access has no answer
          have hop : s.core.exMemQ.op.onBus = false := by
            simpa [ExMem.onBus, hm] using hbus
          simp [ExMem.completed, hop]
    rw [hpacket]
    exact ⟨S.instr E o, .instr o counter, h.agrees.commit _ _, rfl⟩
  | interrupt enabled pending clean =>
    -- an interrupt packet makes no access
    have hm : s.core.exMemQ.isMemory = false := by
      rw [hxe]
      rfl
    have hpacket : s.core.memWbD i = (Seq.interrupted S.pc).localPacket := by
      rw [Core.memWbD_of_not_isMemory hm, if_pos hx, hxe]
    rw [hpacket]
    refine ⟨S.interrupt, .interrupt o enabled pending clean, h.agrees.interrupt hwf rfl, ?_⟩
    exact (List.append_nil _).symm

/-! ### A cycle -/

/-- `mtip_i` was set when an interrupt packet entered ID/EX. -/
def MtipSeen (s : System) : Prop :=
  s.core.idExQ.valid = true → s.core.idExQ.exc.isInterrupt = true → s.idExMtip = true

/-- It is so in every reachable state. -/
theorem MtipSeen.next (h : MtipSeen s) (hs : Reachable P s) : MtipSeen (s.next P i) := by
  intro hv hi
  rcases idEx_next hv with ⟨hd, hm⟩ | ⟨hd, hm⟩
  · rw [hd] at hv hi
    rw [hm]
    exact (Core.enabled_of_idExD (fun hf => (hs.inOrder.packets.ifId hf).isInterrupt) hv hi).1
  · rw [hd] at hv hi
    rw [hm]
    exact h (by simpa using hv) (by simpa using hi)

/-- Nothing is out while a packet commits. -/
theorem outstanding_of_memWb (hs : Reachable P s) (hport : DataPort s)
    (hv : s.core.memWbQ.valid = true) : s.outstanding = [] := by
  rw [outstanding, if_neg]
  rw [Bool.and_eq_true, Bool.not_eq_true']
  rintro ⟨hsent, hd⟩
  obtain ⟨-, -, hw⟩ := hs.core.dataAccess.busy (hport.sent hsent).1 hd
  simp [hw] at hv

/-- The data port accepts the requests of the machine. -/
theorem InFlight.log_next (h : InFlight E d₀ s S) (hs : Reachable P s) (hport : DataPort s)
    (hrst : i.rst = false) (hl : (circuit P).legal s i) {rs : List MemReq}
    (hreq : rs = S.requests ++
      if (s.next P i).core.memWbQ.valid then Seq.request s.core.exMemQ else []) :
    (s.next P i).dmem.accepted = d₀ ++ rs ++ (s.next P i).outstanding := by
  have hc := hs.core
  have hlog := hport.log (P := P) hc.dataAccess hc.trapDrain hc.packets hrst hl.2
  have hcap : (((s.captured P i).toList.filter (·.onBus)).map (·.request)) =
      if (s.next P i).core.memWbQ.valid then Seq.request s.core.exMemQ else [] := by
    unfold captured Seq.request
    split
    · cases hb : s.core.exMemQ.onBus <;> simp [hb]
    · rfl
  rw [hcap] at hlog
  calc (s.next P i).dmem.accepted
      = s.dmem.accepted ++ (s.dmemReq i).toList := rfl
    _ = d₀ ++ S.requests ++ (s.outstanding ++ (s.dmemReq i).toList) := by
      rw [h.log, List.append_assoc]
    _ = d₀ ++ rs ++ (s.next P i).outstanding := by
      rw [hlog, hreq]
      simp only [List.append_assoc]

/-- A cycle without reset keeps the relation: what enters MEM/WB is a step of the machine. -/
theorem InFlight.next (h : InFlight E d₀ s S) (hs : Reachable P s) (hport : DataPort s)
    (hm : MtipSeen s) (hE : E.Explains d₀.length (s.next P i)) (hrst : i.rst = false)
    (hl : (circuit P).legal s i) : Refines E d₀ (s.next P i) S := by
  have hcsr : (s.next P i).core.csrFile = s.core.csrFile.next s.core.memWbQ.commit :=
    Core.next_csrFile P s.core hrst
  have hclock : (s.next P i).clock = s.clock + 1 := if_neg (by simp [hrst])
  have hagrees : S.Agrees (s.next P i).clock (s.next P i).pc (s.next P i).core.regfile
      (s.next P i).core.csrFile := by
    rw [hclock, hcsr]
    exact ⟨h.agrees.pc.trans (pc_next hrst).symm, h.agrees.regs, h.agrees.csr⟩
  -- the packet that enters EX/MEM is executed in the state after MEM/WB
  have hexec {S' : Seq} (hag : S'.Agrees (s.clock + 2) (s.next P i).pcMem
      (s.next P i).core.regsAfterWb
      ((s.next P i).core.csrFile.next (s.next P i).core.memWbQ.commit))
      (hsame : (s.next P i).core.memWbQ.valid = false → S' = S)
      (hv : (s.next P i).core.exMemQ.valid = true) :
      S'.Executes E (s.next P i).exMemObs (s.next P i).core.exMemQ := by
    rcases exMem_next hv with ⟨hready, hres, hx, hw, ho⟩ | ⟨hx, hw, ho⟩
    · rw [ho, hx]
      exact executes_exMemD hs (explains_of_next hE) hm hready hres hx hw hag
    · rw [ho, hx, hsame (by rw [hw])]
      exact h.exMem (by rwa [hx] at hv)
  refine ⟨hagrees, ?_⟩
  unfold observed Core.event
  cases hv : (s.next P i).core.memWbQ.valid with
  | true =>
    obtain ⟨S', hstep, hag, hreq⟩ := h.commit hs hport hE hrst hv
    refine ⟨S', hclock ▸ hstep, hclock ▸ hag, hexec hag (by simp [hv]), ?_⟩
    exact h.log_next hs hport hrst hl (by rw [hreq, if_pos hv])
  | false =>
    -- the machine stays where it is
    have hw := memWb_next_bubble hv
    have hag : S.Agrees ((s.next P i).clock + 1) (s.next P i).pcMem (s.next P i).core.regsAfterWb
        ((s.next P i).core.csrFile.next (s.next P i).core.memWbQ.commit) := by
      refine ⟨?_, ?_, ?_⟩
      · rw [pcMem, if_neg (by simp [hv])]
        exact hagrees.pc
      · rw [Core.regsAfterWb, hw]
        exact hagrees.regs
      · have hreach : Reachable P (s.next P i) := hs.step hl
        rw [hw]
        exact hagrees.bubble hreach.core.csrFile_wf
    refine ⟨hag, hexec (by rwa [hclock] at hag) fun _ => rfl, ?_⟩
    exact h.log_next hs hport hrst hl (by rw [if_neg (by simp [hv]), List.append_nil])

end System

end Rv32im

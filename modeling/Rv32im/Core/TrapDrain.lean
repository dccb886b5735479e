import Rv32im.Core.Stages
import Rv32im.Clocked.Circuit

/-!
# Trap drain

`trap_drain_q` records that a trap packet is on its way to MEM/WB. The invariant below ties it
to the three slots, one conjunct per slot: whatever the controller does, at most one trap
packet is in flight and everything younger has been squashed.

* `Core.circuit`, `Core.Reachable`: the core in an arbitrary environment, started by a reset;
* `Core.TrapDrain`: the invariant, kept by every cycle.
-/

namespace Rv32im

namespace Core

/-- The core with an environment that may drive anything: any program, any port timing, any
`mtip_i` waveform, resets at any time. -/
def circuit (P : CoreParams) : Clocked.Circuit Core CoreIn where
  legal _ _ := True
  next := next P

/-- The state after a reset edge, whatever the registers held before. -/
def AfterReset (P : CoreParams) (c : Core) : Prop :=
  ∃ c₀ i, i.rst = true ∧ c = next P c₀ i

/-- The states reached after a first reset. -/
abbrev Reachable (P : CoreParams) (c : Core) : Prop := (circuit P).Reachable (AfterReset P) c

/-- The state after a reset edge from cleared registers. -/
def boot (P : CoreParams) : Core :=
  next P
    { ifStage := { nextPcQ := 0#32, requestPcQ := 0#32 }, csrFile := {}, regfile := fun _ => 0#32 }
    { rst := true }

/-- A cycle in which the instruction port accepts a request and answers it at once. -/
def fetches (insn : Word) : CoreIn :=
  { imem := { reqReady := true, rspValid := true, rspRdata := insn } }

variable {P : CoreParams} {c : Core} {i : CoreIn}

/-- The state after a reset is reachable. -/
theorem reachable_boot (P : CoreParams) : Reachable P (boot P) :=
  .start ⟨_, _, rfl, rfl⟩

/-- Any inputs lead from a reachable state to a reachable state. -/
theorem Reachable.exec (h : Reachable P c) (is : List CoreIn) :
    Reachable P ((circuit P).exec c is) := by
  induction is generalizing c with
  | nil => exact h
  | cons i is ih => exact ih (h.step trivial)

/-- What a reset establishes and every cycle from a reachable state preserves holds in every
reachable state. -/
theorem Reachable.holds {I : Core → Prop} (h : Reachable P c)
    (hreset : ∀ c i, i.rst = true → I (next P c i))
    (hnext : ∀ c i, Reachable P c → I c → I (next P c i)) : I c := by
  have hboth : Reachable P c ∧ I c := by
    refine Clocked.Circuit.Reachable.invariant (I := fun c => Reachable P c ∧ I c) h ?_
      fun s i hI hl => ⟨hI.1.step hl, hnext s i hI.1 hI.2⟩
    rintro s ⟨c₀, i, hrst, rfl⟩
    exact ⟨.start ⟨c₀, i, hrst, rfl⟩, hreset c₀ i hrst⟩
  exact hboth.2

/-- A trap packet in flight is the youngest valid packet, is alone and has no effect, and
`trap_drain_q` says whether there is one. -/
structure TrapDrain (c : Core) : Prop where
  drain : c.trapDrainQ = (c.idExQ.trap || c.exMemQ.trap || c.memWbQ.trap)
  idEx : c.idExQ.trap = true →
    c.ifIdQ.valid = false ∧ c.exMemQ.trap = false ∧ c.memWbQ.trap = false ∧ c.idExQ.ctrl = {}
  exMem : c.exMemQ.trap = true →
    c.ifIdQ.valid = false ∧ c.idExQ.valid = false ∧ c.memWbQ.trap = false ∧
      c.exMemQ.regWrite = false ∧ c.exMemQ.csrWrite = false ∧ c.exMemQ.isMret = false ∧
      c.exMemQ.memCmd = .none
  memWb : c.memWbQ.trap = true →
    c.ifIdQ.valid = false ∧ c.idExQ.valid = false ∧ c.exMemQ.valid = false ∧
      c.memWbQ.regWrite = false ∧ c.memWbQ.csrWrite = false ∧ c.memWbQ.isMret = false ∧
      c.memWbQ.memWrite = false

/-- While a trap drains, no packet enters ID. -/
theorem TrapDrain.ifId (h : TrapDrain c) (hd : c.trapDrainQ = true) : c.ifIdQ.valid = false := by
  have hdrain := h.drain
  rw [hd] at hdrain
  rcases (by simpa using hdrain.symm : (c.idExQ.trap = true ∨ c.exMemQ.trap = true) ∨ _) with
    (ht | ht) | ht
  · exact (h.idEx ht).1
  · exact (h.exMem ht).1
  · exact (h.memWb ht).1

/-- No trap is ahead of a packet in ID/EX. -/
theorem TrapDrain.exMem_clean (h : TrapDrain c) (hv : c.idExQ.valid = true) :
    c.exMemQ.trap = false := by
  by_contra hne
  simpa [hv] using (h.exMem (by simpa using hne)).2.1

/-- What MEM hands over ahead of a packet in ID/EX is no trap, unless it is its own fault. -/
theorem TrapDrain.memWbD_clean (h : TrapDrain c) (hready : Ready c i) (hv : c.idExQ.valid = true) :
    (c.memWbD i).trap = false := by
  rw [Core.memWbD_trap, hready.memException, Bool.or_false, h.exMem_clean hv]

/-- A trap packet leaving EX has no effect. -/
private theorem exMemD_effects (h : (c.exMemD i).trap = true) :
    (c.exMemD i).regWrite = false ∧ (c.exMemD i).csrWrite = false ∧
      (c.exMemD i).isMret = false ∧ (c.exMemD i).memCmd = .none := by
  rw [exMemD_eq] at h ⊢
  split at h
  · simp only [ExMem.trap, Bool.and_eq_true] at h
    -- EX clears every control of a packet with an exception
    simp_all [exPacket, ExStage.packet]
  · simp [ExMem.trap] at h

/-- A trap packet leaving ID has no controls. -/
theorem idExD_ctrl_of_exc (h : (c.idExD i).exc.valid = true) : (c.idExD i).ctrl = {} := by
  unfold idExD at h ⊢
  split
  · rfl
  next hc =>
    rw [if_neg hc] at h
    exact IdStage.packet_ctrl_of_exc h

/-- A packet that traps writes nothing. -/
private theorem memWbD_effects (h : (c.memWbD i).trap = true) :
    (c.memWbD i).regWrite = false ∧ (c.memWbD i).csrWrite = false ∧
      (c.memWbD i).isMret = false ∧ (c.memWbD i).memWrite = false := by
  simp only [MemWb.trap, Bool.and_eq_true] at h
  exact memWbD_of_trap h.2

/-- The pipeline without packets and without drain. -/
theorem TrapDrain.of_empty {fetch : FetchCmd} {r : Bool}
    (h : Edge P c i {} {} {} {} false fetch r) : TrapDrain (next P c i) := by
  constructor <;> simp [h.ifId, h.idEx, h.exMem, h.memWb, h.drain]

/-- A reset establishes it. -/
theorem TrapDrain.of_reset (hrst : i.rst = true) : TrapDrain (Core.next P c i) :=
  .of_empty (edge_reset P c hrst)

/-- Without drain no slot holds a trap packet, and none is handed over by EX or MEM. -/
theorem TrapDrain.no_trap (h : TrapDrain c) (hf : Fires c i) (hd : c.trapDrainQ = false) :
    c.idExQ.trap = false ∧ (c.exMemD i).trap = false ∧ (c.memWbD i).trap = false := by
  have hdrain := h.drain
  rw [hd] at hdrain
  simp only [Bool.false_eq, Bool.or_eq_false_iff] at hdrain
  rw [hf.exMemD_trap, memWbD_trap, hf.memException, Bool.or_false]
  exact ⟨hdrain.1.1, hdrain.1.1, hdrain.1.2⟩

/-- A cycle in which every stage hands over and nothing traps. -/
private theorem TrapDrain.of_no_trap {f : IfId} {d : IdEx} {fetch : FetchCmd} {r : Bool}
    (h : TrapDrain c) (hf : Fires c i) (hd : c.trapDrainQ = false)
    (edge : Edge P c i f d (c.exMemD i) (c.memWbD i) false fetch r) (hid : d.trap = false) :
    TrapDrain (Core.next P c i) := by
  obtain ⟨-, hx, hw⟩ := h.no_trap hf hd
  constructor <;> simp [edge.idEx, edge.exMem, edge.memWb, edge.drain, hx, hw, hid]

/-- Every cycle keeps the invariant. -/
theorem TrapDrain.next (h : TrapDrain c) : TrapDrain (next P c i) := by
  cases next_cases P c i with
  | reset rst edge => exact .of_empty edge
  | wbTrap rst trap edge => exact .of_empty edge
  | memException rst trap exc edge =>
    -- the access fault is the trap, and everything behind it is flushed
    have hw : (c.memWbD i).trap = true := by rw [memWbD_trap, exc, Bool.or_true]
    constructor <;> simp [edge.ifId, edge.idEx, edge.exMem, edge.memWb, edge.drain, hw]
    exact memWbD_effects hw
  | memWait rst trap wait edge =>
    -- a memory operation carries no exception into MEM
    have hm : c.exMemQ.trap = false := by
      simp only [memWait, Bool.and_eq_true] at wait
      exact ExMem.trap_of_isMemory wait.1
    constructor <;>
      simp only [edge.ifId, edge.idEx, edge.exMem, edge.memWb, edge.drain, MemWb.trap_bubble,
        IdEx.refresh_trap, hm, Bool.false_eq_true, false_implies, IdEx.refresh_ctrl]
    · simpa [hm, trap] using h.drain
    · exact fun ht => ⟨(h.idEx ht).1, trivial, trivial, (h.idEx ht).2.2.2⟩
  | exException ready exc edge =>
    obtain ⟨hr, he, -, -⟩ := exException_iff.mp exc
    have hx : (c.exMemD i).trap = true := by
      rw [exMemD_eq, if_pos hr, ExMem.trap, he, Bool.and_true]
      rfl
    have hw := h.memWbD_clean ready (valid_of_resultValid hr)
    constructor <;> simp [edge.ifId, edge.idEx, edge.exMem, edge.memWb, edge.drain, hw, hx]
    exact exMemD_effects hx
  | exWait ready wait edge =>
    have hw : (c.memWbD i).trap = c.exMemQ.trap := by
      rw [memWbD_trap, ready.memException, Bool.or_false]
    constructor <;>
      simp only [edge.ifId, edge.idEx, edge.exMem, edge.memWb, edge.drain, ExMem.trap_bubble,
        IdEx.refresh_trap, IdEx.refresh_valid, Bool.false_eq_true, false_implies,
        IdEx.refresh_ctrl, hw]
    · simpa [ready.trap] using h.drain
    · exact fun ht => ⟨(h.idEx ht).1, trivial, (h.idEx ht).2.1, (h.idEx ht).2.2.2⟩
    · exact fun ht => ⟨(h.exMem ht).1, (h.exMem ht).2.1, trivial, memWbD_effects (hw.trans ht)⟩
  | trapDrain fires drain edge =>
    have hw : (c.memWbD i).trap = c.exMemQ.trap := by
      rw [memWbD_trap, fires.memException, Bool.or_false]
    have hf := h.ifId drain
    have hd : c.idExD i = {} := idExD_of_not_valid hf
    -- the trap packet moves one slot on, with bubbles behind it
    have hone : (c.exMemD i).trap = true ∨ (c.memWbD i).trap = true := by
      simpa [fires.exMemD_trap, hw, drain, fires.trap] using h.drain
    constructor <;>
      simp only [edge.ifId, edge.idEx, edge.exMem, edge.memWb, edge.drain, hd,
        IdEx.trap_bubble, Bool.false_eq_true, false_implies, Bool.false_or]
    · simpa using hone
    · refine fun ht => ⟨hf, trivial, ?_, exMemD_effects ht⟩
      rw [hw, (h.idEx (fires.exMemD_trap ▸ ht)).2.1]
    · refine fun ht => ⟨hf, trivial, ?_, memWbD_effects ht⟩
      rw [exMemD_valid, fires.resultValid, (h.exMem (hw ▸ ht)).2.1]
  | exRedirect fires drain redirect edge =>
    exact .of_no_trap h fires drain edge rfl
  | stall fires drain redirect stall edge =>
    exact .of_no_trap h fires drain edge rfl
  | idTrap fires drain redirect irqWait exc edge =>
    obtain ⟨hd, hx, hw⟩ := h.no_trap fires drain
    have hid : (c.idExD i).trap = true := by simp only [IdEx.trap, exc, Bool.and_self]
    constructor <;> simp [edge.ifId, edge.idEx, edge.exMem, edge.memWb, edge.drain, hx, hw, hid]
    exact idExD_ctrl_of_exc exc.2
  | advance fires drain redirect irqWait exc loadUse csrDep edge =>
    refine .of_no_trap h fires drain edge ?_
    cases hv : (c.idExD i).valid with
    | false => exact IdEx.trap_of_not_valid hv
    | true => simp [IdEx.trap, exc hv]

/-- The invariant holds in every reachable state. -/
theorem Reachable.trapDrain (h : Reachable P c) : TrapDrain c :=
  h.holds (fun _ _ hrst => .of_reset hrst) fun _ _ _ h => h.next

/-! ### Precise traps -/

/-- What a trap packet does from the slot it is in until it commits. -/
structure PreciseTraps (P : CoreParams) (c : Core) : Prop extends TrapDrain c where
  /-- While `trap_drain_q` is set there is exactly one trap packet. -/
  one : c.trapDrainQ = true → [c.idExQ.trap, c.exMemQ.trap, c.memWbQ.trap].count true = 1
  /-- No redirect while one is in flight, -/
  inFlight : ∀ i, c.trapDrainQ = true → (c.controlRedirect i).valid = false
  /-- nor by a packet whose exception EX has just found. -/
  found : ∀ i, (c.exMemD i).trap = true → (c.controlRedirect i).valid = false
  /-- In MEM/WB it commits at once and is gone. -/
  commits : ∀ i, i.rst = false → c.memWbQ.trap = true →
    (next P c i).csrFile = c.csrFile.next c.memWbQ.commit ∧
      (next P c i).csrFile.mepcQ = c.memWbQ.pc &&& 0xfffffffc#32 ∧
      (next P c i).csrFile.mtvalQ = c.memWbQ.exc.tval ∧
      (next P c i).csrFile.mcauseQ =
        ((if c.memWbQ.exc.isInterrupt then mcauseInterruptMask else 0#32)
          ||| (0#27 ++ c.memWbQ.exc.cause)) ∧
      (next P c i).memWbQ.valid = false ∧ (next P c i).trapDrainQ = false

/-- `trap_drain_q` is set exactly while a trap packet is in flight, which is then alone, the
youngest and without effect, and which commits in its only cycle in MEM/WB. -/
theorem Reachable.preciseTraps (h : Reachable P c) : PreciseTraps P c := by
  have ht := h.trapDrain
  refine { ht with one := ?_, inFlight := ?_, found := ?_, commits := ?_ }
  · intro hd
    have hdrain := ht.drain
    rw [hd] at hdrain
    cases hid : c.idExQ.trap with
    | true => simp [(ht.idEx hid).2.1, (ht.idEx hid).2.2.1]
    | false =>
      cases hx : c.exMemQ.trap with
      | true => simp [(ht.exMem hx).2.2.1]
      | false =>
        have hw : c.memWbQ.trap = true := by simpa [hid, hx] using hdrain.symm
        simp [hw]
  · intro i hd
    refine controlRedirect_of_not_valid fun hv => ?_
    have hdrain := ht.drain
    rw [hd] at hdrain
    -- a redirect needs a valid packet without exception in ID/EX
    rcases (by simpa using hdrain.symm : (c.idExQ.trap = true ∨ c.exMemQ.trap = true) ∨ _) with
      (htrap | htrap) | htrap
    · exact (Bool.and_eq_true_iff.mp htrap).2
    · simpa [hv] using (ht.exMem htrap).2.1
    · simpa [hv] using (ht.memWb htrap).2.1
  · intro i htrap
    by_contra hne
    obtain ⟨-, hx, -, hexc, -⟩ := of_controlRedirect (Bool.not_eq_false _ ▸ hne)
    simp [ExMem.trap, hx, hexc] at htrap
  · intro i hrst htrap
    have hcsr := next_csrFile P c hrst
    -- a trap in MEM/WB flushes every slot at the next edge
    have hgone : (next P c i).memWbQ.valid = false ∧ (next P c i).trapDrainQ = false := by
      have edge := edge_wbTrap P hrst htrap
      simp [edge.memWb, edge.drain]
    rw [hcsr]
    simpa [CsrFile.next, CsrFile.mepcD, CsrFile.mtvalD, CsrFile.mcauseD, MemWb.commit, htrap]
      using hgone

/-- The access fault of the first fetch, in MEM/WB four cycles after it. -/
theorem preciseTraps_fetchFault :
    let c := (circuit {}).exec (boot {})
      [{ imem := { reqReady := true, rspValid := true, rspErr := true } }, {}, {}, {}]
    c.memWbQ.trap = true ∧ PreciseTraps {} c :=
  ⟨by decide +kernel, ((reachable_boot {}).exec _).preciseTraps⟩

end Core

end Rv32im

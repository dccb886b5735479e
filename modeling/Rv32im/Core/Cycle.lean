import Rv32im.Rtl.Core

/-!
# One cycle of the core

What a clock edge can do, once for all invariants: `Core.next_cases` turns the controller's
priority chain and its action table into eleven cases, each with the conditions under which it
occurs and the new value of every pipeline register.

* `Core.Ready`: MEM and WB neither trap, fault nor wait, so that EX may hand over its packet;
* `Core.Edge`: the registers a cycle loads and what it drives into the fetch unit;
* `Core.Cycle`, `Core.next_cases`: the cases.
-/

namespace Rv32im

/-- What the controller asks of the fetch unit. -/
inductive FetchCmd
  | reset | hold | consume | flush | redirect (target : Word)
deriving DecidableEq, Repr

/-- The inputs of `if_stage` that carry out a command. -/
def FetchCmd.drive (imem : MemIn) : FetchCmd → IfStage.In
  | .reset => { rst := true, flush := true, imem }
  | .hold => { imem }
  | .consume => { enable := true, consume := true, imem }
  | .flush => { flush := true, imem }
  | .redirect target =>
    { enable := true, flush := true, redirectValid := true, redirectPc := target, imem }

namespace Core

variable {P : CoreParams} {c : Core} {i : CoreIn}

/-- No older event keeps EX/MEM from accepting a packet. -/
structure Ready (c : Core) (i : CoreIn) : Prop where
  rst : i.rst = false
  trap : c.memWbQ.trap = false
  memException : c.memException i = false
  memWait : c.memWait i = false

/-- EX hands the packet in ID/EX, if there is one, over to EX/MEM without a new exception. -/
structure Fires (c : Core) (i : CoreIn) : Prop extends Ready c i where
  exWait : ExStage.wait (c.exIn i) = false
  exException : c.exException i = false

/-- The pipeline registers after the cycle, the command given to the fetch unit and whether
MEM/WB can take a response. -/
structure Edge (P : CoreParams) (c : Core) (i : CoreIn) (f : IfId) (d : IdEx) (x : ExMem)
    (w : MemWb) (drain : Bool) (fetch : FetchCmd) (rspReady : Bool) : Prop where
  ifId : (c.next P i).ifIdQ = f
  idEx : (c.next P i).idExQ = d
  exMem : (c.next P i).exMemQ = x
  memWb : (c.next P i).memWbQ = w
  drain : (c.next P i).trapDrainQ = drain
  fetch : c.ifIn i = fetch.drive i.imem
  rspReady : c.lsuRspReady i = rspReady

/-- The packet in ID/EX with its operands refreshed by the commit of this cycle. -/
abbrev idExHeld (c : Core) : IdEx :=
  c.idExQ.refresh c.memWbQ.writesReg c.memWbQ.rd c.memWbQ.wbData

/-- The cases of a clock edge, oldest event first. -/
inductive Cycle (P : CoreParams) (c : Core) (i : CoreIn) : Prop
  | reset (rst : i.rst = true) (edge : Edge P c i {} {} {} {} false .reset false)
  | wbTrap (rst : i.rst = false) (trap : c.memWbQ.trap = true)
      (edge : Edge P c i {} {} {} {} false (.redirect (Word.align c.csrFile.mtvecQ)) false)
  | memException (rst : i.rst = false) (trap : c.memWbQ.trap = false)
      (exc : c.memException i = true)
      (edge : Edge P c i {} {} {} (c.memWbD i) true .flush true)
  | memWait (rst : i.rst = false) (trap : c.memWbQ.trap = false)
      (wait : c.memWait i = true)
      (edge : Edge P c i c.ifIdQ c.idExHeld c.exMemQ {} c.trapDrainQ .hold false)
  | exException (ready : Ready c i) (exc : c.exException i = true)
      (edge : Edge P c i {} {} (c.exMemD i) (c.memWbD i) true .flush true)
  | exWait (ready : Ready c i) (wait : ExStage.wait (c.exIn i) = true)
      (edge : Edge P c i c.ifIdQ c.idExHeld {} (c.memWbD i) c.trapDrainQ .hold true)
  | trapDrain (fires : Fires c i) (drain : c.trapDrainQ = true)
      (edge : Edge P c i c.ifIdQ (c.idExD i) (c.exMemD i) (c.memWbD i) true .hold true)
  | exRedirect (fires : Fires c i) (drain : c.trapDrainQ = false)
      (redirect : (c.controlRedirect i).valid = true)
      (edge : Edge P c i {} {} (c.exMemD i) (c.memWbD i) false
        (.redirect (c.controlRedirect i).target) true)
  | stall (fires : Fires c i) (drain : c.trapDrainQ = false)
      (redirect : (c.controlRedirect i).valid = false)
      (stall : c.irqStateWait = true ∨
        c.idException i = false ∧ c.idInterrupt i = false ∧
          PipelineCtrl.idHazard (c.ctrlIn i) = true)
      (edge : Edge P c i c.ifIdQ {} (c.exMemD i) (c.memWbD i) false .hold true)
  | idTrap (fires : Fires c i) (drain : c.trapDrainQ = false)
      (redirect : (c.controlRedirect i).valid = false) (irqWait : c.irqStateWait = false)
      (exc : (c.idExD i).valid = true ∧ (c.idExD i).exc.valid = true)
      (edge : Edge P c i {} (c.idExD i) (c.exMemD i) (c.memWbD i) true .flush true)
  | advance (fires : Fires c i) (drain : c.trapDrainQ = false)
      (redirect : (c.controlRedirect i).valid = false) (irqWait : c.irqStateWait = false)
      (exc : (c.idExD i).valid = true → (c.idExD i).exc.valid = false)
      (loadUse : HazardUnit.loadUse (c.idExD i) c.idExQ = false)
      (csrDep : HazardUnit.csrDep (c.idExD i) c.idExQ c.exMemQ = false)
      (edge : Edge P c i (c.ifIdD i) (c.idExD i) (c.exMemD i) (c.memWbD i) false .consume true)

/-- The registers and the fetch command as the action table has them. -/
private theorem edge_of_action {a : PipelineAction} {o : PipelineCtrl.Out}
    (ha : c.action i = a)
    (ho : PipelineCtrl.table c.trapDrainQ (c.controlRedirect i).target c.csrFile.mtvecQ a = o)
    {k : FetchCmd}
    (hfetch : ({ rst := i.rst, enable := o.pcEnable, consume := o.ifIdEnable && !o.ifIdFlush
                 flush := o.ifIdFlush, redirectValid := o.redirectValid
                 redirectPc := o.redirectPc, imem := i.imem } : IfStage.In) =
      k.drive i.imem) :
    Edge P c i (pipeReg i.rst o.ifIdFlush o.ifIdEnable {} (c.ifIdD i) c.ifIdQ)
      (pipeReg i.rst o.idExFlush o.idExEnable {} (c.idExD i) c.idExHeld)
      (pipeReg i.rst o.exMemFlush o.exMemEnable {} (c.exMemD i) c.exMemQ)
      (pipeReg i.rst o.memWbFlush o.memWbEnable {} (c.memWbD i) c.memWbQ)
      (if i.rst then false else o.trapDrainD) k
      (o.memWbEnable && !o.memWbFlush && !c.memWbQ.trap) := by
  have hctrl : c.ctrl i = o := by rw [← ho, ← ha]; rfl
  constructor
  case fetch => rw [← hfetch, ← hctrl]; rfl
  all_goals rw [← hctrl]; rfl

/-- Without reset MEM/WB commits to the CSR file. -/
theorem next_csrFile (P : CoreParams) (c : Core) (hrst : i.rst = false) :
    (c.next P i).csrFile = c.csrFile.next c.memWbQ.commit := by
  simp [Core.next, hrst]

/-- A reset edge. -/
theorem edge_reset (P : CoreParams) (c : Core) (hrst : i.rst = true) :
    Edge P c i {} {} {} {} false .reset false := by
  have ha : c.action i = .reset := if_pos hrst
  simpa [hrst, PipelineCtrl.table, pipeReg] using
    edge_of_action (P := P) (k := .reset) ha rfl (by rw [hrst]; rfl)

/-- The edge that commits a trap. -/
theorem edge_wbTrap (P : CoreParams) (hrst : i.rst = false) (htrap : c.memWbQ.trap = true) :
    Edge P c i {} {} {} {} false (.redirect (Word.align c.csrFile.mtvecQ)) false := by
  have ha : c.action i = .wbTrap := (if_neg (Bool.eq_false_iff.mp hrst)).trans (if_pos htrap)
  simpa [hrst, PipelineCtrl.table, pipeReg] using
    edge_of_action (P := P) (k := .redirect (Word.align c.csrFile.mtvecQ)) ha rfl
      (by rw [hrst]; rfl)

/-- A trap packet in ID is either an exception or an interrupt. -/
theorem idException_or_idInterrupt :
    (c.idException i || c.idInterrupt i) = ((c.idExD i).valid && (c.idExD i).exc.valid) := by
  unfold idException idInterrupt
  cases (c.idExD i).exc.isInterrupt <;> simp

/-- Every clock edge is one of the cases. -/
theorem next_cases (P : CoreParams) (c : Core) (i : CoreIn) : Cycle P c i := by
  have hid := c.idException_or_idInterrupt (i := i)
  -- the priority chain of `pipeline_ctrl`, then the row of its action in the table
  have hsel := PipelineCtrl.selected_action c.trapDrainQ (c.ctrlIn i)
  generalize ha : PipelineCtrl.action c.trapDrainQ (c.ctrlIn i) = a at hsel
  have hedge {k} := edge_of_action (P := P) (a := a) (k := k) ha rfl
  cases hsel with
  | reset hrst =>
    exact .reset hrst (edge_reset P c hrst)
  | wbTrap hrst htrap =>
    exact .wbTrap hrst htrap (edge_wbTrap P hrst htrap)
  | memException hrst htrap hexc =>
    have hrst : i.rst = false := hrst
    have htrap : c.memWbQ.trap = false := htrap
    exact .memException hrst htrap hexc
      (by simpa [hrst, htrap, PipelineCtrl.table, pipeReg] using hedge (by rw [hrst]; rfl))
  | memWait hrst htrap hexc hwait =>
    have hrst : i.rst = false := hrst
    exact .memWait hrst htrap hwait
      (by simpa [hrst, PipelineCtrl.table, pipeReg] using hedge (by rw [hrst]; rfl))
  | exException hrst htrap hmexc hmwait hexc =>
    have hrst : i.rst = false := hrst
    have htrap : c.memWbQ.trap = false := htrap
    exact .exException ⟨hrst, htrap, hmexc, hmwait⟩ hexc
      (by simpa [hrst, htrap, PipelineCtrl.table, pipeReg] using hedge (by rw [hrst]; rfl))
  | exWait hrst htrap hmexc hmwait hexc hwait =>
    have hrst : i.rst = false := hrst
    have htrap : c.memWbQ.trap = false := htrap
    exact .exWait ⟨hrst, htrap, hmexc, hmwait⟩ hwait
      (by simpa [hrst, htrap, PipelineCtrl.table, pipeReg] using hedge (by rw [hrst]; rfl))
  | younger hrst htrap hmexc hmwait hexc hwait hyounger =>
    have hrst : i.rst = false := hrst
    have htrap : c.memWbQ.trap = false := htrap
    have hfires : Fires c i := ⟨⟨hrst, htrap, hmexc, hmwait⟩, hwait, hexc⟩
    -- EX hands over; what is left is the choice for IF and ID
    obtain ⟨rfl, hd⟩ | ⟨rfl, hd, hred⟩ | ⟨hd, hred, hid'⟩ := hyounger
    · exact .trapDrain hfires hd
        (by simpa [hrst, htrap, hd, PipelineCtrl.table, pipeReg] using hedge (by rw [hrst]; rfl))
    · exact .exRedirect hfires hd hred
        (by simpa [hrst, htrap, hd, PipelineCtrl.table, pipeReg] using hedge (by rw [hrst]; rfl))
    have hred : (c.controlRedirect i).valid = false := hred
    obtain ⟨rfl, hirq⟩ | ⟨hirq, ⟨rfl, he⟩ | ⟨he, ⟨rfl, ht⟩ | ⟨ht, ⟨rfl, hz⟩ | ⟨rfl, hz⟩⟩⟩⟩ := hid'
    · exact .stall hfires hd hred (.inl hirq)
        (by simpa [hrst, htrap, hd, PipelineCtrl.table, pipeReg] using hedge (by rw [hrst]; rfl))
    · rw [show c.idException i = true from he] at hid
      exact .idTrap hfires hd hred hirq (by simpa using hid.symm)
        (by simpa [hrst, htrap, hd, PipelineCtrl.table, pipeReg] using hedge (by rw [hrst]; rfl))
    · rw [show c.idInterrupt i = true from ht, Bool.or_true] at hid
      exact .idTrap hfires hd hred hirq (by simpa using hid.symm)
        (by simpa [hrst, htrap, hd, PipelineCtrl.table, pipeReg] using hedge (by rw [hrst]; rfl))
    · exact .stall hfires hd hred (.inr ⟨he, ht, hz⟩)
        (by simpa [hrst, htrap, hd, PipelineCtrl.table, pipeReg] using hedge (by rw [hrst]; rfl))
    · rw [show c.idException i = false from he, show c.idInterrupt i = false from ht] at hid
      obtain ⟨hlu, hcsr⟩ := Bool.or_eq_false_iff.mp hz
      exact .advance hfires hd hred hirq (by simpa using hid.symm) hlu hcsr
        (by simpa [hrst, htrap, hd, PipelineCtrl.table, pipeReg] using hedge (by rw [hrst]; rfl))

/-- The conditions of the selected action. -/
theorem selected (c : Core) (i : CoreIn) :
    PipelineCtrl.Selected c.trapDrainQ (c.ctrlIn i) (c.action i) :=
  PipelineCtrl.selected_action _ _

/-- The controller waits for MEM. -/
theorem of_action_memWait (h : c.action i = .memWait) : i.rst = false ∧ c.memWbQ.trap = false ∧
    c.memException i = false ∧ c.memWait i = true := by
  have hsel := c.selected i
  rw [h] at hsel
  cases hsel with
  | memWait hrst htrap hexc hwait => exact ⟨hrst, htrap, hexc, hwait⟩
  | younger _ _ _ _ _ _ hyounger => simp at hyounger

/-- The controller waits for EX. -/
theorem of_action_exWait (h : c.action i = .exWait) :
    Ready c i ∧ ExStage.wait (c.exIn i) = true := by
  have hsel := c.selected i
  rw [h] at hsel
  cases hsel with
  | exWait hrst htrap hmexc hmwait hexc hwait => exact ⟨⟨hrst, htrap, hmexc, hmwait⟩, hwait⟩
  | younger _ _ _ _ _ _ hyounger => simp at hyounger

/-- The controller lets a trap packet drain. -/
theorem of_action_trapDrain (h : c.action i = .trapDrain) : c.trapDrainQ = true := by
  have hsel := c.selected i
  rw [h] at hsel
  cases hsel with
  | younger _ _ _ _ _ _ hyounger => simpa using hyounger

/-- The controller lets everything advance. -/
theorem of_action_advance (h : c.action i = .advance) :
    c.ifIn i = FetchCmd.consume.drive i.imem := by
  have hsel := c.selected i
  have hctrl : c.ctrl i = PipelineCtrl.table c.trapDrainQ (c.controlRedirect i).target
      c.csrFile.mtvecQ (c.action i) := rfl
  rw [h] at hsel hctrl
  cases hsel with
  | younger hrst _ _ _ _ _ _ =>
    have hrst : i.rst = false := hrst
    rw [ifIn, hctrl, hrst]
    rfl

/-- The controller holds the packet in ID: EX and MEM hand over, with a bubble behind them. -/
theorem of_action_hold (P : CoreParams)
    (h : c.action i = .idHazard ∨ c.action i = .irqStateWait) :
    Fires c i ∧ Edge P c i c.ifIdQ {} (c.exMemD i) (c.memWbD i) false .hold true := by
  have hsel := c.selected i
  have hedge {k} := edge_of_action (P := P) (c := c) (i := i) (k := k) rfl rfl
  have hfires {a : PipelineAction} (hsel : PipelineCtrl.Selected c.trapDrainQ (c.ctrlIn i) a)
      (ha : a = .idHazard ∨ a = .irqStateWait) : Fires c i ∧ c.trapDrainQ = false := by
    cases hsel with
    | younger hrst htrap hmexc hmwait hexc hwait hyounger =>
      refine ⟨⟨⟨hrst, htrap, hmexc, hmwait⟩, hwait, hexc⟩, ?_⟩
      rcases ha with rfl | rfl <;> simpa using And.left (by simpa using hyounger)
    | _ => simp at ha
  obtain ⟨hf, hd⟩ := hfires hsel h
  have hrst := hf.rst
  have htrap := hf.trap
  refine ⟨hf, ?_⟩
  rcases h with h | h <;> rw [h] at hedge <;>
    simpa [hrst, htrap, hd, PipelineCtrl.table, pipeReg] using hedge (by rw [hrst]; rfl)

/-- MEM/WB is never held: it takes what MEM offers or is emptied. -/
theorem next_memWbQ (P : CoreParams) (c : Core) (i : CoreIn) :
    (next P c i).memWbQ = {} ∨ (next P c i).memWbQ = c.memWbD i := by
  cases next_cases P c i with
  | reset rst edge => exact .inl edge.memWb
  | wbTrap rst trap edge => exact .inl edge.memWb
  | memException rst trap exc edge => exact .inr edge.memWb
  | memWait rst trap wait edge => exact .inl edge.memWb
  | exException ready exc edge => exact .inr edge.memWb
  | exWait ready wait edge => exact .inr edge.memWb
  | trapDrain fires drain edge => exact .inr edge.memWb
  | exRedirect fires drain redirect edge => exact .inr edge.memWb
  | stall fires drain redirect stall edge => exact .inr edge.memWb
  | idTrap fires drain redirect irqWait exc edge => exact .inr edge.memWb
  | advance fires drain redirect irqWait exc loadUse csrDep edge => exact .inr edge.memWb

end Core

end Rv32im

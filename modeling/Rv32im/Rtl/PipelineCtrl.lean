import Rv32im.Rtl.Pkg

/-!
# `pipeline_ctrl`

Central control: one action per cycle, chosen by instruction age, and the enables, flushes and
redirect that implement it. `PipelineCtrl.action` is the priority chain of the source and
`PipelineCtrl.out` its action table.
-/

namespace Rv32im

/-- `pipeline_action_e`. -/
inductive PipelineAction
  | advance | idHazard | irqStateWait | idException | idInterrupt | exRedirect | trapDrain
  | exWait | exException | memWait | memException | wbTrap | reset
deriving DecidableEq, Repr

namespace PipelineCtrl

/-- The inputs of `pipeline_ctrl`. -/
structure In where
  rst : Bool
  loadUse : Bool
  csrDep : Bool
  irqStateWait : Bool
  exWait : Bool
  memWait : Bool
  idException : Bool
  idInterrupt : Bool
  exException : Bool
  memException : Bool
  wbTrap : Bool
  controlRedirect : Redirect
  mtvec : Word
deriving DecidableEq, Repr

/-- The outputs of `pipeline_ctrl` and the next value of `trap_drain_q`. -/
structure Out where
  pcEnable : Bool := true
  ifIdEnable : Bool := true
  idExEnable : Bool := true
  exMemEnable : Bool := true
  memWbEnable : Bool := true
  ifIdFlush : Bool := false
  idExFlush : Bool := false
  exMemFlush : Bool := false
  memWbFlush : Bool := false
  redirectValid : Bool := false
  redirectPc : Word := 0#32
  trapDrainD : Bool
deriving DecidableEq, Repr

/-- `id_hazard`. -/
def idHazard (i : In) : Bool := i.loadUse || i.csrDep

/-- The selected action; source order defines the age priority. -/
def action (trapDrainQ : Bool) (i : In) : PipelineAction :=
  if i.rst then .reset
  else if i.wbTrap then .wbTrap
  else if i.memException then .memException
  else if i.memWait then .memWait
  else if i.exException then .exException
  else if i.exWait then .exWait
  else if trapDrainQ then .trapDrain
  else if i.controlRedirect.valid then .exRedirect
  else if i.irqStateWait then .irqStateWait
  else if i.idException then .idException
  else if i.idInterrupt then .idInterrupt
  else if idHazard i then .idHazard
  else .advance

/-- The enables, flushes and redirect of an action. -/
def table (trapDrainQ : Bool) (controlTarget mtvec : Word) : PipelineAction → Out
  | .reset =>
    { pcEnable := false, ifIdEnable := false, idExEnable := false, exMemEnable := false
      memWbEnable := false, ifIdFlush := true, idExFlush := true, exMemFlush := true
      memWbFlush := true, trapDrainD := false }
  | .wbTrap =>
    { ifIdFlush := true, idExFlush := true, exMemFlush := true, memWbFlush := true
      redirectValid := true, redirectPc := Word.align mtvec, trapDrainD := false }
  | .memException =>
    { pcEnable := false, ifIdFlush := true, idExFlush := true, exMemFlush := true
      trapDrainD := true }
  | .memWait =>
    { pcEnable := false, ifIdEnable := false, idExEnable := false, exMemEnable := false
      memWbFlush := true, trapDrainD := trapDrainQ }
  | .exException =>
    { pcEnable := false, ifIdFlush := true, idExFlush := true, trapDrainD := true }
  | .exWait =>
    { pcEnable := false, ifIdEnable := false, idExEnable := false, exMemFlush := true
      trapDrainD := trapDrainQ }
  | .trapDrain => { pcEnable := false, ifIdEnable := false, trapDrainD := trapDrainQ }
  | .exRedirect =>
    { redirectValid := true, redirectPc := controlTarget, ifIdFlush := true, idExFlush := true
      trapDrainD := trapDrainQ }
  | .idException | .idInterrupt => { pcEnable := false, ifIdFlush := true, trapDrainD := true }
  | .irqStateWait | .idHazard =>
    { pcEnable := false, ifIdEnable := false, idExFlush := true, trapDrainD := trapDrainQ }
  | .advance => { trapDrainD := trapDrainQ }

/-- The outputs of `pipeline_ctrl`. -/
def out (trapDrainQ : Bool) (i : In) : Out :=
  table trapDrainQ i.controlRedirect.target i.mtvec (action trapDrainQ i)

/-- `Selected d i a`: the conditions under which action `a` is selected, its own and those of
higher priority that must be absent. -/
inductive Selected (d : Bool) (i : In) : PipelineAction → Prop
  | reset : i.rst = true → Selected d i .reset
  | wbTrap : i.rst = false → i.wbTrap = true → Selected d i .wbTrap
  | memException : i.rst = false → i.wbTrap = false → i.memException = true →
      Selected d i .memException
  | memWait : i.rst = false → i.wbTrap = false → i.memException = false → i.memWait = true →
      Selected d i .memWait
  | exException : i.rst = false → i.wbTrap = false → i.memException = false →
      i.memWait = false → i.exException = true → Selected d i .exException
  | exWait : i.rst = false → i.wbTrap = false → i.memException = false → i.memWait = false →
      i.exException = false → i.exWait = true → Selected d i .exWait
  | younger {a : PipelineAction} : i.rst = false → i.wbTrap = false → i.memException = false →
      i.memWait = false → i.exException = false → i.exWait = false →
      (a = .trapDrain ∧ d = true ∨ a = .exRedirect ∧ d = false ∧ i.controlRedirect.valid = true ∨
        d = false ∧ i.controlRedirect.valid = false ∧
          (a = .irqStateWait ∧ i.irqStateWait = true ∨ i.irqStateWait = false ∧
            (a = .idException ∧ i.idException = true ∨ i.idException = false ∧
              (a = .idInterrupt ∧ i.idInterrupt = true ∨ i.idInterrupt = false ∧
                (a = .idHazard ∧ idHazard i = true ∨ a = .advance ∧ idHazard i = false))))) →
      Selected d i a

/-- Every action is taken under its conditions. -/
theorem selected_action (d : Bool) (i : In) : Selected d i (action d i) := by
  fun_cases action d i <;> try simp only [Bool.not_eq_true] at *
  case case1 => exact .reset ‹_›
  case case2 => exact .wbTrap ‹_› ‹_›
  case case3 => exact .memException ‹_› ‹_› ‹_›
  case case4 => exact .memWait ‹_› ‹_› ‹_› ‹_›
  case case5 => exact .exException ‹_› ‹_› ‹_› ‹_› ‹_›
  case case6 => exact .exWait ‹_› ‹_› ‹_› ‹_› ‹_› ‹_›
  all_goals exact .younger ‹_› ‹_› ‹_› ‹_› ‹_› ‹_› (by simp [*])

end PipelineCtrl

end Rv32im

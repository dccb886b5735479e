import Rv32im.Rtl.Perf
import Rv32im.Core.MulDiv
import Rv32im.Core.Interrupts
import Rv32im.Ports.Fetch

/-!
# Stall, redirect and squash counters

The performance counters beside the action of the pipeline controller and the trace. The stall
counters repeat the controller's priority chain and agree with it except in one place; the squash
counter samples the packet that the fetch unit offers, which the redirect has already killed.

* `Measured.circuit`: the core with its counters;
* `Core.stall`: the counter that the selected action belongs to;
* `Core.MissedCsrStall`, `Core.fetchDiscard`: what the counters leave out;
* `Measured.stalls_of_action`, `Measured.squashes_of_redirect`: when they count exactly.
-/

namespace Rv32im

open Clocked

/-- The categories of stall cycles. -/
inductive StallKind
  | loadUse | csr | mdu | mem
deriving DecidableEq, Repr

/-- The category an action of the controller belongs to. -/
def PipelineAction.stall (loadUse : Bool) : PipelineAction → Option StallKind
  | .memWait => some .mem
  | .exWait => some .mdu
  | .irqStateWait => some .csr
  | .idHazard => if loadUse then some .loadUse else some .csr
  | _ => none

/-- A fetched packet never carries an interrupt. -/
def IfId.Clean (f : IfId) : Prop := f.exc.isInterrupt = false

/-- A taken control transfer that does not trap. -/
def ExMem.takes (x : ExMem) : Bool := x.valid && !x.exc.valid && x.controlTaken

@[inherit_doc ExMem.takes]
def MemWb.takes (w : MemWb) : Bool := w.retire && w.controlTaken

/-- A memory operation takes no control transfer. -/
theorem ExMem.Executed.controlTaken {F : IfId → Prop} {x : ExMem} (h : x.Executed F)
    (hm : x.isMemory = true) : x.controlTaken = false := by
  obtain ⟨d, rs1, rs2, rdata, mepc, illegal, mdu, hd, -, -, rfl⟩ := h
  have he := ExMem.exc_of_isMemory hm
  have hcmd : d.ctrl.memCmd ≠ .none := by
    intro hnone
    simp [ExMem.isMemory, ExStage.packet, hnone] at hm
  obtain ⟨-, -, hmret, hbranch⟩ := hd.legal.mem hcmd
  simp [ExStage.packet, ExStage.controlTaken, hmret, hbranch, branchUnit, branchTaken]

namespace Core

variable {P : CoreParams} {F : IfId → Prop} {c : Core} {i : CoreIn}

/-- The category of the action selected in this cycle. -/
def stall (c : Core) (i : CoreIn) : Option StallKind :=
  (c.action i).stall (HazardUnit.loadUse (c.idExD i) c.idExQ)

/-- The controller waits for an interrupt-state writer while the packet in ID has an exception. -/
structure MissedCsrStall (c : Core) (i : CoreIn) : Prop extends Fires c i where
  drain : c.trapDrainQ = false
  redirect : (c.controlRedirect i).valid = false
  irqWait : c.irqStateWait = true
  exc : c.idException i = true

/-- Whether a cycle meets the defect can be computed. -/
instance (c : Core) (i : CoreIn) : Decidable (MissedCsrStall c i) :=
  decidable_of_iff ((i.rst = false ∧ c.memWbQ.trap = false ∧ c.memException i = false ∧
      c.memWait i = false) ∧ ExStage.wait (c.exIn i) = false ∧ c.exException i = false ∧
      c.trapDrainQ = false ∧ (c.controlRedirect i).valid = false ∧ c.irqStateWait = true ∧
      c.idException i = true)
    ⟨fun ⟨⟨h₁, h₂, h₃, h₄⟩, h₅, h₆, h₇, h₈, h₉, h₁₀⟩ =>
        ⟨⟨⟨h₁, h₂, h₃, h₄⟩, h₅, h₆⟩, h₇, h₈, h₉, h₁₀⟩,
      fun h => ⟨⟨h.rst, h.trap, h.memException, h.memWait⟩, h.exWait, h.exException, h.drain,
        h.redirect, h.irqWait, h.exc⟩⟩

/-! ### Fetched packets -/

/-- Neither the packets in flight nor the one held by the fetch unit carry an interrupt. -/
structure FetchClean (c : Core) : Prop where
  packets : Packets IfId.Clean c
  held : c.ifStage.packetExcQ.isInterrupt = false

private theorem isInterrupt_responseExc (q : IfStage) (j : IfStage.In) :
    (q.responseExc j).isInterrupt = false := by
  unfold IfStage.responseExc
  split <;> rfl

/-- The packet offered to IF/ID is the held one or a new one. -/
private theorem FetchClean.ifIdD (h : FetchClean c) : (c.ifIdD i).Clean := by
  unfold Core.ifIdD IfStage.fetchPacket IfId.Clean
  split_ifs
  · exact h.held
  · exact isInterrupt_responseExc _ _
  · rfl

/-- Every cycle keeps them so. -/
private theorem FetchClean.next (h : FetchClean c) : FetchClean (Core.next P c i) := by
  refine ⟨h.packets.next fun _ _ _ => h.ifIdD, ?_⟩
  change (c.ifStage.next (c.ifIn i) P.resetVector).packetExcQ.isInterrupt = false
  cases hrst : i.rst with
  | true =>
    have hrst' : (c.ifIn i).rst = true := hrst
    rw [IfStage.next, if_pos hrst', IfStage.reset]
    split <;> rfl
  | false =>
    have hp : IfStage.Packet c.ifStage (c.ifIn i) (c.ifStage.next (c.ifIn i) P.resetVector) :=
      IfStage.next_packet hrst
    cases hl : c.ifStage.responseLive (c.ifIn i) && !c.ifStage.responseConsumed (c.ifIn i) with
    | true =>
      simp only [Bool.and_eq_true, Bool.not_eq_true'] at hl
      rw [(hp.captured hl.1 hl.2).2.2.2]
      exact isInterrupt_responseExc _ _
    | false =>
      rw [(hp.kept hl).2.2.2]
      exact h.held

/-- It is so in every reachable state. -/
theorem Reachable.fetchClean (h : Reachable P c) : FetchClean c := by
  refine h.holds (fun c i hrst => ⟨.of_empty (edge_reset P c hrst), ?_⟩) fun _ _ _ h => h.next
  have hrst' : (c.ifIn i).rst = true := hrst
  change (c.ifStage.next (c.ifIn i) P.resetVector).packetExcQ.isInterrupt = false
  rw [IfStage.next, if_pos hrst', IfStage.reset]
  split <;> rfl

/-- The controller waits for an interrupt-state writer only without an interrupt in ID. -/
private theorem FetchClean.idInterrupt (h : FetchClean c) (hw : c.irqStateWait = true) :
    c.idInterrupt i = false := by
  have hd : c.idExD i = c.idExDecoded := if_neg (by simp [idInterruptCandidate, hw])
  rw [Core.idInterrupt, hd]
  cases hv : c.ifIdQ.valid with
  | false => simp [hv]
  | true =>
    rw [idExDecoded, idStage, IdStage.packet_exc hv, isInterrupt_exc (h.packets.ifId hv)]
    simp

/-! ### Stalls -/

/-- Waiting for a unit means that an instruction of the extension is in ID/EX. -/
private theorem mduOp_of_exWait (hready : Ready c i) (hwait : (c.ctrlIn i).exWait = true) :
    (c.idExQ.ctrl.mduOp != .none) = true := by
  obtain ⟨-, hmdu, -⟩ := isMdu_of_wait hready hwait
  by_contra hne
  have hnone : c.idExQ.ctrl.mduOp = .none := by simpa using hne
  simp [ExStage.isMdu, ExStage.isMul, ExStage.isDiv, hnone] at hmdu

/-- The counted stalls against the selected action: the controller's chain, one case per action. -/
private theorem effective_eq (hclean : FetchClean c) (hrst : i.rst = false) :
    c.effectiveMemStall i = (c.stall i == some .mem) ∧
      c.effectiveMduStall i = (c.stall i == some .mdu) ∧
      c.effectiveLoadUseStall i = (c.stall i == some .loadUse) ∧
      c.effectiveCsrStall i =
        (c.stall i == some .csr && !(c.irqStateWait && c.idException i)) := by
  have hsel := PipelineCtrl.selected_action c.trapDrainQ (c.ctrlIn i)
  have hlu : (c.ctrlIn i).loadUse = HazardUnit.loadUse (c.idExD i) c.idExQ := rfl
  unfold stall action effectiveMemStall effectiveMduStall effectiveLoadUseStall effectiveCsrStall
    idStallVisible
  generalize PipelineCtrl.action c.trapDrainQ (c.ctrlIn i) = a at hsel
  -- the controller selects by age, the counters by the conditions of rv32_core
  cases hsel with
  | reset hrst' =>
    have hrst' : i.rst = true := hrst'
    simp [hrst] at hrst'
  | wbTrap _ htrap =>
    have htrap : c.memWbQ.trap = true := htrap
    simp [PipelineAction.stall, htrap]
  | memException _ htrap hexc =>
    have hexc : c.memException i = true := hexc
    simp [PipelineAction.stall, hexc]
  | memWait _ htrap hexc hwait =>
    have htrap : c.memWbQ.trap = false := htrap
    have hexc : c.memException i = false := hexc
    have hwait : c.memWait i = true := hwait
    simp [PipelineAction.stall, htrap, hexc, hwait]
  | exException _ htrap hmexc hmwait hexc =>
    have hmwait : c.memWait i = false := hmwait
    have hexc : c.exException i = true := hexc
    simp [PipelineAction.stall, hmwait, hexc]
  | exWait _ htrap hmexc hmwait hexc hwait =>
    have htrap : c.memWbQ.trap = false := htrap
    have hmexc : c.memException i = false := hmexc
    have hmwait : c.memWait i = false := hmwait
    have hexc : c.exException i = false := hexc
    have hmdu := mduOp_of_exWait ⟨hrst, htrap, hmexc, hmwait⟩ hwait
    simp [PipelineAction.stall, htrap, hmexc, hmwait, hexc, hwait, hmdu]
  | younger _ htrap hmexc hmwait hexc hwait hyounger =>
    have htrap : c.memWbQ.trap = false := htrap
    have hmexc : c.memException i = false := hmexc
    have hmwait : c.memWait i = false := hmwait
    have hexc : c.exException i = false := hexc
    simp only [htrap, hmexc, hmwait, hexc, hwait, Bool.not_false, Bool.and_true, Bool.true_and,
      Bool.false_and, hlu]
    obtain ⟨rfl, hd⟩ | ⟨rfl, hd, hred⟩ | ⟨hd, hred, hid⟩ := hyounger
    · simp [PipelineAction.stall, hd]
    · have hred : (c.controlRedirect i).valid = true := hred
      simp [PipelineAction.stall, hred]
    have hred : (c.controlRedirect i).valid = false := hred
    -- nothing older is in the way, so the packet in ID decides
    simp only [hd, hred, Bool.not_false, Bool.and_true, Bool.true_and]
    obtain ⟨rfl, hirq⟩ | ⟨hirq, ⟨rfl, he⟩ | ⟨he, ⟨rfl, ht⟩ | ⟨ht, ⟨rfl, hz⟩ | ⟨rfl, hz⟩⟩⟩⟩ := hid
    · have hirq : c.irqStateWait = true := hirq
      simp [PipelineAction.stall, hirq, hclean.idInterrupt hirq]
    · have he : c.idException i = true := he
      simp [PipelineAction.stall, he]
    · have ht : c.idInterrupt i = true := ht
      simp [PipelineAction.stall, ht]
    · have hirq : c.irqStateWait = false := hirq
      have he : c.idException i = false := he
      have ht : c.idInterrupt i = false := ht
      rw [PipelineCtrl.idHazard, hlu] at hz
      -- the two hazards of ID are told apart as the counters do
      cases hl : HazardUnit.loadUse (c.idExD i) c.idExQ <;>
        simp_all [PipelineAction.stall]
    · have hirq : c.irqStateWait = false := hirq
      obtain ⟨hl, hcsr⟩ := Bool.or_eq_false_iff.mp hz
      rw [hlu] at hl
      simp [PipelineAction.stall, hirq, hl, hcsr]

/-- The missed cycles are those of the action with an exception in ID. -/
private theorem missedCsrStall_iff (hrst : i.rst = false) : MissedCsrStall c i ↔
    (c.stall i == some .csr) = true ∧ c.irqStateWait = true ∧ c.idException i = true := by
  constructor
  · intro h
    have hact : c.action i = .irqStateWait := by
      have hwait : (c.ctrlIn i).exWait = false := h.exWait
      have hred : (c.ctrlIn i).controlRedirect.valid = false := h.redirect
      simp [action, PipelineCtrl.action, show (c.ctrlIn i).rst = false from hrst,
        show (c.ctrlIn i).wbTrap = false from h.trap,
        show (c.ctrlIn i).memException = false from h.memException,
        show (c.ctrlIn i).memWait = false from h.memWait,
        show (c.ctrlIn i).exException = false from h.exException, hwait, h.drain, hred,
        show (c.ctrlIn i).irqStateWait = true from h.irqWait]
    exact ⟨by rw [stall, hact]; rfl, h.irqWait, h.exc⟩
  · rintro ⟨hs, hirq, he⟩
    have hsel := PipelineCtrl.selected_action c.trapDrainQ (c.ctrlIn i)
    unfold stall action at hs
    generalize PipelineCtrl.action c.trapDrainQ (c.ctrlIn i) = a at hsel hs
    cases hsel with
    | younger _ htrap hmexc hmwait hexc hwait hyounger =>
      obtain ⟨rfl, hd⟩ | ⟨rfl, hd, hred⟩ | ⟨hd, hred, -⟩ := hyounger
      · simp [PipelineAction.stall] at hs
      · simp [PipelineAction.stall] at hs
      · exact ⟨⟨⟨hrst, htrap, hmexc, hmwait⟩, hwait, hexc⟩, hd, hred, hirq, he⟩
    | _ => simp [PipelineAction.stall] at hs

/-! ### Redirects -/

/-- MEM hands a transfer over unchanged. -/
private theorem takes_memWbD (hp : Packets F c) (hwait : c.memWait i = false) :
    (c.memWbD i).takes = c.exMemQ.takes := by
  cases hv : c.exMemQ.valid with
  | false =>
    have hd : c.memWbD i = {} := if_neg (by simp [hv])
    simp [hd, MemWb.takes, MemWb.retire, ExMem.takes, hv]
  | true =>
    cases hm : c.exMemQ.isMemory with
    | true =>
      -- no transfer, whether the access faults or not
      have ht := (hp.exMem hv).controlTaken hm
      have hr : c.lsuRspValid i = true := by simpa [memWait, hm] using hwait
      have hd : c.memWbD i = c.exMemQ.accessPacket (c.lsu.loadData (c.lsuIn i))
          (c.lsu.exception (c.lsuIn i)) (c.lsu.traceWstrb (c.lsuIn i))
          (c.lsu.traceWdata (c.lsuIn i)) := by
        rw [memWbD, if_pos hv, if_pos hm, if_pos hr]
      simp [hd, MemWb.takes, ExMem.accessPacket, ExMem.takes, ht]
    | false =>
      rw [memWbD_of_not_isMemory hm, if_pos hv]
      simp [MemWb.takes, MemWb.retire, ExMem.localPacket, ExMem.takes, hv]

/-- EX/MEM receives a taken transfer exactly when EX redirects. -/
private theorem Fires.takes_exMemD (hf : Fires c i) :
    (c.exMemD i).takes = (c.controlRedirect i).valid := by
  cases hv : c.idExQ.valid with
  | false =>
    have hred : (c.controlRedirect i).valid = false :=
      controlRedirect_of_not_valid fun h => by simp [hv] at h
    rw [hf.exMemD, hv, hred]
    rfl
  | true =>
    have hx : c.exMemD i = c.exPacket i := by rw [hf.exMemD, if_pos hv]
    cases hred : (c.controlRedirect i).valid with
    | true =>
      obtain ⟨-, -, htaken, hexc, -⟩ := of_controlRedirect hred
      rw [hx, ExMem.takes, htaken, hexc]
      rfl
    | false =>
      cases hexc : (c.exPacket i).exc.valid with
      | true => simp [hx, ExMem.takes, hexc]
      | false => simp [hx, ExMem.takes, hf.controlTaken hred hv hexc]

/-- Older events and a wait leave no redirect. -/
private theorem controlRedirect_of_not_exFire (h : c.exFire i = false) :
    (c.controlRedirect i).valid = false := by
  rw [controlRedirect_eq, h]
  rfl

/-- The transfers in EX/MEM and MEM/WB after a cycle: the one that was in EX/MEM and the one that
EX redirected for. -/
private theorem takes_next (hp : Packets F c) (ht : TrapDrain c) (hrst : i.rst = false) :
    (next P c i).exMemQ.takes.toNat + (next P c i).memWbQ.takes.toNat =
      c.exMemQ.takes.toNat + (c.controlRedirect i).valid.toNat := by
  -- while EX is held there is no redirect
  have hnotReady (h : c.exResultReady i = false) : (c.controlRedirect i).valid = false :=
    controlRedirect_of_not_exFire (by rw [exFire_eq, h, Bool.and_false])
  -- where EX fires, a redirect is that of the packet it hands over
  have hmove (hf : Fires c i) (hx : (next P c i).exMemQ = c.exMemD i)
      (hw : (next P c i).memWbQ = c.memWbD i) :
      (next P c i).exMemQ.takes.toNat + (next P c i).memWbQ.takes.toNat =
        c.exMemQ.takes.toNat + (c.controlRedirect i).valid.toNat := by
    rw [hx, hw, hf.takes_exMemD, takes_memWbD hp hf.memWait, Nat.add_comm]
  cases next_cases P c i with
  | reset rst edge => simp [hrst] at rst
  | wbTrap rst trap edge =>
    have hv := (ht.memWb trap).2.2.1
    rw [edge.exMem, edge.memWb, hnotReady (by simp [exResultReady, trap])]
    simp [ExMem.takes, MemWb.takes, MemWb.retire, hv]
  | memException rst trap exc edge =>
    have hm := (memException_iff.mp exc).1
    -- the faulting access takes nothing, and the younger packet is squashed
    have hw : (c.memWbD i).takes = false := by
      have htrap : (c.memWbD i).trap = true := by rw [memWbD_trap, exc, Bool.or_true]
      simp only [MemWb.trap, Bool.and_eq_true] at htrap
      simp [MemWb.takes, MemWb.retire, htrap.2]
    have hx : c.exMemQ.takes = false := by
      simp [ExMem.takes, (hp.exMem (ExMem.valid_of_isMemory hm)).controlTaken hm]
    rw [edge.exMem, edge.memWb, hw, hx, hnotReady (by simp [exResultReady, exc])]
    rfl
  | memWait rst trap wait edge =>
    rw [edge.exMem, edge.memWb, hnotReady (by simp [exResultReady, wait])]
    rfl
  | exException ready exc edge =>
    obtain ⟨hr, he, -, -⟩ := exException_iff.mp exc
    have hx : (c.exMemD i).takes = false := by
      rw [exMemD_eq, if_pos hr]
      simp [ExMem.takes, he]
    -- an exception in EX is not a redirect
    have hred : (c.controlRedirect i).valid = false := by
      by_contra hne
      obtain ⟨-, -, -, hexc, -⟩ := of_controlRedirect (Bool.not_eq_false _ ▸ hne)
      simp [he] at hexc
    rw [edge.exMem, edge.memWb, hx, hred, takes_memWbD hp ready.memWait, Nat.add_comm]
  | exWait ready wait edge =>
    have hfire : c.exFire i = false := by
      simp only [ExStage.wait, Bool.and_eq_true, Bool.not_eq_true'] at wait
      exact wait.2
    rw [edge.exMem, edge.memWb, controlRedirect_of_not_exFire hfire, takes_memWbD hp ready.memWait,
      Nat.add_comm]
    rfl
  | trapDrain fires drain edge => exact hmove fires edge.exMem edge.memWb
  | exRedirect fires drain redirect edge => exact hmove fires edge.exMem edge.memWb
  | stall fires drain redirect stall edge => exact hmove fires edge.exMem edge.memWb
  | idTrap fires drain redirect irqWait exc edge => exact hmove fires edge.exMem edge.memWb
  | advance fires drain redirect irqWait exc loadUse csrDep edge =>
    exact hmove fires edge.exMem edge.memWb

/-! ### Squashes -/

/-- The fetch unit holds a packet, or receives a response that is not stale yet, when a redirect
kills what it has. -/
def fetchDiscard (c : Core) (i : CoreIn) : Bool :=
  c.ifStage.packetValidQ ||
    (c.ifStage.stateQ == .busy && c.ifStage.responseSeen (c.ifIn i) && !c.ifStage.discardQ)

/-- A redirect is a kill of the fetch unit in its own cycle. -/
private theorem fetchValid_of_redirect (ht : TrapDrain c)
    (hred : (c.controlRedirect i).valid = true) : c.ifStage.fetchValid (c.ifIn i) = false := by
  obtain ⟨hfire, -, -, hexc, -⟩ := of_controlRedirect hred
  have hready := (ready_of_exFire hfire).1
  have hkill (k : Word) (h : c.ifIn i = FetchCmd.drive i.imem (.redirect k)) :
      c.ifStage.fetchValid (c.ifIn i) = false := by
    rw [h]
    simp [IfStage.fetchValid, FetchCmd.drive, IfStage.killEvent]
  cases next_cases {} c i with
  | reset rst edge => simp [hready.rst] at rst
  | wbTrap rst trap edge => simp [hready.trap] at trap
  | memException rst trap exc edge => simp [hready.memException] at exc
  | memWait rst trap wait edge => simp [hready.memWait] at wait
  | exException ready exc edge => simp [(exException_iff.mp exc).2.1] at hexc
  | exWait ready wait edge =>
    have hfire' : ExStage.exFire (c.exIn i) = true := hfire
    simp [ExStage.wait, hfire'] at wait
  | trapDrain fires drain edge =>
    -- the drain needs a trap packet, which leaves no instruction in ID/EX to redirect
    have hv := (ready_of_exFire hfire).2
    have hdrain := ht.drain
    have hid : c.idExQ.trap = false := by
      by_contra htrap
      simp only [IdEx.trap, hv, Bool.true_and, Bool.not_eq_false] at htrap
      simp [exPacket, ExStage.exc_of_exc htrap, htrap] at hexc
    rw [drain, hid, ht.exMem_clean hv, hready.trap] at hdrain
    simp at hdrain
  | exRedirect fires drain redirect edge => exact hkill _ edge.fetch
  | stall fires drain redirect stall edge => simp [hred] at redirect
  | idTrap fires drain redirect irqWait exc edge => simp [hred] at redirect
  | advance fires drain redirect irqWait exc loadUse csrDep edge => simp [hred] at redirect

end Core

/-- The counter of a category. -/
def Perf.stalls (f : Perf) : StallKind → BitVec 64
  | .loadUse => f.loadUseStall
  | .csr => f.csrStall
  | .mdu => f.mduStall
  | .mem => f.memStall

/-- The core with its performance counters. -/
structure Measured where
  core : Core
  perf : Perf := {}

namespace Measured

variable (P : CoreParams)

/-- The core and its counters in any environment. -/
def circuit : Circuit Measured CoreIn where
  legal _ _ := True
  next m i := { core := m.core.next P i, perf := m.core.perfNext i m.perf }

/-- After a reset edge the counters are zero. -/
structure Started (m : Measured) : Prop where
  core : m.core.AfterReset P
  perf : m.perf = {}

/-- Each stall counter counts this cycle exactly if the selected action is its own. -/
def StallsExact (m : Measured) (i : CoreIn) : Prop :=
  ∀ k, (m.core.perfNext i m.perf).stalls k =
    Core.count (m.perf.stalls k) (m.core.stall i == some k)

/-- The squash counter grows by the packets that the redirect of this cycle discards. -/
def SquashesExact (m : Measured) (i : CoreIn) : Prop :=
  (m.core.perfNext i m.perf).squash = m.perf.squash + (BitVec.ofBool m.core.ifIdQ.valid).setWidth 64
    + (BitVec.ofBool (m.core.fetchDiscard i)).setWidth 64

/-- The transfers that have been taken in EX and are still on their way to the trace port. -/
def takenInFlight (m : Measured) : ℕ := m.core.exMemQ.takes.toNat + m.core.memWbQ.takes.toNat

variable {P} {m₀ m : Measured} {is : List CoreIn} {i : CoreIn}

/-- The core after a reset with its counters is in a start state. -/
theorem started_boot : Started P { core := Core.boot P } := ⟨⟨_, _, rfl, rfl⟩, rfl⟩

/-- The core of a run is reachable. -/
private theorem reachable_core (h₀ : Started P m₀) (hr : (circuit P).Run m₀ is m) :
    m.core.Reachable P :=
  hr.invariant (I := fun m => m.core.Reachable P) (.start h₀.core)
    fun _ i h _ => h.step (i := i) trivial

private theorem count_inj {x : BitVec 64} {a b : Bool} :
    Core.count x a = Core.count x b ↔ a = b := by
  have hne : x + 1#64 ≠ x := by simp
  cases a <;> cases b <;> simp [Core.count, hne, hne.symm]

/-- A counter in natural numbers. -/
private theorem count_ofNat (n : ℕ) (b : Bool) :
    Core.count (BitVec.ofNat 64 n) b = BitVec.ofNat 64 (n + b.toNat) := by
  cases b with
  | false => rfl
  | true => exact (BitVec.ofNat_add n 1).symm

/-- The stall counters after a cycle without reset. -/
private theorem stalls_perfNext (h : m.core.FetchClean) (hrst : i.rst = false) (k : StallKind) :
    (m.core.perfNext i m.perf).stalls k = Core.count (m.perf.stalls k)
      (m.core.stall i == some k &&
        !(k == .csr && m.core.irqStateWait && m.core.idException i)) := by
  obtain ⟨hmem, hmdu, hlu, hcsr⟩ := Core.effective_eq h hrst
  simp only [Core.perfNext, hrst, Bool.false_eq_true, if_false]
  cases k with
  | loadUse => simp [Perf.stalls, hlu, show (StallKind.loadUse == .csr) = false from rfl]
  | csr => simp [Perf.stalls, hcsr]
  | mdu => simp [Perf.stalls, hmdu, show (StallKind.mdu == .csr) = false from rfl]
  | mem => simp [Perf.stalls, hmem, show (StallKind.mem == .csr) = false from rfl]

/-- The counters agree with the controller but for the missed stall. -/
private theorem stallsExact_iff (h : m.core.FetchClean) (hrst : i.rst = false) :
    StallsExact m i ↔ ¬ m.core.MissedCsrStall i := by
  rw [Core.missedCsrStall_iff hrst, StallsExact]
  simp only [stalls_perfNext h hrst, count_inj]
  constructor
  · rintro hex ⟨hs, hirq, he⟩
    simpa [hs, hirq, he] using hex .csr
  · intro hmiss k
    cases hs : m.core.stall i == some k with
    | false => rfl
    | true =>
      -- a selected category is dropped only if it is the missed one
      by_contra hne
      simp only [Bool.true_and, Bool.not_eq_true', Bool.not_eq_false, Bool.and_eq_true,
        beq_iff_eq] at hne
      obtain ⟨⟨rfl, hirq⟩, he⟩ := hne
      exact hmiss ⟨hs, hirq, he⟩

/-- In every reachable state each stall counter counts exactly the cycles in which the selected
action is its own, except that the CSR counter leaves out a cycle of `ACTION_IRQ_STATE_WAIT` with an
exception in ID. No cycle moves two of them, and over a run without such cycles they are the numbers
of the actions. -/
theorem stalls_of_action (h₀ : Started P m₀) (hr : (circuit P).Run m₀ is m) :
    (∀ i, i.rst = false → (StallsExact m i ↔ ¬ m.core.MissedCsrStall i)) ∧
      (∀ i, i.rst = false → ∀ k k', (m.core.perfNext i m.perf).stalls k ≠ m.perf.stalls k →
        (m.core.perfNext i m.perf).stalls k' ≠ m.perf.stalls k' → k = k') ∧
      ((circuit P).Always (fun m i => i.rst = false ∧ ¬ m.core.MissedCsrStall i) m₀ is → ∀ k,
        m.perf.stalls k = BitVec.ofNat 64
          (((circuit P).trace (fun m i => m.core.stall i) m₀ is).count k)) := by
  have hclean := (reachable_core h₀ hr).fetchClean
  refine ⟨fun i hrst => stallsExact_iff hclean hrst, fun i hrst k k' hk hk' => ?_, fun hall k => ?_⟩
  · -- a counter that moves is the one of the selected action
    have hsel {k : StallKind} (hk : (m.core.perfNext i m.perf).stalls k ≠ m.perf.stalls k) :
        m.core.stall i = some k := by
      by_contra hne
      rw [stalls_perfNext hclean hrst, beq_eq_false_iff_ne.mpr hne] at hk
      exact hk rfl
    simpa [hsel hk] using hsel hk'
  · induction hr with
    | nil =>
      rw [h₀.perf]
      cases k <;> rfl
    | @snoc is m i hr hl ih =>
      rw [Circuit.always_append, ← hr.eq_exec] at hall
      obtain ⟨hrst, hmiss⟩ := hall.2.1
      have hex := (stallsExact_iff (reachable_core h₀ hr).fetchClean hrst).mpr hmiss k
      change (m.core.perfNext i m.perf).stalls k = _
      rw [hex, ih (reachable_core h₀ hr).fetchClean hall.1, count_ofNat, hr.trace_snoc,
        List.count_append]
      congr 2
      cases hs : m.core.stall i with
      | none => rfl
      | some k' => by_cases hk : k' = k <;> simp [hk]

/-- A write to `mscratch` and a read of it: two cycles of `ACTION_ID_HAZARD` without a load. -/
theorem stalls_of_action_csr :
    let is := [Core.fetches 0x34029073#32, Core.fetches 0x34002373#32, {}, {}, {}]
    let m := (circuit {}).exec { core := Core.boot {} } is
    m.perf.csrStall = 2#64 ∧ m.perf.stalls .csr = BitVec.ofNat 64
      (((circuit {}).trace (fun m i => m.core.stall i) { core := Core.boot {} } is).count .csr) :=
  ⟨by decide +kernel,
    (stalls_of_action started_boot (.of_always (by simp [Circuit.Always, circuit]))).2.2
      (by decide +kernel) .csr⟩

/-- `csrw mstatus, x0` in ID/EX and `ecall` in IF/ID: the controller selects
`ACTION_IRQ_STATE_WAIT`. -/
theorem not_stallsExact : ¬ ∀ (P : CoreParams) (m₀ m : Measured) (is : List CoreIn) (i : CoreIn),
    Started P m₀ → (circuit P).Run m₀ is m → i.rst = false → StallsExact m i := by
  intro h
  have hex := h {} { core := Core.boot {} } _
    [Core.fetches 0x30001073#32, Core.fetches 0x00000073#32] {} started_boot
    (.of_always (by simp [Circuit.Always, circuit])) rfl .csr
  revert hex
  decide +kernel

/-- In every reachable state a redirect adds exactly the packets it discards to the squash counter,
unless one of them is in the fetch unit. Over a run without reset the redirect counter is the number
of taken transfers on the trace port and on their way to it. -/
theorem squashes_of_redirect (h₀ : Started P m₀) (hr : (circuit P).Run m₀ is m) :
    (∀ i, (m.core.controlRedirect i).valid = true →
        (SquashesExact m i ↔ m.core.fetchDiscard i = false)) ∧
      ((circuit P).Always (fun _ i => i.rst = false) m₀ is →
        m.perf.redirect = BitVec.ofNat 64
          (((circuit P).trace (fun m _ => m.core.event) m₀ is).countP (·.taken) +
            m.takenInFlight)) := by
  refine ⟨fun i hred => ?_, fun hall => ?_⟩
  · have hrst := (Core.ready_of_exFire (Core.of_controlRedirect hred).1).1.rst
    have hfetch := Core.fetchValid_of_redirect (reachable_core h₀ hr).trapDrain hred
    simp only [SquashesExact, Core.perfNext, hrst, hred, hfetch, Bool.false_eq_true, if_false,
      if_true]
    cases m.core.fetchDiscard i <;> simp
  · induction hr with
    | nil =>
      have hempty : m₀.takenInFlight = 0 := by
        obtain ⟨c, j, hrst, hc⟩ := h₀.core
        have edge := Core.edge_reset P c hrst
        simp [takenInFlight, hc, edge.exMem, edge.memWb, ExMem.takes, MemWb.takes, MemWb.retire]
      rw [h₀.perf, hempty]
      rfl
    | @snoc is m i hr hl ih =>
      rw [Circuit.always_append, ← hr.eq_exec] at hall
      have hc := reachable_core h₀ hr
      have hrst : i.rst = false := hall.2.1
      have hperf : ((circuit P).next m i).perf.redirect =
          Core.count m.perf.redirect (m.core.controlRedirect i).valid := by
        simp [circuit, Core.perfNext, hrst]
      have hflight : ((circuit P).next m i).takenInFlight =
          m.core.exMemQ.takes.toNat + (m.core.controlRedirect i).valid.toNat :=
        Core.takes_next hc.packets hc.trapDrain hrst
      -- the transfer in MEM/WB is on the trace port now
      have hevent : (m.core.event).toList.countP (·.taken) = m.core.memWbQ.takes.toNat := by
        unfold Core.event
        cases hv : m.core.memWbQ.valid with
        | false => simp [MemWb.takes, MemWb.retire, hv]
        | true => cases ht : m.core.memWbQ.takes <;> simp_all [MemWb.takes, MemWb.event]
      rw [hperf, ih hall.1, count_ofNat, hflight, hr.trace_snoc, List.countP_append, hevent,
        takenInFlight]
      congr 1
      omega

/-- `jal x0, 0` answered at once, so that nothing but its successor in IF/ID is discarded. -/
theorem squashes_of_redirect_jal :
    let m := (circuit {}).exec { core := Core.boot {} }
      [Core.fetches 0x0000006f#32, Core.fetches 0x00000013#32]
    (m.core.controlRedirect {}).valid = true ∧ SquashesExact m {} :=
  ⟨by decide +kernel,
    ((squashes_of_redirect started_boot (.of_always (by simp [Circuit.Always, circuit]))).1 {}
      (by decide +kernel)).mpr (by decide +kernel)⟩

/-- `jal x0, 0` from a memory that answers a cycle later: the redirect discards the packet in IF/ID
and the response of its cycle, and counts one of the two. -/
theorem not_squashesExact : ¬ ∀ (P : CoreParams) (m₀ m : Measured) (is : List CoreIn) (i : CoreIn),
    Started P m₀ → (circuit P).Run m₀ is m → (m.core.controlRedirect i).valid = true →
      SquashesExact m i := by
  intro h
  have hex := h {} { core := Core.boot {} } _
    [{ imem := { reqReady := true } }, Core.fetches 0x0000006f#32, Core.fetches 0x00000013#32]
    (Core.fetches 0x00000013#32) started_boot (.of_always (by simp [Circuit.Always, circuit]))
    (by decide +kernel)
  revert hex
  unfold SquashesExact
  decide +kernel

end Measured

end Rv32im

import Rv32im.Core.DataAccess
import Rv32im.Core.CsrOrder
import Rv32im.Ports.Fetch

/-!
# The core between its memories

`rv32_core` with a memory on each port that answers every accepted request exactly once and in
order, in the same cycle or later, across resets. The registers are accompanied by the history
of the ports and by a few observations, on which nothing in the core depends.

* `System`, `System.circuit`: the state and its runs;
* `System.Started`: the state after a reset edge;
* `System.event`: the trace port.
-/

namespace Rv32im

open Clocked

/-- Where the next packet to commit continues: at the trap vector after a trap, at the target
of a transfer it took, else at the next instruction. -/
def MemWb.nextPc (w : MemWb) (mtvec : Word) : Word :=
  if w.trap then Word.align mtvec else if w.controlTaken then w.controlTarget else w.pc + 4#32

/-- What a packet meets on its way that depends on the timing of the cycles. -/
structure Observation where
  /-- `mtip_i` in the cycle in which ID/EX accepted it. -/
  mtipId : Bool := false
  /-- `mtip_i` and `mcycle` in the cycle in which EX/MEM accepted it. -/
  mtipEx : Bool := false
  mcycle : BitVec 64 := 0#64
  /-- That cycle and the one in which the packet commits, counted from the reset. -/
  exCycle : ℕ := 0
  wbCycle : ℕ := 0
deriving DecidableEq, Repr

/-- The core, the histories of its two ports and the observations. -/
structure System where
  core : Core
  imem : Channel MemReq MemRsp := {}
  dmem : Channel MemReq MemRsp := {}
  /-- The address at which the next packet commits. -/
  pc : Word
  /-- `mtip_i` when ID/EX accepted its packet, and the observations of the older packets. -/
  idExMtip : Bool := false
  exMemObs : Observation := {}
  memWbObs : Observation := {}
  /-- The clock cycles since the reset. -/
  clock : ℕ := 0

namespace System

variable (P : CoreParams) (s : System) (i : CoreIn)

/-- The instruction fetch accepted in this cycle. -/
def imemReq : Option MemReq :=
  if s.core.ifStage.requestFire (s.core.ifIn i) then some (s.core.ifStage.req (s.core.ifIn i))
  else none

/-- The data request accepted in this cycle. -/
def dmemReq : Option MemReq :=
  if s.core.lsu.requestFire (s.core.lsuIn i) then some (s.core.lsu.req (s.core.lsuIn i)) else none

/-- The histories after this cycle. -/
def imemAfter : Channel MemReq MemRsp := s.imem.step (s.imemReq i) i.imem.rsp

@[inherit_doc imemAfter]
def dmemAfter : Channel MemReq MemRsp := s.dmem.step (s.dmemReq i) i.dmem.rsp

/-- A cycle of the core and of the observations. -/
def next : System where
  core := s.core.next P i
  imem := s.imemAfter i
  dmem := s.dmemAfter i
  pc :=
    if i.rst then P.resetVector
    else if s.core.memWbQ.valid then s.core.memWbQ.nextPc s.core.csrFile.mtvecQ
    else s.pc
  idExMtip := if (s.core.ctrl i).idExEnable then i.mtip else s.idExMtip
  exMemObs :=
    if s.core.exFire i then
      { mtipId := s.idExMtip, mtipEx := i.mtip, mcycle := s.core.csrFile.mcycleQ,
        exCycle := s.clock }
    else s.exMemObs
  memWbObs := s.exMemObs
  clock := if i.rst then 0 else s.clock + 1

/-- Any ready patterns and response delays, any answers, any `mtip_i` and resets at any time,
as long as only accepted requests are answered. -/
def circuit : Circuit System CoreIn where
  legal s i := s.imem.Ok (s.imemReq i) i.imem.rsp ∧ s.dmem.Ok (s.dmemReq i) i.dmem.rsp
  next s i := s.next P i

/-- Whether a cycle is legal can be computed. -/
instance (P : CoreParams) (s : System) (i : CoreIn) : Decidable ((circuit P).legal s i) :=
  inferInstanceAs (Decidable (_ ∧ _))

/-- The state after a reset edge, in which each unit awaits just the response its port owes. -/
structure Started (P : CoreParams) (s : System) : Prop where
  core : s.core.AfterReset P
  imem : s.core.ifStage.Port s.imem fun _ => True
  dmem : s.core.lsu.Port s.dmem fun _ => True
  pc : s.pc = P.resetVector
  clock : s.clock = 0

/-- The states of the runs from a reset. -/
abbrev Reachable (s : System) : Prop := (circuit P).Reachable (Started P) s

/-- The trace port. -/
def event (_ : CoreIn) : Option TraceEvent := s.core.event

/-- The first state of a system that is reset once, before anything was requested. -/
def boot (r : Regfile) : System where
  core := Core.next P
    { ifStage := { nextPcQ := 0#32, requestPcQ := 0#32 }, csrFile := {}, regfile := r }
    { rst := true }
  pc := P.resetVector

variable {P s i}

@[simp] theorem imemReq_isSome :
    (s.imemReq i).isSome = s.core.ifStage.requestFire (s.core.ifIn i) := by
  unfold imemReq
  split <;> simp_all

@[simp] theorem dmemReq_isSome :
    (s.dmemReq i).isSome = s.core.lsu.requestFire (s.core.lsuIn i) := by
  unfold dmemReq
  split <;> simp_all

/-- The state after a reset is a start state. -/
theorem started_boot (P : CoreParams) (r : Regfile) : Started P (boot P r) where
  core := ⟨_, _, rfl, rfl⟩
  imem := ⟨fun _ => rfl, fun hb => by simp [boot, Core.next, IfStage.next, IfStage.reset,
    Core.ifIn] at hb⟩
  dmem := ⟨fun _ => rfl, fun hs => by simp [boot, Core.next, Lsu.next, Lsu.reset,
    Core.lsuIn] at hs⟩
  pc := rfl
  clock := rfl

/-- After a reset edge all slots are empty. -/
theorem Started.slots (h : Started P s) : s.core.ifIdQ = {} ∧ s.core.idExQ = {} ∧
    s.core.exMemQ = {} ∧ s.core.memWbQ = {} := by
  obtain ⟨c₀, i, hrst, hc⟩ := h.core
  have edge := Core.edge_reset P c₀ hrst
  rw [hc]
  exact ⟨edge.ifId, edge.idEx, edge.exMem, edge.memWb⟩

/-- The core of a reachable system is reachable. -/
theorem Reachable.core (h : Reachable P s) : s.core.Reachable P :=
  Circuit.Reachable.invariant (I := fun s => s.core.Reachable P) h (fun _ hs => .start hs.core)
    fun _ i hs _ => hs.step (i := i) trivial

end System

end Rv32im

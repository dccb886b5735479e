import Rv32im.Core.CsrOrder
import Rv32im.Core.MulDiv
import Rv32im.Units.MduService

/-!
# The owner of a multiply/divide unit

A unit of the M extension that is not idle works for the instruction in ID/EX, and will deliver the
result of that instruction. The ledger below counts the requests launched for each packet that
passes through ID/EX.

* `MulUnit.delivers`, `DivUnit.delivers`: the result a unit comes to when it is left alone;
* `Core.launches`: the requests accepted by the units in a cycle;
* `Launches`: the core with the requests launched for the packets that left ID/EX;
* `Launches.mdu_owned`: who owns a unit, and how often it is asked.
-/

namespace Rv32im

open Clocked

/-! ### What a unit delivers -/

/-- The result a unit has after 32 cycles in which nobody asks it, kills it or takes its result. -/
def MulUnit.delivers (q : MulUnit) : Word := ((fun q => q.next {})^[32] q).result

@[inherit_doc MulUnit.delivers]
def DivUnit.delivers (q : DivUnit) : Word := ((fun q => q.next {})^[32] q).result

/-- A multiplier at work delivers the result of its operation. -/
theorem MulUnit.WorksOn.delivers {q : MulUnit} {r : MduRequest} (h : q.WorksOn r)
    (hs : q.stateQ ≠ .idle) : q.delivers = r.op.result r.lhs r.rhs := by
  have hrank : (if q.stateQ = .exec then 1 else 0) ≤ 32 := by
    split <;> omega
  obtain ⟨hresp, hw⟩ := MulUnit.blocking.rests (i := {}) (n := 32) (fun _ => rfl) (fun _ => rfl)
    hs h (.inr hrank)
  exact hw.2.resp hresp

@[inherit_doc MulUnit.WorksOn.delivers]
theorem DivUnit.WorksOn.delivers {q : DivUnit} {r : MduRequest} (h : q.WorksOn r)
    (hs : q.stateQ ≠ .idle) : q.delivers = r.op.result r.lhs r.rhs := by
  have hrank : q.rank ≤ 32 := by
    unfold DivUnit.rank
    split <;> omega
  obtain ⟨hresp, hw⟩ := DivUnit.blocking.rests (i := {}) (n := 32) (fun _ => rfl) (fun _ => rfl)
    hs h (.inr hrank)
  exact hw.2.resp hresp

namespace Core

variable {P : CoreParams} {F : IfId → Prop} {c : Core} {i : CoreIn}

/-- The multiplier accepts a request. -/
def launchesMul (c : Core) (i : CoreIn) : Bool :=
  (ExStage.mulIn (c.exIn i)).reqValid && c.mulUnit.reqReady (ExStage.mulIn (c.exIn i))

/-- The divider accepts a request. -/
def launchesDiv (c : Core) (i : CoreIn) : Bool :=
  (ExStage.divIn (c.exIn i)).reqValid && c.divUnit.reqReady (ExStage.divIn (c.exIn i))

/-- The requests accepted in this cycle. -/
def launches (c : Core) (i : CoreIn) : ℕ := (c.launchesMul i).toNat + (c.launchesDiv i).toNat

/-- ID/EX keeps its packet at this clock edge. -/
def idExHolds (c : Core) (i : CoreIn) : Bool := !(c.ctrl i).idExFlush && !(c.ctrl i).idExEnable

/-- The packet in ID/EX is lost at this clock edge: EX/MEM does not take it. -/
def idExSquashed (c : Core) (i : CoreIn) : Bool :=
  c.idExQ.valid && !i.rst && !c.exFire i && !c.idExHolds i

/-- The number of units that are not idle. -/
def busyUnits (c : Core) : ℕ :=
  (c.mulUnit.stateQ != .idle).toNat + (c.divUnit.stateQ != .idle).toNat

/-- ID/EX keeps its packet while MEM or EX waits. -/
theorem idExHolds_eq : c.idExHolds i = (c.action i == .memWait || c.action i == .exWait) := by
  have hctrl : c.ctrl i = PipelineCtrl.table c.trapDrainQ (c.controlRedirect i).target
      c.csrFile.mtvecQ (c.action i) := rfl
  rw [idExHolds, hctrl]
  cases c.action i <;> rfl

/-- A launch is for the instruction in ID/EX, with nothing older in the way. -/
theorem launchesMul_iff : c.launchesMul i = true ↔ ExStage.active (c.exIn i) = true ∧
    ExStage.isMul c.idExQ = true ∧ c.exResultReady i = true ∧ c.mulUnit.stateQ = .idle := by
  have hkill (h : ExStage.active (c.exIn i) = true) : (c.exIn i).kill = false := by
    simp only [ExStage.active, Bool.and_eq_true, Bool.not_eq_true'] at h
    exact h.2
  change (ExStage.active (c.exIn i) && ExStage.isMul c.idExQ && c.exResultReady i &&
    (c.mulUnit.stateQ == .idle && !(c.exIn i).kill) &&
    (c.mulUnit.stateQ == .idle && !(c.exIn i).kill)) = true ↔ _
  constructor
  · intro h
    simp only [Bool.and_eq_true, beq_iff_eq] at h
    exact ⟨h.1.1.1.1, h.1.1.1.2, h.1.1.2, h.2.1⟩
  · rintro ⟨ha, hm, hr, hs⟩
    simp [ha, hm, hr, hs, hkill ha]

@[inherit_doc launchesMul_iff]
theorem launchesDiv_iff : c.launchesDiv i = true ↔ ExStage.active (c.exIn i) = true ∧
    ExStage.isDiv c.idExQ = true ∧ c.exResultReady i = true ∧ c.divUnit.stateQ = .idle := by
  have hkill (h : ExStage.active (c.exIn i) = true) : (c.exIn i).kill = false := by
    simp only [ExStage.active, Bool.and_eq_true, Bool.not_eq_true'] at h
    exact h.2
  change (ExStage.active (c.exIn i) && ExStage.isDiv c.idExQ && c.exResultReady i &&
    (c.divUnit.stateQ == .idle && !(c.exIn i).kill) &&
    (c.divUnit.stateQ == .idle && !(c.exIn i).kill)) = true ↔ _
  constructor
  · intro h
    simp only [Bool.and_eq_true, beq_iff_eq] at h
    exact ⟨h.1.1.1.1, h.1.1.1.2, h.1.1.2, h.2.1⟩
  · rintro ⟨ha, hm, hr, hs⟩
    simp [ha, hm, hr, hs, hkill ha]

/-- A unit at work is not launched. -/
theorem launchesMul_of_ne_idle (h : c.mulUnit.stateQ ≠ .idle) : c.launchesMul i = false := by
  by_contra hne
  exact h (launchesMul_iff.mp (Bool.not_eq_false _ ▸ hne)).2.2.2

@[inherit_doc launchesMul_of_ne_idle]
theorem launchesDiv_of_ne_idle (h : c.divUnit.stateQ ≠ .idle) : c.launchesDiv i = false := by
  by_contra hne
  exact h (launchesDiv_iff.mp (Bool.not_eq_false _ ▸ hne)).2.2.2

/-- Only an instruction of the extension in ID/EX launches anything, when nothing older is in the
way. -/
theorem of_launches (h : c.launches i ≠ 0) : ExStage.active (c.exIn i) = true ∧
    (ExStage.isMul c.idExQ = true ∨ ExStage.isDiv c.idExQ = true) ∧ c.exResultReady i = true := by
  cases hm : c.launchesMul i with
  | true =>
    obtain ⟨ha, hmul, hr, -⟩ := launchesMul_iff.mp hm
    exact ⟨ha, .inl hmul, hr⟩
  | false =>
    cases hd : c.launchesDiv i with
    | true =>
      obtain ⟨ha, hdiv, hr, -⟩ := launchesDiv_iff.mp hd
      exact ⟨ha, .inr hdiv, hr⟩
    | false => simp [launches, hm, hd] at h

/-- A unit is launched only when EX may hand on its result. -/
theorem launches_of_not_resultReady (h : c.exResultReady i = false) : c.launches i = 0 := by
  by_contra hne
  have hr := (of_launches hne).2.2
  simp [h] at hr

/-- No unit is busy when both are idle. -/
theorem busyUnits_eq_zero : c.busyUnits = 0 ↔
    c.mulUnit.stateQ = .idle ∧ c.divUnit.stateQ = .idle := by
  unfold busyUnits
  cases c.mulUnit.stateQ <;> cases c.divUnit.stateQ <;> simp

/-- The units are empty while an instruction is in EX/MEM, and when ID/EX is empty. -/
theorem MulDiv.busyUnits_eq_zero (h : MulDiv c)
    (hx : c.exMemQ.valid = true ∨ c.idExQ.valid = false ∨
      ExStage.isMul c.idExQ = false ∧ ExStage.isDiv c.idExQ = false) : c.busyUnits = 0 := by
  refine Core.busyUnits_eq_zero.mpr ⟨?_, ?_⟩
  · by_contra hne
    obtain ⟨hset, hm, -⟩ := h.mul hne
    simp [hset.exMem, hset.valid, hm] at hx
  · by_contra hne
    obtain ⟨hset, hd, -⟩ := h.div hne
    simp [hset.exMem, hset.valid, hd] at hx

/-! ### One cycle -/

private theorem mulUnit_next_ne_idle {q : MulUnit} {j : MduIn} (hrst : j.rst = false)
    (hkill : j.kill = false) (h : q.stateQ = .idle ∧ j.reqValid = true ∨ q.stateQ = .exec) :
    (q.next j).stateQ ≠ .idle := by
  rw [MulUnit.next_eq hrst hkill]
  rcases h with ⟨hs, hr⟩ | hs <;> simp [*]

private theorem divUnit_next_ne_idle {q : DivUnit} {j : MduIn} (hrst : j.rst = false)
    (hkill : j.kill = false) (h : q.stateQ = .idle ∧ j.reqValid = true ∨ q.stateQ = .run) :
    (q.next j).stateQ ≠ .idle := by
  rw [DivUnit.next_eq hrst hkill]
  rcases h with ⟨hs, hr⟩ | hs
  · simp only [hs, hr, if_true]
    unfold DivUnit.accept
    dsimp only
    split_ifs <;> simp
  · simp only [hs, reduceCtorEq, if_true, if_false]
    unfold DivUnit.iterate
    split <;> simp [hs]

/-- The divider has nothing to do for another instruction. -/
private theorem MulDiv.div_idle (h : MulDiv c) (hd : ExStage.isDiv c.idExQ = false) :
    c.divUnit.stateQ = .idle ∧ c.launchesDiv i = false := by
  constructor
  · by_contra hne
    have hd' := (h.div hne).2.1
    simp [hd] at hd'
  · by_contra hne
    have hd' := (launchesDiv_iff.mp (Bool.not_eq_false _ ▸ hne)).2.1
    simp [hd] at hd'

/-- Nor has the multiplier. -/
private theorem MulDiv.mul_idle (h : MulDiv c) (hm : ExStage.isMul c.idExQ = false) :
    c.mulUnit.stateQ = .idle ∧ c.launchesMul i = false := by
  constructor
  · by_contra hne
    have hm' := (h.mul hne).2.1
    simp [hm] at hm'
  · by_contra hne
    have hm' := (launchesMul_iff.mp (Bool.not_eq_false _ ▸ hne)).2.1
    simp [hm] at hm'

private theorem isDiv_eq_false_of_isMul {d : IdEx} (h : ExStage.isMul d = true) :
    ExStage.isDiv d = false := by
  by_contra hne
  simp [isMul_eq_false_of_isDiv (Bool.not_eq_false _ ▸ hne)] at h

/-- While EX waits, the unit asked is launched or already at work, and busy afterwards. -/
private theorem MulDiv.busyUnits_exWait (h : MulDiv c) (hready : Ready c i)
    (hwait : ExStage.wait (c.exIn i) = true) :
    (Core.next P c i).busyUnits = 1 ∧ c.busyUnits + c.launches i = 1 := by
  obtain ⟨hv, hmdu, hrsp⟩ := isMdu_of_wait hready hwait
  have hkill : (c.exIn i).kill = false := hready.exKill
  have hactive : ExStage.active (c.exIn i) = true := hready.active.trans hv
  have hr := hready.exResultReady
  simp only [ExStage.isMdu, Bool.and_eq_true, Bool.or_eq_true] at hmdu
  -- the unit of the instruction is launched now or has been before; the other is idle
  by_cases hm : ExStage.isMul c.idExQ = true
  · have hd := isDiv_eq_false_of_isMul hm
    obtain ⟨hdiv, hnd⟩ := h.div_idle (i := i) hd
    have hnext : (Core.next P c i).divUnit.stateQ = .idle := next_divUnit_idle hdiv hd
    rw [mduRspValid_of_isMul hm, hready.exKill] at hrsp
    by_cases hq : c.mulUnit.stateQ = .idle
    · have hl : c.launchesMul i = true := launchesMul_iff.mpr ⟨hactive, hm, hr, hq⟩
      have hne : (Core.next P c i).mulUnit.stateQ ≠ .idle :=
        mulUnit_next_ne_idle hready.rst hkill (.inl ⟨hq, (Bool.and_eq_true_iff.mp hl).1⟩)
      simp [busyUnits, launches, hne, hnext, hq, hdiv, hl, hnd]
    · -- it has been launched before
      have hs : c.mulUnit.stateQ = .exec := by cases hs : c.mulUnit.stateQ <;> simp_all
      have hl := launchesMul_of_ne_idle (i := i) hq
      have hne : (Core.next P c i).mulUnit.stateQ ≠ .idle :=
        mulUnit_next_ne_idle hready.rst hkill (.inr hs)
      simp [busyUnits, launches, hne, hnext, hs, hdiv, hl, hnd]
  · have hd := hmdu.1.resolve_left hm
    have hm₀ : ExStage.isMul c.idExQ = false := Bool.eq_false_iff.mpr hm
    obtain ⟨hmul, hnm⟩ := h.mul_idle (i := i) hm₀
    have hnext : (Core.next P c i).mulUnit.stateQ = .idle := next_mulUnit_idle hmul hm₀
    rw [mduRspValid_of_isDiv hd, hready.exKill] at hrsp
    by_cases hq : c.divUnit.stateQ = .idle
    · have hl : c.launchesDiv i = true := launchesDiv_iff.mpr ⟨hactive, hd, hr, hq⟩
      have hne : (Core.next P c i).divUnit.stateQ ≠ .idle :=
        divUnit_next_ne_idle hready.rst hkill (.inl ⟨hq, (Bool.and_eq_true_iff.mp hl).1⟩)
      simp [busyUnits, launches, hne, hnext, hq, hmul, hl, hnm]
    · have hs : c.divUnit.stateQ = .run := by cases hs : c.divUnit.stateQ <;> simp_all
      have hl := launchesDiv_of_ne_idle (i := i) hq
      have hne : (Core.next P c i).divUnit.stateQ ≠ .idle :=
        divUnit_next_ne_idle hready.rst hkill (.inr hs)
      simp [busyUnits, launches, hne, hnext, hs, hmul, hl, hnm]

/-- A packet that EX/MEM takes had one request launched for it if it is one of the extension, and
leaves the units empty. -/
private theorem MulDiv.busyUnits_exFire (h : MulDiv c) (hp : Packets F c)
    (hfire : c.exFire i = true) : (Core.next P c i).busyUnits = 0 ∧
      c.busyUnits + c.launches i = if ExStage.isMdu c.idExQ then 1 else 0 := by
  obtain ⟨hready, hv⟩ := ready_of_exFire hfire
  have hwait : ExStage.wait (c.exIn i) = false := by
    have hfire' : ExStage.exFire (c.exIn i) = true := hfire
    rw [ExStage.wait, hfire', Bool.not_true, Bool.and_false]
  refine ⟨Core.busyUnits_eq_zero.mpr (h.idle_of_not_wait hp hready hwait), ?_⟩
  cases hmdu : ExStage.isMdu c.idExQ with
  | false =>
    have hnot : ExStage.isMul c.idExQ = false ∧ ExStage.isDiv c.idExQ = false := by
      constructor
      · by_contra hne
        simp [hp.isMdu hv (.inl (Bool.not_eq_false _ ▸ hne))] at hmdu
      · by_contra hne
        simp [hp.isMdu hv (.inr (Bool.not_eq_false _ ▸ hne))] at hmdu
    have hl : c.launches i = 0 := by
      by_contra hne
      have hm := (of_launches hne).2.1
      simp [hnot.1, hnot.2] at hm
    rw [h.busyUnits_eq_zero (.inr (.inr hnot)), hl]
    rfl
  | true =>
    simp only [ExStage.isMdu, Bool.and_eq_true, Bool.or_eq_true] at hmdu
    have hrsp := mduRspValid_of_not_wait hp hready hwait hv hmdu.1
    -- the unit asked has its result, so nothing is launched in this cycle
    by_cases hm : ExStage.isMul c.idExQ = true
    · rw [mduRspValid_of_isMul hm, Bool.and_eq_true] at hrsp
      have hs : c.mulUnit.stateQ = .resp := beq_iff_eq.mp hrsp.1
      obtain ⟨hdiv, hnd⟩ := h.div_idle (i := i) (isDiv_eq_false_of_isMul hm)
      have hnm := launchesMul_of_ne_idle (c := c) (i := i) (by simp [hs])
      simp [busyUnits, launches, hs, hdiv, hnm, hnd]
    · have hd := hmdu.1.resolve_left hm
      rw [mduRspValid_of_isDiv hd, Bool.and_eq_true] at hrsp
      have hs : c.divUnit.stateQ = .resp := beq_iff_eq.mp hrsp.1
      obtain ⟨hmul, hnm⟩ := h.mul_idle (i := i) (Bool.eq_false_iff.mpr hm)
      have hnd := launchesDiv_of_ne_idle (c := c) (i := i) (by simp [hs])
      simp [busyUnits, launches, hs, hmul, hnm, hnd]

/-- While ID/EX keeps its packet, the units count the requests launched for it. -/
private theorem MulDiv.busyUnits_held (h : MulDiv c) (hhold : c.idExHolds i = true) :
    c.exFire i = false ∧ (Core.next P c i).busyUnits = c.busyUnits + c.launches i := by
  rw [idExHolds_eq, Bool.or_eq_true, beq_iff_eq, beq_iff_eq] at hhold
  rcases hhold with ha | ha
  · -- an access in EX/MEM keeps the units empty
    obtain ⟨hrst, htrap, hmexc, hwait⟩ := of_action_memWait ha
    have hr : c.exResultReady i = false := by simp [exResultReady, hwait]
    have hx : c.exMemQ.valid = true := by
      simp only [memWait, Bool.and_eq_true] at hwait
      exact ExMem.valid_of_isMemory hwait.1
    have hbusy := h.busyUnits_eq_zero (.inl hx)
    have hidle := Core.busyUnits_eq_zero.mp hbusy
    have hr' : (c.exIn i).resultReady = false := hr
    refine ⟨by rw [exFire_eq, hr, Bool.and_false], ?_⟩
    rw [hbusy, launches_of_not_resultReady hr, Core.busyUnits_eq_zero]
    exact ⟨MulUnit.stateQ_next (.inr (.inr (.inl ⟨hidle.1, by
        simp [ExStage.mulIn, ExStage.mduIn, hr']⟩))),
      DivUnit.stateQ_next (.inr (.inr (.inl ⟨hidle.2, by
        simp [ExStage.divIn, ExStage.mduIn, hr']⟩)))⟩
  · obtain ⟨hready, hwait⟩ := of_action_exWait ha
    obtain ⟨hnext, hsum⟩ := h.busyUnits_exWait (P := P) hready hwait
    refine ⟨?_, hnext.trans hsum.symm⟩
    simp only [ExStage.wait, Bool.and_eq_true, Bool.not_eq_true'] at hwait
    exact hwait.2

/-- When ID/EX does not keep its packet, the units are empty afterwards. -/
private theorem MulDiv.busyUnits_left (h : MulDiv c) (hp : Packets F c)
    (hleft : i.rst = true ∨ c.idExHolds i = false) : (Core.next P c i).busyUnits = 0 := by
  have hkill (hk : i.rst = true ∨ c.exKill i = true) : (Core.next P c i).busyUnits = 0 :=
    Core.busyUnits_eq_zero.mpr
      ⟨MulUnit.stateQ_next (hk.imp id .inl), DivUnit.stateQ_next (hk.imp id .inl)⟩
  have hfires (hready : Ready c i) (hwait : ExStage.wait (c.exIn i) = false) :
      (Core.next P c i).busyUnits = 0 :=
    Core.busyUnits_eq_zero.mpr (h.idle_of_not_wait hp hready hwait)
  have hsel := c.selected i
  have hhold := c.idExHolds_eq (i := i)
  cases hrst : i.rst with
  | true => exact hkill (.inl hrst)
  | false =>
  rw [hrst, Bool.false_eq_true, false_or, hhold] at hleft
  generalize c.action i = a at hsel hleft
  cases hsel with
  | reset hr => exact hkill (.inl hr)
  | wbTrap _ htrap =>
    exact hkill (.inr (by rw [exKill, show c.memWbQ.trap = true from htrap, Bool.true_or]))
  | memException _ _ hexc =>
    exact hkill (.inr (by rw [exKill, show c.memException i = true from hexc, Bool.or_true]))
  | memWait => simp at hleft
  | exException hr htrap hmexc hmwait hexc =>
    refine hfires ⟨hr, htrap, hmexc, hmwait⟩ ?_
    have hf : ExStage.exFire (c.exIn i) = _ := (Ready.mk hr htrap hmexc hmwait).exFire
    rw [ExStage.wait, hf, (exException_iff.mp hexc).1, Bool.not_true, Bool.and_false]
  | exWait => simp at hleft
  | younger hr htrap hmexc hmwait hexc hwait _ => exact hfires ⟨hr, htrap, hmexc, hmwait⟩ hwait

/-- A packet that ID/EX loses has launched nothing. -/
private theorem MulDiv.busyUnits_squashed (h : MulDiv c) (ht : TrapDrain c)
    (hs : c.idExSquashed i = true) : c.busyUnits + c.launches i = 0 := by
  simp only [idExSquashed, Bool.and_eq_true, Bool.not_eq_true'] at hs
  obtain ⟨⟨⟨hv, hrst⟩, hfire⟩, hhold⟩ := hs
  rw [idExHolds_eq] at hhold
  have hsel := c.selected i
  generalize c.action i = a at hsel hhold
  cases hsel with
  | reset hr => simp [show i.rst = true from hr] at hrst
  | wbTrap _ htrap => simp [(ht.memWb htrap).2.1] at hv
  | memException _ _ hexc =>
    -- the access that faults is in EX/MEM, so nothing can have been launched behind it
    have hexc : c.memException i = true := hexc
    have hx := ExMem.valid_of_isMemory (memException_iff.mp hexc).1
    rw [h.busyUnits_eq_zero (.inl hx), launches_of_not_resultReady (by simp [exResultReady, hexc])]
  | memWait => simp at hhold
  | exException hr htrap hmexc hmwait hexc =>
    obtain ⟨hres, -, -, hready⟩ := exException_iff.mp hexc
    simp [exFire_eq, hres, hready] at hfire
  | exWait => simp at hhold
  | younger hr htrap hmexc hmwait hexc hwait _ =>
    have hf : Fires c i := ⟨⟨hr, htrap, hmexc, hmwait⟩, hwait, hexc⟩
    simp [hf.exFire, hv] at hfire

end Core

/-- The core with the requests launched for the packet in ID/EX and for those that have left it:
taken by EX/MEM, or lost to an older event. -/
structure Launches where
  core : Core
  current : ℕ := 0
  taken : List (IdEx × ℕ) := []
  squashed : List (IdEx × ℕ) := []

namespace Launches

variable (P : CoreParams)

/-- A cycle of the core and its ledger. A reset forgets the packet in ID/EX. -/
def next (s : Launches) (i : CoreIn) : Launches :=
  let n := s.current + s.core.launches i
  { core := s.core.next P i
    current := if i.rst = false ∧ s.core.idExHolds i = true then n else 0
    taken := if s.core.exFire i then s.taken ++ [(s.core.idExQ, n)] else s.taken
    squashed := if s.core.idExSquashed i then s.squashed ++ [(s.core.idExQ, n)] else s.squashed }

/-- The core and its ledger in any environment. -/
def circuit : Circuit Launches CoreIn where
  legal _ _ := True
  next := next P

/-- After a reset edge the ledger is empty. -/
def Started (s : Launches) : Prop := s.core.AfterReset P ∧ s = { core := s.core }

variable {P} {s : Launches} {i : CoreIn}

/-- The requests launched for the packet in ID/EX are the busy units; a packet that EX/MEM took had
one if it is one of the extension, and a lost one had none. -/
structure Counted (s : Launches) : Prop where
  current : s.current = s.core.busyUnits
  taken : ∀ p ∈ s.taken, p.2 = if ExStage.isMdu p.1 then 1 else 0
  squashed : ∀ p ∈ s.squashed, p.2 = 0

/-- Every cycle keeps the count. -/
theorem Counted.next (h : Counted s) (hc : s.core.Reachable P) : Counted (s.next P i) := by
  have hm := hc.mulDiv
  refine ⟨?_, ?_, ?_⟩
  · change (if i.rst = false ∧ s.core.idExHolds i = true then s.current + s.core.launches i
      else 0) = (s.core.next P i).busyUnits
    split
    next hhold => rw [(hm.busyUnits_held hhold.2).2, h.current]
    next hleft =>
      refine (hm.busyUnits_left hc.packets ?_).symm
      cases hrst : i.rst <;> simp_all
  · change ∀ p ∈ (if s.core.exFire i then s.taken ++ [(s.core.idExQ, _)] else s.taken), _
    split
    next hfire =>
      simp only [List.forall_mem_append, List.forall_mem_singleton]
      refine ⟨h.taken, ?_⟩
      rw [h.current]
      exact (hm.busyUnits_exFire (P := P) hc.packets hfire).2
    next => exact h.taken
  · change ∀ p ∈ (if s.core.idExSquashed i then s.squashed ++ [(s.core.idExQ, _)]
      else s.squashed), _
    split
    next hs =>
      simp only [List.forall_mem_append, List.forall_mem_singleton]
      refine ⟨h.squashed, ?_⟩
      rw [h.current]
      exact hm.busyUnits_squashed hc.trapDrain hs
    next => exact h.squashed

/-- The ownership of the units in a state. `loadData` is what a load in EX/MEM would return: none is
there while a unit is busy. -/
structure Owned (s : Launches) : Prop extends Counted s where
  mul : s.core.mulUnit.stateQ ≠ .idle →
    s.core.idExQ.valid = true ∧ s.core.idExQ.exc.valid = false ∧
      ExStage.isMul s.core.idExQ = true ∧ s.core.divUnit.stateQ = .idle ∧
      ∀ loadData, s.core.mulUnit.delivers = s.core.idExQ.ctrl.mduOp.result
        ((s.core.pendingRegs loadData).read s.core.idExQ.rs1)
        ((s.core.pendingRegs loadData).read s.core.idExQ.rs2)
  div : s.core.divUnit.stateQ ≠ .idle →
    s.core.idExQ.valid = true ∧ s.core.idExQ.exc.valid = false ∧
      ExStage.isDiv s.core.idExQ = true ∧ s.core.mulUnit.stateQ = .idle ∧
      ∀ loadData, s.core.divUnit.delivers = s.core.idExQ.ctrl.mduOp.result
        ((s.core.pendingRegs loadData).read s.core.idExQ.rs1)
        ((s.core.pendingRegs loadData).read s.core.idExQ.rs2)
  /-- A launch is for the instruction in ID/EX, with no access unresolved and no trap committing. -/
  launch : ∀ i, s.core.launches i ≠ 0 →
    s.core.idExQ.valid = true ∧ ExStage.isMdu s.core.idExQ = true ∧ s.core.memWait i = false ∧
      s.core.memException i = false ∧ s.core.memWbQ.trap = false
  /-- The result that EX/MEM takes is that of the instruction. -/
  result : ∀ i, s.core.exFire i = true → ExStage.isMdu s.core.idExQ = true → ∀ loadData,
    (s.core.exMemD i).exResult = s.core.idExQ.ctrl.mduOp.result
      ((s.core.pendingRegs loadData).read s.core.idExQ.rs1)
      ((s.core.pendingRegs loadData).read s.core.idExQ.rs2)

/-- In every run from a reset a busy unit works for the instruction in ID/EX and delivers its
result, every multiply or divide instruction that reaches EX/MEM has launched one request, and an
instruction that is squashed none. -/
theorem mdu_owned {s₀ : Launches} {is : List CoreIn} (h₀ : Started P s₀)
    (hr : (circuit P).Run s₀ is s) : Owned s := by
  have hinv : s.core.Reachable P ∧ Counted s := by
    refine hr.invariant (I := fun s => s.core.Reachable P ∧ Counted s) ⟨.start h₀.1, ?_⟩
      fun s i h _ => ⟨h.1.step (i := i) trivial, h.2.next h.1⟩
    obtain ⟨⟨c, i, hrst, hc⟩, h₀⟩ := h₀
    have hidle : s₀.core.busyUnits = 0 := by
      rw [hc]
      exact Core.busyUnits_eq_zero.mpr
        ⟨MulUnit.stateQ_next (.inl hrst), DivUnit.stateQ_next (.inl hrst)⟩
    rw [h₀]
    exact ⟨hidle.symm, by simp, by simp⟩
  obtain ⟨hc, hcount⟩ := hinv
  have hm := hc.mulDiv
  refine { hcount with mul := fun hs => ?_, div := fun hs => ?_, launch := fun i hl => ?_
                       result := fun i hfire hmdu loadData => ?_ }
  · obtain ⟨hset, hmul, hw⟩ := hm.mul hs
    refine ⟨hset.valid, hset.exc, hmul,
      (hm.div_idle (i := {}) (Core.isDiv_eq_false_of_isMul hmul)).1, fun loadData => ?_⟩
    rw [Core.pendingRegs_of_not_valid hset.exMem]
    exact MulUnit.WorksOn.delivers (r := ⟨_, _, _⟩) ⟨Core.mduOp_of_isMul hmul, hw⟩ hs
  · obtain ⟨hset, hdiv, hw⟩ := hm.div hs
    refine ⟨hset.valid, hset.exc, hdiv,
      (hm.mul_idle (i := {}) (Core.isMul_eq_false_of_isDiv hdiv)).1, fun loadData => ?_⟩
    rw [Core.pendingRegs_of_not_valid hset.exMem]
    exact DivUnit.WorksOn.delivers (r := ⟨_, _, _⟩) ⟨Core.mduOp_of_isDiv hdiv, hw⟩ hs
  · obtain ⟨ha, hmdu, hready⟩ := Core.of_launches hl
    simp only [ExStage.active, Bool.and_eq_true] at ha
    simp only [Core.exResultReady, Bool.and_eq_true, Bool.not_eq_true'] at hready
    exact ⟨ha.1.1, hc.packets.isMdu ha.1.1 hmdu, hready.1.2, hready.2, hready.1.1⟩
  · obtain ⟨hready, hv⟩ := Core.ready_of_exFire hfire
    have hres : ExStage.resultValid (s.core.exIn i) = true := hready.exFire ▸ hfire
    obtain ⟨h₁, h₂⟩ := hc.operands.forwarded_mdu (i := i) hc.packets hv hmdu loadData
    rw [Core.exMemD_eq, if_pos hres, ← h₁, ← h₂, ← hm.mduResult hc.packets hc.operands hres hmdu]
    exact if_pos hmdu

/-- `div x1, x2, x3` behind a load that takes a cycle: one request, launched when the load is
answered. -/
theorem mdu_owned_div :
    let is : List CoreIn := [Core.fetches 0x00002283#32, Core.fetches 0x023140b3#32, {}, {},
      { dmem := { reqReady := true, rspValid := true } }]
    let s := (circuit {}).exec { core := Core.boot {} } is
    s.core.divUnit.stateQ = .resp ∧ s.current = 1 ∧ Owned s :=
  ⟨by decide +kernel, by decide +kernel,
    mdu_owned (P := {}) ⟨⟨_, _, rfl, rfl⟩, rfl⟩ (.of_always (by simp [Circuit.Always, circuit]))⟩

end Launches

end Rv32im

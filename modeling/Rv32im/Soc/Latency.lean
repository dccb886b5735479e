import Rv32im.Core.Interrupts
import Rv32im.Soc.Throughput

/-!
# Interrupt latency

A timer interrupt that stays pending and enabled is taken in bounded time: no new instruction enters
EX while it is, the ones in flight are three at most, and the SoC goes on committing.

* `Core.live`, `Core.live_next`: the instructions in flight behind ID;
* `Soc.interrupt_bounded`: the bound.
-/

namespace Rv32im

open Clocked

namespace Core

variable {P : CoreParams} {c : Core} {i : CoreIn}

/-- The instructions in EX, MEM and WB that are no trap. -/
def live (c : Core) : ℕ :=
  (c.idExQ.valid && !c.idExQ.trap).toNat + (c.exMemQ.valid && !c.exMemQ.trap).toNat +
    (c.memWbQ.valid && !c.memWbQ.trap).toNat

/-- There are three slots between ID and commit. -/
theorem live_le (c : Core) : c.live ≤ 3 := by
  have h₁ := Bool.toNat_le (c.idExQ.valid && !c.idExQ.trap)
  have h₂ := Bool.toNat_le (c.exMemQ.valid && !c.exMemQ.trap)
  have h₃ := Bool.toNat_le (c.memWbQ.valid && !c.memWbQ.trap)
  rw [live]
  omega

/-- A commit of a trap disables the interrupt. -/
theorem trap_of_irqEligible (h : c.irqEligible i = true) : c.memWbQ.trap = false := by
  by_contra hne
  have ht : c.memWbQ.commit.trapValid = true := (Bool.not_eq_false c.memWbQ.trap).mp hne
  have hmie : (c.csrFile.mstatusD c.memWbQ.commit).getLsbD mstatusMieBit = false := by
    rw [CsrFile.mstatusD, CsrFile.mstatusUpdate, if_pos ht]
    simp [CsrFile.assignBit, mstatusMieBit, mstatusMppMValue, mstatusWritableMask]
  rw [irqEligible, CsrFile.mtimerIrqEligibleAfterCommit, hmie, Bool.and_false] at h
  cases h

/-- What leaves EX was in ID/EX. -/
theorem live_exMemD : (c.exMemD i).valid = true → (c.exMemD i).trap = false →
    c.idExQ.valid = true ∧ c.idExQ.trap = false := by
  intro hv ht
  have hr : ExStage.resultValid (c.exIn i) = true := exMemD_valid (c := c) (i := i) ▸ hv
  have hid := valid_of_resultValid hr
  refine ⟨hid, ?_⟩
  by_contra hne
  have hexc : c.idExQ.exc.valid = true := by simpa [IdEx.trap, hid] using hne
  have hkept : (c.exPacket i).exc = c.idExQ.exc := ExStage.exc_of_exc hexc
  rw [exMemD_eq, if_pos hr] at hv ht
  simp [ExMem.trap, hv, hkept, hexc] at ht

/-- What leaves MEM was in EX/MEM. -/
theorem live_memWbD : (c.memWbD i).valid = true → (c.memWbD i).trap = false →
    c.exMemQ.valid = true ∧ c.exMemQ.trap = false := by
  intro hv ht
  rw [memWbD_valid, Bool.and_eq_true] at hv
  rw [memWbD_trap, Bool.or_eq_false_iff] at ht
  exact ⟨hv.1, ht.1⟩

/-- While the interrupt is pending and enabled, ID hands over nothing but traps. -/
theorem idExD_of_irqEligible (h : c.irqEligible i = true) (hrst : i.rst = false)
    (hdrain : c.trapDrainQ = false) (hwait : c.irqStateWait = false)
    (hexc : (c.idExD i).valid = true → (c.idExD i).exc.valid = false) :
    (c.idExD i).valid = false := by
  by_contra hne
  have hv : (c.idExD i).valid = true := by simpa using hne
  have hexc := hexc hv
  have hv' : c.idExDecoded.valid = true := by rwa [idExDecoded_valid, ← idExD_valid (i := i)]
  cases he : c.idExDecoded.exc.valid with
  | true =>
    -- an instruction that traps already is no candidate
    have hd : c.idExD i = c.idExDecoded := if_neg (by simp [idInterruptCandidate, he])
    rw [hd, he] at hexc
    cases hexc
  | false =>
    have hd : c.idExD i = IdEx.interrupt c.idExDecoded.pc :=
      if_pos (by rw [idInterruptCandidate, hrst, hdrain, h, hwait, hv', he]; rfl)
    rw [hd] at hexc
    cases hexc

/-- A cycle without a trap commit only moves the instructions on. -/
theorem live_next (ht : TrapDrain c) (h : c.irqEligible i = true) (hrst : i.rst = false) :
    (c.next P i).live + c.event.toList.length ≤ c.live := by
  have htrap := trap_of_irqEligible h
  have hevent : c.event.toList.length = (c.memWbQ.valid && !c.memWbQ.trap).toNat := by
    cases hv : c.memWbQ.valid <;> simp [event, hv, htrap]
  -- an instruction moves on or becomes a trap
  have hex : ((c.exMemD i).valid && !(c.exMemD i).trap).toNat ≤
      (c.idExQ.valid && !c.idExQ.trap).toNat := by
    have := c.live_exMemD (i := i)
    cases hv : (c.exMemD i).valid <;> cases ht : (c.exMemD i).trap <;> simp_all
  have hmem : ((c.memWbD i).valid && !(c.memWbD i).trap).toNat ≤
      (c.exMemQ.valid && !c.exMemQ.trap).toNat := by
    have := c.live_memWbD (i := i)
    cases hv : (c.memWbD i).valid <;> cases ht : (c.memWbD i).trap <;> simp_all
  rw [hevent, live, live]
  cases next_cases P c i with
  | reset rst edge => simp [hrst] at rst
  | wbTrap rst trap edge => simp [htrap] at trap
  | memException rst trap exc edge =>
    simp only [edge.idEx, edge.exMem, edge.memWb, Bool.false_and, Bool.toNat_false]
    omega
  | memWait rst trap wait edge =>
    simp only [edge.idEx, edge.exMem, edge.memWb, IdEx.refresh_valid, IdEx.refresh_trap,
      Bool.false_and, Bool.toNat_false]
    omega
  | exException ready exc edge =>
    simp only [edge.idEx, edge.exMem, edge.memWb, Bool.false_and, Bool.toNat_false]
    omega
  | exWait ready wait edge =>
    simp only [edge.idEx, edge.exMem, edge.memWb, IdEx.refresh_valid, IdEx.refresh_trap,
      Bool.false_and, Bool.toNat_false]
    omega
  | trapDrain fires drain edge =>
    -- ID is empty behind a trap
    simp only [edge.idEx, edge.exMem, edge.memWb, idExD_valid, ht.ifId drain, Bool.false_and,
      Bool.toNat_false]
    omega
  | exRedirect fires drain redirect edge =>
    simp only [edge.idEx, edge.exMem, edge.memWb, Bool.false_and, Bool.toNat_false]
    omega
  | stall fires drain redirect stall edge =>
    simp only [edge.idEx, edge.exMem, edge.memWb, Bool.false_and, Bool.toNat_false]
    omega
  | idTrap fires drain redirect irqWait exc edge =>
    have hid : (c.idExD i).trap = true := by rw [IdEx.trap, exc.1, exc.2]; rfl
    simp only [edge.idEx, edge.exMem, edge.memWb, hid, Bool.not_true, Bool.and_false,
      Bool.toNat_false]
    omega
  | advance fires drain redirect irqWait exc loadUse csrDep edge =>
    -- ID hands over nothing but the interrupt
    have hid := idExD_of_irqEligible h hrst drain irqWait exc
    simp only [edge.idEx, edge.exMem, edge.memWb, hid, Bool.false_and, Bool.toNat_false]
    omega

end Core

namespace Soc

variable {P : SocParams} {s s' : Soc P} {is js : List (In P)} {r : Regfile}
  {mem : Vector Word P.tcm.wordCount}

/-- While the interrupt is pending and enabled, only the instructions in flight commit. -/
theorem length_trace_le (hs : Alive s) (hr : (circuit P).Run s js s')
    (hrst : ∀ j ∈ js, j.rst = false)
    (hirq : (circuit P).Always (fun s i => s.core.irqEligible (s.coreIn i) = true) s js) :
    ((circuit P).trace event s js).length ≤ s.core.live := by
  have hrun : Alive s' ∧
      s'.core.live + ((circuit P).trace event s js).length ≤ s.core.live := by
    induction hr with
    | nil => simp [hs]
    | @snoc js t j hr hl ih =>
      rw [Circuit.always_append, ← hr.eq_exec] at hirq
      obtain ⟨halive, hle⟩ := ih (fun k hk => hrst k (by simp [hk])) hirq.1
      refine ⟨halive.next j, ?_⟩
      have hstep : (t.next j).core.live + t.core.event.toList.length ≤ t.core.live :=
        Core.live_next halive.core.trapDrain hirq.2.1 (hrst j (by simp))
      rw [hr.trace_snoc, List.length_append]
      have hevent : (event t j).toList.length = t.core.event.toList.length := rfl
      have hnext : ((circuit P).next t j).core.live = (t.next j).core.live := rfl
      omega
  omega

/-- From every state of a run: a timer interrupt cannot be pending and enabled for as long as four
commits may take. -/
theorem interrupt_bounded (hr : (circuit P).Run (resetState P r mem) is s)
    (hr' : (circuit P).Run s js s') (hrst : ∀ j ∈ js, j.rst = false)
    (hirq : (circuit P).Always (fun s i => s.core.irqEligible (s.coreIn i) = true) s js) :
    js.length < 4 * commitBound P := by
  by_contra hne
  have halive : Alive s := hr.invariant (alive_reset r mem) fun s i hs _ => hs.next i
  have hle := length_trace_le halive hr' hrst hirq
  have hlive := s.core.live_le
  have hcommits := halive.le_length_trace hr' hrst (n := 4) (Nat.le_of_not_lt hne)
  omega

/-- A timer whose compare register is zero after reset. -/
def ticking : SocParams := { tiny with mtimecmpResetValue := 0#64 }

/-- The SoC with a program that has just enabled the interrupt. -/
def enabled : Soc ticking :=
  (circuit ticking).exec (resetState ticking (fun _ => 0#32)
    #v[0x08000093#32, 0x30409073#32, 0x30046073#32, 0x13#32, 0x13#32, 0x13#32, 0x13#32, 0x13#32])
    (.replicate 9 { gpioIn := 0#32 })

/-- It takes the interrupt within three cycles. -/
theorem interrupt_bounded_enabled :
    let js : List (In ticking) := .replicate 3 { gpioIn := 0#32 }
    ((circuit ticking).exec enabled js).core.memWbQ.trap = true ∧
      js.length < 4 * commitBound ticking := by
  have run (s : Soc ticking) (is : List (In ticking)) :
      (circuit ticking).Run s is ((circuit ticking).exec s is) :=
    .of_always (Circuit.always_of_forall (Q := fun _ => True) fun _ _ => trivial)
  have hr : (circuit ticking).Run _ _ enabled := run _ _
  exact ⟨by decide +kernel, interrupt_bounded hr (run enabled _) (by decide) (by decide +kernel)⟩

end Soc

end Rv32im

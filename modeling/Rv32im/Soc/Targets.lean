import Rv32im.Clocked.Target
import Rv32im.Rtl.Tcm
import Rv32im.Rtl.Mtimer
import Rv32im.Rtl.Gpio
import Rv32im.Rtl.Uart

/-!
# Faulting accesses of the SoC targets

Each port of `rv32_tcm`, `rv32_mtimer`, `rv32_uart` and `rv32_gpio` is an atomic target: it answers
every accepted request in the next cycle, and a request answered with an error leaves everything but
the response registers as a cycle without request does. Reads do the same, except that a read of
RXDATA empties the holding register of the receiver before the cycle.

* `Tcm.imemTarget`, `Tcm.dmemTarget`, `Mtimer.target`, `Uart.target`, `Gpio.target`;
* `targets_atomic`: all of them are atomic.
-/

namespace Rv32im

open Clocked

/-! ### The memory -/

namespace Tcm

variable {p : TcmParams}

/-- The instruction port; the other port's response registers belong to the device. -/
def imemTarget (p : TcmParams) : Target (Tcm p) In MemReq MemRsp (Tcm p) where
  accepted _ i := i.imem.accepted true
  quiet i := { i with imem := i.imem.quiet }
  response s := s.imemRsp.response
  device s := { s with imemRsp := {} }
  next := next

/-- The data port. -/
def dmemTarget (p : TcmParams) : Target (Tcm p) In MemReq MemRsp (Tcm p) where
  accepted _ i := i.dmem.accepted true
  quiet i := { i with dmem := i.dmem.quiet }
  response s := s.dmemRsp.response
  device s := { s with dmemRsp := {} }
  next := next

/-- An access that is out of range or does not write leaves the array alone. -/
theorem write_eq_self {mem : Vector Word p.wordCount} {r : MemReq}
    (h : (p.inRange r.addr && r.write) = false) : write mem r = mem := by
  simp [write, h]

/-- The array and the data port do not see the instruction port. -/
theorem next_imem (s : Tcm p) (i : In) (m : MemOut) :
    { s.next { i with imem := m } with imemRsp := {} } = { s.next i with imemRsp := {} } := rfl

/-- A cycle that does not write the array. -/
theorem next_of_not_write {s : Tcm p} {i : In}
    (h : i.dmem.reqValid = true → (p.inRange i.dmem.req.addr && i.dmem.req.write) = false) :
    ({ s.next i with dmemRsp := {} } : Tcm p) =
      { mem := s.mem
        imemRsp := .next i.imem.reqValid (imemReadOk p i.imem.req) (s.read i.imem.req.addr) } := by
  have hmem : (if i.dmem.reqValid then write s.mem i.dmem.req else s.mem) = s.mem := by
    split
    · exact write_eq_self (h ‹_›)
    · rfl
  simp only [next, hmem]

/-- A data request that does not write is not seen by the rest of the memory. -/
theorem next_dmem_quiet {s : Tcm p} {i : In}
    (h : i.dmem.reqValid = true → (p.inRange i.dmem.req.addr && i.dmem.req.write) = false) :
    ({ s.next i with dmemRsp := {} } : Tcm p) =
      { s.next { i with dmem := i.dmem.quiet } with dmemRsp := {} } := by
  rw [next_of_not_write h, next_of_not_write (by simp [MemOut.quiet])]

/-- The instruction port of the memory. -/
theorem imemTarget_atomic (p : TcmParams) :
    (imemTarget p).Atomic (fun _ => True) MemRsp.err (fun r => r.write = false) (fun _ s => s) := by
  refine .of_cycle ?_ (fun _ h => h) ?_ ?_ ?_
  · intro s s' i _ h
    simp only [imemTarget, mk.injEq, true_and] at h
    simp [imemTarget, next, read, h]
  · intro s i _
    simp [imemTarget, next, MemOut.isSome_accepted]
  · intro s i _ _
    exact (next_imem s i _).symm
  · intro s i req _ _ _ _
    exact (next_imem s i _).symm

/-- Its data port. -/
theorem dmemTarget_atomic (p : TcmParams) :
    (dmemTarget p).Atomic (fun _ => True) MemRsp.err (fun r => r.write = false) (fun _ s => s) := by
  refine .of_cycle ?_ (fun _ h => h) ?_ ?_ ?_
  · intro s s' i _ h
    simp only [dmemTarget, mk.injEq, and_true] at h
    simp [dmemTarget, next, read, h]
  · intro s i _
    simp [dmemTarget, next, MemOut.isSome_accepted]
  · intro s i _ hf
    refine next_dmem_quiet fun _ => ?_
    -- a failed access is out of range
    simp only [Target.fails, dmemTarget, next, MemRspQ.any_err_next] at hf
    simp_all
  · intro s i req _ hreq _ hr
    obtain ⟨-, rfl⟩ := MemOut.accepted_eq_some.mp hreq
    exact next_dmem_quiet fun _ => by simp [hr]

end Tcm

/-! ### The timer -/

namespace Mtimer

/-- The bus port of the timer. -/
def target (p : MtimerParams) : Target Mtimer In MemReq MemRsp Mtimer where
  accepted _ i := i.bus.accepted (reqReady i)
  quiet i := { i with bus := i.bus.quiet }
  response q := q.rsp.response
  device q := { q with rsp := {} }
  next q i := q.next p i

variable {p : MtimerParams} {q : Mtimer} {i : In}

/-- Without a write the timer ticks. -/
theorem next_of_not_writes (hw : writes p i = false) (hrst : i.rst = false) :
    ({ q.next p i with rsp := {} } : Mtimer) =
      { mtimeQ := q.mtimeQ + 1#64, mtimecmpQ := q.mtimecmpQ } := by
  simp [next, hrst, mtimeD, mtimecmpD, hw]

/-- A request that does not write is not seen by the rest of the timer. -/
theorem next_quiet (hw : writes p i = false) (hrst : i.rst = false) :
    ({ q.next p i with rsp := {} } : Mtimer) =
      { q.next p { i with bus := i.bus.quiet } with rsp := {} } := by
  have hquiet : writes p { i with bus := i.bus.quiet } = false := rfl
  rw [next_of_not_writes hw hrst, next_of_not_writes hquiet hrst]

/-- The timer. -/
theorem target_atomic (p : MtimerParams) :
    (target p).Atomic (fun i => i.rst = false) MemRsp.err (fun r => r.write = false)
      (fun _ q => q) := by
  refine .of_cycle ?_ (fun _ h => h) ?_ ?_ ?_
  · intro q q' i hrst h
    simp only [target, mk.injEq, and_true] at h
    simp [target, next, hrst, mtimeD, mtimecmpD, h]
  · intro q i hrst
    simp [target, next, hrst, MemOut.isSome_accepted, reqFire]
  · intro q i hrst hf
    simp only [Target.fails, target, next, hrst] at hf
    exact next_quiet (by simp_all [writes]) hrst
  · intro q i req hrst hreq _ hr
    obtain ⟨-, rfl⟩ := MemOut.accepted_eq_some.mp hreq
    exact next_quiet (by simp [writes, hr]) hrst

end Mtimer

/-! ### The pins -/

namespace Gpio

/-- The bus port of the pins. -/
def target (p : GpioParams) : Target (Gpio p) (In p) MemReq MemRsp (Gpio p) where
  accepted _ i := i.bus.accepted (reqReady i)
  quiet i := { i with bus := i.bus.quiet }
  response q := q.rsp.response
  device q := { q with rsp := {} }
  next := next

variable {p : GpioParams} {q : Gpio p} {i : In p}

/-- Without a write the latches keep their values and the inputs are sampled. -/
theorem next_of_not_writes (hw : registerWriteAccept i = false) (hrst : i.rst = false) :
    ({ q.next i with rsp := {} } : Gpio p) =
      { inputMetaQ := i.gpioIn, inputSyncQ := q.inputMetaQ
        outputQ := q.outputQ, outputEnableQ := q.outputEnableQ } := by
  simp [next, hrst, outputD, outputEnableD, hw]

/-- A request that does not write is not seen by the rest of the pins. -/
theorem next_quiet (hw : registerWriteAccept i = false) (hrst : i.rst = false) :
    ({ q.next i with rsp := {} } : Gpio p) =
      { q.next { i with bus := i.bus.quiet } with rsp := {} } := by
  have hquiet : registerWriteAccept { i with bus := i.bus.quiet } = false := rfl
  rw [next_of_not_writes hw hrst, next_of_not_writes hquiet hrst]

/-- The pins. -/
theorem target_atomic (p : GpioParams) :
    (target p).Atomic (fun i => i.rst = false) MemRsp.err (fun r => r.write = false)
      (fun _ q => q) := by
  refine .of_cycle ?_ (fun _ h => h) ?_ ?_ ?_
  · intro q q' i hrst h
    simp only [target, mk.injEq, and_true] at h
    simp [target, next, hrst, outputD, outputEnableD, h]
  · intro q i hrst
    simp [target, next, hrst, MemOut.isSome_accepted, reqFire]
  · intro q i hrst hf
    simp only [Target.fails, target, next, hrst] at hf
    exact next_quiet (by simp_all [registerWriteAccept]) hrst
  · intro q i req hrst hreq _ hr
    obtain ⟨-, rfl⟩ := MemOut.accepted_eq_some.mp hreq
    exact next_quiet (by simp [registerWriteAccept, hr]) hrst

end Gpio

/-! ### The serial port -/

namespace Uart

variable {p : UartParams} {q : Uart p} {i : In}

/-- The bus port of the serial port. -/
def target (p : UartParams) : Target (Uart p) In MemReq MemRsp (Uart p) where
  accepted q i := i.bus.accepted (q.reqReady i)
  quiet i := { i with bus := i.bus.quiet }
  response q := q.rsp.response
  device q := { q with rsp := {} }
  next := next

/-- A read of RXDATA empties the holding register. -/
def pop (r : MemReq) (q : Uart p) : Uart p :=
  if r.addr = p.rxDataAddr then { q with rx := { q.rx with validQ := false } } else q

/-- Without a store to TXDATA or STATUS the two directions go on, after the pop. -/
theorem next_of_not_writes (hrst : i.rst = false) (htx : q.txWriteAccept i = false)
    (hst : q.statusWriteAccept i = false) : ({ q.next i with rsp := {} } : Uart p) =
      { tx := q.tx.next none, rx := q.rx.next false false (q.rxPop i) i.uartRx } := by
  simp [next, hrst, txWrite, htx, hst]

/-- A cycle without request. -/
theorem next_idle (q : Uart p) (hrst : i.rst = false) :
    ({ q.next { i with bus := i.bus.quiet } with rsp := {} } : Uart p) =
      { tx := q.tx.next none, rx := q.rx.next false false false i.uartRx } :=
  next_of_not_writes (q := q) (i := { i with bus := i.bus.quiet }) hrst rfl rfl

/-- Emptying the holding register first is popping it in the cycle. -/
theorem Rx.next_pop (r : Rx p) (line : Bool) :
    r.next false false true line =
      ({ r with validQ := false } : Rx p).next false false false line := by
  simp [Rx.next, Rx.access]

/-- An access that does not write, and pops as `r` does, does nothing else. -/
theorem next_quiet {r : MemReq} (hrst : i.rst = false) (htx : q.txWriteAccept i = false)
    (hst : q.statusWriteAccept i = false)
    (hpop : (pop r q).rx = if q.rxPop i then { q.rx with validQ := false } else q.rx) :
    ({ q.next i with rsp := {} } : Uart p) =
      { (pop r q).next { i with bus := i.bus.quiet } with rsp := {} } := by
  have htx' : (pop r q).tx = q.tx := by
    unfold pop
    split <;> rfl
  rw [next_of_not_writes hrst htx hst, next_idle (pop r q) hrst, htx', hpop]
  cases q.rxPop i
  · rfl
  · simp [Rx.next_pop]

/-- The UART, whose reads take the received byte. -/
theorem target_atomic (p : UartParams) :
    (target p).Atomic (fun i => i.rst = false) MemRsp.err (fun r => r.write = false) pop := by
  refine .of_cycle ?_ (fun _ h => h) ?_ ?_ ?_
  · intro q q' i hrst h
    obtain ⟨htx, hrx⟩ : q.tx = q'.tx ∧ q.rx = q'.rx := by simpa [target] using h
    obtain ⟨tx, rx, rsp⟩ := q
    obtain ⟨tx', rx', rsp'⟩ := q'
    obtain rfl : tx = tx' := htx
    obtain rfl : rx = rx' := hrx
    simp only [target, next, hrst, Bool.false_eq_true, if_false]
    rfl
  · intro q i hrst
    simp [target, next, hrst, MemOut.isSome_accepted, reqFire]
  · intro q i hrst hf
    -- an access that fails is not valid, so it neither writes nor pops
    have hinvalid : accessValid p i.bus.req = false := by
      simp only [Target.fails, target, next, hrst, Bool.false_eq_true, if_false,
        MemRspQ.any_err_next, Bool.and_eq_true, Bool.not_eq_true'] at hf
      exact hf.2
    have hpop : q.rxPop i = false := by simp [rxPop, rxReadAccept, hinvalid]
    show ({ q.next i with rsp := {} } : Uart p) = _
    rw [next_of_not_writes hrst (by simp [txWriteAccept, hinvalid])
      (by simp [statusWriteAccept, hinvalid]), hpop]
    exact (next_idle q hrst).symm
  · intro q i req hrst hreq hf hr
    obtain ⟨hfire, rfl⟩ := MemOut.accepted_eq_some.mp hreq
    have hfire : q.reqFire i = true := hfire
    have hvalid : accessValid p i.bus.req = true := by
      simpa [Target.fails, target, next, hrst, hfire] using hf
    refine next_quiet hrst (by simp [txWriteAccept, hr]) (by simp [statusWriteAccept, hr]) ?_
    simp only [rxPop, rxReadAccept, hfire, hvalid, hr, pop]
    -- a read of RXDATA pops, even an empty register, any other read does not
    by_cases ha : i.bus.req.addr = p.rxDataAddr
    · cases hv : q.rx.validQ
      · simp [ha, ← hv]
      · simp [ha]
    · simp [ha]

end Uart

/-- Faulting accesses are atomic at every target, and reads change nothing but what they pop. -/
theorem targets_atomic :
    (∀ p, (Tcm.imemTarget p).Atomic (fun _ => True) MemRsp.err (·.write = false) fun _ s => s) ∧
    (∀ p, (Tcm.dmemTarget p).Atomic (fun _ => True) MemRsp.err (·.write = false) fun _ s => s) ∧
    (∀ p, (Mtimer.target p).Atomic (·.rst = false) MemRsp.err (·.write = false) fun _ q => q) ∧
    (∀ p, (Uart.target p).Atomic (·.rst = false) MemRsp.err (·.write = false) Uart.pop) ∧
    ∀ p, (Gpio.target p).Atomic (·.rst = false) MemRsp.err (·.write = false) fun _ q => q :=
  ⟨Tcm.imemTarget_atomic, Tcm.dmemTarget_atomic, Mtimer.target_atomic, Uart.target_atomic,
    Gpio.target_atomic⟩

end Rv32im

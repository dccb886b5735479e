import Rv32im.Core.Oldest
import Rv32im.Soc.Ports
import Rv32im.Soc.Serial

/-!
# The SoC does not hang

Everything in the SoC answers in the next cycle, and only a store to a busy transmitter has to wait
before it is accepted. So from every reachable state, whatever the program is, the core commits an
instruction or a trap within the time of one serial frame and the longest way through the pipeline.

* `Uart.Tx.left`: the cycles until the transmitter is idle;
* `Soc.commitBound`: the bound;
* `Soc.commits`: every run has as many commits as its length allows.
-/

namespace Rv32im

open Clocked

/-! ### The transmitter -/

namespace Uart.Tx

variable {p : UartParams} {t : Tx p} {b : BitVec 8} {n : ℕ}

/-- The cycles until the transmitter is idle. -/
def left (t : Tx p) : ℕ :=
  if t.busyQ then (9 - t.bitQ.toNat) * p.clksPerBit + t.countQ.toNat + 1 else 0

/-- What is left of a frame. -/
theorem At.left_eq (h : At b n t) : t.left = 10 * p.clksPerBit - n := by
  cases h with
  | done le idle =>
    rw [left, idle, if_neg (by simp)]
    omega
  | bit k j hk hj busy bit count shift =>
    obtain ⟨m, hm⟩ : ∃ m, 9 = k + m := ⟨9 - k, by omega⟩
    have hframe : 10 * p.clksPerBit = k * p.clksPerBit + m * p.clksPerBit + p.clksPerBit := by
      rw [← Nat.add_mul, ← hm, ← Nat.succ_mul]
    rw [left, if_pos busy, bit, count, hframe, hm, Nat.add_sub_cancel_left]
    omega

end Uart.Tx

namespace Soc

variable {P : SocParams} {s s' : Soc P} {i : In P} {is js : List (In P)} {r : Regfile}
  {mem : Vector Word P.tcm.wordCount}

/-! ### The data port -/

/-- Only a target whose request the core has presented accepts one. -/
theorem requestFire_of_accepted {t : DemuxTarget} (h : (s.accepted i t).isSome) :
    s.core.lsu.requestFire (s.core.lsuIn (s.coreIn i)) = true := by
  rw [accepted, MemOut.isSome_accepted] at h
  simp only [bus, MemDemux.slaveReq, Bool.and_eq_true, beq_iff_eq] at h
  obtain ⟨⟨⟨hallowed, hvalid⟩, rfl⟩, hready⟩ := h
  rw [← requestFire_demux]
  simp [MemDemux.requestFire, MemDemux.reqReady, MemDemux.selectedReqReady, slave_demuxIn,
    MemRspQ.drive, hallowed, hvalid, hready]

/-- The transmitter gets no byte without a request. -/
theorem txWrite_of_not_requestFire
    (h : s.core.lsu.requestFire (s.core.lsuIn (s.coreIn i)) = false) :
    s.uart.txWrite (s.uartIn i) = none := by
  have hnone : s.uart.reqFire (s.uartIn i) = false := by
    by_contra hne
    have hacc : (s.accepted i .uart).isSome := by
      rw [accepted, MemOut.isSome_accepted]
      exact Bool.not_eq_false _ ▸ hne
    simp [requestFire_of_accepted hacc] at h
  simp [Uart.txWrite, Uart.txWriteAccept, hnone]

/-- Only the transmitter refuses a request, while it is busy. -/
theorem busyQ_of_refused (hs : Fabric s) (hrst : i.rst = false)
    (hv : s.core.lsu.reqValid (s.core.lsuIn (s.coreIn i)) = true)
    (hf : s.core.lsu.requestFire (s.core.lsuIn (s.coreIn i)) = false) :
    s.uart.tx.busyQ = true := by
  have hallowed : s.demux.issueAllowed (s.demuxIn i) = true := by
    have hrst' : (s.demuxIn i).rst = false := hrst
    cases hp : s.demux.pendingQ with
    | false => simp [MemDemux.issueAllowed, hrst', hp]
    | true =>
      have hrsp : (s.demux.pendingRsp (s.demuxIn i)).valid = true := by
        rw [MemDemux.pendingRsp, if_pos hp, slave_demuxIn]
        exact hs.owner hp
      simp [MemDemux.issueAllowed, hrst', hrsp]
  have hready : s.ready i (MemDemux.requestTarget P.demux (s.coreDmem i).req.addr) = false := by
    have hv : (s.demuxIn i).core.reqValid = true := hv
    rw [← requestFire_demux, MemDemux.requestFire, MemDemux.reqReady, MemDemux.selectedReqReady,
      slave_demuxIn, hv, hallowed] at hf
    exact hf
  cases ht : MemDemux.requestTarget P.demux (s.coreDmem i).req.addr with
  | tcm => simp [ht, ready] at hready
  | timer => simp [ht, ready, Mtimer.reqReady, mtimerIn, hrst] at hready
  | gpio => simp [ht, ready, Gpio.reqReady, gpioIn, hrst] at hready
  | uart =>
    have hrst' : (s.uartIn i).rst = false := hrst
    rw [ht] at hready
    simp only [ready, Uart.reqReady, hrst', Bool.not_false, Bool.true_and, Bool.or_eq_false_iff,
      Bool.not_eq_false'] at hready
    exact hready.2

/-! ### Runs -/

/-- What holds in every state of a run. -/
structure Alive (s : Soc P) : Prop where
  core : Core.Reachable P.core s.core
  fabric : Fabric s
  tx : ∃ b n, Uart.Tx.At b n s.uart.tx

/-- After a reset all waits are bounded. -/
theorem alive_reset (r : Regfile) (mem : Vector Word P.tcm.wordCount) :
    Alive (resetState P r mem) where
  core := .start (started_coreStart P r).1
  fabric := fabric_reset r mem
  tx := ⟨0#8, _, .done (Nat.le_refl _) rfl⟩

/-- They stay so, whatever happens. -/
theorem Alive.next (h : Alive s) (i : In P) : Alive (s.next i) where
  core := h.core.step trivial
  fabric := by
    cases hrst : i.rst
    · exact h.fabric.next hrst
    · rw [next_of_rst h.fabric hrst]
      exact fabric_reset _ _
  tx := by
    cases hrst : i.rst with
    | true =>
      rw [next_of_rst h.fabric hrst]
      exact ⟨0#8, _, .done (Nat.le_refl _) rfl⟩
    | false =>
      have hnext : (s.next i).uart.tx = s.uart.tx.next (s.uart.txWrite (s.uartIn i)) := by
        simp [Soc.next, Uart.next, uartIn, hrst]
      rw [hnext]
      obtain ⟨b, n, hat⟩ := h.tx
      cases s.uart.txWrite (s.uartIn i) with
      | none => exact ⟨b, n + 1, hat.next⟩
      | some b => exact ⟨b, 0, Uart.Tx.at_start _ b⟩

/-- The fabric serves the core. -/
theorem Alive.served (h : Alive s) (hrst : i.rst = false) :
    s.core.Served (s.coreIn i) (10 * P.uart.clksPerBit) s.uart.tx.left
      (s.next i).uart.tx.left := by
  have hquiet (hf : s.core.lsu.requestFire (s.core.lsuIn (s.coreIn i)) = false) :
      ∃ b n, Uart.Tx.At b n s.uart.tx ∧ Uart.Tx.At b (n + 1) (s.next i).uart.tx := by
    obtain ⟨b, n, hat⟩ := h.tx
    have hnext : (s.next i).uart.tx = s.uart.tx.next none := by
      rw [← txWrite_of_not_requestFire hf]
      simp [Soc.next, Uart.next, uartIn, hrst]
    exact ⟨b, n, hat, hnext ▸ hat.next⟩
  refine ⟨rfl, fun hb hs => h.fabric.fetch hb hs, fun hb hs => ?_, fun hf => ?_,
    fun hv hf => ?_, ?_⟩
  · have hp := h.fabric.access hb hs
    rw [rspValid_coreIn, hp, h.fabric.owner hp]
    rfl
  · obtain ⟨b, n, hat, hat'⟩ := hquiet hf
    rw [hat.left_eq, hat'.left_eq]
    omega
  · obtain ⟨b, n, hat, hat'⟩ := hquiet hf
    have hn := hat.busy_iff.mp (busyQ_of_refused h.fabric hrst hv hf)
    rw [hat.left_eq, hat'.left_eq]
    omega
  · obtain ⟨b, n, hat⟩ := (h.next i).tx
    rw [hat.left_eq]
    omega

/-- A serial frame, and the way of one instruction through the pipeline. -/
def commitBound (P : SocParams) : ℕ := 10 * P.uart.clksPerBit + 43

/-- From a state of a run there are as many commits as the number of cycles allows. -/
theorem Alive.le_length_trace (hs : Alive s) (hr : (circuit P).Run s js s')
    (hrst : ∀ j ∈ js, j.rst = false) {n : ℕ} (hn : n * commitBound P ≤ js.length) :
    n ≤ ((circuit P).trace event s js).length := by
  have hr := hr.restrict (Circuit.always_of_forall hrst)
  rw [← Circuit.trace_restrict]
  refine hr.le_length_trace (I := Alive)
    (fun s => s.core.potential (10 * P.uart.clksPerBit) s.uart.tx.left) hs
    (fun s i hs _ => hs.next i) ?_ ?_ hn
  · rintro s i hs ⟨-, hrst⟩ hnone
    have hw : s.core.memWbQ.valid = false := by simpa [event, Core.event] using hnone
    exact Core.potential_next hs.core hrst (hs.served hrst) hw
  · intro s hs
    obtain ⟨b, n, hat⟩ := hs.tx
    have hle := Core.potential_le s.core (U := 10 * P.uart.clksPerBit) (u := s.uart.tx.left)
      (by rw [hat.left_eq]; omega)
    have hfetch : s.core.ifStage.left ≤ 2 := by
      unfold IfStage.left
      split_ifs <;> (try split) <;> omega
    rw [commitBound]
    omega

/-- From every state of a run, whatever has been before, the SoC commits an instruction or a trap at
least every `commitBound` cycles without reset. -/
theorem commits (hr : (circuit P).Run (resetState P r mem) is s) (hr' : (circuit P).Run s js s')
    (hrst : ∀ j ∈ js, j.rst = false) {n : ℕ} (hn : n * commitBound P ≤ js.length) :
    n ≤ ((circuit P).trace event s js).length := by
  have halive : Alive s := hr.invariant (alive_reset r mem) fun s i hs _ => hs.next i
  exact halive.le_length_trace hr' hrst hn

/-- Eight `nop`s, and then whatever the trap vector leads to. -/
theorem commits_nop :
    let s₀ := resetState tiny (fun _ => 0#32) (.replicate 8 0x13#32)
    3 ≤ ((circuit tiny).trace event s₀ (.replicate (3 * 4383) { gpioIn := 0#32 })).length := by
  refine commits .nil (.of_always (Circuit.always_of_forall (Q := fun _ => True)
    fun _ _ => trivial)) (fun j hj => ?_) ?_
  · rw [List.eq_of_mem_replicate hj]
  · rw [List.length_replicate]
    decide

end Soc

end Rv32im

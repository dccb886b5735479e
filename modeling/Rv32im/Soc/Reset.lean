import Rv32im.Clocked.Circuit
import Rv32im.Ports.Lsu
import Rv32im.Ports.Fetch
import Rv32im.Rtl.SocTop
import Rv32im.Soc.Ownership

/-!
# Reset of the SoC

`if_stage` and `lsu` keep a drain state when a reset finds an accepted request unanswered. In the
SoC this never happens: what a master has outstanding is answered by a slave in that very cycle.

* `Soc.accepted`, `Soc.tcmStore`: the requests and stores a target accepts;
* `Soc.Fabric`: the invariant that ties outstanding transactions to visible responses;
* `Soc.reset_forgets`: what a reset edge leaves, in every state of a run.
-/

namespace Rv32im

open Clocked

namespace Soc

variable {P : SocParams} {s : Soc P} {i : In P}

/-- Any waveforms on the pins, and resets at any time. -/
def circuit (P : SocParams) : Circuit (Soc P) (In P) where
  legal _ _ := True
  next := next

/-- The response registers of a target. -/
def rspQ (s : Soc P) : DemuxTarget → MemRspQ
  | .tcm => s.tcm.dmemRsp
  | .timer => s.mtimer.rsp
  | .uart => s.uart.rsp
  | .gpio => s.gpio.rsp

/-- Whether a target is ready for the request on its bus. -/
def ready (s : Soc P) (i : In P) : DemuxTarget → Bool
  | .tcm => true
  | .timer => Mtimer.reqReady (s.mtimerIn i)
  | .uart => s.uart.reqReady (s.uartIn i)
  | .gpio => Gpio.reqReady (s.gpioIn i)

/-- The request accepted by a target, and by the instruction port of the memory. -/
def accepted (s : Soc P) (i : In P) (t : DemuxTarget) : Option MemReq :=
  (s.bus i t).accepted (s.ready i t)

@[inherit_doc accepted]
def fetched (s : Soc P) (i : In P) : Option MemReq := (s.imem i).accepted true

/-- Every outstanding transaction has its response in this cycle. -/
structure Fabric (s : Soc P) : Prop where
  fetch : s.core.ifStage.stateQ = .busy → s.core.ifStage.requestSentQ = true →
    s.tcm.imemRsp.valid = true
  access : s.core.lsu.stateQ = .busy → s.core.lsu.requestSentQ = true → s.demux.pendingQ = true
  owner : s.demux.pendingQ = true → (s.rspQ s.demux.pendingTargetQ).valid = true

/-! ### The invariant -/

/-- The demultiplexer sees the response registers of the targets. -/
theorem slave_demuxIn (t : DemuxTarget) :
    (s.demuxIn i).slave t = (s.rspQ t).drive (s.ready i t) := by
  cases t <;> rfl

/-- A target answers in the cycle after it accepts. -/
theorem rspQ_next (hrst : i.rst = false) (t : DemuxTarget) :
    ((s.next i).rspQ t).valid = (s.accepted i t).isSome := by
  rw [accepted, MemOut.isSome_accepted]
  cases t with
  | tcm => simp [rspQ, next, Tcm.next, MemRspQ.next, ready, tcmIn]
  | timer => simp [rspQ, next, Mtimer.next, hrst, MemRspQ.next, Mtimer.reqFire, ready, mtimerIn]
  | uart => simp [rspQ, next, Uart.next, hrst, MemRspQ.next, Uart.reqFire, ready, uartIn]
  | gpio => simp [rspQ, next, Gpio.next, hrst, MemRspQ.next, Gpio.reqFire, ready, gpioIn]

/-- After a reset no request is under way. -/
theorem fabric_reset (r : Regfile) (mem : Vector Word P.tcm.wordCount) :
    Fabric (resetState P r mem) where
  fetch h := by cases h
  access h := by cases h
  owner h := by cases h

/-- The memory answers a fetch in the cycle after it accepts it. -/
theorem imemRsp_next (s : Soc P) (i : In P) :
    (s.next i).tcm.imemRsp.valid = (s.imem i).reqValid := rfl

/-- The response the demultiplexer forwards to the core. -/
theorem rspValid_coreIn : (s.coreIn i).dmem.rspValid =
    (s.demux.pendingQ && (s.rspQ s.demux.pendingTargetQ).valid) := by
  have hslave := slave_demuxIn (s := s) (i := i) s.demux.pendingTargetQ
  simp only [coreIn, MemDemux.coreIn, MemDemux.rspValid, MemDemux.pendingRsp, hslave]
  cases s.demux.pendingQ <;> rfl

/-- The core and the demultiplexer see the same handshake. -/
theorem requestFire_demux : s.demux.requestFire P.demux (s.demuxIn i) =
    s.core.lsu.requestFire (s.core.lsuIn (s.coreIn i)) := rfl

/-- A handshake of the demultiplexer is one of the selected target. -/
theorem accepted_of_requestFire (h : s.demux.requestFire P.demux (s.demuxIn i) = true) :
    (s.accepted i (MemDemux.requestTarget P.demux (s.coreDmem i).req.addr)).isSome := by
  rw [accepted, MemOut.isSome_accepted]
  simp only [MemDemux.requestFire, MemDemux.reqReady, MemDemux.selectedReqReady, slave_demuxIn,
    Bool.and_eq_true] at h
  obtain ⟨hvalid, hallowed, hready⟩ := h
  simp only [bus, MemDemux.slaveReq, hvalid, hallowed, Bool.and_eq_true]
  exact ⟨⟨⟨trivial, trivial⟩, beq_self_eq_true _⟩, hready⟩

/-- The slot after a cycle without reset: taken by a handshake, else kept until the response. -/
theorem demux_next (hrst : i.rst = false) : (s.next i).demux =
    if s.demux.requestFire P.demux (s.demuxIn i) then
      { pendingQ := true
        pendingTargetQ := MemDemux.requestTarget P.demux (s.coreDmem i).req.addr }
    else if (s.coreIn i).dmem.rspValid then { s.demux with pendingQ := false } else s.demux := by
  have hrst' : (s.demuxIn i).rst = false := hrst
  have hrsp : (s.coreIn i).dmem.rspValid = s.demux.rspValid (s.demuxIn i) := rfl
  show s.demux.next P.demux (s.demuxIn i) = _
  rw [hrsp, MemDemux.next, hrst', if_neg (by simp)]
  cases s.demux.requestFire P.demux (s.demuxIn i)
  · cases s.demux.rspValid (s.demuxIn i) <;> rfl
  · rfl

/-- The fabric stays consistent without reset. -/
theorem Fabric.next (h : Fabric s) (hrst : i.rst = false) : Fabric (s.next i) where
  fetch hs hsent := by
    rw [imemRsp_next]
    rcases IfStage.sent_next (i := s.core.ifIn (s.coreIn i)) hrst hs hsent with hf | ⟨hs, hsent, hv⟩
    · simp only [IfStage.requestFire, Bool.and_eq_true] at hf
      exact hf.1
    · have hv : s.tcm.imemRsp.valid = false := hv
      exact absurd (h.fetch hs hsent) (by simp [hv])
  access hs hsent := by
    rw [demux_next hrst, requestFire_demux]
    rcases Lsu.sent_next (i := s.core.lsuIn (s.coreIn i)) hrst hs hsent with hf | ⟨hs, hsent, hv⟩
    · rw [if_pos hf]
    · have hpending := h.access hs hsent
      have hrsp : (s.coreIn i).dmem.rspValid = true := by
        rw [rspValid_coreIn, hpending, h.owner hpending, Bool.and_self]
      exact absurd hrsp (by simpa [Core.lsuIn] using hv)
  owner hp := by
    rw [rspQ_next hrst]
    rw [demux_next hrst] at hp ⊢
    by_cases hf : s.demux.requestFire P.demux (s.demuxIn i) = true
    · rw [if_pos hf]
      exact accepted_of_requestFire hf
    · rw [if_neg hf] at hp
      split at hp
      · cases hp
      · have hrsp : (s.coreIn i).dmem.rspValid = true := by
          rw [rspValid_coreIn, hp, h.owner hp, Bool.and_self]
        contradiction

/-! ### The reset edge -/

/-- Nothing is requested from a target under reset. -/
theorem bus_of_rst (hrst : i.rst = true) (t : DemuxTarget) : (s.bus i t).reqValid = false := by
  have hrst' : (s.demuxIn i).rst = true := hrst
  simp [bus, MemDemux.slaveReq, MemDemux.issueAllowed, hrst']

/-- No fetch is presented in a reset. -/
theorem imem_of_rst (hrst : i.rst = true) : (s.imem i).reqValid = false := by
  have hrst' : (s.core.ifIn (s.coreIn i)).rst = true := hrst
  simp [imem, IfStage.reqValid, hrst']

/-- No data request is accepted in a reset. -/
theorem accepted_of_rst (hrst : i.rst = true) (t : DemuxTarget) : s.accepted i t = none := by
  rw [accepted, MemOut.accepted, bus_of_rst hrst, Bool.false_and]
  rfl

theorem fetched_of_rst (hrst : i.rst = true) : s.fetched i = none := by
  rw [fetched, MemOut.accepted, imem_of_rst hrst, Bool.false_and]
  rfl

/-- The fetch unit has its response, so it starts afresh. -/
theorem ifStage_of_rst (h : Fabric s) (hrst : i.rst = true) : (s.next i).core.ifStage =
    { nextPcQ := P.core.resetVector, requestPcQ := P.core.resetVector } := by
  have hrst' : (s.core.ifIn (s.coreIn i)).rst = true := hrst
  simp only [next, Core.next, IfStage.next, hrst', if_true, IfStage.reset]
  -- the response to a request that is under way arrives in this very cycle
  rw [if_neg]
  rintro ⟨hs, hsent, hv⟩
  have hv : s.tcm.imemRsp.valid = false := hv
  exact absurd (h.fetch hs hsent) (by simp [hv])

/-- The load/store unit has its response, so it starts afresh. -/
theorem lsu_of_rst (h : Fabric s) (hrst : i.rst = true) : (s.next i).core.lsu = {} := by
  have hrst' : (s.core.lsuIn (s.coreIn i)).rst = true := hrst
  simp only [next, Core.next, Lsu.next, hrst', if_true, Lsu.reset]
  rw [if_neg]
  rintro ⟨hs, hsent, hv⟩
  have hpending := h.access hs hsent
  have hrsp : (s.coreIn i).dmem.rspValid = true := by
    rw [rspValid_coreIn, hpending, h.owner hpending, Bool.and_self]
  exact absurd hrsp (by simpa [Core.lsuIn] using hv)

/-- The rest of the core is reset in any case. -/
theorem core_of_rst (hrst : i.rst = true) : (s.next i).core =
    { ifStage := (s.next i).core.ifStage
      lsu := (s.next i).core.lsu
      csrFile := CsrFile.reset P.core.trapVector
      regfile := (s.next i).core.regfile } := by
  have hrst' : (s.coreIn i).rst = true := hrst
  have hmul : (ExStage.mulIn (s.core.exIn (s.coreIn i))).rst = true := hrst
  have hdiv : (ExStage.divIn (s.core.exIn (s.coreIn i))).rst = true := hrst
  simp only [next, Core.next, Core.pipeReg, hrst', if_true, MulUnit.next, hmul, DivUnit.next, hdiv]

/-- A reset edge installs the reset state. -/
theorem next_of_rst (h : Fabric s) (hrst : i.rst = true) :
    s.next i = resetState P (s.next i).core.regfile s.tcm.mem := by
  have hcore := core_of_rst (s := s) hrst
  rw [ifStage_of_rst h hrst, lsu_of_rst h hrst] at hcore
  have hperf : (s.next i).perf = {} := if_pos hrst
  have hdone : (s.next i).testDone = false := if_pos hrst
  have hstatus : (s.next i).testStatus = 0#32 := if_pos hrst
  have hdemux : (s.next i).demux = {} := if_pos hrst
  have htcm : (s.next i).tcm = { mem := s.tcm.mem } := by
    simp only [next, Tcm.next, tcmIn, bus_of_rst hrst, imem_of_rst hrst]
    rfl
  have hmtimer : (s.next i).mtimer = Mtimer.resetState P.mtimer := if_pos hrst
  have huart : (s.next i).uart = {} := if_pos hrst
  have hgpio : (s.next i).gpio = Gpio.resetState P.gpio := if_pos hrst
  generalize s.next i = s' at *
  obtain ⟨core, perf, testDone, testStatus, demux, tcm, mtimer, uart, gpio⟩ := s'
  simp only at *
  rw [resetState, hperf, hdone, hstatus, hdemux, htcm, hmtimer, huart, hgpio]
  rw [← hcore]

/-! ### Runs -/

/-- The store the memory accepts in a cycle. -/
def tcmStore (s : Soc P) (i : In P) : Option MemReq := (s.accepted i .tcm).filter (·.write)

/-- The memory changes by the store that it accepts. -/
theorem mem_next (s : Soc P) (i : In P) :
    (s.next i).tcm.mem = (s.tcmStore i).toList.foldl Tcm.write s.tcm.mem := by
  have hnext : (s.next i).tcm.mem =
      if (s.bus i .tcm).reqValid then Tcm.write s.tcm.mem (s.bus i .tcm).req else s.tcm.mem := rfl
  have hacc : s.accepted i .tcm =
      if (s.bus i .tcm).reqValid then some (s.bus i .tcm).req else none := by
    simp [accepted, MemOut.accepted, ready]
  rw [hnext, tcmStore, hacc]
  split
  · -- a request that is no store leaves the array alone
    cases hw : (s.bus i .tcm).req.write
    · simp [Option.filter, hw, Tcm.write]
    · simp [Option.filter, hw]
  · rfl

/-- In every state of a run from reset, whatever is under way: a reset edge leaves the reset state,
with just the accepted stores in the memory, and no target accepts a request under reset. -/
theorem reset_forgets {r : Regfile} {mem : Vector Word P.tcm.wordCount} {is : List (In P)}
    (h : (circuit P).Run (resetState P r mem) is s) (hrst : i.rst = true) :
    s.next i = resetState P (s.next i).core.regfile
      (((circuit P).trace tcmStore (resetState P r mem) is).foldl Tcm.write mem) ∧
    (∀ t, s.accepted i t = none) ∧ s.fetched i = none := by
  have hfabric : Fabric s := by
    refine h.invariant (fabric_reset r mem) fun s i hs _ => ?_
    cases hrst : i.rst
    · exact hs.next hrst
    · show Fabric (s.next i)
      rw [next_of_rst hs hrst]
      exact fabric_reset _ _
  have hmem : s.tcm.mem =
      ((circuit P).trace tcmStore (resetState P r mem) is).foldl Tcm.write mem := by
    refine h.trace_invariant (I := fun es s => s.tcm.mem = es.foldl Tcm.write mem) rfl ?_
    intro es s i hs _
    rw [List.foldl_append, ← hs]
    exact mem_next s i
  refine ⟨?_, accepted_of_rst hrst, fetched_of_rst hrst⟩
  rw [← hmem]
  exact next_of_rst hfabric hrst

/-- The default address map with a memory of eight words. -/
def tiny : SocParams where
  tcm := { wordCount := 8, baseAddr := 0#32, wordCount_pos := by decide, wordCount_lt := by decide }
  demux := DemuxSystem.defaultMap
  uartBaudRate_ne := by decide
  uartClkFreqHz_ne := by decide
  uart_four_le := by decide
  gpioWidth_pos := Nat.succ_pos _
  gpioWidth_le := Nat.le_refl _

/-- The first cycle of a program of eight `nop`s. -/
def fetching : Soc tiny :=
  (resetState tiny (fun _ => 0#32) (.replicate 8 0x13#32)).next { gpioIn := 0#32 }

theorem run_fetching :
    (circuit tiny).Run (resetState tiny (fun _ => 0#32) (.replicate 8 0x13#32))
      [{ gpioIn := 0#32 }] fetching :=
  .single trivial

/-- A reset forgets the fetch. -/
theorem reset_forgets_fetching :
    fetching.core.ifStage.requestSentQ = true ∧
    fetching.next { rst := true, gpioIn := 0#32 } =
      resetState tiny (fetching.next { rst := true, gpioIn := 0#32 }).core.regfile
        (.replicate 8 0x13#32) ∧
    (∀ t, fetching.accepted { rst := true, gpioIn := 0#32 } t = none) ∧
    fetching.fetched { rst := true, gpioIn := 0#32 } = none :=
  ⟨by decide, reset_forgets (P := tiny) (i := { rst := true, gpioIn := 0#32 }) run_fetching rfl⟩

end Soc

end Rv32im

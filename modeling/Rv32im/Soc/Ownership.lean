import Rv32im.Clocked.Circuit
import Rv32im.Clocked.Router
import Rv32im.Rtl.MemDemux

/-!
# Ownership in the demultiplexer

`rv32_mem_demux` between any master and any four slaves that answer each accepted request once, in
order and in a later cycle, and may drive `rsp_valid` as they like while they owe no answer. The
registers are accompanied by the histories of the five ports.

* `DemuxSystem.slaveRsp`: a slave's answer; without a request of its own it only makes noise;
* `DemuxTarget.Owns`: the masked address compare, by which exactly one target owns an address;
* `DemuxSystem.Cycle`: what a cycle must look like on the five ports;
* `DemuxSystem.ownership`: the histories and every cycle of a run without reset.
-/

namespace Rv32im

open Clocked

/-! ### Apertures -/

/-- The addresses of a target. -/
def DemuxTarget.Owns (p : DemuxParams) (addr : Word) : DemuxTarget → Prop
  | .timer => (addr ^^^ p.timerBaseAddr) &&& p.timerAddrMask = 0#32
  | .uart => (addr ^^^ p.uartBaseAddr) &&& p.uartAddrMask = 0#32
  | .gpio => (addr ^^^ p.gpioBaseAddr) &&& p.gpioAddrMask = 0#32
  | .tcm =>
    (addr ^^^ p.timerBaseAddr) &&& p.timerAddrMask ≠ 0#32 ∧
    (addr ^^^ p.uartBaseAddr) &&& p.uartAddrMask ≠ 0#32 ∧
    (addr ^^^ p.gpioBaseAddr) &&& p.gpioAddrMask ≠ 0#32

/-- An address in two regions shows that they overlap. -/
theorem regionsOverlap_of_matches {addr baseA maskA baseB maskB : Word}
    (ha : (addr ^^^ baseA) &&& maskA = 0#32) (hb : (addr ^^^ baseB) &&& maskB = 0#32) :
    regionsOverlap baseA maskA baseB maskB = true := by
  unfold regionsOverlap
  rw [beq_iff_eq]
  apply BitVec.eq_of_getLsbD_eq
  intro k hk
  have ha : ((addr ^^^ baseA) &&& maskA).getLsbD k = false := by simp [ha]
  have hb : ((addr ^^^ baseB) &&& maskB).getLsbD k = false := by simp [hb]
  simp only [BitVec.getLsbD_and, BitVec.getLsbD_xor, BitVec.getLsbD_zero] at ha hb ⊢
  grind

/-- Exactly one target owns an address: the one the demultiplexer selects. -/
theorem owns_iff (p : DemuxParams) (addr : Word) (t : DemuxTarget) :
    t.Owns p addr ↔ MemDemux.requestTarget p addr = t := by
  have htu := p.timer_uart
  have htg := p.timer_gpio
  have hug := p.uart_gpio
  have hoverlap {baseA maskA baseB maskB : Word}
      (h : regionsOverlap baseA maskA baseB maskB = false)
      (ha : (addr ^^^ baseA) &&& maskA = 0#32) : (addr ^^^ baseB) &&& maskB ≠ 0#32 := by
    intro hb
    rw [regionsOverlap_of_matches ha hb] at h
    cases h
  unfold MemDemux.requestTarget
  by_cases ht : (addr ^^^ p.timerBaseAddr) &&& p.timerAddrMask = 0#32
  · have hu := hoverlap htu ht
    have hg := hoverlap htg ht
    cases t <;> simp [DemuxTarget.Owns, addressMatches, ht, hu, hg]
  by_cases hu : (addr ^^^ p.uartBaseAddr) &&& p.uartAddrMask = 0#32
  · have hg := hoverlap hug hu
    cases t <;> simp [DemuxTarget.Owns, addressMatches, ht, hu, hg]
  by_cases hg : (addr ^^^ p.gpioBaseAddr) &&& p.gpioAddrMask = 0#32
  · cases t <;> simp [DemuxTarget.Owns, addressMatches, ht, hu, hg]
  · cases t <;> simp [DemuxTarget.Owns, addressMatches, ht, hu, hg]

/-! ### The system -/

/-- The demultiplexer and the histories of its five ports. -/
structure DemuxSystem where
  demux : MemDemux := {}
  core : Channel MemReq MemRsp := {}
  slave : DemuxTarget → Channel MemReq MemRsp := fun _ => {}

namespace DemuxSystem

open MemDemux

variable (p : DemuxParams) (s : DemuxSystem) (i : In)

/-- The slave owes the answer to a request accepted in an earlier cycle. -/
def Owes (t : DemuxTarget) : Prop := (s.slave t).answered.length < (s.slave t).accepted.length

/-- Whether a slave owes an answer can be computed. -/
instance (t : DemuxTarget) : Decidable (s.Owes t) := inferInstanceAs (Decidable (_ < _))

/-- The request handshake on the port of the core. -/
def coreReq : Option MemReq := i.core.accepted (s.demux.reqReady p i)

/-- The response on the port of the core. -/
def coreRsp : Option MemRsp := (s.demux.coreIn p i).rsp

/-- The request handshake on the port of a slave. -/
def slaveReq (t : DemuxTarget) : Option MemReq :=
  (s.demux.slaveReq p i t).accepted (i.slave t).reqReady

/-- The answer of a slave: what it drives while it owes none is noise. -/
def slaveRsp (t : DemuxTarget) : Option MemRsp := if s.Owes t then (i.slave t).rsp else none

/-- A cycle of the demultiplexer and of the histories. -/
def next : DemuxSystem where
  demux := s.demux.next p i
  core := s.core.step (s.coreReq p i) (s.coreRsp p i)
  slave t := (s.slave t).step (s.slaveReq p i t) (s.slaveRsp i t)

/-- Any master and any slaves, without reset. -/
def circuit : Circuit DemuxSystem In where
  legal _ i := i.rst = false
  next s i := s.next p i

/-- Whether a cycle is legal can be computed. -/
instance (s : DemuxSystem) (i : In) : Decidable ((circuit p).legal s i) :=
  inferInstanceAs (Decidable (_ = _))

/-- What must hold on the five ports in a cycle. -/
structure Cycle (p : DemuxParams) (s : DemuxSystem) (i : In) : Prop where
  /-- The address compare selects one target. -/
  owner : ∃! t : DemuxTarget, t.Owns p i.core.req.addr
  /-- A handshake of the core is one of the target that owns the address, with its payload, and of
  no other target. -/
  handshake : ∀ t, (t.Owns p i.core.req.addr → s.slaveReq p i t = s.coreReq p i) ∧
    (¬ t.Owns p i.core.req.addr → s.slaveReq p i t = none)
  /-- The core sees exactly the answers of the slave that owes one. -/
  response : ∀ rsp, s.coreRsp p i = some rsp ↔ ∃ t, s.slaveRsp i t = some rsp
  atMostOne : ∀ t t', s.Owes t → s.Owes t' → t = t'

/-- The histories of the ports: each slave has the requests it owns, and its answers are the ones
the core saw to these requests. -/
structure Histories (p : DemuxParams) (s : DemuxSystem) : Prop where
  atMostOne : s.core.answered.length ≤ s.core.accepted.length ∧
    s.core.accepted.length ≤ s.core.answered.length + 1
  accepted : ∀ t, (s.slave t).accepted = s.core.accepted.filter (requestTarget p ·.addr = t)
  answered : ∀ t, (s.slave t).answered =
    (s.core.exchanges.filter (requestTarget p ·.1.addr = t)).map Prod.snd

variable {p s i}

/-- The target that owns the pending request. -/
def pending (q : MemDemux) : Option DemuxTarget :=
  if q.pendingQ then some q.pendingTargetQ else none

/-- The invariant: the slot names the target that owes an answer. -/
abbrev Tracks (p : DemuxParams) (s : DemuxSystem) : Prop :=
  Routes (requestTarget p ·.addr) (pending s.demux) s.core s.slave

/-- The core sees what the pending target drives. -/
theorem coreRsp_eq (p : DemuxParams) (s : DemuxSystem) (i : In) :
    s.coreRsp p i = (pending s.demux).bind fun t => (i.slave t).rsp := by
  unfold coreRsp pending MemIn.rsp coreIn rspValid pendingRsp
  cases s.demux.pendingQ <;> simp
  split <;> simp_all

/-- A response is that of the slave that owns the request. -/
theorem slaveRsp_eq (h : Tracks p s) (t : DemuxTarget) :
    s.slaveRsp i t = if pending s.demux = some t then s.coreRsp p i else none := by
  unfold slaveRsp Owes
  rw [coreRsp_eq]
  simp only [h.owes_iff t]
  split
  · simp [‹pending s.demux = some t›]
  · rfl

/-- The request of the core is seen by the target it is routed to. -/
theorem slaveReq_eq (p : DemuxParams) (s : DemuxSystem) (i : In) (t : DemuxTarget) :
    s.slaveReq p i t = (s.coreReq p i).filter (requestTarget p ·.addr = t) := by
  unfold slaveReq coreReq MemOut.accepted MemDemux.slaveReq reqReady selectedReqReady
  -- the address compare gates the valid of each slave
  by_cases ht : requestTarget p i.core.req.addr = t
  · subst ht
    cases s.demux.issueAllowed i
    · simp
    · cases i.core.reqValid <;>
        cases (i.slave (requestTarget p i.core.req.addr)).reqReady <;> simp [Option.filter]
  · have hne : (requestTarget p i.core.req.addr == t) = false := by simpa using ht
    rw [hne, Bool.and_false, Bool.false_and, if_neg (by simp)]
    split <;> simp [Option.filter, ht]

/-- A request is accepted only into a slot that is free or released in the same cycle. -/
theorem free_of_coreReq (h : (s.coreReq p i).isSome) :
    pending s.demux = none ∨ (s.coreRsp p i).isSome := by
  rw [coreReq, MemOut.isSome_accepted] at h
  simp only [reqReady, issueAllowed, Bool.and_eq_true] at h
  unfold coreRsp MemIn.rsp coreIn rspValid pending
  cases hp : s.demux.pendingQ <;> simp_all

/-- The core gets a response only when it has a request pending. -/
theorem pending_of_coreRsp (h : (s.coreRsp p i).isSome) : (pending s.demux).isSome := by
  rw [coreRsp_eq] at h
  cases hp : pending s.demux <;> simp_all

/-- The slot after a cycle. -/
theorem pending_next (hrst : i.rst = false) : pending (s.demux.next p i) =
    if (s.coreReq p i).isSome then (s.coreReq p i).map (requestTarget p ·.addr)
    else if (s.coreRsp p i).isSome then none else pending s.demux := by
  have hreq : (s.coreReq p i).isSome = s.demux.requestFire p i := by
    rw [coreReq, MemOut.isSome_accepted, requestFire]
  have hrsp : (s.coreRsp p i).isSome = s.demux.rspValid i := by
    unfold coreRsp MemIn.rsp coreIn
    simp only
    split <;> simp_all
  rw [hreq, hrsp]
  -- a request accepted in the cycle of a response takes the slot over
  cases hf : s.demux.requestFire p i
  · cases hv : s.demux.rspValid i <;> simp [MemDemux.next, hrst, hf, hv, pending]
  · have hcore : s.coreReq p i = some i.core.req := by
      rw [hf] at hreq
      obtain ⟨r, hr⟩ := Option.isSome_iff_exists.mp hreq
      rw [hr, (MemOut.accepted_eq_some.mp hr).2]
    simp [MemDemux.next, hrst, hf, pending, hcore]

/-- A cycle without reset keeps the histories. -/
theorem Tracks.step (h : Tracks p s) (hrst : i.rst = false) : Tracks p (s.next p i) := by
  -- the demultiplexer does to its slot what the router does
  have hstep := Routes.step h (free_of_coreReq (p := p) (i := i)) pending_of_coreRsp
  rw [← pending_next hrst] at hstep
  simp only [← slaveReq_eq, ← slaveRsp_eq h] at hstep
  exact hstep

/-- What the invariant says about a cycle. -/
theorem Tracks.cycle (h : Tracks p s) (i : In) : Cycle p s i where
  owner := by
    simp only [owns_iff]
    exact ⟨_, rfl, fun _ ht => ht.symm⟩
  handshake t := by
    rw [owns_iff, slaveReq_eq]
    cases hr : s.coreReq p i with
    | none => simp
    | some r =>
      obtain rfl := (MemOut.accepted_eq_some.mp hr).2
      exact ⟨fun ht => by simp [ht], fun ht => by simp [ht]⟩
  response rsp := by
    simp only [slaveRsp_eq h]
    constructor
    · intro hr
      obtain ⟨t, ht⟩ := Option.isSome_iff_exists.mp
        (pending_of_coreRsp (s := s) (p := p) (i := i) (by rw [hr]; rfl))
      exact ⟨t, by simp [ht, hr]⟩
    · rintro ⟨t, ht⟩
      split at ht
      · exact ht
      · cases ht
  atMostOne t t' ht ht' := by
    have ht := (h.owes_iff t).mp ht
    have ht' := (h.owes_iff t').mp ht'
    exact Option.some.inj (ht.symm.trans ht')

/-- In every run without reset the five histories fit together, and so does every cycle. -/
theorem ownership {is : List In} (h : (circuit p).Run {} is s) :
    Histories p s ∧ ∀ i, i.rst = false → Cycle p s i := by
  have ht : Tracks p s := h.invariant (I := Tracks p) Routes.init fun _ _ ht hl => ht.step hl
  exact ⟨⟨ht.length_le, ht.routed, ht.returned⟩, fun i _ => ht.cycle i⟩

/-- The address map of the SoC. -/
def defaultMap : DemuxParams where
  timer_uart := by decide
  timer_gpio := by decide
  uart_gpio := by decide

/-- A store to the pins is answered in the cycle that accepts a load from memory, while the other
slaves make noise. -/
def recycled : List In :=
  let store : MemReq := { addr := 0x10010004#32, write := true, wdata := 5#32, wstrb := 0b1111#4 }
  [{ core := { reqValid := true, req := store }, gpio := { reqReady := true }
     uart := { rspValid := true } },
   { core := { reqValid := true, req := { addr := 0x80#32 } }, tcm := { reqReady := true }
     timer := { rspValid := true, rspRdata := 7#32 }, gpio := { rspValid := true } },
   { tcm := { rspValid := true, rspRdata := 9#32 }, gpio := { rspValid := true } }]

/-- Each slave has answered its own request, and the noise is lost. -/
theorem ownership_recycle :
    (((circuit defaultMap).exec {} recycled).slave .gpio).answered = [{}] ∧
    (((circuit defaultMap).exec {} recycled).slave .tcm).answered = [{ rdata := 9#32 }] ∧
    Histories defaultMap ((circuit defaultMap).exec {} recycled) ∧
    ∀ i, i.rst = false → Cycle defaultMap ((circuit defaultMap).exec {} recycled) i :=
  ⟨by decide, by decide, ownership (Circuit.Run.of_always (by decide))⟩

end DemuxSystem

end Rv32im

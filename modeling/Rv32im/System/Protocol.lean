import Rv32im.System.ProgramOrder
import Rv32im.System.DataPort

/-!
# The bus protocol

Both ports obey the request/response protocol: a request not accepted is presented again
unchanged, at most one request is unanswered, addresses are word aligned and the strobes fit the
write flag. The one exception is a reset in whose cycle the memory accepts the data request the
core still holds: its answer is outstanding when the next request is made.

* `PortCycle`: what one port shows in a cycle;
* `System.Protocol`: the protocol in a cycle without reset;
* `System.protocol_of_resets`: it holds in every run without such a reset cycle.
-/

namespace Rv32im

open Clocked

/-- One port in a cycle: its history, and what the core and the memory drive. -/
structure PortCycle where
  history : Channel MemReq MemRsp
  valid : Bool
  req : MemReq
  input : MemIn

namespace PortCycle

variable (p p' : PortCycle)

/-- The request is accepted. -/
def accepts : Bool := p.valid && p.input.reqReady

/-- The requirements on a single cycle. -/
structure Proper : Prop where
  /-- No request is accepted while another one is unanswered, except with its answer. -/
  single : p.accepts = true → p.history.accepted.length = p.history.answered.length ∨
    p.history.accepted.length = p.history.answered.length + 1 ∧ p.input.rspValid = true
  aligned : p.valid = true → Word.Aligned p.req.addr
  read : p.valid = true → p.req.write = false → p.req.wstrb = 0#4
  write : p.valid = true → p.req.write = true → p.req.wstrb ≠ 0#4

/-- A request not accepted is presented again in the next cycle. -/
def Stable : Prop := p.valid = true → p.input.reqReady = false → p'.valid = true ∧ p'.req = p.req

end PortCycle

namespace Core

variable {P : CoreParams} {c : Core} {i : CoreIn}

/-- Redirects go to aligned addresses. -/
theorem aligned_redirectPc (h : (c.ifIn i).redirectValid = true) :
    Word.Aligned (c.ifIn i).redirectPc := by
  have hdrive {cmd : FetchCmd} (hcmd : c.ifIn i = cmd.drive i.imem)
      (ht : ∀ t, cmd = .redirect t → Word.Aligned t) : Word.Aligned (c.ifIn i).redirectPc := by
    rw [hcmd] at h ⊢
    cases cmd with
    | redirect t => exact ht t rfl
    | _ => simp [FetchCmd.drive] at h
  cases next_cases {} c i with
  | reset rst edge => exact hdrive edge.fetch (by simp)
  | wbTrap rst trap edge => exact hdrive edge.fetch (by simp [Word.aligned_align])
  | memException rst trap exc edge => exact hdrive edge.fetch (by simp)
  | memWait rst trap wait edge => exact hdrive edge.fetch (by simp)
  | exException ready exc edge => exact hdrive edge.fetch (by simp)
  | exWait ready wait edge => exact hdrive edge.fetch (by simp)
  | trapDrain fires drain edge => exact hdrive edge.fetch (by simp)
  | exRedirect fires drain redirect edge =>
    -- a misaligned target raises an exception instead of a redirect
    refine hdrive edge.fetch fun t ht => ?_
    obtain ⟨-, -, htaken, hexc, htarget⟩ := of_controlRedirect redirect
    obtain rfl := FetchCmd.redirect.inj ht
    rw [htarget]
    exact ExStage.aligned_controlTarget htaken hexc
  | stall fires drain redirect stall edge => exact hdrive edge.fetch (by simp)
  | idTrap fires drain redirect irqWait exc edge => exact hdrive edge.fetch (by simp)
  | advance fires drain redirect irqWait exc loadUse csrDep edge =>
    exact hdrive edge.fetch (by simp)

/-- The fetch addresses are aligned in every reachable state. -/
theorem Reachable.fetchAligned (h : Reachable P c) (hP : Word.Aligned P.resetVector) :
    c.ifStage.Aligned := by
  have hreset (c : Core) (i : CoreIn) (hrst : i.rst = true) : (next P c i).ifStage.Aligned :=
    IfStage.Aligned.of_reset (q := c.ifStage) (i := c.ifIn i) hrst hP
  refine h.holds (I := fun c => c.ifStage.Aligned) hreset fun c i _ ha => ?_
  cases hrst : i.rst with
  | true => exact hreset c i hrst
  | false => exact ha.next_of_redirect (i := c.ifIn i) hrst aligned_redirectPc

end Core

namespace System

variable {P : CoreParams} {s s₀ : System} {i : CoreIn} {is : List CoreIn}

/-- The instruction port in a cycle. -/
def imemCycle (s : System) (i : CoreIn) : PortCycle where
  history := s.imem
  valid := s.core.ifStage.reqValid (s.core.ifIn i)
  req := s.core.ifStage.req (s.core.ifIn i)
  input := i.imem

/-- The data port in a cycle. -/
def dmemCycle (s : System) (i : CoreIn) : PortCycle where
  history := s.dmem
  valid := s.core.lsu.reqValid (s.core.lsuIn i)
  req := s.core.lsu.req (s.core.lsuIn i)
  input := i.dmem

/-- The protocol of both ports in a cycle; a reset may follow it. -/
structure Protocol (P : CoreParams) (s : System) (i : CoreIn) : Prop where
  imem : (s.imemCycle i).Proper
  dmem : (s.dmemCycle i).Proper
  imemStable : ∀ i', i'.rst = false → (s.imemCycle i).Stable ((s.next P i).imemCycle i')
  dmemStable : ∀ i', i'.rst = false → (s.dmemCycle i).Stable ((s.next P i).dmemCycle i')
  fetch : (s.imemCycle i).valid = true → (s.imemCycle i).req.write = false

/-- The memory accepts the data request the core holds in a reset cycle, and does not answer it
in that cycle. -/
def ResetAccepts (s : System) (i : CoreIn) : Prop :=
  s.core.lsu.ResetAccepts (s.core.lsuIn i)

/-- Whether a cycle meets the defect can be computed. -/
instance (s : System) (i : CoreIn) : Decidable (ResetAccepts s i) :=
  inferInstanceAs (Decidable (Lsu.ResetAccepts _ _))

/-! ### The instruction port -/

/-- Fetches are aligned reads. -/
theorem InOrder.imemProper (h : InOrder s) (ha : s.core.ifStage.Aligned) (hrst : i.rst = false) :
    (s.imemCycle i).Proper := by
  refine ⟨fun hf => ?_, fun _ => ?_, fun _ _ => rfl, fun _ hw => ?_⟩
  · rcases h.port.single (i := s.core.ifIn i) hrst hf with hq | ⟨hv, r, howes⟩
    · exact .inl hq
    · exact .inr ⟨howes.1, hv⟩
  · exact ha.reqAddr Core.aligned_redirectPc
  · simp [imemCycle, IfStage.req] at hw

/-- A fetch that is not accepted is presented again. -/
theorem imemStable (hrst : i.rst = false) {i' : CoreIn} (hrst' : i'.rst = false) :
    (s.imemCycle i).Stable ((s.next P i).imemCycle i') := by
  intro hv hr
  obtain ⟨hh, hpc⟩ := IfStage.held_of_not_ready (q := s.core.ifStage) (i := s.core.ifIn i)
    (w := P.resetVector) hrst hv hr
  have hh' : (s.next P i).core.ifStage.heldRequest = true := hh
  have hpc' : (s.next P i).core.ifStage.requestPcQ =
    s.core.ifStage.reqAddr (s.core.ifIn i) := hpc
  constructor
  · simp [imemCycle, IfStage.reqValid, Core.ifIn, hrst', hh']
  · simp [imemCycle, IfStage.req, IfStage.reqAddr, hh', hpc']

/-! ### The data port -/

/-- A reset keeps the unit on its port unless the memory accepts the request it holds. -/
theorem DataPort.reset (h : DataPort s) (hrst : i.rst = true)
    (hok : s.dmem.Ok (s.dmemReq i) i.dmem.rsp) (hbad : ¬ ResetAccepts s i) :
    DataPort (s.next P i) :=
  (Lsu.Port.reset (i := s.core.lsuIn i) (b := s.core.lsuRspReady i) h hrst dmemReq_isSome hok
    hbad).1

/-- An aligned store has a strobe. -/
theorem inputStoreWstrb_ne_zero (size : MemSize) (addr : Word) :
    Lsu.inputStoreWstrb size addr ≠ 0#4 := by
  cases size with
  | byte =>
    simp only [Lsu.inputStoreWstrb]
    generalize addr.extractLsb 1 0 = k
    revert k
    decide
  | half =>
    simp only [Lsu.inputStoreWstrb]
    generalize addr.extractLsb 1 1 = k
    revert k
    decide
  | word => simp [Lsu.inputStoreWstrb]

/-- Data requests are aligned, with strobes for a store only. -/
theorem DataPort.dmemProper (h : DataPort s) (hda : s.core.DataAccess) (ht : s.core.TrapDrain)
    {F : IfId → Prop} (hp : s.core.Packets F) (hrst : i.rst = false) :
    (s.dmemCycle i).Proper := by
  have hreq (hv : (s.dmemCycle i).valid = true) :
      s.core.exMemQ.onBus = true ∧ (s.dmemCycle i).req = s.core.exMemQ.request := by
    obtain ⟨hbus, -, hreq⟩ := hda.request ht hp hrst hv
    exact ⟨hbus, hreq⟩
  refine ⟨fun hf => .inl (h.quiet ?_), fun hv => ?_, fun hv hw => ?_, fun hv hw => ?_⟩
  · -- an accepted request is not presented again
    by_contra hne
    have hsent : s.core.lsu.requestSentQ = true := by simpa using hne
    have hfire : s.core.lsu.requestFire (s.core.lsuIn i) = true := hf
    simp [requestFire_of_sent (h.sent hsent).1 hsent] at hfire
  · rw [(hreq hv).2]
    exact Word.aligned_align _
  · rw [(hreq hv).2, ExMem.request, LsuOp.req] at hw ⊢
    simp only at hw ⊢
    rw [hw, if_neg (by simp)]
  · obtain ⟨hbus, hreq⟩ := hreq hv
    rw [hreq, ExMem.request, LsuOp.req] at hw ⊢
    simp only at hw ⊢
    have hstore : s.core.exMemQ.memCmd = .store := by simpa [ExMem.op] using hw
    -- a store that goes to the bus is aligned, so its strobes are those of its size
    have hal : Lsu.addressMisaligned s.core.exMemQ.memSize s.core.exMemQ.exResult = false := by
      have := ExMem.op_onBus_of_onBus hbus
      simp only [LsuOp.onBus, Bool.and_eq_true, Bool.not_eq_true'] at this
      exact this.2
    rw [hw, if_pos rfl]
    simp only [ExMem.op, hstore, hal]
    exact inputStoreWstrb_ne_zero _ _

/-- A data request that is not accepted is presented again. -/
theorem dmemStable (hda : s.core.DataAccess) (ht : s.core.TrapDrain) {F : IfId → Prop}
    (hp : s.core.Packets F) (hrst : i.rst = false) (i' : CoreIn) :
    (s.dmemCycle i).Stable ((s.next P i).dmemCycle i') := by
  intro hv hr
  obtain ⟨-, -, hreq⟩ := hda.request ht hp hrst hv
  have hfire : s.core.lsu.requestFire (s.core.lsuIn i) = false := by
    rw [Lsu.requestFire, show (s.core.lsuIn i).dmem.reqReady = false from hr, Bool.and_false]
  -- a request already accepted is not presented
  have hnot : ¬ (s.core.lsu.stateQ = .busy ∧ s.core.lsu.requestSentQ = true) := by
    rintro ⟨hs, hsent⟩
    have hv' : s.core.lsu.reqValid (s.core.lsuIn i) = true := hv
    simp [Lsu.reqValid, Lsu.issueInput, Lsu.reqReady, Lsu.issueSaved, hs, hsent] at hv'
  cases hda.access (P := P) ht hrst with
  | none fire valid mem state next => exact absurd (valid.symm.trans hv) (by simp)
  | drains fire valid mem trap wait state next held =>
    exact absurd (valid.symm.trans hv) (by simp)
  | offBus fire valid mem bus trap step => exact absurd (valid.symm.trans hv) (by simp)
  | waits bus trap state wait rsp next held =>
    -- the operation has been saved and is presented from the registers
    obtain ⟨hs, -, hop, hsent⟩ := next
    have hsent : (s.next P i).core.lsu.requestSentQ = false := by
      refine hsent.trans ?_
      rw [hfire, Bool.false_or]
      simpa using hnot
    have hs : (s.next P i).core.lsu.stateQ = .busy := hs
    have hin : (s.next P i).core.lsu.issueInput ((s.next P i).core.lsuIn i') = false := by
      simp [Lsu.issueInput, Lsu.reqReady, hs]
    constructor
    · show (s.next P i).core.lsu.reqValid _ = true
      simp [Lsu.reqValid, Lsu.issueSaved, hs, hsent]
    · show (s.next P i).core.lsu.req _ = s.core.lsu.req _
      rw [Lsu.req_of_not_issueInput hin, hreq]
      exact congrArg LsuOp.req hop
  | answered bus trap state wait sent valid next =>
    rcases sent with hs | hf
    · exact absurd hs hnot
    · simp [hfire] at hf

/-- In every run in which no reset meets the defect, both ports obey the protocol in every cycle
without reset. -/
theorem protocol_of_resets (hP : Word.Aligned P.resetVector) (hs : Started P s₀)
    (hr : (circuit P).Run s₀ is s)
    (hreset : (circuit P).Always (fun s i => ¬ ResetAccepts s i) s₀ is) (hrst : i.rst = false) :
    Protocol P s i := by
  have hinv : Reachable P s ∧ DataPort s := by
    refine hr.invariant_of_always (I := fun s => Reachable P s ∧ DataPort s)
      ⟨.start hs, hs.dataPort⟩ hreset fun s i hI hbad hl => ⟨hI.1.step hl, ?_⟩
    have hc := hI.1.core
    -- a reset that meets the defect is excluded by `hreset`
    cases hrst : i.rst with
    | true => exact hI.2.reset hrst hl.2 hbad
    | false => exact hI.2.next hc.dataAccess hc.trapDrain hc.packets hrst hl.2
  obtain ⟨hreach, hport⟩ := hinv
  have hc := hreach.core
  exact ⟨hreach.inOrder.imemProper (hc.fetchAligned hP) hrst,
    hport.dmemProper hc.dataAccess hc.trapDrain hc.packets hrst,
    fun _ hrst' => imemStable hrst hrst',
    fun i' _ => dmemStable hc.dataAccess hc.trapDrain hc.packets hrst i', fun _ => rfl⟩

/-- A load whose request is out when a reset drains it, and the protocol in the cycle after. -/
theorem protocol_of_resets_drain :
    let s := boot {} fun _ => 0#32
    let is : List CoreIn := [Core.fetches 0x00002083#32, {}, {}, { dmem := { reqReady := true } },
      { rst := true }, { rst := true, dmem := { rspValid := true } }, Core.fetches 0x00002083#32,
      {}, {}]
    Protocol {} ((circuit {}).exec s is) { dmem := { reqReady := true } } :=
  protocol_of_resets (by decide) (started_boot {} _) (.of_always (by decide +kernel))
    (by decide +kernel) rfl

/-- `lw x1, 0(x0)` whose request is presented, accepted in the cycle of a reset, and then fetched
again. -/
def acceptedInReset : List CoreIn :=
  [Core.fetches 0x00002083#32, {}, {}, {}, { rst := true, dmem := { reqReady := true } },
    Core.fetches 0x00002083#32, {}, {}]

/-- The protocol does not hold in every run: the second load's request is accepted while the
first one's is unanswered. -/
theorem not_protocol : ¬ ∀ (P : CoreParams) (s₀ s : System) (is : List CoreIn) (i : CoreIn),
    Word.Aligned P.resetVector → Started P s₀ → (circuit P).Run s₀ is s → i.rst = false →
      (circuit P).legal s i → Protocol P s i := by
  intro h
  have hp := h {} (boot {} fun _ => 0#32) _ acceptedInReset { dmem := { reqReady := true } }
    (by decide) (started_boot {} _) (.of_always (by decide +kernel)) rfl (by decide +kernel)
  have hsingle := hp.dmem.single (by decide +kernel)
  revert hsingle
  decide +kernel

end System

end Rv32im

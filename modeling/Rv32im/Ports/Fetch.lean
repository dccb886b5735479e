import Rv32im.Rtl.IfStage
import Rv32im.Clocked.Channel

/-!
# The fetch unit on its port

What one clock edge of `if_stage` can do, and how its state follows the history of the
instruction port and the address of the next packet it owes the pipeline.

* `IfId.fetched`: the packet of an instruction word or of an access fault;
* `IfStage.Slot`, `IfStage.next_slot`: the request slot after a cycle without reset;
* `IfStage.Port`: the unit awaits exactly the response the channel owes;
* `IfStage.Live`: the next packet is the one at a given address, and everything in flight that
  is not stale belongs to it; `IfStage.Dead`: nothing is in flight that is not stale.
-/

namespace Rv32im

open Clocked

/-- The packet that the answer `rsp` to a fetch of `pc` becomes. -/
def IfId.fetched (pc : Word) (rsp : MemRsp) : IfId where
  valid := true
  pc := pc
  insn := if rsp.err then 0#32 else rsp.rdata
  exc := if rsp.err then { valid := true, cause := excInstAccessFault, tval := pc } else {}

namespace IfStage

-- `w` is `RESET_VECTOR`
variable {q : IfStage} {i : In} {w : Word}

/-- The response of this cycle. -/
def busRsp (i : In) : MemRsp := { rdata := i.imem.rspRdata, err := i.imem.rspErr }

/-- The request slot and the next fetch address after a cycle without reset. -/
inductive Slot (q : IfStage) (i : In) (q' : IfStage) : Prop
  /-- Nothing is requested. -/
  | stays (state : q.stateQ = .idle) (launch : q.launchRequest i = false)
      (fire : q.requestFire i = false) (seen : q.responseSeen i = false)
      (next : q'.stateQ = .idle ∧ q'.nextPcQ = q.launchPc i)
  /-- A new request is accepted and answered in one cycle. -/
  | answered (state : q.stateQ = .idle) (launch : q.launchRequest i = true)
      (fire : q.requestFire i = true) (valid : i.imem.rspValid = true)
      (seen : q.responseSeen i = true)
      (next : q'.stateQ = .idle ∧ q'.nextPcQ = q.launchPc i + 4#32)
  /-- A new request is presented. -/
  | launched (state : q.stateQ = .idle) (launch : q.launchRequest i = true)
      (open' : q.requestFire i = true → i.imem.rspValid = false)
      (seen : q.responseSeen i = false)
      (next : q'.stateQ = .busy ∧ q'.requestSentQ = q.requestFire i ∧ q'.discardQ = false ∧
        q'.requestPcQ = q.launchPc i ∧
        q'.nextPcQ = if q.requestFire i then q.launchPc i + 4#32 else q.launchPc i)
  /-- A held request is not accepted. -/
  | held (state : q.stateQ = .busy) (sent : q.requestSentQ = false)
      (fire : q.requestFire i = false) (seen : q.responseSeen i = false)
      (next : q'.stateQ = .busy ∧ q'.requestSentQ = false ∧ q'.discardQ = q.requestStale i ∧
        q'.requestPcQ = q.requestPcQ ∧ q'.nextPcQ = q.launchPc i)
  /-- A held request is accepted and answered in one cycle. -/
  | heldAnswered (state : q.stateQ = .busy) (sent : q.requestSentQ = false)
      (fire : q.requestFire i = true) (valid : i.imem.rspValid = true)
      (seen : q.responseSeen i = true)
      (next : q'.stateQ = .idle ∧
        q'.nextPcQ = if q.requestStale i then q.launchPc i else q.requestPcQ + 4#32)
  /-- A held request is accepted. -/
  | heldAccepted (state : q.stateQ = .busy) (sent : q.requestSentQ = false)
      (fire : q.requestFire i = true) (valid : i.imem.rspValid = false)
      (seen : q.responseSeen i = false)
      (next : q'.stateQ = .busy ∧ q'.requestSentQ = true ∧ q'.discardQ = q.requestStale i ∧
        q'.requestPcQ = q.requestPcQ ∧
        q'.nextPcQ = if q.requestStale i then q.launchPc i else q.requestPcQ + 4#32)
  /-- The answer has not arrived. -/
  | awaits (state : q.stateQ = .busy) (sent : q.requestSentQ = true)
      (fire : q.requestFire i = false) (valid : i.imem.rspValid = false)
      (seen : q.responseSeen i = false)
      (next : q'.stateQ = .busy ∧ q'.requestSentQ = true ∧ q'.discardQ = q.requestStale i ∧
        q'.requestPcQ = q.requestPcQ ∧ q'.nextPcQ = q.launchPc i)
  /-- The answer arrives. -/
  | arrives (state : q.stateQ = .busy) (sent : q.requestSentQ = true)
      (launch : q.launchRequest i = false) (fire : q.requestFire i = false)
      (valid : i.imem.rspValid = true) (seen : q.responseSeen i = true)
      (next : q'.stateQ = .idle ∧ q'.nextPcQ = q.launchPc i)
  /-- The answer arrives and the slot is reused at once. -/
  | recycled (state : q.stateQ = .busy) (sent : q.requestSentQ = true)
      (launch : q.launchRequest i = true)
      (valid : i.imem.rspValid = true) (seen : q.responseSeen i = true)
      (next : q'.stateQ = .busy ∧ q'.requestSentQ = q.requestFire i ∧ q'.discardQ = false ∧
        q'.requestPcQ = q.launchPc i ∧
        q'.nextPcQ = if q.requestFire i then q.launchPc i + 4#32 else q.launchPc i)

/-- The holding register after a cycle without reset. -/
structure Packet (q : IfStage) (i : In) (q' : IfStage) : Prop where
  /-- A live response that is not consumed is held. -/
  captured : q.responseLive i = true → q.responseConsumed i = false →
    q'.packetValidQ = true ∧ q'.packetPcQ = q.responsePc i ∧
      q'.packetInsnQ = responseInsn i ∧ q'.packetExcQ = q.responseExc i
  /-- Otherwise the held packet stays until it is killed or consumed. -/
  kept : (q.responseLive i && !q.responseConsumed i) = false →
    q'.packetValidQ = (q.packetValidQ && !killEvent i && !i.consume) ∧
      q'.packetPcQ = q.packetPcQ ∧ q'.packetInsnQ = q.packetInsnQ ∧
      q'.packetExcQ = q.packetExcQ

section NextFields

variable (q' : IfStage)

private theorem nextRedirect_nextPc (h : q'.nextPcQ = q.nextPcQ) :
    (nextRedirect i q').nextPcQ = q.launchPc i := by
  unfold nextRedirect launchPc
  split
  · rfl
  · split <;> exact h

/-- A redirect touches nothing but the next address. -/
private theorem nextRedirect_eq : ∃ pc pending, nextRedirect i q' =
    { q' with nextPcQ := pc, redirectPendingQ := pending } := by
  unfold nextRedirect
  split
  · exact ⟨_, _, rfl⟩
  · split <;> exact ⟨_, _, rfl⟩

/-- A response touches nothing but the packet. -/
private theorem nextPacket_eq : ∃ v pc insn exc, q.nextPacket i =
    { q with packetValidQ := v, packetPcQ := pc, packetInsnQ := insn, packetExcQ := exc } := by
  unfold nextPacket
  split_ifs <;> exact ⟨_, _, _, _, rfl⟩

end NextFields

/-- The request slot after a cycle without reset. -/
theorem next_slot (hrst : i.rst = false) : Slot q i (q.next i w) := by
  obtain ⟨v, ppc, pinsn, pexc, hp⟩ := nextPacket_eq (q := q) (i := i)
  have hpc := nextRedirect_nextPc (q := q) (i := i) (q.nextPacket i) (by rw [hp])
  obtain ⟨pc, pending, hr⟩ := nextRedirect_eq (i := i) (q.nextPacket i)
  rw [next_eq w hrst]
  rw [hr] at hpc ⊢
  -- the holding register and the remembered redirect do not look at the slot
  rw [hp] at hpc ⊢
  simp only at hpc
  subst hpc
  have hreq : q.reqValid i = (q.heldRequest || q.launchRequest i) := by simp [reqValid, hrst]
  cases hs : q.stateQ with
  | idle =>
    rw [if_pos rfl]
    have hheld : q.heldRequest = false := by simp [heldRequest, hs]
    cases hl : q.launchRequest i with
    | false =>
      have hf : q.requestFire i = false := by simp [requestFire, hreq, hheld, hl]
      exact .stays hs hl hf (by simp [responseSeen, hs, hl]) (by simp [nextIdle, hl])
    | true =>
      cases hf : q.requestFire i with
      | false =>
        exact .launched hs hl (by simp [hf]) (by simp [responseSeen, hs, hf])
          (by simp [nextIdle, hl, hf])
      | true =>
        cases hv : i.imem.rspValid with
        | false =>
          exact .launched hs hl (by simp [hv]) (by simp [responseSeen, hs, hv])
            (by simp [nextIdle, hl, hf, hv])
        | true =>
          exact .answered hs hl hf hv (by simp [responseSeen, hs, hl, hf, hv])
            (by simp [nextIdle, hl, hf, hv])
  | busy =>
    rw [if_neg (by simp)]
    cases hsent : q.requestSentQ with
    | false =>
      have hheld : q.heldRequest = true := by simp [heldRequest, hs, hsent]
      cases hf : q.requestFire i with
      | false =>
        refine .held hs hsent hf (by simp [responseSeen, hs, hsent, hf]) ?_
        unfold requestStale
        cases hk : killEvent i <;> simp [nextBusy, hsent, hf, hk]
      | true =>
        cases hv : i.imem.rspValid with
        | false =>
          refine .heldAccepted hs hsent hf hv (by simp [responseSeen, hs, hv]) ?_
          cases hk : killEvent i <;> cases hd : q.requestStale i <;>
            simp [nextBusy, hsent, hf, hv, hk, hd]
        | true =>
          refine .heldAnswered hs hsent hf hv (by simp [responseSeen, hs, hv, hf]) ?_
          cases hk : killEvent i <;> cases hd : q.requestStale i <;>
            simp [nextBusy, hsent, hf, hv, hk, hd]
    | true =>
      have hheld : q.heldRequest = false := by simp [heldRequest, hsent]
      cases hv : i.imem.rspValid with
      | false =>
        -- an unanswered request blocks the slot, so nothing is launched behind it
        have hl : q.launchRequest i = false := by simp [launchRequest, hs, hv]
        have hf : q.requestFire i = false := by simp [requestFire, hreq, hheld, hl]
        refine .awaits hs hsent hf hv (by simp [responseSeen, hs, hv]) ?_
        unfold requestStale
        cases hk : killEvent i <;> simp [nextBusy, hsent, hf, hv, hk]
      | true =>
        cases hl : q.launchRequest i with
        | false =>
          have hf : q.requestFire i = false := by simp [requestFire, hreq, hheld, hl]
          refine .arrives hs hsent hl hf hv (by simp [responseSeen, hs, hv, hsent]) ?_
          cases hk : killEvent i <;> simp [nextBusy, hsent, hv, hl, hk]
        | true =>
          refine .recycled hs hsent hl hv (by simp [responseSeen, hs, hv, hsent]) ?_
          cases hk : killEvent i <;> cases hf : q.requestFire i <;>
            simp [nextBusy, hsent, hv, hl, hk, hf]

/-- A live request held after a cycle was presented in it, or was held and live before. -/
theorem heldRequest_next (hrst : i.rst = false) (hh : (q.next i w).heldRequest = true)
    (hd : (q.next i w).discardQ = false) :
    q.heldRequest = false ∨ q.requestStale i = false := by
  simp only [heldRequest, Bool.and_eq_true, beq_iff_eq, Bool.not_eq_true'] at hh
  cases next_slot (q := q) (w := w) hrst with
  -- a request presented in this cycle comes from `nextPcQ`, one held before keeps its mark
  | launched state launch open' seen next => exact .inl (by simp [heldRequest, state])
  | held state sent fire seen next => exact .inr (next.2.2.1 ▸ hd)
  | recycled state sent launch valid seen next => exact .inl (by simp [heldRequest, sent])
  | _ => simp_all

/-- A stale request outstanding after a cycle was outstanding before. -/
theorem stale_next (hrst : i.rst = false) (hs : (q.next i w).stateQ = .busy)
    (hd : (q.next i w).discardQ = true) :
    q.stateQ = .busy ∧ q.requestStale i = true := by
  cases next_slot (q := q) (w := w) hrst with
  | held state sent fire seen next => exact ⟨state, next.2.2.1 ▸ hd⟩
  | heldAccepted state sent fire valid seen next => exact ⟨state, next.2.2.1 ▸ hd⟩
  | awaits state sent fire valid seen next => exact ⟨state, next.2.2.1 ▸ hd⟩
  | _ => simp_all

/-- A request outstanding after a cycle was accepted in it or still awaits its answer. -/
theorem sent_next (hrst : i.rst = false) (hs : (q.next i w).stateQ = .busy)
    (hsent : (q.next i w).requestSentQ = true) : q.requestFire i = true ∨
      q.stateQ = .busy ∧ q.requestSentQ = true ∧ i.imem.rspValid = false := by
  cases next_slot (q := q) (w := w) hrst with
  | launched state launch open' seen next => exact .inl (next.2.1 ▸ hsent)
  | heldAccepted state sent fire valid seen next => exact .inl fire
  | awaits state sent fire valid seen next => exact .inr ⟨state, sent, valid⟩
  | recycled state sent launch valid seen next => exact .inl (by simp_all)
  | _ => simp_all

/-- A request presented and not accepted is presented again, whatever happens next. -/
theorem held_of_not_ready (hrst : i.rst = false) (hv : q.reqValid i = true)
    (hr : i.imem.reqReady = false) :
    (q.next i w).heldRequest = true ∧
      (q.next i w).requestPcQ = q.reqAddr i := by
  have hfire : q.requestFire i = false := by simp [requestFire, hr]
  -- the request is the held one or a new one, which enters the slot
  have hsrc : q.heldRequest = true ∨ q.launchRequest i = true := by
    simpa [reqValid, hrst] using hv
  cases next_slot (q := q) (w := w) hrst with
  | stays state launch fire seen next => simp [heldRequest, state, launch] at hsrc
  | answered state launch fire valid seen next => simp [fire] at hfire
  | launched state launch open' seen next =>
    obtain ⟨hs, hsent, -, hpc, -⟩ := next
    exact ⟨by simp [heldRequest, hs, hsent, hfire], by simp [hpc, reqAddr, heldRequest, state]⟩
  | held state sent fire seen next =>
    obtain ⟨hs, hsent, -, hpc, -⟩ := next
    exact ⟨by simp [heldRequest, hs, hsent], by simp [hpc, reqAddr, heldRequest, state, sent]⟩
  | heldAnswered state sent fire valid seen next => simp [fire] at hfire
  | heldAccepted state sent fire valid seen next => simp [fire] at hfire
  | awaits state sent fire valid seen next =>
    simp [heldRequest, sent, launchRequest, state, valid] at hsrc
  | arrives state sent launch fire valid seen next => simp [heldRequest, sent, launch] at hsrc
  | recycled state sent launch valid seen next =>
    obtain ⟨hs, hsent, -, hpc, -⟩ := next
    exact ⟨by simp [heldRequest, hs, hsent, hfire], by simp [hpc, reqAddr, heldRequest, sent]⟩

/-- The fetch addresses are aligned. -/
structure Aligned (q : IfStage) : Prop where
  next : Word.Aligned q.nextPcQ
  request : q.stateQ = .busy → Word.Aligned q.requestPcQ

/-- With aligned targets a launch is aligned. -/
theorem Aligned.launchPc (h : Aligned q)
    (hred : i.redirectValid = true → Word.Aligned i.redirectPc) : Word.Aligned (q.launchPc i) := by
  unfold IfStage.launchPc
  split
  next hc => exact hred hc
  next => exact h.next

/-- So is the address that is presented. -/
theorem Aligned.reqAddr (h : Aligned q)
    (hred : i.redirectValid = true → Word.Aligned i.redirectPc) : Word.Aligned (q.reqAddr i) := by
  unfold IfStage.reqAddr
  split
  next hc =>
    simp only [heldRequest, Bool.and_eq_true, beq_iff_eq] at hc
    exact h.request hc.1
  next => exact h.launchPc hred

/-- A cycle without reset keeps them aligned if redirects go to aligned targets. -/
theorem Aligned.next_of_redirect (h : Aligned q) (hrst : i.rst = false)
    (hred : i.redirectValid = true → Word.Aligned i.redirectPc) :
    Aligned (q.next i w) := by
  -- every address written is one of these four
  have hl := h.launchPc hred
  have hl4 := Word.aligned_add_four hl
  have hr4 (hs : q.stateQ = .busy) := Word.aligned_add_four (h.request hs)
  cases next_slot (q := q) (w := w) hrst with
  | stays state launch fire seen next => exact ⟨next.2 ▸ hl, fun hb => by simp [next.1] at hb⟩
  | answered state launch fire valid seen next =>
    exact ⟨next.2 ▸ hl4, fun hb => by simp [next.1] at hb⟩
  | launched state launch open' seen next =>
    refine ⟨?_, fun _ => next.2.2.2.1 ▸ hl⟩
    rw [next.2.2.2.2]
    split <;> assumption
  | held state sent fire seen next =>
    exact ⟨next.2.2.2.2 ▸ hl, fun _ => next.2.2.2.1 ▸ h.request state⟩
  | heldAnswered state sent fire valid seen next =>
    refine ⟨?_, fun hb => by simp [next.1] at hb⟩
    rw [next.2]
    split
    · exact hl
    · exact hr4 state
  | heldAccepted state sent fire valid seen next =>
    refine ⟨?_, fun _ => next.2.2.2.1 ▸ h.request state⟩
    rw [next.2.2.2.2]
    split
    · exact hl
    · exact hr4 state
  | awaits state sent fire valid seen next =>
    exact ⟨next.2.2.2.2 ▸ hl, fun _ => next.2.2.2.1 ▸ h.request state⟩
  | arrives state sent launch fire valid seen next =>
    exact ⟨next.2 ▸ hl, fun hb => by simp [next.1] at hb⟩
  | recycled state sent launch valid seen next =>
    refine ⟨?_, fun _ => next.2.2.2.1 ▸ hl⟩
    rw [next.2.2.2.2]
    split <;> assumption

/-- A reset makes them aligned if `RESET_VECTOR` is. -/
theorem Aligned.of_reset (hrst : i.rst = true) (h : Word.Aligned w) :
    Aligned (q.next i w) := by
  have hnext : q.next i w = q.reset i w := if_pos hrst
  rw [hnext, IfStage.reset]
  split <;> exact ⟨h, fun _ => h⟩

/-- The holding register is the one computed before the slot. -/
private theorem next_packet_fields (hrst : i.rst = false) :
    (q.next i w).packetValidQ = (q.nextPacket i).packetValidQ ∧
      (q.next i w).packetPcQ = (q.nextPacket i).packetPcQ ∧
      (q.next i w).packetInsnQ = (q.nextPacket i).packetInsnQ ∧
      (q.next i w).packetExcQ = (q.nextPacket i).packetExcQ := by
  obtain ⟨pc, pending, hr⟩ := nextRedirect_eq (i := i) (q.nextPacket i)
  rw [next_eq w hrst, hr]
  cases q.stateQ with
  | idle =>
    rw [if_pos rfl, nextIdle]
    split_ifs <;> exact ⟨rfl, rfl, rfl, rfl⟩
  | busy =>
    rw [if_neg (by simp), nextBusy]
    split_ifs <;> exact ⟨rfl, rfl, rfl, rfl⟩

/-- The holding register after a cycle without reset. -/
theorem next_packet (hrst : i.rst = false) : Packet q i (q.next i w) := by
  obtain ⟨hv, hpc, hinsn, hexc⟩ := next_packet_fields (q := q) (w := w) hrst
  constructor
  · intro hl hc
    rw [hv, hpc, hinsn, hexc]
    simp [nextPacket, hl, hc]
  · intro hl
    rw [hv, hpc, hinsn, hexc]
    simp only [nextPacket, hl, Bool.false_eq_true, if_false]
    by_cases hc : (killEvent i || q.packetConsumed i) = true
    · rw [if_pos hc]
      refine ⟨?_, rfl, rfl, rfl⟩
      -- a packet is killed, consumed or kept; `packetConsumed` needs a valid packet
      simp only [packetConsumed] at hc
      grind
    · rw [if_neg hc]
      refine ⟨?_, rfl, rfl, rfl⟩
      simp only [packetConsumed] at hc
      grind

/-- Without a redirect, a flush forgets the remembered one and nothing sets it. -/
theorem next_pending (hrst : i.rst = false) (hred : i.redirectValid = false)
    (h : i.flush = true ∨ q.redirectPendingQ = false) :
    (q.next i w).redirectPendingQ = false := by
  have hp : (nextRedirect i (q.nextPacket i)).redirectPendingQ = false := by
    obtain ⟨v, pc, insn, exc, hp⟩ := nextPacket_eq (q := q) (i := i)
    rw [hp]
    simp only [nextRedirect, hred]
    cases hf : i.flush <;> simp_all
  rw [next_eq w hrst]
  -- the slot can only clear the remembered redirect
  generalize nextRedirect i (q.nextPacket i) = q' at hp
  cases q.stateQ with
  | idle =>
    rw [if_pos rfl, nextIdle]
    split_ifs <;> first | rfl | exact hp
  | busy =>
    rw [if_neg (by simp), nextBusy]
    split_ifs <;> first | rfl | exact hp

/-! ### The unit and the history of its port -/

variable {ρ : Type*} {ch : Channel ρ MemRsp}

/-- The unit awaits exactly the response the channel owes; unless it will be dropped, it is the
response to one of the requests `mine`. -/
structure Port (q : IfStage) (ch : Channel ρ MemRsp) (mine : ρ → Prop) : Prop where
  quiet : q.stateQ = .idle ∨ q.requestSentQ = false → ch.Quiet
  sent : q.stateQ = .busy → q.requestSentQ = true →
    ∃ r, ch.Owes r ∧ (q.discardQ = false → mine r)

/-- The next packet is the one at `pc`. It is held, or on its way, or still to be requested;
`l` is the request the port carries for a fetch. -/
structure Live (l : Word → ρ) (q : IfStage) (ch : Channel ρ MemRsp) (pc : Word) : Prop
    extends Port q ch (· = l q.requestPcQ) where
  packet : q.packetValidQ = true → q.stateQ = .idle ∧ q.packetPcQ = pc ∧ q.nextPcQ = pc + 4#32 ∧
    ∃ k rsp, k + 1 = ch.answered.length ∧ ch.AnsweredAt k (l pc) rsp ∧
      q.packetInsnQ = (IfId.fetched pc rsp).insn ∧ q.packetExcQ = (IfId.fetched pc rsp).exc
  idle : q.stateQ = .idle → q.packetValidQ = false → q.nextPcQ = pc
  sent' : q.stateQ = .busy → q.requestSentQ = true → q.discardQ = false →
    q.requestPcQ = pc ∧ q.nextPcQ = pc + 4#32
  held : q.stateQ = .busy → q.requestSentQ = false → q.discardQ = false →
    q.requestPcQ = pc ∧ q.nextPcQ = pc
  stale : q.stateQ = .busy → q.discardQ = true → q.nextPcQ = pc

/-- Nothing will be handed over before a redirect. -/
structure Dead (q : IfStage) : Prop where
  packet : q.packetValidQ = false
  pending : q.redirectPendingQ = false
  stale : q.stateQ = .busy → q.discardQ = true

/-- A quiet channel that accepts nothing gets no response. -/
private theorem rsp_of_quiet (hq : ch.Quiet) (hok : ch.Ok none i.imem.rsp) :
    i.imem.rspValid = false := by
  by_contra hne
  have hv : i.imem.rspValid = true := by simpa using hne
  rw [MemIn.rsp_of_valid hv] at hok
  exact hq.not_ok _ hok

/-- The channel after a cycle without reset, given what an accepted request is. -/
theorem Port.next {mine m : ρ → Prop} {acc : Option ρ} (h : Port q ch mine)
    (hrst : i.rst = false) (hacc : acc.isSome = q.requestFire i) (hok : ch.Ok acc i.imem.rsp)
    (hnew : ∀ r, acc = some r → (q.next i w).stateQ = .busy →
      (q.next i w).discardQ = false → m r)
    (hkeep : q.stateQ = .busy → q.requestStale i = false →
      (q.next i w).requestPcQ = q.requestPcQ → ∀ r, mine r → m r) :
    Port (q.next i w) (ch.step acc i.imem.rsp) m := by
  have hslot := next_slot (q := q) (w := w) hrst
  have hnone (hf : q.requestFire i = false) : acc = none := by
    rw [hf] at hacc
    simpa using hacc
  have hsome (hf : q.requestFire i = true) : ∃ r, acc = some r := by
    rw [hf] at hacc
    exact Option.isSome_iff_exists.mp hacc
  -- one case per branch of the slot, each a step of the channel
  generalize q.next i w = q' at hslot hnew hkeep
  cases hslot with
  | stays state launch fire seen next =>
    obtain rfl := hnone fire
    have hq := h.quiet (.inl state)
    rw [MemIn.rsp_of_not_valid (rsp_of_quiet hq hok)]
    exact ⟨fun _ => hq.step_none, fun hs => by simp [next.1] at hs⟩
  | answered state launch fire valid seen next =>
    obtain ⟨r, rfl⟩ := hsome fire
    rw [MemIn.rsp_of_valid valid]
    exact ⟨fun _ => (h.quiet (.inl state)).step_some_some .., fun hs => by simp [next.1] at hs⟩
  | launched state launch open' seen next =>
    have hq := h.quiet (.inl state)
    obtain ⟨hbusy, hsent, -, -⟩ := next
    cases hf : q.requestFire i with
    | false =>
      obtain rfl := hnone hf
      rw [MemIn.rsp_of_not_valid (rsp_of_quiet hq hok)]
      exact ⟨fun _ => hq.step_none, fun _ hs => by simp [hsent, hf] at hs⟩
    | true =>
      obtain ⟨r, rfl⟩ := hsome hf
      rw [MemIn.rsp_of_not_valid (open' hf)]
      refine ⟨fun hs => by simp [hbusy, hsent, hf] at hs, fun _ _ => ⟨r, hq.step_some_none r, ?_⟩⟩
      exact hnew r rfl hbusy
  | held state sent fire seen next =>
    obtain rfl := hnone fire
    have hq := h.quiet (.inr sent)
    rw [MemIn.rsp_of_not_valid (rsp_of_quiet hq hok)]
    exact ⟨fun _ => hq.step_none, fun _ hs => by simp [next.2.1] at hs⟩
  | heldAnswered state sent fire valid seen next =>
    obtain ⟨r, rfl⟩ := hsome fire
    rw [MemIn.rsp_of_valid valid]
    exact ⟨fun _ => (h.quiet (.inr sent)).step_some_some .., fun hs => by simp [next.1] at hs⟩
  | heldAccepted state sent fire valid seen next =>
    obtain ⟨r, rfl⟩ := hsome fire
    rw [MemIn.rsp_of_not_valid valid]
    refine ⟨fun hs => by simp [next.1, next.2.1] at hs, fun _ _ => ⟨r, ?_, hnew r rfl next.1⟩⟩
    exact (h.quiet (.inr sent)).step_some_none r
  | awaits state sent fire valid seen next =>
    obtain rfl := hnone fire
    obtain ⟨r, howes, hmine⟩ := h.sent state sent
    rw [MemIn.rsp_of_not_valid valid, Channel.step_none_none]
    refine ⟨fun hs => by simp [next.1, next.2.1] at hs, fun _ _ => ⟨r, howes, fun hd => ?_⟩⟩
    -- the request stays the one of the slot unless a kill has marked it
    rw [next.2.2.1] at hd
    refine hkeep state hd next.2.2.2.1 r (hmine ?_)
    simp only [requestStale, Bool.or_eq_false_iff] at hd
    exact hd.1
  | arrives state sent launch fire valid seen next =>
    obtain rfl := hnone fire
    obtain ⟨r, howes, -⟩ := h.sent state sent
    rw [MemIn.rsp_of_valid valid]
    exact ⟨fun _ => howes.step_none_some _, fun hs => by simp [next.1] at hs⟩
  | recycled state sent launch valid seen next =>
    obtain ⟨r, howes, -⟩ := h.sent state sent
    obtain ⟨hbusy, hsent, -, -⟩ := next
    rw [MemIn.rsp_of_valid valid]
    cases hf : q.requestFire i with
    | false =>
      obtain rfl := hnone hf
      exact ⟨fun _ => howes.step_none_some _, fun _ hs => by simp [hsent, hf] at hs⟩
    | true =>
      obtain ⟨r', rfl⟩ := hsome hf
      exact ⟨fun hs => by simp [hbusy, hsent, hf] at hs,
        fun _ _ => ⟨r', howes.step_some_some .., hnew r' rfl hbusy⟩⟩

/-- Every response the memory gives is one the unit awaits. -/
theorem Port.responseSeen {mine : ρ → Prop} {acc : Option ρ} (h : Port q ch mine)
    (hrst : i.rst = false) (hacc : acc.isSome = q.requestFire i) (hok : ch.Ok acc i.imem.rsp) :
    q.responseSeen i = i.imem.rspValid := by
  -- where the unit awaits nothing the channel is quiet and the memory silent
  have hnone (hq : ch.Quiet) (hf : q.requestFire i = false) : i.imem.rspValid = false := by
    rw [hf] at hacc
    obtain rfl : acc = none := by simpa using hacc
    exact rsp_of_quiet hq hok
  cases next_slot (q := q) (w := 0#32) hrst with
  | stays state launch fire seen next => rw [seen, hnone (h.quiet (.inl state)) fire]
  | answered state launch fire valid seen next => rw [seen, valid]
  | launched state launch open' seen next =>
    rw [seen]
    cases hf : q.requestFire i with
    | false => exact (hnone (h.quiet (.inl state)) hf).symm
    | true => exact (open' hf).symm
  | held state sent fire seen next => rw [seen, hnone (h.quiet (.inr sent)) fire]
  | heldAnswered state sent fire valid seen next => rw [seen, valid]
  | heldAccepted state sent fire valid seen next => rw [seen, valid]
  | awaits state sent fire valid seen next => rw [seen, valid]
  | arrives state sent launch fire valid seen next => rw [seen, valid]
  | recycled state sent launch valid seen next => rw [seen, valid]

/-- A request is accepted only while none is unanswered, or in the cycle of the answer. -/
theorem Port.single {mine : ρ → Prop} (h : Port q ch mine) (hrst : i.rst = false)
    (hf : q.requestFire i = true) :
    ch.Quiet ∨ i.imem.rspValid = true ∧ ∃ r, ch.Owes r := by
  cases next_slot (q := q) (w := 0#32) hrst with
  | stays state launch fire seen next => simp [fire] at hf
  | answered state launch fire valid seen next => exact .inl (h.quiet (.inl state))
  | launched state launch open' seen next => exact .inl (h.quiet (.inl state))
  | held state sent fire seen next => simp [fire] at hf
  | heldAnswered state sent fire valid seen next => exact .inl (h.quiet (.inr sent))
  | heldAccepted state sent fire valid seen next => exact .inl (h.quiet (.inr sent))
  | awaits state sent fire valid seen next => simp [fire] at hf
  | arrives state sent launch fire valid seen next => simp [fire] at hf
  | recycled state sent launch valid seen next =>
    obtain ⟨r, howes, -⟩ := h.sent state sent
    exact .inr ⟨valid, r, howes⟩

/-- A reset drains the request outstanding, if there is one. -/
theorem Port.reset {mine m : ρ → Prop} {acc : Option ρ} (h : Port q ch mine)
    (hrst : i.rst = true) (hacc : acc.isSome = q.requestFire i) (hok : ch.Ok acc i.imem.rsp) :
    Port (q.next i w) (ch.step acc i.imem.rsp) m := by
  have hnext : q.next i w = q.reset i w := if_pos hrst
  -- `imem_req_valid_o` is gated by the reset, so nothing new is accepted in it
  have hfire : q.requestFire i = false := by simp [requestFire, reqValid, hrst]
  rw [hfire] at hacc
  obtain rfl : acc = none := by simpa using hacc
  rw [hnext, IfStage.reset]
  by_cases hs : q.stateQ = .busy ∧ q.requestSentQ = true
  · obtain ⟨r, howes, -⟩ := h.sent hs.1 hs.2
    -- an answer in the reset cycle itself leaves nothing to drain
    cases hv : i.imem.rspValid with
    | true =>
      rw [MemIn.rsp_of_valid hv, if_neg (by simp)]
      exact ⟨fun _ => howes.step_none_some _, by simp⟩
    | false =>
      rw [MemIn.rsp_of_not_valid hv, if_pos ⟨hs.1, hs.2, rfl⟩, Channel.step_none_none]
      exact ⟨by simp, fun _ _ => ⟨r, howes, by simp⟩⟩
  · have hq : ch.Quiet := by
      refine h.quiet ?_
      cases hst : q.stateQ with
      | idle => exact .inl rfl
      | busy => simpa [hst] using hs
    rw [MemIn.rsp_of_not_valid (rsp_of_quiet hq hok), if_neg (fun hc => hs ⟨hc.1, hc.2.1⟩)]
    exact ⟨fun _ => hq.step_none, by simp⟩

/-! ### The next packet -/

section Step

variable {l : Word → ρ} {acc : Option ρ} {pc : Word}

/-- A live response is the answer to the request for its address. -/
theorem Port.response (h : Port q ch (· = l q.requestPcQ)) (hrst : i.rst = false)
    (hacc : acc.isSome = q.requestFire i)
    (hlbl : ∀ r, acc = some r → (q.heldRequest = true → q.requestStale i = false) →
      r = l (q.reqAddr i))
    (hl : q.responseLive i = true) :
    (ch.step acc i.imem.rsp).AnsweredAt ch.answered.length (l (q.responsePc i)) (busRsp i) := by
  simp only [responseLive, Bool.and_eq_true, Bool.not_eq_true'] at hl
  obtain ⟨hseen, hstale⟩ := hl
  have hsome (hf : q.requestFire i = true) : ∃ r, acc = some r := by
    rw [hf] at hacc
    exact Option.isSome_iff_exists.mp hacc
  have hheld (hs : q.stateQ = .busy) (hsent : q.requestSentQ = false) :
      q.heldRequest = true := by simp [heldRequest, hs, hsent]
  cases next_slot (q := q) (w := 0#32) hrst with
  | stays state launch fire seen next => simp [seen] at hseen
  -- accepted and answered in this cycle: the label is that of the presented address
  | answered state launch fire valid seen next =>
    obtain ⟨r, rfl⟩ := hsome fire
    have hnh : q.heldRequest = false := by simp [heldRequest, state]
    have hr : r = l (q.responsePc i) := by
      simpa [reqAddr, responsePc, hnh, state] using hlbl r rfl (by simp [hnh])
    rw [MemIn.rsp_of_valid valid, ← hr]
    exact (h.quiet (.inl state)).answeredAt ..
  | launched state launch open' seen next => simp [seen] at hseen
  | held state sent fire seen next => simp [seen] at hseen
  | heldAnswered state sent fire valid seen next =>
    obtain ⟨r, rfl⟩ := hsome fire
    have hst : q.requestStale i = false := by simpa [responseStale, state] using hstale
    have hr : r = l (q.responsePc i) := by
      simpa [reqAddr, responsePc, hheld state sent, state] using hlbl r rfl fun _ => hst
    rw [MemIn.rsp_of_valid valid, ← hr]
    exact (h.quiet (.inr sent)).answeredAt ..
  | heldAccepted state sent fire valid seen next => simp [seen] at hseen
  | awaits state sent fire valid seen next => simp [seen] at hseen
  -- accepted before: the channel owes just this answer
  | arrives state sent launch fire valid seen next =>
    have hst : q.requestStale i = false := by simpa [responseStale, state] using hstale
    obtain ⟨r, howes, hr⟩ := h.sent state sent
    have hr := hr (by simp only [requestStale, Bool.or_eq_false_iff] at hst; exact hst.1)
    rw [MemIn.rsp_of_valid valid, responsePc, if_pos state, ← hr]
    exact howes.answeredAt ..
  | recycled state sent launch valid seen next =>
    have hst : q.requestStale i = false := by simpa [responseStale, state] using hstale
    obtain ⟨r, howes, hr⟩ := h.sent state sent
    have hr := hr (by simp only [requestStale, Bool.or_eq_false_iff] at hst; exact hst.1)
    rw [MemIn.rsp_of_valid valid, responsePc, if_pos state, ← hr]
    exact howes.answeredAt ..

/-- A held packet keeps the slot idle. -/
theorem Live.packet_of_busy (h : Live l q ch pc) (hs : q.stateQ = .busy) :
    q.packetValidQ = false := by
  by_contra hne
  have := (h.packet (by simpa using hne)).1
  simp [hs] at this

/-- The address of a live response: the next packet, or the one after a held packet. -/
theorem Live.responsePc (h : Live l q ch pc) (hkill : killEvent i = false)
    (hl : q.responseLive i = true) :
    q.responsePc i = if q.packetValidQ then pc + 4#32 else pc := by
  simp only [responseLive, Bool.and_eq_true, Bool.not_eq_true'] at hl
  have hred : i.redirectValid = false := by
    simp only [killEvent, Bool.or_eq_false_iff] at hkill
    exact hkill.2
  cases hs : q.stateQ with
  | idle =>
    have hpc : q.responsePc i = q.nextPcQ := by simp [IfStage.responsePc, hs, launchPc, hred]
    rw [hpc]
    cases hv : q.packetValidQ with
    | false => simpa using h.idle hs hv
    | true => simpa using (h.packet hv).2.2.1
  | busy =>
    have hv := h.packet_of_busy hs
    have hd : q.discardQ = false := by
      have := hl.2
      simp only [responseStale, hs, if_true, requestStale, Bool.or_eq_false_iff] at this
      exact this.1
    have hpc : q.responsePc i = q.requestPcQ := by simp [IfStage.responsePc, hs]
    rw [hpc, hv]
    cases hsent : q.requestSentQ with
    | false => simpa using (h.held hs hsent hd).1
    | true => simpa using (h.sent' hs hsent hd).1

/-- The packet offered to the pipeline is the next one. -/
theorem Live.fetch (h : Live l q ch pc) (hrst : i.rst = false)
    (hacc : acc.isSome = q.requestFire i)
    (hlbl : ∀ r, acc = some r → (q.heldRequest = true → q.requestStale i = false) →
      r = l (q.reqAddr i))
    (hv : q.fetchValid i = true) :
    ∃ k rsp, k + q.packetValidQ.toNat = ch.answered.length ∧
      (ch.step acc i.imem.rsp).AnsweredAt k (l pc) rsp ∧
      q.fetchPacket i = IfId.fetched pc rsp := by
  have hv' := hv
  simp only [fetchValid, Bool.and_eq_true, Bool.not_eq_true', Bool.or_eq_true] at hv'
  obtain ⟨⟨-, hkill⟩, hsrc⟩ := hv'
  cases hp : q.packetValidQ with
  | true =>
    -- the held packet was captured in an earlier cycle, and its answer stays what it was
    obtain ⟨-, hpc, -, k, rsp, hk, hans, hinsn, hexc⟩ := h.packet hp
    refine ⟨k, rsp, by simpa using hk, hans.step .., ?_⟩
    simp only [fetchPacket, hv, hp, if_true, hpc, hinsn, hexc]
    rfl
  | false =>
    -- without a held packet the response of this cycle passes through
    have hl : q.responseLive i = true := by simpa [hp] using hsrc
    have hpc : q.responsePc i = pc := by simpa [hp] using h.responsePc hkill hl
    have hans := h.toPort.response hrst hacc hlbl hl
    rw [hpc] at hans
    refine ⟨_, busRsp i, by simp, hans, ?_⟩
    simp only [fetchPacket, hv, hp, if_true, Bool.false_eq_true, if_false, responseInsn,
      responseExc, hpc]
    rfl

/-- A unit without a request in its slot. -/
private theorem Live.of_idle (hport : Port q ch (· = l q.requestPcQ)) (hs : q.stateQ = .idle)
    (hv : q.packetValidQ = true → q.packetPcQ = pc ∧ q.nextPcQ = pc + 4#32 ∧
      ∃ k rsp, k + 1 = ch.answered.length ∧ ch.AnsweredAt k (l pc) rsp ∧
        q.packetInsnQ = (IfId.fetched pc rsp).insn ∧ q.packetExcQ = (IfId.fetched pc rsp).exc)
    (hn : q.packetValidQ = false → q.nextPcQ = pc) : Live l q ch pc where
  toPort := hport
  packet hp := ⟨hs, hv hp⟩
  idle _ := hn
  sent' hb := by simp [hs] at hb
  held hb := by simp [hs] at hb
  stale hb := by simp [hs] at hb

/-- A unit with a request in its slot. -/
private theorem Live.of_busy (hport : Port q ch (· = l q.requestPcQ)) (hs : q.stateQ = .busy)
    (hv : q.packetValidQ = false)
    (hlive : q.discardQ = false →
      q.requestPcQ = pc ∧ q.nextPcQ = if q.requestSentQ then pc + 4#32 else pc)
    (hstale : q.discardQ = true → q.nextPcQ = pc) : Live l q ch pc where
  toPort := hport
  packet hp := by simp [hv] at hp
  idle hb := by simp [hs] at hb
  sent' _ hsent hd := by simpa [hsent] using hlive hd
  held _ hsent hd := by simpa [hsent] using hlive hd
  stale _ := hstale

/-- The next packet after a cycle without reset and kill: it advances if one is consumed. -/
private def after (q : IfStage) (i : In) (pc : Word) : Word :=
  if i.consume && (q.packetValidQ || q.responseLive i) then pc + 4#32 else pc

/-- A busy slot without live response hands nothing over. -/
private theorem Live.after_of_busy (h : Live l q ch pc) (hs : q.stateQ = .busy)
    (hl : q.responseLive i = false) : after q i pc = pc := by
  simp [after, hl, h.packet_of_busy hs]

section Cases

-- the unit and the history after the cycle
variable {q' : IfStage} {ch' : Channel ρ MemRsp}

/-- Nothing is requested, and nothing happens but that a held packet may be consumed. -/
private theorem Live.next_idle (h : Live l q ch pc) (hkill : killEvent i = false)
    (hpkt : Packet q i q') (hport : Port q' ch (· = l q'.requestPcQ)) (state : q.stateQ = .idle)
    (hl : q.responseLive i = false) (hs' : q'.stateQ = .idle) (hnext : q'.nextPcQ = q.nextPcQ) :
    Live l q' ch (after q i pc) := by
  obtain ⟨hkv, hkpc, hkinsn, hkexc⟩ := hpkt.kept (by simp [hl])
  refine .of_idle hport hs' (fun hv => ?_) fun hv => ?_
  · rw [hkv] at hv
    simp only [Bool.and_eq_true, Bool.not_eq_true'] at hv
    obtain ⟨-, hppc, hn, hans⟩ := h.packet hv.1.1
    have hpc : after q i pc = pc := by simp [after, hv.2]
    rw [hpc, hkpc, hkinsn, hkexc, hnext]
    exact ⟨hppc, hn, hans⟩
  · rw [hnext, after, hl]
    cases hpv : q.packetValidQ with
    | false => simpa using h.idle state hpv
    | true =>
      rw [hkv, hpv, hkill] at hv
      simpa [show i.consume = true by simpa using hv] using (h.packet hpv).2.2.1

/-- A live response frees the slot: it is handed over or held. -/
private theorem Live.next_response (h : Live l q ch pc) (hkill : killEvent i = false)
    (hpkt : Packet q i q') (hport : Port q' ch' (· = l q'.requestPcQ))
    (hl : q.responseLive i = true)
    (hans : ch'.AnsweredAt ch.answered.length (l (q.responsePc i)) (busRsp i))
    (hlen : ch'.answered.length = ch.answered.length + 1)
    (hv : q.packetValidQ = true → i.consume = true) (hs' : q'.stateQ = .idle)
    (hnext : q'.nextPcQ = q.responsePc i + 4#32) : Live l q' ch' (after q i pc) := by
  have hp := h.responsePc hkill hl
  have hcons : q.responseConsumed i = (!q.packetValidQ && i.consume) := by
    simp [responseConsumed, hkill, hl]
  cases hc : q.responseConsumed i with
  | true =>
    -- handed over at once, so the next packet is still to be requested
    have hpv' : q'.packetValidQ = false := by
      rw [(hpkt.kept (by simp [hl, hc])).1]
      grind
    refine .of_idle hport hs' (fun hne => by simp [hpv'] at hne) fun _ => ?_
    rw [hnext, hp, after]
    grind
  | false =>
    -- not consumed, so the holding register takes it with its address
    obtain ⟨hpv', hppc, hpinsn, hpexc⟩ := hpkt.captured hl hc
    have heq : q.responsePc i = after q i pc := by
      rw [hp, after]
      grind
    rw [heq] at hnext hppc hans
    refine .of_idle hport hs' (fun _ => ⟨hppc, hnext, _, busRsp i, hlen.symm, hans, hpinsn, ?_⟩)
      fun hne => by simp [hpv'] at hne
    rw [hpexc, responseExc, heq]
    rfl

/-- A stale response frees the slot for the next packet. -/
private theorem Live.next_dropped (h : Live l q ch pc) (hpkt : Packet q i q')
    (hport : Port q' ch' (· = l q'.requestPcQ)) (state : q.stateQ = .busy)
    (hd : q.discardQ = true) (hl : q.responseLive i = false) (hs' : q'.stateQ = .idle)
    (hnext : q'.nextPcQ = q.nextPcQ) : Live l q' ch' (after q i pc) := by
  rw [h.after_of_busy state hl]
  refine .of_idle hport hs' (fun hv => ?_) fun _ => hnext.trans (h.stale state hd)
  simp [(hpkt.kept (by simp [hl])).1, h.packet_of_busy state] at hv

/-- The request stays in the slot. It is live and keeps its address, or stale and will be
dropped. -/
private theorem Live.next_busy (h : Live l q ch pc) (hpkt : Packet q i q')
    (hport : Port q' ch' (· = l q'.requestPcQ)) (state : q.stateQ = .busy)
    (hl : q.responseLive i = false) (hs' : q'.stateQ = .busy) (hd' : q'.discardQ = q.discardQ)
    (hreq : q'.requestPcQ = q.requestPcQ)
    (hlive : q.discardQ = false →
      q'.nextPcQ = if q'.requestSentQ then q.requestPcQ + 4#32 else q.requestPcQ)
    (hstale : q.discardQ = true → q'.nextPcQ = q.nextPcQ) : Live l q' ch' (after q i pc) := by
  rw [h.after_of_busy state hl]
  refine .of_busy hport hs' (by simp [(hpkt.kept (by simp [hl])).1, h.packet_of_busy state])
    (fun hd => ?_) fun hd => ?_
  · rw [hd'] at hd
    have hpc : q.requestPcQ = pc := by
      cases hsent : q.requestSentQ with
      | false => exact (h.held state hsent hd).1
      | true => exact (h.sent' state hsent hd).1
    rw [hreq, hlive hd, hpc]
    exact ⟨rfl, rfl⟩
  · rw [hd'] at hd
    exact (hstale hd).trans (h.stale state hd)

/-- A request for the next packet enters the slot. -/
private theorem Live.of_launched (hport : Port q' ch' (· = l q'.requestPcQ))
    (hpv : q'.packetValidQ = false) (hs' : q'.stateQ = .busy) (hd' : q'.discardQ = false)
    (hreq : q'.requestPcQ = pc)
    (hnext : q'.nextPcQ = if q'.requestSentQ then pc + 4#32 else pc) : Live l q' ch' pc :=
  .of_busy hport hs' hpv (fun _ => ⟨hreq, hnext⟩) fun hd => by simp [hd'] at hd

end Cases

/-- A request is launched behind a held packet or an awaited response only if that is consumed, so
the request is the one for the next packet. -/
private theorem Live.nextPc_of_launch (h : Live l q ch pc) (hkill : killEvent i = false)
    (hlaunch : q.launchRequest i = true) (hv : q.stateQ = .busy → q.responseSeen i = true)
    (hnone : q.stateQ = .idle → q.responseSeen i = false)
    (hsent : q.stateQ = .busy → q.requestSentQ = true) : q.nextPcQ = after q i pc := by
  have hred : i.redirectValid = false := by
    simp only [killEvent, Bool.or_eq_false_iff] at hkill
    exact hkill.2
  cases hs : q.stateQ with
  | idle =>
    have hc : q.packetValidQ = true → i.consume = true := fun hp => by
      simp only [launchRequest, hs, if_true] at hlaunch
      grind
    cases hp : q.packetValidQ with
    | false => simpa [after, hp, responseLive, hnone hs] using h.idle hs hp
    | true => simpa [after, hp, hc hp] using (h.packet hp).2.2.1
  | busy =>
    have hp := h.packet_of_busy hs
    have hlive : q.responseLive i = !q.discardQ := by
      simp [responseLive, hv hs, responseStale, requestStale, hs, hkill]
    cases hd : q.discardQ with
    | true => simpa [after, hp, hlive, hd] using h.stale hs hd
    | false =>
      -- a live response has to be consumed in this cycle
      have hc : i.consume = true := by
        simp only [launchRequest, hs, hred, hd, hsent hs] at hlaunch
        grind
      simpa [after, hp, hlive, hd, hc] using (h.sent' hs (hsent hs) hd).2

/-- A cycle without reset and kill: the next packet advances if it is consumed. -/
theorem Live.next (h : Live l q ch pc) (hrst : i.rst = false) (hkill : killEvent i = false)
    (hacc : acc.isSome = q.requestFire i) (hok : ch.Ok acc i.imem.rsp)
    (hlbl : ∀ r, acc = some r → (q.heldRequest = true → q.requestStale i = false) →
      r = l (q.reqAddr i)) :
    Live l (q.next i w) (ch.step acc i.imem.rsp)
      (if i.consume && q.fetchValid i then pc + 4#32 else pc) := by
  have hred : i.redirectValid = false := by
    simp only [killEvent, Bool.or_eq_false_iff] at hkill
    exact hkill.2
  have hlaunch : q.launchPc i = q.nextPcQ := by simp [launchPc, hred]
  have hst : q.requestStale i = q.discardQ := by simp [requestStale, hkill]
  have hslot := next_slot (q := q) (w := w) hrst
  have hpkt := next_packet (q := q) (w := w) hrst
  have hport := h.toPort.next (w := w)
    (m := (· = l (q.next i w).requestPcQ)) hrst hacc hok
  have hresp := h.toPort.response hrst hacc hlbl
  have hafter : (if i.consume && q.fetchValid i then pc + 4#32 else pc) = after q i pc := by
    simp [after, fetchValid, hrst, hkill]
  rw [hafter]
  generalize q.next i w = q' at hslot hpkt hport
  have hlive : q.responseLive i = (q.responseSeen i && !q.responseStale i) := rfl
  have hlen (valid : i.imem.rspValid = true) :
      (ch.step acc i.imem.rsp).answered.length = ch.answered.length + 1 := by
    simp [MemIn.rsp_of_valid valid]
  -- a live request keeps its address
  have hkeep : q.stateQ = .busy → q.requestStale i = false → q'.requestPcQ = q.requestPcQ →
      ∀ r, r = l q.requestPcQ → r = l q'.requestPcQ := fun _ _ hpc r hr => by rw [hpc]; exact hr
  -- nothing is launched, the slot is launched or waits, or its response arrives
  cases hslot with
  | stays state launch fire seen next =>
    have hnone : acc = none := by simpa [fire] using hacc
    have hrsp : i.imem.rspValid = false := rsp_of_quiet (h.quiet (.inl state)) (hnone ▸ hok)
    have hport := hport (fun r hr => by simp [hnone] at hr) hkeep
    rw [hnone, MemIn.rsp_of_not_valid hrsp, Channel.step_none_none] at hport ⊢
    exact h.next_idle hkill hpkt hport state (by simp [hlive, seen]) next.1
      (next.2.trans hlaunch)
  | answered state launch fire valid seen next =>
    have hl : q.responseLive i = true := by simp [hlive, seen, responseStale, state]
    refine h.next_response hkill hpkt (hport (fun r _ hb => by simp [next.1] at hb) hkeep) hl
      (hresp hl) (hlen valid) (fun hv => ?_) next.1 ?_
    · exact (by simpa [launchRequest, state, hkill, hv] using launch : _ ∧ _).2
    · rw [next.2, IfStage.responsePc, state]
      rfl
  | launched state launch open' seen next =>
    obtain ⟨hs', hsent', hd', hreq', hnext'⟩ := next
    have hnh : q.heldRequest = false := by simp [heldRequest, state]
    have hpc : q.nextPcQ = after q i pc := h.nextPc_of_launch hkill launch
      (fun hs => by simp [state] at hs) (fun _ => seen) fun hs => by simp [state] at hs
    refine .of_launched (hport (fun r hr _ _ => ?_) hkeep) ?_ hs' hd'
      (by rw [hreq', hlaunch, hpc]) (by rw [hnext', hsent', hlaunch, hpc])
    · rw [hlbl r hr (by simp [hnh]), reqAddr, hreq']
      simp [hnh]
    · rw [(hpkt.kept (by simp [hlive, seen])).1]
      simp only [launchRequest, state, if_true] at launch
      grind
  | held state sent fire seen next =>
    obtain ⟨hs', hsent', hd', hreq', hnext'⟩ := next
    have hnone : acc = none := by simpa [fire] using hacc
    refine h.next_busy hpkt (hport (fun r hr => by simp [hnone] at hr) hkeep) state
      (by simp [hlive, seen]) hs' (hd'.trans hst) hreq' (fun hd => ?_)
      fun _ => hnext'.trans hlaunch
    -- a live request that is held is the one for the next address
    obtain ⟨hreq, hn⟩ := h.held state sent hd
    simp [hsent', hnext', hlaunch, hreq, hn]
  | heldAnswered state sent fire valid seen next =>
    have hport := hport (fun r _ hb => by simp [next.1] at hb) hkeep
    cases hd : q.discardQ with
    | true =>
      -- the response of a cancelled fetch only frees the slot
      refine h.next_dropped hpkt hport state hd
        (by simp [hlive, responseStale, state, hst, hd]) next.1 ?_
      rw [next.2, hst, hd, if_pos rfl, hlaunch]
    | false =>
      have hl : q.responseLive i = true := by simp [hlive, seen, responseStale, state, hst, hd]
      refine h.next_response hkill hpkt hport hl (hresp hl) (hlen valid)
        (fun hv => by simp [h.packet_of_busy state] at hv) next.1 ?_
      rw [next.2, hst, hd, IfStage.responsePc, state]
      rfl
  | heldAccepted state sent fire valid seen next =>
    obtain ⟨hs', hsent', hd', hreq', hnext'⟩ := next
    refine h.next_busy hpkt (hport (fun r hr _ hd => ?_) hkeep) state (by simp [hlive, seen]) hs'
      (hd'.trans hst) hreq' (fun hd => by simp [hnext', hst, hd, hsent'])
      fun hd => by simp [hnext', hst, hd, hlaunch]
    rw [hd'] at hd
    rw [hlbl r hr fun _ => hd, reqAddr, hreq']
    simp [heldRequest, state, sent]
  | awaits state sent fire valid seen next =>
    obtain ⟨hs', hsent', hd', hreq', hnext'⟩ := next
    have hnone : acc = none := by simpa [fire] using hacc
    refine h.next_busy hpkt (hport (fun r hr => by simp [hnone] at hr) hkeep) state
      (by simp [hlive, seen]) hs' (hd'.trans hst) hreq' (fun hd => ?_)
      fun _ => hnext'.trans hlaunch
    obtain ⟨hreq, hn⟩ := h.sent' state sent hd
    simp [hsent', hnext', hlaunch, hreq, hn]
  | arrives state sent launch fire valid seen next =>
    have hport := hport (fun r _ hb => by simp [next.1] at hb) hkeep
    cases hd : q.discardQ with
    | true =>
      exact h.next_dropped hpkt hport state hd
        (by simp [hlive, responseStale, state, hst, hd]) next.1 (next.2.trans hlaunch)
    | false =>
      have hl : q.responseLive i = true := by simp [hlive, seen, responseStale, state, hst, hd]
      obtain ⟨hreq, hn⟩ := h.sent' state sent hd
      refine h.next_response hkill hpkt hport hl (hresp hl) (hlen valid)
        (fun hv => by simp [h.packet_of_busy state] at hv) next.1 ?_
      rw [next.2, hlaunch, hn, IfStage.responsePc, if_pos state, hreq]
  | recycled state sent launch valid seen next =>
    obtain ⟨hs', hsent', hd', hreq', hnext'⟩ := next
    have hnh : q.heldRequest = false := by simp [heldRequest, sent]
    have hpc : q.nextPcQ = after q i pc := h.nextPc_of_launch hkill launch (fun _ => seen)
      (fun hs => by simp [state] at hs) fun _ => sent
    refine .of_launched (hport (fun r hr _ _ => ?_) hkeep) ?_ hs' hd'
      (by rw [hreq', hlaunch, hpc]) (by rw [hnext', hsent', hlaunch, hpc])
    · rw [hlbl r hr (by simp [hnh]), reqAddr, hreq']
      simp [hnh]
    · -- the slot is reused at once only if the answer is stale or consumed
      have hp := h.packet_of_busy state
      have hc : (q.responseLive i && !q.responseConsumed i) = false := by
        simp only [launchRequest, state, hred, sent, valid] at launch
        simp only [responseConsumed, hlive, seen, responseStale, state, hst, hp, hkill]
        grind
      rw [(hpkt.kept hc).1, hp]
      rfl

/-- No response is lost: what was held or arrives is handed over or held. -/
theorem Live.conserves (h : Live l q ch pc) (hrst : i.rst = false)
    (hkill : killEvent i = false) (hacc : acc.isSome = q.requestFire i)
    (hok : ch.Ok acc i.imem.rsp) (hstale : q.stateQ = .busy → q.discardQ = false) :
    q.packetValidQ.toNat + i.imem.rspValid.toNat =
      (i.consume && q.fetchValid i).toNat + (q.next i w).packetValidQ.toNat := by
  have hseen := h.toPort.responseSeen hrst hacc hok
  have hpkt := next_packet (q := q) (w := w) hrst
  have hlive : q.responseLive i = i.imem.rspValid := by
    have hst : q.responseStale i = false := by
      cases hs : q.stateQ with
      | idle => simp [responseStale, hs]
      | busy => simp [responseStale, requestStale, hs, hkill, hstale hs]
    simp [responseLive, hseen, hst]
  have hfv : q.fetchValid i = (q.packetValidQ || i.imem.rspValid) := by
    simp [IfStage.fetchValid, hrst, hkill, hlive]
  -- a held packet that is not consumed keeps the slot idle
  have hheld : q.packetValidQ = true → i.consume = false → i.imem.rspValid = false := by
    intro hv hc
    have hidle := (h.packet hv).1
    rw [← hseen, responseSeen, hidle, launchRequest, hidle]
    simp [hkill, hv, hc]
  have hcons : q.responseConsumed i = (i.imem.rspValid && !q.packetValidQ && i.consume) := by
    simp [responseConsumed, hkill, hlive]
  rw [hfv]
  cases hc : q.responseLive i && !q.responseConsumed i with
  | true =>
    have hc' := Bool.and_eq_true_iff.mp hc
    rw [(hpkt.captured hc'.1 (by simpa using hc'.2)).1]
    rw [hlive, hcons] at hc
    cases hv : q.packetValidQ <;> cases hr : i.imem.rspValid <;> cases hcn : i.consume <;>
      simp_all
  | false =>
    rw [(hpkt.kept hc).1, hkill]
    rw [hlive, hcons] at hc
    cases hv : q.packetValidQ <;> cases hr : i.imem.rspValid <;> cases hcn : i.consume <;>
      simp_all

/-- A redirect makes its target the next packet and everything in flight stale, whatever the
unit was doing. -/
theorem Port.redirect {mine : ρ → Prop} (h : Port q ch mine) (hrst : i.rst = false)
    (hred : i.redirectValid = true) (hacc : acc.isSome = q.requestFire i)
    (hok : ch.Ok acc i.imem.rsp)
    (hlbl : ∀ r, acc = some r → q.heldRequest = false → r = l i.redirectPc) :
    Live l (q.next i w) (ch.step acc i.imem.rsp) i.redirectPc := by
  have hkill : killEvent i = true := by simp [killEvent, hred]
  have hlaunch : q.launchPc i = i.redirectPc := by simp [launchPc, hred]
  have hst : q.requestStale i = true := by simp [requestStale, hkill]
  have hslot := next_slot (q := q) (w := w) hrst
  have hpkt := next_packet (q := q) (w := w) hrst
  have hport := h.next (w := w)
    (m := (· = l (q.next i w).requestPcQ)) hrst hacc hok
  generalize q.next i w = q' at hslot hpkt hport
  have hkept (hl : q.responseLive i = false) : q'.packetValidQ = false := by
    simp [(hpkt.kept (by simp [hl])).1, hkill]
  -- whatever was outstanding is stale, so no old response is live
  have hnl (hs : q.stateQ = .busy) : q.responseLive i = false := by
    simp [responseLive, responseStale, hs, hst]
  have hstale : q.stateQ = .busy → q.requestStale i = false → q'.requestPcQ = q.requestPcQ →
      ∀ r, mine r → r = l q'.requestPcQ := fun _ hne => by simp [hst] at hne
  cases hslot with
  | stays state launch fire seen next =>
    have hv := hkept (by simp [responseLive, seen])
    exact .of_idle (hport (fun r _ hb => by simp [next.1] at hb) hstale) next.1
      (fun hne => by simp [hv] at hne) fun _ => by rw [next.2, hlaunch]
  | answered state launch fire valid seen next =>
    -- only the fetch of the target itself can be answered in this cycle
    have hl : q.responseLive i = true := by simp [responseLive, seen, responseStale, state]
    -- a kill keeps the response of this cycle from the pipeline, but it is captured
    obtain ⟨hpv', hppc, hpinsn, hpexc⟩ := hpkt.captured hl (by simp [responseConsumed, hkill])
    have hrpc : q.responsePc i = i.redirectPc := by simp [IfStage.responsePc, state, hlaunch]
    rw [fire] at hacc
    obtain ⟨r, rfl⟩ := Option.isSome_iff_exists.mp hacc
    have hr := hlbl r rfl (by simp [heldRequest, state])
    rw [hrpc] at hppc
    refine .of_idle (hport (fun r _ hb => by simp [next.1] at hb) hstale) next.1 (fun _ => ?_)
      fun hne => by simp [hpv'] at hne
    rw [MemIn.rsp_of_valid valid]
    refine ⟨hppc, by rw [next.2, hlaunch], ch.answered.length, busRsp i, by simp, ?_, hpinsn, ?_⟩
    · rw [← hr]
      exact (h.quiet (.inl state)).answeredAt ..
    · rw [hpexc, responseExc, hrpc]
      rfl
  | launched state launch open' seen next =>
    obtain ⟨hst', hsent', hd', hreq', hnext'⟩ := next
    refine .of_busy (hport (fun r hr _ _ => ?_) hstale) hst' (hkept (by simp [responseLive, seen]))
      (fun _ => ?_) fun hd => by simp [hd'] at hd
    · rw [hreq', hlaunch]
      exact hlbl r hr (by simp [heldRequest, state])
    · rw [hreq', hnext', hsent', hlaunch]
      exact ⟨rfl, rfl⟩
  | held state sent fire seen next =>
    obtain ⟨hst', hsent', hd', hreq', hnext'⟩ := next
    exact .of_busy (hport (fun r _ _ hd => by simp [hd', hst] at hd) hstale) hst'
      (hkept (hnl state)) (fun hd => by simp [hd', hst] at hd) fun _ => by rw [hnext', hlaunch]
  | heldAnswered state sent fire valid seen next =>
    have hv := hkept (hnl state)
    refine .of_idle (hport (fun r _ hb => by simp [next.1] at hb) hstale) next.1
      (fun hne => by simp [hv] at hne) fun _ => ?_
    rw [next.2, hst, if_pos rfl, hlaunch]
  | heldAccepted state sent fire valid seen next =>
    obtain ⟨hst', hsent', hd', hreq', hnext'⟩ := next
    refine .of_busy (hport (fun r _ _ hd => by simp [hd', hst] at hd) hstale) hst'
      (hkept (hnl state)) (fun hd => by simp [hd', hst] at hd) fun _ => ?_
    rw [hnext', hst, if_pos rfl, hlaunch]
  | awaits state sent fire valid seen next =>
    obtain ⟨hst', hsent', hd', hreq', hnext'⟩ := next
    exact .of_busy (hport (fun r _ _ hd => by simp [hd', hst] at hd) hstale) hst'
      (hkept (hnl state)) (fun hd => by simp [hd', hst] at hd) fun _ => by rw [hnext', hlaunch]
  | arrives state sent launch fire valid seen next =>
    have hv := hkept (hnl state)
    exact .of_idle (hport (fun r _ hb => by simp [next.1] at hb) hstale) next.1
      (fun hne => by simp [hv] at hne) fun _ => by rw [next.2, hlaunch]
  | recycled state sent launch valid seen next =>
    obtain ⟨hst', hsent', hd', hreq', hnext'⟩ := next
    refine .of_busy (hport (fun r hr _ _ => ?_) hstale) hst' (hkept (hnl state))
      (fun _ => ?_) fun hd => by simp [hd'] at hd
    · rw [hreq', hlaunch]
      exact hlbl r hr (by simp [heldRequest, sent])
    · rw [hreq', hnext', hsent', hlaunch]
      exact ⟨rfl, rfl⟩

/-- A cycle without reset in which nothing is requested and no live response arrives leaves the
unit dead, if every request outstanding is stale then. -/
private theorem Dead.of_not_launch {mine m : ρ → Prop} (h : Port q ch mine)
    (hrst : i.rst = false) (hacc : acc.isSome = q.requestFire i) (hok : ch.Ok acc i.imem.rsp)
    (hlaunch : q.launchRequest i = false)
    (hst : q.stateQ = .busy → q.requestStale i = true)
    (hpacket : (q.packetValidQ && !killEvent i && !i.consume) = false)
    (hpending : (q.next i w).redirectPendingQ = false) :
    Dead (q.next i w) ∧ Port (q.next i w) (ch.step acc i.imem.rsp) m := by
  have hnl : q.responseLive i = false := by
    cases hs : q.stateQ with
    | idle => simp [responseLive, responseSeen, hs, hlaunch]
    | busy => simp [responseLive, responseStale, hs, hst hs]
  have hpkt := next_packet (q := q) (w := w) hrst
  have hslot := next_slot (q := q) (w := w) hrst
  -- the mark stays on until the answer is dropped
  have hstale : (q.next i w).stateQ = .busy → (q.next i w).discardQ = true := by
    intro hb
    cases hslot with
    | held state sent fire seen next => rw [next.2.2.1, hst state]
    | heldAccepted state sent fire valid seen next => rw [next.2.2.1, hst state]
    | awaits state sent fire valid seen next => rw [next.2.2.1, hst state]
    | _ => simp_all
  refine ⟨⟨?_, hpending, hstale⟩, h.next hrst hacc hok (fun r _ hb hd => ?_) fun hs hne => ?_⟩
  · rw [(hpkt.kept (by simp [hnl])).1, hpacket]
  · simp [hstale hb] at hd
  · simp [hst hs] at hne

/-- A flush without redirect kills everything. -/
theorem Port.flush {mine m : ρ → Prop} (h : Port q ch mine) (hrst : i.rst = false)
    (hflush : i.flush = true) (hred : i.redirectValid = false)
    (hacc : acc.isSome = q.requestFire i) (hok : ch.Ok acc i.imem.rsp) :
    Dead (q.next i w) ∧ Port (q.next i w) (ch.step acc i.imem.rsp) m := by
  have hkill : killEvent i = true := by simp [killEvent, hflush]
  refine Dead.of_not_launch h hrst hacc hok ?_ (fun _ => by simp [requestStale, hkill])
    (by simp [hkill]) (next_pending hrst hred (.inl hflush))
  simp [launchRequest, wantFetch, hflush, hred]

/-- A dead unit that is not enabled stays dead. -/
theorem Dead.next {mine m : ρ → Prop} (hd : Dead q) (h : Port q ch mine)
    (hrst : i.rst = false) (hkill : killEvent i = false) (henable : i.enable = false)
    (hacc : acc.isSome = q.requestFire i) (hok : ch.Ok acc i.imem.rsp) :
    Dead (q.next i w) ∧ Port (q.next i w) (ch.step acc i.imem.rsp) m := by
  have hred : i.redirectValid = false := by
    simp only [killEvent, Bool.or_eq_false_iff] at hkill
    exact hkill.2
  refine Dead.of_not_launch h hrst hacc hok ?_ (fun hs => by simp [requestStale, hd.stale hs])
    (by simp [hd.packet]) (next_pending hrst hred (.inr hd.pending))
  simp [launchRequest, wantFetch, henable, hred, hd.pending]

/-- A dead unit offers nothing. -/
theorem Dead.fetchValid (hd : Dead q) (hkill : killEvent i = false) (henable : i.enable = false) :
    q.fetchValid i = false := by
  have hred : i.redirectValid = false := by
    simp only [killEvent, Bool.or_eq_false_iff] at hkill
    exact hkill.2
  have hlaunch : q.launchRequest i = false := by
    simp [launchRequest, wantFetch, henable, hred, hd.pending]
  have hnl : q.responseLive i = false := by
    cases hs : q.stateQ with
    | idle => simp [responseLive, responseSeen, hs, hlaunch]
    | busy => simp [responseLive, responseStale, requestStale, hs, hd.stale hs]
  simp [IfStage.fetchValid, hd.packet, hnl]

/-- The unit after a reset that had nothing to drain. -/
theorem Live.init : Live l { nextPcQ := w, requestPcQ := w }
    ({} : Channel ρ MemRsp) w :=
  .of_idle ⟨fun _ => rfl, fun hb => by simp at hb⟩ rfl (fun hv => by simp at hv) fun _ => rfl

/-- A unit that has just been reset and follows its port fetches from `RESET_VECTOR`. -/
theorem Port.live_reset {mine : ρ → Prop} (h : Port (q.reset i w) ch mine) :
    Live l (q.reset i w) ch w := by
  unfold IfStage.reset at h ⊢
  split at h
  next hs =>
    rw [if_pos hs]
    have hport : Port _ ch (· = l w) :=
      ⟨h.quiet, fun hb hsent => by
        obtain ⟨r, howes, -⟩ := h.sent hb hsent
        exact ⟨r, howes, fun hd => by simp at hd⟩⟩
    -- the request to drain is stale, and the next one goes to `RESET_VECTOR`
    exact .of_busy hport rfl rfl (fun hd => by simp at hd) fun _ => rfl
  next hs =>
    rw [if_neg hs]
    exact .of_idle ⟨h.quiet, fun hb => by simp at hb⟩ rfl (fun hv => by simp at hv) fun _ => rfl

/-- After a reset the next packet is the one at `RESET_VECTOR`. -/
theorem Port.reset_live {mine : ρ → Prop} (h : Port q ch mine) (hrst : i.rst = true)
    (hacc : acc.isSome = q.requestFire i) (hok : ch.Ok acc i.imem.rsp) :
    Live l (q.next i w) (ch.step acc i.imem.rsp) w := by
  have hport := h.reset (w := w) (m := fun _ => True) hrst hacc hok
  have hnext : q.next i w = q.reset i w := if_pos hrst
  rw [hnext] at hport ⊢
  exact hport.live_reset

end Step

end IfStage

end Rv32im

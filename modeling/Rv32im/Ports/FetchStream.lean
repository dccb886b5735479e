import Rv32im.Ports.Fetch
import Rv32im.Clocked.Circuit

/-!
# The fetch stream

The fetch unit driven as the core drives it, connected to a memory that answers every accepted
request exactly once and in order. Flushes, redirects and resets start a new epoch; every
request carries the epoch in which it was first presented.

* `FetchSystem`: the unit, the history of its port, and the packets consumed since the last
  redirect or reset;
* `FetchSystem.circuit`: how it may be driven;
* `FetchSystem.Stream`: the packets consumed are the answers to consecutive fetches from the
  last target;
* `FetchSystem.fetch_stream`: this holds in every run.
-/

namespace Rv32im

open Clocked

/-- The fetch unit and the observations of its environment. -/
structure FetchSystem where
  fetch : IfStage
  /-- The requests accepted, each with the epoch it was issued in, and the responses. -/
  imem : Channel (ℕ × MemReq) MemRsp := {}
  /-- The number of flushes, redirects and resets so far. -/
  epoch : ℕ := 0
  /-- The epoch of the request in the slot. -/
  slotEpoch : ℕ := 0
  /-- No flush without redirect since the last redirect or reset. -/
  live : Bool := true
  /-- The epoch started by the last redirect or reset, -/
  start : ℕ := 0
  /-- its target, -/
  target : Word
  /-- and the packets consumed since. -/
  consumed : List IfId := []

namespace FetchSystem

/-- The unit after reset, with no request outstanding. -/
def init (resetVector : Word) : FetchSystem where
  fetch := { nextPcQ := resetVector, requestPcQ := resetVector }
  target := resetVector

variable (s : FetchSystem) (i : IfStage.In)

/-- The epoch of this cycle: a kill or a reset starts a new one. -/
def epochNow : ℕ := if i.rst || IfStage.killEvent i then s.epoch + 1 else s.epoch

/-- The epoch of the request presented in this cycle. -/
def requestEpoch : ℕ := if s.fetch.heldRequest then s.slotEpoch else s.epochNow i

/-- The request accepted in this cycle. -/
def request : Option (ℕ × MemReq) :=
  if s.fetch.requestFire i then some (s.requestEpoch i, s.fetch.req i) else none

/-- The port's history after this cycle. -/
def imemAfter : Channel (ℕ × MemReq) MemRsp := s.imem.step (s.request i) i.imem.rsp

/-- The driving of the unit: a consumer is enabled and not flushing, a redirect flushes, and
after a flush without redirect the unit stays disabled. -/
structure Driven : Prop where
  consume : i.consume = true → i.enable = true ∧ i.flush = false
  redirect : i.redirectValid = true → i.flush = true
  dead : s.live = false → IfStage.killEvent i = false → i.enable = false ∧ i.consume = false

/-- Whether the unit is driven in this way can be computed. -/
instance : Decidable (s.Driven i) :=
  decidable_of_iff
    ((i.consume = true → i.enable = true ∧ i.flush = false) ∧
      (i.redirectValid = true → i.flush = true) ∧
      (s.live = false → IfStage.killEvent i = false → i.enable = false ∧ i.consume = false))
    ⟨fun h => ⟨h.1, h.2.1, h.2.2⟩, fun h => ⟨h.consume, h.redirect, h.dead⟩⟩

/-- Any stalls, flushes, redirects, resets, ready patterns and response delays, as long as the
unit is driven in this way and the memory answers accepted requests only. -/
def circuit (resetVector : Word) : Circuit FetchSystem IfStage.In where
  legal s i := s.imem.Ok (s.request i) i.imem.rsp ∧ (i.rst = false → s.Driven i)
  next s i :=
    { fetch := s.fetch.next i resetVector
      imem := s.imemAfter i
      epoch := s.epochNow i
      slotEpoch := s.requestEpoch i
      live := if i.rst || i.redirectValid then true else if i.flush then false else s.live
      start := if i.rst || i.redirectValid then s.epochNow i else s.start
      target := if i.rst then resetVector else if i.redirectValid then i.redirectPc else s.target
      consumed :=
        if i.rst || i.redirectValid then []
        else if i.consume && s.fetch.fetchValid i then s.consumed ++ [s.fetch.fetchPacket i]
        else s.consumed }

/-- Whether a cycle is legal can be computed. -/
instance (resetVector : Word) (s : FetchSystem) (i : IfStage.In) :
    Decidable ((circuit resetVector).legal s i) :=
  inferInstanceAs (Decidable (_ ∧ (_ → _)))

/-- The address of the `j`-th packet after the last redirect or reset. -/
def pcAt (j : ℕ) : Word := s.target + BitVec.ofNat 32 (4 * j)

/-- The request for it. -/
def fetchOf (j : ℕ) : ℕ × MemReq := (s.start, { addr := s.pcAt j })

/-- The packets consumed since the last redirect or reset are the answers to the fetches of
consecutive addresses from its target, all issued in its epoch and answered one after the
other. -/
def Stream : Prop :=
  ∃ first, ∀ j, (hj : j < s.consumed.length) → ∃ rsp,
    s.imem.AnsweredAt (first + j) (s.fetchOf j) rsp ∧
      s.consumed[j] = IfId.fetched (s.pcAt j) rsp

/-- The packet offered next continues the stream and answers a fetch of the current epoch. -/
def Offers : Prop :=
  s.fetch.fetchValid i = true → s.start = s.epoch ∧
    ∃ rsp, (s.imemAfter i).Answered (s.fetchOf s.consumed.length) rsp ∧
      s.fetch.fetchPacket i = IfId.fetched (s.pcAt s.consumed.length) rsp

/-- In the current epoch everything belongs to the stream. -/
structure Inv (s : FetchSystem) : Prop where
  epoch : s.live = true → s.epoch = s.start
  next : s.live = true →
    s.fetch.Live (fun pc => (s.epoch, ({ addr := pc } : MemReq))) s.imem (s.pcAt s.consumed.length)
  held : s.live = true → s.fetch.heldRequest = true → s.fetch.discardQ = false →
    s.slotEpoch = s.epoch
  stale : s.live = true → s.fetch.stateQ = .busy → s.fetch.discardQ = true → s.consumed = []
  dead : s.live = false → s.fetch.Dead ∧ s.fetch.Port s.imem fun _ => True
  stream : ∃ first, (∀ j, (hj : j < s.consumed.length) → ∃ rsp,
      s.imem.AnsweredAt (first + j) (s.fetchOf j) rsp ∧
        s.consumed[j] = IfId.fetched (s.pcAt j) rsp) ∧
    (s.live = true → s.consumed = [] ∧ s.fetch.packetValidQ = false ∨
      first + s.consumed.length + s.fetch.packetValidQ.toNat =
        s.imem.answered.length)

variable {s i} {resetVector : Word}

/-- A request is accepted when the unit and the memory agree on it. -/
theorem request_isSome : (s.request i).isSome = s.fetch.requestFire i := by
  unfold request
  split <;> simp_all

/-- The request accepted is a fetch of the current epoch unless it is stale. -/
theorem Inv.request_eq (h : Inv s) (hlive : s.live = true) (hrst : i.rst = false)
    (hkill : IfStage.killEvent i = false) (r : ℕ × MemReq) (hr : s.request i = some r)
    (hst : s.fetch.heldRequest = true → s.fetch.requestStale i = false) :
    r = (s.epoch, { addr := s.fetch.reqAddr i }) := by
  unfold request at hr
  split at hr
  next =>
    obtain rfl := Option.some.inj hr
    have hnow : s.epochNow i = s.epoch := by simp [epochNow, hrst, hkill]
    -- a live held request keeps the epoch in which it was first presented
    have htag : s.requestEpoch i = s.epoch := by
      unfold requestEpoch
      split
      next hh =>
        refine h.held hlive hh ?_
        have := hst hh
        simp only [IfStage.requestStale, Bool.or_eq_false_iff] at this
        exact this.1
      next => exact hnow
    rw [htag]
    rfl
  next => simp at hr

/-- The packet offered is the next of the stream. -/
theorem Inv.offers (h : Inv s) (hl : (circuit resetVector).legal s i) (hrst : i.rst = false) :
    Offers s i := by
  intro hv
  have hkill : IfStage.killEvent i = false := by
    simp only [IfStage.fetchValid, Bool.and_eq_true, Bool.not_eq_true'] at hv
    exact hv.1.2
  cases hlive : s.live with
  | false =>
    -- between a flush and the next redirect the unit is not enabled and offers nothing
    have henable := (hl.2 hrst).dead hlive hkill
    rw [(h.dead hlive).1.fetchValid hkill henable.1] at hv
    simp at hv
  | true =>
    have hep := h.epoch hlive
    obtain ⟨k, rsp, -, hans, hpkt⟩ := (h.next hlive).fetch hrst request_isSome
      (h.request_eq hlive hrst hkill) hv
    refine ⟨hep.symm, rsp, ⟨k, ?_⟩, hpkt⟩
    rw [fetchOf, ← hep]
    exact hans

/-- The unit follows its port in either mode. -/
theorem Inv.port (h : Inv s) :
    s.fetch.Port s.imem fun r => s.live = true → r = (s.epoch, { addr := s.fetch.requestPcQ }) := by
  cases hlive : s.live with
  | true =>
    have hport := (h.next hlive).toPort
    exact ⟨hport.quiet, fun hb hs => by simpa using hport.sent hb hs⟩
  | false =>
    have hport := (h.dead hlive).2
    refine ⟨hport.quiet, fun hb hs => ?_⟩
    obtain ⟨r, hr, -⟩ := hport.sent hb hs
    exact ⟨r, hr, fun _ hne => by simp at hne⟩

/-- A redirect or a reset starts a new stream. -/
private theorem Inv.restart {s' : FetchSystem} (hlive : s'.live = true)
    (hepoch : s'.epoch = s'.start) (hcons : s'.consumed = [])
    (hnext : s'.fetch.Live (fun pc => (s'.epoch, ({ addr := pc } : MemReq))) s'.imem s'.target)
    (hheld : s'.fetch.heldRequest = true → s'.fetch.discardQ = false → s'.slotEpoch = s'.epoch) :
    Inv s' := by
  refine ⟨fun _ => hepoch, fun _ => ?_, fun _ => hheld, fun _ _ _ => hcons,
    fun hd => by simp [hlive] at hd, ?_⟩
  · simpa [hcons, pcAt] using hnext
  · cases hv : s'.fetch.packetValidQ with
    | false => exact ⟨0, fun j hj => by simp [hcons] at hj, fun _ => .inl ⟨hcons, rfl⟩⟩
    | true =>
      -- the first packet may have been answered in the very cycle of the redirect
      obtain ⟨-, -, -, k, rsp, hk, -⟩ := hnext.packet hv
      exact ⟨k, fun j hj => by simp [hcons] at hj, fun _ => .inr (by simpa [hcons, hv] using hk)⟩

/-- The consumed packets stay answered. -/
private theorem answeredAt_after {first : ℕ}
    (h : ∀ j, (hj : j < s.consumed.length) → ∃ rsp,
      s.imem.AnsweredAt (first + j) (s.fetchOf j) rsp ∧
        s.consumed[j] = IfId.fetched (s.pcAt j) rsp) (j : ℕ) (hj : j < s.consumed.length) :
    ∃ rsp, (s.imemAfter i).AnsweredAt (first + j) (s.fetchOf j) rsp ∧
      s.consumed[j] = IfId.fetched (s.pcAt j) rsp := by
  obtain ⟨rsp, hans, hpkt⟩ := h j hj
  exact ⟨rsp, hans.step .., hpkt⟩

/-- A flush without redirect. -/
private theorem Inv.flush (h : Inv s) (hok : s.imem.Ok (s.request i) i.imem.rsp)
    (hrst : i.rst = false) (hred : i.redirectValid = false) (hflush : i.flush = true) :
    Inv ((circuit resetVector).next s i) := by
  have hkill : IfStage.killEvent i = true := by simp [IfStage.killEvent, hflush]
  have hfv : s.fetch.fetchValid i = false := by simp [IfStage.fetchValid, hkill]
  have hdead := h.port.flush (w := resetVector) (m := fun _ => True) hrst hflush hred
    request_isSome hok
  have hlive : ((circuit resetVector).next s i).live = false := by
    simp [circuit, hrst, hred, hflush]
  obtain ⟨first, hcons, -⟩ := h.stream
  refine ⟨fun hl => by simp [hlive] at hl, fun hl => by simp [hlive] at hl,
    fun hl => by simp [hlive] at hl, fun hl => by simp [hlive] at hl, fun _ => hdead,
    first, ?_, fun hl => by simp [hlive] at hl⟩
  simpa [circuit, hrst, hred, hfv, fetchOf, pcAt] using answeredAt_after (i := i) hcons

/-- A cycle of a dead unit. -/
private theorem Inv.step_dead (h : Inv s) (hok : s.imem.Ok (s.request i) i.imem.rsp)
    (hrst : i.rst = false) (hkill : IfStage.killEvent i = false) (hlive : s.live = false)
    (henable : i.enable = false) : Inv ((circuit resetVector).next s i) := by
  obtain ⟨hflush, hred⟩ := Bool.or_eq_false_iff.mp hkill
  obtain ⟨hdead, hport⟩ := h.dead hlive
  have hfv := hdead.fetchValid hkill henable
  have hdead' := hdead.next (w := resetVector) (m := fun _ => True) hport hrst hkill
    henable request_isSome hok
  have hlive' : ((circuit resetVector).next s i).live = false := by
    simp [circuit, hrst, hred, hflush, hlive]
  obtain ⟨first, hcons, -⟩ := h.stream
  refine ⟨fun hl => by simp [hlive'] at hl, fun hl => by simp [hlive'] at hl,
    fun hl => by simp [hlive'] at hl, fun hl => by simp [hlive'] at hl, fun _ => hdead',
    first, ?_, fun hl => by simp [hlive'] at hl⟩
  simpa [circuit, hrst, hred, hfv, fetchOf, pcAt] using answeredAt_after (i := i) hcons

/-- The next address is that of the next word. -/
theorem pcAt_succ (s : FetchSystem) (j : ℕ) : s.pcAt (j + 1) = s.pcAt j + 4#32 := by
  simp [pcAt, Nat.mul_add, BitVec.ofNat_add, BitVec.add_assoc]

/-- A cycle of a live unit: the next packet may be handed over. -/
private theorem Inv.step_live (h : Inv s) (hok : s.imem.Ok (s.request i) i.imem.rsp)
    (hrst : i.rst = false) (hkill : IfStage.killEvent i = false) (hlive : s.live = true) :
    Inv ((circuit resetVector).next s i) := by
  obtain ⟨hflush, hred⟩ := Bool.or_eq_false_iff.mp hkill
  have hreq := h.request_eq hlive hrst hkill
  have hnow : s.epochNow i = s.epoch := by simp [epochNow, hrst, hkill]
  have hnext := (h.next hlive).next (w := resetVector) hrst hkill request_isSome hok hreq
  have hfetch := (h.next hlive).fetch hrst request_isSome hreq
  -- a stale request out means that nothing of the new stream has arrived
  have hstale (hs : s.fetch.stateQ = .busy) (hd : s.fetch.discardQ = true) :
      s.consumed = [] ∧ s.fetch.packetValidQ = false ∧ s.fetch.fetchValid i = false := by
    have hv : s.fetch.packetValidQ = false := by
      by_contra hne
      have := ((h.next hlive).packet (by simpa using hne)).1
      simp [hs] at this
    refine ⟨h.stale hlive hs hd, hv, ?_⟩
    simp [IfStage.fetchValid, hv, IfStage.responseLive, IfStage.responseStale, hs,
      IfStage.requestStale, hd]
  -- the history of the port grows by the response of this cycle
  have hlen : (s.imemAfter i).answered.length = s.imem.answered.length + i.imem.rspValid.toNat := by
    cases hv : i.imem.rspValid <;> simp [imemAfter, MemIn.rsp, hv]
  generalize hs' : (circuit resetVector).next s i = s'
  have hfields : s'.fetch = s.fetch.next i resetVector ∧ s'.imem = s.imemAfter i ∧
      s'.epoch = s.epoch ∧ s'.slotEpoch = s.requestEpoch i ∧ s'.live = true ∧
      s'.start = s.start ∧ s'.target = s.target ∧
      s'.consumed = if i.consume && s.fetch.fetchValid i then
        s.consumed ++ [s.fetch.fetchPacket i] else s.consumed := by
    simp [← hs', circuit, hrst, hred, hflush, hlive, hnow]
  obtain ⟨hf, him, hep, hslot, hlv, hst, htg, hcs⟩ := hfields
  -- target and epoch stay, so the addresses and requests of the stream do
  have hpc (j : ℕ) : s'.pcAt j = s.pcAt j := by simp [pcAt, htg]
  have hof (j : ℕ) : s'.fetchOf j = s.fetchOf j := by simp [fetchOf, hst, hpc]
  refine ⟨fun _ => by rw [hep, hst, h.epoch hlive], fun _ => ?_, fun _ hh hd => ?_,
    fun _ hb hd => ?_, fun hne => by simp [hlv] at hne, ?_⟩
  · rw [hf, him, hep, hpc, hcs]
    split at hnext
    next hc =>
      rw [if_pos hc, List.length_append, List.length_singleton, pcAt_succ]
      exact hnext
    next hc =>
      rw [if_neg hc]
      exact hnext
  · rw [hf] at hh hd
    rw [hslot, hep, requestEpoch, hnow]
    rcases IfStage.heldRequest_next hrst hh hd with hno | hlv'
    · simp [hno]
    · split
      next hheld =>
        simp only [IfStage.requestStale, Bool.or_eq_false_iff] at hlv'
        exact h.held hlive hheld hlv'.1
      next => rfl
  · rw [hf] at hb hd
    -- only a request of an older epoch can be stale
    obtain ⟨hbusy, hst'⟩ := IfStage.stale_next hrst hb hd
    have hd' : s.fetch.discardQ = true := by simpa [IfStage.requestStale, hkill] using hst'
    obtain ⟨hnil, -, hfv⟩ := hstale hbusy hd'
    rw [hcs, hfv, hnil]
    simp
  · obtain ⟨first, hcons, hpos⟩ := h.stream
    have hold := answeredAt_after (i := i) hcons
    by_cases hempty : s.consumed = [] ∧ s.fetch.packetValidQ = false ∧
        (i.consume && s.fetch.fetchValid i) = false
    · -- the stream has not begun
      obtain ⟨hnil, -, hb⟩ := hempty
      rw [hb, if_neg (by simp), hnil] at hcs
      rw [hb, if_neg (by simp)] at hnext
      cases hv : s'.fetch.packetValidQ with
      | false => exact ⟨0, fun j hj => by simp [hcs] at hj, fun _ => .inl ⟨hcs, rfl⟩⟩
      | true =>
        obtain ⟨-, -, -, k, rsp, hk, -⟩ := hnext.packet (hf ▸ hv)
        exact ⟨k, fun j hj => by simp [hcs] at hj,
              fun _ => .inr (by simpa [hcs, him, imemAfter, hv] using hk)⟩
    -- from here on some packet of the stream exists, so nothing stale is out
    have hlive' (hs : s.fetch.stateQ = .busy) : s.fetch.discardQ = false := by
      by_contra hne
      obtain ⟨hnil, hv, hfv⟩ := hstale hs (by simpa using hne)
      exact hempty ⟨hnil, hv, by simp [hfv]⟩
    have hcount := (h.next hlive).conserves (w := resetVector) hrst hkill request_isSome
      hok hlive'
    rw [← hf] at hcount
    cases hb : i.consume && s.fetch.fetchValid i with
    | true =>
      -- the packet handed over is the last of the answers so far, so it extends the stream
      obtain ⟨k, rsp, hk, hans, hpkt⟩ := hfetch (Bool.and_eq_true_iff.mp hb).2
      obtain ⟨first', hold', hkf⟩ : ∃ first', (∀ j, (hj : j < s.consumed.length) → ∃ rsp,
          (s.imemAfter i).AnsweredAt (first' + j) (s.fetchOf j) rsp ∧
            s.consumed[j] = IfId.fetched (s.pcAt j) rsp) ∧ first' + s.consumed.length = k := by
        rcases hpos hlive with ⟨hnil, -⟩ | hpos
        · -- the first packet of the stream fixes where it begins
          exact ⟨k, fun j hj => by simp [hnil] at hj, by simp [hnil]⟩
        · exact ⟨first, hold, by omega⟩
      rw [hb, if_pos rfl] at hcs
      refine ⟨first', fun j hj => ?_, fun _ => .inr ?_⟩
      · rw [him, hof, hpc]
        simp only [hcs, List.length_append, List.length_singleton] at hj ⊢
        by_cases hlt : j < s.consumed.length
        · obtain ⟨rsp', hans', heq⟩ := hold' j hlt
          exact ⟨rsp', hans', by rw [List.getElem_append_left hlt, heq]⟩
        · obtain rfl : j = s.consumed.length := by omega
          refine ⟨rsp, ?_, by simpa using hpkt⟩
          rw [hkf, fetchOf, ← h.epoch hlive]
          exact hans
      · rw [him, hlen, hcs, List.length_append, List.length_singleton]
        rw [hb, Bool.toNat_true] at hcount
        omega
    | false =>
      rw [hb, if_neg (by simp)] at hcs
      have hpos : first + s.consumed.length + s.fetch.packetValidQ.toNat =
          s.imem.answered.length := by
        rcases hpos hlive with ⟨hnil, hv⟩ | hpos
        · exact absurd ⟨hnil, hv, hb⟩ hempty
        · exact hpos
      refine ⟨first, fun j hj => ?_, fun _ => .inr ?_⟩
      · rw [him, hof, hpc]
        simp only [hcs] at hj ⊢
        exact hold j hj
      · rw [him, hlen, hcs]
        rw [hb, Bool.toNat_false] at hcount
        omega

/-- Every cycle keeps the invariant. -/
theorem Inv.step (h : Inv s) (hl : (circuit resetVector).legal s i) :
    Inv ((circuit resetVector).next s i) := by
  obtain ⟨hok, hdriven⟩ := hl
  have hport := h.port
  -- a reset or a redirect starts an epoch, a flush alone ends the one before
  cases hrst : i.rst with
  | true =>
    have hepoch : s.epochNow i = s.epoch + 1 := by simp [epochNow, hrst]
    refine .restart ?_ ?_ ?_ ?_ fun hheld hd => ?_
    · simp [circuit, hrst]
    · simp [circuit, hrst]
    · simp [circuit, hrst]
    · simpa [circuit, imemAfter, hrst] using hport.reset_live hrst request_isSome hok
    · have hnext : s.fetch.next i resetVector = s.fetch.reset i resetVector := if_pos hrst
      simp only [circuit, hnext, IfStage.reset] at hheld hd
      split at hheld <;> simp [IfStage.heldRequest] at hheld
  | false =>
    cases hred : i.redirectValid with
    | true =>
      have hkill : IfStage.killEvent i = true := by simp [IfStage.killEvent, hred]
      -- a request launched with the redirect is one for its target in the new epoch
      have hlbl : ∀ r, s.request i = some r → s.fetch.heldRequest = false →
          r = (s.epochNow i, { addr := i.redirectPc }) := by
        intro r hr hh
        unfold request at hr
        split at hr
        · obtain rfl := Option.some.inj hr
          simp [requestEpoch, hh, IfStage.req, IfStage.reqAddr, IfStage.launchPc, hred]
        · simp at hr
      refine .restart ?_ ?_ ?_ ?_ fun hheld hd => ?_
      · simp [circuit, hred]
      · simp [circuit, hred]
      · simp [circuit, hred]
      · simpa [circuit, imemAfter, hrst, hred] using hport.redirect (w := resetVector)
          (l := fun pc => (s.epochNow i, ({ addr := pc } : MemReq))) hrst hred request_isSome
          hok hlbl
      · rcases IfStage.heldRequest_next hrst hheld hd with hh | hst
        · simp [circuit, requestEpoch, hh]
        · simp [IfStage.requestStale, hkill] at hst
    | false =>
      have hflush : IfStage.killEvent i = i.flush := by simp [IfStage.killEvent, hred]
      cases hkill : i.flush with
      | true => exact h.flush hok hrst hred hkill
      | false =>
        rw [hkill] at hflush
        cases hlive : s.live with
        | true => exact h.step_live hok hrst hflush hlive
        | false => exact h.step_dead hok hrst hflush hlive ((hdriven hrst).dead hlive hflush).1

/-- In every run of the unit, the packets consumed since the last redirect or reset have
consecutive addresses from its target, each is the answer to the fetch of its address issued
in that epoch, and the packet offered next continues them. -/
theorem fetch_stream {is : List IfStage.In}
    (h : (circuit resetVector).Run (init resetVector) is s) :
    Stream s ∧ ∀ i, (circuit resetVector).legal s i → i.rst = false → Offers s i := by
  have hinv : Inv s := by
    refine h.invariant ?_ fun s i hs hl => hs.step hl
    refine .restart rfl rfl rfl ?_ fun hh => by simp [init, IfStage.heldRequest] at hh
    exact .init
  obtain ⟨first, hcons, -⟩ := hinv.stream
  exact ⟨⟨first, hcons⟩, fun i hl hrst => hinv.offers hl hrst⟩

/-- A redirect to `0x40` while the request for `0` is outstanding: its response is dropped and
the packets at `0x40` and `0x44` are consumed, the second one after a stall. -/
theorem fetch_stream_redirect :
    let s := (circuit 0#32).exec (init 0#32)
      [{ enable := true, consume := true, imem := { reqReady := true } },
        { enable := true, flush := true, redirectValid := true, redirectPc := 0x40#32 },
        { imem := { rspValid := true, rspRdata := 1#32 } },
        { enable := true, consume := true
          imem := { reqReady := true, rspValid := true, rspRdata := 2#32 } },
        { enable := true, imem := { reqReady := true, rspValid := true, rspRdata := 3#32 } },
        { enable := true, consume := true }]
    s.consumed.map (fun f => (f.pc, f.insn)) = [(0x40#32, 2#32), (0x44#32, 3#32)] ∧
      Stream s ∧ ∀ i, (circuit 0#32).legal s i → i.rst = false → Offers s i :=
  ⟨by decide +kernel, fetch_stream (.of_always (by decide +kernel))⟩

end FetchSystem

end Rv32im

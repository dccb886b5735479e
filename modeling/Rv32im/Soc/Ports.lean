import Rv32im.Soc.Reset
import Rv32im.System.Wiring

/-!
# The SoC as the memories of the core

In the SoC the demultiplexer and the memory are what stands at the two ports of the core. They keep
the port protocol, and what they answer on behalf of the memory is what a memory answers on which
the accepted stores have taken effect, one after the other, in the order of the data port.

* `Tcm.answer`, `Tcm.fetch`: the answer to a request, given the array;
* `Soc.written`: the array after a list of requests of the core;
* `Soc.Wired`: the invariant between the SoC and the histories of the ports;
* `Soc.records_run`: a run of the SoC is one of the core between its ports.
-/

namespace Rv32im

open Clocked

namespace Tcm

variable {p : TcmParams}

/-- The answer of the data port to a request that finds an array. -/
def answer (mem : Vector Word p.wordCount) (r : MemReq) : MemRsp :=
  (MemRspQ.next true (p.inRange r.addr) (read { mem } r.addr)).rsp

/-- The answer of the instruction port. -/
def fetch (mem : Vector Word p.wordCount) (r : MemReq) : MemRsp :=
  (MemRspQ.next true (imemReadOk p r) (read { mem } r.addr)).rsp

/-- A read leaves the array as it is. -/
theorem write_of_read {mem : Vector Word p.wordCount} {r : MemReq} (h : r.write = false) :
    write mem r = mem := by
  simp [write, h]

end Tcm

namespace Soc

variable {P : SocParams} {s : Soc P} {i : In P} {q : System} {r : Regfile}
  {mem₀ : Vector Word P.tcm.wordCount} {is : List (In P)}

/-- The target of a request. -/
def target (P : SocParams) (req : MemReq) : DemuxTarget :=
  MemDemux.requestTarget P.demux req.addr

/-- The requests of a list that go to a target. -/
def sentTo (P : SocParams) (t : DemuxTarget) (rs : List MemReq) : List MemReq :=
  rs.filter (target P · = t)

/-- The array after requests of the core. -/
def written (mem : Vector Word P.tcm.wordCount) (rs : List MemReq) : Vector Word P.tcm.wordCount :=
  (sentTo P .tcm rs).foldl Tcm.write mem

theorem sentTo_append (t : DemuxTarget) (rs rs' : List MemReq) :
    sentTo P t (rs ++ rs') = sentTo P t rs ++ sentTo P t rs' := List.filter_append ..

/-- Stores are written in order. -/
theorem written_append (mem : Vector Word P.tcm.wordCount) (rs rs' : List MemReq) :
    written mem (rs ++ rs') = written (written mem rs) rs' := by
  rw [written, sentTo_append, List.foldl_append]
  rfl

/-- What the fabric drives on the ports of the core. -/
def ports (s₀ : Soc P) (is : List (In P)) : List CoreIn :=
  (circuit P).trace (fun s i => some (s.coreIn i)) s₀ is

/-- The trace port of the core. -/
def event (s : Soc P) (_ : In P) : Option TraceEvent := s.core.event

/-! ### Handshakes -/

/-- The handshake of the core on the instruction port is that of the memory. -/
theorem imemReq_eq (hq : q.core = s.core) : q.imemReq (s.coreIn i) = s.fetched i := by
  have hready : (s.coreIn i).imem.reqReady = true := rfl
  have hfire : s.core.ifStage.requestFire (s.core.ifIn (s.coreIn i)) = (s.imem i).reqValid := by
    have hready : (s.core.ifIn (s.coreIn i)).imem.reqReady = true := hready
    simp [IfStage.requestFire, imem, hready]
  rw [System.imemReq, hq, hfire, fetched, MemOut.accepted, Bool.and_true]
  rfl

/-- The handshake of the core on the data port is that of the demultiplexer. -/
theorem dmemReq_eq (hq : q.core = s.core) : q.dmemReq (s.coreIn i) =
    if s.demux.requestFire P.demux (s.demuxIn i) then some (s.coreDmem i).req else none := by
  rw [System.dmemReq, hq, requestFire_demux]
  rfl

/-- It is one of the target it goes to, and of no other. -/
theorem accepted_eq (hq : q.core = s.core) (t : DemuxTarget) :
    s.accepted i t = (q.dmemReq (s.coreIn i)).filter (target P · = t) := by
  have hslave := DemuxSystem.slaveReq_eq P.demux { demux := s.demux } (s.demuxIn i) t
  have hready : ((s.demuxIn i).slave t).reqReady = s.ready i t := by
    rw [slave_demuxIn]
    rfl
  rw [DemuxSystem.slaveReq, hready] at hslave
  rw [accepted, bus, hslave, dmemReq_eq hq, DemuxSystem.coreReq, MemOut.accepted]
  rfl

/-- The accepted requests take effect in the array. -/
theorem mem_accepted (hq : q.core = s.core) :
    (s.next i).tcm.mem = written s.tcm.mem (q.dmemReq (s.coreIn i)).toList := by
  have hnext : (s.next i).tcm.mem =
      if (s.bus i .tcm).reqValid then Tcm.write s.tcm.mem (s.bus i .tcm).req else s.tcm.mem := rfl
  have hacc := accepted_eq (i := i) hq .tcm
  have hfilter (o : Option MemReq) : sentTo P .tcm o.toList =
      (o.filter (target P · = .tcm)).toList := by
    cases o with
    | none => rfl
    | some r => by_cases h : target P r = .tcm <;> simp [sentTo, Option.filter, h]
  have hbus : s.accepted i .tcm =
      if (s.bus i .tcm).reqValid then some (s.bus i .tcm).req else none := by
    simp [accepted, MemOut.accepted, ready]
  rw [hnext, written, hfilter, ← hacc, hbus]
  split <;> rfl

/-- The response on the data port of the core is that of the target that owes it. -/
theorem dmemRsp_eq (h : Fabric s) : (s.coreIn i).dmem.rsp =
    if s.demux.pendingQ then some (s.rspQ s.demux.pendingTargetQ).rsp else none := by
  have hcore := DemuxSystem.coreRsp_eq P.demux { demux := s.demux } (s.demuxIn i)
  have hrsp : (s.coreIn i).dmem.rsp = DemuxSystem.coreRsp P.demux { demux := s.demux }
      (s.demuxIn i) := rfl
  rw [hrsp, hcore, DemuxSystem.pending]
  cases hp : s.demux.pendingQ with
  | false => rfl
  | true =>
    have hv := h.owner hp
    simp [slave_demuxIn, MemRspQ.response, hv]

/-- The response on the instruction port is that of the memory. -/
theorem imemRsp_eq : (s.coreIn i).imem.rsp = s.tcm.imemRsp.response := rfl

/-! ### The invariant -/

/-- The histories of the ports of the core in a run that starts with the array `mem₀`. -/
structure Wired (mem₀ : Vector Word P.tcm.wordCount) (s : Soc P) (q : System) : Prop where
  core : q.core = s.core
  fabric : Fabric s
  mem : s.tcm.mem = written mem₀ q.dmem.accepted
  /-- The slot of the demultiplexer holds the request that is not answered. -/
  idle : s.demux.pendingQ = false → q.dmem.Quiet
  busy : s.demux.pendingQ = true → ∃ r, q.dmem.Owes r ∧ s.demux.pendingTargetQ = target P r ∧
    (target P r = .tcm → s.tcm.dmemRsp.rsp =
      Tcm.answer (written mem₀ (q.dmem.accepted.take q.dmem.answered.length)) r)
  /-- The memory answers with the stores before the request. -/
  answers : ∀ k r a, q.dmem.AnsweredAt k r a → target P r = .tcm →
    a = Tcm.answer (written mem₀ (q.dmem.accepted.take k)) r
  quiet : s.tcm.imemRsp.valid = false → q.imem.Quiet
  /-- It answers a fetch with some of the stores. -/
  owes : s.tcm.imemRsp.valid = true → ∃ f k, q.imem.Owes f ∧
    s.tcm.imemRsp.rsp = Tcm.fetch (written mem₀ (q.dmem.accepted.take k)) f
  fetches : ∀ f a, q.imem.Answered f a → ∃ k,
    a = Tcm.fetch (written mem₀ (q.dmem.accepted.take k)) f

/-- The core after a reset, with no request made yet. -/
def coreStart (P : SocParams) (r : Regfile) : System where
  core := (resetState P r (.replicate _ 0#32)).core
  pc := P.core.resetVector

/-- The core and its ports start from a reset. -/
theorem started_coreStart (P : SocParams) (r : Regfile) :
    System.Started P.core (coreStart P r) := by
  have hcore : ∃ c i, i.rst = true ∧ (coreStart P r).core = Core.next P.core c i := by
    -- a reset edge leaves the reset state as it is
    let s₀ := resetState P r (.replicate _ 0#32)
    let i : In P := { rst := true, gpioIn := 0#_ }
    have hnext := next_of_rst (s := s₀) (i := i) (fabric_reset r _) rfl
    have hreg : (s₀.next i).core.regfile = r := by
      funext a
      rfl
    rw [hreg] at hnext
    exact ⟨s₀.core, s₀.coreIn i, rfl, (congrArg Soc.core hnext).symm⟩
  exact ⟨hcore, ⟨fun _ => rfl, fun hb => by simp [coreStart, resetState] at hb⟩,
    ⟨fun _ => rfl, fun hs => by simp [coreStart, resetState] at hs⟩, rfl, rfl⟩

/-- They are those of the SoC. -/
theorem wired_reset (r : Regfile) (mem₀ : Vector Word P.tcm.wordCount) :
    Wired mem₀ (resetState P r mem₀) (coreStart P r) where
  core := rfl
  fabric := fabric_reset r mem₀
  mem := rfl
  idle _ := rfl
  busy h := by simp [resetState] at h
  answers k r a h := by simp [Channel.AnsweredAt, coreStart] at h
  quiet _ := rfl
  owes h := by simp [resetState] at h
  fetches f a h := by
    obtain ⟨k, hk⟩ := h
    simp [Channel.AnsweredAt, coreStart] at hk

namespace Wired

/-- The fabric keeps the port protocol. -/
theorem legal (h : Wired mem₀ s q) (i : In P) :
    (System.circuit P.core).legal q (s.coreIn i) := by
  have howes {ch : Channel MemReq MemRsp} {r : MemReq} (h : ch.Owes r) (req : Option MemReq)
      (rsp : Option MemRsp) : ch.Ok req rsp := by
    intro _
    have hlen := h.1
    rw [List.length_append]
    omega
  constructor
  · rw [imemRsp_eq]
    cases hv : s.tcm.imemRsp.valid with
    | false => simp [Channel.Ok, MemRspQ.response, hv]
    | true =>
      obtain ⟨f, k, hf, -⟩ := h.owes hv
      exact howes hf _ _
  · rw [dmemRsp_eq h.fabric]
    cases hp : s.demux.pendingQ with
    | false => simp [Channel.Ok]
    | true =>
      obtain ⟨r, hr, -⟩ := h.busy hp
      exact howes hr _ _

/-- The slot of the demultiplexer after a cycle, with the answer the memory is about to give. -/
theorem slot_next (h : Wired mem₀ s q) (hrst : i.rst = false) :
    ((s.next i).demux.pendingQ = (q.dmemReq (s.coreIn i)).isSome) ∧
    ∀ r, q.dmemReq (s.coreIn i) = some r → (s.next i).demux.pendingTargetQ = target P r ∧
      (target P r = .tcm → (s.next i).tcm.dmemRsp.rsp = Tcm.answer s.tcm.mem r) := by
  have hreq := dmemReq_eq (i := i) h.core
  have hnext := demux_next (s := s) (i := i) hrst
  by_cases hf : s.demux.requestFire P.demux (s.demuxIn i) = true
  · rw [if_pos hf] at hreq hnext
    refine ⟨by rw [hreq, hnext]; rfl, fun r hr => ?_⟩
    obtain rfl : _ = r := Option.some.inj (hreq.symm.trans hr)
    refine ⟨by rw [hnext]; rfl, fun ht => ?_⟩
    have hacc : s.accepted i .tcm = some (s.coreDmem i).req := by
      simp [accepted_eq h.core, hreq, ht, Option.filter]
    obtain ⟨hv, hbus⟩ := MemOut.accepted_eq_some.mp hacc
    rw [Bool.and_eq_true] at hv
    have hrsp : (s.next i).tcm.dmemRsp = .next (s.bus i .tcm).reqValid
        (P.tcm.inRange (s.bus i .tcm).req.addr) (s.tcm.read (s.bus i .tcm).req.addr) := rfl
    rw [hrsp, hv.1, hbus]
    rfl
  · rw [if_neg hf] at hreq hnext
    refine ⟨?_, fun r hr => by rw [hreq] at hr; cases hr⟩
    rw [hreq, hnext]
    -- what is pending is answered
    cases hp : s.demux.pendingQ with
    | false => split <;> simp [hp]
    | true =>
      have hrsp : (s.coreIn i).dmem.rspValid = true := by
        rw [rspValid_coreIn, hp, h.fabric.owner hp, Bool.and_self]
      rw [if_pos hrsp]
      rfl

/-- The data port in a cycle. -/
theorem dmem_next (h : Wired mem₀ s q) (i : In P) :
    (∀ r, q.dmemReq (s.coreIn i) = some r → (q.dmemAfter (s.coreIn i)).Owes r) ∧
    (q.dmemReq (s.coreIn i) = none → (q.dmemAfter (s.coreIn i)).Quiet) ∧
    ∀ k r a, (q.dmemAfter (s.coreIn i)).AnsweredAt k r a → target P r = .tcm →
      a = Tcm.answer (written mem₀ (q.dmem.accepted.take k)) r ∧
        k ≤ q.dmem.accepted.length := by
  rw [System.dmemAfter, dmemRsp_eq h.fabric]
  cases hp : s.demux.pendingQ with
  | false =>
    have hq := h.idle hp
    have hle := Nat.le_of_eq hq.symm
    rw [if_neg (by simp)]
    refine ⟨fun r hr => hr ▸ hq.step_some_none r, fun hr => hr ▸ hq.step_none, ?_⟩
    intro k r a hans ht
    have hans := hans.of_step_none hle
    exact ⟨h.answers k r a hans ht, Nat.le_of_lt (Nat.lt_of_lt_of_le hans.lt hle)⟩
  | true =>
    obtain ⟨r', howes, htarget, hrsp⟩ := h.busy hp
    rw [if_pos rfl]
    refine ⟨fun r hr => hr ▸ howes.step_some_some r _, fun hr => hr ▸ howes.step_none_some _, ?_⟩
    intro k r a hans ht
    rcases howes.answeredAt_cases hans with hans | ⟨rfl, rfl, rfl⟩
    · exact ⟨h.answers k r a hans ht, Nat.le_of_lt (Nat.lt_of_lt_of_le hans.lt howes.length_le)⟩
    · refine ⟨?_, howes.length_le⟩
      rw [htarget, ht]
      exact hrsp ht

/-- The instruction port in a cycle. -/
theorem imem_next (h : Wired mem₀ s q) (i : In P) :
    (∀ f, s.fetched i = some f → (q.imemAfter (s.coreIn i)).Owes f) ∧
    (s.fetched i = none → (q.imemAfter (s.coreIn i)).Quiet) ∧
    ∀ f a, (q.imemAfter (s.coreIn i)).Answered f a → ∃ k,
      a = Tcm.fetch (written mem₀ (q.dmem.accepted.take k)) f := by
  rw [System.imemAfter, imemReq_eq h.core, imemRsp_eq]
  cases hv : s.tcm.imemRsp.valid with
  | false =>
    have hq := h.quiet hv
    rw [MemRspQ.response, if_neg (by simp [hv])]
    refine ⟨fun f hf => hf ▸ hq.step_some_none f, fun hf => hf ▸ hq.step_none, ?_⟩
    rintro f a ⟨k, hans⟩
    exact h.fetches f a ⟨k, hans.of_step_none (Nat.le_of_eq hq.symm)⟩
  | true =>
    obtain ⟨f', k', howes, hrsp⟩ := h.owes hv
    rw [MemRspQ.response, if_pos hv]
    refine ⟨fun f hf => hf ▸ howes.step_some_some f _, fun hf => hf ▸ howes.step_none_some _, ?_⟩
    rintro f a ⟨k, hans⟩
    rcases howes.answeredAt_cases hans with hans | ⟨-, rfl, rfl⟩
    · exact h.fetches f a ⟨k, hans⟩
    · exact ⟨k', hrsp⟩

/-- The requests so far are a prefix of those after a cycle. -/
private theorem take_accepted (q : System) (c : CoreIn) {k : ℕ} (hk : k ≤ q.dmem.accepted.length) :
    (q.dmemAfter c).accepted.take k = q.dmem.accepted.take k :=
  List.take_append_of_le_length hk

/-- A cycle without reset keeps the invariant. -/
theorem next (h : Wired mem₀ s q) (hrst : i.rst = false) :
    Wired mem₀ (s.next i) (q.next P.core (s.coreIn i)) := by
  obtain ⟨hslot, hslot'⟩ := h.slot_next hrst
  obtain ⟨howes, hquiet, hanswers⟩ := h.dmem_next i
  obtain ⟨hfowes, hfquiet, hfetches⟩ := h.imem_next i
  have hvalid : (s.next i).tcm.imemRsp.valid = (s.fetched i).isSome := by
    rw [imemRsp_next, fetched, MemOut.isSome_accepted, Bool.and_true]
  -- every number of stores so far is one of the stores after the cycle
  have hmin (k : ℕ) : q.dmem.accepted.take k =
      (q.dmemAfter (s.coreIn i)).accepted.take (min k q.dmem.accepted.length) := by
    rw [take_accepted q _ (Nat.min_le_right ..), ← List.take_take, List.take_length]
  have hall : q.dmem.accepted = q.dmem.accepted.take q.dmem.accepted.length :=
    List.take_length.symm
  refine ⟨?_, h.fabric.next hrst, ?_, ?_, ?_, ?_, ?_, ?_, ?_⟩
  · rw [System.next, h.core]
    rfl
  · -- the array is that of the stores accepted
    rw [mem_accepted h.core, h.mem, ← written_append]
    rfl
  · intro hp
    rw [hslot] at hp
    exact hquiet (Option.not_isSome_iff_eq_none.mp (ne_true_of_eq_false hp))
  · intro hp
    rw [hslot] at hp
    obtain ⟨r, hr⟩ := Option.isSome_iff_exists.mp hp
    obtain ⟨ht, hrsp⟩ := hslot' r hr
    refine ⟨r, howes r hr, ht, fun htcm => ?_⟩
    -- the request in the slot is the last one
    have hlen : (q.dmemAfter (s.coreIn i)).answered.length = q.dmem.accepted.length := by
      have hlen := (howes r hr).1
      rw [System.dmemAfter, hr, Channel.accepted_step, Option.toList_some, List.length_append,
        List.length_singleton] at hlen
      rw [System.dmemAfter, hr]
      omega
    rw [hrsp htcm, h.mem]
    show _ = Tcm.answer (written mem₀ ((q.dmemAfter (s.coreIn i)).accepted.take
      (q.dmemAfter (s.coreIn i)).answered.length)) r
    rw [hlen, take_accepted q _ le_rfl, List.take_length]
  · intro k r a hans ht
    obtain ⟨ha, hk⟩ := hanswers k r a hans ht
    rw [ha, ← take_accepted q (s.coreIn i) hk]
    rfl
  · intro hv
    rw [hvalid] at hv
    exact hfquiet (Option.not_isSome_iff_eq_none.mp (ne_true_of_eq_false hv))
  · intro hv
    rw [hvalid] at hv
    obtain ⟨f, hf⟩ := Option.isSome_iff_exists.mp hv
    -- a fetch reads the array before the store of its own cycle
    refine ⟨f, q.dmem.accepted.length, hfowes f hf, ?_⟩
    have hrsp : (s.next i).tcm.imemRsp = .next (s.imem i).reqValid
        (Tcm.imemReadOk P.tcm (s.imem i).req) (s.tcm.read (s.imem i).req.addr) := rfl
    obtain ⟨hreq, rfl⟩ := MemOut.accepted_eq_some.mp hf
    rw [Bool.and_true] at hreq
    show (s.next i).tcm.imemRsp.rsp = Tcm.fetch (written mem₀
      ((q.dmemAfter (s.coreIn i)).accepted.take q.dmem.accepted.length)) _
    rw [take_accepted q _ le_rfl, ← hall, ← h.mem, hrsp, hreq]
    rfl
  · intro f a hans
    obtain ⟨k, ha⟩ := hfetches f a hans
    exact ⟨_, hmin k ▸ ha⟩

end Wired

/-! ### Runs -/

/-- The data request accepted in a cycle. -/
def request (s : Soc P) (i : In P) : Option MemReq :=
  if s.demux.requestFire P.demux (s.demuxIn i) then some (s.coreDmem i).req else none

/-- The answer that a peripheral gives in a cycle. -/
def deviceAnswer (s : Soc P) (_ : In P) : Option MemRsp :=
  if s.demux.pendingQ && s.demux.pendingTargetQ ≠ .tcm then
    some (s.rspQ s.demux.pendingTargetQ).rsp
  else none

/-- The run of the core between its ports that goes with a run of the SoC. -/
structure Records (r : Regfile) (mem₀ : Vector Word P.tcm.wordCount) (is : List (In P)) (s : Soc P)
    (q : System) : Prop where
  run : (System.circuit P.core).Run (coreStart P r) (ports (resetState P r mem₀) is) q
  wired : Wired mem₀ s q
  rst : ∀ c ∈ ports (resetState P r mem₀) is, c.rst = false
  requests : q.dmem.accepted = (circuit P).trace request (resetState P r mem₀) is
  fetches : q.imem.accepted = (circuit P).trace fetched (resetState P r mem₀) is
  devices : (q.dmem.exchanges.filter (target P ·.1 ≠ .tcm)).map Prod.snd =
    (circuit P).trace deviceAnswer (resetState P r mem₀) is
  events : (System.circuit P.core).trace System.event (coreStart P r)
    (ports (resetState P r mem₀) is) = (circuit P).trace event (resetState P r mem₀) is

/-- The answers of the peripherals in a cycle. -/
theorem Wired.devices_next (h : Wired mem₀ s q) (i : In P) :
    ((q.dmemAfter (s.coreIn i)).exchanges.filter (target P ·.1 ≠ .tcm)).map Prod.snd =
      (q.dmem.exchanges.filter (target P ·.1 ≠ .tcm)).map Prod.snd ++
        (s.deviceAnswer i).toList := by
  rw [System.dmemAfter, dmemRsp_eq h.fabric, deviceAnswer]
  cases hp : s.demux.pendingQ with
  | false =>
    rw [if_neg (by simp), (h.idle hp).exchanges_step]
    simp
  | true =>
    obtain ⟨r, howes, htarget, -⟩ := h.busy hp
    rw [if_pos rfl, howes.exchanges_step, List.filter_append, List.map_append, htarget]
    by_cases ht : target P r = .tcm <;> simp [ht]

/-- Every run without reset can be recorded. -/
theorem records_run (h : (circuit P).Run (resetState P r mem₀) is s)
    (hrst : ∀ i ∈ is, i.rst = false) : ∃ q, Records r mem₀ is s q := by
  induction h with
  | nil => exact ⟨_, .nil, wired_reset r mem₀, by simp [ports], rfl, rfl, rfl, rfl⟩
  | @snoc is s i hr _ ih =>
    obtain ⟨q, hq⟩ := ih fun j hj => hrst j (by simp [hj])
    have hports : ports (resetState P r mem₀) (is ++ [i]) =
        ports (resetState P r mem₀) is ++ [s.coreIn i] := hr.trace_snoc i
    refine ⟨q.next P.core (s.coreIn i), ?_, hq.wired.next (hrst i (by simp)), ?_, ?_, ?_, ?_, ?_⟩
    · rw [hports]
      exact hq.run.snoc (hq.wired.legal i)
    · intro c hc
      rw [hports, List.mem_append, List.mem_singleton] at hc
      rcases hc with hc | rfl
      · exact hq.rst c hc
      · exact hrst i (by simp)
    · rw [hr.trace_snoc, ← hq.requests, request, ← dmemReq_eq hq.wired.core]
      rfl
    · rw [hr.trace_snoc, ← hq.fetches, ← imemReq_eq hq.wired.core]
      rfl
    · rw [hr.trace_snoc, ← hq.devices]
      exact hq.wired.devices_next i
    · rw [hports, hr.trace_snoc, ← hq.events, hq.run.trace_snoc, System.event, event,
        hq.wired.core]

end Soc

end Rv32im

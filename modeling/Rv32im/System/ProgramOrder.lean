import Rv32im.System.Wiring

/-!
# Program order

The slots of the pipeline hold consecutive instructions of the program: every slot continues
where the next older one leads, and the fetch unit continues after the youngest. A taken
transfer empties the slots behind it and sends the fetch unit to its target.

* `System.pcMem`, `System.pcEx`, `System.pcId`, `System.pcIf`: the addresses that follow the
  packets in MEM/WB, EX/MEM, ID/EX and IF/ID;
* `System.InOrder`: the invariant.
-/

namespace Rv32im

open Clocked

/-- Where the program continues after a packet without exception. -/
def ExMem.nextPc (x : ExMem) : Word := if x.controlTaken then x.controlTarget else x.pc + 4#32

/-- Without a trap the program continues after it as after the packet in EX/MEM. -/
theorem Core.memWbD_nextPc {c : Core} {i : CoreIn} (mtvec : Word) (hv : (c.memWbD i).valid = true)
    (ht : (c.memWbD i).trap = false) :
    (c.memWbD i).nextPc mtvec = c.exMemQ.nextPc := by
  rw [MemWb.nextPc, ht, if_neg (by simp), (memWbD_pc hv).1, ExMem.nextPc]
  unfold memWbD at hv ⊢
  split at hv
  · split at hv
    · split at hv
      · simp_all [ExMem.accessPacket]
      · simp at hv
    · simp_all [ExMem.localPacket]
  · simp at hv

namespace System

section Defs

variable (s : System)

/-- The address after the packet in MEM/WB. -/
def pcMem : Word :=
  if s.core.memWbQ.valid then s.core.memWbQ.nextPc s.core.csrFile.mtvecQ else s.pc

/-- The address after the packet in EX/MEM. -/
def pcEx : Word := if s.core.exMemQ.valid then s.core.exMemQ.nextPc else s.pcMem

/-- The address after the packet in ID/EX, whose transfer is not known yet. -/
def pcId : Word := if s.core.idExQ.valid then s.core.idExQ.pc + 4#32 else s.pcEx

/-- The address after the packet in IF/ID. -/
def pcIf : Word := if s.core.ifIdQ.valid then s.core.ifIdQ.pc + 4#32 else s.pcId

/-- The packet is the answer of the instruction port to the fetch of its address. -/
def Fetched (f : IfId) : Prop :=
  ∃ rsp, s.imem.Answered { addr := f.pc } rsp ∧ f = IfId.fetched f.pc rsp

end Defs

/-- The request of a fetch. -/
abbrev fetchReq (pc : Word) : MemReq := { addr := pc }

/-- The slots hold consecutive instructions, and the fetch unit continues them unless a trap is
on its way. -/
structure InOrder (s : System) : Prop where
  memWb : s.core.memWbQ.valid = true → s.core.memWbQ.pc = s.pc
  exMem : s.core.exMemQ.valid = true → s.core.exMemQ.pc = s.pcMem
  idEx : s.core.idExQ.valid = true → s.core.idExQ.pc = s.pcEx
  ifId : s.core.ifIdQ.valid = true → s.core.ifIdQ.pc = s.pcId
  fetch : s.core.trapDrainQ = false → s.core.ifStage.Live fetchReq s.imem s.pcIf
  dead : s.core.trapDrainQ = true → s.core.ifStage.Dead ∧ s.core.ifStage.Port s.imem fun _ => True
  packets : s.core.Packets s.Fetched

variable {P : CoreParams} {s : System} {i : CoreIn}

/-- Fetched packets stay answered. -/
theorem Fetched.step {f : IfId} (h : s.Fetched f) : (s.next P i).Fetched f := by
  obtain ⟨rsp, hans, hf⟩ := h
  exact ⟨rsp, hans.step .., hf⟩

/-- The request accepted is the fetch of the address presented. -/
theorem eq_of_imemReq {r : MemReq} (h : s.imemReq i = some r) :
    r = fetchReq (s.core.ifStage.reqAddr (s.core.ifIn i)) := by
  unfold imemReq at h
  split at h
  · exact (Option.some.inj h).symm
  · simp at h

/-- The fetch unit follows its port. -/
theorem InOrder.port (h : InOrder s) : s.core.ifStage.Port s.imem fun _ => True := by
  cases hd : s.core.trapDrainQ with
  | true => exact (h.dead hd).2
  | false =>
    have hport := (h.fetch hd).toPort
    refine ⟨hport.quiet, fun hb hs => ?_⟩
    obtain ⟨r, howes, -⟩ := hport.sent hb hs
    exact ⟨r, howes, fun _ => trivial⟩

/-! ### The fetch unit -/

section Fetch

variable {pc : Word}

/-- What the fetch unit offers is the next instruction of the program. -/
theorem InOrder.fetched (h : InOrder s) (hrst : i.rst = false) (hd : s.core.trapDrainQ = false)
    (hv : (s.core.ifIdD i).valid = true) :
    (s.core.ifIdD i).pc = s.pcIf ∧ (s.next P i).Fetched (s.core.ifIdD i) := by
  have hfv : s.core.ifStage.fetchValid (s.core.ifIn i) = true := by
    by_contra hne
    simp [Core.ifIdD, IfStage.fetchPacket, hne] at hv
  obtain ⟨k, rsp, -, hans, hpkt⟩ := (h.fetch hd).fetch hrst imemReq_isSome
    (fun r hr _ => eq_of_imemReq hr) hfv
  have hpc : (s.core.ifIdD i).pc = s.pcIf := by
    rw [Core.ifIdD, hpkt]
    rfl
  refine ⟨hpc, rsp, ⟨k, ?_⟩, ?_⟩
  · rw [hpc]
    exact hans
  · rw [hpc]
    exact hpkt

/-- A fetch unit that is held goes on with its fetch. -/
private theorem live_hold (h : s.core.ifStage.Live fetchReq s.imem pc)
    (hok : s.imem.Ok (s.imemReq i) i.imem.rsp)
    (hcmd : s.core.ifIn i = FetchCmd.hold.drive i.imem) :
    (s.next P i).core.ifStage.Live fetchReq (s.next P i).imem pc := by
  have hnext := h.next (i := s.core.ifIn i) (w := P.resetVector) (by rw [hcmd]; rfl)
    (by rw [hcmd]; rfl) imemReq_isSome hok fun r hr _ => eq_of_imemReq hr
  rw [if_neg (by rw [hcmd]; simp [FetchCmd.drive])] at hnext
  exact hnext

/-- A consumed packet is followed by the next. -/
private theorem live_consume (h : s.core.ifStage.Live fetchReq s.imem pc)
    (hok : s.imem.Ok (s.imemReq i) i.imem.rsp)
    (hcmd : s.core.ifIn i = FetchCmd.consume.drive i.imem) :
    (s.next P i).core.ifStage.Live fetchReq (s.next P i).imem
      (if (s.core.ifIdD i).valid then pc + 4#32 else pc) := by
  have hnext := h.next (i := s.core.ifIn i) (w := P.resetVector) (by rw [hcmd]; rfl)
    (by rw [hcmd]; rfl) imemReq_isSome hok fun r hr _ => eq_of_imemReq hr
  have hv : (s.core.ifIdD i).valid =
      ((s.core.ifIn i).consume && s.core.ifStage.fetchValid (s.core.ifIn i)) := by
    rw [Core.ifIdD, IfStage.fetchPacket, show (s.core.ifIn i).consume = true by rw [hcmd]; rfl]
    cases s.core.ifStage.fetchValid (s.core.ifIn i) <;>
      cases s.core.ifStage.packetValidQ <;> rfl
  rw [hv]
  exact hnext

/-- A redirect sets the address. -/
private theorem live_redirect (h : s.core.ifStage.Port s.imem fun _ => True)
    (hok : s.imem.Ok (s.imemReq i) i.imem.rsp)
    (hcmd : s.core.ifIn i = (FetchCmd.redirect pc).drive i.imem) :
    (s.next P i).core.ifStage.Live fetchReq (s.next P i).imem pc := by
  have hpc : (s.core.ifIn i).redirectPc = pc := by rw [hcmd]; rfl
  have hnext := h.redirect (i := s.core.ifIn i) (w := P.resetVector) (l := fetchReq)
    (by rw [hcmd]; rfl) (by rw [hcmd]; rfl) imemReq_isSome hok fun r hr hheld => by
      rw [eq_of_imemReq hr, IfStage.reqAddr, hheld, if_neg (by simp), IfStage.launchPc,
        if_pos (by rw [hcmd]; rfl)]
  rw [hpc] at hnext
  exact hnext

/-- A flush stops the unit. -/
private theorem dead_flush (h : s.core.ifStage.Port s.imem fun _ => True)
    (hok : s.imem.Ok (s.imemReq i) i.imem.rsp)
    (hcmd : s.core.ifIn i = FetchCmd.flush.drive i.imem) :
    (s.next P i).core.ifStage.Dead ∧
      (s.next P i).core.ifStage.Port (s.next P i).imem fun _ => True :=
  h.flush (by rw [hcmd]; rfl) (by rw [hcmd]; rfl) (by rw [hcmd]; rfl) imemReq_isSome hok

/-- It stays so. -/
private theorem dead_hold (h : s.core.ifStage.Dead ∧ s.core.ifStage.Port s.imem fun _ => True)
    (hok : s.imem.Ok (s.imemReq i) i.imem.rsp)
    (hcmd : s.core.ifIn i = FetchCmd.hold.drive i.imem) :
    (s.next P i).core.ifStage.Dead ∧
      (s.next P i).core.ifStage.Port (s.next P i).imem fun _ => True :=
  h.1.next h.2 (by rw [hcmd]; rfl) (by rw [hcmd]; rfl) (by rw [hcmd]; rfl) imemReq_isSome hok

end Fetch

/-! ### The slots -/

section Slots

section Edge

variable {f : IfId} {d : IdEx} {x : ExMem} {w : MemWb} {b : Bool} {cmd : FetchCmd} {r : Bool}
  (edge : Core.Edge P s.core i f d x w b cmd r)

include edge

/-- The successor of MEM/WB after an edge. -/
private theorem pcMem_of_edge : (s.next P i).pcMem =
    if w.valid then w.nextPc (s.next P i).core.csrFile.mtvecQ else (s.next P i).pc := by
  rw [pcMem, show (s.next P i).core.memWbQ = w from edge.memWb]

private theorem pcEx_of_edge :
    (s.next P i).pcEx = if x.valid then x.nextPc else (s.next P i).pcMem := by
  rw [pcEx, show (s.next P i).core.exMemQ = x from edge.exMem]

private theorem pcId_of_edge :
    (s.next P i).pcId = if d.valid then d.pc + 4#32 else (s.next P i).pcEx := by
  rw [pcId, show (s.next P i).core.idExQ = d from edge.idEx]

private theorem pcIf_of_edge :
    (s.next P i).pcIf = if f.valid then f.pc + 4#32 else (s.next P i).pcId := by
  rw [pcIf, show (s.next P i).core.ifIdQ = f from edge.ifId]

end Edge

/-- With an empty pipeline the next fetch is the next instruction. -/
private theorem pcIf_of_empty {b : Bool} {cmd : FetchCmd} {r : Bool}
    (edge : Core.Edge P s.core i {} {} {} {} b cmd r) : (s.next P i).pcIf = (s.next P i).pc := by
  rw [pcIf_of_edge edge, if_neg (by simp), pcId_of_edge edge, if_neg (by simp),
    pcEx_of_edge edge, if_neg (by simp), pcMem_of_edge edge, if_neg (by simp)]

/-- The program counter moves on with each commit. -/
theorem pc_next (hrst : i.rst = false) : (s.next P i).pc = s.pcMem := by
  simp [next, hrst, pcMem]

/-- A commit of the packet in EX/MEM moves its address along. -/
theorem pcMem_next (hrst : i.rst = false) (hw : (s.core.next P i).memWbQ = s.core.memWbD i)
    (hwait : s.core.memWait i = false) (ht : (s.core.memWbD i).trap = false) :
    (s.next P i).pcMem = s.pcEx := by
  have hv : (s.core.memWbD i).valid = s.core.exMemQ.valid := by simp [hwait]
  have hw' : (s.next P i).core.memWbQ = s.core.memWbD i := hw
  rw [pcMem, hw', hv, pc_next hrst, pcEx]
  split
  next hx => rw [Core.memWbD_nextPc _ (hv.trans hx) ht]
  next => rfl

/-- A packet that leaves EX without exception and without redirect continues at the next
instruction. -/
theorem pcEx_next (hrst : i.rst = false) (hf : s.core.Fires i)
    (hred : (s.core.controlRedirect i).valid = false)
    (hx : (s.core.next P i).exMemQ = s.core.exMemD i)
    (hw : (s.core.next P i).memWbQ = s.core.memWbD i) (ht : (s.core.memWbD i).trap = false)
    (htx : (s.core.exMemD i).trap = false) : (s.next P i).pcEx = s.pcId := by
  have hx' : (s.next P i).core.exMemQ = s.core.exMemD i := hx
  have hv : (s.core.exMemD i).valid = s.core.idExQ.valid := by
    rw [Core.exMemD_valid, hf.resultValid]
  rw [pcEx, hx', hv, pcMem_next hrst hw hf.memWait ht, pcId]
  split
  next hid =>
    rw [ExMem.nextPc, Core.exMemD_pc (hv.trans hid)]
    rw [ExMem.trap, hv, hid, Bool.true_and, hf.exMemD, if_pos hid] at htx
    -- without redirect the packet has taken no transfer
    rw [hf.exMemD, if_pos hid, hf.controlTaken hred hid htx, if_neg (by simp)]
  next => rfl

end Slots

/-- The order after an edge, one condition for each register it loads. -/
private theorem InOrder.of_edge {f : IfId} {d : IdEx} {x : ExMem} {w : MemWb} {b : Bool}
    {cmd : FetchCmd} {r : Bool} (edge : Core.Edge P s.core i f d x w b cmd r)
    (hw : w.valid = true → w.pc = (s.next P i).pc)
    (hx : x.valid = true → x.pc = (s.next P i).pcMem)
    (hd : d.valid = true → d.pc = (s.next P i).pcEx)
    (hf : f.valid = true → f.pc = (s.next P i).pcId)
    (hlive : b = false →
      (s.next P i).core.ifStage.Live fetchReq (s.next P i).imem (s.next P i).pcIf)
    (hdead : b = true → (s.next P i).core.ifStage.Dead ∧
      (s.next P i).core.ifStage.Port (s.next P i).imem fun _ => True)
    (hp : (s.next P i).core.Packets (s.next P i).Fetched) : InOrder (s.next P i) := by
  obtain ⟨rfl, rfl, rfl, rfl, rfl, -, -⟩ := edge
  exact ⟨hw, hx, hd, hf, hlive, hdead, hp⟩

/-- Every cycle keeps the order. -/
theorem InOrder.next (h : InOrder s) (ht : s.core.TrapDrain)
    (hok : s.imem.Ok (s.imemReq i) i.imem.rsp) : InOrder (s.next P i) := by
  have hpackets : (s.next P i).core.Packets (s.next P i).Fetched :=
    (h.packets.mono fun _ hf => hf.step).next fun hrst hd hv => (h.fetched hrst hd hv).2
  have hmem (hrst : i.rst = false) (hv : (s.core.memWbD i).valid = true) :
      (s.core.memWbD i).pc = (s.next P i).pc := by
    -- each packet that moves on keeps its address, and so does what follows it
    rw [pc_next hrst, (Core.memWbD_pc hv).1]
    rw [Core.memWbD_valid, Bool.and_eq_true] at hv
    exact h.exMem hv.1
  have hex (hv : (s.core.exMemD i).valid = true) : (s.core.exMemD i).pc = s.pcEx := by
    rw [Core.exMemD_pc hv]
    rw [Core.exMemD_valid] at hv
    exact h.idEx (Core.valid_of_resultValid hv)
  have hid (hv : (s.core.idExD i).valid = true) : (s.core.idExD i).pc = s.pcId := by
    rw [Core.idExD_valid] at hv
    rw [Core.idExD_pc hv]
    exact h.ifId hv
  -- an instruction in ID/EX is not behind a trap
  have hnt (hready : s.core.Ready i) (hv : s.core.idExQ.valid = true) :
      (s.core.memWbD i).trap = false := ht.memWbD_clean hready hv
  cases Core.next_cases P s.core i with
  | reset rst edge =>
    refine .of_edge edge (by simp) (by simp) (by simp) (by simp) (fun _ => ?_) (by simp) hpackets
    have hpc : (s.next P i).pcIf = P.resetVector := by
      rw [pcIf_of_empty edge]
      exact if_pos rst
    rw [hpc]
    exact h.port.reset_live (i := s.core.ifIn i) rst imemReq_isSome hok
  | wbTrap rst trap edge =>
    refine .of_edge edge (by simp) (by simp) (by simp) (by simp) (fun _ => ?_) (by simp) hpackets
    -- the trap empties the pipeline, and the fetch unit goes to the vector
    have hv : s.core.memWbQ.valid = true := (Bool.and_eq_true_iff.mp trap).1
    have hpc : (s.next P i).pcIf = Word.align s.core.csrFile.mtvecQ := by
      rw [pcIf_of_empty edge, pc_next rst, pcMem, if_pos hv, MemWb.nextPc, if_pos trap]
    rw [hpc]
    exact live_redirect h.port hok edge.fetch
  | memException rst trap exc edge =>
    exact .of_edge edge (hmem rst) (by simp) (by simp) (by simp) (by simp)
      (fun _ => dead_flush h.port hok edge.fetch) hpackets
  | memWait rst trap wait edge =>
    -- nothing moves but the commit of MEM/WB
    have hpm : (s.next P i).pcMem = s.pcMem := by
      rw [pcMem_of_edge edge, if_neg (by simp), pc_next rst]
    have hpe : (s.next P i).pcEx = s.pcEx := by rw [pcEx_of_edge edge, hpm, pcEx]
    have hpd : (s.next P i).pcId = s.pcId := by
      rw [pcId_of_edge edge, hpe, IdEx.refresh_valid, IdEx.refresh_pc, pcId]
    have hpf : (s.next P i).pcIf = s.pcIf := by rw [pcIf_of_edge edge, hpd, pcIf]
    refine .of_edge edge (by simp) ?_ ?_ ?_ (fun hd => ?_) (fun hd => ?_) hpackets
    · exact fun hv => by rw [hpm, h.exMem hv]
    · exact fun hv => by rw [hpe, IdEx.refresh_pc, h.idEx (by simpa using hv)]
    · exact fun hv => by rw [hpd, h.ifId hv]
    · rw [hpf]
      exact live_hold (h.fetch hd) hok edge.fetch
    · exact dead_hold (h.dead hd) hok edge.fetch
  | exException ready exc edge =>
    have hv := Core.valid_of_resultValid (Core.exException_iff.mp exc).1
    have hpm := pcMem_next ready.rst edge.memWb ready.memWait (hnt ready hv)
    exact .of_edge edge (hmem ready.rst) (fun hx => by rw [hpm, hex hx]) (by simp) (by simp)
      (by simp) (fun _ => dead_flush h.port hok edge.fetch) hpackets
  | exWait ready wait edge =>
    have hv : s.core.idExQ.valid = true := by
      simp only [ExStage.wait, Bool.and_eq_true] at wait
      rw [← ready.active]
      exact wait.1
    have hpm := pcMem_next ready.rst edge.memWb ready.memWait (hnt ready hv)
    have hpe : (s.next P i).pcEx = s.pcEx := by rw [pcEx_of_edge edge, if_neg (by simp), hpm]
    have hpd : (s.next P i).pcId = s.pcId := by
      rw [pcId_of_edge edge, hpe, IdEx.refresh_valid, IdEx.refresh_pc, pcId]
    have hpf : (s.next P i).pcIf = s.pcIf := by rw [pcIf_of_edge edge, hpd, pcIf]
    refine .of_edge edge (hmem ready.rst) (by simp) ?_ ?_ (fun hd => ?_) (fun hd => ?_) hpackets
    · exact fun hv => by rw [hpe, IdEx.refresh_pc, h.idEx (by simpa using hv)]
    · exact fun hv => by rw [hpd, h.ifId hv]
    · rw [hpf]
      exact live_hold (h.fetch hd) hok edge.fetch
    · exact dead_hold (h.dead hd) hok edge.fetch
  | trapDrain fires drain edge =>
    -- only the trap packet is left, and nothing is fetched behind it
    have hifid := ht.ifId drain
    refine .of_edge edge (hmem fires.rst) (fun hx => ?_) ?_ ?_ (by simp)
      (fun _ => dead_hold (h.dead drain) hok edge.fetch) hpackets
    · have hv : s.core.idExQ.valid = true := by rwa [Core.exMemD_valid, fires.resultValid] at hx
      rw [pcMem_next fires.rst edge.memWb fires.memWait (hnt fires.toReady hv), hex hx]
    · simp [hifid]
    · simp [hifid]
  | exRedirect fires drain redirect edge =>
    obtain ⟨-, htx, htw⟩ := ht.no_trap fires drain
    -- the slots behind the transfer are flushed, so the fetch continues at its target
    obtain ⟨hfire, hxp, htaken, -, htarget⟩ := Core.of_controlRedirect redirect
    have hpm := pcMem_next fires.rst edge.memWb fires.memWait htw
    have hpf : (s.next P i).pcIf = (s.core.controlRedirect i).target := by
      rw [pcIf_of_edge edge, if_neg (by simp), pcId_of_edge edge, if_neg (by simp),
        pcEx_of_edge edge, Core.exMemD_valid, ← fires.toReady.exFire, if_pos hfire, hxp,
        ExMem.nextPc, if_pos htaken, htarget]
    refine .of_edge edge (hmem fires.rst) (fun hx => by rw [hpm, hex hx]) (by simp) (by simp)
      (fun _ => ?_) (by simp) hpackets
    rw [hpf]
    exact live_redirect h.port hok edge.fetch
  | stall fires drain redirect stall edge =>
    obtain ⟨-, htx, htw⟩ := ht.no_trap fires drain
    have hpm := pcMem_next fires.rst edge.memWb fires.memWait htw
    have hpe := pcEx_next fires.rst fires redirect edge.exMem edge.memWb htw htx
    have hpd : (s.next P i).pcId = s.pcId := by rw [pcId_of_edge edge, if_neg (by simp), hpe]
    have hpf : (s.next P i).pcIf = s.pcIf := by rw [pcIf_of_edge edge, hpd, pcIf]
    refine .of_edge edge (hmem fires.rst) (fun hx => by rw [hpm, hex hx]) (by simp)
      (fun hv => by rw [hpd, h.ifId hv]) (fun _ => ?_) (by simp) hpackets
    rw [hpf]
    exact live_hold (h.fetch drain) hok edge.fetch
  | idTrap fires drain redirect irqWait exc edge =>
    obtain ⟨-, htx, htw⟩ := ht.no_trap fires drain
    have hpm := pcMem_next fires.rst edge.memWb fires.memWait htw
    have hpe := pcEx_next fires.rst fires redirect edge.exMem edge.memWb htw htx
    exact .of_edge edge (hmem fires.rst) (fun hx => by rw [hpm, hex hx])
      (fun hv => by rw [hpe, hid hv]) (by simp) (by simp)
      (fun _ => dead_flush h.port hok edge.fetch) hpackets
  | advance fires drain redirect irqWait exc loadUse csrDep edge =>
    obtain ⟨-, htx, htw⟩ := ht.no_trap fires drain
    have hpm := pcMem_next fires.rst edge.memWb fires.memWait htw
    have hpe := pcEx_next fires.rst fires redirect edge.exMem edge.memWb htw htx
    have hpd : (s.next P i).pcId = s.pcIf := by
      rw [pcId_of_edge edge, hpe, pcIf, Core.idExD_valid]
      split
      next hv => rw [Core.idExD_pc hv]
      next => rfl
    -- every packet moves one slot on, and the fetched one enters IF/ID
    have hfetch (hv : (s.core.ifIdD i).valid = true) : (s.core.ifIdD i).pc = s.pcIf :=
      (h.fetched (P := P) fires.rst drain hv).1
    have hpf : (s.next P i).pcIf =
        if (s.core.ifIdD i).valid then s.pcIf + 4#32 else s.pcIf := by
      rw [pcIf_of_edge edge, hpd]
      split
      next hv => rw [hfetch hv]
      next => rfl
    refine .of_edge edge (hmem fires.rst) (fun hx => by rw [hpm, hex hx])
      (fun hv => by rw [hpe, hid hv]) (fun hv => by rw [hpd, hfetch hv]) (fun _ => ?_) (by simp)
      hpackets
    rw [hpf]
    exact live_consume (h.fetch drain) hok edge.fetch

/-- A reset edge starts the program at `RESET_VECTOR`. -/
theorem Started.inOrder (h : Started P s) : InOrder s := by
  obtain ⟨c₀, i, hrst, hc⟩ := h.core
  obtain ⟨hf, hd, hx, hw, hdr, -, -⟩ := Core.edge_reset P c₀ hrst
  rw [← hc] at hf hd hx hw hdr
  have hstage : s.core.ifStage = c₀.ifStage.reset (c₀.ifIn i) P.resetVector := by
    rw [hc]
    exact if_pos hrst
  have hpc : s.pcIf = P.resetVector := by
    simp [pcIf, pcId, pcEx, pcMem, hf, hd, hx, hw, h.pc]
  refine ⟨?_, ?_, ?_, ?_, fun _ => ?_, ?_, ⟨?_, ?_, ?_⟩⟩
  case refine_5 =>
    have hport := h.imem
    rw [hstage] at hport
    rw [hpc, hstage]
    exact hport.live_reset
  all_goals simp [hf, hd, hx, hw, hdr]

/-- The order holds in every reachable state. -/
theorem Reachable.inOrder (h : Reachable P s) : InOrder s := by
  have hboth : Reachable P s ∧ InOrder s := by
    refine Circuit.Reachable.invariant (I := fun s => Reachable P s ∧ InOrder s) h
      (fun s hs => ⟨.start hs, hs.inOrder⟩) fun s i hI hl => ⟨hI.1.step hl, ?_⟩
    exact hI.2.next hI.1.core.trapDrain hl.1
  exact hboth.2

end System

end Rv32im

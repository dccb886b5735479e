import Rv32im.Core.DataAccess
import Rv32im.Core.MduOwner

/-!
# The oldest packet moves on

A core whose ports answer at once, and whose data port refuses a request for a bounded time only,
commits something within a bounded time: the oldest packet in flight, or the fetch if there is none,
gets closer to MEM/WB in every cycle.

* `IfStage.left`, `MulUnit.left`, `DivUnit.left`, `Core.accessLeft`: the cycles a part still needs;
* `Core.Served`: what the ports do in a cycle;
* `Core.potential`, `Core.potential_next`: the distance of the oldest packet from MEM/WB.
-/

namespace Rv32im

/-- The cycles until the fetch unit has a packet, if its port answers in the next cycle. -/
def IfStage.left (q : IfStage) : ℕ :=
  if q.packetValidQ then 0
  else
    match q.stateQ with
    | .idle => 1
    -- the answer to a stale request is dropped, and a new request is made
    | .busy => if !q.requestSentQ then 2 else if q.discardQ then 1 else 0

/-- The cycles until the multiplier has a result. -/
def MulUnit.left (q : MulUnit) : ℕ :=
  match q.stateQ with
  | .idle => 2
  | .exec => 1
  | .resp => 0

@[inherit_doc MulUnit.left]
def DivUnit.left (q : DivUnit) : ℕ :=
  match q.stateQ with
  | .idle => 33
  | .run => 32 - q.iterQ.toNat
  | .resp => 0

/-! ### The parts -/

/-- A fetch unit that is asked for a packet has one or gets closer to it. -/
theorem IfStage.left_next {q : IfStage} {i : In} (w : Word) (hi : i = FetchCmd.consume.drive i.imem)
    (hready : i.imem.reqReady = true)
    (hrsp : q.stateQ = .busy → q.requestSentQ = true → i.imem.rspValid = true)
    (hf : q.fetchValid i = false) : (q.next i w).left < q.left := by
  have hrst : i.rst = false := by rw [hi]; rfl
  have hflush : i.flush = false := by rw [hi]; rfl
  have hredirect : i.redirectValid = false := by rw [hi]; rfl
  have henable : i.enable = true := by rw [hi]; rfl
  have hconsume : i.consume = true := by rw [hi]; rfl
  have hkill : killEvent i = false := by rw [killEvent, hflush, hredirect]; rfl
  obtain ⟨hp, hlive⟩ : q.packetValidQ = false ∧ q.responseLive i = false := by
    simpa [fetchValid, hrst, hkill] using hf
  have hpacket : nextRedirect i (q.nextPacket i) = q := by
    simp [nextRedirect, nextPacket, hkill, packetConsumed, hp, hlive, hflush, hredirect]
  have hwant : q.wantFetch i = true := by simp [wantFetch, hflush, henable]
  rw [next_eq w hrst, hpacket]
  cases hs : q.stateQ with
  | idle =>
    have hlaunch : q.launchRequest i = true := by simp [launchRequest, hrst, hwant, hs, hp]
    have hfire : q.requestFire i = true := by simp [requestFire, reqValid, hrst, hlaunch, hready]
    have hnone : i.imem.rspValid = false := by
      simpa [responseLive, responseSeen, responseStale, hs, hlaunch, hfire] using hlive
    simp [nextIdle, hlaunch, hfire, hnone, left, hp, hs]
  | busy =>
    rw [if_neg (by simp)]
    cases hsent : q.requestSentQ with
    | false =>
      have hfire : q.requestFire i = true := by
        simp [requestFire, reqValid, heldRequest, hrst, hs, hsent, hready]
      have hleft : q.left = 2 := by simp [left, hp, hs, hsent]
      rw [nextBusy, hkill, hsent, hfire, hleft]
      cases i.imem.rspValid <;> cases q.requestStale i <;> simp [left, hp, hs]
    | true =>
      have hv := hrsp hs hsent
      -- a live answer would be a packet
      have hd : q.discardQ = true := by
        simpa [responseLive, responseSeen, responseStale, requestStale, hs, hsent, hv, hkill]
          using hlive
      have hlaunch : q.launchRequest i = true := by
        simp [launchRequest, hrst, hwant, hs, hsent, hv, hflush, hp, hd]
      have hfire : q.requestFire i = true := by
        simp [requestFire, reqValid, hrst, hlaunch, hready]
      simp [nextBusy, hkill, hsent, hv, hlaunch, hfire, left, hp, hs, hd]

section Mdu

variable {i : MduIn}

/-- Every cycle of a multiplication brings its result nearer. -/
theorem MulUnit.left_next {q : MulUnit} (hrst : i.rst = false) (hkill : i.kill = false)
    (hreq : q.stateQ = .idle → i.reqValid = true) (hs : q.stateQ ≠ .resp) :
    (q.next i).left < q.left := by
  rw [next_eq hrst hkill]
  cases h : q.stateQ with
  | idle => simp [hreq h, left, h]
  | exec => simp [left, h]
  | resp => exact absurd h hs

/-- So does every cycle of a division. -/
theorem DivUnit.left_next {q : DivUnit} (hrst : i.rst = false) (hkill : i.kill = false)
    (hreq : q.stateQ = .idle → i.reqValid = true) (hiter : q.stateQ = .run → q.iterQ.toNat < 32)
    (hs : q.stateQ ≠ .resp) : (q.next i).left < q.left := by
  rw [next_eq hrst hkill]
  cases h : q.stateQ with
  | idle =>
    have hacc : (q.accept i).left ≤ 32 := by
      unfold accept left
      split_ifs <;> simp
    have hleft : q.left = 33 := by simp [left, h]
    rw [if_pos rfl, if_pos (hreq h), hleft]
    omega
  | run =>
    rw [if_neg (by simp), if_pos rfl, iterate]
    by_cases hlast : q.iterQ = 31#6
    · simp [left, h, hlast]
    · have hlt := hiter h
      have hne : q.iterQ.toNat ≠ 31 := fun h31 => hlast (BitVec.eq_of_toNat_eq (h31.trans rfl))
      have hadd : (q.iterQ + 1#6).toNat = q.iterQ.toNat + 1 := by
        rw [BitVec.toNat_add, BitVec.toNat_ofNat]
        omega
      rw [if_neg (by simpa using hlast), left, left]
      simp only [h, hadd]
      omega
  | resp => exact absurd h hs

end Mdu

namespace Core

variable {P : CoreParams} {F : IfId → Prop} {c : Core} {i : CoreIn} {U u u' : ℕ}

/-- The cycles the instruction in ID/EX may still wait for a unit. -/
def mduLeft (c : Core) : ℕ :=
  if ExStage.isMdu c.idExQ then
    if ExStage.isMul c.idExQ then c.mulUnit.left else c.divUnit.left
  else 0

/-- The cycles the packet in EX/MEM may still wait, if the data port refuses a request for `u`
cycles at most. -/
def accessLeft (c : Core) (u : ℕ) : ℕ :=
  if c.exMemQ.isMemory then
    match c.lsu.stateQ with
    | .idle => 3 + u
    -- the answer of a drained request comes first
    | .busy => if c.lsu.discardQ then 4 + u else if c.lsu.requestSentQ then 1 else 2 + u
    | .resp => 1
  else 1

/-- The ports answer every request in the next cycle, and the data port refuses requests for `u`
cycles at most, `u'` after this one. -/
structure Served (c : Core) (i : CoreIn) (U u u' : ℕ) : Prop where
  imemReady : i.imem.reqReady = true
  imemRsp : c.ifStage.stateQ = .busy → c.ifStage.requestSentQ = true → i.imem.rspValid = true
  dmemRsp : c.lsu.stateQ = .busy → c.lsu.requestSentQ = true → i.dmem.rspValid = true
  quiet : c.lsu.requestFire (c.lsuIn i) = false → u' ≤ u
  refused : c.lsu.reqValid (c.lsuIn i) = true → c.lsu.requestFire (c.lsuIn i) = false → u' < u
  bound : u' ≤ U

/-- The distance of the oldest packet from MEM/WB. -/
def potential (U u : ℕ) (c : Core) : ℕ :=
  if c.memWbQ.valid then 0
  else if c.exMemQ.valid then c.accessLeft u
  else if c.idExQ.valid then 5 + U + c.mduLeft
  else if c.ifIdQ.valid then 39 + U
  else 40 + U + c.ifStage.left

/-! ### Bounds -/

/-- A division takes the longest. -/
theorem mduLeft_le (c : Core) : c.mduLeft ≤ 33 := by
  unfold mduLeft MulUnit.left DivUnit.left
  split_ifs <;> (try split) <;> omega

/-- An access takes as long as the port, and four cycles. -/
theorem accessLeft_le (h : u ≤ U) : c.accessLeft u ≤ 4 + U := by
  unfold accessLeft
  split_ifs <;> (try split) <;> omega

/-- The wait for EX/MEM is bounded by that for the data port. -/
theorem potential_of_exMem (hv : c.exMemQ.valid = true) (h : u ≤ U) :
    c.potential U u ≤ 4 + U := by
  have hle := accessLeft_le (c := c) h
  unfold potential
  split_ifs <;> omega

/-- The wait for ID/EX, by that for its unit as well. -/
theorem potential_of_idEx (hv : c.idExQ.valid = true) (h : u ≤ U) :
    c.potential U u ≤ 5 + U + c.mduLeft := by
  have hle := accessLeft_le (c := c) h
  unfold potential
  split_ifs <;> omega

/-- The wait for IF/ID, by that of the slowest instruction. -/
theorem potential_of_ifId (hv : c.ifIdQ.valid = true) (h : u ≤ U) : c.potential U u ≤ 39 + U := by
  have hle := accessLeft_le (c := c) h
  have hmdu := c.mduLeft_le
  unfold potential
  split_ifs <;> omega

/-- In any state what is left of the fetch is added. -/
theorem potential_le (c : Core) (h : u ≤ U) : c.potential U u ≤ 40 + U + c.ifStage.left := by
  have hle := accessLeft_le (c := c) h
  have hmdu := c.mduLeft_le
  unfold potential
  split_ifs <;> omega

/-! ### The front of the pipeline -/

/-- A packet in EX/MEM with nothing in front of it. -/
theorem potential_next_exMem (h : DataAccess c) (ht : TrapDrain c) (hrst : i.rst = false)
    (hs : Served c i U u u') (hw : c.memWbQ.valid = false) (hv : c.exMemQ.valid = true) :
    (c.next P i).potential U u' < c.potential U u := by
  have htrap : c.memWbQ.trap = false := by simp [MemWb.trap, hw]
  have hpot : c.potential U u = c.accessLeft u := by simp [potential, hw, hv]
  rw [hpot]
  cases hwait : c.memWait i with
  | false =>
    -- it is taken over
    have hnext : (c.next P i).memWbQ.valid = true := by
      rw [(memWb_of_not_memWait P hrst htrap hwait).2, memWbD_valid, hv, hwait]
      rfl
    have hzero : (c.next P i).potential U u' = 0 := by simp [potential, hnext]
    have hpos : 0 < c.accessLeft u := by
      unfold accessLeft
      split_ifs <;> (try split) <;> omega
    rw [hzero]
    exact hpos
  | true =>
    have edge := held_of_memWait P hrst htrap hwait
    have hm : c.exMemQ.isMemory = true := by
      simp only [memWait, Bool.and_eq_true] at hwait
      exact hwait.1
    have hnext : (c.next P i).potential U u' = (c.next P i).accessLeft u' := by
      simp [potential, edge.memWb, edge.exMem, hv]
    rw [hnext, accessLeft, accessLeft, edge.exMem, if_pos hm, if_pos hm]
    cases h.access (P := P) ht hrst with
    | none fire valid mem state next => simp [mem] at hm
    | drains fire valid mem trap wait state next held =>
      -- the answer of the drained request is here
      have hsent := h.drain state.1 state.2
      have hidle : (c.next P i).lsu.stateQ = .idle := by
        have hseen : c.lsu.responseSeen (c.lsuIn i) = true := by
          simp [Lsu.responseSeen, state.1, hsent, hs.dmemRsp state.1 hsent]
        have hdiscard : c.lsu.responseDiscard (c.lsuIn i) = true := by
          simp [Lsu.responseDiscard, state.1, state.2]
        show (c.lsu.next (c.lsuIn i) (c.lsuRspReady i)).stateQ = .idle
        rw [Lsu.next_eq _ hrst, state.1, if_neg (by simp), if_pos rfl, Lsu.nextBusy, if_pos hseen,
          hdiscard]
        rfl
      have hle := hs.quiet fire
      simp only [hidle, state.1, state.2, if_true]
      omega
    | offBus fire valid mem bus trap step =>
      rcases step with ⟨hidle, -, hresp, -⟩ | ⟨-, hno, -⟩
      · simp only [hidle, hresp]
        omega
      · simp [hwait] at hno
    | waits bus trap state wait rsp next held =>
      obtain ⟨hbusy, hlive, -, hsent'⟩ := next
      have hnosent : ¬ (c.lsu.stateQ = .busy ∧ c.lsu.requestSentQ = true) := fun hb => by
        have hnone := rsp (.inl hb)
        simp [hs.dmemRsp hb.1 hb.2] at hnone
      cases hfire : c.lsu.requestFire (c.lsuIn i) with
      | true =>
        rw [hfire, Bool.true_or] at hsent'
        rcases state with hidle | ⟨hb, hd⟩
        · simp only [hbusy, hlive, hsent', hidle, Bool.false_eq_true, if_false, if_true]
          omega
        · have hs : c.lsu.requestSentQ = false := by simpa [hb] using hnosent
          simp only [hbusy, hlive, hsent', hb, hd, hs, Bool.false_eq_true, if_false, if_true]
          omega
      | false =>
        have hle := hs.quiet hfire
        rcases state with hidle | ⟨hb, hd⟩
        · have hsent : (c.next P i).lsu.requestSentQ = false := by simp [hsent', hfire, hidle]
          simp only [hbusy, hlive, hsent, hidle, Bool.false_eq_true, if_false]
          omega
        · have hsentQ : c.lsu.requestSentQ = false := by simpa [hb] using hnosent
          have hsent : (c.next P i).lsu.requestSentQ = false := by simp [hsent', hfire, hsentQ]
          have hlt := hs.refused (by simp [Lsu.reqValid, Lsu.issueSaved, hb, hsentQ]) hfire
          simp only [hbusy, hlive, hsent, hb, hd, hsentQ, Bool.false_eq_true, if_false]
          omega
    | answered bus trap state wait sent valid next => simp [hwait] at wait

/-- EX and MEM are ready for a packet in ID/EX with nothing in front of it. -/
theorem ready_of_empty (hrst : i.rst = false) (hw : c.memWbQ.valid = false)
    (hx : c.exMemQ.valid = false) : Ready c i := by
  have hm : c.exMemQ.isMemory = false := by simp [ExMem.isMemory, hx]
  exact ⟨hrst, by simp [MemWb.trap, hw], by simp [memException, hm], by simp [memWait, hm]⟩

/-- A unit that EX waits for gets closer to its result. -/
theorem MulDiv.left_next (h : MulDiv c) (hready : Ready c i)
    (hwait : ExStage.wait (c.exIn i) = true) (hid : (c.next P i).idExQ = c.idExHeld) :
    (c.next P i).mduLeft < c.mduLeft := by
  obtain ⟨hv, hmdu, hrsp⟩ := isMdu_of_wait hready hwait
  have hactive : ExStage.active (c.exIn i) = true := hready.active.trans hv
  have hmdu' : ExStage.isMdu c.idExHeld = true := by
    simpa [ExStage.isMdu, ExStage.isMul, ExStage.isDiv] using hmdu
  have hmul : ExStage.isMul c.idExHeld = ExStage.isMul c.idExQ := by simp [ExStage.isMul]
  rw [mduLeft, mduLeft, hid, if_pos hmdu', if_pos hmdu, hmul]
  by_cases hm : ExStage.isMul c.idExQ = true
  · rw [if_pos hm, if_pos hm]
    rw [mduRspValid_of_isMul hm, hready.exKill] at hrsp
    refine MulUnit.left_next hready.rst hready.exKill (fun hs => ?_) (by simpa using hrsp)
    exact (Bool.and_eq_true_iff.mp
      (launchesMul_iff.mpr ⟨hactive, hm, hready.exResultReady, hs⟩)).1
  · have hd : ExStage.isDiv c.idExQ = true := by
      simp only [ExStage.isMdu, Bool.and_eq_true, Bool.or_eq_true] at hmdu
      exact hmdu.1.resolve_left hm
    rw [if_neg hm, if_neg hm]
    rw [mduRspValid_of_isDiv hd, hready.exKill] at hrsp
    refine DivUnit.left_next hready.rst hready.exKill (fun hs => ?_) (fun hs => ?_)
      (by simpa using hrsp)
    · exact (Bool.and_eq_true_iff.mp
        (launchesDiv_iff.mpr ⟨hactive, hd, hready.exResultReady, hs⟩)).1
    · obtain ⟨-, -, -, -, qr, hwr, hloop⟩ := (h.div (by simp [hs])).2.2.run hs
      exact hloop.iter ▸ hwr

/-- A packet in ID/EX with nothing in front of it. -/
theorem potential_next_idEx (h : MulDiv c) (hrst : i.rst = false) (hu : u' ≤ U)
    (hw : c.memWbQ.valid = false) (hx : c.exMemQ.valid = false) (hv : c.idExQ.valid = true) :
    (c.next P i).potential U u' < c.potential U u := by
  have hready := ready_of_empty hrst hw hx
  have hpot : c.potential U u = 5 + U + c.mduLeft := by simp [potential, hw, hx, hv]
  have hleaves (hr : ExStage.resultValid (c.exIn i) = true)
      (hnext : (c.next P i).exMemQ = c.exMemD i) :
      (c.next P i).potential U u' < c.potential U u := by
    have hle := potential_of_exMem (c := c.next P i) (by rw [hnext, exMemD_valid, hr]) hu
    omega
  have hfires (fires : Fires c i) : ExStage.resultValid (c.exIn i) = true :=
    fires.resultValid.trans hv
  cases next_cases P c i with
  | reset rst edge => simp [hrst] at rst
  | wbTrap rst trap edge => simp [hready.trap] at trap
  | memException rst trap exc edge => simp [hready.memException] at exc
  | memWait rst trap wait edge => simp [hready.memWait] at wait
  | exException ready exc edge => exact hleaves (exException_iff.mp exc).1 edge.exMem
  | exWait ready wait edge =>
    have hlt := h.left_next (P := P) ready wait edge.idEx
    have hle := potential_of_idEx (c := c.next P i) (by simp [edge.idEx, hv]) hu
    omega
  | trapDrain fires drain edge => exact hleaves (hfires fires) edge.exMem
  | exRedirect fires drain redirect edge => exact hleaves (hfires fires) edge.exMem
  | stall fires drain redirect stall edge => exact hleaves (hfires fires) edge.exMem
  | idTrap fires drain redirect irqWait exc edge => exact hleaves (hfires fires) edge.exMem
  | advance fires drain redirect irqWait exc loadUse csrDep edge =>
    exact hleaves (hfires fires) edge.exMem

/-- With ID/EX and all behind it empty, only ID and IF have something to do. -/
theorem edge_of_empty (P : CoreParams) (ht : TrapDrain c) (hrst : i.rst = false)
    (hw : c.memWbQ.valid = false) (hx : c.exMemQ.valid = false) (hd : c.idExQ.valid = false) :
    (c.ifIdQ.valid = true ∧ (c.next P i).idExQ.valid = true) ∨
      (c.next P i).idExQ = c.idExD i ∧ (c.next P i).ifIdQ = c.ifIdD i ∧
        c.ifIn i = FetchCmd.consume.drive i.imem := by
  have hready := ready_of_empty hrst hw hx
  have hres : ExStage.resultValid (c.exIn i) = false := by
    by_contra hne
    simp [valid_of_resultValid (Bool.not_eq_false _ ▸ hne)] at hd
  cases next_cases P c i with
  | reset rst edge => simp [hrst] at rst
  | wbTrap rst trap edge => simp [hready.trap] at trap
  | memException rst trap exc edge => simp [hready.memException] at exc
  | memWait rst trap wait edge => simp [hready.memWait] at wait
  | exException ready exc edge => simp [(exException_iff.mp exc).1] at hres
  | exWait ready wait edge => simp [(isMdu_of_wait ready wait).1] at hd
  | trapDrain fires drain edge =>
    -- a trap would be in one of the slots
    simp [ht.drain, IdEx.trap, ExMem.trap, MemWb.trap, hw, hx, hd] at drain
  | exRedirect fires drain redirect edge =>
    have hnone : (c.controlRedirect i).valid = false :=
      controlRedirect_of_not_valid fun hv => absurd hv (by simp [hd])
    simp [hnone] at redirect
  | stall fires drain redirect stall edge =>
    have hirq : c.irqStateWait = false := by
      simp [irqStateWait, IdEx.irqStateWriter, ExMem.irqStateWriter, hx, hd]
    have hhazard : PipelineCtrl.idHazard (c.ctrlIn i) = false := by
      simp [PipelineCtrl.idHazard, ctrlIn, HazardUnit.loadUse, HazardUnit.rawMatch,
        HazardUnit.idExIsLoad, HazardUnit.csrDep, HazardUnit.csrDependency,
        HazardUnit.mretDependency, HazardUnit.minstretDependency, HazardUnit.idExCsrWriter,
        HazardUnit.exMemCsrWriter, hx, hd]
    simp [hirq, hhazard] at stall
  | idTrap fires drain redirect irqWait exc edge =>
    exact .inl ⟨idExD_valid (c := c) (i := i) ▸ exc.1, edge.idEx ▸ exc.1⟩
  | advance fires drain redirect irqWait exc loadUse csrDep edge =>
    exact .inr ⟨edge.idEx, edge.ifId, edge.fetch⟩

/-- A packet in IF/ID, or the next fetch, with nothing in front of it. -/
theorem potential_next_fetch (ht : TrapDrain c) (hrst : i.rst = false) (hs : Served c i U u u')
    (hw : c.memWbQ.valid = false) (hx : c.exMemQ.valid = false) (hd : c.idExQ.valid = false) :
    (c.next P i).potential U u' < c.potential U u := by
  have hdecoded (hf : c.ifIdQ.valid = true) (hv : (c.next P i).idExQ.valid = true) :
      (c.next P i).potential U u' < c.potential U u := by
    have hle := potential_of_idEx (c := c.next P i) hv hs.bound
    have hmdu := (c.next P i).mduLeft_le
    have hpot : c.potential U u = 39 + U := by simp [potential, hw, hx, hd, hf]
    omega
  rcases edge_of_empty P ht hrst hw hx hd with ⟨hf, hv⟩ | ⟨hid, hif, hfetch⟩
  · exact hdecoded hf hv
  cases hf : c.ifIdQ.valid with
  | true => exact hdecoded hf (by rw [hid, idExD_valid, hf])
  | false =>
    have hpot : c.potential U u = 40 + U + c.ifStage.left := by simp [potential, hw, hx, hd, hf]
    cases hfv : c.ifStage.fetchValid (c.ifIn i) with
    | true =>
      have hle := potential_of_ifId (c := c.next P i) (U := U)
        (by rw [hif, ifIdD, IfStage.fetchPacket, if_pos hfv]; split <;> rfl) hs.bound
      omega
    | false =>
      have hlt : (c.next P i).ifStage.left < c.ifStage.left :=
        IfStage.left_next P.resetVector hfetch hs.imemReady hs.imemRsp hfv
      have hle := potential_le (c.next P i) hs.bound
      omega

/-- In a cycle without commit the oldest packet gets closer to MEM/WB. -/
theorem potential_next (hc : Reachable P c) (hrst : i.rst = false) (hs : Served c i U u u')
    (hw : c.memWbQ.valid = false) : (c.next P i).potential U u' < c.potential U u := by
  have ht := hc.trapDrain
  cases hx : c.exMemQ.valid with
  | true => exact potential_next_exMem hc.dataAccess ht hrst hs hw hx
  | false =>
    cases hd : c.idExQ.valid with
    | true => exact potential_next_idEx hc.mulDiv hrst hs.bound hw hx hd
    | false => exact potential_next_fetch ht hrst hs hw hx hd

end Core

end Rv32im

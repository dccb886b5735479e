import Rv32im.Ports.LsuService
import Rv32im.Soc.ByteArray

/-!
# The load/store path

`lsu` on the data port of `rv32_tcm`, without kill or reset, with any accesses on the instruction
port. The operations accepted and the responses taken are recorded.

* `LoadStore.circuit`: the runs;
* `LoadStore.Refines`: the path behaves like the byte array on the recorded operations;
* `LoadStore.byte_array`: it does so after every run.
-/

namespace Rv32im

open Clocked Memory

/-- The load/store unit, the memory, the operations accepted and the responses taken so far. -/
structure LoadStore (p : TcmParams) where
  lsu : Lsu := {}
  tcm : Tcm p
  ops : List MemOp := []
  responses : List (Word × Exc) := []

namespace LoadStore

/-- The operation offered by the pipeline, its `rsp_ready_i`, and the instruction port. -/
structure In where
  reqValid : Bool := false
  cmd : MemCmd := .none
  size : MemSize := .byte
  loadUnsigned : Bool := false
  addr : Word := 0#32
  storeData : Word := 0#32
  rspReady : Bool := true
  imem : MemOut := {}

/-- The operation offered. -/
def In.op (i : In) : MemOp :=
  ⟨i.cmd == .store, i.size, i.loadUnsigned, i.addr, i.storeData⟩

variable {p : TcmParams} (s : LoadStore p) (i : In)

/-- The inputs of `lsu`: the memory is always ready. -/
def lsuIn : Lsu.In where
  reqValid := i.reqValid
  cmd := i.cmd
  size := i.size
  loadUnsigned := i.loadUnsigned
  addr := i.addr
  storeData := i.storeData
  dmem := s.tcm.dmemRsp.drive true

/-- What is driven on the ports of the memory. -/
def tcmIn : Tcm.In where
  imem := i.imem
  dmem := { reqValid := s.lsu.reqValid (s.lsuIn i), req := s.lsu.req (s.lsuIn i) }

/-- The operation is accepted in this cycle. -/
def accepts : Bool := s.lsu.accepts (s.lsuIn i)

/-- The response offered in this cycle is taken. -/
def takes : Bool := s.lsu.rspValid (s.lsuIn i) && i.rspReady

/-- A cycle of the path. -/
def next : LoadStore p where
  lsu := s.lsu.next (s.lsuIn i) i.rspReady
  tcm := s.tcm.next (s.tcmIn i)
  ops := if s.accepts i then s.ops ++ [i.op] else s.ops
  responses :=
    if s.takes i then
      s.responses ++ [(s.lsu.loadData (s.lsuIn i), s.lsu.exception (s.lsuIn i))]
    else s.responses

/-- The pipeline offers loads and stores only. -/
def circuit (p : TcmParams) : Circuit (LoadStore p) In where
  legal _ i := i.reqValid = true → i.cmd = .load ∨ i.cmd = .store
  next := next

/-- Whether a cycle is legal can be computed. -/
instance (s : LoadStore p) (i : In) : Decidable ((circuit p).legal s i) :=
  inferInstanceAs (Decidable (_ → _))

/-- The byte array, from the bytes `m`, is what the path implements: its bytes after the operations
accepted are those of the memory, and its results are the responses taken, of which at most the last
is still to be taken and is then on offer. -/
structure Refines (m : Bytes) (s : LoadStore p) : Prop where
  memory : p.bytesOf s.tcm.mem = MemOp.after p.baseAddr.toNat p.limit m s.ops
  responses : s.responses <+: MemOp.results p.baseAddr.toNat p.limit m s.ops
  atMostOne : s.ops.length ≤ s.responses.length + 1
  offered : s.responses.length < s.ops.length → ∀ i, s.lsu.rspValid (s.lsuIn i) = true
  ready : s.responses.length = s.ops.length → ∀ i, s.lsu.reqReady (s.lsuIn i) = true

/-- The unit is about to give the response `v`: it arrives from the memory in this cycle, or it is
kept. -/
def Holds (s : LoadStore p) (v : Word × Exc) : Prop :=
  s.lsu.stateQ = .busy ∧ s.lsu.requestSentQ = true ∧ s.lsu.discardQ = false ∧
      s.tcm.dmemRsp.valid = true ∧
      (s.lsu.op.loadData s.tcm.dmemRsp.rsp, s.lsu.op.exception s.tcm.dmemRsp.rsp) = v ∨
    s.lsu.stateQ = .resp ∧ s.tcm.dmemRsp.valid = false ∧
      (s.lsu.loadDataQ, s.lsu.exceptionQ) = v

/-- The invariant of the path: nothing is under way, or exactly the last operation. -/
structure Tracks (m : Bytes) (s : LoadStore p) : Prop where
  memory : p.bytesOf s.tcm.mem = MemOp.after p.baseAddr.toNat p.limit m s.ops
  answered : (s.lsu.stateQ = .idle ∧ s.tcm.dmemRsp.valid = false ∧
      s.responses = MemOp.results p.baseAddr.toNat p.limit m s.ops) ∨
    ∃ os o, s.ops = os ++ [o] ∧ s.responses = MemOp.results p.baseAddr.toNat p.limit m os ∧
      s.Holds (o.result p.baseAddr.toNat p.limit (MemOp.after p.baseAddr.toNat p.limit m os))

variable {s i} {m : Bytes} {v : Word × Exc}

/-- The memory accepts what is presented. -/
theorem fire_eq : s.lsu.requestFire (s.lsuIn i) = (s.tcmIn i).dmem.reqValid := by
  simp [Lsu.requestFire, lsuIn, MemRspQ.drive, tcmIn]

/-- Without a request the array is kept and no answer follows. -/
theorem quiet (hfire : s.lsu.requestFire (s.lsuIn i) = false) :
    (s.next i).tcm.mem = s.tcm.mem ∧ (s.next i).tcm.dmemRsp.valid = false := by
  rw [fire_eq] at hfire
  simp [next, Tcm.next, hfire, MemRspQ.next]

/-- The response is offered exactly while an operation is under way. -/
theorem Holds.offers (h : s.Holds v) (i : In) : s.lsu.rspValid (s.lsuIn i) = true ∧
    (s.lsu.loadData (s.lsuIn i), s.lsu.exception (s.lsuIn i)) = v := by
  obtain ⟨hs, hsent, hdisc, hvalid, rfl⟩ | ⟨hs, -, rfl⟩ := h
  · have hrsp : s.lsu.rspValid (s.lsuIn i) = true := by
      have hv : (s.lsuIn i).dmem.rspValid = true := hvalid
      have hk : (s.lsuIn i).kill = false := rfl
      simp [Lsu.rspValid, hs, Lsu.responseSeen, hv, hsent, Lsu.responseDiscard, hdisc, hk]
    simp [Lsu.loadData, Lsu.exception, hrsp, hs, Lsu.responseLoadData, Lsu.responseException]
    exact ⟨rfl, rfl⟩
  · have hrsp : s.lsu.rspValid (s.lsuIn i) = true := by
      have hk : (s.lsuIn i).kill = false := rfl
      simp [Lsu.rspValid, hs, hk]
    simp [Lsu.loadData, Lsu.exception, hrsp, hs]

/-- The request of an operation in the cycle that accepts it. -/
theorem req_eq (h : s.lsu.issueInput (s.lsuIn i) = true) : s.lsu.req (s.lsuIn i) =
    { addr := Word.align i.addr, write := i.cmd == .store
      wdata := Lsu.inputStoreWdata i.size i.addr i.storeData
      wstrb := if i.cmd == .store then Lsu.inputStoreWstrb i.size i.addr else 0#4 } := by
  simp only [Lsu.req, Lsu.reqWrite, h, if_true]
  rfl

/-- The response under way leaves the bus quiet, and is offered until it is taken. -/
theorem Holds.next (h : s.Holds v) (i : In) : s.accepts i = false ∧
    (s.next i).tcm.mem = s.tcm.mem ∧ (s.next i).tcm.dmemRsp.valid = false ∧
    (i.rspReady = true ∧ (s.next i).lsu.stateQ = .idle ∨
      i.rspReady = false ∧ (s.next i).Holds v) := by
  obtain ⟨hrsp, hv⟩ := h.offers i
  have hne : s.lsu.stateQ ≠ .idle := by
    obtain ⟨hs, -⟩ | ⟨hs, -⟩ := h <;> simp [hs]
  have hfire : s.lsu.requestFire (s.lsuIn i) = false := by
    obtain ⟨hs, hsent, -⟩ | ⟨hs, -⟩ := h <;>
      simp [Lsu.requestFire, Lsu.reqValid, Lsu.issueInput, Lsu.reqReady, Lsu.issueSaved, *]
  obtain ⟨hmem, hvalid⟩ := quiet hfire
  refine ⟨Lsu.accepts_of_ne_idle hne, hmem, hvalid, ?_⟩
  cases hr : i.rspReady
  · -- a response that is not taken is kept
    obtain ⟨hs, hd, he⟩ := Lsu.keeps (q := s.lsu) (i := s.lsuIn i) rfl hrsp
    refine .inr ⟨rfl, .inr ⟨?_, hvalid, ?_⟩⟩
    · simpa [LoadStore.next, hr] using hs
    · rw [← hv, ← hd, ← he]
      simp [LoadStore.next, hr]
  · refine .inl ⟨rfl, ?_⟩
    have hidle := Lsu.idle_next_of_rspValid (q := s.lsu) (i := s.lsuIn i) rfl hrsp
    rwa [LoadStore.next, hr]

/-- An accepted operation takes effect in the memory, and its result is under way. -/
theorem holds_next (hp : p.Placed) (hl : (circuit p).legal s i)
    (hvalid : s.tcm.dmemRsp.valid = false) (ha : s.accepts i = true) :
    p.bytesOf (s.next i).tcm.mem = i.op.effect p.baseAddr.toNat p.limit (p.bytesOf s.tcm.mem) ∧
    (s.next i).Holds (i.op.result p.baseAddr.toNat p.limit (p.bytesOf s.tcm.mem)) := by
  have hidle : s.lsu.stateQ = .idle := (Lsu.idle_of_accepts ha).1
  have hreq : i.reqValid = true := by
    simp only [accepts, Lsu.accepts, lsuIn, Bool.and_eq_true] at ha
    exact ha.1
  have hcmd : i.cmd = if i.op.isStore then .store else .load := by
    rcases hl hreq with hc | hc <;> simp [In.op, hc]
  have hmemory : Lsu.isMemory i.cmd = true := by
    rcases hl hreq with hc | hc <;> simp [Lsu.isMemory, hc]
  have hmis : i.op.Misaligned ↔ Lsu.addressMisaligned i.size i.addr = true :=
    (addressMisaligned_iff _ _).symm
  -- the memory never answers in the cycle of the request, so two cases remain
  cases Lsu.next_cases (q := s.lsu) (i := s.lsuIn i) (b := i.rspReady) rfl with
  | offBus state accepts bus fire rsp next =>
    -- a misaligned access does not reach the memory
    obtain ⟨hmem, hv⟩ := quiet fire
    have hbad : Lsu.addressMisaligned i.size i.addr = true := by
      simpa [LsuOp.onBus, Lsu.In.op, lsuIn, hmemory] using bus
    have hmis := hmis.mpr hbad
    rw [hmem, MemOp.effect, if_neg fun h => h.2.1 hmis, MemOp.result, if_pos hmis]
    refine ⟨rfl, .inr ⟨next.1, hv, ?_⟩⟩
    obtain ⟨-, -, -, hd, he⟩ := next
    have hload : (i.cmd = .load) = (i.op.isStore = false) := by
      rcases hl hreq with hc | hc <;> simp [In.op, hc]
    rw [Prod.mk.injEq]
    refine ⟨hd, he.trans ?_⟩
    have hlocal : (s.lsuIn i).op.localException = Lsu.makeMisalignedException i.cmd i.addr := by
      simp [LsuOp.localException, Lsu.In.op, lsuIn, hmemory, hbad]
    rw [hlocal, Lsu.makeMisalignedException, MemOp.fault]
    simp only [hload]
    cases i.op.isStore <;> rfl
  | issued state accepts bus rsp fire open' next =>
    have hgood : ¬ i.op.Misaligned := by
      rw [hmis]
      simpa [LsuOp.onBus, Lsu.In.op, lsuIn, hmemory] using bus
    have hfire : s.lsu.requestFire (s.lsuIn i) = true := fire
    have hissue : s.lsu.issueInput (s.lsuIn i) = true := by
      simpa [Lsu.requestFire, Lsu.reqValid, Lsu.issueSaved, hidle, lsuIn, MemRspQ.drive] using hfire
    have hvalid : (s.tcmIn i).dmem.reqValid = true := fire_eq.symm.trans hfire
    have hreq := req_eq hissue
    -- the memory takes the request at once and registers its answer
    have hstep : (s.next i).tcm.mem = Tcm.write s.tcm.mem (s.lsu.req (s.lsuIn i)) ∧
        (s.next i).tcm.dmemRsp = .next true (p.inRange (Word.align i.addr))
          (s.tcm.read (Word.align i.addr)) := by
      have haddr : (s.tcmIn i).dmem.req.addr = Word.align i.addr := by simp [tcmIn, hreq]
      simp only [LoadStore.next, Tcm.next, hvalid, haddr, if_true]
      exact ⟨rfl, trivial⟩
    rw [hstep.1, hreq]
    refine ⟨?_, .inl ⟨next.1, next.2.1.trans hfire, next.2.2.1, ?_, ?_⟩⟩
    · refine effect_write hp hgood rfl rfl ?_ fun _ => rfl
      intro hst
      exact if_pos hst
    · rw [hstep.2]
      rfl
    · have hop : (s.next i).lsu.op = (s.lsuIn i).op := next.2.2.2
      rw [hop]
      exact result_read hp hgood hcmd s.tcm (congrArg MemRspQ.rsp hstep.2)
  | answered state accepts bus fire valid rsp data exc next =>
    simp [lsuIn, MemRspQ.drive, hvalid] at valid
  | ignored state accepts fire rsp next => simp [LoadStore.accepts, accepts] at ha
  | waits state seen rsp fire next => simp [hidle] at state
  | finishes state seen valid sent fire rsp data next => simp [hidle] at state
  | offers state fire rsp data next => simp [hidle] at state

/-- While nothing is under way, no response is offered. -/
theorem rspValid_of_idle (hs : s.lsu.stateQ = .idle) (hvalid : s.tcm.dmemRsp.valid = false)
    (i : In) : s.lsu.rspValid (s.lsuIn i) = false := by
  have hv : (s.lsuIn i).dmem.rspValid = false := hvalid
  simp [Lsu.rspValid, hs, Lsu.responseSeen, hv]

/-- An idle unit that accepts nothing stays so. -/
theorem idle_next (hs : s.lsu.stateQ = .idle) (ha : s.accepts i = false) :
    (s.next i).lsu.stateQ = .idle ∧ (s.next i).tcm.mem = s.tcm.mem ∧
      (s.next i).tcm.dmemRsp.valid = false := by
  have hissue : s.lsu.issueInput (s.lsuIn i) = false := by
    simp only [accepts, Lsu.accepts] at ha
    simp [Lsu.issueInput, ha]
  obtain ⟨hmem, hvalid⟩ := quiet (s := s) (i := i)
    (by simp [Lsu.requestFire, Lsu.reqValid, hissue, Lsu.issueSaved, hs])
  refine ⟨?_, hmem, hvalid⟩
  have hrst : (s.lsuIn i).rst = false := rfl
  simp only [accepts] at ha
  simp [next, Lsu.next, hrst, hs, Lsu.nextIdle, ha]

/-- Each cycle keeps the path and the byte array together. -/
theorem Tracks.next (h : Tracks m s) (hp : p.Placed) (hl : (circuit p).legal s i) :
    Tracks m (s.next i) := by
  -- either nothing is under way or exactly the last operation
  obtain ⟨hs, hvalid, hrsps⟩ | ⟨os, o, hops, hrsps, hholds⟩ := h.answered
  · have htakes : s.takes i = false := by simp [takes, rspValid_of_idle hs hvalid]
    have hrsps' : (s.next i).responses = s.responses := by simp [LoadStore.next, htakes]
    cases ha : s.accepts i
    · obtain ⟨hs', hmem, hvalid'⟩ := idle_next hs ha
      have hops : (s.next i).ops = s.ops := by simp [LoadStore.next, ha]
      exact ⟨by rw [hmem, hops, h.memory], .inl ⟨hs', hvalid', by rw [hrsps', hops, hrsps]⟩⟩
    · obtain ⟨hmem, hholds⟩ := holds_next hp hl hvalid ha
      have hops : (s.next i).ops = s.ops ++ [i.op] := by simp [LoadStore.next, ha]
      rw [h.memory] at hmem hholds
      refine ⟨by rw [hmem, hops, MemOp.after_append], .inr ⟨s.ops, i.op, hops, ?_, hholds⟩⟩
      rw [hrsps', hrsps]
  · obtain ⟨ha, hmem, hvalid, hnext⟩ := hholds.next i
    obtain ⟨hrsp, hv⟩ := hholds.offers i
    have hops' : (s.next i).ops = s.ops := by simp [LoadStore.next, ha]
    refine ⟨by rw [hmem, hops', h.memory], ?_⟩
    obtain ⟨hr, hs⟩ | ⟨hr, hholds'⟩ := hnext
    · have hrsps' : (s.next i).responses =
          s.responses ++ [o.result p.baseAddr.toNat p.limit
            (MemOp.after p.baseAddr.toNat p.limit m os)] := by
        simp only [LoadStore.next, takes, hrsp, hr, hv, Bool.and_self, if_true]
      exact .inl ⟨hs, hvalid, by rw [hrsps', hops', hops, MemOp.results_append, hrsps]⟩
    · have hrsps' : (s.next i).responses = s.responses := by
        simp [LoadStore.next, takes, hr]
      exact .inr ⟨os, o, by rw [hops', hops], by rw [hrsps', hrsps], hholds'⟩

/-- What the invariant says about the responses. -/
theorem Tracks.refines (h : Tracks m s) : Refines m s := by
  have hlen := MemOp.length_results p.baseAddr.toNat p.limit m
  obtain ⟨hs, hvalid, hrsps⟩ | ⟨os, o, hops, hrsps, hholds⟩ := h.answered
  · have heq : s.responses.length = s.ops.length := by rw [hrsps, hlen]
    have hready (i : In) : s.lsu.reqReady (s.lsuIn i) = true := by
      have hrst : (s.lsuIn i).rst = false := rfl
      have hkill : (s.lsuIn i).kill = false := rfl
      simp [Lsu.reqReady, hs, hrst, hkill]
    exact ⟨h.memory, hrsps ▸ List.prefix_refl _, by omega, fun hlt => by omega, fun _ => hready⟩
  · have heq : s.responses.length + 1 = s.ops.length := by
      rw [hops, hrsps, hlen, List.length_append, List.length_singleton]
    refine ⟨h.memory, ?_, by omega, fun _ i => (hholds.offers i).1, fun h => by omega⟩
    rw [hops, hrsps, MemOp.results_append]
    exact List.prefix_append _ _

/-- The load/store path is a little-endian byte array: for every initial memory and every sequence
of loads and stores, with any gaps and any accesses on the instruction port. -/
theorem byte_array (hp : p.Placed) {mem : Vector Word p.wordCount} {is : List In} {s : LoadStore p}
    (h : (circuit p).Run { tcm := { mem := mem } } is s) : Refines (p.bytesOf mem) s := by
  have ht : Tracks (p.bytesOf mem) s :=
    h.invariant (I := Tracks (p.bytesOf mem)) ⟨rfl, .inl ⟨rfl, rfl, rfl⟩⟩
      fun _ _ ht hl => ht.next hp hl
  exact ht.refines

/-- Four words at the address 16. -/
def small : TcmParams where
  wordCount := 4
  baseAddr := 16#32
  wordCount_pos := by decide
  wordCount_lt := by decide

/-- A halfword store, a load of its upper byte, a misaligned load and a store outside the memory. -/
def accesses : List In :=
  [{ reqValid := true, cmd := .store, size := .half, addr := 18#32, storeData := 0x8001#32 }, {},
   { reqValid := true, cmd := .load, size := .byte, addr := 19#32 }, {},
   { reqValid := true, cmd := .load, size := .word, addr := 17#32 }, {},
   { reqValid := true, cmd := .store, size := .byte, addr := 15#32, storeData := 1#32 }, {}]

/-- The byte is extended with its sign, and the last two fail. -/
theorem byte_array_accesses :
    ((circuit small).exec { tcm := { mem := .replicate 4 0#32 } } accesses).responses =
      [(0#32, {}), (0xffffff80#32, {}),
       (0#32, { valid := true, cause := excLoadAddrMisaligned, tval := 17#32 }),
       (0#32, { valid := true, cause := excStoreAccessFault, tval := 15#32 })] ∧
    Refines (small.bytesOf (.replicate 4 0#32))
      ((circuit small).exec { tcm := { mem := .replicate 4 0#32 } } accesses) :=
  ⟨by decide, byte_array ⟨by decide, by decide⟩ (Circuit.Run.of_always (by decide))⟩

end LoadStore

end Rv32im

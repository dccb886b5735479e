import Rv32im.Isa.Bus
import Rv32im.Sequential.Commits
import Rv32im.Soc.Ports

/-!
# The address space of the SoC

What software sees behind the core: a little-endian byte array that holds program and data, and
peripherals in their apertures. It is what the words on the two ports make up.

* `Board`, `Board.bus`: the byte array and the accesses to the peripherals so far;
* `Board.after`: the board after a list of requests;
* `Board.Answers`: what the ports have to answer;
* `Board.simulates`: the board does what the two ports do.
-/

namespace Rv32im

open Memory Riscv Soc

/-- An address of the memory. -/
def TcmParams.Holds (p : TcmParams) (a : Word) : Prop :=
  p.baseAddr.toNat ≤ a.toNat ∧ a.toNat < p.limit

/-- Whether an address is one of the memory can be computed. -/
instance (p : TcmParams) (a : Word) : Decidable (p.Holds a) := inferInstanceAs (Decidable (_ ∧ _))

/-- The bytes of the memory, and the requests that the peripherals have got. -/
structure Board where
  bytes : Bytes
  device : List MemReq := []

/-- The address space: the answers of the peripherals are given in their order. -/
def Board.bus (P : SocParams) (dev : ℕ → MemRsp) : Bus Board where
  fetch b pc := if P.tcm.Holds pc then some (b.bytes.load pc.toNat 4) else none
  load b a n :=
    if MemDemux.requestTarget P.demux (Word.align a) = .tcm then
      (if P.tcm.Holds a then some (b.bytes.load a.toNat n) else none, b)
    else
      -- a peripheral sees the access as it is on the port
      let (v, rs) := (Env.bus { prog := fun _ => {}, answers := dev }).load b.device a n
      (v, { b with device := rs })
  store b a n v :=
    if MemDemux.requestTarget P.demux (Word.align a) = .tcm then
      if P.tcm.Holds a then (true, { b with bytes := b.bytes.store a.toNat n v }) else (false, b)
    else
      let (ok, rs) := (Env.bus { prog := fun _ => {}, answers := dev }).store b.device a n v
      (ok, { b with device := rs })

/-! ### Accesses to the memory -/

section Access

variable {p : TcmParams} {mem : Vector Word p.wordCount} {a : Word} {size : MemSize}

/-- The word of an address is in range if the memory holds the address. -/
theorem holds_iff (hp : p.Placed) : p.inRange (Word.align a) = true ↔ p.Holds a := by
  have haligned := hp.aligned
  have hwa : (Word.align a).toNat = 4 * (a.toNat / 4) := toNat_align a
  rw [TcmParams.inRange_align, hwa, TcmParams.Holds, TcmParams.limit, TcmParams.bytes]
  omega

/-- An access in memory is in range. -/
theorem inRange_of_holds (hp : p.Placed) (h : p.Holds a) (o : MemOp) (ho : o.addr = a) :
    o.InRange p.baseAddr.toNat p.limit := by
  rw [← inRange_iff hp, ho]
  exact (holds_iff hp).mpr h

/-- The bytes at an address are in the word that the memory reads. -/
theorem load_read (mem : Vector Word p.wordCount) (size : MemSize) (hp : p.Placed) (h : p.Holds a)
    (ha : a.toNat % size.bytes = 0) :
    ((Tcm.read { mem } (Word.align a)) >>> (8 * (a.toNat % 4))).setWidth (8 * size.bytes) =
      (p.bytesOf mem).load a.toNat size.bytes := by
  let o : MemOp := { isStore := false, size, loadUnsigned := true, addr := a, data := 0#32 }
  have hr := inRange_of_holds hp h o rfl
  have hread := extractLoadData_read mem hp (o := o) (not_not.mpr ha) hr
  rw [extractLoadData_eq, BitVec.ushiftRight_eq', toNat_low_append] at hread
  have hread : (((Tcm.read { mem } (Word.align a)) >>> (8 * (a.toNat % 4))).setWidth
        (8 * size.bytes)).setWidth 32 =
      ((p.bytesOf mem).load a.toNat size.bytes).setWidth 32 := hread
  -- nothing is lost in a word
  have hle : 8 * size.bytes ≤ 32 := by cases size <;> simp [MemSize.bytes]
  apply BitVec.eq_of_getLsbD_eq
  intro j hj
  have hbit := congrArg (·.getLsbD j) hread
  simp only [BitVec.getLsbD_setWidth, show j < 32 by omega, decide_true, Bool.true_and] at hbit
  simpa [hj] using hbit

/-- The memory after a store. -/
theorem write_store (hp : p.Placed) (ha : a.toNat % size.bytes = 0) (v : Word) {r : MemReq}
    (haddr : r.addr = Word.align a) (hw : r.write = true)
    (hstrb : r.wstrb = Lsu.inputStoreWstrb size a)
    (hdata : r.wdata = Lsu.inputStoreWdata size a v) :
    p.bytesOf (Tcm.write mem r) =
      if p.Holds a then (p.bytesOf mem).store a.toNat size.bytes v else p.bytesOf mem := by
  let o : MemOp := { isStore := true, size, loadUnsigned := true, addr := a, data := v }
  have heffect : p.bytesOf (Tcm.write mem r) = o.effect p.baseAddr.toNat p.limit (p.bytesOf mem) :=
    effect_write hp (not_not.mpr ha) haddr hw (fun _ => hstrb) (fun _ => hdata)
  have hrange : o.InRange p.baseAddr.toNat p.limit ↔ p.Holds a := by
    rw [← inRange_iff hp, ← holds_iff hp]
  rw [heffect, MemOp.effect]
  by_cases h : p.Holds a
  · rw [if_pos ⟨rfl, not_not.mpr ha, hrange.mpr h⟩, if_pos h]
  · rw [if_neg fun hc => h (hrange.mp hc.2.2), if_neg h]

end Access

/-! ### The board behind the ports -/

namespace Board

variable {P : SocParams} {mem₀ : Vector Word P.tcm.wordCount} {dev : ℕ → MemRsp}
  {rs : List MemReq} {E : Env}

/-- The board after requests of the core. -/
def after (mem₀ : Vector Word P.tcm.wordCount) (rs : List MemReq) : Board where
  bytes := P.tcm.bytesOf (written mem₀ rs)
  device := rs.filter (target P · ≠ .tcm)

/-- The answers to requests that come from the board. -/
structure Answers (mem₀ : Vector Word P.tcm.wordCount) (dev : ℕ → MemRsp) (rs : List MemReq)
    (answers : ℕ → MemRsp) : Prop where
  tcm : ∀ k r, rs[k]? = some r → target P r = .tcm →
    answers k = Tcm.answer (written mem₀ (rs.take k)) r
  device : ∀ k r, rs[k]? = some r → target P r ≠ .tcm →
    answers k = dev (after mem₀ (rs.take k)).device.length

/-- A request that goes to a peripheral leaves the memory alone, and the other way round. -/
theorem after_append (mem₀ : Vector Word P.tcm.wordCount) (m : List MemReq) (r : MemReq) :
    after mem₀ (m ++ [r]) = if target P r = .tcm then
      { after mem₀ m with bytes := P.tcm.bytesOf (Tcm.write (written mem₀ m) r) }
    else { after mem₀ m with device := (after mem₀ m).device ++ [r] } := by
  have hw : written mem₀ (m ++ [r]) =
      if target P r = .tcm then Tcm.write (written mem₀ m) r else written mem₀ m := by
    rw [written_append]
    by_cases h : target P r = .tcm <;> simp [written, sentTo, h]
  rw [after, hw]
  by_cases h : target P r = .tcm <;> simp [after, h]

/-- The request after a part of the requests. -/
theorem get_of_prefix {m : List MemReq} {r : MemReq} (h : m ++ [r] <+: rs) :
    rs[m.length]? = some r ∧ rs.take m.length = m := by
  obtain ⟨rest, rfl⟩ := h
  simp

/-- The sizes are those of the load/store unit. -/
theorem exists_size {n : ℕ} (h : n ∈ Sizes) : ∃ size : MemSize, size.bytes = n := by
  simp only [Sizes, List.mem_cons, List.not_mem_nil, or_false] at h
  rcases h with rfl | rfl | rfl
  · exact ⟨.byte, rfl⟩
  · exact ⟨.half, rfl⟩
  · exact ⟨.word, rfl⟩

/-- A load from the board. -/
theorem load_simulates (hp : P.tcm.Placed) (hE : Answers mem₀ dev rs E.answers)
    {m : List MemReq} {a : Word} {size : MemSize} (ha : a.toNat % size.bytes = 0)
    (hok : (E.bus.load m a size.bytes).2 <+: rs) :
    ((bus P dev).load (after mem₀ m) a size.bytes).1 = (E.bus.load m a size.bytes).1 ∧
      ((bus P dev).load (after mem₀ m) a size.bytes).2 =
        after mem₀ (E.bus.load m a size.bytes).2 := by
  obtain ⟨hget, htake⟩ := get_of_prefix hok
  have hload : E.bus.load m a size.bytes = (if (E.answers m.length).err then none
      else some (((E.answers m.length).rdata >>> (8 * (a.toNat % 4))).setWidth (8 * size.bytes)),
      m ++ [{ addr := Word.align a }]) := rfl
  have hafter := after_append mem₀ m { addr := Word.align a }
  rw [hload]
  -- the memory answers by itself, a device as it has answered in the run
  by_cases ht : target P { addr := Word.align a } = .tcm
  · have hans := hE.tcm _ _ hget ht
    rw [if_pos ht, Tcm.write_of_read rfl] at hafter
    rw [htake] at hans
    have hbus : (bus P dev).load (after mem₀ m) a size.bytes =
        (if P.tcm.Holds a then some ((P.tcm.bytesOf (written mem₀ m)).load a.toNat size.bytes)
          else none, after mem₀ m) := if_pos ht
    rw [hbus, hafter, hans]
    refine ⟨?_, rfl⟩
    by_cases h : P.tcm.Holds a
    · have hr := (holds_iff hp).mpr h
      rw [if_pos h, ← load_read _ _ hp h ha]
      simp [Tcm.answer, MemRspQ.next, hr]
    · have hr : P.tcm.inRange (Word.align a) = false := by
        simpa using mt (holds_iff hp).mp h
      simp [Tcm.answer, MemRspQ.next, hr, h]
  · have hans := hE.device _ _ hget ht
    rw [if_neg ht] at hafter
    rw [htake] at hans
    have hbus : (bus P dev).load (after mem₀ m) a size.bytes =
        (((Env.bus { prog := fun _ => {}, answers := dev }).load (after mem₀ m).device a
            size.bytes).1,
          { after mem₀ m with device := (after mem₀ m).device ++ [{ addr := Word.align a }] }) :=
      if_neg ht
    rw [hbus, hafter, hans]
    exact ⟨rfl, rfl⟩

/-- A store to the board. -/
theorem store_simulates (hp : P.tcm.Placed) (hE : Answers mem₀ dev rs E.answers)
    {m : List MemReq} {a v : Word} {size : MemSize} (ha : a.toNat % size.bytes = 0)
    (hok : (E.bus.store m a size.bytes v).2 <+: rs) :
    ((bus P dev).store (after mem₀ m) a size.bytes v).1 = (E.bus.store m a size.bytes v).1 ∧
      ((bus P dev).store (after mem₀ m) a size.bytes v).2 =
        after mem₀ (E.bus.store m a size.bytes v).2 := by
  obtain ⟨hget, htake⟩ := get_of_prefix hok
  -- the request on the port, as the load/store unit and as the bus write it
  let r : MemReq := { addr := Word.align a, write := true
                      wdata := (v.setWidth (8 * size.bytes)).setWidth 32 <<< (8 * (a.toNat % 4))
                      wstrb := (BitVec.allOnes size.bytes).setWidth 4 <<< (a.toNat % 4) }
  have hstore : E.bus.store m a size.bytes v = (!(E.answers m.length).err, m ++ [r]) := rfl
  have hafter := after_append mem₀ m r
  rw [hstore]
  -- a store to the memory changes bytes, one to a device is recorded
  by_cases ht : target P r = .tcm
  · have hans := hE.tcm _ _ hget ht
    have hbytes : P.tcm.bytesOf (Tcm.write (written mem₀ m) r) = if P.tcm.Holds a then
        (P.tcm.bytesOf (written mem₀ m)).store a.toNat size.bytes v
        else P.tcm.bytesOf (written mem₀ m) :=
      write_store hp ha v rfl rfl (Seq.inputStoreWstrb_eq ha).symm (Seq.inputStoreWdata_eq ha).symm
    rw [if_pos ht, hbytes] at hafter
    rw [htake] at hans
    have hbus : (bus P dev).store (after mem₀ m) a size.bytes v =
        if P.tcm.Holds a then (true, { after mem₀ m with
          bytes := (P.tcm.bytesOf (written mem₀ m)).store a.toNat size.bytes v })
        else (false, after mem₀ m) := if_pos ht
    have herr : (Tcm.answer (written mem₀ m) r).err = !P.tcm.inRange (Word.align a) := rfl
    rw [hbus, hafter, hans, herr]
    by_cases h : P.tcm.Holds a
    · simp [(holds_iff hp).mpr h, h]
    · have hr : P.tcm.inRange (Word.align a) = false := by
        simpa using mt (holds_iff hp).mp h
      simp only [hr, h, if_false]
      exact ⟨rfl, rfl⟩
  · have hans := hE.device _ _ hget ht
    rw [if_neg ht] at hafter
    rw [htake] at hans
    have hbus : (bus P dev).store (after mem₀ m) a size.bytes v =
        (!(dev (after mem₀ m).device.length).err,
          { after mem₀ m with device := (after mem₀ m).device ++ [r] }) := if_neg ht
    rw [hbus, hafter, hans]
    exact ⟨rfl, rfl⟩

/-- The board does what the two ports do, in a run with the requests `rs`. -/
theorem simulates (hp : P.tcm.Placed) (hE : Answers mem₀ dev rs E.answers) :
    E.bus.Simulates (bus P dev) (fun m b => b = after mem₀ m) (· <+: rs) where
  load_ok m a n h := (List.prefix_append ..).trans h
  store_ok m a n v h := (List.prefix_append ..).trans h
  load := by
    rintro m _ a n rfl hn ha hok
    obtain ⟨size, rfl⟩ := exists_size hn
    exact load_simulates hp hE ha hok
  store := by
    rintro m _ a n v rfl hn ha hok
    obtain ⟨size, rfl⟩ := exists_size hn
    exact store_simulates hp hE ha hok

end Board

end Rv32im

import Rv32im.Datapath.Decode
import Rv32im.Sequential.Csrs
import Rv32im.Soc.ByteArray

/-!
# Commits of the sequential machine

What the sequential machine commits, in the words of a RISC-V hart behind whose bus lie the two
ports: a packet with an exception is a trap, any other one retires, and the load/store lanes are the
bytes of an access.

* `Env.bus`: the ports as a bus, whose state is the list of the data requests made so far;
* `TraceEvent.Shows`: the trace port against what a hart does visibly;
* `Seq.Commits`, `Seq.Does`: a packet against the result of an instruction;
* `Seq.decode_encode`: the decoded packet of an instruction;
* `Seq.does_trap`, `Seq.does_local`, `Seq.does_load`, `Seq.does_store`: the kinds of packets.
-/

namespace Rv32im

open Riscv

/-- What the hart reads in a step. -/
def Observation.inputs (o : Observation) : Inputs where
  pending := o.mtipId
  mtip := o.mtipEx
  cycle := o.mcycle

/-- The ports as a bus: the program behind the instruction port, the answers to the data requests in
their order, and the list of the requests as its state. -/
def Env.bus (E : Env) : Bus (List MemReq) where
  fetch _ pc := if (E.prog (Word.index pc)).err then none else some (E.prog (Word.index pc)).rdata
  load m a n :=
    (if (E.answers m.length).err then none
      else some (((E.answers m.length).rdata >>> (8 * (a.toNat % 4))).setWidth (8 * n)),
      m ++ [{ addr := Word.align a }])
  store m a n v :=
    (!(E.answers m.length).err,
      m ++ [{ addr := Word.align a, write := true
              wdata := (v.setWidth (8 * n)).setWidth 32 <<< (8 * (a.toNat % 4))
              wstrb := (BitVec.allOnes n).setWidth 4 <<< (a.toNat % 4) }])

namespace TraceEvent

variable (e : TraceEvent)

/-- The register write on the trace port. -/
def rd : Option (RegAddr × Word) := if e.rdWe then some (e.rdAddr, e.rdData) else none

/-- The bytes under the strobes on the trace port. -/
def bytes : List (ℕ × BitVec 8) :=
  ((List.range 4).filter (e.memWstrb.getLsbD ·)).map fun k =>
    ((Word.align e.memAddr).toNat + k, Word.lane e.memWdata k)

/-- The trace port shows what the hart does. -/
structure Shows (k : Commit) : Prop where
  pc : e.pc = k.pc
  rd : e.rd = k.rd
  bytes : e.bytes = k.bytes
  trap : e.trap = k.trap.isSome
  cause : ∀ c ∈ k.trap, e.cause = c.code ∧ e.isInterrupt = c.isInterrupt

end TraceEvent

namespace Seq

variable {E : Env} {S S' : Seq} {o : Observation} {w : MemWb} {rs : List MemReq}

/-- The hart in a state of the machine. -/
def hart (S : Seq) : Hart (List MemReq) where
  pc := S.pc
  x := S.regs
  csrs := S.csr.csrs
  mem := S.requests

/-! ### Commits -/

/-- The commit of a packet, in any cycle, is what the hart does with a result. -/
structure Commits (S : Seq) (w : MemWb) (rs : List MemReq) (r : Result (List MemReq)) : Prop where
  state : ∀ t, (S.commit t w rs).hart = S.hart.after r
  shows : w.event.Shows (S.hart.commit r)

/-- The fields after a commit do not depend on the cycle. -/
theorem csrs_commit (t : ℕ) : (S.commit t w rs).csr.csrs = (S.csr.next w.commit).csrs := rfl

/-- Without strobes no bytes are written. -/
theorem bytes_of_strobes {e : TraceEvent} (h : e.memWstrb = 0#4) : e.bytes = [] := by
  simp [TraceEvent.bytes, h]

/-- The commit of a packet with an exception. -/
theorem commits_trap (hq : S.csr.Wf) {x : Riscv.Exception} {tval : Word} (hv : w.valid = true)
    (hpc : w.pc = S.pc)
    (hexc : w.exc = { valid := true, isInterrupt := false, cause := x.code, tval := tval })
    (hstrb : w.memWstrb = 0#4) : S.Commits w rs (.trap x tval (S.requests ++ rs)) := by
  have htrap : w.trap = true := by simp [MemWb.trap, hv, hexc]
  have hwrite : w.writesReg = false := by simp [MemWb.writesReg, MemWb.retire, hexc]
  constructor
  · intro t
    have hc : (S.csr.next w.commit).csrs = S.csr.csrs.trap (.exception x) w.pc w.exc.tval :=
      CsrFile.csrs_next_trap hq htrap (by simp [MemWb.commit, hexc, Cause.isInterrupt])
        (by simp [MemWb.commit, hexc, Cause.code])
    have hn : w.nextPc S.csr.mtvecQ = S.csr.mtvecQ := by
      rw [MemWb.nextPc, if_pos htrap, Word.align_of_aligned hq.mtvec]
    rw [hpc, hexc] at hc
    rw [hart, csrs_commit, hc]
    simp only [commit, hart, Hart.after, Hart.take, hn, hwrite, Regfile.write_false]
    rfl
  · constructor
    · exact hpc
    · simp [TraceEvent.rd, MemWb.event, hwrite, Hart.commit]
    · exact bytes_of_strobes hstrb
    · exact htrap
    · intro c hc
      obtain rfl : .exception x = c := by simpa [Hart.commit] using hc
      simp [MemWb.event, htrap, hexc, Cause.code, Cause.isInterrupt]

/-- The commit of a packet without exception. -/
theorem commits_retire {pc : Word} {rd : Option (RegAddr × Word)} {csrs : Csrs}
    {bytes : List (ℕ × BitVec 8)} (hv : w.valid = true) (hpc : w.pc = S.pc)
    (hexc : w.exc.valid = false)
    (hnext : (if w.controlTaken then w.controlTarget else S.pc + 4#32) = pc)
    (hrd : (if w.regWrite then some (w.rd, w.wbData) else none) = rd)
    (hcsrs : (S.csr.next w.commit).csrs = csrs) (hbytes : w.event.bytes = bytes) :
    S.Commits w rs (.retire pc rd csrs bytes (S.requests ++ rs)) := by
  have htrap : w.trap = false := by simp [MemWb.trap, hexc]
  have hwrite : w.writesReg = (w.regWrite && w.rd != 0#5) := by
    simp [MemWb.writesReg, MemWb.retire, hv, hexc]
  have hwrites : Hart.writes rd = if w.writesReg then some (w.rd, w.wbData) else none := by
    rw [← hrd, hwrite, Hart.writes]
    by_cases hz : w.rd = 0#5
    · cases w.regWrite <;> simp [hz, Option.filter]
    · cases w.regWrite <;> simp [hz, Option.filter]
  constructor
  · intro t
    have hn : w.nextPc S.csr.mtvecQ = pc := by
      rw [MemWb.nextPc, if_neg (by simp [htrap]), hpc, hnext]
    have hx : S.regs.write w.writesReg w.rd w.wbData = S.hart.writeReg rd := by
      funext r
      rw [Hart.writeReg, hwrites]
      cases hw : w.writesReg
      · rfl
      · have hz : w.rd ≠ 0#5 := by simp_all
        by_cases hr : r = w.rd <;> simp [Regfile.write, hart, hr, hz]
    rw [hart, csrs_commit, hcsrs]
    simp only [commit, hart, Hart.after, hn, hx]
  · constructor
    · exact hpc
    · rw [Hart.commit, hwrites]
      rfl
    · exact hbytes
    · exact htrap
    · simp [Hart.commit]

/-! ### Fetch and decode -/

/-- The fetch is refused. -/
theorem fetch_of_none (h : E.bus.fetch S.requests S.pc = none) : S.fetch E =
    { valid := true, pc := S.pc
      exc := { valid := true, cause := excInstAccessFault, tval := S.pc } } := by
  simp only [Env.bus] at h
  split at h
  next herr => simp [fetch, IfId.fetched, herr]
  next => contradiction

/-- A word is fetched. -/
theorem fetch_of_some {insn : Word} (h : E.bus.fetch S.requests S.pc = some insn) : S.fetch E =
    { valid := true, pc := S.pc, insn } := by
  simp only [Env.bus] at h
  split at h
  next => contradiction
  next herr =>
    obtain rfl := Option.some.inj h
    simp [fetch, IfId.fetched, herr]

/-- The control bundle tells all instructions from `ECALL`, `EBREAK` and `WFI`. -/
private theorem ctrlOf_ne {n : Instr} (he : n ≠ .ecall) (hb : n ≠ .ebreak) (hw : n ≠ .wfi) :
    ctrlOf n ≠ Decoder.defaultCtrl := by
  cases n with
  | branch op => cases op <;> simp [ctrlOf, branchOf, Decoder.defaultCtrl]
  | mulDiv op => cases op <;> simp [ctrlOf, mduOf, Decoder.defaultCtrl]
  | _ => simp_all [ctrlOf, Decoder.defaultCtrl]

/-- Only `ECALL` and `EBREAK` get an exception in ID. -/
theorem exc_encode {n : Instr} (he : n ≠ .ecall) (hb : n ≠ .ebreak) (pc : Word) :
    IdStage.exc { valid := true, pc, insn := n.encode } = {} := by
  have hd := congrArg Decoded.ctrl (decoder_encode n)
  have hne : n.encode ≠ insnEcall ∧ n.encode ≠ insnEbreak := by
    by_cases hw : n = .wfi
    · subst hw
      decide
    constructor <;>
    · intro h
      rw [h] at hd
      exact ctrlOf_ne he hb hw hd.symm
  simp [IdStage.exc, decoder_encode, hne.1, hne.2]

/-- The packet in ID/EX of an instruction, with the registers it reads. -/
theorem decode_encode {n : Instr} (hf : E.bus.fetch S.requests S.pc = some n.encode)
    (he : n ≠ .ecall) (hb : n ≠ .ebreak) : S.decode E =
      { valid := true, pc := S.pc, insn := n.encode, rs1 := n.encode.extractLsb 19 15
        rs2 := n.encode.extractLsb 24 20, rd := n.encode.extractLsb 11 7
        rs1Value := if n.readsRs1 then S.hart.reg n.rs1 else 0#32
        rs2Value := if n.readsRs2 then S.hart.reg n.rs2 else 0#32
        imm := immGen n.encode (immSelOf n), ctrl := ctrlOf n } := by
  have hread (a : RegAddr) : S.regs.read a = S.hart.reg a := by
    by_cases h : a = 0#5 <;> simp [Regfile.read, Hart.reg, hart, h]
  have hop (uses : Bool) (rs : RegAddr) : IdStage.operand uses rs false 0#5 0#32 S.regs =
      if uses then S.hart.reg rs else 0#32 := by
    simp [IdStage.operand, hread]
  have h₁ : n.readsRs1 = true → n.encode.extractLsb 19 15 = n.rs1 := by
    cases n <;> simp [Instr.readsRs1, Instr.encode, Instr.rs1, sType_eq_rType, bType_eq_rType]
  have h₂ : n.readsRs2 = true → n.encode.extractLsb 24 20 = n.rs2 := by
    cases n <;> simp [Instr.readsRs2, Instr.encode, Instr.rs2, sType_eq_rType, bType_eq_rType]
  rw [decode, fetch_of_some hf, idStage, IdStage.packet, exc_encode he hb, decoder_encode]
  simp only [hop, (ctrlOf_uses n).1, (ctrlOf_uses n).2.1]
  cases hr₁ : n.readsRs1 <;> cases hr₂ : n.readsRs2 <;> simp [h₁, h₂, hr₁, hr₂]

/-! ### Packets without access -/

/-- The step of the instruction at `pc` is what the hart does with a result. -/
def Does (E : Env) (S : Seq) (o : Observation) (r : Result (List MemReq)) : Prop :=
  S.Commits (S.packet E o) (request (S.execute E o)) r

/-- A packet without access goes through MEM as it is. -/
theorem packet_of_not_isMemory (h : (S.execute E o).isMemory = false) :
    S.packet E o = (S.execute E o).localPacket ∧ request (S.execute E o) = [] := by
  simp [packet, request, ExMem.onBus, h]

/-- An exception of the packet in EX/MEM. -/
theorem does_trap (hq : S.csr.Wf) {x : Riscv.Exception} {tval : Word}
    (hpc : (S.execute E o).pc = S.pc)
    (hexc : (S.execute E o).exc =
      { valid := true, isInterrupt := false, cause := x.code, tval := tval }) :
    S.Does E o (.trap x tval S.requests) := by
  obtain ⟨hp, hr⟩ := packet_of_not_isMemory (E := E) (S := S) (o := o)
    (by simp [ExMem.isMemory, hexc])
  have h : S.Commits (S.execute E o).localPacket [] (.trap x tval (S.requests ++ [])) :=
    commits_trap hq rfl hpc hexc rfl
  rw [List.append_nil] at h
  rw [Does, hp, hr]
  exact h

/-- A packet that neither traps nor accesses memory. -/
theorem does_local {pc : Word} {rd : Option (RegAddr × Word)} {csrs : Csrs}
    (hpc : (S.execute E o).pc = S.pc) (hexc : (S.execute E o).exc.valid = false)
    (hload : (S.execute E o).memCmd ≠ .load) (hstore : (S.execute E o).memCmd ≠ .store)
    (hnext : (if (S.execute E o).controlTaken then (S.execute E o).controlTarget
      else S.pc + 4#32) = pc)
    (hrd : (if (S.execute E o).regWrite then some ((S.execute E o).rd, (S.execute E o).fwdValue)
      else none) = rd)
    (hcsrs : (S.csr.next (S.execute E o).localPacket.commit).csrs = csrs) :
    S.Does E o (.retire pc rd csrs [] S.requests) := by
  obtain ⟨hp, hr⟩ := packet_of_not_isMemory (E := E) (S := S) (o := o)
    (by simp [ExMem.isMemory, hload, hstore])
  have h : S.Commits (S.execute E o).localPacket []
      (.retire pc rd csrs [] (S.requests ++ [])) :=
    commits_retire rfl hpc hexc hnext (by simpa [ExMem.localPacket, hexc] using hrd) hcsrs
      (bytes_of_strobes rfl)
  rw [List.append_nil] at h
  rw [Does, hp, hr]
  exact h

section LocalCommit

variable {x : ExMem}

/-- A packet without CSR write and `MRET` counts as retired. -/
theorem csrs_localPacket (q : CsrFile) (hexc : x.exc.valid = false) (hw : x.csrWrite = false)
    (hm : x.isMret = false) : (q.next x.localPacket.commit).csrs = q.csrs.counted := by
  apply CsrFile.csrs_next_counted <;>
    simp [MemWb.commit, MemWb.trap, MemWb.retire, ExMem.localPacket, hexc, hw, hm]

/-- A CSR write. -/
theorem csrs_localPacket_written (q : CsrFile) (hexc : x.exc.valid = false)
    (hw : x.csrWrite = true) (hm : x.isMret = false) {r : Csr} (ha : x.csrAddr = r.num) :
    (q.next x.localPacket.commit).csrs = q.csrs.written x.csrWdata r := by
  apply CsrFile.csrs_next_written <;>
    simp [MemWb.commit, MemWb.trap, MemWb.retire, ExMem.localPacket, hexc, hw, hm, ha]

/-- `MRET`. -/
theorem csrs_localPacket_mret {q : CsrFile} (hq : q.Wf) (hexc : x.exc.valid = false)
    (hm : x.isMret = true) : (q.next x.localPacket.commit).csrs = q.csrs.mret := by
  apply CsrFile.csrs_next_mret hq <;>
    simp [MemWb.commit, MemWb.trap, MemWb.retire, ExMem.localPacket, hexc, hm]

end LocalCommit

/-! ### Accesses -/

section Lanes

variable {size : MemSize} {a v : Word}

/-- A misaligned address, in the words of the unit. -/
theorem addressMisaligned_eq_false (h : a.toNat % size.bytes = 0) :
    Lsu.addressMisaligned size a = false := by
  rw [← Bool.not_eq_true, addressMisaligned_iff]
  simpa using h

/-- The data of an aligned store. -/
theorem inputStoreWdata_eq (h : a.toNat % size.bytes = 0) : Lsu.inputStoreWdata size a v =
    (v.setWidth (8 * size.bytes)).setWidth 32 <<< (8 * (a.toNat % 4)) := by
  cases size with
  | byte =>
    rw [Lsu.inputStoreWdata, BitVec.shiftLeft_eq', toNat_low_append]
    congr 1
    ext k hk
    simp [MemSize.bytes]
    grind
  | half =>
    have hshift : (a.extractLsb 1 1 ++ 0#4).toNat = 8 * (a.toNat % 4) := by
      rw [BitVec.toNat_append, toNat_mid, Nat.shiftLeft_eq]
      simp only [MemSize.bytes] at h
      simp
      omega
    rw [Lsu.inputStoreWdata, BitVec.shiftLeft_eq', hshift]
    congr 1
    ext k hk
    simp [MemSize.bytes]
    grind
  | word =>
    simp only [MemSize.bytes] at h
    simp [Lsu.inputStoreWdata, MemSize.bytes, h]

/-- The strobes of an aligned store. -/
theorem inputStoreWstrb_eq (h : a.toNat % size.bytes = 0) : Lsu.inputStoreWstrb size a =
    (BitVec.allOnes size.bytes).setWidth 4 <<< (a.toNat % 4) := by
  apply BitVec.eq_of_getLsbD_eq
  intro k hk
  have hlow := low_add_le h
  rw [getLsbD_inputStoreWstrb h hk, Bool.eq_iff_iff]
  simp [hk]
  omega

/-- The strobed lanes of an aligned store are its bytes. -/
theorem bytes_of_store {e : TraceEvent} (h : a.toNat % size.bytes = 0) (haddr : e.memAddr = a)
    (hstrb : e.memWstrb = Lsu.inputStoreWstrb size a)
    (hdata : e.memWdata = Lsu.inputStoreWdata size a v) :
    e.bytes = Hart.storedBytes a size.bytes v := by
  have hlow := low_add_le h
  have hlanes : ∀ m < 4, ∀ n ≤ 4, m + n ≤ 4 → (List.range 4).filter
      (fun k => decide (m ≤ k ∧ k < m + n)) = (List.range n).map (m + ·) := by
    decide
  have hfilter : (List.range 4).filter (e.memWstrb.getLsbD ·) =
      (List.range size.bytes).map (a.toNat % 4 + ·) := by
    rw [← hlanes _ (by omega) _ (by omega) hlow, hstrb]
    refine List.filter_congr fun k hk => ?_
    exact getLsbD_inputStoreWstrb h (List.mem_range.mp hk)
  rw [TraceEvent.bytes, hfilter, List.map_map, Hart.storedBytes]
  refine List.map_congr_left fun k hk => ?_
  have hk : k < size.bytes := List.mem_range.mp hk
  have hlane := lane_inputStoreWdata (k := a.toNat % 4 + k) h v (by omega) (by omega)
  rw [Nat.add_sub_cancel_left] at hlane
  rw [Function.comp_apply, haddr, hdata, hlane, toNat_align]
  congr 1
  omega

end Lanes

/-- A packet with an access that EX hands on. -/
structure Accesses (x : ExMem) (S : Seq) (cmd : MemCmd) (size : MemSize) (a : Word) : Prop where
  valid : x.valid = true
  pc : x.pc = S.pc
  exc : x.exc.valid = false
  control : x.controlTaken = false
  command : x.memCmd = cmd
  memory : Lsu.isMemory cmd = true
  size : x.memSize = size
  addr : x.exResult = a

namespace Accesses

variable {x : ExMem} {cmd : MemCmd} {size : MemSize} {a : Word}

/-- An access is a load or a store. -/
theorem isMemory (h : Accesses x S cmd size a) : x.isMemory = true := by
  have hm := h.memory
  simp only [Lsu.isMemory] at hm
  simp [ExMem.isMemory, h.valid, h.exc, h.command, hm]

/-- It goes to the bus if its address is aligned. -/
theorem op_onBus (h : Accesses x S cmd size a) :
    x.op.onBus = !Lsu.addressMisaligned size a := by
  simp [LsuOp.onBus, ExMem.op, h.command, h.memory, h.size, h.addr]

/-- A commit that writes no CSR. -/
theorem csrs_accessPacket (q : CsrFile) {data : Word} {exc : Exc} {wstrb : BitVec 4}
    {wdata : Word} (hexc : exc.valid = false) :
    (q.next (x.accessPacket data exc wstrb wdata).commit).csrs = q.csrs.counted := by
  apply CsrFile.csrs_next_counted <;>
    simp [MemWb.commit, MemWb.trap, MemWb.retire, ExMem.accessPacket, hexc]

/-- A misaligned access traps without request. -/
theorem does_misaligned (hq : S.csr.Wf) (h : Accesses (S.execute E o) S cmd size a)
    (ha : a.toNat % size.bytes ≠ 0) {x : Riscv.Exception}
    (hx : x.code = if cmd = .load then excLoadAddrMisaligned else excStoreAddrMisaligned) :
    S.Does E o (.trap x a S.requests) := by
  have hmis : Lsu.addressMisaligned size a = true := (addressMisaligned_iff size a).mpr ha
  have hbus : (S.execute E o).op.onBus = false := by rw [h.op_onBus, hmis]; rfl
  have hexc : (S.execute E o).op.localException =
      { valid := true, isInterrupt := false, cause := x.code, tval := a } := by
    simp [LsuOp.localException, ExMem.op, h.command, h.memory, h.size, h.addr, hmis,
      Lsu.makeMisalignedException, hx]
  have hc : S.Commits ((S.execute E o).accessPacket 0#32 (S.execute E o).op.localException
      (S.execute E o).op.wstrb (S.execute E o).op.wdata) [] (.trap x a (S.requests ++ [])) :=
    commits_trap hq rfl h.pc hexc (by simp [ExMem.accessPacket, hexc])
  rw [List.append_nil] at hc
  rw [Does, packet, if_pos h.isMemory, ExMem.completed, if_neg (by simp [hbus]), request,
    ExMem.onBus, hbus, Bool.and_false, if_neg (by simp)]
  exact hc

/-- The packet and the request of an aligned access. -/
theorem packet_aligned (h : Accesses (S.execute E o) S cmd size a) (ha : a.toNat % size.bytes = 0) :
    S.packet E o = (S.execute E o).accessPacket
        ((S.execute E o).op.loadData (E.answers S.requests.length))
        ((S.execute E o).op.exception (E.answers S.requests.length))
        (S.execute E o).op.wstrb (S.execute E o).op.wdata ∧
      request (S.execute E o) = [(S.execute E o).op.req] := by
  have hbus : (S.execute E o).op.onBus = true := by
    rw [h.op_onBus, addressMisaligned_eq_false ha]
    rfl
  rw [packet, if_pos h.isMemory, ExMem.completed, if_pos hbus, request, ExMem.onBus, h.isMemory,
    hbus]
  exact ⟨rfl, rfl⟩

/-- An access that is answered with an error. -/
theorem does_fault (hq : S.csr.Wf) (h : Accesses (S.execute E o) S cmd size a)
    (ha : a.toNat % size.bytes = 0) (herr : (E.answers S.requests.length).err = true)
    {x : Riscv.Exception}
    (hx : x.code = if cmd = .load then excLoadAccessFault else excStoreAccessFault) :
    S.Does E o (.trap x a (S.requests ++ [(S.execute E o).op.req])) := by
  obtain ⟨hp, hr⟩ := h.packet_aligned ha
  have hexc : (S.execute E o).op.exception (E.answers S.requests.length) =
      { valid := true, isInterrupt := false, cause := x.code, tval := a } := by
    simp [LsuOp.exception, ExMem.op, h.command, h.addr, herr, Lsu.makeAccessException, hx]
  rw [Does, hp, hr]
  exact commits_trap hq rfl h.pc hexc (by simp [ExMem.accessPacket, hexc])

end Accesses

/-- A load. -/
theorem does_load {rd : RegAddr} {a : Word} {size : MemSize} {signed : Bool}
    (hq : S.csr.Wf) (h : Accesses (S.execute E o) S .load size a)
    (hreg : (S.execute E o).regWrite = true) (hrd : (S.execute E o).rd = rd)
    (hsigned : (S.execute E o).loadUnsigned = !signed) :
    S.Does E o (S.hart.load E.bus rd a size.bytes signed) := by
  by_cases ha : a.toNat % size.bytes = 0
  · have hreq : (S.execute E o).op.req = { addr := Word.align a } := by
      simp [LsuOp.req, ExMem.op, h.command, h.addr]
    -- the port answers with an error or with the word
    cases herr : (E.answers S.requests.length).err with
    | true =>
      have hd := h.does_fault hq ha herr (x := .loadFault) rfl
      simpa [Hart.load, ha, Env.bus, hart, herr, hreq] using hd
    | false =>
      obtain ⟨hp, hr⟩ := h.packet_aligned ha
      have hexc : (S.execute E o).op.exception (E.answers S.requests.length) = {} := by
        simp [LsuOp.exception, Lsu.makeAccessException, herr]
      -- the lane formatter extends the low bytes of the shifted word
      have hdata : (S.execute E o).op.loadData (E.answers S.requests.length) =
          if signed then (((E.answers S.requests.length).rdata >>> (8 * (a.toNat % 4))).setWidth
            (8 * size.bytes)).signExtend 32
          else (((E.answers S.requests.length).rdata >>> (8 * (a.toNat % 4))).setWidth
            (8 * size.bytes)).setWidth 32 := by
        have hex := extractLoadData_eq
          { isStore := false, size, loadUnsigned := !signed, addr := a, data := 0#32 }
          (E.answers S.requests.length).rdata
        rw [BitVec.ushiftRight_eq', toNat_low_append] at hex
        rw [LsuOp.loadData, Lsu.responseData, if_pos ⟨h.command, herr⟩]
        simp only [ExMem.op, h.size, h.addr, hsigned]
        rw [hex]
        cases signed <;> rfl
      have hc : S.Commits (S.packet E o) (request (S.execute E o))
          (.retire (S.pc + 4#32)
            (some (rd, (S.execute E o).op.loadData (E.answers S.requests.length)))
            S.csr.csrs.counted [] (S.requests ++ request (S.execute E o))) := by
        refine commits_retire (by rw [hp]; rfl) (by rw [hp]; exact h.pc) (by rw [hp, hexc]; rfl)
          (by rw [hp]; simp [ExMem.accessPacket, h.control])
          (by rw [hp, hexc]; simp [ExMem.accessPacket, hreg, hrd, h.command])
          (by rw [hp]; exact Accesses.csrs_accessPacket _ (by rw [hexc])) ?_
        rw [hp]
        refine bytes_of_strobes ?_
        simp [MemWb.event, ExMem.accessPacket, ExMem.op, h.command]
      rw [hr, hreq, hdata] at hc
      rw [Does, hr, hreq]
      simpa [Hart.load, ha, Env.bus, hart, herr] using hc
  · have hd := h.does_misaligned hq ha (x := .loadMisaligned) rfl
    simpa [Hart.load, ha, hart] using hd

/-- A store. -/
theorem does_store {a v : Word} {size : MemSize} (hq : S.csr.Wf)
    (h : Accesses (S.execute E o) S .store size a) (hreg : (S.execute E o).regWrite = false)
    (hdata : (S.execute E o).storeData = v) :
    S.Does E o (S.hart.store E.bus a size.bytes v) := by
  by_cases ha : a.toNat % size.bytes = 0
  · have hmis := addressMisaligned_eq_false ha
    have hstrb : (S.execute E o).op.wstrb = Lsu.inputStoreWstrb size a := by
      simp [ExMem.op, h.command, h.size, h.addr, hmis]
    have hwdata : (S.execute E o).op.wdata = Lsu.inputStoreWdata size a v := by
      simp [ExMem.op, h.command, h.size, h.addr, hmis, hdata]
    -- the request that the hart makes of the value
    have hreq : (S.execute E o).op.req =
        { addr := Word.align a, write := true
          wdata := (v.setWidth (8 * size.bytes)).setWidth 32 <<< (8 * (a.toNat % 4))
          wstrb := (BitVec.allOnes size.bytes).setWidth 4 <<< (a.toNat % 4) } := by
      have haddr : (S.execute E o).op.addr = a := h.addr
      have hcmd : (S.execute E o).op.cmd = .store := h.command
      rw [LsuOp.req, hstrb, hwdata, haddr, hcmd, ← inputStoreWdata_eq ha, ← inputStoreWstrb_eq ha]
      rfl
    -- the port answers with an error or takes the store
    cases herr : (E.answers S.requests.length).err with
    | true =>
      have hd := h.does_fault hq ha herr (x := .storeFault) rfl
      simpa [Hart.store, ha, Env.bus, hart, herr, hreq] using hd
    | false =>
      obtain ⟨hp, hr⟩ := h.packet_aligned ha
      have hexc : (S.execute E o).op.exception (E.answers S.requests.length) = {} := by
        simp [LsuOp.exception, Lsu.makeAccessException, herr]
      have hc : S.Commits (S.packet E o) (request (S.execute E o))
          (.retire (S.pc + 4#32) none S.csr.csrs.counted (Hart.storedBytes a size.bytes v)
            (S.requests ++ request (S.execute E o))) := by
        refine commits_retire (by rw [hp]; rfl) (by rw [hp]; exact h.pc) (by rw [hp, hexc]; rfl)
          (by rw [hp]; simp [ExMem.accessPacket, h.control])
          (by rw [hp, hexc]; simp [ExMem.accessPacket, hreg])
          (by rw [hp]; exact Accesses.csrs_accessPacket _ (by rw [hexc])) ?_
        rw [hp, hexc, hstrb, hwdata]
        exact bytes_of_store ha h.addr rfl rfl
      rw [hr, hreq] at hc
      rw [Does, hr, hreq]
      simpa [Hart.store, ha, Env.bus, hart, herr] using hc
  · have hd := h.does_misaligned hq ha (x := .storeMisaligned) rfl
    simpa [Hart.store, ha, hart] using hd

end Seq

end Rv32im

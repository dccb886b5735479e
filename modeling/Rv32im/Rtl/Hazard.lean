import Rv32im.Rtl.CsrFile

/-!
# `hazard_unit` and `forwarding_unit`

The ID-stage interlocks and the EX-stage forwarding selectors. A load in ID/EX cannot forward
to its immediate consumer; CSR readers wait for conflicting writers in ID/EX or EX/MEM; all
other register dependencies are resolved by forwarding, youngest producer first.
-/

namespace Rv32im

/-- The `insn[31:20]` field: the CSR address of a Zicsr instruction. -/
def csrField (insn : Word) : CsrAddr := insn.extractLsb 31 20

namespace HazardUnit

/-- `raw_match`. -/
def rawMatch (producerValid producerWrites : Bool) (producerRd : RegAddr) (consumerUses : Bool)
    (consumerRs : RegAddr) : Bool :=
  producerValid && producerWrites && producerRd != 0#5 && consumerUses && producerRd == consumerRs

/-- `csr_addresses_conflict`: the halves of a counter alias one 64-bit state. -/
def csrAddressesConflict (consumer producer : CsrAddr) : Bool :=
  if consumer = csrMcycle ∨ consumer = csrMcycleh then
    producer == csrMcycle || producer == csrMcycleh
  else if consumer = csrMinstret ∨ consumer = csrMinstreth then
    producer == csrMinstret || producer == csrMinstreth
  else consumer == producer

/-- `id_ex_is_load`. -/
def idExIsLoad (d : IdEx) : Bool :=
  d.valid && !d.exc.valid && d.ctrl.regWrite && d.ctrl.memCmd == .load

/-- `load_use_o` for the packet `id` in ID and the packet `ex` in ID/EX. -/
def loadUse (id ex : IdEx) : Bool :=
  id.valid &&
    (rawMatch (idExIsLoad ex) ex.ctrl.regWrite ex.rd id.ctrl.usesRs1 id.rs1
      || rawMatch (idExIsLoad ex) ex.ctrl.regWrite ex.rd id.ctrl.usesRs2 id.rs2)

/-- `id_ex_csr_writer`. -/
def idExCsrWriter (d : IdEx) : Bool :=
  d.valid && !d.exc.valid && csrCommandWrites d.ctrl.csrCmd d.rs1

/-- `ex_mem_csr_writer`. -/
def exMemCsrWriter (x : ExMem) : Bool := x.valid && !x.exc.valid && x.csrWrite

/-- `csr_dependency`: an older writer to the same CSR state. -/
def csrDependency (id ex : IdEx) (x : ExMem) : Bool :=
  id.valid && id.ctrl.csrCmd != .none
    && ((idExCsrWriter ex && csrAddressesConflict (csrField id.insn) (csrField ex.insn))
      || (exMemCsrWriter x && csrAddressesConflict (csrField id.insn) x.csrAddr))

/-- `mret_dependency`: `MRET` waits for an older `mepc` writer. -/
def mretDependency (id ex : IdEx) (x : ExMem) : Bool :=
  id.valid && id.ctrl.isMret
    && ((idExCsrWriter ex && csrField ex.insn == csrMepc)
      || (exMemCsrWriter x && x.csrAddr == csrMepc))

/-- `minstret_dependency`: older retirements drain before `minstret[h]` is read. -/
def minstretDependency (id ex : IdEx) (x : ExMem) : Bool :=
  id.valid && id.ctrl.csrCmd != .none
    && (csrField id.insn == csrMinstret || csrField id.insn == csrMinstreth)
    -- any older packet that will retire counts, whatever it does
    && ((ex.valid && !ex.exc.valid) || (x.valid && !x.exc.valid))

/-- `csr_dep_o`. -/
def csrDep (id ex : IdEx) (x : ExMem) : Bool :=
  csrDependency id ex x || mretDependency id ex x || minstretDependency id ex x

end HazardUnit

namespace ForwardingUnit

/-- `source_matches`. -/
def sourceMatches (producerReady : Bool) (producerRd : RegAddr) (consumerUses : Bool)
    (consumerRs : RegAddr) : Bool :=
  producerReady && consumerUses && producerRd == consumerRs

/-- `ex_mem_value_ready`: every writeback source except an incomplete load. -/
def exMemValueReady (x : ExMem) : Bool :=
  x.valid && x.regWrite && !x.exc.valid && x.rd != 0#5 && x.wbSel != .load

/-- `mem_wb_value_ready`. -/
def memWbValueReady (w : MemWb) : Bool :=
  w.valid && w.regWrite && !w.exc.valid && w.rd != 0#5

/-- `ex_a_sel_o` and `ex_b_sel_o`: the selector of one operand of the packet `d` in ID/EX. -/
def sel (d : IdEx) (x : ExMem) (w : MemWb) (uses : Bool) (rs : RegAddr) : FwdSel :=
  if d.valid && !d.exc.valid then
    -- the younger producer has priority
    if sourceMatches (exMemValueReady x) x.rd uses rs then .exMem
    else if sourceMatches (memWbValueReady w) w.rd uses rs then .memWb
    else .regfile
  else .regfile

end ForwardingUnit

end Rv32im

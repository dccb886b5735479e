import Rv32im.Isa.Hart
import Rv32im.Sequential.Execution
import Rv32im.Units.CsrFile

/-!
# The CSR file as the registers of a hart

The read multiplexer and the access table of `csr_file` are those of the machine-mode registers, and
a commit makes the updates that a trap, `MRET`, a CSR write or any other instruction prescribes.

* `CsrFile.csrs`: the fields of the CSR file;
* `CsrFile.rdata_eq_value`, `CsrFile.accessIllegal_eq`: the read port;
* `CsrFile.csrs_next_trap` and the like: the commits.
-/

namespace Rv32im

open Riscv

namespace CsrFile

/-- The fields of the CSR file. -/
def csrs (q : CsrFile) : Csrs where
  mie := q.mstatusQ.getLsbD mstatusMieBit
  mpie := q.mstatusQ.getLsbD mstatusMpieBit
  mtie := q.mieQ.getLsbD mintMtipBit
  mtvec := q.mtvecQ
  mscratch := q.mscratchQ
  mepc := q.mepcQ
  mcause := q.mcauseQ
  mtval := q.mtvalQ
  minstret := q.minstretQ

variable {q : CsrFile} {c : CsrCommit} {a : CsrAddr}

/-- The registers in the order of the access table. -/
theorem num_all : Csr.all.map Csr.num = writableAddrs ++ readOnlyAddrs := rfl

/-- The access table has a row for each register. -/
theorem accessImplemented_eq (a : CsrAddr) : accessImplemented a = (Csr.ofNum a).isSome := by
  rw [Bool.eq_iff_iff, accessImplemented, Bool.or_eq_true, List.contains_iff_mem,
    List.contains_iff_mem, ← List.mem_append, ← num_all]
  constructor
  · intro h
    obtain ⟨r, -, rfl⟩ := List.mem_map.mp h
    simp
  · intro h
    obtain ⟨r, hr⟩ := Option.isSome_iff_exists.mp h
    exact List.mem_map.mpr ⟨r, r.mem_all, Csr.num_of_ofNum hr⟩

/-- The writable rows are those of the registers that are not read-only. -/
theorem accessWritable_num (r : Csr) : accessWritable r.num = !r.readOnly := by
  cases r <;> decide

/-- An access is illegal if there is no such register, or if it writes a read-only one. -/
theorem accessIllegal_eq {cmd : CsrCmd} (hcmd : cmd ≠ .none) (w : Bool) :
    accessIllegal a cmd w =
      ((Csr.ofNum a).isNone || (accessWrites cmd w && (Csr.ofNum a).any Csr.readOnly)) := by
  have hc : (cmd != .none) = true := by simpa using hcmd
  rw [accessIllegal, hc, Bool.true_and, accessImplemented_eq]
  cases hr : Csr.ofNum a with
  | none => rfl
  | some r => simp [← Csr.num_of_ofNum hr, accessWritable_num]

/-- `mstatus` shows its two bits. -/
theorem mstatusQ_eq (hq : q.Wf) : q.mstatusQ = 0x1800#32 |||
    Csrs.bit 3 (q.mstatusQ.getLsbD mstatusMieBit) |||
      Csrs.bit 7 (q.mstatusQ.getLsbD mstatusMpieBit) := by
  obtain h | h | h | h := mstatus_cases hq.mstatus <;> rw [h] <;> decide

/-- So does `mie`. -/
theorem mieQ_eq (hq : q.Wf) : q.mieQ = Csrs.bit 7 (q.mieQ.getLsbD mintMtipBit) := by
  have hbits : q.mieQ &&& mieWritableMask =
      Csrs.bit 7 (q.mieQ.getLsbD mintMtipBit) := by
    apply BitVec.eq_of_getLsbD_eq
    intro k hk
    have hmask : ∀ k < 32, mieWritableMask.getLsbD k = decide (k = 7) := by decide
    have hbit : ∀ b : Bool, ∀ k < 32, (Csrs.bit 7 b).getLsbD k = (b && decide (k = 7)) := by decide
    rw [BitVec.getLsbD_and, hmask k hk, hbit _ k hk]
    by_cases h7 : k = 7
    · subst h7
      simp [mintMtipBit, BitVec.getLsbD_eq_getElem]
    · simp [h7]
  rw [← hbits, hq.mie]

/-- A register reads the same; the counter, if it is the one of the inputs. -/
theorem rdata_num (hq : q.Wf) (i : Inputs) (r : Csr)
    (hi : r.num = csrMcycle ∨ r.num = csrMcycleh → q.mcycleQ = i.cycle) :
    q.rdata i.mtip r.num = q.csrs.read i r := by
  have hs := mstatusQ_eq hq
  have he := mieQ_eq hq
  cases r with
  | mstatus => exact hs
  | mie => exact he
  | mcycle => exact congrArg (BitVec.extractLsb 31 0) (hi (.inl rfl))
  | mcycleh => exact congrArg (BitVec.extractLsb 63 32) (hi (.inr rfl))
  | mip =>
    show mipValue i.mtip = Csrs.bit 7 i.mtip
    cases i.mtip <;> rfl
  | _ => rfl

/-- Any number reads the same. -/
theorem rdata_eq_value (hq : q.Wf) (i : Inputs) (a : CsrAddr)
    (hi : a = csrMcycle ∨ a = csrMcycleh → q.mcycleQ = i.cycle) :
    q.rdata i.mtip a = q.csrs.value i a := by
  unfold Csrs.value
  cases hr : Csr.ofNum a with
  | some r =>
    rw [← Csr.num_of_ofNum hr] at hi ⊢
    exact rdata_num hq i r hi
  | none =>
    -- no row of the read multiplexer applies
    have hne := Csr.ofNum_eq_none.mp hr
    have h (b : CsrAddr) (r : Csr) (hb : r.num = b) : ¬ a = b := fun ha => hne r (hb.trans ha.symm)
    unfold rdata
    rw [if_neg (h csrMstatus .mstatus rfl), if_neg (h csrMisa .misa rfl),
      if_neg (h csrMie .mie rfl), if_neg (h csrMtvec .mtvec rfl),
      if_neg (h csrMscratch .mscratch rfl), if_neg (h csrMepc .mepc rfl),
      if_neg (h csrMcause .mcause rfl), if_neg (h csrMtval .mtval rfl),
      if_neg (h csrMip .mip rfl), if_neg (h csrMcycle .mcycle rfl),
      if_neg (h csrMcycleh .mcycleh rfl), if_neg (h csrMinstret .minstret rfl),
      if_neg (h csrMinstreth .minstreth rfl)]
    rfl

/-! ### Commits -/

/-- The bits of `mstatus` after a normalisation. -/
theorem getLsbD_normal (w : Word) :
    (mstatusMppMValue ||| (w &&& mstatusWritableMask)).getLsbD mstatusMieBit =
        w.getLsbD mstatusMieBit ∧
      (mstatusMppMValue ||| (w &&& mstatusWritableMask)).getLsbD mstatusMpieBit =
        w.getLsbD mstatusMpieBit := by
  simp [mstatusMieBit, mstatusMpieBit, mstatusMppMValue, mstatusWritableMask]

theorem getLsbD_mieMask (w : Word) :
    (w &&& mieWritableMask).getLsbD mintMtipBit = w.getLsbD mintMtipBit := by
  simp [mieWritableMask, mintMtipBit]

/-- The base of the trap vector is aligned. -/
theorem base_eq_align (w : Word) : Csrs.base w = Word.align w := Seq.and_align w

/-- A trap. -/
theorem csrs_next_trap (hq : q.Wf) {cause : Cause} (ht : c.trapValid = true)
    (hi : c.trapIsInterrupt = cause.isInterrupt) (hk : c.trapCause = cause.code) :
    (q.next c).csrs = q.csrs.trap cause c.trapPc c.trapTval := by
  have hf := (frame hq c).trap ht
  have hs : (q.mstatusD c).getLsbD mstatusMieBit = false ∧
      (q.mstatusD c).getLsbD mstatusMpieBit = q.mstatusQ.getLsbD mstatusMieBit := by
    unfold mstatusD
    rw [(getLsbD_normal _).1, (getLsbD_normal _).2, mstatusUpdate, if_pos ht]
    obtain h | h | h | h := mstatus_cases hq.mstatus <;> rw [h] <;> decide
  have hc : (q.next c).mcauseQ = cause.value := by
    show q.mcauseD c = _
    rw [mcauseD, if_pos ht, hi, hk, Cause.value]
    cases cause with
    | timer => decide
    | exception e => cases e <;> decide
  rw [hf]
  apply Csrs.ext <;> try rfl
  · exact hs.1
  · exact hs.2
  · exact if_pos ht
  · exact hc
  · exact if_pos ht

/-- The fields after a commit that is neither a trap nor `MRET`. -/
private theorem csrs_next_of_not_trap (ht : c.trapValid = false) (hm : c.mretCommit = false)
    (hr : c.retire = true) : (q.next c).csrs =
      { mie := if writes c csrMstatus then c.commitWdata.getLsbD 3 else q.csrs.mie
        mpie := if writes c csrMstatus then c.commitWdata.getLsbD 7 else q.csrs.mpie
        mtie := if writes c csrMie then c.commitWdata.getLsbD 7 else q.csrs.mtie
        mtvec := if writes c csrMtvec then Csrs.base c.commitWdata else q.csrs.mtvec
        mscratch := if writes c csrMscratch then c.commitWdata else q.csrs.mscratch
        mepc := if writes c csrMepc then Csrs.base c.commitWdata else q.csrs.mepc
        mcause := if writes c csrMcause then c.commitWdata &&& 0x8000001f#32 else q.csrs.mcause
        mtval := if writes c csrMtval then c.commitWdata else q.csrs.mtval
        minstret :=
          if writes c csrMinstret then q.csrs.minstret.extractLsb 63 32 ++ c.commitWdata
          else if writes c csrMinstreth then c.commitWdata ++ q.csrs.minstret.extractLsb 31 0
          else q.csrs.minstret + 1#64 } := by
  have hw : (c.commitWrite && c.commitWaddr == csrMstatus) = writes c csrMstatus := by
    simp [writes, normalWrite, ht, hm]
  have hs : q.mstatusUpdate c = if writes c csrMstatus then
      mstatusMppMValue ||| (c.commitWdata &&& mstatusWritableMask) else q.mstatusQ := by
    simp only [mstatusUpdate, ht, hm, hw, Bool.false_eq_true, if_false]
  -- the fields of `mstatus` and `mie` are bits of the registers, the others whole words
  apply Csrs.ext
  · show (q.mstatusD c).getLsbD mstatusMieBit = _
    rw [mstatusD, (getLsbD_normal _).1, hs, apply_ite (BitVec.getLsbD · mstatusMieBit),
      (getLsbD_normal _).1]
    rfl
  · show (q.mstatusD c).getLsbD mstatusMpieBit = _
    rw [mstatusD, (getLsbD_normal _).2, hs, apply_ite (BitVec.getLsbD · mstatusMpieBit),
      (getLsbD_normal _).2]
    rfl
  · show (q.mieD c).getLsbD mintMtipBit = _
    rw [mieD, getLsbD_mieMask, apply_ite (BitVec.getLsbD · mintMtipBit), getLsbD_mieMask]
    rfl
  · simp only [base_eq_align]
    rfl
  · rfl
  · show q.mepcD c = _
    simp only [mepcD, ht, base_eq_align, Bool.false_eq_true, if_false]
    rfl
  · show q.mcauseD c = _
    simp only [mcauseD, ht, Bool.false_eq_true, if_false]
    rfl
  · show q.mtvalD c = _
    simp only [mtvalD, ht, Bool.false_eq_true, if_false]
    rfl
  · show q.minstretD c = _
    simp only [minstretD, ht, hr, Bool.not_false, Bool.and_self, if_true]
    rfl

/-- An instruction that writes no CSR. -/
theorem csrs_next_counted (ht : c.trapValid = false) (hm : c.mretCommit = false)
    (hr : c.retire = true) (hw : c.commitWrite = false) : (q.next c).csrs = q.csrs.counted := by
  have hn (a : CsrAddr) : writes c a = false := by simp [writes, normalWrite, hw]
  rw [csrs_next_of_not_trap ht hm hr]
  simp only [hn, Bool.false_eq_true, if_false]
  rfl

/-- An instruction that writes a CSR. -/
theorem csrs_next_written (ht : c.trapValid = false) (hm : c.mretCommit = false)
    (hr : c.retire = true) (hw : c.commitWrite = true) {r : Csr} (ha : c.commitWaddr = r.num) :
    (q.next c).csrs = q.csrs.written c.commitWdata r := by
  have hn (a : CsrAddr) : writes c a = (r.num == a) := by
    simp [writes, normalWrite, ht, hm, hw, ha]
  rw [csrs_next_of_not_trap ht hm hr]
  simp only [hn]
  cases r <;> rfl

/-- `MRET`. -/
theorem csrs_next_mret (hq : q.Wf) (ht : c.trapValid = false) (hm : c.mretCommit = true)
    (hr : c.retire = true) : (q.next c).csrs = q.csrs.mret := by
  have hf := (frame hq c).mret ht hm
  have hn (a : CsrAddr) : writes c a = false := by simp [writes, normalWrite, hm]
  have hs : (q.mstatusD c).getLsbD mstatusMieBit = q.mstatusQ.getLsbD mstatusMpieBit ∧
      (q.mstatusD c).getLsbD mstatusMpieBit = true := by
    unfold mstatusD
    rw [(getLsbD_normal _).1, (getLsbD_normal _).2, mstatusUpdate, ht, hm,
      if_neg (by simp), if_pos rfl]
    obtain h | h | h | h := mstatus_cases hq.mstatus <;> rw [h] <;> decide
  have hc : (q.next c).minstretQ = q.minstretQ + 1#64 := by
    rw [(frame hq c).minstret (hn _) (hn _), if_pos ⟨hr, ht⟩]
  rw [hf]
  apply Csrs.ext <;> try rfl
  · exact hs.1
  · exact hs.2
  · exact hc

end CsrFile

end Rv32im

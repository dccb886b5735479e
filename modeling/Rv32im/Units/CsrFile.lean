import Rv32im.Clocked.Circuit
import Rv32im.Rtl.CsrFile

/-!
# `csr_file` on its own

The CSR file under any sequence of commits: the fields that have few legal values keep them, and a
cycle changes no more than the registers of the event that commits in it.

* `CsrFile.circuit`: the file between two resets;
* `CsrFile.Fields`: the legal values of the registers;
* `CsrFile.Frame`: what a cycle changes, and to what;
* `CsrFile.fields_and_frame`: both, in every run from a reset.
-/

namespace Rv32im

open Clocked

namespace CsrFile

/-- What a cycle of `csr_file` without reset reads. -/
structure In where
  commit : CsrCommit := {}
  mtip : Bool := false
deriving DecidableEq, Repr

/-- The CSR file between two resets, with any inputs. -/
def circuit : Circuit CsrFile In where
  legal _ _ := True
  next q i := q.next i.commit

/-- The CSRs that hold a value which a write can change. -/
def storedAddrs : List CsrAddr :=
  [csrMstatus, csrMie, csrMtvec, csrMscratch, csrMepc, csrMcause, csrMtval, csrMcycle, csrMcycleh,
    csrMinstret, csrMinstreth]

/-- The halves of the two counters. -/
def counterAddrs : List CsrAddr := [csrMcycle, csrMcycleh, csrMinstret, csrMinstreth]

/-- A value written to the CSR at `a`, restricted to the bits that are legal there. -/
def legalBits (a : CsrAddr) (w : Word) : Word :=
  if a = csrMstatus then mstatusMppMValue ||| (w &&& mstatusWritableMask)
  else if a = csrMie then w &&& mieWritableMask
  else if a = csrMtvec ∨ a = csrMepc then Word.align w
  else if a = csrMcause then w &&& (mcauseInterruptMask ||| mcauseCodeMask)
  else w

/-- The legal values: `mstatus` has `MPP` = M and otherwise at most `MIE` and `MPIE`, `mie` at most
`MTIE`, the address registers are aligned, and `mcause` has the interrupt bit and a code. -/
structure Fields (q : CsrFile) : Prop where
  mstatus : q.mstatusQ &&& ~~~mstatusWritableMask = mstatusMppMValue
  mie : q.mieQ &&& ~~~mieWritableMask = 0#32
  mtvec : Word.Aligned q.mtvecQ
  mepc : Word.Aligned q.mepcQ
  mcause : q.mcauseQ &&& ~~~(mcauseInterruptMask ||| mcauseCodeMask) = 0#32

/-- What the clock edge with the commit `c` changes, and to what. -/
structure Frame (q : CsrFile) (c : CsrCommit) : Prop where
  trap : c.trapValid = true → q.next c =
    { q with mepcQ := (q.next c).mepcQ, mcauseQ := (q.next c).mcauseQ
             mtvalQ := (q.next c).mtvalQ, mstatusQ := (q.next c).mstatusQ
             mcycleQ := (q.next c).mcycleQ }
  mret : c.trapValid = false → c.mretCommit = true → q.next c =
    { q with mstatusQ := (q.next c).mstatusQ, mcycleQ := (q.next c).mcycleQ
             minstretQ := (q.next c).minstretQ }
  /-- A write is read back with its legal bits. -/
  written : ∀ a ∈ storedAddrs, writes c a = true → ∀ mtip,
    (q.next c).rdata mtip a = legalBits a c.commitWdata
  /-- It changes no other CSR. -/
  other : c.trapValid = false → c.mretCommit = false → ∀ a, a ∉ counterAddrs →
    writes c a = false → ∀ mtip, (q.next c).rdata mtip a = q.rdata mtip a
  /-- A write to `misa`, `mip`, or a read-only or unimplemented address, is none. -/
  ignored : ∀ a, a ∉ storedAddrs → writes c a = true →
    q.next c = q.next { c with commitWrite := false }
  /-- Without an event only the counters move. -/
  idle : c.trapValid = false → c.mretCommit = false → c.commitWrite = false → q.next c =
    { q with mcycleQ := (q.next c).mcycleQ, minstretQ := (q.next c).minstretQ }
  mcycle : writes c csrMcycle = false → writes c csrMcycleh = false →
    (q.next c).mcycleQ = q.mcycleQ + 1#64
  mcycleLow : writes c csrMcycle = true →
    (q.next c).mcycleQ = q.mcycleQ.extractLsb 63 32 ++ c.commitWdata
  mcycleHigh : writes c csrMcycleh = true →
    (q.next c).mcycleQ = c.commitWdata ++ q.mcycleQ.extractLsb 31 0
  minstret : writes c csrMinstret = false → writes c csrMinstreth = false →
    (q.next c).minstretQ = if c.retire = true ∧ c.trapValid = false then q.minstretQ + 1#64
      else q.minstretQ
  minstretLow : writes c csrMinstret = true →
    (q.next c).minstretQ = q.minstretQ.extractLsb 63 32 ++ c.commitWdata
  minstretHigh : writes c csrMinstreth = true →
    (q.next c).minstretQ = c.commitWdata ++ q.minstretQ.extractLsb 31 0

attribute [ext] CsrFile

variable {q : CsrFile} {c : CsrCommit}

/-! ### The legal values -/

/-- A word that is `m` outside a mask is so when the mask leaves it `m` with the masked bits. -/
private theorem and_not_of_or {w m k : Word} (hm : m &&& k = 0#32) (h : m ||| (w &&& k) = w) :
    w &&& ~~~k = m := by
  have hk : m &&& ~~~k = m := by
    ext j hj
    have hmk : (m &&& k)[j] = (0#32)[j] := by rw [hm]
    rw [BitVec.getElem_and, BitVec.getElem_zero] at hmk
    rw [BitVec.getElem_and, BitVec.getElem_not]
    cases hmj : m[j] <;> simp_all
  calc
    w &&& ~~~k = (m ||| (w &&& k)) &&& ~~~k := by rw [h]
    _ = (m &&& ~~~k) ||| (w &&& (k &&& ~~~k)) := by
      rw [BitVec.and_or_distrib_right, BitVec.and_assoc]
    _ = m := by simp [hk]

/-- The cause register holds a cause in every reachable state. -/
def McauseLegal (q : CsrFile) : Prop :=
  q.mcauseQ &&& (mcauseInterruptMask ||| mcauseCodeMask) = q.mcauseQ

/-- A trap stores a cause, and a write is masked. -/
private theorem McauseLegal.next (h : McauseLegal q) : McauseLegal (q.next c) := by
  unfold McauseLegal CsrFile.next mcauseD
  dsimp only
  split
  · have hmask : (0#27 ++ c.trapCause) &&& (mcauseInterruptMask ||| mcauseCodeMask) =
        (0#27 ++ c.trapCause) := by
      generalize c.trapCause = code
      revert code
      decide
    split
    · rw [BitVec.and_or_distrib_right, hmask]
      rfl
    · simpa using hmask
  · split
    · rw [BitVec.and_assoc, BitVec.and_self]
    · exact h

/-- The registers of a well-formed file have legal values. -/
private theorem Wf.fields (h : Wf q) (hc : McauseLegal q) : Fields q where
  mstatus := and_not_of_or (by decide) h.mstatus
  mie := and_not_of_or (m := 0#32) (by simp) (by simpa using h.mie)
  mtvec := h.mtvec
  mepc := h.mepc
  mcause := and_not_of_or (m := 0#32) (by simp) (by rw [hc, BitVec.zero_or])

/-! ### The frame -/

/-- A normal write excludes a trap and an `MRET`. -/
private theorem of_writes {a : CsrAddr} (h : writes c a = true) : c.trapValid = false ∧
    c.mretCommit = false ∧ c.commitWrite = true ∧ c.commitWaddr = a := by
  simp only [writes, normalWrite, Bool.and_eq_true, Bool.not_eq_true', beq_iff_eq] at h
  exact ⟨h.1.1.1, h.1.1.2, h.1.2, h.2⟩

/-- A write goes to one address. -/
private theorem writes_eq {a b : CsrAddr} (h : writes c a = true) : writes c b = (a == b) := by
  obtain ⟨ht, hm, hw, rfl⟩ := of_writes h
  simp [writes, normalWrite, ht, hm, hw]

/-- The normalisation of `mstatus` keeps what it has produced. -/
private theorem mstatus_idem (w : Word) : mstatusMppMValue ||| ((mstatusMppMValue |||
    (w &&& mstatusWritableMask)) &&& mstatusWritableMask) =
      mstatusMppMValue ||| (w &&& mstatusWritableMask) := by
  rw [BitVec.and_or_distrib_right, BitVec.and_assoc, BitVec.and_self, ← BitVec.or_assoc]
  rfl

/-- Only a trap, an `MRET` or a write to it changes `mstatus`. -/
private theorem mstatusD_of_idle (h : Wf q) (ht : c.trapValid = false)
    (hm : c.mretCommit = false) (hw : writes c csrMstatus = false) : q.mstatusD c = q.mstatusQ := by
  have hw' : (c.commitWrite && c.commitWaddr == csrMstatus) = false := by
    simpa [writes, normalWrite, ht, hm] using hw
  simp only [mstatusD, mstatusUpdate, ht, hm, hw', Bool.false_eq_true, if_false]
  exact h.mstatus

/-- A write to `mstatus` sets its legal bits. -/
private theorem mstatusD_of_writes (hw : writes c csrMstatus = true) :
    q.mstatusD c = legalBits csrMstatus c.commitWdata := by
  obtain ⟨ht, hm, hc, ha⟩ := of_writes hw
  simp only [mstatusD, mstatusUpdate, ht, hm, hc, ha, beq_self_eq_true, Bool.and_self, if_true,
    Bool.false_eq_true, if_false]
  exact mstatus_idem _

/-- Without a write `mie` keeps its value. -/
private theorem mieD_of_not_writes (h : Wf q) (hw : writes c csrMie = false) :
    q.mieD c = q.mieQ := by
  rw [mieD, hw]
  exact h.mie

private theorem mieD_of_writes (hw : writes c csrMie = true) :
    q.mieD c = legalBits csrMie c.commitWdata := by
  rw [mieD, hw, if_pos rfl, BitVec.and_assoc, BitVec.and_self]
  rfl

/-- Without a trap or an `MRET` a CSR that is not written keeps its value. -/
private theorem rdata_next_of_not_writes (h : Wf q) (ht : c.trapValid = false)
    (hm : c.mretCommit = false) {a : CsrAddr} (ha : a ∉ counterAddrs) (hw : writes c a = false)
    (mtip : Bool) : (q.next c).rdata mtip a = q.rdata mtip a := by
  simp only [counterAddrs, List.mem_cons, List.not_mem_nil, or_false, not_or] at ha
  obtain ⟨hmcycle, hmcycleh, hminstret, hminstreth⟩ := ha
  by_cases hmstatus : a = csrMstatus
  · subst hmstatus
    exact mstatusD_of_idle h ht hm hw
  by_cases hmie : a = csrMie
  · subst hmie
    exact mieD_of_not_writes h hw
  by_cases hmtvec : a = csrMtvec
  · subst hmtvec
    change (if writes c csrMtvec then _ else q.mtvecQ) = q.mtvecQ
    rw [hw]
    rfl
  by_cases hmscratch : a = csrMscratch
  · subst hmscratch
    change (if writes c csrMscratch then _ else q.mscratchQ) = q.mscratchQ
    rw [hw]
    rfl
  by_cases hmepc : a = csrMepc
  · subst hmepc
    change q.mepcD c = q.mepcQ
    simp [mepcD, ht, hw]
  by_cases hmcause : a = csrMcause
  · subst hmcause
    change q.mcauseD c = q.mcauseQ
    simp [mcauseD, ht, hw]
  by_cases hmtval : a = csrMtval
  · subst hmtval
    change q.mtvalD c = q.mtvalQ
    simp [mtvalD, ht, hw]
  -- the other rows show no register
  simp only [rdata, if_neg hmstatus, if_neg hmie, if_neg hmtvec, if_neg hmscratch, if_neg hmepc,
    if_neg hmcause, if_neg hmtval, if_neg hmcycle, if_neg hmcycleh, if_neg hminstret,
    if_neg hminstreth]

/-- Without a trap, an `MRET` or a write only the counters move. -/
private theorem next_of_not_writes (h : Wf q) (ht : c.trapValid = false)
    (hm : c.mretCommit = false) (hn : ∀ b ∈ storedAddrs, writes c b = false) : q.next c =
      { q with mcycleQ := q.mcycleQ + 1#64
               minstretQ := if c.retire then q.minstretQ + 1#64 else q.minstretQ } := by
  simp only [storedAddrs, List.forall_mem_cons] at hn
  obtain ⟨hmstatus, hmie, hmtvec, hmscratch, hmepc, hmcause, hmtval, hmcycle, hmcycleh, hminstret,
    hminstreth, -⟩ := hn
  apply CsrFile.ext
  case mstatusQ => exact mstatusD_of_idle h ht hm hmstatus
  case mieQ => exact mieD_of_not_writes h hmie
  case mtvecQ => exact if_neg (by simp [hmtvec])
  case mscratchQ => exact if_neg (by simp [hmscratch])
  case mepcQ => simp [CsrFile.next, mepcD, ht, hmepc]
  case mcauseQ => simp [CsrFile.next, mcauseD, ht, hmcause]
  case mtvalQ => simp [CsrFile.next, mtvalD, ht, hmtval]
  case mcycleQ => simp [CsrFile.next, mcycleD, hmcycle, hmcycleh]
  case minstretQ => simp [CsrFile.next, minstretD, ht, hminstret, hminstreth]

/-- A write is read back with its legal bits. -/
private theorem rdata_next_of_writes {a : CsrAddr} (ha : a ∈ storedAddrs) (hw : writes c a = true)
    (mtip : Bool) : (q.next c).rdata mtip a = legalBits a c.commitWdata := by
  obtain ⟨ht, -, -, -⟩ := of_writes hw
  simp only [storedAddrs, List.mem_cons, List.not_mem_nil, or_false] at ha
  -- the row of the table that reads the register, and the register's next value
  rcases ha with rfl | rfl | rfl | rfl | rfl | rfl | rfl | rfl | rfl | rfl | rfl
  · exact mstatusD_of_writes hw
  · exact mieD_of_writes hw
  · change (q.next c).mtvecQ = Word.align c.commitWdata
    simp [CsrFile.next, hw]
  · change (q.next c).mscratchQ = c.commitWdata
    simp [CsrFile.next, hw]
  · change q.mepcD c = Word.align c.commitWdata
    simp [mepcD, ht, hw]
  · change q.mcauseD c = c.commitWdata &&& _
    simp [mcauseD, ht, hw]
  · change q.mtvalD c = c.commitWdata
    simp [mtvalD, ht, hw]
  · change (q.mcycleD c).extractLsb 31 0 = c.commitWdata
    rw [mcycleD, if_pos hw, Word.low_append]
  · change (q.mcycleD c).extractLsb 63 32 = c.commitWdata
    have hl : writes c csrMcycle = false := writes_eq hw
    simp [mcycleD, hw, hl, Word.high_append]
  · change (q.minstretD c).extractLsb 31 0 = c.commitWdata
    rw [minstretD, if_pos hw, Word.low_append]
  · change (q.minstretD c).extractLsb 63 32 = c.commitWdata
    have hl : writes c csrMinstret = false := writes_eq hw
    simp [minstretD, hw, hl, Word.high_append]

/-- Every well-formed file changes as the frame says. -/
theorem frame (h : Wf q) (c : CsrCommit) : Frame q c := by
  constructor
  case trap =>
    intro ht
    -- nothing is written but by the trap
    have hw (a : CsrAddr) : writes c a = false := by simp [writes, normalWrite, ht]
    apply CsrFile.ext <;> try rfl
    · exact mieD_of_not_writes h (hw _)
    · exact if_neg (by simp [hw])
    · exact if_neg (by simp [hw])
    · simp [CsrFile.next, minstretD, hw, ht]
  case mret =>
    intro ht hm
    -- nothing is written but by the return
    have hw (a : CsrAddr) : writes c a = false := by simp [writes, normalWrite, hm]
    apply CsrFile.ext <;> try rfl
    · exact mieD_of_not_writes h (hw _)
    · exact if_neg (by simp [hw])
    · exact if_neg (by simp [hw])
    · simp [CsrFile.next, mepcD, hw, ht]
    · simp [CsrFile.next, mcauseD, hw, ht]
    · simp [CsrFile.next, mtvalD, hw, ht]
  case idle =>
    intro ht hm hc
    have hw (a : CsrAddr) : writes c a = false := by simp [writes, normalWrite, hc]
    rw [next_of_not_writes h ht hm fun a _ => hw a]
  case written => exact fun a ha hw => rdata_next_of_writes ha hw
  case other => exact fun ht hm a ha hw => rdata_next_of_not_writes h ht hm ha hw
  case ignored =>
    intro a ha hw
    -- a write to an address without register is one to no register
    obtain ⟨ht, hm, hc, rfl⟩ := of_writes hw
    have hn (b : CsrAddr) (hb : b ∈ storedAddrs) : writes c b = false := by
      rw [writes_eq hw, beq_eq_false_iff_ne]
      rintro rfl
      exact ha hb
    rw [next_of_not_writes h ht hm hn,
      next_of_not_writes h (c := { c with commitWrite := false }) ht hm
        fun b _ => by simp [writes, normalWrite]]
  case mcycle => exact fun hl hh => by simp [CsrFile.next, mcycleD, hl, hh]
  case mcycleLow => exact fun hw => by simp [CsrFile.next, mcycleD, hw]
  case mcycleHigh =>
    intro hw
    have hl : writes c csrMcycle = false := writes_eq hw
    simp [CsrFile.next, mcycleD, hw, hl]
  case minstret => exact fun hl hh => by simp [CsrFile.next, minstretD, hl, hh]
  case minstretLow => exact fun hw => by simp [CsrFile.next, minstretD, hw]
  case minstretHigh =>
    intro hw
    have hl : writes c csrMinstret = false := writes_eq hw
    simp [CsrFile.next, minstretD, hw, hl]

/-! ### Runs -/

/-- In every run from a reset, whatever is committed, the registers have legal values and every
cycle changes what the event that commits in it may change. -/
theorem fields_and_frame {trapVector : Word} {is : List In}
    (hr : circuit.Run (reset trapVector) is q) : Fields q ∧ ∀ c, Frame q c := by
  have hinv : Wf q ∧ McauseLegal q := by
    refine hr.invariant (I := fun q => Wf q ∧ McauseLegal q) ⟨.reset trapVector, BitVec.zero_and⟩ ?_
    exact fun q i h _ => ⟨h.1.next, h.2.next⟩
  exact ⟨hinv.1.fields hinv.2, frame hinv.1⟩

/-- A trap that collides with a write to `mstatus`, after a write of all ones to it. -/
theorem fields_and_frame_collision :
    let w : CsrCommit := { commitWrite := true, commitWaddr := csrMstatus
                           commitWdata := 0xffffffff#32, retire := true }
    let q := circuit.exec (reset 0x100#32)
      [{ commit := w },
        { commit := { w with trapValid := true, trapPc := 0x42#32, trapCause := 11#5 } }]
    q.mstatusQ = 0x1880#32 ∧ q.mepcQ = 0x40#32 ∧ q.mcauseQ = 11#32 ∧ q.minstretQ = 1#64 ∧
      Fields q :=
  ⟨by decide, by decide, by decide, by decide,
    (fields_and_frame (.of_always (by simp [Circuit.Always, circuit]))).1⟩

end CsrFile

end Rv32im

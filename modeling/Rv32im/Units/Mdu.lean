import Rv32im.Rtl.Mdu

/-!
# What the multiplier and the divider compute

Both units compute the RV32M result of the operands they were given, the divider one quotient bit
per cycle.

* `MduOp.result`: the RV32M results;
* `DivUnit.Loop`: the invariant of the restoring loop;
* `MulUnit.Works`, `DivUnit.Works`: the progress of an operation, up to its result.
-/

namespace Rv32im

/-- The RV32M result of an operation. -/
def MduOp.result (op : MduOp) (a b : Word) : Word :=
  match op with
  | .none => 0#32
  | .mul => a * b
  | .mulh => (a.signExtend 64 * b.signExtend 64).extractLsb 63 32
  | .mulhsu => (a.signExtend 64 * b.setWidth 64).extractLsb 63 32
  | .mulhu => (a.setWidth 64 * b.setWidth 64).extractLsb 63 32
  | .div => if b = 0#32 then 0xffffffff#32 else a.sdiv b
  | .divu => if b = 0#32 then 0xffffffff#32 else a / b
  | .rem => a.srem b
  | .remu => a % b

/-! ### `mul_unit` -/

namespace MulUnit

variable {q : MulUnit} {i : MduIn} {op : MduOp} {a b : Word}

/-- Extending in two steps is extending in one. -/
private theorem signExtend_signExtend (x : Word) :
    (x.signExtend 33).signExtend 64 = x.signExtend 64 := by
  apply BitVec.eq_of_toInt_eq
  rw [BitVec.toInt_signExtend_of_le (by decide), BitVec.toInt_signExtend_of_le (by decide),
    BitVec.toInt_signExtend_of_le (by decide)]

private theorem signExtend_setWidth (x : Word) :
    (x.setWidth 33).signExtend 64 = x.setWidth 64 := by
  have hmsb : (x.setWidth 33).msb = false := by
    simp [BitVec.msb_eq_getLsbD_last]
  rw [BitVec.signExtend_eq_setWidth_of_msb_false hmsb]
  apply BitVec.eq_of_toNat_eq
  simp only [BitVec.toNat_setWidth]
  omega

/-- The product of the extended operands has the result in its half. -/
theorem product_eq (hl : q.lhsQ = lhsExt op a) (hr : q.rhsQ = rhsExt op b)
    (hop : op = .mul ∨ op = .mulh ∨ op = .mulhsu ∨ op = .mulhu) :
    (if op == .mul then q.product.extractLsb 31 0 else q.product.extractLsb 63 32) =
      op.result a b := by
  rw [product, hl, hr]
  rcases hop with rfl | rfl | rfl | rfl
  · rw [if_pos (by decide)]
    simp only [lhsExt, rhsExt, signExtend_setWidth, MduOp.result]
    apply BitVec.eq_of_toNat_eq
    have hx (x : Word) : x.toNat % 2 ^ 64 = x.toNat := Nat.mod_eq_of_lt (by omega)
    simp only [BitVec.extractLsb_toNat, BitVec.toNat_mul, BitVec.toNat_setWidth, hx,
      Nat.shiftRight_zero]
    exact Nat.mod_mod_of_dvd _ (by decide)
  all_goals
    -- the three high products differ in how the operands are extended only
    rw [if_neg (by decide)]
    simp only [lhsExt, rhsExt, signExtend_setWidth, signExtend_signExtend, MduOp.result]

/-- The progress of the operation `op` on `a` and `b`; an idle unit has none. -/
structure Works (q : MulUnit) (op : MduOp) (a b : Word) : Prop where
  exec : q.stateQ = .exec → q.lhsQ = lhsExt op a ∧ q.rhsQ = rhsExt op b ∧ q.opQ = op
  resp : q.stateQ = .resp → q.resultQ = op.result a b

/-- An idle unit starts the operation it accepts. -/
theorem Works.accept (hs : q.stateQ = .idle) (hrst : i.rst = false) (hkill : i.kill = false) :
    (q.next i).Works i.op i.lhs i.rhs := by
  have hready : q.reqReady i = true := by simp [reqReady, hs, hkill]
  unfold next
  rw [if_neg (by simp [hrst]), if_neg (by simp [hkill])]
  simp only [hs, hready, Bool.and_true]
  split
  · constructor <;> simp
  · constructor <;> simp [hs]

/-- A unit at work goes on. -/
theorem Works.next (h : q.Works op a b) (hs : q.stateQ ≠ .idle) (hrst : i.rst = false)
    (hkill : i.kill = false) (hop : op = .mul ∨ op = .mulh ∨ op = .mulhsu ∨ op = .mulhu) :
    (q.next i).Works op a b := by
  unfold MulUnit.next
  rw [if_neg (by simp [hrst]), if_neg (by simp [hkill])]
  cases hq : q.stateQ with
  | idle => exact absurd hq hs
  | exec =>
    obtain ⟨hl, hr, ho⟩ := h.exec hq
    constructor
    · simp
    · intro _
      simp only [ho]
      exact product_eq hl hr hop
  | resp =>
    simp only
    split
    · constructor <;> simp
    · exact h

/-- A unit is empty after a kill and after its result is taken, and stays empty without request. -/
theorem stateQ_next (h : i.rst = true ∨ i.kill = true ∨ q.stateQ = .idle ∧ i.reqValid = false ∨
    q.stateQ = .resp ∧ i.rspReady = true) : (q.next i).stateQ = .idle := by
  unfold MulUnit.next
  by_cases hrst : i.rst = true
  · rw [if_pos hrst]
  by_cases hkill : i.kill = true
  · rw [if_neg hrst, if_pos hkill]
  rw [if_neg hrst, if_neg hkill]
  rcases h with h | h | ⟨hs, hr⟩ | ⟨hs, hr⟩
  · exact absurd h hrst
  · exact absurd h hkill
  · simp [hs, hr]
  · simp [hs, hr]

end MulUnit

/-! ### `div_unit` -/

namespace DivUnit

variable {q : DivUnit} {i : MduIn} {op : MduOp} {a b : Word}

/-- The loop has processed `qr.wr` bits of the dividend `n`: their remainder is in the remainder
register, their quotient below the bits of `n` that are left. -/
structure Loop (q : DivUnit) (n d : Word) (qr : BitVec.DivModState 32) : Prop where
  lawful : qr.Lawful { n, d }
  divisor : q.divisorQ = d
  iter : q.iterQ.toNat = qr.wr
  remainder : q.remainderQ = qr.r
  quotient : ∀ k < 32, q.quotientQ.getLsbD k =
    if k < qr.wr then qr.q.getLsbD k else n.getLsbD (k - qr.wr)

namespace Loop

variable {n d : Word} {qr : BitVec.DivModState 32}

/-- The bit shifted into the remainder is the next one of the dividend. -/
private theorem remainderShifted_toNat (h : Loop q n d qr) (hwn : 0 < qr.wn) :
    q.remainderShifted.toNat = (qr.r.shiftConcat (n.getLsbD (qr.wn - 1))).toNat := by
  have hw := h.lawful.hwrn
  -- the top bit of the quotient register is the next bit of the dividend
  have hbit : q.quotientQ.extractLsb 31 31 = BitVec.ofBool (n.getLsbD (qr.wn - 1)) := by
    have h31 := h.quotient 31 (by decide)
    rw [if_neg (by omega), show 31 - qr.wr = qr.wn - 1 by omega] at h31
    apply BitVec.eq_of_getLsbD_eq
    intro k hk
    obtain rfl : k = 0 := by omega
    simpa using h31
  rw [BitVec.toNat_shiftConcat_eq_of_lt (by omega : qr.wr < 32) h.lawful.hrWidth, remainderShifted,
    hbit, h.remainder, BitVec.toNat_append, Nat.shiftLeft_eq, BitVec.toNat_ofBool]
  have hlt := Bool.toNat_lt (n.getLsbD (qr.wn - 1))
  have hor := Nat.shiftLeft_add_eq_or_of_lt (i := 1) hlt qr.r.toNat
  rw [Nat.shiftLeft_eq] at hor
  omega

/-- The restoring step is that of the recurrence. -/
theorem subtracts_eq (h : Loop q n d qr) (hwn : 0 < qr.wn) : q.subtracts =
    !decide (qr.r.shiftConcat (n.getLsbD (qr.wn - 1)) < d) := by
  have hshift := h.remainderShifted_toNat hwn
  rw [subtracts, BitVec.ult, hshift, h.divisor]
  -- the comparison is 33 bits wide
  have hd : (0#1 ++ d).toNat = d.toNat := by
    rw [BitVec.toNat_append]
    simp
  rw [hd]
  rfl

/-- One iteration is one step of the recurrence. -/
theorem step (h : Loop q n d qr) (hwn : 0 < qr.wn) {q' : DivUnit}
    (hd : q'.divisorQ = q.divisorQ) (hq : q'.quotientQ = q.quotientNext)
    (hr : q'.remainderQ = q.remainderNext) (hi : q'.iterQ.toNat = q.iterQ.toNat + 1) :
    Loop q' n d (BitVec.divSubtractShift { n, d } qr) := by
  have hshift := h.remainderShifted_toNat hwn
  have hw := h.lawful.hwrn
  have hsub := h.subtracts_eq hwn
  have hlow : q.remainderShifted.extractLsb 31 0 =
      qr.r.shiftConcat (n.getLsbD (qr.wn - 1)) := by
    apply BitVec.eq_of_toNat_eq
    rw [BitVec.extractLsb_toNat, hshift]
    simp
  -- the quotient bit goes below the bits that are left
  have hbits (b : Bool) (k : ℕ) (hk : k < 32) :
      (q.quotientQ.extractLsb 30 0 ++ BitVec.ofBool b).getLsbD k =
        if k < qr.wr + 1 then (qr.q.shiftConcat b).getLsbD k else n.getLsbD (k - (qr.wr + 1)) := by
    rw [BitVec.getLsbD_append, BitVec.getLsbD_shiftConcat, decide_eq_true hk, Bool.true_and]
    by_cases hk0 : k = 0
    · subst hk0
      simp
    · have hext : (q.quotientQ.extractLsb 30 0).getLsbD (k - 1) = q.quotientQ.getLsbD (k - 1) := by
        rw [BitVec.getLsbD_extractLsb, decide_eq_true (by omega), Bool.true_and, Nat.zero_add]
      rw [if_neg (by omega), if_neg hk0, hext, h.quotient (k - 1) (by omega)]
      by_cases hlt : k < qr.wr + 1
      · rw [if_pos hlt, if_pos (by omega)]
      · rw [if_neg hlt, if_neg (by omega), show k - 1 - qr.wr = k - (qr.wr + 1) by omega]
  have hquot : q.quotientNext = q.quotientQ.extractLsb 30 0 ++ BitVec.ofBool q.subtracts := by
    unfold quotientNext quotientShifted
    cases q.subtracts <;> rfl
  have hnext : BitVec.divSubtractShift { n, d } qr =
      { wn := qr.wn - 1, wr := qr.wr + 1, q := qr.q.shiftConcat q.subtracts
        r := q.remainderNext } := by
    rw [remainderNext, hsub, hlow, h.divisor, BitVec.divSubtractShift]
    by_cases hlt : qr.r.shiftConcat (n.getLsbD (qr.wn - 1)) < d
    · simp only [hlt, if_true, decide_true, Bool.not_true, Bool.false_eq_true, if_false]
    · simp only [hlt, if_false, decide_false, Bool.not_false, if_true]
  -- the recurrence keeps its own invariant, which bounds the remainder
  have hpoised : qr.Poised { n, d } := ⟨h.lawful, hwn⟩
  have hlawful := BitVec.lawful_divSubtractShift qr hpoised
  rw [hnext] at hlawful ⊢
  exact ⟨hlawful, hd.trans h.divisor, by rw [hi, h.iter], hr, fun k hk => by
    rw [hq, hquot, hbits _ k hk]⟩

end Loop

/-- The result with the signs put back on the quotient or the remainder of the magnitudes. -/
def corrected (op : MduOp) (a b quotient remainder : Word) : Word :=
  if inputIsDiv op then
    if inputSigned op && (a.msb ^^ b.msb) then ~~~quotient + 1#32 else quotient
  else if inputSigned op && a.msb then ~~~remainder + 1#32 else remainder

/-- The magnitudes of the operands. -/
abbrev lhsMagnitude (op : MduOp) (a : Word) : Word := magnitude (inputSigned op) a

@[inherit_doc lhsMagnitude]
abbrev rhsMagnitude (op : MduOp) (b : Word) : Word := magnitude (inputSigned op) b

/-- The magnitude of a negative number is its negation. -/
private theorem magnitude_eq (signed : Bool) (x : Word) :
    magnitude signed x = if signed && x.msb then -x else x := by
  rw [magnitude, BitVec.neg_eq_not_add]

/-- Division by the magnitudes gives the RV32M results. -/
theorem result_eq_corrected (hop : op = .div ∨ op = .divu ∨ op = .rem ∨ op = .remu)
    (hb : b ≠ 0#32) : op.result a b = corrected op a b
      (lhsMagnitude op a / rhsMagnitude op b) (lhsMagnitude op a % rhsMagnitude op b) := by
  simp only [corrected, lhsMagnitude, rhsMagnitude, magnitude_eq, ← BitVec.neg_eq_not_add]
  rcases hop with rfl | rfl | rfl | rfl
  · rw [MduOp.result, if_neg hb, BitVec.sdiv_eq]
    cases ha : a.msb <;> cases hb' : b.msb <;> simp [inputSigned, inputIsDiv]
  · simp [MduOp.result, hb, inputSigned, inputIsDiv]
  · rw [MduOp.result, BitVec.srem_eq]
    cases ha : a.msb <;> cases hb' : b.msb <;> simp [inputSigned, inputIsDiv]
  · simp [MduOp.result, inputSigned, inputIsDiv]

/-- The progress of the operation `op` on `a` and `b`; an idle unit has none. -/
structure Works (q : DivUnit) (op : MduOp) (a b : Word) : Prop where
  run : q.stateQ = .run → b ≠ 0#32 ∧ q.opQ = op ∧
    q.quotientNegQ = (inputSigned op && (a.msb ^^ b.msb)) ∧
    q.remainderNegQ = (inputSigned op && a.msb) ∧
    ∃ qr, qr.wr < 32 ∧ Loop q (lhsMagnitude op a) (rhsMagnitude op b) qr
  resp : q.stateQ = .resp → q.resultQ = op.result a b

private theorem magnitude_ne_zero {signed : Bool} {x : Word} (h : x ≠ 0#32) :
    magnitude signed x ≠ 0#32 := by
  rw [magnitude_eq]
  split
  · simpa using h
  · exact h

/-- The results that need no loop are the RV32M results. -/
private theorem works_accept (hop : i.op = .div ∨ i.op = .divu ∨ i.op = .rem ∨ i.op = .remu) :
    (q.accept i).Works i.op i.lhs i.rhs := by
  have hlocal {v : Word} (hv : v = i.op.result i.lhs i.rhs) :
      Works { opQ := i.op, resultQ := v, stateQ := .resp } i.op i.lhs i.rhs :=
    ⟨by simp, fun _ => hv⟩
  unfold accept
  by_cases hz : inputDivideByZero i = true
  · rw [if_pos hz]
    refine hlocal ?_
    have hz : i.rhs = 0#32 := by simpa [inputDivideByZero] using hz
    rw [hz]
    -- division by zero: all ones, or the dividend
    rcases hop with h | h | h | h <;> simp [h, MduOp.result, inputIsDiv]
  rw [if_neg hz]
  have hb : i.rhs ≠ 0#32 := by simpa [inputDivideByZero] using hz
  by_cases ho : inputSignedOverflow i = true
  · rw [if_pos ho]
    refine hlocal ?_
    simp only [inputSignedOverflow, Bool.and_eq_true, beq_iff_eq] at ho
    obtain ⟨⟨hsigned, hl⟩, hr⟩ := ho
    rw [hl, hr]
    -- -2 ^ 31 by -1: the dividend, or zero
    rcases hop with h | h | h | h <;> rw [h] at hsigned ⊢
    · decide
    · simp [inputSigned] at hsigned
    · decide
    · simp [inputSigned] at hsigned
  rw [if_neg ho]
  by_cases hs : inputSmallMagnitude i = true
  · rw [if_pos hs]
    refine hlocal ?_
    simp only [inputSmallMagnitude, Bool.and_eq_true, BitVec.ult, decide_eq_true_eq] at hs
    have hlt : (lhsMagnitude i.op i.lhs).toNat < (rhsMagnitude i.op i.rhs).toNat := hs.1.1
    -- a dividend below the divisor is its own remainder
    have hdiv : lhsMagnitude i.op i.lhs / rhsMagnitude i.op i.rhs = 0#32 := by
      apply BitVec.eq_of_toNat_eq
      rw [BitVec.toNat_udiv, Nat.div_eq_of_lt hlt]
      rfl
    have hmod : lhsMagnitude i.op i.lhs % rhsMagnitude i.op i.rhs = lhsMagnitude i.op i.lhs := by
      apply BitVec.eq_of_toNat_eq
      rw [BitVec.toNat_umod, Nat.mod_eq_of_lt hlt]
    rw [result_eq_corrected hop hb, hdiv, hmod]
    simp only [corrected, lhsMagnitude, magnitude_eq, ← BitVec.neg_eq_not_add]
    split_ifs <;> simp
  · -- the loop starts with nothing processed
    rw [if_neg hs]
    refine ⟨fun _ => ⟨hb, rfl, rfl, rfl, .init 32, by decide, ?_⟩, by simp⟩
    have hpos : 0#32 < rhsMagnitude i.op i.rhs :=
      (BitVec.pos_iff_ne_zero _).mpr (magnitude_ne_zero hb)
    exact ⟨BitVec.DivModState.lawful_init _ hpos, rfl, rfl, rfl,
      fun k _ => by simp [BitVec.DivModState.init]⟩

/-- An idle unit starts the operation it accepts. -/
theorem Works.accept (hs : q.stateQ = .idle) (hrst : i.rst = false) (hkill : i.kill = false)
    (hop : i.op = .div ∨ i.op = .divu ∨ i.op = .rem ∨ i.op = .remu) :
    (q.next i).Works i.op i.lhs i.rhs := by
  have hready : q.reqReady i = true := by simp [reqReady, hs, hkill]
  unfold next
  rw [if_neg (by simp [hrst]), if_neg (by simp [hkill])]
  simp only [hs, hready, Bool.and_true]
  split
  · exact works_accept hop
  · constructor <;> simp [hs]

/-- The loop ends after the last bit, with the corrected result. -/
private theorem works_iterate (hr : q.stateQ = .run) (h : q.Works op a b)
    (hop : op = .div ∨ op = .divu ∨ op = .rem ∨ op = .remu) : q.iterate.Works op a b := by
  obtain ⟨hb, hopQ, hqn, hrn, qr, hwr, hloop⟩ := h.run hr
  have hwn : 0 < qr.wn := by
    have := hloop.lawful.hwrn
    omega
  let q' : DivUnit := { q with
    quotientQ := q.quotientNext, remainderQ := q.remainderNext, iterQ := q.iterQ + 1#6 }
  have hiter : q'.iterQ.toNat = q.iterQ.toNat + 1 := by
    have := hloop.iter
    show (q.iterQ + 1#6).toNat = _
    rw [BitVec.toNat_add, BitVec.toNat_ofNat]
    omega
  have hnext : Loop q' _ _ (BitVec.divSubtractShift _ qr) := hloop.step hwn rfl rfl rfl hiter
  have hlen := hnext.lawful.hwrn
  have hwr' : (BitVec.divSubtractShift ⟨lhsMagnitude op a, rhsMagnitude op b⟩ qr).wr =
      qr.wr + 1 := by
    rw [← hnext.iter, ← hloop.iter, BitVec.toNat_add, BitVec.toNat_ofNat]
    have := hloop.iter
    omega
  -- what the recurrence computes is known from its invariant; forget how
  generalize BitVec.divSubtractShift ⟨lhsMagnitude op a, rhsMagnitude op b⟩ qr = qr' at *
  unfold iterate
  -- after the last bit the quotient register holds the whole quotient
  by_cases hi : q.iterQ = 31#6
  · rw [if_pos (by simpa using hi)]
    refine ⟨by simp, fun _ => ?_⟩
    have h31 : qr.wr = 31 := by
      rw [← hloop.iter, hi]
      rfl
    have hlast : qr'.wn = 0 := by omega
    have hquot : q.quotientNext = lhsMagnitude op a / rhsMagnitude op b := by
      rw [BitVec.DivModState.udiv_eq_of_lawful hnext.lawful hlast]
      apply BitVec.eq_of_getLsbD_eq
      intro k hk
      have := hnext.quotient k hk
      rwa [if_pos (by omega)] at this
    have hrem : q.remainderNext = lhsMagnitude op a % rhsMagnitude op b := by
      rw [BitVec.DivModState.umod_eq_of_lawful hnext.lawful hlast]
      exact hnext.remainder
    rw [result_eq_corrected hop hb, ← hquot, ← hrem]
    simp only [corrected, quotientCorrected, remainderCorrected, hopQ, hqn, hrn]
  · rw [if_neg (by simpa using hi)]
    have hne : qr.wr ≠ 31 := by
      intro h31
      apply hi
      apply BitVec.eq_of_toNat_eq
      rw [hloop.iter, h31]
      rfl
    exact ⟨fun _ => ⟨hb, hopQ, hqn, hrn, qr', by omega, hnext⟩, fun hs => by simp [hr] at hs⟩

/-- A unit at work goes on. -/
theorem Works.next (h : q.Works op a b) (hs : q.stateQ ≠ .idle) (hrst : i.rst = false)
    (hkill : i.kill = false) (hop : op = .div ∨ op = .divu ∨ op = .rem ∨ op = .remu) :
    (q.next i).Works op a b := by
  unfold DivUnit.next
  rw [if_neg (by simp [hrst]), if_neg (by simp [hkill])]
  cases hq : q.stateQ with
  | idle => exact absurd hq hs
  | run => exact works_iterate hq h hop
  | resp =>
    simp only
    split
    · constructor <;> simp
    · exact h

@[inherit_doc MulUnit.stateQ_next]
theorem stateQ_next (h : i.rst = true ∨ i.kill = true ∨ q.stateQ = .idle ∧ i.reqValid = false ∨
    q.stateQ = .resp ∧ i.rspReady = true) : (q.next i).stateQ = .idle := by
  unfold DivUnit.next
  by_cases hrst : i.rst = true
  · rw [if_pos hrst]
  by_cases hkill : i.kill = true
  · rw [if_neg hrst, if_pos hkill]
  rw [if_neg hrst, if_neg hkill]
  rcases h with h | h | ⟨hs, hr⟩ | ⟨hs, hr⟩
  · exact absurd h hrst
  · exact absurd h hkill
  · simp [hs, hr]
  · simp [hs, hr]

end DivUnit

end Rv32im

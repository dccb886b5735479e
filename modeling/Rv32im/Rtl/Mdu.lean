import Rv32im.Rtl.Pkg

/-!
# `mul_unit` and `div_unit`

The two blocking units of the M extension. Each holds at most one operation, captures its
operands when the request is accepted and keeps a completed result until it is taken; `kill`
and `rst` empty it. The multiplier takes one cycle between its operand and result registers,
the restoring divider one cycle per quotient bit.
-/

namespace Rv32im

/-- The inputs of `mul_unit` and of `div_unit`, which have the same ports. -/
structure MduIn where
  rst : Bool := false
  kill : Bool := false
  reqValid : Bool := false
  op : MduOp := .none
  lhs : Word := 0#32
  rhs : Word := 0#32
  rspReady : Bool := false

/-! ### `mul_unit` -/

/-- `mul_state_e`. -/
inductive MulState
  | idle | exec | resp
deriving DecidableEq, Repr

/-- The registers of `mul_unit`. -/
structure MulUnit where
  stateQ : MulState := .idle
  lhsQ : BitVec 33 := 0#33
  rhsQ : BitVec 33 := 0#33
  opQ : MduOp := .none
  resultQ : Word := 0#32
deriving DecidableEq, Repr

namespace MulUnit

/-- `lhs_ext_d`: signed for `MULH` and `MULHSU`. -/
def lhsExt (op : MduOp) (lhs : Word) : BitVec 33 :=
  match op with
  | .mulh | .mulhsu => lhs.signExtend 33
  | _ => lhs.setWidth 33

/-- `rhs_ext_d`: signed for `MULH`. -/
def rhsExt (op : MduOp) (rhs : Word) : BitVec 33 :=
  match op with
  | .mulh => rhs.signExtend 33
  | _ => rhs.setWidth 33

variable (q : MulUnit) (i : MduIn)

/-- `product`, a signed multiplication in 64 bits. -/
def product : BitVec 64 := q.lhsQ.signExtend 64 * q.rhsQ.signExtend 64

/-- `req_ready_o` of `mul_unit`. -/
def reqReady : Bool := q.stateQ == .idle && !i.kill

/-- `rsp_valid_o` of `mul_unit`. -/
def rspValid : Bool := q.stateQ == .resp && !i.kill

/-- `result_o` of `mul_unit`. -/
def result : Word := q.resultQ

/-- The clock edge of `mul_unit`. -/
def next : MulUnit :=
  if i.rst then {}
  else if i.kill then {}
  else
    match q.stateQ with
    | .idle =>
      if i.reqValid && q.reqReady i then
        { q with lhsQ := lhsExt i.op i.lhs, rhsQ := rhsExt i.op i.rhs, opQ := i.op
                 stateQ := .exec }
      else q
    | .exec =>
      { q with resultQ :=
                 if q.opQ == .mul then q.product.extractLsb 31 0 else q.product.extractLsb 63 32
               stateQ := .resp }
    | .resp => if i.rspReady then { q with stateQ := .idle } else q

end MulUnit

/-! ### `div_unit` -/

/-- `div_state_e`. -/
inductive DivState
  | idle | run | resp
deriving DecidableEq, Repr

/-- The registers of `div_unit`. -/
structure DivUnit where
  stateQ : DivState := .idle
  opQ : MduOp := .none
  divisorQ : Word := 0#32
  quotientQ : Word := 0#32
  remainderQ : Word := 0#32
  iterQ : BitVec 6 := 0#6
  quotientNegQ : Bool := false
  remainderNegQ : Bool := false
  resultQ : Word := 0#32
deriving DecidableEq, Repr

namespace DivUnit

/-- `input_signed`. -/
def inputSigned (op : MduOp) : Bool := op == .div || op == .rem

/-- `input_is_div`: the operation returns the quotient. -/
def inputIsDiv (op : MduOp) : Bool := op == .div || op == .divu

/-- `input_lhs_magnitude` and `input_rhs_magnitude`. -/
def magnitude (signed : Bool) (x : Word) : Word :=
  if signed && x.msb then ~~~x + 1#32 else x

/-- `input_divide_by_zero`. -/
def inputDivideByZero (i : MduIn) : Bool := i.rhs == 0#32

/-- `input_signed_overflow`. -/
def inputSignedOverflow (i : MduIn) : Bool :=
  inputSigned i.op && i.lhs == 0x80000000#32 && i.rhs == 0xffffffff#32

/-- `input_small_magnitude`. -/
def inputSmallMagnitude (i : MduIn) : Bool :=
  (magnitude (inputSigned i.op) i.lhs).ult (magnitude (inputSigned i.op) i.rhs)
    && !inputDivideByZero i && !inputSignedOverflow i

variable (q : DivUnit) (i : MduIn)

/-- `remainder_shifted`: the remainder with the next dividend bit shifted in. -/
def remainderShifted : BitVec 33 := q.remainderQ ++ q.quotientQ.extractLsb 31 31

/-- `quotient_shifted`. -/
def quotientShifted : Word := q.quotientQ.extractLsb 30 0 ++ 0#1

/-- The comparison of one restoring step: the divisor fits. -/
def subtracts : Bool := !q.remainderShifted.ult (0#1 ++ q.divisorQ)

/-- `remainder_next`. -/
def remainderNext : Word :=
  if q.subtracts then q.remainderShifted.extractLsb 31 0 - q.divisorQ
  else q.remainderShifted.extractLsb 31 0

/-- `quotient_next`. -/
def quotientNext : Word :=
  if q.subtracts then q.quotientQ.extractLsb 30 0 ++ 1#1 else q.quotientShifted

/-- `quotient_corrected`. -/
def quotientCorrected : Word := if q.quotientNegQ then ~~~q.quotientNext + 1#32 else q.quotientNext

/-- `remainder_corrected`. -/
def remainderCorrected : Word :=
  if q.remainderNegQ then ~~~q.remainderNext + 1#32 else q.remainderNext

/-- `req_ready_o` of `div_unit`. -/
def reqReady : Bool := q.stateQ == .idle && !i.kill

/-- `rsp_valid_o` of `div_unit`. -/
def rspValid : Bool := q.stateQ == .resp && !i.kill

/-- `result_o` of `div_unit`. -/
def result : Word := q.resultQ

/-- What an accepted request loads: a local result, or the operands of the loop. -/
def accept : DivUnit :=
  let q₀ : DivUnit := { opQ := i.op, resultQ := q.resultQ }
  -- the first three cases need no iteration and answer in the next cycle
  if inputDivideByZero i then
    { q₀ with resultQ := if inputIsDiv i.op then 0xffffffff#32 else i.lhs, stateQ := .resp }
  else if inputSignedOverflow i then
    { q₀ with resultQ := if inputIsDiv i.op then 0x80000000#32 else 0#32, stateQ := .resp }
  else if inputSmallMagnitude i then
    { q₀ with resultQ := if inputIsDiv i.op then 0#32 else i.lhs, stateQ := .resp }
  else
    -- the loop works on magnitudes; the signs are put back after the last step
    { q₀ with divisorQ := magnitude (inputSigned i.op) i.rhs
              quotientQ := magnitude (inputSigned i.op) i.lhs
              quotientNegQ := inputSigned i.op && (i.lhs.msb ^^ i.rhs.msb)
              remainderNegQ := inputSigned i.op && i.lhs.msb
              stateQ := .run }

/-- One iteration of `DIV_RUN`; the last one also corrects the signs. -/
def iterate : DivUnit :=
  if q.iterQ == 31#6 then
    { q with quotientQ := q.quotientNext, remainderQ := q.remainderNext
             resultQ := if inputIsDiv q.opQ then q.quotientCorrected else q.remainderCorrected
             stateQ := .resp }
  else
    { q with quotientQ := q.quotientNext, remainderQ := q.remainderNext, iterQ := q.iterQ + 1#6 }

/-- The clock edge of `div_unit`. -/
def next : DivUnit :=
  if i.rst then {}
  else if i.kill then {}
  else
    match q.stateQ with
    | .idle => if i.reqValid && q.reqReady i then q.accept i else q
    | .run => q.iterate
    | .resp => if i.rspReady then { q with stateQ := .idle } else q

end DivUnit

end Rv32im

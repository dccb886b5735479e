import Rv32im.Rtl.Decoder

/-!
# `regfile` and `id_stage`

The integer register file with its hardwired `x0`, and the decode stage: decode, immediate,
register read with the WB-to-ID bypass, and the choice of the exception attached to the packet.

* `IdStage.packet`: the decoded packet of an IF/ID packet, given the two operand values;
* `idStage`: `id_stage` itself, which reads the operands from the register file or the bypass.
-/

namespace Rv32im

/-- The storage of `regfile`; entry `0` is never read or written. -/
abbrev Regfile := RegAddr → Word

namespace Regfile

/-- A read port: `x0` reads as zero. -/
def read (r : Regfile) (a : RegAddr) : Word := if a != 0#5 then r a else 0#32

/-- The write port at a clock edge. -/
def write (r : Regfile) (we : Bool) (a : RegAddr) (v : Word) : Regfile :=
  fun b => if we && a != 0#5 && b == a then v else r b

@[simp] theorem read_zero (r : Regfile) : r.read 0#5 = 0#32 := rfl

@[simp] theorem write_false (r : Regfile) (a : RegAddr) (v : Word) : r.write false a v = r := rfl

/-- Reading back the written register. -/
theorem read_write_self (r : Regfile) {a : RegAddr} (ha : a ≠ 0#5) (v : Word) :
    (r.write true a v).read a = v := by
  simp [read, write, ha]

/-- Reading another register, or any register when nothing is written. -/
theorem read_write_of_ne (r : Regfile) (we : Bool) {a b : RegAddr} (h : we = true → b ≠ a)
    (v : Word) : (r.write we a v).read b = r.read b := by
  cases we with
  | false => rfl
  | true => simp [read, write, h rfl]

end Regfile

namespace IdStage

/-- The exception attached in ID: a fetch exception precedes errors from decoding its
placeholder bits. -/
def exc (f : IfId) : Exc :=
  if f.exc.valid then f.exc
  else if (decoder f.insn).illegal then
    { f.exc with valid := true, cause := excIllegalInsn, tval := f.insn }
  else if f.insn = insnEcall then { f.exc with valid := true, cause := excEcallM, tval := 0#32 }
  else if f.insn = insnEbreak then
    { f.exc with valid := true, cause := excBreakpoint, tval := f.pc }
  else f.exc

/-- `id_ex_d` from the IF/ID packet and the values of its two source registers; exception
packets carry no operands and no controls. -/
def packet (f : IfId) (rs1Value rs2Value : Word) : IdEx :=
  if f.valid then
    let d := decoder f.insn
    let e := exc f
    { valid := true
      pc := f.pc
      insn := f.insn
      rs1 := d.rs1
      rs2 := d.rs2
      rd := d.rd
      rs1Value := if e.valid then 0#32 else rs1Value
      rs2Value := if e.valid then 0#32 else rs2Value
      imm := immGen f.insn d.immSel
      ctrl := if e.valid then {} else d.ctrl
      exc := e }
  else {}

/-- `id_rs1_value` and `id_rs2_value`: zero for an unused operand, else the WB-to-ID bypass or
the register file. -/
def operand (uses : Bool) (rs : RegAddr) (wbWe : Bool) (wbRd : RegAddr) (wbData : Word)
    (r : Regfile) : Word :=
  if uses then
    if wbWe && wbRd != 0#5 && wbRd == rs then wbData else r.read rs
  else 0#32

/-- The bypass returns what the register file will hold after the WB write. -/
theorem operand_eq_read_write (uses : Bool) (rs : RegAddr) (wbWe : Bool) (wbRd : RegAddr)
    (wbData : Word) (r : Regfile) :
    operand uses rs wbWe wbRd wbData r =
      if uses then (r.write wbWe wbRd wbData).read rs else 0#32 := by
  unfold operand Regfile.read Regfile.write
  by_cases hrs : wbRd = rs
  · subst hrs; cases wbWe <;> by_cases h0 : wbRd = 0#5 <;> simp [h0]
  · have hsr : ¬ rs = wbRd := fun h => hrs h.symm
    simp [hrs, hsr]

end IdStage

/-- `id_stage`. -/
def idStage (f : IfId) (wbWe : Bool) (wbRd : RegAddr) (wbData : Word) (r : Regfile) : IdEx :=
  let d := decoder f.insn
  IdStage.packet f
    (IdStage.operand d.ctrl.usesRs1 d.rs1 wbWe wbRd wbData r)
    (IdStage.operand d.ctrl.usesRs2 d.rs2 wbWe wbRd wbData r)

namespace IdStage

variable {f : IfId} {a b : Word}

@[simp] theorem packet_valid : (packet f a b).valid = f.valid := by
  unfold packet; split <;> simp_all

/-- A bubble decodes to a bubble. -/
theorem packet_of_not_valid (h : f.valid = false) : packet f a b = {} := by
  simp [packet, h]

/-- The exception of a decoded packet. -/
theorem packet_exc (h : f.valid = true) : (packet f a b).exc = exc f := by
  simp [packet, h]

/-- An exception packet has no controls. -/
theorem packet_ctrl_of_exc (h : (packet f a b).exc.valid = true) : (packet f a b).ctrl = {} := by
  unfold packet at *
  split <;> simp_all

end IdStage

end Rv32im

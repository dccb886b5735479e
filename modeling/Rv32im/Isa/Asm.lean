import Rv32im.Isa.Program

/-!
# Assembly code

The names of the registers, the mnemonics, and the sequences that stand for an address relative to
the program counter.

* `Asm.la`, `Asm.call`, `Asm.tail`: the sequences;
* `Hart.Gets.la`, `Hart.Gets.call`, `Hart.Gets.tail`: what they do.
-/

namespace Riscv

open Clocked Memory

namespace Asm

/-! ### Registers -/

abbrev zero : BitVec 5 := 0#5
abbrev ra : BitVec 5 := 1#5
abbrev sp : BitVec 5 := 2#5
abbrev gp : BitVec 5 := 3#5
abbrev tp : BitVec 5 := 4#5
abbrev t0 : BitVec 5 := 5#5
abbrev t1 : BitVec 5 := 6#5
abbrev t2 : BitVec 5 := 7#5
abbrev s0 : BitVec 5 := 8#5
abbrev s1 : BitVec 5 := 9#5
abbrev a0 : BitVec 5 := 10#5
abbrev a1 : BitVec 5 := 11#5
abbrev a2 : BitVec 5 := 12#5
abbrev a3 : BitVec 5 := 13#5
abbrev a4 : BitVec 5 := 14#5
abbrev a5 : BitVec 5 := 15#5
abbrev a6 : BitVec 5 := 16#5
abbrev a7 : BitVec 5 := 17#5
abbrev s2 : BitVec 5 := 18#5
abbrev s3 : BitVec 5 := 19#5
abbrev s4 : BitVec 5 := 20#5
abbrev s5 : BitVec 5 := 21#5
abbrev s6 : BitVec 5 := 22#5
abbrev s7 : BitVec 5 := 23#5
abbrev s8 : BitVec 5 := 24#5
abbrev s9 : BitVec 5 := 25#5
abbrev s10 : BitVec 5 := 26#5
abbrev s11 : BitVec 5 := 27#5
abbrev t3 : BitVec 5 := 28#5
abbrev t4 : BitVec 5 := 29#5
abbrev t5 : BitVec 5 := 30#5
abbrev t6 : BitVec 5 := 31#5

/-! ### Mnemonics -/

variable (rd : BitVec 5)

abbrev addi (rs : BitVec 5) (imm : ℤ) : Instr := .opImm .addi rd rs (.ofInt 12 imm)

/-- `lw rd, imm(base)` -/
abbrev lw (imm : ℕ) (base : BitVec 5) : Instr := .load .lw rd base (.ofNat 12 imm)

/-- `sw rs, imm(base)` -/
abbrev sw (rs : BitVec 5) (imm : ℕ) (base : BitVec 5) : Instr := .store .sw base rs (.ofNat 12 imm)

abbrev csrr (r : Csr) : Instr := .csr .rs rd zero r.num

abbrev csrw (r : Csr) (rs : BitVec 5) : Instr := .csr .rw zero rs r.num

abbrev csrci (r : Csr) (zimm : BitVec 5) : Instr := .csrImm .rc zero zimm r.num

/-- The upper part of a distance, rounded so that the signed lower part makes up for the rest. -/
def hi20 (d : BitVec 32) : BitVec 20 := (d + 0x800#32).extractLsb 31 12

/-- The lower part of a `pc`-relative offset, for the second instruction. -/
def lo12 (d : BitVec 32) : BitVec 12 := d.extractLsb 11 0

/-- `la`, at the address `pc`. -/
def la (pc target : BitVec 32) : List Instr :=
  [.auipc rd (hi20 (target - pc)), .opImm .addi rd rd (lo12 (target - pc))]

/-- `call`, at the address `pc`. -/
def call (pc target : BitVec 32) : List Instr :=
  [.auipc ra (hi20 (target - pc)), .jalr ra ra (lo12 (target - pc))]

/-- `tail`, at the address `pc`. -/
def tail (pc target : BitVec 32) : List Instr :=
  [.auipc t1 (hi20 (target - pc)), .jalr zero t1 (lo12 (target - pc))]

/-- The two parts make up the distance. -/
theorem hi_add_lo (d : BitVec 32) : (hi20 d ++ 0#12) + (lo12 d).signExtend 32 = d := by
  have hd := d.isLt
  have hhi : (hi20 d ++ 0#12).toNat = (d.toNat + 2048) % 2 ^ 32 / 4096 * 4096 := by
    have hcut : (hi20 d).toNat = (d.toNat + 2048) % 2 ^ 32 / 4096 := by
      rw [hi20, BitVec.extractLsb_toNat, BitVec.toNat_add, BitVec.toNat_ofNat,
        Nat.shiftRight_eq_div_pow]
      omega
    rw [BitVec.toNat_append, Nat.shiftLeft_eq, hcut, BitVec.toNat_ofNat]
    simp only [Nat.zero_mod, Nat.or_zero]
  have hlo : ((lo12 d).signExtend 32).toNat =
      if d.toNat % 4096 < 2048 then d.toNat % 4096 else 2 ^ 32 + d.toNat % 4096 - 4096 := by
    have hcut : (lo12 d).toNat = d.toNat % 4096 := by
      rw [lo12, BitVec.extractLsb_toNat, Nat.shiftRight_zero]
    rw [BitVec.signExtend, BitVec.toNat_ofInt, BitVec.toInt_eq_toNat_cond, hcut]
    split_ifs <;> omega
  apply BitVec.eq_of_toNat_eq
  rw [BitVec.toNat_add, hhi, hlo]
  split_ifs <;> omega

/-- An address from the two parts of its distance. -/
theorem pc_add_hi_lo (pc target : BitVec 32) :
    pc + (hi20 (target - pc) ++ 0#12) + (lo12 (target - pc)).signExtend 32 = target := by
  rw [BitVec.add_assoc, hi_add_lo, BitVec.add_comm, BitVec.sub_add_cancel]

end Asm

namespace Hart

variable {μ : Type*} {B : Bus μ} {h : Hart μ} {P : Hart μ → Prop} {k : ℕ} {ns : List Instr}
  {rd : BitVec 5} {target : BitVec 32}

/-- `la` -/
theorem Gets.la (hm : h.Masked) (hrd : rd ≠ 0#5) (hc : h.Runs B (Asm.la rd h.pc target ++ ns))
    (hnext : ∀ g : Hart μ, g.pc = h.pc + 8#32 →
      (∀ r, g.reg r = if r = rd then target else h.reg r) → g.csrs = h.csrs.countedBy 2 →
      g.mem = h.mem → g.Runs B ns → Gets B P k g) : Gets B P (k + 2) h := by
  refine Gets.auipc hm hc ?_
  have hsum : (h.put rd (h.pc + (Asm.hi20 (target - h.pc) ++ 0#12))).reg rd +
      (Asm.lo12 (target - h.pc)).signExtend 32 = target := by
    rw [put_reg, if_pos ⟨rfl, hrd⟩, Asm.pc_add_hi_lo]
  refine Gets.addi (Masked.counted hm rfl) (Runs.next hc rfl rfl) ?_
  rw [hsum]
  refine hnext _ ?_ (fun r => ?_) ?_ rfl hc.2.2
  · simp only [put_pc, BitVec.add_assoc]
    rfl
  · rw [put_reg, put_reg]
    by_cases hr : r = rd <;> simp [hr, hrd]
  · simp only [put_csrs, Csrs.counted_eq, Csrs.countedBy_countedBy]

/-- `tail` -/
theorem Gets.tail (hm : h.Masked) (hc : h.Runs B (Asm.tail h.pc target ++ ns))
    (htarget : target.toNat % 4 = 0)
    (hnext : ∀ g : Hart μ, g.pc = target → (∀ r, r ≠ Asm.t1 → g.reg r = h.reg r) →
      g.csrs = h.csrs.countedBy 2 → g.mem = h.mem → Gets B P k g) : Gets B P (k + 2) h := by
  refine Gets.auipc hm hc ?_
  refine Gets.jalr (a := target) (Masked.counted hm rfl) (Runs.next hc rfl rfl) ?_ htarget ?_
  · rw [put_reg, if_pos ⟨rfl, by decide⟩, Asm.pc_add_hi_lo]
  · refine hnext _ rfl (fun r hr => ?_) ?_ rfl
    · rw [goto_reg, if_neg (by simp), put_reg, if_neg fun h => hr h.1]
    · simp only [put_csrs, goto_csrs, Csrs.counted_eq, Csrs.countedBy_countedBy]

/-- `call` -/
theorem Gets.call (hm : h.Masked) (hc : h.Runs B (Asm.call h.pc target ++ ns))
    (htarget : target.toNat % 4 = 0)
    (hnext : ∀ g : Hart μ, g.pc = target →
      (∀ r, g.reg r = if r = Asm.ra then h.pc + 8#32 else h.reg r) →
      g.csrs = h.csrs.countedBy 2 → g.mem = h.mem → Gets B P k g) : Gets B P (k + 2) h := by
  refine Gets.auipc hm hc ?_
  refine Gets.jalr (a := target) (Masked.counted hm rfl) (Runs.next hc rfl rfl) ?_ htarget ?_
  · rw [put_reg, if_pos ⟨rfl, by decide⟩, Asm.pc_add_hi_lo]
  · refine hnext _ rfl (fun r => ?_) ?_ rfl
    · rw [goto_reg, put_reg, put_pc, BitVec.add_assoc]
      by_cases hr : r = Asm.ra <;> simp [hr]
    · simp only [put_csrs, goto_csrs, Csrs.counted_eq, Csrs.countedBy_countedBy]

end Hart

end Riscv

import Rv32im.Clocked.Within
import Rv32im.Isa.Bus
import Rv32im.Memory.Bytes

/-!
# Machine code on a hart

What a hart does that runs a piece of machine code in a memory with read and write access, as long
as it takes no interrupt. Every rule goes through one instruction, from the state behind it to the
state in front of it.

* `Instr.encode_injective`: a word is the encoding of one instruction at most;
* `Bus.Ram`: the part of an address space that is memory;
* `Bus.Ram.Code`: machine code in it;
* `Hart.Gets`: the hart cannot help getting to a state;
* `Hart.Gets.instr` and the rules for the instructions.
-/

namespace Riscv

open Clocked Memory

/-! ### Encodings -/

section Formats

variable {op op' : BitVec 7} {rd rd' rs1 rs1' rs2 rs2' : BitVec 5} {f3 f3' : BitVec 3}
  {f7 f7' : BitVec 7}

/-- A word has one set of R-type fields. -/
theorem rType_inj (h : rType op rd f3 rs1 rs2 f7 = rType op' rd' f3' rs1' rs2' f7') :
    op = op' ∧ rd = rd' ∧ f3 = f3' ∧ rs1 = rs1' ∧ rs2 = rs2' ∧ f7 = f7' := by
  have hop := congrArg (·.extractLsb 6 0) h
  have hrd := congrArg (·.extractLsb 11 7) h
  have hf3 := congrArg (·.extractLsb 14 12) h
  have hrs1 := congrArg (·.extractLsb 19 15) h
  have hrs2 := congrArg (·.extractLsb 24 20) h
  have hf7 := congrArg (·.extractLsb 31 25) h
  simp only [opcode_rType, rd_rType, funct3_rType, rs1_rType, rs2_rType, funct7_rType] at *
  exact ⟨hop, hrd, hf3, hrs1, hrs2, hf7⟩

/-- A word of twelve bits from its two pieces. -/
private theorem imm_ext {i j : BitVec 12} (hlow : i.extractLsb 4 0 = j.extractLsb 4 0)
    (hhigh : i.extractLsb 11 5 = j.extractLsb 11 5) : i = j := by
  have hi (k : BitVec 12) : k.extractLsb 11 5 ++ k.extractLsb 4 0 = k := by
    ext b hb
    grind
  rw [← hi i, ← hi j, hlow, hhigh]

theorem iType_inj {i j : BitVec 12} (h : iType op rd f3 rs1 i = iType op' rd' f3' rs1' j) :
    op = op' ∧ rd = rd' ∧ f3 = f3' ∧ rs1 = rs1' ∧ i = j := by
  rw [iType_eq_rType, iType_eq_rType] at h
  obtain ⟨hop, hrd, hf3, hrs1, hlow, hhigh⟩ := rType_inj h
  exact ⟨hop, hrd, hf3, hrs1, imm_ext hlow hhigh⟩

theorem sType_inj {i j : BitVec 12} (h : sType op f3 rs1 rs2 i = sType op' f3' rs1' rs2' j) :
    op = op' ∧ f3 = f3' ∧ rs1 = rs1' ∧ rs2 = rs2' ∧ i = j := by
  rw [sType_eq_rType, sType_eq_rType] at h
  obtain ⟨hop, hlow, hf3, hrs1, hrs2, hhigh⟩ := rType_inj h
  exact ⟨hop, hf3, hrs1, hrs2, imm_ext hlow hhigh⟩

theorem bType_inj {i j : BitVec 12} (h : bType op f3 rs1 rs2 i = bType op' f3' rs1' rs2' j) :
    op = op' ∧ f3 = f3' ∧ rs1 = rs1' ∧ rs2 = rs2' ∧ i = j := by
  rw [bType_eq_rType, bType_eq_rType] at h
  obtain ⟨hop, hlow, hf3, hrs1, hrs2, hhigh⟩ := rType_inj h
  refine ⟨hop, hf3, hrs1, hrs2, ?_⟩
  ext b hb
  have hl := congrArg (·.getLsbD (if b = 10 then 0 else b + 1)) hlow
  have hh := congrArg (·.getLsbD (if b = 11 then 6 else b - 4)) hhigh
  grind

theorem uType_inj {i j : BitVec 20} (h : uType op rd i = uType op' rd' j) :
    op = op' ∧ rd = rd' ∧ i = j := by
  have hop := congrArg (·.extractLsb 6 0) h
  have hrd := congrArg (·.extractLsb 11 7) h
  have himm := congrArg (·.extractLsb 31 12) h
  have hi (op : BitVec 7) (rd : BitVec 5) (k : BitVec 20) :
      (uType op rd k).extractLsb 31 12 = k := by
    unfold uType
    ext b hb
    grind
  simp only [opcode_uType, rd_uType, hi] at hop hrd himm
  exact ⟨hop, hrd, himm⟩

/-- The pieces of a jump offset, where the `J` format has them. -/
private theorem jType_pieces (op : BitVec 7) (rd : BitVec 5) (i : BitVec 20) :
    (jType op rd i).extractLsb 31 31 = i.extractLsb 19 19 ∧
      (jType op rd i).extractLsb 19 12 = i.extractLsb 18 11 ∧
      (jType op rd i).extractLsb 20 20 = i.extractLsb 10 10 ∧
      (jType op rd i).extractLsb 30 21 = i.extractLsb 9 0 := by
  unfold jType
  refine ⟨?_, ?_, ?_, ?_⟩ <;>
    · ext k hk
      grind

theorem jType_inj {i j : BitVec 20} (h : jType op rd i = jType op' rd' j) :
    op = op' ∧ rd = rd' ∧ i = j := by
  have hop := congrArg (·.extractLsb 6 0) h
  have hrd := congrArg (·.extractLsb 11 7) h
  simp only [opcode_jType, rd_jType] at hop hrd
  refine ⟨hop, hrd, ?_⟩
  have hpieces (k : BitVec 20) :
      k.extractLsb 19 19 ++ k.extractLsb 18 11 ++ k.extractLsb 10 10 ++ k.extractLsb 9 0 = k := by
    ext b hb
    grind
  obtain ⟨h₁, h₂, h₃, h₄⟩ := jType_pieces op rd i
  obtain ⟨h₁', h₂', h₃', h₄'⟩ := jType_pieces op' rd' j
  rw [← hpieces i, ← hpieces j, ← h₁, ← h₂, ← h₃, ← h₄, ← h₁', ← h₂', ← h₃', ← h₄', h]

end Formats

namespace Instr

/-- The opcode of an instruction. -/
def opcode : Instr → BitVec 7
  | lui .. => 0b0110111#7
  | auipc .. => 0b0010111#7
  | jal .. => 0b1101111#7
  | jalr .. => 0b1100111#7
  | branch .. => 0b1100011#7
  | load .. => 0b0000011#7
  | store .. => 0b0100011#7
  | opImm .. | shiftImm .. => 0b0010011#7
  | reg .. | mulDiv .. => 0b0110011#7
  | fence .. => 0b0001111#7
  | csr .. | csrImm .. | ecall | ebreak | mret | wfi => 0b1110011#7

/-- The opcode of an instruction is that of its word. -/
theorem extractLsb_encode (n : Instr) : n.encode.extractLsb 6 0 = n.opcode := by
  cases n <;> simp [encode, opcode, iType_eq_rType, sType_eq_rType, bType_eq_rType]

/-- Where `funct3` of an instruction stands. -/
theorem funct3_encode_csr (op : CsrOp) (rd rs1 : BitVec 5) (num : BitVec 12) :
    (csr op rd rs1 num).encode.extractLsb 14 12 = op.funct3 := by
  rw [encode, iType_eq_rType, funct3_rType]

theorem funct3_encode_csrImm (op : CsrOp) (rd zimm : BitVec 5) (num : BitVec 12) :
    (csrImm op rd zimm num).encode.extractLsb 14 12 = op.funct3Imm := by
  rw [encode, iType_eq_rType, funct3_rType]

/-- A word encodes one instruction at most. -/
theorem encode_injective {n m : Instr} (h : n.encode = m.encode) : n = m := by
  have hop : n.opcode = m.opcode := by rw [← extractLsb_encode, h, extractLsb_encode]
  have h3 := congrArg (·.extractLsb 14 12) h
  -- the opcode leaves few pairs
  cases n <;> cases m <;> first | (simp [opcode] at hop; done) | skip
  case lui.lui | auipc.auipc =>
    obtain ⟨-, rfl, rfl⟩ := uType_inj h
    rfl
  case jal.jal =>
    obtain ⟨-, rfl, rfl⟩ := jType_inj h
    rfl
  case jalr.jalr | fence.fence =>
    obtain ⟨-, rfl, -, rfl, rfl⟩ := iType_inj h
    rfl
  case branch.branch op _ _ _ op' _ _ _ =>
    obtain ⟨-, hf, rfl, rfl, rfl⟩ := bType_inj h
    cases op <;> cases op' <;> first | rfl | exact absurd hf (by decide)
  case load.load op _ _ _ op' _ _ _ =>
    obtain ⟨-, rfl, hf, rfl, rfl⟩ := iType_inj h
    cases op <;> cases op' <;> first | rfl | exact absurd hf (by decide)
  case store.store op _ _ _ op' _ _ _ =>
    obtain ⟨-, hf, rfl, rfl, rfl⟩ := sType_inj h
    cases op <;> cases op' <;> first | rfl | exact absurd hf (by decide)
  case opImm.opImm op _ _ _ op' _ _ _ =>
    obtain ⟨-, rfl, hf, rfl, rfl⟩ := iType_inj h
    cases op <;> cases op' <;> first | rfl | exact absurd hf (by decide)
  case opImm.shiftImm op _ _ _ op' _ _ _ =>
    simp only [encode, iType_eq_rType, funct3_rType] at h3
    cases op <;> cases op' <;> exact absurd h3 (by decide)
  case shiftImm.opImm op _ _ _ op' _ _ _ =>
    simp only [encode, iType_eq_rType, funct3_rType] at h3
    cases op <;> cases op' <;> exact absurd h3 (by decide)
  case shiftImm.shiftImm op _ _ _ op' _ _ _ =>
    obtain ⟨-, rfl, hf, rfl, rfl, hf'⟩ := rType_inj h
    cases op <;> cases op' <;>
      first | rfl | exact absurd hf (by decide) | exact absurd hf' (by decide)
  case reg.reg op _ _ _ op' _ _ _ =>
    obtain ⟨-, rfl, hf, rfl, rfl, hf'⟩ := rType_inj h
    cases op <;> cases op' <;>
      first | rfl | exact absurd hf (by decide) | exact absurd hf' (by decide)
  case reg.mulDiv op _ _ _ op' _ _ _ =>
    obtain ⟨-, -, -, -, -, hf⟩ := rType_inj h
    cases op <;> exact absurd hf (by decide)
  case mulDiv.reg op _ _ _ op' _ _ _ =>
    obtain ⟨-, -, -, -, -, hf⟩ := rType_inj h
    cases op' <;> exact absurd hf (by decide)
  case mulDiv.mulDiv op _ _ _ op' _ _ _ =>
    obtain ⟨-, rfl, hf, rfl, rfl, -⟩ := rType_inj h
    cases op <;> cases op' <;> first | rfl | exact absurd hf (by decide)
  case csr.csr op _ _ _ op' _ _ _ =>
    obtain ⟨-, rfl, hf, rfl, rfl⟩ := iType_inj h
    cases op <;> cases op' <;> first | rfl | exact absurd hf (by decide)
  case csrImm.csrImm op _ _ _ op' _ _ _ =>
    obtain ⟨-, rfl, hf, rfl, rfl⟩ := iType_inj h
    cases op <;> cases op' <;> first | rfl | exact absurd hf (by decide)
  case csr.csrImm op _ _ _ op' _ _ _ =>
    simp only [funct3_encode_csr, funct3_encode_csrImm] at h3
    cases op <;> cases op' <;> exact absurd h3 (by decide)
  case csrImm.csr op _ _ _ op' _ _ _ =>
    simp only [funct3_encode_csr, funct3_encode_csrImm] at h3
    cases op <;> cases op' <;> exact absurd h3 (by decide)
  -- the environment instructions are single words with another `funct3`
  case ecall.csr op _ _ _ | ebreak.csr op _ _ _ | mret.csr op _ _ _ | wfi.csr op _ _ _ =>
    simp only [funct3_encode_csr] at h3
    cases op <;> exact absurd h3 (by decide)
  case csr.ecall op _ _ _ | csr.ebreak op _ _ _ | csr.mret op _ _ _ | csr.wfi op _ _ _ =>
    simp only [funct3_encode_csr] at h3
    cases op <;> exact absurd h3 (by decide)
  case ecall.csrImm op _ _ _ | ebreak.csrImm op _ _ _ | mret.csrImm op _ _ _ |
      wfi.csrImm op _ _ _ =>
    simp only [funct3_encode_csrImm] at h3
    cases op <;> exact absurd h3 (by decide)
  case csrImm.ecall op _ _ _ | csrImm.ebreak op _ _ _ | csrImm.mret op _ _ _ |
      csrImm.wfi op _ _ _ =>
    simp only [funct3_encode_csrImm] at h3
    cases op <;> exact absurd h3 (by decide)
  all_goals first | rfl | exact absurd h (by decide)

end Instr

/-! ### Memory -/

namespace Bus

variable {μ : Type*}

/-- The instructions are found from an address on. -/
def Code (B : Bus μ) (m : μ) : BitVec 32 → List Instr → Prop
  | _, [] => True
  | a, n :: ns => B.fetch m a = some n.encode ∧ Code B m (a + 4#32) ns

/-- Whether a program is in memory can be computed. -/
instance decidableCode (B : Bus μ) (m : μ) : ∀ a ns, Decidable (B.Code m a ns)
  | _, [] => .isTrue trivial
  | a, n :: ns =>
      have : Decidable (B.Code m (a + 4#32) ns) := decidableCode B m _ ns
      inferInstanceAs (Decidable (B.fetch m a = some n.encode ∧ B.Code m (a + 4#32) ns))

/-- The part of an address space that is memory, from `lo` to `hi`. What else there is stays the
same when its bytes change. -/
structure Ram (B : Bus μ) where
  bytes : μ → Bytes
  set : μ → Bytes → μ
  lo : ℕ
  hi : ℕ
  hi_le : hi ≤ 2 ^ 32
  bytes_set : ∀ m b, bytes (set m b) = b
  set_set : ∀ m b b', set (set m b) b' = set m b'
  set_bytes : ∀ m, set m (bytes m) = m
  fetch : ∀ m a, lo ≤ a.toNat → a.toNat < hi → B.fetch m a = some ((bytes m).load a.toNat 4)
  load : ∀ m a n, lo ≤ a.toNat → a.toNat < hi →
    B.load m a n = (some ((bytes m).load a.toNat n), m)
  store : ∀ m a n v, lo ≤ a.toNat → a.toNat < hi →
    B.store m a n v = (true, set m ((bytes m).store a.toNat n v))

attribute [simp] Ram.bytes_set Ram.set_set Ram.set_bytes

variable {B : Bus μ} {m m' : μ} {a : BitVec 32} {ns ns' : List Instr}

/-- Code is there if both parts of it are. -/
theorem code_append : B.Code m a (ns ++ ns') ↔
    B.Code m a ns ∧ B.Code m (a + BitVec.ofNat 32 (4 * ns.length)) ns' := by
  induction ns generalizing a with
  | nil => simp [Code]
  | cons n ns ih =>
    have haddr : a + 4#32 + BitVec.ofNat 32 (4 * ns.length) =
        a + BitVec.ofNat 32 (4 * (ns.length + 1)) := by
      rw [BitVec.add_assoc, ← BitVec.ofNat_add]
      congr 2
      omega
    simp [Code, ih, haddr, and_assoc]

namespace Ram

variable (R : B.Ram)

/-- A range of addresses in the memory. -/
def Holds (a n : ℕ) : Prop := R.lo ≤ a ∧ a + n ≤ R.hi

/-- Whether a range is in the memory can be computed. -/
instance (a n : ℕ) : Decidable (R.Holds a n) := inferInstanceAs (Decidable (_ ∧ _))

variable {R}

/-- Code in memory, by its words. -/
theorem code_iff (hin : R.Holds a.toNat (4 * ns.length)) : B.Code m a ns ↔
    ∀ i n, ns[i]? = some n → (R.bytes m).load (a.toNat + 4 * i) 4 = n.encode := by
  induction ns generalizing a with
  | nil => simp [Code]
  | cons n ns ih =>
    obtain ⟨hlo, hhi⟩ := hin
    have hle := R.hi_le
    rw [List.length_cons] at hhi
    have hhead : B.fetch m a = some n.encode ↔ (R.bytes m).load (a.toNat + 4 * 0) 4 = n.encode := by
      rw [R.fetch m a hlo (by omega)]
      exact Option.some_inj
    have htail : B.Code m (a + 4#32) ns ↔ ∀ i n', ns[i]? = some n' →
        (R.bytes m).load (a.toNat + 4 * (i + 1)) 4 = n'.encode := by
      -- behind the last instruction the address may wrap around
      cases ns with
      | nil => simp [Code]
      | cons n' ns =>
        have hnext : (a + 4#32).toNat = a.toNat + 4 := by
          rw [List.length_cons] at hhi
          rw [BitVec.toNat_add, BitVec.toNat_ofNat]
          omega
        have haddr (i : ℕ) : a.toNat + 4 + 4 * i = a.toNat + 4 * (i + 1) := by omega
        rw [ih ⟨by omega, by omega⟩]
        simp only [hnext, haddr]
    rw [Code, hhead, htail]
    constructor
    · rintro ⟨hn, hns⟩ i n' hi
      cases i with
      | zero =>
        obtain rfl : n = n' := by simpa using hi
        exact hn
      | succ i => exact hns i n' hi
    · exact fun h => ⟨h 0 n rfl, fun i n' hi => h (i + 1) n' hi⟩

/-- Code stays where its bytes stay. -/
theorem code_congr (hc : B.Code m a ns) (hin : R.Holds a.toNat (4 * ns.length))
    (hb : ∀ x, a.toNat ≤ x → x < a.toNat + 4 * ns.length → R.bytes m' x = R.bytes m x) :
    B.Code m' a ns := by
  rw [code_iff hin] at hc ⊢
  intro i n hi
  have hlt := (List.getElem?_eq_some_iff.mp hi).1
  rw [← hc i n hi]
  exact Bytes.load_congr fun k hk => hb _ (by omega) (by omega)

end Ram

end Bus

/-- An address space that is memory throughout. -/
def Bus.flat : Bus Bytes where
  fetch b a := some (b.load a.toNat 4)
  load b a n := (some (b.load a.toNat n), b)
  store b a n v := (true, b.store a.toNat n v)

/-- All of it is memory. -/
def Bus.flatRam : Bus.flat.Ram where
  bytes b := b
  set _ b := b
  lo := 0
  hi := 2 ^ 32
  hi_le := Nat.le_refl _
  bytes_set _ _ := rfl
  set_set _ _ _ := rfl
  set_bytes _ := rfl
  fetch _ _ _ _ := rfl
  load _ _ _ _ _ := rfl
  store _ _ _ _ _ _ := rfl

/-! ### Single instructions -/

namespace Csrs

/-- The state after `k` instructions that write no register. -/
def countedBy (c : Csrs) (k : ℕ) : Csrs := { c with minstret := c.minstret + BitVec.ofNat 64 k }

theorem countedBy_zero (c : Csrs) : c.countedBy 0 = c := by
  simp [countedBy]

theorem counted_eq (c : Csrs) : c.counted = c.countedBy 1 := rfl

/-- The counts of two runs add up. -/
theorem countedBy_countedBy (c : Csrs) (j k : ℕ) :
    (c.countedBy j).countedBy k = c.countedBy (j + k) := by
  simp [countedBy, BitVec.add_assoc, BitVec.ofNat_add]

end Csrs

namespace Hart

variable {μ : Type*} {B : Bus μ} {h : Hart μ} {P : Hart μ → Prop} {k : ℕ} {ns : List Instr}
  {rd rs1 rs2 : BitVec 5} {imm : BitVec 12} {a v : BitVec 32}

/-- The steps of a hart, whatever it reads of its surroundings. -/
def Moves (B : Bus μ) (h h' : Hart μ) : Prop := ∃ i c, Step B h i c h'

/-- The hart cannot help getting to a state with `P` in `k` steps. -/
abbrev Gets (B : Bus μ) (P : Hart μ → Prop) (k : ℕ) (h : Hart μ) : Prop := Within (Moves B) P k h

/-- The code in front of the hart. -/
def Runs (B : Bus μ) (h : Hart μ) (ns : List Instr) : Prop := B.Code h.mem h.pc ns

/-- The timer interrupt is disabled. -/
def Masked (h : Hart μ) : Prop := (h.csrs.mie && h.csrs.mtie) = false

/-- The instruction in front of the hart is executed. -/
theorem Gets.instr {n : Instr} (hm : h.Masked) (hc : h.Runs B (n :: ns))
    (hnext : ∀ i, Gets B P k (h.after (n.result B h i))) : Gets B P (k + 1) h := by
  refine .inr ⟨⟨_, {}, _, .instr n hc.1⟩, ?_⟩
  rintro g ⟨i, c, hs⟩
  cases hs with
  | fault fetch => simp [hc.1] at fetch
  | illegal w fetch illegal =>
    rw [hc.1] at fetch
    exact absurd (Option.some.inj fetch) (illegal n)
  | instr n' fetch =>
    rw [hc.1] at fetch
    rw [← Instr.encode_injective (Option.some.inj fetch)]
    exact hnext i
  | interrupt enabled pending => exact absurd (hm.symm.trans enabled) (by simp)

/-- The hart behind an instruction that writes a register. -/
def put (h : Hart μ) (rd : BitVec 5) (v : BitVec 32) : Hart μ where
  pc := h.pc + 4#32
  x := h.writeReg (some (rd, v))
  csrs := h.csrs.counted
  mem := h.mem

/-- The hart behind an instruction that changes the memory. -/
def putMem (h : Hart μ) (m : μ) : Hart μ where
  pc := h.pc + 4#32
  x := h.x
  csrs := h.csrs.counted
  mem := m

/-- The hart behind a jump. -/
def goto (h : Hart μ) (rd : BitVec 5) (a : BitVec 32) : Hart μ where
  pc := a
  x := h.writeReg (some (rd, h.pc + 4#32))
  csrs := h.csrs.counted
  mem := h.mem

/-- The hart behind an instruction that writes a CSR. -/
def putCsr (h : Hart μ) (r : Csr) (v : BitVec 32) : Hart μ where
  pc := h.pc + 4#32
  x := h.x
  csrs := h.csrs.written v r
  mem := h.mem

@[simp] theorem put_pc : (h.put rd v).pc = h.pc + 4#32 := rfl
@[simp] theorem put_csrs : (h.put rd v).csrs = h.csrs.counted := rfl
@[simp] theorem put_mem : (h.put rd v).mem = h.mem := rfl
@[simp] theorem putMem_pc (m : μ) : (h.putMem m).pc = h.pc + 4#32 := rfl
@[simp] theorem putMem_csrs (m : μ) : (h.putMem m).csrs = h.csrs.counted := rfl
@[simp] theorem putMem_mem (m : μ) : (h.putMem m).mem = m := rfl
@[simp] theorem goto_pc : (h.goto rd a).pc = a := rfl
@[simp] theorem goto_csrs : (h.goto rd a).csrs = h.csrs.counted := rfl
@[simp] theorem goto_mem : (h.goto rd a).mem = h.mem := rfl
@[simp] theorem putCsr_pc (r : Csr) : (h.putCsr r v).pc = h.pc + 4#32 := rfl
@[simp] theorem putCsr_csrs (r : Csr) : (h.putCsr r v).csrs = h.csrs.written v r := rfl
@[simp] theorem putCsr_mem (r : Csr) : (h.putCsr r v).mem = h.mem := rfl

theorem reg_congr {h' : Hart μ} (hx : h'.x = h.x) : h'.reg = h.reg := by
  funext r
  rw [reg, reg, hx]

@[simp] theorem putMem_reg (m : μ) : (h.putMem m).reg = h.reg := rfl
@[simp] theorem putCsr_reg (r : Csr) : (h.putCsr r v).reg = h.reg := rfl

/-- A write to `x0` is lost. -/
theorem put_reg (r : BitVec 5) :
    (h.put rd v).reg r = if r = rd ∧ rd ≠ 0#5 then v else h.reg r := by
  by_cases hz : rd = 0#5
  · subst hz
    simp [put, reg, writeReg, writes, Option.filter_some]
  · by_cases hr : r = rd
    · subst hr
      simp [put, reg, writeReg, writes, hz, Option.filter_some]
    · simp [put, reg, writeReg, writes, hz, hr, Option.filter_some]

theorem put_reg_of_ne (hrd : rd ≠ 0#5) (r : BitVec 5) :
    (h.put rd v).reg r = if r = rd then v else h.reg r := by
  rw [put_reg]
  simp [hrd]

/-- A jump writes its link. -/
theorem goto_reg (r : BitVec 5) :
    (h.goto rd a).reg r = if r = rd ∧ rd ≠ 0#5 then h.pc + 4#32 else h.reg r :=
  put_reg r

/-- Counting does not unmask the interrupt. -/
theorem Masked.counted {h' : Hart μ} (hm : h.Masked) (hc : h'.csrs = h.csrs.counted) :
    h'.Masked := by
  rw [Masked, hc]
  exact hm

theorem Masked.countedBy {h' : Hart μ} {n : ℕ} (hm : h.Masked)
    (hc : h'.csrs = h.csrs.countedBy n) : h'.Masked := by
  rw [Masked, hc]
  exact hm

/-- Behind an instruction that leaves the code alone is the rest of it. -/
theorem Runs.next {n : Instr} {h' : Hart μ} (hc : h.Runs B (n :: ns))
    (hpc : h'.pc = h.pc + 4#32) (hmem : h'.mem = h.mem) : h'.Runs B ns := by
  rw [Runs, hpc, hmem]
  exact hc.2

/-! An instruction that computes a value. -/

/-- An instruction with a result for its register writes it. -/
theorem Gets.value {n : Instr} (hm : h.Masked) (hc : h.Runs B (n :: ns))
    (ho : ∀ old, n.outcome h.pc (h.reg n.rs1) (h.reg n.rs2) old = some (.value rd v))
    (hnext : Gets B P k (h.put rd v)) : Gets B P (k + 1) h := by
  refine Gets.instr hm hc fun i => ?_
  rw [Instr.result_of_outcome B (ho _)]
  exact hnext

/-- `addi` -/
theorem Gets.addi (hm : h.Masked) (hc : h.Runs B (.opImm .addi rd rs1 imm :: ns))
    (hnext : Gets B P k (h.put rd (h.reg rs1 + imm.signExtend 32))) : Gets B P (k + 1) h := by
  refine Gets.value hm hc (fun old => ?_) hnext
  simp only [Instr.outcome, Instr.rs1, ImmOp.reg, RegOp.eval, BitVec.ofInt_add,
    BitVec.ofInt_toInt, BitVec.signExtend]

/-- `auipc` -/
theorem Gets.auipc {hi : BitVec 20} (hm : h.Masked) (hc : h.Runs B (.auipc rd hi :: ns))
    (hnext : Gets B P k (h.put rd (h.pc + (hi ++ 0#12)))) : Gets B P (k + 1) h := by
  refine Gets.value hm hc (fun old => ?_) hnext
  have himm : BitVec.ofInt 32 (hi.toNat * 2 ^ 12) = hi ++ 0#12 := by
    have hcast : (hi.toNat : ℤ) * 2 ^ 12 = ((hi.toNat * 2 ^ 12 : ℕ) : ℤ) :=
      (Int.natCast_mul _ _).symm
    rw [hcast, BitVec.ofInt_natCast]
    apply BitVec.eq_of_toNat_eq
    have hlt := hi.isLt
    rw [BitVec.toNat_append, BitVec.toNat_ofNat, BitVec.toNat_ofNat, Nat.shiftLeft_eq]
    simp only [Nat.zero_mod, Nat.or_zero]
    omega
  simp only [Instr.outcome, BitVec.ofInt_add, BitVec.ofInt_toInt, himm]

/-! Loads and stores of words in the memory. -/

section Ram

variable (R : B.Ram)
include R

/-- `lw` -/
theorem Gets.lw (hm : h.Masked) (hc : h.Runs B (.load .lw rd rs1 imm :: ns))
    (ha : h.reg rs1 + imm.signExtend 32 = a) (halign : a.toNat % 4 = 0)
    (hin : R.Holds a.toNat 4) (hnext : Gets B P k (h.put rd ((R.bytes h.mem).load a.toNat 4))) :
    Gets B P (k + 1) h := by
  refine Gets.instr hm hc fun i => ?_
  have hadd : BitVec.ofInt 32 ((h.reg rs1).toInt + imm.toInt) = a := by
    rw [BitVec.ofInt_add, BitVec.ofInt_toInt]
    exact ha
  have hload := R.load h.mem a 4 hin.1 (by have := hin.2; omega)
  simp only [Instr.result, Instr.outcome, Instr.rs1, Outcome.result, load, hadd, LoadOp.bytes,
    LoadOp.signed, halign, hload, ne_eq, not_true_eq_false, if_false, if_true]
  rw [after, BitVec.signExtend_eq]
  exact hnext

/-- `sw` -/
theorem Gets.sw (hm : h.Masked) (hc : h.Runs B (.store .sw rs1 rs2 imm :: ns))
    (ha : h.reg rs1 + imm.signExtend 32 = a) (halign : a.toNat % 4 = 0)
    (hin : R.Holds a.toNat 4)
    (hnext : Gets B P k
      (h.putMem (R.set h.mem ((R.bytes h.mem).store a.toNat 4 (h.reg rs2))))) :
    Gets B P (k + 1) h := by
  refine Gets.instr hm hc fun i => ?_
  have hadd : BitVec.ofInt 32 ((h.reg rs1).toInt + imm.toInt) = a := by
    rw [BitVec.ofInt_add, BitVec.ofInt_toInt]
    exact ha
  have hstore := R.store h.mem a 4 (h.reg rs2) hin.1 (by have := hin.2; omega)
  simp only [Instr.result, Instr.outcome, Instr.rs1, Instr.rs2, Outcome.result, store, hadd,
    StoreOp.bytes, halign, hstore, ne_eq, not_true_eq_false, if_false]
  exact hnext

end Ram

/-! Control and status registers. -/

/-- `csrr` -/
theorem Gets.csrr {r : Csr} (hm : h.Masked) (hc : h.Runs B (.csr .rs rd 0#5 r.num :: ns))
    (hv : ∀ i, h.csrs.read i r = v) (hnext : Gets B P k (h.put rd v)) : Gets B P (k + 1) h := by
  refine Gets.instr hm hc fun i => ?_
  have hvalue : h.csrs.value i r.num = v := by
    rw [Csrs.value, Csr.ofNum_num]
    exact hv i
  simp only [Instr.result, Instr.outcome, Instr.csrNum, hvalue, CsrOp.writes, Outcome.result,
    access, Csr.ofNum_num]
  exact hnext

/-- `csrw` -/
theorem Gets.csrw {r : Csr} (hm : h.Masked) (hc : h.Runs B (.csr .rw 0#5 rs1 r.num :: ns))
    (hr : r.readOnly = false) (hnext : Gets B P k (h.putCsr r (h.reg rs1))) :
    Gets B P (k + 1) h := by
  refine Gets.instr hm hc fun i => ?_
  simp only [Instr.result, Instr.outcome, Instr.rs1, Instr.csrNum, CsrOp.writes, CsrOp.eval,
    Outcome.result, access, Csr.ofNum_num, hr, if_true]
  exact hnext

/-- `csrci` -/
theorem Gets.csrci {r : Csr} {zimm : BitVec 5} (hm : h.Masked)
    (hc : h.Runs B (.csrImm .rc 0#5 zimm r.num :: ns)) (hr : r.readOnly = false)
    (hz : zimm ≠ 0#5)
    (hnext : ∀ i, Gets B P k (h.putCsr r (h.csrs.read i r &&& ~~~zimm.setWidth 32))) :
    Gets B P (k + 1) h := by
  refine Gets.instr hm hc fun i => ?_
  have hvalue : h.csrs.value i r.num = h.csrs.read i r := by rw [Csrs.value, Csr.ofNum_num]; rfl
  simp only [Instr.result, Instr.outcome, Instr.csrNum, CsrOp.writes, CsrOp.eval, Outcome.result,
    access, Csr.ofNum_num, hr, hz, hvalue, ne_eq, not_false_eq_true, decide_true, if_true,
    BitVec.ofNat_toNat, Bool.false_eq_true, if_false]
  exact hnext i

/-- `mret` -/
theorem Gets.mret (hm : h.Masked) (hc : h.Runs B (.mret :: ns))
    (hnext : Gets B P k { h with pc := h.csrs.mepc, csrs := h.csrs.mret }) :
    Gets B P (k + 1) h :=
  Gets.instr hm hc fun _ => hnext

/-! Jumps and branches. -/

/-- A jump of `2 * offset` bytes. -/
def offsetOf {w : ℕ} (offset : BitVec w) : BitVec 32 := BitVec.ofInt 32 (2 * offset.toInt)

/-- `jal` -/
theorem Gets.jal {offset : BitVec 20} (hm : h.Masked) (hc : h.Runs B (.jal rd offset :: ns))
    (ha : h.pc + offsetOf offset = a) (halign : a.toNat % 4 = 0)
    (hnext : Gets B P k (h.goto rd a)) : Gets B P (k + 1) h := by
  refine Gets.instr hm hc fun i => ?_
  have hadd : BitVec.ofInt 32 (h.pc.toInt + 2 * offset.toInt) = a := by
    rw [BitVec.ofInt_add, BitVec.ofInt_toInt]
    exact ha
  have hlink : BitVec.ofInt 32 (h.pc.toInt + 4) = h.pc + 4#32 := by
    rw [BitVec.ofInt_add, BitVec.ofInt_toInt]
    rfl
  simp only [Instr.result, Instr.outcome, Outcome.result, jump, hadd, hlink, halign, ne_eq,
    not_true_eq_false, if_false]
  exact hnext

/-- `jalr` to a multiple of four -/
theorem Gets.jalr (hm : h.Masked) (hc : h.Runs B (.jalr rd rs1 imm :: ns))
    (ha : h.reg rs1 + imm.signExtend 32 = a) (halign : a.toNat % 4 = 0)
    (hnext : Gets B P k (h.goto rd a)) : Gets B P (k + 1) h := by
  refine Gets.instr hm hc fun i => ?_
  have hsum : BitVec.ofInt 32 ((h.reg rs1).toInt + imm.toInt) = a := by
    rw [BitVec.ofInt_add, BitVec.ofInt_toInt]
    exact ha
  -- the sum is even, so that clearing its low bit does nothing
  have heven : 2 * (((h.reg rs1).toInt + imm.toInt) / 2) = (h.reg rs1).toInt + imm.toInt := by
    have hnat := congrArg BitVec.toNat hsum
    rw [BitVec.toNat_ofInt] at hnat
    omega
  have hlink : BitVec.ofInt 32 (h.pc.toInt + 4) = h.pc + 4#32 := by
    rw [BitVec.ofInt_add, BitVec.ofInt_toInt]
    rfl
  simp only [Instr.result, Instr.outcome, Instr.rs1, Outcome.result, jump, heven, hsum, hlink,
    halign, ne_eq, not_true_eq_false, if_false]
  exact hnext

/-- A conditional branch. -/
theorem Gets.branch {op : BranchOp} {offset : BitVec 12} (hm : h.Masked)
    (hc : h.Runs B (.branch op rs1 rs2 offset :: ns))
    (halign : (h.pc + offsetOf offset).toNat % 4 = 0)
    (htaken : op.taken (h.reg rs1) (h.reg rs2) = true →
      Gets B P k (h.goto 0#5 (h.pc + offsetOf offset)))
    (hnot : op.taken (h.reg rs1) (h.reg rs2) = false → Gets B P k (h.goto 0#5 (h.pc + 4#32))) :
    Gets B P (k + 1) h := by
  refine Gets.instr hm hc fun i => ?_
  have hadd : BitVec.ofInt 32 (h.pc.toInt + 2 * offset.toInt) = h.pc + offsetOf offset := by
    rw [BitVec.ofInt_add, BitVec.ofInt_toInt]
    rfl
  simp only [Instr.result, Instr.outcome, Instr.rs1, Instr.rs2, Outcome.result, hadd]
  cases ht : op.taken (h.reg rs1) (h.reg rs2) with
  | true =>
    simp only [jump, halign, ne_eq, not_true_eq_false, if_false, if_true]
    exact htaken ht
  | false =>
    simp only [Bool.false_eq_true, if_false]
    exact hnot ht

end Hart

end Riscv

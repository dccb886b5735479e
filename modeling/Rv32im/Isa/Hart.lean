import Rv32im.Isa.Semantics

/-!
# A hart with machine mode

The state of a hart that has machine mode only, and its steps: an instruction of `RV32IM` with
`Zicsr`, the trap in its place, or the machine timer interrupt in front of it. The memory is a
parameter, of which the hart sees the answers to its accesses.

* `Csr`, `Csrs`: the control and status registers;
* `Cause`: the traps;
* `Bus`: the memory behind the hart;
* `Instr.result`: what an instruction leads to;
* `Hart.Step`: the steps.
-/

namespace Riscv

/-! ### Control and status registers -/

/-- The registers of machine mode that are implemented. -/
inductive Csr
  | mstatus | misa | mie | mtvec | mscratch | mepc | mcause | mtval | mip
  | mcycle | mcycleh | minstret | minstreth
  | mvendorid | marchid | mimpid | mhartid | mconfigptr
deriving DecidableEq, Repr

namespace Csr

/-- The number of a register. -/
def num : Csr → BitVec 12
  | mstatus => 0x300#12 | misa => 0x301#12 | mie => 0x304#12 | mtvec => 0x305#12
  | mscratch => 0x340#12 | mepc => 0x341#12 | mcause => 0x342#12 | mtval => 0x343#12
  | mip => 0x344#12
  | mcycle => 0xb00#12 | mcycleh => 0xb80#12 | minstret => 0xb02#12 | minstreth => 0xb82#12
  | mvendorid => 0xf11#12 | marchid => 0xf12#12 | mimpid => 0xf13#12 | mhartid => 0xf14#12
  | mconfigptr => 0xf15#12

/-- All registers. -/
def all : List Csr :=
  [mstatus, misa, mie, mtvec, mscratch, mepc, mcause, mtval, mip, mcycle, mcycleh, minstret,
    minstreth, mvendorid, marchid, mimpid, mhartid, mconfigptr]

/-- The register with a number. -/
def ofNum (n : BitVec 12) : Option Csr := all.find? fun r => r.num = n

/-- The two top bits of its number tell that a register is read-only. -/
def readOnly (r : Csr) : Bool := r.num.extractLsb 11 10 = 0b11#2

/-- The list has every CSR. -/
theorem mem_all (r : Csr) : r ∈ all := by
  cases r <;> decide

@[simp] theorem ofNum_num (r : Csr) : ofNum r.num = some r := by
  cases r <;> decide

/-- The CSR found under a number has this number. -/
theorem num_of_ofNum {n : BitVec 12} {r : Csr} (h : ofNum n = some r) : r.num = n := by
  simpa using List.find?_some h

/-- A number under which none is found belongs to none. -/
theorem ofNum_eq_none {n : BitVec 12} : ofNum n = none ↔ ∀ r : Csr, r.num ≠ n := by
  simp [ofNum, List.find?_eq_none, mem_all]

end Csr

/-! ### Traps -/

/-- The synchronous exceptions. -/
inductive Exception
  | instMisaligned | instFault | illegal | breakpoint | loadMisaligned | loadFault
  | storeMisaligned | storeFault | ecall
deriving DecidableEq, Repr

/-- The exception codes. -/
def Exception.code : Exception → BitVec 5
  | instMisaligned => 0#5 | instFault => 1#5 | illegal => 2#5 | breakpoint => 3#5
  | loadMisaligned => 4#5 | loadFault => 5#5 | storeMisaligned => 6#5 | storeFault => 7#5
  | ecall => 11#5

/-- The cause of a trap. -/
inductive Cause
  | exception (e : Exception)
  /-- The machine timer interrupt. -/
  | timer
deriving DecidableEq, Repr

/-- The code of a trap, which is also that of an interrupt. -/
def Cause.code : Cause → BitVec 5
  | exception e => e.code
  | timer => 7#5

/-- Only the timer is an interrupt. -/
def Cause.isInterrupt : Cause → Bool
  | exception _ => false
  | timer => true

/-- The value of `mcause`: the top bit tells interrupts from exceptions. -/
def Cause.value (c : Cause) : BitVec 32 :=
  (if c.isInterrupt then 0x80000000#32 else 0#32) ||| c.code.setWidth 32

/-! ### State -/

/-- What the hart reads of its surroundings during a step. -/
structure Inputs where
  /-- The timer interrupt is pending in front of the instruction, and when it reads `mip`. -/
  pending : Bool := false
  mtip : Bool := false
  /-- The number of clock cycles. -/
  cycle : BitVec 64 := 0#64
deriving DecidableEq, Repr

/-- The state of the control and status registers. The other fields of `mstatus` and `mie` are
constant, and `mcycle` belongs to the surroundings. -/
@[ext]
structure Csrs where
  /-- `mstatus.MIE`, `mstatus.MPIE` and `mie.MTIE`. -/
  mie : Bool := false
  mpie : Bool := false
  mtie : Bool := false
  mtvec : BitVec 32
  mscratch : BitVec 32 := 0#32
  mepc : BitVec 32 := 0#32
  mcause : BitVec 32 := 0#32
  mtval : BitVec 32 := 0#32
  minstret : BitVec 64 := 0#64
deriving DecidableEq, Repr

namespace Csrs

variable (c : Csrs) (i : Inputs)

/-- A word with one bit. -/
def bit (k : ℕ) (b : Bool) : BitVec 32 := if b then 1#32 <<< k else 0#32

/-- The word with the two low bits cleared. -/
def base (v : BitVec 32) : BitVec 32 := v &&& ~~~3#32

/-- The value of a register: `mstatus.MPP` is machine mode, `misa` is RV32IM. -/
def read : Csr → BitVec 32
  | .mstatus => 0x1800#32 ||| bit 3 c.mie ||| bit 7 c.mpie
  | .misa => 0x40001100#32
  | .mie => bit 7 c.mtie
  | .mtvec => c.mtvec
  | .mscratch => c.mscratch
  | .mepc => c.mepc
  | .mcause => c.mcause
  | .mtval => c.mtval
  | .mip => bit 7 i.mtip
  | .mcycle => i.cycle.extractLsb 31 0
  | .mcycleh => i.cycle.extractLsb 63 32
  | .minstret => c.minstret.extractLsb 31 0
  | .minstreth => c.minstret.extractLsb 63 32
  | .mvendorid | .marchid | .mimpid | .mhartid | .mconfigptr => 0#32

/-- The value found at a number. -/
def value (n : BitVec 12) : BitVec 32 := (Csr.ofNum n).elim 0#32 (c.read i)

/-- The state after an instruction that writes no register. -/
def counted : Csrs := { c with minstret := c.minstret + 1#64 }

/-- The state after an instruction that writes `v` to a register: bits that are not implemented
are ignored, and a write of the instruction counter replaces its increment. -/
def written (v : BitVec 32) : Csr → Csrs
  | .mstatus => { c.counted with mie := v.getLsbD 3, mpie := v.getLsbD 7 }
  | .mie => { c.counted with mtie := v.getLsbD 7 }
  | .mtvec => { c.counted with mtvec := base v }
  | .mscratch => { c.counted with mscratch := v }
  | .mepc => { c.counted with mepc := base v }
  | .mcause => { c.counted with mcause := v &&& 0x8000001f#32 }
  | .mtval => { c.counted with mtval := v }
  | .minstret => { c with minstret := c.minstret.extractLsb 63 32 ++ v }
  | .minstreth => { c with minstret := v ++ c.minstret.extractLsb 31 0 }
  | _ => c.counted

/-- A trap saves the address it interrupts and disables interrupts. -/
def trap (cause : Cause) (pc tval : BitVec 32) : Csrs :=
  { c with mie := false, mpie := c.mie, mepc := base pc, mcause := cause.value, mtval := tval }

/-- `MRET` restores the enable bit. -/
def mret : Csrs := { c.counted with mie := c.mpie, mpie := true }

end Csrs

/-- The memory behind a hart, with state `μ`. It may refuse an access, which is an access fault. -/
structure Bus (μ : Type*) where
  fetch : μ → BitVec 32 → Option (BitVec 32)
  load : μ → BitVec 32 → (n : ℕ) → Option (BitVec (8 * n)) × μ
  /-- The `n` low bytes of a word are stored. -/
  store : μ → BitVec 32 → (n : ℕ) → BitVec 32 → Bool × μ

/-- The state of a hart and of the memory behind it. -/
structure Hart (μ : Type*) where
  pc : BitVec 32
  x : BitVec 5 → BitVec 32
  csrs : Csrs
  mem : μ

/-- What a step does visibly: the register and the bytes it writes, or the trap it takes. -/
structure Commit where
  pc : BitVec 32
  rd : Option (BitVec 5 × BitVec 32) := none
  bytes : List (ℕ × BitVec 8) := []
  trap : Option Cause := none
deriving DecidableEq, Repr

/-! ### Instructions -/

/-- What an instruction leads to. -/
inductive Result (μ : Type*)
  /-- A trap; an access that faults has been made. -/
  | trap (e : Exception) (tval : BitVec 32) (mem : μ)
  | retire (pc : BitVec 32) (rd : Option (BitVec 5 × BitVec 32)) (csrs : Csrs)
      (bytes : List (ℕ × BitVec 8)) (mem : μ)

namespace Instr

/-- The first source register. -/
def rs1 : Instr → BitVec 5
  | jalr _ r _ | branch _ r _ _ | load _ _ r _ | store _ r _ _ | opImm _ _ r _ | shiftImm _ _ r _
  | reg _ _ r _ | mulDiv _ _ r _ | csr _ _ r _ => r
  | _ => 0#5

/-- The second source register. -/
def rs2 : Instr → BitVec 5
  | branch _ _ r _ | store _ _ r _ | reg _ _ _ r | mulDiv _ _ _ r => r
  | _ => 0#5

/-- The number of the CSR. -/
def csrNum : Instr → BitVec 12
  | csr _ _ _ n | csrImm _ _ _ n => n
  | _ => 0#12

end Instr

namespace Hart

variable {μ : Type*} (B : Bus μ) (h : Hart μ) (i : Inputs)

/-- The value of a register; `x0` is zero. -/
def reg (r : BitVec 5) : BitVec 32 := if r = 0#5 then 0#32 else h.x r

/-- The instruction ends, and the next one follows. -/
def next (rd : Option (BitVec 5 × BitVec 32)) : Result μ :=
  .retire (h.pc + 4#32) rd h.csrs.counted [] h.mem

/-- The instruction ends with a jump, whose target has to be a multiple of four. -/
def jump (target : BitVec 32) (rd : Option (BitVec 5 × BitVec 32)) : Result μ :=
  if target.toNat % 4 ≠ 0 then .trap .instMisaligned target h.mem
  else .retire target rd h.csrs.counted [] h.mem

/-- A load of `n` bytes. -/
def load (rd : BitVec 5) (a : BitVec 32) (n : ℕ) (signed : Bool) : Result μ :=
  if a.toNat % n ≠ 0 then .trap .loadMisaligned a h.mem
  else match B.load h.mem a n with
    | (some v, m) =>
      .retire (h.pc + 4#32) (some (rd, if signed then v.signExtend 32 else v.setWidth 32))
        h.csrs.counted [] m
    | (none, m) => .trap .loadFault a m

/-- The bytes that a store writes. -/
def storedBytes (a : BitVec 32) (n : ℕ) (v : BitVec 32) : List (ℕ × BitVec 8) :=
  (List.range n).map fun k => (a.toNat + k, v.extractLsb' (8 * k) 8)

/-- A store of `n` bytes. -/
def store (a : BitVec 32) (n : ℕ) (v : BitVec 32) : Result μ :=
  if a.toNat % n ≠ 0 then .trap .storeMisaligned a h.mem
  else match B.store h.mem a n v with
    | (true, m) => .retire (h.pc + 4#32) none h.csrs.counted (storedBytes a n v) m
    | (false, m) => .trap .storeFault a m

/-- A CSR access: the register must exist, and not be read-only if it is written. -/
def access (insn : BitVec 32) (rd : BitVec 5) (old : BitVec 32) (n : BitVec 12)
    (new : Option (BitVec 32)) : Result μ :=
  match Csr.ofNum n, new with
  | none, _ => .trap .illegal insn h.mem
  | some _, none => h.next (some (rd, old))
  | some r, some v =>
    if r.readOnly then .trap .illegal insn h.mem
    else .retire (h.pc + 4#32) (some (rd, old)) (h.csrs.written v r) [] h.mem

end Hart

/-- What an outcome leads to. -/
def Outcome.result {μ : Type*} (B : Bus μ) (h : Hart μ) (insn : BitVec 32) : Outcome → Result μ
  | .value rd v => h.next (some (rd, v))
  | .branch taken target => if taken then h.jump target none else h.next none
  | .jump rd link target => h.jump target (some (rd, link))
  | .load rd a n signed => h.load B rd a n signed
  | .store a n v => h.store B a n v
  | .csr rd old n new => h.access insn rd old n new

/-- What an instruction leads to. `FENCE` and `WFI` do nothing. -/
def Instr.result {μ : Type*} (B : Bus μ) (h : Hart μ) (i : Inputs) (n : Instr) : Result μ :=
  match n with
  | .ecall => .trap .ecall 0#32 h.mem
  | .ebreak => .trap .breakpoint h.pc h.mem
  | .mret => .retire h.csrs.mepc none h.csrs.mret [] h.mem
  | .mulDiv op rd rs1 rs2 => h.next (some (rd, op.eval (h.reg rs1) (h.reg rs2)))
  | n =>
    match n.outcome h.pc (h.reg n.rs1) (h.reg n.rs2) (h.csrs.value i n.csrNum) with
    | some o => o.result B h n.encode
    | none => h.next none

namespace Hart

variable {μ : Type*} (B : Bus μ) (h : Hart μ) (i : Inputs)

/-- The state after a trap. -/
def take (c : Cause) (tval : BitVec 32) (m : μ) : Hart μ where
  pc := h.csrs.mtvec
  x := h.x
  csrs := h.csrs.trap c h.pc tval
  mem := m

/-- A register write that counts: `x0` is not written. -/
def writes (rd : Option (BitVec 5 × BitVec 32)) : Option (BitVec 5 × BitVec 32) :=
  rd.filter fun p => p.1 ≠ 0#5

/-- The registers after a write. -/
def writeReg (rd : Option (BitVec 5 × BitVec 32)) : BitVec 5 → BitVec 32 := fun r =>
  match writes rd with
  | some (a, v) => if r = a then v else h.x r
  | none => h.x r

/-- The state after an instruction. -/
def after : Result μ → Hart μ
  | .trap e tval m => h.take (.exception e) tval m
  | .retire pc rd csrs _ m => { pc, x := h.writeReg rd, csrs, mem := m }

/-- What the instruction does visibly. -/
def commit : Result μ → Commit
  | .trap e _ _ => { pc := h.pc, trap := some (.exception e) }
  | .retire _ rd _ bytes _ => { pc := h.pc, rd := writes rd, bytes }

/-- The steps of a hart. -/
inductive Step : Commit → Hart μ → Prop
  /-- The fetch is refused. -/
  | fault (fetch : B.fetch h.mem h.pc = none) :
      Step (h.commit (.trap .instFault h.pc h.mem)) (h.after (.trap .instFault h.pc h.mem))
  /-- The word encodes no instruction. -/
  | illegal (w : BitVec 32) (fetch : B.fetch h.mem h.pc = some w)
      (illegal : ∀ n : Instr, n.encode ≠ w) :
      Step (h.commit (.trap .illegal w h.mem)) (h.after (.trap .illegal w h.mem))
  | instr (n : Instr) (fetch : B.fetch h.mem h.pc = some n.encode) :
      Step (h.commit (n.result B h i)) (h.after (n.result B h i))
  /-- The timer interrupt, where it is enabled. -/
  | interrupt (enabled : (h.csrs.mie && h.csrs.mtie) = true) (pending : i.pending = true) :
      Step { pc := h.pc, trap := some .timer } (h.take .timer 0#32 h.mem)

end Hart

end Riscv

import Rv32im.Isa.Frame

/-!
# `sw/runtime/trap.S`

The entry of all traps saves the integer registers in a frame below the stack pointer, hands the
cause, the address and the value of the trap to a handler, restores the registers and returns. A
program does not notice a trap whose handler does nothing else.

* `TrapEntry.code`: the code, at its address;
* `TrapEntry.Installed`: the code and the frame in memory;
* `TrapEntry.Called`, `TrapEntry.Returned`, `TrapEntry.Resumed`: the states between the parts;
* `TrapEntry.transparent`: a trap from its beginning to its end.
-/

namespace Rv32im.TrapEntry

open Clocked Memory Riscv Riscv.Asm

/-! ### The code -/

/-- The registers in the frame. -/
def save : List Instr :=
  [addi sp sp (-128),
    sw ra 0 sp, sw gp 4 sp, sw tp 8 sp, sw t0 12 sp, sw t1 16 sp, sw t2 20 sp, sw s0 24 sp,
    sw s1 28 sp, sw a0 32 sp, sw a1 36 sp, sw a2 40 sp, sw a3 44 sp, sw a4 48 sp, sw a5 52 sp,
    sw a6 56 sp, sw a7 60 sp, sw s2 64 sp, sw s3 68 sp, sw s4 72 sp, sw s5 76 sp, sw s6 80 sp,
    sw s7 84 sp, sw s8 88 sp, sw s9 92 sp, sw s10 96 sp, sw s11 100 sp, sw t3 104 sp,
    sw t4 108 sp, sw t5 112 sp, sw t6 116 sp]

/-- The arguments of the handler, and its call. -/
def pass (entry handler : BitVec 32) : List Instr :=
  [csrr a0 .mcause, csrr a1 .mepc, csrr a2 .mtval] ++ call (entry + 136#32) handler

/-- The registers from the frame, and the return. -/
def restore : List Instr :=
  [lw ra 0 sp, lw gp 4 sp, lw tp 8 sp, lw t0 12 sp, lw t1 16 sp, lw t2 20 sp, lw s0 24 sp,
    lw s1 28 sp, lw a0 32 sp, lw a1 36 sp, lw a2 40 sp, lw a3 44 sp, lw a4 48 sp, lw a5 52 sp,
    lw a6 56 sp, lw a7 60 sp, lw s2 64 sp, lw s3 68 sp, lw s4 72 sp, lw s5 76 sp, lw s6 80 sp,
    lw s7 84 sp, lw s8 88 sp, lw s9 92 sp, lw s10 96 sp, lw s11 100 sp, lw t3 104 sp,
    lw t4 108 sp, lw t5 112 sp, lw t6 116 sp,
    addi sp sp 128, .mret]

/-- `trap_entry`, at an address. -/
def code (entry handler : BitVec 32) : List Instr := save ++ pass entry handler ++ restore

/-- The registers that are saved: all but `x0` and `sp`. -/
def registers : List (BitVec 5) :=
  [ra, gp, tp, t0, t1, t2, s0, s1, a0, a1, a2, a3, a4, a5, a6, a7, s2, s3, s4, s5, s6, s7, s8, s9,
    s10, s11, t3, t4, t5, t6]

theorem length_registers : registers.length = 30 := rfl

/-- The prologue opens the frame and saves the registers. -/
theorem save_eq : save = addi sp sp (-128) :: saves sp 0 registers := rfl

theorem restore_eq : restore = restores sp 0 registers ++ [addi sp sp 128, .mret] := rfl

/-- The frame has the registers apart from `x0` and `sp`. -/
theorem mem_registers {r : BitVec 5} (h0 : r ≠ zero) (hsp : r ≠ sp) : r ∈ registers := by
  revert r
  decide

/-! ### A trap -/

variable {μ : Type*} {B : Bus μ}

/-- A state in which a trap has been taken to `entry`, whose code is in the memory, as is the frame
below the stack pointer, apart from the code. -/
structure Installed (R : B.Ram) (entry handler : BitVec 32) (h : Hart μ) : Prop where
  pc : h.pc = entry
  masked : h.Masked
  code : B.Code h.mem entry (code entry handler)
  handler : handler.toNat % 4 = 0
  inRam : R.Holds entry.toNat 272
  aligned : (h.reg sp).toNat % 4 = 0
  frame : 128 ≤ (h.reg sp).toNat ∧ R.Holds ((h.reg sp).toNat - 128) 128
  apart : entry.toNat + 272 ≤ (h.reg sp).toNat - 128 ∨ (h.reg sp).toNat ≤ entry.toNat

/-- The bytes that a handler has to leave alone: the frame and the code of the entry. -/
def Own (entry : BitVec 32) (h : Hart μ) (x : ℕ) : Prop :=
  (h.reg sp).toNat - 128 ≤ x ∧ x < (h.reg sp).toNat ∨ entry.toNat ≤ x ∧ x < entry.toNat + 272

/-- The handler is called for the trap taken in `h`. -/
structure Called (R : B.Ram) (entry handler : BitVec 32) (h g : Hart μ) : Prop where
  pc : g.pc = handler
  link : g.reg ra = entry + 144#32
  stack : g.reg sp = h.reg sp - 128#32
  cause : g.reg a0 = h.csrs.mcause
  epc : g.reg a1 = h.csrs.mepc
  tval : g.reg a2 = h.csrs.mtval
  others : ∀ r, r ∉ [ra, sp, a0, a1, a2] → g.reg r = h.reg r
  csrs : g.csrs = h.csrs.countedBy 36
  mem : g.mem = R.set h.mem (saved h.reg ((h.reg sp).toNat - 128) (R.bytes h.mem) 0 registers)

/-- The handler has returned from the call in `g`: it has kept the stack pointer and what belongs to
the entry, and has not enabled interrupts. -/
structure Returned (R : B.Ram) (entry : BitVec 32) (h g g' : Hart μ) : Prop where
  pc : g'.pc = g.reg ra
  stack : g'.reg sp = g.reg sp
  masked : g'.Masked
  own : ∀ x, Own entry h x → R.bytes g'.mem x = R.bytes g.mem x

/-- The program goes on where the handler in its last state `g` says, with the registers of `h`. -/
structure Resumed (h g f : Hart μ) : Prop where
  pc : f.pc = g.csrs.mepc
  reg : ∀ r, f.reg r = h.reg r
  csrs : f.csrs = (g.csrs.countedBy 31).mret
  mem : f.mem = g.mem

variable {R : B.Ram} {entry handler : BitVec 32} {h g g' : Hart μ}

namespace Installed

/-- The stack pointer in the handler. -/
theorem toNat_frame (hin : Installed R entry handler h) :
    (h.reg sp - 128#32).toNat = (h.reg sp).toNat - 128 := by
  have hle := hin.frame.1
  have hlt := (h.reg sp).isLt
  rw [BitVec.toNat_sub, BitVec.toNat_ofNat]
  omega

/-- The stack pointer is moved and the registers are saved. -/
theorem gets_saved (hin : Installed R entry handler h) {P : Hart μ → Prop} {k : ℕ}
    (hnext : ∀ g : Hart μ, g.pc = entry + 124#32 →
      (∀ r, g.reg r = if r = sp then h.reg sp - 128#32 else h.reg r) →
      g.csrs = h.csrs.countedBy 31 →
      g.mem = R.set h.mem (saved h.reg ((h.reg sp).toNat - 128) (R.bytes h.mem) 0 registers) →
      g.Runs B (csrr a0 .mcause :: (csrr a1 .mepc :: csrr a2 .mtval ::
        (call (entry + 136#32) handler ++ restore))) → Hart.Gets B P k g) :
    Hart.Gets B P (k + 31) h := by
  have hs := hin.toNat_frame
  obtain ⟨h128, hlo, hhi⟩ := hin.frame
  obtain ⟨hclo, hchi⟩ := hin.inRam
  have hle := R.hi_le
  have hpc := hin.pc
  have halign := hin.aligned
  have hapart := hin.apart
  have hnat : (entry + 4#32).toNat = entry.toNat + 4 := by
    rw [BitVec.toNat_add, BitVec.toNat_ofNat]
    omega
  have hlen : registers.length + (csrr a0 .mcause :: (csrr a1 .mepc :: csrr a2 .mtval ::
      (call (entry + 136#32) handler ++ restore))).length = 67 := rfl
  have hrun : h.Runs B (addi sp sp (-128) :: (saves sp 0 registers ++ csrr a0 .mcause ::
      (csrr a1 .mepc :: csrr a2 .mtval :: (call (entry + 136#32) handler ++ restore)))) := by
    have hcode := hin.code
    rw [TrapEntry.code, save_eq, List.append_assoc] at hcode
    rw [Hart.Runs, hpc]
    exact hcode
  have himm : h.reg sp + (BitVec.ofInt 12 (-128)).signExtend 32 = h.reg sp - 128#32 := by
    rw [BitVec.sub_eq_add_neg]
    rfl
  -- one step for the stack pointer, and one for each register
  show Hart.Gets B P (k + registers.length + 1) h
  refine Hart.Gets.addi hin.masked hrun ?_
  rw [himm]
  have hm₁ : (h.put sp (h.reg sp - 128#32)).Masked := hin.masked.counted rfl
  refine Hart.Gets.saves R hm₁ (hrun.next rfl rfl) (s := h.reg sp - 128#32) ?_ ?_ (by decide) ?_ ?_
    ?_ fun g hgpc hgx hgcsrs hgmem hgrun => hnext g ?_ (fun r => ?_) ?_ ?_ hgrun
  · rw [Hart.put_reg, if_pos (by decide)]
  · rw [hs]
    omega
  · rw [hs, length_registers]
    exact ⟨by omega, by omega⟩
  · rw [Hart.put_pc, hpc, hnat, hlen]
    exact ⟨by omega, by omega⟩
  · rw [Hart.put_pc, hpc, hnat, hs, hlen, length_registers]
    omega
  · rw [hgpc, Hart.put_pc, hpc, length_registers, BitVec.add_assoc]
    rfl
  · rw [Hart.reg_congr hgx, Hart.put_reg_of_ne (by decide)]
  · rw [hgcsrs, Hart.put_csrs, Csrs.counted_eq, Csrs.countedBy_countedBy]
    rfl
  · rw [hgmem, Hart.put_mem, hs]
    -- the stack pointer is not in the frame
    refine congrArg (R.set h.mem) (saved_congr fun r hr => ?_)
    have hne : r ≠ sp := fun he => absurd (he ▸ hr) (by decide)
    rw [Hart.put_reg, if_neg fun he => hne he.1]

end Installed

/-- The arguments are passed and the handler is called. -/
theorem gets_passed {ns : List Instr} {P : Hart μ → Prop} {k : ℕ} (hm : h.Masked)
    (hhandler : handler.toNat % 4 = 0)
    (hc : h.Runs B (csrr a0 .mcause :: (csrr a1 .mepc :: csrr a2 .mtval ::
      (call (h.pc + 12#32) handler ++ ns))))
    (hnext : ∀ g : Hart μ, g.pc = handler →
      (∀ r, g.reg r = if r = ra then h.pc + 20#32 else if r = a2 then h.csrs.mtval else
        if r = a1 then h.csrs.mepc else if r = a0 then h.csrs.mcause else h.reg r) →
      g.csrs = h.csrs.countedBy 5 → g.mem = h.mem → Hart.Gets B P k g) :
    Hart.Gets B P (k + 5) h := by
  show Hart.Gets B P (k + 2 + 1 + 1 + 1) h
  refine Hart.Gets.csrr (v := h.csrs.mcause) hm hc (fun _ => rfl) ?_
  have hm₁ : (h.put a0 h.csrs.mcause).Masked := hm.counted rfl
  have hrun₁ : (h.put a0 h.csrs.mcause).Runs B (csrr a1 .mepc :: csrr a2 .mtval ::
      (call (h.pc + 12#32) handler ++ ns)) := hc.next rfl rfl
  refine Hart.Gets.csrr (v := h.csrs.mepc) hm₁ hrun₁ (fun _ => rfl) ?_
  have hm₂ : ((h.put a0 h.csrs.mcause).put a1 h.csrs.mepc).Masked := hm₁.counted rfl
  have hrun₂ : ((h.put a0 h.csrs.mcause).put a1 h.csrs.mepc).Runs B (csrr a2 .mtval ::
      (call (h.pc + 12#32) handler ++ ns)) := hrun₁.next rfl rfl
  refine Hart.Gets.csrr (v := h.csrs.mtval) hm₂ hrun₂ (fun _ => rfl) ?_
  generalize hg₃ : Hart.put _ a2 _ = g₃
  have hpc₃ : g₃.pc = h.pc + 12#32 := by
    rw [← hg₃, Hart.put_pc, Hart.put_pc, Hart.put_pc]
    simp only [BitVec.add_assoc]
    rfl
  have hm₃ : g₃.Masked := hm₂.counted (by rw [← hg₃]; rfl)
  have hrun₃ : g₃.Runs B (call g₃.pc handler ++ ns) := by
    rw [hpc₃, ← hg₃]
    exact hrun₂.next rfl rfl
  refine Hart.Gets.call hm₃ hrun₃ hhandler fun g hgpc hgreg hgcsrs hgmem =>
    hnext g hgpc (fun r => ?_) ?_ ?_
  · rw [hgreg, hpc₃, BitVec.add_assoc, ← hg₃, Hart.put_reg_of_ne (by decide),
      Hart.put_reg_of_ne (by decide), Hart.put_reg_of_ne (by decide)]
    rfl
  · rw [hgcsrs, ← hg₃, Hart.put_csrs, Hart.put_csrs, Hart.put_csrs]
    simp only [Csrs.counted_eq, Csrs.countedBy_countedBy]
  · rw [hgmem, ← hg₃]
    rfl

namespace Installed

/-- From the trap to the handler. -/
theorem gets_called (hin : Installed R entry handler h) :
    Hart.Gets B (Called R entry handler h) 36 h := by
  show Hart.Gets B _ (0 + 5 + 31) h
  refine hin.gets_saved fun h₁ hpc₁ hreg₁ hcsrs₁ hmem₁ hrun₁ => ?_
  rw [show entry + 136#32 = h₁.pc + 12#32 by rw [hpc₁, BitVec.add_assoc]; rfl] at hrun₁
  refine gets_passed (hin.masked.countedBy hcsrs₁) hin.handler hrun₁
    fun g hgpc hgreg hgcsrs hgmem => Within.here ?_
  exact {
    pc := hgpc
    link := by
      rw [hgreg, if_pos rfl, hpc₁, BitVec.add_assoc]
      rfl
    stack := by
      rw [hgreg, hreg₁]
      rfl
    cause := by
      rw [hgreg, hcsrs₁]
      rfl
    epc := by
      rw [hgreg, hcsrs₁]
      rfl
    tval := by
      rw [hgreg, hcsrs₁]
      rfl
    others := fun r hr => by
      simp only [List.mem_cons, List.not_mem_nil, or_false, not_or] at hr
      rw [hgreg, if_neg hr.1, if_neg hr.2.2.2.2, if_neg hr.2.2.2.1, if_neg hr.2.2.1, hreg₁,
        if_neg hr.2.1]
    csrs := by rw [hgcsrs, hcsrs₁, Csrs.countedBy_countedBy]
    mem := by rw [hgmem, hmem₁] }

/-- The bytes when the handler has returned: the code, and the frame. -/
theorem bytes_code (hin : Installed R entry handler h) (hg : Called R entry handler h g)
    (hr : Returned R entry h g g') {x : ℕ} (hx : entry.toNat ≤ x) (hx' : x < entry.toNat + 272) :
    R.bytes g'.mem x = R.bytes h.mem x := by
  have hapart := hin.apart
  have h128 := hin.frame.1
  rw [hr.own x (.inr ⟨hx, hx'⟩), hg.mem, R.bytes_set]
  refine saved_of_not_mem ?_
  rw [length_registers]
  omega

/-- The handler has left what was saved. -/
theorem load_frame (hin : Installed R entry handler h) (hg : Called R entry handler h g)
    (hr : Returned R entry h g g') {i : ℕ} {r : BitVec 5} (hi : registers[i]? = some r) :
    (R.bytes g'.mem).load ((h.reg sp).toNat - 128 + 4 * (0 + i)) 4 = h.reg r := by
  have hlt : i < 30 := (List.getElem?_eq_some_iff.mp hi).1
  have h128 := hin.frame.1
  calc (R.bytes g'.mem).load ((h.reg sp).toNat - 128 + 4 * (0 + i)) 4
      = (R.bytes g.mem).load ((h.reg sp).toNat - 128 + 4 * (0 + i)) 4 :=
        Bytes.load_congr fun k hk => hr.own _ (.inl ⟨by omega, by omega⟩)
    _ = h.reg r := by
        rw [hg.mem, R.bytes_set]
        exact load_saved hi

/-- From the handler back to the program. -/
theorem gets_resumed (hin : Installed R entry handler h) (hg : Called R entry handler h g)
    (hr : Returned R entry h g g') : Hart.Gets B (Resumed h g') 32 g' := by
  have hs := hin.toNat_frame
  obtain ⟨h128, hlo, hhi⟩ := hin.frame
  have halign := hin.aligned
  have hsp : g'.reg sp = h.reg sp - 128#32 := hr.stack.trans hg.stack
  -- the handler has kept the code
  have hcode : B.Code g'.mem entry (TrapEntry.code entry handler) :=
    Bus.Ram.code_congr hin.code hin.inRam fun x hx hx' => hin.bytes_code hg hr hx hx'
  have hrun : g'.Runs B (restores sp 0 registers ++ [addi sp sp 128, .mret]) := by
    rw [← restore_eq, Hart.Runs, hr.pc, hg.link]
    exact (Bus.code_append.mp hcode).2
  show Hart.Gets B _ (2 + registers.length) _
  refine Hart.Gets.restores R (v := h.reg) hr.masked hrun hsp ?_ (by decide) ?_ (by decide)
    (fun i r hi => ?_) fun f₁ hpc₁ hreg₁ hcsrs₁ hmem₁ hrun₁ => ?_
  · rw [hs]
    omega
  · rw [hs, length_registers]
    exact ⟨by omega, by omega⟩
  · rw [hs]
    exact hin.load_frame hg hr hi
  · -- the frame is closed, and `mret` goes to the program
    have hm₁ : f₁.Masked := hr.masked.countedBy hcsrs₁
    have hsp₁ : f₁.reg sp = h.reg sp - 128#32 := by
      rw [hreg₁, if_neg fun hc => absurd hc.1 (by decide), hsp]
    refine Hart.Gets.addi hm₁ hrun₁ ?_
    have himm : f₁.reg sp + (BitVec.ofInt 12 128).signExtend 32 = h.reg sp := by
      rw [hsp₁]
      exact BitVec.sub_add_cancel ..
    rw [himm]
    refine Hart.Gets.mret (k := 0) (hm₁.counted rfl) (hrun₁.next rfl rfl) (Within.here ?_)
    exact {
      pc := by rw [Hart.put_csrs, hcsrs₁]; rfl
      reg := fun r => by
        show (f₁.put sp (h.reg sp)).reg r = h.reg r
        rw [Hart.put_reg_of_ne (by decide), hreg₁]
        by_cases hr : r = sp
        · rw [if_pos hr, hr]
        · by_cases hz : r = zero
          · subst hz
            rfl
          · rw [if_neg hr, if_pos ⟨mem_registers hz hr, hz⟩]
      csrs := by
        rw [Hart.put_csrs, hcsrs₁, Csrs.counted_eq, Csrs.countedBy_countedBy]
        rfl
      mem := hmem₁ }

end Installed

/-- A trap, from its beginning to its end. The handler is called within 36 steps, with the cause,
the address and the value of the trap. If it returns within `N` steps with `Q`, then the program is
resumed within `68 + N` steps at the address that the handler has left in `mepc`, with all its
registers. -/
theorem transparent (hin : Installed R entry handler h) :
    Hart.Gets B (Called R entry handler h) 36 h ∧ ∀ (Q : Hart μ → Prop) (N : ℕ),
      (∀ g, Called R entry handler h g →
        Hart.Gets B (fun g' => Returned R entry h g g' ∧ Q g') N g) →
      Hart.Gets B (fun f => ∃ g, Q g ∧ Resumed h g f) (68 + N) h := by
  refine ⟨hin.gets_called, fun Q N hhandler => ?_⟩
  have hsteps : 68 + N = 36 + (N + 32) := by omega
  rw [hsteps]
  refine hin.gets_called.trans fun g hg => (hhandler g hg).trans fun g' hg' => ?_
  exact (hin.gets_resumed hg hg'.1).mono fun f hf => ⟨g', hg'.2, hf⟩

/-! A timer interrupt whose handler returns at once. -/

/-- `trap_entry` at `0x100`, and a handler at `0x400` that returns. -/
def image : Bytes := fun x =>
  let words := (code 0x100#32 0x400#32).map Instr.encode
  let w := if x / 4 = 0x100 then (Instr.jalr zero ra 0#12).encode
    else words.getD (x / 4 - 0x40) 0#32
  w.extractLsb' (8 * (x % 4)) 8

/-- A hart that runs at `0x2000` with a stack below `0x1000`, and that has taken the interrupt. -/
def interrupted : Hart Bytes :=
  let h : Hart Bytes :=
    { pc := 0x2000#32, x := fun r => if r = sp then 0x1000#32 else r.setWidth 32
      csrs := { mie := true, mtie := true, mtvec := 0x100#32 }, mem := image }
  h.take .timer 0#32 image

/-- The program goes on where it was interrupted. -/
theorem transparent_interrupted :
    Hart.Gets Bus.flat (Called Bus.flatRam 0x100#32 0x400#32 interrupted) 36 interrupted ∧
      Hart.Gets Bus.flat (fun f => ∃ g, g.csrs.mepc = 0x2000#32 ∧ Resumed interrupted g f) 69
        interrupted := by
  have hsp : (interrupted.reg sp).toNat = 0x1000 := rfl
  have hin : Installed Bus.flatRam 0x100#32 0x400#32 interrupted :=
    { pc := rfl, masked := rfl, code := by decide +kernel, handler := rfl, aligned := rfl
      inRam := ⟨by decide, by decide⟩
      frame := by
        rw [hsp]
        exact ⟨by decide, by decide, by decide⟩
      apart := by
        rw [hsp]
        exact .inl (by decide) }
  obtain ⟨hcalled, hreturns⟩ := transparent hin
  refine ⟨hcalled, hreturns _ 1 fun g hg => ?_⟩
  have hmem : g.mem = saved interrupted.reg (0x1000 - 128) image 0 registers := by
    rw [hg.mem, hsp]
    rfl
  have hrun : g.Runs Bus.flat [.jalr zero ra 0#12] := by
    refine ⟨?_, trivial⟩
    rw [hg.pc, hmem]
    have hret : image.load 0x400 4 = (Instr.jalr zero ra 0#12).encode := by decide +kernel
    refine congrArg some (.trans (Bytes.load_congr fun k hk => saved_of_not_mem ?_) hret)
    rw [BitVec.toNat_ofNat]
    exact .inl (by omega)
  have hm : g.Masked := by rw [Hart.Masked, hg.csrs]; rfl
  refine Hart.Gets.jalr (k := 0) (a := 0x190#32) hm hrun (by rw [hg.link]; rfl) rfl (Within.here ?_)
  refine ⟨⟨?_, ?_, hm.counted rfl, fun x _ => rfl⟩, ?_⟩
  · rw [hg.link]
    rfl
  · rw [Hart.goto_reg, if_neg (by simp)]
  · rw [Hart.goto_csrs, hg.csrs]
    rfl

end Rv32im.TrapEntry

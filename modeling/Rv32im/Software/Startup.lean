import Rv32im.Isa.Frame

/-!
# The startup code of `sw/runtime/crt0.S` and `sw/freertos/startup.S`

After reset the startup code sets up the global pointer and the stack, clears the `bss` section,
installs the trap vector and calls `main`. The two differ in the CSRs that the second one clears
first, and in where they go when `main` returns.

* `Startup.clearBss`, `Startup.gets_cleared`: the loop over the section;
* `Startup.body`, `Startup.gets_body`: the part that both have;
* `Crt0.code`, `Crt0.gets_main`, `Crt0.starts`: the bare-metal startup code;
* `FreertosStartup.code`, `FreertosStartup.gets_main`, `FreertosStartup.fails`: that of FreeRTOS.
-/

namespace Rv32im

open Clocked Memory Riscv Riscv.Asm

/-! ### The loop over the section -/

namespace Startup

/-- `.Lclear_bss`, up to `.Lbss_done`. -/
def clearBss : List Instr :=
  [.branch .bgeu t0 t1 8#12, sw zero 0 t0, addi t0 t0 4, .jal zero (.ofInt 20 (-6))]

/-- The number of words that the loop clears. -/
def words (start stop : ℕ) : ℕ := (stop - start + 3) / 4

/-- The memory with zeros in a range. -/
def zeroed (a n : ℕ) (b : Bytes) : Bytes := fun x => if a ≤ x ∧ x < a + n then 0#8 else b x

theorem zeroed_zero (a : ℕ) (b : Bytes) : zeroed a 0 b = b := by
  funext x
  rw [zeroed, if_neg (by omega)]

/-- One more word. -/
theorem zeroed_store (a n : ℕ) (b : Bytes) :
    zeroed (a + 4) (4 * n) (b.store a 4 0#32) = zeroed a (4 * (n + 1)) b := by
  funext x
  by_cases h : a + 4 ≤ x ∧ x < a + 4 + 4 * n
  · rw [zeroed, if_pos h, zeroed, if_pos (by omega)]
  · rw [zeroed, if_neg h]
    by_cases hx : a ≤ x ∧ x < a + 4
    · rw [zeroed, if_pos (by omega), Bytes.store, if_pos hx]
      simp
    · rw [zeroed, if_neg (by omega), Bytes.store_of_not_mem _ _ _ (by omega)]

variable {μ : Type*} {B : Bus μ} {R : B.Ram} {h : Hart μ} {P : Hart μ → Prop} {k n : ℕ}
  {is : List Instr}

/-- The branch out of the loop goes to an instruction. -/
theorem offsetOf_bssDone : Hart.offsetOf 8#12 = 16#32 := by decide

theorem aligned_bssDone {pc : BitVec 32} (hpc : pc.toNat % 4 = 0) :
    (pc + Hart.offsetOf 8#12).toNat % 4 = 0 := by
  rw [offsetOf_bssDone, BitVec.toNat_add, BitVec.toNat_ofNat]
  omega

/-- One round of the loop clears the word at `t0`. -/
theorem gets_round (hm : h.Masked) (hc : h.Runs B (clearBss ++ is)) (hpc : h.pc.toNat % 4 = 0)
    (hlt : (h.reg t0).toNat < (h.reg t1).toNat) (halign : (h.reg t0).toNat % 4 = 0)
    (hin : R.Holds (h.reg t0).toNat 4) (hcode : R.Holds h.pc.toNat (4 * (clearBss ++ is).length))
    (hapart : h.pc.toNat + 4 * (clearBss ++ is).length ≤ (h.reg t0).toNat ∨
      (h.reg t0).toNat + 4 ≤ h.pc.toNat)
    (hnext : ∀ g : Hart μ, g.pc = h.pc →
      (∀ r, g.reg r = if r = t0 then h.reg t0 + 4#32 else h.reg r) →
      g.csrs = h.csrs.countedBy 4 →
      g.mem = R.set h.mem ((R.bytes h.mem).store (h.reg t0).toNat 4 0#32) →
      g.Runs B (clearBss ++ is) → Hart.Gets B P k g) : Hart.Gets B P (k + 4) h := by
  have hcode' : B.Code (R.set h.mem ((R.bytes h.mem).store (h.reg t0).toNat 4 0#32)) h.pc
      (clearBss ++ is) := by
    -- the word is apart from the code
    refine Bus.Ram.code_congr (R := R) hc hcode fun x hx hx' => ?_
    rw [R.bytes_set, Bytes.store_of_not_mem _ _ _ (by omega)]
  -- the branch is not taken
  refine Hart.Gets.branch hm hc (aligned_bssDone hpc) (fun ht => ?_) fun _ => ?_
  · have hge : (h.reg t1).toNat ≤ (h.reg t0).toNat := of_decide_eq_true ht
    omega
  have hm₁ : (h.goto zero (h.pc + 4#32)).Masked := hm.counted rfl
  refine Hart.Gets.sw R (a := h.reg t0) hm₁ hc.2 ?_ halign hin ?_
  · rw [Hart.goto_reg, if_neg (by simp)]
    exact BitVec.add_zero _
  generalize hh₂ : Hart.putMem _ _ = h₂
  have hreg₂ (r : BitVec 5) : h₂.reg r = h.reg r := by
    rw [← hh₂, Hart.putMem_reg, Hart.goto_reg, if_neg (by simp)]
  have hpc₂ : h₂.pc = h.pc + 4#32 + 4#32 := by
    rw [← hh₂]
    rfl
  have hcsrs₂ : h₂.csrs = h.csrs.countedBy 2 := by
    rw [← hh₂, Hart.putMem_csrs, Hart.goto_csrs, Csrs.counted_eq, Csrs.counted_eq,
      Csrs.countedBy_countedBy]
  have hmem₂ : h₂.mem = R.set h.mem ((R.bytes h.mem).store (h.reg t0).toNat 4 0#32) := by
    rw [← hh₂]
    rfl
  have hrun₂ : h₂.Runs B (addi t0 t0 4 :: .jal zero (.ofInt 20 (-6)) :: is) := by
    rw [Hart.Runs, hpc₂, hmem₂]
    exact hcode'.2.2
  -- back to the head of the loop
  refine Hart.Gets.addi (hm.countedBy hcsrs₂) hrun₂ ?_
  have himm : h₂.reg t0 + (BitVec.ofInt 12 4).signExtend 32 = h.reg t0 + 4#32 := by
    rw [hreg₂]
    rfl
  rw [himm]
  have hm₃ : (h₂.put t0 (h.reg t0 + 4#32)).Masked := (hm.countedBy hcsrs₂).counted rfl
  refine Hart.Gets.jal (a := h.pc) hm₃ (hrun₂.next rfl rfl) ?_ hpc ?_
  · rw [Hart.put_pc, hpc₂]
    simp only [BitVec.add_assoc]
    exact BitVec.add_zero _
  refine hnext _ rfl (fun r => ?_) ?_ hmem₂ ?_
  · rw [Hart.goto_reg, if_neg (by simp), Hart.put_reg_of_ne (by decide), hreg₂]
  · rw [Hart.goto_csrs, Hart.put_csrs, hcsrs₂, Csrs.counted_eq, Csrs.counted_eq,
      Csrs.countedBy_countedBy, Csrs.countedBy_countedBy]
  · rw [Hart.Runs, Hart.goto_pc, Hart.goto_mem, Hart.put_mem, hmem₂]
    exact hcode'

/-- The loop clears the words from `t0` up to `t1`, the last of them whole. -/
theorem gets_cleared (hm : h.Masked) (hc : h.Runs B (clearBss ++ is))
    (hpc : h.pc.toNat % 4 = 0) (hn : words (h.reg t0).toNat (h.reg t1).toNat = n)
    (halign : (h.reg t0).toNat % 4 = 0) (hin : R.Holds (h.reg t0).toNat (4 * n))
    (hstop : (h.reg t0).toNat + 4 * n < 2 ^ 32)
    (hcode : R.Holds h.pc.toNat (4 * (clearBss ++ is).length))
    (hapart : h.pc.toNat + 4 * (clearBss ++ is).length ≤ (h.reg t0).toNat ∨
      (h.reg t0).toNat + 4 * n ≤ h.pc.toNat)
    (hnext : ∀ g : Hart μ, g.pc = h.pc + 16#32 → (∀ r, r ≠ t0 → g.reg r = h.reg r) →
      g.csrs = h.csrs.countedBy (4 * n + 1) →
      g.mem = R.set h.mem (zeroed (h.reg t0).toNat (4 * n) (R.bytes h.mem)) →
      g.Runs B is → Hart.Gets B P k g) : Hart.Gets B P (k + (4 * n + 1)) h := by
  -- a round clears a word and moves the pointer to the next
  induction n generalizing h with
  | zero =>
    -- the section has been passed
    have hge : (h.reg t1).toNat ≤ (h.reg t0).toNat := by
      rw [words] at hn
      omega
    refine Hart.Gets.branch hm hc (aligned_bssDone hpc) (fun _ => ?_)
      fun hnot => absurd hge (of_decide_eq_false hnot)
    refine hnext _ (by rw [Hart.goto_pc, offsetOf_bssDone]) (fun r _ => ?_) rfl ?_ ?_
    · rw [Hart.goto_reg, if_neg (by simp)]
    · rw [Nat.mul_zero, zeroed_zero, R.set_bytes]
      rfl
    · rw [Hart.Runs, Hart.goto_pc, offsetOf_bssDone]
      exact (Bus.code_append.mp hc).2
  | succ n ih =>
    obtain ⟨hlo, hhi⟩ := hin
    have hlt : (h.reg t0).toNat < (h.reg t1).toNat := by
      rw [words] at hn
      omega
    rw [show k + (4 * (n + 1) + 1) = k + (4 * n + 1) + 4 by omega]
    refine gets_round hm hc hpc hlt halign ⟨hlo, by omega⟩ hcode (by omega)
      fun g hgpc hgreg hgcsrs hgmem hgrun => ?_
    have hstart : (g.reg t0).toNat = (h.reg t0).toNat + 4 := by
      rw [hgreg, if_pos rfl, BitVec.toNat_add, BitVec.toNat_ofNat]
      omega
    have hend : g.reg t1 = h.reg t1 := hgreg t1
    refine ih (hm.countedBy hgcsrs) hgrun (hgpc ▸ hpc) ?_ (by omega) ?_ (by omega)
      (hgpc ▸ hcode) ?_ fun f hfpc hfreg hfcsrs hfmem hfrun =>
        hnext f (hgpc ▸ hfpc) (fun r hr => ?_) ?_ ?_ hfrun
    · rw [hstart, hend]
      rw [words] at hn ⊢
      omega
    · rw [hstart]
      exact ⟨by omega, by omega⟩
    · rw [hgpc, hstart]
      omega
    · rw [hfreg r hr, hgreg, if_neg hr]
    · rw [hfcsrs, hgcsrs, Csrs.countedBy_countedBy]
      congr 1
      omega
    · rw [hfmem, hstart, hgmem, R.set_set, R.bytes_set, zeroed_store]

/-! ### From the section to `main` -/

/-- The symbols that the startup code refers to. -/
structure Symbols where
  globalPointer : BitVec 32
  stackTop : BitVec 32
  bssStart : BitVec 32
  bssEnd : BitVec 32
  trap : BitVec 32
  main : BitVec 32
  /-- `bm_exit`, or `freertos_platform_fail`. -/
  exit : BitVec 32

/-- The part that both have, at an address: the section, the trap vector, and the call. -/
def body (pc : BitVec 32) (s : Symbols) : List Instr :=
  la t0 pc s.bssStart ++ la t1 (pc + 8#32) s.bssEnd ++ clearBss ++ la t0 (pc + 32#32) s.trap ++
    [csrw .mtvec t0] ++ call (pc + 44#32) s.main

/-- The words of the section. -/
def Symbols.bssWords (s : Symbols) : ℕ := words s.bssStart.toNat s.bssEnd.toNat

/-- What startup code of `len` bytes at an address needs of its surroundings: it is in memory, as is
the section, apart from the code. -/
structure Placed (R : B.Ram) (s : Symbols) (start : BitVec 32) (len : ℕ) : Prop where
  aligned : start.toNat % 4 = 0
  code : R.Holds start.toNat len
  main : s.main.toNat % 4 = 0
  bssAligned : s.bssStart.toNat % 4 = 0
  bss : R.Holds s.bssStart.toNat (4 * s.bssWords)
  below : s.bssStart.toNat + 4 * s.bssWords < 2 ^ 32
  apart : start.toNat + len ≤ s.bssStart.toNat ∨
    s.bssStart.toNat + 4 * s.bssWords ≤ start.toNat

variable {s : Symbols} {start : BitVec 32} {len : ℕ}

/-- The memory when `main` is called. -/
def memory (R : B.Ram) (s : Symbols) (m : μ) : μ :=
  R.set m (zeroed s.bssStart.toNat (4 * s.bssWords) (R.bytes m))

/-- The section is cleared. -/
theorem gets_section (hpl : Placed R s start len) (hm : h.Masked)
    (hc : h.Runs B (la t0 h.pc s.bssStart ++ (la t1 (h.pc + 8#32) s.bssEnd ++ (clearBss ++ is))))
    (hpc : h.pc.toNat = start.toNat + k) (hk : k % 4 = 0) (hlen : k + 4 * (8 + is.length) ≤ len)
    {j : ℕ} (hnext : ∀ g : Hart μ, g.pc = h.pc + 32#32 →
      (∀ r, r ∉ [t0, t1] → g.reg r = h.reg r) → g.csrs = h.csrs.countedBy (4 * s.bssWords + 5) →
      g.mem = memory R s h.mem → g.Runs B is → Hart.Gets B P j g) :
    Hart.Gets B P (j + (4 * s.bssWords + 5)) h := by
  have hle := R.hi_le
  obtain ⟨hclo, hchi⟩ := hpl.code
  have haligned := hpl.aligned
  have hapart := hpl.apart
  rw [show j + (4 * s.bssWords + 5) = j + (4 * s.bssWords + 1) + 2 + 2 by omega]
  refine Hart.Gets.la hm (by decide) hc fun h₁ hpc₁ hreg₁ hcsrs₁ hmem₁ hrun₁ => ?_
  rw [← hpc₁] at hrun₁
  refine Hart.Gets.la (hm.countedBy hcsrs₁) (by decide) hrun₁
    fun h₂ hpc₂ hreg₂ hcsrs₂ hmem₂ hrun₂ => ?_
  have hm₂ : h₂.Masked := (hm.countedBy hcsrs₁).countedBy hcsrs₂
  have hstart₂ : h₂.reg t0 = s.bssStart := by
    rw [hreg₂, if_neg (by decide), hreg₁, if_pos rfl]
  have hend₂ : h₂.reg t1 = s.bssEnd := by rw [hreg₂, if_pos rfl]
  have hnat₂ : h₂.pc.toNat = start.toNat + k + 16 := by
    rw [hpc₂, hpc₁, BitVec.toNat_add, BitVec.toNat_add, BitVec.toNat_ofNat, hpc]
    omega
  have hlen₂ : (clearBss ++ is).length = 4 + is.length := List.length_append
  -- the loop runs between the two pointers
  refine gets_cleared (R := R) (n := s.bssWords) hm₂ hrun₂ (by omega) (by rw [hstart₂, hend₂]; rfl)
    (by rw [hstart₂]; exact hpl.bssAligned) (by rw [hstart₂]; exact hpl.bss)
    (by rw [hstart₂]; exact hpl.below) ?_ ?_ fun g hgpc hgreg hgcsrs hgmem hgrun => ?_
  · rw [hnat₂, hlen₂]
    exact ⟨by omega, by omega⟩
  · rw [hnat₂, hlen₂, hstart₂]
    omega
  · refine hnext g ?_ (fun r hr => ?_) ?_ ?_ hgrun
    · rw [hgpc, hpc₂, hpc₁]
      simp only [BitVec.add_assoc]
      rfl
    · simp only [List.mem_cons, List.not_mem_nil, or_false, not_or] at hr
      rw [hgreg r hr.1, hreg₂, if_neg hr.2, hreg₁, if_neg hr.1]
    · rw [hgcsrs, hcsrs₂, hcsrs₁, Csrs.countedBy_countedBy, Csrs.countedBy_countedBy]
      congr 1
      omega
    · rw [hgmem, hstart₂, hmem₂, hmem₁]
      rfl

/-- The trap vector is set, and `main` called. -/
theorem gets_call (hm : h.Masked) (hmain : s.main.toNat % 4 = 0)
    (hc : h.Runs B (la t0 h.pc s.trap ++ (csrw .mtvec t0 ::
      (call (h.pc + 12#32) s.main ++ is))))
    (hnext : ∀ g : Hart μ, g.pc = s.main → g.reg ra = h.pc + 20#32 →
      (∀ r, r ∉ [ra, t0] → g.reg r = h.reg r) →
      g.csrs = { h.csrs.countedBy 5 with mtvec := Csrs.base s.trap } → g.mem = h.mem →
      Hart.Gets B P k g) :
    Hart.Gets B P (k + 5) h := by
  show Hart.Gets B P (k + 2 + 1 + 2) h
  refine Hart.Gets.la hm (by decide) hc fun h₁ hpc₁ hreg₁ hcsrs₁ hmem₁ hrun₁ => ?_
  have hm₁ : h₁.Masked := hm.countedBy hcsrs₁
  refine Hart.Gets.csrw hm₁ hrun₁ rfl ?_
  have htrap : h₁.reg t0 = s.trap := by rw [hreg₁, if_pos rfl]
  rw [htrap]
  have hm₂ : (h₁.putCsr .mtvec s.trap).Masked := hm₁
  have hpc₂ : (h₁.putCsr .mtvec s.trap).pc = h.pc + 12#32 := by
    rw [Hart.putCsr_pc, hpc₁, BitVec.add_assoc]
    rfl
  have hrun₂ : (h₁.putCsr .mtvec s.trap).Runs B
      (call (h₁.putCsr .mtvec s.trap).pc s.main ++ is) := by
    rw [hpc₂]
    exact hrun₁.next rfl rfl
  refine Hart.Gets.call hm₂ hrun₂ hmain fun g hgpc hgreg hgcsrs hgmem => ?_
  refine hnext g hgpc ?_ (fun r hr => ?_) ?_ ?_
  · rw [hgreg, if_pos rfl, hpc₂, BitVec.add_assoc]
    rfl
  · simp only [List.mem_cons, List.not_mem_nil, or_false, not_or] at hr
    rw [hgreg, if_neg hr.1, Hart.putCsr_reg, hreg₁, if_neg hr.2]
  · rw [hgcsrs, Hart.putCsr_csrs, hcsrs₁]
    show ({ ((h.csrs.countedBy 2).countedBy 1).countedBy 2 with
      mtvec := Csrs.base s.trap } : Csrs) = _
    rw [Csrs.countedBy_countedBy, Csrs.countedBy_countedBy]
  · rw [hgmem, Hart.putCsr_mem, hmem₁]

/-- The section is cleared, the trap vector set, and `main` called. -/
theorem gets_body (hpl : Placed R s start len) (hm : h.Masked)
    (hc : h.Runs B (body h.pc s ++ is)) (hpc : h.pc.toNat = start.toNat + k)
    (hk : k % 4 = 0) (hlen : k + 4 * (13 + is.length) = len) {j : ℕ}
    (hnext : ∀ g : Hart μ, g.pc = s.main → g.reg ra = h.pc + 52#32 →
      (∀ r, r ∉ [ra, t0, t1] → g.reg r = h.reg r) →
      g.csrs = { h.csrs.countedBy (4 * s.bssWords + 10) with mtvec := Csrs.base s.trap } →
      g.mem = memory R s h.mem → Hart.Gets B P j g) :
    Hart.Gets B P (j + (4 * s.bssWords + 10)) h := by
  rw [show j + (4 * s.bssWords + 10) = j + 5 + (4 * s.bssWords + 5) by omega]
  have hrun : h.Runs B (la t0 h.pc s.bssStart ++ (la t1 (h.pc + 8#32) s.bssEnd ++ (clearBss ++
      (la t0 (h.pc + 32#32) s.trap ++ (csrw .mtvec t0 :: (call (h.pc + 44#32) s.main ++ is)))))) :=
    hc
  refine gets_section hpl hm hrun hpc hk ?_ fun g hgpc hgreg hgcsrs hgmem hgrun => ?_
  · simp only [la, call, List.length_append, List.length_cons, List.length_nil]
    omega
  have hgrun' : g.Runs B (la t0 g.pc s.trap ++ (csrw .mtvec t0 ::
      (call (g.pc + 12#32) s.main ++ is))) := by
    rw [hgpc, BitVec.add_assoc]
    exact hgrun
  refine gets_call (hm.countedBy hgcsrs) hpl.main hgrun' fun f hfpc hfra hfreg hfcsrs hfmem => ?_
  refine hnext f hfpc ?_ (fun r hr => ?_) ?_ (hfmem.trans hgmem)
  · rw [hfra, hgpc, BitVec.add_assoc]
    rfl
  · simp only [List.mem_cons, List.not_mem_nil, or_false, not_or] at hr
    rw [hfreg r (by simp [hr.1, hr.2.1]), hgreg r (by simp [hr.2])]
  · rw [hfcsrs, hgcsrs, Csrs.countedBy_countedBy]

/-- The call of `main`. The CSRs are those of `c`. -/
structure AtMain (R : B.Ram) (s : Symbols) (link : BitVec 32) (c : Csrs) (h g : Hart μ) : Prop where
  pc : g.pc = s.main
  link : g.reg ra = link
  globalPointer : g.reg gp = s.globalPointer
  stack : g.reg sp = s.stackTop
  others : ∀ r, r ∉ [ra, sp, gp, t0, t1] → g.reg r = h.reg r
  csrs : g.csrs = c
  mem : g.mem = memory R s h.mem

/-- The function called in `g` has returned, with the startup code as it was, and interrupts are
disabled. -/
structure Ended (R : B.Ram) (start : BitVec 32) (len : ℕ) (g g' : Hart μ) : Prop where
  pc : g'.pc = g.reg ra
  masked : g'.Masked
  kept : ∀ x, start.toNat ≤ x → x < start.toNat + len → R.bytes g'.mem x = R.bytes g.mem x

/-- The startup code is found where it was. -/
theorem code_ended {c : Csrs} {link : BitVec 32} {ns : List Instr} {g g' : Hart μ}
    (hpl : Placed R s start len) (hc : B.Code h.mem start ns) (hlen : 4 * ns.length = len)
    (hg : AtMain R s link c h g) (he : Ended R start len g g') : B.Code g'.mem start ns := by
  have hapart := hpl.apart
  refine Bus.Ram.code_congr (R := R) hc (hlen ▸ hpl.code) fun x hx hx' => ?_
  rw [he.kept x hx (by omega), hg.mem, memory, R.bytes_set, zeroed, if_neg (by omega)]

/-- A `main` that returns at once, outside the section. -/
theorem gets_ended {c : Csrs} {link : BitVec 32} {g : Hart μ} (hg : AtMain R s link c h g)
    (hm : g.Masked) (hlink : link.toNat % 4 = 0)
    (hc : B.fetch (memory R s h.mem) s.main = some (Instr.jalr zero ra 0#12).encode) :
    Hart.Gets B (fun g' => Ended R start len g g' ∧ g'.reg a0 = h.reg a0) 1 g := by
  have hrun : g.Runs B [.jalr zero ra 0#12] := by
    refine ⟨?_, trivial⟩
    rw [hg.pc, hg.mem]
    exact hc
  have htarget : g.reg ra + (0#12).signExtend 32 = link := by
    rw [hg.link]
    exact BitVec.add_zero link
  refine Hart.Gets.jalr (k := 0) hm hrun htarget hlink (Within.here ?_)
  refine ⟨⟨hg.link.symm, hm.counted rfl, fun x _ _ => rfl⟩, ?_⟩
  rw [Hart.goto_reg, if_neg (by simp), hg.others a0 (by decide)]

/-- The two addresses that are set up first. -/
theorem gets_pointers {g : Hart μ} (hm : g.Masked) (hpc : g.pc = start)
    (hc : g.Runs B (la gp start s.globalPointer ++ (la sp (start + 8#32) s.stackTop ++ is)))
    (hnext : ∀ g' : Hart μ, g'.pc = start + 16#32 →
      (∀ r, g'.reg r = if r = sp then s.stackTop else if r = gp then s.globalPointer
        else g.reg r) →
      g'.csrs = g.csrs.countedBy 4 → g'.mem = g.mem → g'.Runs B is → Hart.Gets B P k g') :
    Hart.Gets B P (k + 4) g := by
  rw [← hpc] at hc hnext
  refine Hart.Gets.la (k := k + 2) hm (by decide) hc fun g₁ hpc₁ hreg₁ hcsrs₁ hmem₁ hrun₁ => ?_
  have hm₁ : g₁.Masked := hm.countedBy hcsrs₁
  rw [← hpc₁] at hrun₁
  refine Hart.Gets.la hm₁ (by decide) hrun₁ fun g₂ hpc₂ hreg₂ hcsrs₂ hmem₂ hrun₂ => ?_
  refine hnext g₂ ?_ (fun r => ?_) ?_ (hmem₂.trans hmem₁) hrun₂
  · rw [hpc₂, hpc₁, BitVec.add_assoc]
    rfl
  · rw [hreg₂, hreg₁]
  · rw [hcsrs₂, hcsrs₁, Csrs.countedBy_countedBy]

end Startup

open Startup

/-! ### `sw/runtime/crt0.S` -/

namespace Crt0

/-- `_start`, at an address. -/
def code (start : BitVec 32) (s : Symbols) : List Instr :=
  la gp start s.globalPointer ++ la sp (start + 8#32) s.stackTop ++ body (start + 16#32) s ++
    tail (start + 68#32) s.exit

variable {μ : Type*} {B : Bus μ} {R : B.Ram} {h : Hart μ} {s : Symbols} {start : BitVec 32}

/-- The CSRs when `main` is called. -/
def csrs (s : Symbols) (c : Csrs) : Csrs :=
  { c.countedBy (4 * s.bssWords + 14) with mtvec := Csrs.base s.trap }

/-- From reset to the call of `main`. -/
theorem gets_main (hpl : Placed R s start 76) (hpc : h.pc = start) (hm : h.Masked)
    (hc : B.Code h.mem start (code start s)) :
    Hart.Gets B (AtMain R s (start + 68#32) (csrs s h.csrs) h) (4 * s.bssWords + 14) h := by
  have hbound := hpl.code.2
  have hle := R.hi_le
  have hrun : h.Runs B (la gp start s.globalPointer ++ (la sp (start + 8#32) s.stackTop ++
      (body (start + 16#32) s ++ tail (start + 68#32) s.exit))) := hpc ▸ hc
  rw [show 4 * s.bssWords + 14 = 0 + (4 * s.bssWords + 10) + 4 by omega]
  refine gets_pointers hm hpc hrun fun g hgpc hgreg hgcsrs hgmem hgrun => ?_
  have hm' : g.Masked := hm.countedBy hgcsrs
  rw [← hgpc] at hgrun
  have hnat : g.pc.toNat = start.toNat + 16 := by
    rw [hgpc, BitVec.toNat_add, BitVec.toNat_ofNat]
    omega
  refine gets_body (k := 16) hpl hm' hgrun hnat rfl rfl fun f hfpc hfra hfreg hfcsrs hfmem =>
    Within.here ?_
  exact {
    pc := hfpc
    link := by
      rw [hfra, hgpc, BitVec.add_assoc]
      rfl
    globalPointer := by
      rw [hfreg gp (by decide), hgreg]
      rfl
    stack := by
      rw [hfreg sp (by decide), hgreg]
      rfl
    others := fun r hr => by
      simp only [List.mem_cons, List.not_mem_nil, or_false, not_or] at hr
      rw [hfreg r (by simp [hr.1, hr.2.2.2.1, hr.2.2.2.2]), hgreg, if_neg hr.2.1, if_neg hr.2.2.1]
    csrs := by
      rw [hfcsrs, hgcsrs, Csrs.countedBy_countedBy, csrs,
        show 4 + (4 * s.bssWords + 10) = 4 * s.bssWords + 14 by omega]
    mem := by rw [hfmem, hgmem] }

/-- From reset to `main`, and to the exit function. If `main` returns within `N` steps with `Q`,
then the exit function is entered, with the registers that `main` has left but one, and so with
its status. -/
theorem starts (hpl : Placed R s start 76) (hpc : h.pc = start) (hm : h.Masked)
    (hc : B.Code h.mem start (code start s)) (hexit : s.exit.toNat % 4 = 0) :
    Hart.Gets B (AtMain R s (start + 68#32) (csrs s h.csrs) h) (4 * s.bssWords + 14) h ∧
      ∀ (Q : Hart μ → Prop) (N : ℕ), (∀ g, AtMain R s (start + 68#32) (csrs s h.csrs) h g →
        Hart.Gets B (fun g' => Ended R start 76 g g' ∧ Q g') N g) →
      Hart.Gets B (fun f => ∃ g, Q g ∧ f.pc = s.exit ∧ (∀ r, r ≠ t1 → f.reg r = g.reg r) ∧
        f.mem = g.mem) (4 * s.bssWords + 16 + N) h := by
  refine ⟨gets_main hpl hpc hm hc, fun Q N hmain => ?_⟩
  rw [show 4 * s.bssWords + 16 + N = 4 * s.bssWords + 14 + (N + 2) by omega]
  refine (gets_main hpl hpc hm hc).trans fun g hg => (hmain g hg).trans fun g' ⟨he, hQ⟩ => ?_
  have hrun : g'.Runs B (tail g'.pc s.exit ++ []) := by
    rw [Hart.Runs, he.pc, hg.link, List.append_nil]
    exact (Bus.code_append.mp (code_ended hpl hc rfl hg he)).2
  refine Hart.Gets.tail (k := 0) he.masked hrun hexit fun f hfpc hfreg _ hfmem => Within.here ?_
  exact ⟨g', hQ, hfpc, hfreg, hfmem⟩

/-! A program whose `main` returns its argument. -/

/-- The startup code, `main` at `0x60`, and a word of `bss` at `0x80`. -/
def image (code : List Instr) : Bytes := fun x =>
  let w := if x / 4 = 0x18 then (Instr.jalr zero ra 0#12).encode
    else (code.map Instr.encode).getD (x / 4) 0xffffffff#32
  w.extractLsb' (8 * (x % 4)) 8

/-- The symbols of that program. -/
def symbols : Symbols where
  globalPointer := 0x900#32
  stackTop := 0x1000#32
  bssStart := 0x80#32
  bssEnd := 0x84#32
  trap := 0x70#32
  main := 0x60#32
  exit := 0x70#32

/-- A hart after reset. -/
def fresh (code : List Instr) : Hart Bytes where
  pc := 0#32
  x r := r.setWidth 32
  csrs := { mtvec := 0#32 }
  mem := image code

/-- `main` is called and its argument becomes the status. -/
theorem starts_fresh :
    let h := fresh (code 0#32 symbols)
    Hart.Gets Bus.flat (AtMain Bus.flatRam symbols 68#32 (csrs symbols h.csrs) h) 18 h ∧
      Hart.Gets Bus.flat (fun f => ∃ g : Hart Bytes, g.reg a0 = 10#32 ∧
        f.pc = 0x70#32 ∧ (∀ r, r ≠ t1 → f.reg r = g.reg r) ∧ f.mem = g.mem) 21 h := by
  intro h
  have hpl : Placed Bus.flatRam symbols 0#32 76 :=
    ⟨by decide, ⟨by decide, by decide⟩, by decide, by decide, ⟨by decide, by decide⟩, by decide,
      by decide⟩
  obtain ⟨hmain, hexit⟩ := starts (h := h) hpl rfl rfl (by decide +kernel) (by decide)
  refine ⟨hmain, hexit _ 1 fun g hg => ?_⟩
  exact gets_ended hg (by rw [Hart.Masked, hg.csrs]; rfl) (by decide) (by decide +kernel)

end Crt0

/-! ### `sw/freertos/startup.S` -/

namespace FreertosStartup

/-- `_start`, at an address. -/
def code (start : BitVec 32) (s : Symbols) : List Instr :=
  la gp start s.globalPointer ++ la sp (start + 8#32) s.stackTop ++
    [csrci .mstatus 8#5, csrw .mie zero, csrw .mscratch zero] ++ body (start + 28#32) s ++
    [addi a0 zero 0x11] ++ tail (start + 84#32) s.exit

variable {μ : Type*} {B : Bus μ} {R : B.Ram} {h : Hart μ} {s : Symbols} {start : BitVec 32}

/-- The CSRs when `main` is called: no interrupt can be taken. -/
def csrs (s : Symbols) (c : Csrs) : Csrs :=
  { c.countedBy (4 * s.bssWords + 17) with
    mie := false, mtie := false, mscratch := 0#32, mtvec := Csrs.base s.trap }

/-- The value that `csrci mstatus, 8` writes: `MPIE` is kept. -/
theorem written_mstatus (c : Csrs) (i : Inputs) :
    c.written (c.read i .mstatus &&& ~~~(8#5).setWidth 32) .mstatus =
      { c.counted with mie := false } := by
  have hbits : ∀ mie mpie : Bool,
      let v := (0x1800#32 ||| Csrs.bit 3 mie ||| Csrs.bit 7 mpie) &&& ~~~(8#5).setWidth 32
      v.getLsbD 3 = false ∧ v.getLsbD 7 = mpie := by decide
  obtain ⟨h3, h7⟩ := hbits c.mie c.mpie
  rw [Csrs.written, Csrs.read, h3, h7]
  rfl

/-- No interrupt can be taken. -/
theorem gets_disabled {P : Hart μ → Prop} {k : ℕ} {is : List Instr} (hm : h.Masked)
    (hc : h.Runs B (csrci .mstatus 8#5 :: csrw .mie zero :: csrw .mscratch zero :: is))
    (hnext : ∀ g : Hart μ, g.pc = h.pc + 12#32 → (∀ r, g.reg r = h.reg r) →
      g.csrs = { h.csrs.countedBy 3 with mie := false, mtie := false, mscratch := 0#32 } →
      g.mem = h.mem → g.Runs B is → Hart.Gets B P k g) : Hart.Gets B P (k + 3) h := by
  refine Hart.Gets.csrci hm hc rfl (by decide) fun i => ?_
  generalize hh₁ : Hart.putCsr h _ _ = h₁
  -- masked by `MIE` from here on, whatever `mie` has
  have hcsrs₁ : h₁.csrs = { h.csrs.counted with mie := false } := by
    rw [← hh₁, Hart.putCsr_csrs, written_mstatus]
  have hm₁ : h₁.Masked := by
    rw [Hart.Masked, hcsrs₁]
    rfl
  have hrun₁ : h₁.Runs B (csrw .mie zero :: csrw .mscratch zero :: is) := by
    rw [← hh₁]
    exact hc.next rfl rfl
  refine Hart.Gets.csrw hm₁ hrun₁ rfl ?_
  have hm₂ : (h₁.putCsr .mie 0#32).Masked := by
    rw [Hart.Masked, Hart.putCsr_csrs, hcsrs₁]
    rfl
  have hrun₂ : (h₁.putCsr .mie 0#32).Runs B (csrw .mscratch zero :: is) := hrun₁.next rfl rfl
  refine Hart.Gets.csrw hm₂ hrun₂ rfl ?_
  refine hnext ((h₁.putCsr .mie 0#32).putCsr .mscratch 0#32) ?_ (fun r => ?_) ?_ ?_
    (hrun₂.next rfl rfl)
  · rw [Hart.putCsr_pc, Hart.putCsr_pc, ← hh₁, Hart.putCsr_pc]
    simp only [BitVec.add_assoc]
    rfl
  · rw [Hart.putCsr_reg, Hart.putCsr_reg, ← hh₁, Hart.putCsr_reg]
  · rw [Hart.putCsr_csrs, Hart.putCsr_csrs, hcsrs₁]
    show ({ ((h.csrs.countedBy 1).countedBy 1).countedBy 1 with
      mie := false, mtie := false, mscratch := 0#32 } : Csrs) = _
    rw [Csrs.countedBy_countedBy, Csrs.countedBy_countedBy]
  · rw [Hart.putCsr_mem, Hart.putCsr_mem, ← hh₁, Hart.putCsr_mem]

/-- From reset to the call of `main`. -/
theorem gets_main (hpl : Placed R s start 92) (hpc : h.pc = start) (hm : h.Masked)
    (hc : B.Code h.mem start (code start s)) :
    Hart.Gets B (AtMain R s (start + 80#32) (csrs s h.csrs) h) (4 * s.bssWords + 17) h := by
  have hbound := hpl.code.2
  have hle := R.hi_le
  have hrun : h.Runs B (la gp start s.globalPointer ++ (la sp (start + 8#32) s.stackTop ++
      (csrci .mstatus 8#5 :: csrw .mie zero :: csrw .mscratch zero :: (body (start + 28#32) s ++
        (addi a0 zero 0x11 :: tail (start + 84#32) s.exit))))) := hpc ▸ hc
  rw [show 4 * s.bssWords + 17 = 0 + (4 * s.bssWords + 10) + 3 + 4 by omega]
  refine gets_pointers hm hpc hrun fun h₁ hpc₁ hreg₁ hcsrs₁ hmem₁ hrun₁ => ?_
  refine gets_disabled (hm.countedBy hcsrs₁) hrun₁ fun g hgpc hgreg hgcsrs hgmem hgrun => ?_
  -- from here on interrupts are off, whatever they were
  have hm' : g.Masked := by
    rw [Hart.Masked, hgcsrs]
    rfl
  rw [hpc₁, BitVec.add_assoc] at hgpc
  rw [show start + 28#32 = g.pc from hgpc.symm] at hgrun
  have hnat : g.pc.toNat = start.toNat + 28 := by
    rw [hgpc, BitVec.toNat_add]
    show (start.toNat + 28) % 2 ^ 32 = _
    omega
  refine gets_body (k := 28) hpl hm' hgrun hnat rfl rfl fun f hfpc hfra hfreg hfcsrs hfmem =>
    Within.here ?_
  exact {
    pc := hfpc
    link := by
      rw [hfra, hgpc, BitVec.add_assoc]
      rfl
    globalPointer := by
      rw [hfreg gp (by decide), hgreg, hreg₁]
      rfl
    stack := by
      rw [hfreg sp (by decide), hgreg, hreg₁]
      rfl
    others := fun r hr => by
      simp only [List.mem_cons, List.not_mem_nil, or_false, not_or] at hr
      rw [hfreg r (by simp [hr.1, hr.2.2.2.1, hr.2.2.2.2]), hgreg, hreg₁, if_neg hr.2.1,
        if_neg hr.2.2.1]
    csrs := by
      rw [hfcsrs, hgcsrs, hcsrs₁]
      show ({ ((h.csrs.countedBy 4).countedBy 3).countedBy (4 * s.bssWords + 10) with
        mie := false, mtie := false, mscratch := 0#32, mtvec := Csrs.base s.trap } : Csrs) = _
      rw [Csrs.countedBy_countedBy, Csrs.countedBy_countedBy, csrs,
        show 4 + (3 + (4 * s.bssWords + 10)) = 4 * s.bssWords + 17 by omega]
    mem := by rw [hfmem, hgmem, hmem₁] }

/-- From reset to `main`, and to `freertos_platform_fail` if it returns, which it does when the
scheduler does not take over. -/
theorem fails (hpl : Placed R s start 92) (hpc : h.pc = start) (hm : h.Masked)
    (hc : B.Code h.mem start (code start s)) (hexit : s.exit.toNat % 4 = 0) :
    Hart.Gets B (AtMain R s (start + 80#32) (csrs s h.csrs) h) (4 * s.bssWords + 17) h ∧
      ∀ (Q : Hart μ → Prop) (N : ℕ), (∀ g, AtMain R s (start + 80#32) (csrs s h.csrs) h g →
        Hart.Gets B (fun g' => Ended R start 92 g g' ∧ Q g') N g) →
      Hart.Gets B (fun f => ∃ g, Q g ∧ f.pc = s.exit ∧ f.reg a0 = 0x11#32 ∧ f.mem = g.mem)
        (4 * s.bssWords + 20 + N) h := by
  refine ⟨gets_main hpl hpc hm hc, fun Q N hmain => ?_⟩
  rw [show 4 * s.bssWords + 20 + N = 4 * s.bssWords + 17 + (N + 3) by omega]
  refine (gets_main hpl hpc hm hc).trans fun g hg => (hmain g hg).trans fun g' ⟨he, hQ⟩ => ?_
  have hcode := code_ended hpl hc rfl hg he
  rw [code, List.append_assoc] at hcode
  have hrun : g'.Runs B (addi a0 zero 0x11 :: tail (g'.pc + 4#32) s.exit) := by
    rw [Hart.Runs, he.pc, hg.link, BitVec.add_assoc]
    exact (Bus.code_append.mp hcode).2
  refine Hart.Gets.addi he.masked hrun ?_
  have hval : g'.reg zero + (BitVec.ofInt 12 0x11).signExtend 32 = 0x11#32 := rfl
  rw [hval]
  refine Hart.Gets.tail (k := 0) (he.masked.counted rfl) (hrun.next rfl rfl) hexit
    fun f hfpc hfreg _ hfmem => Within.here ?_
  refine ⟨g', hQ, hfpc, ?_, hfmem⟩
  rw [hfreg a0 (by decide), Hart.put_reg, if_pos (by decide)]

/-- `main` is called, and its return is a failure. -/
theorem fails_fresh :
    let h := Crt0.fresh (code 0#32 Crt0.symbols)
    Hart.Gets Bus.flat (AtMain Bus.flatRam Crt0.symbols 80#32 (csrs Crt0.symbols h.csrs) h) 21 h ∧
      Hart.Gets Bus.flat (fun f => ∃ g : Hart Bytes, g.reg a0 = 10#32 ∧
        f.pc = 0x70#32 ∧ f.reg a0 = 0x11#32 ∧ f.mem = g.mem) 25 h := by
  intro h
  have hpl : Placed Bus.flatRam Crt0.symbols 0#32 92 :=
    ⟨by decide, ⟨by decide, by decide⟩, by decide, by decide, ⟨by decide, by decide⟩, by decide,
      by decide⟩
  obtain ⟨hmain, hexit⟩ := fails (h := h) hpl rfl rfl (by decide +kernel) (by decide)
  refine ⟨hmain, hexit _ 1 fun g hg => ?_⟩
  exact gets_ended hg (by rw [Hart.Masked, hg.csrs]; rfl) (by decide) (by decide +kernel)

end FreertosStartup

end Rv32im

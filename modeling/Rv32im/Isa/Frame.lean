import Rv32im.Isa.Asm

/-!
# Registers saved in a frame

Code that stores a list of registers in consecutive words of a frame, and code that loads them back.

* `Asm.saves`, `Asm.restores`: the code;
* `saved`: the memory with the registers in the frame;
* `Hart.Gets.saves`, `Hart.Gets.restores`: what the code does.
-/

namespace Riscv

open Clocked Memory

/-- Store registers in the words of a frame from number `j` on. -/
def Asm.saves (base : BitVec 5) : ℕ → List (BitVec 5) → List Instr
  | _, [] => []
  | j, r :: rs => sw r (4 * j) base :: saves base (j + 1) rs

/-- Load registers from the words of a frame from number `j` on. -/
def Asm.restores (base : BitVec 5) : ℕ → List (BitVec 5) → List Instr
  | _, [] => []
  | j, r :: rs => lw r (4 * j) base :: restores base (j + 1) rs

@[simp] theorem Asm.length_saves (base : BitVec 5) (j : ℕ) (rs : List (BitVec 5)) :
    (saves base j rs).length = rs.length := by
  induction rs generalizing j with
  | nil => rfl
  | cons r rs ih => simp [saves, ih]

@[simp] theorem Asm.length_restores (base : BitVec 5) (j : ℕ) (rs : List (BitVec 5)) :
    (restores base j rs).length = rs.length := by
  induction rs generalizing j with
  | nil => rfl
  | cons r rs ih => simp [restores, ih]

/-- The memory with the values of registers in the frame at `s`. -/
def saved (x : BitVec 5 → BitVec 32) (s : ℕ) (b : Bytes) : ℕ → List (BitVec 5) → Bytes
  | _, [] => b
  | j, r :: rs => saved x s (b.store (s + 4 * j) 4 (x r)) (j + 1) rs

section Saved

variable {x : BitVec 5 → BitVec 32} {s j i y : ℕ} {b : Bytes} {rs : List (BitVec 5)} {r : BitVec 5}

theorem saved_congr {x' : BitVec 5 → BitVec 32} (h : ∀ r ∈ rs, x r = x' r) :
    saved x s b j rs = saved x' s b j rs := by
  induction rs generalizing b j with
  | nil => rfl
  | cons r rs ih =>
    rw [saved, saved, h r (by simp)]
    exact ih fun r' hr => h r' (by simp [hr])

/-- The bytes outside the frame stay. -/
theorem saved_of_not_mem (h : y < s + 4 * j ∨ s + 4 * (j + rs.length) ≤ y) :
    saved x s b j rs y = b y := by
  induction rs generalizing b j with
  | nil => rfl
  | cons r rs ih =>
    rw [List.length_cons] at h
    rw [saved, ih (by omega), Bytes.store_of_not_mem _ _ _ (by omega)]

/-- Each register is in its word. -/
theorem load_saved (h : rs[i]? = some r) :
    (saved x s b j rs).load (s + 4 * (j + i)) 4 = x r := by
  induction rs generalizing b j i with
  | nil => simp at h
  | cons r' rs ih =>
    cases i with
    | zero =>
      obtain rfl : r' = r := by simpa using h
      -- the later stores are behind
      rw [saved, Nat.add_zero]
      calc _ = (b.store (s + 4 * j) 4 (x r')).load (s + 4 * j) 4 :=
            Bytes.load_congr fun k hk => saved_of_not_mem (by omega)
        _ = x r' := Bytes.load_store _ _ _
    | succ i =>
      have hi : rs[i]? = some r := by simpa using h
      rw [saved, show j + (i + 1) = j + 1 + i by omega]
      exact ih hi

end Saved

namespace Hart

variable {μ : Type*} {B : Bus μ} {h : Hart μ} {P : Hart μ → Prop} {k j : ℕ} {ns : List Instr}
  {n : Instr} {rs : List (BitVec 5)} {base : BitVec 5} {s : BitVec 32}

/-- The address of a word of the frame. -/
theorem toNat_slot {d : ℕ} (hd : d < 2048) (hs : s.toNat + d < 2 ^ 32) :
    (s + (BitVec.ofNat 12 d).signExtend 32).toNat = s.toNat + d := by
  have hmsb : (BitVec.ofNat 12 d).msb = false := by
    rw [BitVec.msb_eq_false_iff_two_mul_lt, BitVec.toNat_ofNat]
    omega
  rw [BitVec.signExtend_eq_setWidth_of_msb_false hmsb, BitVec.toNat_add, BitVec.toNat_setWidth,
    BitVec.toNat_ofNat]
  omega

/-- Storing registers in a frame apart from the code. -/
theorem Gets.saves (R : B.Ram) (hm : h.Masked)
    (hc : h.Runs B (Asm.saves base j rs ++ n :: ns)) (hs : h.reg base = s)
    (halign : s.toNat % 4 = 0) (hj : 4 * (j + rs.length) ≤ 2048)
    (hframe : R.Holds (s.toNat + 4 * j) (4 * rs.length))
    (hcode : R.Holds h.pc.toNat (4 * (rs.length + (n :: ns).length)))
    (hapart : h.pc.toNat + 4 * (rs.length + (n :: ns).length) ≤ s.toNat + 4 * j ∨
      s.toNat + 4 * (j + rs.length) ≤ h.pc.toNat)
    (hnext : ∀ g : Hart μ, g.pc = h.pc + .ofNat 32 (4 * rs.length) → g.x = h.x →
      g.csrs = h.csrs.countedBy rs.length →
      g.mem = R.set h.mem (saved h.reg s.toNat (R.bytes h.mem) j rs) → g.Runs B (n :: ns) →
      Gets B P k g) : Gets B P (k + rs.length) h := by
  -- one store for each register, the code behind it still in place
  induction rs generalizing h j with
  | nil => exact hnext h (by simp) rfl (Csrs.countedBy_zero _).symm (by simp [saved]) hc
  | cons r rs ih =>
    have hle := R.hi_le
    obtain ⟨hlo, hhi⟩ := hframe
    obtain ⟨hclo, hchi⟩ := hcode
    simp only [List.length_cons] at hj hhi hchi hapart hnext ⊢
    have haddr : (h.reg base + (BitVec.ofNat 12 (4 * j)).signExtend 32).toNat = s.toNat + 4 * j :=
      hs ▸ toNat_slot (by omega) (by rw [hs]; omega)
    have hpc : (h.pc + 4#32).toNat = h.pc.toNat + 4 := by
      rw [BitVec.toNat_add, BitVec.toNat_ofNat]
      omega
    rw [← Nat.add_assoc]
    refine Gets.sw R hm hc rfl (by rw [haddr]; omega) (by rw [haddr]; exact ⟨hlo, by omega⟩) ?_
    rw [haddr]
    refine ih (j := j + 1) (Masked.counted hm rfl) ?_ hs (by omega) ⟨by omega, by omega⟩
      ⟨by rw [putMem_pc, hpc]; omega, by rw [putMem_pc, hpc, List.length_cons]; omega⟩
      (by rw [putMem_pc, hpc, List.length_cons]; omega) fun g hgpc hgx hgcsrs hgmem hg => ?_
    · -- the word stored is apart from the code
      refine Bus.Ram.code_congr (R := R) hc.2 ?_ fun x hx hx' => ?_
      · rw [putMem_pc, hpc, List.length_append, Asm.length_saves, List.length_cons]
        exact ⟨by omega, by omega⟩
      · rw [putMem_pc, hpc, List.length_append, Asm.length_saves, List.length_cons] at hx'
        rw [putMem_pc, hpc] at hx
        rw [putMem_mem, R.bytes_set, Bytes.store_of_not_mem _ _ _ (by omega)]
    · refine hnext g ?_ hgx ?_ ?_ hg
      · rw [hgpc, putMem_pc, BitVec.add_assoc, ← BitVec.ofNat_add]
        congr 2
        omega
      · rw [hgcsrs, putMem_csrs, Csrs.counted_eq, Csrs.countedBy_countedBy, Nat.add_comm]
      · rw [hgmem, putMem_mem, R.set_set, R.bytes_set, putMem_reg]
        rfl

/-- Loading registers, but not that of the base, from a frame with their values. -/
theorem Gets.restores (R : B.Ram) {v : BitVec 5 → BitVec 32} (hm : h.Masked)
    (hc : h.Runs B (Asm.restores base j rs ++ ns)) (hs : h.reg base = s)
    (halign : s.toNat % 4 = 0) (hj : 4 * (j + rs.length) ≤ 2048)
    (hframe : R.Holds (s.toNat + 4 * j) (4 * rs.length)) (hbase : base ∉ rs)
    (hv : ∀ i r, rs[i]? = some r → (R.bytes h.mem).load (s.toNat + 4 * (j + i)) 4 = v r)
    (hnext : ∀ g : Hart μ, g.pc = h.pc + .ofNat 32 (4 * rs.length) →
      (∀ r, g.reg r = if r ∈ rs ∧ r ≠ 0#5 then v r else h.reg r) →
      g.csrs = h.csrs.countedBy rs.length → g.mem = h.mem → g.Runs B ns → Gets B P k g) :
    Gets B P (k + rs.length) h := by
  -- one load for each register, the base not among them
  induction rs generalizing h j with
  | nil => exact hnext h (by simp) (by simp) (Csrs.countedBy_zero _).symm rfl hc
  | cons r rs ih =>
    have hle := R.hi_le
    obtain ⟨hlo, hhi⟩ := hframe
    simp only [List.length_cons, List.mem_cons, not_or] at hj hhi hnext hbase ⊢
    have haddr : (h.reg base + (BitVec.ofNat 12 (4 * j)).signExtend 32).toNat = s.toNat + 4 * j :=
      hs ▸ toNat_slot (by omega) (by rw [hs]; omega)
    rw [← Nat.add_assoc]
    refine Gets.lw R hm hc rfl (by rw [haddr]; omega) (by rw [haddr]; exact ⟨hlo, by omega⟩) ?_
    have hload := hv 0 r rfl
    rw [Nat.add_zero] at hload
    rw [haddr, hload]
    refine ih (j := j + 1) (Masked.counted hm rfl) hc.2 ?_ (by omega) ⟨by omega, by omega⟩ hbase.2
      (fun i r' hi => ?_) fun g hgpc hgx hgcsrs hgmem hg => ?_
    · rw [put_reg, if_neg (by simp [hbase.1])]
      exact hs
    · rw [put_mem, show j + 1 + i = j + (i + 1) by omega]
      exact hv (i + 1) r' hi
    · refine hnext g ?_ (fun r' => ?_) ?_ hgmem hg
      · rw [hgpc, put_pc, BitVec.add_assoc, ← BitVec.ofNat_add]
        congr 2
        omega
      · rw [hgx, put_reg]
        -- a later load of the register has the last word, with the same value
        by_cases hmem : r' ∈ rs ∧ r' ≠ 0#5
        · rw [if_pos hmem, if_pos ⟨.inr hmem.1, hmem.2⟩]
        · rw [if_neg hmem]
          by_cases hr : r' = r ∧ r ≠ 0#5
          · rw [if_pos hr, if_pos ⟨.inl hr.1, hr.1 ▸ hr.2⟩, hr.1]
          · rw [if_neg hr, if_neg fun ⟨hor, hne⟩ =>
              hor.elim (fun he => hr ⟨he, he ▸ hne⟩) fun he => hmem ⟨he, hne⟩]
      · rw [hgcsrs, put_csrs, Csrs.counted_eq, Csrs.countedBy_countedBy, Nat.add_comm]

end Hart

end Riscv

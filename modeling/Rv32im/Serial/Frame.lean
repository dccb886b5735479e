import Mathlib.Tactic.Common

/-!
# Serial frames

The line of an 8-N-1 frame whose bits last `C` cycles each: a start bit, eight data bits with the
least significant first, and a stop bit; before and after the line is high. Nothing here depends on
how a transmitter or a receiver counts.

* `Serial.frameBit`: the ten bits;
* `Serial.level`: the line `n` cycles after the frame began;
* `Serial.level_eq`, `Serial.level_of_stop`: the level within a bit, and from the stop bit on;
* `Serial.byteOf`: the byte of a list of data bits.
-/

namespace Serial

/-- Bit `k` of the frame of a byte; every bit from the stop bit on is high. -/
def frameBit (b : BitVec 8) (k : ℕ) : Bool :=
  if k = 0 then false else if k ≤ 8 then b.getLsbD (k - 1) else true

/-- The line `n` cycles after the frame of `b` began. -/
def level (C : ℕ) (b : BitVec 8) (n : ℕ) : Bool := frameBit b (n / C)

@[simp] theorem frameBit_zero (b : BitVec 8) : frameBit b 0 = false := rfl

/-- Data bits follow the start bit, the lowest first. -/
theorem frameBit_succ (b : BitVec 8) {k : ℕ} (hk : k < 8) : frameBit b (k + 1) = b.getLsbD k := by
  have hle : k + 1 ≤ 8 := by omega
  simp [frameBit, hle]

theorem frameBit_of_stop (b : BitVec 8) {k : ℕ} (hk : 9 ≤ k) : frameBit b k = true := by
  have hne : k ≠ 0 := by omega
  have hgt : ¬ k ≤ 8 := by omega
  simp [frameBit, hne, hgt]

variable {C : ℕ} (b : BitVec 8)

/-- The line throughout bit `k`. -/
theorem level_eq (k : ℕ) {j : ℕ} (hj : j < C) : level C b (k * C + j) = frameBit b k := by
  have hC : 0 < C := by omega
  rw [level, Nat.add_comm, Nat.add_mul_div_right _ _ hC, Nat.div_eq_of_lt hj, Nat.zero_add]

/-- The line is high from the stop bit on. -/
theorem level_of_stop (hC : 0 < C) {n : ℕ} (hn : 9 * C ≤ n) : level C b n = true :=
  frameBit_of_stop b ((Nat.le_div_iff_mul_le hC).mpr hn)

/-- The byte of eight data bits, the least significant first. -/
def byteOf (bits : List Bool) : BitVec 8 := (BitVec.ofBoolListLE bits).setWidth 8

/-- The byte has the bits in their order. -/
theorem getLsbD_byteOf (bits : List Bool) {m : ℕ} (hm : m < 8) :
    (byteOf bits).getLsbD m = bits.getD m false := by
  rw [byteOf, BitVec.getLsbD_setWidth, BitVec.getLsbD_ofBoolListLE]
  simp [hm]

/-- A byte is that of its bits. -/
theorem eq_byteOf {v : BitVec 8} {bits : List Bool}
    (h : ∀ m < 8, v.getLsbD m = bits.getD m false) : v = byteOf bits := by
  apply BitVec.eq_of_getLsbD_eq
  intro m hm
  rw [h m hm, getLsbD_byteOf bits hm]

end Serial

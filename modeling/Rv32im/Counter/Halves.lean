import Mathlib.Tactic.Common
import Mathlib.Algebra.Order.Ring.Nat

/-!
# Counters read in halves

A counter of `2 * w` bits that only counts up, modulo its width, is read half by half. The counter
is a natural number here, its value modulo the width; nothing depends on who counts and who reads.

* `Counter.high`, `Counter.low`: the halves of the value;
* `Counter.high_eq_of_between`: two equal upper halves, less than a turn of the counter apart,
  enclose a time in which the upper half did not change;
* `Counter.untorn`: the halves then fit together;
* `Counter.value_le_value`: values of one turn are in the order of the counts.
-/

namespace Counter

variable (w n : ℕ)

/-- The value of the counter. -/
def value : ℕ := n % 2 ^ (w + w)

/-- The upper half of the value. -/
def high : ℕ := n / 2 ^ w % 2 ^ w

/-- The lower half of the value. -/
def low : ℕ := n % 2 ^ w

variable {w} {a b c : ℕ}

/-- The two halves make up the value. -/
theorem high_mul_add_low : high w n * 2 ^ w + low w n = value w n := by
  rw [high, low, value, Nat.pow_add, Nat.mod_mul, Nat.mul_comm, Nat.add_comm]

/-- Less than a turn of the counter, less one block, lies within the block or changes the upper
half. -/
private theorem div_eq_of_high_eq (hac : a ≤ c) (hlt : c - a < 2 ^ (w + w) - 2 ^ w)
    (h : high w a = high w c) : a / 2 ^ w = c / 2 ^ w := by
  have hle : a / 2 ^ w ≤ c / 2 ^ w := Nat.div_le_div_right hac
  have hpos : 0 < 2 ^ w := Nat.two_pow_pos w
  -- fewer than `2 ^ w` blocks are begun
  have hblocks : c / 2 ^ w - a / 2 ^ w < 2 ^ w := by
    have ha := Nat.div_add_mod a (2 ^ w)
    have hc := Nat.div_add_mod c (2 ^ w)
    have hmod := Nat.mod_lt a hpos
    rw [Nat.pow_add] at hlt
    by_contra hge
    have hmul : 2 ^ w * 2 ^ w ≤ 2 ^ w * (c / 2 ^ w - a / 2 ^ w) :=
      Nat.mul_le_mul_left _ (by omega)
    rw [Nat.mul_sub] at hmul
    omega
  have hsub : (c / 2 ^ w - a / 2 ^ w) % 2 ^ w = 0 := Nat.sub_mod_eq_zero_of_mod_eq h.symm
  rw [Nat.mod_eq_of_lt hblocks] at hsub
  omega

/-- The upper half did not change in between. -/
theorem high_eq_of_between (hab : a ≤ b) (hbc : b ≤ c) (hlt : c - a < 2 ^ (w + w) - 2 ^ w)
    (h : high w a = high w c) : high w b = high w a := by
  have hdiv := div_eq_of_high_eq (hab.trans hbc) hlt h
  have h₁ : a / 2 ^ w ≤ b / 2 ^ w := Nat.div_le_div_right hab
  have h₂ : b / 2 ^ w ≤ c / 2 ^ w := Nat.div_le_div_right hbc
  have hb : b / 2 ^ w = a / 2 ^ w := by omega
  rw [high, hb, high]

/-- A lower half read between two equal upper halves gives the value at that time. -/
theorem untorn (hab : a ≤ b) (hbc : b ≤ c) (hlt : c - a < 2 ^ (w + w) - 2 ^ w)
    (h : high w a = high w c) : high w a * 2 ^ w + low w b = value w b := by
  rw [← high_eq_of_between hab hbc hlt h, high_mul_add_low]

/-- Without a wrap in between the value does not fall. -/
theorem value_le_value (hab : a ≤ b) (h : a / 2 ^ (w + w) = b / 2 ^ (w + w)) :
    value w a ≤ value w b := by
  have ha := Nat.div_add_mod a (2 ^ (w + w))
  have hb := Nat.div_add_mod b (2 ^ (w + w))
  rw [h] at ha
  rw [value, value]
  omega

end Counter

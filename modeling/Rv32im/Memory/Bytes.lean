import Mathlib.Algebra.Group.Nat.Defs
import Mathlib.Tactic.Common

/-!
# Byte-addressed memories

A memory as a function from addresses to bytes, with little-endian multi-byte accesses. Nothing here
depends on how wide an address is or on what stores the bytes.

* `Bytes.load`, `Bytes.store`: `n` consecutive bytes, least significant first;
* `Bytes.getLsbD_load`, `Bytes.toNat_load_succ`: the bits and the value of a load.
-/

namespace Memory

/-- A memory that holds one byte at each address. -/
abbrev Bytes := ℕ → BitVec 8

namespace Bytes

variable {w : ℕ} (m : Bytes) (a : ℕ)

/-- The `n` bytes from address `a` on, least significant first. -/
def load : (n : ℕ) → BitVec (8 * n)
  | 0 => 0#0
  | n + 1 => (m (a + n) ++ load n).cast (by omega)

/-- The memory after storing the `n` low bytes of `v` from address `a` on. -/
def store (n : ℕ) (v : BitVec w) : Bytes := fun x =>
  if a ≤ x ∧ x < a + n then v.extractLsb' (8 * (x - a)) 8 else m x

/-- A bit of a loaded value is that of its byte. -/
theorem getLsbD_load (n j : ℕ) :
    (m.load a n).getLsbD j = (decide (j < 8 * n) && (m (a + j / 8)).getLsbD (j % 8)) := by
  induction n with
  | zero => simp [load]
  | succ n ih =>
    rw [load, BitVec.getLsbD_cast, BitVec.getLsbD_append, ih]
    by_cases hlt : j < 8 * n
    · have hlt' : j < 8 * (n + 1) := by omega
      simp [hlt, hlt']
    · by_cases hlt' : j < 8 * (n + 1)
      · have hdiv : j / 8 = n := by omega
        have hmod : j - 8 * n = j % 8 := by omega
        simp [hlt, hlt', hdiv, hmod]
      · have hbig : 8 ≤ j - 8 * n := by omega
        simp [hlt, hlt', BitVec.getLsbD_of_ge _ _ hbig]

/-- The value of a load, by its most significant byte and the others. -/
theorem toNat_load_succ (n : ℕ) :
    (m.load a (n + 1)).toNat = (m.load a n).toNat + 2 ^ (8 * n) * (m (a + n)).toNat := by
  rw [load, BitVec.toNat_cast, BitVec.toNat_append,
    ← Nat.shiftLeft_add_eq_or_of_lt (m.load a n).isLt, Nat.shiftLeft_eq, Nat.mul_comm, Nat.add_comm]

/-- A load sees the bytes at its addresses only. -/
theorem load_congr {m m' : Bytes} {a a' n : ℕ} (h : ∀ k < n, m' (a' + k) = m (a + k)) :
    m'.load a' n = m.load a n := by
  apply BitVec.eq_of_getLsbD_eq
  intro j hj
  rw [getLsbD_load, getLsbD_load, h _ (by omega)]

/-- A word that has been stored is loaded back. -/
@[simp] theorem load_store {n : ℕ} (v : BitVec (8 * n)) : (m.store a n v).load a n = v := by
  apply BitVec.eq_of_getLsbD_eq
  intro j hj
  have hin : a ≤ a + j / 8 ∧ a + j / 8 < a + n := by omega
  have hoff : 8 * (a + j / 8 - a) + j % 8 = j := by omega
  rw [getLsbD_load, store, if_pos hin, BitVec.getLsbD_extractLsb', hoff]
  simp [hj, Nat.mod_lt]

/-- Bytes outside a store are kept. -/
theorem store_of_not_mem {n x : ℕ} (v : BitVec w) (h : x < a ∨ a + n ≤ x) :
    m.store a n v x = m x := by
  rw [store, if_neg (by omega)]

/-- A load from zeros. -/
theorem load_eq_zero {n : ℕ} (h : ∀ k < n, m (a + k) = 0#8) : m.load a n = 0 := by
  apply BitVec.eq_of_getLsbD_eq
  intro j hj
  have hzero : m (a + j / 8) = 0#8 := h _ (by omega)
  rw [getLsbD_load, hzero]
  simp

end Bytes

end Memory

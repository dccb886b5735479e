import Rv32im.Clocked.Circuit

/-!
# What a system gets to

`Within step P n a` says that a system cannot help getting to a state with `P`: from `a` on, every
way of `n` steps passes through one, and none of them ends before.

* `Within.mono`, `Within.trans`: a consequence, and two parts in a row;
* `Within.path`: a path of that length is cut where it has `P`.
-/

namespace Clocked

variable {α ε : Type*}

/-- From a state on, `P` holds after `n` steps at most, whichever steps are taken. -/
def Within (step : α → α → Prop) (P : α → Prop) : ℕ → α → Prop
  | 0, a => P a
  | n + 1, a => P a ∨ ((∃ b, step a b) ∧ ∀ b, step a b → Within step P n b)

namespace Within

variable {step : α → α → Prop} {P Q : α → Prop} {n m : ℕ} {a : α}

/-- `P` holds already. -/
theorem here (h : P a) : Within step P n a := by
  cases n with
  | zero => exact h
  | succ n => exact .inl h

/-- The condition that is reached can be weakened. -/
theorem mono (h : Within step P n a) (hPQ : ∀ b, P b → Q b) : Within step Q n a := by
  induction n generalizing a with
  | zero => exact hPQ a h
  | succ n ih =>
    rcases h with h | ⟨hex, hall⟩
    · exact .inl (hPQ a h)
    · exact .inr ⟨hex, fun b hb => ih (hall b hb)⟩

/-- So can the number of steps. -/
theorem le (h : Within step P n a) (hnm : n ≤ m) : Within step P m a := by
  induction n generalizing a m with
  | zero => exact here h
  | succ n ih =>
    obtain ⟨m, rfl⟩ : ∃ k, m = k + 1 := ⟨m - 1, by omega⟩
    rcases h with h | ⟨hex, hall⟩
    · exact .inl h
    · exact .inr ⟨hex, fun b hb => ih (hall b hb) (by omega)⟩

/-- From `P` on the system gets to `Q`. -/
theorem trans (h : Within step P n a) (hPQ : ∀ b, P b → Within step Q m b) :
    Within step Q (n + m) a := by
  induction n generalizing a with
  | zero => exact (hPQ a h).le (by omega)
  | succ n ih =>
    rcases h with h | ⟨hex, hall⟩
    · exact (hPQ a h).le (by omega)
    · rw [Nat.add_right_comm]
      exact .inr ⟨hex, fun b hb => ih (hall b hb)⟩

/-- A path that is long enough has passed through `P`. -/
theorem path {move : α → ε → α → Prop} (hmove : ∀ a e b, move a e b → step a b)
    (h : Within step P n a) {es : List ε} {b : α} (hp : Path move a es b) (hn : n ≤ es.length) :
    ∃ es₁ es₂ c, es = es₁ ++ es₂ ∧ es₁.length ≤ n ∧ Path move a es₁ c ∧ P c ∧
      Path move c es₂ b := by
  -- until then, what is left of the steps leads to `P`
  have hcut : (∃ es₁ es₂ c, es = es₁ ++ es₂ ∧ es₁.length ≤ n ∧ Path move a es₁ c ∧ P c ∧
      Path move c es₂ b) ∨ ∃ k, n = es.length + k ∧ Within step P k b := by
    clear hn
    induction hp with
    | nil => exact .inr ⟨n, by simp, h⟩
    | @snoc es b c e hp hstep ih =>
      rcases ih with ⟨es₁, es₂, d, rfl, hle, hp₁, hd, hp₂⟩ | ⟨k, rfl, hk⟩
      · exact .inl ⟨es₁, es₂ ++ [e], d, by simp, hle, hp₁, hd, hp₂.snoc hstep⟩
      · cases k with
        | zero => exact .inl ⟨es, [e], b, rfl, by simp, hp, hk, .snoc .nil hstep⟩
        | succ k =>
          rcases hk with hb | ⟨-, hall⟩
          · exact .inl ⟨es, [e], b, rfl, by simp, hp, hb, .snoc .nil hstep⟩
          · refine .inr ⟨k, ?_, hall c (hmove b e c hstep)⟩
            rw [List.length_append, List.length_singleton]
            omega
  rcases hcut with hcut | ⟨k, rfl, hk⟩
  · exact hcut
  · obtain rfl : k = 0 := by omega
    exact ⟨es, [], b, by simp, by simp, hp, hk, .nil⟩

end Within

end Clocked

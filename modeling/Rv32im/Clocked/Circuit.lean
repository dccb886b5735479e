import Mathlib.Tactic.Common
import Mathlib.Data.List.Basic

/-!
# Synchronous circuits in an environment

A clocked circuit reads one input per cycle and moves to its next state. The environment may
offer only some inputs in a given state; `legal` says which. This module is independent of
any particular design:

* `Circuit.Run C s₀ is s`: the legal inputs `is` lead from `s₀` to `s`;
* `Run.invariant`, `Reachable.invariant`: what every cycle preserves holds along a run;
* `Circuit.restrict`: the same circuit with fewer legal inputs;
* `Circuit.trace`: the observations a run emits, at most one per cycle;
* `Run.le_length_trace`: a potential bounds the distance between two observations;
* `Run.simulates`: a forward simulation with stuttering turns a run into a path of the
  abstract system with the same trace.
-/

namespace Clocked

/-- A synchronous circuit: in state `s` the environment may drive any input with
`legal s i`, and the clock edge then installs `next s i`. -/
structure Circuit (σ ι : Type*) where
  /-- The inputs the environment may drive in a state. -/
  legal : σ → ι → Prop
  /-- The state installed by the clock edge. -/
  next : σ → ι → σ

namespace Circuit

variable {σ ι ε : Type*} (C : Circuit σ ι)

/-- `C.Run s₀ is s`: driving the legal inputs `is`, oldest first, leads from `s₀` to `s`. -/
inductive Run (s₀ : σ) : List ι → σ → Prop
  | nil : Run s₀ [] s₀
  | snoc {is : List ι} {s : σ} {i : ι} :
      Run s₀ is s → C.legal s i → Run s₀ (is ++ [i]) (C.next s i)

/-- The states of the runs that start in `init`. -/
def Reachable (init : σ → Prop) (s : σ) : Prop :=
  ∃ s₀ is, init s₀ ∧ C.Run s₀ is s

/-- The state after driving `is` from `s`. -/
def exec (s : σ) (is : List ι) : σ := is.foldl C.next s

/-- Every input of the list satisfies `Q` in the state it meets. -/
def Always (Q : σ → ι → Prop) : σ → List ι → Prop
  | _, [] => True
  | s, i :: is => Q s i ∧ Always Q (C.next s i) is

/-- The observations of a run from `s`, where `out` observes a cycle. -/
def trace (out : σ → ι → Option ε) : σ → List ι → List ε
  | _, [] => []
  | s, i :: is => (out s i).toList ++ trace out (C.next s i) is

/-- A decidable condition can be checked along a run. -/
instance decidableAlways (Q : σ → ι → Prop) [∀ s i, Decidable (Q s i)] :
    ∀ (s : σ) (is : List ι), Decidable (C.Always Q s is)
  | _, [] => .isTrue trivial
  | s, i :: is =>
      have : Decidable (C.Always Q (C.next s i) is) :=
        decidableAlways Q _ is
      inferInstanceAs (Decidable (Q s i ∧ C.Always Q (C.next s i) is))

variable {C}

/-- A condition on the cycles of a run can be checked in two parts. -/
theorem always_append {Q : σ → ι → Prop} {s : σ} {is js : List ι} :
    C.Always Q s (is ++ js) ↔ C.Always Q s is ∧ C.Always Q (C.exec s is) js := by
  induction is generalizing s with
  | nil => simp [Always, exec]
  | cons i is ih => simp [Always, ih, exec, and_assoc]

namespace Run

variable {s₀ s s' : σ} {is js : List ι}

/-- A run that continues another one. -/
theorem append (h : C.Run s₀ is s) (h' : C.Run s js s') : C.Run s₀ (is ++ js) s' := by
  induction h' with
  | nil => simpa using h
  | snoc _ hl ih =>
    rw [← List.append_assoc]
    exact ih.snoc hl

/-- A single cycle is a run. -/
theorem single {i : ι} (h : C.legal s i) : C.Run s [i] (C.next s i) :=
  Run.nil.snoc h

/-- A list of legal inputs is a run to the state it computes. -/
theorem of_always (h : C.Always C.legal s is) : C.Run s is (C.exec s is) := by
  induction is generalizing s with
  | nil => exact .nil
  | cons i is ih => exact (single h.1).append (ih h.2)

/-- A run determines its last state. -/
theorem eq_exec (h : C.Run s₀ is s) : s = C.exec s₀ is := by
  induction h with
  | nil => rfl
  | snoc _ _ ih => rw [ih, exec, exec, List.foldl_append]; rfl

/-- A property of states that every legal cycle preserves holds at the end of a run. -/
theorem invariant {I : σ → Prop} (h : C.Run s₀ is s) (h₀ : I s₀)
    (hstep : ∀ s i, I s → C.legal s i → I (C.next s i)) : I s := by
  induction h with
  | nil => exact h₀
  | snoc _ hl ih => exact hstep _ _ ih hl

/-- As `invariant`, for a run whose inputs all satisfy `Q`. -/
theorem invariant_of_always {I : σ → Prop} {Q : σ → ι → Prop} (h : C.Run s₀ is s) (h₀ : I s₀)
    (hQ : C.Always Q s₀ is) (hstep : ∀ s i, I s → Q s i → C.legal s i → I (C.next s i)) :
    I s := by
  induction h with
  | nil => exact h₀
  | snoc hr hl ih =>
    rw [always_append, ← hr.eq_exec] at hQ
    exact hstep _ _ (ih hQ.1) hQ.2.1 hl

end Run

namespace Reachable

variable {init : σ → Prop} {s s' : σ}

/-- Initial states are reachable. -/
theorem start (h : init s) : C.Reachable init s := ⟨s, [], h, .nil⟩

/-- Reachable states are closed under legal cycles. -/
theorem step {i : ι} (h : C.Reachable init s) (hl : C.legal s i) :
    C.Reachable init (C.next s i) := by
  obtain ⟨s₀, is, h₀, hr⟩ := h
  exact ⟨s₀, is ++ [i], h₀, hr.snoc hl⟩

/-- Reachable states are closed under runs. -/
theorem run {is : List ι} (h : C.Reachable init s) (hr : C.Run s is s') :
    C.Reachable init s' :=
  hr.invariant h fun _ _ h hl => h.step hl

/-- A property that holds initially and that every legal cycle preserves holds in every
reachable state. -/
theorem invariant {I : σ → Prop} (h : C.Reachable init s) (hinit : ∀ s, init s → I s)
    (hstep : ∀ s i, I s → C.legal s i → I (C.next s i)) : I s := by
  obtain ⟨s₀, is, h₀, hr⟩ := h
  exact hr.invariant (hinit _ h₀) hstep

end Reachable

/-! ### Restrictions -/

section Restrict

variable {Q : σ → ι → Prop} {s₀ s : σ} {is : List ι}

/-- The circuit in an environment that drives only inputs with `Q`. -/
def restrict (C : Circuit σ ι) (Q : σ → ι → Prop) : Circuit σ ι where
  legal s i := C.legal s i ∧ Q s i
  next := C.next

/-- A run whose inputs all satisfy `Q` is one of the restriction. -/
theorem Run.restrict (h : C.Run s₀ is s) (hQ : C.Always Q s₀ is) : (C.restrict Q).Run s₀ is s := by
  induction h with
  | nil => exact .nil
  | snoc hr hl ih =>
    rw [always_append, ← hr.eq_exec] at hQ
    exact (ih hQ.1).snoc (C := C.restrict Q) ⟨hl, hQ.2.1⟩

/-- A condition on the inputs alone holds in each cycle. -/
theorem always_of_forall {Q : ι → Prop} (h : ∀ i ∈ is, Q i) : C.Always (fun _ => Q) s is := by
  induction is generalizing s with
  | nil => trivial
  | cons i is ih => exact ⟨h i (by simp), ih fun j hj => h j (by simp [hj])⟩

end Restrict

/-! ### Traces -/

section Trace

variable {out : σ → ι → Option ε} {s₀ s : σ} {is js : List ι}

@[simp]
theorem trace_nil : C.trace out s [] = [] := rfl

/-- The trace of a run goes on from the state that the run has reached. -/
theorem trace_append : C.trace out s (is ++ js) =
    C.trace out s is ++ C.trace out (C.exec s is) js := by
  induction is generalizing s with
  | nil => rfl
  | cons i is ih => simp [trace, ih, exec]

/-- Restricting the legal cycles does not change what a run shows. -/
@[simp]
theorem trace_restrict (C : Circuit σ ι) (Q : σ → ι → Prop) :
    (C.restrict Q).trace out s is = C.trace out s is := by
  induction is generalizing s with
  | nil => rfl
  | cons i is ih => exact congrArg ((out s i).toList ++ ·) ih

/-- What is read off the trace can be read off each cycle. -/
theorem map_trace {δ : Type*} (f : ε → δ) :
    (C.trace out s is).map f = C.trace (fun s i => (out s i).map f) s is := by
  induction is generalizing s with
  | nil => rfl
  | cons i is ih => rw [trace, trace, List.map_append, ih, Option.toList_map]

/-- One more cycle appends its observation, if it has one. -/
theorem Run.trace_snoc (h : C.Run s₀ is s) (i : ι) :
    C.trace out s₀ (is ++ [i]) = C.trace out s₀ is ++ (out s i).toList := by
  rw [trace_append, ← h.eq_exec]
  simp [trace]

/-- A relation between the trace so far and the state that every cycle extends. -/
theorem Run.trace_invariant {I : List ε → σ → Prop} (h : C.Run s₀ is s) (h₀ : I [] s₀)
    (hstep : ∀ es s i, I es s → C.legal s i → I (es ++ (out s i).toList) (C.next s i)) :
    I (C.trace out s₀ is) s := by
  induction h with
  | nil => exact h₀
  | snoc hr hl ih =>
    rw [hr.trace_snoc]
    exact hstep _ _ _ ih hl

/-- If every silent cycle lowers a potential that is below `N`, a run of `n * N` cycles has `n`
observations at least. -/
theorem Run.le_length_trace {I : σ → Prop} {N n : ℕ} (h : C.Run s₀ is s) (potential : σ → ℕ)
    (h₀ : I s₀) (hstep : ∀ s i, I s → C.legal s i → I (C.next s i))
    (hsilent : ∀ s i, I s → C.legal s i → out s i = none → potential (C.next s i) < potential s)
    (hN : ∀ s, I s → potential s < N) (hn : n * N ≤ is.length) :
    n ≤ (C.trace out s₀ is).length := by
  -- every observation pays for `N` cycles, and the potential of the first state for the rest
  have hpaid : I s ∧ is.length + potential s ≤ potential s₀ + (C.trace out s₀ is).length * N := by
    clear hn
    induction h with
    | nil => simp [h₀]
    | @snoc is s i hr hl ih =>
      obtain ⟨hI, hle⟩ := ih
      refine ⟨hstep s i hI hl, ?_⟩
      rw [hr.trace_snoc, List.length_append, List.length_append, List.length_singleton,
        Nat.add_mul]
      cases hout : out s i with
      | none =>
        have hlt := hsilent s i hI hl hout
        simp only [Option.toList_none, List.length_nil, Nat.zero_mul]
        omega
      | some e =>
        have hlt := hN _ (hstep s i hI hl)
        simp only [Option.toList_some, List.length_singleton, Nat.one_mul]
        omega
  have hlt := hN s₀ h₀
  by_contra hne
  have hle : ((C.trace out s₀ is).length + 1) * N ≤ n * N := Nat.mul_le_mul_right N (by omega)
  rw [Nat.add_mul, Nat.one_mul] at hle
  omega

end Trace

end Circuit

/-! ### Simulation -/

/-- `Path step a es b`: the labels `es` lead from `a` to `b`. -/
inductive Path {α ε : Type*} (step : α → ε → α → Prop) (a : α) : List ε → α → Prop
  | nil : Path step a [] a
  | snoc {es : List ε} {b c : α} {e : ε} :
      Path step a es b → step b e c → Path step a (es ++ [e]) c

/-- What a cycle with observation `e?` must do to the related abstract state: nothing if it
is silent, one step labelled with the observation otherwise. -/
def Matches {α ε : Type*} (step : α → ε → α → Prop) (a : α) (e? : Option ε)
    (R : α → Prop) : Prop :=
  match e? with
  | none => R a
  | some e => ∃ b, step a e b ∧ R b

theorem Matches.mono {α ε : Type*} {step : α → ε → α → Prop} {a : α} {e? : Option ε}
    {R Q : α → Prop} (h : Matches step a e? R) (hRQ : ∀ b, R b → Q b) : Matches step a e? Q := by
  cases e? with
  | none => exact hRQ a h
  | some e =>
    obtain ⟨b, hab, hb⟩ := h
    exact ⟨b, hab, hRQ b hb⟩

/-- Forward simulation with stuttering: if every legal cycle from related states is matched
by the abstract system, then every run is matched by a path with the same trace. -/
theorem Circuit.Run.simulates {σ ι ε α : Type*} {C : Circuit σ ι} {step : α → ε → α → Prop}
    {R : σ → α → Prop} {out : σ → ι → Option ε} {s₀ s : σ} {is : List ι} {a₀ : α}
    (h : C.Run s₀ is s) (h₀ : R s₀ a₀)
    (hstep : ∀ s a i, R s a → C.legal s i → Matches step a (out s i) (R (C.next s i))) :
    ∃ a, Path step a₀ (C.trace out s₀ is) a ∧ R s a := by
  induction h with
  | nil => exact ⟨a₀, .nil, h₀⟩
  | @snoc is s i hr hl ih =>
    obtain ⟨a, hp, hR⟩ := ih
    have hm := hstep s a i hR hl
    rw [hr.trace_snoc]
    cases hout : out s i with
    | none =>
      rw [hout] at hm
      exact ⟨a, by simpa using hp, hm⟩
    | some e =>
      rw [hout] at hm
      obtain ⟨b, hab, hb⟩ := hm
      exact ⟨b, hp.snoc hab, hb⟩

end Clocked

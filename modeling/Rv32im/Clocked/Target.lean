import Rv32im.Clocked.Circuit

/-!
# Bus targets

A target is a clocked circuit that accepts at most one request per cycle and shows its answer in
registers. Everything else it holds is its device. This module does not depend on what requests,
responses and devices are.

* `Target`: the bus side of a circuit, and its inputs with the request withdrawn;
* `Target.Atomic`: requests are answered in the next cycle, failing ones do nothing to the device,
  and a read does nothing but what `pop` says;
* `Target.withdraw`, `Target.Atomic.of_cycle`: what one cycle guarantees carries over to runs, from
  which all failing requests can be erased.
-/

namespace Clocked

/-- The bus side of a circuit with states `σ` and inputs `ι`. -/
structure Target (σ ι ρ τ δ : Type*) where
  /-- The request accepted in a cycle. -/
  accepted : σ → ι → Option ρ
  /-- The inputs of a cycle with the request withdrawn. -/
  quiet : ι → ι
  /-- The response shown by the registers. -/
  response : σ → Option τ
  /-- The state without the response registers. -/
  device : σ → δ
  /-- The state installed by the clock edge. -/
  next : σ → ι → σ

namespace Target

variable {σ ι ρ τ δ : Type*} (T : Target σ ι ρ τ δ)

/-- The request of this cycle is answered with a failure. -/
def fails (failed : τ → Bool) (s : σ) (i : ι) : Bool := (T.response (T.next s i)).any failed

/-- The state after a list of inputs. -/
def exec (s : σ) (is : List ι) : σ := is.foldl T.next s

/-- The inputs of a run from `s`, with the requests withdrawn that fail there. -/
def withdraw (failed : τ → Bool) : σ → List ι → List ι
  | _, [] => []
  | s, i :: is =>
    (if T.fails failed s i then T.quiet i else i) :: withdraw failed (T.next s i) is

/-- Every accepted request is answered in exactly the next cycle, a request that fails leaves the
device as a cycle without request does, and so does a read, apart from what it pops. -/
structure Atomic (legal : ι → Prop) (failed : τ → Bool) (reads : ρ → Prop) (pop : ρ → σ → σ) :
    Prop where
  answered : ∀ s i, legal i → (T.response (T.next s i)).isSome = (T.accepted s i).isSome
  failure : ∀ s i req rsp, legal i → T.accepted s i = some req →
    T.response (T.next s i) = some rsp → failed rsp = true →
    T.device (T.next s i) = T.device (T.next s (T.quiet i))
  read : ∀ s i req rsp, legal i → T.accepted s i = some req →
    T.response (T.next s i) = some rsp → failed rsp = false → reads req →
    T.device (T.next s i) = T.device (T.next (pop req s) (T.quiet i))
  /-- All failing requests of a run can be withdrawn at once. -/
  erased : ∀ s is, (∀ i ∈ is, legal i) →
    T.device (T.exec s is) = T.device (T.exec s (T.withdraw failed s is))

variable {T} {legal : ι → Prop} {failed : τ → Bool} {reads : ρ → Prop} {pop : ρ → σ → σ}

/-- A failing request leaves the device as a cycle without request does, from any state with the
same device. -/
theorem exec_withdraw
    (congr : ∀ s s' i, legal i → T.device s = T.device s' →
      T.device (T.next s i) = T.device (T.next s' i))
    (quiet : ∀ i, legal i → legal (T.quiet i))
    (fails : ∀ s i, legal i → T.fails failed s i = true →
      T.device (T.next s i) = T.device (T.next s (T.quiet i)))
    {is : List ι} (hl : ∀ i ∈ is, legal i) {s s' : σ} (h : T.device s = T.device s') :
    T.device (T.exec s is) = T.device (T.exec s' (T.withdraw failed s is)) := by
  induction is generalizing s s' with
  | nil => exact h
  | cons i is ih =>
    obtain ⟨hi, his⟩ := List.forall_mem_cons.mp hl
    simp only [exec, withdraw, List.foldl_cons]
    refine ih his ?_
    by_cases hf : T.fails failed s i = true
    · rw [if_pos hf, fails s i hi hf]
      exact congr _ _ _ (quiet i hi) h
    · rw [if_neg hf]
      exact congr _ _ _ hi h

/-- What each cycle guarantees makes a target atomic, if the device does not depend on the response
registers. -/
theorem Atomic.of_cycle
    (congr : ∀ s s' i, legal i → T.device s = T.device s' →
      T.device (T.next s i) = T.device (T.next s' i))
    (quiet : ∀ i, legal i → legal (T.quiet i))
    (answered : ∀ s i, legal i → (T.response (T.next s i)).isSome = (T.accepted s i).isSome)
    (failure : ∀ s i, legal i → T.fails failed s i = true →
      T.device (T.next s i) = T.device (T.next s (T.quiet i)))
    (read : ∀ s i req, legal i → T.accepted s i = some req → T.fails failed s i = false →
      reads req → T.device (T.next s i) = T.device (T.next (pop req s) (T.quiet i))) :
    T.Atomic legal failed reads pop where
  answered := answered
  failure s i req rsp hi _ hrsp hf := failure s i hi (by simp [fails, hrsp, hf])
  read s i req rsp hi hreq hrsp hf hr := read s i req hi hreq (by simp [fails, hrsp, hf]) hr
  erased s is hl := exec_withdraw congr quiet failure hl rfl

end Target

end Clocked

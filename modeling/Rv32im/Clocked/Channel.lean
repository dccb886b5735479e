import Mathlib.Tactic.Common
import Mathlib.Data.List.Basic

/-!
# Request/response channels

The history of one ready/valid port whose slave answers every accepted request exactly once
and in order: `accepted` lists the accepted requests and `answered` the responses, oldest
first, so that the `k`-th response answers the `k`-th request. Nothing here depends on what
requests and responses are.

* `Channel.Ok`: the slave answers only what was accepted, this cycle's request included;
* `Channel.step`: the history after a cycle;
* `Channel.Answered ch req rsp`: `rsp` answers an accepted request `req`, which stays true;
* `Channel.Quiet`, `Channel.Owes`: nothing, or exactly one request, is unanswered;
* `Channel.Pending`: the last request is unanswered, whatever became of those before it;
* `Channel.exchanges`: the answered requests with their answers.
-/

namespace Clocked

/-- The requests accepted and the responses given so far on one port, oldest first. -/
structure Channel (ρ τ : Type*) where
  accepted : List ρ := []
  answered : List τ := []
deriving DecidableEq

namespace Channel

variable {ρ τ : Type*}

/-- A response is legal only while an accepted request, possibly accepted in this very cycle,
is unanswered. -/
def Ok (ch : Channel ρ τ) (req : Option ρ) (rsp : Option τ) : Prop :=
  rsp.isSome → ch.answered.length < (ch.accepted ++ req.toList).length

/-- Whether a response is legal can be computed. -/
instance (ch : Channel ρ τ) (req : Option ρ) (rsp : Option τ) : Decidable (ch.Ok req rsp) :=
  inferInstanceAs (Decidable (_ → _))

/-- The history after a cycle that accepts `req` and answers `rsp`. -/
def step (ch : Channel ρ τ) (req : Option ρ) (rsp : Option τ) : Channel ρ τ where
  accepted := ch.accepted ++ req.toList
  answered := ch.answered ++ rsp.toList

/-- `rsp` is the answer to the `k`-th accepted request, which is `req`. -/
def AnsweredAt (ch : Channel ρ τ) (k : ℕ) (req : ρ) (rsp : τ) : Prop :=
  ch.accepted[k]? = some req ∧ ch.answered[k]? = some rsp

/-- `rsp` answers an accepted request `req`. -/
def Answered (ch : Channel ρ τ) (req : ρ) (rsp : τ) : Prop :=
  ∃ k, ch.AnsweredAt k req rsp

/-- Every accepted request has been answered. -/
def Quiet (ch : Channel ρ τ) : Prop :=
  ch.accepted.length = ch.answered.length

/-- Exactly the last accepted request, `req`, is unanswered. -/
def Owes (ch : Channel ρ τ) (req : ρ) : Prop :=
  ch.accepted.length = ch.answered.length + 1 ∧ ch.accepted.getLast? = some req

/-- The last accepted request is unanswered. -/
def Pending (ch : Channel ρ τ) : Prop :=
  ch.answered.length < ch.accepted.length

/-- Whether a request is unanswered can be computed. -/
instance (ch : Channel ρ τ) : Decidable ch.Pending := inferInstanceAs (Decidable (_ < _))

@[simp] theorem accepted_step (ch : Channel ρ τ) (req : Option ρ) (rsp : Option τ) :
    (ch.step req rsp).accepted = ch.accepted ++ req.toList := rfl

@[simp] theorem answered_step (ch : Channel ρ τ) (req : Option ρ) (rsp : Option τ) :
    (ch.step req rsp).answered = ch.answered ++ rsp.toList := rfl

@[simp] theorem step_none_none (ch : Channel ρ τ) : ch.step none none = ch := by
  simp [step]

/-- Answers are final: a later cycle never changes them. -/
theorem AnsweredAt.step {ch : Channel ρ τ} {k : ℕ} {req : ρ} {rsp : τ}
    (h : ch.AnsweredAt k req rsp) (req' : Option ρ) (rsp' : Option τ) :
    (ch.step req' rsp').AnsweredAt k req rsp := by
  obtain ⟨h₁, h₂⟩ := h
  have hlt₁ : k < ch.accepted.length := (List.getElem?_eq_some_iff.mp h₁).1
  have hlt₂ : k < ch.answered.length := (List.getElem?_eq_some_iff.mp h₂).1
  exact ⟨by rw [accepted_step, List.getElem?_append_left hlt₁, h₁],
    by rw [answered_step, List.getElem?_append_left hlt₂, h₂]⟩

/-- An answer stays the answer to its request. -/
theorem Answered.step {ch : Channel ρ τ} {req : ρ} {rsp : τ} (h : ch.Answered req rsp)
    (req' : Option ρ) (rsp' : Option τ) : (ch.step req' rsp').Answered req rsp := by
  obtain ⟨k, hk⟩ := h
  exact ⟨k, hk.step req' rsp'⟩

/-- The index of an answer is below the number of responses. -/
theorem AnsweredAt.lt {ch : Channel ρ τ} {k : ℕ} {req : ρ} {rsp : τ}
    (h : ch.AnsweredAt k req rsp) : k < ch.answered.length :=
  (List.getElem?_eq_some_iff.mp h.2).1

/-- A quiet channel answers only a request of the same cycle. -/
theorem Quiet.not_ok {ch : Channel ρ τ} (h : ch.Quiet) (rsp : τ) : ¬ ch.Ok none (some rsp) := by
  have hlen : ch.accepted.length = ch.answered.length := h
  simp [Ok, hlen]

theorem Quiet.step_none {ch : Channel ρ τ} (h : ch.Quiet) : (ch.step none none).Quiet := by
  simpa using h

/-- A quiet channel that accepts and answers a request in one cycle is quiet again. -/
theorem Quiet.step_some_some {ch : Channel ρ τ} (h : ch.Quiet) (req : ρ) (rsp : τ) :
    (ch.step (some req) (some rsp)).Quiet := by
  simp only [Quiet] at *
  simp [h]

/-- A quiet channel that accepts a request owes its answer. -/
theorem Quiet.step_some_none {ch : Channel ρ τ} (h : ch.Quiet) (req : ρ) :
    (ch.step (some req) none).Owes req := by
  simp only [Quiet] at h
  simp [Owes, h]

/-- The request a quiet channel accepts and answers at once gets the answer. -/
theorem Quiet.answeredAt {ch : Channel ρ τ} (h : ch.Quiet) (req : ρ) (rsp : τ) :
    (ch.step (some req) (some rsp)).AnsweredAt ch.answered.length req rsp := by
  simp only [Quiet] at h
  simp [AnsweredAt, ← h]

/-- The answer settles what is owed. -/
theorem Owes.step_none_some {ch : Channel ρ τ} {req : ρ} (h : ch.Owes req) (rsp : τ) :
    (ch.step none (some rsp)).Quiet := by
  simp [Quiet, h.1]

/-- An owed answer may arrive in the cycle that accepts the next request. -/
theorem Owes.step_some_some {ch : Channel ρ τ} {req : ρ} (h : ch.Owes req) (req' : ρ)
    (rsp : τ) : (ch.step (some req') (some rsp)).Owes req' := by
  simp [Owes, h.1]

/-- The response that arrives is the answer to the request owed. -/
theorem Owes.answeredAt {ch : Channel ρ τ} {req : ρ} (h : ch.Owes req) (req' : Option ρ)
    (rsp : τ) : (ch.step req' (some rsp)).AnsweredAt ch.answered.length req rsp := by
  obtain ⟨hlen, hlast⟩ := h
  have hlt : ch.answered.length < ch.accepted.length := by omega
  refine ⟨?_, by simp⟩
  rw [accepted_step, List.getElem?_append_left hlt, ← hlast, List.getLast?_eq_getElem?]
  congr 1
  omega

theorem Owes.length_le {ch : Channel ρ τ} {req : ρ} (h : ch.Owes req) :
    ch.answered.length ≤ ch.accepted.length := by
  rw [h.1]
  exact Nat.le_succ _

/-- An answer of which a cycle without response knows was given before. -/
theorem AnsweredAt.of_step_none {ch : Channel ρ τ} {k : ℕ} {req : ρ} {rsp : τ} {req' : Option ρ}
    (h : (ch.step req' none).AnsweredAt k req rsp)
    (hle : ch.answered.length ≤ ch.accepted.length) : ch.AnsweredAt k req rsp := by
  obtain ⟨h₁, h₂⟩ := h
  rw [answered_step, Option.toList_none, List.append_nil] at h₂
  have hlt := (List.getElem?_eq_some_iff.mp h₂).1
  rw [accepted_step, List.getElem?_append_left (by omega)] at h₁
  exact ⟨h₁, h₂⟩

/-- An answer after a cycle with response was given before, or it is that of the request owed. -/
theorem Owes.answeredAt_cases {ch : Channel ρ τ} {k : ℕ} {req owed : ρ} {rsp rsp' : τ}
    {req' : Option ρ} (h : ch.Owes owed)
    (hans : (ch.step req' (some rsp')).AnsweredAt k req rsp) :
    ch.AnsweredAt k req rsp ∨ k = ch.answered.length ∧ req = owed ∧ rsp = rsp' := by
  have hlen := hans.lt
  rw [answered_step, Option.toList_some, List.length_append, List.length_singleton] at hlen
  by_cases hk : k < ch.answered.length
  · have hacc : k < ch.accepted.length := Nat.lt_of_lt_of_le hk h.length_le
    obtain ⟨h₁, h₂⟩ := hans
    rw [accepted_step, List.getElem?_append_left hacc] at h₁
    rw [answered_step, List.getElem?_append_left hk] at h₂
    exact .inl ⟨h₁, h₂⟩
  · obtain rfl : k = ch.answered.length := by omega
    obtain ⟨h₁, h₂⟩ := h.answeredAt req' rsp'
    rw [hans.1] at h₁
    rw [hans.2] at h₂
    exact .inr ⟨rfl, Option.some.inj h₁, Option.some.inj h₂⟩

/-! ### Open requests -/

theorem Owes.pending {ch : Channel ρ τ} {req : ρ} (h : ch.Owes req) : ch.Pending := by
  rw [Pending, h.1]
  exact Nat.lt_succ_self _

/-- A request stays unanswered in a cycle without answer. -/
theorem Pending.step_none {ch : Channel ρ τ} (h : ch.Pending) (req : Option ρ) :
    (ch.step req none).Pending := by
  simp only [Pending, accepted_step, answered_step, List.length_append] at *
  simp only [Option.toList_none, List.length_nil]
  omega

/-- A request accepted in a cycle without answer is unanswered. -/
theorem pending_step_some {ch : Channel ρ τ} (h : ch.answered.length ≤ ch.accepted.length)
    (req : ρ) : (ch.step (some req) none).Pending := by
  simpa [Pending] using Nat.lt_succ_of_le h

/-- Legal answers never outnumber the requests. -/
theorem Ok.length_le {ch : Channel ρ τ} {req : Option ρ} {rsp : Option τ} (hok : ch.Ok req rsp)
    (h : ch.answered.length ≤ ch.accepted.length) :
    (ch.step req rsp).answered.length ≤ (ch.step req rsp).accepted.length := by
  cases rsp with
  | none => simpa using Nat.le_add_right_of_le h
  | some r => simpa [Nat.succ_le_iff] using hok rfl

/-! ### Exchanges -/

/-- The answered requests with their answers. -/
def exchanges (ch : Channel ρ τ) : List (ρ × τ) := ch.accepted.zip ch.answered

/-- If nothing is owed, each request has been answered. -/
theorem Quiet.accepted_eq {ch : Channel ρ τ} (h : ch.Quiet) :
    ch.accepted = ch.exchanges.map Prod.fst :=
  (List.map_fst_zip (Nat.le_of_eq h)).symm

/-- A channel that owes an answer has exchanged all its requests but the last. -/
theorem Owes.exists_accepted {ch : Channel ρ τ} {req : ρ} (h : ch.Owes req) :
    ∃ rs, ch.accepted = rs ++ [req] ∧ rs.length = ch.answered.length := by
  obtain ⟨hlen, hlast⟩ := h
  obtain ⟨rs, hrs⟩ := List.getLast?_eq_some_iff.mp hlast
  exact ⟨rs, hrs, by simpa [hrs] using hlen⟩

/-- Otherwise each but the last. -/
theorem Owes.accepted_eq {ch : Channel ρ τ} {req : ρ} (h : ch.Owes req) :
    ch.accepted = ch.exchanges.map Prod.fst ++ [req] := by
  obtain ⟨rs, hrs, hlen⟩ := h.exists_accepted
  have hzip : ch.exchanges = rs.zip ch.answered := by
    rw [exchanges, hrs, ← List.append_nil ch.answered, List.zip_append hlen]
    simp
  rw [hzip, List.map_fst_zip (Nat.le_of_eq hlen), hrs]

/-- A quiet channel exchanges nothing by accepting a request. -/
theorem Quiet.exchanges_step {ch : Channel ρ τ} (h : ch.Quiet) (req : Option ρ) :
    (ch.step req none).exchanges = ch.exchanges := by
  rw [exchanges, accepted_step, answered_step, Option.toList_none, List.zip_append h]
  simp [exchanges]

/-- The answer that arrives completes the exchange of the request owed. -/
theorem Owes.exchanges_step {ch : Channel ρ τ} {req : ρ} (h : ch.Owes req) (req' : Option ρ)
    (rsp : τ) : (ch.step req' (some rsp)).exchanges = ch.exchanges ++ [(req, rsp)] := by
  obtain ⟨rs, hrs, hlen⟩ := h.exists_accepted
  rw [exchanges, exchanges, accepted_step, answered_step, hrs, List.append_assoc,
    List.zip_append hlen, ← List.append_nil ch.answered, List.zip_append hlen]
  simp

end Channel

end Clocked

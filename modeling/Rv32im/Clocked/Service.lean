import Mathlib.Logic.Function.Iterate
import Rv32im.Clocked.Circuit

/-!
# Units that serve one operation at a time

A unit accepts an operation, offers its response until it is taken and may be told to drop the
operation. The ledger of a run lists its operations with what became of them; a unit serves if
every response it offers is one of the operation at hand and stays until it is taken. Nothing here
depends on what operations and responses are.

* `Ports`: what is seen at the unit in one cycle;
* `Ledger`, `Ledger.step`: the operations so far, the last of them perhaps still open;
* `Ledger.Lawful`: what a cycle may do;
* `Serves`: what holds along a run, and `Serves.of_invariant`: how to prove it;
* `Blocking`: a unit that is idle, at work or offering its result; `Blocking.serves`: it serves,
  and offers the result of an operation that is not dropped in bounded time.
-/

namespace Clocked

variable {σ ι α τ : Type*}

/-- What is seen at a unit in one cycle: the operation it accepts, the response it offers, whether
an offered response is taken and whether the operation at hand is dropped. -/
structure Ports (α τ : Type*) where
  accept : Option α
  offer : Option τ
  ready : Bool
  cancel : Bool

/-- The response that leaves the unit in a cycle. -/
def Ports.taken (p : Ports α τ) : Option τ := if p.ready then p.offer else none

/-- The operations of a unit: the settled ones, each with the response taken for it or `none` if
it was dropped, oldest first, and the one that is still open. -/
structure Ledger (α τ : Type*) where
  settled : List (α × Option τ) := []
  current : Option α := none
deriving DecidableEq

namespace Ledger

variable {l : Ledger α τ} {p : Ports α τ} {spec spec' : α → τ → Prop}

/-- The operation at hand in a cycle: the open one, or the one accepted now. -/
def atHand (l : Ledger α τ) (p : Ports α τ) : Option α := l.current.or p.accept

/-- The operation `a` is over. -/
def settle (l : Ledger α τ) (a : α) (v : Option τ) : Ledger α τ :=
  { settled := l.settled ++ [(a, v)] }

/-- The ledger after a cycle. A response taken in the cycle of the cancellation counts. -/
def step (l : Ledger α τ) (p : Ports α τ) : Ledger α τ :=
  match l.atHand p with
  | none => l
  | some a =>
    match p.taken with
    | some v => l.settle a (some v)
    | none => if p.cancel then l.settle a none else { l with current := some a }

/-- All operations accepted so far. -/
def accepted (l : Ledger α τ) : List α := l.settled.map Prod.fst ++ l.current.toList

/-- All responses taken so far. -/
def responses (l : Ledger α τ) : List τ := l.settled.filterMap Prod.snd

/-- Settled operations stay settled. -/
theorem length_settled_le (l : Ledger α τ) (p : Ports α τ) :
    l.settled.length ≤ (l.step p).settled.length := by
  unfold step settle
  split
  · exact Nat.le_refl _
  · split
    · simp
    · split <;> simp

/-- Every response taken is one of its operation. -/
def Correct (l : Ledger α τ) (spec : α → τ → Prop) : Prop :=
  ∀ a v, (a, some v) ∈ l.settled → spec a v

/-- What a cycle may do: an operation is accepted only when none is open, and a response is offered
only for the operation at hand. -/
structure Lawful (l : Ledger α τ) (p : Ports α τ) (spec : α → τ → Prop) : Prop where
  blocking : p.accept.isSome → l.current = none
  answers : ∀ v, p.offer = some v → ∃ a, l.atHand p = some a ∧ spec a v

/-- The operation under way is at hand. -/
theorem atHand_of_current {a : α} (h : l.current = some a) : l.atHand p = some a := by
  simp [atHand, h]

/-- If there is none, then the one that is accepted. -/
theorem atHand_of_none (h : l.current = none) : l.atHand p = p.accept := by
  simp [atHand, h]

/-- A cycle without operation changes nothing. -/
theorem step_of_none (h : l.atHand p = none) : l.step p = l := by
  simp [step, h]

/-- Taking the result settles the operation at hand. -/
theorem step_of_taken {a : α} {v : τ} (h : l.atHand p = some a) (hv : p.taken = some v) :
    l.step p = l.settle a (some v) := by
  simp [step, h, hv]

/-- So does giving it up, without a result. -/
theorem step_of_cancel {a : α} (h : l.atHand p = some a) (hv : p.taken = none)
    (hc : p.cancel = true) : l.step p = l.settle a none := by
  simp [step, h, hv, hc]

/-- Otherwise it stays at hand. -/
theorem step_of_open {a : α} (h : l.atHand p = some a) (hv : p.taken = none)
    (hc : p.cancel = false) : l.step p = { l with current := some a } := by
  simp [step, h, hv, hc]

theorem taken_eq_some {v : τ} (h : p.taken = some v) : p.offer = some v ∧ p.ready = true := by
  unfold Ports.taken at h
  split at h
  next hr => exact ⟨h, hr⟩
  next => contradiction

/-- What a lawful cycle does to the ledger. -/
theorem Lawful.step_cases (h : l.Lawful p spec) :
    (l.current = none ∧ p.accept = none ∧ p.taken = none ∧ l.step p = l) ∨
      ∃ a, l.atHand p = some a ∧
        ((∃ v, p.taken = some v ∧ spec a v ∧ l.step p = l.settle a (some v)) ∨
          (p.taken = none ∧ p.cancel = true ∧ l.step p = l.settle a none) ∨
          (p.taken = none ∧ p.cancel = false ∧ l.step p = { l with current := some a })) := by
  cases ha : l.atHand p with
  | none =>
    obtain ⟨hcur, hacc⟩ := Option.or_eq_none_iff.mp ha
    refine .inl ⟨hcur, hacc, ?_, step_of_none ha⟩
    by_contra hne
    obtain ⟨v, hv⟩ := Option.ne_none_iff_exists'.mp hne
    obtain ⟨a, hat, -⟩ := h.answers v (taken_eq_some hv).1
    rw [ha] at hat
    contradiction
  | some a =>
    refine .inr ⟨a, rfl, ?_⟩
    cases hv : p.taken with
    | some v =>
      -- a response that leaves the unit was offered for the operation at hand
      obtain ⟨b, hb, hspec⟩ := h.answers v (taken_eq_some hv).1
      obtain rfl := Option.some.inj (ha.symm.trans hb)
      exact .inl ⟨v, rfl, hspec, step_of_taken ha hv⟩
    | none =>
      cases hc : p.cancel with
      | true => exact .inr (.inl ⟨rfl, rfl, step_of_cancel ha hv hc⟩)
      | false => exact .inr (.inr ⟨rfl, rfl, step_of_open ha hv hc⟩)

/-- The operation at hand is the next one of the list of accepted operations. -/
private theorem accepted_of_atHand (h : l.Lawful p spec) {a : α} (ha : l.atHand p = some a) :
    l.settled.map Prod.fst ++ [a] = l.accepted ++ p.accept.toList := by
  unfold accepted
  cases hc : l.current with
  | none =>
    rw [atHand_of_none hc] at ha
    simp [ha]
  | some b =>
    rw [atHand_of_current hc] at ha
    obtain rfl := Option.some.inj ha
    have hacc : p.accept = none := by
      by_contra hne
      have := h.blocking (Option.isSome_iff_ne_none.mpr hne)
      simp [hc] at this
    simp [hacc]

/-- The ledger lists every accepted operation. -/
theorem accepted_step (h : l.Lawful p spec) :
    (l.step p).accepted = l.accepted ++ p.accept.toList := by
  obtain ⟨-, hacc, -, hl⟩ | ⟨a, ha, ⟨v, -, -, hl⟩ | ⟨-, -, hl⟩ | ⟨-, -, hl⟩⟩ := h.step_cases
  · simp [hl, hacc]
  all_goals
    rw [hl, ← accepted_of_atHand h ha]
    simp [accepted, settle]

/-- The ledger lists every response taken. -/
theorem responses_step (h : l.Lawful p spec) :
    (l.step p).responses = l.responses ++ p.taken.toList := by
  obtain ⟨-, -, hv, hl⟩ | ⟨a, -, ⟨v, hv, -, hl⟩ | ⟨hv, -, hl⟩ | ⟨hv, -, hl⟩⟩ := h.step_cases <;>
    simp [hl, hv, responses, settle]

/-- Lawful cycles keep the ledger correct. -/
theorem Correct.step (hc : l.Correct spec) (h : l.Lawful p spec')
    (hmono : ∀ a v, spec a v → spec' a v) : (l.step p).Correct spec' := by
  have hold : l.Correct spec' := fun a v hm => hmono a v (hc a v hm)
  -- settling adds one pair to the list, and only a taken response must be right
  have hsettle (a : α) (v? : Option τ) (hv : ∀ v, v? = some v → spec' a v) :
      (l.settle a v?).Correct spec' := by
    intro b v hm
    rcases List.mem_append.mp hm with hm | hm
    · exact hold b v hm
    · obtain ⟨rfl, rfl⟩ := Prod.mk.inj (List.mem_singleton.mp hm)
      exact hv v rfl
  obtain ⟨-, -, -, hl⟩ | ⟨a, -, ⟨v, -, hspec, hl⟩ | ⟨-, -, hl⟩ | ⟨-, -, hl⟩⟩ := h.step_cases
  · rwa [hl]
  · rw [hl]
    exact hsettle a _ fun _ hv => Option.some.inj hv ▸ hspec
  · rw [hl]
    exact hsettle a _ fun _ hv => nomatch hv
  · rwa [hl]

/-- No operation is open after a cancellation. -/
theorem current_step_of_cancel (hc : p.cancel = true) : (l.step p).current = none := by
  cases ha : l.atHand p with
  | none =>
    rw [step_of_none ha]
    exact (Option.or_eq_none_iff.mp ha).1
  | some a =>
    cases hv : p.taken with
    | some v =>
      rw [step_of_taken ha hv]
      rfl
    | none =>
      rw [step_of_cancel ha hv hc]
      rfl

end Ledger

/-! ### Runs -/

/-- A unit with the ledger of its run. -/
structure Ledgered (σ α τ : Type*) where
  state : σ
  ledger : Ledger α τ := {}

/-- A circuit that keeps its ledger. -/
def Circuit.withLedger (C : Circuit σ ι) (ports : σ → ι → Ports α τ) :
    Circuit (Ledgered σ α τ) ι where
  legal s i := C.legal s.state i
  next s i := { state := C.next s.state i, ledger := s.ledger.step (ports s.state i) }

/-- A circuit with a ledger is as decidable as the circuit. -/
instance (C : Circuit σ ι) (ports : σ → ι → Ports α τ) [∀ s i, Decidable (C.legal s i)]
    (s : Ledgered σ α τ) (i : ι) : Decidable ((C.withLedger ports).legal s i) :=
  inferInstanceAs (Decidable (C.legal s.state i))

/-- What holds in the state `s` after a run `is` of a unit from `s₀`, where `spec` says which
responses an operation may get in view of the state after the cycle. -/
structure Serves (C : Circuit σ ι) (ports : σ → ι → Ports α τ) (spec : σ → α → τ → Prop)
    (s₀ : σ) (is : List ι) (s : Ledgered σ α τ) : Prop where
  /-- The ledger lists the accepted operations and the responses taken, in order. -/
  accepted : s.ledger.accepted =
    (C.withLedger ports).trace (fun s i => (ports s.state i).accept) { state := s₀ } is
  responses : s.ledger.responses =
    (C.withLedger ports).trace (fun s i => (ports s.state i).taken) { state := s₀ } is
  /-- Responses are those of their operations. -/
  correct : s.ledger.Correct (spec s.state)
  /-- So are the responses offered in a further cycle, and no second operation is accepted. -/
  lawful : ∀ i, C.legal s.state i →
    s.ledger.Lawful (ports s.state i) (spec (C.next s.state i))
  /-- A response that is neither taken nor dropped is offered again, unchanged. -/
  held : ∀ i j v, C.legal s.state i → (ports s.state i).offer = some v →
    (ports s.state i).ready = false → (ports s.state i).cancel = false →
    (ports (C.next s.state i) j).cancel = false → (ports (C.next s.state i) j).offer = some v

/-- A unit serves if an invariant makes every cycle lawful and keeps its responses. -/
theorem Serves.of_invariant {C : Circuit σ ι} {ports : σ → ι → Ports α τ}
    {spec : σ → α → τ → Prop} {Inv : Ledgered σ α τ → Prop} {s₀ : σ} {is : List ι}
    {s : Ledgered σ α τ} (h : (C.withLedger ports).Run { state := s₀ } is s)
    (h₀ : Inv { state := s₀ })
    (hstep : ∀ s i, Inv s → C.legal s.state i → Inv ((C.withLedger ports).next s i))
    (hlawful : ∀ s i, Inv s → C.legal s.state i →
      s.ledger.Lawful (ports s.state i) (spec (C.next s.state i)))
    (hheld : ∀ s i j v, Inv s → C.legal s.state i → (ports s.state i).offer = some v →
      (ports s.state i).ready = false → (ports s.state i).cancel = false →
      (ports (C.next s.state i) j).cancel = false → (ports (C.next s.state i) j).offer = some v)
    (hmono : ∀ s i a v, C.legal s i → spec s a v → spec (C.next s i) a v) :
    Inv s ∧ Serves C ports spec s₀ is s := by
  -- the part of the statement that the run extends cycle by cycle
  suffices hrun : Inv s ∧ s.ledger.accepted = (C.withLedger ports).trace
        (fun s i => (ports s.state i).accept) { state := s₀ } is ∧
      s.ledger.responses = (C.withLedger ports).trace
        (fun s i => (ports s.state i).taken) { state := s₀ } is ∧
      s.ledger.Correct (spec s.state) by
    obtain ⟨hinv, hacc, hrsp, hc⟩ := hrun
    exact ⟨hinv, hacc, hrsp, hc, fun i => hlawful s i hinv, fun i j v => hheld s i j v hinv⟩
  induction h with
  | nil => exact ⟨h₀, rfl, rfl, fun a v hm => nomatch hm⟩
  | snoc hr hl ih =>
    obtain ⟨hinv, hacc, hrsp, hc⟩ := ih
    have hlaw := hlawful _ _ hinv hl
    refine ⟨hstep _ _ hinv hl, ?_, ?_, hc.step hlaw fun a v => hmono _ _ a v hl⟩
    · rw [hr.trace_snoc, ← hacc]
      exact Ledger.accepted_step hlaw
    · rw [hr.trace_snoc, ← hrsp]
      exact Ledger.responses_step hlaw

/-! ### Blocking units -/

/-- A unit that is idle, at work on an operation, or offering its result until it is taken. `rank`
bounds the cycles it still has to work. -/
structure Blocking (C : Circuit σ ι) (ports : σ → ι → Ports α τ) (spec : α → τ → Prop)
    (idle resp : σ → Prop) (Works : σ → α → Prop) (result : σ → τ) (rank : σ → ℕ) : Prop where
  disjoint : ∀ q, idle q → ¬ resp q
  accept : ∀ q i a, (ports q i).accept = some a → idle q ∧ (ports q i).cancel = false
  offer : ∀ q i v, (ports q i).offer = some v → resp q ∧ v = result q
  offers : ∀ q i, resp q → (ports q i).cancel = false → (ports q i).offer = some (result q)
  correct : ∀ q a, resp q → Works q a → spec a (result q)
  rank_pos : ∀ q, ¬ idle q → ¬ resp q → 0 < rank q
  cancels : ∀ q i, (ports q i).cancel = true → idle (C.next q i)
  waits : ∀ q i, idle q → (ports q i).cancel = false → (ports q i).accept = none →
    idle (C.next q i)
  starts : ∀ q i a, C.legal q i → (ports q i).accept = some a →
    ¬ idle (C.next q i) ∧ Works (C.next q i) a
  works : ∀ q i a, ¬ idle q → ¬ resp q → (ports q i).cancel = false → Works q a →
    ¬ idle (C.next q i) ∧ Works (C.next q i) a ∧ (resp (C.next q i) ∨ rank (C.next q i) < rank q)
  takes : ∀ q i, resp q → (ports q i).cancel = false → (ports q i).ready = true →
    idle (C.next q i)
  holds : ∀ q i, resp q → (ports q i).cancel = false → (ports q i).ready = false →
    C.next q i = q

namespace Blocking

variable {C : Circuit σ ι} {ports : σ → ι → Ports α τ} {spec : α → τ → Prop}
  {idle resp : σ → Prop} {Works : σ → α → Prop} {result : σ → τ} {rank : σ → ℕ}
  {s s' : Ledgered σ α τ} {i : ι}

/-- The unit is idle exactly if no operation is open, and works on the open one. -/
def Inv (idle : σ → Prop) (Works : σ → α → Prop) (s : Ledgered σ α τ) : Prop :=
  idle s.state ∧ s.ledger.current = none ∨
    ¬ idle s.state ∧ ∃ a, s.ledger.current = some a ∧ Works s.state a

/-- A unit without a result offers nothing. -/
theorem offer_none (h : Blocking C ports spec idle resp Works result rank) {q : σ}
    (hq : ¬ resp q) : (ports q i).offer = none := by
  by_contra hne
  obtain ⟨v, hv⟩ := Option.ne_none_iff_exists'.mp hne
  exact hq (h.offer q i v hv).1

/-- A unit that is not responding offers nothing. -/
theorem taken_none (h : Blocking C ports spec idle resp Works result rank) {q : σ}
    (hq : ¬ resp q) : (ports q i).taken = none := by
  rw [Ports.taken, h.offer_none hq, ite_self]

/-- What a cycle without cancellation does to an open operation: it stays open until its result is
taken. -/
theorem step_open (h : Blocking C ports spec idle resp Works result rank) {a : α}
    (hidle : ¬ idle s.state) (hcur : s.ledger.current = some a) (hw : Works s.state a)
    (hc : (ports s.state i).cancel = false) :
    (resp s.state ∧ idle (C.next s.state i) ∧
        s.ledger.step (ports s.state i) = s.ledger.settle a (some (result s.state))) ∨
      ¬ idle (C.next s.state i) ∧ Works (C.next s.state i) a ∧
        s.ledger.step (ports s.state i) = s.ledger ∧
        (resp (C.next s.state i) ∨
          ¬ resp s.state ∧ rank (C.next s.state i) < rank s.state) := by
  have hat := Ledger.atHand_of_current (p := ports s.state i) hcur
  have hopen (hv : (ports s.state i).taken = none) :
      s.ledger.step (ports s.state i) = s.ledger := by
    rw [Ledger.step_of_open hat hv hc, ← hcur]
  by_cases hr : resp s.state
  · have hoffer := h.offers s.state i hr hc
    cases hready : (ports s.state i).ready with
    | true =>
      have hv : (ports s.state i).taken = some (result s.state) := by
        rw [Ports.taken, hready, hoffer, if_pos rfl]
      exact .inl ⟨hr, h.takes _ _ hr hc hready, Ledger.step_of_taken hat hv⟩
    | false =>
      have hv : (ports s.state i).taken = none := by simp [Ports.taken, hready]
      rw [h.holds _ _ hr hc hready]
      exact .inr ⟨hidle, hw, hopen hv, .inl hr⟩
  · obtain ⟨hi, hw', hrank⟩ := h.works _ _ a hidle hr hc hw
    exact .inr ⟨hi, hw', hopen (h.taken_none hr), hrank.imp_right fun hlt => ⟨hr, hlt⟩⟩

/-- The invariant is kept by each cycle. -/
theorem Inv.next (hinv : Inv idle Works s)
    (h : Blocking C ports spec idle resp Works result rank) (hl : C.legal s.state i) :
    Inv idle Works ((C.withLedger ports).next s i) := by
  change idle (C.next s.state i) ∧ (s.ledger.step (ports s.state i)).current = none ∨
    ¬ idle (C.next s.state i) ∧ ∃ a, (s.ledger.step (ports s.state i)).current = some a ∧
      Works (C.next s.state i) a
  cases hc : (ports s.state i).cancel with
  | true => exact .inl ⟨h.cancels _ _ hc, Ledger.current_step_of_cancel hc⟩
  | false =>
    obtain ⟨hidle, hcur⟩ | ⟨hidle, a, hcur, hw⟩ := hinv
    · have hat := Ledger.atHand_of_none (p := ports s.state i) hcur
      cases ha : (ports s.state i).accept with
      | none =>
        rw [Ledger.step_of_none (hat.trans ha)]
        exact .inl ⟨h.waits _ _ hidle hc ha, hcur⟩
      | some a =>
        obtain ⟨hi, hw⟩ := h.starts _ _ a hl ha
        rw [Ledger.step_of_open (hat.trans ha) (h.taken_none (h.disjoint _ hidle)) hc]
        exact .inr ⟨hi, a, rfl, hw⟩
    · obtain ⟨-, hi, hstep⟩ | ⟨hi, hw', hstep, -⟩ := h.step_open hidle hcur hw hc
      · rw [hstep]
        exact .inl ⟨hi, rfl⟩
      · rw [hstep]
        exact .inr ⟨hi, a, hcur, hw'⟩

/-- With the invariant the ports obey the rules in each cycle. -/
theorem Inv.lawful (hinv : Inv idle Works s)
    (h : Blocking C ports spec idle resp Works result rank) :
    s.ledger.Lawful (ports s.state i) spec := by
  constructor
  · intro hacc
    obtain ⟨a, ha⟩ := Option.isSome_iff_exists.mp hacc
    obtain ⟨-, hcur⟩ | ⟨hidle, -⟩ := hinv
    · exact hcur
    · exact absurd (h.accept _ _ a ha).1 hidle
  · intro v hv
    obtain ⟨hr, rfl⟩ := h.offer _ _ v hv
    obtain ⟨hidle, -⟩ | ⟨-, a, hcur, hw⟩ := hinv
    · exact absurd hr (h.disjoint _ hidle)
    · exact ⟨a, Ledger.atHand_of_current hcur, h.correct _ a hr hw⟩

/-- A blocking unit serves. -/
theorem serves (h : Blocking C ports spec idle resp Works result rank) {s₀ : σ} {is : List ι}
    (h₀ : idle s₀) (hr : (C.withLedger ports).Run { state := s₀ } is s) :
    Inv idle Works s ∧ Serves C ports (fun _ => spec) s₀ is s := by
  refine Serves.of_invariant hr (.inl ⟨h₀, rfl⟩) (fun s i hi hl => hi.next h hl)
    (fun s i hi _ => hi.lawful h) ?_ (fun _ _ _ _ _ hv => hv)
  intro s i j v _ _ hv hready hc hcj
  obtain ⟨hresp, rfl⟩ := h.offer _ _ v hv
  rw [h.holds _ _ hresp hc hready] at hcj ⊢
  exact h.offers _ _ hresp hcj

/-- After as many cycles without cancellation as the rank says, the open operation has got its
response or is offered it. -/
theorem prompt (h : Blocking C ports spec idle resp Works result rank) {js : List ι}
    (hinv : Inv idle Works s) (hopen : s.ledger.current.isSome)
    (hr : (C.withLedger ports).Run s js s')
    (hc : (C.withLedger ports).Always (fun s i => (ports s.state i).cancel = false) s js)
    (hlen : rank s.state ≤ js.length) :
    s.ledger.settled.length < s'.ledger.settled.length ∨ resp s'.state := by
  -- along the run the operation is settled, offered, or has come closer to its result
  suffices hrun : s.ledger.settled.length < s'.ledger.settled.length ∨
      Inv idle Works s' ∧ s'.ledger = s.ledger ∧
        (resp s'.state ∨ rank s'.state + js.length ≤ rank s.state) by
    obtain hlt | ⟨hinv', hled, hresp | hrank⟩ := hrun
    · exact .inl hlt
    · exact .inr hresp
    · refine .inr ?_
      by_contra hresp
      obtain ⟨-, hcur⟩ | ⟨hidle, -⟩ := hinv'
      · simp [hled ▸ hcur] at hopen
      · have hpos := h.rank_pos _ hidle hresp
        omega
  clear hlen
  induction hr with
  | nil => exact .inr ⟨hinv, rfl, .inr (by simp)⟩
  | @snoc js t i hr hl ih =>
    rw [Circuit.always_append, ← hr.eq_exec] at hc
    obtain ⟨hc, hci, -⟩ := hc
    have hle := Ledger.length_settled_le t.ledger (ports t.state i)
    obtain hlt | ⟨hinv', hled, hnear⟩ := ih hc
    · exact .inl (Nat.lt_of_lt_of_le hlt hle)
    · obtain ⟨-, hcur⟩ | ⟨hidle, a, hcur, hw⟩ := id hinv'
      · simp [hled ▸ hcur] at hopen
      · obtain ⟨-, -, hstep⟩ | ⟨-, -, hstep, hnext⟩ := h.step_open hidle hcur hw hci
        · refine .inl ?_
          change s.ledger.settled.length < (t.ledger.step (ports t.state i)).settled.length
          rw [hstep, hled]
          simp [Ledger.settle]
        · refine .inr ⟨hinv'.next h hl, hstep.trans hled, ?_⟩
          change resp (C.next t.state i) ∨ rank (C.next t.state i) + (js ++ [i]).length ≤ _
          rw [List.length_append, List.length_singleton]
          obtain hresp | ⟨hresp, hlt⟩ := hnext
          · exact .inl hresp
          · have hrank := hnear.resolve_left hresp
            exact .inr (by omega)

/-- A unit at work that is left alone gets to its result within its rank and keeps it. -/
theorem rests (h : Blocking C ports spec idle resp Works result rank) {q : σ} {a : α}
    (hc : ∀ q, (ports q i).cancel = false) (hready : ∀ q, (ports q i).ready = false)
    (hidle : ¬ idle q) (hw : Works q a) {n : ℕ} (hn : resp q ∨ rank q ≤ n) :
    resp ((fun q => C.next q i)^[n] q) ∧ Works ((fun q => C.next q i)^[n] q) a := by
  induction n generalizing q with
  | zero =>
    refine ⟨?_, hw⟩
    by_contra hresp
    have hpos := h.rank_pos q hidle hresp
    have hzero := hn.resolve_left hresp
    omega
  | succ n ih =>
    rw [Function.iterate_succ_apply]
    by_cases hresp : resp q
    · rw [h.holds q i hresp (hc q) (hready q)]
      exact ih hidle hw (.inl hresp)
    · obtain ⟨hidle', hw', hnext⟩ := h.works q i a hidle hresp (hc q) hw
      exact ih hidle' hw' (hnext.imp_right fun hlt => by
        have hrank := hn.resolve_left hresp
        omega)

end Blocking

end Clocked

import Rv32im.Clocked.Circuit
import Rv32im.Isa.Hart

/-!
# Exchanging the memory behind a hart

Two memories that answer related accesses alike are the same memory to a hart. The accesses that
count are those a hart makes, which are naturally aligned, and only those of the run at hand.

* `Bus.Simulates`: one memory does what another one does;
* `Hart.Step.simulates`: a step of a hart with the other memory behind it;
* `Hart.path_simulates`: a run.
-/

namespace Riscv

open Clocked

variable {μ ν : Type*}

/-- The same hart with another memory behind it. -/
def Hart.withMem (h : Hart μ) (m : ν) : Hart ν where
  pc := h.pc
  x := h.x
  csrs := h.csrs
  mem := m

namespace Result

/-- The memory that is left. -/
def mem : Result μ → μ
  | .trap _ _ m => m
  | .retire _ _ _ _ m => m

/-- The same result with another memory. -/
def withMem : Result μ → ν → Result ν
  | .trap e tval _, m => .trap e tval m
  | .retire pc rd csrs bytes _, m => .retire pc rd csrs bytes m

end Result

/-- The sizes of accesses. -/
def Sizes : List ℕ := [1, 2, 4]

/-- The memory `B'` does what `B` does: between states in the relation `R`, aligned accesses have
the same answers and lead to such states. Only accesses that lead to a state with `Ok` count; the
states before them have it as well. -/
structure Bus.Simulates (B : Bus μ) (B' : Bus ν) (R : μ → ν → Prop) (Ok : μ → Prop) : Prop where
  load_ok : ∀ m a n, Ok (B.load m a n).2 → Ok m
  store_ok : ∀ m a n v, Ok (B.store m a n v).2 → Ok m
  load : ∀ m m' a n, R m m' → n ∈ Sizes → a.toNat % n = 0 → Ok (B.load m a n).2 →
    (B'.load m' a n).1 = (B.load m a n).1 ∧ R (B.load m a n).2 (B'.load m' a n).2
  store : ∀ m m' a n v, R m m' → n ∈ Sizes → a.toNat % n = 0 → Ok (B.store m a n v).2 →
    (B'.store m' a n v).1 = (B.store m a n v).1 ∧ R (B.store m a n v).2 (B'.store m' a n v).2

/-- A hart accesses memory in the sizes of its loads and stores. -/
def Outcome.Sized : Outcome → Prop
  | .load _ _ n _ => n ∈ Sizes
  | .store _ n _ => n ∈ Sizes
  | _ => True

/-- Accesses have one of the sizes. -/
theorem Instr.outcome_sized {n : Instr} {pc a b old : BitVec 32} {o : Outcome}
    (h : n.outcome pc a b old = some o) : o.Sized := by
  cases n with
  | load op rd rs1 imm =>
    obtain rfl := Option.some.inj h
    show op.bytes ∈ Sizes
    cases op <;> decide
  | store op rs1 rs2 imm =>
    obtain rfl := Option.some.inj h
    show op.bytes ∈ Sizes
    cases op <;> decide
  | _ =>
    simp only [outcome, Option.some.injEq, reduceCtorEq] at h
    try subst h
    try trivial

namespace Hart

variable {B : Bus μ} {B' : Bus ν} {R : μ → ν → Prop} {Ok : μ → Prop} {h h' : Hart μ} {m : ν}
  {i : Inputs}

@[simp] theorem withMem_mem (h : Hart μ) : h.withMem h.mem = h := rfl

@[simp] theorem after_withMem (h : Hart μ) (r : Result μ) (m m' : ν) :
    (h.withMem m).after (r.withMem m') = (h.after r).withMem m' := by
  cases r <;> rfl

@[simp] theorem commit_withMem (h : Hart μ) (r : Result μ) (m m' : ν) :
    (h.withMem m).commit (r.withMem m') = h.commit r := by
  cases r <;> rfl

@[simp] theorem mem_after (h : Hart μ) (r : Result μ) : (h.after r).mem = r.mem := by
  cases r <;> rfl

/-- A load is simulated. -/
theorem load_simulates (hB : B.Simulates B' R Ok) (hR : R h.mem m) {rd : BitVec 5}
    {a : BitVec 32} {n : ℕ} (hn : n ∈ Sizes) (signed : Bool)
    (hok : Ok (h.load B rd a n signed).mem) : ∃ m',
      (h.withMem m).load B' rd a n signed = (h.load B rd a n signed).withMem m' ∧
      R (h.load B rd a n signed).mem m' := by
  unfold load at hok ⊢
  by_cases ha : a.toNat % n = 0
  · rw [if_neg (by simp [ha])] at hok
    rw [if_neg (by simp [ha]), if_neg (by simp [ha])]
    have hload := hB.load h.mem m a n hR hn ha
    have hm : (h.withMem m).mem = m := rfl
    rw [hm]
    revert hok hload
    rcases B.load h.mem a n with ⟨v, m₁⟩
    rcases B'.load m a n with ⟨v', m₂⟩
    intro hok hload
    cases v with
    | none =>
      obtain ⟨rfl, hR'⟩ := hload hok
      exact ⟨m₂, rfl, hR'⟩
    | some v =>
      obtain ⟨rfl, hR'⟩ := hload hok
      exact ⟨m₂, rfl, hR'⟩
  · rw [if_pos ha, if_pos ha]
    exact ⟨m, rfl, hR⟩

/-- A store is simulated. -/
theorem store_simulates (hB : B.Simulates B' R Ok) (hR : R h.mem m) {a v : BitVec 32} {n : ℕ}
    (hn : n ∈ Sizes) (hok : Ok (h.store B a n v).mem) : ∃ m',
      (h.withMem m).store B' a n v = (h.store B a n v).withMem m' ∧
      R (h.store B a n v).mem m' := by
  unfold store at hok ⊢
  by_cases ha : a.toNat % n = 0
  · rw [if_neg (by simp [ha])] at hok
    rw [if_neg (by simp [ha]), if_neg (by simp [ha])]
    have hstore := hB.store h.mem m a n v hR hn ha
    have hm : (h.withMem m).mem = m := rfl
    rw [hm]
    revert hok hstore
    rcases B.store h.mem a n v with ⟨b, m₁⟩
    rcases B'.store m a n v with ⟨b', m₂⟩
    intro hok hstore
    cases b with
    | false =>
      obtain ⟨rfl, hR'⟩ := hstore hok
      exact ⟨m₂, rfl, hR'⟩
    | true =>
      obtain ⟨rfl, hR'⟩ := hstore hok
      exact ⟨m₂, rfl, hR'⟩
  · rw [if_pos ha, if_pos ha]
    exact ⟨m, rfl, hR⟩

/-- What does not access memory is the same with any memory. -/
theorem local_simulates {r : Result μ} {r' : Result ν} (hR : R h.mem m)
    (hr : r' = r.withMem m) (hm : r.mem = h.mem) : ∃ m', r' = r.withMem m' ∧ R r.mem m' :=
  ⟨m, hr, hm ▸ hR⟩

end Hart

variable {B : Bus μ} {B' : Bus ν} {R : μ → ν → Prop} {Ok : μ → Prop} {h h' : Hart μ} {m : ν}
  {i : Inputs}

/-- What an instruction does is simulated. -/
theorem Outcome.result_simulates (hB : B.Simulates B' R Ok) (hR : R h.mem m) {o : Outcome}
    (ho : o.Sized) (w : BitVec 32) (hok : Ok (o.result B h w).mem) : ∃ m',
      o.result B' (h.withMem m) w = (o.result B h w).withMem m' ∧ R (o.result B h w).mem m' := by
  cases o with
  | load rd a n signed => exact Hart.load_simulates hB hR ho signed hok
  | store a n v => exact Hart.store_simulates hB hR ho hok
  | value rd v => exact Hart.local_simulates hR rfl rfl
  | branch taken target =>
    refine Hart.local_simulates hR ?_ ?_ <;> simp only [result, Hart.jump] <;>
      split_ifs <;> rfl
  | jump rd link target =>
    refine Hart.local_simulates hR ?_ ?_ <;> simp only [result, Hart.jump] <;>
      split_ifs <;> rfl
  | csr rd old num new =>
    refine Hart.local_simulates hR ?_ ?_ <;> simp only [result, Hart.access] <;>
      cases Csr.ofNum num <;> cases new <;> try rfl
    all_goals simp only; split_ifs <;> rfl

/-- The state before an access has `Ok` if the state after it does. -/
theorem Outcome.ok_of_result (hB : B.Simulates B' R Ok) (o : Outcome) {w : BitVec 32}
    (hok : Ok (o.result B h w).mem) : Ok h.mem := by
  cases o with
  | load rd a n signed =>
    simp only [result, Hart.load] at hok
    split at hok
    · exact hok
    · refine hB.load_ok h.mem a n ?_
      revert hok
      rcases B.load h.mem a n with ⟨_ | v, m⟩ <;> exact id
  | store a n v =>
    simp only [result, Hart.store] at hok
    split at hok
    · exact hok
    · refine hB.store_ok h.mem a n v ?_
      revert hok
      rcases B.store h.mem a n v with ⟨_ | _, m⟩ <;> exact id
  | value rd v => exact hok
  | branch taken target =>
    simp only [result, Hart.jump] at hok
    split_ifs at hok <;> exact hok
  | jump rd link target =>
    simp only [result, Hart.jump] at hok
    split_ifs at hok <;> exact hok
  | csr rd old num new =>
    simp only [result, Hart.access] at hok
    revert hok
    cases Csr.ofNum num <;> cases new <;> try exact id
    simp only
    split_ifs <;> exact id

/-- An instruction with an outcome leads to what the outcome leads to. -/
theorem Instr.result_of_outcome (B : Bus μ) {n : Instr} {o : Outcome}
    (ho : n.outcome h.pc (h.reg n.rs1) (h.reg n.rs2) (h.csrs.value i n.csrNum) = some o) :
    n.result B h i = o.result B h n.encode := by
  cases n with
  | ecall | ebreak | mret | mulDiv op rd rs1 rs2 => simp [outcome] at ho
  | _ => simp only [result, ho]

/-- An instruction leads to the same with either memory. -/
theorem Instr.result_simulates (hB : B.Simulates B' R Ok) (hR : R h.mem m) (n : Instr)
    (hok : Ok (n.result B h i).mem) : ∃ m',
      n.result B' (h.withMem m) i = (n.result B h i).withMem m' ∧ R (n.result B h i).mem m' := by
  cases ho : n.outcome h.pc (h.reg n.rs1) (h.reg n.rs2) (h.csrs.value i n.csrNum) with
  | some o =>
    rw [result_of_outcome B ho] at hok ⊢
    rw [result_of_outcome (h := h.withMem m) B' ho]
    exact Outcome.result_simulates hB hR (outcome_sized ho) _ hok
  | none =>
    -- the other instructions do not access memory
    cases n <;> first | exact Hart.local_simulates hR rfl rfl | simp [outcome] at ho

/-- The state before an instruction has `Ok` if the state after it does. -/
theorem Instr.ok_of_result (hB : B.Simulates B' R Ok) (n : Instr)
    (hok : Ok (n.result B h i).mem) : Ok h.mem := by
  cases ho : n.outcome h.pc (h.reg n.rs1) (h.reg n.rs2) (h.csrs.value i n.csrNum) with
  | some o =>
    rw [result_of_outcome B ho] at hok
    exact o.ok_of_result hB hok
  | none => cases n <;> first | exact hok | simp [outcome] at ho

namespace Hart

/-- A step commits at the current address. -/
theorem Step.pc {k : Commit} (hs : Step B h i k h') : k.pc = h.pc := by
  have hcommit (r : Result μ) : (h.commit r).pc = h.pc := by
    cases r <;> rfl
  cases hs with
  | interrupt enabled pending => rfl
  | _ => exact hcommit _

/-- The condition on the memory held before the step. -/
theorem Step.ok (hB : B.Simulates B' R Ok) {k : Commit} (hs : Step B h i k h')
    (hok : Ok h'.mem) : Ok h.mem := by
  cases hs with
  | instr n fetch =>
    rw [mem_after] at hok
    exact n.ok_of_result hB hok
  | _ => exact hok

/-- A step of the hart is one with the other memory behind it. -/
theorem Step.simulates (hB : B.Simulates B' R Ok) (hR : R h.mem m)
    (hf : B'.fetch m h.pc = B.fetch h.mem h.pc) {k : Commit} (hs : Step B h i k h')
    (hok : Ok h'.mem) : ∃ m', Step B' (h.withMem m) i k (h'.withMem m') ∧ R h'.mem m' := by
  cases hs with
  | fault fetch => exact ⟨m, .fault (hf.trans fetch), hR⟩
  | illegal w fetch illegal => exact ⟨m, .illegal w (hf.trans fetch) illegal, hR⟩
  | instr n fetch =>
    rw [mem_after] at hok
    obtain ⟨m', hm', hR'⟩ := n.result_simulates hB hR hok
    have hstep := Step.instr (B := B') (h := h.withMem m) (i := i) n (hf.trans fetch)
    rw [hm', after_withMem, commit_withMem] at hstep
    exact ⟨m', hstep, (mem_after h _).symm ▸ hR'⟩
  | interrupt enabled pending => exact ⟨m, .interrupt enabled pending, hR⟩

/-! ### Runs -/

variable {ε : Type*}

/-- A step as an observer sees it, who knows what was visible and what the hart read. -/
def Seen (B : Bus μ) (shows : ε → Commit → Prop) (inputs : ε → Inputs) (h : Hart μ) (e : ε)
    (h' : Hart μ) : Prop :=
  ∃ k, shows e k ∧ Step B h (inputs e) k h'

variable {shows : ε → Commit → Prop} {inputs : ε → Inputs} {Q : ε → Prop} {h₀ : Hart μ} {m₀ : ν}

/-- A run of the hart is one with the other memory behind it, if that memory has the instructions of
the run where the hart fetches them. -/
theorem path_simulates (hB : B.Simulates B' R Ok)
    (hfetch : ∀ (h : Hart μ) m e k, Q e → shows e k → k.pc = h.pc → R h.mem m → Ok h.mem →
      B'.fetch m h.pc = B.fetch h.mem h.pc) {es : List ε} (hp : Path (Seen B shows inputs) h₀ es h)
    (hes : ∀ e ∈ es, Q e) (hR : R h₀.mem m₀) (hok : Ok h.mem) : ∃ m,
      Path (Seen B' shows inputs) (h₀.withMem m₀) es (h.withMem m) ∧ R h.mem m := by
  induction hp with
  | nil => exact ⟨m₀, .nil, hR⟩
  | @snoc es h h' e _ hstep ih =>
    obtain ⟨k, hshows, hstep⟩ := hstep
    have hok' := hstep.ok hB hok
    obtain ⟨m, hpath, hm⟩ := ih (fun e he => hes e (by simp [he])) hok'
    have hf := hfetch h m e k (hes e (by simp)) hshows hstep.pc hm hok'
    obtain ⟨m', hstep', hm'⟩ := hstep.simulates hB hm hf hok
    exact ⟨m', hpath.snoc ⟨k, hshows, hstep'⟩, hm'⟩

end Hart

end Riscv

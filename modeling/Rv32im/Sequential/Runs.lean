import Rv32im.Sequential.Refinement

/-!
# Runs of the pipeline are runs of the sequential machine

For every program, every timing of the ports and every waveform of `mtip_i`. `mcycle` counts clock
cycles, so a read of it depends on the cycle in which EX hands the instruction over, and a write on
the cycle in which it commits; the machine is told these cycles and nothing else of the timing.

* `System.refines_run`: a run from a reset has the trace of a run of the machine;
* `System.precise_interrupts`: with the state it ends in and the data requests it has made;
* `System.one_at_a_time`: without `mtip_i`, when there are no interrupt steps.
-/

namespace Rv32im

open Clocked

namespace System

variable {P : CoreParams} {E : Env} {s s₀ : System} {i : CoreIn} {is : List CoreIn} {S : Seq}

/-- The environment explains a state whose data port has given just one answer so far. -/
theorem explains_of_exchanges {n : ℕ} {rsp : MemRsp} (hans : ∀ k, E.answers k = rsp)
    (h : ∀ p ∈ s.imem.exchanges, p.2 = E.prog p.1.addr.index)
    (hd : ∀ r ∈ s.dmem.answered, r = rsp) : E.Explains n s where
  imem req rsp hans := by
    obtain ⟨k, hreq, hrsp⟩ := hans
    exact h (req, rsp) (List.mem_of_getElem? (List.getElem?_zip_eq_some.mpr ⟨hreq, hrsp⟩))
  dmem k r hr := by rw [hans k, hd r (List.mem_of_getElem? hr)]

/-- The environment explains every cycle of a run if it explains the last state. -/
theorem always_explains {n : ℕ} (hr : (circuit P).Run s₀ is s) (hrst : ∀ i ∈ is, i.rst = false)
    (hE : E.Explains n s) :
    (circuit P).Always (fun s i => i.rst = false ∧ E.Explains n (s.next P i)) s₀ is := by
  induction hr with
  | nil => trivial
  | @snoc is s i hr hl ih =>
    rw [Circuit.always_append, ← hr.eq_exec]
    exact ⟨ih (fun j hj => hrst j (by simp [hj])) (explains_of_next hE),
      ⟨hrst i (by simp), hE⟩, trivial⟩

/-- After a reset the machine is reset. -/
theorem Started.refines (h : Started P s₀) (E : Env) :
    Refines E s₀.dmem.accepted s₀ (Seq.reset P s₀.core.regfile) := by
  obtain ⟨-, -, hx, hw⟩ := h.slots
  obtain ⟨c₀, i, hrst, hc⟩ := h.core
  have hcsr : s₀.core.csrFile = .reset P.trapVector := by
    rw [hc]
    exact if_pos hrst
  have hagrees : (Seq.reset P s₀.core.regfile).Agrees s₀.clock s₀.pc s₀.core.regfile
      s₀.core.csrFile := by
    refine ⟨h.pc.symm, rfl, ?_⟩
    rw [h.clock, hcsr]
    exact CsrFile.later_zero
  refine ⟨hagrees, ?_⟩
  rw [observed, Core.event, if_neg (by simp [hw])]
  refine ⟨⟨?_, ?_, ?_⟩, fun hv => ?_, by simp [h.outstanding, Seq.reset]⟩
  · rw [pcMem, if_neg (by simp [hw])]
    exact hagrees.pc
  · rw [Core.regsAfterWb, hw]
    rfl
  · have hreach : Reachable P s₀ := .start h
    rw [hw]
    exact hagrees.bubble hreach.core.csrFile_wf
  · simp [hx] at hv

/-- What holds between core and machine along a run. -/
structure Simulates (P : CoreParams) (E : Env) (d₀ : List MemReq) (s : System) (S : Seq) :
    Prop where
  reachable : Reachable P s
  port : DataPort s
  mtip : MtipSeen s
  refines : Refines E d₀ s S

/-- Core and machine start together. -/
theorem Started.simulates (h : Started P s₀) (E : Env) :
    Simulates P E s₀.dmem.accepted s₀ (Seq.reset P s₀.core.regfile) where
  reachable := .start h
  port := h.dataPort
  mtip hv := by
    simp [h.slots.2.1] at hv
  refines := h.refines E

/-- The machine steps with every event of the core. -/
theorem Simulates.next {d₀ : List MemReq} (h : Simulates P E d₀ s S)
    (hl : (circuit P).legal s i) (hrst : i.rst = false)
    (hE : E.Explains d₀.length (s.next P i)) :
    Matches (Seq.Step E) S (s.observed i) (Simulates P E d₀ (s.next P i)) := by
  have hc := h.reachable.core
  refine h.refines.inFlight.mono fun S' hS' => ⟨h.reachable.step hl, ?_, ?_, ?_⟩
  · exact h.port.next hc.dataAccess hc.trapDrain hc.packets hrst hl.2
  · exact h.mtip.next h.reachable
  · exact hS'.next h.reachable h.port h.mtip hE hrst hl

/-- Every run from a reset without further reset is one of the machine. -/
theorem refines_run (hs : Started P s₀) (hr : (circuit P).Run s₀ is s)
    (hrst : ∀ i ∈ is, i.rst = false) (hE : E.Explains s₀.dmem.accepted.length s) :
    ∃ S, Path (Seq.Step E) (Seq.reset P s₀.core.regfile) ((circuit P).trace observed s₀ is) S ∧
      Simulates P E s₀.dmem.accepted s S := by
  have hrun := hr.restrict (always_explains hr hrst hE)
  obtain ⟨S, hpath, hS⟩ := hrun.simulates (hs.simulates E)
    fun s S i hS hl => hS.next hl.1 hl.2.1 hl.2.2
  exact ⟨S, by simpa using hpath, hS⟩

/-! ### Precise interrupts -/

/-- What the machine has done is what the core has done in the run. -/
structure Refined (P : CoreParams) (E : Env) (s₀ : System) (is : List CoreIn) (s : System)
    (S : Seq) : Prop where
  path : Path (Seq.Step E) (Seq.reset P s₀.core.regfile) ((circuit P).trace observed s₀ is) S
  agrees : S.Agrees s.clock s.pc s.core.regfile s.core.csrFile
  /-- The data requests accepted in the run are those of the machine, the step that commits in this
  cycle included, and then that of the access in EX/MEM, if it is out. -/
  requests : Matches (Seq.Step E) S (s.observed {}) fun S' =>
    s.dmem.accepted = s₀.dmem.accepted ++ S'.requests ++ s.outstanding
  quiet : s.core.memWbQ.valid = true → s.outstanding = []

/-- Every run from a reset, with any `mtip_i`, is one of the machine that may take the interrupt
between two instructions while it is enabled. -/
theorem precise_interrupts (hs : Started P s₀) (hr : (circuit P).Run s₀ is s)
    (hrst : ∀ i ∈ is, i.rst = false) (hE : E.Explains s₀.dmem.accepted.length s) :
    ∃ S, Refined P E s₀ is s S := by
  obtain ⟨S, hpath, hS⟩ := refines_run hs hr hrst hE
  exact ⟨S, hpath, hS.refines.agrees, hS.refines.inFlight.mono fun _ h => h.log,
    outstanding_of_memWb hS.reachable hS.port⟩

/-- `csrrw x0, mie, x1` and `csrrw x0, mstatus, x2` enable the interrupt, which displaces the `nop`
that follows. -/
theorem precise_interrupts_mstatus :
    let E : Env :=
      { prog := fun a =>
          { rdata := if a = 0#30 then 0x30409073#32 else if a = 1#30 then 0x30011073#32
              else 0x00000013#32 }
        answers := fun _ => {} }
    let s₀ := boot {} fun a => if a = 1#5 then 0x80#32 else 8#32
    let waits : CoreIn := { mtip := true }
    let is : List CoreIn := [Core.fetches 0x30409073#32, Core.fetches 0x30011073#32, {}, {}, {}, {},
      {}, waits, { Core.fetches 0x00000013#32 with mtip := true }, waits, waits, waits, waits]
    (∃ S, Refined {} E s₀ is ((circuit {}).exec s₀ is) S) ∧
      ((circuit {}).trace event s₀ is).map (fun e => (e.pc, e.isInterrupt)) =
        [(0#32, false), (4#32, false), (8#32, true)] := by
  intro E s₀ waits is
  have hE : E.Explains s₀.dmem.accepted.length ((circuit {}).exec s₀ is) :=
    explains_of_exchanges (fun _ => rfl) (by decide +kernel) (by decide +kernel)
  exact ⟨precise_interrupts (started_boot {} _) (Circuit.Run.of_always (by decide +kernel))
    (by decide +kernel) hE, by decide +kernel⟩

/-- A machine whose `mcycle` counts its steps has not the trace of `csrrs x1, mcycle, x0` in a run:
EX hands the first instruction over in the third clock cycle. -/
theorem precise_interrupts_mcycle :
    let E : Env := { prog := fun _ => { rdata := 0xb00020f3#32 }, answers := fun _ => {} }
    let s₀ := boot {} fun _ => 0#32
    let is : List CoreIn := [Core.fetches 0xb00020f3#32, {}, {}, {}, {}, {}]
    let s := (circuit {}).exec s₀ is
    Started {} s₀ ∧ (circuit {}).Run s₀ is s ∧ (∀ i ∈ is, i.rst = false) ∧
      E.Explains s₀.dmem.accepted.length s ∧
      ¬ ∃ (es : List (Observation × TraceEvent)) (S : Seq),
          Path (Seq.Step E) (Seq.reset {} s₀.core.regfile) es S ∧
          (∀ k : ℕ, ∀ e ∈ es[k]?, e.1.exCycle = k ∧ e.1.wbCycle = k) ∧
          es.map Prod.snd = (circuit {}).trace event s₀ is := by
  intro E s₀ is s
  refine ⟨started_boot {} _, .of_always (by decide +kernel), by decide +kernel,
    explains_of_exchanges (fun _ => rfl) (by decide +kernel) (by decide +kernel), ?_⟩
  rintro ⟨es, S, hpath, hcycle, hes⟩
  have htrace : (circuit {}).trace event s₀ is =
      [{ insn := 0xb00020f3#32, rdWe := true, rdAddr := 1#5, rdData := 2#32 }] := by
    decide +kernel
  rw [htrace] at hes
  cases hpath with
  | nil => simp at hes
  | @snoc es S _ e hpath hstep =>
    -- there is one event, so the step is the first
    obtain rfl : es = [] := by simpa using congrArg List.length hes
    have hS : S = Seq.reset {} s₀.core.regfile := by
      generalize hnil : ([] : List (Observation × TraceEvent)) = es at hpath
      cases hpath with
      | nil => rfl
      | snoc => simp at hnil
    subst hS
    obtain ⟨hx, -⟩ := hcycle 0 e rfl
    cases hstep with
    | instr o =>
      -- what is read depends on nothing but the cycle
      have hevent : ((Seq.reset {} s₀.core.regfile).packet E o).event.rdData = 0#32 := by
        have hpacket : (Seq.reset {} s₀.core.regfile).packet E o =
            (Seq.reset {} s₀.core.regfile).packet E { mtipEx := o.mtipEx, exCycle := 0 } := by
          rw [← hx]
          rfl
        rw [hpacket]
        cases o.mtipEx <;> decide +kernel
      have hread := congrArg (List.map TraceEvent.rdData) hes
      simp [hevent] at hread
    | interrupt o enabled => exact absurd enabled (by decide +kernel)

/-! ### One instruction at a time -/

end System

namespace Seq

variable (E : Env) (S : Seq) (t : ℕ × ℕ)

/-- The event of the instruction at `pc` when EX hands it over in the first cycle of `t` and it
commits in the second. -/
def event : TraceEvent := (S.packet E { exCycle := t.1, wbCycle := t.2 }).event

/-- The state after it. -/
def step : Seq := S.instr E { exCycle := t.1, wbCycle := t.2 }

/-- The events of consecutive instructions in the cycles `ts`. -/
def events : Seq → List (ℕ × ℕ) → List TraceEvent
  | _, [] => []
  | S, t :: ts => S.event E t :: events (S.step E t) ts

/-- The state after them. -/
def run (ts : List (ℕ × ℕ)) : Seq := ts.foldl (step E) S

/-- The machine without `mcycle`. -/
def arch : Seq := { S with csr := S.csr.arch }

variable {E S} {S' : Seq} {u : ℕ × ℕ}

/-- The events of two lists of cycles are those of the one after the other. -/
theorem events_append (ts ts' : List (ℕ × ℕ)) :
    S.events E (ts ++ ts') = S.events E ts ++ (S.run E ts).events E ts' := by
  induction ts generalizing S with
  | nil => rfl
  | cons t ts ih => exact congrArg (S.event E t :: ·) ih

/-- Equality but for `mcycle`, by the parts of the state. -/
theorem arch_eq_iff : S.arch = S'.arch ↔
    S.pc = S'.pc ∧ S.regs = S'.regs ∧ S.csr.arch = S'.csr.arch ∧ S.requests = S'.requests := by
  cases S
  cases S'
  simp [arch]

/-- What is decoded does not depend on the CSRs. -/
theorem decode_arch (h : S.arch = S'.arch) : S.decode E = S'.decode E := by
  obtain ⟨hpc, hregs, -⟩ := arch_eq_iff.mp h
  rw [decode, decode, fetch, fetch, hpc, hregs]

/-- An instruction that does not read the counter does the same at any time. -/
theorem execute_congr (h : S.arch = S'.arch) (hread : S.readsMcycle E = false) (o o' : Observation)
    (ho : o.mtipEx = o'.mtipEx) : S.execute E o = S'.execute E o' := by
  obtain ⟨hpc, hregs, hcsr, -⟩ := arch_eq_iff.mp h
  have harch : (S.csrRead o).arch = (S'.csrRead o').arch := hcsr
  have hmepc : S.csr.mepcQ = S'.csr.mepcQ := (CsrFile.arch_eq_iff.mp hcsr).2.2.2.2.1
  unfold execute
  rw [← decode_arch h, hmepc, ← ho]
  refine ExStage.packet_congr (fun hc => ?_) (fun _ => rfl) fun _ => rfl
  simp only [readsMcycle, hc, Bool.true_and, Bool.or_eq_false_iff, beq_eq_false_iff_ne] at hread
  rw [ExStage.csrRaddr, if_pos (by simp [hc])]
  exact CsrFile.rdata_arch harch _ hread.1 hread.2

/-- Only `mcycle` depends on the cycle of a commit. -/
theorem commit_congr (h : S.arch = S'.arch) (n n' : ℕ) (w : MemWb) (rs : List MemReq) :
    (S.commit n w rs).arch = (S'.commit n' w rs).arch := by
  obtain ⟨hpc, hregs, hcsr, hreqs⟩ := arch_eq_iff.mp h
  have harch : (S.csrAt n).arch = (S'.csrAt n').arch := hcsr
  refine arch_eq_iff.mpr ⟨?_, ?_, CsrFile.arch_next harch w.commit, ?_⟩
  · simp only [commit, (CsrFile.arch_eq_iff.mp hcsr).2.2.1]
  · simp only [commit, hregs]
  · simp only [commit, hreqs]

/-- The event does not depend on the time, and the state after it but for `mcycle`. -/
theorem step_congr (h : S.arch = S'.arch) (hread : S.readsMcycle E = false) :
    S.event E t = S'.event E u ∧ (S.step E t).arch = (S'.step E u).arch := by
  let o (t : ℕ × ℕ) : Observation := { exCycle := t.1, wbCycle := t.2 }
  have hx : S.execute E (o t) = S'.execute E (o u) := execute_congr h hread _ _ rfl
  have hp : S.packet E (o t) = S'.packet E (o u) := by
    rw [packet, packet, hx, (arch_eq_iff.mp h).2.2.2]
  refine ⟨congrArg MemWb.event hp, ?_⟩
  rw [step, step, instr, instr, hp, hx]
  exact commit_congr h _ _ _ _

/-- Whether an instruction reads the counter does not depend on it. -/
theorem readsMcycle_arch (h : S.arch = S'.arch) : S.readsMcycle E = S'.readsMcycle E := by
  rw [readsMcycle, readsMcycle, decode_arch h]

/-- Where no instruction reads the counter the cycles do not matter. -/
theorem events_congr {ts : List (ℕ × ℕ)} (harch : S.arch = S'.arch)
    (h : ∀ n < ts.length, (S'.run E (List.replicate n (0, 0))).readsMcycle E = false) :
    S.events E ts = S'.events E (List.replicate ts.length (0, 0)) := by
  induction ts generalizing S S' with
  | nil => rfl
  | cons t ts ih =>
    have h₀ : S'.readsMcycle E = false := h 0 (by simp)
    rw [← readsMcycle_arch harch] at h₀
    obtain ⟨he, hs⟩ := step_congr (t := t) (u := (0, 0)) harch h₀
    rw [events, List.length_cons, List.replicate_succ, events, he]
    refine congrArg (S'.event E (0, 0) :: ·) (ih hs fun n hn => ?_)
    exact h (n + 1) (by simpa using hn)

/-- The cycles of a step. -/
def cycles (l : Observation × TraceEvent) : ℕ × ℕ := (l.1.exCycle, l.1.wbCycle)

/-- Steps that never see `mtip_i` are those of consecutive instructions. -/
theorem events_of_path {es : List (Observation × TraceEvent)} (h : Path (Step E) S es S')
    (hes : ∀ e ∈ es, e.1.mtipId = false ∧ e.1.mtipEx = false) :
    es.map Prod.snd = S.events E (es.map cycles) ∧ S' = S.run E (es.map cycles) := by
  induction h with
  | nil => exact ⟨rfl, rfl⟩
  | @snoc es b c e hp hstep ih =>
    obtain ⟨htrace, rfl⟩ := ih fun e he => hes e (by simp [he])
    have hlast := hes e (by simp)
    cases hstep with
    | instr o =>
      -- the machine looks at nothing but the cycles and `mtip_i`
      obtain ⟨mtipId, mtipEx, m, x, w⟩ := o
      obtain ⟨rfl, rfl⟩ := hlast
      rw [List.map_append, List.map_append, events_append, htrace]
      refine ⟨rfl, ?_⟩
      rw [run, run, List.foldl_append]
      rfl
    | interrupt o _ pending => exact absurd (hlast.1.symm.trans pending) (by simp)

end Seq

namespace System

/-- `mtip_i` was low in each cycle in which it could be seen by a packet in flight. -/
structure Undisturbed (s : System) : Prop where
  idEx : s.core.idExQ.valid = true → s.idExMtip = false
  exMem : s.core.exMemQ.valid = true → s.exMemObs.mtipId = false ∧ s.exMemObs.mtipEx = false
  memWb : s.core.memWbQ.valid = true → s.memWbObs.mtipId = false ∧ s.memWbObs.mtipEx = false

/-- After a reset nothing is in flight. -/
theorem Started.undisturbed (h : Started P s₀) : Undisturbed s₀ := by
  obtain ⟨-, hd, hx, hw⟩ := h.slots
  constructor <;> intro hv
  · simp [hd] at hv
  · simp [hx] at hv
  · simp [hw] at hv

/-- A cycle with `mtip_i` low keeps it so. -/
theorem Undisturbed.next (h : Undisturbed s) (hm : i.mtip = false) :
    Undisturbed (s.next P i) where
  idEx hv := by
    rcases idEx_next hv with ⟨-, hid⟩ | ⟨hd, hid⟩
    · rw [hid, hm]
    · rw [hd] at hv
      rw [hid]
      exact h.idEx (by simpa using hv)
  exMem hv := by
    rcases exMem_next hv with ⟨-, hres, -, -, ho⟩ | ⟨hx, -, ho⟩
    · rw [ho]
      exact ⟨h.idEx (Core.valid_of_resultValid hres), hm⟩
    · rw [ho]
      exact h.exMem (by rwa [hx] at hv)
  memWb hv := h.exMem (memWb_next hv).2.1

/-- Without `mtip_i` no event has seen it. -/
theorem undisturbed_trace (hs : Started P s₀) (hr : (circuit P).Run s₀ is s)
    (hm : ∀ i ∈ is, i.mtip = false) :
    ∀ e ∈ (circuit P).trace observed s₀ is, e.1.mtipId = false ∧ e.1.mtipEx = false := by
  let I (es : List (Observation × TraceEvent)) (s : System) : Prop :=
    (∀ e ∈ es, e.1.mtipId = false ∧ e.1.mtipEx = false) ∧ Undisturbed s
  have hrun := hr.restrict (Q := fun _ i => i.mtip = false) (Circuit.always_of_forall hm)
  have hinv : I (((circuit P).restrict fun _ i => i.mtip = false).trace observed s₀ is) s := by
    refine hrun.trace_invariant (I := I) ⟨by simp, hs.undisturbed⟩ fun es s i hI hl =>
      ⟨fun e he => ?_, hI.2.next hl.2⟩
    rcases List.mem_append.mp he with he | he
    · exact hI.1 e he
    · unfold observed Core.event at he
      split at he
      next hv =>
        obtain rfl : e = ({ s.memWbObs with wbCycle := s.clock }, s.core.memWbQ.event) := by
          simpa using he
        exact hI.2.memWb hv
      next => simp at he
  rw [Circuit.trace_restrict] at hinv
  exact hinv.1

/-- The clock cycles in which EX hands the instructions of a run over and they commit. -/
def cycles (P : CoreParams) (s₀ : System) (is : List CoreIn) : List (ℕ × ℕ) :=
  ((circuit P).trace observed s₀ is).map Seq.cycles

/-- The machine that executes one instruction after the other has the trace of the run, and the
state in which it ends. -/
structure OneAtATime (P : CoreParams) (E : Env) (s₀ : System) (is : List CoreIn) (s : System) :
    Prop where
  trace : (circuit P).trace event s₀ is =
    (Seq.reset P s₀.core.regfile).events E (cycles P s₀ is)
  agrees : ((Seq.reset P s₀.core.regfile).run E (cycles P s₀ is)).Agrees s.clock s.pc s.core.regfile
    s.core.csrFile
  /-- A program that does not read the counter has one sequence of events, whatever the timing. -/
  determined : (∀ n < (cycles P s₀ is).length, ((Seq.reset P s₀.core.regfile).run E
      (List.replicate n (0, 0))).readsMcycle E = false) →
    (circuit P).trace event s₀ is = (Seq.reset P s₀.core.regfile).events E
      (List.replicate (cycles P s₀ is).length (0, 0))

/-- Every run from a reset in which `mtip_i` is low is one of the machine without interrupts. -/
theorem one_at_a_time (hs : Started P s₀) (hr : (circuit P).Run s₀ is s)
    (hrst : ∀ i ∈ is, i.rst = false) (hm : ∀ i ∈ is, i.mtip = false)
    (hE : E.Explains s₀.dmem.accepted.length s) : OneAtATime P E s₀ is s := by
  obtain ⟨S, hpath, hS⟩ := refines_run hs hr hrst hE
  obtain ⟨htrace, rfl⟩ := Seq.events_of_path hpath (undisturbed_trace hs hr hm)
  have hevent : (circuit P).trace event s₀ is =
      ((circuit P).trace observed s₀ is).map Prod.snd := by
    rw [Circuit.map_trace]
    congr 1
    funext s i
    rw [observed, event]
    cases s.core.event <;> rfl
  have hall := hevent.trans htrace
  exact ⟨hall, hS.refines.agrees, fun hno => hall.trans (Seq.events_congr rfl hno)⟩

/-- `addi x1, x0, 5` and `sw x1, 8(x0)`, whose request waits for the port. -/
theorem one_at_a_time_store :
    let E : Env :=
      { prog := fun a => { rdata := if a = 0#30 then 0x00500093#32 else 0x00102423#32 }
        answers := fun _ => {} }
    let s₀ := boot {} fun _ => 0#32
    let is : List CoreIn := [Core.fetches 0x00500093#32, Core.fetches 0x00102423#32, {}, {}, {}, {},
      { dmem := { reqReady := true } }, {}, { dmem := { rspValid := true } }, {}]
    OneAtATime {} E s₀ is ((circuit {}).exec s₀ is) ∧
      ((circuit {}).trace event s₀ is).map (fun e => (e.rdWe, e.rdData, e.memAddr, e.memWdata)) =
        [(true, 5#32, 0#32, 0#32), (false, 0#32, 8#32, 5#32)] := by
  intro E s₀ is
  have hE : E.Explains s₀.dmem.accepted.length ((circuit {}).exec s₀ is) :=
    explains_of_exchanges (fun _ => rfl) (by decide +kernel) (by decide +kernel)
  exact ⟨one_at_a_time (started_boot {} _) (Circuit.Run.of_always (by decide +kernel))
    (by decide +kernel) (by decide +kernel) hE, by decide +kernel⟩

/-- Two runs of `csrrs x1, mcycle, x0` that fetch it in different cycles read different values, so
the program alone does not determine the events. -/
theorem one_at_a_time_mcycle :
    let E : Env := { prog := fun _ => { rdata := 0xb00020f3#32 }, answers := fun _ => {} }
    let s₀ := boot {} fun _ => 0#32
    ¬ ∃ events : ℕ → TraceEvent, ∀ is s, (circuit {}).Run s₀ is s →
      (∀ i ∈ is, i.rst = false) → (∀ i ∈ is, i.mtip = false) →
      E.Explains s₀.dmem.accepted.length s →
      ∀ k e, ((circuit {}).trace event s₀ is)[k]? = some e → e = events k := by
  rintro E s₀ ⟨events, h⟩
  have hrun (is : List CoreIn) (hl : (circuit {}).Always (circuit {}).legal s₀ is)
      (hrst : ∀ i ∈ is, i.rst = false) (hm : ∀ i ∈ is, i.mtip = false)
      (hans : ∀ p ∈ ((circuit {}).exec s₀ is).imem.exchanges, p.2 = E.prog p.1.addr.index)
      (hd : ∀ r ∈ ((circuit {}).exec s₀ is).dmem.answered, r = {}) (e : TraceEvent)
      (he : ((circuit {}).trace event s₀ is)[0]? = some e) : e = events 0 :=
    h is _ (.of_always hl) hrst hm (explains_of_exchanges (fun _ => rfl) hans hd) 0 e he
  -- the counter is two cycles old, or three
  let read (x : Word) : TraceEvent :=
    { insn := 0xb00020f3#32, rdWe := true, rdAddr := 1#5, rdData := x }
  have h₂ := hrun [Core.fetches 0xb00020f3#32, {}, {}, {}, {}, {}] (by decide +kernel)
    (by decide +kernel) (by decide +kernel) (by decide +kernel) (by decide +kernel) (read 2#32)
    (by decide +kernel)
  have h₃ := hrun [{}, Core.fetches 0xb00020f3#32, {}, {}, {}, {}] (by decide +kernel)
    (by decide +kernel) (by decide +kernel) (by decide +kernel) (by decide +kernel) (read 3#32)
    (by decide +kernel)
  exact absurd (h₂.trans h₃.symm) (by decide)

end System

end Rv32im

import Mathlib.Data.List.Induction
import Rv32im.Rtl.FpgaTop
import Rv32im.Soc.Ports

/-!
# Out of reset on the board

Buttons and clock lock may change at any time. The SoC nevertheless sees a synchronous reset that
ends only after the synchroniser has been undisturbed long enough, and every session between two
resets is a run of the SoC from its reset state.

* `ResetSync.Settled`: the condition under which the synchroniser releases;
* `Soc.mailbox`: the mailbox holds the first completion;
* `FpgaTop.PoweredUp`: the state after configuration;
* `FpgaTop.session`: what the board has done since the reset was released;
* `FpgaTop.AtRest`, `FpgaTop.atRest`: the outputs while the board is in reset;
* `FpgaTop.verdict`: what the status outputs tell about the session.
-/

namespace Rv32im

open Clocked

/-! ### The synchroniser -/

namespace ResetSync

variable {stages : ℕ} {is : List In} {i : In}

/-- The reset may change in any way, at any time. -/
def circuit (stages : ℕ) : Circuit (ResetSync stages) In where
  legal _ _ := True
  next := next

/-- `arst_ni` was high in the whole period. -/
def In.Quiet (i : In) : Prop := i.fell = false ∧ i.arstN = true

/-- `arst_ni` was high at an edge, and has been high for the `n` periods since. -/
def Settled (n : ℕ) (is : List In) : Prop :=
  ∃ pre i post, is = pre ++ i :: post ∧ i.arstN = true ∧ post.length = n ∧ ∀ j ∈ post, j.Quiet

@[simp]
theorem not_settled_nil {n : ℕ} : ¬ Settled n [] := by
  rintro ⟨pre, i, post, h, -⟩
  simp at h

/-- The first stage takes the reset input. -/
@[simp]
theorem settled_zero_append : Settled 0 (is ++ [i]) ↔ i.arstN = true := by
  constructor
  · rintro ⟨pre, j, post, h, hj, hlen, -⟩
    obtain rfl := List.length_eq_zero_iff.mp hlen
    obtain ⟨-, rfl⟩ := List.append_inj' h rfl |>.imp_right List.singleton_inj.mp
    exact hj
  · intro hi
    exact ⟨is, i, [], rfl, hi, rfl, by simp⟩

/-- Each further stage needs a quiet period more. -/
@[simp]
theorem settled_succ_append {n : ℕ} : Settled (n + 1) (is ++ [i]) ↔ i.Quiet ∧ Settled n is := by
  constructor
  · rintro ⟨pre, j, post, h, hj, hlen, hpost⟩
    obtain rfl | ⟨post, k, rfl⟩ := post.eq_nil_or_concat
    · simp at hlen
    · rw [List.concat_eq_append] at *
      have h : is ++ [i] = (pre ++ j :: post) ++ [k] := by simpa using h
      obtain ⟨rfl, rfl⟩ := List.append_inj' h rfl |>.imp_right List.singleton_inj.mp
      exact ⟨hpost _ (by simp), pre, j, post, rfl, hj, by simpa using hlen,
        fun l hl => hpost l (by simp [hl])⟩
  · rintro ⟨hi, pre, j, post, rfl, hj, hlen, hpost⟩
    refine ⟨pre, j, post ++ [i], by simp, hj, by simp [hlen], fun k hk => ?_⟩
    rcases List.mem_append.mp hk with hk | hk
    · exact hpost k hk
    · exact List.mem_singleton.mp hk ▸ hi

/-- A quiet period leaves the stages alone. -/
theorem pipeAtEdge_of_quiet {q : ResetSync stages} (h : i.Quiet) :
    q.pipeAtEdge i = q.resetPipeQ := by
  simp [pipeAtEdge, h.1, h.2]

/-- Any other clears them. -/
theorem pipeAtEdge_of_not_quiet {q : ResetSync stages} (h : ¬ i.Quiet) : q.pipeAtEdge i = 0#_ := by
  refine if_pos ?_
  simpa [In.Quiet, imp_iff_not_or] using h

/-- A stage of the chain is set once the reset has settled for as many periods. -/
theorem getLsbD_resetPipeQ (is : List In) (k : ℕ) :
    ((circuit stages).exec {} is).resetPipeQ.getLsbD k = true ↔ k < stages ∧ Settled k is := by
  induction is using List.reverseRecOn generalizing k with
  | nil => simp [Circuit.exec]
  | append_singleton is i ih =>
    have hexec : (circuit stages).exec {} (is ++ [i]) = ((circuit stages).exec {} is).next i := by
      simp [Circuit.exec, circuit]
    rw [hexec, next]
    generalize (circuit stages).exec {} is = q at ih
    cases hi : i.arstN with
    | false =>
      -- a low level clears the chain
      cases k <;> simp [hi, In.Quiet]
    | true =>
      cases k with
      | zero => simp [hi, BitVec.getLsbD_shiftConcat]
      | succ k =>
        by_cases hq : i.Quiet
        · simp only [if_true, BitVec.getLsbD_shiftConcat, pipeAtEdge_of_quiet hq,
            Nat.succ_ne_zero, if_false, Nat.add_sub_cancel, Bool.and_eq_true, decide_eq_true_eq, ih,
            settled_succ_append]
          have : k + 1 < stages → k < stages := fun h => by omega
          tauto
        · simp [BitVec.getLsbD_shiftConcat, pipeAtEdge_of_not_quiet hq, hq]

/-- The reset and the synchroniser of a run. -/
theorem settled_of_run (hs : 0 < stages) {q : ResetSync stages} (h : (circuit stages).Run {} is q) :
    q.functionalRstQ = false ↔ Settled stages is := by
  induction h with
  | nil => simp
  | @snoc is q i hr _ ih =>
    obtain ⟨n, rfl⟩ : ∃ n, stages = n + 1 := ⟨stages - 1, by omega⟩
    have hbit : q.resetPipeQ.getLsbD n = true ↔ _ := hr.eq_exec ▸ getLsbD_resetPipeQ is n
    show (q.next i).functionalRstQ = false ↔ _
    rw [next, settled_succ_append, Bool.not_eq_false', Nat.add_sub_cancel]
    by_cases hq : i.Quiet
    · rw [pipeAtEdge_of_quiet hq, hbit]
      simp [hq]
    · simp [pipeAtEdge_of_not_quiet hq, hq]

theorem run_exec (q : ResetSync stages) (is : List In) :
    (circuit stages).Run q is ((circuit stages).exec q is) :=
  .of_always <| Circuit.always_of_forall (Q := fun _ => True) fun _ _ => trivial

/-- The reset of the SoC is inactive exactly when `arst_ni` was high at an edge and has not been
low in the `stages` periods since. -/
theorem released_iff (hs : 0 < stages) (is : List In) :
    ((circuit stages).exec {} is).functionalRstQ = false ↔ Settled stages is :=
  settled_of_run hs (run_exec {} is)

/-- A pulse between two edges is not missed. -/
theorem released_iff_pulse :
    ((circuit 2).exec {} [{}, {}, {}, { fell := true }]).functionalRstQ = true ∧
      Settled 2 [{}, {}, {}, { fell := true }, {}, {}] :=
  ⟨by decide, (released_iff (by decide) _).mp (by decide)⟩

/-- The reset is active after every period in which `arst_ni` was low. -/
theorem quiet_of_released {q : ResetSync stages} (h : (q.next i).functionalRstQ = false) :
    i.Quiet := by
  by_contra hq
  simp [next, pipeAtEdge_of_not_quiet hq] at h

end ResetSync

/-! ### The mailbox -/

namespace Soc

variable {P : SocParams} {s s₀ : Soc P} {is : List (In P)}

/-- A retired store of a word to the mailbox. -/
def completes (P : SocParams) (e : TraceEvent) : Bool :=
  !e.trap && e.memWstrb == 0b1111#4 && e.memAddr == P.testStatusAddr

/-- The status is set by a retired store that completes the test. -/
theorem testStatusCommit_eq : s.testStatusCommit = s.core.event.any (completes P) := by
  rw [testStatusCommit]
  cases s.core.event <;> rfl

/-- The first completion of a run, if there is one. -/
def completion (s₀ : Soc P) (is : List (In P)) : Option TraceEvent :=
  ((circuit P).trace event s₀ is).find? (completes P)

/-- The mailbox holds the value of the first completion since the reset. -/
theorem mailbox (hr : (circuit P).Run s₀ is s) (hdone : s₀.testDone = false)
    (hstatus : s₀.testStatus = 0#32) (hrst : ∀ i ∈ is, i.rst = false) :
    s.testDone = (completion s₀ is).isSome ∧
      s.testStatus = (completion s₀ is).elim 0#32 (·.memWdata) := by
  have hr := hr.restrict (Circuit.always_of_forall hrst)
  rw [completion, ← Circuit.trace_restrict]
  refine hr.trace_invariant (I := fun es s => s.testDone = (es.find? (completes P)).isSome ∧
    s.testStatus = (es.find? (completes P)).elim 0#32 (·.memWdata)) ⟨hdone, hstatus⟩ ?_
  rintro es s i ⟨hd, hs⟩ ⟨-, hrst⟩
  have hnext : (s.next i).testDone = (s.testDone || s.mailboxTakes) ∧ (s.next i).testStatus =
      if s.mailboxTakes then s.core.memWbQ.event.memWdata else s.testStatus := by
    simp [next, hrst]
  show (s.next i).testDone = _ ∧ (s.next i).testStatus = _
  rw [hnext.1, hnext.2, List.find?_append, mailboxTakes, testStatusCommit_eq]
  cases hf : es.find? (completes P) with
  | some e => simp_all
  | none =>
    rw [hf] at hd hs
    cases hv : s.core.memWbQ.valid with
    | false => simp [hd, hs, event, Core.event, hv]
    | true =>
      cases hc : completes P s.core.memWbQ.event <;> simp [hd, hs, event, Core.event, hv, hc]

end Soc

/-! ### The board -/

namespace FpgaTop

variable {F : FpgaParams} {b b₀ : FpgaTop F} {i : In} {is : List In}

/-- Any waveforms on the pins, and loss of lock at any time. -/
def circuit (F : FpgaParams) : Circuit (FpgaTop F) In where
  legal _ _ := True
  next := next

/-- The state after configuration: the registers of the reset have their initial values, and no
request is under way. -/
structure PoweredUp (b : FpgaTop F) : Prop where
  resetSync : b.resetSync = {}
  fetch : b.soc.core.ifStage.stateQ ≠ .busy
  access : b.soc.core.lsu.stateQ ≠ .busy
  owner : b.soc.demux.pendingQ = false

/-- The period was free of any reset source. -/
def In.Quiet (i : In) : Prop := (resetSyncIn i).Quiet

/-- The SoC out of reset, in a period of the board. -/
def In.soc (F : FpgaParams) (i : In) : Soc.In F.soc where
  uartRx := i.uartRx
  gpioIn := 0#_

/-- The store the memory of the SoC accepts in a cycle. -/
def tcmStore (b : FpgaTop F) (i : In) : Option MemReq := b.soc.tcmStore (b.socIn i)

/-- The array after a run of the board: no reset restores it. -/
def arrayAfter (b₀ : FpgaTop F) (is : List In) : Vector Word F.soc.tcm.wordCount :=
  ((circuit F).trace tcmStore b₀ is).foldl Tcm.write b₀.soc.tcm.mem

/-- With no request under way the fabric is consistent. -/
theorem PoweredUp.start (h : b₀.PoweredUp) : Soc.Fabric b₀.soc where
  fetch hs := absurd hs h.fetch
  access hs := absurd hs h.access
  owner hp := absurd hp (by simp [h.owner])

theorem fabric_run (h : (circuit F).Run b₀ is b) (h₀ : b₀.PoweredUp) : Soc.Fabric b.soc := by
  refine h.invariant (I := fun b => Soc.Fabric b.soc) h₀.start fun b i hb _ => ?_
  show Soc.Fabric (b.soc.next (b.socIn i))
  cases hrst : (b.socIn i).rst
  · exact hb.next hrst
  · rw [Soc.next_of_rst hb hrst]
    exact Soc.fabric_reset _ _

/-- The synchroniser runs on its own inputs. -/
theorem resetSync_run (h : (circuit F).Run b₀ is b) (h₀ : b₀.PoweredUp) :
    b.resetSync = (ResetSync.circuit F.resetSyncStages).exec {} (is.map resetSyncIn) := by
  induction h with
  | nil => exact h₀.resetSync
  | @snoc is b i _ _ ih =>
    show b.resetSync.next (resetSyncIn i) = _
    rw [ih, List.map_append, Circuit.exec, Circuit.exec, List.foldl_append]
    rfl

/-- The memory is that of the stores so far. -/
theorem array_run (h : (circuit F).Run b₀ is b) : b.soc.tcm.mem = arrayAfter b₀ is := by
  refine h.trace_invariant
    (I := fun es b => b.soc.tcm.mem = es.foldl Tcm.write b₀.soc.tcm.mem) rfl ?_
  intro es b i hb _
  rw [List.foldl_append, ← hb]
  exact Soc.mem_next b.soc (b.socIn i)

/-- A run of the board ends in a session: `boot` goes up to the release of the reset, and the SoC
has gone from its reset state through the periods `js` since then. -/
structure Session (b₀ : FpgaTop F) (is : List In) (s : Soc F.soc) (boot js : List In)
    (r : Regfile) : Prop where
  split : is = boot ++ js
  active : ¬ ResetSync.Settled F.resetSyncStages (boot.dropLast.map resetSyncIn)
  settled : ResetSync.Settled F.resetSyncStages (boot.map resetSyncIn)
  quiet : ∀ j ∈ js, j.Quiet
  run : (Soc.circuit F.soc).Run (Soc.resetState F.soc r (arrayAfter b₀ boot)) (js.map (In.soc F)) s

/-- A quiet period goes on with the session. -/
theorem Session.next {s : Soc F.soc} {boot js : List In} {r : Regfile}
    (h : Session b₀ is s boot js r) (hi : i.Quiet) :
    Session b₀ (is ++ [i]) (s.next (In.soc F i)) boot (js ++ [i]) r where
  split := by rw [h.split, List.append_assoc]
  active := h.active
  settled := h.settled
  quiet j hj := by
    rcases List.mem_append.mp hj with hj | hj
    · exact h.quiet j hj
    · exact List.mem_singleton.mp hj ▸ hi
  run := by
    rw [List.map_append, List.map_singleton]
    exact h.run.snoc trivial

/-- The reset is active until the synchroniser has settled. -/
theorem socRst_eq_false_iff (h : (circuit F).Run b₀ is b) (h₀ : b₀.PoweredUp) :
    b.socRst = false ↔ ResetSync.Settled F.resetSyncStages (is.map resetSyncIn) := by
  rw [socRst, resetSync_run h h₀]
  exact ResetSync.settled_of_run F.resetSyncStages_pos (ResetSync.run_exec ..)

/-- The edge at which the reset is released still resets the SoC. -/
theorem Session.start (h : (circuit F).Run b₀ is b) (h₀ : b₀.PoweredUp) (hb : b.socRst = true)
    (hrst : (b.next i).socRst = false) :
    ∃ r, Session b₀ (is ++ [i]) (b.next i).soc (is ++ [i]) [] r := by
  have h' : (circuit F).Run b₀ (is ++ [i]) (b.next i) := h.snoc trivial
  have hnext : (b.next i).soc = Soc.resetState F.soc (b.next i).soc.core.regfile b.soc.tcm.mem :=
    Soc.next_of_rst (fabric_run h h₀) hb
  have hmem : b.soc.tcm.mem = arrayAfter b₀ (is ++ [i]) := by
    rw [← array_run h']
    exact (congrArg (fun s : Soc F.soc => s.tcm.mem) hnext).symm
  generalize (b.next i).soc.core.regfile = r at hnext
  refine ⟨r, (List.append_nil _).symm, ?_, (socRst_eq_false_iff h' h₀).mp hrst, by simp, ?_⟩
  · rw [List.dropLast_concat, ← socRst_eq_false_iff h h₀, hb]
    simp
  · rw [hnext, hmem]
    exact .nil

/-- While the SoC is out of reset, it is in a session. -/
def InSession (b₀ : FpgaTop F) (is : List In) (b : FpgaTop F) : Prop :=
  b.socRst = false → ∃ boot js r, Session b₀ is b.soc boot js r

/-- Every period keeps the board in a session or in reset. -/
theorem InSession.next (h : InSession b₀ is b) (hr : (circuit F).Run b₀ is b)
    (h₀ : b₀.PoweredUp) : InSession b₀ (is ++ [i]) (b.next i) := by
  intro hrst
  cases hb : b.socRst with
  | true =>
    obtain ⟨r, hs⟩ := Session.start hr h₀ hb hrst
    exact ⟨_, [], r, hs⟩
  | false =>
    obtain ⟨boot, js, r, hs⟩ := h hb
    have hi : i.Quiet := ResetSync.quiet_of_released hrst
    have hin : b.socIn i = In.soc F i := by rw [socIn, hb, In.soc]
    refine ⟨boot, js ++ [i], r, ?_⟩
    show Session b₀ (is ++ [i]) (b.soc.next (b.socIn i)) boot (js ++ [i]) r
    rw [hin]
    exact hs.next hi

/-- The board is in a session or in reset. -/
theorem inSession_run (h : (circuit F).Run b₀ is b) (h₀ : b₀.PoweredUp) : InSession b₀ is b := by
  induction h with
  | nil =>
    intro hrst
    rw [socRst, h₀.resetSync] at hrst
    cases hrst
  | snoc hr _ ih => exact ih.next hr h₀

/-- Whatever the buttons and the clock do: while the SoC is out of reset, it is in a session. -/
theorem session (h : (circuit F).Run b₀ is b) (h₀ : b₀.PoweredUp) (hrst : b.socRst = false) :
    ∃ boot js r, Session b₀ is b.soc boot js r :=
  inSession_run h h₀ hrst

/-- The board with eight words of memory. -/
def tiny : FpgaParams where
  soc := Soc.tiny
  resetSyncStages_pos := by decide

/-- The board after configuration, with a program. -/
def configured (mem : Vector Word tiny.soc.tcm.wordCount) : FpgaTop tiny where
  heartbeatQ := 0#_
  soc := Soc.resetState _ (fun _ => 0#32) mem

theorem configured_poweredUp (mem : Vector Word tiny.soc.tcm.wordCount) :
    (configured mem).PoweredUp where
  resetSync := rfl
  fetch := by rintro ⟨⟩
  access := by rintro ⟨⟩
  owner := rfl

theorem run_exec (b : FpgaTop F) (is : List In) : (circuit F).Run b is ((circuit F).exec b is) :=
  .of_always <| Circuit.always_of_forall (Q := fun _ => True) fun _ _ => trivial

/-- A pulse on a button starts a second session. -/
theorem session_pulse :
    let b₀ := configured (.replicate 8 0x13#32)
    let is : List In := [{}, {}, {}, {}, {}, { fell := true }, {}, {}, {}]
    ∃ boot js r, Session b₀ is ((circuit tiny).exec b₀ is).soc boot js r :=
  session (run_exec _ _) (configured_poweredUp _) (by decide +kernel)

/-- The outputs of a board that shows nothing: no LED is lit, no status is set, and the serial line
is idle. -/
structure AtRest (b : FpgaTop F) (i : In) : Prop where
  led1N : b.led1N i = true
  led2N : b.led2N i = true
  fail : b.fail i = false
  done : b.done i = false
  uartTx : b.uartTx i = true
  gpioLed : b.gpioLed i = false

/-- From the cycle in which a reset source is active to the release of the SoC all outputs are at
rest, whatever the registers hold. -/
theorem atRest (h : b.shows i = false) : b.AtRest i where
  led1N := if_neg (by simp [h])
  led2N := if_neg (by simp [h])
  fail := by simp [fail, h]
  done := by simp [done, h]
  uartTx := by
    -- a reset source forces the line at once, the synchronised reset through `uart_tx`
    rw [uartTx]
    split
    next hn =>
      have hrst : b.socRst = true := by simpa [shows, hn] using h
      simp [Soc.uartTx, Uart.uartTx, Soc.uartIn, socIn, hrst]
    next => rfl
  gpioLed := by simp [gpioLed, h]

/-- The heartbeat stops with the completion that the mailbox holds. -/
theorem led1N_of_done (h : b.done i = true) : b.led1N i = true := by
  simp only [done, Bool.and_eq_true] at h
  simp [led1N, heartbeat, h.1, h.2]

/-- The status outputs tell the first completion of the session. -/
theorem verdict (h : (circuit F).Run b₀ is b) (h₀ : b₀.PoweredUp) (i : In)
    (hshows : b.shows i = true) : ∃ boot js r, Session b₀ is b.soc boot js r ∧
      let e := Soc.completion (Soc.resetState F.soc r (arrayAfter b₀ boot)) (js.map (In.soc F))
      b.done i = e.isSome ∧ b.fail i = e.any (·.memWdata != F.soc.testPassValue) ∧
        b.led2N i = !e.any (·.memWdata == F.soc.testPassValue) := by
  have hrst : b.socRst = false := by
    simp only [shows, Bool.and_eq_true, Bool.not_eq_true'] at hshows
    exact hshows.2
  obtain ⟨boot, js, r, hs⟩ := inSession_run h h₀ hrst
  refine ⟨boot, js, r, hs, ?_⟩
  have hquiet : ∀ j ∈ js.map (In.soc F), j.rst = false := by
    intro j hj
    obtain ⟨k, -, rfl⟩ := List.mem_map.mp hj
    rfl
  obtain ⟨hdone, hstatus⟩ := Soc.mailbox hs.run rfl rfl hquiet
  simp only [done, fail, led2N, hshows, Soc.testPass, Soc.testFail, hdone, hstatus, Bool.true_and,
    if_true]
  cases Soc.completion _ (js.map (In.soc F)) <;> simp

/-- A program that stores the pass value to the mailbox. -/
theorem verdict_pass :
    let b₀ := configured
      #v[0x00100093#32, 0x00102e23#32, 0x0000006f#32, 0#32, 0#32, 0#32, 0#32, 0#32]
    let is : List In := .replicate 20 {}
    let b := (circuit tiny).exec b₀ is
    (b.done {} = true ∧ b.fail {} = false ∧ b.led2N {} = false) ∧
      ∃ boot js r, Session b₀ is b.soc boot js r ∧
        let e := Soc.completion (Soc.resetState tiny.soc r (arrayAfter b₀ boot))
          (js.map (In.soc tiny))
        b.done {} = e.isSome ∧ b.fail {} = e.any (·.memWdata != tiny.soc.testPassValue) ∧
          b.led2N {} = !e.any (·.memWdata == tiny.soc.testPassValue) :=
  ⟨by decide +kernel,
    verdict (run_exec _ _) (configured_poweredUp _) {} (by decide +kernel)⟩

end FpgaTop

end Rv32im

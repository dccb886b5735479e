import Mathlib.Data.List.Induction
import Rv32im.Sequential.Instructions
import Rv32im.Soc.Board
import Rv32im.System.Protocol

/-!
# The SoC as a RISC-V hart

A program runs on the SoC as on a RISC-V hart with a byte-addressed memory and peripherals: the
core, the demultiplexer, the memory and its two ports add up to that. The instructions executed are
those in the memory, which for this has to keep the words that are fetched.

* `System.commit_fetched`, `System.fetches_aligned`: what is fetched in a run of the core;
* `Soc.Separate`: no store hits a word that is fetched;
* `Soc.Executed`, `Soc.executes_program`: the runs of the SoC.
-/

namespace Rv32im

open Clocked Memory Riscv

namespace System

variable {P : CoreParams} {s s₀ : System} {is : List CoreIn}

/-- The address of a packet in EX/MEM was fetched. -/
theorem exMem_fetched {x : ExMem} {F : IfId → Prop} (h : x.Executed F) :
    ∃ f, F f ∧ f.pc = x.pc := by
  obtain ⟨d, rs1, rs2, rdata, mepc, illegal, mdu, hd, -, -, rfl⟩ := h
  obtain ⟨f, hF, hv, hd | ⟨-, hd⟩⟩ := hd.form
  · refine ⟨f, hF, ?_⟩
    rw [hd]
    simp [ExStage.packet, IdStage.packet, hv]
  · refine ⟨f, hF, ?_⟩
    rw [hd]
    simp [ExStage.packet, IdEx.interrupt]

/-- What commits in a run was fetched and answered. -/
theorem commit_fetched (hs : Started P s₀) (hr : (circuit P).Run s₀ is s)
    {e : Observation × TraceEvent} (he : e ∈ (circuit P).trace observed s₀ is) :
    ∃ rsp, s.imem.Answered { addr := e.2.pc } rsp := by
  -- the packet in MEM/WB is the next to commit
  have hinv : Reachable P s ∧
      (∀ e ∈ (circuit P).trace observed s₀ is, ∃ rsp, s.imem.Answered { addr := e.2.pc } rsp) ∧
      (s.core.memWbQ.valid = true → ∃ rsp, s.imem.Answered { addr := s.core.memWbQ.pc } rsp) := by
    refine hr.trace_invariant (I := fun es s => Reachable P s ∧
      (∀ e : Observation × TraceEvent, e ∈ es → ∃ rsp, s.imem.Answered { addr := e.2.pc } rsp) ∧
      (s.core.memWbQ.valid = true → ∃ rsp, s.imem.Answered { addr := s.core.memWbQ.pc } rsp))
      ⟨.start hs, by simp, fun hv => by simp [hs.slots.2.2.2] at hv⟩ ?_
    rintro es s i ⟨hreach, hes, hw⟩ hl
    refine ⟨hreach.step hl, ?_, fun hv => ?_⟩
    · intro e he
      have hans : ∃ rsp, s.imem.Answered { addr := e.2.pc } rsp := by
        rcases List.mem_append.mp he with he | he
        · exact hes e he
        · obtain ⟨ev, hev, rfl⟩ := Option.map_eq_some_iff.mp (Option.mem_toList.mp he)
          rw [Core.event] at hev
          split at hev
          next hv =>
            obtain rfl := Option.some.inj hev
            exact hw hv
          next => contradiction
      obtain ⟨rsp, hrsp⟩ := hans
      exact ⟨rsp, hrsp.step _ _⟩
    · obtain ⟨hmem, hx, -⟩ := memWb_next (P := P) hv
      have hv' : (s.core.memWbD i).valid = true := hmem ▸ hv
      obtain ⟨f, ⟨rsp, hans, -⟩, hpc⟩ := exMem_fetched (hreach.inOrder.packets.exMem hx)
      have haddr : ((circuit P).next s i).core.memWbQ.pc = f.pc := by
        rw [hpc, ← (Core.memWbD_pc hv').1]
        exact congrArg MemWb.pc hmem
      rw [haddr]
      exact ⟨rsp, hans.step _ _⟩
  exact hinv.2.1 e he

/-- The fetches of a run are reads of aligned words. -/
theorem fetches_aligned (hP : Word.Aligned P.resetVector) (hs : Started P s₀)
    (h₀ : s₀.imem.accepted = []) (hr : (circuit P).Run s₀ is s) {f : MemReq}
    (hf : f ∈ s.imem.accepted) : f = fetchReq f.addr ∧ Word.Aligned f.addr := by
  have hinv : Reachable P s ∧ ∀ f ∈ s.imem.accepted, f = fetchReq f.addr ∧ Word.Aligned f.addr := by
    refine hr.invariant (I := fun s => Reachable P s ∧
      ∀ f ∈ s.imem.accepted, f = fetchReq f.addr ∧ Word.Aligned f.addr)
      ⟨.start hs, by simp [h₀]⟩ ?_
    rintro s i ⟨hreach, hacc⟩ hl
    refine ⟨hreach.step hl, fun f hf => ?_⟩
    rcases List.mem_append.mp hf with hf | hf
    · exact hacc f hf
    · rw [eq_of_imemReq (Option.mem_toList.mp hf)]
      exact ⟨rfl, (hreach.core.fetchAligned hP).reqAddr Core.aligned_redirectPc⟩
  exact hinv.2 f hf

end System

/-! ### Instructions in memory -/

namespace TcmParams

variable {p : TcmParams} {a b : Word}

/-- Each word of the array has one address. -/
theorem wordIndex_inj (ha : p.inRange a = true) (hb : p.inRange b = true)
    (h : p.wordIndex a = p.wordIndex b) : a = b := by
  have haligned {x : Word} (hx : p.inRange x = true) : Word.align x = x := by
    refine Word.align_of_aligned ?_
    rw [inRange, Bool.and_eq_true] at hx
    exact eq_of_beq hx.2
  have hrange {x : Word} (hx : p.inRange x = true) :
      p.baseAddr.toNat ≤ x.toNat ∧ x.toNat < p.limit := by
    have hr := (inRange_align x).mp ((haligned hx).symm ▸ hx)
    rwa [haligned hx] at hr
  have hidx := congrArg BitVec.toNat h
  rw [toNat_wordIndex a (hrange ha).1 (hrange ha).2,
    toNat_wordIndex b (hrange hb).1 (hrange hb).2] at hidx
  have hmula := congrArg BitVec.toNat (haligned ha)
  have hmulb := congrArg BitVec.toNat (haligned hb)
  rw [toNat_align] at hmula hmulb
  have := (hrange ha).1
  have := (hrange hb).1
  exact BitVec.eq_of_toNat_eq (by omega)

end TcmParams

namespace Tcm

variable {p : TcmParams} {mem : Vector Word p.wordCount} {f w : MemReq}

/-- A store to another word does not change what is fetched. -/
theorem fetch_write (h : w.addr ≠ f.addr) : fetch (write mem w) f = fetch mem f := by
  by_cases hok : imemReadOk p f = true
  · by_cases hw : (p.inRange w.addr && w.write) = true
    · have hf : p.inRange f.addr = true := by
        simp only [imemReadOk, Bool.and_eq_true] at hok
        exact hok.1.1
      rw [Bool.and_eq_true] at hw
      have hne : (p.wordIndex w.addr).toNat ≠ (p.wordIndex f.addr).toNat := fun heq =>
        h (TcmParams.wordIndex_inj hw.1 hf (BitVec.eq_of_toNat_eq heq))
      have hread : read { mem := write mem w } f.addr = read { mem } f.addr := by
        simp [read, write, hw, Vector.getElem?_setIfInBounds_ne hne]
      rw [fetch, fetch, hread]
    · rw [write, if_neg hw]
  · simp [fetch, MemRspQ.next, hok]

end Tcm

namespace Soc

variable {P : SocParams} {s : Soc P} {q : System} {r : Regfile}
  {mem₀ : Vector Word P.tcm.wordCount} {is : List (In P)}

/-- Stores to other words do not change what is fetched. -/
theorem fetch_written {f : MemReq} {rs : List MemReq}
    (h : ∀ w ∈ rs, target P w = .tcm → w.write = true → w.addr ≠ f.addr) :
    Tcm.fetch (written mem₀ rs) f = Tcm.fetch mem₀ f := by
  induction rs using List.reverseRecOn with
  | nil => rfl
  | append_singleton rs w ih =>
    have ih := ih fun w' hw' => h w' (by simp [hw'])
    rw [written_append, ← ih, written]
    by_cases ht : target P w = .tcm
    · have hsent : sentTo P .tcm [w] = [w] := by simp [sentTo, ht]
      rw [hsent, List.foldl_cons, List.foldl_nil]
      cases hw : w.write with
      | false => rw [Tcm.write_of_read hw]
      | true => exact Tcm.fetch_write (h w (by simp) ht hw)
    · have hsent : sentTo P .tcm [w] = [] := by simp [sentTo, ht]
      rw [hsent, List.foldl_nil]

/-- The program is apart from the data: no store goes to a word that is fetched in the run. -/
def Separate (s₀ : Soc P) (is : List (In P)) : Prop :=
  ∀ f ∈ (circuit P).trace fetched s₀ is, ∀ w ∈ (circuit P).trace request s₀ is,
    target P w = .tcm → w.write = true → w.addr ≠ f.addr

/-- Whether a run keeps program and data apart can be computed. -/
instance (s₀ : Soc P) (is : List (In P)) : Decidable (Separate s₀ is) :=
  inferInstanceAs (Decidable (∀ f ∈ _, ∀ w ∈ _, _ → _ → _))

/-- The answers of the peripherals in a run. -/
def peripherals (s₀ : Soc P) (is : List (In P)) (k : ℕ) : MemRsp :=
  ((circuit P).trace deviceAnswer s₀ is)[k]?.getD {}

/-- The instructions in the array, and the answers on the data port; for the request not answered
yet the one it will get from the memory. -/
def env (mem₀ : Vector Word P.tcm.wordCount) (q : System) : Env where
  prog k := Tcm.fetch mem₀ { addr := k ++ 0#2 }
  answers k := q.dmem.answered[k]?.getD <| q.dmem.accepted[k]?.elim {} fun r =>
    if target P r = .tcm then Tcm.answer (written mem₀ (q.dmem.accepted.take k)) r else {}

/-- The program is what the instruction port reads of the memory. -/
theorem prog_env {a : Word} (ha : Word.Aligned a) :
    (env mem₀ q).prog (Word.index a) = Tcm.fetch mem₀ { addr := a } := by
  have haddr : Word.index a ++ 0#2 = a := Word.align_of_aligned ha
  show Tcm.fetch mem₀ { addr := Word.index a ++ 0#2 } = _
  rw [haddr]

/-- What is selected from the pairs of two lists, at the position of a selected element. -/
private theorem getElem?_filter_zip {α β : Type*} {l : List α} (l' : List β) (p : α → Bool)
    {k : ℕ} {a : α} (hk : l[k]? = some a) (ha : p a = true) :
    (((l.zip l').filter (p ·.1)).map Prod.snd)[((l.take k).filter p).length]? = l'[k]? := by
  induction l generalizing l' k with
  | nil => simp at hk
  | cons x l ih =>
    cases l' with
    | nil => simp
    | cons y l' =>
      cases k with
      | zero =>
        obtain rfl : x = a := by simpa using hk
        simp [ha]
      | succ k =>
        have hk : l[k]? = some a := by simpa using hk
        cases hx : p x <;> simp [hx, ih l' hk]

namespace Records

variable (h : Records r mem₀ is s q)
include h

/-- The ports answer like the board. -/
theorem answers : Board.Answers mem₀ (peripherals (resetState P r mem₀) is) q.dmem.accepted
    (env mem₀ q).answers where
  tcm k req hk ht := by
    simp only [env, hk, Option.elim_some, if_pos ht]
    cases ha : q.dmem.answered[k]? with
    | none => rfl
    | some a => exact h.wired.answers k req a ⟨hk, ha⟩ ht
  device k req hk ht := by
    have hget := getElem?_filter_zip q.dmem.answered (target P · ≠ .tcm) hk (by simpa using ht)
    have hdev := h.devices
    rw [Channel.exchanges] at hdev
    rw [hdev] at hget
    simp only [env, hk, Option.elim_some, if_neg ht, peripherals, Board.after]
    rw [hget]

/-- The ports show the program, if it is apart from the data. -/
theorem explains (hP : Word.Aligned P.core.resetVector) (hsep : Separate (resetState P r mem₀) is) :
    (env mem₀ q).Explains 0 q where
  imem f a hans := by
    obtain ⟨k, rfl⟩ := h.wired.fetches f a hans
    obtain ⟨j, hj, -⟩ := hans
    have hmem := List.mem_of_getElem? hj
    obtain ⟨hread, ha⟩ := System.fetches_aligned hP (started_coreStart P r) rfl h.run hmem
    rw [h.fetches] at hmem
    rw [prog_env ha]
    show _ = Tcm.fetch mem₀ (System.fetchReq f.addr)
    rw [← hread]
    refine fetch_written fun w hw => hsep f hmem w ?_
    rw [← h.requests]
    exact List.mem_of_mem_take hw
  dmem k a ha := by
    rw [Nat.zero_add] at ha
    simp [env, ha]

/-- A fetch from the board is one from the instruction port. -/
theorem fetch (hp : P.tcm.Placed) (hP : Word.Aligned P.core.resetVector)
    (hsep : Separate (resetState P r mem₀) is) {a : Word} {m : List MemReq} {dev : ℕ → MemRsp}
    (ha : ({ addr := a } : MemReq) ∈ q.imem.accepted) (hm : m <+: q.dmem.accepted) :
    (Board.bus P dev).fetch (Board.after mem₀ m) a = (env mem₀ q).bus.fetch m a := by
  obtain ⟨-, halign⟩ := System.fetches_aligned hP (started_coreStart P r) rfl h.run ha
  have hword : Word.align a = a := Word.align_of_aligned halign
  have hmod : a.toNat % 4 = 0 := by
    have hnat := congrArg BitVec.toNat hword
    rw [toNat_align] at hnat
    omega
  have hprog : (env mem₀ q).prog (Word.index a) = Tcm.fetch (written mem₀ m) { addr := a } := by
    rw [h.fetches] at ha
    rw [prog_env halign, fetch_written]
    refine fun w hw => hsep _ ha w ?_
    rw [← h.requests]
    exact hm.subset hw
  have hok : Tcm.imemReadOk P.tcm { addr := a } = P.tcm.inRange a := by simp [Tcm.imemReadOk]
  simp only [Board.bus, Env.bus, hprog, Tcm.fetch, MemRspQ.next, hok]
  by_cases hh : P.tcm.Holds a
  · have hr : P.tcm.inRange a = true := hword ▸ (holds_iff hp).mpr hh
    have hload := load_read (written mem₀ m) .word hp hh hmod
    rw [hword, hmod] at hload
    have hload : Tcm.read { mem := written mem₀ m } a =
        (P.tcm.bytesOf (written mem₀ m)).load a.toNat 4 := by
      rw [Nat.mul_zero, BitVec.ushiftRight_zero] at hload
      exact (BitVec.setWidth_eq _).symm.trans hload
    simp [hh, hr, Board.after, hload]
  · have hr : P.tcm.inRange a = false := by
      simpa [hword] using mt (holds_iff hp).mp hh
    simp [hh, hr]

end Records

/-! ### Runs -/

/-- The hart after a reset. -/
def resetHart (P : SocParams) (r : Regfile) (mem : Vector Word P.tcm.wordCount) : Hart Board where
  pc := P.core.resetVector
  x := r
  csrs := { mtvec := Word.align P.core.trapVector }
  mem := { bytes := P.tcm.bytesOf mem }

/-- The commits of a run, with what each of them met on its way through the pipeline. -/
def observed (r : Regfile) (s₀ : Soc P) (is : List (In P)) : List (Observation × TraceEvent) :=
  (System.circuit P.core).trace System.observed (coreStart P r) (ports s₀ is)

/-- The hart has done what the SoC has done in the run: it has committed the same, its registers and
CSRs are those of the core, and its memory and its peripherals have got the same requests, apart
from one access at most whose instruction has not committed yet. -/
structure Executed (r : Regfile) (mem₀ : Vector Word P.tcm.wordCount) (is : List (In P)) (s : Soc P)
    (h : Hart Board) : Prop where
  path : Path (Hart.Seen (Board.bus P (peripherals (resetState P r mem₀) is))
      (fun l => TraceEvent.Shows l.2) fun l => l.1.inputs)
    (resetHart P r mem₀) (observed r (resetState P r mem₀) is) h
  events : (observed r (resetState P r mem₀) is).map Prod.snd =
    (circuit P).trace event (resetState P r mem₀) is
  x : h.x = s.core.regfile
  csrs : h.csrs = s.core.csrFile.csrs
  mem : ∃ m rs, (circuit P).trace request (resetState P r mem₀) is = m ++ rs ∧ rs.length ≤ 1 ∧
    h.mem = Board.after mem₀ m ∧ s.tcm.mem = written mem₀ (m ++ rs)

/-- What has been recorded of a run is a run of a RISC-V hart. -/
theorem Records.executed (hq : Records r mem₀ is s q) (hp : P.tcm.Placed)
    (hP : Word.Aligned P.core.resetVector) (hsep : Separate (resetState P r mem₀) is) :
    ∃ h, Executed r mem₀ is s h := by
  obtain ⟨h, hh⟩ := (started_coreStart P r).executed hq.run hq.rst (hq.explains hP hsep)
  obtain ⟨rs, hacc, hlen⟩ := hh.requests
  have hacc : q.dmem.accepted = h.mem ++ rs := hacc
  have hprefix : h.mem <+: q.dmem.accepted := hacc ▸ List.prefix_append ..
  have hfetched : ∀ l ∈ (System.circuit P.core).trace System.observed (coreStart P r)
      (ports (resetState P r mem₀) is), ({ addr := l.2.pc } : MemReq) ∈ q.imem.accepted := by
    intro l hl
    obtain ⟨a, k, hk, -⟩ := System.commit_fetched (started_coreStart P r) hq.run hl
    exact List.mem_of_getElem? hk
  -- the board in place of the ports
  obtain ⟨m, hpath, rfl⟩ := Hart.path_simulates (Board.simulates hp hq.answers)
    (fun g m l k hl hshows hpc hm hok => by
      rw [hm]
      exact hq.fetch hp hP hsep (by rwa [hshows.pc, hpc] at hl) hok)
    hh.path hfetched rfl hprefix
  refine ⟨_, hpath, ?_, ?_, ?_, h.mem, rs, ?_, hlen, rfl, ?_⟩
  · rw [← hq.events, observed, Circuit.map_trace]
    congr 1
    funext q' c
    rw [System.observed, Option.map_map]
    exact Option.map_id'
  · exact hh.x.trans (congrArg Core.regfile hq.wired.core)
  · exact hh.csrs.trans (congrArg (fun c : Core => c.csrFile.csrs) hq.wired.core)
  · rw [← hq.requests, hacc]
  · rw [← hacc, hq.wired.mem]

/-- Every run of the SoC from the reset state is a run of a RISC-V hart in its address space. A step
that reads `mcycle` has its value as an input. -/
theorem executes_program (hp : P.tcm.Placed) (hP : Word.Aligned P.core.resetVector)
    (hr : (circuit P).Run (resetState P r mem₀) is s) (hrst : ∀ i ∈ is, i.rst = false)
    (hsep : Separate (resetState P r mem₀) is) : ∃ h, Executed r mem₀ is s h := by
  obtain ⟨q, hq⟩ := records_run hr hrst
  exact hq.executed hp hP hsep

/-- A register is stored and loaded back. -/
theorem executes_program_store :
    let prog : Vector Word tiny.tcm.wordCount :=
      -- `addi x1, x0, 5`, `sw x1, 28(x0)`, `lw x2, 28(x0)`, `jal x0, 0`
      #v[0x00500093#32, 0x00102e23#32, 0x01c02103#32, 0x0000006f#32, 0x13#32, 0x13#32, 0x13#32,
        0x13#32]
    let s₀ := resetState tiny (fun _ => 0#32) prog
    let is : List (In tiny) := .replicate 13 { gpioIn := 0#32 }
    (∃ h, Executed (fun _ => 0#32) prog is ((circuit tiny).exec s₀ is) h) ∧
      ((circuit tiny).trace event s₀ is).map (fun e => (e.pc, e.rd)) =
        [(0#32, some (1#5, 5#32)), (4#32, none), (8#32, some (2#5, 5#32)), (12#32, none)] :=
  ⟨executes_program ⟨by decide, by decide⟩ (by decide)
    (Circuit.Run.of_always (Circuit.always_of_forall (Q := fun _ => True) fun _ _ => trivial))
    (by decide +kernel) (by decide +kernel), by decide +kernel⟩

end Soc

end Rv32im

import Rv32im.Software.Startup
import Rv32im.Software.TrapEntry
import Rv32im.Soc.Hart

/-!
# Software on the SoC

The memory of the SoC is one to a hart, so that what is proved about machine code holds in the runs
of the SoC.

* `SocParams.Apart`: no peripheral lies in the memory;
* `Board.ram`: the memory in the address space of the SoC;
* `Soc.reaches`: what the hart cannot help getting to, a run of the SoC passes through;
* `Soc.boots`: the startup code.
-/

namespace Rv32im

open Clocked Memory Riscv

/-- No address of the memory is claimed by a peripheral. -/
def SocParams.Apart (P : SocParams) : Prop :=
  ∀ a, P.tcm.Holds a → MemDemux.requestTarget P.demux (Word.align a) = .tcm

/-- An address below a bit that the base of an aperture has is not in the aperture. -/
theorem addressMatches_eq_false {a base mask : Word} {k : ℕ} (ha : a.toNat < 2 ^ k)
    (hbase : (base &&& mask) >>> k ≠ 0#32) : addressMatches a base mask = false := by
  rw [addressMatches, beq_eq_false_iff_ne]
  intro h
  have hzero : a >>> k = 0#32 := by
    apply BitVec.eq_of_toNat_eq
    rw [BitVec.toNat_ushiftRight, Nat.shiftRight_eq_div_pow]
    exact Nat.div_eq_of_lt ha
  have hshift := congrArg (fun w : BitVec 32 => w >>> k) h
  simp only [BitVec.ushiftRight_and_distrib, BitVec.ushiftRight_xor_distrib, hzero,
    BitVec.zero_xor, BitVec.zero_ushiftRight] at hshift
  exact hbase (by rw [BitVec.ushiftRight_and_distrib]; exact hshift)

/-- The memory lies below the apertures. -/
theorem SocParams.Apart.of_below {P : SocParams} {k : ℕ} (hk : P.tcm.limit ≤ 2 ^ k)
    (htimer : (P.demux.timerBaseAddr &&& P.demux.timerAddrMask) >>> k ≠ 0#32)
    (huart : (P.demux.uartBaseAddr &&& P.demux.uartAddrMask) >>> k ≠ 0#32)
    (hgpio : (P.demux.gpioBaseAddr &&& P.demux.gpioAddrMask) >>> k ≠ 0#32) : P.Apart := by
  intro a ha
  have hlt : (Word.align a).toNat < 2 ^ k := by
    rw [toNat_align]
    have := ha.2
    omega
  rw [MemDemux.requestTarget, addressMatches_eq_false hlt htimer,
    addressMatches_eq_false hlt huart, addressMatches_eq_false hlt hgpio]
  rfl

/-- The memory in the address space. -/
def Board.ram (P : SocParams) (dev : ℕ → MemRsp) (hp : P.tcm.Placed) (hap : P.Apart) :
    (Board.bus P dev).Ram where
  bytes := Board.bytes
  set b bytes := { b with bytes }
  lo := P.tcm.baseAddr.toNat
  hi := P.tcm.limit
  hi_le := hp.fits
  bytes_set _ _ := rfl
  set_set _ _ _ := rfl
  set_bytes _ := rfl
  fetch m a hlo hhi := if_pos ⟨hlo, hhi⟩
  load m a n hlo hhi := by
    have h : P.tcm.Holds a := ⟨hlo, hhi⟩
    simp only [bus, hap a h, h, if_true]
  store m a n v hlo hhi := by
    have h : P.tcm.Holds a := ⟨hlo, hhi⟩
    simp only [bus, hap a h, h, if_true]

namespace Soc

variable {P : SocParams} {s : Soc P} {r : Regfile} {mem₀ : Vector Word P.tcm.wordCount}
  {is : List (In P)}

/-- The address space that the hart finds in a run. -/
def runBus (r : Regfile) (mem₀ : Vector Word P.tcm.wordCount) (is : List (In P)) : Bus Board :=
  Board.bus P (peripherals (resetState P r mem₀) is)

/-- A run of the SoC passes through a state `g` of the hart, after `n` commits at most. -/
def Passes (r : Regfile) (mem₀ : Vector Word P.tcm.wordCount) (is : List (In P)) (s : Soc P) (n : ℕ)
    (g : Hart Board) : Prop :=
  ∃ es es' h, observed r (resetState P r mem₀) is = es ++ es' ∧ es.length ≤ n ∧
    Path (Hart.Seen (runBus r mem₀ is) (fun l => TraceEvent.Shows l.2) fun l => l.1.inputs)
      (resetHart P r mem₀) es g ∧
    Path (Hart.Seen (runBus r mem₀ is) (fun l => TraceEvent.Shows l.2) fun l => l.1.inputs)
      g es' h ∧ Executed r mem₀ is s h

/-- What the hart cannot help getting to within `n` steps, a run of the SoC with as many commits
passes through. -/
theorem reaches {Q : Hart Board → Prop} {n : ℕ} (hp : P.tcm.Placed)
    (hP : Word.Aligned P.core.resetVector) (hr : (circuit P).Run (resetState P r mem₀) is s)
    (hrst : ∀ i ∈ is, i.rst = false) (hsep : Separate (resetState P r mem₀) is)
    (hQ : Hart.Gets (runBus r mem₀ is) Q n (resetHart P r mem₀))
    (hn : n ≤ ((circuit P).trace event (resetState P r mem₀) is).length) :
    ∃ g, Passes r mem₀ is s n g ∧ Q g := by
  obtain ⟨q, hq⟩ := records_run hr hrst
  obtain ⟨h, hh⟩ := hq.executed hp hP hsep
  have hlen : (observed r (resetState P r mem₀) is).length =
      ((circuit P).trace event (resetState P r mem₀) is).length := by
    rw [← hh.events, List.length_map]
  obtain ⟨es, es', g, hes, hle, hpath, hg, hpath'⟩ := hQ.path
    (fun a e b ⟨k, _, hs⟩ => ⟨_, k, hs⟩) hh.path (by rw [hlen]; exact hn)
  exact ⟨g, ⟨es, es', h, hes, hle, hpath, hpath', hh⟩, hg⟩

/-- The memory in a run. -/
def runRam (r : Regfile) (mem₀ : Vector Word P.tcm.wordCount) (is : List (In P))
    (hp : P.tcm.Placed) (hap : P.Apart) : (runBus r mem₀ is).Ram :=
  Board.ram P (peripherals (resetState P r mem₀) is) hp hap

/-- With the startup code at the reset vector, every run of the SoC that is long enough calls
`main`, with the stack and the trap vector set up and the `bss` section cleared. -/
theorem boots (hp : P.tcm.Placed) (hap : P.Apart) (hP : Word.Aligned P.core.resetVector)
    (hr : (circuit P).Run (resetState P r mem₀) is s) (hrst : ∀ i ∈ is, i.rst = false)
    (hsep : Separate (resetState P r mem₀) is) {y : Startup.Symbols}
    (hpl : Startup.Placed (runRam r mem₀ is hp hap) y P.core.resetVector 76)
    (hcode : (runBus r mem₀ is).Code (resetHart P r mem₀).mem P.core.resetVector
      (Crt0.code P.core.resetVector y))
    (hn : 4 * y.bssWords + 14 ≤ ((circuit P).trace event (resetState P r mem₀) is).length) :
    ∃ g, Passes r mem₀ is s (4 * y.bssWords + 14) g ∧
      Startup.AtMain (runRam r mem₀ is hp hap) y (P.core.resetVector + 68#32)
        (Crt0.csrs y (resetHart P r mem₀).csrs) (resetHart P r mem₀) g :=
  reaches hp hP hr hrst hsep (Crt0.gets_main hpl rfl rfl hcode) hn

/-! A program that only has startup code. -/

/-- Parameters with a memory of 32 words. -/
def small : SocParams where
  tcm :=
    { wordCount := 32, baseAddr := 0#32, wordCount_pos := by decide, wordCount_lt := by decide }
  demux := DemuxSystem.defaultMap
  uartBaudRate_ne := tiny.uartBaudRate_ne
  uartClkFreqHz_ne := tiny.uartClkFreqHz_ne
  uart_four_le := tiny.uart_four_le
  gpioWidth_pos := tiny.gpioWidth_pos
  gpioWidth_le := tiny.gpioWidth_le

theorem small_placed : small.tcm.Placed := ⟨by decide, by decide⟩

theorem small_apart : small.Apart :=
  .of_below (k := 7) (by decide) (by decide) (by decide) (by decide)

/-- The symbols: one word of `bss` behind `main`, which loops. -/
def smallSymbols : Startup.Symbols where
  globalPointer := 0x860#32
  stackTop := 0x80#32
  bssStart := 0x60#32
  bssEnd := 0x61#32
  trap := 0x4c#32
  main := 0x4c#32
  exit := 0x4c#32

/-- The program; the word of `bss` is not zero at first. -/
def smallProgram : Vector Word small.tcm.wordCount :=
  ⟨((Crt0.code 0#32 smallSymbols).map Instr.encode ++ .replicate 13 0x6f#32).toArray, by decide⟩

/-- A run that calls `main`. -/
def smallRun : List (In small) := .replicate 60 { gpioIn := 0#32 }

/-- The run passes through the call, with the word cleared. -/
theorem boots_small :
    let h := resetHart small (fun _ => 0#32) smallProgram
    let R := runRam (fun _ => 0#32) smallProgram smallRun small_placed small_apart
    ∃ g, Passes (fun _ => 0#32) smallProgram smallRun
        ((circuit small).exec (resetState small (fun _ => 0#32) smallProgram) smallRun) 18 g ∧
      Startup.AtMain R smallSymbols 68#32 (Crt0.csrs smallSymbols h.csrs) h g := by
  have hr : (circuit small).Run (resetState small (fun _ => 0#32) smallProgram) smallRun
      ((circuit small).exec (resetState small (fun _ => 0#32) smallProgram) smallRun) :=
    .of_always (Circuit.always_of_forall (Q := fun _ => True) fun _ _ => trivial)
  have hrst : ∀ i ∈ smallRun, i.rst = false := by decide +kernel
  have hsep : Separate (resetState small (fun _ => 0#32) smallProgram) smallRun := by
    decide +kernel
  have hpl : Startup.Placed (runRam (fun _ => 0#32) smallProgram smallRun small_placed small_apart)
      smallSymbols small.core.resetVector 76 :=
    ⟨by decide, ⟨by decide, by decide⟩, by decide, by decide, ⟨by decide, by decide⟩, by decide,
      by decide⟩
  have hcode : (runBus (fun _ => 0#32) smallProgram smallRun).Code
      (resetHart small (fun _ => 0#32) smallProgram).mem small.core.resetVector
      (Crt0.code small.core.resetVector smallSymbols) := by
    decide +kernel
  exact boots small_placed small_apart (by decide) hr hrst hsep hpl hcode (by decide +kernel)

end Soc

end Rv32im

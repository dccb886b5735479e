import Rv32im.Clocked.Circuit
import Rv32im.Counter.Halves
import Rv32im.Rtl.Mtimer
import Rv32im.Units.CsrFile

/-!
# Reading the 64-bit counters

`rv32_soc_mtime_read` and `read_counter` read the upper half of a counter, the lower and the upper
again, and start over if the upper halves differ. Here they run beside the counter, which goes on
between the reads, with any number of cycles and of passes in between.

* `SplitRead`, `rv32SocMtimeRead`, `readCounter`: the two functions;
* `CounterPort`: a device with a counter; `Mtimer.mtimePort`, `CsrFile.mcyclePort`,
  `CsrFile.minstretPort`;
* `CounterCalls`: the device and the calls made so far; `CounterCalls.Untorn`: what they return;
* `counter_reads_untorn`: this holds of all three counters.
-/

namespace Rv32im

open Clocked

/-! ### The functions -/

/-- What a read loop reads and returns: the addresses of the halves, and the result from
`high_before`, `low` and `high_after`. -/
structure SplitRead (α : Type) where
  high : α
  low : α
  result : Word → Word → Word → BitVec 64

namespace SplitRead

/-- The next read of the loop, with the variables assigned before it. -/
inductive State
  | highBefore
  | low (highBefore : Word)
  | highAfter (highBefore low : Word)
deriving DecidableEq, Repr

variable {α : Type} (f : SplitRead α)

/-- The address of the next read. -/
def addr : State → α
  | .highBefore | .highAfter _ _ => f.high
  | .low _ => f.low

/-- The loop after a read that gives `data`, and the value returned if it ends. -/
def step (data : Word) : State → State × Option (BitVec 64)
  | .highBefore => (.low data, none)
  | .low highBefore => (.highAfter highBefore data, none)
  | .highAfter highBefore low =>
    -- `while (high_before != high_after)`; the state is that of the next call then
    if highBefore ≠ data then (.highBefore, none)
    else (.highBefore, some (f.result highBefore low data))

end SplitRead

/-- `((uint64_t)high << 32) | (uint64_t)low`. -/
def joinHalves (high low : Word) : BitVec 64 := high.setWidth 64 <<< 32 ||| low.setWidth 64

/-- `rv32_soc_mtime_read`, for a value of `RV32_SOC_TIMER_BASE`. -/
def rv32SocMtimeRead (timerBase : Word) : SplitRead Word where
  high := timerBase + 0xbffc#32
  low := timerBase + 0xbff8#32
  result highBefore low _ := joinHalves highBefore low

/-- `read_counter`, which selects the CSRs by the first address only. -/
def readCounter (lowCsr _highCsr : CsrAddr) : SplitRead CsrAddr :=
  if lowCsr = 0xb00#12 then
    { high := csrMcycleh, low := csrMcycle
      result := fun _ low highAfter => joinHalves highAfter low }
  else
    { high := csrMinstreth, low := csrMinstret
      result := fun _ low highAfter => joinHalves highAfter low }

/-- `read_mcycle64`. -/
def readMcycle64 : SplitRead CsrAddr := readCounter 0xb00#12 0xb80#12

/-- `read_minstret64`. -/
def readMinstret64 : SplitRead CsrAddr := readCounter 0xb02#12 0xb82#12

/-! ### The counters -/

/-- A device with a 64-bit counter. -/
structure CounterPort (σ ι α : Type) where
  /-- A cycle without reset in which nobody writes the counter. -/
  legal : ι → Prop
  next : σ → ι → σ
  value : σ → BitVec 64
  /-- The data of a read of an address made in this cycle. -/
  read : σ → ι → α → Option Word

/-- The device counts up, or stands still, and a loop that reads its halves gets them. -/
structure CounterPort.Counts {σ ι α : Type} (D : CounterPort σ ι α) (f : SplitRead α) : Prop where
  next : ∀ s i, D.legal i → D.value (D.next s i) = D.value s ∨
    D.value (D.next s i) = D.value s + 1#64
  high : ∀ s i d, D.legal i → D.read s i f.high = some d → d = (D.value s).extractLsb 63 32
  low : ∀ s i d, D.legal i → D.read s i f.low = some d → d = (D.value s).extractLsb 31 0
  result : ∀ high low, f.result high low high = joinHalves high low

/-- `mtime` on the bus of the timer. A load is answered in the next cycle, with what it sampled when
it was accepted. -/
def Mtimer.mtimePort (p : MtimerParams) : CounterPort Mtimer Mtimer.In Word where
  legal i := i.rst = false ∧
    ¬ (writes p i = true ∧ (i.bus.req.addr = p.mtimeLoAddr ∨ i.bus.req.addr = p.mtimeHiAddr))
  next q i := q.next p i
  value := mtimeQ
  read q i a :=
    let rsp := (q.next p i).rsp.rsp
    (i.bus.accepted (reqReady i)).bind fun req =>
      if req.addr = a ∧ req.write = false ∧ rsp.err = false then some rsp.rdata else none

/-- `mcycle` in the CSR file, whose reads are combinational. -/
def CsrFile.mcyclePort : CounterPort CsrFile CsrFile.In CsrAddr where
  legal i := writes i.commit csrMcycle = false ∧ writes i.commit csrMcycleh = false
  next q i := q.next i.commit
  value := mcycleQ
  read q i a := some (q.rdata i.mtip a)

/-- `minstret` in the CSR file. -/
def CsrFile.minstretPort : CounterPort CsrFile CsrFile.In CsrAddr where
  legal i := writes i.commit csrMinstret = false ∧ writes i.commit csrMinstreth = false
  next q i := q.next i.commit
  value := minstretQ
  read q i a := some (q.rdata i.mtip a)

/-! ### The calls -/

/-- A call that has returned. -/
structure CounterResult where
  value : BitVec 64
  /-- The counter in the cycle in which its lower half was read. -/
  sample : BitVec 64
  /-- The count at the three reads of the last pass. -/
  first : ℕ
  sampled : ℕ
  last : ℕ
deriving DecidableEq, Repr

/-- The last pass is short enough for equal upper halves to mean anything. -/
def CounterResult.Short (r : CounterResult) : Prop := r.last - r.first < 2 ^ 64 - 2 ^ 32

/-- The device, the count, the call under way and those that have returned, in order. The count is
the value of the counter, if it had started there and never wrapped. -/
structure CounterCalls (σ : Type) where
  device : σ
  count : ℕ
  state : SplitRead.State := .highBefore
  first : ℕ := 0
  sampled : ℕ := 0
  sample : BitVec 64 := 0#64
  results : List CounterResult := []

namespace CounterCalls

/-- The inputs of the device, and whether the read of this cycle is the one of the loop. -/
structure In (ι : Type) where
  device : ι
  mine : Bool

variable {σ ι α : Type} (D : CounterPort σ ι α) (f : SplitRead α) (s : CounterCalls σ) (i : In ι)

/-- The data the loop reads in this cycle. -/
def data : Option Word := if i.mine then D.read s.device i.device (f.addr s.state) else none

/-- The loop after it has read `d`. -/
def afterRead (d : Word) : CounterCalls σ :=
  let s' := { s with state := (f.step d s.state).1 }
  match s.state, (f.step d s.state).2 with
  | .highBefore, _ => { s' with first := s.count }
  | .low _, _ => { s' with sampled := s.count, sample := D.value s.device }
  | .highAfter _ _, none => s'
  | .highAfter _ _, some value =>
    { s' with results := s.results ++ [{ value, sample := s.sample, first := s.first
                                         sampled := s.sampled, last := s.count }] }

/-- A cycle of the device, in which the loop may read. -/
def next : CounterCalls σ :=
  let s' := ((s.data D f i).map (s.afterRead D f)).getD s
  let device := D.next s.device i.device
  { s' with device := device
            count := if D.value device = D.value s.device then s.count else s.count + 1 }

/-- The loop beside the device, whose other inputs are arbitrary. -/
def circuit : Circuit (CounterCalls σ) (In ι) where
  legal _ i := D.legal i.device
  next s i := s.next D f i

/-- Before the first call. -/
def start (q : σ) : CounterCalls σ where
  device := q
  count := (D.value q).toNat

/-- A call returns the value the counter had when its lower half was read, and two calls without a
wrap between them return values in order. -/
structure Untorn (results : List CounterResult) : Prop where
  exact : ∀ r ∈ results, r.Short → r.value = r.sample
  ordered : results.Pairwise fun r r' =>
    r.Short → r'.Short → r.sampled / 2 ^ 64 = r'.sampled / 2 ^ 64 → r.value ≤ r'.value

/-- The invariant: what has been read are halves of the counts at the reads. -/
structure Inv (s : CounterCalls σ) : Prop where
  count : (D.value s.device).toNat = Counter.value 32 s.count
  low : ∀ h, s.state = .low h → h.toNat = Counter.high 32 s.first ∧ s.first ≤ s.count
  highAfter : ∀ h l, s.state = .highAfter h l →
    h.toNat = Counter.high 32 s.first ∧ l.toNat = Counter.low 32 s.sampled ∧
      s.sample.toNat = Counter.value 32 s.sampled ∧ s.first ≤ s.sampled ∧ s.sampled ≤ s.count ∧
      ∀ r ∈ s.results, r.sampled ≤ s.sampled
  results : ∀ r ∈ s.results, r.sampled ≤ s.count ∧
    r.sample.toNat = Counter.value 32 r.sampled ∧ (r.Short → r.value = r.sample)
  ordered : s.results.Pairwise fun r r' => r.sampled ≤ r'.sampled

end CounterCalls

/-! ### Halves -/

/-- The upper word of the counter. -/
theorem toNat_highHalf {v : BitVec 64} {n : ℕ} (h : v.toNat = Counter.value 32 n) :
    (v.extractLsb 63 32).toNat = Counter.high 32 n := by
  rw [BitVec.extractLsb_toNat, h, Counter.value, Counter.high, Nat.shiftRight_eq_div_pow]
  omega

theorem toNat_lowHalf {v : BitVec 64} {n : ℕ} (h : v.toNat = Counter.value 32 n) :
    (v.extractLsb 31 0).toNat = Counter.low 32 n := by
  rw [BitVec.extractLsb_toNat, h, Counter.value, Counter.low, Nat.shiftRight_zero]
  omega

/-- The value that is put together. -/
theorem toNat_joinHalves (high low : Word) :
    (joinHalves high low).toNat = high.toNat * 2 ^ 32 + low.toNat := by
  have hl := low.isLt
  rw [joinHalves, BitVec.toNat_or, BitVec.toNat_shiftLeft, BitVec.toNat_setWidth,
    BitVec.toNat_setWidth, Nat.mod_eq_of_lt (by omega),
    Nat.mod_eq_of_lt (a := low.toNat) (by omega), Nat.shiftLeft_eq, Nat.mod_eq_of_lt (by omega),
    ← Nat.shiftLeft_eq, ← Nat.shiftLeft_add_eq_or_of_lt hl, Nat.shiftLeft_eq]

namespace CounterCalls

variable {σ ι α : Type} {D : CounterPort σ ι α} {f : SplitRead α} {s : CounterCalls σ} {i : In ι}

/-! ### One read -/

/-- A pass that ends returns the value at its middle read. -/
theorem result_eq (hf : ∀ h l, f.result h l h = joinHalves h l) {h l d : Word} {a b c : ℕ}
    {v : BitVec 64} (hh : h.toNat = Counter.high 32 a) (hl : l.toNat = Counter.low 32 b)
    (hd : d.toNat = Counter.high 32 c) (hv : v.toNat = Counter.value 32 b) (hab : a ≤ b)
    (hbc : b ≤ c) (hlt : c - a < 2 ^ 64 - 2 ^ 32) (heq : h = d) : f.result h l d = v := by
  subst heq
  apply BitVec.eq_of_toNat_eq
  rw [hf, toNat_joinHalves, hv, hh, hl]
  exact Counter.untorn hab hbc hlt (hh.symm.trans hd)

/-- A read keeps the invariant. -/
theorem Inv.afterRead (h : Inv D s) (hD : D.Counts f) (hl : D.legal i.device) {d : Word}
    (hd : s.data D f i = some d) : Inv D (s.afterRead D f d) := by
  have hread : D.read s.device i.device (f.addr s.state) = some d := by
    unfold data at hd
    split at hd
    · exact hd
    · exact absurd hd (by simp)
  unfold CounterCalls.afterRead
  -- which of the three reads this is
  cases hs : s.state with
  | highBefore =>
    have hhigh := toNat_highHalf h.count
    rw [hs] at hread
    rw [← hD.high _ _ _ hl hread] at hhigh
    refine ⟨h.count, ?_, ?_, h.results, h.ordered⟩
    · rintro _ ⟨⟩
      exact ⟨hhigh, le_rfl⟩
    · rintro _ _ ⟨⟩
  | low hb =>
    have hlow := toNat_lowHalf h.count
    rw [hs] at hread
    rw [← hD.low _ _ _ hl hread] at hlow
    obtain ⟨hh, hle⟩ := h.low hb hs
    refine ⟨h.count, ?_, ?_, h.results, h.ordered⟩
    · rintro _ ⟨⟩
    · rintro _ _ ⟨⟩
      exact ⟨hh, hlow, h.count, hle, le_rfl, fun r hr => (h.results r hr).1⟩
  | highAfter hb lo =>
    have hhigh := toNat_highHalf h.count
    rw [hs] at hread
    rw [← hD.high _ _ _ hl hread] at hhigh
    obtain ⟨hh, hlo, hsample, hfirst, hsampled, hall⟩ := h.highAfter hb lo hs
    by_cases hne : hb = d
    · -- the pass ends the call
      have hstep : f.step d (.highAfter hb lo) = (.highBefore, some (f.result hb lo d)) := by
        rw [SplitRead.step, if_neg (by simp [hne])]
      simp only [hstep]
      refine ⟨h.count, by rintro _ ⟨⟩, by rintro _ _ ⟨⟩, ?_, ?_⟩
      · rw [List.forall_mem_append, List.forall_mem_singleton]
        exact ⟨h.results, hsampled, hsample, fun hshort =>
          result_eq hD.result hh hlo hhigh hsample hfirst hsampled hshort hne⟩
      · rw [List.pairwise_append]
        refine ⟨h.ordered, List.pairwise_singleton _ _, fun r hr r' hr' => ?_⟩
        rw [List.mem_singleton.mp hr']
        exact hall r hr
    · -- the upper half has changed, and the pass is repeated
      have hstep : f.step d (.highAfter hb lo) = (.highBefore, none) := by
        rw [SplitRead.step, if_pos hne]
      simp only [hstep]
      exact ⟨h.count, by rintro _ ⟨⟩, by rintro _ _ ⟨⟩, h.results, h.ordered⟩

/-- Counting keeps the invariant. -/
theorem Inv.tick (h : Inv D s) {q : σ} (hq : D.value q = D.value s.device ∨
    D.value q = D.value s.device + 1#64) : Inv D { s with
      device := q
      count := if D.value q = D.value s.device then s.count else s.count + 1 } := by
  have hle : s.count ≤ if D.value q = D.value s.device then s.count else s.count + 1 := by
    split <;> omega
  refine ⟨?_, fun hb hs => ⟨(h.low hb hs).1, (h.low hb hs).2.trans hle⟩, fun hb lo hs => ?_,
    fun r hr => ⟨(h.results r hr).1.trans hle, (h.results r hr).2⟩, h.ordered⟩
  · have hcount := h.count
    rw [Counter.value] at hcount ⊢
    dsimp only
    split
    next heq => rw [heq, hcount]
    next hne =>
      rw [hq.resolve_left hne, BitVec.toNat_add, hcount]
      simp
  · obtain ⟨hh, hlo, hsample, hfirst, hsampled, hall⟩ := h.highAfter hb lo hs
    exact ⟨hh, hlo, hsample, hfirst, hsampled.trans hle, hall⟩

/-- Every cycle keeps the invariant. -/
theorem Inv.next (h : Inv D s) (hD : D.Counts f) (hl : D.legal i.device) :
    Inv D (s.next D f i) := by
  unfold CounterCalls.next
  cases hd : s.data D f i with
  | none => exact h.tick (hD.next s.device i.device hl)
  | some d =>
    have hafter := h.afterRead hD hl hd
    have hkeep : (s.afterRead D f d).device = s.device ∧ (s.afterRead D f d).count = s.count := by
      unfold CounterCalls.afterRead
      split <;> exact ⟨rfl, rfl⟩
    have htick := hafter.tick (q := D.next s.device i.device)
      (by rw [hkeep.1]; exact hD.next s.device i.device hl)
    rw [hkeep.1, hkeep.2] at htick
    exact htick

/-- What the invariant says of the results. -/
theorem Inv.untorn (h : Inv D s) : Untorn s.results := by
  refine ⟨fun r hr => (h.results r hr).2.2, ?_⟩
  refine List.Pairwise.imp_of_mem (fun {r r'} hr hr' hle hs hs' hwrap => ?_) h.ordered
  obtain ⟨-, hsample, hval⟩ := h.results r hr
  obtain ⟨-, hsample', hval'⟩ := h.results r' hr'
  rw [hval hs, hval' hs', BitVec.le_def, hsample, hsample']
  exact Counter.value_le_value hle hwrap

/-- In every run the calls return values that the counter had, whatever happens between their
reads. -/
theorem untorn_of_counts (hD : D.Counts f) {q : σ} {is : List (In ι)}
    (h : (circuit D f).Run (start D q) is s) : Untorn s.results := by
  refine Inv.untorn (D := D) (h.invariant (I := Inv D) ?_ fun s i hs hl => hs.next hD hl)
  refine ⟨?_, by rintro _ ⟨⟩, by rintro _ _ ⟨⟩, by rintro _ ⟨⟩, .nil⟩
  exact (Nat.mod_eq_of_lt (D.value q).isLt).symm

end CounterCalls

/-! ### The three counters -/

/-- A load answered without error gets what was there when it was accepted. -/
theorem Mtimer.read_mtimePort {p : MtimerParams} {q : Mtimer} {i : Mtimer.In} {a d : Word}
    (hrst : i.rst = false) (h : (mtimePort p).read q i a = some d) : d = q.readData p a := by
  have hacc : i.bus.accepted (reqReady i) = if reqFire i then some i.bus.req else none := rfl
  have hrsp : (q.next p i).rsp = .next (reqFire i) (accessValid p i.bus.req)
      (if i.bus.req.write then 0#32 else q.readData p i.bus.req.addr) := by
    simp only [Mtimer.next, hrst, Bool.false_eq_true, if_false]
  simp only [mtimePort, hacc, hrsp] at h
  cases hfire : reqFire i with
  | false => simp [hfire] at h
  | true =>
    simp only [hfire, if_true, Option.bind_some] at h
    obtain ⟨⟨haddr, hwrite, herr⟩, hd⟩ := Option.ite_none_right_eq_some.mp h
    have hvalid : accessValid p i.bus.req = true := by simpa [MemRspQ.next] using herr
    have hd := (Option.some.inj hd).symm
    simpa [MemRspQ.next, hvalid, hwrite, haddr] using hd

/-- `mtime` counts at its port. -/
theorem Mtimer.mtimePort_counts (p : MtimerParams) :
    (mtimePort p).Counts (rv32SocMtimeRead p.baseAddr) where
  next q i hl := by
    have hrst : i.rst = false := hl.1
    refine .inr ?_
    show (q.next p i).mtimeQ = q.mtimeQ + 1#64
    simp only [Mtimer.next, hrst, Bool.false_eq_true, if_false, mtimeD]
    split
    next hw =>
      have hne := not_or.mp fun ha => hl.2 ⟨hw, ha⟩
      rw [if_neg hne.1, if_neg hne.2, ite_self]
    next => rfl
  high q i d hl hr := by
    have hcl : p.mtimeHiAddr ≠ p.mtimecmpLoAddr := by
      simp [MtimerParams.mtimeHiAddr, MtimerParams.mtimecmpLoAddr]
    have hch : p.mtimeHiAddr ≠ p.mtimecmpHiAddr := by
      simp [MtimerParams.mtimeHiAddr, MtimerParams.mtimecmpHiAddr]
    have hlo : p.mtimeHiAddr ≠ p.mtimeLoAddr := by
      simp [MtimerParams.mtimeHiAddr, MtimerParams.mtimeLoAddr]
    rw [read_mtimePort hl.1 hr]
    show q.readData p p.mtimeHiAddr = q.mtimeQ.extractLsb 63 32
    rw [readData, if_neg hcl, if_neg hch, if_neg hlo, if_pos rfl]
  low q i d hl hr := by
    rw [read_mtimePort hl.1 hr]
    have hcl : p.mtimeLoAddr ≠ p.mtimecmpLoAddr := by
      simp [MtimerParams.mtimeLoAddr, MtimerParams.mtimecmpLoAddr]
    have hch : p.mtimeLoAddr ≠ p.mtimecmpHiAddr := by
      simp [MtimerParams.mtimeLoAddr, MtimerParams.mtimecmpHiAddr]
    show q.readData p p.mtimeLoAddr = q.mtimeQ.extractLsb 31 0
    rw [readData, if_neg hcl, if_neg hch, if_pos rfl]
  result _ _ := rfl

/-- `mcycle` counts. -/
theorem CsrFile.mcyclePort_counts : mcyclePort.Counts readMcycle64 where
  next q i hl := by
    refine .inr ?_
    show q.mcycleD i.commit = _
    rw [mcycleD, hl.1, hl.2]
    rfl
  high q i d _ hr := (Option.some.inj hr).symm
  low q i d _ hr := (Option.some.inj hr).symm
  result _ _ := rfl

/-- `minstret` counts, though not in every cycle. -/
theorem CsrFile.minstretPort_counts : minstretPort.Counts readMinstret64 where
  next q i hl := by
    show q.minstretD i.commit = _ ∨ q.minstretD i.commit = _
    rw [minstretD, hl.1, hl.2]
    cases i.commit.retire && !i.commit.trapValid
    · exact .inl rfl
    · exact .inr rfl
  high q i d _ hr := (Option.some.inj hr).symm
  low q i d _ hr := (Option.some.inj hr).symm
  result _ _ := rfl

/-- `rv32_soc_mtime_read` and both uses of `read_counter` return values the counters had. -/
theorem counter_reads_untorn :
    (∀ p q is s, (CounterCalls.circuit (Mtimer.mtimePort p) (rv32SocMtimeRead p.baseAddr)).Run
      (.start (Mtimer.mtimePort p) q) is s → CounterCalls.Untorn s.results) ∧
    (∀ q is s, (CounterCalls.circuit CsrFile.mcyclePort readMcycle64).Run
      (.start CsrFile.mcyclePort q) is s → CounterCalls.Untorn s.results) ∧
    ∀ q is s, (CounterCalls.circuit CsrFile.minstretPort readMinstret64).Run
      (.start CsrFile.minstretPort q) is s → CounterCalls.Untorn s.results :=
  ⟨fun p _ _ _ h => CounterCalls.untorn_of_counts (Mtimer.mtimePort_counts p) h,
    fun _ _ _ h => CounterCalls.untorn_of_counts CsrFile.mcyclePort_counts h,
    fun _ _ _ h => CounterCalls.untorn_of_counts CsrFile.minstretPort_counts h⟩

/-- Whether the timer gets a legal input can be computed. -/
instance (p : MtimerParams) : DecidablePred (Mtimer.mtimePort p).legal :=
  fun _ => inferInstanceAs (Decidable (_ ∧ ¬(_ ∧ (_ ∨ _))))

/-- The calls are as decidable as the device that they read. -/
instance {σ ι α : Type} (D : CounterPort σ ι α) [h : DecidablePred D.legal] (f : SplitRead α)
    (s : CounterCalls σ) (i : CounterCalls.In ι) :
    Decidable ((CounterCalls.circuit D f).legal s i) := h i.device

/-- A call in whose first pass the lower half of `mtime` carries into the upper one. -/
theorem counter_reads_untorn_carry :
    let load (a : Word) : CounterCalls.In Mtimer.In :=
      { device := { bus := { reqValid := true, req := { addr := a } } }, mine := true }
    let pass := [load 0x0200bffc#32, load 0x0200bff8#32, load 0x0200bffc#32]
    let q : Mtimer := { mtimeQ := 0xffffffff#64, mtimecmpQ := 0#64 }
    let s := (CounterCalls.circuit (Mtimer.mtimePort {}) (rv32SocMtimeRead 0x02000000#32)).exec
      (.start (Mtimer.mtimePort {}) q) (pass ++ pass)
    s.results.map CounterResult.value = [0x100000003#64] ∧ CounterCalls.Untorn s.results :=
  ⟨by decide +kernel, counter_reads_untorn.1 {} _ _ _ (.of_always (by decide +kernel))⟩

end Rv32im

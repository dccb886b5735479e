import Rv32im.Clocked.Circuit
import Rv32im.Rtl.Mtimer

/-!
# Re-arming the timer

`rv32_soc_mtimecmp_write` replaces the deadline in `mtimecmp` by three stores: the lower half is
first set to its maximum, so that the two mixed values that the register passes through lie above
one of the deadlines. Any number of cycles, reads and faulting accesses come in between.

* `rv32SocMtimecmpWrite`: the stores;
* `Rearm`: the timer and the stores still to come;
* `Rearm.Justified`: no interrupt without a deadline, and no tick lost;
* `Rearm.justified`: this holds in every cycle.
-/

namespace Rv32im

open Clocked

/-- The stores of `rv32_soc_mtimecmp_write` in their order, for a value of `RV32_SOC_TIMER_BASE`:
address and data. -/
def rv32SocMtimecmpWrite (timerBase : Word) (compareValue : BitVec 64) : List (Word × Word) :=
  [(timerBase + 0x4000#32, 0xffffffff#32),
    (timerBase + 0x4004#32, (compareValue >>> 32).setWidth 32),
    (timerBase + 0x4000#32, compareValue.setWidth 32)]

/-- The timer, and the stores of the call that have not been accepted. -/
structure Rearm where
  timer : Mtimer
  pending : List (Word × Word)

namespace Rearm

/-- The inputs of the timer, and whether the access of this cycle is the next store of the call. -/
structure In where
  timer : Mtimer.In
  mine : Bool

variable (p : MtimerParams)

/-- The request of the next store, as `rv32_soc_mmio_write32` makes it. -/
def store : List (Word × Word) → Option MemReq
  | [] => none
  | (addr, wdata) :: _ => some { addr, write := true, wdata, wstrb := 0b1111#4 }

/-- A cycle of the timer. -/
def next (s : Rearm) (i : In) : Rearm where
  timer := s.timer.next p i.timer
  pending := if i.mine then s.pending.tail else s.pending

/-- The timer without reset, with an aligned base, on whose bus the call presents its stores; all
other accesses are reads or fail. -/
def circuit : Circuit Rearm In where
  legal s i := i.timer.rst = false ∧
    if i.mine then
      Word.Aligned p.baseAddr ∧ i.timer.bus.reqValid = true ∧
        store s.pending = some i.timer.bus.req
    else Mtimer.writes p i.timer = false
  next := next p

/-- Whether a cycle is legal can be computed. -/
instance (p : MtimerParams) (s : Rearm) (i : In) : Decidable ((circuit p).legal s i) :=
  inferInstanceAs (Decidable (i.timer.rst = false ∧ if i.mine then
    Word.Aligned p.baseAddr ∧ i.timer.bus.reqValid = true ∧ store s.pending = some i.timer.bus.req
    else Mtimer.writes p i.timer = false))

/-- The timer at `mtime` and `n` cycles later, between the deadlines `old` and `new`. -/
structure Justified (old new mtime : BitVec 64) (n : ℕ) (s : Rearm) : Prop where
  /-- An interrupt is one that a deadline justifies in the same cycle. -/
  interrupt : s.timer.mtip = true → old ≤ s.timer.mtimeQ ∨ new ≤ s.timer.mtimeQ
  /-- After the last store the new deadline is set. -/
  armed : s.pending = [] →
    s.timer.mtimecmpQ = new ∧ (s.timer.mtip = true ↔ new ≤ s.timer.mtimeQ)
  ticks : s.timer.mtimeQ = mtime + BitVec.ofNat 64 n

/-- The compare register by the stores still to come. -/
inductive Compare (old new : BitVec 64) : List (Word × Word) → BitVec 64 → Prop
  | start : Compare old new (rv32SocMtimecmpWrite p.baseAddr new) old
  | guarded : Compare old new (rv32SocMtimecmpWrite p.baseAddr new).tail
      (old.extractLsb 63 32 ++ 0xffffffff#32)
  | upper : Compare old new (rv32SocMtimecmpWrite p.baseAddr new).tail.tail
      (new.extractLsb 63 32 ++ 0xffffffff#32)
  | done : Compare old new [] new

variable {p} {old new : BitVec 64} {s : Rearm} {i : In}

/-- The largest value with the same upper half. -/
theorem le_append_ones (v : BitVec 64) : v ≤ v.extractLsb 63 32 ++ 0xffffffff#32 := by
  have hv := v.isLt
  rw [BitVec.le_def, BitVec.toNat_append, BitVec.extractLsb_toNat,
    ← Nat.shiftLeft_add_eq_or_of_lt (BitVec.isLt 0xffffffff#32), Nat.shiftLeft_eq,
    Nat.shiftRight_eq_div_pow, BitVec.toNat_ofNat]
  omega

/-- The stores to come are the last ones of the call. -/
theorem Compare.suffix {pending : List (Word × Word)} {cmp : BitVec 64}
    (h : Compare p old new pending cmp) : pending <:+ rv32SocMtimecmpWrite p.baseAddr new := by
  cases h with
  | start => exact List.suffix_refl _
  | guarded => exact List.tail_suffix _
  | upper => exact (List.tail_suffix _).trans (List.tail_suffix _)
  | done => exact List.nil_suffix

/-- At an aligned base the timer accepts each store of the call. -/
theorem writes_of_store (hp : Word.Aligned p.baseAddr) (hrst : i.timer.rst = false)
    (hs : s.pending <:+ rv32SocMtimecmpWrite p.baseAddr new) (hv : i.timer.bus.reqValid = true)
    (hst : store s.pending = some i.timer.bus.req) : Mtimer.writes p i.timer = true := by
  obtain ⟨addr, wdata, hmem, hreq⟩ : ∃ addr wdata,
      (addr, wdata) ∈ rv32SocMtimecmpWrite p.baseAddr new ∧
        i.timer.bus.req = { addr, write := true, wdata, wstrb := 0b1111#4 } := by
    cases hpend : s.pending with
    | nil => simp [hpend, store] at hst
    | cons a rest =>
      rw [hpend] at hst hs
      exact ⟨a.1, a.2, hs.subset (List.mem_cons_self ..), (Option.some.inj hst).symm⟩
  have haddr : addr = p.mtimecmpLoAddr ∨ addr = p.mtimecmpHiAddr := by
    simp only [rv32SocMtimecmpWrite, List.mem_cons, Prod.mk.injEq, List.not_mem_nil,
      or_false] at hmem
    rcases hmem with ⟨h, -⟩ | ⟨h, -⟩ | ⟨h, -⟩
    · exact .inl h
    · exact .inr h
    · exact .inl h
  have hal : addr.extractLsb 1 0 = 0#2 := by
    rcases haddr with rfl | rfl
    · exact Word.aligned_add hp (by decide)
    · exact Word.aligned_add hp (by decide)
  have himpl : Mtimer.addrImplemented p addr = true := by
    rcases haddr with rfl | rfl <;> simp [Mtimer.addrImplemented]
  simp [Mtimer.writes, Mtimer.reqFire, Mtimer.reqReady, Mtimer.accessValid,
    Mtimer.accessShapeValid, hrst, hv, hreq, hal, himpl]

/-- What the register holds lies above one of the deadlines. -/
theorem Compare.ge {pending : List (Word × Word)} {cmp : BitVec 64}
    (h : Compare p old new pending cmp) : old ≤ cmp ∨ new ≤ cmp := by
  cases h with
  | start => exact .inl (BitVec.le_refl _)
  | guarded => exact .inl (le_append_ones old)
  | upper => exact .inr (le_append_ones new)
  | done => exact .inr (BitVec.le_refl _)

/-- Only the last store sets the new deadline. -/
theorem Compare.eq_new {cmp : BitVec 64} (h : Compare p old new [] cmp) : cmp = new := by
  generalize hp : ([] : List (Word × Word)) = pending at h
  cases h with
  | start => simp [rv32SocMtimecmpWrite] at hp
  | guarded => simp [rv32SocMtimecmpWrite] at hp
  | upper => simp [rv32SocMtimecmpWrite] at hp
  | done => rfl

/-- A store to `mtimecmp` replaces the half it names and lets `mtime` tick. -/
theorem timer_store {q : Mtimer} {j : Mtimer.In} (hrst : j.rst = false)
    (hw : Mtimer.writes p j = true)
    (ha : j.bus.req.addr = p.mtimecmpLoAddr ∨ j.bus.req.addr = p.mtimecmpHiAddr) :
    (q.next p j).mtimeQ = q.mtimeQ + 1#64 ∧ (q.next p j).mtimecmpQ =
      if j.bus.req.addr = p.mtimecmpLoAddr then q.mtimecmpQ.extractLsb 63 32 ++ j.bus.req.wdata
      else j.bus.req.wdata ++ q.mtimecmpQ.extractLsb 31 0 := by
  have hnext : (q.next p j).mtimeQ = q.mtimeD p j ∧ (q.next p j).mtimecmpQ = q.mtimecmpD p j := by
    simp only [Mtimer.next, hrst, Bool.false_eq_true, if_false, and_self]
  rw [hnext.1, hnext.2, Mtimer.mtimeD, Mtimer.mtimecmpD, if_pos hw, if_pos hw]
  rcases ha with ha | ha
  · simp [ha]
  · simp [ha]

/-- Any other access lets the timer run. -/
theorem timer_tick {q : Mtimer} {j : Mtimer.In} (hrst : j.rst = false)
    (hw : Mtimer.writes p j = false) :
    (q.next p j).mtimeQ = q.mtimeQ + 1#64 ∧ (q.next p j).mtimecmpQ = q.mtimecmpQ := by
  simp [Mtimer.next, hrst, Mtimer.mtimeD, Mtimer.mtimecmpD, hw]

/-- One more store takes the compare register to its next value. -/
theorem Compare.store (h : Compare p old new s.pending s.timer.mtimecmpQ)
    (hrst : i.timer.rst = false) (hw : Mtimer.writes p i.timer = true)
    (hst : Rearm.store s.pending = some i.timer.bus.req) :
    (s.timer.next p i.timer).mtimeQ = s.timer.mtimeQ + 1#64 ∧
      Compare p old new s.pending.tail (s.timer.next p i.timer).mtimecmpQ := by
  have hne : p.mtimecmpHiAddr ≠ p.mtimecmpLoAddr := by
    simp [MtimerParams.mtimecmpHiAddr, MtimerParams.mtimecmpLoAddr]
  generalize hp : s.pending = pending at h hst
  generalize hc : s.timer.mtimecmpQ = cmp at h
  cases h with
  | start =>
    -- the guard
    have hreq := (Option.some.inj hst).symm
    have ha : i.timer.bus.req.addr = p.mtimecmpLoAddr := by rw [hreq]; rfl
    have hd : i.timer.bus.req.wdata = 0xffffffff#32 := by rw [hreq]
    obtain ⟨htick, hcmp⟩ := timer_store (q := s.timer) hrst hw (.inl ha)
    rw [hcmp, if_pos ha, hd, hc]
    exact ⟨htick, .guarded⟩
  | guarded =>
    have hreq := (Option.some.inj hst).symm
    have ha : i.timer.bus.req.addr = p.mtimecmpHiAddr := by rw [hreq]; rfl
    have hd : i.timer.bus.req.wdata = new.extractLsb 63 32 := by
      rw [hreq]
      exact Word.setWidth_shiftRight new
    obtain ⟨htick, hcmp⟩ := timer_store (q := s.timer) hrst hw (.inr ha)
    rw [hcmp, if_neg (ha ▸ hne), hd, hc, Word.low_append]
    exact ⟨htick, .upper⟩
  | upper =>
    have hreq := (Option.some.inj hst).symm
    have ha : i.timer.bus.req.addr = p.mtimecmpLoAddr := by rw [hreq]; rfl
    have hd : i.timer.bus.req.wdata = new.extractLsb 31 0 := by
      rw [hreq]
      exact Word.setWidth_low new
    obtain ⟨htick, hcmp⟩ := timer_store (q := s.timer) hrst hw (.inl ha)
    rw [hcmp, if_pos ha, hd, hc, Word.high_append, Word.high_append_low]
    exact ⟨htick, .done⟩
  | done => simp [Rearm.store] at hst

/-- The invariant of a run. -/
structure Inv (p : MtimerParams) (old new mtime : BitVec 64) (n : ℕ) (s : Rearm) : Prop where
  compare : Compare p old new s.pending s.timer.mtimecmpQ
  ticks : s.timer.mtimeQ = mtime + BitVec.ofNat 64 n

/-- Every cycle keeps the invariant and takes `mtime` one further. -/
theorem Inv.next {mtime : BitVec 64} {n : ℕ} (h : Inv p old new mtime n s)
    (hl : (circuit p).legal s i) : Inv p old new mtime (n + 1) (s.next p i) := by
  obtain ⟨hrst, hbus⟩ := hl
  have hticks : s.timer.mtimeQ + 1#64 = mtime + BitVec.ofNat 64 (n + 1) := by
    rw [h.ticks, BitVec.ofNat_add, BitVec.add_assoc]
  rw [Rearm.next]
  split at hbus
  next hmine =>
    obtain ⟨hbase, hvalid, hst⟩ := hbus
    have hw := writes_of_store hbase hrst h.compare.suffix hvalid hst
    obtain ⟨htick, hcmp⟩ := h.compare.store hrst hw hst
    refine ⟨?_, htick.trans hticks⟩
    rw [if_pos hmine]
    exact hcmp
  next hmine =>
    obtain ⟨htick, hcmp⟩ := timer_tick (q := s.timer) hrst hbus
    refine ⟨?_, htick.trans hticks⟩
    rw [if_neg hmine, hcmp]
    exact h.compare

/-- What the invariant says of the interrupt. -/
theorem Inv.toJustified {mtime : BitVec 64} {n : ℕ} (h : Inv p old new mtime n s) :
    Justified old new mtime n s where
  interrupt hi := by
    have hge : s.timer.mtimecmpQ ≤ s.timer.mtimeQ := by simpa [Mtimer.mtip] using hi
    exact h.compare.ge.imp (BitVec.le_trans · hge) (BitVec.le_trans · hge)
  armed hp := by
    have hcmp := h.compare
    rw [hp] at hcmp
    have hnew := hcmp.eq_new
    refine ⟨hnew, ?_⟩
    rw [Mtimer.mtip, hnew, decide_eq_true_eq]
  ticks := h.ticks

/-- From before the first store to any time after the last one, whatever comes in between. -/
theorem justified {q : Mtimer} {new : BitVec 64} {is : List In}
    (h : (circuit p).Run { timer := q, pending := rv32SocMtimecmpWrite p.baseAddr new } is s) :
    Justified q.mtimecmpQ new q.mtimeQ is.length s := by
  suffices hinv : Inv p q.mtimecmpQ new q.mtimeQ is.length s from hinv.toJustified
  induction h with
  | nil => exact ⟨.start, (BitVec.add_zero _).symm⟩
  | snoc _ hl ih =>
    rw [List.length_append]
    exact ih.next hl

/-- The stores of a call for the deadline `0x200000001`, with a read in between. -/
def rearming : List In :=
  let access (req : MemReq) (mine : Bool) : In :=
    { timer := { bus := { reqValid := true, req } }, mine }
  let store (addr wdata : Word) : In :=
    access { addr, write := true, wdata, wstrb := 0b1111#4 } true
  [store 0x02004000#32 0xffffffff#32, access { addr := 0x0200bff8#32 } false,
    store 0x02004004#32 2#32, store 0x02004000#32 1#32]

/-- `mtime` has reached the new deadline when the last store takes effect. -/
theorem justified_rearming :
    let q : Mtimer := { mtimeQ := 0x1fffffffe#64, mtimecmpQ := 0x2ffffffff#64 }
    let s₀ : Rearm :=
      { timer := q, pending := rv32SocMtimecmpWrite 0x02000000#32 0x200000001#64 }
    let s := (circuit {}).exec s₀ rearming
    s.timer.mtip = true ∧ Justified 0x2ffffffff#64 0x200000001#64 0x1fffffffe#64 4 s := by
  intro q s₀ s
  have hrun : (circuit {}).Run s₀ rearming s := .of_always (by decide +kernel)
  exact ⟨by decide +kernel, justified (p := {}) (q := q) hrun⟩

end Rearm

end Rv32im

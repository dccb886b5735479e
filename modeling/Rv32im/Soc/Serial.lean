import Rv32im.Rtl.Uart
import Rv32im.Serial.Frame

/-!
# The two directions of the serial port

Where the transmitter and the receiver of `rv32_uart` stand `n` cycles after a frame began on the
line, for every number of clocks per bit. The receiver sees the line through the two flops of its
synchroniser and samples half a bit later, which keeps every sample inside its bit.

* `Uart.Tx.At`, `Uart.Tx.At.next`: the transmitter;
* `Uart.Rx.At`, `Uart.Rx.At.next`: the receiver.
-/

namespace Rv32im

open Serial

namespace UartParams

variable (p : UartParams)

/-- A bit takes four cycles at least. -/
theorem four_le_clksPerBit : 4 ≤ p.clksPerBit := by
  have h := p.four_le
  rw [BitVec.le_def] at h
  have hpos : 0#32 < clksPerBitCalc p.clkFreqHz p.baudRate := by
    rw [BitVec.lt_def]
    simp only [BitVec.toNat_ofNat] at h ⊢
    omega
  rw [clksPerBit, if_pos hpos]
  simpa using h

/-- The lower bound on half a bit never applies. -/
theorem halfBitClks_eq : p.halfBitClks = p.clksPerBit / 2 := by
  have h := p.four_le_clksPerBit
  rw [halfBitClks, if_pos (by omega)]

/-- The counter has bits for the cycles of a bit. -/
theorem clksPerBit_le : p.clksPerBit ≤ 2 ^ p.baudCountW := by
  have h := p.four_le_clksPerBit
  rw [baudCountW, if_pos (by omega)]
  exact Nat.le_pow_clog (by omega) _

@[simp] theorem toNat_bitReload : p.bitReload.toNat = p.clksPerBit - 1 := by
  have h := p.four_le_clksPerBit
  have hle := p.clksPerBit_le
  rw [bitReload, BitVec.toNat_ofNat]
  exact Nat.mod_eq_of_lt (by omega)

@[simp] theorem toNat_halfReload : p.halfReload.toNat = p.halfBitClks - 1 := by
  have h := p.four_le_clksPerBit
  have hle := p.clksPerBit_le
  have hhalf := p.halfBitClks_eq
  rw [halfReload, BitVec.toNat_ofNat]
  exact Nat.mod_eq_of_lt (by omega)

end UartParams

namespace Uart

variable {p : UartParams} {b : BitVec 8} {n : ℕ}

/-- A counter that is not zero counts down. -/
theorem toNat_countdown {c : BitVec p.baudCountW} (h : c ≠ 0#_) :
    (c - 1#_).toNat = c.toNat - 1 := by
  have hC := p.four_le_clksPerBit
  have hle := p.clksPerBit_le
  have hne : c.toNat ≠ 0 := fun h0 => h (BitVec.eq_of_toNat_eq (by simpa using h0))
  have hlt := c.isLt
  have hone : (1#p.baudCountW).toNat = 1 := by
    rw [BitVec.toNat_ofNat]
    exact Nat.mod_eq_of_lt (by omega)
  rw [BitVec.toNat_sub, hone]
  have hsub : 2 ^ p.baudCountW - 1 + c.toNat = 2 ^ p.baudCountW + (c.toNat - 1) := by omega
  rw [hsub, Nat.add_mod_left]
  exact Nat.mod_eq_of_lt (by omega)

theorem toNat_eq_zero_iff {w : ℕ} {c : BitVec w} : c.toNat = 0 ↔ c = 0#w := by
  rw [← BitVec.toNat_inj]
  simp

/-! ### The transmitter -/

namespace Tx

/-- The transmitter `n` cycles after the frame of `b` began: in cycle `j` of bit `k`, with the rest
of the frame in the shift register, or idle behind the frame. -/
inductive At (b : BitVec 8) : ℕ → Tx p → Prop
  | bit {t : Tx p} (k j : ℕ) (hk : k < 10) (hj : j < p.clksPerBit) (busy : t.busyQ = true)
      (bit : t.bitQ.toNat = k) (count : t.countQ.toNat = p.clksPerBit - 1 - j)
      (shift : ∀ m < 10, t.shiftQ.getLsbD m = frameBit b (k + m)) :
      At b (k * p.clksPerBit + j) t
  | done {n : ℕ} {t : Tx p} (le : 10 * p.clksPerBit ≤ n) (idle : t.busyQ = false) : At b n t

/-- The shift register holds the ten bits of the frame. -/
theorem getLsbD_frame (b : BitVec 8) {m : ℕ} (hm : m < 10) :
    (1#1 ++ b ++ 0#1 : BitVec 10).getLsbD m = frameBit b m := by
  refine (BitVec.getLsbD_append (x := 1#1 ++ b) (y := 0#1)).trans ?_
  have hcases : m = 0 ∨ (1 ≤ m ∧ m ≤ 8) ∨ m = 9 := by omega
  obtain rfl | ⟨hlo, hhi⟩ | rfl := hcases
  · simp
  · obtain ⟨k, rfl⟩ := Nat.exists_eq_add_of_le' hlo
    have hk : k < 8 := by omega
    rw [frameBit_succ b hk, BitVec.getLsbD_append]
    simp [hk]
  · rw [frameBit_of_stop b (by omega), BitVec.getLsbD_append]
    simp

/-- Shifting moves the bits down and fills with ones. -/
theorem getLsbD_shift (x : BitVec 10) {m : ℕ} (hm : m < 9) :
    (1#1 ++ x.extractLsb 9 1 : BitVec 10).getLsbD m = x.getLsbD (m + 1) := by
  refine (BitVec.getLsbD_append (x := 1#1) (y := x.extractLsb 9 1)).trans ?_
  rw [if_pos hm, BitVec.getLsbD_extractLsb, Nat.add_comm 1 m]
  simp [hm]

theorem getLsbD_shift_last (x : BitVec 10) :
    (1#1 ++ x.extractLsb 9 1 : BitVec 10).getLsbD 9 = true :=
  (BitVec.getLsbD_append (x := 1#1) (y := x.extractLsb 9 1)).trans (by simp)

/-- A frame begins in the cycle after its store is accepted. -/
theorem at_start (t : Tx p) (b : BitVec 8) : At b 0 (t.next (some b)) := by
  have hC := p.four_le_clksPerBit
  have hat := At.bit (b := b) (t := t.next (some b)) 0 0 (by omega) (by omega) rfl rfl
    (by simp [Tx.next]) ?_
  · simpa using hat
  · intro m hm
    rw [Nat.zero_add]
    exact getLsbD_frame b hm

/-- Without a store the frame goes on. -/
theorem At.next {t : Tx p} (h : At b n t) : At b (n + 1) (t.next none) := by
  have hC := p.four_le_clksPerBit
  cases h with
  | done le idle =>
    refine .done (by omega) ?_
    simp [Tx.next, idle]
  | bit k j hk hj busy bit count shift =>
    -- within a bit the counter counts down, behind it the frame is shifted
    by_cases hlast : j + 1 < p.clksPerBit
    · have hne : t.countQ ≠ 0#_ := fun h0 => by
        rw [h0, BitVec.toNat_zero] at count
        omega
      have hnext : t.next none = { t with countQ := t.countQ - 1#_ } := by
        simp [Tx.next, busy, hne]
      rw [hnext]
      refine .bit k (j + 1) hk hlast busy bit ?_ shift
      rw [toNat_countdown hne, count]
      omega
    · have hzero : t.countQ = 0#_ := toNat_eq_zero_iff.mp (by omega)
      by_cases hk9 : k = 9
      · have hbit : t.bitQ = 9#4 := BitVec.eq_of_toNat_eq (by rw [bit, hk9]; rfl)
        refine .done (by subst hk9; omega) ?_
        simp [Tx.next, busy, hzero, hbit]
      · have hbit : t.bitQ ≠ 9#4 := fun h9 => hk9 (by rw [← bit, h9]; rfl)
        have hnext : t.next none =
            { t with shiftQ := 1#1 ++ t.shiftQ.extractLsb 9 1, bitQ := t.bitQ + 1#4
                     countQ := p.bitReload } := by
          simp [Tx.next, busy, hzero, hbit]
        have hn : k * p.clksPerBit + j + 1 = (k + 1) * p.clksPerBit + 0 := by
          rw [Nat.succ_mul]
          omega
        rw [hnext, hn]
        refine .bit (k + 1) 0 (by omega) (by omega) busy ?_ (by simp) ?_
        · have hlt : t.bitQ.toNat + 1 < 16 := by omega
          simp only [BitVec.toNat_add, BitVec.toNat_ofNat]
          omega
        · intro m hm
          -- the stop bit is shifted in behind the frame
          by_cases h9 : m < 9
          · have hshift := shift (m + 1) (by omega)
            have hsum : k + 1 + m = k + (m + 1) := by omega
            rw [hsum, ← hshift]
            exact getLsbD_shift t.shiftQ h9
          · obtain rfl : m = 9 := by omega
            rw [frameBit_of_stop b (by omega)]
            exact getLsbD_shift_last t.shiftQ

/-- The transmitter is busy for exactly the ten bits. -/
theorem At.busy_iff {t : Tx p} (h : At b n t) : t.busyQ = true ↔ n < 10 * p.clksPerBit := by
  cases h with
  | done le idle => simp [idle]; omega
  | bit k j hk hj busy bit count shift =>
    have hle : (k + 1) * p.clksPerBit ≤ 10 * p.clksPerBit := Nat.mul_le_mul_right _ (by omega)
    rw [Nat.succ_mul] at hle
    simp only [busy, true_iff]
    omega

end Tx

/-! ### The receiver -/

theorem getLsbD_setBit (v : BitVec 8) (k : BitVec 3) (x : Bool) {m : ℕ} (hm : m < 8) :
    (setBit v k x).getLsbD m = if m = k.toNat then x else v.getLsbD m := by
  have hbit : (1#8 <<< k).getLsbD m = decide (m = k.toNat) := by
    rw [BitVec.shiftLeft_eq', BitVec.getLsbD_shiftLeft, BitVec.getLsbD_one]
    by_cases hlt : m < k.toNat
    · have hne : m ≠ k.toNat := by omega
      simp [hlt, hne]
    · have hiff : (m - k.toNat = 0) ↔ (m = k.toNat) := by omega
      simp [hlt, hm, hiff]
  unfold setBit
  cases x
  · rw [if_neg (by simp), BitVec.getLsbD_and, BitVec.getLsbD_not, hbit]
    by_cases heq : m = k.toNat <;> simp [heq, hm]
  · rw [if_pos rfl, BitVec.getLsbD_or, hbit]
    by_cases heq : m = k.toNat <;> simp [heq]

namespace Rx

/-- The line as the second flop of the synchroniser shows it: two cycles late. -/
def seen (p : UartParams) (b : BitVec 8) (n : ℕ) : Bool :=
  if n < 2 then true else level p.clksPerBit b (n - 2)

/-- The first cycle of the data bits, counted from the start of the frame. -/
def dataStart (p : UartParams) : ℕ := 3 + p.halfBitClks

/-- The last cycle of the receiver, which samples the stop bit. -/
def lastCycle (p : UartParams) : ℕ := 2 + p.halfBitClks + 9 * p.clksPerBit

/-- The receiver `n` cycles after the frame of `b` began. -/
inductive At (b : BitVec 8) : ℕ → Rx p → Prop
  | before {n : ℕ} {r : Rx p} (lt : n < 3) (state : r.stateQ = .idle) : At b n r
  | start {n : ℕ} {r : Rx p} (ge : 3 ≤ n) (lt : n < dataStart p) (state : r.stateQ = .start)
      (count : r.countQ.toNat = dataStart p - 1 - n) : At b n r
  | data {r : Rx p} (k j : ℕ) (hk : k < 8) (hj : j < p.clksPerBit) (state : r.stateQ = .data)
      (bit : r.bitQ.toNat = k) (count : r.countQ.toNat = p.clksPerBit - 1 - j)
      (shift : ∀ m < k, r.shiftQ.getLsbD m = b.getLsbD m) :
      At b (dataStart p + k * p.clksPerBit + j) r
  | stop {r : Rx p} (j : ℕ) (hj : j < p.clksPerBit) (state : r.stateQ = .stop)
      (count : r.countQ.toNat = p.clksPerBit - 1 - j) (shift : r.shiftQ = b) :
      At b (dataStart p + 8 * p.clksPerBit + j) r
  | after {n : ℕ} {r : Rx p} (gt : lastCycle p < n) (state : r.stateQ = .idle) : At b n r

variable {r : Rx p}

/-- The bus access of a cycle does not touch the state machine. -/
theorem next_eq (r : Rx p) (co cf pop line : Bool) :
    (r.next co cf pop line).stateQ = r.advance.stateQ ∧
    (r.next co cf pop line).countQ = r.advance.countQ ∧
    (r.next co cf pop line).bitQ = r.advance.bitQ ∧
    (r.next co cf pop line).shiftQ = r.advance.shiftQ := by
  by_cases h0 : r.countQ = 0#_ <;> by_cases h7 : r.bitQ = 7#3 <;> cases hsync : r.syncQ <;>
    cases hs : r.stateQ <;> simp [next, advance, access, h0, h7, hsync, hs]

/-- Only the state of the receiver matters, not what it has received. -/
theorem At.congr {r' : Rx p} (h : At b n r) (hs : r'.stateQ = r.stateQ)
    (hc : r'.countQ = r.countQ) (hb : r'.bitQ = r.bitQ) (hsh : r'.shiftQ = r.shiftQ) :
    At b n r' := by
  cases h with
  | before lt state => exact .before lt (hs.trans state)
  | start ge lt state count => exact .start ge lt (hs.trans state) (hc ▸ count)
  | data k j hk hj state bit count shift =>
    exact .data k j hk hj (hs.trans state) (hb ▸ bit) (hc ▸ count) (hsh ▸ shift)
  | stop j hj state count shift => exact .stop j hj (hs.trans state) (hc ▸ count) (hsh ▸ shift)
  | after gt state => exact .after gt (hs.trans state)

/-- The line seen in the last cycle of the start bit, of data bit `k` and of the stop bit. -/
theorem seen_bit (b : BitVec 8) (k : ℕ) :
    seen p b (2 + p.halfBitClks + k * p.clksPerBit) = frameBit b k := by
  have hC := p.four_le_clksPerBit
  have hhalf := p.halfBitClks_eq
  have hn : 2 + p.halfBitClks + k * p.clksPerBit - 2 = k * p.clksPerBit + p.halfBitClks := by omega
  rw [seen, if_neg (by omega), hn, level_eq b k (by omega)]

/-- The receiver sees a high line from the stop bit on. -/
theorem seen_of_stop (b : BitVec 8) (hn : lastCycle p ≤ n) : seen p b n = true := by
  have hC := p.four_le_clksPerBit
  unfold lastCycle at hn
  rw [seen, if_neg (by omega)]
  exact level_of_stop b (by omega) (by omega)

/-- Each sample lies inside its bit, so the state machine goes through the frame. -/
theorem At.advance (h : At b n r) (hsync : r.syncQ = seen p b n) : At b (n + 1) r.advance := by
  have hC := p.four_le_clksPerBit
  have hhalf := p.halfBitClks_eq
  cases h with
  | before lt state =>
    -- the start bit is seen two cycles after it appears on the line
    by_cases h2 : n = 2
    · subst h2
      have hlow : r.syncQ = false := by
        rw [hsync, seen, if_neg (by omega)]
        have hlevel := level_eq b 0 (by omega : 0 < p.clksPerBit)
        simpa using hlevel
      refine .start (by omega) (by unfold dataStart; omega) ?_ ?_
      · simp [Rx.advance, state, hlow]
      · simp only [Rx.advance, state, hlow, dataStart]
        simp
        omega
    · have hhigh : r.syncQ = true := by rw [hsync, seen, if_pos (by omega)]
      refine .before (by omega) ?_
      simp [Rx.advance, state, hhigh]
  | start ge lt state count =>
    by_cases hlast : n + 1 < dataStart p
    · have hne : r.countQ ≠ 0#_ := fun h0 => by
        rw [h0, BitVec.toNat_zero] at count
        omega
      have hadv : r.advance = { r with countQ := r.countQ - 1#_ } := by
        simp [Rx.advance, state, hne]
      rw [hadv]
      refine .start (by omega) hlast state ?_
      rw [toNat_countdown hne, count]
      omega
    · have hzero : r.countQ = 0#_ := toNat_eq_zero_iff.mp (by omega)
      -- the start bit is sampled again in its middle
      have hlow : r.syncQ = false := by
        have hn : n = 2 + p.halfBitClks + 0 * p.clksPerBit := by unfold dataStart at *; omega
        rw [hsync, hn, seen_bit, frameBit_zero]
      have hadv : r.advance = { r with stateQ := .data, countQ := p.bitReload, bitQ := 0#3 } := by
        simp [Rx.advance, state, hzero, hlow]
      have hn : n + 1 = dataStart p + 0 * p.clksPerBit + 0 := by omega
      rw [hadv, hn]
      exact .data 0 0 (by omega) (by omega) rfl rfl (by simp) fun m hm => by omega
  | data k j hk hj state bit count shift =>
    by_cases hlast : j + 1 < p.clksPerBit
    · have hne : r.countQ ≠ 0#_ := fun h0 => by
        rw [h0, BitVec.toNat_zero] at count
        omega
      have hadv : r.advance = { r with countQ := r.countQ - 1#_ } := by
        simp [Rx.advance, state, hne]
      rw [hadv]
      refine .data k (j + 1) hk hlast state bit ?_ shift
      rw [toNat_countdown hne, count]
      omega
    · have hzero : r.countQ = 0#_ := toNat_eq_zero_iff.mp (by omega)
      -- the middle of bit `k + 1` of the frame, which is bit `k` of the byte
      have hsample : r.syncQ = b.getLsbD k := by
        have hn : dataStart p + k * p.clksPerBit + j =
            2 + p.halfBitClks + (k + 1) * p.clksPerBit := by
          rw [Nat.succ_mul]
          unfold dataStart
          omega
        rw [hsync, hn, seen_bit, frameBit_succ b hk]
      have hshift : ∀ m < k + 1, (setBit r.shiftQ r.bitQ r.syncQ).getLsbD m = b.getLsbD m := by
        intro m hm
        rw [getLsbD_setBit _ _ _ (by omega), bit]
        split
        · rw [hsample, ‹m = k›]
        · exact shift m (by omega)
      have hn : dataStart p + k * p.clksPerBit + j + 1 =
          dataStart p + (k + 1) * p.clksPerBit + 0 := by
        rw [Nat.succ_mul]
        omega
      rw [hn]
      by_cases h7 : k = 7
      · subst h7
        have hbit : r.bitQ = 7#3 := BitVec.eq_of_toNat_eq (by rw [bit]; rfl)
        have hadv : r.advance =
            { r with shiftQ := setBit r.shiftQ r.bitQ r.syncQ, countQ := p.bitReload
                     stateQ := .stop } := by
          simp [Rx.advance, state, hzero, hbit]
        rw [hadv]
        refine .stop 0 (by omega) rfl (by simp) ?_
        apply BitVec.eq_of_getLsbD_eq
        exact fun m hm => hshift m hm
      · have hbit : r.bitQ ≠ 7#3 := fun h => h7 (by rw [← bit, h]; rfl)
        have hadv : r.advance =
            { r with shiftQ := setBit r.shiftQ r.bitQ r.syncQ, countQ := p.bitReload
                     bitQ := r.bitQ + 1#3 } := by
          simp [Rx.advance, state, hzero, hbit]
        rw [hadv]
        refine .data (k + 1) 0 (by omega) (by omega) state ?_ (by simp) hshift
        simp only [BitVec.toNat_add, BitVec.toNat_ofNat]
        omega
  | stop j hj state count shift =>
    by_cases hlast : j + 1 < p.clksPerBit
    · have hne : r.countQ ≠ 0#_ := fun h0 => by
        rw [h0, BitVec.toNat_zero] at count
        omega
      have hadv : r.advance = { r with countQ := r.countQ - 1#_ } := by
        simp [Rx.advance, state, hne]
      rw [hadv]
      refine .stop (j + 1) hlast state ?_ shift
      rw [toNat_countdown hne, count]
      omega
    · have hzero : r.countQ = 0#_ := toNat_eq_zero_iff.mp (by omega)
      refine .after (by unfold lastCycle dataStart; omega) ?_
      simp [Rx.advance, state, hzero]
  | after gt state =>
    -- the line is high from the stop bit on
    have hhigh : r.syncQ = true := by rw [hsync, seen_of_stop b (by omega)]
    refine .after (by omega) ?_
    simp [Rx.advance, state, hhigh]

/-- The receiver is one cycle further. -/
theorem At.next (h : At b n r) (hsync : r.syncQ = seen p b n) (co cf pop line : Bool) :
    At b (n + 1) (r.next co cf pop line) := by
  obtain ⟨hs, hc, hb, hsh⟩ := next_eq r co cf pop line
  exact (h.advance hsync).congr hs hc hb hsh

/-- The receiver completes the frame in its last cycle and in no other. -/
theorem At.completes_iff (h : At b n r) :
    (r.stateQ = .stop ∧ r.countQ = 0#_) ↔ n = lastCycle p := by
  have hC := p.four_le_clksPerBit
  rw [← toNat_eq_zero_iff]
  unfold lastCycle
  cases h with
  | before lt state => simp [state]; omega
  | start ge lt state count => simp [state]; unfold dataStart at lt; omega
  | data k j hk hj state bit count shift =>
    have hle : k * p.clksPerBit ≤ 7 * p.clksPerBit := Nat.mul_le_mul_right _ (by omega)
    simp [state]
    unfold dataStart
    omega
  | stop j hj state count shift =>
    simp only [state, true_and, count]
    unfold dataStart
    omega
  | after gt state => simp [state]; unfold lastCycle at gt; omega

/-- By then the shift register holds the byte. -/
theorem At.shiftQ (h : At b n r) (hn : n = lastCycle p) : r.shiftQ = b := by
  have hs := (h.completes_iff.mpr hn).1
  cases h with
  | stop j hj state count shift => exact shift
  | before lt state => simp [state] at hs
  | start ge lt state count => simp [state] at hs
  | data k j hk hj state bit count shift => simp [state] at hs
  | after gt state => simp [state] at hs

/-- The receiver is idle before and after the frame. -/
theorem At.idle_iff (h : At b n r) : r.stateQ = .idle ↔ n < 3 ∨ lastCycle p < n := by
  have hC := p.four_le_clksPerBit
  have hhalf := p.halfBitClks_eq
  unfold lastCycle
  cases h with
  | before lt state => simp [state, lt]
  | start ge lt state count => simp [state]; unfold dataStart at lt; omega
  | data k j hk hj state bit count shift =>
    have hle : k * p.clksPerBit ≤ 7 * p.clksPerBit := Nat.mul_le_mul_right _ (by omega)
    simp [state]
    unfold dataStart
    omega
  | stop j hj state count shift => simp [state]; unfold dataStart; omega
  | after gt state => simp [state]; unfold lastCycle at gt; omega

/-! ### The holding register -/

/-- Outside the completing cycle only the bus access touches the holding register. -/
theorem next_holding (h : ¬ (r.stateQ = .stop ∧ r.countQ = 0#_)) (co cf pop line : Bool) :
    (r.next co cf pop line).validQ = (r.validQ && !pop) ∧
    (r.next co cf pop line).dataQ = r.dataQ ∧
    (r.next co cf pop line).overrunQ = (r.overrunQ && !co) ∧
    (r.next co cf pop line).frameErrorQ = (r.frameErrorQ && !cf) := by
  by_cases h0 : r.countQ = 0#_ <;> by_cases h7 : r.bitQ = 7#3 <;> cases hsync : r.syncQ <;>
    cases hs : r.stateQ <;> simp_all [Rx.next, Rx.advance, access]

/-- The completing cycle stores the byte, unless the old one is still there. -/
theorem next_complete (hs : r.stateQ = .stop) (h0 : r.countQ = 0#_) (co cf pop line : Bool) :
    (r.next co cf pop line).validQ = true ∧
    (r.next co cf pop line).dataQ = (if r.validQ && !pop then r.dataQ else r.shiftQ) ∧
    (r.next co cf pop line).overrunQ = (r.overrunQ && !co || r.validQ && !pop) ∧
    (r.next co cf pop line).frameErrorQ = (r.frameErrorQ && !cf || !r.syncQ) := by
  simp [Rx.next, Rx.advance, access, hs, h0]

end Rx

/-! ### The bus side -/

/-- The two fields of RXDATA. -/
theorem getLsbD_rxData (empty : Bool) (byte : BitVec 8) :
    (BitVec.ofBool empty ++ 0#23 ++ byte : Word).getLsbD 31 = empty := by
  refine (BitVec.getLsbD_append (x := BitVec.ofBool empty ++ 0#23) (y := byte)).trans ?_
  rw [if_neg (by omega), BitVec.getLsbD_append]
  cases empty <;> rfl

theorem extractLsb_rxData (empty : Bool) (byte : BitVec 8) :
    (BitVec.ofBool empty ++ 0#23 ++ byte : Word).extractLsb 7 0 = byte := by
  apply BitVec.eq_of_getLsbD_eq
  intro j hj
  rw [BitVec.getLsbD_extractLsb]
  refine (congrArg (decide (j < 8) && ·)
    (BitVec.getLsbD_append (x := BitVec.ofBool empty ++ 0#23) (y := byte))).trans ?_
  simp [hj]

/-- A read of RXDATA has the byte and whether there is one. -/
theorem readData_rxData (q : Uart p) :
    q.readData p.rxDataAddr = BitVec.ofBool (!q.rx.validQ) ++ 0#23 ++ q.rx.dataQ := by
  have hne : p.rxDataAddr ≠ p.txDataAddr := by
    simp [UartParams.rxDataAddr, UartParams.txDataAddr]
  rw [readData, if_neg hne, if_pos rfl]

end Uart

end Rv32im

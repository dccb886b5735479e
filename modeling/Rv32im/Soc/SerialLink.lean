import Rv32im.Clocked.Circuit
import Rv32im.Soc.Serial

/-!
# A serial link between two ports

`uart_tx_o` of one `rv32_uart` drives `uart_rx_i` of another with the same parameters, both out of
reset. The bytes of the accepted TXDATA stores and the bytes returned by RXDATA reads are recorded.

* `SerialLink.circuit`: any bus traffic, as long as each byte is read before the next frame is
  complete;
* `SerialLink.RoundTrip`: the bytes arrive once and in order, without errors, and every frame takes
  its ten bits on the line;
* `SerialLink.round_trip`: this holds in every state of a run.
-/

namespace Rv32im

open Clocked Serial

/-- The two ports, the bytes stored at the first and the bytes read at the second. -/
structure SerialLink (p : UartParams) where
  tx : Uart p := {}
  rx : Uart p := {}
  sent : List (BitVec 8) := []
  received : List (BitVec 8) := []

namespace SerialLink

/-- The bus traffic on both sides, and the receive pin of the first port. -/
structure In where
  txBus : MemOut := {}
  rxBus : MemOut := {}
  txPin : Bool := true

variable {p : UartParams} (s : SerialLink p) (i : In)

/-- The inputs of the first port. -/
def txIn : Uart.In where
  bus := i.txBus
  uartRx := i.txPin

/-- The line between the ports. -/
def line : Bool := s.tx.uartTx {}

/-- The inputs of the second port. -/
def rxIn : Uart.In where
  bus := i.rxBus
  uartRx := s.line

/-- The low byte of the TXDATA store accepted in this cycle. -/
def store : Option (BitVec 8) := s.tx.txWrite (txIn i)

/-- The byte that the RXDATA read accepted in this cycle returns, unless it says empty. -/
def read : Option (BitVec 8) :=
  let rdata := (s.rx.next (s.rxIn i)).rsp.rsp.rdata
  if s.rx.rxReadAccept (s.rxIn i) && !rdata.getLsbD 31 then some (rdata.extractLsb 7 0) else none

/-- A cycle of the link. -/
def next : SerialLink p where
  tx := s.tx.next (txIn i)
  rx := s.rx.next (s.rxIn i)
  sent := s.sent ++ (s.store i).toList
  received := s.received ++ (s.read i).toList

/-- The receiver completes a frame in this cycle. -/
def completes : Prop := s.rx.rx.stateQ = .stop ∧ s.rx.rx.countQ = 0#_

/-- Whether a frame completes can be computed. -/
instance : Decidable s.completes := inferInstanceAs (Decidable (_ ∧ _))

/-- The byte in the holding register is popped by the time the next frame is complete. -/
def circuit (p : UartParams) : Circuit (SerialLink p) In where
  legal s i := s.completes → s.rx.rx.validQ = true → s.rx.rxPop (s.rxIn i) = true
  next := next

/-- Whether a cycle is legal can be computed. -/
instance (s : SerialLink p) (i : In) : Decidable ((circuit p).legal s i) :=
  inferInstanceAs (Decidable (_ → _ → _))

/-- The byte in the holding register of the receiver. -/
def holding : List (BitVec 8) := if s.rx.rx.validQ then [s.rx.rx.dataQ] else []

/-- A frame of `b` occupies the line for its ten bits of `CLKS_PER_BIT` cycles from `s` on, during
which no store is accepted, and then the transmitter is free. -/
def Framed (s : SerialLink p) (b : BitVec 8) : Prop :=
  ∀ is s', (circuit p).Run s is s' →
    (is.length < 10 * p.clksPerBit →
      s'.line = frameBit b (is.length / p.clksPerBit) ∧ ∀ i, s'.store i = none) ∧
    (is.length = 10 * p.clksPerBit → s'.tx.tx.busyQ = false ∧ s'.line = true)

/-- What the link is for. -/
structure RoundTrip (s : SerialLink p) : Prop where
  /-- The bytes read are the bytes stored, in order, each once; missing are only the byte in the
  holding register and the one of a frame under way. -/
  delivered : ∃ rest, s.sent = s.received ++ s.holding ++ rest ∧ rest.length ≤ 1 ∧
    (s.tx.tx.busyQ = false → s.rx.rx.stateQ = .idle → rest = [])
  noErrors : s.rx.rx.overrunQ = false ∧ s.rx.rx.frameErrorQ = false
  framed : ∀ i b, (circuit p).legal s i → s.store i = some b → (s.next i).Framed b

/-- The invariant: both sides stand `n` cycles after the last frame, of `b`, began. -/
structure Tracks (s : SerialLink p) (b : BitVec 8) (n : ℕ) : Prop where
  tx : s.tx.tx.At b n
  rx : s.rx.rx.At b n
  sync : s.rx.rx.syncQ = Uart.Rx.seen p b n
  meta' : s.rx.rx.metaQ = Uart.Rx.seen p b (n + 1)
  noErrors : s.rx.rx.overrunQ = false ∧ s.rx.rx.frameErrorQ = false
  bytes : s.sent =
    s.received ++ s.holding ++ if n ≤ Uart.Rx.lastCycle p then [b] else []

variable {s i} {b : BitVec 8} {n : ℕ}

/-! ### Stores and reads -/

/-- Only a free transmitter accepts a store. -/
theorem idle_of_store (h : s.store i = some b) : s.tx.tx.busyQ = false := by
  have haccept : s.tx.txWriteAccept (txIn i) = true := by
    by_contra hne
    simp [store, Uart.txWrite, hne] at h
  simp only [Uart.txWriteAccept, Uart.reqFire, Uart.reqReady, Bool.and_eq_true,
    beq_iff_eq] at haccept
  obtain ⟨⟨⟨⟨-, -, hready⟩, hvalid⟩, hwrite⟩, haddr⟩ := haccept
  have hlegal : Uart.requestIsLegalTxWrite p (txIn i).bus.req = true := by
    simp only [Uart.accessValid, haddr, if_true, Uart.readAccessShape, hwrite, Bool.not_true,
      Bool.false_and, Bool.false_or, Bool.and_eq_true] at hvalid
    simp [Uart.requestIsLegalTxWrite, haddr, hvalid]
  simpa [hlegal] using hready

/-- A read returns the byte it pops. -/
theorem read_eq : s.read i =
    if s.rx.rxPop (s.rxIn i) then some s.rx.rx.dataQ else none := by
  unfold read Uart.rxPop
  cases ha : s.rx.rxReadAccept (s.rxIn i)
  · simp
  · have haccept := ha
    simp only [Uart.rxReadAccept, Bool.and_eq_true, beq_iff_eq, Bool.not_eq_true'] at haccept
    obtain ⟨⟨⟨hfire, hvalid⟩, hwrite⟩, haddr⟩ := haccept
    have hdata : (s.rx.next (s.rxIn i)).rsp.rsp.rdata =
        BitVec.ofBool (!s.rx.rx.validQ) ++ 0#23 ++ s.rx.rx.dataQ := by
      have hrst : (s.rxIn i).rst = false := rfl
      simp only [Uart.next, hrst, MemRspQ.next, hfire, hvalid, hwrite, haddr, Uart.readData_rxData,
        Bool.false_eq_true, if_true, if_false]
    have hempty := Uart.getLsbD_rxData (!s.rx.rx.validQ) s.rx.rx.dataQ
    have hbyte := Uart.extractLsb_rxData (!s.rx.rx.validQ) s.rx.rx.dataQ
    simp only [hdata, hempty, hbyte]
    cases s.rx.rx.validQ <;> rfl

/-- The transmitter after a cycle. -/
theorem tx_next (s : SerialLink p) (i : In) : (s.next i).tx.tx = s.tx.tx.next (s.store i) := rfl

/-- The receiver after a cycle. -/
theorem rx_next (s : SerialLink p) (i : In) : ∃ co cf, (s.next i).rx.rx =
    s.rx.rx.next co cf (s.rx.rxPop (s.rxIn i)) s.line := ⟨_, _, rfl⟩

/-- The line follows the frame. -/
theorem line_eq (h : s.tx.tx.At b n) : s.line = Uart.Rx.seen p b (n + 2) := by
  have hC := p.four_le_clksPerBit
  rw [Uart.Rx.seen, if_neg (by omega), Nat.add_sub_cancel]
  cases h with
  | bit k j hk hj busy bit count shift =>
    rw [level_eq b k hj, ← Nat.add_zero k, ← shift 0 (by omega)]
    simp [line, Uart.uartTx, busy]
  | done le idle =>
    rw [level_of_stop b (by omega) (by omega)]
    simp [line, Uart.uartTx, idle]

/-! ### Frames -/

/-- While a frame is under way no store is accepted. -/
theorem at_of_run {is : List In} {s' : SerialLink p} (h : s.tx.tx.At b 0)
    (hr : (circuit p).Run s is s') (hlen : is.length ≤ 10 * p.clksPerBit) :
    s'.tx.tx.At b is.length := by
  induction hr with
  | nil => exact h
  | @snoc is s' i hr hl ih =>
    rw [List.length_append, List.length_singleton] at hlen ⊢
    have hat := ih (by omega)
    -- STATUS and TXDATA stores wait for the transmitter
    have hbusy : s'.tx.tx.busyQ = true := hat.busy_iff.mpr (by omega)
    have hstore : s'.store i = none := by
      cases hst : s'.store i with
      | none => rfl
      | some b => simp [idle_of_store hst] at hbusy
    show (s'.next i).tx.tx.At b (is.length + 1)
    rw [tx_next, hstore]
    exact hat.next

/-- A transmitter at the start of a byte has a frame ahead. -/
theorem framed_of_at (h : s.tx.tx.At b 0) : s.Framed b := by
  intro is s' hr
  have hC := p.four_le_clksPerBit
  constructor
  · intro hlt
    have hat := at_of_run h hr (by omega)
    have hbusy : s'.tx.tx.busyQ = true := hat.busy_iff.mpr hlt
    refine ⟨?_, fun i => ?_⟩
    · rw [line_eq hat, Uart.Rx.seen, if_neg (by omega), Nat.add_sub_cancel]
      rfl
    · cases hst : s'.store i with
      | none => rfl
      | some b => simp [idle_of_store hst] at hbusy
  · intro heq
    have hat := at_of_run h hr (by omega)
    have hidle : s'.tx.tx.busyQ = false := by
      rw [← Bool.not_eq_true, hat.busy_iff]
      omega
    exact ⟨hidle, by simp [line, Uart.uartTx, hidle]⟩

/-! ### The invariant -/

/-- The bytes after a cycle, before a new store is counted. -/
theorem Tracks.bytes_next (h : Tracks s b n) (hl : (circuit p).legal s i) :
    s.sent = (s.next i).received ++ (s.next i).holding ++
      (if n + 1 ≤ Uart.Rx.lastCycle p then [b] else []) ∧
    (s.next i).rx.rx.overrunQ = false ∧ (s.next i).rx.rx.frameErrorQ = false := by
  obtain ⟨co, cf, hrx⟩ := rx_next s i
  have hreceived : (s.next i).received = s.received ++
      if s.rx.rxPop (s.rxIn i) then [s.rx.rx.dataQ] else [] := by
    rw [next, read_eq]
    split <;> rfl
  -- only a byte that is there is popped
  have hpop : s.rx.rxPop (s.rxIn i) = true → s.rx.rx.validQ = true := by
    simp only [Uart.rxPop, Bool.and_eq_true]
    exact And.right
  obtain ⟨hover, hframe⟩ := h.noErrors
  rw [h.bytes, hreceived, holding, holding, hrx]
  by_cases hlast : n = Uart.Rx.lastCycle p
  · -- the byte enters a register that is empty or is being emptied
    obtain ⟨hs, h0⟩ := h.rx.completes_iff.mpr hlast
    have hfree : (s.rx.rx.validQ && !s.rx.rxPop (s.rxIn i)) = false := by
      have hread := hl ⟨hs, h0⟩
      cases hv : s.rx.rx.validQ
      · rfl
      · simp [hread hv]
    have hsync : s.rx.rx.syncQ = true := h.sync.trans (Uart.Rx.seen_of_stop b hlast.ge)
    obtain ⟨hvalid, hdata, hover', hframe'⟩ :=
      Uart.Rx.next_complete hs h0 co cf (s.rx.rxPop (s.rxIn i)) s.line
    rw [hvalid, hdata, hover', hframe', hfree, hsync, hover, hframe, h.rx.shiftQ hlast]
    refine ⟨?_, rfl, rfl⟩
    have hiff : s.rx.rx.validQ = s.rx.rxPop (s.rxIn i) := by
      cases hp : s.rx.rxPop (s.rxIn i)
      · simpa [hp] using hfree
      · exact hpop hp
    have hgt : ¬ n + 1 ≤ Uart.Rx.lastCycle p := by omega
    have hle : n ≤ Uart.Rx.lastCycle p := hlast.le
    simp [hiff, hgt, hle]
  · -- a pop moves the byte from the register to the bytes read
    have hnot := mt h.rx.completes_iff.mp hlast
    obtain ⟨hvalid, hdata, hover', hframe'⟩ :=
      Uart.Rx.next_holding hnot co cf (s.rx.rxPop (s.rxIn i)) s.line
    rw [hvalid, hdata, hover', hframe', hover, hframe]
    refine ⟨?_, rfl, rfl⟩
    have hiff : n + 1 ≤ Uart.Rx.lastCycle p ↔ n ≤ Uart.Rx.lastCycle p := by omega
    simp only [hiff]
    congr 1
    cases hp : s.rx.rxPop (s.rxIn i)
    · simp
    · simp [hpop hp]

/-- Each cycle takes both sides one cycle further, or to the start of the next frame. -/
theorem Tracks.next (h : Tracks s b n) (hl : (circuit p).legal s i) :
    ∃ b n, Tracks (s.next i) b n := by
  have hC := p.four_le_clksPerBit
  have hhalf := p.halfBitClks_eq
  obtain ⟨hbytes, herrors⟩ := h.bytes_next hl
  have hrx : (s.next i).rx.rx.At b (n + 1) := h.rx.next h.sync _ _ _ _
  have hsync : (s.next i).rx.rx.syncQ = Uart.Rx.seen p b (n + 1) := h.meta'
  have hmeta : (s.next i).rx.rx.metaQ = Uart.Rx.seen p b (n + 2) := line_eq h.tx
  cases hst : s.store i with
  | none =>
    refine ⟨b, n + 1, ?_, hrx, hsync, hmeta, herrors, ?_⟩
    · rw [tx_next, hst]
      exact h.tx.next
    · rw [← hbytes, SerialLink.next, hst]
      simp
  | some b' =>
    have hbusy := idle_of_store hst
    have hn : 10 * p.clksPerBit ≤ n := by
      by_contra hlt
      simp [h.tx.busy_iff.mpr (by omega)] at hbusy
    -- the receiver is done before the stop bit ends, so it is idle when the next frame begins
    have hlast : Uart.Rx.lastCycle p ≤ n := by unfold Uart.Rx.lastCycle; omega
    refine ⟨b', 0, ?_, ?_, ?_, ?_, herrors, ?_⟩
    · rw [tx_next, hst]
      exact Uart.Tx.at_start _ _
    · exact .before (by omega) (hrx.idle_iff.mpr (.inr (by omega)))
    · rw [hsync, Uart.Rx.seen_of_stop b (by omega)]
      rfl
    · rw [hmeta, Uart.Rx.seen_of_stop b (by omega)]
      rfl
    · rw [if_neg (by omega), List.append_nil] at hbytes
      rw [← hbytes, if_pos (by omega), SerialLink.next, hst]
      rfl

theorem Tracks.roundTrip (h : Tracks s b n) : RoundTrip s where
  delivered := by
    have hC := p.four_le_clksPerBit
    refine ⟨_, h.bytes, by split <;> simp, fun hbusy hidle => if_neg ?_⟩
    have hn : ¬ n < 10 * p.clksPerBit := by
      rw [← h.tx.busy_iff, hbusy]
      simp
    have := h.rx.idle_iff.mp hidle
    omega
  noErrors := h.noErrors
  framed i b _ hst := by
    apply framed_of_at
    rw [tx_next, hst]
    exact Uart.Tx.at_start _ _

/-- Out of reset both sides are idle, as long after a frame. -/
theorem tracks_init : Tracks ({} : SerialLink p) 0#8
    (Uart.Rx.lastCycle p + 10 * p.clksPerBit + 1) where
  tx := .done (by omega) rfl
  rx := .after (by omega) rfl
  sync := (Uart.Rx.seen_of_stop _ (by omega)).symm
  meta' := (Uart.Rx.seen_of_stop _ (by omega)).symm
  noErrors := ⟨rfl, rfl⟩
  bytes := by
    rw [if_neg (by omega)]
    rfl

/-- For every number of clocks per bit, every sequence of stores with any gaps and any bus traffic
that reads each byte in time, the bytes make the round trip. -/
theorem round_trip {is : List In} (h : (circuit p).Run {} is s) : RoundTrip s := by
  have ht : ∃ b n, Tracks s b n := by
    exact h.invariant (I := fun s => ∃ b n, Tracks s b n) ⟨_, _, tracks_init⟩
      fun _ _ ⟨_, _, ht⟩ hl => ht.next hl
  obtain ⟨b, n, ht⟩ := ht
  exact ht.roundTrip

/-- Four clocks per bit. -/
def fastest : UartParams where
  clkFreqHz := 4#32
  baudRate := 1#32
  baudRate_ne := by decide
  clkFreqHz_ne := by decide
  four_le := by decide

/-- A store to TXDATA, and the cycles until its frame is received and read. -/
def transmission : List In :=
  let store : MemReq := { addr := 0x10000000#32, write := true, wdata := 0xa5#32, wstrb := 1#4 }
  let load : MemReq := { addr := 0x10000004#32 }
  { txBus := { reqValid := true, req := store } } :: List.replicate 42 ({ txPin := true } : In) ++
    [{ rxBus := { reqValid := true, req := load } }]

/-- The byte is received. -/
theorem round_trip_transmission :
    ((circuit fastest).exec {} transmission).received = [0xa5#8] ∧
    RoundTrip ((circuit fastest).exec {} transmission) :=
  ⟨by decide +kernel, round_trip (Circuit.Run.of_always (by decide +kernel))⟩

end SerialLink

end Rv32im

import Rv32im.Soc.SerialLink
import Mathlib.Data.List.GetD

/-!
# The receiver loses no byte silently

`rv32_uart` under any waveform on `uart_rx_i` and any bus traffic. The frames its receiver completes
and the bytes that RXDATA reads return are recorded.

* `Uart.answer`: the access accepted in a cycle, with its answer;
* `Receiver`: the serial port with its records; `Receiver.drops`: a frame arrives that finds the
  holding register full;
* `Receiver.Lossless`: every other frame is returned once and in order, and errors are reported;
* `Receiver.lossless`: this holds in every state of a run.
-/

namespace Rv32im

open Clocked Serial

namespace Uart

variable {p : UartParams} (q : Uart p) (i : In)

/-- The access accepted in this cycle and its answer in the next, unless that is an error. -/
def answer : Option (MemReq × MemRsp) :=
  let rsp := (q.next i).rsp.rsp
  (i.bus.accepted (q.reqReady i)).bind fun req => if rsp.err then none else some (req, rsp)

variable {q i}

/-- An access is answered without error if it is valid; a read gets the data of the cycle. -/
theorem answer_eq (hrst : i.rst = false) : q.answer i =
    if q.reqFire i && accessValid p i.bus.req then
      some (i.bus.req, { rdata := if i.bus.req.write then 0#32 else q.readData i.bus.req.addr
                         err := false })
    else none := by
  have hrsp : (q.next i).rsp = .next (q.reqFire i) (accessValid p i.bus.req)
      (if i.bus.req.write then 0#32 else q.readData i.bus.req.addr) := by
    simp only [next, hrst, Bool.false_eq_true, if_false]
  have hacc : i.bus.accepted (q.reqReady i) = if q.reqFire i then some i.bus.req else none := rfl
  rw [answer, hrsp, hacc]
  cases q.reqFire i <;> cases accessValid p i.bus.req <;> simp [MemRspQ.next]

end Uart

/-- A frame as the receiver took it: the data bits it sampled, the first received first, the stop
bit, and whether its byte was dropped. -/
structure RxFrame where
  bits : List Bool
  stop : Bool
  dropped : Bool
deriving DecidableEq, Repr

/-- The bytes of the frames that were not dropped. -/
def RxFrame.delivered (fs : List RxFrame) : List (BitVec 8) :=
  (fs.filter (!·.dropped)).map fun f => byteOf f.bits

/-- The serial port, the data bits of the frame under way, the completed frames and the bytes
returned by reads of RXDATA. -/
structure Receiver (p : UartParams) where
  uart : Uart p := {}
  bits : List Bool := []
  frames : List RxFrame := []
  returned : List (BitVec 8) := []

namespace Receiver

variable {p : UartParams} (s : Receiver p) (i : Uart.In)

/-- The receiver samples the stop bit in this cycle. -/
def completes : Bool := s.uart.rx.stateQ == .stop && s.uart.rx.countQ == 0#_

/-- The receiver samples a data bit in this cycle. -/
def samples : Bool := s.uart.rx.stateQ == .data && s.uart.rx.countQ == 0#_

/-- The receiver finds the line low in the middle of a start bit. -/
def begins : Bool := s.uart.rx.stateQ == .start && s.uart.rx.countQ == 0#_ && !s.uart.rx.syncQ

/-- The byte that the RXDATA read of this cycle returns, unless it says empty. -/
def read : Option (BitVec 8) :=
  (s.uart.answer i).bind fun (req, rsp) =>
    if !req.write && req.addr == p.rxDataAddr && !rsp.rdata.getLsbD 31 then
      some (rsp.rdata.extractLsb 7 0)
    else none

/-- The RXDATA read of this cycle says empty. -/
def ReadsEmpty : Prop :=
  ∃ req rsp, s.uart.answer i = some (req, rsp) ∧ req.write = false ∧ req.addr = p.rxDataAddr ∧
    rsp.rdata.getLsbD 31 = true

/-- A STATUS store is accepted in this cycle with bit `k` set. -/
def Clears (k : ℕ) : Prop :=
  ∃ req rsp, s.uart.answer i = some (req, rsp) ∧ req.write = true ∧ req.addr = p.statusAddr ∧
    req.wdata.getLsbD k = true

/-- A frame is completed while the holding register is full and is not read in the same cycle. -/
def drops : Bool := s.completes && s.uart.rx.validQ && (s.read i).isNone

/-- A cycle of the serial port and of the records. -/
def next : Receiver p where
  uart := s.uart.next i
  bits :=
    if s.begins then [] else if s.samples then s.bits ++ [s.uart.rx.syncQ] else s.bits
  frames :=
    if s.completes then
      s.frames ++ [{ bits := s.bits, stop := s.uart.rx.syncQ, dropped := s.drops i }]
    else s.frames
  returned := s.returned ++ (s.read i).toList

/-- Any waveform and any bus traffic, without reset. -/
def circuit (p : UartParams) : Circuit (Receiver p) Uart.In where
  legal _ i := i.rst = false
  next := next

/-- Whether a cycle is legal can be computed. -/
instance (s : Receiver p) (i : Uart.In) : Decidable ((circuit p).legal s i) :=
  inferInstanceAs (Decidable (_ = _))

/-- The byte in the holding register. -/
def holding : List (BitVec 8) := if s.uart.rx.validQ then [s.uart.rx.dataQ] else []

/-- What the receiver promises in a state and for the next cycle. -/
structure Lossless (s : Receiver p) : Prop where
  /-- The bytes returned are those of the frames not dropped, in order, each once; missing is only
  the byte that is still held. -/
  returned : RxFrame.delivered s.frames = s.returned ++ s.holding
  frames : ∀ f ∈ s.frames, f.bits.length = 8
  /-- A dropped frame leaves the held byte, and the error says so. -/
  dropped : ∀ i, i.rst = false → s.drops i = true → (s.next i).uart.rx.overrunQ = true ∧
    (s.next i).uart.rx.validQ = true ∧ (s.next i).uart.rx.dataQ = s.uart.rx.dataQ
  /-- Errors are set in the cycle that finds them, even if a store clears them, and else stay until
  a store clears them. -/
  overrun : ∀ i, i.rst = false → ((s.next i).uart.rx.overrunQ = true ↔
    s.drops i = true ∨ s.uart.rx.overrunQ = true ∧ ¬ s.Clears i 3)
  frameError : ∀ i, i.rst = false → ((s.next i).uart.rx.frameErrorQ = true ↔
    s.completes = true ∧ s.uart.rx.syncQ = false ∨
      s.uart.rx.frameErrorQ = true ∧ ¬ s.Clears i 4)
  /-- A read that says empty leaves the byte that arrives in the same cycle. -/
  empty : ∀ i, i.rst = false → s.ReadsEmpty i → s.completes = true →
    s.drops i = false ∧ (s.next i).uart.rx.validQ = true ∧
      (s.next i).uart.rx.dataQ = byteOf s.bits

/-- The shift register holds the data bits sampled so far. -/
structure Sampled (r : Uart.Rx p) (bits : List Bool) : Prop where
  data : r.stateQ = .data → bits.length = r.bitQ.toNat ∧
    ∀ m < bits.length, r.shiftQ.getLsbD m = bits.getD m false
  stop : r.stateQ = .stop → bits.length = 8 ∧ r.shiftQ = byteOf bits

/-- The invariant of a run. -/
structure Inv (s : Receiver p) : Prop where
  returned : RxFrame.delivered s.frames = s.returned ++ s.holding
  frames : ∀ f ∈ s.frames, f.bits.length = 8
  sampled : Sampled s.uart.rx s.bits

variable {s i}

/-! ### The bus side -/

/-- A read returns the byte it pops. -/
theorem read_eq (hrst : i.rst = false) :
    s.read i = if s.uart.rxPop i then some s.uart.rx.dataQ else none := by
  rw [read, Uart.answer_eq hrst, Uart.rxPop, Uart.rxReadAccept]
  cases hfire : s.uart.reqFire i && Uart.accessValid p i.bus.req with
  | false => simp
  | true =>
    rw [if_pos rfl, Option.bind_some]
    cases hw : i.bus.req.write with
    | true => simp [hw]
    | false =>
      by_cases ha : i.bus.req.addr = p.rxDataAddr
      · have hempty := Uart.getLsbD_rxData (!s.uart.rx.validQ) s.uart.rx.dataQ
        have hbyte := Uart.extractLsb_rxData (!s.uart.rx.validQ) s.uart.rx.dataQ
        rw [ha, Uart.readData_rxData]
        simp only [hw, Bool.false_eq_true, if_false, hempty, hbyte]
        cases s.uart.rx.validQ <;> simp [ha]
      · simp [ha]

/-- Only an empty register is read as empty. -/
theorem validQ_of_readsEmpty (hrst : i.rst = false) (h : s.ReadsEmpty i) :
    s.uart.rx.validQ = false := by
  obtain ⟨req, rsp, hans, hw, ha, hempty⟩ := h
  rw [Uart.answer_eq hrst] at hans
  split at hans
  next =>
    obtain ⟨rfl, rfl⟩ := Prod.mk.inj (Option.some.inj hans)
    have hbit := Uart.getLsbD_rxData (!s.uart.rx.validQ) s.uart.rx.dataQ
    simp only [hw, ha, Bool.false_eq_true, if_false, Uart.readData_rxData, hbit] at hempty
    simpa using hempty
  next => exact absurd hans (by simp)

/-- A store clears through `status_write_accept`. -/
theorem clears_iff (hrst : i.rst = false) (k : ℕ) :
    s.Clears i k ↔ (s.uart.statusWriteAccept i && i.bus.req.wdata.getLsbD k) = true := by
  rw [Clears, Uart.answer_eq hrst, Uart.statusWriteAccept]
  cases s.uart.reqFire i && Uart.accessValid p i.bus.req with
  | false => simp
  | true => simp [and_assoc]

/-! ### One cycle -/

/-- The receiver after a cycle. -/
theorem rx_next (s : Receiver p) (hrst : i.rst = false) : (s.next i).uart.rx =
    s.uart.rx.next (s.uart.statusWriteAccept i && i.bus.req.wdata.getLsbD 3)
      (s.uart.statusWriteAccept i && i.bus.req.wdata.getLsbD 4) (s.uart.rxPop i) i.uartRx := by
  simp only [next, Uart.next, hrst, Bool.false_eq_true, if_false]

/-- A frame is complete at the end of its stop bit. -/
theorem completes_iff : s.completes = true ↔
    s.uart.rx.stateQ = .stop ∧ s.uart.rx.countQ = 0#_ := by
  simp [completes]

/-- A frame is dropped if its byte finds another one that stays. -/
theorem drops_eq (hrst : i.rst = false) :
    s.drops i = (s.completes && (s.uart.rx.validQ && !s.uart.rxPop i)) := by
  rw [drops, read_eq hrst]
  cases s.uart.rxPop i <;> simp

/-- Only a full register is popped. -/
theorem validQ_of_rxPop (h : s.uart.rxPop i = true) : s.uart.rx.validQ = true :=
  (Bool.and_eq_true_iff.mp h).2

/-- The holding register after a cycle. -/
theorem holding_next (hrst : i.rst = false) :
    (s.next i).uart.rx.validQ = (s.completes || s.uart.rx.validQ && !s.uart.rxPop i) ∧
    (s.next i).uart.rx.dataQ =
      (if s.completes && !s.drops i then s.uart.rx.shiftQ else s.uart.rx.dataQ) ∧
    ((s.next i).uart.rx.overrunQ = true ↔
      s.drops i = true ∨ s.uart.rx.overrunQ = true ∧ ¬ s.Clears i 3) ∧
    ((s.next i).uart.rx.frameErrorQ = true ↔ s.completes = true ∧ s.uart.rx.syncQ = false ∨
      s.uart.rx.frameErrorQ = true ∧ ¬ s.Clears i 4) := by
  rw [rx_next s hrst, clears_iff hrst, clears_iff hrst, drops_eq hrst]
  generalize (s.uart.statusWriteAccept i && i.bus.req.wdata.getLsbD 3) = co
  generalize (s.uart.statusWriteAccept i && i.bus.req.wdata.getLsbD 4) = cf
  cases hc : s.completes with
  | false =>
    have hnot := mt completes_iff.mpr (Bool.eq_false_iff.mp hc)
    obtain ⟨hvalid, hdata, hover, hframe⟩ := Uart.Rx.next_holding hnot
      co cf (s.uart.rxPop i) i.uartRx
    rw [hvalid, hdata, hover, hframe]
    simp
  | true =>
    obtain ⟨hs, h0⟩ := completes_iff.mp hc
    obtain ⟨hvalid, hdata, hover, hframe⟩ := Uart.Rx.next_complete hs h0
      co cf (s.uart.rxPop i) i.uartRx
    rw [hvalid, hdata, hover, hframe]
    cases s.uart.rx.validQ && !s.uart.rxPop i <;> simp [or_comm]

/-- A frame that is not dropped is delivered last. -/
theorem delivered_append (fs : List RxFrame) (f : RxFrame) :
    RxFrame.delivered (fs ++ [f]) =
      RxFrame.delivered fs ++ if f.dropped then [] else [byteOf f.bits] := by
  cases hd : f.dropped <;> simp [RxFrame.delivered, hd]

/-- The bytes returned, with the one held, grow by the frame completed. -/
theorem Inv.returned_next (h : Inv s) (hrst : i.rst = false) :
    RxFrame.delivered (s.next i).frames = (s.next i).returned ++ (s.next i).holding := by
  obtain ⟨hvalid, hdata, -, -⟩ := holding_next (s := s) hrst
  have hdrops := drops_eq (s := s) hrst
  have hpop := validQ_of_rxPop (s := s) (i := i)
  have hold := h.returned
  rw [holding] at hold
  rw [holding, hvalid, hdata, next, read_eq hrst]
  cases hc : s.completes with
  | false =>
    -- a pop moves the byte from the register to the bytes returned
    cases hp : s.uart.rxPop i with
    | false => simp [hold]
    | true => simp [hold, hpop hp]
  | true =>
    -- the byte completed is dropped, or enters the register as the other one leaves it
    rw [hc] at hdrops
    obtain ⟨-, hshift⟩ := h.sampled.stop (completes_iff.mp hc).1
    simp only [if_true, delivered_append]
    rw [hold, hdrops, hshift]
    cases hp : s.uart.rxPop i with
    | false => cases s.uart.rx.validQ <;> simp
    | true => simp [hpop hp]

/-- The state machine samples one bit after the other. -/
theorem Sampled.advance {r : Uart.Rx p} {bits : List Bool} (h : Sampled r bits) :
    Sampled r.advance
      (if r.stateQ = .start ∧ r.countQ = 0#_ ∧ r.syncQ = false then []
        else if r.stateQ = .data ∧ r.countQ = 0#_ then bits ++ [r.syncQ] else bits) := by
  cases hs : r.stateQ with
  | idle =>
    have hadv : r.advance.stateQ ≠ .data ∧ r.advance.stateQ ≠ .stop := by
      cases hsync : r.syncQ <;> simp [Uart.Rx.advance, hs, hsync]
    exact ⟨fun hd => absurd hd hadv.1, fun hd => absurd hd hadv.2⟩
  | start =>
    by_cases h0 : r.countQ = 0#_
    · cases hsync : r.syncQ <;> constructor <;> simp [Uart.Rx.advance, hs, h0, hsync]
    · constructor <;> simp [Uart.Rx.advance, hs, h0]
  | data =>
    obtain ⟨hlen, hbit⟩ := h.data hs
    by_cases h0 : r.countQ = 0#_
    · -- the bit sampled becomes the next one of the shift register
      have hlt : r.bitQ.toNat < 8 := r.bitQ.isLt
      have hnew (m : ℕ) (hm : m < bits.length + 1) :
          (Uart.setBit r.shiftQ r.bitQ r.syncQ).getLsbD m = (bits ++ [r.syncQ]).getD m false := by
        rw [Uart.getLsbD_setBit _ _ _ (by omega), ← hlen]
        by_cases hm' : m = bits.length
        · simp [hm']
        · have hm'' : m < bits.length := by omega
          rw [if_neg hm', hbit m hm'', List.getD_append _ _ _ _ hm'']
      simp only [reduceCtorEq, false_and, if_false, h0, and_self, if_true]
      by_cases h7 : r.bitQ = 7#3
      · have hseven : bits.length = 7 := by rw [hlen, h7]; rfl
        have hadv : r.advance = { r with shiftQ := Uart.setBit r.shiftQ r.bitQ r.syncQ
                                         countQ := p.bitReload, stateQ := .stop } := by
          simp [Uart.Rx.advance, hs, h0, h7]
        rw [hadv]
        refine ⟨fun hd => by simp at hd, fun _ => ⟨by simp [hseven], eq_byteOf fun m hm => ?_⟩⟩
        exact hnew m (by omega)
      · have hne : r.bitQ.toNat ≠ 7 := fun he => h7 (BitVec.eq_of_toNat_eq he)
        have hadv : r.advance = { r with shiftQ := Uart.setBit r.shiftQ r.bitQ r.syncQ
                                         countQ := p.bitReload, bitQ := r.bitQ + 1#3 } := by
          simp [Uart.Rx.advance, hs, h0, h7]
        rw [hadv]
        refine ⟨fun _ => ⟨?_, fun m hm => hnew m (by simpa using hm)⟩, fun hd => by simp [hs] at hd⟩
        have hmod : (r.bitQ.toNat + 1) % 8 = r.bitQ.toNat + 1 := Nat.mod_eq_of_lt (by omega)
        simp [BitVec.toNat_add, hmod, hlen]
    · have hadv : r.advance = { r with countQ := r.countQ - 1#_ } := by
        simp [Uart.Rx.advance, hs, h0]
      rw [hadv]
      simp only [h0, and_false, false_and, if_false]
      exact ⟨fun _ => ⟨hlen, hbit⟩, fun hd => by simp [hs] at hd⟩
  | stop =>
    simp only [reduceCtorEq, false_and, if_false]
    by_cases h0 : r.countQ = 0#_
    · constructor <;> simp [Uart.Rx.advance, hs, h0]
    · have hadv : r.advance = { r with countQ := r.countQ - 1#_ } := by
        simp [Uart.Rx.advance, hs, h0]
      rw [hadv]
      exact ⟨fun hd => by simp [hs] at hd, fun _ => h.stop hs⟩

/-- The shift register after a cycle. -/
theorem Inv.sampled_next (h : Inv s) (hrst : i.rst = false) :
    Sampled (s.next i).uart.rx (s.next i).bits := by
  have hadv := h.sampled.advance
  obtain ⟨hs, -, hb, hshift⟩ := Uart.Rx.next_eq s.uart.rx
    (s.uart.statusWriteAccept i && i.bus.req.wdata.getLsbD 3)
    (s.uart.statusWriteAccept i && i.bus.req.wdata.getLsbD 4) (s.uart.rxPop i) i.uartRx
  rw [← rx_next s hrst] at hs hb hshift
  have hbits : (s.next i).bits =
      if s.uart.rx.stateQ = .start ∧ s.uart.rx.countQ = 0#_ ∧ s.uart.rx.syncQ = false then []
      else if s.uart.rx.stateQ = .data ∧ s.uart.rx.countQ = 0#_ then
        s.bits ++ [s.uart.rx.syncQ]
      else s.bits := by
    simp [Receiver.next, begins, samples, and_assoc]
  rw [hbits]
  exact ⟨fun hd => by rw [hb, hshift]; exact hadv.data (hs ▸ hd),
    fun hd => by rw [hshift]; exact hadv.stop (hs ▸ hd)⟩

/-- Every cycle keeps the invariant. -/
theorem Inv.next (h : Inv s) (hrst : i.rst = false) : Inv (s.next i) := by
  refine ⟨h.returned_next hrst, ?_, h.sampled_next hrst⟩
  rw [Receiver.next]
  dsimp only
  split
  next hc =>
    rw [List.forall_mem_append, List.forall_mem_singleton]
    exact ⟨h.frames, (h.sampled.stop (completes_iff.mp hc).1).1⟩
  next => exact h.frames

/-- What the invariant promises. -/
theorem Inv.toLossless (h : Inv s) : Lossless s where
  returned := h.returned
  frames := h.frames
  dropped i hrst hd := by
    obtain ⟨hvalid, hdata, hover, -⟩ := holding_next (s := s) hrst
    have hc := hd
    rw [drops, Bool.and_eq_true, Bool.and_eq_true] at hc
    refine ⟨hover.mpr (.inl hd), by rw [hvalid, hc.1.1]; rfl, ?_⟩
    rw [hdata, hd]
    simp
  overrun i hrst := (holding_next hrst).2.2.1
  frameError i hrst := (holding_next hrst).2.2.2
  empty i hrst he hc := by
    obtain ⟨hvalid, hdata, -, -⟩ := holding_next (s := s) hrst
    have hd : s.drops i = false := by simp [drops, validQ_of_readsEmpty hrst he]
    refine ⟨hd, by rw [hvalid, hc]; rfl, ?_⟩
    rw [hdata, hc, hd]
    exact (h.sampled.stop (completes_iff.mp hc).1).2

/-- In every run from reset the receiver returns every byte it does not report as dropped, once and
in order. -/
theorem lossless {is : List Uart.In} (h : (circuit p).Run {} is s) : Lossless s := by
  refine Inv.toLossless (h.invariant (I := Inv) ?_ fun s i hI hl => hI.next hl)
  exact ⟨rfl, by simp, fun hs => by simp at hs, fun hs => by simp at hs⟩

/-- The frames of `0xa5` and `0x3c` behind each other, at four clocks per bit, and a read. -/
def twoFrames : List Uart.In :=
  let frame (b : BitVec 8) : List Uart.In :=
    (List.range 44).map fun n => { uartRx := level 4 b n }
  let load : MemReq := { addr := 0x10000004#32 }
  frame 0xa5#8 ++ frame 0x3c#8 ++ [{ bus := { reqValid := true, req := load } }]

/-- The second frame finds the register full. -/
theorem lossless_twoFrames :
    let s := (circuit SerialLink.fastest).exec {} twoFrames
    s.frames.map (·.dropped) = [false, true] ∧ s.returned = [0xa5#8] ∧
      s.uart.rx.overrunQ = true ∧ Lossless s :=
  ⟨by decide +kernel, by decide +kernel, by decide +kernel,
    lossless (Circuit.Run.of_always (by decide +kernel))⟩

end Receiver

end Rv32im

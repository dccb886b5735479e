import Rv32im.Clocked.Service
import Rv32im.Datapath.Decode
import Rv32im.Isa.Semantics
import Rv32im.Units.Mdu

/-!
# The multiplier and the divider as units

For every sequence of requests, kills, resets and response stalls, the response to an operation
that was neither killed nor reset is the one that the instruction set prescribes for the captured
operands. It is kept until it is taken, once.

* `result_mduOf`: the RV32M results against the integer operations;
* `MduIn.ports`: what is seen at a unit in a cycle;
* `MulUnit.mul_serves`, `DivUnit.div_serves`: the units serve, within a bounded time;
* `DivUnit.Intermediate`: the partial quotient and remainder of the divider.
-/

namespace Rv32im

open Clocked Riscv

/-! ### Results -/

private theorem extract_high (p : Int) :
    (BitVec.ofInt 64 p).extractLsb 63 32 = BitVec.ofInt 32 (p / 2 ^ 32) := by
  apply BitVec.eq_of_toNat_eq
  rw [BitVec.extractLsb_toNat, BitVec.toNat_ofInt, BitVec.toNat_ofInt, Nat.shiftRight_eq_div_pow]
  omega

private theorem setWidth_eq_ofInt (x : Word) : x.setWidth 64 = BitVec.ofInt 64 x.toNat := by
  rw [BitVec.ofInt_natCast, BitVec.ofNat_toNat]

/-- The RV32M results are those of the integer operations. -/
theorem result_mduOf (op : MulDivOp) (a b : Word) : (mduOf op).result a b = op.eval a b := by
  have hz : b = 0#32 ↔ b.toNat = 0 := by
    rw [← BitVec.toNat_inj]
    rfl
  cases op with
  | mul =>
    rw [mduOf, MduOp.result, MulDivOp.eval, BitVec.ofInt_mul, BitVec.ofInt_toInt,
      BitVec.ofInt_toInt]
  -- the high half is a division by 2 ^ 32 that rounds towards minus infinity
  | mulh =>
    have h : a.signExtend 64 * b.signExtend 64 = BitVec.ofInt 64 (a.toInt * b.toInt) :=
      (BitVec.ofInt_mul ..).symm
    rw [mduOf, MduOp.result, MulDivOp.eval, h, extract_high]
  | mulhsu =>
    have h : a.signExtend 64 * b.setWidth 64 = BitVec.ofInt 64 (a.toInt * b.toNat) := by
      rw [setWidth_eq_ofInt, BitVec.ofInt_mul]
      rfl
    rw [mduOf, MduOp.result, MulDivOp.eval, h, extract_high]
  | mulhu =>
    have h : a.setWidth 64 * b.setWidth 64 = BitVec.ofInt 64 (a.toNat * b.toNat) := by
      rw [setWidth_eq_ofInt, setWidth_eq_ofInt, BitVec.ofInt_mul]
    rw [mduOf, MduOp.result, MulDivOp.eval, h, extract_high, ← BitVec.ofInt_natCast]
    norm_cast
  -- the integer division of `BitVec` rounds towards zero, as the instruction does
  | div =>
    rw [mduOf, MduOp.result, MulDivOp.eval]
    simp only [hz]
    split
    · rfl
    · apply BitVec.eq_of_toInt_eq
      rw [BitVec.toInt_sdiv, BitVec.toInt_ofInt]
  | divu =>
    rw [mduOf, MduOp.result, MulDivOp.eval, ← BitVec.toNat_udiv, BitVec.ofNat_toNat,
      BitVec.setWidth_eq]
    simp only [hz]
    rfl
  | rem =>
    rw [mduOf, MduOp.result, MulDivOp.eval]
    by_cases h : b.toNat = 0
    · rw [if_pos h, hz.mpr h, BitVec.srem_zero]
    · rw [if_neg h, ← BitVec.toInt_srem, BitVec.ofInt_toInt]
  | remu =>
    rw [mduOf, MduOp.result, MulDivOp.eval]
    by_cases h : b.toNat = 0
    · rw [if_pos h, hz.mpr h, BitVec.umod_zero]
    · rw [if_neg h, ← BitVec.toNat_umod, BitVec.ofNat_toNat, BitVec.setWidth_eq]

/-! ### Ports -/

/-- An operation of a unit. -/
structure MduRequest where
  op : MduOp
  lhs : Word
  rhs : Word
deriving DecidableEq, Repr

/-- `v` is what the instruction set prescribes for an operation. -/
def MduRequest.Gives (r : MduRequest) (v : Word) : Prop :=
  ∃ op : MulDivOp, mduOf op = r.op ∧ v = op.eval r.lhs r.rhs

/-- The operation on the inputs of a unit. -/
def MduIn.request (i : MduIn) : MduRequest := ⟨i.op, i.lhs, i.rhs⟩

/-- What is seen at a unit that drives `reqReady`, `rspValid` and `result`. -/
def MduIn.ports (i : MduIn) (reqReady rspValid : Bool) (result : Word) :
    Ports MduRequest Word where
  accept := if i.reqValid && reqReady && !i.rst then some i.request else none
  offer := if rspValid then some result else none
  ready := i.rspReady
  cancel := i.rst || i.kill

/-- The results of the units are those of the instruction set. -/
theorem MduRequest.gives_result (r : MduRequest) (hop : r.op ≠ .none) :
    r.Gives (r.op.result r.lhs r.rhs) := by
  obtain ⟨op, hop⟩ : ∃ op, mduOf op = r.op := by
    cases h : r.op
    exacts [absurd h hop, ⟨.mul, rfl⟩, ⟨.mulh, rfl⟩, ⟨.mulhsu, rfl⟩, ⟨.mulhu, rfl⟩, ⟨.div, rfl⟩,
      ⟨.divu, rfl⟩, ⟨.rem, rfl⟩, ⟨.remu, rfl⟩]
  exact ⟨op, hop, hop ▸ result_mduOf op r.lhs r.rhs⟩

/-! A unit that is ready when it is `idle` and has its result at `resp`, both unless killed. -/

section Ports

variable {i : MduIn} {idle resp : Bool} {v : Word} {r : MduRequest}

/-- A request is given up on reset and on kill. -/
theorem MduIn.ports_cancel {ready valid : Bool} : (i.ports ready valid v).cancel = false ↔
    i.rst = false ∧ i.kill = false := by
  simp [MduIn.ports]

/-- What is accepted is the request of this cycle. -/
theorem MduIn.ports_accept (h : (i.ports (idle && !i.kill) resp v).accept = some r) :
    i.reqValid = true ∧ idle = true ∧ i.rst = false ∧ i.kill = false ∧ i.request = r := by
  unfold MduIn.ports at h
  simp only [Option.ite_none_right_eq_some, Option.some.injEq, Bool.and_eq_true,
    Bool.not_eq_true'] at h
  obtain ⟨⟨⟨hreq, hidle, hkill⟩, hrst⟩, hr⟩ := h
  exact ⟨hreq, hidle, hrst, hkill, hr⟩

/-- What is offered is the result. -/
theorem MduIn.ports_offer {ready : Bool} {w : Word}
    (h : (i.ports ready (resp && !i.kill) v).offer = some w) : resp = true ∧ w = v := by
  unfold MduIn.ports at h
  simp only [Option.ite_none_right_eq_some, Option.some.injEq, Bool.and_eq_true] at h
  exact ⟨h.1.1, h.2.symm⟩

/-- A result that is not given up is offered. -/
theorem MduIn.ports_offers {ready : Bool} (hresp : resp = true)
    (hc : (i.ports ready (resp && !i.kill) v).cancel = false) :
    (i.ports ready (resp && !i.kill) v).offer = some v := by
  obtain ⟨-, hkill⟩ := ports_cancel.mp hc
  simp [MduIn.ports, hresp, hkill]

/-- An idle unit that accepts nothing was asked for nothing. -/
theorem MduIn.ports_waits (hidle : idle = true) (hc : (i.ports (idle && !i.kill) resp v).cancel =
    false) (h : (i.ports (idle && !i.kill) resp v).accept = none) : i.reqValid = false := by
  obtain ⟨hrst, hkill⟩ := ports_cancel.mp hc
  simpa [MduIn.ports, hidle, hrst, hkill] using h

end Ports

/-! ### `mul_unit` -/

namespace MulUnit

/-- What is seen at `mul_unit`. -/
def ports (q : MulUnit) (i : MduIn) : Ports MduRequest Word :=
  i.ports (q.reqReady i) (q.rspValid i) q.result

/-- `mul_unit` with any inputs; the requests are multiplications. -/
def circuit : Circuit MulUnit MduIn where
  legal _ i := i.reqValid = true →
    i.op = .mul ∨ i.op = .mulh ∨ i.op = .mulhsu ∨ i.op = .mulhu
  next := next

/-- The unit works on `r`. -/
def WorksOn (q : MulUnit) (r : MduRequest) : Prop :=
  (r.op = .mul ∨ r.op = .mulh ∨ r.op = .mulhsu ∨ r.op = .mulhu) ∧ q.Works r.op r.lhs r.rhs

/-- A clock edge without reset and kill. -/
theorem next_eq {q : MulUnit} {i : MduIn} (hrst : i.rst = false) (hkill : i.kill = false) :
    q.next i =
      if q.stateQ = .idle then
        if i.reqValid then
          { q with lhsQ := lhsExt i.op i.lhs, rhsQ := rhsExt i.op i.rhs, opQ := i.op
                   stateQ := .exec }
        else q
      else if q.stateQ = .exec then
        { q with
          resultQ := if q.opQ == .mul then q.product.extractLsb 31 0 else q.product.extractLsb 63 32
          stateQ := .resp }
      else if i.rspReady then { q with stateQ := .idle } else q := by
  cases hs : q.stateQ <;> simp [next, reqReady, hrst, hkill, hs]

/-- The multiplier is a blocking unit that works for one cycle. -/
theorem blocking : Blocking circuit ports MduRequest.Gives (fun q => q.stateQ = .idle)
    (fun q => q.stateQ = .resp) WorksOn result (fun q => if q.stateQ = .exec then 1 else 0) where
  disjoint q hi hr := by simp [hi] at hr
  accept q i r h := by
    obtain ⟨-, hidle, hrst, hkill, -⟩ := MduIn.ports_accept h
    exact ⟨by simpa using hidle, MduIn.ports_cancel.mpr ⟨hrst, hkill⟩⟩
  offer q i v h := by
    obtain ⟨hresp, rfl⟩ := MduIn.ports_offer h
    exact ⟨by simpa using hresp, rfl⟩
  offers q i hr hc := MduIn.ports_offers (by simpa using hr) hc
  correct q r hr hw := by
    obtain ⟨hop, hw⟩ := hw
    rw [result, hw.resp hr]
    refine r.gives_result fun hnone => ?_
    simp [hnone] at hop
  rank_pos q hi hr := by
    cases hs : q.stateQ <;> simp_all
  cancels q i hc := by
    refine stateQ_next ?_
    simp only [ports, MduIn.ports, Bool.or_eq_true] at hc
    exact hc.imp_right .inl
  waits q i hi hc ha := by
    have hreq : i.reqValid = false := MduIn.ports_waits (by simpa using hi) hc ha
    exact stateQ_next (.inr (.inr (.inl ⟨hi, hreq⟩)))
  starts q i r hl ha := by
    obtain ⟨hreq, hidle, hrst, hkill, rfl⟩ := MduIn.ports_accept ha
    have hi : q.stateQ = .idle := by simpa using hidle
    refine ⟨?_, hl hreq, Works.accept hi hrst hkill⟩
    change (q.next i).stateQ ≠ .idle
    rw [next_eq hrst hkill, if_pos hi, if_pos hreq]
    simp
  works q i r hi hr hc hw := by
    obtain ⟨hrst, hkill⟩ := MduIn.ports_cancel.mp hc
    obtain ⟨hop, hw⟩ := hw
    -- the only state between idle and response
    have hs : q.stateQ = .exec := by cases hs : q.stateQ <;> simp_all
    have hnext : (q.next i).stateQ = .resp := by
      rw [next_eq hrst hkill, if_neg hi, if_pos hs]
    refine ⟨?_, ⟨hop, hw.next hi hrst hkill hop⟩, .inl hnext⟩
    change (q.next i).stateQ ≠ .idle
    simp [hnext]
  takes q i hr hc hready := stateQ_next (.inr (.inr (.inr ⟨hr, hready⟩)))
  holds q i hr hc hready := by
    obtain ⟨hrst, hkill⟩ := MduIn.ports_cancel.mp hc
    have hready : i.rspReady = false := hready
    change q.next i = q
    rw [next_eq hrst hkill, hr, hready]
    rfl

/-- The multiplier serves: the response to an operation that is neither killed nor reset before its
response is taken is the exact low or high half of the product, it stays until it is taken, and it
is there one cycle after the operation was accepted. -/
theorem mul_serves {is : List MduIn} {s : Ledgered MulUnit MduRequest Word}
    (hr : (circuit.withLedger ports).Run { state := {} } is s) :
    Serves circuit ports (fun _ => MduRequest.Gives) {} is s ∧
      ∀ js s', (circuit.withLedger ports).Run s js s' → s.ledger.current.isSome →
        (circuit.withLedger ports).Always (fun s j => (ports s.state j).cancel = false) s js →
        1 ≤ js.length → s.ledger.settled.length < s'.ledger.settled.length ∨
          ∀ j, (ports s'.state j).cancel = false → (ports s'.state j).offer.isSome := by
  obtain ⟨hinv, hs⟩ := blocking.serves rfl hr
  refine ⟨hs, fun js s' hr' hopen hc hlen => ?_⟩
  have hrank : (if s.state.stateQ = .exec then 1 else 0) ≤ js.length := by
    split <;> omega
  refine (blocking.prompt hinv hopen hr' hc hrank).imp_right fun hresp j hj => ?_
  rw [blocking.offers _ j hresp hj]
  rfl

/-- The product of two large unsigned numbers; its response is stalled for a cycle. -/
theorem serves_mulhu :
    let s := (circuit.withLedger ports).exec { state := {} }
      [{ reqValid := true, op := .mulhu, lhs := 0xffffffff#32, rhs := 0xfffffffe#32 }, {}, {},
        { rspReady := true }]
    s.ledger.settled = [(⟨.mulhu, 0xffffffff#32, 0xfffffffe#32⟩, some 0xfffffffd#32)] ∧
      s.ledger.Correct MduRequest.Gives :=
  ⟨by decide,
    (mul_serves (.of_always (by simp [Circuit.Always, Circuit.withLedger, circuit]))).1.correct⟩

end MulUnit

/-! ### `div_unit` -/

namespace DivUnit

/-- What is seen at `div_unit`. -/
def ports (q : DivUnit) (i : MduIn) : Ports MduRequest Word :=
  i.ports (q.reqReady i) (q.rspValid i) q.result

/-- `div_unit` with any inputs; the requests are divisions. -/
def circuit : Circuit DivUnit MduIn where
  legal _ i := i.reqValid = true →
    i.op = .div ∨ i.op = .divu ∨ i.op = .rem ∨ i.op = .remu
  next := next

/-- The unit works on `r`. -/
def WorksOn (q : DivUnit) (r : MduRequest) : Prop :=
  (r.op = .div ∨ r.op = .divu ∨ r.op = .rem ∨ r.op = .remu) ∧ q.Works r.op r.lhs r.rhs

/-- A clock edge without reset and kill. -/
theorem next_eq {q : DivUnit} {i : MduIn} (hrst : i.rst = false) (hkill : i.kill = false) :
    q.next i =
      if q.stateQ = .idle then if i.reqValid then q.accept i else q
      else if q.stateQ = .run then q.iterate
      else if i.rspReady then { q with stateQ := .idle } else q := by
  cases hs : q.stateQ <;> simp [next, reqReady, hrst, hkill, hs]

private theorem stateQ_accept (q : DivUnit) (i : MduIn) : (q.accept i).stateQ ≠ .idle := by
  unfold accept
  dsimp only
  split_ifs <;> simp

/-- The iterations that are left. -/
def rank (q : DivUnit) : ℕ := if q.stateQ = .run then 1 + (31 - q.iterQ.toNat) else 0

/-- An iteration is the last one or leaves fewer. -/
private theorem rank_iterate {q : DivUnit} (hs : q.stateQ = .run) (hi : q.iterQ.toNat < 32) :
    q.iterate.stateQ ≠ .idle ∧ (q.iterate.stateQ = .resp ∨ q.iterate.rank < q.rank) := by
  unfold iterate
  by_cases h : q.iterQ = 31#6
  · rw [if_pos (by simpa using h)]
    simp
  · have hne : q.iterQ.toNat ≠ 31 := fun h31 => h (BitVec.eq_of_toNat_eq (h31.trans rfl))
    have hadd : (q.iterQ + 1#6).toNat = q.iterQ.toNat + 1 := by
      rw [BitVec.toNat_add, BitVec.toNat_ofNat]
      omega
    rw [if_neg (by simpa using h)]
    simp only [rank, hs, if_true, hadd]
    exact ⟨by simp, .inr (by omega)⟩

/-- The divider is a blocking unit that works for at most 32 cycles. -/
theorem blocking : Blocking circuit ports MduRequest.Gives (fun q => q.stateQ = .idle)
    (fun q => q.stateQ = .resp) WorksOn result rank where
  disjoint q hi hr := by simp [hi] at hr
  accept q i r h := by
    obtain ⟨-, hidle, hrst, hkill, -⟩ := MduIn.ports_accept h
    exact ⟨by simpa using hidle, MduIn.ports_cancel.mpr ⟨hrst, hkill⟩⟩
  offer q i v h := by
    obtain ⟨hresp, rfl⟩ := MduIn.ports_offer h
    exact ⟨by simpa using hresp, rfl⟩
  offers q i hr hc := MduIn.ports_offers (by simpa using hr) hc
  correct q r hr hw := by
    obtain ⟨hop, hw⟩ := hw
    rw [result, hw.resp hr]
    refine r.gives_result fun hnone => ?_
    simp [hnone] at hop
  rank_pos q hi hr := by
    have hs : q.stateQ = .run := by cases hs : q.stateQ <;> simp_all
    rw [rank, if_pos hs]
    omega
  cancels q i hc := by
    refine stateQ_next ?_
    simp only [ports, MduIn.ports, Bool.or_eq_true] at hc
    exact hc.imp_right .inl
  waits q i hi hc ha := by
    have hreq : i.reqValid = false := MduIn.ports_waits (by simpa using hi) hc ha
    exact stateQ_next (.inr (.inr (.inl ⟨hi, hreq⟩)))
  starts q i r hl ha := by
    obtain ⟨hreq, hidle, hrst, hkill, rfl⟩ := MduIn.ports_accept ha
    have hi : q.stateQ = .idle := by simpa using hidle
    refine ⟨?_, hl hreq, Works.accept hi hrst hkill (hl hreq)⟩
    change (q.next i).stateQ ≠ .idle
    rw [next_eq hrst hkill, if_pos hi, if_pos hreq]
    exact stateQ_accept q i
  works q i r hi hr hc hw := by
    obtain ⟨hrst, hkill⟩ := MduIn.ports_cancel.mp hc
    obtain ⟨hop, hw⟩ := hw
    have hs : q.stateQ = .run := by cases hs : q.stateQ <;> simp_all
    have hnext : q.next i = q.iterate := by
      rw [next_eq hrst hkill, if_neg hi, if_pos hs]
    -- the iteration counter is the number of bits done
    obtain ⟨-, -, -, -, qr, hwr, hloop⟩ := hw.run hs
    obtain ⟨hidle, hrank⟩ := rank_iterate hs (hloop.iter ▸ hwr)
    have hw' := hw.next hi hrst hkill hop
    change (q.next i).stateQ ≠ .idle ∧ WorksOn (q.next i) r ∧
      ((q.next i).stateQ = .resp ∨ (q.next i).rank < q.rank)
    rw [hnext] at hw' ⊢
    exact ⟨hidle, ⟨hop, hw'⟩, hrank⟩
  takes q i hr hc hready := stateQ_next (.inr (.inr (.inr ⟨hr, hready⟩)))
  holds q i hr hc hready := by
    obtain ⟨hrst, hkill⟩ := MduIn.ports_cancel.mp hc
    have hready : i.rspReady = false := hready
    change q.next i = q
    rw [next_eq hrst hkill, hr, hready]
    rfl

/-- The magnitude of a dividend or divisor. -/
def absolute (signed : Bool) (x : Word) : ℕ := if signed then x.toInt.natAbs else x.toNat

/-- The magnitude is the absolute value. -/
private theorem magnitude_toNat (signed : Bool) (x : Word) :
    (magnitude signed x).toNat = absolute signed x := by
  have hx := x.isLt
  cases signed with
  | false => rfl
  | true =>
    cases hm : x.msb with
    | false =>
      rw [magnitude, hm, absolute, BitVec.toInt_eq_toNat_of_msb hm]
      rfl
    | true =>
      have hmsb := BitVec.msb_eq_true_iff_two_mul_ge.mp hm
      rw [magnitude, hm, absolute, BitVec.toInt_eq_msb_cond, hm, ← BitVec.neg_eq_not_add]
      simp only [Bool.and_self, if_true, BitVec.toNat_neg]
      omega

/-- The partial results of a division: after `i` iterations the top `i` bits of the dividend are
the `i` quotient bits times the divisor plus the remainder. -/
structure Intermediate (q : DivUnit) (r : MduRequest) : Prop where
  iter : q.iterQ.toNat < 32
  divisor : q.divisorQ.toNat = absolute (inputSigned r.op) r.rhs
  quotient : absolute (inputSigned r.op) r.lhs / 2 ^ (32 - q.iterQ.toNat) =
    q.quotientQ.toNat % 2 ^ q.iterQ.toNat * q.divisorQ.toNat + q.remainderQ.toNat
  remainder : q.remainderQ.toNat < q.divisorQ.toNat

/-- The low bits of the quotient register are the quotient so far. -/
private theorem Loop.quotient_mod {q : DivUnit} {n d : Word} {qr : BitVec.DivModState 32}
    (h : Loop q n d qr) : q.quotientQ.toNat % 2 ^ qr.wr = qr.q.toNat := by
  apply Nat.eq_of_testBit_eq
  intro k
  rw [Nat.testBit_mod_two_pow]
  by_cases hk : k < qr.wr
  · have hlen := h.lawful.hwrn
    have hbit := h.quotient k (by omega)
    rw [if_pos hk] at hbit
    simpa [hk, BitVec.getLsbD] using hbit
  · have hz : qr.q.toNat.testBit k = false :=
      Nat.testBit_lt_two_pow (Nat.lt_of_lt_of_le h.lawful.hqWidth
        (Nat.pow_le_pow_right (by decide) (by omega)))
    simp [hk, hz]

/-- A divider at work has the partial results of its operation. -/
theorem WorksOn.intermediate {q : DivUnit} {r : MduRequest} (h : q.WorksOn r)
    (hs : q.stateQ = .run) :
    q.Intermediate r := by
  obtain ⟨-, -, -, -, qr, hwr, hloop⟩ := h.2.run hs
  have hlen := hloop.lawful.hwrn
  have hdiv := hloop.lawful.hdiv
  have hlt := hloop.lawful.hrLtDivisor
  refine ⟨hloop.iter ▸ hwr, ?_, ?_, ?_⟩
  · rw [hloop.divisor, magnitude_toNat]
  · rw [hloop.iter, hloop.quotient_mod, hloop.divisor, hloop.remainder, ← magnitude_toNat,
      Nat.mul_comm, ← hdiv, Nat.shiftRight_eq_div_pow]
    congr 2
    omega
  · rw [hloop.remainder, hloop.divisor]
    exact BitVec.lt_def.mp hlt

/-- The divider serves: the response to an operation that is neither killed nor reset before its
response is taken is the quotient or remainder, it stays until it is taken, and it is there 32
cycles after the operation was accepted. While the divider iterates it has the partial results of
the operation. -/
theorem div_serves {is : List MduIn} {s : Ledgered DivUnit MduRequest Word}
    (hr : (circuit.withLedger ports).Run { state := {} } is s) :
    Serves circuit ports (fun _ => MduRequest.Gives) {} is s ∧
      (∀ js s', (circuit.withLedger ports).Run s js s' → s.ledger.current.isSome →
        (circuit.withLedger ports).Always (fun s j => (ports s.state j).cancel = false) s js →
        32 ≤ js.length → s.ledger.settled.length < s'.ledger.settled.length ∨
          ∀ j, (ports s'.state j).cancel = false → (ports s'.state j).offer.isSome) ∧
      (s.state.stateQ = .run → ∃ r, s.ledger.current = some r ∧ s.state.Intermediate r) := by
  obtain ⟨hinv, hs⟩ := blocking.serves rfl hr
  refine ⟨hs, fun js s' hr' hopen hc hlen => ?_, fun hrun => ?_⟩
  · have hrank : s.state.rank ≤ js.length := by
      unfold rank
      split <;> omega
    refine (blocking.prompt hinv hopen hr' hc hrank).imp_right fun hresp j hj => ?_
    rw [blocking.offers _ j hresp hj]
    rfl
  · obtain ⟨hidle, -⟩ | ⟨-, r, hcur, hw⟩ := hinv
    · simp [hrun] at hidle
    · exact ⟨r, hcur, hw.intermediate hrun⟩

/-- A division that is killed, and one whose result needs no loop. -/
theorem serves_div_kill :
    let s := (circuit.withLedger ports).exec { state := {} }
      [{ reqValid := true, op := .divu, lhs := 7#32, rhs := 2#32 }, { kill := true },
        { reqValid := true, op := .rem, lhs := 0x80000000#32, rhs := 0xffffffff#32 },
        { rspReady := true }]
    s.ledger.settled = [(⟨.divu, 7#32, 2#32⟩, none),
        (⟨.rem, 0x80000000#32, 0xffffffff#32⟩, some 0#32)] ∧
      s.ledger.Correct MduRequest.Gives :=
  ⟨by decide,
    (div_serves (.of_always (by simp [Circuit.Always, Circuit.withLedger, circuit]))).1.correct⟩

end DivUnit

end Rv32im

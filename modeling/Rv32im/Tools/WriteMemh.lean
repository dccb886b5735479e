import Rv32im.Memory.Memh
import Rv32im.Soc.ByteArray
import Rv32im.Tools.LoadElf

/-!
# The memory file

What `write_memh` writes for the results of `load_elf` is read back by `$readmemh` as the same
image, from which both ports of `rv32_tcm` read the program.

* `wordAt`: a word of the image;
* `read_writeMemh`: the stores of the file;
* `Covers`: the words that a file has to store;
* `Preserved`, `memh_preserved`: the image in the array and on the ports.
-/

namespace Rv32im

namespace ElfToMemh

open Memory

/-- The bytes of a list, and zeros behind them. -/
def bytes (M : List (BitVec 8)) : Bytes := fun a => M[a]?.getD 0#8

/-- The little-endian word of the bytes `4 * i` to `4 * i + 3`. -/
def wordAt (M : List (BitVec 8)) (i : ℕ) : Word := (bytes M).load (4 * i) 4

/-- The port answers with the byte `b` in lane `k`. -/
structure Answers (rsp : MemRspQ) (k : ℕ) (b : BitVec 8) : Prop where
  valid : rsp.valid = true
  err : rsp.rsp.err = false
  lane : Word.lane rsp.rsp.rdata k = b

/-- The stores carry over the memory `M` of `load_elf`, of which it touched the words `W`. -/
structure Preserved (base size : ℕ) (M : List (BitVec 8)) (W : Finset ℕ) (ss : List (ℕ × ℕ)) :
    Prop where
  array : ∀ i < size / 4, (Memh.fill (size / 4) 32 ss)[i]? = some (wordAt M i)
  increasing : (ss.map Prod.fst).Pairwise (· < ·)
  touched : ∀ s ∈ ss, s.1 ∈ W ∧ s.1 < size / 4
  nonzero : ∀ k b, M[k]? = some b → b ≠ 0#8 → k / 4 ∈ W
  dmem : ∀ (p : TcmParams) (s : Tcm p), p.baseAddr.toNat = base → size ≤ p.bytes →
    s.mem = Memh.fill p.wordCount 32 ss → ∀ k b, M[k]? = some b → ∀ i : Tcm.In,
    i.dmem.reqValid = true → i.dmem.req.addr.toNat = base + 4 * (k / 4) →
    Answers (s.next i).dmemRsp (k % 4) b
  imem : ∀ (p : TcmParams) (s : Tcm p), p.baseAddr.toNat = base → size ≤ p.bytes →
    s.mem = Memh.fill p.wordCount 32 ss → ∀ k b, M[k]? = some b → ∀ i : Tcm.In,
    i.imem.reqValid = true → i.imem.req.addr.toNat = base + 4 * (k / 4) →
    i.imem.req.write = false → i.imem.req.wstrb = 0#4 →
    Answers (s.next i).imemRsp (k % 4) b

/-! ### The text -/

/-- The later bytes are the higher ones. -/
theorem fromBytes_append (xs ys : List (BitVec 8)) :
    fromBytes (xs ++ ys) = fromBytes xs + 2 ^ (8 * xs.length) * fromBytes ys := by
  induction xs with
  | nil => simp [fromBytes]
  | cons b xs ih =>
    have hcons (zs : List (BitVec 8)) : fromBytes (b :: zs) = b.toNat + 256 * fromBytes zs := rfl
    have hpow : 2 ^ (8 * (xs.length + 1)) = 256 * 2 ^ (8 * xs.length) := by
      rw [Nat.mul_add, Nat.pow_add, Nat.mul_comm]
    rw [List.cons_append, hcons, hcons, ih, List.length_cons, hpow, Nat.mul_add, Nat.add_assoc,
      Nat.mul_assoc]

/-- `int.from_bytes` of a slice is a load; bytes that are missing count as zero. -/
theorem fromBytes_slice (M : List (BitVec 8)) (a n : ℕ) :
    fromBytes (slice M a (a + n)) = ((bytes M).load a n).toNat := by
  induction n with
  | zero => simp [slice, fromBytes, Bytes.load]
  | succ n ih =>
    rw [Bytes.toNat_load_succ, ← ih]
    by_cases hlen : a + n < M.length
    · have hget : M[a + n]? = some M[a + n] := List.getElem?_eq_getElem hlen
      have hslice : slice M a (a + (n + 1)) = slice M a (a + n) ++ [M[a + n]] := by
        rw [slice, slice, ← Nat.add_assoc, List.take_add_one, hget, Option.toList_some,
          List.drop_append_of_le_length (by rw [List.length_take]; omega)]
      have hbyte : bytes M (a + n) = M[a + n] := by rw [bytes, hget, Option.getD_some]
      have hn : (slice M a (a + n)).length = n := by rw [length_slice]; omega
      rw [hslice, fromBytes_append, hn, hbyte]
      simp [fromBytes]
    · have hslice : slice M a (a + (n + 1)) = slice M a (a + n) := by
        rw [slice, slice, List.take_of_length_le (by omega), List.take_of_length_le (by omega)]
      have hbyte : bytes M (a + n) = 0#8 := by
        rw [bytes, List.getElem?_eq_none (by omega), Option.getD_none]
      rw [hslice, hbyte]
      simp

/-- The word that `write_memh` writes. -/
theorem ofNat_fromBytes (M : List (BitVec 8)) (i : ℕ) :
    BitVec.ofNat 32 (fromBytes (slice M (i * 4) (i * 4 + 4))) = wordAt M i := by
  have hcomm : i * 4 = 4 * i := Nat.mul_comm ..
  rw [hcomm, fromBytes_slice, BitVec.ofNat_toNat]
  exact BitVec.setWidth_eq _

/-- The index and the value of the word `w`. -/
def storeAt (M : List (BitVec 8)) (w : ℕ) : ℕ × ℕ :=
  (w, fromBytes (slice M (w * 4) (w * 4 + 4)))

@[simp] theorem map_fst_storeAt (M : List (BitVec 8)) (ws : List ℕ) :
    (ws.map (storeAt M)).map Prod.fst = ws := by
  rw [List.map_map]
  exact List.map_id _

/-- The line of a word. -/
theorem readFrom_line (M : List (BitVec 8)) (w : ℕ) (cs : List Char) :
    Memh.readFrom w (hex08 (storeAt M w).2 ++ '\n' :: cs) =
      (Memh.readFrom (w + 1) cs).map (storeAt M w :: ·) := by
  have hword := Memh.hexNumber_leftpad 8 (Nat.toDigits_ne_nil (n := (storeAt M w).2) (b := 16))
  rw [Memh.hexNumber_toDigits] at hword
  rw [hex08, hex, Memh.readFrom_word _ _ hword]
  rfl

/-- The index of the reader is that of the next line without an address. -/
theorem readFrom_memhLines (M : List (BitVec 8)) (ws : List ℕ) {previous : ℤ} {i : ℕ}
    (h : ∀ w : ℕ, (w : ℤ) = previous + 1 → i = w) :
    Memh.readFrom i (memhLines M previous ws) = some (ws.map (storeAt M)) := by
  induction ws generalizing previous i with
  | nil => rfl
  | cons w ws ih =>
    have hline : Memh.readFrom w (hex08 (storeAt M w).2 ++ '\n' :: memhLines M w ws) =
        some ((w :: ws).map (storeAt M)) := by
      rw [readFrom_line, ih (by omega)]
      rfl
    by_cases hnext : (w : ℤ) = previous + 1
    · have hlines : memhLines M previous (w :: ws) =
          hex08 (storeAt M w).2 ++ '\n' :: memhLines M w ws := by
        simp [memhLines, hnext, storeAt]
      rw [hlines, h w hnext]
      exact hline
    · have hlines : memhLines M previous (w :: ws) =
          '@' :: hex w ++ '\n' :: (hex08 (storeAt M w).2 ++ '\n' :: memhLines M w ws) := by
        simp [memhLines, hnext, storeAt]
      rw [hlines, hex, Memh.readFrom_address _ _ (Memh.hexNumber_toDigits w)]
      exact hline

/-- The file stores each touched word once, in their order. -/
theorem read_writeMemh (M : List (BitVec 8)) (W : Finset ℕ) :
    Memh.read (writeMemh M W) = some ((W.sort (· ≤ ·)).map (storeAt M)) := by
  obtain ⟨w, hcomment, hw⟩ : ∃ w, memhComment = '/' :: '/' :: w ++ ['\n'] ∧ '\n' ∉ w :=
    ⟨" ELF32 little-endian PT_LOAD image; addresses are word indices".toList,
      by decide +kernel, by decide +kernel⟩
  rw [Memh.read, writeMemh, hcomment, List.append_assoc, List.singleton_append,
    Memh.readFrom_comment _ _ hw]
  exact readFrom_memhLines M _ (by omega)

/-! ### The array -/

/-- All words of the image apart from those of `W` are zero. -/
structure Covers (size : ℕ) (M : List (BitVec 8)) (W : Finset ℕ) : Prop where
  length : M.length = size
  lt : ∀ w ∈ W, w < size / 4
  nonzero : ∀ k b, M[k]? = some b → b ≠ 0#8 → k / 4 ∈ W

variable {raw : List (BitVec 8)} {base size : ℕ} {M : List (BitVec 8)} {W : Finset ℕ}

theorem length_of_ok (h : loadElf raw base size = .ok (M, W)) : M.length = size := by
  obtain ⟨hacc, rfl, -⟩ := loadElf_ok_iff.mp h
  rw [memory_loaded hacc.segments, length_window]

/-- Touched words are in the memory. -/
theorem lt_of_mem (hsize : 4 ∣ size) (h : loadElf raw base size = .ok (M, W)) {w : ℕ}
    (hw : w ∈ W) : w < size / 4 := by
  obtain ⟨hacc, -, rfl⟩ := loadElf_ok_iff.mp h
  obtain ⟨f, hf, htouch⟩ := (mem_touchedWords_loaded hacc.segments w).mp hw
  exact lt_of_touches hsize (hacc.segments f hf) htouch

/-- A byte that is not zero is a byte of some segment. -/
theorem mem_of_ne_zero (h : loadElf raw base size = .ok (M, W)) {k : ℕ} {b : BitVec 8}
    (hk : M[k]? = some b) (hb : b ≠ 0#8) : k / 4 ∈ W := by
  obtain ⟨hacc, rfl, rfl⟩ := loadElf_ok_iff.mp h
  have hlt : k < size := by
    rw [← length_of_ok h]
    exact (List.getElem?_eq_some_iff.mp hk).1
  rw [memory_loaded hacc.segments, getElem?_window _ hlt, Option.some.injEq] at hk
  rw [mem_touchedWords_loaded hacc.segments]
  by_contra hnone
  refine hb (hk.symm.trans (overlay_of_none (List.forall_mem_map.mpr fun f hf => ?_)))
  refine if_neg fun hin => hnone ⟨f, hf, k, rfl, hin.1, ?_⟩
  have hfilesz := (hacc.segments f hf).filesz
  omega

/-- The segments cover what is not zero. -/
theorem covers_of_ok (hsize : 4 ∣ size) (h : loadElf raw base size = .ok (M, W)) :
    Covers size M W where
  length := length_of_ok h
  lt _ hw := lt_of_mem hsize h hw
  nonzero _ _ hk hb := mem_of_ne_zero h hk hb

/-- A word that is not covered is zero. -/
theorem wordAt_eq_zero (h : Covers size M W) {i : ℕ} (hi : i ∉ W) :
    wordAt M i = 0#32 := by
  refine Bytes.load_eq_zero _ _ fun k hk => ?_
  cases hget : M[4 * i + k]? with
  | none => rw [bytes, hget, Option.getD_none]
  | some b =>
    rw [bytes, hget, Option.getD_some]
    by_contra hb
    have hmem := h.nonzero _ _ hget hb
    have hdiv : (4 * i + k) / 4 = i := by omega
    rw [hdiv] at hmem
    exact hi hmem

/-- The array after the stores, of any length. -/
theorem getElem?_fill_stores (h : Covers size M W) {n i : ℕ} (hi : i < n) :
    (Memh.fill n 32 ((W.sort (· ≤ ·)).map (storeAt M)))[i]? = some (wordAt M i) := by
  have hfst : ((W.sort (· ≤ ·)).map (storeAt M)).map Prod.fst = W.sort (· ≤ ·) :=
    map_fst_storeAt ..
  by_cases hmem : i ∈ W
  · have hstore : (i, (storeAt M i).2) ∈ (W.sort (· ≤ ·)).map (storeAt M) :=
      List.mem_map.mpr ⟨i, (Finset.mem_sort _).mpr hmem, rfl⟩
    rw [Memh.fill_of_mem (by rw [hfst]; exact Finset.sort_nodup ..) hstore hi, storeAt,
      ofNat_fromBytes]
  · rw [Memh.fill_of_not_mem (by rw [hfst, Finset.mem_sort]; exact hmem) hi,
      wordAt_eq_zero h hmem]
    rfl

/-- The lanes of a word of the image are its bytes. -/
theorem lane_wordAt {k : ℕ} {b : BitVec 8} (hk : M[k]? = some b) :
    Word.lane (wordAt M (k / 4)) (k % 4) = b := by
  have hbyte : bytes M (4 * (k / 4) + k % 4) = b := by
    rw [Nat.div_add_mod, bytes, hk, Option.getD_some]
  rw [← hbyte]
  apply BitVec.eq_of_getLsbD_eq
  intro j hj
  have hdiv : (8 * (k % 4) + j) / 8 = k % 4 := by omega
  have hmod : (8 * (k % 4) + j) % 8 = j := by omega
  have hlt : 8 * (k % 4) + j < 8 * 4 := by omega
  rw [getLsbD_lane, wordAt, Bytes.getLsbD_load, hdiv, hmod]
  simp [hj, hlt]

/-- The word of the memory that holds a byte of the image. -/
theorem read_word (hbase : 4 ∣ base) (h : Covers size M W) {p : TcmParams} {s : Tcm p}
    (hp : p.baseAddr.toNat = base) (hbytes : size ≤ p.bytes)
    (hs : s.mem = Memh.fill p.wordCount 32 ((W.sort (· ≤ ·)).map (storeAt M))) {k : ℕ}
    {b : BitVec 8} (hk : M[k]? = some b) {addr : Word}
    (haddr : addr.toNat = base + 4 * (k / 4)) :
    p.inRange addr = true ∧ Word.lane (s.read addr) (k % 4) = b := by
  have hlt : k < size := by
    rw [← h.length]
    exact (List.getElem?_eq_some_iff.mp hk).1
  have halign : Word.align addr = addr := by
    rw [← BitVec.toNat_inj, toNat_align, haddr]
    omega
  have hlimit : addr.toNat < p.limit := by
    rw [TcmParams.limit]
    omega
  constructor
  · rw [← halign, TcmParams.inRange_align, halign]
    exact ⟨by omega, hlimit⟩
  · have hidx : (p.wordIndex addr).toNat = k / 4 := by
      rw [TcmParams.toNat_wordIndex addr (by omega) hlimit]
      omega
    have hword : k / 4 < p.wordCount := by
      unfold TcmParams.bytes at hbytes
      omega
    rw [Tcm.read, hidx, hs, getElem?_fill_stores h hword, Option.getD_some, lane_wordAt hk]

/-- The stores of the covered words preserve the image. -/
theorem Covers.preserved (hbase : 4 ∣ base) (h : Covers size M W) :
    Preserved base size M W ((W.sort (· ≤ ·)).map (storeAt M)) := by
  have hanswer {q : Bool} {x : Word} {k : ℕ} {b : BitVec 8} (hq : q = true)
      (hx : Word.lane x k = b) : Answers (.next true q x) k b := by
    subst hq
    exact ⟨rfl, rfl, hx⟩
  exact {
    array := fun i hi => getElem?_fill_stores h hi
    increasing := by
      rw [map_fst_storeAt]
      exact (Finset.sortedLT_sort W).pairwise
    touched := by
      intro s hs
      obtain ⟨w, hw, rfl⟩ := List.mem_map.mp hs
      rw [Finset.mem_sort] at hw
      exact ⟨hw, h.lt w hw⟩
    nonzero := h.nonzero
    dmem := by
      intro p s hp hbytes hs k b hk i hvalid haddr
      obtain ⟨hrange, hlane⟩ := read_word hbase h hp hbytes hs hk haddr
      rw [Tcm.next, hvalid]
      exact hanswer hrange hlane
    imem := by
      intro p s hp hbytes hs k b hk i hvalid haddr hwrite hstrb
      obtain ⟨hrange, hlane⟩ := read_word hbase h hp hbytes hs hk haddr
      have hok : Tcm.imemReadOk p i.imem.req = true := by
        simp [Tcm.imemReadOk, hrange, hwrite, hstrb]
      rw [Tcm.next, hvalid]
      exact hanswer hok hlane }

/-- The file that is written for an accepted executable preserves its image. -/
theorem memh_preserved (hbase : 4 ∣ base) (hsize : 4 ∣ size)
    (h : loadElf raw base size = .ok (M, W)) :
    ∃ ss, Memh.read (writeMemh M W) = some ss ∧ Preserved base size M W ss :=
  ⟨_, read_writeMemh M W, (covers_of_ok hsize h).preserved hbase⟩

/-- Two segments with an untouched word in between. -/
def gapped : List (BitVec 8) := executable [(116, 0, 1, 3), (117, 8, 2, 7)] [0x2a#8, 0x13#8, 0x37#8]

/-- The file leaves the word out. -/
theorem memh_preserved_gapped :
    let M := [0x2a#8, 0#8, 0#8, 0#8, 0#8, 0#8, 0#8, 0#8, 0x13#8, 0x37#8] ++ List.replicate 6 0#8
    loadElf gapped 0 16 = .ok (M, {0, 2, 3}) ∧
      ∃ ss, Memh.read (writeMemh M {0, 2, 3}) = some ss ∧ Preserved 0 16 M {0, 2, 3} ss := by
  intro M
  have hok : loadElf gapped 0 16 = .ok (M, {0, 2, 3}) := by decide +kernel
  exact ⟨hok, memh_preserved (by decide) (by decide) hok⟩

end ElfToMemh

end Rv32im

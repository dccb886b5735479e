import Rv32im.Memory.Bytes
import Rv32im.Ports.Lsu
import Rv32im.Rtl.Tcm

/-!
# Loads and stores on a byte array

What the load/store path is for: a little-endian byte array on `[BASE_ADDR, BASE_ADDR + BYTES)`,
with misaligned accesses and accesses outside reported as exceptions. The lane formatting of `lsu`
and the word array of `rv32_tcm` agree with it on each single access.

* `MemOp`, `MemOp.result`, `MemOp.effect`: an access and what it does to the byte array;
* `TcmParams.bytesOf`: the bytes of the word array;
* `MemOp.effect_write`, `MemOp.result_read`: the data port of the memory between the two lane
  formatters is that access.
-/

namespace Rv32im

open Memory

/-- A load or store of the pipeline. -/
structure MemOp where
  isStore : Bool
  size : MemSize
  loadUnsigned : Bool
  addr : Word
  data : Word
deriving DecidableEq, Repr

namespace MemOp

variable (o : MemOp)

/-- The address is not a multiple of the size. -/
def Misaligned : Prop := o.addr.toNat % o.size.bytes ≠ 0

/-- The address of the aligned word that holds the access. -/
def wordAddr : ℕ := 4 * (o.addr.toNat / 4)

/-- The aligned word lies in `[lo, hi)`. -/
def InRange (lo hi : ℕ) : Prop := lo ≤ o.wordAddr ∧ o.wordAddr + 4 ≤ hi

/-- Whether an access is misaligned can be computed. -/
instance : Decidable o.Misaligned := inferInstanceAs (Decidable (_ ≠ _))

/-- Whether an access is in range can be computed. -/
instance (lo hi : ℕ) : Decidable (o.InRange lo hi) := inferInstanceAs (Decidable (_ ∧ _))

/-- The bytes of a load, extended to a word. -/
def extend (v : BitVec (8 * o.size.bytes)) : Word :=
  if o.loadUnsigned then v.setWidth 32 else v.signExtend 32

/-- An exception with the effective address. -/
def fault (loadCause storeCause : TrapCause) : Exc :=
  { valid := true, cause := if o.isStore then storeCause else loadCause, tval := o.addr }

/-- The load result and the exception of an access to the bytes `m` of `[lo, hi)`. -/
def result (lo hi : ℕ) (m : Bytes) : Word × Exc :=
  if o.Misaligned then (0#32, o.fault excLoadAddrMisaligned excStoreAddrMisaligned)
  else if ¬ o.InRange lo hi then (0#32, o.fault excLoadAccessFault excStoreAccessFault)
  else if o.isStore then (0#32, {})
  else (o.extend (m.load o.addr.toNat o.size.bytes), {})

/-- The bytes after an access. -/
def effect (lo hi : ℕ) (m : Bytes) : Bytes :=
  if o.isStore ∧ ¬ o.Misaligned ∧ o.InRange lo hi then m.store o.addr.toNat o.size.bytes o.data
  else m

end MemOp

namespace MemOp

variable (lo hi : ℕ)

/-- The results of a sequence of accesses. -/
def results : Bytes → List MemOp → List (Word × Exc)
  | _, [] => []
  | m, o :: os => o.result lo hi m :: results (o.effect lo hi m) os

/-- The bytes after a sequence of accesses. -/
def after (m : Bytes) (os : List MemOp) : Bytes := os.foldl (fun m o => o.effect lo hi m) m

/-- The memory after one more operation. -/
theorem after_append (m : Bytes) (os : List MemOp) (o : MemOp) :
    after lo hi m (os ++ [o]) = o.effect lo hi (after lo hi m os) := by
  simp [after]

theorem results_append (m : Bytes) (os : List MemOp) (o : MemOp) :
    results lo hi m (os ++ [o]) = results lo hi m os ++ [o.result lo hi (after lo hi m os)] := by
  induction os generalizing m with
  | nil => rfl
  | cons o' os ih => simp [results, ih, after]

/-- Each operation has a result. -/
theorem length_results (m : Bytes) (os : List MemOp) : (results lo hi m os).length = os.length := by
  induction os generalizing m with
  | nil => rfl
  | cons o os ih => simp [results, ih]

end MemOp

/-! ### Address arithmetic -/

/-- The address of the word. -/
theorem toNat_align (x : Word) : (Word.align x).toNat = 4 * (x.toNat / 4) := by
  have hx := x.isLt
  simp only [Word.align, BitVec.toNat_append, BitVec.extractLsb_toNat, BitVec.toNat_ofNat,
    Nat.shiftRight_eq_div_pow, Nat.shiftLeft_eq]
  simp
  omega

theorem toNat_low (x : Word) : (x.extractLsb 1 0).toNat = x.toNat % 4 := by
  simp [BitVec.extractLsb_toNat]

theorem toNat_mid (x : Word) : (x.extractLsb 1 1).toNat = x.toNat / 2 % 2 := by
  simp [BitVec.extractLsb_toNat, Nat.shiftRight_eq_div_pow]

/-- The misalignment test of `lsu`. -/
theorem addressMisaligned_iff (size : MemSize) (addr : Word) :
    Lsu.addressMisaligned size addr = true ↔ addr.toNat % size.bytes ≠ 0 := by
  cases size with
  | byte => simp [Lsu.addressMisaligned, MemSize.bytes, Nat.mod_one]
  | half => simp [Lsu.addressMisaligned, MemSize.bytes, BitVec.getLsbD, Nat.testBit_zero]
  | word =>
    have h := toNat_low addr
    simp only [Lsu.addressMisaligned, MemSize.bytes, bne_iff_ne, ne_eq, ← BitVec.toNat_inj, h]
    simp

namespace TcmParams

variable {p : TcmParams}

/-- The base is aligned and the memory ends within the address space. -/
structure Placed (p : TcmParams) : Prop where
  aligned : p.baseAddr.toNat % 4 = 0
  fits : p.baseAddr.toNat + p.bytes ≤ 2 ^ 32

/-- The first address behind the memory. -/
def limit (p : TcmParams) : ℕ := p.baseAddr.toNat + p.bytes

/-- The subtraction has a borrow bit. -/
theorem toNat_byteOffset (addr : Word) : (p.byteOffset addr).toNat =
    if p.baseAddr.toNat ≤ addr.toNat then addr.toNat - p.baseAddr.toNat
    else 2 ^ 33 + addr.toNat - p.baseAddr.toNat := by
  have ha := addr.isLt
  have hb := p.baseAddr.isLt
  simp only [byteOffset, BitVec.toNat_sub, BitVec.toNat_setWidth]
  split <;> omega

/-- The range test accepts the aligned words of the memory. -/
theorem inRange_align (addr : Word) : p.inRange (Word.align addr) = true ↔
    p.baseAddr.toNat ≤ (Word.align addr).toNat ∧ (Word.align addr).toNat < p.limit := by
  have ha := (Word.align addr).isLt
  have hb := p.baseAddr.isLt
  have hn := p.wordCount_lt
  have halign : (Word.align addr).extractLsb 1 0 = 0#2 := Word.aligned_align addr
  rw [inRange, halign, beq_self_eq_true, Bool.and_true, decide_eq_true_iff, BitVec.lt_def,
    toNat_byteOffset, BitVec.toNat_ofNat, limit, bytes]
  split <;> omega

/-- An index has bits for every word. -/
theorem wordCount_le_indexWidth (p : TcmParams) : p.wordCount ≤ 2 ^ p.indexWidth := by
  unfold indexWidth
  split
  · exact Nat.le_pow_clog (by omega) _
  · omega

/-- The index of an address in memory. -/
theorem toNat_wordIndex (addr : Word) (hlo : p.baseAddr.toNat ≤ addr.toNat)
    (hhi : addr.toNat < p.limit) :
    (p.wordIndex addr).toNat = (addr.toNat - p.baseAddr.toNat) / 4 := by
  have hw := p.wordCount_le_indexWidth
  unfold limit bytes at hhi
  rw [wordIndex, BitVec.extractLsb'_toNat, toNat_byteOffset, if_pos hlo,
    Nat.shiftRight_eq_div_pow]
  exact Nat.mod_eq_of_lt (by omega)

/-- The bytes of the word array. -/
def bytesOf (p : TcmParams) (mem : Vector Word p.wordCount) : Bytes := fun x =>
  if p.baseAddr.toNat ≤ x then
    Word.lane (mem[(x - p.baseAddr.toNat) / 4]?.getD 0#32) ((x - p.baseAddr.toNat) % 4)
  else 0#8

end TcmParams

/-! ### Lanes -/

theorem getLsbD_lane (w : Word) (k j : ℕ) :
    (Word.lane w k).getLsbD j = (decide (j < 8) && w.getLsbD (8 * k + j)) := by
  simp [Word.lane]

/-- The byte shift of `extract_load_data` and of the store data. -/
theorem toNat_low_append (x : Word) : (x.extractLsb 1 0 ++ 0#3).toNat = 8 * (x.toNat % 4) := by
  rw [BitVec.toNat_append, toNat_low, Nat.shiftLeft_eq]
  simp
  omega

/-- Shifting by whole bytes moves the lanes. -/
theorem lane_shiftLeft (w : Word) {m k : ℕ} (hm : m ≤ k) (hk : k < 4) :
    Word.lane (w <<< (8 * m)) k = Word.lane w (k - m) := by
  apply BitVec.eq_of_getLsbD_eq
  intro j hj
  rw [getLsbD_lane, getLsbD_lane, BitVec.getLsbD_shiftLeft]
  have hlt : 8 * k + j < 32 := by omega
  have hge : ¬ 8 * k + j < 8 * m := by omega
  have hsub : 8 * k + j - 8 * m = 8 * (k - m) + j := by omega
  simp [hlt, hge, hsub]

variable {size : MemSize} {addr : Word}

/-- An aligned access stays within its word. -/
theorem low_add_le (h : addr.toNat % size.bytes = 0) : addr.toNat % 4 + size.bytes ≤ 4 := by
  cases size <;> simp only [MemSize.bytes] at h ⊢ <;> omega

/-- The strobes of an aligned store select its bytes. -/
theorem getLsbD_inputStoreWstrb (h : addr.toNat % size.bytes = 0) {k : ℕ} (hk : k < 4) :
    (Lsu.inputStoreWstrb size addr).getLsbD k =
      decide (addr.toNat % 4 ≤ k ∧ k < addr.toNat % 4 + size.bytes) := by
  have hm : addr.toNat % 4 < 4 := by omega
  cases size with
  | byte =>
    rw [Lsu.inputStoreWstrb, BitVec.shiftLeft_eq', toNat_low]
    -- four offsets, four lanes
    have hbyte : ∀ m < 4, ∀ k < 4, (0b0001#4 <<< m).getLsbD k = decide (m ≤ k ∧ k < m + 1) := by
      decide
    exact hbyte _ hm _ hk
  | half =>
    have hshift : (addr.extractLsb 1 1 ++ 0#1).toNat = addr.toNat % 4 := by
      rw [BitVec.toNat_append, toNat_mid, Nat.shiftLeft_eq]
      simp only [MemSize.bytes] at h
      simp
      omega
    rw [Lsu.inputStoreWstrb, BitVec.shiftLeft_eq', hshift]
    have hhalf : ∀ m < 4, ∀ k < 4, (0b0011#4 <<< m).getLsbD k = decide (m ≤ k ∧ k < m + 2) := by
      decide
    exact hhalf _ hm _ hk
  | word =>
    simp only [MemSize.bytes] at h ⊢
    rw [h]
    have hword : ∀ k < 4, (0b1111#4).getLsbD k = decide (0 ≤ k ∧ k < 0 + 4) := by decide
    exact hword _ hk

/-- The lanes of an aligned store hold its bytes. -/
theorem lane_inputStoreWdata (h : addr.toNat % size.bytes = 0) (data : Word) {k : ℕ}
    (hlo : addr.toNat % 4 ≤ k) (hhi : k < addr.toNat % 4 + size.bytes) :
    Word.lane (Lsu.inputStoreWdata size addr data) k = Word.lane data (k - addr.toNat % 4) := by
  have hk : k < 4 := by have := low_add_le h; omega
  cases size with
  | byte =>
    simp only [MemSize.bytes] at hhi
    -- only the addressed lane is stored
    have hzero : k - addr.toNat % 4 = 0 := by omega
    rw [Lsu.inputStoreWdata, BitVec.shiftLeft_eq', toNat_low_append, lane_shiftLeft _ hlo hk, hzero]
    apply BitVec.eq_of_getLsbD_eq
    intro j hj
    rw [getLsbD_lane, getLsbD_lane, BitVec.getLsbD_append]
    simp [hj]
  | half =>
    simp only [MemSize.bytes] at h hhi
    have hshift : (addr.extractLsb 1 1 ++ 0#4).toNat = 8 * (addr.toNat % 4) := by
      rw [BitVec.toNat_append, toNat_mid, Nat.shiftLeft_eq]
      simp
      omega
    rw [Lsu.inputStoreWdata, BitVec.shiftLeft_eq', hshift, lane_shiftLeft _ hlo hk]
    apply BitVec.eq_of_getLsbD_eq
    intro j hj
    have hlt : 8 * (k - addr.toNat % 4) + j < 16 := by omega
    rw [getLsbD_lane, getLsbD_lane, BitVec.getLsbD_append]
    simp [hj, hlt]
  | word =>
    simp only [MemSize.bytes] at h
    rw [Lsu.inputStoreWdata, h, Nat.sub_zero]

/-- `extract_load_data` takes the low bytes of the shifted word. -/
theorem extractLoadData_eq (o : MemOp) (readData : Word) :
    Lsu.extractLoadData readData o.addr o.size o.loadUnsigned =
      o.extend ((readData >>> (o.addr.extractLsb 1 0 ++ 0#3)).setWidth _) := by
  obtain ⟨st, size, u, addr, data⟩ := o
  have hbyte (w : Word) : w.extractLsb 7 0 = w.setWidth 8 := by
    ext
    simp
  have hhalf (w : Word) : w.extractLsb 15 0 = w.setWidth 16 := by
    ext
    simp
  cases size <;> cases u <;>
    simp [Lsu.extractLoadData, MemOp.extend, MemSize.bytes, hbyte, hhalf]

/-! ### The word array as bytes -/

section Access

variable {p : TcmParams} {mem : Vector Word p.wordCount} {o : MemOp} {r : MemReq}

/-- The bytes of the word that holds an access. -/
theorem bytesOf_word (hp : p.Placed) (hr : o.InRange p.baseAddr.toNat p.limit) {k : ℕ}
    (hk : k < 4) : p.bytesOf mem (o.wordAddr + k) =
      Word.lane (mem[(p.wordIndex (Word.align o.addr)).toNat]?.getD 0#32) k := by
  obtain ⟨hlo, hhi⟩ := hr
  have haligned := hp.aligned
  have hwa : (Word.align o.addr).toNat = o.wordAddr := toNat_align o.addr
  have hidx := TcmParams.toNat_wordIndex (p := p) (Word.align o.addr)
    (by omega) (by omega)
  have hword : o.wordAddr % 4 = 0 := by unfold MemOp.wordAddr; omega
  have hdiv : (o.wordAddr + k - p.baseAddr.toNat) / 4 = (o.wordAddr - p.baseAddr.toNat) / 4 := by
    omega
  have hmod : (o.wordAddr + k - p.baseAddr.toNat) % 4 = k := by omega
  rw [TcmParams.bytesOf, if_pos (by omega), hidx, hwa, hdiv, hmod]

/-- The range test on the word address of an access. -/
theorem inRange_iff (hp : p.Placed) :
    p.inRange (Word.align o.addr) = true ↔ o.InRange p.baseAddr.toNat p.limit := by
  have haligned := hp.aligned
  have hword : o.wordAddr % 4 = 0 := by unfold MemOp.wordAddr; omega
  have hwa : (Word.align o.addr).toNat = o.wordAddr := toNat_align o.addr
  rw [TcmParams.inRange_align, MemOp.InRange, hwa, TcmParams.limit, TcmParams.bytes]
  omega

/-- A load of an aligned access reads its bytes. -/
theorem extractLoadData_read (mem : Vector Word p.wordCount) (hp : p.Placed) (ha : ¬ o.Misaligned)
    (hr : o.InRange p.baseAddr.toNat p.limit) :
    Lsu.extractLoadData (mem[(p.wordIndex (Word.align o.addr)).toNat]?.getD 0#32) o.addr o.size
      o.loadUnsigned = o.extend ((p.bytesOf mem).load o.addr.toNat o.size.bytes) := by
  rw [extractLoadData_eq]
  congr 1
  apply BitVec.eq_of_getLsbD_eq
  intro j hj
  have hlow := low_add_le (not_not.mp ha)
  have hk : o.addr.toNat % 4 + j / 8 < 4 := by omega
  -- bit `j` lies in the byte `j / 8` behind the address, which is in the same word
  have hsum : o.addr.toNat + j / 8 = o.wordAddr + (o.addr.toNat % 4 + j / 8) := by
    unfold MemOp.wordAddr
    omega
  have hbit : 8 * (o.addr.toNat % 4 + j / 8) + j % 8 = 8 * (o.addr.toNat % 4) + j := by omega
  rw [Bytes.getLsbD_load, hsum, bytesOf_word hp hr hk, getLsbD_lane, hbit, BitVec.getLsbD_setWidth,
    BitVec.ushiftRight_eq', toNat_low_append, BitVec.getLsbD_ushiftRight]
  simp [hj, Nat.mod_lt]

/-- A data request for a store changes the bytes of the store. -/
theorem effect_write (hp : p.Placed) (ha : ¬ o.Misaligned) (haddr : r.addr = Word.align o.addr)
    (hw : r.write = o.isStore)
    (hstrb : o.isStore = true → r.wstrb = Lsu.inputStoreWstrb o.size o.addr)
    (hdata : o.isStore = true → r.wdata = Lsu.inputStoreWdata o.size o.addr o.data) :
    p.bytesOf (Tcm.write mem r) = o.effect p.baseAddr.toNat p.limit (p.bytesOf mem) := by
  unfold Tcm.write MemOp.effect
  rw [haddr, hw]
  -- a load or a store outside the memory changes nothing
  by_cases hs : o.isStore = true ∧ o.InRange p.baseAddr.toNat p.limit
  · obtain ⟨hs, hr⟩ := hs
    rw [if_pos (by simp [(inRange_iff hp).mpr hr, hs]), if_pos ⟨hs, ha, hr⟩, hstrb hs, hdata hs]
    have hlow := low_add_le (not_not.mp ha)
    have haligned := hp.aligned
    have hwa : (Word.align o.addr).toNat = o.wordAddr := toNat_align o.addr
    have hsum : o.addr.toNat = o.wordAddr + o.addr.toNat % 4 := by
      unfold MemOp.wordAddr
      omega
    have hidx := TcmParams.toNat_wordIndex (p := p) (Word.align o.addr)
      (by have := hr.1; omega) (by have := hr.2; omega)
    rw [hwa] at hidx
    funext x
    -- byte by byte: a lane of the accessed word, under its strobe or not, or another byte
    by_cases hx : o.wordAddr ≤ x ∧ x < o.wordAddr + 4
    · obtain ⟨k, rfl⟩ := Nat.exists_eq_add_of_le hx.1
      have hk : k < 4 := by omega
      have hbound : (p.wordIndex (Word.align o.addr)).toNat < p.wordCount := by
        have := hr.1
        have := hr.2
        unfold TcmParams.limit TcmParams.bytes at this
        omega
      rw [bytesOf_word hp hr hk, Vector.getElem?_setIfInBounds_self_of_lt hbound, Option.getD_some,
        Word.lane_mergeBytes _ _ _ hk, getLsbD_inputStoreWstrb (not_not.mp ha) hk, Bytes.store]
      by_cases hin : o.addr.toNat % 4 ≤ k ∧ k < o.addr.toNat % 4 + o.size.bytes
      · have hsub : o.wordAddr + k - o.addr.toNat = k - o.addr.toNat % 4 := by omega
        rw [if_pos (by simpa using hin), if_pos (by omega), hsub,
          lane_inputStoreWdata (not_not.mp ha) _ hin.1 hin.2]
        rfl
      · rw [if_neg (by simpa using hin), if_neg (by omega), bytesOf_word hp hr hk]
    · -- another word of the array, or no byte of it
      have hother : ¬ (o.addr.toNat ≤ x ∧ x < o.addr.toNat + o.size.bytes) := by omega
      rw [Bytes.store, if_neg hother, TcmParams.bytesOf, TcmParams.bytesOf]
      split
      · have hword : o.wordAddr % 4 = 0 := by unfold MemOp.wordAddr; omega
        have hne : (p.wordIndex (Word.align o.addr)).toNat ≠ (x - p.baseAddr.toNat) / 4 := by
          have := hr.1
          omega
        rw [Vector.getElem?_setIfInBounds_ne hne]
      · rfl
  · rw [if_neg, if_neg]
    · exact fun h => hs ⟨h.1, h.2.2⟩
    · intro h
      rw [Bool.and_eq_true, inRange_iff hp] at h
      exact hs ⟨h.2, h.1⟩

/-- The answer of the data port gives the result of an aligned access. -/
theorem result_read (hp : p.Placed) (ha : ¬ o.Misaligned) {cmd : MemCmd}
    (hcmd : cmd = if o.isStore then .store else .load) (s : Tcm p) {rsp : MemRsp}
    (hrsp : rsp = (MemRspQ.next true (p.inRange (Word.align o.addr))
      (s.read (Word.align o.addr))).rsp) :
    (Lsu.responseData cmd o.size o.loadUnsigned o.addr rsp,
        Lsu.makeAccessException cmd o.addr rsp.err) =
      o.result p.baseAddr.toNat p.limit (p.bytesOf s.mem) := by
  replace hrsp : rsp =
    { rdata := if p.inRange (Word.align o.addr) then s.read (Word.align o.addr) else 0#32
      err := !p.inRange (Word.align o.addr) } := hrsp
  subst hrsp
  rw [MemOp.result, if_neg ha]
  -- out of range the memory answers with an error and zero data
  by_cases hr : o.InRange p.baseAddr.toNat p.limit
  · have hin := (inRange_iff hp).mpr hr
    have hload := extractLoadData_read s.mem hp ha hr
    rw [if_neg (not_not.mpr hr)]
    cases hs : o.isStore <;>
      simp_all [Lsu.responseData, Lsu.makeAccessException, Tcm.read]
  · have hin : p.inRange (Word.align o.addr) = false := by
      rw [← Bool.not_eq_true, inRange_iff hp]
      exact hr
    rw [if_pos hr]
    cases hs : o.isStore <;>
      simp_all [Lsu.responseData, Lsu.makeAccessException, MemOp.fault]

end Access

end Rv32im

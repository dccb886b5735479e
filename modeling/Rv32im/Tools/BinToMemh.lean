import Rv32im.Tools.WriteMemh

/-!
# `bin_to_memh.py`

The script that turns a flat binary into the text with which the simulation fills the memory. The
file has every word of the memory, zeros behind the binary included. As for the other script, sizes
are those that a Python `bytes` can have, below `2 ^ 63`.

* `main`: the script, from the bytes of the binary to the text or the message of its exit;
* `Accepts`: what it accepts;
* `read_dense`: the stores of the file;
* `main_preserved`: the image in the array and on the ports.
-/

namespace Rv32im

namespace BinToMemh

open Memory ElfToMemh

/-! ### The script -/

/-- `image + bytes(size - len(image))`. -/
def padded (image : List (BitVec 8)) (size : ℤ) : List (BitVec 8) :=
  image ++ List.replicate (size - image.length).toNat 0#8

/-- `range(0, size, 4)`. -/
def offsets (size : ℤ) : List ℕ := (List.range ((size + 3) / 4).toNat).map (4 * ·)

/-- The text for a padded image. -/
def dense (padded : List (BitVec 8)) (offsets : List ℕ) : List Char :=
  offsets.flatMap fun offset => hex08 (fromBytes (slice padded offset (offset + 4))) ++ ['\n']

/-- `main`, on the bytes of the input and the argument `--size`. -/
def main (image : List (BitVec 8)) (size : ℤ) : Except String (List Char) :=
  if size ≤ 0 ∨ size % 4 ≠ 0 then
    .error "--size must be a positive multiple of four bytes"
  else if (image.length : ℤ) > size then
    .error s!"binary is {image.length} bytes and exceeds TCM size {size} bytes"
  else
    .ok (dense (padded image size) (offsets size))

/-- The image fits into the memory, which consists of words. -/
structure Accepts (image : List (BitVec 8)) (size : ℤ) : Prop where
  pos : 0 < size
  dvd : 4 ∣ size
  fits : (image.length : ℤ) ≤ size

variable {image : List (BitVec 8)} {size : ℤ}

/-- The file that is written. -/
theorem main_of_accepts (h : Accepts image size) :
    main image size = .ok (dense (padded image size) (offsets size)) := by
  obtain ⟨hpos, hdvd, hfits⟩ := h
  rw [main, if_neg (by omega), if_neg (by omega)]

/-- Otherwise there is a message. -/
theorem main_of_not_accepts (h : ¬ Accepts image size) :
    ∃ message, main image size = .error message := by
  rw [main]
  split_ifs with hsize hlen
  · exact ⟨_, rfl⟩
  · exact ⟨_, rfl⟩
  · exact absurd ⟨by omega, by omega, by omega⟩ h

/-! ### The text -/

/-- The lines from the word `w` on. -/
theorem readFrom_dense (M : List (BitVec 8)) (w n : ℕ) :
    Memh.readFrom w (dense M ((List.range' w n).map (4 * ·))) =
      some ((List.range' w n).map (storeAt M)) := by
  induction n generalizing w with
  | zero => rfl
  | succ n ih =>
    have hline : dense M ((List.range' w (n + 1)).map (4 * ·)) =
        hex08 (storeAt M w).2 ++ '\n' :: dense M ((List.range' (w + 1) n).map (4 * ·)) := by
      rw [List.range'_succ, List.map_cons, dense, List.flatMap_cons, storeAt, Nat.mul_comm,
        List.append_assoc]
      rfl
    rw [hline, readFrom_line, ih, List.range'_succ]
    rfl

/-- The file stores every word, in order. -/
theorem read_dense (M : List (BitVec 8)) {n : ℕ} (hn : 4 ∣ n) :
    Memh.read (dense M (offsets n)) = some ((List.range (n / 4)).map (storeAt M)) := by
  have hcount : (((n : ℤ) + 3) / 4).toNat = n / 4 := by omega
  rw [offsets, hcount, List.range_eq_range', Memh.read]
  exact readFrom_dense M 0 (n / 4)

/-! ### The image -/

theorem length_padded {n : ℕ} (h : image.length ≤ n) : (padded image n).length = n := by
  rw [padded, List.length_append, List.length_replicate]
  omega

/-- The padding is not seen where missing bytes count as zeros. -/
theorem bytes_padded (image : List (BitVec 8)) (size : ℤ) :
    bytes (padded image size) = bytes image := by
  funext k
  rw [bytes, bytes, padded, List.getElem?_append]
  split_ifs with hk
  · rfl
  · rw [List.getElem?_replicate, List.getElem?_eq_none (by omega : image.length ≤ k)]
    split_ifs <;> rfl

/-- The words of the memory cover the image. -/
theorem covers_padded {n : ℕ} (h : image.length ≤ n) (hn : 4 ∣ n) :
    Covers n (padded image n) (Finset.range (n / 4)) where
  length := length_padded h
  lt w hw := Finset.mem_range.mp hw
  nonzero k b hk _ := by
    have hlt : k < n := by
      rw [← length_padded h]
      exact (List.getElem?_eq_some_iff.mp hk).1
    rw [Finset.mem_range]
    omega

/-- The script either refuses its input, or writes a file that stores every word of the memory once,
in order, and preserves the image, with zeros behind it. -/
theorem main_preserved {base : ℕ} (hbase : 4 ∣ base) (image : List (BitVec 8)) (size : ℤ) :
    (¬ Accepts image size ∧ ∃ message, main image size = .error message) ∨
    (Accepts image size ∧ ∃ text ss, main image size = .ok text ∧ Memh.read text = some ss ∧
      ss.map Prod.fst = List.range (size.toNat / 4) ∧
      Preserved base size.toNat (padded image size) (Finset.range (size.toNat / 4)) ss) := by
  by_cases h : Accepts image size
  · refine .inr ⟨h, _, (List.range (size.toNat / 4)).map (storeAt (padded image size)),
      main_of_accepts h, ?_⟩
    obtain ⟨hpos, hdvd, hfits⟩ := h
    -- the size is positive, and so a number of bytes
    lift size to ℕ using hpos.le
    have hn : 4 ∣ size := by omega
    have hcovers := (covers_padded (by omega : image.length ≤ size) hn).preserved hbase
    rw [Finset.sort_range] at hcovers
    exact ⟨read_dense _ hn, map_fst_storeAt _ _, hcovers⟩
  · exact .inl ⟨h, main_of_not_accepts h⟩

/-- A binary of five bytes in a memory of two words. -/
theorem main_preserved_two :
    let image := [0x13#8, 0#8, 0#8, 0#8, 0x2a#8]
    main image 8 = .ok "00000013\n0000002a\n".toList ∧ ∃ ss,
      Memh.read "00000013\n0000002a\n".toList = some ss ∧ ss.map Prod.fst = [0, 1] ∧
        Preserved 0 8 (padded image 8) (Finset.range 2) ss := by
  intro image
  have hmain : main image 8 = .ok "00000013\n0000002a\n".toList := by decide +kernel
  refine ⟨hmain, ?_⟩
  rcases main_preserved (Nat.dvd_zero 4) image 8 with
    ⟨hno, -⟩ | ⟨-, text, ss, htext, hss, hwords, hpres⟩
  · exact absurd ⟨by decide, by decide, by decide⟩ hno
  · rw [hmain, Except.ok.injEq] at htext
    subst htext
    exact ⟨ss, hss, hwords, hpres⟩

end BinToMemh

end Rv32im

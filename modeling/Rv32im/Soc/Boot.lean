import Rv32im.Soc.Software
import Rv32im.Tools.BinToMemh

/-!
# From a flat binary to `main`

The file that `bin_to_memh.py` writes for a binary with the startup code at the reset vector, read
by `$readmemh` into the memory of the SoC, makes the SoC call `main`.

* `Soc.imageMem`: the memory;
* `Soc.bytesOf_imageMem`: its bytes are those of the binary;
* `Soc.code_of_image`: instructions of the binary are code to the hart;
* `Soc.boots_image`: the run.
-/

namespace Rv32im

open Clocked Memory Riscv ElfToMemh BinToMemh

/-- The array after the stores of a covered image has its bytes. -/
theorem ElfToMemh.Covers.bytesOf_fill {p : TcmParams} {M : List (BitVec 8)} {W : Finset ℕ}
    (h : Covers p.bytes M W) {k : ℕ} (hk : k < p.bytes) :
    p.bytesOf (Memh.fill p.wordCount 32 ((W.sort (· ≤ ·)).map (storeAt M)))
      (p.baseAddr.toNat + k) = bytes M k := by
  have hword : k / 4 < p.wordCount := by
    rw [TcmParams.bytes] at hk
    omega
  have hlt : k < M.length := by
    rw [h.length]
    exact hk
  have hget : M[k]? = some M[k] := List.getElem?_eq_getElem hlt
  rw [TcmParams.bytesOf, if_pos (Nat.le_add_right ..), Nat.add_sub_cancel_left,
    getElem?_fill_stores h hword, Option.getD_some, lane_wordAt hget, bytes, hget, Option.getD_some]

namespace Soc

variable {P : SocParams} {s : Soc P} {image : List (BitVec 8)} {ns : List Instr} {d : ℕ}

/-- The stores of the file for a binary. -/
def imageStores (P : SocParams) (image : List (BitVec 8)) : List (ℕ × ℕ) :=
  (List.range P.tcm.wordCount).map (storeAt (padded image P.tcm.bytes))

/-- The memory that `$readmemh` fills from the file. -/
def imageMem (P : SocParams) (image : List (BitVec 8)) : Vector Word P.tcm.wordCount :=
  Memh.fill P.tcm.wordCount 32 (imageStores P image)

/-- The bytes of the memory are those of the binary, and zeros. -/
theorem bytesOf_imageMem (h : Accepts image P.tcm.bytes) {k : ℕ} (hk : k < P.tcm.bytes) :
    P.tcm.bytesOf (imageMem P image) (P.tcm.baseAddr.toNat + k) = bytes image k := by
  have hwords : P.tcm.bytes / 4 = P.tcm.wordCount := Nat.mul_div_cancel_left _ (by decide)
  have hcovers := covers_padded (Int.ofNat_le.mp h.fits) (Int.natCast_dvd_natCast.mp h.dvd)
  have hfill := hcovers.bytesOf_fill hk
  rw [Finset.sort_range, hwords, bytes_padded] at hfill
  exact hfill

/-- Words of the binary that are instructions are code. -/
theorem code_of_image (h : Accepts image P.tcm.bytes) (hp : P.tcm.Placed) (hap : P.Apart)
    (r : Regfile) (is : List (In P)) (hd : P.core.resetVector.toNat = P.tcm.baseAddr.toNat + d)
    (hfits : d + 4 * ns.length ≤ P.tcm.bytes)
    (hns : ∀ i n, ns[i]? = some n → (bytes image).load (d + 4 * i) 4 = n.encode) :
    (runBus r (imageMem P image) is).Code (resetHart P r (imageMem P image)).mem
      P.core.resetVector ns := by
  rw [Bus.Ram.code_iff (R := runRam r (imageMem P image) is hp hap)]
  · intro i n hi
    have hlt := (List.getElem?_eq_some_iff.mp hi).1
    rw [← hns i n hi]
    refine Bytes.load_congr fun k hk => ?_
    rw [hd, Nat.add_assoc, Nat.add_assoc, ← Nat.add_assoc d]
    exact bytesOf_imageMem h (by omega)
  · exact ⟨by rw [hd]; exact Nat.le_add_right .., by
      show _ ≤ P.tcm.limit
      rw [hd, TcmParams.limit]
      omega⟩

/-- From a binary with the startup code to `main`: the script writes a file, `$readmemh` fills the
memory from it, and every run that is long enough calls `main`. -/
theorem boots_image {y : Startup.Symbols} {r : Regfile} {is : List (In P)} (hp : P.tcm.Placed)
    (hap : P.Apart) (hP : Word.Aligned P.core.resetVector) (h : Accepts image P.tcm.bytes)
    (hd : P.core.resetVector.toNat = P.tcm.baseAddr.toNat + d)
    (hcode : ∀ i n, (Crt0.code P.core.resetVector y)[i]? = some n →
      (bytes image).load (d + 4 * i) 4 = n.encode)
    (hpl : Startup.Placed (runRam r (imageMem P image) is hp hap) y P.core.resetVector 76)
    (hr : (circuit P).Run (resetState P r (imageMem P image)) is s) (hrst : ∀ i ∈ is, i.rst = false)
    (hsep : Separate (resetState P r (imageMem P image)) is)
    (hn : 4 * y.bssWords + 14 ≤
      ((circuit P).trace event (resetState P r (imageMem P image)) is).length) :
    ∃ text ss g, BinToMemh.main image P.tcm.bytes = .ok text ∧ Memh.read text = some ss ∧
      imageMem P image = Memh.fill P.tcm.wordCount 32 ss ∧
      Passes r (imageMem P image) is s (4 * y.bssWords + 14) g ∧
      Startup.AtMain (runRam r (imageMem P image) is hp hap) y (P.core.resetVector + 68#32)
        (Crt0.csrs y (resetHart P r (imageMem P image)).csrs)
        (resetHart P r (imageMem P image)) g := by
  have hread : Memh.read (dense (padded image P.tcm.bytes) (offsets P.tcm.bytes)) =
      some (imageStores P image) := by
    have hwords : P.tcm.bytes / 4 = P.tcm.wordCount := Nat.mul_div_cancel_left _ (by decide)
    have hdvd : 4 ∣ P.tcm.bytes := Nat.dvd_mul_right ..
    rw [read_dense _ hdvd, hwords]
    rfl
  -- what the conditions on the hart's memory say about the binary
  have hfits : d + 4 * (Crt0.code P.core.resetVector y).length ≤ P.tcm.bytes := by
    have hhi : P.core.resetVector.toNat + 76 ≤ P.tcm.baseAddr.toNat + P.tcm.bytes := hpl.code.2
    show d + 76 ≤ P.tcm.bytes
    omega
  obtain ⟨g, hpass, hg⟩ := reaches hp hP hr hrst hsep
    (Crt0.gets_main hpl rfl rfl (code_of_image h hp hap r is hd hfits hcode)) hn
  exact ⟨_, _, g, main_of_accepts h, hread, rfl, hpass, hg⟩

/-- The startup code, and `main` and the word of `bss` behind it, which is not zero. -/
def smallImage : List (BitVec 8) :=
  ((Crt0.code 0#32 smallSymbols).map Instr.encode ++ .replicate 6 0x6f#32).flatMap fun w =>
    (List.range 4).map (Word.lane w)

/-- A binary whose `bss` is not zero in the file. -/
theorem boots_image_small :
    let mem := imageMem small smallImage
    let h := resetHart small (fun _ => 0#32) mem
    let R := runRam (fun _ => 0#32) mem smallRun small_placed small_apart
    ∃ text ss g, BinToMemh.main smallImage 128 = .ok text ∧ Memh.read text = some ss ∧
      mem = Memh.fill 32 32 ss ∧
      Passes (fun _ => 0#32) mem smallRun
        ((circuit small).exec (resetState small (fun _ => 0#32) mem) smallRun) 18 g ∧
      Startup.AtMain R smallSymbols 68#32 (Crt0.csrs smallSymbols h.csrs) h g := by
  have hcode : ∀ i n, (Crt0.code 0#32 smallSymbols)[i]? = some n →
      (bytes smallImage).load (0 + 4 * i) 4 = n.encode := by
    have hall : ∀ i (hi : i < (Crt0.code 0#32 smallSymbols).length),
        (bytes smallImage).load (0 + 4 * i) 4 = (Crt0.code 0#32 smallSymbols)[i].encode := by
      decide +kernel
    intro i n hi
    obtain ⟨hlt, rfl⟩ := List.getElem?_eq_some_iff.mp hi
    exact hall i hlt
  have hpl : Startup.Placed (runRam (fun _ => 0#32) (imageMem small smallImage) smallRun
      small_placed small_apart) smallSymbols small.core.resetVector 76 :=
    ⟨by decide, ⟨by decide, by decide⟩, by decide, by decide, ⟨by decide, by decide⟩, by decide,
      by decide⟩
  have hr : (circuit small).Run (resetState small (fun _ => 0#32) (imageMem small smallImage))
      smallRun ((circuit small).exec
        (resetState small (fun _ => 0#32) (imageMem small smallImage)) smallRun) :=
    .of_always (Circuit.always_of_forall (Q := fun _ => True) fun _ _ => trivial)
  have hrst : ∀ i ∈ smallRun, i.rst = false := by decide +kernel
  have hsep : Separate (resetState small (fun _ => 0#32) (imageMem small smallImage)) smallRun := by
    decide +kernel
  exact boots_image small_placed small_apart (by decide)
    ⟨by decide, by decide, by decide +kernel⟩ rfl hcode hpl hr hrst hsep (by decide +kernel)

end Soc

end Rv32im

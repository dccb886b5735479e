import Rv32im.Memory.Bytes
import Rv32im.Memory.Overlay
import Rv32im.Tools.ElfToMemh

/-!
# The loader

`load_elf` against the loader of a bare-metal ELF, which writes the padding of a segment as well.
`load_elf` writes the file bytes only and leaves the padding to the zeros that it starts from.

* `Settles`: what it takes for a computation to return, which otherwise raises `ElfError`;
* `Accepts`, `loadElf_settles`: when `load_elf` returns;
* `reference`: the image of the bare-metal loader;
* `Conforms`, `conforms_iff`: `load_elf` conforms if no padding is due over an earlier byte.
-/

namespace Rv32im

namespace ElfToMemh

open Memory

/-! ### Outcomes -/

section Settles

variable {α β σ ι : Type} {P Q : Prop} {a : α} {b : β}

/-- Under `P` the computation returns `a`, and otherwise it raises `ElfError`. -/
def Settles (x : Except LoadError α) (P : Prop) (a : α) : Prop :=
  (P ∧ x = .ok a) ∨ (¬ P ∧ ∃ message, x = .error (.elfError message))

theorem settles_ok (a : α) : Settles (.ok a) True a := .inl ⟨trivial, rfl⟩

/-- A check raises nothing if its condition is false. -/
theorem settles_raiseIf (c : Prop) [Decidable c] (message : String) :
    Settles (raiseIf c message) (¬ c) () := by
  unfold raiseIf
  by_cases hc : c
  · rw [if_pos hc]
    exact .inr ⟨not_not.mpr hc, message, rfl⟩
  · rw [if_neg hc]
    exact .inl ⟨hc, rfl⟩

/-- The conditions of two parts add up. -/
theorem Settles.bind {x : Except LoadError α} {f : α → Except LoadError β} (hx : Settles x P a)
    (hf : P → Settles (f a) Q b) : Settles (x >>= f) (P ∧ Q) b := by
  rcases hx with ⟨hP, rfl⟩ | ⟨hP, message, rfl⟩
  · exact (hf hP).imp (fun h => ⟨⟨hP, h.1⟩, h.2⟩) fun h => ⟨fun hPQ => h.1 hPQ.2, h.2⟩
  · exact .inr ⟨fun h => hP h.1, message, rfl⟩

/-- A check that fails raises `ElfError`. -/
theorem Settles.check {c : Prop} [Decidable c] {message : String}
    {f : Unit → Except LoadError β} (hf : ¬ c → Settles (f ()) Q b) :
    Settles (raiseIf c message >>= f) (¬ c ∧ Q) b :=
  (settles_raiseIf c message).bind hf

/-- A computation that returns goes on with the next one. -/
theorem Settles.ok_bind {x : Except LoadError α} {f : α → Except LoadError β} (hx : x = .ok a)
    (hf : Settles (f a) Q b) : Settles (x >>= f) Q b := by
  rw [hx]
  exact hf

theorem Settles.congr {x : Except LoadError α} (hx : Settles x P a) (h : P ↔ Q) :
    Settles x Q a := by
  rwa [← propext h]

/-- It returns exactly when the condition holds. -/
theorem Settles.ok_iff {x : Except LoadError α} (hx : Settles x P a) (b : α) :
    x = .ok b ↔ P ∧ b = a := by
  rcases hx with ⟨hP, rfl⟩ | ⟨hP, message, rfl⟩
  · rw [Except.ok.injEq, eq_comm]
    exact ⟨fun h => ⟨hP, h⟩, And.right⟩
  · exact ⟨fun h => (nomatch h), fun h => absurd h.1 hP⟩

/-- It raises nothing but `ElfError`. -/
theorem Settles.raises {x : Except LoadError α} (hx : Settles x P a) {e : LoadError}
    (he : x = .error e) : ∃ message, e = .elfError message := by
  rcases hx with ⟨-, rfl⟩ | ⟨-, message, rfl⟩
  · cases he
  · exact ⟨message, (Except.error.inj he).symm⟩

/-- A loop whose iterations settle, each after the ones before it. -/
theorem settles_foldlM {step : σ → ι → Except LoadError σ} {ok : ι → Prop} {next : σ → ι → σ}
    {is : List ι} (h : ∀ i ∈ is, ∀ s, Settles (step s i) (ok i) (next s i)) (s : σ) :
    Settles (is.foldlM step s) (∀ i ∈ is, ok i) (is.foldl next s) := by
  induction is generalizing s with
  | nil => exact (settles_ok s).congr (by simp)
  | cons i is ih =>
    rw [List.foldlM_cons, List.foldl_cons]
    refine ((h i (List.mem_cons_self ..) s).bind fun _ => ?_).congr List.forall_mem_cons.symm
    exact ih (fun j hj => h j (List.mem_cons_of_mem _ hj)) _

end Settles

/-! ### Acceptance -/

variable (raw : List (BitVec 8)) (base size : ℕ)

/-- The checks of the ELF header. -/
structure HeaderOk : Prop where
  complete : elfHeaderSize ≤ raw.length
  magic : slice raw 0 4 = [0x7f#8, 0x45#8, 0x4c#8, 0x46#8]
  /-- ELF32, little-endian, version 1. -/
  format : raw[4]? = some 1#8 ∧ raw[5]? = some 1#8 ∧ raw[6]? = some 1#8
  type : (ElfHeader.decode raw).eType = 2
  machine : (ElfHeader.decode raw).eMachine = emRiscv
  entry : (ElfHeader.decode raw).eEntry = base
  stride : programHeaderSize ≤ (ElfHeader.decode raw).ePhentsize
  table : (ElfHeader.decode raw).ePhoff +
    (ElfHeader.decode raw).ePhentsize * (ElfHeader.decode raw).ePhnum ≤ raw.length

/-- An entry of the program-header table. -/
def entry (index : ℕ) : ProgramHeader :=
  .decode raw ((ElfHeader.decode raw).ePhoff + index * (ElfHeader.decode raw).ePhentsize)

/-- The entries of the program-header table, in their order. -/
def entries : List ProgramHeader :=
  (List.range (ElfHeader.decode raw).ePhnum).map (entry raw)

/-- The `PT_LOAD` entries. -/
def segments : List ProgramHeader := (entries raw).filter (·.pType = ptLoad)

/-- What `load_elf` asks of a `PT_LOAD` entry. -/
structure SegmentOk (f : ProgramHeader) : Prop where
  filesz : f.pFilesz ≤ f.pMemsz
  file : f.pOffset + f.pFilesz ≤ raw.length
  range : base ≤ f.pPaddr ∧ f.pPaddr + f.pMemsz ≤ base + size
  vaddr : f.pVaddr = f.pPaddr

/-- The files that `load_elf` accepts. -/
structure Accepts : Prop where
  header : HeaderOk raw base
  nonempty : segments raw ≠ []
  segments : ∀ f ∈ segments raw, SegmentOk raw base size f

/-- The variables after the segments `fs`. -/
def loaded (fs : List ProgramHeader) : LoadState :=
  fs.foldl (fun s f => s.load raw base f)
    { memory := List.replicate size 0#8, touchedWords := ∅, loadCount := 0 }

variable {raw base size}

/-- The part before the loop returns the decoded header. -/
theorem loadHeader_settles :
    Settles (loadHeader raw base) (HeaderOk raw base) (.decode raw) := by
  by_cases hlen : raw.length < elfHeaderSize
  · refine .inr ⟨fun h => absurd hlen (not_lt.mpr h.complete),
      "file is shorter than an ELF32 header", ?_⟩
    rw [loadHeader, raiseIf, if_pos hlen]
    rfl
  -- from here on the bytes that are read are there
  have hident (i : ℕ) (hi : i < 16) : (slice raw 0 16)[i]? = raw[i]? := by
    rw [getElem?_slice, Nat.zero_add, if_pos hi]
  have hbyte (i : ℕ) (hi : i < 16) : ∃ b, raw[i]? = some b :=
    ⟨_, List.getElem?_eq_getElem (by unfold elfHeaderSize at hlen; omega)⟩
  obtain ⟨b₄, h₄⟩ := hbyte 4 (by decide)
  obtain ⟨b₅, h₅⟩ := hbyte 5 (by decide)
  obtain ⟨b₆, h₆⟩ := hbyte 6 (by decide)
  have hmagic : slice (slice raw 0 16) 0 4 = slice raw 0 4 := by
    simp [slice, List.take_take]
  -- the checks in the order in which they are made
  have hsettles : Settles (loadHeader raw base) (¬ raw.length < elfHeaderSize ∧
      ¬ slice (slice raw 0 16) 0 4 ≠ [0x7f#8, 0x45#8, 0x4c#8, 0x46#8] ∧
      ¬ (b₄ ≠ 1#8 ∨ b₅ ≠ 1#8 ∨ b₆ ≠ 1#8) ∧ ¬ (ElfHeader.decode raw).eType ≠ 2 ∧
      ¬ (ElfHeader.decode raw).eMachine ≠ emRiscv ∧ ¬ (ElfHeader.decode raw).eEntry ≠ base ∧
      ¬ (ElfHeader.decode raw).ePhentsize < programHeaderSize ∧
      ¬ (ElfHeader.decode raw).ePhoff + (ElfHeader.decode raw).ePhentsize *
        (ElfHeader.decode raw).ePhnum > raw.length ∧ True) (.decode raw) := by
    refine .check fun _ => ?_
    refine .ok_bind (if_pos (not_lt.mp hlen)) ?_
    refine .check fun _ => ?_
    refine .ok_bind (index_of_some ((hident 4 (by decide)).trans h₄)) ?_
    refine .ok_bind (index_of_some ((hident 5 (by decide)).trans h₅)) ?_
    refine .ok_bind (index_of_some ((hident 6 (by decide)).trans h₆)) ?_
    refine .check fun _ => .check fun _ => .check fun _ => .check fun _ => .check fun _ => ?_
    exact .check fun _ => settles_ok _
  -- together they are the fields of `HeaderOk`
  refine hsettles.congr ?_
  rw [hmagic]
  constructor
  · rintro ⟨hsize, hmagic, hformat, htype, hmachine, hentry, hstride, htable, -⟩
    rw [not_or, not_or, not_not, not_not, not_not] at hformat
    obtain ⟨rfl, rfl, rfl⟩ := hformat
    exact ⟨not_lt.mp hsize, not_not.mp hmagic, ⟨h₄, h₅, h₆⟩, not_not.mp htype,
      not_not.mp hmachine, not_not.mp hentry, not_lt.mp hstride, not_lt.mp htable⟩
  · rintro ⟨hsize, hmagic, ⟨hf₄, hf₅, hf₆⟩, htype, hmachine, hentry, hstride, htable⟩
    rw [h₄, Option.some.injEq] at hf₄
    rw [h₅, Option.some.injEq] at hf₅
    rw [h₆, Option.some.injEq] at hf₆
    exact ⟨not_lt.mpr hsize, not_not.mpr hmagic, by simp [hf₄, hf₅, hf₆], not_not.mpr htype,
      not_not.mpr hmachine, not_not.mpr hentry, not_lt.mpr hstride, not_lt.mpr htable, trivial⟩

/-- The entries of a table within the file can be read. -/
theorem entry_le (h : HeaderOk raw base) {i : ℕ} (hi : i < (ElfHeader.decode raw).ePhnum) :
    (ElfHeader.decode raw).ePhoff + i * (ElfHeader.decode raw).ePhentsize + programHeaderSize ≤
      raw.length := by
  have hstride := h.stride
  have htable := h.table
  have hmul : (i + 1) * (ElfHeader.decode raw).ePhentsize ≤
      (ElfHeader.decode raw).ePhnum * (ElfHeader.decode raw).ePhentsize :=
    Nat.mul_le_mul_right _ hi
  rw [Nat.add_mul, Nat.one_mul] at hmul
  rw [Nat.mul_comm (ElfHeader.decode raw).ePhentsize] at htable
  omega

/-- An iteration copies a `PT_LOAD` entry that is fine and skips the other types. -/
theorem loadEntry_settles (h : HeaderOk raw base) {i : ℕ}
    (hi : i < (ElfHeader.decode raw).ePhnum) (s : LoadState) :
    Settles (loadEntry raw base size (.decode raw) s i)
      ((entry raw i).pType = ptLoad → SegmentOk raw base size (entry raw i))
      (if (entry raw i).pType = ptLoad then s.load raw base (entry raw i) else s) := by
  unfold loadEntry
  refine .ok_bind (if_pos (entry_le h hi)) ?_
  change Settles (if (entry raw i).pType ≠ ptLoad then _ else _) _ _
  by_cases htype : (entry raw i).pType = ptLoad
  · rw [if_neg (not_not.mpr htype), if_pos htype]
    refine Settles.congr (.check fun _ => .check fun _ => .check fun _ => .check fun _ =>
      settles_ok _) ?_
    constructor
    · rintro ⟨hfilesz, hfile, hrange, hvaddr, -⟩ -
      rw [not_or, not_lt, not_lt] at hrange
      exact ⟨not_lt.mp hfilesz, not_lt.mp hfile, hrange, not_not.mp hvaddr⟩
    · intro hok
      obtain ⟨hfilesz, hfile, hrange, hvaddr⟩ := hok htype
      refine ⟨not_lt.mpr hfilesz, not_lt.mpr hfile, ?_, not_not.mpr hvaddr, trivial⟩
      rw [not_or, not_lt, not_lt]
      exact hrange
  · rw [if_pos htype, if_neg htype]
    exact (settles_ok s).congr (by simp [htype])

/-- Segments are loaded in table order. -/
theorem loaded_append (fs : List ProgramHeader) (f : ProgramHeader) :
    loaded raw base size (fs ++ [f]) = (loaded raw base size fs).load raw base f := by
  rw [loaded, List.foldl_append]
  rfl

/-- Each segment is counted. -/
theorem loadCount_loaded (fs : List ProgramHeader) :
    (loaded raw base size fs).loadCount = fs.length := by
  induction fs using List.reverseRecOn with
  | nil => rfl
  | append_singleton fs f ih => rw [loaded_append, LoadState.load, ih, List.length_append]; rfl

/-- The loop goes through the `PT_LOAD` entries. -/
theorem loop_settles (h : HeaderOk raw base) :
    Settles ((List.range (ElfHeader.decode raw).ePhnum).foldlM
        (loadEntry raw base size (.decode raw))
        { memory := List.replicate size 0#8, touchedWords := ∅, loadCount := 0 })
      (∀ f ∈ segments raw, SegmentOk raw base size f) (loaded raw base size (segments raw)) := by
  have hentry : ∀ i ∈ List.range (ElfHeader.decode raw).ePhnum, ∀ s,
      Settles (loadEntry raw base size (.decode raw) s i) _ _ :=
    fun i hi s => loadEntry_settles h (List.mem_range.mp hi) s
  have hloop := settles_foldlM hentry
    { memory := List.replicate size 0#8, touchedWords := ∅, loadCount := 0 }
  rw [loaded, segments, entries, List.foldl_filter, List.foldl_map]
  simp only [decide_eq_true_eq]
  exact hloop.congr (by simp)

/-- `load_elf` returns for the accepted files, with the variables after the segments, and raises
`ElfError` for all others. -/
theorem loadElf_settles :
    Settles (loadElf raw base size) (Accepts raw base size)
      ((loaded raw base size (segments raw)).memory,
        (loaded raw base size (segments raw)).touchedWords) := by
  have hsettles : Settles (loadElf raw base size) (HeaderOk raw base ∧
      (∀ f ∈ segments raw, SegmentOk raw base size f) ∧
      ¬ (loaded raw base size (segments raw)).loadCount = 0 ∧ True) _ :=
    loadHeader_settles.bind fun h => (loop_settles h).bind fun _ => .check fun _ => settles_ok _
  refine hsettles.congr ?_
  rw [loadCount_loaded, List.length_eq_zero_iff]
  exact ⟨fun ⟨hheader, hsegs, hne, _⟩ => ⟨hheader, hne, hsegs⟩,
    fun h => ⟨h.header, h.segments, h.nonempty, trivial⟩⟩

/-! ### The image -/

/-- The file bytes of a segment, by their addresses. -/
def contents (raw : List (BitVec 8)) (f : ProgramHeader) (a : ℕ) : Option (BitVec 8) :=
  if f.pPaddr ≤ a ∧ a < f.pPaddr + f.pFilesz then raw[f.pOffset + (a - f.pPaddr)]? else none

/-- The address lies in `[p_paddr, p_paddr + p_memsz)`. -/
def covers (f : ProgramHeader) (a : ℕ) : Prop := f.pPaddr ≤ a ∧ a < f.pPaddr + f.pMemsz

/-- Whether a segment covers an address can be computed. -/
instance (f : ProgramHeader) (a : ℕ) : Decidable (covers f a) := inferInstanceAs (Decidable (_ ∧ _))

/-- A byte of the word `w` of the memory lies in the segment. -/
def touches (base : ℕ) (f : ProgramHeader) (w : ℕ) : Prop := ∃ x, x / 4 = w ∧ covers f (base + x)

/-- The image of the bare-metal loader: zeros, and for each segment in turn its file bytes and then
zeros up to `p_memsz`. -/
def reference (raw : List (BitVec 8)) : Bytes :=
  overlay (fun _ => 0#8) ((segments raw).map (padded (contents raw) covers 0#8))

/-- The bytes of `[base, base + size)` in an image. -/
def window (base size : ℕ) (m : Bytes) : List (BitVec 8) :=
  (List.range size).map fun x => m (base + x)

/-- The window has the size of the memory. -/
theorem length_window (m : Bytes) : (window base size m).length = size := by
  rw [window, List.length_map, List.length_range]

theorem getElem?_window (m : Bytes) {x : ℕ} (hx : x < size) :
    (window base size m)[x]? = some (m (base + x)) := by
  rw [window, List.getElem?_map, List.getElem?_range hx, Option.map_some]

/-- Copying a segment into the memory. -/
theorem memory_load {s : LoadState} {f : ProgramHeader} {m : Bytes}
    (hf : SegmentOk raw base size f) (hs : s.memory = window base size m) :
    (s.load raw base f).memory = window base size (patch m (contents raw f)) := by
  obtain ⟨hfilesz, hfile, ⟨hlo, hhi⟩, -⟩ := hf
  have hlen : s.memory.length = size := by rw [hs, length_window]
  have hdata : (slice raw f.pOffset (f.pOffset + f.pFilesz)).length =
      f.pPaddr - base + f.pFilesz - (f.pPaddr - base) := by
    rw [length_slice]
    omega
  apply List.ext_getElem?
  intro x
  rw [LoadState.load, getElem?_assignSlice hdata (by omega) (by omega), getElem?_slice]
  by_cases hx : x < size
  · rw [getElem?_window _ hx]
    by_cases hin : f.pPaddr - base ≤ x ∧ x < f.pPaddr - base + f.pFilesz
    · -- a byte of the file
      have hbyte : contents raw f (base + x) = raw[f.pOffset + (x - (f.pPaddr - base))]? := by
        have hsub : base + x - f.pPaddr = x - (f.pPaddr - base) := by omega
        rw [contents, if_pos (by omega), hsub]
      have hget := List.getElem?_eq_getElem (l := raw)
        (i := f.pOffset + (x - (f.pPaddr - base))) (by omega)
      rw [if_pos hin, if_pos (by omega), patch_of_some (hbyte.trans hget), hget]
    · have hnone : contents raw f (base + x) = none := if_neg (by omega)
      rw [if_neg hin, hs, getElem?_window _ hx, patch_of_none hnone]
  · rw [if_neg (by omega), List.getElem?_eq_none (by omega),
      List.getElem?_eq_none (by rw [length_window]; omega)]

/-- The memory after some segments holds what their file bytes left in it. -/
theorem memory_loaded {fs : List ProgramHeader} (hfs : ∀ f ∈ fs, SegmentOk raw base size f) :
    (loaded raw base size fs).memory =
      window base size (overlay (fun _ => 0#8) (fs.map (contents raw))) := by
  induction fs using List.reverseRecOn with
  | nil =>
    rw [loaded, List.foldl_nil, List.map_nil, overlay_nil, window, List.map_const',
      List.length_range]
  | append_singleton fs f ih =>
    rw [List.forall_mem_append, List.forall_mem_singleton] at hfs
    rw [loaded_append, memory_load hfs.2 (ih hfs.1), List.map_append, overlay_append]
    rfl

/-- The words of a segment. -/
theorem mem_touchedWords_load {s : LoadState} {f : ProgramHeader} (hf : base ≤ f.pPaddr) (w : ℕ) :
    w ∈ (s.load raw base f).touchedWords ↔ w ∈ s.touchedWords ∨ touches base f w := by
  have hrange : touches base f w ↔ f.pMemsz ≠ 0 ∧
      (f.pPaddr - base) / 4 ≤ w ∧ w ≤ (f.pPaddr - base + f.pMemsz - 1) / 4 := by
    constructor
    · rintro ⟨x, rfl, hlo, hhi⟩
      omega
    · rintro ⟨hne, hlo, hhi⟩
      -- the first byte of the word or of the segment
      refine ⟨max (4 * w) (f.pPaddr - base), by omega, ?_, ?_⟩
      · omega
      · omega
  rw [LoadState.load, hrange]
  by_cases hne : f.pMemsz = 0
  · simp [hne]
  · simp only [ne_eq, hne, not_false_eq_true, if_true, Finset.mem_union, Finset.mem_Ico, true_and,
      Nat.lt_succ_iff]

/-- The touched words after some segments are those that intersect one of them. -/
theorem mem_touchedWords_loaded {fs : List ProgramHeader}
    (hfs : ∀ f ∈ fs, SegmentOk raw base size f) (w : ℕ) :
    w ∈ (loaded raw base size fs).touchedWords ↔ ∃ f ∈ fs, touches base f w := by
  induction fs using List.reverseRecOn with
  | nil => simp [loaded]
  | append_singleton fs f ih =>
    rw [List.forall_mem_append, List.forall_mem_singleton] at hfs
    rw [loaded_append, mem_touchedWords_load hfs.2.range.1, ih hfs.1]
    simp [or_and_right, exists_or]

/-! ### Conformance -/

/-- `load_elf` on a file is the bare-metal loader. -/
structure Conforms (raw : List (BitVec 8)) (base size : ℕ) : Prop where
  raises : ∀ e, loadElf raw base size = .error e → ∃ message, e = .elfError message
  image : ∀ M W, loadElf raw base size = .ok (M, W) →
    M.length = size ∧ M = window base size (reference raw)
  touched : ∀ M W, loadElf raw base size = .ok (M, W) →
    (∀ w, w ∈ W ↔ ∃ f ∈ segments raw, touches base f w) ∧ ∀ w ∈ W, w < size / 4
  returns : (∃ M W, loadElf raw base size = .ok (M, W)) ↔ Accepts raw base size

/-- What `load_elf` returns. -/
theorem loadElf_ok_iff {M : List (BitVec 8)} {W : Finset ℕ} :
    loadElf raw base size = .ok (M, W) ↔ Accepts raw base size ∧
      M = (loaded raw base size (segments raw)).memory ∧
      W = (loaded raw base size (segments raw)).touchedWords := by
  rw [loadElf_settles.ok_iff, Prod.mk.injEq]

/-- The words that a segment inside the memory touches are words of the memory. -/
theorem lt_of_touches (hsize : 4 ∣ size) {f : ProgramHeader} (hf : SegmentOk raw base size f)
    {w : ℕ} (h : touches base f w) : w < size / 4 := by
  obtain ⟨x, rfl, -, hhi⟩ := h
  have hrange := hf.range.2
  obtain ⟨n, rfl⟩ := hsize
  omega

/-- A stale address lies in the memory. -/
theorem exists_of_stale (h : Accepts raw base size) {a : ℕ}
    (hst : Stale (contents raw) covers 0#8 (segments raw) a) : ∃ x < size, a = base + x := by
  obtain ⟨pre, s, post, hsegs, -, -, t, ht, hlo, hhi⟩ := hst
  have hmem : t ∈ segments raw := by rw [hsegs]; simp [ht]
  obtain ⟨hbase, hlimit⟩ := (h.segments t hmem).range
  exact ⟨a - base, by omega, by omega⟩

/-- `load_elf` is the bare-metal loader, unless it accepts a file in which a segment pads over the
last file byte at some address and that byte is not zero. -/
theorem conforms_iff (hsize : 4 ∣ size) : Conforms raw base size ↔
    (Accepts raw base size → ∀ a, ¬ Stale (contents raw) covers 0#8 (segments raw) a) := by
  constructor
  · intro h hacc a hst
    obtain ⟨x, hx, rfl⟩ := exists_of_stale hacc hst
    have himage := (h.image _ _ (loadElf_ok_iff.mpr ⟨hacc, rfl, rfl⟩)).2
    have hbyte := congrArg (fun M : List (BitVec 8) => M[x]?) himage
    simp only [memory_loaded hacc.segments, getElem?_window _ hx, Option.some.injEq] at hbyte
    exact overlay_padded_iff.mp hbyte hst
  · intro h
    refine ⟨fun e he => loadElf_settles.raises he, ?_, ?_, ?_⟩
    · rintro M W hok
      obtain ⟨hacc, rfl, -⟩ := loadElf_ok_iff.mp hok
      rw [memory_loaded hacc.segments]
      refine ⟨length_window _, congrArg (window base size) ?_⟩
      funext a
      exact overlay_padded_iff.mpr (h hacc a)
    · rintro M W hok
      obtain ⟨hacc, -, rfl⟩ := loadElf_ok_iff.mp hok
      refine ⟨mem_touchedWords_loaded hacc.segments, fun w hw => ?_⟩
      obtain ⟨f, hf, htouch⟩ := (mem_touchedWords_loaded hacc.segments w).mp hw
      exact lt_of_touches hsize (hacc.segments f hf) htouch
    · constructor
      · rintro ⟨M, W, hok⟩
        exact (loadElf_ok_iff.mp hok).1
      · intro hacc
        exact ⟨_, _, loadElf_ok_iff.mpr ⟨hacc, rfl, rfl⟩⟩

/-- `v` in `n` bytes. -/
def littleEndian (n v : ℕ) : List (BitVec 8) :=
  (List.range n).map fun i => BitVec.ofNat 8 (v / 256 ^ i)

/-- An executable for the base address zero, with a `PT_LOAD` entry for each `p_offset`, `p_paddr`,
`p_filesz` and `p_memsz`. -/
def executable (segs : List (ℕ × ℕ × ℕ × ℕ)) (data : List (BitVec 8)) : List (BitVec 8) :=
  [0x7f#8, 0x45#8, 0x4c#8, 0x46#8, 1#8, 1#8, 1#8] ++ List.replicate 9 0#8 ++
    [(2, 2), (2, 243), (4, 1), (4, 0), (4, 52), (4, 0), (4, 0), (2, 52), (2, 32),
      (2, segs.length), (2, 0), (2, 0), (2, 0)].flatMap (fun f => littleEndian f.1 f.2) ++
    segs.flatMap (fun f =>
      [1, f.1, f.2.1, f.2.1, f.2.2.1, f.2.2.2, 7, 4].flatMap (littleEndian 4)) ++ data

/-- A byte of file data, and then a segment without file data at the same address. -/
def overlaid : List (BitVec 8) := executable [(116, 0, 1, 1), (116, 0, 0, 1)] [0x2a#8]

/-- The byte stays where the bare-metal loader writes a zero. -/
theorem not_conforms_overlaid : ¬ Conforms overlaid 0 4 := by
  intro h
  have hok : loadElf overlaid 0 4 = .ok ([0x2a#8, 0#8, 0#8, 0#8], {0}) := by decide +kernel
  have hne : [0x2a#8, 0#8, 0#8, 0#8] ≠ window 0 4 (reference overlaid) := by decide +kernel
  exact hne (h.image _ _ hok).2

/-- A byte of file data and five bytes of padding. -/
def padding : List (BitVec 8) := executable [(84, 0, 1, 6)] [0x2a#8]

/-- With one segment nothing can be overlaid. -/
theorem conforms_padding :
    loadElf padding 0 8 = .ok (0x2a#8 :: List.replicate 7 0#8, {0, 1}) ∧ Conforms padding 0 8 := by
  refine ⟨by decide +kernel, (conforms_iff (by decide)).mpr ?_⟩
  rintro - a ⟨pre, s, post, hsegs, -, -, t, ht, -⟩
  have hlen : (segments padding).length = 1 := by decide +kernel
  rw [hsegs, List.length_append, List.length_cons] at hlen
  have hnil : post = [] := List.length_eq_zero_iff.mp (by omega)
  rw [hnil] at ht
  exact absurd ht List.not_mem_nil

end ElfToMemh

end Rv32im

import Mathlib.Data.List.Induction
import Rv32im.Memory.Overlay

/-!
# Memory files

The text format of `$readmemh`: words in hexadecimal, each stored behind the one before, with `@`
and a number to set the index, and comments.

* `hexNumber`, `tokens`, `stores`, `read`: a text, and the stores that it makes;
* `readFrom_comment`, `readFrom_address`, `readFrom_word`: the lines of a text, one by one;
* `fill`: a zero-filled array after the stores.
-/

namespace Memory

namespace Memh

/-! ### Numbers -/

/-- The value of a hexadecimal digit. -/
def hexDigit (c : Char) : Option ℕ :=
  if '0' ≤ c ∧ c ≤ '9' then some (c.toNat - '0'.toNat)
  else if 'a' ≤ c ∧ c ≤ 'f' then some (c.toNat - 'a'.toNat + 10)
  else if 'A' ≤ c ∧ c ≤ 'F' then some (c.toNat - 'A'.toNat + 10)
  else none

/-- The number that goes on with a digit. -/
def hexStep (n : ℕ) (c : Char) : Option ℕ := (hexDigit c).map (16 * n + ·)

/-- The value of a hexadecimal number. -/
def hexNumber (cs : List Char) : Option ℕ := if cs = [] then none else cs.foldlM hexStep 0

/-- A digit is read back. -/
theorem hexDigit_digitChar {d : ℕ} (hd : d < 16) : hexDigit d.digitChar = some d := by
  have hall : ∀ d < 16, hexDigit (Nat.digitChar d) = some d := by decide
  exact hall d hd

/-- The digits of a number are those of its value. -/
theorem foldlM_toDigits (v : ℕ) : (Nat.toDigits 16 v).foldlM hexStep 0 = some v := by
  induction v using Nat.strongRecOn with
  | ind v ih =>
    rw [Nat.toDigits_eq_if (by decide)]
    split
    next hlt => simp [hexStep, hexDigit_digitChar hlt]
    next hge =>
      rw [List.foldlM_append, ih (v / 16) (by omega)]
      simp only [List.foldlM_cons, List.foldlM_nil, hexStep,
        hexDigit_digitChar (Nat.mod_lt v (by decide : 16 > 0)), Option.bind_eq_bind,
        Option.bind_some, Option.map_some, Option.pure_def]
      rw [Nat.div_add_mod]

/-- A number is read back from its digits. -/
theorem hexNumber_toDigits (v : ℕ) : hexNumber (Nat.toDigits 16 v) = some v := by
  rw [hexNumber, if_neg Nat.toDigits_ne_nil, foldlM_toDigits]

/-- Leading zeros do not change a number. -/
theorem hexNumber_leftpad (k : ℕ) {cs : List Char} (hcs : cs ≠ []) :
    hexNumber (cs.leftpad k '0') = hexNumber cs := by
  have hzeros (j : ℕ) : (List.replicate j '0').foldlM hexStep 0 = some 0 := by
    induction j with
    | zero => rfl
    | succ j ih => rw [List.replicate_succ, List.foldlM_cons]; exact ih
  rw [List.leftpad, hexNumber, hexNumber, if_neg hcs, if_neg (by simp [hcs]), List.foldlM_append,
    hzeros]
  rfl

/-- A number has digits only. -/
theorem hexDigit_of_mem {cs : List Char} {v : ℕ} (h : hexNumber cs = some v) {c : Char}
    (hc : c ∈ cs) : hexDigit c ≠ none := by
  have hfold (cs : List Char) : ∀ n v, cs.foldlM hexStep n = some v → ∀ c ∈ cs,
      hexDigit c ≠ none := by
    induction cs with
    | nil => simp
    | cons d cs ih =>
      intro n v hv c hc
      rw [List.foldlM_cons] at hv
      obtain ⟨m, hm, hv⟩ := Option.bind_eq_some_iff.mp hv
      rcases List.mem_cons.mp hc with rfl | hc
      · intro hnone
        rw [hexStep, hnone] at hm
        contradiction
      · exact ih m v hv c hc
  rw [hexNumber] at h
  split at h
  · contradiction
  · exact hfold cs 0 v h c hc

/-! ### Tokens -/

/-- Where the reader is: outside of a comment, or in one up to the end of the line or to `*/`. -/
inductive Mode
  | text
  | line
  | block
deriving DecidableEq, Repr

/-- The text without its comments. -/
def uncomment : Mode → List Char → List Char
  | _, [] => []
  | .text, '/' :: '/' :: cs => uncomment .line cs
  | .text, '/' :: '*' :: cs => uncomment .block cs
  | .text, c :: cs => c :: uncomment .text cs
  | .line, c :: cs => if c = '\n' then c :: uncomment .text cs else uncomment .line cs
  | .block, '*' :: '/' :: cs => ' ' :: uncomment .text cs
  | .block, _ :: cs => uncomment .block cs

/-- The tokens between blanks. -/
def tokens (cs : List Char) : List (List Char) :=
  ((uncomment .text cs).splitOnP Char.isWhitespace).filter (· ≠ [])

/-- A token can stand in a text. -/
structure Plain (w : List Char) : Prop where
  nonempty : w ≠ []
  black : ∀ c ∈ w, c.isWhitespace = false
  slash : '/' ∉ w

/-- Text without a slash has no comment. -/
theorem uncomment_append {w : List Char} (h : '/' ∉ w) (cs : List Char) :
    uncomment .text (w ++ cs) = w ++ uncomment .text cs := by
  induction w with
  | nil => rfl
  | cons c w ih =>
    rw [List.mem_cons, not_or] at h
    rw [List.cons_append, uncomment, ih h.2, List.cons_append]
    -- `c` starts neither kind of comment
    · rintro ds rfl
      exact absurd rfl h.1
    · rintro ds rfl
      exact absurd rfl h.1

/-- A comment ends with its line. -/
theorem uncomment_line {w : List Char} (h : '\n' ∉ w) (cs : List Char) :
    uncomment .line (w ++ '\n' :: cs) = '\n' :: uncomment .text cs := by
  induction w with
  | nil => rw [List.nil_append, uncomment, if_pos rfl]
  | cons c w ih =>
    rw [List.mem_cons, not_or] at h
    rw [List.cons_append, uncomment, if_neg fun hc => h.1 hc.symm, ih h.2]

/-- A comment up to the end of its line is skipped. -/
theorem tokens_comment {w : List Char} (h : '\n' ∉ w) (cs : List Char) :
    tokens ('/' :: '/' :: w ++ '\n' :: cs) = tokens cs := by
  have hblack : ∀ c ∈ ([] : List Char), c.isWhitespace = false := by simp
  have hsplit := List.splitOnP_append_cons_of_forall_mem hblack '\n' rfl (uncomment .text cs)
  rw [tokens, List.cons_append, List.cons_append, uncomment, uncomment_line h, ← List.nil_append
    ('\n' :: _), hsplit]
  simp [tokens]

/-- A line with one token. -/
theorem tokens_line {w : List Char} (h : Plain w) (cs : List Char) :
    tokens (w ++ '\n' :: cs) = w :: tokens cs := by
  have hline : uncomment .text ('\n' :: cs) = '\n' :: uncomment .text cs :=
    uncomment_append (w := ['\n']) (by simp) cs
  have hsplit := List.splitOnP_append_cons_of_forall_mem h.black '\n' rfl (uncomment .text cs)
  rw [tokens, uncomment_append h.slash, hline, hsplit]
  simp [tokens, h.nonempty]

/-- A number is a token. -/
theorem plain_of_hexNumber {w : List Char} {v : ℕ} (h : hexNumber w = some v) : Plain w where
  nonempty := by
    rintro rfl
    contradiction
  black c hc := by
    have hdigit := hexDigit_of_mem h hc
    rw [← Bool.not_eq_true, Char.isWhitespace]
    simp only [Bool.or_eq_true, decide_eq_true_eq]
    rintro (((rfl | rfl) | rfl) | rfl) <;> exact absurd (by decide) hdigit
  slash hc := absurd (by decide) (hexDigit_of_mem h hc)

/-! ### Stores -/

/-- The stores of the tokens from an index on: index and value. -/
def stores : ℕ → List (List Char) → Option (List (ℕ × ℕ))
  | _, [] => some []
  | i, w :: ws =>
    if w.head? = some '@' then (hexNumber w.tail).bind fun a => stores a ws
    else (hexNumber w).bind fun v => (stores (i + 1) ws).map ((i, v) :: ·)

/-- The stores of a text, from an index on. -/
def readFrom (i : ℕ) (cs : List Char) : Option (List (ℕ × ℕ)) := stores i (tokens cs)

/-- The stores of a text. -/
def read (cs : List Char) : Option (List (ℕ × ℕ)) := readFrom 0 cs

variable (i : ℕ) (cs : List Char)

/-- A comment line stores nothing. -/
theorem readFrom_comment {w : List Char} (h : '\n' ∉ w) :
    readFrom i ('/' :: '/' :: w ++ '\n' :: cs) = readFrom i cs := by
  rw [readFrom, tokens_comment h, readFrom]

/-- An address line sets the index. -/
theorem readFrom_address {w : List Char} {a : ℕ} (h : hexNumber w = some a) :
    readFrom i ('@' :: w ++ '\n' :: cs) = readFrom a cs := by
  have hw := plain_of_hexNumber h
  have hplain : Plain ('@' :: w) :=
    ⟨List.cons_ne_nil _ _, List.forall_mem_cons.mpr ⟨rfl, hw.black⟩, by simp [hw.slash]⟩
  rw [readFrom, tokens_line hplain, stores, List.head?_cons, if_pos rfl, List.tail_cons, h,
    Option.bind_some, readFrom]

/-- A word is stored at the index, which goes on to the next. -/
theorem readFrom_word {w : List Char} {v : ℕ} (h : hexNumber w = some v) :
    readFrom i (w ++ '\n' :: cs) = (readFrom (i + 1) cs).map ((i, v) :: ·) := by
  have hhead : w.head? ≠ some '@' := fun hat =>
    hexDigit_of_mem h (List.mem_of_head? hat) (by decide)
  rw [readFrom, tokens_line (plain_of_hexNumber h), stores, if_neg hhead, h, Option.bind_some,
    readFrom]

/-! ### The array -/

/-- The zero-filled array of `n` words after the stores. -/
def fill (n width : ℕ) (ss : List (ℕ × ℕ)) : Vector (BitVec width) n :=
  ss.foldl (fun mem s => mem.setIfInBounds s.1 (BitVec.ofNat width s.2)) (Vector.replicate n 0)

variable {i} {n width : ℕ} {ss : List (ℕ × ℕ)}

/-- The array as an overlay of its stores. -/
theorem getElem?_fill (hi : i < n) : (fill n width ss)[i]? = some (overlay (fun _ => 0)
    (ss.map fun s x => if s.1 = x then some (BitVec.ofNat width s.2) else none) i) := by
  induction ss using List.reverseRecOn with
  | nil => simp [fill, hi]
  | append_singleton ss s ih =>
    have hfill : fill n width (ss ++ [s]) =
        (fill n width ss).setIfInBounds s.1 (BitVec.ofNat width s.2) := by
      rw [fill, List.foldl_append]
      rfl
    rw [hfill, Vector.getElem?_setIfInBounds, List.map_append, overlay_append]
    by_cases hs : s.1 = i
    · subst hs
      simp [hi, patch]
    · simp [hs, ih, patch]

/-- A word that is stored once. -/
theorem fill_of_mem (hss : (ss.map Prod.fst).Nodup) {v : ℕ} (h : (i, v) ∈ ss) (hi : i < n) :
    (fill n width ss)[i]? = some (BitVec.ofNat width v) := by
  obtain ⟨pre, post, rfl⟩ := List.append_of_mem h
  rw [List.map_append, List.map_cons, List.nodup_append, List.nodup_cons] at hss
  rw [getElem?_fill hi, List.map_append, List.map_cons]
  refine congrArg some (overlay_of_last (if_pos rfl) (List.forall_mem_map.mpr fun s hs => ?_))
  exact if_neg fun heq => hss.2.1.1 (List.mem_map.mpr ⟨s, hs, heq⟩)

/-- A word that is not stored. -/
theorem fill_of_not_mem (h : i ∉ ss.map Prod.fst) (hi : i < n) :
    (fill n width ss)[i]? = some 0 := by
  rw [getElem?_fill hi, overlay_of_none (List.forall_mem_map.mpr fun s hs => ?_)]
  exact if_neg fun heq => h (List.mem_map.mpr ⟨s, hs, heq⟩)

end Memh

end Memory

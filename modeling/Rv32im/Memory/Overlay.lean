import Mathlib.Tactic.Common

/-!
# Overlays

Memory images built by one partial write after the other, where a later write hides an earlier one.

* `patch`, `overlay`: a write, and writes in their order;
* `overlay_of_last`: an address holds what was last written there;
* `Stale`, `overlay_padded_iff`: what is lost when padding is left out because the memory starts
  out with it.
-/

namespace Memory

variable {α β σ : Type*}

/-- The memory after a write to the addresses where `w` is defined. -/
def patch (m : α → β) (w : α → Option β) : α → β := fun x => (w x).getD (m x)

/-- The memory after the writes in their order. -/
def overlay (m : α → β) (ws : List (α → Option β)) : α → β := ws.foldl patch m

@[simp] theorem overlay_nil (m : α → β) : overlay m [] = m := rfl

@[simp] theorem overlay_cons (m : α → β) (w : α → Option β) (ws : List (α → Option β)) :
    overlay m (w :: ws) = overlay (patch m w) ws := rfl

/-- Writing two lists is writing the one after the other. -/
theorem overlay_append (m : α → β) (ws vs : List (α → Option β)) :
    overlay m (ws ++ vs) = overlay (overlay m ws) vs := List.foldl_append

/-- A point that is not written keeps its value. -/
theorem patch_of_none {m : α → β} {w : α → Option β} {x : α} (h : w x = none) :
    patch m w x = m x := by
  rw [patch, h, Option.getD_none]

theorem patch_of_some {m : α → β} {w : α → Option β} {x : α} {b : β} (h : w x = some b) :
    patch m w x = b := by
  rw [patch, h, Option.getD_some]

/-- What nobody writes keeps its value. -/
theorem overlay_of_none {m : α → β} {ws : List (α → Option β)} {x : α}
    (h : ∀ w ∈ ws, w x = none) : overlay m ws x = m x := by
  induction ws generalizing m with
  | nil => rfl
  | cons w ws ih =>
    rw [overlay_cons, ih fun v hv => h v (List.mem_cons_of_mem _ hv)]
    exact patch_of_none (h w (List.mem_cons_self ..))

/-- An address holds what was last written there. -/
theorem overlay_of_last {m : α → β} {pre post : List (α → Option β)} {w : α → Option β} {x : α}
    {b : β} (hw : w x = some b) (hpost : ∀ v ∈ post, v x = none) :
    overlay m (pre ++ w :: post) x = b := by
  rw [overlay_append, overlay_cons, overlay_of_none hpost]
  exact patch_of_some hw

/-- Writes of one value only leave another one where none of them applies. -/
theorem overlay_of_const {m : α → β} {ws : List (α → Option β)} {x : α} {z : β}
    (h : ∀ w ∈ ws, w x = none ∨ w x = some z) (hz : m x = z ∨ ∃ w ∈ ws, w x = some z) :
    overlay m ws x = z := by
  induction ws generalizing m with
  | nil => exact hz.resolve_right fun ⟨w, hw, _⟩ => List.not_mem_nil hw
  | cons w ws ih =>
    refine ih (fun v hv => h v (List.mem_cons_of_mem _ hv)) ?_
    rcases h w (List.mem_cons_self ..) with hw | hw
    · rw [patch_of_none hw]
      refine hz.imp_right ?_
      rintro ⟨v, hv, hvz⟩
      rcases List.mem_cons.mp hv with rfl | hv
      · rw [hw] at hvz
        contradiction
      · exact ⟨v, hv, hvz⟩
    · exact .inl (patch_of_some hw)

/-- A list with an element of some kind splits at its last one. -/
theorem exists_last {p : σ → Prop} {ss : List σ} (h : ∃ s ∈ ss, p s) :
    ∃ pre s post, ss = pre ++ s :: post ∧ p s ∧ ∀ t ∈ post, ¬ p t := by
  induction ss with
  | nil =>
    obtain ⟨s, hs, -⟩ := h
    exact absurd hs List.not_mem_nil
  | cons a ss ih =>
    by_cases hss : ∃ s ∈ ss, p s
    · obtain ⟨pre, s, post, rfl, hs, hpost⟩ := ih hss
      exact ⟨a :: pre, s, post, rfl, hs, hpost⟩
    · obtain ⟨s, hs, hp⟩ := h
      rcases List.mem_cons.mp hs with rfl | hs
      · exact ⟨[], s, ss, rfl, hp, fun t ht hpt => hss ⟨t, ht, hpt⟩⟩
      · exact absurd ⟨s, hs, hp⟩ hss

/-! ### Padding -/

section Padding

variable (data : σ → α → Option β) (covers : σ → α → Prop) [∀ s x, Decidable (covers s x)] (z : β)

/-- The write of the data and of `z` at every other address that is covered. -/
def padded (s : σ) (x : α) : Option β :=
  (data s x).or (if covers s x then some z else none)

/-- The last data at `x` is not `z`, and a later item covers `x`. -/
def Stale (ss : List σ) (x : α) : Prop :=
  ∃ pre s post, ss = pre ++ s :: post ∧ (∃ b, data s x = some b ∧ b ≠ z) ∧
    (∀ t ∈ post, data t x = none) ∧ ∃ t ∈ post, covers t x

variable {data covers z} {ss : List σ} {x : α}

/-- Padding is written where there is no data. -/
theorem padded_of_none {s : σ} (h : data s x = none) :
    padded data covers z s x = if covers s x then some z else none := by
  rw [padded, h, Option.none_or]

theorem padded_of_some {s : σ} {b : β} (h : data s x = some b) :
    padded data covers z s x = some b := by
  rw [padded, h, Option.some_or]

/-- Without data only padding is written. -/
theorem padded_none_or {s : σ} (h : data s x = none) :
    padded data covers z s x = none ∨ padded data covers z s x = some z := by
  rw [padded_of_none h]
  split
  · exact .inr rfl
  · exact .inl rfl

/-- On a memory that starts out with the padding, writing the data only gives the same except at the
stale addresses. -/
theorem overlay_padded_iff :
    overlay (fun _ => z) (ss.map data) x = overlay (fun _ => z) (ss.map (padded data covers z)) x ↔
      ¬ Stale data covers z ss x := by
  constructor
  · -- the data stays, the padding hides it
    rintro heq ⟨pre, s, post, rfl, ⟨b, hb, hne⟩, hpost, t, ht, hcov⟩
    have hdata : overlay (fun _ => z) ((pre ++ s :: post).map data) x = b := by
      rw [List.map_append, List.map_cons]
      exact overlay_of_last hb (List.forall_mem_map.mpr hpost)
    have hpad : overlay (fun _ => z) ((pre ++ s :: post).map (padded data covers z)) x = z := by
      rw [List.map_append, List.map_cons, overlay_append, overlay_cons]
      refine overlay_of_const ?_ (.inr ⟨_, List.mem_map_of_mem ht, ?_⟩)
      · exact List.forall_mem_map.mpr fun v hv => padded_none_or (hpost v hv)
      · rw [padded_of_none (hpost t ht), if_pos hcov]
    exact hne (hdata.symm.trans (heq.trans hpad))
  · intro hstale
    -- the last data byte decides, and the padding behind it
    by_cases hsome : ∃ s ∈ ss, data s x ≠ none
    · obtain ⟨pre, s, post, rfl, hs, hpost⟩ := exists_last hsome
      replace hpost : ∀ t ∈ post, data t x = none := fun t ht => not_not.mp (hpost t ht)
      obtain ⟨b, hb⟩ := Option.ne_none_iff_exists'.mp hs
      rw [List.map_append, List.map_cons, List.map_append, List.map_cons,
        overlay_of_last hb (List.forall_mem_map.mpr hpost)]
      by_cases hcov : ∃ t ∈ post, covers t x
      · have hz : b = z := by
          by_contra hne
          exact hstale ⟨pre, s, post, rfl, ⟨b, hb, hne⟩, hpost, hcov⟩
        subst hz
        rw [overlay_append, overlay_cons]
        refine (overlay_of_const ?_ (.inl (patch_of_some (padded_of_some hb)))).symm
        exact List.forall_mem_map.mpr fun v hv => padded_none_or (hpost v hv)
      · refine (overlay_of_last (padded_of_some hb) ?_).symm
        refine List.forall_mem_map.mpr fun v hv => ?_
        rw [padded_of_none (hpost v hv), if_neg fun h => hcov ⟨v, hv, h⟩]
    · have hnone : ∀ s ∈ ss, data s x = none :=
        fun s hs => not_not.mp fun h => hsome ⟨s, hs, h⟩
      rw [overlay_of_none (List.forall_mem_map.mpr hnone)]
      refine (overlay_of_const (m := fun _ => z) ?_ (.inl rfl)).symm
      exact List.forall_mem_map.mpr fun v hv => padded_none_or (hnone v hv)

end Padding

end Memory

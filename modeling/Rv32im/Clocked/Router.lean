import Rv32im.Clocked.Channel

/-!
# Routing one port to several

A port whose requests go to several targets, at most one at a time: `route` names the target of a
request. The history of each target is the part of the port's history that is routed to it, with
the answers in the same places.

* `Routes`: the histories agree, and `pending` names the target that owes an answer;
* `Routes.step`: a cycle may retire the pending request and accept the next one;
* `Routes.owes_iff`: the target named by `pending` is the only one that owes an answer.
-/

namespace Clocked

variable {κ ρ τ : Type*} [DecidableEq κ]

/-- The histories of a port and of the targets behind it, of which `pending` owes an answer. -/
structure Routes (route : ρ → κ) (pending : Option κ) (port : Channel ρ τ)
    (target : κ → Channel ρ τ) : Prop where
  routed : ∀ t, (target t).accepted = port.accepted.filter (route · = t)
  returned : ∀ t,
    (target t).answered = (port.exchanges.filter (route ·.1 = t)).map Prod.snd
  idle : pending = none → port.Quiet
  busy : ∀ t, pending = some t → ∃ req, port.Owes req ∧ route req = t

namespace Routes

variable {route : ρ → κ} {pending : Option κ} {port : Channel ρ τ} {target : κ → Channel ρ τ}

/-- Nothing has been requested. -/
theorem init : Routes route none ({} : Channel ρ τ) fun _ => {} where
  routed _ := rfl
  returned _ := rfl
  idle _ := rfl
  busy _ h := by cases h

/-- At most one request is unanswered. -/
theorem length_le (h : Routes route pending port target) :
    port.answered.length ≤ port.accepted.length ∧
      port.accepted.length ≤ port.answered.length + 1 := by
  cases hp : pending with
  | none =>
    have hlen : port.accepted.length = port.answered.length := h.idle hp
    omega
  | some t =>
    obtain ⟨req, ⟨hlen, -⟩, -⟩ := h.busy t hp
    omega

/-- A target owes an answer exactly if it is the pending one. -/
theorem owes_iff (h : Routes route pending port target) (t : κ) :
    (target t).answered.length < (target t).accepted.length ↔ pending = some t := by
  rw [h.routed, h.returned, List.length_map]
  cases hp : pending with
  | none =>
    rw [(h.idle hp).accepted_eq, List.filter_map, List.length_map]
    simp [Function.comp_def]
  | some t' =>
    obtain ⟨req, howes, hreq⟩ := h.busy t' hp
    rw [howes.accepted_eq, List.filter_append, List.filter_map, List.length_append, List.length_map]
    by_cases ht : t' = t <;> simp [Function.comp_def, hreq, ht]

/-- The answer of a cycle, and the request it accepts if the slot is free by then. -/
theorem step (h : Routes route pending port target) {req : Option ρ} {rsp : Option τ}
    (hreq : req.isSome → pending = none ∨ rsp.isSome) (hrsp : rsp.isSome → pending.isSome) :
    Routes route (if req.isSome then req.map route else if rsp.isSome then none else pending)
      (port.step req rsp)
      fun t => (target t).step (req.filter (route · = t)) (if pending = some t then rsp else none)
    where
  routed t := by
    rw [Channel.accepted_step, Channel.accepted_step, h.routed, List.filter_append]
    cases req with
    | none => rfl
    | some r => by_cases hr : route r = t <;> simp [hr]
  returned t := by
    rw [Channel.answered_step, h.returned]
    cases rsp with
    | none =>
      have hex : (port.step req none).exchanges = port.exchanges := by
        cases hr : req with
        | none => rw [Channel.step_none_none]
        | some r =>
          have hp : pending = none := by simpa [hr] using hreq
          exact (h.idle hp).exchanges_step _
      simp [hex]
    | some a =>
      obtain ⟨t', hp⟩ := Option.isSome_iff_exists.mp (hrsp rfl)
      -- the answer belongs to the last request, which is routed to its owner
      obtain ⟨r, howes, rfl⟩ := h.busy t' hp
      rw [howes.exchanges_step, hp, List.filter_append, List.map_append]
      by_cases ht : route r = t <;> simp [ht]
  idle hnone := by
    cases hr : req with
    | some r => simp [hr] at hnone
    | none =>
      cases ha : rsp with
      | none =>
        have hp : pending = none := by simpa [hr, ha] using hnone
        simpa using h.idle hp
      | some a =>
        obtain ⟨t', hp⟩ := Option.isSome_iff_exists.mp (hrsp (by simp [ha]))
        obtain ⟨r, howes, -⟩ := h.busy t' hp
        exact howes.step_none_some a
  busy t hsome := by
    cases hr : req with
    | some r =>
      -- a new owner: the slot was free, or is freed by the answer
      refine ⟨r, ?_, by simpa [hr] using hsome⟩
      cases ha : rsp with
      | none =>
        have hp : pending = none := by simpa [hr, ha] using hreq
        exact (h.idle hp).step_some_none r
      | some a =>
        obtain ⟨t', hp⟩ := Option.isSome_iff_exists.mp (hrsp (by simp [ha]))
        obtain ⟨r', howes, -⟩ := h.busy t' hp
        exact howes.step_some_some r a
    | none =>
      cases ha : rsp with
      | none =>
        obtain ⟨r, howes, hroute⟩ := h.busy t (by simpa [hr, ha] using hsome)
        exact ⟨r, by simpa using howes, hroute⟩
      | some a => simp [hr, ha] at hsome

end Routes

end Clocked

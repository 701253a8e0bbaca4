import Mathlib.Data.List.Basic
import ChronyRs.Core.Lts

/-!
# A queue that is served in order

Requests wait in a queue of bounded length. The first one is answered or dropped, and all of them
may be dropped at once.

* `run_length`: the queue keeps its bound.
* `run_sublist`: the requests that were answered, and after them those that wait, are among those
  that were accepted, in their order.
-/
namespace ChronyRs

structure Service (α β : Type) where
  pending : List α
  answered : List (α × β)

namespace Service

variable {α β : Type} {cap : Nat}

def init : Service α β := ⟨[], []⟩

/-- A step, labelled with the request it accepts. -/
inductive Step (cap : Nat) : Service α β → Option α → Service α β → Prop
  | idle (s : Service α β) : Step cap s none s
  | accept (s : Service α β) (a : α) (h : s.pending.length < cap) :
      Step cap s (some a) { s with pending := s.pending ++ [a] }
  | drop (a : α) (rest : List α) (answered : List (α × β)) :
      Step cap ⟨a :: rest, answered⟩ none ⟨rest, answered⟩
  | answer (a : α) (rest : List α) (answered : List (α × β)) (b : β) :
      Step cap ⟨a :: rest, answered⟩ none ⟨rest, answered ++ [(a, b)]⟩
  | clear (s : Service α β) : Step cap s none { s with pending := [] }

variable {s : Service α β} {tr : List (Option α)}

theorem run_length (h : Run (Step cap) init tr s) :
    s.pending.length ≤ cap := by
  refine h.invariant (I := fun s => s.pending.length ≤ cap) (fun s e s' hs hstep => ?_)
    (Nat.zero_le _)
  cases hstep with
  | idle => exact hs
  | accept _ a hlt =>
    rw [List.length_append]
    exact hlt
  | drop a rest answered => exact Nat.le_of_succ_le hs
  | answer a rest answered b => exact Nat.le_of_succ_le hs
  | clear => exact Nat.zero_le _

/-- One step, behind the requests accepted so far. -/
theorem step_sublist {s' : Service α β} {e : Option α} {acc : List α} (h : Step cap s e s')
    (hs : (s.answered.map Prod.fst ++ s.pending).Sublist acc) :
    (s'.answered.map Prod.fst ++ s'.pending).Sublist (acc ++ e.toList) := by
  cases h with
  | idle => simpa using hs
  | accept _ a hlt =>
    rw [← List.append_assoc]
    exact hs.append (List.Sublist.refl _)
  | drop a rest answered =>
    rw [Option.toList_none, List.append_nil]
    exact (List.Sublist.append_left (List.sublist_cons_self a rest) _).trans hs
  | answer a rest answered b => simpa using hs
  | clear =>
    rw [Option.toList_none, List.append_nil, List.append_nil]
    exact (List.sublist_append_left _ _).trans hs

theorem run_sublist_of {s' : Service α β} (h : Run (Step cap) s tr s') {acc : List α}
    (hs : (s.answered.map Prod.fst ++ s.pending).Sublist acc) :
    (s'.answered.map Prod.fst ++ s'.pending).Sublist (acc ++ tr.filterMap id) := by
  induction h generalizing acc with
  | nil s => simpa using hs
  | @cons _ _ _ e tr h1 _ ih =>
    have h := ih (step_sublist h1 hs)
    cases e with
    | none => simpa using h
    | some a => simpa using h

theorem run_sublist (h : Run (Step cap) init tr s) :
    (s.answered.map Prod.fst ++ s.pending).Sublist (tr.filterMap id) :=
  run_sublist_of h (List.Sublist.refl [])

end Service

end ChronyRs

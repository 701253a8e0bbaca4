import ChronyRs.Core.Rust

/-!
# Loops with effects that may panic

`Trace.run f s as` calls a handler `f` on one input after the other, threads its state and
collects its effects. A panic ends the loop, and what was done before it, also inside the call
that panics, stays done. `Trace.visited` lists the calls, each with the state it starts in.

* `mem_run_iff`: the effects of a run are those of its calls.
-/
namespace ChronyRs.Trace

variable {σ α ε : Type}

def run (f : σ → α → List ε × Rust σ) : σ → List α → List ε × Rust σ
  | s, [] => ([], .ok s)
  | s, a :: as =>
    match f s a with
    | (effects, .error p) => (effects, .error p)
    | (effects, .ok s') => (effects ++ (run f s' as).1, (run f s' as).2)

def visited (f : σ → α → List ε × Rust σ) : σ → List α → List (σ × α)
  | _, [] => []
  | s, a :: as =>
    (s, a) :: match (f s a).2 with
      | .error _ => []
      | .ok s' => visited f s' as

variable {f : σ → α → List ε × Rust σ} {s : σ} {as : List α}

theorem mem_run_iff {e : ε} : e ∈ (run f s as).1 ↔ ∃ p ∈ visited f s as, e ∈ (f p.1 p.2).1 := by
  induction as generalizing s with
  | nil => exact iff_of_false List.not_mem_nil (fun ⟨_, hp, _⟩ => List.not_mem_nil hp)
  | cons a as ih =>
    unfold run visited
    cases hf : f s a with
    | mk effects r =>
      cases r with
      | error p => simp [hf]
      | ok s' => simp [hf, ih]

end ChronyRs.Trace

import Mathlib.Data.List.Basic

/-!
# Labelled transition systems

`Run step s tr s'`: from `s` the steps labelled `tr`, in order, lead to `s'`. An
invariant is proved of one step and lifted to runs by `Run.invariant`; a fact about
the labels of a run is proved on its segments (`Run.split`). A system whose steps are matched by
those of another has its runs matched (`Run.simulates`).
-/
namespace ChronyRs

inductive Run {σ ε : Type} (step : σ → ε → σ → Prop) : σ → List ε → σ → Prop
  | nil (s : σ) : Run step s [] s
  | cons {s s1 s' : σ} {e : ε} {tr : List ε} (h : step s e s1) (ht : Run step s1 tr s') :
      Run step s (e :: tr) s'

namespace Run

variable {σ ε : Type} {step : σ → ε → σ → Prop}

variable {s s' : σ} {tr : List ε}

theorem invariant {I : σ → Prop} (hstep : ∀ s e s', I s → step s e s' → I s') (h : Run step s tr s')
    (hs : I s) : I s' := by
  induction h with
  | nil => exact hs
  | cons h1 _ ih => exact ih (hstep _ _ _ hs h1)

theorem split {tr1 tr2 : List ε} (h : Run step s (tr1 ++ tr2) s') :
    ∃ s1, Run step s tr1 s1 ∧ Run step s1 tr2 s' := by
  induction tr1 generalizing s with
  | nil => exact ⟨s, .nil s, h⟩
  | cons e tr1 ih =>
    cases h with
    | cons h1 ht =>
      obtain ⟨s1, g1, g2⟩ := ih ht
      exact ⟨s1, .cons h1 g1, g2⟩

theorem append {s1 : σ} {tr1 tr2 : List ε} (h1 : Run step s tr1 s1) (h2 : Run step s1 tr2 s') :
    Run step s (tr1 ++ tr2) s' := by
  induction h1 with
  | nil => exact h2
  | cons h _ ih => exact .cons h (ih h2)

/-- An invariant of all steps but those labelled by `P`. -/
theorem invariant_unless {I : σ → Prop} (P : ε → Prop)
    (hstep : ∀ s e s', I s → step s e s' → ¬ P e → I s') (h : Run step s tr s') (hs : I s)
    (htr : ∀ e ∈ tr, ¬ P e) : I s' := by
  induction h with
  | nil => exact hs
  | cons h1 _ ih =>
    exact ih (hstep _ _ _ hs h1 (htr _ List.mem_cons_self))
      fun e he => htr e (List.mem_cons_of_mem _ he)

/-- A simulation, under a condition on the labels. -/
theorem simulates {τ η : Type} {step' : τ → η → τ → Prop} {R : σ → τ → Prop} {f : ε → η}
    {P : ε → Prop} (hsim : ∀ s e s' t, R s t → P e → step s e s' → ∃ t', step' t (f e) t' ∧ R s' t')
    (h : Run step s tr s') (htr : ∀ e ∈ tr, P e) {t : τ} (ht : R s t) :
    ∃ t', Run step' t (tr.map f) t' ∧ R s' t' := by
  induction h generalizing t with
  | nil s => exact ⟨t, .nil t, ht⟩
  | cons h1 _ ih =>
    obtain ⟨t1, hstep, ht1⟩ := hsim _ _ _ t ht (htr _ List.mem_cons_self) h1
    obtain ⟨t', hrun, ht'⟩ := ih (fun e he => htr e (List.mem_cons_of_mem _ he)) ht1
    exact ⟨t', .cons hstep hrun, ht'⟩

theorem of_foldlM {η : Type} {f : σ → ε → Except η σ} (h : tr.foldlM f s = .ok s') :
    Run (fun s e s' => f s e = .ok s') s tr s' := by
  induction tr generalizing s with
  | nil => cases h; exact .nil _
  | cons e tr ih =>
    rw [List.foldlM_cons] at h
    cases he : f s e with
    | error x => rw [he] at h; cases h
    | ok s1 => rw [he] at h; exact .cons he (ih h)

end Run

end ChronyRs

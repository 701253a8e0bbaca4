import Mathlib.Order.Defs.Unbundled

/-!
# Two stateful programs that match

`Matches R Q f g`: from states related by `R` the programs `f` and `g` give answers related by `Q`,
and states related by `R` again. `Reads R f` says of one program that it only reads: its answer is
the same in related states, and a state it leaves is related to whatever the one before it was.

* `Matches.bind`: programs that match are composed step by step.
* `Reads.matches_bind`: what both have read may be read a second time.
-/
namespace ChronyRs

variable {S T α β γ δ : Type}

def Matches (R : S → T → Prop) (Q : α → β → Prop) (f : StateM S α) (g : StateM T β) : Prop :=
  ∀ s t, R s t → Q (f s).1 (g t).1 ∧ R (f s).2 (g t).2

def Reads (R : S → S → Prop) (f : StateM S α) : Prop :=
  ∀ s t, R s t → (f s).1 = (f t).1 ∧ R s (f t).2

namespace Matches

variable {R : S → T → Prop} {Q : α → β → Prop}

theorem pure {a : α} {b : β} (h : Q a b) : Matches R Q (Pure.pure a) (Pure.pure b) :=
  fun _ _ hR => ⟨h, hR⟩

theorem bind {Q' : γ → δ → Prop} {f : StateM S α} {g : StateM T β} {k : α → StateM S γ}
    {l : β → StateM T δ} (h : Matches R Q f g) (hk : ∀ a b, Q a b → Matches R Q' (k a) (l b)) :
    Matches R Q' (f >>= k) (g >>= l) := fun s t hR =>
  have ⟨hQ, hR'⟩ := h s t hR
  hk _ _ hQ _ _ hR'

theorem refl (f : StateM S α) : Matches Eq Eq f f := by
  rintro s _ rfl
  exact ⟨rfl, rfl⟩

theorem ite {c : Prop} [Decidable c] {f f' : StateM S α} {g g' : StateM T β}
    (h : c → Matches R Q f g) (h' : ¬ c → Matches R Q f' g') :
    Matches R Q (if c then f else f') (if c then g else g') := by
  by_cases hc : c
  · rw [if_pos hc, if_pos hc]
    exact h hc
  · rw [if_neg hc, if_neg hc]
    exact h' hc

end Matches

namespace Reads

variable {R : S → S → Prop}

theorem of_matches {f : StateM S α} (hR : Equivalence R) (hf : Matches R Eq f f)
    (hstay : ∀ s, R s (f s).2) : Reads R f := fun s t hst =>
  ⟨(hf s t hst).1, hR.trans hst (hstay t)⟩

/-- Both sides read `f`, and what they were told is still true where they go on. -/
theorem matches_bind {Q : γ → δ → Prop} {f : StateM S α} {k : α → StateM S γ} {l : α → StateM S δ}
    (hR : Equivalence R) (hf : Reads R f)
    (h : ∀ a s t, R s t → (f t).1 = a → Q (k a s).1 (l a t).1 ∧ R (k a s).2 (l a t).2) :
    Matches R Q (f >>= k) (f >>= l) := by
  intro s t hst
  have hs : R s (f s).2 := (hf s s (hR.refl s)).2
  have ht : R t (f t).2 := (hf t t (hR.refl t)).2
  have hsame : (f s).1 = (f t).1 := (hf s t hst).1
  have hstill : (f (f t).2).1 = (f s).1 := by rw [hsame, ← (hf t _ ht).1]
  have hnext := h (f s).1 (f s).2 (f t).2 (hR.trans (hR.symm hs) (hf s t hst).2) hstill
  change Q (k (f s).1 (f s).2).1 (l (f t).1 (f t).2).1 ∧
    R (k (f s).1 (f s).2).2 (l (f t).1 (f t).2).2
  rw [← hsame]
  exact hnext

end Reads

end ChronyRs

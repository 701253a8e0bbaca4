import Mathlib.Order.Basic
import Mathlib.Tactic.Ring
import ChronyRs.Core.Lts

/-!
# Token buckets

A bucket holds at most `cap` tokens. A hit at a time refills it by at most `gain` of the time since
the last hit, a spending takes `cost` tokens, and tokens may be lost. `gain` need only be
superadditive over successive intervals.

* `run_bound`: in every run, `cost` times the number of spendings and what is left are no more than
  what was there and the gain between the first and the last hit.
-/
namespace ChronyRs.Bucket

variable {τ : Type} [Preorder τ] {cap cost : Nat} {gain : τ → τ → Nat}

/-- The tokens, and the time of the last hit. -/
structure Level (τ : Type) where
  tokens : Nat
  last : τ

/-- One event; the label says whether it was a spending. -/
inductive Step (cap cost : Nat) (gain : τ → τ → Nat) : Level τ → Bool → Level τ → Prop
  | hit {l : Level τ} {t : τ} {n : Nat} (hle : l.last ≤ t) (hcap : n ≤ cap)
      (hn : n ≤ l.tokens + gain l.last t) : Step cap cost gain l false ⟨n, t⟩
  | spend {l : Level τ} (h : cost ≤ l.tokens) : Step cap cost gain l true ⟨l.tokens - cost, l.last⟩
  | lose {l : Level τ} {n : Nat} (h : n ≤ l.tokens) : Step cap cost gain l false ⟨n, l.last⟩

def spent (cost : Nat) (b : Bool) : Nat := if b then cost else 0

theorem Step.bound (hself : ∀ t, gain t t = 0) {l l' : Level τ} {b : Bool}
    (h : Step cap cost gain l b l') :
    l.last ≤ l'.last ∧ spent cost b + l'.tokens ≤ l.tokens + gain l.last l'.last := by
  cases h with
  | hit hle _ hn => exact ⟨hle, by rw [spent, if_neg Bool.false_ne_true, Nat.zero_add]; exact hn⟩
  | spend h =>
    refine ⟨le_refl _, ?_⟩
    rw [spent, if_pos rfl, hself]
    dsimp only
    omega
  | lose h =>
    refine ⟨le_refl _, ?_⟩
    rw [spent, if_neg Bool.false_ne_true, hself]
    dsimp only
    omega

/-- **The bound.** -/
theorem run_bound (hself : ∀ t, gain t t = 0)
    (hadd : ∀ a b c, a ≤ b → b ≤ c → gain a b + gain b c ≤ gain a c) {l l' : Level τ}
    {tr : List Bool} (h : Run (Step cap cost gain) l tr l') :
    l.last ≤ l'.last ∧ tr.count true * cost + l'.tokens ≤ l.tokens + gain l.last l'.last := by
  induction h with
  | nil l => exact ⟨le_refl _, by simp⟩
  | @cons l l1 l' b tr h1 _ ih =>
    obtain ⟨hle1, hb1⟩ := h1.bound hself
    obtain ⟨hle2, hb2⟩ := ih
    refine ⟨hle1.trans hle2, ?_⟩
    have hsum := hadd _ _ _ hle1 hle2
    have hcount : (b :: tr).count true * cost = spent cost b + tr.count true * cost := by
      cases b with
      | true => rw [List.count_cons_self, spent, if_pos rfl, Nat.succ_mul, Nat.add_comm]
      | false =>
        rw [List.count_cons_of_ne (by decide), spent, if_neg Bool.false_ne_true, Nat.zero_add]
    omega

end ChronyRs.Bucket

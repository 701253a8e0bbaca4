import Mathlib.Data.Rat.Defs
import Mathlib.Data.Rat.Floor
import Mathlib.Algebra.Order.Ring.Rat
import Mathlib.Data.Nat.Sqrt

/-!
# Floating point as an interface

No result of this development rests on how `f64` rounds: clocks and delays are added, scaled and
compared, and a fraction of a second is turned into a word of a timestamp. `F64` is what the
modelled code asks of `f64`, without laws, so that every theorem about a type `F` with this
interface holds for IEEE doubles (NaNs included). The rationals are an instance for concrete runs.
-/
namespace ChronyRs

class F64 (F : Type) where
  /-- A decimal literal. -/
  lit : ℚ → F
  /-- `x as f64`. -/
  ofInt : Int → F
  add : F → F → F
  sub : F → F → F
  mul : F → F → F
  div : F → F → F
  lt : F → F → Bool
  le : F → F → Bool
  /-- `x as u32`. -/
  toU32 : F → UInt32
  /-- `util::log2_to_double`. -/
  log2ToDouble : Int → F

/-- `as u32` truncates and saturates; `util::log2_to_double` clamps its argument to
`-31..=31`. -/
instance : F64 ℚ where
  lit := id
  ofInt x := x
  add := (· + ·)
  sub := (· - ·)
  mul := (· * ·)
  div := (· / ·)
  lt a b := decide (a < b)
  le a b := decide (a ≤ b)
  toU32 x := UInt32.ofNat (min (2 ^ 32 - 1) x.floor.toNat)
  log2ToDouble l := (2 : ℚ) ^ (max (-31) (min 31 l))

/-- Comparisons that are those of a linear order, as among doubles that are not NaN. -/
class OrderedF64 (F : Type) [F64 F] [LinearOrder F] : Prop where
  lt_iff (a b : F) : F64.lt a b = true ↔ a < b
  le_iff (a b : F) : F64.le a b = true ↔ a ≤ b

instance : OrderedF64 ℚ where
  lt_iff _ _ := decide_eq_true_iff
  le_iff _ _ := decide_eq_true_iff

/-- What the clock discipline asks for in addition. -/
class F64Math (F : Type) extends F64 F where
  neg : F → F
  abs : F → F
  sqrt : F → F
  exp : F → F
  /-- `a == b`. -/
  eq : F → F → Bool
  /-- `x as i64`. -/
  toI64 : F → Int

/-- `as i64` truncates and saturates. Roots are rounded down to the grid of the denominator, and
the exponential is cut off after its linear term: no concrete run depends on either. -/
instance : F64Math ℚ where
  neg := (- ·)
  abs := (|·|)
  sqrt x := Nat.sqrt (x.num.toNat * x.den) / x.den
  exp x := 1 + x
  eq a b := decide (a = b)
  toI64 x := max (-2 ^ 63) (min (2 ^ 63 - 1) (if 0 ≤ x then x.floor else x.ceil))

/-! ## Rounding

What rounding to the nearest double keeps: bounds by integers that doubles represent exactly. -/

/-- An integer that a double represents exactly. -/
abbrev F64.Small (p : Int) : Prop := p.natAbs ≤ 2 ^ 53

section
variable {F : Type} [F64 F]

def F64.AtMost (x : F) (p : Int) : Prop := F64.Small p ∧ F64.le x (F64.lit p) = true

def F64.AtLeast (x : F) (p : Int) : Prop := F64.Small p ∧ F64.le (F64.lit p) x = true

end

open F64 in
/-- Arithmetic that rounds to the nearest double. -/
class RoundedF64 (F : Type) [F64Math F] : Prop where
  lit_atMost {q : ℚ} {p : Int} : Small p → q ≤ p → AtMost (lit q : F) p
  lit_atLeast {q : ℚ} {p : Int} : Small p → (p : ℚ) ≤ q → AtLeast (lit q : F) p
  ofInt_atMost {n p : Int} : Small p → n ≤ p → AtMost (ofInt n : F) p
  ofInt_atLeast {n p : Int} : Small p → p ≤ n → AtLeast (ofInt n : F) p
  atMost_of_lt {x : F} {q : ℚ} {p : Int} : Small p → q ≤ p → lt x (lit q) = true → AtMost x p
  atLeast_of_lt {x : F} {q : ℚ} {p : Int} : Small p → (p : ℚ) ≤ q →
    lt (lit q) x = true → AtLeast x p
  lt_of_lt {a b : F} {p q : Int} : AtMost a p → p < q → AtLeast b q → lt a b = true
  add_atMost {a b : F} {p q : Int} : Small (p + q) → AtMost a p → AtMost b q →
    AtMost (add a b) (p + q)
  add_atLeast {a b : F} {p q : Int} : Small (p + q) → AtLeast a p → AtLeast b q →
    AtLeast (add a b) (p + q)
  sub_atMost {a b : F} {p q : Int} : Small (p - q) → AtMost a p → AtLeast b q →
    AtMost (sub a b) (p - q)
  mul_within {a b : F} {p q : Int} : Small (p * q) → AtMost a p → AtLeast a (-p) → AtMost b q →
    AtLeast b (-q) → AtMost (mul a b) (p * q) ∧ AtLeast (mul a b) (-(p * q))
  toI64_le {x : F} {p : Int} : AtMost x p → F64Math.toI64 x ≤ p
  le_toI64 {x : F} {p : Int} : AtLeast x p → p ≤ F64Math.toI64 x
  /-- Truncation leaves less than one. -/
  fraction {x : F} : AtMost x (2 ^ 53) → AtLeast x (-2 ^ 53) →
    AtMost (sub x (ofInt (F64Math.toI64 x))) 1 ∧ AtLeast (sub x (ofInt (F64Math.toI64 x))) (-1)

namespace F64

variable {x : ℚ} {p : Int}

theorem atMost_rat : AtMost x p ↔ Small p ∧ x ≤ p := and_congr_right' decide_eq_true_iff

theorem atLeast_rat : AtLeast x p ↔ Small p ∧ p ≤ x := and_congr_right' decide_eq_true_iff

/-- The rationals' `as i64` without the saturation. -/
def truncate (x : ℚ) : Int := if 0 ≤ x then x.floor else x.ceil

theorem toI64_rat (x : ℚ) : F64Math.toI64 x = max (-2 ^ 63) (min (2 ^ 63 - 1) (truncate x)) := rfl

theorem truncate_le (h : x ≤ p) : truncate x ≤ p := by
  rw [truncate]
  split
  · exact_mod_cast (Rat.floor_le x).trans h
  · exact Rat.ceil_le_iff.2 h

theorem le_truncate (h : p ≤ x) : p ≤ truncate x := by
  rw [truncate]
  split
  · exact Rat.le_floor_iff.2 h
  · exact_mod_cast h.trans Rat.le_ceil

theorem sub_truncate (x : ℚ) : x - truncate x ≤ 1 ∧ -1 ≤ x - truncate x := by
  rw [truncate]
  split
  · have h1 := Rat.floor_le x
    have h2 := Rat.lt_floor (x := x)
    constructor <;> linarith
  · have h1 := Rat.le_ceil (x := x)
    have h2 := Rat.ceil_lt (x := x)
    constructor <;> linarith

end F64

open F64 in
instance : RoundedF64 ℚ where
  lit_atMost hp h := atMost_rat.2 ⟨hp, h⟩
  lit_atLeast hp h := atLeast_rat.2 ⟨hp, h⟩
  ofInt_atMost hp h := atMost_rat.2 ⟨hp, Int.cast_le.2 h⟩
  ofInt_atLeast hp h := atLeast_rat.2 ⟨hp, Int.cast_le.2 h⟩
  atMost_of_lt hp hq h := atMost_rat.2 ⟨hp, (of_decide_eq_true h).le.trans hq⟩
  atLeast_of_lt hp hq h := atLeast_rat.2 ⟨hp, hq.trans (of_decide_eq_true h).le⟩
  lt_of_lt ha h hb := decide_eq_true
    (((atMost_rat.1 ha).2.trans_lt (Int.cast_lt.2 h)).trans_le (atLeast_rat.1 hb).2)
  add_atMost h ha hb := atMost_rat.2 ⟨h, by
    rw [Int.cast_add]
    exact add_le_add (atMost_rat.1 ha).2 (atMost_rat.1 hb).2⟩
  add_atLeast h ha hb := atLeast_rat.2 ⟨h, by
    rw [Int.cast_add]
    exact add_le_add (atLeast_rat.1 ha).2 (atLeast_rat.1 hb).2⟩
  sub_atMost h ha hb := atMost_rat.2 ⟨h, by
    rw [Int.cast_sub]
    exact sub_le_sub (atMost_rat.1 ha).2 (atLeast_rat.1 hb).2⟩
  mul_within {a b p q} h ha ha' hb hb' := by
    simp only [atMost_rat, atLeast_rat, Int.cast_neg, Int.cast_mul] at *
    have hab : |a * b| ≤ p * q := by
      have ha : |a| ≤ p := abs_le.2 ⟨ha'.2, ha.2⟩
      rw [abs_mul]
      exact mul_le_mul ha (abs_le.2 ⟨hb'.2, hb.2⟩) (abs_nonneg b) ((abs_nonneg a).trans ha)
    exact ⟨⟨h, (abs_le.1 hab).2⟩, by omega, (abs_le.1 hab).1⟩
  toI64_le {x p} h := by
    have hp := h.1
    have := truncate_le (atMost_rat.1 h).2
    rw [toI64_rat]
    omega
  le_toI64 {x p} h := by
    have hp := h.1
    have := le_truncate (atLeast_rat.1 h).2
    rw [toI64_rat]
    omega
  fraction {x} hmost hleast := by
    have h1 := truncate_le (atMost_rat.1 hmost).2
    have h2 := le_truncate (atLeast_rat.1 hleast).2
    have hsub := sub_truncate x
    -- nothing is saturated
    have htrunc : F64Math.toI64 x = truncate x := by
      rw [toI64_rat]
      omega
    rw [htrunc, atMost_rat, atLeast_rat]
    exact ⟨⟨by decide, by exact_mod_cast hsub.1⟩, by decide, by exact_mod_cast hsub.2⟩

end ChronyRs

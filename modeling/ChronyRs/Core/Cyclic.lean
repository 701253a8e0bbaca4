import Mathlib.Algebra.Group.Basic
import Mathlib.Data.List.Basic
import Mathlib.Data.UInt

/-!
# Counters that wrap around

A counter that wraps has no order, only distances: `ahead b a` is how many ticks `a` is ahead of
`b`. `Ascending half l` says that the values `l` go up from the first one on, by less than `half`
a turn in all.

* `ahead_add`, `ahead_sub`, `ahead_swap`: distances add up as long as they stay below a turn.
* `Ascending.sublist`, `Ascending.insert`, `Ascending.cons`: dropping values, inserting one behind
  the first, inserting one before it.
-/
namespace ChronyRs

/-- A counter with `period` values. -/
class Dial (α : Type) [AddCommGroup α] where
  period : Nat
  val : α → Nat
  val_lt (a : α) : val a < period
  val_add (a b : α) : val (a + b) = (val a + val b) % period
  val_inj {a b : α} : val a = val b → a = b

instance : Dial UInt64 where
  period := 2 ^ 64
  val := UInt64.toNat
  val_lt := UInt64.toNat_lt
  val_add := UInt64.toNat_add
  val_inj := UInt64.toNat_inj.1

namespace Dial

variable {α : Type} [AddCommGroup α] [Dial α]

/-- How far `a` is ahead of `b`. -/
def ahead (b a : α) : Nat := val (a - b)

theorem ahead_lt (b a : α) : ahead b a < period α := val_lt _

theorem val_zero : val (0 : α) = 0 := by
  have h := val_add (0 : α) 0
  have h0 := val_lt (0 : α)
  rw [add_zero] at h
  rcases Nat.lt_or_ge (val (0 : α) + val (0 : α)) (period α) with hlt | hge
  · rw [Nat.mod_eq_of_lt hlt] at h
    omega
  · rw [Nat.mod_eq_sub_mod hge, Nat.mod_eq_of_lt (by omega)] at h
    omega

@[simp] theorem ahead_self (a : α) : ahead a a = 0 := by
  rw [ahead, sub_self, val_zero]

theorem ahead_eq_zero {a b : α} : ahead b a = 0 ↔ a = b := by
  constructor
  · intro h
    rw [ahead, ← val_zero (α := α)] at h
    exact sub_eq_zero.1 (val_inj h)
  · intro h
    rw [h, ahead_self]

theorem ahead_pos {a b : α} (h : a ≠ b) : 0 < ahead b a :=
  Nat.pos_of_ne_zero fun h0 => h (ahead_eq_zero.1 h0)

theorem ahead_trans (c b a : α) : ahead c a = (ahead b a + ahead c b) % period α := by
  rw [ahead, ahead, ahead, ← val_add, sub_add_sub_cancel]

theorem ahead_add {c b a : α} (h : ahead b a + ahead c b < period α) :
    ahead c a = ahead b a + ahead c b := by
  rw [ahead_trans c b a, Nat.mod_eq_of_lt h]

/-- Of two values ahead of `c`, the farther one is ahead of the nearer one by the difference. -/
theorem ahead_sub {c b a : α} (h : ahead c b ≤ ahead c a) : ahead b a = ahead c a - ahead c b := by
  have ht := ahead_trans c b a
  have h1 := ahead_lt b a
  have h2 := ahead_lt c b
  have h3 := ahead_lt c a
  rcases Nat.lt_or_ge (ahead b a + ahead c b) (period α) with hlt | hge
  · rw [Nat.mod_eq_of_lt hlt] at ht
    omega
  · rw [Nat.mod_eq_sub_mod hge, Nat.mod_eq_of_lt (by omega)] at ht
    omega

theorem ahead_swap {a b : α} (h : a ≠ b) : ahead a b = period α - ahead b a := by
  have ht := ahead_trans a b a
  have h1 := ahead_lt b a
  have h2 := ahead_lt a b
  have hp := ahead_pos h
  rw [ahead_self] at ht
  rcases Nat.lt_or_ge (ahead b a + ahead a b) (period α) with hlt | hge
  · rw [Nat.mod_eq_of_lt hlt] at ht
    omega
  · rw [Nat.mod_eq_sub_mod hge, Nat.mod_eq_of_lt (by omega)] at ht
    omega

theorem ahead_inj {c b a : α} (h : ahead c a = ahead c b) : a = b := by
  have h0 := ahead_sub h.ge
  rw [h, Nat.sub_self] at h0
  exact ahead_eq_zero.1 h0

/-! ## Ascending values -/

/-- The values go up from `b` on, by less than `half` in all. -/
def From (half : Nat) (b : α) (l : List α) : Prop :=
  l.Pairwise (fun x y => ahead b x < ahead b y) ∧ ∀ x ∈ l, ahead b x < half

/-- The values go up from the first one on, by less than `half` in all. -/
def Ascending (half : Nat) : List α → Prop
  | [] => True
  | b :: l => From half b (b :: l)

variable {half : Nat} {l l' : List α} {a b c : α}

theorem From.sublist (h : From half b l) (hs : l'.Sublist l) : From half b l' :=
  ⟨h.1.sublist hs, fun x hx => h.2 x (hs.subset hx)⟩

/-- Every value of an ascending run can serve as the origin of those behind it. -/
theorem From.rebase (h : From half c (b :: l)) : From half b (b :: l) := by
  obtain ⟨hp, hb⟩ := h
  have hle : ∀ x ∈ b :: l, ahead c b ≤ ahead c x := by
    intro x hx
    rcases List.mem_cons.1 hx with rfl | hx
    · exact Nat.le_refl _
    · exact (List.rel_of_pairwise_cons hp hx).le
  refine ⟨hp.imp_of_mem ?_, ?_⟩
  · intro x y hx hy hxy
    rw [ahead_sub (hle x hx), ahead_sub (hle y hy)]
    have := hle x hx
    omega
  · intro x hx
    rw [ahead_sub (hle x hx)]
    have := hb x hx
    omega

theorem From.ascending (h : From half c l) : Ascending half l := by
  cases l with
  | nil => trivial
  | cons b l => exact h.rebase

theorem Ascending.sublist (h : Ascending half l) (hs : l'.Sublist l) : Ascending half l' := by
  cases l with
  | nil =>
    rw [List.sublist_nil.1 hs]
    trivial
  | cons b l => exact (From.sublist h hs).ascending

theorem Ascending.nodup (h : Ascending half l) : l.Nodup := by
  cases l with
  | nil => exact List.nodup_nil
  | cons b l =>
    refine h.1.imp ?_
    intro x y hxy he
    rw [he] at hxy
    exact Nat.lt_irrefl _ hxy

/-- A value that fits between two parts of the run, behind the first one. -/
theorem Ascending.insert {p q : List α} (h : Ascending half (b :: (p ++ q))) (ha : ahead b a < half)
    (hp : ∀ x ∈ b :: p, ahead b x < ahead b a)
    (hq : ∀ x ∈ q, ahead b a < ahead b x) : Ascending half (b :: (p ++ a :: q)) := by
  obtain ⟨hpw, hb⟩ := h
  rw [← List.cons_append, List.pairwise_append] at hpw
  refine ⟨?_, ?_⟩
  · rw [← List.cons_append, List.pairwise_append]
    refine ⟨hpw.1, List.pairwise_cons.2 ⟨hq, hpw.2.1⟩, ?_⟩
    intro x hx y hy
    rcases List.mem_cons.1 hy with rfl | hy
    · exact hp x hx
    · exact hpw.2.2 x hx y hy
  · intro x hx
    rw [← List.cons_append] at hx hb
    rcases List.mem_append.1 hx with hx | hx
    · exact hb x (List.mem_append_left _ hx)
    rcases List.mem_cons.1 hx with rfl | hx
    · exact ha
    · exact hb x (List.mem_append_right _ hx)

/-- A value at least `half` a turn ahead of the first one is before it. -/
theorem ahead_before (hhalf : period α = 2 * half) (hb : half ≤ ahead b a) (hc : ahead b c < half) :
    ahead a c = ahead b c + (period α - ahead b a) := by
  have hne : a ≠ b := by
    intro h
    rw [h, ahead_self] at hb
    have := ahead_lt b c
    omega
  have hab := ahead_swap hne
  rw [← hab]
  apply ahead_add
  rw [hab]
  omega

/-- A value before the first one, with the others close enough to it. -/
theorem Ascending.cons (hhalf : period α = 2 * half) (h : Ascending half (b :: l))
    (hb : half ≤ ahead b a) (hl : ∀ x ∈ b :: l, ahead a x < half) :
    Ascending half (a :: b :: l) := by
  have hd : ∀ x ∈ b :: l, ahead a x = ahead b x + (period α - ahead b a) :=
    fun x hx => ahead_before hhalf hb (h.2 x hx)
  have hlt := ahead_lt b a
  refine ⟨List.pairwise_cons.2 ⟨?_, h.1.imp_of_mem ?_⟩, ?_⟩
  · intro x hx
    rw [ahead_self, hd x hx]
    omega
  · intro x y hx hy hxy
    rw [hd x hx, hd y hy]
    omega
  · intro x hx
    rcases List.mem_cons.1 hx with rfl | hx
    · rw [ahead_self]
      have := hl b List.mem_cons_self
      omega
    · exact hl x hx

end Dial

end ChronyRs

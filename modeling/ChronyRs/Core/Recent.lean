import Mathlib.Data.List.Basic

/-!
# Rings that are written slot after slot

`slot m last k` is the slot of the value written `k` writes before the last one, in a ring of `m`
slots whose last write went to slot `last`. `Recent xs last n hist`: the last `n` values of the
history `hist` (the newest first) are still in their slots.

* `Recent.shrink`: fewer values need fewer slots.
* `Recent.push`: one more value is written, and none of the others lost, while there is room.
-/
namespace ChronyRs

def slot (m last k : Nat) : Nat := (last + m - k) % m

variable {α β : Type} {m last n k : Nat}

theorem slot_lt (hm : 0 < m) : slot m last k < m := Nat.mod_lt _ hm

theorem slot_zero (h : last < m) : slot m last 0 = last := by
  rw [slot, Nat.sub_zero, Nat.add_mod_right, Nat.mod_eq_of_lt h]

/-- After one more write everything is one write older. -/
theorem slot_succ (hlast : last < m) (hk : k < m) :
    slot m ((last + 1) % m) (k + 1) = slot m last k := by
  unfold slot
  rcases Nat.lt_or_ge (last + 1) m with h | h
  · rw [Nat.mod_eq_of_lt h]
    congr 1
    omega
  · have hm : last + 1 = m := by omega
    rw [hm, Nat.mod_self, show last + m - k = (0 + m - (k + 1)) + m by omega, Nat.add_mod_right]

theorem slot_ne (hlast : last < m) (hk : 0 < k) (hkm : k < m) : slot m last k ≠ last := by
  unfold slot
  rcases Nat.lt_or_ge last k with h | h
  · rw [Nat.mod_eq_of_lt (by omega)]
    omega
  · rw [show last + m - k = (last - k) + m by omega, Nat.add_mod_right, Nat.mod_eq_of_lt (by omega)]
    omega

def Recent (xs : List α) (last n : Nat) (hist : List α) : Prop :=
  ∀ k < n, xs[slot xs.length last k]? = hist[k]?

namespace Recent

variable {xs hist : List α}

theorem shrink (h : Recent xs last n hist) {n' : Nat} (hn : n' ≤ n) : Recent xs last n' hist :=
  fun k hk => h k (Nat.lt_of_lt_of_le hk hn)

theorem zero (xs : List α) (last : Nat) (hist : List α) : Recent xs last 0 hist := nofun

theorem push (h : Recent xs last n hist) (hlast : last < xs.length) (hn : n < xs.length) (x : α) :
    Recent (xs.set ((last + 1) % xs.length) x) ((last + 1) % xs.length) (n + 1) (x :: hist) := by
  intro k hk
  have hnew : (last + 1) % xs.length < xs.length := Nat.mod_lt _ (by omega)
  rw [List.length_set]
  cases k with
  | zero => rw [slot_zero hnew, List.getElem?_set_self hnew, List.getElem?_cons_zero]
  | succ k =>
    have hne := slot_ne hnew (Nat.succ_pos k) (show k + 1 < xs.length by omega)
    rw [List.getElem?_set_ne hne.symm, slot_succ hlast (by omega), List.getElem?_cons_succ]
    exact h k (by omega)

end Recent

end ChronyRs

import Mathlib.Data.List.Rotate
import Mathlib.Data.Nat.ModEq

/-!
# Ring buffers over a list of slots

`ring xs i n` is the content of a ring whose slots are `xs`, with `n` elements from
slot `i` on. Storing behind the last element appends to it, advancing `i` removes
its head, and no other slot is part of it.
-/
namespace ChronyRs

variable {α : Type}

def ring (xs : List α) (i n : Nat) : List α := (xs.rotate i).take n

@[simp] theorem ring_zero (xs : List α) (i : Nat) : ring xs i 0 = [] := rfl

variable {xs : List α} {i n k m : Nat}

theorem ring_length (h : n ≤ xs.length) : (ring xs i n).length = n := by
  simp [ring, h]

theorem ring_getElem? (hn : n ≤ xs.length) (hk : k < n) :
    (ring xs i n)[k]? = xs[(i + k) % xs.length]? := by
  rw [ring, List.getElem?_take_of_lt hk, List.getElem?_rotate (by omega), Nat.add_comm]

/-- Two offsets below the capacity reach different slots. -/
theorem slot_inj (hn : n < m) (hk : k < m) (h : (i + n) % m = (i + k) % m) : n = k := by
  have := Nat.ModEq.add_left_cancel' i (show Nat.ModEq m (i + n) (i + k) from h)
  rwa [Nat.ModEq, Nat.mod_eq_of_lt hn, Nat.mod_eq_of_lt hk] at this

/-- Storing in the slot behind the last element. -/
theorem ring_push (hm : xs.length = m) (hn : n < m) (x : α) :
    ring (xs.set ((i + n) % m) x) i (n + 1) = ring xs i n ++ [x] := by
  subst hm
  apply List.ext_getElem
  · rw [ring_length (by rw [List.length_set]; omega), List.length_append,
      ring_length (by omega)]; rfl
  · intro k h1 h2
    rw [ring_length (by rw [List.length_set]; omega)] at h1
    have hpos : 0 < xs.length := by omega
    simp only [ring, List.getElem_take, List.getElem_rotate, List.length_set, List.getElem_set]
    by_cases hk : k = n
    · subst hk
      rw [if_pos (by rw [Nat.add_comm]), List.getElem_append_right (by simp)]
      simp
    · have hne : (i + n) % xs.length ≠ (k + i) % xs.length := by
        intro he
        rw [Nat.add_comm k i] at he
        exact hk (slot_inj hn (by omega) he).symm
      rw [if_neg hne, List.getElem_append_left (by simp; omega)]
      simp only [List.getElem_take, List.getElem_rotate]

theorem ring_pop (hm : xs.length = m) (hi : i < m) (hn : n < m) (d : α) :
    ring xs i (n + 1) = xs.getD i d :: ring xs ((i + 1) % m) n := by
  subst hm
  rw [List.getD_eq_getElem?_getD, List.getElem?_eq_getElem hi, Option.getD_some]
  apply List.ext_getElem
  · rw [ring_length (by omega), List.length_cons, ring_length (by omega)]
  · intro k h1 h2
    cases k with
    | zero => simp [ring, List.getElem_rotate, Nat.mod_eq_of_lt hi]
    | succ k =>
      simp only [ring, List.getElem_take, List.getElem_rotate, List.getElem_cons_succ,
        Nat.add_mod_mod]
      congr 2
      omega

theorem ring_set (hn : n ≤ xs.length) (hk : k < n) (x : α) :
    ring (xs.set ((i + k) % xs.length) x) i n = (ring xs i n).set k x := by
  apply List.ext_getElem?
  intro j
  rcases Nat.lt_or_ge j n with hj | hj
  · rw [ring_getElem? (by rwa [List.length_set]) hj, List.getElem?_set, List.length_set,
      List.getElem?_set, ring_length hn, ring_getElem? hn hj]
    by_cases hkj : k = j
    · subst hkj
      rw [if_pos rfl, if_pos rfl, if_pos (Nat.mod_lt _ (by omega)), if_pos hk]
    · rw [if_neg fun he => hkj (slot_inj (by omega) (by omega) he), if_neg hkj]
  · rw [List.getElem?_eq_none, List.getElem?_eq_none]
    · rw [List.length_set, ring_length hn]
      exact hj
    · rw [ring_length (by rwa [List.length_set])]
      exact hj

theorem ring_take (hk : k ≤ n) : ring xs i k = (ring xs i n).take k := by
  rw [ring, ring, List.take_take, Nat.min_eq_left hk]

/-- Advancing the first slot of a full ring: the old head becomes the last element. -/
theorem ring_rotate :
    ring xs ((i + 1) % xs.length) xs.length = (ring xs i xs.length).rotate 1 := by
  simp only [ring]
  rw [List.take_of_length_le (by simp), List.take_of_length_le (by simp), List.rotate_mod,
    List.rotate_rotate]

end ChronyRs

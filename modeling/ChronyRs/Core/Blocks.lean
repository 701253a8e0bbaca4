import Mathlib.Data.List.Basic

/-!
# The blocks of a list

`full n l` are the full blocks of `n` elements of `l` in order, and `rest n l` is what is behind
them. Whoever takes a list in pieces and hands on every block as it fills holds exactly these:

* `append`: of a list with more behind it, only `rest` is looked at again.
-/
namespace ChronyRs.Blocks

variable {α : Type} {n : Nat} {a b l : List α}

def full (n : Nat) (l : List α) : List (List α) :=
  (List.range (l.length / n)).map fun i => (l.drop (n * i)).take n

def rest (n : Nat) (l : List α) : List α := l.drop (n * (l.length / n))

theorem full_of_lt (h : l.length < n) : full n l = [] := by simp [full, Nat.div_eq_of_lt h]

theorem rest_of_lt (h : l.length < n) : rest n l = l := by simp [rest, Nat.div_eq_of_lt h]

theorem length_rest (n : Nat) (l : List α) : (rest n l).length = l.length % n := by
  rw [rest, List.length_drop, Nat.mod_eq_sub]

theorem length_div_block (hn : 0 < n) (h : a.length = n) (l : List α) :
    (a ++ l).length / n = l.length / n + 1 := by
  rw [List.length_append, h, Nat.add_comm, Nat.add_div_right _ hn]

theorem drop_block (h : a.length = n) (l : List α) (k : Nat) :
    (a ++ l).drop (n * (k + 1)) = l.drop (n * k) := by
  rw [Nat.mul_succ, Nat.add_comm, ← List.drop_drop, List.drop_left' h]

theorem full_cons (hn : 0 < n) (h : a.length = n) (l : List α) :
    full n (a ++ l) = a :: full n l := by
  rw [full, length_div_block hn h, List.range_succ_eq_map, List.map_cons, List.map_map,
    Nat.mul_zero, List.drop_zero, List.take_left' h]
  congr 1
  refine List.map_congr_left fun i _ => ?_
  rw [Function.comp_apply, drop_block h]

theorem rest_cons (hn : 0 < n) (h : a.length = n) (l : List α) : rest n (a ++ l) = rest n l := by
  rw [rest, length_div_block hn h, drop_block h, rest]

/-- By induction on the length of `a`, block by block. -/
theorem append (hn : 0 < n) (a b : List α) :
    full n (a ++ b) = full n a ++ full n (rest n a ++ b) ∧ rest n (a ++ b) =
      rest n (rest n a ++ b) := by
  induction hl : a.length using Nat.strongRecOn generalizing a with
  | _ k ih =>
    by_cases hk : a.length < n
    · rw [full_of_lt hk, rest_of_lt hk]
      exact ⟨rfl, rfl⟩
    · have hb : (a.take n).length = n := by rw [List.length_take]; omega
      obtain ⟨h1, h2⟩ := ih (a.drop n).length (by rw [List.length_drop]; omega) (a.drop n) rfl
      rw [← List.take_append_drop n a, List.append_assoc, full_cons hn hb, full_cons hn hb,
        rest_cons hn hb, rest_cons hn hb, h1, h2]
      exact ⟨rfl, rfl⟩

end ChronyRs.Blocks

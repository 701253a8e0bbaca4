import Mathlib.Data.Finset.Card
import Mathlib.Data.Finset.Interval
import Mathlib.Order.Interval.Finset.Nat

/-!
# Hash tables of fixed-size buckets

A table of `n` buckets of `w` places each, stored one after the other in a list. A place is empty
or holds an element with a key (`key x = none` or `key x = some k`). `Table` says that every
element is in the bucket of its key's hash, that the elements of a bucket are at its front, and
that no key occurs twice.

* `Table.replicate`, `Table.set_same`, `Table.set_new`: an empty table, a change that keeps the
  key, an element stored in its bucket.
* `Table.room`: while the elements of a table are moved to one with twice as many buckets, there
  is room for the next one.
-/
namespace ChronyRs.Buckets

variable {α κ : Type} {key : α → Option κ} {hash : κ → Nat} {w n : Nat} {xs : List α}

structure Table (key : α → Option κ) (hash : κ → Nat) (w : Nat) (xs : List α) (n : Nat) : Prop where
  length_eq : xs.length = n * w
  placed : ∀ (i : Nat) x k, xs[i]? = some x → key x = some k → i / w = hash k % n
  filled : ∀ (i j : Nat) x, i ≤ j → i / w = j / w → xs[j]? = some x → key x ≠ none →
    ∃ y, xs[i]? = some y ∧ key y ≠ none
  distinct : ∀ (i j : Nat) x y k, xs[i]? = some x → xs[j]? = some y → key x = some k →
    key y = some k → i = j

theorem Table.of_empty (hl : xs.length = n * w) (h : ∀ x ∈ xs, key x = none) :
    Table key hash w xs n := by
  have hk : ∀ (i : Nat) x, xs[i]? = some x → key x = none :=
    fun i x hx => h x (List.mem_of_getElem? hx)
  refine ⟨hl, ?_, ?_, ?_⟩
  · intro i x k hx hkey
    rw [hk i x hx] at hkey
    cases hkey
  · intro i j x _ _ hx hne
    exact absurd (hk j x hx) hne
  · intro i j x y k hx _ hkey
    rw [hk i x hx] at hkey
    cases hkey

theorem Table.replicate {e : α} (he : key e = none) (n : Nat) :
    Table key hash w (List.replicate (n * w) e) n :=
  .of_empty List.length_replicate fun x hx => by rw [List.eq_of_mem_replicate hx, he]

theorem Table.set_same (h : Table key hash w xs n) {i : Nat} {x y : α} (hx : xs[i]? = some x)
    (hy : key y = key x) : Table key hash w (xs.set i y) n := by
  -- every place has the key it had
  have old : ∀ (j : Nat) z, (xs.set i y)[j]? = some z → ∃ z', xs[j]? = some z' ∧
      key z' = key z := by
    intro j z hz
    by_cases hij : i = j
    · subst hij
      rw [List.getElem?_set_self (List.getElem?_eq_some_iff.1 hx).1] at hz
      cases hz
      exact ⟨x, hx, hy.symm⟩
    · rw [List.getElem?_set_ne hij] at hz
      exact ⟨z, hz, rfl⟩
  refine ⟨by rw [List.length_set, h.length_eq], ?_, ?_, ?_⟩
  · intro j z k hz hk
    obtain ⟨z', hz', he⟩ := old j z hz
    exact h.placed j z' k hz' (he.trans hk)
  · intro a b z hab hw hz hne
    obtain ⟨z', hz', he⟩ := old b z hz
    obtain ⟨u, hu, hune⟩ := h.filled a b z' hab hw hz' (by rwa [he])
    by_cases hia : i = a
    · subst hia
      rw [hx] at hu
      cases hu
      exact ⟨y, List.getElem?_set_self (List.getElem?_eq_some_iff.1 hx).1, by rwa [hy]⟩
    · exact ⟨u, by rwa [List.getElem?_set_ne hia], hune⟩
  · intro a b z u k hz hu hkz hku
    obtain ⟨z', hz', he⟩ := old a z hz
    obtain ⟨u', hu', he'⟩ := old b u hu
    exact h.distinct a b z' u' k hz' hu' (he.trans hkz) (he'.trans hku)

/-- An element with a new key, stored in the bucket of its hash, behind other elements only. -/
theorem Table.set_new (h : Table key hash w xs n) {i : Nat} {y : α} {k : κ} (hi : i < xs.length)
    (hy : key y = some k) (hplace : i / w = hash k % n)
    (hnew : ∀ (j : Nat) z, j / w = i / w → xs[j]? = some z → key z ≠ some k)
    (hbefore : ∀ j, j < i → j / w = i / w → ∃ z, xs[j]? = some z ∧ key z ≠ none) :
    Table key hash w (xs.set i y) n := by
  -- the key is nowhere else either: it would be in this bucket
  have fresh : ∀ (j : Nat) z, xs[j]? = some z → key z ≠ some k := by
    intro j z hz hk
    exact hnew j z ((h.placed j z k hz hk).trans hplace.symm) hz hk
  refine ⟨by rw [List.length_set, h.length_eq], ?_, ?_, ?_⟩
  · intro j z k' hz hk
    by_cases hij : i = j
    · subst hij
      rw [List.getElem?_set_self hi] at hz
      cases hz
      rw [hy] at hk
      cases hk
      exact hplace
    · rw [List.getElem?_set_ne hij] at hz
      exact h.placed j z k' hz hk
  · intro a b z hab hw hz hne
    by_cases hia : i = a
    · subst hia
      exact ⟨y, List.getElem?_set_self hi, by rw [hy]; nofun⟩
    rw [List.getElem?_set_ne hia]
    by_cases hib : i = b
    · subst hib
      exact hbefore a (by omega) hw
    · rw [List.getElem?_set_ne hib] at hz
      exact h.filled a b z hab hw hz hne
  · intro a b z u k' hz hu hkz hku
    by_cases hia : i = a
    · subst hia
      rw [List.getElem?_set_self hi] at hz
      cases hz
      rw [hy] at hkz
      cases hkz
      by_cases hib : i = b
      · exact hib
      · rw [List.getElem?_set_ne hib] at hu
        exact absurd hku (fresh b u hu)
    · rw [List.getElem?_set_ne hia] at hz
      by_cases hib : i = b
      · subst hib
        rw [List.getElem?_set_self hi] at hu
        cases hu
        rw [hy] at hku
        cases hku
        exact absurd hkz (fresh a z hz)
      · rw [List.getElem?_set_ne hib] at hu
        exact h.distinct a b z u k' hz hu hkz hku

/-- **Room when the table is doubled.** If `ys`, with twice as many buckets, holds keys of `xs`
only, and not `k`, which is in `xs` too, then the bucket of `k` in `ys` has an empty place: the keys
in it and `k` were all in one bucket of `xs`. -/
theorem Table.room {ys : List α} (h : Table key hash w xs n) (h' : Table key hash w ys (2 * n))
    (hw : 0 < w) {k : κ} (hk : ∃ x ∈ xs, key x = some k)
    (hsub : ∀ y ∈ ys, ∀ k', key y = some k' → k' ≠ k ∧ ∃ x ∈ xs, key x = some k') :
    ∃ j, j < w ∧ ∀ y, ys[hash k % (2 * n) * w + j]? = some y → key y = none := by
  by_contra hfull
  have hfull' : ∀ j : Nat, j < w →
      ∃ y, ys[hash k % (2 * n) * w + j]? = some y ∧ key y ≠ none := by
    intro j hj
    by_contra hne
    exact hfull ⟨j, hj, fun y hy => by_contra fun h1 => hne ⟨y, hy, h1⟩⟩
  -- where each of them was
  have hat : ∀ k', (∃ x ∈ xs, key x = some k') → ∃ (i : Nat) (x : α), xs[i]? = some x ∧
      key x = some k' := by
    intro k' hx
    obtain ⟨x, hmem, hx⟩ := hx
    obtain ⟨i, hi⟩ := List.mem_iff_getElem?.1 hmem
    exact ⟨i, x, hi, hx⟩
  have hwas : ∀ j, ∃ (k' : κ) (i : Nat) (x : α), xs[i]? = some x ∧ key x = some k' ∧
      hash k' % n = hash k % n ∧
      (j < w → k' ≠ k ∧ ∃ y, ys[hash k % (2 * n) * w + j]? = some y ∧ key y = some k') ∧
      (¬ j < w → k' = k) := by
    intro j
    by_cases hj : j < w
    · obtain ⟨y, hy, hne⟩ := hfull' j hj
      obtain ⟨k', hk'⟩ := Option.ne_none_iff_exists'.1 hne
      obtain ⟨hkk, hx⟩ := hsub y (List.mem_of_getElem? hy) k' hk'
      obtain ⟨i, x, hi, hx⟩ := hat k' hx
      have hp := h'.placed _ y k' hy hk'
      have hb : (hash k % (2 * n) * w + j) / w = hash k % (2 * n) := by
        rw [Nat.mul_comm, Nat.mul_add_div hw, Nat.div_eq_of_lt hj, Nat.add_zero]
      refine ⟨k', i, x, hi, hx, ?_, fun _ => ⟨hkk, y, hy, hk'⟩, fun hj' => absurd hj hj'⟩
      rw [hb] at hp
      rw [← Nat.mod_mul_left_mod (hash k') 2 n, ← hp, Nat.mod_mul_left_mod]
    · obtain ⟨i, x, hi, hx⟩ := hat k hk
      exact ⟨k, i, x, hi, hx, rfl, fun hj' => absurd hj' hj, fun _ => rfl⟩
  choose kOf iOf xOf hx hkey hhash hlt hge using hwas
  have hmaps : ∀ j ∈ Finset.range (w + 1),
      iOf j ∈ Finset.Ico (hash k % n * w) (hash k % n * w + w) := by
    intro j _
    have hp := h.placed _ _ _ (hx j) (hkey j)
    rw [hhash] at hp
    rw [Finset.mem_Ico, ← hp]
    have h1 := Nat.div_mul_le_self (iOf j) w
    have h2 := Nat.lt_div_mul_add hw (a := iOf j)
    exact ⟨h1, h2⟩
  obtain ⟨a, ha, b, hb, hne, heq⟩ := Finset.exists_ne_map_eq_of_card_lt_of_maps_to
    (by rw [Finset.card_range, Nat.card_Ico]; omega) hmaps
  -- two of them shared a place, hence a key
  have hkk : kOf a = kOf b := by
    have h1 := hkey a
    have h2 := hkey b
    have hx1 := hx a
    rw [heq, hx b] at hx1
    rw [← Option.some.inj hx1, h2] at h1
    exact (Option.some.inj h1).symm
  rw [Finset.mem_range] at ha hb
  rcases Nat.lt_or_ge a w with haw | haw
  · obtain ⟨hka, y, hy, hky⟩ := hlt a haw
    rcases Nat.lt_or_ge b w with hbw | hbw
    · obtain ⟨-, z, hz, hkz⟩ := hlt b hbw
      have := h'.distinct _ _ y z _ hy hz hky (hkk ▸ hkz)
      omega
    · exact hka (hkk.trans (hge b (by omega)))
  · have hbw : b < w := by omega
    exact (hlt b hbw).1 (hkk.symm.trans (hge a (by omega)))

end ChronyRs.Buckets

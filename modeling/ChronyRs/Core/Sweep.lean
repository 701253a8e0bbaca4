import Mathlib.Algebra.Order.Group.Defs
import Mathlib.Algebra.Order.Group.Nat
import Mathlib.Algebra.BigOperators.Group.List.Basic
import Mathlib.Algebra.Order.BigOperators.Group.List
import Mathlib.Data.Nat.Find
import Mathlib.Order.Bounds.Basic

/-!
# Where weighted intervals overlap most

The ends of closed intervals are visited in order, the openings at a point before the closings. An
end carries the weight of its interval, negative where the interval closes. The sweep keeps the sum
of the open intervals, its maximum so far, and the points where the maximum was reached first and
left last.

* `Peak f best lo hi`: `best` is the maximum of `f`, taken first at `lo` and last at `hi`.
* `sweep_peak`: the sweep over the sorted ends finds the peak of the weight over the points.
-/
namespace ChronyRs.Sweeping

/-- The maximum of `f`, and the smallest and the largest point where it is attained. -/
structure Peak {α G : Type} [LinearOrder α] [LinearOrder G] (f : α → G) (best : G)
    (lo hi : α) : Prop where
  greatest : IsGreatest (Set.range f) best
  first : IsLeast {x | f x = best} lo
  last : IsGreatest {x | f x = best} hi

theorem Peak.unique {α G : Type} [LinearOrder α] [LinearOrder G] {f : α → G} {b b' : G}
    {lo lo' hi hi' : α} (h : Peak f b lo hi)
    (h' : Peak f b' lo' hi') : b = b' ∧ lo = lo' ∧ hi = hi' := by
  obtain rfl := h.greatest.unique h'.greatest
  exact ⟨rfl, h.first.unique h'.first, h.last.unique h'.last⟩

structure State (α G : Type) where
  sum : G
  best : G
  lo : α
  hi : α

variable {α G : Type} {L : List (α × G)} {s : State α G} {k : Nat} {e : α × G}

theorem filter_eq_take {p : α × G → Prop} [DecidablePred p] (h : L.Pairwise fun a b => p b → p a) :
    ∃ k ≤ L.length, L.filter p = L.take k ∧ ∀ j e, L[j]? = some e → (j < k ↔ p e) := by
  induction L with
  | nil => exact ⟨0, le_refl 0, rfl, fun j e he => by simp at he⟩
  | cons a L ih =>
    obtain ⟨ha, hL⟩ := List.pairwise_cons.1 h
    by_cases hp : p a
    · obtain ⟨k, hk, htake, hiff⟩ := ih hL
      refine ⟨k + 1, Nat.succ_le_succ hk, by simp [hp, htake], fun j e he => ?_⟩
      cases j with
      | zero =>
        cases he
        exact iff_of_true (Nat.succ_pos k) hp
      | succ j => exact Nat.succ_lt_succ_iff.trans (hiff j e he)
    · have hnone : ∀ e ∈ a :: L, ¬ p e := by
        intro e he hpe
        rcases List.mem_cons.1 he with rfl | he
        · exact hp hpe
        · exact hp (ha e he hpe)
      refine ⟨0, Nat.zero_le _, ?_, fun j e he => ?_⟩
      · simpa using hnone
      · exact iff_of_false (Nat.not_lt_zero j) (hnone e (List.mem_of_getElem? he))

variable [AddCommGroup G]

/-- The weight of the intervals open after the first `k` ends. -/
def running (L : List (α × G)) (k : Nat) : G := ((L.take k).map Prod.snd).sum

theorem running_zero : running L 0 = 0 := rfl

theorem running_succ (h : L[k]? = some e) : running L (k + 1) = running L k + e.2 := by
  simp [running, List.take_add_one, h]

variable [LinearOrder G]

def step (s : State α G) (e : α × G) : State α G :=
  if 0 < e.2 then
    if s.best < s.sum + e.2 then { s with sum := s.sum + e.2, best := s.sum + e.2, lo := e.1 }
    else { s with sum := s.sum + e.2 }
  else { s with sum := s.sum + e.2, hi := if s.sum = s.best then e.1 else s.hi }

/-! ## The sweep -/

/-- What the sweep knows after `k` ends. -/
structure Swept (L : List (α × G)) (k : Nat) (s : State α G) : Prop where
  sum : s.sum = running L k
  le : ∀ j ≤ k, running L j ≤ s.best
  attained : ∃ j ≤ k, running L j = s.best
  lo : ∀ j e, j < k → L[j]? = some e → running L (j + 1) = s.best →
    (∀ i ≤ j, running L i < s.best) → e.1 = s.lo
  hi : ∀ m e, m < k → L[m]? = some e → e.2 < 0 → running L m = s.best →
    (∀ i e', m < i → i < k → L[i]? = some e' → e'.2 < 0 → running L i ≠ s.best) → e.1 = s.hi

theorem swept_zero (lo hi : α) : Swept L 0 ⟨0, 0, lo, hi⟩ where
  sum := running_zero.symm
  le j hj := by simp [Nat.le_zero.1 hj, running_zero]
  attained := ⟨0, le_refl 0, running_zero⟩
  lo j e hj := absurd hj (Nat.not_lt_zero j)
  hi m e hm := absurd hm (Nat.not_lt_zero m)

/-- An opening that leads to a new maximum. -/
theorem Swept.raise (h : Swept L k s) (he : L[k]? = some e) (hlt : s.best < s.sum + e.2) :
    Swept L (k + 1) { s with sum := s.sum + e.2, best := s.sum + e.2, lo := e.1 } := by
  have hsum : s.sum + e.2 = running L (k + 1) := by rw [running_succ he, h.sum]
  have hbelow : ∀ j ≤ k, running L j < s.sum + e.2 := fun j hj => (h.le j hj).trans_lt hlt
  refine ⟨hsum, fun j hj => ?_, ⟨k + 1, le_refl _, hsum.symm⟩, fun j e' hj he' hb hfirst => ?_,
    fun m e' hm _ _ hb _ => absurd hb (hbelow m (Nat.lt_succ_iff.1 hm)).ne⟩
  · rcases Nat.lt_succ_iff_lt_or_eq.1 (Nat.lt_succ_iff.2 hj) with hlt' | rfl
    · exact (hbelow j (Nat.lt_succ_iff.1 hlt')).le
    · exact hsum.ge
  · -- no earlier prefix has the new maximum
    rcases Nat.lt_succ_iff_lt_or_eq.1 hj with hlt' | rfl
    · exact absurd hb (hbelow (j + 1) hlt').ne
    · rw [he] at he'
      cases he'
      rfl

/-- An end that leaves the maximum as it is. -/
theorem Swept.keep (h : Swept L k s) (he : L[k]? = some e) (hle : s.sum + e.2 ≤ s.best) {hi : α}
    (hhi : e.2 < 0 → s.sum = s.best → e.1 = hi) (hhi' : ¬ (e.2 < 0 ∧ s.sum = s.best) → s.hi = hi) :
    Swept L (k + 1) { s with sum := s.sum + e.2, hi := hi } := by
  have hsum : s.sum + e.2 = running L (k + 1) := by rw [running_succ he, h.sum]
  obtain ⟨j0, hj0, hb0⟩ := h.attained
  refine ⟨hsum, fun j hj => ?_, ⟨j0, Nat.le_succ_of_le hj0, hb0⟩, fun j e' hj he' hb hfirst => ?_,
    fun m e' hm he' hneg hb hlast => ?_⟩
  · rcases Nat.lt_succ_iff_lt_or_eq.1 (Nat.lt_succ_iff.2 hj) with hlt' | rfl
    · exact h.le j (Nat.lt_succ_iff.1 hlt')
    · exact hsum.symm.le.trans hle
  · rcases Nat.lt_succ_iff_lt_or_eq.1 hj with hlt' | rfl
    · exact h.lo j e' hlt' he' hb hfirst
    · exact absurd hb0 (hfirst j0 hj0).ne
  · rcases Nat.lt_succ_iff_lt_or_eq.1 hm with hlt' | rfl
    · -- the last closing at the maximum is not this one
      have hnot : ¬ (e.2 < 0 ∧ s.sum = s.best) := fun hn =>
        hlast k e hlt' (Nat.lt_succ_self k) he hn.1 (h.sum ▸ hn.2)
      rw [← hhi' hnot]
      exact h.hi m e' hlt' he' hneg hb fun i e'' h1 h2 => hlast i e'' h1 (Nat.lt_succ_of_lt h2)
    · rw [he] at he'
      cases he'
      exact hhi hneg (h.sum.trans hb)

section
variable [IsOrderedAddMonoid G]

theorem Swept.step (h : Swept L k s) (he : L[k]? = some e) (hne : e.2 ≠ 0) :
    Swept L (k + 1) (step s e) := by
  unfold Sweeping.step
  split
  · rename_i hpos
    split
    · rename_i hlt
      exact h.raise he hlt
    · rename_i hlt
      exact h.keep he (not_lt.1 hlt) (fun hneg => absurd hneg hpos.asymm) fun _ => rfl
  · rename_i hpos
    have hneg : e.2 < 0 := lt_of_le_of_ne (not_lt.1 hpos) hne
    have hle : s.sum ≤ s.best := h.sum ▸ h.le k (le_refl k)
    refine h.keep he ((add_lt_of_neg_right _ hneg).le.trans hle)
      (fun _ hb => (if_pos hb).symm) fun hn => ?_
    exact (if_neg fun hb => hn ⟨hneg, hb⟩).symm

theorem swept_foldl (hne : ∀ e ∈ L, e.2 ≠ 0) (lo hi : α) : ∀ k ≤ L.length,
    Swept L k ((L.take k).foldl step ⟨0, 0, lo, hi⟩) := by
  intro k
  induction k with
  | zero => exact fun _ => swept_zero lo hi
  | succ k ih =>
    intro hk
    have he : L[k]? = some L[k] := List.getElem?_eq_getElem hk
    have h := (ih (Nat.le_of_succ_le hk)).step he (hne _ (List.getElem_mem hk))
    rwa [List.take_add_one, he, Option.toList_some, List.foldl_concat]

end

/-! ## Points and prefixes -/

variable [LinearOrder α]

/-- The end is passed when the point `x` is reached: what opens at `x` is, what closes there is
not. -/
def Passed (x : α) (e : α × G) : Prop := e.1 < x ∨ e.1 = x ∧ 0 < e.2

instance (x : α) (e : α × G) : Decidable (Passed x e) := inferInstanceAs (Decidable (_ ∨ _))

/-- The weight of the intervals that contain `x`. -/
def weightAt (L : List (α × G)) (x : α) : G := ((L.filter fun e => Passed x e).map Prod.snd).sum

/-- By position, and at one position the openings first. -/
def Precedes (a b : α × G) : Prop := a.1 < b.1 ∨ a.1 = b.1 ∧ (0 < a.2 ∨ b.2 < 0)

theorem Precedes.le {a b : α × G} (h : Precedes a b) : a.1 ≤ b.1 := by
  rcases h with h | h
  · exact h.le
  · exact h.1.le

/-- The ends passed at a point are a prefix. -/
theorem prefix_at (hsorted : L.Pairwise Precedes) (x : α) :
    ∃ k ≤ L.length, weightAt L x = running L k ∧ ∀ j e, L[j]? = some e → (j < k ↔ Passed x e) := by
  have hclosed : L.Pairwise fun a b => Passed x b → Passed x a := by
    refine hsorted.imp fun {a b} hab hb => ?_
    rcases hab with hab | ⟨hab, hsign⟩
    · rcases hb with hb | ⟨rfl, -⟩
      · exact .inl (hab.trans hb)
      · exact .inl hab
    · rcases hb with hb | ⟨hb, hpos⟩
      · exact .inl (hab ▸ hb)
      · exact .inr ⟨hab.trans hb, hsign.resolve_right hpos.asymm⟩
  obtain ⟨k, hk, htake, hiff⟩ := filter_eq_take (p := Passed x) hclosed
  exact ⟨k, hk, by rw [weightAt, htake, running], hiff⟩

theorem precedes_of_lt (hsorted : L.Pairwise Precedes) {i j : Nat} {a b : α × G} (hij : i < j)
    (ha : L[i]? = some a) (hb : L[j]? = some b) : Precedes a b := by
  obtain ⟨hi, rfl⟩ := List.getElem?_eq_some_iff.1 ha
  obtain ⟨hj, rfl⟩ := List.getElem?_eq_some_iff.1 hb
  exact List.pairwise_iff_getElem.1 hsorted i j hi hj hij

theorem weightAt_perm {L' : List (α × G)} (h : L.Perm L') : weightAt L = weightAt L' :=
  funext fun _ => ((h.filter _).map _).sum_eq

/-! ## The peak -/

/-- Ends in order that open something and close it again. -/
structure Closing (L : List (α × G)) : Prop where
  sorted : L.Pairwise Precedes
  ne_zero : ∀ e ∈ L, e.2 ≠ 0
  closed : running L L.length = 0
  opens : ∃ k ≤ L.length, 0 < running L k

section
variable (hL : Closing L) (h : Swept L L.length s)
include hL h

theorem best_pos : 0 < s.best := by
  obtain ⟨k, hk, hpos⟩ := hL.opens
  exact hpos.trans_le (h.le k hk)

theorem weightAt_le (x : α) : weightAt L x ≤ s.best := by
  obtain ⟨k, hk, hw, -⟩ := prefix_at hL.sorted x
  rw [hw]
  exact h.le k hk

variable [IsOrderedAddMonoid G]

/-- After a maximal prefix comes a closing. -/
theorem closing_next (hk : k ≤ L.length) (hb : running L k = s.best) :
    ∃ e, L[k]? = some e ∧ e.2 < 0 := by
  have hlt : k < L.length := by
    refine lt_of_le_of_ne hk ?_
    intro he
    rw [he, hL.closed] at hb
    exact (best_pos hL h).ne hb
  have he : L[k]? = some L[k] := List.getElem?_eq_getElem hlt
  refine ⟨L[k], he, lt_of_le_of_ne (not_lt.1 fun hpos => ?_) (hL.ne_zero _ (List.getElem_mem hlt))⟩
  have hle := h.le (k + 1) hlt
  rw [running_succ he, hb] at hle
  exact (lt_add_of_pos_right _ hpos).not_ge hle

/-- The first maximal prefix ends with an opening at `lo`. -/
theorem first_prefix : ∃ j e, L[j]? = some e ∧ 0 < e.2 ∧ e.1 = s.lo ∧ running L (j + 1) = s.best ∧
    ∀ i ≤ j, running L i < s.best := by
  have hex : ∃ j, j ≤ L.length ∧ running L j = s.best := h.attained
  have hfind := Nat.find_spec hex
  have hmin : ∀ i < Nat.find hex, running L i < s.best := by
    intro i hi
    have hile : i ≤ L.length := hi.le.trans hfind.1
    exact lt_of_le_of_ne (h.le i hile) fun hb => Nat.find_min hex hi ⟨hile, hb⟩
  cases hj : Nat.find hex with
  | zero =>
    rw [hj, running_zero] at hfind
    exact absurd hfind.2 (best_pos hL h).ne
  | succ j =>
    rw [hj] at hfind hmin
    have he : L[j]? = some L[j] := List.getElem?_eq_getElem hfind.1
    have hbelow : ∀ i ≤ j, running L i < s.best := fun i hi => hmin i (Nat.lt_succ_of_le hi)
    refine ⟨j, L[j], he, ?_, h.lo j L[j] hfind.1 he hfind.2 hbelow, hfind.2, hbelow⟩
    have hlt := hbelow j (le_refl j)
    rw [← hfind.2, running_succ he] at hlt
    exact pos_of_lt_add_right hlt

/-- The last closing after a maximal prefix is at `hi`. -/
theorem last_prefix : ∃ m e, L[m]? = some e ∧ e.2 < 0 ∧ e.1 = s.hi ∧ running L m = s.best ∧
    ∀ i ≤ L.length, running L i = s.best → i ≤ m := by
  classical
  obtain ⟨j, hj, hb⟩ := h.attained
  have hspec := Nat.findGreatest_spec (P := fun i => running L i = s.best) hj hb
  have hmax : ∀ i ≤ L.length, running L i = s.best →
      i ≤ Nat.findGreatest (fun i => running L i = s.best) L.length := fun i hi hbi =>
    Nat.le_findGreatest hi hbi
  obtain ⟨e, he, hneg⟩ := closing_next hL h (Nat.findGreatest_le _) hspec
  have hlt := (List.getElem?_eq_some_iff.1 he).1
  refine ⟨_, e, he, hneg, h.hi _ e hlt he hneg hspec fun i e' h1 h2 _ _ hbi => ?_, hspec, hmax⟩
  exact (hmax i h2.le hbi).not_gt h1

theorem weightAt_lo : weightAt L s.lo = s.best := by
  obtain ⟨j, e, he, hpos, hlo, hb, -⟩ := first_prefix hL h
  obtain ⟨k, hk, hw, hiff⟩ := prefix_at hL.sorted s.lo
  have hjk : j < k := (hiff j e he).2 (.inr ⟨hlo, hpos⟩)
  rcases Nat.eq_or_lt_of_le (Nat.succ_le_of_lt hjk) with hk' | hlt
  · rw [hw, ← hk', hb]
  · -- a second opening there would lead above the maximum
    exfalso
    have hj1 : j + 1 < L.length := hlt.trans_le hk
    have he' : L[j + 1]? = some L[j + 1] := List.getElem?_eq_getElem hj1
    have hle := (precedes_of_lt hL.sorted (Nat.lt_succ_self j) he he').le
    rcases (hiff _ _ he').1 hlt with hbefore | ⟨-, hpos'⟩
    · exact absurd (hlo ▸ hle) hbefore.not_ge
    · have hover := h.le (j + 2) hj1
      rw [running_succ he', hb] at hover
      exact (lt_add_of_pos_right _ hpos').not_ge hover

theorem lo_le {x : α} (hx : weightAt L x = s.best) : s.lo ≤ x := by
  obtain ⟨j, e, he, -, hlo, -, hfirst⟩ := first_prefix hL h
  obtain ⟨k, -, hw, hiff⟩ := prefix_at hL.sorted x
  have hjk : j < k := by
    by_contra hle
    exact (hfirst k (not_lt.1 hle)).ne (hw ▸ hx)
  rw [← hlo]
  rcases (hiff j e he).1 hjk with hlt | ⟨heq, -⟩
  · exact hlt.le
  · exact heq.le

theorem weightAt_hi : weightAt L s.hi = s.best := by
  obtain ⟨m, e, he, hneg, hhi, hb, -⟩ := last_prefix hL h
  obtain ⟨k, hk, hw, hiff⟩ := prefix_at hL.sorted s.hi
  have hkm : k ≤ m := by
    refine not_lt.1 fun hmk => ?_
    rcases (hiff m e he).1 hmk with hlt | ⟨-, hpos⟩
    · exact absurd hhi hlt.ne
    · exact hpos.asymm hneg
  have hm : m ≤ L.length := (List.getElem?_eq_some_iff.1 he).1.le
  -- the end before is an opening, so that what comes before it at this point opens as well
  have hmk : m ≤ k := by
    refine not_lt.1 fun hkm' => ?_
    obtain ⟨m', rfl⟩ : ∃ m', m = m' + 1 := ⟨m - 1, by omega⟩
    have ha : L[m']? = some L[m'] := List.getElem?_eq_getElem hm
    have hpos : 0 < (L[m']).2 := by
      by_contra hnpos
      have hle := h.le m' (Nat.le_of_succ_le hm)
      rw [← hb, running_succ ha] at hle
      exact hnpos (lt_of_le_of_ne (nonneg_of_le_add_right hle)
        (hL.ne_zero _ (List.getElem_mem hm)).symm)
    have hc : L[k]? = some L[k] := List.getElem?_eq_getElem (hkm'.trans_le hm)
    refine lt_irrefl k ((hiff k _ hc).2 ?_)
    have hce := precedes_of_lt hL.sorted hkm' hc he
    rcases lt_or_eq_of_le hce.le with hlt | heq
    · exact .inl (hhi ▸ hlt)
    · refine .inr ⟨heq.trans hhi, ?_⟩
      rcases Nat.eq_or_lt_of_le (Nat.lt_succ_iff.1 hkm') with rfl | hlt
      · exact hpos
      · have hca := precedes_of_lt hL.sorted hlt hc ha
        have hae := precedes_of_lt hL.sorted (Nat.lt_succ_self m') ha he
        rcases hca with hlt' | ⟨-, hc' | hneg'⟩
        · exact absurd (hlt'.trans_le hae.le) (heq ▸ lt_irrefl _)
        · exact hc'
        · exact absurd hneg' hpos.asymm
  rw [hw, Nat.le_antisymm hkm hmk, hb]

theorem le_hi {x : α} (hx : weightAt L x = s.best) : x ≤ s.hi := by
  obtain ⟨m, e, he, -, hhi, -, hmax⟩ := last_prefix hL h
  obtain ⟨k, hk, hw, hiff⟩ := prefix_at hL.sorted x
  have hb : running L k = s.best := hw ▸ hx
  obtain ⟨c, hc, -⟩ := closing_next hL h hk hb
  have hxc : x ≤ c.1 := not_lt.1 fun hlt => lt_irrefl k ((hiff k c hc).2 (.inl hlt))
  rcases Nat.eq_or_lt_of_le (hmax k hk hb) with rfl | hlt
  · rw [he] at hc
    cases hc
    exact hhi ▸ hxc
  · exact hhi ▸ hxc.trans (precedes_of_lt hL.sorted hlt hc he).le

theorem swept_peak : Peak (weightAt L) s.best s.lo s.hi :=
  ⟨⟨⟨s.lo, weightAt_lo hL h⟩, by
      rintro _ ⟨x, rfl⟩
      exact weightAt_le hL h x⟩,
    ⟨weightAt_lo hL h, fun _ hx => lo_le hL h hx⟩, ⟨weightAt_hi hL h, fun _ hx => le_hi hL h hx⟩⟩

end

variable [IsOrderedAddMonoid G]

/-- **The sweep finds the peak.** -/
theorem sweep_peak (hL : Closing L) (lo hi : α) :
    Peak (weightAt L) (L.foldl step ⟨0, 0, lo, hi⟩).best (L.foldl step ⟨0, 0, lo, hi⟩).lo
      (L.foldl step ⟨0, 0, lo, hi⟩).hi := by
  have h := swept_foldl hL.ne_zero lo hi L.length (le_refl _)
  rw [List.take_length] at h
  exact swept_peak hL h

/-! ## Intervals -/

structure Interval (α G : Type) where
  lo : α
  hi : α
  weight : G

def Interval.ends (v : Interval α G) : List (α × G) := [(v.lo, v.weight), (v.hi, -v.weight)]

/-- The weight of the intervals that contain `x`. -/
def cover (vs : List (Interval α G)) (x : α) : G :=
  ((vs.filter fun v => v.lo ≤ x ∧ x ≤ v.hi).map Interval.weight).sum

theorem weightAt_ends {vs : List (Interval α G)} (hvs : ∀ v ∈ vs, v.lo ≤ v.hi ∧ 0 < v.weight) :
    weightAt (vs.flatMap Interval.ends) = cover vs := by
  funext x
  induction vs with
  | nil => rfl
  | cons v vs ih =>
    have hv := hvs v List.mem_cons_self
    have ih := ih fun v' hv' => hvs v' (List.mem_cons_of_mem _ hv')
    have hone : weightAt v.ends x = cover [v] x := by
      have hpos : ¬ 0 < -v.weight := (neg_neg_of_pos hv.2).asymm
      simp only [weightAt, Interval.ends, cover, Passed, List.filter_cons,
        List.filter_nil, hv.2, hpos]
      rcases lt_trichotomy v.lo x with hlo | hlo | hlo
      · rcases lt_or_ge v.hi x with hhi | hhi
        · simp [hlo, hhi, hhi.not_ge]
        · simp [hlo, hlo.le, hhi, hhi.not_gt]
      · have hhi : x ≤ v.hi := hlo ▸ hv.1
        simp [hlo, hhi, hhi.not_gt]
      · have hhi : ¬ v.hi < x := (hlo.trans_le hv.1).asymm
        simp [hlo.asymm, hlo.ne', hlo.not_ge, hhi]
    rw [List.flatMap_cons, weightAt, List.filter_append, List.map_append, List.sum_append]
    rw [← weightAt, ← weightAt, ih, hone, cover, cover, cover, ← List.sum_append, ← List.map_append,
      ← List.filter_append]
    rfl

theorem closing_of_perm {vs : List (Interval α G)} (hvs : ∀ v ∈ vs, v.lo ≤ v.hi ∧ 0 < v.weight)
    (hne : vs ≠ []) (hperm : L.Perm (vs.flatMap Interval.ends)) (hsorted : L.Pairwise Precedes) :
      Closing L := by
  refine ⟨hsorted, fun e he => ?_, ?_, ?_⟩
  · obtain ⟨v, hv, he⟩ := List.mem_flatMap.1 (hperm.mem_iff.1 he)
    rcases List.mem_cons.1 he with rfl | he
    · exact (hvs v hv).2.ne'
    · rw [List.mem_singleton.1 he]
      exact (neg_neg_of_pos (hvs v hv).2).ne
  · rw [running, List.take_length, (hperm.map _).sum_eq]
    clear hperm hne hvs
    induction vs with
    | nil => rfl
    | cons v vs ih => simpa [Interval.ends] using ih
  · obtain ⟨v, vs, rfl⟩ := List.exists_cons_of_ne_nil hne
    obtain ⟨k, hk, hw, -⟩ := prefix_at hsorted v.lo
    refine ⟨k, hk, ?_⟩
    have hv := hvs v List.mem_cons_self
    rw [← hw, weightAt_perm hperm, weightAt_ends hvs, cover, List.filter_cons_of_pos
      (by simpa using hv.1), List.map_cons, List.sum_cons]
    refine add_pos_of_pos_of_nonneg hv.2 (List.sum_nonneg fun w hw => ?_)
    obtain ⟨v', hv', rfl⟩ := List.mem_map.1 hw
    exact (hvs v' (List.mem_cons_of_mem _ (List.mem_of_mem_filter hv'))).2.le

end ChronyRs.Sweeping

import Mathlib.Algebra.Order.Group.Synonym
import Mathlib.Algebra.Order.Monoid.Prod
import Mathlib.Algebra.Order.Group.Int
import ChronyRs.Core.Sweep
import ChronyRs.L5Sources.Passes

/-!
# The intersection of the sources' intervals

The pass of `select_source` that finds falsetickers, over an arbitrary linear order. A point is
ranked by the number of trusted sources whose interval contains it, and then by the number of
sources.

* `intersect_peak`: the pass finds the highest rank, and the first and the last point of this rank;
  it is an instance of `Sweeping`.
* `falseticker_sweep`: the result does not depend on the order of the sources, the majority test is
  about points in more than half of the intervals, and with a majority there is a source to admit.
-/
namespace ChronyRs.L5.Sources

open Sweeping

variable {F : Type} {sources : List (SrcInstance F)}

/-! ## The pass as a sweep -/

def toEnd (trusted : Nat → Bool) (e : SortElement F) : F × (ℤ ×ₗ ℤ) :=
  (e.offset, match e.tag with
    | .low => toLex (if trusted e.index then 1 else 0, 1)
    | .high => -toLex (if trusted e.index then 1 else 0, 1))

def Sweep.toState (w : Sweep F) : State F (ℤ ×ₗ ℤ) :=
  ⟨toLex (w.trustDepth, w.depth), toLex (w.bestTrustDepth, w.bestDepth), w.bestLo, w.bestHi⟩

theorem weight_pos (b : Bool) : 0 < (toLex ((if b then 1 else 0 : ℤ), (1 : ℤ)) : ℤ ×ₗ ℤ) := by
  cases b <;> decide

theorem sweepStep_toState (trusted : Nat → Bool) (w : Sweep F) (e : SortElement F) :
    (sweepStep trusted w e).toState = step w.toState (toEnd trusted e) := by
  have hpos := weight_pos (trusted e.index)
  cases htag : e.tag with
  | low =>
    have hsum : w.toState.sum + toLex ((if trusted e.index then 1 else 0 : ℤ), (1 : ℤ)) =
        toLex (if trusted e.index then w.trustDepth + 1 else w.trustDepth, w.depth + 1) := by
      cases trusted e.index <;> simp [Sweep.toState, ← toLex_add]
    simp only [sweepStep, step, toEnd, htag, if_pos hpos, hsum]
    generalize (if trusted e.index then w.trustDepth + 1 else w.trustDepth) = td
    have hlt : w.toState.best < toLex (td, w.depth + 1) ↔
        w.bestTrustDepth < td ∨ (td = w.bestTrustDepth ∧ w.bestDepth < w.depth + 1) := by
      rw [Sweep.toState, Prod.Lex.toLex_lt_toLex]
      simp [eq_comm]
    simp only [hlt]
    split
    · rename_i hbest
      have htd : (if w.bestTrustDepth < td then td else w.bestTrustDepth) = td := by
        rcases hbest with h | h
        · rw [if_pos h]
        · rw [h.1, if_neg (lt_irrefl _)]
      simp [Sweep.toState, htd]
    · simp [Sweep.toState]
  | high =>
    have hneg : ¬ 0 < -toLex ((if trusted e.index then 1 else 0 : ℤ), (1 : ℤ)) :=
      (neg_neg_of_pos hpos).asymm
    have hsum : w.toState.sum + -toLex ((if trusted e.index then 1 else 0 : ℤ), (1 : ℤ)) =
        toLex (if trusted e.index then w.trustDepth - 1 else w.trustDepth, w.depth - 1) := by
      cases trusted e.index <;> simp [Sweep.toState, ← toLex_add, ← toLex_neg, sub_eq_add_neg]
    have heq : w.toState.sum = w.toState.best ↔ w.trustDepth = w.bestTrustDepth ∧
        w.depth = w.bestDepth := by
      simp [Sweep.toState]
    simp only [sweepStep, step, toEnd, htag, if_neg hneg, hsum, heq]
    simp [Sweep.toState]

theorem foldl_toState (trusted : Nat → Bool) (l : List (SortElement F)) (w : Sweep F) :
    (l.foldl (sweepStep trusted) w).toState = (l.map (toEnd trusted)).foldl step w.toState := by
  induction l generalizing w with
  | nil => rfl
  | cons e l ih => rw [List.foldl_cons, ih, sweepStep_toState, List.map_cons, List.foldl_cons]

/-! ## The ends of the intervals -/

/-- The interval of a source; a trusted one weighs more than any number of others. -/
def intervalOf (s : SrcInstance F) : Interval F (ℤ ×ₗ ℤ) :=
  ⟨s.selInfo.loLimit, s.selInfo.hiLimit, toLex (if s.has trust then 1 else 0, 1)⟩

def intervals (sources : List (SrcInstance F)) : List (Interval F (ℤ ×ₗ ℤ)) :=
  (sources.filter (·.status = .ok)).map intervalOf

/-- The ends in the order of the table. -/
theorem sortList_ends (sources : List (SrcInstance F)) :
    (sortList sources).map (toEnd (isTrusted sources)) =
      (intervals sources).flatMap Interval.ends := by
  have hends : ∀ p ∈ sources.zipIdx,
      (if p.1.status = .ok then
          [⟨p.2, p.1.selInfo.loLimit, .low⟩, ⟨p.2, p.1.selInfo.hiLimit, .high⟩]
        else ([] : List (SortElement F))).map (toEnd (isTrusted sources)) =
      if p.1.status = .ok then (intervalOf p.1).ends else [] := by
    intro p hp
    have htrust : isTrusted sources p.2 = p.1.has trust := by
      rw [isTrusted, (List.mem_zipIdx_iff_getElem?.1 hp)]
      rfl
    split
    · simp [toEnd, intervalOf, Interval.ends, htrust]
    · rfl
  rw [sortList, List.map_flatMap, List.flatMap_congr hends, intervals, List.flatMap_map]
  have hfst : sources.zipIdx.flatMap (fun p =>
      if p.1.status = .ok then (intervalOf p.1).ends else []) =
      sources.flatMap fun s => if s.status = .ok then (intervalOf s).ends else [] := by
    conv_rhs => rw [← List.zipIdx_map_fst 0 sources, List.flatMap_map]
  rw [hfst]
  clear hends hfst
  induction sources with
  | nil => rfl
  | cons s sources ih =>
    rw [List.flatMap_cons, ih]
    by_cases hs : s.status = .ok
    · simp [hs]
    · simp [hs]

theorem sortList_eq_nil : (sortList sources).length = 0 ↔ ∀ s ∈ sources, s.status ≠ .ok := by
  rw [sortList, List.length_eq_zero_iff, List.flatMap_eq_nil_iff]
  constructor
  · intro h s hs hok
    obtain ⟨i, hi⟩ := List.mem_iff_getElem?.1 hs
    have := h (s, i) (List.mem_zipIdx_iff_getElem?.2 hi)
    simp [hok] at this
  · intro h p hp
    simp [h p.1 (List.mem_of_getElem? (List.mem_zipIdx_iff_getElem?.1 hp))]

theorem intervals_ne_nil (h : (sortList sources).length ≠ 0) : intervals sources ≠ [] := by
  intro hnil
  refine h (sortList_eq_nil.2 fun s hs hok => ?_)
  have hmem : intervalOf s ∈ intervals sources :=
    List.mem_map_of_mem (List.mem_filter.2 ⟨hs, by simpa using hok⟩)
  rw [hnil] at hmem
  exact List.not_mem_nil hmem

theorem sortList_perm {sources' : List (SrcInstance F)} (h : sources.Perm sources')
    (hne : (sortList sources).length ≠ 0) : (sortList sources').length ≠ 0 := by
  rw [ne_eq, sortList_eq_nil] at hne ⊢
  exact fun hall => hne fun s hs => hall s (h.mem_iff.1 hs)

variable [LinearOrder F]

/-! ## Ranks -/

/-- The source is a candidate and its interval contains the point. -/
def Covers (x : F) (s : SrcInstance F) : Prop :=
  s.status = .ok ∧ s.selInfo.loLimit ≤ x ∧ x ≤ s.selInfo.hiLimit

instance (x : F) (s : SrcInstance F) : Decidable (Covers x s) := inferInstanceAs (Decidable (_ ∧ _))

def depthAt (sources : List (SrcInstance F)) (x : F) : Nat := sources.countP fun s => Covers x s

def trustDepthAt (sources : List (SrcInstance F)) (x : F) : Nat :=
  sources.countP fun s => Covers x s ∧ s.has trust = true

/-- Trusted sources first. -/
def rank (sources : List (SrcInstance F)) (x : F) : ℤ ×ₗ ℤ :=
  toLex ((trustDepthAt sources x : ℤ), (depthAt sources x : ℤ))

theorem cover_intervals (sources : List (SrcInstance F)) (x : F) :
    cover (intervals sources) x = rank sources x := by
  induction sources with
  | nil => rfl
  | cons s sources ih =>
    have hsplit : cover (intervals (s :: sources)) x = cover (intervals [s]) x + cover
        (intervals sources) x := by
      rw [cover, cover, cover, ← List.sum_append, ← List.map_append, ← List.filter_append,
        intervals, intervals, intervals, ← List.map_append, ← List.filter_append]
      rfl
    have hrank : rank (s :: sources) x = rank [s] x + rank sources x := by
      simp only [rank, trustDepthAt, depthAt, List.countP_cons, List.countP_nil, ← toLex_add,
        Prod.mk_add_mk]
      push_cast
      rw [add_comm (List.countP _ sources : ℤ), add_comm (List.countP _ sources : ℤ)]
      simp
    have hzero : (toLex ((0 : ℤ), (0 : ℤ)) : ℤ ×ₗ ℤ) = 0 := rfl
    have hone : cover (intervals [s]) x = rank [s] x := by
      by_cases hok : s.status = .ok
      · by_cases hx : s.selInfo.loLimit ≤ x ∧ x ≤ s.selInfo.hiLimit
        · cases ht : s.has trust <;>
            simp [cover, intervals, intervalOf, rank, trustDepthAt, depthAt, Covers, hok, hx, ht]
        · simp [cover, intervals, intervalOf, rank, trustDepthAt, depthAt, Covers, hok, hx, hzero]
      · simp [cover, intervals, rank, trustDepthAt, depthAt, Covers, hok, hzero]
    rw [hsplit, ih, hone, hrank]

theorem rank_perm {sources' : List (SrcInstance F)} (h : sources.Perm sources') :
    rank sources = rank sources' := by
  funext x
  rw [rank, rank, trustDepthAt, trustDepthAt, depthAt, depthAt, h.countP_eq, h.countP_eq]

/-! ## Sorting -/

theorem compareSortElements_iff {u v : SortElement F} : compareSortElements u v ≠ .gt ↔
    u.offset < v.offset ∨ (u.offset = v.offset ∧ u.tag.order ≤ v.tag.order) := by
  unfold compareSortElements
  rcases lt_trichotomy u.offset v.offset with h | h | h
  · simp [h]
  · simp [h, compare_gt_iff_gt]
  · simp [h, h.asymm, h.ne']

instance : Std.Total fun u v : SortElement F => compareSortElements u v ≠ .gt where
  total u v := by
    rw [compareSortElements_iff, compareSortElements_iff]
    rcases lt_trichotomy u.offset v.offset with h | h | h
    · exact .inl (.inl h)
    · rcases le_total u.tag.order v.tag.order with ht | ht
      · exact .inl (.inr ⟨h, ht⟩)
      · exact .inr (.inr ⟨h.symm, ht⟩)
    · exact .inr (.inl h)

instance : IsTrans (SortElement F) fun u v => compareSortElements u v ≠ .gt where
  trans u v w huv hvw := by
    rw [compareSortElements_iff] at huv hvw ⊢
    rcases huv with huv | ⟨huv, h1⟩ <;> rcases hvw with hvw | ⟨hvw, h2⟩
    · exact .inl (huv.trans hvw)
    · exact .inl (hvw ▸ huv)
    · exact .inl (huv ▸ hvw)
    · exact .inr ⟨huv.trans hvw, h1.trans h2⟩

theorem toEnd_precedes (trusted : Nat → Bool) {u v : SortElement F}
    (h : compareSortElements u v ≠ .gt) : Precedes (toEnd trusted u) (toEnd trusted v) := by
  rcases compareSortElements_iff.1 h with h | ⟨h, ht⟩
  · exact .inl h
  · refine .inr ⟨h, ?_⟩
    cases hu : u.tag with
    | low =>
      left
      simp only [toEnd, hu]
      exact weight_pos _
    | high =>
      right
      cases hv : v.tag with
      | low =>
        rw [hu, hv] at ht
        exact absurd ht (by decide)
      | high =>
        simp only [toEnd, hv]
        exact neg_neg_of_pos (weight_pos _)

/-! ## The peak -/

theorem intervals_ordered (h : ∀ s ∈ sources, s.status = .ok →
    s.selInfo.loLimit ≤ s.selInfo.hiLimit) :
    ∀ v ∈ intervals sources, v.lo ≤ v.hi ∧ 0 < v.weight := by
  intro v hv
  obtain ⟨s, hs, rfl⟩ := List.mem_map.1 hv
  obtain ⟨hs, hok⟩ := List.mem_filter.1 hs
  exact ⟨h s hs (by simpa using hok), weight_pos _⟩

/-- **The pass finds the peak** of the ranks. -/
theorem intersect_peak [Zero F] (h : ∀ s ∈ sources, s.status = .ok →
    s.selInfo.loLimit ≤ s.selInfo.hiLimit) (hne : (sortList sources).length ≠ 0) :
    Peak (rank sources) (toLex ((intersect sources).bestTrustDepth, (intersect sources).bestDepth))
      (intersect sources).bestLo (intersect sources).bestHi := by
  let L := (sortElements (sortList sources)).map (toEnd (isTrusted sources))
  have hperm : L.Perm ((intervals sources).flatMap Interval.ends) := by
    rw [← sortList_ends]
    exact (List.perm_insertionSort _ _).map _
  have hsorted : L.Pairwise Precedes :=
    (List.pairwise_insertionSort (fun u v : SortElement F => compareSortElements u v ≠ .gt) _).map _
      fun _ _ h => toEnd_precedes _ h
  have hordered := intervals_ordered h
  have hpeak := sweep_peak (closing_of_perm hordered (intervals_ne_nil hne) hperm hsorted) (0 : F) 0
  have hstate : L.foldl step ⟨0, 0, 0, 0⟩ = (intersect sources).toState :=
    (foldl_toState (isTrusted sources) (sortElements (sortList sources))
      ⟨0, 0, 0, 0, 0, 0, 0, 0⟩).symm
  have hrank : weightAt L = rank sources := by
    rw [weightAt_perm hperm, weightAt_ends hordered]
    exact funext (cover_intervals sources)
  rw [hstate, hrank] at hpeak
  exact hpeak

/-! ## The majority -/

/-- Two majorities meet. -/
theorem exists_both {α : Type} {p q m : α → Bool} {l : List α} (hp : ∀ a, p a = true → m a = true)
    (hq : ∀ a, q a = true → m a = true) (h : l.countP m < l.countP p + l.countP q) :
    ∃ a ∈ l, p a = true ∧ q a = true := by
  by_contra hnone
  push Not at hnone
  refine absurd h (not_lt.2 ?_)
  clear h
  induction l with
  | nil => simp
  | cons a l ih =>
    have ih := ih fun b hb => hnone b (List.mem_cons_of_mem _ hb)
    have hone : (if p a = true then 1 else 0) + (if q a = true then 1 else 0) ≤
        (if m a = true then 1 else 0) := by
      have ha := hnone a List.mem_cons_self
      have hpa := hp a
      have hqa := hq a
      revert ha hpa hqa
      cases p a <;> cases q a <;> cases m a <;> simp
    simp only [List.countP_cons]
    omega

theorem trustDepthAt_le (sources : List (SrcInstance F)) (x : F) :
    trustDepthAt sources x ≤ nSelTrustSources sources := by
  refine List.countP_mono_left fun s _ hs => ?_
  have hs : Covers x s ∧ s.has trust = true := by simpa using hs
  simp [hs.1.1, hs.2]

section
variable {w : Sweep F}
  (h : Peak (rank sources) (toLex (w.bestTrustDepth, w.bestDepth)) w.bestLo w.bestHi)
include h

/-- The depths at the ends of the best interval. -/
theorem peak_depths : ∀ x, x = w.bestLo ∨ x = w.bestHi →
      (trustDepthAt sources x : ℤ) = w.bestTrustDepth ∧ (depthAt sources x : ℤ) = w.bestDepth := by
  have hval : ∀ x, rank sources x = toLex (w.bestTrustDepth, w.bestDepth) →
      (trustDepthAt sources x : ℤ) = w.bestTrustDepth ∧ (depthAt sources x : ℤ) = w.bestDepth :=
        fun x hx =>
    Prod.mk.inj (toLex.injective hx)
  rintro x (rfl | rfl)
  · exact hval _ h.first.1
  · exact hval _ h.last.1

/-- Without trusted sources the best depth is the greatest one. -/
theorem depthAt_le (ht : w.bestTrustDepth = 0) (x : F) : (depthAt sources x : ℤ) ≤ w.bestDepth := by
  have hle := h.greatest.2 ⟨x, rfl⟩
  rw [rank, Prod.Lex.toLex_le_toLex, ht] at hle
  rcases hle with hlt | ⟨-, hle⟩
  · exact absurd hlt (by simp)
  · exact hle

theorem noMajority_iff (ht : nSelTrustSources sources = 0) (n : Nat) :
    w.noMajority n (nSelTrustSources sources) = true ↔ ∀ x, 2 * depthAt sources x ≤ n := by
  obtain ⟨htrust, hdepth⟩ := peak_depths h w.bestLo (.inl rfl)
  have hzero : w.bestTrustDepth = 0 := by
    have hle := trustDepthAt_le sources w.bestLo
    omega
  have hmaj : w.noMajority n (nSelTrustSources sources) = true ↔ w.bestDepth ≤ (n / 2 : Nat) := by
    simp [Sweep.noMajority, hzero]
  rw [hmaj]
  constructor
  · intro hle x
    have hx := depthAt_le h hzero x
    omega
  · intro hall
    have hx := hall w.bestLo
    omega

/-- With a majority, a source contains the best interval. -/
theorem exists_admitted
    (hmaj : w.noMajority (sources.countP (·.status = .ok)) (nSelTrustSources sources) = false) :
    ∃ s ∈ sources, s.status = .ok ∧ w.containsOrWithin s.selInfo = true ∧ w.trusts s = true := by
  obtain ⟨hlot, hlod⟩ := peak_depths h w.bestLo (.inl rfl)
  obtain ⟨hhit, hhid⟩ := peak_depths h w.bestHi (.inr rfl)
  have hnot : ¬ ((w.bestTrustDepth = 0 ∧ w.bestDepth ≤
      (sources.countP (·.status = .ok) / 2 : Nat)) ∨
      (0 < w.bestTrustDepth ∧ w.bestTrustDepth ≤ (nSelTrustSources sources / 2 : Nat))) := by
    simpa [Sweep.noMajority] using hmaj
  have hcontains : ∀ s : SrcInstance F, Covers w.bestLo s → Covers w.bestHi s →
      w.containsOrWithin s.selInfo = true :=
    fun s hlo hhi => by simp [Sweep.containsOrWithin, hlo.2.1, hhi.2.2]
  by_cases hzero : w.bestTrustDepth = 0
  · obtain ⟨s, hs, hlo, hhi⟩ := exists_both (l := sources) (p := fun s => Covers w.bestLo s)
      (q := fun s => Covers w.bestHi s) (m := fun s => s.status = .ok)
      (fun s hs => by simpa using (of_decide_eq_true hs).1)
        (fun s hs => by simpa using (of_decide_eq_true hs).1)
      (by rw [← depthAt, ← depthAt]; omega)
    have hlo := of_decide_eq_true hlo
    exact ⟨s, hs, hlo.1, hcontains s hlo (of_decide_eq_true hhi), by simp [Sweep.trusts, hzero]⟩
  · obtain ⟨s, hs, hlo, hhi⟩ := exists_both (l := sources)
      (p := fun s => Covers w.bestLo s ∧ s.has trust = true)
      (q := fun s => Covers w.bestHi s ∧ s.has trust = true)
        (m := fun s => s.status = .ok && s.has trust)
      (fun s hs => by have hs := of_decide_eq_true hs; simp [hs.1.1, hs.2])
      (fun s hs => by have hs := of_decide_eq_true hs; simp [hs.1.1, hs.2])
      (by rw [← trustDepthAt, ← trustDepthAt, ← nSelTrustSources]; omega)
    have hlo := of_decide_eq_true hlo
    have hhi := of_decide_eq_true hhi
    exact ⟨s, hs, hlo.1.1, hcontains s hlo.1 hhi.1, by simp [Sweep.trusts, hlo.2]⟩

end

/-- A source that contains the best interval is admitted. -/
theorem selSources_ne_nil {w : Sweep F} {r : Registry F} {s : SrcInstance F} (req : Bool)
    (hs : s ∈ r.sources) (hok : s.status = .ok) (hc : w.containsOrWithin s.selInfo = true)
    (ht : w.trusts s = true) :
    (admitAll w req r).selSources ≠ [] := by
  obtain ⟨i, hi⟩ := List.mem_iff_getElem?.1 hs
  have hsame : admitEntry w r.lastUpdatedInst i s = s := by simp [admitEntry, hc, ht]
  refine List.ne_nil_of_mem (a := i) ?_
  rw [admitAll_selSources, List.mem_filter, isOk_iff, (admitAll_spec w req r).2]
  exact ⟨List.mem_range.2 (List.getElem?_eq_some_iff.1 hi).1, s, by simp [hi, hsame], hok⟩

/-- **The pass that finds falsetickers**, on the candidates of a registry. It finds the greatest
rank and the first and last point of that rank, in whatever order the sources are; without trusted
sources there is no majority iff no point is in more than half of the intervals; with a majority a
source is admitted. -/
theorem falseticker_sweep [Zero F] (r : Registry F)
    (hordered : ∀ s ∈ r.sources, s.status = .ok → s.selInfo.loLimit ≤ s.selInfo.hiLimit)
    (hne : (sortList r.sources).length ≠ 0) :
    Peak (rank r.sources) (toLex ((intersect r.sources).bestTrustDepth,
      (intersect r.sources).bestDepth)) (intersect r.sources).bestLo (intersect r.sources).bestHi ∧
    (∀ sources', r.sources.Perm sources' →
      (intersect sources').bestTrustDepth = (intersect r.sources).bestTrustDepth ∧
      (intersect sources').bestDepth = (intersect r.sources).bestDepth ∧
      (intersect sources').bestLo = (intersect r.sources).bestLo ∧
      (intersect sources').bestHi = (intersect r.sources).bestHi) ∧
    (nSelTrustSources r.sources = 0 →
      ((intersect r.sources).noMajority (r.sources.countP (·.status = .ok))
        (nSelTrustSources r.sources) = true ↔
        ∀ x, 2 * depthAt r.sources x ≤ r.sources.countP (·.status = .ok))) ∧
    ((intersect r.sources).noMajority (r.sources.countP (·.status = .ok))
      (nSelTrustSources r.sources) = false →
      ∀ req, (admitAll (intersect r.sources) req r).selSources ≠ []) := by
  have hpeak := intersect_peak hordered hne
  refine ⟨hpeak, fun sources' hperm => ?_, fun ht => noMajority_iff hpeak ht _, fun hmaj req => ?_⟩
  · have hordered' : ∀ s ∈ sources', s.status = .ok → s.selInfo.loLimit ≤ s.selInfo.hiLimit :=
      fun s hs =>
      hordered s (hperm.mem_iff.2 hs)
    have hpeak' := intersect_peak hordered' (sortList_perm hperm hne)
    rw [← rank_perm hperm] at hpeak'
    obtain ⟨hbest, hlo, hhi⟩ := hpeak'.unique hpeak
    obtain ⟨htrust, hdepth⟩ := Prod.mk.inj (toLex.injective hbest)
    exact ⟨htrust, hdepth, hlo, hhi⟩
  · obtain ⟨s, hs, hok, hc, ht⟩ := exists_admitted hpeak hmaj
    exact selSources_ne_nil req hs hok hc ht

def candidate (lo hi : ℤ) : SrcInstance ℤ :=
  { index := 0, refId := 1, hasIp := true, active := true, reachability := 1, reachabilitySize := 1
    updates := 1, distant := 0, bad := 0, status := .ok, type := .ntp, authenticated := false
    confSelOptions := 0, selOptions := 0
    selScore := 1, stratum := 1, leap := .normal, leapVote := false, reportedFalseticker := false
    selInfo := ⟨true, 0, 1, lo, hi, 0⟩ }

def threeSources : Registry ℤ :=
  { Registry.withConfig ⟨3, 1, 0, 1, 3, 1⟩ with
    sources := [candidate 0 4, candidate 9 10, candidate 2 6] }

theorem falseticker_sweep_three : (intersect threeSources.sources).bestLo = 2 ∧
    IsLeast {x | rank threeSources.sources x = toLex (0, 2)} 2 ∧
    (admitAll (intersect threeSources.sources) false threeSources).selSources ≠ [] := by
  obtain ⟨hpeak, -, -, hadmit⟩ := falseticker_sweep threeSources (by decide +kernel) (by decide)
  exact ⟨by decide +kernel, hpeak.first, hadmit (by decide +kernel) false⟩

end ChronyRs.L5.Sources

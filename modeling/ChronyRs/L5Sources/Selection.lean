import Mathlib.Data.List.Sort
import Mathlib.Data.Prod.Lex
import Mathlib.Data.String.Basic
import Mathlib.Order.WithBot
import ChronyRs.Core.F64
import ChronyRs.Core.Sweep

/-!
# The selection of a source (`sources/selection.rs`, `sources/source.rs`)

Each selectable source claims that the true offset is in an interval. The sources whose intervals
contain a point where most of them overlap agree; if they are a majority, the best of them is
selected.

Comparisons are those of a linear order. The counters of the sweep are integers: an `i32` would
overflow at `2 ^ 31` sources.

* `sweep_finds_peak`: the point found is the first one that most intervals contain.
* `selection_order_independent`: what is selected, and that it does not depend on the order of the
  sources.
* `right_majority_selects`: a majority of right sources is never outvoted.
-/
namespace ChronyRs.L5.Selection

open Sweeping

/-! ## Sources -/

/-- mirrors sources/source.rs:29-33 -/
inductive SourceStatus where
  | online | offline
  deriving DecidableEq, Repr

/-- mirrors sources/source.rs:39-43 -/
structure SampleSummary (F : Type) where
  offset : F
  rootDelay : F
  rootDispersion : F

/-- The register of `reach` has 8 bits. `preferred` is not used in the selection.
mirrors sources/source.rs:54-66 -/
structure Source (F : Type) where
  id : String
  status : SourceStatus
  reach : UInt8
  stratum : UInt8
  lastSample : Option (SampleSummary F)

variable {F : Type}

/-- mirrors sources/source.rs:86-92 -/
def Source.isSelectable (s : Source F) : Bool :=
  decide (s.status = .online) && decide (s.reach ≠ 0) && decide (s.stratum ≠ 0) &&
    decide (s.stratum < 16) &&
    s.lastSample.isSome

/-- mirrors sources/source.rs:47-49 -/
def SampleSummary.rootDistance [F64Math F] (s : SampleSummary F) : F :=
  F64.add s.rootDispersion (F64.div (F64Math.abs s.rootDelay) (F64.lit 2))

/-- mirrors sources/source.rs:96-103 -/
def Source.selectionInterval [F64Math F] (s : Source F) : Option (F × F) :=
  if s.isSelectable then
    s.lastSample.map fun x => (F64.sub x.offset x.rootDistance, F64.add x.offset x.rootDistance)
  else none

/-- `f64::INFINITY` without a sample. -/
def Source.distance [F64Math F] (s : Source F) : WithTop F :=
  match s.lastSample with
  | some x => x.rootDistance
  | none => ⊤

/-! ## The selection -/

/-- mirrors sources/selection.rs:30-46 -/
structure SelectionOutcome where
  truechimers : List String
  falsetickers : List String
  unselectable : List String
  selected : Option String
  majority : Bool
  deriving DecidableEq, Repr

/-- `edge` and `delta`.
mirrors sources/selection.rs:49-53 -/
abbrev Endpoint (F : Type) : Type := F × ℤ

abbrev Candidate (F : Type) : Type := Source F × F × F

/-- `min_by`: the first of the smallest elements. -/
def minBy {α : Type} (order : α → α → Ordering) : List α → Option α
  | [] => none
  | a :: l => some (l.foldl (fun x y => if order x y = .gt then y else x) a)

/-- `Vec::sort` on the ids. -/
def sortIds (sources : List (Source F)) : List String := (sources.map (·.id)).insertionSort (· ≤ ·)

/-- The variables of the loop over the events. -/
structure Scan (F : Type) where
  cur : ℤ
  best : ℤ
  bestPoint : F

/-- mirrors sources/selection.rs:152-158 -/
def scanStep (w : Scan F) (e : Endpoint F) : Scan F :=
  if w.best < w.cur + e.2 then ⟨w.cur + e.2, w.cur + e.2, e.1⟩ else { w with cur := w.cur + e.2 }

section
variable [LinearOrder F]

/-- mirrors sources/selection.rs:141-147 -/
def compareEndpoints (a b : Endpoint F) : Ordering := (cmp a.1 b.1).then (cmp b.2 a.2)

/-- `sort_by` is stable, and so is insertion.
mirrors sources/selection.rs:136-147 -/
def events (candidates : List (Candidate F)) : List (Endpoint F) :=
  (candidates.flatMap fun c => [(c.2.1, 1), (c.2.2, -1)]).insertionSort fun a b =>
    compareEndpoints a b ≠ .gt

/-- The first candidate is given apart.
mirrors sources/selection.rs:135-160 -/
def maxOverlapPoint (c : Candidate F) (cs : List (Candidate F)) : F :=
  ((events (c :: cs)).foldl scanStep ⟨0, -1, c.2.1⟩).bestPoint

variable [F64Math F]

/-- mirrors sources/selection.rs:108-113 -/
def compareSources (a b : Source F) : Ordering := (cmp a.distance b.distance).then (cmp a.id b.id)

/-- mirrors sources/selection.rs:58-64 -/
def candidates (sources : List (Source F)) : List (Candidate F) :=
  sources.filterMap fun s => s.selectionInterval.map fun iv => (s, iv)

/-- mirrors sources/selection.rs:56-129 -/
def select (sources : List (Source F)) : SelectionOutcome :=
  let unselectable := sortIds (sources.filter fun s => s.selectionInterval.isNone)
  match candidates sources with
  | [] => ⟨[], [], unselectable, none, false⟩
  | c :: cs =>
    let bestPoint := maxOverlapPoint c cs
    let clique := ((c :: cs).filter fun c => c.2.1 ≤ bestPoint ∧ bestPoint ≤ c.2.2).map (·.1)
    let outside := ((c :: cs).filter fun c => ¬ (c.2.1 ≤ bestPoint ∧ bestPoint ≤ c.2.2)).map (·.1)
    if (c :: cs).length < clique.length * 2 then
      ⟨sortIds clique, sortIds outside, unselectable, (minBy compareSources clique).map
        (·.id), true⟩
    else ⟨[], [], unselectable, none, false⟩

end

/-! ## The sweep -/

/-- One comparison after the other is that of the pairs. -/
theorem then_cmp {α β : Type} [LinearOrder α] [LinearOrder β] (a b : α) (c d : β) :
    (cmp a b).then (cmp c d) = .gt ↔ toLex (b, d) < toLex (a, c) := by
  rw [Prod.Lex.toLex_lt_toLex, Ordering.then_eq_gt, cmp_eq_gt_iff, cmp_eq_eq_iff, cmp_eq_gt_iff,
    eq_comm (a := a)]

/-- The loop against the sweep: they agree on everything once an interval is open. -/
structure Tracks (w : Scan F) (s : State F ℤ) : Prop where
  cur : w.cur = s.sum
  le : s.sum ≤ s.best
  nonneg : 0 ≤ s.best
  found : 0 < s.best → w.best = s.best ∧ w.bestPoint = s.lo
  idle : s.best = 0 → w.best ≤ 0

variable {w : Scan F} {s : State F ℤ}

/-- An end that leaves the maximum as it is. -/
theorem Tracks.keep {e : Endpoint F} (h : Tracks w s) (hle : s.sum + e.2 ≤ s.best) (hi : F) :
    Tracks (scanStep w e) { s with sum := s.sum + e.2, hi := hi } := by
  rw [scanStep, h.cur]
  split
  · -- the loop counts down from zero before anything is open
    rename_i hlt
    have h0 : ¬ 0 < s.best := by
      intro hpos
      have := (h.found hpos).1
      omega
    exact ⟨rfl, hle, h.nonneg, fun hpos => absurd hpos h0, fun hz => hle.trans_eq hz⟩
  · exact ⟨rfl, hle, h.nonneg, h.found, h.idle⟩

theorem Tracks.step {e : Endpoint F} (h : Tracks w s) :
    Tracks (scanStep w e) (step s e) := by
  have hle := h.le
  rw [Sweeping.step]
  split
  · split
    · -- an opening that leads to a new maximum
      rename_i hpos hraise
      have hbest : w.best < w.cur + e.2 := by
        rw [h.cur]
        rcases h.nonneg.eq_or_lt with h0 | hpos
        · exact ((h.idle h0.symm).trans h.nonneg).trans_lt hraise
        · exact (h.found hpos).1.trans_lt hraise
      have hnew : 0 < s.sum + e.2 := h.nonneg.trans_lt hraise
      rw [scanStep, if_pos hbest, h.cur]
      exact ⟨rfl, le_refl _, hnew.le, fun _ => ⟨rfl, rfl⟩, fun h0 => absurd h0 hnew.ne'⟩
    · rename_i hpos hraise
      exact h.keep (not_lt.1 hraise) s.hi
  · exact h.keep (by omega) _

theorem Tracks.foldl (L : List (Endpoint F)) (h : Tracks w s) :
    Tracks (L.foldl scanStep w) (L.foldl Sweeping.step s) := by
  induction L generalizing w s with
  | nil => exact h
  | cons e L ih => exact ih h.step

section
variable [LinearOrder F]

/-- Endpoints in the order of the sweep. -/
def endKey (e : Endpoint F) : F ×ₗ ℤᵒᵈ := toLex (e.1, OrderDual.toDual e.2)

theorem compareEndpoints_iff {a b : Endpoint F} :
    compareEndpoints a b ≠ .gt ↔ endKey a ≤ endKey b := by
  rw [compareEndpoints, ← cmp_toDual a.2 b.2, ne_eq, then_cmp, not_lt]
  rfl

instance totalEndpoints : Std.Total fun a b : Endpoint F => compareEndpoints a b ≠ .gt where
  total a b := by
    rw [compareEndpoints_iff, compareEndpoints_iff]
    exact le_total _ _

instance transEndpoints : IsTrans (Endpoint F) fun a b => compareEndpoints a b ≠ .gt where
  trans a b c := by
    rw [compareEndpoints_iff, compareEndpoints_iff, compareEndpoints_iff]
    exact le_trans

def intervalOf (c : Candidate F) : Interval F ℤ := ⟨c.2.1, c.2.2, 1⟩

theorem events_perm (cs : List (Candidate F)) :
    (events cs).Perm ((cs.map intervalOf).flatMap Interval.ends) := by
  rw [List.flatMap_map]
  exact List.perm_insertionSort _ _

theorem delta_of_mem {cs : List (Candidate F)} {e : Endpoint F} (he : e ∈ events cs) :
    e.2 = 1 ∨ e.2 = -1 := by
  obtain ⟨v, hv, he⟩ := List.mem_flatMap.1 ((events_perm cs).mem_iff.1 he)
  obtain ⟨c, -, rfl⟩ := List.mem_map.1 hv
  rcases List.mem_cons.1 he with rfl | he
  · exact .inl rfl
  · rw [List.mem_singleton.1 he]
    exact .inr rfl

theorem events_sorted (cs : List (Candidate F)) : (events cs).Pairwise Precedes := by
  have hsorted := List.pairwise_insertionSort (fun a b : Endpoint F => compareEndpoints a b ≠ .gt)
    (cs.flatMap fun c => [(c.2.1, 1), (c.2.2, -1)])
  refine hsorted.imp_of_mem fun {a b} ha hb hab => ?_
  rcases Prod.Lex.toLex_le_toLex.1 (compareEndpoints_iff.1 hab) with hlt | ⟨heq, hle⟩
  · exact .inl hlt
  · have hle : b.2 ≤ a.2 := hle
    refine .inr ⟨heq, ?_⟩
    rcases delta_of_mem ha with h | h <;> omega

/-- **The point found is the first one** of those in most intervals. -/
theorem sweep_finds_peak {c : Candidate F} {cs : List (Candidate F)}
    (h : ∀ x ∈ c :: cs, x.2.1 ≤ x.2.2) :
    ∃ best hi, Peak (cover ((c :: cs).map intervalOf)) best (maxOverlapPoint c cs) hi := by
  have hvs : ∀ v ∈ (c :: cs).map intervalOf, v.lo ≤ v.hi ∧ 0 < v.weight := by
    intro v hv
    obtain ⟨x, hx, rfl⟩ := List.mem_map.1 hv
    exact ⟨h x hx, one_pos⟩
  have hclosing := closing_of_perm hvs (by simp) (events_perm (c :: cs)) (events_sorted (c :: cs))
  have hswept := swept_foldl hclosing.ne_zero c.2.1 c.2.1 _ (le_refl _)
  rw [List.take_length] at hswept
  have hstart : Tracks (⟨0, -1, c.2.1⟩ : Scan F) ⟨0, 0, c.2.1, c.2.1⟩ :=
    ⟨rfl, le_refl _, le_refl _, fun h0 => absurd h0 (lt_irrefl _), fun _ =>
      (neg_one_lt_zero (R := ℤ)).le⟩
  have htracks := hstart.foldl (events (c :: cs))
  have hpeak := swept_peak hclosing hswept
  rw [← (htracks.found (best_pos hclosing hswept)).2, weightAt_perm (events_perm (c :: cs)),
    weightAt_ends hvs] at hpeak
  exact ⟨_, _, hpeak⟩

end

theorem sortIds_perm {l l' : List (Source F)} (h : l.Perm l') : sortIds l = sortIds l' := by
  refine List.Perm.eq_of_pairwise' (List.pairwise_insertionSort _ _)
    (List.pairwise_insertionSort _ _) ?_
  exact ((List.perm_insertionSort _ _).trans (h.map _)).trans (List.perm_insertionSort _ _).symm

/-! ## The sources that agree -/

section
variable [F64Math F]

def selectable (sources : List (Source F)) : List (Source F) :=
  sources.filter fun s => s.selectionInterval.isSome

theorem filter_candidates {p : F × F → Bool} {q : Source F → Bool}
    (hpq : ∀ s iv, s.selectionInterval = some iv → p iv = q s) (sources : List (Source F)) :
    ((candidates sources).filter fun c => p c.2).map (·.1) = (selectable sources).filter q := by
  induction sources with
  | nil => rfl
  | cons s sources ih =>
    rw [candidates, selectable] at ih
    rw [candidates, selectable, List.filterMap_cons, List.filter_cons]
    cases hs : s.selectionInterval with
    | none => simpa using ih
    | some iv =>
      have hp := hpq s iv hs
      cases hq : q s with
      | false => simpa [hp, hq] using ih
      | true => simpa [hp, hq] using ih

theorem map_candidates (sources : List (Source F)) :
    (candidates sources).map (·.1) = selectable sources := by
  have h := filter_candidates (p := fun _ => true) (q := fun _ => true) (fun _ _ _ => rfl) sources
  rwa [List.filter_true, List.filter_true] at h

theorem length_candidates (sources : List (Source F)) :
    (candidates sources).length = (selectable sources).length := by
  rw [← map_candidates, List.length_map]

variable [LinearOrder F]

/-- The interval of the source contains the point. -/
def Source.covers (x : F) (s : Source F) : Bool :=
  s.selectionInterval.any fun iv => iv.1 ≤ x ∧ x ≤ iv.2

def clique (sources : List (Source F)) (x : F) : List (Source F) :=
  (selectable sources).filter (·.covers x)

def outside (sources : List (Source F)) (x : F) : List (Source F) :=
  (selectable sources).filter fun s => !s.covers x

theorem clique_candidates (sources : List (Source F)) (x : F) :
    ((candidates sources).filter fun c => c.2.1 ≤ x ∧ x ≤ c.2.2).map (·.1) = clique sources x :=
  filter_candidates (p := fun iv => iv.1 ≤ x ∧ x ≤ iv.2)
    (fun s iv hs => by simp [Source.covers, hs]) sources

theorem outside_candidates (sources : List (Source F)) (x : F) :
    ((candidates sources).filter fun c => ¬ (c.2.1 ≤ x ∧ x ≤ c.2.2)).map (·.1) =
      outside sources x :=
  filter_candidates (p := fun iv => ¬ (iv.1 ≤ x ∧ x ≤ iv.2))
    (fun s iv hs => by rw [Source.covers, hs, Option.any_some, decide_not]) sources

theorem cover_candidates (sources : List (Source F)) (x : F) :
    cover ((candidates sources).map intervalOf) x = (clique sources x).length := by
  have hmap : ((candidates sources).map intervalOf).filter (fun v => decide (v.lo ≤ x ∧ x ≤ v.hi)) =
      ((candidates sources).filter fun c => c.2.1 ≤ x ∧ x ≤ c.2.2).map intervalOf := List.filter_map
  rw [← clique_candidates, List.length_map, cover, hmap, List.map_map]
  simp only [Function.comp_def, intervalOf, List.map_const', List.sum_replicate, nsmul_one]

/-- The first point that most intervals contain. -/
structure Best (sources : List (Source F)) (x : F) : Prop where
  most : ∀ y, (clique sources y).length ≤ (clique sources x).length
  first : ∀ y, (clique sources x).length ≤ (clique sources y).length → x ≤ y

variable {sources l l' : List (Source F)}

theorem Best.unique {x y : F} (hx : Best sources x) (hy : Best sources y) : x = y :=
  le_antisymm (hx.first y (hy.most x)) (hy.first x (hx.most y))

/-- What is returned when the intervals at `x` are taken to agree. -/
def report (sources : List (Source F)) (x : F) : SelectionOutcome :=
  let unselectable := sortIds (sources.filter fun s => s.selectionInterval.isNone)
  if (selectable sources).length < (clique sources x).length * 2 then
    ⟨sortIds (clique sources x), sortIds (outside sources x), unselectable,
      (minBy compareSources (clique sources x)).map (·.id), true⟩
  else ⟨[], [], unselectable, none, false⟩

/-- The intervals are not inverted. -/
def Ordered (sources : List (Source F)) : Prop :=
  ∀ s ∈ sources, ∀ iv ∈ s.selectionInterval, iv.1 ≤ iv.2

theorem select_of_empty (h : candidates sources = []) (x : F) :
    select sources = report sources x := by
  have h0 : (clique sources x).length = 0 := by
    rw [← clique_candidates, h]
    rfl
  have hsel : (selectable sources).length = 0 := by
    rw [← length_candidates, h]
    rfl
  rw [select, h, report, h0, hsel]
  rfl

theorem select_of_candidates (h : Ordered sources) (hne : candidates sources ≠ []) :
    ∃ x, Best sources x ∧ select sources = report sources x := by
  have hcs : ∀ c ∈ candidates sources, c.2.1 ≤ c.2.2 := by
    intro c hc
    obtain ⟨s, hs, hsc⟩ := List.mem_filterMap.1 hc
    obtain ⟨iv, hiv, rfl⟩ := Option.map_eq_some_iff.1 hsc
    exact h s hs iv hiv
  obtain ⟨c, cs, heq⟩ := List.exists_cons_of_ne_nil hne
  rw [heq] at hcs
  obtain ⟨best, hi, hpeak⟩ := sweep_finds_peak hcs
  rw [← heq] at hpeak
  refine ⟨maxOverlapPoint c cs, ⟨fun y => ?_, fun y hy => ?_⟩, ?_⟩
  · have hle := hpeak.greatest.2 ⟨y, rfl⟩
    rw [← hpeak.first.1, cover_candidates, cover_candidates] at hle
    exact Int.ofNat_le.1 hle
  · refine hpeak.first.2 (le_antisymm (hpeak.greatest.2 ⟨y, rfl⟩) ?_)
    rw [← hpeak.first.1, cover_candidates, cover_candidates]
    exact Int.ofNat_le.2 hy
  · rw [select, heq, report, ← length_candidates, ← clique_candidates, ← outside_candidates, heq]

/-! ## The order of the input -/

/-- Sources in the order of the selection. -/
def Source.key (s : Source F) : WithTop F ×ₗ String := toLex (s.distance, s.id)

theorem compareSources_iff {a b : Source F} : compareSources a b = .gt ↔ b.key < a.key :=
  then_cmp _ _ _ _

theorem minBy_cons (a : Source F) (l : List (Source F)) :
    ∃ t ∈ a :: l, minBy compareSources (a :: l) = some t ∧ ∀ y ∈ a :: l, t.key ≤ y.key := by
  induction l generalizing a with
  | nil => exact ⟨a, List.mem_cons_self, rfl, by simp⟩
  | cons b l ih =>
    obtain ⟨t, ht, heq, hmin⟩ := ih (if compareSources a b = .gt then b else a)
    by_cases hgt : compareSources a b = .gt
    · rw [if_pos hgt] at ht hmin
      refine ⟨t, List.mem_cons_of_mem _ ht, heq, fun y hy => ?_⟩
      rcases List.mem_cons.1 hy with rfl | hy
      · exact (hmin b List.mem_cons_self).trans (compareSources_iff.1 hgt).le
      · exact hmin y hy
    · rw [if_neg hgt] at ht hmin
      have hab : a.key ≤ b.key := not_lt.1 fun hlt => hgt (compareSources_iff.2 hlt)
      refine ⟨t, (List.mem_cons.1 ht).elim (· ▸ List.mem_cons_self) fun h => ?_, heq,
        fun y hy => ?_⟩
      · exact List.mem_cons_of_mem _ (List.mem_cons_of_mem _ h)
      · rcases List.mem_cons.1 hy with rfl | hy
        · exact hmin y List.mem_cons_self
        · rcases List.mem_cons.1 hy with rfl | hy
          · exact (hmin a List.mem_cons_self).trans hab
          · exact hmin y (List.mem_cons_of_mem _ hy)

theorem minBy_spec (hne : l ≠ []) :
    ∃ t ∈ l, minBy compareSources l = some t ∧ ∀ y ∈ l, t.key ≤ y.key := by
  obtain ⟨a, l, rfl⟩ := List.exists_cons_of_ne_nil hne
  exact minBy_cons a l

theorem minBy_perm (h : l.Perm l') :
    (minBy compareSources l).map (·.id) = (minBy compareSources l').map (·.id) := by
  rcases eq_or_ne l [] with rfl | hne
  · rw [h.nil_eq]
  · obtain ⟨t, ht, heq, hmin⟩ := minBy_spec hne
    obtain ⟨t', ht', heq', hmin'⟩ := minBy_spec (l := l') fun h0 => hne (h0 ▸ h).eq_nil
    have hkey : t.key = t'.key := le_antisymm (hmin t' (h.mem_iff.2 ht')) (hmin' t (h.mem_iff.1 ht))
    rw [heq, heq']
    exact congrArg some (congrArg (fun k => (ofLex k).2) hkey)

theorem clique_perm (h : l.Perm l') (x : F) : (clique l x).Perm (clique l' x) :=
  (h.filter _).filter _

theorem report_perm (h : l.Perm l') (x : F) : report l x = report l' x := by
  have hselectable : (selectable l).Perm (selectable l') := h.filter _
  simp only [report, hselectable.length_eq, (clique_perm h x).length_eq,
    sortIds_perm (clique_perm h x),
    sortIds_perm (hselectable.filter fun s => !s.covers x), minBy_perm (clique_perm h x),
    sortIds_perm (h.filter fun s => s.selectionInterval.isNone), outside]

theorem select_perm (hl : Ordered l) (h : l.Perm l') : select l = select l' := by
  have hl' : Ordered l' := fun s hs => hl s (h.mem_iff.2 hs)
  have hcs : (candidates l).Perm (candidates l') := h.filterMap _
  rcases eq_or_ne (candidates l) [] with hnil | hne
  · rw [select_of_empty hnil (F64.lit 0), select_of_empty
      (hcs.symm.trans (hnil ▸ .refl _)).eq_nil (F64.lit 0), report_perm h]
  · obtain ⟨x, hx, heq⟩ := select_of_candidates hl hne
    obtain ⟨y, hy, heq'⟩ := select_of_candidates hl' fun h0 => hne (hcs.trans (h0 ▸ .refl _)).eq_nil
    have hbest : Best l y := by
      refine ⟨fun z => ?_, fun z hz => hy.first z ?_⟩
      · rw [(clique_perm h z).length_eq, (clique_perm h y).length_eq]
        exact hy.most z
      · rwa [← (clique_perm h y).length_eq, ← (clique_perm h z).length_eq]
    rw [heq, heq', hx.unique hbest, report_perm h]

/-! ## The outcome -/

def Agree (sources : List (Source F)) : Prop := ∃ x, ∀ s ∈ sources, s.covers x

/-- A largest set of selectable sources whose intervals share a point. -/
structure MaxClique (sources found : List (Source F)) : Prop where
  sub : found.Sublist (selectable sources)
  agree : Agree found
  most : ∀ other : List (Source F), other.Sublist (selectable sources) → Agree other →
    other.length ≤ found.length

theorem maxClique_of_most {x : F} (h : ∀ y, (clique sources y).length ≤ (clique sources x).length) :
    MaxClique sources (clique sources x) := by
  refine ⟨List.filter_sublist, ⟨x, fun s hs => (List.mem_filter.1 hs).2⟩,
    fun other hsub hagree => ?_⟩
  obtain ⟨y, hy⟩ := hagree
  have hle := (hsub.filter (·.covers y)).length_le
  rw [List.filter_eq_self.2 hy] at hle
  exact hle.trans (h y)

/-- The sources agree on a point as well as they can. -/
theorem exists_report (h : Ordered sources) :
    ∃ x, MaxClique sources (clique sources x) ∧ select sources = report sources x := by
  rcases eq_or_ne (candidates sources) [] with hnil | hne
  · have hnone : selectable sources = [] := by rw [← map_candidates, hnil, List.map_nil]
    refine ⟨F64.lit 0, maxClique_of_most fun y => ?_, select_of_empty hnil _⟩
    rw [clique, clique, hnone]
    exact le_refl _
  · obtain ⟨x, hx, heq⟩ := select_of_candidates h hne
    exact ⟨x, maxClique_of_most hx.most, heq⟩

theorem sortIds_partition (sources : List (Source F)) (x : F) :
    (sortIds (clique sources x) ++ sortIds (outside sources x)).Perm
      ((selectable sources).map (·.id)) := by
  have hsplit : (clique sources x ++ outside sources x).Perm (selectable sources) :=
    List.filter_append_perm _ _
  refine ((List.perm_insertionSort _ _).append (List.perm_insertionSort _ _)).trans ?_
  rw [← List.map_append]
  exact hsplit.map _

theorem minBy_strict (hids : (l.map (·.id)).Nodup) (hne : l ≠ []) :
    ∃ t ∈ l, (minBy compareSources l).map (·.id) = some t.id ∧ ∀ s ∈ l, s ≠ t → t.key < s.key := by
  obtain ⟨t, ht, heq, hmin⟩ := minBy_spec hne
  refine ⟨t, ht, by rw [heq, Option.map_some], fun s hs hst =>
    (hmin s hs).lt_of_ne fun hkey => hst ?_⟩
  exact (List.inj_on_of_nodup_map hids ht hs (congrArg (fun k => (ofLex k).2) hkey)).symm

/-- **The selection does not depend on the order of the sources.** The clique is as large as can be,
a majority is more than half of the selectable sources, and the source selected is the one of the
clique with the smallest root distance, then the smallest id. -/
theorem selection_order_independent (sources : List (Source F)) (hids : (sources.map (·.id)).Nodup)
    (hiv : Ordered sources) :
    (∃ found, MaxClique sources found ∧
      ((select sources).majority = true ↔ (selectable sources).length < 2 * found.length) ∧
      ((select sources).majority = true →
        (select sources).truechimers.Perm (found.map (·.id)) ∧
        ((select sources).truechimers ++ (select sources).falsetickers).Perm
          ((selectable sources).map (·.id)) ∧
        ((select sources).truechimers ++ (select sources).falsetickers).Nodup ∧
        ∃ t ∈ found, (select sources).selected = some t.id ∧
          ∀ s ∈ found, s ≠ t → toLex (t.distance, t.id) < toLex (s.distance, s.id)) ∧
      ((select sources).majority = false →
        (select sources).truechimers = [] ∧ (select sources).falsetickers = [] ∧
        (select sources).selected = none)) ∧
    ∀ sources' : List (Source F), sources'.Perm sources → select sources' = select sources := by
  refine ⟨?_, fun sources' hperm => (select_perm hiv hperm.symm).symm⟩
  obtain ⟨x, hmax, heq⟩ := exists_report hiv
  have hsub : ((selectable sources).map (·.id)).Nodup := hids.sublist (List.filter_sublist.map _)
  have hpart := sortIds_partition sources x
  refine ⟨clique sources x, hmax, ?_⟩
  by_cases hmaj : (selectable sources).length < (clique sources x).length * 2
  · rw [heq, report, if_pos hmaj]
    have hne : clique sources x ≠ [] := by
      intro h0
      rw [h0] at hmaj
      exact Nat.not_lt_zero _ hmaj
    exact ⟨iff_of_true rfl (by omega), fun _ =>
      ⟨List.perm_insertionSort _ _, hpart, hpart.nodup_iff.2 hsub,
      minBy_strict (hsub.sublist (hmax.sub.map _)) hne⟩, nofun⟩
  · rw [heq, report, if_neg hmaj]
    exact ⟨iff_of_false nofun (by omega), nofun, fun _ => ⟨rfl, rfl, rfl⟩⟩

/-- **A majority of right sources is never outvoted.** If `t` is in the intervals of more than half
of the selectable sources, a source is selected, and its interval meets that of a truechimer that is
right. -/
theorem right_majority_selects (sources : List (Source F)) (hiv : Ordered sources) (t : F)
    (hright : (selectable sources).length < 2 * (clique sources t).length) :
    ∃ found : List (Source F), found.Sublist sources ∧ (select sources).majority = true ∧
      (select sources).truechimers.Perm (found.map (·.id)) ∧
      (∃ s ∈ found, (select sources).selected = some s.id) ∧ Agree found ∧
        ∃ r ∈ found, r.covers t := by
  obtain ⟨x, hmax, heq⟩ := exists_report hiv
  have hmost : (clique sources t).length ≤ (clique sources x).length :=
    hmax.most _ List.filter_sublist ⟨t, fun s hs => (List.mem_filter.1 hs).2⟩
  -- two majorities of the selectable sources meet
  obtain ⟨r, hr, hrt⟩ : ∃ r ∈ clique sources x, r.covers t := by
    by_contra hdisj
    have hle : (selectable sources).countP (·.covers t) ≤ (selectable sources).countP
        (¬ ·.covers x) :=
      List.countP_mono_left fun s hs hst => by
        simpa using fun hsx => hdisj ⟨s, List.mem_filter.2 ⟨hs, hsx⟩, hst⟩
    have hsplit := (selectable sources).length_eq_countP_add_countP (·.covers x)
    simp only [clique, ← List.countP_eq_length_filter] at hright hmost
    omega
  obtain ⟨s, hs, hmin, -⟩ := minBy_spec (List.ne_nil_of_mem hr)
  refine ⟨clique sources x, hmax.sub.trans List.filter_sublist, ?_⟩
  rw [heq, report, if_pos (by omega)]
  exact ⟨rfl, List.perm_insertionSort _ _, ⟨s, hs, by rw [hmin, Option.map_some]⟩,
    hmax.agree, r, hr, hrt⟩

end

/-- Three sources with distance `1`, of which two overlap. -/
def three : List (Source ℚ) :=
  [⟨"a", .online, 1, 2, some ⟨0, 0, 1⟩⟩, ⟨"b", .online, 1, 2, some ⟨1, 0, 1⟩⟩,
    ⟨"c", .online, 1, 2, some ⟨9, 0, 1⟩⟩]

theorem three_reversed : select three = ⟨["a", "b"], ["c"], [], some "a", true⟩ ∧
    select three.reverse = select three :=
  ⟨by decide +kernel,
    (selection_order_independent three (by decide +kernel) (by unfold Ordered; decide +kernel)).2 _
      (List.reverse_perm three)⟩

theorem three_right : (select three).majority = true :=
  (right_majority_selects three (by unfold Ordered; decide +kernel) 1 (by decide +kernel)).elim
    fun _ h => h.2.1

end ChronyRs.L5.Selection

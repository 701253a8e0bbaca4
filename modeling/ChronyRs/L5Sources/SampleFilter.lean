import Mathlib.Order.Bounds.Basic
import ChronyRs.Core.Recent
import ChronyRs.L5Sources.SourceStats

/-!
# The sample filter (`samplefilt.rs`)

Measurements are collected in a ring; on demand the ones of low dispersion are taken, those with the
extreme offsets left out, and the rest combined in the order of their times.

Times, offsets and dispersions are values of a linear order, whose greatest element is the infinity.
What is computed with them is in `FilterMath`.

* `accumulateSample_holds`, `getFilteredSample_holds`: what each call does to the window.
* `selectSamples_spec`: the samples that are selected.
* `filter_window`: both over every run.
-/
namespace ChronyRs.L5.Spf

open ChronyRs.L5.Sst (NtpSample)

variable {F A : Type} [LinearOrder F] [OrderTop F]

/-! ## The filter -/

/-- The arithmetic, with the limit and the ratio the filter was made with. -/
structure FilterMath (F A : Type) where
  /-- `1.5 * x` -/
  scale : F → F
  /-- `(j as f64 * (1.0 - self.combine_ratio) / 2.0) as usize` -/
  trim : Nat → Nat
  /-- The new average variance and the combined sample, unless the dispersion is too large.
  mirrors samplefilt.rs:190-283 -/
  combine : A → List (NtpSample F) → Option (A × NtpSample F)

/-- mirrors samplefilt.rs:52-65 -/
structure SampleFilter (F A : Type) where
  minSamples : Nat
  maxSamples : Nat
  index : Int
  used : Nat
  last : Int
  average : A
  samples : List (NtpSample F)

/-- A sample and its place in the ring. -/
abbrev Slot (F : Type) := NtpSample F × Nat

/-- `usize::clamp` -/
def clamp (x lo hi : Nat) : Nat := max lo (min x hi)

namespace SampleFilter

/-- mirrors samplefilt.rs:70-91 -/
def new (minSamples maxSamples : Nat) (average : A) (blank : NtpSample F) : SampleFilter F A :=
  let minSamples := clamp minSamples 1 256
  let maxSamples := max (clamp maxSamples 1 256) minSamples
  { minSamples, maxSamples, index := -1, used := 0, last := -1, average
    samples := List.replicate maxSamples blank }

variable (f : SampleFilter F A) (M : FilterMath F A)

/-- mirrors samplefilt.rs:94-99 -/
def checkSample (sample : NtpSample F) : Rust Bool := do
  if f.used = 0 then return true
  return decide ((← ChronyRs.index f.samples (asUsize f.last)).time < sample.time)

/-- mirrors samplefilt.rs:102-113 -/
def accumulateSample (sample : NtpSample F) : Rust (SampleFilter F A × Bool) := do
  if ¬ (← f.checkSample sample) then return (f, false)
  let index := (f.index + 1).tmod f.maxSamples
  let used := if f.used < f.maxSamples then f.used + 1 else f.used
  return ({ f with
    index, last := index, used, samples := ← store f.samples (asUsize index) sample }, true)

/-- mirrors samplefilt.rs:138-141 -/
def chrono (c : Nat) : Rust Nat := do
  let o ← usub (← usub f.used (asUsize f.index)) 1
  return (c + o) % f.used

def slots : List (Slot F) := (f.samples.take f.used).zipIdx

/-- The samples of a dispersion within a factor of the least. -/
def near (slots : List (Slot F)) : List (Slot F) :=
  let minDisp := (slots.map (·.1.peerDispersion)).foldl min ⊤
  slots.filter (·.1.peerDispersion ≤ M.scale minDisp)

/-- mirrors samplefilt.rs:152-164 -/
def lowDispersion (slots : List (Slot F)) : List (Slot F) :=
  let selected := if 4 < slots.length then near M slots else []
  if selected.length < 4 then slots else selected

/-- mirrors samplefilt.rs:174-178 -/
def extremes (j : Nat) : Nat := if 2 < j then clamp (M.trim j) 1 ((j - 1) / 2) else 0

/-- mirrors samplefilt.rs:166-182 -/
def middle (selected : List (Slot F)) : List (Slot F) :=
  let j := selected.length
  let selected := selected.mergeSort (·.1.offset ≤ ·.1.offset)
  (selected.take (j - extremes M j)).drop (extremes M j)

/-- mirrors samplefilt.rs:183-184 -/
def inOrder (kept : List (Slot F)) : Rust (List Nat) := do
  let keyed ← kept.mapM fun p => do return (← f.chrono p.2, p.2)
  return (keyed.mergeSort (·.1 ≤ ·.1)).map (·.2)

/-- mirrors samplefilt.rs:146-185 -/
def selectSamples : Rust (List Nat) := do
  if f.used < f.minSamples then return []
  let window ← slice f.samples 0 f.used
  f.inOrder (middle M (lowDispersion M window.zipIdx))

/-- mirrors samplefilt.rs:304-310 -/
def dropSamples (keepLast : Bool) : SampleFilter F A :=
  { f with index := -1, used := 0, last := if keepLast then f.last else -1 }

/-- mirrors samplefilt.rs:288-296 -/
def getFilteredSample : Rust (SampleFilter F A × Option (NtpSample F)) := do
  let selected ← f.selectSamples M
  if selected = [] then return (f, none)
  match M.combine f.average (← selected.mapM (ChronyRs.index f.samples)) with
  | none => return (f, none)
  | some (average, result) => return ({ f with average }.dropSamples true, some result)

/-- mirrors samplefilt.rs:299-301 -/
def dropAllSamples : SampleFilter F A := f.dropSamples false

end SampleFilter

open SampleFilter

/-! ## The window -/

/-- The filter, made with two bounds, after calls that accepted the samples of `hist` since the last
drop, the newest first. -/
structure Holds (bounds : Nat × Nat) (f : SampleFilter F A) (hist : List (NtpSample F)) : Prop where
  bounds_eq : (f.minSamples, f.maxSamples) = bounds
  length_eq : f.samples.length = f.maxSamples
  min_pos : 0 < f.minSamples
  min_le : f.minSamples ≤ f.maxSamples
  max_le : f.maxSamples ≤ 256
  used_eq : f.used = min hist.length f.maxSamples
  ordered : hist.Pairwise fun a b => b.time < a.time
  /-- The last write went to place `n`. -/
  place : ∃ n < f.maxSamples, Recent f.samples n f.used hist ∧
    (if f.used = 0 then f.index = -1 ∧ n + 1 = f.maxSamples else f.index = n ∧ f.last = n) ∧
    (f.used < f.maxSamples → (n + 1) % f.maxSamples = f.used)

variable {bounds : Nat × Nat} {f : SampleFilter F A} {hist : List (NtpSample F)}
  (M : FilterMath F A)

omit [OrderTop F] in
theorem new_holds (minSamples maxSamples : Nat) (average : A) (blank : NtpSample F) :
    let f := new minSamples maxSamples average blank
    Holds (f.minSamples, f.maxSamples) f [] := by
  have hmin : 0 < clamp minSamples 1 256 ∧ clamp minSamples 1 256 ≤ 256 := by
    rw [clamp]
    omega
  have hmax : clamp maxSamples 1 256 ≤ 256 := by
    rw [clamp]
    omega
  refine ⟨rfl, List.length_replicate, hmin.1, le_max_right _ _, max_le hmax hmin.2,
    (Nat.zero_min _).symm, .nil, ?_⟩
  have hpos : 0 < (new minSamples maxSamples average blank).maxSamples := lt_max_of_lt_right hmin.1
  exact ⟨_, Nat.sub_one_lt_of_lt hpos, .zero _ _ _, ⟨rfl, Nat.sub_add_cancel hpos⟩, fun _ => by
    rw [Nat.sub_add_cancel hpos, Nat.mod_self]
    rfl⟩

omit [OrderTop F] in
theorem Holds.drop (h : Holds bounds f hist) (average : A) (keepLast : Bool) :
    Holds bounds ({ f with average }.dropSamples keepLast) [] := by
  have hpos : 0 < f.maxSamples := h.min_pos.trans_le h.min_le
  refine ⟨h.bounds_eq, h.length_eq, h.min_pos, h.min_le, h.max_le, (Nat.zero_min _).symm, .nil,
    f.maxSamples - 1, ?_, ?_⟩
  · exact Nat.sub_one_lt_of_lt hpos
  · refine ⟨.zero _ _ _, ⟨rfl, Nat.sub_add_cancel hpos⟩, fun _ => ?_⟩
    show (f.maxSamples - 1 + 1) % f.maxSamples = 0
    rw [Nat.sub_add_cancel hpos, Nat.mod_self]

omit [OrderTop F] in
/-- A sample is accepted iff it is later than the last one. -/
theorem checkSample_eq (h : Holds bounds f hist) (sample : NtpSample F) :
    f.checkSample sample = .ok (decide (∀ a ∈ hist.head?, a.time < sample.time)) := by
  obtain ⟨n, hn, hrecent, hplace, -⟩ := h.place
  have hused := h.used_eq
  rw [checkSample]
  cases hist with
  | nil =>
    rw [if_pos (by rw [hused]; exact Nat.zero_min _)]
    simp
  | cons a hist =>
    have hne : f.used ≠ 0 := by
      rw [hused, List.length_cons]
      omega
    rw [if_neg hne] at hplace
    have hlt : n < 2 ^ 31 := by
      have := h.max_le
      omega
    have hread := hrecent 0 (Nat.pos_of_ne_zero hne)
    rw [h.length_eq, slot_zero hn, List.getElem?_cons_zero] at hread
    rw [if_neg hne, hplace.2, asUsize_of_nonneg (Int.natCast_nonneg n) (by omega),
      Int.toNat_natCast, index_eq_ok.2 hread]
    simp

omit [OrderTop F] in
theorem accumulateSample_holds (h : Holds bounds f hist) (sample : NtpSample F) :
    ∃ f' ok, f.accumulateSample sample = .ok (f', ok) ∧
      ok = decide (∀ a ∈ hist.head?, a.time < sample.time) ∧
      Holds bounds f' (if ok then sample :: hist else hist) := by
  rw [accumulateSample, checkSample_eq h, ok_bind]
  by_cases hlater : ∀ a ∈ hist.head?, a.time < sample.time
  swap
  · rw [decide_eq_false hlater]
    exact ⟨f, false, rfl, rfl, h⟩
  obtain ⟨n, hn, hrecent, hplace, hnext⟩ := h.place
  have hmax := h.max_le
  have hused := h.used_eq
  have hn' : (n + 1) % f.maxSamples < f.maxSamples := Nat.mod_lt _ (by omega)
  have hindex : (f.index + 1).tmod f.maxSamples = ((n + 1) % f.maxSamples : Nat) := by
    split at hplace
    · rw [hplace.1, hplace.2, Nat.mod_self]
      exact Int.zero_tmod _
    · rw [hplace.1]
      exact Int.ofNat_tmod (n + 1) f.maxSamples
  have hpush : Recent (f.samples.set ((n + 1) % f.maxSamples) sample) ((n + 1) % f.maxSamples)
      (if f.used < f.maxSamples then f.used + 1 else f.used) (sample :: hist) := by
    have hlen := h.length_eq
    rw [← hlen] at hn ⊢
    by_cases hroom : f.used < f.samples.length
    · rw [if_pos hroom]
      exact hrecent.push hn hroom sample
    · have hfull := (hrecent.shrink (Nat.sub_le f.used 1)).push hn (by omega) sample
      rwa [if_neg hroom, ← Nat.sub_add_cancel (show 1 ≤ f.used by omega)]
  have hstore : store f.samples (asUsize ((n + 1) % f.maxSamples : Nat)) sample =
      .ok (f.samples.set ((n + 1) % f.maxSamples) sample) := by
    rw [asUsize_of_nonneg (Int.natCast_nonneg _) (by omega), Int.toNat_natCast,
      store_of_lt (by rw [h.length_eq]; exact hn')]
  rw [decide_eq_true hlater, if_neg (not_not.2 rfl)]
  dsimp only
  rw [hindex, hstore]
  refine ⟨_, true, rfl, rfl, h.bounds_eq, (List.length_set).trans h.length_eq, h.min_pos, h.min_le,
    hmax, ?_, ?_, ?_⟩
  · dsimp only
    rw [if_pos rfl, List.length_cons]
    split <;> omega
  · refine List.pairwise_cons.2 ⟨fun b hb => ?_, h.ordered⟩
    cases hist with
    | nil => cases hb
    | cons a hist =>
      have ha := hlater a rfl
      rcases List.mem_cons.1 hb with rfl | hb
      · exact ha
      · exact (List.rel_of_pairwise_cons h.ordered hb).trans ha
  · refine ⟨_, hn', hpush, ?_, ?_⟩
    · dsimp only
      rw [if_neg (by split <;> omega)]
      exact ⟨rfl, rfl⟩
    · dsimp only
      intro hlt
      split at hlt
      case isTrue hroom =>
        rw [if_pos hroom, hnext hroom, Nat.mod_eq_of_lt hlt]
      case isFalse hfull => omega

/-! ## The places in the order of the times -/

/-- What `chrono` computes. -/
def age (used n c : Nat) : Nat := (c + (used - (n + 1))) % used

/-- Before the ring has wrapped. -/
theorem next_eq {m used n : Nat} (hn : n < m) (hpos : 0 < used) (hnext : (n + 1) % m = used) :
    n + 1 = used := by
  rcases Nat.eq_or_lt_of_le (show n + 1 ≤ m from hn) with heq | hne
  · rw [heq, Nat.mod_self] at hnext
    omega
  · rwa [Nat.mod_eq_of_lt hne] at hnext

/-- The place that was written `used - 1 - age` writes before the last one. -/
theorem slot_age {m used n c : Nat} (hn : n < m) (hused : used ≤ m)
    (hnext : used < m → (n + 1) % m = used)
    (hc : c < used) : slot m n (used - 1 - age used n c) = c ∧ age used n c < used := by
  refine ⟨?_, Nat.mod_lt _ (by omega)⟩
  rw [slot, age]
  rcases Nat.eq_or_lt_of_le hused with rfl | hlt
  · -- the ring is full
    by_cases hwrap : c + (used - (n + 1)) < used
    · rw [Nat.mod_eq_of_lt hwrap, Nat.mod_eq_sub_mod (by omega), Nat.mod_eq_of_lt (by omega)]
      omega
    · have hage : (c + (used - (n + 1))) % used = c - (n + 1) := by
        rw [Nat.mod_eq_sub_mod (by omega), Nat.mod_eq_of_lt (by omega)]
        omega
      rw [hage, Nat.mod_eq_of_lt (by omega)]
      omega
  · have hlast : n + 1 = used := next_eq hn (by omega) (hnext hlt)
    rw [hlast, Nat.sub_self, Nat.add_zero, Nat.mod_eq_of_lt hc, Nat.mod_eq_sub_mod (by omega),
      Nat.mod_eq_of_lt (by omega)]
    omega

omit [OrderTop F] in
theorem Holds.chrono (h : Holds bounds f hist) (hpos : 0 < f.used) :
    ∃ key : Nat → Nat, (∀ c, f.chrono c = .ok (key c)) ∧
    (∀ c < f.used, key c < f.used ∧ f.samples[c]? = hist[f.used - 1 - key c]?) ∧
    ∀ c < f.used, ∀ d < f.used, key c = key d → c = d := by
  obtain ⟨n, hn, hrecent, hplace, hnext⟩ := h.place
  rw [if_neg (by omega)] at hplace
  have hmax := h.max_le
  have hused := h.used_eq
  have hlt : n < f.used := by
    by_cases hroom : f.used < f.maxSamples
    · exact next_eq hn hpos (hnext hroom) ▸ Nat.lt_succ_self n
    · omega
  have hslot : ∀ c < f.used, slot f.maxSamples n (f.used - 1 - age f.used n c) = c ∧
      age f.used n c < f.used :=
    fun c hc => slot_age hn (by omega) hnext hc
  refine ⟨age f.used n, fun c => ?_, fun c hc => ⟨(hslot c hc).2, ?_⟩, fun c hc d hd heq => ?_⟩
  · rw [SampleFilter.chrono, hplace.1, asUsize_of_nonneg (Int.natCast_nonneg n) (by omega),
      Int.toNat_natCast,
      usub_of_le hlt.le, ok_bind, usub_of_le (by omega), ok_bind, age, Nat.sub_sub]
    rfl
  · rw [← hrecent _ (show f.used - 1 - age f.used n c < f.used by omega), h.length_eq,
      (hslot c hc).1]
  · rw [← (hslot c hc).1, heq, (hslot d hd).1]

/-! ## The selection -/

/-- Within a factor of the least dispersion. -/
def Low (slots : List (Slot F)) (p : Slot F) : Prop :=
  ∃ m, IsLeast {d | ∃ q ∈ slots, q.1.peerDispersion = d} m ∧ p.1.peerDispersion ≤ M.scale m

open Classical in
/-- The samples of low dispersion, or all if there are too few. -/
noncomputable def dispersionFiltered (slots : List (Slot F)) : List (Slot F) :=
  let low := slots.filter (Low M slots ·)
  if 4 < slots.length ∧ 4 ≤ low.length then low else slots

/-- The samples that are selected: the middle ones by offset of those of low dispersion. -/
structure Selected (f : SampleFilter F A) (selected : List Nat) : Prop where
  nonempty : selected ≠ []
  distinct : selected.Nodup
  ascending : selected.Pairwise fun a b => ∃ s t, f.samples[a]? = some s ∧ f.samples[b]? = some t ∧
    s.time < t.time
  middle : ∃ sorted : List (Slot F), sorted.Perm (dispersionFiltered M f.slots) ∧
    sorted.Pairwise (fun p q => p.1.offset ≤ q.1.offset) ∧ 2 * extremes M sorted.length <
      sorted.length ∧
    selected.Perm (((sorted.take (sorted.length - extremes M sorted.length)).drop
      (extremes M sorted.length)).map (·.2))

variable {slots : List (Slot F)} {p : Slot F}

theorem isLeast_minDisp (hp : p ∈ slots) :
    IsLeast {d | ∃ q ∈ slots, q.1.peerDispersion = d}
      ((slots.map (·.1.peerDispersion)).foldl min ⊤) := by
  obtain ⟨m, hm⟩ := Option.isSome_iff_exists.1 (List.isSome_min?_of_mem (List.mem_map_of_mem
    (f := fun q : Slot F => q.1.peerDispersion) hp))
  rw [List.foldl_min, hm, Option.getD_some, min_eq_right le_top]
  obtain ⟨hmem, hle⟩ := List.min?_eq_some_iff.1 hm
  refine ⟨List.mem_map.1 hmem, ?_⟩
  rintro d ⟨q, hq, rfl⟩
  exact hle _ (List.mem_map_of_mem hq)

theorem near_eq (slots : List (Slot F)) [DecidablePred (Low M slots)] :
    near M slots = slots.filter (Low M slots ·) := by
  refine List.filter_congr fun p hp => decide_eq_decide.2 ?_
  constructor
  · exact fun h => ⟨_, isLeast_minDisp hp, h⟩
  · rintro ⟨m, hm, h⟩
    rwa [(isLeast_minDisp hp).unique hm]

theorem lowDispersion_eq (slots : List (Slot F)) :
    lowDispersion M slots = dispersionFiltered M slots := by
  rw [lowDispersion, dispersionFiltered, ← near_eq]
  by_cases hmany : 4 < slots.length
  · by_cases hnear : (near M slots).length < 4
    · rw [if_pos hmany, if_pos hnear, if_neg (by omega)]
    · rw [if_pos hmany, if_neg hnear, if_pos ⟨hmany, by omega⟩]
  · rw [if_neg hmany, if_pos (show [].length < 4 from Nat.zero_lt_succ 3),
      if_neg fun h => hmany h.1]

theorem lowDispersion_spec (h : slots ≠ []) :
    (lowDispersion M slots).Sublist slots ∧ 0 < (lowDispersion M slots).length := by
  rw [lowDispersion_eq, dispersionFiltered]
  split
  case isTrue hlow => exact ⟨List.filter_sublist, by omega⟩
  case isFalse => exact ⟨.refl _, List.length_pos_iff.2 h⟩

omit [LinearOrder F] [OrderTop F] in
theorem extremes_lt {j : Nat} (h : 0 < j) : 2 * extremes M j < j := by
  rw [extremes, clamp]
  split <;> omega

omit [LinearOrder F] [OrderTop F] in
theorem mem_slots (h : p ∈ f.slots) : p.2 < f.used ∧ f.samples[p.2]? = some p.1 := by
  have hget := List.mem_zipIdx_iff_getElem?.1 h
  rw [List.getElem?_take] at hget
  split at hget
  case isTrue hlt => exact ⟨hlt, hget⟩
  case isFalse => cases hget

omit [LinearOrder F] [OrderTop F] in
theorem nodup_slots (f : SampleFilter F A) : (f.slots.map (·.2)).Nodup := by
  rw [SampleFilter.slots, List.zipIdx_map_snd]
  exact List.nodup_range'

theorem pairwise_sort {α β : Type} [LinearOrder β] (key : α → β) (l : List α) :
    (l.mergeSort fun a b => decide (key a ≤ key b)).Pairwise fun a b => key a ≤ key b := by
  refine (List.pairwise_mergeSort ?_ ?_ l).imp of_decide_eq_true
  · exact fun a b c hab hbc => decide_eq_true
      ((of_decide_eq_true hab).trans (of_decide_eq_true hbc))
  · intro a b
    rw [Bool.or_eq_true, decide_eq_true_iff, decide_eq_true_iff]
    exact le_total _ _

omit [OrderTop F] in
theorem middle_spec {chosen : List (Slot F)} (h : 0 < chosen.length) :
    middle M chosen ≠ [] ∧ ∃ sorted : List (Slot F), sorted.Perm chosen ∧
      sorted.Pairwise (fun p q => p.1.offset ≤ q.1.offset) ∧ 2 * extremes M sorted.length <
        sorted.length ∧
      middle M chosen = (sorted.take (sorted.length - extremes M sorted.length)).drop
        (extremes M sorted.length) := by
  have hperm := List.mergeSort_perm chosen (fun p q => decide (p.1.offset ≤ q.1.offset))
  have hlt := extremes_lt M h
  refine ⟨?_, _, hperm, pairwise_sort (·.1.offset) chosen, ?_, ?_⟩
  · rw [← List.length_pos_iff, middle, List.length_drop, List.length_take, hperm.length_eq]
    omega
  · rwa [hperm.length_eq]
  · rw [hperm.length_eq]
    rfl

omit [OrderTop F] in
/-- The places in the order of `chrono` are in the order of the times. -/
theorem inOrder_spec (h : Holds bounds f hist) (hpos : 0 < f.used) {kept : List (Slot F)}
    (hkept : ∀ p ∈ kept, p.2 < f.used) (hnodup : (kept.map (·.2)).Nodup) :
    ∃ selected, f.inOrder kept = .ok selected ∧ selected.Perm (kept.map (·.2)) ∧
      selected.Pairwise fun a b => ∃ s t, f.samples[a]? = some s ∧ f.samples[b]? = some t ∧
        s.time < t.time := by
  obtain ⟨key, hchrono, hkey, hinj⟩ := h.chrono hpos
  have hused := h.used_eq
  have hkeyed : (kept.mapM fun p => do return (← f.chrono p.2, p.2)) =
      .ok (kept.map fun p => (key p.2, p.2)) :=
    mapM_eq_ok fun p _ => by rw [hchrono]; rfl
  have hperm :=
    List.mergeSort_perm (kept.map fun p => (key p.2, p.2)) (fun a b => decide (a.1 ≤ b.1))
  have hsorted := pairwise_sort (·.1) (kept.map fun p => (key p.2, p.2))
  rw [inOrder, hkeyed, ok_bind]
  generalize (kept.map fun p => (key p.2, p.2)).mergeSort
    (fun a b => decide (a.1 ≤ b.1)) = keyed at *
  have hplaces : (keyed.map (·.2)).Perm (kept.map (·.2)) := by
    have hmap := hperm.map (·.2)
    rwa [List.map_map] at hmap
  refine ⟨_, rfl, hplaces, List.pairwise_map.2 ?_⟩
  have hdistinct := List.pairwise_map.1 (hplaces.nodup_iff.2 hnodup)
  refine (hsorted.and hdistinct).imp_of_mem fun {a b} ha hb hab => ?_
  obtain ⟨p, hp, rfl⟩ := List.mem_map.1 (hperm.mem_iff.1 ha)
  obtain ⟨q, hq, rfl⟩ := List.mem_map.1 (hperm.mem_iff.1 hb)
  obtain ⟨hp1, hp2⟩ := hkey p.2 (hkept p hp)
  obtain ⟨hq1, hq2⟩ := hkey q.2 (hkept q hq)
  have hlt : key p.2 < key q.2 :=
    lt_of_le_of_ne hab.1 fun heq => hab.2 (hinj _ (hkept p hp) _ (hkept q hq) heq)
  rw [hp2, hq2]
  exact ⟨_, _, List.getElem?_eq_getElem (by omega), List.getElem?_eq_getElem (by omega),
    List.pairwise_iff_getElem.1 h.ordered _ _ (by omega) (by omega) (by omega)⟩

/-- **The samples that are selected.** -/
theorem selectSamples_spec (h : Holds bounds f hist) (hmin : f.minSamples ≤ f.used) :
    ∃ selected, f.selectSamples M = .ok selected ∧ (∀ c ∈ selected, c < f.used) ∧
      Selected M f selected := by
  have hpos : 0 < f.used := h.min_pos.trans_le hmin
  have hused := h.used_eq
  have hlen := h.length_eq
  have hslots : f.slots ≠ [] := by
    rw [← List.length_pos_iff, SampleFilter.slots, List.length_zipIdx, List.length_take]
    omega
  obtain ⟨hsub, hsome⟩ := lowDispersion_spec M hslots
  obtain ⟨hne, sorted, hperm, hsorted, hlt, heq⟩ := middle_spec M hsome
  have hkept : (middle M (lowDispersion M f.slots)).Sublist sorted :=
    heq ▸ (List.drop_sublist _ _).trans (List.take_sublist _ _)
  have hmem : ∀ p ∈ middle M (lowDispersion M f.slots), p.2 < f.used :=
    fun p hp => (mem_slots (hsub.subset (hperm.subset (hkept.subset hp)))).1
  have hnodup : ((middle M (lowDispersion M f.slots)).map (·.2)).Nodup :=
    (hkept.map _).nodup ((hperm.map _).nodup_iff.2 ((hsub.map _).nodup (nodup_slots f)))
  obtain ⟨selected, hrun, hselected, hascending⟩ := inOrder_spec h hpos hmem hnodup
  refine ⟨selected, ?_, ?_, ?_, hselected.nodup_iff.2 hnodup, hascending, sorted, ?_, hsorted, hlt,
    heq ▸ hselected⟩
  · rw [selectSamples, if_neg (by omega), slice_of_le (Nat.zero_le _) (by omega), ok_bind]
    exact hrun
  · intro c hc
    obtain ⟨p, hp, rfl⟩ := List.mem_map.1 (hselected.subset hc)
    exact hmem p hp
  · rintro rfl
    exact hne (List.map_eq_nil_iff.1 hselected.nil_eq.symm)
  · rwa [← lowDispersion_eq]

/-! ## Runs -/

inductive Op (F : Type) where
  | accumulateSample (sample : NtpSample F)
  | getFilteredSample
  | dropAllSamples

/-- A call, with the samples that were accepted since the last drop. -/
def step (s : SampleFilter F A × List (NtpSample F)) :
    Op F → Rust (SampleFilter F A × List (NtpSample F))
  | .accumulateSample sample => do
    let (f, ok) ← s.1.accumulateSample sample
    return (f, if ok then sample :: s.2 else s.2)
  | .getFilteredSample => do
    let (f, result) ← s.1.getFilteredSample M
    return (f, if result.isSome then [] else s.2)
  | .dropAllSamples => return (s.1.dropAllSamples, [])

theorem getFilteredSample_holds (h : Holds bounds f hist) :
    ∃ f' result, f.getFilteredSample M = .ok (f', result) ∧
    Holds bounds f' (if result.isSome then [] else hist) := by
  rw [getFilteredSample]
  by_cases hmin : f.minSamples ≤ f.used
  · obtain ⟨selected, hrun, hwindow, hselected⟩ := selectSamples_spec M h hmin
    have hused := h.used_eq
    have hin : ∀ c ∈ selected, c < f.samples.length := by
      intro c hc
      have := hwindow c hc
      rw [h.length_eq]
      omega
    obtain ⟨samples, hread⟩ := returns_mapM fun c hc => index_returns (hin c hc)
    rw [hrun, ok_bind, if_neg hselected.nonempty, hread, ok_bind]
    cases M.combine f.average samples with
    | none => exact ⟨f, none, rfl, h⟩
    | some r => exact ⟨_, some r.2, rfl, h.drop r.1 true⟩
  · rw [selectSamples, if_pos (by omega)]
    exact ⟨f, none, rfl, h⟩

theorem step_holds (h : Holds bounds f hist) (op : Op F) :
    ∃ s, step M (f, hist) op = .ok s ∧ Holds bounds s.1 s.2 := by
  cases op with
  | accumulateSample sample =>
    obtain ⟨f', ok, hrun, -, hholds⟩ := accumulateSample_holds h sample
    rw [step, hrun]
    exact ⟨_, rfl, hholds⟩
  | getFilteredSample =>
    obtain ⟨f', result, hrun, hholds⟩ := getFilteredSample_holds M h
    rw [step, hrun]
    exact ⟨_, rfl, hholds⟩
  | dropAllSamples => exact ⟨_, rfl, h.drop f.average false⟩

/-- **In every run** no call panics, the window holds the last samples that were accepted since the
last drop, a sample is accepted iff it is later than the last of them, and with enough of them the
middle ones of low dispersion are selected. -/
theorem filter_window (minSamples maxSamples : Nat) (average : A) (blank : NtpSample F)
    (ops : List (Op F)) :
    let f₀ := new minSamples maxSamples average blank
    ∃ f hist, ops.foldlM (step M) (f₀, []) = .ok (f, hist) ∧ f.minSamples = f₀.minSamples ∧
      f.maxSamples = f₀.maxSamples ∧ f.used = min hist.length f.maxSamples ∧
      (∀ k < f.used, f.samples[slot f.maxSamples f.index.toNat k]? = hist[k]?) ∧
      (∀ sample, ∃ f', f.accumulateSample sample =
        .ok (f', decide (∀ a ∈ hist.head?, a.time < sample.time))) ∧
      (f.minSamples ≤ f.used → ∃ selected, f.selectSamples M = .ok selected ∧
        Selected M f selected) := by
  intro f₀
  obtain ⟨⟨f, hist⟩, hrun, hholds⟩ : ∃ s, ops.foldlM (step M) (f₀, []) = .ok s ∧
      Holds (f₀.minSamples, f₀.maxSamples) s.1 s.2 :=
    Loop.foldlM_invariant (fun _ (s : SampleFilter F A × _) => Holds _ s.1 s.2)
      (new_holds minSamples maxSamples average blank) fun _ op _ _ _ hs => step_holds M hs op
  obtain ⟨hmin, hmax⟩ := Prod.mk.inj hholds.bounds_eq
  refine ⟨f, hist, hrun, hmin, hmax, hholds.used_eq, fun k hk => ?_, fun sample => ?_,
    fun hmin => ?_⟩
  · obtain ⟨n, -, hrecent, hplace, -⟩ := hholds.place
    rw [if_neg (Nat.ne_zero_of_lt hk)] at hplace
    rw [hplace.1, Int.toNat_natCast, ← hholds.length_eq]
    exact hrecent k hk
  · obtain ⟨f', ok, hrun, rfl, -⟩ := accumulateSample_holds hholds sample
    exact ⟨f', hrun⟩
  · obtain ⟨selected, hselect, -, hselected⟩ := selectSamples_spec M hholds hmin
    exact ⟨selected, hselect, hselected⟩

end ChronyRs.L5.Spf

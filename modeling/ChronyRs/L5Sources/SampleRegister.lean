import ChronyRs.Core.Lts
import ChronyRs.Core.Recent
import ChronyRs.L5Sources.SourceStats

/-!
# The sample register (`sourcestats.rs`)

The samples of a source, the newest first, are a history of which the register holds a window. The
rings are written slot after slot, so a sample is found by how many others came after it; a window
that shrinks moves nothing.

* `Holds`: the counters, the seven rings and the place of the least delay agree with the history.
* `pruneRegister_holds`, `accumulateSample_holds`, `doNewRegression_holds`: what each call does to
  it.
* `sample_register`: in every state of a run the logical samples are the last ones that were
  accumulated, in the order of their times.
-/
namespace ChronyRs.L5.Sst

open Loop

variable {F : Type}

/-- What is asked of a fit: it keeps as many samples as it must. -/
def Regress.Keeps (R : Regress F) : Prop :=
  ∀ x y w n m minSamples fitted, R.findBestRegression x y w n m minSamples = .ok (some fitted) →
    fitted.newStart + min n (max 3 minSamples) ≤ n

/-! ## The history -/

/-- A sample as it is stored. -/
structure Entry (F : Type) where
  time : F
  offset : F
  origOffset : F
  delay : F
  peerDispersion : F
  rootDelay : F
  rootDispersion : F

structure Buffers (F : Type) where
  times : List F
  offsets : List F
  delays : List F
  origOffsets : List F
  peerDispersions : List F
  rootDelays : List F
  rootDispersions : List F

/-- After the last write to slot `l` the long rings hold the last `t` samples and the short ones the
last `n`. -/
structure Rings (b : Buffers F) (t n l : Nat) (hist : List (Entry F)) : Prop where
  length_times : b.times.length = 128
  length_offsets : b.offsets.length = 128
  length_delays : b.delays.length = 128
  length_origOffsets : b.origOffsets.length = 64
  length_peerDispersions : b.peerDispersions.length = 64
  length_rootDelays : b.rootDelays.length = 64
  length_rootDispersions : b.rootDispersions.length = 64
  times : Recent b.times l t (hist.map Entry.time)
  offsets : Recent b.offsets l t (hist.map Entry.offset)
  delays : Recent b.delays l t (hist.map Entry.delay)
  origOffsets : Recent b.origOffsets (l % 64) n (hist.map Entry.origOffset)
  peerDispersions : Recent b.peerDispersions (l % 64) n (hist.map Entry.peerDispersion)
  rootDelays : Recent b.rootDelays (l % 64) n (hist.map Entry.rootDelay)
  rootDispersions : Recent b.rootDispersions (l % 64) n (hist.map Entry.rootDispersion)

def Buffers.push (b : Buffers F) (l : Nat) (e : Entry F) : Buffers F where
  times := b.times.set l e.time
  offsets := b.offsets.set l e.offset
  delays := b.delays.set l e.delay
  origOffsets := b.origOffsets.set (l % 64) e.origOffset
  peerDispersions := b.peerDispersions.set (l % 64) e.peerDispersion
  rootDelays := b.rootDelays.set (l % 64) e.rootDelay
  rootDispersions := b.rootDispersions.set (l % 64) e.rootDispersion

namespace Rings

variable {b : Buffers F} {t n l : Nat} {hist : List (Entry F)}

theorem shrink (h : Rings b t n l hist) {t' n' : Nat} (ht : t' ≤ t) (hn : n' ≤ n) :
    Rings b t' n' l hist :=
  { h with
    times := h.times.shrink ht
    offsets := h.offsets.shrink ht
    delays := h.delays.shrink ht
    origOffsets := h.origOffsets.shrink hn
    peerDispersions := h.peerDispersions.shrink hn
    rootDelays := h.rootDelays.shrink hn
    rootDispersions := h.rootDispersions.shrink hn }

/-- Nothing is asked of empty rings, wherever the next write goes. -/
theorem empty (h : Rings b t n l hist) (l' : Nat) (hist' : List (Entry F)) : Rings b 0 0 l' hist' :=
  { h with
    times := .zero _ _ _
    offsets := .zero _ _ _
    delays := .zero _ _ _
    origOffsets := .zero _ _ _
    peerDispersions := .zero _ _ _
    rootDelays := .zero _ _ _
    rootDispersions := .zero _ _ _ }

theorem push_long {xs : List F} (hlen : xs.length = 128) (hl : l < 128) (ht : t < 128)
    {f : Entry F → F} (h : Recent xs l t (hist.map f)) (e : Entry F) :
    (xs.set ((l + 1) % 128) (f e)).length = 128 ∧
      Recent (xs.set ((l + 1) % 128) (f e)) ((l + 1) % 128) (t + 1) ((e :: hist).map f) := by
  have hpush := h.push (by omega) (by omega) (f e)
  rw [hlen] at hpush
  exact ⟨List.length_set.trans hlen, hpush⟩

theorem push_short {xs : List F} (hlen : xs.length = 64) (hn : n < 64) {f : Entry F → F}
    (h : Recent xs (l % 64) n (hist.map f)) (e : Entry F) :
    (xs.set ((l + 1) % 128 % 64) (f e)).length = 64 ∧
      Recent (xs.set ((l + 1) % 128 % 64) (f e)) ((l + 1) % 128 % 64) (n + 1)
        ((e :: hist).map f) := by
  have hpush := h.push (by omega) (by omega) (f e)
  rw [hlen, show (l % 64 + 1) % 64 = (l + 1) % 128 % 64 by omega] at hpush
  exact ⟨List.length_set.trans hlen, hpush⟩

theorem push (h : Rings b t n l hist) (hl : l < 128) (ht : t < 128) (hn : n < 64) (e : Entry F) :
    Rings (b.push ((l + 1) % 128) e) (t + 1) (n + 1) ((l + 1) % 128) (e :: hist) where
  length_times := (push_long h.length_times hl ht h.times e).1
  length_offsets := (push_long h.length_offsets hl ht h.offsets e).1
  length_delays := (push_long h.length_delays hl ht h.delays e).1
  length_origOffsets := (push_short h.length_origOffsets hn h.origOffsets e).1
  length_peerDispersions := (push_short h.length_peerDispersions hn h.peerDispersions e).1
  length_rootDelays := (push_short h.length_rootDelays hn h.rootDelays e).1
  length_rootDispersions := (push_short h.length_rootDispersions hn h.rootDispersions e).1
  times := (push_long h.length_times hl ht h.times e).2
  offsets := (push_long h.length_offsets hl ht h.offsets e).2
  delays := (push_long h.length_delays hl ht h.delays e).2
  origOffsets := (push_short h.length_origOffsets hn h.origOffsets e).2
  peerDispersions := (push_short h.length_peerDispersions hn h.peerDispersions e).2
  rootDelays := (push_short h.length_rootDelays hn h.rootDelays e).2
  rootDispersions := (push_short h.length_rootDispersions hn h.rootDispersions e).2

end Rings

variable [F64Math F]

/-- A delay below the fixed minimum is reflected at it. -/
def keptDelay (fixedMinDelay delay : F) : F :=
  if F64.lt delay fixedMinDelay then F64.sub (F64.mul (F64.lit 2) fixedMinDelay) delay else delay

def Entry.of (fixedMinDelay : F) (sample : NtpSample F) : Entry F where
  time := sample.time
  offset := F64Math.neg sample.offset
  origOffset := F64Math.neg sample.offset
  delay := keptDelay fixedMinDelay sample.peerDelay
  peerDispersion := sample.peerDispersion
  rootDelay := sample.rootDelay
  rootDispersion := sample.rootDispersion

/-- The delay of the sample that `k` others came after. -/
def delayAt (hist : List (Entry F)) (k : Nat) : F := (hist.map Entry.delay).getD k (F64.lit 0)

namespace SourceStats

variable {M : Int} {d precision : F} {s s' : SourceStats F} {n r l k : Nat} {i : Int}
  {hist : List (Entry F)}

/-! ## Slots -/

section
omit [F64Math F]

def buffers (s : SourceStats F) : Buffers F :=
  ⟨s.sampleTimes, s.offsets, s.peerDelays, s.origOffsets, s.peerDispersions, s.rootDelays,
    s.rootDispersions⟩

theorem getRunsbufIndex_eq (hn : s.nSamples = n) (hl : s.lastSample = l) (hlo : (n : Int) - 128 ≤ i)
    (hi : i < n) : s.getRunsbufIndex i = slot 128 l (n - 1 - i).toNat := by
  unfold getRunsbufIndex slot
  rw [hn, hl, show ((runsBuf : Nat) : Int) = 128 from rfl]
  omega

theorem getBufIndex_eq (hn : s.nSamples = n) (hl : s.lastSample = l) (hlo : 0 ≤ i) (hi : i < n)
    (hn64 : n ≤ 64) : s.getBufIndex i = slot 64 (l % 64) (n - 1 - i).toNat := by
  unfold getBufIndex slot
  rw [hn, hl, show ((runsBuf : Nat) : Int) = 128 from rfl,
    show ((maxSamplesBuf : Nat) : Int) = 64 from rfl]
  omega

end

theorem asUsize_slot (l k : Nat) : asUsize (slot 128 l k) = slot 128 l k := by
  have : slot 128 l k < 128 := slot_lt (by decide)
  rw [asUsize_of_nonneg (by omega) (by omega), Int.toNat_natCast]

theorem index_delay (h : Rings s.buffers (n + r) n l hist) (henough : n + r ≤ hist.length)
    (hk : k < n + r) : index s.peerDelays (slot 128 l k) = .ok (delayAt hist k) := by
  have hlt : k < (hist.map Entry.delay).length := by
    rw [List.length_map]
    omega
  have hread : s.peerDelays[slot s.peerDelays.length l k]? = _ := h.delays k hk
  rw [show s.peerDelays.length = 128 from h.length_delays] at hread
  rw [index_eq_ok, hread, delayAt, List.getD_eq_getElem?_getD, List.getElem?_eq_getElem hlt]
  rfl

@[simp] theorem delayAt_zero (e : Entry F) (hist : List (Entry F)) :
    delayAt (e :: hist) 0 = e.delay := rfl

@[simp] theorem delayAt_succ (e : Entry F) (hist : List (Entry F)) (k : Nat) :
    delayAt (e :: hist) (k + 1) = delayAt hist k := rfl

/-- The new delay, reflected or not. -/
theorem reflectDelay_eq {xs : List F} {p : Nat} (hp : p < xs.length) (fixed delay : F) :
    reflectDelay fixed (xs.set p delay) p = .ok (xs.set p (keptDelay fixed delay)) := by
  have hp' : p < (xs.set p delay).length := by rwa [List.length_set]
  unfold reflectDelay keptDelay
  rw [index_of_lt hp', ok_bind, List.getElem_set_self]
  split
  · rw [store_of_lt hp', List.set_set]
  · rfl

/-- The sample that `k` others came after. -/
theorem getElem?_history {samples : List (NtpSample F)} (hk : k < samples.length) :
    ((samples.map (Entry.of d)).reverse)[k]? =
      some (Entry.of d samples[samples.length - 1 - k]) := by
  rw [List.getElem?_reverse (by rwa [List.length_map]), List.length_map, List.getElem?_map,
    List.getElem?_eq_getElem (by omega)]
  rfl

/-! ## The register -/

/-- The part of the state that the register is made of. -/
structure Register (F : Type) where
  minSamples : Int
  maxSamples : Int
  fixedMinDelay : F
  nSamples : Int
  runsSamples : Int
  lastSample : Int
  minDelaySample : Int
  buffers : Buffers F

def register (s : SourceStats F) : Register F :=
  ⟨s.minSamples, s.maxSamples, s.fixedMinDelay, s.nSamples, s.runsSamples, s.lastSample,
    s.minDelaySample, s.buffers⟩

variable {R : Regress F} {timesBack offsets delays weights : List F}
  {reg : Option (BestRegression F)}

theorem estimateAsymmetry_register {active : Bool}
    (h : estimateAsymmetry R timesBack offsets delays s = .ok (active, s')) :
      s'.register = s.register := by
  unfold estimateAsymmetry at h
  obtain ⟨a, -, h⟩ := bind_eq_ok.1 h
  split at h
  · cases h
    rfl
  · dsimp only at h
    split at h
    · cases h
      rfl
    · obtain ⟨asymmetry, -, h⟩ := bind_eq_ok.1 h
      cases h
      rfl

theorem chooseAsymmetry_register {active : Bool} {k : Nat}
    (h : chooseAsymmetry R timesBack offsets delays k s = .ok (active, s')) :
      s'.register = s.register := by
  unfold chooseAsymmetry at h
  split at h
  · cases h
    rfl
  · obtain ⟨tb, -, h⟩ := bind_eq_ok.1 h
    obtain ⟨off, -, h⟩ := bind_eq_ok.1 h
    exact estimateAsymmetry_register h

theorem correctAsymmetry_register {offsets' : List F}
    (h : correctAsymmetry R s timesBack offsets = .ok (s', offsets')) :
      s'.register = s.register := by
  unfold correctAsymmetry at h
  split at h
  · cases h
    rfl
  · obtain ⟨minDelay, -, h⟩ := bind_eq_ok.1 h
    obtain ⟨delays, -, h⟩ := bind_eq_ok.1 h
    obtain ⟨⟨active, s1⟩, hs1, h⟩ := bind_eq_ok.1 h
    dsimp only at h
    split at h
    · obtain ⟨corrected, -, h⟩ := bind_eq_ok.1 h
      cases h
      exact chooseAsymmetry_register hs1
    · cases h
      exact chooseAsymmetry_register hs1

theorem findBestSampleIndex_register (h : s.findBestSampleIndex timesBack = .ok s') :
    s'.register = s.register := by
  unfold findBestSampleIndex at h
  split at h
  · cases h
    rfl
  · obtain ⟨best, -, h⟩ := bind_eq_ok.1 h
    cases h
    rfl

/-- How many samples a fit drops. -/
def dropped : Option (BestRegression F) → Nat
  | some fitted => fitted.newStart
  | none => 0

section
omit [F64Math F]

theorem fit_eq_ok (h : fit R s timesBack offsets weights = .ok reg) :
    (s.nSamples ≤ 0 ∧ reg = none) ∨ ∃ x y w, R.findBestRegression x y w (asUsize s.nSamples)
      (asUsize s.runsSamples) (asUsize s.minSamples) = .ok reg := by
  unfold fit at h
  split at h
  · obtain ⟨x, -, h⟩ := bind_eq_ok.1 h
    obtain ⟨y, -, h⟩ := bind_eq_ok.1 h
    obtain ⟨w, -, h⟩ := bind_eq_ok.1 h
    exact .inr ⟨x, y, w, h⟩
  · rename_i hn
    cases h
    exact .inl ⟨not_lt.1 hn, rfl⟩

theorem dropped_le (hR : R.Keeps) (hreg : n = 0 ∧ reg = none ∨ ∃ x y w minSamples,
      R.findBestRegression x y w n r minSamples = .ok reg) :
    dropped reg ≤ n := by
  cases reg with
  | none => exact Nat.zero_le n
  | some fitted =>
    rcases hreg with ⟨-, hnone⟩ | ⟨x, y, w, minSamples, hbest⟩
    · cases hnone
    · have := hR x y w n r minSamples fitted hbest
      rw [dropped]
      omega

end

variable [LinearOrder F]

/-- The register of `n` samples, with `r` older ones behind it, after the last write to slot `l`. -/
structure Holds (maxSamples : Int) (fixedMinDelay : F) (s : SourceStats F) (n r l : Nat)
    (hist : List (Entry F)) : Prop where
  maxSamples_eq : s.maxSamples = maxSamples
  fixed_eq : s.fixedMinDelay = fixedMinDelay
  n_eq : s.nSamples = n
  runs_eq : s.runsSamples = r
  last_eq : s.lastSample = l
  last_lt : l < 128
  runs_le : r ≤ n
  n_le : n ≤ 64
  max_ge : 1 ≤ maxSamples
  enough : n + r ≤ hist.length
  rings : Rings s.buffers (n + r) n l hist
  ordered : (hist.take (n + r)).Pairwise fun a b => b.time < a.time
  minDelay : 0 < n → ∃ k < n + r, s.minDelaySample = slot 128 l k ∧
    ∀ j < n + r, delayAt hist k ≤ delayAt hist j

section
variable (h : Holds M d s n r l hist)
include h

theorem Holds.total_le : n ≤ 64 ∧ n + r ≤ 128 := by
  have := h.n_le
  have := h.runs_le
  omega

theorem Holds.index_delay (hk : k < n + r) :
    index s.peerDelays (slot 128 l k) = .ok (delayAt hist k) :=
      SourceStats.index_delay h.rings h.enough hk

theorem Holds.index_newest (hn : 0 < n) :
    ∃ e, hist[0]? = some e ∧ index s.sampleTimes (asUsize s.lastSample) = .ok e.time := by
  have hlt := h.last_lt
  have henough := h.enough
  have hread : s.sampleTimes[slot s.sampleTimes.length l 0]? = _ := h.rings.times 0 (by omega)
  rw [show s.sampleTimes.length = 128 from h.rings.length_times, slot_zero hlt,
    List.getElem?_map] at hread
  obtain ⟨e, he⟩ : ∃ e, hist[0]? = some e := ⟨_, List.getElem?_eq_getElem (by omega)⟩
  rw [he] at hread
  refine ⟨e, he, ?_⟩
  rw [h.last_eq, asUsize_of_nonneg (by omega) (by omega), Int.toNat_natCast, index_eq_ok]
  exact hread

/-- The newest sample is newer than all of the window. -/
theorem Holds.ordered_cons {e : Entry F}
    (hnew : 0 < n → ∀ e', hist[0]? = some e' → e'.time < e.time) :
    ((e :: hist).take (n + 1 + r)).Pairwise fun a b => b.time < a.time := by
  have hruns := h.runs_le
  rw [show n + 1 + r = (n + r) + 1 by omega, List.take_succ_cons, List.pairwise_cons]
  refine ⟨fun b hb => ?_, h.ordered⟩
  have hord := h.ordered
  cases hist with
  | nil => simp at hb
  | cons e' rest =>
    have hn : 0 < n := by
      by_contra h0
      rw [show n + r = 0 by omega] at hb
      cases hb
    have hlt := hnew hn e' rfl
    obtain ⟨t, ht⟩ : ∃ t, n + r = t + 1 := ⟨n + r - 1, by omega⟩
    rw [ht, List.take_succ_cons, List.pairwise_cons] at hord
    rw [ht, List.take_succ_cons] at hb
    rcases List.mem_cons.1 hb with rfl | hb
    · exact hlt
    · exact (hord.1 b hb).trans hlt

theorem Holds.asUsize_eq : asUsize s.nSamples = n ∧ asUsize s.runsSamples = r := by
  have h64 := h.total_le
  rw [h.n_eq, h.runs_eq, asUsize_of_nonneg (by omega) (by omega),
    asUsize_of_nonneg (by omega) (by omega)]
  exact ⟨Int.toNat_natCast n, Int.toNat_natCast r⟩

/-- A smaller window, with the place of its least delay. -/
theorem Holds.shrink {n' r' : Nat} (hn : n' ≤ n) (hr : r' ≤ n') (htotal : n' + r' ≤ n + r)
    {best : Int}
    (hbest : 0 < n' → ∃ k < n' + r', best = slot 128 l k ∧ ∀ j < n' + r', delayAt hist k ≤
      delayAt hist j) :
    Holds M d { s with nSamples := n', runsSamples := r', minDelaySample := best } n'
      r' l hist where
  maxSamples_eq := h.maxSamples_eq
  fixed_eq := h.fixed_eq
  n_eq := rfl
  runs_eq := rfl
  last_eq := h.last_eq
  last_lt := h.last_lt
  runs_le := hr
  n_le := hn.trans h.n_le
  max_ge := h.max_ge
  enough := htotal.trans h.enough
  rings := h.rings.shrink htotal hn
  ordered := by
    have hsub := List.take_sublist (n' + r') (hist.take (n + r))
    rw [List.take_take, Nat.min_eq_left htotal] at hsub
    exact h.ordered.sublist hsub
  minDelay := hbest

/-- A reset forgets the window; the rings keep what was written. -/
theorem Holds.reset : Holds M d s.reset 0 0 0 hist where
  maxSamples_eq := h.maxSamples_eq
  fixed_eq := h.fixed_eq
  n_eq := rfl
  runs_eq := rfl
  last_eq := rfl
  last_lt := by decide
  runs_le := le_rfl
  n_le := Nat.zero_le _
  max_ge := h.max_ge
  enough := Nat.zero_le _
  rings := h.rings.empty 0 hist
  ordered := .nil
  minDelay := fun h => absurd h (lt_irrefl 0)

theorem Holds.congr (hs : s'.register = s.register) : Holds M d s' n r l hist where
  maxSamples_eq := (congrArg Register.maxSamples hs).trans h.maxSamples_eq
  fixed_eq := (congrArg Register.fixedMinDelay hs).trans h.fixed_eq
  n_eq := (congrArg Register.nSamples hs).trans h.n_eq
  runs_eq := (congrArg Register.runsSamples hs).trans h.runs_eq
  last_eq := (congrArg Register.lastSample hs).trans h.last_eq
  last_lt := h.last_lt
  runs_le := h.runs_le
  n_le := h.n_le
  max_ge := h.max_ge
  enough := h.enough
  rings := by
    have hb : s'.buffers = s.buffers := congrArg Register.buffers hs
    rw [hb]
    exact h.rings
  ordered := h.ordered
  minDelay := by
    have hm : s'.minDelaySample = s.minDelaySample := congrArg Register.minDelaySample hs
    rw [hm]
    exact h.minDelay

theorem fitRegister_ok (hfit : fitRegister R s precision = .ok (s', timesBack, reg)) :
    Holds M d s' n r l hist ∧
      (n = 0 ∧ reg = none ∨ ∃ x y w minSamples, R.findBestRegression x y w n r minSamples =
        .ok reg) := by
  unfold fitRegister at hfit
  obtain ⟨timesBack, -, hfit⟩ := bind_eq_ok.1 hfit
  obtain ⟨⟨offsets, weights⟩, -, hfit⟩ := bind_eq_ok.1 hfit
  obtain ⟨⟨s1, corrected⟩, hcorrect, hfit⟩ := bind_eq_ok.1 hfit
  obtain ⟨reg, hreg, hfit⟩ := bind_eq_ok.1 hfit
  cases hfit
  have h1 : Holds M d s' n r l hist := h.congr (correctAsymmetry_register hcorrect)
  refine ⟨h1, ?_⟩
  rcases fit_eq_ok hreg with ⟨hn, hnone⟩ | ⟨x, y, w, hbest⟩
  · exact .inl ⟨by have := h1.n_eq; omega, hnone⟩
  · rw [h1.asUsize_eq.1, h1.asUsize_eq.2] at hbest
    exact .inr ⟨x, y, w, _, hbest⟩

end

theorem new_holds (minSamples maxSamples : Int) (minDelay asymmetry : F) :
    ∃ M, Holds M minDelay (new minSamples maxSamples minDelay asymmetry) 0 0 0 [] := by
  refine ⟨if maxSamples > 0 then max 1 (min (maxSamplesBuf : Int) maxSamples)
    else maxSamplesBuf, ?_⟩
  have h64 : ((maxSamplesBuf : Nat) : Int) = 64 := rfl
  exact
    { maxSamples_eq := rfl
      fixed_eq := rfl
      n_eq := rfl
      runs_eq := rfl
      last_eq := rfl
      last_lt := by decide
      runs_le := le_rfl
      n_le := Nat.zero_le _
      max_ge := by rw [h64]; split <;> omega
      enough := le_rfl
      rings :=
        { length_times := List.length_replicate
          length_offsets := List.length_replicate
          length_delays := List.length_replicate
          length_origOffsets := List.length_replicate
          length_peerDispersions := List.length_replicate
          length_rootDelays := List.length_replicate
          length_rootDispersions := List.length_replicate
          times := .zero _ _ _
          offsets := .zero _ _ _
          delays := .zero _ _ _
          origOffsets := .zero _ _ _
          peerDispersions := .zero _ _ _
          rootDelays := .zero _ _ _
          rootDispersions := .zero _ _ _ }
      ordered := .nil
      minDelay := fun h => absurd h (lt_irrefl 0) }

/-! ## The window -/

/-- The register of the last of `samples`, by its logical indices: `0 ≤ i` are the register itself
and `i < 0` the older samples behind it. -/
structure WindowOf (s : SourceStats F) (samples : List (NtpSample F)) : Prop where
  runs_nonneg : 0 ≤ s.runsSamples
  runs_le : s.runsSamples ≤ s.nSamples
  n_le : s.nSamples ≤ min 64 s.maxSamples
  total_le : s.nSamples + s.runsSamples ≤ 128
  /-- Sample `i` is the one that `n - 1 - i` others came after, and it is found in its slots. -/
  logical : ∀ i, -s.runsSamples ≤ i → i < s.nSamples → ∃ sample,
    0 ≤ samples.length - s.nSamples + i ∧ samples[(samples.length - s.nSamples + i).toNat]? =
      some sample ∧
    s.sampleTimes[s.getRunsbufIndex i]? = some sample.time ∧
    s.offsets[s.getRunsbufIndex i]? = some (F64Math.neg sample.offset) ∧
    s.peerDelays[s.getRunsbufIndex i]? = some (keptDelay s.fixedMinDelay sample.peerDelay) ∧
    (0 ≤ i → s.origOffsets[s.getBufIndex i]? = some (F64Math.neg sample.offset) ∧
      s.peerDispersions[s.getBufIndex i]? = some sample.peerDispersion ∧
      s.rootDelays[s.getBufIndex i]? = some sample.rootDelay ∧
      s.rootDispersions[s.getBufIndex i]? = some sample.rootDispersion)
  increasing : ∀ i j, -s.runsSamples ≤ i → i < j → j < s.nSamples → ∀ a b,
    s.sampleTimes[s.getRunsbufIndex i]? = some a → s.sampleTimes[s.getRunsbufIndex j]? =
      some b → a < b
  minDelay : 0 < s.nSamples → ∃ i, -s.runsSamples ≤ i ∧ i < s.nSamples ∧
    s.minDelaySample = s.getRunsbufIndex i ∧ ∀ j, -s.runsSamples ≤ j → j < s.nSamples → ∀ a b,
      s.peerDelays[s.getRunsbufIndex i]? = some a → s.peerDelays[s.getRunsbufIndex j]? =
        some b → a ≤ b

section
variable (h : Holds M d s n r l hist)
include h

/-- What a long ring holds at a logical index. -/
theorem Holds.long (xs : List F) (hlo : -s.runsSamples ≤ i) (hi : i < s.nSamples)
    (hlen : xs.length = 128) {f : Entry F → F} (hxs : Recent xs l (n + r) (hist.map f)) :
    xs[s.getRunsbufIndex i]? = (hist[(n - 1 - i).toNat]?).map f := by
  have hn := h.n_eq
  have hr := h.runs_eq
  have h128 := h.total_le.2
  have hread := hxs (n - 1 - i).toNat (by omega)
  rw [hlen, List.getElem?_map] at hread
  rw [getRunsbufIndex_eq h.n_eq h.last_eq (by omega) (by omega), hread]

theorem Holds.short (xs : List F) (hlo : 0 ≤ i) (hi : i < s.nSamples) (hlen : xs.length = 64)
    {f : Entry F → F} (hxs : Recent xs (l % 64) n (hist.map f)) :
    xs[s.getBufIndex i]? = (hist[(n - 1 - i).toNat]?).map f := by
  have hn := h.n_eq
  have hread := hxs (n - 1 - i).toNat (by omega)
  rw [hlen, List.getElem?_map] at hread
  rw [getBufIndex_eq h.n_eq h.last_eq hlo (by omega) h.total_le.1, hread]

theorem Holds.increasing {j : Int} (hlo : -s.runsSamples ≤ i) (hij : i < j) (hj : j < s.nSamples)
    {a b : F} (ha : s.sampleTimes[s.getRunsbufIndex i]? = some a)
    (hb : s.sampleTimes[s.getRunsbufIndex j]? = some b) : a < b := by
  have hn := h.n_eq
  have hr := h.runs_eq
  rw [h.long s.sampleTimes hlo (by omega) h.rings.length_times h.rings.times,
    Option.map_eq_some_iff] at ha
  rw [h.long s.sampleTimes (by omega) hj h.rings.length_times h.rings.times,
    Option.map_eq_some_iff] at hb
  obtain ⟨e, he, rfl⟩ := ha
  obtain ⟨e', he', rfl⟩ := hb
  -- the later index is nearer to the front of the history
  obtain ⟨hlt, rfl⟩ := List.getElem?_eq_some_iff.1 he
  obtain ⟨hlt', rfl⟩ := List.getElem?_eq_some_iff.1 he'
  have hord := List.pairwise_iff_getElem.1 h.ordered (n - 1 - j).toNat (n - 1 - i).toNat
    (by rw [List.length_take]; omega) (by rw [List.length_take]; omega) (by omega)
  rwa [List.getElem_take, List.getElem_take] at hord

theorem Holds.leastDelay (hpos : 0 < s.nSamples) :
    ∃ i, -s.runsSamples ≤ i ∧ i < s.nSamples ∧ s.minDelaySample = s.getRunsbufIndex i ∧
      ∀ j, -s.runsSamples ≤ j → j < s.nSamples →
        ∀ a b, s.peerDelays[s.getRunsbufIndex i]? = some a →
        s.peerDelays[s.getRunsbufIndex j]? = some b → a ≤ b := by
  have hn := h.n_eq
  have hr := h.runs_eq
  have h128 := h.total_le.2
  obtain ⟨k, hk, hmin, hleast⟩ := h.minDelay (by omega)
  have hdelay {j : Int} (hlo : -s.runsSamples ≤ j) (hj : j < s.nSamples) {b : F}
      (hb : s.peerDelays[s.getRunsbufIndex j]? = some b) : b = delayAt hist (n - 1 - j).toNat := by
    rw [h.long s.peerDelays hlo hj h.rings.length_delays h.rings.delays, ← List.getElem?_map] at hb
    rw [delayAt, List.getD_eq_getElem?_getD, hb]
    rfl
  refine ⟨n - 1 - k, by omega, by omega, ?_, fun j hlo hj a b ha hb => ?_⟩
  · rw [getRunsbufIndex_eq h.n_eq h.last_eq (by omega) (by omega), hmin,
      show ((n : Int) - 1 - (n - 1 - k)).toNat = k by omega]
  · rw [hdelay (by omega) (by omega) ha, hdelay hlo hj hb,
      show ((n : Int) - 1 - (n - 1 - k)).toNat = k by omega]
    exact hleast _ (by omega)

end

theorem Holds.window {samples : List (NtpSample F)}
    (h : Holds M d s n r l ((samples.map (Entry.of d)).reverse)) (hM : (n : Int) ≤ M) :
      WindowOf s samples := by
  have hn := h.n_eq
  have hr := h.runs_eq
  have hruns := h.runs_le
  have h64 := h.total_le
  have hmax := h.maxSamples_eq
  have henough := h.enough
  rw [List.length_reverse, List.length_map] at henough
  refine
    { runs_nonneg := by omega
      runs_le := by omega
      n_le := by omega
      total_le := by omega
      logical := fun i hlo hi => ?_
      increasing := fun i j hlo hij hj a b ha hb => h.increasing hlo hij hj ha hb
      minDelay := h.leastDelay }
  have hk : (n - 1 - i).toNat < samples.length := by omega
  have hentry := getElem?_history (d := d) hk
  refine ⟨samples[samples.length - 1 - (n - 1 - i).toNat], by omega, ?_, ?_, ?_, ?_, fun h0 =>
    ⟨?_, ?_, ?_, ?_⟩⟩
  · rw [hn, show ((samples.length : Int) - n + i).toNat =
      samples.length - 1 - (n - 1 - i).toNat by omega]
    exact List.getElem?_eq_getElem _
  · rw [h.long s.sampleTimes hlo hi h.rings.length_times h.rings.times, hentry]
    rfl
  · rw [h.long s.offsets hlo hi h.rings.length_offsets h.rings.offsets, hentry]
    rfl
  · rw [h.long s.peerDelays hlo hi h.rings.length_delays h.rings.delays, hentry, h.fixed_eq]
    rfl
  · rw [h.short s.origOffsets h0 hi h.rings.length_origOffsets h.rings.origOffsets, hentry]
    rfl
  · rw [h.short s.peerDispersions h0 hi h.rings.length_peerDispersions
      h.rings.peerDispersions, hentry]
    rfl
  · rw [h.short s.rootDelays h0 hi h.rings.length_rootDelays h.rings.rootDelays, hentry]
    rfl
  · rw [h.short s.rootDispersions h0 hi h.rings.length_rootDispersions
      h.rings.rootDispersions, hentry]
    rfl

variable [OrderedF64 F]

/-! ## Pruning -/

/-- The loop finds a least delay of the window. -/
theorem findMinDelaySample_spec {D : Nat → F} (hn : s.nSamples = n) (hr : s.runsSamples = r)
    (hl : s.lastSample = l) (h128 : n + r ≤ 128) (hpos : 0 < n)
    (hread : ∀ k < n + r, index s.peerDelays (slot 128 l k) = .ok (D k)) :
    ∃ k < n + r, s.findMinDelaySample = .ok { s with minDelaySample := slot 128 l k } ∧
      ∀ j < n + r, D k ≤ D j := by
  -- the oldest sample, and all that the loop has seen
  let I (done : List Int) (best : Int) : Prop :=
    ∃ k < n + r, best = slot 128 l k ∧ D k ≤ D (n + r - 1) ∧ ∀ i ∈ done, D k ≤ D (n - 1 - i).toNat
  have hfirst : (s.getRunsbufIndex (-s.runsSamples) : Int) = slot 128 l (n + r - 1) := by
    rw [getRunsbufIndex_eq hn hl (by omega) (by omega)]
    congr 2
    omega
  have hstep : ∀ done i rest best, intRange (-s.runsSamples + 1) s.nSamples = done ++ i :: rest →
      I done best → ∃ best', s.lesserDelay best i = .ok best' ∧ I (done ++ [i]) best' := by
    rintro done i rest _ hsplit ⟨k, hk, rfl, hold, hdone⟩
    obtain ⟨hlo, hhi⟩ := mem_intRange.1 (hsplit ▸ List.mem_append_right done List.mem_cons_self)
    have hi : (n - 1 - i).toNat < n + r := by omega
    rw [lesserDelay, getRunsbufIndex_eq hn hl (by omega) (by omega), asUsize_slot,
      hread _ hi, hread _ hk]
    by_cases hlt : F64.lt (D (n - 1 - i).toNat) (D k) = true
    · have hlt' := (OrderedF64.lt_iff _ _).1 hlt
      refine ⟨_, if_pos hlt, (n - 1 - i).toNat, hi, rfl, hlt'.le.trans hold, fun j hj => ?_⟩
      rcases List.mem_append.1 hj with hj | hj
      · exact hlt'.le.trans (hdone j hj)
      · rw [List.mem_singleton.1 hj]
    · have hge : D k ≤ D (n - 1 - i).toNat := not_lt.1 fun h => hlt ((OrderedF64.lt_iff _ _).2 h)
      refine ⟨_, if_neg hlt, k, hk, rfl, hold, fun j hj => ?_⟩
      rcases List.mem_append.1 hj with hj | hj
      · exact hdone j hj
      · rw [List.mem_singleton.1 hj]
        exact hge
  obtain ⟨best, hloop, k, hk, rfl, hold, hdone⟩ :=
    foldlM_invariant I ⟨n + r - 1, by omega, hfirst, le_refl _, nofun⟩ hstep
  refine ⟨k, hk, ?_, fun j hj => ?_⟩
  · unfold findMinDelaySample
    rw [hloop]
    rfl
  · by_cases hj' : j = n + r - 1
    · rw [hj']
      exact hold
    · have hmem : (n - 1 - j : Int) ∈ intRange (-s.runsSamples + 1) s.nSamples :=
        mem_intRange.2 (by omega)
      have h := hdone _ hmem
      rwa [show (n - 1 - ((n : Int) - 1 - j)).toNat = j by omega] at h

section
variable (h : Holds M d s n r l hist)
include h

/-- **Pruning** moves the oldest samples of the register behind it, and drops what is then too
old. -/
theorem pruneRegister_holds (hk : k ≤ n) :
    ∃ s', s.pruneRegister k = .ok s' ∧ Holds M d s' (n - k) (min (r + k) (n - k)) l hist := by
  have hruns := h.runs_le
  have h128 := h.total_le.2
  by_cases hk0 : k = 0
  · subst hk0
    refine ⟨s, rfl, ?_⟩
    rwa [Nat.sub_zero, Nat.add_zero, Nat.min_eq_left hruns]
  have hn' : s.nSamples - (k : Int) = (n - k : Nat) := by
    rw [h.n_eq]
    omega
  have hr' : min (s.runsSamples + (k : Int)) ((n - k : Nat) * ((regressRunsRatio : Int) - 1)) =
      (min (r + k) (n - k) : Nat) := by
    rw [h.runs_eq, show ((regressRunsRatio : Nat) : Int) = 2 from rfl]
    omega
  rw [pruneRegister, if_neg (by omega)]
  dsimp only
  rw [hn', hr']
  generalize hr1 : min (r + k) (n - k) = r1
  rcases Nat.eq_zero_or_pos (n - k) with h0 | hpos
  · have hr10 : r1 = 0 := by omega
    subst hr10
    rw [h0]
    exact ⟨_, rfl, h.shrink (Nat.zero_le _) le_rfl (Nat.zero_le _)
      (fun h => absurd h (lt_irrefl 0))⟩
  · have htotal : n - k + r1 ≤ n + r := by omega
    obtain ⟨j, hj, hfind, hmin⟩ := findMinDelaySample_spec
      (s := { s with nSamples := (n - k : Nat), runsSamples := r1 }) (D := delayAt hist)
        (l := l) rfl rfl h.last_eq
      (by omega) hpos fun j hj => h.index_delay (lt_of_lt_of_le hj htotal)
    exact ⟨_, hfind, h.shrink (by omega) (by omega) htotal fun _ => ⟨j, hj, rfl, hmin⟩⟩

/-! ## Accumulating -/

/-- A full register loses its oldest sample. -/
theorem pruneFull_holds : ∃ s' n' r', s.pruneFull = .ok s' ∧ Holds M d s' n' r' l hist ∧ n' < 64 ∧
      ((n : Int) ≤ M → (n' : Int) < M) ∧ (n' = n ∧ r' = r ∨ n' + 1 = n ∧ r' = min (r + 1) n') := by
  have h64 := h.n_le
  have hn := h.n_eq
  have hmax := h.maxSamples_eq
  by_cases hfull : s.nSamples > 0 ∧ (s.nSamples = maxSamplesBuf ∨ s.nSamples = s.maxSamples)
  · obtain ⟨s', hprune, h'⟩ := pruneRegister_holds h (show 1 ≤ n by omega)
    exact ⟨s', n - 1, _, (if_pos hfull).trans hprune, h', by omega, fun _ => by omega,
      .inr ⟨by omega, rfl⟩⟩
  · have hno := hfull
    have hM1 := h.max_ge
    rw [show ((maxSamplesBuf : Nat) : Int) = 64 from rfl] at hno
    exact ⟨s, n, r, if_neg hfull, h, by omega, fun _ => by omega, .inl ⟨rfl, rfl⟩⟩

/-- What is left is older than the new sample. -/
theorem discardOutdated_holds (time : F) :
    ∃ s' n' r' l', s.discardOutdated time = .ok s' ∧ Holds M d s' n' r' l' hist ∧
      (n' = n ∧ r' = r ∨ n' = 0 ∧ r' = 0) ∧ (0 < n' → ∀ e, hist[0]? = some e → e.time < time) := by
  unfold discardOutdated
  by_cases hpos : s.nSamples > 0
  · obtain ⟨e, he, hread⟩ := h.index_newest (by have := h.n_eq; omega)
    rw [if_pos hpos, hread, ok_bind]
    by_cases hold : F64.le time e.time = true
    · exact ⟨_, 0, 0, 0, if_pos hold, h.reset, .inr ⟨rfl, rfl⟩, fun h => absurd h (lt_irrefl 0)⟩
    · refine ⟨s, n, r, l, if_neg hold, h, .inl ⟨rfl, rfl⟩, fun _ e' he' => ?_⟩
      cases he.symm.trans he'
      exact not_le.1 fun hle => hold ((OrderedF64.le_iff _ _).2 hle)
  · rw [if_neg hpos]
    exact ⟨s, n, r, l, rfl, h, .inl ⟨rfl, rfl⟩, fun hn => absurd hn (by have := h.n_eq; omega)⟩

/-- The least delay is that of the new sample, or the one it was. -/
theorem updateMinDelay_holds {e : Entry F} {xs : List F} (hlen : xs.length = 128)
    (hread : Recent xs ((l + 1) % 128) (n + 1 + r) ((e :: hist).map Entry.delay)) :
    ∃ k < n + 1 + r, updateMinDelay s xs ((l + 1) % 128) =
      .ok ((slot 128 ((l + 1) % 128) k : Nat) : Int) ∧
      ∀ j < n + 1 + r, delayAt (e :: hist) k ≤ delayAt (e :: hist) j := by
  have hlast : (l + 1) % 128 < 128 := Nat.mod_lt _ (by decide)
  have henough := h.enough
  have hruns := h.runs_le
  have h128 := h.total_le.2
  have hindex : ∀ k < n + 1 + r, index xs (slot 128 ((l + 1) % 128) k) =
      .ok (delayAt (e :: hist) k) := by
    intro k hk
    have hlt : k < ((e :: hist).map Entry.delay).length := by
      rw [List.length_map, List.length_cons]
      omega
    have h := hread k hk
    rw [hlen] at h
    rw [index_eq_ok, h, delayAt, List.getD_eq_getElem?_getD, List.getElem?_eq_getElem hlt]
    rfl
  have hnew := hindex 0 (by omega)
  rw [slot_zero hlast, delayAt_zero] at hnew
  unfold updateMinDelay
  by_cases h0 : s.nSamples = 0
  · have hn : n = 0 := by have := h.n_eq; omega
    refine ⟨0, by omega, by rw [if_pos h0, slot_zero hlast]; rfl, fun j hj => ?_⟩
    rw [show j = 0 by omega]
  · obtain ⟨k, hk, hmin, hleast⟩ := h.minDelay (by have := h.n_eq; omega)
    have hold := hindex (k + 1) (by omega)
    rw [slot_succ h.last_lt (by omega), delayAt_succ] at hold
    rw [if_neg h0, hnew, hmin, asUsize_slot, hold, ok_bind, ok_bind]
    by_cases hlt : F64.lt e.delay (delayAt hist k) = true
    · have hlt' := (OrderedF64.lt_iff _ _).1 hlt
      refine ⟨0, by omega, by rw [if_pos hlt, slot_zero hlast]; rfl, fun j hj => ?_⟩
      cases j with
      | zero => exact le_rfl
      | succ j => exact hlt'.le.trans (hleast j (by omega))
    · have hge := not_lt.1 fun hlt' => hlt ((OrderedF64.lt_iff _ _).2 hlt')
      refine ⟨k + 1, by omega, by rw [if_neg hlt, slot_succ h.last_lt (by omega)]; rfl,
        fun j hj => ?_⟩
      cases j with
      | zero => exact hge
      | succ j => exact hleast j (by omega)

/-- **One more sample** in front of the others. -/
theorem storeSample_holds (h64 : n < 64) {sample : NtpSample F}
    (hnew : 0 < n → ∀ e, hist[0]? = some e → e.time < sample.time) :
    ∃ s', s.storeSample sample = .ok s' ∧
      Holds M d s' (n + 1) r ((l + 1) % 128) (Entry.of d sample :: hist) := by
  have hruns := h.runs_le
  have hlast : (l + 1) % 128 < 128 := Nat.mod_lt _ (by decide)
  have hrings := h.rings.push h.last_lt (by omega) h64 (Entry.of d sample)
  rw [show n + r + 1 = n + 1 + r by omega] at hrings
  obtain ⟨k, hk, hupdate, hleast⟩ := updateMinDelay_holds h hrings.length_delays hrings.delays
  have hnext : (s.lastSample + 1) % (runsBuf : Int) = ((l + 1) % 128 : Nat) := by
    rw [h.last_eq, show ((runsBuf : Nat) : Int) = 128 from rfl]
    omega
  have hslot : asUsize (((l + 1) % 128 : Nat) : Int) = (l + 1) % 128 := by
    rw [asUsize_of_nonneg (by omega) (by omega), Int.toNat_natCast]
  have hlong (xs : List F) (hlen : xs.length = 128) (x : F) :
      store xs ((l + 1) % 128) x = .ok (xs.set ((l + 1) % 128) x) := store_of_lt (by omega) x
  have hshort (xs : List F) (hlen : xs.length = 64) (x : F) :
      store xs ((l + 1) % 128 % maxSamplesBuf) x = .ok (xs.set ((l + 1) % 128 % 64) x) :=
    store_of_lt (by rw [hlen]; exact Nat.mod_lt _ (by decide)) x
  have hdelays := reflectDelay_eq (show (l + 1) % 128 < s.peerDelays.length from
    lt_of_lt_of_eq hlast h.rings.length_delays.symm) d sample.peerDelay
  have hmin : s.updateMinDelay (s.peerDelays.set ((l + 1) % 128) (keptDelay d sample.peerDelay))
    ((l + 1) % 128) = _ := hupdate
  unfold storeSample
  rw [hnext]
  dsimp only
  rw [hslot, hlong s.sampleTimes h.rings.length_times, ok_bind,
    hlong s.offsets h.rings.length_offsets, ok_bind,
    hshort s.origOffsets h.rings.length_origOffsets, ok_bind,
    hlong s.peerDelays h.rings.length_delays, ok_bind,
    hshort s.peerDispersions h.rings.length_peerDispersions, ok_bind,
    hshort s.rootDelays h.rings.length_rootDelays, ok_bind,
    hshort s.rootDispersions h.rings.length_rootDispersions, ok_bind,
    h.fixed_eq, hdelays, ok_bind, hmin, ok_bind]
  exact ⟨_, rfl,
    { maxSamples_eq := h.maxSamples_eq
      fixed_eq := rfl
      n_eq := by rw [h.n_eq]; rfl
      runs_eq := h.runs_eq
      last_eq := rfl
      last_lt := hlast
      runs_le := by omega
      n_le := h64
      max_ge := h.max_ge
      enough := by have := h.enough; rw [List.length_cons]; omega
      rings := hrings
      ordered := h.ordered_cons hnew
      minDelay := fun _ => ⟨k, hk, rfl, hleast⟩ }⟩

/-- **Accumulating** a sample always succeeds. -/
theorem accumulateSample_holds (sample : NtpSample F) :
    ∃ s' n' r' l', s.accumulateSample sample = .ok s' ∧
      Holds M d s' n' r' l' (Entry.of d sample :: hist) ∧ ((n : Int) ≤ M → (n' : Int) ≤ M) ∧
      (n' = 1 ∧ r' = 0 ∨ n' = n + 1 ∧ r' = r ∨ n' = n ∧ r' = min (r + 1) (n - 1)) := by
  obtain ⟨s1, n1, r1, hprune, h1, h64, hM, hfull⟩ := pruneFull_holds h
  obtain ⟨s2, n2, r2, l2, hdiscard, h2, hold, hnew⟩ := discardOutdated_holds h1 sample.time
  obtain ⟨s', hstore, h'⟩ := storeSample_holds h2 (by omega) hnew
  have hM1 := h.max_ge
  refine ⟨s', _, _, _, ?_, h', by omega, by omega⟩
  rw [accumulateSample, hprune, ok_bind, hdiscard, ok_bind, hstore]

/-! ## The regression

Nothing of the register changes but by the pruning at the end. -/

theorem pruneRegister_ok {s1 : SourceStats F} (hk : k ≤ n) (hprune : s1.pruneRegister k = .ok s')
    (hs : s1.register = s.register) : Holds M d s' (n - k) (min (r + k) (n - k)) l hist := by
  obtain ⟨s2, hprune', h2⟩ := pruneRegister_holds (h.congr hs) hk
  cases hprune'.symm.trans hprune
  exact h2

/-- The samples that the fit dropped are pruned. -/
theorem takeOver_ok (hdrop : dropped reg ≤ n) {start : Nat}
    (htake : takeOver R s reg = .ok (s', start)) :
    Holds M d s' (n - dropped reg) (min (r + dropped reg) (n - dropped reg)) l hist := by
  unfold takeOver at htake
  cases reg with
  | some fitted =>
    obtain ⟨freqSd, -, htake⟩ := bind_eq_ok.1 htake
    obtain ⟨time, -, htake⟩ := bind_eq_ok.1 htake
    obtain ⟨skew, -, htake⟩ := bind_eq_ok.1 htake
    obtain ⟨s2, hprune, htake⟩ := bind_eq_ok.1 htake
    cases htake
    exact pruneRegister_ok h hdrop hprune rfl
  | none =>
    obtain ⟨offset, -, htake⟩ := bind_eq_ok.1 htake
    obtain ⟨time, -, htake⟩ := bind_eq_ok.1 htake
    cases htake
    rw [dropped, Nat.sub_zero, Nat.add_zero, Nat.min_eq_left h.runs_le]
    exact h.congr rfl

/-- **A regression** that returns has pruned at most. -/
theorem doNewRegression_holds (hR : R.Keeps) (hcall : doNewRegression R s precision = .ok s') :
    ∃ n' ≤ n, ∃ r', Holds M d s' n' r' l hist := by
  unfold doNewRegression at hcall
  obtain ⟨⟨s1, timesBack, reg⟩, hfit, hcall⟩ := bind_eq_ok.1 hcall
  obtain ⟨⟨s2, start⟩, htake, hcall⟩ := bind_eq_ok.1 hcall
  obtain ⟨tb, -, hbest⟩ := bind_eq_ok.1 hcall
  obtain ⟨h1, hreg⟩ := fitRegister_ok h hfit
  have h2 := takeOver_ok h1 (dropped_le hR hreg) htake
  exact ⟨_, Nat.sub_le _ _, _, h2.congr (findBestSampleIndex_register hbest)⟩

end

/-! ## Runs -/

inductive Event (F : Type) where
  | accumulate (sample : NtpSample F)
  | regress (precision : F)
  | reset

def call (R : Regress F) (s : SourceStats F) : Event F → Rust (SourceStats F)
  | .accumulate sample => s.accumulateSample sample
  | .regress precision => doNewRegression R s precision
  | .reset => return s.reset

def Step (R : Regress F) (s : SourceStats F) (e : Event F) (s' : SourceStats F) : Prop :=
  call R s e = .ok s'

def accepted (tr : List (Event F)) : List (NtpSample F) :=
  tr.filterMap fun
    | .accumulate sample => some sample
    | _ => none

/-- The history of a run, the newest sample first. -/
def history (fixedMinDelay : F) (tr : List (Event F)) : List (Entry F) :=
  ((accepted tr).map (Entry.of fixedMinDelay)).reverse

/-- **Every call** keeps the register in step with the history. -/
theorem step_holds (hR : R.Keeps) {e : Event F} {tr : List (Event F)}
    (h : Holds M d s n r l (history d tr)) (hM : (n : Int) ≤ M) (hstep : Step R s e s') :
    ∃ n' r' l', Holds M d s' n' r' l' (history d (tr ++ [e])) ∧ (n' : Int) ≤ M := by
  cases e with
  | accumulate sample =>
    obtain ⟨s1, n1, r1, l1, hcall, h1, hmax, -⟩ := accumulateSample_holds h sample
    cases hcall.symm.trans hstep
    refine ⟨n1, r1, l1, ?_, hmax hM⟩
    simpa [history, accepted] using h1
  | regress precision =>
    obtain ⟨n1, hle, r1, h1⟩ := doNewRegression_holds h hR hstep
    refine ⟨n1, r1, l, ?_, by omega⟩
    simpa [history, accepted] using h1
  | reset =>
    cases hstep
    refine ⟨0, 0, 0, ?_, by omega⟩
    simpa [history, accepted] using h.reset

theorem run_holds (hR : R.Keeps) (tr0 : List (Event F)) {tr : List (Event F)}
    (hrun : Run (Step R) s tr s') (h : Holds M d s n r l (history d tr0)) (hM : (n : Int) ≤ M) :
    ∃ n' r' l', Holds M d s' n' r' l' (history d (tr0 ++ tr)) ∧ (n' : Int) ≤ M := by
  induction hrun generalizing n r l tr0 with
  | nil s => exact ⟨n, r, l, by rwa [List.append_nil], hM⟩
  | @cons s s1 s2 e tr hstep _ ih =>
    obtain ⟨n1, r1, l1, h1, hM1⟩ := step_holds hR h hM hstep
    have h2 := ih _ h1 hM1
    rwa [List.append_assoc] at h2

/-- **The sample register.** In every state of a run from a new source, with any fit that keeps as
many samples as it must, the register and the older samples behind it are the last samples that were
accumulated, in the order of their times and each in its slots, and the least delay is where it is
said to be. Every pruning leaves the counters in their bounds, and a further sample can always be
accumulated. `find_best_regression` is such a fit. -/
theorem sample_register {R : Regress F} (hR : R.Keeps) {minSamples maxSamples : Int}
    {minDelay asymmetry : F} {tr : List (Event F)} (hrun : Run (Step R)
      (new minSamples maxSamples minDelay asymmetry) tr s) :
    WindowOf s (accepted tr) ∧
      (∀ k : Nat, k ≤ s.nSamples → ∃ s', s.pruneRegister k = .ok s' ∧ 0 ≤ s'.runsSamples ∧
        s'.runsSamples ≤ s'.nSamples ∧ s'.nSamples ≤ min 64 s'.maxSamples) ∧
      (∀ sample, ∃ s', s.accumulateSample sample = .ok s') ∧
      ∀ (x y w : List F) (n m k : Nat) (fitted : BestRegression F),
        findBestRegression x y w n m k = .ok (some fitted) →
          fitted.newStart + min n (max 3 k) ≤ n := by
  obtain ⟨M, hnew⟩ := new_holds minSamples maxSamples minDelay asymmetry
  obtain ⟨n, r, l, h, hM⟩ := run_holds hR [] hrun hnew (by have := hnew.max_ge; omega)
  refine ⟨h.window hM, fun k hk => ?_, fun sample => ?_, fun _ _ _ _ _ _ _ hbest =>
    findBestRegression_keeps hbest⟩
  · obtain ⟨s', hprune, h'⟩ := pruneRegister_holds h (k := k) (by have := h.n_eq; omega)
    have hwindow : WindowOf s' (accepted tr) := h'.window (by omega)
    exact ⟨s', hprune, hwindow.runs_nonneg, hwindow.runs_le, hwindow.n_le⟩
  · obtain ⟨s', n', r', l', hcall, -⟩ := accumulateSample_holds h sample
    exact ⟨s', hcall⟩

/-- The search of the source, with statistics that are good enough for a few samples. -/
def sketch : Regress ℚ where
  findBestRegression := findBestRegression
  findMedian x := return x.headD 0
  multipleRegress _ _ _ := return none
  tCoef _ := 1

/-- Four samples, the last of them after a regression, in a register for three. -/
def fourSamples : List (Event ℚ) :=
  [.accumulate ⟨1, 1/10, 1/50, 1/1000, 1/40, 1/900⟩,
    .accumulate ⟨2, 1/20, 1/60, 1/1000, 1/40, 1/900⟩,
    .accumulate ⟨3, 1/10, 1/40, 1/1000, 1/40, 1/900⟩, .regress (1/1000000),
    .accumulate ⟨4, 1/30, 1/50, 1/1000, 1/40, 1/900⟩]

theorem sample_register_four : ∃ s, s.nSamples = 3 ∧ s.runsSamples = 1 ∧
    WindowOf s (accepted fourSamples) := by
  have hcheck : (fourSamples.foldlM (call sketch) (new 1 3 0 0)).toOption.any
      (fun s => s.nSamples = 3 && s.runsSamples = 1) = true := by decide +kernel
  obtain ⟨s, hrun, hs⟩ := exists_of_check hcheck
  simp only [Bool.and_eq_true, decide_eq_true_eq] at hs
  exact ⟨s, hs.1, hs.2,
    (sample_register (fun _ _ _ _ _ _ _ hbest => findBestRegression_keeps hbest)
      (Run.of_foldlM hrun)).1⟩

end SourceStats

end ChronyRs.L5.Sst

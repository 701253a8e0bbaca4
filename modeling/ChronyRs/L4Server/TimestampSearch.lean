import ChronyRs.Core.Cyclic
import ChronyRs.Core.Ring
import ChronyRs.L4Server.TimestampMap

/-!
# Looking up a timestamp

`entries` is the logical content of the ring, `Sound` its invariant: the receive timestamps go up
in the cyclic order from the first entry on, none is zero, and the cache points at its entry.

* `search_outcome`: from a sound map the search ends with the entry of the timestamp, or with the
  gap it belongs in, or in an overflow panic, the last only with entries on both sides of an NTP
  era wrap. It never runs out of fuel.
* `find_cases`: the same for `find_ntp_rx_ts`, with the cache it leaves.
-/
namespace ChronyRs.L4.Server

open Dial

/-! ## Signed differences -/

theorem toInt_toInt64 (x : UInt64) :
    x.toInt64.toInt = if x.toNat < 2 ^ 63 then (x.toNat : Int) else x.toNat - 2 ^ 64 := by
  have h : x.toInt64.toInt = x.toBitVec.toInt := rfl
  have hn : x.toBitVec.toNat = x.toNat := rfl
  rw [h, BitVec.toInt_eq_toNat_cond, hn]
  split <;> split <;> omega

theorem ahead_eq (y x : UInt64) : ahead y x = (x - y).toNat := rfl

theorem toInt64_sub_neg {x y : UInt64} : (x - y).toInt64 < 0 ↔ 2 ^ 63 ≤ ahead y x := by
  have hlt := (x - y).toNat_lt
  rw [Int64.lt_iff_toInt_lt, toInt_toInt64, ahead_eq, Int64.toInt_zero]
  split <;> omega

theorem toInt64_sub_pos {x y : UInt64} :
    0 < (x - y).toInt64 ↔ 0 < ahead y x ∧ ahead y x < 2 ^ 63 := by
  have hlt := (x - y).toNat_lt
  rw [Int64.lt_iff_toInt_lt, toInt_toInt64, ahead_eq, Int64.toInt_zero]
  split <;> omega

theorem toInt64_sub_nonpos {x y : UInt64} :
    (x - y).toInt64 ≤ 0 ↔ ahead y x = 0 ∨ 2 ^ 63 ≤ ahead y x := by
  have hlt := (x - y).toNat_lt
  rw [Int64.le_iff_toInt_le, toInt_toInt64, ahead_eq, Int64.toInt_zero]
  split <;> omega

/-- Without a wrap between two timestamps their distance is their difference, and a timestamp
between them is also between them as a number. -/
theorem le_of_ahead_le {x y z : UInt64} (hxz : x.toNat ≤ z.toNat) (h : ahead x y ≤ ahead x z) :
    x.toNat ≤ y.toNat ∧ y.toNat ≤ z.toNat := by
  have hx := x.toNat_lt
  have hy := y.toNat_lt
  have hz := z.toNat_lt
  rw [ahead_eq, ahead_eq, UInt64.toNat_sub, UInt64.toNat_sub] at h
  omega

namespace NtpTimestampMap

variable {F : Type} {m : NtpTimestampMap F} {ts : List NtpTimestamps} {rx : UInt64}

/-! ## The logical content -/

/-- The entries, in logical order. -/
def entries (m : NtpTimestampMap F) : List NtpTimestamps :=
  match m.timestamps with
  | none => []
  | some ts => ring ts m.first m.size

/-- Their receive timestamps. -/
def rxs (m : NtpTimestampMap F) : List UInt64 := m.entries.map NtpTimestamps.rxTs

/-- The vector is allocated, with `max_size` slots. -/
structure Alloc (m : NtpTimestampMap F) (ts : List NtpTimestamps) : Prop where
  timestamps_eq : m.timestamps = some ts
  length_eq : ts.length = m.maxSize
  pow : ∃ k ≤ 31, m.maxSize = 2 ^ k
  size_le : m.size ≤ m.maxSize

theorem ntpTssIndex_eq (h : ∃ k ≤ 31, m.maxSize = 2 ^ k) (i : Nat) :
    m.ntpTssIndex i = (m.first + i) % m.maxSize := by
  obtain ⟨k, -, hk⟩ := h
  rw [ntpTssIndex, hk, Nat.and_two_pow_sub_one_eq_mod]

namespace Alloc

theorem entries_eq (h : m.Alloc ts) : m.entries = ring ts m.first m.size := by
  rw [entries, h.timestamps_eq]

theorem size_le_max (h : m.Alloc ts) : m.size ≤ 2 ^ 31 := by
  obtain ⟨k, hk, hpow⟩ := h.pow
  exact h.size_le.trans (hpow ▸ Nat.pow_le_pow_right (by omega) hk)

theorem entries_length (h : m.Alloc ts) : m.entries.length = m.size := by
  rw [h.entries_eq, ring_length (by rw [h.length_eq]; exact h.size_le)]

theorem rxs_length (h : m.Alloc ts) : m.rxs.length = m.size := by
  rw [rxs, List.length_map, h.entries_length]

theorem slot_lt (h : m.Alloc ts) (i : Nat) : m.ntpTssIndex i < ts.length := by
  obtain ⟨k, -, hk⟩ := h.pow
  rw [ntpTssIndex_eq h.pow, h.length_eq]
  exact Nat.mod_lt _ (hk ▸ Nat.two_pow_pos k)

theorem read (h : m.Alloc ts) {i : Nat} (hi : i < m.size) :
    ∃ tss, index ts (m.ntpTssIndex i) = .ok tss ∧ m.entries[i]? = some tss := by
  refine ⟨_, index_of_lt (h.slot_lt i), ?_⟩
  rw [h.entries_eq, ring_getElem? (by rw [h.length_eq]; exact h.size_le) hi, h.length_eq,
    ← ntpTssIndex_eq h.pow]
  exact List.getElem?_eq_getElem (h.slot_lt i)

theorem read_rx (h : m.Alloc ts) {i : Nat} (hi : i < m.size) :
    ∃ tss, index ts (m.ntpTssIndex i) = .ok tss ∧ m.rxs[i]? = some tss.rxTs := by
  obtain ⟨tss, h1, h2⟩ := h.read hi
  exact ⟨tss, h1, by rw [rxs, List.getElem?_map, h2]; rfl⟩

end Alloc

/-! ## The search -/

/-- Where a timestamp that is not in the map belongs: before the first entry, or behind those that
are nearer to the first one than it is. -/
def Gap (l : List UInt64) (rx : UInt64) (k : Nat) : Prop :=
  k ≤ l.length ∧ ∀ b ∈ l.head?,
    (k = 0 ∧ 2 ^ 63 ≤ ahead b rx) ∨
    (0 < k ∧ ahead b rx < 2 ^ 63 ∧ (∀ x ∈ l.take k, ahead b x < ahead b rx) ∧
      ∀ x ∈ l.drop k, ahead b rx < ahead b x)

/-- How a search can end. -/
inductive Outcome (m : NtpTimestampMap F) (rx : UInt64) : Rust (Bool × Nat) → Prop
  | hit {i : Nat} (h : m.rxs[i]? = some rx) : Outcome m rx (.ok (true, i))
  | miss {k : Nat} (h : Gap m.rxs rx k) : Outcome m rx (.ok (false, k))
  /-- Some entry is on the other side of the era wrap. -/
  | wraps (h : ¬ m.rxs.Pairwise (fun x y => x.toNat < y.toNat)) : Outcome m rx (.error .overflow)

/-- A part of a span is at most two widths of steps from its start. -/
theorem steps_le {part span width : Nat} (hw : 0 < width) (h : part ≤ span) :
    part / (if span / width = 0 then 1 else span / width) ≤ 2 * width := by
  refine (Nat.div_le_div_right h).trans ?_
  have hmod := Nat.div_add_mod span width
  have hlt := Nat.mod_lt span hw
  split
  · rename_i h0
    rw [h0] at hmod
    rw [Nat.div_one]
    omega
  · rename_i h0
    refine (Nat.div_lt_of_lt_mul ?_).le
    have hpos : width ≤ width * (span / width) :=
      Nat.le_mul_of_pos_right width (Nat.pos_of_ne_zero h0)
    have hcomm : span / width * (2 * width) = 2 * (width * (span / width)) := by ring
    omega

/-- The next probe is strictly between the bounds. The interpolation overflows unless the timestamp
is, as a number, between those at the bounds. -/
theorem probe_cases (rx rxLo rxHi : UInt64) (i : Nat) {lo hi : Nat} (h : lo + 1 < hi)
    (hhi : hi < 2 ^ 31) : (∃ x, probe rx lo hi rxLo rxHi i = .ok x ∧ lo < x ∧ x < hi) ∨
      (probe rx lo hi rxLo rxHi i = .error .overflow ∧ 3 < hi - lo ∧
        ¬ (rxLo.toNat ≤ rx.toNat ∧ rx.toNat ≤ rxHi.toNat)) := by
  have clamp : ∀ x : Nat, lo < (if x ≤ lo then lo + 1 else if hi ≤ x then hi - 1 else x) ∧
      (if x ≤ lo then lo + 1 else if hi ≤ x then hi - 1 else x) < hi := by
    intro x
    split
    · omega
    · split <;> omega
  simp only [probe, usub_of_le (show lo ≤ hi by omega), ok_bind]
  by_cases hc : 3 < hi - lo ∧ i % 2 = 0
  · simp only [if_pos hc]
    rcases Nat.lt_or_ge rxHi.toNat rxLo.toNat with h1 | h1
    · right
      rw [usub, if_neg (by omega)]
      exact ⟨rfl, hc.1, by omega⟩
    rcases Nat.lt_or_ge rx.toNat rxLo.toNat with h2 | h2
    · right
      rw [usub_of_le h1, usub, if_neg (by omega)]
      exact ⟨rfl, hc.1, by omega⟩
    rw [usub_of_le h1, usub_of_le h2, ok_bind, ok_bind]
    rcases Nat.lt_or_ge rxHi.toNat rx.toNat with h3 | h3
    · have hsum : ∀ n, u32 n = .ok n ∨ u32 n = .error .overflow := by
        intro n
        unfold u32
        split <;> simp
      rcases hsum _ with hu | hu <;> rw [hu]
      · exact .inl ⟨_, rfl, clamp _⟩
      · exact .inr ⟨rfl, hc.1, by omega⟩
    · left
      have hsteps := steps_le (show 0 < hi - lo by omega)
        (show rx.toNat - rxLo.toNat ≤ rxHi.toNat - rxLo.toNat by omega)
      rw [u32_of_lt ((Nat.add_le_add_left (Nat.mod_le ..) lo).trans_lt (by omega))]
      exact ⟨_, rfl, clamp _⟩
  · left
    simp only [if_neg hc]
    exact ⟨_, rfl, clamp _⟩

section
variable {b : UInt64}

/-- Positions and distances agree. -/
theorem ahead_lt_of_lt {l : List UInt64} (h : From (2 ^ 63) b l) {i j : Nat} {x y : UInt64}
    (hx : l[i]? = some x) (hy : l[j]? = some y) (hij : i < j) : ahead b x < ahead b y := by
  obtain ⟨hi, rfl⟩ := List.getElem?_eq_some_iff.1 hx
  obtain ⟨hj, rfl⟩ := List.getElem?_eq_some_iff.1 hy
  exact List.pairwise_iff_getElem.1 h.1 i j hi hj hij

/-- Between two neighbours is a gap. -/
theorem gap_of_neighbours {l : List UInt64} {k : Nat} {x y : UInt64} (h : From (2 ^ 63) b l)
    (hb : l.head? = some b) (hx : l[k]? = some x) (hy : l[k + 1]? = some y)
    (h1 : ahead b x < ahead b rx) (h2 : ahead b rx < ahead b y) :
    Gap l rx (k + 1) := by
  obtain ⟨hk, -⟩ := List.getElem?_eq_some_iff.1 hy
  refine ⟨by omega, ?_⟩
  intro b' hb'
  rw [hb] at hb'
  cases hb'
  right
  refine ⟨by omega, ?_, ?_, ?_⟩
  · have := h.2 y (List.mem_of_getElem? hy)
    omega
  · intro z hz
    obtain ⟨j, hj⟩ := List.mem_iff_getElem?.1 hz
    have hjk : j < k + 1 := by
      have := (List.getElem?_eq_some_iff.1 hj).1
      rw [List.length_take] at this
      omega
    rw [List.getElem?_take_of_lt hjk] at hj
    rcases Nat.lt_or_ge j k with hlt | hge
    · have := ahead_lt_of_lt h hj hx hlt
      omega
    · obtain rfl : j = k := by omega
      rw [hx] at hj
      cases hj
      exact h1
  · intro z hz
    obtain ⟨j, hj⟩ := List.mem_iff_getElem?.1 hz
    rw [List.getElem?_drop] at hj
    rcases Nat.eq_zero_or_pos j with rfl | hpos
    · rw [Nat.add_zero, hy] at hj
      cases hj
      exact h2
    · have := ahead_lt_of_lt h hy hj (by omega)
      omega

/-- The bounds of the search hold the timestamp, seen from the first entry. -/
structure Bracket (m : NtpTimestampMap F) (rx b : UInt64) (lo hi : Nat)
    (rxLo rxHi : UInt64) : Prop where
  le : lo ≤ hi
  at_lo : m.rxs[lo]? = some rxLo
  at_hi : m.rxs[hi]? = some rxHi
  lo_le : ahead b rxLo ≤ ahead b rx
  le_hi : ahead b rx ≤ ahead b rxHi

/-- Inside the bracket, the sign of the difference tells on which side of the probe the timestamp
is. -/
theorem probe_sign (h : From (2 ^ 63) b m.rxs) {x : UInt64} (hx : x ∈ m.rxs)
    (hrx : ahead b rx < 2 ^ 63) :
    (x - rx).toInt64 ≤ 0 ↔ ahead b x ≤ ahead b rx := by
  have hxb := h.2 x hx
  rw [toInt64_sub_nonpos]
  rcases Nat.lt_or_ge (ahead b rx) (ahead b x) with hlt | hge
  · have := ahead_sub hlt.le
    omega
  · refine iff_of_true ?_ hge
    rcases eq_or_ne rx x with rfl | hne
    · exact .inl (ahead_self _)
    · right
      have h1 := ahead_swap (a := rx) (b := x) hne
      have h2 := ahead_sub hge
      have hp : period UInt64 = 2 ^ 64 := rfl
      omega

/-- Bounds at most three apart are never interpolated, and that cannot overflow. -/
theorem searchLoop_outcome (ha : m.Alloc ts) (hf : From (2 ^ 63) b m.rxs)
    (hb : m.rxs.head? = some b) (fuel : Nat) :
    ∀ (lo hi : Nat) (rxLo rxHi : UInt64) (i : Nat), Bracket m rx b lo hi rxLo rxHi →
      hi - lo < fuel → m.Outcome rx (m.searchLoop ts rx fuel lo hi rxLo rxHi i) ∧
        (hi - lo ≤ 3 → m.searchLoop ts rx fuel lo hi rxLo rxHi i ≠ .error .overflow) := by
  induction fuel with
  | zero =>
    intro lo hi rxLo rxHi i _ hfuel
    exact absurd hfuel (Nat.not_lt_zero _)
  | succ fuel ih =>
    intro lo hi rxLo rxHi i hbr hfuel
    rw [searchLoop]
    by_cases hhi : rx = rxHi
    · rw [if_pos hhi]
      exact ⟨.hit (by rw [hhi]; exact hbr.at_hi), by simp⟩
    by_cases hlo : rx = rxLo
    · rw [if_neg hhi, if_pos hlo]
      exact ⟨.hit (by rw [hlo]; exact hbr.at_lo), by simp⟩
    rw [if_neg hhi, if_neg hlo]
    have hlo' : ahead b rxLo < ahead b rx := by
      rcases Nat.lt_or_ge (ahead b rxLo) (ahead b rx) with h | h
      · exact h
      · exact absurd (ahead_inj (Nat.le_antisymm h hbr.lo_le)) hlo
    have hhi' : ahead b rx < ahead b rxHi := by
      rcases Nat.lt_or_ge (ahead b rx) (ahead b rxHi) with h | h
      · exact h
      · exact absurd (ahead_inj (Nat.le_antisymm hbr.le_hi h)) hhi
    have hlt : lo < hi := by
      rcases Nat.lt_or_ge lo hi with h | h
      · exact h
      · obtain rfl : lo = hi := Nat.le_antisymm hbr.le h
        have := hbr.at_lo.symm.trans hbr.at_hi
        cases this
        omega
    by_cases hnext : lo + 1 = hi
    · rw [if_pos hnext]
      subst hnext
      exact ⟨.miss (gap_of_neighbours hf hb hbr.at_lo hbr.at_hi hlo' hhi'), by simp⟩
    rw [if_neg hnext]
    have hsize : hi < m.size := ha.rxs_length ▸ (List.getElem?_eq_some_iff.1 hbr.at_hi).1
    rcases probe_cases rx rxLo rxHi i (show lo + 1 < hi by omega)
      (hsize.trans_le ha.size_le_max) with
      ⟨x, hx, h1, h2⟩ | ⟨hx, hwide, hwrap⟩
    · obtain ⟨tss, hread, hrxs⟩ := ha.read_rx (h2.trans hsize)
      have hrx : ahead b rx < 2 ^ 63 := by
        have := hf.2 rxHi (List.mem_of_getElem? hbr.at_hi)
        omega
      have hsign := probe_sign hf (List.mem_of_getElem? hrxs) hrx
      simp only [hx, hread, ok_bind]
      by_cases hs : (tss.rxTs - rx).toInt64 ≤ 0
      · rw [if_pos hs]
        obtain ⟨ho, hnarrow⟩ := ih _ _ _ _ (i + 1)
          ⟨h2.le, hrxs, hbr.at_hi, hsign.1 hs, hbr.le_hi⟩ (by omega)
        exact ⟨ho, fun hw => hnarrow (by omega)⟩
      · rw [if_neg hs]
        have hgt : ¬ ahead b tss.rxTs ≤ ahead b rx := fun h => hs (hsign.2 h)
        obtain ⟨ho, hnarrow⟩ := ih _ _ _ _ (i + 1)
          ⟨h1.le, hbr.at_lo, hrxs, hbr.lo_le, by omega⟩ (by omega)
        exact ⟨ho, fun hw => hnarrow (by omega)⟩
    · rw [hx, Rust.error_bind]
      refine ⟨.wraps fun hp => ?_, fun hw => absurd hwide (by omega)⟩
      obtain ⟨i1, rfl⟩ := List.getElem?_eq_some_iff.1 hbr.at_lo
      obtain ⟨i2, rfl⟩ := List.getElem?_eq_some_iff.1 hbr.at_hi
      have hnum := List.pairwise_iff_getElem.1 hp lo hi i1 i2 hlt
      have hle : ahead m.rxs[lo] rx ≤ ahead m.rxs[lo] m.rxs[hi] := by
        rw [ahead_sub hbr.lo_le, ahead_sub (hbr.lo_le.trans hbr.le_hi)]
        exact Nat.sub_le_sub_right hbr.le_hi _
      exact hwrap (le_of_ahead_le hnum.le hle)

end

/-! ## The invariant -/

/-- What every operation keeps. -/
structure Sound (m : NtpTimestampMap F) : Prop where
  empty : m.timestamps = none → m.size = 0
  alloc : ∀ ts, m.timestamps = some ts → m.Alloc ts
  ascending : Ascending (2 ^ 63) m.rxs
  nonzero : ∀ x ∈ m.rxs, x ≠ 0
  cache : m.cachedRxTs ≠ 0 → m.rxs[m.cachedIndex]? = some m.cachedRxTs

theorem Alloc.sound (h : m.Alloc ts) (hasc : Ascending (2 ^ 63) m.rxs) (h0 : ∀ x ∈ m.rxs, x ≠ 0)
    (hc : m.cachedRxTs ≠ 0 → m.rxs[m.cachedIndex]? = some m.cachedRxTs) : m.Sound :=
  ⟨fun hn => by simp [h.timestamps_eq] at hn, fun ts' h' => by
    cases h.timestamps_eq.symm.trans h'
    exact h, hasc, h0, hc⟩

theorem Gap.nil : Gap [] rx 0 := ⟨Nat.le_refl _, fun _ h => by cases h⟩

/-- What belongs in a gap is not in the map. -/
theorem Gap.not_mem {l : List UInt64} {k : Nat} (h : Gap l rx k) (ha : Ascending (2 ^ 63) l) :
    rx ∉ l := by
  intro hmem
  cases l with
  | nil => exact absurd hmem List.not_mem_nil
  | cons b l =>
    have hlt := ha.2 rx hmem
    rcases h.2 b rfl with ⟨-, hge⟩ | ⟨-, -, hp, hq⟩
    · omega
    rw [← List.take_append_drop k (b :: l)] at hmem
    rcases List.mem_append.1 hmem with hmem | hmem
    · exact Nat.lt_irrefl _ (hp rx hmem)
    · exact Nat.lt_irrefl _ (hq rx hmem)

/-- The ends of a map that is not empty. -/
structure Ends (m : NtpTimestampMap F) (ts : List NtpTimestamps) (lo hi : UInt64) : Prop where
  alloc : m.Alloc ts
  pos : 0 < m.size
  at_lo : m.rxs[0]? = some lo
  at_hi : m.rxs[m.size - 1]? = some hi
  asc : From (2 ^ 63) lo m.rxs

theorem Ends.head (h : Ends m ts b hi) : m.rxs.head? = some b := by
  rw [List.head?_eq_getElem?, h.at_lo]

theorem Ends.span (h : Ends m ts b hi) : ahead b hi < 2 ^ 63 :=
  h.asc.2 _ (List.mem_of_getElem? h.at_hi)

/-- The search compares with the ends first. -/
theorem search_eq (h : m.Sound) (rx : UInt64) :
    (m.rxs = [] ∧ m.search rx = .ok (false, 0)) ∨
      ∃ ts lo hi, Ends m ts lo hi ∧ m.search rx =
        if 2 ^ 63 ≤ ahead lo rx then .ok (false, 0)
        else if ahead lo hi < ahead lo rx then .ok (false, m.size)
        else m.searchLoop ts rx m.size 0 (m.size - 1) lo hi 0 := by
  rw [search]
  cases hts : m.timestamps with
  | none =>
    rw [if_pos (h.empty hts)]
    exact .inl ⟨by rw [rxs, entries, hts]; rfl, rfl⟩
  | some ts =>
    have ha := h.alloc ts hts
    by_cases h0 : m.size = 0
    · rw [if_pos h0]
      exact .inl ⟨List.length_eq_zero_iff.1 (ha.rxs_length.trans h0), rfl⟩
    right
    rw [if_neg h0]
    obtain ⟨lo, hlo, hlo'⟩ := ha.read_rx (show 0 < m.size by omega)
    obtain ⟨hi, hhi, hhi'⟩ := ha.read_rx (show m.size - 1 < m.size by omega)
    have hf : From (2 ^ 63) lo.rxTs m.rxs := by
      have hasc := h.ascending
      cases hl : m.rxs with
      | nil => rw [hl] at hlo'; cases hlo'
      | cons b l =>
        rw [hl] at hlo' hasc
        cases hlo'
        exact hasc
    have hends : Ends m ts lo.rxTs hi.rxTs := ⟨ha, by omega, hlo', hhi', hf⟩
    refine ⟨ts, _, _, hends, ?_⟩
    simp only [hlo, hhi, ok_bind, toInt64_sub_neg]
    by_cases hneg : 2 ^ 63 ≤ ahead lo.rxTs rx
    · rw [if_pos hneg, if_pos hneg]
    rw [if_neg hneg, if_neg hneg]
    refine if_congr ?_ rfl rfl
    -- behind the last entry: by the signed difference, and by the distances from the first
    have hp : period UInt64 = 2 ^ 64 := rfl
    have hlast := hends.span
    rw [toInt64_sub_pos]
    rcases Nat.lt_or_ge (ahead lo.rxTs hi.rxTs) (ahead lo.rxTs rx) with h2 | h2
    · have h3 := ahead_sub h2.le
      omega
    · refine iff_of_false (fun h1 => ?_) (Nat.not_lt.2 h2)
      have hne : rx ≠ hi.rxTs := by
        intro he
        rw [he, ahead_self] at h1
        omega
      have h3 := ahead_sub h2
      have h4 := ahead_swap hne.symm
      omega

theorem search_outcome (h : m.Sound) (rx : UInt64) : m.Outcome rx (m.search rx) := by
  obtain ⟨he, hs⟩ | ⟨ts, lo, hi, hends, hs⟩ := search_eq h rx <;> rw [hs]
  · refine .miss ?_
    rw [he]
    exact Gap.nil
  have hlen := hends.alloc.rxs_length
  have hpos := hends.pos
  split
  · rename_i hge
    refine .miss ⟨Nat.zero_le _, ?_⟩
    intro b hb
    rw [hends.head] at hb
    cases hb
    exact .inl ⟨rfl, hge⟩
  split
  · rename_i hlt hgt
    refine .miss ⟨hlen.ge, ?_⟩
    intro b hb
    rw [hends.head] at hb
    cases hb
    refine .inr ⟨hpos, by omega, ?_, ?_⟩
    · intro x hx
      obtain ⟨j, hj⟩ := List.mem_iff_getElem?.1 (List.mem_of_mem_take hx)
      have hjs := (List.getElem?_eq_some_iff.1 hj).1
      rw [hlen] at hjs
      rcases Nat.lt_or_ge j (m.size - 1) with hlt | hge
      · exact (ahead_lt_of_lt hends.asc hj hends.at_hi hlt).trans hgt
      · obtain rfl : j = m.size - 1 := by omega
        obtain rfl := Option.some.inj (hends.at_hi.symm.trans hj)
        exact hgt
    · intro x hx
      rw [List.drop_of_length_le hlen.le] at hx
      exact absurd hx List.not_mem_nil
  · rename_i hle
    refine (searchLoop_outcome hends.alloc hends.asc hends.head m.size 0 (m.size - 1) lo hi 0
      ⟨Nat.zero_le _, hends.at_lo, hends.at_hi, ?_, Nat.not_lt.1 hle⟩ (by omega)).1
    rw [ahead_self]
    exact Nat.zero_le _

/-- How a lookup can end, with the state it leaves. -/
theorem find_cases (h : m.Sound) (rx : UInt64) :
    (∃ i, findNtpRxTs rx m = (.ok (true, i), { m with cachedIndex := i, cachedRxTs := rx }) ∧
      m.rxs[i]? = some rx) ∨
    (∃ k, findNtpRxTs rx m = (.ok (false, k), m) ∧ Gap m.rxs rx k) ∨
    (findNtpRxTs rx m = (.error .overflow, m) ∧
      ¬ m.rxs.Pairwise (fun x y => x.toNat < y.toNat)) := by
  by_cases hc : m.cachedRxTs = rx ∧ rx ≠ 0
  · left
    obtain ⟨rfl, h0⟩ := hc
    refine ⟨m.cachedIndex, ?_, h.cache h0⟩
    simp only [findNtpRxTs, Act.bind_apply, Act.get, true_and, if_pos h0]
    rfl
  · simp only [findNtpRxTs, Act.bind_apply, Act.get, if_neg hc, Act.lift]
    have ho := search_outcome h rx
    generalize m.search rx = r at ho
    cases ho with
    | hit hi => exact .inl ⟨_, rfl, hi⟩
    | miss hk => exact .inr (.inl ⟨_, rfl, hk⟩)
    | wraps hw => exact .inr (.inr ⟨rfl, hw⟩)

end NtpTimestampMap

end ChronyRs.L4.Server

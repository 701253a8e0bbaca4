import ChronyRs.L4Server.TimestampSearch

/-!
# A lookup panics across the NTP era wrap (`clientlog.rs`)

`find_ntp_rx_ts` compares timestamps by their wrapped difference, so that entries on both sides of
an era wrap are in order. The interpolation takes `rx_hi - rx_lo` by a plain subtraction: if the
last entry is behind the wrap and the first one before it, the subtraction underflows. Overflow
checks are on in all builds, so the lookup panics, and with it every request of a client in
interleaved mode.

* `lookup_exact_iff`: a lookup finds the entry or the place for one, unless it starts with such an
  interpolation.
* `lookup_across_eras`: five entries around the wrap and a timestamp between them.

Fix: `rx_hi.wrapping_sub(rx_lo)` and `rx_ts.wrapping_sub(rx_lo)`.
-/
namespace ChronyRs.Bugs.EraStraddle

open L4.Server L4.Server.NtpTimestampMap Dial

variable {F : Type} {m : NtpTimestampMap F} {l : List UInt64} {rx : UInt64} {k : Nat}

/-! ## Places -/

/-- There is one place for a timestamp. -/
theorem Gap.le {j : Nat} (hj : Gap l rx j) (hk : Gap l rx k) : j ≤ k := by
  refine Nat.le_of_not_lt fun hlt => ?_
  have hjl := hj.1
  obtain ⟨b, t, rfl⟩ := List.exists_cons_of_length_pos (show 0 < l.length by omega)
  rcases hj.2 b rfl with ⟨h0, -⟩ | ⟨-, hhalf, hbefore, -⟩
  · omega
  rcases hk.2 b rfl with ⟨-, hge⟩ | ⟨-, -, -, hbehind⟩
  · omega
  -- the entry at `k` would be on both sides
  have hget : (b :: t)[k]? = some (b :: t)[k] := List.getElem?_eq_getElem (by omega)
  have h1 := hbefore _ (List.mem_of_getElem? ((List.getElem?_take_of_lt hlt).trans hget))
  have h2 := hbehind _ (List.mem_of_getElem? (i := 0) ((List.getElem?_drop ..).trans hget))
  omega

/-- Where an insertion leaves the timestamps ascending is the place. -/
theorem Gap.of_ascending (hk : k ≤ l.length) (h : Ascending (2 ^ 63) (l.take k ++ rx :: l.drop k)) :
    Gap l rx k := by
  refine ⟨hk, fun b hb => ?_⟩
  obtain ⟨t, rfl⟩ : ∃ t, l = b :: t := by
    cases l with
    | nil => cases hb
    | cons x t => exact ⟨t, by rw [Option.mem_some_iff.1 hb]⟩
  cases k with
  | zero =>
    have hp := (List.pairwise_cons.1 h.1).1 b List.mem_cons_self
    have hhalf := h.2 b (by simp)
    rw [ahead_self] at hp
    have hne : rx ≠ b := by
      rintro rfl
      rw [ahead_self] at hp
      omega
    have hswap := ahead_swap hne
    have hperiod : period UInt64 = 2 ^ 64 := rfl
    exact .inl ⟨rfl, by omega⟩
  | succ k =>
    obtain ⟨hp, hhalf⟩ : From (2 ^ 63) b ((b :: t).take (k + 1) ++ rx :: (b :: t).drop (k + 1)) := h
    obtain ⟨-, hdrop, hcross⟩ := List.pairwise_append.1 hp
    exact .inr ⟨by omega, hhalf rx (by simp), fun x hx => hcross x hx rx List.mem_cons_self,
      (List.pairwise_cons.1 hdrop).1⟩

/-! ## Lookups -/

/-- A lookup in order: a timestamp is found exactly where it is; for one that is not there the
result is its place, the only one and the only one where an insertion can leave the timestamps
ascending. -/
structure Exact (m : NtpTimestampMap F) (rx : UInt64) : Prop where
  found : ∀ i, (findNtpRxTs rx m).1 = .ok (true, i) ↔ m.rxs[i]? = some rx
  missing : rx ∉ m.rxs → ∃ i, (findNtpRxTs rx m).1 = .ok (false, i) ∧
    (∀ k, Gap m.rxs rx k ↔ k = i) ∧
    ∀ k ≤ m.rxs.length, Ascending (2 ^ 63) (m.rxs.take k ++ rx :: m.rxs.drop k) → k = i

/-- The search begins with an interpolation over the era wrap: there are at least five entries, the
last one is behind the wrap, and the timestamp is strictly between the first and the last. -/
structure Straddles (m : NtpTimestampMap F) (rx : UInt64) : Prop where
  uncached : m.cachedRxTs ≠ rx
  five : 5 ≤ m.rxs.length
  wrap : ∀ lo ∈ m.rxs.head?, ∀ hi ∈ m.rxs.getLast?,
    hi.toNat < lo.toNat ∧ 0 < ahead lo rx ∧ ahead lo rx < ahead lo hi

theorem find_fst (m : NtpTimestampMap F) (h0 : rx ≠ 0) : (findNtpRxTs rx m).1 =
    if m.cachedRxTs = rx then .ok (true, m.cachedIndex) else m.search rx := by
  by_cases hc : m.cachedRxTs = rx
  · simp [findNtpRxTs, Act.bind_apply, Act.get, hc, h0]
    rfl
  · simp only [findNtpRxTs, Act.bind_apply, Act.get, hc, false_and, if_false, Act.lift]
    cases m.search rx with
    | error e => rfl
    | ok r => obtain ⟨_ | _, i⟩ := r <;> rfl

/-- With the last entry not below the first one there is no wrap between any two. -/
theorem pairwise_of_ends {b hi : UInt64} {n : Nat} (hf : From (2 ^ 63) b l) (hhi : l[n]? = some hi)
    (hn : l.length = n + 1) (hle : b.toNat ≤ hi.toNat) :
      l.Pairwise fun x y => x.toNat < y.toNat := by
  have hmax : ∀ x ∈ l, ahead b x ≤ ahead b hi := by
    intro x hx
    obtain ⟨j, hj⟩ := List.mem_iff_getElem?.1 hx
    have hjn := (List.getElem?_eq_some_iff.1 hj).1
    rcases Nat.lt_or_ge j n with hlt | hge
    · exact (ahead_lt_of_lt hf hj hhi hlt).le
    · obtain rfl : j = n := by omega
      rw [Option.some.inj (hj.symm.trans hhi)]
  refine hf.1.imp_of_mem fun {x y} hx hy hxy => ?_
  have h1 := le_of_ahead_le hle (hmax x hx)
  have h2 := le_of_ahead_le hle (hmax y hy)
  rw [ahead_eq, ahead_eq, UInt64.toNat_sub_of_le _ _ (UInt64.le_iff_toNat_le.2 h1.1),
    UInt64.toNat_sub_of_le _ _ (UInt64.le_iff_toNat_le.2 h2.1)] at hxy
  omega

theorem search_overflow_iff (h : m.Sound) (hc : m.cachedRxTs ≠ rx) :
    m.search rx = .error .overflow ↔ Straddles m rx := by
  obtain ⟨he, hs⟩ | ⟨ts, lo, hi, hends, hs⟩ := search_eq h rx
  · rw [hs]
    refine iff_of_false (by simp) fun hst => ?_
    have := hst.five
    rw [he] at this
    exact absurd this (by decide)
  have hlen := hends.alloc.rxs_length
  have hpos := hends.pos
  have hspan := hends.span
  have hlast : m.rxs.getLast? = some hi := by
    rw [List.getLast?_eq_getElem?, hlen, hends.at_hi]
  have hiff : Straddles m rx ↔ 5 ≤ m.size ∧ hi.toNat < lo.toNat ∧ 0 < ahead lo rx ∧
      ahead lo rx < ahead lo hi := by
    constructor
    · intro hst
      exact ⟨hlen ▸ hst.five, hst.wrap lo hends.head hi hlast⟩
    · rintro ⟨h5, hw⟩
      refine ⟨hc, hlen ▸ h5, fun lo' hlo' hi' hhi' => ?_⟩
      rw [hends.head] at hlo'
      rw [hlast] at hhi'
      cases hlo'
      cases hhi'
      exact hw
  rw [hs, hiff]
  split
  · exact iff_of_false (by simp) (by omega)
  split
  · exact iff_of_false (by simp) (by omega)
  rename_i hlt hle
  constructor
  · intro hover
    have hbr : Bracket m rx lo 0 (m.size - 1) lo hi :=
      ⟨Nat.zero_le _, hends.at_lo, hends.at_hi, by rw [ahead_self]; exact Nat.zero_le _,
        Nat.not_lt.1 hle⟩
    obtain ⟨ho, hnarrow⟩ := searchLoop_outcome hends.alloc hends.asc hends.head m.size 0
      (m.size - 1) lo hi 0 hbr
      (by omega)
    have h5 : 5 ≤ m.size := by
      refine Nat.le_of_not_lt fun h5 => hnarrow (by omega) hover
    rw [hover] at ho
    obtain ⟨n, hn⟩ : ∃ n, m.size = n + 1 := ⟨m.size - 1, by omega⟩
    rw [hn, searchLoop] at hover
    have hrxhi : rx ≠ hi := fun he => by simp [he] at hover
    rw [if_neg hrxhi] at hover
    have hrxlo : rx ≠ lo := fun he => by simp [he] at hover
    refine ⟨h5, ?_, ahead_pos hrxlo, ?_⟩
    · cases ho with
      | wraps hw =>
        refine Nat.lt_of_not_le fun hle' => hw ?_
        exact pairwise_of_ends hends.asc hends.at_hi (by omega) hle'
    · exact Nat.lt_of_le_of_ne (Nat.not_lt.1 hle) fun he => hrxhi (ahead_inj he)
  · rintro ⟨h5, hwrap, hpos', hlt'⟩
    obtain ⟨n, hn⟩ : ∃ n, m.size = n + 1 := ⟨m.size - 1, by omega⟩
    have hrxhi : rx ≠ hi := by
      rintro rfl
      omega
    have hrxlo : rx ≠ lo := by
      rintro rfl
      rw [ahead_self] at hpos'
      omega
    have hprobe : probe rx 0 (m.size - 1) lo hi 0 = .error .overflow := by
      simp only [probe, usub_of_le (Nat.zero_le _), ok_bind]
      rw [if_pos ⟨by omega, trivial⟩, usub, if_neg (Nat.not_le.2 hwrap)]
      rfl
    rw [hn, searchLoop, if_neg hrxhi, if_neg hrxlo, if_neg (by omega), ← hn, hprobe]
    rfl

/-- **Which lookups are in order.** For every map of the invariant and every timestamp but zero, the
lookup returns, without an overflow, the entry of the timestamp or its place, if and only if it does
not begin with an interpolation over the era wrap. -/
theorem lookup_exact_iff (h : m.Sound) (h0 : rx ≠ 0) : Exact m rx ↔ ¬ Straddles m rx := by
  constructor
  · intro hex hst
    have hover : (findNtpRxTs rx m).1 = .error .overflow := by
      rw [find_fst m h0, if_neg hst.uncached, (search_overflow_iff h hst.uncached).2 hst]
    by_cases hmem : rx ∈ m.rxs
    · obtain ⟨i, hi⟩ := List.mem_iff_getElem?.1 hmem
      have := (hex.found i).2 hi
      rw [hover] at this
      cases this
    · obtain ⟨i, hi, -⟩ := hex.missing hmem
      rw [hover] at hi
      cases hi
  · intro hst
    rcases find_cases h rx with ⟨i, hfind, hi⟩ | ⟨i, hfind, hgap⟩ | ⟨hfind, -⟩
    · refine ⟨fun j => ?_, fun hmem => absurd (List.mem_of_getElem? hi) hmem⟩
      rw [hfind]
      refine ⟨fun hj => ?_, fun hj => ?_⟩
      · cases hj
        exact hi
      · rw [(List.getElem?_inj (List.getElem?_eq_some_iff.1 hi).1 h.ascending.nodup).1
          (hi.trans hj.symm)]
    · have hmem := hgap.not_mem h.ascending
      refine ⟨fun j => ?_, fun _ => ⟨i, by rw [hfind], fun k => ?_, fun k hk hasc => ?_⟩⟩
      · rw [hfind]
        exact iff_of_false (by simp) fun hj => hmem (List.mem_of_getElem? hj)
      · exact ⟨fun hk => Nat.le_antisymm (Gap.le hk hgap) (Gap.le hgap hk), fun hk => hk ▸ hgap⟩
      · have hk := Gap.of_ascending hk hasc
        exact Nat.le_antisymm (Gap.le hk hgap) (Gap.le hgap hk)
    · have hfst := find_fst m h0
      rw [hfind] at hfst
      split at hfst
      · cases hfst
      · rename_i hc
        exact absurd ((search_overflow_iff h hc).1 hfst.symm) hst

/-- Five entries, one second apart, with the wrap behind the third, and nothing cached. -/
def aroundWrap : NtpTimestampMap Unit where
  timestamps := some ([0xfffffffd_00000000, 0xfffffffe_00000000, 0xffffffff_00000000,
    0x00000000_80000000,
    0x00000001_00000000].map (fun rx => { NtpTimestamps.blank with rxTs := rx }) ++
      List.replicate 3 .blank)
  first := 0
  size := 5
  maxSize := 8
  cachedIndex := 0
  cachedRxTs := 0
  slewEpoch := 0
  slewOffset := ()

theorem aroundWrap_sound : aroundWrap.Sound where
  empty h := by cases h
  alloc ts hts := ⟨hts, by cases hts; rfl, ⟨3, by decide, rfl⟩, by decide⟩
  ascending := by
    have h : aroundWrap.rxs.all (ahead 0xfffffffd_00000000 · < 2 ^ 63) = true := by decide
    have hlt := fun rx hrx => of_decide_eq_true (List.all_eq_true.1 h rx hrx)
    exact show From (2 ^ 63) (0xfffffffd_00000000 : UInt64) aroundWrap.rxs from ⟨by decide, hlt⟩
  nonzero rx hrx := by
    have h : aroundWrap.rxs.all (· ≠ 0) = true := by decide
    exact of_decide_eq_true (List.all_eq_true.1 h rx hrx)
  cache h := absurd rfl h

theorem lookup_exact_iff_ends : Exact aroundWrap 0xfffffffd_00000000 ∧
    Exact aroundWrap 0x00000002_00000000 := by
  refine ⟨(lookup_exact_iff aroundWrap_sound (by decide)).2 fun h => ?_,
    (lookup_exact_iff aroundWrap_sound (by decide)).2 fun h => ?_⟩
  · exact absurd (h.wrap _ rfl _ rfl).2.1 (by decide)
  · exact absurd (h.wrap _ rfl _ rfl).2.2 (by decide)

/-- The third entry is not found. -/
theorem lookup_across_eras : aroundWrap.Sound ∧ aroundWrap.rxs[2]? = some 0xffffffff_00000000 ∧
    (findNtpRxTs 0xffffffff_00000000 aroundWrap).1 = .error .overflow :=
  ⟨aroundWrap_sound, rfl, rfl⟩

end ChronyRs.Bugs.EraStraddle

import ChronyRs.Core.TokenBucket
import ChronyRs.L4Server.RecordTable

/-!
# The rate limiter as a token bucket

The tokens and the last hit of one client and one service form a token bucket (`Bucket.Level`): an
access refills it from the time since the last one, a limited response spends tokens, leaks or is
dropped, and no other call touches it.

* `setBucketParams_spec`: for every configured interval and burst the parameters are in range.
* `Became.step`: every call on a log is a step of the bucket.
* `responses_bounded`: in every run the responses allowed by spending tokens are bounded by the
  capacity and the time.
* `others_leave_record`: no client changes another's record.
-/
namespace ChronyRs.L4.Server.ClientLog

open Bucket Buckets

/-! ## The parameters -/

theorem clampI32_range {lo hi : Int} (h : lo ≤ hi) (x : Int) :
    lo ≤ clampI32 lo x hi ∧ clampI32 lo x hi ≤ hi := by
  rw [clampI32]
  omega

variable {n m cost draws : Nat} {shift : Int} {s : Service} {r r' : Record} {op : RecOp}
  {ops : List RecOp}

/-- Powers of two of the exponents that occur. -/
theorem two_pow_le {k : Nat} (h : n ≤ k) : 2 ^ n ≤ 2 ^ k := Nat.pow_le_pow_right (by decide) h

theorem shlI32_eq {x n : Int} (hx : 0 ≤ x) (h0 : 0 ≤ n) (hn : n < 32)
    (hlt : x * 2 ^ n.toNat < 2 ^ 31) : shlI32 x n = .ok (x * 2 ^ n.toNat) := by
  have hpos : 0 ≤ x * 2 ^ n.toNat := Int.mul_nonneg hx (Int.pow_nonneg (by decide))
  rw [shlI32, if_pos ⟨h0, hn⟩, Int.bmod_eq_of_le] <;> omega

theorem shlU32_eq {x : Nat} {n : Int} (h0 : 0 ≤ n) (hn : n < 32) (hlt : x * 2 ^ n.toNat < 2 ^ 32) :
    shlU32 x n = .ok (x * 2 ^ n.toNat) := by
  rw [shlU32, if_pos ⟨h0, hn⟩, Nat.mod_eq_of_lt hlt]

/-- The loop stops with a burst that fits in 16 bits. -/
theorem shiftLoop_spec {interval burst : Int} (hi : -4 ≤ interval ∧ interval ≤ 12)
    (hb : 1 ≤ burst ∧ burst ≤ 255) (n : Nat) : ∀ k : Int, 0 ≤ k → k + n = interval + 4 →
    ∃ ts, shiftLoop interval burst n k = .ok ts ∧ 0 ≤ ts ∧ ts ≤ interval + 4 ∧
      burst * 2 ^ (4 + interval - ts).toNat < 2 ^ 16 := by
  induction n with
  | zero =>
    intro k h0 hk
    refine ⟨k, rfl, h0, by omega, ?_⟩
    rw [show (4 + interval - k).toNat = 0 by omega, Int.pow_zero]
    omega
  | succ n ih =>
    intro k h0 hk
    have hlt : k < interval + tsFrac := by rw [tsFrac]; omega
    have hpow : (2 : Int) ^ (4 + interval - k).toNat ≤ 2 ^ 16 := by
      exact_mod_cast two_pow_le (show (4 + interval - k).toNat ≤ 16 by omega)
    have hmul : burst * 2 ^ (4 + interval - k).toNat < 2 ^ 31 := by
      have h1 : burst * 2 ^ (4 + interval - k).toNat ≤ 255 * 2 ^ 16 :=
        Int.mul_le_mul hb.2 hpow (Int.pow_nonneg (by decide)) (by decide)
      omega
    rw [shiftLoop]
    simp only [if_pos hlt]
    rw [show tsFrac + interval - k = 4 + interval - k from rfl,
      shlI32_eq (by omega) (by omega) (by omega) hmul, ok_bind]
    by_cases hfit : burst * 2 ^ (4 + interval - k).toNat < 2 ^ 16
    · rw [if_pos hfit]
      exact ⟨k, rfl, h0, by omega, hfit⟩
    · rw [if_neg hfit]
      exact ih (k + 1) (by omega) (by omega)

/-- **The parameters are in range** for every interval and burst: the product that is the capacity
fits in 16 bits, so that the casts lose nothing. -/
theorem setBucketParams_spec (interval burst : Int) :
    ∃ tokenShift burst' tokensPerPacket, 1 ≤ burst' ∧
      bucketShift (clampI32 minLimitInterval interval maxLimitInterval)
        (clampI32 minLimitBurst burst maxLimitBurst) = .ok (tokenShift, burst') ∧
      shlU32 1 (tsFrac + clampI32 minLimitInterval interval maxLimitInterval - tokenShift) =
        .ok tokensPerPacket ∧
      tokensPerPacket * burst'.toNat < 2 ^ 16 ∧
      setBucketParams interval burst =
        .ok (tokensPerPacket * burst'.toNat, tokensPerPacket, tokenShift) ∧
      -15 ≤ tokenShift ∧ tokenShift < 32 := by
  have hi := clampI32_range (show minLimitInterval ≤ maxLimitInterval by decide) interval
  have hb := clampI32_range (show minLimitBurst ≤ maxLimitBurst by decide) burst
  rw [setBucketParams]
  generalize clampI32 minLimitInterval interval maxLimitInterval = i at hi ⊢
  generalize clampI32 minLimitBurst burst maxLimitBurst = b at hb ⊢
  have hi' : -19 ≤ i ∧ i ≤ 12 := hi
  have hb' : 1 ≤ b ∧ b ≤ 255 := hb
  -- the shift, the burst and the size of their product
  have hshift : ∃ ts b', bucketShift i b = .ok (ts, b') ∧ 1 ≤ b' ∧ -15 ≤ ts ∧ ts ≤ 16 ∧
      0 ≤ 4 + i - ts ∧ 4 + i - ts ≤ 16 ∧ b' * 2 ^ (4 + i - ts).toNat < 2 ^ 16 := by
    rw [bucketShift]
    by_cases hc : -tsFrac ≤ i
    · have hc' : -4 ≤ i := hc
      obtain ⟨ts, hloop, h0, hle, hfit⟩ := shiftLoop_spec ⟨hc', hi'.2⟩ hb' (i + 4).toNat 0
        (by omega) (by omega)
      rw [if_pos hc, show i + tsFrac = i + 4 from rfl, hloop]
      exact ⟨ts, b, rfl, hb'.1, by omega, by omega, by omega, by omega, hfit⟩
    · have hc' : ¬ -4 ≤ i := hc
      have hpow : (2 : Int) ^ (-(i + 4)).toNat ≤ 2 ^ 15 := by
        exact_mod_cast two_pow_le (show (-(i + 4)).toNat ≤ 15 by omega)
      have hshl : shlI32 1 (-(i + 4)) = .ok (1 * 2 ^ (-(i + 4)).toNat) :=
        shlI32_eq (by decide) (by omega) (by omega) (by omega)
      simp only [if_neg hc, show i + tsFrac = i + 4 from rfl, hshl, ok_bind]
      refine ⟨i + 4, max b (1 * 2 ^ (-(i + 4)).toNat),
        rfl, by omega, by omega, by omega, by omega, by omega, ?_⟩
      rw [show (4 + i - (i + 4)).toNat = 0 by omega, Int.pow_zero, Int.mul_one]
      omega
  obtain ⟨ts, b', hbs, h1, h2, h3, h4, h5, hfit⟩ := hshift
  have hfit' : 2 ^ (4 + i - ts).toNat * b'.toNat < 2 ^ 16 := by
    have hcast : ((2 ^ (4 + i - ts).toNat * b'.toNat : Nat) : Int) =
        b' * 2 ^ (4 + i - ts).toNat := by
      rw [Nat.cast_mul, Nat.cast_pow, Int.toNat_of_nonneg (by omega), Int.mul_comm]
      rfl
    exact_mod_cast hcast ▸ hfit
  have hpow : 2 ^ (4 + i - ts).toNat < 2 ^ 16 + 1 := by
    have := two_pow_le (show (4 + i - ts).toNat ≤ 16 by omega)
    omega
  have hshl : shlU32 1 (tsFrac + i - ts) = .ok (2 ^ (4 + i - ts).toNat) := by
    have := shlU32_eq (x := 1) (n := 4 + i - ts) h4 (by omega) (by rw [Nat.one_mul]; omega)
    rwa [Nat.one_mul] at this
  refine ⟨ts, b', 2 ^ (4 + i - ts).toNat, h1, hbs, hshl, hfit', ?_, h2, by omega⟩
  have hle : 2 ^ (4 + i - ts).toNat ≤ 2 ^ (4 + i - ts).toNat * b'.toNat :=
    Nat.le_mul_of_pos_right _ (by omega)
  simp only [hbs, ok_bind, hshl, u32_of_lt (show 2 ^ (4 + i - ts).toNat * b'.toNat <
    2 ^ 32 by omega)]
  rw [Nat.mod_eq_of_lt hfit', Nat.mod_eq_of_lt (by omega)]

/-! ## The refill -/

/-- What the time from `a` to `b` may add to a bucket. -/
def refillBound (shift : Int) (a b : Nat) : Nat :=
  if 0 ≤ shift then b >>> shift.toNat - a >>> shift.toNat else (b - a) <<< (-shift).toNat

theorem refillBound_self (shift : Int) (t : Nat) : refillBound shift t t = 0 := by
  rw [refillBound]
  split <;> simp

/-- The terms telescope since each is shifted before the subtraction. -/
theorem refillBound_add (shift : Int) (a b c : Nat) (hab : a ≤ b) (hbc : b ≤ c) :
    refillBound shift a b + refillBound shift b c ≤ refillBound shift a c := by
  simp only [refillBound, Nat.shiftRight_eq_div_pow, Nat.shiftLeft_eq]
  split
  · have h1 := Nat.div_le_div_right (c := 2 ^ shift.toNat) hab
    have h2 := Nat.div_le_div_right (c := 2 ^ shift.toNat) hbc
    omega
  · rw [← Nat.add_mul]
    exact Nat.mul_le_mul_right _ (by omega)

theorem toNat_lt_of_toInt32_nonneg {x : UInt32} (h : ¬ x.toInt32 < 0) : x.toNat < 2 ^ 31 := by
  have hx := x.toNat_lt
  have h0 : ¬ x.toInt32.toInt < 0 := fun h1 => h (Int32.lt_iff_toInt_lt.2 h1)
  have h1 : x.toInt32.toInt = Int.bmod x.toNat (2 ^ 32) := BitVec.toInt_eq_toNat_bmod x.toBitVec
  rw [h1, Int.bmod_def] at h0
  split at h0 <;> omega

/-- Between two hits that are less than half the range apart. -/
theorem refill_spec (hs : -15 ≤ shift ∧ shift < 32) (hm : m < 2 ^ 16) {a b : UInt32} (hab : a ≤ b)
    (hnear : (b - a).toNat < 2 ^ 31) :
    ∃ t, refill shift m b a = .ok t ∧ t ≤ refillBound shift a.toNat b.toNat ∧ t ≤ 2 ^ 31 := by
  have hsub : (b - a).toNat = b.toNat - a.toNat := UInt32.toNat_sub_of_le _ _ hab
  have hle : a.toNat ≤ b.toNat := UInt32.le_iff_toNat_le.1 hab
  rw [refill, refillBound]
  by_cases h0 : 0 ≤ shift
  · rw [if_pos h0, if_pos hs.2, if_pos h0]
    have hk : (UInt32.ofInt shift).toNat % 32 = shift.toNat := by
      rw [UInt32.ofInt, UInt32.toNat_ofNat']
      omega
    have hshr : ∀ x : UInt32, (x >>> UInt32.ofInt shift).toNat = x.toNat / 2 ^ shift.toNat := by
      intro x
      rw [UInt32.toNat_shiftRight, hk, Nat.shiftRight_eq_div_pow]
    have hdiv : a.toNat / 2 ^ shift.toNat ≤ b.toNat / 2 ^ shift.toNat := Nat.div_le_div_right hle
    have hgap : b.toNat / 2 ^ shift.toNat ≤ a.toNat / 2 ^ shift.toNat + (b.toNat - a.toNat) := by
      have hpos : 0 < 2 ^ shift.toNat := Nat.pow_pos (by decide)
      rw [← Nat.add_mul_div_right _ _ hpos]
      refine Nat.div_le_div_right ?_
      have := Nat.le_mul_of_pos_right (b.toNat - a.toNat) hpos
      omega
    refine ⟨_, rfl, ?_⟩
    rw [UInt32.toNat_sub_of_le _ _ (by rw [UInt32.le_iff_toNat_le, hshr, hshr]; exact hdiv), hshr,
      hshr, Nat.shiftRight_eq_div_pow, Nat.shiftRight_eq_div_pow]
    omega
  · rw [if_neg h0, if_neg h0, hsub, Nat.shiftLeft_eq]
    have hpos : 0 < 2 ^ (-shift).toNat := Nat.pow_pos (by decide)
    by_cases hsat : m < b.toNat - a.toNat
    · rw [if_pos hsat]
      have := Nat.le_mul_of_pos_right (b.toNat - a.toNat) hpos
      exact ⟨m, rfl, by omega, by omega⟩
    · rw [if_neg hsat]
      have hpow := two_pow_le (show (-shift).toNat ≤ 15 by omega)
      have hmul : (b.toNat - a.toNat) * 2 ^ (-shift).toNat ≤ 2 ^ 16 * 2 ^ 15 :=
        Nat.mul_le_mul (by omega) hpow
      exact ⟨_, shlU32_eq (by omega) (by omega) (by omega), le_refl _, by omega⟩

theorem interval2_returns {x : UInt32} (h : x.toNat < 2 ^ 31) : ∃ i, interval2 x = .ok i := by
  rw [interval2]
  split
  · rw [u32_of_lt (by omega)]
    exact ⟨_, rfl⟩
  · exact ⟨_, rfl⟩

/-! ## One record -/

/-- What a hit does to the tokens and the times: it may refill the bucket of its service. -/
theorem hitRecord_shape (m : Nat) (shift : Int) (s : Service) (now : UInt32) (r : Record) :
    ∃ n, (hitRecord m shift s now r).2.tokens = Function.update r.tokens s n ∧
      (hitRecord m shift s now r).2.lastHit = Function.update r.lastHit s now ∧
      (n = r.tokens s ∨ n ≤ m ∧ (now - r.lastHit s).toNat < 2 ^ 31 ∧
        ∃ t, refill shift m now (r.lastHit s) = .ok t ∧ n ≤ r.tokens s + t) := by
  have hself : r.tokens = Function.update r.tokens s (r.tokens s) :=
    (Function.update_eq_self s _).symm
  simp only [hitRecord, Act.bind_apply, Act.get, Act.modify]
  by_cases hearly : r.lastHit s = invalidTs ∨ (now - r.lastHit s).toInt32 < 0
  · simp only [if_pos hearly, Act.pure_apply]
    exact ⟨_, hself, by simp, .inl rfl⟩
  · simp only [if_neg hearly, Act.bind_apply, Act.lift]
    cases hrefill : refill shift m now (r.lastHit s) with
    | error e => exact ⟨_, hself, rfl, .inl rfl⟩
    | ok t =>
      dsimp only
      rw [u32]
      by_cases hsum : r.tokens s + t < 2 ^ 32
      · rw [if_pos hsum]
        dsimp only
        have hn : min (r.tokens s + t) m % 2 ^ 16 ≤ min (r.tokens s + t) m := Nat.mod_le _ _
        have hnear := toNat_lt_of_toInt32_nonneg fun h => hearly (.inr h)
        refine ⟨min (r.tokens s + t) m % 2 ^ 16, ?_, ?_, .inr ⟨by omega, hnear, t, rfl, by omega⟩⟩
        all_goals
          cases interval2 (now - r.lastHit s) with
          | error e => rfl
          | ok i2 => simp only [Act.modify]; split <;> rfl
      · rw [if_neg hsum]
        exact ⟨_, hself, rfl, .inl rfl⟩

theorem hitRecord_returns (hm : m < 2 ^ 16) (hs : -15 ≤ shift ∧ shift < 32) {now : UInt32}
    (hl : r.tokens s ≤ m) (hle : r.lastHit s ≤ now) :
    (hitRecord m shift s now r).1 = .ok () := by
  simp only [hitRecord, Act.bind_apply, Act.get, Act.modify]
  by_cases hearly : r.lastHit s = invalidTs ∨ (now - r.lastHit s).toInt32 < 0
  · simp only [if_pos hearly, Act.pure_apply]
  · have hnear := toNat_lt_of_toInt32_nonneg fun h => hearly (.inr h)
    obtain ⟨t, ht, -, hlt⟩ := refill_spec hs hm hle hnear
    obtain ⟨i2, hi2⟩ := interval2_returns hnear
    simp only [if_neg hearly, Act.bind_apply, Act.lift, ht, u32_of_lt
      (show r.tokens s + t < 2 ^ 32 by omega), Act.modify, hi2]
    split <;> rfl

theorem key_hitRecord (m : Nat) (shift : Int) (s : Service) (now : UInt32) (r : Record) :
    key (hitRecord m shift s now r).2 = key r :=
  (safe_hitRecord m shift s now r rfl).1

def level (r : Record) (s : Service) : Level Nat := ⟨r.tokens s, (r.lastHit s).toNat⟩

theorem level_of_update (htok : r'.tokens = Function.update r.tokens s n)
    (hlast : r'.lastHit s = r.lastHit s) : level r' s = ⟨n, (level r s).last⟩ := by
  rw [level, htok, hlast, Function.update_self]
  rfl

theorem level_of_ne {s0 : Service} (hs : s ≠ s0) (htok : r'.tokens = Function.update r.tokens s0 n)
    (hlast : r'.lastHit s = r.lastHit s) :
    level r' s = level r s := by
  rw [level, htok, hlast, Function.update_of_ne hs]
  rfl

/-- A hit is a step of the bucket of its service, and leaves the others alone. -/
theorem hitRecord_step (hm : m < 2 ^ 16) (hs : -15 ≤ shift ∧ shift < 32) {now : UInt32}
    (hl : r.tokens s ≤ m) (hle : r.lastHit s ≤ now) :
    Step m cost (refillBound shift) (level r s) false (level (hitRecord m shift s now r).2 s) := by
  obtain ⟨n, htok, hlast, hn⟩ := hitRecord_shape m shift s now r
  have hlevel : level (hitRecord m shift s now r).2 s = ⟨n, now.toNat⟩ := by
    rw [level, htok, hlast, Function.update_self, Function.update_self]
  have hle' : (r.lastHit s).toNat ≤ now.toNat := UInt32.le_iff_toNat_le.1 hle
  rw [hlevel]
  rcases hn with rfl | ⟨hcap, hnear, t, ht, hn⟩
  · exact .hit hle' hl (Nat.le_add_right _ _)
  · obtain ⟨t', ht', hbound, -⟩ := refill_spec hs hm hle hnear
    cases ht.symm.trans ht'
    exact .hit hle' hcap (hn.trans (Nat.add_le_add_left hbound _))

/-- What limiting a response does to the record: tokens are spent, or some are lost. -/
structure Limited (cost : Nat) (s : Service) (r r' : Record) : Prop where
  key_eq : key r' = key r
  lastHit : r'.lastHit = r.lastHit
  tokens : (cost ≤ r.tokens s ∧ r'.tokens = Function.update r.tokens s (r.tokens s - cost)) ∨
    (r.tokens s < cost ∧ ∃ n ≤ r.tokens s, r'.tokens = Function.update r.tokens s n)

theorem spendRecord_of_le (h : cost ≤ r.tokens s) :
    (spendRecord cost s r).1 = .ok true ∧ Limited cost s r (spendRecord cost s r).2 := by
  simp only [spendRecord, Act.bind_apply, Act.modify, Act.get, if_pos h, Act.pure_apply, true_and]
  exact ⟨rfl, rfl, .inl ⟨h, rfl⟩⟩

theorem spendRecord_of_lt (h : r.tokens s < cost) :
    spendRecord cost s r = (.ok false, { r with
      dropFlags := r.dropFlags &&& ~~~ serviceBit s }) := by
  simp only [spendRecord, Act.bind_apply, Act.modify, Act.get, if_neg (Nat.not_le.2 h),
    Act.pure_apply]

theorem leakRecord_spec (cost : Nat) (h : r.tokens s < cost) (drop : Bool) :
    ∃ d, (leakRecord s drop r).1 = .ok d ∧ Limited cost s r (leakRecord s drop r).2 := by
  simp only [leakRecord, Act.bind_apply, Act.get]
  generalize (if s = .ntp ∧ r.ntpTimeoutRate ≠ invalidRate ∧
    r.rate s + rateScale < r.ntpTimeoutRate then
    !drop else drop) = d
  cases d with
  | false => exact ⟨false, rfl, rfl, rfl, .inr ⟨h, 0, Nat.zero_le _, rfl⟩⟩
  | true =>
    exact ⟨true, rfl, rfl, rfl, .inr ⟨h, r.tokens s, le_refl _, (Function.update_eq_self s _).symm⟩⟩

/-! ## One call -/

variable {F : Type} {c : ClientLog F} {ip : ClientIp}

theorem limitResponseRandom_spec (leakRate : Nat) (c : ClientLog F) : ∃ drop rnd bits rng,
    limitResponseRandom leakRate c =
      (.ok drop, { c with leakRnd := rnd, leakBitsLeft := bits, rng := rng }) := by
  simp only [limitResponseRandom, Act.bind_apply, Act.get, Act.when]
  by_cases h : c.leakBitsLeft < leakRate
  · simp only [if_pos h, Act.bind_apply, randomU32]
    exact ⟨_, _, _, _, rfl⟩
  · simp only [if_neg h, Act.pure_apply]
    exact ⟨_, _, _, c.rng, rfl⟩

theorem limitServiceRate_spec (s : Service) (idx : Nat) (c : ClientLog F) {d : Bool}
    {c' : ClientLog F} (h : limitServiceRate s idx c = (.ok d, c')) :
    SameSetup c c' ∧ (c.tokensPerHit s = 0 ∧ c'.records = c.records ∨
      c.tokensPerHit s ≠ 0 ∧ ∃ r r', c.records[idx]? = some r ∧ c'.records = c.records.set idx r' ∧
        Limited (c.tokensPerHit s) s r r') := by
  simp only [limitServiceRate, Act.bind_apply, Act.get] at h
  by_cases h0 : c.tokensPerHit s = 0
  · rw [if_pos h0, Act.pure_apply] at h
    cases h
    exact ⟨.refl c, .inl ⟨h0, rfl⟩⟩
  · rw [if_neg h0] at h
    cases hr : c.records[idx]? with
    | none =>
      simp only [Act.bind_apply, onRecord, hr] at h
      cases h
    | some r =>
      rcases Nat.lt_or_ge (r.tokens s) (c.tokensPerHit s) with hlt | hle
      · have hidx := (List.getElem?_eq_some_iff.1 hr).1
        simp only [Act.bind_apply, onRecord, hr, spendRecord_of_lt hlt, Bool.false_eq_true,
          if_false] at h
        obtain ⟨drop, rnd, bits, rng, hrandom⟩ := limitResponseRandom_spec (c.leakRate s)
          { c with records := c.records.set idx { r with
            dropFlags := r.dropFlags &&& ~~~ serviceBit s } }
        simp only [hrandom, List.getElem?_set_self hidx, List.set_set] at h
        obtain ⟨d', hd', hlim⟩ := leakRecord_spec (c.tokensPerHit s) (s := s)
          (r := { r with dropFlags := r.dropFlags &&& ~~~ serviceBit s }) hlt drop
        refine ⟨?_, .inr ⟨h0, r, _, rfl, ?_, hlim.1, hlim.2, hlim.3⟩⟩ <;>
          simp only [hd', Act.when] at h
        · cases d' <;> cases h <;> exact ⟨rfl, rfl, rfl, rfl⟩
        · cases d' <;> cases h <;> rfl
      · obtain ⟨hspent, hlim⟩ := spendRecord_of_le hle
        simp only [Act.bind_apply, onRecord, hr, hspent, if_true, Act.pure_apply] at h
        cases h
        exact ⟨⟨rfl, rfl, rfl, rfl⟩, .inr ⟨h0, r, _, rfl, rfl, hlim⟩⟩

theorem index_spec (h : TableInv c) {c' : ClientLog F}
    (hret : (RecOp.index ip).run draws c = (.ok (), c')) :
    SameSetup c c' ∧ Carries c ip c'.records := by
  obtain ⟨i, hret⟩ := Act.discard_eq_ok hret
  obtain ⟨res, c1, hget, -, hset, hcarry, -⟩ := getRecord_spec h draws ip
  rw [getClientIndex, Act.bind_apply, hget] at hret
  cases res with
  | error e => cases hret
  | ok res =>
    cases res <;> (obtain ⟨-, rfl⟩ := Prod.mk.inj hret; exact ⟨hset, hcarry⟩)

/-- What `log_service_access` does to the records, when it returns. -/
theorem logServiceAccess_spec (h : TableInv c) {now : Timespec} {i : Int} {c' : ClientLog F}
    (hret : logServiceAccess draws s ip now c = (.ok i, c')) :
    ∃ c1 : ClientLog F, TableInv c1 ∧ SameSetup c c' ∧ Carries c ip c1.records ∧
      (¬ Client ip ∧ c'.records = c1.records ∨
        ∃ idx r, c1.records[idx]? = some r ∧ key r = some ip ∧ c'.records = c1.records.set idx
          (hitRecord (c.maxTokens s) (c.tokenShift s) s (c.getTsFromTimespec now) r).2 ∧
            i = asI32 idx) := by
  -- the counter that is raised first plays no part
  have h0 : TableInv { c with totalHits := Function.update c.totalHits s (c.totalHits s + 1) } :=
    h.frame rfl rfl rfl rfl rfl
  obtain ⟨res, c1, hget, hinv, hsetup, hcarry, hsome, hnone⟩ := getRecord_spec h0 draws ip
  simp only [logServiceAccess, Act.bind_apply, Act.modify, hget] at hret
  have hsame : SameSetup c c1 := ⟨hsetup.1, hsetup.2, hsetup.3, hsetup.4⟩
  cases res with
  | error e => cases hret
  | ok res =>
    cases res with
    | none =>
      cases hret
      exact ⟨c', hinv, hsame, hcarry, .inl ⟨hnone rfl, rfl⟩⟩
    | some idx =>
      obtain ⟨r, hr, hk⟩ := hsome idx rfl
      have hts : c1.getTsFromTimespec now = c.getTsFromTimespec now := by
        simp only [getTsFromTimespec, hsame.tsOffset]
      simp only [Act.bind_apply, updateRecord, Act.get, onRecord, hr, hsame.maxTokens,
        hsame.tokenShift, hts] at hret
      cases hhit : (hitRecord (c.maxTokens s) (c.tokenShift s) s (c.getTsFromTimespec now) r).1 with
      | error e =>
        simp only [hhit] at hret
        cases hret
      | ok u =>
        simp only [hhit, Act.pure_apply] at hret
        obtain ⟨hi, rfl⟩ := Prod.mk.inj hret
        exact ⟨c1, hinv, ⟨rfl, hsame.2, rfl, hsame.4⟩, hcarry,
          .inr ⟨idx, r, hr, hk, rfl, (Except.ok.inj hi).symm⟩⟩

/-- The hit timestamp of a call, if it is an access of the client to the service. -/
def RecOp.hit (s : Service) (ip : ClientIp) (c : ClientLog F) : RecOp → Option UInt32
  | access s' ip' now => if s' = s ∧ ip' = ip then some (c.getTsFromTimespec now) else none
  | _ => none

/-- Whether a call allows a response to the client by spending tokens. -/
def RecOp.spends (s : Service) (ip : ClientIp) (c : ClientLog F) : RecOp → Bool
  | limit s' idx =>
    match c.records[idx]? with
    | some r =>
      decide (s' = s ∧ key r = some ip ∧ c.tokensPerHit s ≠ 0 ∧ c.tokensPerHit s ≤ r.tokens s)
    | none => false
  | _ => false

theorem RecOp.spends_eq_true (h : op.spends s ip c = true) :
    ∃ idx r, op = .limit s idx ∧ c.records[idx]? = some r ∧ key r = some ip ∧ c.tokensPerHit s ≠ 0 ∧
      c.tokensPerHit s ≤ r.tokens s := by
  cases op with
  | limit s' idx =>
    rw [spends] at h
    split at h
    · next r hr =>
      obtain ⟨rfl, hk, h0, hle⟩ := of_decide_eq_true h
      exact ⟨idx, r, rfl, hr, hk, h0, hle⟩
    · cases h
  | _ => cases h

/-- What becomes of the record of a client in a call. -/
inductive Became (c : ClientLog F) (ip : ClientIp) : RecOp → Record → Record → Prop
  | kept {op : RecOp} {r : Record} (hhit : ∀ s, op.hit s ip c = none)
    (hspend : ∀ s, op.spends s ip c = false) :
      Became c ip op r r
  | hit {s : Service} {now : Timespec} {r : Record} : Became c ip (.access s ip now) r
      (hitRecord (c.maxTokens s) (c.tokenShift s) s (c.getTsFromTimespec now) r).2
  | limited {s : Service} {idx : Nat} {r r' : Record} (hr : c.records[idx]? = some r)
      (h0 : c.tokensPerHit s ≠ 0) (hlim : Limited (c.tokensPerHit s) s r r') :
        Became c ip (.limit s idx) r r'

theorem mem_set_cases {xs : List Record} {i : Nat} {x y : Record} (h : y ∈ xs.set i x) :
    y = x ∨ ∃ j, j ≠ i ∧ xs[j]? = some y := by
  obtain ⟨j, hj⟩ := List.mem_iff_getElem?.1 h
  by_cases hji : j = i
  · subst hji
    by_cases hlt : j < xs.length
    · rw [List.getElem?_set_self hlt] at hj
      cases hj
      exact .inl rfl
    · rw [List.getElem?_eq_none (by rw [List.length_set]; omega)] at hj
      cases hj
  · rw [List.getElem?_set_ne fun h => hji h.symm] at hj
    exact .inr ⟨j, hji, hj⟩

/-- Where the record of a client came from. -/
def Was (c : ClientLog F) (ip : ClientIp) (r : Record) : Prop :=
  key r = some ip ∧ (r ∈ c.records ∨ r = c.freshRecord ip ∧ ∀ x ∈ c.records, key x ≠ some ip)

theorem TableInv.was_eq (h : TableInv c) {r0 : Record} (hw : Was c ip r0) (hr : r ∈ c.records)
    (hk : key r = some ip) : r0 = r := by
  rcases hw with ⟨hk0, h0 | ⟨-, hno⟩⟩
  · obtain ⟨i, hi⟩ := List.mem_iff_getElem?.1 hr
    obtain ⟨j, hj⟩ := List.mem_iff_getElem?.1 h0
    have hij := h.table.distinct i j r r0 ip hi hj hk hk0
    rw [hij, hj] at hi
    cases hi
    rfl
  · exact absurd hk (hno r hr)

/-- A lookup changes no record of a client. -/
theorem Carries.was {ip0 : ClientIp} {records : List Record} (h : Carries c ip0 records)
    (hr : r ∈ records) (hk : key r = some ip) : Was c ip r := by
  rcases h r hr (by rw [hk]; nofun) with h1 | ⟨rfl, h1⟩
  · exact ⟨hk, .inl h1⟩
  · have : ip0 = ip := by
      obtain ⟨h2, -⟩ := key_eq_some.1 hk
      exact h2
    subst this
    exact ⟨hk, .inr ⟨rfl, h1⟩⟩

/-- **What a call does to the record of a client.** -/
theorem RecOp.became (h : TableInv c) {c' : ClientLog F} (hret : op.run draws c = (.ok (), c'))
    (hr' : r' ∈ c'.records) (hk' : key r' = some ip) :
    ∃ r, Was c ip r ∧ Became c ip op r r' := by
  cases op with
  | index client =>
    obtain ⟨-, hcarry⟩ := index_spec h hret
    exact ⟨r', hcarry.was hr' hk', .kept (fun _ => rfl) fun _ => rfl⟩
  | access s client now =>
    obtain ⟨i, hret'⟩ := Act.discard_eq_ok hret
    obtain ⟨c1, hinv, -, hcarry, ⟨hno, hrec⟩ | ⟨idx, r, hr, hk, hrec, -⟩⟩ :=
      logServiceAccess_spec h hret'
    · have hmem : r' ∈ c1.records := hrec ▸ hr'
      have hne : client ≠ ip := by
        rintro rfl
        exact hno (hinv.clients r' hmem _ hk')
      exact ⟨r', hcarry.was hmem hk', .kept (fun _ => if_neg fun h => hne h.2) fun _ => rfl⟩
    · rw [hrec] at hr'
      rcases mem_set_cases hr' with rfl | ⟨j, hj, hr1⟩
      · rw [key_hitRecord, hk] at hk'
        cases hk'
        exact ⟨r, hcarry.was (List.mem_of_getElem? hr) hk, .hit⟩
      · -- the record of another client
        have hne : client ≠ ip := by
          rintro rfl
          exact hj (hinv.table.distinct j idx r' r _ hr1 hr hk' hk)
        exact ⟨r', hcarry.was (List.mem_of_getElem? hr1) hk',
          .kept (fun _ => if_neg fun h => hne h.2) fun _ => rfl⟩
  | limit s idx =>
    obtain ⟨d, hret'⟩ := Act.discard_eq_ok hret
    obtain ⟨-, ⟨h0, hrec⟩ | ⟨h0, r, x, hr, hrec, hlim⟩⟩ := limitServiceRate_spec s idx c hret'
    · refine ⟨r', ⟨hk', .inl (hrec ▸ hr')⟩, .kept (fun _ => rfl) fun s' =>
        Bool.eq_false_iff.2 fun hs => ?_⟩
      obtain ⟨_, _, he, -, -, h1, -⟩ := spends_eq_true hs
      cases he
      exact h1 h0
    · rw [hrec] at hr'
      rcases mem_set_cases hr' with rfl | ⟨j, hj, hr1⟩
      · exact ⟨r, ⟨hlim.key_eq ▸ hk', .inl (List.mem_of_getElem? hr)⟩, .limited hr h0 hlim⟩
      · refine ⟨r', ⟨hk', .inl (List.mem_of_getElem? hr1)⟩,
          .kept (fun _ => rfl) fun s' => Bool.eq_false_iff.2 fun hs => ?_⟩
        obtain ⟨_, x, he, hx, hkx, -⟩ := spends_eq_true hs
        cases he
        exact hj (h.table.distinct j idx r' x _ hr1 hx hk' hkx)

/-! ## Runs -/

/-- The setup is in range, and no bucket is over its capacity. -/
structure Metered (c : ClientLog F) : Prop where
  table : TableInv c
  setup : ∀ s, c.maxTokens s < 2 ^ 16 ∧ -15 ≤ c.tokenShift s ∧ c.tokenShift s < 32
  level : ∀ r ∈ c.records, key r ≠ none → ∀ s, r.tokens s ≤ c.maxTokens s

theorem Metered.of_was (h : Metered c) (hr : Was c ip r) (s : Service) :
    r.tokens s ≤ c.maxTokens s := by
  rcases hr with ⟨hk, hr | ⟨rfl, -⟩⟩
  · exact h.level r hr (by rw [hk]; nofun) s
  · exact le_refl _

theorem update_apply_le {f : Service → Nat} {s' : Service} (hn : s' = s → n ≤ m) (hf : f s' ≤ m) :
    Function.update f s n s' ≤ m := by
  by_cases h : s' = s
  · subst h
    rw [Function.update_self]
    exact hn rfl
  · rw [Function.update_of_ne h]
    exact hf

theorem Became.tokens_le (hb : Became c ip op r r') (h : r.tokens s ≤ c.maxTokens s) :
    r'.tokens s ≤ c.maxTokens s := by
  cases hb with
  | kept _ _ => exact h
  | @hit s0 now _ =>
    obtain ⟨n, htok, -, hn⟩ := hitRecord_shape (c.maxTokens s0) (c.tokenShift s0) s0
      (c.getTsFromTimespec now) r
    rw [htok]
    refine update_apply_le (fun he => ?_) h
    subst he
    rcases hn with rfl | ⟨hn, -⟩
    · exact h
    · exact hn
  | @limited s0 idx _ _ hr h0 hlim =>
    rcases hlim.tokens with ⟨-, htok⟩ | ⟨-, n, hn, htok⟩
    · rw [htok]
      exact update_apply_le (fun he => by subst he; omega) h
    · rw [htok]
      exact update_apply_le (fun he => by subst he; omega) h

theorem Became.lastHit (hb : Became c ip op r r') (s : Service) :
    r'.lastHit s = (op.hit s ip c).getD (r.lastHit s) := by
  cases hb with
  | kept hhit _ => rw [hhit s]; rfl
  | @hit s0 now _ =>
    obtain ⟨_, -, hlast, -⟩ :=
      hitRecord_shape (c.maxTokens s0) (c.tokenShift s0) s0 (c.getTsFromTimespec now) r
    rw [hlast, RecOp.hit]
    by_cases hs : s0 = s
    · subst hs
      rw [Function.update_self, if_pos ⟨rfl, rfl⟩]
      rfl
    · rw [Function.update_of_ne (Ne.symm hs), if_neg fun h => hs h.1]
      rfl
  | limited _ _ hlim => rw [hlim.lastHit]; rfl

/-- **A call is a step of the bucket.** -/
theorem Became.step (hc : Metered c) (hb : Became c ip op r r') (hr : Was c ip r)
    (hmono : ∀ t, op.hit s ip c = some t → r.lastHit s ≤ t) :
    Step (c.maxTokens s) (c.tokensPerHit s) (refillBound (c.tokenShift s)) (level r s)
      (op.spends s ip c) (level r' s) := by
  have hidle : Step (c.maxTokens s) (c.tokensPerHit s) (refillBound (c.tokenShift s))
      (level r s) false
      (level r s) := .lose (le_refl _)
  have hlast := hb.lastHit s
  cases hb with
  | kept _ hspend => exact hspend s ▸ hidle
  | @hit s0 now _ =>
    by_cases hs : s0 = s
    · subst hs
      exact hitRecord_step (hc.setup s0).1 (hc.setup s0).2 (hc.of_was hr s0)
        (hmono _ (if_pos ⟨rfl, rfl⟩))
    · obtain ⟨n, htok, -, -⟩ :=
        hitRecord_shape (c.maxTokens s0) (c.tokenShift s0) s0 (c.getTsFromTimespec now) r
      rw [RecOp.hit, if_neg fun h => hs h.1] at hlast
      rw [level_of_ne (Ne.symm hs) htok hlast]
      exact hidle
  | @limited s0 idx _ _ hidx h0 hlim =>
    have hspends : RecOp.spends s ip c (.limit s0 idx) = decide (s0 = s ∧ key r = some ip ∧
        c.tokensPerHit s ≠ 0 ∧ c.tokensPerHit s ≤ r.tokens s) := by
      rw [RecOp.spends, hidx]
    by_cases hs : s0 = s
    · subst hs
      rcases hlim.tokens with ⟨hle, htok⟩ | ⟨hlt, n, hn, htok⟩
      · rw [hspends, decide_eq_true ⟨rfl, hr.1, h0, hle⟩, level_of_update htok hlast]
        exact .spend hle
      · rw [hspends, decide_eq_false fun h => Nat.not_lt.2 h.2.2.2 hlt, level_of_update htok hlast]
        exact .lose hn
    · have hsame : level r' s = level r s := by
        rcases hlim.tokens with ⟨-, htok⟩ | ⟨-, n, -, htok⟩ <;> exact level_of_ne
          (Ne.symm hs) htok hlast
      rw [hspends, decide_eq_false fun h => hs h.1, hsame]
      exact hidle

theorem RecOp.sameSetup (h : TableInv c) {c' : ClientLog F} (hret : op.run draws c = (.ok (), c')) :
    SameSetup c c' := by
  cases op with
  | index client => exact (index_spec h hret).1
  | access s client now =>
    obtain ⟨i, hret'⟩ := Act.discard_eq_ok hret
    obtain ⟨_, -, hset, -⟩ := logServiceAccess_spec h hret'
    exact hset
  | limit s idx =>
    obtain ⟨d, hret'⟩ := Act.discard_eq_ok hret
    exact (limitServiceRate_spec s idx c hret').1

/-- A call that returns keeps the buckets within their capacity. -/
theorem Metered.call (h : Metered c) {c' : ClientLog F} (hret : op.run draws c = (.ok (), c')) :
    Metered c' := by
  have hset := RecOp.sameSetup h.table hret
  refine ⟨?_, ?_, ?_⟩
  · have := (op.safe draws c h.table).1
    rwa [hret] at this
  · rw [hset.maxTokens, hset.tokenShift]
    exact h.setup
  · intro r' hr' hk' s
    obtain ⟨ip, hk'⟩ := Option.ne_none_iff_exists'.1 hk'
    obtain ⟨r, hwas, hb⟩ := RecOp.became h.table hret hr' hk'
    rw [hset.maxTokens]
    exact hb.tokens_le (h.of_was hwas s)

theorem recRun_cons {c' : ClientLog F} (h : recRun draws (op :: ops) c = (.ok (), c')) :
    ∃ c1, op.run draws c = (.ok (), c1) ∧ recRun draws ops c1 = (.ok (), c') := by
  rw [recRun, Act.bind_apply] at h
  cases hx : op.run draws c with
  | mk x c1 =>
    rw [hx] at h
    cases x with
    | error e => cases h
    | ok u => exact ⟨c1, rfl, h⟩

theorem Metered.run (h : Metered c) {c' : ClientLog F} (hret : recRun draws ops c = (.ok (), c')) :
    Metered c' ∧ SameSetup c c' := by
  induction ops generalizing c with
  | nil =>
    cases hret
    exact ⟨h, .refl _⟩
  | cons op ops ih =>
    obtain ⟨c1, h1, h2⟩ := recRun_cons hret
    obtain ⟨h3, h4⟩ := ih (h.call h1) h2
    exact ⟨h3, (RecOp.sameSetup h.table h1).trans h4⟩

def Has (ip : ClientIp) (c : ClientLog F) : Prop := ∃ r ∈ c.records, key r = some ip

instance (ip : ClientIp) (c : ClientLog F) : Decidable (Has ip c) :=
  inferInstanceAs (Decidable (∃ r ∈ c.records, key r = some ip))

/-- After every call of a run the client has a record. -/
def Stays (draws : Nat) (ip : ClientIp) : List RecOp → ClientLog F → Prop
  | [], _ => True
  | op :: ops, c => Has ip (op.run draws c).2 ∧ Stays draws ip ops (op.run draws c).2

/-- The hit timestamps of the accesses of the client to the service. -/
def hits (s : Service) (ip : ClientIp) (c : ClientLog F) (ops : List RecOp) : List UInt32 :=
  ops.filterMap (RecOp.hit s ip c)

/-- Which calls of a run allowed a response to the client by spending tokens. -/
def spendings (draws : Nat) (s : Service) (ip : ClientIp) : List RecOp → ClientLog F → List Bool
  | [], _ => []
  | op :: ops, c => op.spends s ip c :: spendings draws s ip ops (op.run draws c).2

theorem hits_setup {c c' : ClientLog F} (h : SameSetup c c') (s : Service) (ops : List RecOp) :
    hits s ip c' ops = hits s ip c ops := by
  have : RecOp.hit s ip c' = RecOp.hit s ip c := by
    funext op
    cases op with
    | access s' ip' now => simp only [RecOp.hit, getTsFromTimespec, h.tsOffset]
    | _ => rfl
  rw [hits, hits, this]

/-- **The run of a client's bucket** from a record of the client on. -/
theorem bucket_run {c' : ClientLog F} (h : Metered c) (hr : r ∈ c.records) (hk : key r = some ip)
    (hret : recRun draws ops c = (.ok (), c')) (hstay : Stays draws ip ops c)
    (hmono : (r.lastHit s :: hits s ip c ops).Pairwise (· ≤ ·)) :
    ∃ r' ∈ c'.records, key r' = some ip ∧
      r'.lastHit s = (r.lastHit s :: hits s ip c ops).getLast (List.cons_ne_nil _ _) ∧
      Run (Step (c.maxTokens s) (c.tokensPerHit s) (refillBound (c.tokenShift s))) (level r s)
        (spendings draws s ip ops c) (level r' s) := by
  induction ops generalizing c r with
  | nil =>
    cases hret
    exact ⟨r, hr, hk, rfl, .nil _⟩
  | cons op ops ih =>
    obtain ⟨c1, h1, h2⟩ := recRun_cons hret
    have hset := RecOp.sameSetup h.table h1
    rw [Stays, h1] at hstay
    obtain ⟨⟨r1, hr1, hk1⟩, hstay⟩ := hstay
    -- the record of the client before and after the call
    obtain ⟨r0, hwas, hb⟩ := RecOp.became h.table h1 hr1 hk1
    obtain rfl : r0 = r := h.table.was_eq hwas hr hk
    have hmono0 : ∀ t, op.hit s ip c = some t → r0.lastHit s ≤ t := by
      intro t ht
      exact (List.pairwise_cons.1 hmono).1 t (List.mem_filterMap.2 ⟨op, List.mem_cons_self, ht⟩)
    have hstep := hb.step h hwas hmono0
    have hlast := hb.lastHit s
    -- the remaining timestamps, from the last hit on
    have hrest : (r1.lastHit s :: hits s ip c ops).Pairwise (· ≤ ·) ∧
        ∀ h1 h2, (r1.lastHit s :: hits s ip c ops).getLast h1 =
          (r0.lastHit s :: hits s ip c (op :: ops)).getLast h2 := by
      rw [hlast]
      cases ht : op.hit s ip c with
      | none =>
        have hh : hits s ip c (op :: ops) = hits s ip c ops := List.filterMap_cons_none ht
        rw [hh] at hmono ⊢
        exact ⟨hmono, fun _ _ => rfl⟩
      | some t =>
        have hh : hits s ip c (op :: ops) = t :: hits s ip c ops := List.filterMap_cons_some ht
        rw [hh] at hmono ⊢
        exact ⟨(List.pairwise_cons.1 hmono).2, fun _ _ =>
          (List.getLast_cons (List.cons_ne_nil _ _)).symm⟩
    rw [← hits_setup hset] at hrest
    obtain ⟨r', hr', hk', hlast', hrun⟩ := ih (h.call h1) hr1 hk1 h2 hstay hrest.1
    refine ⟨r', hr', hk', hlast'.trans (hrest.2 _ _), ?_⟩
    rw [hset.maxTokens, hset.tokensPerHit, hset.tokenShift] at hrun
    rw [spendings, h1]
    exact .cons hstep hrun

/-! ## From a new log on -/

theorem new_params [F64 F] {config : ClientLogConfig} {rng : Nat → UInt8}
    (hactive : config.noClientLog = false) (h : new draws config rng = .ok c) (s : Service) :
    ∃ leak interval, serviceParams (config.ratelimit s) =
      .ok (c.maxTokens s, c.tokensPerHit s, c.tokenShift s, leak, interval) := by
  rw [new] at h
  obtain ⟨ntp, h1, h⟩ := bind_eq_ok.1 h
  obtain ⟨ntske, h2, h⟩ := bind_eq_ok.1 h
  obtain ⟨cmdmon, h3, h⟩ := bind_eq_ok.1 h
  simp only [hactive, Bool.false_eq_true, if_false] at h
  cases h
  cases s with
  | ntp => exact ⟨_, _, h1⟩
  | ntske => exact ⟨_, _, h2⟩
  | cmdmon => exact ⟨_, _, h3⟩

theorem new_metered [F64 F] {config : ClientLogConfig} {rng : Nat → UInt8}
    (hactive : config.noClientLog = false) (h : new draws config rng = .ok c) : Metered c := by
  have hinv := new_tableInv hactive h
  refine ⟨hinv, fun s => ?_, ?_⟩
  · obtain ⟨leak, interval, hp⟩ := new_params hactive h s
    cases hrl : config.ratelimit s with
    | none =>
      rw [hrl, serviceParams, unlimited] at hp
      simp only [Except.ok.injEq, Prod.mk.injEq] at hp
      rw [← hp.1, ← hp.2.2.1]
      decide
    | some rl =>
      obtain ⟨ts, b, tpp, -, -, -, hlt, hset, hts⟩ :=
        setBucketParams_spec rl.interval.toInt rl.burst.toInt
      simp only [hrl, serviceParams, hset, ok_bind, Except.ok.injEq, Prod.mk.injEq] at hp
      rw [← hp.1, ← hp.2.2.1]
      exact ⟨hlt, hts⟩
  · intro r hr hk
    exact absurd (new_empty hactive h r hr) hk

/-- **The token bucket bound.** For every configuration, after any calls on a new log, take a run
that begins with an access of a client to a service and that keeps the client's record, with the hit
timestamps of the client for the service in order. Then the parameters of the service are those
computed, with nothing cut off; the tokens are within the capacity; the next hit in order finds all
its arithmetic in range; and the responses allowed by spending tokens cost no more than the capacity
and what the time from the first to the last hit refills. -/
theorem responses_bounded [F64 F] (draws : Nat) (config : ClientLogConfig) (rng : Nat → UInt8)
    (hactive : config.noClientLog = false) (hnew : new draws config rng = .ok c)
    (before : List RecOp) (c0 : ClientLog F) (hbefore : recRun draws before c = (.ok (), c0))
    (s : Service) (now : Timespec) (rest : List RecOp)
    (hrun : (recRun draws (.access s ip now :: rest) c0).1 = .ok ())
    (hstay : Stays draws ip (.access s ip now :: rest) c0) (t1 : UInt32)
    (hmono : (hits s ip c0 (.access s ip now :: rest)).Pairwise (· ≤ ·))
    (hlast : (hits s ip c0 (.access s ip now :: rest)).getLast? = some t1) :
    let c1 := (recRun draws (.access s ip now :: rest) c0).2
    (∀ rl, config.ratelimit s = some rl → ∃ burst tokensPerPacket,
      bucketShift (clampI32 minLimitInterval rl.interval.toInt maxLimitInterval)
        (clampI32 minLimitBurst rl.burst.toInt maxLimitBurst) = .ok (c.tokenShift s, burst) ∧
      shlU32 1 (tsFrac + clampI32 minLimitInterval rl.interval.toInt maxLimitInterval -
        c.tokenShift s) = .ok tokensPerPacket ∧
      c.tokensPerHit s = tokensPerPacket ∧ c.maxTokens s = tokensPerPacket * burst.toNat) ∧
    c.maxTokens s < 2 ^ 16 ∧
    (∀ (idx : Nat) r, c1.records[idx]? = some r → key r = some ip → r.tokens s ≤ c.maxTokens s ∧
      ∀ now', r.lastHit s ≤ c1.getTsFromTimespec now' → (updateRecord s idx now' c1).1 = .ok ()) ∧
    (spendings draws s ip (.access s ip now :: rest) c0).count true * c.tokensPerHit s ≤
      c.maxTokens s +
        refillBound (c.tokenShift s) (c0.getTsFromTimespec now).toNat t1.toNat := by
  intro c1
  have hrun : recRun draws (.access s ip now :: rest) c0 = (.ok (), c1) := Prod.ext hrun rfl
  obtain ⟨h0, hset0⟩ := (new_metered hactive hnew).run hbefore
  obtain ⟨h1, hset1⟩ := h0.run hrun
  have hset := hset0.trans hset1
  refine ⟨?_, ((new_metered hactive hnew).setup s).1, ?_, ?_⟩
  · intro rl hrl
    obtain ⟨leak, interval, hp⟩ := new_params hactive hnew s
    obtain ⟨ts, b, tpp, -, hshift, hshl, -, hparams, -⟩ :=
      setBucketParams_spec rl.interval.toInt rl.burst.toInt
    simp only [hrl, serviceParams, hparams, ok_bind, Except.ok.injEq, Prod.mk.injEq] at hp
    obtain ⟨hp1, hp2, hp3, -⟩ := hp
    rw [← hp1, ← hp2, ← hp3]
    exact ⟨b, tpp, hshift, hshl, rfl, rfl⟩
  · intro idx r hr hk
    have hle : r.tokens s ≤ c1.maxTokens s :=
      h1.level r (List.mem_of_getElem? hr) (by rw [hk]; nofun) s
    refine ⟨hset.maxTokens ▸ hle, fun now' hnow => ?_⟩
    simp only [updateRecord, Act.bind_apply, Act.get, onRecord, hr]
    exact hitRecord_returns (h1.setup s).1 (h1.setup s).2 hle hnow
  · -- the run of the bucket begins with the record the first access leaves
    obtain ⟨ca, ha, hrest⟩ := recRun_cons hrun
    have hseta := RecOp.sameSetup h0.table ha
    rw [Stays, ha] at hstay
    obtain ⟨⟨r, hr, hk⟩, hstay⟩ := hstay
    obtain ⟨r0, hwas, hb⟩ := RecOp.became h0.table ha hr hk
    have hhit : RecOp.hit s ip c0 (.access s ip now) = some (c0.getTsFromTimespec now) :=
      if_pos ⟨rfl, rfl⟩
    have ht0 : r.lastHit s = c0.getTsFromTimespec now := by rw [hb.lastHit s, hhit]; rfl
    have hhits : hits s ip c0 (.access s ip now :: rest) = r.lastHit s :: hits s ip ca rest := by
      rw [hits_setup hseta, ht0]
      exact List.filterMap_cons_some hhit
    rw [hhits] at hmono hlast
    obtain ⟨r', hr', hk', hlast', hbucket⟩ := bucket_run (h0.call ha) hr hk hrest hstay hmono
    have ht1 : r'.lastHit s = t1 := by
      rw [List.getLast?_eq_some_getLast (List.cons_ne_nil _ _)] at hlast
      cases hlast
      exact hlast'
    obtain ⟨-, hbound⟩ := run_bound (refillBound_self _) (refillBound_add _) hbucket
    have hcap : r.tokens s ≤ ca.maxTokens s := (h0.call ha).level r hr (by rw [hk]; nofun) s
    have hseta' := hset0.trans hseta
    simp only [level, ht0, ht1, hseta'.maxTokens, hseta'.tokensPerHit, hseta'.tokenShift]
      at hbound hcap
    have hcount : (spendings draws s ip (.access s ip now :: rest) c0).count true =
        (spendings draws s ip rest ca).count true := by
      rw [spendings, ha]
      exact List.count_cons_of_ne Bool.false_ne_true
    rw [hcount]
    omega

/-- The call is neither an access of the client nor a limit on its record. -/
def RecOp.Others (ip : ClientIp) (c : ClientLog F) : RecOp → Prop
  | index _ => True
  | access _ client _ => client ≠ ip
  | limit _ idx => ∀ r, c.records[idx]? = some r → key r ≠ some ip

def Apart (draws : Nat) (ip : ClientIp) : List RecOp → ClientLog F → Prop
  | [], _ => True
  | op :: ops, c => op.Others ip c ∧ Apart draws ip ops (op.run draws c).2

theorem Became.others (hb : Became c ip op r r') (hop : op.Others ip c)
    (hk : key r = some ip) : r' = r := by
  cases hb with
  | kept => rfl
  | hit => exact absurd rfl hop
  | limited hr => exact absurd hk (hop r hr)

/-- **Clients do not touch each other's records.** After any calls on a new log, a run of calls for
other clients that does not evict the record of a client leaves it as it is, tokens and all. -/
theorem others_leave_record [F64 F] (draws : Nat) (config : ClientLogConfig) (rng : Nat → UInt8)
    (hactive : config.noClientLog = false) (hnew : new draws config rng = .ok c)
    (before ops : List RecOp) :
    let c0 := (recRun draws before c).2
    (recRun draws before c).1 = .ok () → (recRun draws ops c0).1 = .ok () → Stays draws ip ops c0 →
      Apart draws ip ops c0 → ∀ r ∈ c0.records, key r = some ip →
        r ∈ (recRun draws ops c0).2.records := by
  intro c0 hbefore hrun hstay hothers r hr hk
  have h0 : Metered c0 := ((new_metered hactive hnew).run (Prod.ext hbefore rfl)).1
  generalize c0 = c0 at *
  induction ops generalizing c0 with
  | nil => exact hr
  | cons op ops ih =>
    obtain ⟨c2, h1, h2⟩ := recRun_cons (Prod.ext hrun rfl)
    rw [Stays, h1] at hstay
    rw [Apart, h1] at hothers
    obtain ⟨⟨r2, hr2, hk2⟩, hstay⟩ := hstay
    obtain ⟨r0, hwas, hb⟩ := RecOp.became h0.table h1 hr2 hk2
    obtain rfl : r0 = r := h0.table.was_eq hwas hr hk
    obtain rfl : r2 = r0 := hb.others hothers.1 hk
    have hih := ih c2 (congrArg Prod.fst h2) hstay hothers.2 hr2 (h0.call h1)
    rwa [h2] at hih

/-- A service limited to one response in 8 seconds, in bursts of 8. -/
def oneInEight : ClientLogConfig :=
  ⟨fun s => if s = .ntp then some ⟨3, 8, 2⟩ else none, false, 3840⟩

def oneInEightLog : ClientLog ℚ :=
  (activate 2 oneInEight.clientLogLimit (initial (fun
    | .ntp => (1024, 128, 0, 2, 3)
    | .ntske => unlimited
    | .cmdmon => unlimited) fun _ => 1)).2

theorem new_oneInEightLog : new 2 oneInEight (fun _ => 1) = .ok oneInEightLog := rfl

def twoResponses : List RecOp :=
  [.access .ntp (.v4 1) ⟨100, 0⟩, .limit .ntp 0, .access .ntp (.v4 1) ⟨101, 0⟩, .limit .ntp 0]

theorem responses_bounded_two :
    (spendings 2 .ntp (.v4 1) twoResponses oneInEightLog).count true *
      oneInEightLog.tokensPerHit .ntp ≤
      oneInEightLog.maxTokens .ntp + refillBound (oneInEightLog.tokenShift .ntp)
        (oneInEightLog.getTsFromTimespec ⟨100, 0⟩).toNat (UInt32.toNat 1616) :=
  (responses_bounded 2 oneInEight (fun _ => 1) rfl new_oneInEightLog
    [] oneInEightLog rfl .ntp ⟨100, 0⟩
    [.limit .ntp 0, .access .ntp (.v4 1) ⟨101, 0⟩, .limit .ntp 0]
    (by decide +kernel) ⟨by decide +kernel, by decide +kernel, by decide +kernel, by decide +kernel,
      trivial⟩
    1616 (by decide +kernel) (by decide +kernel)).2.2.2

-- both are allowed by spending tokens
example : spendings 2 .ntp (.v4 1) twoResponses oneInEightLog = [false, true, false, true] := by
  decide +kernel

theorem others_leave_record_two : ∃ r, key r = some (.v4 1) ∧
    r ∈ (recRun 2 [.access .ntp (.v4 2) ⟨102, 0⟩]
      (recRun 2 twoResponses oneInEightLog).2).2.records := by
  obtain ⟨r, hr, hk⟩ : Has (.v4 1) (recRun 2 twoResponses oneInEightLog).2 := by decide +kernel
  exact ⟨r, hk, others_leave_record 2 oneInEight (fun _ => 1) rfl new_oneInEightLog twoResponses
    [.access .ntp (.v4 2) ⟨102, 0⟩] (by decide +kernel) (by decide +kernel)
    (by exact ⟨by decide +kernel, trivial⟩) (by exact ⟨by simp [RecOp.Others], trivial⟩) r hr hk⟩

end ChronyRs.L4.Server.ClientLog

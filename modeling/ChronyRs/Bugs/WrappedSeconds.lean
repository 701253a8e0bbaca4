import ChronyRs.L4Server.Transmit

/-!
# Times after 2036 are lost (`ntp/transmit.rs`)

The seconds of an NTP timestamp wrap in February 2036. `transmit::ntp64_to_timespec` maps every
second below the Unix epoch of era 0 to zero, so from then on the receive and transmit fields of a
response hold the epoch itself, or nothing at all. `sample.rs` takes the same timestamps for times
before 1970, and only `util.rs` puts them behind the wrap.

* `seconds_kept_iff`: the seconds survive, and the three conversions agree, exactly for times of era
  0 after 1970.
* `second_after_wrap`: what becomes of the first second of era 1.

Fix: convert with `util::ntp64_to_timespec` in all three places.
-/
namespace ChronyRs.Bugs.WrappedSeconds

open L2 L3.Nts L4.Transmit

/-- The seconds that stand for a missing timestamp, in the one format or the other. -/
def Sentinel (ts : UInt64) : Prop := seconds ts = 0 ∨ seconds ts = 2208988800

/-- The receive and transmit fields of a response have these seconds. -/
def Carries (packet : Bytes) (rx tx : UInt64) : Prop :=
  (packet.drop 32).take 4 = be32 (seconds rx) ∧ (packet.drop 40).take 4 = be32 (seconds tx)

def Agree (F : Type) [F64Math F] (ts : UInt64) : Prop :=
  (ntp64ToTimespec ts).tvSec = (sampleTimespec F ts).tvSec ∧
    (sampleTimespec F ts).tvSec = (utilTimespec F (seconds ts) ts.toUInt32 ntpEraSplit).tvSec

section
variable {ts : UInt64}

theorem tvSec_transmit (ts : UInt64) : (ntp64ToTimespec ts).tvSec =
    if 2208988800 ≤ (seconds ts).toNat then ((seconds ts).toNat : Int) - 2208988800 else 0 := by
  unfold ntp64ToTimespec
  rw [toNat_shiftRight_32]
  dsimp only
  split <;> omega

theorem toNat_ne_of_not_sentinel (h : ¬ Sentinel ts) :
    (seconds ts).toNat ≠ 0 ∧ (seconds ts).toNat ≠ 2208988800 := by
  rw [Sentinel, not_or, ← UInt32.toNat_inj, ← UInt32.toNat_inj] at h
  simpa using h

theorem lt_seconds_iff : 2208988800 < seconds ts ↔ 2208988800 < (seconds ts).toNat := by
  rw [UInt32.lt_iff_toNat_lt]
  simp

/-- **There and back.** -/
theorem seconds_round_trip_iff (F : Type) [F64 F] (h : ¬ Sentinel ts) :
    (timespecToNtp64 F (ntp64ToTimespec ts)).1 = seconds ts ↔ 2208988800 < seconds ts := by
  have hne := toNat_ne_of_not_sentinel h
  have hlt := (seconds ts).toNat_lt
  have hepoch : (0x83aa7e80 : UInt32).toNat = 2208988800 := by simp
  rw [lt_seconds_iff, ← UInt32.toNat_inj]
  unfold timespecToNtp64
  rw [tvSec_transmit]
  dsimp only
  by_cases hs : 2208988800 ≤ (seconds ts).toNat
  · -- the difference is not zero, and adding the epoch gives the seconds back
    have hword : (UInt32.ofNat (((seconds ts).toNat - 2208988800 : Int) % 2 ^ 32).toNat).toNat =
        (seconds ts).toNat - 2208988800 := by
      rw [UInt32.toNat_ofNat']
      omega
    have hpos : UInt32.ofNat (((seconds ts).toNat - 2208988800 : Int) % 2 ^ 32).toNat ≠ 0 := by
      rw [Ne, ← UInt32.toNat_inj, hword, UInt32.toNat_zero]
      omega
    refine iff_of_true ?_ (by omega)
    rw [if_pos hs, if_neg fun h => hpos h.1, UInt32.toNat_add, hword, hepoch]
    omega
  · refine iff_of_false ?_ (by omega)
    rw [if_neg hs]
    split
    · exact fun h0 => hne.1 h0.symm
    · intro h0
      rw [UInt32.toNat_add, hepoch] at h0
      simp at h0
      omega

theorem agree_iff (F : Type) [F64Math F] (h : ¬ Sentinel ts) :
    Agree F ts ↔ 2208988800 < seconds ts := by
  have hne := toNat_ne_of_not_sentinel h
  have hlt := (seconds ts).toNat_lt
  have hepoch : (0x83aa7e80 : UInt32).toNat = 2208988800 := by simp
  have hzero : ts ≠ 0 := fun h0 => h (.inl (by rw [h0]; rfl))
  have hhi : ¬ (seconds ts = 0 ∧ ts.toUInt32 = 0) := fun h0 => h (.inl h0.1)
  have hsplit : UInt32.ofNat ((ntpEraSplit + 0x83aa7e80) % 2 ^ 32).toNat = 0x83aa7e80 := by decide
  rw [Agree, tvSec_transmit, sampleTimespec, if_neg hzero, utilTimespec, if_neg hhi, lt_seconds_iff]
  dsimp only
  rw [hsplit, UInt32.toNat_sub, hepoch, ntpEraSplit]
  split <;> omega

end

/-- **The seconds of a response.** For timestamps other than the sentinels, every response that is
sent carries the seconds of both if and only if both are times of era 0 after 1970; the conversion
there and back, and the agreement of the three conversions, hold for exactly these timestamps. -/
theorem seconds_kept_iff (F : Type) [F64Math F] (params : ReferenceParams F)
    (hrx : ¬ Sentinel params.rxTs) (htx : ¬ Sentinel params.txTs) :
    (∀ {C K A L : Type} [AesSiv C] [CookieCodec K] (sendMessage : Message A L → Int) (sockFd : Int)
      (requestData : Bytes) (remote : A) (localIp : L) (nts nts' : Option (NtsServer C K))
      (sent : List (Message A L)) (ok : Bool),
      transmitServerResponse sendMessage sockFd requestData remote localIp params nts =
        .ok (nts', sent, ok) →
      ∀ msg ∈ sent, (Carries msg.packet params.rxTs params.txTs ↔
        2208988800 < seconds params.rxTs ∧ 2208988800 < seconds params.txTs)) ∧
    ∀ ts, ¬ Sentinel ts →
      ((timespecToNtp64 F (ntp64ToTimespec ts)).1 = seconds ts ↔ 2208988800 < seconds ts) ∧
      (Agree F ts ↔ 2208988800 < seconds ts) := by
  refine ⟨?_, fun ts h => ⟨seconds_round_trip_iff F h, agree_iff F h⟩⟩
  intro C K A L _ _ sendMessage sockFd requestData remote localIp nts nts' sent ok hcall msg hmsg
  have hheader := transmitServerResponse_sent hcall msg hmsg
  have hfield (n : Nat) (hn : n + 4 ≤ 48) : (msg.packet.drop n).take 4 =
      ((header params).drop n).take 4 := by
    rw [← hheader, List.drop_take, List.take_take, Nat.min_eq_left (by omega)]
  rw [Carries, hfield 32 (by decide), hfield 40 (by decide), header_receive, header_transmit,
    ← seconds_round_trip_iff F hrx, ← seconds_round_trip_iff F htx]
  exact and_congr be32_inj be32_inj

def paramsAt (rxTs txTs : UInt64) : ReferenceParams ℚ where
  leap := 0
  stratum := 1
  refId := 0x47505300
  refTime := ⟨1000, 0⟩
  rootDelay := 0
  rootDispersion := 0
  originTs := 7
  rxTs := rxTs
  txTs := txTs

-- in May 2023
theorem seconds_kept_today : Carries (header (paramsAt 0xe8000000_80000000 0xe8000000_90000000))
      0xe8000000_80000000 0xe8000000_90000000 ∧ Agree ℚ 0xe8000000_80000000 := by
  have hkept := seconds_kept_iff ℚ (paramsAt 0xe8000000_80000000 0xe8000000_90000000)
    (by unfold Sentinel; decide) (by unfold Sentinel; decide)
  have hcall : transmitServerResponse (C := NullCipher) (K := PlainCodec)
      (fun _ : Message Unit Unit => 48) 3
      (List.replicate 48 0) () () (paramsAt 0xe8000000_80000000 0xe8000000_90000000) none =
      .ok (none, [⟨3, (), (), header (paramsAt 0xe8000000_80000000 0xe8000000_90000000)⟩], true) :=
        rfl
  exact ⟨(hkept.1 _ _ _ _ _ _ _ _ _ hcall _ List.mem_cons_self).2 (by decide),
    ((hkept.2 _ (by unfold Sentinel; decide)).2).2 (by decide)⟩

/-- The first second of era 1 (2036-02-07 06:28:17): the receive and transmit fields of the response
hold zero and the Unix epoch instead of 1; for the other two conversions it is a time in 1900 and
the right one. -/
theorem second_after_wrap :
    (∃ msg, transmitServerResponse (C := NullCipher) (K := PlainCodec)
      (fun _ : Message Unit Unit => 48) 3
        (List.replicate 48 0) () () (paramsAt 0x00000001_00000000 0x00000001_80000000) none =
        .ok (none, [msg], true) ∧
      (msg.packet.drop 32).take 4 = be32 0 ∧ (msg.packet.drop 40).take 4 = be32 0x83aa7e80) ∧
    ¬ Sentinel 0x00000001_00000000 ∧ seconds 0x00000001_00000000 = 1 ∧
    (ntp64ToTimespec 0x00000001_00000000).tvSec = 0 ∧
    (sampleTimespec ℚ 0x00000001_00000000).tvSec = -2208988799 ∧
    (utilTimespec ℚ 1 0 ntpEraSplit).tvSec = 2085978497 := by
  refine ⟨⟨_, rfl, by decide +kernel, by decide +kernel⟩, by unfold Sentinel; decide, by decide,
    by decide +kernel, by decide +kernel, by decide +kernel⟩

end ChronyRs.Bugs.WrappedSeconds

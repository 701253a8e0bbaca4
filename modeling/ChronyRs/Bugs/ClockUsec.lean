import ChronyRs.L5Sources.Refclock

/-!
# Reference clock samples that stop the daemon

The drivers scale the microseconds another process has written without looking at their size: the
SHM driver computes `1000 * t.recv_usec` in 32 bits and the SOCK driver `sample.tv_usec * 1000` in
64 bits, and both carry whole seconds over with an addition that is not checked either. With
overflow checks on, a process that may write the segment or the socket stops the daemon. A sample
that gets through is exact.

* `samples_exact_iff`: exactly the segments and datagrams that are handled without an overflow.
* `long_second_stops`: 2147484 microseconds in the segment, and 2^62 in a datagram.

Fix: reject samples whose microseconds are not below a million.
-/
namespace ChronyRs.Bugs.ClockUsec

open L4.Server L5.Refclock

section
variable {F : Type} [F64Math F] (fromNeBytes : Bytes → F)

/-- The SHM driver returns, and a sample has the times of the segment. -/
def ShmExact (t : ShmTime) (currentCount : Int32) : Prop :=
  ∃ r, poll t currentCount = .ok r ∧ ∀ receiveTs clockTs leap, r = some (receiveTs, clockTs, leap) →
    Represents receiveTs t.recvSec.toInt t.given.1 ∧ Represents clockTs t.clockSec.toInt t.given.2

/-- The SOCK driver returns, and a sample has the time of the datagram. -/
def SockExact (buf : Bytes) : Prop :=
  ∃ r, readSample fromNeBytes buf = .ok r ∧ ∀ out, r = some out →
    out.Normalised ∧ ∃ s, parseSample fromNeBytes buf = some s ∧
      Represents out.sysTs s.tvSec (s.tvUsec * 1000)

theorem shmExact_iff (t : ShmTime) (c : Int32) : ShmExact t c ↔ (t.Accepted c → t.Safe) := by
  by_cases ha : t.Accepted c
  · obtain ⟨hsafe, hrest⟩ := poll_spec ha
    constructor
    · rintro ⟨r, hr, -⟩ -
      by_contra hs
      rw [hrest hs] at hr
      cases hr
    · intro hs
      refine ⟨_, hsafe (hs ha), ?_⟩
      intro receiveTs clockTs leap h
      cases h
      exact ⟨represents_exact _ _, represents_exact _ _⟩
  · refine iff_of_true ⟨none, ?_, fun _ _ _ h => nomatch h⟩ fun h => absurd h ha
    rw [poll, if_pos ha]
    rfl

theorem sockExact_iff [RoundedF64 F] (buf : Bytes) : SockExact fromNeBytes buf ↔
    ∀ s, parseSample fromNeBytes buf = some s → s.magic = 0x534f434b → s.Safe := by
  cases hs : parseSample fromNeBytes buf with
  | none =>
    refine iff_of_true ⟨none, ?_, fun _ h => nomatch h⟩ fun _ h => nomatch h
    rw [readSample, hs]
    rfl
  | some s =>
    by_cases hm : s.magic = 0x534f434b
    · obtain ⟨hsafe, hrest⟩ := readSample_spec fromNeBytes hs hm
      constructor
      · rintro ⟨r, hr, -⟩ s' hs' -
        cases hs'
        by_contra hn
        rw [hrest hn] at hr
        cases hr
      · intro h
        obtain ⟨r, hr, hout⟩ := hsafe (h s rfl hm)
        refine ⟨r, hr, ?_⟩
        intro out ho
        obtain ⟨hsys, hnorm⟩ := hout out ho
        exact ⟨hnorm, s, hs, hsys ▸ represents_exact _ _⟩
    · refine iff_of_true ⟨none, ?_, fun _ h => nomatch h⟩ ?_
      · rw [readSample, hs]
        dsimp only
        rw [if_pos hm]
        rfl
      · intro s' hs' hm'
        cases hs'
        exact absurd hm' hm

/-- **The drivers handle exactly the samples whose scaled microseconds and whose seconds are in
range**, and a sample they accept then has the times that were given. -/
theorem samples_exact_iff [RoundedF64 F] (t : ShmTime) (currentCount : Int32) (buf : Bytes) :
    (ShmExact t currentCount ↔ (t.Accepted currentCount → t.Safe)) ∧
    (SockExact fromNeBytes buf ↔ ∀ s, parseSample fromNeBytes buf = some s →
      s.magic = 0x534f434b → s.Safe) :=
  ⟨shmExact_iff t currentCount, sockExact_iff fromNeBytes buf⟩

end

/-- A segment in use, at the given seconds and microseconds. -/
def segment (sec : Int64) (usec : Int32) : ShmTime where
  mode := 0
  count := 0
  clockSec := sec
  clockUsec := usec
  recvSec := sec
  recvUsec := usec
  leap := 0
  valid := 1
  clockNsec := 0
  recvNsec := 0

/-- A datagram with zeros for the seconds and the offset, the given highest byte of the
microseconds, and the magic number. -/
def datagram (usecTop : UInt8) : Bytes :=
  List.replicate 15 0 ++ [usecTop] ++ List.replicate 20 0 ++ [0x4b, 0x43, 0x4f, 0x53]

theorem parseSample_of_length {F : Type} (f : Bytes → F) {buf : Bytes} (h : buf.length = 40) :
    ∃ s, parseSample f buf = some s ∧ s.tvSec = rdInt buf 0 8 ∧ s.tvUsec = rdInt buf 8 8 ∧
      s.magic = rdInt buf 36 4 := by
  rw [parseSample, if_neg (not_not.2 h)]
  refine ⟨_, rfl, ?_⟩
  simp only [and_self]

theorem samples_exact_iff_quiet :
    ShmExact (segment 1700000000 250000) 0 ∧ SockExact (fun _ => (0 : ℚ)) (datagram 0) := by
  obtain ⟨hshm, hsock⟩ := samples_exact_iff (fun _ => (0 : ℚ))
    (segment 1700000000 250000) 0 (datagram 0)
  constructor
  · rw [hshm, ShmTime.Safe]
    decide
  · obtain ⟨s, hs, hsec, husec, -⟩ := parseSample_of_length (fun _ => (0 : ℚ))
      (show (datagram 0).length = 40 by decide)
    have hsec0 : rdInt (datagram 0) 0 8 = 0 := by decide +kernel
    have husec0 : rdInt (datagram 0) 8 8 = 0 := by decide +kernel
    rw [hsock, hs]
    rintro s' hs' -
    cases hs'
    rw [SockSample.Safe, hsec, husec, hsec0, husec0]
    decide

/-- A receive time of more than 2147483 microseconds overflows 32 bits, and 2^62 microseconds 64
bits. -/
theorem long_second_stops :
    poll (segment 1700000000 2147484) 0 = .error .overflow ∧
    readSample (fun _ => (0 : ℚ)) (datagram 0x40) = .error .overflow := by
  obtain ⟨s, hs, -, husec, hmagic⟩ :=
    parseSample_of_length (fun _ => (0 : ℚ)) (show (datagram 0x40).length = 40 by decide)
  have husec0 : rdInt (datagram 0x40) 8 8 = 2 ^ 62 := by decide +kernel
  have hmagic0 : rdInt (datagram 0x40) 36 4 = 0x534f434b := by decide +kernel
  refine ⟨rfl, (readSample_spec _ hs (hmagic.trans hmagic0)).2 ?_⟩
  rw [SockSample.Safe, husec, husec0]
  intro h
  exact absurd h.1 (by decide)

end ChronyRs.Bugs.ClockUsec

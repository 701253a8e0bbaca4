import ChronyRs.L4Server.Times

/-!
# The SHM and SOCK reference clocks

A driver reads what another process has written to a shared memory segment or sent to a socket, and
turns it into a sample: a time of the local clock and the time of the reference. Both scale the
microseconds to nanoseconds and carry whole seconds over, with the overflow checks of an `i32` and
an `i64`.

* `poll_spec`, `readSample_spec`: a driver computes the exact times, or stops on an overflow;
  nothing else happens.
* `near_of_sane`: the check of the offset keeps the sum of time and offset in range.
-/
namespace ChronyRs.L5.Refclock

open L4.Server
open F64 (AtMost AtLeast)

/-! ## The SHM driver -/

/-- mirrors refclock_shm.rs:47-61 -/
structure ShmTime where
  mode : Int32
  count : Int32
  clockSec : Int64
  clockUsec : Int32
  recvSec : Int64
  recvUsec : Int32
  leap : Int32
  valid : Int32
  clockNsec : Int32
  recvNsec : Int32

/-- The nanosecond fields say the same as the microsecond fields. -/
def ShmTime.Consistent (t : ShmTime) : Prop :=
  t.clockNsec.toInt.tdiv 1000 = t.clockUsec.toInt ∧ t.recvNsec.toInt.tdiv 1000 = t.recvUsec.toInt

instance decidableConsistent (t : ShmTime) : Decidable t.Consistent :=
  inferInstanceAs (Decidable (_ ∧ _))

/-- The segment is in use and was not written to while it was read. -/
def ShmTime.Accepted (t : ShmTime) (currentCount : Int32) : Prop :=
  ¬ (t.mode = 1 ∧ t.count ≠ currentCount ∨ ¬ (t.mode = 0 ∨ t.mode = 1) ∨ t.valid = 0)

instance decidableAccepted (t : ShmTime) (c : Int32) : Decidable (t.Accepted c) :=
  inferInstanceAs (Decidable (¬ _))

/-- The nanoseconds that are taken: the receive time's and the clock's. -/
def ShmTime.nsecs (t : ShmTime) : Rust (Int × Int) :=
  if t.Consistent then return (t.recvNsec.toInt, t.clockNsec.toInt)
  else return (← i32 (1000 * t.recvUsec.toInt), ← i32 (1000 * t.clockUsec.toInt))

/-- mirrors refclock_shm.rs:113-141 -/
def poll (t : ShmTime) (currentCount : Int32) : Rust (Option (Timespec × Timespec × Int32)) := do
  if ¬ t.Accepted currentCount then return none
  else
    let (recvNsec, clockNsec) ← t.nsecs
    let clockTs ← Timespec.normaliseChecked ⟨t.clockSec.toInt, clockNsec⟩
    let receiveTs ← Timespec.normaliseChecked ⟨t.recvSec.toInt, recvNsec⟩
    return some (receiveTs, clockTs, t.leap)

/-! ## The SOCK driver -/

section
variable {F : Type} (fromNeBytes : Bytes → F)

/-- mirrors refclock_sock.rs:58-65 -/
structure SockSample (F : Type) where
  tvSec : Int
  tvUsec : Int
  offset : F
  pulse : Int
  leap : Int
  magic : Int

/-- mirrors refclock_sock.rs:70-75 -/
inductive SockOutput (F : Type) where
  | sample (sysTs refTs : Timespec) (leap : Int)
  | pulse (sysTs : Timespec) (offset : F)

/-- A signed integer of some bytes, the least significant one first. -/
def rdInt (buf : Bytes) (o bytes : Nat) : Int :=
  Int.bmod (fromBe ((buf.drop o).take bytes).reverse) (2 ^ (8 * bytes))

/-- mirrors refclock_sock.rs:84-100 -/
def parseSample (buf : Bytes) : Option (SockSample F) :=
  if buf.length ≠ 40 then none
  else some {
    tvSec := rdInt buf 0 8
    tvUsec := rdInt buf 8 8
    offset := fromNeBytes ((buf.drop 16).take 8)
    pulse := rdInt buf 24 4
    leap := rdInt buf 28 4
    magic := rdInt buf 36 4 }

variable [F64Math F]

/-- mirrors refclock.rs:213-225 -/
def isTimeOffsetSane (ts : Timespec) (offset : F) : Bool :=
  if !(F64.lt (F64.lit (-4294967296)) offset && F64.lt offset (F64.lit 4294967296)) then false
  else
    let t := F64.add (F64.add (F64.ofInt ts.tvSec)
      (F64.mul (F64.lit (1 / 1000000000)) (F64.ofInt ts.tvNsec))) offset
    !F64.lt t (F64.lit 0) && !F64.lt (F64.sub (F64.ofInt 0x7fffffff) (F64.lit (365 * 24 * 3600))) t

/-- mirrors reference.rs:117-127 -/
def addDouble (ts : Timespec) (increment : F) : Rust Timespec := do
  let intPart := F64Math.toI64 increment
  let sec ← i64 (ts.tvSec + intPart)
  let nsec ← i64 (ts.tvNsec + F64Math.toI64 (F64.mul (F64.lit 1000000000)
      (F64.sub increment (F64.ofInt intPart))))
  return ⟨← i64 (sec + nsec / nsecPerSec), nsec % nsecPerSec⟩

/-- mirrors refclock_sock.rs:104-129 -/
def readSample (buf : Bytes) : Rust (Option (SockOutput F)) := do
  match parseSample fromNeBytes buf with
  | none => return none
  | some sample =>
    if sample.magic ≠ 0x534f434b then return none
    else
      let totalNsec ← i64 (sample.tvUsec * 1000)
      let sysTs := ⟨← i64 (sample.tvSec + totalNsec / nsecPerSec), totalNsec % nsecPerSec⟩
      if !isTimeOffsetSane sysTs sample.offset then return none
      else
        let refTs ← addDouble sysTs sample.offset
        return some (if sample.pulse ≠ 0 then .pulse sysTs sample.offset else .sample sysTs
          refTs sample.leap)

end

/-! ## What the drivers compute -/

/-- A time with its nanoseconds in range, for the given seconds and nanoseconds. -/
structure Represents (ts : Timespec) (sec nsec : Int) : Prop where
  nonneg : 0 ≤ ts.tvNsec
  lt : ts.tvNsec < nsecPerSec
  total : ts.total = sec * nsecPerSec + nsec

/-- The time that represents them. -/
def exact (sec nsec : Int) : Timespec :=
  ⟨(sec * nsecPerSec + nsec) / nsecPerSec, (sec * nsecPerSec + nsec) % nsecPerSec⟩

/-- Its seconds are in range. -/
def Fits (sec nsec : Int) : Prop := InI64 (exact sec nsec).tvSec

instance decidableFits (sec nsec : Int) : Decidable (Fits sec nsec) :=
  inferInstanceAs (Decidable (_ ∧ _))

theorem represents_exact (sec nsec : Int) : Represents (exact sec nsec) sec nsec where
  nonneg := Int.emod_nonneg _ (by decide)
  lt := Int.emod_lt_of_pos _ (by decide)
  total := by
    simp only [Timespec.total, exact, nsecPerSec]
    omega

theorem normalise_eq (sec : Int64) (nsec : Int) : Timespec.normaliseChecked ⟨sec.toInt, nsec⟩ =
    if Fits sec.toInt nsec then .ok (exact sec.toInt nsec) else .error .overflow := by
  have hexact : exact sec.toInt nsec = Timespec.normalise ⟨sec.toInt, nsec⟩ :=
    (Timespec.normalise_eq ⟨_, _⟩).symm
  simp only [Fits, hexact]
  exact Timespec.normaliseChecked_eq ⟨sec.le_toInt, sec.toInt_lt⟩

/-- What the segment gives for the nanoseconds. -/
def ShmTime.given (t : ShmTime) : Int × Int :=
  if t.Consistent then (t.recvNsec.toInt, t.clockNsec.toInt)
    else (1000 * t.recvUsec.toInt, 1000 * t.clockUsec.toInt)

/-- The scaled microseconds are in the range of an `i32` where they are used, and the times can be
represented. -/
def ShmTime.Safe (t : ShmTime) : Prop :=
  (t.Consistent ∨ InI32 t.given.1 ∧ InI32 t.given.2) ∧
    Fits t.clockSec.toInt t.given.2 ∧ Fits t.recvSec.toInt t.given.1

theorem nsecs_eq (t : ShmTime) :
    t.nsecs =
      if t.Consistent ∨ InI32 t.given.1 ∧ InI32 t.given.2 then .ok t.given
      else .error .overflow := by
  by_cases hc : t.Consistent
  · rw [if_pos (.inl hc), ShmTime.nsecs, ShmTime.given, if_pos hc, if_pos hc]
    rfl
  · have hg : t.given = (1000 * t.recvUsec.toInt, 1000 * t.clockUsec.toInt) := if_neg hc
    rw [ShmTime.nsecs, if_neg hc, hg, i32, i32]
    by_cases hr : InI32 (1000 * t.recvUsec.toInt)
    · by_cases hk : InI32 (1000 * t.clockUsec.toInt)
      · rw [if_pos hr, if_pos hk, if_pos (.inr ⟨hr, hk⟩)]
        rfl
      · rw [if_pos hr, if_neg hk, if_neg (not_or.2 ⟨hc, fun h => hk h.2⟩)]
        rfl
    · rw [if_neg hr, if_neg (not_or.2 ⟨hc, fun h => hr h.1⟩)]
      rfl

theorem poll_spec {t : ShmTime} {c : Int32} (h : t.Accepted c) :
    (t.Safe → poll t c = .ok (some (exact t.recvSec.toInt t.given.1,
      exact t.clockSec.toInt t.given.2, t.leap))) ∧ (¬ t.Safe → poll t c = .error .overflow) := by
  rw [poll, if_neg (not_not.2 h), nsecs_eq]
  constructor
  · rintro ⟨hn, hclock, hrecv⟩
    rw [if_pos hn, ok_bind]
    dsimp only
    rw [normalise_eq, if_pos hclock, ok_bind, normalise_eq, if_pos hrecv]
    rfl
  · intro hs
    by_cases hn : t.Consistent ∨ InI32 t.given.1 ∧ InI32 t.given.2
    · rw [if_pos hn, ok_bind]
      dsimp only
      rw [normalise_eq, normalise_eq]
      by_cases hclock : Fits t.clockSec.toInt t.given.2
      · rw [if_pos hclock, ok_bind, if_neg fun hrecv => hs ⟨hn, hclock, hrecv⟩]
        rfl
      · rw [if_neg hclock]
        rfl
    · rw [if_neg hn]
      rfl

section
variable {F : Type}

/-- The scaled microseconds and the seconds they carry over to are in the range of an `i64`. -/
def SockSample.Safe (s : SockSample F) : Prop :=
  InI64 (s.tvUsec * 1000) ∧ Fits s.tvSec (s.tvUsec * 1000)

def SockOutput.sysTs : SockOutput F → Timespec
  | .sample sysTs _ _ => sysTs
  | .pulse sysTs _ => sysTs

/-- Every time of a sample has its nanoseconds in range. -/
def SockOutput.Normalised : SockOutput F → Prop
  | .sample sysTs refTs _ =>
    (0 ≤ sysTs.tvNsec ∧ sysTs.tvNsec < nsecPerSec) ∧ 0 ≤ refTs.tvNsec ∧ refTs.tvNsec < nsecPerSec
  | .pulse sysTs _ => 0 ≤ sysTs.tvNsec ∧ sysTs.tvNsec < nsecPerSec

variable [F64Math F] [RoundedF64 F] {ts : Timespec} {x : F}

theorem offset_range {p : Int} (h : isTimeOffsetSane ts x = true) (hp : 2 ^ 32 ≤ p)
    (hsmall : F64.Small p) : AtMost x p ∧ AtLeast x (-p) := by
  have hp' : (2 ^ 32 : ℚ) ≤ p := by exact_mod_cast hp
  rw [isTimeOffsetSane] at h
  split at h
  · cases h
  case isFalse hr =>
    obtain ⟨hlo, hhi⟩ : F64.lt (F64.lit (-4294967296)) x = true ∧
        F64.lt x (F64.lit 4294967296) = true := by
      simpa using hr
    exact ⟨RoundedF64.atMost_of_lt hsmall (by linarith) hhi,
      RoundedF64.atLeast_of_lt (by omega) (by push_cast; linarith) hlo⟩

/-- The nanoseconds of the fraction that truncation leaves of an offset. -/
def fractionNsec (x : F) : Int :=
  F64Math.toI64 (F64.mul (F64.lit 1000000000) (F64.sub x (F64.ofInt (F64Math.toI64 x))))

theorem fractionNsec_range (hmost : AtMost x (2 ^ 53)) (hleast : AtLeast x (-2 ^ 53)) :
    -10 ^ 9 ≤ fractionNsec x ∧ fractionNsec x ≤ 10 ^ 9 := by
  obtain ⟨h1, h2⟩ := RoundedF64.fraction hmost hleast
  obtain ⟨hmul, hmul'⟩ := RoundedF64.mul_within (a := F64.lit 1000000000) (p := 10 ^ 9) (by decide)
    (RoundedF64.lit_atMost (by decide) (by norm_num))
      (RoundedF64.lit_atLeast (by decide) (by norm_num)) h1 h2
  exact ⟨RoundedF64.le_toI64 hmul', RoundedF64.toI64_le hmul⟩

/-- No offset of less than 2^32 seconds brings a time that is more than 2^40 seconds away from the
epoch near to it. -/
theorem near_of_sane (h0 : 0 ≤ ts.tvNsec) (h1 : ts.tvNsec < nsecPerSec)
    (h : isTimeOffsetSane ts x = true) : -2 ^ 40 ≤ ts.tvSec ∧ ts.tvSec ≤ 2 ^ 40 := by
  obtain ⟨hmost, hleast⟩ := offset_range h le_rfl (by decide)
  -- a rough bound of the nanoseconds will do
  obtain ⟨hnmost, hnleast⟩ := RoundedF64.mul_within (a := (F64.lit (1 / 1000000000) : F)) (p := 1)
    (q := 10 ^ 9)
    (b := F64.ofInt ts.tvNsec) (by decide) (RoundedF64.lit_atMost (by decide) (by norm_num))
    (RoundedF64.lit_atLeast (by decide) (by norm_num)) (RoundedF64.ofInt_atMost (by decide) h1.le)
    (RoundedF64.ofInt_atLeast (by decide) (by omega))
  have hsane : ∀ t : F, t = F64.add (F64.add (F64.ofInt ts.tvSec)
      (F64.mul (F64.lit (1 / 1000000000)) (F64.ofInt ts.tvNsec))) x →
      F64.lt t (F64.lit 0) = false ∧ F64.lt (F64.sub (F64.ofInt 0x7fffffff)
        (F64.lit (365 * 24 * 3600))) t = false := by
    rintro t rfl
    rw [isTimeOffsetSane] at h
    split at h
    · cases h
    · simpa using h
  obtain ⟨hmin, hmax⟩ := hsane _ rfl
  constructor
  · by_contra hlt
    have hsum := RoundedF64.add_atMost (by decide) (RoundedF64.add_atMost (by decide)
      (RoundedF64.ofInt_atMost (p := -2 ^ 40) (by decide) (not_le.1 hlt).le) hnmost) hmost
    have := RoundedF64.lt_of_lt hsum (q := 0) (by decide)
      (RoundedF64.lit_atLeast (q := 0) (by decide) (by norm_num))
    rw [hmin] at this
    cases this
  · by_contra hlt
    have hsum := RoundedF64.add_atLeast (by decide) (RoundedF64.add_atLeast (by decide)
      (RoundedF64.ofInt_atLeast (p := 2 ^ 40) (by decide) (not_le.1 hlt).le) hnleast) hleast
    have hend := RoundedF64.sub_atMost (F := F) (p := 0x7fffffff) (q := 0) (by decide)
      (RoundedF64.ofInt_atMost (n := 0x7fffffff) (by decide) le_rfl)
      (RoundedF64.lit_atLeast (q := 365 * 24 * 3600) (by decide) (by norm_num))
    have := RoundedF64.lt_of_lt hend (by decide) hsum
    rw [hmax] at this
    cases this

theorem addDouble_returns (h0 : 0 ≤ ts.tvNsec) (h1 : ts.tvNsec < nsecPerSec)
    (h : isTimeOffsetSane ts x = true) :
    ∃ refTs, addDouble ts x = .ok refTs ∧ 0 ≤ refTs.tvNsec ∧ refTs.tvNsec < nsecPerSec := by
  obtain ⟨hmost, hleast⟩ := offset_range h (p := 2 ^ 53) (by decide) (by decide)
  have hle := RoundedF64.toI64_le hmost
  have hge := RoundedF64.le_toI64 hleast
  have hfraction := fractionNsec_range hmost hleast
  have hnear := near_of_sane h0 h1 h
  rw [addDouble]
  simp only [fractionNsec] at hfraction ⊢
  generalize F64Math.toI64 (F64.mul (F64.lit 1000000000)
    (F64.sub x (F64.ofInt (F64Math.toI64 x)))) = n at *
  generalize F64Math.toI64 x = w at *
  have hsec : InI64 (ts.tvSec + w) := by
    omega
  have hnsec : InI64 (ts.tvNsec + n) := by
    simp only [nsecPerSec] at *
    omega
  have hsum : InI64 (ts.tvSec + w + (ts.tvNsec + n) / nsecPerSec) := by
    simp only [nsecPerSec] at *
    omega
  rw [i64, if_pos hsec, ok_bind, i64, if_pos hnsec, ok_bind, i64, if_pos hsum, ok_bind]
  exact ⟨_, rfl, Int.emod_nonneg _ (by decide), Int.emod_lt_of_pos _ (by decide)⟩

theorem readSample_spec (fromNeBytes : Bytes → F) {buf : Bytes} {s : SockSample F}
    (hs : parseSample fromNeBytes buf = some s) (hm : s.magic = 0x534f434b) :
    (s.Safe → ∃ r, readSample fromNeBytes buf = .ok r ∧
      ∀ out, r = some out → out.sysTs = exact s.tvSec (s.tvUsec * 1000) ∧ out.Normalised) ∧
    (¬ s.Safe → readSample fromNeBytes buf = .error .overflow) := by
  have hexact : exact s.tvSec (s.tvUsec * 1000) =
      ⟨s.tvSec + s.tvUsec * 1000 / nsecPerSec, s.tvUsec * 1000 % nsecPerSec⟩ := by
    simp only [exact, nsecPerSec, Timespec.mk.injEq]
    omega
  rw [readSample, hs]
  dsimp only
  rw [if_neg (not_not.2 hm), i64]
  constructor
  · rintro ⟨husec, hfits⟩
    rw [if_pos husec, ok_bind, i64]
    rw [Fits, hexact] at hfits
    rw [if_pos hfits, ok_bind, ← hexact]
    have hrep := represents_exact s.tvSec (s.tvUsec * 1000)
    by_cases hsane : isTimeOffsetSane (exact s.tvSec (s.tvUsec * 1000)) s.offset = true
    · obtain ⟨refTs, href, hnorm⟩ := addDouble_returns hrep.nonneg hrep.lt hsane
      rw [hsane, if_neg (by decide), href, ok_bind]
      refine ⟨_, rfl, ?_⟩
      intro out hout
      by_cases hp : s.pulse ≠ 0
      · rw [if_pos hp] at hout
        cases hout
        exact ⟨rfl, hrep.nonneg, hrep.lt⟩
      · rw [if_neg hp] at hout
        cases hout
        exact ⟨rfl, ⟨hrep.nonneg, hrep.lt⟩, hnorm⟩
    · rw [Bool.not_eq_true] at hsane
      rw [hsane, if_pos (by decide)]
      exact ⟨_, rfl, fun out h => by cases h⟩
  · intro hsafe
    by_cases husec : InI64 (s.tvUsec * 1000)
    · have hfits : ¬ InI64 (s.tvSec + s.tvUsec * 1000 / nsecPerSec) := by
        intro h
        exact hsafe ⟨husec, by rw [Fits, hexact]; exact h⟩
      rw [if_pos husec, ok_bind, i64, if_neg hfits]
      rfl
    · rw [if_neg husec]
      rfl

end

end ChronyRs.L5.Refclock

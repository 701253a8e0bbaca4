import ChronyRs.Core.Act
import ChronyRs.L4Server.Times

/-!
# The interleaved-mode timestamp map

Model of the map from receive to transmit timestamps in
clientlog.rs: a ring of at most `max_size` entries in the cyclic order
of their receive timestamps, with a combined interpolation and binary search and a cache of the
last hit. `save_ntp_timestamps` inserts, dropping the oldest entry of a full ring, trimming
entries of the distant future and overwriting a neighbour where the insertion would move too many
entries.

The operations here are those of the map alone; `ClientLog` adds its `active` flag and its
counters. `first`, `size` and the logical indices are below `max_size ≤ 2^24`, so that sums of two
of them do not overflow and are natural numbers here. Times are added and subtracted with the
overflow checks.
-/
namespace ChronyRs.L4.Server

/-! ## Times -/

/-- mirrors clientlog.rs:1410 -/
def jan1970 : UInt32 := 0x83aa7e80

/-- mirrors clientlog.rs:1397-1407 -/
def ntp64ToTimespec (F : Type) [F64Math F] (ntp : UInt64) : Timespec :=
  if ntp = 0 then Timespec.zero
  else
    let ntpSec := (ntp >>> 32).toUInt32
    let ntpFrac := ntp.toUInt32
    { tvSec := (ntpSec - jan1970).toNat
      tvNsec := F64Math.toI64 (F64.div (F64.ofInt ntpFrac.toNat : F)
        (F64.lit (4294967296 / 1000000000))) }

/-- mirrors clientlog.rs:192-199 -/
inductive ChangeType where
  | adjust | step | unknownStep
  deriving DecidableEq, Repr

/-- mirrors clientlog.rs:204-211 -/
inductive TimestampSource where
  | daemon | kernel | hardware
  deriving DecidableEq, Repr

namespace TimestampSource

/-- `src as u8`. -/
def index : TimestampSource → UInt8
  | daemon => 0
  | kernel => 1
  | hardware => 2

/-- mirrors clientlog.rs:214-220 -/
def fromIndex (i : UInt8) : TimestampSource :=
  if i = 0 then daemon else if i = 1 then kernel else hardware

@[simp] theorem fromIndex_index (src : TimestampSource) : fromIndex src.index = src := by
  cases src <;> rfl

end TimestampSource

/-! ## Entries -/

def ntptsDisabled : UInt8 := 1
def ntptsValidTx : UInt8 := 2
def ntptsFutureLimit : UInt64 := 0x100000000
def ntptsInsertLimit : Nat := 64

/-- mirrors clientlog.rs:281-287 -/
structure NtpTimestamps where
  rxTs : UInt64
  flags : UInt8
  txTsSource : UInt8
  slewEpoch : UInt16
  txTsOffset : Int
  deriving DecidableEq, Repr

namespace NtpTimestamps

/-- mirrors clientlog.rs:290-292 -/
def blank : NtpTimestamps := ⟨0, 0, 0, 0, 0⟩

/-- `tss.flags |= NTPTS_DISABLED`. -/
def disable (tss : NtpTimestamps) : NtpTimestamps :=
  { tss with flags := tss.flags ||| ntptsDisabled }

/-- `tss.flags &= !NTPTS_VALID_TX`. -/
def clearTx (tss : NtpTimestamps) : NtpTimestamps :=
  { tss with flags := tss.flags &&& ~~~ ntptsValidTx }

/-- The first writes of `save_ntp_timestamps`. -/
def reset (tss : NtpTimestamps) (rx : UInt64) (slewEpoch : UInt16) : NtpTimestamps :=
  { tss with rxTs := rx, flags := 0, slewEpoch := slewEpoch }

/-- The writes at the end of `set_ntp_tx`. -/
def storeTx (tss : NtpTimestamps) (offset : Int) (txSrc : TimestampSource) : NtpTimestamps :=
  { tss with txTsOffset := offset, flags := tss.flags ||| ntptsValidTx, txTsSource := txSrc.index }

end NtpTimestamps

section
variable (conv : UInt64 → Timespec)

/-- `set_ntp_tx`, with `ntp64_to_timespec` as an argument.
mirrors clientlog.rs:1075-1097 -/
def setNtpTx (tss : NtpTimestamps) (rxTs : UInt64) (txTs : Option Timespec)
    (txSrc : TimestampSource) : Rust NtpTimestamps :=
  match txTs with
  | none => .ok tss.clearTx
  | some txTs => do
    let d ← txTs.diffChecked (conv rxTs)
    if d.tvSec < -2 ∨ 1 < d.tvSec then .ok tss.clearTx
    else do
      let sec ← i32 (d.tvSec * nsecPerSec)
      let offset ← i32 (d.tvNsec + sec)
      .ok (tss.storeTx offset txSrc)

/-- `tx_ts.tv_nsec += offset; tx_ts.normalise()`. -/
def addNsec (t : Timespec) (offset : Int) : Rust Timespec := do
  let nsec ← i64 (t.tvNsec + offset)
  Timespec.normaliseChecked ⟨t.tvSec, nsec⟩

/-- The time at an offset from a receive time.
mirrors clientlog.rs:1103-1110 -/
def addOffset (rx : Timespec) (offset : Int) : Rust Timespec :=
  if nsecPerSec ≤ offset then do
    let offset ← i32 (offset - nsecPerSec)
    let sec ← i64 (rx.tvSec + 1)
    addNsec ⟨sec, rx.tvNsec⟩ offset
  else addNsec rx offset

/-- mirrors clientlog.rs:1100-1115 -/
def getNtpTx (tss : NtpTimestamps) : Rust (Timespec × TimestampSource) := do
  let tx ←
    if tss.flags &&& ntptsValidTx ≠ 0 then addOffset (conv tss.rxTs) tss.txTsOffset
    else pure Timespec.zero
  pure (tx, TimestampSource.fromIndex tss.txTsSource)

end

section
variable {conv : UInt64 → Timespec} {tss tss' : NtpTimestamps} {rx : UInt64} {tx : Option Timespec}
  {src : TimestampSource} {r t : Timespec} {offset : Int}

/-- The `i32` offset does not overflow. -/
theorem setNtpTx_some (t : Timespec) : setNtpTx conv tss rx (some t) src = (do
    let d ← t.diffChecked (conv rx)
    .ok (if d.tvSec < -2 ∨ 1 < d.tvSec then tss.clearTx else tss.storeTx d.total src)) := by
  rw [setNtpTx]
  cases hd : t.diffChecked (conv rx) with
  | error e => rfl
  | ok d =>
    have hnsec : 0 ≤ d.tvNsec ∧ d.tvNsec < nsecPerSec := by
      rw [Timespec.diffChecked_ok hd, Timespec.diff_eq]
      exact ⟨Int.emod_nonneg _ (by decide), Int.emod_lt_of_pos _ (by decide)⟩
    rw [nsecPerSec] at hnsec
    rw [ok_bind, ok_bind, Timespec.total, Int.add_comm, nsecPerSec]
    split
    · rfl
    · rw [i32_of_range (by omega) (by omega), ok_bind, i32_of_range (by omega) (by omega), ok_bind]

/-- The difference is kept if its seconds are in the window. -/
theorem setNtpTx_ok (h : setNtpTx conv tss rx tx src = .ok tss') :
    (tss' = tss.clearTx ∧
      ∀ t ∈ tx, ¬ (-2 ≤ (t.diff (conv rx)).tvSec ∧ (t.diff (conv rx)).tvSec ≤ 1)) ∨
    ∃ t ∈ tx, (-2 ≤ (t.diff (conv rx)).tvSec ∧ (t.diff (conv rx)).tvSec ≤ 1) ∧
      tss' = tss.storeTx (t.total - (conv rx).total) src := by
  cases tx with
  | none =>
    cases h
    exact .inl ⟨rfl, by simp⟩
  | some t =>
    rw [setNtpTx_some] at h
    obtain ⟨d, hd, h⟩ := bind_eq_ok.1 h
    cases Timespec.diffChecked_ok hd
    cases h
    rw [Timespec.total_diff]
    split
    · exact .inl ⟨rfl, by rintro _ ⟨⟩; omega⟩
    · exact .inr ⟨t, rfl, by omega, rfl⟩

theorem addNsec_ok (h : addNsec r offset = .ok t) :
    t = Timespec.normalise ⟨r.tvSec, r.tvNsec + offset⟩ := by
  obtain ⟨nsec, hnsec, h⟩ := bind_eq_ok.1 h
  cases i64_eq_ok hnsec
  exact Timespec.normaliseChecked_ok h

/-- The carry into the seconds does not change the time. -/
theorem addOffset_ok (h : addOffset r offset = .ok t) :
    t = Timespec.normalise ⟨r.tvSec, r.tvNsec + offset⟩ := by
  rw [addOffset] at h
  split at h
  · obtain ⟨offset', hoffset, h⟩ := bind_eq_ok.1 h
    obtain ⟨sec, hsec, h⟩ := bind_eq_ok.1 h
    cases (i32_eq_ok hoffset).1
    cases i64_eq_ok hsec
    rw [addNsec_ok h]
    refine Timespec.normalise_congr ?_
    simp only [Timespec.total, Int.add_mul]
    omega
  · exact addNsec_ok h

/-- An offset of less than two seconds is added without an overflow, if the sum has a second. -/
theorem addOffset_returns (hsec : InI64 r.tvSec) (h0 : 0 ≤ r.tvNsec) (h1 : r.tvNsec < nsecPerSec)
    (ho0 : -2 * nsecPerSec ≤ offset) (ho1 : offset < 2 * nsecPerSec)
    (hsum : InI64 ((r.total + offset) / nsecPerSec)) : ∃ t, addOffset r offset = .ok t := by
  have hns : nsecPerSec = 1000000000 := rfl
  have hadd {sec nsec : Int} (hs : InI64 sec) (hn : InI64 (r.tvNsec + nsec))
      (ht : sec * nsecPerSec + (r.tvNsec + nsec) = r.total + offset) :
      ∃ t, addNsec ⟨sec, r.tvNsec⟩ nsec = .ok t := by
    rw [addNsec, i64_of_range hn.1 hn.2, ok_bind, Timespec.normaliseChecked_eq hs, if_pos]
    · exact ⟨_, rfl⟩
    · rwa [Timespec.normalise_eq, Timespec.total, ht]
  rw [addOffset]
  split
  · have hsec1 : InI64 (r.tvSec + 1) := by
      simp only [Timespec.total, hns] at *
      omega
    rw [i32_of_range (by omega) (by omega), ok_bind, i64_of_range hsec1.1 hsec1.2, ok_bind]
    exact hadd hsec1 (by omega) (by rw [Timespec.total, Int.add_mul]; omega)
  · exact hadd hsec (by omega) (by rw [Timespec.total]; omega)

end

/-! ## The map -/

/-- mirrors clientlog.rs:297-306 -/
structure NtpTimestampMap (F : Type) where
  timestamps : Option (List NtpTimestamps)
  first : Nat
  size : Nat
  maxSize : Nat
  cachedIndex : Nat
  cachedRxTs : UInt64
  slewEpoch : UInt16
  slewOffset : F
  deriving DecidableEq

namespace NtpTimestampMap

variable {F : Type}

/-- mirrors clientlog.rs:986-988 -/
def ntpTssIndex (m : NtpTimestampMap F) (index : Nat) : Nat := (m.first + index) &&& (m.maxSize - 1)

/-- The receive timestamp of the entry at a logical index, as the code reads it. -/
def rxAt (m : NtpTimestampMap F) (i : Nat) : Rust UInt64 :=
  match m.timestamps with
  | none => .error .unwrap
  | some ts => do
    let tss ← index ts (m.ntpTssIndex i)
    pure tss.rxTs

/-- Where the next probe of the search goes: by interpolation every other time, else into the
middle.
mirrors clientlog.rs:1029-1044 -/
def probe (rxTs : UInt64) (lo hi : Nat) (rxLo rxHi : UInt64) (i : Nat) : Rust Nat := do
  let width ← usub hi lo
  let x ←
    if 3 < width ∧ i % 2 = 0 then do
      let span ← usub rxHi.toNat rxLo.toNat
      let step := if span / width = 0 then 1 else span / width
      let part ← usub rxTs.toNat rxLo.toNat
      u32 (lo + part / step % 2 ^ 32)
    else pure (lo + width / 2)
  pure (if x ≤ lo then lo + 1 else if hi ≤ x then hi - 1 else x)

/-- mirrors clientlog.rs:1016-1059 -/
def searchLoop (m : NtpTimestampMap F) (ts : List NtpTimestamps) (rxTs : UInt64) :
    Nat → Nat → Nat → UInt64 → UInt64 → Nat → Rust (Bool × Nat)
  | 0, _, _, _, _, _ => .error .fuel
  | fuel + 1, lo, hi, rxLo, rxHi, i =>
    if rxTs = rxHi then .ok (true, hi)
    else if rxTs = rxLo then .ok (true, lo)
    else if lo + 1 = hi then .ok (false, hi)
    else do
      let x ← probe rxTs lo hi rxLo rxHi i
      let tss ← index ts (m.ntpTssIndex x)
      if (tss.rxTs - rxTs).toInt64 ≤ 0 then m.searchLoop ts rxTs fuel x hi tss.rxTs rxHi (i + 1)
      else m.searchLoop ts rxTs fuel lo x rxLo tss.rxTs (i + 1)

/-- The search, without its cache.
mirrors clientlog.rs:996-1059 -/
def search (m : NtpTimestampMap F) (rxTs : UInt64) : Rust (Bool × Nat) :=
  if m.size = 0 then .ok (false, 0)
  else
    match m.timestamps with
    | none => .ok (false, 0)
    | some ts => do
      let lo ← index ts (m.ntpTssIndex 0)
      let hi ← index ts (m.ntpTssIndex (m.size - 1))
      -- by difference, so that adjacent NTP eras work
      if (rxTs - lo.rxTs).toInt64 < 0 then .ok (false, 0)
      else if 0 < (rxTs - hi.rxTs).toInt64 then .ok (false, m.size)
      else m.searchLoop ts rxTs m.size 0 (m.size - 1) lo.rxTs hi.rxTs 0

/-- mirrors clientlog.rs:992-1060 -/
def findNtpRxTs (rxTs : UInt64) : Act (NtpTimestampMap F) (Bool × Nat) := do
  let m ← Act.get
  if m.cachedRxTs = rxTs ∧ rxTs ≠ 0 then pure (true, m.cachedIndex)
  else
    let r ← Act.lift (m.search rxTs)
    Act.when (r.1 = true) (Act.modify fun m => { m with cachedIndex := r.2, cachedRxTs := rxTs })
    pure r

/-- mirrors clientlog.rs:1063-1071 -/
def pushNtpTss (index : Nat) : Act (NtpTimestampMap F) Nat := do
  let m ← Act.get
  if m.size < m.maxSize then do
    Act.modify fun m => { m with size := m.size + 1 }
    pure index
  else do
    Act.modify fun m => { m with first := (m.first + 1) % m.maxSize }
    pure (index - 1)

/-- `timestamps[slot]` is changed by `f`. -/
def updateAt (f : NtpTimestamps → Rust NtpTimestamps) (slot : Nat) :
    Act (NtpTimestampMap F) Unit := do
  let m ← Act.get
  match m.timestamps with
  | none => pure ()
  | some ts => do
    let tss ← Act.lift (index ts slot)
    let tss ← Act.lift (f tss)
    Act.modify fun m => { m with timestamps := some (ts.set slot tss) }

/-- Is the last entry too far in the future of `rx`? -/
def tooFar (m : NtpTimestampMap F) (rx : UInt64) : Rust Bool :=
  match m.timestamps with
  | none => .ok false
  | some ts => do
    let last ← index ts (m.ntpTssIndex (m.size - 1))
    pure (decide (ntptsFutureLimit < last.rxTs - rx))

/-- Trim timestamps in the distant future after a backward step. The argument is `size`.
mirrors clientlog.rs:1151-1161 -/
def trim (rx : UInt64) (index : Nat) : Nat → Act (NtpTimestampMap F) Unit
  | 0 => pure ()
  | size + 1 => do
    let m ← Act.get
    if index < m.size then do
      let far ← Act.lift (m.tooFar rx)
      if far then do
        Act.modify fun m => { m with size := m.size - 1 }
        trim rx index size
      else pure ()
    else pure ()

/-- Move the entries from `index` on up by one, starting with the last one. The argument is `i`.
mirrors clientlog.rs:1165-1174 -/
def shiftUp (index : Nat) : Nat → Act (NtpTimestampMap F) Unit
  | 0 => pure ()
  | i + 1 =>
    if index < i + 1 then do
      let m ← Act.get
      match m.timestamps with
      | none => pure ()
      | some ts => do
        let src ← Act.lift (ChronyRs.index ts (m.ntpTssIndex i))
        updateAt (fun _ => .ok src) (m.ntpTssIndex (i + 1))
        shiftUp index i
    else pure ()

/-- Make room for an entry at `index`, the insertion point, and return where it goes.
mirrors clientlog.rs:1147-1179 -/
def makeRoom (rx : UInt64) (index : Nat) : Act (NtpTimestampMap F) Nat := do
  let m ← Act.get
  if index = m.size then pushNtpTss index
  else do
    trim rx index m.size
    let m ← Act.get
    if m.size ≤ index + ntptsInsertLimit then do
      let index ← pushNtpTss index
      let m ← Act.get
      shiftUp index (m.size - 1)
      pure index
    else pure (index - 1)

/-- `timestamps` are allocated when the first one is saved.
mirrors clientlog.rs:1128-1131 -/
def allocate (m : NtpTimestampMap F) : NtpTimestampMap F :=
  match m.timestamps with
  | none => { m with timestamps := some (List.replicate m.maxSize NtpTimestamps.blank) }
  | some _ => m

/-- The slot of the entry for `rxTs`, if there is one. The public lookups start with this. -/
def findSlot (rxTs : UInt64) : Act (NtpTimestampMap F) (Option Nat) := do
  let m ← Act.get
  if m.timestamps = none then pure none
  else do
    let r ← findNtpRxTs rxTs
    let m ← Act.get
    pure (if r.1 then some (m.ntpTssIndex r.2) else none)

/-- Change the entry for `rxTs`, if there is one. -/
def changeEntry (rxTs : UInt64) (f : NtpTimestamps → Rust NtpTimestamps) :
    Act (NtpTimestampMap F) Unit := do
  match ← findSlot rxTs with
  | none => pure ()
  | some slot => updateAt f slot

/-- Read the entry for `rxTs`; without one the result is `absent`. -/
def readEntry {α : Type} (rxTs : UInt64) (absent : α)
    (f : NtpTimestampMap F → NtpTimestamps → Rust α) : Act (NtpTimestampMap F) α := do
  match ← findSlot rxTs with
  | none => pure absent
  | some slot => do
    let m ← Act.get
    match m.timestamps with
    | none => pure absent
    | some ts => do
      let tss ← Act.lift (index ts slot)
      Act.lift (f m tss)

variable [F64Math F]

/-- mirrors clientlog.rs:1118-1193 -/
def saveNtpTimestamps (rx : UInt64) (txTs : Option Timespec) (txSrc : TimestampSource) :
    Act (NtpTimestampMap F) Unit := do
  Act.modify allocate
  if rx = 0 then pure ()
  else do
    let r ← findNtpRxTs rx
    let m ← Act.get
    if r.1 then updateAt (fun tss => .ok tss.disable) (m.ntpTssIndex r.2)
    else do
      let index ← makeRoom rx r.2
      Act.modify fun m => { m with cachedIndex := index, cachedRxTs := rx }
      let m ← Act.get
      updateAt (fun tss => .ok (tss.reset rx m.slewEpoch)) (m.ntpTssIndex index)
      updateAt (fun tss => setNtpTx (ntp64ToTimespec F) tss rx txTs txSrc) (m.ntpTssIndex index)

/-- mirrors clientlog.rs:1196-1203 -/
def handleSlew (doffset : F) (changeType : ChangeType) (m : NtpTimestampMap F) :
    NtpTimestampMap F :=
  let m := if changeType = .unknownStep then { m with size := 0, cachedRxTs := 0 } else m
  { m with slewEpoch := m.slewEpoch + 1, slewOffset := doffset }

/-- mirrors clientlog.rs:1208-1223 -/
def undoNtpTxTimestampSlew (rxTs : UInt64) (txTs : Timespec) : Act (NtpTimestampMap F) Timespec :=
  readEntry rxTs txTs fun m tss =>
    if tss.slewEpoch + 1 = m.slewEpoch then txTs.addDoubleChecked m.slewOffset else .ok txTs

/-- mirrors clientlog.rs:1226-1243 -/
def updateNtpTxTimestamp (rxTs : UInt64) (txTs : Option Timespec) (txSrc : TimestampSource) :
    Act (NtpTimestampMap F) Unit :=
  changeEntry rxTs fun tss => setNtpTx (ntp64ToTimespec F) tss rxTs txTs txSrc

/-- mirrors clientlog.rs:1247-1260 -/
def getNtpTxTimestamp (rxTs : UInt64) :
    Act (NtpTimestampMap F) (Option (Timespec × TimestampSource)) :=
  readEntry rxTs none fun _ tss =>
    if tss.flags &&& ntptsDisabled ≠ 0 then .ok none
    else some <$> getNtpTx (ntp64ToTimespec F) tss

/-- mirrors clientlog.rs:1263-1274 -/
def disableNtpTimestamps (rxTs : UInt64) : Act (NtpTimestampMap F) Unit :=
  changeEntry rxTs fun tss => .ok tss.disable

end NtpTimestampMap

end ChronyRs.L4.Server

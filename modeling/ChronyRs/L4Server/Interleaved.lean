import ChronyRs.L4Server.ClientLog
import ChronyRs.L4Server.TimestampOrder

/-!
# Runs of the interleaved-mode operations

The operations of `ClientLog` on its timestamp map, in any order and with any arguments, from a new
log on.

* `timestamps_ordered`: in every state, also that left by a call that panics, the entries are in
  the cyclic order of their receive timestamps, without duplicates or zeros, and the cache is right.
* `lookup_of_last_set`: a lookup answers for an entry that is stored and was not disabled, with the
  transmit timestamp set last for the same receive timestamp, if that one was near it.
* `stored_is_found`: in one era every stored entry is found.
-/
namespace ChronyRs.L4.Server

open Dial

/-! ## Storing a transmit timestamp as an offset -/

/-- The window in which a transmit timestamp can be kept. -/
def Plausible (F : Type) [F64Math F] (rx : UInt64) (tx : Timespec) : Prop :=
  -2 ≤ (tx.diff (ntp64ToTimespec F rx)).tvSec ∧ (tx.diff (ntp64ToTimespec F rx)).tvSec ≤ 1

instance (F : Type) [F64Math F] (rx : UInt64) (tx : Timespec) : Decidable (Plausible F rx tx) :=
  inferInstanceAs (Decidable (_ ∧ _))

/-- What a lookup shows of the transmit timestamp set for `rx`: itself, if there is one in the
window, else zero. -/
def shown (F : Type) [F64Math F] (rx : UInt64) : Option Timespec → Timespec
  | some tx => if Plausible F rx tx then tx.normalise else .zero
  | none => .zero

/-- The conversion of `rx` gives less than a second of nanoseconds. -/
abbrev Converts (F : Type) [F64Math F] (rx : UInt64) : Prop :=
  0 ≤ (ntp64ToTimespec F rx).tvNsec ∧ (ntp64ToTimespec F rx).tvNsec < nsecPerSec

/-! The two flags are independent. -/

theorem validTx_set (f : UInt8) : (f ||| ntptsValidTx) &&& ntptsValidTx ≠ 0 := by
  have h : ∀ b : BitVec 8, (b ||| 2#8) &&& 2#8 ≠ 0#8 := by decide
  exact fun h0 => h f.toBitVec (congrArg UInt8.toBitVec h0)

theorem validTx_cleared (f : UInt8) : (f &&& ~~~ ntptsValidTx) &&& ntptsValidTx = 0 := by
  have h : ∀ b : BitVec 8, (b &&& ~~~ 2#8) &&& 2#8 = 0#8 := by decide
  exact UInt8.toBitVec_inj.1 (h f.toBitVec)

theorem disabled_set (f : UInt8) : (f ||| ntptsDisabled) &&& ntptsDisabled ≠ 0 := by
  have h : ∀ b : BitVec 8, (b ||| 1#8) &&& 1#8 ≠ 0#8 := by decide
  exact fun h0 => h f.toBitVec (congrArg UInt8.toBitVec h0)

theorem disabled_of_setValidTx (f : UInt8) :
    (f ||| ntptsValidTx) &&& ntptsDisabled = f &&& ntptsDisabled := by
  have h : ∀ b : BitVec 8, (b ||| 2#8) &&& 1#8 = b &&& 1#8 := by decide
  exact UInt8.toBitVec_inj.1 (h f.toBitVec)

theorem disabled_of_clearValidTx (f : UInt8) :
    (f &&& ~~~ ntptsValidTx) &&& ntptsDisabled = f &&& ntptsDisabled := by
  have h : ∀ b : BitVec 8, (b &&& ~~~ 2#8) &&& 1#8 = b &&& 1#8 := by decide
  exact UInt8.toBitVec_inj.1 (h f.toBitVec)

section
variable (conv : UInt64 → Timespec) (tss : NtpTimestamps)

theorem getNtpTx_clearTx :
    getNtpTx conv tss.clearTx = .ok (.zero, .fromIndex tss.txTsSource) := by
  have hc : tss.clearTx.flags &&& ntptsValidTx = 0 := validTx_cleared _
  rw [getNtpTx, if_neg (not_not_intro hc)]
  rfl

theorem getNtpTx_storeTx (offset : Int) (src : TimestampSource) :
    getNtpTx conv (tss.storeTx offset src) = (do
      let tx ← addOffset (conv tss.rxTs) offset
      pure (tx, src)) := by
  have hv : (tss.storeTx offset src).flags &&& ntptsValidTx ≠ 0 := validTx_set _
  rw [getNtpTx, if_pos hv]
  simp only [NtpTimestamps.storeTx, TimestampSource.fromIndex_index]

end

/-- What `get_ntp_tx` answers for an entry with the transmit timestamp `tx` from `src`. -/
structure Shows (F : Type) [F64Math F] (tss : NtpTimestamps) (tx : Option Timespec)
    (src : TimestampSource) : Prop where
  answer : ∀ answer, getNtpTx (ntp64ToTimespec F) tss = .ok answer →
    answer.1 = shown F tss.rxTs tx ∧ ((∃ t, tx = some t ∧ Plausible F tss.rxTs t) → answer.2 = src)
  returns : Converts F tss.rxTs → ∃ answer, getNtpTx (ntp64ToTimespec F) tss = .ok answer

section
variable {F : Type} [F64Math F] {tss tss' : NtpTimestamps} {rx : UInt64} {tx : Option Timespec}
  {src : TimestampSource}

theorem ntp64ToTimespec_sec (rx : UInt64) :
    0 ≤ (ntp64ToTimespec F rx).tvSec ∧ (ntp64ToTimespec F rx).tvSec < 2 ^ 32 := by
  rw [ntp64ToTimespec]
  split
  · decide
  · have := ((rx >>> 32).toUInt32 - jan1970).toNat_lt
    dsimp only
    omega

theorem shows_clearTx (h : ∀ t ∈ tx, ¬ Plausible F tss.rxTs t) : Shows F tss.clearTx tx src := by
  have hget := getNtpTx_clearTx (ntp64ToTimespec F) tss
  refine ⟨fun answer hans => ?_, fun _ => ⟨_, hget⟩⟩
  cases hget.symm.trans hans
  cases tx with
  | none => exact ⟨rfl, by simp⟩
  | some t =>
    refine ⟨(if_neg (h t rfl)).symm, ?_⟩
    rintro ⟨t', ht', hp⟩
    exact absurd hp (h t' ht')

theorem shows_storeTx {t : Timespec} (h : Plausible F tss.rxTs t) :
    Shows F (tss.storeTx (t.total - (ntp64ToTimespec F tss.rxTs).total) src) (some t) src := by
  have hget := getNtpTx_storeTx (ntp64ToTimespec F) tss
    (t.total - (ntp64ToTimespec F tss.rxTs).total) src
  refine ⟨fun answer hans => ?_, fun (hconv : Converts F tss.rxTs) => ?_⟩
  · obtain ⟨tx, htx, hans⟩ := bind_eq_ok.1 (hget.symm.trans hans)
    cases hans
    refine ⟨?_, fun _ => rfl⟩
    rw [addOffset_ok htx, Timespec.normalise_sub]
    exact (if_pos h).symm
  · obtain ⟨h0, h1⟩ := hconv
    obtain ⟨hs0, hs1⟩ := ntp64ToTimespec_sec (F := F) tss.rxTs
    have hns : nsecPerSec = 1000000000 := rfl
    simp only [Plausible, Timespec.diff_eq, hns] at h
    obtain ⟨tx, htx⟩ : ∃ tx, addOffset (ntp64ToTimespec F tss.rxTs)
        (t.total - (ntp64ToTimespec F tss.rxTs).total) = .ok tx := by
      refine addOffset_returns (by omega) h0 h1 (by omega) (by omega) ?_
      simp only [Timespec.total, hns] at *
      omega
    exact ⟨_, hget.trans (by rw [htx]; rfl)⟩

/-- **Set and read back.** -/
theorem shows_of_setNtpTx (h : setNtpTx (ntp64ToTimespec F) tss tss.rxTs tx src = .ok tss') :
    Shows F tss' tx src := by
  rcases setNtpTx_ok h with ⟨rfl, hout⟩ | ⟨t, rfl, hin, rfl⟩
  · exact shows_clearTx hout
  · exact shows_storeTx hin

theorem setNtpTx_disabled {conv : UInt64 → Timespec}
    (h : setNtpTx conv tss rx tx src = .ok tss') :
    tss'.flags &&& ntptsDisabled = tss.flags &&& ntptsDisabled := by
  rcases setNtpTx_ok h with ⟨rfl, -⟩ | ⟨t, -, -, rfl⟩
  · exact disabled_of_clearValidTx _
  · exact disabled_of_setValidTx _

end

/-! ## The operations of the log -/

namespace ClientLog

variable {F : Type}

/-- A method that works on the timestamp map only. -/
def onMap {α : Type} (x : Act (NtpTimestampMap F) α) : Act (ClientLog F) α := fun c =>
  ((x c.ntpTsMap).1, { c with ntpTsMap := (x c.ntpTsMap).2 })

section
variable [F64Math F]

/-- mirrors clientlog.rs:1118-1193 -/
def saveNtpTimestamps (rx : UInt64) (txTs : Option Timespec) (txSrc : TimestampSource) :
    Act (ClientLog F) Unit := do
  let c ← Act.get
  if c.active = false then pure ()
  else onMap (NtpTimestampMap.saveNtpTimestamps rx txTs txSrc)

/-- mirrors clientlog.rs:1196-1203 -/
def handleSlew (doffset : F) (changeType : ChangeType) : Act (ClientLog F) Unit :=
  Act.modify fun c => { c with ntpTsMap := c.ntpTsMap.handleSlew doffset changeType }

/-- mirrors clientlog.rs:1208-1223 -/
def undoNtpTxTimestampSlew (rxTs : UInt64) (txTs : Timespec) : Act (ClientLog F) Timespec :=
  onMap (NtpTimestampMap.undoNtpTxTimestampSlew rxTs txTs)

/-- mirrors clientlog.rs:1226-1243 -/
def updateNtpTxTimestamp (rxTs : UInt64) (txTs : Option Timespec) (txSrc : TimestampSource) :
    Act (ClientLog F) Unit :=
  onMap (NtpTimestampMap.updateNtpTxTimestamp rxTs txTs txSrc)

/-- mirrors clientlog.rs:1247-1260 -/
def getNtpTxTimestamp (rxTs : UInt64) : Act (ClientLog F) (Option (Timespec × TimestampSource)) :=
  onMap (NtpTimestampMap.getNtpTxTimestamp rxTs)

/-- mirrors clientlog.rs:1263-1274 -/
def disableNtpTimestamps (rxTs : UInt64) : Act (ClientLog F) Unit := do
  onMap (NtpTimestampMap.disableNtpTimestamps rxTs)
  Act.modify fun c => { c with totalNtpInterleavedHits := c.totalNtpInterleavedHits + 1 }

end

inductive TsOp (F : Type) where
  | save (rx : UInt64) (tx : Option Timespec) (src : TimestampSource)
  | update (rx : UInt64) (tx : Option Timespec) (src : TimestampSource)
  | disable (rx : UInt64)
  | lookup (rx : UInt64)
  | undo (rx : UInt64) (tx : Timespec)
  | slew (doffset : F) (change : ChangeType)

section
variable [F64Math F]

def TsOp.run : TsOp F → Act (ClientLog F) Unit
  | save rx tx src => saveNtpTimestamps rx tx src
  | update rx tx src => updateNtpTxTimestamp rx tx src
  | disable rx => disableNtpTimestamps rx
  | lookup rx => do
    let _ ← getNtpTxTimestamp rx
  | undo rx tx => do
    let _ ← undoNtpTxTimestampSlew rx tx
  | slew doffset change => handleSlew doffset change

/-- One call after the other; a panic ends the run. -/
def tsRun : List (TsOp F) → Act (ClientLog F) Unit
  | [] => pure ()
  | op :: ops => do
    op.run
    tsRun ops

end

/-! ## One call -/

/-- Does the call name the entry for `rx` in order to change it? -/
def TsOp.Names (rx : UInt64) : TsOp F → Prop
  | save rx' _ _ => rx' = rx
  | update rx' _ _ => rx' = rx
  | disable rx' => rx' = rx
  | _ => False

structure TsInv (c : ClientLog F) : Prop where
  sound : c.ntpTsMap.Sound
  pow : c.active = true → ∃ k ≤ 31, c.ntpTsMap.maxSize = 2 ^ k
  idle : c.active = false → c.ntpTsMap.entries = []

variable [F64Math F] {c : ClientLog F}

/-- Where the entry `e` comes from after the call `op` on the entries `old`. -/
inductive Origin (old : List NtpTimestamps) : TsOp F → NtpTimestamps → Prop
  | kept {op : TsOp F} {e : NtpTimestamps} (h : e ∈ old) (hn : ¬ op.Names e.rxTs) : Origin old op e
  | disabled {op : TsOp F} {e : NtpTimestamps} (h : e ∈ old) : Origin old op e.disable
  | updated {e e' : NtpTimestamps} {tx : Option Timespec} {src : TimestampSource} (h : e ∈ old)
      (hset : setNtpTx (ntp64ToTimespec F) e e.rxTs tx src = .ok e') :
      Origin old (.update e.rxTs tx src) e'
  | fresh {rx : UInt64} {tx : Option Timespec} {src : TimestampSource} {epoch : UInt16}
      {tss e' : NtpTimestamps}
      (hset : setNtpTx (ntp64ToTimespec F) (tss.reset rx epoch) rx tx src = .ok e') :
      Origin old (.save rx tx src) e'

/-- What a call does: the invariant holds after it, also when it panics, and when it returns every
entry has its origin. -/
def Step (c : ClientLog F) (op : TsOp F) : Prop :=
  TsInv (op.run c).2 ∧
    ((op.run c).1 = .ok () → ∀ e ∈ (op.run c).2.ntpTsMap.entries, Origin c.ntpTsMap.entries op e)

variable {op : TsOp F} {m' : NtpTimestampMap F} {draws : Nat} {config : ClientLogConfig}
  {rng : Nat → UInt8}

/-- Assembles a step from what it does to the map. -/
theorem TsInv.step (h : TsInv c) {r : Rust Unit} {n : Nat}
    (hrun : op.run c = (r, { c with ntpTsMap := m', totalNtpInterleavedHits := n })) (hs : m'.Sound)
    (hmax : m'.maxSize = c.ntpTsMap.maxSize) (hidle : c.active = false → m'.entries = [])
    (ho : r = .ok () → ∀ e ∈ m'.entries, Origin c.ntpTsMap.entries op e) : Step c op := by
  rw [Step, hrun]
  exact ⟨⟨hs, fun ha => hmax ▸ h.pow ha, hidle⟩, ho⟩

theorem origin_of_same {m : NtpTimestampMap F} (he : m'.entries = m.entries)
    (hn : ∀ e ∈ m.entries, ¬ op.Names e.rxTs) : ∀ e ∈ m'.entries, Origin m.entries op e := by
  intro e hmem
  rw [he] at hmem
  exact .kept hmem (hn e hmem)

omit [F64Math F] in
theorem onMap_eq {α : Type} {x : Act (NtpTimestampMap F) α} {r : Rust α}
    (h : x c.ntpTsMap = (r, m')) : onMap x c = (r, { c with ntpTsMap := m' }) := by
  rw [onMap, h]

theorem step_change (h : TsInv c) (rx : UInt64) {f : NtpTimestamps → Rust NtpTimestamps}
    (hop : ∀ r c', onMap (NtpTimestampMap.changeEntry rx f) c = (r, c') →
      ∃ n, op.run c = (r, { c' with totalNtpInterleavedHits := n }))
    (hf : ∀ tss tss', f tss = .ok tss' → tss'.rxTs = tss.rxTs) (hnames : ∀ x, op.Names x ↔ rx = x)
    (hor : ∀ e ∈ c.ntpTsMap.entries, e.rxTs = rx → ∀ e', f e = .ok e' →
      Origin c.ntpTsMap.entries op e') : Step c op := by
  obtain ⟨r, m', hrun, hs, hmax, hcase⟩ := h.sound.changeEntry rx hf
  obtain ⟨n, hop⟩ := hop _ _ (onMap_eq hrun)
  refine h.step hop hs hmax ?_ ?_
  · intro hi
    have h0 := h.idle hi
    rcases hcase with ⟨-, he⟩ | ⟨-, hch⟩
    · rw [he, h0]
    · refine List.eq_nil_iff_forall_not_mem.2 fun e hmem => ?_
      rcases hch e hmem with ⟨h1, -⟩ | ⟨-, old, h1, -⟩ <;> exact List.not_mem_nil (h0 ▸ h1)
  · intro hok
    rcases hcase with ⟨hnot | ⟨e, herr⟩, he⟩ | ⟨-, hch⟩
    · refine origin_of_same he fun e hmem hn => hnot ?_
      rw [(hnames _).1 hn]
      exact List.mem_map_of_mem hmem
    · rw [herr] at hok
      cases hok
    · intro e hmem
      rcases hch e hmem with ⟨h1, h2⟩ | ⟨-, old, h1, h2, h3⟩
      · exact .kept h1 fun hn => h2 ((hnames _).1 hn).symm
      · exact hor old h1 h2 e h3

theorem step_read (h : TsInv c) {rx : UInt64} {α : Type} {absent : α}
    {f : NtpTimestampMap F → NtpTimestamps → Rust α}
    (hop : op.run = (do let _ ← onMap (NtpTimestampMap.readEntry rx absent f)))
    (hnames : ∀ x, ¬ op.Names x) :
    Step c op := by
  obtain ⟨r, m', hrun, hs, hmax, he, -⟩ := h.sound.readEntry rx absent f
  have hop' : op.run c = (r.map fun _ => (), { c with ntpTsMap := m' }) := by
    rw [hop, Act.bind_apply, onMap_eq hrun]
    cases r <;> rfl
  exact h.step (n := c.totalNtpInterleavedHits) hop' hs hmax (fun hi => he.trans (h.idle hi))
    fun _ => origin_of_same he fun e _ => hnames _

theorem step_save (h : TsInv c) (rx : UInt64) (tx : Option Timespec) (src : TimestampSource) :
    Step c (.save rx tx src) := by
  by_cases ha : c.active = false
  · have hrun : (TsOp.save rx tx src : TsOp F).run c =
        (.ok (), { c with ntpTsMap := c.ntpTsMap }) := by
      simp only [TsOp.run, saveNtpTimestamps, Act.bind_apply, Act.get, if_pos ha]
      rfl
    exact h.step (n := c.totalNtpInterleavedHits) hrun h.sound rfl h.idle
      fun _ e hmem => absurd (h.idle ha ▸ hmem) List.not_mem_nil
  obtain ⟨r, m', hsave, hs, hmax, hcase⟩ := h.sound.save (h.pow (by simpa using ha)) rx tx src
  have hrun : (TsOp.save rx tx src : TsOp F).run c = (r, { c with ntpTsMap := m' }) := by
    simp only [TsOp.run, saveNtpTimestamps, Act.bind_apply, Act.get, if_neg ha, onMap_eq hsave]
  refine h.step (n := c.totalNtpInterleavedHits) hrun hs hmax (fun hi => absurd hi ha) fun hok => ?_
  rcases hcase with ⟨e, herr⟩ | ⟨h0, he⟩ | ⟨-, -, -, hch⟩
  · rw [herr] at hok
    cases hok
  · refine origin_of_same he fun e hmem (hn : rx = e.rxTs) => ?_
    exact h.sound.nonzero e.rxTs (List.mem_map_of_mem hmem) (hn ▸ h0)
  · intro e hmem
    rcases hch e hmem with ⟨h1, h2⟩ | ⟨-, ⟨old, h1, h2, rfl⟩ | ⟨-, epoch, tss, hset⟩⟩
    · exact .kept h1 fun hn => h2 (Eq.symm hn)
    · exact .disabled h1
    · exact .fresh hset

/-- **One call** of the timestamp interface. -/
theorem step_all (h : TsInv c) (op : TsOp F) : Step c op := by
  cases op with
  | save rx tx src => exact step_save h rx tx src
  | update rx tx src =>
    refine step_change h rx (fun r c' hr => ⟨c'.totalNtpInterleavedHits, hr⟩)
      (fun _ _ => setNtpTx_rxTs) (fun _ => Iff.rfl) ?_
    rintro e hmem rfl e' hset
    exact .updated hmem hset
  | disable rx =>
    refine step_change h rx (f := fun tss => .ok tss.disable) ?_ (fun _ _ h => by cases h; rfl)
      (fun _ => Iff.rfl) fun e hmem _ e' he => by cases he; exact .disabled hmem
    intro r c' hr
    simp only [TsOp.run, disableNtpTimestamps, NtpTimestampMap.disableNtpTimestamps,
      Act.bind_apply, hr]
    cases r with
    | error e => exact ⟨c'.totalNtpInterleavedHits, rfl⟩
    | ok u => exact ⟨c'.totalNtpInterleavedHits + 1, rfl⟩
  | lookup rx => exact step_read h rfl fun _ hn => hn
  | undo rx tx => exact step_read h rfl fun _ hn => hn
  | slew doffset change =>
    obtain ⟨hs, hmax, hsub⟩ := h.sound.handleSlew doffset change
    refine h.step (n := c.totalNtpInterleavedHits) rfl hs hmax ?_ ?_
    · intro hi
      rw [h.idle hi] at hsub
      exact List.sublist_nil.1 hsub
    · intro _ e hmem
      exact .kept (hsub.subset hmem) fun hn => hn

/-! ## Runs -/

theorem tsRun_inv (h : TsInv c) (ops : List (TsOp F)) : TsInv (tsRun ops c).2 := by
  induction ops generalizing c with
  | nil => exact h
  | cons op ops ih =>
    have h1 := (step_all h op).1
    rw [tsRun, Act.bind_apply]
    cases hr : op.run c with
    | mk r c' =>
      rw [hr] at h1
      cases r with
      | error e => exact h1
      | ok u => exact ih h1

/-- The last call of a run that returned. -/
theorem tsRun_append_singleton {ops : List (TsOp F)} {c' : ClientLog F}
    (h : tsRun (ops ++ [op]) c = (.ok (), c')) :
    ∃ c1, tsRun ops c = (.ok (), c1) ∧ op.run c1 = (.ok (), c') := by
  induction ops generalizing c with
  | nil =>
    obtain ⟨⟨⟩, c1, hop, hend⟩ := Act.bind_eq_ok.1 h
    cases hend
    exact ⟨c, rfl, hop⟩
  | cons op' ops ih =>
    obtain ⟨⟨⟩, c1, hop', hrest⟩ := Act.bind_eq_ok.1 h
    obtain ⟨c2, hops, hop⟩ := ih hrest
    exact ⟨c2, Act.bind_eq_ok.2 ⟨(), c1, hop', hops⟩, hop⟩

theorem slots2Loop_le (maxSlots n slots2 : Nat) : slots2Loop maxSlots n slots2 ≤ slots2 + n := by
  induction n generalizing slots2 with
  | zero => exact Nat.le_refl _
  | succ n ih =>
    rw [slots2Loop]
    split
    · exact (ih _).trans (by omega)
    · omega

theorem new_map (h : new draws config rng = .ok c) :
    ∃ n, c.ntpTsMap = ⟨none, 0, 0, n, 0, 0, 0, F64.lit 0⟩ ∧
      (c.active = true → ∃ k ≤ 31, n = 2 ^ k) := by
  rw [new] at h
  obtain ⟨ntp, -, h⟩ := bind_eq_ok.1 h
  obtain ⟨ntske, -, h⟩ := bind_eq_ok.1 h
  obtain ⟨cmdmon, -, h⟩ := bind_eq_ok.1 h
  cases hn : config.noClientLog with
  | true =>
    simp only [hn, if_true] at h
    obtain ⟨-, -, h⟩ := bind_eq_ok.1 h
    cases h
    exact ⟨0, rfl, nofun⟩
  | false =>
    simp only [hn, Bool.false_eq_true, if_false] at h
    cases h
    exact ⟨_, rfl, fun _ => ⟨_, (Nat.add_le_add_right (slots2Loop_le _ 20 0) 4).trans
      (by decide), rfl⟩⟩

theorem new_tsInv (h : new draws config rng = .ok c) : TsInv c ∧ c.ntpTsMap.entries = [] := by
  obtain ⟨n, hm, hp⟩ := new_map h
  have hs : c.ntpTsMap.Sound := by
    rw [hm]
    exact ⟨fun _ => rfl, nofun, trivial, nofun, fun h0 => absurd rfl h0⟩
  have he : c.ntpTsMap.entries = [] := by
    rw [hm]
    rfl
  exact ⟨⟨hs, fun ha => by rw [hm]; exact hp ha, fun _ => he⟩, he⟩

/-! ## The order, in every run -/

omit [F64Math F] in
/-- What a sound map looks like to the code that reads it. -/
theorem rxAt_of_sound {m : NtpTimestampMap F} (h : m.Sound) :
    ∃ rx : Nat → UInt64, ∀ i < m.size, m.rxAt i = .ok (rx i) ∧ m.rxs[i]? = some (rx i) := by
  refine ⟨fun i => m.rxs.getD i 0, fun i hi => ?_⟩
  cases hts : m.timestamps with
  | none =>
    rw [h.empty hts] at hi
    exact absurd hi (Nat.not_lt_zero _)
  | some ts =>
    obtain ⟨tss, hread, hrx⟩ := (h.alloc ts hts).read_rx hi
    simp only [NtpTimestampMap.rxAt, hts, hread, List.getD_eq_getElem?_getD, hrx]
    exact ⟨rfl, rfl⟩

/-- **The order of the entries, in every run.** From a new log on, after any calls (up to and
including one that panics), the receive timestamps of the entries go up strictly in the cyclic
order relative to the first one, by less than `2^63`; none occurs twice and none is zero; the ring
is not over its capacity; and the cache is right. -/
theorem timestamps_ordered (draws : Nat) (config : ClientLogConfig) (rng : Nat → UInt8)
    (hnew : new draws config rng = .ok c) (ops : List (TsOp F)) :
    let m := (tsRun ops c).2.ntpTsMap
    m.size ≤ m.maxSize ∧
    ∃ rx : Nat → UInt64, (∀ i < m.size, m.rxAt i = .ok (rx i)) ∧
      (∀ i j, i < j → j < m.size → (rx i - rx 0).toNat < (rx j - rx 0).toNat) ∧
      (∀ i < m.size, (rx i - rx 0).toNat < 2 ^ 63) ∧
      (∀ i j, i < m.size → j < m.size → rx i = rx j → i = j) ∧
      (∀ i < m.size, rx i ≠ 0) ∧
      (m.cachedRxTs ≠ 0 → m.cachedIndex < m.size ∧ rx m.cachedIndex = m.cachedRxTs) := by
  intro m
  have h : m.Sound := (tsRun_inv (new_tsInv hnew).1 ops).sound
  obtain ⟨rx, hat⟩ := rxAt_of_sound h
  have hrx (i : Nat) (hi : i < m.size) := (hat i hi).2
  have hsize : m.size ≤ m.maxSize := by
    cases hts : m.timestamps with
    | none =>
      rw [h.empty hts]
      exact Nat.zero_le _
    | some ts => exact (h.alloc ts hts).size_le
  have hlen : m.rxs.length = m.size := by
    cases hts : m.timestamps with
    | none =>
      rw [h.empty hts, NtpTimestampMap.rxs, NtpTimestampMap.entries, hts]
      rfl
    | some ts => exact (h.alloc ts hts).rxs_length
  have hfrom : 0 < m.size → From (2 ^ 63) (rx 0) m.rxs := by
    intro h0
    have hasc := h.ascending
    have h1 := hrx 0 h0
    cases hl : m.rxs with
    | nil => rw [hl] at h1; cases h1
    | cons b l =>
      rw [hl] at hasc h1
      cases h1
      exact hasc
  have hlt : ∀ i j, i < j → j < m.size → (rx i - rx 0).toNat < (rx j - rx 0).toNat :=
    fun i j hij hj =>
      NtpTimestampMap.ahead_lt_of_lt (hfrom (by omega)) (hrx i (by omega)) (hrx j hj) hij
  refine ⟨hsize, rx, fun i hi => (hat i hi).1, hlt, ?_, ?_, ?_, ?_⟩
  · intro i hi
    exact (hfrom (by omega)).2 (rx i) (List.mem_of_getElem? (hrx i hi))
  · intro i j hi hj hij
    rcases Nat.lt_trichotomy i j with hlt' | heq | hgt
    · have := hlt i j hlt' hj
      rw [hij] at this
      exact absurd this (Nat.lt_irrefl _)
    · exact heq
    · have := hlt j i hgt hi
      rw [hij] at this
      exact absurd this (Nat.lt_irrefl _)
  · intro i hi
    exact h.nonzero _ (List.mem_of_getElem? (hrx i hi))
  · intro h0
    have hc := h.cache h0
    have hi : m.cachedIndex < m.size := by
      rw [← hlen]
      exact (List.getElem?_eq_some_iff.1 hc).1
    refine ⟨hi, ?_⟩
    have := hrx _ hi
    rw [hc] at this
    exact (Option.some.inj this).symm

/-- A log without rate limits and with the smallest table. -/
def quietConfig : ClientLogConfig := ⟨fun _ => none, false, 1920⟩

def quietLog : ClientLog ℚ :=
  (activate 1 quietConfig.clientLogLimit (initial (fun
    | .ntp => unlimited
    | .ntske => unlimited
    | .cmdmon => unlimited) fun _ => 1)).2

theorem new_quietLog : new 1 quietConfig (fun _ => 1) = .ok quietLog := rfl

/-- Two entries on both sides of an era wrap. -/
theorem timestamps_ordered_across_eras :
    (tsRun [.save (2 ^ 64 - 1) none .daemon, .save 1 none .daemon] quietLog).2.ntpTsMap.size ≤
      (tsRun [.save (2 ^ 64 - 1) none .daemon, .save 1 none .daemon] quietLog).2.ntpTsMap.maxSize :=
  (timestamps_ordered 1 quietConfig (fun _ => 1) new_quietLog _).1

-- a lookup between entries on both sides of the wrap ends in an overflow of the interpolation
example : (tsRun [.save (2 ^ 64 - 3) none .daemon, .save (2 ^ 64 - 2) none .daemon,
    .save (2 ^ 64 - 1) none .daemon, .save 1 none .daemon, .save 2 none .daemon,
    .lookup (2 ^ 64 - 2)] quietLog).1 = .error .overflow := by decide +kernel

/-! ## What a lookup answers, in every run -/

/-- What is set for `rx` after the call, when it was `cur` before. -/
def TsOp.set (rx : UInt64) (cur : Option Timespec × TimestampSource) :
    TsOp F → Option Timespec × TimestampSource
  | update rx' tx src => if rx' = rx then (tx, src) else cur
  | _ => cur

/-- The transmit timestamp and its source set last for `rx`, in calls that start with a save of
`cur`. -/
def lastSet (rx : UInt64) (cur : Option Timespec × TimestampSource) (calls : List (TsOp F)) :
    Option Timespec × TimestampSource :=
  calls.foldl (TsOp.set rx) cur

/-- The call disables the entry for `rx`, or saves it again. -/
def TsOp.Disables (rx : UInt64) : TsOp F → Prop
  | disable rx' => rx' = rx
  | save rx' _ _ => rx' = rx
  | _ => False

/-- The calls in which `rx` got the transmit timestamp `tx` from `src`: the last save of `rx`, not
disabled since, and the updates behind it. -/
def SetBy (rx : UInt64) (tx : Option Timespec) (src : TimestampSource)
    (calls : List (TsOp F)) : Prop :=
  ∃ pre tx0 src0 post, calls = pre ++ .save rx tx0 src0 :: post ∧ (∀ op ∈ post, ¬ op.Disables rx) ∧
    lastSet rx (tx0, src0) post = (tx, src)

omit [F64Math F] in
theorem TsOp.names_of_disables {rx : UInt64} (h : op.Disables rx) : op.Names rx := by
  cases op <;> first | exact h | exact h.elim

omit [F64Math F] in
theorem TsOp.set_of_not_names {rx : UInt64} (h : ¬ op.Names rx)
    (cur : Option Timespec × TimestampSource) : op.set rx cur = cur := by
  cases op with
  | update rx' tx src => exact if_neg h
  | _ => rfl

omit [F64Math F] in
/-- One more call that does not disable `rx`. -/
theorem SetBy.snoc {rx : UInt64} {tx : Option Timespec} {src : TimestampSource}
    {calls : List (TsOp F)} (h : SetBy rx tx src calls) (hop : ¬ op.Disables rx) :
    SetBy rx (op.set rx (tx, src)).1 (op.set rx (tx, src)).2 (calls ++ [op]) := by
  obtain ⟨pre, tx0, src0, post, rfl, hpost, hset⟩ := h
  refine ⟨pre, tx0, src0, post ++ [op], ?_, ?_, ?_⟩
  · rw [List.append_assoc, List.cons_append]
  · intro op' hop'
    rcases List.mem_append.1 hop' with h1 | h1
    · exact hpost op' h1
    · rw [List.mem_singleton.1 h1]
      exact hop
  · rw [lastSet, List.foldl_append]
    exact congrArg (TsOp.set rx · op) hset

/-- The entry holds what was set for its timestamp. -/
def Recorded (calls : List (TsOp F)) (e : NtpTimestamps) : Prop :=
  e.flags &&& ntptsDisabled = 0 → ∃ tx src, SetBy e.rxTs tx src calls ∧ Shows F e tx src

/-- Every entry of a map with such entries has an origin that keeps this. -/
theorem Origin.recorded {old : List NtpTimestamps} {calls : List (TsOp F)} {e : NtpTimestamps}
    (ho : Origin old op e) (h : ∀ e ∈ old, Recorded calls e) :
    Recorded (calls ++ [op]) e := by
  intro hd
  cases ho with
  | @kept op e hmem hn =>
    obtain ⟨tx, src, hset, hv⟩ := h e hmem hd
    have hs := hset.snoc fun h1 => hn (TsOp.names_of_disables h1)
    rw [TsOp.set_of_not_names hn] at hs
    exact ⟨tx, src, hs, hv⟩
  | @disabled op e hmem => exact absurd hd (disabled_set _)
  | @updated e e' tx src hmem hnew =>
    rw [setNtpTx_disabled hnew] at hd
    obtain ⟨tx0, src0, hset, -⟩ := h e hmem hd
    have hs :=
      hset.snoc (show ¬ (TsOp.update e.rxTs tx src : TsOp F).Disables e.rxTs from fun h1 => h1)
    rw [TsOp.set, if_pos rfl] at hs
    refine ⟨tx, src, ?_, shows_of_setNtpTx hnew⟩
    rw [setNtpTx_rxTs hnew]
    exact hs
  | @fresh rx tx src epoch tss e' hnew =>
    refine ⟨tx, src, ?_, shows_of_setNtpTx hnew⟩
    rw [setNtpTx_rxTs hnew]
    exact ⟨calls, tx, src, [], rfl, nofun, rfl⟩

theorem tsRun_recorded (hnew : new draws config rng = .ok c) (calls : List (TsOp F)) :
    ∀ c', tsRun calls c = (.ok (), c') → ∀ e ∈ c'.ntpTsMap.entries, Recorded calls e := by
  induction calls using List.reverseRecOn with
  | nil =>
    intro c' h e hmem
    cases h
    rw [(new_tsInv hnew).2] at hmem
    exact absurd hmem List.not_mem_nil
  | append_singleton calls op ih =>
    intro c' h e hmem
    obtain ⟨c1, h1, h2⟩ := tsRun_append_singleton h
    have hinv : TsInv c1 := by
      have := tsRun_inv (new_tsInv hnew).1 calls
      rwa [h1] at this
    have hstep := (step_all hinv op).2
    rw [h2] at hstep
    exact (hstep rfl e hmem).recorded (ih c1 h1)

/-- **What a lookup answers, in every run.** If after calls that all returned a lookup of `rx`
answers, then an entry for `rx` is stored, its last save is in the calls and nothing disabled it
since, and the answer is the transmit timestamp set last for `rx`, normalised, if that one was
given and in the window around `rx`, and zero otherwise. A timestamp in the window also has its
source. -/
theorem lookup_of_last_set (draws : Nat) (config : ClientLogConfig) (rng : Nat → UInt8)
    (hnew : new draws config rng = .ok c) (calls : List (TsOp F)) (rx : UInt64)
    (answer : Timespec × TimestampSource) (hcalls : (tsRun calls c).1 = .ok ())
    (hget : (getNtpTxTimestamp rx (tsRun calls c).2).1 = .ok (some answer)) :
    rx ∈ (tsRun calls c).2.ntpTsMap.rxs ∧ ∃ tx src, SetBy rx tx src calls ∧
      answer.1 = shown F rx tx ∧ ((∃ t, tx = some t ∧ Plausible F rx t) → answer.2 = src) := by
  have hinv := tsRun_inv (new_tsInv hnew).1 calls
  have hrec := tsRun_recorded hnew calls (tsRun calls c).2 (Prod.ext hcalls rfl)
  generalize (tsRun calls c).2 = c1 at hget hinv hrec ⊢
  obtain ⟨r, m', hrun, -, -, -, hcase⟩ := hinv.sound.readEntry rx none fun _ tss =>
    if tss.flags &&& ntptsDisabled ≠ 0 then .ok none
    else some <$> getNtpTx (ntp64ToTimespec F) tss
  have hr : (getNtpTxTimestamp rx c1).1 = r := congrArg Prod.fst (onMap_eq hrun)
  rw [hget] at hr
  rcases hcase with ⟨e, herr⟩ | hnone | ⟨tss, hmem, hrx, hval⟩
  · rw [← hr] at herr
    cases herr
  · rw [← hr] at hnone
    cases hnone
  · rw [← hr] at hval
    subst hrx
    refine ⟨List.mem_map_of_mem hmem, ?_⟩
    by_cases hd : tss.flags &&& ntptsDisabled = 0
    · rw [if_neg (not_not_intro hd)] at hval
      obtain ⟨tx, src, hset, hshows⟩ := hrec tss hmem hd
      refine ⟨tx, src, hset, hshows.answer answer ?_⟩
      rcases htx : getNtpTx (ntp64ToTimespec F) tss with e | a
      · rw [htx] at hval
        cases hval
      · rw [htx] at hval
        cases hval
        rfl
    · rw [if_pos hd] at hval
      cases hval

/-- **What is stored is found**, after calls that all returned, while the stored timestamps are of
one era: a lookup of `rx` answers nothing if `rx` is not stored or its entry is disabled, and what
was set last if not, for an `rx` that converts to a normalised time. -/
theorem stored_is_found (draws : Nat) (config : ClientLogConfig) (rng : Nat → UInt8)
    (hnew : new draws config rng = .ok c) (calls : List (TsOp F)) (rx : UInt64) :
    let c1 := (tsRun calls c).2
    (tsRun calls c).1 = .ok () → c1.ntpTsMap.rxs.Pairwise (fun x y => x.toNat < y.toNat) →
      (rx ∉ c1.ntpTsMap.rxs → (getNtpTxTimestamp rx c1).1 = .ok none) ∧
      ∀ e ∈ c1.ntpTsMap.entries, e.rxTs = rx →
        (e.flags &&& ntptsDisabled ≠ 0 → (getNtpTxTimestamp rx c1).1 = .ok none) ∧
        (e.flags &&& ntptsDisabled = 0 → Converts F rx → ∃ tx src answer, SetBy rx tx src calls ∧
          (getNtpTxTimestamp rx c1).1 = .ok (some answer) ∧ answer.1 = shown F rx tx ∧
          ((∃ t, tx = some t ∧ Plausible F rx t) → answer.2 = src)) := by
  intro c1 hcalls hera
  have hs : c1.ntpTsMap.Sound := (tsRun_inv (new_tsInv hnew).1 calls).sound
  have hrec := tsRun_recorded hnew calls c1 (Prod.ext hcalls rfl)
  clear_value c1
  simp only [getNtpTxTimestamp, NtpTimestampMap.getNtpTxTimestamp, onMap, NtpTimestampMap.readEntry,
    Act.bind_apply]
  rcases NtpTimestampMap.findSlot_cases hs rx with ⟨i, hfind, hi⟩ | ⟨hfind, hnot⟩ | ⟨-, hw⟩
  · refine ⟨fun h => absurd (List.mem_of_getElem? hi) h, ?_⟩
    rintro e he rfl
    obtain ⟨ts, ha, hlt⟩ := hs.alloc_of_hit hi
    obtain ⟨tss, hread, hget⟩ := ha.read hlt
    rw [NtpTimestampMap.rxs, List.getElem?_map, hget] at hi
    obtain rfl : tss = e :=
      List.inj_on_of_nodup_map hs.ascending.nodup (List.mem_of_getElem? hget) he
        (Option.some.inj hi)
    refine ⟨fun hd => ?_, fun hd hconv => ?_⟩
    · simp [hfind, Act.bind_apply, Act.get, ha.timestamps_eq, Act.lift, hread, hd]
    · obtain ⟨tx, src, hset, hshows⟩ := hrec tss he hd
      obtain ⟨answer, hanswer⟩ := hshows.returns hconv
      refine ⟨tx, src, answer, hset, ?_, hshows.answer answer hanswer⟩
      simp [hfind, Act.bind_apply, Act.get, ha.timestamps_eq, Act.lift, hread, hd, hanswer]
  · refine ⟨fun _ => by rw [hfind]; rfl, ?_⟩
    rintro e he rfl
    exact absurd (List.mem_map_of_mem he) hnot
  · exact absurd hera hw

/-- The receive timestamp of an NTP time in 2024, and transmit timestamps 1 ms and 10 s later. -/
def rx2024 : UInt64 := (0xe9d0d280 : UInt64) <<< 32
def txNear : Timespec := ⟨1713787904, 1000000⟩
def txFar : Timespec := ⟨1713787914, 0⟩

theorem lookup_of_last_set_near :
    rx2024 ∈ (tsRun [.save rx2024 none .daemon, .update rx2024 (some txNear) .kernel]
      quietLog).2.ntpTsMap.rxs :=
  (lookup_of_last_set 1 quietConfig (fun _ => 1) new_quietLog _ rx2024 (txNear, .kernel)
    (by decide +kernel) (by decide +kernel)).1

/-- Two saves, the first with a transmit timestamp, the second disabled. -/
def twoSaves : List (TsOp ℚ) :=
  [.save rx2024 (some txNear) .kernel, .save (rx2024 + 1) none .daemon, .disable (rx2024 + 1)]

theorem stored_is_found_two : ∃ answer,
    (getNtpTxTimestamp rx2024 (tsRun twoSaves quietLog).2).1 = .ok (some answer) ∧
      (getNtpTxTimestamp (rx2024 + 1) (tsRun twoSaves quietLog).2).1 = .ok none := by
  have hcheck : (tsRun twoSaves quietLog).2.ntpTsMap.entries.map
      (fun e => (e.rxTs, e.flags &&& ntptsDisabled)) =
      [(rx2024, 0), (rx2024 + 1, 1)] := by decide +kernel
  have hfound (rx : UInt64) := stored_is_found 1 quietConfig (fun _ => 1) new_quietLog twoSaves rx
    (by decide +kernel) (by decide +kernel)
  obtain ⟨first, hfirst, heq1⟩ := List.mem_map.1 (hcheck ▸ List.mem_cons_self)
  obtain ⟨second, hsecond, heq2⟩ := List.mem_map.1
    (hcheck ▸ List.mem_cons_of_mem _ List.mem_cons_self)
  obtain ⟨hrx1, hflags1⟩ := Prod.mk.inj heq1
  obtain ⟨hrx2, hflags2⟩ := Prod.mk.inj heq2
  obtain ⟨-, -, answer, -, hanswer, -⟩ := ((hfound rx2024).2 first hfirst hrx1).2 hflags1
    (by decide +kernel)
  exact ⟨answer, hanswer, ((hfound _).2 second hsecond hrx2).1 (by rw [hflags2]; decide)⟩

/-- A transmit timestamp outside the window is set, and the lookup answers zero. -/
theorem lookup_not_last_set :
    new 1 quietConfig (fun _ => 1) = .ok quietLog ∧
    (tsRun [.save rx2024 (some txFar) .daemon] quietLog).1 = .ok () ∧
    (getNtpTxTimestamp rx2024 (tsRun [.save rx2024 (some txFar) .daemon] quietLog).2).1 =
      .ok (some (.zero, .daemon)) ∧ txFar ≠ .zero :=
  ⟨new_quietLog, by decide +kernel, by decide +kernel, by decide⟩

end ClientLog

end ChronyRs.L4.Server

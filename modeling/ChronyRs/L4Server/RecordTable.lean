import ChronyRs.Core.Buckets
import ChronyRs.L4Server.ClientLog

/-!
# The record table

The records of an active log form a table of buckets (`Buckets.Table`): every client is in the slot
of its hash, the slots are filled from the front and no client has two records.

* `scan_spec`, `getRecord_spec`: looking up a client finds its record, takes the first empty place
  of its slot, or evicts a record of a full slot when the table cannot grow.
* `rehash_spec`: growing the table moves every record, and finds room for each at once.
* `table_in_every_run`: any calls of the record interface keep the table, also those that panic.
-/
namespace ChronyRs.L4.Server.ClientLog

open Buckets

variable {F : Type} {c : ClientLog F} {ip : ClientIp}

/-! ## Addresses -/

/-- The addresses that are logged. -/
def Client (ip : ClientIp) : Prop := ip.family = 1 ∨ ip.family = 2

theorem compareBytes_eq_zero {xs ys : Bytes} (h : xs.length = ys.length) :
    compareBytes xs ys = 0 ↔ xs = ys := by
  induction xs generalizing ys with
  | nil =>
    cases ys with
    | nil => simp [compareBytes]
    | cons y ys => cases h
  | cons x xs ih =>
    cases ys with
    | nil => cases h
    | cons y ys =>
      rw [List.length_cons, List.length_cons, Nat.add_right_cancel_iff] at h
      rw [compareBytes, List.cons.injEq, ← ih h]
      by_cases hxy : (x.toNat : Int) - y.toNat = 0
      · have he : x = y := UInt8.toNat_inj.1 (by omega)
        rw [if_pos hxy]
        exact ⟨fun h0 => ⟨he, h0⟩, fun h0 => h0.2⟩
      · rw [if_neg hxy]
        refine iff_of_false hxy fun h0 => hxy ?_
        rw [h0.1]
        omega

theorem toInt_sub_eq_zero {x y : UInt32} : (x - y).toInt32.toInt = 0 ↔ x = y := by
  have h : (x - y).toInt32.toInt = (x - y).toBitVec.toInt := rfl
  have hn : (x - y).toBitVec.toNat = (x - y).toNat := rfl
  have hx := x.toNat_lt
  have hy := y.toNat_lt
  rw [h, BitVec.toInt_eq_toNat_cond, hn, UInt32.toNat_sub, ← UInt32.toNat_inj]
  split <;> omega

theorem compareIps_eq_zero (h : Client ip) {b : ClientIp} : compareIps ip b = 0 ↔ ip = b := by
  unfold compareIps
  by_cases hf : ip.family ≠ b.family
  · rw [if_pos hf]
    refine iff_of_false (by omega) fun he => hf (by rw [he])
  rw [if_neg hf]
  rw [not_not] at hf
  cases ip with
  | unspec => rcases h with h | h <;> cases h
  | id n => rcases h with h | h <;> cases h
  | v4 x =>
    cases b with
    | v4 y => simp only [toInt_sub_eq_zero, ClientIp.v4.injEq]
    | unspec => cases hf
    | v6 y => cases hf
    | id n => cases hf
  | v6 x =>
    cases b with
    | v6 y =>
      have hl : x.toList.length = y.toList.length := by simp
      simp only [compareBytes_eq_zero hl, ClientIp.v6.injEq, Vector.toList_inj]
    | unspec => cases hf
    | v4 y => cases hf
    | id n => cases hf

def key (r : Record) : Option ClientIp := if r.ipAddr = .unspec then none else some r.ipAddr

variable {r : Record} {j : Nat} {config : ClientLogConfig} {rng : Nat → UInt8}

theorem key_eq_some : key r = some ip ↔ r.ipAddr = ip ∧ ip ≠ .unspec := by
  rw [key]
  by_cases h : r.ipAddr = .unspec
  · rw [if_pos h]
    refine iff_of_false nofun fun h0 => h0.2 (h0.1 ▸ h)
  · rw [if_neg h, Option.some.injEq]
    exact ⟨fun h0 => ⟨h0, h0 ▸ h⟩, fun h0 => h0.1⟩

theorem key_eq_none : key r = none ↔ r.ipAddr = .unspec := by
  rw [key]
  by_cases h : r.ipAddr = .unspec
  · rw [if_pos h]
    exact iff_of_true rfl h
  · rw [if_neg h]
    exact iff_of_false nofun h

theorem Client.ne_unspec (h : Client ip) : ip ≠ .unspec := by
  intro h0
  rw [h0] at h
  rcases h with h | h <;> cases h

theorem key_freshRecord (h : Client ip) : key (c.freshRecord ip) = some ip :=
  key_eq_some.2 ⟨rfl, h.ne_unspec⟩

/-! ## The scan of a slot -/

/-- A place that is taken by another client. -/
def Taken (records : List Record) (ip : ClientIp) (i : Nat) : Prop :=
  ∃ r, records[i]? = some r ∧ key r ≠ none ∧ key r ≠ some ip

/-- How the scan of the slot at `first` can end. -/
inductive Scanned (records : List Record) (ip : ClientIp) (first : Nat) : Rust Scan → Prop
  | found {j : Nat} {r : Record} (hj : j < slotSize) (hr : records[first + j]? = some r)
      (hk : key r = some ip) : Scanned records ip first (.ok (.found (first + j)))
  | empty {j : Nat} {r : Record} (hj : j < slotSize) (hr : records[first + j]? = some r)
      (hk : key r = none) (hb : ∀ i < j, Taken records ip (first + i)) :
      Scanned records ip first (.ok (.empty (first + j)))
  | full {j : Nat} (hj : j < slotSize) (hb : ∀ i < slotSize, Taken records ip (first + i)) :
      Scanned records ip first (.ok (.full (some (first + j))))

theorem scan_spec {records : List Record} {first : Nat} (hc : Client ip)
    (hlen : first + slotSize ≤ records.length) (n : Nat) :
    ∀ (i : Nat) (oldest : Option Nat) (oldestHit lastHit : UInt32), i + n = slotSize →
      (0 < i → ∃ j < i, oldest = some (first + j)) → (i = 0 → oldest = none) →
      (∀ j < i, Taken records ip (first + j)) →
      Scanned records ip first (scan records ip first n i oldest oldestHit lastHit) := by
  induction n with
  | zero =>
    intro i oldest oh lh hi hold _ hb
    have hpos : 0 < slotSize := by decide
    obtain ⟨j, hj, rfl⟩ := hold (by omega)
    exact .full (by omega) fun k hk => hb k (by omega)
  | succ n ih =>
    intro i oldest oh lh hi hold hnone hb
    have hlt : first + i < records.length := by omega
    have hr : records[first + i]? = some records[first + i] := List.getElem?_eq_getElem hlt
    rw [scan, index_of_lt hlt, ok_bind]
    by_cases hf : compareIps ip records[first + i].ipAddr = 0
    · rw [if_pos hf]
      exact .found (by omega) hr (key_eq_some.2 ⟨((compareIps_eq_zero hc).1 hf).symm, hc.ne_unspec⟩)
    rw [if_neg hf]
    by_cases he : records[first + i].ipAddr = .unspec
    · rw [if_pos he]
      exact .empty (by omega) hr (key_eq_none.2 he) hb
    rw [if_neg he]
    have htaken : ∀ j < i + 1, Taken records ip (first + j) := by
      intro j hj
      rcases Nat.lt_or_ge j i with hji | hji
      · exact hb j hji
      · obtain rfl : j = i := by omega
        refine ⟨_, hr, fun h0 => he (key_eq_none.1 h0), fun h0 => hf ?_⟩
        exact (compareIps_eq_zero hc).2 (key_eq_some.1 h0).1.symm
    -- whichever of the two becomes the oldest so far, it is one of those scanned
    have both : ∀ (replace : Bool) (h' : UInt32), (replace = false → 0 < i) →
        Scanned records ip first
          (if replace then scan records ip first n (i + 1) (some (first + i)) h' h'
           else scan records ip first n (i + 1) oldest oh h') := by
      intro replace h' hrep
      cases replace with
      | true =>
        exact ih _ _ _ _ (by omega) (fun _ => ⟨i, by omega, rfl⟩) (fun h0 => by omega) htaken
      | false =>
        obtain ⟨j, hj, rfl⟩ := hold (hrep rfl)
        exact ih _ _ _ _ (by omega) (fun _ => ⟨j, by omega, rfl⟩) (fun h0 => by omega) htaken
    cases oldest with
    | none => exact both true _ nofun
    | some o =>
      have hpos : 0 < i := by
        rcases Nat.eq_zero_or_pos i with h0 | h0
        · cases hnone h0
        · exact h0
      obtain ⟨j, hj, ho⟩ := hold hpos
      cases ho
      simp only
      by_cases h1 : 0 < compareTs oh (newestHit records[first + i] lh)
      · rw [if_pos h1]
        exact both true _ nofun
      · rw [if_neg h1]
        by_cases h2 : oh = newestHit records[first + i] lh
        · rw [if_pos h2, index_of_lt (show first + j < records.length by omega)]
          exact both _ _ fun _ => hpos
        · rw [if_neg h2]
          exact both false _ fun _ => hpos

/-! ## Looking up a client, case by case -/

/-- The seed stays once it is drawn; nothing else changes but the bytes left. -/
theorem drawSeed_spec (draws : Nat) (c : ClientLog F) :
    ∃ r seed rng, drawSeed draws c = (r, { c with hashSeed := seed, rng := rng }) ∧
      (c.hashSeed ≠ 0 → seed = c.hashSeed) ∧
      ((∃ e, r = .error e) ∨ (r = .ok () ∧ seed ≠ 0 ∧ ∃ d, draws = d + 1)) := by
  induction draws generalizing c with
  | zero => exact ⟨_, c.hashSeed, c.rng, rfl, fun _ => rfl, .inl ⟨_, rfl⟩⟩
  | succ draws ih =>
    rw [drawSeed]
    simp only [Act.bind_apply, Act.get]
    by_cases h0 : c.hashSeed = 0
    · simp only [if_pos h0, Act.bind_apply, randomU32, Act.modify]
      obtain ⟨r, seed, rng, hdraw, -, hcase⟩ := ih
        { c with hashSeed := (randomU32 c).1.toOption.getD 0, rng := fun n => c.rng (n + 4) }
      refine ⟨r, seed, rng, hdraw, fun h => absurd h0 h, ?_⟩
      rcases hcase with he | ⟨h1, h2, -⟩
      · exact .inl he
      · exact .inr ⟨h1, h2, draws, rfl⟩
    · simp only [if_neg h0]
      exact ⟨_, c.hashSeed, c.rng, rfl, fun _ => rfl, .inr ⟨rfl, h0, draws, rfl⟩⟩

theorem drawSeed_of_seeded (h : c.hashSeed ≠ 0) (draws : Nat) :
    drawSeed (draws + 1) c = (.ok (), c) := by
  rw [drawSeed]
  simp only [Act.bind_apply, Act.get, if_neg h]
  rfl

theorem hashBytes_ne_none (h : Client ip) : hashBytes ip ≠ none := by
  cases ip with
  | unspec => exact absurd rfl h.ne_unspec
  | v4 a => nofun
  | v6 a => nofun
  | id n => nofun

section
variable (draws fuel : Nat) {idx : Nat} {c1 : ClientLog F}

theorem getRecord_none (h : c.active = false ∨ ¬ Client ip) :
    getRecord draws (fuel + 1) ip c = (.ok none, c) := by
  rw [Client, not_or] at h
  rw [getRecord]
  simp only [Act.bind_apply, Act.get]
  rw [if_pos h]
  rfl

theorem not_unlogged (ha : c.active = true) (hc : Client ip) :
    ¬ (c.active = false ∨ (ip.family ≠ 1 ∧ ip.family ≠ 2)) := by
  rw [← not_or, ← Client, ha]
  simpa using hc

theorem getRecord_unseeded {e : Panic} (ha : c.active = true) (hc : Client ip)
    (hd : drawSeed draws c = (.error e, c1)) :
      getRecord draws (fuel + 1) ip c = (.error e, c1) := by
  rw [getRecord]
  simp only [Act.bind_apply, Act.get]
  rw [if_neg (not_unlogged ha hc)]
  simp only [Act.bind_apply, ipToHash, if_neg (hashBytes_ne_none hc), hd]

/-- One round of `get_record`, whatever it does on a full slot. -/
def lookupWith (expand : Act (ClientLog F) Bool) (retry : Act (ClientLog F) (Option Nat))
    (ip : ClientIp) : Act (ClientLog F) (Option Nat) := do
  let c ← Act.get
  if c.active = false ∨ (ip.family ≠ 1 ∧ ip.family ≠ 2) then pure none
  else do
    let hash ← ipToHash draws ip
    let c ← Act.get
    let r ← Act.lift (scan c.records ip (hash.toNat % c.slots * slotSize) slotSize 0 none 0 0)
    takeSlot ip expand retry r

theorem getRecord_succ (ip : ClientIp) : getRecord (F := F) draws (fuel + 1) ip =
    lookupWith draws (expandWith (getRecord draws fuel)) (getRecord draws fuel ip) ip := rfl

theorem lookupWith_scan {r : Scan} (ha : c.active = true) (hc : Client ip)
    (hd : drawSeed draws c = (.ok (), c1))
    (hs : scan c1.records ip (c1.slotOf ip) slotSize 0 none 0 0 = .ok r)
    (expand : Act (ClientLog F) Bool) (retry : Act (ClientLog F) (Option Nat)) :
    lookupWith draws expand retry ip c = takeSlot ip expand retry r c1 := by
  rw [slotOf] at hs
  rw [lookupWith]
  simp only [Act.bind_apply, Act.get]
  rw [if_neg (not_unlogged ha hc)]
  simp only [Act.bind_apply, ipToHash, if_neg (hashBytes_ne_none hc), hd, Act.get, Act.pure_apply,
    Act.lift, hs]

theorem putRecord_eq {r : Record} (h : idx < c.records.length) :
    putRecord idx r c = (.ok (), { c with records := c.records.set idx r }) := by
  rw [putRecord]
  simp only [Act.bind_apply, Act.get, Act.lift, index_of_lt h]
  rfl

theorem initRecord_eq (h : idx < c.records.length) :
    initRecord ip idx c =
      (.ok (some idx), { c with records := c.records.set idx (c.freshRecord ip) }) := by
  rw [initRecord]
  simp only [Act.bind_apply, Act.get, putRecord_eq h]
  rfl

end

/-! ## The invariant -/

structure TableInv (c : ClientLog F) : Prop where
  table : Table key (fun ip => (hashWith c.hashSeed ip).toNat) slotSize c.records c.slots
  pow : ∃ k, c.slots = 2 ^ k
  slots_le : c.slots ≤ max 1 c.maxSlots
  cap : c.maxSlots ≤ maxSlotsCap
  seeded : c.hashSeed = 0 → ∀ r ∈ c.records, key r = none
  clients : ∀ r ∈ c.records, ∀ ip, key r = some ip → Client ip
  active : c.active = true

theorem TableInv.slots_pos (h : TableInv c) : 0 < c.slots := by
  obtain ⟨k, hk⟩ := h.pow
  rw [hk]
  exact Nat.two_pow_pos k

theorem TableInv.slot_le (h : TableInv c) (ip : ClientIp) :
    c.slotOf ip + slotSize ≤ c.records.length := by
  have hlt := Nat.mod_lt (hashWith c.hashSeed ip).toNat h.slots_pos
  have hmul := Nat.mul_le_mul_right slotSize (Nat.succ_le_of_lt hlt)
  rw [h.table.length_eq, slotOf]
  rw [Nat.succ_mul] at hmul
  exact hmul

theorem slotOf_div (c : ClientLog F) (ip : ClientIp) (hj : j < slotSize) :
    (c.slotOf ip + j) / slotSize = (hashWith c.hashSeed ip).toNat % c.slots := by
  rw [slotOf, Nat.mul_comm, Nat.mul_add_div (by decide), Nat.div_eq_of_lt hj, Nat.add_zero]

/-- The places of a slot, by position. -/
theorem exists_of_div_eq {c : ClientLog F} {i : Nat} (hj : j < slotSize)
    (h : i / slotSize = (c.slotOf ip + j) / slotSize) : ∃ k < slotSize, i = c.slotOf ip + k := by
  rw [slotOf_div c ip hj] at h
  refine ⟨i % slotSize, Nat.mod_lt _ (by decide), ?_⟩
  rw [slotOf, ← h, Nat.div_add_mod' i slotSize]

/-- A place where a record for `ip`, which has none, can go. -/
structure Free (c : ClientLog F) (ip : ClientIp) (j : Nat) : Prop where
  lt : j < slotSize
  before : ∀ i < j, ∃ z, c.records[c.slotOf ip + i]? = some z ∧ key z ≠ none
  absent : ∀ i < slotSize, ∀ z, c.records[c.slotOf ip + i]? = some z → key z ≠ some ip

theorem TableInv.free_of_empty (h : TableInv c) (hj : j < slotSize)
    (hr : c.records[c.slotOf ip + j]? = some r) (hk : key r = none)
    (hb : ∀ i < j, Taken c.records ip (c.slotOf ip + i)) : Free c ip j := by
  refine ⟨hj, ?_, ?_⟩
  · intro i hi
    obtain ⟨z, hz, hne, -⟩ := hb i hi
    exact ⟨z, hz, hne⟩
  · intro i hi z hz hkz
    rcases Nat.lt_trichotomy i j with hlt | rfl | hgt
    · obtain ⟨z', hz', -, hne⟩ := hb i hlt
      rw [hz] at hz'
      cases hz'
      exact hne hkz
    · rw [hr] at hz
      cases hz
      rw [hk] at hkz
      cases hkz
    · -- behind an empty place there are only empty ones
      obtain ⟨y, hy, hne⟩ := h.table.filled (c.slotOf ip + j) (c.slotOf ip + i) z (by omega)
        (by rw [slotOf_div c ip hj, slotOf_div c ip hi]) hz (by rw [hkz]; nofun)
      rw [hr] at hy
      cases hy
      exact hne hk

theorem free_of_full (hj : j < slotSize) (hb : ∀ i < slotSize,
    Taken c.records ip (c.slotOf ip + i)) : Free c ip j := by
  refine ⟨hj, ?_, ?_⟩
  · intro i hi
    obtain ⟨z, hz, hne, -⟩ := hb i (by omega)
    exact ⟨z, hz, hne⟩
  · intro i hi z hz
    obtain ⟨z', hz', -, hne⟩ := hb i hi
    rw [hz] at hz'
    cases hz'
    exact hne

/-- A client with a free place in its slot has no record. -/
theorem TableInv.absent (h : TableInv c) (hf : Free c ip j) :
    ∀ r ∈ c.records, key r ≠ some ip := by
  intro r hr hk
  obtain ⟨i, hi⟩ := List.mem_iff_getElem?.1 hr
  have hp := h.table.placed i r ip hi hk
  obtain ⟨k, hk', rfl⟩ := exists_of_div_eq hf.lt (hp.trans (slotOf_div c ip hf.lt).symm)
  exact hf.absent k hk' r hi hk

theorem TableInv.place (h : TableInv c) (hseed : c.hashSeed ≠ 0) (hc : Client ip) (hf : Free c ip j)
    (hr : key r = some ip) :
    TableInv { c with records := c.records.set (c.slotOf ip + j) r } := by
  have hlt : c.slotOf ip + j < c.records.length := by
    have := h.slot_le ip
    have := hf.lt
    omega
  refine ⟨h.table.set_new hlt hr (slotOf_div c ip hf.lt) ?_ ?_, h.pow, h.slots_le, h.cap,
    fun h0 => absurd h0 hseed, ?_, h.active⟩
  · intro i z hi hz
    obtain ⟨k, hk, rfl⟩ := exists_of_div_eq hf.lt hi
    exact hf.absent k hk z hz
  · intro i hi hdiv
    obtain ⟨k, hk, rfl⟩ := exists_of_div_eq hf.lt hdiv
    exact hf.before k (by omega)
  · intro z hz ip' hk
    rcases List.mem_or_eq_of_mem_set hz with hz | rfl
    · exact h.clients z hz ip' hk
    · rw [hr] at hk
      cases hk
      exact hc

/-! ## Growing the table -/

section
variable (draws : Nat)

theorem TableInv.scanned (h : TableInv c) (hc : Client ip) :
    ∃ r, scan c.records ip (c.slotOf ip) slotSize 0 none 0 0 = .ok r ∧
      Scanned c.records ip (c.slotOf ip) (.ok r) := by
  have hs := scan_spec hc (h.slot_le ip) slotSize 0 none 0 0 (Nat.zero_add _)
    (fun h0 => absurd h0 (by omega)) (fun _ => rfl) fun j hj => absurd hj (Nat.not_lt_zero _)
  cases hr : scan c.records ip (c.slotOf ip) slotSize 0 none 0 0 with
  | error e =>
    rw [hr] at hs
    cases hs
  | ok r => exact ⟨r, rfl, hr ▸ hs⟩

/-- A lookup in a table with a seed acts on what its scan finds. -/
theorem TableInv.lookup (h : TableInv c) (hseed : c.hashSeed ≠ 0) (hc : Client ip) :
    ∃ r, Scanned c.records ip (c.slotOf ip) (.ok r) ∧
      ∀ expand retry, lookupWith (draws + 1) expand retry ip c = takeSlot ip expand retry r c := by
  obtain ⟨r, hr, hs⟩ := h.scanned hc
  exact ⟨r, hs, lookupWith_scan (draws + 1) h.active hc (drawSeed_of_seeded hseed draws) hr⟩

theorem getRecord_of_has (h : TableInv c) (hc : Client ip) {r : Record} (hr : r ∈ c.records)
    (hk : key r = some ip) (fuel : Nat) :
    ∃ idx, c.records[idx]? = some r ∧ getRecord (draws + 1) (fuel + 1) ip c =
      (.ok (some idx), c) := by
  have hseed : c.hashSeed ≠ 0 := by
    intro h0
    rw [h.seeded h0 r hr] at hk
    cases hk
  obtain ⟨res, hs, hget⟩ := h.lookup draws hseed hc
  cases hs with
  | @found j r' hj hr' hk' =>
    refine ⟨c.slotOf ip + j, ?_, ?_⟩
    · obtain ⟨i, hi⟩ := List.mem_iff_getElem?.1 hr
      rw [h.table.distinct _ i r' r ip hr' hi hk' hk, hi]
    · rw [getRecord_succ, hget]
      rfl
  | empty hj hr' hk' hb => exact absurd hk (h.absent (h.free_of_empty hj hr' hk' hb) r hr)
  | full hj hb => exact absurd hk (h.absent (free_of_full hj hb) r hr)

/-- A client without a record whose slot has room gets a place at once, without growing the
table. -/
theorem lookupWith_of_room (h : TableInv c) (hseed : c.hashSeed ≠ 0) (hc : Client ip)
    (habsent : ∀ r ∈ c.records, key r ≠ some ip)
    (hroom : ∃ j, j < slotSize ∧ ∀ r, c.records[c.slotOf ip + j]? = some r → key r = none) :
    ∃ j r, Free c ip j ∧ c.records[c.slotOf ip + j]? = some r ∧ key r = none ∧
      ∀ expand retry, lookupWith (draws + 1) expand retry ip c = (.ok (some (c.slotOf ip + j)),
        { c with records := c.records.set (c.slotOf ip + j) (c.freshRecord ip) }) := by
  obtain ⟨res, hs, hget⟩ := h.lookup draws hseed hc
  cases hs with
  | @found j r hj hr' hk => exact absurd hk (habsent r (List.mem_of_getElem? hr'))
  | @empty j r hj hr' hk hb =>
    refine ⟨j, r, h.free_of_empty hj hr' hk hb, hr', hk, fun expand retry => ?_⟩
    rw [hget, takeSlot, initRecord_eq (List.getElem?_eq_some_iff.1 hr').1]
  | @full j hj hb =>
    obtain ⟨k, hk, hne⟩ := hroom
    obtain ⟨r, hr', h1, -⟩ := hb k hk
    exact absurd (hne r hr') h1

/-- The table `ys` while the records of `c` move: it has those of `done`. -/
structure Moving (c : ClientLog F) (done ys : List Record) : Prop where
  inv : TableInv { c with slots := 2 * c.slots, records := ys }
  sub : ∀ y ∈ ys, key y ≠ none → y ∈ done
  all : ∀ x ∈ done, key x ≠ none → x ∈ ys

theorem move_one (h : TableInv c) (hseed : c.hashSeed ≠ 0) {done rest ys : List Record}
    {old : Record} (hrec : c.records = done ++ old :: rest) (hm : Moving c done ys)
    (hk : key old = some ip) :
    ∃ idx fresh, (∀ expand retry,
        lookupWith (draws + 1) expand retry ip { c with slots := 2 * c.slots, records := ys } =
          (.ok (some idx), { c with slots := 2 * c.slots, records := ys.set idx fresh })) ∧
      idx < ys.length ∧ Moving c (done ++ [old]) (ys.set idx old) := by
  have hmem : old ∈ c.records := by
    rw [hrec]
    exact List.mem_append_right _ List.mem_cons_self
  have hc : Client ip := h.clients old hmem ip hk
  -- the keys that were moved are others
  have hsub : ∀ y ∈ ys, ∀ k', key y = some k' → k' ≠ ip ∧ ∃ x ∈ c.records, key x = some k' := by
    intro y hy k' hk'
    have hdone := hm.sub y hy (by rw [hk']; nofun)
    refine ⟨?_, y, by rw [hrec]; exact List.mem_append_left _ hdone, hk'⟩
    rintro rfl
    obtain ⟨i, hi⟩ := List.mem_iff_getElem?.1 hdone
    have hlt := (List.getElem?_eq_some_iff.1 hi).1
    have h1 : c.records[i]? = some y := by rw [hrec, List.getElem?_append_left hlt, hi]
    have h2 : c.records[done.length]? = some old := by
      rw [hrec, List.getElem?_append_right (Nat.le_refl _), Nat.sub_self, List.getElem?_cons_zero]
    have := h.table.distinct i done.length y old k' h1 h2 hk' hk
    omega
  have habsent : ∀ y ∈ ys, key y ≠ some ip := fun y hy hk' => (hsub y hy ip hk').1 rfl
  obtain ⟨j, r, hfree, hr, hempty, hget⟩ := lookupWith_of_room draws hm.inv hseed hc
    habsent (h.table.room hm.inv.table (by decide) ⟨old, hmem, hk⟩ hsub)
  have hlt := (List.getElem?_eq_some_iff.1 hr).1
  refine ⟨_, _, hget, hlt, hm.inv.place hseed hc hfree hk, ?_, ?_⟩
  · intro y hy hne
    rcases List.mem_or_eq_of_mem_set hy with hy | rfl
    · exact List.mem_append_left _ (hm.sub y hy hne)
    · exact List.mem_append_right _ (List.mem_singleton_self _)
  · intro x hx hne
    rcases List.mem_append.1 hx with hx | hx
    · obtain ⟨i, hi⟩ := List.mem_iff_getElem?.1 (hm.all x hx hne)
      refine List.mem_of_getElem? (i := i) ?_
      rw [List.getElem?_set_ne, hi]
      rintro rfl
      have hr' := hr.symm.trans hi
      cases hr'
      exact hne hempty
    · rw [List.mem_singleton.1 hx]
      exact List.mem_set hlt _

theorem rehash_spec (h : TableInv c) (rest : List Record) :
    ∀ done ys, c.records = done ++ rest → Moving c done ys →
      ∃ ys', (∀ (expand : ClientIp → Act (ClientLog F) Bool)
        (retry : ClientIp → Act (ClientLog F) (Option Nat)),
        rehash (fun ip => lookupWith (draws + 1) (expand ip) (retry ip) ip) rest
            { c with slots := 2 * c.slots, records := ys } =
          (.ok (), { c with slots := 2 * c.slots, records := ys' })) ∧ Moving c c.records ys' := by
  induction rest with
  | nil =>
    intro done ys hrec hm
    rw [List.append_nil] at hrec
    exact ⟨ys, fun _ _ => rfl, hrec ▸ hm⟩
  | cons old rest ih =>
    intro done ys hrec hm
    have hrec' : c.records = (done ++ [old]) ++ rest := by rw [hrec, List.append_assoc]; rfl
    by_cases hu : old.ipAddr = .unspec
    · simp only [rehash, if_pos hu]
      refine ih _ ys hrec' ⟨hm.inv, fun y hy hne => List.mem_append_left _ (hm.sub y hy hne), ?_⟩
      intro x hx hne
      rcases List.mem_append.1 hx with hx | hx
      · exact hm.all x hx hne
      · rw [List.mem_singleton.1 hx] at hne
        exact absurd (key_eq_none.2 hu) hne
    · have hk : key old = some old.ipAddr := key_eq_some.2 ⟨rfl, hu⟩
      have hseed : c.hashSeed ≠ 0 := fun h0 => by
        have hnone := h.seeded h0 old (by rw [hrec]; simp)
        rw [hk] at hnone
        cases hnone
      obtain ⟨idx, fresh, hget, hlt, hm'⟩ := move_one draws h hseed hrec hm hk
      obtain ⟨ys', hre, hm2⟩ := ih _ _ hrec' hm'
      refine ⟨ys', fun expand retry => ?_, hm2⟩
      have hput := putRecord_eq (c := { c with slots := 2 * c.slots, records := ys.set idx fresh })
        (r := old) (show idx < (ys.set idx fresh).length by rwa [List.length_set])
      rw [rehash, if_neg hu]
      simp only [Act.bind_apply, hget, hput, List.set_set]
      exact hre expand retry

/-- **Growing.** The table is doubled if the memory allows it, with the same records. What a lookup
does on a full slot does not matter. -/
theorem expand_spec (h : TableInv c) (hgrow : 2 * c.slots ≤ c.maxSlots) :
    ∃ ys, (∀ (expand : ClientIp → Act (ClientLog F) Bool)
      (retry : ClientIp → Act (ClientLog F) (Option Nat)),
      expandWith (fun ip => lookupWith (draws + 1) (expand ip) (retry ip) ip) c =
        (.ok true, { c with slots := 2 * c.slots, records := ys })) ∧ Moving c c.records ys := by
  have hpos := h.slots_pos
  have hmax : max minSlots (2 * c.slots) = 2 * c.slots := by
    rw [minSlots]
    omega
  have hempty : key Record.empty = none := rfl
  have hm : Moving c [] (List.replicate (2 * c.slots * slotSize) Record.empty) := by
    obtain ⟨k, hk⟩ := h.pow
    have hnone : ∀ r ∈ List.replicate (2 * c.slots * slotSize) Record.empty, key r = none :=
      fun r hr => by rw [List.eq_of_mem_replicate hr, hempty]
    refine ⟨⟨Table.replicate hempty _, ⟨k + 1, ?_⟩, ?_, h.cap, fun _ => hnone, ?_,
      h.active⟩, ?_, nofun⟩
    · show 2 * c.slots = 2 ^ (k + 1)
      rw [hk, Nat.pow_succ, Nat.mul_comm]
    · show 2 * c.slots ≤ max 1 c.maxSlots
      omega
    · intro r hr ip' hk'
      rw [hnone r hr] at hk'
      cases hk'
    · intro y hy hne
      exact absurd (hnone y hy) hne
  obtain ⟨ys, hre, hm'⟩ := rehash_spec draws h c.records [] _ rfl hm
  refine ⟨ys, fun expand retry => ?_, hm'⟩
  rw [expandWith]
  simp only [Act.bind_apply, Act.get]
  rw [if_neg (by omega)]
  simp only [Act.bind_apply, Act.modify, hmax, hre expand retry]
  rfl

/-- **An expansion keeps the records.** When `expand_hashtable` grows the table, the number of slots
is doubled, every record is there as it was, there is no other, and the rest of the log, with the
count of evicted records, is unchanged. It does so whatever `get_record` would do on a full slot: no
lookup of the loop grows the table again or evicts a record. -/
theorem expansion_exact (h : TableInv c) (hgrow : 2 * c.slots ≤ c.maxSlots)
    (fuel : Nat) : ∃ records,
    expandWith (getRecord (draws + 1) (fuel + 1)) c =
      (.ok true, { c with slots := 2 * c.slots, records }) ∧
    TableInv { c with slots := 2 * c.slots, records } ∧
    (∀ r, r.ipAddr ≠ .unspec → (r ∈ records ↔ r ∈ c.records)) ∧
    ∀ (expand : ClientIp → Act (ClientLog F) Bool)
      (retry : ClientIp → Act (ClientLog F) (Option Nat)),
      expandWith (fun ip => lookupWith (draws + 1) (expand ip) (retry ip) ip) c =
        (.ok true, { c with slots := 2 * c.slots, records }) := by
  obtain ⟨records, hexp, hm⟩ := expand_spec draws h hgrow
  refine ⟨records, hexp (fun _ => expandWith (getRecord (draws + 1) fuel))
    (getRecord (draws + 1) fuel), hm.inv, fun r hr => ?_, hexp⟩
  have hne : key r ≠ none := fun h0 => hr (key_eq_none.1 h0)
  exact ⟨fun hmem => hm.sub r hmem hne, fun hmem => hm.all r hmem hne⟩

theorem expand_full (h : TableInv c) (hfull : c.maxSlots < 2 * c.slots)
    (get : ClientIp → Act (ClientLog F) (Option Nat)) : expandWith get c = (.ok false, c) := by
  have hne : c.records ≠ [] := by
    intro h0
    have hl := h.table.length_eq
    rw [h0, List.length_nil, slotSize] at hl
    have := h.slots_pos
    omega
  rw [expandWith]
  simp only [Act.bind_apply, Act.get]
  rw [if_pos ⟨hne, hfull⟩]
  rfl

end

/-! ## Looking up a client -/

/-- The records in use after a lookup of `ip` were there before, but for a fresh one of a client
that had none. -/
def Carries (c : ClientLog F) (ip : ClientIp) (records : List Record) : Prop :=
  ∀ r ∈ records, key r ≠ none →
    r ∈ c.records ∨ (r = c.freshRecord ip ∧ ∀ r' ∈ c.records, key r' ≠ some ip)

theorem carries_set (habsent : ∀ r' ∈ c.records, key r' ≠ some ip) :
    Carries c ip (c.records.set j (c.freshRecord ip)) := by
  intro r hr _
  rcases List.mem_or_eq_of_mem_set hr with hr | rfl
  · exact .inl hr
  · exact .inr ⟨rfl, habsent⟩

/-- The lookup of `ip` in `c` returned the place of its record. -/
def Located (c : ClientLog F) (ip : ClientIp) (result : Rust (Option Nat) × ClientLog F) : Prop :=
  ∃ idx r slots records drops,
    result = (.ok (some idx),
      { c with slots := slots, records := records, totalRecordDrops := drops }) ∧
    TableInv { c with slots := slots, records := records, totalRecordDrops := drops } ∧
    Carries c ip records ∧ records[idx]? = some r ∧ key r = some ip

theorem TableInv.located (h : TableInv c) (hseed : c.hashSeed ≠ 0) (hc : Client ip) {n : Nat}
    (hf : Free c ip j) :
    Located c ip (initRecord ip (c.slotOf ip + j) { c with totalRecordDrops := n }) := by
  have hlt : c.slotOf ip + j < c.records.length := by
    have := h.slot_le ip
    have := hf.lt
    omega
  have hp := h.place hseed hc hf (key_freshRecord (c := c) hc)
  refine ⟨_, c.freshRecord ip, c.slots, c.records.set (c.slotOf ip + j) (c.freshRecord ip), n,
    initRecord_eq (c := { c with totalRecordDrops := n }) hlt, ?_, carries_set (h.absent hf),
    List.getElem?_set_self hlt, key_freshRecord hc⟩
  exact ⟨hp.table, hp.pow, hp.slots_le, hp.cap, hp.seeded, hp.clients, hp.active⟩

/-- One round of the loop, given what happens when the table grows. -/
theorem getRecord_round (draws fuel : Nat) (h : TableInv c) (hseed : c.hashSeed ≠ 0)
    (hc : Client ip)
    (hgrow : 2 * c.slots ≤ c.maxSlots → ∃ c2, expandWith (getRecord (draws + 1) fuel) c =
      (.ok true, c2) ∧ Located c ip (getRecord (draws + 1) fuel ip c2)) :
    Located c ip (getRecord (draws + 1) (fuel + 1) ip c) := by
  obtain ⟨res, hs, hget⟩ := h.lookup draws hseed hc
  rw [getRecord_succ, hget]
  cases hs with
  | @found j r hj hr' hk =>
    exact ⟨_, r, c.slots, c.records, c.totalRecordDrops, rfl, h, fun r' h1 _ => .inl h1, hr', hk⟩
  | @empty j r hj hr' hk hb =>
    exact h.located (n := c.totalRecordDrops) hseed hc (h.free_of_empty hj hr' hk hb)
  | @full j hj hb =>
    rw [takeSlot]
    rcases Nat.lt_or_ge c.maxSlots (2 * c.slots) with hfull | hroom
    · simp only [Act.bind_apply, expand_full h hfull, Bool.false_eq_true, if_false]
      exact h.located (n := c.totalRecordDrops + 1) hseed hc (free_of_full hj hb)
    · obtain ⟨c2, hexp, hloc⟩ := hgrow hroom
      simp only [Act.bind_apply, hexp, if_true]
      exact hloc

/-- **Looking up a client** once there is a seed: the place of its record is returned, and the fuel
suffices. -/
theorem getRecord_seeded (draws fuel : Nat) :
    ∀ {c : ClientLog F}, TableInv c → c.hashSeed ≠ 0 → Client ip →
    c.maxSlots < c.slots * 2 ^ fuel → Located c ip (getRecord (draws + 1) (fuel + 1) ip c) := by
  induction fuel with
  | zero =>
    intro c h hseed hc hfuel
    refine getRecord_round draws 0 h hseed hc fun hgrow => ?_
    omega
  | succ fuel ih =>
    intro c h hseed hc hfuel
    refine getRecord_round draws (fuel + 1) h hseed hc fun hgrow => ?_
    obtain ⟨ys, hexp, hm⟩ := expand_spec draws h hgrow
    refine ⟨_, hexp (fun _ => expandWith (getRecord (draws + 1) fuel))
      (getRecord (draws + 1) fuel), ?_⟩
    have hfuel' : c.maxSlots < 2 * c.slots * 2 ^ fuel := by
      rw [Nat.pow_succ] at hfuel
      calc c.maxSlots < c.slots * (2 ^ fuel * 2) := hfuel
        _ = 2 * c.slots * 2 ^ fuel := by ring
    obtain ⟨idx, r, slots, records, drops, hres, hinv, hcarry, hidx, hk⟩ :=
      ih hm.inv hseed hc hfuel'
    refine ⟨idx, r, slots, records, drops, hres, hinv, ?_, hidx, hk⟩
    intro x hx hne
    rcases hcarry x hx hne with h1 | ⟨h1, h2⟩
    · exact .inl (hm.sub x h1 hne)
    · refine .inr ⟨h1, fun r' hr' hk' => h2 r' (hm.all r' hr' ?_) hk'⟩
      rw [hk']
      nofun

/-- What the buckets of the records are configured with. -/
structure SameSetup (c c' : ClientLog F) : Prop where
  maxTokens : c'.maxTokens = c.maxTokens
  tokensPerHit : c'.tokensPerHit = c.tokensPerHit
  tokenShift : c'.tokenShift = c.tokenShift
  tsOffset : c'.tsOffset = c.tsOffset

theorem SameSetup.refl (c : ClientLog F) : SameSetup c c := ⟨rfl, rfl, rfl, rfl⟩

theorem SameSetup.trans {c c1 c2 : ClientLog F} (h1 : SameSetup c c1) (h2 : SameSetup c1 c2) :
    SameSetup c c2 :=
  ⟨h2.1.trans h1.1, h2.2.trans h1.2, h2.3.trans h1.3, h2.4.trans h1.4⟩

theorem TableInv.reseed (h : TableInv c) {seed : UInt32} (rng : Nat → UInt8)
    (hs : c.hashSeed ≠ 0 → seed = c.hashSeed) :
      TableInv { c with hashSeed := seed, rng := rng } := by
  by_cases h0 : c.hashSeed = 0
  · exact ⟨.of_empty h.table.length_eq (h.seeded h0), h.pow, h.slots_le, h.cap,
      fun _ => h.seeded h0, h.clients, h.active⟩
  · obtain rfl := hs h0
    exact ⟨h.table, h.pow, h.slots_le, h.cap, h.seeded, h.clients, h.active⟩

/-- **Looking up an address.** -/
theorem getRecord_spec (h : TableInv c) (draws : Nat) (ip : ClientIp) :
    ∃ res c', getRecord draws tableFuel ip c = (res, c') ∧ TableInv c' ∧ SameSetup c c' ∧
      Carries c ip c'.records ∧
      (∀ idx, res = .ok (some idx) → ∃ r, c'.records[idx]? = some r ∧ key r = some ip) ∧
      (res = .ok none → ¬ Client ip) := by
  by_cases hc : Client ip
  · obtain ⟨r, seed, rng, hdraw, hseed, hcase⟩ := drawSeed_spec draws c
    have hinv := h.reseed rng hseed
    rcases hcase with ⟨e, rfl⟩ | ⟨rfl, h0, d, rfl⟩
    · exact ⟨_, _, getRecord_unseeded draws 31 h.active hc hdraw, hinv, ⟨rfl, rfl, rfl, rfl⟩,
        fun r hr _ => .inl hr, nofun, nofun⟩
    · -- from here on the seed is drawn, so the lookup can start over from the seeded log
      have hsame : getRecord (d + 1) tableFuel ip c =
          getRecord (d + 1) tableFuel ip { c with hashSeed := seed, rng := rng } := by
        obtain ⟨res, hr, -⟩ := hinv.scanned hc
        rw [tableFuel, getRecord_succ, lookupWith_scan (d + 1) h.active hc hdraw hr,
          lookupWith_scan (d + 1) hinv.active hc (drawSeed_of_seeded h0 d) hr]
      have hfuel : c.maxSlots < c.slots * 2 ^ 31 := by
        have h1 := h.cap
        have h2 := h.slots_pos
        rw [maxSlotsCap] at h1
        omega
      obtain ⟨idx, r, slots, records, drops, hres, hinv', hcarry, hidx, hk⟩ :=
        getRecord_seeded d 31 hinv h0 hc hfuel
      refine ⟨_, _, hsame.trans hres, hinv', ⟨rfl, rfl, rfl, rfl⟩, hcarry, fun i hi => ?_, nofun⟩
      cases hi
      exact ⟨r, hidx, hk⟩
  · exact ⟨_, c, getRecord_none draws 31 (.inr hc), h, .refl c, fun r hr _ => .inl hr,
      nofun, fun _ => hc⟩

/-! ## Changing a record in place -/

/-- The table, and the key of the record at `idx`. -/
def AtIdx (idx : Nat) (k : Option ClientIp) (c : ClientLog F) : Prop :=
  TableInv c ∧ ∀ r, c.records[idx]? = some r → key r = k

section
variable {idx : Nat} {k : Option ClientIp}

theorem AtIdx.set (h : AtIdx idx k c) {r r' : Record} (hr : c.records[idx]? = some r)
    (hk : key r' = k) : AtIdx idx k { c with records := c.records.set idx r' } := by
  obtain ⟨hinv, hkey⟩ := h
  have hlt := (List.getElem?_eq_some_iff.1 hr).1
  have hsame : key r' = key r := hk.trans (hkey r hr).symm
  have hmem : ∀ x ∈ c.records.set idx r', ∃ y ∈ c.records, key x = key y := by
    intro x hx
    rcases List.mem_or_eq_of_mem_set hx with hx | rfl
    · exact ⟨x, hx, rfl⟩
    · exact ⟨r, List.mem_of_getElem? hr, hsame⟩
  refine ⟨⟨hinv.table.set_same hr hsame, hinv.pow, hinv.slots_le, hinv.cap, ?_, ?_,
    hinv.active⟩, ?_⟩
  · intro h0 x hx
    obtain ⟨y, hy, he⟩ := hmem x hx
    rw [he]
    exact hinv.seeded h0 y hy
  · intro x hx ip hip
    obtain ⟨y, hy, he⟩ := hmem x hx
    exact hinv.clients y hy ip (he ▸ hip)
  · intro x hx
    rw [List.getElem?_set_self hlt] at hx
    cases hx
    exact hk

/-- A method that keeps the address of the record. -/
theorem safe_onRecord {α : Type} {x : Act Record α} {Q : α → Prop}
    (hx : Act.Safe (fun r => key r = k) x Q) :
    Act.Safe (AtIdx idx k) (onRecord (F := F) idx x) Q := by
  intro c hc
  rw [onRecord]
  cases hr : c.records[idx]? with
  | none => exact ⟨hc, nofun⟩
  | some r =>
    obtain ⟨h1, h2⟩ := hx r (hc.2 r hr)
    exact ⟨hc.set hr h1, h2⟩

/-- Counters, random numbers and the like. -/
theorem AtIdx.frame {c c' : ClientLog F} (h : AtIdx idx k c) (h1 : c'.records = c.records)
    (h2 : c'.slots = c.slots) (h3 : c'.maxSlots = c.maxSlots) (h4 : c'.hashSeed = c.hashSeed)
    (h5 : c'.active = c.active) : AtIdx idx k c' := by
  obtain ⟨⟨t1, t2, t3, t4, t5, t6, t7⟩, hk⟩ := h
  exact ⟨⟨by rw [h1, h2, h4]; exact t1, by rw [h2]; exact t2, by rw [h2, h3]; exact t3,
    by rw [h3]; exact t4, by rw [h1, h4]; exact t5, by rw [h1]; exact t6, h5.trans t7⟩,
    by rw [h1]; exact hk⟩

theorem safe_hitRecord (mtokens : Nat) (tshift : Int) (s : Service) (nowTs : UInt32) :
    Act.Safe (fun r => key r = k) (hitRecord mtokens tshift s nowTs) fun _ => True := by
  refine .bind Act.safe_get fun r _ => .bind (Act.safe_modify fun r hr => hr) fun _ _ => ?_
  refine Act.safe_ite (fun _ => Act.safe_pure trivial) fun _ => ?_
  refine .bind (Act.safe_lift _) fun tokens _ => .bind (Act.safe_lift _) fun sum _ => ?_
  refine .bind (Act.safe_modify fun r hr => hr) fun _ _ => .bind (Act.safe_lift _) fun i2 _ => ?_
  exact Act.safe_ite (fun _ => Act.safe_modify fun r hr => hr) fun _ =>
    Act.safe_modify fun r hr => hr

theorem safe_updateRecord (s : Service) (now : Timespec) :
    Act.Safe (AtIdx idx k) (updateRecord (F := F) s idx now) fun _ => True :=
  .bind Act.safe_get fun _ _ => safe_onRecord (safe_hitRecord _ _ s _)

theorem safe_limitResponseRandom (leakRate : Nat) :
    Act.Safe (AtIdx idx k) (limitResponseRandom (F := F) leakRate) fun _ => True := by
  have hrandom : Act.Safe (AtIdx idx k) (randomU32 (F := F)) fun _ => True :=
    fun c hc => ⟨hc.frame rfl rfl rfl rfl rfl, fun _ _ => trivial⟩
  refine .bind Act.safe_get fun c _ => .bind (Act.safe_when fun _ => ?_) fun _ _ => ?_
  · exact .bind hrandom fun rnd _ => Act.safe_modify fun c hc => hc.frame rfl rfl rfl rfl rfl
  · refine .bind Act.safe_get fun c _ => .bind (Act.safe_modify fun c hc => ?_) fun _ _ =>
      Act.safe_pure trivial
    exact hc.frame rfl rfl rfl rfl rfl

theorem safe_limitServiceRate (s : Service) :
    Act.Safe (AtIdx idx k) (limitServiceRate (F := F) s idx) fun _ => True := by
  refine .bind Act.safe_get fun c _ => Act.safe_ite (fun _ => Act.safe_pure trivial) fun _ => ?_
  refine .bind (safe_onRecord (Q := fun _ => True) ?_) fun spent _ =>
    Act.safe_ite (fun _ => Act.safe_pure trivial) fun _ => ?_
  · refine .bind (Act.safe_modify fun r hr => hr) fun _ _ => .bind Act.safe_get fun r _ => ?_
    refine Act.safe_ite (fun _ => ?_) fun _ => Act.safe_pure trivial
    exact .bind (Act.safe_modify fun r hr => hr) fun _ _ => Act.safe_pure trivial
  · refine .bind (safe_limitResponseRandom _) fun drop _ =>
      .bind (safe_onRecord (Q := fun _ => True) ?_) fun _ _ =>
      .bind (Act.safe_when fun _ => Act.safe_modify fun c hc =>
        hc.frame rfl rfl rfl rfl rfl) fun _ _ =>
        Act.safe_pure trivial
    refine .bind Act.safe_get fun r _ => Act.safe_ite (fun _ => ?_) fun _ => ?_
    · exact .bind (Act.safe_modify fun r hr => hr) fun _ _ => Act.safe_pure trivial
    · exact .bind (Act.safe_modify fun r hr => hr) fun _ _ => Act.safe_pure trivial

end

/-! ## Runs -/

inductive RecOp where
  | index (client : ClientIp)
  | access (s : Service) (client : ClientIp) (now : Timespec)
  | limit (s : Service) (idx : Nat)

def RecOp.run (draws : Nat) : RecOp → Act (ClientLog F) Unit
  | index client => do
    let _ ← getClientIndex draws client
  | access s client now => do
    let _ ← logServiceAccess draws s client now
  | limit s idx => do
    let _ ← limitServiceRate s idx

/-- One call after the other; a panic ends the run. -/
def recRun (draws : Nat) : List RecOp → Act (ClientLog F) Unit
  | [] => pure ()
  | op :: ops => do
    op.run draws
    recRun draws ops

theorem TableInv.atIdx (h : TableInv c) (idx : Nat) : ∃ k, AtIdx idx k c := by
  cases hr : c.records[idx]? with
  | none => exact ⟨none, h, fun r h1 => by rw [hr] at h1; cases h1⟩
  | some r => exact ⟨key r, h, fun r' h1 => by rw [hr] at h1; cases h1; rfl⟩

theorem TableInv.frame {c c' : ClientLog F} (h : TableInv c) (h1 : c'.records = c.records)
    (h2 : c'.slots = c.slots) (h3 : c'.maxSlots = c.maxSlots) (h4 : c'.hashSeed = c.hashSeed)
    (h5 : c'.active = c.active) : TableInv c' := by
  obtain ⟨k, hk⟩ := h.atIdx 0
  exact (hk.frame h1 h2 h3 h4 h5).1

/-- A lookup, and then a change of the record that was found. -/
theorem safe_lookup {α : Type} (draws : Nat) (ip : ClientIp) {f : Option Nat → Act (ClientLog F) α}
    (hf : ∀ res, Act.Safe TableInv (f res) fun _ => True) :
    Act.Safe TableInv (getRecord draws tableFuel ip >>= f) fun _ => True := by
  refine .bind (P := fun _ => True) (fun c hc => ?_) fun res _ => hf res
  obtain ⟨res, c', hget, hinv, -⟩ := getRecord_spec hc draws ip
  rw [hget]
  exact ⟨hinv, fun _ _ => trivial⟩

theorem safe_of_atIdx {α : Type} {idx : Nat} {x : Act (ClientLog F) α}
    (h : ∀ k, Act.Safe (AtIdx idx k) x fun _ => True) : Act.Safe TableInv x fun _ => True := by
  intro c hc
  obtain ⟨k, hk⟩ := hc.atIdx idx
  exact ⟨(h k c hk).1.1, fun _ _ => trivial⟩

theorem RecOp.safe (draws : Nat) (op : RecOp) :
    Act.Safe TableInv (op.run (F := F) draws) fun _ => True := by
  cases op with
  | index client =>
    refine .bind (safe_lookup draws client fun res => ?_) fun _ _ => Act.safe_pure trivial
    cases res <;> exact Act.safe_pure trivial
  | access s client now =>
    refine .bind (.bind (Act.safe_modify fun c hc => hc.frame rfl rfl rfl rfl rfl) fun _ _ =>
      safe_lookup draws client fun res => ?_) fun _ _ => Act.safe_pure trivial
    cases res with
    | none => exact Act.safe_pure trivial
    | some idx =>
      exact .bind (safe_of_atIdx fun _ => safe_updateRecord s now) fun _ _ => Act.safe_pure trivial
  | limit s idx =>
    exact .bind (safe_of_atIdx fun _ => safe_limitServiceRate s) fun _ _ => Act.safe_pure trivial

theorem recRun_safe (draws : Nat) (calls : List RecOp) :
    Act.Safe TableInv (recRun (F := F) draws calls) fun _ => True := by
  induction calls with
  | nil => exact Act.safe_pure trivial
  | cons op ops ih => exact .bind (op.safe draws) fun _ _ => ih

theorem new_start [F64 F] {draws : Nat} (hactive : config.noClientLog = false)
    (h : new draws config rng = .ok c) :
    c.records = List.replicate (1 * slotSize) Record.empty ∧ c.slots = 1 ∧
      c.maxSlots = maxSlotsFor config.clientLogLimit ∧ c.active = true := by
  rw [new] at h
  obtain ⟨ntp, -, h⟩ := bind_eq_ok.1 h
  obtain ⟨ntske, -, h⟩ := bind_eq_ok.1 h
  obtain ⟨cmdmon, -, h⟩ := bind_eq_ok.1 h
  simp only [hactive, Bool.false_eq_true, if_false] at h
  cases h
  exact ⟨rfl, rfl, rfl, rfl⟩

theorem new_empty [F64 F] {draws : Nat} (hactive : config.noClientLog = false)
    (h : new draws config rng = .ok c) :
    ∀ r ∈ c.records, key r = none := by
  intro r hr
  rw [(new_start hactive h).1] at hr
  rw [List.eq_of_mem_replicate hr]
  rfl

theorem new_tableInv [F64 F] {draws : Nat} (hactive : config.noClientLog = false)
    (h : new draws config rng = .ok c) : TableInv c := by
  have hempty := new_empty hactive h
  obtain ⟨h1, h2, h3, h4⟩ := new_start hactive h
  refine ⟨.of_empty (by rw [h1, h2, List.length_replicate]) hempty, ⟨0, h2⟩, ?_, ?_, fun _ =>
    hempty, ?_, h4⟩
  · rw [h2]
    exact Nat.le_max_left _ _
  · rw [h3, maxSlotsFor]
    exact Nat.min_le_right _ _
  · intro r hr ip hk
    rw [hempty r hr] at hk
    cases hk

/-- **The table, in every run.** From a new active log on, after any calls of the record interface
(up to and including one that panics), with any random bytes and any memory limit: the table has a
power of two of slots of 16 records, no more than the memory allows; every record in use is in the
slot its hash selects, those of a slot are at its front, and no address has two records. -/
theorem table_in_every_run [F64 F] (draws : Nat) (config : ClientLogConfig) (rng : Nat → UInt8)
    (hactive : config.noClientLog = false) (hnew : new draws config rng = .ok c)
    (calls : List RecOp) :
    let c' := (recRun draws calls c).2
    c'.records.length = c'.slots * 16 ∧ (∃ k, c'.slots = 2 ^ k) ∧ c'.slots ≤ max 1 c'.maxSlots ∧
    (∀ (i : Nat) r, c'.records[i]? = some r → r.ipAddr ≠ .unspec →
      i / 16 = (hashWith c'.hashSeed r.ipAddr).toNat % c'.slots) ∧
    (∀ (i j : Nat) r, i ≤ j → i / 16 = j / 16 → c'.records[j]? = some r → r.ipAddr ≠ .unspec →
      ∃ r', c'.records[i]? = some r' ∧ r'.ipAddr ≠ .unspec) ∧
    (∀ (i j : Nat) r r', c'.records[i]? = some r → c'.records[j]? = some r' → r.ipAddr ≠ .unspec →
      r.ipAddr = r'.ipAddr → i = j) := by
  intro c'
  have h : TableInv c' := (recRun_safe draws calls c (new_tableInv hactive hnew)).1
  refine ⟨h.table.length_eq, h.pow, h.slots_le, ?_, ?_, ?_⟩
  · intro i r hr hne
    exact h.table.placed i r r.ipAddr hr (key_eq_some.2 ⟨rfl, hne⟩)
  · intro i j r hij hslot hr hne
    obtain ⟨r', hr', hne'⟩ := h.table.filled i j r hij hslot hr fun h0 => hne (key_eq_none.1 h0)
    exact ⟨r', hr', fun h0 => hne' (key_eq_none.2 h0)⟩
  · intro i j r r' hr hr' hne he
    exact h.table.distinct i j r r' r.ipAddr hr hr' (key_eq_some.2 ⟨rfl, hne⟩)
      (key_eq_some.2 ⟨he.symm, hne⟩)

/-- A log with memory for two slots and seventeen clients in one slot. -/
def twoSlots : ClientLogConfig := ⟨fun _ => none, false, 3840⟩

def crowd : List RecOp := (List.range 17).map fun i => .index (.v4 (UInt32.ofNat (2 ^ 25 * i)))

def twoSlotsLog : ClientLog ℚ :=
  (activate 2 twoSlots.clientLogLimit (initial (fun
    | .ntp => unlimited
    | .ntske => unlimited
    | .cmdmon => unlimited) fun _ => 1)).2

theorem new_twoSlotsLog : new 2 twoSlots (fun _ => 1) = .ok twoSlotsLog := rfl

theorem table_in_every_run_crowd :
    (recRun 2 crowd twoSlotsLog).2.records.length = (recRun 2 crowd twoSlotsLog).2.slots * 16 :=
  (table_in_every_run 2 twoSlots (fun _ => 1) rfl new_twoSlotsLog crowd).1

/-- Sixteen clients in one slot. -/
theorem expansion_exact_crowd : ∃ records,
    expandWith (getRecord 2 2) (recRun 2 (crowd.take 16) twoSlotsLog).2 =
      (.ok true, { (recRun 2 (crowd.take 16) twoSlotsLog).2 with slots := 2, records }) := by
  have h : TableInv (recRun 2 (crowd.take 16) twoSlotsLog).2 :=
    (recRun_safe 2 _ twoSlotsLog (new_tableInv rfl new_twoSlotsLog)).1
  have hslots : (recRun 2 (crowd.take 16) twoSlotsLog).2.slots = 1 := by decide +kernel
  have hmax : (recRun 2 (crowd.take 16) twoSlotsLog).2.maxSlots = 2 := by decide +kernel
  obtain ⟨records, hexp, -⟩ := expansion_exact 1 h (by omega) 1
  rw [hslots] at hexp
  exact ⟨records, hexp⟩

-- the seventeenth client makes the table grow
example : (recRun 2 crowd twoSlotsLog).2.slots = 2 := by decide +kernel

end ChronyRs.L4.Server.ClientLog

import ChronyRs.L4Cmd.Dispatch
import ChronyRs.L4Server.RateLimit

/-!
# Command rate limiting on a clock that stands still

`read_from_cmd_socket` logs every request at the time `ClTimespec::new(0, 0)`, marked as a
placeholder for the real clock. The client log refills a bucket from the time between two hits,
which is therefore always zero: a record starts with `max_tokens`, each request takes
`tokens_per_hit`, and nothing comes back. A client that has used up its burst is from then on
answered by chance only, when the leak bits are zero, however long it waits between its requests.

* `hitRecord_frozen`: a hit at the time of the last one adds no token.
* `outcomes_served_iff`: exactly when a request is served, in every run of the daemon.
* `waiting_client_dropped`: one request in 8 seconds is allowed, and the second one, 100 seconds
  later, is dropped.

Fix: pass the receive time of the message to `log_service_access`.
-/
namespace ChronyRs.Bugs.FrozenClock

open L4.Server L4.Server.ClientLog
open ChronyRs.L4.Cmd (rateLimited)

variable {F α : Type} {draws : Nat} {c c' : ClientLog F} {ip : ClientIp}

/-! ## The log behind the command socket -/

/-- mirrors chrony-rs-io/cmdmon.rs:116-119 -/
def clientIp : IpAddr → ClientIp
  | .v4 a => .v4 a
  | .v6 a => .v6 (Vector.ofFn fun i => UInt8.ofNat (a.toNat >>> (8 * (15 - i.val))))

theorem client_clientIp (addr : IpAddr) : Client (clientIp addr) := by
  cases addr with
  | v4 a => exact .inl rfl
  | v6 a => exact .inr rfl

/-- The result of a method together with the state it leaves. -/
def returned (x : Act (ClientLog F) α) (c : ClientLog F) : Rust (ClientLog F × α) :=
  match x c with
  | (.ok a, c') => .ok (c', a)
  | (.error e, _) => .error e

theorem returned_eq_ok {x : Act (ClientLog F) α} {a : α} :
    returned x c = .ok (c', a) ↔ x c = (.ok a, c') := by
  rw [returned]
  cases hx : x c with
  | mk r c1 => cases r <;> simp [and_comm]

/-- A client log that takes the seed of its hash from at most so many draws. -/
def CmdLog (F : Type) (_draws : Nat) : Type := ClientLog F

/-- Both calls are made for `Cmdmon`, the first one at the time zero.
mirrors chrony-rs-io/cmdmon.rs:120-122 -/
instance instClientLogCmdLog : L4.Cmd.ClientLog (CmdLog F draws) where
  logServiceAccess log addr := returned (logServiceAccess draws .cmdmon (clientIp addr) ⟨0, 0⟩) log
  limitServiceRate log idx := do
    let (log, drop) ← returned (limitServiceRate .cmdmon idx) log
    pure (log, if drop then 1 else 0)

/-- What the daemon does with the log: it looks at a command request that arrived at some time, or
uses the log for something else. -/
inductive Use where
  | command (addr : IpAddr) (arrival : Timespec)
  | other (op : RecOp) (h : ∀ ip now, op ≠ .access .cmdmon ip now)

/-- The log after the use, and whether a request was dropped. -/
def Use.run (draws : Nat) : Use → ClientLog F → Rust (ClientLog F × Bool)
  | command addr _, c => do
    let (log, dropped) ← rateLimited (L := CmdLog F draws) (some c) addr
    pure (log.getD c, dropped)
  | other op _, c => do
    let (c, _) ← returned (op.run draws) c
    pure (c, false)

/-- The requests of one address, each with the log as the request found it and whether it was
dropped. -/
def outcomes (draws : Nat) (addr : IpAddr) : List Use → ClientLog F →
    Rust (List (ClientLog F × Bool))
  | [], _ => pure []
  | u :: us, c => do
    let (c', dropped) ← u.run draws c
    let rest ← outcomes draws addr us c'
    match u with
    | .command addr' _ => pure (if addr' = addr then (c, dropped) :: rest else rest)
    | .other _ _ => pure rest

/-! ## What a request does -/

/-- The word that the leak bits are taken from: the rest of the last one, or the next four random
bytes. -/
def leakWord (c : ClientLog F) : UInt32 :=
  if c.leakBitsLeft < c.leakRate .cmdmon then
    (c.rng 0).toUInt32 + (c.rng 1).toUInt32 * 0x100 + (c.rng 2).toUInt32 * 0x10000 +
      (c.rng 3).toUInt32 * 0x1000000
  else c.leakRnd

/-- The leak bits let a request through. -/
def Leaks (c : ClientLog F) : Prop := leakWord c % (1 <<< UInt32.ofNat (c.leakRate .cmdmon)) = 0

instance decidableLeaks (c : ClientLog F) : Decidable (Leaks c) :=
  inferInstanceAs (Decidable (_ = _))

theorem limitResponseRandom_drop (c : ClientLog F) :
    (limitResponseRandom (c.leakRate .cmdmon) c).1 = .ok (decide (¬ Leaks c)) := by
  simp only [limitResponseRandom, Act.bind_apply, Act.get, Act.when, Leaks, leakWord]
  by_cases h : c.leakBitsLeft < c.leakRate .cmdmon
  · simp only [if_pos h, Act.bind_apply, randomU32]
    rfl
  · simp only [if_neg h, Act.pure_apply]
    rfl

variable {r : Record} {d : Bool}

theorem limitServiceRate_dropped {idx : Nat} (hr : c.records[idx]? = some r)
    (h : limitServiceRate .cmdmon idx c = (.ok d, c')) :
    d = false ↔ c.tokensPerHit .cmdmon = 0 ∨ c.tokensPerHit .cmdmon ≤ r.tokens .cmdmon ∨
      Leaks c := by
  simp only [limitServiceRate, Act.bind_apply, Act.get] at h
  by_cases h0 : c.tokensPerHit .cmdmon = 0
  · rw [if_pos h0, Act.pure_apply] at h
    cases h
    exact iff_of_true rfl (.inl h0)
  rw [if_neg h0] at h
  rcases Nat.lt_or_ge (r.tokens .cmdmon) (c.tokensPerHit .cmdmon) with hlt | hle
  · -- the tokens do not suffice: the leak bits decide
    have hidx := (List.getElem?_eq_some_iff.1 hr).1
    simp only [Act.bind_apply, onRecord, hr, spendRecord_of_lt hlt, Bool.false_eq_true,
      if_false] at h
    have hdrop := limitResponseRandom_drop
      { c with records := c.records.set idx { r with
        dropFlags := r.dropFlags &&& ~~~ serviceBit .cmdmon } }
    obtain ⟨drop, rnd, bits, rng, hrandom⟩ := limitResponseRandom_spec (c.leakRate .cmdmon)
      { c with records := c.records.set idx { r with
        dropFlags := r.dropFlags &&& ~~~ serviceBit .cmdmon } }
    rw [hrandom] at hdrop
    simp only [hrandom, List.getElem?_set_self hidx, leakRecord, Act.bind_apply, Act.get,
      reduceCtorEq, false_and, if_false] at h
    have hd : d = drop := by
      cases drop with
      | false => cases h; rfl
      | true => cases h; rfl
    have hleak : drop = decide (¬ Leaks c) := Except.ok.inj hdrop
    rw [hd, hleak, decide_eq_false_iff_not, not_not]
    exact ⟨fun hl => .inr (.inr hl), fun hl => (hl.resolve_left h0).resolve_left (Nat.not_le.2 hlt)⟩
  · simp only [Act.bind_apply, onRecord, hr, (spendRecord_of_le hle).1, if_true,
      Act.pure_apply] at h
    cases h
    exact iff_of_true rfl (.inr (.inl hle))

/-- No time passes, no token comes back. -/
theorem refill_self {shift : Int} (hs : -15 ≤ shift ∧ shift < 32) (m : Nat) (t : UInt32) :
    refill shift m t t = .ok 0 := by
  rw [refill]
  by_cases h0 : 0 ≤ shift
  · rw [if_pos h0, if_pos hs.2, UInt32.sub_self]
    rfl
  · rw [if_neg h0, UInt32.sub_self, if_neg (show ¬ m <
      UInt32.toNat 0 from Nat.not_lt_zero m), shlU32, if_pos (by omega)]
    simp

/-- **A hit at the time of the last one adds no token.** -/
theorem hitRecord_frozen {m : Nat} (hm : m < 2 ^ 16) {shift : Int} (hs : -15 ≤ shift ∧ shift < 32)
    {s : L4.Server.Service} {now : UInt32} (hl : r.tokens s ≤ m)
    (hlast : r.lastHit s = invalidTs ∨ r.lastHit s = now) :
    (hitRecord m shift s now r).2.tokens s = r.tokens s := by
  simp only [hitRecord, Act.bind_apply, Act.get, Act.modify]
  by_cases hearly : r.lastHit s = invalidTs ∨ (now - r.lastHit s).toInt32 < 0
  · simp only [if_pos hearly, Act.pure_apply]
  · have hnow := hlast.resolve_left fun h => hearly (.inl h)
    have hmin : min (r.tokens s) m % 2 ^ 16 = r.tokens s := by omega
    rw [if_neg hearly]
    simp only [Act.bind_apply, Act.lift, hnow, refill_self hs, Nat.add_zero,
      u32_of_lt (show r.tokens s < 2 ^ 32 by omega), hmin]
    cases interval2 (now - now) with
    | error e => exact Function.update_self s _ _
    | ok i2 =>
      simp only [Act.modify]
      split <;> exact Function.update_self s _ _

/-- The leak bits are untouched when the record of a client is found. -/
theorem access_leaks (h : TableInv c) (hc : Client ip) (hr : r ∈ c.records) (hk : key r = some ip)
    {i : Int}
    (hret : logServiceAccess draws .cmdmon ip ⟨0, 0⟩ c = (.ok i, c')) : Leaks c' ↔ Leaks c := by
  rw [logServiceAccess] at hret
  obtain ⟨_, c0, hmod, hlookup⟩ := Act.bind_eq_ok.1 hret
  obtain ⟨res, c1, hget, hhit⟩ := Act.bind_eq_ok.1 hlookup
  have hc0 := (Act.modify_eq_ok.1 hmod).symm
  have h0 : TableInv c0 := hc0 ▸ h.frame rfl rfl rfl rfl rfl
  have hr0 : r ∈ c0.records := by rwa [hc0]
  cases draws with
  | zero =>
    rw [show tableFuel = 31 + 1 from rfl, getRecord_unseeded 0 31 h0.active hc rfl] at hget
    cases hget
  | succ draws =>
    obtain ⟨idx, hidx, hfound⟩ := getRecord_of_has draws h0 hc hr0 hk 31
    obtain ⟨hres, hc1⟩ := Prod.mk.inj (hfound.symm.trans hget)
    rw [← Except.ok.inj hres, ← hc1] at hhit
    obtain ⟨_, c2, hupd, hlast⟩ := Act.bind_eq_ok.1 hhit
    obtain ⟨-, rfl⟩ := Act.pure_eq_ok.1 hlast
    simp only [updateRecord, Act.bind_apply, Act.get, onRecord, hidx] at hupd
    rw [← (Prod.mk.inj hupd).2, hc0]
    exact Iff.rfl

/-! ## The invariant -/

/-- Every client was last seen at the time zero, if at all. -/
structure Frozen (c : ClientLog F) : Prop where
  metered : Metered c
  enough : c.tokensPerHit .cmdmon ≤ c.maxTokens .cmdmon
  lastHit : ∀ r ∈ c.records, key r ≠ none →
    r.lastHit .cmdmon = invalidTs ∨ r.lastHit .cmdmon = c.getTsFromTimespec ⟨0, 0⟩

theorem Frozen.of_was (h : Frozen c) (hr : Was c ip r) :
    r.lastHit .cmdmon = invalidTs ∨ r.lastHit .cmdmon = c.getTsFromTimespec ⟨0, 0⟩ := by
  rcases hr with ⟨hk, hr | ⟨rfl, -⟩⟩
  · exact h.lastHit r hr (by simp [hk])
  · exact .inl rfl

theorem Frozen.call (h : Frozen c) {op : RecOp}
    (hop : ∀ ip now, op = .access .cmdmon ip now → now = ⟨0, 0⟩)
    (hret : op.run draws c = (.ok (), c')) :
    Frozen c' := by
  have hset := RecOp.sameSetup h.metered.table hret
  refine ⟨h.metered.call hret, ?_, ?_⟩
  · rw [hset.tokensPerHit, hset.maxTokens]
    exact h.enough
  · intro r' hr' hk'
    obtain ⟨ip, hk'⟩ := Option.ne_none_iff_exists'.1 hk'
    obtain ⟨r, hwas, hb⟩ := RecOp.became h.metered.table hret hr' hk'
    have hold := h.of_was hwas
    rw [hb.lastHit .cmdmon, show c'.getTsFromTimespec ⟨0, 0⟩ = c.getTsFromTimespec ⟨0, 0⟩ by
      simp only [getTsFromTimespec, hset.tsOffset]]
    cases op with
    | index client => exact hold
    | limit s idx => exact hold
    | access s client now =>
      rw [RecOp.hit]
      by_cases hs : s = .cmdmon ∧ client = ip
      · rw [if_pos hs, hop client now (by rw [hs.1])]
        exact .inr rfl
      · rw [if_neg hs]
        exact hold

theorem new_frozen [F64 F] {config : ClientLogConfig} {rng : Nat → UInt8}
    (hactive : config.noClientLog = false) (h : new draws config rng = .ok c) : Frozen c := by
  refine ⟨new_metered hactive h, ?_, fun r hr hk => absurd (new_empty hactive h r hr) hk⟩
  obtain ⟨leak, interval, hp⟩ := new_params hactive h .cmdmon
  cases hrl : config.ratelimit .cmdmon with
  | none =>
    rw [hrl, serviceParams, unlimited] at hp
    simp only [Except.ok.injEq, Prod.mk.injEq] at hp
    rw [← hp.1, ← hp.2.1]
  | some rl =>
    obtain ⟨ts, b, tpp, hb, -, -, -, hset, -⟩ :=
      setBucketParams_spec rl.interval.toInt rl.burst.toInt
    simp only [hrl, serviceParams, hset, ok_bind, Except.ok.injEq, Prod.mk.injEq] at hp
    rw [← hp.1, ← hp.2.1]
    exact Nat.le_mul_of_pos_right _ (by omega)

/-! ## Requests -/

/-- A request that is not dropped: there is no limit, or the client has no record yet, or it has not
used up the tokens that its record started with, or the leak bits let it through. -/
def Served (c : ClientLog F) (ip : ClientIp) : Prop :=
  c.tokensPerHit .cmdmon = 0 ∨
  (∀ r ∈ c.records, key r = some ip → c.tokensPerHit .cmdmon ≤ r.tokens .cmdmon) ∨ Leaks c

theorem rateLimited_inv {addr : IpAddr} {log : Option (CmdLog F draws)}
    (h : rateLimited (L := CmdLog F draws) (some c) addr = .ok (log, d)) :
    ∃ i c1, logServiceAccess draws .cmdmon (clientIp addr) ⟨0, 0⟩ c = (.ok i, c1) ∧
      ((0 ≤ i ∧ ∃ c2, log = some c2 ∧ limitServiceRate .cmdmon i.toNat c1 = (.ok d, c2)) ∨
        i < 0 ∧ d = false ∧ log = some c1) := by
  unfold rateLimited at h
  obtain ⟨⟨c1, i⟩, h1, h⟩ := bind_eq_ok.1 h
  refine ⟨i, c1, returned_eq_ok.1 h1, ?_⟩
  dsimp only at h
  by_cases hi : 0 ≤ i
  · rw [if_pos hi] at h
    obtain ⟨⟨c2, drop⟩, h2, h⟩ := bind_eq_ok.1 h
    obtain ⟨⟨c3, d3⟩, h3, h2⟩ := bind_eq_ok.1 h2
    cases h2
    obtain ⟨rfl, hd⟩ := Prod.mk.inj (Except.ok.inj h)
    have hd3 : d3 = d := by rw [← hd]; cases d3 <;> rfl
    exact .inl ⟨hi, _, rfl, hd3 ▸ returned_eq_ok.1 h3⟩
  · rw [if_neg hi] at h
    obtain ⟨rfl, rfl⟩ := Prod.mk.inj (Except.ok.inj h)
    exact .inr ⟨by omega, rfl, rfl⟩

theorem Frozen.use (h : Frozen c) {u : Use} (hrun : u.run draws c = .ok (c', d)) : Frozen c' := by
  cases u with
  | command addr arrival =>
    obtain ⟨⟨log, d1⟩, hlim, hrun⟩ := bind_eq_ok.1 hrun
    obtain ⟨rfl, rfl⟩ := Prod.mk.inj (Except.ok.inj hrun)
    obtain ⟨i, c1, h1, hrest⟩ := rateLimited_inv hlim
    have haccess : (RecOp.access .cmdmon (clientIp addr) ⟨0, 0⟩).run draws c = (.ok (), c1) := by
      rw [RecOp.run, Act.bind_apply, h1]
      rfl
    have hc1 : Frozen c1 := h.call (by rintro _ _ ⟨⟩; rfl) haccess
    rcases hrest with ⟨-, c2, rfl, h2⟩ | ⟨-, -, rfl⟩
    · have hlimit : (RecOp.limit .cmdmon i.toNat).run draws c1 = (.ok (), c2) := by
        rw [RecOp.run, Act.bind_apply, h2]
        rfl
      exact hc1.call (by rintro _ _ ⟨⟩) hlimit
    · exact hc1
  | other op hop =>
    obtain ⟨⟨c1, u⟩, h1, hrun⟩ := bind_eq_ok.1 hrun
    cases hrun
    exact h.call (fun ip now he => absurd he (hop ip now)) (returned_eq_ok.1 h1)

theorem asI32_index (h : TableInv c) {idx : Nat} (hr : c.records[idx]? = some r) :
    asI32 idx = idx := by
  have hlt := (List.getElem?_eq_some_iff.1 hr).1
  have hslots : c.slots ≤ 1048576 := h.slots_le.trans (max_le (by omega) h.cap)
  have hlen : c.records.length = c.slots * 16 := h.table.length_eq
  exact asI32_of_lt (by omega)

/-- **One request.** -/
theorem request_served_iff (h : Frozen c) {addr : IpAddr} {log : Option (CmdLog F draws)}
    (hrun : rateLimited (L := CmdLog F draws) (some c) addr = .ok (log, d)) :
    d = false ↔ Served c (clientIp addr) := by
  obtain ⟨i, c1, h1, hrest⟩ := rateLimited_inv hrun
  have hc := client_clientIp addr
  obtain ⟨cm, hinv, hset, hcarry, ⟨hno, -⟩ | ⟨idx, r, hr, hk, hrec, hi⟩⟩ :=
    logServiceAccess_spec h.metered.table h1
  · exact absurd hc hno
  rw [asI32_index hinv hr] at hi
  obtain ⟨-, c2, -, h2⟩ := hrest.resolve_right (by omega)
  rw [hi, Int.toNat_natCast] at h2
  -- the record as the second call finds it
  have hlt := (List.getElem?_eq_some_iff.1 hr).1
  have hr1 := hrec ▸ List.getElem?_set_self hlt
  have hwas : Was c (clientIp addr) r := hcarry.was (List.mem_of_getElem? hr) hk
  obtain ⟨hm, hs⟩ := h.metered.setup .cmdmon
  have htok := hitRecord_frozen hm hs (h.metered.of_was hwas .cmdmon) (h.of_was hwas)
  rw [limitServiceRate_dropped hr1 h2, htok, hset.tokensPerHit, Served]
  rcases hwas with ⟨-, hmem | ⟨rfl, hnone⟩⟩
  · rw [access_leaks h.metered.table hc hmem hk h1]
    refine or_congr_right (or_congr_left ⟨fun hle r' hr' hk' => ?_, fun hall => hall r hmem hk⟩)
    exact h.metered.table.was_eq ⟨hk, .inl hmem⟩ hr' hk' ▸ hle
  · -- a new record starts with all its tokens
    exact iff_of_true (.inr (.inl h.enough))
      (.inr (.inl fun r' hr' hk' => absurd hk' (hnone r' hr')))

/-- **When requests are served.** For every configuration, in every run of the daemon from a new log
on, with requests arriving at any times, a request of an address is not dropped iff it is `Served`,
a condition in which no time occurs. -/
theorem outcomes_served_iff [F64 F] (config : ClientLogConfig) (rng : Nat → UInt8)
    (hactive : config.noClientLog = false) (hnew : new draws config rng = .ok c) (addr : IpAddr)
    (uses : List Use) (os : List (ClientLog F × Bool))
    (hrun : outcomes draws addr uses c = .ok os) :
    ∀ o ∈ os, (o.2 = false ↔ Served o.1 (clientIp addr)) := by
  have h := new_frozen hactive hnew
  clear hnew
  induction uses generalizing c os with
  | nil =>
    cases hrun
    simp
  | cons u us ih =>
    obtain ⟨⟨c1, d⟩, h1, hrun⟩ := bind_eq_ok.1 hrun
    obtain ⟨rest, h2, hrun⟩ := bind_eq_ok.1 hrun
    have hrest := ih rest h2 (h.use h1)
    cases u with
    | other op hop =>
      cases hrun
      exact hrest
    | command addr' arrival =>
      dsimp only at hrun
      split at hrun
      · next heq =>
        cases hrun
        obtain ⟨⟨log, d1⟩, hlim, h1⟩ := bind_eq_ok.1 h1
        cases h1
        rw [List.forall_mem_cons]
        exact ⟨heq ▸ request_served_iff h hlim, hrest⟩
      · cases hrun
        exact hrest

/-- Commands limited to one in 8 seconds, without a burst, where one of two excess requests
leaks. -/
def oneCommand : ClientLogConfig :=
  ⟨fun s => if s = .cmdmon then some ⟨3, 1, 1⟩ else none, false, 3840⟩

def oneCommandLog : ClientLog ℚ :=
  (activate 2 oneCommand.clientLogLimit (initial (fun
    | .ntp => unlimited
    | .ntske => unlimited
    | .cmdmon => (128, 128, 0, 1, 3)) fun _ => 1)).2

theorem new_oneCommandLog : new 2 oneCommand (fun _ => 1) = .ok oneCommandLog := rfl

def patient : List Use := [.command (.v4 1) ⟨1000, 0⟩, .command (.v4 1) ⟨1100, 0⟩]

/-- **The second request is dropped.** -/
theorem waiting_client_dropped : new 2 oneCommand (fun _ => 1) = .ok oneCommandLog ∧
    (outcomes 2 (.v4 1) patient oneCommandLog).map (List.map Prod.snd) = .ok [false, true] :=
  ⟨new_oneCommandLog, by decide +kernel⟩

theorem outcomes_served_iff_first : Served oneCommandLog (clientIp (.v4 1)) :=
  (outcomes_served_iff oneCommand (fun _ => 1) rfl new_oneCommandLog (.v4 1)
    [.command (.v4 1) ⟨1000, 0⟩]
    [(oneCommandLog, false)] rfl (oneCommandLog, false) (List.mem_singleton.2 rfl)).1 rfl

end ChronyRs.Bugs.FrozenClock

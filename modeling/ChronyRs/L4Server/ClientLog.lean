import Mathlib.Logic.Function.Basic
import ChronyRs.L4Server.TimestampMap

/-!
# The client access log and rate limiter

Model of clientlog.rs: a hash table of client records in slots of 16,
doubled when a slot is full and there is memory left, with the oldest record of a full slot
evicted otherwise; per record and service a token bucket refilled from the time between hits; and
the map of interleaved-mode timestamps (`TimestampMap`).

Arrays over the services are functions of the service. The random bytes that were not drawn yet
are a stream. `get_record` and `expand_hashtable` call each other: `getRecord` runs on fuel, and
`expandWith` takes the `get_record` it calls as an argument. The statistics are unbounded counters.
-/
namespace ChronyRs.L4.Server

/-! ## Services, addresses, records -/

/-- mirrors clientlog.rs:68-75 -/
inductive Service where
  | ntp | ntske | cmdmon
  deriving DecidableEq, Repr

/-- `service.index()`. -/
def Service.index : Service → Nat
  | ntp => 0
  | ntske => 1
  | cmdmon => 2

def slotSize : Nat := 16
def minSlots : Nat := 1
def maxSlotsCap : Nat := 2 ^ 20
def tsFrac : Int := 4
def invalidTs : UInt32 := 0
def rateScale : Int := 4
def minRate : Int := -14 * rateScale
def invalidRate : Int := -128
def minLimitInterval : Int := -15 - tsFrac
def maxLimitInterval : Int := 12
def minLimitBurst : Int := 1
def maxLimitBurst : Int := 255
def minLeakRate : Int := 1
def maxLeakRate : Int := 4
def recordSize : Nat := 64
def ntptsSize : Nat := 16

/-- mirrors clientlog.rs:227-236 -/
inductive ClientIp where
  | unspec
  | v4 (a : UInt32)
  | v6 (a : Vector UInt8 16)
  | id (n : UInt32)
  deriving DecidableEq, Repr

/-- mirrors clientlog.rs:239-246 -/
def ClientIp.family : ClientIp → Int
  | unspec => 0
  | v4 _ => 1
  | v6 _ => 2
  | id _ => 3

/-- mirrors clientlog.rs:251-260 -/
structure Record where
  ipAddr : ClientIp
  lastHit : Service → UInt32
  hits : Service → UInt32
  drops : Service → UInt16
  tokens : Service → Nat
  rate : Service → Int
  ntpTimeoutRate : Int
  dropFlags : UInt8

/-- mirrors clientlog.rs:263-274 -/
def Record.empty : Record where
  ipAddr := .unspec
  lastHit := fun _ => 0
  hits := fun _ => 0
  drops := fun _ => 0
  tokens := fun _ => 0
  rate := fun _ => 0
  ntpTimeoutRate := 0
  dropFlags := 0

/-- mirrors clientlog.rs:310-317 -/
structure RateLimit where
  interval : Int32
  burst : Int32
  leakRate : Int32

/-- mirrors clientlog.rs:321-332 -/
structure ClientLogConfig where
  ratelimit : Service → Option RateLimit
  noClientLog : Bool
  clientLogLimit : UInt64

/-- mirrors clientlog.rs:407-434 -/
structure ClientLog (F : Type) where
  records : List Record
  slots : Nat
  maxSlots : Nat
  tsOffset : UInt32
  hashSeed : UInt32
  maxTokens : Service → Nat
  tokensPerHit : Service → Nat
  tokenShift : Service → Int
  leakRate : Service → Nat
  limitInterval : Service → Int
  active : Bool
  ntpTsMap : NtpTimestampMap F
  totalHits : Service → Nat
  totalDrops : Service → Nat
  totalNtpInterleavedHits : Nat
  totalRecordDrops : Nat
  leakRnd : UInt32
  leakBitsLeft : Nat
  /-- the bytes the injected source will return -/
  rng : Nat → UInt8

namespace ClientLog

variable {F : Type}

/-! ## Random numbers and hashes -/

/-- mirrors clientlog.rs:462-470 -/
def randomU32 : Act (ClientLog F) UInt32 := fun c =>
  let v := (c.rng 0).toUInt32 + (c.rng 1).toUInt32 * 0x100 + (c.rng 2).toUInt32 * 0x10000 +
    (c.rng 3).toUInt32 * 0x1000000
  (.ok v, { c with rng := fun n => c.rng (n + 4) })

/-- `u32::to_ne_bytes` on the little-endian reference platform. -/
def neBytes (x : UInt32) : Bytes := (be32 x).reverse

/-- The bytes of an address that are hashed; the unspecified address has none. -/
def hashBytes : ClientIp → Option Bytes
  | .v4 a => some (neBytes a)
  | .v6 a => some a.toList
  | .id n => some (neBytes n)
  | .unspec => none

/-- The hash, once there is a seed. -/
def hashWith (seed : UInt32) (ip : ClientIp) : UInt32 :=
  match hashBytes ip with
  | none => 0
  | some bytes => bytes.foldl (fun hash byte => 71 * hash + byte.toUInt32) seed + seed

/-- `while self.hash_seed == 0`: the argument bounds the number of rounds.
mirrors clientlog.rs:485-487 -/
def drawSeed : Nat → Act (ClientLog F) Unit
  | 0 => Act.lift (.error .fuel)
  | draws + 1 => do
    let c ← Act.get
    if c.hashSeed = 0 then do
      let seed ← randomU32
      Act.modify fun c => { c with hashSeed := seed }
      drawSeed draws
    else pure ()

/-- mirrors clientlog.rs:473-494 -/
def ipToHash (draws : Nat) (ip : ClientIp) : Act (ClientLog F) UInt32 :=
  if hashBytes ip = none then pure 0
  else do
    drawSeed draws
    let c ← Act.get
    pure (hashWith c.hashSeed ip)

/-! ## Comparisons -/

/-- mirrors clientlog.rs:498-510 -/
def compareTs (x y : UInt32) : Int :=
  if x = y then 0
  else if y = invalidTs then 1
  else if 0 < (x - y).toInt32 then 1 else -1

def allServices : List Service := [.ntp, .ntske, .cmdmon]

/-- mirrors clientlog.rs:513-525 -/
def compareTotalHits (x y : Record) : Int :=
  let xh := allServices.foldl (fun n s => n + x.hits s) 0
  let yh := allServices.foldl (fun n s => n + y.hits s) 0
  if yh < xh then 1 else -1

/-- The first difference of two byte strings, or zero. -/
def compareBytes : Bytes → Bytes → Int
  | x :: xs, y :: ys =>
    if (x.toNat : Int) - y.toNat = 0 then compareBytes xs ys else x.toNat - y.toNat
  | _, _ => 0

/-- mirrors clientlog.rs:780-799 -/
def compareIps (a b : ClientIp) : Int :=
  if a.family ≠ b.family then a.family - b.family
  else
    match a, b with
    | .v4 x, .v4 y => (x - y).toInt32.toInt
    | .id x, .id y => (x - y).toInt32.toInt
    | .v6 x, .v6 y => compareBytes x.toList y.toList
    | _, _ => 0

/-! ## The record table -/

inductive Scan where
  | found (idx : Nat)
  | empty (idx : Nat)
  | full (oldest : Option Nat)

/-- The most recent hit of a record over all services. The argument is `last_hit` so far, which
the first service always replaces.
mirrors clientlog.rs:728-732 -/
def newestHit (r : Record) (lastHit : UInt32) : UInt32 :=
  allServices.foldl
    (fun h s => if s = .ntp ∨ compareTs h (r.lastHit s) < 0 then r.lastHit s else h) lastHit

/-- The scan of the slot that starts at `first`. The first argument is the number of records left,
`i` the position in the slot.
mirrors clientlog.rs:714-748 -/
def scan (records : List Record) (ip : ClientIp) (first : Nat) :
    Nat → Nat → Option Nat → UInt32 → UInt32 → Rust Scan
  | 0, _, oldest, _, _ => .ok (.full oldest)
  | n + 1, i, oldest, oldestHit, lastHit => do
    let r ← index records (first + i)
    if compareIps ip r.ipAddr = 0 then .ok (.found (first + i))
    else if r.ipAddr = .unspec then .ok (.empty (first + i))
    else do
      let lastHit := newestHit r lastHit
      let replace ← match oldest with
        | none => pure true
        | some o =>
          if 0 < compareTs oldestHit lastHit then pure true
          else if oldestHit = lastHit then do
            let old ← index records o
            pure (decide (0 < compareTotalHits old r))
          else pure false
      if replace then scan records ip first n (i + 1) (some (first + i)) lastHit lastHit
      else scan records ip first n (i + 1) oldest oldestHit lastHit

/-- `records[idx] = r`. -/
def putRecord (idx : Nat) (r : Record) : Act (ClientLog F) Unit := do
  let c ← Act.get
  let _ ← Act.lift (index c.records idx)
  Act.modify fun c => { c with records := c.records.set idx r }

/-- A new record for `ip`.
mirrors clientlog.rs:766-774 -/
def freshRecord (c : ClientLog F) (ip : ClientIp) : Record where
  ipAddr := ip
  lastHit := fun _ => invalidTs
  hits := fun _ => 0
  drops := fun _ => 0
  tokens := c.maxTokens
  rate := fun _ => invalidRate
  ntpTimeoutRate := invalidRate
  dropFlags := 0

/-- The loop of `expand_hashtable` over the old records, given `get_record`.
mirrors clientlog.rs:683-689 -/
def rehash (getRecord : ClientIp → Act (ClientLog F) (Option Nat)) :
    List Record → Act (ClientLog F) Unit
  | [] => pure ()
  | old :: rest =>
    if old.ipAddr = .unspec then rehash getRecord rest
    else do
      let idx ← getRecord old.ipAddr
      match idx with
      | none => Act.lift (.error .unwrap)
      | some idx => do
        putRecord idx old
        rehash getRecord rest

/-- `expand_hashtable`, given `get_record`. Whether the table grew.
mirrors clientlog.rs:667-692 -/
def expandWith (getRecord : ClientIp → Act (ClientLog F) (Option Nat)) :
    Act (ClientLog F) Bool := do
  let c ← Act.get
  if c.records ≠ [] ∧ c.maxSlots < 2 * c.slots then pure false
  else do
    let slots := max minSlots (2 * c.slots)
    Act.modify fun c =>
      { c with slots := slots, records := List.replicate (slots * slotSize) Record.empty }
    -- with no old records the loop does nothing
    rehash getRecord c.records
    pure true

/-- Start a record for `ip` at `idx`. -/
def initRecord (ip : ClientIp) (idx : Nat) : Act (ClientLog F) (Option Nat) := do
  let c ← Act.get
  putRecord idx (c.freshRecord ip)
  pure (some idx)

/-- What `get_record` does after the scan, given `expand_hashtable` and the next round of its loop.
mirrors clientlog.rs:750-777 -/
def takeSlot (ip : ClientIp) (expand : Act (ClientLog F) Bool)
    (retry : Act (ClientLog F) (Option Nat)) : Scan → Act (ClientLog F) (Option Nat)
  | .found idx => pure (some idx)
  | .empty idx => initRecord ip idx
  | .full oldest => do
    -- resize and retry: the new slot may have empty records
    let grown ← expand
    if grown then retry
    else
      match oldest with
      | none => Act.lift (.error .unwrap)
      | some idx => do
        Act.modify fun c => { c with totalRecordDrops := c.totalRecordDrops + 1 }
        initRecord ip idx

def slotOf (c : ClientLog F) (ip : ClientIp) : Nat :=
  (hashWith c.hashSeed ip).toNat % c.slots * slotSize

/-- mirrors clientlog.rs:696-777 -/
def getRecord (draws : Nat) : Nat → ClientIp → Act (ClientLog F) (Option Nat)
  | 0, _ => Act.lift (.error .fuel)
  | fuel + 1, ip => do
    let c ← Act.get
    if c.active = false ∨ (ip.family ≠ 1 ∧ ip.family ≠ 2) then pure none
    else do
      let hash ← ipToHash draws ip
      let c ← Act.get
      let r ← Act.lift (scan c.records ip (hash.toNat % c.slots * slotSize) slotSize 0 none 0 0)
      takeSlot ip (expandWith (getRecord draws fuel)) (getRecord draws fuel ip) r

/-- Enough fuel: the table is doubled at most 20 times. -/
def tableFuel : Nat := 32

/-! ## Token buckets -/

/-- mirrors clientlog.rs:455-457 -/
def clampI32 (lo x hi : Int) : Int := min (max x lo) hi

/-- `x << n` on an `i32`: the amount is checked, the bits that fall off are lost. -/
def shlI32 (x n : Int) : Rust Int :=
  if 0 ≤ n ∧ n < 32 then .ok (Int.bmod (x * 2 ^ n.toNat) (2 ^ 32)) else .error .overflow

/-- `x << n` on a `u32`. -/
def shlU32 (x : Nat) (n : Int) : Rust Nat :=
  if 0 ≤ n ∧ n < 32 then .ok (x * 2 ^ n.toNat % 2 ^ 32) else .error .overflow

/-- The loop that finds the token shift. The first argument is the number of steps left.
mirrors clientlog.rs:549-554 -/
def shiftLoop (interval burst : Int) : Nat → Int → Rust Int
  | 0, tokenShift => .ok tokenShift
  | n + 1, tokenShift => do
    if tokenShift < interval + tsFrac then do
      let b ← shlI32 burst (tsFrac + interval - tokenShift)
      if b < 2 ^ 16 then .ok tokenShift else shiftLoop interval burst n (tokenShift + 1)
    else .ok tokenShift

/-- The token shift and the burst, for a clamped interval and burst.
mirrors clientlog.rs:547-559 -/
def bucketShift (interval burst : Int) : Rust (Int × Int) :=
  if -tsFrac ≤ interval then do
    let tokenShift ← shiftLoop interval burst (interval + tsFrac).toNat 0
    .ok (tokenShift, burst)
  else do
    -- coarse rate limiting
    let tokenShift := interval + tsFrac
    let b ← shlI32 1 (-tokenShift)
    .ok (tokenShift, max burst b)

/-- The capacity, the tokens per hit and the token shift.
mirrors clientlog.rs:542-565 -/
def setBucketParams (interval burst : Int) : Rust (Nat × Nat × Int) := do
  let interval := clampI32 minLimitInterval interval maxLimitInterval
  let burst := clampI32 minLimitBurst burst maxLimitBurst
  let (tokenShift, burst) ← bucketShift interval burst
  let tokensPerPacket ← shlU32 1 (tsFrac + interval - tokenShift)
  let maxTokens ← u32 (tokensPerPacket * burst.toNat)
  .ok (maxTokens % 2 ^ 16, tokensPerPacket % 2 ^ 16, tokenShift)

/-- mirrors clientlog.rs:529-538 -/
def getTsFromTimespec (c : ClientLog F) (ts : Timespec) : UInt32 :=
  let sec := UInt32.ofInt ts.tvSec
  let nsec := UInt32.ofInt ts.tvNsec + c.tsOffset
  let (sec, nsec) := if 1000000000 ≤ nsec then (sec + 1, nsec - 1000000000) else (sec, nsec)
  (sec <<< 4) ||| (((140740 : UInt32) * (nsec >>> 15)) >>> 28)

/-- `x as i8`. -/
def asI8 (x : Int) : Int := Int.bmod x (2 ^ 8)

/-- mirrors clientlog.rs:874-890 -/
def updateRate (rate interval2 : Int) : Int :=
  if rate = invalidRate then asI8 (-interval2)
  else if rate < -interval2 then asI8 (rate + 1)
  else if -interval2 < rate then
    if rateScale * 5 / 2 - interval2 < rate then asI8 (rateScale * 5 / 2 - interval2)
    else asI8 ((rate - interval2 - 1).tdiv 2)
  else rate

/-- The loop of the scaled, rounded logarithm. The first argument is the number of steps left.
mirrors clientlog.rs:842-848 -/
def log2Loop : Nat → Nat → Int → Int
  | 0, _, i2 => i2
  | n + 1, iv, i2 =>
    if i2 < -minRate then if iv ≤ 1 then i2 else log2Loop n (iv / 2) (i2 + rateScale) else i2

/-- mirrors clientlog.rs:839-852 -/
def interval2 (interval : UInt32) : Rust Int :=
  if interval ≠ 0 then do
    let iv ← u32 (interval.toNat + interval.toNat / 2)
    .ok (log2Loop 18 iv (-rateScale * tsFrac))
  else .ok (-rateScale * (tsFrac + 1))

/-- The tokens a record gets for the time between two hits.
mirrors clientlog.rs:825-831 -/
def refill (tshift : Int) (mtokens : Nat) (nowTs prevHit : UInt32) : Rust Nat :=
  if 0 ≤ tshift then
    if tshift < 32 then
      .ok ((nowTs >>> UInt32.ofInt tshift) - (prevHit >>> UInt32.ofInt tshift)).toNat
    else .error .overflow
  else if mtokens < (nowTs - prevHit).toNat then .ok mtokens
  else shlU32 (nowTs - prevHit).toNat (-tshift)

/-- A method that works on the record at `idx` only. -/
def onRecord {α : Type} (idx : Nat) (x : Act Record α) : Act (ClientLog F) α := fun c =>
  match c.records[idx]? with
  | none => (.error .index, c)
  | some r => ((x r).1, { c with records := c.records.set idx (x r).2 })

/-- `1u8 << s`. -/
def serviceBit (s : Service) : UInt8 := 1 <<< UInt8.ofNat s.index

/-- `update_record` on the record itself, at the hit timestamp `nowTs`.
mirrors clientlog.rs:806-869 -/
def hitRecord (mtokens : Nat) (tshift : Int) (s : Service) (nowTs : UInt32) : Act Record Unit := do
  let r ← Act.get
  let prevHit := r.lastHit s
  Act.modify fun r => { r with lastHit := Function.update r.lastHit s nowTs
                               hits := Function.update r.hits s (r.hits s + 1) }
  let interval := nowTs - prevHit
  if prevHit = invalidTs ∨ interval.toInt32 < 0 then pure ()
  else do
    let tokens ← Act.lift (refill tshift mtokens nowTs prevHit)
    let sum ← Act.lift (u32 (r.tokens s + tokens))
    Act.modify fun r => { r with tokens := Function.update r.tokens s (min sum mtokens % 2 ^ 16) }
    let i2 ← Act.lift (interval2 interval)
    -- for NTP, whether the client's previous request was answered or dropped
    if s = .ntp ∧ r.dropFlags &&& serviceBit s ≠ 0 then
      Act.modify fun r => { r with ntpTimeoutRate := updateRate r.ntpTimeoutRate i2 }
    else Act.modify fun r => { r with rate := Function.update r.rate s (updateRate (r.rate s) i2) }

/-- mirrors clientlog.rs:803-870 -/
def updateRecord (s : Service) (idx : Nat) (now : Timespec) : Act (ClientLog F) Unit := do
  let c ← Act.get
  onRecord idx (hitRecord (c.maxTokens s) (c.tokenShift s) s (c.getTsFromTimespec now))

/-! ## The public operations on records -/

/-- mirrors clientlog.rs:893-898 -/
def getClientIndex (draws : Nat) (client : ClientIp) : Act (ClientLog F) Int := do
  match ← getRecord draws tableFuel client with
  | none => pure (-1)
  | some idx => pure (asI32 idx)

/-- mirrors clientlog.rs:901-910 -/
def logServiceAccess (draws : Nat) (s : Service) (client : ClientIp) (now : Timespec) :
    Act (ClientLog F) Int := do
  Act.modify fun c => { c with totalHits := Function.update c.totalHits s (c.totalHits s + 1) }
  match ← getRecord draws tableFuel client with
  | none => pure (-1)
  | some idx => do
    updateRecord s idx now
    pure (asI32 idx)

/-- mirrors clientlog.rs:914-923 -/
def limitResponseRandom (leakRate : Nat) : Act (ClientLog F) Bool := do
  let c ← Act.get
  Act.when (c.leakBitsLeft < leakRate) (do
    let rnd ← randomU32
    Act.modify fun c => { c with leakRnd := rnd, leakBitsLeft := 32 })
  let c ← Act.get
  Act.modify fun c =>
    { c with
      leakRnd := c.leakRnd >>> UInt32.ofNat leakRate
      leakBitsLeft := c.leakBitsLeft - leakRate }
  pure (decide (c.leakRnd % (1 <<< UInt32.ofNat leakRate) ≠ 0))

/-- Whether the tokens of the record allow the response.
mirrors clientlog.rs:933-938 -/
def spendRecord (tokensPerHit : Nat) (s : Service) : Act Record Bool := do
  Act.modify fun r => { r with dropFlags := r.dropFlags &&& ~~~ serviceBit s }
  let r ← Act.get
  if tokensPerHit ≤ r.tokens s then do
    Act.modify fun r => { r with tokens := Function.update r.tokens s (r.tokens s - tokensPerHit) }
    pure true
  else pure false

/-- Whether to drop the response, given the random choice.
mirrors clientlog.rs:942-959 -/
def leakRecord (s : Service) (drop : Bool) : Act Record Bool := do
  let r ← Act.get
  -- a client that retries faster when it gets no replies: answer most of its requests
  let drop :=
    if s = .ntp ∧ r.ntpTimeoutRate ≠ invalidRate ∧
      r.rate s + rateScale < r.ntpTimeoutRate then !drop
    else drop
  if drop = false then do
    Act.modify fun r => { r with tokens := Function.update r.tokens s 0 }
    pure false
  else do
    Act.modify fun r => { r with dropFlags := r.dropFlags ||| serviceBit s
                                 drops := Function.update r.drops s (r.drops s + 1) }
    pure true

/-- Whether to drop the response.
mirrors clientlog.rs:927-962 -/
def limitServiceRate (s : Service) (idx : Nat) : Act (ClientLog F) Bool := do
  let c ← Act.get
  if c.tokensPerHit s = 0 then pure false
  else do
    let spent ← onRecord idx (spendRecord (c.tokensPerHit s) s)
    if spent then pure false
    else do
      let drop ← limitResponseRandom (c.leakRate s)
      let drop ← onRecord idx (leakRecord s drop)
      Act.when (drop = true) (Act.modify fun c =>
        { c with totalDrops := Function.update c.totalDrops s (c.totalDrops s + 1) })
      pure drop

/-! ## Construction -/

def unlimited : Nat × Nat × Int × Nat × Int := (0, 0, 0, 0, minLimitInterval)

/-- `max_tokens`, `tokens_per_hit`, `token_shift`, `leak_rate` and `limit_interval` of a service.
mirrors clientlog.rs:605-625 -/
def serviceParams (rl : Option RateLimit) : Rust (Nat × Nat × Int × Nat × Int) :=
  match rl with
  | none => .ok unlimited
  | some rl => do
    let (mt, tph, ts) ← setBucketParams rl.interval.toInt rl.burst.toInt
    .ok (mt, tph, ts, (clampI32 minLeakRate rl.leakRate.toInt maxLeakRate).toNat,
      clampI32 minLimitInterval rl.interval.toInt maxLimitInterval)

/-- The logarithm of the number of slots the memory allows: the first argument is the number of
steps left.
mirrors clientlog.rs:646-649 -/
def slots2Loop (maxSlots : Nat) : Nat → Nat → Nat
  | 0, slots2 => slots2
  | n + 1, slots2 =>
    if 2 ^ (slots2 + 1) ≤ maxSlots then slots2Loop maxSlots n (slots2 + 1) else slots2

/-- mirrors clientlog.rs:641-644 -/
def maxSlotsFor (limit : UInt64) : Nat :=
  let denom := (recordSize + ntptsSize) * slotSize * 3 / 2
  min (max (limit.toNat / denom) minSlots) maxSlotsCap

variable [F64 F]

/-- The state `new` starts from, with the parameters of the services.
mirrors clientlog.rs:572-603 -/
def initial (params : Service → Nat × Nat × Int × Nat × Int) (rng : Nat → UInt8) : ClientLog F where
  records := []
  slots := 0
  maxSlots := 0
  tsOffset := 0
  hashSeed := 0
  maxTokens := fun s => (params s).1
  tokensPerHit := fun s => (params s).2.1
  tokenShift := fun s => (params s).2.2.1
  leakRate := fun s => (params s).2.2.2.1
  limitInterval := fun s => (params s).2.2.2.2
  active := false
  ntpTsMap := ⟨none, 0, 0, 0, 0, 0, 0, F64.lit 0⟩
  totalHits := fun _ => 0
  totalDrops := fun _ => 0
  totalNtpInterleavedHits := 0
  totalRecordDrops := 0
  leakRnd := 0
  leakBitsLeft := 0
  rng := rng

/-- The part of `new` for an active log.
mirrors clientlog.rs:639-660 -/
def activate (draws : Nat) (limit : UInt64) : Act (ClientLog F) Unit := do
  let maxSlots := maxSlotsFor limit
  Act.modify fun c => { c with active := true, maxSlots := maxSlots, slots := 0, records := [] }
  let _ ← expandWith (getRecord draws tableFuel)
  let tsOffset ← randomU32
  Act.modify fun c =>
    { c with tsOffset := tsOffset % (1000000000 / 16)
             ntpTsMap := { c.ntpTsMap with maxSize := 2 ^ (slots2Loop maxSlots 20 0 + 4) } }

/-- mirrors clientlog.rs:571-663 -/
def new (draws : Nat) (config : ClientLogConfig) (rng : Nat → UInt8) : Rust (ClientLog F) := do
  let ntp ← serviceParams (config.ratelimit .ntp)
  let ntske ← serviceParams (config.ratelimit .ntske)
  let cmdmon ← serviceParams (config.ratelimit .cmdmon)
  let clg := initial (fun
    | .ntp => ntp
    | .ntske => ntske
    | .cmdmon => cmdmon) rng
  if config.noClientLog then do
    Rust.assert (∀ s ∈ allServices, clg.leakRate s = 0)
    pure clg
  else
    match activate draws config.clientLogLimit clg with
    | (.ok (), clg) => .ok clg
    | (.error e, _) => .error e

end ClientLog

end ChronyRs.L4.Server

import ChronyRs.L2Auth.AuthEf
import ChronyRs.L3Nts.Nke

/-!
# The NTS client association (`nts_ntp_client.rs`)

`NtsClient` keeps a ring of eight cookie slots, filled by an NTS-KE exchange
(`getCookies`, from slot 0 on) and by responses (`extractCookies`, behind the
last cookie), and drained by requests (`generateRequestAuth`). The functions
thread the association explicitly; a panic leaves no association behind.

Every stored cookie gets a serial number, in ghost fields that no function reads:
which serial each slot holds, which serials were taken for a request, and whether
a store ever hit a slot that was still counted.
-/
namespace ChronyRs.L3.Nts

open L1.Ext L2 L2.AuthEf

/-- The life of stored cookies, which the code does not record. -/
structure Ghost where
  /-- The serial of the cookie last stored in each slot. -/
  serials : List (Option Nat)
  /-- The next serial. -/
  next : Nat
  /-- Serials taken out of the pool for a request, in order. -/
  placed : List (Option Nat)
  /-- A store hit a slot that was counted in the pool. -/
  lost : Bool
  deriving DecidableEq, Repr

/-- mirrors nts_ntp_client.rs:135-166. `c` is the AES-SIV
context, `H` the injected host. -/
structure NtsClient (F C H : Type) where
  ntsAddress : NtpAddress
  name : String
  certSet : UInt32
  defaultNtpPort : UInt16
  ntpAddress : NtpAddress
  hasNke : Bool
  siv : Option (SivInstance C)
  nkeAttempts : Int
  nextNkeAttempt : F
  lastNkeSuccess : F
  context : NkeContext
  contextId : Nat
  cookies : List NkeCookie
  numCookies : Int
  cookieIndex : Int
  authReady : Bool
  nakResponse : Bool
  okResponse : Bool
  nonce : Buf 16
  uniqId : Buf 32
  host : H
  ntsRefresh : F
  ghost : Ghost

/-- mirrors nts_ntp_client.rs:168-175 -/
def emptyContext : NkeContext := ⟨.aesSivCmac256, [], []⟩

namespace NtsClient

variable {F C H : Type} [F64 F] [AesSiv C] [NtsHost H F]

/-- Without a dump file to reload.
mirrors nts_ntp_client.rs:181-223 -/
def new (ntsAddress : NtpAddress) (name : String) (certSet : UInt32) (ntpPort : UInt16) (host : H)
    (ntsRefresh : F) : NtsClient F C H :=
  { ntsAddress, name, certSet, defaultNtpPort := ntpPort
    ntpAddress := ⟨ntsAddress.ip, ntpPort⟩, hasNke := false, siv := none, nkeAttempts := 0
    nextNkeAttempt := F64.lit 0, lastNkeSuccess := F64.lit 0, context := emptyContext
    contextId := 0, cookies := List.replicate 8 ⟨[]⟩, numCookies := 0, cookieIndex := 0
    authReady := false, nakResponse := false, okResponse := true, nonce := Buf.zero 16
    uniqId := Buf.zero 32, host, ntsRefresh
    ghost := ⟨List.replicate 8 none, 0, [], false⟩ }

/-! ## The pool -/

/-- `self.cookies[slot] = cookie`. -/
def storeCookie (c : NtsClient F C H) (slot : Nat) (cookie : NkeCookie) : Rust (NtsClient F C H) :=
  if slot < c.cookies.length then
    .ok { c with
      cookies := c.cookies.set slot cookie
      ghost := { c.ghost with
        serials := c.ghost.serials.set slot (some c.ghost.next)
        next := c.ghost.next + 1
        lost := c.ghost.lost ||
          (List.range c.numCookies.toNat).any fun k => (c.cookieIndex.toNat + k) % 8 == slot } }
  else .error .index

/-- mirrors nts_ntp_client.rs:255-264 -/
def checkCookies (c : NtsClient F C H) : NtsClient F C H × Bool :=
  let (host, now) := NtsHost.monoTime c.host
  let c := { c with host }
  let c := if 0 < c.numCookies ∧ ((c.nakResponse ∧ ¬ c.okResponse) ∨
      F64.lt c.ntsRefresh (F64.sub now c.lastNkeSuccess)) then { c with numCookies := 0 } else c
  (c, 0 < c.numCookies)

/-- mirrors nts_ntp_client.rs:268-285 -/
def setNtpAddress (c : NtsClient F C H) (negotiated : NtpAddress) : NtsClient F C H × Bool :=
  let new : NtpAddress :=
    { ip := match negotiated.ip with | none => c.ntsAddress.ip | some ip => some ip
      port := if negotiated.port = 0 then c.defaultNtpPort else negotiated.port }
  if c.ntpAddress.ip = new.ip ∧ c.ntpAddress.port = new.port then (c, true)
  else
    let (host, ok) := NtsHost.updateSource c.host c.ntpAddress new
    if ok then ({ c with host, ntpAddress := new }, true) else ({ c with host }, false)

/-- `util::log2_to_double`, which negates a negative argument.
mirrors util.rs:20-28 -/
def log2ToDouble (l : Int) : Rust F := do
  if l < 0 then
    let _ ← i32 (-l)
  return F64.log2ToDouble l

/-- mirrors nts_ntp_client.rs:288-299 -/
def updateNextNkeAttempt (c : NtsClient F C H) (failedStart : Bool) (now : F) :
    Rust (NtsClient F C H) := do
  if failedStart then return { c with nextNkeAttempt := F64.add now (F64.lit 2) }
  if ¬ c.hasNke then return c
  let (host, factor) := NtsHost.getRetryFactor c.host
  let sum ← i32 (factor + c.nkeAttempts)
  let interval ← i32 (sum - 1)
  return { c with host, nextNkeAttempt := F64.add now (← log2ToDouble (min interval 19)) }

/-- The loop `for (i, c) in data.cookies.into_iter().take(n).enumerate()`. -/
def storeFrom (c : NtsClient F C H) (slot : Nat) : List NkeCookie → Rust (NtsClient F C H)
  | [] => .ok c
  | cookie :: rest => do storeFrom (← c.storeCookie slot cookie) (slot + 1) rest

/-- mirrors nts_ntp_client.rs:333-350 -/
def adoptData (c : NtsClient F C H) (now : F) (data : NkeData) : Rust (NtsClient F C H × Bool) := do
  if c.contextId + 1 ≥ 2 ^ 32 then throw .overflow
  let c := { c with siv := none, contextId := c.contextId + 1 }
  match c.setNtpAddress data.ntpAddress with
  | (c, false) => return ({ c with numCookies := 0 }, false)
  | (c, true) =>
    let c ← ({ c with context := data.context } : NtsClient F C H).storeFrom 0 (data.cookies.take 8)
    return ({ c with numCookies := (data.cookies.take 8).length, lastNkeSuccess := now,
                     cookieIndex := 0 }, true)

/-- Create and start an NTS-KE client unless there is one; true if that failed.
mirrors nts_ntp_client.rs:306-317 -/
def startNke (c : NtsClient F C H) : Rust (NtsClient F C H × Bool) := do
  if c.hasNke then return (c, false)
  let host := NtsHost.create c.host c.ntsAddress c.name c.certSet
  let nkeAttempts ← i32 (c.nkeAttempts + 1)
  let (host, started) := NtsHost.start host
  return ({ c with host, hasNke := true, nkeAttempts }, !started)

/-- mirrors nts_ntp_client.rs:302-351 -/
def getCookies (c : NtsClient F C H) : Rust (NtsClient F C H × Bool) := do
  let (host, now) := NtsHost.monoTime c.host
  let c := { c with host }
  if ¬ c.hasNke ∧ F64.lt now c.nextNkeAttempt then return (c, false)
  let (c, failedStart) ← c.startNke
  let c ← c.updateNextNkeAttempt failedStart now
  let (host, active) := NtsHost.isActive c.host
  let c := { c with host }
  if active then return (c, false)
  let (host, data) := NtsHost.getNtsData c.host 8
  let c := { c with host := NtsHost.destroy host, hasNke := false }
  match data with
  | none => return (c, false)
  | some data => c.adoptData now data

/-- Draw the unique identifier, then the nonce. -/
def drawNonces (c : NtsClient F C H) : NtsClient F C H :=
  let (host, uniqId) := fillBuf (NtsHost.rng (F := F)) 32 c.host
  let (host, nonce) := fillBuf (NtsHost.rng (F := F)) 16 host
  { c with host, uniqId, nonce }

/-- mirrors nts_ntp_client.rs:370-382 -/
def keyForRequest (c : NtsClient F C H) : Rust (NtsClient F C H × Bool) := do
  let siv := match c.siv with
    | none => SivInstance.create c.context.algorithm
    | some siv => some siv
  match siv with
  | none => return ({ c with siv }, false)
  | some siv =>
    let (siv, ok) ← siv.setKey c.context.c2s
    return ({ c with siv := some siv, authReady := if ok then true else c.authReady }, ok)

/-- mirrors nts_ntp_client.rs:354-383 -/
def prepareForAuth (c : NtsClient F C H) : Rust (NtsClient F C H × Bool) := do
  let c := ({ c with authReady := false } : NtsClient F C H).drawNonces
  match c.checkCookies with
  | (c, true) => ({ c with nakResponse := false } : NtsClient F C H).keyForRequest
  | (c, false) =>
    match ← c.getCookies with
    | (c, false) => return (c, false)
    | (c, true) => ({ c with nakResponse := false } : NtsClient F C H).keyForRequest

/-! ## Requests -/

/-- Take the next cookie out of the pool.
mirrors nts_ntp_client.rs:400-402 -/
def takeCookie (c : NtsClient F C H) : Rust (NtsClient F C H × NkeCookie) := do
  let cookie ← index c.cookies (asUsize c.cookieIndex)
  return ({ c with
    numCookies := c.numCookies - 1
    cookieIndex := (c.cookieIndex + 1) % 8
    ghost := { c.ghost with
      placed := c.ghost.placed ++ [c.ghost.serials.getD (asUsize c.cookieIndex) none] } }, cookie)

/-- The loop over the placeholders, each zeroed.
mirrors nts_ntp_client.rs:413-422 -/
def addPlaceholders (cookieLength : Nat) : Nat → NtpPacketBuf → NtpPacketInfo →
    Rust (NtpPacketBuf × NtpPacketInfo × Bool)
  | 0, packet, info => return (packet, info, true)
  | n + 1, packet, info => do
    match ← addBlankField packet info 0x0304 (asI32 cookieLength) with
    | (packet, info, none) => return (packet, info, false)
    | (packet, info, some off) =>
      addPlaceholders cookieLength n (← packet.zeroRange off (off + cookieLength)) info

/-- How many cookies a request asks for.
mirrors nts_ntp_client.rs:404-405 -/
def reqCookies (numCookies : Int) (cookie : NkeCookie) : Rust Int := do
  let fieldLength ← i32 (asI32 cookie.bytes.length + 4)
  if fieldLength = 0 then throw .divisionByZero
  return min (8 - numCookies) (Int.tdiv 864 fieldLength)

/-- The extension fields of a request, all but the authenticator.
mirrors nts_ntp_client.rs:407-422 -/
def addRequestFields (packet : NtpPacketBuf) (info : NtpPacketInfo) (uniqId : Bytes)
    (cookie : NkeCookie) (reqCookies : Int) : Rust (NtpPacketBuf × NtpPacketInfo × Bool) := do
  match ← addField packet info 0x0104 uniqId with
  | (packet, info, false) => return (packet, info, false)
  | (packet, info, true) =>
    match ← addField packet info 0x0204 cookie.bytes with
    | (packet, info, false) => return (packet, info, false)
    | (packet, info, true) =>
      addPlaceholders cookie.bytes.length (reqCookies - 1).toNat packet info

/-- mirrors nts_ntp_client.rs:386-433 -/
def generateRequestAuth (c : NtsClient F C H) (packet : NtpPacketBuf) (info : NtpPacketInfo) :
    Rust (NtsClient F C H × NtpPacketBuf × NtpPacketInfo × Bool) := do
  if ¬ c.authReady then return (c, packet, info, false)
  let c := { c with authReady := false }
  match c.siv with
  | none => return (c, packet, info, false)
  | some siv =>
    if c.numCookies ≤ 0 ∨ info.mode ≠ 3 then return (c, packet, info, false)
    let (c, cookie) ← c.takeCookie
    let reqCookies ← reqCookies c.numCookies cookie
    match ← addRequestFields packet info c.uniqId.bytes cookie reqCookies with
    | (packet, info, false) => return (c, packet, info, false)
    | (packet, info, true) =>
      match ← generateAuthEf packet info siv c.nonce.bytes 16 [] 28 with
      | (packet, info, siv, false) => return ({ c with siv := some siv }, packet, info, false)
      | (packet, info, siv, true) =>
        return ({ c with siv := some siv, okResponse := false }, packet, info, true)

/-! ## Responses -/

/-- mirrors nts_ntp_client.rs:436-445 -/
def parseEncryptedEfs (plaintext : Bytes) (length : Int) : Rust Bool := do
  match ← (singleFields plaintext length).run (fun _ : Unit => ()) (fun _ _ _ => return .next ())
      (length.toNat + 1) 0 () with
  | .next _ => return true
  | .ret _ => return false

/-- One field of the decrypted payload.
mirrors nts_ntp_client.rs:456-472 -/
def extractField (plaintext : Bytes) (s : NtsClient F C H × Nat) (_ : Int) (pf : ParsedField) :
    Rust (Flow (NtsClient F C H × Nat) (NtsClient F C H)) := do
  let (c, acceptable) := s
  if pf.fieldType ≠ 0x0204 then return .next (c, acceptable)
  if pf.length < 16 ∨ asUsize pf.bodyLength > 256 then return .next (c, acceptable)
  if c.numCookies ≥ 8 then return .next (c, acceptable + 1)
  let body ← slice plaintext pf.bodyOffset (pf.bodyOffset + asUsize pf.bodyLength)
  let c ← c.storeCookie (asUsize ((c.cookieIndex + c.numCookies) % 8)) ⟨body⟩
  return .next ({ c with numCookies := c.numCookies + 1 }, acceptable + 1)

/-- mirrors nts_ntp_client.rs:448-475 -/
def extractCookies (c : NtsClient F C H) (plaintext : Bytes) (length : Int) :
    Rust (NtsClient F C H × Bool) := do
  match ← (singleFields plaintext length).run (fun s => s.1) (extractField plaintext)
      (length.toNat + 1) 0 (c, 0) with
  | .next (c, acceptable) => return (c, 0 < acceptable)
  | .ret c => return (c, false)

/-- What the loop of `check_response_auth` carries. -/
structure RespScan (C : Type) where
  hasValidUniqId : Bool
  hasValidAuth : Bool
  plaintext : Buf 1092
  plaintextLength : Nat
  siv : SivInstance C

/-- One field of a response; `.ret` is `return false`.
mirrors nts_ntp_client.rs:509-535 -/
def scanResponseField (packet : NtpPacketBuf) (info : NtpPacketInfo) (uniqId : Bytes)
    (s : RespScan C) (parsed : Int) (pf : ParsedField) : Rust (Flow (RespScan C) (RespScan C)) := do
  if pf.fieldType = 0x0104 then
    if asUsize pf.bodyLength ≠ uniqId.length then return .ret s
    let body ← slice packet.bytes pf.bodyOffset (pf.bodyOffset + asUsize pf.bodyLength)
    if body ≠ uniqId then return .ret s
    return .next { s with hasValidUniqId := true }
  else if pf.fieldType = 0x0404 then
    if parsed + pf.length ≠ info.length then return .ret s
    match ← decryptAuthEf packet info s.siv parsed s.plaintext with
    | (siv, plaintext, none) => return .ret { s with siv, plaintext }
    | (siv, plaintext, some n) =>
      if ← parseEncryptedEfs plaintext.bytes (asI32 n) then
        return .next { s with siv, plaintext, plaintextLength := n, hasValidAuth := true }
      else return .ret { s with siv, plaintext, plaintextLength := n }
  else return .next s

/-- The loop over the fields of a response.
mirrors nts_ntp_client.rs:499-537 -/
def scanResponse (packet : NtpPacketBuf) (info : NtpPacketInfo) (uniqId : Bytes)
    (siv : SivInstance C) : Rust (Flow (RespScan C) (RespScan C)) :=
  (fields packet info.length).run (fun s => s) (scanResponseField packet info uniqId)
    (info.length.toNat + 1) 48 ⟨false, false, Buf.zero 1092, 0, siv⟩

/-- An NTS NAK: stratum 0 and the kiss code `NTSN`.
mirrors nts_ntp_client.rs:541-542 -/
def isNtsNak (packet : NtpPacketBuf) : Rust Bool := do
  return (← index packet.bytes 1) = 0 ∧ fromBe (← slice packet.bytes 12 16) = 0x4e54534e

/-- mirrors nts_ntp_client.rs:478-558 -/
def checkResponseAuth (c : NtsClient F C H) (packet : NtpPacketBuf) (info : NtpPacketInfo) :
    Rust (NtsClient F C H × Bool) := do
  if info.extFields = 0 ∨ info.mode ≠ 4 then return (c, false)
  if c.okResponse ∨ c.authReady then return (c, false)
  match c.siv with
  | none => return (c, false)
  | some siv =>
    match ← siv.setKey c.context.s2c with
    | (siv, false) => return ({ c with siv := some siv }, false)
    | (siv, true) =>
      match ← scanResponse packet info c.uniqId.bytes siv with
      | .ret s => return ({ c with siv := some s.siv }, false)
      | .next s =>
        let c := { c with siv := some s.siv }
        if ¬ s.hasValidUniqId ∨ ¬ s.hasValidAuth then
          if s.hasValidUniqId then
            if ← isNtsNak packet then return ({ c with nakResponse := true }, false)
          return (c, false)
        match ← c.extractCookies s.plaintext.bytes (asI32 s.plaintextLength) with
        | (c, false) => return (c, false)
        | (c, true) =>
          return ({ c with okResponse := true, nkeAttempts := 0, nextNkeAttempt := F64.lit 0 },
            true)

/-- Every way `check_response_auth` leaves the association. A response is only looked at while one
is awaited. -/
inductive Answered (c : NtsClient F C H) (packet : NtpPacketBuf) (info : NtpPacketInfo) :
    NtsClient F C H → Bool → Prop
  | ignored : Answered c packet info c false
  | rejected (hawait : c.okResponse = false ∧ c.authReady = false) (siv : SivInstance C) :
      Answered c packet info { c with siv := some siv } false
  | nak (hawait : c.okResponse = false ∧ c.authReady = false) {siv : SivInstance C} {s : RespScan C}
      (hscan : scanResponse packet info c.uniqId.bytes siv = .ok (.next s))
        (huniq : s.hasValidUniqId = true) :
      Answered c packet info { c with siv := some s.siv, nakResponse := true } false
  | barren (hawait : c.okResponse = false ∧ c.authReady = false) {siv : SivInstance C}
    {s : RespScan C}
      {c' : NtsClient F C H} (hscan : scanResponse packet info c.uniqId.bytes siv = .ok (.next s))
      (hauth : s.hasValidAuth = true)
      (hextract : ({ c with siv := some s.siv } : NtsClient F C H).extractCookies s.plaintext.bytes
        (asI32 s.plaintextLength) = .ok (c', false)) :
      Answered c packet info c' false
  | accepted (hawait : c.okResponse = false ∧ c.authReady = false) {siv0 siv : SivInstance C}
    {s : RespScan C}
      {c' : NtsClient F C H} (hkey : siv0.setKey c.context.s2c = .ok (siv, true))
      (hscan : scanResponse packet info c.uniqId.bytes siv = .ok (.next s))
      (huniq : s.hasValidUniqId = true) (hauth : s.hasValidAuth = true)
      (hextract : ({ c with siv := some s.siv } : NtsClient F C H).extractCookies s.plaintext.bytes
        (asI32 s.plaintextLength) = .ok (c', true)) :
      Answered c packet info
        { c' with okResponse := true, nkeAttempts := 0, nextNkeAttempt := F64.lit 0 } true

omit [NtsHost H F] in
theorem checkResponseAuth_answered {c c' : NtsClient F C H} {packet : NtpPacketBuf}
    {info : NtpPacketInfo} {ok : Bool}
    (h : c.checkResponseAuth packet info = .ok (c', ok)) : Answered c packet info c' ok := by
  unfold checkResponseAuth at h
  split at h
  · cases h; exact .ignored
  split at h
  · cases h; exact .ignored
  rename_i hready
  have hawait : c.okResponse = false ∧ c.authReady = false := by
    simpa only [not_or, Bool.not_eq_true] using hready
  split at h
  · cases h; exact .ignored
  obtain ⟨⟨siv, keyed⟩, hkey, h⟩ := bind_eq_ok.1 h
  cases keyed with
  | false => cases h; exact .rejected hawait siv
  | true =>
    obtain ⟨scan, hscan, h⟩ := bind_eq_ok.1 h
    cases scan with
    | ret s => cases h; exact .rejected hawait s.siv
    | next s =>
      dsimp only at h
      split at h
      · split at h
        · rename_i huniq
          obtain ⟨nak, -, h⟩ := bind_eq_ok.1 h
          split at h
          · cases h; exact .nak hawait hscan huniq
          · cases h; exact .rejected hawait s.siv
        · cases h; exact .rejected hawait s.siv
      · rename_i hflags
        obtain ⟨huniq, hauth⟩ : s.hasValidUniqId = true ∧ s.hasValidAuth = true := by
          simpa only [not_or, Decidable.not_not] using hflags
        obtain ⟨⟨c1, got⟩, hextract, h⟩ := bind_eq_ok.1 h
        cases got with
        | false => cases h; exact .barren hawait hscan hauth hextract
        | true => cases h; exact .accepted hawait hkey hscan huniq hauth hextract

/-! ## Storing cookies -/

section
variable {c c' : NtsClient F C H} {ok : Bool}

section
omit [F64 F] [AesSiv C] [NtsHost H F]

theorem storeCookie_eq_ok {slot : Nat} {cookie : NkeCookie}
    (h : c.storeCookie slot cookie = .ok c') :
    slot < c.cookies.length ∧ ∃ ghost, c' = { c with
      cookies := c.cookies.set slot cookie, ghost } := by
  unfold storeCookie at h
  split at h
  · rename_i hlt
    cases h
    exact ⟨hlt, _, rfl⟩
  · cases h

theorem storeFrom_eq_ok : ∀ (cs : List NkeCookie) {c c' : NtsClient F C H} {slot : Nat},
    c.storeFrom slot cs = .ok c' →
    ∃ cookies ghost, c' = { c with cookies, ghost } ∧ (∀ j < slot, cookies[j]? = c.cookies[j]?) ∧
      ∀ x, cs.head? = some x → cookies[slot]? = some x
  | [], c, c', slot, h => by
    cases h
    exact ⟨_, _, rfl, fun _ _ => rfl, by simp⟩
  | x :: cs, c, c', slot, h => by
    unfold storeFrom at h
    obtain ⟨c1, h1, h⟩ := bind_eq_ok.1 h
    obtain ⟨hlt, ghost1, rfl⟩ := storeCookie_eq_ok h1
    obtain ⟨cookies, ghost, rfl, hbefore, -⟩ := storeFrom_eq_ok cs h
    refine ⟨cookies, ghost, rfl, fun j hj => ?_, fun y hy => ?_⟩
    · rw [hbefore j (by omega)]
      simp only [List.getElem?_set_ne (show slot ≠ j by omega)]
    · cases hy
      rw [hbefore slot (by omega)]
      simp [hlt]

/-- A field is passed over, counted, or stored behind the pool. -/
theorem extractField_cases {plaintext : Bytes} {s : NtsClient F C H × Nat} {p : Int}
    {pf : ParsedField} {f : Flow (NtsClient F C H × Nat) (NtsClient F C H)}
    (h : extractField plaintext s p pf = .ok f) :
    f = .next s ∨ f = .next (s.1, s.2 + 1) ∨ ∃ body c1, s.1.numCookies < 8 ∧
      s.1.storeCookie (asUsize ((s.1.cookieIndex + s.1.numCookies) % 8)) ⟨body⟩ = .ok c1 ∧
      f = .next ({ c1 with numCookies := c1.numCookies + 1 }, s.2 + 1) := by
  unfold extractField at h
  dsimp only at h
  split at h
  · cases h; exact .inl rfl
  split at h
  · cases h; exact .inl rfl
  split at h
  · cases h; exact .inr (.inl rfl)
  · rename_i hfull
    obtain ⟨body, -, h⟩ := bind_eq_ok.1 h
    obtain ⟨c1, hstore, h⟩ := bind_eq_ok.1 h
    cases h
    exact .inr (.inr ⟨body, c1, by omega, hstore, rfl⟩)

/-- Extracting cookies is storing one after the other. -/
theorem extractCookies_induct {P : NtsClient F C H → Prop} {plaintext : Bytes} {length : Int}
    (h : c.extractCookies plaintext length = .ok (c', ok)) (hc : P c)
    (hstore : ∀ c1 body c2, P c1 → c1.numCookies < 8 →
      c1.storeCookie (asUsize ((c1.cookieIndex + c1.numCookies) % 8)) ⟨body⟩ = .ok c2 →
      P { c2 with numCookies := c2.numCookies + 1 }) : P c' := by
  unfold extractCookies at h
  obtain ⟨f, hrun, h⟩ := bind_eq_ok.1 h
  have hkeep := Walker.run_inv (fun s : NtsClient F C H × Nat => P s.1) P (fun _ hs => hs)
    (fun s p r s' hs hb => by
      rcases extractField_cases hb with he | he | ⟨body, c1, hlt, hst, he⟩
      · cases he; exact hs
      · cases he; exact hs
      · cases he; exact hstore _ _ _ hs hlt hst)
    (fun s p r x hs hb => by
      rcases extractField_cases hb with he | he | ⟨_, _, _, _, he⟩ <;> cases he)
    _ hc hrun
  rcases hkeep with ⟨⟨c1, k⟩, rfl, hk⟩ | ⟨c1, rfl, hk⟩
  · cases h; exact hk
  · cases h; exact hk

end

/-! ## An exchange -/

/-- The host is as before, or was told the new address of the source. -/
def Told (host host' : H) : Prop :=
  host' = host ∨ ∃ old new, host' = (NtsHost.updateSource host old new).1

section
omit [F64 F] [AesSiv C]

theorem setNtpAddress_told (c : NtsClient F C H) (a : NtpAddress) :
    ∃ host addr, Told c.host host ∧ (c.setNtpAddress a).1 =
      { c with host, ntpAddress := addr } := by
  unfold setNtpAddress
  dsimp only
  split_ifs <;> first | exact ⟨c.host, c.ntpAddress, .inl rfl, rfl⟩ |
    exact ⟨_, _, .inr ⟨_, _, rfl⟩, rfl⟩

/-- Whether an address is accepted depends on the addresses and the host only. -/
theorem setNtpAddress_congr (a : NtpAddress) (h1 : c'.ntsAddress = c.ntsAddress)
    (h2 : c'.defaultNtpPort = c.defaultNtpPort) (h3 : c'.ntpAddress = c.ntpAddress)
    (h4 : c'.host = c.host) :
    (c'.setNtpAddress a).2 = (c.setNtpAddress a).2 := by
  unfold setNtpAddress
  rw [h1, h2, h3, h4]
  dsimp only
  split_ifs <;> rfl

/-- A session at an address that is refused costs the cookies; any other is stored from slot 0
on. -/
theorem adoptData_cases {now : F} {data : NkeData} (h : c.adoptData now data = .ok (c', ok)) :
    ok = (c.setNtpAddress data.ntpAddress).2 ∧ ∃ host addr, Told c.host host ∧
      ((ok = false ∧ c' = { c with
          siv := none, contextId := c.contextId + 1, host, ntpAddress := addr, numCookies := 0 }) ∨
        ok = true ∧ ∃ c1, ({ c with
            siv := none, contextId := c.contextId + 1, host, ntpAddress := addr
            context := data.context } :
              NtsClient F C H).storeFrom 0 (data.cookies.take 8) = .ok c1 ∧
          c' = { c1 with
            numCookies := (data.cookies.take 8).length
            lastNkeSuccess := now, cookieIndex := 0 }) := by
  unfold adoptData at h
  split at h
  · cases h
  dsimp only at h
  obtain ⟨host, addr, htold, he⟩ := setNtpAddress_told
    ({ c with siv := none, contextId := c.contextId + 1 } : NtsClient F C H) data.ntpAddress
  have hflag : (({ c with siv := none, contextId := c.contextId + 1 } : NtsClient F C
      H).setNtpAddress
      data.ntpAddress).2 = (c.setNtpAddress data.ntpAddress).2 := setNtpAddress_congr _
        rfl rfl rfl rfl
  split at h
  · rename_i c1 heq
    rw [heq] at he hflag
    cases he
    cases h
    exact ⟨hflag, host, addr, htold, .inl ⟨rfl, rfl⟩⟩
  · rename_i c1 heq
    rw [heq] at he hflag
    cases he
    obtain ⟨c2, hstore, h⟩ := bind_eq_ok.1 h
    cases h
    exact ⟨hflag, host, addr, htold, .inr ⟨rfl, c2, hstore, rfl⟩⟩

end

/-- The host once it was asked for a session: a new NTS-KE client is created and started
first, and after a failed start the retry factor is not read. -/
def exchangeHost (c : NtsClient F C H) : H :=
  if c.hasNke then (NtsHost.getRetryFactor c.host).1
  else
    match NtsHost.start (NtsHost.create c.host c.ntsAddress c.name c.certSet) with
    | (host, true) => (NtsHost.getRetryFactor host).1
    | (host, false) => host

section
omit [AesSiv C]

theorem startNke_host {c1 : NtsClient F C H} {failed : Bool} {now : F}
    (h : c.startNke = .ok (c1, failed)) {c2 : NtsClient F C H}
    (h2 : c1.updateNextNkeAttempt failed now = .ok c2) :
    ∃ attempts next, c2 = { c with
      host := c.exchangeHost, hasNke := true
      nkeAttempts := attempts, nextNkeAttempt := next } := by
  unfold startNke at h
  unfold exchangeHost
  cases hn : c.hasNke with
  | true =>
    rw [if_pos hn] at h
    cases h
    unfold updateNextNkeAttempt at h2
    rw [if_neg (by decide), if_neg (by simp [hn])] at h2
    obtain ⟨_, -, h2⟩ := bind_eq_ok.1 h2
    obtain ⟨_, -, h2⟩ := bind_eq_ok.1 h2
    obtain ⟨x, -, h2⟩ := bind_eq_ok.1 h2
    cases h2
    exact ⟨c.nkeAttempts, F64.add now x, by rw [if_pos rfl, ← hn]; rfl⟩
  | false =>
    rw [if_neg (by simp [hn])] at h
    obtain ⟨k, -, h⟩ := bind_eq_ok.1 h
    rcases hs : NtsHost.start (NtsHost.create c.host c.ntsAddress c.name c.certSet)
      with ⟨host, started⟩
    rw [hs] at h
    cases h
    unfold updateNextNkeAttempt at h2
    cases started with
    | true =>
      rw [if_neg (by decide), if_neg (by simp)] at h2
      obtain ⟨_, -, h2⟩ := bind_eq_ok.1 h2
      obtain ⟨_, -, h2⟩ := bind_eq_ok.1 h2
      obtain ⟨x, -, h2⟩ := bind_eq_ok.1 h2
      cases h2
      exact ⟨k, _, rfl⟩
    | false =>
      rw [if_pos (by decide)] at h2
      cases h2
      exact ⟨k, _, rfl⟩

/-- It is too early for another exchange, and none is running. -/
def Early (c : NtsClient F C H) : Prop :=
  ¬ c.hasNke ∧ F64.lt (NtsHost.monoTime c.host).2 c.nextNkeAttempt = true

/-- The host that is asked whether the exchange is running. -/
def asked (c : NtsClient F C H) : H := exchangeHost { c with host := (NtsHost.monoTime c.host).1 }

/-- Every way `get_cookies` ends. Before the retry time it reads the clock. Otherwise there is an
exchange, started by this call unless it was running: if it goes on, the client keeps it, and if it
is over, its result is taken and it is destroyed. -/
inductive Fetched (c : NtsClient F C H) : NtsClient F C H → Bool → Prop
  | early (h : c.Early) : Fetched c { c with host := (NtsHost.monoTime c.host).1 } false
  | active (hdue : ¬ c.Early) (hact : (NtsHost.isActive c.asked).2 = true)
    (attempts : Int) (next : F) :
      Fetched c { c with
        host := (NtsHost.isActive c.asked).1, hasNke := true
        nkeAttempts := attempts, nextNkeAttempt := next } false
  | failed (hdue : ¬ c.Early) (hact : (NtsHost.isActive c.asked).2 = false)
      (hdata : (NtsHost.getNtsData (NtsHost.isActive c.asked).1 8).2 = none)
        (attempts : Int) (next : F) :
      Fetched c { c with
        host := NtsHost.destroy (NtsHost.getNtsData (NtsHost.isActive c.asked).1 8).1
        hasNke := false
        nkeAttempts := attempts, nextNkeAttempt := next } false
  | adopted (hdue : ¬ c.Early) (hact : (NtsHost.isActive c.asked).2 = false) {data : NkeData}
    {attempts : Int} {next : F}
      (hdata : (NtsHost.getNtsData (NtsHost.isActive c.asked).1 8).2 = some data)
        {c' : NtsClient F C H} {ok : Bool}
      (h : ({ c with
        host := NtsHost.destroy (NtsHost.getNtsData (NtsHost.isActive c.asked).1 8).1
        hasNke := false
        nkeAttempts := attempts, nextNkeAttempt := next } : NtsClient F C H).adoptData
          (NtsHost.monoTime c.host).2 data = .ok (c', ok)) : Fetched c c' ok

theorem getCookies_fetched (h : c.getCookies = .ok (c', ok)) : Fetched c c' ok := by
  unfold getCookies at h
  dsimp only at h
  split at h
  · rename_i hearly
    cases h
    exact .early hearly
  rename_i hdue
  obtain ⟨⟨c1, failed⟩, h1, h⟩ := bind_eq_ok.1 h
  obtain ⟨c2, h2, h⟩ := bind_eq_ok.1 h
  obtain ⟨attempts, next, rfl⟩ := startNke_host h1 h2
  dsimp only at h
  split at h
  · rename_i hact
    cases h
    exact .active hdue hact attempts next
  rename_i hact
  split at h
  · rename_i hdata
    cases h
    exact .failed hdue (Bool.eq_false_of_not_eq_true hact) hdata attempts next
  · rename_i data hdata
    exact .adopted hdue (Bool.eq_false_of_not_eq_true hact) hdata h

end

/-! ## Preparing -/

/-- The client as `prepare_for_auth` hands it to `check_cookies`. -/
def drawn (c : NtsClient F C H) : NtsClient F C H :=
  ({ c with authReady := false } : NtsClient F C H).drawNonces

omit [F64 F] [NtsHost H F] in
/-- Without an instance there is no key to set; otherwise the key decides. -/
theorem keyForRequest_cases (h : c.keyForRequest = .ok (c', ok)) :
    (ok = false ∧ c' = { c with siv := none } ∧
      ¬ (c.siv.isSome ∨ c.context.algorithm = .aesSivCmac256)) ∨
    ∃ siv0 siv : SivInstance C, (c.siv.isSome ∨ c.context.algorithm = .aesSivCmac256) ∧
      siv0.setKey c.context.c2s = .ok (siv, ok) ∧
      c' = { c with siv := some siv, authReady := if ok then true else c.authReady } := by
  rw [← SivInstance.create_isSome (C := C)]
  unfold keyForRequest at h
  cases hs : c.siv with
  | none =>
    rw [hs] at h
    cases hcreate : SivInstance.create (C := C) c.context.algorithm with
    | none =>
      rw [hcreate] at h
      cases h
      exact .inl ⟨rfl, rfl, by simp⟩
    | some siv0 =>
      rw [hcreate] at h
      obtain ⟨⟨siv, ok'⟩, hkey, h⟩ := bind_eq_ok.1 h
      cases h
      exact .inr ⟨siv0, siv, by simp, hkey, rfl⟩
  | some siv0 =>
    rw [hs] at h
    obtain ⟨⟨siv, ok'⟩, hkey, h⟩ := bind_eq_ok.1 h
    cases h
    exact .inr ⟨siv0, siv, by simp, hkey, rfl⟩

/-- Every way `prepare_for_auth` ends: with the cookies at hand, or with those of an exchange if it
has some. -/
inductive Prepared (c : NtsClient F C H) : NtsClient F C H → Bool → Prop
  | usable {c1 c' : NtsClient F C H} {ok : Bool} (hcheck : c.drawn.checkCookies = (c1, true))
      (hkey : ({ c1 with nakResponse := false } : NtsClient F C H).keyForRequest = .ok (c', ok)) :
        Prepared c c' ok
  | barren {c1 c' : NtsClient F C H} (hcheck : c.drawn.checkCookies = (c1, false))
      (hget : Fetched c1 c' false) : Prepared c c' false
  | fetched {c1 c2 c' : NtsClient F C H} {ok : Bool} (hcheck : c.drawn.checkCookies = (c1, false))
      (hget : Fetched c1 c2 true)
      (hkey : ({ c2 with nakResponse := false } : NtsClient F C H).keyForRequest = .ok (c', ok)) :
        Prepared c c' ok

theorem prepareForAuth_prepared (h : c.prepareForAuth = .ok (c', ok)) : Prepared c c' ok := by
  unfold prepareForAuth at h
  dsimp only at h
  have hfold : ({ c with authReady := false } : NtsClient F C H).drawNonces = c.drawn := rfl
  rw [hfold] at h
  split at h
  · rename_i c1 hcheck
    exact .usable hcheck h
  · rename_i c1 hcheck
    obtain ⟨⟨c2, got⟩, hget, h⟩ := bind_eq_ok.1 h
    cases got with
    | false => cases h; exact .barren hcheck (getCookies_fetched hget)
    | true => exact .fetched hcheck (getCookies_fetched hget) h

end

end NtsClient

end ChronyRs.L3.Nts

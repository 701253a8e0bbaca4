import ChronyRs.L2Auth.AuthEf
import ChronyRs.L3Nts.Nke

/-!
# The NTS server (`nts_ntp_server.rs`)

`checkRequestAuth` verifies a request and prepares the key, nonce and cookies of
its response; `generateResponseAuth` builds that response. The two calls share
the fields of `NtsServer`, which one server has for all its clients.

Every cookie made by the codec gets a serial number, and the number of the check
and the session context it was made for, in ghost fields that no function reads.
-/
namespace ChronyRs.L3.Nts

open L1.Ext L2 L2.AuthEf

/-- Where a prepared cookie comes from. -/
structure Origin where
  serial : Nat
  /-- The number of the `check_request_auth` call that made the cookie. -/
  check : Nat
  context : NkeContext
  deriving DecidableEq, Repr

structure ServerGhost where
  /-- The origin of each cookie of `cookies`. -/
  origins : List Origin
  /-- The next serial. -/
  next : Nat
  /-- `check_request_auth` calls so far. -/
  checks : Nat
  deriving DecidableEq, Repr

/-- mirrors nts_ntp_server.rs:102-112 -/
structure NtsServer (C K : Type) where
  sivs : List (Option (SivInstance C))
  sivAlgorithms : List SivAlgorithm
  nonce : Buf 16
  cookies : List NkeCookie
  numCookies : Int
  sivIndex : Int
  reqTx : Bytes
  codec : K
  ghost : ServerGhost

namespace NtsServer

variable {C K : Type} [AesSiv C] [CookieCodec K]

/-- mirrors nts_ntp_server.rs:134-152 -/
def new (codec : K) : NtsServer C K :=
  { sivs := [SivInstance.create .aesSivCmac256, SivInstance.create .aes128GcmSiv]
    sivAlgorithms := [.aesSivCmac256, .aes128GcmSiv], nonce := Buf.zero 16, cookies := []
    numCookies := 0, sivIndex := -1, reqTx := List.replicate 8 0, codec, ghost := ⟨[], 0, 0⟩ }

/-- mirrors nts_ntp_server.rs:154-158 -/
def fillNonce (s : NtsServer C K) : NtsServer C K :=
  let (codec, nonce) := fillBuf CookieCodec.rng 16 s.codec
  { s with codec, nonce }

/-! ## Requests -/

/-- What the loop of `check_request_auth` carries. -/
structure ReqScan where
  requestedCookies : Int := 0
  hasUniqId : Bool := false
  hasCookie : Bool := false
  hasAuth : Bool := false
  cookie : NkeCookie := ⟨[]⟩
  cookieLength : Int := -1
  authStart : Int := 0
  deriving DecidableEq, Repr

/-- The accounting shared by a cookie and a placeholder; `none` rejects. -/
def countCookie (s : ReqScan) (pf : ParsedField) : Option ReqScan :=
  if 0 ≤ s.cookieLength ∧ s.cookieLength ≠ pf.bodyLength then none
  else some { s with requestedCookies := s.requestedCookies + 1, cookieLength := pf.bodyLength }

/-- One field of a request; `.ret` is `return (false, 0)`.
mirrors nts_ntp_server.rs:186-218 -/
def scanRequestField (packet : NtpPacketBuf) (info : NtpPacketInfo) (s : ReqScan) (parsed : Int)
    (pf : ParsedField) : Rust (Flow ReqScan Unit) := do
  if pf.fieldType = 0x0104 then return .next { s with hasUniqId := true }
  else if pf.fieldType = 0x0204 then
    if s.hasCookie ∨ asUsize pf.bodyLength > 256 then return .ret ()
    let bytes ← slice packet.bytes pf.bodyOffset (pf.bodyOffset + asUsize pf.bodyLength)
    match countCookie { s with cookie := ⟨bytes⟩, hasCookie := true } pf with
    | none => return .ret ()
    | some s => return .next s
  else if pf.fieldType = 0x0304 then
    match countCookie s pf with
    | none => return .ret ()
    | some s => return .next s
  else if pf.fieldType = 0x0404 then
    if parsed + pf.length ≠ info.length then return .ret ()
    return .next { s with authStart := parsed, hasAuth := true }
  else return .next s

def scanRequest (packet : NtpPacketBuf) (info : NtpPacketInfo) : Rust (Flow ReqScan Unit) :=
  (fields packet info.length).run (fun _ => ()) (scanRequestField packet info)
    (info.length.toNat + 1) 48 {}

/-- Count the placeholders among the decrypted fields; `none` rejects.
mirrors nts_ntp_server.rs:258-270 -/
def countEncrypted (plaintext : Bytes) (length cookieLength requested : Int) :
    Rust (Option Int) := do
  match ← (singleFields plaintext length).run (fun _ => ())
      (fun (n : Int) _ pf =>
        if pf.fieldType = 0x0304 then
          if cookieLength ≠ pf.bodyLength then .ok (.ret ()) else .ok (.next (n + 1))
        else .ok (.next n)) (length.toNat + 1) 0 requested with
  | .next n => return some n
  | .ret _ => return none

/-- The loop that fills `cookies`. mirrors nts_ntp_server.rs:284-292 -/
def makeCookies (context : NkeContext) : Nat → NtsServer C K → NtsServer C K × Bool
  | 0, s => (s, true)
  | n + 1, s =>
    match CookieCodec.generateCookie s.codec context with
    | (codec, none) => ({ s with codec }, false)
    | (codec, some cookie) =>
      makeCookies context n { s with
        codec
        cookies := s.cookies ++ [cookie]
        ghost := { s.ghost with
          origins := s.ghost.origins ++ [⟨s.ghost.next, s.ghost.checks, context⟩]
          next := s.ghost.next + 1 } }

/-- The nonce and the cookies of the response.
mirrors nts_ntp_server.rs:282-293 -/
def prepareResponse (s : NtsServer C K) (context : NkeContext) (requested : Int) :
    NtsServer C K × Bool × Nat :=
  let s := s.fillNonce
  let s := { s with cookies := [], ghost := { s.ghost with origins := [] } }
  match makeCookies context (min 8 requested.toNat) s with
  | (s, false) => (s, false, 0)
  | (s, true) => ({ s with numCookies := (min 8 requested.toNat : Nat) }, true, 0)

/-- From the selected key on: decrypt the authenticator, count the placeholders,
switch to the response key.
mirrors nts_ntp_server.rs:240-295 -/
def verifyRequest (s : NtsServer C K) (packet : NtpPacketBuf) (info : NtpPacketInfo) (r : ReqScan)
    (context : NkeContext) (i : Nat) (siv : SivInstance C) : Rust (NtsServer C K × Bool × Nat) := do
  match ← siv.setKey context.c2s with
  | (siv, false) => return ({ s with sivs := s.sivs.set i (some siv) }, false, 0)
  | (siv, true) =>
    match ← decryptAuthEf packet info siv r.authStart (Buf.zero 1092) with
    | (siv, _, none) => return ({ s with sivs := s.sivs.set i (some siv) }, false, 0x4e54534e)
    | (siv, plaintext, some n) =>
      match ← countEncrypted plaintext.bytes (asI32 n) r.cookieLength r.requestedCookies with
      | none => return ({ s with sivs := s.sivs.set i (some siv) }, false, 0)
      | some requested =>
        match ← siv.setKey context.s2c with
        | (siv, false) => return ({ s with sivs := s.sivs.set i (some siv) }, false, 0)
        | (siv, true) =>
          return ({ s with sivs := s.sivs.set i (some siv) } : NtsServer C
            K).prepareResponse context
            requested

/-- Returns `(ok, kod)`. mirrors nts_ntp_server.rs:161-296 -/
def checkRequestAuth (s : NtsServer C K) (packet : NtpPacketBuf) (info : NtpPacketInfo) :
    Rust (NtsServer C K × Bool × Nat) := do
  let reqTx ← slice packet.bytes 40 48
  let s := { s with numCookies := 0, sivIndex := -1, reqTx,
                    ghost := { s.ghost with checks := s.ghost.checks + 1 } }
  if info.extFields = 0 ∨ info.mode ≠ 3 then return (s, false, 0)
  match ← scanRequest packet info with
  | .ret _ => return (s, false, 0)
  | .next r =>
    if ¬ r.hasUniqId ∨ ¬ r.hasCookie ∨ ¬ r.hasAuth then return (s, false, 0)
    match CookieCodec.decodeCookie s.codec r.cookie with
    | (codec, none) => return ({ s with codec }, false, 0x4e54534e)
    | (codec, some context) =>
      let s := { s with codec }
      let i := s.sivAlgorithms.findIdx (· == context.algorithm)
      match s.sivs[i]? with
      | some (some siv) =>
        ({ s with sivIndex := i } : NtsServer C K).verifyRequest packet info r context i siv
      | _ => return (s, false, 0)

/-! ## Responses -/

/-- Copy the unique identifiers of the request; `.ret` is `return false`.
mirrors nts_ntp_server.rs:318-332 -/
def copyUniqIds (request : NtpPacketBuf) (reqInfo : NtpPacketInfo) (response : NtpPacketBuf)
    (resInfo : NtpPacketInfo) :
    Rust (Flow (NtpPacketBuf × NtpPacketInfo) (NtpPacketBuf × NtpPacketInfo)) :=
  (fields request reqInfo.length).run (fun s => s)
    (fun (response, resInfo) _ pf => do
      if pf.fieldType = 0x0104 then
        let body ← slice request.bytes pf.bodyOffset (pf.bodyOffset + asUsize pf.bodyLength)
        match ← addField response resInfo pf.fieldType body with
        | (response, resInfo, true) => return .next (response, resInfo)
        | (response, resInfo, false) => return .ret (response, resInfo)
      else return .next (response, resInfo))
    (reqInfo.length.toNat + 1) 48 (response, resInfo)

/-- The cookies as fields of the plaintext; `none` when they do not fit.
mirrors nts_ntp_server.rs:342-353 -/
def cookieFields : List NkeCookie → Buf 1092 → Int → Rust (Option (Buf 1092 × Int))
  | [], plaintext, length => return some (plaintext, length)
  | c :: cs, plaintext, length => do
    match ← setField plaintext 1092 length 0x0204 c.bytes with
    | (_, none) => return none
    | (plaintext, some efLength) => cookieFields cs plaintext (length + efLength)

/-- mirrors nts_ntp_server.rs:299-378 -/
def generateResponseAuth (s : NtsServer C K) (request : NtpPacketBuf) (reqInfo : NtpPacketInfo)
    (response : NtpPacketBuf) (resInfo : NtpPacketInfo) (kod : Nat) :
    Rust (NtsServer C K × NtpPacketBuf × NtpPacketInfo × Bool) := do
  if reqInfo.mode ≠ 3 ∨ resInfo.mode ≠ 4 then return (s, response, resInfo, false)
  Rust.assert (s.reqTx = (← slice request.bytes 40 48))
  match ← copyUniqIds request reqInfo response resInfo with
  | .ret (response, resInfo) => return (s, response, resInfo, false)
  | .next (response, resInfo) =>
    if kod ≠ 0 then return (s, response, resInfo, true)
    match ← cookieFields s.cookies (Buf.zero 1092) 0 with
    | none => return (s, response, resInfo, false)
    | some (plaintext, plaintextLength) =>
      let s := { s with numCookies := 0 }
      if s.sivIndex < 0 then return (s, response, resInfo, false)
      let minEfLength ← i32 (reqInfo.length - resInfo.length)
      match s.sivs[s.sivIndex.toNat]? with
      | some (some siv) =>
        let plaintext ← slice plaintext.bytes 0 plaintextLength.toNat
        match ← generateAuthEf response resInfo siv s.nonce.bytes 16 plaintext minEfLength with
        | (response, resInfo, siv, ok) =>
          return ({ s with sivs := s.sivs.set s.sivIndex.toNat (some siv) }, response, resInfo, ok)
      | _ => return (s, response, resInfo, false)

/-! ## What the calls do -/

/-- The AEAD instances of `s`, one of them perhaps with another key. -/
def SameInstances (s s' : NtsServer C K) : Prop :=
  s'.sivAlgorithms = s.sivAlgorithms ∧
    (s'.sivs = s.sivs ∨ ∃ i siv, s'.sivs = s.sivs.set i (some siv))

/-- The state in which a check refuses the request, or starts to make cookies. -/
structure Cleared (s s0 : NtsServer C K) : Prop where
  instances : SameInstances s s0
  cookies_eq : s0.cookies = s.cookies
  num_eq : s0.numCookies = 0
  ghost_eq : s0.ghost = { s.ghost with checks := s.ghost.checks + 1 }

/-- The request was verified with the key of the session `context`. -/
structure Verified (s : NtsServer C K) (packet : NtpPacketBuf) (info : NtpPacketInfo)
    (context : NkeContext) (r : ReqScan) : Prop where
  scanned : scanRequest packet info = .ok (.next r)
  flags : r.hasUniqId = true ∧ r.hasCookie = true ∧ r.hasAuth = true
  decoded : (CookieCodec.decodeCookie s.codec r.cookie).2 = some context
  opened : ∃ (siv siv' : SivInstance C) (out : Buf 1092) (k : Nat),
    siv.ctx = some (AesSiv.setKey context.c2s) ∧
      decryptAuthEf packet info siv r.authStart (Buf.zero 1092) = .ok (siv', out, some k)

variable {s s' : NtsServer C K} {kod : Nat} {ok : Bool}

theorem verifyRequest_cases {packet : NtpPacketBuf} {info : NtpPacketInfo} {r : ReqScan}
    {context : NkeContext} {i : Nat}
    {siv : SivInstance C} (h : s.verifyRequest packet info r context i siv =
      .ok (s', ok, kod)) :
    (ok = false ∧ ∃ siv', s' = { s with sivs := s.sivs.set i (some siv') }) ∨
    ∃ (siv1 siv2 siv3 : SivInstance C) (out : Buf 1092) (k : Nat) (requested : Int),
      siv1.ctx = some (AesSiv.setKey context.c2s) ∧
      decryptAuthEf packet info siv1 r.authStart (Buf.zero 1092) = .ok (siv2, out, some k) ∧
      ({ s with sivs := s.sivs.set i (some siv3) } : NtsServer C K).prepareResponse
        context requested = (s', ok, kod) := by
  unfold verifyRequest at h
  obtain ⟨⟨siv1, keyed⟩, hk, h⟩ := bind_eq_ok.1 h
  cases keyed with
  | false => cases h; exact .inl ⟨rfl, _, rfl⟩
  | true =>
    obtain ⟨⟨siv2, out, o⟩, hd, h⟩ := bind_eq_ok.1 h
    cases o with
    | none => cases h; exact .inl ⟨rfl, _, rfl⟩
    | some k =>
      obtain ⟨o, -, h⟩ := bind_eq_ok.1 h
      cases o with
      | none => cases h; exact .inl ⟨rfl, _, rfl⟩
      | some requested =>
        obtain ⟨⟨siv3, keyed⟩, -, h⟩ := bind_eq_ok.1 h
        cases keyed with
        | false => cases h; exact .inl ⟨rfl, _, rfl⟩
        | true =>
          exact .inr ⟨siv1, siv2, siv3, out, k, requested, (SivInstance.setKey_true hk).2, hd,
            Except.ok.inj h⟩

/-- **How a check ends**: refused, with nothing prepared, or after the request was
verified and as far as the codec makes cookies for it. -/
theorem checkRequestAuth_cases {packet : NtpPacketBuf} {info : NtpPacketInfo}
    (h : s.checkRequestAuth packet info = .ok (s', ok, kod)) :
    ∃ s0, Cleared s s0 ∧ ((ok = false ∧ s' = s0) ∨ ∃ r context requested,
      Verified s packet info context r ∧ s0.prepareResponse context requested = (s', ok, kod)) := by
  unfold checkRequestAuth at h
  obtain ⟨reqTx, -, h⟩ := bind_eq_ok.1 h
  dsimp only at h
  split at h
  · cases h; exact ⟨_, by exact ⟨⟨rfl, .inl rfl⟩, rfl, rfl, rfl⟩, .inl ⟨rfl, rfl⟩⟩
  obtain ⟨f, hscan, h⟩ := bind_eq_ok.1 h
  cases f with
  | ret _ => cases h; exact ⟨_, by exact ⟨⟨rfl, .inl rfl⟩, rfl, rfl, rfl⟩, .inl ⟨rfl, rfl⟩⟩
  | next r =>
    dsimp only at h
    split at h
    · cases h; exact ⟨_, by exact ⟨⟨rfl, .inl rfl⟩, rfl, rfl, rfl⟩, .inl ⟨rfl, rfl⟩⟩
    rename_i hflags
    simp only [not_or, Decidable.not_not] at hflags
    split at h
    · cases h; exact ⟨_, by exact ⟨⟨rfl, .inl rfl⟩, rfl, rfl, rfl⟩, .inl ⟨rfl, rfl⟩⟩
    rename_i codec context hdec
    split at h
    · rcases verifyRequest_cases h with
        ⟨rfl, siv', rfl⟩ | ⟨siv1, siv2, siv3, out, k, requested, h1, h2, h3⟩
      · exact ⟨_, by exact ⟨⟨rfl, .inr ⟨_, siv', rfl⟩⟩, rfl, rfl, rfl⟩, .inl ⟨rfl, rfl⟩⟩
      · exact ⟨_, by exact ⟨⟨rfl, .inr ⟨_, siv3, rfl⟩⟩, rfl, rfl, rfl⟩, .inr ⟨r, context, requested,
          ⟨hscan, hflags, by rw [hdec], siv1, siv2, out, k, h1, h2⟩, h3⟩⟩
    · cases h; exact ⟨_, by exact ⟨⟨rfl, .inl rfl⟩, rfl, rfl, rfl⟩, .inl ⟨rfl, rfl⟩⟩

omit [CookieCodec K] in
/-- **What building a response changes**: the count of cookies, at most; the prepared
cookies stay. -/
theorem generateResponseAuth_cases {request response response' : NtpPacketBuf}
    {reqInfo resInfo resInfo' : NtpPacketInfo}
    (h : s.generateResponseAuth request reqInfo response resInfo kod =
      .ok (s', response', resInfo', ok)) :
    SameInstances s s' ∧ s'.ghost = s.ghost ∧ s'.cookies = s.cookies ∧
      (s'.numCookies = s.numCookies ∨ s'.numCookies = 0) ∧
      (kod = 0 → ok = true → s'.numCookies = 0 ∧ 0 ≤ s.sivIndex) := by
  unfold generateResponseAuth at h
  split at h
  · cases h; exact ⟨⟨rfl, .inl rfl⟩, rfl, rfl, .inl rfl, fun _ h => by cases h⟩
  obtain ⟨tx, -, h⟩ := bind_eq_ok.1 h
  obtain ⟨_, -, h⟩ := bind_eq_ok.1 h
  obtain ⟨f, -, h⟩ := bind_eq_ok.1 h
  cases f with
  | ret x => cases h; exact ⟨⟨rfl, .inl rfl⟩, rfl, rfl, .inl rfl, fun _ h => by cases h⟩
  | next x =>
    dsimp only at h
    split at h
    · rename_i hk
      cases h; exact ⟨⟨rfl, .inl rfl⟩, rfl, rfl, .inl rfl, fun h => absurd h hk⟩
    obtain ⟨o, -, h⟩ := bind_eq_ok.1 h
    cases o with
    | none => cases h; exact ⟨⟨rfl, .inl rfl⟩, rfl, rfl, .inl rfl, fun _ h => by cases h⟩
    | some x =>
      dsimp only at h
      split at h
      · cases h; exact ⟨⟨rfl, .inl rfl⟩, rfl, rfl, .inr rfl, fun _ h => by cases h⟩
      rename_i hidx
      obtain ⟨minEf, -, h⟩ := bind_eq_ok.1 h
      split at h
      · obtain ⟨plaintext, -, h⟩ := bind_eq_ok.1 h
        obtain ⟨y, -, h⟩ := bind_eq_ok.1 h
        cases h
        exact ⟨⟨rfl, .inr ⟨_, _, rfl⟩⟩, rfl, rfl, .inr rfl, fun _ _ => ⟨rfl, not_lt.1 hidx⟩⟩
      · cases h; exact ⟨⟨rfl, .inl rfl⟩, rfl, rfl, .inr rfl, fun _ h => by cases h⟩

end NtsServer

end ChronyRs.L3.Nts

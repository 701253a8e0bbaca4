import ChronyRs.Core.Lts
import ChronyRs.L3Nts.Pool
import ChronyRs.L3Nts.Wire

/-!
# The requests of an NTS client

A request is a list of fields: the unique identifier, a cookie, placeholders for more
cookies, and the authenticator. `generate_request_auth` appends them one after the
other and gives up at the first that does not fit; what was in the packet before is
kept in any case.

* `generateRequestAuth_kept`: a request starts with the bytes it started with.
* `generateRequestAuth_true`: what a successful call has appended, and what the client is left with.
* `generateRequestAuth_iff`: when a call succeeds.
* `cookie_accounting`: over whole runs no cookie is sent twice or lost, and at most one response is
  accepted for each request.
-/
namespace ChronyRs.L3.Nts

open L1.Ext L1.Parse L2 L2.AuthEf

def requestFields (uniqId : Bytes) (cookie : NkeCookie) (n : Nat) : List (Int × Bytes) :=
  [(0x0104, uniqId), (0x0204, cookie.bytes)] ++
    List.replicate n (0x0304, List.replicate cookie.bytes.length 0)

theorem encFields_placeholders_length (len : Nat) : ∀ n,
    (encFields (List.replicate n (0x0304, List.replicate len 0))).length = n * (4 + len)
  | 0 => by simp
  | n + 1 => by
    rw [List.replicate_succ, encFields_cons, List.length_append, encField_length,
      List.length_replicate, encFields_placeholders_length len n]
    ring

theorem encFields_requestFields_length (uniqId : Bytes) (cookie : NkeCookie) (n : Nat) :
    (encFields (requestFields uniqId cookie n)).length =
      4 + uniqId.length + (4 + cookie.bytes.length) + n * (4 + cookie.bytes.length) := by
  rw [requestFields, encFields_append, List.length_append, encFields_placeholders_length]
  simp only [encFields_cons, encFields_nil, List.append_nil, List.length_append, encField_length]

/-! ## The fields -/

namespace NtsClient

variable {F C H : Type} [AesSiv C]

theorem addPlaceholders_succ (len n : Nat) (packet : NtpPacketBuf) (info : NtpPacketInfo) :
    addPlaceholders len (n + 1) packet info = (do
      match ← addField packet info 0x0304 (List.replicate len 0) with
      | (packet, info, false) => return (packet, info, false)
      | (packet, info, true) => addPlaceholders len n packet info) := by
  unfold addField
  rw [addPlaceholders, List.length_replicate]
  cases addBlankField packet info 0x0304 (asI32 len) with
  | error e => rfl
  | ok r =>
    obtain ⟨p, i, o⟩ := r
    cases o with
    | none => rfl
    | some off =>
      simp only [ok_bind, Buf.zeroRange, Nat.le_add_right, if_true, Nat.add_sub_cancel_left]
      cases p.copyAt off (List.replicate len 0) <;> rfl

variable {len : Nat} {ok : Bool} {packet packet' : NtpPacketBuf} {info info' : NtpPacketInfo}
  {uniqId : Bytes}
  {cookie : NkeCookie} {req num : Int} {c c1 : NtsClient F C H}

theorem addPlaceholders_kept :
    ∀ {n : Nat} {packet packet' : NtpPacketBuf} {info info' : NtpPacketInfo},
      addPlaceholders len n packet info = .ok (packet', info', ok) →
        Kept packet info packet' info' := by
  intro n
  induction n with
  | zero =>
    intro packet packet' info info' h
    cases h
    exact Kept.refl _ _
  | succ n ih =>
    intro packet packet' info info' h
    rw [addPlaceholders_succ] at h
    obtain ⟨⟨p1, i1, added⟩, h1, h⟩ := bind_eq_ok.1 h
    cases added with
    | false => cases h; exact addField_kept h1
    | true => exact (addField_kept h1).trans (ih h)

theorem addPlaceholders_holds {header : Bytes} :
    ∀ {n : Nat} {packet packet' : NtpPacketBuf} {info info' : NtpPacketInfo}
      {fs : List (Int × Bytes)}, Holds packet info.length header fs →
      addPlaceholders len n packet info = .ok (packet', info', true) →
      Holds packet' info'.length header (fs ++ List.replicate n
        (0x0304, List.replicate len 0)) := by
  intro n
  induction n with
  | zero =>
    intro packet packet' info info' fs h ha
    cases ha
    rw [List.replicate_zero, List.append_nil]; exact h
  | succ n ih =>
    intro packet packet' info info' fs h ha
    rw [addPlaceholders_succ] at ha
    obtain ⟨⟨p1, i1, ok⟩, h1, ha⟩ := bind_eq_ok.1 ha
    cases ok with
    | false => cases ha
    | true =>
      have h2 := ih (h.add (by decide) (by decide) h1).1 ha
      rwa [List.append_assoc, List.singleton_append, ← List.replicate_succ] at h2

theorem addPlaceholders_fits (h12 : 12 ≤ len) (h4 : len % 4 = 0) :
    ∀ {n : Nat} (packet : NtpPacketBuf) (info : NtpPacketInfo), 48 ≤ info.length →
      info.length % 4 = 0 → info.version = 4 → info.length + n * (4 + len) ≤ 1140 →
      ∃ packet' info', addPlaceholders len n packet info = .ok (packet', info', true) ∧
        info'.length = info.length + n * (4 + len) ∧ info'.version = 4 := by
  intro n
  induction n with
  | zero =>
    intro packet info _ _ hv _
    exact ⟨packet, info, rfl, by simp, hv⟩
  | succ n ih =>
    intro packet info h48 hmod hv hend
    have hsplit : ((n + 1 : Nat) : Int) * (4 + len) =
        (4 + len) + n * (4 + len) := by push_cast; ring
    have hpos : (0 : Int) ≤ n * (4 + len) := by positivity
    have hf : Fits info (List.replicate len (0 : UInt8)).length := by
      rw [List.length_replicate]
      exact ⟨h48, hmod, hv, h12, h4, by omega⟩
    obtain ⟨p1, h1⟩ := addField_fits packet (t := 0x0304) hf
    rw [List.length_replicate] at h1
    obtain ⟨p2, i2, h2, hl2, hv2⟩ := ih p1 (grown info len) (by simp only [grown]; omega)
      (by simp only [grown]; omega) hv (by simp only [grown]; omega)
    refine ⟨p2, i2, ?_, ?_, hv2⟩
    · rw [addPlaceholders_succ, h1, ok_bind]
      exact h2
    · rw [hl2]
      simp only [grown]
      omega

theorem addRequestFields_kept (h : addRequestFields packet info uniqId cookie req =
    .ok (packet', info', ok)) : Kept packet info packet' info' := by
  unfold addRequestFields at h
  obtain ⟨⟨p1, i1, ok1⟩, h1, h⟩ := bind_eq_ok.1 h
  cases ok1 with
  | false => cases h; exact addField_kept h1
  | true =>
    obtain ⟨⟨p2, i2, ok2⟩, h2, h⟩ := bind_eq_ok.1 h
    have hk := (addField_kept h1).trans (addField_kept h2)
    cases ok2 with
    | false => cases h; exact hk
    | true => exact hk.trans (addPlaceholders_kept h)

/-- The fields that `generate_request_auth` puts in front of the authenticator. -/
theorem addRequestFields_holds (hlen : info.length = 48)
    (h : addRequestFields packet info uniqId cookie req = .ok (packet', info', true)) :
    Holds packet' info'.length (packet.bytes.take 48)
      (requestFields uniqId cookie (req - 1).toNat) := by
  unfold addRequestFields at h
  obtain ⟨⟨p1, i1, ok1⟩, h1, h⟩ := bind_eq_ok.1 h
  cases ok1 with
  | false => cases h
  | true =>
    obtain ⟨⟨p2, i2, ok2⟩, h2, h⟩ := bind_eq_ok.1 h
    cases ok2 with
    | false => cases h
    | true =>
      have g0 : Holds packet info.length (packet.bytes.take 48) [] := hlen ▸ holds_header packet
      have g1 := (g0.add (by decide) (by decide) h1).1
      have g2 := (g1.add (by decide) (by decide) h2).1
      exact addPlaceholders_holds g2 h

structure CookieFits (cookie : NkeCookie) : Prop where
  length_ge : 12 ≤ cookie.bytes.length
  length_le : cookie.bytes.length ≤ 1012
  length_mod : cookie.bytes.length % 4 = 0

theorem reqCookies_eq (hlen : cookie.bytes.length < 2 ^ 30) (h : reqCookies num cookie = .ok req) :
    req = min (8 - num) (864 / (cookie.bytes.length + 4)) := by
  unfold reqCookies at h
  rw [asI32_of_lt (by omega), i32_of_range (by omega) (by omega), ok_bind, if_neg (by omega)] at h
  cases h
  rw [Int.tdiv_eq_ediv_of_nonneg (by decide)]

/-- The cookie and its placeholders take at most 1016 bytes. -/
theorem CookieFits.placeholders_le (hc : CookieFits cookie)
    (hreq : req = min (8 - num) (864 / (cookie.bytes.length + 4))) :
    ((req - 1).toNat + 1) * (4 + cookie.bytes.length) ≤ 1016 := by
  have hle := hc.length_le
  generalize cookie.bytes.length = len at *
  have hdiv : (864 / ((len : Int) + 4)) * (len + 4) ≤ 864 := Int.ediv_mul_le _ (by omega)
  rcases Nat.eq_zero_or_pos (req - 1).toNat with h0 | hpos
  · rw [h0]; omega
  · have hreq' : ((req - 1).toNat + 1 : Int) ≤ 864 / ((len : Int) + 4) := by omega
    have hmul := Int.mul_le_mul_of_nonneg_right hreq' (show (0 : Int) ≤ len + 4 by omega)
    have hcast : ((((req - 1).toNat + 1) * (4 + len) : Nat) : Int) =
        ((req - 1).toNat + 1 : Int) * (len + 4) := by push_cast; ring
    omega

theorem addRequestFields_fits (packet : NtpPacketBuf) (hlen : info.length = 48)
    (hv : info.version = 4) (hu : uniqId.length = 32) (hc : CookieFits cookie)
    (hreq : req = min (8 - num) (864 / (cookie.bytes.length + 4))) :
    ∃ packet' info', addRequestFields packet info uniqId cookie req = .ok (packet', info', true) ∧
      info'.length = 84 + ((req - 1).toNat + 1) * (4 + cookie.bytes.length) ∧
        info'.version = 4 := by
  have hle := hc.placeholders_le hreq
  have h12 := hc.length_ge; have h4 := hc.length_mod
  have hsum : (((req - 1).toNat + 1) * (4 + cookie.bytes.length) : Int) =
      (req - 1).toNat * (4 + cookie.bytes.length) + (4 + cookie.bytes.length) := by ring
  have hpos : (0 : Int) ≤ (req - 1).toNat * (4 + cookie.bytes.length) := by positivity
  have hle : (((req - 1).toNat + 1) * (4 + cookie.bytes.length) : Int) ≤
      1016 := by exact_mod_cast hle
  have hf1 : Fits info uniqId.length := ⟨by omega, by omega, hv, by omega, by omega, by omega⟩
  obtain ⟨p1, h1⟩ := addField_fits packet (t := 0x0104) hf1
  rw [hu] at h1
  have hf2 : Fits (grown info 32) cookie.bytes.length :=
    ⟨by simp only [grown]; omega, by simp only [grown]; omega, hv, h12,
      h4, by simp only [grown]; omega⟩
  obtain ⟨p2, h2⟩ := addField_fits p1 (t := 0x0204) hf2
  obtain ⟨p3, i3, h3, hl3, hv3⟩ := addPlaceholders_fits h12 h4 p2
    (grown (grown info 32) cookie.bytes.length) (n := (req - 1).toNat)
    (by simp only [grown]; omega) (by simp only [grown]; omega) hv
    (by simp only [grown]; omega)
  refine ⟨p3, i3, ?_, ?_, hv3⟩
  · unfold addRequestFields
    rw [h1, ok_bind]
    dsimp only
    rw [h2, ok_bind]
    exact h3
  · rw [hl3]
    simp only [grown]
    omega

/-! ## The request -/

omit [AesSiv C] in
theorem takeCookie_ok (h : c.takeCookie = .ok (c1, cookie)) :
    c.cookies[asUsize c.cookieIndex]? = some cookie ∧ c1.numCookies = c.numCookies - 1 ∧
      c1.uniqId = c.uniqId ∧ c1.nonce = c.nonce ∧
      c1.ghost.placed = c.ghost.placed ++ [c.ghost.serials.getD (asUsize c.cookieIndex) none] := by
  unfold takeCookie at h
  obtain ⟨x, hx, h⟩ := bind_eq_ok.1 h
  cases h
  exact ⟨index_eq_ok.1 hx, rfl, rfl, rfl, rfl⟩

/-- Whatever `generate_request_auth` returns, the packet starts with what was in it. -/
theorem generateRequestAuth_kept (h : c.generateRequestAuth packet info =
    .ok (c1, packet', info', ok)) : Kept packet info packet' info' := by
  unfold generateRequestAuth at h
  split at h
  · cases h; exact Kept.refl _ _
  dsimp only at h
  split at h
  · cases h; exact Kept.refl _ _
  split at h
  · cases h; exact Kept.refl _ _
  obtain ⟨⟨c2, cookie⟩, ht, h⟩ := bind_eq_ok.1 h
  obtain ⟨req, -, h⟩ := bind_eq_ok.1 h
  obtain ⟨⟨p1, i1, added⟩, h1, h⟩ := bind_eq_ok.1 h
  cases added with
  | false => cases h; exact addRequestFields_kept h1
  | true =>
    obtain ⟨⟨p2, i2, siv, sealed⟩, h2, h⟩ := bind_eq_ok.1 h
    have hk := (addRequestFields_kept h1).trans
      (generateAuthEf_kept h2)
    cases sealed <;> cases h <;> exact hk

/-- The bytes of a request: a header, the fields, and their authenticator. -/
def requestBody (header uniqId nonce : Bytes) (key : C) (cookie : NkeCookie) (n : Nat) :
    List (Int × Bytes) :=
  requestFields uniqId cookie n ++
    [authField key nonce (header ++ encFields (requestFields uniqId cookie n)) []]

/-- A successful call took a cookie and appended all the fields. -/
theorem generateRequestAuth_true {req : NtpPacketBuf} {reqInfo : NtpPacketInfo} (hk : c.Keyed)
    (hlen : info.length = 48) (h : c.generateRequestAuth packet info =
      .ok (c1, req, reqInfo, true)) :
    ∃ c2 cookie n siv, c.authReady = true ∧ 0 < c.numCookies ∧ info.mode = 3 ∧
      ({ c with authReady := false } : NtsClient F C H).takeCookie = .ok (c2, cookie) ∧
      c1 = { c2 with siv := some siv, okResponse := false } ∧ n < 8 ∧
      Holds req reqInfo.length (packet.bytes.take 48)
        (requestBody (packet.bytes.take 48) c.uniqId.bytes c.nonce.bytes
          (AesSiv.setKey c.context.c2s : C) cookie n) := by
  unfold generateRequestAuth at h
  split at h
  · cases h
  rename_i hready
  obtain ⟨siv, hsiv, hkey⟩ := hk (Decidable.not_not.1 hready)
  dsimp only at h
  split at h
  · cases h
  rename_i siv' hsiv'
  obtain rfl : siv = siv' := Option.some.inj (hsiv.symm.trans hsiv')
  split at h
  · cases h
  rename_i hguard
  simp only [not_or, not_le, not_not] at hguard
  obtain ⟨⟨c2, cookie⟩, ht, h⟩ := bind_eq_ok.1 h
  obtain ⟨-, hnum, huniq, hnonce, -⟩ := takeCookie_ok ht
  obtain ⟨req1, hreq, h⟩ := bind_eq_ok.1 h
  obtain ⟨⟨packet1, info1, added⟩, hadd, h⟩ := bind_eq_ok.1 h
  cases added with
  | false => cases h
  | true =>
    obtain ⟨⟨packet2, info2, siv2, sealed⟩, hseal, h⟩ := bind_eq_ok.1 h
    cases sealed with
    | false => cases h
    | true =>
      cases h
      have hf := addRequestFields_holds hlen hadd
      rcases hf.seal [] 28 hkey c2.nonce.length_bytes (by decide) (by decide)
        (by decide) (by decide) with ⟨-, p, hp⟩ | ⟨-, p, hp, hsent⟩
      · rw [hp] at hseal; cases hseal
      · rw [hp] at hseal
        cases hseal
        rw [huniq, hnonce] at hsent
        refine ⟨c2, cookie, (req1 - 1).toNat, siv, Decidable.not_not.1 hready, hguard.1,
          hguard.2, ht, rfl, ?_, hsent⟩
        -- at most as many cookies as there are free slots
        unfold reqCookies at hreq
        obtain ⟨len, -, hreq⟩ := bind_eq_ok.1 hreq
        split at hreq
        · cases hreq
        · cases hreq
          dsimp only at hnum ⊢
          omega

/-- **When a request is complete.** A call that returns succeeds iff a request was
prepared, the packet is in client mode, and there is a cookie that fits. -/
theorem generateRequestAuth_iff (hk : c.Keyed) (hlen : info.length = 48) (hv : info.version = 4)
    (h : c.generateRequestAuth packet info = .ok (c1, packet', info', ok)) :
    ok = true ↔ c.authReady = true ∧ 0 < c.numCookies ∧ info.mode = 3 ∧
      ∃ cookie, c.cookies[asUsize c.cookieIndex]? = some cookie ∧ CookieFits cookie := by
  constructor
  · rintro rfl
    obtain ⟨c2, cookie, n, siv, hready, hpos, hmode, ht, -, -, hsent⟩ :=
      generateRequestAuth_true hk hlen h
    refine ⟨hready, hpos, hmode, cookie, (takeCookie_ok ht).1, ?_⟩
    have hf := hsent.fields_ok (0x0204, cookie.bytes) (by simp [requestBody, requestFields])
    have hend := hsent.length_eq; have hle := hsent.length_le
    rw [requestBody, encFields_append, List.length_append, encFields_requestFields_length,
      encFields_cons, encFields_nil, List.append_nil, encField_length,
      authField_length _ _ _ c.nonce.length_bytes rfl, c.uniqId.length_bytes] at hend
    have hbody := hf.body_ge; have hmod := hf.body_mod
    dsimp only at hbody hmod
    have hn : 0 ≤ n * (4 + cookie.bytes.length) := Nat.zero_le _
    exact ⟨hbody, by simp only [List.length_nil] at hend; omega, hmod⟩
  · rintro ⟨hready, hpos, hmode, cookie, hget, hc⟩
    obtain ⟨siv, hsiv, hkey⟩ := hk hready
    have h1012 := hc.length_le
    unfold generateRequestAuth at h
    rw [if_neg (by simp [hready])] at h
    dsimp only at h
    rw [hsiv] at h
    dsimp only at h
    rw [if_neg (by omega)] at h
    obtain ⟨⟨c2, cookie'⟩, ht, h⟩ := bind_eq_ok.1 h
    obtain ⟨hget', -, huniq, -⟩ := takeCookie_ok ht
    obtain rfl : cookie = cookie' := Option.some.inj (hget.symm.trans hget')
    obtain ⟨req, hreq, h⟩ := bind_eq_ok.1 h
    obtain ⟨p1, i1, hadd, hl1, hv1⟩ := addRequestFields_fits packet hlen hv
      c2.uniqId.length_bytes hc
      (reqCookies_eq (by omega) hreq)
    rw [hadd, ok_bind] at h
    have hle := hc.placeholders_le (reqCookies_eq (by omega) hreq)
    have hf := addRequestFields_holds hlen hadd
    -- the fields take at most 1016 bytes, so the authenticator fits behind them
    have hle' : i1.length ≤ 1100 := by rw [hl1]; exact_mod_cast Nat.add_le_add_left hle 84
    have hmod := encFields_mod hf.fields_ok
    have hfl := hf.length_eq
    rcases hf.seal [] 28 hkey c2.nonce.length_bytes (by decide) (by decide)
      (by decide) (by decide) with ⟨hno, -⟩ | ⟨-, p, hp, -⟩
    · exact absurd ⟨by omega, by omega, hv1, by decide, by decide, by
        simp only [List.length_nil]; omega⟩ hno
    · dsimp only at h
      rw [hp, ok_bind] at h
      cases h
      rfl

/-- The request carries the cookie of the serial that is noted as placed. -/
theorem generateRequestAuth_placed (hi : c.PoolInv ∧ c.Keyed) (hlen : info.length = 48)
    (h : c.generateRequestAuth packet info = .ok (c1, packet', info', true)) :
    ∃ (slot serial : Nat) (cookie : NkeCookie) (n : Nat), c.ghost.serials[slot]? =
      some (some serial) ∧ c.cookies[slot]? = some cookie ∧
      c1.ghost.placed = c.ghost.placed ++ [some serial] ∧
      Holds packet' info'.length (packet.bytes.take 48)
        (requestBody (packet.bytes.take 48) c.uniqId.bytes c.nonce.bytes
          (AesSiv.setKey c.context.c2s : C) cookie n) := by
  have hgiven := (generateRequestAuth_pool hi.1 h).1.given
  obtain ⟨c2, cookie, n, siv, -, -, -, ht, rfl, -, hsent⟩ := generateRequestAuth_true hi.2 hlen h
  obtain ⟨hcookie, -, -, -, hplaced⟩ := takeCookie_ok ht
  dsimp only at hcookie hplaced
  obtain ⟨serial, -, hserial⟩ := hgiven (c.ghost.serials.getD (asUsize c.cookieIndex) none)
    (List.mem_append_right _ (by rw [hplaced]; simp))
  rw [hserial] at hplaced
  refine ⟨asUsize c.cookieIndex, serial, cookie, n, ?_, hcookie, hplaced, hsent⟩
  rw [List.getD_eq_getElem?_getD] at hserial
  cases hget : c.ghost.serials[asUsize c.cookieIndex]? with
  | none => rw [hget] at hserial; cases hserial
  | some s => rw [hget] at hserial; exact congrArg some hserial

/-! ## Runs -/

variable [F64 F] [NtsHost H F] {c' : NtsClient F C H}

inductive Call where
  | prepare (ok : Bool)
  | generate (ok : Bool)
  | check (ok : Bool)
  deriving DecidableEq, Repr

/-- One call, with any packet, that returns. -/
inductive Step : NtsClient F C H → Call → NtsClient F C H → Prop
  | prepare {c c' : NtsClient F C H} {ok : Bool} (h : c.prepareForAuth = .ok (c', ok)) :
      Step c (.prepare ok) c'
  | generate {c c' : NtsClient F C H} {packet packet' : NtpPacketBuf} {info info' : NtpPacketInfo}
      {ok : Bool} (h : c.generateRequestAuth packet info = .ok (c', packet', info', ok)) :
      Step c (.generate ok) c'
  | check {c c' : NtsClient F C H} {packet : NtpPacketBuf} {info : NtpPacketInfo} {ok : Bool}
      (h : c.checkResponseAuth packet info = .ok (c', ok)) : Step c (.check ok) c'

theorem Step.pool {e : Call} (hi : c.PoolInv) (h : Step c e c') :
    c'.PoolInv := by
  cases h with
  | prepare h => exact (prepareForAuth_pool hi h).1
  | generate h => exact (generateRequestAuth_pool hi h).1
  | check h => exact (checkResponseAuth_pool hi h).1

theorem Step.keyed {e : Call} (hi : c.PoolInv ∧ c.Keyed) (h : Step c e c') :
    c'.PoolInv ∧ c'.Keyed := by
  refine ⟨h.pool hi.1, ?_⟩
  cases h with
  | prepare h => exact (prepareForAuth_pool hi.1 h).2.2
  | generate h => exact keyed_of_not_ready (generateRequestAuth_pool hi.1 h).2.2
  | check h =>
    rcases (checkResponseAuth_pool hi.1 h).2.2.2 with rfl | hready
    · exact hi.2
    · exact keyed_of_not_ready hready

/-- Once a response was accepted none is awaited, until a request is made. -/
theorem Step.settled {e : Call} (hi : c.PoolInv ∧ c.okResponse = true) (h : Step c e c')
    (he : e ≠ .generate true) : c'.PoolInv ∧ c'.okResponse = true := by
  refine ⟨h.pool hi.1, ?_⟩
  cases h with
  | prepare h => exact (prepareForAuth_pool hi.1 h).2.1.trans hi.2
  | generate h =>
    rename_i ok
    cases ok with
    | false => rw [(generateRequestAuth_pool hi.1 h).2.1, hi.2]; rfl
    | true => exact absurd rfl he
  | check h => rw [(checkResponseAuth_pool hi.1 h).2.2.1, hi.2]; rfl

/-- Between two accepted responses a request was made: the first one settles the request before it,
and only a new request undoes that. -/
theorem request_between {c0 c : NtsClient F C H} (h0 : c0.PoolInv) {t1 t2 t3 : List Call}
    (h : Run Step c0 (t1 ++ .check true :: (t2 ++ .check true :: t3)) c) :
    .generate true ∈ t2 := by
  by_contra hno
  obtain ⟨c1, hr1, hr⟩ := h.split
  have h1 := hr1.invariant (I := PoolInv) (fun _ _ _ => Step.pool) h0
  cases hr with
  | cons hs1 hr =>
    obtain ⟨c3, hr2, hr⟩ := hr.split
    cases hs1 with
    | check hc =>
      have h2 := (checkResponseAuth_pool h1 hc).2.2.1
      rw [Bool.or_true] at h2
      have h3 := hr2.invariant_unless (I := fun c => c.PoolInv ∧ c.okResponse = true)
        (· = .generate true) (fun _ _ _ => Step.settled)
        ⟨(checkResponseAuth_pool h1 hc).1, h2⟩ (fun e he heq => hno (heq ▸ he))
      cases hr with
      | cons hs2 _ =>
        cases hs2 with
        | check hc' =>
          have := (checkResponseAuth_pool h3.1 hc').2.1 rfl
          rw [h3.2] at this
          cases this

/-- **Cookie accounting.** In every run from a new association, whatever the NTS-KE
client delivers and the network sends: the counters are in range, no cookie
occurrence is taken for two requests, none is overwritten while it is counted,
between two accepted responses a request was made, and the cookie that a request
carries is the one of the serial that was taken for it. -/
theorem cookie_accounting (addr : NtpAddress) (name : String) (cert : UInt32) (port : UInt16)
    (host : H) (refresh : F) {tr : List Call} {c : NtsClient F C H}
    (h : Run Step (new addr name cert port host refresh) tr c) :
    (0 ≤ c.numCookies ∧ c.numCookies ≤ 8) ∧ (0 ≤ c.cookieIndex ∧ c.cookieIndex < 8) ∧
    (c.ghost.placed.Nodup ∧ none ∉ c.ghost.placed) ∧ c.ghost.lost = false ∧
    (∀ t1 t2 t3, tr = t1 ++ .check true :: (t2 ++ .check true :: t3) → .generate true ∈ t2) ∧
    ∀ packet info c' packet' info', info.length = 48 →
      c.generateRequestAuth packet info = .ok (c', packet', info', true) →
      ∃ (slot serial : Nat) (cookie : NkeCookie) (n : Nat), c.ghost.serials[slot]? =
        some (some serial) ∧ c.cookies[slot]? = some cookie ∧
        c'.ghost.placed = c.ghost.placed ++ [some serial] ∧
        Holds packet' info'.length (packet.bytes.take 48)
          (requestBody (packet.bytes.take 48) c.uniqId.bytes c.nonce.bytes
            (AesSiv.setKey c.context.c2s : C) cookie n) := by
  have hnew := new_pool (C := C) addr name cert port host refresh
  obtain ⟨hi, hkeyed⟩ := h.invariant (I := fun c => c.PoolInv ∧ c.Keyed)
    (fun _ _ _ => Step.keyed) ⟨hnew, keyed_of_not_ready rfl⟩
  refine ⟨⟨hi.num_nonneg, hi.num_le⟩, ⟨hi.index_nonneg, hi.index_lt⟩,
    ⟨(List.nodup_append.1 hi.once).2.1, fun hn => ?_⟩, hi.not_lost, ?_,
    fun packet info c' packet' info' hlen hgen =>
      generateRequestAuth_placed ⟨hi, hkeyed⟩ hlen hgen⟩
  · obtain ⟨k, -, hk⟩ := hi.given none (List.mem_append_right _ hn)
    cases hk
  · rintro t1 t2 t3 rfl
    exact request_between hnew h

/-- A session, and its cookie as `PlainCodec` makes it. -/
def freshContext : NkeContext := ⟨.aesSivCmac256, List.replicate 32 1, List.replicate 32 2⟩

def freshCookie : NkeCookie := ⟨List.replicate 32 1 ++ List.replicate 32 2⟩

/-- An association whose NTS-KE exchange delivers that session, with the cookie twice. -/
def fresh : NtsClient ℚ NullCipher StaticHost :=
  new ⟨some 1, 4460⟩ "ntp.example.net" 0 123
    ⟨some ⟨freshContext, [freshCookie, freshCookie], ⟨none, 0⟩⟩⟩ 2419200

/-- Prepare a request and make it. -/
def request (c : NtsClient ℚ NullCipher StaticHost) :
    Rust (NtsClient ℚ NullCipher StaticHost × Bool × Bool) := do
  let (c, prepared) ← c.prepareForAuth
  let (c, _, _, generated) ← c.generateRequestAuth (Buf.zero 1140)
      { length := 48, version := 4, mode := 3 }
  return (c, prepared, generated)

theorem request_run {c c' : NtsClient ℚ NullCipher StaticHost} {prepared generated : Bool}
    (h : request c = .ok (c', prepared, generated)) :
      Run Step c [.prepare prepared, .generate generated] c' := by
  unfold request at h
  obtain ⟨⟨c1, prepared⟩, h1, h⟩ := bind_eq_ok.1 h
  obtain ⟨⟨c2, p2, i2, generated⟩, h2, h⟩ := bind_eq_ok.1 h
  cases h
  exact .cons (.prepare h1) (.cons (.generate h2) (.nil _))

/-- Two requests with two cookies. -/
theorem cookie_accounting_two_requests :
    ∃ c : NtsClient ℚ NullCipher StaticHost,
      Run Step fresh [.prepare true, .generate true, .prepare true, .generate true] c ∧
      c.ghost.placed = [some 0, some 1] ∧ c.ghost.placed.Nodup := by
  obtain ⟨c, h⟩ := exists_of_result (show (do
      let (c1, flags1) ← request fresh
      let (c2, flags2) ← request c1
      return (c2, flags1, flags2, c2.ghost.placed)).toOption.map Prod.snd =
      some ((true, true), (true, true), [some 0, some 1]) by decide +kernel)
  obtain ⟨⟨c1, flags1⟩, h1, h⟩ := bind_eq_ok.1 h
  obtain ⟨⟨c2, flags2⟩, h2, h⟩ := bind_eq_ok.1 h
  simp only [pure_eq, Except.ok.injEq, Prod.mk.injEq] at h
  obtain ⟨rfl, rfl, rfl, hplaced⟩ := h
  have hrun := (request_run h1).append (request_run h2)
  exact ⟨c2, hrun, hplaced, (cookie_accounting _ _ _ _ _ _ hrun).2.2.1.1⟩

end NtsClient

end ChronyRs.L3.Nts

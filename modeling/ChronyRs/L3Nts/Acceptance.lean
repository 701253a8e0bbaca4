import ChronyRs.L1Encoding.Parse
import ChronyRs.L3Nts.Client
import ChronyRs.L3Nts.Server

/-!
# What an accepted NTS packet is covered by

Both ends walk over the fields of a packet, set flags and decrypt on the way. The
loop invariants (`RespSeen`, `ReqSeen`) say what the flags mean after the fields
walked over so far; `Covered` is what follows when the walk ends with all flags
set: the authenticator is the last field and the only one of its type, so every
byte of the packet is either in front of it, hence associated data, or in it.

* `NtsClient.checkResponseAuth_true`, `NtsServer.checkRequestAuth_true`: the
  inversion of an accepting call.
* `acceptance_covers`: full coverage, for both ends.
-/
namespace ChronyRs.L3.Nts

open L1.Ext L1.Parse L2 L2.AuthEf

def fieldBody (packet : NtpPacketBuf) (pf : ParsedField) : Bytes :=
  (packet.bytes.take (pf.bodyOffset + asUsize pf.bodyLength)).drop pf.bodyOffset

/-- The AEAD accepted the nonce and ciphertext of the authenticator at `start`, with
all bytes in front of it as associated data. -/
def Decrypted {S : Type} [Siv S] (siv : S) (packet : NtpPacketBuf) (info : NtpPacketInfo)
    (start : Int) : Prop :=
  ∃ (n : Nat) (pf : ParsedField) (nl cl : Int) (a : AuthSpans),
    Field packet info siv start n pf nl cl ∧ a = spansOf pf nl cl (Siv.tagLength siv) ∧
    ∃ dst : Buf a.plaintextLength, (Siv.decrypt siv (a.nonce packet)
      (packet.bytes.take start.toNat) (a.ciphertext packet) dst).ok = true

theorem decrypted_of_some {S : Type} [Siv S] {packet : NtpPacketBuf} {info : NtpPacketInfo}
    {siv siv' : S} {start : Int} {n k : Nat} {out out' : Buf n}
    (h : decryptAuthEf packet info siv start out = .ok (siv', out', some k)) :
    Decrypted siv packet info start := by
  obtain ⟨pf, nl, cl, a, hf, ha, -, -, -, dst, hok⟩ := decryptAuthEf_some h
  exact ⟨n, pf, nl, cl, a, hf, ha, dst, hok⟩

/-- The packet is tiled by the fields `before` and the authenticator `pf` at `start`,
the only one of its type. -/
structure Covered (packet : NtpPacketBuf) (info : NtpPacketInfo) (before : List (Int × ParsedField))
    (start : Int) (pf : ParsedField) : Prop where
  tiles : (fields packet info.length).Path 48 (before ++ [(start, pf)]) info.length
  auth : pf.fieldType = 0x0404
  only : ∀ x ∈ before, x.2.fieldType ≠ 0x0404
  ends : start + pf.length = info.length

/-- A walk that met an authenticator only at the end of the packet, and met one, is
covered by it. -/
theorem covered_of_path {packet : NtpPacketBuf} {info : NtpPacketInfo} {b : Int}
    {l : List (Int × ParsedField)} (hp : (fields packet info.length).Path 48 l b)
    (hend : ∀ x ∈ l, x.2.fieldType = 0x0404 → x.1 + x.2.length = info.length)
    {x : Int × ParsedField} (hx : x ∈ l) (ht : x.2.fieldType = 0x0404) :
    ∃ before, l = before ++ [x] ∧ Covered packet info before x.1 x.2 := by
  obtain ⟨start, pf⟩ := x
  have he : start + pf.length = info.length := hend _ hx ht
  obtain ⟨before, rfl, -, hb, hlt⟩ := hp.last (fields_progress packet info.length) hx
    (show info.length ≤ start + pf.length by omega)
  refine ⟨before, rfl, ?_, ht, fun y hy hyt => ?_, he⟩
  · have : b = info.length := hb.trans he
    exact this ▸ hp
  · have h1 : y.1 + y.2.length < info.length := hlt y.1 y.2 hy
    have h2 := hend y (List.mem_append_left _ hy) hyt
    omega

theorem forall_mem_snoc {α : Type} {P : α → Prop} {l : List α} {a : α} (h : ∀ x ∈ l, P x)
    (ha : P a) : ∀ x ∈ l ++ [a], P x :=
  List.forall_mem_append.2 ⟨h, List.forall_mem_singleton.2 ha⟩

/-! ## The client -/

namespace NtsClient

variable {F C H : Type} [F64 F] [AesSiv C] [NtsHost H F]

/-- What the walk over a response has established after the fields `l`. -/
structure RespSeen (packet : NtpPacketBuf) (info : NtpPacketInfo) (uniqId : Bytes)
    (siv : SivInstance C) (l : List (Int × ParsedField)) (s : RespScan C) : Prop where
  siv_eq : s.siv = siv
  uniqId_iff : s.hasValidUniqId = true ↔ ∃ x ∈ l, x.2.fieldType = 0x0104
  uniqId_eq : ∀ x ∈ l, x.2.fieldType = 0x0104 → fieldBody packet x.2 = uniqId
  auth_iff : s.hasValidAuth = true ↔ ∃ x ∈ l, x.2.fieldType = 0x0404
  auth_ends : ∀ x ∈ l, x.2.fieldType = 0x0404 →
    x.1 + x.2.length = info.length ∧ Decrypted siv packet info x.1

theorem RespSeen.init (packet : NtpPacketBuf) (info : NtpPacketInfo) (uniqId : Bytes)
    (siv : SivInstance C) :
    RespSeen packet info uniqId siv [] ⟨false, false, Buf.zero 1092, 0, siv⟩ :=
  ⟨rfl, by simp, by simp, by simp, by simp⟩

variable {packet : NtpPacketBuf} {info : NtpPacketInfo} {uniqId : Bytes} {s : RespScan C}
  {siv : SivInstance C}

/-- A field that the walk over a response passes: the awaited unique identifier, an authenticator
that ends the packet and decrypts to well-formed fields, or one of no interest. -/
theorem scanResponseField_cases {s' : RespScan C} {p : Int} {pf : ParsedField}
    (h : scanResponseField packet info uniqId s p pf = .ok (.next s')) :
    (pf.fieldType = 0x0104 ∧ fieldBody packet pf = uniqId ∧
      s' = { s with hasValidUniqId := true }) ∨
    (pf.fieldType = 0x0404 ∧ p + pf.length = info.length ∧ ∃ siv plaintext n,
      decryptAuthEf packet info s.siv p s.plaintext = .ok (siv, plaintext, some n) ∧
      parseEncryptedEfs plaintext.bytes (asI32 n) = .ok true ∧
      s' = { s with siv, plaintext, plaintextLength := n, hasValidAuth := true }) ∨
    (pf.fieldType ≠ 0x0104 ∧ pf.fieldType ≠ 0x0404 ∧ s' = s) := by
  unfold scanResponseField at h
  split at h
  · rename_i ht
    split at h
    · cases h
    obtain ⟨body, hb, h⟩ := bind_eq_ok.1 h
    split at h
    · cases h
    rename_i hbody
    cases h
    exact .inl ⟨ht, (slice_eq_ok.1 hb).2.2.symm.trans (Decidable.not_not.1 hbody), rfl⟩
  rename_i ht1
  split at h
  · rename_i ht
    split at h
    · cases h
    rename_i hend
    obtain ⟨⟨siv, plaintext, o⟩, hd, h⟩ := bind_eq_ok.1 h
    cases o with
    | none => cases h
    | some n =>
      obtain ⟨ok, hparse, h⟩ := bind_eq_ok.1 h
      cases ok with
      | false => cases h
      | true =>
        cases h
        exact .inr (.inl ⟨ht, Decidable.not_not.1 hend, siv, plaintext, n, hd, hparse, rfl⟩)
  · rename_i ht4
    cases h
    exact .inr (.inr ⟨ht1, ht4, rfl⟩)

theorem scanResponseField_next {l : List (Int × ParsedField)} {s' : RespScan C} {p : Int}
    {pf : ParsedField} (hs : RespSeen packet info uniqId siv l s)
    (h : scanResponseField packet info uniqId s p pf = .ok (.next s')) :
    RespSeen packet info uniqId siv (l ++ [(p, pf)]) s' := by
  obtain ⟨h1, h2, h3, h4, h5⟩ := hs
  -- the two conditions over the fields, with the new field added
  have snoc3 := forall_mem_snoc (a := (p, pf)) h3
  have snoc5 := forall_mem_snoc (a := (p, pf)) h5
  rcases scanResponseField_cases h with ⟨ht, hbody, rfl⟩ | ⟨ht, hend, siv', out, n, hd, -, rfl⟩ |
    ⟨ht1, ht4, rfl⟩
  · have hne : pf.fieldType ≠ 0x0404 := by omega
    exact ⟨h1, by simp [ht], snoc3 fun _ => hbody, by simp [h4, ht], snoc5 fun h => absurd h hne⟩
  · have hne : pf.fieldType ≠ 0x0104 := by omega
    rw [h1] at hd
    exact ⟨decryptAuthEf_siv hd, by simp [h2, ht], snoc3 fun h => absurd h hne, by simp [ht],
      snoc5 fun _ => ⟨hend, decrypted_of_some hd⟩⟩
  · exact ⟨h1, by simp [h2, ht1], snoc3 fun h => absurd h ht1, by simp [h4, ht4],
      snoc5 fun h => absurd h ht4⟩

theorem scanResponse_next (h : scanResponse packet info uniqId siv = .ok (.next s)) :
    ∃ l b, (fields packet info.length).Path 48 l b ∧ RespSeen packet info uniqId siv l s := by
  obtain ⟨l, b, hp, -, hs⟩ := (Walker.run_next_iff _ _ (fields_progress packet info.length)
    (by show (info.length - 48).toNat < _; omega)).1 h
  exact ⟨l, b, hp, Walker.steps_induct (RespSeen packet info uniqId siv)
    (fun _ _ _ _ _ => scanResponseField_next) (RespSeen.init packet info _ siv) hs⟩

/-- The plaintext that the walk leaves behind fits its buffer, and after an authenticator it is
tiled by fields. -/
theorem scanResponse_plaintext (h : scanResponse packet info uniqId siv = .ok (.next s)) :
    s.plaintextLength ≤ 1092 ∧
      (s.hasValidAuth = true → parseEncryptedEfs s.plaintext.bytes (asI32 s.plaintextLength) =
        .ok true) := by
  have hkeep := Walker.run_inv (fun s : RespScan C => s.plaintextLength ≤ 1092 ∧
    (s.hasValidAuth = true →
      parseEncryptedEfs s.plaintext.bytes (asI32 s.plaintextLength) = .ok true)) (fun _ => True)
    (fun _ _ => trivial) (fun s p pf s' hs hb => by
      rcases scanResponseField_cases hb with ⟨-, -, rfl⟩ |
        ⟨-, -, siv, out, n, hd, hparse, rfl⟩ | ⟨-, -, rfl⟩
      · exact hs
      · obtain ⟨-, -, -, -, -, -, -, -, hn, -⟩ := decryptAuthEf_some hd
        exact ⟨hn, fun _ => hparse⟩
      · exact hs)
    (fun _ _ _ _ _ _ => trivial) _ ⟨Nat.zero_le _, by simp⟩ h
  rcases hkeep with ⟨s', he, hs⟩ | ⟨x, he, -⟩
  · cases he; exact hs
  · cases he

omit [NtsHost H F] in
/-- **An accepted response.** -/
theorem checkResponseAuth_true {c c' : NtsClient F C H}
    (h : c.checkResponseAuth packet info = .ok (c', true)) :
    ∃ (siv : SivInstance C) (l : List (Int × ParsedField)) (b : Int) (s : RespScan C),
      siv.ctx = some (AesSiv.setKey c.context.s2c) ∧
      (fields packet info.length).Path 48 l b ∧
      RespSeen packet info c.uniqId.bytes siv l s ∧ s.hasValidUniqId = true ∧
      s.hasValidAuth = true ∧ c.okResponse = false := by
  cases checkResponseAuth_answered h with
  | @accepted hawait siv0 siv s _ hkey hscan huniq hauth hextract =>
    obtain ⟨l, b, hp, hseen⟩ := scanResponse_next hscan
    exact ⟨siv, l, b, s, (SivInstance.setKey_true hkey).2, hp, hseen, huniq, hauth, hawait.1⟩

end NtsClient

/-! ## The server -/

namespace NtsServer

variable {C K : Type} [AesSiv C] [CookieCodec K]

/-- What the walk over a request has established after the fields `l`. -/
structure ReqSeen (packet : NtpPacketBuf) (info : NtpPacketInfo) (l : List (Int × ParsedField))
    (s : ReqScan) : Prop where
  auth_ends : ∀ x ∈ l, x.2.fieldType = 0x0404 → x.1 + x.2.length = info.length
  auth_start : s.hasAuth = true → ∃ x ∈ l, x.2.fieldType = 0x0404 ∧ x.1 = s.authStart
  cookie_eq : s.hasCookie = true →
    ∃ x ∈ l, x.2.fieldType = 0x0204 ∧ fieldBody packet x.2 = s.cookie.bytes

theorem ReqSeen.init (packet : NtpPacketBuf) (info : NtpPacketInfo) : ReqSeen packet info [] {} :=
  ⟨by simp, by simp, by simp⟩

theorem countCookie_some {s s' : ReqScan} {pf : ParsedField} (h : countCookie s pf = some s') :
    s' = { s with requestedCookies := s.requestedCookies + 1, cookieLength := pf.bodyLength } := by
  unfold countCookie at h
  split at h
  · cases h
  · cases h; rfl

theorem scanRequestField_next {packet : NtpPacketBuf} {info : NtpPacketInfo}
    {l : List (Int × ParsedField)} {s s' : ReqScan} {p : Int} {pf : ParsedField}
    (hs : ReqSeen packet info l s) (h : scanRequestField packet info s p pf = .ok (.next s')) :
    ReqSeen packet info (l ++ [(p, pf)]) s' := by
  obtain ⟨h1, h2, h3⟩ := hs
  -- a field that is no authenticator changes neither its flag nor its position
  have keepAuth : s'.hasAuth = s.hasAuth → s'.authStart = s.authStart → s'.hasAuth = true →
      ∃ x ∈ l ++ [(p, pf)], x.2.fieldType = 0x0404 ∧ x.1 = s'.authStart := by
    intro e1 e2 ha
    obtain ⟨x, hx, hxt, hxs⟩ := h2 (e1 ▸ ha)
    exact ⟨x, List.mem_append_left _ hx, hxt, e2 ▸ hxs⟩
  have keepCookie : s'.hasCookie = s.hasCookie → s'.cookie = s.cookie → s'.hasCookie = true →
      ∃ x ∈ l ++ [(p, pf)], x.2.fieldType = 0x0204 ∧ fieldBody packet x.2 = s'.cookie.bytes := by
    intro e1 e2 ha
    obtain ⟨x, hx, hxt, hxs⟩ := h3 (e1 ▸ ha)
    exact ⟨x, List.mem_append_left _ hx, hxt, e2 ▸ hxs⟩
  have noAuth := fun hne : pf.fieldType ≠ 0x0404 =>
    forall_mem_snoc (a := (p, pf)) h1 fun h => absurd h hne
  unfold scanRequestField at h
  split at h
  · cases h; exact ⟨noAuth (by omega), keepAuth rfl rfl, keepCookie rfl rfl⟩
  split at h
  · rename_i ht
    split at h
    · cases h
    obtain ⟨bytes, hb, h⟩ := bind_eq_ok.1 h
    split at h
    · cases h
    · rename_i hc; cases h
      obtain rfl := countCookie_some hc
      exact ⟨noAuth (by omega), keepAuth rfl rfl,
        fun _ => ⟨(p, pf), by simp, ht, (slice_eq_ok.1 hb).2.2.symm⟩⟩
  split at h
  · split at h
    · cases h
    · rename_i hc; cases h
      obtain rfl := countCookie_some hc
      exact ⟨noAuth (by omega), keepAuth rfl rfl, keepCookie rfl rfl⟩
  split at h
  · rename_i ht
    split at h
    · cases h
    rename_i hend
    cases h
    exact ⟨forall_mem_snoc h1 fun _ => Decidable.not_not.1 hend,
      fun _ => ⟨(p, pf), by simp, ht, rfl⟩, keepCookie rfl rfl⟩
  · rename_i hne
    cases h; exact ⟨noAuth hne, keepAuth rfl rfl, keepCookie rfl rfl⟩

/-- **An accepted request.** -/
theorem checkRequestAuth_true {s s' : NtsServer C K} {packet : NtpPacketBuf} {info : NtpPacketInfo}
    {kod : Nat} (h : s.checkRequestAuth packet info = .ok (s', true, kod)) :
    ∃ (l : List (Int × ParsedField)) (b : Int) (r : ReqScan) (context : NkeContext),
      (fields packet info.length).Path 48 l b ∧ ReqSeen packet info l r ∧
      Verified s packet info context r := by
  obtain ⟨s0, -, ⟨hf, -⟩ | ⟨r, context, requested, hv, -⟩⟩ := checkRequestAuth_cases h
  · cases hf
  · obtain ⟨l, b, hp, -, hs⟩ := (Walker.run_next_iff _ _ (fields_progress packet info.length)
      (by show (info.length - 48).toNat < _; omega)).1 hv.scanned
    exact ⟨l, b, r, context, hp, Walker.steps_induct (ReqSeen packet info)
      (fun _ _ _ _ _ => scanRequestField_next) (ReqSeen.init packet info) hs, hv⟩

end NtsServer

/-! ## Coverage -/

/-- **Acceptance implies full coverage.** A packet that the client or the server accepts
is tiled by its fields; exactly one of them is an authenticator, it is the last and
ends with the packet, and the AEAD accepted it with every byte in front of it as
associated data, under the session's key (for the server: the key in the cookie that
precedes it). For the client, a unique identifier precedes it, and every unique
identifier is that of the outstanding request. -/
theorem acceptance_covers (packet : NtpPacketBuf) (info : NtpPacketInfo) :
    (∀ (F C H : Type) [F64 F] [AesSiv C] [NtsHost H F] (c c' : NtsClient F C H),
      c.checkResponseAuth packet info = .ok (c', true) →
      ∃ before start pf, Covered packet info before start pf ∧
        (∃ siv : SivInstance C, siv.ctx = some (AesSiv.setKey c.context.s2c) ∧
          Decrypted siv packet info start) ∧
        (∃ x ∈ before, x.2.fieldType = 0x0104) ∧
        ∀ x ∈ before, x.2.fieldType = 0x0104 → fieldBody packet x.2 = c.uniqId.bytes) ∧
    (∀ (C K : Type) [AesSiv C] [CookieCodec K] (s s' : NtsServer C K),
      s.checkRequestAuth packet info = .ok (s', true, 0) →
      ∃ before start pf, Covered packet info before start pf ∧
        ∃ x ∈ before, x.2.fieldType = 0x0204 ∧ ∃ context,
          (CookieCodec.decodeCookie s.codec ⟨fieldBody packet x.2⟩).2 = some context ∧
          ∃ siv : SivInstance C, siv.ctx = some (AesSiv.setKey context.c2s) ∧
            Decrypted siv packet info start) := by
  constructor
  · intro F C H _ _ _ c c' h
    obtain ⟨siv, l, b, s, hk, hp, hseen, hu, ha, -⟩ := NtsClient.checkResponseAuth_true h
    obtain ⟨x, hx, hxt⟩ := hseen.auth_iff.1 ha
    obtain ⟨before, rfl, hcov⟩ := covered_of_path hp (fun y hy hyt => (hseen.auth_ends y hy hyt).1)
      hx hxt
    refine ⟨before, x.1, x.2, hcov, ⟨siv, hk, (hseen.auth_ends x hx hxt).2⟩, ?_, ?_⟩
    · -- the identifier is not the authenticator, so it is in front of it
      obtain ⟨y, hy, hyt⟩ := hseen.uniqId_iff.1 hu
      rcases List.mem_append.1 hy with hy | hy
      · exact ⟨y, hy, hyt⟩
      · rw [List.mem_singleton.1 hy, hxt] at hyt; omega
    · exact fun y hy => hseen.uniqId_eq y (List.mem_append_left _ hy)
  · intro C K _ _ s s' h
    obtain ⟨l, b, r, context, hp, hseen, hv⟩ := NtsServer.checkRequestAuth_true h
    obtain ⟨siv, siv', out, k, hk, hd⟩ := hv.opened
    obtain ⟨x, hx, hxt, hxs⟩ := hseen.auth_start hv.flags.2.2
    obtain ⟨before, rfl, hcov⟩ := covered_of_path hp hseen.auth_ends hx hxt
    obtain ⟨y, hy, hyt, hyb⟩ := hseen.cookie_eq hv.flags.2.1
    refine ⟨before, x.1, x.2, hcov, y, ?_, hyt, context, by rw [hyb]; exact hv.decoded, siv, hk,
      hxs ▸ decrypted_of_some hd⟩
    rcases List.mem_append.1 hy with hy | hy
    · exact hy
    · rw [List.mem_singleton.1 hy, hxt] at hyt; omega

/-- A response under the null cipher to a request with the identifier zero, with one
12-byte cookie. -/
def sampleResponse : NtpPacketBuf :=
  Buf.ofBytes 1140 (0x24 :: List.replicate 47 0 ++ [1, 4, 0, 36] ++ List.replicate 32 0 ++
    [4, 4, 0, 56, 0, 16, 0, 32] ++ List.replicate 32 0 ++ [2, 4, 0, 16])

def awaiting : NtsClient ℚ NullCipher StaticHost :=
  { (NtsClient.new ⟨none, 0⟩ "ntp.example.net" 0 123 ⟨none⟩ 0 : NtsClient ℚ NullCipher
    StaticHost) with
    siv := some SivInstance.unkeyed
    context := ⟨.aesSivCmac256, List.replicate 32 1, List.replicate 32 2⟩
    okResponse := false }

theorem acceptance_covers_samples :
    (∃ before start pf, Covered sampleResponse { length := 140, mode := 4, extFields := 2 }
      before start pf) ∧
    ∃ before start pf, Covered sampleRequest sampleInfo before start pf := by
  constructor
  · obtain ⟨c', h⟩ := exists_of_result (b := true)
      (x := awaiting.checkResponseAuth sampleResponse { length := 140, mode := 4, extFields := 2 })
      (by decide +kernel)
    obtain ⟨before, start, pf, hc, -⟩ := (acceptance_covers _ _).1 _ _ _ _ _ h
    exact ⟨before, start, pf, hc⟩
  · obtain ⟨s', h⟩ := exists_of_result (b := (true, 0)) (x :=
      (NtsServer.new ⟨⟩ : NtsServer NullCipher PlainCodec).checkRequestAuth
        sampleRequest sampleInfo)
      (by decide +kernel)
    obtain ⟨before, start, pf, hc, -⟩ := (acceptance_covers _ _).2 _ _ _ _ h
    exact ⟨before, start, pf, hc⟩

end ChronyRs.L3.Nts

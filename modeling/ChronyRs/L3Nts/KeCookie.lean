import ChronyRs.Core.Layout
import ChronyRs.L3Nts.Nke

/-!
# Server cookies (`nts_ke_cookie.rs`, `RealCookieCodec` of `nts_ntp_server.rs`)

A cookie is the id of a server key, a nonce, and the two session keys encrypted under that key.
Neither the algorithm nor the length of the keys is in it: both are read off the length of the
plaintext.

The source has the format twice. `KeCookie` is the one over any `Siv` and a store of four keys;
`RealCookieCodec` is the one the server uses, with one AES-SIV-CMAC-256 key of its own. The first
one checks the lengths of the keys it is given, the second one does not.

* `decodeCookie_valid`: what is decoded has two keys of the length of its algorithm.
* `decodeCookie_agree`: under one key both decode the same.
* `round_trip`: what was made from such a context is decoded to it.
-/
namespace ChronyRs.L3.Nts

open L2

/-- The discriminants of `SivAlgorithm`. mirrors siv_nettle.rs:44-55 -/
def algorithmId : SivAlgorithm → UInt16
  | .aesSivCmac256 => 15
  | .aesSivCmac384 => 16
  | .aesSivCmac512 => 17
  | .aes128GcmSiv => 30
  | .aes256GcmSiv => 31

/-! ## Over a store of keys -/

/-- mirrors nts_ke_cookie.rs:38-42 -/
structure CookieKey (S : Type) where
  id : UInt32
  siv : S
  nonceLength : Nat

/-- mirrors nts_ke_cookie.rs:46-51 -/
structure CookieContext where
  algorithm : UInt16
  c2s : Bytes
  s2c : Bytes
  deriving DecidableEq, Repr

namespace KeCookie

variable {S : Type} [Siv S]

/-- mirrors nts_ke_cookie.rs:58-89 -/
def generateCookie (key : CookieKey S) (nonce c2s s2c : Bytes) : CookieKey S × Option Bytes :=
  if 32 < c2s.length ∨ s2c.length ≠ c2s.length then (key, none)
  else
    let tagLength := asUsize (Siv.tagLength key.siv)
    let plaintext := c2s ++ s2c
    let total := 4 + key.nonceLength + plaintext.length + tagLength
    if 256 < total ∨ nonce.length < key.nonceLength then (key, none)
    else
      let e := Siv.encrypt key.siv (nonce.take key.nonceLength) [] plaintext
        (Buf.zero (plaintext.length + tagLength))
      ({ key with siv := e.siv },
        if e.ok then some (be32 key.id ++ nonce.take key.nonceLength ++ e.out.bytes) else none)

/-- mirrors nts_ke_cookie.rs:97-136 -/
def decodeCookie (cookie : Bytes) (keys : List (CookieKey S)) :
    Rust (List (CookieKey S) × Option CookieContext) :=
  if cookie.length ≤ 4 then .ok (keys, none)
  else do
    let keyId ← Layout.readAt UInt32 cookie 0
    let key ← index keys (keyId % 4).toNat
    if keyId ≠ key.id then .ok (keys, none)
    else
      let tagLength := asUsize (Siv.tagLength key.siv)
      if cookie.length ≤ 4 + key.nonceLength + tagLength then .ok (keys, none)
      else do
        let nonceEnd := 4 + key.nonceLength
        let nonce ← slice cookie 4 nonceEnd
        let ciphertext ← slice cookie nonceEnd cookie.length
        let plaintextLength ← usub ciphertext.length tagLength
        if 64 < plaintextLength ∨ plaintextLength % 2 ≠ 0 then .ok (keys, none)
        else
          let d := Siv.decrypt key.siv nonce [] ciphertext (Buf.zero plaintextLength)
          let keys := keys.set (keyId % 4).toNat { key with siv := d.siv }
          if d.ok = false then .ok (keys, none)
          else
            let half := plaintextLength / 2
            match half with
            | 16 => .ok (keys, some ⟨30, d.out.bytes.take half, d.out.bytes.drop half⟩)
            | 32 => .ok (keys, some ⟨15, d.out.bytes.take half, d.out.bytes.drop half⟩)
            | _ => .ok (keys, none)

end KeCookie

/-! ## The codec of the server -/

/-- `FnMut() -> u8`. -/
class Rng (R : Type) where
  next : R → R × UInt8

/-- `SivInstance::create(AesSivCmac256).unwrap()` with `set_key` of 32 bytes. -/
def keyed {C : Type} [AesSiv C] (key : Buf 32) : SivInstance C :=
  { (SivInstance.unkeyed : SivInstance C) with
    keySet := true, ctx := some (AesSiv.setKey key.bytes), keySet_eq := rfl }

/-- The key store is private, and only `new` fills it.
mirrors nts_ntp_server.rs:402-408 -/
structure RealCookieCodec (C R : Type) where
  keys : List (UInt32 × SivInstance C × Nat)
  rng : R
  keys_eq : ∃ siv c, keys = [(0, siv, 16)] ∧ siv.ctx = some c

namespace RealCookieCodec

variable {C R : Type} [AesSiv C] [Rng R]

/-- mirrors nts_ntp_server.rs:422-434 -/
def new (rng : R) : RealCookieCodec C R :=
  let f := fillBuf Rng.next 32 rng
  { keys := [(0, keyed f.2, 16)], rng := f.1, keys_eq := ⟨_, _, rfl, rfl⟩ }

/-- mirrors nts_ntp_server.rs:442-447 -/
def encodeContext (context : NkeContext) : Bytes := context.c2s ++ context.s2c

/-- mirrors nts_ntp_server.rs:449-460 -/
def decodeContext (algorithm : SivAlgorithm) (plain : Bytes) : NkeContext :=
  let half := plain.length / 2
  ⟨algorithm, plain.take half, plain.drop half⟩

/-- mirrors nts_ntp_server.rs:464-491 -/
def decodeCookie (codec : RealCookieCodec C R) (cookie : NkeCookie) : Rust (Option NkeContext) :=
  let bytes := cookie.bytes
  if bytes.length ≤ 4 then .ok none
  else do
    let keyId ← Layout.readAt UInt32 bytes 0
    match codec.keys.find? (fun k => k.1 == keyId) with
    | none => .ok none
    | some (_, siv, nonceLen) =>
      let tagLen := asUsize (Siv.tagLength siv)
      if bytes.length ≤ 4 + nonceLen + tagLen then .ok none
      else do
        let nonce ← slice bytes 4 (4 + nonceLen)
        let ciphertext ← slice bytes (4 + nonceLen) bytes.length
        let plainLen ← usub ciphertext.length tagLen
        if 64 < plainLen ∨ plainLen % 2 ≠ 0 ∨ plainLen < 2 then .ok none
        else
          let d := Siv.decrypt siv nonce [] ciphertext (Buf.zero plainLen)
          if d.ok = false then .ok none
          else
            match plainLen / 2 with
            | 16 => .ok (some (decodeContext .aes128GcmSiv d.out.bytes))
            | 32 => .ok (some (decodeContext .aesSivCmac256 d.out.bytes))
            | _ => .ok none

/-- mirrors nts_ntp_server.rs:493-511 -/
def generateCookie (codec : RealCookieCodec C R) (context : NkeContext) :
    RealCookieCodec C R × Option NkeCookie :=
  let plain := encodeContext context
  let nonceLen := ((codec.keys.head?).map (·.2.2)).getD 16
  let f := fillBuf Rng.next nonceLen codec.rng
  let codec := { codec with rng := f.1 }
  match codec.keys.head? with
  | none => (codec, none)
  | some (keyId, siv, _) =>
    let tagLen := asUsize (Siv.tagLength siv)
    let e := Siv.encrypt siv f.2.bytes [] plain (Buf.zero (plain.length + tagLen))
    (codec, if e.ok then some ⟨be32 keyId ++ f.2.bytes ++ e.out.bytes⟩ else none)

end RealCookieCodec

/-! ## What the codec makes and reads -/

/-- The lengths of plaintext that an instance encrypts: sixteen more bytes are still an `i32`. -/
theorem encrypt_ok_iff {C : Type} [AesSiv C] {siv : SivInstance C} {c : C} (hc : siv.ctx = some c)
    {nonce plaintext : Bytes} (hn : nonce.length = 16) (out : Buf (plaintext.length + 16)) :
    (Siv.encrypt siv nonce [] plaintext out).ok = true ↔ plaintext.length % 2 ^ 32 <
      2 ^ 31 - 16 := by
  have hvalid : (Siv.encrypt siv nonce [] plaintext out).ok = siv.validate
      (asI32 nonce.length) (asI32 0) (asI32 plaintext.length) (asI32 (plaintext.length + 16)) := by
    show (siv.encrypt nonce [] plaintext out).ok = _
    unfold SivInstance.encrypt
    rw [hc, List.length_nil]
    split
    · rename_i h
      exact (Bool.eq_false_iff.2 h).symm
    · rename_i h
      exact (not_not.1 h).symm
  rw [hvalid, SivInstance.validate_iff, hc, hn]
  unfold asI32
  rw [Int.bmod_def, Int.bmod_def, Int.bmod_def, Int.bmod_def]
  simp only [Option.isSome_some, true_and]
  constructor
  · rintro ⟨-, -, -, h0, h⟩
    split at h0 <;> split at h <;> split at h <;> omega
  · intro h
    refine ⟨by decide, by decide, by decide, ?_, ?_⟩
    · split <;> omega
    · split <;> split <;> omega

/-- Two keys of the length of the algorithm, which is one of the two with a cookie. -/
def NkeContext.Valid (context : NkeContext) : Prop :=
  (context.algorithm = .aes128GcmSiv ∧ context.c2s.length = 16 ∧ context.s2c.length = 16) ∨
  (context.algorithm = .aesSivCmac256 ∧ context.c2s.length = 32 ∧ context.s2c.length = 32)

instance (context : NkeContext) : Decidable context.Valid := inferInstanceAs (Decidable (_ ∨ _))

namespace RealCookieCodec

variable {C R : Type} [AesSiv C] [Rng R]

def nextNonce (codec : RealCookieCodec C R) : Buf 16 := (fillBuf Rng.next 16 codec.rng).2

theorem tag_eq (siv : SivInstance C) : asUsize (Siv.tagLength siv) = 16 := by
  rw [SivInstance.siv_tagLength]
  rfl

variable {codec : RealCookieCodec C R} {siv : SivInstance C} {cookie : Bytes}

theorem generateCookie_eq (hk : codec.keys = [(0, siv, 16)]) (context : NkeContext) :
    codec.generateCookie context =
      ({ codec with rng := (fillBuf Rng.next 16 codec.rng).1 },
        if (Siv.encrypt siv codec.nextNonce.bytes [] (encodeContext context)
          (Buf.zero ((encodeContext context).length + 16))).ok then
          some ⟨be32 0 ++ codec.nextNonce.bytes ++ (Siv.encrypt siv codec.nextNonce.bytes []
            (encodeContext context) (Buf.zero ((encodeContext context).length + 16))).out.bytes⟩
              else none) := by
  obtain ⟨keys, rng, hkeys⟩ := codec
  dsimp only at hk
  subst hk
  unfold generateCookie nextNonce
  simp only [List.head?_cons]
  rw [tag_eq]
  rfl

omit [Rng R] in
/-- A decoded context has two keys of the length of its algorithm. -/
theorem decodeCookie_valid {cookie : NkeCookie} {context : NkeContext}
    (h : codec.decodeCookie cookie = .ok (some context)) : context.Valid := by
  unfold decodeCookie at h
  dsimp only at h
  split at h
  · cases h
  obtain ⟨keyId, -, h⟩ := bind_eq_ok.1 h
  split at h
  · cases h
  split at h
  · cases h
  obtain ⟨nonce, -, h⟩ := bind_eq_ok.1 h
  obtain ⟨ciphertext, -, h⟩ := bind_eq_ok.1 h
  obtain ⟨plainLen, -, h⟩ := bind_eq_ok.1 h
  split at h
  · cases h
  split at h
  · cases h
  rename_i heven _
  split at h
  · rename_i hhalf
    cases h
    left
    refine ⟨rfl, ?_, ?_⟩ <;> simp [decodeContext] <;> omega
  · rename_i hhalf
    cases h
    right
    refine ⟨rfl, ?_, ?_⟩ <;> simp [decodeContext] <;> omega
  · cases h

/-- The context in the words of `nts_ke_cookie.rs`. -/
def toCookieContext (context : NkeContext) : CookieContext :=
  ⟨algorithmId context.algorithm, context.c2s, context.s2c⟩

theorem readAt_key (hlen : 4 < cookie.length) (hid : cookie.take 4 = be32 0) :
    Layout.readAt UInt32 cookie 0 = .ok 0 := by
  refine Layout.readAt_of_slice ?_
  rw [size_uint32, slice_of_le (Nat.zero_le _) (by omega), Nat.zero_add, hid]
  rfl

omit [Rng R] in
theorem decodeCookie_eq (hk : codec.keys = [(0, siv, 16)]) (hlen : 36 < cookie.length)
    (hid : Layout.readAt UInt32 cookie 0 = .ok 0) :
    codec.decodeCookie ⟨cookie⟩ =
      if 64 < cookie.length - 36 ∨ (cookie.length - 36) % 2 ≠ 0 ∨
        cookie.length - 36 < 2 then .ok none
      else
        let d := Siv.decrypt siv ((cookie.take 20).drop 4) [] (cookie.drop 20)
          (Buf.zero (cookie.length - 36))
        if d.ok = false then .ok none
        else
          match (cookie.length - 36) / 2 with
          | 16 => .ok (some (decodeContext .aes128GcmSiv d.out.bytes))
          | 32 => .ok (some (decodeContext .aesSivCmac256 d.out.bytes))
          | _ => .ok none := by
  have hlen20 : (cookie.drop 20).length - 16 = cookie.length - 36 := by simp; omega
  unfold decodeCookie
  dsimp only
  rw [if_neg (by omega), hid, ok_bind, hk]
  simp only [List.find?_cons, beq_self_eq_true]
  rw [tag_eq, if_neg (by omega), slice_of_le (by omega) (by omega), ok_bind,
    slice_of_le (by omega) le_rfl, ok_bind, List.take_length, usub_of_le (by simp; omega),
      ok_bind, hlen20]

omit [Rng R] in
theorem decodeCookie_short (hk : codec.keys = [(0, siv, 16)]) (hlen : cookie.length ≤ 36) :
    codec.decodeCookie ⟨cookie⟩ = .ok none := by
  unfold decodeCookie
  dsimp only
  by_cases h4 : cookie.length ≤ 4
  · rw [if_pos h4]
  · obtain ⟨keyId, hread⟩ := (Layout.readAt_returns_iff UInt32 cookie 0).2
      (by rw [size_uint32]; omega)
    rw [if_neg h4, hread, ok_bind, hk, List.find?_cons]
    by_cases hid : (0 : UInt32) == keyId
    · simp only [hid, tag_eq]
      rw [if_pos (by omega)]
    · simp [hid]

omit [Rng R] in
theorem decodeCookie_other (hk : codec.keys = [(0, siv, 16)]) {keyId : UInt32}
    (hid : Layout.readAt UInt32 cookie 0 = .ok keyId) (h0 : keyId ≠ 0) :
    codec.decodeCookie ⟨cookie⟩ = .ok none := by
  have hfind : ((0 : UInt32) == keyId) = false := beq_eq_false_iff_ne.2 (Ne.symm h0)
  unfold decodeCookie
  dsimp only
  split
  · rfl
  · rw [hid, ok_bind, hk, List.find?_cons]
    simp [hfind]

omit [Rng R] in
/-- **Decoding agrees.** A store with the codec's key in its first entry decodes alike every cookie
that it looks up there. -/
theorem decodeCookie_agree (hk : codec.keys = [(0, siv, 16)])
    {store : List (CookieKey (SivInstance C))} (hs : store[0]? = some ⟨0, siv, 16⟩)
    (hid : ∀ keyId, Layout.readAt UInt32 cookie 0 = .ok keyId → keyId % 4 = 0) :
    ∃ context store', codec.decodeCookie ⟨cookie⟩ = .ok context ∧
      KeCookie.decodeCookie cookie store = .ok (store', context.map toCookieContext) := by
  unfold KeCookie.decodeCookie
  by_cases h4 : cookie.length ≤ 4
  · exact ⟨none, store, decodeCookie_short hk (by omega), if_pos h4⟩
  obtain ⟨keyId, hread⟩ := (Layout.readAt_returns_iff UInt32 cookie 0).2
    (by rw [size_uint32]; omega)
  have hindex : index store (keyId % 4).toNat = .ok ⟨0, siv, 16⟩ := by
    rw [hid keyId hread]
    exact index_eq_ok.2 hs
  rw [if_neg h4, hread, ok_bind, hindex, ok_bind]
  by_cases h0 : keyId ≠ 0
  · exact ⟨none, store, decodeCookie_other hk hread h0, if_pos h0⟩
  obtain rfl := not_not.1 h0
  rw [if_neg h0]
  dsimp only
  rw [tag_eq]
  by_cases h36 : cookie.length ≤ 36
  · exact ⟨none, store, decodeCookie_short hk h36, if_pos h36⟩
  have hlen20 : (cookie.drop 20).length - 16 = cookie.length - 36 := by simp; omega
  rw [if_neg (by omega), slice_of_le (by omega) (by omega), ok_bind, slice_of_le (by omega) le_rfl,
    ok_bind, List.take_length, usub_of_le (by simp; omega), ok_bind, hlen20,
    decodeCookie_eq hk (by omega) hread]
  have hcond : (64 < cookie.length - 36 ∨ (cookie.length - 36) % 2 ≠ 0 ∨ cookie.length - 36 < 2) ↔
      64 < cookie.length - 36 ∨ (cookie.length - 36) % 2 ≠ 0 := by omega
  simp only [hcond]
  by_cases hbad : 64 < cookie.length - 36 ∨ (cookie.length - 36) % 2 ≠ 0
  · exact ⟨none, store, if_pos hbad, if_pos hbad⟩
  rw [if_neg hbad, if_neg hbad]
  split
  · exact ⟨none, _, rfl, rfl⟩
  · split
    · rename_i hhalf
      exact ⟨_, store.set 0 ⟨0, siv, 16⟩,
        rfl, by simp [hhalf, toCookieContext, decodeContext, algorithmId]⟩
    · rename_i hhalf
      exact ⟨_, store.set 0 ⟨0, siv, 16⟩,
        rfl, by simp [hhalf, toCookieContext, decodeContext, algorithmId]⟩
    · refine ⟨none, store.set 0 ⟨0, siv, 16⟩, rfl, ?_⟩
      simp only [SivInstance.decrypt_siv]
      rfl

variable [LawfulAesSiv C]

/-- A cookie for two keys of the length of the algorithm. -/
theorem round_trip {codec' : RealCookieCodec C R} {context : NkeContext} (hv : context.Valid)
    {cookie : NkeCookie} (h : codec.generateCookie context = (codec', some cookie)) :
    codec'.decodeCookie cookie = .ok (some context) ∧ cookie.bytes.length ≤ 256 ∧
      cookie.bytes.length % 4 = 0 := by
  obtain ⟨siv, c, hk, hc⟩ := codec.keys_eq
  have hplain : (encodeContext context).length = 32 ∨ (encodeContext context).length = 64 := by
    rcases hv with ⟨-, h1, h2⟩ | ⟨-, h1, h2⟩ <;> simp [encodeContext, h1, h2]
  have hn := codec.nextNonce.length_eq
  obtain ⟨hok, hout⟩ := SivInstance.lawful_encrypt hc codec.nextNonce.bytes []
    (encodeContext context) (by omega)
    (by omega) (by decide) rfl (by omega) (Buf.zero ((encodeContext context).length + 16))
  rw [generateCookie_eq hk, if_pos hok, Prod.mk.injEq] at h
  obtain ⟨rfl, h⟩ := h
  obtain rfl := Option.some.inj h
  rw [hout]
  generalize hct : AesSiv.encryptMessage c codec.nextNonce.bytes [] (encodeContext context) = ct
  have hctl : ct.length = (encodeContext context).length +
      16 := by rw [← hct, AesSiv.encryptMessage_length]
  have hlen : (be32 0 ++ codec.nextNonce.bytes ++ ct).length =
      (encodeContext context).length + 36 := by
    simp [hctl]
    omega
  have h20 : (be32 0 ++ codec.nextNonce.bytes).length = 20 := by simp
  have hk' : ({ codec with rng := (fillBuf Rng.next 16 codec.rng).1 } : RealCookieCodec C R).keys =
    [(0, siv, 16)] := hk
  refine ⟨?_, by rw [hlen]; omega, by rw [hlen]; omega⟩
  rw [decodeCookie_eq hk' (by rw [hlen]; omega)
    (readAt_key (by rw [hlen]; omega) (by rw [List.append_assoc]; rfl)), hlen,
    Nat.add_sub_cancel, if_neg (by omega), List.drop_left' h20, List.take_left' h20,
      List.drop_left' (be32_length 0)]
  obtain ⟨hdok, hdout⟩ := SivInstance.lawful_decrypt hc codec.nextNonce.bytes []
    (encodeContext context) (by omega)
    (by omega) (by decide) (by omega) (Buf.zero (encodeContext context).length)
  rw [hct] at hdok hdout
  dsimp only
  rw [hdok, if_neg (by decide), hdout]
  obtain ⟨algorithm, c2s, s2c⟩ := context
  rcases hv with ⟨rfl, h1, h2⟩ | ⟨rfl, h1, h2⟩
  · dsimp only at h1 h2
    simp [encodeContext, decodeContext, h1, h2]
  · dsimp only at h1 h2
    simp [encodeContext, decodeContext, h1, h2]

end RealCookieCodec

end ChronyRs.L3.Nts

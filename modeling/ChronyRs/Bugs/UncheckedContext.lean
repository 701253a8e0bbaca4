import ChronyRs.L3Nts.KeCookie

/-!
# `RealCookieCodec` makes cookies that it cannot read

`RealCookieCodec::generate_cookie` encrypts the two keys of a context as they are. A cookie says
neither which algorithm the keys are for nor where the first one ends: `decode_cookie` splits the
plaintext in the middle and takes the algorithm from the length of a half.
`nts_ke_cookie::generate_cookie` refuses keys of different lengths, keys over 32 bytes and cookies
over 256 bytes; the codec refuses nothing but a plaintext whose length is no `i32`. A context with
keys of 31 and 33 bytes gets a cookie that is decoded to two other keys, a context with keys of 20
bytes one that is rejected, and one whose algorithm is not that of the length of its keys comes back
with another algorithm.

* `carried_iff`: the contexts that a cookie carries.
* `shifted_keys`: a byte of one key is given to the other.

Fix: check the context as `nts_ke_cookie::generate_cookie` does, and its algorithm as well.
-/
namespace ChronyRs.Bugs.UncheckedContext

open L2 L3.Nts L3.Nts.RealCookieCodec

variable {C R : Type} [AesSiv C] [Rng R]

/-- A cookie that is made for the context is decoded to it and is an aligned value of at most 256
bytes. -/
def Returned (codec : RealCookieCodec C R) (context : NkeContext) : Prop :=
  ∀ codec' cookie, codec.generateCookie context = (codec', some cookie) →
    codec'.decodeCookie cookie = .ok (some context) ∧ cookie.bytes.length ≤ 256 ∧
      cookie.bytes.length % 4 = 0

/-- `nts_ke_cookie.rs` makes the same cookie with the same key and nonce. -/
def SameCookie (codec : RealCookieCodec C R) (context : NkeContext) : Prop :=
  ∀ siv, codec.keys = [(0, siv, 16)] → (codec.generateCookie context).2.map (·.bytes) =
    (KeCookie.generateCookie ⟨0, siv, 16⟩ codec.nextNonce.bytes context.c2s context.s2c).2

/-- `nts_ke_cookie.rs` decodes every cookie alike that it looks up in the entry of the same key. -/
def SameContext (codec : RealCookieCodec C R) : Prop :=
  ∀ siv store cookie, codec.keys = [(0, siv, 16)] → store[0]? =
    some (⟨0, siv, 16⟩ : CookieKey (SivInstance C)) →
    (∀ keyId, Layout.readAt UInt32 cookie 0 = .ok keyId → keyId % 4 = 0) →
    ∃ context store', codec.decodeCookie ⟨cookie⟩ = .ok context ∧
      KeCookie.decodeCookie cookie store = .ok (store', context.map toCookieContext)

/-- The context is carried by its cookies, and the two implementations agree on them. -/
def Carried (codec : RealCookieCodec C R) (context : NkeContext) : Prop :=
  Returned codec context ∧ SameCookie codec context ∧ SameContext codec

/-- The two keys are too long for the lengths of `Siv`, which are `i32`, so that there is no
cookie. -/
def Oversize (context : NkeContext) : Prop :=
  2 ^ 31 - 16 ≤ (context.c2s.length + context.s2c.length) % 2 ^ 32

instance (context : NkeContext) : Decidable (Oversize context) :=
  inferInstanceAs (Decidable (_ ≤ _))

omit [Rng R] in
theorem encrypt_ok_iff_not_oversize {siv : SivInstance C} {c : C} (hc : siv.ctx = some c)
    (nonce : Buf 16) (context : NkeContext) :
      (Siv.encrypt siv nonce.bytes [] (encodeContext context)
      (Buf.zero ((encodeContext context).length + 16))).ok = true ↔ ¬ Oversize context := by
  rw [encrypt_ok_iff hc nonce.length_eq, encodeContext, List.length_append, Oversize, not_le]

variable {codec : RealCookieCodec C R} {context : NkeContext}

/-- A context that comes back has two keys of the length of its algorithm. -/
theorem valid_of_returned (h : Returned codec context) (hs : ¬ Oversize context) :
    context.Valid := by
  obtain ⟨siv, c, hk, hc⟩ := codec.keys_eq
  have hok := (encrypt_ok_iff_not_oversize hc codec.nextNonce context).2 hs
  have hmade := generateCookie_eq hk context
  rw [if_pos hok] at hmade
  exact decodeCookie_valid (h _ _ hmade).1

theorem generateCookie_of_oversize (hs : Oversize context) :
    (codec.generateCookie context).2 = none := by
  obtain ⟨siv, c, hk, hc⟩ := codec.keys_eq
  have hok := mt (encrypt_ok_iff_not_oversize hc codec.nextNonce context).1 (not_not.2 hs)
  rw [generateCookie_eq hk, if_neg hok]

theorem sameCookie_of_oversize (hs : Oversize context) :
    SameCookie codec context := by
  intro siv hk
  have hlong : 32 < context.c2s.length ∨ context.s2c.length ≠ context.c2s.length := by
    unfold Oversize at hs
    omega
  rw [generateCookie_of_oversize hs, KeCookie.generateCookie, if_pos hlong]
  rfl

theorem sameCookie_of_valid (hv : context.Valid) :
    SameCookie codec context := by
  intro siv hk
  have hkeys : ¬ (32 < context.c2s.length ∨ context.s2c.length ≠ context.c2s.length) := by
    rcases hv with ⟨-, h1, h2⟩ | ⟨-, h1, h2⟩ <;> omega
  have hsize : ¬ (256 < 4 + 16 + (context.c2s ++ context.s2c).length + 16 ∨
      codec.nextNonce.bytes.length < 16) := by
    rw [List.length_append, codec.nextNonce.length_eq]
    omega
  have htake : codec.nextNonce.bytes.take 16 = codec.nextNonce.bytes :=
    List.take_of_length_le codec.nextNonce.length_eq.le
  rw [generateCookie_eq hk, KeCookie.generateCookie, if_neg hkeys]
  dsimp only
  rw [tag_eq, if_neg hsize, htake, encodeContext]
  split <;> rfl

/-- **The contexts a cookie carries.** They have two keys of the length of their algorithm, or no
cookie is made for them. -/
theorem carried_iff [LawfulAesSiv C] (codec : RealCookieCodec C R) (context : NkeContext) :
    Carried codec context ↔ context.Valid ∨ Oversize context := by
  have hsame : SameContext codec := fun _ _ _ hk hs hid => decodeCookie_agree hk hs hid
  constructor
  · rintro ⟨h, -, -⟩
    by_cases hs : Oversize context
    · exact .inr hs
    · exact .inl (valid_of_returned h hs)
  · rintro (hv | hs)
    · exact ⟨fun _ _ h => round_trip hv h, sameCookie_of_valid hv, hsame⟩
    · refine ⟨fun codec' cookie h => ?_, sameCookie_of_oversize hs, hsame⟩
      have hnone : (codec.generateCookie context).2 = none := generateCookie_of_oversize hs
      rw [h] at hnone
      cases hnone

/-! ## Keys of different lengths -/

structure ConstRng where
  value : UInt8

instance : Rng ConstRng where
  next r := (r, r.value)

def freshCodec : RealCookieCodec NullCipher ConstRng := RealCookieCodec.new ⟨7⟩

def exported : NkeContext := ⟨.aesSivCmac256, List.replicate 32 1, List.replicate 32 2⟩

theorem carried_iff_exported : exported.Valid ∧ Carried freshCodec exported :=
  ⟨by decide, (carried_iff freshCodec exported).2 (.inl (by decide))⟩

def shifted : NkeContext := ⟨.aesSivCmac256, List.replicate 31 1, List.replicate 33 2⟩

/-- **A byte changes its key.** The codec makes a cookie for keys of 31 and 33 bytes and decodes it
to two keys of 32 bytes; `nts_ke_cookie::generate_cookie` makes none. -/
theorem shifted_keys : (∃ cookie, (freshCodec.generateCookie shifted).2 = some cookie ∧
      (freshCodec.generateCookie shifted).1.decodeCookie cookie =
        .ok (some ⟨.aesSivCmac256, List.replicate 31 1 ++ [2], List.replicate 32 2⟩)) ∧
    (∀ key : CookieKey (SivInstance NullCipher),
      (KeCookie.generateCookie key freshCodec.nextNonce.bytes shifted.c2s shifted.s2c).2 = none) ∧
    ¬ Carried freshCodec shifted := by
  have hmade : (freshCodec.generateCookie shifted).2.map
      (freshCodec.generateCookie shifted).1.decodeCookie =
      some (.ok (some ⟨.aesSivCmac256, List.replicate 31 1 ++ [2], List.replicate 32 2⟩)) := by
    decide +kernel
  refine ⟨Option.map_eq_some_iff.1 hmade, fun key => rfl, fun h => ?_⟩
  have hv := valid_of_returned h.1 (by decide)
  exact absurd hv (by decide)

end ChronyRs.Bugs.UncheckedContext

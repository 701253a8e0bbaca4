import ChronyRs.Core.Rust

/-!
# The SIV AEAD boundary (`nts_ntp_auth.rs`, `siv_nettle.rs`)

`Siv` is the trait the NTS authenticator is written against: two lengths and an
`encrypt` / `decrypt` pair that writes into a slice of the caller. The trait
promises nothing about the cipher, so neither does the class; what a
working AEAD satisfies is assumed of the cipher (`LawfulAesSiv`), where needed.

`SivInstance` is the one implementation of this build, a wrapper that checks
lengths around AES-SIV-CMAC-256. The cipher itself is the parameter `AesSiv`.
Of the five algorithms only CMAC-256 has a key length, so every instance is a
CMAC-256 one, which `SivInstance` carries as a field.

* `SivInstance.lawful_encrypt` / `lawful_decrypt`: a keyed instance over a lawful
  cipher encrypts every message and decrypts what it encrypted.
-/
namespace ChronyRs.L2

/-- What a call that writes into `&mut [u8]` of `n` bytes leaves behind. -/
structure Sealed (S : Type) (n : Nat) where
  siv : S
  ok : Bool
  out : Buf n

/-- mirrors nts_ntp_auth.rs:52-64 -/
class Siv (S : Type) where
  maxNonceLength : S → Int
  tagLength : S → Int
  encrypt : S → (nonce assoc plaintext : Bytes) → {n : Nat} → Buf n → Sealed S n
  decrypt : S → (nonce assoc ciphertext : Bytes) → {n : Nat} → Buf n → Sealed S n
  /-- Both lengths are `i32` values. -/
  maxNonceLength_range : ∀ s, -2 ^ 31 ≤ maxNonceLength s ∧ maxNonceLength s < 2 ^ 31
  tagLength_range : ∀ s, -2 ^ 31 ≤ tagLength s ∧ tagLength s < 2 ^ 31

/-! ## `SivInstance` -/

/-- mirrors siv_nettle.rs:44-55 -/
inductive SivAlgorithm where
  | aesSivCmac256 | aesSivCmac384 | aesSivCmac512 | aes128GcmSiv | aes256GcmSiv
  deriving DecidableEq, Repr

/-- mirrors siv_nettle.rs:59-66 -/
def getKeyLength : SivAlgorithm → Int
  | .aesSivCmac256 => 32
  | _ => 0

/-- AES-SIV-CMAC-256 (`SivCmacAes128` of `siv_nettle_int.rs`): a key schedule, and
the two operations on whole messages, the tag in front of the ciphertext. -/
class AesSiv (C : Type) where
  setKey : Bytes → C
  encryptMessage : C → (nonce adata src : Bytes) → Bytes
  /-- Whether the tag verified, and the bytes written to the destination. -/
  decryptMessage : C → (nonce adata src : Bytes) → Bool × Bytes
  encryptMessage_length : ∀ c nonce adata src,
    (encryptMessage c nonce adata src).length = src.length + 16
  decryptMessage_length : ∀ c nonce adata src,
    (decryptMessage c nonce adata src).2.length = src.length - 16

/-- Decryption inverts encryption. -/
class LawfulAesSiv (C : Type) [AesSiv C] : Prop where
  decrypt_encrypt : ∀ (c : C) nonce adata src,
    AesSiv.decryptMessage c nonce adata (AesSiv.encryptMessage c nonce adata src) = (true, src)

/-- A cipher that hides nothing and checks only its own zero tag. It is lawful, which
is all that concrete runs of the protocol need. -/
structure NullCipher where
  key : Bytes
  deriving DecidableEq, Repr

instance : AesSiv NullCipher where
  setKey := NullCipher.mk
  encryptMessage _ _ _ src := List.replicate 16 0 ++ src
  decryptMessage _ _ _ src := (src.take 16 == List.replicate 16 0, src.drop 16)
  encryptMessage_length := by simp
  decryptMessage_length := by simp

instance : LawfulAesSiv NullCipher where
  decrypt_encrypt _ _ _ src := by
    show (((List.replicate 16 0 ++ src).take 16 == List.replicate 16 0),
      (List.replicate 16 0 ++ src).drop 16) = _
    rw [List.take_left' List.length_replicate, List.drop_left' List.length_replicate]
    simp

/-- mirrors siv_nettle.rs:70-77. The fields are private and
`create` / `set_key` keep the invariants. -/
structure SivInstance (C : Type) where
  algorithm : SivAlgorithm
  keySet : Bool
  minNonceLength : Int
  maxNonceLength : Int
  tagLength : Int
  ctx : Option C
  algorithm_eq : algorithm = .aesSivCmac256
  keySet_eq : keySet = ctx.isSome
  lengths_eq : minNonceLength = 1 ∧ maxNonceLength = 2 ^ 31 - 1 ∧ tagLength = 16

namespace SivInstance

variable {C : Type}

def unkeyed : SivInstance C :=
  { algorithm := .aesSivCmac256, keySet := false, minNonceLength := 1,
    maxNonceLength := 2 ^ 31 - 1, tagLength := 16, ctx := none,
    algorithm_eq := rfl, keySet_eq := rfl, lengths_eq := ⟨rfl, rfl, rfl⟩ }

/-- mirrors siv_nettle.rs:82-99 -/
def create (algorithm : SivAlgorithm) : Option (SivInstance C) :=
  if getKeyLength algorithm ≤ 0 then none
  else
    match algorithm with
    | .aesSivCmac256 => some unkeyed
    | _ => none

/-- The length is compared as an `i32` and then converted to `[u8; 32]`.
mirrors siv_nettle.rs:102-115 -/
def setKey [AesSiv C] (s : SivInstance C) (key : Bytes) : Rust (SivInstance C × Bool) :=
  if asI32 key.length ≠ getKeyLength s.algorithm then .ok (s, false)
  else if key.length ≠ 32 then .error .unwrap
  else .ok ({ s with keySet := true, ctx := some (AesSiv.setKey key), keySet_eq := rfl }, true)

/-- mirrors siv_nettle.rs:134-142 -/
def validate (s : SivInstance C) (nonceLen assocLen plaintextLen ciphertextLen : Int) : Bool :=
  s.keySet ∧ s.minNonceLength ≤ nonceLen ∧ nonceLen ≤ s.maxNonceLength ∧ 0 ≤ assocLen ∧
    0 ≤ plaintextLen ∧ plaintextLen ≤ ciphertextLen ∧ plaintextLen + s.tagLength = ciphertextLen

/-- mirrors siv_nettle.rs:146-168 -/
def encrypt [AesSiv C] (s : SivInstance C) (nonce assoc plaintext : Bytes) {n : Nat}
    (ciphertext : Buf n) : Sealed (SivInstance C) n :=
  if ¬ s.validate (asI32 nonce.length) (asI32 assoc.length) (asI32 plaintext.length) (asI32 n) then
    ⟨s, false, ciphertext⟩
  else
    match s.ctx with
    | some c => ⟨s, true, ciphertext.overwrite (AesSiv.encryptMessage c nonce assoc plaintext)⟩
    | none => ⟨s, false, ciphertext⟩

/-- mirrors siv_nettle.rs:172-193 -/
def decrypt [AesSiv C] (s : SivInstance C) (nonce assoc ciphertext : Bytes) {n : Nat}
    (plaintext : Buf n) : Sealed (SivInstance C) n :=
  if ¬ s.validate (asI32 nonce.length) (asI32 assoc.length) (asI32 n) (asI32 ciphertext.length) then
    ⟨s, false, plaintext⟩
  else
    match s.ctx with
    | some c =>
      ⟨s, (AesSiv.decryptMessage c nonce assoc ciphertext).1,
        plaintext.overwrite (AesSiv.decryptMessage c nonce assoc ciphertext).2⟩
    | none => ⟨s, false, plaintext⟩

/-- mirrors siv_nettle.rs:199-212 -/
instance [AesSiv C] : Siv (SivInstance C) where
  maxNonceLength s := s.maxNonceLength
  tagLength s := s.tagLength
  encrypt s nonce assoc plaintext _ out := s.encrypt nonce assoc plaintext out
  decrypt s nonce assoc ciphertext _ out := s.decrypt nonce assoc ciphertext out
  maxNonceLength_range s := by rw [s.lengths_eq.2.1]; decide
  tagLength_range s := by rw [s.lengths_eq.2.2]; decide

variable [AesSiv C]

@[simp] theorem siv_maxNonceLength (s : SivInstance C) : Siv.maxNonceLength s = 2 ^ 31 - 1 :=
  s.lengths_eq.2.1

@[simp] theorem siv_tagLength (s : SivInstance C) : Siv.tagLength s = 16 := s.lengths_eq.2.2

omit [AesSiv C] in
/-- Only CMAC-256 has instances. -/
theorem create_isSome {a : SivAlgorithm} : (create a : Option (SivInstance C)).isSome ↔
    a = .aesSivCmac256 := by
  cases a <;> simp [create, getKeyLength]

theorem setKey_cases (s : SivInstance C) (key : Bytes) :
    (key.length = 32 ∧ ∃ s', s.setKey key = .ok (s', true) ∧ s'.ctx = some (AesSiv.setKey key)) ∨
    (asI32 key.length ≠ 32 ∧ s.setKey key = .ok (s, false)) ∨
    (key.length ≠ 32 ∧ asI32 key.length = 32 ∧ s.setKey key = .error .unwrap) := by
  have hlen : getKeyLength s.algorithm = 32 := by rw [s.algorithm_eq]; rfl
  unfold setKey
  rw [hlen]
  by_cases h1 : asI32 key.length ≠ 32
  · exact .inr (.inl ⟨h1, if_pos h1⟩)
  · by_cases h2 : key.length ≠ 32
    · exact .inr (.inr ⟨h2, Decidable.not_not.1 h1, by rw [if_neg h1, if_pos h2]⟩)
    · exact .inl ⟨Decidable.not_not.1 h2, _, by rw [if_neg h1, if_neg h2], rfl⟩

variable {s : SivInstance C} {n : Nat}

theorem setKey_true {s' : SivInstance C} {key : Bytes} (h : s.setKey key = .ok (s', true)) :
    key.length = 32 ∧ s'.ctx = some (AesSiv.setKey key) := by
  rcases s.setKey_cases key with ⟨hk, t, ht, hc⟩ | ⟨-, hs⟩ | ⟨-, -, hs⟩
  · rw [ht] at h; cases h; exact ⟨hk, hc⟩
  · rw [hs] at h; cases h
  · rw [hs] at h; cases h

theorem setKey_of_length {key : Bytes} (h : key.length = 32) :
    ∃ s', s.setKey key = .ok (s', true) ∧ s'.ctx = some (AesSiv.setKey key) := by
  rcases s.setKey_cases key with ⟨-, hs⟩ | ⟨hk, -⟩ | ⟨hk, -⟩
  · exact hs
  · rw [h] at hk; exact absurd rfl hk
  · exact absurd h hk

@[simp] theorem encrypt_siv (s : SivInstance C) (nonce assoc plaintext : Bytes) (out : Buf n) :
    (Siv.encrypt s nonce assoc plaintext out).siv = s := by
  show (s.encrypt nonce assoc plaintext out).siv = s
  unfold encrypt
  split
  · rfl
  · split <;> rfl

@[simp] theorem decrypt_siv (s : SivInstance C) (nonce assoc ciphertext : Bytes) (out : Buf n) :
    (Siv.decrypt s nonce assoc ciphertext out).siv = s := by
  show (s.decrypt nonce assoc ciphertext out).siv = s
  unfold decrypt
  split
  · rfl
  · split <;> rfl

omit [AesSiv C] in
theorem validate_iff {a b c d : Int} : s.validate a b c d = true ↔
    s.ctx.isSome ∧ 1 ≤ a ∧ a ≤ 2 ^ 31 - 1 ∧ 0 ≤ b ∧ 0 ≤ c ∧ c + 16 = d := by
  obtain ⟨h1, h2, h3⟩ := s.lengths_eq
  unfold validate
  rw [s.keySet_eq, h1, h2, h3, decide_eq_true_iff]
  constructor
  · rintro ⟨g1, g2, g3, g4, g5, -, g7⟩; exact ⟨g1, g2, g3, g4, g5, g7⟩
  · rintro ⟨g1, g2, g3, g4, g5, g7⟩; exact ⟨g1, g2, g3, g4, g5, by omega, g7⟩

/-- A keyed instance encrypts every message into a slice of the right size. -/
theorem lawful_encrypt {c : C} (hc : s.ctx = some c) (nonce assoc plaintext : Bytes)
    (hn : 1 ≤ nonce.length) (hn' : nonce.length < 2 ^ 31) (ha : assoc.length < 2 ^ 31)
    (hp : n = plaintext.length + 16) (hlt : n < 2 ^ 31)
    (out : Buf n) : (Siv.encrypt s nonce assoc plaintext out).ok = true ∧
      (Siv.encrypt s nonce assoc plaintext out).out.bytes =
        AesSiv.encryptMessage c nonce assoc plaintext := by
  change (s.encrypt nonce assoc plaintext out).ok = true ∧
    (s.encrypt nonce assoc plaintext out).out.bytes = _
  have hv : s.validate (asI32 nonce.length) (asI32 assoc.length) (asI32 plaintext.length)
      (asI32 n) = true := by
    rw [asI32_of_lt hn', asI32_of_lt ha, asI32_of_lt hlt, asI32_of_lt (by omega), validate_iff, hc]
    refine ⟨rfl, ?_⟩
    omega
  unfold encrypt
  rw [if_neg (by simpa using hv), hc]
  refine ⟨rfl, Buf.overwrite_bytes _ ?_⟩
  rw [AesSiv.encryptMessage_length, hp]

/-- A keyed instance over a lawful cipher decrypts what was encrypted under the
same key, nonce and associated data. -/
theorem lawful_decrypt [LawfulAesSiv C] {c : C} (hc : s.ctx = some c)
    (nonce assoc plaintext : Bytes) (hn : 1 ≤ nonce.length) (hn' : nonce.length < 2 ^ 31)
    (ha : assoc.length < 2 ^ 31) (hp : plaintext.length + 16 < 2 ^ 31)
    (out : Buf plaintext.length) :
    (Siv.decrypt s nonce assoc (AesSiv.encryptMessage c nonce assoc plaintext) out).ok = true ∧
      (Siv.decrypt s nonce assoc (AesSiv.encryptMessage c nonce assoc plaintext) out).out.bytes =
        plaintext := by
  change (s.decrypt nonce assoc _ out).ok = true ∧ (s.decrypt nonce assoc _ out).out.bytes = _
  have hv : s.validate (asI32 nonce.length) (asI32 assoc.length) (asI32 plaintext.length)
      (asI32 (AesSiv.encryptMessage c nonce assoc plaintext).length) = true := by
    rw [AesSiv.encryptMessage_length, asI32_of_lt hn', asI32_of_lt ha, asI32_of_lt hp,
      asI32_of_lt (by omega), validate_iff, hc]
    refine ⟨rfl, ?_⟩
    omega
  unfold decrypt
  rw [if_neg (by simpa using hv), hc]
  simp only [LawfulAesSiv.decrypt_encrypt]
  exact ⟨trivial, Buf.overwrite_bytes _ rfl⟩

end SivInstance

end ChronyRs.L2

import ChronyRs.L2Auth.Cmac128
import ChronyRs.L2Auth.Siv

/-!
# AES-SIV-CMAC-256 (`siv_nettle_int.rs`, `siv_nettle.rs`)

The synthetic IV is a MAC over the associated data, the nonce and the plaintext (`s2v`); the message
is the IV, and the plaintext under a counter mode that starts at the IV with two bits cleared. The
block cipher `E` is a parameter, an arbitrary function of key and block.

* `s2v_eq`: `s2v` always returns, with S2V of RFC 5297 over the strings that are there. Without a
  nonce and associated data it is the MAC of one, which no instance asks for (`validate` wants a
  nonce).
* `ctrCrypt_ctrCrypt`: counter mode undoes itself.
* `LawfulAesSiv (SivCmacAes128 E)`: what the authenticator assumes of its cipher.
* `siv_round_trip`: the calls of a keyed instance, with every check and assertion of theirs.
-/
namespace ChronyRs.L2

/-! ## Helpers -/

/-- The loop over the bytes from the last to the first, up to one that does not become zero. -/
def increment : Bytes → Bytes
  | [] => []
  | b :: bs => if b + 1 ≠ 0 then (b + 1) :: bs else (b + 1) :: increment bs

@[simp] theorem increment_length (bs : Bytes) : (increment bs).length = bs.length := by
  induction bs with
  | nil => rfl
  | cons b bs ih =>
    rw [increment]
    split <;> simp [ih]

/-- The counter plus one. mirrors siv_nettle_int.rs:180-185 -/
def nextCounter (ctr : Buf 16) : Buf 16 := ⟨(increment ctr.bytes.reverse).reverse, by simp⟩

/-- The bytes written to `dst`, which is as long as `src` at both calls.
mirrors siv_nettle_int.rs:170-187 -/
def ctrCrypt (cipher : Buf 16 → Buf 16) (ctr : Buf 16) (src : Bytes) : Bytes :=
  if src.length = 0 then []
  else
    let n := min src.length 16
    List.zipWith (· ^^^ ·) (src.take n) (cipher ctr).bytes ++
      ctrCrypt cipher (nextCounter ctr) (src.drop n)
termination_by src.length
decreasing_by simp only [List.length_drop]; omega

/-- mirrors siv_nettle_int.rs:190-197 -/
def memeqlSec (a b : Bytes) : Bool := (List.zipWith (· ^^^ ·) a b).foldl (· ||| ·) 0 == 0

theorem foldl_or_eq_zero (bs : Bytes) (acc : UInt8) :
    bs.foldl (· ||| ·) acc = 0 ↔ acc = 0 ∧ ∀ b ∈ bs, b = 0 := by
  induction bs generalizing acc with
  | nil => simp
  | cons b bs ih => rw [List.foldl_cons, ih, UInt8.or_eq_zero_iff, List.forall_mem_cons, and_assoc]

theorem zipWith_xor_eq_zero {a b : Bytes} (h : a.length = b.length) :
    (∀ x ∈ List.zipWith (· ^^^ ·) a b, x = 0) ↔ a = b := by
  induction a generalizing b with
  | nil => simp [(List.length_eq_zero_iff.1 h.symm)]
  | cons x a ih =>
    cases b with
    | nil => cases h
    | cons y b =>
      rw [List.zipWith_cons_cons, List.forall_mem_cons, ih (Nat.succ.inj h), UInt8.xor_eq_zero_iff,
        List.cons.injEq]

theorem memeqlSec_iff {a b : Bytes} (h : a.length = b.length) : memeqlSec a b = true ↔ a = b := by
  rw [memeqlSec, beq_iff_eq, foldl_or_eq_zero, zipWith_xor_eq_zero h]
  simp

/-! ## Counter mode -/

theorem zipWith_xor_xor {a k : Bytes} (h : a.length ≤ k.length) :
    List.zipWith (· ^^^ ·) (List.zipWith (· ^^^ ·) a k) k = a := by
  induction a generalizing k with
  | nil => rfl
  | cons x a ih =>
    cases k with
    | nil => cases h
    | cons y k =>
      rw [List.zipWith_cons_cons, List.zipWith_cons_cons, ih (Nat.le_of_succ_le_succ h),
        UInt8.xor_assoc, UInt8.xor_self, UInt8.xor_zero]

section
variable (cipher : Buf 16 → Buf 16)

@[simp] theorem ctrCrypt_nil (ctr : Buf 16) : ctrCrypt cipher ctr [] = [] := by
  rw [ctrCrypt]
  rfl

/-- One turn of the loop, on a piece that fills the block or is the last one. -/
theorem ctrCrypt_append {a b : Bytes} (ctr : Buf 16) (ha : a ≠ []) (hfull : a.length ≤ 16)
    (hb : b ≠ [] → a.length = 16) : ctrCrypt cipher ctr (a ++ b) =
      List.zipWith (· ^^^ ·) a (cipher ctr).bytes ++ ctrCrypt cipher (nextCounter ctr) b := by
  have hpos := List.length_pos_iff.2 ha
  have hn : min (a ++ b).length 16 = a.length := by
    by_cases hnil : b = []
    · subst hnil
      rw [List.append_nil]
      omega
    · rw [List.length_append, hb hnil]
      omega
  rw [ctrCrypt, if_neg (by rw [List.length_append]; omega)]
  dsimp only
  rw [hn, List.take_left, List.drop_left]

/-- The pieces the loop takes. -/
theorem exists_piece {src : Bytes} (h : src ≠ []) : ∃ a b, src = a ++ b ∧ a ≠ [] ∧ a.length ≤ 16 ∧
    (b ≠ [] → a.length = 16) ∧ b.length < src.length := by
  have hpos := List.length_pos_iff.2 h
  refine ⟨src.take 16, src.drop 16, (List.take_append_drop 16 src).symm, ?_, by simp, fun hb =>
    ?_, by simp; omega⟩
  · rw [← List.length_pos_iff, List.length_take]
    omega
  · have hrest := List.length_pos_iff.2 hb
    rw [List.length_drop] at hrest
    rw [List.length_take]
    omega

theorem ctrCrypt_spec (ctr : Buf 16) (src : Bytes) : (ctrCrypt cipher ctr src).length = src.length ∧
    ctrCrypt cipher ctr (ctrCrypt cipher ctr src) = src := by
  induction hk : src.length using Nat.strong_induction_on generalizing ctr src with
  | _ k ih =>
    subst hk
    by_cases hnil : src = []
    · subst hnil
      simp
    · obtain ⟨a, b, rfl, ha, hle, hb, hlt⟩ := exists_piece hnil
      obtain ⟨hlen, hinv⟩ := ih b.length hlt (nextCounter ctr) b rfl
      have hzip : (List.zipWith (· ^^^ ·) a (cipher ctr).bytes).length = a.length := by simp [hle]
      have hpos := List.length_pos_iff.2 ha
      rw [ctrCrypt_append cipher ctr ha hle hb]
      refine ⟨by rw [List.length_append, hzip, hlen, List.length_append], ?_⟩
      rw [ctrCrypt_append cipher ctr (List.length_pos_iff.1 (hzip.symm ▸ hpos)) (hzip.symm ▸ hle)
        (fun hne => hzip.trans (hb ?_)), zipWith_xor_xor (by rwa [Buf.length_bytes]), hinv]
      rintro rfl
      rw [ctrCrypt_nil] at hne
      exact hne rfl

@[simp] theorem ctrCrypt_length (ctr : Buf 16) (src : Bytes) :
    (ctrCrypt cipher ctr src).length = src.length :=
  (ctrCrypt_spec cipher ctr src).1

@[simp] theorem ctrCrypt_ctrCrypt (ctr : Buf 16) (src : Bytes) :
    ctrCrypt cipher ctr (ctrCrypt cipher ctr src) = src := (ctrCrypt_spec cipher ctr src).2

end

/-! ## S2V -/

/-- `CONST_ONE`. mirrors siv_nettle_int.rs:329 -/
def constOne : Bytes := List.replicate 15 0 ++ [1]

/-- `CONST_ZERO`. mirrors siv_nettle_int.rs:330 -/
def constZero : Bytes := List.replicate 16 0

section
variable (cipher : Buf 16 → Buf 16)

/-- One string of the vector: double, and add its MAC.
mirrors siv_nettle_int.rs:349-363 -/
def s2vString (st : Cmac128 × Buf 16) (string : Bytes) : Rust (Cmac128 × Buf 16) := do
  let d := cmac128BlockMulx st.2
  let r ← st.1.mac cipher [string] 16 (.zero 16)
  .ok (r.1, memxor d r.2)

/-- The plaintext, its last block under `d`.
mirrors siv_nettle_int.rs:365-382 -/
def s2vLast (st : Cmac128 × Buf 16) (pdata : Bytes) : Rust (Buf 16) :=
  if 16 ≤ pdata.length then do
    let split := pdata.length - 16
    let head ← slice pdata 0 split
    let tail ← slice pdata split pdata.length
    let t ← memxor3 16 tail st.2.bytes
    let r ← st.1.mac cipher [head, t.bytes] 16 (.zero 16)
    .ok r.2
  else do
    let pad ← (Buf.zero 16).copyAt 0 pdata
    let pad ← pad.copyAt pdata.length [0x80]
    let t := memxor (cmac128BlockMulx st.2) pad
    let r ← st.1.mac cipher [t.bytes] 16 (.zero 16)
    .ok r.2

/-- mirrors siv_nettle_int.rs:334-382 -/
def s2v (adata nonce pdata : Bytes) : Rust (Buf 16) :=
  if nonce.isEmpty ∧ adata.isEmpty then do
    let r ← (Cmac128.setKey cipher).mac cipher [constOne] 16 (.zero 16)
    .ok r.2
  else do
    let r ← (Cmac128.setKey cipher).mac cipher [constZero] 16 (.zero 16)
    let r ← s2vString cipher r adata
    let r ← if nonce.isEmpty then .ok r else s2vString cipher r nonce
    s2vLast cipher r pdata

/-- The synthetic IV, as a function. -/
def syntheticIv (adata nonce pdata : Bytes) : Buf 16 :=
  if nonce = [] ∧ adata = [] then Cmac.cmac cipher constOne
  else Cmac.s2v (Cmac.cmac cipher) (adata :: if nonce = [] then [] else [nonce]) pdata

theorem mac_full {c : Cmac128} (h : c.Holds cipher []) (pieces : List Bytes) :
    ∃ c', c.mac cipher pieces 16 (.zero 16) = .ok (c', Cmac.cmac cipher pieces.flatten) ∧
      c'.Holds cipher [] := by
  obtain ⟨c', dst, hmac, hbytes, hc'⟩ := Cmac128.mac_spec cipher h pieces le_rfl le_rfl (.zero 16)
  have hdst : dst = Cmac.cmac cipher pieces.flatten := by
    refine Buf.ext ?_
    rw [hbytes, List.take_of_length_le (by simp), List.drop_eq_nil_of_le (by simp), List.append_nil]
  exact ⟨c', by rw [hmac, hdst], hc'⟩

theorem s2vString_eq {c : Cmac128} (h : c.Holds cipher []) (d : Buf 16) (string : Bytes) :
    ∃ c', s2vString cipher (c, d) string = .ok (c', (Cmac.double d).xor (Cmac.cmac cipher string)) ∧
      c'.Holds cipher [] := by
  obtain ⟨c', hmac, hc'⟩ := mac_full cipher h [string]
  rw [List.flatten_singleton] at hmac
  exact ⟨c', by simp only [s2vString, hmac, ok_bind, Cmac128.cmac128BlockMulx_eq]; rfl, hc'⟩

theorem pad_eq {pdata : Bytes} (h : pdata.length < 16) : ∃ b : Buf 16,
    (Buf.zero 16).copyAt 0 pdata = .ok b ∧ b.copyAt pdata.length [0x80] = .ok (Cmac.pad pdata) := by
  obtain ⟨b, hb, e⟩ := (Buf.zero 16).copyAt_of_le 0 pdata (by omega)
  refine ⟨b, hb, Cmac128.copyAt_pad ?_ h⟩
  rw [e, List.take_zero, List.nil_append, Nat.zero_add, Buf.zero, List.drop_replicate]

theorem s2vLast_eq {c : Cmac128} (h : c.Holds cipher []) (d : Buf 16) (pdata : Bytes) :
    s2vLast cipher (c, d) pdata = .ok (Cmac.cmac cipher
      (if 16 ≤ pdata.length then Cmac.xorEnd pdata d
        else ((Cmac.double d).xor (Cmac.pad pdata)).bytes)) := by
  unfold s2vLast
  by_cases hlong : 16 ≤ pdata.length
  · have htail : (pdata.drop (pdata.length - 16)).length = 16 := by simp; omega
    obtain ⟨c', hmac, -⟩ := mac_full cipher h [pdata.take (pdata.length - 16),
      ((Buf.ofBytes 16 (pdata.drop (pdata.length - 16))).xor d).bytes]
    rw [if_pos hlong, if_pos hlong]
    simp only [slice_of_le (Nat.zero_le _) (Nat.sub_le _ 16), slice_of_le
      (Nat.sub_le pdata.length 16) le_rfl,
      ok_bind, List.drop_zero, List.take_length, Cmac128.memxor3_eq htail d.length_eq,
        Buf.ofBytes_bytes,
      hmac]
    simp [Cmac.xorEnd]
  · obtain ⟨c', hmac, -⟩ := mac_full cipher h [((Cmac.double d).xor (Cmac.pad pdata)).bytes]
    obtain ⟨b1, hb1, hb2⟩ := pad_eq (not_le.1 hlong)
    rw [if_neg hlong, if_neg hlong, hb1, ok_bind, hb2, ok_bind]
    simp only [Cmac128.cmac128BlockMulx_eq, memxor, hmac, ok_bind, List.flatten_singleton]

/-- **The synthetic IV.** -/
theorem s2v_eq (adata nonce pdata : Bytes) :
    s2v cipher adata nonce pdata = .ok (syntheticIv cipher adata nonce pdata) := by
  have hfresh := Cmac128.setKey_holds cipher
  unfold s2v syntheticIv
  simp only [List.isEmpty_iff]
  split
  · obtain ⟨c', hmac, -⟩ := mac_full cipher hfresh [constOne]
    rw [hmac, ok_bind, List.flatten_singleton]
  · obtain ⟨c1, hmac, h1⟩ := mac_full cipher hfresh [constZero]
    obtain ⟨c2, hadata, h2⟩ := s2vString_eq cipher h1 (Cmac.cmac cipher constZero) adata
    rw [List.flatten_singleton] at hmac
    rw [hmac, ok_bind, hadata, ok_bind]
    split
    · rw [ok_bind, s2vLast_eq cipher h2]
      rfl
    · obtain ⟨c3, hnonce, h3⟩ := s2vString_eq cipher h2
        ((Cmac.double (Cmac.cmac cipher constZero)).xor (Cmac.cmac cipher adata)) nonce
      rw [hnonce, ok_bind, s2vLast_eq cipher h3]
      rfl

end

/-! ## The cipher -/

/-- The schedule of the counter-mode key is kept as the key itself.
mirrors siv_nettle_int.rs:389-392 -/
structure SivCmacAes128 (E : Buf 16 → Buf 16 → Buf 16) where
  ck : Buf 16
  s2vk : Buf 16
  deriving DecidableEq

/-- `ctr[8] &= !0x80; ctr[12] &= !0x80`. -/
def maskCounter (siv : Buf 16) : Buf 16 :=
  ⟨(siv.bytes.modify 8 (· &&& 0x7f)).modify 12 (· &&& 0x7f), by simp⟩

namespace SivCmacAes128

variable {E : Buf 16 → Buf 16 → Buf 16}

/-- mirrors siv_nettle_int.rs:397-403 -/
def setKey (key : Buf 32) : SivCmacAes128 E :=
  { ck := ⟨key.bytes.drop 16, by simp⟩, s2vk := ⟨key.bytes.take 16, by simp⟩ }

/-- mirrors siv_nettle_int.rs:407-422 -/
def encryptMessage (c : SivCmacAes128 E) (nonce adata : Bytes) {n : Nat} (dst : Buf n)
    (src : Bytes) : Rust (Buf n) := do
  Rust.assert (16 ≤ n)
  Rust.assert (n - 16 = src.length)
  let siv ← s2v (E c.s2vk) adata nonce src
  let dst ← dst.copyAt 0 siv.bytes
  dst.copyAt 16 (ctrCrypt (E c.ck) (maskCounter siv) src)

/-- mirrors siv_nettle_int.rs:426-440 -/
def decryptMessage (c : SivCmacAes128 E) (nonce adata : Bytes) {n : Nat} (dst : Buf n)
    (src : Bytes) : Rust (Bool × Buf n) := do
  Rust.assert (16 ≤ src.length)
  Rust.assert (src.length - 16 = n)
  let tag ← slice src 0 16
  let ct ← slice src 16 src.length
  let dst ← dst.copyAt 0 (ctrCrypt (E c.ck) (maskCounter (Buf.ofBytes 16 tag)) ct)
  let siv ← s2v (E c.s2vk) adata nonce dst.bytes
  .ok (memeqlSec siv.bytes tag, dst)

end SivCmacAes128

variable {E : Buf 16 → Buf 16 → Buf 16}

/-- The cipher on whole messages, without the slices. -/
instance : AesSiv (SivCmacAes128 E) where
  setKey key := SivCmacAes128.setKey (Buf.ofBytes 32 key)
  encryptMessage c nonce adata src :=
    let siv := syntheticIv (E c.s2vk) adata nonce src
    siv.bytes ++ ctrCrypt (E c.ck) (maskCounter siv) src
  decryptMessage c nonce adata src :=
    let p := ctrCrypt (E c.ck) (maskCounter (Buf.ofBytes 16 (src.take 16))) (src.drop 16)
    (memeqlSec (syntheticIv (E c.s2vk) adata nonce p).bytes (src.take 16), p)
  encryptMessage_length c nonce adata src := by simp [Nat.add_comm]
  decryptMessage_length c nonce adata src := by simp

namespace SivCmacAes128

theorem siv_encryptMessage (c : SivCmacAes128 E) (nonce adata src : Bytes) :
    AesSiv.encryptMessage c nonce adata src = (syntheticIv (E c.s2vk) adata nonce src).bytes ++
      ctrCrypt (E c.ck) (maskCounter (syntheticIv (E c.s2vk) adata nonce src)) src := rfl

theorem siv_decryptMessage (c : SivCmacAes128 E) (nonce adata : Bytes) {tag ct : Bytes}
    (h : tag.length = 16) : AesSiv.decryptMessage c nonce adata (tag ++ ct) =
      (memeqlSec (syntheticIv (E c.s2vk) adata nonce
        (ctrCrypt (E c.ck) (maskCounter (Buf.ofBytes 16 tag)) ct)).bytes tag,
        ctrCrypt (E c.ck) (maskCounter (Buf.ofBytes 16 tag)) ct) := by
  show (memeqlSec (syntheticIv (E c.s2vk) adata nonce (ctrCrypt (E c.ck) (maskCounter
    (Buf.ofBytes 16 ((tag ++ ct).take 16))) ((tag ++ ct).drop 16))).bytes
      ((tag ++ ct).take 16), _) = _
  rw [List.take_left' h, List.drop_left' h]

/-- Decryption starts from the same counter, so it finds the plaintext and with it the same IV. -/
theorem decrypt_encrypt (c : SivCmacAes128 E) (nonce adata src : Bytes) :
    AesSiv.decryptMessage c nonce adata (AesSiv.encryptMessage c nonce adata src) =
      (true, src) := by
  rw [siv_encryptMessage, siv_decryptMessage c nonce adata (Buf.length_eq _), Buf.ofBytes_bytes,
    ctrCrypt_ctrCrypt, (memeqlSec_iff rfl).2 rfl]

/-- The tag is checked in full, so an accepted message is the one encryption makes. -/
theorem encrypt_of_decrypt {c : SivCmacAes128 E} {nonce adata src p : Bytes}
    (hlen : 16 ≤ src.length) (h : AesSiv.decryptMessage c nonce adata src = (true, p)) :
    AesSiv.encryptMessage c nonce adata p = src := by
  obtain ⟨tag, ct, rfl, htag⟩ : ∃ tag ct, src = tag ++ ct ∧ tag.length = 16 :=
    ⟨src.take 16, src.drop 16, (List.take_append_drop 16 src).symm, by simp [hlen]⟩
  rw [siv_decryptMessage c nonce adata htag, Prod.mk.injEq] at h
  obtain ⟨hver, rfl⟩ := h
  rw [memeqlSec_iff (by rw [Buf.length_bytes, htag])] at hver
  have hiv : Buf.ofBytes 16 tag = syntheticIv (E c.s2vk) adata nonce
      (ctrCrypt (E c.ck) (maskCounter (Buf.ofBytes 16 tag)) ct) := by
    refine Buf.ext ?_
    rw [Buf.bytes_ofBytes htag, hver]
  rw [siv_encryptMessage, hver, ← hiv, ctrCrypt_ctrCrypt]

instance : LawfulAesSiv (SivCmacAes128 E) where
  decrypt_encrypt := decrypt_encrypt

/-- Into a slice of the right size, and no other. -/
theorem encryptMessage_eq_ok {c : SivCmacAes128 E} {nonce adata src : Bytes} {n : Nat} (dst : Buf n)
    {out : Buf n} : c.encryptMessage nonce adata dst src = .ok out ↔
      n = src.length + 16 ∧ out.bytes = AesSiv.encryptMessage c nonce adata src := by
  unfold encryptMessage Rust.assert
  by_cases hn : n = src.length + 16
  · obtain ⟨b1, hb1, -⟩ := dst.copyAt_of_le 0 (syntheticIv (E c.s2vk) adata nonce src).bytes
      (by simp; omega)
    obtain ⟨b2, hb2, -⟩ := b1.copyAt_of_le 16
      (ctrCrypt (E c.ck) (maskCounter (syntheticIv (E c.s2vk) adata nonce src)) src)
        (by simp; omega)
    have h1 := Buf.copyAt_take_end hb1
    have h2 := Buf.copyAt_take_end hb2
    rw [Buf.length_bytes, Nat.zero_add, List.take_zero, List.nil_append] at h1
    have hbytes : b2.bytes = AesSiv.encryptMessage c nonce adata src := by
      rwa [h1, ← siv_encryptMessage, ctrCrypt_length, List.take_of_length_le (by simp; omega)] at h2
    rw [if_pos (by omega), ok_bind, if_pos (by omega), ok_bind, s2v_eq, ok_bind, hb1,
      ok_bind, hb2, ← hbytes]
    constructor
    · rintro ⟨⟩
      exact ⟨hn, rfl⟩
    · rintro ⟨-, h⟩
      rw [Buf.ext h]
  · refine iff_of_false (fun h => ?_) (fun h => hn h.1)
    split at h
    · rw [ok_bind, if_neg (by omega)] at h
      cases h
    · cases h

theorem decryptMessage_eq_ok {c : SivCmacAes128 E} {nonce adata src : Bytes} {n : Nat} (dst : Buf n)
    {out : Buf n} {ok : Bool} : c.decryptMessage nonce adata dst src = .ok (ok, out) ↔
      src.length = n + 16 ∧ AesSiv.decryptMessage c nonce adata src = (ok, out.bytes) := by
  unfold decryptMessage Rust.assert
  by_cases hn : src.length = n + 16
  · obtain ⟨tag, ct, rfl, htag⟩ : ∃ tag ct, src = tag ++ ct ∧ tag.length = 16 :=
      ⟨src.take 16, src.drop 16, (List.take_append_drop 16 src).symm, by simp; omega⟩
    have hct : ct.length = n := by
      rw [List.length_append] at hn
      omega
    obtain ⟨b, hb, e⟩ := dst.copyAt_of_le 0 (ctrCrypt (E c.ck)
      (maskCounter (Buf.ofBytes 16 tag)) ct) (by simp [hct])
    have hbytes : b.bytes = ctrCrypt (E c.ck) (maskCounter (Buf.ofBytes 16 tag)) ct := by
      rw [e, List.take_zero, List.nil_append, List.drop_eq_nil_of_le (by simp [hct]),
        List.append_nil]
    rw [if_pos (by omega), ok_bind, if_pos (by omega), ok_bind,
      slice_of_le (Nat.zero_le _) (by omega),
      ok_bind, slice_of_le (by omega) le_rfl, ok_bind, List.take_length, List.drop_zero,
      List.take_left' htag, List.drop_left' htag, hb, ok_bind, s2v_eq, ok_bind,
      siv_decryptMessage c nonce adata htag, ← hbytes]
    constructor
    · rintro ⟨⟩
      exact ⟨hn, rfl⟩
    · rintro ⟨-, h⟩
      rw [Prod.mk.injEq] at h
      rw [h.1, Buf.ext h.2]
  · refine iff_of_false (fun h => ?_) (fun h => hn h.1)
    split at h
    · rw [ok_bind, if_neg (by omega)] at h
      cases h
    · cases h

end SivCmacAes128

/-! ## The calls of an instance

`SivInstance.encrypt` and `decrypt` of `Siv.lean` are the calls on slices that fit the message; here
they are with the checked addition, the assertions and the `unwrap` on the way. -/

namespace SivInstance

/-- mirrors siv_nettle.rs:134-142 -/
def checkedValidate {C : Type} (s : SivInstance C)
    (nonceLen assocLen plaintextLen ciphertextLen : Int) : Rust Bool :=
  if s.keySet ∧ s.minNonceLength ≤ nonceLen ∧ nonceLen ≤ s.maxNonceLength ∧ 0 ≤ assocLen ∧
      0 ≤ plaintextLen ∧ plaintextLen ≤ ciphertextLen then do
    Rust.assert (1 ≤ s.tagLength ∧ s.tagLength ≤ 16)
    let sum ← i32 (plaintextLen + s.tagLength)
    .ok (decide (sum = ciphertextLen))
  else .ok false

/-- mirrors siv_nettle.rs:146-168 -/
def checkedEncrypt (s : SivInstance (SivCmacAes128 E)) (nonce assoc plaintext : Bytes) {n : Nat}
    (ciphertext : Buf n) : Rust (Bool × Buf n) := do
  let valid ← s.checkedValidate (asI32 nonce.length) (asI32 assoc.length)
      (asI32 plaintext.length) (asI32 n)
  if valid then
    match s.algorithm, s.ctx with
    | .aesSivCmac256, some c => do
      let out ← c.encryptMessage nonce assoc ciphertext plaintext
      .ok (true, out)
    | .aesSivCmac256, none => .error .unwrap
    | _, _ => .ok (false, ciphertext)
  else .ok (false, ciphertext)

/-- mirrors siv_nettle.rs:172-193 -/
def checkedDecrypt (s : SivInstance (SivCmacAes128 E)) (nonce assoc ciphertext : Bytes) {n : Nat}
    (plaintext : Buf n) : Rust (Bool × Buf n) := do
  let valid ← s.checkedValidate (asI32 nonce.length) (asI32 assoc.length) (asI32 n)
      (asI32 ciphertext.length)
  if valid then
    match s.algorithm, s.ctx with
    | .aesSivCmac256, some c => c.decryptMessage nonce assoc plaintext ciphertext
    | .aesSivCmac256, none => .error .unwrap
    | _, _ => .ok (false, plaintext)
  else .ok (false, plaintext)

/-- The checks pass exactly where they pass without overflow. -/
theorem checkedValidate_eq_true {C : Type} {s : SivInstance C} {a b p c : Int} (hc : c < 2 ^ 31) :
    s.checkedValidate a b p c = .ok true ↔ s.validate a b p c = true := by
  obtain ⟨h1, h2, h3⟩ := s.lengths_eq
  unfold checkedValidate validate
  rw [decide_eq_true_iff, h3]
  constructor
  · intro h
    split at h
    · rename_i hcond
      rw [assert_of (by decide), ok_bind] at h
      obtain ⟨sum, hsum, h⟩ := bind_eq_ok.1 h
      obtain ⟨rfl, -⟩ := i32_eq_ok hsum
      exact ⟨hcond.1, hcond.2.1, hcond.2.2.1, hcond.2.2.2.1, hcond.2.2.2.2.1, hcond.2.2.2.2.2,
        of_decide_eq_true (Except.ok.inj h)⟩
    · cases h
  · rintro ⟨g1, g2, g3, g4, g5, g6, g7⟩
    rw [if_pos ⟨g1, g2, g3, g4, g5, g6⟩, assert_of (by decide), ok_bind,
      i32_of_range (by omega) (by omega), ok_bind, decide_eq_true g7]

/-- Nor do they overflow on slices that fit: sixteen more bytes only make the length as an `i32`
smaller when it is past the end. -/
theorem checkedValidate_returns {C : Type} (s : SivInstance C) (a b : Int) (p : Nat) :
    s.checkedValidate a b (asI32 p) (asI32 (p + 16)) =
      .ok (s.validate a b (asI32 p) (asI32 (p + 16))) := by
  have hp := asI32_range p
  have hc := asI32_range (p + 16)
  cases hv : s.validate a b (asI32 p) (asI32 (p + 16)) with
  | true => exact (checkedValidate_eq_true hc.2).2 hv
  | false =>
    unfold checkedValidate
    split
    · rename_i hcond
      have hsum : asI32 p + 16 < 2 ^ 31 := by
        have hle := hcond.2.2.2.2.2
        unfold asI32 at hle hp ⊢
        rw [Int.bmod_def] at hle hp ⊢
        rw [Int.bmod_def] at hle
        split at hle <;> split at hle <;> omega
      rw [s.lengths_eq.2.2, assert_of (by decide), ok_bind, i32_of_range (by omega) hsum, ok_bind]
      have hne : asI32 p + 16 ≠ asI32 (p + 16) := fun he => by
        unfold validate at hv
        exact of_decide_eq_false hv ⟨hcond.1, hcond.2.1, hcond.2.2.1, hcond.2.2.2.1,
          hcond.2.2.2.2.1, hcond.2.2.2.2.2, by rw [s.lengths_eq.2.2]; exact he⟩
      rw [decide_eq_false hne]
    · rfl

variable {s : SivInstance (SivCmacAes128 E)} {c : SivCmacAes128 E} {nonce assoc : Bytes}

theorem checkedEncrypt_eq_true (hc : s.ctx = some c) {plaintext : Bytes} {n : Nat}
    {out ct : Buf n} : s.checkedEncrypt nonce assoc plaintext out = .ok (true, ct) ↔
      s.checkedValidate (asI32 nonce.length) (asI32 assoc.length) (asI32 plaintext.length)
        (asI32 n) = .ok true ∧
      n = plaintext.length + 16 ∧ ct.bytes = AesSiv.encryptMessage c nonce assoc plaintext := by
  unfold checkedEncrypt
  rw [s.algorithm_eq, hc, ← SivCmacAes128.encryptMessage_eq_ok out]
  cases hv : s.checkedValidate (asI32 nonce.length) (asI32 assoc.length) (asI32 plaintext.length)
    (asI32 n) with
  | error e => simp
  | ok valid =>
    cases valid with
    | false => simp
    | true => simp [bind_eq_ok]

theorem checkedDecrypt_eq_true (hc : s.ctx = some c) {ciphertext : Bytes} {n : Nat}
    {out p : Buf n} : s.checkedDecrypt nonce assoc ciphertext out = .ok (true, p) ↔
      s.checkedValidate (asI32 nonce.length) (asI32 assoc.length) (asI32 n)
        (asI32 ciphertext.length) = .ok true ∧
      ciphertext.length = n + 16 ∧ AesSiv.decryptMessage c nonce assoc ciphertext =
        (true, p.bytes) := by
  unfold checkedDecrypt
  rw [s.algorithm_eq, hc, ← SivCmacAes128.decryptMessage_eq_ok out]
  cases hv : s.checkedValidate (asI32 nonce.length) (asI32 assoc.length) (asI32 n)
    (asI32 ciphertext.length) with
  | error e => simp
  | ok valid =>
    cases valid with
    | false => simp
    | true => simp

/-- **Round trips.** Every key of 32 bytes keys an instance, and then, for every nonce that is not
empty and every associated data: a plaintext is encrypted whenever the lengths are `i32` values;
what was encrypted is decrypted, to the plaintext; and what is decrypted is what encryption makes of
the result. -/
theorem siv_round_trip (E : Buf 16 → Buf 16 → Buf 16) (s0 : SivInstance (SivCmacAes128 E))
    (key : Bytes) (hkey : key.length = 32) :
    ∃ s, s0.setKey key = .ok (s, true) ∧ ∀ nonce assoc : Bytes, nonce ≠ [] →
      (∀ plaintext : Bytes, nonce.length < 2 ^ 31 → assoc.length < 2 ^ 31 →
        plaintext.length + 16 < 2 ^ 31 →
        ∀ out : Buf (plaintext.length + 16), ∃ ct, s.checkedEncrypt nonce assoc plaintext out =
          .ok (true, ct)) ∧
      (∀ (plaintext : Bytes) (n : Nat) (out ct : Buf n),
        s.checkedEncrypt nonce assoc plaintext out = .ok (true, ct) →
        ∀ buf : Buf plaintext.length, ∃ p, s.checkedDecrypt nonce assoc ct.bytes buf =
          .ok (true, p) ∧ p.bytes = plaintext) ∧
      (∀ (ciphertext : Bytes) (n : Nat) (buf p : Buf n),
        s.checkedDecrypt nonce assoc ciphertext buf = .ok (true, p) →
        ∀ out : Buf ciphertext.length, ∃ ct, s.checkedEncrypt nonce assoc p.bytes out =
          .ok (true, ct) ∧ ct.bytes = ciphertext) := by
  obtain ⟨s, hs, hc⟩ := setKey_of_length (s := s0) hkey
  refine ⟨s, hs, fun nonce assoc hne => ⟨?_, ?_, ?_⟩⟩
  · intro plaintext hn ha hp out
    have hpos := List.length_pos_iff.2 hne
    have hlen :=
      AesSiv.encryptMessage_length (AesSiv.setKey key : SivCmacAes128 E) nonce assoc plaintext
    refine ⟨⟨_, hlen⟩, (checkedEncrypt_eq_true hc).2 ⟨?_, rfl, rfl⟩⟩
    rw [checkedValidate_eq_true (asI32_range _).2, validate_iff, hc, asI32_of_lt hn, asI32_of_lt ha,
      asI32_of_lt hp, asI32_of_lt (by omega)]
    refine ⟨rfl, ?_⟩
    omega
  · intro plaintext n out ct h buf
    -- both calls make the same check
    obtain ⟨hv, hn, hct⟩ := (checkedEncrypt_eq_true hc).1 h
    refine ⟨⟨plaintext, rfl⟩, (checkedDecrypt_eq_true hc).2 ⟨?_, ?_, ?_⟩, rfl⟩
    · rw [ct.length_eq]
      exact hv
    · rw [ct.length_eq, hn]
    · rw [hct]
      exact SivCmacAes128.decrypt_encrypt _ _ _ _
  · intro ciphertext n buf p h out
    obtain ⟨hv, hn, hp⟩ := (checkedDecrypt_eq_true hc).1 h
    refine ⟨⟨ciphertext, rfl⟩, (checkedEncrypt_eq_true hc).2 ⟨?_, ?_, ?_⟩, rfl⟩
    · rw [p.length_eq]
      exact hv
    · rw [p.length_eq, hn]
    · exact (SivCmacAes128.encrypt_of_decrypt (by omega) hp).symm

/-- With a cipher that adds the key to the block, and a message of two blocks and a half. -/
theorem siv_round_trip_two : ∃ s, (unkeyed : SivInstance (SivCmacAes128 Buf.xor)).setKey
    (List.replicate 32 7) =
    .ok (s, true) ∧ ∀ out : Buf 56, ∃ ct, s.checkedEncrypt [1] [] (List.replicate 40 2) out =
      .ok (true, ct) ∧
      ∀ buf : Buf 40, ∃ p, s.checkedDecrypt [1] [] ct.bytes buf = .ok (true, p) ∧
        p.bytes = List.replicate 40 2 := by
  obtain ⟨s, hs, h⟩ := siv_round_trip Buf.xor unkeyed (List.replicate 32 7) (by decide)
  obtain ⟨henc, hdec, -⟩ := h [1] [] (by decide)
  refine ⟨s, hs, fun out => ?_⟩
  obtain ⟨ct, hct⟩ := henc (List.replicate 40 2) (by decide) (by decide) (by decide) out
  exact ⟨ct, hct, hdec _ _ out ct hct⟩

/-- The calls agree with those of `Siv.lean`, and never panic, on slices that fit the message. -/
theorem checkedEncrypt_eq (s : SivInstance (SivCmacAes128 E)) (nonce assoc plaintext : Bytes)
    (out : Buf (plaintext.length + 16)) : s.checkedEncrypt nonce assoc plaintext out =
      .ok ((s.encrypt nonce assoc plaintext out).ok,
        (s.encrypt nonce assoc plaintext out).out) := by
  unfold checkedEncrypt encrypt
  rw [checkedValidate_returns, ok_bind, s.algorithm_eq]
  cases hv : s.validate (asI32 nonce.length) (asI32 assoc.length) (asI32 plaintext.length)
    (asI32 (plaintext.length + 16)) with
  | false => simp
  | true =>
    obtain ⟨c, hc⟩ := Option.isSome_iff_exists.1 (validate_iff.1 hv).1
    have hlen := AesSiv.encryptMessage_length c nonce assoc plaintext
    have henc : c.encryptMessage nonce assoc out plaintext =
        .ok (out.overwrite (AesSiv.encryptMessage c nonce assoc plaintext)) :=
      (SivCmacAes128.encryptMessage_eq_ok out).2 ⟨rfl, Buf.overwrite_bytes _ hlen⟩
    simp [hc, henc]

theorem checkedDecrypt_eq (s : SivInstance (SivCmacAes128 E)) (nonce assoc ciphertext : Bytes)
    {n : Nat} (hn : ciphertext.length = n + 16)
    (out : Buf n) : s.checkedDecrypt nonce assoc ciphertext out =
      .ok ((s.decrypt nonce assoc ciphertext out).ok,
        (s.decrypt nonce assoc ciphertext out).out) := by
  unfold checkedDecrypt decrypt
  rw [hn, checkedValidate_returns, ok_bind, s.algorithm_eq]
  cases hv : s.validate (asI32 nonce.length) (asI32 assoc.length) (asI32 n) (asI32 (n + 16)) with
  | false => simp
  | true =>
    obtain ⟨c, hc⟩ := Option.isSome_iff_exists.1 (validate_iff.1 hv).1
    have hlen := AesSiv.decryptMessage_length c nonce assoc ciphertext
    rw [hn, Nat.add_sub_cancel] at hlen
    have hdec : c.decryptMessage nonce assoc out ciphertext =
        .ok ((AesSiv.decryptMessage c nonce assoc ciphertext).1,
          out.overwrite (AesSiv.decryptMessage c nonce assoc ciphertext).2) :=
      (SivCmacAes128.decryptMessage_eq_ok out).2 ⟨hn, by rw [Buf.overwrite_bytes _ hlen]⟩
    simp [hc, hdec]

/-- **The calls refine the cipher of the authenticator.** On slices that fit the message nothing
overflows and no assertion fails, and the answer and the bytes written are those of `Siv.lean`. -/
theorem calls_refine (s : SivInstance (SivCmacAes128 E)) (nonce assoc plaintext : Bytes) (n : Nat)
    (ciphertext : Buf (n + 16)) :
    (∀ out : Buf (plaintext.length + 16), s.checkedEncrypt nonce assoc plaintext out =
      .ok ((s.encrypt nonce assoc plaintext out).ok, (s.encrypt nonce assoc plaintext out).out)) ∧
    ∀ out : Buf n, s.checkedDecrypt nonce assoc ciphertext.bytes out =
      .ok ((s.decrypt nonce assoc ciphertext.bytes out).ok,
        (s.decrypt nonce assoc ciphertext.bytes out).out) :=
  ⟨checkedEncrypt_eq s nonce assoc plaintext,
    checkedDecrypt_eq s nonce assoc ciphertext.bytes ciphertext.length_eq⟩

end SivInstance

end ChronyRs.L2

import ChronyRs.L1Encoding.Ext
import ChronyRs.L2Auth.Siv

/-!
# The NTS authenticator field (`nts_ntp_auth.rs`)

The body of the field is a 4-byte header (nonce length, ciphertext length), the
nonce and the ciphertext, each padded to 4 bytes, and additional padding. The
packet in front of the field is the associated data.

`generateAuthEf` computes its lengths in `authLengths` and then writes the field;
`decryptAuthEf` checks the received lengths in `authSpans`, which returns the
spans of the buffer it then reads. The `i32` additions carry their overflow
checks.

* `generateAuthEf_spec`: what `generate_auth_ef` appends, or that it appends
  nothing.
* `decryptAuthEf_some`: an accepted field is one whose ciphertext the AEAD
  accepted with everything in front of the field as associated data.
* `decryptAuthEf_authBody`: a field written by `generate_auth_ef` decrypts.
-/
namespace ChronyRs.L2.AuthEf

open L1.Ext

variable {S : Type}

/-! ## Model -/

/-- mirrors nts_ntp_auth.rs:67-73 -/
def getPaddingLength (length : Int) : Int :=
  if length.tmod 4 ≠ 0 then 4 - length.tmod 4 else 0

/-- `length` rounded up to a multiple of 4. -/
def padded (length : Int) : Int := length + getPaddingLength length

/-- mirrors nts_ntp_auth.rs:76-78 -/
def getPaddedLength (length : Int) : Rust Int := i32 (padded length)

structure AuthLengths where
  nonceLength : Int
  ciphertextLength : Int
  additionalPadding : Int
  authLength : Int

/-- mirrors nts_ntp_auth.rs:98-112 -/
def authLengths (maxNonceLength maxSivNonceLength tagLength plaintextLength minEfLength : Int) :
    Rust AuthLengths := do
  let nonceLength := min maxNonceLength maxSivNonceLength
  let ciphertextLength ← i32 (tagLength + plaintextLength)
  let noncePadding := getPaddingLength nonceLength
  let minEfLength ← getPaddedLength minEfLength
  let len ← i32 (4 + nonceLength)
  let len ← i32 (len + noncePadding)
  let len ← i32 (len + ciphertextLength)
  let len ← i32 (len + getPaddingLength ciphertextLength)
  let missing ← i32 (minEfLength - len)
  let missing ← i32 (missing - 4)
  let short ← i32 (min 16 maxSivNonceLength - nonceLength)
  let short ← i32 (short - noncePadding)
  let additionalPadding := max short (max missing 0)
  return { nonceLength, ciphertextLength, additionalPadding,
           authLength := ← i32 (len + additionalPadding) }

/-- `siv.encrypt(nonce, assoc, plaintext, &mut packet[off..off + len])`. -/
def sealAt [Siv S] (packet : NtpPacketBuf) (siv : S) (nonce assoc plaintext : Bytes)
    (off len : Nat) : Rust (NtpPacketBuf × S × Bool) := do
  let ciphertext ← packet.sub off len
  let r := Siv.encrypt siv nonce assoc plaintext ciphertext
  return (← packet.copyAt off r.out.bytes, r.siv, r.ok)

/-- The field body at `headerOff`; the flag is the AEAD's.
mirrors nts_ntp_auth.rs:120-169 -/
def writeAuthEf [Siv S] (packet : NtpPacketBuf) (assocLength : Int) (siv : S) (nonce : Bytes)
    (plaintext : Bytes) (a : AuthLengths) (headerOff : Nat) : Rust (NtpPacketBuf × S × Bool) := do
  let packet ← packet.copyAt headerOff (be16 a.nonceLength)
  let packet ← packet.copyAt (headerOff + 2) (be16 a.ciphertextLength)
  let bodyOff := headerOff + 4
  let ciphertextOff := bodyOff + asUsize (a.nonceLength + getPaddingLength a.nonceLength)
  let nonce ← slice nonce 0 (asUsize a.nonceLength)
  let packet ← packet.copyAt bodyOff nonce
  let packet ← packet.zeroRange (bodyOff + asUsize a.nonceLength) ciphertextOff
  -- `split_at_mut(ciphertext_off)`
  let left ← slice packet.bytes 0 ciphertextOff
  let assoc ← slice left 0 (asUsize assocLength)
  let (packet, siv, ok) ← sealAt packet siv nonce assoc plaintext ciphertextOff
    (asUsize a.ciphertextLength)
  if ¬ ok then return (packet, siv, false)
  let padStart := ciphertextOff + asUsize a.ciphertextLength
  let padEnd := padStart + asUsize (getPaddingLength a.ciphertextLength + a.additionalPadding)
  return (← packet.zeroRange padStart padEnd, siv, true)

/-- mirrors nts_ntp_auth.rs:83-172 -/
def generateAuthEf [Siv S] (packet : NtpPacketBuf) (info : NtpPacketInfo) (siv : S) (nonce : Bytes)
    (maxNonceLength : Int) (plaintext : Bytes) (minEfLength : Int) :
    Rust (NtpPacketBuf × NtpPacketInfo × S × Bool) := do
  if maxNonceLength ≤ 0 ∨ asI32 plaintext.length < 0 then return (packet, info, siv, false)
  let a ← authLengths maxNonceLength (Siv.maxNonceLength siv) (Siv.tagLength siv)
    (asI32 plaintext.length) minEfLength
  match ← addBlankField packet info 0x0404 a.authLength with
  | (packet, info', none) => return (packet, info', siv, false)
  | (packet, info', some headerOff) =>
    let (packet, siv, ok) ← writeAuthEf packet info.length siv nonce plaintext a headerOff
    if ¬ ok then
      return (packet, { info' with length := info.length, extFields := info'.extFields - 1 }, siv,
        false)
    return (packet, info', siv, true)

/-- What `decrypt_auth_ef` is about to read. -/
structure AuthSpans where
  nonceOff : Nat
  nonceLength : Nat
  ciphertextOff : Nat
  ciphertextLength : Nat
  plaintextLength : Nat
  deriving DecidableEq, Repr

def authHeader (packet : NtpPacketBuf) (pf : ParsedField) : Rust (Int × Int) := do
  return (fromBe16 (← index packet.bytes pf.bodyOffset) (← index packet.bytes (pf.bodyOffset + 1)),
    fromBe16 (← index packet.bytes (pf.bodyOffset + 2)) (← index packet.bytes (pf.bodyOffset + 3)))

/-- mirrors nts_ntp_auth.rs:189-224 -/
def authSpans (packet : NtpPacketBuf) (length maxSivNonceLength sivTagLength efStart
    bufferLength : Int) : Rust (Option AuthSpans) := do
  match ← parseField packet length efStart with
  | none => return none
  | some pf =>
    if pf.fieldType ≠ 0x0404 ∨ pf.bodyLength < 4 then return none
    let (nonceLength, ciphertextLength) ← authHeader packet pf
    let paddedNonce ← getPaddedLength nonceLength
    let paddedCiphertext ← getPaddedLength ciphertextLength
    if paddedNonce + paddedCiphertext > pf.bodyLength then return none
    if nonceLength < 1 ∨ ciphertextLength < sivTagLength then return none
    let plaintextLength ← i32 (ciphertextLength - sivTagLength)
    if plaintextLength > bufferLength then return none
    if 4 + min 16 maxSivNonceLength + paddedCiphertext > pf.bodyLength then return none
    return some
      { nonceOff := pf.bodyOffset + 4, nonceLength := nonceLength.toNat
        ciphertextOff := pf.bodyOffset + 4 + paddedNonce.toNat
        ciphertextLength := ciphertextLength.toNat, plaintextLength := plaintextLength.toNat }

/-- mirrors nts_ntp_auth.rs:226-234 -/
def openAuthEf [Siv S] (packet : NtpPacketBuf) (siv : S) (efStart : Int) (a : AuthSpans) {n : Nat}
    (out : Buf n) : Rust (S × Buf n × Option Nat) := do
  let nonce ← slice packet.bytes a.nonceOff (a.nonceOff + a.nonceLength)
  let assoc ← slice packet.bytes 0 (asUsize efStart)
  let ciphertext ← slice packet.bytes a.ciphertextOff (a.ciphertextOff + a.ciphertextLength)
  let dst ← out.sub 0 a.plaintextLength
  let r := Siv.decrypt siv nonce assoc ciphertext dst
  let out ← out.copyAt 0 r.out.bytes
  if ¬ r.ok then return (r.siv, out, none)
  return (r.siv, out, some a.plaintextLength)

/-- mirrors nts_ntp_auth.rs:177-235 -/
def decryptAuthEf [Siv S] (packet : NtpPacketBuf) (info : NtpPacketInfo) (siv : S) (efStart : Int)
    {n : Nat} (out : Buf n) : Rust (S × Buf n × Option Nat) := do
  if asI32 n < 0 then return (siv, out, none)
  match ← authSpans packet info.length (Siv.maxNonceLength siv) (Siv.tagLength siv) efStart
      (asI32 n) with
  | none => return (siv, out, none)
  | some a => openAuthEf packet siv efStart a out

/-! ## Padding -/

variable {x minEf : Int} {plaintext : Bytes}

theorem padded_spec (h : 0 ≤ x) : x ≤ padded x ∧ padded x < x + 4 ∧ padded x % 4 = 0 := by
  unfold padded getPaddingLength
  rw [Int.tmod_eq_emod_of_nonneg h]
  split <;> omega

theorem padded_nat (n : Nat) : (n : Int) ≤ padded n ∧ padded n < n + 4 ∧ padded n % 4 = 0 :=
  padded_spec (Int.natCast_nonneg n)

theorem getPaddedLength_of_lt (h0 : 0 ≤ x) (h1 : x < 2 ^ 31 - 4) :
    getPaddedLength x = .ok (padded x) := by
  have := padded_spec h0
  exact i32_of_range (by omega) (by omega)

theorem getPaddingLength_eq (x : Int) : getPaddingLength x = padded x - x := by
  unfold padded; omega

theorem padded_range : x ≤ padded x ∧ padded x ≤ x + 7 := by
  unfold padded getPaddingLength
  have h1 := Int.tmod_lt_of_pos x (show 0 < 4 by decide)
  have h2 := Int.lt_tmod_of_pos x (show 0 < 4 by decide)
  split <;> omega

/-! ## What `generate_auth_ef` writes -/

/-- `bs` padded with zeros to a multiple of 4 bytes. -/
def pad4 (bs : Bytes) : Bytes := bs ++ List.replicate (padded bs.length - bs.length).toNat 0

def authBody (nonce ciphertext : Bytes) (additionalPadding : Nat) : Bytes :=
  be16 nonce.length ++ be16 ciphertext.length ++ pad4 nonce ++ pad4 ciphertext ++
    List.replicate additionalPadding 0

@[simp] theorem pad4_length (bs : Bytes) : ((pad4 bs).length : Int) = padded bs.length := by
  have := padded_nat bs.length
  unfold pad4
  simp only [List.length_append, List.length_replicate]
  omega

theorem authBody_length (nonce ciphertext : Bytes) (k : Nat) :
    ((authBody nonce ciphertext k).length : Int) =
      4 + padded nonce.length + padded ciphertext.length + k := by
  unfold authBody
  simp only [List.length_append, List.length_replicate, be16_length, Nat.cast_add, pad4_length]
  omega

def extraPadding (maxSivNonceLength minEfLength : Int) (nl cl : Nat) : Int :=
  max (min 16 maxSivNonceLength - padded nl)
    (max (padded minEfLength - (4 + padded nl + padded cl) - 4) 0)

theorem extraPadding_range (maxSiv : Int) (hm : minEf < 2 ^ 16) (nl cl : Nat) :
    0 ≤ extraPadding maxSiv minEf nl cl ∧ extraPadding maxSiv minEf nl cl < 2 ^ 17 := by
  have hpn := padded_nat nl
  have hpc := padded_nat cl
  have hpm := padded_range (x := minEf)
  unfold extraPadding
  constructor
  · exact Int.le_trans (Int.le_max_right _ _) (Int.le_max_right _ _)
  · omega

theorem authLengths_eq {maxN maxSiv tag pl : Int} {nl cl : Nat} (hnl : (nl : Int) = min maxN maxSiv)
    (hcl : (cl : Int) = tag + pl) (hn : nl < 2 ^ 16) (hc : cl < 2 ^ 16) (hm : minEf < 2 ^ 16)
    (hm' : -2 ^ 16 < minEf) :
    authLengths maxN maxSiv tag pl minEf =
      .ok ⟨nl, cl, extraPadding maxSiv minEf nl cl,
        4 + padded nl + padded cl + extraPadding maxSiv minEf nl cl⟩ := by
  have hpn := padded_nat nl
  have hpc := padded_nat cl
  have hpm := padded_range (x := minEf)
  unfold authLengths getPaddedLength extraPadding
  simp only [← hnl, ← hcl, getPaddingLength_eq]
  rw [i32_of_range (by omega) (by omega), ok_bind, i32_of_range (by omega) (by omega),
    ok_bind, i32_of_range (by omega) (by omega), ok_bind,
    i32_of_range (by omega) (by omega), ok_bind, i32_of_range (by omega) (by omega),
    ok_bind, i32_of_range (by omega) (by omega),
    ok_bind, i32_of_range (by omega) (by omega), ok_bind,
    i32_of_range (by omega) (by omega), ok_bind, i32_of_range (by omega) (by omega),
    ok_bind, i32_of_range (by omega) (by omega), ok_bind,
    i32_of_range (by omega) (by omega), ok_bind]
  simp only [pure_eq, Except.ok.injEq, AuthLengths.mk.injEq, true_and]
  omega

/-- The writes behind the field header: each one extends the prefix `pre` that the
buffer is known to hold. -/
theorem writeAuthEf_spec [Siv S] {packet : NtpPacketBuf} {assocLength : Int} (siv : S)
    {nonce : Bytes} (plaintext : Bytes) {pre : Bytes} {nl cl extra : Nat}
    (hpre : pre <+: packet.bytes) (ha0 : 0 ≤ assocLength) (ha : assocLength ≤ pre.length)
    (hn : nl ≤ nonce.length)
    (hfit : (pre.length : Int) + (4 + padded nl + padded cl + extra) ≤ 1140) (len : Int) :
    ∃ (out : Buf cl) (p' : NtpPacketBuf), ∀ r,
      r = Siv.encrypt siv (nonce.take nl) (packet.bytes.take assocLength.toNat) plaintext out →
      writeAuthEf packet assocLength siv nonce plaintext ⟨nl, cl, extra, len⟩ pre.length =
          .ok (p', r.siv, r.ok) ∧ pre <+: p'.bytes ∧
        (r.ok = true → pre ++ authBody (nonce.take nl) r.out.bytes extra <+: p'.bytes) := by
  have hpn := padded_nat nl
  have hpc := padded_nat cl
  have hnlen : (nonce.take nl).length = nl := by simp; omega
  -- the header, the nonce and its padding
  obtain ⟨p1, h1, g1⟩ := packet.copyAt_extends hpre
    (show pre.length + (be16 nl).length ≤ 1140 by rw [be16_length]; omega)
  obtain ⟨p2, h2, g2⟩ := p1.copyAt_extends g1
    (show (pre ++ be16 nl).length + (be16 cl).length ≤ 1140 by
      simp only [List.length_append, be16_length]; omega)
  obtain ⟨p3, h3, g3⟩ := p2.copyAt_extends g2
    (show (pre ++ be16 nl ++ be16 cl).length + (nonce.take nl).length ≤ 1140 by
      rw [hnlen]; simp only [List.length_append, be16_length]; omega)
  obtain ⟨p4, h4, g4⟩ := p3.zeroRange_extends g3
    (show (pre ++ be16 nl ++ be16 cl ++ nonce.take nl).length + (padded nl - nl).toNat ≤ 1140 by
      simp only [List.length_append, be16_length, hnlen]; omega)
  obtain ⟨out, h5⟩ := p4.sub_of_le
    (show (pre.length + 4 + (padded nl).toNat) + cl ≤ 1140 by omega)
  -- the associated data was not touched
  have hassoc : p4.bytes.take assocLength.toNat = packet.bytes.take assocLength.toNat := by
    have hpre4 : pre <+: p4.bytes := by
      refine List.IsPrefix.trans ?_ g4
      simp only [List.append_assoc]; exact List.prefix_append _ _
    rw [take_eq_of_used hpre4 (by omega), take_eq_of_used hpre (by omega)]
  -- the ciphertext and the padding behind it
  generalize hr : Siv.encrypt siv (nonce.take nl) (packet.bytes.take assocLength.toNat)
    plaintext out = r
  obtain ⟨p5, h6, g6⟩ := p4.copyAt_extends g4 (show _ + r.out.bytes.length ≤ 1140 by
    simp only [List.length_append, be16_length, hnlen, List.length_replicate, Buf.length_bytes]
    omega)
  obtain ⟨p6, h7, g7⟩ := p5.zeroRange_extends g6 (k := (padded cl - cl).toNat + extra)
    (by
      simp only [List.length_append, be16_length, hnlen, List.length_replicate, Buf.length_bytes]
      omega)
  have e1 : asUsize (nl : Int) = nl := by rw [asUsize_of_nonneg (by omega) (by omega)]; omega
  have e2 : asUsize (cl : Int) = cl := by rw [asUsize_of_nonneg (by omega) (by omega)]; omega
  have e3 : asUsize ((nl : Int) + getPaddingLength nl) = (padded nl).toNat :=
    asUsize_of_nonneg (by rw [getPaddingLength_eq]; omega) (by rw [getPaddingLength_eq]; omega)
  have e4 : asUsize (getPaddingLength cl + (extra : Int)) = (padded cl - cl).toNat + extra := by
    rw [getPaddingLength_eq, asUsize_of_nonneg (by omega) (by omega)]; omega
  simp only [List.length_append, be16_length, hnlen, List.length_replicate, Buf.length_bytes]
    at h2 h3 h4 h6 h7
  rw [show pre.length + 2 + 2 = pre.length + 4 by omega] at h3 h4 h6 h7
  rw [show pre.length + 4 + nl + (padded nl - nl).toNat =
    pre.length + 4 + (padded nl).toNat by omega]
    at h4 h6 h7
  have hseal : sealAt p4 siv (nonce.take nl) (packet.bytes.take assocLength.toNat) plaintext
      (pre.length + 4 + (padded nl).toNat) cl = .ok (p5, r.siv, r.ok) := by
    unfold sealAt
    simp only [h5, ok_bind, hr, h6]
    rfl
  have hwrite : writeAuthEf packet assocLength siv nonce plaintext ⟨nl, cl, extra, len⟩ pre.length =
      .ok (if r.ok then p6 else p5, r.siv, r.ok) := by
    unfold writeAuthEf
    simp only [e1, e2, e3, e4]
    rw [h1, ok_bind, h2, ok_bind, slice_of_le (by omega) hn, ok_bind, List.drop_zero,
      h3, ok_bind, h4, ok_bind,
      slice_of_le (by omega) (by rw [p4.length_bytes]; omega), ok_bind, List.drop_zero,
      asUsize_of_nonneg ha0 (by omega),
      slice_of_le (by omega) (by rw [List.length_take, p4.length_bytes]; omega), ok_bind,
      List.drop_zero, List.take_take, Nat.min_eq_left (by omega), hassoc, hseal, ok_bind,
      h7]
    cases r.ok <;> rfl
  refine ⟨out, if r.ok then p6 else p5, ?_⟩
  rintro _ rfl
  rw [hr]
  refine ⟨hwrite, ?_, fun hok => ?_⟩
  · cases r.ok
    · refine List.IsPrefix.trans ?_ g6
      simp only [List.append_assoc]; exact List.prefix_append _ _
    · refine List.IsPrefix.trans ?_ g7
      simp only [List.append_assoc]; exact List.prefix_append _ _
  · rw [if_pos hok]
    unfold authBody pad4
    rw [hnlen, Buf.length_bytes]
    simpa only [List.append_assoc, List.replicate_append_replicate] using g7

theorem writeAuthEf_take [Siv S] {packet packet' : NtpPacketBuf} {assocLength : Int} {siv siv' : S}
    {nonce : Bytes} {a : AuthLengths} {headerOff k : Nat} {ok : Bool} (hk : k ≤ headerOff)
    (h : writeAuthEf packet assocLength siv nonce plaintext a headerOff = .ok (packet', siv', ok)) :
    packet'.bytes.take k = packet.bytes.take k := by
  unfold writeAuthEf sealAt at h
  obtain ⟨p1, h1, h⟩ := bind_eq_ok.1 h
  obtain ⟨p2, h2, h⟩ := bind_eq_ok.1 h
  obtain ⟨n, -, h⟩ := bind_eq_ok.1 h
  obtain ⟨p3, h3, h⟩ := bind_eq_ok.1 h
  obtain ⟨p4, h4, h⟩ := bind_eq_ok.1 h
  obtain ⟨left, -, h⟩ := bind_eq_ok.1 h
  obtain ⟨assoc, -, h⟩ := bind_eq_ok.1 h
  obtain ⟨⟨p5, siv5, ok5⟩, h5, h⟩ := bind_eq_ok.1 h
  obtain ⟨dst, -, h5⟩ := bind_eq_ok.1 h5
  obtain ⟨p6, h6, h5⟩ := bind_eq_ok.1 h5
  cases h5
  have hsealed : p5.bytes.take k = packet.bytes.take k := by
    rw [Buf.copyAt_take h6 (by omega), Buf.zeroRange_take h4 (by omega),
      Buf.copyAt_take h3 (by omega), Buf.copyAt_take h2 (by omega), Buf.copyAt_take h1 hk]
  dsimp only at h
  split at h
  · cases h
    exact hsealed
  · obtain ⟨p7, h7, h⟩ := bind_eq_ok.1 h
    cases h
    rw [Buf.zeroRange_take h7 (by omega), hsealed]

/-- Whether or not an authenticator is appended, what was in the packet is kept. -/
theorem generateAuthEf_kept [Siv S] {packet packet' : NtpPacketBuf} {info info' : NtpPacketInfo}
    {siv siv' : S} {nonce : Bytes} {maxN : Int} {ok : Bool}
    (h : generateAuthEf packet info siv nonce maxN plaintext minEf =
      .ok (packet', info', siv', ok)) :
    Kept packet info packet' info' := by
  unfold generateAuthEf at h
  split at h
  · cases h
    exact .refl _ _
  obtain ⟨a, -, h⟩ := bind_eq_ok.1 h
  obtain ⟨⟨p1, i1, off⟩, hadd, h⟩ := bind_eq_ok.1 h
  obtain ⟨hkept, hoff⟩ := addBlankField_kept hadd
  cases off with
  | none => cases h; exact hkept
  | some off =>
    obtain ⟨⟨p2, siv2, ok2⟩, hwrite, h⟩ := bind_eq_ok.1 h
    have htake := writeAuthEf_take (k := info.length.toNat) (by have := hoff off rfl; omega) hwrite
    dsimp only at h
    split at h
    · cases h
      exact ⟨Int.le_refl _, by dsimp only; omega, htake.trans hkept.used_eq⟩
    · cases h
      exact ⟨hkept.length_le, hkept.end_le, htake.trans hkept.used_eq⟩

/-- **`generate_auth_ef`.** With lengths in the range of the field header, it either
finds no room (and the packet keeps its length), or hands the AEAD everything in
front of the field, and appends the field if the AEAD succeeds. -/
theorem generateAuthEf_spec [Siv S] (packet : NtpPacketBuf) (info : NtpPacketInfo) {siv : S}
    {nonce : Bytes} {maxN : Int} {nl cl extra : Nat} (hmax : 0 < maxN)
    (hnl : (nl : Int) = min maxN (Siv.maxNonceLength siv))
    (hcl : (cl : Int) = Siv.tagLength siv + plaintext.length)
    (hex : (extra : Int) = extraPadding (Siv.maxNonceLength siv) minEf nl cl)
    (hn : nl ≤ nonce.length) (hn16 : nl < 2 ^ 16) (hc16 : cl < 2 ^ 16)
    (hp31 : plaintext.length < 2 ^ 31) (hm : minEf < 2 ^ 16) (hm' : -2 ^ 16 < minEf) {len : Nat}
    (hlen : (len : Int) = 4 + padded nl + padded cl + extra) :
    (¬ Fits info len ∧ ∃ p', generateAuthEf packet info siv nonce maxN plaintext minEf =
        .ok (p', info, siv, false) ∧
        p'.bytes.take info.length.toNat = packet.bytes.take info.length.toNat) ∨
    (Fits info len ∧ ∃ (out : Buf cl) (p' : NtpPacketBuf), ∀ r,
      r = Siv.encrypt siv (nonce.take nl) (packet.bytes.take info.length.toNat) plaintext out →
      generateAuthEf packet info siv nonce maxN plaintext minEf =
          .ok (p', if r.ok then grown info len else info, r.siv, r.ok) ∧
        p'.bytes.take info.length.toNat = packet.bytes.take info.length.toNat ∧
        (r.ok = true → p'.bytes.take (grown info len).length.toNat =
          packet.bytes.take info.length.toNat ++
            encField 0x0404 (authBody (nonce.take nl) r.out.bytes extra))) := by
  have hpn := padded_nat nl
  have hpc := padded_nat cl
  have hex' := extraPadding_range (Siv.maxNonceLength siv) hm nl cl
  rw [← hex] at hex'
  have hlen30 : len < 2 ^ 30 := by omega
  have hpl : asI32 plaintext.length = plaintext.length := asI32_of_lt hp31
  unfold generateAuthEf
  have hguard : ¬ (maxN ≤ 0 ∨ (plaintext.length : Int) < 0) :=
    not_or.2 ⟨Int.not_le.2 hmax, Int.not_lt.2 (Int.natCast_nonneg _)⟩
  rw [hpl, if_neg hguard, authLengths_eq hnl hcl hn16 hc16 hm hm', ok_bind]
  simp only [← hex, ← hlen]
  rcases addBlankField_cases packet info 0x0404 hlen30 with
    ⟨hf, p1, h1, g1⟩ | ⟨hf, p1, h1, g1⟩
  · right
    have h48 := hf.length_ge; have hend := hf.end_le
    have hpre : packet.bytes.take info.length.toNat ++ be16 0x0404 ++ be16 (4 + len) <+: p1.bytes :=
      g1 ▸ List.take_prefix _ _
    have hplen : (packet.bytes.take info.length.toNat ++ be16 0x0404 ++ be16 (4 + len)).length =
        info.length.toNat + 4 := by
      simp only [List.length_append, List.length_take, packet.length_bytes, be16_length]; omega
    -- behind the header, a buffer that starts with these bytes still starts with the packet
    have hkeep : ∀ {p : NtpPacketBuf},
        packet.bytes.take info.length.toNat ++ be16 0x0404 ++ be16 (4 + len) <+: p.bytes →
        p.bytes.take info.length.toNat = packet.bytes.take info.length.toNat := by
      intro p hp
      rw [take_eq_of_used hp (by omega), List.append_assoc, List.take_append_of_le_length (by
        rw [List.length_take, packet.length_bytes]; omega), List.take_take, Nat.min_self]
    have hfit : ((packet.bytes.take info.length.toNat ++ be16 0x0404 ++
        be16 (4 + len)).length : Int) + (4 + padded nl + padded cl + extra) ≤ 1140 := by omega
    obtain ⟨out, p2, hw⟩ := writeAuthEf_spec siv plaintext hpre (show 0 ≤ info.length by omega)
      (by omega) hn hfit len
    refine ⟨hf, out, p2, ?_⟩
    rintro r rfl
    obtain ⟨e1, e2, e3⟩ := hw _ rfl
    rw [hkeep hpre] at e1 e3
    generalize Siv.encrypt siv (nonce.take nl) (packet.bytes.take info.length.toNat)
      plaintext out = r
      at e1 e3 ⊢
    rw [hplen] at e1
    rw [h1]
    simp only [ok_bind, e1]
    cases hok : r.ok with
    | false =>
      refine ⟨?_, hkeep e2, fun h => by cases h⟩
      simp [grown]
    | true =>
      refine ⟨rfl, hkeep e2, fun _ => ?_⟩
      have hbody := authBody_length (nonce.take nl) r.out.bytes extra
      rw [List.length_take, Nat.min_eq_left hn, Buf.length_bytes] at hbody
      have := List.prefix_iff_eq_take.1 (e3 hok)
      rw [List.length_append, hplen] at this
      rw [show (grown info len).length.toNat =
        info.length.toNat + 4 + (authBody (nonce.take nl) r.out.bytes extra).length by
          simp only [grown]; omega, ← this]
      unfold encField
      rw [show (4 + ((authBody (nonce.take nl) r.out.bytes extra).length : Int)) = 4 + len by omega]
      simp only [List.append_assoc]
  · exact .inl ⟨hf, p1, by rw [h1]; rfl, g1⟩

/-! ## What `decrypt_auth_ef` reads -/

/-- The field at `efStart` is an authenticator whose header passes the first
checks: the two padded lengths are within the body, there is a nonce, and the
ciphertext has room for the tag. -/
structure Admitted (packet : NtpPacketBuf) (length tag efStart : Int) (pf : ParsedField)
    (nl cl : Int) : Prop where
  parsed : parseField packet length efStart = .ok (some pf)
  type_eq : pf.fieldType = 0x0404
  header : authHeader packet pf = .ok (nl, cl)
  nonce_pos : 1 ≤ nl
  tag_le : tag ≤ cl
  fill_le : padded nl + padded cl ≤ pf.bodyLength

theorem authHeader_returns (packet : NtpPacketBuf) {pf : ParsedField}
    (h : pf.bodyOffset + 4 ≤ 1140) : ∃ nl cl, authHeader packet pf = .ok (nl, cl) := by
  unfold authHeader
  rw [index_of_lt (by rw [packet.length_bytes]; omega), index_of_lt
    (by rw [packet.length_bytes]; omega),
    index_of_lt (by rw [packet.length_bytes]; omega), index_of_lt
      (by rw [packet.length_bytes]; omega)]
  exact ⟨_, _, rfl⟩

theorem authHeader_range {packet : NtpPacketBuf} {pf : ParsedField} {nl cl : Int}
    (h : authHeader packet pf = .ok (nl, cl)) : (0 ≤ nl ∧ nl < 2 ^ 16) ∧ 0 ≤ cl ∧ cl < 2 ^ 16 := by
  unfold authHeader at h
  obtain ⟨a, -, h⟩ := bind_eq_ok.1 h
  obtain ⟨b, -, h⟩ := bind_eq_ok.1 h
  obtain ⟨c, -, h⟩ := bind_eq_ok.1 h
  obtain ⟨d, -, h⟩ := bind_eq_ok.1 h
  cases h
  exact ⟨fromBe16_range a b, fromBe16_range c d⟩

section
variable {packet : NtpPacketBuf} {length maxN tag efStart bufLen : Int} {pf : ParsedField}
  {nl cl : Int}

theorem Admitted.range (h : Admitted packet length tag efStart pf nl cl) :
    nl < 2 ^ 16 ∧ 0 ≤ cl ∧ cl < 2 ^ 16 := by
  obtain ⟨⟨-, h1⟩, h2, h3⟩ := authHeader_range h.header
  exact ⟨h1, h2, h3⟩

theorem Admitted.unique {pf' : ParsedField} {nl' cl' : Int}
    (h : Admitted packet length tag efStart pf nl cl)
    (h' : Admitted packet length tag efStart pf' nl' cl') : pf' = pf ∧ nl' = nl ∧ cl' = cl := by
  have h1 := h'.parsed
  rw [h.parsed] at h1; cases h1
  have h2 := h'.header
  rw [h.header] at h2; cases h2
  exact ⟨rfl, rfl, rfl⟩

def spansOf (pf : ParsedField) (nl cl tag : Int) : AuthSpans :=
  { nonceOff := pf.bodyOffset + 4, nonceLength := nl.toNat
    ciphertextOff := pf.bodyOffset + 4 + (padded nl).toNat
    ciphertextLength := cl.toNat, plaintextLength := (cl - tag).toNat }

/-- The checks that are left for an admitted field. -/
theorem authSpans_admitted (h : Admitted packet length tag efStart pf nl cl) :
    authSpans packet length maxN tag efStart bufLen =
      if 2 ^ 31 ≤ cl - tag then .error .overflow
      else if bufLen < cl - tag ∨ pf.bodyLength < 4 + min 16 maxN + padded cl then .ok none
      else .ok (some (spansOf pf nl cl tag)) := by
  obtain ⟨hr1, hr2, hr3⟩ := h.range
  have hn := h.nonce_pos; have ht := h.tag_le; have hf := h.fill_le
  have hpn := padded_spec (x := nl) (by omega)
  have hpc := padded_spec hr2
  unfold authSpans
  rw [h.parsed]
  simp only [ok_bind]
  rw [if_neg (by have := h.type_eq; omega), h.header]
  simp only [ok_bind]
  rw [getPaddedLength_of_lt (by omega) (by omega), getPaddedLength_of_lt (by omega) (by omega)]
  simp only [ok_bind]
  rw [if_neg (by omega), if_neg (by omega)]
  by_cases h31 : 2 ^ 31 ≤ cl - tag
  · rw [if_pos h31, i32, if_neg (by omega)]; rfl
  · rw [if_neg h31, i32_of_range (by omega) (by omega)]
    simp only [ok_bind]
    by_cases hb : cl - tag > bufLen
    · rw [if_pos hb, if_pos (by omega)]; rfl
    · rw [if_neg hb]
      by_cases hm : 4 + min 16 maxN + padded cl > pf.bodyLength
      · rw [if_pos hm, if_pos (by omega)]; rfl
      · rw [if_neg hm, if_neg (by omega)]; rfl

theorem authSpans_cases (packet : NtpPacketBuf) (length maxN tag efStart bufLen : Int) :
    authSpans packet length maxN tag efStart bufLen = .ok none ∨
      ∃ pf nl cl, Admitted packet length tag efStart pf nl cl := by
  unfold authSpans
  obtain ⟨o, ho⟩ := parseField_returns packet length efStart
  rw [ho]
  cases o with
  | none => exact .inl rfl
  | some pf =>
    simp only [ok_bind]
    by_cases h1 : pf.fieldType ≠ 0x0404 ∨ pf.bodyLength < 4
    · rw [if_pos h1]; exact .inl rfl
    rw [if_neg h1]
    obtain ⟨hat, -, -, h1140, -⟩ := parseField_some ho
    have := hat.end_le; have := hat.bodyOffset_eq; have := hat.bodyLength_eq
    have := hat.start_nonneg; have := hat.length_ge
    obtain ⟨nl, cl, hh⟩ := authHeader_returns packet (show pf.bodyOffset + 4 ≤ 1140 by omega)
    obtain ⟨⟨hn0, hn1⟩, hc0, hc1⟩ := authHeader_range hh
    rw [hh]
    simp only [ok_bind]
    rw [getPaddedLength_of_lt hn0 (by omega), getPaddedLength_of_lt hc0 (by omega)]
    simp only [ok_bind]
    by_cases h2 : padded nl + padded cl > pf.bodyLength
    · rw [if_pos h2]; exact .inl rfl
    rw [if_neg h2]
    by_cases h3 : nl < 1 ∨ cl < tag
    · rw [if_pos h3]; exact .inl rfl
    · refine .inr ⟨pf, nl, cl, ho, ?_, hh, ?_, ?_, ?_⟩
      · exact Decidable.not_not.1 fun h => h1 (.inl h)
      · omega
      · omega
      · omega

/-- An admitted field that also passes the last two checks. -/
structure Readable (packet : NtpPacketBuf) (length maxN tag efStart bufLen : Int) (pf : ParsedField)
    (nl cl : Int) : Prop extends Admitted packet length tag efStart pf nl cl where
  room : cl - tag ≤ bufLen
  min_le : 4 + min 16 maxN + padded cl ≤ pf.bodyLength

theorem Readable.bounds (h : Readable packet length maxN tag efStart bufLen pf nl cl) :
    48 ≤ efStart ∧ length ≤ 1140 ∧ efStart + pf.length ≤ length ∧
      (pf.bodyOffset : Int) = efStart + 4 ∧ pf.bodyLength = pf.length - 4 ∧ pf.length % 4 = 0 ∧
      efStart % 4 = 0 := by
  obtain ⟨hat, h48, h4, h1140, -⟩ := parseField_some h.parsed
  exact ⟨h48, h1140, hat.end_le, hat.bodyOffset_eq, hat.bodyLength_eq, hat.length_mod, h4⟩

theorem authSpans_some {a : AuthSpans}
    (h : authSpans packet length maxN tag efStart bufLen = .ok (some a)) :
    ∃ pf nl cl, Readable packet length maxN tag efStart bufLen pf nl cl ∧
      a = spansOf pf nl cl tag := by
  rcases authSpans_cases packet length maxN tag efStart bufLen with hn | ⟨pf, nl, cl, ha⟩
  · rw [hn] at h; cases h
  · rw [authSpans_admitted ha] at h
    split at h
    · cases h
    · split at h
      · cases h
      · rename_i hb
        cases h
        exact ⟨pf, nl, cl, ⟨ha, by omega, by omega⟩, rfl⟩

theorem authSpans_readable (hb : bufLen < 2 ^ 31)
    (h : Readable packet length maxN tag efStart bufLen pf nl cl) :
    authSpans packet length maxN tag efStart bufLen = .ok (some (spansOf pf nl cl tag)) := by
  have := h.room; have := h.min_le
  rw [authSpans_admitted h.toAdmitted, if_neg (by omega), if_neg (by omega)]

end

/-! ## Opening the field -/

/-- Both spans are inside the packet buffer. -/
def AuthSpans.InBuffer (a : AuthSpans) : Prop :=
  a.nonceOff + a.nonceLength ≤ 1140 ∧ a.ciphertextOff + a.ciphertextLength ≤ 1140

def AuthSpans.nonce (a : AuthSpans) (packet : NtpPacketBuf) : Bytes :=
  (packet.bytes.take (a.nonceOff + a.nonceLength)).drop a.nonceOff

def AuthSpans.ciphertext (a : AuthSpans) (packet : NtpPacketBuf) : Bytes :=
  (packet.bytes.take (a.ciphertextOff + a.ciphertextLength)).drop a.ciphertextOff

section
variable [Siv S] (packet : NtpPacketBuf) (siv : S) {efStart : Int} {n : Nat}

/-- The call of the AEAD, once its slices exist. -/
theorem openAuthEf_inBuffer {a : AuthSpans} (ha : a.InBuffer) (h0 : 0 ≤ efStart)
    (hs : efStart ≤ 1140) (hp : a.plaintextLength ≤ n) (out : Buf n) :
    ∃ (dst : Buf a.plaintextLength) (out' : Buf n), ∀ r,
      r = Siv.decrypt siv (a.nonce packet) (packet.bytes.take efStart.toNat)
        (a.ciphertext packet) dst →
      openAuthEf packet siv efStart a out =
          .ok (r.siv, out', if r.ok then some a.plaintextLength else none) ∧
        out'.bytes.take a.plaintextLength = r.out.bytes := by
  obtain ⟨hn, hc⟩ := ha
  obtain ⟨dst, hd⟩ := out.sub_of_le (show 0 + a.plaintextLength ≤ n by omega)
  obtain ⟨out', ho, -⟩ := out.copyAt_of_le 0 (Siv.decrypt siv (a.nonce packet)
    (packet.bytes.take efStart.toNat) (a.ciphertext packet) dst).out.bytes
    (by rw [Buf.length_bytes]; omega)
  refine ⟨dst, out', ?_⟩
  rintro r rfl
  constructor
  · unfold openAuthEf
    rw [slice_of_le (by omega) (by rw [packet.length_bytes]; omega),
      asUsize_of_nonneg h0 (by omega), slice_of_le (by omega) (by rw [packet.length_bytes]; omega),
      slice_of_le (by omega) (by rw [packet.length_bytes]; omega), hd]
    simp only [ok_bind, List.drop_zero]
    change (out.copyAt 0 (Siv.decrypt siv (a.nonce packet) (packet.bytes.take efStart.toNat)
      (a.ciphertext packet) dst).out.bytes >>= _) = _
    rw [ho]
    simp only [ok_bind]
    change (if ¬ (Siv.decrypt siv (a.nonce packet) (packet.bytes.take efStart.toNat)
      (a.ciphertext packet) dst).ok = true then _ else _) = _
    cases hr : (Siv.decrypt siv (a.nonce packet) (packet.bytes.take efStart.toNat)
      (a.ciphertext packet) dst).ok <;> rfl
  · simpa using Buf.copyAt_take_end ho

/-- The slices that do not exist are the only way it panics. -/
theorem openAuthEf_error (efStart : Int) {a : AuthSpans} (ha : ¬ a.InBuffer) (out : Buf n) :
    ∃ e, openAuthEf packet siv efStart a out = .error e := by
  rw [← not_returns_iff]
  rintro ⟨x, hx⟩
  unfold openAuthEf at hx
  obtain ⟨s1, h1, hx⟩ := bind_eq_ok.1 hx
  obtain ⟨s2, -, hx⟩ := bind_eq_ok.1 hx
  obtain ⟨s3, h3, -⟩ := bind_eq_ok.1 hx
  have g1 := (slice_eq_ok.1 h1).2.1
  have g3 := (slice_eq_ok.1 h3).2.1
  rw [packet.length_bytes] at g1 g3
  exact ha ⟨g1, g3⟩

variable {packet siv}

/-- The field at `efStart`, as `decrypt_auth_ef` with a buffer of `n` bytes sees it. -/
abbrev Field (packet : NtpPacketBuf) (info : NtpPacketInfo) (siv : S) (efStart : Int) (n : Nat)
    (pf : ParsedField) (nl cl : Int) : Prop :=
  Readable packet info.length (Siv.maxNonceLength siv) (Siv.tagLength siv) efStart
    (asI32 n) pf nl cl

theorem Readable.plaintext_le {maxN tag length : Int} {pf : ParsedField} {nl cl : Int}
    (h : Readable packet length maxN tag efStart (asI32 n) pf nl cl) :
    (spansOf pf nl cl tag).plaintextLength ≤ n := by
  have := h.room; have := asI32_le n
  simp only [spansOf]; omega

/-- Only a field whose padded lengths fill its body, at the very end of the buffer,
has a span outside the buffer: the header's four bytes are missing in the check. -/
theorem Readable.inBuffer_iff {maxN tag length bufLen : Int} {pf : ParsedField} {nl cl : Int}
    (h : Readable packet length maxN tag efStart bufLen pf nl cl) :
    (spansOf pf nl cl tag).InBuffer ↔
      ¬ (padded nl + padded cl = pf.bodyLength ∧ efStart + pf.length = 1140) := by
  obtain ⟨h48, h1140, hend, hoff, hbody, hmod, h4⟩ := h.bounds
  obtain ⟨-, hc0, -⟩ := h.range
  have hn1 := h.nonce_pos; have hfill := h.fill_le
  have hpn := padded_spec (x := nl) (by omega)
  have hpc := padded_spec hc0
  simp only [AuthSpans.InBuffer, spansOf]
  omega

/-- When `decrypt_auth_ef` panics: a ciphertext length so far above a negative tag
length that the difference is no `i32`, or spans past the end of the buffer. -/
theorem decryptAuthEf_returns_iff (packet : NtpPacketBuf) (info : NtpPacketInfo) (siv : S)
    (efStart : Int) (out : Buf n) : Rust.Returns (decryptAuthEf packet info siv efStart out) ↔
      ¬ (0 ≤ asI32 n ∧ ∃ pf nl cl,
        (Admitted packet info.length (Siv.tagLength siv) efStart pf nl cl ∧
          2 ^ 31 ≤ cl - Siv.tagLength siv) ∨
        (Field packet info siv efStart n pf nl cl ∧ padded nl + padded cl = pf.bodyLength ∧
          efStart + pf.length = 1140)) := by
  have hn31 := (asI32_range n).2
  unfold decryptAuthEf
  by_cases hn : asI32 n < 0
  · rw [if_pos hn]
    exact ⟨fun _ h => by omega, fun _ => returns_ok _⟩
  rw [if_neg hn]
  rcases authSpans_cases packet info.length (Siv.maxNonceLength siv) (Siv.tagLength siv) efStart
    (asI32 n) with hs | ⟨pf, nl, cl, ha⟩
  · -- nothing is admitted, nothing is read
    rw [hs]
    refine ⟨fun _ => ?_, fun _ => returns_ok _⟩
    rintro ⟨-, pf, nl, cl, ⟨ha, h31⟩ | ⟨hr, -⟩⟩
    · rw [authSpans_admitted ha, if_pos h31] at hs; cases hs
    · rw [authSpans_readable hn31 hr] at hs; cases hs
  by_cases h31 : 2 ^ 31 ≤ cl - Siv.tagLength siv
  · rw [authSpans_admitted ha, if_pos h31]
    exact ⟨fun h => absurd h (not_returns_error _),
      fun h => absurd ⟨by omega, pf, nl, cl, .inl ⟨ha, h31⟩⟩ h⟩
  by_cases hrd : asI32 n < cl - Siv.tagLength siv ∨
      pf.bodyLength < 4 + min 16 (Siv.maxNonceLength siv) + padded cl
  · rw [authSpans_admitted ha, if_neg h31, if_pos hrd]
    refine ⟨fun _ => ?_, fun _ => returns_ok _⟩
    rintro ⟨-, pf', nl', cl', ⟨ha', h31'⟩ | ⟨hr, -⟩⟩
    · obtain ⟨rfl, rfl, rfl⟩ := ha.unique ha'; omega
    · obtain ⟨rfl, rfl, rfl⟩ := ha.unique hr.toAdmitted
      have := hr.room; have := hr.min_le; omega
  have hr : Field packet info siv efStart n pf nl cl := ⟨ha, by omega, by omega⟩
  rw [authSpans_readable hn31 hr]
  simp only [ok_bind]
  have hin := hr.inBuffer_iff
  obtain ⟨h48, h1140, hend, -⟩ := hr.bounds
  have hlen := (parseField_some ha.parsed).1.length_ge
  by_cases hb : (spansOf pf nl cl (Siv.tagLength siv)).InBuffer
  · obtain ⟨dst, out', ho⟩ := openAuthEf_inBuffer packet siv hb (by omega : 0 ≤ efStart) (by omega)
      hr.plaintext_le out
    refine ⟨fun _ => ?_, fun _ => ⟨_, (ho _ rfl).1⟩⟩
    rintro ⟨-, pf', nl', cl', ⟨ha', h31'⟩ | ⟨hr', hfull⟩⟩
    · obtain ⟨rfl, rfl, rfl⟩ := ha.unique ha'; omega
    · obtain ⟨rfl, rfl, rfl⟩ := ha.unique hr'.toAdmitted
      exact hin.1 hb hfull
  · obtain ⟨e, he⟩ := openAuthEf_error packet siv efStart hb out
    rw [he]
    refine ⟨fun h => absurd h (not_returns_error _), fun h => absurd ?_ h⟩
    exact ⟨by omega, pf, nl, cl, .inr ⟨hr, Decidable.not_not.1 (fun g => hb (hin.2 g))⟩⟩

/-- An accepted authenticator: its spans are in the buffer and the AEAD accepted
them, with all bytes in front of the field as associated data. -/
theorem decryptAuthEf_some {info : NtpPacketInfo} {out out' : Buf n} {siv' : S} {k : Nat}
    (h : decryptAuthEf packet info siv efStart out = .ok (siv', out', some k)) :
    ∃ pf nl cl a, Field packet info siv efStart n pf nl cl ∧
      a = spansOf pf nl cl (Siv.tagLength siv) ∧ a.InBuffer ∧ k = a.plaintextLength ∧ k ≤ n ∧
      ∃ dst : Buf a.plaintextLength,
        (Siv.decrypt siv (a.nonce packet) (packet.bytes.take efStart.toNat) (a.ciphertext packet)
          dst).ok = true := by
  unfold decryptAuthEf at h
  split at h
  · cases h
  obtain ⟨o, ho, h⟩ := bind_eq_ok.1 h
  cases o with
  | none => cases h
  | some a =>
    obtain ⟨pf, nl, cl, hr, ha⟩ := authSpans_some ho
    obtain ⟨h48, h1140, hend, -⟩ := hr.bounds
    have hlen := (parseField_some hr.parsed).1.length_ge
    have hk : a.plaintextLength ≤ n := ha ▸ hr.plaintext_le
    by_cases hin : a.InBuffer
    · obtain ⟨dst, out1, hopen⟩ := openAuthEf_inBuffer packet siv hin
        (by omega : 0 ≤ efStart) (by omega) hk out
      obtain ⟨he, -⟩ := hopen _ rfl
      simp only [he] at h
      split at h
      · rename_i hok
        cases h
        exact ⟨pf, nl, cl, a, hr, ha, hin, rfl, hk, dst, hok⟩
      · cases h
    · obtain ⟨e, he⟩ := openAuthEf_error packet siv efStart hin out
      simp only [he] at h; cases h

theorem decryptAuthEf_siv {C : Type} [AesSiv C] {info : NtpPacketInfo} {siv siv' : SivInstance C}
    {out out' : Buf n} {o : Option Nat}
    (h : decryptAuthEf packet info siv efStart out = .ok (siv', out', o)) : siv' = siv := by
  unfold decryptAuthEf at h
  split at h
  · cases h; rfl
  obtain ⟨a, -, h⟩ := bind_eq_ok.1 h
  cases a with
  | none => cases h; rfl
  | some a =>
    simp only [openAuthEf] at h
    obtain ⟨nonce, -, h⟩ := bind_eq_ok.1 h
    obtain ⟨assoc, -, h⟩ := bind_eq_ok.1 h
    obtain ⟨ct, -, h⟩ := bind_eq_ok.1 h
    obtain ⟨dst, -, h⟩ := bind_eq_ok.1 h
    obtain ⟨out1, -, h⟩ := bind_eq_ok.1 h
    split at h
    · cases h; exact SivInstance.decrypt_siv ..
    · cases h; exact SivInstance.decrypt_siv ..

/-! ## A generated field decrypts -/

structure EndsWithAuth (packet : NtpPacketBuf) (length : Int) (pre nonce ct : Bytes) (extra : Nat) :
    Prop where
  bytes_eq : packet.bytes.take length.toNat = pre ++ encField 0x0404 (authBody nonce ct extra)
  length_le : length ≤ 1140
  pre_ge : 48 ≤ pre.length
  pre_mod : pre.length % 4 = 0
  extra_mod : extra % 4 = 0
  version_eq : lvmToVersion packet.lvm = 4
  nonce_pos : 1 ≤ nonce.length
  ct_ge : 16 ≤ ct.length

section
variable {length : Int} {pre nonce ct : Bytes} {extra : Nat}

theorem EndsWithAuth.length_eq (h : EndsWithAuth packet length pre nonce ct extra) :
    length = pre.length + 4 + (authBody nonce ct extra).length := by
  have h1 := congrArg List.length h.bytes_eq
  have h2 := h.length_le; have h3 := h.pre_ge
  simp only [List.length_take, packet.length_bytes, List.length_append, encField_length] at h1
  omega

/-- The bytes at offset `k` of the packet are those of the field at `k - pre.length`. -/
theorem EndsWithAuth.slice_eq (h : EndsWithAuth packet length pre nonce ct extra) {a m c : Bytes}
    (hs : pre ++ encField 0x0404 (authBody nonce ct extra) = a ++ m ++ c) :
    (packet.bytes.take (a.length + m.length)).drop a.length = m := by
  have h1 := congrArg List.length h.bytes_eq
  have h2 := congrArg List.length hs
  simp only [List.length_take, List.length_append] at h1 h2
  rw [← take_drop_take (show a.length + m.length ≤ length.toNat by omega), h.bytes_eq, hs,
    take_drop_append]

theorem EndsWithAuth.parseField (h : EndsWithAuth packet length pre nonce ct extra) :
    parseField packet length pre.length =
      .ok (some (fieldRec pre.length 0x0404 (authBody nonce ct extra).length)) := by
  have hlen := authBody_length nonce ct extra
  have hpn := padded_nat nonce.length
  have hpc := padded_nat ct.length
  have h1 := h.nonce_pos; have h2 := h.ct_ge; have h3 := h.extra_mod; have h4 := h.length_eq
  have h5 := h.pre_mod
  have hb : packet.bytes.take length.toNat =
      pre ++ encField 0x0404 (authBody nonce ct extra) ++ [] := by rw [h.bytes_eq, List.append_nil]
  refine parseField_encField hb h.length_le (by omega)
    h.pre_ge h.pre_mod h.version_eq (by omega) (by omega) (by omega) (by omega) ?_
  simp only [List.length_nil]; omega

theorem EndsWithAuth.authHeader (h : EndsWithAuth packet length pre nonce ct extra) :
    authHeader packet (fieldRec pre.length 0x0404 (authBody nonce ct extra).length) =
      .ok (nonce.length, ct.length) := by
  have hlen := authBody_length nonce ct extra
  have hpn := padded_nat nonce.length
  have hpc := padded_nat ct.length
  have h1 := h.length_eq; have h2 := h.length_le
  have hsplit : pre ++ encField 0x0404 (authBody nonce ct extra) =
      (pre ++ be16 0x0404 ++ be16 (4 + (authBody nonce ct extra).length)) ++
        ((be16 nonce.length ++ be16 ct.length) ++
          (pad4 nonce ++ pad4 ct ++ List.replicate extra 0)) := by
    simp only [encField, authBody, List.append_assoc]
  have hread : ∀ k, k < 4 → index packet.bytes (pre.length + 4 + k) =
      index (be16 nonce.length ++ be16 ct.length) k := by
    intro k hk
    rw [← index_take (show pre.length + 4 + k < length.toNat by omega), h.bytes_eq, hsplit,
      show pre.length + 4 + k =
        (pre ++ be16 0x0404 ++ be16 (4 + (authBody nonce ct extra).length)).length + k by
          simp only [List.length_append, be16_length], index_append_right]
    unfold index
    rw [List.getElem?_append_left (by simp only [List.length_append, be16_length]; omega)]
  unfold AuthEf.authHeader
  simp only [fieldRec]
  rw [show pre.length + 4 = pre.length + 4 + 0 by omega, hread 0 (by omega)]
  simp only [Nat.add_zero]
  rw [hread 1 (by omega), hread 2 (by omega), hread 3 (by omega)]
  simp only [be16, index, List.cons_append, List.nil_append, List.getElem?_cons_succ,
    List.getElem?_cons_zero, ok_bind]
  rw [fromBe16_be16 (by omega) (by omega), fromBe16_be16 (by omega) (by omega)]
  rfl

variable (siv) in
/-- **Round trip of the field.** A packet that ends with the field `generate_auth_ef`
writes is decrypted with the same nonce, associated data and ciphertext. -/
theorem decryptAuthEf_authBody {info : NtpPacketInfo} (cl : Nat)
    (h : EndsWithAuth packet info.length pre nonce ct extra)
    (htag : (cl : Int) = ct.length - Siv.tagLength siv) (ht0 : Siv.tagLength siv ≤ ct.length)
    (hmin : min 16 (Siv.maxNonceLength siv) ≤ padded nonce.length + extra) (hroom : cl ≤ n)
    (hn31 : n < 2 ^ 31) (out : Buf n) :
    ∃ (dst : Buf cl) (out' : Buf n), ∀ r, r = Siv.decrypt siv nonce pre ct dst →
      decryptAuthEf packet info siv pre.length out =
          .ok (r.siv, out', if r.ok then some cl else none) ∧
        out'.bytes.take cl = r.out.bytes := by
  have hlen := authBody_length nonce ct extra
  have hpn := padded_nat nonce.length
  have hpc := padded_nat ct.length
  have h1 := h.length_eq; have h2 := h.length_le; have h3 := h.nonce_pos; have h48 := h.pre_ge
  have hn : asI32 n = n := asI32_of_lt hn31
  obtain rfl : cl = ((ct.length : Int) - Siv.tagLength siv).toNat := by omega
  have hr : Field packet info siv pre.length n
      (fieldRec pre.length 0x0404 (authBody nonce ct extra).length) nonce.length ct.length :=
    ⟨⟨h.parseField, rfl, h.authHeader, by omega, ht0, by simp only [fieldRec]; omega⟩,
      by rw [hn, ← htag]; exact Int.ofNat_le.2 hroom, by simp only [fieldRec]; omega⟩
  generalize ha : spansOf (fieldRec pre.length 0x0404 (authBody nonce ct extra).length)
    nonce.length ct.length (Siv.tagLength siv) = a
  have hin : a.InBuffer := by
    rw [← ha, hr.inBuffer_iff]
    simp only [fieldRec]; omega
  have hnonce : a.nonce packet = nonce := by
    rw [← ha]
    have := h.slice_eq (a := pre ++ be16 0x0404 ++ be16 (4 + (authBody nonce ct extra).length) ++
      be16 nonce.length ++ be16 ct.length) (m := nonce)
      (c := List.replicate (padded nonce.length - nonce.length).toNat 0 ++ pad4 ct ++
        List.replicate extra 0) (by simp only [encField, authBody, pad4, List.append_assoc])
    simpa only [AuthSpans.nonce, spansOf, fieldRec, List.length_append, be16_length, Nat.add_assoc,
      Int.toNat_natCast, Nat.reduceAdd] using this
  have hct : a.ciphertext packet = ct := by
    rw [← ha]
    have := h.slice_eq (a := pre ++ be16 0x0404 ++ be16 (4 + (authBody nonce ct extra).length) ++
      be16 nonce.length ++ be16 ct.length ++ pad4 nonce) (m := ct)
      (c := List.replicate (padded ct.length - ct.length).toNat 0 ++ List.replicate extra 0)
      (by simp only [encField, authBody, pad4, List.append_assoc])
    have hpad : (pad4 nonce).length = (padded nonce.length).toNat := by
      have := pad4_length nonce; omega
    simpa only [AuthSpans.ciphertext, spansOf, fieldRec, List.length_append, be16_length,
      Nat.add_assoc, Int.toNat_natCast, Nat.reduceAdd, hpad] using this
  have hpre : packet.bytes.take (pre.length : Int).toNat = pre := by
    rw [Int.toNat_natCast, ← Nat.min_eq_left (show pre.length ≤ info.length.toNat by omega),
      ← List.take_take, h.bytes_eq, List.take_left]
  have hk : a.plaintextLength = ((ct.length : Int) - Siv.tagLength siv).toNat := by rw [← ha]; rfl
  obtain ⟨dst, out', ho⟩ := openAuthEf_inBuffer packet siv hin
    (show 0 ≤ (pre.length : Int) by omega) (by omega) (hk ▸ hroom) out
  rw [hnonce, hct, hpre] at ho
  rw [← hk]
  refine ⟨dst, out', fun r hr' => ?_⟩
  obtain ⟨e1, e2⟩ := ho r hr'
  refine ⟨?_, e2⟩
  unfold decryptAuthEf
  rw [if_neg (by rw [hn]; exact Int.not_lt.2 (Int.natCast_nonneg n)),
    authSpans_readable (asI32_range n).2 hr, ha]
  exact e1

end

end

end ChronyRs.L2.AuthEf

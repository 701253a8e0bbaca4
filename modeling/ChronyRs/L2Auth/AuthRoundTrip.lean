import ChronyRs.L2Auth.AuthEf

/-!
# The authenticator field, from `generate_auth_ef` to `decrypt_auth_ef`

Both sides derive the layout of the field on their own: the writer from the lengths of the nonce and
the plaintext and a minimum for the field, the reader from the two lengths in the field. The reader
wants at least one byte of nonce and room for the shortest nonce that needs no padding; the writer's
two padding rules see to that, except for an AEAD that takes no nonce at all.

* `generateAuthEf_true`, `generateAuthEf_false`: what a result says about the call.
* `auth_ef_round_trip`: an appended field is decrypted, and a failure appends nothing.
* `field_rejected`: with a maximum nonce length of 0 a field is appended that is never accepted, and
  none is decrypted into a buffer of 2^31 bytes, whose length is negative as an `i32`.
-/
namespace ChronyRs.L2.AuthEf

open L1.Ext

variable {S : Type} [Siv S]

/-- Decryption with `siv'` inverts encryption with `siv`, which succeeds only if the destination
holds the 16-byte tag and the ciphertext. -/
structure Inverts (siv siv' : S) : Prop where
  tag_eq : Siv.tagLength siv = 16
  tag_eq' : Siv.tagLength siv' = 16
  max_eq : Siv.maxNonceLength siv' = Siv.maxNonceLength siv
  sized : ∀ nonce assoc plaintext {n : Nat} (out : Buf n),
    (Siv.encrypt siv nonce assoc plaintext out).ok = true → n = 16 + plaintext.length
  inverse : ∀ nonce assoc plaintext {n : Nat} (out : Buf n) (dst : Buf plaintext.length),
    (Siv.encrypt siv nonce assoc plaintext out).ok = true →
    (Siv.decrypt siv' nonce assoc (Siv.encrypt siv nonce assoc plaintext out).out.bytes dst).ok =
      true ∧
    (Siv.decrypt siv' nonce assoc (Siv.encrypt siv nonce assoc plaintext out).out.bytes
      dst).out.bytes = plaintext

/-! ## What a result says -/

theorem generateAuthEf_false {packet packet' : NtpPacketBuf} {info info' : NtpPacketInfo}
    {siv siv' : S} {nonce plaintext : Bytes} {maxN minEf : Int}
    (h : generateAuthEf packet info siv nonce maxN plaintext minEf =
      .ok (packet', info', siv', false)) :
    info'.length = info.length ∧ info'.extFields = info.extFields := by
  unfold generateAuthEf at h
  split at h
  · cases h
    exact ⟨rfl, rfl⟩
  obtain ⟨a, -, h⟩ := bind_eq_ok.1 h
  obtain ⟨⟨p1, i1, off⟩, hadd, h⟩ := bind_eq_ok.1 h
  cases off with
  | none =>
    obtain ⟨rfl, -⟩ := addBlankField_none hadd
    cases h
    exact ⟨rfl, rfl⟩
  | some off =>
    obtain ⟨⟨p2, s2, ok⟩, -, h⟩ := bind_eq_ok.1 h
    cases ok with
    | true => cases h
    | false =>
      cases h
      refine ⟨rfl, ?_⟩
      have hext : i1.extFields = info.extFields + 1 := (addBlankField_bounds hadd).2.2
      show i1.extFields - 1 = info.extFields
      omega

theorem authLengths_ok {maxN maxSiv tag pl minEf : Int} {a : AuthLengths}
    (h : authLengths maxN maxSiv tag pl minEf = .ok a) :
    a.nonceLength = min maxN maxSiv ∧ a.ciphertextLength = tag + pl ∧ 0 ≤ a.additionalPadding ∧
      a.authLength = 4 + padded a.nonceLength + padded a.ciphertextLength +
        a.additionalPadding := by
  unfold authLengths at h
  simp only [bind_eq_ok] at h
  obtain ⟨cl, hcl, me, -, l1, h1, l2, h2, l3, h3, l4, h4, m1, -, m2, -, s1, -, s2, -, len,
      hlen, h⟩ := h
  obtain ⟨rfl, -, -⟩ := i32_eq_ok hcl
  obtain ⟨rfl, -, -⟩ := i32_eq_ok h1
  obtain ⟨rfl, -, -⟩ := i32_eq_ok h2
  obtain ⟨rfl, -, -⟩ := i32_eq_ok h3
  obtain ⟨rfl, -, -⟩ := i32_eq_ok h4
  obtain ⟨rfl, -, -⟩ := i32_eq_ok hlen
  cases h
  refine ⟨rfl, rfl, by dsimp only; omega, ?_⟩
  simp only [padded]
  omega

/-- The destination that the AEAD was given. -/
theorem writeAuthEf_true {packet packet' : NtpPacketBuf} {assocLength : Int} {siv siv' : S}
    {nonce plaintext : Bytes} {a : AuthLengths} {off : Nat}
    (h : writeAuthEf packet assocLength siv nonce plaintext a off = .ok (packet', siv', true)) :
    ∃ nonce assoc, ∃ out : Buf (asUsize a.ciphertextLength),
      (Siv.encrypt siv nonce assoc plaintext out).ok = true := by
  unfold writeAuthEf at h
  simp only [bind_eq_ok] at h
  obtain ⟨p1, -, p2, -, nc, -, p3, -, p4, -, left, -, assoc, -, ⟨p5, s5, ok⟩, hseal, h⟩ := h
  cases ok with
  | false => cases h
  | true =>
    unfold sealAt at hseal
    simp only [bind_eq_ok] at hseal
    obtain ⟨out, -, p6, -, hseal⟩ := hseal
    simp only [pure_eq, Except.ok.injEq, Prod.mk.injEq] at hseal
    exact ⟨nc, assoc, out, hseal.2.2⟩

theorem generateAuthEf_true {packet packet' : NtpPacketBuf} {info info' : NtpPacketInfo}
    {siv siv1 : S} {nonce plaintext : Bytes} {maxN minEf : Int}
    (h : generateAuthEf packet info siv nonce maxN plaintext minEf =
      .ok (packet', info', siv1, true)) :
    0 < maxN ∧ 0 ≤ asI32 plaintext.length ∧ ∃ a, authLengths maxN (Siv.maxNonceLength siv)
      (Siv.tagLength siv) (asI32 plaintext.length) minEf = .ok a ∧ 48 ≤ info.length ∧
        info.length + 4 + a.authLength ≤ 1140 ∧
      ∃ nonce assoc, ∃ out : Buf (asUsize a.ciphertextLength),
        (Siv.encrypt siv nonce assoc plaintext out).ok = true := by
  unfold generateAuthEf at h
  split at h
  · cases h
  rename_i hguard
  obtain ⟨a, ha, h⟩ := bind_eq_ok.1 h
  obtain ⟨⟨p1, i1, off⟩, hadd, h⟩ := bind_eq_ok.1 h
  cases off with
  | none => cases h
  | some off =>
    obtain ⟨⟨p2, s2, ok⟩, hwrite, h⟩ := bind_eq_ok.1 h
    cases ok with
    | false => cases h
    | true =>
      obtain ⟨h48, hend, -⟩ := addBlankField_bounds hadd
      exact ⟨by omega, by omega, a, ha, h48, hend, writeAuthEf_true hwrite⟩

/-! ## The round trip -/

/-- A field was appended: `nl` bytes of nonce, the ciphertext `ct` of the AEAD, `extra` bytes of
padding. -/
structure Appended (siv : S) (packet packet' : NtpPacketBuf) (info info' : NtpPacketInfo)
    (nonce plaintext : Bytes) (maxN minEf : Int) (nl extra len : Nat) (ct : Bytes) : Prop where
  nonce_eq : (nl : Int) = min maxN (Siv.maxNonceLength siv)
  nonce_le : nl ≤ nonce.length
  extra_eq : (extra : Int) = extraPadding (Siv.maxNonceLength siv) minEf nl (16 + plaintext.length)
  len_eq : (len : Int) = 4 + padded nl + padded (16 + plaintext.length : Nat) + extra
  fits : Fits info len
  info_eq : info' = grown info len
  bytes_eq : packet'.bytes.take info'.length.toNat =
    packet.bytes.take info.length.toNat ++ encField 0x0404 (authBody (nonce.take nl) ct extra)
  sealed : ∃ out : Buf (16 + plaintext.length),
    (Siv.encrypt siv (nonce.take nl) (packet.bytes.take info.length.toNat) plaintext out).ok =
      true ∧
    (Siv.encrypt siv (nonce.take nl) (packet.bytes.take info.length.toNat) plaintext
      out).out.bytes = ct

theorem generateAuthEf_appended {siv siv' siv1 : S} (hinv : Inverts siv siv')
    (hpos : 0 < Siv.maxNonceLength siv) {packet packet' : NtpPacketBuf} {info info' : NtpPacketInfo}
    {nonce plaintext : Bytes} {maxN minEf : Int} (hnonce : maxN ≤ nonce.length)
    (hlo : -1140 ≤ minEf) (hhi : minEf ≤ 1140)
    (h : generateAuthEf packet info siv nonce maxN plaintext minEf =
      .ok (packet', info', siv1, true)) :
    ∃ nl extra len ct, Appended siv packet packet' info info' nonce plaintext maxN minEf nl
      extra len ct := by
  obtain ⟨hmax, hpl0, a, ha, h48, hend, nc, assoc, dst0, hok0⟩ := generateAuthEf_true h
  obtain ⟨hnl, hcl, hadd, hauth⟩ := authLengths_ok ha
  -- the success of the AEAD bounds the plaintext, the room in the packet the other lengths
  have hsize := hinv.sized nc assoc plaintext dst0 hok0
  rw [hinv.tag_eq] at hcl
  have hpl31 := (asI32_range plaintext.length).2
  have hpn := padded_range (x := a.nonceLength)
  have hpc := padded_range (x := a.ciphertextLength)
  rw [asUsize_of_nonneg (by omega) (by omega)] at hsize
  have hnl' : ((a.nonceLength.toNat : Nat) : Int) = min maxN (Siv.maxNonceLength siv) := by omega
  have hcl' : ((16 + plaintext.length : Nat) : Int) = Siv.tagLength siv + plaintext.length := by
    rw [hinv.tag_eq]
    omega
  obtain ⟨hex0, hex1⟩ := extraPadding_range (Siv.maxNonceLength siv) (show minEf < 2 ^ 16 by omega)
    a.nonceLength.toNat (16 + plaintext.length)
  obtain ⟨extra, hex⟩ : ∃ extra : Nat, (extra : Int) =
      extraPadding (Siv.maxNonceLength siv) minEf a.nonceLength.toNat (16 + plaintext.length) :=
    ⟨_, Int.toNat_of_nonneg hex0⟩
  have hpn' := padded_nat a.nonceLength.toNat
  have hpc' := padded_nat (16 + plaintext.length)
  obtain ⟨len, hlen⟩ : ∃ len : Nat, (len : Int) =
      4 + padded a.nonceLength.toNat + padded (16 + plaintext.length : Nat) + extra :=
    ⟨_, Int.toNat_of_nonneg (by omega)⟩
  have hle : a.nonceLength.toNat ≤ nonce.length := by omega
  rcases generateAuthEf_spec packet info hmax hnl' hcl' hex hle (by omega) (by omega)
    (by omega) (by omega) (by omega) hlen with ⟨-, p1, h1, -⟩ | ⟨hfits, out0, p1, h1⟩
  · rw [h1] at h
    cases h
  obtain ⟨hrun, -, hbytes⟩ := h1 _ rfl
  rw [hrun] at h
  simp only [Except.ok.injEq, Prod.mk.injEq] at h
  obtain ⟨rfl, hinfo, -, hok⟩ := h
  rw [if_pos hok] at hinfo
  subst hinfo
  exact ⟨_, extra, len, _, hnl', hle, hex, hlen, hfits, rfl, hbytes hok, out0, hok, rfl⟩

section
variable {siv : S} {packet packet' : NtpPacketBuf} {info info' : NtpPacketInfo}
  {nonce plaintext ct : Bytes} {maxN minEf : Int} {nl extra len : Nat}
  (h : Appended siv packet packet' info info' nonce plaintext maxN minEf nl extra len ct)

include h

theorem Appended.body_length :
    (authBody (nonce.take nl) ct extra).length = len ∧ (nonce.take nl).length = nl ∧
      ct.length = 16 + plaintext.length := by
  have htake : (nonce.take nl).length = nl := by rw [List.length_take, Nat.min_eq_left h.nonce_le]
  obtain ⟨out, -, hct⟩ := h.sealed
  have hctl : ct.length = 16 + plaintext.length := by rw [← hct, Buf.length_bytes]
  have hbody := authBody_length (nonce.take nl) ct extra
  have hlen := h.len_eq
  rw [htake, hctl] at hbody
  exact ⟨by omega, htake, hctl⟩

theorem Appended.pre_length :
    ((packet.bytes.take info.length.toNat).length : Int) = info.length := by
  have h1 := h.fits.length_ge
  have h2 := h.fits.end_le
  rw [List.length_take, packet.length_bytes]
  omega

/-- The packet ends with the field, as the reader needs it. -/
theorem Appended.ends (hmax : 0 < maxN) (hpos : 0 < Siv.maxNonceLength siv)
    (hv : lvmToVersion packet.lvm = 4) :
    EndsWithAuth packet' info'.length (packet.bytes.take info.length.toNat)
      (nonce.take nl) ct extra := by
  obtain ⟨hbody, htake, hctl⟩ := h.body_length
  have hpre := h.pre_length
  have h48 := h.fits.length_ge; have hmod := h.fits.length_mod; have hend := h.fits.end_le
  have hnl := h.nonce_eq; have hlen := h.len_eq; have hlen4 := h.fits.body_mod
  have hpn := padded_nat nl
  have hpc := padded_nat (16 + plaintext.length)
  have hlvm : packet'.lvm = packet.lvm := by
    have hfirst : (packet'.bytes.take info'.length.toNat)[0]? = _ := congrArg (·[0]?) h.bytes_eq
    rw [List.getElem?_take_of_lt (by rw [h.info_eq]; simp only [grown]; omega),
      List.getElem?_append_left (by omega), List.getElem?_take_of_lt (by omega)] at hfirst
    unfold NtpPacketBuf.lvm
    rw [List.getD_eq_getElem?_getD, hfirst, List.getD_eq_getElem?_getD]
  refine ⟨h.bytes_eq, ?_, by omega, by omega, by omega, by rw [hlvm, hv], by omega, by omega⟩
  rw [h.info_eq]
  simp only [grown]
  omega

end

/-- **The authenticator field.** With an AEAD whose tag has 16 bytes and that takes a nonce, a field
that `generate_auth_ef` appends is the last one of the packet, aligned, at least as long as was
asked for, and `decrypt_auth_ef` returns its plaintext into every buffer that can hold it; a call
that fails leaves the length of the packet and the number of fields. -/
theorem auth_ef_round_trip {siv siv' : S} (hinv : Inverts siv siv')
    (hpos : 0 < Siv.maxNonceLength siv) {packet : NtpPacketBuf} (hv : lvmToVersion packet.lvm = 4)
    (info : NtpPacketInfo) (nonce plaintext : Bytes) (maxN minEf : Int)
    (hnonce : maxN ≤ nonce.length) (hlo : -1140 ≤ minEf) (hhi : minEf ≤ 1140) :
    (∀ packet' info' siv1,
      generateAuthEf packet info siv nonce maxN plaintext minEf = .ok (packet', info', siv1, true) →
      (∃ pf, parseField packet' info'.length info.length = .ok (some pf) ∧ pf.fieldType = 0x0404 ∧
        info.length + pf.length = info'.length ∧ info'.extFields = info.extFields + 1 ∧
          pf.length % 4 = 0 ∧
        minEf ≤ pf.length) ∧
      ∀ {n : Nat} (out : Buf n), plaintext.length ≤ n → n < 2 ^ 31 →
        ∃ siv2 out', decryptAuthEf packet' info' siv' info.length out =
          .ok (siv2, out', some plaintext.length) ∧ out'.bytes.take plaintext.length = plaintext) ∧
    ∀ packet' info' siv1,
      generateAuthEf packet info siv nonce maxN plaintext minEf =
        .ok (packet', info', siv1, false) →
      info'.length = info.length ∧ info'.extFields = info.extFields := by
  refine ⟨fun packet' info' siv1 h => ?_, fun packet' info' siv1 h => generateAuthEf_false h⟩
  have hmax := (generateAuthEf_true h).1
  obtain ⟨nl, extra, len, ct, happ⟩ := generateAuthEf_appended hinv hpos hnonce hlo hhi h
  have hends := happ.ends hmax hpos hv
  obtain ⟨hbody, htake, hctl⟩ := happ.body_length
  have hpre := happ.pre_length
  have hex := happ.extra_eq
  have hlen := happ.len_eq
  constructor
  · have hfield := hends.parseField
    rw [hpre, hbody] at hfield
    refine ⟨_, hfield, rfl, ?_, ?_, ?_, ?_⟩
    · rw [happ.info_eq]
      rfl
    · rw [happ.info_eq]
      rfl
    · have := happ.fits.body_mod
      simp only [fieldRec]
      omega
    · have hmin := padded_range (x := minEf)
      unfold extraPadding at hex
      simp only [fieldRec]
      omega
  · intro n out hroom hn31
    obtain ⟨sealedOut, hok, hct⟩ := happ.sealed
    obtain ⟨dst, out', hdec⟩ := decryptAuthEf_authBody siv' plaintext.length hends
      (by rw [hinv.tag_eq']; omega) (by rw [hinv.tag_eq']; omega)
      (by rw [hinv.max_eq, htake]; unfold extraPadding at hex; omega) hroom hn31 out
    obtain ⟨hret, hout⟩ := hdec _ rfl
    obtain ⟨hdok, hdout⟩ := hinv.inverse (nonce.take nl)
      (packet.bytes.take info.length.toNat) plaintext sealedOut
      dst hok
    rw [hct] at hdok hdout
    rw [hpre, if_pos hdok] at hret
    exact ⟨_, out', hret, hout.trans hdout⟩

/-! ## An AEAD without a nonce, and a large buffer -/

/-- An AEAD that does not encrypt: a tag of zeros before the plaintext. -/
structure PlainSiv where
  maxNonce : Nat
  maxNonce_lt : maxNonce < 2 ^ 31

instance : Siv PlainSiv where
  maxNonceLength s := s.maxNonce
  tagLength _ := 16
  encrypt s _ _ plaintext n out :=
    if h : n = 16 + plaintext.length then
      ⟨s, true, ⟨List.replicate 16 0 ++
        plaintext, by rw [List.length_append, List.length_replicate, h]⟩⟩
    else ⟨s, false, out⟩
  decrypt s _ _ ciphertext n out :=
    if h : ciphertext.length = 16 + n then ⟨s, true, ⟨ciphertext.drop 16, by simp [h]⟩⟩
      else ⟨s, false, out⟩
  maxNonceLength_range s := by have := s.maxNonce_lt; omega
  tagLength_range _ := by decide

theorem plainSiv_inverts (s : PlainSiv) : Inverts s s where
  tag_eq := rfl
  tag_eq' := rfl
  max_eq := rfl
  sized nonce assoc plaintext n out h := by
    simp only [Siv.encrypt] at h
    split at h
    · assumption
    · cases h
  inverse nonce assoc plaintext n out dst h := by
    have hlen : (List.replicate 16 (0 : UInt8) ++ plaintext).length = 16 + plaintext.length := by
      rw [List.length_append, List.length_replicate]
    by_cases hn : n = 16 + plaintext.length
    · simp only [Siv.encrypt, Siv.decrypt, dif_pos hn, dif_pos hlen, true_and]
      exact List.drop_left' List.length_replicate
    · simp only [Siv.encrypt, dif_neg hn] at h
      cases h

def barePacket : NtpPacketBuf := Buf.ofBytes 1140 [0x23]

def bareInfo : NtpPacketInfo := { length := 48, version := 4 }

theorem bare_appended : ∃ packet' info' siv1,
    generateAuthEf barePacket bareInfo (PlainSiv.mk 16 (by decide)) (List.replicate 16 5) 16
      [1, 2, 3] 100 = .ok (packet', info', siv1, true) ∧ info'.length = 148 := by
  obtain ⟨⟨packet', info', siv1, ok⟩, hgen, hok⟩ :=
    exists_of_check (p := fun r => r.2.2.2 && r.2.1.length == 148)
    (x := generateAuthEf barePacket bareInfo (PlainSiv.mk 16 (by decide)) (List.replicate 16 5) 16
      [1, 2, 3] 100)
    (by decide +kernel)
  obtain ⟨rfl, hlen⟩ : ok = true ∧ info'.length = 148 := by simpa using hok
  exact ⟨packet', info', siv1, hgen, hlen⟩

theorem auth_ef_round_trip_three : ∃ packet' info' siv1,
    generateAuthEf barePacket bareInfo (PlainSiv.mk 16 (by decide)) (List.replicate 16 5) 16
      [1, 2, 3] 100 = .ok (packet', info', siv1, true) ∧ info'.length = 148 ∧
    ∃ siv2 out', decryptAuthEf packet' info' (PlainSiv.mk 16 (by decide)) 48 (Buf.zero 3) =
      .ok (siv2, out', some 3) ∧ out'.bytes.take 3 = [1, 2, 3] := by
  obtain ⟨packet', info', siv1, hgen, hlen⟩ := bare_appended
  have h := (auth_ef_round_trip (plainSiv_inverts (PlainSiv.mk 16 (by decide))) (by decide)
    (show lvmToVersion barePacket.lvm = 4 by decide +kernel) bareInfo (List.replicate 16 5)
      [1, 2, 3] 16 100
    (by decide) (by decide) (by decide)).1 packet' info' siv1 hgen
  exact ⟨packet', info', siv1, hgen, hlen, h.2 (Buf.zero 3) (by decide) (by decide)⟩

/-- **Fields that are not decrypted.** With a maximum nonce length of 0 the field of a plaintext of
8 bytes is appended, and decryption rejects it; with one of 16, every field is rejected if the
buffer has 2^31 bytes. -/
theorem field_rejected :
    (∃ packet' info' siv1,
      generateAuthEf barePacket bareInfo (PlainSiv.mk 0 (by decide)) (List.replicate 16 5) 16
        (List.replicate 8 1) 0 = .ok (packet', info', siv1, true) ∧
      ∃ siv2 out', decryptAuthEf packet' info' (PlainSiv.mk 0 (by decide)) 48 (Buf.zero 8) =
        .ok (siv2, out', none)) ∧
    ∃ packet' info' siv1,
      generateAuthEf barePacket bareInfo (PlainSiv.mk 16 (by decide)) (List.replicate 16 5) 16
        [1, 2, 3] 100 = .ok (packet', info', siv1, true) ∧
      ∀ out : Buf (2 ^ 31), decryptAuthEf packet' info' (PlainSiv.mk 16 (by decide)) 48 out =
        .ok (PlainSiv.mk 16 (by decide), out, none) := by
  constructor
  · obtain ⟨⟨⟨packet', info', siv1, ok⟩, siv2, out', k⟩, hrun, hok⟩ := exists_of_check
      (p := fun r => r.1.2.2.2 && r.2.2.2.isNone) (x := do
        let r ← generateAuthEf barePacket bareInfo (PlainSiv.mk 0 (by decide))
            (List.replicate 16 5) 16
          (List.replicate 8 1) 0
        return (r, ← decryptAuthEf r.1 r.2.1 (PlainSiv.mk 0 (by decide)) 48 (Buf.zero 8)))
      (by decide +kernel)
    obtain ⟨r, hgen, hrun⟩ := bind_eq_ok.1 hrun
    obtain ⟨d, hdec, hrun⟩ := bind_eq_ok.1 hrun
    cases hrun
    obtain ⟨rfl, hk⟩ : ok = true ∧ k = none := by simpa using hok
    exact ⟨packet', info', siv1, hgen, siv2, out', hk ▸ hdec⟩
  · obtain ⟨packet', info', siv1, hgen, -⟩ := bare_appended
    refine ⟨packet', info', siv1, hgen, fun out => ?_⟩
    rw [decryptAuthEf, if_pos (by decide)]
    rfl

end ChronyRs.L2.AuthEf

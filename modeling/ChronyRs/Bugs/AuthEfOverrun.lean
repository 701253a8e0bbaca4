import ChronyRs.L2Auth.AuthEf

/-!
# `decrypt_auth_ef` reads past its field

The first length check compares the padded nonce and ciphertext lengths with the
length of the whole body, although the 4-byte header is part of that body. A
field whose two padded lengths fill the body exactly passes, and its ciphertext
(or, when that is empty, its nonce) ends up to four bytes behind the field. When
the field ends with the packet buffer the slice does not exist, and the server or
client that received the packet panics.

* `decryptAuthEf_safe_iff`: exactly when the call returns and reads only bytes of
  the field's body.
* `overrun_panics`: a request of 1140 bytes that panics the receiver.
-/
namespace ChronyRs.Bugs.AuthEfOverrun

open L1.Ext L2 L2.AuthEf

variable {S : Type} [Siv S]

/-- Byte `i` of the packet is read as nonce or as ciphertext. -/
def AuthSpans.Reads (a : AuthSpans) (i : Nat) : Prop :=
  (a.nonceOff ≤ i ∧ i < a.nonceOff + a.nonceLength) ∨
    (a.ciphertextOff ≤ i ∧ i < a.ciphertextOff + a.ciphertextLength)

/-- The call returns, and every byte it reads as nonce or ciphertext lies in the
body of the field at `efStart`. -/
def Safe (packet : NtpPacketBuf) (info : NtpPacketInfo) (siv : S) (efStart : Int) {n : Nat}
    (out : Buf n) : Prop :=
  Rust.Returns (decryptAuthEf packet info siv efStart out) ∧
    ∀ a pf i, authSpans packet info.length (Siv.maxNonceLength siv) (Siv.tagLength siv) efStart
        (asI32 n) = .ok (some a) →
      parseField packet info.length efStart = .ok (some pf) → AuthSpans.Reads a i →
      pf.bodyOffset ≤ i ∧ (i : Int) < pf.bodyOffset + pf.bodyLength

/-- The lengths in the header of the authenticator at `efStart` fill its body, or
(possible only for a negative tag length) their difference to the tag is no `i32`. -/
def Overfull (packet : NtpPacketBuf) (info : NtpPacketInfo) (siv : S) (efStart : Int) (n : Nat) :
    Prop :=
  ∃ pf nl cl,
    (Field packet info siv efStart n pf nl cl ∧ padded nl + padded cl = pf.bodyLength) ∨
    (0 ≤ asI32 n ∧ Admitted packet info.length (Siv.tagLength siv) efStart pf nl cl ∧
      2 ^ 31 ≤ cl - Siv.tagLength siv)

/-- The reads of a field stay in its body unless its lengths fill it. -/
theorem reads_inside_iff {packet : NtpPacketBuf} {length maxN tag efStart bufLen : Int}
    {pf : ParsedField} {nl cl : Int} (h : Readable packet length maxN tag efStart bufLen pf nl cl) :
    (∀ i, AuthSpans.Reads (spansOf pf nl cl tag) i →
      pf.bodyOffset ≤ i ∧ (i : Int) < pf.bodyOffset + pf.bodyLength) ↔
    padded nl + padded cl ≠ pf.bodyLength := by
  obtain ⟨h48, h1140, hend, hoff, hbody, hmod, h4⟩ := h.bounds
  obtain ⟨-, hc0, -⟩ := h.range
  have hn1 := h.nonce_pos; have hfill := h.fill_le
  have hpn := padded_spec (x := nl) (by omega)
  have hpc := padded_spec hc0
  simp only [AuthSpans.Reads, spansOf]
  constructor
  · intro hin hfull
    -- the last ciphertext byte, or the last nonce byte if there is no ciphertext
    by_cases hc : cl = 0
    · have := hin (pf.bodyOffset + 4 + nl.toNat - 1) (.inl (by omega))
      omega
    · have := hin (pf.bodyOffset + 4 + (padded nl).toNat + cl.toNat - 1) (.inr (by omega))
      omega
  · intro hne i hi
    omega

/-- **The exact condition.** `decrypt_auth_ef` returns and reads only the body of the
field, on every packet, length, offset, AEAD and output buffer, unless the field is
overfull. -/
theorem decryptAuthEf_safe_iff (packet : NtpPacketBuf) (info : NtpPacketInfo) (siv : S)
    (efStart : Int) {n : Nat} (out : Buf n) :
    Safe packet info siv efStart out ↔ ¬ Overfull packet info siv efStart n := by
  have hn31 := (asI32_range n).2
  unfold Safe Overfull
  rw [decryptAuthEf_returns_iff]
  constructor
  · rintro ⟨hret, hin⟩ ⟨pf, nl, cl, ⟨hr, hfull⟩ | ⟨h0, ha, h31⟩⟩
    · exact (reads_inside_iff hr).1 (fun i => hin _ _ i
        (authSpans_readable hn31 hr) hr.parsed) hfull
    · exact hret ⟨h0, pf, nl, cl, .inl ⟨ha, h31⟩⟩
  · intro hno
    constructor
    · rintro ⟨h0, pf, nl, cl, ⟨ha, h31⟩ | ⟨hr, hfull, -⟩⟩
      · exact hno ⟨pf, nl, cl, .inr ⟨h0, ha, h31⟩⟩
      · exact hno ⟨pf, nl, cl, .inl ⟨hr, hfull⟩⟩
    · intro a pf i hs hp hi
      obtain ⟨pf', nl, cl, hr, rfl⟩ := authSpans_some hs
      have h1 := hr.parsed
      rw [hp] at h1; cases h1
      exact (reads_inside_iff hr).2 (fun hfull => hno ⟨pf, nl, cl, .inl ⟨hr, hfull⟩⟩) i hi

/-- An NTPv4 request filled by one authenticator field: body 1088, nonce length 20,
ciphertext length 1068. -/
def overfullPacket : NtpPacketBuf :=
  Buf.ofBytes 1140
    ([0x23] ++ List.replicate 47 0 ++ be16 0x0404 ++ be16 1092 ++ be16 20 ++ be16 1068)

/-- The field is accepted by `parse_field`, passes both length checks, and the slice
of its ciphertext ends at byte 1144 of 1140. -/
theorem overrun_panics :
    ¬ Rust.Returns (decryptAuthEf overfullPacket { length := 1140 }
      (SivInstance.unkeyed : SivInstance NullCipher) 48 (Buf.zero 1092)) := by
  rw [decryptAuthEf_returns_iff, not_not]
  refine ⟨by decide, fieldRec 48 0x0404 1088, 20, 1068,
    .inr ⟨⟨⟨?_, rfl, ?_, ?_, ?_, ?_⟩, ?_, ?_⟩, ?_, ?_⟩⟩
  all_goals decide +kernel

end ChronyRs.Bugs.AuthEfOverrun

import ChronyRs.L3Nts.Acceptance

/-!
# A refused response leaves no trace (`nts_ntp_client.rs`)

`check_response_auth` refuses a response at a dozen places, and only the last of them comes after it
has started to store cookies. It walks over the decrypted fields twice, `parse_encrypted_efs` to see
that they parse and `extract_cookies` to store them; since the second walk parses the same bytes it
never stops in the middle, and it refuses only a payload without an acceptable cookie, of which it
has stored none.

* `extractCookies_refused`: cookies are stored by an accepted response or not at all.
* `refused_response`: what a refused response leaves as it was, and when it sets `nak_response`.
-/
namespace ChronyRs.L3.Nts

open L1.Ext L2 L2.AuthEf

namespace NtsClient

variable {F C H : Type} [F64 F] [AesSiv C] [NtsHost H F]

/-- The records that the first walk passes tile the plaintext. -/
theorem parseEncryptedEfs_path {plaintext : Bytes} {length : Int}
    (h : parseEncryptedEfs plaintext length = .ok true) :
    ∃ l b, (singleFields plaintext length).Path 0 l b ∧ length ≤ b := by
  unfold parseEncryptedEfs at h
  obtain ⟨f, hrun, h⟩ := bind_eq_ok.1 h
  cases f with
  | ret _ => cases h
  | next _ =>
    obtain ⟨l, b, hp, hend, -⟩ := (Walker.run_next_iff _ _ (singleFields_progress plaintext length)
      (by show (length - 0).toNat < _; omega)).1 hrun
    exact ⟨l, b, hp, hend⟩

omit [F64 F] [AesSiv C] [NtsHost H F] in
/-- The second walk goes on at every field; one that it does not count it does not store. -/
theorem extractField_count {plaintext : Bytes} {s : NtsClient F C H × Nat} {p : Int}
    {pf : ParsedField} {f : Flow (NtsClient F C H × Nat) (NtsClient F C H)}
    (h : extractField plaintext s p pf = .ok f) :
    ∃ s', f = .next s' ∧ (s' = s ∨ s.2 < s'.2) := by
  rcases extractField_cases h with rfl | rfl | ⟨_, _, _, _, rfl⟩
  · exact ⟨_, rfl, .inl rfl⟩
  · exact ⟨_, rfl, .inr (Nat.lt_succ_self _)⟩
  · exact ⟨_, rfl, .inr (Nat.lt_succ_self _)⟩

omit [F64 F] [AesSiv C] [NtsHost H F] in
/-- **No part of the cookies is stored**: on a plaintext that the first walk passed, the second one
fails only with the association unchanged. -/
theorem extractCookies_refused {c c' : NtsClient F C H} {plaintext : Bytes} {length : Int}
    (hparse : parseEncryptedEfs plaintext length = .ok true)
    (h : c.extractCookies plaintext length = .ok (c', false)) : c' = c := by
  obtain ⟨l, b, hpath, hend⟩ := parseEncryptedEfs_path hparse
  unfold extractCookies at h
  obtain ⟨f, hrun, h⟩ := bind_eq_ok.1 h
  obtain ⟨⟨c1, acceptable⟩, rfl⟩ := Walker.run_tiled (singleFields_progress plaintext length)
    (by show (length - 0).toNat < _; omega) hpath hend (fun s p r x hx => by
      obtain ⟨s', hs', -⟩ := extractField_count hx
      cases hs') hrun
  have hkeep := Walker.run_inv (fun s : NtsClient F C H × Nat => s = (c, 0) ∨ 0 < s.2)
    (fun _ => True) (fun _ _ => trivial) (fun s p r s' hs hb => by
      obtain ⟨s1, he, hcount⟩ := extractField_count hb
      cases he
      rcases hcount with rfl | hcount
      · exact hs
      · exact .inr (by omega))
    (fun _ _ _ _ _ _ => trivial) _ (.inl rfl) hrun
  rcases hkeep with ⟨s, he, hs⟩ | ⟨x, he, -⟩
  · cases he
    dsimp only at h
    rcases hs with hs | hs
    · cases hs
      cases h
      rfl
    · simp only [hs, decide_true] at h
      cases h
  · cases he

/-- The packet has a unique identifier field with this body among the fields from the header on. -/
def HasUniqId (packet : NtpPacketBuf) (info : NtpPacketInfo) (uniqId : Bytes) : Prop :=
  ∃ l b, (fields packet info.length).Path 48 l b ∧
    ∃ x ∈ l, x.2.fieldType = 0x0104 ∧ fieldBody packet x.2 = uniqId

/-- What a refused response leaves as it was: the pool, the flag and the schedule of key
exchanges. -/
structure Undisturbed (c c' : NtsClient F C H) : Prop where
  cookies_eq : c'.cookies = c.cookies
  numCookies_eq : c'.numCookies = c.numCookies
  cookieIndex_eq : c'.cookieIndex = c.cookieIndex
  okResponse_eq : c'.okResponse = c.okResponse
  nkeAttempts_eq : c'.nkeAttempts = c.nkeAttempts
  nextNkeAttempt_eq : c'.nextNkeAttempt = c.nextNkeAttempt

omit [NtsHost H F] in
/-- **Refused responses.** Whatever the state of the client and whatever the packet, if
`check_response_auth` returns false then the pool, `ok_response` and the schedule of key exchanges
are unchanged, and `nak_response` changes only by a packet that carries the unique identifier of the
outstanding request. -/
theorem refused_response {c c' : NtsClient F C H} {packet : NtpPacketBuf} {info : NtpPacketInfo}
    (h : c.checkResponseAuth packet info = .ok (c', false)) :
    Undisturbed c c' ∧ (c'.nakResponse ≠ c.nakResponse →
      c.okResponse = false ∧ HasUniqId packet info c.uniqId.bytes) := by
  cases checkResponseAuth_answered h with
  | ignored => exact ⟨⟨rfl, rfl, rfl, rfl, rfl, rfl⟩, fun hne => absurd rfl hne⟩
  | rejected => exact ⟨⟨rfl, rfl, rfl, rfl, rfl, rfl⟩, fun hne => absurd rfl hne⟩
  | nak hawait hscan huniq =>
    obtain ⟨l, b, hp, hseen⟩ := scanResponse_next hscan
    obtain ⟨x, hx, ht⟩ := hseen.uniqId_iff.1 huniq
    exact ⟨⟨rfl, rfl, rfl, rfl, rfl, rfl⟩,
      fun _ => ⟨hawait.1, l, b, hp, x, hx, ht, hseen.uniqId_eq x hx ht⟩⟩
  | barren _ hscan hauth hextract =>
    obtain rfl := extractCookies_refused ((scanResponse_plaintext hscan).2 hauth) hextract
    exact ⟨⟨rfl, rfl, rfl, rfl, rfl, rfl⟩, fun hne => absurd rfl hne⟩

end NtsClient

/-- An authentic response whose payload is a placeholder and no cookie. -/
def barrenResponse : NtpPacketBuf :=
  Buf.ofBytes 1140 (0x24 :: List.replicate 47 0 ++ [1, 4, 0, 36] ++ List.replicate 32 0 ++
    [4, 4, 0, 56, 0, 16, 0, 32] ++ List.replicate 32 0 ++ [3, 4, 0, 16])

theorem refused_response_barren : ∃ c',
    awaiting.checkResponseAuth barrenResponse { length := 140, mode := 4, extFields := 2 } =
      .ok (c', false) ∧ awaiting.Undisturbed c' := by
  obtain ⟨c', h⟩ := exists_of_result (b := false)
    (x := awaiting.checkResponseAuth barrenResponse { length := 140, mode := 4, extFields := 2 })
    (by decide +kernel)
  exact ⟨c', h, (NtsClient.refused_response h).1⟩

end ChronyRs.L3.Nts

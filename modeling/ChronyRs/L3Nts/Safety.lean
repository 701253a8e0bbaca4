import ChronyRs.L3Nts.Acceptance
import ChronyRs.L3Nts.Pool

/-!
# Which responses panic the client

`check_response_auth` walks over a response that fits the packet buffer; every slice it
takes is inside a parsed field, except those of `decrypt_auth_ef`, which forgets the four
bytes of the authenticator's header. So the only response that panics a client waiting
for one ends with the buffer and has an authenticator whose lengths fill its body
(`Overfull`), reached before anything makes the walk stop.

* `scanResponse_returns_iff`: exactly when the walk returns.
* `checkResponseAuth_returns_iff`: exactly when the whole check does.
-/
namespace ChronyRs.L3.Nts

open L1.Ext L1.Parse L2 L2.AuthEf

/-- A walk over decrypted fields returns if its body does. -/
theorem singleFields_returns {σ ρ : Type} {bad : σ → ρ}
    {body : σ → Int → ParsedField → Rust (Flow σ ρ)} {s : σ} {plaintext : Bytes} {length : Int}
    (hl : length ≤ plaintext.length)
    (hbody : ∀ l s' b pf, Walker.steps body s l = .ok (.next s') →
      parseSingleField plaintext length b = .ok (some pf) → Rust.Returns (body s' b pf)) :
    Rust.Returns ((singleFields plaintext length).run bad body (length.toNat + 1) 0 s) := by
  by_contra hno
  obtain ⟨e, he⟩ := not_returns_iff.1 hno
  obtain ⟨l, b, s', -, -, hs, hp | ⟨pf, hp, hb⟩⟩ := (Walker.run_error_iff _ _
    (singleFields_progress plaintext length) (show (length - 0).toNat <
      length.toNat + 1 by omega)).1 he
  · obtain ⟨o, ho⟩ := parseSingleField_returns b hl
    rw [show (singleFields plaintext length).parse b = _ from ho] at hp
    cases hp
  · obtain ⟨x, hx⟩ := hbody l s' b pf hs hp
    rw [hx] at hb
    cases hb

theorem parseEncryptedEfs_returns (plaintext : Bytes) (length : Int)
    (hl : length ≤ plaintext.length) :
    Rust.Returns (NtsClient.parseEncryptedEfs plaintext length) := by
  unfold NtsClient.parseEncryptedEfs
  refine returns_bind (singleFields_returns hl fun _ _ _ _ _ _ => returns_ok _) fun f _ => ?_
  cases f <;> exact returns_ok _

namespace NtsClient

variable {F C H : Type}

variable {p : Int} {pf : ParsedField} {packet : NtpPacketBuf} {info : NtpPacketInfo}
  {uniqId : Bytes}

theorem extractField_returns {plaintext : Bytes} {length : Int} (hl : length ≤ plaintext.length)
    (hlt : length < 2 ^ 31) {s : NtsClient F C H × Nat} (hi : s.1.PoolInv)
    (hp : parseSingleField plaintext length p = .ok (some pf)) :
    Rust.Returns (extractField plaintext s p pf) := by
  have hat := parseSingleField_some hp
  have h1 := hat.start_nonneg; have h2 := hat.length_ge; have h3 := hat.end_le
  have h4 := hat.bodyOffset_eq; have h5 := hat.bodyLength_eq
  obtain ⟨c, acceptable⟩ := s
  unfold extractField
  dsimp only
  split
  · exact returns_ok _
  split
  · exact returns_ok _
  split
  · exact returns_ok _
  rename_i hfull
  have hend : pf.bodyOffset + asUsize pf.bodyLength ≤ plaintext.length := by
    rw [asUsize_of_nonneg (by omega) (by omega)]
    omega
  rw [slice_of_le (by omega) hend, ok_bind]
  obtain ⟨cookies, g, hstore, -⟩ := storeCookie_end hi (not_le.1 hfull)
    ⟨(plaintext.take (pf.bodyOffset + asUsize pf.bodyLength)).drop pf.bodyOffset⟩
  rw [hstore]
  exact returns_ok _

theorem extractCookies_returns {plaintext : Bytes} {length : Int} (hl : length ≤ plaintext.length)
    (hlt : length < 2 ^ 31) {c : NtsClient F C H} (hi : c.PoolInv) :
    Rust.Returns (c.extractCookies plaintext length) := by
  unfold extractCookies
  refine returns_bind (singleFields_returns hl fun l s b pf hs hp => ?_) fun f _ => ?_
  · refine extractField_returns hl hlt (Walker.steps_inv (fun s => s.1.PoolInv) ?_ hi hs) hp
    intro s p r s' _ hs hb
    rcases extractField_cases hb with he | he | ⟨_, _, hlt, hstore, he⟩
    · cases he; exact hs
    · cases he; exact hs
    · cases he; exact (storeCookie_pool hs hlt hstore).1
  · rcases f with ⟨c1, k⟩ | c1 <;> exact returns_ok _

/-! ## The walk over a response -/

variable [AesSiv C]

/-- The walk reaches an authenticator that ends with the packet buffer and whose padded
lengths fill its body: no authenticator comes before it, and every unique identifier
before it is the client's. -/
def Overfull (packet : NtpPacketBuf) (length : Int) (uniqId : Bytes) : Prop :=
  ∃ l b pf nl cl, (fields packet length).Path 48 l b ∧ (∀ x ∈ l, x.2.fieldType ≠ 0x0404) ∧
    (∀ x ∈ l, x.2.fieldType = 0x0104 → fieldBody packet x.2 = uniqId) ∧
    Readable packet length (2 ^ 31 - 1) 16 b 1092 pf nl cl ∧
    padded nl + padded cl = pf.bodyLength ∧ b + pf.length = 1140

/-- For the one AEAD of the build, the condition of `decrypt_auth_ef`. -/
theorem decryptAuthEf_siv_returns_iff (packet : NtpPacketBuf) (info : NtpPacketInfo)
    (siv : SivInstance C) (start : Int) (out : Buf 1092) :
    Rust.Returns (decryptAuthEf packet info siv start out) ↔
      ¬ ∃ pf nl cl, Readable packet info.length (2 ^ 31 - 1) 16 start 1092 pf nl cl ∧
        padded nl + padded cl = pf.bodyLength ∧ start + pf.length = 1140 := by
  rw [decryptAuthEf_returns_iff, SivInstance.siv_tagLength]
  unfold AuthEf.Field
  rw [SivInstance.siv_tagLength, SivInstance.siv_maxNonceLength, asI32_of_lt (by decide)]
  constructor
  · rintro h ⟨pf, nl, cl, hr⟩
    exact h ⟨by decide, pf, nl, cl, .inr hr⟩
  · rintro h ⟨-, pf, nl, cl, ⟨ha, h31⟩ | hr⟩
    · have := ha.range
      omega
    · exact h ⟨pf, nl, cl, hr⟩

/-- The only field that panics is an authenticator that ends the packet. -/
theorem scanResponseField_error {s : RespScan C} {e : Panic}
    (hp : parseField packet info.length p = .ok (some pf))
    (h : scanResponseField packet info uniqId s p pf = .error e) :
    pf.fieldType = 0x0404 ∧ p + pf.length = info.length ∧
      ¬ Rust.Returns (decryptAuthEf packet info s.siv p s.plaintext) := by
  unfold scanResponseField at h
  split at h
  · -- a unique identifier: its body is inside the buffer
    split at h
    · cases h
    rw [slice_of_le (by omega) (by rw [packet.length_bytes]; exact (body_le hp).1), ok_bind] at h
    split at h <;> cases h
  split at h
  · rename_i ht
    split at h
    · cases h
    rename_i hend
    refine ⟨ht, Decidable.not_not.1 hend, ?_⟩
    rintro ⟨⟨siv, out, o⟩, hd⟩
    rw [hd, ok_bind] at h
    cases o with
    | none => cases h
    | some n =>
      -- the plaintext fits its buffer, so its fields are read inside it
      obtain ⟨-, -, -, -, -, -, -, -, hn, -⟩ := decryptAuthEf_some hd
      obtain ⟨b, hb⟩ := parseEncryptedEfs_returns out.bytes (asI32 n)
        (by rw [asI32_of_lt (by omega), out.length_bytes]; omega)
      dsimp only at h
      rw [hb, ok_bind] at h
      cases b <;> cases h
  · cases h

/-- A field that neither is an authenticator nor carries a foreign identifier is
passed over. -/
theorem scanResponseField_pass (s : RespScan C)
    (hp : parseField packet info.length p = .ok (some pf)) (hna : pf.fieldType ≠ 0x0404)
    (hid : pf.fieldType = 0x0104 → fieldBody packet pf = uniqId) :
    ∃ s', scanResponseField packet info uniqId s p pf = .ok (.next s') := by
  obtain ⟨hle, hbl, -⟩ := body_le hp
  unfold scanResponseField
  split
  · rename_i ht
    have hbody := hid ht
    have hlen : asUsize pf.bodyLength = uniqId.length := by
      rw [← hbody, fieldBody, List.length_drop, List.length_take, packet.length_bytes]
      omega
    rw [if_neg (by omega), slice_of_le (by omega) (by rw [packet.length_bytes]; exact hle), ok_bind,
      if_neg (by rw [← fieldBody, hbody]; simp)]
    exact ⟨_, rfl⟩
  · exact ⟨s, rfl⟩

theorem scanResponse_pass {a b : Int} {l : List (Int × ParsedField)}
    (h : (fields packet info.length).Path a l b) (hna : ∀ x ∈ l, x.2.fieldType ≠ 0x0404)
    (hid : ∀ x ∈ l, x.2.fieldType = 0x0104 → fieldBody packet x.2 = uniqId) (s : RespScan C) :
    ∃ s', Walker.steps (scanResponseField packet info uniqId) s l = .ok (.next s') := by
  induction h generalizing s with
  | nil => exact ⟨s, rfl⟩
  | cons _ hp _ ih =>
    obtain ⟨s1, h1⟩ := scanResponseField_pass s hp (hna _ List.mem_cons_self)
      (hid _ List.mem_cons_self)
    obtain ⟨s', h2⟩ := ih (fun x hx => hna x (List.mem_cons_of_mem _ hx))
      (fun x hx => hid x (List.mem_cons_of_mem _ hx)) s1
    exact ⟨s', by rw [Walker.steps_cons_next _ h1, h2]⟩

theorem scanResponse_returns_iff (packet : NtpPacketBuf) (info : NtpPacketInfo) (uniqId : Bytes)
    (siv : SivInstance C) : Rust.Returns (scanResponse packet info uniqId siv) ↔
      ¬ Overfull packet info.length uniqId := by
  have hrun {e : Panic} := Walker.run_error_iff (fun s : RespScan C => s)
    (scanResponseField packet info uniqId) (fields_progress packet info.length)
    (show (info.length - 48).toNat < info.length.toNat + 1 by omega)
    (s := ⟨false, false, Buf.zero 1092, 0, siv⟩) (e := e)
  rw [← not_iff_not, not_not, not_returns_iff]
  constructor
  · rintro ⟨e, he⟩
    obtain ⟨l, b, s, hpath, hlt, hs, hp | ⟨pf, hp, hb⟩⟩ := hrun.1 he
    · obtain ⟨o, ho⟩ := parseField_returns packet info.length b
      rw [show (fields packet info.length).parse b = _ from ho] at hp
      cases hp
    · obtain ⟨-, -, hno⟩ := scanResponseField_error hp hb
      rw [decryptAuthEf_siv_returns_iff, not_not] at hno
      obtain ⟨pf', nl, cl, hr, hfull⟩ := hno
      have hseen := Walker.steps_induct (RespSeen packet info uniqId siv)
        (fun _ _ _ _ _ => scanResponseField_next) (RespSeen.init packet info uniqId siv) hs
      refine ⟨l, b, pf', nl, cl, hpath, fun x hx ht => ?_, hseen.uniqId_eq, hr, hfull⟩
      -- an authenticator ends the packet, so nothing comes behind it
      have hend := (hseen.auth_ends x hx ht).1
      have hle := (hpath.mem (fields_progress packet info.length) hx).2.2.2
      change x.1 + x.2.length ≤ b at hle
      change b < info.length at hlt
      omega
  · rintro ⟨l, b, pf, nl, cl, hpath, hna, hid, hr, hfull, hend⟩
    obtain ⟨s', hs⟩ := scanResponse_pass hpath hna hid ⟨false, false, Buf.zero 1092, 0, siv⟩
    have hno : ¬ Rust.Returns (decryptAuthEf packet info s'.siv b s'.plaintext) := by
      rw [decryptAuthEf_siv_returns_iff, not_not]
      exact ⟨pf, nl, cl, hr, hfull, hend⟩
    obtain ⟨e, he⟩ := not_returns_iff.1 hno
    obtain ⟨h48, h1140, hle, -⟩ := hr.bounds
    have hlen := (parseField_some hr.parsed).2.2.2.2.2.2.1
    refine ⟨e, hrun.2 ⟨l, b, s', hpath, ?_, hs, .inr ⟨pf, hr.parsed, ?_⟩⟩⟩
    · change b < info.length
      omega
    · unfold scanResponseField
      rw [if_neg (by rw [hr.type_eq]; decide), if_pos hr.type_eq, if_neg (by omega), he]
      rfl

/-! ## The whole check -/

theorem isNtsNak_returns (packet : NtpPacketBuf) : Rust.Returns (isNtsNak packet) := by
  unfold isNtsNak
  refine returns_bind (index_returns (by rw [packet.length_bytes]; decide)) fun a _ => ?_
  exact returns_bind (slice_returns (by decide) (by rw [packet.length_bytes]; decide))
    fun b _ => returns_ok _

variable [F64 F]

/-- A request is outstanding and the response gets as far as the session key. -/
def Awaits (c : NtsClient F C H) (info : NtpPacketInfo) : Prop :=
  info.extFields ≠ 0 ∧ info.mode = 4 ∧ c.okResponse = false ∧ c.authReady = false ∧ c.siv.isSome

/-- **When `check_response_auth` panics.** A request is outstanding, and the session key
has a length that only looks like 32 as an `i32`, or the response is overfull. -/
theorem checkResponseAuth_returns_iff {c : NtsClient F C H} (hi : c.PoolInv) (packet : NtpPacketBuf)
    (info : NtpPacketInfo) : Rust.Returns (c.checkResponseAuth packet info) ↔
      ¬ (c.Awaits info ∧ ((c.context.s2c.length ≠ 32 ∧ asI32 c.context.s2c.length = 32) ∨
        (c.context.s2c.length = 32 ∧ Overfull packet info.length c.uniqId.bytes))) := by
  unfold checkResponseAuth Awaits
  by_cases h1 : info.extFields = 0 ∨ info.mode ≠ 4
  · rw [if_pos h1]
    exact ⟨fun _ h => by omega, fun _ => returns_ok _⟩
  by_cases h2 : c.okResponse ∨ c.authReady
  · rw [if_neg h1, if_pos h2]
    refine ⟨fun _ h => ?_, fun _ => returns_ok _⟩
    obtain ⟨-, -, h3, h4, -⟩ := h.1
    rw [h3, h4] at h2
    simp at h2
  rw [if_neg h1, if_neg h2]
  cases hsiv : c.siv with
  | none => exact ⟨fun _ h => by simp at h, fun _ => returns_ok _⟩
  | some siv =>
    have haw : info.extFields ≠ 0 ∧ info.mode = 4 ∧ c.okResponse = false ∧ c.authReady = false ∧
        (some siv).isSome := by
      simp only [not_or, Bool.not_eq_true] at h2
      exact ⟨by omega, by omega, h2.1, h2.2, rfl⟩
    dsimp only
    rcases siv.setKey_cases c.context.s2c with ⟨hk, siv', hs, -⟩ | ⟨hk, hs⟩ | ⟨hk, hk', hs⟩
    · rw [hs, ok_bind]
      dsimp only
      have hscan := scanResponse_returns_iff packet info c.uniqId.bytes siv'
      constructor
      · rintro ⟨x, hx⟩ ⟨-, ⟨hne, -⟩ | ⟨-, hfull⟩⟩
        · exact hne hk
        · obtain ⟨f, hf, -⟩ := bind_eq_ok.1 hx
          exact hscan.1 ⟨f, hf⟩ hfull
      · intro hno
        refine returns_bind (hscan.2 fun hfull => hno ⟨haw, .inr ⟨hk, hfull⟩⟩) fun f hf => ?_
        cases f with
        | ret s => exact returns_ok _
        | next s =>
          dsimp only
          split
          · split
            · refine returns_bind (isNtsNak_returns packet) fun b _ => ?_
              split <;> exact returns_ok _
            · exact returns_ok _
          · have hle := (scanResponse_plaintext hf).1
            refine returns_bind (extractCookies_returns ?_ (asI32_range _).2
              (c := { c with siv := some s.siv }) hi) fun x _ => ?_
            · rw [asI32_of_lt (by omega), s.plaintext.length_bytes]; omega
            · obtain ⟨c1, ok⟩ := x
              cases ok <;> exact returns_ok _
    · rw [hs, ok_bind]
      refine ⟨fun _ h => ?_, fun _ => returns_ok _⟩
      rcases h.2 with ⟨-, h⟩ | ⟨h, -⟩
      · exact hk h
      · exact hk (by rw [h]; rfl)
    · rw [hs]
      exact ⟨fun h => absurd h (not_returns_error _), fun h => absurd ⟨haw, .inl ⟨hk, hk'⟩⟩ h⟩

end NtsClient

end ChronyRs.L3.Nts

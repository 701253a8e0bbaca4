import ChronyRs.L3Nts.Request
import ChronyRs.L3Nts.Safety
import ChronyRs.L4Assoc.RxDispatch

/-!
# Received packets that panic a source

`handle_response` copies at most 1140 bytes of the packet into the packet buffer but
passes the untruncated length on. `parse_packet` bounds NTPv4 packets by the buffer, and
takes everything behind the header of an older packet for a MAC, whatever its length. A
MAC that is checked is sliced out of the buffer, so an NTPv1..3 packet of more than 1140
bytes panics: in mode 3 every source (no key is needed), as a response a source whose key
id it names. The receive loop passes up to 1200 bytes.

The second way is the authenticator field of `decrypt_auth_ef` whose lengths fill its
body, in a packet of exactly 1140 bytes for a source that waits for an NTS response.

* `handleResponse_returns_iff`: these are the only packets that panic.
* `long_request_panics`: an NTPv3 packet of 1144 bytes that panics a plain client.
-/
namespace ChronyRs.Bugs.RxOverrun

open L1.Ext L1.Parse L2 L3.Nts L4

def packetMode (packet : Bytes) : Int := (packet.getD 0 0 &&& 7).toNat

section
variable {B F C H : Type} [CryptoBackend B] [F64 F] [AesSiv C]

/-- A packet longer than the buffer is parsed, which only an NTPv1..3 packet is, and its
MAC is checked: it is a request, or a response that names the source's key. -/
def MacOverrun (s : SourceInstance F C H) (packet : Bytes) : Prop :=
  1140 < asI32 packet.length ∧ ∃ info, SourceInstance.parseReceived packet = .ok (some info) ∧
    (packetMode packet = 3 ∨ ((classifyRxKnown (packetMode packet) s.mode).IsResponse ∧
      s.auth = .symmetric info.macKeyId))

/-- An NTS response reaches a source with an outstanding request, and its authenticator is
overfull (or the session key's length is 32 only modulo 2^32). -/
def NtsOverrun (s : SourceInstance F C H) (packet : Bytes) : Prop :=
  ∃ c info, s.auth = .nts c ∧ SourceInstance.parseReceived packet = .ok (some info) ∧
    (classifyRxKnown (packetMode packet) s.mode).IsResponse ∧ info.authMode = 4 ∧ c.Awaits info ∧
    ((c.context.s2c.length ≠ 32 ∧ asI32 c.context.s2c.length = 32) ∨
      (c.context.s2c.length = 32 ∧
        NtsClient.Overfull (Buf.ofBytes 1140 packet) info.length c.uniqId.bytes))

/-! ## The checks on a parsed packet -/

variable {packet : NtpPacketBuf} {length : Int} {info : NtpPacketInfo}

/-- The MAC of a parsed packet is inside the buffer iff the packet is. -/
theorem checkSymmetricAuth_parsed (h : Parsed packet length info) (hlt : length < 2 ^ 31)
    (keys : KeyStore B) :
    Rust.Returns (checkSymmetricAuth packet info keys) ↔ ¬ 1140 < length := by
  have hmac := h.mac
  rw [checkSymmetricAuth_returns_iff packet keys (fun h20 => by have := hmac h20; omega)]
  constructor
  · intro hfit hlong
    have h20 := (h.long hlong).1
    have := hfit h20; have := hmac h20
    omega
  · intro hno h20
    have := hmac h20
    omega

theorem authCheckResponse_parsed {auth : NauInstance F C H} (h : Parsed packet length info)
    (hlt : length < 2 ^ 31) (hi : ∀ c, auth = .nts c → c.PoolInv) (keys : KeyStore B) :
    Rust.Returns (authCheckResponse auth keys packet info) ↔
      ¬ ((1140 < length ∧ auth = .symmetric info.macKeyId) ∨
        ∃ c, auth = .nts c ∧ info.authMode = 4 ∧ c.Awaits info ∧
          ((c.context.s2c.length ≠ 32 ∧ asI32 c.context.s2c.length = 32) ∨
            (c.context.s2c.length = 32 ∧ NtsClient.Overfull packet info.length
              c.uniqId.bytes))) := by
  unfold authCheckResponse
  by_cases h0 : info.authMode = 0
  · rw [if_pos h0]
    refine ⟨fun _ h' => ?_, fun _ => returns_ok _⟩
    rcases h' with ⟨hl, -⟩ | ⟨c, -, h4, -⟩
    · have := (h.long hl).2; omega
    · omega
  rw [if_neg h0]
  unfold NauInstance.checkResponseAuth
  cases auth with
  | none =>
    rw [if_pos (show info.authMode ≠ NauInstance.mode .none from h0)]
    exact ⟨fun _ h' => by simp at h', fun _ => returns_ok _⟩
  | symmetric k =>
    by_cases h1 : info.authMode = 1
    · rw [if_neg (not_not.2 (show info.authMode = NauInstance.mode (.symmetric k) from h1))]
      dsimp only
      by_cases hk : info.macKeyId = k
      · rw [if_neg (not_not.2 hk)]
        rw [returns_bind_iff, checkSymmetricAuth_parsed h hlt]
        · simp [hk]
        · exact fun _ => returns_ok _
      · rw [if_pos hk]
        refine ⟨fun _ h' => ?_, fun _ => returns_ok _⟩
        rcases h' with ⟨-, h'⟩ | ⟨c, hc, -⟩
        · cases h'; exact hk rfl
        · cases hc
    · rw [if_pos (show info.authMode ≠ NauInstance.mode (.symmetric k) from h1)]
      refine ⟨fun _ h' => ?_, fun _ => returns_ok _⟩
      rcases h' with ⟨hl, -⟩ | ⟨c, hc, -⟩
      · exact h1 (h.long hl).2
      · cases hc
  | nts c =>
    by_cases h4 : info.authMode = 4
    · rw [if_neg (not_not.2 (show info.authMode = NauInstance.mode (.nts c) from h4))]
      dsimp only
      rw [returns_bind_iff, NtsClient.checkResponseAuth_returns_iff (hi c rfl)]
      · simp [h4]
      · exact fun _ => returns_ok _
    · rw [if_pos (show info.authMode ≠ NauInstance.mode (.nts c) from h4)]
      refine ⟨fun _ h' => ?_, fun _ => returns_ok _⟩
      rcases h' with ⟨-, hc⟩ | ⟨c', -, h4', -⟩
      · cases hc
      · exact h4 h4'

omit [F64 F] [AesSiv C] in
theorem authCheckRequest_parsed (auth : NauInstance F C H) (h : Parsed packet length info)
    (hlt : length < 2 ^ 31) (keys : KeyStore B) :
    Rust.Returns (authCheckRequest auth keys packet info) ↔ ¬ 1140 < length := by
  unfold authCheckRequest
  split
  · rename_i h0
    refine ⟨fun _ hl => ?_, fun _ => returns_ok _⟩
    have := (h.long hl).2
    omega
  · rw [returns_bind_iff, checkSymmetricAuth_parsed h hlt]
    rintro ⟨keys, ok⟩
    dsimp only
    split <;> exact returns_ok _

/-! ## The receive path -/

theorem classifyRxKnown_unknown {packetMode ourMode : Int} :
    classifyRxKnown packetMode ourMode = .processAsUnknown ↔ packetMode = 3 := by
  unfold classifyRxKnown
  split_ifs <;> simp_all

omit [CryptoBackend B] [F64 F] [AesSiv C] in
theorem parseReceived_some {packet : Bytes} {info : NtpPacketInfo}
    (h : SourceInstance.parseReceived packet = .ok (some info)) : 48 ≤ packet.length ∧
      Parsed (Buf.ofBytes 1140 packet) (asI32 packet.length) info := by
  obtain ⟨hok, hp⟩ := parsePacket_some h
  have := hok.length_ge; have := asI32_le packet.length
  exact ⟨by omega, hp⟩

theorem authenticate_returns_iff {s : SourceInstance F C H} (hi : ∀ c, s.auth = .nts c → c.PoolInv)
    (packet : Bytes) :
    Rust.Returns (s.authenticate packet) ↔ ¬ (MacOverrun s packet ∨ NtsOverrun s packet) := by
  have hlt := (asI32_range packet.length).2
  obtain ⟨o, ho⟩ := parsePacket_returns (Buf.ofBytes 1140 packet) (asI32 packet.length)
  change SourceInstance.parseReceived packet = .ok o at ho
  cases o with
  | none =>
    -- nothing is parsed, nothing is checked
    refine ⟨fun _ h => ?_, fun _ => ?_⟩
    · rcases h with ⟨-, i, hp, -⟩ | ⟨c, i, -, hp, -⟩ <;> rw [ho] at hp <;> cases hp
    · unfold SourceInstance.authenticate
      refine returns_bind (decode_returns packet) fun d _ => ?_
      cases d with
      | error => exact returns_ok _
      | ok d => dsimp only; rw [ho]; exact returns_ok _
  | some info =>
    obtain ⟨hlen, hp⟩ := parseReceived_some ho
    obtain ⟨d, hm, he⟩ := s.authenticate_eq hlen ho
    have hmode : (d.mode.toNat : Int) = packetMode packet := by rw [hm]; rfl
    rw [he, hmode, returns_bind_iff]
    swap
    · exact fun _ => returns_ok _
    unfold MacOverrun NtsOverrun
    by_cases hc : (classifyRxKnown (packetMode packet) s.mode).IsResponse
    · have h3 : packetMode packet ≠ 3 := fun h3 => by
        rw [classifyRxKnown_unknown.2 h3] at hc
        rcases hc with hc | hc <;> cases hc
      rw [receiveAuthenticated_response hc, returns_bind_iff, authCheckResponse_parsed hp hlt hi]
      · simp [ho, h3, hc]
      · exact fun _ => returns_ok _
    · rw [receiveAuthenticated_other hc]
      by_cases h3 : packetMode packet = 3
      · rw [if_pos (classifyRxKnown_unknown.2 h3), returns_bind_iff,
          authCheckRequest_parsed s.auth hp hlt]
        · rw [h3] at hc
          simp [ho, h3, hc]
        · exact fun _ => returns_ok _
      · rw [if_neg (fun h => h3 (classifyRxKnown_unknown.1 h))]
        refine ⟨fun _ => ?_, fun _ => returns_ok _⟩
        simp [ho, h3, hc]

/-- **Exactly these packets panic.** For every source whose NTS pool is intact, and every
byte string, `handle_response` returns iff the packet is neither a MAC overrun nor an
overfull NTS response. -/
theorem handleResponse_returns_iff (measure : SampleArgs F → ResponseSample F)
    {s : SourceInstance F C H} (hi : ∀ c, s.auth = .nts c → c.PoolInv) (packet : Bytes)
    (now : Timespec) (nowErr maxDelay offsetCorrection : F) :
    Rust.Returns (s.handleResponse measure packet now nowErr maxDelay offsetCorrection) ↔
      ¬ (MacOverrun s packet ∨ NtsOverrun s packet) := by
  rw [← authenticate_returns_iff hi]
  unfold SourceInstance.handleResponse
  refine returns_bind_iff fun x => ?_
  obtain ⟨s1, _ | ⟨d, action, ok⟩⟩ := x
  · exact returns_ok _
  dsimp only
  split
  · exact returns_ok _
  split
  · exact returns_ok _
  · split <;> exact returns_ok _

end

/-! ## A packet that panics -/

def longRequest : Bytes := 0x1b :: List.replicate 1143 0

theorem longRequest_overrun {F C H : Type} (s : SourceInstance F C H) : MacOverrun s longRequest :=
  ⟨by decide +kernel, withMac (headerInfo (Buf.ofBytes 1140 longRequest) 1144) 48 0,
    by decide +kernel, .inl (by decide +kernel)⟩

/-- A source that has not talked NTS yet. -/
def ntsSource : SourceInstance ℚ NullCipher StaticHost :=
  SourceInstance.newWithAuth "server" 3 (.nts NtsClient.fresh)

def noSample : SampleArgs ℚ → ResponseSample ℚ := fun _ => ⟨0, 0, 0, 0, 0, ⟨0, 0⟩⟩

theorem handleResponse_returns_iff_nts : NtsClient.fresh.PoolInv ∧
    ¬ Rust.Returns (ntsSource.handleResponse noSample longRequest ⟨0, 0⟩ 0 1 0) := by
  have hpool : NtsClient.fresh.PoolInv := NtsClient.new_pool ..
  refine ⟨hpool, fun h => ?_⟩
  exact (handleResponse_returns_iff noSample (by rintro c ⟨⟩; exact hpool) longRequest _ _ _ _).1 h
    (.inl (longRequest_overrun ntsSource))

/-- A client without authentication panics on it. -/
theorem long_request_panics :
    ¬ Rust.Returns ((SourceInstance.new "server" 3 0 : SourceInstance ℚ NullCipher
      StaticHost).handleResponse noSample longRequest ⟨0, 0⟩ 0 1 0) := by
  rintro ⟨r, hr⟩
  obtain ⟨x, hx, -⟩ := bind_eq_ok.1 hr
  exact (authenticate_returns_iff (by rintro c ⟨⟩) longRequest).1 ⟨x, hx⟩
    (.inl (longRequest_overrun _))

end ChronyRs.Bugs.RxOverrun

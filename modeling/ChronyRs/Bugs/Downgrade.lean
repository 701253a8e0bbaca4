import ChronyRs.L4Assoc.RxDispatch

/-!
# An authenticated association accepts plain responses

`auth_check_response` reads the wrong side: it skips the check when the *packet* carries
no authentication, not when the association asks for none. A response without MAC and
without NTS fields is reported as authenticated to every association, whatever key or
NTS session it was configured with; an attacker on the path just leaves the MAC out.

* `reported_iff_checked`: apart from these packets, a reported response is one that
  `check_response_auth` accepts. In particular its MAC uses the configured key.
* `plain_response_reported`: the bare 48-byte server packet that a source with key 1
  takes for authenticated.
-/
namespace ChronyRs.Bugs.Downgrade

open L1.Ext L1.Parse L2 L3.Nts L4

variable {B F C H : Type} [CryptoBackend B] [F64 F] [AesSiv C]

/-- `check_response_auth` accepts, which needs authentication of the configured kind,
and the configured key. -/
structure Checked (auth : NauInstance F C H) (keys : KeyStore B) (packet : NtpPacketBuf)
    (info : NtpPacketInfo) : Prop where
  accepted : ∃ auth' keys', auth.checkResponseAuth keys packet info = .ok (auth', keys', true)
  kind : info.authMode = auth.mode
  key : ∀ k, auth = .symmetric k → info.macKeyId = k

theorem checked_of_accepted {auth auth' : NauInstance F C H} {keys keys' : KeyStore B}
    {packet : NtpPacketBuf} {info : NtpPacketInfo}
    (h : auth.checkResponseAuth keys packet info = .ok (auth', keys', true)) :
    Checked auth keys packet info := by
  refine ⟨⟨auth', keys', h⟩, ?_, ?_⟩
  · unfold NauInstance.checkResponseAuth at h
    split at h
    · cases h
    · rename_i hm; exact Decidable.not_not.1 hm
  · rintro k rfl
    unfold NauInstance.checkResponseAuth at h
    split at h
    · cases h
    dsimp only at h
    split at h
    · cases h
    · rename_i hk; exact Decidable.not_not.1 hk

/-- The dispatch reports the packet as an authenticated response. -/
def Reported (packetMode ourMode : Int) (auth : NauInstance F C H) (keys : KeyStore B)
    (packet : NtpPacketBuf) (info : NtpPacketInfo) : Prop :=
  ∃ auth' keys' action, receiveAuthenticated packetMode ourMode auth keys packet info =
    .ok (auth', keys', action, true) ∧ action.IsResponse

theorem reported_iff {packetMode ourMode : Int} {auth : NauInstance F C H} {keys : KeyStore B}
    {packet : NtpPacketBuf} {info : NtpPacketInfo} :
    Reported packetMode ourMode auth keys packet info ↔
      (classifyRxKnown packetMode ourMode).IsResponse ∧ (info.authMode = 0 ∨
        ∃ auth' keys', auth.checkResponseAuth keys packet info = .ok (auth', keys', true)) := by
  unfold Reported
  by_cases hc : (classifyRxKnown packetMode ourMode).IsResponse
  · rw [receiveAuthenticated_response hc]
    unfold authCheckResponse
    split
    · rename_i h0
      exact ⟨fun _ => ⟨hc, .inl h0⟩, fun _ => ⟨auth, keys, _, rfl, hc⟩⟩
    · rename_i h0
      constructor
      · rintro ⟨a, k, action, h, -⟩
        obtain ⟨⟨a', k', ok⟩, ha, h⟩ := bind_eq_ok.1 h
        cases h
        exact ⟨hc, .inr ⟨_, _, ha⟩⟩
      · rintro ⟨-, h | ⟨a, k, h⟩⟩
        · exact absurd h h0
        · exact ⟨a, k, _, by rw [h]; rfl, hc⟩
  · rw [receiveAuthenticated_other hc]
    refine ⟨?_, fun h => absurd h.1 hc⟩
    rintro ⟨a, k, action, h, hr⟩
    split at h
    · obtain ⟨⟨k', ok, id⟩, -, h⟩ := bind_eq_ok.1 h
      cases h
      rcases hr with hr | hr <;> cases hr
    · simp only [Except.ok.injEq, Prod.mk.injEq] at h
      exact absurd (h.2.2.1 ▸ hr) hc

def SourceReports (s : SourceInstance F C H) (packet : Bytes) : Prop :=
  ∃ s' decoded action, s.authenticate packet = .ok (s', some (decoded, action, true)) ∧
    action.IsResponse

/-- The packet is a response for the association (by its mode) and `parse_packet` finds
neither a MAC nor NTS fields behind its header. -/
def PlainResponse (ourMode : Int) (packet : Bytes) : Prop :=
  48 ≤ packet.length ∧ (classifyRxKnown (packet.getD 0 0 &&& 7).toNat ourMode).IsResponse ∧
    ∃ info, SourceInstance.parseReceived packet = .ok (some info) ∧ info.authMode = 0

theorem sourceReports_iff {s : SourceInstance F C H} {packet : Bytes} :
    SourceReports s packet ↔ 48 ≤ packet.length ∧ ∃ info, SourceInstance.parseReceived packet =
      .ok (some info) ∧ Reported (packet.getD 0 0 &&& 7).toNat s.mode s.auth s.keys
        (Buf.ofBytes 1140 packet) info := by
  constructor
  · rintro ⟨s', d, action, h, hr⟩
    obtain ⟨hlen, info, hp⟩ := SourceInstance.authenticate_some h
    obtain ⟨d', hm, he⟩ := s.authenticate_eq hlen hp
    rw [he] at h
    obtain ⟨⟨a, k, act, ok⟩, ha, h⟩ := bind_eq_ok.1 h
    cases h
    exact ⟨hlen, info, hp, a, k, action, hm ▸ ha, hr⟩
  · rintro ⟨hlen, info, hp, a, k, action, ha, hr⟩
    obtain ⟨d, hm, he⟩ := s.authenticate_eq hlen hp
    exact ⟨{ s with auth := a, keys := k }, d, action, by rw [he, hm, ha]; rfl, hr⟩

/-- **The exact condition.** For every authenticated association, key store and packet,
the dispatch (with any modes and any `info`) reports only responses that
`check_response_auth` accepts unless the response carries no authentication; and so
does a source on any received bytes. -/
theorem reported_iff_checked :
    (∀ (packetMode ourMode : Int) (auth : NauInstance F C H) (keys : KeyStore B)
        (packet : NtpPacketBuf) (info : NtpPacketInfo), auth.isAuthEnabled = true →
      ((Reported packetMode ourMode auth keys packet info → Checked auth keys packet info) ↔
        ¬ ((classifyRxKnown packetMode ourMode).IsResponse ∧ info.authMode = 0))) ∧
    ∀ (s : SourceInstance F C H) (packet : Bytes), s.auth.isAuthEnabled = true →
      ((SourceReports s packet → ∃ info, SourceInstance.parseReceived packet = .ok (some info) ∧
          Checked s.auth s.keys (Buf.ofBytes 1140 packet) info) ↔
        ¬ PlainResponse s.mode packet) := by
  constructor
  · intro packetMode ourMode auth keys packet info hen
    rw [reported_iff]
    constructor
    · rintro h ⟨hc, h0⟩
      have := (h ⟨hc, .inl h0⟩).kind
      rw [h0] at this
      exact absurd this.symm (of_decide_eq_true hen)
    · rintro hno ⟨hc, h0 | ⟨a, k, h⟩⟩
      · exact absurd ⟨hc, h0⟩ hno
      · exact checked_of_accepted h
  · intro s packet hen
    rw [sourceReports_iff]
    constructor
    · rintro h ⟨hlen, hc, info, hp, h0⟩
      obtain ⟨info', hp', hch⟩ := h ⟨hlen, info, hp, reported_iff.2 ⟨hc, .inl h0⟩⟩
      rw [hp] at hp'; cases hp'
      have := hch.kind
      rw [h0] at this
      exact absurd this.symm (of_decide_eq_true hen)
    · rintro hno ⟨hlen, info, hp, hr⟩
      obtain ⟨hc, h0 | ⟨a, k, h⟩⟩ := reported_iff.1 hr
      · exact absurd ⟨hlen, hc, info, hp, h0⟩ hno
      · exact ⟨info, hp, checked_of_accepted h⟩

def keyed : SourceInstance ℚ NullCipher StaticHost := SourceInstance.new "server" 3 1

def bareResponse : Bytes := 0x24 :: List.replicate 47 0

theorem bareResponse_plain : PlainResponse 3 bareResponse :=
  ⟨by decide, by decide, _, rfl, rfl⟩

theorem reported_iff_checked_bare : keyed.auth.isAuthEnabled = true ∧
    ¬ (SourceReports keyed bareResponse → ∃ info, SourceInstance.parseReceived bareResponse =
      .ok (some info) ∧ Checked keyed.auth keyed.keys (Buf.ofBytes 1140 bareResponse) info) :=
  ⟨rfl, fun h => (reported_iff_checked (B := InternalMd5Backend)).2 keyed bareResponse rfl |>.1 h
    bareResponse_plain⟩

/-- The source reports the bare response as authenticated, although the packet's
authentication mode is none. -/
theorem plain_response_reported : keyed.auth = .symmetric 1 ∧ SourceReports keyed bareResponse ∧
    ¬ ∃ info, SourceInstance.parseReceived bareResponse = .ok (some info) ∧
      Checked keyed.auth keyed.keys (Buf.ofBytes 1140 bareResponse) info := by
  obtain ⟨hlen, hc, info, hp, h0⟩ := bareResponse_plain
  refine ⟨rfl, sourceReports_iff.2 ⟨hlen, info, hp, reported_iff.2 ⟨hc, .inl h0⟩⟩, ?_⟩
  rintro ⟨info', hp', hch⟩
  rw [hp] at hp'
  cases hp'
  have := hch.kind
  rw [h0] at this
  cases this

end ChronyRs.Bugs.Downgrade

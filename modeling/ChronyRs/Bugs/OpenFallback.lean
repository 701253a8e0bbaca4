import ChronyRs.L4Server.Transmit

/-!
# Requests that fail authentication get the time (`ntp_io.rs`)

`transmit_server_response` builds the plain response first and replaces it by the authenticated one
if `check_request_auth` and `generate_response_auth` both succeed. Where either fails nothing is
replaced, the plain response stays in place and is sent: a request with a stale cookie or a forged
authenticator gets an unauthenticated time, and the NTS NAK that the check asks for is never built.

* `failed_request_answered`: after every failure the plain response is sent.
* `stale_cookie_answered`: a request whose cookie the server cannot decode.

Fix: return without sending where either call fails, after a response with the NAK code where
`check_request_auth` returned it.
-/
namespace ChronyRs.Bugs.OpenFallback

open L1.Ext L1.Parse L2 L3.Nts L4.Transmit

variable {F C K A L : Type} [F64 F] [AesSiv C] [CookieCodec K]

/-- The check of a request fails, or it succeeds and the response to it cannot be built. -/
def Failed (nts : NtsServer C K) (reqBuf : NtpPacketBuf) (reqInfo : NtpPacketInfo)
    (packet : Bytes) : Prop :=
  (∃ nts' kod, nts.checkRequestAuth reqBuf reqInfo = .ok (nts', false, kod)) ∨
  ∃ nts1 kod respBuf nts' respBuf' respInfo', nts.checkRequestAuth reqBuf reqInfo =
    .ok (nts1, true, kod) ∧ (Buf.zero 1140).copyAt 0 packet = .ok respBuf ∧
    nts1.generateResponseAuth reqBuf reqInfo respBuf
      { length := asI32 packet.length, version := 4, mode := 4 } 0 =
      .ok (nts', respBuf', respInfo', false)

/-- A kiss-o'-death with the code of the NTS NAK and the unique identifier behind the header. -/
def IsNak (packet : Bytes) : Prop :=
  packet[1]? = some 0 ∧ (packet.drop 12).take 4 = be32 0x4e54534e ∧ 48 < packet.length

def TimeBearing (packet : Bytes) : Prop := (packet.drop 32).take 8 ≠ List.replicate 8 0

/-- Nothing was sent, or only the NAK that the check asked for. -/
def Withheld (nts : NtsServer C K) (reqBuf : NtpPacketBuf) (reqInfo : NtpPacketInfo)
    (sent : List (Message A L)) : Prop :=
  sent = [] ∨ (∃ nts', nts.checkRequestAuth reqBuf reqInfo = .ok (nts', false, 0x4e54534e)) ∧
    ∀ msg ∈ sent, IsNak msg.packet

theorem authenticate_failed {nts : NtsServer C K} {reqBuf : NtpPacketBuf} {reqInfo : NtpPacketInfo}
    {packet : Bytes} (h : Failed nts reqBuf reqInfo packet) :
    ∃ nts', authenticate nts reqBuf reqInfo packet = .ok (nts', packet) := by
  unfold authenticate
  rcases h with ⟨nts', kod, hcheck⟩ | ⟨nts1, kod, respBuf, nts', respBuf', respInfo',
    hcheck, hcopy, hgen⟩
  · exact ⟨nts', by rw [hcheck]; rfl⟩
  · refine ⟨nts', ?_⟩
    rw [hcheck, ok_bind]
    dsimp only
    rw [hcopy, ok_bind, hgen]
    rfl

theorem timeBearing_header (params : ReferenceParams F) : TimeBearing (header params) := by
  intro h
  have hlow : be32 ((timespecToNtp64 F (ntp64ToTimespec params.rxTs)).2 ||| 1) = be32 0 :=
    congrArg (List.drop 4) h
  have hbit := congrArg (fun w : UInt32 => w.toNat.testBit 0) (be32_inj.1 hlow)
  simp only [UInt32.toNat_or, Nat.testBit_or] at hbit
  simp at hbit

/-- **Every failure is answered.** If the request has extension fields and its check fails, or the
response to it cannot be built, then a response with the time is sent and it is not the NAK: the
property holds for none of these requests. -/
theorem failed_request_answered (sendMessage : Message A L → Int) (sockFd : Int)
    {requestData : Bytes} (remote : A) (localIp : L) (params : ReferenceParams F)
    {nts : NtsServer C K} {reqBuf : NtpPacketBuf} {reqInfo : NtpPacketInfo}
    (h48 : 48 ≤ requestData.length) (hbuf : requestBuf requestData = .ok reqBuf)
    (hparse : parsePacket reqBuf (asI32 requestData.length) = .ok (some reqInfo))
    (hext : 0 < reqInfo.extFields) (hfail : Failed nts reqBuf reqInfo (header params)) :
    ∃ nts' msg, transmitServerResponse sendMessage sockFd requestData remote localIp
        params (some nts) = .ok (some nts', [msg], 0 ≤ sendMessage msg) ∧
      msg.packet = header params ∧ TimeBearing msg.packet ∧
        ¬ Withheld nts reqBuf reqInfo [msg] := by
  obtain ⟨nts', hauth⟩ := authenticate_failed hfail
  have hlen := length_header params
  have hmargin : checkAmplificationMargin requestData.length (header params).length = true := by
    unfold checkAmplificationMargin
    rw [hlen]
    simp
  refine ⟨nts', ⟨sockFd, remote, localIp, header params⟩, ?_, rfl, timeBearing_header params, ?_⟩
  · unfold transmitServerResponse ntsResponse
    rw [if_neg (by omega)]
    dsimp only
    rw [hbuf, ok_bind, hparse, ok_bind]
    dsimp only
    rw [if_pos hext, hauth, ok_bind]
    simp only [pure_eq, ok_bind, hmargin]
    rfl
  · rintro (h | ⟨-, h⟩)
    · cases h
    · have hlong : 48 < (header params).length := (h _ List.mem_cons_self).2.2
      omega

/-- A unique identifier, a cookie of 32 bytes, which `PlainCodec` does not decode, and an
authenticator. -/
def staleRequest : Bytes :=
  0x23 :: List.replicate 47 0 ++ [1, 4, 0, 36] ++ List.replicate 32 9 ++ [2, 4, 0, 36] ++
    List.replicate 32 3 ++ [4, 4, 0, 40, 0, 16, 0, 16] ++ List.replicate 16 7 ++ List.replicate 16 0

def someParams : ReferenceParams ℚ where
  leap := 0
  stratum := 1
  refId := 0x47505300
  refTime := ⟨1000, 0⟩
  rootDelay := 0
  rootDispersion := 0
  originTs := 7
  rxTs := 0xe8000000_80000000
  txTs := 0xe8000000_90000000

def freshServer : NtsServer NullCipher PlainCodec := NtsServer.new ⟨⟩

def staleBuf : NtpPacketBuf := Buf.ofBytes 1140 staleRequest

def staleInfo : NtpPacketInfo :=
  { length := 160, version := 4, mode := 3, extFields := 3, authMode := 4 }

theorem failed_request_answered_stale : ∃ nts' msg,
    transmitServerResponse (fun _ : Message Unit Unit => 48) 3 staleRequest () () someParams
      (some freshServer) =
      .ok (some nts', [msg], true) ∧ ¬ Withheld freshServer staleBuf staleInfo [msg] := by
  obtain ⟨nts1, hcheck⟩ := exists_of_result (x := freshServer.checkRequestAuth staleBuf staleInfo)
    (b := (false, 0x4e54534e)) (by decide +kernel)
  obtain ⟨nts', msg, hcall, -, -, hopen⟩ := failed_request_answered
    (fun _ : Message Unit Unit => 48) 3 () ()
    someParams (by decide +kernel) (show requestBuf staleRequest = .ok staleBuf by decide +kernel)
    (show parsePacket staleBuf _ = .ok (some staleInfo) by decide +kernel) (by decide)
      (.inl ⟨nts1, _, hcheck⟩)
  exact ⟨nts', msg, hcall, hopen⟩

/-- The check refuses the request with the code of the NAK, and the response that is sent has the
receive and transmit time, stratum 1, and no extension field. -/
theorem stale_cookie_answered :
    (freshServer.checkRequestAuth staleBuf staleInfo).toOption.map Prod.snd =
      some (false, 0x4e54534e) ∧
    ((transmitServerResponse (fun _ : Message Unit Unit => 48) 3 staleRequest () () someParams
      (some freshServer)).toOption.map fun r => r.2.1.map Message.packet) =
        some [[0x24, 1, 6, 250, 0, 0, 0, 0, 0, 0, 0, 0, 0x47, 0x50, 0x53, 0, 0x83, 0xaa, 0x82,
          0x68, 0, 0, 0, 0,
          0, 0, 0, 0, 0, 0, 0, 7, 0xe8, 0, 0, 0, 0x80, 0, 0, 1, 0xe8, 0, 0, 0, 0x90, 0, 0, 0]] := by
  constructor <;> decide +kernel

end ChronyRs.Bugs.OpenFallback

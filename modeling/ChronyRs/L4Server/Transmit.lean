import ChronyRs.L1Encoding.Parse
import ChronyRs.L2Auth.AuthRoundTrip
import ChronyRs.L3Nts.Server
import ChronyRs.L4Server.Times

/-!
# The server's response (`ntp/transmit.rs`, `ntp_io.rs`)

`transmit_server_response` builds a 48-byte response from the reference parameters, has the NTS
server authenticate it if the request has extension fields, and sends what came of it. What
`send_message` returns is the host's; the message handed to it is recorded.

`double_to_ntp32` adds one to a word below `2^32 - 1`, since doubles below its cut-off are, so the
addition does not overflow; here it wraps.

* `generateResponseAuth_kept`: the NTS server appends to the response and keeps its header.
* `transmitServerResponse_sent`: what is sent begins with the response of `build_server_response`.
-/
namespace ChronyRs.L4.Transmit

open L1.Ext L1.Parse L2 L3.Nts L4.Server

variable {F C K A L : Type} [F64 F] [AesSiv C] [CookieCodec K]

/-! ## The header -/

/-- `UTI_TimespecToNtp64`. mirrors ntp/exp_ef.rs:81-88 -/
def timespecToNtp64 (F : Type) [F64 F] (ts : Server.Timespec) : UInt32 × UInt32 :=
  let sec := UInt32.ofNat (ts.tvSec % 2 ^ 32).toNat
  let nsec := UInt32.ofNat (ts.tvNsec % 2 ^ 32).toNat
  if sec = 0 ∧ nsec = 0 then (0, 0)
  else (sec + 0x83aa7e80, F64.toU32 (F64.mul (F64.lit (4294967296 / 1000000000))
    (F64.ofInt nsec.toNat) : F))

/-- mirrors ntp/transmit.rs:49-63 -/
def doubleToNtp32 (x : F) : UInt32 :=
  if F64.le (F64.lit (4294967295 / 65536)) x then 0xffffffff
  else if F64.le x (F64.lit 0) then 0
  else
    let xs := F64.mul x (F64.lit 65536)
    let r := F64.toU32 xs
    if F64.lt (F64.ofInt r.toNat) xs then r + 1 else r

/-- mirrors ntp/transmit.rs:66-68 -/
def ntpLvm (leap version mode : UInt8) : UInt8 :=
  ((leap <<< (6 : UInt8)) &&& 0xc0) ||| ((version <<< (3 : UInt8)) &&& 0x38) ||| (mode &&& 7)

/-- mirrors ntp/transmit.rs:187-200 -/
structure ReferenceParams (F : Type) where
  leap : UInt8
  stratum : Int
  refId : UInt32
  refTime : Server.Timespec
  rootDelay : F
  rootDispersion : F
  originTs : UInt64
  rxTs : UInt64
  txTs : UInt64

/-- mirrors ntp/transmit.rs:203-214 -/
def ntp64ToTimespec (ntp : UInt64) : Server.Timespec :=
  let secs := (ntp >>> 32).toNat
  let frac := ntp.toUInt32
  let nsec := (frac.toNat * 1000000000) >>> 32
  ⟨if 2208988800 ≤ secs then (secs - 2208988800 : Nat) else 0, nsec⟩

/-- mirrors ntp/transmit.rs:227-233 -/
def checkAmplificationMargin (requestLen responseLen : Nat) : Bool :=
  ¬ (responseLen > requestLen * 2 ∧ responseLen > 128)

/-- `x as u8`. -/
def asU8 (x : Int) : UInt8 := UInt8.ofNat (x % 256).toNat

/-- The 48 bytes, field after field.
mirrors ntp/transmit.rs:246-290 -/
def buildServerResponse (myPoll version : Int) (params : ReferenceParams F)
    (requestTransmitTs : UInt64) (localReceive cookedTransmit : Server.Timespec)
    (precisionLog : Int) : Bytes :=
  let version := min version 4
  let stratum := if params.stratum < 16 then asU8 params.stratum else 0
  let ref := timespecToNtp64 F params.refTime
  let rx := timespecToNtp64 F localReceive
  let tx := timespecToNtp64 F cookedTransmit
  [ntpLvm params.leap (asU8 version) 4, stratum, asU8 myPoll, asU8 precisionLog] ++
    be32 (doubleToNtp32 params.rootDelay) ++ be32 (doubleToNtp32 params.rootDispersion) ++
      be32 params.refId ++
    be32 ref.1 ++ be32 ref.2 ++
    be32 (requestTransmitTs >>> 32).toUInt32 ++ be32 requestTransmitTs.toUInt32 ++
    -- the flag of the interleaved mode: set in the receive timestamp, clear in the transmit
    -- timestamp
    be32 rx.1 ++ be32 (rx.2 ||| 1) ++ be32 tx.1 ++ be32 (tx.2 &&& ~~~1)

/-! ## Sending -/

/-- What `send_message` is called with. -/
structure Message (A L : Type) where
  sockFd : Int
  remote : A
  localIp : L
  packet : Bytes

/-- The request in a packet buffer, cut to its size. -/
def requestBuf (requestData : Bytes) : Rust NtpPacketBuf :=
  (Buf.zero 1140).copyAt 0 (requestData.take 1140)

/-- The response of the NTS server, or the packet as it is where either step fails.
mirrors chrony-rs-io/ntp_io.rs:174-195 -/
def authenticate (nts : NtsServer C K) (reqBuf : NtpPacketBuf) (reqInfo : NtpPacketInfo)
    (packet : Bytes) : Rust (NtsServer C K × Bytes) := do
  match ← nts.checkRequestAuth reqBuf reqInfo with
  | (nts, false, _) => return (nts, packet)
  | (nts, true, _) =>
    let respBuf ← (Buf.zero 1140).copyAt 0 packet
    let respInfo : NtpPacketInfo := { length := asI32 packet.length, version := 4, mode := 4 }
    match ← nts.generateResponseAuth reqBuf reqInfo respBuf respInfo 0 with
    | (nts, _, _, false) => return (nts, packet)
    | (nts, respBuf, respInfo, true) =>
      return (nts, ← slice respBuf.bytes 0 (asUsize respInfo.length))

/-- mirrors chrony-rs-io/ntp_io.rs:167-199 -/
def ntsResponse (ntsServer : Option (NtsServer C K)) (requestData packet : Bytes) :
    Rust (Option (NtsServer C K) × Bytes) := do
  match ntsServer with
  | none => return (none, packet)
  | some nts =>
    let reqBuf ← requestBuf requestData
    match ← parsePacket reqBuf (asI32 requestData.length) with
    | none => return (some nts, packet)
    | some reqInfo =>
      if 0 < reqInfo.extFields then
        let (nts, packet) ← authenticate nts reqBuf reqInfo packet
        return (some nts, packet)
      else return (some nts, packet)

/-- The response before authentication. -/
def header (refParams : ReferenceParams F) : Bytes :=
  buildServerResponse 6 4 refParams refParams.originTs (ntp64ToTimespec refParams.rxTs)
    (ntp64ToTimespec refParams.txTs) (-6)

/-- What was sent, and whether the host took it; `sendMessage` is what the socket returns.
mirrors chrony-rs-io/ntp_io.rs:143-210 -/
def transmitServerResponse (sendMessage : Message A L → Int) (sockFd : Int) (requestData : Bytes)
    (remote : A) (localIp : L) (refParams : ReferenceParams F)
    (ntsServer : Option (NtsServer C K)) :
    Rust (Option (NtsServer C K) × List (Message A L) × Bool) := do
  if requestData.length < 48 then return (ntsServer, [], false)
  let (ntsServer, packet) ← ntsResponse ntsServer requestData (header refParams)
  if ¬ checkAmplificationMargin requestData.length packet.length then return (ntsServer, [], false)
  let msg := { sockFd, remote, localIp, packet }
  return (ntsServer, [msg], 0 ≤ sendMessage msg)

/-! ## What is sent -/

omit [CookieCodec K] in
/-- **The NTS server appends** to a response, whether or not it succeeds. -/
theorem generateResponseAuth_kept {nts nts' : NtsServer C K}
    {request response response' : NtpPacketBuf} {reqInfo resInfo resInfo' : NtpPacketInfo}
    {kod : Nat} {ok : Bool}
    (h : nts.generateResponseAuth request reqInfo response resInfo kod =
      .ok (nts', response', resInfo', ok)) :
    Kept response resInfo response' resInfo' := by
  unfold NtsServer.generateResponseAuth at h
  split at h
  · cases h; exact .refl _ _
  obtain ⟨tx, -, h⟩ := bind_eq_ok.1 h
  obtain ⟨_, -, h⟩ := bind_eq_ok.1 h
  obtain ⟨f, hcopy, h⟩ := bind_eq_ok.1 h
  -- every unique identifier is appended to what is there
  have hkept : (∃ s, f = .next s ∧ Kept response resInfo s.1 s.2) ∨ ∃ s, f = .ret s ∧
      Kept response resInfo s.1 s.2 := by
    unfold NtsServer.copyUniqIds at hcopy
    refine Walker.run_inv (fun s => Kept response resInfo s.1 s.2)
      (fun s => Kept response resInfo s.1 s.2)
      (fun _ h => h) ?_ ?_ _ (Kept.refl response resInfo) hcopy
    all_goals
      rintro ⟨p, i⟩ _ pf s' hp hbody
      dsimp only at hbody
      split at hbody
      · obtain ⟨body, -, hbody⟩ := bind_eq_ok.1 hbody
        obtain ⟨⟨p1, i1, ok1⟩, hadd, hbody⟩ := bind_eq_ok.1 hbody
        cases ok1 <;> cases hbody
        exact hp.trans (addField_kept hadd)
      · cases hbody <;> exact hp
  rcases hkept with ⟨⟨p1, i1⟩, rfl, hk⟩ | ⟨⟨p1, i1⟩, rfl, hk⟩
  · dsimp only at h
    split at h
    · cases h; exact hk
    obtain ⟨o, -, h⟩ := bind_eq_ok.1 h
    cases o with
    | none => cases h; exact hk
    | some x =>
      dsimp only at h
      split at h
      · cases h; exact hk
      obtain ⟨minEf, -, h⟩ := bind_eq_ok.1 h
      split at h
      · obtain ⟨plaintext, -, h⟩ := bind_eq_ok.1 h
        obtain ⟨⟨p2, i2, siv2, ok2⟩, hauth, h⟩ := bind_eq_ok.1 h
        cases h
        exact hk.trans (L2.AuthEf.generateAuthEf_kept hauth)
      · cases h; exact hk
  · cases h; exact hk

theorem length_header (params : ReferenceParams F) : (header params).length = 48 := by
  simp [header, buildServerResponse]

theorem authenticate_header {nts nts' : NtsServer C K} {reqBuf : NtpPacketBuf}
    {reqInfo : NtpPacketInfo} {packet packet' : Bytes} (hlen : packet.length = 48)
    (h : authenticate nts reqBuf reqInfo packet = .ok (nts', packet')) :
      packet'.take 48 = packet := by
  unfold authenticate at h
  obtain ⟨⟨nts1, ok, kod⟩, -, h⟩ := bind_eq_ok.1 h
  cases ok with
  | false => cases h; exact List.take_of_length_le (by omega)
  | true =>
    obtain ⟨respBuf, hcopy, h⟩ := bind_eq_ok.1 h
    obtain ⟨⟨nts2, respBuf', respInfo', ok⟩, hgen, h⟩ := bind_eq_ok.1 h
    cases ok with
    | false => cases h; exact List.take_of_length_le (by omega)
    | true =>
      obtain ⟨bytes, hslice, h⟩ := bind_eq_ok.1 h
      cases h
      have hk := generateResponseAuth_kept hgen
      have hlow := hk.length_le
      have hhigh := hk.end_le
      have hused := hk.used_eq
      have hinit := Buf.copyAt_take_end hcopy
      rw [show asI32 packet.length = 48 by rw [hlen]; rfl] at hlow hhigh hused
      dsimp only at hlow hhigh hused
      simp only [Nat.zero_add, List.take_zero, List.nil_append, hlen] at hinit
      obtain ⟨-, -, rfl⟩ := slice_eq_ok.1 hslice
      rw [List.drop_zero, List.take_take, asUsize_of_nonneg (by omega) (by omega),
        Nat.min_eq_left (by omega)]
      exact hused.trans hinit

/-- **What is sent** begins with the response that was built. -/
theorem transmitServerResponse_sent {sendMessage : Message A L → Int} {sockFd : Int}
    {requestData : Bytes} {remote : A} {localIp : L} {params : ReferenceParams F}
    {nts nts' : Option (NtsServer C K)} {sent : List (Message A L)}
    {ok : Bool} (h : transmitServerResponse sendMessage sockFd
      requestData remote localIp
      params nts = .ok (nts', sent, ok)) : ∀ msg ∈ sent, msg.packet.take 48 = header params := by
  have hlen := length_header params
  have hwhole : (header params).take 48 = header params := List.take_of_length_le (by omega)
  unfold transmitServerResponse at h
  split at h
  · cases h
    simp
  obtain ⟨⟨nts1, packet⟩, hresp, h⟩ := bind_eq_ok.1 h
  have hpacket : packet.take 48 = header params := by
    unfold ntsResponse at hresp
    cases nts with
    | none => cases hresp; exact hwhole
    | some nts =>
      obtain ⟨reqBuf, -, hresp⟩ := bind_eq_ok.1 hresp
      obtain ⟨info, -, hresp⟩ := bind_eq_ok.1 hresp
      cases info with
      | none => cases hresp; exact hwhole
      | some info =>
        dsimp only at hresp
        split at hresp
        · obtain ⟨⟨nts2, packet2⟩, hauth, hresp⟩ := bind_eq_ok.1 hresp
          cases hresp
          exact authenticate_header hlen hauth
        · cases hresp; exact hwhole
  dsimp only at h
  split at h
  · cases h
    simp
  · cases h
    simp [hpacket]

/-! ## Timestamps of the response -/

def seconds (ntp : UInt64) : UInt32 := (ntp >>> 32).toUInt32

theorem header_receive (params : ReferenceParams F) : ((header params).drop 32).take 4 =
    be32 (timespecToNtp64 F (ntp64ToTimespec params.rxTs)).1 := rfl

theorem header_transmit (params : ReferenceParams F) : ((header params).drop 40).take 4 =
    be32 (timespecToNtp64 F (ntp64ToTimespec params.txTs)).1 := rfl

theorem toNat_shiftRight_32 (ntp : UInt64) : (ntp >>> 32).toNat = (seconds ntp).toNat := by
  rw [seconds, UInt64.toNat_toUInt32, UInt64.toNat_shiftRight]
  have := ntp.toNat_lt
  rw [show (UInt64.toNat 32 % 64) = 32 from rfl, Nat.shiftRight_eq_div_pow]
  omega

/-- mirrors ntp/sample.rs:46-54 -/
def sampleTimespec (F : Type) [F64Math F] (ts : UInt64) : Server.Timespec :=
  if ts = 0 then ⟨0, 0⟩
  else ⟨((seconds ts).toNat : Int) - 0x83aa7e80,
    F64Math.toI64 (F64.div (F64.ofInt ts.toUInt32.toNat : F) (F64.lit (4294967296 / 1000000000)))⟩

/-- mirrors util.rs:37 -/
def ntpEraSplit : Int := 0

/-- `util::ntp64_to_timespec`. mirrors util.rs:484-496 -/
def utilTimespec (F : Type) [F64Math F] (hi lo : UInt32) (eraSplit : Int) : Server.Timespec :=
  if hi = 0 ∧ lo = 0 then ⟨0, 0⟩
  else
    let splitPlus := UInt32.ofNat ((eraSplit + 0x83aa7e80) % 2 ^ 32).toNat
    ⟨((hi - splitPlus).toNat : Int) + eraSplit,
      F64Math.toI64 (F64.div (F64.ofInt lo.toNat : F) (F64.lit (4294967296 / 1000000000)))⟩

end ChronyRs.L4.Transmit

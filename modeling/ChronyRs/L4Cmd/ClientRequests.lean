import ChronyRs.L4Cmd.Dispatch

/-!
# Requests of the client (`client.rs`, `chronyc-rs/src/main.rs`)

The builders of request bodies and of the header, and the datagram that `query_daemon_raw`
puts together: the header of 20 bytes, the body, and zeros up to the length that the daemon
expects.

* `Payload.encode_spec`: no builder panics, and the length of its body.
* `assemble_spec`: the length and the parts of a datagram.
* `assemble_accepted_iff`: the daemon accepts a datagram iff it knows a length for its command.
-/
namespace ChronyRs.L4.Cmd

open Layout (Field)

variable {F : Type} [WireFloat F]

/-! ## Builders -/

/-- mirrors client.rs:41-49 -/
def buildRequestHeader (command attempt : UInt16) (sequenceBe : Buf 4) (version : UInt8) : Bytes :=
  [version, 1, 0, 0] ++ beU16 command ++ beU16 attempt ++ sequenceBe.bytes ++ List.replicate 8 0

/-- mirrors client.rs:54-59 -/
def encodeModifyAddressIntRequest (ip : IPAddr) (value : Int32) : Rust (Buf 28) :=
  Layout.write 28 [⟨0, ip⟩, ⟨20, value⟩]

/-- mirrors client.rs:64-69 -/
def encodeModifyAddressFloatRequest (ip : IPAddr) (value : F) : Rust (Buf 28) :=
  Layout.write 28 [⟨0, ip⟩, flt 20 value]

/-- mirrors client.rs:73-80 -/
def encodeLocalRequest (onOff stratum : Int32) (distance : F) (orphan : Int32) : Rust (Buf 20) :=
  Layout.write 20 [⟨0, onOff⟩, ⟨4, stratum⟩, flt 8 distance, ⟨12, orphan⟩]

/-- mirrors client.rs:84-89 -/
def encodeAllowDenyRequest (ip : IPAddr) (subnetBits : Int32) : Rust (Buf 28) :=
  Layout.write 28 [⟨0, ip⟩, ⟨20, subnetBits⟩]

/-- mirrors client.rs:93-97 -/
def encodeAddressRequest (ip : IPAddr) : Rust (Buf 24) := Layout.write 24 [⟨0, ip⟩]

/-- mirrors client.rs:101-105 -/
def encodeFloatRequest (value : F) : Rust (Buf 8) := Layout.write 8 [flt 0 value]

/-- mirrors client.rs:111-115 -/
def encodeWordRequest (value : Int32) : Rust (Buf 8) := Layout.write 8 [⟨0, value⟩]

/-- mirrors client.rs:119-124 -/
def encodeMaskAddressRequest (mask address : IPAddr) : Rust (Buf 44) :=
  Layout.write 44 [⟨0, mask⟩, ⟨20, address⟩]

/-- mirrors client.rs:128-135 -/
def encodeBurstRequest (mask address : IPAddr) (nGood nTotal : Int32) : Rust (Buf 52) :=
  Layout.write 52 [⟨0, mask⟩, ⟨20, address⟩, ⟨40, nGood⟩, ⟨44, nTotal⟩]

/-- mirrors client.rs:139-144 -/
def encodeModifyMakestepRequest (limit : Int32) (threshold : F) : Rust (Buf 12) :=
  Layout.write 12 [⟨0, limit⟩, flt 4 threshold]

/-- mirrors client.rs:148-152 -/
def encodeReselectDistanceRequest (distance : F) : Rust (Buf 8) := Layout.write 8 [flt 0 distance]

/-- mirrors client.rs:156-160 -/
def encodeSmoothtimeRequest (option : Int32) : Rust (Buf 8) := Layout.write 8 [⟨0, option⟩]

/-- The inverse of `convertAddsrcSelectOptions` on the four options.
mirrors client.rs:196-203 -/
def convertAddsrcSelOptions (options : Int32) : UInt32 :=
  (if options &&& 0x2 ≠ 0 then 0x8 else 0) ||| (if options &&& 0x1 ≠ 0 then 0x10 else 0) |||
    (if options &&& 0x4 ≠ 0 then 0x20 else 0) ||| (if options &&& 0x8 ≠ 0 then 0x40 else 0)

/-- mirrors client.rs:167-174 -/
def encodeModifySelectoptsRequest (address : IPAddr) (refId : UInt32) (mask options : Int32) :
    Rust (Buf 36) :=
  Layout.write 36 [⟨0, address⟩, ⟨20, refId⟩, ⟨24, mask⟩, ⟨28, convertAddsrcSelOptions options⟩]

/-- mirrors client.rs:178-185 -/
def encodeSettimeRequest (t : Timespec) : Rust (Buf 16) := Layout.write 16 (timeFields 0 t)

/-- What `chronyc` packs into `add source`: the parameters and what the flags say.
mirrors client.rs:209-242 -/
structure AddSourceParams (F : Type) where
  params : SourceParameters F
  said : SourceFlags

/-- mirrors client.rs:262-271 -/
def SourceFlags.word (f : SourceFlags) : UInt32 :=
  (if f.connectivityOnline then 0x1 else 0) ||| (if f.autoOffline then 0x2 else 0) |||
    (if f.iburst then 0x4 else 0) ||| (if f.interleaved then 0x80 else 0) |||
    (if f.burst then 0x100 else 0) ||| (if f.nts then 0x200 else 0) |||
      (if f.copy then 0x400 else 0) |||
    (if f.extFields &&& 0x2 ≠ 0 then 0x800 else 0) |||
      (if f.extFields &&& 0x4 ≠ 0 then 0x1000 else 0) |||
    convertAddsrcSelOptions f.selOptions

/-- The name is zero-filled to 256 bytes. -/
def AddSourceParams.fields (p : AddSourceParams F) : List Field :=
  [⟨0, p.params.sourceType.code⟩, ⟨4, Buf.ofBytes 256 p.params.name⟩, ⟨260, p.params.port⟩,
    ⟨264, p.params.minpoll⟩, ⟨268, p.params.maxpoll⟩, ⟨272, p.params.presendMinpoll⟩,
    ⟨276, p.params.minStratum⟩, ⟨280, p.params.pollTarget⟩, ⟨284, p.params.version⟩,
    ⟨288, p.params.maxSources⟩, ⟨292, p.params.minSamples⟩, ⟨296, p.params.maxSamples⟩,
    ⟨300, p.params.authkey⟩, ⟨304, p.params.ntsPort⟩, flt 308 p.params.maxDelay,
    flt 312 p.params.maxDelayRatio, flt 316 p.params.maxDelayDevRatio, flt 320 p.params.minDelay,
    flt 324 p.params.asymmetry, flt 328 p.params.offset, ⟨332, p.said.word⟩,
    ⟨336, p.params.filterLength⟩, ⟨340, p.params.certSet⟩, flt 344 p.params.maxDelayQuant]

/-- A name that does not fit with its terminator is refused.
mirrors client.rs:249-304 -/
def encodeAddSourceRequest (p : AddSourceParams F) : Rust (Option (Buf 356)) :=
  if 256 ≤ p.params.name.length then pure none
  else do
    let b ← Layout.write 356 p.fields
    pure (some b)

/-! ## Requests -/

/-- The parameters of a request, one kind for each builder. -/
inductive Payload (F : Type) where
  | plain
  | modifyInt (ip : IPAddr) (value : Int32)
  | modifyFloat (ip : IPAddr) (value : F)
  | loc (onOff stratum : Int32) (distance : F) (orphan : Int32)
  | allowDeny (ip : IPAddr) (subnetBits : Int32)
  | address (ip : IPAddr)
  | float (value : F)
  | word (value : Int32)
  | maskAddress (mask address : IPAddr)
  | burst (mask address : IPAddr) (nGood nTotal : Int32)
  | makestep (limit : Int32) (threshold : F)
  | reselectDistance (distance : F)
  | smoothtime (option : Int32)
  | selectopts (address : IPAddr) (refId : UInt32) (mask options : Int32)
  | settime (t : Timespec)
  | addSource (p : AddSourceParams F)

namespace Payload

/-- The commands that a builder is for, as `client.rs` and `chronyc` say.
mirrors chronyc-rs/main.rs:119-143, 156-760 -/
def commands : Payload F → List UInt16
  | plain =>
    [0, 1, 2, 6, 14, 16, 18, 20, 22, 24, 30, 33, 35, 36, 37, 39, 41, 43, 44, 48, 51, 53, 54,
    62, 63, 66, 70]
  | modifyInt _ _ => [4, 5, 45, 46]
  | modifyFloat _ _ => [7, 8, 9, 47]
  | loc _ _ _ _ => [56]
  | allowDeny _ _ => [17, 18, 19, 20, 21, 22, 23, 24]
  | address _ => [25, 26, 29]
  | float _ => [31, 32, 71]
  | word _ => [13, 15, 34, 40, 42, 57, 65, 67, 69]
  | maskAddress _ _ => [1, 2]
  | burst _ _ _ _ => [3]
  | makestep _ _ => [50]
  | reselectDistance _ => [49]
  | smoothtime _ => [52]
  | selectopts _ _ _ _ => [72]
  | settime _ => [11]
  | addSource _ => [64]

/-- The body of the request; `none` if the builder refuses the parameters. -/
def encode : Payload F → Rust (Option Bytes)
  | plain => pure (some [])
  | modifyInt ip value => do let b ← encodeModifyAddressIntRequest ip value; pure (some b.bytes)
  | modifyFloat ip value => do let b ← encodeModifyAddressFloatRequest ip value; pure (some b.bytes)
  | loc onOff stratum distance orphan => do
    let b ← encodeLocalRequest onOff stratum distance orphan
    pure (some b.bytes)
  | allowDeny ip bits => do let b ← encodeAllowDenyRequest ip bits; pure (some b.bytes)
  | address ip => do let b ← encodeAddressRequest ip; pure (some b.bytes)
  | float value => do let b ← encodeFloatRequest value; pure (some b.bytes)
  | word value => do let b ← encodeWordRequest value; pure (some b.bytes)
  | maskAddress mask addr => do let b ← encodeMaskAddressRequest mask addr; pure (some b.bytes)
  | burst mask addr nGood nTotal => do
    let b ← encodeBurstRequest mask addr nGood nTotal
    pure (some b.bytes)
  | makestep limit threshold =>
    do let b ← encodeModifyMakestepRequest limit threshold; pure (some b.bytes)
  | reselectDistance distance =>
    do let b ← encodeReselectDistanceRequest distance; pure (some b.bytes)
  | smoothtime option => do let b ← encodeSmoothtimeRequest option; pure (some b.bytes)
  | selectopts addr refId mask options => do
    let b ← encodeModifySelectoptsRequest addr refId mask options
    pure (some b.bytes)
  | settime t => do let b ← encodeSettimeRequest t; pure (some b.bytes)
  | addSource p => do let b ← encodeAddSourceRequest p; pure (b.map Buf.bytes)

def size : Payload F → Nat
  | plain => 0
  | modifyInt _ _ => 28
  | modifyFloat _ _ => 28
  | loc _ _ _ _ => 20
  | allowDeny _ _ => 28
  | address _ => 24
  | float _ => 8
  | word _ => 8
  | maskAddress _ _ => 44
  | burst _ _ _ _ => 52
  | makestep _ _ => 12
  | reselectDistance _ => 8
  | smoothtime _ => 8
  | selectopts _ _ _ _ => 36
  | settime _ => 16
  | addSource _ => 356

theorem write_spec {n : Nat} {fs : List Field} (h : Layout.inOrder n 0 fs = true) :
    ∃ o : Option Bytes, (do let b ← Layout.write n fs; pure (some b.bytes) : Rust (Option Bytes)) =
      .ok o ∧ ∀ body, o = some body → body.length = n := by
  obtain ⟨b, hb⟩ := Layout.write_returns h
  refine ⟨some b.bytes, by rw [hb]; rfl, ?_⟩
  rintro body ⟨⟩
  exact b.length_bytes

theorem encode_spec (p : Payload F) :
    ∃ o, p.encode = .ok o ∧ ∀ body, o = some body → body.length = p.size := by
  cases p with
  | plain => exact ⟨some [], rfl, by rintro body ⟨⟩; rfl⟩
  | addSource p =>
    rw [encode, encodeAddSourceRequest]
    split
    · exact ⟨none, rfl, nofun⟩
    · obtain ⟨b, hb⟩ := Layout.write_returns (show Layout.inOrder 356 0 p.fields = true from rfl)
      refine ⟨some b.bytes, by rw [hb]; rfl, ?_⟩
      rintro body ⟨⟩
      exact b.length_bytes
  | _ =>
    apply write_spec
    rfl

theorem length_of_encode {p : Payload F} {body : Bytes} (h : p.encode = .ok (some body)) :
    body.length = p.size := by
  obtain ⟨o, ho, hlen⟩ := p.encode_spec
  rw [h] at ho
  exact hlen body (Except.ok.inj ho).symm

omit [WireFloat F] in
theorem size_le (p : Payload F) : p.size ≤ 356 := by
  cases p <;> simp [size]

end Payload

/-- A request for a command that its builder is for. -/
structure Request (F : Type) where
  payload : Payload F
  command : UInt16
  command_mem : command ∈ payload.commands

/-- `request.resize(min_len.max(request.len()), 0)`. The client itself uses attempt 0 and the
sequence number 42.
mirrors chronyc-rs/main.rs:789-800 -/
def assemble (command attempt : UInt16) (sequenceBe : Buf 4) (body : Bytes) : Rust Bytes := do
  let request := buildRequestHeader command attempt sequenceBe 6 ++ body
  let expected ← commandLength 6 command
  let minLen := (max expected 28).toNat
  pure (request ++ List.replicate (max minLen request.length - request.length) 0)

theorem length_buildRequestHeader (command attempt : UInt16) (sequenceBe : Buf 4)
    (version : UInt8) : (buildRequestHeader command attempt sequenceBe version).length = 20 := by
  simp [buildRequestHeader, beU16]

/-- The parts of a datagram of a command that the length table has an entry for. -/
theorem assemble_spec {command : UInt16} (h : command < 73) (attempt : UInt16) (sequenceBe : Buf 4)
    (body : Bytes) : ∃ data, assemble command attempt sequenceBe body = .ok data ∧
      data.length = max (max (paddedLength command) 28) (20 + body.length) ∧
      data.take 4 = [6, 1, 0, 0] ∧ commandOf data = command ∧
      ∃ k, data.drop 20 = body ++ List.replicate k 0 := by
  have hhead := length_buildRequestHeader command attempt sequenceBe 6
  refine ⟨_, by rw [assemble, commandLength_of_supported h]; rfl, ?_, rfl, ?_, ?_⟩
  · simp only [List.length_append, List.length_replicate, hhead]
    omega
  · exact Codec.dec_enc command
  · rw [List.append_assoc, List.drop_left' hhead]
    exact ⟨_, rfl⟩

/-- The daemon accepts a datagram iff it knows a length for its command. -/
theorem assemble_accepted_iff {command : UInt16} {data body : Bytes} (h : command < 73)
    (hbody : body.length ≤ 840) (hlen : data.length = max (max (paddedLength command) 28)
      (20 + body.length))
    (hhead : data.take 4 = [6, 1, 0, 0]) (hcmd : commandOf data = command) :
    (∃ n, validate data = .ok (.valid n)) ↔ 0 < paddedLength command := by
  have hpad : paddedLength command ≤ 860 := paddedLength_le command
  constructor
  · rintro ⟨n, hn⟩
    rw [← hcmd]
    exact ((validate_eq_valid_iff (by omega) n).1 hn).1.supported
  · intro hpos
    refine ⟨_, (validate_eq_valid_iff (by omega) _).2
      ⟨⟨by omega, by omega, hhead, ?_, ?_, ?_⟩, rfl⟩⟩
    all_goals rw [hcmd]
    · exact h
    · exact hpos
    · omega

/-! ## What the daemon decodes -/

/-- The parameters that an arm of the dispatcher decodes. -/
inductive Decoded (F : Type) where
  | nothing
  | index (idx : Int32)
  | clientIndex (idx : UInt32)
  | params (p : Params F)
  | manual (option : Option ManualOption)
  | source (r : Option (AddSourceRequest F))
  | key (keyId : Option Int32)

/-- The decoder of an arm on the body that it gets, as in `Arm.run`. -/
def Arm.decoded (body : Bytes) : Arm → Rust (Decoded F)
  | .sourcestats | .ntpSourceName => do
    let idx ← decodeSourcestatsIndex body
    pure (.index idx)
  | .clientAccesses => do
    let idx ← Layout.readAt UInt32 body 0
    pure (.clientIndex idx)
  | .params d => do
    let p ← d.decode body
    pure (.params p)
  | .manual => pure (.manual (decodeManualOption (body.headD 0).toUInt32.toInt32))
  | .addSource => do
    let r ← decodeAddSource body
    pure (.source r)
  | .logon =>
    if 4 ≤ body.length then do
      let key ← slice body 0 4
      pure (.key (some (Codec.dec key.reverse)))
    else pure (.key none)
  | _ => pure .nothing

def Arm.hasDecoder : Arm → Bool
  | .sourcestats | .ntpSourceName | .clientAccesses | .params _ | .manual | .addSource | .logon =>
    true
  | _ => false

def SourceParameters.wired (p : SourceParameters F) : SourceParameters F :=
  { p with
    maxDelay := Cmd.wired p.maxDelay
    maxDelayRatio := Cmd.wired p.maxDelayRatio
    maxDelayDevRatio := Cmd.wired p.maxDelayDevRatio
    minDelay := Cmd.wired p.minDelay
    asymmetry := Cmd.wired p.asymmetry
    offset := Cmd.wired p.offset
    maxDelayQuant := Cmd.wired p.maxDelayQuant }

/-- The parameters of a request as an arm should decode them. -/
def Payload.expected (a : Arm) : Payload F → Decoded F
  | plain => .nothing
  | modifyInt ip value => .params (.addressInt ip value)
  | modifyFloat ip value => .params (.addressFloat ip (wired value))
  | loc onOff stratum distance orphan => .params (.loc onOff stratum (wired distance) orphan)
  | allowDeny ip bits => .params (.addressInt ip bits)
  | address ip => .params (.address ip)
  | float value => .params (.float (wired value))
  | word value =>
    match a with
    | .manual => .manual (decodeManualOption value)
    | .sourcestats | .ntpSourceName => .index value
    | .clientAccesses => .clientIndex value.toUInt32
    | _ => .params (.word value)
  | maskAddress mask addr => .params (.maskAddress mask addr)
  | burst mask addr nGood nTotal => .params (.burst mask addr nGood nTotal)
  | makestep limit threshold => .params (.makestep limit (wired threshold))
  | reselectDistance distance => .params (.float (wired distance))
  | smoothtime option => .params (.word option)
  | selectopts addr refId mask options => .params (.selectopts addr refId mask options)
  | settime _ => .nothing
  | addSource p => .source (some ⟨p.params.wired, p.said.word, p.said⟩)

end ChronyRs.L4.Cmd

import ChronyRs.L4Cmd.Wire

/-!
# Decoders of requests (`cmdmon.rs`)

Every decoder reads its fields at fixed offsets of the body and panics if the body ends
before a field does.

* `decode_returns_iff`: a decoder returns iff the body has a certain number of bytes. Only
  `decodeAddSource` also looks at the contents before it reads its last field.
-/
namespace ChronyRs.L4.Cmd

open Layout (readAt readAt_returns_iff)

variable {F : Type} [WireFloat F]

/-- `float_network_to_host` of the word at an offset. -/
def fltAt (body : Bytes) (off : Nat) : Rust F := do
  let w ← readAt UInt32 body off
  pure (WireFloat.networkToHost w)

/-- mirrors cmdmon.rs:727-731 -/
def decodeModifySourceInt (body : Bytes) : Rust (IPAddr × Int32) := do
  let addr ← readAt IPAddr body 0
  let value ← readAt Int32 body 20
  pure (addr, value)

/-- mirrors cmdmon.rs:735-740 -/
def decodeModifySourceFloat (body : Bytes) : Rust (IPAddr × F) := do
  let addr ← readAt IPAddr body 0
  let value ← fltAt body 20
  pure (addr, value)

/-- mirrors cmdmon.rs:746-753 -/
def decodeLocal (body : Bytes) : Rust (Int32 × Int32 × F × Int32) := do
  let onOff ← readAt Int32 body 0
  let stratum ← readAt Int32 body 4
  let distance ← fltAt body 8
  let orphan ← readAt Int32 body 12
  pure (onOff, stratum, distance, orphan)

/-- mirrors cmdmon.rs:759-763 -/
def decodeAllowDeny (body : Bytes) : Rust (IPAddr × Int32) := do
  let ip ← readAt IPAddr body 0
  let subnetBits ← readAt Int32 body 20
  pure (ip, subnetBits)

/-- mirrors cmdmon.rs:768-770 -/
def decodeAddressRequest (body : Bytes) : Rust IPAddr := readAt IPAddr body 0

/-- mirrors cmdmon.rs:774-776 -/
def decodeFloatRequest (body : Bytes) : Rust F := fltAt body 0

/-- mirrors cmdmon.rs:779-781 -/
def decodeManualDelete (body : Bytes) : Rust Int32 := readAt Int32 body 0

/-- mirrors cmdmon.rs:786-790 -/
def decodeMaskAddressRequest (body : Bytes) : Rust (IPAddr × IPAddr) := do
  let mask ← readAt IPAddr body 0
  let address ← readAt IPAddr body 20
  pure (mask, address)

/-- mirrors cmdmon.rs:794-800 -/
def decodeBurstRequest (body : Bytes) : Rust (IPAddr × IPAddr × Int32 × Int32) := do
  let mask ← readAt IPAddr body 0
  let address ← readAt IPAddr body 20
  let nGood ← readAt Int32 body 40
  let nTotal ← readAt Int32 body 44
  pure (mask, address, nGood, nTotal)

/-- mirrors cmdmon.rs:804-809 -/
def decodeModifyMakestepRequest (body : Bytes) : Rust (Int32 × F) := do
  let limit ← readAt Int32 body 0
  let threshold ← fltAt body 4
  pure (limit, threshold)

/-- mirrors cmdmon.rs:813-815 -/
def decodeReselectDistanceRequest (body : Bytes) : Rust F := fltAt body 0

/-- mirrors cmdmon.rs:819-821 -/
def decodeSmoothtimeRequest (body : Bytes) : Rust Int32 := readAt Int32 body 0

/-- The bits of `add source` flags that are select options.
mirrors cmdmon.rs:890-905 -/
def convertAddsrcSelectOptions (flags : UInt32) : Int32 :=
  (if flags &&& 0x8 ≠ 0 then 0x2 else 0) ||| (if flags &&& 0x10 ≠ 0 then 0x1 else 0) |||
    (if flags &&& 0x20 ≠ 0 then 0x4 else 0) ||| (if flags &&& 0x40 ≠ 0 then 0x8 else 0)

/-- mirrors cmdmon.rs:827-834 -/
def decodeModifySelectoptsRequest (body : Bytes) : Rust (IPAddr × UInt32 × Int32 × Int32) := do
  let address ← readAt IPAddr body 0
  let refId ← readAt UInt32 body 20
  let mask ← readAt Int32 body 24
  let options ← readAt UInt32 body 28
  pure (address, refId, mask, convertAddsrcSelectOptions options)

/-- mirrors cmdmon.rs:849-853 -/
inductive ManualOption where
  | disable | enable | reset
  deriving DecidableEq, Repr

/-- mirrors cmdmon.rs:857-864 -/
def decodeManualOption : Int32 → Option ManualOption
  | 0 => some .disable
  | 1 => some .enable
  | 2 => some .reset
  | _ => none

/-! ## `add source` -/

/-- mirrors cmdmon.rs:953-957 -/
inductive AddSourceType where
  | server | peer | pool
  deriving DecidableEq, Repr

def AddSourceType.code : AddSourceType → UInt32
  | .server => 1
  | .peer => 2
  | .pool => 3

/-- The parameters of a source, without those that follow from `flags`. The name is kept as
its bytes.
mirrors cmdmon.rs:913-948 -/
structure SourceParameters (F : Type) where
  sourceType : AddSourceType
  name : Bytes
  port : UInt32
  minpoll : Int32
  maxpoll : Int32
  presendMinpoll : Int32
  minStratum : UInt32
  pollTarget : UInt32
  version : UInt32
  maxSources : UInt32
  minSamples : Int32
  maxSamples : Int32
  authkey : UInt32
  ntsPort : UInt32
  maxDelay : F
  maxDelayRatio : F
  maxDelayDevRatio : F
  minDelay : F
  asymmetry : F
  offset : F
  filterLength : Int32
  certSet : UInt32
  maxDelayQuant : F

/-- What the flags of a source say. -/
structure SourceFlags where
  connectivityOnline : Bool
  autoOffline : Bool
  iburst : Bool
  interleaved : Bool
  burst : Bool
  nts : Bool
  copy : Bool
  extFields : UInt32
  selOptions : Int32
  deriving DecidableEq

/-- mirrors cmdmon.rs:913-948 -/
structure AddSourceRequest (F : Type) where
  params : SourceParameters F
  flags : UInt32
  said : SourceFlags

/-- mirrors cmdmon.rs:990-998, 1025-1033 -/
def SourceFlags.ofWord (flags : UInt32) : SourceFlags where
  connectivityOnline := flags &&& 0x1 ≠ 0
  autoOffline := flags &&& 0x2 ≠ 0
  iburst := flags &&& 0x4 ≠ 0
  interleaved := flags &&& 0x80 ≠ 0
  burst := flags &&& 0x100 ≠ 0
  nts := flags &&& 0x200 ≠ 0
  copy := flags &&& 0x400 ≠ 0
  extFields := (if flags &&& 0x800 ≠ 0 then 0x2 else 0) |||
    (if flags &&& 0x1000 ≠ 0 then 0x4 else 0)
  selOptions := convertAddsrcSelectOptions flags

/-- The fields behind the name, in the order in which they are read.
mirrors cmdmon.rs:989, 1000-1034 -/
def decodeSourceParameters (sourceType : AddSourceType) (name : Bytes) (body : Bytes) :
    Rust (AddSourceRequest F) := do
  let flags ← readAt UInt32 body 332
  let port ← readAt UInt32 body 260
  let minpoll ← readAt Int32 body 264
  let maxpoll ← readAt Int32 body 268
  let presendMinpoll ← readAt Int32 body 272
  let minStratum ← readAt UInt32 body 276
  let pollTarget ← readAt UInt32 body 280
  let version ← readAt UInt32 body 284
  let maxSources ← readAt UInt32 body 288
  let minSamples ← readAt Int32 body 292
  let maxSamples ← readAt Int32 body 296
  let authkey ← readAt UInt32 body 300
  let ntsPort ← readAt UInt32 body 304
  let maxDelay ← fltAt body 308
  let maxDelayRatio ← fltAt body 312
  let maxDelayDevRatio ← fltAt body 316
  let minDelay ← fltAt body 320
  let asymmetry ← fltAt body 324
  let offset ← fltAt body 328
  let filterLength ← readAt Int32 body 336
  let certSet ← readAt UInt32 body 340
  let maxDelayQuant ← fltAt body 344
  pure ⟨{ sourceType, name, port, minpoll, maxpoll, presendMinpoll, minStratum, pollTarget, version,
          maxSources, minSamples, maxSamples, authkey, ntsPort, maxDelay, maxDelayRatio,
          maxDelayDevRatio, minDelay, asymmetry, offset, filterLength, certSet, maxDelayQuant },
    flags, .ofWord flags⟩

def sourceTypeOf : UInt32 → Option AddSourceType
  | 1 => some .server
  | 2 => some .peer
  | 3 => some .pool
  | _ => none

/-- An unknown type and a name that is not terminated inside its 256 bytes are refused before
the other fields are read.
mirrors cmdmon.rs:969-1035 -/
def decodeAddSource (body : Bytes) : Rust (Option (AddSourceRequest F)) := do
  let code ← readAt UInt32 body 0
  match sourceTypeOf code with
  | none => pure none
  | some sourceType => do
    let nameField ← slice body 4 260
    let last ← index nameField 255
    if last ≠ 0 then pure none
    else do
      let r ← decodeSourceParameters sourceType (nameField.takeWhile (· ≠ 0)) body
      pure (some r)

/-! ## How much of the body is read -/

theorem fltAt_returns_iff (body : Bytes) (off : Nat) :
    (fltAt body off : Rust F).Returns ↔ off + 4 ≤ body.length :=
  (returns_bind_iff fun _ => ⟨_, rfl⟩).trans (readAt_returns_iff UInt32 body off)

/-- The decoders whose parameters the dispatcher reads and drops. -/
inductive Decoder where
  | loc | allowDeny | address | modifyInt | modifyFloat | makestep | reselectDistance | smoothtime
  | selectopts | burst | float | manualDelete | maskAddress
  deriving DecidableEq, Repr

/-- What they read. -/
inductive Params (F : Type) where
  | loc (onOff stratum : Int32) (distance : F) (orphan : Int32)
  | addressInt (ip : IPAddr) (value : Int32)
  | addressFloat (ip : IPAddr) (value : F)
  | address (ip : IPAddr)
  | makestep (limit : Int32) (threshold : F)
  | float (x : F)
  | word (x : Int32)
  | selectopts (address : IPAddr) (refId : UInt32) (mask options : Int32)
  | burst (mask address : IPAddr) (nGood nTotal : Int32)
  | maskAddress (mask address : IPAddr)

namespace Decoder

def decode (d : Decoder) (body : Bytes) : Rust (Params F) :=
  match d with
  | .loc => do let (a, b, c, d) ← decodeLocal body; pure (.loc a b c d)
  | .allowDeny => do let (a, b) ← decodeAllowDeny body; pure (.addressInt a b)
  | .address => do let a ← decodeAddressRequest body; pure (.address a)
  | .modifyInt => do let (a, b) ← decodeModifySourceInt body; pure (.addressInt a b)
  | .modifyFloat => do let (a, b) ← decodeModifySourceFloat body; pure (.addressFloat a b)
  | .makestep => do let (a, b) ← decodeModifyMakestepRequest body; pure (.makestep a b)
  | .reselectDistance => do let a ← decodeReselectDistanceRequest body; pure (.float a)
  | .smoothtime => do let a ← decodeSmoothtimeRequest body; pure (.word a)
  | .selectopts =>
    do let (a, b, c, d) ← decodeModifySelectoptsRequest body; pure (.selectopts a b c d)
  | .burst => do let (a, b, c, d) ← decodeBurstRequest body; pure (.burst a b c d)
  | .float => do let a ← decodeFloatRequest body; pure (.float a)
  | .manualDelete => do let a ← decodeManualDelete body; pure (.word a)
  | .maskAddress => do let (a, b) ← decodeMaskAddressRequest body; pure (.maskAddress a b)

/-- The end of the last field. -/
def size : Decoder → Nat
  | .loc => 16
  | .allowDeny => 24
  | .address => 20
  | .modifyInt => 24
  | .modifyFloat => 24
  | .makestep => 8
  | .reselectDistance => 4
  | .smoothtime => 4
  | .selectopts => 32
  | .burst => 48
  | .float => 4
  | .manualDelete => 4
  | .maskAddress => 40

/-- A decoder returns iff the body reaches the end of its last field. -/
theorem decode_returns_iff (d : Decoder) (body : Bytes) :
    (d.decode body : Rust (Params F)).Returns ↔ d.size ≤ body.length := by
  cases d
  all_goals
    simp only [decode, size, decodeLocal, decodeAllowDeny, decodeAddressRequest,
      decodeModifySourceInt,
      decodeModifySourceFloat, decodeModifyMakestepRequest, decodeReselectDistanceRequest,
      decodeSmoothtimeRequest, decodeModifySelectoptsRequest, decodeBurstRequest,
        decodeFloatRequest,
      decodeManualDelete, decodeMaskAddressRequest, bind_assoc, pure_bind, Rust.returns_bind_exists,
      Rust.returns_pure, and_true, exists_and_right, Rust.exists_ok, readAt_returns_iff,
      fltAt_returns_iff, size_ipAddr, size_int32, size_uint32]
  all_goals omega

end Decoder

/-- The parameters behind the name of `add source` end at 348. -/
theorem decodeSourceParameters_returns_iff (t : AddSourceType) (name body : Bytes) :
    (decodeSourceParameters t name body : Rust (AddSourceRequest F)).Returns ↔
      348 ≤ body.length := by
  unfold decodeSourceParameters
  simp only [Rust.returns_bind_exists, Rust.returns_pure, and_true, exists_and_right,
    Rust.exists_ok, readAt_returns_iff, fltAt_returns_iff, size_int32, size_uint32]
  omega

theorem name_of_decodeSourceParameters {t : AddSourceType} {name body : Bytes}
    {r : AddSourceRequest F}
    (h : decodeSourceParameters t name body = .ok r) : r.params.name = name := by
  unfold decodeSourceParameters at h
  repeat obtain ⟨_, -, h⟩ := bind_eq_ok.1 h
  cases h
  rfl

def firstWord (body : Bytes) : UInt32 := Codec.dec (body.take 4)

/-- A body that holds the name is decoded, unless it ends inside the parameters and neither its
type nor its name was refused before. -/
theorem decodeAddSource_returns_iff {body : Bytes} (h : 260 ≤ body.length) :
    (decodeAddSource body : Rust (Option (AddSourceRequest F))).Returns ↔
      sourceTypeOf (firstWord body) = none ∨ body[259]? ≠ some 0 ∨ 348 ≤ body.length := by
  have hcode : readAt UInt32 body 0 = .ok (firstWord body) :=
    Layout.readAt_eq_ok.2 ⟨by rw [size_uint32]; omega, rfl⟩
  have hlen : 255 < ((body.take 260).drop 4).length := by simp; omega
  have hlast : ((body.take 260).drop 4)[255] = body[259] := by simp
  unfold decodeAddSource
  rw [hcode, ok_bind]
  cases sourceTypeOf (firstWord body) with
  | none => exact iff_of_true ⟨_, rfl⟩ (.inl rfl)
  | some t =>
    dsimp only
    rw [slice_of_le (by decide) h, ok_bind, index_of_lt hlen, ok_bind, hlast,
      List.getElem?_eq_getElem (by omega)]
    by_cases h0 : body[259] = 0
    · rw [if_neg (not_not.2 h0)]
      refine (returns_bind_iff fun _ => ⟨_, rfl⟩).trans ?_
      rw [decodeSourceParameters_returns_iff]
      simp [h0]
    · rw [if_pos h0]
      exact iff_of_true ⟨_, rfl⟩ (.inr (.inl fun he => h0 (Option.some.inj he)))

/-- What is decoded has a known type and a name without zeros. -/
theorem of_decodeAddSource_some {body : Bytes} {r : AddSourceRequest F}
    (h : decodeAddSource body = .ok (some r)) :
    (∃ t, sourceTypeOf (firstWord body) = some t) ∧ ∀ x ∈ r.params.name, x ≠ 0 := by
  obtain ⟨code, hcode, h⟩ := bind_eq_ok.1 h
  have hword : firstWord body = code := (Layout.readAt_eq_ok.1 hcode).2
  rw [hword]
  cases ht : sourceTypeOf code with
  | none => rw [ht] at h; cases h
  | some t =>
    rw [ht] at h
    obtain ⟨nameField, -, h⟩ := bind_eq_ok.1 h
    obtain ⟨last, -, h⟩ := bind_eq_ok.1 h
    split at h
    · cases h
    obtain ⟨r', hr', h⟩ := bind_eq_ok.1 h
    cases h
    refine ⟨⟨t, rfl⟩, ?_⟩
    rw [name_of_decodeSourceParameters hr']
    intro x hx
    simpa using List.all_eq_true.1 List.all_takeWhile x hx

/-- The word of a known type has a leading zero, and ends in another byte. -/
theorem of_sourceTypeOf_some {a b c d : UInt8} {t : AddSourceType}
    (h : sourceTypeOf (Codec.dec [a, b, c, d]) = some t) : a = 0 ∧ d ≠ 0 := by
  have hcode : ((Codec.dec [a, b, c, d] : UInt32) = 1 ∨ (Codec.dec [a, b, c, d] : UInt32) = 2 ∨
      (Codec.dec [a, b, c, d] : UInt32) = 3) := by
    unfold sourceTypeOf at h
    split at h <;> simp_all
  have ha := a.toNat_lt
  have hb := b.toNat_lt
  have hc := c.toNat_lt
  have hd := d.toNat_lt
  have hnat : (Codec.dec [a, b, c, d] : UInt32).toNat =
      ((a.toNat * 2 ^ 8 + b.toNat) * 2 ^ 8 + c.toNat) * 2 ^ 8 + d.toNat := by
    simp only [Codec.dec, fromBe, List.foldl_cons, List.foldl_nil, UInt32.toNat_ofNat']
    omega
  have hle : (Codec.dec [a, b, c, d] : UInt32).toNat = 1 ∨
      (Codec.dec [a, b, c, d] : UInt32).toNat = 2 ∨
        (Codec.dec [a, b, c, d] : UInt32).toNat = 3 := by
    rcases hcode with h | h | h
    all_goals simp [h]
  rw [hnat] at hle
  refine ⟨UInt8.toNat_inj.1 ?_, fun h0 => ?_⟩
  · rw [UInt8.toNat_zero]
    omega
  · rw [h0, UInt8.toNat_zero] at hle
    omega

end ChronyRs.L4.Cmd

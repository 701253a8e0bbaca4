import ChronyRs.L1Encoding.Ext

/-!
# Packet decoding and first-pass validation (`ntp/packet.rs`, `ntp/parse.rs`)

`NtpPacket::decode` reads the 48-byte header; `parse_packet` checks length, leap
indicator and version and classifies what follows the header: nothing, an NTPv3
MAC (with the MS-SNTP forms), a crypto-NAK, NTPv4 extension fields, a trailing
MAC.

* `decode_returns`, `parsePacket_returns`: neither panics nor loops, on any input.
* `parsePacket_some`: the header checks and the five ways to accept a packet
  (`Parsed`); an NTPv4 packet is tiled by its fields, up to its end or to a MAC of
  20 to 24 bytes.
* `Parsed.mac`: only an NTPv1..3 MAC can reach past the packet buffer.
* `parsePacket_of_tiled`, `parsePacket_of_mac`: the converse for a packet tiled up to its end or to
  a MAC.
* `parsePacket_classified`: an NTPv4 packet is its fields and a trailer, and these decide its
  authentication mode.
-/
namespace ChronyRs.L1.Parse

open L1.Ext

/-! ## The header -/

/-- mirrors ntp/packet.rs:47-67 -/
inductive LeapIndicator where
  | noWarning | insertSecond | deleteSecond | unsynchronized
  deriving DecidableEq, Repr

def LeapIndicator.fromBits (bits : UInt8) : LeapIndicator :=
  if bits &&& 3 = 0 then .noWarning
  else if bits &&& 3 = 1 then .insertSecond
  else if bits &&& 3 = 2 then .deleteSecond
  else .unsynchronized

/-- mirrors ntp/packet.rs:102-132 -/
structure NtpPacket where
  leap : LeapIndicator
  version : UInt8
  mode : UInt8
  stratum : UInt8
  poll : Int
  precision : Int
  rootDelay : Nat
  rootDispersion : Nat
  referenceId : Bytes
  referenceTimestamp : Nat
  originTimestamp : Nat
  receiveTimestamp : Nat
  transmitTimestamp : Nat
  tail : Bytes
  deriving DecidableEq, Repr

inductive PacketError where
  | tooShort (got : Nat)
  deriving DecidableEq, Repr

/-- `b as i8`. -/
def asI8 (b : UInt8) : Int := Int.bmod b.toNat 256

/-- mirrors ntp/packet.rs:163-201 -/
def decode (buf : Bytes) : Rust (Except PacketError NtpPacket) := do
  if buf.length < 48 then return .error (.tooShort buf.length)
  let b0 ← index buf 0
  return .ok
    { leap := .fromBits (b0 >>> 6)
      version := (b0 >>> 3) &&& 7
      mode := b0 &&& 7
      stratum := ← index buf 1
      poll := asI8 (← index buf 2)
      precision := asI8 (← index buf 3)
      rootDelay := fromBe (← slice buf 4 8)
      rootDispersion := fromBe (← slice buf 8 12)
      referenceId := ← slice buf 12 16
      referenceTimestamp := fromBe (← slice buf 16 24)
      originTimestamp := fromBe (← slice buf 24 32)
      receiveTimestamp := fromBe (← slice buf 32 40)
      transmitTimestamp := fromBe (← slice buf 40 48)
      tail := ← slice buf 48 buf.length }

theorem slice_returns {b : Bytes} {lo hi : Nat} (h1 : lo ≤ hi) (h2 : hi ≤ b.length) :
    Rust.Returns (slice b lo hi) := ⟨_, slice_of_le h1 h2⟩

theorem decode_short {buf : Bytes} (h : buf.length < 48) :
    decode buf = .ok (.error (.tooShort buf.length)) := by
  unfold decode; rw [if_pos h]; rfl

/-- What the receive path reads of a decoded header. -/
theorem decode_long {buf : Bytes} (h : 48 ≤ buf.length) :
    ∃ d, decode buf = .ok (.ok d) ∧ d.mode = buf.getD 0 0 &&& 7 ∧
      d.receiveTimestamp = fromBe ((buf.take 40).drop 32) ∧
      d.transmitTimestamp = fromBe ((buf.take 48).drop 40) ∧ d.precision = asI8 (buf.getD 3 0) := by
  unfold decode
  rw [if_neg (by omega)]
  simp only [index_of_lt (b := buf) (i := 0) (by omega), index_of_lt (b := buf) (i := 1) (by omega),
    index_of_lt (b := buf) (i := 2) (by omega), index_of_lt (b := buf) (i := 3) (by omega),
    slice_of_le (show 4 ≤ 8 by omega) (show 8 ≤ buf.length by omega),
    slice_of_le (show 8 ≤ 12 by omega) (show 12 ≤ buf.length by omega),
    slice_of_le (show 12 ≤ 16 by omega) (show 16 ≤ buf.length by omega),
    slice_of_le (show 16 ≤ 24 by omega) (show 24 ≤ buf.length by omega),
    slice_of_le (show 24 ≤ 32 by omega) (show 32 ≤ buf.length by omega),
    slice_of_le (show 32 ≤ 40 by omega) (show 40 ≤ buf.length by omega),
    slice_of_le (show 40 ≤ 48 by omega) (show 48 ≤ buf.length by omega),
    slice_of_le (show 48 ≤ buf.length by omega) (show buf.length ≤ buf.length by omega), ok_bind,
    pure_eq]
  refine ⟨_, rfl, ?_, rfl, rfl, ?_⟩
  · simp [List.getD_eq_getElem?_getD, List.getElem?_eq_getElem (show 0 < buf.length by omega)]
  · simp [List.getD_eq_getElem?_getD, List.getElem?_eq_getElem (show 3 < buf.length by omega)]

theorem decode_returns (buf : Bytes) : Rust.Returns (decode buf) := by
  by_cases h : buf.length < 48
  · exact ⟨_, decode_short h⟩
  · obtain ⟨d, hd, -⟩ := decode_long (Nat.le_of_not_lt h)
    exact ⟨_, hd⟩

/-! ## `parse_packet` -/

/-- `NTP_AuthMode` on the wire: `NONE`, `SYMMETRIC`, `MSSNTP`, `MSSNTP_EXT`, `NTS`.
mirrors ntp/parse.rs:144-147 -/
def isNtsType (t : Int) : Bool := t = 0x0104 ∨ t = 0x0204 ∨ t = 0x0304 ∨ t = 0x0404

/-- mirrors ntp/parse.rs:52-54 -/
def isZeroData (bytes : Bytes) : Bool := bytes.all (· == 0)

/-- mirrors ntp/parse.rs:58-62 -/
def isExpEf (body : Bytes) (expectedBodyLength : Int) (magic : Nat) : Bool :=
  asI32 body.length = expectedBodyLength ∧ 4 ≤ body.length ∧ fromBe (body.take 4) = magic

/-- The closure `rd_u32`. mirrors ntp/parse.rs:102-105 -/
def rdU32 (data : Bytes) (o : Nat) : Rust UInt32 := do
  return UInt32.ofNat (fromBe [← index data o, ← index data (o + 1), ← index data (o + 2),
    ← index data (o + 3)])

/-- The `match ef.field_type` of the loop; `none` rejects the packet.
mirrors ntp/parse.rs:143-169 -/
def noteField (packet : NtpPacketBuf) (info : NtpPacketInfo) (ef : ParsedField) :
    Rust (Option NtpPacketInfo) := do
  if isNtsType ef.fieldType then return some { info with authMode := 4 }
  if ef.fieldType = 0xE001 ∨ ef.fieldType = 0xE002 then
    let body ← slice packet.bytes ef.bodyOffset (ef.bodyOffset + asUsize ef.bodyLength)
    if ef.fieldType = 0xE001 then
      if isExpEf body 24 0xF5BEDD9A then
        return some { info with extFieldFlags := info.extFieldFlags ||| 1 }
    else if isExpEf body 24 0x07AC2CEB then
      return some { info with extFieldFlags := info.extFieldFlags ||| 2 }
    return some info
  match efDispatch ef with
  | .unknownCritical => return none
  | .handled | .skip => return some info

/-- The field loop; returns where it stopped.
mirrors ntp/parse.rs:134-174 -/
def parseFields (packet : NtpPacketBuf) : Nat → NtpPacketInfo → Int →
    Rust (Option (NtpPacketInfo × Int))
  | 0, _, _ => .error .fuel
  | n + 1, info, parsed => do
    if ¬ info.length - parsed > 0 then return some (info, parsed)
    if 20 ≤ info.length - parsed ∧ info.length - parsed ≤ 24 then return some (info, parsed)
    match ← parseField packet info.length parsed with
    | none => return none
    | some ef =>
      match ← noteField packet info ef with
      | none => return none
      | some info =>
        parseFields packet n { info with extFields := info.extFields + 1 } (parsed + ef.length)

/-- The header fields of `info`, before anything behind the header is read. -/
def headerInfo (packet : NtpPacketBuf) (length : Int) : NtpPacketInfo :=
  { length, version := lvmToVersion packet.lvm, leap := ((packet.lvm >>> 6) &&& 3).toNat,
    mode := (packet.lvm &&& 7).toNat }

/-- `info` with a MAC of `remainder` bytes at `start`. -/
def withMac (info : NtpPacketInfo) (start : Int) (keyId : UInt32) : NtpPacketInfo :=
  { info with
    authMode := 1, macStart := start, macLength := info.length - start, macKeyId := keyId }

/-- NTPv3 and older: everything behind the header is a MAC.
mirrors ntp/parse.rs:108-123 -/
def parseMac3 (packet : NtpPacketBuf) (info : NtpPacketInfo) : Rust (Option NtpPacketInfo) := do
  if info.version = 3 ∧ info.macKeyId ≠ 0 then
    if info.macLength = 20 then
      if isZeroData (← slice packet.bytes 52 68) then return some { info with authMode := 2 }
    else if info.macLength = 72 then
      if isZeroData (← slice packet.bytes 56 120) then return some { info with authMode := 3 }
  return some info

/-- The NTPv4 fields and a MAC behind them.
mirrors ntp/parse.rs:134-187 -/
def parseV4 (packet : NtpPacketBuf) (info : NtpPacketInfo) : Rust (Option NtpPacketInfo) := do
  match ← parseFields packet (info.length.toNat + 1) info 48 with
  | none => return none
  | some (info, parsed) =>
    if info.length - parsed = 0 then return some info
    else if info.length - parsed ≥ 20 then
      return some (withMac info parsed (← rdU32 packet.bytes parsed.toNat))
    else return none

/-- mirrors ntp/parse.rs:66-188 -/
def parsePacket (packet : NtpPacketBuf) (length : Int) : Rust (Option NtpPacketInfo) := do
  if length < 48 ∨ length % 4 ≠ 0 then return none
  if (headerInfo packet length).leap = 3 then return none
  if (headerInfo packet length).version < 1 ∨ (headerInfo packet length).version > 4 then
    return none
  if length - 48 ≤ 0 then return some (headerInfo packet length)
  if (headerInfo packet length).version ≤ 3 then
    parseMac3 packet (withMac (headerInfo packet length) 48 (← rdU32 packet.bytes 48))
  else
    if length - 48 = 4 then
      if (← rdU32 packet.bytes 48) = 0 then return some (withMac (headerInfo packet length) 48 0)
    parseV4 packet (headerInfo packet length)

/-! ## One field -/

/-- What `noteField` may change of `info`: the flags and the authentication
mode. -/
structure SameHeader (i j : NtpPacketInfo) : Prop where
  length_eq : j.length = i.length
  version_eq : j.version = i.version
  leap_eq : j.leap = i.leap
  mode_eq : j.mode = i.mode
  macStart_eq : j.macStart = i.macStart
  macLength_eq : j.macLength = i.macLength
  macKeyId_eq : j.macKeyId = i.macKeyId

theorem SameHeader.refl (i : NtpPacketInfo) : SameHeader i i := ⟨rfl, rfl, rfl, rfl, rfl, rfl, rfl⟩

theorem SameHeader.trans {i j k : NtpPacketInfo} (h1 : SameHeader i j) (h2 : SameHeader j k) :
    SameHeader i k :=
  ⟨h2.1.trans h1.1, h2.2.trans h1.2, h2.3.trans h1.3, h2.4.trans h1.4, h2.5.trans h1.5,
    h2.6.trans h1.6, h2.7.trans h1.7⟩

variable {packet : NtpPacketBuf} {length start a b : Int} {pf : ParsedField}
  {info info' : NtpPacketInfo}
  {l : List (Int × ParsedField)}

theorem body_le (h : parseField packet length start = .ok (some pf)) :
    pf.bodyOffset + asUsize pf.bodyLength ≤ 1140 ∧ (asUsize pf.bodyLength : Int) = pf.bodyLength ∧
      (pf.bodyOffset : Int) + pf.bodyLength = start + pf.length := by
  obtain ⟨hf, h48, -, h1140, -⟩ := parseField_some h
  have := hf.length_ge; have := hf.end_le; have := hf.bodyOffset_eq; have := hf.bodyLength_eq
  rw [asUsize_of_nonneg (by omega) (by omega)]
  omega

theorem noteField_spec (h : parseField packet length start = .ok (some pf)) (info : NtpPacketInfo) :
    noteField packet info pf = .ok none ∨ ∃ info', noteField packet info pf = .ok (some info') ∧
      SameHeader info info' ∧ info'.extFields = info.extFields ∧
      info'.authMode = if isNtsType pf.fieldType then 4 else info.authMode := by
  unfold noteField
  by_cases h1 : isNtsType pf.fieldType = true
  · rw [if_pos h1]
    exact .inr ⟨_, rfl, ⟨rfl, rfl, rfl, rfl, rfl, rfl, rfl⟩, rfl, by rw [if_pos h1]⟩
  simp only [if_neg h1]
  by_cases h2 : pf.fieldType = 0xE001 ∨ pf.fieldType = 0xE002
  · rw [if_pos h2, slice_of_le (by omega) (by rw [packet.length_bytes]; exact (body_le h).1)]
    simp only [ok_bind]
    right
    split
    · split
      · exact ⟨_, rfl, ⟨rfl, rfl, rfl, rfl, rfl, rfl, rfl⟩, rfl, rfl⟩
      · exact ⟨_, rfl, SameHeader.refl _, rfl, rfl⟩
    · split
      · exact ⟨_, rfl, ⟨rfl, rfl, rfl, rfl, rfl, rfl, rfl⟩, rfl, rfl⟩
      · exact ⟨_, rfl, SameHeader.refl _, rfl, rfl⟩
  rw [if_neg h2]
  split
  · exact .inl rfl
  · exact .inr ⟨_, rfl, SameHeader.refl _, rfl, rfl⟩
  · exact .inr ⟨_, rfl, SameHeader.refl _, rfl, rfl⟩

/-- The loop body of `parse_packet` as a step over the packet's fields. -/
def noteBody (packet : NtpPacketBuf) (info : NtpPacketInfo) (_ : Int) (ef : ParsedField) :
    Rust (Flow NtpPacketInfo Unit) := do
  match ← noteField packet info ef with
  | none => return .ret ()
  | some info => return .next { info with extFields := info.extFields + 1 }

theorem noteBody_next (h : parseField packet length start = .ok (some pf)) {p : Int}
    (hn : noteBody packet info p pf = .ok (.next info')) :
    SameHeader info info' ∧ info'.extFields = info.extFields + 1 ∧
      info'.authMode = if isNtsType pf.fieldType then 4 else info.authMode := by
  unfold noteBody at hn
  rcases noteField_spec h info with h1 | ⟨i1, h1, hs, he, ha⟩
  · rw [h1] at hn; cases hn
  · rw [h1] at hn
    cases hn
    exact ⟨⟨hs.1, hs.2, hs.3, hs.4, hs.5, hs.6, hs.7⟩, by simp [he], ha⟩

theorem noteAll (h : (fields packet length).Path a l b)
    (hs : Walker.steps (noteBody packet) info l = .ok (.next info')) :
    SameHeader info info' ∧ info'.extFields = info.extFields + l.length ∧
      info'.authMode = if l.any (fun x => isNtsType x.2.fieldType) then 4 else info.authMode := by
  induction h generalizing info with
  | nil =>
    simp only [Walker.steps, Except.ok.injEq, Flow.next.injEq] at hs
    subst hs; exact ⟨SameHeader.refl _, by simp, by simp⟩
  | @cons a b r l hlt hp _ ih =>
    simp only [Walker.steps] at hs
    obtain ⟨f, hf, hs⟩ := bind_eq_ok.1 hs
    cases f with
    | ret _ => simp at hs
    | next i1 =>
      obtain ⟨h1, h2, h3⟩ := noteBody_next hp hf
      obtain ⟨g1, g2, g3⟩ := ih hs
      refine ⟨h1.trans g1, by rw [g2, h2]; simp; omega, ?_⟩
      rw [g3, h3, List.any_cons]
      by_cases hr : isNtsType r.fieldType = true
      · simp [hr]
      · rw [if_neg hr, Bool.eq_false_of_not_eq_true hr, Bool.false_or]

/-! ## The loop -/

/-- Where the loop stops: nothing left, or something of the size of a MAC. -/
def Stops (length b : Int) : Prop := length ≤ b ∨ (20 ≤ length - b ∧ length - b ≤ 24)

/-- The loop neither panics nor runs out of fuel; it stops behind the fields it
walked over, or rejects the packet. -/
theorem parseFields_ends (packet : NtpPacketBuf) (length : Int) :
    ∀ n (info : NtpPacketInfo) a, info.length = length → (length - a).toNat < n →
      ∃ l b info', (fields packet length).Path a l b ∧
        Walker.steps (noteBody packet) info l = .ok (.next info') ∧
        ((Stops length b ∧ parseFields packet n info a = .ok (some (info', b))) ∨
          parseFields packet n info a = .ok none) := by
  intro n
  induction n with
  | zero => intro _ _ _ h; omega
  | succ n ih =>
    intro info a hl hn
    unfold parseFields
    rw [hl]
    by_cases h1 : ¬ length - a > 0
    · rw [if_pos h1]
      exact ⟨[], a, info, .nil a, rfl, .inl ⟨.inl (by omega), rfl⟩⟩
    rw [if_neg h1]
    by_cases h2 : 20 ≤ length - a ∧ length - a ≤ 24
    · rw [if_pos h2]
      exact ⟨[], a, info, .nil a, rfl, .inl ⟨.inr h2, rfl⟩⟩
    rw [if_neg h2]
    obtain ⟨o, ho⟩ := parseField_returns packet length a
    rw [ho]
    cases o with
    | none => exact ⟨[], a, info, .nil a, rfl, .inr rfl⟩
    | some pf =>
      simp only [ok_bind]
      rcases noteField_spec ho info with hnf | ⟨i1, hnf, hs, he, ha⟩
      · rw [hnf]; exact ⟨[], a, info, .nil a, rfl, .inr rfl⟩
      · rw [hnf]
        simp only [ok_bind]
        have hlen := (parseField_some ho).1.length_ge
        obtain ⟨l, b, i2, g1, g2, g3⟩ := ih { i1 with extFields := i1.extFields + 1 }
          (a + pf.length) (by simpa [hl] using hs.length_eq) (by omega)
        refine ⟨(a, pf) :: l, b, i2, .cons (by show a < length; omega) ho g1, ?_, g3⟩
        have hb : noteBody packet info a pf =
            .ok (.next { i1 with extFields := i1.extFields + 1 }) := by
          simp [noteBody, hnf]
        rw [Walker.steps_cons_next _ hb]
        exact g2

/-- The loop along a path. An accepted field has more than 24 bytes left, so the
MAC test never cuts a path short. -/
theorem parseFields_path (h : (fields packet length).Path a l b)
    (hs : Walker.steps (noteBody packet) info l = .ok (.next info')) (hl : info.length = length)
    (hb : Stops length b) : ∀ n, parseFields packet (n + 1 + l.length) info a =
      .ok (some (info', b)) := by
  induction h generalizing info with
  | nil a =>
    intro n
    simp only [Walker.steps, Except.ok.injEq, Flow.next.injEq] at hs
    subst hs
    simp only [List.length_nil, Nat.add_zero, parseFields, hl]
    rcases hb with hb | hb
    · rw [if_pos (by omega)]; rfl
    · rw [if_neg (by omega), if_pos hb]; rfl
  | @cons a b r l hlt hp _ ih =>
    intro n
    have h24 := parseField_some hp
    simp only [Walker.steps] at hs
    obtain ⟨f, hf, hs⟩ := bind_eq_ok.1 hs
    cases f with
    | ret _ => simp at hs
    | next i1 =>
      have hsame := (noteBody_next hp hf).1
      unfold noteBody at hf
      obtain ⟨o, ho, hf⟩ := bind_eq_ok.1 hf
      cases o with
      | none => cases hf
      | some i2 =>
        cases hf
        rw [List.length_cons, ← Nat.add_assoc]
        unfold parseFields
        rw [hl, if_neg (by omega), if_neg (by omega)]
        have hp' : parseField packet length a = .ok (some r) := hp
        rw [hp']
        simp only [ok_bind, ho]
        exact ih hs (by simpa [hl] using hsame.length_eq) hb n

/-! ## Accepted packets -/

structure HeaderOk (packet : NtpPacketBuf) (length : Int) : Prop where
  length_ge : 48 ≤ length
  length_mod : length % 4 = 0
  leap_ne : (headerInfo packet length).leap ≠ 3
  version_ge : 1 ≤ lvmToVersion packet.lvm
  version_le : lvmToVersion packet.lvm ≤ 4

/-- The fields `l` fill bytes `48..b` and leave `info` behind. -/
structure Tiled (packet : NtpPacketBuf) (length : Int) (l : List (Int × ParsedField)) (b : Int)
    (info : NtpPacketInfo) : Prop where
  path : (fields packet length).Path 48 l b
  noted : Walker.steps (noteBody packet) (headerInfo packet length) l = .ok (.next info)

/-- Every way `parse_packet` accepts a packet. -/
inductive Parsed (packet : NtpPacketBuf) (length : Int) : NtpPacketInfo → Prop
  | plain (hl : length = 48) : Parsed packet length (headerInfo packet length)
  | mac3 {k : UInt32} {m : Int} (hv : lvmToVersion packet.lvm ≤ 3) (hl : 48 < length)
      (hk : rdU32 packet.bytes 48 = .ok k)
      (hm : m = 1 ∨ (m = 2 ∧ length = 68) ∨ (m = 3 ∧ length = 120)) :
      Parsed packet length { withMac (headerInfo packet length) 48 k with authMode := m }
  | cryptoNak (hv : lvmToVersion packet.lvm = 4) (hl : length = 52) :
      Parsed packet length (withMac (headerInfo packet length) 48 0)
  | fields {l : List (Int × ParsedField)} {info : NtpPacketInfo}
      (hv : lvmToVersion packet.lvm = 4) (hl : 48 < length)
        (ht : Tiled packet length l length info) :
      Parsed packet length info
  | fieldsMac {l : List (Int × ParsedField)} {b : Int} {info : NtpPacketInfo} {k : UInt32}
      (hv : lvmToVersion packet.lvm = 4) (ht : Tiled packet length l b info)
      (h20 : 20 ≤ length - b) (h24 : length - b ≤ 24) (hk : rdU32 packet.bytes b.toNat = .ok k) :
      Parsed packet length (withMac info b k)

theorem rdU32_returns {b : Bytes} {o : Nat} (h : o + 4 ≤ b.length) : Rust.Returns (rdU32 b o) := by
  unfold rdU32
  rw [index_of_lt (by omega), index_of_lt (by omega), index_of_lt (by omega),
    index_of_lt (by omega)]
  exact returns_ok _

theorem Tiled.header (h : Tiled packet length l b info) :
    SameHeader (headerInfo packet length) info := (noteAll h.path h.noted).1

/-- A packet with a field, or with a MAC behind the header, fits the buffer. -/
theorem Tiled.le (h : Tiled packet length l b info) (hb : b = 48 → length ≤ 1140) :
    48 ≤ b ∧ length ≤ 1140 := by
  have hle := h.path.le (fields_progress packet length)
  cases hp : h.path with
  | nil => exact ⟨Int.le_refl _, hb rfl⟩
  | cons _ hf _ => exact ⟨by omega, (parseField_some hf).2.2.2.1⟩

theorem parseMac3_spec (packet : NtpPacketBuf) (info : NtpPacketInfo) :
    ∃ m, parseMac3 packet info = .ok (some { info with authMode := m }) ∧
      (m = info.authMode ∨ (m = 2 ∧ info.macLength = 20) ∨ (m = 3 ∧ info.macLength = 72)) := by
  unfold parseMac3
  rw [slice_of_le (by omega) (by rw [packet.length_bytes]; omega),
    slice_of_le (by omega) (by rw [packet.length_bytes]; omega)]
  split
  · split
    · rw [ok_bind]
      split
      · exact ⟨2, rfl, .inr (.inl ⟨rfl, ‹_›⟩)⟩
      · exact ⟨_, rfl, .inl rfl⟩
    · split
      · rw [ok_bind]
        split
        · exact ⟨3, rfl, .inr (.inr ⟨rfl, ‹_›⟩)⟩
        · exact ⟨_, rfl, .inl rfl⟩
      · exact ⟨_, rfl, .inl rfl⟩
  · exact ⟨_, rfl, .inl rfl⟩

theorem parseV4_spec (hl : 48 < length) (hv : lvmToVersion packet.lvm = 4) :
    parseV4 packet (headerInfo packet length) = .ok none ∨
      ∃ info, parseV4 packet (headerInfo packet length) = .ok (some info) ∧
        Parsed packet length info := by
  obtain ⟨l, b, info, hp, hn, hr⟩ := parseFields_ends packet length
    (length.toNat + 1) (headerInfo packet length) 48 rfl (by omega)
  have ht : Tiled packet length l b info := ⟨hp, hn⟩
  unfold parseV4
  rcases hr with ⟨hs, hr⟩ | hr
  · have hb := fields_path_le hp (Int.le_of_lt hl)
    have hlen : info.length = length := ht.header.length_eq
    simp only [headerInfo] at hr ⊢
    rw [hr]
    simp only [ok_bind, hlen]
    by_cases h7 : length - b = 0
    · rw [if_pos h7]
      obtain rfl : b = length := by omega
      exact .inr ⟨_, rfl, .fields hv hl ht⟩
    · rw [if_neg h7]
      have hs' : 20 ≤ length - b ∧ length - b ≤ 24 := hs.resolve_left (by omega)
      have hle := ht.le (by omega)
      obtain ⟨k, hk⟩ := rdU32_returns (b := packet.bytes) (o := b.toNat)
        (by rw [packet.length_bytes]; omega)
      rw [if_pos (by omega), hk]
      exact .inr ⟨_, rfl, .fieldsMac hv ht hs'.1 hs'.2 hk⟩
  · simp only [headerInfo] at hr ⊢
    rw [hr]; exact .inl rfl

/-- **`parse_packet` returns on every buffer and length**, and accepts only what
`Parsed` lists. -/
theorem parsePacket_cases (packet : NtpPacketBuf) (length : Int) :
    parsePacket packet length = .ok none ∨ ∃ info, parsePacket packet length = .ok (some info) ∧
      HeaderOk packet length ∧ Parsed packet length info := by
  unfold parsePacket
  by_cases h1 : length < 48 ∨ length % 4 ≠ 0
  · rw [if_pos h1]; exact .inl rfl
  by_cases h2 : (headerInfo packet length).leap = 3
  · rw [if_neg h1, if_pos h2]; exact .inl rfl
  by_cases h3 : (headerInfo packet length).version < 1 ∨ (headerInfo packet length).version > 4
  · rw [if_neg h1, if_neg h2, if_pos h3]; exact .inl rfl
  rw [if_neg h1, if_neg h2, if_neg h3]
  simp only [headerInfo] at h3
  have hok : HeaderOk packet length := ⟨by omega, by omega, h2, by omega, by omega⟩
  by_cases h4 : length - 48 ≤ 0
  · rw [if_pos h4]; exact .inr ⟨_, rfl, hok, .plain (by omega)⟩
  rw [if_neg h4]
  obtain ⟨k, hk⟩ := rdU32_returns (b := packet.bytes) (o := 48) (by rw [packet.length_bytes]; omega)
  rw [hk]
  by_cases h5 : (headerInfo packet length).version ≤ 3
  · rw [if_pos h5]
    obtain ⟨m, hm, hc⟩ := parseMac3_spec packet (withMac (headerInfo packet length) 48 k)
    refine .inr ⟨_, hm, hok, .mac3 h5 (by omega) hk ?_⟩
    simp only [withMac, headerInfo] at hc
    omega
  · rw [if_neg h5]
    simp only [headerInfo] at h5
    have hv : lvmToVersion packet.lvm = 4 := by omega
    have h4' := parseV4_spec (show 48 < length by omega) hv
    have hacc : (∃ info, parseV4 packet (headerInfo packet length) = .ok (some info) ∧
        Parsed packet length info) → ∃ info, parseV4 packet (headerInfo packet length) =
        .ok (some info) ∧ HeaderOk packet length ∧ Parsed packet length info :=
      fun ⟨i, hi, hp⟩ => ⟨i, hi, hok, hp⟩
    split
    · rw [ok_bind]
      split
      · exact .inr ⟨_, rfl, hok, .cryptoNak hv (by omega)⟩
      · exact h4'.imp_right hacc
    · exact h4'.imp_right hacc

theorem parsePacket_some (h : parsePacket packet length = .ok (some info)) :
    HeaderOk packet length ∧ Parsed packet length info := by
  rcases parsePacket_cases packet length with h' | ⟨i, h', hp⟩
  · rw [h'] at h; cases h
  · rw [h'] at h; cases h; exact hp

theorem parsePacket_returns (packet : NtpPacketBuf) (length : Int) :
    Rust.Returns (parsePacket packet length) := by
  rcases parsePacket_cases packet length with h | ⟨i, h, -⟩
  · exact ⟨_, h⟩
  · exact ⟨_, h⟩

/-- What every accepted packet's `info` says of the header. -/
theorem Parsed.header (h : Parsed packet length info) : info.length = length ∧
      info.version = lvmToVersion packet.lvm ∧ info.mode = (packet.lvm &&& 7).toNat := by
  cases h with
  | plain => exact ⟨rfl, rfl, rfl⟩
  | mac3 => exact ⟨rfl, rfl, rfl⟩
  | cryptoNak => exact ⟨rfl, rfl, rfl⟩
  | fields _ _ ht => exact ⟨ht.header.length_eq, ht.header.version_eq, ht.header.mode_eq⟩
  | fieldsMac _ ht _ _ _ => exact ⟨ht.header.length_eq, ht.header.version_eq, ht.header.mode_eq⟩

/-- A MAC long enough to be checked ends at the packet's end, and only an NTPv1..3
packet can be longer than the buffer. -/
theorem Parsed.mac (h : Parsed packet length info) (hm : 20 ≤ info.macLength) :
    48 ≤ info.macStart ∧ info.macStart + info.macLength = length ∧
      (1140 < length → lvmToVersion packet.lvm ≤ 3 ∧ info.macStart = 48 ∧ info.authMode = 1) := by
  cases h with
  | plain => simp [headerInfo] at hm
  | mac3 hv hl _ hc =>
    simp only [withMac, headerInfo]
    refine ⟨Int.le_refl _, by omega, fun hlt => ⟨hv, trivial, by omega⟩⟩
  | cryptoNak _ hl => simp only [withMac, headerInfo, hl] at hm; omega
  | fields _ _ ht => rw [ht.header.macLength_eq] at hm; simp [headerInfo] at hm
  | fieldsMac _ ht h20 h24 _ =>
    have hle := ht.le (by omega)
    have hlen : _ = length := ht.header.length_eq
    simp only [withMac, hlen]
    exact ⟨hle.1, by omega, fun hlt => by omega⟩

/-- A packet longer than the buffer is only accepted as an NTPv1..3 packet with a MAC. -/
theorem Parsed.long (h : Parsed packet length info) (hl : 1140 < length) :
    20 ≤ info.macLength ∧ info.authMode = 1 := by
  have hmac : 20 ≤ info.macLength := by
    cases h with
    | plain => omega
    | mac3 => simp only [withMac, headerInfo]; omega
    | cryptoNak => omega
    | fields _ _ ht => have := ht.le (fun _ => by omega); omega
    | fieldsMac _ ht h20 h24 _ => have := ht.le (fun _ => by omega); omega
  exact ⟨hmac, ((h.mac hmac).2.2 hl).2.2⟩

/-- An NTPv4 packet whose fields reach its end or a MAC is accepted as such. -/
theorem parsePacket_of_stops (hok : HeaderOk packet length) (hv : lvmToVersion packet.lvm = 4)
    (hl : 52 < length) (ht : Tiled packet length l b info) (hs : Stops length b) :
    parsePacket packet length = if length - b = 0 then .ok (some info)
      else if length - b ≥ 20 then do return some (withMac info b (← rdU32 packet.bytes b.toNat))
      else .ok none := by
  obtain ⟨h48, hmod, hleap, -, -⟩ := hok
  have hlen : l.length ≤ (length - 48).toNat := ht.path.length_le (fields_progress packet length)
  have hrun := parseFields_path ht.path ht.noted rfl hs (length.toNat - l.length)
  rw [show length.toNat - l.length + 1 + l.length = length.toNat + 1 by omega] at hrun
  unfold parsePacket
  rw [if_neg (by omega), if_neg hleap, if_neg (by simp only [headerInfo]; omega), if_neg (by omega),
    if_neg (by simp only [headerInfo]; omega), if_neg (by omega)]
  unfold parseV4
  simp only [headerInfo] at hrun ⊢
  have hinfo : info.length = length := ht.header.length_eq
  rw [hrun]
  simp only [ok_bind, hinfo]
  rfl

/-- An NTPv4 packet whose fields end where it ends is accepted, unless a field is
critical and unknown. -/
theorem parsePacket_of_tiled (hok : HeaderOk packet length) (hv : lvmToVersion packet.lvm = 4)
    (hl : 52 < length) (ht : Tiled packet length l length info) :
    parsePacket packet length = .ok (some info) := by
  rw [parsePacket_of_stops hok hv hl ht (.inl (Int.le_refl length)), if_pos (Int.sub_self length)]

/-- So is one with a MAC behind its fields. -/
theorem parsePacket_of_mac {k : UInt32} (hok : HeaderOk packet length)
    (hv : lvmToVersion packet.lvm = 4) (hl : 52 < length) (ht : Tiled packet length l b info)
    (h20 : 20 ≤ length - b) (h24 : length - b ≤ 24) (hk : rdU32 packet.bytes b.toNat = .ok k) :
      parsePacket packet length = .ok (some (withMac info b k)) := by
  rw [parsePacket_of_stops hok hv hl ht (.inr ⟨h20, h24⟩), if_neg (by omega), if_pos h20, hk]
  rfl

theorem rdU32_be32 {data pre post : Bytes} {n : Nat} {k : UInt32}
    (h : data.take n = pre ++ be32 k ++ post) : rdU32 data pre.length = .ok k := by
  have hn : pre.length + 4 ≤ n := by
    have := congrArg List.length h
    simp at this
    omega
  have hget : ∀ i, i < 4 → data[pre.length + i]? = (be32 k)[i]? := by
    intro i hi
    rw [← List.getElem?_take_of_lt (show pre.length + i < n by omega), h, List.append_assoc,
      List.getElem?_append_right (by omega), Nat.add_sub_cancel_left,
      List.getElem?_append_left (by rw [be32_length]; exact hi)]
  unfold rdU32
  rw [← Nat.add_zero pre.length, index_eq_ok.2 (hget 0 (by omega)),
    index_eq_ok.2 (hget 1 (by omega)),
    index_eq_ok.2 (hget 2 (by omega)), index_eq_ok.2 (hget 3 (by omega))]
  have hk := fromBe_be32 k
  simp only [be32] at hk
  simp only [ok_bind, hk, UInt32.ofNat_toNat]
  rfl

/-! ## The classification of NTPv4 packets -/

/-- What stands behind the last field. -/
inductive Trailer (packet : NtpPacketBuf) (length : Int) (l : List (Int × ParsedField)) (b : Int)
    (info : NtpPacketInfo) : Prop
  | none (hb : b = length) (hmac : info.macStart = 0 ∧ info.macLength = 0)
      (hauth : info.authMode = if l.any (fun x => isNtsType x.2.fieldType) then 4 else 0)
  | mac (hb : info.macStart = b) (hend : info.macStart + info.macLength = length)
    (h20 : 20 ≤ info.macLength)
      (h24 : info.macLength ≤ 24) (hauth : info.authMode = 1)
  | cryptoNak (hl : l = []) (hb : info.macStart = b)
    (hend : info.macStart + info.macLength = length)
      (h4 : info.macLength = 4) (hzero : rdU32 packet.bytes 48 = .ok 0) (hauth : info.authMode = 1)

/-- Four bytes behind an NTPv4 header are a crypto-NAK or nothing that is accepted. -/
theorem parsePacket_four (hv : lvmToVersion packet.lvm = 4)
    (h : parsePacket packet 52 = .ok (some info)) : rdU32 packet.bytes 48 = .ok 0 := by
  obtain ⟨k, hk⟩ := rdU32_returns (b := packet.bytes) (o := 48) (by rw [packet.length_bytes]; omega)
  have hfields : parseV4 packet (headerInfo packet 52) = .ok none := by
    have hlen : (headerInfo packet 52).length = 52 := rfl
    have hfield : parseField packet (headerInfo packet 52).length 48 = .ok none := by
      unfold parseField
      rw [hlen, if_neg (by omega), if_neg (by simpa using hv), if_pos (by omega)]
      rfl
    unfold parseV4 parseFields
    rw [if_neg (by omega), if_neg (by omega), hfield]
    rfl
  unfold parsePacket at h
  rw [hk] at h ⊢
  by_cases h0 : k = 0
  · rw [h0]
  · exfalso
    split at h
    · cases h
    split at h
    · cases h
    split at h
    · cases h
    rw [if_neg (by omega), if_neg (by simp only [headerInfo, hv]; omega),
      if_pos (by omega), ok_bind, if_neg h0, hfields] at h
    cases h

/-- **Deterministic parsing.** `parse_packet` returns on every buffer and length. The bytes of an
accepted NTPv4 packet behind the header are tiled by the fields that `parse_field` accepts, as many
as it counts, and the rest is nothing, a MAC or a crypto-NAK, which with the types of the fields
gives the authentication mode. -/
theorem parsePacket_classified (packet : NtpPacketBuf) (length : Int) :
    Rust.Returns (parsePacket packet length) ∧
    ∀ info, parsePacket packet length = .ok (some info) → info.version = 4 →
      ∃ l b, (fields packet length).Path 48 l b ∧ info.extFields = l.length ∧
        Trailer packet length l b info := by
  refine ⟨parsePacket_returns packet length, fun info h hver => ?_⟩
  obtain ⟨-, hp⟩ := parsePacket_some h
  have hv : lvmToVersion packet.lvm = 4 := hp.header.2.1 ▸ hver
  cases hp with
  | plain hl => exact ⟨[], 48, .nil 48, rfl, .none hl.symm ⟨rfl, rfl⟩ rfl⟩
  | mac3 hv3 => omega
  | cryptoNak _ hl =>
    subst hl
    exact ⟨[], 48, .nil 48, rfl, .cryptoNak rfl rfl rfl rfl (parsePacket_four hv h) rfl⟩
  | @fields l _ _ _ ht =>
    obtain ⟨hs, hext, hauth⟩ := noteAll ht.path ht.noted
    refine ⟨l, length, ht.path, by simpa [headerInfo] using hext,
      .none rfl ⟨hs.macStart_eq, hs.macLength_eq⟩ ?_⟩
    simpa [headerInfo] using hauth
  | @fieldsMac l b i k _ ht h20 h24 hk =>
    obtain ⟨hs, hext, -⟩ := noteAll ht.path ht.noted
    have hlen : i.length = length := hs.length_eq
    refine ⟨l, b, ht.path, by simpa [headerInfo, withMac] using hext, .mac rfl ?_ ?_ ?_ rfl⟩
    · simp only [withMac, hlen]; omega
    · simp only [withMac, hlen]; omega
    · simp only [withMac, hlen]; omega

def uniqueIdPacket : NtpPacketBuf :=
  Buf.ofBytes 1140 (0x23 :: List.replicate 47 0 ++ encField 0x0104 (List.replicate 32 7))

theorem parsePacket_classified_uniqueId : ∃ info, parsePacket uniqueIdPacket 84 = .ok (some info) ∧
    ∃ l b, (fields uniqueIdPacket 84).Path 48 l b ∧ info.extFields = l.length ∧
      Trailer uniqueIdPacket 84 l b info := by
  have hparse : parsePacket uniqueIdPacket 84 =
      .ok (some { length := 84, version := 4, mode := 3, extFields := 1, authMode := 4 }) := by
    decide +kernel
  exact ⟨_, hparse, (parsePacket_classified uniqueIdPacket 84).2 _ hparse rfl⟩

/-! ## Fields that are not critical -/

/-- No field that is known or not critical is refused. -/
theorem noteField_accepted (h : parseField packet length start = .ok (some pf))
    (hc : efDispatch pf ≠ .unknownCritical) (info : NtpPacketInfo) :
    ∃ info', noteField packet info pf = .ok (some info') := by
  rcases noteField_spec h info with hn | ⟨info', hs, -⟩
  · exfalso
    unfold noteField at hn
    split at hn
    · cases hn
    split at hn
    · obtain ⟨body, -, hn⟩ := bind_eq_ok.1 hn
      split at hn
      · split at hn <;> cases hn
      · split at hn <;> cases hn
    split at hn
    · exact hc ‹_›
    · cases hn
    · cases hn
  · exact ⟨info', hs⟩

theorem noteBody_accepted (h : (fields packet length).Path a l b)
    (hc : ∀ x ∈ l, efDispatch x.2 ≠ .unknownCritical) (info : NtpPacketInfo) :
    ∃ info', Walker.steps (noteBody packet) info l = .ok (.next info') := by
  induction h generalizing info with
  | nil => exact ⟨info, rfl⟩
  | @cons a b r l _ hp _ ih =>
    obtain ⟨i1, h1⟩ := noteField_accepted hp (hc _ List.mem_cons_self) info
    obtain ⟨i2, h2⟩ := ih (fun x hx => hc x (List.mem_cons_of_mem _ hx))
      { i1 with extFields := i1.extFields + 1 }
    have hb : noteBody packet info a r = .ok (.next { i1 with extFields := i1.extFields + 1 }) := by
      unfold noteBody
      rw [h1]
      rfl
    exact ⟨i2, (Walker.steps_cons_next _ hb).trans h2⟩

/-- And every field that is not refused is known or not critical. -/
theorem noteField_known (h : noteField packet info pf = .ok (some info')) :
    efDispatch pf ≠ .unknownCritical := by
  intro hc
  have hcrit : pf.fieldType / 0x8000 % 2 ≠ 0 ∧ pf.fieldType ≠ 0xE001 ∧ pf.fieldType ≠ 0xE002 := by
    unfold efDispatch at hc
    split at hc
    · cases hc
    split at hc
    · omega
    · cases hc
  unfold noteField at h
  split at h
  · rename_i hnts
    simp only [isNtsType, decide_eq_true_eq] at hnts
    omega
  split at h
  · omega
  rw [hc] at h
  cases h

theorem Tiled.known (h : Tiled packet length l b info) :
    ∀ x ∈ l, efDispatch x.2 ≠ .unknownCritical := by
  have hnone : ∀ x ∈ ([] : List (Int × ParsedField)), efDispatch x.2 ≠ .unknownCritical := by simp
  have :=
    Walker.steps_induct (fun l _ => ∀ x ∈ l, efDispatch x.2 ≠ .unknownCritical) ?_ hnone h.noted
  · simpa using this
  · intro l i p pf i' hl hbody x hx
    rcases List.mem_append.1 hx with hx | hx
    · exact hl x hx
    · cases List.mem_singleton.1 hx
      unfold noteBody at hbody
      obtain ⟨o, hnote, hbody⟩ := bind_eq_ok.1 hbody
      cases o with
      | none => cases hbody
      | some i1 => exact noteField_known hnote

end ChronyRs.L1.Parse

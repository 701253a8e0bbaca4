import ChronyRs.Core.Walk

/-!
# NTP extension fields (`ntp/ext.rs`)

A field is `[u16 type][u16 length][body]`, big-endian, 4-byte aligned, with
`length` counting the 4-byte header. `format_field` / `set_field` write one into
a buffer, `add_field` appends one to an NTPv4 packet, `parse_single_field` /
`parse_field` read one back.

The constants are those of `ntp.h`: `EF_HEADER_LEN` = 4, `NTP_HEADER_LENGTH` = 48,
`NTP_MIN_EF_LENGTH` = 16, `NTP_MAX_V4_MAC_LENGTH` = 24, `NTP_MAX_EXTENSIONS_LENGTH` =
1092, `NTP_PACKET_SIZE` = 1140.

Everything a reader of a packet of length `len` sees is `bytes.take len`, so the
results are about prefixes:

* `addField_ok`, `addField_fits`: `add_field` succeeds exactly when the field is
  aligned, at least 16 bytes long and fits; it then appends `encField` to the
  used prefix, and a failure leaves the used prefix as it was.
* `parseField_some`: what an accepted field satisfies; `parseField_returns`: no
  read leaves the buffer.
* `parseField_encField`: `parse_field` reads back what `add_field` wrote.
* `fieldPath_encFields`: a packet whose tail is a list of encoded fields is tiled
  by exactly these fields.
-/
namespace ChronyRs.L1.Ext

/-- A full on-wire message buffer: `sizeof(NTP_Packet)` bytes. -/
abbrev NtpPacketBuf := Buf 1140

/-- mirrors ntp/ext.rs:139-141 -/
def NtpPacketBuf.lvm (p : NtpPacketBuf) : UInt8 := p.bytes.getD 0 0

/-- `(lvm >> 3) & 7`. mirrors ntp/ext.rs:36-38 -/
def lvmToVersion (lvm : UInt8) : Int := ((lvm >>> 3) &&& 7).toNat

/-- mirrors ntp/ext.rs:42-49 -/
structure ParsedField where
  length : Int
  fieldType : Int
  bodyOffset : Nat
  bodyLength : Int
  deriving DecidableEq, Repr

/-- mirrors ntp/ext.rs:157-179 -/
structure NtpPacketInfo where
  length : Int := 0
  version : Int := 0
  leap : Int := 0
  mode : Int := 0
  extFields : Int := 0
  extFieldFlags : Nat := 0
  authMode : Int := 0
  macStart : Int := 0
  macLength : Int := 0
  macKeyId : UInt32 := 0
  deriving DecidableEq, Repr

variable {n : Nat}

/-- Write a field header at `start`; returns the total length and the body
offset. `start + 4 <= buffer_length` was checked, so only the additions of
`body_length` can overflow.
mirrors ntp/ext.rs:54-81 -/
def formatField (buffer : Buf n) (bufferLength start fieldType bodyLength : Int) :
    Rust (Option (Buf n × Int × Nat)) := do
  if bufferLength < 0 ∨ start < 0 ∨ bufferLength ≤ start ∨ bufferLength - start < 4 ∨
      start % 4 ≠ 0 then
    return none
  if bodyLength < 0 then return none
  let total ← i32 (4 + bodyLength)
  if total > 0xffff then return none
  let stop ← i32 (start + 4 + bodyLength)
  if stop > bufferLength ∨ bodyLength % 4 ≠ 0 then return none
  let s := start.toNat
  let buffer ← buffer.copyAt s (be16 fieldType)
  let buffer ← buffer.copyAt (s + 2) (be16 total)
  return some (buffer, total, s + 4)

/-- mirrors ntp/ext.rs:85-96 -/
def setField (buffer : Buf n) (bufferLength start fieldType : Int) (body : Bytes) :
    Rust (Buf n × Option Int) := do
  match ← formatField buffer bufferLength start fieldType (asI32 body.length) with
  | none => return (buffer, none)
  | some (buffer, length, bodyOff) => return (← buffer.copyAt bodyOff body, some length)

/-- mirrors ntp/ext.rs:99-118 -/
def parseSingleField (buffer : Bytes) (bufferLength start : Int) : Rust (Option ParsedField) := do
  if bufferLength < 0 ∨ start < 0 ∨ bufferLength ≤ start ∨ bufferLength - start < 4 then
    return none
  let s := start.toNat
  let efLength := fromBe16 (← index buffer (s + 2)) (← index buffer (s + 3))
  if efLength < 4 ∨ start + efLength > bufferLength ∨ efLength % 4 ≠ 0 then
    return none
  return some
    { length := efLength
      fieldType := fromBe16 (← index buffer s) (← index buffer (s + 1))
      bodyOffset := s + 4
      bodyLength := efLength - 4 }

/-- Append a header of `body_length` body bytes. A header shorter than the
minimum has been written behind `info.length` when it is refused.
mirrors ntp/ext.rs:183-205 -/
def addBlankField (packet : NtpPacketBuf) (info : NtpPacketInfo) (fieldType bodyLength : Int) :
    Rust (NtpPacketBuf × NtpPacketInfo × Option Nat) := do
  if ¬ (48 ≤ info.length ∧ info.length < 1140) ∨ info.length % 4 ≠ 0 then
    return (packet, info, none)
  if info.version ≠ 4 then return (packet, info, none)
  match ← formatField packet 1140 info.length fieldType bodyLength with
  | none => return (packet, info, none)
  | some (packet, efLength, bodyOff) =>
    if efLength < 16 then return (packet, info, none)
    return (packet, { info with length := info.length + efLength, extFields := info.extFields + 1 },
      some bodyOff)

/-- mirrors ntp/ext.rs:208-221 -/
def addField (packet : NtpPacketBuf) (info : NtpPacketInfo) (fieldType : Int) (body : Bytes) :
    Rust (NtpPacketBuf × NtpPacketInfo × Bool) := do
  match ← addBlankField packet info fieldType (asI32 body.length) with
  | (packet, info, some off) => return (← packet.copyAt off body, info, true)
  | (packet, info, none) => return (packet, info, false)

/-- mirrors ntp/ext.rs:226-248 -/
def parseField (packet : NtpPacketBuf) (packetLength start : Int) : Rust (Option ParsedField) := do
  if packetLength ≤ 48 ∨ packetLength > 1140 ∨ packetLength ≤ start ∨
      packetLength % 4 ≠ 0 ∨ start < 48 ∨ start % 4 ≠ 0 then
    return none
  if lvmToVersion packet.lvm ≠ 4 then return none
  if packetLength - start ≤ 24 then return none
  match ← parseSingleField packet.bytes packetLength start with
  | none => return none
  | some pf => if pf.length < 16 then return none else return some pf

/-- mirrors ntp/ext.rs:264-271 -/
inductive EfAction where
  | handled | unknownCritical | skip
  deriving DecidableEq, Repr

/-- mirrors ntp/ext.rs:250-259,279-308 -/
def efDispatch (parsed : ParsedField) : EfAction :=
  if parsed.fieldType = 1 ∨ parsed.fieldType = 2 ∨ parsed.fieldType = 3 ∨ parsed.fieldType = 4 ∨
      parsed.fieldType = 0xE001 ∨ parsed.fieldType = 0xE002 then .handled
  else if parsed.fieldType / 0x8000 % 2 ≠ 0 then .unknownCritical
  else .skip

/-! ## `parse_single_field` -/

/-- What an accepted header satisfies. -/
structure FieldAt (bufferLength start : Int) (pf : ParsedField) : Prop where
  start_nonneg : 0 ≤ start
  length_ge : 4 ≤ pf.length
  length_mod : pf.length % 4 = 0
  end_le : start + pf.length ≤ bufferLength
  bodyOffset_eq : (pf.bodyOffset : Int) = start + 4
  bodyLength_eq : pf.bodyLength = pf.length - 4
  type_nonneg : 0 ≤ pf.fieldType
  type_lt : pf.fieldType < 2 ^ 16

variable {buffer body : Bytes} {bufferLength start length t bodyLength bl : Int} {pf : ParsedField}
  {packet p p' : NtpPacketBuf} {off len : Nat} {i i' : NtpPacketInfo}

theorem parseSingleField_some (h : parseSingleField buffer bufferLength start = .ok (some pf)) :
    FieldAt bufferLength start pf := by
  unfold parseSingleField at h
  split at h
  · cases h
  rename_i h1
  simp only [bind_eq_ok] at h
  obtain ⟨a, -, b, -, h⟩ := h
  split at h
  · cases h
  rename_i h2
  simp only [bind_eq_ok] at h
  obtain ⟨c, -, d, -, h⟩ := h
  cases h
  have := fromBe16_range c d
  simp only [not_or, Int.not_lt, Int.not_le, Classical.not_not] at h1 h2
  obtain ⟨h3, h4, h5⟩ := h2
  exact ⟨h1.2.1, h3, h5, h4, by simp; omega, rfl, this.1, this.2⟩

theorem parseSingleField_returns (start : Int) (hb : bufferLength ≤ buffer.length) :
    Rust.Returns (parseSingleField buffer bufferLength start) := by
  unfold parseSingleField
  split
  · exact returns_ok _
  rename_i h1
  simp only [not_or, Int.not_lt, Int.not_le] at h1
  refine returns_bind (index_returns (by omega)) fun a _ => ?_
  refine returns_bind (index_returns (by omega)) fun b _ => ?_
  dsimp only
  split
  · exact returns_ok _
  refine returns_bind (index_returns (by omega)) fun c _ => ?_
  exact returns_bind (index_returns (by omega)) fun d _ => returns_ok _

/-! ## `parse_field` -/

theorem parseField_some {packetLength : Int} (h : parseField packet packetLength start =
    .ok (some pf)) :
    FieldAt packetLength start pf ∧ 48 ≤ start ∧ start % 4 = 0 ∧ packetLength ≤ 1140 ∧
      packetLength % 4 = 0 ∧ 24 < packetLength - start ∧ 16 ≤ pf.length ∧
      lvmToVersion packet.lvm = 4 ∧
      parseSingleField packet.bytes packetLength start = .ok (some pf) := by
  unfold parseField at h
  split at h
  · cases h
  rename_i h1
  split at h
  · cases h
  rename_i h2
  split at h
  · cases h
  rename_i h3
  obtain ⟨o, hs, h⟩ := bind_eq_ok.1 h
  cases o with
  | none => cases h
  | some q =>
    simp only at h
    split at h
    · cases h
    rename_i h4
    cases h
    have := parseSingleField_some hs
    simp only [not_or, Int.not_lt, Int.not_le, Classical.not_not] at h1 h2 h3 h4
    exact ⟨this, by omega, by omega, by omega, by omega, by omega, by omega, h2, hs⟩

/-- The same conditions, read the other way. -/
theorem parseField_of_single {packetLength : Int}
    (hs : parseSingleField packet.bytes packetLength start = .ok (some pf)) (h48 : 48 ≤ start)
    (hs4 : start % 4 = 0) (hle : packetLength ≤ 1140) (hl4 : packetLength % 4 = 0)
    (h24 : 24 < packetLength - start) (h16 : 16 ≤ pf.length) (hv : lvmToVersion packet.lvm = 4) :
    parseField packet packetLength start = .ok (some pf) := by
  unfold parseField
  have hend := (parseSingleField_some hs).end_le
  rw [if_neg (by omega), if_neg (by simpa using hv), if_neg (by omega), hs]
  simp only [ok_bind]
  rw [if_neg (by omega)]
  rfl

theorem parseField_returns (packet : NtpPacketBuf) (packetLength start : Int) :
    Rust.Returns (parseField packet packetLength start) := by
  unfold parseField
  split
  · exact returns_ok _
  rename_i h1
  simp only [not_or, Int.not_lt] at h1
  split
  · exact returns_ok _
  split
  · exact returns_ok _
  refine returns_bind (parseSingleField_returns _ (by rw [packet.length_bytes]; omega)) ?_
  intro o _
  cases o with
  | none => exact returns_ok _
  | some pf =>
    simp only
    split
    · exact returns_ok _
    · exact returns_ok _

/-! ## Walkers -/

/-- The fields of a packet of length `length`, as `parse_field` reads them. -/
def fields (packet : NtpPacketBuf) (length : Int) : Walker ParsedField :=
  ⟨parseField packet length, (·.length), length⟩

/-- The fields in the first `length` bytes of a buffer, as
`parse_single_field` reads them. -/
def singleFields (buffer : Bytes) (length : Int) : Walker ParsedField :=
  ⟨parseSingleField buffer length, (·.length), length⟩

theorem fields_progress (packet : NtpPacketBuf) (length : Int) :
    (fields packet length).Progress := by
  intro p r h
  have := (parseField_some h).1.length_ge
  show 1 ≤ r.length
  omega

theorem singleFields_progress (buffer : Bytes) (length : Int) :
    (singleFields buffer length).Progress := by
  intro p r h
  have := (parseSingleField_some h).length_ge
  show 1 ≤ r.length
  omega

/-- A walk that starts at or before the end never leaves `[a, length]`. -/
theorem fields_path_le {a b : Int} {l : List (Int × ParsedField)}
    (h : (fields packet length).Path a l b) (ha : a ≤ length) : b ≤ length := by
  induction h with
  | nil => exact ha
  | cons _ hp _ ih => exact ih (parseField_some hp).1.end_le

/-! ## Writing fields -/

def encField (fieldType : Int) (body : Bytes) : Bytes :=
  be16 fieldType ++ be16 (4 + body.length) ++ body

@[simp] theorem encField_length (t : Int) (body : Bytes) :
    (encField t body).length = 4 + body.length := by
  simp [encField]; omega

/-- A header that `format_field` accepts, and what it leaves in the buffer. -/
theorem formatField_some {b b' : Buf n} {total : Int}
    (h : formatField b bufferLength start t bodyLength = .ok (some (b', total, off))) :
    0 ≤ start ∧ start % 4 = 0 ∧ 0 ≤ bodyLength ∧ bodyLength % 4 = 0 ∧ total = 4 + bodyLength ∧
      total < 2 ^ 16 ∧ start + total ≤ bufferLength ∧ off = start.toNat + 4 ∧
      b'.bytes.take (start.toNat + 4) = b.bytes.take start.toNat ++ be16 t ++ be16 total := by
  unfold formatField at h
  split at h
  · cases h
  rename_i h1
  split at h
  · cases h
  rename_i h2
  obtain ⟨tot, ht, h⟩ := bind_eq_ok.1 h
  obtain ⟨rfl, -, -⟩ := i32_eq_ok ht
  split at h
  · cases h
  rename_i h3
  obtain ⟨stop, hs, h⟩ := bind_eq_ok.1 h
  obtain ⟨rfl, -, -⟩ := i32_eq_ok hs
  split at h
  · cases h
  rename_i h4
  obtain ⟨b1, hb1, h⟩ := bind_eq_ok.1 h
  obtain ⟨b2, hb2, h⟩ := bind_eq_ok.1 h
  cases h
  have e1 := Buf.copyAt_take_end hb1
  have e2 := Buf.copyAt_take_end hb2
  simp only [be16_length] at e1 e2
  rw [e1] at e2
  exact ⟨by omega, by omega, by omega, by omega, rfl, by omega, by omega, rfl, e2⟩

theorem formatField_fits (b : Buf n) (t : Int) (h0 : 0 ≤ start) (h4 : start % 4 = 0)
    (hb0 : 0 ≤ bodyLength) (hb4 : bodyLength % 4 = 0) (hfit : start + 4 + bodyLength ≤ bufferLength)
    (hn : bufferLength ≤ n) (hlt : bufferLength < 2 ^ 16) :
    ∃ b', formatField b bufferLength start t bodyLength =
      .ok (some (b', 4 + bodyLength, start.toNat + 4)) := by
  unfold formatField
  rw [if_neg (by omega), if_neg (by omega), i32_of_range (by omega) (by omega)]
  simp only [ok_bind]
  rw [if_neg (by omega), i32_of_range (by omega) (by omega)]
  simp only [ok_bind]
  rw [if_neg (by omega)]
  obtain ⟨b1, hb1, -⟩ := b.copyAt_of_le start.toNat (be16 t) (by simp; omega)
  obtain ⟨b2, hb2, -⟩ := b1.copyAt_of_le (start.toNat + 2) (be16 (4 + bodyLength))
    (by simp; omega)
  exact ⟨b2, by simp [hb1, hb2]⟩

/-- Lengths far below `i32::MAX` cannot make `format_field` panic. -/
theorem formatField_returns (b : Buf n) (start t : Int) (hn : bufferLength ≤ n)
    (hlt : bufferLength < 2 ^ 30) (hb : bodyLength < 2 ^ 30) :
    Rust.Returns (formatField b bufferLength start t bodyLength) := by
  unfold formatField
  split
  · exact returns_ok _
  split
  · exact returns_ok _
  rw [i32_of_range (by omega) (by omega), ok_bind]
  split
  · exact returns_ok _
  rw [i32_of_range (by omega) (by omega), ok_bind]
  split
  · exact returns_ok _
  obtain ⟨b1, hb1, -⟩ := b.copyAt_of_le start.toNat (be16 t) (by simp; omega)
  obtain ⟨b2, hb2, -⟩ := b1.copyAt_of_le (start.toNat + 2) (be16 (4 + bodyLength)) (by simp; omega)
  exact ⟨_, by simp only [hb1, hb2, ok_bind]; rfl⟩

/-! ## `add_field` -/

/-- `add_field` can append a body of `len` bytes. -/
structure Fits (info : NtpPacketInfo) (len : Nat) : Prop where
  length_ge : 48 ≤ info.length
  length_mod : info.length % 4 = 0
  version_eq : info.version = 4
  body_ge : 12 ≤ len
  body_mod : len % 4 = 0
  end_le : info.length + 4 + len ≤ 1140

/-- `info` after a field with `len` body bytes was appended. -/
def grown (info : NtpPacketInfo) (len : Nat) : NtpPacketInfo :=
  { info with length := info.length + (4 + len), extFields := info.extFields + 1 }

theorem addBlankField_some (hlen : len < 2 ^ 31)
    (h : addBlankField p i t (asI32 len) = .ok (p', i', some off)) :
    Fits i len ∧ i' = grown i len ∧ off = i.length.toNat + 4 ∧
      p'.bytes.take (i.length.toNat + 4) =
        p.bytes.take i.length.toNat ++ be16 t ++ be16 (4 + len) := by
  unfold addBlankField at h
  split at h
  · cases h
  rename_i h1
  split at h
  · cases h
  rename_i h2
  obtain ⟨o, hf, h⟩ := bind_eq_ok.1 h
  rw [asI32_of_lt hlen] at hf
  cases o with
  | none => cases h
  | some x =>
    obtain ⟨b', tot, o'⟩ := x
    obtain ⟨f1, f2, f3, f4, rfl, f6, f7, rfl, f9⟩ := formatField_some hf
    dsimp only at h
    split at h
    · cases h
    rename_i h3
    cases h
    exact ⟨⟨by omega, by omega, by simpa using h2, by omega, by omega, by omega⟩, rfl, rfl, f9⟩

theorem addBlankField_fits (p : NtpPacketBuf) (hf : Fits i len) :
    ∃ p', addBlankField p i t (asI32 len) = .ok (p', grown i len, some (i.length.toNat + 4)) := by
  obtain ⟨h1, h2, h3, h4, h5, h6⟩ := hf
  obtain ⟨b', hb'⟩ := formatField_fits p t (show 0 ≤ i.length by omega) h2
    (show 0 ≤ (len : Int) by omega) (by omega) (show i.length + 4 + len ≤ 1140 by omega) (by omega)
    (by omega)
  refine ⟨b', ?_⟩
  unfold addBlankField
  rw [asI32_of_lt (by omega), if_neg (by omega), if_neg (by omega), hb']
  simp only [ok_bind]
  rw [if_neg (by omega)]
  rfl

/-- An appended header is within the buffer, whatever the body length was. -/
theorem addBlankField_bounds (h : addBlankField p i t bl = .ok (p', i', some off)) :
    48 ≤ i.length ∧ i.length + 4 + bl ≤ 1140 ∧ i'.extFields = i.extFields + 1 := by
  unfold addBlankField at h
  split at h
  · cases h
  split at h
  · cases h
  obtain ⟨o, hf, h⟩ := bind_eq_ok.1 h
  cases o with
  | none => cases h
  | some x =>
    obtain ⟨b', tot, o'⟩ := x
    obtain ⟨-, -, -, -, rfl, -, hend, -, -⟩ := formatField_some hf
    dsimp only at h
    split at h
    · cases h
    cases h
    exact ⟨by omega, by omega, rfl⟩

theorem addBlankField_none (h : addBlankField p i t bl = .ok (p', i', none)) :
    i' = i ∧ p'.bytes.take i.length.toNat = p.bytes.take i.length.toNat := by
  unfold addBlankField at h
  split at h
  · cases h; exact ⟨rfl, rfl⟩
  rename_i h1
  split at h
  · cases h; exact ⟨rfl, rfl⟩
  obtain ⟨o, hf, h⟩ := bind_eq_ok.1 h
  cases o with
  | none => cases h; exact ⟨rfl, rfl⟩
  | some x =>
    obtain ⟨b', tot, o'⟩ := x
    dsimp only at h
    split at h
    · cases h
      obtain ⟨-, -, -, -, -, -, -, -, f9⟩ := formatField_some hf
      refine ⟨rfl, ?_⟩
      have := congrArg (List.take i.length.toNat) f9
      rwa [List.take_take, Nat.min_eq_left (by omega), List.append_assoc,
        List.take_append_of_le_length (by simp; omega), List.take_take, Nat.min_self] at this
    · cases h

/-- `add_blank_field` on a body length far below `i32::MAX`: it appends a header
exactly when the field fits. -/
theorem addBlankField_cases (p : NtpPacketBuf) (i : NtpPacketInfo) (t : Int) (hlen : len < 2 ^ 30) :
    (Fits i len ∧ ∃ p', addBlankField p i t len = .ok (p', grown i len, some (i.length.toNat + 4)) ∧
      p'.bytes.take (i.length.toNat + 4) = p.bytes.take i.length.toNat ++ be16 t ++
        be16 (4 + len)) ∨
    (¬ Fits i len ∧ ∃ p', addBlankField p i t len = .ok (p', i, none) ∧
      p'.bytes.take i.length.toNat = p.bytes.take i.length.toNat) := by
  have e : asI32 len = len := asI32_of_lt (by omega)
  by_cases hf : Fits i len
  · obtain ⟨p', hp⟩ := addBlankField_fits p (t := t) hf
    exact .inl ⟨hf, p', e ▸ hp, (addBlankField_some (by omega) hp).2.2.2⟩
  · have hret : Rust.Returns (addBlankField p i t (asI32 len)) := by
      unfold addBlankField
      split
      · exact returns_ok _
      split
      · exact returns_ok _
      have hsmall : asI32 len < 2 ^ 30 := by omega
      obtain ⟨o, ho⟩ := formatField_returns p i.length t
        (show (1140 : Int) ≤ (1140 : Nat) by omega) (by omega) hsmall
      rw [ho, ok_bind]
      cases o with
      | none => exact returns_ok _
      | some x => dsimp only; split <;> exact returns_ok _
    obtain ⟨⟨p', i', o⟩, hp⟩ := hret
    cases o with
    | some off => exact absurd (addBlankField_some (by omega) hp).1 hf
    | none =>
      obtain ⟨rfl, hpre⟩ := addBlankField_none hp
      exact .inr ⟨hf, p', e ▸ hp, hpre⟩

/-- **Append.** A field that `add_field` accepts fits, and is appended to the
used part of the packet. -/
theorem addField_ok (h : addField p i t body = .ok (p', i', true)) :
    Fits i body.length ∧ i' = grown i body.length ∧
      p'.bytes.take i'.length.toNat = p.bytes.take i.length.toNat ++ encField t body := by
  unfold addField at h
  obtain ⟨⟨p1, i1, o⟩, ha, h⟩ := bind_eq_ok.1 h
  cases o with
  | none => cases h
  | some off =>
    obtain ⟨p2, hc, h⟩ := bind_eq_ok.1 h
    cases h
    -- a longer body would not have fitted the buffer
    have hle := (Buf.copyAt_eq_ok hc).1
    obtain ⟨hf, rfl, rfl, e⟩ := addBlankField_some (by omega) ha
    refine ⟨hf, rfl, ?_⟩
    have e2 := Buf.copyAt_take_end hc
    have := hf.length_ge
    rw [e] at e2
    rw [show (grown i body.length).length.toNat = i.length.toNat + 4 + body.length by
      simp only [grown]; omega, e2]
    simp [encField]

theorem addField_fits (p : NtpPacketBuf) (hf : Fits i body.length) :
    ∃ p', addField p i t body = .ok (p', grown i body.length, true) := by
  obtain ⟨p1, h1⟩ := addBlankField_fits p (t := t) hf
  have := hf.length_ge; have := hf.end_le
  obtain ⟨p2, h2, -⟩ := p1.copyAt_of_le (i.length.toNat + 4) body (by omega)
  exact ⟨p2, by simp [addField, h1, h2]⟩

theorem addField_refused (h : addField p i t body = .ok (p', i', false)) :
    i' = i ∧ p'.bytes.take i.length.toNat = p.bytes.take i.length.toNat := by
  unfold addField at h
  obtain ⟨⟨p1, i1, o⟩, ha, h⟩ := bind_eq_ok.1 h
  cases o with
  | none => cases h; exact addBlankField_none ha
  | some off => obtain ⟨p2, -, h⟩ := bind_eq_ok.1 h; cases h

/-- What was in the packet is still there, and the packet is still within its buffer. -/
structure Kept (p : NtpPacketBuf) (i : NtpPacketInfo) (p' : NtpPacketBuf) (i' : NtpPacketInfo) :
    Prop where
  length_le : i.length ≤ i'.length
  end_le : i'.length ≤ max i.length 1140
  used_eq : p'.bytes.take i.length.toNat = p.bytes.take i.length.toNat

theorem Kept.refl (p : NtpPacketBuf) (i : NtpPacketInfo) : Kept p i p i :=
  ⟨Int.le_refl _, by omega, rfl⟩

theorem Kept.trans {p1 p2 : NtpPacketBuf} {i1 i2 : NtpPacketInfo} (h : Kept p i p1 i1)
    (h' : Kept p1 i1 p2 i2) : Kept p i p2 i2 := by
  have hle := h.length_le; have hend := h.end_le; have hend' := h'.end_le
  refine ⟨Int.le_trans hle h'.length_le, by omega, ?_⟩
  have := congrArg (List.take i.length.toNat) h'.used_eq
  rw [List.take_take, List.take_take, Nat.min_eq_left (by omega)] at this
  exact this.trans h.used_eq

/-- Whether or not `add_blank_field` appends, it keeps what was there. -/
theorem addBlankField_kept {o : Option Nat} (h : addBlankField p i t bl = .ok (p', i', o)) :
    Kept p i p' i' ∧ ∀ off, o = some off → off = i.length.toNat + 4 := by
  cases o with
  | none =>
    obtain ⟨rfl, e⟩ := addBlankField_none h
    exact ⟨⟨Int.le_refl _, by omega, e⟩, fun off h => by cases h⟩
  | some off =>
    unfold addBlankField at h
    split at h
    · cases h
    rename_i h48
    split at h
    · cases h
    obtain ⟨o, hf, h⟩ := bind_eq_ok.1 h
    cases o with
    | none => cases h
    | some x =>
      obtain ⟨b', tot, o'⟩ := x
      obtain ⟨-, -, hb0, -, htot, -, hend, hoff, hbytes⟩ := formatField_some hf
      dsimp only at h
      split at h
      · cases h
      cases h
      refine ⟨⟨by dsimp only; omega, by dsimp only; omega, ?_⟩, fun off h => by cases h; exact hoff⟩
      have := congrArg (List.take i.length.toNat) hbytes
      rwa [List.take_take, Nat.min_eq_left (by omega), List.append_assoc,
        List.take_append_of_le_length (by simp; omega), List.take_take, Nat.min_self] at this

theorem addField_kept {ok : Bool} (h : addField p i t body = .ok (p', i', ok)) :
    Kept p i p' i' := by
  cases ok with
  | false =>
    obtain ⟨rfl, e⟩ := addField_refused h
    exact ⟨Int.le_refl _, by omega, e⟩
  | true =>
    obtain ⟨hf, rfl, e⟩ := addField_ok h
    have h48 := hf.length_ge; have hend := hf.end_le
    refine ⟨by simp only [grown]; omega, by simp only [grown]; omega, ?_⟩
    have := congrArg (List.take i.length.toNat) e
    rwa [List.take_take, Nat.min_eq_left (by simp only [grown]; omega),
      List.take_append_of_le_length
      (by rw [List.length_take, p.length_bytes]; omega), List.take_take, Nat.min_self] at this

/-! ## Reading back what was written -/

/-- The record of a field with `len` body bytes at `start`. -/
def fieldRec (start : Nat) (t : Int) (len : Nat) : ParsedField :=
  { length := 4 + len, fieldType := t, bodyOffset := start + 4, bodyLength := len }

theorem parseSingleField_encField {pre post : Bytes}
    (hb : buffer.take bufferLength.toNat = pre ++ encField t body ++ post)
    (hl : bufferLength ≤ buffer.length) (ht0 : 0 ≤ t) (ht : t < 2 ^ 16) (h4 : body.length % 4 = 0)
    (hlen : 4 + body.length < 2 ^ 16) :
    parseSingleField buffer bufferLength pre.length =
      .ok (some (fieldRec pre.length t body.length)) := by
  have hlenb := congrArg List.length hb
  simp only [List.length_take, List.length_append, encField_length] at hlenb
  -- the four header bytes, read through the used prefix
  have hread : ∀ k, k < 4 → index buffer (pre.length + k) =
      index (be16 t ++ be16 (4 + body.length)) k := by
    intro k hk
    rw [← index_take (n := bufferLength.toNat) (by omega), hb, List.append_assoc,
      index_append_right]
    unfold index encField
    rw [List.append_assoc, List.getElem?_append_left (by simp; omega)]
  unfold parseSingleField
  rw [if_neg (by omega)]
  simp only [Int.toNat_natCast]
  rw [hread 2 (by omega), hread 3 (by omega), hread 1 (by omega)]
  have h0 := hread 0 (by omega)
  rw [Nat.add_zero] at h0
  rw [h0]
  simp only [be16, index, List.cons_append, List.nil_append, List.getElem?_cons_succ,
    List.getElem?_cons_zero, ok_bind]
  rw [fromBe16_be16 (by omega) (by omega), fromBe16_be16 ht0 ht, if_neg (by omega)]
  simp [fieldRec]

theorem parseField_encField {pre post : Bytes}
    (hb : packet.bytes.take length.toNat = pre ++ encField t body ++ post) (hl : length ≤ 1140)
    (hl4 : length % 4 = 0) (hpre : 48 ≤ pre.length) (hpre4 : pre.length % 4 = 0)
    (hv : lvmToVersion packet.lvm = 4) (ht0 : 0 ≤ t) (ht : t < 2 ^ 16) (h4 : body.length % 4 = 0)
    (h12 : 12 ≤ body.length) (h24 : 24 < 4 + body.length + post.length) :
    parseField packet length pre.length = .ok (some (fieldRec pre.length t body.length)) := by
  have hlenb := congrArg List.length hb
  simp only [List.length_take, List.length_append, encField_length, Buf.length_bytes] at hlenb
  refine parseField_of_single (parseSingleField_encField hb
    (by simpa using hl) ht0 ht h4 (by omega))
    (by omega) (by omega) hl hl4 (by omega) (by simp only [fieldRec]; omega) hv

def encFields (fs : List (Int × Bytes)) : Bytes := fs.flatMap fun f => encField f.1 f.2

@[simp] theorem encFields_nil : encFields [] = [] := rfl

@[simp] theorem encFields_cons (f : Int × Bytes) (fs : List (Int × Bytes)) :
    encFields (f :: fs) = encField f.1 f.2 ++ encFields fs := by
  simp [encFields]

theorem encFields_append (fs gs : List (Int × Bytes)) :
    encFields (fs ++ gs) = encFields fs ++ encFields gs := by
  simp [encFields]

/-- The records of a sequence of fields that starts at `off`. -/
def recs : Nat → List (Int × Bytes) → List (Int × ParsedField)
  | _, [] => []
  | off, f :: fs => ((off : Int), fieldRec off f.1 f.2.length) :: recs (off + (4 + f.2.length)) fs

/-- A field that `add_field` can write. -/
structure FieldOk (f : Int × Bytes) : Prop where
  type_nonneg : 0 ≤ f.1
  type_lt : f.1 < 2 ^ 16
  body_ge : 12 ≤ f.2.length
  body_mod : f.2.length % 4 = 0

theorem encFields_mod : ∀ {fs : List (Int × Bytes)}, (∀ f ∈ fs, FieldOk f) →
    (encFields fs).length % 4 = 0
  | [], _ => rfl
  | f :: fs, h => by
    have h1 := (h f List.mem_cons_self).body_mod
    have h2 := encFields_mod fun g hg => h g (List.mem_cons_of_mem _ hg)
    simp only [encFields_cons, List.length_append, encField_length]
    omega

/-- A walker that reads each field of `fs` at its offset walks over all of them. -/
theorem path_recs {w : Walker ParsedField} (hw : ∀ r, w.len r = r.length) :
    ∀ {fs : List (Int × Bytes)} {off : Nat},
      (∀ gs f hs, fs = gs ++ f :: hs →
        ((off + (encFields gs).length : Nat) : Int) < w.stop ∧
        w.parse (off + (encFields gs).length : Nat) =
          .ok (some (fieldRec (off + (encFields gs).length) f.1 f.2.length))) →
      w.Path off (recs off fs) (off + (encFields fs).length : Nat) := by
  intro fs
  induction fs with
  | nil => intro off _; simpa [recs] using Walker.Path.nil (w := w) off
  | cons f fs ih =>
    intro off h
    obtain ⟨hlt, hp⟩ := h [] f fs rfl
    simp only [encFields_nil, List.length_nil, Nat.add_zero] at hlt hp
    have hrest : w.Path (off + (4 + f.2.length) : Nat) (recs (off + (4 + f.2.length)) fs)
        (off + (4 + f.2.length) + (encFields fs).length : Nat) := by
      refine ih fun gs g hs e => ?_
      have := h (f :: gs) g hs (by rw [e]; rfl)
      simpa only [encFields_cons, List.length_append, encField_length, Nat.add_assoc] using this
    refine .cons hlt hp ?_
    rw [hw, encFields_cons, List.length_append, encField_length]
    simpa only [fieldRec, Nat.cast_add, Nat.cast_ofNat, Int.add_assoc] using hrest

/-- **Tiling.** A packet whose used part is `pre`, the fields `fs` and a rest is
tiled by `fs` from the end of `pre` on, provided that the last field is not
short enough to be taken for a MAC. -/
theorem fieldPath_encFields (hl : length ≤ 1140) (hl4 : length % 4 = 0)
    (hv : lvmToVersion packet.lvm = 4) (fs : List (Int × Bytes)) (pre post : Bytes)
    (hb : packet.bytes.take length.toNat = pre ++ encFields fs ++ post) (hpre : 48 ≤ pre.length)
    (hpre4 : pre.length % 4 = 0) (hok : ∀ f ∈ fs, FieldOk f)
    (hlast : ∀ f, fs.getLast? = some f → 24 < 4 + f.2.length + post.length) :
    (fields packet length).Path pre.length (recs pre.length fs)
      (pre.length + (encFields fs).length : Nat) := by
  refine path_recs (fun _ => rfl) fun gs f hs e => ?_
  subst e
  have hf := hok f (by simp)
  have hrest : 24 < 4 + f.2.length + (encFields hs ++ post).length := by
    cases hs with
    | nil => simpa using hlast f (by simp)
    | cons g hs =>
      have := (hok g (by simp)).body_ge
      have := hf.body_ge
      simp only [encFields_cons, List.length_append, encField_length]
      omega
  have hb' : packet.bytes.take length.toNat =
      (pre ++ encFields gs) ++ encField f.1 f.2 ++ (encFields hs ++ post) := by
    rw [hb]; simp [encFields_append, List.append_assoc]
  have hmod := @encFields_mod gs fun g hg => hok g (by simp [hg])
  have hp := parseField_encField hb' hl hl4 (by simp; omega) (by simp; omega) hv hf.type_nonneg
    hf.type_lt hf.body_mod hf.body_ge hrest
  have hlenb := congrArg List.length hb'
  simp only [List.length_take, List.length_append, encField_length, Buf.length_bytes] at hlenb
  rw [List.length_append] at hp
  exact ⟨by show _ < length; omega, hp⟩

end ChronyRs.L1.Ext

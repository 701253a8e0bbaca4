import ChronyRs.L3Nts.Wire
import Mathlib.Data.Nat.Bitwise

/-!
# Extension fields written and read (`ntp/ext.rs`, `ntp/parse.rs`)

Fields of 20 to 24 bytes may stand anywhere in a packet but at its end, where the parser would take
them for a MAC. As long as the last field has at least 28 bytes, every rest of the packet is longer
than a MAC, and what `add_field` appended is what `parse_packet` counts and `parse_field` returns.

* `addFields_holds`: accepted fields are the content of the packet.
* `field_round_trip`: they are read back.
-/
namespace ChronyRs.L3.Nts

open L1.Ext L1.Parse

/-- `add_field` for one pair after another, until one is refused. -/
def addFields : NtpPacketBuf → NtpPacketInfo → List (UInt16 × Bytes) →
    Rust (NtpPacketBuf × NtpPacketInfo × Bool)
  | packet, info, [] => return (packet, info, true)
  | packet, info, (t, body) :: fs => do
    let (packet, info, ok) ← addField packet info t.toNat body
    if ok then addFields packet info fs else return (packet, info, false)

def wire (fs : List (UInt16 × Bytes)) : List (Int × Bytes) :=
  fs.map fun f => ((f.1.toNat : Int), f.2)

/-- The type has the critical bit and is none of the types with it that are known. -/
def UnknownCritical (t : UInt16) : Prop := t &&& 0x8000 ≠ 0 ∧ t ≠ 0xE001 ∧ t ≠ 0xE002

instance (t : UInt16) : Decidable (UnknownCritical t) := inferInstanceAs (Decidable (_ ∧ _))

theorem and_critical (t : UInt16) : t &&& 0x8000 = 0 ↔ t.toNat / 0x8000 % 2 = 0 := by
  have hbit : t.toNat &&& 2 ^ 15 = (t.toNat.testBit 15).toNat * 2 ^ 15 := Nat.and_two_pow t.toNat 15
  rw [← UInt16.toNat_inj, UInt16.toNat_and]
  show t.toNat &&& 2 ^ 15 = 0 ↔ _
  rw [hbit, Nat.testBit_eq_decide_div_mod_eq]
  simp

/-- The dispatcher refuses exactly these types. -/
theorem efDispatch_eq_unknownCritical {pf : ParsedField} {t : UInt16}
    (ht : pf.fieldType = t.toNat) : efDispatch pf = .unknownCritical → UnknownCritical t := by
  intro h
  unfold efDispatch at h
  rw [ht] at h
  split at h
  · cases h
  rename_i hknown
  split at h
  · rename_i hbit
    refine ⟨fun h0 => hbit ?_, fun h1 => ?_, fun h2 => ?_⟩
    · have := (and_critical t).1 h0
      omega
    · rw [h1] at hknown
      exact hknown (by decide)
    · rw [h2] at hknown
      exact hknown (by decide)
  · cases h

variable {fs : List (UInt16 × Bytes)}

/-- None of these fields stops the parser. -/
theorem recs_wire_ne_unknownCritical (h : ∀ f ∈ fs, ¬ UnknownCritical f.1) {off : Nat} :
    ∀ x ∈ recs off (wire fs), efDispatch x.2 ≠ .unknownCritical := by
  intro x hx hu
  obtain ⟨f, hf, htype⟩ := mem_recs_type hx
  obtain ⟨g, hg, rfl⟩ := List.mem_map.1 hf
  exact h g hg (efDispatch_eq_unknownCritical htype hu)

variable {packet packet' : NtpPacketBuf} {info info' : NtpPacketInfo} {header : Bytes}

/-- Accepted fields are the content of the packet. -/
theorem addFields_holds :
    ∀ {packet : NtpPacketBuf} {info : NtpPacketInfo} {gs : List (Int × Bytes)},
      Holds packet info.length header gs →
      addFields packet info fs = .ok (packet', info', true) →
        Holds packet' info'.length header (gs ++ wire fs) := by
  induction fs with
  | nil =>
    intro packet info gs h hadd
    cases hadd
    simpa [wire] using h
  | cons f fs ih =>
    obtain ⟨t, body⟩ := f
    intro packet info gs h hadd
    obtain ⟨⟨p1, i1, ok⟩, hone, hrest⟩ := bind_eq_ok.1 hadd
    cases ok with
    | false => cases hrest
    | true =>
      have h1 := (h.add (Int.natCast_nonneg _) (by have := t.toNat_lt; omega) hone).1
      have h2 := ih h1 hrest
      simpa [wire] using h2

/-- The walk returns the pair `f` for the record `x`. -/
def Yields (packet : NtpPacketBuf) (x : Int × ParsedField) (f : UInt16 × Bytes) : Prop :=
  x.2.fieldType = f.1.toNat ∧ slice packet.bytes x.2.bodyOffset
    (x.2.bodyOffset + asUsize x.2.bodyLength) = .ok f.2

theorem Holds.yields {length : Int} :
    ∀ {gs : List (Int × Bytes)}, Holds packet length header (gs ++ wire fs) →
      List.Forall₂ (Yields packet) (recs (48 + (encFields gs).length) (wire fs)) fs := by
  induction fs with
  | nil => exact fun _ => .nil
  | cons f fs ih =>
    intro gs h
    have hrest : Holds packet length header (gs ++ [((f.1.toNat : Int), f.2)] ++ wire fs) := by
      simpa [wire] using h
    have htail := ih hrest
    rw [encFields_append, List.length_append, encFields_cons, encFields_nil, List.append_nil,
      encField_length, ← Nat.add_assoc] at htail
    exact .cons ⟨rfl, h.slice gs (wire fs) f.1.toNat f.2 _ rfl⟩ htail

/-- A packet of fields that are not critical, the last one too long for a MAC, is accepted. -/
theorem Holds.parseWire {length : Int} (h : Holds packet length header (wire fs)) (hne : fs ≠ [])
    (hv : lvmToVersion packet.lvm = 4) (hleap : (headerInfo packet length).leap ≠ 3)
    (hcrit : ∀ f ∈ fs, ¬ UnknownCritical f.1) (hlast : ∀ f, fs.getLast? = some f →
      28 ≤ 4 + f.2.length) :
    ∃ parsed, parsePacket packet length = .ok (some parsed) ∧
      SameHeader (headerInfo packet length) parsed ∧ parsed.extFields = fs.length ∧
      parsed.authMode =
        (if (recs 48 (wire fs)).any (fun x => isNtsType x.2.fieldType) then 4 else 0) ∧
      (fields packet length).Path 48 (recs 48 (wire fs)) length := by
  have hlast' : ∀ f, (wire fs).getLast? = some f → 20 < f.2.length := by
    intro f hf
    rw [wire, List.getLast?_map, Option.map_eq_some_iff] at hf
    obtain ⟨g, hg, rfl⟩ := hf
    have := hlast g hg
    dsimp only
    omega
  have hpath := h.path hv hlast'
  obtain ⟨parsed, hsteps⟩ := noteBody_accepted hpath (recs_wire_ne_unknownCritical hcrit)
    (headerInfo packet length)
  obtain ⟨hs, hext, hauth⟩ := noteAll hpath hsteps
  have hlong : 52 < length := by
    obtain ⟨f, fs', rfl⟩ := List.exists_cons_of_ne_nil hne
    have hf := (h.fields_ok _ List.mem_cons_self).body_ge
    have hl := h.length_eq
    rw [wire, List.map_cons, encFields_cons, List.length_append, encField_length] at hl
    dsimp only at hf hl
    omega
  have hmod := encFields_mod h.fields_ok
  have hlen := h.length_eq
  have hparse :=
    parsePacket_of_tiled ⟨by omega, by omega, hleap, by omega, by omega⟩ hv hlong ⟨hpath, hsteps⟩
  refine ⟨parsed, hparse, hs, ?_, ?_, hpath⟩
  · rw [hext, recs_length]
    simp [headerInfo, wire]
  · simpa [headerInfo] using hauth

/-- **Fields are read back.** The pairs that `add_field` accepts one after another on an NTPv4
header are counted by `parse_packet`, which sees no MAC, and returned by the walk with
`parse_field`, which ends with the packet. -/
theorem field_round_trip {fs : List (UInt16 × Bytes)} (hne : fs ≠ []) (hlen : info.length = 48)
    (hv : lvmToVersion packet.lvm = 4) (hleap : (headerInfo packet 48).leap ≠ 3)
    (hadd : addFields packet info fs = .ok (packet', info', true))
    (hcrit : ∀ f ∈ fs, ¬ UnknownCritical f.1)
    (hlast : ∀ f, fs.getLast? = some f → 28 ≤ 4 + f.2.length) :
    ∃ parsed l, parsePacket packet' info'.length = .ok (some parsed) ∧
      parsed.macStart = 0 ∧ parsed.macLength = 0 ∧ parsed.authMode ≠ 1 ∧
        parsed.extFields = fs.length ∧
      (fields packet' info'.length).Path 48 l info'.length ∧
        List.Forall₂ (Yields packet') l fs := by
  have hstart : Holds packet info.length (packet.bytes.take 48) [] := by
    rw [hlen]
    exact holds_header packet
  have h := addFields_holds hstart hadd
  rw [List.nil_append] at h
  have hlvm : packet'.lvm = packet.lvm := by rw [h.lvm, ← hstart.lvm]
  have hleap' : (headerInfo packet' info'.length).leap ≠ 3 := by
    simp only [headerInfo, hlvm] at hleap ⊢
    exact hleap
  obtain ⟨parsed, hparse, hs, hext, hauth, hpath⟩ := h.parseWire hne (hlvm ▸ hv) hleap' hcrit hlast
  refine ⟨parsed, recs 48 (wire fs), hparse, hs.macStart_eq, hs.macLength_eq, ?_, hext, hpath, ?_⟩
  · rw [hauth]
    split <;> decide
  · have hall : Holds packet' info'.length (packet.bytes.take 48) ([] ++ wire fs) := h
    exact hall.yields

/-- A field of 20 bytes, as long as a MAC, before one of 28 bytes. -/
theorem field_round_trip_two : ∃ (packet' : NtpPacketBuf) (info' parsed : NtpPacketInfo)
    (l : List (Int × ParsedField)),
    addFields (Buf.ofBytes 1140 [0x23]) { length := 48, version := 4 }
      [(0x0104, List.replicate 16 1), (0x4007, List.replicate 24 2)] = .ok (packet', info', true) ∧
    parsePacket packet' info'.length = .ok (some parsed) ∧
      parsed.macStart = 0 ∧ parsed.macLength = 0 ∧ parsed.authMode ≠ 1 ∧ parsed.extFields = 2 ∧
      (fields packet' info'.length).Path 48 l info'.length ∧
      List.Forall₂ (Yields packet') l [(0x0104, List.replicate 16 1),
        (0x4007, List.replicate 24 2)] := by
  obtain ⟨⟨packet', info', ok⟩, hadd, hok⟩ := exists_of_check (p := fun r => r.2.2)
    (x := addFields (Buf.ofBytes 1140 [0x23]) { length := 48, version := 4 }
      [(0x0104, List.replicate 16 1), (0x4007, List.replicate 24 2)]) (by decide +kernel)
  obtain rfl : ok = true := hok
  obtain ⟨parsed, l, h⟩ := field_round_trip (by decide) rfl (by decide +kernel)
    (by decide +kernel) hadd
    (by decide) (by decide)
  exact ⟨packet', info', parsed, l, hadd, h⟩

end ChronyRs.L3.Nts

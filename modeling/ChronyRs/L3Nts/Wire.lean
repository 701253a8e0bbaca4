import ChronyRs.L1Encoding.Parse
import ChronyRs.L2Auth.AuthEf

/-!
# NTS packets as lists of fields

`Holds packet length header fs`: the packet is a 48-byte header and the fields `fs`.
Appending to such a packet appends to the list (`Holds.add`, `Holds.seal`), and the
walkers of the receiving side see the list again (`Holds.path`, `Holds.slice`). So
what one side builds and the other checks can be compared as lists.
-/
namespace ChronyRs.L3.Nts

open L1.Ext L1.Parse L2 L2.AuthEf

/-! ## Lists of fields -/

theorem recs_length : ∀ (fs : List (Int × Bytes)) (off : Nat), (recs off fs).length = fs.length
  | [], _ => rfl
  | _ :: fs, off => by simp [recs, recs_length fs]

theorem mem_recs_type : ∀ {fs : List (Int × Bytes)} {off : Nat} {x : Int × ParsedField},
    x ∈ recs off fs → ∃ f ∈ fs, x.2.fieldType = f.1
  | f :: fs, off, x, h => by
    rcases List.mem_cons.1 h with rfl | h
    · exact ⟨f, List.mem_cons_self, rfl⟩
    · obtain ⟨g, hg, e⟩ := mem_recs_type h
      exact ⟨g, List.mem_cons_of_mem _ hg, e⟩

/-- The packet's used part is the header and the fields. -/
structure Holds (packet : NtpPacketBuf) (length : Int) (header : Bytes)
    (fs : List (Int × Bytes)) : Prop where
  header_length : header.length = 48
  bytes_eq : packet.bytes.take length.toNat = header ++ encFields fs
  length_eq : length = 48 + (encFields fs).length
  length_le : length ≤ 1140
  fields_ok : ∀ f ∈ fs, FieldOk f

theorem holds_header (packet : NtpPacketBuf) : Holds packet 48 (packet.bytes.take 48) [] :=
  ⟨by simp, by simp, by simp, by decide, by simp⟩

section
variable {packet packet' : NtpPacketBuf} {info info' : NtpPacketInfo} {length : Int}
  {header : Bytes}
  {fs : List (Int × Bytes)}

theorem Holds.used_length (h : Holds packet length header fs) :
    (header ++ encFields fs).length = length.toNat := by
  have h1 := h.header_length; have h2 := h.length_eq
  rw [List.length_append]; omega

theorem Holds.add (h : Holds packet info.length header fs) {t : Int} {body : Bytes} (ht0 : 0 ≤ t)
    (ht : t < 2 ^ 16) (ha : addField packet info t body = .ok (packet', info', true)) :
    Holds packet' info'.length header (fs ++ [(t, body)]) ∧ info' = grown info body.length := by
  obtain ⟨hf, rfl, hbytes⟩ := addField_ok ha
  have h1 := h.length_eq; have h2 := hf.end_le
  refine ⟨⟨h.header_length, ?_, ?_, ?_, ?_⟩, rfl⟩
  · rw [hbytes, h.bytes_eq, encFields_append, List.append_assoc]; simp
  · rw [encFields_append, List.length_append]
    simp only [grown, encFields_cons, encFields_nil, List.append_nil, encField_length]
    omega
  · simp only [grown]; omega
  · intro f hm
    rcases List.mem_append.1 hm with hm | hm
    · exact h.fields_ok f hm
    · cases List.mem_singleton.1 hm
      exact ⟨ht0, ht, hf.body_ge, hf.body_mod⟩

theorem Holds.lvm (h : Holds packet length header fs) : packet.lvm = header.getD 0 0 := by
  have h1 := h.length_eq; have h2 := h.header_length
  have : (packet.bytes.take length.toNat)[0]? = (header ++ encFields fs)[0]? := by rw [h.bytes_eq]
  rw [List.getElem?_take_of_lt (by omega), List.getElem?_append_left (by omega)] at this
  unfold NtpPacketBuf.lvm
  rw [List.getD_eq_getElem?_getD, this, List.getD_eq_getElem?_getD]

/-- The walk over the packet sees the list. -/
theorem Holds.path (h : Holds packet length header fs) (hv : lvmToVersion packet.lvm = 4)
    (hlast : ∀ f, fs.getLast? = some f → 20 < f.2.length) :
    (fields packet length).Path 48 (recs 48 fs) length := by
  have h1 := h.length_eq; have h2 := encFields_mod h.fields_ok
  have hp := fieldPath_encFields h.length_le (by omega) hv fs header []
    (by rw [h.bytes_eq, List.append_nil]) (by rw [h.header_length]) (by rw [h.header_length])
    h.fields_ok (fun f hf => by have := hlast f hf; simp only [List.length_nil]; omega)
  rw [h.header_length] at hp
  have hend : ((48 + (encFields fs).length : Nat) : Int) = length := by omega
  exact hend ▸ hp

theorem Holds.slice (gs hs : List (Int × Bytes)) (t : Int) (body : Bytes) (off : Nat)
    (h : Holds packet length header (gs ++ (t, body) :: hs))
    (hoff : off = 48 + (encFields gs).length) :
    slice packet.bytes (fieldRec off t body.length).bodyOffset
      ((fieldRec off t body.length).bodyOffset + asUsize (fieldRec off t body.length).bodyLength) =
        .ok body := by
  have h1 := h.length_eq; have h2 := h.length_le; have h3 := h.header_length
  have hsplit : header ++ encFields (gs ++ (t, body) :: hs) =
      (header ++ encFields gs ++ be16 t ++ be16 (4 + body.length)) ++ body ++ encFields hs := by
    simp only [encFields_append, encFields_cons, encField, List.append_assoc]
  have hlen := congrArg List.length hsplit
  rw [h.used_length] at hlen
  simp only [List.length_append, be16_length] at hlen
  have hoff' : off + 4 = (header ++ encFields gs ++ be16 t ++ be16 (4 + body.length)).length := by
    simp only [List.length_append, be16_length]; omega
  simp only [fieldRec]
  rw [asUsize_of_nonneg (by omega) (by omega), Int.toNat_natCast,
    slice_of_le (by omega) (by rw [packet.length_bytes]; omega),
    ← take_drop_take (show off + 4 + body.length ≤ length.toNat by omega), h.bytes_eq,
      hsplit, hoff',
    take_drop_append]

end

/-! ## The authenticator -/

section
variable {C : Type} [AesSiv C]

/-- The authenticator over `assoc` with a 16-byte nonce and no additional padding. -/
def authField (key : C) (nonce assoc plaintext : Bytes) : Int × Bytes :=
  (0x0404, authBody nonce (AesSiv.encryptMessage key nonce assoc plaintext) 0)

theorem authField_length {nonce : Bytes} (plaintext : Bytes) (key : C) (assoc : Bytes)
    (hn : nonce.length = 16) (hp : plaintext.length % 4 = 0) :
    (authField key nonce assoc plaintext).2.length = 36 + plaintext.length := by
  have h1 := authBody_length nonce (AesSiv.encryptMessage key nonce assoc plaintext) 0
  rw [hn, AesSiv.encryptMessage_length] at h1
  have h2 := padded_nat 16
  have h3 := padded_nat (plaintext.length + 16)
  simp only [authField]
  omega

variable {packet packet' : NtpPacketBuf} {info info' : NtpPacketInfo}
  {header nonce plaintext : Bytes}
  {fs : List (Int × Bytes)} {siv siv' : SivInstance C} {key : C} {ok : Bool}

variable (packet info siv) in
/-- `generate_auth_ef` with a 16-byte nonce and a minimum length that needs no padding. -/
theorem generateAuthEf_short (plaintext : Bytes) (minEf : Int) (hn : nonce.length = 16)
    (hp4 : plaintext.length % 4 = 0) (hp : plaintext.length < 2 ^ 15)
    (hmin : padded minEf ≤ 40 + plaintext.length) (hmin' : -2 ^ 16 < minEf) :
    (¬ Fits info (36 + plaintext.length) ∧ ∃ p,
      generateAuthEf packet info siv nonce 16 plaintext minEf = .ok (p, info, siv, false) ∧
        p.bytes.take info.length.toNat = packet.bytes.take info.length.toNat) ∨
    (Fits info (36 + plaintext.length) ∧ ∃ (out : Buf (16 + plaintext.length))
      (p : NtpPacketBuf), ∀ r,
      r = Siv.encrypt siv nonce (packet.bytes.take info.length.toNat) plaintext out →
      generateAuthEf packet info siv nonce 16 plaintext minEf =
          .ok (p, if r.ok then grown info (36 + plaintext.length) else info, r.siv, r.ok) ∧
        p.bytes.take info.length.toNat = packet.bytes.take info.length.toNat ∧
        (r.ok = true → p.bytes.take (grown info (36 + plaintext.length)).length.toNat =
          packet.bytes.take info.length.toNat ++ encField 0x0404
            (authBody nonce r.out.bytes 0))) := by
  have hm := padded_range (x := minEf)
  have h16 := padded_nat 16
  have hcl := padded_nat (16 + plaintext.length)
  have hextra : extraPadding (Siv.maxNonceLength siv) minEf 16 (16 + plaintext.length) = 0 := by
    unfold extraPadding
    rw [SivInstance.siv_maxNonceLength]
    omega
  have hnl : ((16 : Nat) : Int) = min 16 (Siv.maxNonceLength siv) := by
    rw [SivInstance.siv_maxNonceLength]; omega
  have hct : ((16 + plaintext.length : Nat) : Int) = Siv.tagLength siv + plaintext.length := by
    rw [SivInstance.siv_tagLength]; omega
  have hbody : ((36 + plaintext.length : Nat) : Int) =
      4 + padded (16 : Nat) + padded (16 + plaintext.length : Nat) + (0 : Nat) := by omega
  have hspec := generateAuthEf_spec packet info (by omega) hnl hct hextra.symm
    (show 16 ≤ nonce.length by omega) (by omega) (by omega) (by omega) (by omega) hmin' hbody
  rwa [List.take_of_length_le (show nonce.length ≤ 16 by omega)] at hspec

/-- `generate_auth_ef` with a keyed instance appends the authenticator if it fits. -/
theorem Holds.seal (plaintext : Bytes) (minEf : Int) (h : Holds packet info.length header fs)
    (hk : siv.ctx = some key) (hn : nonce.length = 16) (hp4 : plaintext.length % 4 = 0)
    (hp : plaintext.length < 2 ^ 15) (hmin : padded minEf ≤ 40 + plaintext.length)
    (hmin' : -2 ^ 16 < minEf) :
    (¬ Fits info (36 + plaintext.length) ∧
      ∃ p, generateAuthEf packet info siv nonce 16 plaintext minEf = .ok (p, info, siv, false)) ∨
    (Fits info (36 + plaintext.length) ∧
      ∃ p, generateAuthEf packet info siv nonce 16 plaintext minEf =
          .ok (p, grown info (36 + plaintext.length), siv, true) ∧
        Holds p (grown info (36 + plaintext.length)).length header
          (fs ++ [authField key nonce (header ++ encFields fs) plaintext])) := by
  rcases generateAuthEf_short packet info siv plaintext minEf hn hp4 hp hmin hmin' with
    ⟨hf, p, hg, -⟩ | ⟨hf, out, p, hg⟩
  · exact .inl ⟨hf, p, hg⟩
  · right
    obtain ⟨e1, -, e3⟩ := hg _ rfl
    rw [h.bytes_eq] at e1 e3
    have hused := h.used_length; have hle := h.length_le
    obtain ⟨hok, hout⟩ := SivInstance.lawful_encrypt hk nonce
      (header ++ encFields fs) plaintext (by omega) (by omega) (by omega)
      (n := 16 + plaintext.length) (by omega) (by omega) out
    rw [hok, SivInstance.encrypt_siv] at e1
    have hlen := authField_length plaintext key (header ++ encFields fs) hn hp4
    have hbytes := e3 hok
    rw [hout] at hbytes
    have h1 := h.length_eq; have h2 := hf.end_le
    refine ⟨hf, p, e1, h.header_length, ?_, ?_, ?_, ?_⟩
    · rw [hbytes, encFields_append, List.append_assoc]
      simp only [encFields_cons, encFields_nil, List.append_nil, authField]
    · rw [encFields_append, List.length_append]
      simp only [grown, encFields_cons, encFields_nil, List.append_nil, encField_length, hlen]
      omega
    · simp only [grown]; omega
    · intro f hm
      rcases List.mem_append.1 hm with hm | hm
      · exact h.fields_ok f hm
      · rw [List.mem_singleton.1 hm]
        exact ⟨by simp [authField], by simp [authField], by omega, by omega⟩

end

end ChronyRs.L3.Nts

import ChronyRs.Core.BigEndian
import ChronyRs.Core.Framing
import ChronyRs.Core.Walk

/-!
# NTS-KE records (`nts_ke_record.rs`)

A message is a run of records, each with a critical flag, a type of fifteen bits, and a body of up
to 65535 bytes behind its length; the last one is an empty critical record of type zero. `Message`
is the buffer the records are appended to and read from at a cursor.

`frames` is the grammar of the records, apart from the code: `getRecord_eq` says that the cursor
reads exactly it, so that every loop over a message is one over its frames.

* `forEach_eq`: a loop over the records of a message is the fold of its body over the frames.
* `message_framing`: what was added is read back; no byte is read outside a message; and the check
  accepts a message iff its last record is an empty critical End of Message and no other one is of
  that type.
* `loose_end_rejected`: it is not enough that no other record is an empty critical End of Message.
-/
namespace ChronyRs.L1.Ke

/-! ## The buffer -/

/-- mirrors nts_ke_record.rs:52-62 -/
structure KeRecord where
  critical : Bool
  recordType : Int
  bodyLength : Int
  body : Bytes
  deriving DecidableEq, Repr

/-- `data` holds exactly `length` bytes. mirrors nts_ke_record.rs:68-83 -/
structure Message where
  data : Bytes
  length : Nat
  sent : Nat
  parsed : Nat
  complete : Bool
  newMessage : Bool
  length_eq : data.length = length
  deriving DecidableEq, Repr

namespace Message

/-- mirrors nts_ke_record.rs:87-89 -/
def new : Message :=
  { data := [], length := 0, sent := 0, parsed := 0, complete := false, newMessage := false
    length_eq := List.length_nil }

/-- mirrors nts_ke_record.rs:93-102 -/
def fromReceived (bytes : Bytes) : Message :=
  { data := bytes, length := bytes.length, sent := 0, parsed := 0, complete := false
    newMessage := false, length_eq := rfl }

/-- The flag is whether the record was added.
mirrors nts_ke_record.rs:122-138 -/
def addRecord (m : Message) (critical : Bool) (recordType : Int) (body : Bytes) : Message × Bool :=
  if ¬ (0 ≤ recordType ∧ recordType ≤ 0x7fff) ∨ 0xffff < body.length ∨
    16384 < m.length + 4 + body.length then
    (m, false)
  else
    let typeField := (if critical then 0x8000 else 0) ||| recordType.toNat
    ({ m with
        data := m.data ++ (toBe 2 typeField ++ toBe 2 body.length ++ body)
        length := m.length + (4 + body.length)
        length_eq := by simp [m.length_eq]; omega }, true)

/-- mirrors nts_ke_record.rs:161-168 -/
def endMessage (m : Message) : Message × Bool :=
  let r := m.addRecord true 0 []
  if r.2 then ({ r.1 with complete := true }, true) else (r.1, false)

/-- mirrors nts_ke_record.rs:171-173 -/
def resetParsing (m : Message) : Message := { m with parsed := 0 }

/-- Slices are shorter than 2^63 bytes, so no sum of the code overflows.
mirrors nts_ke_record.rs:178-196 -/
def getRecord (bufferLength : Int) (m : Message) : Rust (Message × Option KeRecord) :=
  if m.length < m.parsed + 4 ∨ bufferLength < 0 then .ok (m, none)
  else do
    let h ← slice m.data m.parsed (m.parsed + 4)
    let typeRaw := fromBe (h.take 2)
    let blen := fromBe (h.drop 2)
    let rlen := 4 + blen
    if m.length < m.parsed + rlen then .ok (m, none)
    else do
      let critical := typeRaw &&& 0x8000 ≠ 0
      let recordType := typeRaw &&& 0x7fff
      let copy := min bufferLength.toNat blen
      let bodyOff := m.parsed + 4
      let body ← slice m.data bodyOff (bodyOff + copy)
      .ok ({ m with parsed := m.parsed + rlen }, some ⟨critical, recordType, blen, body⟩)

/-- mirrors nts_ke_record.rs:241-246 -/
def nextRecord (bufferLength : Int) (m : Message) : Rust (Message × Option KeRecord) := do
  let g ← m.getRecord bufferLength
  match g.2 with
  | some rec => if rec.recordType ≠ 0 then .ok (g.1, some rec) else .ok (g.1, none)
  | none => .ok (g.1, none)

end Message

/-- `while let Some(rec) = get() { body }`, where the body may leave the loop. -/
def forEach {σ β : Type} (get : Message → Rust (Message × Option KeRecord))
    (body : σ → KeRecord → Rust (Flow σ β)) : Nat → Message → σ → Rust (Message × Flow σ β)
  | 0, _, _ => .error .fuel
  | n + 1, m, s => do
    let g ← get m
    match g.2 with
    | none => .ok (g.1, .next s)
    | some rec => do
      let f ← body s rec
      match f with
      | .next s' => forEach get body n g.1 s'
      | .ret b => .ok (g.1, .ret b)

/-- One turn of the check: `ends` and `last_type`; leaving it is returning `false`. -/
def checkBody (s : Nat × Int) (rec : KeRecord) : Rust (Flow (Nat × Int) Unit) :=
  if rec.recordType = 0 then
    if rec.critical = false ∨ rec.bodyLength ≠ 0 ∨ 0 < s.1 then .ok (.ret ())
    else .ok (.next (s.1 + 1, rec.recordType))
  else .ok (.next (s.1, rec.recordType))

/-- `self.reset_parsing(); self.complete = false`. -/
def Message.restart (m : Message) : Message := { m.resetParsing with complete := false }

/-- Every turn reads at least the four bytes of a header.
mirrors nts_ke_record.rs:205-229 -/
def Message.checkMessageFormat (m : Message) (eof : Bool) : Rust (Message × Bool) := do
  let r ← forEach (Message.getRecord 0) checkBody (m.length + 1) m.restart (0, -1)
  match r.2 with
  | .ret () => .ok (r.1, false)
  | .next s =>
    if r.1.length = 0 ∨ r.1.parsed < r.1.length then .ok (r.1, !eof)
    else if s.2 ≠ 0 then .ok (r.1, !eof)
    else .ok ({ r.1 with complete := true }, true)

/-! ## The grammar -/

/-- A record, whole. -/
structure Frame where
  critical : Bool
  type : Nat
  body : Bytes
  type_lt : type < 2 ^ 15
  body_lt : body.length < 2 ^ 16
  deriving DecidableEq

namespace Frame

/-- The type word: the flag on top of the type. -/
def word (r : Frame) : Nat := (if r.critical then 2 ^ 15 else 0) + r.type

theorem word_lt (r : Frame) : r.word < 2 ^ 16 := by
  have := r.type_lt
  unfold word
  split <;> omega

def enc (r : Frame) : Bytes := toBe 2 r.word ++ toBe 2 r.body.length ++ r.body

@[simp] theorem enc_length (r : Frame) : r.enc.length = 4 + r.body.length := by
  simp only [enc, List.length_append, toBe_length]

def bodyLen (b : Bytes) : Nat := fromBe ((b.drop 2).take 2)

/-- The record at the front of `b`, if it is there in full. -/
def dec (b : Bytes) : Option (Frame × Bytes) :=
  if h : 4 + bodyLen b ≤ b.length then
    some (⟨decide (2 ^ 15 ≤ fromBe (b.take 2)), fromBe (b.take 2) % 2 ^ 15,
      (b.drop 4).take (bodyLen b), Nat.mod_lt _ (by decide), by
        have hlt := fromBe_lt ((b.drop 2).take 2)
        have h2 : ((b.drop 2).take 2).length = 2 := by simp; omega
        rw [h2] at hlt
        simp only [List.length_take, bodyLen]
        omega⟩, b.drop (4 + bodyLen b))
  else none

@[ext] theorem ext {r t : Frame} (h1 : r.critical = t.critical) (h2 : r.type = t.type)
    (h3 : r.body = t.body) : r = t := by
  cases r; cases t; congr

theorem bodyLen_enc (r : Frame) (rest : Bytes) : bodyLen (r.enc ++ rest) = r.body.length := by
  have h := r.body_lt
  have hdrop : ((r.enc ++ rest).drop 2).take 2 = toBe 2 r.body.length := by
    rw [enc, List.append_assoc, List.append_assoc, List.drop_left' (toBe_length _ _),
      List.take_left' (toBe_length _ _)]
  rw [bodyLen, hdrop, fromBe_toBe, Nat.mod_eq_of_lt (by omega)]

theorem word_enc (r : Frame) (rest : Bytes) : fromBe ((r.enc ++ rest).take 2) = r.word := by
  have h := r.word_lt
  rw [enc, List.append_assoc, List.append_assoc, List.take_left' (toBe_length _ _), fromBe_toBe,
    Nat.mod_eq_of_lt (by omega)]

theorem dec_enc (r : Frame) (rest : Bytes) : dec (r.enc ++ rest) = some (r, rest) := by
  have hlen : 4 + bodyLen (r.enc ++ rest) = r.enc.length := by rw [bodyLen_enc, enc_length]
  have htype := r.type_lt
  unfold dec
  rw [dif_pos (by rw [hlen, List.length_append]; omega)]
  refine congrArg some (Prod.ext (ext ?_ ?_ ?_) ?_)
  · show decide (2 ^ 15 ≤ fromBe ((r.enc ++ rest).take 2)) = _
    rw [word_enc, word]
    cases r.critical
    · simp
      omega
    · simp
  · show fromBe ((r.enc ++ rest).take 2) % 2 ^ 15 = r.type
    rw [word_enc, word]
    split <;> omega
  · show ((r.enc ++ rest).drop 4).take (bodyLen (r.enc ++ rest)) = _
    rw [bodyLen_enc, enc, List.append_assoc _ r.body, List.drop_left' (by simp), List.take_left]
  · show (r.enc ++ rest).drop (4 + bodyLen (r.enc ++ rest)) = _
    rw [hlen, List.drop_left]

theorem enc_of_dec {b rest : Bytes} {r : Frame} (h : dec b = some (r, rest)) :
    b = r.enc ++ rest := by
  unfold dec at h
  split at h
  · rename_i hle
    have hpair := Option.some.inj h
    obtain rfl := (Prod.ext_iff.1 hpair).1.symm
    obtain rfl := (Prod.ext_iff.1 hpair).2.symm
    have hlen2 : (b.take 2).length = 2 := by simp; omega
    have hlen2' : ((b.drop 2).take 2).length = 2 := by simp; omega
    have hword : (if decide (2 ^ 15 ≤ fromBe (b.take 2)) = true then 2 ^ 15 else 0) + fromBe
        (b.take 2) % 2 ^ 15 = fromBe (b.take 2) := by
      have hlt := fromBe_lt (b.take 2)
      rw [hlen2] at hlt
      simp only [decide_eq_true_eq]
      split <;> omega
    have hbody : ((b.drop 4).take (bodyLen b)).length = bodyLen b := by simp; omega
    have h2 : toBe 2 (bodyLen b) = (b.drop 2).take 2 := toBe_fromBe hlen2'
    simp only [enc, word]
    rw [hword, hbody, toBe_fromBe hlen2, h2]
    have h4 : b.drop 2 = (b.drop 2).take 2 ++ b.drop 4 := by
      conv_lhs => rw [← List.take_append_drop 2 (b.drop 2)]
      rw [List.drop_drop]
    have hrest : b.drop 4 = (b.drop 4).take (bodyLen b) ++ b.drop (4 + bodyLen b) := by
      conv_lhs => rw [← List.take_append_drop (bodyLen b) (b.drop 4)]
      rw [List.drop_drop]
    calc b = b.take 2 ++ b.drop 2 := (List.take_append_drop 2 b).symm
      _ = b.take 2 ++ ((b.drop 2).take 2 ++ ((b.drop 4).take (bodyLen b) ++
        b.drop (4 + bodyLen b))) := by
        rw [← hrest, ← h4]
      _ = _ := by simp only [List.append_assoc]
  · cases h

end Frame

def frames : Framing Frame UInt8 where
  enc := Frame.enc
  dec := Frame.dec
  dec_enc := Frame.dec_enc
  enc_dec := Frame.enc_of_dec
  enc_ne_nil r h := by
    have hlen := r.enc_length
    rw [h, List.length_nil] at hlen
    omega

/-! ## The cursor reads the grammar -/

/-- What `get_record` gives for a record. -/
def Frame.view (bufferLength : Int) (r : Frame) : KeRecord :=
  ⟨r.critical, r.type, r.body.length, r.body.take bufferLength.toNat⟩

namespace Message

def rest (m : Message) : Bytes := m.data.drop m.parsed

/-- The cursor behind `n` more bytes. -/
def advance (m : Message) (n : Nat) : Message := { m with parsed := m.parsed + n }

theorem rest_advance (m : Message) (n : Nat) : (m.advance n).rest = m.rest.drop n := by
  rw [rest, rest, List.drop_drop]
  rfl

theorem advance_advance (m : Message) (a b : Nat) :
    (m.advance a).advance b = m.advance (a + b) := by
  simp only [advance, Nat.add_assoc]

theorem rest_resetParsing (m : Message) : m.resetParsing.rest = m.data := rfl

theorem and_high (w : Nat) (h : w < 2 ^ 16) : (w &&& 0x8000 ≠ 0) ↔ 2 ^ 15 ≤ w := by
  have hand : w &&& 0x8000 = (w.testBit 15).toNat * 2 ^ 15 := Nat.and_two_pow w 15
  rw [hand, Nat.testBit_eq_decide_div_mod_eq]
  simp
  omega

theorem and_low (w : Nat) : w &&& 0x7fff = w % 2 ^ 15 := Nat.and_two_pow_sub_one_eq_mod w 15

/-- **One record.** The cursor reads the next frame, or stays where no frame follows. -/
theorem getRecord_eq {bufferLength : Int} (hb : 0 ≤ bufferLength) (m : Message) :
    m.getRecord bufferLength = .ok (match Frame.dec m.rest with
      | none => (m, none)
      | some (r, _) => (m.advance r.enc.length, some (r.view bufferLength))) := by
  have hrest : m.rest.length = m.length - m.parsed := by rw [rest, List.length_drop, m.length_eq]
  unfold getRecord
  by_cases hshort : m.length < m.parsed + 4
  · have hdec : Frame.dec m.rest = none := dif_neg (by omega)
    rw [if_pos (.inl hshort), hdec]
  · have hhead : (m.data.take (m.parsed + 4)).drop m.parsed = m.rest.take 4 := by
      rw [rest, List.drop_take, Nat.add_sub_cancel_left]
    have htake2 : (m.rest.take 4).take 2 = m.rest.take 2 := by rw [List.take_take]; rfl
    have hdrop2 : fromBe ((m.rest.take 4).drop 2) = Frame.bodyLen m.rest := by
      rw [Frame.bodyLen, List.drop_take]
    rw [if_neg (by omega), slice_of_le (by omega) (by rw [m.length_eq]; omega), ok_bind, hhead]
    dsimp only
    rw [htake2, hdrop2]
    by_cases hfull : m.length < m.parsed + (4 + Frame.bodyLen m.rest)
    · have hdec : Frame.dec m.rest = none := dif_neg (by omega)
      rw [if_pos hfull, hdec]
    · have hle : 4 + Frame.bodyLen m.rest ≤ m.rest.length := by omega
      have hword : fromBe (m.rest.take 2) < 2 ^ 16 := by
        have hlt := fromBe_lt (m.rest.take 2)
        have hlen : (m.rest.take 2).length = 2 := by simp; omega
        rw [hlen] at hlt
        exact hlt
      have hblen : ((m.rest.drop 4).take (Frame.bodyLen m.rest)).length =
          Frame.bodyLen m.rest := by simp; omega
      have hbody : (m.data.take (m.parsed + 4 + min bufferLength.toNat (Frame.bodyLen m.rest))).drop
          (m.parsed + 4) =
          ((m.rest.drop 4).take (Frame.bodyLen m.rest)).take bufferLength.toNat := by
        rw [rest, List.drop_drop, List.drop_take, Nat.add_sub_cancel_left, List.take_take]
      rw [if_neg hfull, slice_of_le (by omega) (by rw [m.length_eq]; omega), ok_bind,
        hbody, Frame.dec, dif_pos hle]
      simp only [advance, Frame.enc_length, hblen, Frame.view, and_high _ hword, and_low]

theorem getRecord_of_neg {bufferLength : Int} (hb : bufferLength < 0) (m : Message) :
    m.getRecord bufferLength = .ok (m, none) := if_pos (.inr hb)

theorem getRecord_returns (bufferLength : Int) (m : Message) :
    (m.getRecord bufferLength).Returns := by
  by_cases hb : 0 ≤ bufferLength
  · exact ⟨_, getRecord_eq hb m⟩
  · exact ⟨_, getRecord_of_neg (not_le.1 hb) m⟩

end Message

/-! ## Loops over the records -/

section
variable {σ β : Type} {body : σ → KeRecord → Rust (Flow σ β)} {bufferLength : Int}

/-- The body over records, until it leaves the loop. -/
def foldFlow (body : σ → KeRecord → Rust (Flow σ β)) : σ → List KeRecord → Rust (Flow σ β)
  | s, [] => .ok (.next s)
  | s, rec :: recs => do
    let f ← body s rec
    match f with
    | .next s' => foldFlow body s' recs
    | .ret b => .ok (.ret b)

/-- A getter that gives the records `rs` one after the other and stops at `tail`. -/
def Gets (get : Message → Rust (Message × Option KeRecord)) (bufferLength : Int) (rs : List Frame)
    (tail : Bytes) : Prop :=
  (∀ (m : Message) (r : Frame) (rest : Bytes), r ∈ rs → m.rest = r.enc ++ rest →
    get m = .ok (m.advance r.enc.length, some (r.view bufferLength))) ∧
  ∀ m : Message, m.rest = tail → ∃ n, get m = .ok (m.advance n, none)

/-- **A loop** over the frames of a message is the fold of its body over them. -/
theorem forEach_eq {get : Message → Rust (Message × Option KeRecord)} {rs : List Frame}
    {tail : Bytes} (hget : Gets get bufferLength rs tail) {fuel : Nat} {m : Message} (s : σ)
    (hm : m.rest = frames.encAll rs ++ tail) (hfuel : rs.length < fuel) {f : Flow σ β}
    (hf : foldFlow body s (rs.map (Frame.view bufferLength)) = .ok f) :
    ∃ n, forEach get body fuel m s = .ok (m.advance n, f) ∧
      ((∃ s', f = .next s') → ∃ k, get (m.advance (frames.encAll rs).length) =
        .ok ((m.advance (frames.encAll rs).length).advance k, none) ∧
          n = (frames.encAll rs).length + k) := by
  induction rs generalizing fuel m s with
  | nil =>
    obtain ⟨fuel, rfl⟩ : ∃ k, fuel = k + 1 := ⟨fuel - 1, by omega⟩
    obtain ⟨k, hk⟩ := hget.2 m hm
    cases hf
    refine ⟨k, by rw [forEach, hk]; rfl, fun _ => ⟨k, hk, (Nat.zero_add k).symm⟩⟩
  | cons r rs ih =>
    obtain ⟨fuel, rfl⟩ : ∃ k, fuel = k + 1 := ⟨fuel - 1, by omega⟩
    rw [Framing.encAll_cons, List.append_assoc] at hm
    have hr := hget.1 m r _ List.mem_cons_self hm
    have hrest : (m.advance r.enc.length).rest = frames.encAll rs ++ tail := by
      rw [Message.rest_advance, hm]
      exact List.drop_left
    rw [List.map_cons, foldFlow] at hf
    obtain ⟨g, hg, hf⟩ := bind_eq_ok.1 hf
    cases g with
    | ret b =>
      cases hf
      exact ⟨r.enc.length, by rw [forEach, hr, ok_bind]; simp only [hg, ok_bind],
        fun ⟨_, h⟩ => by cases h⟩
    | next s' =>
      obtain ⟨n, hrun, hnext⟩ := ih ⟨fun m r' rest hr' => hget.1 m r' rest
        (List.mem_cons_of_mem _ hr'), hget.2⟩
        s' hrest (Nat.lt_of_succ_lt_succ hfuel) hf
      rw [Message.advance_advance] at hrun
      refine ⟨r.enc.length + n, by rw [forEach, hr, ok_bind]; simp only [hg, ok_bind, hrun],
        fun h => ?_⟩
      obtain ⟨k, hk, rfl⟩ := hnext h
      rw [Message.advance_advance] at hk
      exact ⟨k, by rw [Framing.encAll_cons, List.length_append]; exact hk, by
        rw [Framing.encAll_cons, List.length_append]; exact (Nat.add_assoc _ _ _).symm⟩

theorem gets_getRecord (hb : 0 ≤ bufferLength) {tail : Bytes} (htail : frames.dec tail = none)
    (rs : List Frame) : Gets (Message.getRecord bufferLength) bufferLength rs tail := by
  refine ⟨fun m r rest _ hm => ?_, fun m hm => ⟨0, ?_⟩⟩
  · rw [Message.getRecord_eq hb, hm, Frame.dec_enc]
  · rw [Message.getRecord_eq hb, hm, show Frame.dec tail = none from htail]
    rfl

end

section
variable {σ β : Type} {body : σ → KeRecord → Rust (Flow σ β)}

theorem foldFlow_cons {s s' : σ} {rec : KeRecord} (h : body s rec = .ok (.next s'))
    (recs : List KeRecord) : foldFlow body s (rec :: recs) = foldFlow body s' recs := by
  rw [foldFlow, h]
  rfl

theorem foldFlow_append {s s' : σ} {as bs : List KeRecord}
    (h : foldFlow body s as = .ok (.next s')) :
    foldFlow body s (as ++ bs) = foldFlow body s' bs := by
  induction as generalizing s with
  | nil =>
    cases h
    rfl
  | cons a as ih =>
    rw [foldFlow] at h
    obtain ⟨f, hf, h⟩ := bind_eq_ok.1 h
    cases f with
    | ret b => cases h
    | next s1 => rw [List.cons_append, foldFlow_cons hf, ih h]

theorem foldFlow_returns (hbody : ∀ s rec, (body s rec).Returns) (s : σ) (recs : List KeRecord) :
    (foldFlow body s recs).Returns := by
  induction recs generalizing s with
  | nil => exact ⟨_, rfl⟩
  | cons rec recs ih =>
    obtain ⟨f, hf⟩ := hbody s rec
    rw [foldFlow, hf, ok_bind]
    cases f with
    | next s' => exact ih s'
    | ret b => exact ⟨_, rfl⟩

/-- A property of the frames so far and the state of the loop. -/
theorem foldFlow_induct {bufferLength : Int} (P : List Frame → σ → Prop)
    (hstep : ∀ done s r s', P done s → body s (r.view bufferLength) = .ok (.next s') →
      P (done ++ [r]) s') :
    ∀ {rs : List Frame} (done : List Frame) {s s' : σ}, P done s →
      foldFlow body s (rs.map (Frame.view bufferLength)) = .ok (.next s') → P (done ++ rs) s' := by
  intro rs
  induction rs with
  | nil =>
    intro done s s' hp h
    cases h
    rwa [List.append_nil]
  | cons r rs ih =>
    intro done s s' hp h
    rw [List.map_cons, foldFlow] at h
    obtain ⟨f, hf, h⟩ := bind_eq_ok.1 h
    cases f with
    | ret b => cases h
    | next s1 =>
      have hall := ih _ (hstep done s r s1 hp hf) h
      rwa [List.append_assoc] at hall

end

/-! ## What was added is read -/

namespace Message

def append (m : Message) (bs : Bytes) : Message :=
  { m with
    data := m.data ++ bs, length := m.length + bs.length, length_eq := by simp [m.length_eq] }

@[simp] theorem append_data (m : Message) (bs : Bytes) : (m.append bs).data = m.data ++ bs := rfl

@[simp] theorem append_length (m : Message) (bs : Bytes) :
    (m.append bs).length = m.length + bs.length := rfl

theorem addRecord_frame (m : Message) (r : Frame) (h : m.length + r.enc.length ≤ 16384) :
    m.addRecord r.critical r.type r.body = (m.append r.enc, true) := by
  have htype := r.type_lt
  have hbody := r.body_lt
  have hword : (if r.critical then 0x8000 else 0) ||| (r.type : Int).toNat = r.word := by
    rw [Int.toNat_natCast, Frame.word]
    split
    · exact (Nat.two_pow_add_eq_or_of_lt htype 1).symm
    · rw [Nat.zero_or, Nat.zero_add]
  rw [Frame.enc_length] at h
  unfold addRecord
  rw [if_neg (by omega)]
  simp only [hword, append, Frame.enc_length]
  rfl

theorem addRecord_true {m : Message} {critical : Bool} {recordType : Int} {body : Bytes}
    (h : (m.addRecord critical recordType body).2 = true) : ∃ r : Frame, r.critical = critical ∧
      (r.type : Int) = recordType ∧ r.body = body ∧ m.length + r.enc.length ≤ 16384 := by
  unfold addRecord at h
  split at h
  · cases h
  · exact ⟨⟨critical, recordType.toNat, body, by omega, by omega⟩,
      rfl, by show ((recordType.toNat : Nat) : Int) = _; omega,
      rfl, by rw [Frame.enc_length]; show m.length + (4 + body.length) ≤ _; omega⟩

end Message

/-- `add_record` for each of some records, as long as they are accepted. -/
def addRecords : Message → List (Bool × Int × Bytes) → Message × Bool
  | m, [] => (m, true)
  | m, rec :: recs =>
    let r := m.addRecord rec.1 rec.2.1 rec.2.2
    if r.2 then addRecords r.1 recs else (r.1, false)

/-- Some records and the terminator. -/
def compose (m : Message) (recs : List (Bool × Int × Bytes)) : Message × Bool :=
  let r := addRecords m recs
  if r.2 then r.1.endMessage else (r.1, false)

def collect (recs : List KeRecord) (rec : KeRecord) : Rust (Flow (List KeRecord) Empty) :=
  .ok (.next (recs ++ [rec]))

/-- `get_record` from the start until it gives nothing. -/
def readAll (bufferLength : Int) (m : Message) : Rust (Message × List KeRecord) := do
  let r ← forEach (Message.getRecord bufferLength) collect (m.length + 1) m.resetParsing []
  match r.2 with
  | .next recs => .ok (r.1, recs)

def terminator : Frame := ⟨true, 0, [], by decide, by decide⟩

variable {rs : List Frame} {recs : List (Bool × Int × Bytes)} {m : Message}

/-- `next_record` gives the frames up to the terminator. -/
theorem gets_nextRecord {bufferLength : Int} (hb : 0 ≤ bufferLength) (hrs : ∀ r ∈ rs, r.type ≠ 0) :
    Gets (Message.nextRecord bufferLength) bufferLength rs terminator.enc := by
  refine ⟨fun m r rest hr hm => ?_, fun m hm => ⟨terminator.enc.length, ?_⟩⟩
  · have htype : (r.view bufferLength).recordType ≠ 0 := fun h0 => hrs r hr (Int.natCast_inj.1 h0)
    rw [Message.nextRecord, Message.getRecord_eq hb, hm, Frame.dec_enc]
    exact if_pos htype
  · have hdec := Frame.dec_enc terminator []
    rw [List.append_nil] at hdec
    rw [Message.nextRecord, Message.getRecord_eq hb, hm, hdec]
    rfl

theorem addRecords_true (h : (addRecords m recs).2 = true) :
    ∃ rs : List Frame, rs.map (fun r => (r.critical, (r.type : Int), r.body)) = recs ∧
      (addRecords m recs).1 = m.append (frames.encAll rs) := by
  induction recs generalizing m with
  | nil => exact ⟨[], rfl, by simp [addRecords, Message.append, frames]⟩
  | cons rec recs ih =>
    rw [addRecords] at h ⊢
    split at h
    · rename_i hadd
      obtain ⟨r, h1, h2, h3, hfit⟩ := Message.addRecord_true hadd
      rw [if_pos hadd]
      rw [← h1, ← h2, ← h3, Message.addRecord_frame m r hfit] at h ⊢
      obtain ⟨rs, hrs, hm⟩ := ih h
      refine ⟨r :: rs, by rw [List.map_cons, hrs, h1, h2, h3], ?_⟩
      rw [hm]
      simp [Message.append, frames, Nat.add_assoc]
    · cases h

theorem addRecords_fits (h : ∀ rec ∈ recs, 0 ≤ rec.2.1 ∧ rec.2.1 ≤ 0x7fff ∧ rec.2.2.length ≤ 0xffff)
    (hfit : m.length + (recs.map fun rec => 4 + rec.2.2.length).sum ≤ 16384) :
      (addRecords m recs).2 = true := by
  induction recs generalizing m with
  | nil => rfl
  | cons rec recs ih =>
    obtain ⟨hrec, hrecs⟩ := List.forall_mem_cons.1 h
    rw [List.map_cons, List.sum_cons] at hfit
    have hadd : (m.addRecord rec.1 rec.2.1 rec.2.2).2 = true ∧
        (m.addRecord rec.1 rec.2.1 rec.2.2).1.length = m.length + (4 + rec.2.2.length) := by
      unfold Message.addRecord
      rw [if_neg (by omega)]
      exact ⟨rfl, rfl⟩
    rw [addRecords, if_pos hadd.1]
    exact ih hrecs (by rw [hadd.2]; omega)

theorem compose_true {m' : Message} (h : compose m recs = (m', true)) :
    ∃ rs : List Frame, rs.map (fun r => (r.critical, (r.type : Int), r.body)) = recs ∧
      m'.data = m.data ++ frames.encAll (rs ++ [terminator]) := by
  unfold compose at h
  dsimp only at h
  split at h
  · rename_i hadd
    obtain ⟨rs, hrs, hm1⟩ := addRecords_true hadd
    refine ⟨rs, hrs, ?_⟩
    unfold Message.endMessage at h
    dsimp only at h
    split at h
    · rename_i hend
      obtain ⟨r, h1, h2, h3, hfit⟩ := Message.addRecord_true hend
      have hr : r = terminator := Frame.ext h1 (Int.natCast_inj.1 h2) h3
      subst hr
      have hadded := Message.addRecord_frame _ terminator hfit
      have hdata := congrArg (fun p => p.1.data) h
      change ((addRecords m recs).1.addRecord true 0 []).1.data = m'.data at hdata
      rw [← hdata]
      change ((addRecords m recs).1.addRecord terminator.critical terminator.type
        terminator.body).1.data = _
      rw [hadded, hm1, Framing.encAll_append]
      simp [frames]
    · cases h
  · cases h

theorem foldFlow_collect (acc recs : List KeRecord) :
    foldFlow collect acc recs = .ok (.next (acc ++ recs)) := by
  induction recs generalizing acc with
  | nil => rw [foldFlow, List.append_nil]
  | cons rec recs ih =>
    have hbody : collect acc rec = .ok (.next (acc ++ [rec])) := rfl
    rw [foldFlow_cons hbody, ih, List.append_assoc, List.singleton_append]

/-- Reading collects all frames, each with as much of its body as the caller has room for. -/
theorem readAll_eq {bufferLength : Int} (hb : 0 ≤ bufferLength) (hm : m.data = frames.encAll rs) :
    ∃ m', readAll bufferLength m = .ok (m', rs.map (Frame.view bufferLength)) := by
  have hlen : rs.length < m.length + 1 := by
    have hle := frames.encAll_length_le rs
    rw [← hm, m.length_eq] at hle
    omega
  have hrest : m.resetParsing.rest = frames.encAll rs ++ [] := by
    rw [Message.rest_resetParsing, hm, List.append_nil]
  obtain ⟨n, hrun, -⟩ := forEach_eq (gets_getRecord hb frames.dec_nil rs) [] hrest hlen
    (foldFlow_collect [] _)
  exact ⟨_, by rw [readAll, hrun]; rfl⟩

/-! ## The check of a whole message -/

theorem checkBody_returns (s : Nat × Int) (rec : KeRecord) : (checkBody s rec).Returns := by
  unfold checkBody
  split
  · split <;> exact ⟨_, rfl⟩
  · exact ⟨_, rfl⟩

/-- What the check answers after its loop. -/
def verdict (m : Message) (tail : Bytes) (eof : Bool) : Flow (Nat × Int) Unit → Bool
  | .ret () => false
  | .next s => if m.data = [] ∨ tail ≠ [] ∨ s.2 ≠ 0 then !eof else true

/-- The check returns, with a verdict on the frames and on what stands behind them. -/
theorem checkMessageFormat_eq (m : Message) (eof : Bool) :
    ∃ f m', foldFlow checkBody (0, -1) ((frames.all m.data).1.map (Frame.view 0)) = .ok f ∧
      m.checkMessageFormat eof = .ok (m', verdict m (frames.all m.data).2 eof f) := by
  obtain ⟨hdata, htail⟩ := frames.all_spec m.data
  generalize hrs : (frames.all m.data).1 = rs at hdata ⊢
  generalize (frames.all m.data).2 = tail at hdata htail ⊢
  obtain ⟨f, hf⟩ := foldFlow_returns checkBody_returns (0, -1) (rs.map (Frame.view 0))
  have hlength : m.length = (frames.encAll rs).length + tail.length := by
    rw [← m.length_eq, hdata, List.length_append]
  have hlen : rs.length < m.length + 1 := by
    have hle := frames.encAll_length_le rs
    omega
  obtain ⟨n, hrun, hnext⟩ := forEach_eq (gets_getRecord le_rfl htail rs) (0, -1)
    (m := m.restart) hdata hlen hf
  refine ⟨f, ?_⟩
  unfold Message.checkMessageFormat
  rw [hrun, ok_bind]
  cases f with
  | ret b => exact ⟨_, hf, rfl⟩
  | next s =>
    obtain ⟨k, hk, rfl⟩ := hnext ⟨s, rfl⟩
    -- where nothing decodes, the cursor stays
    have hk0 : k = 0 := by
      have hstay : (m.restart.advance (frames.encAll rs).length).rest = tail := by
        rw [Message.rest_advance]
        exact (congrArg (List.drop _) hdata).trans List.drop_left
      rw [Message.getRecord_eq le_rfl, hstay, show Frame.dec tail = none from htail] at hk
      have hparsed := congrArg (fun p => p.1.parsed) (Except.ok.inj hk)
      simp only [Message.advance] at hparsed
      omega
    subst hk0
    have hcond : (m.length = 0 ∨ 0 + ((frames.encAll rs).length + 0) < m.length) ↔ m.data = [] ∨
        tail ≠ [] := by
      rw [← List.length_pos_iff (l := tail), ← List.length_eq_zero_iff (l := m.data), m.length_eq]
      omega
    unfold verdict
    simp only [Message.advance, Message.restart, Message.resetParsing, hcond, ← or_assoc]
    by_cases h1 : m.data = [] ∨ tail ≠ []
    · simp only [h1, if_true, true_or]
      exact ⟨_, hf, rfl⟩
    · rw [if_neg h1]
      by_cases h2 : s.2 ≠ 0
      · rw [if_pos h2, if_pos (.inr h2)]
        exact ⟨_, hf, rfl⟩
      · rw [if_neg h2, if_neg (not_or.2 ⟨h1, h2⟩)]
        exact ⟨_, hf, rfl⟩

/-- The invariant of the check: no End of Message before the first, and none but the last when the
last record is one. -/
def Checked (done : List Frame) (s : Nat × Int) : Prop :=
  (s.1 = 0 → ∀ r ∈ done, r.type ≠ 0) ∧
  (s.2 = 0 → ∃ rs, done = rs ++ [terminator] ∧ ∀ r ∈ rs, r.type ≠ 0)

theorem checkBody_checked {done : List Frame} {s s' : Nat × Int} {r : Frame} (h : Checked done s)
    (hbody : checkBody s (r.view 0) = .ok (.next s')) : Checked (done ++ [r]) s' := by
  unfold checkBody at hbody
  split at hbody
  · rename_i htype
    split at hbody
    · cases hbody
    · rename_i hgood
      rw [not_or, not_or, not_not] at hgood
      cases hbody
      have hr : r = terminator := by
        refine Frame.ext ?_ (Int.natCast_inj.1 htype)
          (List.length_eq_zero_iff.1 (Int.natCast_inj.1 hgood.2.1))
        exact Bool.eq_true_of_not_eq_false hgood.1
      exact ⟨fun h0 => absurd h0 (Nat.succ_ne_zero _), fun _ => ⟨done, by rw [hr], h.1 (by omega)⟩⟩
  · rename_i htype
    cases hbody
    have hr : r.type ≠ 0 := fun h0 => htype (congrArg Nat.cast h0)
    refine ⟨fun h0 t ht => ?_, fun h0 => absurd h0 htype⟩
    rcases List.mem_append.1 ht with ht | ht
    · exact h.1 h0 t ht
    · rwa [List.mem_singleton.1 ht]

/-- Records before the terminator are passed over. -/
theorem check_fold (h : ∀ r ∈ rs, r.type ≠ 0) (last : Int) : ∃ last',
    foldFlow checkBody (0, last) (rs.map (Frame.view 0)) = .ok (.next (0, last')) := by
  induction rs generalizing last with
  | nil => exact ⟨last, rfl⟩
  | cons r rs ih =>
    obtain ⟨hr, hrs⟩ := List.forall_mem_cons.1 h
    obtain ⟨last', hfold⟩ := ih hrs r.type
    refine ⟨last', ?_⟩
    have hbody : checkBody (0, last) (r.view 0) = .ok (.next (0, (r.type : Int))) :=
      if_neg (fun h0 => hr (Int.natCast_inj.1 h0))
    rw [List.map_cons, foldFlow_cons hbody, hfold]

/-- A message is accepted at the end of input iff its last record is the terminator and no other
record is of type End of Message. -/
theorem checkMessageFormat_iff {m' : Message} {ok : Bool}
    (h : m.checkMessageFormat true = .ok (m', ok)) :
    ok = true ↔ ∃ rs : List Frame, m.data = frames.encAll (rs ++ [terminator]) ∧
      ∀ r ∈ rs, r.type ≠ 0 := by
  obtain ⟨f, m1, hfold, hcheck⟩ := checkMessageFormat_eq m true
  rw [hcheck] at h
  obtain ⟨-, rfl⟩ := Prod.ext_iff.1 (Except.ok.inj h)
  constructor
  · intro hok
    cases f with
    | ret b => cases hok
    | next s =>
      simp only [verdict, Bool.not_true, ite_eq_right_iff, Bool.false_eq_true, imp_false, not_or,
        not_not] at hok
      obtain ⟨rs, hrs, htypes⟩ := (foldFlow_induct Checked (fun _ _ _ _ => checkBody_checked)
        [] ⟨fun _ _ hr => absurd hr List.not_mem_nil, fun h0 => by cases h0⟩ hfold).2 hok.2.2
      refine ⟨rs, ?_, htypes⟩
      rw [← frames.all_eq_nil_iff, ← hrs]
      exact Prod.ext rfl hok.2.1
  · rintro ⟨rs, hdata, htypes⟩
    have hall := frames.all_eq_nil_iff.2 hdata
    obtain ⟨last, hpre⟩ := check_fold htypes (-1)
    have hlast : foldFlow checkBody (0, -1) ((rs ++ [terminator]).map (Frame.view 0)) =
        .ok (.next (1, 0)) := by
      rw [List.map_append, foldFlow_append hpre]
      rfl
    rw [hall, hlast] at hfold
    have hne : m.data ≠ [] := by
      rw [hdata, Framing.encAll_append]
      exact List.append_ne_nil_of_right_ne_nil _ (frames.enc_ne_nil terminator)
    obtain rfl := Except.ok.inj hfold
    rw [hall]
    simp [verdict, hne]

theorem checkMessageFormat_returns (m : Message) (eof : Bool) :
    (m.checkMessageFormat eof).Returns := by
  obtain ⟨f, m', -, h⟩ := checkMessageFormat_eq m eof
  exact ⟨_, h⟩

/-- **Framing.** Records that were added to an empty message and ended are read back, each with as
much of its body as there is room for, and then the terminator; no message makes reading or checking
panic or run on; and at the end of input exactly those messages are accepted that are complete
records, the last of them the terminator and no other one of type End of Message. -/
theorem message_framing :
    (∀ (m m' : Message) (recs : List (Bool × Int × Bytes)) (bufferLength : Int), m.length = 0 →
      0 ≤ bufferLength → compose m recs = (m', true) → ∃ m'', readAll bufferLength m' = .ok (m'',
        recs.map (fun rec => ⟨rec.1, rec.2.1, rec.2.2.length, rec.2.2.take bufferLength.toNat⟩) ++
          [⟨true, 0, 0, []⟩])) ∧
    (∀ (m : Message) (bufferLength : Int), (m.getRecord bufferLength).Returns) ∧
    (∀ (m : Message) (eof : Bool), (m.checkMessageFormat eof).Returns) ∧
    (∀ (m m' : Message) (ok : Bool), m.checkMessageFormat true = .ok (m', ok) → (ok = true ↔
      ∃ rs : List Frame, m.data = frames.encAll (rs ++ [terminator]) ∧ ∀ r ∈ rs, r.type ≠ 0)) := by
  refine ⟨?_, fun m b => m.getRecord_returns b, checkMessageFormat_returns, fun m m' ok =>
    checkMessageFormat_iff⟩
  intro m m' recs bufferLength hm hb h
  obtain ⟨rs, hrs, hdata⟩ := compose_true h
  have hempty : m.data = [] := List.length_eq_zero_iff.1 (m.length_eq.trans hm)
  rw [hempty, List.nil_append] at hdata
  obtain ⟨m'', hread⟩ := readAll_eq hb hdata
  refine ⟨m'', hread.trans ?_⟩
  rw [List.map_append, ← hrs, List.map_map, List.map_singleton]
  simp [Frame.view, terminator, Function.comp_def]

theorem message_framing_two : ∃ m'', readAll 2
    (compose .new [(true, 1, [0, 0]), (false, 5, [9, 8, 7, 6])]).1 =
    .ok (m'', [⟨true, 1, 2, [0, 0]⟩, ⟨false, 5, 4, [9, 8]⟩, ⟨true, 0, 0, []⟩]) :=
  message_framing.1 .new _ [(true, 1, [0, 0]), (false, 5, [9, 8, 7, 6])] 2 rfl (by decide)
    (Prod.ext rfl rfl)

/-- An End of Message without the flag is no terminator, but it is not passed over either: with one
in front, a message is rejected although its last record is a terminator and no other record is. -/
theorem loose_end_rejected :
    (∃ rs : List Frame, [0, 0, 0, 0, 0x80, 0, 0, 0] = frames.encAll (rs ++ [terminator]) ∧
      ∀ r ∈ rs, r ≠ terminator) ∧
    ∃ m', (Message.fromReceived [0, 0, 0, 0, 0x80, 0, 0, 0]).checkMessageFormat true =
      .ok (m', false) := by
  refine ⟨⟨[⟨false, 0, [], by decide, by decide⟩], by decide, by decide⟩, ?_⟩
  exact exists_of_result (by decide +kernel)

end ChronyRs.L1.Ke

import ChronyRs.L1Encoding.KeRecord

/-!
# NTS-KE negotiation (`nts_ke_record.rs`)

The client asks with the algorithms it supports (`prepareRequest`); the server reads the request
(`processRequest`) and answers with an error, with what it could not agree to, or with the
algorithm, the address and the cookies (`prepareResponse`); the client reads the answer
(`processResponse`).

Each prepared message is a list of records and the terminator (`prepareRequest_eq`,
`prepareResponse_eq`), so that processing it is a fold over that list (`processed`).

* `negotiation_agreement`: the server selects the first algorithm in the client's order that it
  supports; the client finds in the response what the server put there, and takes it iff there is a
  cookie; and it takes no response that reports a failure.
-/
namespace ChronyRs.L3.Negotiate

open L1.Ke

/-! ## Requests -/

/-- `if !m.add_record(..) { return None }`. -/
def tryAdd (m : Message) (rec : Bool × Int × Bytes) : Option Message :=
  let r := m.addRecord rec.1 rec.2.1 rec.2.2
  if r.2 then some r.1 else none

/-- `m.complete = true; Some(m)`. -/
def completed (m : Message) : Message := { m with complete := true }

/-- mirrors nts_ke_record.rs:273-275 -/
def readBe16 (body : Bytes) (i : Nat) : Rust UInt16 := do
  let a ← index body (2 * i)
  let b ← index body (2 * i + 1)
  .ok (UInt16.ofNat (fromBe [a, b]))

/-- mirrors nts_ke_record.rs:281-303 -/
def prepareRequest (aeadSupported : UInt16 → Bool) : Option Message := do
  let m ← tryAdd .new (true, 1, toBe 2 0)
  let aeads :=
    (if aeadSupported 30 then toBe 2 30 else []) ++ (if aeadSupported 15 then toBe 2 15 else [])
  let m ← tryAdd m (true, 4, aeads)
  let m ← tryAdd m (true, 0, [])
  some (completed m)

/-- The local variables of `process_request`; the counters cannot overflow within a message. -/
structure RequestState where
  nextProtocolRecords : Nat
  aeadAlgorithmRecords : Nat
  nextProtocolValues : Nat
  aeadAlgorithmValues : Nat
  nextProtocol : Int
  aeadAlgorithm : Int
  deriving DecidableEq, Repr

/-- mirrors nts_ke_record.rs:403-408 -/
structure KeRequest where
  error : Int
  nextProtocol : Int
  aeadAlgorithm : Int
  deriving DecidableEq, Repr

def keepProtocol (s : RequestState) (v : UInt16) : RequestState :=
  { s with
    nextProtocolValues := s.nextProtocolValues + 1
    nextProtocol := if v = 0 then 0 else s.nextProtocol }

/-- One value of an AEAD Algorithm record; the first supported one is kept. -/
def keepAlgorithm (aeadSupported : UInt16 → Bool) (s : RequestState) (a : UInt16) : RequestState :=
  { s with
    aeadAlgorithmValues := s.aeadAlgorithmValues + 1
    aeadAlgorithm := if s.aeadAlgorithm < 0 ∧ aeadSupported a then a.toNat else s.aeadAlgorithm }

/-- `for i in 0..length.min(256) / 2 { .. read_be16(&rec.body, i) .. }`. -/
def forValues (rec : KeRecord) (keep : RequestState → UInt16 → RequestState) (s : RequestState) :
    Rust RequestState :=
  (List.range ((min rec.bodyLength 256).toNat / 2)).foldlM
    (fun s i => do let v ← readBe16 rec.body i; .ok (keep s v)) s

/-- One record; leaving the loop is with an error code.
mirrors nts_ke_record.rs:424-466 -/
def requestBody (aeadSupported : UInt16 → Bool) (s : RequestState) (rec : KeRecord) :
    Rust (Flow RequestState (RequestState × Int)) :=
  match rec.recordType with
  | 1 => -- Next Protocol
    if rec.critical = false ∨ rec.bodyLength < 2 ∨ rec.bodyLength % 2 ≠ 0 then .ok (.ret (s, 1))
    else do
      let s ← forValues rec keepProtocol { s with nextProtocolRecords := s.nextProtocolRecords + 1 }
      .ok (.next s)
  | 4 => -- AEAD Algorithm
    if rec.bodyLength < 2 ∨ rec.bodyLength % 2 ≠ 0 then .ok (.ret (s, 1))
    else do
      let s ← forValues rec (keepAlgorithm aeadSupported)
        { s with aeadAlgorithmRecords := s.aeadAlgorithmRecords + 1 }
      .ok (.next s)
  | 2 | 3 | 5 => .ok (.ret (s, 1)) -- Error, Warning, Cookie
  | _ => if rec.critical then .ok (.ret (s, 0)) else .ok (.next s)

/-- The checks after the loop. mirrors nts_ke_record.rs:468-477 -/
def requestShape (s : RequestState) : KeRequest :=
  if s.nextProtocolRecords ≠ 1 ∨ s.nextProtocolValues < 1 ∨
      (s.nextProtocol = 0 ∧ (s.aeadAlgorithmRecords ≠ 1 ∨ s.aeadAlgorithmValues < 1)) then
    ⟨1, s.nextProtocol, s.aeadAlgorithm⟩
  else ⟨-1, s.nextProtocol, s.aeadAlgorithm⟩

/-- mirrors nts_ke_record.rs:414-475 -/
def processRequest (m : Message) (aeadSupported : UInt16 → Bool) : Rust (Message × KeRequest) := do
  let r ← forEach (Message.nextRecord 256) (requestBody aeadSupported) (m.length + 1) m.resetParsing
    ⟨0, 0, 0, 0, -1, -1⟩
  match r.2 with
  | .ret (s, error) => .ok (r.1, ⟨error, s.nextProtocol, s.aeadAlgorithm⟩)
  | .next s => .ok (r.1, requestShape s)

/-! ## Responses -/

/-- mirrors nts_ke_record.rs:307-318 -/
structure KeResponse where
  ok : Bool
  nextProtocol : Int
  aeadAlgorithm : Int
  cookies : List Bytes
  serverName : Bytes
  port : UInt16
  deriving DecidableEq, Repr

/-- `u8::is_ascii_graphic`. -/
def isAsciiGraphic (b : UInt8) : Bool := 0x21 ≤ b ∧ b ≤ 0x7e

/-- One record; leaving the loop is with `error` set.
mirrors nts_ke_record.rs:328-391 -/
def responseBody (aeadSupported : UInt16 → Bool) (r : KeResponse) (rec : KeRecord) :
    Rust (Flow KeResponse KeResponse) :=
  if 256 < rec.bodyLength then
    if rec.critical then .ok (.ret r) else .ok (.next r)
  else
    match rec.recordType with
    | 1 => -- Next Protocol
      if rec.critical = false ∨ rec.bodyLength ≠ 2 then .ok (.ret r)
      else do
        let v ← readBe16 rec.body 0
        if v ≠ 0 then .ok (.ret r) else .ok (.next { r with nextProtocol := 0 })
    | 4 => -- AEAD Algorithm
      if rec.bodyLength ≠ 2 then .ok (.ret r)
      else do
        let alg ← readBe16 rec.body 0
        if (alg ≠ 15 ∧ alg ≠ 30) ∨ aeadSupported alg = false then .ok (.ret r)
        else .ok (.next { r with aeadAlgorithm := alg.toNat })
    | 2 | 3 => .ok (.ret r) -- Error, Warning
    | 5 => -- Cookie
      if 1 ≤ rec.bodyLength ∧ rec.bodyLength ≤ 256 ∧ rec.bodyLength % 4 = 0 ∧
        r.cookies.length < 8 then
        .ok (.next { r with cookies := r.cookies ++ [rec.body] })
      else .ok (.next r)
    | 6 => -- NTPv4 Server Negotiation
      if ¬ (1 ≤ rec.bodyLength ∧ rec.bodyLength < 258) then .ok (.ret r)
      else if rec.body.all isAsciiGraphic then .ok (.next { r with serverName := rec.body })
      else .ok (.ret { r with serverName := rec.body })
    | 7 => -- NTPv4 Port Negotiation
      if rec.bodyLength ≠ 2 then .ok (.ret r)
      else do
        let port ← readBe16 rec.body 0
        .ok (.next { r with port })
    | _ => if rec.critical then .ok (.ret r) else .ok (.next r)

/-- mirrors nts_ke_record.rs:323-399 -/
def processResponse (m : Message) (aeadSupported : UInt16 → Bool) :
    Rust (Message × KeResponse) := do
  let r ← forEach (Message.nextRecord 256) (responseBody aeadSupported)
      (m.length + 1) m.resetParsing
    { ok := false, nextProtocol := -1, aeadAlgorithm := -1, cookies := []
      serverName := [], port := 0 }
  match r.2 with
  | .ret k => .ok (r.1, { k with ok := false })
  | .next k =>
    .ok (r.1, { k with ok := decide (k.cookies ≠ [] ∧ k.nextProtocol = 0 ∧ 0 ≤ k.aeadAlgorithm) })

/-- `(x as u16).to_be_bytes()` for `x: i32`. -/
def wordOf (x : Int) : Bytes := toBe 2 (x % 2 ^ 16).toNat

/-- mirrors nts_ke_record.rs:485-537 -/
def prepareResponse (error nextProtocol aeadAlgorithm : Int) (ntpPort : Option UInt16)
    (ntpServer : Option Bytes) (cookies : List Bytes) : Option Message := do
  let m ←
    if 0 ≤ error then tryAdd .new (true, 2, wordOf error)
    else if nextProtocol < 0 then tryAdd .new (true, 1, [])
    else if aeadAlgorithm < 0 then do
      let m ← tryAdd .new (true, 1, wordOf nextProtocol)
      tryAdd m (true, 4, [])
    else do
      let m ← tryAdd .new (true, 1, wordOf nextProtocol)
      let m ← tryAdd m (true, 4, wordOf aeadAlgorithm)
      let m ← match ntpPort with
        | some port => tryAdd m (true, 7, toBe 2 port.toNat)
        | none => some m
      let m ← match ntpServer with
        | some server => tryAdd m (true, 6, server)
        | none => some m
      cookies.foldlM (fun m cookie => tryAdd m (false, 5, cookie)) m
  let m ← tryAdd m (true, 0, [])
  some (completed m)

/-! ## Prepared messages are lists of records -/

/-- What `next_record` gives for a record that was added. -/
def viewOf (rec : Bool × Int × Bytes) : KeRecord :=
  ⟨rec.1, rec.2.1, rec.2.2.length, rec.2.2.take 256⟩

theorem foldlM_tryAdd (m : Message) (recs : List (Bool × Int × Bytes)) :
    recs.foldlM tryAdd m = if (addRecords m recs).2 then some (addRecords m recs).1 else none := by
  induction recs generalizing m with
  | nil => rfl
  | cons rec recs ih =>
    rw [List.foldlM_cons, addRecords, tryAdd]
    by_cases h : (m.addRecord rec.1 rec.2.1 rec.2.2).2
    · simp [h, ih]
    · simp [h]

def requestRecords (aeadSupported : UInt16 → Bool) : List (Bool × Int × Bytes) :=
  [(true, 1, toBe 2 0),
    (true, 4, (if aeadSupported 30 then toBe 2 30 else []) ++
      (if aeadSupported 15 then toBe 2 15 else []))]

def responseRecords (error nextProtocol aeadAlgorithm : Int) (ntpPort : Option UInt16)
    (ntpServer : Option Bytes) (cookies : List Bytes) : List (Bool × Int × Bytes) :=
  if 0 ≤ error then [(true, 2, wordOf error)]
  else if nextProtocol < 0 then [(true, 1, [])]
  else if aeadAlgorithm < 0 then [(true, 1, wordOf nextProtocol), (true, 4, [])]
  else [(true, 1, wordOf nextProtocol), (true, 4, wordOf aeadAlgorithm)] ++
    (ntpPort.toList.map fun port => (true, 7, toBe 2 port.toNat)) ++
    (ntpServer.toList.map fun server => (true, 6, server)) ++
    cookies.map fun cookie => (false, 5, cookie)

def prepared (recs : List (Bool × Int × Bytes)) : Option Message := do
  let m ← recs.foldlM tryAdd .new
  let m ← tryAdd m (true, 0, [])
  some (completed m)

theorem prepareRequest_eq (aeadSupported : UInt16 → Bool) :
    prepareRequest aeadSupported = prepared (requestRecords aeadSupported) := by
  simp [prepareRequest, prepared, requestRecords, Option.bind_assoc]

theorem prepareResponse_eq (error nextProtocol aeadAlgorithm : Int) (ntpPort : Option UInt16)
    (ntpServer : Option Bytes) (cookies : List Bytes) :
    prepareResponse error nextProtocol aeadAlgorithm ntpPort ntpServer cookies =
      prepared (responseRecords error nextProtocol aeadAlgorithm ntpPort ntpServer cookies) := by
  unfold prepareResponse prepared responseRecords
  split
  · simp
  split
  · simp
  split
  · simp [Option.bind_assoc]
  · cases ntpPort <;> cases ntpServer <;> simp [List.foldlM_map, Option.bind_assoc]

variable {recs : List (Bool × Int × Bytes)}

theorem prepared_some {m : Message} (h : prepared recs = some m) :
    ∃ rs : List Frame, rs.map (fun r => (r.critical, (r.type : Int), r.body)) = recs ∧
      m.data = frames.encAll (rs ++ [terminator]) := by
  unfold prepared at h
  obtain ⟨m1, h1, h⟩ := Option.bind_eq_some_iff.1 h
  obtain ⟨m2, h2, h⟩ := Option.bind_eq_some_iff.1 h
  obtain rfl := Option.some.inj h
  have hall : (recs ++ [(true, 0, [])]).foldlM tryAdd .new = some m2 := by
    rw [List.foldlM_append, h1]
    simp [h2]
  rw [foldlM_tryAdd] at hall
  split at hall
  · rename_i hadd
    obtain ⟨rs, hrs, hm⟩ := addRecords_true hadd
    obtain ⟨rs, last, rfl, hinit, hlast⟩ := List.map_eq_append_iff.1 hrs
    obtain ⟨t, rfl, ht⟩ := List.map_eq_singleton_iff.1 hlast
    have hterm : t = terminator :=
      Frame.ext (congrArg (·.1) ht) (Int.natCast_inj.1 (congrArg (·.2.1) ht)) (congrArg (·.2.2) ht)
    refine ⟨rs, hinit, ?_⟩
    rw [Option.some.inj hall] at hm
    show m2.data = _
    rw [hm, hterm]
    rfl
  · cases hall

theorem prepared_isSome (h : ∀ rec ∈ recs, 0 ≤ rec.2.1 ∧ rec.2.1 ≤ 0x7fff ∧ rec.2.2.length ≤ 0xffff)
    (hfit : (recs.map fun rec => 4 + rec.2.2.length).sum + 4 ≤ 16384) :
      ∃ m, prepared recs = some m := by
  have hall : (addRecords .new (recs ++ [(true, 0, [])])).2 = true := by
    refine addRecords_fits (fun rec hrec => ?_) ?_
    · rcases List.mem_append.1 hrec with hrec | hrec
      · exact h rec hrec
      · rw [List.mem_singleton.1 hrec]
        decide
    · simp only [List.map_append, List.sum_append]
      exact (Nat.zero_add _).trans_le hfit
  have hsome := foldlM_tryAdd .new (recs ++ [(true, 0, [])])
  rw [if_pos hall] at hsome
  rw [List.foldlM_append] at hsome
  obtain ⟨m1, h1, h2⟩ := Option.bind_eq_some_iff.1 hsome
  rw [List.foldlM_cons] at h2
  obtain ⟨m2, h2, -⟩ := Option.bind_eq_some_iff.1 h2
  exact ⟨completed m2, Option.bind_eq_some_iff.2 ⟨m1, h1, Option.bind_eq_some_iff.2 ⟨m2, h2, rfl⟩⟩⟩

/-- **Processing** a prepared message is a fold over the records it was prepared from. -/
theorem processed {σ β : Type} {body : σ → KeRecord → Rust (Flow σ β)} {m : Message}
    (h : prepared recs = some m) (htypes : ∀ rec ∈ recs, rec.2.1 ≠ 0) {s : σ} {f : Flow σ β}
    (hf : foldFlow body s (recs.map viewOf) = .ok f) :
    ∃ m', forEach (Message.nextRecord 256) body (m.length + 1) m.resetParsing s = .ok (m', f) := by
  obtain ⟨rs, rfl, hdata⟩ := prepared_some h
  have hrs : ∀ r ∈ rs, r.type ≠ 0 := fun r hr h0 =>
    htypes _ (List.mem_map_of_mem hr) (congrArg Nat.cast h0)
  have hview : rs.map (Frame.view 256) = (rs.map fun r =>
      (r.critical, (r.type : Int), r.body)).map viewOf := by
    rw [List.map_map]
    rfl
  have hlen : rs.length < m.length + 1 := by
    have hle := frames.encAll_length_le (rs ++ [terminator])
    rw [← hdata, m.length_eq, List.length_append] at hle
    omega
  have hrest : m.resetParsing.rest = frames.encAll rs ++ terminator.enc := by
    rw [Message.rest_resetParsing, hdata, Framing.encAll_append]
    simp [frames]
  rw [← hview] at hf
  obtain ⟨n, hrun, -⟩ := forEach_eq (gets_nextRecord (by decide) hrs) s hrest hlen hf
  exact ⟨_, hrun⟩

/-! ## The client's request at the server -/

def words (as : List UInt16) : Bytes := as.flatMap fun a => toBe 2 a.toNat

@[simp] theorem words_length (as : List UInt16) : (words as).length = 2 * as.length := by
  induction as with
  | nil => rfl
  | cons a as ih =>
    rw [words, List.flatMap_cons, List.length_append, toBe_length]
    change 2 + (words as).length = _
    rw [ih, List.length_cons]
    omega

theorem readBe16_toBe (a : UInt16) (rest : Bytes) :
    readBe16 (toBe 2 a.toNat ++ rest) 0 = .ok a := by
  have ha := a.toNat_lt
  have hbytes : fromBe (toBe 2 a.toNat) =
      a.toNat := by rw [fromBe_toBe, Nat.mod_eq_of_lt (by omega)]
  exact congrArg Except.ok ((congrArg UInt16.ofNat hbytes).trans UInt16.ofNat_toNat)

theorem readBe16_words {as : List UInt16} {i : Nat} {a : UInt16} (h : as[i]? = some a) :
    readBe16 (words as) i = .ok a := by
  induction as generalizing i with
  | nil => cases h
  | cons b as ih =>
    cases i with
    | zero =>
      obtain rfl := Option.some.inj h
      exact readBe16_toBe _ (words as)
    | succ i => exact ih h

/-- A loop over the values of a record. -/
theorem foldlM_words {σ : Type} (g : σ → UInt16 → σ) (as : List UInt16) (s : σ) :
    (List.range as.length).foldlM (fun s i => do let a ← readBe16 (words as) i; .ok (g s a)) s =
      (.ok (as.foldl g s) : Rust σ) := by
  have hgen : ∀ n ≤ as.length, (List.range n).foldlM
      (fun s i => do let a ← readBe16 (words as) i; .ok (g s a)) s =
        (.ok ((as.take n).foldl g s) : Rust σ) := by
    intro n
    induction n with
    | zero => exact fun _ => rfl
    | succ n ih =>
      intro hn
      have hget : as[n]? = some as[n] := List.getElem?_eq_getElem hn
      rw [List.range_succ, List.foldlM_append, ih (by omega), ok_bind, List.foldlM_cons,
        readBe16_words hget, List.take_add_one, hget, List.foldl_append]
      rfl
  have hall := hgen as.length le_rfl
  rwa [List.take_length] at hall

theorem forValues_words (as : List UInt16) (h : as.length ≤ 128) (critical : Bool)
    (recordType : Int) (keep : RequestState → UInt16 → RequestState) (s : RequestState) :
    forValues (viewOf (critical, recordType, words as)) keep s = .ok (as.foldl keep s) := by
  have hbody : (words as).take 256 = words as := List.take_of_length_le (by simp; omega)
  have hcount : (min ((words as).length : Int) 256).toNat / 2 = as.length := by simp; omega
  unfold forValues viewOf
  simp only [hbody, hcount]
  exact foldlM_words keep as s

theorem algorithm_foldl (server : UInt16 → Bool) (as : List UInt16) (s : RequestState) :
    as.foldl (keepAlgorithm server) s = { s with
      aeadAlgorithmValues := s.aeadAlgorithmValues + as.length
      aeadAlgorithm := if s.aeadAlgorithm < 0 then
        (match as.find? server with | some a => (a.toNat : Int) | none => s.aeadAlgorithm)
          else s.aeadAlgorithm } := by
  induction as generalizing s with
  | nil => simp
  | cons a as ih =>
    rw [List.foldl_cons, ih, List.find?_cons, List.length_cons]
    by_cases hneg : s.aeadAlgorithm < 0
    · cases hsup : server a with
      | true => simp [keepAlgorithm, hneg, hsup, Nat.add_assoc, Nat.add_comm 1]
      | false => simp [keepAlgorithm, hneg, hsup, Nat.add_assoc, Nat.add_comm 1]
    · simp [keepAlgorithm, hneg, Nat.add_assoc, Nat.add_comm 1]

theorem requestRecords_eq (client : UInt16 → Bool) :
    requestRecords client = [(true, 1, words [0]), (true, 4, words ([30, 15].filter client))] := by
  cases h30 : client 30 <;> cases h15 : client 15 <;> simp [requestRecords, h30, h15, words]

/-- The first algorithm of the client's list that the server supports, or -1. -/
def selected (client server : UInt16 → Bool) : Int :=
  match ([30, 15].filter client).find? server with
  | some a => a.toNat
  | none => -1

theorem requestBody_protocol {server : UInt16 → Bool} {s : RequestState} {rec : KeRecord}
    (htype : rec.recordType = 1) (hcritical : rec.critical = true) (hlen : 2 ≤ rec.bodyLength)
    (heven : rec.bodyLength % 2 = 0) : requestBody server s rec =
      (forValues rec keepProtocol { s with nextProtocolRecords := s.nextProtocolRecords + 1 } >>=
        fun s =>
        .ok (.next s)) := by
  unfold requestBody
  rw [htype]
  exact if_neg (by rw [hcritical]; simp; omega)

theorem requestBody_algorithm {server : UInt16 → Bool} {s : RequestState} {rec : KeRecord}
    (htype : rec.recordType = 4) (hlen : 2 ≤ rec.bodyLength) (heven : rec.bodyLength % 2 = 0) :
    requestBody server s rec = (forValues rec (keepAlgorithm server)
      { s with aeadAlgorithmRecords := s.aeadAlgorithmRecords + 1 } >>= fun s =>
        .ok (.next s)) := by
  unfold requestBody
  rw [htype]
  exact if_neg (by omega)

theorem request_fold (client server : UInt16 → Bool) (h : client 30 = true ∨ client 15 = true) :
    foldFlow (requestBody server) ⟨0, 0, 0, 0, -1, -1⟩ ((requestRecords client).map viewOf) =
      .ok (.next ⟨1, 1, 1, ([30, 15].filter client).length, 0, selected client server⟩) := by
  have hne : [30, 15].filter client ≠ [] := by
    rcases h with h | h <;> simp [h]
  have hpos := List.length_pos_iff.2 hne
  have hle : ([30, 15].filter client).length ≤ 2 := List.length_filter_le _ _
  have h1 : requestBody server ⟨0, 0, 0, 0, -1, -1⟩ (viewOf (true, 1, words [0])) =
      .ok (.next ⟨1, 0, 1, 0, 0, -1⟩) := by
    rw [requestBody_protocol rfl rfl (by decide) (by decide), forValues_words [0] (by decide)]
    rfl
  have h2 : requestBody server ⟨1, 0, 1, 0, 0, -1⟩
      (viewOf (true, 4, words ([30, 15].filter client))) =
      .ok (.next ⟨1, 1, 1, ([30, 15].filter client).length, 0, selected client server⟩) := by
    rw [requestBody_algorithm rfl (by simp [viewOf]; omega) (by simp [viewOf]),
      forValues_words _ (by omega), algorithm_foldl]
    simp [selected]
  rw [requestRecords_eq, List.map_cons, foldFlow_cons h1, List.map_cons, foldFlow_cons h2]
  rfl

theorem prepareRequest_isSome (client : UInt16 → Bool) : ∃ m, prepareRequest client = some m := by
  have hle : ([30, 15].filter client).length ≤ 2 := List.length_filter_le _ _
  rw [prepareRequest_eq, requestRecords_eq]
  refine prepared_isSome ?_ ?_
  · simp
    omega
  · simp
    omega

/-! ## The server's response at the client -/

theorem wordOf_toNat (a : UInt16) : wordOf a.toNat = toBe 2 a.toNat := by
  have ha := a.toNat_lt
  have hmod : ((a.toNat : Int) % 2 ^ 16).toNat = a.toNat := by omega
  rw [wordOf, hmod]

theorem readBe16_word (a : UInt16) : readBe16 ((toBe 2 a.toNat).take 256) 0 = .ok a := by
  rw [List.take_of_length_le (by simp)]
  exact readBe16_toBe a []

section
variable (client : UInt16 → Bool) (r : KeResponse)

theorem responseBody_protocol : responseBody client r (viewOf (true, 1, wordOf 0)) =
    .ok (.next { r with nextProtocol := 0 }) := rfl

theorem responseBody_algorithm {alg : UInt16} (halg : alg = 30 ∨ alg = 15)
    (hsup : client alg = true) : responseBody client r (viewOf (true, 4, wordOf alg.toNat)) =
      .ok (.next { r with aeadAlgorithm := alg.toNat }) := by
  have hread := readBe16_word alg
  have hgood : ¬ ((alg ≠ 15 ∧ alg ≠ 30) ∨ client alg = false) := by
    rw [hsup]
    rcases halg with rfl | rfl <;> decide
  rw [wordOf_toNat]
  simp [responseBody, viewOf, hread, hgood]

theorem responseBody_port (port : UInt16) :
    responseBody client r (viewOf (true, 7, toBe 2 port.toNat)) = .ok (.next { r with port }) := by
  have hread := readBe16_word port
  simp [responseBody, viewOf, hread]

theorem responseBody_server {name : Bytes} (h1 : 1 ≤ name.length) (h2 : name.length ≤ 256)
    (h : name.all isAsciiGraphic = true) :
    responseBody client r (viewOf (true, 6, name)) = .ok (.next { r with serverName := name }) := by
  have hbody : name.take 256 = name := List.take_of_length_le h2
  have hlen : ¬ ((256 : Int) < name.length) := by omega
  have hrange : (1 : Int) ≤ name.length ∧ (name.length : Int) < 258 := by omega
  simp only [responseBody, viewOf, hbody, if_neg hlen, not_true_eq_false, if_false, hrange, h,
    if_true, and_self]

theorem responseBody_cookie {cookie : Bytes} (h1 : 4 ≤ cookie.length) (h2 : cookie.length ≤ 256)
    (h4 : cookie.length % 4 = 0) : responseBody client r (viewOf (false, 5, cookie)) =
      .ok (.next { r with
        cookies := if r.cookies.length < 8 then r.cookies ++ [cookie] else r.cookies }) := by
  have hbody : cookie.take 256 = cookie := List.take_of_length_le h2
  have hlen : ¬ ((256 : Int) < cookie.length) := by omega
  have hcond : ((1 : Int) ≤ cookie.length ∧ (cookie.length : Int) ≤ 256 ∧
      (cookie.length : Int) % 4 = 0 ∧ r.cookies.length < 8) ↔ r.cookies.length < 8 := by omega
  simp only [responseBody, viewOf, hbody, if_neg hlen, hcond]
  split <;> rfl

theorem response_cookies {cookies : List Bytes}
    (h : ∀ c ∈ cookies, 4 ≤ c.length ∧ c.length ≤ 256 ∧ c.length % 4 = 0)
    (hr : r.cookies.length ≤ 8) :
    foldFlow (responseBody client) r ((cookies.map fun c => (false, (5 : Int), c)).map viewOf) =
      .ok (.next { r with cookies := (r.cookies ++ cookies).take 8 }) := by
  induction cookies generalizing r with
  | nil =>
    rw [List.append_nil, List.take_of_length_le hr]
    rfl
  | cons c cookies ih =>
    obtain ⟨hc, hcs⟩ := List.forall_mem_cons.1 h
    rw [List.map_cons, List.map_cons, foldFlow_cons
      (responseBody_cookie client r hc.1 hc.2.1 hc.2.2)]
    by_cases hlt : r.cookies.length < 8
    · rw [if_pos hlt, ih _ hcs (by simp; omega)]
      simp
    · have h8 : r.cookies.length = 8 := by omega
      rw [if_neg hlt, ih _ hcs hr]
      simp only [List.take_append_of_le_length h8.ge]

end

/-- A response that agrees, at the client. -/
theorem response_fold {client : UInt16 → Bool} {alg : UInt16} {port : Option UInt16}
    {server : Option Bytes} {cookies : List Bytes} (halg : alg = 30 ∨ alg = 15)
    (hsup : client alg = true)
    (hserver : ∀ name ∈ server, 1 ≤ name.length ∧ name.length ≤ 256 ∧
      name.all isAsciiGraphic = true)
    (hcookies : ∀ c ∈ cookies, 4 ≤ c.length ∧ c.length ≤ 256 ∧ c.length % 4 = 0) :
    foldFlow (responseBody client) ⟨false, -1, -1, [], [], 0⟩
        ((responseRecords (-1) 0 alg.toNat port server cookies).map viewOf) =
      .ok (.next ⟨false, 0, alg.toNat, cookies.take 8, server.getD [], port.getD 0⟩) := by
  have hrecs : responseRecords (-1) 0 alg.toNat port server cookies =
      (true, 1, wordOf 0) :: (true, 4, wordOf alg.toNat) ::
        ((port.toList.map fun p => (true, 7, toBe 2 p.toNat)) ++
          ((server.toList.map fun name => (true, 6, name)) ++ cookies.map fun c =>
            (false, 5, c))) := by
    rw [responseRecords, if_neg (by decide), if_neg (by decide), if_neg (by omega)]
    simp
  have hport : ∀ r, foldFlow (responseBody client) r ((port.toList.map fun p =>
      (true, (7 : Int), toBe 2 p.toNat)).map viewOf) =
        .ok (.next { r with port := port.getD r.port }) := by
    intro r
    cases port with
    | none => rfl
    | some p => exact foldFlow_cons (responseBody_port client r p) []
  have hname : ∀ r, foldFlow (responseBody client) r ((server.toList.map fun name =>
      (true, (6 : Int), name)).map viewOf) =
        .ok (.next { r with serverName := server.getD r.serverName }) := by
    intro r
    cases server with
    | none => rfl
    | some name =>
      obtain ⟨h1, h2, h3⟩ := hserver name rfl
      exact foldFlow_cons (responseBody_server client r h1 h2 h3) []
  rw [hrecs, List.map_cons, foldFlow_cons (responseBody_protocol client _), List.map_cons,
    foldFlow_cons (responseBody_algorithm client _ halg hsup), List.map_append,
      foldFlow_append (hport _),
    List.map_append, foldFlow_append (hname _), response_cookies client _ hcookies (by simp)]
  simp

/-- A response that reports a failure is left with an error, at its first or second record. -/
theorem response_failure (client : UInt16 → Bool) {error nextProtocol aeadAlgorithm : Int}
    (h : 0 ≤ error ∨ nextProtocol < 0 ∨ aeadAlgorithm < 0) (port : Option UInt16)
    (server : Option Bytes)
    (cookies : List Bytes) : ∃ r, foldFlow (responseBody client) ⟨false, -1, -1, [], [], 0⟩
        ((responseRecords error nextProtocol aeadAlgorithm port server cookies).map viewOf) =
          .ok (.ret r) := by
  unfold responseRecords
  split
  · exact ⟨_, rfl⟩
  split
  · exact ⟨_, rfl⟩
  split
  · -- the protocol may be refused already, and the empty list of algorithms is
    have hfirst : responseBody client ⟨false, -1, -1, [], [], 0⟩
        (viewOf (true, 1, wordOf nextProtocol)) =
        if UInt16.ofNat (fromBe (wordOf nextProtocol)) ≠ 0 then
          .ok (.ret ⟨false, -1, -1, [], [], 0⟩)
        else .ok (.next ⟨false, 0, -1, [], [], 0⟩) := rfl
    by_cases h0 : UInt16.ofNat (fromBe (wordOf nextProtocol)) ≠ 0
    · rw [if_pos h0] at hfirst
      exact ⟨_, by rw [List.map_cons, foldFlow, hfirst]; rfl⟩
    · rw [if_neg h0] at hfirst
      exact ⟨_, by rw [List.map_cons, foldFlow_cons hfirst]; rfl⟩
  · omega

@[simp] theorem wordOf_length (x : Int) : (wordOf x).length = 2 := toBe_length _ _

theorem response_failure_fits {error nextProtocol aeadAlgorithm : Int}
    (h : 0 ≤ error ∨ nextProtocol < 0 ∨ aeadAlgorithm < 0) (port : Option UInt16)
    (server : Option Bytes) (cookies : List Bytes) :
    ∃ m, prepared (responseRecords error nextProtocol aeadAlgorithm port server cookies) =
      some m := by
  unfold responseRecords
  split
  · exact prepared_isSome (by simp) (by simp)
  split
  · exact prepared_isSome (by simp) (by simp)
  split
  · exact prepared_isSome (by simp) (by simp)
  · omega

theorem responseRecords_types (error nextProtocol aeadAlgorithm : Int) (port : Option UInt16)
    (server : Option Bytes) (cookies : List Bytes) :
    ∀ rec ∈ responseRecords error nextProtocol aeadAlgorithm port server cookies, rec.2.1 ≠ 0 := by
  unfold responseRecords
  split
  · simp
  split
  · simp
  split
  · simp
  · cases port <;> cases server <;> simp

/-- **Agreement.** The server selects the first algorithm in the client's order that it supports,
and the client finds in the response what the server put there; it takes the response iff there is a
cookie, and none that reports a failure. -/
theorem negotiation_agreement :
    (∀ client server : UInt16 → Bool, ∃ m, prepareRequest client = some m ∧
      (client 30 = true ∨ client 15 = true → ∃ m', processRequest m server =
        .ok (m', ⟨-1, 0, selected client server⟩))) ∧
    (∀ (client : UInt16 → Bool) (alg : UInt16) (port : Option UInt16) (server : Option Bytes)
      (cookies : List Bytes) (m : Message), (alg = 30 ∨ alg = 15) → client alg = true →
      (∀ name ∈ server, 1 ≤ name.length ∧ name.length ≤ 256 ∧ name.all isAsciiGraphic = true) →
      (∀ c ∈ cookies, 4 ≤ c.length ∧ c.length ≤ 256 ∧ c.length % 4 = 0) →
      prepareResponse (-1) 0 alg.toNat port server cookies = some m →
      ∃ m', processResponse m client =
        .ok (m', ⟨decide (cookies ≠ []), 0, alg.toNat, cookies.take 8, server.getD [],
          port.getD 0⟩)) ∧
    (∀ (client : UInt16 → Bool) (error nextProtocol aeadAlgorithm : Int) (port : Option UInt16)
      (server : Option Bytes) (cookies : List Bytes),
      0 ≤ error ∨ nextProtocol < 0 ∨ aeadAlgorithm < 0 →
        ∃ m, prepareResponse error nextProtocol aeadAlgorithm
        port server cookies = some m ∧ ∃ m' r, processResponse m client = .ok (m', r) ∧
          r.ok = false) := by
  refine ⟨fun client server => ?_, fun client alg port server cookies m halg hsup hserver
    hcookies hm => ?_, fun client error np alg port server cookies h => ?_⟩
  · obtain ⟨m, hm⟩ := prepareRequest_isSome client
    refine ⟨m, hm, fun hclient => ?_⟩
    rw [prepareRequest_eq] at hm
    obtain ⟨m', hrun⟩ := processed hm (by simp [requestRecords])
      (request_fold client server hclient)
    have hpos : 0 < ([30, 15].filter client).length := by
      rcases hclient with hc | hc <;> simp [hc]
    refine ⟨m', ?_⟩
    rw [processRequest, hrun, ok_bind]
    refine congrArg (fun k => Except.ok (m', k)) ?_
    have hshape : ¬ (1 ≠ 1 ∨ 1 < 1 ∨ ((0 : Int) = 0 ∧
        (1 ≠ 1 ∨ ([30, 15].filter client).length < 1))) := by omega
    exact if_neg hshape
  · rw [prepareResponse_eq] at hm
    obtain ⟨m', hrun⟩ := processed hm (responseRecords_types _ _ _ _ _ _)
      (response_fold halg hsup hserver hcookies)
    refine ⟨m', ?_⟩
    rw [processResponse, hrun, ok_bind]
    cases cookies <;> simp
  · obtain ⟨m, hm⟩ := response_failure_fits h port server cookies
    obtain ⟨r, hr⟩ := response_failure client h port server cookies
    obtain ⟨m', hrun⟩ := processed hm (responseRecords_types _ _ _ _ _ _) hr
    refine ⟨m, by rw [prepareResponse_eq, hm], m', { r with ok := false }, ?_, rfl⟩
    rw [processResponse, hrun, ok_bind]

/-- A client with both algorithms and a server with the second one; a response with an address, a
name and a cookie; and one without an algorithm. -/
theorem negotiation_agreement_both :
    (∃ m m', prepareRequest (fun _ => true) = some m ∧
      processRequest m (fun a => a == 15) = .ok (m', ⟨-1, 0, 15⟩)) ∧
    (∃ m m', prepareResponse (-1) 0 15 (some 4123) (some [0x61, 0x62]) [[1, 2, 3, 4]] = some m ∧
      processResponse m (fun _ => true) =
        .ok (m', ⟨true, 0, 15, [[1, 2, 3, 4]], [0x61, 0x62], 4123⟩)) ∧
    (∃ m m' r, prepareResponse (-1) 0 (-1) none none [] = some m ∧
      processResponse m (fun _ => true) = .ok (m', r) ∧ r.ok = false) := by
  obtain ⟨hreq, hresp, hfail⟩ := negotiation_agreement
  refine ⟨?_, ?_, ?_⟩
  · obtain ⟨m, hm, h⟩ := hreq (fun _ => true) (fun a => a == 15)
    obtain ⟨m', h⟩ := h (.inl rfl)
    exact ⟨m, m', hm, h⟩
  · obtain ⟨m, hm⟩ := Option.isSome_iff_exists.1
      (show (prepareResponse (-1) 0 15 (some 4123) (some [0x61, 0x62])
        [[1, 2, 3, 4]]).isSome by decide +kernel)
    obtain ⟨m', h⟩ := hresp (fun _ => true) 15 (some 4123) (some [0x61, 0x62]) [[1, 2, 3, 4]] m
      (.inr rfl) rfl
      (by decide) (by decide) hm
    exact ⟨m, m', hm, h⟩
  · obtain ⟨m, hm, m', r, h⟩ := hfail (fun _ => true) (-1) 0 (-1) none none []
      (.inr (.inr (by decide)))
    exact ⟨m, m', r, hm, h⟩

end ChronyRs.L3.Negotiate

import ChronyRs.L4Cmd.Wire

/-!
# Framing and permissions of commands (`pktlength.rs`, `cmdmon.rs`)

The length tables, the checks of a request's header in front of the dispatcher, the table of
permissions and the header of replies.
-/
namespace ChronyRs.L4.Cmd

/-! ## Lengths (`pktlength.rs`) -/

/-- The length of each request and its padding.
mirrors pktlength.rs:35-44 -/
def requestLengths : List (Nat × Nat) := [
  (20, 8), (60, 0), (60, 0), (68, 0), (44, 0), (44, 0), (24, 4), (44, 0), (44, 0), (24, 4),
  (32, 0), (32, 8), (0, 0), (24, 4), (20, 12), (24, 52), (20, 8), (44, 0), (44, 0), (44, 0),
  (44, 0), (44, 0), (44, 0), (44, 0), (44, 0), (40, 0), (40, 0), (0, 0), (0, 0), (40, 0),
  (20, 8), (24, 4), (0, 0), (20, 84), (24, 60), (20, 36), (20, 8), (20, 8), (0, 0), (0, 0),
  (0, 0), (20, 396), (24, 4), (20, 8), (20, 28), (44, 0), (44, 0), (44, 0), (20, 8), (24, 4),
  (28, 0), (20, 32), (24, 4), (20, 8), (20, 176), (0, 0), (36, 0), (40, 112), (0, 0), (0, 0),
  (0, 0), (0, 0), (20, 8), (20, 8), (372, 0), (40, 244), (20, 8), (40, 12), (36, 484), (24, 52),
  (20, 8), (24, 4), (52, 0)]

/-- mirrors pktlength.rs:68-76 -/
def commandPaddingLength (version : UInt8) (command : UInt16) : Rust Int :=
  if version < 6 then pure 0
  else if 73 ≤ command then pure 0
  else do
    let (_, padding) ← index requestLengths command.toNat
    pure padding

/-- No sum of the table is near the range of `i32` (`requestLengths_le`).
mirrors pktlength.rs:55-64 -/
def commandLength (version : UInt8) (command : UInt16) : Rust Int :=
  if 73 ≤ command then pure 0
  else do
    let (base, _) ← index requestLengths command.toNat
    if base = 0 then pure 0
    else do
      let padding ← commandPaddingLength version command
      pure (base + padding)

/-! ## Requests (`validate_request`) -/

/-- mirrors cmdmon.rs:150-160 -/
inductive CmdValidation where
  | drop
  | reply (status : UInt16)
  | valid (expectedLength : Int)
  deriving DecidableEq, Repr

/-- `CMD_REQUEST_DATA_OFFSET`, `CMD_REPLY_DATA_OFFSET`, `CMD_REQUEST_SIZE` are 20, 28 and 860;
the statuses are `STT_BADPKTVERSION`, `STT_INVALID` and `STT_BADPKTLENGTH`.
mirrors cmdmon.rs:166-206 -/
def validateRequest (readLength : Nat) (pktType res1 res2 version : UInt8) (command : UInt16) :
    Rust CmdValidation :=
  if readLength < 20 ∨ readLength < 28 ∨ 860 < readLength then pure .drop
  else if pktType ≠ 1 ∨ res1 ≠ 0 ∨ res2 ≠ 0 then pure .drop
  else do
    let expected ← commandLength version command
    if version ≠ 6 then pure (if 5 ≤ version then .reply 18 else .drop)
    else if 73 ≤ command ∨ expected < 20 then pure (.reply 3)
    else if asI32 readLength < expected then pure (.reply 19)
    else pure (.valid expected)

/-- The fields that the receiver reads from a request. -/
structure Header where
  version : UInt8
  pktType : UInt8
  res1 : UInt8
  res2 : UInt8
  command : UInt16
  commandBe : Bytes
  sequenceBe : Bytes

/-- mirrors chrony-rs-io/cmdmon.rs:128-141 -/
def readHeader (data : Bytes) : Rust Header := do
  let commandBe ← slice data 4 6
  let sequenceBe ← slice data 8 12
  let pktType ← index data 1
  let res1 ← index data 2
  let res2 ← index data 3
  let version ← index data 0
  pure ⟨version, pktType, res1, res2, Codec.dec commandBe, commandBe, sequenceBe⟩

/-- What `validate_request` says about a request. -/
def validate (data : Bytes) : Rust CmdValidation := do
  let h ← readHeader data
  validateRequest data.length h.pktType h.res1 h.res2 h.version h.command

/-! ## Permissions -/

/-- mirrors cmdmon.rs:1153-1161 -/
inductive Permit where
  | opn | loc | auth
  deriving DecidableEq, Repr

/-- mirrors cmdmon.rs:1179-1256 -/
def permissions : List Permit :=
  let O := Permit.opn
  let A := Permit.auth
  [O, A, A, A, A, A, A, A, A, A, -- NULL .. MODIFY_MAXUPDATESKEW
   O, A, A, A, O, O, A, A, A, A, -- LOGON, N_SOURCES and SOURCE_DATA are open
   A, A, A, A, A, A, A, A, A, A,
   A, A, A, O, O, O, A, A, A, A, -- TRACKING, SOURCESTATS, RTCREPORT
   A, O, A, A, O, A, A, A, A, A, -- MANUAL_LIST, ACTIVITY
   A, O, A, A, A, A, A, A, A, A, -- SMOOTHING
   A, A, A, A, A, O, A, A, A, A, -- NTP_SOURCE_NAME
   A, A, A]

/-- mirrors cmdmon.rs:1260-1262 -/
def commandPermission (command : UInt16) : Rust Permit := index permissions command.toNat

/-- mirrors cmdmon.rs:1268-1277 -/
def isCommandAllowed (command : UInt16) (fromUnixSocket localhost : Bool) : Rust Bool :=
  if fromUnixSocket then pure true
  else do
    match ← commandPermission command with
    | .opn => pure true
    | .loc => pure localhost
    | .auth => pure false

/-! ## Replies -/

/-- mirrors cmdmon.rs:1282-1284 -/
def replyFits (requestLength replyLength : Int) : Bool := replyLength ≤ requestLength

/-- Version 6, type 2; the command and the sequence number are those of the request.
mirrors cmdmon.rs:1133-1147 -/
def buildReplyHeader (commandBe sequenceBe : Bytes) (reply status : UInt16) : Bytes :=
  [6, 2, 0, 0] ++ commandBe ++ beU16 reply ++ beU16 status ++ List.replicate 6 0 ++ sequenceBe ++
    List.replicate 8 0

theorem length_buildReplyHeader {commandBe sequenceBe : Bytes} (hc : commandBe.length = 2)
    (hs : sequenceBe.length = 4) (reply status : UInt16) :
    (buildReplyHeader commandBe sequenceBe reply status).length = 28 := by
  simp [buildReplyHeader, beU16, hc, hs]

/-! ## What is accepted -/

/-- The length of a request with its padding; zero for commands that are not supported. -/
def paddedLength (command : UInt16) : Nat :=
  match requestLengths[command.toNat]? with
  | some (base, padding) => if base = 0 then 0 else base + padding
  | none => 0

theorem requestLengths_length : requestLengths.length = 73 := by decide

theorem requestLengths_le : ∀ p ∈ requestLengths, p.1 + p.2 ≤ 860 := by
  have : requestLengths.all (fun p => p.1 + p.2 ≤ 860) = true := by decide
  simpa only [List.all_eq_true, decide_eq_true_eq] using this

theorem requestLengths_ge : ∀ p ∈ requestLengths, p.1 = 0 ∨ 28 ≤ p.1 + p.2 := by
  have : requestLengths.all (fun p => p.1 == 0 || 28 ≤ p.1 + p.2) = true := by decide
  simpa only [List.all_eq_true, Bool.or_eq_true, beq_iff_eq, decide_eq_true_eq] using this

variable {command : UInt16} {data : Bytes}

theorem forall_command {P : UInt16 → Bool} (h : ((List.range 73).all fun n => P (.ofNat n)) = true)
    (hc : command < 73) : P command = true := by
  have := List.all_eq_true.1 h command.toNat (List.mem_range.2 (UInt16.lt_iff_toNat_lt.1 hc))
  rwa [UInt16.ofNat_toNat] at this

theorem exists_length (h : command < 73) :
    ∃ p, requestLengths[command.toNat]? = some p := by
  have hlt : command.toNat < requestLengths.length := by
    rw [requestLengths_length]
    exact UInt16.lt_iff_toNat_lt.1 h
  exact ⟨_, List.getElem?_eq_getElem hlt⟩

theorem commandLength_of_supported (h : command < 73) :
    commandLength 6 command = .ok (paddedLength command) := by
  obtain ⟨⟨base, padding⟩, hp⟩ := exists_length h
  have hn : ¬ 73 ≤ command := UInt16.not_le.2 h
  have hv : ¬ (6 : UInt8) < 6 := by decide
  unfold commandLength paddedLength commandPaddingLength
  rw [if_neg hn, if_neg hn, if_neg hv, index_eq_ok.2 hp, hp]
  simp only [ok_bind, pure_eq]
  by_cases h0 : base = 0
  · rw [if_pos h0, if_pos h0]
    rfl
  · rw [if_neg h0, if_neg h0, Nat.cast_add]

def commandOf (data : Bytes) : UInt16 := Codec.dec ((data.take 6).drop 4)

theorem readHeader_eq (h : 20 ≤ data.length) : readHeader data =
    .ok ⟨data[0], data[1], data[2], data[3], commandOf data, (data.take 6).drop 4,
      (data.take 12).drop 8⟩ := by
  unfold readHeader
  rw [slice_of_le (by decide) (by omega), slice_of_le (by decide) (by omega),
    index_of_lt (by omega), index_of_lt (by omega), index_of_lt (by omega), index_of_lt (by omega)]
  rfl

theorem readHeader_spec (h : 20 ≤ data.length) : ∃ hd, readHeader data = .ok hd ∧
    hd.command = commandOf data ∧ hd.commandBe.length = 2 ∧ hd.sequenceBe.length = 4 ∧
    validate data = validateRequest data.length hd.pktType hd.res1 hd.res2 hd.version
      hd.command := by
  refine ⟨_, readHeader_eq h, rfl, ?_, ?_, ?_⟩
  · rw [List.length_drop, List.length_take]
    omega
  · rw [List.length_drop, List.length_take]
    omega
  · rw [validate, readHeader_eq h]
    rfl

structure Accepted (data : Bytes) : Prop where
  ge : 28 ≤ data.length
  le : data.length ≤ 860
  header : data.take 4 = [6, 1, 0, 0]
  command : commandOf data < 73
  supported : 0 < paddedLength (commandOf data)
  padded : paddedLength (commandOf data) ≤ data.length

theorem paddedLength_ge (h : 0 < paddedLength command) : 28 ≤ paddedLength command := by
  unfold paddedLength at h ⊢
  cases hc : requestLengths[command.toNat]? with
  | none => rw [hc] at h; exact absurd h (by decide)
  | some p =>
    have hp := requestLengths_ge p (List.mem_of_getElem? hc)
    rw [hc] at h
    dsimp only at h ⊢
    split at h <;> split <;> omega

theorem paddedLength_le (command : UInt16) : paddedLength command ≤ 860 := by
  unfold paddedLength
  cases hc : requestLengths[command.toNat]? with
  | none => exact Nat.zero_le _
  | some p =>
    have hp := requestLengths_le p (List.mem_of_getElem? hc)
    dsimp only
    split <;> omega

theorem take_four_eq (h : 20 ≤ data.length) (a b c d : UInt8) :
    data.take 4 = [a, b, c, d] ↔ data[0] = a ∧ data[1] = b ∧ data[2] = c ∧ data[3] = d := by
  match data, h with
  | w :: x :: y :: z :: rest, _ => simp

/-- **Acceptance.** -/
theorem validate_eq_valid_iff (h : 20 ≤ data.length) (n : Int) :
    validate data = .ok (.valid n) ↔ Accepted data ∧ n = paddedLength (commandOf data) := by
  unfold validate
  rw [readHeader_eq h, ok_bind]
  unfold validateRequest
  dsimp only
  constructor
  · intro hv
    split at hv
    · cases hv
    split at hv
    · cases hv
    rename_i hlen hhead
    simp only [not_or, Nat.not_lt, ne_eq, not_not] at hlen hhead
    obtain ⟨expected, hexp, hv⟩ := bind_eq_ok.1 hv
    split at hv
    · split at hv <;> cases hv
    split at hv
    · cases hv
    split at hv
    · cases hv
    rename_i hver hcmd hle
    cases hv
    rw [not_or, UInt16.not_le] at hcmd
    rw [not_not.1 hver, commandLength_of_supported hcmd.1] at hexp
    cases hexp
    rw [asI32_of_lt (by omega)] at hle
    refine ⟨⟨hlen.2.1, hlen.2.2, ?_, hcmd.1, by omega, by omega⟩, rfl⟩
    exact (take_four_eq h 6 1 0 0).2 ⟨not_not.1 hver, hhead.1, hhead.2.1, hhead.2.2⟩
  · rintro ⟨ha, rfl⟩
    obtain ⟨h0, h1, h2, h3⟩ := (take_four_eq h 6 1 0 0).1 ha.header
    have hge := ha.ge
    have hle := ha.le
    have hpad := paddedLength_ge ha.supported
    have hbad : ¬ (73 ≤ commandOf data ∨ (paddedLength (commandOf data) : Int) < 20) := by
      intro hor
      exact hor.elim (UInt16.not_le.2 ha.command) (by omega)
    rw [if_neg (by omega), if_neg (by rw [h1, h2, h3]; decide), h0,
      commandLength_of_supported ha.command, ok_bind, if_neg (by decide), if_neg hbad,
      asI32_of_lt (by omega), if_neg (by have := ha.padded; omega)]
    rfl

theorem accepted_of_validate {n : Int} (h : validate data = .ok (.valid n)) :
    Accepted data := by
  have hlen : 20 ≤ data.length := by
    obtain ⟨hd, -, h⟩ := bind_eq_ok.1 h
    unfold validateRequest at h
    split at h
    · cases h
    · omega
  exact ((validate_eq_valid_iff hlen n).1 h).1

/-- Only requests that are as long as the header of a reply are answered with an error. -/
theorem length_of_validate_reply (h : 20 ≤ data.length) {status : UInt16}
    (hr : validate data = .ok (.reply status)) : 28 ≤ data.length := by
  unfold validate at hr
  rw [readHeader_eq h, ok_bind] at hr
  unfold validateRequest at hr
  split at hr
  · cases hr
  · omega

end ChronyRs.L4.Cmd

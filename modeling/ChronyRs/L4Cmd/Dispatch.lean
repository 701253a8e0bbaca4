import ChronyRs.Core.Trace
import ChronyRs.L2Auth.Addrfilt
import ChronyRs.L4Cmd.Decoders
import ChronyRs.L4Cmd.Frame
import ChronyRs.L4Cmd.Reports

/-!
# The command server (`chrony-rs-io/src/cmdmon.rs`)

`dispatch` is the dispatcher that `real_dispatch` builds over closures for the daemon's state,
and `readFromCmdSocket` the handler of a command socket: access table, rate limit, checks of
the header, dispatcher, reply. Its trace has every call of the dispatcher and every reply, also
when the dispatcher panics in the end.

* `Arm.run_returns_iff`, `Arm.run_length`: how much of the request an arm reads, and the length
  of its reply.
* `receive_inv`, `receive_of_reaches`: which requests reach the dispatcher.
* `dispatch_mem_handleMessage`, `of_transmit_mem_handleMessage`, `handleMessage_returns_iff`: the
  effects of a datagram.
-/
namespace ChronyRs.L4.Cmd

open L2.Addrfilt (AuthTable)

variable {F : Type} [WireFloat F]

/-! ## The dispatcher (`real_dispatch`) -/

/-- What the closures of the daemon return at the time of a request.
mirrors chrony-rs-io/cmdmon.rs:441-452 -/
structure State (F : Type) where
  tracking : TrackingReport F
  sourceName : Int32 → Option Bytes
  nSources : Int32
  activity : ActivityReport
  serverStats : ServerStatsReport
  clientAccess : UInt32 → Option ClientAccessReport
  sourcestats : Int32 → Option (SourcestatsReport F)
  rtc : RtcReport F
  smoothing : SmoothingReport F
  commandKeyId : Option Int32

/-- The arms of the `match` over the command. -/
inductive Arm where
  | tracking | sourcestats | activity | serverStats | nSources | ntpSourceName | rtcreport
  | smoothing | clientAccesses
  | params (d : Decoder)
  | manual | addSource | logon | null
  deriving DecidableEq, Repr

/-- The arm of each command.
mirrors chrony-rs-io/cmdmon.rs:457-626 -/
def arm (command : UInt16) : Arm :=
  match command.toNat with
  | 33 => .tracking
  | 34 => .sourcestats
  | 44 => .activity
  | 54 => .serverStats
  | 14 => .nSources
  | 65 => .ntpSourceName
  | 35 => .rtcreport
  | 51 => .smoothing
  | 40 | 55 | 68 => .clientAccesses
  | 12 | 56 => .params .loc
  | 17 | 18 | 19 | 20 => .params .allowDeny -- ALLOW .. DENYALL
  | 21 | 22 | 23 | 24 => .params .allowDeny -- CMDALLOW .. CMDDENYALL
  | 25 | 26 => .params .address -- ACCHECK, CMDACCHECK
  | 29 => .params .address -- DEL_SOURCE
  | 4 | 5 | 7 | 8 | 47 | 45 | 46 => .params .modifyInt
  | 9 => .params .modifyFloat -- MODIFY_MAXUPDATESKEW
  | 50 => .params .makestep
  | 49 => .params .reselectDistance
  | 52 => .params .smoothtime
  | 72 => .params .selectopts
  | 3 => .params .burst
  | 31 | 32 | 71 => .params .float -- DFREQ, DOFFSET, DOFFSET2
  | 13 => .manual
  | 42 => .params .manualDelete
  | 1 | 2 | 63 => .params .maskAddress -- ONLINE, OFFLINE, ONOFFLINE
  | 64 => .addSource
  | 10 => .logon
  | _ => .null

/-- `&req[28..]`, if there is any.
mirrors chrony-rs-io/cmdmon.rs:456 -/
def bodyOf (req : Bytes) : Bytes := if 28 < req.length then req.drop 28 else []

theorem bodyOf_eq (req : Bytes) : bodyOf req = req.drop 28 := by
  unfold bodyOf
  split
  · rfl
  · exact (List.drop_of_length_le (by omega)).symm

/-- mirrors chrony-rs-io/cmdmon.rs:631-637 -/
def decodeSourcestatsIndex (body : Bytes) : Rust Int32 :=
  if 4 ≤ body.length then Layout.readAt Int32 body 0 else pure 0

/-- The body of the reply of `handle_ntp_source_name` is what is behind its header of 28 bytes.
mirrors cmdmon.rs:1340-1348 -/
def handleNtpSourceName (name : Bytes) : Bytes :=
  let len := min name.length (524 - 28 - 1)
  name.take len ++ List.replicate (524 - 28 - len) 0

/-- The reply type, the status and the body of a reply. -/
structure Reply where
  reply : UInt16
  status : UInt16
  body : Bytes
  deriving DecidableEq

/-- `(RPY_NULL, STT_SUCCESS, Vec::new())`. -/
def Reply.null : Reply := ⟨1, 0, []⟩

/-- `(RPY_NULL, STT_INVALID, Vec::new())`. -/
def Reply.invalid : Reply := ⟨1, 3, []⟩

/-- mirrors chrony-rs-io/cmdmon.rs:457-626 -/
def Arm.run (st : State F) (body : Bytes) : Arm → Rust Reply
  | .tracking => do
    let b ← encodeTrackingReply st.tracking
    pure ⟨5, 0, b.bytes⟩
  | .sourcestats => do
    let idx ← decodeSourcestatsIndex body
    match st.sourcestats idx with
    | some r => do
      let b ← encodeSourcestatsReply r
      pure ⟨6, 0, b.bytes⟩
    | none => pure .null
  | .activity => do
    let b ← encodeActivityReply st.activity
    pure ⟨12, 0, b.bytes⟩
  | .serverStats => do
    let b ← encodeServerStatsReply st.serverStats
    pure ⟨25, 0, b.bytes⟩
  | .nSources => pure ⟨2, 0, Codec.enc st.nSources⟩
  | .ntpSourceName => do
    let idx ← decodeSourcestatsIndex body
    pure ⟨19, 0, handleNtpSourceName ((st.sourceName idx).getD [])⟩
  | .rtcreport => do
    let b ← encodeRtcReply st.rtc
    pure ⟨7, 0, b.bytes⟩
  | .smoothing => do
    let b ← encodeSmoothingReply st.smoothing
    pure ⟨13, 0, b.bytes⟩
  | .clientAccesses => do
    let idx ← Layout.readAt UInt32 body 0
    match st.clientAccess idx with
    | some r => do
      let b ← encodeClientAccessEntry r
      pure ⟨10, 0, b.bytes⟩
    | none => pure .null
  | .params d => do
    let _ ← (d.decode body : Rust (Params F))
    pure .null
  | .manual =>
    -- only the first byte of the option, and only if there is a body
    let _ := decodeManualOption (body.headD 0).toUInt32.toInt32
    pure .null
  | .addSource => do
    let r ← (decodeAddSource body : Rust (Option (AddSourceRequest F)))
    pure (if r.isSome then .null else .invalid)
  | .logon =>
    if 4 ≤ body.length then do
      -- `from_ne_bytes` on a little-endian machine
      let key ← slice body 0 4
      let keyId : Int32 := Codec.dec key.reverse
      pure (if st.commandKeyId.all (keyId = ·) then .null else .invalid)
    else pure .invalid
  | .null => pure .null

/-- A daemon that has nothing to report, for concrete runs. -/
def State.idle : State UInt32 where
  tracking := ⟨0, .unspec, 0, 0, ⟨0, 0⟩, 0, 0, 0, 0, 0, 0, 0, 0, 0⟩
  sourceName _ := none
  nSources := 0
  activity := ⟨0, 0, 0, 0, 0⟩
  serverStats := ⟨List.replicate 17 0, rfl⟩
  clientAccess _ := none
  sourcestats _ := none
  rtc := ⟨⟨0, 0⟩, 0, 0, 0, 0, 0⟩
  smoothing := ⟨false, false, 0, 0, 0, 0, 0⟩
  commandKeyId := none

/-- mirrors chrony-rs-io/cmdmon.rs:441-628 -/
def dispatch (st : State F) (command : UInt16) (req : Bytes) : Rust Reply :=
  (arm command).run st (bodyOf req)

/-! ## Lengths -/

def Arm.size : Arm → Nat
  | .clientAccesses => 4
  | .params d => d.size
  | _ => 0

/-- The index of a report in a body; zero without one. -/
def indexOf (body : Bytes) : Int32 := if 4 ≤ body.length then Codec.dec (body.take 4) else 0

theorem decodeSourcestatsIndex_eq (body : Bytes) :
    decodeSourcestatsIndex body = .ok (indexOf body) := by
  unfold decodeSourcestatsIndex indexOf
  split
  · exact Layout.readAt_eq_ok.2 ⟨‹_›, rfl⟩
  · rfl

theorem reply_returns {n : Nat} {fs : List Layout.Field} (h : Layout.inOrder n 0 fs = true)
    (reply status : UInt16) :
    (do let b ← Layout.write n fs; pure ⟨reply, status, b.bytes⟩ : Rust Reply).Returns :=
  returns_bind (Layout.write_returns h) fun _ _ => ⟨_, rfl⟩

/-- An arm other than `add source` returns iff the body has the bytes it reads. -/
theorem Arm.run_returns_iff {a : Arm} (h : a ≠ .addSource) (st : State F) (body : Bytes) :
    (a.run st body).Returns ↔ a.size ≤ body.length := by
  cases a with
  | addSource => exact absurd rfl h
  | sourcestats =>
    refine iff_of_true ?_ (Nat.zero_le _)
    rw [run, decodeSourcestatsIndex_eq, ok_bind]
    cases st.sourcestats (indexOf body) with
    | none => exact ⟨_, rfl⟩
    | some r => exact reply_returns rfl 6 0
  | ntpSourceName =>
    refine iff_of_true ?_ (Nat.zero_le _)
    rw [run, decodeSourcestatsIndex_eq]
    exact ⟨_, rfl⟩
  | clientAccesses =>
    refine (returns_bind_iff fun idx => ?_).trans (Layout.readAt_returns_iff UInt32 body 0)
    cases st.clientAccess idx with
    | none => exact ⟨_, rfl⟩
    | some r => exact reply_returns rfl 10 0
  | params d =>
    exact (returns_bind_iff fun _ => ⟨_, rfl⟩).trans (d.decode_returns_iff body)
  | logon =>
    refine iff_of_true ?_ (Nat.zero_le _)
    rw [run]
    split
    · rw [slice_of_le (by decide) (by omega)]
      exact ⟨_, rfl⟩
    · exact ⟨_, rfl⟩
  | tracking => exact iff_of_true (reply_returns rfl 5 0) (Nat.zero_le _)
  | activity => exact iff_of_true (reply_returns rfl 12 0) (Nat.zero_le _)
  | serverStats => exact iff_of_true (reply_returns rfl 25 0) (Nat.zero_le _)
  | rtcreport => exact iff_of_true (reply_returns rfl 7 0) (Nat.zero_le _)
  | smoothing => exact iff_of_true (reply_returns rfl 13 0) (Nat.zero_le _)
  | nSources | manual | null => exact iff_of_true ⟨_, rfl⟩ (Nat.zero_le _)

def Arm.replySize (st : State F) (body : Bytes) : Arm → Nat
  | .tracking => 80
  | .sourcestats => if (st.sourcestats (indexOf body)).isSome then 60 else 0
  | .activity => 24
  | .serverStats => 172
  | .nSources => 4
  | .ntpSourceName => 496
  | .rtcreport => 32
  | .smoothing => 28
  | .clientAccesses => if (st.clientAccess (firstWord body)).isSome then 60 else 0
  | _ => 0

theorem length_of_reply {n : Nat} {x : Rust (Buf n)} {reply status : UInt16} {r : Reply}
    (h : (do let b ← x; pure ⟨reply, status, b.bytes⟩ : Rust Reply) = .ok r) :
      r.body.length = n := by
  obtain ⟨b, -, h⟩ := bind_eq_ok.1 h
  cases h
  exact b.length_bytes

theorem length_handleNtpSourceName (name : Bytes) : (handleNtpSourceName name).length = 496 := by
  simp only [handleNtpSourceName, List.length_append, List.length_take, List.length_replicate]
  omega

/-- The length of a reply follows from the arm, and for two arms from whether there is a report. -/
theorem Arm.run_length {a : Arm} {st : State F} {body : Bytes} {r : Reply}
    (h : a.run st body = .ok r) : r.body.length = a.replySize st body := by
  cases a with
  | tracking | activity | serverStats | rtcreport | smoothing => exact length_of_reply h
  | nSources => cases h; rfl
  | manual | null => cases h; rfl
  | sourcestats =>
    rw [run, decodeSourcestatsIndex_eq, ok_bind] at h
    unfold replySize
    cases hs : st.sourcestats (indexOf body) with
    | none => rw [hs] at h; cases h; rfl
    | some rep => rw [hs] at h; exact length_of_reply h
  | ntpSourceName =>
    rw [run, decodeSourcestatsIndex_eq] at h
    cases h
    exact length_handleNtpSourceName _
  | clientAccesses =>
    obtain ⟨idx, hidx, h⟩ := bind_eq_ok.1 h
    have hword : firstWord body = idx := (Layout.readAt_eq_ok.1 hidx).2
    unfold replySize
    rw [hword]
    cases hs : st.clientAccess idx with
    | none => rw [hs] at h; cases h; rfl
    | some rep => rw [hs] at h; exact length_of_reply h
  | params d =>
    obtain ⟨_, -, h⟩ := bind_eq_ok.1 h
    cases h
    rfl
  | addSource =>
    obtain ⟨o, -, h⟩ := bind_eq_ok.1 h
    cases h
    cases o <;> rfl
  | logon =>
    rw [run] at h
    split at h
    · obtain ⟨_, -, h⟩ := bind_eq_ok.1 h
      cases h
      split <;> rfl
    · cases h
      rfl

/-! ## The socket (`read_from_cmd_socket`) -/

/-- mirrors socket.rs:30-38 -/
structure IpSockAddr where
  family : Int
  in4 : UInt32
  in6 : BitVec 128
  port : UInt16
  deriving DecidableEq

/-- `IPADDR_INET4` is 1 and `IPADDR_INET6` 2.
mirrors chrony-rs-io/cmdmon.rs:78-87 -/
def remoteToIpaddr (remote : IpSockAddr) : IpAddr :=
  if remote.family = 1 then .v4 remote.in4
  else if remote.family = 2 then .v6 remote.in6
  else .v4 0

structure Message where
  remote : IpSockAddr
  data : Bytes
  deriving DecidableEq

/-- The two calls to the client log, for the service `Cmdmon` and the time zero. -/
class ClientLog (L : Type) where
  logServiceAccess : L → IpAddr → Rust (L × Int)
  limitServiceRate : L → Nat → Rust (L × Int)

/-- A client log that keeps no records, for concrete runs. -/
instance : ClientLog Unit := ⟨fun l _ => .ok (l, -1), fun l _ => .ok (l, 0)⟩

inductive Action where
  | drop
  | reply (status : UInt16) (h : Header)
  | dispatch (h : Header)

section
variable {L : Type} [ClientLog L]

/-- mirrors chrony-rs-io/cmdmon.rs:102-107 -/
def permitted (access : Option AuthTable) (addr : IpAddr) : Rust Bool :=
  match access with
  | some t => t.isAllowed addr
  | none => pure true

/-- mirrors chrony-rs-io/cmdmon.rs:114-126 -/
def rateLimited (log : Option L) (addr : IpAddr) : Rust (Option L × Bool) :=
  match log with
  | none => pure (none, false)
  | some log => do
    let (log, idx) ← ClientLog.logServiceAccess log addr
    if 0 ≤ idx then do
      let (log, drop) ← ClientLog.limitServiceRate log idx.toNat
      pure (some log, drop ≠ 0)
    else pure (some log, false)

/-- Everything in front of the dispatcher.
mirrors chrony-rs-io/cmdmon.rs:101-152 -/
def receive (access : Option AuthTable) (log : Option L) (m : Message) :
    Rust (Option L × Action) := do
  let addr := remoteToIpaddr m.remote
  let allowed ← permitted access addr
  if !allowed then pure (log, .drop)
  else if m.data.length < 20 then pure (log, .drop)
  else do
    let (log, limited) ← rateLimited log addr
    if limited then pure (log, .drop)
    else do
      let h ← readHeader m.data
      match ← validateRequest m.data.length h.pktType h.res1 h.res2 h.version h.command with
      | .drop => pure (log, .drop)
      | .reply status => pure (log, .reply status h)
      | .valid _ => pure (log, .dispatch h)

/-- A call of the dispatcher, and a reply to the source of a request. -/
inductive Event where
  | dispatch (m : Message) (command : UInt16)
  | transmit (m : Message) (reply : Bytes)
  deriving DecidableEq

/-- What is done with one datagram; a dispatcher that panics has been called.
mirrors chrony-rs-io/cmdmon.rs:101-156 -/
def handleMessage (dispatch : UInt16 → Bytes → Rust Reply) (access : Option AuthTable)
    (log : Option L) (m : Message) : List Event × Rust (Option L) :=
  match receive access log m with
  | .error p => ([], .error p)
  | .ok (log, .drop) => ([], .ok log)
  | .ok (log, .reply status h) =>
    ([.transmit m (buildReplyHeader h.commandBe h.sequenceBe 1 status)], .ok log)
  | .ok (log, .dispatch h) =>
    match dispatch h.command m.data with
    | .error p => ([.dispatch m h.command], .error p)
    | .ok reply =>
      ([.dispatch m h.command, .transmit m
        (buildReplyHeader h.commandBe h.sequenceBe reply.reply reply.status ++ reply.body)],
          .ok log)

/-- The datagrams of one read.
mirrors chrony-rs-io/cmdmon.rs:93-158 -/
def readFromCmdSocket (dispatch : UInt16 → Bytes → Rust Reply) (access : Option AuthTable) :
    Option L → List Message → List Event × Rust (Option L) :=
  Trace.run (handleMessage dispatch access)

/-- The datagrams that are looked at before a panic ends the read, each with the client log at
that time. -/
def handled (dispatch : UInt16 → Bytes → Rust Reply) (access : Option AuthTable) :
    Option L → List Message → List (Option L × Message) :=
  Trace.visited (handleMessage dispatch access)

def Reaches (access : Option AuthTable) (log : Option L) (m : Message) : Prop :=
  permitted access (remoteToIpaddr m.remote) = .ok true ∧
    (∃ log', rateLimited log (remoteToIpaddr m.remote) = .ok (log', false)) ∧ Accepted m.data

/-- A header as it is read from a request of at least 20 bytes. -/
structure Header.Of (hd : Header) (data : Bytes) : Prop where
  command : hd.command = commandOf data
  commandBe : hd.commandBe.length = 2
  sequenceBe : hd.sequenceBe.length = 4

variable {access : Option AuthTable} {log : Option L} {m : Message}
  {d : UInt16 → Bytes → Rust Reply}

theorem receive_inv {log' : Option L} {act : Action} (h : receive access log m = .ok (log', act)) :
    act = .drop ∨
    (∃ status hd, act = .reply status hd ∧ hd.Of m.data ∧ 28 ≤ m.data.length) ∨
    ∃ hd, act = .dispatch hd ∧ hd.Of m.data ∧ Reaches access log m := by
  unfold receive at h
  obtain ⟨allowed, hallowed, h⟩ := bind_eq_ok.1 h
  split at h
  · cases h; exact .inl rfl
  rename_i hp
  split at h
  · cases h; exact .inl rfl
  rename_i hlen
  obtain ⟨⟨log1, limited⟩, hlimited, h⟩ := bind_eq_ok.1 h
  dsimp only at h
  split at h
  · cases h; exact .inl rfl
  rename_i hl
  obtain ⟨hd, hread, hcmd, hcb, hsb, hval⟩ := readHeader_spec (Nat.not_lt.1 hlen)
  rw [hread, ok_bind, ← hval] at h
  obtain ⟨outcome, hout, h⟩ := bind_eq_ok.1 h
  cases outcome with
  | drop => cases h; exact .inl rfl
  | reply status =>
    cases h
    exact .inr (.inl ⟨status, hd, rfl, ⟨hcmd, hcb, hsb⟩, length_of_validate_reply
      (Nat.not_lt.1 hlen) hout⟩)
  | valid n =>
    cases h
    have hallowed' : allowed = true := by simpa using hp
    have hlimited' : limited = false := by simpa using hl
    subst hallowed' hlimited'
    exact .inr (.inr ⟨hd, rfl, ⟨hcmd, hcb, hsb⟩, hallowed, ⟨_, hlimited⟩,
      ((validate_eq_valid_iff (Nat.not_lt.1 hlen) n).1 hout).1⟩)

theorem receive_of_reaches (h : Reaches access log m) :
    ∃ log' hd, receive access log m = .ok (log', .dispatch hd) ∧ hd.Of m.data := by
  obtain ⟨hallowed, ⟨log', hlimited⟩, ha⟩ := h
  have hge := ha.ge
  obtain ⟨hd, hread, hcmd, hcb, hsb, hval⟩ := readHeader_spec (show 20 ≤ m.data.length by omega)
  have hvalid := (validate_eq_valid_iff (by omega) _).2 ⟨ha, rfl⟩
  rw [hval] at hvalid
  refine ⟨log', hd, ?_, ⟨hcmd, hcb, hsb⟩⟩
  unfold receive
  dsimp only
  rw [hallowed, ok_bind, if_neg (by decide), if_neg (by omega), hlimited, ok_bind]
  dsimp only
  rw [if_neg (by decide), hread, ok_bind, hvalid]
  rfl

/-- The dispatcher is called exactly for the requests that reach it. -/
theorem dispatch_mem_handleMessage {m' : Message} {c : UInt16} :
    .dispatch m' c ∈ (handleMessage d access log m).1 ↔
      Reaches access log m ∧ m' = m ∧ c = commandOf m.data := by
  constructor
  · intro h
    unfold handleMessage at h
    cases hr : receive access log m with
    | error p => rw [hr] at h; cases h
    | ok res =>
      obtain ⟨log', act⟩ := res
      rw [hr] at h
      obtain rfl | ⟨status, hd, rfl, -⟩ | ⟨hd, rfl, hof, hreach⟩ := receive_inv hr
      · cases h
      · simp at h
      · dsimp only at h
        split at h <;> simp [hof.command] at h <;> exact ⟨hreach, h⟩
  · rintro ⟨hreach, rfl, rfl⟩
    obtain ⟨log', hd, hr, hof⟩ := receive_of_reaches hreach
    unfold handleMessage
    rw [hr]
    dsimp only
    split <;> simp [hof.command]

/-- A reply is a status of 28 bytes to a request of at least as many, or the answer of the
dispatcher. -/
theorem of_transmit_mem_handleMessage {m' : Message} {reply : Bytes}
    (h : .transmit m' reply ∈ (handleMessage d access log m).1) :
    m' = m ∧ (reply.length = 28 ∧ 28 ≤ m.data.length ∨
      Reaches access log m ∧ ∃ r, d (commandOf m.data) m.data = .ok r ∧
        reply.length = 28 + r.body.length) := by
  unfold handleMessage at h
  cases hr : receive access log m with
  | error p => rw [hr] at h; cases h
  | ok res =>
    obtain ⟨log', act⟩ := res
    rw [hr] at h
    obtain rfl | ⟨status, hd, rfl, hof, hlen⟩ | ⟨hd, rfl, hof, hreach⟩ := receive_inv hr
    · cases h
    · simp only [List.mem_singleton, Event.transmit.injEq] at h
      obtain ⟨rfl, rfl⟩ := h
      exact ⟨rfl, .inl ⟨length_buildReplyHeader hof.commandBe hof.sequenceBe _ _, hlen⟩⟩
    · dsimp only at h
      cases hd' : d hd.command m.data with
      | error p => simp [hd'] at h
      | ok r =>
        simp only [hd', List.mem_cons, reduceCtorEq, Event.transmit.injEq,
          List.not_mem_nil, or_false, false_or] at h
        obtain ⟨rfl, rfl⟩ := h
        refine ⟨rfl, .inr ⟨hreach, r, hof.command ▸ hd', ?_⟩⟩
        rw [List.length_append, length_buildReplyHeader hof.commandBe hof.sequenceBe]

theorem transmit_mem_handleMessage (hreach : Reaches access log m) {r : Reply}
    (hr : d (commandOf m.data) m.data = .ok r) :
    ∃ reply, .transmit m reply ∈ (handleMessage d access log m).1 ∧
      reply.length = 28 + r.body.length := by
  obtain ⟨log', hd, hrec, hof⟩ := receive_of_reaches hreach
  refine ⟨buildReplyHeader hd.commandBe hd.sequenceBe r.reply r.status ++ r.body, ?_, ?_⟩
  · rw [← hof.command] at hr
    simp [handleMessage, hrec, hr]
  · rw [List.length_append, length_buildReplyHeader hof.commandBe hof.sequenceBe]

/-- A request that reaches the dispatcher ends the read iff the dispatcher panics. -/
theorem handleMessage_returns_iff (hreach : Reaches access log m) :
    (handleMessage d access log m).2.Returns ↔ (d (commandOf m.data) m.data).Returns := by
  obtain ⟨log', hd, hrec, hof⟩ := receive_of_reaches hreach
  unfold handleMessage
  rw [hrec, ← hof.command]
  dsimp only
  cases d hd.command m.data with
  | error p => exact iff_of_false (not_returns_error p) (not_returns_error p)
  | ok r => exact iff_of_true ⟨_, rfl⟩ ⟨_, rfl⟩

end

end ChronyRs.L4.Cmd

import ChronyRs.L4Cmd.ClientRequests

/-!
# The dispatcher looks for parameters eight bytes too late

The data of a request starts behind its header of 20 bytes, and the table of lengths and the
client count from there. `real_dispatch` hands `&req[28..]` to the decoders: 28 is the size of
the header of a reply. A request of the length that `validate_request` asks for then ends
before the last field that its decoder reads, and the decoder panics on the slice. Anyone who
may send to the command port can stop the daemon with one datagram.

* `dispatch_safe_iff`: exactly which valid requests do not panic the daemon.
* `shortest_dfreq_panics`: a valid request of 28 bytes that does.
* `request_decodes_iff`: exactly which requests of the client decode to their parameters.
* `allow_is_lost`: `allow 10.0.0.0/8` does not.
-/
namespace ChronyRs.Bugs.BodyOffset

open L4.Cmd

variable {F : Type} [WireFloat F] {L : Type} [ClientLog L]

/-! ## Panics -/

/-- From byte 28 on there is what the decoder of the command reads. The one of `add source`
reads everything only after it recognised the type and a terminated name. -/
def BodyFits (req : Bytes) : Prop :=
  match arm (commandOf req) with
  | .addSource =>
    sourceTypeOf (firstWord (req.drop 28)) = none ∨ (req.drop 28)[259]? ≠ some 0 ∨ 376 ≤ req.length
  | a => 28 + a.size ≤ req.length

variable {c : UInt16} {p : Payload F} {body : Bytes}

theorem paddedLength_addSource (hc : c < 73) (h : arm c = .addSource) :
    paddedLength c = 372 := by
  have htable := forall_command (P := fun c => arm c != .addSource || paddedLength c == 372)
    (by decide) hc
  simpa [h] using htable

theorem dispatch_returns_iff (st : State F) {req : Bytes} (ha : Accepted req) :
    (dispatch st (commandOf req) req).Returns ↔ BodyFits req := by
  have hge := ha.ge
  have hlen : (bodyOf req).length = req.length - 28 := by rw [bodyOf_eq, List.length_drop]
  unfold dispatch BodyFits
  split
  · rename_i harm
    have hpad := ha.padded
    rw [paddedLength_addSource ha.command harm] at hpad
    rw [harm]
    refine (returns_bind_iff fun _ => ⟨_, rfl⟩).trans ?_
    have hend : 348 ≤ req.length - 28 ↔ 376 ≤ req.length := by omega
    rw [decodeAddSource_returns_iff (by omega), bodyOf_eq, List.length_drop, hend]
  · rename_i harm
    rw [Arm.run_returns_iff harm, hlen]
    omega

/-- **The exact condition.** Over any state, a valid request is dispatched without a panic iff
its body fits; and a datagram that reaches the dispatcher then ends the read of the socket
otherwise. -/
theorem dispatch_safe_iff (st : State F) (req : Bytes) (n : Int)
    (hv : validate req = .ok (.valid n)) :
    ((dispatch st (commandOf req) req).Returns ↔ BodyFits req) ∧
    ∀ (access : Option L2.Addrfilt.AuthTable) (log : Option L) (remote : IpSockAddr),
      Reaches access log ⟨remote, req⟩ →
        ((handleMessage (dispatch st) access log ⟨remote, req⟩).2.Returns ↔ BodyFits req) := by
  have hiff := dispatch_returns_iff st (accepted_of_validate hv)
  refine ⟨hiff, ?_⟩
  intro access log remote hreach
  exact (handleMessage_returns_iff hreach).trans hiff

def zeroRequest (command : UInt16) (length : Nat) : Bytes :=
  [6, 1, 0, 0] ++ beU16 command ++ List.replicate (length - 6) 0

/-- With four bytes more than `validate_request` asks for, `dfreq` is dispatched. -/
theorem longer_dfreq_safe :
    validate (zeroRequest 31 32) = .ok (.valid 28) ∧
    (dispatch State.idle (commandOf (zeroRequest 31 32)) (zeroRequest 31 32)).Returns :=
  ⟨by decide +kernel,
    (dispatch_safe_iff (L := Unit) State.idle _ 28 (by decide +kernel)).1.2
      (show 28 + 4 ≤ (zeroRequest 31 32).length by decide)⟩

/-- `dfreq` in the 28 bytes that `validate_request` asks for, from an address that the access
table admits: the body is empty, the decoder slices its first four bytes. -/
theorem shortest_dfreq_panics :
    validate (zeroRequest 31 28) = .ok (.valid 28) ∧
    dispatch State.idle (commandOf (zeroRequest 31 28)) (zeroRequest 31 28) = .error .slice ∧
    (handleMessage (dispatch State.idle) none (none : Option Unit)
      ⟨⟨1, 0xc0000201, 0, 32323⟩, zeroRequest 31 28⟩).2 = .error .slice := by
  refine ⟨?_, ?_, ?_⟩
  all_goals decide +kernel

/-! ## Requests of the client -/

/-- The daemon accepts the datagram and, if the dispatcher decodes the body of the command at all,
decodes the parameters that went in. -/
def Arrives (p : Payload F) (command attempt : UInt16) (sequenceBe : Buf 4) (body : Bytes) : Prop :=
  ∃ data n, assemble command attempt sequenceBe body = .ok data ∧ validate data = .ok (.valid n) ∧
    ((arm (commandOf data)).hasDecoder = true →
      (arm (commandOf data)).decoded (bodyOf data) = .ok (p.expected (arm (commandOf data))))

/-- How the lengths of a command and of its client body fit its arm. -/
def shifted (c : UInt16) (size : Nat) : Bool :=
  match arm c with
  | .params d => max (max (paddedLength c) 28) (20 + size) < 28 + d.size
  | .clientAccesses => paddedLength c == 0
  | .manual => paddedLength c == 28
  | .sourcestats | .ntpSourceName => 32 ≤ paddedLength c
  | .addSource => 0 < paddedLength c
  | .logon => false
  | _ => true

/-- The decoders that take a missing index or option for zero. -/
def takesWord (a : Arm) : Bool := a == .manual || a == .sourcestats || a == .ntpSourceName

/-- The payload is of the kind that its arm decodes. -/
def suits : Payload F → Arm → Bool
  | .word _, a => a != .addSource
  | .addSource _, a => !takesWord a
  | _, a => !takesWord a && a != .addSource

omit [WireFloat F] in
/-- The tables of the client and of the dispatcher, compared. -/
theorem commands_table (p : Payload F) :
    (p.commands.all fun c => c < 73 && (shifted c p.size && suits p (arm c))) = true := by
  cases p
  all_goals
    simp only [Payload.commands, Payload.size, suits]
    decide

omit [WireFloat F] in
theorem shifted_of_mem (h : c ∈ p.commands) :
    c < 73 ∧ shifted c p.size = true ∧ suits p (arm c) = true := by
  have htable := List.all_eq_true.1 (commands_table p) c h
  rwa [Bool.and_eq_true, Bool.and_eq_true, decide_eq_true_eq] at htable

omit [WireFloat F] in
theorem word_of_suits {a : Arm} (h : suits p a = true) (ha : takesWord a = true) :
    ∃ v, p = .word v := by
  cases p with
  | word v => exact ⟨v, rfl⟩
  | _ => simp [suits, ha] at h

omit [WireFloat F] in
theorem addSource_of_suits (h : suits p .addSource = true) : ∃ s, p = .addSource s := by
  cases p with
  | addSource s => exact ⟨s, rfl⟩
  | _ => simp [suits] at h

theorem arrives_iff (hc : c ∈ p.commands) (hb : p.encode = .ok (some body)) (attempt : UInt16)
    (sequenceBe : Buf 4) :
    ∃ data k, data.length = max (max (paddedLength c) 28) (20 + p.size) ∧
      bodyOf data = (body ++ List.replicate k 0).drop 8 ∧
      (Arrives p c attempt sequenceBe body ↔ 0 < paddedLength c ∧
        ((arm c).hasDecoder = true → (arm c).decoded (bodyOf data) =
          .ok (p.expected (arm c)))) := by
  have hlt := (shifted_of_mem hc).1
  have hsize := Payload.length_of_encode hb
  obtain ⟨data, hdata, hlen, hhead, hcmd, k, hdrop⟩ := assemble_spec hlt attempt sequenceBe body
  have hval := assemble_accepted_iff hlt (by have := p.size_le; omega) hlen hhead hcmd
  refine ⟨data, k, by rw [hlen, hsize], ?_, ?_⟩
  · rw [bodyOf_eq, ← hdrop, List.drop_drop]
  · rw [← hval]
    constructor
    · rintro ⟨data', n, hdata', hn, hdec⟩
      rw [hdata] at hdata'
      cases hdata'
      rw [hcmd] at hdec
      exact ⟨⟨n, hn⟩, hdec⟩
    · rintro ⟨⟨n, hn⟩, hdec⟩
      exact ⟨data, n, hdata, hn, by rwa [hcmd]⟩

theorem decodeManualOption_eq_disable_iff (v : Int32) :
    decodeManualOption v = some .disable ↔ v = 0 := by
  constructor
  · intro h
    unfold decodeManualOption at h
    split at h
    · rfl
    all_goals cases h
  · rintro rfl
    rfl

/-- The type of a shifted `add source` is read from the fifth to eighth byte of the name. -/
theorem firstWord_shifted {p : AddSourceParams F}
    (hb : (Payload.addSource p).encode = .ok (some body)) (k : Nat) :
    ((body ++ List.replicate k 0).drop 8).take 4 =
      ((p.params.name ++ List.replicate 256 0).drop 4).take 4 := by
  rw [Payload.encode, encodeAddSourceRequest] at hb
  split at hb
  · cases hb
  obtain ⟨b, hwrite, hreads⟩ := Layout.write_reads
    (show Layout.inOrder 356 0 p.fields = true from rfl)
  rw [hwrite] at hb
  cases hb
  have hname : Layout.readAt (Buf 256) b.bytes 4 = .ok (Buf.ofBytes 256 p.params.name) :=
    hreads ⟨4, Buf.ofBytes 256 p.params.name⟩ (by simp [AddSourceParams.fields])
  have hfield : (b.bytes.take 260).drop 4 = (p.params.name ++ List.replicate 256 0).take 256 :=
    take_drop_of_readAt hname
  have hlen := b.length_bytes
  calc ((b.bytes ++ List.replicate k 0).drop 8).take 4
      = (b.bytes.drop 8).take 4 := by
        rw [List.drop_append_of_le_length (by omega), List.take_append_of_le_length
          (by rw [List.length_drop]; omega)]
    _ = (((b.bytes.take 260).drop 4).drop 4).take 4 := by
        rw [List.drop_drop, List.drop_take, List.take_take]
        rfl
    _ = ((p.params.name ++ List.replicate 256 0).drop 4).take 4 := by
        rw [hfield, List.drop_take, List.take_take]
        rfl

/-- A name without zeros is never taken for a type. -/
theorem addSource_lost {p : AddSourceParams F} (hb : (Payload.addSource p).encode = .ok (some body))
    (k : Nat) (r : AddSourceRequest F) (hr : decodeAddSource ((body ++ List.replicate k 0).drop 8) =
      .ok (some r)) :
    r.params.name ≠ p.params.name := by
  intro hname
  obtain ⟨⟨t, ht⟩, hzero⟩ := of_decodeAddSource_some hr
  rw [firstWord, firstWord_shifted hb] at ht
  rw [hname] at hzero
  generalize p.params.name = name at ht hzero
  rcases name with _ | ⟨a, _ | ⟨b, _ | ⟨c, _ | ⟨d, _ | ⟨e, _ | ⟨f, _ | ⟨g, _ | ⟨h, rest⟩⟩⟩⟩⟩⟩⟩⟩
  case cons.cons.cons.cons.cons.cons.cons.cons =>
    exact hzero e (by simp) (of_sourceTypeOf_some ht).1
  all_goals exact (of_sourceTypeOf_some ht).2 rfl

theorem indexOf_replicate (k : Nat) : indexOf (List.replicate k 0) = 0 := by
  unfold indexOf
  split
  · rename_i hk
    rw [List.length_replicate] at hk
    rw [List.take_replicate, Nat.min_eq_left hk]
    rfl
  · rfl

/-- Nothing of a word is left behind the first eight bytes, and what is missing reads as zero. -/
theorem word_decoded_iff {a : Arm} (ha : a = .manual ∨ a = .sourcestats ∨
    a = .ntpSourceName) (k : Nat) (v : Int32) :
    a.decoded (List.replicate k 0) = .ok ((Payload.word v : Payload F).expected a) ↔
      (Payload.word v : Payload F) = .word 0 := by
  have hword : (Payload.word v : Payload F) = .word 0 ↔ v = 0 := by rw [Payload.word.injEq]
  have hindex : (do let idx ← decodeSourcestatsIndex (List.replicate k 0); pure (.index idx) :
      Rust (Decoded F)) = .ok (.index v) ↔ v = 0 := by
    rw [decodeSourcestatsIndex_eq, indexOf_replicate, ok_bind, pure_eq, Except.ok.injEq,
      Decoded.index.injEq, eq_comm]
  rw [hword]
  rcases ha with rfl | rfl | rfl
  · have hhead : (List.replicate k (0 : UInt8)).headD 0 = 0 := by cases k <;> rfl
    rw [Arm.decoded, hhead, pure_eq, Except.ok.injEq]
    refine Iff.trans ?_ (decodeManualOption_eq_disable_iff v)
    rw [eq_comm]
    exact Decoded.manual.injEq _ _ ▸ Iff.rfl
  · exact hindex
  · exact hindex

/-- **The exact condition.** A request of the client arrives iff the dispatcher does not look at
its body, or it is a word of zero for one of the decoders that take a missing word for zero. -/
theorem request_decodes_iff (r : Request F) (body : Bytes) (hb : r.payload.encode = .ok (some body))
    (attempt : UInt16) (sequenceBe : Buf 4) :
    Arrives r.payload r.command attempt sequenceBe body ↔
      ((arm r.command).hasDecoder = false ∧ 0 < paddedLength r.command) ∨
      ((arm r.command = .manual ∨ arm r.command = .sourcestats ∨ arm r.command = .ntpSourceName) ∧
        r.payload = .word 0) := by
  obtain ⟨p, c, hc⟩ := r
  dsimp only at hb ⊢
  obtain ⟨data, k, hlen, hbody, hiff⟩ := arrives_iff hc hb attempt sequenceBe
  obtain ⟨-, hshift, hsuits⟩ := shifted_of_mem hc
  have hbodylen : (bodyOf data).length = data.length - 28 := by rw [bodyOf_eq, List.length_drop]
  rw [hiff]
  cases harm : arm c with
  | params d =>
    -- the body ends before the last field
    rw [shifted, harm] at hshift
    have hshort := of_decide_eq_true hshift
    refine iff_of_false ?_ (by simp [Arm.hasDecoder])
    rintro ⟨-, hdec⟩
    obtain ⟨x, hx, -⟩ := bind_eq_ok.1 (hdec rfl)
    have := (d.decode_returns_iff (F := F) (bodyOf data)).1 ⟨x, hx⟩
    omega
  | clientAccesses =>
    rw [shifted, harm, beq_iff_eq] at hshift
    exact iff_of_false (by omega) (by simp [Arm.hasDecoder])
  | logon =>
    rw [shifted, harm] at hshift
    cases hshift
  | addSource =>
    obtain ⟨s, rfl⟩ := addSource_of_suits (harm ▸ hsuits)
    refine iff_of_false ?_ (by simp [Arm.hasDecoder])
    rintro ⟨-, hdec⟩
    obtain ⟨o, ho, hsome⟩ := bind_eq_ok.1 (hdec rfl)
    cases hsome
    rw [hbody] at ho
    exact addSource_lost hb k _ ho rfl
  | manual | sourcestats | ntpSourceName =>
    obtain ⟨v, rfl⟩ := word_of_suits hsuits (by rw [harm]; rfl)
    have hpos : 0 < paddedLength c := by
      rw [shifted, harm] at hshift
      simp only [beq_iff_eq, decide_eq_true_eq] at hshift
      omega
    have hsize : body.length = 8 := Payload.length_of_encode hb
    rw [hbody, List.drop_left' hsize, word_decoded_iff (by simp)]
    simp [Arm.hasDecoder, hpos]
  | _ => simp [Arm.hasDecoder]

theorem first_sourcestats_arrives :
    (Payload.word 0 : Payload UInt32).encode = .ok (some (List.replicate 8 0)) ∧
    Arrives (Payload.word 0 : Payload UInt32) 34 0 (Buf.ofBytes 4 [0, 0, 0, 42])
      (List.replicate 8 0) :=
  ⟨by decide +kernel,
    (request_decodes_iff ⟨.word 0, 34, by decide⟩ (List.replicate 8 0) (by decide +kernel) 0
      (Buf.ofBytes 4 [0, 0, 0, 42])).2 (.inr ⟨.inr (.inl rfl), rfl⟩)⟩

/-- `allow 10.0.0.0/8` as `chronyc` sends it: the daemon accepts the datagram, and its decoder
panics. -/
theorem allow_is_lost :
    ∃ body data, (Payload.allowDeny (.inet4 0x0a000000) 8 : Payload UInt32).encode =
      .ok (some body) ∧
      assemble 17 0 (Buf.ofBytes 4 [0, 0, 0, 42]) body = .ok data ∧
        validate data = .ok (.valid 44) ∧
      arm (commandOf data) = .params .allowDeny ∧
      decodeAllowDeny (data.drop 20) = .ok (.inet4 0x0a000000, 8) ∧
      decodeAllowDeny (bodyOf data) = .error .slice := by
  refine ⟨[10, 0, 0, 0] ++ List.replicate 12 0 ++ [0, 1, 0, 0, 0, 0, 0, 8, 0, 0, 0, 0],
    [6, 1, 0, 0, 0, 17, 0, 0, 0, 0, 0, 42] ++ List.replicate 8 0 ++ [10, 0, 0, 0] ++
      List.replicate 12 0 ++ [0, 1, 0, 0, 0, 0, 0, 8, 0, 0, 0, 0], ?_, ?_, ?_, ?_, ?_, ?_⟩
  all_goals decide +kernel

end ChronyRs.Bugs.BodyOffset

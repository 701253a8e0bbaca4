import ChronyRs.L4Assoc.RxDispatch

/-!
# The walkers over extension fields (`ntp/ext.rs`, `ntp/rx_dispatch.rs`)

`ef_process_all` looks for unknown critical fields and `check_autokey` for fields of Autokey. Both
parse field after field with `parse_single_field` from the end of the header on, until there is none
or they have found one; neither knows where the MAC of the packet begins.
`process_received_response` rejects a packet on the word of `check_autokey` before it is
authenticated.

* `walkFields_path`: over the fields that `parse_packet` counted a walker goes as the parser did.
* `parseSingleField_mac`: what it finds at the MAC is decided by the lower half of the key id.
-/
namespace ChronyRs.L4

open L1.Ext L1.Parse L2 L3.Nts

/-! ## The walkers -/

/-- The loop of both walkers; `stop` is what they look for. Returned are the fields that were
inspected, each with its offset, and whether one of them was such a field. -/
def walkFields (stop : ParsedField → Bool) (packet : NtpPacketBuf) (packetLength : Int) :
    Nat → Int → Rust (List (Int × ParsedField) × Bool)
  | 0, _ => .error .fuel
  | n + 1, start => do
    match ← parseSingleField packet.bytes packetLength start with
    | none => return ([], false)
    | some pf =>
      if stop pf then return ([(start, pf)], true)
      else
        let (inspected, stopped) ← walkFields stop packet packetLength n (start + pf.length)
        return ((start, pf) :: inspected, stopped)

def unknownCritical (pf : ParsedField) : Bool := efDispatch pf = .unknownCritical

def efWalk (packet : NtpPacketBuf) (packetLength : Int) : Rust (List (Int × ParsedField) × Bool) :=
  walkFields unknownCritical packet packetLength (packetLength.toNat + 1) 48

/-- mirrors ntp/ext.rs:313-331 -/
def efProcessAll (packet : NtpPacketBuf) (packetLength : Int) : Rust Bool := do
  let (_, stopped) ← efWalk packet packetLength
  return !stopped

/-- The types 2, 3 and 4, with the critical bit or without. -/
def autokeyField (pf : ParsedField) : Bool :=
  pf.fieldType % 0x8000 = 2 ∨ pf.fieldType % 0x8000 = 3 ∨ pf.fieldType % 0x8000 = 4

def autokeyWalk (packet : NtpPacketBuf) (packetLength : Int) :
    Rust (List (Int × ParsedField) × Bool) :=
  if packetLength ≤ 48 then return ([], false)
  else if lvmToVersion packet.lvm ≠ 4 then return ([], false)
  else walkFields autokeyField packet packetLength (packetLength.toNat + 1) 48

/-- mirrors ntp/rx_dispatch.rs:230-257 -/
def checkAutokey (packet : NtpPacketBuf) (packetLength : Int) : Rust Bool := do
  let (_, stopped) ← autokeyWalk packet packetLength
  return stopped

/-! ## Received responses -/

/-- mirrors ntp/rx_dispatch.rs:216-225 -/
structure AuthenticatedResponse where
  accepted : Bool
  action : RxKnownAction
  authOk : Bool
  testAOk : Bool
  deriving DecidableEq, Repr

/-- mirrors util.rs:197-211 -/
def compareNtp64 (aHi aLo bHi bLo : UInt32) : Int :=
  let diff := Int.bmod (aHi - bHi).toNat (2 ^ 32)
  if aHi = bHi ∧ aLo = bLo then 0
  else if diff < 0 then -1
  else if diff > 0 then 1
  else if aLo < bLo then -1
  else 1

/-- mirrors util.rs:240-242 -/
def diffTimespecsToDouble {F : Type} [F64 F] (a b : Int × Int) : F :=
  F64.add (F64.sub (F64.ofInt a.1) (F64.ofInt b.1))
    (F64.mul (F64.lit (1 / 1000000000)) (F64.ofInt (a.2 - b.2)))

/-- mirrors ntp/test_a.rs:72-109 -/
def passesTestAActive {F : Type} [F64 F] (peerDelay peerDispersion precision maxDelay : F)
    (presendDone : Int) (interleaved : Bool) (receiveTs transmitTs : UInt64)
    (remotePoll prevLocalPoll : Int)
    (remoteTransmit prevRemoteTransmit : Int × Int) : Bool :=
  let common := F64.le (F64.sub peerDelay peerDispersion) maxDelay && F64.le precision maxDelay &&
    presendDone ≤ 0
  let prevRemotePollInterval : F := F64.log2ToDouble (min remotePoll prevLocalPoll)
  let cmp := compareNtp64 (receiveTs >>> 32).toUInt32 receiveTs.toUInt32
    (transmitTs >>> 32).toUInt32
    transmitTs.toUInt32
  let missed := interleaved && (F64.lt (F64.mul (F64.lit (1 / 2)) prevRemotePollInterval)
    peerDelay || cmp ≤ 0 ||
    (remotePoll ≤ prevLocalPoll && F64.lt (F64.mul (F64.lit (3 / 2)) prevRemotePollInterval)
      (diffTimespecsToDouble remoteTransmit prevRemoteTransmit)))
  common && !missed

/-- What `process_received_response` is given for test A. -/
structure TestAArgs (F : Type) where
  peerDelay : F
  peerDispersion : F
  precision : F
  maxDelay : F
  presendDone : Int
  responseTime : F
  interleaved : Bool

section
variable {B F C H : Type} [CryptoBackend B] [F64 F] [AesSiv C]

/-- From the authentication on. -/
def verifyReceived (packetMode ourMode : Int) (auth : NauInstance F C H) (keys : KeyStore B)
    (packet : NtpPacketBuf) (info : NtpPacketInfo) (args : TestAArgs F) :
      Rust (NauInstance F C H × KeyStore B × AuthenticatedResponse) := do
  let (auth, keys, action, authOk) ← receiveAuthenticated packetMode ourMode auth keys packet info
  let testAOk := action = .processResponse && if ourMode = 3 then
      passesTestAClient args.peerDelay args.peerDispersion args.precision args.maxDelay
        args.presendDone
        args.responseTime args.interleaved false false
    else passesTestAActive args.peerDelay args.peerDispersion args.precision args.maxDelay
      args.presendDone
      args.interleaved 0 0 0 0 (0, 0) (0, 0)
  return (auth, keys,
    { accepted := authOk && (action ≠ .processResponse || testAOk), action, authOk, testAOk })

/-- mirrors ntp/rx_dispatch.rs:266-334 -/
def processReceivedResponse (packetMode ourMode : Int) (auth : NauInstance F C H)
    (keys : KeyStore B) (packet : NtpPacketBuf) (info : NtpPacketInfo) (args : TestAArgs F) :
    Rust (NauInstance F C H × KeyStore B × AuthenticatedResponse) := do
  if ← checkAutokey packet info.length then return (auth, keys, ⟨false, .discard, false, false⟩)
  else verifyReceived packetMode ourMode auth keys packet info args

end

/-! ## Where the walkers go -/

variable {packet : NtpPacketBuf} {length : Int}

theorem parseSingleField_of_field {start : Int} {pf : ParsedField}
    (h : parseField packet length start = .ok (some pf)) :
    parseSingleField packet.bytes length start = .ok (some pf) := by
  unfold parseField at h
  split at h
  · cases h
  split at h
  · cases h
  split at h
  · cases h
  obtain ⟨o, hsingle, h⟩ := bind_eq_ok.1 h
  cases o with
  | none => cases h
  | some pf' =>
    dsimp only at h
    split at h
    · cases h
    · cases h
      exact hsingle

/-- **Over the counted fields** a walker that does not find what it looks for goes as the parser
did. -/
theorem walkFields_path {stop : ParsedField → Bool} {a b : Int} {l : List (Int × ParsedField)}
    (h : (fields packet length).Path a l b) (hl : ∀ x ∈ l, stop x.2 = false) (n : Nat) :
    walkFields stop packet length (n + l.length) a =
      (walkFields stop packet length n b).map fun r => (l ++ r.1, r.2) := by
  induction h with
  | nil a => cases walkFields stop packet length n a <;> rfl
  | @cons a b pf l hlt hp _ ih =>
    rw [List.forall_mem_cons] at hl
    rw [List.length_cons, ← Nat.add_assoc, walkFields, parseSingleField_of_field hp, ok_bind]
    dsimp only
    rw [if_neg (by rw [hl.1]; decide), show (fields packet length).len pf = pf.length from rfl] at *
    rw [ih hl.2]
    cases walkFields stop packet length n b <;> rfl

/-- One that finds it among them stops there. -/
theorem walkFields_found {stop : ParsedField → Bool} {a b : Int} {l : List (Int × ParsedField)}
    (h : (fields packet length).Path a l b) (hl : ∃ x ∈ l, stop x.2 = true) (n : Nat) :
    ∃ inspected, walkFields stop packet length (n + l.length) a = .ok (inspected, true) ∧
      inspected ⊆ l := by
  induction h with
  | nil a => simp at hl
  | @cons a b pf l hlt hp _ ih =>
    rw [List.length_cons, ← Nat.add_assoc, walkFields, parseSingleField_of_field hp, ok_bind]
    dsimp only
    by_cases hstop : stop pf = true
    · rw [if_pos hstop]
      exact ⟨_, rfl, by simp⟩
    · rw [if_neg hstop]
      obtain ⟨inspected, hwalk, hsub⟩ := ih (by simpa [hstop] using hl)
      rw [show (fields packet length).len pf = pf.length from rfl] at hwalk
      rw [hwalk]
      exact ⟨_, rfl, List.cons_subset_cons _ hsub⟩

/-- The length of a field whose header is the key id. -/
def lengthOfKeyId (k : UInt32) : Nat := k.toNat % 2 ^ 16

/-- A MAC of `macLength` bytes reads as an extension field: its key id has the length of one that
fits. -/
def LooksLikeField (k : UInt32) (macLength : Int) : Prop :=
  4 ≤ lengthOfKeyId k ∧ lengthOfKeyId k ≤ macLength ∧ lengthOfKeyId k % 4 = 0

instance (k : UInt32) (macLength : Int) : Decidable (LooksLikeField k macLength) :=
  inferInstanceAs (Decidable (_ ∧ _ ∧ _))

/-- **At the MAC** there is a field if and only if the key id looks like the header of one. -/
theorem parseSingleField_mac {start : Int} {k : UInt32} (h0 : 0 ≤ start) (h4 : 4 ≤ length - start)
    (hk : rdU32 packet.bytes start.toNat = .ok k) :
    if LooksLikeField k (length - start) then ∃ pf, parseSingleField packet.bytes length start =
      .ok (some pf)
    else parseSingleField packet.bytes length start = .ok none := by
  unfold rdU32 at hk
  obtain ⟨b0, h0', hk⟩ := bind_eq_ok.1 hk
  obtain ⟨b1, h1', hk⟩ := bind_eq_ok.1 hk
  obtain ⟨b2, h2', hk⟩ := bind_eq_ok.1 hk
  obtain ⟨b3, h3', hk⟩ := bind_eq_ok.1 hk
  cases hk
  have hlow : (lengthOfKeyId (UInt32.ofNat (fromBe [b0, b1, b2, b3])) : Int) = fromBe16 b2 b3 := by
    have := b2.toNat_lt
    have := b3.toNat_lt
    simp only [lengthOfKeyId, UInt32.toNat_ofNat', fromBe, List.foldl_cons,
      List.foldl_nil, fromBe16]
    omega
  have hparse : parseSingleField packet.bytes length start = .ok
      (if fromBe16 b2 b3 < 4 ∨ start + fromBe16 b2 b3 > length ∨ fromBe16 b2 b3 % 4 ≠ 0 then none
      else some ⟨fromBe16 b2 b3, fromBe16 b0 b1, start.toNat + 4, fromBe16 b2 b3 - 4⟩) := by
    unfold parseSingleField
    rw [if_neg (by omega)]
    dsimp only
    rw [h0', h1', h2', h3']
    simp only [ok_bind]
    split <;> rfl
  rw [hparse]
  by_cases hlooks : LooksLikeField (UInt32.ofNat (fromBe [b0, b1, b2, b3])) (length - start)
  · obtain ⟨h1, h2, h3⟩ := hlooks
    rw [if_pos ⟨h1, h2, h3⟩, if_neg (by omega)]
    exact ⟨_, rfl⟩
  · rw [if_neg hlooks, if_pos]
    unfold LooksLikeField at hlooks
    omega

end ChronyRs.L4

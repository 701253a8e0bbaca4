import Mathlib.Data.List.TakeDrop
import ChronyRs.Core.Matching

/-!
# Privilege separation (`privops.rs`)

The daemon asks a helper, over a transport, for the operations it may no longer do itself. Both ends
are modelled: `PrivClient`, which does an operation itself or asks for it, and `dispatch`, which
serves a request in the helper.

* `Lawful`: what a backend's port lookups and the closing of the helper's descriptor may not do.
* `call_matches`: a call leaves the backend alike with and without the helper, and its reply is the
  same unless a name has more addresses than the caller asked for.
* `outcome_eq_iff`: a sequence of calls has the same replies and takes the same operations with and
  without the helper, if and only if no name in it has too many addresses.
* `fatal_reported_iff`: a fatal response is reported as a failure only if its return code is one.
-/
namespace ChronyRs.L5.Privops

/-! ## Types -/

/-- mirrors privops.rs:46-49 -/
structure Timeval where
  sec : Int := 0
  usec : Int := 0
  deriving DecidableEq, Repr, Inhabited

/-- mirrors privops.rs:53-53 -/
structure Timex where
  bytes : List UInt8 := []
  deriving DecidableEq, Repr

/-- mirrors privops.rs:58-58 -/
structure SockAddr where
  bytes : List UInt8 := []
  deriving DecidableEq, Repr

/-- mirrors privops.rs:63-80 -/
inductive PrivRequest where
  | adjustTime (delta : Timeval)
  | adjustTimex (tmx : Timex)
  | setTime (tv : Timeval)
  | bindSocket (sock : Int) (addr : SockAddr)
  | name2IpAddress (name : String)
  | reloadDns
  | quit
  | unknown (op : Int)
  deriving DecidableEq, Repr

def dnsMaxAddresses : Nat := 16

/-- mirrors privops.rs:115-125 -/
inductive ResponseData where
  | none
  | adjustTime (old : Timeval)
  | adjustTimex (tmx : Timex)
  | name2IpAddress (addrs : List UInt32)
  deriving DecidableEq, Repr

/-- mirrors privops.rs:129-140 -/
structure PrivResponse where
  fatalError : Bool := false
  fatalMsg : String := ""
  rc : Int := 0
  resErrno : Int := 0
  data : ResponseData := .none
  deriving DecidableEq, Repr

/-- mirrors privops.rs:144-146 -/
def PrivResponse.fatal (msg : String) : PrivResponse :=
  { fatalError := true, fatalMsg := msg }

/-- mirrors privops.rs:151-170 -/
class PrivBackend (B : Type) where
  /-- The return code, `errno` and the old delta. -/
  adjustTime : (delta : Timeval) → StateM B (Int × Int × Timeval)
  adjustTimex : (tmx : Timex) → StateM B (Int × Int × Timex)
  setTime : (tv : Timeval) → StateM B (Int × Int)
  bindSocket : (sock : Int) → (addr : SockAddr) → StateM B (Int × Int)
  nameToIpaddress : (name : String) → StateM B (Int × List UInt32)
  reloadDns : StateM B Unit
  sockaddrPort : (addr : SockAddr) → StateM B UInt16
  allowedPorts : StateM B (UInt16 × UInt16 × UInt16)
  closeSocket : (sock : Int) → StateM B Unit

/-! ## The helper -/

variable {B : Type} [PrivBackend B]

/-- mirrors privops.rs:173-187 -/
def doBindSocket (sock : Int) (addr : SockAddr) : StateM B PrivResponse := do
  let port ← PrivBackend.sockaddrPort addr
  let (ntp, acq, ptp) ← PrivBackend.allowedPorts
  if port ≠ 0 ∧ port ≠ ntp ∧ port ≠ acq ∧ port ≠ ptp then
    PrivBackend.closeSocket sock
    return .fatal ("Invalid port " ++ toString port)
  else
    let (rc, errno) ← PrivBackend.bindSocket sock addr
    PrivBackend.closeSocket sock
    return { rc, resErrno := if rc ≠ 0 then errno else 0 }

/-- mirrors privops.rs:191-236 -/
def dispatch (req : PrivRequest) : StateM B (PrivResponse × Bool) := do
  match req with
  | .adjustTime delta =>
    let (rc, errno, old) ← PrivBackend.adjustTime delta
    return ({ rc, resErrno := if rc ≠ 0 then errno else 0, data := .adjustTime old }, false)
  | .adjustTimex tmx =>
    let (rc, errno, mutated) ← PrivBackend.adjustTimex tmx
    return ({ rc, resErrno := if rc < 0 then errno else 0, data := .adjustTimex mutated }, false)
  | .setTime tv =>
    let (rc, errno) ← PrivBackend.setTime tv
    return ({ rc, resErrno := if rc ≠ 0 then errno else 0 }, false)
  | .bindSocket sock addr =>
    let res ← doBindSocket sock addr
    return (res, false)
  | .name2IpAddress name =>
    let (rc, addrs) ← PrivBackend.nameToIpaddress name
    return ({ rc, data := .name2IpAddress addrs }, false)
  | .reloadDns =>
    PrivBackend.reloadDns
    return ({ rc := 0 }, false)
  | .quit => return ({}, true)
  | .unknown op => return (.fatal ("Unexpected operator " ++ toString op), false)

/-! ## The client -/

/-- mirrors privops.rs:240-242 -/
structure PrivClient where
  hasHelper : Bool := false
  deriving DecidableEq, Repr

/-- mirrors privops.rs:246-246 -/
abbrev Transport (B : Type) := PrivRequest → StateM B PrivResponse

/-- The transport to a helper that works on the same backend. -/
def helperTransport : Transport B := fun req => do
  let (res, _quit) ← dispatch req
  return res

namespace PrivClient

/-- A query, with no delta, is not sent to the helper.
mirrors privops.rs:269-285 -/
def adjustTime (client : PrivClient) (transport : Transport B) (delta : Option Timeval) :
    StateM B (Int × Timeval) := do
  match client.hasHelper, delta with
  | true, some delta =>
    let res ← transport (.adjustTime delta)
    let old := match res.data with
      | .adjustTime old => old
      | _ => {}
    return (res.rc, old)
  | _, _ =>
    let (rc, _errno, old) ← PrivBackend.adjustTime (delta.getD {})
    return (rc, old)

/-- mirrors privops.rs:288-304 -/
def adjustTimex (client : PrivClient) (transport : Transport B) (tmx : Timex) :
    StateM B (Int × Timex) := do
  if !client.hasHelper then
    let (rc, _errno, mutated) ← PrivBackend.adjustTimex tmx
    return (rc, mutated)
  else
    let res ← transport (.adjustTimex tmx)
    let mutated := match res.data with
      | .adjustTimex t => t
      | _ => tmx
    return (res.rc, mutated)

/-- mirrors privops.rs:307-312 -/
def setTime (client : PrivClient) (transport : Transport B) (tv : Timeval) : StateM B Int := do
  if !client.hasHelper then
    let (rc, _errno) ← PrivBackend.setTime tv
    return rc
  else
    let res ← transport (.setTime tv)
    return res.rc

/-- mirrors privops.rs:316-332 -/
def bindSocket (client : PrivClient) (transport : Transport B) (sock : Int) (addr : SockAddr) :
    StateM B (Except UInt16 Int) := do
  let port ← PrivBackend.sockaddrPort addr
  let (ntp, acq, ptp) ← PrivBackend.allowedPorts
  if port ≠ 0 ∧ port ≠ ntp ∧ port ≠ acq ∧ port ≠ ptp then
    return .error port
  else if !client.hasHelper then
    let (rc, _errno) ← PrivBackend.bindSocket sock addr
    return .ok rc
  else
    let res ← transport (.bindSocket sock addr)
    return .ok res.rc

/-- mirrors privops.rs:335-341 -/
def reloadDns (client : PrivClient) (transport : Transport B) : StateM B Unit := do
  if !client.hasHelper then
    PrivBackend.reloadDns
  else
    let _ ← transport .reloadDns

/-- mirrors privops.rs:344-362 -/
def nameToIpaddress (client : PrivClient) (transport : Transport B) (name : String)
    (maxAddrs : Nat) : StateM B (Int × List UInt32) := do
  if !client.hasHelper then
    PrivBackend.nameToIpaddress name
  else
    let res ← transport (.name2IpAddress name)
    let addrs := match res.data with
      | .name2IpAddress a => a.take (min maxAddrs dnsMaxAddresses)
      | _ => []
    return (res.rc, addrs)

end PrivClient

/-! ## The port gate -/

/-- Both ends of the protocol ask for the port and for the ports in use. -/
def portGate (addr : SockAddr) : StateM B (UInt16 × UInt16 × UInt16 × UInt16) := do
  let port ← PrivBackend.sockaddrPort addr
  let ports ← PrivBackend.allowedPorts
  return (port, ports)

abbrev Refused (p : UInt16 × UInt16 × UInt16 × UInt16) : Prop :=
  p.1 ≠ 0 ∧ p.1 ≠ p.2.1 ∧ p.1 ≠ p.2.2.1 ∧ p.1 ≠ p.2.2.2

theorem doBindSocket_eq (sock : Int) (addr : SockAddr) :
    doBindSocket (B := B) sock addr = portGate addr >>= fun p =>
      if Refused p then do
        PrivBackend.closeSocket sock
        return .fatal ("Invalid port " ++ toString p.1)
      else do
        let r ← PrivBackend.bindSocket sock addr
        PrivBackend.closeSocket sock
        return { rc := r.1, resErrno := if r.1 ≠ 0 then r.2 else 0 } := rfl

theorem bindSocket_eq (client : PrivClient) (transport : Transport B) (sock : Int)
    (addr : SockAddr) : client.bindSocket transport sock addr = portGate addr >>= fun p =>
      if Refused p then return .error p.1
      else if !client.hasHelper then do
        let r ← PrivBackend.bindSocket sock addr
        return .ok r.1
      else do
        let res ← transport (.bindSocket sock addr)
        return .ok res.rc := rfl

/-! ## Calls -/

inductive Call where
  | adjustTime (delta : Option Timeval)
  | adjustTimex (tmx : Timex)
  | setTime (tv : Timeval)
  | bindSocket (sock : Int) (addr : SockAddr)
  | reloadDns
  | nameToIpaddress (name : String) (maxAddrs : Nat)
  deriving DecidableEq, Repr

inductive Reply where
  | time (rc : Int) (old : Timeval)
  | timex (rc : Int) (tmx : Timex)
  | code (rc : Int)
  | bound (rc : Int)
  | badPort (port : UInt16)
  | reloaded
  | addresses (rc : Int) (addrs : List UInt32)
  deriving DecidableEq, Repr

def Reply.ofBind : Except UInt16 Int → Reply
  | .ok rc => .bound rc
  | .error port => .badPort port

def Reply.rc? : Reply → Option Int
  | .time rc _ | .timex rc _ | .code rc | .bound rc | .addresses rc _ => some rc
  | .badPort _ | .reloaded => none

def PrivClient.call (client : PrivClient) (transport : Transport B) : Call → StateM B Reply
  | .adjustTime delta => do
    let (rc, old) ← client.adjustTime transport delta
    return .time rc old
  | .adjustTimex tmx => do
    let (rc, tmx) ← client.adjustTimex transport tmx
    return .timex rc tmx
  | .setTime tv => do
    let rc ← client.setTime transport tv
    return .code rc
  | .bindSocket sock addr => do
    let r ← client.bindSocket transport sock addr
    return .ofBind r
  | .reloadDns => do
    client.reloadDns transport
    return .reloaded
  | .nameToIpaddress name maxAddrs => do
    let (rc, addrs) ← client.nameToIpaddress transport name maxAddrs
    return .addresses rc addrs

/-- The client does everything itself. -/
def direct (c : Call) : StateM B Reply :=
  PrivClient.call ⟨false⟩ helperTransport c

/-- The client asks a helper that works on the same backend. -/
def helped (c : Call) : StateM B Reply :=
  PrivClient.call ⟨true⟩ helperTransport c

/-! ## Backends that answer alike -/

section Alike

variable {B' : Type} [PrivBackend B']

/-- Every operation answers alike in states that `P` relates, and leads to related states. -/
structure Alike (P : B → B' → Prop) : Prop where
  adjustTime (delta : Timeval) : Matches P Eq (PrivBackend.adjustTime delta)
    (PrivBackend.adjustTime delta)
  adjustTimex (tmx : Timex) : Matches P Eq (PrivBackend.adjustTimex tmx)
    (PrivBackend.adjustTimex tmx)
  setTime (tv : Timeval) : Matches P Eq (PrivBackend.setTime tv) (PrivBackend.setTime tv)
  bindSocket (sock : Int) (addr : SockAddr) :
    Matches P Eq (PrivBackend.bindSocket sock addr) (PrivBackend.bindSocket sock addr)
  nameToIpaddress (name : String) :
    Matches P Eq (PrivBackend.nameToIpaddress name) (PrivBackend.nameToIpaddress name)
  reloadDns : Matches P Eq PrivBackend.reloadDns PrivBackend.reloadDns
  sockaddrPort (addr : SockAddr) :
    Matches P Eq (PrivBackend.sockaddrPort addr) (PrivBackend.sockaddrPort addr)
  allowedPorts : Matches P Eq PrivBackend.allowedPorts PrivBackend.allowedPorts
  closeSocket (sock : Int) : Matches P Eq (PrivBackend.closeSocket sock)
    (PrivBackend.closeSocket sock)

variable {P : B → B' → Prop}

theorem Alike.portGate (hP : Alike P) (addr : SockAddr) :
    Matches P Eq (portGate addr) (portGate addr) := by
  unfold Privops.portGate
  refine (hP.sockaddrPort addr).bind fun port _ h => h ▸ ?_
  exact hP.allowedPorts.bind fun ports _ h => h ▸ .pure rfl

theorem Alike.doBindSocket (hP : Alike P) (sock : Int) (addr : SockAddr) :
    Matches P Eq (doBindSocket sock addr) (doBindSocket sock addr) := by
  rw [doBindSocket_eq, doBindSocket_eq]
  refine (hP.portGate addr).bind fun p _ h => h ▸ .ite (fun _ => ?_) fun _ => ?_
  · exact (hP.closeSocket sock).bind fun _ _ _ => .pure rfl
  · refine (hP.bindSocket sock addr).bind fun r _ h => h ▸ ?_
    exact (hP.closeSocket sock).bind fun _ _ _ => .pure rfl

theorem Alike.dispatch (hP : Alike P) (req : PrivRequest) :
    Matches P Eq (dispatch req) (dispatch req) := by
  cases req with
  | adjustTime delta => exact (hP.adjustTime delta).bind fun r _ h => h ▸ .pure rfl
  | adjustTimex tmx => exact (hP.adjustTimex tmx).bind fun r _ h => h ▸ .pure rfl
  | setTime tv => exact (hP.setTime tv).bind fun r _ h => h ▸ .pure rfl
  | bindSocket sock addr => exact (hP.doBindSocket sock addr).bind fun r _ h => h ▸ .pure rfl
  | name2IpAddress name => exact (hP.nameToIpaddress name).bind fun r _ h => h ▸ .pure rfl
  | reloadDns => exact hP.reloadDns.bind fun _ _ _ => .pure rfl
  | quit => exact .pure rfl
  | unknown op => exact .pure rfl

/-- The client's calls answer alike when the backends and the transports do. -/
theorem Alike.call (hP : Alike P) {transport : Transport B} {transport' : Transport B'}
    (ht : ∀ req, Matches P Eq (transport req) (transport' req)) (client : PrivClient) (c : Call) :
    Matches P Eq (client.call transport c) (client.call transport' c) := by
  obtain ⟨helper⟩ := client
  cases c with
  | adjustTime delta =>
    refine Matches.bind (Q := Eq) ?_ fun r _ h => h ▸ .pure rfl
    cases helper with
    | false => exact (hP.adjustTime _).bind fun r _ h => h ▸ .pure rfl
    | true =>
      cases delta with
      | none => exact (hP.adjustTime _).bind fun r _ h => h ▸ .pure rfl
      | some delta => exact (ht _).bind fun r _ h => h ▸ .pure rfl
  | adjustTimex tmx =>
    refine Matches.bind (Q := Eq) (.ite (fun _ => ?_) fun _ => ?_) fun r _ h => h ▸ .pure rfl
    · exact (hP.adjustTimex tmx).bind fun r _ h => h ▸ .pure rfl
    · exact (ht _).bind fun r _ h => h ▸ .pure rfl
  | setTime tv =>
    refine Matches.bind (Q := Eq) (.ite (fun _ => ?_) fun _ => ?_) fun r _ h => h ▸ .pure rfl
    · exact (hP.setTime tv).bind fun r _ h => h ▸ .pure rfl
    · exact (ht _).bind fun r _ h => h ▸ .pure rfl
  | bindSocket sock addr =>
    refine Matches.bind (Q := Eq) ?_ fun r _ h => h ▸ .pure rfl
    rw [bindSocket_eq, bindSocket_eq]
    refine (hP.portGate addr).bind fun p _ h => h ▸ .ite (fun _ => .pure rfl) fun _ => ?_
    refine .ite (fun _ => ?_) fun _ => ?_
    · exact (hP.bindSocket sock addr).bind fun r _ h => h ▸ .pure rfl
    · exact (ht _).bind fun r _ h => h ▸ .pure rfl
  | reloadDns =>
    refine Matches.bind (Q := Eq) (.ite (fun _ => ?_) fun _ => ?_) fun _ _ _ => .pure rfl
    · exact hP.reloadDns
    · exact (ht _).bind fun _ _ _ => .pure rfl
  | nameToIpaddress name maxAddrs =>
    refine Matches.bind (Q := Eq) (.ite (fun _ => ?_) fun _ => ?_) fun r _ h => h ▸ .pure rfl
    · exact hP.nameToIpaddress name
    · exact (ht _).bind fun r _ h => h ▸ .pure rfl

theorem Alike.direct (hP : Alike P) (c : Call) : Matches P Eq (direct c) (direct c) :=
  hP.call (fun req => (hP.dispatch req).bind fun _ _ h => h ▸ .pure rfl) _ c

end Alike

/-! ## Direct and helped calls match -/

/-- Related states answer alike, and to look up a port or to close the helper's descriptor leads to
a related state. -/
structure Lawful (R : B → B → Prop) : Prop extends Alike R where
  equiv : Equivalence R
  portUnmoved (addr : SockAddr) (s : B) : R s (PrivBackend.sockaddrPort addr s).2
  portsUnmoved (s : B) : R s (PrivBackend.allowedPorts s).2
  closeUnmoved (sock : Int) (s : B) : R s (PrivBackend.closeSocket sock s).2

/-- What the helper makes of a reply: the addresses are cut to the caller's limit. -/
def Call.cut : Call → Reply → Reply
  | .nameToIpaddress _ maxAddrs, .addresses rc addrs =>
    .addresses rc (addrs.take (min maxAddrs dnsMaxAddresses))
  | _, r => r

variable {R : B → B → Prop}

theorem Lawful.portGate_reads (hR : Lawful R) (addr : SockAddr) : Reads R (portGate addr) :=
  .of_matches hR.equiv (hR.portGate addr) fun s =>
    hR.equiv.trans (hR.portUnmoved addr s) (hR.portsUnmoved _)

theorem bindSocket_helped (transport : Transport B) (sock : Int) (addr : SockAddr) (s : B) :
    PrivClient.bindSocket ⟨true⟩ transport sock addr s =
      if Refused (portGate addr s).1 then (.error (portGate addr s).1.1, (portGate addr s).2)
      else (.ok (transport (.bindSocket sock addr) (portGate addr s).2).1.rc,
        (transport (.bindSocket sock addr) (portGate addr s).2).2) := by
  rw [bindSocket_eq]
  change (if Refused (portGate addr s).1 then _ else _ : StateM B (Except UInt16 Int)) _ = _
  by_cases hgate : Refused (portGate addr s).1
  · rw [if_pos hgate, if_pos hgate]
    rfl
  · rw [if_neg hgate, if_neg hgate]
    rfl

/-- Past the gate, the helper binds as the daemon would. -/
theorem doBindSocket_matches (hR : Lawful R) (sock : Int) {addr : SockAddr} {s t : B} (hst : R s t)
    (hgate : ¬ Refused (portGate addr t).1) :
    (PrivBackend.bindSocket sock addr s).1.1 = (doBindSocket sock addr t).1.rc ∧
      R (PrivBackend.bindSocket sock addr s).2 (doBindSocket sock addr t).2 := by
  have hread : R s (portGate addr t).2 := (hR.portGate_reads addr s t hst).2
  have hbind := hR.bindSocket sock addr s _ hread
  have hclose := hR.equiv.trans hbind.2 (hR.closeUnmoved sock _)
  have hrun : doBindSocket sock addr t = (do
      let r ← PrivBackend.bindSocket sock addr
      PrivBackend.closeSocket sock
      return { rc := r.1, resErrno := if r.1 ≠ 0 then r.2 else 0 } : StateM B PrivResponse)
        (portGate addr t).2 := by
    rw [doBindSocket_eq]
    change (if Refused (portGate addr t).1 then _ else _ : StateM B PrivResponse) _ = _
    rw [if_neg hgate]
    rfl
  rw [hrun]
  exact ⟨congrArg Prod.fst hbind.1, hclose⟩

theorem bindSocket_matches (hR : Lawful R) (sock : Int) (addr : SockAddr) :
    Matches R Eq (PrivClient.bindSocket ⟨false⟩ helperTransport sock addr)
      (PrivClient.bindSocket ⟨true⟩ helperTransport sock addr) := by
  rw [bindSocket_eq, bindSocket_eq]
  refine Reads.matches_bind hR.equiv (hR.portGate_reads addr) fun p s t hst hp => ?_
  by_cases hgate : Refused p
  · simp only [if_pos hgate]
    exact ⟨rfl, hst⟩
  · simp only [if_neg hgate]
    have h := doBindSocket_matches hR sock hst (hp ▸ hgate)
    exact ⟨congrArg Except.ok h.1, h.2⟩

/-- **One call.** The backend is left alike, and the helper's reply is the daemon's own with the
addresses cut. -/
theorem call_matches (hR : Lawful R) (c : Call) :
    Matches R (fun r r' => r' = c.cut r) (direct c) (helped c) := by
  intro s t hst
  cases c with
  | adjustTime delta =>
    cases delta with
    | none =>
      have h := hR.adjustTime {} s t hst
      exact ⟨congrArg (fun r : Int × Int × Timeval => Reply.time r.1 r.2.2) h.1.symm, h.2⟩
    | some delta =>
      have h := hR.adjustTime delta s t hst
      exact ⟨congrArg (fun r : Int × Int × Timeval => Reply.time r.1 r.2.2) h.1.symm, h.2⟩
  | adjustTimex tmx =>
    have h := hR.adjustTimex tmx s t hst
    exact ⟨congrArg (fun r : Int × Int × Timex => Reply.timex r.1 r.2.2) h.1.symm, h.2⟩
  | setTime tv =>
    have h := hR.setTime tv s t hst
    exact ⟨congrArg (fun r : Int × Int => Reply.code r.1) h.1.symm, h.2⟩
  | bindSocket sock addr =>
    have h := bindSocket_matches hR sock addr s t hst
    exact ⟨congrArg Reply.ofBind h.1.symm, h.2⟩
  | reloadDns => exact ⟨rfl, (hR.reloadDns s t hst).2⟩
  | nameToIpaddress name maxAddrs =>
    have h := hR.nameToIpaddress name s t hst
    exact ⟨congrArg (fun r : Int × List UInt32 =>
      Reply.addresses r.1 (r.2.take (min maxAddrs dnsMaxAddresses))) h.1.symm, h.2⟩

/-! ## Sequences of calls -/

/-- The helper's limit leaves the reply to a call as it is: a name has no more addresses than the
caller asked for. -/
def Call.Fits (s : B) : Call → Prop
  | .nameToIpaddress name maxAddrs =>
    (PrivBackend.nameToIpaddress name s).1.2.length ≤ min maxAddrs dnsMaxAddresses
  | _ => True

instance (s : B) : DecidablePred (Call.Fits s)
  | .nameToIpaddress _ _ => Nat.decLe _ _
  | .adjustTime _ | .adjustTimex _ | .setTime _ | .bindSocket _ _ | .reloadDns => isTrue trivial

/-- Every call of the sequence fits when its turn comes. -/
def AllFit : List Call → B → Prop
  | [], _ => True
  | c :: calls, s => c.Fits s ∧ AllFit calls (direct c s).2

theorem cut_eq_iff (c : Call) (s : B) : c.cut (direct c s).1 = (direct c s).1 ↔ c.Fits s := by
  cases c with
  | nameToIpaddress name maxAddrs =>
    have hreply : (direct (.nameToIpaddress name maxAddrs) s).1 =
        .addresses (PrivBackend.nameToIpaddress name s).1.1
          (PrivBackend.nameToIpaddress name s).1.2 := rfl
    rw [hreply]
    simp only [Call.cut, Call.Fits, Reply.addresses.injEq, true_and]
    exact List.take_eq_self_iff _
  | _ => exact iff_of_true rfl trivial

/-- **A sequence of calls** leaves the backend alike, and all replies are the same if and only if
every call fits. -/
theorem run_matches (hR : Lawful R) (calls : List Call) {s t : B} (hst : R s t) :
    R (calls.mapM direct s).2 (calls.mapM helped t).2 ∧
      ((calls.mapM direct s).1 = (calls.mapM helped t).1 ↔ AllFit calls s) := by
  induction calls generalizing s t with
  | nil => exact ⟨hst, iff_of_true rfl trivial⟩
  | cons c calls ih =>
    obtain ⟨hreply, hnext⟩ := call_matches hR c s t hst
    obtain ⟨hlast, hrest⟩ := ih hnext
    rw [List.mapM_cons, List.mapM_cons]
    refine ⟨hlast, ?_⟩
    change (direct c s).1 :: (calls.mapM direct (direct c s).2).1 =
      (helped c t).1 :: (calls.mapM helped (helped c t).2).1 ↔ c.Fits s ∧
        AllFit calls (direct c s).2
    rw [List.cons.injEq, hrest, hreply, ← cut_eq_iff]
    exact and_congr_left fun _ => eq_comm

/-! ## What a run did

A backend with notes beside it: of the operations that were asked of it, or of the responses that
came back from the helper. -/

structure Noted (B ν : Type) where
  inner : B
  notes : List ν := []

namespace Noted

variable {ν α : Type}

def note (x : StateM B α) (f : α → List ν) : StateM (Noted B ν) α := fun s =>
  ((x s.inner).1, ⟨(x s.inner).2, s.notes ++ f (x s.inner).1⟩)

omit [PrivBackend B] in
theorem note_matches (x : StateM B α) (f : α → List ν) :
    Matches (fun (s : Noted B ν) b => s.inner = b) Eq (note x f) x := by
  rintro s _ rfl
  exact ⟨rfl, rfl⟩

omit [PrivBackend B] in
theorem note_matches_note {x : StateM B α} (hx : Matches R Eq x x) (f : α → List ν) :
    Matches (fun s t : Noted B ν => R s.inner t.inner ∧ s.notes = t.notes) Eq (note x f)
      (note x f) := by
  rintro s t ⟨hst, hnotes⟩
  obtain ⟨hsame, hnext⟩ := hx _ _ hst
  refine ⟨hsame, hnext, ?_⟩
  change s.notes ++ f (x s.inner).1 = t.notes ++ f (x t.inner).1
  rw [hnotes, hsame]

end Noted

/-- The operations of a backend that change something outside the daemon. -/
inductive Op where
  | adjustTime (delta : Timeval)
  | adjustTimex (tmx : Timex)
  | setTime (tv : Timeval)
  | bindSocket (sock : Int) (addr : SockAddr)
  | resolve (name : String)
  | reload
  deriving DecidableEq, Repr

/-- What is noted of an operation. -/
class OpNotes (ν : Type) where
  ofOp : Op → List ν

instance : OpNotes Op := ⟨fun op => [op]⟩

instance {ν : Type} [OpNotes ν] : PrivBackend (Noted B ν) where
  adjustTime delta := Noted.note (PrivBackend.adjustTime delta) fun _ =>
    OpNotes.ofOp (.adjustTime delta)
  adjustTimex tmx := Noted.note (PrivBackend.adjustTimex tmx) fun _ =>
    OpNotes.ofOp (.adjustTimex tmx)
  setTime tv := Noted.note (PrivBackend.setTime tv) fun _ => OpNotes.ofOp (.setTime tv)
  bindSocket sock addr :=
    Noted.note (PrivBackend.bindSocket sock addr) fun _ => OpNotes.ofOp (.bindSocket sock addr)
  nameToIpaddress name := Noted.note (PrivBackend.nameToIpaddress name) fun _ =>
    OpNotes.ofOp (.resolve name)
  reloadDns := Noted.note PrivBackend.reloadDns fun _ => OpNotes.ofOp .reload
  sockaddrPort addr := Noted.note (PrivBackend.sockaddrPort addr) fun _ => []
  allowedPorts := Noted.note PrivBackend.allowedPorts fun _ => []
  closeSocket sock := Noted.note (PrivBackend.closeSocket sock) fun _ => []

theorem alike_noted {ν : Type} [OpNotes ν] : Alike fun (s : Noted B ν) (b : B) => s.inner = b where
  adjustTime _ := Noted.note_matches _ _
  adjustTimex _ := Noted.note_matches _ _
  setTime _ := Noted.note_matches _ _
  bindSocket _ _ := Noted.note_matches _ _
  nameToIpaddress _ := Noted.note_matches _ _
  reloadDns := Noted.note_matches _ _
  sockaddrPort _ := Noted.note_matches _ _
  allowedPorts := Noted.note_matches _ _
  closeSocket _ := Noted.note_matches _ _

theorem Lawful.op (hR : Lawful R) :
    Lawful fun s t : Noted B Op => R s.inner t.inner ∧ s.notes = t.notes where
  adjustTime delta := Noted.note_matches_note (hR.adjustTime delta) _
  adjustTimex tmx := Noted.note_matches_note (hR.adjustTimex tmx) _
  setTime tv := Noted.note_matches_note (hR.setTime tv) _
  bindSocket sock addr := Noted.note_matches_note (hR.bindSocket sock addr) _
  nameToIpaddress name := Noted.note_matches_note (hR.nameToIpaddress name) _
  reloadDns := Noted.note_matches_note hR.reloadDns _
  sockaddrPort addr := Noted.note_matches_note (hR.sockaddrPort addr) _
  allowedPorts := Noted.note_matches_note hR.allowedPorts _
  closeSocket sock := Noted.note_matches_note (hR.closeSocket sock) _
  equiv :=
    { refl := fun _ => ⟨hR.equiv.refl _, rfl⟩
      symm := fun h => ⟨hR.equiv.symm h.1, h.2.symm⟩
      trans := fun h h' => ⟨hR.equiv.trans h.1 h'.1, h.2.trans h'.2⟩ }
  portUnmoved addr s := ⟨hR.portUnmoved addr s.inner, (List.append_nil _).symm⟩
  portsUnmoved s := ⟨hR.portsUnmoved s.inner, (List.append_nil _).symm⟩
  closeUnmoved sock s := ⟨hR.closeUnmoved sock s.inner, (List.append_nil _).symm⟩

theorem allFit_noted (calls : List Call) (s : Noted B Op) :
    AllFit calls s ↔ AllFit calls s.inner := by
  induction calls generalizing s with
  | nil => rfl
  | cons c calls ih =>
    have hnext : (direct c s).2.inner = (direct c s.inner).2 := (alike_noted.direct c s _ rfl).2
    have hfits : c.Fits s ↔ c.Fits s.inner := by
      cases c with
      | _ => rfl
    simp only [AllFit, hfits, ih, hnext]

/-- The replies to a sequence of calls, and the operations it took. -/
def outcome (call : Call → StateM (Noted B Op) Reply) (calls : List Call) (b : B) :
    List Reply × List Op :=
  ((calls.mapM call ⟨b, []⟩).1, (calls.mapM call ⟨b, []⟩).2.notes)

/-- **Transparency.** With and without the helper, every sequence of calls that fits has the same
outcome; one that does not, has not. -/
theorem outcome_eq_iff (hR : Lawful R) (calls : List Call) (b : B) :
    outcome direct calls b = outcome helped calls b ↔ AllFit calls b := by
  have hstart : R b b ∧ ([] : List Op) = [] := ⟨hR.equiv.refl b, rfl⟩
  obtain ⟨hlast, hreplies⟩ := run_matches (s := ⟨b, []⟩) (t := ⟨b, []⟩) hR.op calls hstart
  rw [allFit_noted] at hreplies
  rw [← hreplies, outcome, outcome, Prod.mk.injEq]
  exact and_iff_left hlast.2

/-! ## What the helper answered -/

instance : OpNotes PrivResponse := ⟨fun _ => []⟩

def Transport.noted (transport : Transport B) : Transport (Noted B PrivResponse) :=
  fun req => Noted.note (transport req) fun res => [res]

/-- A call through the helper, on a backend that notes the responses. -/
def hearing (transport : Transport B) (c : Call) : StateM (Noted B PrivResponse) Reply :=
  PrivClient.call ⟨true⟩ transport.noted c

/-- The responses that come back in a call. -/
def heard (transport : Transport B) (c : Call) (b : B) : List PrivResponse :=
  (hearing transport c ⟨b, []⟩).2.notes

theorem hearing_reply (transport : Transport B) (c : Call) (b : B) :
    (hearing transport c ⟨b, []⟩).1 = (PrivClient.call ⟨true⟩ transport c b).1 :=
  (alike_noted.call (fun _ => Noted.note_matches _ _) ⟨true⟩ c ⟨b, []⟩ b rfl).1

/-- The return code of a response is passed on, whatever else the response says. -/
theorem rc?_of_heard {transport : Transport B} {c : Call} {b : B} {res : PrivResponse}
    (hc : c ≠ .reloadDns) (hres : res ∈ heard transport c b) :
    (PrivClient.call ⟨true⟩ transport c b).1.rc? = some res.rc := by
  rw [← hearing_reply]
  cases c with
  | adjustTime delta =>
    cases delta with
    | none => cases hres
    | some delta => rw [List.mem_singleton.mp hres]; rfl
  | adjustTimex tmx => rw [List.mem_singleton.mp hres]; rfl
  | setTime tv => rw [List.mem_singleton.mp hres]; rfl
  | bindSocket sock addr =>
    change res ∈ Noted.notes (PrivClient.bindSocket ⟨true⟩ transport.noted sock addr
      ⟨b, []⟩).2 at hres
    change (Reply.ofBind (PrivClient.bindSocket ⟨true⟩ transport.noted sock addr ⟨b, []⟩).1).rc? = _
    rw [bindSocket_helped] at hres ⊢
    by_cases hgate : Refused (portGate addr (⟨b, []⟩ : Noted B PrivResponse)).1
    · rw [if_pos hgate] at hres
      cases hres
    · rw [if_neg hgate] at hres ⊢
      rw [List.mem_singleton.mp hres]
      rfl
  | reloadDns => exact absurd rfl hc
  | nameToIpaddress name maxAddrs => rw [List.mem_singleton.mp hres]; rfl

/-- A fatal response is told from a success only by its return code. -/
theorem fatal_reported_iff (transport : Transport B) (c : Call) (b : B) :
    (∀ res ∈ heard transport c b, res.fatalError = true →
        (PrivClient.call ⟨true⟩ transport c b).1.rc? ≠ some 0) ↔
      (c ≠ .reloadDns → ∀ res ∈ heard transport c b, res.fatalError = true → res.rc ≠ 0) := by
  by_cases hc : c = .reloadDns
  · subst hc
    exact iff_of_true (fun res _ _ h => by cases h) fun h => absurd rfl h
  · have hrc : ∀ res ∈ heard transport c b, (PrivClient.call ⟨true⟩ transport c b).1.rc? =
        some res.rc :=
      fun res hres => rc?_of_heard hc hres
    constructor
    · intro h _ res hres hfatal hzero
      exact h res hres hfatal (by rw [hrc res hres, hzero])
    · intro h res hres hfatal hzero
      rw [hrc res hres] at hzero
      exact h hc res hres hfatal (Option.some.inj hzero)

end ChronyRs.L5.Privops

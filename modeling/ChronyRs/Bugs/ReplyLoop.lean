import ChronyRs.L5Daemon.Manager

/-!
# Replies that are answered

The receive loop answers a datagram of mode 6 with one of mode 6, one of mode 7 with one of
mode 7, and anything from a denied address with a kiss-o'-death. So two daemons answer each
other for ever: through control or private packets, or when each denies the other.

* `receiveOne_reply`: the reply is a function of the route.
* `unanswered_iff`: when the reply to a datagram is not answered by the daemon that gets it.
* `control_answered`, with a kiss-o'-death between two daemons that deny each other.
-/
namespace ChronyRs.Bugs.ReplyLoop

open L1.Ext L2 L3.Nts L4 L5

section
variable {F C H : Type} [F64 F] [AesSiv C] (measure : SampleArgs F → ResponseSample F)

def replyTo (F : Type) [F64 F] (nowSec nowNsec : Int) (d : Datagram) : Route → Option Bytes
  | .denied => some (kod [0x44, 0x45, 0x4e, 0x59])
  | .manycast => some (manycastReply F nowSec nowNsec d)
  | .control => some (controlReply F nowSec nowNsec d)
  | .privateMode => some privateReply
  | _ => none

variable {m : NtpSourceManager F C H} {access : Option (IpAddr → Bool)} {nowSec nowNsec : Int}
  {d : Datagram}

theorem receiveOne_reply {m' : NtpSourceManager F C H} {out : Received F}
    (h : receiveOne measure m access nowSec nowNsec d = .ok (m', out)) :
    out.reply = replyTo F nowSec nowNsec d (route m access d) := by
  unfold receiveOne at h
  cases hroute : route m access d with
  | accept i =>
    rw [hroute] at h
    obtain ⟨e, -, h⟩ := bind_eq_ok.1 h
    obtain ⟨⟨inst, sample⟩, -, h⟩ := bind_eq_ok.1 h
    cases h
    rfl
  | broadcast o => rw [hroute] at h; cases o <;> cases h <;> rfl
  | _ => rw [hroute] at h; cases h; rfl

/-- A datagram whose route has a reply is dealt with without a panic. -/
theorem receiveOne_returns (nowSec nowNsec : Int) {r : Bytes}
    (h : replyTo F nowSec nowNsec d (route m access d) = some r) :
    Rust.Returns (receiveOne measure m access nowSec nowNsec d) := by
  unfold receiveOne
  cases hroute : route m access d with
  | accept i => rw [hroute] at h; cases h
  | broadcast o => rw [hroute] at h; cases h
  | _ => exact returns_ok _

def Unanswered (m : NtpSourceManager F C H) (access : Option (IpAddr → Bool)) (nowSec nowNsec : Int)
    (d : Datagram) : Prop :=
  ∀ m' out, receiveOne measure m access nowSec nowNsec d = .ok (m', out) → out.reply = none

theorem unanswered_iff_route : Unanswered measure m access nowSec nowNsec d ↔
      replyTo F nowSec nowNsec d (route m access d) = none := by
  constructor
  · intro h
    cases hr : replyTo F nowSec nowNsec d (route m access d) with
    | none => rfl
    | some r =>
      obtain ⟨⟨m', out⟩, hret⟩ := receiveOne_returns measure nowSec nowNsec hr
      have hnone := h m' out hret
      rw [receiveOne_reply measure hret, hr] at hnone
      cases hnone
  · intro h m' out hret
    rw [receiveOne_reply measure hret, h]

omit [AesSiv C] in
theorem replyTo_none_iff (nowSec nowNsec : Int) (h48 : 48 ≤ d.bytes.length) :
    replyTo F nowSec nowNsec d (route m access d) = none ↔ Heard access d ∧
      ¬ (d.mode = 3 ∧ d.peer.ip.isMulticast = true) ∧ d.mode ≠ 6 ∧ d.mode ≠ 7 := by
  by_cases hh : Heard access d
  · rw [route_of_heard m hh, routeHeard]
    simp only [hh, true_and]
    split_ifs with h5 h3 h6 h7
    · exact iff_of_true rfl ⟨by omega, by omega, by omega⟩
    · exact iff_of_false (Option.some_ne_none _) fun h => h.1 h3
    · exact iff_of_false (Option.some_ne_none _) fun h => h.2.1 h6
    · exact iff_of_false (Option.some_ne_none _) fun h => h.2.2 h7
    · refine iff_of_true ?_ ⟨h3, h6, h7⟩
      split
      · rfl
      · split
        · rfl
        · split_ifs <;> rfl
  · simp only [hh, false_and, iff_false]
    rw [route_of_not_heard m hh, if_neg (by omega)]
    simp [replyTo]

theorem controlReply_length (h : 48 ≤ d.bytes.length) (nowSec nowNsec : Int) :
    (d.field 40 48).length = 8 ∧ (manycastReply F nowSec nowNsec d).length = 48 ∧
      (controlReply F nowSec nowNsec d).length = 48 := by
  have hf : (d.field 40 48).length = 8 := by
    simp only [Datagram.field, List.length_drop, List.length_take]
    omega
  refine ⟨hf, ?_, ?_⟩
  · simp [manycastReply, hf, ntp64Bytes]
  · simp [controlReply, hf, ntp64Bytes]

omit [F64 F] [AesSiv C] in
theorem mode_of_head {b : UInt8} (h : d.bytes.head? = some b) :
    d.mode = (b &&& 7).toNat := by
  rw [Datagram.mode, List.getD_eq_getElem?_getD, ← List.head?_eq_getElem?, h]
  rfl

omit [AesSiv C] in
/-- The mode of a reply: 6 or 7 if that is the mode of what it answers, and 4 otherwise. -/
theorem reply_mode {d' : Datagram} (hr : replyTo F nowSec nowNsec d (route m access d) =
    some d'.bytes) : d'.bytes.length = 48 ∧
      ((Heard access d ∧ (d.mode = 6 ∨ d.mode = 7) ∧ d'.mode = d.mode) ∨
        (¬ (Heard access d ∧ (d.mode = 6 ∨ d.mode = 7)) ∧ d'.mode = 4)) := by
  by_cases hh : Heard access d
  · obtain ⟨-, hmany, hctl⟩ := controlReply_length (F := F) hh.1 nowSec nowNsec
    rw [route_of_heard m hh, routeHeard] at hr
    split_ifs at hr with h5 h3 h6 h7
    · cases hr
    · have hb := Option.some.inj hr
      refine ⟨by rw [← hb, hmany], .inr ⟨by omega, ?_⟩⟩
      exact mode_of_head (b := 0x24) (by rw [← hb]; rfl)
    · have hb := Option.some.inj hr
      refine ⟨by rw [← hb, hctl], .inl ⟨hh, .inl h6, ?_⟩⟩
      rw [h6]
      exact mode_of_head (b := 0x26) (by rw [← hb]; rfl)
    · have hb := Option.some.inj hr
      refine ⟨by rw [← hb]; rfl, .inl ⟨hh, .inr h7, ?_⟩⟩
      rw [h7]
      exact mode_of_head (b := 0x27) (by rw [← hb]; rfl)
    · split at hr
      · cases hr
      · split at hr
        · cases hr
        · split_ifs at hr <;> cases hr
  · rw [route_of_not_heard m hh] at hr
    split at hr
    · cases hr
    · have hb := Option.some.inj hr
      exact ⟨by rw [← hb]; rfl, .inr ⟨fun h => hh h.1,
        mode_of_head (b := 0xe4) (by rw [← hb]; rfl)⟩⟩

/-- **No reply loop iff.** A daemon answers `d`, and the reply reaches another daemon, with
any sources and any access table: it is not answered there iff the other daemon does not
deny the address it came from, and `d` was not an accepted packet of mode 6 or 7. -/
theorem unanswered_iff {m m' : NtpSourceManager F C H} {access : Option (IpAddr → Bool)}
    {nowSec nowNsec : Int} {d : Datagram} {out : Received F}
    (h : receiveOne measure m access nowSec nowNsec d = .ok (m', out)) {d' : Datagram}
    (hr : out.reply = some d'.bytes) (other : NtpSourceManager F C H)
    (otherAccess : Option (IpAddr → Bool)) (otherSec otherNsec : Int) :
    Unanswered measure other otherAccess otherSec otherNsec d' ↔
      Heard otherAccess d' ∧ ¬ (Heard access d ∧ (d.mode = 6 ∨ d.mode = 7)) := by
  rw [receiveOne_reply measure h] at hr
  obtain ⟨hlen, hmode⟩ := reply_mode hr
  rw [unanswered_iff_route, replyTo_none_iff otherSec otherNsec (by omega)]
  rcases hmode with ⟨hh, hd, e⟩ | ⟨hno, e⟩
  · constructor
    · rintro ⟨-, -, h6, h7⟩
      omega
    · rintro ⟨-, hno⟩
      exact absurd ⟨hh, hd⟩ hno
  · constructor
    · exact fun h => ⟨h.1, hno⟩
    · exact fun h => ⟨h.1, by omega, by omega, by omega⟩

end

/-! ## Concrete daemons -/

def idle : NtpSourceManager ℚ NullCipher StaticHost := ⟨[]⟩

def noSample : SampleArgs ℚ → ResponseSample ℚ := fun _ => ⟨0, 0, 0, 0, 0, ⟨0, 0⟩⟩

def peer : SocketAddr := ⟨.v4 0xc0000202, 123, 0, 0⟩

def multicastPeer : SocketAddr := ⟨.v4 0xe0000101, 123, 0, 0⟩

def bare (peer : SocketAddr) (lvm : UInt8) : Datagram := ⟨peer, lvm :: List.replicate 47 0, by simp⟩

/-- The manycast reply, as the other daemon gets it. -/
def manycastAnswer : Datagram :=
  ⟨peer, manycastReply ℚ 1 0 (bare multicastPeer 0x23), by decide +kernel⟩

theorem unanswered_iff_manycast : ∃ m' out,
    receiveOne noSample idle none 1 0 (bare multicastPeer 0x23) = .ok (m', out) ∧
      out.reply = some manycastAnswer.bytes ∧ Unanswered noSample idle none 2 0 manycastAnswer :=
  have h : receiveOne noSample idle none 1 0 (bare multicastPeer 0x23) =
      .ok (idle, { reply := some manycastAnswer.bytes }) := rfl
  ⟨_, _, h, rfl, (unanswered_iff noSample h rfl idle none 2 0).2
    ⟨⟨by decide +kernel, nofun⟩, fun h => absurd h.2 (by decide +kernel)⟩⟩

/-- A mode 6 packet is answered, the answer is answered, and a daemon that denies everyone
answers the kiss-o'-death of another. -/
theorem control_answered :
    (∃ m' out r, receiveOne noSample idle none 1 0 (bare peer 0x26) = .ok (m', out) ∧
      out.reply = some r ∧ ∃ h, ¬ Unanswered noSample idle none 2 0 ⟨peer, r, h⟩) ∧
    (∃ m' out r, receiveOne noSample idle (some fun _ => false) 1 0 (bare peer 0x24) =
      .ok (m', out) ∧
      out.reply = some r ∧ ∃ h, ¬ Unanswered noSample idle (some fun _ => false) 2 0
        ⟨peer, r, h⟩) := by
  refine ⟨⟨idle, _, controlReply ℚ 1 0 (bare peer 0x26), rfl, rfl, by decide +kernel, ?_⟩,
    ⟨idle, _, kod [0x44, 0x45, 0x4e, 0x59], rfl, rfl, by decide, ?_⟩⟩
  · rw [unanswered_iff_route]
    intro h
    cases h
  · rw [unanswered_iff_route]
    intro h
    cases h

end ChronyRs.Bugs.ReplyLoop

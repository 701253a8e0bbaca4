import ChronyRs.L3Nts.RealNke

/-!
# `RealNkeClient` performs one exchange in its life

`get_cookies` creates, starts and destroys a key exchange each time it needs cookies, on one
`RealNkeClient`. `create` only stores a name, while `start` refuses once `started` or `destroyed` is
set and `destroy` drops the TLS session for good. The first `get_cookies` performs its exchange.
Every later one creates and starts in vain: `start` returns false without an exchange, so neither a
failed first exchange nor an empty pool is ever followed by another one.

* `start_performs_iff`: in every run, `start` performs an exchange iff it is the first start.
* `second_start_refused`: a session whose first exchange fails is not asked again.

Fix: let `create` reset `started`, `destroyed` and `data`, and keep the session (or a factory for
sessions) over `destroy`.
-/
namespace ChronyRs.Bugs.RefusedExchange

open L1.Ext L2 L3.Nts L3.Nts.NtsClient

variable {F C T E : Type} [F64 F] [AesSiv C] [TlsSession T] [Env E F]

/-- The host of a client over `RealNkeClient`, with a count of the calls of `start`. -/
abbrev Host (T E : Type) := Counted (RealHost T E)

/-! ## Runs -/

/-- A new client, with or without cookies of an old session. -/
structure Created (tls : T) (host : String) (port : UInt16) (env : E)
    (c : NtsClient F C (Host T E)) : Prop where
  hasNke_eq : c.hasNke = false
  host_told : Told ⟨⟨.new tls host port, env⟩, 0⟩ c.host

/-- `change_address`: the client is reset, and may load cookies of an old session.
mirrors nts_ntp_client.rs:226-247,561-568 -/
structure Changed (c c' : NtsClient F C (Host T E)) : Prop where
  hasNke_eq : c'.hasNke = false
  host_told : Told (if c.hasNke then NtsHost.destroy c.host else c.host) c'.host

/-- One call, with any packet and any dump, that returns. -/
inductive ClientStep : NtsClient F C (Host T E) → Option Call → NtsClient F C (Host T E) → Prop
  | call {c c' : NtsClient F C (Host T E)} {e : Call} (h : Step c e c') : ClientStep c (some e) c'
  | change {c c' : NtsClient F C (Host T E)} (h : Changed c c') : ClientStep c none c'

/-- Between calls there is no exchange, and the backend is unused or destroyed. -/
structure Idle (c : NtsClient F C (Host T E)) : Prop where
  hasNke_eq : c.hasNke = false
  backend : (c.host.started = 0 ∧ c.host.host.nke.Unused) ∨
    (0 < c.host.started ∧ c.host.host.nke.destroyed = true)

omit [F64 F] [AesSiv C] in
theorem told_nke {host host' : Host T E} (h : Told host host') :
    host'.host.nke = host.host.nke ∧ host'.started = host.started := by
  rcases h with rfl | ⟨old, new, rfl⟩
  · exact ⟨rfl, rfl⟩
  · exact ⟨rfl, rfl⟩

omit [F64 F] in
theorem fillList_nke : ∀ (n : Nat) (host : Host T E),
    (fillList (NtsHost.rng (F := F)) n host).1.host.nke = host.host.nke
  | 0, _ => rfl
  | n + 1, _ => fillList_nke n _

omit [AesSiv C] in
/-- The draws and the check for cookies leave the backend alone. -/
theorem checked_nke (c : NtsClient F C (Host T E)) :
    c.drawn.checkCookies.1.host.host.nke = c.host.host.nke ∧
      c.drawn.checkCookies.1.host.started = c.host.started ∧ c.drawn.checkCookies.1.hasNke =
        c.hasNke := by
  obtain ⟨hhost, hnke⟩ := checkCookies_host c.drawn
  have hdrawn : c.drawn.host.host.nke = c.host.host.nke := by
    unfold drawn drawNonces fillBuf
    dsimp only
    rw [fillList_nke, fillList_nke]
  rw [hhost]
  exact ⟨hdrawn, drawn_started c, hnke⟩

/-- A call that reaches the backend destroys it. -/
theorem Idle.prepare {c c' : NtsClient F C (Host T E)} {ok : Bool} (hi : Idle c)
    (h : c.prepareForAuth = .ok (c', ok)) : Idle c' := by
  obtain ⟨hnke, hstarted, hno⟩ := checked_nke c
  have hbackend := hi.backend
  rw [← hnke, ← hstarted] at hbackend
  rcases prepareForAuth_host h with ⟨-, hh, hn⟩ | ⟨-, c1, got, hget, hh, hn, -⟩
  · rw [← hh] at hbackend
    exact ⟨hn.trans (hno.trans hi.hasNke_eq), hbackend⟩
  rcases hget.host_cases with ⟨-, -, rfl⟩ | ⟨-, hact, -⟩ | ⟨-, -, hover, htold⟩
  · refine ⟨hn.trans (hno.trans hi.hasNke_eq), ?_⟩
    rw [hh]
    exact hbackend
  · cases hact
  · obtain ⟨h1, h2⟩ := told_nke htold
    refine ⟨hn.trans hover, .inr ?_⟩
    rw [hh, h1, h2]
    have hask := asked_started (c := c.drawn.checkCookies.1) (hno.trans hi.hasNke_eq)
    have hpos : 0 < c.drawn.checkCookies.1.asked.started := by omega
    exact ⟨hpos, rfl⟩

theorem Idle.step {c c' : NtsClient F C (Host T E)} {e : Option Call} (hi : Idle c)
    (h : ClientStep c e c') : Idle c' := by
  cases h with
  | call h =>
    cases h with
    | prepare h => exact hi.prepare h
    | generate h =>
      obtain ⟨h1, h2⟩ := generateRequestAuth_host h
      exact ⟨h2.trans hi.hasNke_eq, h1 ▸ hi.backend⟩
    | check h =>
      obtain ⟨h1, h2, -⟩ := checkResponseAuth_frame h
      exact ⟨h2.trans hi.hasNke_eq, h1 ▸ hi.backend⟩
  | change h =>
    have htold := h.host_told
    rw [if_neg (by simp [hi.hasNke_eq])] at htold
    obtain ⟨h1, h2⟩ := told_nke htold
    refine ⟨h.hasNke_eq, ?_⟩
    rw [h1, h2]
    exact hi.backend

/-! ## Starting -/

/-- `prepare_for_auth` finds no usable cookies, and `get_cookies` creates and starts an exchange. -/
structure Starts (c : NtsClient F C (Host T E)) : Prop where
  spent : c.drawn.checkCookies.2 = false
  hasNke_eq : c.drawn.checkCookies.1.hasNke = false
  due : ¬ c.drawn.checkCookies.1.Early

/-- The backend that it starts: created, after the clock was read. -/
def startedNke (c : NtsClient F C (Host T E)) : RealNkeClient T :=
  (NtsHost.create (NtsHost.monoTime c.drawn.checkCookies.1.host).1 c.drawn.checkCookies.1.ntsAddress
    c.drawn.checkCookies.1.name c.drawn.checkCookies.1.certSet : Host T E).host.nke

omit [AesSiv C] in
theorem startedNke_eq (c : NtsClient F C (Host T E)) :
    startedNke c = c.host.host.nke.create c.drawn.checkCookies.1.name := by
  rw [← (checked_nke c).1]
  rfl

/-- **One exchange.** Whenever `get_cookies` creates and starts a key exchange, `start` performs one
on the session and reports its outcome iff none was started before. -/
theorem start_performs_iff {tls : T} {host : String} {port : UInt16} {env : E}
    {c0 c : NtsClient F C (Host T E)} {tr : List (Option Call)} (h0 : Created tls host port env c0)
    (h : Run ClientStep c0 tr c) (_ : Starts c) :
    (startedNke c).Performs ↔ c.host.started = 0 := by
  have hidle : Idle c := by
    refine h.invariant (I := Idle) (fun _ _ _ => Idle.step) ⟨h0.hasNke_eq, .inl ?_⟩
    obtain ⟨h1, h2⟩ := told_nke h0.host_told
    rw [h1, h2]
    exact ⟨rfl, rfl, rfl, rfl⟩
  rw [startedNke_eq]
  rcases hidle.backend with ⟨hz, hunused⟩ | ⟨hpos, hdead⟩
  · have hu : (c.host.host.nke.create c.drawn.checkCookies.1.name).Unused :=
      ⟨hunused.1, hunused.2, hunused.3⟩
    exact ⟨fun _ => hz, fun _ => hu.performs⟩
  · have hd : (c.host.host.nke.create c.drawn.checkCookies.1.name).destroyed = true := hdead
    exact ⟨fun hp => absurd hp (RealNkeClient.not_performs_of_destroyed hd), fun hz => by omega⟩

/-! ## A session whose first exchange fails -/

/-- Fails once, and would succeed from then on. -/
structure Flaky where
  calls : Nat
  deriving DecidableEq, Repr

instance : TlsSession Flaky where
  keHandshake t _ _ := (⟨t.calls + 1⟩, if t.calls = 0 then .error .connectionFailed
    else .ok ⟨32, List.replicate 32 1, List.replicate 32 2, [List.replicate 64 3]⟩)

structure Clock where
  ticks : Nat
  deriving DecidableEq, Repr

instance : Env Clock ℚ where
  monoTime e := (⟨e.ticks + 1⟩, e.ticks)
  rng e := (e, 7)
  updateSource e _ _ := (e, true)

def unlucky : NtsClient ℚ NullCipher (Host Flaky Clock) :=
  NtsClient.new ⟨some 1, 4460⟩ "nts" 0 123 ⟨⟨.new ⟨0⟩ "nts" 4460, ⟨100⟩⟩, 0⟩ 1000

theorem unlucky_created : Created ⟨0⟩ "nts" 4460 ⟨100⟩ unlucky := ⟨rfl, .inl rfl⟩

/-- `Starts`, as a check. -/
def starts (c : NtsClient ℚ NullCipher (Host Flaky Clock)) : Bool :=
  !c.drawn.checkCookies.2 && !c.drawn.checkCookies.1.hasNke &&
    !F64.lt (NtsHost.monoTime c.drawn.checkCookies.1.host).2 c.drawn.checkCookies.1.nextNkeAttempt

theorem starts_of_check {c : NtsClient ℚ NullCipher (Host Flaky Clock)} (h : starts c = true) :
    Starts c := by
  simp only [starts, Bool.and_eq_true, Bool.not_eq_true'] at h
  obtain ⟨⟨h1, h2⟩, h3⟩ := h
  exact ⟨h1, h2, fun he => by rw [he.2] at h3; cases h3⟩

theorem start_performs_iff_first : (startedNke unlucky).Performs :=
  (start_performs_iff unlucky_created (.nil unlucky) (starts_of_check (by decide +kernel))).2 rfl

/-- **The retry is refused.** The first exchange fails; at the retry time `get_cookies` creates and
starts another one, and `start` does not ask the session, which would now succeed. -/
theorem second_start_refused : ∃ c : NtsClient ℚ NullCipher (Host Flaky Clock),
    Run ClientStep unlucky [some (.prepare false)] c ∧ Starts c ∧ ¬ (startedNke c).Performs := by
  obtain ⟨⟨c, ok⟩, hp, hcheck⟩ := exists_of_check
    (p := fun r => !r.2 && starts r.1 && r.1.host.host.nke.destroyed) (x := unlucky.prepareForAuth)
    (by decide +kernel)
  simp only [Bool.and_eq_true, Bool.not_eq_true'] at hcheck
  obtain ⟨⟨rfl, hstarts⟩, hdead⟩ := hcheck
  refine ⟨c, .cons (.call (.prepare hp)) (.nil c), starts_of_check hstarts, ?_⟩
  rw [startedNke_eq]
  exact RealNkeClient.not_performs_of_destroyed hdead

end ChronyRs.Bugs.RefusedExchange

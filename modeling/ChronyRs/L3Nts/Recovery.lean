import ChronyRs.L3Nts.Prepare

/-!
# What a client does to its host, and the way out of a NAK (`nts_ntp_client.rs`)

A client without usable cookies asks its host for a key exchange. `Fetched.host_cases` lists what a
call of `get_cookies` does to the host, `prepareForAuth_host` what one of `prepare_for_auth` does.

`Counted` wraps any host and counts the exchanges that it is told to start. A NAK sets
`nak_response`, which only a successful `prepare_for_auth` clears; until a valid response comes, the
next `prepare_for_auth` drops the cookies and starts an exchange unless it is too early for one
(`Spent.renews`).
-/
namespace ChronyRs.L3.Nts

open L1.Ext L2 L2.AuthEf

namespace NtsClient

variable {F C H : Type} [F64 F] [AesSiv C] [NtsHost H F]

/-! ## The host -/

variable {c c' : NtsClient F C H} {ok : Bool}

omit [AesSiv C] in
/-- **What `get_cookies` does to the host.** -/
theorem Fetched.host_cases (h : Fetched c c' ok) :
    (c.Early ∧ ok = false ∧ c' = { c with host := (NtsHost.monoTime c.host).1 }) ∨
    (¬ c.Early ∧ (NtsHost.isActive c.asked).2 = true ∧ ok = false ∧ c'.hasNke = true ∧
      c'.host = (NtsHost.isActive c.asked).1) ∨
    (¬ c.Early ∧ (NtsHost.isActive c.asked).2 = false ∧ c'.hasNke = false ∧
      Told (NtsHost.destroy (NtsHost.getNtsData (NtsHost.isActive c.asked).1 8).1) c'.host) := by
  cases h with
  | early hearly => exact .inl ⟨hearly, rfl, rfl⟩
  | active hdue hact => exact .inr (.inl ⟨hdue, hact, rfl, rfl, rfl⟩)
  | failed hdue hact => exact .inr (.inr ⟨hdue, hact, rfl, .inl rfl⟩)
  | adopted hdue hact _ h =>
    obtain ⟨-, host, addr, htold, ⟨-, rfl⟩ | ⟨-, c1, hstore, rfl⟩⟩ := adoptData_cases h
    · exact .inr (.inr ⟨hdue, hact, rfl, htold⟩)
    · obtain ⟨cookies, ghost, rfl, -⟩ := storeFrom_eq_ok _ hstore
      exact .inr (.inr ⟨hdue, hact, rfl, htold⟩)

omit [AesSiv C] in
/-- The check for usable cookies reads the clock. -/
theorem checkCookies_host (c : NtsClient F C H) :
    c.checkCookies.1.host = (NtsHost.monoTime c.host).1 ∧ c.checkCookies.1.hasNke = c.hasNke := by
  unfold checkCookies
  dsimp only
  split
  · exact ⟨rfl, rfl⟩
  · exact ⟨rfl, rfl⟩

omit [F64 F] [NtsHost H F] in
theorem keyForRequest_host (h : c.keyForRequest = .ok (c', ok)) :
    c'.host = c.host ∧ c'.hasNke = c.hasNke := by
  obtain ⟨-, rfl, -⟩ | ⟨_, _, -, -, rfl⟩ := keyForRequest_cases h <;> exact ⟨rfl, rfl⟩

/-- A request with the cookies at hand leaves the host to the clock; any other goes through
`get_cookies`. -/
theorem prepareForAuth_host (h : c.prepareForAuth = .ok (c', ok)) :
    (c.drawn.checkCookies.2 = true ∧ c'.host = c.drawn.checkCookies.1.host ∧
      c'.hasNke = c.drawn.checkCookies.1.hasNke) ∨
    (c.drawn.checkCookies.2 = false ∧ ∃ c1 got, Fetched c.drawn.checkCookies.1 c1 got ∧
      c'.host = c1.host ∧ c'.hasNke = c1.hasNke ∧ (got = false → c' = c1 ∧ ok = false)) := by
  cases prepareForAuth_prepared h with
  | usable hcheck hkey =>
    obtain ⟨e1, e2⟩ := keyForRequest_host hkey
    rw [hcheck]
    exact .inl ⟨rfl, e1, e2⟩
  | barren hcheck hget =>
    rw [hcheck]
    exact .inr ⟨rfl, c', false, hget, rfl, rfl, fun _ => ⟨rfl, rfl⟩⟩
  | @fetched _ c2 _ _ hcheck hget hkey =>
    obtain ⟨e1, e2⟩ := keyForRequest_host hkey
    rw [hcheck]
    exact .inr ⟨rfl, c2, true, hget, e1, e2, by simp⟩

/-! ## Requests and responses -/

/-- At most the cookies differ. -/
def SameButPool (c c' : NtsClient F C H) : Prop :=
  ∃ cookies num ghost, c' = { c with cookies := cookies, numCookies := num, ghost := ghost }

omit [F64 F] [AesSiv C] [NtsHost H F] in
theorem extractCookies_frame {plaintext : Bytes} {length : Int}
    (h : c.extractCookies plaintext length = .ok (c', ok)) : SameButPool c c' := by
  refine extractCookies_induct (P := SameButPool c) h ⟨_, _, _, rfl⟩ ?_
  rintro _ body c2 ⟨_, _, _, rfl⟩ - hstore
  obtain ⟨-, ghost, rfl⟩ := storeCookie_eq_ok hstore
  exact ⟨_, _, _, rfl⟩

omit [NtsHost H F] in
/-- A response leaves the host alone, and does not clear `nak_response`. -/
theorem checkResponseAuth_frame {packet : NtpPacketBuf} {info : NtpPacketInfo}
    (h : c.checkResponseAuth packet info = .ok (c', ok)) :
    c'.host = c.host ∧ c'.hasNke = c.hasNke ∧ (c.nakResponse = true → c'.nakResponse = true) := by
  cases checkResponseAuth_answered h with
  | ignored => exact ⟨rfl, rfl, id⟩
  | rejected => exact ⟨rfl, rfl, id⟩
  | nak => exact ⟨rfl, rfl, fun _ => rfl⟩
  | barren _ _ _ hextract =>
    obtain ⟨cookies, num, ghost, rfl⟩ := extractCookies_frame hextract
    exact ⟨rfl, rfl, id⟩
  | accepted _ _ _ _ _ hextract =>
    obtain ⟨cookies, num, ghost, rfl⟩ := extractCookies_frame hextract
    exact ⟨rfl, rfl, id⟩

omit [F64 F] [NtsHost H F] in
theorem generateRequestAuth_host {packet packet' : NtpPacketBuf} {info info' : NtpPacketInfo}
    (h : c.generateRequestAuth packet info = .ok (c', packet', info', ok)) :
    c'.host = c.host ∧ c'.hasNke = c.hasNke := by
  unfold generateRequestAuth at h
  split at h
  · cases h; exact ⟨rfl, rfl⟩
  dsimp only at h
  split at h
  · cases h; exact ⟨rfl, rfl⟩
  split at h
  · cases h; exact ⟨rfl, rfl⟩
  obtain ⟨⟨c1, cookie⟩, htake, h⟩ := bind_eq_ok.1 h
  have hc1 : c1.host = c.host ∧ c1.hasNke = c.hasNke := by
    unfold takeCookie at htake
    obtain ⟨x, -, htake⟩ := bind_eq_ok.1 htake
    cases htake
    exact ⟨rfl, rfl⟩
  obtain ⟨k, -, h⟩ := bind_eq_ok.1 h
  obtain ⟨⟨p1, i1, added⟩, -, h⟩ := bind_eq_ok.1 h
  cases added with
  | false => cases h; exact hc1
  | true =>
    obtain ⟨⟨p2, i2, siv, sealed⟩, -, h⟩ := bind_eq_ok.1 h
    cases sealed with
    | false => cases h; exact hc1
    | true => cases h; exact hc1

/-! ## A refused request -/

/-- A NAK was received, and no valid response. -/
def Spent (c : NtsClient F C H) : Prop := c.nakResponse = true ∧ c.okResponse = false

omit [AesSiv C] in
/-- The cookies of a refused request are dropped. -/
theorem Spent.checkCookies (h : c.Spent) :
    c.checkCookies.2 = false ∧ c.checkCookies.1.numCookies ≤ 0 ∧ c.checkCookies.1.Spent := by
  obtain ⟨h1, h2⟩ := h
  unfold NtsClient.checkCookies
  dsimp only
  split
  · exact ⟨by simp, Int.le_refl 0, h1, h2⟩
  · rename_i hcond
    have hle : c.numCookies ≤ 0 := by
      by_contra hpos
      exact hcond ⟨by omega, .inl ⟨h1, by simp [h2]⟩⟩
    exact ⟨by simpa using hle, hle, h1, h2⟩

end NtsClient

/-! ## Counted exchanges -/

/-- A host that counts the exchanges it is told to start. -/
structure Counted (H : Type) where
  host : H
  started : Nat

instance {F H : Type} [NtsHost H F] : NtsHost (Counted H) F where
  create h address name certSet := { h with host := NtsHost.create h.host address name certSet }
  start h := (⟨(NtsHost.start h.host).1, h.started + 1⟩, (NtsHost.start h.host).2)
  isActive h := ({ h with host := (NtsHost.isActive h.host).1 }, (NtsHost.isActive h.host).2)
  getNtsData h n := ({ h with host := (NtsHost.getNtsData h.host n).1 },
    (NtsHost.getNtsData h.host n).2)
  getRetryFactor h := ({ h with host := (NtsHost.getRetryFactor h.host).1 },
    (NtsHost.getRetryFactor h.host).2)
  destroy h := { h with host := NtsHost.destroy h.host }
  monoTime h := ({ h with host := (NtsHost.monoTime h.host).1 }, (NtsHost.monoTime h.host).2)
  rng h := ({ h with host := (NtsHost.rng h.host).1 }, (NtsHost.rng h.host).2)
  updateSource h old new :=
    ({ h with host := (NtsHost.updateSource h.host old new).1 },
      (NtsHost.updateSource h.host old new).2)

namespace NtsClient

variable {F C H : Type} [F64 F] [AesSiv C] [NtsHost H F]

omit [F64 F] [AesSiv C] in
theorem asked_started {c : NtsClient F C (Counted H)} (h : c.hasNke = false) :
    c.asked.started = c.host.started + 1 := by
  unfold asked exchangeHost
  rw [if_neg (by simp [h])]
  split
  · rename_i host heq
    have := congrArg (fun r => r.1.started) heq
    exact this.symm
  · rename_i host heq
    have := congrArg (fun r => r.1.started) heq
    exact this.symm

omit [F64 F] in
theorem Told.started {host host' : Counted H} (h : Told host host') :
    host'.started = host.started := by
  rcases h with rfl | ⟨old, new, rfl⟩ <;> rfl

omit [F64 F] in
theorem fillList_started : ∀ (n : Nat) (host : Counted H),
    (fillList (NtsHost.rng (F := F)) n host).1.started = host.started
  | 0, _ => rfl
  | n + 1, _ => fillList_started n _

omit [F64 F] [AesSiv C] in
theorem drawn_started (c : NtsClient F C (Counted H)) : c.drawn.host.started = c.host.started := by
  unfold drawn drawNonces fillBuf
  dsimp only
  rw [fillList_started, fillList_started]

/-- `prepare_for_auth` drops all cookies, and starts an exchange unless one is running or it is too
early. -/
structure Renews (c : NtsClient F C (Counted H)) : Prop where
  discards : c.drawn.checkCookies.2 = false ∧ c.drawn.checkCookies.1.numCookies ≤ 0
  starts : c.hasNke = false → ¬ c.drawn.checkCookies.1.Early →
    ∀ c' ok, c.prepareForAuth = .ok (c', ok) → c'.host.started = c.host.started + 1

theorem Spent.renews {c : NtsClient F C (Counted H)} (h : c.Spent) : c.Renews := by
  obtain ⟨h1, h2, -⟩ := Spent.checkCookies (c := c.drawn) h
  obtain ⟨hhost, hnke⟩ := checkCookies_host c.drawn
  refine ⟨⟨h1, h2⟩, fun hno hdue c' ok hp => ?_⟩
  have hstart : c.drawn.checkCookies.1.host.started = c.host.started := by
    rw [hhost]
    exact drawn_started c
  rcases prepareForAuth_host hp with ⟨hu, -⟩ | ⟨-, c1, got, hget, hh, -⟩
  · rw [h1] at hu
    cases hu
  rw [hh]
  have hask := asked_started (c := c.drawn.checkCookies.1) (hnke.trans hno)
  rcases hget.host_cases with ⟨hearly, -⟩ | ⟨-, -, -, -, he⟩ | ⟨-, -, -, he⟩
  · exact absurd hearly hdue
  · rw [he]
    exact hask.trans (by rw [hstart])
  · rw [Told.started he]
    exact hask.trans (by rw [hstart])

/-- Too early, nothing else changes. -/
theorem Spent.waits {c c' : NtsClient F C H} {ok : Bool} (h : c.Spent)
    (hearly : c.drawn.checkCookies.1.Early) (hp : c.prepareForAuth = .ok (c', ok)) : c'.Spent := by
  obtain ⟨h1, -, h3⟩ := Spent.checkCookies (c := c.drawn) h
  rcases prepareForAuth_host hp with ⟨hu, -⟩ | ⟨-, c1, got, hget, -, -, hfail⟩
  · rw [h1] at hu
    cases hu
  rcases hget.host_cases with ⟨-, rfl, rfl⟩ | ⟨hdue, -⟩ | ⟨hdue, -⟩
  · obtain ⟨rfl, -⟩ := hfail rfl
    exact h3
  · exact absurd hearly hdue
  · exact absurd hearly hdue

end NtsClient

end ChronyRs.L3.Nts

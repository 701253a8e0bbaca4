import ChronyRs.L3Nts.Request

/-!
# What a request of an NTS client can draw on

`prepare_for_auth` uses the session it has, if there are cookies and they are neither
refused nor too old, and otherwise asks the NTS-KE client for a new one. `offer` is the
session it comes to, as a function of the association and the answers of its host;
`Keyable` says when the session's keys can be used.

* `prepareForAuth_offer`: what `prepare_for_auth` returns and leaves, by `offer`.
* `request_iff`: preparing and building a request succeed iff the offered session can
  be keyed and has a cookie that fits.
-/
namespace ChronyRs.L3.Nts.NtsClient

open L1.Ext L2 L2.AuthEf

variable {F C H : Type} [F64 F] [AesSiv C] [NtsHost H F]

/-- The session that an NTS-KE exchange delivers now, at an address that is accepted. -/
def delivered (c : NtsClient F C H) : Option NkeData :=
  let (host, now) := NtsHost.monoTime c.host
  if ¬ c.hasNke ∧ F64.lt now c.nextNkeAttempt then none
  else
    let (host, active) := NtsHost.isActive (exchangeHost { c with host })
    if active then none
    else
      let (host, data) := NtsHost.getNtsData host 8
      data.filter fun data =>
        (({ c with host := NtsHost.destroy host } : NtsClient F C H).setNtpAddress
          data.ntpAddress).2

def usable (c : NtsClient F C H) : Bool :=
  0 < c.numCookies ∧ ¬ (c.nakResponse ∧ ¬ c.okResponse) ∧
    ¬ F64.lt c.ntsRefresh (F64.sub (NtsHost.monoTime c.drawNonces.host).2 c.lastNkeSuccess)

structure Session (C : Type) where
  cookie : Option NkeCookie
  context : NkeContext
  siv : Option (SivInstance C)

/-- The session that a request made now would use. -/
def offer (c : NtsClient F C H) : Option (Session C) :=
  if c.usable then some ⟨c.cookies[asUsize c.cookieIndex]?, c.context, c.siv⟩
  else
    (delivered { c with host := (NtsHost.monoTime c.drawNonces.host).1 }).map fun data =>
      ⟨data.cookies.head?, data.context, none⟩

/-- The key can be set: there is an instance or one can be created, and the length of
the key is right. -/
def Session.Keyable (s : Session C) : Prop :=
  (s.siv.isSome ∨ s.context.algorithm = .aesSivCmac256) ∧ s.context.c2s.length = 32

instance (s : Session C) : Decidable s.Keyable := inferInstanceAs (Decidable (_ ∧ _))

/-- The client holds the session: its keys, and its next cookie if there is one. -/
structure Carries (c : NtsClient F C H) (s : Session C) : Prop where
  context_eq : c.context = s.context
  siv_eq : c.siv = s.siv
  cookie_eq : (0 < c.numCookies ∧ c.cookies[asUsize c.cookieIndex]? = s.cookie) ∨
    (c.numCookies ≤ 0 ∧ s.cookie = none)
  ready_eq : c.authReady = false

/-! ## The exchange -/

variable {c c' : NtsClient F C H} {ok : Bool}

omit [F64 F] [AesSiv C] in
/-- Adopting a session whose address is accepted. -/
theorem adoptData_carries {now : F} {data : NkeData} (hr : c.authReady = false)
    (h : c.adoptData now data = .ok (c', ok)) :
    ok = (c.setNtpAddress data.ntpAddress).2 ∧ c'.authReady = false ∧
      (ok = true → Carries c' ⟨data.cookies.head?, data.context, none⟩) := by
  obtain ⟨hok, host, addr, -, ⟨rfl, rfl⟩ | ⟨rfl, c1, hstore, rfl⟩⟩ := adoptData_cases h
  · exact ⟨hok, hr, by simp⟩
  · obtain ⟨cookies, ghost, rfl, -, hhead⟩ := storeFrom_eq_ok _ hstore
    refine ⟨hok, hr, fun _ => ⟨rfl, rfl, ?_, hr⟩⟩
    cases hd : data.cookies with
    | nil => exact .inr ⟨by simp, rfl⟩
    | cons x xs =>
      rw [hd] at hhead
      refine .inl ⟨?_, hhead x (by simp)⟩
      apply Int.natCast_pos.2
      rw [List.length_take, List.length_cons]
      omega

omit [AesSiv C] in
/-- `get_cookies` succeeds iff a session is delivered, and the client then holds it. -/
theorem Fetched.delivered (h : Fetched c c' ok) (hr : c.authReady = false) :
    match c.delivered with
    | none => ok = false ∧ c'.authReady = false
    | some data => ok = true ∧ Carries c' ⟨data.cookies.head?, data.context, none⟩ := by
  unfold NtsClient.delivered
  dsimp only
  have hask : NtsHost.isActive ({ c with host := (NtsHost.monoTime c.host).1 } : NtsClient F C
      H).exchangeHost = NtsHost.isActive c.asked := rfl
  rw [hask]
  cases h with
  | early hearly => rw [if_pos (by exact hearly)]; exact ⟨rfl, hr⟩
  | active hdue hact => rw [if_neg (by exact hdue), if_pos hact]; exact ⟨rfl, hr⟩
  | failed hdue hact hdata =>
    rw [if_neg (by exact hdue), if_neg (by simp [hact]), hdata]; exact ⟨rfl, hr⟩
  | @adopted hdue hact data _ _ hdata _ _ h =>
    rw [if_neg (by exact hdue), if_neg (by simp [hact]), hdata, Option.filter_some]
    obtain ⟨hok, hready, hcar⟩ := adoptData_carries (by exact hr) h
    have hflag :
        ok = (({ c with
          host := NtsHost.destroy (NtsHost.getNtsData (NtsHost.isActive c.asked).1 8).1 } :
          NtsClient F C H).setNtpAddress data.ntpAddress).2 :=
      hok.trans (setNtpAddress_congr _ rfl rfl rfl rfl)
    rw [← hflag]
    cases ok with
    | false => exact ⟨rfl, hready⟩
    | true => exact ⟨rfl, hcar rfl⟩

/-! ## Preparing -/

omit [F64 F] [NtsHost H F] in
theorem keyForRequest_keyable {s : Session C} (hc : Carries c s)
    (h : ({ c with nakResponse := false } : NtsClient F C H).keyForRequest = .ok (c', ok)) :
    (ok = true ↔ s.Keyable) ∧ c'.authReady = ok ∧ c'.Keyed ∧ c'.context = s.context ∧
      ((0 < c'.numCookies ∧ c'.cookies[asUsize c'.cookieIndex]? = s.cookie) ∨
        (c'.numCookies ≤ 0 ∧ s.cookie = none)) := by
  have hr := hc.ready_eq
  unfold Session.Keyable
  rw [← hc.context_eq, ← hc.siv_eq]
  obtain ⟨rfl, rfl, hno⟩ | ⟨siv0, siv, hyes, hset, rfl⟩ := keyForRequest_cases h
  · exact ⟨⟨by simp, fun hk => absurd hk.1 hno⟩, hr, keyed_of_not_ready hr, rfl, hc.cookie_eq⟩
  · have hlen : ok = true ↔ c.context.c2s.length = 32 := by
      rcases siv0.setKey_cases c.context.c2s with ⟨hl, t, ht, -⟩ | ⟨hl, ht⟩ | ⟨-, -, ht⟩
      · cases ht.symm.trans hset
        simp [hl]
      · cases ht.symm.trans hset
        simp only [Bool.false_eq_true, false_iff]
        exact fun h32 => hl (by rw [h32]; rfl)
      · cases ht.symm.trans hset
    refine ⟨⟨fun hok => ⟨hyes, hlen.1 hok⟩, fun hk => hlen.2 hk.2⟩, ?_, ?_, rfl, hc.cookie_eq⟩
    · cases ok <;> simp [hr]
    · cases ok with
      | false => exact keyed_of_not_ready hr
      | true => exact fun _ => ⟨siv, rfl, (SivInstance.setKey_true hset).2⟩

omit [AesSiv C] in
/-- A delivered session does not depend on the pool and on what was drawn. -/
theorem delivered_congr (hnke : c'.hasNke = c.hasNke) (hnext : c'.nextNkeAttempt = c.nextNkeAttempt)
    (hhost : c'.host = c.host) (hex : ∀ host : H, exchangeHost { c' with host } =
      exchangeHost { c with host })
    (haddr : ∀ (host : H) a, (({ c' with host } : NtsClient F C H).setNtpAddress a).2 =
      (({ c with host } : NtsClient F C H).setNtpAddress a).2) :
    c'.delivered = c.delivered := by
  unfold delivered
  simp only [hex, haddr]
  rw [hnke, hnext, hhost]

omit [AesSiv C] in
/-- The check for usable cookies, at the time the request is prepared. -/
theorem checkCookies_usable (c : NtsClient F C H) :
    match (({ c with authReady := false } : NtsClient F C H).drawNonces).checkCookies with
    | (c1, ok) => ok = c.usable ∧
        (c.usable = true → Carries c1 ⟨c.cookies[asUsize c.cookieIndex]?, c.context, c.siv⟩) ∧
        (c.usable = false → c1.authReady = false ∧
          c1.delivered = delivered { c with host := (NtsHost.monoTime c.drawNonces.host).1 }) := by
  have hhost : (({ c with authReady := false } : NtsClient F C H).drawNonces).host =
      c.drawNonces.host := rfl
  have hdel : ∀ num, delivered { (({ c with authReady := false } : NtsClient F C H).drawNonces) with
      host := (NtsHost.monoTime c.drawNonces.host).1, numCookies := num } =
      delivered { c with host := (NtsHost.monoTime c.drawNonces.host).1 } := fun num =>
    delivered_congr rfl rfl rfl (fun _ => rfl) fun _ a => setNtpAddress_congr a rfl rfl rfl rfl
  unfold checkCookies
  dsimp only
  rw [hhost]
  by_cases hpos : 0 < c.numCookies
  · by_cases hdrop : (c.nakResponse = true ∧ ¬ c.okResponse = true) ∨
        F64.lt c.ntsRefresh (F64.sub (NtsHost.monoTime c.drawNonces.host).2 c.lastNkeSuccess) = true
    · have hu : c.usable = false := by
        unfold usable
        rcases hdrop with h | h <;> simp [h]
      rw [if_pos ⟨hpos, hdrop⟩, hu]
      exact ⟨rfl, by simp, fun _ => ⟨rfl, hdel _⟩⟩
    · have hu : c.usable = true := by
        rw [not_or] at hdrop
        exact decide_eq_true ⟨hpos, hdrop⟩
      rw [if_neg fun h => hdrop h.2, hu]
      exact ⟨decide_eq_true hpos, fun _ => ⟨rfl, rfl, .inl ⟨hpos, rfl⟩, rfl⟩, by simp⟩
  · have hu : c.usable = false := by simp [usable, hpos]
    rw [if_neg fun h => hpos h.1, hu]
    exact ⟨decide_eq_false hpos, by simp, fun _ => ⟨rfl, hdel _⟩⟩

/-- **`prepare_for_auth`.** Without an offer it fails; with one it succeeds iff the keys
can be used, and the client then holds the offered cookie. -/
theorem prepareForAuth_offer (h : c.prepareForAuth = .ok (c', ok)) :
    match c.offer with
    | none => ok = false ∧ c'.authReady = false
    | some s => (ok = true ↔ s.Keyable) ∧ c'.authReady = ok ∧ c'.Keyed ∧ c'.context = s.context ∧
        ((0 < c'.numCookies ∧ c'.cookies[asUsize c'.cookieIndex]? = s.cookie) ∨
          (c'.numCookies ≤ 0 ∧ s.cookie = none)) := by
  have hcheck := checkCookies_usable c
  rw [show ({ c with authReady := false } : NtsClient F C H).drawNonces =
    c.drawn from rfl] at hcheck
  unfold offer
  cases prepareForAuth_prepared h with
  | usable hc hkey =>
    rw [hc] at hcheck
    obtain ⟨hu, hyes, -⟩ := hcheck
    rw [if_pos hu.symm]
    exact keyForRequest_keyable (hyes hu.symm) hkey
  | barren hc hget =>
    rw [hc] at hcheck
    obtain ⟨hu, -, hno⟩ := hcheck
    obtain ⟨hready, hsame⟩ := hno hu.symm
    have hdel := hget.delivered hready
    rw [hsame] at hdel
    rw [if_neg (by simp [← hu])]
    cases hdata : delivered { c with host := (NtsHost.monoTime c.drawNonces.host).1 } with
    | none => rw [hdata] at hdel; exact hdel
    | some data => rw [hdata] at hdel; cases hdel.1
  | fetched hc hget hkey =>
    rw [hc] at hcheck
    obtain ⟨hu, -, hno⟩ := hcheck
    obtain ⟨hready, hsame⟩ := hno hu.symm
    have hdel := hget.delivered hready
    rw [hsame] at hdel
    rw [if_neg (by simp [← hu])]
    cases hdata : delivered { c with host := (NtsHost.monoTime c.drawNonces.host).1 } with
    | none => rw [hdata] at hdel; cases hdel.1
    | some data => rw [hdata] at hdel; exact keyForRequest_keyable hdel.2 hkey

/-! ## Requests -/

theorem prepareForAuth_keyed (h : c.prepareForAuth = .ok (c', ok)) :
    c'.Keyed := by
  have := prepareForAuth_offer h
  cases ho : c.offer with
  | none => rw [ho] at this; exact keyed_of_not_ready this.2
  | some s => rw [ho] at this; exact this.2.2.1

/-- The session has usable keys and a cookie that fits. -/
def Session.Complete (s : Session C) : Prop :=
  s.Keyable ∧ ∃ cookie, s.cookie = some cookie ∧ CookieFits cookie

/-- **When a request is made.** Preparing and building a request both succeed iff the
packet is in client mode and a complete session is offered. -/
theorem request_iff {c1 c2 : NtsClient F C H} {packet packet' : NtpPacketBuf}
    {info info' : NtpPacketInfo} {prepared generated : Bool} (hlen : info.length = 48)
    (hv : info.version = 4) (hp : c.prepareForAuth = .ok (c1, prepared))
    (hg : c1.generateRequestAuth packet info = .ok (c2, packet', info', generated)) :
    prepared = true ∧ generated = true ↔ info.mode = 3 ∧ ∃ s, c.offer = some s ∧ s.Complete := by
  rw [generateRequestAuth_iff (prepareForAuth_keyed hp) hlen hv hg]
  have hoffer := prepareForAuth_offer hp
  cases ho : c.offer with
  | none =>
    rw [ho] at hoffer
    simp [hoffer.1]
  | some s =>
    rw [ho] at hoffer
    obtain ⟨hkey, hready, -, -, hcookie⟩ := hoffer
    constructor
    · rintro ⟨hprep, -, hpos, hmode, cookie, hget, hfit⟩
      rcases hcookie with ⟨-, e⟩ | ⟨hle, -⟩
      · exact ⟨hmode, s, rfl, hkey.1 hprep, cookie, e ▸ hget, hfit⟩
      · omega
    · rintro ⟨hmode, s', hs', hk, cookie, hget, hfit⟩
      cases hs'
      have hprep := hkey.2 hk
      rcases hcookie with ⟨hpos, e⟩ | ⟨-, e⟩
      · exact ⟨hprep, hready.trans hprep, hpos, hmode, cookie, e.trans hget, hfit⟩
      · rw [e] at hget; cases hget

end ChronyRs.L3.Nts.NtsClient

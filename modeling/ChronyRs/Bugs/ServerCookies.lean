import ChronyRs.Core.Lts
import ChronyRs.L1Encoding.Parse
import ChronyRs.L3Nts.Server
import Mathlib.Data.List.Nodup

/-!
# The NTS server repeats and misdirects cookies

`check_request_auth` prepares the cookies of a response in `cookies` and counts them
in `num_cookies`; `generate_response_auth` puts every cookie of `cookies` into the
response and resets `num_cookies` only (nts_ntp_server.rs:344-358). Nothing empties
`cookies` but the next check that gets as far as making new ones. So the cookies of
one request go into

* every further response that is built before the next such check, and
* a response to a later request whose check failed after `siv_index` was set
  (`set_key`, the authenticator or the encrypted fields), encrypted with whatever key
  the instance then has.

The assertion of `generate_response_auth` compares the transmit timestamps only, which
two requests can share.

`Sys` runs both calls and logs the checks and the responses. `Sys.Good` is what the
logs of a sound server show. `repeated_cookie` is a run of three calls that sends one
cookie twice; `cookies_sent_once` says that every log is good when each response is
built for the request of the last check while `num_cookies` is still positive.
-/
namespace ChronyRs.Bugs.ServerCookies

open L1.Ext L2 L3.Nts

variable {C K : Type} [AesSiv C] [CookieCodec K]

/-! ## Runs of the server -/

def requestContext (s : NtsServer C K) (packet : NtpPacketBuf) (info : NtpPacketInfo) :
    Option NkeContext :=
  match NtsServer.scanRequest packet info with
  | .ok (.next r) => (CookieCodec.decodeCookie s.codec r.cookie).2
  | _ => none

/-- A `check_request_auth` call. -/
structure Checked where
  packet : NtpPacketBuf
  info : NtpPacketInfo
  context : Option NkeContext
  ok : Bool

/-- A `generate_response_auth` call that built a response with cookies. -/
structure Sent where
  request : NtpPacketBuf
  reqInfo : NtpPacketInfo
  /-- Where the cookies of the response come from. -/
  origins : List Origin
  /-- Checks before the response. -/
  time : Nat

/-- The server and the log of its calls. -/
structure Sys (C K : Type) where
  server : NtsServer C K
  checked : List Checked
  sent : List Sent

inductive Call where
  | check (packet : NtpPacketBuf) (info : NtpPacketInfo)
  | respond (request : NtpPacketBuf) (reqInfo : NtpPacketInfo) (response : NtpPacketBuf)
      (resInfo : NtpPacketInfo) (kod : Nat)

namespace Sys

def new (codec : K) : Sys C K := ⟨NtsServer.new codec, [], []⟩

def step (s : Sys C K) : Call → Rust (Sys C K)
  | .check packet info => do
    let (server, ok, _) ← s.server.checkRequestAuth packet info
    return { s with server,
                    checked := s.checked ++ [⟨packet, info,
                      requestContext s.server packet info, ok⟩] }
  | .respond request reqInfo response resInfo kod => do
    let (server, _, _, ok) ← s.server.generateResponseAuth request reqInfo response resInfo kod
    return { s with server,
                    sent := if kod = 0 ∧ ok then
                        s.sent ++ [⟨request, reqInfo, s.server.ghost.origins, s.checked.length⟩]
                      else s.sent }

def serials (s : Sys C K) : List Nat := s.sent.flatMap fun r => r.origins.map (·.serial)

/-- No cookie is in two responses. Every cookie was made by a check of the request that
the response answers, for the context in that request's cookie, and no check failed
between that check and the response. -/
structure Good (s : Sys C K) : Prop where
  once : s.serials.Nodup
  own : ∀ r ∈ s.sent, ∀ o ∈ r.origins, ∃ k e, o.check = k + 1 ∧ s.checked[k]? = some e ∧
    e.packet = r.request ∧ e.info = r.reqInfo ∧ e.context = some o.context
  no_failure : ∀ r ∈ s.sent, ∀ o ∈ r.origins, ∀ k e, o.check ≤ k → k < r.time →
    s.checked[k]? = some e → e.ok = true

/-- When a call keeps the log good: a response with cookies is built for the request of
the last check, while `num_cookies` says that its cookies were not used. -/
def Sound (s : Sys C K) : Call → Prop
  | .check _ _ => True
  | .respond request reqInfo _ _ kod =>
    kod ≠ 0 ∨ s.server.sivIndex < 0 ∨ s.server.cookies = [] ∨
      (0 < s.server.numCookies ∧
        ∃ e, s.checked.getLast? = some e ∧ e.packet = request ∧ e.info = reqInfo)

end Sys

/-! ## What the calls do to the cookies -/

/-- The cookies were made by the current check, with serials from `lo` on. -/
structure Fresh (lo : Nat) (context : NkeContext) (s : NtsServer C K) : Prop where
  same_length : s.ghost.origins.length = s.cookies.length
  made : ∀ o ∈ s.ghost.origins, o.check = s.ghost.checks ∧ o.context = context ∧
    lo ≤ o.serial ∧ o.serial < s.ghost.next
  distinct : (s.ghost.origins.map (·.serial)).Nodup

omit [AesSiv C] in
theorem makeCookies_fresh {lo : Nat} {context : NkeContext} :
    ∀ {n : Nat} {s s' : NtsServer C K} {ok : Bool},
    Fresh lo context s → lo ≤ s.ghost.next → NtsServer.makeCookies context n s = (s', ok) →
    Fresh lo context s' ∧ s'.ghost.checks = s.ghost.checks ∧ s.ghost.next ≤ s'.ghost.next ∧
      s'.numCookies = s.numCookies := by
  intro n
  induction n with
  | zero => intro s s' ok hf _ h; cases h; exact ⟨hf, rfl, Nat.le_refl _, rfl⟩
  | succ n ih =>
    intro s s' ok hf hlo h
    unfold NtsServer.makeCookies at h
    split at h
    · cases h; exact ⟨⟨hf.1, hf.2, hf.3⟩, rfl, Nat.le_refl _, rfl⟩
    · rename_i codec cookie _
      have hf1 : Fresh lo context { s with
          codec, cookies := s.cookies ++ [cookie]
          ghost := ⟨s.ghost.origins ++ [⟨s.ghost.next, s.ghost.checks, context⟩], s.ghost.next + 1,
            s.ghost.checks⟩ } := by
        refine ⟨by simp [hf.same_length], ?_, ?_⟩
        · intro o ho
          rcases List.mem_append.1 ho with ho | ho
          · obtain ⟨e1, e2, e3, e4⟩ := hf.made o ho
            exact ⟨e1, e2, e3, Nat.lt_succ_of_lt e4⟩
          · cases List.mem_singleton.1 ho
            exact ⟨rfl, rfl, hlo, Nat.lt_succ_self _⟩
        · -- the new serial is above all serials so far
          rw [List.map_append, List.nodup_append]
          refine ⟨hf.distinct, List.nodup_singleton _, ?_⟩
          rintro a ha b hb rfl
          obtain ⟨o, ho, rfl⟩ := List.mem_map.1 ha
          have := (hf.made o ho).2.2.2
          simp only [List.map_cons, List.map_nil, List.mem_singleton] at hb
          omega
      obtain ⟨h1, h2, h3, h4⟩ := ih hf1 (Nat.le_succ_of_le hlo) h
      exact ⟨h1, h2, Nat.le_of_succ_le h3, h4⟩

/-- What a check leaves behind: nothing to be sent, or fresh cookies. -/
structure CheckPost (s s' : NtsServer C K) (ok : Bool) (context : Option NkeContext) : Prop where
  checks_eq : s'.ghost.checks = s.ghost.checks + 1
  next_le : s.ghost.next ≤ s'.ghost.next
  same_length : s'.ghost.origins.length = s'.cookies.length
  failed : ok = false → s'.numCookies = 0
  fresh : ok = true → ∃ c, context = some c ∧ Fresh s.ghost.next c s'

omit [AesSiv C] in
theorem prepareResponse_post {s s' : NtsServer C K} {context : NkeContext} {requested : Int}
    {ok : Bool} {kod : Nat} (hnum : s.numCookies = 0)
    (h : s.prepareResponse context requested = (s', ok, kod)) :
    Fresh s.ghost.next context s' ∧ s'.ghost.checks = s.ghost.checks ∧
      s.ghost.next ≤ s'.ghost.next ∧ (ok = false → s'.numCookies = 0) := by
  unfold NtsServer.prepareResponse at h
  dsimp only at h
  have hf : Fresh s.ghost.next context
      { s.fillNonce with cookies := [], ghost := { s.fillNonce.ghost with origins := [] } } :=
    ⟨rfl, by simp, by simp⟩
  split at h
  · rename_i s1 heq
    obtain ⟨h1, h2, h3, h4⟩ := makeCookies_fresh hf (Nat.le_refl _) heq
    cases h
    exact ⟨h1, h2, h3, fun _ => h4.trans hnum⟩
  · rename_i s1 heq
    obtain ⟨h1, h2, h3, -⟩ := makeCookies_fresh hf (Nat.le_refl _) heq
    cases h
    exact ⟨⟨h1.1, h1.2, h1.3⟩, h2, h3, fun h => by cases h⟩

theorem checkRequestAuth_post {s s' : NtsServer C K} {packet : NtpPacketBuf} {info : NtpPacketInfo}
    {ok : Bool} {kod : Nat} (hlen : s.ghost.origins.length = s.cookies.length)
    (h : s.checkRequestAuth packet info = .ok (s', ok, kod)) :
    CheckPost s s' ok (requestContext s packet info) := by
  obtain ⟨s0, hc, ⟨rfl, rfl⟩ | ⟨r, context, requested, hv, hp⟩⟩ :=
    NtsServer.checkRequestAuth_cases h
  · refine ⟨by rw [hc.ghost_eq], by rw [hc.ghost_eq], ?_, fun _ => hc.num_eq, fun h => by cases h⟩
    rw [hc.ghost_eq, hc.cookies_eq]; exact hlen
  · obtain ⟨h1, h2, h3, h4⟩ := prepareResponse_post hc.num_eq hp
    rw [hc.ghost_eq] at h1 h2 h3
    have hctx : requestContext s packet info = some context := by
      simp only [requestContext, hv.scanned, hv.decoded]
    exact ⟨h2, h3, h1.same_length, h4, fun _ => ⟨context, hctx, h1⟩⟩

/-! ## Sound runs -/

namespace Sys

/-- What sound calls keep. While `num_cookies` is positive the cookies are those of the
last check, and newer than all cookies sent. -/
structure Inv (s : Sys C K) : Prop where
  good : s.Good
  checks_eq : s.server.ghost.checks = s.checked.length
  same_length : s.server.ghost.origins.length = s.server.cookies.length
  past : ∀ r ∈ s.sent, r.time ≤ s.checked.length ∧ ∀ o ∈ r.origins, o.serial < s.server.ghost.next
  ready : 0 < s.server.numCookies → ∃ e c lo, s.checked.getLast? = some e ∧ e.context = some c ∧
    Fresh lo c s.server ∧ ∀ n ∈ s.serials, n < lo

omit [AesSiv C] [CookieCodec K] in
theorem mem_serials {s : Sys C K} {n : Nat} :
    n ∈ s.serials ↔ ∃ r ∈ s.sent, ∃ o ∈ r.origins, o.serial = n := by
  simp [serials, List.mem_flatMap]

omit [AesSiv C] [CookieCodec K] in
theorem new_inv (codec : K) : (new codec : Sys C K).Inv :=
  ⟨⟨List.nodup_nil, by simp [new], by simp [new]⟩, rfl, rfl, by simp [new],
    fun h => absurd h (by simp [new, NtsServer.new])⟩

theorem check_inv {s s' : Sys C K} {packet : NtpPacketBuf} {info : NtpPacketInfo} (hi : s.Inv)
    (h : s.step (.check packet info) = .ok s') : s'.Inv := by
  obtain ⟨⟨server, ok, kod⟩, hc, h⟩ := bind_eq_ok.1 h
  cases h
  have hp := checkRequestAuth_post hi.same_length hc
  refine ⟨⟨hi.good.once, ?_, ?_⟩, ?_, hp.same_length, ?_, ?_⟩
  · intro r hr o ho
    obtain ⟨k, e, hk, he, h3⟩ := hi.good.own r hr o ho
    refine ⟨k, e, hk, ?_, h3⟩
    rw [List.getElem?_append_left (List.getElem?_eq_some_iff.1 he).1]
    exact he
  · -- the new check is not before any response
    intro r hr o ho k e hk hlt he
    have hlen := (hi.past r hr).1
    rw [List.getElem?_append_left (by omega)] at he
    exact hi.good.no_failure r hr o ho k e hk hlt he
  · simp [hp.checks_eq, hi.checks_eq]
  · intro r hr
    obtain ⟨h1, h2⟩ := hi.past r hr
    exact ⟨by simp; omega, fun o ho => Nat.lt_of_lt_of_le (h2 o ho) hp.next_le⟩
  · intro hpos
    cases ok with
    | false => rw [hp.failed rfl] at hpos; cases hpos
    | true =>
      obtain ⟨c, hctx, hf⟩ := hp.fresh rfl
      refine ⟨_, c, _, List.getLast?_concat, hctx, hf, fun n hn => ?_⟩
      obtain ⟨r, hr, o, ho, rfl⟩ := mem_serials.1 hn
      exact (hi.past r hr).2 o ho

omit [AesSiv C] [CookieCodec K] in
/-- A call that builds no response with cookies. -/
theorem Inv.unsent {s : Sys C K} (hi : s.Inv) {server : NtsServer C K}
    (hg : server.ghost = s.server.ghost) (hc : server.cookies = s.server.cookies)
    (hn : server.numCookies = s.server.numCookies ∨ server.numCookies = 0) :
    ({ s with server } : Sys C K).Inv := by
  refine ⟨⟨hi.good.1, hi.good.2, hi.good.3⟩, by rw [hg]; exact hi.checks_eq,
    by rw [hg, hc]; exact hi.same_length, by rw [hg]; exact hi.past, fun hpos => ?_⟩
  rcases hn with hn | hn
  · obtain ⟨e, c, lo, h1, h2, hf, h4⟩ := hi.ready (hn ▸ hpos)
    exact ⟨e, c, lo, h1, h2,
      ⟨by rw [hg, hc]; exact hf.1, by rw [hg]; exact hf.2, by rw [hg]; exact hf.3⟩, h4⟩
  · rw [hn] at hpos; cases hpos

omit [AesSiv C] [CookieCodec K] in
/-- Building a response with the cookies of the last check, for its request. -/
theorem Inv.send {s : Sys C K} (hi : s.Inv) {e : Checked} {c : NkeContext} {lo : Nat}
    (hlast : s.checked.getLast? = some e) (hctx : e.context = some c) (hf : Fresh lo c s.server)
    (hold : ∀ n ∈ s.serials, n < lo) :
    Good { s with
      sent := s.sent ++ [⟨e.packet, e.info, s.server.ghost.origins, s.checked.length⟩] } := by
  have hpos : 0 < s.checked.length := by
    rcases hl : s.checked with - | ⟨x, l⟩
    · rw [hl] at hlast; cases hlast
    · simp
  refine ⟨?_, ?_, ?_⟩
  · unfold serials
    rw [List.flatMap_append, List.nodup_append]
    refine ⟨hi.good.once, by simpa using hf.distinct, fun a ha b hb => ?_⟩
    simp only [List.flatMap_cons, List.flatMap_nil, List.append_nil] at hb
    obtain ⟨o, ho, rfl⟩ := List.mem_map.1 hb
    have h1 := hold a ha
    have h2 := (hf.made o ho).2.2.1
    omega
  · intro r hr o ho
    rcases List.mem_append.1 hr with hr | hr
    · exact hi.good.own r hr o ho
    · cases List.mem_singleton.1 hr
      obtain ⟨e1, e2, -⟩ := hf.made o ho
      refine ⟨s.checked.length - 1, e, by rw [e1, hi.checks_eq]; omega, ?_, rfl,
        rfl, by rw [hctx, e2]⟩
      rw [← List.getLast?_eq_getElem?]
      exact hlast
  · intro r hr o ho k e' hk hlt he
    rcases List.mem_append.1 hr with hr | hr
    · exact hi.good.no_failure r hr o ho k e' hk hlt he
    · cases List.mem_singleton.1 hr
      have := (hf.made o ho).1
      rw [hi.checks_eq] at this
      dsimp only at hlt
      omega

theorem respond_inv {s s' : Sys C K} {request response : NtpPacketBuf}
    {reqInfo resInfo : NtpPacketInfo} {kod : Nat} (hi : s.Inv)
    (hs : s.Sound (.respond request reqInfo response resInfo kod))
    (h : s.step (.respond request reqInfo response resInfo kod) = .ok s') : s'.Inv := by
  obtain ⟨⟨server, response', resInfo', ok⟩, hg, h⟩ := bind_eq_ok.1 h
  cases h
  obtain ⟨-, h1, h2, h3, h4⟩ := NtsServer.generateResponseAuth_cases hg
  have hun := hi.unsent h1 h2 h3
  split
  swap
  · exact hun
  rename_i hsent
  obtain ⟨hnum, hidx⟩ := h4 hsent.1 hsent.2
  have hsend : Good { s with
      sent := s.sent ++ [⟨request, reqInfo, s.server.ghost.origins, s.checked.length⟩] } ∧
      ∀ o ∈ s.server.ghost.origins, o.serial < s.server.ghost.next := by
    rcases hs with hk | hneg | hnone | ⟨hpos, e, hlast, rfl, rfl⟩
    · exact absurd hsent.1 hk
    · exact absurd hidx (not_le.2 hneg)
    · -- no cookies, nothing to show
      have hnil : s.server.ghost.origins = [] :=
        List.eq_nil_of_length_eq_zero (by rw [hi.same_length, hnone]; rfl)
      rw [hnil]
      refine ⟨⟨by simpa [serials] using hi.good.once, ?_, ?_⟩, by simp⟩ <;> intro r hr o ho <;>
        rcases List.mem_append.1 hr with hr | hr
      · exact hi.good.own r hr o ho
      · cases List.mem_singleton.1 hr; cases ho
      · exact hi.good.no_failure r hr o ho
      · cases List.mem_singleton.1 hr; cases ho
    · obtain ⟨e', c, lo, hlast', hctx, hf, hold⟩ := hi.ready hpos
      cases hlast.symm.trans hlast'
      exact ⟨hi.send hlast hctx hf hold, fun o ho => (hf.made o ho).2.2.2⟩
  obtain ⟨hgood, hserial⟩ := hsend
  refine ⟨⟨hgood.1, hgood.2, hgood.3⟩, hun.checks_eq, hun.same_length, ?_, fun hpos => ?_⟩
  · intro r hr
    rcases List.mem_append.1 hr with hr | hr
    · exact hun.past r hr
    · cases List.mem_singleton.1 hr
      exact ⟨Nat.le_refl _, by rw [h1]; exact hserial⟩
  · rw [hnum] at hpos; cases hpos

/-- **Sound calls send every cookie once, to the client it was made for.** -/
theorem cookies_sent_once (codec : K) {tr : List Call} {s : Sys C K}
    (h : Run (fun s e s' => s.Sound e ∧ s.step e = .ok s') (new codec) tr s) : s.Good := by
  refine (h.invariant (I := Inv) ?_ (new_inv codec)).good
  rintro s e s' hi ⟨hs, hstep⟩
  cases e with
  | check packet info => exact check_inv hi hstep
  | respond request reqInfo response resInfo kod => exact respond_inv hi hs hstep

/-! ## A repeated cookie -/

def reply : Call :=
  .respond sampleRequest sampleInfo (Buf.zero 1140) { length := 48, version := 4, mode := 4 } 0

theorem cookies_sent_once_single : ∃ s : Sys NullCipher PlainCodec,
    Run (fun s e s' => s.Sound e ∧ s.step e = .ok s') (new ⟨⟩)
      [.check sampleRequest sampleInfo, reply] s ∧ s.Good ∧ s.serials = [0] := by
  obtain ⟨s2, h⟩ := exists_of_result (b := ((1 : Int), [0])) (x := do
    let s1 ← (new ⟨⟩ : Sys NullCipher PlainCodec).step (.check sampleRequest sampleInfo)
    let s2 ← s1.step reply
    return (s2, s1.server.numCookies, s2.serials)) (by decide +kernel)
  obtain ⟨s1, h1, h⟩ := bind_eq_ok.1 h
  obtain ⟨s2', h2, h⟩ := bind_eq_ok.1 h
  obtain ⟨rfl, hnum, hser⟩ : s2' = s2 ∧ s1.server.numCookies = 1 ∧ s2'.serials = [0] := by
    simpa using h
  obtain ⟨x, -, hx⟩ := bind_eq_ok.1 h1
  have hsound : s1.Sound reply :=
    .inr (.inr (.inr ⟨by rw [hnum]; decide, by cases hx; exact ⟨_, rfl, rfl, rfl⟩⟩))
  have hrun : Run (fun s e s' => s.Sound e ∧ s.step e = .ok s') (new ⟨⟩)
      [.check sampleRequest sampleInfo, reply] s2' :=
    .cons ⟨trivial, h1⟩ (.cons ⟨hsound, h2⟩ (.nil _))
  exact ⟨s2', hrun, cookies_sent_once _ hrun, hser⟩

/-- **One check and two responses send the same cookie twice.** -/
theorem repeated_cookie : L1.Parse.parsePacket sampleRequest 192 = .ok (some sampleInfo) ∧
    ∃ s : Sys NullCipher PlainCodec, Run (fun s e s' => s.step e = .ok s') (new ⟨⟩)
      [.check sampleRequest sampleInfo, reply, reply] s ∧ ¬ s.Good := by
  refine ⟨by decide +kernel, ?_⟩
  have hser : ([.check sampleRequest sampleInfo, reply, reply].foldlM step
      (new ⟨⟩ : Sys NullCipher PlainCodec)).toOption.map serials = some [0, 0] := by decide +kernel
  cases h : [.check sampleRequest sampleInfo, reply, reply].foldlM step
    (new ⟨⟩ : Sys NullCipher PlainCodec) with
  | error e => rw [h] at hser; cases hser
  | ok s =>
    rw [h] at hser
    refine ⟨s, Run.of_foldlM h, fun hg => ?_⟩
    have := hg.once
    rw [show s.serials = [0, 0] from Option.some.inj hser] at this
    exact absurd this (by decide)

end Sys

end ChronyRs.Bugs.ServerCookies

import ChronyRs.Core.Ring
import ChronyRs.L3Nts.Client

/-!
# Cookie accounting of the NTS client

The pool of an association is the ring of `numCookies` cookies from slot
`cookieIndex` on. `PoolOk` says that the two counters are in range and what the
serial numbers of the stored cookies show: those in the pool and those taken for a
request are all different, so none is taken twice, and no store ever hit a slot of
the pool.

* `prepareForAuth_pool`, `generateRequestAuth_pool`, `checkResponseAuth_pool`: each
  operation keeps `PoolOk`, whatever the NTS-KE client and the network deliver.
-/
namespace ChronyRs.L3.Nts

open L1.Ext L2 L2.AuthEf

/-- The counters and slots of a pool with its ghost. -/
structure PoolOk (cookies : List NkeCookie) (num index : Int) (g : Ghost) : Prop where
  cookies_length : cookies.length = 8
  serials_length : g.serials.length = 8
  num_nonneg : 0 ≤ num
  num_le : num ≤ 8
  index_nonneg : 0 ≤ index
  index_lt : index < 8
  /-- Serials in the pool or taken from it are different, and were given out. -/
  once : (ring g.serials index.toNat num.toNat ++ g.placed).Nodup
  given : ∀ s ∈ ring g.serials index.toNat num.toNat ++ g.placed, ∃ k, k < g.next ∧ s = some k
  not_lost : g.lost = false

namespace PoolOk

variable {cookies : List NkeCookie} {num index : Int} {g : Ghost}

theorem clear (h : PoolOk cookies num index g) : PoolOk cookies 0 index g := by
  refine { h with num_nonneg := by omega, num_le := by omega, once := ?_, given := ?_ }
  · simpa using (List.nodup_append.1 h.once).2.1
  · intro s hs
    exact h.given s (List.mem_append_right _ (by simpa using hs))

/-- Storing a cookie with a new serial in the slot behind the pool. -/
theorem push (h : PoolOk cookies num index g) (hlt : num < 8) (cookie : NkeCookie) {lost : Bool}
    (hl : lost = false) :
    PoolOk (cookies.set ((index.toNat + num.toNat) % 8) cookie) (num + 1) index
      ⟨g.serials.set ((index.toNat + num.toNat) % 8) (some g.next), g.next + 1,
        g.placed, lost⟩ := by
  have hring := ring_push (i := index.toNat) h.serials_length (show num.toNat < 8 by omega)
    (some g.next)
  have h1 := h.num_nonneg
  refine ⟨by simp [h.cookies_length], by simp [h.serials_length], by omega, by omega,
    h.index_nonneg, h.index_lt, ?_, ?_, hl⟩
  · rw [show (num + 1).toNat = num.toNat + 1 by omega, hring]
    have hnew : some g.next ∉ ring g.serials index.toNat num.toNat ++ g.placed := by
      intro hm
      obtain ⟨k, hk, he⟩ := h.given _ hm
      cases he; omega
    have hperm : (ring g.serials index.toNat num.toNat ++ [some g.next] ++ g.placed).Perm
        (some g.next :: (ring g.serials index.toNat num.toNat ++ g.placed)) := by
      rw [List.append_assoc]; exact List.perm_middle
    exact hperm.nodup_iff.2 (List.nodup_cons.2 ⟨hnew, h.once⟩)
  · intro s hs
    rw [show (num + 1).toNat = num.toNat + 1 by omega, hring] at hs
    simp only [List.mem_append, List.mem_singleton] at hs
    rcases hs with (hs | rfl) | hs
    · obtain ⟨k, hk, e⟩ := h.given s (List.mem_append_left _ hs)
      exact ⟨k, Nat.lt_succ_of_lt hk, e⟩
    · exact ⟨g.next, Nat.lt_succ_self _, rfl⟩
    · obtain ⟨k, hk, e⟩ := h.given s (List.mem_append_right _ hs)
      exact ⟨k, Nat.lt_succ_of_lt hk, e⟩

theorem take (h : PoolOk cookies num index g) (hpos : 0 < num) :
    PoolOk cookies (num - 1) ((index + 1) % 8)
      { g with placed := g.placed ++ [g.serials.getD index.toNat none] } := by
  have h1 := h.num_le; have h2 := h.index_nonneg; have h3 := h.index_lt; have h4 := h.serials_length
  have hring := ring_pop h4 (show index.toNat < 8 by omega) (show (num - 1).toNat < 8 by omega) none
  rw [show (num - 1).toNat + 1 = num.toNat by omega] at hring
  have hidx : ((index + 1) % 8).toNat = (index.toNat + 1) % 8 := by omega
  have hperm : (ring g.serials ((index + 1) % 8).toNat (num - 1).toNat ++
      (g.placed ++ [g.serials.getD index.toNat none])).Perm
      (ring g.serials index.toNat num.toNat ++ g.placed) := by
    rw [hring, hidx, ← List.append_assoc, List.cons_append]
    exact List.perm_append_singleton _ _
  refine ⟨h.cookies_length, h.serials_length, by omega, by omega, by omega, by omega, ?_, ?_,
    h.not_lost⟩
  · exact hperm.nodup_iff.2 h.once
  · intro s hs
    exact h.given s (hperm.mem_iff.1 hs)

/-- An empty pool may restart at slot 0. -/
theorem restart (h : PoolOk cookies 0 index g) : PoolOk cookies 0 0 g := by
  refine { h with index_nonneg := Int.le_refl 0, index_lt := by decide, once := ?_, given := ?_ }
  · simpa using h.once
  · simpa using h.given

/-- The slot behind a pool that is not full is not one of its slots. -/
theorem end_not_counted (index : Int) (hlt : num < 8) :
    ((List.range num.toNat).any fun k =>
      (index.toNat + k) % 8 == (index.toNat + num.toNat) % 8) = false := by
  rw [List.any_eq_false]
  intro k hk he
  have hk' := List.mem_range.1 hk
  have := slot_inj (m := 8) (by omega) (by omega) (beq_iff_eq.1 he)
  omega

end PoolOk

namespace NtsClient

variable {F C H : Type} [F64 F] [AesSiv C] [NtsHost H F]

def pool (c : NtsClient F C H) : List NkeCookie :=
  ring c.cookies c.cookieIndex.toNat c.numCookies.toNat

def PoolInv (c : NtsClient F C H) : Prop := PoolOk c.cookies c.numCookies c.cookieIndex c.ghost

omit [AesSiv C] [NtsHost H F] in
theorem new_pool (addr : NtpAddress) (name : String) (cert : UInt32) (port : UInt16) (host : H)
    (refresh : F) : (new addr name cert port host refresh : NtsClient F C H).PoolInv :=
  ⟨rfl, rfl, by simp [new], by simp [new], by simp [new], by simp [new], by simp [new],
    by simp [new], rfl⟩

/-! ## Storing and taking -/

section
omit [F64 F] [AesSiv C] [NtsHost H F]

theorem storeCookie_end {c : NtsClient F C H} (h : c.PoolInv) (hlt : c.numCookies < 8)
    (cookie : NkeCookie) :
    ∃ cookies g, c.storeCookie (asUsize ((c.cookieIndex + c.numCookies) % 8)) cookie =
        .ok { c with cookies, ghost := g } ∧ PoolOk cookies (c.numCookies + 1) c.cookieIndex g ∧
      ring cookies c.cookieIndex.toNat (c.numCookies.toNat + 1) = c.pool ++ [cookie] := by
  have h1 := h.num_nonneg; have h2 := h.index_nonneg
  have hslot : asUsize ((c.cookieIndex + c.numCookies) % 8) =
      (c.cookieIndex.toNat + c.numCookies.toNat) % 8 := by
    rw [asUsize_of_nonneg (by omega) (by omega)]; omega
  have hlost : (c.ghost.lost || (List.range c.numCookies.toNat).any fun k =>
      (c.cookieIndex.toNat + k) % 8 == (c.cookieIndex.toNat + c.numCookies.toNat) % 8) = false := by
    rw [PoolOk.end_not_counted _ hlt, h.not_lost]; rfl
  refine ⟨_, _, ?_, h.push hlt cookie hlost, ring_push h.cookies_length (by omega) cookie⟩
  unfold storeCookie
  rw [hslot, if_pos (by rw [h.cookies_length]; omega)]

/-- Storing the cookies of an NTS-KE exchange, while the pool is empty. -/
theorem storeFrom_pool : ∀ (cs : List NkeCookie) {c : NtsClient F C H} {k : Nat}, c.numCookies = 0 →
    PoolOk c.cookies k 0 c.ghost → k + cs.length ≤ 8 →
    ∃ cookies g, c.storeFrom k cs = .ok { c with cookies, ghost := g } ∧
      PoolOk cookies (k + cs.length : Nat) 0 g ∧
      ring cookies 0 (k + cs.length) = ring c.cookies 0 k ++ cs
  | [], c, k, _, h, _ => ⟨c.cookies, c.ghost, rfl, by simpa using h, by simp⟩
  | cookie :: cs, c, k, hnum, h, hk => by
    simp only [List.length_cons] at hk
    have hlen := h.cookies_length
    have hstore : c.storeCookie k cookie = .ok { c with
        cookies := c.cookies.set k cookie
        ghost := ⟨c.ghost.serials.set k (some c.ghost.next), c.ghost.next + 1, c.ghost.placed,
          false⟩ } := by
      unfold storeCookie
      rw [if_pos (by omega), hnum, h.not_lost]
      rfl
    have hpush := h.push (by omega) cookie (rfl : false = false)
    have hring := ring_push (i := 0) hlen (show k < 8 by omega) cookie
    simp only [Int.toNat_zero, Int.toNat_natCast, Nat.zero_add,
      Nat.mod_eq_of_lt (show k < 8 by omega)]
      at hpush hring
    obtain ⟨cookies, g, e1, e2, e3⟩ := storeFrom_pool cs (k := k + 1)
      (c := { c with
        cookies := c.cookies.set k cookie
        ghost := ⟨c.ghost.serials.set k (some c.ghost.next), c.ghost.next + 1,
          c.ghost.placed, false⟩ })
      hnum (by simpa using hpush) (by omega)
    refine ⟨cookies, g, ?_, ?_, ?_⟩
    · unfold storeFrom
      rw [hstore, ok_bind, e1]
    · rw [List.length_cons, show k + (cs.length + 1) = k + 1 + cs.length by omega]; exact e2
    · rw [List.length_cons, show k + (cs.length + 1) = k + 1 + cs.length by omega, e3, hring,
        List.append_assoc, List.singleton_append]

theorem takeCookie_pool {c : NtsClient F C H} (h : c.PoolInv) (hpos : 0 < c.numCookies) :
    ∃ g cookie, c.takeCookie = .ok ({ c with
        numCookies := c.numCookies - 1, cookieIndex := (c.cookieIndex + 1) % 8
        ghost := g }, cookie) ∧
      PoolOk c.cookies (c.numCookies - 1) ((c.cookieIndex + 1) % 8) g ∧
      c.pool = cookie :: ring c.cookies ((c.cookieIndex + 1) % 8).toNat
        (c.numCookies - 1).toNat := by
  have h1 := h.index_nonneg; have h2 := h.index_lt; have h3 := h.num_le; have h4 := h.cookies_length
  have hidx : asUsize c.cookieIndex = c.cookieIndex.toNat := asUsize_of_nonneg h1 (by omega)
  have hlt : c.cookieIndex.toNat < c.cookies.length := by omega
  have hget : c.cookies.getD c.cookieIndex.toNat ⟨[]⟩ = c.cookies[c.cookieIndex.toNat] := by
    rw [List.getD_eq_getElem?_getD, List.getElem?_eq_getElem hlt]; rfl
  refine ⟨_, c.cookies.getD c.cookieIndex.toNat ⟨[]⟩, ?_, h.take hpos, ?_⟩
  · unfold takeCookie
    rw [hidx, index_of_lt hlt, ok_bind, hget]
    rfl
  · have := ring_pop h4 (show c.cookieIndex.toNat < 8 by omega)
      (show (c.numCookies - 1).toNat < 8 by omega) ⟨[]⟩
    rw [show (c.numCookies - 1).toNat + 1 = c.numCookies.toNat by omega] at this
    rw [pool, this, show ((c.cookieIndex + 1) % 8).toNat = (c.cookieIndex.toNat + 1) % 8 by omega]

end

/-! ## Preparing a request -/

/-- The two flags that say whether a request may be made or a response is awaited. -/
structure SameFlags (c c' : NtsClient F C H) : Prop where
  ok_eq : c'.okResponse = c.okResponse
  ready_eq : c'.authReady = c.authReady

omit [F64 F] [AesSiv C] [NtsHost H F] in
theorem SameFlags.trans {c1 c2 c3 : NtsClient F C H} (h : SameFlags c1 c2) (h' : SameFlags c2 c3) :
    SameFlags c1 c3 :=
  ⟨h'.1.trans h.1, h'.2.trans h.2⟩

variable {c c' : NtsClient F C H} {ok : Bool}

omit [F64 F] [AesSiv C] in
/-- Adopting an exchange replaces an empty pool by the delivered cookies. -/
theorem adoptData_pool {now : F} {data : NkeData} (hi : c.PoolInv) (hnum : c.numCookies = 0)
    (h : c.adoptData now data = .ok (c', ok)) :
    c'.PoolInv ∧ SameFlags c c' := by
  obtain ⟨-, host, addr, -, ⟨-, rfl⟩ | ⟨-, c1, hstore, rfl⟩⟩ := adoptData_cases h
  · exact ⟨PoolOk.clear hi, rfl, rfl⟩
  · have hempty : PoolOk c.cookies (0 : Nat) 0 c.ghost := PoolOk.restart (PoolOk.clear hi)
    obtain ⟨cookies, g, hstore', hok, -⟩ := storeFrom_pool (data.cookies.take 8) (k := 0)
      (c := { c with
      siv := none, contextId := c.contextId + 1, host, ntpAddress := addr
      context := data.context }) hnum hempty
      (by simp)
    rw [Nat.zero_add] at hok
    cases hstore'.symm.trans hstore
    exact ⟨hok, rfl, rfl⟩

omit [AesSiv C] in
theorem Fetched.pool (h : Fetched c c' ok) (hi : c.PoolInv) (hnum : c.numCookies = 0) :
    c'.PoolInv ∧ SameFlags c c' := by
  cases h with
  | early => exact ⟨hi, rfl, rfl⟩
  | active => exact ⟨hi, rfl, rfl⟩
  | failed => exact ⟨hi, rfl, rfl⟩
  | adopted _ _ _ h =>
    obtain ⟨h1, h2⟩ := adoptData_pool (by exact hi) (by exact hnum) h
    exact ⟨h1, h2.1, h2.2⟩

omit [AesSiv C] in
/-- The check for usable cookies keeps the pool or drops it. -/
theorem checkCookies_pool (hi : c.PoolInv) (h : c.checkCookies = (c', ok)) :
    c'.PoolInv ∧ SameFlags c c' ∧ (ok = false → c'.numCookies = 0) := by
  unfold checkCookies at h
  dsimp only at h
  have hnn := hi.num_nonneg
  split at h
  · cases h
    exact ⟨PoolOk.clear hi, ⟨rfl, rfl⟩, fun _ => rfl⟩
  · cases h
    exact ⟨hi, ⟨rfl, rfl⟩,
      fun hok => by simpa using Int.le_antisymm (not_lt.1 (of_decide_eq_false hok)) hnn⟩

/-- A request is made only with the session's key set. -/
def Keyed (c : NtsClient F C H) : Prop :=
  c.authReady = true → ∃ siv, c.siv = some siv ∧ siv.ctx = some (AesSiv.setKey c.context.c2s)

omit [F64 F] [NtsHost H F] in
theorem keyed_of_not_ready (h : c.authReady = false) : c.Keyed := by
  intro hr
  rw [h] at hr
  cases hr

omit [F64 F] [NtsHost H F] in
theorem keyForRequest_pool (hi : c.PoolInv) (hready : c.authReady = false)
    (h : c.keyForRequest = .ok (c', ok)) :
    c'.PoolInv ∧ c'.okResponse = c.okResponse ∧ c'.Keyed := by
  obtain ⟨-, rfl, -⟩ | ⟨siv0, siv, -, hkey, rfl⟩ := keyForRequest_cases h
  · exact ⟨hi, rfl, keyed_of_not_ready hready⟩
  · refine ⟨hi, rfl, fun hr => ⟨siv, rfl, ?_⟩⟩
    cases ok with
    | false => rw [show c.authReady = true from hr] at hready; cases hready
    | true => exact (SivInstance.setKey_true hkey).2

/-- **`prepare_for_auth` keeps the pool invariant**, and whether a response is awaited. -/
theorem prepareForAuth_pool (hi : c.PoolInv) (h : c.prepareForAuth = .ok (c', ok)) :
    c'.PoolInv ∧ c'.okResponse = c.okResponse ∧ c'.Keyed := by
  have hdraw : c.drawn.PoolInv := hi
  cases prepareForAuth_prepared h with
  | usable hcheck hkey =>
    obtain ⟨h1, h2, -⟩ := checkCookies_pool hdraw hcheck
    obtain ⟨e1, e2, e3⟩ := keyForRequest_pool (by exact h1) (by exact h2.ready_eq) hkey
    exact ⟨e1, e2.trans h2.ok_eq, e3⟩
  | barren hcheck hget =>
    -- the pool is empty here, which is what lets the exchange start at slot 0
    obtain ⟨h1, h2, h3⟩ := checkCookies_pool hdraw hcheck
    obtain ⟨i2, f2⟩ := hget.pool h1 (h3 rfl)
    exact ⟨i2, (h2.trans f2).ok_eq, keyed_of_not_ready (h2.trans f2).ready_eq⟩
  | fetched hcheck hget hkey =>
    obtain ⟨h1, h2, h3⟩ := checkCookies_pool hdraw hcheck
    obtain ⟨i2, f2⟩ := hget.pool h1 (h3 rfl)
    obtain ⟨e1, e2, e3⟩ := keyForRequest_pool (by exact i2) (by exact (h2.trans f2).ready_eq) hkey
    exact ⟨e1, e2.trans (h2.trans f2).ok_eq, e3⟩

/-! ## Requests and responses -/

omit [F64 F] [NtsHost H F] in
/-- **`generate_request_auth` keeps the pool invariant.** A response is awaited exactly
after a request it made, and it makes one only after `prepare_for_auth`. -/
theorem generateRequestAuth_pool {packet packet' : NtpPacketBuf} {info info' : NtpPacketInfo}
    (hi : c.PoolInv) (h : c.generateRequestAuth packet info = .ok (c', packet', info', ok)) :
    c'.PoolInv ∧ c'.okResponse = (c.okResponse && !ok) ∧ c'.authReady = false := by
  unfold generateRequestAuth at h
  split at h
  · rename_i hr
    cases h; exact ⟨hi, by simp, by simpa using hr⟩
  dsimp only at h
  split at h
  · cases h; exact ⟨hi, by simp, rfl⟩
  split at h
  · cases h; exact ⟨hi, by simp, rfl⟩
  rename_i hnum
  obtain ⟨g, cookie, ht, hpool, -⟩ :=
    takeCookie_pool (c := { c with authReady := false }) hi
      (by simp only [not_or, not_le] at hnum; exact hnum.1)
  rw [ht, ok_bind] at h
  obtain ⟨req, -, h⟩ := bind_eq_ok.1 h
  obtain ⟨⟨packet1, info1, added⟩, -, h⟩ := bind_eq_ok.1 h
  cases added with
  | false => cases h; exact ⟨hpool, by simp, rfl⟩
  | true =>
    obtain ⟨⟨packet2, info2, siv, sealed⟩, -, h⟩ := bind_eq_ok.1 h
    cases sealed with
    | false => cases h; exact ⟨hpool, by simp, rfl⟩
    | true => cases h; exact ⟨hpool, by simp, rfl⟩

omit [F64 F] [AesSiv C] [NtsHost H F] in
theorem storeCookie_pool {body : Bytes} (hi : c.PoolInv) (hlt : c.numCookies < 8)
    (h : c.storeCookie (asUsize ((c.cookieIndex + c.numCookies) % 8)) ⟨body⟩ = .ok c') :
    ({ c' with numCookies := c'.numCookies + 1 } : NtsClient F C H).PoolInv ∧ SameFlags c c' := by
  obtain ⟨cookies, g, hstore, hpool, -⟩ := storeCookie_end hi hlt ⟨body⟩
  cases hstore.symm.trans h
  exact ⟨hpool, rfl, rfl⟩

omit [F64 F] [AesSiv C] [NtsHost H F] in
theorem extractCookies_pool {plaintext : Bytes} {length : Int} (hi : c.PoolInv)
    (h : c.extractCookies plaintext length = .ok (c', ok)) :
    c'.PoolInv ∧ SameFlags c c' := by
  refine extractCookies_induct (P := fun c' => c'.PoolInv ∧ SameFlags c c') h ⟨hi, rfl, rfl⟩
    fun c1 body c2 h1 hlt hstore => ?_
  obtain ⟨h2, h3⟩ := storeCookie_pool h1.1 hlt hstore
  exact ⟨h2, (h1.2.trans h3).1, (h1.2.trans h3).2⟩

omit [NtsHost H F] in
/-- **`check_response_auth` keeps the pool invariant.** It accepts only while a response
is awaited, and then none is awaited; it touches the key only when no request is
prepared. -/
theorem checkResponseAuth_pool {packet : NtpPacketBuf} {info : NtpPacketInfo} (hi : c.PoolInv)
    (h : c.checkResponseAuth packet info = .ok (c', ok)) :
    c'.PoolInv ∧ (ok = true → c.okResponse = false) ∧ c'.okResponse = (c.okResponse || ok) ∧
      (c' = c ∨ c'.authReady = false) := by
  cases checkResponseAuth_answered h with
  | ignored => exact ⟨hi, by simp, by simp, .inl rfl⟩
  | rejected hawait => exact ⟨hi, by simp, by simp, .inr hawait.2⟩
  | nak hawait => exact ⟨hi, by simp, by simp, .inr hawait.2⟩
  | @barren hawait _ s _ _ _ hextract =>
    obtain ⟨h1, h2⟩ := extractCookies_pool (c := { c with siv := some s.siv }) hi hextract
    exact ⟨h1, by simp, by simp [h2.ok_eq], .inr (h2.ready_eq.trans hawait.2)⟩
  | @accepted hawait _ _ s _ _ _ _ _ hextract =>
    obtain ⟨h1, h2⟩ := extractCookies_pool (c := { c with siv := some s.siv }) hi hextract
    exact ⟨h1, fun _ => hawait.1, by simp, .inr (h2.ready_eq.trans hawait.2)⟩

end NtsClient

end ChronyRs.L3.Nts

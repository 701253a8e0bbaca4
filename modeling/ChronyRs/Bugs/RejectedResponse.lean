import ChronyRs.L5Daemon.Manager

/-!
# Rejected responses leave their mark

`receive_all` sets `got_response` and `stratum` before it checks the originate timestamp,
and saves the timestamps of the packet before `handle_response` looks at it. A packet that
is then rejected has already changed the entry: a spoofed packet makes a dead source
reachable at the next poll.

* `rejected_unchanged_iff`: a rejected datagram leaves the entry as it was iff the entry
  already had what the datagram writes.
* `spoofed_reachability`: one spoofed packet on a fresh source.
-/
namespace ChronyRs.Bugs.RejectedResponse

open L1.Ext L1.Parse L2 L3.Nts L4 L5

section
variable {F C H : Type} [F64 F] [AesSiv C]

def Unauthenticated (s : SourceInstance F C H) (packet : Bytes) : Prop :=
  ∃ s' v, s.authenticate packet = .ok (s', v) ∧
    ∀ decoded action ok, v = some (decoded, action, ok) → ok = false

/-- The datagram is one of source `i`, and is rejected. -/
def Rejected (m : NtpSourceManager F C H) (access : Option (IpAddr → Bool)) (d : Datagram) (i : Nat)
    (e : NtpSourceEntry F C H) : Prop :=
  route m access d = .badOrigin i ∨ (route m access d = .accept i ∧ Unauthenticated e.inst d.bytes)

/-- What a rejected response should not change. -/
structure Unchanged (e e' : NtpSourceEntry F C H) : Prop where
  got : e'.gotResponse = e.gotResponse
  stratum : e'.stratum = e.stratum
  origin : e'.savedOriginTs = e.savedOriginTs
  rx : e'.savedRxTs = e.savedRxTs
  tx : e'.savedTxTs = e.savedTxTs

/-- The entry has what the datagram writes: a response was seen since the last poll, with
the stratum of the datagram, and if its originate timestamp passes the check, with its
timestamps. -/
structure Already (e : NtpSourceEntry F C H) (d : Datagram) : Prop where
  got : e.gotResponse = true
  stratum : e.stratum = (d.bytes.getD 1 0).toNat
  saved : originOk e d.origin = true → e.savedOriginTs = some d.origin ∧
    e.savedRxTs = some (fromBe (d.field 32 40)) ∧ e.savedTxTs = some (fromBe (d.field 40 48))

omit [F64 F] [AesSiv C] in
theorem noteResponse_unchanged_iff (e : NtpSourceEntry F C H) (d : Datagram) :
    Unchanged e (noteResponse d e) ↔ e.gotResponse = true ∧ e.stratum =
      (d.bytes.getD 1 0).toNat := by
  constructor
  · exact fun h => ⟨h.got.symm, h.stratum.symm⟩
  · exact fun h => ⟨h.1.symm, h.2.symm, rfl, rfl, rfl⟩

/-- **Rejected responses.** In every state and for every datagram that is rejected, by the
origin check or by parsing or authentication, the entry is unchanged iff it already had
what the datagram writes. -/
theorem rejected_unchanged_iff (measure : SampleArgs F → ResponseSample F)
    {m m' : NtpSourceManager F C H} {access : Option (IpAddr → Bool)} {nowSec nowNsec : Int}
    {d : Datagram} {out : Received F} {i : Nat} {e e' : NtpSourceEntry F C H}
    (h : receiveOne measure m access nowSec nowNsec d = .ok (m', out)) (he : m.sources[i]? = some e)
    (hrej : Rejected m access d i e) (he' : m'.sources[i]? = some e') :
    Unchanged e e' ↔ Already e d := by
  have hlt := (List.getElem?_eq_some_iff.1 he).1
  unfold receiveOne at h
  rcases hrej with hroute | ⟨hroute, -⟩
  · obtain ⟨hh, hi, f, hf, hm⟩ := route_response_inv (.inr hroute)
    rw [he] at hf
    cases hf
    have hbad : originOk e d.origin = false := by
      rw [route_response hh hi he hm] at hroute
      cases hok : originOk e d.origin with
      | false => rfl
      | true => rw [hok] at hroute; cases hroute
    rw [hroute] at h
    cases h
    obtain rfl : noteResponse d e = e' := by
      simpa [List.getElem?_modify, he] using he'
    rw [noteResponse_unchanged_iff]
    exact ⟨fun ⟨h1, h2⟩ => ⟨h1, h2, by simp [hbad]⟩, fun h => ⟨h.got, h.stratum⟩⟩
  · obtain ⟨hh, hi, f, hf, hm⟩ := route_response_inv (.inl hroute)
    rw [he] at hf
    cases hf
    have hgood : originOk e d.origin = true := by
      rw [route_response hh hi he hm] at hroute
      cases hok : originOk e d.origin with
      | true => rfl
      | false => rw [hok] at hroute; cases hroute
    rw [hroute] at h
    obtain ⟨f, hf, h⟩ := bind_eq_ok.1 h
    rw [index_eq_ok, he] at hf
    cases hf
    obtain ⟨⟨inst, sample⟩, -, h⟩ := bind_eq_ok.1 h
    cases h
    rw [List.getElem?_set_self hlt] at he'
    cases he'
    constructor
    · exact fun h => ⟨h.got.symm, h.stratum.symm, fun _ => ⟨h.origin.symm, h.rx.symm, h.tx.symm⟩⟩
    · intro h
      obtain ⟨h1, h2, h3⟩ := h.saved hgood
      exact ⟨h.got.symm, h.stratum.symm, h1.symm, h2.symm, h3.symm⟩

end

/-! ## Concrete datagrams -/

def server : SocketAddr := ⟨.v4 0xc0000201, 123, 0, 0⟩

def entry (gotResponse : Bool) : NtpSourceEntry ℚ NullCipher StaticHost :=
  { addr := server, inst := SourceInstance.new "server" 3 0, mode := 3, maxDelay := 1
    offsetCorrection := 0, reachability := 0, reachabilitySize := 0, stratum := 1, gotResponse
    savedOriginTs := none, savedRxTs := none, savedTxTs := none }

def noSample : SampleArgs ℚ → ResponseSample ℚ := fun _ => ⟨0, 0, 0, 0, 0, ⟨0, 0⟩⟩

def spoofed : Datagram :=
  ⟨server, [0x24, 1] ++ List.replicate 22 0 ++ be32 5 ++ List.replicate 20 0, by simp⟩

theorem rejected_unchanged_iff_seen : ∃ m' out e',
    receiveOne noSample ⟨[entry true]⟩ none 1 0 spoofed = .ok (m', out) ∧ m'.sources[0]? = some e' ∧
      Unchanged (entry true) e' := by
  obtain ⟨⟨m', out⟩, h, hsome⟩ := exists_of_check
    (x := receiveOne noSample ⟨[entry true]⟩ none 1 0 spoofed)
      (p := fun x => x.1.sources[0]?.isSome)
    (by decide +kernel)
  obtain ⟨e', he'⟩ := Option.isSome_iff_exists.1 hsome
  refine ⟨m', out, e', h, he', (rejected_unchanged_iff noSample h rfl (.inl ?_) he').2 ?_⟩
  · decide +kernel
  · exact ⟨rfl, rfl, fun hok => absurd hok (by decide +kernel)⟩

/-- The spoofed packet fails the origin check of a source that never sent a request, and
the next poll counts the source as reachable. -/
theorem spoofed_reachability :
    route (⟨[entry false]⟩ : NtpSourceManager ℚ NullCipher StaticHost) none spoofed = .badOrigin 0 ∧
    ∃ m' out e', receiveOne noSample ⟨[entry false]⟩ none 1 0 spoofed = .ok (m', out) ∧
      m'.sources[0]? = some e' ∧ ¬ Unchanged (entry false) e' ∧
      (updateReachability (entry false)).reachability = 0 ∧
        (updateReachability e').reachability = 1 := by
  refine ⟨by decide +kernel, ?_⟩
  obtain ⟨⟨m', out⟩, h, hcheck⟩ := exists_of_check
    (x := receiveOne noSample ⟨[entry false]⟩ none 1 0 spoofed)
    (p := fun x => x.1.sources[0]?.any fun e =>
      e.gotResponse && (updateReachability e).reachability == 1) (by decide +kernel)
  cases he' : m'.sources[0]? with
  | none => rw [he'] at hcheck; cases hcheck
  | some e' =>
    rw [he', Option.any_some, Bool.and_eq_true, beq_iff_eq] at hcheck
    refine ⟨m', out, e', h, he', fun hu => ?_, by decide, hcheck.2⟩
    have := hu.got
    rw [hcheck.1] at this
    cases this

end ChronyRs.Bugs.RejectedResponse

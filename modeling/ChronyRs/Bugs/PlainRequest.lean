import ChronyRs.L5Daemon.Manager

/-!
# Requests that are sent without their authentication

`poll_source` drops the results of `prepare_request_auth` and `generate_request_auth`
and sends the packet as they left it. When they fail, that is the bare header, or for NTS
the header with the fields that were appended before the failure.

* `sent_complete_iff`: a datagram on the wire is completely authenticated iff the
  association was ready for a request before the poll (`NauInstance.Ready`).
* `plain_request_sent`: a source with an unknown key, and an NTS source without a session,
  send the bare header.
-/
namespace ChronyRs.Bugs.PlainRequest

open L1.Ext L2 L3.Nts L4 L5

/-- **What is sent.** Both steps succeeded, and the datagram on the wire carries a complete
MAC (of a symmetric association) or a complete NTS sequence (of an NTS one), iff the
association was ready. -/
theorem sent_complete_iff {F C H : Type} [F64 F] [AesSiv C] [NtsHost H F]
    {m m' : NtpSourceManager F C H} {i : Nat} {nowSec nowNsec : Int} {sendOk : Bool}
    {e : NtpSourceEntry F C H} {r : Request} (he : m.sources[i]? = some e)
    (h : pollSource m i nowSec nowNsec sendOk = .ok (m', some r)) :
    (r.prepared = true ∧ r.generated = true) ∧ e.inst.auth.Complete e.inst.keys r.datagram ↔
      e.inst.auth.Ready e.inst.keys e.mode := by
  obtain ⟨e1, e2, r1, he1, hb, ⟨-, hr, -⟩ | ⟨-, hr, -⟩⟩ := pollSource_cases h
  · cases hr
    rw [he] at he1
    cases he1
    obtain ⟨auth, packet, auth', keys, packet', info, hprep, -, hgen, hdata⟩ := hb.steps
    have hiff := NauInstance.requestReady_iff rfl rfl hprep hgen
    rw [hdata]
    constructor
    · exact fun hp => hiff.1 hp.1
    · intro hready
      have hp := hiff.2 hready
      refine ⟨hp, ?_⟩
      rw [hp.2] at hgen
      exact NauInstance.request_complete rfl rfl hprep hgen
  · cases hr

/-! ## Concrete sources -/

def single (auth : NauInstance ℚ NullCipher StaticHost) (keys : List Key) :
    NtpSourceManager ℚ NullCipher StaticHost :=
  ⟨[{ addr := ⟨.v4 0xc0000201, 123, 0, 0⟩
      inst := { SourceInstance.newWithAuth "server" 3 auth with keys := KeyStore.ofKeys {} keys }
      mode := 3, maxDelay := 1, offsetCorrection := 0, reachability := 0, reachabilitySize := 0
      stratum := 16, gotResponse := false, savedOriginTs := none, savedRxTs := none
      savedTxTs := none }]⟩

def md5Key : Key := ⟨1, .ntpMac [1, 2, 3] 0⟩

theorem sent_complete_iff_md5 : ∃ m' r, pollSource (single (.symmetric 1) [md5Key]) 0 1 0 true =
    .ok (m', some r) ∧ r.generated = true := by
  obtain ⟨⟨m', o⟩, h, hsome⟩ := exists_of_check
    (x := pollSource (single (.symmetric 1) [md5Key]) 0 1 0 true) (p := fun x => x.2.isSome)
    (by decide +kernel)
  obtain ⟨r, rfl⟩ := Option.isSome_iff_exists.1 hsome
  have hready : NauInstance.Ready (KeyStore.ofKeys {} [md5Key]) 3
      (.symmetric 1 : NauInstance ℚ NullCipher StaticHost) :=
        ⟨0, md5Key, [1, 2, 3], 0, by decide, rfl, rfl⟩
  exact ⟨m', r, h, ((sent_complete_iff rfl h).2 hready).1.2⟩

/-- The poll puts a bare header on the wire. -/
def sendsPlain (auth : NauInstance ℚ NullCipher StaticHost) : Prop :=
  ∃ m' r, pollSource (single auth []) 0 1 0 true = .ok (m', some r) ∧
    r.generated = false ∧ r.datagram.length = 48

theorem sendsPlain_of_check {auth : NauInstance ℚ NullCipher StaticHost}
    (h : ((pollSource (single auth []) 0 1 0 true).toOption.any fun x =>
      x.2.any fun r => !r.generated && r.datagram.length == 48) = true) : sendsPlain auth := by
  obtain ⟨⟨m', o⟩, hp, hr⟩ := exists_of_check h
  cases o with
  | none => cases hr
  | some r =>
    simp only [Option.any_some, Bool.and_eq_true, Bool.not_eq_true', beq_iff_eq] at hr
    exact ⟨m', r, hp, hr.1, hr.2⟩

/-- An unknown key, and an NTS source whose exchange delivers nothing. -/
theorem plain_request_sent : sendsPlain (.symmetric 1) ∧
    sendsPlain (.nts (NtsClient.new ⟨none, 4460⟩ "server" 0 123 ⟨none⟩ 0)) :=
  ⟨sendsPlain_of_check (by decide +kernel), sendsPlain_of_check (by decide +kernel)⟩

end ChronyRs.Bugs.PlainRequest

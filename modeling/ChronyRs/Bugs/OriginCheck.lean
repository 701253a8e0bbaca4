import ChronyRs.L5Daemon.Manager

/-!
# What the origin check of the receive loop lets through

`receive_all` compares the originate timestamp of a response with the transmit timestamp
of the last request to its source. The comparison is skipped for a zero timestamp and,
once a response of the source was accepted, for every other one ("interleaved"); nothing
records that a request was answered; and a broadcast packet yields a sample before any
check.

`Sys` is a manager with a log of what happened at its socket: the transmit timestamp of
each request on the wire, and the originate timestamp of each response that was accepted.
From the log alone follows which request of a source is outstanding.

* `Sys.Tracks`: the state that the check reads is a function of the log.
* `protected_iff`: in every reachable state, the next datagram is accepted only as the
  answer to the outstanding request iff it is not one of the kinds that slip through.
* `replay_accepted`: a response accepted twice, a zero and a stale timestamp, and a
  broadcast sample.
-/
namespace ChronyRs.Bugs.OriginCheck

open L1.Ext L2 L3.Nts L4 L5

/-! ## The log -/

inductive Obs where
  /-- A request to the source went out with this transmit timestamp. -/
  | request (source ts : Nat)
  /-- A response with this originate timestamp was handed to the source. -/
  | accepted (source origin : Nat)
  deriving DecidableEq, Repr

def latestStep (i : Nat) (o : Option Nat) : Obs → Option Nat
  | .request j ts => if j = i then some ts else o
  | .accepted _ _ => o

/-- The transmit timestamp of the latest request to source `i`. -/
def latest (i : Nat) (log : List Obs) : Option Nat := log.foldl (latestStep i) none

def outstandingStep (i : Nat) (o : Option Nat) : Obs → Option Nat
  | .request j ts => if j = i then some ts else o
  | .accepted j origin => if j = i ∧ o = some origin then none else o

/-- The transmit timestamp of the latest request to source `i`, unless it was answered. -/
def outstanding (i : Nat) (log : List Obs) : Option Nat := log.foldl (outstandingStep i) none

/-- Some response was accepted for source `i`. -/
def answered (i : Nat) (log : List Obs) : Bool :=
  log.any fun
    | .accepted j _ => j = i
    | .request _ _ => false

theorem latest_snoc (i : Nat) (log : List Obs) (o : Obs) :
    latest i (log ++ [o]) = latestStep i (latest i log) o := by
  rw [latest, List.foldl_append]
  rfl

theorem answered_snoc (i : Nat) (log : List Obs) (o : Obs) :
    answered i (log ++ [o]) = (answered i log || answered i [o]) := by
  rw [answered, List.any_append]
  rfl

/-! ## The system -/

structure Sys (F C H : Type) where
  mgr : NtpSourceManager F C H
  log : List Obs

/-- A poll of a source, or a datagram in some turn of the receive loop. -/
inductive Event where
  | poll (source : Nat) (nowSec nowNsec : Int) (sendOk : Bool)
  | recv (access : Option (IpAddr → Bool)) (nowSec nowNsec : Int) (d : Datagram)

def transmitTs (datagram : Bytes) : Nat := fromBe ((datagram.take 48).drop 40)

namespace Sys

variable {F C H : Type} [F64 F] [AesSiv C] [NtsHost H F] (measure : SampleArgs F → ResponseSample F)

def start (ntsRefresh : F) (config : List (SourceConfig F H)) : Sys F C H :=
  ⟨NtpSourceManager.new ntsRefresh config, []⟩

def poll (s : Sys F C H) (i : Nat) (nowSec nowNsec : Int) (sendOk : Bool) : Rust (Sys F C H) := do
  let (mgr, sent) ← pollSource s.mgr i nowSec nowNsec sendOk
  return ⟨mgr, s.log ++ sent.toList.map fun r => .request i (transmitTs r.datagram)⟩

def noted (d : Datagram) : Route → List Obs
  | .accept i => [.accepted i d.origin]
  | _ => []

def recv (s : Sys F C H) (access : Option (IpAddr → Bool)) (nowSec nowNsec : Int) (d : Datagram) :
    Rust (Sys F C H) := do
  let (mgr, _) ← receiveOne measure s.mgr access nowSec nowNsec d
  return ⟨mgr, s.log ++ noted d (route s.mgr access d)⟩

def step (s : Sys F C H) : Event → Rust (Sys F C H)
  | .poll i nowSec nowNsec sendOk => s.poll i nowSec nowNsec sendOk
  | .recv access nowSec nowNsec d => s.recv measure access nowSec nowNsec d

/-! ## The state follows the log -/

/-- The timestamp that `receive_all` compares with. -/
def savedT1 (e : NtpSourceEntry F C H) : Option Nat :=
  e.inst.savedT1.map fun ts => ntp64 (timespecToNtp64 F ts.tvSec ts.tvNsec none)

structure Tracks (log : List Obs) (i : Nat) (e : NtpSourceEntry F C H) : Prop where
  t1 : savedT1 e = latest i log
  rx : e.savedRxTs.isSome = answered i log

def Inv (s : Sys F C H) : Prop := ∀ i e, s.mgr.sources[i]? = some e → Tracks s.log i e

variable {s : Sys F C H} {i : Nat}

omit [AesSiv C] [NtsHost H F] in
/-- One entry and one line of the log change together. -/
theorem Inv.update (hi : s.Inv) {e' : NtpSourceEntry F C H} {o : Obs}
    (hlast : ∀ j, j ≠ i → ∀ x, latestStep j x o = x) (hans : ∀ j, j ≠ i → answered j [o] = false)
    (he : Tracks (s.log ++ [o]) i e') : Inv ⟨⟨s.mgr.sources.set i e'⟩, s.log ++ [o]⟩ := by
  intro j f hf
  dsimp only at hf ⊢
  by_cases hj : j = i
  · subst hj
    rw [List.getElem?_set_self'] at hf
    cases hs : s.mgr.sources[j]? with
    | none => rw [hs] at hf; cases hf
    | some x => rw [hs] at hf; cases hf; exact he
  · rw [List.getElem?_set_ne (Ne.symm hj)] at hf
    obtain ⟨h1, h2⟩ := hi j f hf
    refine ⟨?_, ?_⟩
    · rw [latest_snoc, hlast j hj]; exact h1
    · rw [answered_snoc, hans j hj, Bool.or_false]; exact h2

omit [AesSiv C] [NtsHost H F] in
/-- An entry changes, but nothing that the check reads. -/
theorem Inv.keep (hi : s.Inv) {e e' : NtpSourceEntry F C H} (he : s.mgr.sources[i]? = some e)
    (h1 : savedT1 e' = savedT1 e) (h2 : e'.savedRxTs = e.savedRxTs) :
      Inv ⟨⟨s.mgr.sources.set i e'⟩, s.log⟩ := by
  intro j f hf
  dsimp only at hf ⊢
  by_cases hj : j = i
  · subst hj
    rw [List.getElem?_set_self (List.getElem?_eq_some_iff.1 he).1] at hf
    cases hf
    obtain ⟨g1, g2⟩ := hi j e he
    exact ⟨h1.trans g1, by rw [h2]; exact g2⟩
  · rw [List.getElem?_set_ne (Ne.symm hj)] at hf
    exact hi j f hf

omit [AesSiv C] [NtsHost H F] in
theorem start_inv (ntsRefresh : F) (config : List (SourceConfig F H)) :
    Inv (start ntsRefresh config : Sys F C H) := by
  intro i e he
  obtain ⟨src, -, rfl⟩ := List.mem_map.1 (List.mem_of_getElem? he)
  refine ⟨?_, rfl⟩
  unfold savedT1 SourceConfig.entry
  dsimp only
  cases src.nts <;> rfl

theorem transmitTs_header {datagram : Bytes} {mode nowSec nowNsec : Int}
    (h : datagram.take 48 = headerBytes F mode nowSec nowNsec) :
    transmitTs datagram = ntp64 (timespecToNtp64 F nowSec nowNsec none) := by
  rw [transmitTs, h, headerBytes, ← fromBe_ntp64Bytes]
  rfl

/-- **One step.** -/
theorem step_inv {s' : Sys F C H} {ev : Event} (hi : s.Inv) (h : s.step measure ev = .ok s') :
    s'.Inv := by
  cases ev with
  | poll i nowSec nowNsec sendOk =>
    obtain ⟨⟨mgr, sent⟩, hp, h⟩ := bind_eq_ok.1 h
    cases h
    obtain ⟨e, e', r, he, hb, hcases⟩ := pollSource_cases hp
    obtain ⟨auth, keys, hframe⟩ := hb.frame
    rcases hcases with ⟨-, rfl, rfl⟩ | ⟨-, rfl, rfl⟩
    · refine hi.update (fun j hj x => if_neg (Ne.symm hj)) (fun _ _ => rfl) ⟨?_, ?_⟩
      · rw [latest_snoc]
        dsimp only
        rw [transmitTs_header hb.header]
        exact (if_pos rfl).symm
      · rw [answered_snoc, show answered i [Obs.request i (transmitTs r.datagram)] = false from rfl,
          Bool.or_false, ← (hi i e he).rx, hframe]
        rfl
    · rw [Option.toList_none, List.map_nil, List.append_nil]
      refine hi.keep he ?_ ?_
      · rw [hframe]; rfl
      · rw [hframe]; rfl
  | recv access nowSec nowNsec d =>
    obtain ⟨⟨mgr, out⟩, hr, h⟩ := bind_eq_ok.1 h
    cases h
    unfold receiveOne at hr
    cases hroute : route s.mgr access d with
    | accept i =>
      rw [hroute] at hr
      obtain ⟨e, he, hr⟩ := bind_eq_ok.1 hr
      obtain ⟨⟨inst, sample⟩, hresp, hr⟩ := bind_eq_ok.1 hr
      cases hr
      obtain ⟨v, hv⟩ := SourceInstance.handleResponse_authenticated hresp
      obtain ⟨auth, keys, rfl⟩ := SourceInstance.authenticate_frame hv
      refine hi.update (fun j _ x => rfl) (fun j hj => ?_) ⟨?_, ?_⟩
      · simp [answered, Ne.symm hj]
      · rw [latest_snoc]
        exact (hi i e (index_eq_ok.1 he)).t1
      · rw [answered_snoc]
        simp [answered, saveTimestamps]
    | badOrigin i =>
      rw [hroute] at hr
      cases hr
      obtain ⟨-, -, e, he, -⟩ := route_response_inv (.inr hroute)
      rw [show noted d (.badOrigin i) = [] from rfl, List.append_nil,
        List.modify_eq_set_getElem?, he]
      exact hi.keep he rfl rfl
    | broadcast o =>
      rw [hroute] at hr
      rw [show noted d (.broadcast o) = [] from rfl, List.append_nil]
      cases o <;> cases hr <;> exact hi
    | _ =>
      rw [hroute] at hr
      cases hr
      rw [show noted d _ = [] from rfl, List.append_nil]
      exact hi

theorem run_inv {ntsRefresh : F} {config : List (SourceConfig F H)} {tr : List Event}
    (h : Run (fun s e s' => step measure s e = .ok s') (start ntsRefresh config) tr s) : s.Inv :=
  h.invariant (I := Inv) (fun _ _ _ hi h => step_inv measure hi h) (start_inv ntsRefresh config)

/-! ## The condition -/

/-- The datagram is handed to source `i`, or turned into a sample of it. -/
def Accepts (m : NtpSourceManager F C H) (access : Option (IpAddr → Bool)) (d : Datagram)
    (i : Nat) : Prop :=
  route m access d = .accept i ∨ route m access d = .broadcast (some i)

/-- A datagram is accepted only as the answer to the outstanding request. -/
def Protected (s : Sys F C H) (access : Option (IpAddr → Bool)) (d : Datagram) : Prop :=
  ∀ i, Accepts s.mgr access d i →
    d.mode ≠ 5 ∧ d.origin ≠ 0 ∧ outstanding i s.log = some d.origin

/-- What the traffic must look like: no broadcast from the address of a source, and
responses of a source either answer the outstanding request, or have an originate
timestamp that is neither zero nor that of the latest request while nothing of the source
was accepted before. -/
def Guarded (s : Sys F C H) (access : Option (IpAddr → Bool)) (d : Datagram) : Prop :=
  Heard access d → ∀ i e, sourceOf s.mgr d.peer = some i → s.mgr.sources[i]? = some e →
    d.mode ≠ 5 ∧ (modeOk e.mode d.mode = true → d.origin ≠ 0 ∧
      (outstanding i s.log = some d.origin ∨
        (latest i s.log ≠ some d.origin ∧ answered i s.log = false)))

omit [AesSiv C] [NtsHost H F] in
/-- What the check asks, in terms of the log. -/
theorem originOk_iff {log : List Obs} {e : NtpSourceEntry F C H} (ht : Tracks log i e)
    {origin : Nat} (h0 : origin ≠ 0) :
    originOk e origin = true ↔ latest i log = some origin ∨ answered i log = true := by
  have ht1 : origin = ourT1 e ↔ latest i log = some origin := by
    rw [← ht.t1, savedT1, ourT1]
    cases e.inst.savedT1 with
    | none => simp [h0]
    | some ts => simp [eq_comm]
  rw [originOk, decide_eq_true_iff, ← ht1, ← ht.rx]
  cases e.savedRxTs <;> simp [h0]

/-- **When the check protects.** In every reachable state and for every datagram that may
come next: it is accepted only as the answer to the outstanding request iff it is guarded
against. -/
theorem protected_iff (ntsRefresh : F) (config : List (SourceConfig F H)) {tr : List Event}
    {s : Sys F C H} (h : Run (fun s e s' => step measure s e = .ok s')
      (start ntsRefresh config) tr s)
    (access : Option (IpAddr → Bool)) (d : Datagram) :
      s.Protected access d ↔ s.Guarded access d := by
  have hinv := run_inv measure h
  constructor
  · intro hp hh i e hi he
    have h5 : d.mode ≠ 5 := fun h5 => (hp i (.inr (route_broadcast_iff.2 ⟨hh, h5, hi⟩))).1 h5
    refine ⟨h5, fun hm => ?_⟩
    have hroute := route_response hh hi he hm
    cases hok : originOk e d.origin with
    | true =>
      rw [hok, if_pos rfl] at hroute
      obtain ⟨-, h0, hout⟩ := hp i (.inl hroute)
      exact ⟨h0, .inl hout⟩
    | false =>
      have h0 : d.origin ≠ 0 := fun h0 => by simp [originOk, h0] at hok
      have hno := mt (originOk_iff (hinv i e he) h0).2 (by simp [hok])
      rw [not_or] at hno
      exact ⟨h0, .inr ⟨hno.1, by simpa using hno.2⟩⟩
  · rintro hg i (hacc | hbc)
    · obtain ⟨hh, hi, e, he, hm⟩ := route_response_inv (.inl hacc)
      obtain ⟨h5, hresp⟩ := hg hh i e hi he
      obtain ⟨h0, hout | ⟨hlat, hans⟩⟩ := hresp hm
      · exact ⟨h5, h0, hout⟩
      · -- the check would have dropped it
        rw [route_response hh hi he hm] at hacc
        cases hok : originOk e d.origin with
        | false => rw [hok] at hacc; cases hacc
        | true =>
          rcases (originOk_iff (hinv i e he) h0).1 hok with h | h
          · exact absurd h hlat
          · rw [hans] at h; cases h
    · obtain ⟨hh, h5, hi⟩ := route_broadcast_iff.1 hbc
      obtain ⟨e, he, -⟩ := sourceOf_some hi
      exact absurd h5 (hg hh i e hi he).1

end Sys

/-! ## Concrete runs -/

def server : SocketAddr := ⟨.v4 0xc0000201, 123, 0, 0⟩

def config : List (SourceConfig ℚ StaticHost) := [⟨"server", server, 123, false, 0, 1, 0, none⟩]

def noSample : SampleArgs ℚ → ResponseSample ℚ := fun _ => ⟨0, 0, 0, 0, 0, ⟨0, 0⟩⟩

def packetFrom (lvm : UInt8) (origin : UInt32) : Datagram :=
  ⟨server, lvm :: List.replicate 23 0 ++ be32 origin ++ List.replicate 20 0, by simp⟩

/-- The answer to a request that was sent one second after the epoch. -/
def answer : Datagram := packetFrom 0x24 0x83aa7e81

def polled : List Event := [.poll 0 1 0 true]

def answeredOnce : List Event := [.poll 0 1 0 true, .recv none 2 0 answer]

theorem protected_iff_answer : ∃ s : Sys ℚ NullCipher StaticHost,
    Run (fun s e s' => Sys.step noSample s e = .ok s') (Sys.start 0 config) polled s ∧
      s.Protected none answer := by
  obtain ⟨s, hs, hcheck⟩ := exists_of_check
    (x := polled.foldlM (Sys.step noSample) (Sys.start 0 config : Sys ℚ NullCipher StaticHost))
    (p := fun s => outstanding 0 s.log = some answer.origin ∧ sourceOf s.mgr server = some 0)
    (by decide +kernel)
  obtain ⟨hout, hsrc⟩ := of_decide_eq_true hcheck
  have hrun := Run.of_foldlM hs
  refine ⟨s, hrun, (Sys.protected_iff noSample 0 config hrun none answer).2 ?_⟩
  intro _ i e hi _
  rw [show answer.peer = server from rfl, hsrc] at hi
  cases hi
  exact ⟨by decide, fun _ => ⟨by decide, .inl hout⟩⟩

/-- After a request and its answer: the same answer again, an old originate timestamp, a
zero one and a broadcast packet are all accepted. -/
theorem replay_accepted : ∃ s : Sys ℚ NullCipher StaticHost,
    Run (fun s e s' => Sys.step noSample s e = .ok s') (Sys.start 0 config) answeredOnce s ∧
      ∀ d ∈ [answer, packetFrom 0x24 5, packetFrom 0x24 0, packetFrom 0x25 0],
        ¬ s.Protected none d := by
  obtain ⟨s, hs, hcheck⟩ := exists_of_check
    (x := answeredOnce.foldlM (Sys.step noSample)
      (Sys.start 0 config : Sys ℚ NullCipher StaticHost))
    (p := fun s => outstanding 0 s.log = none ∧
      route s.mgr none answer = .accept 0 ∧ route s.mgr none (packetFrom 0x24 5) = .accept 0 ∧
      route s.mgr none (packetFrom 0x24 0) = .accept 0 ∧
      route s.mgr none (packetFrom 0x25 0) = .broadcast (some 0)) (by decide +kernel)
  obtain ⟨hout, h1, h2, h3, h4⟩ := of_decide_eq_true hcheck
  refine ⟨s, Run.of_foldlM hs, fun d hd hp => ?_⟩
  have hacc : Sys.Accepts s.mgr none d 0 := by
    simp only [List.mem_cons, List.not_mem_nil, or_false] at hd
    rcases hd with rfl | rfl | rfl | rfl
    · exact .inl h1
    · exact .inl h2
    · exact .inl h3
    · exact .inr h4
  have := (hp 0 hacc).2.2
  rw [hout] at this
  cases this

end ChronyRs.Bugs.OriginCheck

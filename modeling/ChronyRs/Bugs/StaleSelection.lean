import ChronyRs.L5Daemon.Replay
import Mathlib.Data.List.DropRight

/-!
# Replay reports sources that are gone (`replay.rs`)

What `run` reports is only replaced when a selection finds a source: when the last source goes
offline, the source reported before stays. Moreover a packet counts as a sample of its source before
it is decoded, so a source that was switched online and has sent nothing but garbage takes part in
the selection, with stratum 16.

* `selected_iff`: exactly the traces whose report is right.
* `offline_source_reported`: the last source is switched offline and still reported.

Fix: assign the result of the selection also when it is `None`, and count a sample after decoding.
-/
namespace ChronyRs.Bugs.StaleSelection

open L5.Replay

/-! ## What should be reported -/

/-- The sources that have sent a packet that can be decoded. -/
def decodedNames (events : List Event) : List Str :=
  (events.filter fun ev => (decoded ev).isSome).map (nameField · "peer")

/-- Online with a packet that was decoded. -/
def usable (events : List Event) (s : Source) : Bool :=
  s.online && decide (s.name ∈ decodedNames events)

/-- After the last event, the source that is online, has sent a packet that can be decoded, and has
the lowest stratum. -/
def expected (events : List Event) : Option Str :=
  (lowest (candidates (usable events) (sourcesAfter events))).map Prod.fst

def heardAfter (events : List Event) : List (Str × UInt8) := candidates heard (sourcesAfter events)

/-- The events up to the last one that selects. -/
def upToSelection (events : List Event) : List Event := events.rdropWhile fun ev => !selects ev

/-- No event that selects found a source that was online with any packet; or the last one did, and
the first one of the lowest stratum among them has sent a packet that can be decoded. -/
def Current (events : List Event) : Prop :=
  (∀ p ev, p ++ [ev] <+: events → selects ev = true → heardAfter (p ++ [ev]) = []) ∨
    ∃ k, lowest (heardAfter (upToSelection events)) = some k ∧
      k.1 ∈ decodedNames (upToSelection events)

/-! ## Whole traces -/

variable {p events : List Event} {ev : Event}

theorem selected_concat (h : Ordered (p ++ [ev])) : (replay (p ++ [ev])).selected =
    if selects ev then (runSelection (sourcesAfter (p ++ [ev]))).or (replay p).selected
    else (replay p).selected := by
  rw [← replay_sources h, replay_concat h]
  exact handle_selected _ ev

theorem decodedNames_concat (p : List Event) (ev : Event) : decodedNames (p ++ [ev]) =
    decodedNames p ++ if (decoded ev).isSome then [nameField ev "peer"] else [] := by
  rw [decodedNames, List.filter_append, List.map_append, ← decodedNames]
  cases hd : (decoded ev).isSome <;> simp [hd]

theorem samples_pos {name : Str} (h : name ∈ decodedNames events) :
    0 < (sourceAfter events name).samples := by
  induction events using List.reverseRecOn with
  | nil => cases h
  | append_singleton p ev ih =>
    rw [decodedNames_concat] at h
    rw [sourceAfter_concat]
    rcases List.mem_append.1 h with h | h
    · split
      · exact (ih h).trans_le (change_keeps _ _).2
      · exact ih h
    · cases hd : decoded ev with
      | none => simp [hd] at h
      | some stratum =>
        have hk : ev.kind = .recvNtp := by
          by_contra hk
          simp [decoded, hk] at hd
        rw [hd, Option.isSome_some, if_pos rfl, List.mem_singleton] at h
        rw [if_pos (by simp only [about, hk, h])]
        simp only [change, hk, hd]
        exact Nat.succ_pos _

/-- The usable sources are those among the heard ones that sent a packet that can be decoded. -/
theorem candidates_usable (events : List Event) : candidates (usable events) (sourcesAfter events) =
    (heardAfter events).filter fun k => decide (k.1 ∈ decodedNames events) := by
  rw [heardAfter, candidates, candidates, List.filter_map, List.filter_filter]
  congr 1
  refine List.filter_congr fun s hs => ?_
  obtain ⟨name, -, rfl⟩ := List.mem_map.1 hs
  by_cases hmem : name ∈ decodedNames events
  · simp [usable, heard, sourceAfter_name, hmem, samples_pos hmem]
  · simp [usable, sourceAfter_name, hmem]

/-- Nothing shows of the events behind the last one that selects. -/
theorem replay_upTo (h : Ordered events) :
    (replay events).selected = (replay (upToSelection events)).selected ∧
      expected events = expected (upToSelection events) ∧
      (upToSelection events = [] ∨ ∃ p ev, upToSelection events = p ++ [ev] ∧
        selects ev = true) := by
  induction events using List.reverseRecOn with
  | nil => exact ⟨rfl, rfl, .inl rfl⟩
  | append_singleton p ev ih =>
    rw [upToSelection]
    cases hsel : selects ev with
    | true =>
      rw [List.rdropWhile_concat_neg _ _ _ (by simp [hsel])]
      exact ⟨rfl, rfl, .inr ⟨p, ev, rfl, hsel⟩⟩
    | false =>
      obtain ⟨hselected, hexp, hlast⟩ := ih h.of_append
      rw [List.rdropWhile_concat_pos _ _ _ (by simp [hsel]), ← upToSelection, ← hselected, ← hexp,
        selected_concat h, hsel]
      refine ⟨rfl, ?_, hlast⟩
      have hd : (decoded ev).isSome = false := by simpa using (Bool.or_eq_false_iff.1 hsel).1
      have hnames : decodedNames (p ++ [ev]) =
          decodedNames p := by rw [decodedNames_concat, hd]; simp
      have husable : usable (p ++ [ev]) = usable p := by funext s; rw [usable, hnames, ← usable]
      rw [expected, expected, husable, sourcesAfter_concat]
      cases about ev with
      | none => rfl
      | some name =>
        rw [Option.elim_some, candidates_upsert (fun src => ?_) rfl]
        obtain ⟨honline, hstratum⟩ := change_of_not_selects hsel src
        exact ⟨by rw [usable, usable, (change_keeps ev src).1, honline],
          (change_keeps ev src).1, hstratum⟩

/-- Nothing is reported iff no selection found anything. -/
theorem selected_eq_none_iff (h : Ordered events) : (replay events).selected = none ↔
    ∀ p ev, p ++ [ev] <+: events → selects ev = true → heardAfter (p ++ [ev]) = [] := by
  induction events using List.reverseRecOn with
  | nil => exact iff_of_true rfl fun p ev hp => by simp at hp
  | append_singleton q e ih =>
    have hselect : runSelection (sourcesAfter (q ++ [e])) = none ↔ heardAfter (q ++ [e]) = [] := by
      rw [runSelection, Option.map_eq_none_iff, lowest, List.argmin_eq_none, heardAfter]
    have hsplit : (∀ p ev, p ++ [ev] <+: q ++ [e] → selects ev = true →
        heardAfter (p ++ [ev]) = []) ↔ (selects e = true → heardAfter (q ++ [e]) = []) ∧
          ∀ p ev, p ++ [ev] <+: q → selects ev = true → heardAfter (p ++ [ev]) = [] := by
      constructor
      · intro hall
        exact ⟨hall q e List.prefix_rfl, fun p ev hp => hall p ev
          (hp.trans (List.prefix_append q [e]))⟩
      · rintro ⟨hlast, hall⟩ p ev hp
        obtain heq | hp := List.prefix_concat_iff.1 hp
        · obtain ⟨rfl, rfl⟩ := List.concat_inj.1 (by simpa using heq)
          exact hlast
        · exact hall p ev hp
    rw [hsplit, ← ih h.of_append, selected_concat h]
    cases selects e with
    | true => simp [hselect]
    | false => simp

theorem lowest_filter {l : List (Str × UInt8)} {p : Str × UInt8 → Bool} {k : Str × UInt8}
    (h : lowest l = some k) (hk : p k = true) : lowest (l.filter p) = some k := by
  induction l using List.reverseRecOn generalizing k with
  | nil => cases h
  | append_singleton l a ih =>
    rw [lowest, List.argmin_concat] at h
    rw [List.filter_append, lowest]
    cases hl : lowest l with
    | none =>
      rw [show l.argmin _ = none from hl] at h
      obtain rfl : l = [] := List.argmin_eq_none.1 hl
      cases h
      simp [hk]
    | some c =>
      rw [show l.argmin _ = some c from hl] at h
      dsimp only at h
      split at h
      · next hlt =>
        cases h
        rw [List.filter_singleton, hk, cond_true, List.argmin_concat]
        cases hf : (l.filter p).argmin fun k => k.2.toNat with
        | none => rfl
        | some d =>
          have hd := List.mem_of_mem_filter (List.argmin_mem hf)
          exact if_pos (hlt.trans_le (List.le_of_mem_argmin (f := fun k => k.2.toNat) hd hl))
      · next hge =>
        cases h
        have hrest : (l.filter p).argmin (fun k => k.2.toNat) = some k := ih hl hk
        cases hp : p a with
        | false => simpa [hp] using hrest
        | true =>
          rw [List.filter_singleton, hp, cond_true, List.argmin_concat, hrest]
          exact if_neg hge

/-- **When the report is right.** For every valid trace: no selection ever found a source that was
online with any packet, or the last one did, and the first one of the lowest stratum among them had
sent a packet that can be decoded. -/
theorem selected_iff (trace : Trace) (h : trace.validate = .ok ()) :
    (∃ r, run trace = .ok r ∧ r.selectedSource = expected trace.events) ↔ Current trace.events := by
  have hord : Ordered trace.events := by
    rw [Trace.validate] at h
    split at h
    · cases h
    · exact ⟨0, h⟩
  have hrun : (∃ r, run trace = .ok r ∧ r.selectedSource = expected trace.events) ↔
      (replay trace.events).selected = expected trace.events := by
    rw [run, h]
    exact ⟨fun ⟨r, hr, heq⟩ => by cases hr; exact heq, fun heq => ⟨_, rfl, heq⟩⟩
  obtain ⟨hsel, hexp, hlast⟩ := replay_upTo hord
  have hup : Ordered (upToSelection trace.events) := by
    obtain ⟨rest, hrest⟩ := List.rdropWhile_prefix (fun ev => !selects ev) (l := trace.events)
    exact Ordered.of_append (hrest.symm ▸ hord)
  rw [hrun, Current, ← selected_eq_none_iff hord, hexp, expected, candidates_usable]
  cases hlow : lowest (heardAfter (upToSelection trace.events)) with
  | none =>
    have hnil : heardAfter (upToSelection trace.events) = [] := List.argmin_eq_none.1 hlow
    simp [hnil, lowest]
  | some k =>
    -- the last selection found something, and it is what is reported
    have hk : (replay trace.events).selected = some k.1 := by
      rw [hsel]
      obtain hnil | ⟨p, ev, hp, hev⟩ := hlast
      · rw [hnil] at hlow
        cases hlow
      · rw [hp] at hlow hup ⊢
        rw [selected_concat hup, hev, if_pos rfl, runSelection, ← heardAfter, hlow]
        rfl
    rw [hk]
    constructor
    · intro heq
      obtain ⟨d, hd, hdk⟩ := Option.map_eq_some_iff.1 heq.symm
      have hmem := (List.mem_filter.1 (List.argmin_mem hd)).2
      exact .inr ⟨k, rfl, hdk ▸ of_decide_eq_true hmem⟩
    · rintro (hnone | ⟨k', hk', hmem⟩)
      · cases hnone
      · cases hk'
        rw [lowest_filter hlow (decide_eq_true hmem)]
        rfl

def packetFrom (t : UInt64) (peer : String) (stratum : String) : Event :=
  ⟨t, .recvNtp, [("peer".toList, .string peer.toList),
    ("packet_hex".toList, .string ("1c".toList ++ stratum.toList ++ List.replicate 92 '0'))]⟩

def switch (t : UInt64) (source : String) (online : Bool) : Event :=
  ⟨t, .onlineState, [("source".toList, .string source.toList), ("online".toList, .bool online)]⟩

def traceOf (events : List Event) : Trace := ⟨"chrony-rs-trace-v1".toList, events⟩

/-- `b` has the lower stratum until it is switched offline. -/
def present : Trace :=
  traceOf [packetFrom 0 "a" "02", packetFrom 1 "b" "01", switch 2 "b" false, ⟨3, .pollDue, []⟩]

theorem selected_iff_present :
    ∃ r, run present = .ok r ∧ r.selectedSource = expected present.events ∧
      expected present.events = some "a".toList := by
  obtain ⟨r, hr, hsel⟩ := (selected_iff present (by decide +kernel)).2
    (.inr ⟨("a".toList, 2), by decide +kernel, by decide +kernel⟩)
  exact ⟨r, hr, hsel, by decide +kernel⟩

/-- A packet of `a`, which is then switched offline. -/
def gone : Trace := traceOf [packetFrom 0 "a" "02", switch 1 "a" false]

/-- **A source that is offline is reported.** -/
theorem offline_source_reported : gone.validate = .ok () ∧
    (run gone).map (·.selectedSource) = .ok (some "a".toList) ∧ expected gone.events = none := by
  decide +kernel

end ChronyRs.Bugs.StaleSelection

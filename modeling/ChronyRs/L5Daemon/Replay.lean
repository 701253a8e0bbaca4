import ChronyRs.L1Encoding.Util
import Mathlib.Data.List.Dedup
import Mathlib.Data.List.MinMax

/-!
# Replaying a trace (`trace.rs`, `replay.rs`)

`run` replays the events of a trace and selects the source with the lowest stratum after every
packet it can decode and every change of a source to online or offline.

* `replay_concat`: in a valid trace no event is skipped.
* `handle_sources`, `handle_selected`: what one event does.
* `replay_sources`: the sources after a trace, in the order in which it mentions them, each with
  what the events about it have made of it.
-/
namespace ChronyRs.L5.Replay

open L1.Util

/-! ## Traces -/

/-- `serde_json::Value`: what the fields of an event may be read as. -/
inductive Value where
  | string (s : Str)
  | bool (b : Bool)
  | other
  deriving DecidableEq

/-- mirrors trace.rs:69-78 -/
inductive EventKind where
  | recvNtp | pollDue | controlQuery | onlineState
  deriving DecidableEq

/-- mirrors trace.rs:52-61 -/
structure Event where
  tMonoNs : UInt64
  kind : EventKind
  data : List (Str × Value)
  deriving DecidableEq

/-- mirrors trace.rs:31-48 -/
structure Trace where
  traceSchema : Str
  events : List Event

/-- mirrors trace.rs:95-98 -/
inductive TraceError where
  | wrongSchema (found : Str)
  | eventsOutOfOrder (index : Nat) (prev this : UInt64)
  deriving DecidableEq

/-- The loop of `validate`. -/
def checkOrder : Nat → UInt64 → List Event → Except TraceError Unit
  | _, _, [] => .ok ()
  | index, prev, ev :: evs =>
    if ev.tMonoNs < prev then .error (.eventsOutOfOrder index prev ev.tMonoNs)
    else checkOrder (index + 1) ev.tMonoNs evs

/-- mirrors trace.rs:120-138 -/
def Trace.validate (trace : Trace) : Except TraceError Unit :=
  if trace.traceSchema ≠ "chrony-rs-trace-v1".toList then .error (.wrongSchema trace.traceSchema)
  else checkOrder 0 0 trace.events

/-- mirrors replay.rs:210-212 -/
def strField (ev : Event) (key : String) : Option Str :=
  match ev.data.lookup key.toList with
  | some (.string s) => some s
  | _ => none

/-- mirrors replay.rs:214-216 -/
def boolField (ev : Event) (key : String) : Option Bool :=
  match ev.data.lookup key.toList with
  | some (.bool b) => some b
  | _ => none

/-- `decode_hex` does what `hex_to_bytes` does.
mirrors replay.rs:218-221 -/
def hexField (ev : Event) (key : String) : Option Bytes := (strField ev key).bind hexToBytes

/-- The mode and the stratum of a packet, or the length of one that is too short.
mirrors ntp/packet.rs:163-201 -/
def decode (buf : Bytes) : Except Nat (UInt8 × UInt8) :=
  if buf.length < 48 then .error buf.length else .ok (buf.getD 0 0 &&& 7, buf.getD 1 0)

/-! ## The replay -/

/-- mirrors replay.rs:65-70 -/
structure Source where
  name : Str
  online : Bool := false
  stratum : UInt8 := 16
  samples : Nat := 0
  deriving DecidableEq

/-- `upsert` and a change of the source it finds or adds.
mirrors replay.rs:95-102 -/
def upsert (name : Str) (f : Source → Source) : List Source → List Source
  | [] => [f { name }]
  | s :: sources => if s.name = name then f s :: sources else s :: upsert name f sources

/-- The names and strata of the sources with the property. -/
def candidates (p : Source → Bool) (sources : List Source) : List (Str × UInt8) :=
  (sources.filter p).map fun s => (s.name, s.stratum)

/-- The first one of the lowest stratum. -/
def lowest (l : List (Str × UInt8)) : Option (Str × UInt8) := l.argmin fun k => k.2.toNat

/-- Online with a packet, whatever was in it. -/
def heard (s : Source) : Bool := s.online && 0 < s.samples

/-- mirrors replay.rs:104-117 -/
def runSelection (sources : List Source) : Option Str :=
  (lowest (candidates heard sources)).map Prod.fst

/-- The lines of the decision log, without their wording. -/
inductive LogLine where
  | nonMonotonic (t : UInt64)
  | recvNtp (t : UInt64) (peer : Str) (mode stratum : UInt8)
  | selection (t : UInt64) (source : Str)
  | reject (t : UInt64) (peer : Str) (got : Nat)
  | noPacket (t : UInt64) (peer : Str)
  | pollDue (t : UInt64) (source : Str)
  | onlineState (t : UInt64) (source : Str) (online : Bool)
  | controlQuery (t : UInt64) (command : Str) (selected : Option Str) (sources : Nat)
  deriving DecidableEq

/-- The clock, the sources of the host, and the local variables of `run`. -/
structure State where
  monoNs : UInt64 := 0
  sources : List Source := []
  selected : Option Str := none
  log : List LogLine := []
  deriving DecidableEq

def nameField (ev : Event) (key : String) : Str := (strField ev key).getD "<unknown>".toList

/-- The body of the loop for an event that is not late.
mirrors replay.rs:144-199 -/
def handle (s : State) (ev : Event) : State :=
  let t := ev.tMonoNs
  match ev.kind with
  | .recvNtp =>
    let peer := nameField ev "peer"
    match (hexField ev "packet_hex").map decode with
    | some (.ok (mode, stratum)) =>
      let sources := s.sources |> upsert peer fun src =>
        { src with samples := src.samples + 1, stratum, online := true }
      -- a selection that finds nothing leaves the report as it is
      let sel := runSelection sources
      let log := s.log ++ [.recvNtp t peer mode stratum] ++ (sel.map (.selection t)).toList
      { s with sources, selected := sel.or s.selected, log }
    | some (.error got) =>
      let sources := s.sources |> upsert peer fun src => { src with samples := src.samples + 1 }
      { s with sources, log := s.log ++ [.reject t peer got] }
    | none =>
      let sources := s.sources |> upsert peer fun src => { src with samples := src.samples + 1 }
      { s with sources, log := s.log ++ [.noPacket t peer] }
  | .pollDue => { s with log := s.log ++ [.pollDue t (nameField ev "source")] }
  | .onlineState =>
    let src := nameField ev "source"
    let online := (boolField ev "online").getD true
    let sources := s.sources |> upsert src fun src => { src with online }
    { s with
      sources, selected := (runSelection sources).or s.selected
      log := s.log ++ [.onlineState t src online] }
  | .controlQuery =>
    let cmd := (strField ev "command").getD "<none>".toList
    { s with log := s.log ++ [.controlQuery t cmd s.selected s.sources.length] }

/-- mirrors replay.rs:139-201 -/
def step (s : State) (ev : Event) : State :=
  if ev.tMonoNs < s.monoNs then { s with log := s.log ++ [.nonMonotonic ev.tMonoNs] }
  else handle { s with monoNs := ev.tMonoNs } ev

def replay (events : List Event) : State := events.foldl step {}

/-- mirrors replay.rs:15-21 -/
structure ReplayReport where
  eventsProcessed : Nat
  selectedSource : Option Str
  decisionLog : List LogLine
  deriving DecidableEq

/-- mirrors replay.rs:131-208 -/
def run (trace : Trace) : Except TraceError ReplayReport := do
  trace.validate
  let s := replay trace.events
  return ⟨trace.events.length, s.selected, s.log⟩

/-! ## One event -/

/-- The stratum of the packet that an event brings, if it can be decoded. -/
def decoded (ev : Event) : Option UInt8 :=
  if ev.kind = .recvNtp then
    match (hexField ev "packet_hex").map decode with
    | some (.ok p) => some p.2
    | _ => none
  else none

/-- The source that an event is about. -/
def about (ev : Event) : Option Str :=
  match ev.kind with
  | .recvNtp => some (nameField ev "peer")
  | .onlineState => some (nameField ev "source")
  | _ => none

/-- What the event does to the source it is about. -/
def change (ev : Event) (src : Source) : Source :=
  match ev.kind with
  | .recvNtp =>
    match decoded ev with
    | some stratum => { src with samples := src.samples + 1, stratum, online := true }
    | none => { src with samples := src.samples + 1 }
  | .onlineState => { src with online := (boolField ev "online").getD true }
  | _ => src

/-- The events after which a source is selected. -/
def selects (ev : Event) : Bool := (decoded ev).isSome || ev.kind = .onlineState

theorem handle_monoNs (s : State) (ev : Event) : (handle s ev).monoNs = s.monoNs := by
  unfold handle
  dsimp only
  repeat' split
  all_goals rfl

theorem handle_sources (s : State) (ev : Event) : (handle s ev).sources =
    (about ev).elim s.sources fun name => upsert name (change ev) s.sources := by
  cases hk : ev.kind with
  | recvNtp =>
    rcases hp : (hexField ev "packet_hex").map decode with _ | got | packet
    all_goals
      simp only [handle, about, hk, hp, Option.elim_some]
      congr 1
      funext src
      simp only [change, decoded, hk, hp, if_true]
  | onlineState =>
    simp only [handle, about, hk, Option.elim_some]
    congr 1
    funext src
    simp only [change, hk]
  | _ => simp only [handle, about, hk, Option.elim_none]

theorem handle_selected (s : State) (ev : Event) : (handle s ev).selected =
    if selects ev then (runSelection (handle s ev).sources).or s.selected else s.selected := by
  cases hk : ev.kind with
  | recvNtp =>
    rcases hp : (hexField ev "packet_hex").map decode with _ | got | packet
    all_goals simp [handle, selects, decoded, hk, hp]
  | _ => simp [handle, selects, decoded, hk]

theorem change_of_not_selects {ev : Event} (h : selects ev = false) (src : Source) :
    (change ev src).online = src.online ∧ (change ev src).stratum = src.stratum := by
  rw [selects, Bool.or_eq_false_iff, decide_eq_false_iff_not] at h
  rw [change]
  cases hk : ev.kind with
  | recvNtp =>
    cases hd : decoded ev with
    | none => exact ⟨rfl, rfl⟩
    | some stratum => simp [hd] at h
  | onlineState => exact absurd hk h.2
  | _ => exact ⟨rfl, rfl⟩

/-- A source keeps its name and its samples. -/
theorem change_keeps (ev : Event) (src : Source) :
    (change ev src).name = src.name ∧ src.samples ≤ (change ev src).samples := by
  rw [change]
  cases ev.kind with
  | recvNtp =>
    cases decoded ev with
    | none => exact ⟨rfl, Nat.le_succ _⟩
    | some stratum => exact ⟨rfl, Nat.le_succ _⟩
  | _ => exact ⟨rfl, le_rfl⟩

/-- A change that candidates do not show. -/
theorem candidates_upsert {p : Source → Bool} {name : Str} {f : Source → Source}
    (hf : ∀ src, p (f src) = p src ∧ (f src).name = src.name ∧ (f src).stratum = src.stratum)
    (hnew : p { name } = false) (l : List Source) :
      candidates p (upsert name f l) = candidates p l := by
  induction l with
  | nil => simp [upsert, candidates, hf, hnew]
  | cons s l ih =>
    rw [candidates, candidates] at ih ⊢
    rw [upsert]
    split
    · cases hp : p s <;> simp [hf, hp]
    · cases hp : p s <;> simp [hp, ih]

/-! ## Whole traces -/

/-- The events of a valid trace. -/
def Ordered (events : List Event) : Prop := ∃ index, checkOrder index 0 events = .ok ()

variable {p events : List Event} {ev : Event}

theorem not_late {rest : List Event} {index : Nat} {prev : UInt64} {s : State}
    (h : checkOrder index prev (p ++ ev :: rest) = .ok ()) (hs : s.monoNs ≤ prev) :
    (p.foldl step s).monoNs ≤ ev.tMonoNs := by
  induction p generalizing index prev s with
  | nil =>
    rw [List.nil_append, checkOrder] at h
    split at h
    · cases h
    · next hle => exact UInt64.le_trans hs (UInt64.not_lt.1 hle)
  | cons e p ih =>
    rw [List.cons_append, checkOrder] at h
    split at h
    · cases h
    · next hle =>
      have hlate : ¬ e.tMonoNs < s.monoNs :=
        UInt64.not_lt.2 (UInt64.le_trans hs (UInt64.not_lt.1 hle))
      refine ih h ?_
      rw [step, if_neg hlate, handle_monoNs]
      exact UInt64.le_refl _

theorem Ordered.of_append {rest : List Event} (h : Ordered (p ++ rest)) : Ordered p := by
  obtain ⟨index, h⟩ := h
  refine ⟨index, ?_⟩
  generalize (0 : UInt64) = prev at h ⊢
  induction p generalizing index prev with
  | nil => rfl
  | cons e p ih =>
    rw [List.cons_append, checkOrder] at h
    rw [checkOrder]
    split at h
    · cases h
    · next hle => rw [if_neg hle]; exact ih _ _ h

/-- **No event of a valid trace is skipped.** -/
theorem replay_concat (h : Ordered (p ++ [ev])) :
    replay (p ++ [ev]) = handle { replay p with monoNs := ev.tMonoNs } ev := by
  obtain ⟨index, h⟩ := h
  have hle : (replay p).monoNs ≤ ev.tMonoNs := not_late h (UInt64.le_refl _)
  rw [replay, List.foldl_append, List.foldl_cons, List.foldl_nil]
  exact if_neg (UInt64.not_lt.2 hle)

/-- The names in the order in which they are first mentioned. -/
def mentioned (events : List Event) : List Str := (events.filterMap about).reverse.dedup.reverse

/-- What the events about a source have made of it. -/
def sourceAfter (events : List Event) (name : Str) : Source :=
  (events.filter fun ev => about ev = some name).foldl (fun src ev => change ev src) { name }

def sourcesAfter (events : List Event) : List Source := (mentioned events).map (sourceAfter events)

theorem mentioned_nodup (events : List Event) : (mentioned events).Nodup :=
  List.nodup_reverse.2 (List.nodup_dedup _)

theorem mentioned_concat (p : List Event) (ev : Event) :
    mentioned (p ++ [ev]) = (about ev).elim (mentioned p)
    fun name => if name ∈ mentioned p then mentioned p else mentioned p ++ [name] := by
  rw [mentioned, mentioned, List.filterMap_append, List.reverse_append]
  cases ha : about ev with
  | none => simp [ha]
  | some name =>
    simp only [List.filterMap_cons, ha, List.filterMap_nil, List.reverse_singleton,
      List.singleton_append, Option.elim_some, List.mem_reverse, List.mem_dedup]
    split
    · next hmem => rw [List.dedup_cons_of_mem (List.mem_reverse.2 hmem)]
    · next hmem => rw [List.dedup_cons_of_notMem (mt List.mem_reverse.1 hmem), List.reverse_cons]

theorem sourceAfter_concat (p : List Event) (ev : Event) (name : Str) :
    sourceAfter (p ++ [ev]) name =
    if about ev = some name then change ev (sourceAfter p name) else sourceAfter p name := by
  rw [sourceAfter, List.filter_append, List.foldl_append, ← sourceAfter]
  by_cases ha : about ev = some name
  · simp [ha]
  · simp [ha]

theorem sourceAfter_name (events : List Event) (name : Str) :
    (sourceAfter events name).name = name := by
  induction events using List.reverseRecOn with
  | nil => rfl
  | append_singleton p ev ih =>
    rw [sourceAfter_concat]
    split
    · rw [(change_keeps ev _).1, ih]
    · exact ih

theorem sourceAfter_of_not_mem {name : Str} (h : name ∉ mentioned events) :
    sourceAfter events name = { name } := by
  have hnone : events.filter (fun ev => about ev = some name) = [] := by
    refine List.filter_eq_nil_iff.2 fun ev hev ha => h ?_
    rw [mentioned, List.mem_reverse, List.mem_dedup, List.mem_reverse]
    exact List.mem_filterMap.2 ⟨ev, hev, of_decide_eq_true ha⟩
  rw [sourceAfter, hnone]
  rfl

theorem upsert_map {name : Str} {f : Source → Source} {g : Str → Source} (hg : ∀ n, (g n).name = n)
    {l : List Str} (hl : l.Nodup) (hnew : name ∉ l → g name = { name }) : upsert name f (l.map g) =
      (if name ∈ l then l else l ++ [name]).map fun n => if name = n then f (g n) else g n := by
  induction l with
  | nil => simp [upsert, hnew]
  | cons m l ih =>
    obtain ⟨hm, hl⟩ := List.nodup_cons.1 hl
    rw [List.map_cons, upsert, hg]
    by_cases heq : m = name
    · subst heq
      rw [if_pos rfl, if_pos List.mem_cons_self, List.map_cons, if_pos rfl]
      exact congrArg _ (List.map_congr_left fun n hn => (if_neg fun h : m = n => hm (h ▸ hn)).symm)
    · have hiff : name ∈ m :: l ↔ name ∈ l := by simp [Ne.symm heq]
      rw [if_neg heq, ih hl fun h => hnew (mt hiff.1 h)]
      simp only [hiff]
      split <;> simp [Ne.symm heq]

theorem sourcesAfter_concat (p : List Event) (ev : Event) : sourcesAfter (p ++ [ev]) =
    (about ev).elim (sourcesAfter p) fun name => upsert name (change ev) (sourcesAfter p) := by
  rw [sourcesAfter, mentioned_concat]
  cases ha : about ev with
  | none =>
    refine List.map_congr_left fun n _ => ?_
    rw [sourceAfter_concat, if_neg (by rw [ha]; exact nofun)]
  | some name =>
    rw [Option.elim_some, Option.elim_some, sourcesAfter,
      upsert_map (sourceAfter_name p) (mentioned_nodup p) sourceAfter_of_not_mem]
    refine List.map_congr_left fun n _ => ?_
    rw [sourceAfter_concat, ha]
    simp only [Option.some.injEq]

/-- **The sources after a valid trace.** -/
theorem replay_sources (h : Ordered events) : (replay events).sources = sourcesAfter events := by
  induction events using List.reverseRecOn with
  | nil => rfl
  | append_singleton p ev ih =>
    rw [replay_concat h, handle_sources, sourcesAfter_concat]
    dsimp only
    rw [ih h.of_append]

end ChronyRs.L5.Replay

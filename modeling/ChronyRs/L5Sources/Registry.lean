import Mathlib.Algebra.Order.Field.Basic

/-!
# The registry of sources (`sources/registry.rs`)

The table of sources with their status, reachability, options and score, and how a source is marked.
Numbers of type `f64` are of an arbitrary type `F`. What an operation asked the host to do is
appended to `calls`. A table has fewer than `2 ^ 31` sources, so that an index is the same number as
`usize` and as `i32`.
-/
namespace ChronyRs.L5.Sources

/-! ## Types -/

/-- mirrors reference.rs:48-57 -/
inductive NtpLeap where
  | normal | insertSecond | deleteSecond | unsynchronised
  deriving DecidableEq, Repr

/-- mirrors sources/registry.rs:49-49 -/
def badHandleThreshold : Int := 4

/-- mirrors sources/registry.rs:54-61 -/
def trust : BitVec 32 := 0x4#32

@[inherit_doc trust]
def require : BitVec 32 := 0x8#32

/-- mirrors sources/registry.rs:62-62 -/
def invalidSource : Int := -1

/-- mirrors sources/registry.rs:83-88 -/
inductive SrcType where
  | ntp | refclock
  deriving DecidableEq, Repr

/-- mirrors sources/registry.rs:93-112 -/
inductive SrcStatus where
  | ok | unselectable | unsynchronised | badStats | badDistance | jittery | waitsStats | stale
  | orphan
  | untrusted | falseticker | waitsSources | nonpreferred | waitsUpdate | distant | outlier
  | unselected
  | selected
  deriving DecidableEq, Repr

/-- The statuses that count against a source.
mirrors sources/registry.rs:658-661 -/
def SrcStatus.isBad : SrcStatus → Bool
  | falseticker | badDistance | jittery => true
  | _ => false

/-- mirrors sources/registry.rs:131-138 -/
structure SelectInfo (F : Type) where
  selectOk : Bool
  stdDev : F
  rootDistance : F
  loLimit : F
  hiLimit : F
  lastSampleAgo : F
  deriving DecidableEq

/-- mirrors sources/registry.rs:142-185 -/
structure SrcInstance (F : Type) where
  index : Nat
  refId : UInt32
  hasIp : Bool
  active : Bool
  reachability : UInt32
  reachabilitySize : Int
  updates : Int
  distant : Int
  bad : Int
  status : SrcStatus
  type : SrcType
  authenticated : Bool
  confSelOptions : BitVec 32
  selOptions : BitVec 32
  selScore : F
  stratum : Int
  leap : NtpLeap
  leapVote : Bool
  reportedFalseticker : Bool
  selInfo : SelectInfo F
  deriving DecidableEq

namespace SrcInstance

variable {F : Type} (s : SrcInstance F)

/-- `s.sel_options & option != 0`. -/
def has (option : BitVec 32) : Bool := s.selOptions &&& option ≠ 0#32

end SrcInstance

/-- mirrors sources/registry.rs:268-275 -/
structure SourcesConfig (F : Type) where
  maxDistance : F
  maxJitter : F
  reselectDistance : F
  stratumWeight : F
  combineLimit : F
  minSources : Int
  deriving DecidableEq

/-- The arguments of `ref_set_reference`.
mirrors sources/registry.rs:246-262 -/
structure RefUpdate (F : Type) where
  stratum : Int
  leap : NtpLeap
  combined : Int
  refId : UInt32
  refTime : F
  offset : F
  offsetSd : F
  frequency : F
  frequencySd : F
  skew : F
  rootDelay : F
  rootDispersion : F
  deriving DecidableEq

/-- What the registry asks the host to do. -/
inductive HostCall (F : Type) where
  | nsrHandleBadSource (index : Nat)
  | refSetUnsynchronised
  | refUpdateLeapStatus (leap : NtpLeap)
  | refSetReference (update : RefUpdate F)
  | selectSource
  deriving DecidableEq

/-- mirrors sources/registry.rs:294-305 -/
structure Registry (F : Type) where
  sources : List (SrcInstance F)
  selectedSourceIndex : Int
  reportSelectionLoss : Bool
  reportedNoMajority : Bool
  lastUpdatedInst : Int
  cfg : SourcesConfig F
  calls : List (HostCall F)
  deriving DecidableEq

namespace Registry

variable {F : Type} (r : Registry F)

/-- mirrors sources/registry.rs:312-321 -/
def withConfig (cfg : SourcesConfig F) : Registry F :=
  ⟨[], invalidSource, false, false, invalidSource, cfg, []⟩

def update (i : Nat) (f : SrcInstance F → SrcInstance F) : Registry F :=
  { r with sources := r.sources.modify i f }

def call (c : HostCall F) : Registry F := { r with calls := r.calls ++ [c] }

/-! ## Status and reachability -/

/-- mirrors sources/registry.rs:535-539 -/
def handleBadSource (i : Nat) : Registry F :=
  match r.sources[i]? with
  | some s => if s.type = .ntp then r.call (.nsrHandleBadSource i) else r
  | none => r

/-- mirrors sources/registry.rs:647-668 -/
def markSource (i : Nat) (status : SrcStatus) : Registry F :=
  let r := r.update i fun s => { s with status }
  if r.lastUpdatedInst = i then
    let r := r.update i fun s =>
      { s with bad := if s.bad < 2 ^ 31 - 1 ∧ status.isBad = true then s.bad + 1 else 0 }
    match r.sources[i]? with
    | some s => if badHandleThreshold ≤ s.bad then r.handleBadSource i else r
    | none => r
  else r

end Registry

end ChronyRs.L5.Sources

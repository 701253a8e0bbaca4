import Mathlib.Data.List.Sort
import ChronyRs.L5Sources.Registry

/-!
# Falsetickers (`SourceRegistry::select_source`, `sources/combine.rs`)

The two passes of `select_source` that find the falsetickers among the sources that are `Ok`: the
intervals are intersected, and the sources that agree are admitted. Each pass is a definition of its
own, a loop over the indices that changes one source at a time.
-/
namespace ChronyRs.L5.Sources

/-! ## The intersection -/

section
variable {F : Type} [LinearOrder F]

/-- mirrors sources/combine.rs:56-61 -/
inductive EndpointTag where
  | low | high
  deriving DecidableEq, Repr

/-- mirrors sources/combine.rs:64-69 -/
def EndpointTag.order : EndpointTag → Int
  | low => -1
  | high => 1

/-- mirrors sources/combine.rs:74-78 -/
structure SortElement (F : Type) where
  index : Nat
  offset : F
  tag : EndpointTag

/-- mirrors sources/combine.rs:81-90 -/
def compareSortElements (u v : SortElement F) : Ordering :=
  if u.offset < v.offset then .lt
  else if v.offset < u.offset then .gt
  else compare u.tag.order v.tag.order

/-- The ends of the intervals of the sources that are still `Ok`.
mirrors sources/registry.rs:825-837 -/
def sortList (sources : List (SrcInstance F)) : List (SortElement F) :=
  sources.zipIdx.flatMap fun (s, i) =>
    if s.status = .ok then [⟨i, s.selInfo.loLimit, .low⟩, ⟨i, s.selInfo.hiLimit, .high⟩] else []

/-- `sort_by` is stable, and so is insertion. -/
def sortElements (l : List (SortElement F)) : List (SortElement F) :=
  l.insertionSort fun u v => compareSortElements u v ≠ .gt

structure Sweep (F : Type) where
  trustDepth : Int
  bestTrustDepth : Int
  depth : Int
  bestDepth : Int
  bestLo : F
  bestHi : F
  bestTrustLo : F
  bestTrustHi : F

/-- mirrors sources/registry.rs:867-899 -/
def sweepStep (trusted : Nat → Bool) (w : Sweep F) (e : SortElement F) : Sweep F :=
  match e.tag with
  | .low =>
    let depth := w.depth + 1
    let trustDepth := if trusted e.index then w.trustDepth + 1 else w.trustDepth
    if w.bestTrustDepth < trustDepth ∨ (trustDepth = w.bestTrustDepth ∧ w.bestDepth < depth) then
      { w with
        depth, trustDepth, bestDepth := depth, bestLo := e.offset
        bestTrustDepth := if w.bestTrustDepth < trustDepth then trustDepth else w.bestTrustDepth
        bestTrustLo := if w.bestTrustDepth < trustDepth then e.offset else w.bestTrustLo }
    else { w with depth, trustDepth }
  | .high =>
    { w with
      bestHi :=
        if w.trustDepth = w.bestTrustDepth ∧ w.depth = w.bestDepth then e.offset else w.bestHi
      bestTrustHi := if w.trustDepth = w.bestTrustDepth then e.offset else w.bestTrustHi
      trustDepth := if trusted e.index then w.trustDepth - 1 else w.trustDepth
      depth := w.depth - 1 }

/-- `self.sources[i].sel_options & SRC_SELECT_TRUST != 0`. -/
def isTrusted (sources : List (SrcInstance F)) (i : Nat) : Bool := sources[i]?.any (·.has trust)

/-- mirrors sources/registry.rs:858-899 -/
def intersect [Zero F] (sources : List (SrcInstance F)) : Sweep F :=
  (sortElements (sortList sources)).foldl (sweepStep (isTrusted sources)) ⟨0, 0, 0, 0, 0, 0, 0, 0⟩

/-- The number of trusted sources that are still `Ok`. -/
def nSelTrustSources (sources : List (SrcInstance F)) : Nat :=
  sources.countP fun s => s.status = .ok && s.has trust

/-- mirrors sources/registry.rs:901-903 -/
def Sweep.noMajority (w : Sweep F) (nSelSources nSelTrustSources : Nat) : Bool :=
  (w.bestTrustDepth = 0 ∧ w.bestDepth ≤ (nSelSources / 2 : Nat)) ∨
    (0 < w.bestTrustDepth ∧ w.bestTrustDepth ≤ (nSelTrustSources / 2 : Nat))

/-! ## Admission -/

/-- The interval contains the best one or lies within it.
mirrors sources/registry.rs:922-924 -/
def Sweep.containsOrWithin (w : Sweep F) (si : SelectInfo F) : Bool :=
  (si.loLimit ≤ w.bestLo ∧ w.bestHi ≤ si.hiLimit) ∨ (w.bestLo ≤ si.loLimit ∧ si.hiLimit ≤ w.bestHi)

/-- mirrors sources/registry.rs:926-929 -/
def Sweep.trusts (w : Sweep F) (s : SrcInstance F) : Bool :=
  w.bestTrustDepth = 0 ∨ s.has trust = true ∨
    (w.bestTrustLo ≤ s.selInfo.loLimit ∧ s.selInfo.hiLimit ≤ w.bestTrustHi)

structure Admitted (F : Type) where
  reg : Registry F
  selSources : List Nat
  selReqSource : Bool

/-- mirrors sources/registry.rs:918-941 -/
def admitStep (w : Sweep F) (a : Admitted F) (i : Nat) : Admitted F :=
  match a.reg.sources[i]? with
  | none => a
  | some s =>
    if s.status ≠ .ok then a
    else if w.containsOrWithin s.selInfo then
      if w.trusts s then
        { a with
          selSources := a.selSources ++ [i]
          selReqSource := if s.has require then false else a.selReqSource }
      else { a with reg := a.reg.markSource i .untrusted }
    else
      { a with
        reg := (a.reg.markSource i .falseticker).update i fun s =>
          { s with reportedFalseticker := true } }

def admitAll (w : Sweep F) (selReqSource : Bool) (r : Registry F) : Admitted F :=
  (List.range r.sources.length).foldl (admitStep w) ⟨r, [], selReqSource⟩

end

end ChronyRs.L5.Sources

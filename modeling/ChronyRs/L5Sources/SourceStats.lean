import ChronyRs.L5Sources.Regress

/-!
# The statistics of a source (`sourcestats.rs`)

The last samples of a source are kept in two groups of ring buffers, of 128 and of 64 entries, which
share one write position. The `n_samples` newest samples are the register; up to as many older ones
behind them (`runs_samples`) only serve the runs test. `do_new_regression` fits a line and drops
the samples that the fit has dropped.

The routines of `regress.rs` are called through `Regress`.
-/
namespace ChronyRs.L5.Sst

open Loop

variable {F : Type} [F64Math F]

/-! ## Types -/

def maxSamplesBuf : Nat := 64
def runsBuf : Nat := maxSamplesBuf * regressRunsRatio

def worstCaseFreqBound : F := F64.lit (2000 / 10 ^ 6)
def worstCaseStddevBound : F := F64.lit 4
def minSkew : F := F64.lit (1 / 10 ^ 12)
def maxSkew : F := F64.lit (10 ^ 2)
def minStddev : F := F64.lit (1 / 10 ^ 9)
def maxAsymmetry : F := F64.lit (1 / 2)
def minAsymmetry : F := F64.lit (45 / 100)
def minAsymmetryRun : Int := 10
def maxAsymmetryRun : Int := 1000
def sdToDistRatio : F := F64.lit (7 / 10)

/-- `f64::MAX` -/
def f64Max : F := F64.lit ((2 ^ 53 - 1) * 2 ^ 971)

def limit (x lo hi : F) : F := if F64.lt x lo then lo else if F64.lt hi x then hi else x

/-- `x.clamp(lo, hi)`, which panics unless `lo <= hi`. -/
def clamp (x lo hi : F) : Rust F :=
  if F64.le lo hi then return limit x lo hi else .error .assertion

/-- `x.max(y)`: a NaN gives way to the other argument. -/
def fmax (x y : F) : F := if F64.lt x y then y else if F64Math.eq x x then x else y

/-- mirrors samplefilt.rs:41-48 -/
structure NtpSample (F : Type) where
  time : F
  offset : F
  peerDelay : F
  peerDispersion : F
  rootDelay : F
  rootDispersion : F
  deriving DecidableEq, Repr

/-- mirrors sourcestats.rs:125-157 -/
structure SourceStats (F : Type) where
  minSamples : Int
  maxSamples : Int
  fixedMinDelay : F
  fixedAsymmetry : F
  nSamples : Int
  runsSamples : Int
  lastSample : Int
  regressionOk : Bool
  bestSingleSample : Int
  minDelaySample : Int
  estimatedOffset : F
  estimatedOffsetSd : F
  offsetTime : F
  nruns : Int
  asymmetryRun : Int
  asymmetry : F
  estimatedFrequency : F
  estimatedFrequencySd : F
  skew : F
  stdDev : F
  sampleTimes : List F
  offsets : List F
  peerDelays : List F
  origOffsets : List F
  peerDispersions : List F
  rootDelays : List F
  rootDispersions : List F
  deriving DecidableEq, Repr

/-- The routines of `regress.rs`. -/
structure Regress (F : Type) where
  findBestRegression : (x y w : List F) → (n m minSamples : Nat) → Rust (Option (BestRegression F))
  findMedian : (x : List F) → Rust F
  multipleRegress : (x1 x2 y : List F) → Rust (Option F)
  tCoef : (dof : Int) → F

namespace SourceStats

/-! ## The register -/

/-- mirrors sourcestats.rs:216-233 -/
def reset (s : SourceStats F) : SourceStats F :=
  { s with
    nSamples := 0
    runsSamples := 0
    lastSample := 0
    regressionOk := false
    bestSingleSample := 0
    minDelaySample := 0
    estimatedFrequency := F64.lit 0
    estimatedFrequencySd := worstCaseFreqBound
    skew := worstCaseFreqBound
    estimatedOffset := F64.lit 0
    estimatedOffsetSd := worstCaseStddevBound
    offsetTime := F64.lit 0
    stdDev := worstCaseStddevBound
    nruns := 0
    asymmetryRun := 0
    asymmetry := F64.lit 0 }

/-- mirrors sourcestats.rs:166-213 -/
def new (minSamples maxSamples : Int) (minDelay asymmetry : F) : SourceStats F :=
  let maxSamples : Int :=
    if maxSamples > 0 then max 1 (min (maxSamplesBuf : Int) maxSamples) else maxSamplesBuf
  let minSamples := max 1 (min maxSamples minSamples)
  let zeros (n : Nat) : List F := List.replicate n (F64.lit 0)
  reset
    { minSamples
      maxSamples
      fixedMinDelay := minDelay
      fixedAsymmetry := asymmetry
      nSamples := 0
      runsSamples := 0
      lastSample := 0
      regressionOk := false
      bestSingleSample := 0
      minDelaySample := 0
      estimatedOffset := F64.lit 0
      estimatedOffsetSd := F64.lit 0
      offsetTime := F64.lit 0
      nruns := 0
      asymmetryRun := 0
      asymmetry := F64.lit 0
      estimatedFrequency := F64.lit 0
      estimatedFrequencySd := F64.lit 0
      skew := F64.lit 0
      stdDev := F64.lit 0
      sampleTimes := zeros runsBuf
      offsets := zeros runsBuf
      peerDelays := zeros runsBuf
      origOffsets := zeros maxSamplesBuf
      peerDispersions := zeros maxSamplesBuf
      rootDelays := zeros maxSamplesBuf
      rootDispersions := zeros maxSamplesBuf }

/-- mirrors sourcestats.rs:242-245 -/
def getRunsbufIndex (s : SourceStats F) (i : Int) : Nat :=
  ((s.lastSample + 2 * runsBuf - s.nSamples + i + 1) % runsBuf).toNat

/-- mirrors sourcestats.rs:248-251 -/
def getBufIndex (s : SourceStats F) (i : Int) : Nat :=
  ((s.lastSample + runsBuf - s.nSamples + i + 1) % maxSamplesBuf).toNat

/-- mirrors sourcestats.rs:310-314 -/
def lesserDelay (s : SourceStats F) (best i : Int) : Rust Int := do
  if F64.lt (← index s.peerDelays (s.getRunsbufIndex i)) (← index s.peerDelays (asUsize best)) then
    return s.getRunsbufIndex i
  else return best

/-- mirrors sourcestats.rs:308-316 -/
def findMinDelaySample (s : SourceStats F) : Rust (SourceStats F) := do
  let minDelaySample ← (intRange (-s.runsSamples + 1) s.nSamples).foldlM s.lesserDelay
    (s.getRunsbufIndex (-s.runsSamples))
  return { s with minDelaySample }

/-- mirrors sourcestats.rs:255-265 -/
def pruneRegister (s : SourceStats F) (newOldest : Int) : Rust (SourceStats F) :=
  if newOldest = 0 then return s
  else
    let nSamples := s.nSamples - newOldest
    let runsSamples := min (s.runsSamples + newOldest) (nSamples * (regressRunsRatio - 1))
    findMinDelaySample { s with nSamples, runsSamples }

/-- A full register loses its oldest sample.
mirrors sourcestats.rs:269-273 -/
def pruneFull (s : SourceStats F) : Rust (SourceStats F) :=
  if s.nSamples > 0 ∧ (s.nSamples = maxSamplesBuf ∨ s.nSamples = s.maxSamples) then
    s.pruneRegister 1
  else return s

/-- A sample that is not newer than the last one discards the history.
mirrors sourcestats.rs:275-278 -/
def discardOutdated (s : SourceStats F) (time : F) : Rust (SourceStats F) :=
  if s.nSamples > 0 then do
    if F64.le time (← index s.sampleTimes (asUsize s.lastSample)) then return s.reset else return s
  else return s

/-- mirrors sourcestats.rs:294-296 -/
def reflectDelay (fixedMinDelay : F) (peerDelays : List F) (n : Nat) : Rust (List F) := do
  let delay ← index peerDelays n
  if F64.lt delay fixedMinDelay then
    store peerDelays n (F64.sub (F64.mul (F64.lit 2) fixedMinDelay) delay)
  else return peerDelays

/-- mirrors sourcestats.rs:298-302 -/
def updateMinDelay (s : SourceStats F) (peerDelays : List F) (n : Nat) : Rust Int :=
  if s.nSamples = 0 then return n
  else do
    if F64.lt (← index peerDelays n) (← index peerDelays (asUsize s.minDelaySample)) then return n
    else return s.minDelaySample

/-- mirrors sourcestats.rs:280-304 -/
def storeSample (s : SourceStats F) (sample : NtpSample F) : Rust (SourceStats F) := do
  let lastSample := (s.lastSample + 1) % runsBuf
  let n := asUsize lastSample
  let m := n % maxSamplesBuf
  let sampleTimes ← store s.sampleTimes n sample.time
  let offsets ← store s.offsets n (F64Math.neg sample.offset)
  let origOffsets ← store s.origOffsets m (F64Math.neg sample.offset)
  let peerDelays ← store s.peerDelays n sample.peerDelay
  let peerDispersions ← store s.peerDispersions m sample.peerDispersion
  let rootDelays ← store s.rootDelays m sample.rootDelay
  let rootDispersions ← store s.rootDispersions m sample.rootDispersion
  let peerDelays ← reflectDelay s.fixedMinDelay peerDelays n
  let minDelaySample ← updateMinDelay s peerDelays n
  return { s with
    lastSample
    sampleTimes
    offsets
    origOffsets
    peerDelays
    peerDispersions
    rootDelays
    rootDispersions
    minDelaySample
    nSamples := s.nSamples + 1 }

/-- mirrors sourcestats.rs:268-305 -/
def accumulateSample (s : SourceStats F) (sample : NtpSample F) : Rust (SourceStats F) := do
  let s ← s.pruneFull
  let s ← s.discardOutdated sample.time
  s.storeSample sample

/-! ## The regression -/

/-- mirrors sourcestats.rs:320-326 -/
def convertToIntervals (s : SourceStats F) (timesBack : List F) : Rust (List F) := do
  let ts ← index s.sampleTimes (asUsize s.lastSample)
  (intRange (-s.runsSamples) s.nSamples).foldlM (fun timesBack i => do
    let t ← index s.sampleTimes (s.getRunsbufIndex i)
    store timesBack (asUsize (i + s.runsSamples)) (F64.sub t ts)) timesBack

/-- mirrors sourcestats.rs:329-346 -/
def findBestSampleIndex (s : SourceStats F) (timesBack : List F) : Rust (SourceStats F) :=
  if s.nSamples = 0 then return s
  else do
    let (best, _) ← (intRange 0 s.nSamples).foldlM (fun (acc : Int × F) i => do
      let j := s.getBufIndex i
      let elapsed := F64Math.neg (← index timesBack (asUsize i))
      let rootDistance := F64.add (F64.add (← index s.rootDispersions j) (F64.mul elapsed s.skew))
        (F64.mul (F64.lit (1 / 2)) (← index s.rootDelays j))
      if F64.lt rootDistance acc.2 then return (i, rootDistance) else return acc) (-1, f64Max)
    return { s with bestSingleSample := best }

/-- mirrors sourcestats.rs:368-372 -/
def countAsymmetry (a : F) (run : Int) : Int :=
  if F64.le a (F64Math.neg minAsymmetry) && decide (run > -maxAsymmetryRun) then run - 1
  else if F64.le minAsymmetry a && decide (run < maxAsymmetryRun) then run + 1
  else run

/-- mirrors sourcestats.rs:351-377 -/
def estimateAsymmetry (R : Regress F) (timesBack offsets delays : List F) (s : SourceStats F) :
    Rust (Bool × SourceStats F) := do
  let a ← R.multipleRegress timesBack delays offsets
  match a.filter fun a => F64.le (F64.lit 0) (F64.mul a (F64.ofInt s.asymmetryRun)) with
  | none => return (false, { s with asymmetry := F64.lit 0, asymmetryRun := 0 })
  | some a =>
    let asymmetryRun := countAsymmetry a s.asymmetryRun
    if |asymmetryRun| < minAsymmetryRun then return (false, { s with asymmetryRun })
    else
      let asymmetry ← clamp a (F64Math.neg maxAsymmetry) maxAsymmetry
      return (true, { s with asymmetryRun, asymmetry })

/-- mirrors sourcestats.rs:623-631 -/
def minRoundTripDelay (s : SourceStats F) : Rust F :=
  if F64.lt (F64.lit 0) s.fixedMinDelay then return s.fixedMinDelay
  else if s.nSamples = 0 then return f64Max
  else index s.peerDelays (asUsize s.minDelaySample)

/-- mirrors sourcestats.rs:390-400 -/
def chooseAsymmetry (R : Regress F) (timesBack offsets delays : List F) (n : Nat)
    (s : SourceStats F) : Rust (Bool × SourceStats F) :=
  if F64.le (F64Math.abs s.fixedAsymmetry) maxAsymmetry then
    return (true, { s with asymmetry := s.fixedAsymmetry })
  else do
    estimateAsymmetry R (← slice timesBack 0 n) (← slice offsets 0 n) delays s

/-- mirrors sourcestats.rs:401-403 -/
def correctOffsets (asymmetry : F) (delays : List F) (n : Nat) (offsets : List F) : Rust (List F) :=
  (List.range n).foldlM (fun offsets i => do
    store offsets i (F64.sub (← index offsets i) (F64.mul asymmetry (← index delays i)))) offsets

/-- mirrors sourcestats.rs:380-404 -/
def correctAsymmetry (R : Regress F) (s : SourceStats F) (timesBack offsets : List F) :
    Rust (SourceStats F × List F) :=
  if F64Math.eq s.fixedAsymmetry (F64.lit 0) then return (s, offsets)
  else do
    let minDelay ← s.minRoundTripDelay
    let n := asUsize (s.runsSamples + s.nSamples)
    let delays ← (List.range n).mapM fun i : Nat => do
      return F64.sub (← index s.peerDelays (s.getRunsbufIndex (i - s.runsSamples))) minDelay
    let (active, s) ← chooseAsymmetry R timesBack offsets delays n s
    if active then return (s, ← correctOffsets s.asymmetry delays n offsets)
    else return (s, offsets)

/-- mirrors sourcestats.rs:423-425 -/
def copyOffsets (s : SourceStats F) (offsets : List F) : Rust (List F) :=
  (intRange (-s.runsSamples) s.nSamples).foldlM (fun offsets i => do
    store offsets (asUsize (i + s.runsSamples)) (← index s.offsets (s.getRunsbufIndex i))) offsets

/-- The distance of each sample, and the least of them.
mirrors sourcestats.rs:426-434 -/
def peerDistances (s : SourceStats F) : Rust (List F × F) :=
  (intRange 0 s.nSamples).foldlM (fun (acc : List F × F) i => do
    let pd := F64.add (F64.mul (F64.lit (1 / 2)) (← index s.peerDelays (s.getRunsbufIndex i)))
      (← index s.peerDispersions (s.getBufIndex i))
    let distances ← store acc.1 (asUsize i) pd
    return (distances, if F64.lt pd acc.2 then pd else acc.2))
    (List.replicate maxSamplesBuf (F64.lit 0), f64Max)

/-- mirrors sourcestats.rs:439-447 -/
def distanceWeights (s : SourceStats F) (peerDistances : List F) (minDistance sd : F)
    (weights : List F) : Rust (List F) :=
  (List.range (asUsize s.nSamples)).foldlM (fun weights i => do
    let pd ← index peerDistances i
    let sdWeight :=
      if F64.lt minDistance pd then
        F64.add (F64.lit 1) (F64.div (F64.sub pd minDistance) sd)
      else F64.lit 1
    store weights (asUsize s.runsSamples + i) (F64.mul sdWeight sdWeight)) weights

/-- The offsets, and the weights of the samples by their distances.
mirrors sourcestats.rs:422-449 -/
def weigh (R : Regress F) (s : SourceStats F) (precision : F) (offsets weights : List F) :
    Rust (List F × List F) :=
  if s.nSamples > 0 then do
    let offsets ← s.copyOffsets offsets
    let (peerDistances, minDistance) ← s.peerDistances
    let medianDistance ← R.findMedian (← slice peerDistances 0 (asUsize s.nSamples))
    let sd ← clamp (F64.div (F64.sub medianDistance minDistance) sdToDistRatio)
        precision minDistance
    let weights ← s.distanceWeights peerDistances (F64.add minDistance precision) sd weights
    return (offsets, weights)
  else return (offsets, weights)

/-- The fit over the register and the older samples.
mirrors sourcestats.rs:453-464 -/
def fit (R : Regress F) (s : SourceStats F) (timesBack offsets weights : List F) :
    Rust (Option (BestRegression F)) :=
  if s.nSamples > 0 then do
    let m := asUsize s.runsSamples
    let nn := asUsize s.nSamples
    let total := m + nn
    R.findBestRegression (← slice timesBack 0 total) (← slice offsets 0 total)
      (← slice weights 0 total)
      nn m (asUsize s.minSamples)
  else return none

def lastEntry (s : SourceStats F) (xs : List F) : Rust F :=
  if s.nSamples > 0 then index xs (asUsize s.lastSample) else return F64.lit 0

/-- What is taken over from a fit, or left without one.
mirrors sourcestats.rs:466-490 -/
def takeOver (R : Regress F) (s : SourceStats F) (reg : Option (BestRegression F)) :
    Rust (SourceStats F × Nat) :=
  match reg with
  | some r => do
    let estimatedFrequencySd ← clamp r.sdSlope minSkew maxSkew
    let offsetTime ← index s.sampleTimes (asUsize s.lastSample)
    let skew ← clamp (F64.mul r.sdSlope (R.tCoef r.dof)) minSkew maxSkew
    let timesBackStart := asUsize s.runsSamples + r.newStart
    let s ← pruneRegister
      { s with
        regressionOk := true
        estimatedFrequency := r.slope
        estimatedFrequencySd
        skew
        estimatedOffset := r.intercept
        offsetTime
        estimatedOffsetSd := r.sdIntercept
        stdDev := fmax (F64Math.sqrt r.variance) minStddev
        nruns := r.nRuns } r.newStart
    return (s, timesBackStart)
  | none => do
    let estimatedOffset ← s.lastEntry s.offsets
    let offsetTime ← s.lastEntry s.sampleTimes
    return ({ s with
      regressionOk := false
      estimatedFrequencySd := worstCaseFreqBound
      skew := worstCaseFreqBound
      estimatedOffsetSd := worstCaseStddevBound
      stdDev := worstCaseStddevBound
      nruns := 0
      estimatedOffset
      offsetTime }, 0)

/-- The elapsed times and the fit, and the statistics with their asymmetry.
mirrors sourcestats.rs:408-464 -/
def fitRegister (R : Regress F) (s : SourceStats F) (precision : F) :
    Rust (SourceStats F × List F × Option (BestRegression F)) := do
  let zeros : List F := List.replicate runsBuf (F64.lit 0)
  let timesBack ← s.convertToIntervals zeros
  let (offsets, weights) ← weigh R s precision zeros zeros
  let (s, offsets) ← correctAsymmetry R s timesBack offsets
  let reg ← fit R s timesBack offsets weights
  return (s, timesBack, reg)

/-- mirrors sourcestats.rs:408-496 -/
def doNewRegression (R : Regress F) (s : SourceStats F) (precision : F) : Rust (SourceStats F) := do
  let (s, timesBack, reg) ← fitRegister R s precision
  let (s, timesBackStart) ← takeOver R s reg
  let tb ← slice timesBack timesBackStart timesBack.length
  s.findBestSampleIndex tb

end SourceStats

end ChronyRs.L5.Sst

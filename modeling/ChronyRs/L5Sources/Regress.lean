import ChronyRs.Core.F64
import ChronyRs.Core.Loop

/-!
# The robust line fit (`regress.rs`)

`find_best_regression` fits a line to the samples and, as long as the signs of the residuals do not
change often enough, drops the oldest sample and fits again.

* `findBestRegression_keeps`: it never drops more samples than the caller allows, nor goes below
  three.
-/
namespace ChronyRs.L5.Sst

open Loop

variable {F : Type} [F64Math F]

def regressRunsRatio : Nat := 2
def minSamplesForRegress : Nat := 3
def maxPoints : Nat := 64

/-- mirrors regress.rs:311-318 -/
def criticalRuns : List Int := [
  0, 0, 0, 0, 0, 0, 0, 0, 2, 3, 3, 3, 4, 4, 5, 5, 5, 6, 6, 7, 7, 7, 8, 8, 9, 9, 9, 10, 10, 11,
  11, 11, 12, 12, 13, 13, 14, 14, 14, 15, 15, 16, 16, 17, 17, 18, 18, 18, 19, 19, 20, 20, 21, 21,
  21, 22, 22, 23, 23, 24, 24, 25, 25, 26, 26, 26, 27, 27, 28, 28, 29, 29, 30, 30, 30, 31, 31, 32,
  32, 33, 33, 34, 34, 35, 35, 35, 36, 36, 37, 37, 38, 38, 39, 39, 40, 40, 40, 41, 41, 42, 42, 43,
  43, 44, 44, 45, 45, 46, 46, 46, 47, 47, 48, 48, 49, 49, 50, 50, 51, 51, 52, 52, 52, 53, 53, 54,
  54, 55, 55, 56]

/-- Both negative or both positive. -/
def sameSign (a b : F) : Bool :=
  (F64.lt a (F64.lit 0) && F64.lt b (F64.lit 0)) || (F64.lt (F64.lit 0) a && F64.lt (F64.lit 0) b)

/-- mirrors regress.rs:322-332 -/
def runsCount : List F → Int
  | a :: b :: rest => (if sameSign a b then 0 else 1) + runsCount (b :: rest)
  | _ => 1

/-- mirrors regress.rs:336-348 -/
structure BestRegression (F : Type) where
  intercept : F
  slope : F
  variance : F
  sdIntercept : F
  sdSlope : F
  newStart : Nat
  nRuns : Int
  dof : Nat
  deriving DecidableEq, Repr

/-- What one round of the search leaves for the statistics behind it. -/
structure Fit (F : Type) where
  bigW : F
  u : F
  v : F
  a : F
  b : F
  residStart : Int
  resid : List F

/-- One round: the line through the samples from `start` on, and the residuals, extended back over
the extra samples.
mirrors regress.rs:391-422 -/
def fitFrom (x y w : List F) (n m start : Nat) : Rust (Fit F) := do
  let points := List.range' start (n - start)
  let (bigU, bigW) ← points.foldlM (fun (acc : F × F) (i : Nat) => do
    let xi ← index x (i + m)
    let wi ← index w (i + m)
    return (F64.add acc.1 (F64.div xi wi), F64.add acc.2 (F64.div (F64.lit 1) wi)))
      (F64.lit 0, F64.lit 0)
  let u := F64.div bigU bigW
  let (p, q, v) ← points.foldlM (fun (acc : F × F × F) (i : Nat) => do
    let xi ← index x (i + m)
    let yi ← index y (i + m)
    let wi ← index w (i + m)
    let ui := F64.sub xi u
    return (F64.add acc.1 (F64.div yi wi), F64.add acc.2.1 (F64.div (F64.mul yi ui) wi),
      F64.add acc.2.2 (F64.div (F64.mul ui ui) wi))) (F64.lit 0, F64.lit 0, F64.lit 0)
  let b := F64.div q v
  let a := F64.sub (F64.div p bigW) (F64.mul b u)
  let residStart := max (-(m : Int)) (n - ((n : Int) - start) * regressRunsRatio)
  let resid ← (intRange residStart n).mapM fun i : Int => do
    let xi ← index x (i + m).toNat
    let yi ← index y (i + m).toNat
    return F64.sub (F64.sub yi a) (F64.mul b xi)
  return { bigW, u, v, a, b, residStart, resid }

/-- The first start from which the residuals pass, with its fit and the number of runs.
mirrors regress.rs:391-437 -/
def searchStart (x y w : List F) (n m minSamples : Nat) : Nat → Nat → Rust (Nat × Fit F × Int)
  | 0, _ => .error .fuel
  | fuel + 1, start => do
    let fit ← fitFrom x y w n m start
    let nruns := runsCount fit.resid
    let critical ← index criticalRuns fit.resid.length
    if nruns > critical ∨ n - start ≤ minSamplesForRegress ∨ n - start ≤ minSamples then
      if (start : Int) ≠ fit.residStart then
        -- the runs of the samples that are kept, without the extra ones
        let off := ((start : Int) - fit.residStart).toNat
        let kept ← slice fit.resid off (off + (n - start))
        return (start, fit, runsCount kept)
      else return (start, fit, nruns)
    else searchStart x y w n m minSamples fuel (start + 1)

/-- mirrors regress.rs:358-462 -/
def findBestRegression (x y w : List F) (n m minSamples : Nat) :
    Rust (Option (BestRegression F)) := do
  Rust.assert (x.length = m + n ∧ y.length = m + n ∧ w.length = m + n)
  Rust.assert (n ≤ maxPoints)
  Rust.assert (n * regressRunsRatio < criticalRuns.length)
  if n < minSamplesForRegress then return none
  else
    let (start, fit, nruns) ← searchStart x y w n m minSamples (n + 1) 0
    let ss ← (List.range' start (n - start)).foldlM (fun (ss : F) (i : Nat) => do
      let r ← index fit.resid ((i : Int) - fit.residStart).toNat
      let wi ← index w (i + m)
      return F64.add ss (F64.div (F64.mul r r) wi)) (F64.lit 0)
    let npoints : F := F64.ofInt ((n : Int) - start)
    let ss := F64.div ss (F64.sub npoints (F64.lit 2))
    let sb1 := F64Math.sqrt (F64.div ss fit.v)
    let aa := F64.mul fit.u sb1
    let sb0 := F64Math.sqrt (F64.add (F64.div ss fit.bigW) (F64.mul aa aa))
    let s2 := F64.div (F64.mul ss npoints) fit.bigW
    let dof ← usub (n - start) 2
    return some
      { intercept := fit.a
        slope := fit.b
        variance := s2
        sdIntercept := sb0
        sdSlope := sb1
        newStart := start
        nRuns := nruns
        dof }

/-! ## How many samples are kept -/

/-- The search goes on only while there are more samples than must be kept. -/
theorem searchStart_keeps {x y w : List F} {n m minSamples fuel start : Nat} {r : Nat × Fit F × Int}
    (hstart : start + min n (max 3 minSamples) ≤ n)
    (h : searchStart x y w n m minSamples fuel start = .ok r) :
      r.1 + min n (max 3 minSamples) ≤ n := by
  induction fuel generalizing start with
  | zero => cases h
  | succ fuel ih =>
    rw [searchStart] at h
    obtain ⟨fit, -, h⟩ := bind_eq_ok.1 h
    obtain ⟨critical, -, h⟩ := bind_eq_ok.1 h
    split at h
    · split at h
      · obtain ⟨kept, -, h⟩ := bind_eq_ok.1 h
        cases h
        exact hstart
      · cases h
        exact hstart
    · rename_i hgo
      simp only [not_or, minSamplesForRegress] at hgo
      exact ih (by omega) h

theorem findBestRegression_keeps {x y w : List F} {n m minSamples : Nat} {r : BestRegression F}
    (h : findBestRegression x y w n m minSamples = .ok (some r)) :
    r.newStart + min n (max 3 minSamples) ≤ n := by
  unfold findBestRegression at h
  obtain ⟨-, -, h⟩ := bind_eq_ok.1 h
  obtain ⟨-, -, h⟩ := bind_eq_ok.1 h
  obtain ⟨-, -, h⟩ := bind_eq_ok.1 h
  split at h
  · cases h
  · obtain ⟨⟨start, fit, nruns⟩, hsearch, h⟩ := bind_eq_ok.1 h
    obtain ⟨ss, -, h⟩ := bind_eq_ok.1 h
    obtain ⟨dof, -, h⟩ := bind_eq_ok.1 h
    cases h
    exact searchStart_keeps (by omega) hsearch

end ChronyRs.L5.Sst

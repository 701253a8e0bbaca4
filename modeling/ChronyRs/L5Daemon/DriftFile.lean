import ChronyRs.Core.F64

/-!
# The drift file of the daemon (`chronyd-rs/src/main.rs`, `chrony-rs-io/src/driver.rs`)

The frequency is loaded from the file at the start and saved once after ten minutes and at the exit,
each time through `adjtimex`. The call is a parameter, of which `Kernel` says what its interface
promises.

The file holds the two numbers of its line. Their text, with six decimals, is left out.

* `save_freq`: the frequency of the kernel after a save.
* `run_freq`, `run_file`: the frequency of the kernel and the file after any number of saves.
-/
namespace ChronyRs.L5.DriftFile

/-! ## The kernel -/

/-- mirrors sys_timex.rs:78-93 -/
structure Timex where
  modes : UInt32
  freq : Int := 0
  status : Int := 0
  offset : Int := 0
  deriving DecidableEq, Repr

/-- Of a kernel with the given frequency: what comes back, and the frequency then. -/
abbrev Adjtimex := Timex → Int → Timex × Int

/-- `ADJ_FREQUENCY` in `modes` sets the frequency, and the frequency in force comes back. -/
structure Kernel (adjtimex : Adjtimex) : Prop where
  sets (tx : Timex) (freq : Int) : tx.modes &&& 2 ≠ 0 → (adjtimex tx freq).2 = tx.freq
  returns (tx : Timex) (freq : Int) : (adjtimex tx freq).1.freq = (adjtimex tx freq).2

/-- The frequency of the kernel and the drift file: frequency and skew in ppm. -/
structure State (F : Type) where
  freq : Int
  file : Option (F × F)

/-- The two places that save. -/
inductive Save where
  | periodic | exit
  deriving DecidableEq, Repr

section
variable {F : Type} [F64Math F]

/-- The drift to start with.

mirrors chronyd-rs/main.rs:893-903 -/
def driftFreqPpm (resetDrift path : Bool) (file : Option (F × F)) : F :=
  if resetDrift = false ∧ path = true then
    match file with
    | some (freq, _) => freq
    | none => F64.lit 0
  else F64.lit 0

variable (adjtimex : Adjtimex)

/-- mirrors chronyd-rs/main.rs:1175-1183 -/
def load (resetDrift path : Bool) (s : State F) : State F :=
  let drift := driftFreqPpm resetDrift path s.file
  if F64Math.eq drift (F64.lit 0) then s
  else
    let tx : Timex := { modes := 2, freq := F64Math.toI64 (F64.mul drift (F64.lit 65536)) }
    { s with freq := (adjtimex tx s.freq).2 }

/-- The file is replaced if the file system lets it.

mirrors chrony-rs-io/driver.rs:165-180 -/
def writeDriftFile (writable : Bool) (freqPpm skewPpm : F) (s : State F) : State F :=
  if writable then { s with file := some (freqPpm, skewPpm) } else s

/-- `-(tx.freq as f64) / 65536.0`. -/
def freqPpm (tx : Timex) : F := F64.div (F64Math.neg (F64.ofInt tx.freq)) (F64.lit 65536)

/-- Read the frequency as the saves do, with `modes` 2, and write it.

mirrors chronyd-rs/main.rs:1561-1571, 1786-1792 -/
def readAndWrite (path writable : Bool) (s : State F) : State F :=
  let (tx, freq) := adjtimex { modes := 2 } s.freq
  let s : State F := { s with freq }
  if path then writeDriftFile writable (freqPpm tx) (F64.lit 0) s else s

/-- The periodic save calls `adjtimex` with or without a file, the one at the exit with a file only.

mirrors chronyd-rs/main.rs:1556-1574, 1785-1794 -/
def save (path writable : Bool) : Save → State F → State F
  | .periodic, s => readAndWrite adjtimex path writable s
  | .exit, s => if path then readAndWrite adjtimex path writable s else s

def run (path writable : Bool) (saves : List Save) (s : State F) : State F :=
  saves.foldl (fun s k => save adjtimex path writable k s) s

/-! ## What a save does -/

def Save.calls (path : Bool) : Save → Bool
  | .periodic => true
  | .exit => path

variable {adjtimex} (hK : Kernel adjtimex)
include hK

theorem Kernel.set_zero (freq : Int) :
    (adjtimex { modes := 2 } freq).2 = 0 ∧ (adjtimex { modes := 2 } freq).1.freq = 0 := by
  have h := hK.sets { modes := 2 } freq (by decide)
  exact ⟨h, (hK.returns _ _).trans h⟩

theorem readAndWrite_freq (path writable : Bool) (s : State F) :
    (readAndWrite adjtimex path writable s).freq = 0 := by
  unfold readAndWrite writeDriftFile
  cases path with
  | false => exact (hK.set_zero s.freq).1
  | true =>
    cases writable with
    | false => exact (hK.set_zero s.freq).1
    | true => exact (hK.set_zero s.freq).1

/-- **A save** sets the frequency of the kernel to 0 whenever it asks for it. -/
theorem save_freq (path writable : Bool) (k : Save) (s : State F) :
    (save adjtimex path writable k s).freq = if k.calls path then 0 else s.freq := by
  cases k with
  | periodic => exact readAndWrite_freq hK path writable s
  | exit =>
    cases path with
    | false => rfl
    | true => exact readAndWrite_freq hK true writable s

/-- **Saves** one after the other: the first that asks for the frequency sets it to 0 for good. -/
theorem run_freq (path writable : Bool) (saves : List Save) (s : State F) :
    (run adjtimex path writable saves s).freq =
      if saves.any (Save.calls path) then 0 else s.freq := by
  induction saves generalizing s with
  | nil => rfl
  | cons k saves ih =>
    rw [run, List.foldl_cons]
    refine (ih _).trans ?_
    rw [save_freq hK, List.any_cons]
    cases hk : k.calls path with
    | false => rfl
    | true => simp

/-- What the last of some saves writes does not depend on the frequency of the kernel. -/
theorem run_file (saves : List Save) (k : Save) (s : State F) :
    (run adjtimex true true (saves ++ [k]) s).file =
      some (F64.div (F64Math.neg (F64.ofInt 0)) (F64.lit 65536), F64.lit 0) := by
  rw [run, List.foldl_append, List.foldl_cons,
    List.foldl_nil, ← (hK.set_zero (run adjtimex true true saves s).freq).2]
  cases k with
  | periodic => rfl
  | exit => rfl

end

end ChronyRs.L5.DriftFile

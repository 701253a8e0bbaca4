import ChronyRs.L5Daemon.DriftFile

/-!
# Saving the drift file sets the frequency of the clock to 0 and forgets the drift

Both saves read the frequency with `modes: 0x0002`, which is `ADJ_FREQUENCY`, and leave `freq` at
0. So they set the frequency of the kernel to 0 before they read it, and write 0 whatever the
drift was. Were the frequency only read, the file would still get the drift with the other sign:
`load` sets `drift * 65536` and the saves write `-freq / 65536`.

* `drift_kept_iff`: exactly when a save keeps the frequency, and the file the drift.
* `drift_forgotten`: a drift of 12 ppm.
-/
namespace ChronyRs.Bugs.DriftReset

open L5 DriftFile

variable {F : Type} [F64Math F]

/-- What is asked of the arithmetic: `-0.0 / 65536.0` equals the integer 0 and no other. -/
def ZeroExact (F : Type) [F64Math F] : Prop :=
  ∀ d : Int, F64Math.eq (F64.div (F64Math.neg (F64.ofInt 0)) (F64.lit 65536))
    (F64.ofInt d : F) = true ↔ d = 0

def Holds (d : Int) (file : Option (F × F)) : Prop :=
  ∃ freq skew, file = some (freq, skew) ∧ F64Math.eq freq (F64.ofInt d) = true

/-- **The exact condition.** For every kernel, every frequency of it and any saves one after the
other, the frequency is left unchanged iff it is 0 or none of them asks for it, as the one at the
exit does not without a file. For every stored integer drift, loading it and saving, any number of
times, writes it back iff it is 0. -/
theorem drift_kept_iff {adjtimex : Adjtimex} (hK : Kernel adjtimex) (hF : ZeroExact F)
    (path writable : Bool) (saves : List Save) (k : Save) (s : State F) (d : Int) (skew : F) :
    ((run adjtimex path writable saves s).freq = s.freq ↔
      s.freq = 0 ∨ ∀ k ∈ saves, k.calls path = false) ∧
    (Holds d (run adjtimex true true (saves ++ [k])
        (load adjtimex false true { s with file := some (F64.ofInt d, skew) })).file ↔ d = 0) := by
  constructor
  · rw [run_freq hK]
    cases hc : saves.any (Save.calls path) with
    | true =>
      obtain ⟨k, hk, hcall⟩ := List.any_eq_true.1 hc
      rw [if_pos rfl]
      constructor
      · intro h
        exact .inl h.symm
      · rintro (h | h)
        · exact h.symm
        · rw [h k hk] at hcall
          exact absurd hcall Bool.false_ne_true
    | false =>
      rw [if_neg Bool.false_ne_true]
      refine iff_of_true rfl (.inr ?_)
      intro k hk
      exact Bool.eq_false_iff.2 (List.any_eq_false.1 hc k hk)
  · rw [run_file hK, ← hF d]
    constructor
    · rintro ⟨freq, skew', hfile, heq⟩
      cases hfile
      exact heq
    · intro heq
      exact ⟨_, _, rfl, heq⟩

theorem zeroExact_rat : ZeroExact ℚ := by
  intro d
  simp only [F64Math.eq, F64.div, F64Math.neg, F64.ofInt, F64.lit, decide_eq_true_eq]
  constructor
  · intro h
    have hd : (d : ℚ) = 0 := by simpa using h.symm
    exact_mod_cast hd
  · intro h
    simp [h]

/-- A kernel that keeps its frequency where it is not set. -/
def kernel : Adjtimex := fun tx freq =>
  let freq := if tx.modes &&& 2 ≠ 0 then tx.freq else freq
  ({ tx with freq }, freq)

theorem kernel_lawful : Kernel kernel where
  sets _ _ h := if_pos h
  returns _ _ := rfl

/-- A drift of 0 over a kernel with frequency 0 is kept by the save at the exit. -/
theorem zero_drift_kept :
    (run kernel true true [.exit] (⟨0, none⟩ : State ℚ)).freq = 0 ∧
    Holds 0 (run kernel true true [.exit]
      (load kernel false true (⟨0, some (F64.ofInt 0, 0)⟩ : State ℚ))).file :=
  ⟨(drift_kept_iff kernel_lawful zeroExact_rat true true [.exit] .exit
    ⟨0, none⟩ 0 0).1.2 (.inl rfl),
    (drift_kept_iff kernel_lawful zeroExact_rat true true [] .exit ⟨0, none⟩ 0 0).2.2 rfl⟩

/-- A drift of 12 ppm is loaded as 786432; each save sets the frequency to 0 and writes 0. -/
theorem drift_forgotten :
    (load kernel false true (⟨0, some (12, 0)⟩ : State ℚ)).freq = 786432 ∧
    ∀ k, (save kernel true true k (load kernel false true (⟨0, some (12, 0)⟩ : State ℚ))).freq = 0 ∧
      (save kernel true true k (load kernel false true (⟨0, some (12, 0)⟩ : State ℚ))).file =
        some (0, 0) := by
  refine ⟨by decide +kernel, ?_⟩
  intro k
  cases k with
  | periodic => exact ⟨rfl, by decide +kernel⟩
  | exit => exact ⟨rfl, by decide +kernel⟩

end ChronyRs.Bugs.DriftReset

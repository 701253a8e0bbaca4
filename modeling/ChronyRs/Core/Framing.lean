import Mathlib.Data.List.Basic

/-!
# Self-delimiting frames

An encoder whose encodings can be told apart when they stand one after the other, with its decoder.
Both directions are asked for: the decoder finds what was encoded (`dec_enc`), and accepts nothing
else (`enc_dec`).

`all` decodes as long as it can. It splits every input into the encodings of some frames and a rest
that does not decode (`all_spec`), and this is the only such split (`all_eq`); so an input is a
concatenation of frames iff nothing is left (`all_eq_nil_iff`).
-/
namespace ChronyRs

structure Framing (ρ α : Type) where
  enc : ρ → List α
  dec : List α → Option (ρ × List α)
  dec_enc : ∀ r rest, dec (enc r ++ rest) = some (r, rest)
  enc_dec : ∀ {b r rest}, dec b = some (r, rest) → b = enc r ++ rest
  enc_ne_nil : ∀ r, enc r ≠ []

namespace Framing

variable {ρ α : Type} (F : Framing ρ α)

def encAll (rs : List ρ) : List α := (rs.map F.enc).flatten

@[simp] theorem encAll_nil : F.encAll [] = [] := rfl

@[simp] theorem encAll_cons (r : ρ) (rs : List ρ) :
    F.encAll (r :: rs) = F.enc r ++ F.encAll rs := rfl

theorem encAll_append (rs ts : List ρ) : F.encAll (rs ++ ts) = F.encAll rs ++ F.encAll ts := by
  simp [encAll]

theorem dec_length_lt {b rest : List α} {r : ρ} (h : F.dec b = some (r, rest)) :
    rest.length < b.length := by
  have hpos := List.length_pos_iff.2 (F.enc_ne_nil r)
  rw [F.enc_dec h, List.length_append]
  omega

theorem dec_nil : F.dec [] = none := by
  cases h : F.dec [] with
  | none => rfl
  | some p => exact absurd (F.dec_length_lt (r := p.1) h) (Nat.not_lt_zero _)

/-- All frames up to the first place where nothing decodes, and what stands there. -/
def all (b : List α) : List ρ × List α :=
  match h : F.dec b with
  | none => ([], b)
  | some (r, rest) =>
    have := F.dec_length_lt h
    (r :: (all rest).1, (all rest).2)
termination_by b.length

theorem all_of_none {b : List α} (h : F.dec b = none) : F.all b = ([], b) := by
  rw [all]
  split
  · rfl
  · rename_i heq
    rw [h] at heq
    cases heq

theorem all_of_some {b rest : List α} {r : ρ} (h : F.dec b = some (r, rest)) :
    F.all b = (r :: (F.all rest).1, (F.all rest).2) := by
  rw [all]
  split
  · rename_i heq
    rw [h] at heq
    cases heq
  · rename_i heq
    rw [h] at heq
    cases heq
    rfl

/-- The frames and the rest make up the input, and the rest does not decode. -/
theorem all_spec (b : List α) : b = F.encAll (F.all b).1 ++ (F.all b).2 ∧
    F.dec (F.all b).2 = none := by
  induction hk : b.length using Nat.strongRecOn generalizing b with
  | _ k ih =>
    cases h : F.dec b with
    | none =>
      rw [F.all_of_none h]
      exact ⟨rfl, h⟩
    | some p =>
      obtain ⟨r, rest⟩ := p
      obtain ⟨hb, hnone⟩ := ih rest.length (hk ▸ F.dec_length_lt h) rest rfl
      rw [F.all_of_some h, encAll_cons, List.append_assoc, ← hb]
      exact ⟨F.enc_dec h, hnone⟩

/-- There is no other way to read the input. -/
theorem all_eq (rs : List ρ) {tail : List α} (h : F.dec tail = none) :
    F.all (F.encAll rs ++ tail) = (rs, tail) := by
  induction rs with
  | nil => exact F.all_of_none h
  | cons r rs ih => rw [encAll_cons, List.append_assoc, F.all_of_some (F.dec_enc r _), ih]

theorem all_eq_nil_iff {b : List α} {rs : List ρ} : F.all b = (rs, []) ↔ b = F.encAll rs := by
  constructor
  · intro h
    have hb := (F.all_spec b).1
    rwa [h, List.append_nil] at hb
  · rintro rfl
    have h := F.all_eq rs F.dec_nil
    rwa [List.append_nil] at h

theorem encAll_length_le (rs : List ρ) : rs.length ≤ (F.encAll rs).length := by
  induction rs with
  | nil => exact Nat.le_refl _
  | cons r rs ih =>
    have hpos := List.length_pos_iff.2 (F.enc_ne_nil r)
    rw [encAll_cons, List.length_append, List.length_cons]
    omega

end Framing

end ChronyRs

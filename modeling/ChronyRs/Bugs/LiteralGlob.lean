import ChronyRs.L5Daemon.Include

/-!
# Include patterns match names they should not

Two cases go wrong in `simple_glob_match`. The part of a pattern without a star only has to stand at
the beginning of the name, and what is left of the name is not looked at: `include chrony.conf` also
includes `chrony.conf.bak`. And a question mark is looked for as the character it is, although the
comment promises that it stands for any.

* `globMatch_iff`: exactly when the answer is right.
* `bare_pattern_extends`: a name that is longer than the pattern matches.

Fix: compare a single part with the whole name, and compare parts character by character.
-/
namespace ChronyRs.Bugs.LiteralGlob

open L5 L5.Include

/-- **When the answer is right.** For every pattern and every name: the pattern has a star or does
not stand at the beginning of a longer name, and a name that matches does so with every question
mark of the pattern on a question mark. -/
theorem globMatch_iff (pattern name : Str) :
    (simpleGlobMatch pattern name = true ↔ Include.Matches Wild pattern name) ↔
      ('*' ∈ pattern ∨ ¬ (pattern <+: name ∧ pattern ≠ name)) ∧
        (Include.Matches Wild pattern name → Literal pattern name) := by
  by_cases hstar : '*' ∈ pattern
  · rw [globMatch_literal hstar]
    exact ⟨fun h => ⟨.inl hstar, h.2⟩, fun h => ⟨Include.Matches.wild, h.2⟩⟩
  · rw [globMatch_bare hstar, literal_iff_eq hstar, or_iff_right hstar, not_and, not_not]
    constructor
    · intro h
      -- a name that matches has the length of the pattern
      have heq : pattern <+: name → pattern = name := fun hpre =>
        hpre.eq_of_length ((h.1 hpre).length_eq hstar).symm
      exact ⟨heq, fun hm => (heq (h.2 hm)).symm⟩
    · rintro ⟨hlong, hwild⟩
      constructor
      · intro hpre
        exact Include.Matches.wild ((literal_iff_eq hstar).2 (hlong hpre).symm)
      · intro hm
        exact hwild hm ▸ List.prefix_rfl

/-- **The name goes on behind the pattern**, and a question mark does not match a letter. -/
theorem bare_pattern_extends :
    (simpleGlobMatch "a.conf".toList "a.conf.bak".toList = true ∧
      ¬ Include.Matches Wild "a.conf".toList "a.conf.bak".toList) ∧
      simpleGlobMatch "?".toList "a".toList = false ∧
        Include.Matches Wild "?".toList "a".toList := by
  refine ⟨⟨by decide, fun h => ?_⟩, by decide, .one (by decide) (.inl rfl) .nil⟩
  exact absurd (h.length_eq (by decide)) (by decide)

end ChronyRs.Bugs.LiteralGlob

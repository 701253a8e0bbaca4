import ChronyRs.Core.Text

/-!
# Include patterns (`main.rs`)

`simple_glob_match` splits the pattern at its stars and looks for the parts in the name, from left
to right.

* `globMatch_literal`: with a star in the pattern it finds the names that match the characters as
  they stand.
* `globMatch_bare`: without one, it finds the names that begin with the pattern.
-/
namespace ChronyRs.L5.Include

/-- `str::find`: where the part stands first. -/
def find (part : Str) : Str → Option Nat
  | [] => if part = [] then some 0 else none
  | c :: s => if part <+: c :: s then some 0 else (find part s).map (· + 1)

/-- The loop over the parts; `last` is the index of the last one. -/
def matchParts (last : Nat) : Nat → List Str → Str → Bool
  | _, [], _ => true
  | idx, part :: parts, remaining =>
    if part = [] then matchParts last (idx + 1) parts remaining
    else if idx = 0 then
      if part <+: remaining then matchParts last (idx + 1) parts (remaining.drop part.length)
      else false
    else if idx = last then
      if part <:+ remaining then
        matchParts last (idx + 1) parts (remaining.take (remaining.length - part.length))
      else false
    else match find part remaining with
      | some pos => matchParts last (idx + 1) parts (remaining.drop (pos + part.length))
      | none => false

/-- mirrors chronyd-rs/main.rs:2625-2650 -/
def simpleGlobMatch (pattern name : Str) : Bool :=
  let patParts := pattern.splitOnP (· == '*')
  matchParts (patParts.length - 1) 0 patParts name

/-! ## What patterns mean -/

/-- The whole name matches the pattern: a star stands for any sequence, and every other character
for one character that it stands for. -/
inductive Matches (standsFor : Char → Char → Prop) : Str → Str → Prop
  | nil : Matches standsFor [] []
  | star {p t : Str} (s : Str) : Matches standsFor p t → Matches standsFor ('*' :: p) (s ++ t)
  | one {p t : Str} {c d : Char} : c ≠ '*' → standsFor c d → Matches standsFor p t →
      Matches standsFor (c :: p) (d :: t)

/-- A question mark stands for any character, every other character for itself. -/
def Wild (c d : Char) : Prop := c = '?' ∨ c = d

/-- Names that match a pattern of characters that mean themselves. -/
def Literal : Str → Str → Prop := Matches Eq

variable {standsFor : Char → Char → Prop} {a p s t : Str}

theorem matches_star : Matches standsFor ('*' :: p) t ↔ ∃ x y, t = x ++ y ∧
    Matches standsFor p y := by
  constructor
  · intro h
    cases h with
    | star x hy => exact ⟨x, _, rfl, hy⟩
    | one hc => exact absurd rfl hc
  · rintro ⟨x, y, rfl, hy⟩
    exact .star x hy

/-- What a star matches may begin earlier. -/
theorem Matches.prepend (h : Matches standsFor ('*' :: p) t) (x : Str) :
    Matches standsFor ('*' :: p) (x ++ t) := by
  obtain ⟨y, z, rfl, hz⟩ := matches_star.1 h
  exact matches_star.2 ⟨x ++ y, z, (List.append_assoc x y z).symm, hz⟩

theorem matches_star_star : Matches standsFor ('*' :: '*' :: p) t ↔
    Matches standsFor ('*' :: p) t := by
  rw [matches_star]
  constructor
  · rintro ⟨x, y, rfl, hy⟩
    exact hy.prepend x
  · intro h
    exact ⟨[], t, rfl, h⟩

/-- A part without a star stands at the beginning. -/
theorem literal_append (ha : '*' ∉ a) : Literal (a ++ p) s ↔ ∃ t, s = a ++ t ∧ Literal p t := by
  induction a generalizing s with
  | nil => simp
  | cons c a ih =>
    have hc : c ≠ '*' := fun h => ha (h ▸ List.mem_cons_self)
    have ha' : '*' ∉ a := fun h => ha (List.mem_cons_of_mem c h)
    constructor
    · intro h
      cases h with
      | star => exact absurd rfl hc
      | one _ hcd h =>
        obtain ⟨t, rfl, ht⟩ := (ih ha').1 h
        exact ⟨t, by rw [hcd, List.cons_append], ht⟩
    · rintro ⟨t, rfl, ht⟩
      exact .one hc rfl ((ih ha').2 ⟨t, rfl, ht⟩)

theorem literal_nil : Literal [] s ↔ s = [] := by
  constructor
  · intro h
    cases h
    rfl
  · rintro rfl
    exact .nil

theorem literal_iff_eq (ha : '*' ∉ a) : Literal a s ↔ s = a := by
  have h := literal_append (p := []) (s := s) ha
  simpa [literal_nil] using h

theorem Matches.wild (h : Literal p s) : Matches Wild p s := by
  induction h with
  | nil => exact .nil
  | star s _ ih => exact .star s ih
  | one hc hcd _ ih => exact .one hc (.inr hcd) ih

theorem Matches.length_eq (h : Matches standsFor p s) (hp : '*' ∉ p) : s.length = p.length := by
  induction h with
  | nil => rfl
  | star => exact absurd List.mem_cons_self hp
  | one _ _ _ ih =>
    rw [List.length_cons, List.length_cons, ih fun h => hp (List.mem_cons_of_mem _ h)]

/-! ## The search -/

theorem find_some {part : Str} {pos : Nat} (h : find part s = some pos) :
    (∃ x, s = x ++ part ++ s.drop (pos + part.length)) ∧
      ∀ x y, s = x ++ part ++ y → y <:+ s.drop (pos + part.length) := by
  induction s generalizing pos with
  | nil =>
    obtain ⟨rfl, rfl⟩ : part = [] ∧ 0 = pos := by simpa [find] using h
    refine ⟨⟨[], rfl⟩, fun x y hxy => ?_⟩
    rw [(List.append_eq_nil_iff.1 hxy.symm).2]
    exact List.nil_suffix
  | cons c s ih =>
    rw [find] at h
    split at h
    · next hpre =>
      obtain ⟨t, ht⟩ := hpre
      cases h
      rw [Nat.zero_add, ← ht, List.drop_left]
      refine ⟨⟨[], rfl⟩, fun x y hxy => ?_⟩
      -- both are what is left at the end, and this one is the longer
      refine List.suffix_of_suffix_length_le ⟨x ++ part, hxy.symm⟩ ⟨part, rfl⟩ ?_
      have hlen := congrArg List.length hxy
      simp only [List.length_append] at hlen
      omega
    · next hpre =>
      obtain ⟨k, hk, rfl⟩ := Option.map_eq_some_iff.1 h
      obtain ⟨⟨x, hx⟩, hmin⟩ := ih hk
      rw [Nat.add_right_comm, List.drop_succ_cons]
      refine ⟨⟨c :: x, congrArg (c :: ·) hx⟩, fun x' y hxy => ?_⟩
      cases x' with
      | nil => exact absurd ⟨y, hxy.symm⟩ hpre
      | cons c' x' =>
        rw [List.cons_append, List.cons_append, List.cons.injEq] at hxy
        exact hmin x' y hxy.2

theorem find_none {part : Str} (h : find part s = none) (x y : Str) : s ≠ x ++ part ++ y := by
  induction s generalizing x with
  | nil =>
    have hpart : part ≠ [] := by simpa [find] using h
    intro hs
    simp_all
  | cons c s ih =>
    rw [find] at h
    split at h
    · cases h
    · next hpre =>
      intro hs
      cases x with
      | nil => exact hpre ⟨y, hs.symm⟩
      | cons c' x =>
        rw [List.cons_append, List.cons_append, List.cons.injEq] at hs
        exact ih (Option.map_eq_none_iff.1 h) x hs.2

/-- **The leftmost place is as good as any**: what follows a part behind a star may as well be
looked for behind its first occurrence. -/
theorem literal_find (ha : '*' ∉ a) {pos : Nat} (h : find a t = some pos) :
    Literal ('*' :: (a ++ '*' :: p)) t ↔ Literal ('*' :: p) (t.drop (pos + a.length)) := by
  obtain ⟨⟨x, hx⟩, hfirst⟩ := find_some h
  constructor
  · intro hm
    obtain ⟨x', y, rfl, hy⟩ := matches_star.1 hm
    obtain ⟨z, rfl, hz⟩ := (literal_append ha).1 hy
    obtain ⟨w, hw⟩ := hfirst x' z (List.append_assoc x' a z).symm
    exact hw ▸ hz.prepend w
  · intro hm
    refine matches_star.2 ⟨x, a ++ t.drop (pos + a.length), ?_, (literal_append ha).2 ⟨_, rfl, hm⟩⟩
    rw [← List.append_assoc, ← hx]

theorem literal_suffix (ha : '*' ∉ a) : Literal ('*' :: a) t ↔ a <:+ t := by
  refine matches_star.trans ⟨?_, ?_⟩
  · rintro ⟨x, y, rfl, hy⟩
    rw [(literal_iff_eq ha).1 hy]
    exact List.suffix_append x a
  · rintro ⟨x, rfl⟩
    exact ⟨x, a, rfl, (literal_iff_eq ha).2 rfl⟩

/-! ## The parts of a pattern -/

/-- A pattern is one part, or a part and a star before the rest. -/
theorem parts_cases (p : Str) : ('*' ∉ p ∧ p.splitOnP (· == '*') = [p]) ∨
    ∃ a b, '*' ∉ a ∧ p = a ++ '*' :: b ∧ p.splitOnP (· == '*') = a :: b.splitOnP (· == '*') := by
  have hfree : ∀ q : Str, '*' ∉ q → ∀ c ∈ q, (c == '*') = false := by
    intro q hq c hc
    exact beq_eq_false_iff_ne.2 fun h => hq (h ▸ hc)
  by_cases hp : '*' ∈ p
  · obtain ⟨a, b, rfl, ha⟩ := List.eq_append_cons_of_mem hp
    exact .inr ⟨a, b, ha, rfl, List.splitOnP_append_cons_of_forall_mem (hfree a ha) '*' rfl b⟩
  · exact .inl ⟨hp, List.splitOnP_eq_singleton (hfree p hp)⟩

/-- The parts behind a star, from any index on. -/
theorem matchParts_star (p t : Str) {last idx : Nat} (h0 : idx ≠ 0)
    (hlast : last + 1 = idx + (p.splitOnP (· == '*')).length) :
    matchParts last idx (p.splitOnP (· == '*')) t = true ↔ Literal ('*' :: p) t := by
  induction hn : p.length using Nat.strong_induction_on generalizing p t idx with
  | _ n ih =>
    obtain ⟨hp, hparts⟩ | ⟨a, b, ha, rfl, hparts⟩ := parts_cases p
    · rw [hparts, List.length_singleton] at hlast
      rw [hparts, matchParts, literal_suffix hp]
      by_cases hnil : p = []
      · rw [if_pos hnil, matchParts, hnil]
        exact iff_of_true rfl List.nil_suffix
      · rw [if_neg hnil, if_neg h0, if_pos (by omega), matchParts]
        exact ⟨fun h => by_contra fun hs => by simp [hs] at h, fun h => if_pos h⟩
    · have hlen := List.length_pos_iff.2 (List.splitOnP_ne_nil (· == '*') b)
      rw [hparts, List.length_cons] at hlast
      have hb : b.length < n := by simp only [← hn, List.length_append, List.length_cons]; omega
      have hrest := fun t => @ih b.length hb b t (idx + 1) (by omega) (by omega) rfl
      rw [hparts, matchParts]
      by_cases hnil : a = []
      · rw [if_pos hnil, hrest, hnil]
        exact matches_star_star.symm
      · rw [if_neg hnil, if_neg h0, if_neg (by omega)]
        cases hf : find a t with
        | some pos => exact (hrest _).trans (literal_find ha hf).symm
        | none =>
          refine iff_of_false Bool.false_ne_true fun hm => ?_
          obtain ⟨x, y, rfl, hy⟩ := matches_star.1 hm
          obtain ⟨z, rfl, -⟩ := (literal_append ha).1 hy
          exact find_none hf x z (List.append_assoc x a z).symm

/-- **With a star** the search finds exactly the names that match the characters as they stand. -/
theorem globMatch_literal {pattern : Str} (h : '*' ∈ pattern) (name : Str) :
    simpleGlobMatch pattern name = true ↔ Literal pattern name := by
  obtain ⟨hp, -⟩ | ⟨a, b, ha, rfl, hparts⟩ := parts_cases pattern
  · exact absurd h hp
  · have hrest := fun t =>
      matchParts_star b t (zero_add 1 ▸ one_ne_zero) (Nat.add_comm (b.splitOnP (· == '*')).length _)
    rw [simpleGlobMatch, hparts, matchParts, List.length_cons, Nat.add_sub_cancel,
      literal_append ha]
    by_cases hnil : a = []
    · rw [if_pos hnil, hrest]
      simp [hnil]
    · rw [if_neg hnil, if_pos rfl]
      constructor
      · intro hm
        split at hm
        · next hpre =>
          obtain ⟨t, rfl⟩ := hpre
          rw [List.drop_left] at hm
          exact ⟨t, rfl, (hrest t).1 hm⟩
        · cases hm
      · rintro ⟨t, rfl, ht⟩
        rw [if_pos (List.prefix_append a t), List.drop_left]
        exact (hrest t).2 ht

/-- **Without a star** every name matches that begins with the pattern. -/
theorem globMatch_bare {pattern : Str} (h : '*' ∉ pattern) (name : Str) :
    simpleGlobMatch pattern name = true ↔ pattern <+: name := by
  obtain ⟨-, hparts⟩ | ⟨a, b, -, rfl, -⟩ := parts_cases pattern
  · rw [simpleGlobMatch, hparts, matchParts]
    by_cases hnil : pattern = []
    · rw [if_pos hnil, hnil, matchParts]
      exact iff_of_true rfl List.nil_prefix
    · rw [if_neg hnil, if_pos rfl, matchParts]
      exact ⟨fun h => by_contra fun hs => by simp [hs] at h, fun h => if_pos h⟩
  · exact absurd (List.mem_append_right a List.mem_cons_self) h

end ChronyRs.L5.Include

import Mathlib.Data.List.Induction

/-!
# Rules that overlay each other

Rules are written one after the other into levels: a rule sets its own level, and a
sweeping one also clears all the levels above it. What counts in the end is the highest
level that is set. `levels` is this process, `decisive` its meaning in terms of the list of
rules: of those that were not swept away later, the one with the highest level, and of
several the latest.

* `top_levels`: the two agree.
-/
namespace ChronyRs.Overlay

structure Rule (β : Type) where
  level : Nat
  sweeping : Bool
  value : β
  deriving DecidableEq, Repr

variable {β : Type}

/-! ## By levels -/

def put (s : Nat → Option (Rule β)) (r : Rule β) : Nat → Option (Rule β) := fun d =>
  if d = r.level then some r else if r.sweeping ∧ r.level < d then none else s d

def levels (rs : List (Rule β)) : Nat → Option (Rule β) := rs.foldl put fun _ => none

/-- What is set at the highest level up to `n`. -/
def top {α : Type} (s : Nat → Option α) : Nat → Option α
  | 0 => s 0
  | n + 1 => (s (n + 1)).or (top s n)

variable {α : Type} {n : Nat} {rs : List (Rule β)} {r : Rule β}

/-- The lowest level counts only if nothing is above it. -/
theorem top_succ (s : Nat → Option α) (n : Nat) :
    top s (n + 1) = (top (fun d => s (d + 1)) n).or (s 0) := by
  induction n with
  | zero => rfl
  | succ n ih =>
    rw [top, ih, ← Option.or_assoc]
    rfl

theorem top_congr {s t : Nat → Option α} (h : ∀ d ≤ n, s d = t d) :
    top s n = top t n := by
  induction n with
  | zero => exact h 0 (Nat.le_refl 0)
  | succ n ih => rw [top, top, h (n + 1) (Nat.le_refl _), ih fun d hd => h d (by omega)]

theorem top_map {γ : Type} (f : α → γ) (s : Nat → Option α) (n : Nat) :
    top (fun d => (s d).map f) n = (top s n).map f := by
  induction n with
  | zero => rfl
  | succ n ih =>
    rw [top, top, ih]
    cases s (n + 1) <;> rfl

/-! ## By rules -/

/-- The rules that no later sweeping rule of a lower level removes. -/
def surviving : List (Rule β) → List (Rule β)
  | [] => []
  | r :: rs =>
    if rs.any fun q => q.sweeping && q.level < r.level then surviving rs else r :: surviving rs

/-- The rule of the highest level, the latest of several. -/
def highest (rs : List (Rule β)) : Option (Rule β) :=
  rs.foldl (fun best r => match best with
    | none => some r
    | some b => if b.level ≤ r.level then some r else some b) none

def decisive (rs : List (Rule β)) : Option (Rule β) := highest (surviving rs)

theorem surviving_snoc (rs : List (Rule β)) (r : Rule β) :
    surviving (rs ++ [r]) =
      (surviving rs).filter (fun q => !(r.sweeping && r.level < q.level)) ++ [r] := by
  induction rs with
  | nil => rfl
  | cons q rs ih =>
    rw [List.cons_append, surviving, surviving, ih, List.any_append]
    cases hq : rs.any fun q' => q'.sweeping && q'.level < q.level with
    | true => simp
    | false =>
      simp only [List.any_cons, List.any_nil, Bool.or_false, Bool.false_or,
        Bool.false_eq_true, if_false]
      cases hr : r.sweeping && r.level < q.level with
      | true => rw [if_pos rfl, List.filter_cons_of_neg (by rw [hr]; decide)]
      | false =>
        rw [if_neg (by decide), List.filter_cons_of_pos (by rw [hr]; decide), List.cons_append]

theorem highest_snoc (rs : List (Rule β)) (r : Rule β) : highest (rs ++ [r]) =
    match highest rs with
    | none => some r
    | some b => if b.level ≤ r.level then some r else some b := by
  rw [highest, List.foldl_append]
  rfl

/-- The latest rule of each level. -/
def latestAt (rs : List (Rule β)) (d : Nat) : Option (Rule β) := (rs.filter (·.level = d)).getLast?

theorem latestAt_level {d : Nat} (h : latestAt rs d = some r) :
    r.level = d := by
  have := List.mem_of_getLast? h
  simpa using (List.mem_filter.1 this).2

theorem latestAt_snoc (rs : List (Rule β)) (r : Rule β) (d : Nat) :
    latestAt (rs ++ [r]) d = if d = r.level then some r else latestAt rs d := by
  unfold latestAt
  rw [List.filter_append]
  by_cases h : d = r.level
  · rw [if_pos h, List.filter_cons_of_pos (by simp [h]), List.filter_nil, List.getLast?_append]
    rfl
  · rw [if_neg h, List.filter_cons_of_neg (by simp [Ne.symm h]), List.filter_nil, List.append_nil]

/-! ## Agreement -/

/-- Setting one level changes the top iff nothing is set above it. -/
theorem top_update {s : Nat → Option (Rule β)} (hs : ∀ d q, s d = some q → q.level = d)
    (r : Rule β) : ∀ {n : Nat}, r.level ≤ n → top (fun d => if d = r.level then some r else s d) n =
      match top s n with
      | none => some r
      | some b => if b.level ≤ r.level then some r else some b := by
  have hlevel : ∀ n b, top s n = some b → b.level ≤ n := by
    intro n
    induction n with
    | zero => exact fun b h => Nat.le_of_eq (hs 0 b h)
    | succ n ih =>
      intro b h
      rw [top] at h
      cases hn : s (n + 1) with
      | none => rw [hn] at h; exact Nat.le_succ_of_le (ih b h)
      | some q =>
        rw [hn] at h
        cases h
        exact Nat.le_of_eq (hs _ _ hn)
  intro n
  induction n with
  | zero =>
    intro hr
    rw [top, top, if_pos (by omega)]
    cases h0 : s 0 with
    | none => rfl
    | some b => dsimp only; rw [if_pos (by have := hs 0 b h0; omega)]
  | succ n ih =>
    intro hr
    rw [top, top]
    by_cases hn : n + 1 = r.level
    · rw [if_pos hn, Option.some_or]
      cases h1 : (s (n + 1)).or (top s n) with
      | none => rfl
      | some b =>
        have hb := hlevel (n + 1) b h1
        dsimp only
        rw [if_pos (by omega)]
    · rw [if_neg hn]
      cases h1 : s (n + 1) with
      | none => rw [Option.none_or, Option.none_or]; exact ih (by omega)
      | some b =>
        have hb := hs _ _ h1
        rw [Option.some_or, Option.some_or]
        dsimp only
        rw [if_neg (by omega)]

theorem top_latestAt (rs : List (Rule β)) (h : ∀ r ∈ rs, r.level ≤ n) :
    top (latestAt rs) n = highest rs := by
  induction rs using List.reverseRecOn with
  | nil =>
    clear h
    induction n with
    | zero => rfl
    | succ n ih => rw [top, ih]; rfl
  | append_singleton rs r ih =>
    have hr := h r (by simp)
    rw [highest_snoc, ← ih fun q hq => h q (by simp [hq]),
      ← top_update (fun d q => latestAt_level) r hr]
    exact top_congr fun d _ => latestAt_snoc rs r d

theorem levels_snoc (rs : List (Rule β)) (r : Rule β) : levels (rs ++ [r]) = put (levels rs) r := by
  rw [levels, List.foldl_append]
  rfl

/-- Each level holds the latest surviving rule. -/
theorem levels_eq_latestAt (rs : List (Rule β)) (d : Nat) :
    levels rs d = latestAt (surviving rs) d := by
  induction rs using List.reverseRecOn with
  | nil => rfl
  | append_singleton rs r ih =>
    rw [levels_snoc, surviving_snoc, latestAt_snoc, put, ih]
    by_cases hd : d = r.level
    · rw [if_pos hd, if_pos hd]
    · rw [if_neg hd, if_neg hd]
      unfold latestAt
      rw [List.filter_filter]
      by_cases hs : r.sweeping = true ∧ r.level < d
      · -- every rule of this level is swept away
        rw [if_pos hs, List.filter_eq_nil_iff.2 fun q _ => ?_]
        · rfl
        · intro h
          simp only [Bool.and_eq_true, decide_eq_true_eq, Bool.not_eq_true', hs.1, Bool.true_and,
            decide_eq_false_iff_not] at h
          omega
      · rw [if_neg hs]
        congr 1
        apply List.filter_congr
        intro q _
        by_cases hq : q.level = d
        · subst hq
          simp only [decide_true, Bool.true_and, Bool.true_eq, Bool.not_eq_true',
            Bool.and_eq_false_imp, decide_eq_false_iff_not]
          exact fun h1 h2 => hs ⟨h1, h2⟩
        · simp [hq]

/-- **Agreement.** The highest level that is set holds the decisive rule. -/
theorem top_levels (h : ∀ r ∈ rs, r.level ≤ n) :
    top (levels rs) n = decisive rs := by
  rw [top_congr fun d _ => levels_eq_latestAt rs d, top_latestAt, decisive]
  intro r hr
  have hsub : ∀ {rs : List (Rule β)}, surviving rs ⊆ rs := by
    intro rs
    induction rs with
    | nil => exact List.Subset.refl _
    | cons q rs ih =>
      rw [surviving]
      split
      · exact List.subset_cons_of_subset _ ih
      · exact List.cons_subset_cons _ ih
  exact h r (hsub hr)

/-! ## The rules that survive -/

/-- A rule survives unless a sweeping rule of a lower level follows it. -/
theorem mem_surviving : r ∈ surviving rs ↔
    ∃ pre post, rs = pre ++ r :: post ∧ ∀ q ∈ post, q.sweeping = true → r.level ≤ q.level := by
  induction rs with
  | nil => simp [surviving]
  | cons q rs ih =>
    have htail : r ∈ surviving rs ↔ ∃ pre post, q :: rs = (q :: pre) ++ r :: post ∧
        ∀ q ∈ post, q.sweeping = true → r.level ≤ q.level := by
      rw [ih]
      simp
    have hhead : (∃ pre post, q :: rs = pre ++ r :: post ∧ ∀ q ∈ post, q.sweeping = true →
        r.level ≤ q.level) ↔
        (q = r ∧ ∀ q ∈ rs, q.sweeping = true → r.level ≤ q.level) ∨ r ∈ surviving rs := by
      rw [htail]
      constructor
      · rintro ⟨pre, post, h, hpost⟩
        cases pre with
        | nil => cases h; exact .inl ⟨rfl, hpost⟩
        | cons p pre => cases h; exact .inr ⟨pre, post, rfl, hpost⟩
      · rintro (⟨rfl, h⟩ | ⟨pre, post, h, hpost⟩)
        · exact ⟨[], rs, rfl, h⟩
        · exact ⟨_, post, h, hpost⟩
    rw [hhead, surviving]
    by_cases hswept : (rs.any fun q' => q'.sweeping && q'.level < q.level) = true
    · rw [if_pos hswept]
      refine ⟨.inr, fun h => h.resolve_left ?_⟩
      rintro ⟨rfl, hkeep⟩
      obtain ⟨q', hq', hlt⟩ := List.any_eq_true.1 hswept
      rw [Bool.and_eq_true, decide_eq_true_eq] at hlt
      have := hkeep q' hq' hlt.1
      omega
    · rw [if_neg hswept, List.mem_cons]
      refine or_congr_left ⟨?_, fun h => h.1.symm⟩
      rintro rfl
      refine ⟨rfl, fun q' hq' hs => Nat.le_of_not_lt fun hlt => hswept ?_⟩
      exact List.any_eq_true.2 ⟨q', hq', by rw [hs, decide_eq_true hlt]; rfl⟩

theorem highest_eq_none (h : highest rs = none) : rs = [] := by
  induction rs using List.reverseRecOn with
  | nil => rfl
  | append_singleton rs r ih =>
    rw [highest_snoc] at h
    cases hb : highest rs with
    | none => rw [hb] at h; cases h
    | some b =>
      rw [hb] at h
      dsimp only at h
      split at h <;> cases h

theorem highest_spec {b : Rule β} (h : highest rs = some b) :
    b ∈ rs ∧ ∀ r ∈ rs, r.level ≤ b.level := by
  induction rs using List.reverseRecOn generalizing b with
  | nil => cases h
  | append_singleton rs r ih =>
    rw [highest_snoc] at h
    cases hb : highest rs with
    | none =>
      rw [hb] at h
      cases h
      rw [highest_eq_none hb]
      simp
    | some q =>
      rw [hb] at h
      dsimp only at h
      obtain ⟨hmem, hle⟩ := ih hb
      split at h <;> cases h
      · rename_i hqr
        refine ⟨by simp, fun p hp => ?_⟩
        rcases List.mem_append.1 hp with hp | hp
        · exact Nat.le_trans (hle p hp) hqr
        · exact Nat.le_of_eq (by rw [List.mem_singleton.1 hp])
      · rename_i hqr
        refine ⟨by simp [hmem], fun p hp => ?_⟩
        rcases List.mem_append.1 hp with hp | hp
        · exact hle p hp
        · rw [List.mem_singleton.1 hp]
          omega

/-- A rule is decisive over those before it unless one of a higher level survives. -/
theorem decisive_snoc (rs : List (Rule β)) (hr : r.sweeping = false) :
    ((∃ b ∈ surviving rs, r.level < b.level) ∧ decisive (rs ++ [r]) = decisive rs) ∨
      ((∀ b ∈ surviving rs, b.level ≤ r.level) ∧ decisive (rs ++ [r]) = some r) := by
  have hkeep : surviving (rs ++ [r]) = surviving rs ++ [r] := by
    rw [surviving_snoc, hr]
    simp
  unfold decisive
  rw [hkeep, highest_snoc]
  cases hb : highest (surviving rs) with
  | none => exact .inr ⟨by simp [highest_eq_none hb], rfl⟩
  | some b =>
    obtain ⟨hmem, hle⟩ := highest_spec hb
    dsimp only
    split
    · rename_i h
      exact .inr ⟨fun q hq => Nat.le_trans (hle q hq) h, rfl⟩
    · rename_i h
      exact .inl ⟨⟨b, hmem, by omega⟩, rfl⟩

/-! ## Changes of the list -/

/-- A rule of the lowest level in front counts only if there is no other. -/
theorem decisive_cons_zero (h : r.level = 0) (rs : List (Rule β)) :
    decisive (r :: rs) = (decisive rs).or (some r) := by
  have hkeep : surviving (r :: rs) = r :: surviving rs := by
    rw [surviving, if_neg]
    simp [h]
  unfold decisive
  rw [hkeep]
  generalize surviving rs = l
  induction l using List.reverseRecOn with
  | nil => rfl
  | append_singleton l q ih =>
    rw [← List.cons_append, highest_snoc, highest_snoc, ih]
    cases highest l with
    | none => simp [h]
    | some b =>
      dsimp only [Option.some_or]
      split <;> rfl

/-- Only the order of the levels counts. -/
theorem decisive_map {f : Nat → Nat} (hf : ∀ a b, f a < f b ↔ a < b) (rs : List (Rule β)) :
    decisive (rs.map fun r => { r with level := f r.level }) =
      (decisive rs).map fun r => { r with level := f r.level } := by
  have hkeep : surviving (rs.map fun r => { r with level := f r.level }) =
      (surviving rs).map fun r => { r with level := f r.level } := by
    induction rs with
    | nil => rfl
    | cons r rs ih =>
      rw [List.map_cons, surviving, surviving, ih, List.any_map]
      simp only [Function.comp_def, hf]
      split <;> rfl
  unfold decisive
  rw [hkeep]
  generalize surviving rs = l
  induction l using List.reverseRecOn with
  | nil => rfl
  | append_singleton l q ih =>
    rw [List.map_append, List.map_singleton, highest_snoc, highest_snoc, ih]
    cases highest l with
    | none => rfl
    | some b =>
      simp only [Option.map_some, ← Nat.not_lt, hf]
      split <;> rfl

end ChronyRs.Overlay

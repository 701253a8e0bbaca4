import ChronyRs.Core.Rust

/-!
# Walking a buffer of variable-length records

Every decoder of length-prefixed records is the same loop:

    while parsed < stop { let Some(r) = parse(parsed) else { return .. };
                          body; parsed += r.length }

`Walker` is what the loop walks over (a record parser, the record's length and
the end offset), `Walker.run` is the loop, with fuel. `Walker.Path a l b` says
that the records `l` tile `[a, b)`, and `steps` folds a loop body over them.

* `run_path`: running over a tiled prefix is folding over its records.
* `run_inv`: the invariant rule of the loop.
* `run_tiled`: over a tiled buffer the loop ends at its end.
* `run_next_iff`, `run_error_iff`: the loop falls through iff the records tile
  `[a, stop)` and the fold goes on to the end; it panics iff it does so at a
  record (or a parse failure) that a tiled prefix leads to.
-/
namespace ChronyRs

/-- What a loop body does: go on with the next record, or return from the
enclosing function. -/
inductive Flow (σ β : Type) where
  | next (s : σ)
  | ret (b : β)
  deriving DecidableEq, Repr

structure Walker (ρ : Type) where
  parse : Int → Rust (Option ρ)
  len : ρ → Int
  stop : Int

namespace Walker

variable {ρ σ β : Type}

/-- The loop. `bad` is what the function returns when a record does not
parse. -/
def run (w : Walker ρ) (bad : σ → β) (body : σ → Int → ρ → Rust (Flow σ β)) :
    Nat → Int → σ → Rust (Flow σ β)
  | 0, _, _ => .error .fuel
  | n + 1, parsed, s =>
    if parsed < w.stop then do
      match ← w.parse parsed with
      | none => return .ret (bad s)
      | some r =>
        match ← body s parsed r with
        | .next s' => run w bad body n (parsed + w.len r) s'
        | .ret b => return .ret b
    else return .next s

/-- The records `l` (each with its offset) tile `[a, b)`. -/
inductive Path (w : Walker ρ) : Int → List (Int × ρ) → Int → Prop
  | nil (a : Int) : Path w a [] a
  | cons {a b : Int} {r : ρ} {l : List (Int × ρ)} (hlt : a < w.stop)
      (hp : w.parse a = .ok (some r)) (ht : Path w (a + w.len r) l b) : Path w a ((a, r) :: l) b

def steps (body : σ → Int → ρ → Rust (Flow σ β)) : σ → List (Int × ρ) → Rust (Flow σ β)
  | s, [] => .ok (.next s)
  | s, (p, r) :: l => do
    match ← body s p r with
    | .next s' => steps body s' l
    | .ret b => return .ret b

/-- Every parsed record has a positive length, so the walk advances. -/
def Progress (w : Walker ρ) : Prop := ∀ p r, w.parse p = .ok (some r) → 1 ≤ w.len r

variable {w : Walker ρ} {bad : σ → β} {body : σ → Int → ρ → Rust (Flow σ β)}

variable {p b : Int} {r : ρ} {l : List (Int × ρ)}

theorem steps_cons_next {s : σ} (s1 : σ) (h : body s p r = .ok (.next s1)) :
    steps body s ((p, r) :: l) = steps body s1 l := by
  simp [steps, h]

/-- A property of the loop state that every body keeps holds at the end. -/
theorem steps_inv (P : σ → Prop) (hb : ∀ s p r s', (p, r) ∈ l → P s →
    body s p r = .ok (.next s') → P s') :
    ∀ {s s1 : σ}, P s → steps body s l = .ok (.next s1) → P s1 := by
  induction l with
  | nil => intro s s1 hp h; simp only [steps, Except.ok.injEq, Flow.next.injEq] at h; rwa [← h]
  | cons x l ih =>
    obtain ⟨p, r⟩ := x
    intro s s1 hp h
    simp only [steps] at h
    obtain ⟨f, hf, h⟩ := bind_eq_ok.1 h
    cases f with
    | next s' =>
      exact ih (fun s p r s' hm => hb s p r s' (List.mem_cons_of_mem _ hm))
        (hb s p r s' List.mem_cons_self hp hf) h
    | ret b => simp at h

/-- A property of the records so far and the loop state. -/
theorem steps_induct (P : List (Int × ρ) → σ → Prop)
    (hb : ∀ l s p r s', P l s → body s p r = .ok (.next s') → P (l ++ [(p, r)]) s') :
    ∀ {l2 l1 : List (Int × ρ)} {s s' : σ}, P l1 s → steps body s l2 = .ok (.next s') →
      P (l1 ++ l2) s' := by
  intro l2
  induction l2 with
  | nil =>
    intro l1 s s' hp h
    simp only [steps, Except.ok.injEq, Flow.next.injEq] at h
    rwa [List.append_nil, ← h]
  | cons x l2 ih =>
    intro l1 s s' hp h
    simp only [steps] at h
    obtain ⟨f, hf, h⟩ := bind_eq_ok.1 h
    cases f with
    | ret _ => cases h
    | next s1 =>
      have := ih (hb _ _ _ _ _ hp hf) h
      rwa [List.append_assoc, List.singleton_append] at this

/-! ## Paths -/

theorem Path.split {a c : Int} {l1 l2 : List (Int × ρ)} (h : w.Path a (l1 ++ l2) c) :
    ∃ b, w.Path a l1 b ∧ w.Path b l2 c := by
  induction l1 generalizing a with
  | nil => exact ⟨a, .nil a, h⟩
  | cons x l1 ih =>
    cases h with
    | cons hlt hp ht =>
      obtain ⟨b, h1, h2⟩ := ih ht
      exact ⟨b, .cons hlt hp h1, h2⟩

theorem Path.le {a : Int} (hw : w.Progress) (h : w.Path a l b) :
    a + l.length ≤ b := by
  induction h with
  | nil => simp
  | cons _ hp _ ih => have := hw _ _ hp; simp only [List.length_cons]; omega

theorem Path.length_le {a : Int} (hw : w.Progress) (h : w.Path a l b) :
    l.length ≤ (w.stop - a).toNat := by
  induction h with
  | nil => simp
  | cons hlt hp _ ih => have := hw _ _ hp; simp only [List.length_cons]; omega

theorem Path.mem {a : Int} (hw : w.Progress) (h : w.Path a l b) (hm : (p, r) ∈ l) :
    a ≤ p ∧ p < w.stop ∧ w.parse p = .ok (some r) ∧ p + w.len r ≤ b := by
  induction h with
  | nil => cases hm
  | cons hlt hp ht ih =>
    rcases List.mem_cons.1 hm with he | hm
    · cases he
      have := ht.le hw
      exact ⟨Int.le_refl _, hlt, hp, by omega⟩
    · obtain ⟨h1, h2⟩ := ih hm
      have := hw _ _ hp
      exact ⟨by omega, h2⟩

/-- A record that reaches the end is the last one, and the only one that does. -/
theorem Path.last {a : Int} (hw : w.Progress) (h : w.Path a l b) (hm : (p, r) ∈ l)
    (he : w.stop ≤ p + w.len r) : ∃ l0, l = l0 ++ [(p, r)] ∧ w.Path a l0 p ∧ b = p + w.len r ∧
      ∀ q r', (q, r') ∈ l0 → q + w.len r' < w.stop := by
  obtain ⟨l0, l1, rfl⟩ := List.append_of_mem hm
  obtain ⟨c, h0, h1⟩ := h.split
  cases h1 with
  | cons hlt hp ht =>
    cases ht with
    | nil =>
      refine ⟨l0, rfl, h0, rfl, fun q r' hq => ?_⟩
      have := (h0.mem hw hq).2.2.2
      omega
    | cons hlt' _ _ => omega

/-- On the way along a path to the end there is a record everywhere. -/
theorem Path.continues {a c : Int} {l1 l2 : List (Int × ρ)} (h1 : w.Path a l1 b)
    (h2 : w.Path a l2 c) (hb : b < w.stop) (hc : w.stop ≤ c) : ∃ r, w.parse b = .ok (some r) := by
  induction h1 generalizing l2 c with
  | nil a =>
    cases h2 with
    | nil => omega
    | cons _ hp => exact ⟨_, hp⟩
  | cons hlt hp _ ih =>
    cases h2 with
    | nil => omega
    | cons _ hp' ht' =>
      rw [hp] at hp'
      cases hp'
      exact ih ht' hb hc

/-! ## The loop over a path -/

variable (bad) in
theorem run_path {a : Int} {s s' : σ} (h : w.Path a l b) (hs : steps body s l = .ok (.next s')) :
    ∀ n, w.run bad body (n + l.length) a s = w.run bad body n b s' := by
  induction h generalizing s with
  | nil a =>
    intro n
    simp only [steps, Except.ok.injEq, Flow.next.injEq] at hs
    rw [hs]; rfl
  | cons hlt hp _ ih =>
    intro n
    simp only [steps] at hs
    obtain ⟨f, hb, hf⟩ := bind_eq_ok.1 hs
    cases f with
    | ret x => simp at hf
    | next s1 =>
      rw [List.length_cons, ← Nat.add_assoc]
      simp only [run, hlt, if_true, hp, ok_bind, hb]
      exact ih hf n

/-- What every body keeps holds at the end of the loop, however it ends. -/
theorem run_inv (P : σ → Prop) (Q : β → Prop) (hbad : ∀ s, P s → Q (bad s))
    (hnext : ∀ s p r s', P s → body s p r = .ok (.next s') → P s')
    (hret : ∀ s p r x, P s → body s p r = .ok (.ret x) → Q x) :
    ∀ n {a : Int} {s : σ} {f : Flow σ β}, P s → w.run bad body n a s = .ok f →
      (∃ s', f = .next s' ∧ P s') ∨ ∃ x, f = .ret x ∧ Q x := by
  intro n
  induction n with
  | zero => intro a s f _ h; cases h
  | succ n ih =>
    intro a s f hp h
    simp only [run] at h
    split at h
    · obtain ⟨o, -, h⟩ := bind_eq_ok.1 h
      cases o with
      | none => cases h; exact .inr ⟨_, rfl, hbad s hp⟩
      | some r =>
        obtain ⟨g, hg, h⟩ := bind_eq_ok.1 h
        cases g with
        | next s' => exact ih (hnext _ _ _ _ hp hg) h
        | ret x => cases h; exact .inr ⟨x, rfl, hret _ _ _ _ hp hg⟩
    · cases h; exact .inl ⟨s, rfl, hp⟩

variable (bad body) in
/-- How a run ends: it falls through, returns early, or panics, at the end of
the records it walked over. -/
theorem run_ends (hw : w.Progress) : ∀ n a (s : σ), (w.stop - a).toNat < n →
    ∃ l b s', w.Path a l b ∧ steps body s l = .ok (.next s') ∧
      ((w.stop ≤ b ∧ w.run bad body n a s = .ok (.next s')) ∨
       (b < w.stop ∧ ∃ e, w.parse b = .error e ∧ w.run bad body n a s = .error e) ∨
       (b < w.stop ∧ w.parse b = .ok none ∧ w.run bad body n a s = .ok (.ret (bad s'))) ∨
       (b < w.stop ∧ ∃ r, w.parse b = .ok (some r) ∧
         ((∃ e, body s' b r = .error e ∧ w.run bad body n a s = .error e) ∨
          ∃ x, body s' b r = .ok (.ret x) ∧ w.run bad body n a s = .ok (.ret x)))) := by
  intro n
  induction n with
  | zero => intro a s h; omega
  | succ n ih =>
    intro a s hn
    by_cases hlt : a < w.stop
    · simp only [run, hlt, if_true]
      cases hp : w.parse a with
      | error e =>
        exact ⟨[], a, s, .nil a, rfl, .inr (.inl ⟨hlt, e, hp, by simp⟩)⟩
      | ok o =>
        cases o with
        | none => exact ⟨[], a, s, .nil a, rfl, .inr (.inr (.inl ⟨hlt, hp, by simp⟩))⟩
        | some r =>
          simp only [ok_bind]
          cases hb : body s a r with
          | error e =>
            exact ⟨[], a, s, .nil a, rfl, .inr (.inr (.inr ⟨hlt, r, hp, .inl ⟨e, hb, by simp⟩⟩))⟩
          | ok f =>
            cases f with
            | ret x =>
              exact ⟨[], a, s, .nil a, rfl,
                .inr (.inr (.inr ⟨hlt, r, hp, .inr ⟨x, hb, by simp⟩⟩))⟩
            | next s1 =>
              have hlen := hw a r hp
              obtain ⟨l, b, s', h1, h2, h3⟩ := ih (a + w.len r) s1 (by omega)
              refine ⟨(a, r) :: l, b, s', .cons hlt hp h1, ?_, h3⟩
              rw [steps_cons_next _ hb]; exact h2
    · refine ⟨[], a, s, .nil a, rfl, .inl ⟨by omega, ?_⟩⟩
      simp [run, hlt]

section
variable (hw : w.Progress) {n : Nat} {a : Int} {s : σ} (hn : (w.stop - a).toNat < n)
include hw hn

variable (bad) in
/-- With enough fuel, a run along a path continues with fuel to spare. -/
theorem run_eq_of_path {b : Int} {l : List (Int × ρ)} {s' : σ} (h : w.Path a l b)
    (hs : steps body s l = .ok (.next s')) :
    ∃ k, w.run bad body n a s = w.run bad body (k + 1) b s' := by
  have hl := h.length_le hw
  refine ⟨n - l.length - 1, ?_⟩
  have := run_path bad h hs (n - l.length - 1 + 1)
  rwa [show n - l.length - 1 + 1 + l.length = n by omega] at this

variable (bad body) in
theorem run_next_iff {s' : σ} : w.run bad body n a s = .ok (.next s') ↔
    ∃ l b, w.Path a l b ∧ w.stop ≤ b ∧ steps body s l = .ok (.next s') := by
  constructor
  · intro h
    obtain ⟨l, b, s1, h1, h2, h3⟩ := run_ends bad body hw n a s hn
    rw [h] at h3
    rcases h3 with ⟨hb, he⟩ | ⟨-, e, -, he⟩ | ⟨-, -, he⟩ | ⟨-, r, -, ⟨e, -, he⟩ | ⟨x, -, he⟩⟩ <;>
      simp only [Except.ok.injEq, Flow.next.injEq, reduceCtorEq] at he
    subst he; exact ⟨l, b, h1, hb, h2⟩
  · rintro ⟨l, b, h1, hb, h2⟩
    obtain ⟨k, hk⟩ := run_eq_of_path bad hw hn h1 h2
    rw [hk]
    simp [run, show ¬ b < w.stop by omega]

/-- Over records that tile the buffer to its end a body that never returns early is never
stopped. -/
theorem run_tiled {b : Int} {l : List (Int × ρ)} {f : Flow σ β} (h : w.Path a l b) (hb : w.stop ≤ b)
    (hbody : ∀ s p r x, body s p r ≠ .ok (.ret x)) (hrun : w.run bad body n a s = .ok f) :
      ∃ s', f = .next s' := by
  obtain ⟨l1, b1, s1, h1, -, h3⟩ := run_ends bad body hw n a s hn
  rw [hrun] at h3
  rcases h3 with ⟨-, he⟩ | ⟨-, e, -, he⟩ | ⟨hlt, hnone, -⟩ | ⟨-, r, -, ⟨e, -, he⟩ | ⟨x, hx, -⟩⟩
  · cases he; exact ⟨_, rfl⟩
  · cases he
  · obtain ⟨r, hr⟩ := h1.continues h hlt hb
    rw [hr] at hnone
    cases hnone
  · cases he
  · exact absurd hx (hbody _ _ _ _)

variable (bad body) in
theorem run_error_iff {e : Panic} : w.run bad body n a s = .error e ↔
    ∃ l b s', w.Path a l b ∧ b < w.stop ∧ steps body s l = .ok (.next s') ∧
      (w.parse b = .error e ∨ ∃ r, w.parse b = .ok (some r) ∧ body s' b r = .error e) := by
  constructor
  · intro h
    obtain ⟨l, b, s1, h1, h2, h3⟩ := run_ends bad body hw n a s hn
    rw [h] at h3
    rcases h3 with ⟨-, he⟩ | ⟨hb, e', hp, he⟩ | ⟨-, -, he⟩ |
      ⟨hb, r, hp, ⟨e', he', he⟩ | ⟨y, -, he⟩⟩ <;>
      simp only [Except.error.injEq, reduceCtorEq] at he
    · subst he; exact ⟨l, b, s1, h1, hb, h2, .inl hp⟩
    · subst he; exact ⟨l, b, s1, h1, hb, h2, .inr ⟨r, hp, he'⟩⟩
  · rintro ⟨l, b, s', h1, hb, h2, h3⟩
    obtain ⟨k, hk⟩ := run_eq_of_path bad hw hn h1 h2
    rw [hk]
    simp only [run, hb, if_true]
    rcases h3 with hp | ⟨r, hp, hr⟩
    · simp [hp]
    · simp [hp, hr]

end

end Walker

end ChronyRs

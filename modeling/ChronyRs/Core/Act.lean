import ChronyRs.Core.Rust

/-!
# Methods that act on a host

`Act σ α` is code that reads and writes a state of type `σ`, returns an `α` or panics. What it
did to the state before a panic stays done, unlike in `StateT σ Rust`.

* `Act.Ends x s Q`: from the state `s`, `x` returns and the result and the new state satisfy `Q`.
  `ends_bind_iff` and its siblings follow the code backwards.
* `Act.Safe J x Q`: `x` stays in `J`, also when it panics, and what it returns satisfies `Q`.
-/
namespace ChronyRs

def Act (σ α : Type) : Type := σ → Rust α × σ

namespace Act

variable {σ α β : Type}

protected def bind (x : Act σ α) (f : α → Act σ β) : Act σ β := fun s =>
  match x s with
  | (.ok a, s') => f a s'
  | (.error e, s') => (.error e, s')

instance : Monad (Act σ) where
  pure a := fun s => (.ok a, s)
  bind := Act.bind

def get : Act σ σ := fun s => (.ok s, s)

def modify (f : σ → σ) : Act σ Unit := fun s => (.ok (), f s)

/-- Code that may panic. -/
def lift (x : Rust α) : Act σ α := fun s => (x, s)

/-- `if c { x }`. -/
def when (c : Prop) [Decidable c] (x : Act σ Unit) : Act σ Unit := if c then x else pure ()

theorem bind_apply (x : Act σ α) (f : α → Act σ β) (s : σ) :
    (x >>= f) s = match x s with
      | (.ok a, s') => f a s'
      | (.error e, s') => (.error e, s') := rfl

theorem pure_apply (a : α) (s : σ) : (pure a : Act σ α) s = (.ok a, s) := rfl

/-! What a call that returned did. -/

theorem pure_eq_ok {a b : α} {s s' : σ} : (pure a : Act σ α) s = (.ok b, s') ↔ a = b ∧ s = s' := by
  simp [pure_apply]

theorem modify_eq_ok {f : σ → σ} {u : Unit} {s s' : σ} : modify f s = (.ok u, s') ↔ f s = s' := by
  simp [modify]

section
variable {f : α → Act σ β} {b : β} {s s' : σ}

theorem bind_eq_ok {x : Act σ α} :
    (x >>= f) s = (.ok b, s') ↔ ∃ a s1, x s = (.ok a, s1) ∧ f a s1 = (.ok b, s') := by
  rw [bind_apply]
  cases hx : x s with
  | mk r s1 => cases r <;> simp

theorem get_bind_eq_ok {f : σ → Act σ β} : (get >>= f) s = (.ok b, s') ↔
    f s s = (.ok b, s') := Iff.rfl

theorem modify_bind_eq_ok {g : σ → σ} {f : Unit → Act σ β} :
    (modify g >>= f) s = (.ok b, s') ↔ f () (g s) = (.ok b, s') := Iff.rfl

theorem lift_bind_eq_ok {x : Rust α} :
    (lift x >>= f) s = (.ok b, s') ↔ ∃ a, x = .ok a ∧ f a s = (.ok b, s') := by
  rw [bind_apply, lift]
  cases x <;> simp

theorem assert_bind_eq_ok {p : Prop} [Decidable p] {f : Unit → Act σ β} :
    (lift (Rust.assert p) >>= f) s = (.ok b, s') ↔ p ∧ f () s = (.ok b, s') := by
  rw [bind_apply, lift, Rust.assert]
  by_cases hp : p <;> simp [hp]

end

theorem discard_eq_ok {x : Act σ α} {s s' : σ} (h : (x >>= fun _ => pure ()) s = (.ok (), s')) :
    ∃ a, x s = (.ok a, s') := by
  obtain ⟨a, s1, hx, h⟩ := bind_eq_ok.1 h
  obtain ⟨-, rfl⟩ := pure_eq_ok.1 h
  exact ⟨a, hx⟩

/-- From `s`, `x` returns in a state that `Q` holds of. -/
def Ends (x : Act σ α) (s : σ) (Q : α → σ → Prop) : Prop := ∃ a s', x s = (.ok a, s') ∧ Q a s'

section
variable {Q : α → σ → Prop} {s : σ}

/-- Code whose outcome is known. -/
theorem ends_of_eq_iff {x : Act σ α} {a : α} {s' : σ} (h : x s = (.ok a, s')) :
    Ends x s Q ↔ Q a s' := by
  constructor
  · rintro ⟨_, _, hx, hq⟩
    rw [h] at hx
    cases hx
    exact hq
  · intro hq
    exact ⟨a, s', h, hq⟩

@[simp] theorem ends_pure_iff {a : α} : Ends (pure a : Act σ α) s Q ↔ Q a s := ends_of_eq_iff rfl

@[simp] theorem ends_modify_iff {Q : Unit → σ → Prop} {f : σ → σ} :
    Ends (modify f) s Q ↔ Q () (f s) :=
  ends_of_eq_iff rfl

@[simp] theorem ends_lift_ok_iff {a : α} : Ends (lift (.ok a) : Act σ α) s Q ↔ Q a s :=
  ends_pure_iff

@[simp] theorem ends_bind_iff {x : Act σ β} {f : β → Act σ α} :
    Ends (x >>= f) s Q ↔ Ends x s fun b s' => Ends (f b) s' Q := by
  constructor
  · rintro ⟨a, s', h, hq⟩
    rw [bind_apply] at h
    cases hx : x s with
    | mk r s1 =>
      rw [hx] at h
      cases r with
      | error e => cases h
      | ok b => exact ⟨b, s1, hx, a, s', h, hq⟩
  · rintro ⟨b, s1, hx, a, s', h, hq⟩
    refine ⟨a, s', ?_, hq⟩
    rw [bind_apply, hx]
    exact h

theorem Ends.mono {x : Act σ α} {Q' : α → σ → Prop} (h : Ends x s Q)
    (hq : ∀ a s', Q a s' → Q' a s') : Ends x s Q' := by
  obtain ⟨a, s', hx, ha⟩ := h
  exact ⟨a, s', hx, hq a s' ha⟩

end

/-! ## Invariants of code that may panic -/

/-- From every state in `J`, `x` ends in a state in `J`, and a result satisfies `Q`. -/
def Safe (J : σ → Prop) (x : Act σ α) (Q : α → Prop) : Prop :=
  ∀ s, J s → J (x s).2 ∧ ∀ a, (x s).1 = .ok a → Q a

section
variable {J : σ → Prop} {Q : α → Prop}

theorem safe_pure {a : α} (h : Q a) : Safe J (pure a) Q := by
  intro s hs
  refine ⟨hs, fun b hb => ?_⟩
  cases hb
  exact h

theorem safe_get : Safe J get J := by
  intro s hs
  refine ⟨hs, fun b hb => ?_⟩
  cases hb
  exact hs

theorem safe_modify {f : σ → σ} (h : ∀ s, J s → J (f s)) : Safe J (modify f) fun _ => True :=
  fun s hs => ⟨h s hs, fun _ _ => trivial⟩

theorem safe_lift (x : Rust α) : Safe J (lift x) fun a => x = .ok a :=
  fun _ hs => ⟨hs, fun _ h => h⟩

theorem Safe.bind {x : Act σ β} {f : β → Act σ α} {P : β → Prop} (hx : Safe J x P)
    (hf : ∀ b, P b → Safe J (f b) Q) : Safe J (x >>= f) Q := by
  intro s hs
  have h1 := hx s hs
  rw [bind_apply]
  cases hr : x s with
  | mk r s1 =>
    rw [hr] at h1
    cases r with
    | error e => exact ⟨h1.1, nofun⟩
    | ok b => exact hf b (h1.2 b rfl) s1 h1.1

theorem safe_ite {c : Prop} [Decidable c] {x y : Act σ α} (hx : c → Safe J x Q)
    (hy : ¬ c → Safe J y Q) : Safe J (if c then x else y) Q := by
  by_cases hc : c
  · rw [if_pos hc]
    exact hx hc
  · rw [if_neg hc]
    exact hy hc

theorem safe_when {c : Prop} [Decidable c] {x : Act σ Unit} (hx : c → Safe J x fun _ => True) :
    Safe J (when c x) fun _ => True :=
  safe_ite hx fun _ => safe_pure trivial

end

/-! ## A record and its host -/

section
variable {S H : Type}

def self : Act (S × H) S := fun s => (.ok s.1, s)

def modifySelf (f : S → S) : Act (S × H) Unit := modify fun s => (f s.1, s.2)

def host (call : H → α × H) : Act (S × H) α := fun s => (.ok (call s.2).1, s.1, (call s.2).2)

variable {s : S × H}

@[simp] theorem ends_self_iff {Q : S → S × H → Prop} : Ends self s Q ↔ Q s.1 s := ends_of_eq_iff rfl

@[simp] theorem ends_modifySelf_iff {f : S → S} {Q : Unit → S × H → Prop} :
    Ends (modifySelf f) s Q ↔ Q () (f s.1, s.2) :=
  ends_modify_iff

@[simp] theorem ends_host_iff {call : H → α × H} {Q : α → S × H → Prop} :
    Ends (host call) s Q ↔ Q (call s.2).1 (s.1, (call s.2).2) :=
  ends_of_eq_iff rfl

end

end Act

end ChronyRs

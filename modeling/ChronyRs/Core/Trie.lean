import ChronyRs.Core.Overlay

/-!
# Tries whose nodes inherit

A node has a state, and may be opened to one child for each letter. The default state
means that the state of the parent counts; children of a node that was not opened, and new
ones, are in the default state. Following a word, the last state that is not the default
decides (`resolve`).

* `stateAt_modify_append`, `stateAt_modify_of_not`: what rewriting the subtree under a word
  does to the states along another word.
* `resolve_eq_top`: the deciding state is the topmost of the levels along the word.
-/
namespace ChronyRs

inductive Trie (ι σ : Type) where
  | leaf (state : σ)
  | node (state : σ) (children : ι → Trie ι σ)

namespace Trie

variable {ι σ : Type} [Inhabited σ]

def state : Trie ι σ → σ
  | .leaf s => s
  | .node s _ => s

def setState (s : σ) : Trie ι σ → Trie ι σ
  | .leaf _ => .leaf s
  | .node _ ch => .node s ch

def close (t : Trie ι σ) : Trie ι σ := .leaf t.state

def child : Trie ι σ → ι → Trie ι σ
  | .leaf _, _ => .leaf default
  | .node _ ch, i => ch i

/-- Open the node and rewrite its children. -/
def mapChildren (f : ι → Trie ι σ → Trie ι σ) (t : Trie ι σ) : Trie ι σ :=
  .node t.state fun i => f i (t.child i)

/-- The state of the node that a word leads to. -/
def stateAt (t : Trie ι σ) : List ι → σ
  | [] => t.state
  | i :: p => stateAt (t.child i) p

/-- The subtree that a word leads to. -/
def sub (t : Trie ι σ) : List ι → Trie ι σ
  | [] => t
  | i :: p => sub (t.child i) p

@[simp] theorem stateAt_nil (t : Trie ι σ) : t.stateAt [] = t.state := rfl

@[simp] theorem stateAt_cons (t : Trie ι σ) (i : ι) (p : List ι) :
    t.stateAt (i :: p) = (t.child i).stateAt p := rfl

omit [Inhabited σ] in
@[simp] theorem state_setState (s : σ) (t : Trie ι σ) : (t.setState s).state = s := by
  cases t <;> rfl

@[simp] theorem child_setState (s : σ) (t : Trie ι σ) (i : ι) :
    (t.setState s).child i = t.child i := by
  cases t <;> rfl

@[simp] theorem child_leaf (s : σ) (i : ι) : (leaf s : Trie ι σ).child i = leaf default := rfl

@[simp] theorem child_mapChildren (f : ι → Trie ι σ → Trie ι σ) (t : Trie ι σ) (i : ι) :
    (t.mapChildren f).child i = f i (t.child i) := rfl

theorem stateAt_leaf_default (p : List ι) : (leaf default : Trie ι σ).stateAt p = default := by
  induction p with
  | nil => rfl
  | cons i p ih => exact ih

/-! ## Rewriting under a word -/

section
variable [DecidableEq ι]

/-- Open the nodes along a word and rewrite the subtree it leads to. -/
def modify (g : Trie ι σ → Trie ι σ) : List ι → Trie ι σ → Trie ι σ
  | [], t => g t
  | i :: p, t => t.mapChildren fun j c => if j = i then modify g p c else c

/-- Below the word, the states are those of the rewritten subtree. -/
theorem stateAt_modify_append (g : Trie ι σ → Trie ι σ) (p q : List ι) (t : Trie ι σ) :
    (modify g p t).stateAt (p ++ q) = (g (t.sub p)).stateAt q := by
  induction p generalizing t with
  | nil => rfl
  | cons i p ih =>
    rw [List.cons_append, stateAt_cons, modify, child_mapChildren, if_pos rfl, ih]
    rfl

theorem stateAt_modify_of_not (g : Trie ι σ → Trie ι σ) {p q : List ι} (h : ¬ p <+: q)
    (t : Trie ι σ) : (modify g p t).stateAt q = t.stateAt q := by
  induction p generalizing q t with
  | nil => exact absurd (List.nil_prefix) h
  | cons i p ih =>
    cases q with
    | nil => rfl
    | cons j q =>
      rw [stateAt_cons, stateAt_cons, modify, child_mapChildren]
      by_cases hj : j = i
      · subst hj
        rw [if_pos rfl]
        exact ih (fun hp => h (List.cons_prefix_cons.2 ⟨rfl, hp⟩)) _
      · rw [if_neg hj]

end

theorem stateAt_sub (t : Trie ι σ) (p q : List ι) : (t.sub p).stateAt q = t.stateAt (p ++ q) := by
  induction p generalizing t with
  | nil => rfl
  | cons i p ih => exact ih _

/-! ## Height -/

/-- No node below level `n`. -/
def Within : Trie ι σ → Nat → Prop
  | .leaf _, _ => True
  | .node _ _, 0 => False
  | .node _ ch, n + 1 => ∀ i, (ch i).Within n

variable {t : Trie ι σ} {n : Nat}

theorem Within.child (h : t.Within (n + 1)) (i : ι) : (t.child i).Within n := by
  cases t with
  | leaf s => trivial
  | node s ch => exact h i

omit [Inhabited σ] in
theorem Within.setState (h : t.Within n) (s : σ) : (t.setState s).Within n := by
  cases t with
  | leaf => trivial
  | node _ ch => cases n <;> exact h

theorem Within.mapChildren (h : t.Within (n + 1)) {f : ι → Trie ι σ → Trie ι σ}
    (hf : ∀ i c, c.Within n → (f i c).Within n) :
    (t.mapChildren f).Within (n + 1) := fun i => hf i _ (h.child i)

theorem Within.modify [DecidableEq ι] {g : Trie ι σ → Trie ι σ}
    (hg : ∀ t : Trie ι σ, t.Within n → (g t).Within n) (p : List ι) (h : t.Within (p.length + n)) :
    (Trie.modify g p t).Within (p.length + n) := by
  induction p generalizing t with
  | nil => rw [List.length_nil, Nat.zero_add] at h ⊢; exact hg t h
  | cons i p ih =>
    rw [List.length_cons, Nat.add_right_comm] at h ⊢
    refine h.mapChildren fun j c hc => ?_
    split
    · exact ih hc
    · exact hc

/-! ## Inheritance -/

section
variable [DecidableEq σ]

/-- A state that is not the default. -/
def explicit (s : σ) : Option σ := if s = default then none else some s

/-- The state that counts at a node, given that of its parent. -/
def inherit (s parent : σ) : σ := (explicit s).getD parent

/-- The state that decides at the end of a word. -/
def resolve (t : Trie ι σ) : List ι → σ → σ
  | [], parent => inherit t.state parent
  | i :: p, parent => resolve (t.child i) p (inherit t.state parent)

theorem resolve_leaf_default (p : List ι) (parent : σ) :
    (leaf default : Trie ι σ).resolve p parent = parent := by
  induction p with
  | nil => simp [resolve, inherit, explicit, state]
  | cons i p ih =>
    rw [resolve, child_leaf]
    have : inherit (leaf default : Trie ι σ).state parent =
        parent := by simp [inherit, explicit, state]
    rw [this, ih]

theorem resolve_leaf (s : σ) (p : List ι) (parent : σ) :
    (leaf s : Trie ι σ).resolve p parent = inherit s parent := by
  cases p with
  | nil => rfl
  | cons i p => rw [resolve, child_leaf, resolve_leaf_default]; rfl

/-- **Inheritance as levels.** -/
theorem resolve_eq_top (t : Trie ι σ) (p : List ι) (parent : σ) : t.resolve p parent =
    (Overlay.top (fun d => explicit (t.stateAt (p.take d))) p.length).getD parent := by
  induction p generalizing t parent with
  | nil => rfl
  | cons i p ih =>
    rw [resolve, ih, List.length_cons, Overlay.top_succ]
    simp only [List.take_succ_cons, stateAt_cons, List.take_zero, stateAt_nil, inherit]
    cases Overlay.top (fun d => explicit ((t.child i).stateAt (p.take d))) p.length <;> simp

/-- A state that comes from neither parent comes from the path. -/
theorem resolve_eq_iff_of_ne {s parent parent' : σ} (h : parent ≠ s) (h' : parent' ≠ s)
    (t : Trie ι σ) (p : List ι) : t.resolve p parent = s ↔ t.resolve p parent' = s := by
  rw [resolve_eq_top, resolve_eq_top]
  cases Overlay.top (fun d => explicit (t.stateAt (p.take d))) p.length with
  | none => exact iff_of_false h h'
  | some q => exact Iff.rfl

end

end Trie

end ChronyRs

import Mathlib.Data.List.Basic
import Mathlib.Data.List.Range
import ChronyRs.Core.Rust

/-!
# Loops over a table

A loop whose body changes the entry it is given and no other: afterwards the table is the image of
the table before, entry by entry (`table_foldl`). Accumulators are followed by an invariant over the
indices that are done (`foldl_invariant`).
-/
namespace ChronyRs.Loop

variable {α σ : Type}

/-- An invariant over the part of the list that is done. -/
theorem foldlM_invariant {β : Type} {body : σ → β → Rust σ} {l : List β} {s : σ}
    (I : List β → σ → Prop) (h0 : I [] s)
    (hstep : ∀ done b rest s, l = done ++ b :: rest → I done s →
      ∃ s', body s b = .ok s' ∧ I (done ++ [b]) s') :
    ∃ s', l.foldlM body s = .ok s' ∧ I l s' := by
  have hgen : ∀ rest done s, l = done ++ rest → I done s → ∃ s', rest.foldlM body s =
      .ok s' ∧ I l s' := by
    intro rest
    induction rest with
    | nil =>
      intro done s hl h
      exact ⟨s, rfl, by rwa [hl, List.append_nil]⟩
    | cons b rest ih =>
      intro done s hl h
      obtain ⟨s1, hb, h1⟩ := hstep done b rest s hl h
      obtain ⟨s', hrun, h'⟩ := ih (done ++ [b]) s1 (by simp [hl]) h1
      exact ⟨s', by rw [List.foldlM_cons, hb, ok_bind, hrun], h'⟩
  exact hgen l [] s rfl h0

theorem foldlM_of_ok {β : Type} {body : σ → β → Rust σ} {f : σ → β → σ} {l : List β}
    (h : ∀ b ∈ l, ∀ s, body s b = .ok (f s b)) (s : σ) : l.foldlM body s = .ok (l.foldl f s) := by
  induction l generalizing s with
  | nil => rfl
  | cons b l ih =>
    rw [List.foldlM_cons, h b List.mem_cons_self, ok_bind]
    exact ih (fun b hb => h b (List.mem_cons_of_mem _ hb)) _

/-- The same for a loop that cannot panic. -/
theorem foldl_invariant {β : Type} {body : σ → β → σ} {l : List β} {s : σ} (I : List β → σ → Prop)
    (h0 : I [] s)
    (hstep : ∀ done b rest s, l = done ++ b :: rest → I done s → I (done ++ [b]) (body s b)) :
    I l (l.foldl body s) := by
  obtain ⟨s', hrun, h⟩ : ∃ s', l.foldlM (fun s b => (.ok (body s b) : Rust σ)) s =
      .ok s' ∧ I l s' :=
    foldlM_invariant I h0 fun done b rest s hl hI => ⟨_, rfl, hstep done b rest s hl hI⟩
  cases (foldlM_of_ok (fun _ _ _ => rfl) s).symm.trans hrun
  exact h

theorem modify_congr {xs : List α} {i : Nat} {f g : α → α} (h : ∀ x, xs[i]? = some x → f x = g x) :
    xs.modify i f = xs.modify i g := by
  refine List.ext_getElem? fun j => ?_
  by_cases hij : i = j
  · subst hij
    rw [List.getElem?_modify_eq, List.getElem?_modify_eq]
    cases hx : xs[i]? with
    | none => rfl
    | some x => exact congrArg some (h x hx)
  · rw [List.getElem?_modify_ne _ _ hij, List.getElem?_modify_ne _ _ hij]

theorem modify_eq_self {xs : List α} {i : Nat} {f : α → α} (h : ∀ x, xs[i]? = some x → f x = x) :
    xs.modify i f = xs := by
  conv_rhs => rw [← List.modify_id i xs]
  exact modify_congr h

/-- Entries changed one after the other, each once. -/
theorem foldl_modify {g : Nat → α → α} {l : List Nat} (hl : l.Nodup) (xs : List α) :
    l.foldl (fun xs i => xs.modify i (g i)) xs =
      xs.mapIdx fun i x => if i ∈ l then g i x else x := by
  induction l generalizing xs with
  | nil => exact List.ext_getElem? fun j => by simp
  | cons k l ih =>
    obtain ⟨hk, hl⟩ := List.nodup_cons.1 hl
    rw [List.foldl_cons, ih hl]
    refine List.ext_getElem? fun j => ?_
    rw [List.getElem?_mapIdx, List.getElem?_mapIdx]
    by_cases hkj : k = j
    · subst hkj
      rw [List.getElem?_modify_eq]
      cases xs[k]? <;> simp [hk]
    · rw [List.getElem?_modify_ne _ _ hkj]
      simp [Ne.symm hkj]

section
variable {t : σ → List α} {body : σ → Nat → σ} {g : Nat → α → α} {I : σ → Prop} {l : List Nat}
  {s : σ}

/-- **The table after the loop.** -/
theorem table_foldl (hI : ∀ s i, I s → I (body s i))
    (hbody : ∀ s i, I s → t (body s i) = (t s).modify i (g i)) (hl : l.Nodup) (hs : I s) :
    I (l.foldl body s) ∧
      t (l.foldl body s) = (t s).mapIdx fun i x => if i ∈ l then g i x else x := by
  rw [← foldl_modify hl]
  clear hl
  induction l generalizing s with
  | nil => exact ⟨hs, rfl⟩
  | cons k l ih =>
    rw [List.foldl_cons, List.foldl_cons, ← hbody s k hs]
    exact ih (hI s k hs)

theorem table_foldl_range (hI : ∀ s i, I s → I (body s i))
    (hbody : ∀ s i, I s → t (body s i) = (t s).modify i (g i)) (hs : I s) :
    I ((List.range (t s).length).foldl body s) ∧
      t ((List.range (t s).length).foldl body s) = (t s).mapIdx g := by
  obtain ⟨hI', htable⟩ := table_foldl hI hbody (List.nodup_range (n := (t s).length)) hs
  refine ⟨hI', htable.trans (List.mapIdx_eq_mapIdx_iff.2 fun i hi => ?_)⟩
  rw [if_pos (List.mem_range.2 hi)]

end

/-! ## Signed ranges -/

/-- `lo..hi` -/
def intRange (lo hi : Int) : List Int := (List.range (hi - lo).toNat).map fun k : Nat => lo + k

theorem mem_intRange {lo hi i : Int} : i ∈ intRange lo hi ↔ lo ≤ i ∧ i < hi := by
  simp only [intRange, List.mem_map, List.mem_range]
  constructor
  · rintro ⟨k, hk, rfl⟩
    omega
  · rintro ⟨hlo, hhi⟩
    exact ⟨(i - lo).toNat, by omega, by omega⟩

end ChronyRs.Loop

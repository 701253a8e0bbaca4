import ChronyRs.Core.Loop
import ChronyRs.L5Sources.Select

/-!
# What the admission does to the table

It changes every source on its own: the table after it is the image of the table before under a
function of the index and the source (`admitEntry`). The rest of the registry stays as it is
(`Frame`).
-/
namespace ChronyRs.L5.Sources

/-! ## Frames -/

section
variable {F : Type} {r r1 r2 : Registry F} {i : Nat}

/-- What a pass leaves alone. Of the host it asks at most to handle the source updated last. -/
structure Frame (r r' : Registry F) : Prop where
  selected : r'.selectedSourceIndex = r.selectedSourceIndex
  last : r'.lastUpdatedInst = r.lastUpdatedInst
  cfg : r'.cfg = r.cfg
  bad : ∀ i, HostCall.nsrHandleBadSource i ∈ r'.calls →
    HostCall.nsrHandleBadSource i ∈ r.calls ∨ (i : Int) = r.lastUpdatedInst

theorem Frame.refl (r : Registry F) : Frame r r := ⟨rfl, rfl, rfl, fun _ h => .inl h⟩

theorem Frame.trans (h1 : Frame r r1) (h2 : Frame r1 r2) : Frame r r2 := by
  refine ⟨h2.selected.trans h1.selected, h2.last.trans h1.last, h2.cfg.trans h1.cfg, fun i hi => ?_⟩
  rcases h2.bad i hi with hi | hi
  · exact h1.bad i hi
  · exact .inr (hi.trans h1.last)

theorem Frame.update (r : Registry F) (i : Nat) (f : SrcInstance F → SrcInstance F) :
    Frame r (r.update i f) :=
  ⟨rfl, rfl, rfl, fun _ h => .inl h⟩

theorem Frame.handleBadSource (h : r.lastUpdatedInst = i) : Frame r (r.handleBadSource i) := by
  unfold Registry.handleBadSource
  split
  · split
    · refine ⟨rfl, rfl, rfl, fun j hj => ?_⟩
      simp only [Registry.call, List.mem_append, List.mem_singleton,
        HostCall.nsrHandleBadSource.injEq] at hj
      rcases hj with hj | rfl
      · exact .inl hj
      · exact .inr h.symm
    · exact .refl r
  · exact .refl r

theorem handleBadSource_sources : (r.handleBadSource i).sources = r.sources := by
  unfold Registry.handleBadSource
  split
  · split <;> rfl
  · rfl

/-! ## Marking -/

/-- A source that is marked; `last` is the index of the source updated last. -/
def markEntry (last : Int) (i : Nat) (status : SrcStatus) (s : SrcInstance F) : SrcInstance F :=
  if last = i then
    { s with status, bad := if s.bad < 2 ^ 31 - 1 ∧ status.isBad = true then s.bad + 1 else 0 }
  else { s with status }

variable {last : Int} {st : SrcStatus} {s : SrcInstance F}

@[simp] theorem markEntry_status : (markEntry last i st s).status = st := by
  unfold markEntry; split <;> rfl

theorem markSource_sources (r : Registry F) (i : Nat) (st : SrcStatus) :
    (r.markSource i st).sources = r.sources.modify i (markEntry r.lastUpdatedInst i st) := by
  unfold Registry.markSource markEntry
  by_cases h : r.lastUpdatedInst = i
  · have h' : (r.update i fun s => { s with status := st }).lastUpdatedInst = i := h
    simp only [h, h', if_true]
    split
    · split
      · rw [handleBadSource_sources]
        exact List.modify_modify_eq _ _ _ _
      · exact List.modify_modify_eq _ _ _ _
    · exact List.modify_modify_eq _ _ _ _
  · have h' : (r.update i fun s => { s with status := st }).lastUpdatedInst ≠ i := h
    simp only [h, h', if_false]
    rfl

theorem markSource_frame (r : Registry F) (i : Nat) (st : SrcStatus) :
    Frame r (r.markSource i st) := by
  unfold Registry.markSource
  dsimp only
  split
  · rename_i h
    split
    · split
      · exact ((Frame.update r i _).trans (.update _ i _)).trans (.handleBadSource h)
      · exact (Frame.update r i _).trans (.update _ i _)
    · exact (Frame.update r i _).trans (.update _ i _)
  · exact .update r i _

/-! ## The sources that are `Ok` -/

/-- The source at an index is `Ok`. -/
def isOk (sources : List (SrcInstance F)) (i : Nat) : Bool := sources[i]?.any (·.status = .ok)

theorem isOk_iff {sources : List (SrcInstance F)} :
    isOk sources i = true ↔ ∃ s, sources[i]? = some s ∧ s.status = .ok := by
  simp [isOk, Option.any_eq_true]

theorem isOk_modify_ne {sources : List (SrcInstance F)} {j : Nat}
    {g : SrcInstance F → SrcInstance F} (h : i ≠ j) :
    isOk (sources.modify i g) j = isOk sources j := by
  rw [isOk, List.getElem?_modify_ne _ _ h, isOk]

end

/-! ## Admission -/

section
variable {F : Type} [LinearOrder F] {r : Registry F} {i : Nat} {s : SrcInstance F}

def admitEntry (w : Sweep F) (last : Int) (i : Nat) (s : SrcInstance F) : SrcInstance F :=
  if s.status ≠ .ok then s
  else if w.containsOrWithin s.selInfo then
    if w.trusts s then s else markEntry last i .untrusted s
  else { markEntry last i .falseticker s with reportedFalseticker := true }

/-- What one step does. -/
theorem admitStep_cases (w : Sweep F) {a : Admitted F} (hs : a.reg.sources[i]? = some s) :
    ∃ reg, Frame a.reg reg ∧ reg.sources = a.reg.sources.modify i
      (admitEntry w a.reg.lastUpdatedInst i) ∧
      (admitStep w a i).reg = reg ∧ (admitStep w a i).selSources =
        if (admitEntry w a.reg.lastUpdatedInst i s).status = .ok then a.selSources ++ [i]
        else a.selSources := by
  have hentry : ∀ g : SrcInstance F → SrcInstance F, g s = admitEntry w a.reg.lastUpdatedInst i s →
      a.reg.sources.modify i g = a.reg.sources.modify i (admitEntry w a.reg.lastUpdatedInst i) := by
    intro g hg
    refine Loop.modify_congr fun s' hs' => ?_
    obtain rfl := Option.some.inj (hs.symm.trans hs')
    exact hg
  have hsame : admitEntry w a.reg.lastUpdatedInst i s = s →
      a.reg.sources = a.reg.sources.modify i (admitEntry w a.reg.lastUpdatedInst i) := by
    intro h
    rw [← hentry id h.symm, List.modify_id]
  simp only [admitStep, hs]
  by_cases h : s.status = .ok
  · by_cases h1 : w.containsOrWithin s.selInfo = true
    · by_cases h2 : w.trusts s = true
      · have he : admitEntry w a.reg.lastUpdatedInst i s = s := by simp [admitEntry, h1, h2]
        refine ⟨a.reg, .refl _, hsame he, ?_, ?_⟩ <;> simp [h, h1, h2, he]
      · have he : admitEntry w a.reg.lastUpdatedInst i s =
            markEntry a.reg.lastUpdatedInst i .untrusted s := by
          simp [admitEntry, h, h1, h2]
        refine ⟨a.reg.markSource i .untrusted, markSource_frame _ i _,
          (markSource_sources _ i _).trans (hentry _ he.symm), ?_, ?_⟩ <;> simp [h, h1, h2, he]
    · have he : admitEntry w a.reg.lastUpdatedInst i s =
          { markEntry a.reg.lastUpdatedInst i .falseticker s with
            reportedFalseticker := true } := by
        simp [admitEntry, h, h1]
      refine ⟨_, (markSource_frame _ i .falseticker).trans
        (.update _ i fun s => { s with reportedFalseticker := true }), ?_, ?_, ?_⟩
      · rw [Registry.update, markSource_sources, List.modify_modify_eq]
        exact hentry _ he.symm
      · simp [h, h1]
      · simp [h, h1, he]
  · have he : admitEntry w a.reg.lastUpdatedInst i s = s := by simp [admitEntry, h]
    refine ⟨a.reg, .refl _, hsame he, ?_, ?_⟩ <;> simp [h, he]

theorem admitStep_spec (w : Sweep F) (a : Admitted F) (i : Nat) :
    Frame a.reg (admitStep w a i).reg ∧
    (admitStep w a i).reg.sources = a.reg.sources.modify i
      (admitEntry w a.reg.lastUpdatedInst i) := by
  cases hs : a.reg.sources[i]? with
  | none =>
    have hsame : admitStep w a i = a := by simp only [admitStep, hs]
    rw [hsame]
    exact ⟨.refl _, (Loop.modify_eq_self fun s hs' => by rw [hs] at hs'; cases hs').symm⟩
  | some s =>
    obtain ⟨reg, hframe, hsources, hreg, -⟩ := admitStep_cases w hs
    rw [hreg]
    exact ⟨hframe, hsources⟩

theorem admitAll_spec (w : Sweep F) (req : Bool) (r : Registry F) : Frame r (admitAll w req r).reg ∧
    (admitAll w req r).reg.sources = r.sources.mapIdx (admitEntry w r.lastUpdatedInst) := by
  refine Loop.table_foldl_range (t := fun a : Admitted F => a.reg.sources)
    (I := fun a => Frame r a.reg)
    (s := ⟨r, [], req⟩) (fun a i h => h.trans (admitStep_spec w a i).1) (fun a i h => ?_) (.refl _)
  rw [(admitStep_spec w a i).2, h.last]

/-- The admitted sources are those that are still `Ok`. -/
theorem admitAll_selSources (w : Sweep F) (req : Bool) (r : Registry F) :
    (admitAll w req r).selSources =
      (List.range r.sources.length).filter (isOk (admitAll w req r).reg.sources) := by
  unfold admitAll
  refine (Loop.foldl_invariant (s := (⟨r, [], req⟩ : Admitted F))
    (fun done a => a.selSources = done.filter (isOk a.reg.sources) ∧
      a.reg.sources.length = r.sources.length)
    ⟨rfl, rfl⟩ ?_).1
  intro done i rest a hl ⟨hsel, hlen⟩
  have hi : i ∉ done := by
    have hnodup := hl ▸ List.nodup_range (n := r.sources.length)
    exact fun hmem => (List.nodup_append.1 hnodup).2.2 i hmem i List.mem_cons_self rfl
  have hlt : i < a.reg.sources.length := by
    rw [hlen, ← List.mem_range, hl]
    exact List.mem_append_right _ List.mem_cons_self
  have hs := List.getElem?_eq_getElem hlt
  obtain ⟨reg, -, hsources, rfl, hstep⟩ := admitStep_cases w hs
  refine ⟨?_, by rw [hsources, List.length_modify, hlen]⟩
  have hold : done.filter (isOk (admitStep w a i).reg.sources) = a.selSources := by
    rw [hsel]
    refine List.filter_congr fun j hj => ?_
    have hij : i ≠ j := fun hij => hi (hij ▸ hj)
    rw [hsources, isOk_modify_ne hij]
  have hnew : isOk (admitStep w a i).reg.sources i =
      decide ((admitEntry w a.reg.lastUpdatedInst i a.reg.sources[i]).status = .ok) := by
    rw [isOk, hsources, List.getElem?_modify_eq, hs]
    rfl
  rw [hstep, List.filter_append, hold, List.filter_singleton, hnew]
  split
  · rename_i h
    rw [decide_eq_true h]
    rfl
  · rename_i h
    rw [decide_eq_false h]
    simp

end

end ChronyRs.L5.Sources

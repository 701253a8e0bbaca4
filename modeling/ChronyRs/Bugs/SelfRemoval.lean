import ChronyRs.L5Daemon.FileHandlers

/-!
# A file handler cannot remove itself

`dispatch_one` takes the handler out of the table while it runs, and the comment there says that it
is put back "unless the handler removed/replaced itself during the call". But the vacant entry looks
to `remove_file_handler` like one that was never registered, so a handler that removes itself fails
the assertion `handler.is_some()`, before it can register another one. And an entry that is vacant
when the handler returns gets the old handler back, for whatever reason it is vacant.

A handler that knows this can replace itself: it adds the new handler first, over its own vacant
entry. It may then remove that one too, as long as it adds another.

* `self_removal_iff`: exactly which calls about its own descriptor a handler can make, if the entry
  is to be left as these calls say.
* `removal_asserts`: a handler of descriptor 3 that removes itself, and one that replaces itself.

Fix: keep a flag in the entry for a handler that is running, which `remove_file_handler` clears and
`dispatch_one` looks at.
-/
namespace ChronyRs.Bugs.SelfRemoval

open L5.Sched L4.Server

variable {F : Type} {s s' : Scheduler F} {fd handler : Nat}

/-- What all methods of the scheduler keep. -/
structure Live (s : Scheduler F) : Prop where
  initialised : s.initialised = true
  fits : s.oneHighestFd ≤ s.fileHandlers.length

theorem lower_returns {table : List FileHandlerEntry} {n : Nat} (h : n ≤ table.length) :
    ∃ top, lower table n = .ok top := by
  induction n with
  | zero => exact ⟨0, rfl⟩
  | succ n ih =>
    rw [lower, index_of_lt h, ok_bind]
    split
    · exact ⟨_, rfl⟩
    · exact ih (Nat.le_of_succ_le h)

theorem addFileHandler_returns_iff {events : Int32} (h : Live s) :
    (∃ s', addFileHandler fd events handler s = (.ok (), s')) ↔
      events ≠ 0 ∧ handlerAt s fd = none := by
  have hlen := lt_length_grown s.fileHandlers fd
  have hat : handlerAt s fd = (List.get _ ⟨fd, hlen⟩).handler := by
    rw [handlerAt, ← handler_append _ (fd + 1 - s.fileHandlers.length),
      List.getElem?_eq_getElem hlen]
    rfl
  simp only [addFileHandler, Act.get_bind_eq_ok, ↓Act.assert_bind_eq_ok, Act.modify_bind_eq_ok,
    index_of_lt hlen, Act.lift_bind_eq_ok, Act.modify_eq_ok, h.initialised, hat]
  simp

theorem removeFileHandler_returns_iff (h : Live s) (hfd : fd < s.fileHandlers.length) :
    (∃ s', removeFileHandler fd s = (.ok (), s')) ↔ handlerAt s fd ≠ none := by
  have hat : handlerAt s fd = s.fileHandlers[fd].handler := by
    rw [handlerAt, List.getElem?_eq_getElem hfd]
    rfl
  obtain ⟨top, htop⟩ : ∃ top, lower (s.fileHandlers.set fd ⟨none, 0⟩) s.oneHighestFd = .ok top :=
    lower_returns (by rw [List.length_set]; exact h.fits)
  simp only [removeFileHandler, Act.get_bind_eq_ok, ↓Act.assert_bind_eq_ok, Act.modify_bind_eq_ok,
    index_of_lt hfd, htop, Act.lift_bind_eq_ok, Act.modify_eq_ok, h.initialised, hat]
  simp [Option.isSome_iff_ne_none]

/-- The calls about `fd` in a list of calls, from an entry on that has a handler or not: additions
and removals alternate, and at the end there is a handler. -/
def Orderly (fd : Nat) : Bool → List (Op F) → Prop
  | registered, [] => registered = true
  | registered, .addFileHandler g events :: ops =>
    if g = fd then (events ≠ 0 ∧ registered = false) ∧ Orderly fd true ops
    else Orderly fd registered ops
  | registered, .removeFileHandler g :: ops =>
    if g = fd then registered = true ∧ Orderly fd false ops else Orderly fd registered ops
  | registered, _ :: ops => Orderly fd registered ops

variable [F64Math F]

theorem Live.op {o : Op F} (h : Live s) (hrun : o.run s = (.ok (), s')) : Live s' :=
  ⟨(Op.bounded hrun).initialised.trans h.initialised, (Op.bounded hrun).fits h.fits⟩

/-- No call about anything else panics. -/
def OthersReturn (fd : Nat) (ops : List (Op F)) (s : Scheduler F) : Prop :=
  ∀ pre o post s1, ops = pre ++ o :: post → runOps pre s = (.ok (), s1) → ¬ o.Touches fd →
    (o.run s1).1 = .ok ()

theorem OthersReturn.tail {o : Op F} {ops : List (Op F)} (h : OthersReturn fd (o :: ops) s)
    (hrun : o.run s = (.ok (), s')) : OthersReturn fd ops s' := by
  rintro pre o' post s1 rfl hpre
  refine h (o :: pre) o' post s1 rfl ?_
  rw [runOps, Act.bind_apply, hrun]
  exact hpre

/-- One call: it fails, or moves the flag. -/
theorem orderly_cons_iff {o : Op F} {ops : List (Op F)} {registered : Bool} (hlive : Live s)
    (hfd : fd < s.fileHandlers.length) (hreg : (handlerAt s fd).isSome = registered)
    (hother : ¬ o.Touches fd → (o.run s).1 = .ok ()) :
    (∃ s1, o.run s = (.ok (), s1)) ∧
        Orderly fd ((o.onTable (handlerAt s, s.boxes)).1 fd).isSome ops ↔
      Orderly fd registered (o :: ops) := by
  by_cases ht : o.Touches fd
  · cases o with
    | addFileHandler g events =>
      obtain rfl : g = fd := ht
      have hbox : Live { s with boxes := s.boxes + 1 } := ⟨hlive.initialised, hlive.fits⟩
      rw [Orderly, if_pos rfl, ← hreg, Option.isSome_eq_false_iff, Option.isNone_iff_eq_none]
      simp only [Op.onTable, Function.update_self, Option.isSome_some]
      exact and_congr (addFileHandler_returns_iff hbox) Iff.rfl
    | removeFileHandler g =>
      obtain rfl : g = fd := ht
      rw [Orderly, if_pos rfl, ← hreg, Option.isSome_iff_ne_none]
      simp only [Op.onTable, Function.update_self, Option.isSome_none]
      exact and_congr (removeFileHandler_returns_iff hlive hfd) Iff.rfl
    | _ => cases ht
  · have hrun : ∃ s1, o.run s = (.ok (), s1) := ⟨_, Prod.ext (hother ht) rfl⟩
    have hkeep : ([o].foldl Op.onTable (handlerAt s, s.boxes)).1 fd = handlerAt s fd :=
      foldl_onTable_apply (by simpa using ht) _
    rw [List.foldl_cons, List.foldl_nil] at hkeep
    rw [and_iff_right hrun, hkeep, hreg]
    cases o with
    | addFileHandler g events => rw [Orderly, if_neg (show ¬ g = fd from ht)]
    | removeFileHandler g => rw [Orderly, if_neg (show ¬ g = fd from ht)]
    | _ => exact Iff.rfl

theorem runOps_orderly_iff {ops : List (Op F)} {registered : Bool} (hlive : Live s)
    (hfd : fd < s.fileHandlers.length) (hreg : (handlerAt s fd).isSome = registered)
    (hothers : OthersReturn fd ops s) :
    (∃ s', runOps ops s = (.ok (), s') ∧ handlerAt s' fd ≠ none) ↔ Orderly fd registered ops := by
  induction ops generalizing s registered with
  | nil =>
    rw [Orderly, ← hreg, Option.isSome_iff_ne_none]
    constructor
    · rintro ⟨_, h, hne⟩
      cases h
      exact hne
    · exact fun h => ⟨s, rfl, h⟩
  | cons o ops ih =>
    -- if the first call returns, the others go on from its state
    have hrest : ∀ s1, o.run s = (.ok (), s1) →
        ((∃ s', runOps ops s1 = (.ok (), s') ∧ handlerAt s' fd ≠ none) ↔
          Orderly fd ((o.onTable (handlerAt s, s.boxes)).1 fd).isSome ops) := by
      intro s1 h1
      refine ih (hlive.op h1) (hfd.trans_le (Op.bounded h1).length_le) ?_ (hothers.tail h1)
      rw [← Op.table h1]
    rw [← orderly_cons_iff hlive hfd hreg (hothers [] o ops s rfl rfl)]
    constructor
    · rintro ⟨s', h, hne⟩
      obtain ⟨s1, h1, h2⟩ := runOps_cons h
      exact ⟨⟨s1, h1⟩, (hrest s1 h1).1 ⟨s', h2, hne⟩⟩
    · rintro ⟨⟨s1, h1⟩, h2⟩
      obtain ⟨s', h2, hne⟩ := (hrest s1 h1).2 h2
      exact ⟨s', Act.bind_eq_ok.2 ⟨(), s1, h1, h2⟩, hne⟩

/-- **What a handler may do to its own descriptor.** For every state of the scheduler, every
descriptor with a handler and all calls that the handler makes, of which those about other things
return: the calls about the descriptor pass their assertions, and when `dispatch_one` returns the
descriptor has what these calls left, if and only if the first of them adds a handler, additions and
removals alternate, and the last one adds a handler. So a handler whose first call about its
descriptor is a removal fails, and after one whose last is a removal the old handler is back. -/
theorem self_removal_iff (hlive : Live s) (hreg : handlerAt s fd = some handler) (ops : List (Op F))
    (hothers : OthersReturn fd ops (vacate fd s)) :
    (∃ s', dispatchOne fd ops s = (.ok (), s') ∧
      handlerAt s' fd = (ops.foldl Op.onTable (handlerAt (vacate fd s), s.boxes)).1 fd) ↔
      Orderly fd false ops := by
  have hvacant : Live (vacate fd s) := by
    refine ⟨hlive.initialised, ?_⟩
    rw [vacate, List.length_modify]
    exact hlive.fits
  have hnone : handlerAt (vacate fd s) fd = none := by rw [handlerAt_vacate, Function.update_self]
  have hfd : fd < (vacate fd s).fileHandlers.length :=
    called_lt hreg (show runOps [] (vacate fd s) = _ from rfl)
  rw [← runOps_orderly_iff hvacant hfd (by rw [hnone]; rfl) hothers]
  simp only [dispatchOne_iff hreg]
  -- the calls left a handler, or a vacant entry that gets the old one
  have hrestore : ∀ s1, runOps ops (vacate fd s) = (.ok (), s1) →
      (handlerAt (restore fd handler s1) fd =
        (ops.foldl Op.onTable (handlerAt (vacate fd s), s.boxes)).1 fd ↔
          handlerAt s1 fd ≠ none) := by
    intro s1 h1
    have htable : handlerAt s1 = (ops.foldl Op.onTable (handlerAt (vacate fd s), s.boxes)).1 :=
      congrArg Prod.fst (runOps_table h1)
    rw [← htable, handlerAt_restore (called_lt hreg h1)]
    split <;> simp_all
  constructor
  · rintro ⟨_, ⟨s1, h1, rfl⟩, h⟩
    exact ⟨s1, h1, (hrestore s1 h1).1 h⟩
  · rintro ⟨s1, h1, h⟩
    exact ⟨_, ⟨s1, h1, rfl⟩, (hrestore s1 h1).2 h⟩

def oneHandler : Scheduler ℚ := ((Op.addFileHandler 3 schFileInput).run (new ⟨0, 0⟩)).2

/-- It adds a handler over its own entry, removes that and adds another. -/
def replaceTwice : List (Op ℚ) :=
  [.addFileHandler 3 schFileInput, .removeFileHandler 3, .addFileHandler 3 schFileInput]

theorem self_removal_iff_twice :
    ∃ s', dispatchOne 3 replaceTwice oneHandler = (.ok (), s') ∧ handlerAt s' 3 = some 2 := by
  have hreg : handlerAt oneHandler 3 = some 0 := rfl
  refine (self_removal_iff ⟨rfl, by decide⟩ hreg replaceTwice ?_).2 ?_
  · intro pre o post s1 hops _ ht
    have hown : ∀ o ∈ replaceTwice, o.Touches 3 := by decide
    exact absurd (hown o (hops ▸ List.mem_append_right pre List.mem_cons_self)) ht
  · simp only [replaceTwice, Orderly]
    decide

/-- Neither removing nor replacing itself works. -/
theorem removal_asserts : handlerAt oneHandler 3 = some 0 ∧
    (dispatchOne 3 [.removeFileHandler 3] oneHandler).1 = .error .assertion ∧
    (dispatchOne 3 [.removeFileHandler 3, .addFileHandler 3 schFileInput] oneHandler).1 =
      .error .assertion := by
  decide +kernel

end ChronyRs.Bugs.SelfRemoval

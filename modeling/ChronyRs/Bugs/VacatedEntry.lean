import ChronyRs.L5Daemon.FileHandlers

/-!
# A file handler that removes another one can end up out of reach

`dispatch_one` takes the handler out of the table while it runs and puts it back afterwards.
`remove_file_handler` lowers `one_highest_fd` past every entry without a handler. So when a running
handler removes the handler of another descriptor, and no higher descriptor has one, the bound drops
below the descriptor that is being served and stays there after its handler is back:
`dispatch_filehandlers` does not look at it any more, while `fill_fd_sets` still asks `select` for
it.

* `out_of_reach`: two descriptors, of which the higher one removes the lower one.
* `reachable_of_careful`: in every run whose handlers are careful the bound covers the table, and it
  does so after the next event iff that is careful too; no registration is lost.

Fix: raise `one_highest_fd` again where the handler is put back.
-/
namespace ChronyRs.Bugs.VacatedEntry

open L5.Sched L4.Server

variable {F : Type}

/-- A file handler leaves its own entry alone. -/
def Others : Event F → Prop
  | .file fd ops => ∀ o ∈ ops, ¬ o.Touches fd
  | _ => True

/-- A file handler that is called removes no handler, or a higher descriptor has one when it is
done. -/
def Careful (s : Scheduler F) : Event F → Prop
  | .file fd ops => handlerAt s fd = none ∨ (∀ g, .removeFileHandler g ∉ ops) ∨
      ∃ g, fd < g ∧ (ops.foldl Op.onTable (handlerAt s, s.boxes)).1 g ≠ none
  | _ => True

variable [F64Math F] {s s' : Scheduler F}

theorem step_covered_iff {ev : Event F} (hc : Covered s) (hstep : Step s ev s') (ho : Others ev) :
    Covered s' ↔ Careful s ev := by
  cases hstep with
  | op h => exact iff_of_true ((Op.bounded h).covered hc) trivial
  | fire hq hdue h =>
    obtain ⟨last, h⟩ := fire_ok hq h
    exact iff_of_true ((runOps_bounded h).1 hc) trivial
  | @file _ fd ops h =>
    by_cases hreg : handlerAt s fd = none
    · rw [dispatchOne_of_none hreg] at h
      cases h
      exact iff_of_true hc (.inl hreg)
    · rw [dispatchOne_covered_iff hc ho h hreg]
      exact (or_iff_right hreg).symm
  | wait hw =>
    refine iff_of_true (fun fd hfd => ?_) trivial
    rw [handlerAt_congr hw.fileHandlers] at hfd
    rw [hw.oneHighestFd]
    exact hc fd hfd

/-- The calls of the scheduler that an event makes: none if there is no handler to call. -/
def ran (s : Scheduler F) : Event F → List (Op F)
  | .file fd ops => if handlerAt s fd = none then [] else ops
  | ev => ev.ops

/-- The map of handlers is what the calls make of it. -/
theorem step_table {ev : Event F} (hstep : Step s ev s') (ho : Others ev) :
    (handlerAt s', s'.boxes) = (ran s ev).foldl Op.onTable (handlerAt s, s.boxes) := by
  cases hstep with
  | op h => exact Op.table h
  | fire hq hdue h =>
    obtain ⟨last, h⟩ := fire_ok hq h
    have htable := runOps_table h
    exact htable
  | @file _ fd ops h =>
    by_cases hreg : handlerAt s fd = none
    · rw [dispatchOne_of_none hreg] at h
      cases h
      rw [ran, if_pos hreg]
      rfl
    · rw [ran, if_neg hreg]
      obtain ⟨-, -, -, htable, -⟩ := dispatchOne_called ho h hreg
      exact htable
  | wait hw =>
    exact Prod.ext (handlerAt_congr hw.fileHandlers) hw.boxes

/-- **Reachable handlers.** Take a run of the scheduler from a new one on in which file handlers
leave their own entry alone and are careful. Then every descriptor with a handler is below
`one_highest_fd`, and after the next event this is so iff the event is careful. In every event,
careful or not, the map of handlers changes as its calls say: no registration is lost.
`dispatch_filehandlers` is a sequence of such events for the descriptors below `one_highest_fd`. -/
theorem reachable_of_careful (raw : Timespec) (tr : List (Event F)) (s : Scheduler F)
    (hrun : Run (fun s ev s' => Step s ev s' ∧ Others ev ∧ Careful s ev) (new raw) tr s) :
    (∀ fd, handlerAt s fd ≠ none → fd < s.oneHighestFd) ∧
    (∀ ev s', Step s ev s' → Others ev →
      ((∀ fd, handlerAt s' fd ≠ none → fd < s'.oneHighestFd) ↔ Careful s ev)) ∧
    (∀ (s1 : Scheduler F) ev s', Step s1 ev s' → Others ev →
      (handlerAt s', s'.boxes) = (ran s1 ev).foldl Op.onTable (handlerAt s1, s1.boxes)) ∧
    (∀ (s1 : Scheduler F) res script s', dispatchFilehandlers res script s1 = (.ok (), s') →
      Run Step s1 ((List.range s1.oneHighestFd).flatMap (filesOf res script)) s') := by
  have hc : Covered s := by
    refine hrun.invariant (I := Covered) (fun s ev s' hc hstep => ?_) nofun
    exact (step_covered_iff hc hstep.1 hstep.2.1).2 hstep.2.2
  exact ⟨hc, fun ev s' hstep ho => step_covered_iff hc hstep ho, fun _ _ _ hstep ho =>
    step_table hstep ho, fun _ _ _ _ h => dispatchFilehandlers_run h⟩

/-! ## A run -/

def twoFiles : Scheduler ℚ :=
  ((Op.addFileHandler 2 1).run ((Op.addFileHandler 1 1).run (new ⟨0, 0⟩)).2).2

def threeFiles : Scheduler ℚ := ((Op.addFileHandler 3 1).run twoFiles).2

/-- With a handler for descriptor 3 in place, that of descriptor 2 may remove that of descriptor
1. -/
theorem reachable_of_careful_three : handlerAt
    (dispatchOne 2 [.removeFileHandler 1] threeFiles).2 2 = some 1 ∧
    2 < (dispatchOne 2 [.removeFileHandler 1] threeFiles).2.oneHighestFd :=
  ⟨by decide +kernel, (reachable_of_careful ⟨0, 0⟩
    [.op (.addFileHandler 1 1), .op (.addFileHandler 2 1), .op (.addFileHandler 3 1),
      .file 2 [.removeFileHandler 1]] _
    (.cons ⟨.of_op (by decide +kernel), trivial, trivial⟩
      (.cons ⟨.of_op (by decide +kernel), trivial, trivial⟩
      (.cons ⟨.of_op (by decide +kernel), trivial, trivial⟩
        (.cons ⟨.of_file (by decide +kernel), by simp only [Others]; decide,
          .inr (.inr ⟨3, by decide, by decide +kernel⟩)⟩ (.nil _)))))).1 2 (by decide +kernel)⟩

def ready : SelectResult := ⟨[2], [], []⟩

def removesOther (fd : Nat) (_ : Int32) : List (Op ℚ) :=
  if fd = 2 then [.removeFileHandler 1] else []

/-- **Counterexample**: afterwards descriptor 2 has its handler, which wants input, but the bound is
0, so that no later dispatch calls it. -/
theorem out_of_reach :
    (∀ fd event, ∀ o ∈ removesOther fd event, ¬ o.Touches fd) ∧
    (dispatchFilehandlers ready removesOther twoFiles).1 = .ok () ∧
    handlerAt (dispatchFilehandlers ready removesOther twoFiles).2 2 = some 1 ∧
    (dispatchFilehandlers ready removesOther twoFiles).2.oneHighestFd = 0 ∧
    (fillFdSets (dispatchFilehandlers ready removesOther twoFiles).2).1 = [2] := by
  refine ⟨?_, by decide +kernel, by decide +kernel, by decide +kernel, by decide +kernel⟩
  intro fd event o ho
  unfold removesOther at ho
  split at ho
  · rename_i hfd
    rw [List.mem_singleton.1 ho, hfd]
    decide
  · cases ho

end ChronyRs.Bugs.VacatedEntry

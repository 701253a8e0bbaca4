import ChronyRs.Core.Lts
import ChronyRs.L5Daemon.Sched

/-!
# Runs of the scheduler

What the functions of `Sched` did when they returned, and runs of the scheduler as a sequence of
events: a call of its owner, a timeout that fires, a file handler that is called.

* `dispatchTimeouts_run`, `dispatchFilehandlers_run`: the dispatchers are runs.
-/
namespace ChronyRs.L5.Sched

open L4.Server (Timespec nsecPerSec)

variable {F : Type} {s s' : Scheduler F}

/-! ## What the functions do -/

variable {u : Unit} {fd handler fuel : Nat} {id : UInt32} {now : Timespec} {res : SelectResult}
  {script : Nat → Int32 → List (Op F)}

def handlerAt (s : Scheduler F) (fd : Nat) : Option Nat := s.fileHandlers[fd]?.bind (·.handler)

theorem handler_set {table : List FileHandlerEntry} (hfd : fd < table.length) (e : FileHandlerEntry)
    (g : Nat) :
    (table.set fd e)[g]?.bind (·.handler) = if g = fd then e.handler else table[g]?.bind
      (·.handler) := by
  by_cases hg : g = fd
  · subst hg
    rw [List.getElem?_set_self hfd, if_pos rfl]
    rfl
  · rw [List.getElem?_set_ne fun h => hg h.symm, if_neg hg]

/-- The table is made longer by entries without a handler. -/
theorem handler_append (table : List FileHandlerEntry) (n g : Nat) :
    (table ++ List.replicate n ⟨none, 0⟩)[g]?.bind (·.handler) = table[g]?.bind (·.handler) := by
  rcases Nat.lt_or_ge g table.length with h | h
  · rw [List.getElem?_append_left h]
  · rw [List.getElem?_append_right h, List.getElem?_eq_none h, List.getElem?_replicate]
    split <;> rfl

theorem lt_length_grown (table : List FileHandlerEntry) (fd : Nat) :
    fd < (table ++
      List.replicate (fd + 1 - table.length) (⟨none, 0⟩ : FileHandlerEntry)).length := by
  rw [List.length_append, List.length_replicate]
  omega

theorem addFileHandler_ok {events : Int32} (h : addFileHandler fd events handler s = (.ok u, s')) :
    ∃ table, s' =
        { s with
          fileHandlers := table
          oneHighestFd := if s.oneHighestFd < fd + 1 then fd + 1 else s.oneHighestFd } ∧
      handlerAt s fd = none ∧ s.fileHandlers.length ≤ table.length ∧ fd < table.length ∧
      ∀ g, handlerAt s' g = if g = fd then some handler else handlerAt s g := by
  simp only [addFileHandler, Act.get_bind_eq_ok, ↓Act.assert_bind_eq_ok, Act.modify_bind_eq_ok,
    Act.lift_bind_eq_ok, Act.modify_eq_ok] at h
  obtain ⟨-, -, e, he, ha, rfl⟩ := h
  have hlen := lt_length_grown s.fileHandlers fd
  refine ⟨_, rfl, ?_, ?_, by rwa [List.length_set], fun g => ?_⟩
  · rw [handlerAt, ← handler_append s.fileHandlers (fd + 1 - s.fileHandlers.length),
      index_eq_ok.1 he]
    exact ha
  · rw [List.length_set, List.length_append]
    omega
  · exact (handler_set hlen _ g).trans (by rw [handler_append]; rfl)

/-- The loop stops above the highest descriptor with a handler. -/
theorem lower_ok {table : List FileHandlerEntry} {n top : Nat} (h : lower table n = .ok top) :
    top ≤ n ∧ (∀ g, top ≤ g → g < n → table[g]?.bind (·.handler) = none) ∧
      (0 < top → table[top - 1]?.bind (·.handler) ≠ none) := by
  induction n with
  | zero =>
    cases h
    exact ⟨le_refl _, fun g h1 h2 => absurd h2 (Nat.not_lt_zero g), fun h =>
      absurd h (Nat.lt_irrefl 0)⟩
  | succ n ih =>
    rw [lower] at h
    obtain ⟨e, he, h⟩ := bind_eq_ok.1 h
    rw [index_eq_ok] at he
    by_cases hs : e.handler.isSome = true
    · rw [if_pos hs] at h
      cases h
      refine ⟨le_refl _, fun g h1 h2 => by omega, fun _ => ?_⟩
      rw [Nat.add_sub_cancel, he]
      exact Option.isSome_iff_ne_none.1 hs
    · rw [if_neg hs] at h
      obtain ⟨h1, h2, h3⟩ := ih h
      refine ⟨by omega, fun g hg hlt => ?_, h3⟩
      rcases Nat.lt_succ_iff_lt_or_eq.1 hlt with hlt | rfl
      · exact h2 g hg hlt
      · rw [he]
        exact Option.not_isSome_iff_eq_none.1 hs

theorem removeFileHandler_ok (h : removeFileHandler fd s = (.ok u, s')) :
    ∃ table top, s' = { s with fileHandlers := table, oneHighestFd := top } ∧
      handlerAt s fd ≠ none ∧ table.length = s.fileHandlers.length ∧
      (∀ g, handlerAt s' g = if g = fd then none else handlerAt s g) ∧
      top ≤ s.oneHighestFd ∧ (∀ g, top ≤ g → g < s.oneHighestFd → handlerAt s' g = none) ∧
      (0 < top → handlerAt s' (top - 1) ≠ none) := by
  simp only [removeFileHandler, Act.get_bind_eq_ok, ↓Act.assert_bind_eq_ok, Act.lift_bind_eq_ok,
    Act.modify_bind_eq_ok, Act.modify_eq_ok] at h
  obtain ⟨-, e, he, ha, top, htop, rfl⟩ := h
  obtain ⟨h1, h2, h3⟩ := lower_ok htop
  have hfd := (List.getElem?_eq_some_iff.1 (index_eq_ok.1 he)).1
  refine ⟨_, top, rfl, ?_, List.length_set, handler_set hfd _, h1, h2, h3⟩
  rw [handlerAt, index_eq_ok.1 he]
  exact Option.isSome_iff_ne_none.1 ha

theorem setFileHandlerEvent_ok {event : Int32} {enable : Bool}
    (h : setFileHandlerEvent fd event enable s = (.ok u, s')) :
    ∃ table, s' = { s with fileHandlers := table } ∧ table.length = s.fileHandlers.length ∧
      ∀ g, handlerAt s' g = handlerAt s g := by
  simp only [setFileHandlerEvent, Act.get_bind_eq_ok, Act.lift_bind_eq_ok, Act.modify_eq_ok] at h
  obtain ⟨e, he, rfl⟩ := h
  rw [index_eq_ok] at he
  refine ⟨_, rfl, List.length_set, fun g => ?_⟩
  refine (handler_set (List.getElem?_eq_some_iff.1 he).1 _ g).trans ?_
  by_cases hg : g = fd
  · rw [if_pos hg, hg, handlerAt, he]
    rfl
  · rw [if_neg hg]
    rfl

theorem getNewTqeId_ok (h : getNewTqeId s = (.ok id, s')) :
    freeId s.timerQueue (2 ^ 32) s.nextTqeId = .ok id ∧ s' = { s with nextTqeId := id } := by
  simp only [getNewTqeId, Act.get_bind_eq_ok, Act.lift_bind_eq_ok, Act.modify_bind_eq_ok,
    Act.pure_eq_ok] at h
  obtain ⟨_, hid, rfl, rfl⟩ := h
  exact ⟨hid, rfl⟩

theorem addTimeout_ok {ts : Timespec} (h : addTimeout ts handler s = (.ok id, s')) :
    freeId s.timerQueue (2 ^ 32) s.nextTqeId = .ok id ∧
      s' = { s with nextTqeId := id
                    timerQueue := insertEntry ⟨ts, id, .reserved, handler⟩ s.timerQueue } := by
  simp only [addTimeout, Act.get_bind_eq_ok, ↓Act.assert_bind_eq_ok] at h
  obtain ⟨_, s1, h1, h2⟩ := Act.bind_eq_ok.1 h.2
  obtain ⟨hid, rfl⟩ := getNewTqeId_ok h1
  rw [Act.modify_bind_eq_ok] at h2
  obtain ⟨rfl, rfl⟩ := Act.pure_eq_ok.1 h2
  exact ⟨hid, rfl⟩

theorem addTimeoutByDelay_ok [F64Math F] {delay : F}
    (h : addTimeoutByDelay now delay handler s = (.ok id, s')) :
    ∃ ts, addDouble now delay = .ok ts ∧ addTimeout ts handler s = (.ok id, s') := by
  simp only [addTimeoutByDelay, Act.get_bind_eq_ok, ↓Act.assert_bind_eq_ok,
    Act.lift_bind_eq_ok] at h
  obtain ⟨-, -, ts, hts, -, h⟩ := h
  exact ⟨ts, hts, h⟩

theorem placeOf_le [F64Math F] {delay : F} {queue : List TimerQueueEntry} {n : Nat}
    (h : placeOf now delay queue = .ok n) : n ≤ queue.length := by
  induction queue generalizing n with
  | nil =>
    cases h
    exact le_refl _
  | cons e queue ih =>
    obtain ⟨d, -, h⟩ := bind_eq_ok.1 h
    split at h
    · cases h
      exact Nat.zero_le _
    · obtain ⟨m, hm, h⟩ := bind_eq_ok.1 h
      cases h
      exact Nat.succ_le_succ (ih hm)

theorem addTimeoutInClass_ok [F64Math F] {rnd : UInt32} {minDelay separation randomness : F}
    {cls : TimeoutClass}
    (h : addTimeoutInClass now rnd minDelay separation randomness cls handler s = (.ok id, s')) :
    ∃ place ts, freeId s.timerQueue (2 ^ 32) s.nextTqeId = .ok id ∧ place ≤ s.timerQueue.length ∧
      s' = { s with nextTqeId := id
                    timerQueue := s.timerQueue.insertIdx place ⟨ts, id, cls, handler⟩ } := by
  simp only [addTimeoutInClass, Act.get_bind_eq_ok, ↓Act.assert_bind_eq_ok,
    Act.lift_bind_eq_ok] at h
  obtain ⟨-, -, delay, -, place, hplace, h⟩ := h
  obtain ⟨_, s1, h1, h2⟩ := Act.bind_eq_ok.1 h
  obtain ⟨hid, rfl⟩ := getNewTqeId_ok h1
  obtain ⟨ts, -, h2⟩ := Act.lift_bind_eq_ok.1 h2
  rw [Act.modify_bind_eq_ok] at h2
  obtain ⟨rfl, rfl⟩ := Act.pure_eq_ok.1 h2
  exact ⟨place, ts, hid, placeOf_le hplace, rfl⟩

/-- A call with a new box. -/
theorem boxed_ok {f : Nat → Act (Scheduler F) UInt32}
    (h : (box >>= fun handler => f handler >>= fun _ => pure ()) s = (.ok (), s')) :
    ∃ id, f s.boxes { s with boxes := s.boxes + 1 } = (.ok id, s') := by
  obtain ⟨_, _, hbox, h⟩ := Act.bind_eq_ok.1 h
  cases hbox
  exact Act.discard_eq_ok h

theorem removeTimeout_ok (h : removeTimeout id s = (.ok u, s')) :
    ∃ queue, s' = { s with timerQueue := queue } ∧ queue.Sublist s.timerQueue := by
  simp only [removeTimeout, Act.get_bind_eq_ok, ↓Act.assert_bind_eq_ok] at h
  obtain ⟨-, h⟩ := h
  by_cases h0 : id = 0
  · rw [if_pos h0, Act.pure_eq_ok] at h
    obtain ⟨-, rfl⟩ := h
    exact ⟨_, rfl, .refl _⟩
  · rw [if_neg h0, Act.modify_eq_ok] at h
    exact ⟨_, h.symm, List.eraseP_sublist⟩

/-- All times are shifted, or stay. -/
theorem handleSlew_ok [F64Math F] {cooked : Timespec} {dfreq doffset : F} {changeType : ChangeType}
    (h : handleSlew cooked dfreq doffset changeType s = (.ok u, s')) :
    ∃ queue last raw ts, s' = { s with timerQueue := queue, lastClassDispatch := last
                                       lastSelectTsRaw := raw, lastSelectTs := ts } ∧
      (queue = s.timerQueue ∧ raw = s.lastSelectTsRaw ∨
        changeType ≠ .adjust ∧ shiftQueue doffset s.timerQueue = .ok queue) := by
  obtain ⟨_, s1, hshift, h⟩ := Act.bind_eq_ok.1 h
  simp only [Act.get_bind_eq_ok, Act.lift_bind_eq_ok, Act.modify_eq_ok] at h
  obtain ⟨_, -, ts, -, rfl⟩ := h
  rw [Act.when] at hshift
  by_cases hc : changeType ≠ .adjust
  · rw [if_pos hc] at hshift
    simp only [Act.get_bind_eq_ok, Act.lift_bind_eq_ok, Act.modify_eq_ok] at hshift
    obtain ⟨queue, hq, last, -, raw, -, rfl⟩ := hshift
    exact ⟨queue, last, raw, ts, rfl, .inr ⟨hc, hq⟩⟩
  · rw [if_neg hc, Act.pure_eq_ok] at hshift
    obtain ⟨-, rfl⟩ := hshift
    exact ⟨s.timerQueue, s.lastClassDispatch, s.lastSelectTsRaw, ts, rfl, .inl ⟨rfl, rfl⟩⟩

theorem runOps_cons [F64Math F] {op : Op F} {ops : List (Op F)}
    (h : runOps (op :: ops) s = (.ok u, s')) :
    ∃ s1, op.run s = (.ok (), s1) ∧ runOps ops s1 = (.ok (), s') := by
  obtain ⟨_, s1, h1, h2⟩ := Act.bind_eq_ok.1 h
  exact ⟨s1, h1, h2⟩

theorem fire_ok [F64Math F] {ops : List (Op F)} {e : TimerQueueEntry} {queue : List TimerQueueEntry}
    (hq : s.timerQueue = e :: queue) (h : fire now ops s = (.ok u, s')) :
    ∃ last, runOps ops { s with lastClassDispatch := last, timerQueue := queue } =
      (.ok (), s') := by
  simp only [fire, Act.get_bind_eq_ok, hq, Act.modify_bind_eq_ok] at h
  exact ⟨_, h⟩

/-- The table while the handler of `fd` is running. -/
def vacate (fd : Nat) (s : Scheduler F) : Scheduler F :=
  { s with fileHandlers := s.fileHandlers.modify fd fun e => { e with handler := none } }

/-- The table after `handler` was put back into its place, if that is vacant. -/
def restore (fd handler : Nat) (s : Scheduler F) : Scheduler F :=
  { s with fileHandlers := s.fileHandlers.modify fd fun e =>
      if e.handler = none then { e with handler := some handler } else e }

theorem handler_modify (table : List FileHandlerEntry) (fd g : Nat)
    (f : FileHandlerEntry → FileHandlerEntry) :
    (table.modify fd f)[g]?.bind (·.handler) =
      table[g]?.bind fun e => if g = fd then (f e).handler else e.handler := by
  rw [List.getElem?_modify]
  cases table[g]? with
  | none => rfl
  | some e => by_cases hg : fd = g <;> simp [hg, eq_comm]

theorem handlerAt_vacate (fd : Nat) (s : Scheduler F) :
    handlerAt (vacate fd s) = Function.update (handlerAt s) fd none := by
  funext g
  refine (handler_modify _ fd g _).trans ?_
  rw [Function.update_apply, handlerAt]
  cases s.fileHandlers[g]? with
  | none => simp
  | some e => rfl

/-- The handler is back if it left a vacant place. -/
theorem handlerAt_restore (hfd : fd < s.fileHandlers.length) :
    handlerAt (restore fd handler s) =
      if handlerAt s fd = none then Function.update (handlerAt s) fd (some handler)
      else handlerAt s := by
  have hat : handlerAt s fd = s.fileHandlers[fd].handler := by
    rw [handlerAt, List.getElem?_eq_getElem hfd]
    rfl
  funext g
  refine (handler_modify _ fd g _).trans ?_
  by_cases hg : g = fd
  · subst hg
    rw [List.getElem?_eq_getElem hfd, Option.bind_some, if_pos rfl, hat]
    split <;> simp [hat]
  · simp only [if_neg hg]
    split <;> simp [hg, handlerAt]

theorem putBack_eq (fd handler : Nat) (s : Scheduler F) :
    putBack fd handler s = (.ok (), restore fd handler s) := by
  rw [putBack, restore, List.modify_eq_set_getElem?, Act.bind_apply, Act.get]
  cases he : s.fileHandlers[fd]? with
  | none => simp [he, Act.pure_apply]
  | some e =>
    by_cases hv : e.handler = none
    · simp [he, hv, Act.when, Act.modify]
    · have hset : s.fileHandlers.set fd e = s.fileHandlers := by
        obtain ⟨hlt, rfl⟩ := List.getElem?_eq_some_iff.1 he
        exact List.set_getElem_self hlt
      simp [he, hv, hset, Act.when, Act.pure_apply]

theorem dispatchOne_of_none [F64Math F] {ops : List (Op F)} (h : handlerAt s fd = none) :
    dispatchOne fd ops s = (.ok (), s) := by
  rw [dispatchOne, Act.bind_apply, Act.get]
  cases he : s.fileHandlers[fd]? with
  | none => simp [he, Act.pure_apply]
  | some e =>
    rw [handlerAt, he, Option.bind_some] at h
    simp [he, h, Act.pure_apply]

/-- A handler runs with its place in the table vacant, and comes back if the place still is. -/
theorem dispatchOne_iff [F64Math F] {ops : List (Op F)} (hreg : handlerAt s fd = some handler) :
    dispatchOne fd ops s = (.ok u, s') ↔
      ∃ s1, runOps ops (vacate fd s) = (.ok (), s1) ∧ restore fd handler s1 = s' := by
  obtain ⟨e, he, hh⟩ := Option.bind_eq_some_iff.1 hreg
  have hset : { s with fileHandlers := s.fileHandlers.set fd { e with handler := none } } =
      vacate fd s := by
    rw [vacate, List.modify_eq_set_getElem?, he]
    rfl
  simp only [dispatchOne, Act.get_bind_eq_ok, he, hh, Act.modify_bind_eq_ok, hset]
  simp only [Act.bind_eq_ok, putBack_eq]
  constructor
  · rintro ⟨_, s1, h1, h2⟩
    exact ⟨s1, h1, (Prod.mk.inj h2).2⟩
  · rintro ⟨s1, h1, rfl⟩
    exact ⟨(), s1, h1, rfl⟩

/-! ## Events -/

inductive Event (F : Type) where
  /-- A call of the owner. -/
  | op (o : Op F)
  /-- The timeout `e` fires when the clock reads `now`, and its handler does `ops`. -/
  | fire (e : TimerQueueEntry) (now : Timespec) (ops : List (Op F))
  /-- The handler of `fd` is called, if it has one, and does `ops`. -/
  | file (fd : Nat) (ops : List (Op F))
  /-- The main loop waits. -/
  | wait

def Event.ops : Event F → List (Op F)
  | op o => [o]
  | fire _ _ ops => ops
  | file _ ops => ops
  | wait => []

/-- The queue and the table are the same. -/
structure SameWork (s s' : Scheduler F) : Prop where
  fileHandlers : s'.fileHandlers = s.fileHandlers
  oneHighestFd : s'.oneHighestFd = s.oneHighestFd
  timerQueue : s'.timerQueue = s.timerQueue
  boxes : s'.boxes = s.boxes

variable [F64Math F]

inductive Step : Scheduler F → Event F → Scheduler F → Prop
  | op {s s' : Scheduler F} {o : Op F} (h : o.run s = (.ok (), s')) : Step s (.op o) s'
  | fire {s s' : Scheduler F} {e : TimerQueueEntry} {queue : List TimerQueueEntry} {now : Timespec}
      {ops : List (Op F)} (hq : s.timerQueue = e :: queue) (hdue : ¬ compare now e.ts < 0)
      (h : Sched.fire now ops s = (.ok (), s')) : Step s (.fire e now ops) s'
  | file {s s' : Scheduler F} {fd : Nat} {ops : List (Op F)}
    (h : dispatchOne fd ops s = (.ok (), s')) :
      Step s (.file fd ops) s'
  | wait {s s' : Scheduler F} (h : SameWork s s') : Step s .wait s'

theorem Step.of_op {o : Op F} (h : (o.run s).1 = .ok ()) : Step s (.op o) (o.run s).2 :=
  .op (Prod.ext h rfl)

theorem Step.of_fire {e : TimerQueueEntry} {ops : List (Op F)}
    (hq : s.timerQueue = e :: s.timerQueue.tail) (hdue : ¬ compare now e.ts < 0)
    (h : (Sched.fire now ops s).1 = .ok ()) :
    Step s (.fire e now ops) (Sched.fire now ops s).2 :=
  .fire hq hdue (Prod.ext h rfl)

theorem Step.of_file {ops : List (Op F)} (h : (dispatchOne fd ops s).1 = .ok ()) :
    Step s (.file fd ops) (dispatchOne fd ops s).2 :=
  .file (Prod.ext h rfl)

/-- A handler that may be called. -/
theorem when_dispatchOne {p : Prop} [Decidable p] {ops : List (Op F)}
    (h : Act.when p (dispatchOne fd ops) s = (.ok u, s')) :
    Run Step s (if p then [.file fd ops] else []) s' := by
  rw [Act.when] at h
  split at h
  · rw [if_pos ‹p›]
    exact .cons (.file h) (.nil _)
  · rw [if_neg ‹¬ p›]
    obtain ⟨-, rfl⟩ := Act.pure_eq_ok.1 h
    exact .nil _

/-- The handlers called for one descriptor. -/
def filesOf (res : SelectResult) (script : Nat → Int32 → List (Op F)) (fd : Nat) : List (Event F) :=
  (if fd ∈ res.readyExcept then [.file fd (script fd schFileException)] else []) ++
  (if fd ∈ res.readyRead ∧ fd ∉ res.readyExcept then [.file fd (script fd schFileInput)] else []) ++
  (if fd ∈ res.readyWrite then [.file fd (script fd schFileOutput)] else [])

theorem dispatchFds_run {n : Nat} (h : dispatchFds res script n fd s = (.ok u, s')) :
    Run Step s ((List.range' fd n).flatMap (filesOf res script)) s' := by
  induction n generalizing s fd with
  | zero =>
    obtain ⟨-, rfl⟩ := Act.pure_eq_ok.1 h
    exact .nil _
  | succ n ih =>
    simp only [dispatchFds, Act.bind_eq_ok] at h
    obtain ⟨_, _, h1, _, _, h2, _, _, h3, h4⟩ := h
    rw [List.range'_succ, List.flatMap_cons]
    exact (((when_dispatchOne h1).append (when_dispatchOne h2)).append
      (when_dispatchOne h3)).append (ih h4)

/-- **The file handlers that are called**, in the order of the descriptors below the highest. -/
theorem dispatchFilehandlers_run (h : dispatchFilehandlers res script s = (.ok u, s')) :
    Run Step s ((List.range s.oneHighestFd).flatMap (filesOf res script)) s' := by
  rw [dispatchFilehandlers, Act.get_bind_eq_ok] at h
  rw [List.range_eq_range']
  exact dispatchFds_run h

end ChronyRs.L5.Sched

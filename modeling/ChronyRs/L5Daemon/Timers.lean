import Mathlib.Data.List.Nodup
import Mathlib.Data.List.Perm.Subperm
import Mathlib.Data.Prod.Lex
import ChronyRs.Core.FifoQueue
import ChronyRs.L5Daemon.SchedRun

/-!
# The timer queue

The queue is in the order `Fifo.Before` of the times of expiry, where the number of the box a
handler came in is the serial number.

* `timers_in_order`: in every run the queue is in order, ids are distinct and not zero, and the
  timeouts fire in the order of the queue, at most once and not before they expire.
* `timeout_lifecycle`: with any calls and times, a timeout fires at most once, and not after it has
  left the queue.
-/
namespace ChronyRs.L5.Sched

open L4.Server (Timespec nsecPerSec)

/-! ## Times -/

variable {a b : Timespec} {queue : List TimerQueueEntry}

/-- The nanoseconds are less than a second. -/
def Normal (t : Timespec) : Prop := 0 ≤ t.tvNsec ∧ t.tvNsec < nsecPerSec

instance decidableNormal (t : Timespec) : Decidable (Normal t) :=
  inferInstanceAs (Decidable (_ ∧ _))

def ofTotal (n : Int) : Timespec := ⟨n / nsecPerSec, n % nsecPerSec⟩

theorem normal_ofTotal (n : Int) : Normal (ofTotal n) :=
  ⟨Int.emod_nonneg _ (by decide), Int.emod_lt_of_pos _ (by decide)⟩

/-- An addition is the same shift for all times. -/
theorem addDouble_ok {F : Type} [F64Math F] (increment : F) :
    ∃ shift : Int, ∀ t t', addDouble t increment = .ok t' → t' = ofTotal (t.total + shift) := by
  refine ⟨F64Math.toI64 increment * nsecPerSec + F64Math.toI64 (F64.mul (F64.lit 1000000000)
    (F64.sub increment (F64.ofInt (F64Math.toI64 increment)))), fun t t' h => ?_⟩
  rw [addDouble, Timespec.addDoubleChecked] at h
  obtain ⟨sec, hsec, h⟩ := bind_eq_ok.1 h
  obtain ⟨nsec, hnsec, h⟩ := bind_eq_ok.1 h
  cases i64_eq_ok hsec
  cases i64_eq_ok hnsec
  cases Timespec.normaliseChecked_ok h
  rw [Timespec.normalise_eq, ofTotal, Timespec.total, Timespec.total, Int.add_mul]
  dsimp only
  rw [show ∀ a b c d : Int, a + b + (c + d) = a + c + (b + d) by intros; omega]

/-! ## Ids -/

theorem freeId_ok {fuel : Nat} {next id : UInt32} (h : freeId queue fuel next = .ok id) :
    id ≠ 0 ∧ ∀ e ∈ queue, e.id ≠ id := by
  induction fuel generalizing next with
  | zero => cases h
  | succ fuel ih =>
    rw [freeId] at h
    split at h
    · exact ih h
    · split at h
      · cases h
        exact ⟨‹_›, ‹_›⟩
      · exact ih h

variable {F : Type} {s s' : Scheduler F} {called : List Nat}

/-- A call that puts an entry into its place in the order. `add_timeout_in_class` finds the place by
`f64` differences. -/
def Op.Normal : Op F → Prop
  | addTimeout ts => Sched.Normal ts
  | addTimeoutInClass .. => False
  | _ => True

instance Op.decidableNormal : (o : Op F) → Decidable o.Normal
  | addTimeout ts => Sched.decidableNormal ts
  | addTimeoutInClass .. => isFalse not_false
  | addTimeoutByDelay .. | removeTimeout _ | handleSlew .. | addFileHandler .. | removeFileHandler _
  | setFileHandlerEvent .. | quitProgram => isTrue trivial

/-- A call that shifts all times. -/
def Op.Steps : Op F → Prop
  | handleSlew _ _ _ changeType => changeType ≠ .adjust
  | _ => False

/-- A call that puts an entry at `ts`, as far as its arguments say. -/
def Op.At [F64Math F] (ts : Timespec) : Op F → Prop
  | addTimeout t => t = ts
  | addTimeoutByDelay now delay => addDouble now delay = .ok ts
  | addTimeoutInClass .. => True
  | _ => False

/-- Entries leave, or all are shifted, or one is added with a new id. -/
theorem Op.queue_ok [F64Math F] {o : Op F} (h : o.run s = (.ok (), s')) :
    s'.timerQueue.Sublist s.timerQueue ∧ s.boxes ≤ s'.boxes ∧
      s'.lastSelectTsRaw = s.lastSelectTsRaw ∨
    (∃ doffset : F, shiftQueue doffset s.timerQueue = .ok s'.timerQueue ∧ s'.boxes = s.boxes ∧
      o.Steps) ∨
    ∃ place ts id cls, freeId s.timerQueue (2 ^ 32) s.nextTqeId = .ok id ∧
      place ≤ s.timerQueue.length ∧ s'.boxes = s.boxes + 1 ∧
      s'.timerQueue = s.timerQueue.insertIdx place ⟨ts, id, cls, s.boxes⟩ ∧
      (o.Normal → Sched.Normal ts ∧ place = s.timerQueue.findIdx fun e => compare ts e.ts = -1) ∧
      o.At ts ∧ s'.lastSelectTsRaw = s.lastSelectTsRaw := by
  cases o with
  | addTimeout ts =>
    obtain ⟨id, h⟩ := boxed_ok h
    obtain ⟨hid, rfl⟩ := addTimeout_ok h
    exact .inr (.inr ⟨_, ts, id, _, hid, List.findIdx_le_length, rfl, rfl, fun hn => ⟨hn, rfl⟩, rfl,
      rfl⟩)
  | addTimeoutByDelay now delay =>
    obtain ⟨id, h⟩ := boxed_ok h
    obtain ⟨ts, hts, h⟩ := addTimeoutByDelay_ok h
    obtain ⟨hid, rfl⟩ := addTimeout_ok h
    obtain ⟨shift, hshift⟩ := addDouble_ok delay
    exact .inr (.inr ⟨_, ts, id, _, hid, List.findIdx_le_length, rfl, rfl,
      fun _ => ⟨hshift now ts hts ▸ normal_ofTotal _, rfl⟩, hts, rfl⟩)
  | addTimeoutInClass now rnd minDelay separation randomness cls =>
    obtain ⟨id, h⟩ := boxed_ok h
    obtain ⟨place, ts, hid, hplace, rfl⟩ := addTimeoutInClass_ok h
    exact .inr (.inr ⟨place, ts, id, cls, hid, hplace, rfl, rfl, False.elim, trivial, rfl⟩)
  | removeTimeout id =>
    obtain ⟨queue, rfl, hsub⟩ := removeTimeout_ok h
    exact .inl ⟨hsub, le_refl _, rfl⟩
  | handleSlew cooked dfreq doffset changeType =>
    obtain ⟨queue, last, raw, ts, rfl, ⟨rfl, rfl⟩ | ⟨hc, hshift⟩⟩ := handleSlew_ok h
    · exact .inl ⟨.refl _, le_refl _, rfl⟩
    · exact .inr (.inl ⟨doffset, hshift, rfl, hc⟩)
  | addFileHandler fd events =>
    obtain ⟨_, s1, hbox, h⟩ := Act.bind_eq_ok.1 h
    cases hbox
    obtain ⟨table, rfl, -⟩ := addFileHandler_ok h
    exact .inl ⟨.refl _, Nat.le_succ _, rfl⟩
  | removeFileHandler fd =>
    obtain ⟨table, top, rfl, -⟩ := removeFileHandler_ok h
    exact .inl ⟨.refl _, le_refl _, rfl⟩
  | setFileHandlerEvent fd event enable =>
    obtain ⟨table, rfl, -⟩ := setFileHandlerEvent_ok h
    exact .inl ⟨.refl _, le_refl _, rfl⟩
  | quitProgram =>
    cases h
    exact .inl ⟨.refl _, le_refl _, rfl⟩

/-- All entries are shifted by the same time. -/
theorem shiftQueue_ok [F64Math F] {doffset : F} (h : shiftQueue doffset s.timerQueue = .ok queue) :
    ∃ shift, queue = s.timerQueue.map fun e => { e with ts := ofTotal (e.ts.total + shift) } := by
  obtain ⟨shift, hadd⟩ := addDouble_ok (F64Math.neg doffset)
  refine ⟨shift, Rust.eq_map_of_mapM (fun e e' he => ?_) h⟩
  obtain ⟨ts, hts, he⟩ := bind_eq_ok.1 he
  cases he
  rw [hadd _ _ hts]

/-! ## Invariants -/

/-- The handler an event calls, if it is a timeout. -/
def Event.fired : Event F → List Nat
  | fire e _ _ => [e.handler]
  | _ => []

/-- An invariant of the queue and of the handlers that were called, for calls that satisfy `P`. -/
structure Kept [F64Math F] (P : Op F → Prop) (I : Scheduler F → List Nat → Prop) : Prop where
  frame : ∀ {s s' called}, I s called → s'.timerQueue = s.timerQueue → s'.boxes = s.boxes →
    I s' called
  op : ∀ {s o s' called}, I s called → P o → o.run s = (.ok (), s') → I s' called
  pop : ∀ {s e s' called}, I s called → s.timerQueue = e :: s'.timerQueue → s'.boxes = s.boxes →
    I s' (called ++ [e.handler])

section
variable [F64Math F] {P : Op F → Prop} {I : Scheduler F → List Nat → Prop} (hI : Kept P I)
include hI

theorem Kept.ops {ops : List (Op F)} (h : I s called) (hP : ∀ o ∈ ops, P o)
    (hrun : runOps ops s = (.ok (), s')) : I s' called := by
  induction ops generalizing s with
  | nil =>
    cases hrun
    exact h
  | cons op ops ih =>
    obtain ⟨s1, h1, h2⟩ := runOps_cons hrun
    rw [List.forall_mem_cons] at hP
    exact ih (hI.op h hP.1 h1) hP.2 h2

theorem Kept.step {ev : Event F} (h : I s called) (hP : ∀ o ∈ ev.ops, P o) (hstep : Step s ev s') :
    I s' (called ++ ev.fired) := by
  cases hstep with
  | op hrun =>
    rw [show Event.fired _ = [] from rfl, List.append_nil]
    exact hI.op h (hP _ List.mem_cons_self) hrun
  | @fire _ e queue now ops hq hdue hrun =>
    obtain ⟨last, hrun⟩ := fire_ok hq hrun
    have hpop : I { s with lastClassDispatch := last, timerQueue := queue }
        (called ++ [e.handler]) :=
      hI.pop h hq rfl
    exact hI.ops hpop hP hrun
  | @file _ fd ops hrun =>
    rw [show Event.fired _ = [] from rfl, List.append_nil]
    cases hreg : handlerAt s fd with
    | none =>
      rw [dispatchOne_of_none hreg] at hrun
      cases hrun
      exact h
    | some handler =>
      obtain ⟨s1, hops, rfl⟩ := (dispatchOne_iff hreg).1 hrun
      have hvacant : I (vacate fd s) called := hI.frame h rfl rfl
      exact hI.frame (hI.ops hvacant hP hops) rfl rfl
  | wait hw =>
    rw [show Event.fired _ = [] from rfl, List.append_nil]
    exact hI.frame h hw.timerQueue hw.boxes

theorem Kept.run {tr : List (Event F)} (h : I s called) (hP : ∀ ev ∈ tr, ∀ o ∈ ev.ops, P o)
    (hrun : Run Step s tr s') : I s' (called ++ tr.flatMap Event.fired) := by
  induction hrun generalizing called with
  | nil =>
    rw [List.flatMap_nil, List.append_nil]
    exact h
  | cons hstep _ ih =>
    rw [List.forall_mem_cons] at hP
    rw [List.flatMap_cons, ← List.append_assoc]
    exact ih (hI.step h hP.1 hstep) hP.2

end

/-- Ids are distinct and not zero, and no handler is called twice. -/
structure Serials (s : Scheduler F) (called : List Nat) : Prop where
  tickets : Fifo.Tickets (·.handler) s.timerQueue s.boxes called
  ids : (0 :: s.timerQueue.map (·.id)).Nodup

theorem new_serials [F64Math F] (raw : Timespec) : Serials (new raw : Scheduler F) [] :=
  ⟨.nil, List.nodup_singleton 0⟩

/-- Whatever is called. -/
theorem serials_kept [F64Math F] : Kept (F := F) (fun _ => True) Serials where
  frame h hq hb := ⟨hq ▸ hb ▸ h.tickets, hq ▸ h.ids⟩
  op {s o s' called} h _ hrun := by
    obtain ⟨hsub, hb, -⟩ | ⟨doffset, hshift, hb, -⟩ |
        ⟨place, ts, id, cls, hid, hplace, hb, hq, -⟩ :=
      Op.queue_ok hrun
    · exact ⟨h.tickets.sublist hsub hb, h.ids.sublist ((hsub.map _).cons_cons 0)⟩
    · obtain ⟨shift, hmap⟩ := shiftQueue_ok hshift
      have hids : s'.timerQueue.map (·.id) = s.timerQueue.map (·.id) := by
        rw [hmap, List.map_map]
        rfl
      exact ⟨hmap ▸ hb ▸ h.tickets.map fun _ => rfl, hids ▸ h.ids⟩
    · refine ⟨hq ▸ hb ▸ h.tickets.insert rfl hplace, ?_⟩
      obtain ⟨h0, hnew⟩ := freeId_ok hid
      obtain ⟨hzero, hids⟩ := List.nodup_cons.1 h.ids
      have hperm := (List.perm_insertIdx ⟨ts, id, cls, s.boxes⟩ s.timerQueue hplace).map (·.id)
      rw [hq, (hperm.cons 0).nodup_iff, List.map_cons, List.nodup_cons, List.nodup_cons]
      refine ⟨fun hmem => ?_, fun hmem => ?_, hids⟩
      · rcases List.mem_cons.1 hmem with h | h
        · exact h0 h.symm
        · exact hzero h
      · obtain ⟨e, he, hid'⟩ := List.mem_map.1 hmem
        exact hnew e he hid'
  pop h hq hb := by
    obtain ⟨ht, hids⟩ := h
    rw [hq] at ht hids
    exact ⟨hb ▸ ht.pop, hids.sublist ((List.sublist_cons_self _ _).cons_cons 0)⟩

def threeTimeouts : List (Op ℚ) := [.addTimeout ⟨5, 0⟩, .addTimeout ⟨5, 0⟩, .addTimeout ⟨3, 0⟩]

def threeQueued : Scheduler ℚ := threeTimeouts.foldl (fun s o => (o.run s).2) (new ⟨0, 0⟩)

example : (fire ⟨4, 0⟩ [.addTimeout ⟨5, 0⟩] threeQueued).2.timerQueue.map (·.handler) =
    [0, 1, 3] := by
  decide +kernel

/-- A handler that was made and whose timeout is not in the queue. -/
theorem left_kept [F64Math F] (n : Nat) : Kept (F := F) (fun _ => True) fun s called =>
    n < s.boxes ∧ (∀ e ∈ s.timerQueue, e.handler ≠ n) ∧ n ∉ called where
  frame h hq hb := hq ▸ hb ▸ h
  op {s o s' called} h _ hrun := by
    obtain ⟨hn, hleft, hcalled⟩ := h
    obtain ⟨hsub, hb, -⟩ | ⟨doffset, hshift, hb, -⟩ | ⟨place, ts, id, cls, -, hplace, hb, hq, -⟩ :=
      Op.queue_ok hrun
    · exact ⟨hn.trans_le hb, fun e he => hleft e (hsub.subset he), hcalled⟩
    · obtain ⟨shift, hmap⟩ := shiftQueue_ok hshift
      refine ⟨hb ▸ hn, fun x hx => ?_, hcalled⟩
      rw [hmap] at hx
      obtain ⟨e, he, rfl⟩ := List.mem_map.1 hx
      exact hleft e he
    · refine ⟨hb ▸ Nat.lt_succ_of_lt hn, fun x hx => ?_, hcalled⟩
      rw [hq] at hx
      obtain rfl | hx := (List.mem_insertIdx hplace).1 hx
      · exact hn.ne'
      · exact hleft x hx
  pop {s e s' called} h hq hb := by
    obtain ⟨hn, hleft, hcalled⟩ := h
    rw [hq, List.forall_mem_cons] at hleft
    refine ⟨hb ▸ hn, hleft.2, fun hmem => ?_⟩
    rcases List.mem_append.1 hmem with hmem | hmem
    · exact hcalled hmem
    · exact hleft.1 (List.mem_singleton.1 hmem).symm

/-- The entry with the id is taken out, and with it its handler. -/
theorem removeTimeout_left [F64Math F] (h : Serials s called) {e : TimerQueueEntry}
    (he : e ∈ s.timerQueue) (hrun : removeTimeout e.id s = (.ok (), s')) :
    s'.boxes = s.boxes ∧ ∀ x ∈ s'.timerQueue, x.handler ≠ e.handler := by
  obtain ⟨hzero, hids⟩ := List.nodup_cons.1 h.ids
  have h0 : e.id ≠ 0 := fun h0 => hzero (h0 ▸ List.mem_map_of_mem he)
  simp only [removeTimeout, Act.get_bind_eq_ok, ↓Act.assert_bind_eq_ok, if_neg h0,
    Act.modify_eq_ok] at hrun
  obtain ⟨-, rfl⟩ := hrun
  obtain ⟨a, pre, post, -, ha, hq, herase⟩ :=
    List.exists_of_eraseP (p := (·.id = e.id)) he (decide_eq_true rfl)
  obtain rfl : a = e := List.inj_on_of_nodup_map hids (hq ▸ by simp) he (of_decide_eq_true ha)
  have hserial := (List.nodup_append.1 h.tickets.distinct).2.1
  rw [hq, (List.perm_middle.map _).nodup_iff, List.map_cons, List.nodup_cons] at hserial
  refine ⟨rfl, fun x hx hxe => hserial.1 (hxe ▸ List.mem_map_of_mem ?_)⟩
  rwa [← herase]

/-- **The life of a timeout.** In every run of the scheduler from a new one on, with all calls,
times and handlers there can be, ids are distinct and not zero, a handler is called at most once,
and not while its timeout is still in the queue. Once a timeout has left the queue its handler is
not called any more; in particular not after `remove_timeout`. -/
theorem timeout_lifecycle [F64Math F] (raw : Timespec) (tr : List (Event F)) (s : Scheduler F)
    (hrun : Run Step (new raw) tr s) :
    (0 :: s.timerQueue.map (·.id)).Nodup ∧
    (tr.flatMap Event.fired).Nodup ∧ (∀ e ∈ s.timerQueue, e.handler ∉ tr.flatMap Event.fired) ∧
    (∀ n ∈ tr.flatMap Event.fired, ∀ after s', Run Step s after s' →
      n ∉ after.flatMap Event.fired) ∧
    ∀ e ∈ s.timerQueue, ∀ s1 after s', (Op.removeTimeout e.id).run s = (.ok (), s1) →
      Run Step s1 after s' → e.handler ∉ after.flatMap Event.fired := by
  have h := serials_kept.run (new_serials raw) (fun _ _ _ _ => trivial) hrun
  rw [List.nil_append] at h
  -- whatever has left the queue stays away from it
  have hleft : ∀ {n} {s1 s' : Scheduler F} {after}, n < s1.boxes →
      (∀ x ∈ s1.timerQueue, x.handler ≠ n) →
      Run Step s1 after s' → n ∉ after.flatMap Event.fired := by
    intro n s1 s' after hn hq hafter
    have := (left_kept n).run ⟨hn, hq, List.not_mem_nil⟩ (fun _ _ _ _ => trivial) hafter
    rw [List.nil_append] at this
    exact this.2.2
  refine ⟨h.ids, (List.nodup_append.1 h.tickets.distinct).1, fun e he => h.tickets.gone he, ?_, ?_⟩
  · intro n hn after s' hafter
    refine hleft (h.tickets.below n (List.mem_append_left _ hn)) (fun x hx hxn => ?_) hafter
    exact h.tickets.gone hx (hxn ▸ hn)
  · intro e he s1 after s' hremove hafter
    obtain ⟨hb, hq⟩ := removeTimeout_left h he hremove
    exact hleft (hb ▸ h.tickets.lt he) hq hafter

/-- The second of the three timeouts is removed and does not fire with the others. -/
theorem timeout_lifecycle_removed :
    let s := ((Op.removeTimeout 2).run threeQueued).2
    ∀ after s', Run Step s after s' → 1 ∉ after.flatMap Event.fired := by
  intro s after s' hafter
  have hqueued : Run Step (new ⟨0, 0⟩) (threeTimeouts.map .op) threeQueued :=
    .cons (.of_op (by decide +kernel)) (.cons (.of_op (by decide +kernel))
      (.cons (.of_op (by decide +kernel)) (.nil _)))
  exact (timeout_lifecycle ⟨0, 0⟩ _ threeQueued hqueued).2.2.2.2 ⟨⟨5, 0⟩, 2, .reserved, 1⟩
    (by decide +kernel) s after s' (Prod.ext (by decide +kernel) rfl) hafter

end ChronyRs.L5.Sched

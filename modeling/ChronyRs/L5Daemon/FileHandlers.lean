import ChronyRs.L5Daemon.SchedRun

/-!
# The table of file handlers

The table as a map from descriptors to handlers, and the bound `one_highest_fd` below which
`dispatch_filehandlers` looks.

* `dispatchOne_called`: with handlers that leave their own entry alone, the map is what the calls
  made of it: no registration is lost.
* `dispatchOne_covered_iff`: when the bound still covers all descriptors after a handler was called.
-/
namespace ChronyRs.L5.Sched

variable {F : Type} {s s' : Scheduler F}

/-! ## The map -/

/-- What a call does to the map of handlers and to the number of boxes. -/
def Op.onTable (t : (Nat → Option Nat) × Nat) : Op F → (Nat → Option Nat) × Nat
  | addTimeout _ => (t.1, t.2 + 1)
  | addTimeoutByDelay _ _ => (t.1, t.2 + 1)
  | addTimeoutInClass .. => (t.1, t.2 + 1)
  | addFileHandler fd _ => (Function.update t.1 fd (some t.2), t.2 + 1)
  | removeFileHandler fd => (Function.update t.1 fd none, t.2)
  | _ => t

def Op.Touches (fd : Nat) : Op F → Prop
  | addFileHandler g _ => g = fd
  | removeFileHandler g => g = fd
  | _ => False

instance (fd : Nat) (o : Op F) : Decidable (o.Touches fd) := by
  cases o <;> unfold Op.Touches <;> infer_instance

variable {fd : Nat} {o : Op F} {ops : List (Op F)}

theorem eq_update {t t' : Nat → Option Nat} {v : Option Nat}
    (h : ∀ g, t' g = if g = fd then v else t g) : t' = Function.update t fd v := by
  funext g
  rw [h g, Function.update_apply]

theorem handlerAt_congr (h : s'.fileHandlers = s.fileHandlers) : handlerAt s' = handlerAt s := by
  funext fd
  rw [handlerAt, handlerAt, h]

def Op.OnFiles : Op F → Prop
  | addFileHandler .. | removeFileHandler _ | setFileHandlerEvent .. => True
  | _ => False

/-- The calls about timeouts leave the table alone. -/
theorem Op.keeps_files [F64Math F] (ho : ¬ o.OnFiles) (h : o.run s = (.ok (), s')) :
    s'.fileHandlers = s.fileHandlers ∧ s'.oneHighestFd = s.oneHighestFd ∧
      s'.initialised = s.initialised ∧
      o.onTable (handlerAt s, s.boxes) = (handlerAt s, s'.boxes) := by
  cases o with
  | addTimeout ts =>
    obtain ⟨id, h⟩ := boxed_ok h
    obtain ⟨-, rfl⟩ := addTimeout_ok h
    exact ⟨rfl, rfl, rfl, rfl⟩
  | addTimeoutByDelay now delay =>
    obtain ⟨id, h⟩ := boxed_ok h
    obtain ⟨ts, -, h⟩ := addTimeoutByDelay_ok h
    obtain ⟨-, rfl⟩ := addTimeout_ok h
    exact ⟨rfl, rfl, rfl, rfl⟩
  | addTimeoutInClass now rnd minDelay separation randomness cls =>
    obtain ⟨id, h⟩ := boxed_ok h
    obtain ⟨place, ts, -, -, rfl⟩ := addTimeoutInClass_ok h
    exact ⟨rfl, rfl, rfl, rfl⟩
  | removeTimeout id =>
    obtain ⟨queue, rfl, -⟩ := removeTimeout_ok h
    exact ⟨rfl, rfl, rfl, rfl⟩
  | handleSlew cooked dfreq doffset changeType =>
    obtain ⟨queue, last, raw, ts, rfl, -⟩ := handleSlew_ok h
    exact ⟨rfl, rfl, rfl, rfl⟩
  | quitProgram =>
    cases h
    exact ⟨rfl, rfl, rfl, rfl⟩
  | _ => exact absurd trivial ho

theorem Op.table [F64Math F] (h : o.run s = (.ok (), s')) :
    (handlerAt s', s'.boxes) = o.onTable (handlerAt s, s.boxes) := by
  by_cases ho : o.OnFiles
  · cases o with
    | addFileHandler fd events =>
      obtain ⟨_, s1, hbox, h⟩ := Act.bind_eq_ok.1 h
      cases hbox
      obtain ⟨table, rfl, -, -, -, hat⟩ := addFileHandler_ok h
      exact Prod.ext (eq_update hat) rfl
    | removeFileHandler fd =>
      obtain ⟨table, top, rfl, -, -, hat, -⟩ := removeFileHandler_ok h
      exact Prod.ext (eq_update hat) rfl
    | setFileHandlerEvent fd event enable =>
      obtain ⟨table, rfl, -, hat⟩ := setFileHandlerEvent_ok h
      exact Prod.ext (funext hat) rfl
    | _ => cases ho
  · obtain ⟨htable, -, -, h⟩ := o.keeps_files ho h
    rw [h, handlerAt_congr htable]

theorem runOps_table [F64Math F] (h : runOps ops s = (.ok (), s')) :
    (handlerAt s', s'.boxes) = ops.foldl Op.onTable (handlerAt s, s.boxes) := by
  induction ops generalizing s with
  | nil =>
    cases h
    rfl
  | cons o ops ih =>
    obtain ⟨s1, h1, h2⟩ := runOps_cons h
    rw [List.foldl_cons, ← o.table h1]
    exact ih h2

/-- Calls that leave a descriptor alone. -/
theorem foldl_onTable_update (hops : ∀ o ∈ ops, ¬ o.Touches fd) (t : (Nat → Option Nat) × Nat)
    (v : Option Nat) : ops.foldl Op.onTable (Function.update t.1 fd v, t.2) =
      (Function.update (ops.foldl Op.onTable t).1 fd v, (ops.foldl Op.onTable t).2) := by
  induction ops generalizing t with
  | nil => rfl
  | cons o ops ih =>
    rw [List.forall_mem_cons] at hops
    have hstep : o.onTable (Function.update t.1 fd v, t.2) =
        (Function.update (o.onTable t).1 fd v, (o.onTable t).2) := by
      cases o with
      | addFileHandler g events =>
        have hne : g ≠ fd := hops.1
        exact Prod.ext (Function.update_comm hne _ _ _).symm rfl
      | removeFileHandler g =>
        have hne : g ≠ fd := hops.1
        exact Prod.ext (Function.update_comm hne _ _ _).symm rfl
      | _ => rfl
    rw [List.foldl_cons, List.foldl_cons, hstep]
    exact ih hops.2 (o.onTable t)

/-- A descriptor the calls leave alone keeps its handler. -/
theorem foldl_onTable_apply (hops : ∀ o ∈ ops, ¬ o.Touches fd) (t : (Nat → Option Nat) × Nat) :
    (ops.foldl Op.onTable t).1 fd = t.1 fd := by
  have h := foldl_onTable_update hops t (t.1 fd)
  rw [Function.update_eq_self] at h
  rw [h]
  exact Function.update_self ..

/-! ## The bound -/

def Covered (s : Scheduler F) : Prop := ∀ fd, handlerAt s fd ≠ none → fd < s.oneHighestFd

/-- The bound is no higher than needed. -/
def Tight (s : Scheduler F) : Prop := 0 < s.oneHighestFd → handlerAt s (s.oneHighestFd - 1) ≠ none

/-- What a call does to the bound and the length of the table. -/
structure Bounded (o : Op F) (s s' : Scheduler F) : Prop where
  covered : Covered s → Covered s'
  length_le : s.fileHandlers.length ≤ s'.fileHandlers.length
  /-- Only a removal lowers the bound. -/
  le : (∀ fd, o ≠ .removeFileHandler fd) → s.oneHighestFd ≤ s'.oneHighestFd
  tight : Tight s → Tight s'
  tight_of_remove : ∀ fd, o = .removeFileHandler fd → Tight s'
  initialised : s'.initialised = s.initialised
  fits : s.oneHighestFd ≤ s.fileHandlers.length → s'.oneHighestFd ≤ s'.fileHandlers.length

/-- Calls that leave the table alone. -/
theorem Bounded.same (h1 : s'.fileHandlers = s.fileHandlers) (h2 : s'.oneHighestFd = s.oneHighestFd)
    (h3 : s'.initialised = s.initialised) (ho : ∀ fd, o ≠ .removeFileHandler fd) :
    Bounded o s s' := by
  have hat := handlerAt_congr h1
  refine ⟨?_, h1 ▸ le_refl _, fun _ => h2 ▸ le_refl _, ?_, fun fd h => absurd h (ho fd), h3, ?_⟩
  · intro h fd hfd
    rw [h2]
    exact h fd (hat ▸ hfd)
  · intro h
    rw [Tight, h2, hat]
    exact h
  · rw [h1, h2]
    exact id

section
variable [F64Math F]

theorem addFileHandler_bounded {events : Int32}
    (h : (Op.addFileHandler fd events).run s = (.ok (), s')) :
    Bounded (.addFileHandler fd events) s s' := by
  obtain ⟨_, s1, hbox, h⟩ := Act.bind_eq_ok.1 h
  cases hbox
  obtain ⟨table, hs', -, hlen, hlt, hat⟩ := addFileHandler_ok h
  have htop : s'.oneHighestFd = max s.oneHighestFd (fd + 1) := by
    rw [hs']
    dsimp only
    split <;> omega
  have hat' : ∀ g, handlerAt s' g = if g = fd then some s.boxes else handlerAt s g := hat
  refine ⟨?_, by rw [hs']; exact hlen, fun _ => by rw [htop]; exact Nat.le_max_left _ _, ?_,
    nofun, by rw [hs'], ?_⟩
  · intro hc g hg
    rw [hat'] at hg
    by_cases hgf : g = fd
    · omega
    · rw [if_neg hgf] at hg
      have := hc g hg
      omega
  · intro ht hpos
    rw [hat', htop]
    by_cases hgf : max s.oneHighestFd (fd + 1) - 1 = fd
    · rw [if_pos hgf]
      nofun
    · rw [if_neg hgf, show max s.oneHighestFd (fd + 1) = s.oneHighestFd by omega]
      exact ht (by omega)
  · intro hle
    rw [htop, hs']
    dsimp only at hlen ⊢
    omega

theorem removeFileHandler_bounded
    (h : (Op.removeFileHandler fd : Op F).run s = (.ok (), s')) :
    Bounded (.removeFileHandler fd) s s' := by
  obtain ⟨table, top, rfl, -, hlen, hat, htop, hnone, htight⟩ := removeFileHandler_ok h
  refine ⟨?_, hlen ▸ le_refl _, fun h => absurd rfl (h fd), fun _ => htight, fun _ _ => htight,
    rfl, fun hle => hlen ▸ htop.trans hle⟩
  intro hc g hg
  rcases Nat.lt_or_ge g top with hlt | hge
  · exact hlt
  · refine absurd (hnone g hge (hc g ?_)) hg
    rw [hat] at hg
    split at hg
    · exact absurd rfl hg
    · exact hg

theorem Op.bounded (h : o.run s = (.ok (), s')) : Bounded o s s' := by
  by_cases ho : o.OnFiles
  · cases o with
    | addFileHandler fd events => exact addFileHandler_bounded h
    | removeFileHandler fd => exact removeFileHandler_bounded h
    | setFileHandlerEvent fd event enable =>
      obtain ⟨table, rfl, hlen, hat⟩ := setFileHandlerEvent_ok h
      refine ⟨?_, hlen ▸ le_refl _, fun _ => le_refl _, ?_, nofun, rfl, fun hle => hlen ▸ hle⟩
      · intro hc g hg
        exact hc g (hat g ▸ hg)
      · intro ht hpos
        rw [hat]
        exact ht hpos
    | _ => cases ho
  · obtain ⟨h1, h2, h3, -⟩ := o.keeps_files ho h
    refine .same h1 h2 h3 ?_
    rintro fd rfl
    exact ho trivial

/-- What a handler does to the bound. -/
theorem runOps_bounded (h : runOps ops s = (.ok (), s')) :
    (Covered s → Covered s') ∧ s.fileHandlers.length ≤ s'.fileHandlers.length ∧
      ((∀ fd, .removeFileHandler fd ∉ ops) → s.oneHighestFd ≤ s'.oneHighestFd) ∧
      (Tight s → Tight s') ∧ ∀ fd, .removeFileHandler fd ∈ ops → Tight s' := by
  induction ops generalizing s with
  | nil =>
    cases h
    exact ⟨id, le_refl _, fun _ => le_refl _, id, nofun⟩
  | cons o ops ih =>
    obtain ⟨s1, h1, h2⟩ := runOps_cons h
    have hb := o.bounded h1
    obtain ⟨i1, i2, i3, i4, i5⟩ := ih h2
    refine ⟨fun hc => i1 (hb.covered hc), hb.length_le.trans i2, fun hno => ?_, fun ht =>
      i4 (hb.tight ht), ?_⟩
    · refine (hb.le fun fd he => hno fd (he ▸ List.mem_cons_self)).trans (i3 fun fd hfd => ?_)
      exact hno fd (List.mem_cons_of_mem _ hfd)
    · intro fd hfd
      rcases List.mem_cons.1 hfd with he | hfd
      · exact i4 (hb.tight_of_remove fd he.symm)
      · exact i5 fd hfd

/-! ## Calling a handler -/

/-- The place of a handler is still there when it has run. -/
theorem called_lt {s1 : Scheduler F} {handler : Nat}
    (hreg : handlerAt s fd = some handler)
    (hrun : runOps ops (vacate fd s) = (.ok (), s1)) : fd < s1.fileHandlers.length := by
  obtain ⟨e, he, -⟩ := Option.bind_eq_some_iff.1 hreg
  have hle := (runOps_bounded hrun).2.1
  rw [vacate, List.length_modify] at hle
  exact (List.getElem?_eq_some_iff.1 he).1.trans_le hle

/-- The state in which a handler that leaves its own entry alone has done its work. -/
theorem dispatchOne_called {u : Unit} (hops : ∀ o ∈ ops, ¬ o.Touches fd)
    (h : dispatchOne fd ops s = (.ok u, s')) (hreg : handlerAt s fd ≠ none) :
    ∃ s1, runOps ops (vacate fd s) = (.ok (), s1) ∧
      handlerAt s1 = Function.update (ops.foldl Op.onTable (handlerAt s, s.boxes)).1 fd none ∧
      (handlerAt s', s'.boxes) = ops.foldl Op.onTable (handlerAt s, s.boxes) ∧
      s'.oneHighestFd = s1.oneHighestFd := by
  obtain ⟨handler, hfd⟩ := Option.ne_none_iff_exists'.1 hreg
  obtain ⟨s1, hrun, rfl⟩ := (dispatchOne_iff hfd).1 h
  have h1 := runOps_table hrun
  rw [handlerAt_vacate] at h1
  obtain ⟨htab, hbox⟩ := Prod.mk.inj (h1.trans
    (foldl_onTable_update hops (handlerAt s, s.boxes) none))
  have hnone : handlerAt s1 fd = none := by rw [htab, Function.update_self]
  have hkeep : (ops.foldl Op.onTable (handlerAt s, s.boxes)).1 fd = some handler :=
    (foldl_onTable_apply hops _).trans hfd
  refine ⟨s1, hrun, htab, Prod.ext ?_ hbox, rfl⟩
  dsimp only
  rw [handlerAt_restore (called_lt hfd hrun), if_pos hnone, htab, Function.update_idem, ← hkeep,
    Function.update_eq_self]

/-- **When the bound still covers the table** after the handler of `fd` was called: it removed no
handler, or a descriptor above `fd` has one afterwards. -/
theorem dispatchOne_covered_iff {u : Unit} (hc : Covered s)
    (hops : ∀ o ∈ ops, ¬ o.Touches fd) (h : dispatchOne fd ops s = (.ok u, s'))
    (hreg : handlerAt s fd ≠ none) :
    Covered s' ↔ (∀ g, .removeFileHandler g ∉ ops) ∨
      ∃ g, fd < g ∧ (ops.foldl Op.onTable (handlerAt s, s.boxes)).1 g ≠ none := by
  obtain ⟨s1, hrun, hat1, hat', htop⟩ := dispatchOne_called hops h hreg
  have hkeep := foldl_onTable_apply hops (handlerAt s, s.boxes)
  generalize ops.foldl Op.onTable (handlerAt s, s.boxes) = t at hat1 hat' hkeep ⊢
  obtain ⟨hat', -⟩ := Prod.mk.inj hat'
  obtain ⟨hc1, -, hle, -, htight⟩ := runOps_bounded hrun
  have hc1 : Covered s1 := by
    refine hc1 fun g hg => hc g fun h0 => hg ?_
    rw [handlerAt_vacate]
    by_cases hgf : g = fd
    · rw [hgf, Function.update_self]
    · rw [Function.update_of_ne hgf, h0]
  have hreg' : handlerAt s' fd ≠ none := by
    rw [hat', hkeep]
    exact hreg
  -- only the descriptor itself can be above the bound
  have hfd : Covered s' ↔ fd < s1.oneHighestFd := by
    refine ⟨fun h => htop ▸ h fd hreg', fun h g hg => ?_⟩
    rw [htop]
    by_cases hgf : g = fd
    · exact hgf ▸ h
    · refine hc1 g ?_
      rw [hat1, Function.update_of_ne hgf, ← hat']
      exact hg
  rw [hfd]
  refine ⟨fun hlt => ?_, ?_⟩
  · by_cases hno : ∀ g, .removeFileHandler g ∉ ops
    · exact .inl hno
    · simp only [not_forall, not_not] at hno
      obtain ⟨g, hg⟩ := hno
      -- the highest descriptor in the table is not the vacant one
      have ht := htight g hg (by omega)
      have hne : s1.oneHighestFd - 1 ≠ fd := by
        intro he
        rw [he, hat1, Function.update_self] at ht
        exact ht rfl
      rw [hat1, Function.update_of_ne hne] at ht
      exact .inr ⟨s1.oneHighestFd - 1, by omega, ht⟩
  · rintro (hno | ⟨g, hlt, hg⟩)
    · exact (hc fd hreg).trans_le (hle hno)
    · have := hc1 g (by rw [hat1, Function.update_of_ne (by omega)]; exact hg)
      omega

end

end ChronyRs.L5.Sched

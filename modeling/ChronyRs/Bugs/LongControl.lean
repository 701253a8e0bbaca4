import ChronyRs.L5Daemon.ControlMessages

/-!
# Control messages that claim to be very long

`parse_control_data` rounds the length of a message up to a multiple of 8 before it compares it with
what there is. With overflow checks on, a length within 8 of 2^64 stops the process, as does one
that exceeds 2^64 together with the position of its header, and so does a `SCM_TIMESTAMP` whose
microseconds do not fit when they are multiplied by 1000. Nothing else does: no read is out of range
and every walk ends. Messages written by `add_control_message` are visited in order.

* `walk_returns_iff`: the walk returns exactly when the headers on its way can be handled.
* `control_iff`: exactly the control data that is parsed, and the messages that are visited.
* `longest_message_stops`: a header whose length is 2^64 - 1.

Fix: compare the length itself with what is left before rounding it up.
-/
namespace ChronyRs.Bugs.LongControl

open L5.Socket

/-! ## The headers on the way -/

section
variable (control : Bytes)

/-- The message is at least a header, and all of it is there. -/
def Complete (o : Nat) : Prop := 16 ≤ lenAt control o ∧ o + align (lenAt control o) ≤ control.length

instance decidableComplete (o : Nat) : Decidable (Complete control o) :=
  inferInstanceAs (Decidable (_ ∧ _))

/-- The headers that follow one another from a position on. -/
inductive Chain : Nat → Nat → Prop
  | here (o : Nat) : Chain o o
  | next {o p : Nat} : Complete control o → o + align (lenAt control o) + 16 ≤ control.length →
      Chain (o + align (lenAt control o)) p → Chain o p

/-- The microseconds of a `SCM_TIMESTAMP` are in range as nanoseconds. -/
def TimestampFits (o : Nat) : Prop :=
  (cmsgAt control o).Matches 1 29 16 →
    -2 ^ 63 ≤ Int.bmod (lenAt control (o + 24)) (2 ^ 64) * 1000 ∧
      Int.bmod (lenAt control (o + 24)) (2 ^ 64) * 1000 < 2 ^ 63

instance decidableFits (o : Nat) : Decidable (TimestampFits control o) :=
  inferInstanceAs (Decidable (_ → _))

end

section
variable {control : Bytes} {o off : Nat} {σ : Type} {handle : σ → Cmsg → Rust σ}

theorem forall_chain {p : Nat → Prop} : (∀ o, Chain control off o → p o) ↔
    p off ∧ (Complete control off → off + align (lenAt control off) + 16 ≤ control.length →
      ∀ o, Chain control (off + align (lenAt control off)) o → p o) := by
  constructor
  · exact fun h => ⟨h off (.here off), fun hc hn o ho => h o (.next hc hn ho)⟩
  · rintro ⟨hoff, hnext⟩ o ho
    cases ho with
    | here => exact hoff
    | next hc hn ho => exact hnext hc hn o ho

/-- **The walk returns exactly when every header on its way can be handled**: the end of its message
does not overflow, and a complete message is accepted by what it is used for. -/
theorem walk_returns_iff {accepts : Nat → Prop} (hsize : control.length < 2 ^ 63)
    (haccepts : ∀ s o, Complete control o → ((handle s (cmsgAt control o)).Returns ↔ accepts o)) :
    ∀ (fuel : Nat) (s : σ) (off : Nat), off + 16 ≤ control.length → control.length ≤ off + fuel →
      ((walk control handle fuel s off).Returns ↔ ∀ o, Chain control off o →
        o + align (lenAt control o) < 2 ^ 64 ∧ (Complete control o → accepts o)) := by
  intro fuel
  induction fuel with
  | zero => exact fun s off h hfuel => by omega
  | succ fuel ih =>
    intro s off h hfuel
    rw [forall_chain, walk_eq hsize h hfuel, reach_eq]
    by_cases hover : off + align (lenAt control off) < 2 ^ 64
    swap
    · rw [if_neg hover]
      exact iff_of_false (not_returns_error _) fun h => hover h.1.1
    rw [if_pos hover, ok_bind]
    by_cases hcomplete : Complete control off
    swap
    · rw [if_pos (by rw [Complete] at hcomplete; omega)]
      exact iff_of_true ⟨s, rfl⟩ ⟨⟨hover, fun hc => absurd hc hcomplete⟩, fun hc =>
        absurd hc hcomplete⟩
    obtain ⟨hlen, hend⟩ := hcomplete
    rw [if_neg (by omega)]
    cases hrun : handle s (cmsgAt control off) with
    | error e =>
      refine iff_of_false (not_returns_error _) fun h => ?_
      obtain ⟨s', hs'⟩ := (haccepts s off ⟨hlen, hend⟩).2 (h.1.2 ⟨hlen, hend⟩)
      cases hrun.symm.trans hs'
    | ok s' =>
      have hok : accepts off := (haccepts s off ⟨hlen, hend⟩).1 ⟨s', hrun⟩
      rw [ok_bind]
      by_cases hlast : control.length < off + align (lenAt control off) + 16
      · rw [if_pos hlast]
        exact iff_of_true ⟨s', rfl⟩ ⟨⟨hover, fun _ => hok⟩, fun _ hn => by omega⟩
      have hnext := ih s' (off + align (lenAt control off)) (by omega) (by rw [align]; omega)
      rw [if_neg hlast, hnext]
      exact ⟨fun h => ⟨⟨hover, fun _ => hok⟩, fun _ _ => h⟩, fun h => h.2 ⟨hlen, hend⟩ (by omega)⟩

theorem extract_returns_iff (cd : ControlData) (h : Complete control o) :
    (extract control cd (cmsgAt control o)).Returns ↔ TimestampFits control o := by
  have hroom : ∀ {wl wt wdl}, (cmsgAt control o).Matches wl wt wdl →
      o + 16 + wdl ≤ control.length := by
    rintro wl wt wdl ⟨-, -, hlen⟩
    have hend := h.2
    rw [show lenAt control o = 16 + wdl from hlen, align] at hend
    omega
  -- a message of another type is no timestamp
  have hother : ∀ {wl wt wdl}, (cmsgAt control o).Matches wl wt wdl → wt ≠ 29 →
      TimestampFits control o :=
    fun hm hne ht => absurd (hm.1.symm.trans ht.1) hne
  have hoff : (cmsgAt control o).off = o := rfl
  simp only [extract, hoff]
  by_cases h1 : (cmsgAt control o).Matches 0 8 12
  · have := hroom h1
    rw [if_pos h1, le32_eq (by omega), ok_bind, be32At_eq (by omega)]
    exact iff_of_true ⟨_, rfl⟩ (hother h1 (by decide))
  rw [if_neg h1]
  by_cases h2 : (cmsgAt control o).Matches 41 50 20
  · have := hroom h2
    rw [if_pos h2, slice_of_le (by omega) (by omega), ok_bind, le32_eq (by omega)]
    exact iff_of_true ⟨_, rfl⟩ (hother h2 (by decide))
  rw [if_neg h2]
  by_cases h3 : (cmsgAt control o).Matches 1 29 16
  · have := hroom h3
    rw [if_pos h3, le64_eq (by omega), ok_bind, le64_eq (by omega), ok_bind, TimestampFits, i64]
    by_cases hfits : -2 ^ 63 ≤ Int.bmod (lenAt control (o + 24)) (2 ^ 64) * 1000 ∧
        Int.bmod (lenAt control (o + 24)) (2 ^ 64) * 1000 < 2 ^ 63
    · rw [if_pos hfits]
      exact iff_of_true ⟨_, rfl⟩ fun _ => hfits
    · rw [if_neg hfits]
      exact iff_of_false (not_returns_error _) fun h => hfits (h h3)
  rw [if_neg h3]
  by_cases h4 : (cmsgAt control o).Matches 1 58 16
  · have := hroom h4
    rw [if_pos h4, le32_eq (by omega), ok_bind, le32_eq (by omega)]
    exact iff_of_true ⟨_, rfl⟩ (hother h4 (by decide))
  rw [if_neg h4]
  by_cases h5 : (cmsgAt control o).Matches 1 37 48
  · have := hroom h5
    rw [if_pos h5, le64_eq (by omega), ok_bind, le64_eq (by omega), ok_bind, le64_eq (by omega),
      ok_bind, le64_eq (by omega)]
    exact iff_of_true ⟨_, rfl⟩ (hother h5 (by decide))
  · rw [if_neg h5]
    exact iff_of_true ⟨_, rfl⟩ fun ht => absurd ht h3

/-- The lengths of the headers on the way do not overflow with their positions, and neither do the
timestamps. -/
def Parsable (control : Bytes) : Prop := 16 ≤ control.length → ∀ o, Chain control 0 o →
  o + align (lenAt control o) < 2 ^ 64 ∧ (Complete control o → TimestampFits control o)

theorem parse_returns_iff (hsize : control.length < 2 ^ 63) :
    (parseControlData control).Returns ↔ Parsable control := by
  rw [parseControlData, walkControl, Parsable]
  by_cases hshort : control.length < 16
  · rw [if_pos hshort]
    exact iff_of_true ⟨_, rfl⟩ fun h => by omega
  · rw [if_neg hshort]
    have hwalk := walk_returns_iff hsize (fun cd o hc => extract_returns_iff cd hc)
      control.length .default 0
      (by omega) (by omega)
    exact hwalk.trans ⟨fun h _ => h, fun h => h (by omega)⟩

end

/-! ## Exactly the control data that is parsed -/

/-- **Control data is parsed exactly when no length on the way overflows**, nor the microseconds of
a timestamp; and messages that were added are visited in order. -/
theorem control_iff (control : Bytes) (hsize : control.length < 2 ^ 63) :
    ((parseControlData control).Returns ↔ Parsable control) ∧
    ∀ cap < 2 ^ 63, ∀ (ms : List Message) (c : ControlBuffer cap),
      (ControlBuffer.new cap).appendAll ms = .ok (some c) → visited c.bytes = .ok (headers 0 ms) :=
  ⟨parse_returns_iff hsize, fun _ hcap _ _ h => visited_appendAll hcap h⟩

/-- A timestamp and the address that a packet was sent to. -/
def twoMessages : List Message :=
  [⟨1, 29, toLe 8 1700000000 ++ toLe 8 250000⟩, ⟨0, 8, List.replicate 12 1⟩]

theorem control_iff_two : ∃ c : ControlBuffer 64,
    (ControlBuffer.new 64).appendAll twoMessages = .ok (some c) ∧ Complete c.bytes 0 ∧
      Complete c.bytes 32 ∧
      (parseControlData c.bytes).Returns ∧ visited c.bytes = .ok (headers 0 twoMessages) := by
  refine ⟨⟨.ofBytes 64 (twoMessages.flatMap encode), 64⟩, by rfl, by decide, by decide, ?_, ?_⟩
  · refine (control_iff _ (by decide)).1.2 fun _ => forall_chain.2
      ⟨by decide, fun _ _ => forall_chain.2 ⟨by decide, ?_⟩⟩
    exact fun _ hend => absurd hend (by decide)
  · exact (control_iff [] (by decide)).2 64 (by decide) twoMessages _ (by rfl)

/-- A single header whose length is 2^64 - 1. -/
theorem longest_message_stops :
    parseControlData (List.replicate 8 0xff ++ List.replicate 8 0) = .error .overflow := by
  rfl

end ChronyRs.Bugs.LongControl

import ChronyRs.L4Cmd.Dispatch

/-!
# Replies that are longer than their requests

Requests are padded so that no reply is longer: `validate_request` refuses a shorter one, and
`reply_fits` is the check that chrony makes before it sends. Here nothing calls `reply_fits`,
and the table of paddings does not match the bodies that `real_dispatch` appends to the header
of 28 bytes. A spoofed request of 104 bytes is answered with 108, and a name of a source with
524 bytes to 284.

* `replies_fit_iff`: exactly when no reply of a read is longer than its request.
* `source_name_amplified`: 284 bytes are answered with 524.
-/
namespace ChronyRs.Bugs.Amplification

open L4.Cmd

variable {F : Type} [WireFloat F] {L : Type} [ClientLog L]

theorem paddedLength_clientAccesses {c : UInt16} (hc : c < 73) (h : arm c = .clientAccesses) :
    paddedLength c = 0 ∨ paddedLength c = 520 := by
  have htable := forall_command
    (P := fun c => arm c != .clientAccesses || (paddedLength c == 0 || paddedLength c == 520))
      (by decide) hc
  simpa [h] using htable

/-- A request that is answered with a body is answered. -/
theorem dispatch_returns_of_replySize {st : State F} {req : Bytes} (ha : Accepted req)
    (h : (arm (commandOf req)).replySize st (bodyOf req) ≠ 0) :
    (dispatch st (commandOf req) req).Returns := by
  have hne : arm (commandOf req) ≠ .addSource := by
    intro harm
    rw [harm] at h
    exact h rfl
  refine (Arm.run_returns_iff hne st (bodyOf req)).2 ?_
  cases harm : arm (commandOf req) with
  | clientAccesses =>
    have hpad := ha.padded
    have hpos := ha.supported
    have := paddedLength_clientAccesses ha.command harm
    rw [bodyOf_eq, List.length_drop, Arm.size]
    omega
  | params d =>
    rw [harm] at h
    exact absurd rfl h
  | _ => exact Nat.zero_le _

/-- **The exact condition.** Over any state, no reply is longer than its request iff every
datagram that reaches the dispatcher has room for the body of its reply behind a header. -/
theorem replies_fit_iff (st : State F) (access : Option L2.Addrfilt.AuthTable) (log : Option L)
    (ms : List Message) :
    (∀ m reply, .transmit m reply ∈ (readFromCmdSocket (dispatch st) access log ms).1 →
      replyFits m.data.length reply.length = true) ↔
    ∀ p ∈ handled (dispatch st) access log ms, Reaches access p.1 p.2 →
      28 + (arm (commandOf p.2.data)).replySize st (bodyOf p.2.data) ≤ p.2.data.length := by
  constructor
  · intro h p hp hreach
    by_cases hsize : (arm (commandOf p.2.data)).replySize st (bodyOf p.2.data) = 0
    · have := hreach.2.2.ge
      omega
    · obtain ⟨r, hr⟩ := dispatch_returns_of_replySize hreach.2.2 hsize
      obtain ⟨reply, hmem, hlen⟩ := transmit_mem_handleMessage hreach hr
      have hfits := h p.2 reply (Trace.mem_run_iff.2 ⟨p, hp, hmem⟩)
      rw [replyFits, decide_eq_true_eq] at hfits
      have := Arm.run_length hr
      omega
  · intro h m reply hmem
    obtain ⟨p, hp, hmem⟩ := Trace.mem_run_iff.1 hmem
    rw [replyFits, decide_eq_true_eq]
    obtain ⟨rfl, ⟨hlen, hge⟩ | ⟨hreach, r, hr, hlen⟩⟩ := of_transmit_mem_handleMessage hmem
    · omega
    · have := Arm.run_length hr
      have := h p hp hreach
      omega

/-- `ntp source name` in the 284 bytes that `validate_request` asks for, from 192.0.2.1. -/
def nameMessage : Message :=
  ⟨⟨1, 0xc0000201, 0, 32323⟩, [6, 1, 0, 0, 0, 65] ++ List.replicate 278 0⟩

/-- The reply has 524 bytes, also without a source. -/
theorem source_name_amplified :
    nameMessage.data.length = 284 ∧
    ∃ reply, .transmit nameMessage reply ∈ (readFromCmdSocket (dispatch State.idle) none
      (none : Option Unit) [nameMessage]).1 ∧ reply.length = 524 ∧
      replyFits nameMessage.data.length reply.length = false := by
  refine ⟨by decide +kernel, [6, 2, 0, 0, 0, 65, 0, 19] ++ List.replicate 516 0, ?_, ?_, ?_⟩
  all_goals decide +kernel

end ChronyRs.Bugs.Amplification

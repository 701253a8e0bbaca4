import ChronyRs.L5Daemon.Privops

/-!
# The helper's replies are not those of the daemon (`privops.rs`)

A privileged call should give the same result and take the same operations whether the daemon does
it itself or asks its helper, and a request that the helper refuses should not pass for a success.
It differs in three places.

* `PrivClient::name_to_ipaddress` cuts the helper's addresses to `max_addrs`, and returns all of
  them when it resolves the name itself.
* Every branch that asks the helper reads `rc` of the response and none reads `fatal_error`.
  `PrivResponse::fatal` leaves `rc` at its default, 0, which is the code for success.
* `do_bind_socket` closes the socket behind the bind, and the direct branch does not. Between two
  processes this is the helper's own copy of the descriptor; on one backend a socket that was closed
  cannot be used again. The result is about backends for which closing makes no difference
  (`Lawful.closeUnmoved`).

The helper checks a port a second time. A backend that gives another answer then has its `bind`
refused by the helper, and the daemon is told that the socket is bound.

Fix: `take(max_addrs)` in the direct branch too, and treat a response with `fatal_error` set as a
failure of the call.
-/
namespace ChronyRs.Bugs.HelperReplies

open L5.Privops

/-- **When the helper is transparent.** A sequence of calls has the same outcome with and without
the helper exactly if no name in it has more addresses than were asked for, and a fatal response is
not reported as a success exactly if its return code is not that of one. -/
theorem helper_transparent_iff {B : Type} [PrivBackend B] (b : B) :
    (∀ R : B → B → Prop, Lawful R → ∀ calls : List Call,
      (outcome direct calls b = outcome helped calls b ↔ AllFit calls b)) ∧
    ∀ (transport : Transport B) (c : Call),
      ((∀ res ∈ heard transport c b, res.fatalError = true →
          (PrivClient.call ⟨true⟩ transport c b).1.rc? ≠ some 0) ↔
        (c ≠ .reloadDns → ∀ res ∈ heard transport c b, res.fatalError = true → res.rc ≠ 0)) :=
  ⟨fun _ hR calls => outcome_eq_iff hR calls b, fun transport c => fatal_reported_iff transport c b⟩

/-! ## Instances -/

/-- A host on which everything succeeds; every name has the same addresses. -/
structure Host where
  addrs : List UInt32
  deriving DecidableEq, Repr

instance : PrivBackend Host where
  adjustTime delta := return (0, 0, delta)
  adjustTimex tmx := return (0, 0, tmx)
  setTime _ := return (0, 0)
  bindSocket _ _ := return (0, 0)
  nameToIpaddress _ := do return (0, (← get).addrs)
  reloadDns := return
  sockaddrPort _ := return 123
  allowedPorts := return (123, 0, 319)
  closeSocket _ := return

theorem Host.lawful : Lawful (Eq : Host → Host → Prop) where
  adjustTime _ := .refl _
  adjustTimex _ := .refl _
  setTime _ := .refl _
  bindSocket _ _ := .refl _
  nameToIpaddress _ := .refl _
  reloadDns := .refl _
  sockaddrPort _ := .refl _
  allowedPorts := .refl _
  closeSocket _ := .refl _
  equiv := eq_equivalence
  portUnmoved _ _ := rfl
  portsUnmoved _ := rfl
  closeUnmoved _ _ := rfl

/-- A host whose NTP port is changed after it was asked for once. -/
inductive MovedPort where
  | before | after
  deriving DecidableEq, Repr

instance : PrivBackend MovedPort where
  adjustTime delta := return (0, 0, delta)
  adjustTimex tmx := return (0, 0, tmx)
  setTime _ := return (0, 0)
  bindSocket _ _ := return (0, 0)
  nameToIpaddress _ := return (0, [])
  reloadDns := return
  sockaddrPort _ := return 123
  allowedPorts := fun s => match s with
    | .before => ((123, 0, 319), .after)
    | .after => ((124, 0, 319), .after)
  closeSocket _ := return

/-- A name with three addresses when two were asked for; a helper that ends with a fatal response to
a request to set the clock; a socket that is reported as bound when nothing was bound. -/
theorem helper_not_transparent :
    outcome direct [.nameToIpaddress "ntp.example" 2] (⟨[1, 2, 3]⟩ : Host) =
        ([.addresses 0 [1, 2, 3]], [.resolve "ntp.example"]) ∧
      outcome helped [.nameToIpaddress "ntp.example" 2] (⟨[1, 2, 3]⟩ : Host) =
        ([.addresses 0 [1, 2]], [.resolve "ntp.example"]) ∧
      heard (fun _ => return .fatal "no helper") (.setTime ⟨1, 0⟩) (⟨[]⟩ : Host) =
        [.fatal "no helper"] ∧
      (PrivClient.call ⟨true⟩ (fun _ => return .fatal "no helper") (.setTime ⟨1, 0⟩)
        (⟨[]⟩ : Host)).1 = .code 0 ∧
      outcome direct [.bindSocket 3 {}] MovedPort.before = ([.bound 0], [.bindSocket 3 {}]) ∧
      outcome helped [.bindSocket 3 {}] MovedPort.before = ([.bound 0], []) := by
  refine ⟨?_, ?_, ?_, ?_, ?_, ?_⟩ <;> decide

/-- Two addresses when two were asked for, and a fatal response with a code of its own. -/
theorem helper_transparent_two :
    outcome direct [.bindSocket 3 {}, .nameToIpaddress "ntp.example" 2] (⟨[1, 2]⟩ : Host) =
        outcome helped [.bindSocket 3 {}, .nameToIpaddress "ntp.example" 2] (⟨[1, 2]⟩ : Host) ∧
      ∀ res ∈ heard (fun _ => return { fatalError := true, rc := -1 }) (.setTime ⟨1, 0⟩)
        (⟨[]⟩ : Host), res.fatalError = true → (PrivClient.call ⟨true⟩
          (fun _ => return { fatalError := true, rc := -1 }) (.setTime ⟨1, 0⟩)
          (⟨[]⟩ : Host)).1.rc? ≠ some 0 :=
  ⟨((helper_transparent_iff (⟨[1, 2]⟩ : Host)).1 Eq Host.lawful _).mpr
      ⟨trivial, by decide, trivial⟩,
    ((helper_transparent_iff (⟨[]⟩ : Host)).2 _ _).mpr (by decide)⟩

end ChronyRs.Bugs.HelperReplies

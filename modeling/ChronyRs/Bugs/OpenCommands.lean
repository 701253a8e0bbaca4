import ChronyRs.L4Cmd.Dispatch

/-!
# Commands from the network are dispatched without authorisation

`is_command_allowed` has the table that says which commands a host may send over the network,
and nothing calls it: `read_from_cmd_socket` asks the access table about the address, the
client log about the rate and `validate_request` about the header, and then dispatches
whatever the command is. So `shutdown`, `allow` or `add source`, which belong on the Unix
socket, are dispatched for any host that may query the daemon.

* `dispatched_allowed_iff`: exactly when a read dispatches only what is allowed.
* `shutdown_dispatched`: `shutdown` from another host.
-/
namespace ChronyRs.Bugs.OpenCommands

open L4.Cmd

variable {L : Type} [ClientLog L]

/-- No command is left to local hosts. -/
theorem permissions_ne_loc : ∀ p ∈ permissions, p ≠ .loc := by decide

/-- Over the network, loopback included, only open commands are allowed. -/
theorem isCommandAllowed_iff (c : UInt16) (localhost : Bool) :
    isCommandAllowed c false localhost = .ok true ↔ commandPermission c = .ok .opn := by
  have hloc : ∀ p, commandPermission c = .ok p → p ≠ .loc := by
    intro p hp
    exact permissions_ne_loc p (List.mem_of_getElem? (index_eq_ok.1 hp))
  unfold isCommandAllowed
  cases hp : commandPermission c with
  | error e => simp
  | ok p =>
    cases p with
    | opn => exact iff_of_true rfl rfl
    | loc => exact absurd rfl (hloc _ hp)
    | auth => exact iff_of_false nofun nofun

/-- **The exact condition.** For every dispatcher, access table, client log and read of
datagrams: only allowed commands are dispatched iff every datagram that passes the access table,
the rate limit and the checks of its header has an open command. -/
theorem dispatched_allowed_iff (d : UInt16 → Bytes → Rust Reply)
    (access : Option L2.Addrfilt.AuthTable) (log : Option L) (ms : List Message) :
    (∀ m c, .dispatch m c ∈ (readFromCmdSocket d access log ms).1 →
      isCommandAllowed c false (remoteToIpaddr m.remote).isLoopback = .ok true) ↔
    ∀ p ∈ handled d access log ms, Reaches access p.1 p.2 →
      commandPermission (commandOf p.2.data) = .ok .opn := by
  constructor
  · intro h p hp hreach
    have hmem := dispatch_mem_handleMessage (d := d).2 ⟨hreach, rfl, rfl⟩
    exact (isCommandAllowed_iff _ _).1 (h p.2 _ (Trace.mem_run_iff.2 ⟨p, hp, hmem⟩))
  · intro h m c hmem
    obtain ⟨p, hp, hmem⟩ := Trace.mem_run_iff.1 hmem
    obtain ⟨hreach, rfl, rfl⟩ := dispatch_mem_handleMessage.1 hmem
    exact (isCommandAllowed_iff _ _).2 (h p hp hreach)

/-- `shutdown` in a datagram of 28 bytes from 192.0.2.1. -/
def shutdownMessage : Message :=
  ⟨⟨1, 0xc0000201, 0, 32323⟩, [6, 1, 0, 0, 0, 62] ++ List.replicate 22 0⟩

/-- It is dispatched, over any state; only the Unix socket may send it. -/
theorem shutdown_dispatched :
    .dispatch shutdownMessage 62 ∈ (readFromCmdSocket (dispatch State.idle) none
      (none : Option Unit) [shutdownMessage]).1 ∧
    commandPermission 62 = .ok .auth ∧
    isCommandAllowed 62 false (remoteToIpaddr shutdownMessage.remote).isLoopback = .ok false := by
  refine ⟨?_, ?_, ?_⟩
  all_goals decide +kernel

end ChronyRs.Bugs.OpenCommands

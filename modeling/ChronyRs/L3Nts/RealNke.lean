import ChronyRs.L3Nts.Recovery

/-!
# The production NTS-KE client (`nts_ntp_client.rs`, `nts_tls.rs`)

`RealNkeClient` is the `NkeClient` that performs an exchange on a TLS session, all of it in `start`.
The session is a parameter, and so are the clock, the random generator and the source table behind
the other three closures of an `NtsClient` (`Env`).

`exchanges` counts the exchanges on the session, which the code does not record.
-/
namespace ChronyRs.L3.Nts

open L2

/-- mirrors nts_tls.rs:16-22 -/
inductive TlsError where
  | dnsResolution | connectionFailed | handshakeFailed | keyExportFailed | invalidResponse
  deriving DecidableEq, Repr

/-- Without the nonce and the protocol name, which nothing reads.
mirrors nts_tls.rs:27-40 -/
structure KeHandshakeResult where
  keyLength : Nat
  c2sKey : Bytes
  s2cKey : Bytes
  cookies : List Bytes
  deriving DecidableEq, Repr

/-- mirrors nts_tls.rs:45-52 -/
class TlsSession (T : Type) where
  keHandshake : T → String → UInt16 → T × Except TlsError KeHandshakeResult

/-- mirrors nts_ntp_client.rs:749-757 -/
structure RealNkeClient (T : Type) where
  tls : Option T
  host : String
  port : UInt16
  name : String
  data : Option NkeData
  started : Bool
  destroyed : Bool
  exchanges : Nat
  deriving DecidableEq, Repr

namespace RealNkeClient

variable {T : Type}

/-- mirrors nts_ntp_client.rs:763-772 -/
def new (tls : T) (host : String) (port : UInt16) : RealNkeClient T :=
  ⟨some tls, host, port, "", none, false, false, 0⟩

/-- mirrors nts_ntp_client.rs:776-778 -/
def create (n : RealNkeClient T) (name : String) : RealNkeClient T := { n with name }

/-- The data that an exchange delivers.
mirrors nts_ntp_client.rs:793-808 -/
def nkeData (result : KeHandshakeResult) : NkeData :=
  { context := ⟨if result.keyLength = 32 then .aesSivCmac256 else .aes128GcmSiv, result.c2sKey,
      result.s2cKey⟩
    cookies := result.cookies.map NkeCookie.mk
    ntpAddress := ⟨none, 0⟩ }

/-- mirrors nts_ntp_client.rs:780-817 -/
def start [TlsSession T] (n : RealNkeClient T) : RealNkeClient T × Bool :=
  if n.started ∨ n.destroyed then (n, false)
  else
    match n.tls with
    | none => (n, false)
    | some tls =>
      match TlsSession.keHandshake tls n.host n.port with
      | (tls, .ok result) =>
        ({ n with
            started := true, tls := some tls, data := some (nkeData result)
            exchanges := n.exchanges + 1 }, true)
      | (tls, .error _) =>
        ({ n with started := true, tls := some tls, exchanges := n.exchanges + 1 }, false)

/-- mirrors nts_ntp_client.rs:823-825 -/
def getNtsData (n : RealNkeClient T) : RealNkeClient T × Option NkeData :=
  ({ n with data := none }, n.data)

/-- mirrors nts_ntp_client.rs:831-835 -/
def destroy (n : RealNkeClient T) : RealNkeClient T :=
  { n with destroyed := true, data := none, tls := none }

end RealNkeClient

/-- The clock, the random generator and the source table. -/
class Env (E : Type) (F : outParam Type) where
  monoTime : E → E × F
  rng : E → E × UInt8
  updateSource : E → NtpAddress → NtpAddress → E × Bool

structure RealHost (T E : Type) where
  nke : RealNkeClient T
  env : E
  deriving DecidableEq, Repr

/-- The retry factor is 2, and `is_active` is always false, as the exchange is over when `start`
returns.
mirrors nts_ntp_client.rs:775-836 -/
instance {T E F : Type} [TlsSession T] [Env E F] : NtsHost (RealHost T E) F where
  create h _ name _ := { h with nke := h.nke.create name }
  start h := ({ h with nke := h.nke.start.1 }, h.nke.start.2)
  isActive h := (h, false)
  getNtsData h _ := ({ h with nke := h.nke.getNtsData.1 }, h.nke.getNtsData.2)
  getRetryFactor h := (h, 2)
  destroy h := { h with nke := h.nke.destroy }
  monoTime h := ({ h with env := (Env.monoTime h.env).1 }, (Env.monoTime h.env).2)
  rng h := ({ h with env := (Env.rng h.env).1 }, (Env.rng h.env).2)
  updateSource h old new := ({ h with env := (Env.updateSource h.env old new).1 },
    (Env.updateSource h.env old new).2)

namespace RealNkeClient

variable {T : Type} [TlsSession T]

/-- `start` performs one exchange on the session and reports its outcome. -/
def Performs (n : RealNkeClient T) : Prop :=
  n.start.1.exchanges = n.exchanges + 1 ∧
    ∃ tls, n.tls = some tls ∧ (n.start.2 = true ↔
      ∃ r, (TlsSession.keHandshake tls n.host n.port).2 = .ok r)

/-- A client that was never started nor destroyed. -/
structure Unused (n : RealNkeClient T) : Prop where
  started_eq : n.started = false
  destroyed_eq : n.destroyed = false
  tls_some : n.tls.isSome = true

theorem Unused.performs {n : RealNkeClient T} (h : n.Unused) : n.Performs := by
  obtain ⟨tls, htls⟩ := Option.isSome_iff_exists.1 h.tls_some
  unfold Performs start
  rw [if_neg (by simp [h.started_eq, h.destroyed_eq]), htls]
  dsimp only
  rcases hk : TlsSession.keHandshake tls n.host n.port with ⟨tls', _ | result⟩
  · exact ⟨rfl, tls, rfl, by simp [hk]⟩
  · exact ⟨rfl, tls, rfl, by simp [hk]⟩

/-- A destroyed client performs no exchange any more. -/
theorem not_performs_of_destroyed {n : RealNkeClient T} (h : n.destroyed = true) :
    ¬ n.Performs := by
  intro hp
  unfold Performs start at hp
  rw [if_pos (.inr h)] at hp
  exact absurd hp.1 (by simp)

end RealNkeClient

end ChronyRs.L3.Nts

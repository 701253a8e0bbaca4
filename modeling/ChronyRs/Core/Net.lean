import Mathlib.Init

/-!
# Internet addresses (`std::net`)
-/
namespace ChronyRs

inductive IpAddr where
  | v4 (addr : UInt32)
  | v6 (addr : BitVec 128)
  deriving DecidableEq, Repr

/-- `IpAddr::is_multicast`: `224.0.0.0/4` and `ff00::/8`. -/
def IpAddr.isMulticast : IpAddr → Bool
  | .v4 a => a >>> 28 = 0xe
  | .v6 a => a >>> 120 = 0xff

/-- `IpAddr::is_loopback`: `127.0.0.0/8` and `::1`. -/
def IpAddr.isLoopback : IpAddr → Bool
  | .v4 a => a >>> 24 = 0x7f
  | .v6 a => a = 1

/-- `std::net::SocketAddr`; flow information and scope id take part in comparisons. -/
structure SocketAddr where
  ip : IpAddr
  port : UInt16
  flowinfo : UInt32 := 0
  scopeId : UInt32 := 0
  deriving DecidableEq, Repr

end ChronyRs

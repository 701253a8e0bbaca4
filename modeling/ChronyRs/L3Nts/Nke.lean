import ChronyRs.Core.F64
import ChronyRs.L1Encoding.Ext
import ChronyRs.L2Auth.Siv

/-!
# Sessions, cookies and the boundaries of NTS (`nts_ntp_client.rs`, `nts_ntp_server.rs`)

The data the NTS client and server exchange with their environment, and the
environment itself: the NTS-KE client, clock, random generator and source update
that are injected into the client (`NtsHost`), the cookie codec and random
generator injected into the server (`CookieCodec`). Each is a state with
operations that may answer anything.
-/
namespace ChronyRs.L3.Nts

open L1.Ext L2

/-- mirrors nts_ntp_server.rs:76-83; an `NkeKey` is its bytes. -/
structure NkeContext where
  algorithm : SivAlgorithm
  c2s : Bytes
  s2c : Bytes
  deriving DecidableEq, Repr

/-- mirrors nts_ntp_server.rs:87-90 -/
structure NkeCookie where
  bytes : Bytes
  deriving DecidableEq, Repr

/-- mirrors nts_ntp_client.rs:77-82 -/
structure NtpAddress where
  ip : Option UInt32
  port : UInt16
  deriving DecidableEq, Repr

/-- mirrors nts_ntp_client.rs:86-93 -/
structure NkeData where
  context : NkeContext
  cookies : List NkeCookie
  ntpAddress : NtpAddress
  deriving DecidableEq, Repr

/-- The `NkeClient` trait and the three closures of `NtsClient`.
mirrors nts_ntp_client.rs:73,96-109,161-165 -/
class NtsHost (H : Type) (F : outParam Type) where
  create : H → NtpAddress → String → UInt32 → H
  start : H → H × Bool
  isActive : H → H × Bool
  getNtsData : H → Nat → H × Option NkeData
  getRetryFactor : H → H × Int
  destroy : H → H
  monoTime : H → H × F
  rng : H → H × UInt8
  updateSource : H → NtpAddress → NtpAddress → H × Bool

section
variable {α : Type}

/-- `for b in bytes.iter_mut() { *b = rng() }` over `n` bytes. -/
def fillList (next : α → α × UInt8) : Nat → α → α × Bytes
  | 0, a => (a, [])
  | n + 1, a => ((fillList next n (next a).1).1, (next a).2 :: (fillList next n (next a).1).2)

theorem fillList_length (next : α → α × UInt8) : ∀ n a, (fillList next n a).2.length = n
  | 0, _ => rfl
  | n + 1, a => by simp [fillList, fillList_length next n]

def fillBuf (next : α → α × UInt8) (n : Nat) (a : α) : α × Buf n :=
  ((fillList next n a).1, ⟨(fillList next n a).2, fillList_length next n a⟩)

end

/-- The `CookieCodec` trait and the server's random generator.
mirrors nts_ntp_server.rs:94-99,110-111 -/
class CookieCodec (K : Type) where
  decodeCookie : K → NkeCookie → K × Option NkeContext
  generateCookie : K → NkeContext → K × Option NkeCookie
  rng : K → K × UInt8

/-! ## Concrete boundaries

A host whose NTS-KE exchange always delivers the same data, and a codec whose
cookies are the two keys in the clear, for concrete runs. -/

structure StaticHost where
  data : Option NkeData
  deriving DecidableEq, Repr

instance : NtsHost StaticHost ℚ where
  create h _ _ _ := h
  start h := (h, true)
  isActive h := (h, false)
  getNtsData h _ := (h, h.data)
  getRetryFactor h := (h, 0)
  destroy h := h
  monoTime h := (h, 0)
  rng h := (h, 7)
  updateSource h _ _ := (h, true)

structure PlainCodec where
  deriving DecidableEq, Repr

instance : CookieCodec PlainCodec where
  decodeCookie k cookie :=
    (k, if cookie.bytes.length = 64 then
      some ⟨.aesSivCmac256, cookie.bytes.take 32, cookie.bytes.drop 32⟩ else none)
  generateCookie k context :=
    (k,
      if context.algorithm = .aesSivCmac256 ∧ context.c2s.length = 32 ∧ context.s2c.length = 32
      then some ⟨context.c2s ++ context.s2c⟩ else none)
  rng k := (k, 5)

/-- A request for `PlainCodec` under the null cipher: a unique identifier, a 64-byte
cookie and an authenticator. -/
def sampleRequest : NtpPacketBuf :=
  Buf.ofBytes 1140 (0x23 :: List.replicate 47 0 ++ [1, 4, 0, 36] ++ List.replicate 32 9 ++
    [2, 4, 0, 68] ++
    List.replicate 64 3 ++ [4, 4, 0, 40, 0, 16, 0, 16] ++ List.replicate 16 7 ++
      List.replicate 16 0)

def sampleInfo : NtpPacketInfo :=
  { length := 192, version := 4, mode := 3, extFields := 3, authMode := 4 }

end ChronyRs.L3.Nts

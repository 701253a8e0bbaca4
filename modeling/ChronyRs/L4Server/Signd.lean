import ChronyRs.Core.Act
import ChronyRs.Core.Ring
import ChronyRs.Core.Service

/-!
# The bridge to the signing daemon (`ntp_signd.rs`)

MS-SNTP responses are signed by an external daemon. Requests wait in a ring of 16 slots; the first
is written to the daemon's socket and its response read back, each in as many pieces as the socket
likes, and the signed packet is sent to the client.

* `call_ends`: in every state of a run every call returns, and its effect is a step of a queue that
  is served in order.
* `signing_bridge_fifo`: over a whole run, at most 15 requests wait, a slot is not touched while its
  request waits, and the packets that were sent are answers to requests in the order they were
  queued, each to the addresses of its request.
-/
namespace ChronyRs.L4.Signd

/-! ## Types -/

def signdVersion : UInt32 := 0
def signToClient : UInt32 := 0
def signingSuccess : UInt32 := 3
def maxQueueLength : Nat := 16
def ntpHeaderLength : Nat := 48
def requestHeader : Nat := 20
def responseHeader : Nat := 16
def responseSize : Nat := 16 + 1140

/-- mirrors ntp_signd.rs:98-117 -/
class SigndIo (H : Type) where
  openSocket : H → Bool × H
  closeSocket : H → Unit × H
  setOutputEvent : (enable : Bool) → H → Unit × H
  send : (data : Bytes) → H → Int × H
  /-- The buffer is filled by the call, up to its length. -/
  receive : {n : Nat} → (buf : Buf n) → H → (Int × Buf n) × H
  isServerSocket : (localFd : Int) → H → Bool × H
  sendPacket : (packet : Bytes) → (remote local_ : UInt64) → H → Unit × H

/-- mirrors ntp_signd.rs:122-127 -/
inductive SocketEvent where
  | output | input
  deriving DecidableEq, Repr

/-- mirrors ntp_signd.rs:131-148 -/
structure SignInstance where
  remote : UInt64 := 0
  local_ : UInt64 := 0
  localFd : Int := 0
  sent : Nat := 0
  received : Nat := 0
  requestLength : Nat := 0
  request : Bytes := []
  response : Bytes := []
  deriving DecidableEq, Repr

/-- mirrors ntp_signd.rs:151-157 -/
structure SigndBridge where
  enabled : Bool
  sockOpen : Bool
  queue : List SignInstance
  head : Nat
  tail : Nat
  deriving DecidableEq, Repr

/-! ## Methods -/

/-- mirrors ntp_signd.rs:162-170 -/
def SigndBridge.new (enabled : Bool) : SigndBridge :=
  ⟨enabled, false, List.replicate maxQueueLength {}, 0, 0⟩

/-- mirrors ntp_signd.rs:178-180 -/
def nextIndex (index : Nat) : Nat := (index + 1) % maxQueueLength

/-- mirrors ntp_signd.rs:183-185 -/
def SigndBridge.isQueueEmpty (b : SigndBridge) : Bool := b.head == b.tail

/-- A packet to be signed and where it goes: the arguments of `sign_and_send_packet`. -/
structure SignRequest where
  keyId : UInt32
  packet : Bytes
  remote : UInt64
  local_ : UInt64
  localFd : Int
  deriving DecidableEq, Repr

/-- The header of a request in the given slot.

mirrors ntp_signd.rs:239-246 -/
def SignRequest.header (r : SignRequest) (tail requestLength : Nat) : Bytes :=
  be32 (UInt32.ofNat (requestLength - 4)) ++ be32 signdVersion ++ be32 signToClient ++
    be16 tail ++ [0, 0] ++ be32 r.keyId

section
variable {H : Type} [SigndIo H]

/-- A method of `SigndBridge` with a `SigndIo`. -/
abbrev Method (H α : Type) : Type := Act (SigndBridge × H) α

open Act (self modifySelf host)

/-- mirrors ntp_signd.rs:188-198 -/
def openSocket : Method H Bool := do
  let b ← self
  if b.sockOpen then
    pure true
  else
    let opened ← host SigndIo.openSocket
    Act.when opened (modifySelf fun b => { b with sockOpen := true })
    pure opened

/-- mirrors ntp_signd.rs:201-206 -/
def closeSocket : Method H Unit := do
  host SigndIo.closeSocket
  modifySelf fun b => { b with sockOpen := false, head := 0, tail := 0 }

/-- `self.queue[i] = inst`, through the reference taken before. -/
def putInstance (i : Nat) (inst : SignInstance) : Method H Unit :=
  modifySelf fun b => { b with queue := b.queue.set i inst }

/-- mirrors ntp_signd.rs:212-266 -/
def signAndSendPacket (r : SignRequest) (infoLength : Int) : Method H Bool := do
  let b ← self
  if !b.enabled then
    pure false
  else if b.head = nextIndex b.tail then
    pure false
  else if infoLength ≠ ntpHeaderLength then
    pure false
  else
    let opened ← openSocket
    if !opened then
      pure false
    else
      let requestLength := requestHeader + infoLength.toNat
      let packet ← Act.lift (slice r.packet 0 infoLength.toNat)
      let _ ← Act.lift (index b.queue b.tail)
      putInstance b.tail
        { remote := r.remote, local_ := r.local_, localFd := r.localFd, sent := 0, received := 0
          requestLength, request := r.header b.tail requestLength ++ packet
          response := List.replicate responseSize 0 }
      Act.when b.isQueueEmpty (host (SigndIo.setOutputEvent true))
      modifySelf fun b => { b with tail := nextIndex b.tail }
      pure true

/-- mirrors ntp_signd.rs:341-365 -/
def processResponse (head responseLength : Nat) : Method H Unit := do
  let b ← self
  let inst ← Act.lift (index b.queue head)
  let hi ← Act.lift (index inst.request 12)
  let lo ← Act.lift (index inst.request 13)
  let responseId ← Act.lift (slice inst.response 12 16)
  if fromBe16 hi lo ≠ fromBe responseId then
    pure ()
  else
    let op ← Act.lift (slice inst.response 8 12)
    if fromBe op ≠ signingSuccess.toNat then
      pure ()
    else
      let server ← host (SigndIo.isServerSocket inst.localFd)
      if !server then
        pure ()
      else
        let signedLen := responseLength - responseHeader
        let packet ← Act.lift (slice inst.response responseHeader (responseHeader + signedLen))
        host (SigndIo.sendPacket packet inst.remote inst.local_)

/-- mirrors ntp_signd.rs:272-294 -/
def onOutput : Method H Unit := do
  let b ← self
  let inst ← Act.lift (index b.queue b.head)
  let data ← Act.lift (slice inst.request inst.sent inst.requestLength)
  let s ← host (SigndIo.send data)
  let inst := if 0 ≤ s then { inst with sent := inst.sent + s.toNat } else inst
  putInstance b.head inst
  if s < 0 then
    closeSocket
  else if inst.sent < inst.requestLength then
    pure ()
  else
    host (SigndIo.setOutputEvent false)

/-- The bytes from `received` on are handed to the socket.

mirrors ntp_signd.rs:301-309 -/
def receiveInto (inst : SignInstance) : Method H (Int × SignInstance) := do
  let rest ← Act.lift (slice inst.response inst.received inst.response.length)
  let (s, buf) ← host (SigndIo.receive (⟨rest, rfl⟩ : Buf rest.length))
  pure (s, { inst with
    response := inst.response.take inst.received ++ buf.bytes
    received := if 0 < s then inst.received + s.toNat else inst.received })

/-- mirrors ntp_signd.rs:295-336 -/
def onInput : Method H Unit := do
  let b ← self
  if b.isQueueEmpty then
    closeSocket
  else
    let inst ← Act.lift (index b.queue b.head)
    let (s, inst) ← receiveInto inst
    putInstance b.head inst
    if s ≤ 0 then
      closeSocket
    else if inst.received < 4 then
      pure ()
    else
      let lengthField ← Act.lift (slice inst.response 0 4)
      let responseLength := fromBe lengthField + 4
      if ¬ (responseHeader ≤ responseLength ∧ responseLength ≤ responseSize) then
        closeSocket
      else if inst.received < responseLength then
        pure ()
      else
        processResponse b.head responseLength
        modifySelf fun b => { b with head := nextIndex b.head }
        let b ← self
        Act.when (!b.isQueueEmpty) (host (SigndIo.setOutputEvent true))

/-- mirrors ntp_signd.rs:270-338 -/
def onSocketEvent (event : SocketEvent) : Method H Unit :=
  match event with
  | .output => onOutput
  | .input => onInput

end

/-! ## Runs -/

structure Packet where
  bytes : Bytes
  remote : UInt64
  local_ : UInt64
  deriving DecidableEq, Repr

/-- A host that keeps account of the packets that were sent. -/
structure Watched (H : Type) where
  inner : H
  out : List Packet := []

/-- A call that sends no packet. -/
def Watched.pass {H α : Type} (call : H → α × H) (w : Watched H) : α × Watched H :=
  ((call w.inner).1, { w with inner := (call w.inner).2 })

instance {H : Type} [SigndIo H] : SigndIo (Watched H) where
  openSocket := Watched.pass SigndIo.openSocket
  closeSocket := Watched.pass SigndIo.closeSocket
  setOutputEvent enable := Watched.pass (SigndIo.setOutputEvent enable)
  send data := Watched.pass (SigndIo.send data)
  receive buf := Watched.pass (SigndIo.receive buf)
  isServerSocket fd := Watched.pass (SigndIo.isServerSocket fd)
  sendPacket packet remote local_ w :=
    ((), ⟨(SigndIo.sendPacket packet remote local_ w.inner).2, w.out ++ [⟨packet, remote, local_⟩]⟩)

/-- A transfer is of at most as many bytes as were offered. It may be of fewer, or fail. -/
structure Transfers (H : Type) [SigndIo H] : Prop where
  send : ∀ (data : Bytes) (h : H), (SigndIo.send data h).1 ≤ data.length
  receive : ∀ {n : Nat} (buf : Buf n) (h : H), (SigndIo.receive buf h).1.1 ≤ n

inductive Event where
  | sign (r : SignRequest) (infoLength : Int)
  | socket (event : SocketEvent)
  deriving DecidableEq, Repr

/-- A packet to be signed has a whole header. -/
def Event.Whole : Event → Prop
  | .sign r _ => ntpHeaderLength ≤ r.packet.length
  | .socket _ => True

/-- The request that a call accepted, given what it returned. -/
def Event.accepted : Event × Bool → Option SignRequest
  | (.sign r _, true) => some r
  | _ => none

section
variable {H : Type} [SigndIo H]

def call : Event → Method (Watched H) Bool
  | .sign r infoLength => signAndSendPacket r infoLength
  | .socket event => do
    onSocketEvent event
    pure false

/-- A call that returns, with what it returned. -/
def Step (s : SigndBridge × Watched H) (e : Event × Bool) (s' : SigndBridge × Watched H) : Prop :=
  call e.1 s = (.ok e.2, s')

end

/-! ## The queue -/

/-- What is left of the request can be sent. -/
structure SignInstance.Fits (inst : SignInstance) : Prop where
  sent : inst.sent ≤ inst.requestLength
  length : inst.requestLength = inst.request.length

structure SignInstance.Holds (inst : SignInstance) (r : SignRequest) : Prop where
  remote : inst.remote = r.remote
  local_ : inst.local_ = r.local_
  localFd : inst.localFd = r.localFd
  request : ∃ slot, inst.request = r.header slot 68 ++ r.packet.take ntpHeaderLength
  whole : ntpHeaderLength ≤ r.packet.length
  response : inst.response.length = responseSize
  received : inst.received ≤ responseSize

/-- The requests of the slots from `head` on wait, in this order, and the packets that were sent
went to the addresses of the requests they answer. -/
structure Refines {H : Type} (s : SigndBridge × Watched H) (σ : Service SignRequest Bytes) :
    Prop where
  length : s.1.queue.length = maxQueueLength
  head : s.1.head < maxQueueLength
  pending : σ.pending.length < maxQueueLength
  tail : s.1.tail = (s.1.head + σ.pending.length) % maxQueueLength
  fits : ∀ inst ∈ s.1.queue, inst.Fits
  holds : List.Forall₂ SignInstance.Holds (ring s.1.queue s.1.head σ.pending.length) σ.pending
  out : s.2.out = σ.answered.map fun a => ⟨a.2, a.1.remote, a.1.local_⟩

section
variable {H : Type} {s : SigndBridge × Watched H} {σ : Service SignRequest Bytes}

variable {inst : SignInstance} {r : SignRequest} {s' : SigndBridge × Watched H}

theorem SignInstance.Holds.request_length (h : inst.Holds r) :
    inst.request.length = 68 := by
  obtain ⟨slot, hreq⟩ := h.request
  rw [hreq]
  simp [SignRequest.header, be16_length, be32_length, List.length_take, Nat.min_eq_left h.whole]
  rfl

theorem refines_new (enabled : Bool) (h : H) :
    Refines (SigndBridge.new enabled, ⟨h, []⟩) .init := by
  refine ⟨rfl, (by decide : 0 < maxQueueLength), (by decide : 0 < maxQueueLength), rfl,
    fun inst hinst => ?_, .nil, rfl⟩
  rw [List.eq_of_mem_replicate hinst]
  exact ⟨Nat.le_refl 0, rfl⟩

/-- Only the queue and the account matter. -/
theorem Refines.frame (h : Refines s σ) (hq : s'.1.queue = s.1.queue) (hh : s'.1.head = s.1.head)
    (ht : s'.1.tail = s.1.tail) (ho : s'.2.out = s.2.out) : Refines s' σ := by
  refine ⟨hq ▸ h.length, hh ▸ h.head, h.pending, ?_, hq ▸ h.fits, ?_, ho ▸ h.out⟩
  · rw [ht, hh]
    exact h.tail
  · rw [hq, hh]
    exact h.holds

theorem Refines.isQueueEmpty (h : Refines s σ) : s.1.isQueueEmpty = true ↔ σ.pending = [] := by
  have h1 := h.head
  have h2 := h.pending
  have h3 := h.tail
  unfold SigndBridge.isQueueEmpty
  rw [beq_iff_eq, ← List.length_eq_zero_iff]
  unfold maxQueueLength at *
  omega

/-- The slot of the first request, or of the next one. -/
theorem Refines.index (h : Refines s σ) :
    ∃ inst, index s.1.queue s.1.head = .ok inst ∧ s.1.queue[s.1.head]? = some inst ∧ inst.Fits ∧
      ∀ r rest, σ.pending = r :: rest → inst.Holds r := by
  have hlt : s.1.head < s.1.queue.length := h.length ▸ h.head
  refine ⟨s.1.queue[s.1.head], index_of_lt hlt, List.getElem?_eq_getElem hlt,
    h.fits _ (List.getElem_mem hlt), fun r rest hp => ?_⟩
  have hholds := h.holds
  have hpending := h.pending
  rw [hp, List.length_cons] at hholds hpending
  rw [ring_pop h.length h.head (by omega) {}, List.forall₂_cons, List.getD_eq_getElem?_getD,
    List.getElem?_eq_getElem hlt] at hholds
  exact hholds.1

theorem Refines.put (h : Refines s σ) (hfits : inst.Fits)
    (hholds : ∀ r rest, σ.pending = r :: rest → inst.Holds r) :
    Refines ({ s.1 with queue := s.1.queue.set s.1.head inst }, s.2) σ := by
  refine ⟨?_, h.head, h.pending, h.tail, fun i hi => ?_, ?_, h.out⟩
  · exact List.length_set.trans h.length
  · rcases List.mem_or_eq_of_mem_set hi with hmem | rfl
    · exact h.fits i hmem
    · exact hfits
  · have hold := h.holds
    show List.Forall₂ _ (ring (s.1.queue.set s.1.head inst) s.1.head _) _
    cases hp : σ.pending with
    | nil => exact .nil
    | cons r rest =>
      have hlen := h.pending
      rw [hp, List.length_cons] at hlen hold
      have hset : (s.1.head + 0) % s.1.queue.length = s.1.head := by
        rw [h.length]
        exact Nat.mod_eq_of_lt h.head
      have hring := ring_set (i := s.1.head) (show rest.length + 1 ≤
        s.1.queue.length by rw [h.length]; omega)
        (show 0 < rest.length + 1 by omega) inst
      rw [hset] at hring
      rw [List.length_cons, hring]
      generalize ring s.1.queue s.1.head (rest.length + 1) = slots at hold ⊢
      cases hold with
      | cons _ hrest => exact .cons (hholds r rest hp) hrest

theorem Refines.push (h : Refines s σ) (hfull : s.1.head ≠ nextIndex s.1.tail) (hfits : inst.Fits)
    (hholds : inst.Holds r) (hq : s'.1.queue = s.1.queue.set s.1.tail inst)
    (hh : s'.1.head = s.1.head) (ht : s'.1.tail = nextIndex s.1.tail) (ho : s'.2.out = s.2.out) :
    σ.pending.length < 15 ∧ Refines s' { σ with pending := σ.pending ++ [r] } := by
  have hhead := h.head
  have hpending := h.pending
  have htail := h.tail
  have hlt : σ.pending.length < 15 := by
    unfold nextIndex at hfull
    unfold maxQueueLength at hfull hhead hpending htail
    omega
  have hlen : (σ.pending ++ [r]).length = σ.pending.length + 1 := List.length_append
  refine ⟨hlt, ?_, hh ▸ h.head, ?_, ?_, fun i hi => ?_, ?_, ho ▸ h.out⟩
  · rw [hq, List.length_set]
    exact h.length
  · show (σ.pending ++ [r]).length < maxQueueLength
    unfold maxQueueLength
    omega
  · show s'.1.tail = (s'.1.head + (σ.pending ++ [r]).length) % maxQueueLength
    rw [ht, hh, hlen, nextIndex, htail, Nat.mod_add_mod, Nat.add_assoc]
  · rw [hq] at hi
    rcases List.mem_or_eq_of_mem_set hi with hmem | rfl
    · exact h.fits i hmem
    · exact hfits
  · show List.Forall₂ _ (ring s'.1.queue s'.1.head (σ.pending ++ [r]).length) (σ.pending ++ [r])
    rw [hq, hh, hlen, htail, ring_push h.length hpending]
    exact List.rel_append h.holds (.cons hholds .nil)

theorem Refines.advance {rest : List SignRequest} {answered answered' : List (SignRequest × Bytes)}
    (h : Refines s ⟨r :: rest, answered⟩) (hq : s'.1.queue = s.1.queue)
    (hh : s'.1.head = nextIndex s.1.head)
    (ht : s'.1.tail = s.1.tail) (ho : s'.2.out = answered'.map fun a =>
      ⟨a.2, a.1.remote, a.1.local_⟩) :
    Refines s' ⟨rest, answered'⟩ := by
  have hpending : rest.length + 1 < maxQueueLength := h.pending
  have htail : s.1.tail = (s.1.head + (rest.length + 1)) % maxQueueLength := h.tail
  have hholds : List.Forall₂ SignInstance.Holds (ring s.1.queue s.1.head (rest.length + 1))
      (r :: rest) :=
    h.holds
  rw [ring_pop h.length h.head (by omega) {}, List.forall₂_cons] at hholds
  refine ⟨hq ▸ h.length, ?_, (by omega : rest.length < _), ?_, hq ▸ h.fits, ?_, ho⟩
  · rw [hh]
    exact Nat.mod_lt _ (by decide)
  · show s'.1.tail = (s'.1.head + rest.length) % maxQueueLength
    rw [ht, hh, htail, nextIndex, Nat.mod_add_mod]
    congr 1
    omega
  · show List.Forall₂ _ (ring s'.1.queue s'.1.head rest.length) rest
    rw [hq, hh]
    exact hholds.2

theorem Refines.close (h : Refines s σ) (hq : s'.1.queue = s.1.queue) (hh : s'.1.head = 0)
    (ht : s'.1.tail = 0) (ho : s'.2.out = s.2.out) :
    Refines s' { σ with pending := [] } := by
  refine ⟨hq ▸ h.length, ?_, ?_, ?_, hq ▸ h.fits, .nil, ho ▸ h.out⟩
  · rw [hh]
    decide
  · exact (by decide : 0 < maxQueueLength)
  · rw [ht, hh]
    rfl

/-! ## The calls -/

/-- From `s`, whose queue is `σ`, the call ends as a step of the queue. -/
def Serves {α : Type} (x : Method (Watched H) α) (s : SigndBridge × Watched H)
    (σ : Service SignRequest Bytes) (accepted : α → Option SignRequest) : Prop :=
  Act.Ends x s fun a s' => ∃ σ', Service.Step 15 σ (accepted a) σ' ∧ Refines s' σ'

variable [SigndIo H]

theorem closeSocket_serves (h : Refines s σ) : Serves closeSocket s σ fun _ => none := by
  unfold Serves closeSocket
  simp only [Act.ends_bind_iff, Act.ends_host_iff, Act.ends_modifySelf_iff]
  exact ⟨_, .clear σ, h.close rfl rfl rfl rfl⟩

/-- A part of the request was sent. -/
theorem SignInstance.Fits.advance (h : inst.Fits) {n : Int}
    (hn : n ≤ ((inst.request.take inst.requestLength).drop inst.sent).length) :
    SignInstance.Fits (if 0 ≤ n then { inst with sent := inst.sent + n.toNat } else inst) := by
  have hlen := h.length
  have hsent := h.sent
  rw [List.length_drop, List.length_take] at hn
  split
  · refine ⟨?_, h.length⟩
    show inst.sent + n.toNat ≤ inst.requestLength
    omega
  · exact h

theorem onOutput_serves (ht : Transfers H) (h : Refines s σ) :
    Serves onOutput s σ fun _ => none := by
  obtain ⟨inst, hindex, -, hfits, hholds⟩ := h.index
  let data := (inst.request.take inst.requestLength).drop inst.sent
  have hslice : slice inst.request inst.sent inst.requestLength = .ok data :=
    slice_of_le hfits.sent (Nat.le_of_eq hfits.length)
  unfold Serves onOutput putInstance
  simp only [Act.ends_bind_iff, Act.ends_self_iff, hindex, hslice, Act.ends_lift_ok_iff,
    Act.ends_host_iff, Act.ends_modifySelf_iff]
  have hn : (SigndIo.send data s.2).1 ≤ data.length := ht.send data s.2.inner
  have ho : (SigndIo.send data s.2).2.out = s.2.out := rfl
  generalize SigndIo.send data s.2 = res at hn ho
  obtain ⟨n, w⟩ := res
  generalize hinst : (if 0 ≤ n then { inst with sent := inst.sent + n.toNat } else inst) = inst'
  have hput : Refines ({ s.1 with queue := s.1.queue.set s.1.head inst' }, w) σ := by
    have hfits' : inst'.Fits := by
      rw [← hinst]
      exact hfits.advance hn
    refine (h.put hfits' fun r rest hp => ?_).frame rfl rfl rfl ho
    have hh := hholds r rest hp
    rw [← hinst]
    split
    · exact ⟨hh.remote, hh.local_, hh.localFd, hh.request, hh.whole, hh.response, hh.received⟩
    · exact hh
  by_cases hneg : n < 0
  · rw [if_pos hneg]
    exact closeSocket_serves hput
  rw [if_neg hneg]
  split
  · rw [Act.ends_pure_iff]
    exact ⟨σ, .idle σ, hput⟩
  · rw [Act.ends_host_iff]
    exact ⟨σ, .idle σ, hput.frame rfl rfl rfl rfl⟩

/-- What `process_response` does: it sends one packet at most, to the addresses of the slot. -/
theorem processResponse_ends {n : Nat} (hindex : index s.1.queue s.1.head = .ok inst)
    (hr : inst.Holds r) (hn : n ≤ responseSize) :
    Act.Ends (processResponse s.1.head n) s fun _ s' => s'.1 = s.1 ∧ (s'.2.out = s.2.out ∨
      ∃ packet, s'.2.out = s.2.out ++ [⟨packet, r.remote, r.local_⟩]) := by
  have hlen := hr.request_length
  have hresp := hr.response
  have h12 := index_of_lt (by omega : 12 < inst.request.length)
  have h13 := index_of_lt (by omega : 13 < inst.request.length)
  unfold responseSize at hresp hn
  have hid := slice_of_le (by omega : 12 ≤ 16) (by omega : 16 ≤ inst.response.length)
  have hop := slice_of_le (by omega : 8 ≤ 12) (by omega : 12 ≤ inst.response.length)
  have hpacket := slice_of_le (b := inst.response)
    (Nat.le_add_right responseHeader (n - responseHeader)) (by unfold responseHeader; omega)
  unfold processResponse
  simp only [Act.ends_bind_iff, Act.ends_self_iff, hindex, h12, h13, hid, Act.ends_lift_ok_iff]
  split
  · rw [Act.ends_pure_iff]
    exact ⟨rfl, .inl rfl⟩
  simp only [Act.ends_bind_iff, hop, Act.ends_lift_ok_iff]
  split
  · rw [Act.ends_pure_iff]
    exact ⟨rfl, .inl rfl⟩
  simp only [Act.ends_bind_iff, Act.ends_host_iff]
  split
  · rw [Act.ends_pure_iff]
    exact ⟨rfl, .inl rfl⟩
  rw [hpacket, Act.ends_bind_iff, Act.ends_lift_ok_iff, Act.ends_host_iff]
  rw [← hr.remote, ← hr.local_]
  exact ⟨rfl, .inr ⟨(inst.response.take (responseHeader + (n - responseHeader))).drop
    responseHeader, rfl⟩⟩

theorem receiveInto_ends (ht : Transfers H) (hf : inst.Fits) (hr : inst.Holds r) :
    Act.Ends (receiveInto inst) s fun res s' => s'.1 = s.1 ∧ s'.2.out = s.2.out ∧ res.2.Fits ∧
      res.2.Holds r := by
  have hresp := hr.response
  have hrec := hr.received
  obtain ⟨rest, hslice, hlen⟩ : ∃ rest, slice inst.response inst.received
      inst.response.length = .ok rest ∧ rest.length = inst.response.length - inst.received := by
    refine ⟨_, slice_of_le (hresp ▸ hrec) (Nat.le_refl _), ?_⟩
    rw [List.take_length, List.length_drop]
  have hn := ht.receive (⟨rest, rfl⟩ : Buf rest.length) s.2.inner
  unfold receiveInto
  rw [Act.ends_bind_iff, hslice, Act.ends_lift_ok_iff, Act.ends_bind_iff, Act.ends_host_iff,
    Act.ends_pure_iff]
  refine ⟨rfl, rfl, ⟨hf.sent, hf.length⟩, hr.remote, hr.local_, hr.localFd, hr.request,
    hr.whole, ?_, ?_⟩
  · show (inst.response.take inst.received ++ _).length = responseSize
    rw [List.length_append, Buf.length_bytes, List.length_take]
    omega
  · show (if 0 < (SigndIo.receive _ s.2.inner).1.1 then _ else _) ≤ responseSize
    split
    · show inst.received + (SigndIo.receive _ s.2.inner).1.1.toNat ≤ responseSize
      omega
    · exact hrec

theorem onInput_serves (ht : Transfers H) (h : Refines s σ) : Serves onInput s σ fun _ => none := by
  unfold Serves onInput
  simp only [Act.ends_bind_iff, Act.ends_self_iff]
  by_cases hempty : s.1.isQueueEmpty = true
  · rw [if_pos hempty]
    exact closeSocket_serves h
  rw [if_neg hempty]
  obtain ⟨pending, answered⟩ := σ
  cases pending with
  | nil => exact absurd (h.isQueueEmpty.2 rfl) hempty
  | cons r rest =>
    obtain ⟨inst, hindex, -, hfits, hholds⟩ := h.index
    simp only [Act.ends_bind_iff, hindex, Act.ends_lift_ok_iff]
    refine (receiveInto_ends ht hfits (hholds r rest rfl)).mono ?_
    rintro ⟨n, inst'⟩ ⟨b, w⟩ ⟨rfl, ho, hfits', hr⟩
    have hput : Refines ({ s.1 with queue := s.1.queue.set s.1.head inst' }, w)
        ⟨r :: rest, answered⟩ := by
      refine (h.put hfits' fun r' rest' hp => ?_).frame rfl rfl rfl ho
      cases hp
      exact hr
    rw [putInstance, Act.ends_modifySelf_iff]
    by_cases hn : n ≤ 0
    · rw [if_pos hn]
      exact closeSocket_serves hput
    rw [if_neg hn]
    by_cases h4 : inst'.received < 4
    · rw [if_pos h4, Act.ends_pure_iff]
      exact ⟨_, .idle _, hput⟩
    have hslice :=
      slice_of_le (b := inst'.response) (by omega : 0 ≤ 4) (by rw [hr.response]; decide)
    rw [if_neg h4, hslice, Act.ends_bind_iff, Act.ends_lift_ok_iff]
    generalize fromBe ((inst'.response.take 4).drop 0) + 4 = len
    by_cases hlen : responseHeader ≤ len ∧ len ≤ responseSize
    · rw [if_neg (not_not_intro hlen)]
      by_cases hwait : inst'.received < len
      · rw [if_pos hwait, Act.ends_pure_iff]
        exact ⟨_, .idle _, hput⟩
      rw [if_neg hwait, Act.ends_bind_iff]
      have hlt : s.1.head < s.1.queue.length := h.length ▸ h.head
      have hindex' : index (s.1.queue.set s.1.head inst') s.1.head = .ok inst' :=
        index_eq_ok.2 (List.getElem?_set_self hlt)
      refine (processResponse_ends (s := ({ s.1 with queue := _ }, w)) hindex' hr hlen.2).mono ?_
      rintro - ⟨b, w2⟩ ⟨rfl, hout⟩
      have hnext : ∃ σ', Service.Step 15 ⟨r :: rest, answered⟩ none σ' ∧ Refines
          ({ s.1 with queue := s.1.queue.set s.1.head inst', head := nextIndex s.1.head }, w2)
            σ' := by
        rcases hout with hout | ⟨packet, hout⟩
        · exact ⟨_, .drop r rest answered, hput.advance rfl rfl rfl (hout.trans hput.out)⟩
        · refine ⟨_, .answer r rest answered packet, hput.advance rfl rfl rfl ?_⟩
          rw [List.map_append, ← hput.out]
          exact hout
      obtain ⟨σ', hstep, href⟩ := hnext
      simp only [Act.ends_bind_iff, Act.ends_modifySelf_iff, Act.ends_self_iff, Act.when]
      split
      · rw [Act.ends_host_iff]
        exact ⟨σ', hstep, href.frame rfl rfl rfl rfl⟩
      · rw [Act.ends_pure_iff]
        exact ⟨σ', hstep, href⟩
    · rw [if_pos hlen]
      exact closeSocket_serves hput

theorem openSocket_ends (h : Refines s σ) :
    Act.Ends openSocket s fun _ s' => Refines s' σ ∧ s'.1.queue = s.1.queue ∧ s'.1.head = s.1.head ∧
      s'.1.tail = s.1.tail := by
  unfold openSocket
  simp only [Act.ends_bind_iff, Act.ends_self_iff]
  by_cases hopen : s.1.sockOpen = true
  · rw [if_pos hopen, Act.ends_pure_iff]
    exact ⟨h, rfl, rfl, rfl⟩
  rw [if_neg hopen, Act.ends_bind_iff, Act.ends_host_iff, Act.ends_bind_iff, Act.when]
  split
  · rw [Act.ends_modifySelf_iff, Act.ends_pure_iff]
    exact ⟨h.frame rfl rfl rfl rfl, rfl, rfl, rfl⟩
  · rw [Act.ends_pure_iff, Act.ends_pure_iff]
    exact ⟨h.frame rfl rfl rfl rfl, rfl, rfl, rfl⟩

theorem signAndSendPacket_serves (h : Refines s σ) (r : SignRequest) (infoLength : Int)
    (hr : ntpHeaderLength ≤ r.packet.length) :
    Serves (signAndSendPacket r infoLength) s σ fun ok => Event.accepted
      (.sign r infoLength, ok) := by
  unfold Serves signAndSendPacket
  simp only [Act.ends_bind_iff, Act.ends_self_iff]
  by_cases hen : (!s.1.enabled) = true
  · rw [if_pos hen, Act.ends_pure_iff]
    exact ⟨σ, .idle σ, h⟩
  rw [if_neg hen]
  by_cases hfull : s.1.head = nextIndex s.1.tail
  · rw [if_pos hfull, Act.ends_pure_iff]
    exact ⟨σ, .idle σ, h⟩
  rw [if_neg hfull]
  by_cases hinfo : infoLength ≠ (ntpHeaderLength : Int)
  · rw [if_pos hinfo, Act.ends_pure_iff]
    exact ⟨σ, .idle σ, h⟩
  rw [if_neg hinfo, Act.ends_bind_iff]
  refine (openSocket_ends h).mono ?_
  rintro opened s1 ⟨h1, hq, hh, ht⟩
  cases opened with
  | false =>
    rw [if_pos (by decide), Act.ends_pure_iff]
    exact ⟨σ, .idle σ, h1⟩
  | true =>
    rw [if_neg (by decide)]
    obtain rfl : infoLength = (ntpHeaderLength : Int) := not_not.1 hinfo
    have hslice : slice r.packet 0 (ntpHeaderLength : Int).toNat =
        .ok (r.packet.take ntpHeaderLength) :=
      slice_of_le (Nat.zero_le _) hr
    have htail : s.1.tail < s.1.queue.length := by
      rw [h.tail, h.length]
      exact Nat.mod_lt _ (by decide)
    let inst : SignInstance :=
      { remote := r.remote, local_ := r.local_, localFd := r.localFd, requestLength := 68
        request := r.header s1.1.tail 68 ++ r.packet.take ntpHeaderLength
        response := List.replicate responseSize 0 }
    have hholds : inst.Holds r :=
      ⟨rfl, rfl, rfl, ⟨_, rfl⟩, hr, List.length_replicate, Nat.zero_le _⟩
    have hfits : inst.Fits := ⟨Nat.zero_le _, hholds.request_length.symm⟩
    have hpush (w : Watched H) (ho : w.out = s1.2.out) : σ.pending.length < 15 ∧
        Refines ({ s1.1 with queue := s1.1.queue.set s1.1.tail inst, tail := nextIndex s1.1.tail },
          w)
          { σ with pending := σ.pending ++ [r] } :=
      h1.push (by rw [hh, ht]; exact hfull) hfits hholds rfl rfl rfl ho
    rw [Act.ends_bind_iff, hslice, Act.ends_lift_ok_iff, Act.ends_bind_iff, index_of_lt htail,
      Act.ends_lift_ok_iff, Act.ends_bind_iff, putInstance, Act.ends_modifySelf_iff, ← ht,
        Act.ends_bind_iff,
      Act.when]
    split
    · rw [Act.ends_host_iff, Act.ends_bind_iff, Act.ends_modifySelf_iff, Act.ends_pure_iff]
      obtain ⟨hlt, href⟩ := hpush s1.2 rfl
      exact ⟨_, .accept σ r hlt, href.frame rfl rfl rfl rfl⟩
    · rw [Act.ends_pure_iff, Act.ends_bind_iff, Act.ends_modifySelf_iff, Act.ends_pure_iff]
      obtain ⟨hlt, href⟩ := hpush s1.2 rfl
      exact ⟨_, .accept σ r hlt, href.frame rfl rfl rfl rfl⟩

/-- **Every call returns, and serves the queue.** -/
theorem call_ends (ht : Transfers H) (h : Refines s σ) {e : Event} (he : e.Whole) :
    Serves (call e) s σ fun ok => Event.accepted (e, ok) := by
  cases e with
  | sign r infoLength => exact signAndSendPacket_serves h r infoLength he
  | socket event =>
    unfold Serves call
    rw [Act.ends_bind_iff]
    have hserves : Serves (onSocketEvent event) s σ fun _ => none := by
      cases event with
      | output => exact onOutput_serves ht h
      | input => exact onInput_serves ht h
    refine hserves.mono fun _ s' hs' => ?_
    rw [Act.ends_pure_iff]
    exact hs'

/-- A run serves the queue from the start. -/
theorem run_serves (ht : Transfers H) {enabled : Bool} {h : H} {es : List (Event × Bool)}
    (hrun : Run Step (SigndBridge.new enabled, ⟨h, []⟩) es s) (hwhole : ∀ e ∈ es, e.1.Whole) :
    ∃ σ, Run (Service.Step 15) .init (es.map Event.accepted) σ ∧ Refines s σ := by
  refine hrun.simulates (P := fun e => e.1.Whole) (fun s e s' σ hs he hstep => ?_) hwhole
    (refines_new enabled h)
  obtain ⟨ok, s1, hcall, σ', hserve, href⟩ := call_ends ht hs he
  cases hcall.symm.trans hstep
  exact ⟨σ', hserve, href⟩

/-- **The signing bridge.** After every run, in which packets have a whole header: at most 15
requests wait, in the slots from `head` on; those that were answered, followed by those that wait,
are requests that were queued, in their order; the packets that were sent are the answers, each to
the addresses of its request; and every further call returns, takes the waiting requests no further
than by one step of the queue and keeps all this. -/
theorem signing_bridge_fifo (ht : Transfers H) {enabled : Bool} {h : H} {es : List (Event × Bool)}
    (hrun : Run Step (SigndBridge.new enabled, ⟨h, []⟩) es s) (hwhole : ∀ e ∈ es, e.1.Whole) :
    ∃ σ : Service SignRequest Bytes, Refines s σ ∧ σ.pending.length ≤ 15 ∧
      (σ.answered.map Prod.fst ++ σ.pending).Sublist (es.filterMap Event.accepted) ∧
      s.2.out = σ.answered.map (fun a => ⟨a.2, a.1.remote, a.1.local_⟩) ∧
      ∀ e : Event, e.Whole → ∃ ok s', call e s = (.ok ok, s') ∧
        ∃ σ', Service.Step 15 σ (Event.accepted (e, ok)) σ' ∧ Refines s' σ' := by
  obtain ⟨σ, hσ, href⟩ := run_serves ht hrun hwhole
  refine ⟨σ, href, Service.run_length hσ, ?_, href.out, fun e he => call_ends ht href he⟩
  have hsub := Service.run_sublist hσ
  rw [List.filterMap_map] at hsub
  exact hsub

end

/-! ## A request that is answered in pieces -/

/-- A daemon that takes and gives at most `size` bytes at a time. -/
structure Pieces where
  size : Nat
  incoming : Bytes
  deriving DecidableEq, Repr

instance : SigndIo Pieces where
  openSocket h := (true, h)
  closeSocket h := ((), h)
  setOutputEvent _ h := ((), h)
  send data h := ((min h.size data.length : Nat), h)
  receive {n} _ h := (((h.incoming.take (min h.size n)).length,
    Buf.ofBytes n (h.incoming.take (min h.size n))),
    { h with incoming := h.incoming.drop (min h.size n) })
  isServerSocket _ h := (true, h)
  sendPacket _ _ _ h := ((), h)

theorem pieces_transfers : Transfers Pieces := by
  refine ⟨fun data h => ?_, fun {n} buf h => ?_⟩
  · exact Int.ofNat_le.2 (Nat.min_le_right _ _)
  · refine Int.ofNat_le.2 ?_
    rw [List.length_take]
    omega

/-- The state after the calls, and whether each returned what is given with it. -/
def play : List (Event × Bool) → SigndBridge × Watched Pieces →
    Bool × (SigndBridge × Watched Pieces)
  | [], s => (true, s)
  | (e, ok) :: es, s =>
    match call e s with
    | (.ok ok', s') => ((ok' == ok) && (play es s').1, (play es s').2)
    | (.error _, s') => (false, s')

theorem run_of_play {es : List (Event × Bool)} {s : SigndBridge × Watched Pieces}
    (h : (play es s).1 = true) : Run Step s es (play es s).2 := by
  induction es generalizing s with
  | nil => exact .nil s
  | cons e es ih =>
    obtain ⟨e, ok⟩ := e
    unfold play at h ⊢
    cases hc : call e s with
    | mk r s' =>
      rw [hc] at h
      cases r with
      | error p => cases h
      | ok ok' =>
        simp only [Bool.and_eq_true, beq_iff_eq] at h
        obtain ⟨rfl, h⟩ := h
        exact .cons hc (ih h)

def request : SignRequest := ⟨7, List.replicate 48 1, 10, 20, 3⟩

/-- The response to the request in slot 0, with a packet of 48 bytes. -/
def response : Bytes := be32 60 ++ be32 0 ++ be32 signingSuccess ++ be32 0 ++ List.replicate 48 2

def exchange : List (Event × Bool) :=
  (.sign request 48, true) :: (List.replicate 4 (.socket .output, false) ++
    List.replicate 4 (.socket .input, false))

def exchanged : SigndBridge × Watched Pieces :=
  (play exchange (SigndBridge.new true, ⟨⟨20, response⟩, []⟩)).2

theorem signing_bridge_fifo_pieces :
    (∃ σ : Service SignRequest Bytes, Refines exchanged σ ∧
      (σ.answered.map Prod.fst ++ σ.pending).Sublist [request]) ∧
      exchanged.2.out = [⟨List.replicate 48 2, 10, 20⟩] := by
  have hrun : Run Step (SigndBridge.new true, ⟨⟨20, response⟩, []⟩) exchange exchanged :=
    run_of_play (by decide +kernel)
  obtain ⟨σ, href, -, hsub, -⟩ := signing_bridge_fifo pieces_transfers hrun (by
    intro e he
    rcases List.mem_cons.1 he with rfl | he
    · exact (by decide : 48 ≤ 48)
    · rcases List.mem_append.1 he with he | he
      · rw [List.eq_of_mem_replicate he]
        trivial
      · rw [List.eq_of_mem_replicate he]
        trivial)
  exact ⟨⟨σ, href, hsub⟩, by decide +kernel⟩

end ChronyRs.L4.Signd

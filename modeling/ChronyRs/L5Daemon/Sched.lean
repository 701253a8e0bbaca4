import ChronyRs.Core.Act
import ChronyRs.L4Server.Times

/-!
# The scheduler

Model of sched.rs: the timer queue, the table of file handlers, their dispatch and the timeout that
the main loop asks `select` for.

A handler is a boxed closure. Boxes are numbered in the order in which they are made, and a number
stands for its closure. What a handler does when it is called is a list of operations on the
scheduler (`Op`), given with the call: every behaviour of a closure is some such list. In the same
way the readings of the clock, random numbers and the results of `select` are given to the functions
that ask for them, so that a statement about all arguments is one about all hosts.
-/
namespace ChronyRs.L5.Sched

open L4.Server (Timespec nsecPerSec)

/-- mirrors sched.rs:48-59 -/
inductive TimeoutClass where
  | reserved | ntpClient | ntpPeer | ntpBroadcast | phcPoll
  deriving DecidableEq, Repr

/-- mirrors sched.rs:65 -/
def schFileInput : Int32 := 1

/-- mirrors sched.rs:67 -/
def schFileOutput : Int32 := 2

/-- mirrors sched.rs:69 -/
def schFileException : Int32 := 4

/-- mirrors sched.rs:74-81 -/
inductive ChangeType where
  | adjust | step | unknownStep
  deriving DecidableEq, Repr

/-! ## Times, with the overflow checks -/

/-- mirrors sched.rs:113-122 -/
def normalise (t : Timespec) : Rust Timespec := t.normaliseChecked

/-- mirrors sched.rs:124-136 -/
def compare (a b : Timespec) : Int :=
  if a.tvSec < b.tvSec then -1
  else if b.tvSec < a.tvSec then 1
  else if a.tvNsec < b.tvNsec then -1
  else if b.tvNsec < a.tvNsec then 1
  else 0

section
variable {F : Type} [F64Math F]

/-- mirrors sched.rs:138-146 -/
def addDouble (t : Timespec) (increment : F) : Rust Timespec := t.addDoubleChecked increment

/-- mirrors sched.rs:148-155 -/
def diff (a b : Timespec) : Rust Timespec := a.diffChecked b

/-- mirrors sched.rs:157-159 -/
def diffToDouble (a b : Timespec) : Rust F := do
  let nsec ← i64 (a.tvNsec - b.tvNsec)
  .ok (F64.add (F64.sub (F64.ofInt a.tvSec) (F64.ofInt b.tvSec))
    (F64.mul (F64.lit (1 / 1000000000)) (F64.ofInt nsec)))

end

/-- mirrors sched.rs:201-204 -/
structure FileHandlerEntry where
  handler : Option Nat
  events : Int32
  deriving DecidableEq, Repr

/-- mirrors sched.rs:207-212 -/
structure TimerQueueEntry where
  ts : Timespec
  id : UInt32
  timeoutClass : TimeoutClass
  handler : Nat
  deriving DecidableEq, Repr

/-- The injected host functions are not part of the state. `boxes` is not in the source: it is the
number of handlers that were made.
mirrors sched.rs:215-234 -/
structure Scheduler (F : Type) where
  initialised : Bool
  fileHandlers : List FileHandlerEntry
  oneHighestFd : Nat
  timerQueue : List TimerQueueEntry
  nextTqeId : UInt32
  lastClassDispatch : TimeoutClass → Timespec
  needToExit : Bool
  lastSelectTs : Timespec
  lastSelectTsRaw : Timespec
  lastSelectTsErr : F
  lastSelectTsMono : F
  lastSelectTsMonoNs : Nat
  boxes : Nat

variable {F : Type} [F64Math F]

/-- The arguments other than `raw_clock` only end up in fields that are not modelled.
mirrors sched.rs:238-264 -/
def new (raw : Timespec) : Scheduler F where
  initialised := true
  fileHandlers := []
  oneHighestFd := 0
  timerQueue := []
  nextTqeId := 0
  lastClassDispatch := fun _ => .zero
  needToExit := false
  lastSelectTs := raw
  lastSelectTsRaw := raw
  lastSelectTsErr := F64.lit 0
  lastSelectTsMono := F64.lit 0
  lastSelectTsMonoNs := 0
  boxes := 0

/-! ## File handlers -/

/-- mirrors sched.rs:280-298 -/
def addFileHandler (fd : Nat) (events : Int32) (handler : Nat) : Act (Scheduler F) Unit := do
  let s ← Act.get
  Act.lift (Rust.assert (s.initialised = true))
  Act.lift (Rust.assert (events ≠ 0))
  let table := s.fileHandlers ++ List.replicate (fd + 1 - s.fileHandlers.length) ⟨none, 0⟩
  Act.modify fun s => { s with fileHandlers := table }
  let e ← Act.lift (index table fd)
  Act.lift (Rust.assert (e.handler = none))
  Act.modify fun s =>
    { s with fileHandlers := table.set fd ⟨some handler, events⟩
             oneHighestFd := if s.oneHighestFd < fd + 1 then fd + 1 else s.oneHighestFd }

/-- The loop that lowers `one_highest_fd` to the highest descriptor with a handler.
mirrors sched.rs:307-315 -/
def lower (table : List FileHandlerEntry) : Nat → Rust Nat
  | 0 => .ok 0
  | n + 1 => do
    let e ← index table n
    if e.handler.isSome then .ok (n + 1) else lower table n

/-- mirrors sched.rs:301-315 -/
def removeFileHandler (fd : Nat) : Act (Scheduler F) Unit := do
  let s ← Act.get
  Act.lift (Rust.assert (s.initialised = true))
  let e ← Act.lift (index s.fileHandlers fd)
  Act.lift (Rust.assert (e.handler.isSome = true))
  let table := s.fileHandlers.set fd ⟨none, 0⟩
  Act.modify fun s => { s with fileHandlers := table }
  let top ← Act.lift (lower table s.oneHighestFd)
  Act.modify fun s => { s with oneHighestFd := top }

/-- mirrors sched.rs:318-325 -/
def setFileHandlerEvent (fd : Nat) (event : Int32) (enable : Bool) : Act (Scheduler F) Unit := do
  let s ← Act.get
  let e ← Act.lift (index s.fileHandlers fd)
  let events := if enable then e.events ||| event else e.events &&& ~~~ event
  Act.modify fun s => { s with fileHandlers := s.fileHandlers.set fd { e with events := events } }

/-! ## The timer queue -/

/-- The first unused id other than zero after `next`. The first argument bounds the steps: after
`2 ^ 32` of them every id was tried, and the loop of the source would not end.
mirrors sched.rs:347-355 -/
def freeId (queue : List TimerQueueEntry) : Nat → UInt32 → Rust UInt32
  | 0, _ => .error .fuel
  | fuel + 1, next =>
    if next + 1 = 0 then freeId queue fuel (next + 1)
    else if ∀ e ∈ queue, e.id ≠ next + 1 then .ok (next + 1)
    else freeId queue fuel (next + 1)

/-- mirrors sched.rs:346-356 -/
def getNewTqeId : Act (Scheduler F) UInt32 := do
  let s ← Act.get
  let id ← Act.lift (freeId s.timerQueue (2 ^ 32) s.nextTqeId)
  Act.modify fun s => { s with nextTqeId := id }
  pure id

/-- mirrors sched.rs:361-370 -/
def insertEntry (entry : TimerQueueEntry) (queue : List TimerQueueEntry) : List TimerQueueEntry :=
  queue.insertIdx (queue.findIdx fun e => compare entry.ts e.ts = -1) entry

/-- mirrors sched.rs:373-382 -/
def addTimeout (ts : Timespec) (handler : Nat) : Act (Scheduler F) UInt32 := do
  let s ← Act.get
  Act.lift (Rust.assert (s.initialised = true))
  let id ← getNewTqeId
  Act.modify fun s => { s with timerQueue := insertEntry ⟨ts, id, .reserved, handler⟩ s.timerQueue }
  pure id

/-- `now` is what the clock reads.
mirrors sched.rs:385-392 -/
def addTimeoutByDelay (now : Timespec) (delay : F) (handler : Nat) : Act (Scheduler F) UInt32 := do
  let s ← Act.get
  Act.lift (Rust.assert (s.initialised = true))
  Act.lift (Rust.assert (F64.le (F64.lit 0) delay = true))
  let andThen ← Act.lift (addDouble now delay)
  Act.lift (Rust.assert (compare now andThen ≤ 0))
  addTimeout andThen handler

/-- The delay, raised until it is `separation` away from the last dispatch of the class and from
the entries of the class.
mirrors sched.rs:415-435 -/
def separate (now : Timespec) (separation : F) (cls : TimeoutClass) (minDelay : F)
    (s : Scheduler F) : Rust F := do
  let d ← diffToDouble now (s.lastClassDispatch cls)
  let first :=
    if F64.lt d separation ∧ F64.le (F64.lit 0) d ∧ F64.lt (F64.add d minDelay) separation
    then F64.sub separation d else minDelay
  s.timerQueue.foldlM (fun delay e =>
    if e.timeoutClass = cls then do
      let d ← diffToDouble e.ts now
      let gap := if F64.lt d delay then F64.sub delay d else F64.sub d delay
      .ok (if F64.lt gap separation then F64.add d separation else delay)
    else .ok delay) first

/-- The place before the first entry that is later than `delay` from `now`.
mirrors sched.rs:438-442 -/
def placeOf (now : Timespec) (delay : F) : List TimerQueueEntry → Rust Nat
  | [] => .ok 0
  | e :: queue => do
    let d ← diffToDouble e.ts now
    if F64.lt delay d then .ok 0
    else do
      let n ← placeOf now delay queue
      .ok (n + 1)

/-- `now` is what the clock reads, and `rnd` a random number.
mirrors sched.rs:396-453 -/
def addTimeoutInClass (now : Timespec) (rnd : UInt32) (minDelay separation randomness : F)
    (cls : TimeoutClass) (handler : Nat) : Act (Scheduler F) UInt32 := do
  let s ← Act.get
  Act.lift (Rust.assert (s.initialised = true))
  Act.lift (Rust.assert (F64.le (F64.lit 0) minDelay = true))
  let r := F64.add (F64.mul (F64.ofInt rnd.toNat) (F64.div randomness (F64.ofInt 4294967295)))
    (F64.lit 1)
  let scale := fun x => if F64.lt (F64.lit 0) randomness then F64.mul x r else x
  let delay ← Act.lift (separate now (scale separation) cls (scale minDelay) s)
  let place ← Act.lift (placeOf now delay s.timerQueue)
  let id ← getNewTqeId
  let ts ← Act.lift (addDouble now delay)
  Act.modify fun s =>
    { s with timerQueue := s.timerQueue.insertIdx place ⟨ts, id, cls, handler⟩ }
  pure id

/-- mirrors sched.rs:456-472 -/
def removeTimeout (id : UInt32) : Act (Scheduler F) Unit := do
  let s ← Act.get
  Act.lift (Rust.assert (s.initialised = true))
  if id = 0 then pure ()
  else Act.modify fun s => { s with timerQueue := s.timerQueue.eraseP (·.id = id) }

/-- The entries of the queue, each at its new time. -/
def shiftQueue (doffset : F) (queue : List TimerQueueEntry) : Rust (List TimerQueueEntry) :=
  queue.mapM fun e => do
    let ts ← addDouble e.ts (F64Math.neg doffset)
    .ok { e with ts := ts }

/-- The last dispatch of every class, each at its new time. -/
def shiftClasses (doffset : F) (last : TimeoutClass → Timespec) :
    Rust (TimeoutClass → Timespec) := do
  let reserved ← addDouble (last .reserved) (F64Math.neg doffset)
  let ntpClient ← addDouble (last .ntpClient) (F64Math.neg doffset)
  let ntpPeer ← addDouble (last .ntpPeer) (F64Math.neg doffset)
  let ntpBroadcast ← addDouble (last .ntpBroadcast) (F64Math.neg doffset)
  let phcPoll ← addDouble (last .phcPoll) (F64Math.neg doffset)
  .ok fun
    | .reserved => reserved
    | .ntpClient => ntpClient
    | .ntpPeer => ntpPeer
    | .ntpBroadcast => ntpBroadcast
    | .phcPoll => phcPoll

/-- A step shifts all raw times. Where the source panics half way, the times shifted before stay
shifted; here they do not.
mirrors sched.rs:512-532 -/
def handleSlew (cooked : Timespec) (dfreq doffset : F) (changeType : ChangeType) :
    Act (Scheduler F) Unit := do
  Act.when (changeType ≠ .adjust) (do
    let s ← Act.get
    let queue ← Act.lift (shiftQueue doffset s.timerQueue)
    let last ← Act.lift (shiftClasses doffset s.lastClassDispatch)
    let raw ← Act.lift (addDouble s.lastSelectTsRaw (F64Math.neg doffset))
    Act.modify fun s =>
      { s with timerQueue := queue, lastClassDispatch := last, lastSelectTsRaw := raw })
  let s ← Act.get
  let elapsed ← Act.lift (diffToDouble cooked s.lastSelectTs)
  let delta := F64.sub (F64.mul elapsed dfreq) doffset
  let ts ← Act.lift (addDouble s.lastSelectTs delta)
  Act.modify fun s => { s with lastSelectTs := ts }

/-! ## What the owner of a scheduler and its handlers do -/

inductive Op (F : Type) where
  | addTimeout (ts : Timespec)
  | addTimeoutByDelay (now : Timespec) (delay : F)
  | addTimeoutInClass (now : Timespec) (rnd : UInt32) (minDelay separation randomness : F)
      (cls : TimeoutClass)
  | removeTimeout (id : UInt32)
  | handleSlew (cooked : Timespec) (dfreq doffset : F) (changeType : ChangeType)
  | addFileHandler (fd : Nat) (events : Int32)
  | removeFileHandler (fd : Nat)
  | setFileHandlerEvent (fd : Nat) (event : Int32) (enable : Bool)
  | quitProgram

/-- `Box::new`. -/
def box : Act (Scheduler F) Nat := do
  let s ← Act.get
  Act.modify fun s => { s with boxes := s.boxes + 1 }
  pure s.boxes

def Op.run : Op F → Act (Scheduler F) Unit
  | addTimeout ts => do
    let handler ← box
    let _ ← Sched.addTimeout ts handler
  | addTimeoutByDelay now delay => do
    let handler ← box
    let _ ← Sched.addTimeoutByDelay now delay handler
  | addTimeoutInClass now rnd minDelay separation randomness cls => do
    let handler ← box
    let _ ← Sched.addTimeoutInClass now rnd minDelay separation randomness cls handler
  | removeTimeout id => Sched.removeTimeout id
  | handleSlew cooked dfreq doffset changeType => Sched.handleSlew cooked dfreq doffset changeType
  | addFileHandler fd events => do
    let handler ← box
    Sched.addFileHandler fd events handler
  | removeFileHandler fd => Sched.removeFileHandler fd
  | setFileHandlerEvent fd event enable => Sched.setFileHandlerEvent fd event enable
  | quitProgram => Act.modify fun s => { s with needToExit := true }

def runOps : List (Op F) → Act (Scheduler F) Unit
  | [] => pure ()
  | op :: ops => do
    op.run
    runOps ops

/-! ## Dispatch -/

/-- The first entry of the queue is taken off and its handler called.
mirrors sched.rs:486-492 -/
def fire (now : Timespec) (ops : List (Op F)) : Act (Scheduler F) Unit := do
  let s ← Act.get
  match s.timerQueue with
  | [] => Act.lift (.error .index)
  | e :: queue => do
    Act.modify fun s =>
      { s with
        lastClassDispatch := Function.update s.lastClassDispatch e.timeoutClass now
        timerQueue := queue }
    runOps ops

/-- The descriptors that `select` reports. Its status and the time left only matter to the main
loop.
mirrors sched.rs:173-187 -/
structure SelectResult where
  readyRead : List Nat
  readyWrite : List Nat
  readyExcept : List Nat

/-- The descriptors that want reading, writing and exceptions.
mirrors sched.rs:535-552 -/
def fillFdSets (s : Scheduler F) : List Nat × List Nat × List Nat :=
  let wants := fun event => (List.range s.fileHandlers.length).filter fun fd =>
    match s.fileHandlers[fd]? with
    | some e => e.events &&& event ≠ 0
    | none => false
  (wants schFileInput, wants schFileOutput, wants schFileException)

/-- Unless the handler replaced itself.
mirrors sched.rs:563-567 -/
def putBack (fd handler : Nat) : Act (Scheduler F) Unit := do
  let s ← Act.get
  match s.fileHandlers[fd]? with
  | none => pure ()
  | some e => Act.when (e.handler = none) (Act.modify fun s =>
      { s with fileHandlers := s.fileHandlers.set fd { e with handler := some handler } })

/-- The handler is out of the table while it runs.
mirrors sched.rs:556-568 -/
def dispatchOne (fd : Nat) (ops : List (Op F)) : Act (Scheduler F) Unit := do
  let s ← Act.get
  match s.fileHandlers[fd]? with
  | none => pure ()
  | some e =>
    match e.handler with
    | none => pure ()
    | some handler => do
      Act.modify fun s =>
        { s with fileHandlers := s.fileHandlers.set fd { e with handler := none } }
      runOps ops
      putBack fd handler

/-- The descriptors from `fd` on, `n` of them.
mirrors sched.rs:573-588 -/
def dispatchFds (res : SelectResult) (script : Nat → Int32 → List (Op F)) :
    Nat → Nat → Act (Scheduler F) Unit
  | 0, _ => pure ()
  | n + 1, fd => do
    Act.when (fd ∈ res.readyExcept) (dispatchOne fd (script fd schFileException))
    -- an exception clears a pending read
    Act.when (fd ∈ res.readyRead ∧ fd ∉ res.readyExcept) (dispatchOne fd (script fd schFileInput))
    Act.when (fd ∈ res.readyWrite) (dispatchOne fd (script fd schFileOutput))
    dispatchFds res script n (fd + 1)

/-- `script fd event` is what the handler of `fd` does for `event`: each is called at most once.
mirrors sched.rs:572-589 -/
def dispatchFilehandlers (res : SelectResult) (script : Nat → Int32 → List (Op F)) :
    Act (Scheduler F) Unit := do
  let s ← Act.get
  dispatchFds res script s.oneHighestFd 0

end ChronyRs.L5.Sched

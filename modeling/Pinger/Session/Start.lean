import Pinger.Lib.Fsm
import Pinger.Lib.Timer
import Pinger.Session.Client

/-! # The session loop `MailClientContext.start`

The state machine of a session, its two timers, its command queue and the loop that serves them.
`start()` is one thread with a program counter: between any two of its operations a timer may
expire, a command may be queued and the goroutines of the mail client may run. A callback of the
state machine is therefore a list of operations, and one operation is one step. -/

namespace Pinger.Session

open GoTime EventFsm

inductive FSMState
  | blank
  | init
  | deferred
  | pinging
  | stopped
  deriving DecidableEq, Repr

/-- The events `initFsm` registers. -/
def fsmEvents : List (EventDesc FSMState) :=
  [⟨.init, [.blank], .init⟩,
   ⟨.deferred, [.stopped, .init], .deferred⟩,
   ⟨.pinging, [.deferred, .stopped], .pinging⟩,
   ⟨.stopped, [.pinging, .deferred], .stopped⟩]

/-- An event with the arguments its callbacks read. -/
inductive FsmEvent
  | deferred (status : MailClientStatus)
  | pinging
  | stopped (status : MailClientStatus) (err : Option GoString)
  deriving DecidableEq, Repr

def FsmEvent.name : FsmEvent → FSMState
  | .deferred _ => .deferred
  | .pinging => .pinging
  | .stopped _ _ => .stopped

/-- The operations of the callbacks. -/
inductive Op
  | newMaxPollTimer
  | newDeferTimer
  | stopDeferTimer
  | resetDeferTimer
  | setStatus (status : MailClientStatus) (err : Option GoString)
  | makeStopPollCh
  | goLongPoll
  | closeStopPollCh
  deriving DecidableEq, Repr

def leaveInit : List Op := [.newMaxPollTimer, .newDeferTimer]

def enterDeferred (status : MailClientStatus) : List Op :=
  [.stopDeferTimer, .resetDeferTimer, .setStatus status none]

def exitDeferred : List Op := [.stopDeferTimer]

def enterPinging : List Op := [.makeStopPollCh, .setStatus .pinging none, .goLongPoll]

def exitPinging : List Op := [.closeStopPollCh]

def enterStopped (status : MailClientStatus) (err : Option GoString) : List Op :=
  [.setStatus status err]

def exitStopped : List Op := []

def leaveCallback : FSMState → List Op
  | .blank => []
  | .init => leaveInit
  | .deferred => exitDeferred
  | .pinging => exitPinging
  | .stopped => exitStopped

def enterCallback : FsmEvent → List Op
  | .deferred status => enterDeferred status
  | .pinging => enterPinging
  | .stopped status err => enterStopped status err

/-- What `start()` does when a call of `fsm.Event` has returned nil. -/
inductive Cont
  | loop
  | ret
  | sent
  | rearm
  | redefer
  deriving DecidableEq, Repr

/-- The call of `DeviceInfo.Push` that `start()` is in. -/
inductive PushSite
  | maxPoll
  | newMail
  | reRegister
  deriving DecidableEq, Repr

inductive PushResult
  | ok
  | invalidToken
  | failed
  deriving DecidableEq, Repr

inductive Panic
  | event (err : EventError FSMState)
  | closeOfClosedChannel
  deriving DecidableEq, Repr

/-- The program counter of `start()`. The four last are its deferred function. -/
inductive Pc
  | boot
  | event (e : FsmEvent) (k : Cont)
  | leave (ops : List Op) (e : FsmEvent) (k : Cont)
  | enter (ops : List Op) (k : Cont)
  | select
  | push (site : PushSite)
  | panic (p : Panic)
  | returned
  | waiting
  | cleanup
  | cleanupClient
  | done
  deriving DecidableEq, Repr

/-- `start()` has left its for-loop. -/
def Pc.left : Pc → Bool
  | .returned | .waiting | .cleanup | .cleanupClient | .done => true
  | _ => false

/-- The values `start()` takes from the registration and the configuration. -/
structure Settings where
  protocol : GoString
  responseTimeout : Nat
  maxPollTimeout : Nat
  waitBeforeUse : Nat
  reArmTimeout : Int
  ignorePushFailures : Bool

def mailClientIMAP : GoString := GoString.lit "IMAP"

def Settings.tooFastResponse (cfg : Settings) : Int := (milliseconds cfg.responseTimeout).tdiv 4

def Settings.rearmTimeout (cfg : Settings) : Int := duration cfg.reArmTimeout nsPerMinute

/-- `uint64(rearmTimeout) / uint64(time.Millisecond)`. -/
def Settings.rearmWait (cfg : Settings) : Nat := (cfg.rearmTimeout % 2 ^ 64).toNat / 1000000

/-- A `MailClientContext` with the locals of its `start()`. `stopPollCh` and `madePoll` number the
stop channels in the order they are made; `timeSent` is `none` for the zero time. -/
structure Ctx (σ : Type) where
  pc : Pc := .boot
  fsm : Fsm FSMState := { current := .init }
  now : Int := 0
  status : MailClientStatus := .initialized
  lastError : Option GoString := none
  waitBeforeUse : Nat
  deferTimer : Timer := {}
  maxPollTimer : Timer := {}
  command : List PingerCommand := []
  rearmingCount : Nat := 0
  timeSent : Option Int := none
  stopPollCh : Option Nat := none
  madePoll : Nat := 0
  closedPoll : List Nat := []
  stopAll : Bool := false
  di : Bool := true
  mailClient : Bool := true
  mc : σ

/-- The session `NewMailClientContext` starts. -/
def init (M : MailClient) (cfg : Settings) : Ctx M.State :=
  { waitBeforeUse := cfg.waitBeforeUse, mc := M.fresh }

/-- The capacity of the command channel. -/
def commandCap : Nat := 10

/-- The choice `start()` makes: the select branch it takes, or how the push it waits for ended. -/
inductive Pick
  | go
  | maxPoll
  | deferTick
  | errCh (g : Nat)
  | command
  | pushed (r : PushResult)
  deriving DecidableEq, Repr

inductive Act (L : Type)
  | advance (d : Nat)
  | expireDefer
  | expireMax
  | start (p : Pick)
  | command (c : PingerCommand)
  | setWait (timeout : Nat)
  | poll (l : L)
  deriving DecidableEq

namespace Ctx

def signals (s : Ctx σ) : Signals where
  stopPoll g := g ∈ s.closedPoll
  stopAll := s.stopAll
  now := s.now

def setStatus (s : Ctx σ) (status : MailClientStatus) (err : Option GoString) : Ctx σ :=
  { s with status := status, lastError := err }

/-- `Status()`. -/
def getStatus (s : Ctx σ) : MailClientStatus × Option GoString :=
  match s.lastError with
  | some err => (.error, some err)
  | none => (s.status, none)

/-- `Action(c)`, once the channel has room. -/
def action (s : Ctx σ) (c : PingerCommand) : Option (Ctx σ) :=
  if s.command.length < commandCap then some { s with command := s.command ++ [c] } else none

end Ctx

section
variable (M : MailClient) (cfg : Settings) (s : Ctx M.State)

/-- One operation of a callback. `none` is a run-time panic. -/
def perform : Op → Option (Ctx M.State)
  | .newMaxPollTimer =>
    some { s with maxPollTimer := newTimer s.now (milliseconds cfg.maxPollTimeout) }
  | .newDeferTimer =>
    some { s with deferTimer := newTimer s.now (milliseconds s.waitBeforeUse) }
  | .stopDeferTimer => some { s with deferTimer := s.deferTimer.stop }
  | .resetDeferTimer =>
    some { s with deferTimer := s.deferTimer.reset s.now (milliseconds s.waitBeforeUse) }
  | .setStatus status err => some (s.setStatus status err)
  | .makeStopPollCh => some { s with stopPollCh := some s.madePoll, madePoll := s.madePoll + 1 }
  | .goLongPoll => s.stopPollCh.map fun g => { s with mc := M.launch s.mc g }
  | .closeStopPollCh =>
    match s.stopPollCh with
    | none => none
    | some g =>
      if g ∈ s.closedPoll then none else some { s with closedPoll := g :: s.closedPoll }

/-- After a call of `fsm.Event` has returned nil. -/
def resume : Cont → Ctx M.State
  | .loop => { s with pc := .select }
  | .ret => { s with pc := .returned }
  | .sent => { s with timeSent := some s.now, pc := .select }
  | .rearm =>
    if cfg.protocol = mailClientIMAP ∧ s.rearmingCount < 3 then
      { s with
        rearmingCount := s.rearmingCount + 1
        waitBeforeUse := cfg.rearmWait
        pc := .event (.deferred .reDeferred) .loop }
    else { s with pc := .returned }
  | .redefer => { s with rearmingCount := 0, pc := .event (.deferred .deferred) .loop }

/-- `time.Since(timeSent) > tooFastResponse || rearmingCount == 0`. -/
def wantsPush : Bool :=
  s.timeSent.all (fun t => cfg.tooFastResponse < s.now - t) || s.rearmingCount = 0

/-- A value has been received on `errCh`. -/
def received : PollResult → Ctx M.State
  | .newMail =>
    if wantsPush M cfg s then { s with pc := .push .newMail }
    else { s with pc := .event (.stopped .stopped none) .rearm }
  | .reRegister => { s with pc := .push .reRegister }
  | .error msg => { s with pc := .event (.stopped .error (some msg)) .ret }

/-- A push has ended. An invalid token deletes the device. -/
def pushed (site : PushSite) (r : PushResult) : Ctx M.State :=
  match site with
  | .maxPoll | .reRegister =>
    { s with
      di := if r = .invalidToken then false else s.di
      pc := .event (.stopped .stopped none) .ret }
  | .newMail =>
    if r ≠ .ok ∧ cfg.ignorePushFailures = false then
      { s with di := if r = .invalidToken then false else s.di, pc := .returned }
    else { s with pc := .event (.stopped .stopped none) .rearm }

/-- A command has been received. Closing `stopAllCh` comes before the event. -/
def handle : PingerCommand → Ctx M.State
  | .stop => { s with stopAll := true, pc := .event (.stopped .stopped none) .ret }
  | .defer => { s with pc := .event (.stopped .stopped none) .redefer }
  | .other _ => s

/-- The next step of `start()`. -/
def start : Pick → Option (Ctx M.State)
  | .go =>
    match s.pc with
    | .boot =>
      some { s with fsm := { current := .init }, pc := .event (.deferred .deferred) .loop }
    | .event e k =>
      match begin fsmEvents s.fsm e.name with
      | .error err => some { s with pc := .panic (.event err) }
      | .ok fsm => some { s with fsm := fsm, pc := .leave (leaveCallback s.fsm.current) e k }
    | .leave (op :: ops) e k =>
      match perform M cfg s op with
      | some s' => some { s' with pc := .leave ops e k }
      | none => some { s with pc := .panic .closeOfClosedChannel }
    | .leave [] e k => some { s with fsm := s.fsm.transit, pc := .enter (enterCallback e) k }
    | .enter (op :: ops) k =>
      match perform M cfg s op with
      | some s' => some { s' with pc := .enter ops k }
      | none => some { s with pc := .panic .closeOfClosedChannel }
    | .enter [] k => some (resume M cfg { s with fsm := s.fsm.finish } k)
    | .panic _ => some { s with pc := .returned }
    | .returned => some { s.setStatus .stopped none with pc := .waiting }
    | .waiting => if M.wg s.mc = 0 then some { s with pc := .cleanup } else none
    | .cleanup => some { s with di := false, pc := .cleanupClient }
    | .cleanupClient => some { s with mc := M.cleanup s.mc, mailClient := false, pc := .done }
    | _ => none
  | .maxPoll =>
    if s.pc = .select then
      s.maxPollTimer.recv.map fun t => { s with maxPollTimer := t, pc := .push .maxPoll }
    else none
  | .deferTick =>
    if s.pc = .select then
      s.deferTimer.recv.map fun t => { s with deferTimer := t, pc := .event .pinging .sent }
    else none
  | .errCh g =>
    if s.pc = .select then
      (M.offer s.mc g).map fun v => received M cfg { s with mc := M.taken s.mc g } v
    else none
  | .command =>
    if s.pc = .select then
      match s.command with
      | [] => none
      | c :: cs => some (handle M { s with command := cs } c)
    else none
  | .pushed r =>
    match s.pc with
    | .push site => some (pushed M cfg s site r)
    | _ => none

/-- One step of a session: of the clock, of a timer, of `start()`, of a sender of commands, of
`deferPoll` writing the wait time, or of the mail client. -/
def step : Act M.Label → Option (Ctx M.State)
  | .advance d => some { s with now := s.now + d }
  | .expireDefer => (s.deferTimer.expire s.now).map fun t => { s with deferTimer := t }
  | .expireMax => (s.maxPollTimer.expire s.now).map fun t => { s with maxPollTimer := t }
  | .start p => start M cfg s p
  | .command c => s.action c
  | .setWait timeout => if 0 < timeout then some { s with waitBeforeUse := timeout } else some s
  | .poll l => (M.step s.signals s.mc l).map fun mc => { s with mc := mc }

end

end Pinger.Session

import Pinger.Lib.Panic
import Pinger.Rpc.Server
import Pinger.Telemetry.Message

/-! # Panics in the handlers

The bodies of the four handlers statement by statement, with the functions they defer. A statement
may panic instead of having its effect. The handlers mean to turn a panic into an error: the first
function they defer calls `RecoverCrash` and stores what it returns. But it is `RecoverCrash` that
calls `recover`, not the deferred function, so the panic goes on. -/

namespace Pinger.Rpc.Crash

open Go

/-- What a panic carries. -/
inductive PanicValue
  | error (message : GoString)
  /-- A value that is not an `error`. -/
  | other (type text : GoString)
  | nil
  deriving DecidableEq

structure ClientSessionInfo where
  userId : GoString := []
  clientContext : GoString := []
  deviceId : GoString := []
  sessionId : GoString := []
  status : MailClientStatus := .initialized
  error : GoString := []
  deriving DecidableEq

structure FindSessionsArgs where
  userId : GoString := []
  clientContext : GoString := []
  deviceId : GoString := []
  maxSessions : Int := 0

/-- `StartPollingResponse`, `PollingResponse` and `FindSessionsResponse`. -/
structure Reply where
  code : PollingReplyType := .error
  message : GoString := []
  sessionInfos : List ClientSessionInfo := []

/-- What a handler leaves to a goroutine. -/
inductive Goroutine
  | createNewPingerSession (pollMapKey : GoString) (mi : MailPingInformation)
  | stop (sid : Nat)
  | deferPoll (sid : Nat) (timeout : Nat)

/-- The map holds its entries in the order in which `range` visits them; a client that is nil
is `none`. -/
abbrev PollMap := AList fun _ : GoString => Option Nat

/-- How often a call has taken the map lock and how often it has released it. -/
structure LockCount where
  locks : Nat := 0
  unlocks : Nat := 0
  deriving DecidableEq

/-- What a handler works on; `needUnlock` is a variable of `RPCStartPoll` and `err` is the result
of them all. -/
structure Vars where
  pollMap : PollMap
  reply : Reply := {}
  err : Option GoString := none
  needUnlock : Bool := false
  lock : LockCount := {}
  goroutines : List Goroutine := []
  /-- The statements executed so far. -/
  statements : Nat := 0

/-- What the handlers do not decide: which statements panic, by their number in the order of
execution, and what the session that is found returns. -/
structure Outside where
  panics : Nat → Option PanicValue
  status : Status
  action : Option GoString
  getSessionInfo : Nat → Except GoString ClientSessionInfo

namespace Vars

@[simp] def lockMap (s : Vars) : Vars :=
  { s with lock := { s.lock with locks := s.lock.locks + 1 } }

@[simp] def unlockMap (s : Vars) : Vars :=
  { s with lock := { s.lock with unlocks := s.lock.unlocks + 1 } }

@[simp] def setCode (code : PollingReplyType) (s : Vars) : Vars :=
  { s with reply := { s.reply with code } }

@[simp] def setMessage (message : GoString) (s : Vars) : Vars :=
  { s with reply := { s.reply with message } }

def addSession (session : ClientSessionInfo) (s : Vars) : Vars :=
  { s with reply := { s.reply with sessionInfos := s.reply.sessionInfos ++ [session] } }

/-- `delete(*pollMap, key)`. -/
@[simp] def delete (key : GoString) (s : Vars) : Vars := { s with pollMap := s.pollMap.erase key }

/-- A `go` statement. -/
@[simp] def spawn (g : Goroutine) (s : Vars) : Vars := { s with goroutines := s.goroutines ++ [g] }

end Vars

/-! ## What the handlers defer -/

/-- The error of `r.(error)` for a value that is not one. -/
def typeAssertionError (type : GoString) : PanicValue :=
  .error (GoString.lit "interface conversion: " ++ type ++
    GoString.lit " is not error: missing method Error")

/-- `RecoverCrash`. -/
def recoverCrash : Cleanup Vars PanicValue (Option GoString) := do
  match ← Cleanup.recover with
  | some (.error message) => pure (some message)
  | some (.other type _) => Cleanup.raise (typeAssertionError type)
  | some .nil | none => pure none

/-- The function every handler defers first. -/
def recoverErr : Cleanup Vars PanicValue Unit := do
  match ← Cleanup.call recoverCrash with
  | some e => Cleanup.modify fun s => { s with err := some e }
  | none => pure ()

/-- `t.UnlockMap()`, as `RPCStopPoll` defers it. -/
def unlockMap : Cleanup Vars PanicValue Unit := Cleanup.modify Vars.unlockMap

/-- The function that `RPCStartPoll` defers once it has the lock. -/
def unlockIfNeeded : Cleanup Vars PanicValue Unit :=
  Cleanup.modify fun s => if s.needUnlock then s.unlockMap else s

/-! ## The bodies -/

/-- A statement with the effect `g`. -/
def exec (o : Outside) (g : Vars → Vars) : Block Vars PanicValue Unit := do
  let n := (← Block.get).statements
  Block.modify fun s => { s with statements := n + 1 }
  match o.panics n with
  | some v => Block.raise v
  | none => Block.modify g

/-- `return err`. -/
def returns (o : Outside) (err : Option GoString) : Block Vars PanicValue α := do
  exec o fun s => { s with err := err }
  Block.ret

/-- `client, ok := (*pollMap)[pollMapKey]`. -/
def lookup (o : Outside) (pollMapKey : GoString) :
    Block Vars PanicValue (Option Nat × Bool) := do
  exec o id
  match (← Block.get).pollMap.lookup pollMapKey with
  | some client => pure (client, true)
  | none => pure (none, false)

/-- A method is called on a nil pointer or a nil interface. -/
def nilDereference : PanicValue :=
  .error (GoString.lit "runtime error: invalid memory address or nil pointer dereference")

/-- The panic of `getLogPrefix` without a `MailPingInformation`. -/
def notInitialized : PanicValue :=
  .other (GoString.lit "string") (GoString.lit "pi has been cleaned up or not initialized")


/-- The explicit panic of `RPCStartPoll`. -/
def clientNotOk : PanicValue :=
  .other (GoString.lit "string") (GoString.lit "Got a client but ok is false?")

/-- What `RPCStartPoll` tells about the session it has found. -/
def tellStatus (o : Outside) : Status → Block Vars PanicValue Unit
  | (.stopped, _) | (.pinging, _) => exec o id
  | (.error, some err) => do
    exec o id
    exec o (Vars.setMessage (GoString.lit "Previous Ping failed with error: " ++ err))
    exec o (Vars.setCode .warn)
  | (.error, none) => do
    exec o id
    exec o (Vars.setMessage (GoString.lit "Not polling due to error"))
    exec o (Vars.setCode .warn)
  | _ => pure ()

/-- `RPCStartPoll` has found an entry. -/
def stopSession (o : Outside) (mi : MailPingInformation) :
    Option Nat → Block Vars PanicValue Unit
  | none => do
    let text := Telemetry.getLogPrefix mi.deviceId mi.userId mi.clientContext mi.sessionId ++
      GoString.lit "|Could not find poll session in map"
    exec o fun s => { s with err := some text }
    returns o (some text)
  | some _ => do
    -- `client.Status()` and the log line about it
    exec o id
    exec o id
    tellStatus o o.status
    -- `client.Action(PingerStop)`
    exec o id
    match o.action with
    | some err => do
      exec o (Vars.setMessage err)
      exec o (Vars.setCode .error)
      returns o none
    | none => exec o (Vars.delete mi.pollMapKey)

/-- What `RPCStartPoll` does to the map. -/
def freeKey (o : Outside) (mi : MailPingInformation) : Block Vars PanicValue Unit := do
  match ← lookup o mi.pollMapKey with
  | (client, true) => stopSession o mi client
  | (some _, false) => Block.raise clientNotOk
  | (none, false) => pure ()

/-- `RPCStartPoll`. -/
def rpcStartPoll (o : Outside) (mailInfo : Option MailPingInformation) :
    Block Vars PanicValue Unit := do
  Block.deferring recoverErr
  exec o id
  match mailInfo with
  | none => Block.raise notInitialized
  | some mi => do
    exec o id
    exec o (Vars.setCode .ok)
    exec o Vars.lockMap
    Block.modify fun s => { s with needUnlock := true }
    Block.deferring unlockIfNeeded
    freeKey o mi
    exec o Vars.unlockMap
    Block.modify fun s => { s with needUnlock := false }
    exec o (Vars.spawn (.createNewPingerSession mi.pollMapKey mi))
    returns o none

/-- The prefix of `StopPollArgs`, `DeferPollArgs` and `FindSessionsArgs`. -/
def getLogPrefix (deviceId userId clientContext : GoString) : GoString :=
  GoString.lit "|device=" ++ deviceId ++ GoString.lit "|client=" ++ userId ++
    GoString.lit "|context=" ++ clientContext ++ GoString.lit "|message="

def noItem (deviceId userId clientContext : GoString) : GoString :=
  getLogPrefix deviceId userId clientContext ++ GoString.lit "Could not find poll item in map"

/-- There is no entry for the key of the request. -/
def noSession (o : Outside) : Block Vars PanicValue Unit := do
  exec o id
  exec o (Vars.setCode .error)
  exec o (Vars.setMessage (GoString.lit "No active sessions found"))
  Block.ret

/-- `RPCStopPoll`. -/
def rpcStopPoll (o : Outside) (args : StopPollArgs) : Block Vars PanicValue Unit := do
  Block.deferring recoverErr
  exec o id
  exec o id
  exec o Vars.lockMap
  Block.deferring unlockMap
  match ← lookup o args.pollMapKey with
  | (none, true) => do
    exec o (Vars.delete args.pollMapKey)
    returns o (some (noItem args.deviceId args.userId args.clientContext))
  | (some sid, true) => do
    exec o (Vars.delete args.pollMapKey)
    exec o (Vars.spawn (.stop sid))
    exec o (Vars.setMessage (GoString.lit "Stopped"))
    exec o (Vars.setCode .ok)
    returns o none
  | (_, false) => noSession o

/-- `RPCDeferPoll` has found a session. -/
def deferSession (o : Outside) (args : DeferPollArgs) (sid : Nat) :
    Block Vars PanicValue Unit := do
  exec o id
  match o.status with
  | (_, some err) => returns o (some err)
  | (status, none) =>
    if status ≠ .pinging ∧ status ≠ .deferred then do
      exec o (Vars.setCode .error)
      exec o (Vars.setMessage (GoString.lit "Client is not pinging or deferred (" ++
        statusString status ++ GoString.lit "). Can not defer."))
      returns o none
    else do
      exec o (Vars.spawn (.deferPoll sid args.timeout))
      returns o none

/-- `RPCDeferPoll`. -/
def rpcDeferPoll (o : Outside) (args : DeferPollArgs) : Block Vars PanicValue Unit := do
  Block.deferring recoverErr
  exec o id
  exec o (Vars.setCode .ok)
  exec o (Vars.setMessage [])
  exec o id
  match ← lookup o args.pollMapKey with
  | (none, true) => returns o (some (noItem args.deviceId args.userId args.clientContext))
  | (some sid, true) => deferSession o args sid
  | (_, false) => noSession o

/-- The session is one the request asks for. -/
def FindSessionsArgs.selects (args : FindSessionsArgs) (session : ClientSessionInfo) : Bool :=
  (args.userId = [] ∧ args.clientContext = [] ∧ args.deviceId = []) ∨
    (args.userId ≠ [] ∧ session.userId = args.userId) ∨
    (args.clientContext ≠ [] ∧ session.clientContext = args.clientContext) ∨
    (args.deviceId ≠ [] ∧ session.deviceId = args.deviceId)

/-- The loop of `RPCFindActiveSessions`. -/
def visit (o : Outside) (args : FindSessionsArgs) :
    List (Sigma fun _ : GoString => Option Nat) → Block Vars PanicValue Unit
  | [] => pure ()
  | ⟨_, poll⟩ :: entries => do
    let s ← Block.get
    if 0 < args.maxSessions ∧ args.maxSessions ≤ s.reply.sessionInfos.length then exec o id
    else
      match poll with
      | none => Block.raise nilDereference
      | some sid => do
        exec o id
        match o.getSessionInfo sid with
        | .error _ => do
          exec o id
          visit o args entries
        | .ok session => do
          exec o fun s => if args.selects session then s.addSession session else s
          visit o args entries

/-- `RPCFindActiveSessions`. -/
def rpcFindActiveSessions (o : Outside) (args : FindSessionsArgs) :
    Block Vars PanicValue Unit := do
  Block.deferring recoverErr
  exec o id
  visit o args (← Block.get).pollMap.entries
  exec o (Vars.setCode .ok)
  exec o (Vars.setMessage [])
  returns o none

inductive Request
  | startPoll (mailInfo : Option MailPingInformation)
  | stopPoll (args : StopPollArgs)
  | deferPoll (args : DeferPollArgs)
  | findActiveSessions (args : FindSessionsArgs)

def Request.body (o : Outside) : Request → Block Vars PanicValue Unit
  | .startPoll mailInfo => rpcStartPoll o mailInfo
  | .stopPoll args => rpcStopPoll o args
  | .deferPoll args => rpcDeferPoll o args
  | .findActiveSessions args => rpcFindActiveSessions o args

/-- The variables of a handler that is called. -/
def Vars.start (pollMap : PollMap) (reply : Reply) : Vars := { pollMap, reply }

/-- What the RPC layer gets from the handler: a panic, if one goes on in it, and the results. -/
def Request.handle (o : Outside) (request : Request) (pollMap : PollMap) (reply : Reply) :
    Option PanicValue × Vars := (request.body o).run (Vars.start pollMap reply)

/-- The lock is released exactly once if it was taken. -/
def LockCount.Released (lock : LockCount) : Prop := lock.locks ≤ 1 ∧ lock.unlocks = lock.locks

/-- A panic is contained: the handler returns an error, and the lock is free. -/
structure Contained (result : Option PanicValue × Vars) : Prop where
  returns : result.1 = none
  err : result.2.err ≠ none
  released : result.2.lock.Released

/-! ## What the deferred functions do -/

theorem recoverCrash_keeps : recoverCrash.Keeps false fun s => (none, s) :=
  .bind (r := fun _ s => (none, s)) .recover fun _ => .pure none

/-- `RecoverCrash` has not stopped the panic, so there is no error to return. -/
theorem recoverErr_keeps : recoverErr.Keeps true fun s => ((), s) :=
  .bind (r := fun _ s => ((), s)) (.call recoverCrash_keeps) fun _ => .pure ()

theorem unlockMap_keeps : unlockMap.Keeps true fun s => ((), s.unlockMap) := .modify _

theorem unlockIfNeeded_keeps :
    unlockIfNeeded.Keeps true fun s => ((), if s.needUnlock then s.unlockMap else s) := .modify _

/-! ## The lock in the bodies -/

/-- How a handler stands: what it has deferred, what it has done with the lock, and `needUnlock`. -/
structure At (defers : List (Cleanup Vars PanicValue Unit)) (lock : LockCount) (needUnlock : Bool)
    (f : Frame Vars PanicValue) : Prop where
  defers : f.defers = defers
  lock : f.vars.lock = lock
  needUnlock : f.vars.needUnlock = needUnlock

/-- The deferred functions, run in this frame, let the panic go on and leave the lock free. -/
abbrev Settled : Frame Vars PanicValue → Prop := Block.Settles fun s => s.lock.Released

/-- A statement that does not touch the lock. -/
def Quiet (g : Vars → Vars) : Prop := ∀ s, (g s).lock = s.lock ∧ (g s).needUnlock = s.needUnlock

namespace Quiet

theorem id : Quiet id := fun _ => ⟨rfl, rfl⟩

theorem setErr (err : Option GoString) : Quiet fun s => { s with err := err } :=
  fun _ => ⟨rfl, rfl⟩

theorem setCode (code : PollingReplyType) : Quiet (Vars.setCode code) := fun _ => ⟨rfl, rfl⟩

theorem setMessage (message : GoString) : Quiet (Vars.setMessage message) := fun _ => ⟨rfl, rfl⟩

theorem delete (key : GoString) : Quiet (Vars.delete key) := fun _ => ⟨rfl, rfl⟩

theorem spawn (g : Goroutine) : Quiet (Vars.spawn g) := fun _ => ⟨rfl, rfl⟩

end Quiet

section
variable {o : Outside} {ds : List (Cleanup Vars PanicValue Unit)} {l : LockCount} {n : Bool}

/-- Before the lock is taken. -/
theorem At.settled_open : At [recoverErr] {} n f → Settled f := by
  obtain ⟨s, _⟩ := f
  rintro ⟨rfl, hl, -⟩
  refine .cons recoverErr_keeps (.nil ?_)
  rw [show s.lock = {} from hl]
  exact ⟨Nat.zero_le 1, rfl⟩

/-- `RPCStopPoll` holds the lock. -/
theorem At.settled_stop : At [unlockMap, recoverErr] ⟨1, 0⟩ n f → Settled f := by
  obtain ⟨s, _⟩ := f
  rintro ⟨rfl, hl, -⟩
  refine .cons unlockMap_keeps (.cons recoverErr_keeps (.nil ?_))
  rw [Vars.unlockMap, show s.lock = ⟨1, 0⟩ from hl]
  exact ⟨Nat.le_refl 1, rfl⟩

/-- `RPCStartPoll` holds the lock. -/
theorem At.settled_held : At [unlockIfNeeded, recoverErr] ⟨1, 0⟩ true f → Settled f := by
  obtain ⟨s, _⟩ := f
  rintro ⟨rfl, hl, hn⟩
  refine .cons unlockIfNeeded_keeps (.cons recoverErr_keeps (.nil ?_))
  rw [if_pos hn, Vars.unlockMap, show s.lock = ⟨1, 0⟩ from hl]
  exact ⟨Nat.le_refl 1, rfl⟩

/-- `RPCStartPoll` has released the lock itself. -/
theorem At.settled_free : At [unlockIfNeeded, recoverErr] ⟨1, 1⟩ false f → Settled f := by
  obtain ⟨s, _⟩ := f
  rintro ⟨rfl, hl, hn⟩
  refine .cons unlockIfNeeded_keeps (.cons recoverErr_keeps (.nil ?_))
  rw [if_neg (Bool.not_eq_true _ ▸ hn), show s.lock = ⟨1, 1⟩ from hl]
  exact ⟨Nat.le_refl 1, rfl⟩

/-- The rule for a statement: where it panics, only the number of statements has changed. -/
theorem exec_triple {g : Vars → Vars} {Q : Frame Vars PanicValue → Prop}
    (hg : ∀ f, At ds l n f → Q { f with vars := g f.vars }) :
    Block.Triple (At ds l n) (exec o g) (fun _ => Q) (At ds l n) := by
  refine .bind Block.Preserves.get fun s => ?_
  refine .bind (.modify (Q := fun _ => At ds l n) fun f hf => ⟨hf.1, hf.2, hf.3⟩) fun _ => ?_
  cases o.panics s.statements with
  | some v => exact .raise fun _ h => h
  | none => exact .modify hg

theorem exec_preserves {g : Vars → Vars} (hg : Quiet g) :
    Block.Preserves (At ds l n) (exec o g) :=
  exec_triple fun f hf => ⟨hf.1, (hg f.vars).1.trans hf.2, (hg f.vars).2.trans hf.3⟩

theorem returns_preserves (err : Option GoString) :
    Block.Preserves (At ds l n) (returns o err : Block Vars PanicValue α) :=
  .bind (exec_preserves (.setErr err)) fun _ => .ret

theorem lookup_preserves (pollMapKey : GoString) :
    Block.Preserves (At ds l n) (lookup o pollMapKey) := by
  refine .bind (exec_preserves .id) fun _ => .bind .get fun s => ?_
  cases s.pollMap.lookup pollMapKey with
  | some client => exact .pure _
  | none => exact .pure _

theorem tellStatus_preserves (status : Status) :
    Block.Preserves (At ds l n) (tellStatus o status) := by
  unfold tellStatus
  split
  · exact exec_preserves .id
  · exact exec_preserves .id
  · exact .bind (exec_preserves .id) fun _ =>
      .bind (exec_preserves (.setMessage _)) fun _ => exec_preserves (.setCode _)
  · exact .bind (exec_preserves .id) fun _ =>
      .bind (exec_preserves (.setMessage _)) fun _ => exec_preserves (.setCode _)
  · exact .pure ()

theorem stopSession_preserves (mi : MailPingInformation) (client : Option Nat) :
    Block.Preserves (At ds l n) (stopSession o mi client) := by
  cases client with
  | none => exact .bind (exec_preserves (.setErr _)) fun _ => returns_preserves _
  | some sid =>
    refine .bind (exec_preserves .id) fun _ => .bind (exec_preserves .id) fun _ =>
      .bind (tellStatus_preserves _) fun _ => .bind (exec_preserves .id) fun _ => ?_
    cases o.action with
    | some err =>
      exact .bind (exec_preserves (.setMessage _)) fun _ =>
        .bind (exec_preserves (.setCode _)) fun _ => returns_preserves none
    | none => exact exec_preserves (.delete _)

theorem freeKey_preserves (mi : MailPingInformation) :
    Block.Preserves (At ds l n) (freeKey o mi) := by
  refine .bind (lookup_preserves _) fun found => ?_
  match found with
  | (client, true) => exact stopSession_preserves mi client
  | (some _, false) => exact .raise _
  | (none, false) => exact .pure ()

theorem noSession_preserves : Block.Preserves (At ds l n) (noSession o) :=
  .bind (exec_preserves .id) fun _ => .bind (exec_preserves (.setCode _)) fun _ =>
    .bind (exec_preserves (.setMessage _)) fun _ => .ret

theorem deferSession_preserves (args : DeferPollArgs) (sid : Nat) :
    Block.Preserves (At ds l n) (deferSession o args sid) := by
  refine .bind (exec_preserves .id) fun _ => ?_
  match o.status with
  | (_, some err) => exact returns_preserves _
  | (status, none) =>
    refine .ite (fun _ => ?_) fun _ => ?_
    · exact .bind (exec_preserves (.setCode _)) fun _ =>
        .bind (exec_preserves (.setMessage _)) fun _ => returns_preserves none
    · exact .bind (exec_preserves (.spawn _)) fun _ => returns_preserves none

theorem visit_preserves (args : FindSessionsArgs)
    (entries : List (Sigma fun _ : GoString => Option Nat)) :
    Block.Preserves (At ds l n) (visit o args entries) := by
  induction entries with
  | nil => exact .pure ()
  | cons entry entries ih =>
    refine .bind .get fun s => .ite (fun _ => exec_preserves .id) fun _ => ?_
    cases entry.2 with
    | none => exact .raise _
    | some sid =>
      refine .bind (exec_preserves .id) fun _ => ?_
      cases o.getSessionInfo sid with
      | error err => exact .bind (exec_preserves .id) fun _ => ih
      | ok session =>
        refine .bind (exec_preserves fun s => ?_) fun _ => ih
        split <;> exact ⟨rfl, rfl⟩

end

/-! ## The handlers -/

/-- However the block ends, what has been deferred lets a panic go on and leaves the lock free. -/
abbrev Sound (P : Frame Vars PanicValue → Prop) (b : Block Vars PanicValue α) : Prop :=
  Block.Triple P b (fun _ => Settled) Settled

namespace Sound
variable {o : Outside} {P P' : Frame Vars PanicValue → Prop} {b : Block Vars PanicValue α}
  {k : α → Block Vars PanicValue β} {ds : List (Cleanup Vars PanicValue Unit)} {l : LockCount}

theorem of_preserves (h : Block.Preserves P b) (hP : ∀ f, P f → Settled f) : Sound P b :=
  h.conseq (fun _ => id) (fun _ => hP) hP

theorem bind (hb : Block.Triple P b (fun _ => P') P) (hP : ∀ f, P f → Settled f)
    (hk : ∀ a, Sound P' (k a)) : Sound P (b >>= k) :=
  Block.Triple.bind (hb.conseq (fun _ => id) (fun _ _ => id) hP) hk

theorem deferring {d : Cleanup Vars PanicValue Unit} {k : Unit → Block Vars PanicValue α}
    (h : Sound (At (d :: ds) l n) (k ())) : Sound (At ds l n) (Block.deferring d >>= k) :=
  Block.Triple.bind
    (.deferring fun _ hf => ⟨congrArg (d :: ·) hf.defers, hf.lock, hf.needUnlock⟩) fun _ => h

theorem setNeedUnlock {k : Unit → Block Vars PanicValue α} (h : Sound (At ds l need) (k ())) :
    Sound (At ds l n) (Block.modify (fun s => { s with needUnlock := need }) >>= k) :=
  Block.Triple.bind (.modify fun _ hf => ⟨hf.defers, hf.lock, rfl⟩) fun _ => h

end Sound

section
variable {o : Outside} {ds : List (Cleanup Vars PanicValue Unit)} {n : Bool}

theorem lockMap_triple :
    Block.Triple (At ds {} n) (exec o Vars.lockMap) (fun _ => At ds ⟨1, 0⟩ n) (At ds {} n) :=
  exec_triple fun f hf => ⟨hf.defers, by simp [hf.lock], hf.needUnlock⟩

theorem unlockMap_triple :
    Block.Triple (At ds ⟨1, 0⟩ n) (exec o Vars.unlockMap) (fun _ => At ds ⟨1, 1⟩ n)
      (At ds ⟨1, 0⟩ n) :=
  exec_triple fun f hf => ⟨hf.defers, by simp [hf.lock], hf.needUnlock⟩

theorem rpcStartPoll_sound (mailInfo : Option MailPingInformation) :
    Sound (At [] {} false) (rpcStartPoll o mailInfo) := by
  have hopen := fun f => At.settled_open (n := false) (f := f)
  refine .deferring (.bind (exec_preserves .id) hopen fun _ => ?_)
  cases mailInfo with
  | none => exact .of_preserves (.raise _) hopen
  | some mi =>
    refine .bind (exec_preserves .id) hopen fun _ => ?_
    refine .bind (exec_preserves (.setCode _)) hopen fun _ => ?_
    -- between taking the lock and deferring its release nothing can panic
    refine .bind lockMap_triple hopen fun _ => .setNeedUnlock (.deferring ?_)
    have hheld := fun f => At.settled_held (f := f)
    refine .bind (freeKey_preserves mi) hheld fun _ => ?_
    refine .bind unlockMap_triple hheld fun _ => .setNeedUnlock ?_
    have hfree := fun f => At.settled_free (f := f)
    refine .bind (exec_preserves (.spawn _)) hfree fun _ => ?_
    exact .of_preserves (returns_preserves none) hfree

theorem rpcStopPoll_sound (args : StopPollArgs) :
    Sound (At [] {} false) (rpcStopPoll o args) := by
  have hopen := fun f => At.settled_open (n := false) (f := f)
  refine .deferring (.bind (exec_preserves .id) hopen fun _ => ?_)
  refine .bind (exec_preserves .id) hopen fun _ => ?_
  refine .bind lockMap_triple hopen fun _ => .deferring (.of_preserves ?_ fun f => At.settled_stop)
  refine .bind (lookup_preserves _) fun found => ?_
  match found with
  | (none, true) =>
    exact .bind (exec_preserves (.delete _)) fun _ => returns_preserves _
  | (some sid, true) =>
    exact .bind (exec_preserves (.delete _)) fun _ => .bind (exec_preserves (.spawn _)) fun _ =>
      .bind (exec_preserves (.setMessage _)) fun _ =>
        .bind (exec_preserves (.setCode _)) fun _ => returns_preserves none
  | (none, false) | (some _, false) => exact noSession_preserves

theorem rpcDeferPoll_sound (args : DeferPollArgs) :
    Sound (At [] {} false) (rpcDeferPoll o args) := by
  refine .deferring (.of_preserves ?_ fun f => At.settled_open)
  refine .bind (exec_preserves .id) fun _ => .bind (exec_preserves (.setCode _)) fun _ =>
    .bind (exec_preserves (.setMessage _)) fun _ => .bind (exec_preserves .id) fun _ =>
      .bind (lookup_preserves _) fun found => ?_
  match found with
  | (none, true) => exact returns_preserves _
  | (some sid, true) => exact deferSession_preserves args sid
  | (none, false) | (some _, false) => exact noSession_preserves

theorem rpcFindActiveSessions_sound (args : FindSessionsArgs) :
    Sound (At [] {} false) (rpcFindActiveSessions o args) := by
  refine .deferring (.of_preserves ?_ fun f => At.settled_open)
  exact .bind (exec_preserves .id) fun _ => .bind .get fun s =>
    .bind (visit_preserves args _) fun _ => .bind (exec_preserves (.setCode _)) fun _ =>
      .bind (exec_preserves (.setMessage _)) fun _ => returns_preserves none

theorem Request.body_sound (request : Request) : Sound (At [] {} false) (request.body o) := by
  cases request with
  | startPoll mailInfo => exact rpcStartPoll_sound mailInfo
  | stopPoll args => exact rpcStopPoll_sound args
  | deferPoll args => exact rpcDeferPoll_sound args
  | findActiveSessions args => exact rpcFindActiveSessions_sound args

end

/-- A panic of the body is the panic of the handler, and the lock is free in any case. -/
theorem handle_settles (o : Outside) (request : Request) (pollMap : PollMap) (reply : Reply) :
    (request.handle o pollMap reply).1 =
        (request.body o ⟨Vars.start pollMap reply, []⟩).1.panicking ∧
      (request.handle o pollMap reply).2.lock.Released := by
  obtain ⟨s, hrun, hs⟩ := Block.run_settles (request.body_sound (o := o))
    (show At [] {} false ⟨Vars.start pollMap reply, []⟩ from ⟨rfl, rfl, rfl⟩)
  rw [Request.handle, hrun]
  exact ⟨rfl, hs⟩

/-! ## When nothing panics -/

/-- The map of the registry, in which no session is nil. -/
def Represents (pollMap : PollMap) (m : GoString → Option Nat) : Prop :=
  ∀ key, pollMap.lookup key = (m key).map some

theorem Represents.delete (h : Represents pollMap m) (key : GoString) :
    Represents (pollMap.erase key) (Function.update m key none) := by
  intro key'
  by_cases hk : key' = key
  · rw [hk, AList.lookup_erase, Function.update_self]
    rfl
  · rw [AList.lookup_erase_ne hk, Function.update_of_ne hk]
    exact h key'

/-- What the client gets when the handler returns. -/
def Vars.answer (s : Vars) : Except GoString PollingResponse :=
  match s.err with
  | some err => .error err
  | none => .ok ⟨s.reply.code, s.reply.message⟩

/-- The handler has returned with this answer, and this is the map. -/
structure Answers (result : Option PanicValue × Vars) (m : GoString → Option Nat)
    (answer : Except GoString PollingResponse) : Prop where
  returns : result.1 = none
  answer : result.2.answer = answer
  pollMap : Represents result.2.pollMap m

section
variable {o : Outside}

theorem exec_calm (h : ∀ n, o.panics n = none) (g : Vars → Vars) (f : Frame Vars PanicValue) :
    exec o g f = (.next (), { f with
      vars := g { f.vars with statements := f.vars.statements + 1 } }) := by
  simp only [exec, Block.bind_apply, Block.get_apply, Block.modify_apply, h]

theorem lookup_calm (h : ∀ n, o.panics n = none) (key : GoString) (f : Frame Vars PanicValue) :
    lookup o key f =
      (.next ((f.vars.pollMap.lookup key).elim (none, false) fun client => (client, true)),
        { f with vars := { f.vars with statements := f.vars.statements + 1 } }) := by
  cases hkey : f.vars.pollMap.lookup key <;> simp [lookup, exec_calm h, hkey]

theorem handle_eq {pollMap : PollMap} (request : Request)
    (h : request.body o ⟨Vars.start pollMap reply, []⟩ = (flow, f)) :
    request.handle o pollMap reply = unwind f.defers (flow.panicking, f.vars) := by
  rw [Request.handle, Block.run, h]

theorem handle_stopPoll (h : ∀ n, o.panics n = none) {r : Registry}
    (hmap : Represents pollMap r.pollMap) (args : StopPollArgs) :
    Answers (Request.handle o (.stopPoll args) pollMap {}) (Rpc.rpcStopPoll r args).1.pollMap
      (.ok (Rpc.rpcStopPoll r args).2) := by
  have hkey := hmap args.pollMapKey
  cases hk : r.pollMap args.pollMapKey with
  | none =>
    rw [hk] at hkey
    have hbody : rpcStopPoll o args ⟨Vars.start pollMap {}, []⟩ = (.ret,
        ⟨{ Vars.start pollMap ⟨.error, GoString.lit "No active sessions found", []⟩ with
          lock := ⟨1, 0⟩, statements := 7 }, [unlockMap, recoverErr]⟩) := by
      simp [rpcStopPoll, noSession, exec_calm h, lookup_calm h, hkey, Vars.start]
    rw [handle_eq (.stopPoll args) hbody, unwind_cons unlockMap_keeps,
      unwind_cons recoverErr_keeps, unwind, Rpc.rpcStopPoll, hk]
    exact ⟨rfl, rfl, hmap⟩
  | some sid =>
    rw [hk] at hkey
    have hbody : rpcStopPoll o args ⟨Vars.start pollMap {}, []⟩ = (.ret,
        ⟨{ Vars.start (pollMap.erase args.pollMapKey) ⟨.ok, GoString.lit "Stopped", []⟩ with
          lock := ⟨1, 0⟩, goroutines := [.stop sid], statements := 9 },
          [unlockMap, recoverErr]⟩) := by
      simp [rpcStopPoll, returns, exec_calm h, lookup_calm h, hkey, Vars.start]
    rw [handle_eq (.stopPoll args) hbody, unwind_cons unlockMap_keeps,
      unwind_cons recoverErr_keeps, unwind, Rpc.rpcStopPoll, hk]
    exact ⟨rfl, rfl, hmap.delete _⟩

theorem tellStatus_calm (h : ∀ n, o.panics n = none) (status : Status)
    {f : Frame Vars PanicValue} (hreply : f.vars.reply = { code := .ok }) :
    ∃ n, tellStatus o status f = (.next (), { f with vars := { f.vars with
      reply := ⟨(startReply (some status)).code, (startReply (some status)).message, []⟩
      statements := n } }) := by
  match status with
  | (.error, none) | (.error, some _) =>
    refine ⟨f.vars.statements + 3, ?_⟩
    simp [tellStatus, exec_calm h, startReply, hreply]
  | (.stopped, _) | (.pinging, _) =>
    refine ⟨f.vars.statements + 1, ?_⟩
    simp [tellStatus, exec_calm h, startReply, ← hreply]
  | (.initialized, _) | (.deferred, _) | (.reDeferred, _) =>
    refine ⟨f.vars.statements, ?_⟩
    simp [tellStatus, startReply, ← hreply]

theorem handle_startPoll (h : ∀ n, o.panics n = none) (haction : o.action = none) {r : Registry}
    (hmap : Represents pollMap r.pollMap) (mi : MailPingInformation) :
    Answers (Request.handle o (.startPoll (some mi)) pollMap {})
      (Rpc.rpcStartPoll r mi o.status).1.pollMap
      (.ok (Rpc.rpcStartPoll r mi o.status).2) := by
  have hkey := hmap mi.pollMapKey
  cases hk : r.pollMap mi.pollMapKey with
  | none =>
    rw [hk] at hkey
    have hbody : rpcStartPoll o (some mi) ⟨Vars.start pollMap {}, []⟩ = (.ret,
        ⟨{ Vars.start pollMap { code := .ok } with
          lock := ⟨1, 1⟩, goroutines := [.createNewPingerSession mi.pollMapKey mi]
          statements := 8 }, [unlockIfNeeded, recoverErr]⟩) := by
      simp [rpcStartPoll, freeKey, returns, exec_calm h, lookup_calm h, hkey, Vars.start]
    rw [handle_eq (.startPoll (some mi)) hbody,
      unwind_cons unlockIfNeeded_keeps, unwind_cons recoverErr_keeps, unwind, Rpc.rpcStartPoll, hk]
    exact ⟨rfl, rfl, hmap⟩
  | some sid =>
    rw [hk] at hkey
    obtain ⟨n, htell⟩ := tellStatus_calm h o.status (f := ⟨{ Vars.start pollMap { code := .ok } with
      needUnlock := true, lock := ⟨1, 0⟩, statements := 7 }, [unlockIfNeeded, recoverErr]⟩) rfl
    have hbody : rpcStartPoll o (some mi) ⟨Vars.start pollMap {}, []⟩ = (.ret,
        ⟨{ Vars.start (pollMap.erase mi.pollMapKey)
            ⟨(startReply (some o.status)).code, (startReply (some o.status)).message, []⟩ with
          lock := ⟨1, 1⟩, goroutines := [.createNewPingerSession mi.pollMapKey mi]
          statements := n + 5 }, [unlockIfNeeded, recoverErr]⟩) := by
      rw [Vars.start] at htell
      simp [rpcStartPoll, freeKey, stopSession, returns, exec_calm h, lookup_calm h, hkey, htell,
        haction, Vars.start]
    rw [handle_eq (.startPoll (some mi)) hbody,
      unwind_cons unlockIfNeeded_keeps, unwind_cons recoverErr_keeps, unwind, Rpc.rpcStartPoll, hk]
    exact ⟨rfl, rfl, hmap.delete _⟩

theorem handle_deferPoll (h : ∀ n, o.panics n = none) {s : Server B}
    (hmap : Represents pollMap s.reg.pollMap) (args : DeferPollArgs)
    (hstatus : ∀ sid, s.reg.pollMap args.pollMapKey = some sid →
      (s.ctx sid).getStatus = o.status) :
    Answers (Request.handle o (.deferPoll args) pollMap {}) s.reg.pollMap
      (Rpc.rpcDeferPoll s args).2 := by
  have hkey := hmap args.pollMapKey
  cases hk : s.reg.pollMap args.pollMapKey with
  | none =>
    rw [hk] at hkey
    have hbody : rpcDeferPoll o args ⟨Vars.start pollMap {}, []⟩ = (.ret,
        ⟨{ Vars.start pollMap ⟨.error, GoString.lit "No active sessions found", []⟩ with
          statements := 8 }, [recoverErr]⟩) := by
      simp [rpcDeferPoll, noSession, exec_calm h, lookup_calm h, hkey, Vars.start]
    rw [handle_eq (.deferPoll args) hbody, unwind_cons recoverErr_keeps, unwind,
      Rpc.rpcDeferPoll, hk]
    exact ⟨rfl, rfl, hmap⟩
  | some sid =>
    rw [hk] at hkey
    have hsession := hstatus sid hk
    rw [Rpc.rpcDeferPoll, hk]
    simp only [hsession]
    cases hs : o.status with
    | mk status err =>
    cases err with
    | some err =>
      have hbody : rpcDeferPoll o args ⟨Vars.start pollMap {}, []⟩ = (.ret,
          ⟨{ Vars.start pollMap { code := .ok } with
            err := some err, statements := 7 }, [recoverErr]⟩) := by
        simp [rpcDeferPoll, deferSession, returns, exec_calm h, lookup_calm h, hkey, hs,
          Vars.start]
      rw [handle_eq (.deferPoll args) hbody, unwind_cons recoverErr_keeps, unwind]
      exact ⟨rfl, rfl, hmap⟩
    | none =>
      by_cases hpoll : status ≠ .pinging ∧ status ≠ .deferred
      · have hbody : rpcDeferPoll o args ⟨Vars.start pollMap {}, []⟩ = (.ret,
            ⟨{ Vars.start pollMap ⟨.error, GoString.lit "Client is not pinging or deferred (" ++
              statusString status ++ GoString.lit "). Can not defer.", []⟩ with
              statements := 9 }, [recoverErr]⟩) := by
          simp [rpcDeferPoll, deferSession, returns, exec_calm h, lookup_calm h, hkey, hs, hpoll,
            Vars.start]
        rw [handle_eq (.deferPoll args) hbody, unwind_cons recoverErr_keeps, unwind]
        dsimp only
        rw [if_pos hpoll]
        exact ⟨rfl, rfl, hmap⟩
      · have hbody : rpcDeferPoll o args ⟨Vars.start pollMap {}, []⟩ = (.ret,
            ⟨{ Vars.start pollMap { code := .ok } with
              goroutines := [.deferPoll sid args.timeout], statements := 8 }, [recoverErr]⟩) := by
          simp [rpcDeferPoll, deferSession, returns, exec_calm h, lookup_calm h, hkey, hs, hpoll,
            Vars.start]
        rw [handle_eq (.deferPoll args) hbody, unwind_cons recoverErr_keeps, unwind]
        dsimp only
        rw [if_neg hpoll]
        exact ⟨rfl, rfl, hmap⟩

end

/-! ## When something panics -/

/-- Deferred itself, as the goroutines of the mail clients do it, `RecoverCrash` stops a panic with
an error; it turns a panic with any other value into one of its own. -/
theorem unwind_recoverCrash (s : Vars) (v : PanicValue) :
    unwind [do let _ ← recoverCrash; pure ()] (some v, s) = match v with
      | .other type _ => (some (typeAssertionError type), s)
      | .error _ | .nil => (none, s) := by
  cases v <;> rfl

/-- The panic of the body, if it ends in one. -/
def Request.raises (o : Outside) (request : Request) (pollMap : PollMap) (reply : Reply) :
    Option PanicValue := (request.body o ⟨Vars.start pollMap reply, []⟩).1.panicking

/-- No handler contains any panic: whatever its value and wherever the body raises it, it goes on in
the RPC layer. The lock is released all the same. -/
theorem handle_panic (o : Outside) (request : Request) (pollMap : PollMap) (reply : Reply)
    (h : request.raises o pollMap reply = some v) :
    ¬Contained (request.handle o pollMap reply) ∧ (request.handle o pollMap reply).1 = some v ∧
      (request.handle o pollMap reply).2.lock.Released := by
  obtain ⟨hpanic, hlock⟩ := handle_settles o request pollMap reply
  have hv : (request.handle o pollMap reply).1 = some v := hpanic.trans h
  refine ⟨fun hc => ?_, hv, hlock⟩
  cases hc.returns.symm.trans hv

/-- No statement panics, and the session that is found is polling. -/
def polling : Outside where
  panics _ := none
  status := (.pinging, none)
  action := none
  getSessionInfo _ := .error (GoString.lit "Entry has no active client")

/-- A request to stop that panics at the lookup, while it holds the lock. -/
theorem handle_panic_locked :
    let o := { polling with panics := fun n => if n = 3 then some nilDereference else none }
    let request := Request.stopPoll ⟨GoString.lit "u", GoString.lit "c", GoString.lit "d"⟩
    ¬Contained (request.handle o ∅ {}) ∧ (request.handle o ∅ {}).1 = some nilDereference ∧
      (request.handle o ∅ {}).2.lock.Released :=
  handle_panic _ _ _ _ rfl

/-- A request to start a poll without a `MailInfo`: `getLogPrefix` panics with a string. -/
theorem handle_nilMailInfo :
    (Request.startPoll none).raises polling ∅ {} = some notInitialized ∧
      ¬Contained ((Request.startPoll none).handle polling ∅ {}) :=
  ⟨rfl, fun hc => nomatch hc.returns⟩

end Pinger.Rpc.Crash

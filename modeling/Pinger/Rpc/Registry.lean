import Mathlib.Logic.Function.Basic
import Mathlib.Logic.ExistsUnique
import Pinger.Session.Client

/-! # The map of sessions

`RPCStartPoll`, `RPCStopPoll` and `createNewPingerSession` on `pollMap`. What a handler does while
it holds the map lock is one step; a session is created outside the lock, by a goroutine that
`RPCStartPoll` leaves behind when it replies. A session is named by its number in the order of
creation. What `Status()` of a session returns is part of the label here. -/

namespace Pinger

/-! ## Requests and replies -/

def sessionKey (userId clientContext deviceId : GoString) : GoString :=
  userId ++ GoString.lit "--" ++ clientContext ++ GoString.lit "--" ++ deviceId

/-- The key of `StartPollArgs`. -/
def MailPingInformation.pollMapKey (mi : MailPingInformation) : GoString :=
  sessionKey mi.userId mi.clientContext mi.deviceId

namespace Rpc

open Transition

structure StopPollArgs where
  userId : GoString
  clientContext : GoString
  deviceId : GoString
  deriving DecidableEq, Repr

def StopPollArgs.pollMapKey (args : StopPollArgs) : GoString :=
  sessionKey args.userId args.clientContext args.deviceId

inductive PollingReplyType
  | error
  | ok
  | warn
  deriving DecidableEq, Repr

structure PollingResponse where
  code : PollingReplyType
  message : GoString := []
  deriving DecidableEq, Repr

/-- What `Status()` returns. -/
abbrev Status := MailClientStatus × Option GoString

/-- The reply of `RPCStartPoll`, from the status of the session it has found. `Action` returns nil,
so a session that is found is always replaced. -/
def startReply : Option Status → PollingResponse
  | some (.error, some err) =>
    ⟨.warn, GoString.lit "Previous Ping failed with error: " ++ err⟩
  | some (.error, none) => ⟨.warn, GoString.lit "Not polling due to error"⟩
  | _ => { code := .ok }

/-! ## The handlers -/

/-- A `createNewPingerSession` goroutine: in `newMailClientContext`, on its way to the map with a
session, or returned. -/
inductive Creation
  | absent
  | pending (mi : MailPingInformation)
  | created (mi : MailPingInformation) (sid : Nat)
  | finished (sid : Option Nat)
  deriving DecidableEq, Repr

/-- The steps of the handlers. `create` is the return of `newMailClientContext`, with a session or
with an error; `offer` is the section of `createNewPingerSession` under the lock. -/
inductive Act
  | startPoll (mi : MailPingInformation) (status : Status)
  | stopPoll (args : StopPollArgs)
  | create (c : Nat) (ok : Bool)
  | offer (c : Nat)
  deriving DecidableEq, Repr

/-- `stops` are the steps that have issued a stop to a session, by `stop()` or
`Action(PingerStop)`. -/
structure Registry where
  pollMap : GoString → Option Nat := fun _ => none
  sessions : Nat → Option MailPingInformation := fun _ => none
  nsessions : Nat := 0
  creations : Nat → Creation := fun _ => .absent
  ncreations : Nat := 0
  stops : Nat → List Act := fun _ => []

namespace Registry

def issueStop (r : Registry) (sid : Nat) (a : Act) : Registry :=
  { r with stops := Function.update r.stops sid (r.stops sid ++ [a]) }

/-- `delete(*pollMap, key)`. -/
def delete (r : Registry) (key : GoString) : Registry :=
  { r with pollMap := Function.update r.pollMap key none }

def store (r : Registry) (key : GoString) (sid : Nat) : Registry :=
  { r with pollMap := Function.update r.pollMap key (some sid) }

def setCreation (r : Registry) (c : Nat) (p : Creation) : Registry :=
  { r with creations := Function.update r.creations c p }

/-- `go createNewPingerSession(…)`. -/
def spawn (r : Registry) (mi : MailPingInformation) : Registry :=
  { r.setCreation r.ncreations (.pending mi) with ncreations := r.ncreations + 1 }

/-- `newMailClientContext` has returned a session. -/
def addSession (r : Registry) (c : Nat) (mi : MailPingInformation) : Registry :=
  { r.setCreation c (.created mi r.nsessions) with
    sessions := Function.update r.sessions r.nsessions (some mi)
    nsessions := r.nsessions + 1 }

end Registry

/-- `RPCStartPoll`. -/
def rpcStartPoll (r : Registry) (mi : MailPingInformation) (status : Status) :
    Registry × PollingResponse :=
  match r.pollMap mi.pollMapKey with
  | some sid =>
    (((r.issueStop sid (.startPoll mi status)).delete mi.pollMapKey).spawn mi,
      startReply (some status))
  | none => (r.spawn mi, startReply none)

/-- `RPCStopPoll`. -/
def rpcStopPoll (r : Registry) (args : StopPollArgs) : Registry × PollingResponse :=
  match r.pollMap args.pollMapKey with
  | some sid =>
    ((r.delete args.pollMapKey).issueStop sid (.stopPoll args), ⟨.ok, GoString.lit "Stopped"⟩)
  | none => (r, ⟨.error, GoString.lit "No active sessions found"⟩)

/-- The end of `createNewPingerSession`. -/
def offer (r : Registry) (c : Nat) (mi : MailPingInformation) (sid : Nat) : Registry :=
  match r.pollMap mi.pollMapKey with
  | some _ => (r.issueStop sid (.offer c)).setCreation c (.finished (some sid))
  | none => (r.store mi.pollMapKey sid).setCreation c (.finished (some sid))

def Registry.step (r : Registry) : Act → Option Registry
  | .startPoll mi status => some (rpcStartPoll r mi status).1
  | .stopPoll args => some (rpcStopPoll r args).1
  | .create c ok =>
    match r.creations c with
    | .pending mi => some (if ok then r.addSession c mi else r.setCreation c (.finished none))
    | _ => none
  | .offer c =>
    match r.creations c with
    | .created mi sid => some (offer r c mi sid)
    | _ => none

/-- What a step does. -/
inductive Stepped (r : Registry) : Act → Registry → Prop
  | replaced : r.pollMap mi.pollMapKey = some sid → Stepped r (.startPoll mi status)
      (((r.issueStop sid (.startPoll mi status)).delete mi.pollMapKey).spawn mi)
  | started : r.pollMap mi.pollMapKey = none → Stepped r (.startPoll mi status) (r.spawn mi)
  | stopped : r.pollMap args.pollMapKey = some sid → Stepped r (.stopPoll args)
      ((r.delete args.pollMapKey).issueStop sid (.stopPoll args))
  | notFound : r.pollMap args.pollMapKey = none → Stepped r (.stopPoll args) r
  | created : r.creations c = .pending mi → Stepped r (.create c true) (r.addSession c mi)
  | failed : r.creations c = .pending mi →
      Stepped r (.create c false) (r.setCreation c (.finished none))
  | refused : r.creations c = .created mi sid → r.pollMap mi.pollMapKey = some sid' →
      Stepped r (.offer c) ((r.issueStop sid (.offer c)).setCreation c (.finished (some sid)))
  | stored : r.creations c = .created mi sid → r.pollMap mi.pollMapKey = none →
      Stepped r (.offer c) ((r.store mi.pollMapKey sid).setCreation c (.finished (some sid)))

theorem step_cases {r r' : Registry} (h : r.step a = some r') : Stepped r a r' := by
  cases a with
  | startPoll mi status =>
    simp only [Registry.step, rpcStartPoll, Option.some.injEq] at h
    cases hk : r.pollMap mi.pollMapKey with
    | some sid => rw [hk] at h; exact h ▸ .replaced hk
    | none => rw [hk] at h; exact h ▸ .started hk
  | stopPoll args =>
    simp only [Registry.step, rpcStopPoll, Option.some.injEq] at h
    cases hk : r.pollMap args.pollMapKey with
    | some sid => rw [hk] at h; exact h ▸ .stopped hk
    | none => rw [hk] at h; exact h ▸ .notFound hk
  | create c ok =>
    simp only [Registry.step] at h
    split at h
    · obtain rfl := Option.some.inj h
      cases ok with
      | true => exact .created ‹_›
      | false => exact .failed ‹_›
    · cases h
  | offer c =>
    simp only [Registry.step, offer] at h
    split at h
    · rename_i mi sid hc
      obtain rfl := Option.some.inj h
      cases hk : r.pollMap mi.pollMapKey with
      | some sid' => exact .refused hc hk
      | none => exact .stored hc hk
    · cases h

/-! ## What a step does to one creation and to one key -/

/-- The key a request is for. -/
def Act.requests : Act → Option GoString
  | .startPoll mi _ => some mi.pollMapKey
  | .stopPoll args => some args.pollMapKey
  | _ => none

inductive CreationStep (r : Registry) (c : Nat) (r' : Registry) : Act → Prop
  | same : r'.creations c = r.creations c → CreationStep r c r' a
  | spawn : c = r.ncreations → r'.creations c = .pending mi →
      CreationStep r c r' (.startPoll mi status)
  | create : r.creations c = .pending mi → r'.creations c = .created mi r.nsessions →
      r'.sessions r.nsessions = some mi → CreationStep r c r' (.create c true)
  | fail : r.creations c = .pending mi → r'.creations c = .finished none →
      CreationStep r c r' (.create c false)
  | refused : r.creations c = .created mi sid → r'.creations c = .finished (some sid) →
      r.pollMap mi.pollMapKey = some sid' → .offer c ∈ r'.stops sid → CreationStep r c r' (.offer c)
  | stored : r.creations c = .created mi sid → r'.creations c = .finished (some sid) →
      r.pollMap mi.pollMapKey = none → r'.pollMap mi.pollMapKey = some sid →
      CreationStep r c r' (.offer c)

inductive KeyStep (r : Registry) (key : GoString) (r' : Registry) : Act → Prop
  | same : r'.pollMap key = r.pollMap key → KeyStep r key r' a
  | removed : a.requests = some key → r.pollMap key = some sid → r'.pollMap key = none →
      a ∈ r'.stops sid → KeyStep r key r' a
  | stored : r.creations c = .created mi sid → mi.pollMapKey = key → r.pollMap key = none →
      r'.pollMap key = some sid → KeyStep r key r' (.offer c)

section
variable {r r' : Registry}

theorem Stepped.creationStep (h : Stepped r a r') (c : Nat) : CreationStep r c r' a := by
  cases h with
  | replaced _ | started _ =>
    by_cases hc : c = r.ncreations
    · exact .spawn hc (hc ▸ Function.update_self ..)
    · exact .same (Function.update_of_ne hc ..)
  | stopped _ | notFound _ => exact .same rfl
  | @created c₀ mi hp =>
    by_cases hc : c = c₀
    · subst hc
      exact .create hp (Function.update_self ..) (Function.update_self ..)
    · exact .same (Function.update_of_ne hc ..)
  | @failed c₀ mi hp =>
    by_cases hc : c = c₀
    · subst hc
      exact .fail hp (Function.update_self ..)
    · exact .same (Function.update_of_ne hc ..)
  | @refused c₀ mi sid sid' hp hk =>
    by_cases hc : c = c₀
    · subst hc
      refine .refused hp (Function.update_self ..) hk ?_
      simp [Registry.setCreation, Registry.issueStop]
    · exact .same (Function.update_of_ne hc ..)
  | @stored c₀ mi sid hp hk =>
    by_cases hc : c = c₀
    · subst hc
      exact .stored hp (Function.update_self ..) hk (Function.update_self ..)
    · exact .same (Function.update_of_ne hc ..)

theorem Stepped.keyStep (h : Stepped r a r') (key : GoString) : KeyStep r key r' a := by
  cases h with
  | @replaced sid mi status hk =>
    by_cases hkey : key = mi.pollMapKey
    · subst hkey
      refine .removed rfl hk (Function.update_self ..) ?_
      simp [Registry.spawn, Registry.setCreation, Registry.delete, Registry.issueStop]
    · exact .same (Function.update_of_ne hkey ..)
  | @stopped sid args hk =>
    by_cases hkey : key = args.pollMapKey
    · subst hkey
      refine .removed rfl hk (Function.update_self ..) ?_
      simp [Registry.delete, Registry.issueStop]
    · exact .same (Function.update_of_ne hkey ..)
  | @stored c mi sid hp hk =>
    by_cases hkey : key = mi.pollMapKey
    · subst hkey
      exact .stored hp rfl hk (Function.update_self ..)
    · exact .same (Function.update_of_ne hkey ..)
  | started _ | notFound _ | created _ | failed _ | refused _ _ => exact .same rfl

/-- After a request for a key the map has no session under it. -/
theorem Stepped.requested (h : Stepped r a r') (ha : a.requests = some key) :
    r'.pollMap key = none := by
  cases h with
  | replaced hk => cases ha; exact Function.update_self ..
  | started hk => cases ha; exact hk
  | stopped hk => cases ha; exact Function.update_self ..
  | notFound hk => cases ha; exact hk
  | _ => cases ha

theorem Stepped.stops_mono (h : Stepped r a r') (hs : r.stops sid ≠ []) : r'.stops sid ≠ [] := by
  have hupd {sid'} : Function.update r.stops sid' (r.stops sid' ++ [a]) sid ≠ [] := by
    by_cases hsid : sid = sid'
    · subst hsid
      simp
    · rwa [Function.update_of_ne hsid]
  cases h with
  | replaced _ | stopped _ | refused _ _ => exact hupd
  | started _ | notFound _ | created _ | failed _ | stored _ _ => exact hs

end

end Rpc
end Pinger

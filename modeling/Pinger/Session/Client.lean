import Pinger.Lib.Bytes
import Pinger.Lib.Run

/-! # Mail clients as their session sees them

`start()` drives a mail client through the interface `MailClient`: it launches `LongPoll`
goroutines, each with a stop channel of its own, receives their results on one shared `errCh`,
and cleans the client up at the end. The client is a transition system: its labels are the steps
of its goroutines, with what the servers and the scheduler answer. Log output is not modelled. -/

namespace Pinger

/-- A registration. A reply that is nil differs from an empty one. -/
structure MailPingInformation where
  userId : GoString := []
  clientContext : GoString := []
  deviceId : GoString := []
  platform : GoString := []
  mailServerUrl : GoString := []
  username : GoString := []
  password : GoString := []
  protocol : GoString := []
  httpHeaders : List (GoString × GoString) := []
  requestData : Option GoString := none
  expectedReply : Option GoString := none
  noChangeReply : Option GoString := none
  responseTimeout : Nat := 0
  waitBeforeUse : Nat := 0
  pushToken : GoString := []
  pushService : GoString := []
  maxPollTimeout : Nat := 0
  osVersion : GoString := []
  appBuildVersion : GoString := []
  appBuildNumber : GoString := []
  sessionId : GoString := []
  imapAuthenticationBlob : GoString := []
  imapFolderName : GoString := []
  imapSupportsIdle : Bool := false
  imapSupportsExpunge : Bool := false
  imapExistsCount : Nat := 0
  imapUidNext : Nat := 0
  asIsSyncRequest : Bool := false
  deriving DecidableEq, Repr

/-- What `LongPoll` passes back on `errCh`. -/
inductive PollResult
  | newMail
  | reRegister
  | error (msg : GoString)
  deriving DecidableEq, Repr

inductive PingerCommand
  | stop
  | defer
  | other (n : Int)
  deriving DecidableEq, Repr

inductive MailClientStatus
  | error
  | initialized
  | pinging
  | deferred
  | stopped
  | reDeferred
  deriving DecidableEq, Repr

/-- The part of the session that the goroutines of a mail client read: which stop channels are
closed, and the clock. A `LongPoll` instance is named by the number of its `stopPollCh`. -/
structure Signals where
  stopPoll : Nat → Bool
  stopAll : Bool
  now : Int

/-- A `MailClient` implementation. `offer` is the value with which an instance is blocked in its
send on `errCh`, `taken` completes that send, `wg` is the wait group of the session, and an
instance is `absent` until it is launched. Only the client's own steps bring an instance to a
send.

A request goroutine is `atSend` while it is blocked in a send on its own channels, and `awaited`
while its `LongPoll` is in the select on them; a step can change this only for the request it
`concerns`. -/
structure MailClient where
  State : Type
  Label : Type
  fresh : State
  step : Signals → State → Label → Option State
  launch : State → Nat → State
  offer : State → Nat → Option PollResult
  taken : State → Nat → State
  wg : State → Nat
  cleanup : State → State
  absent : State → Nat → Prop
  atSend : State → Nat → Bool
  awaited : State → Nat → Bool
  concerns : State → Label → Option Nat
  offer_launch : ∀ {c g g' v}, offer (launch c g) g' = some v → offer c g' = some v
  offer_taken : ∀ {c g g' v}, offer (taken c g) g' = some v → offer c g' = some v
  offer_cleanup : ∀ {c g v}, offer (cleanup c) g = some v → offer c g = some v
  offer_absent : ∀ {c g}, absent c g → offer c g = none
  absent_fresh : ∀ {g}, absent fresh g
  absent_step : ∀ {sig c l c' g}, step sig c l = some c' → absent c g → absent c' g
  absent_launch : ∀ {c g g'}, g' ≠ g → absent c g' → absent (launch c g) g'
  absent_taken : ∀ {c g g' v}, offer c g = some v → absent c g' → absent (taken c g) g'
  absent_cleanup : ∀ {c g}, absent c g → absent (cleanup c) g
  atSend_fresh : ∀ {r}, atSend fresh r = false
  atSend_launch : ∀ {c g r}, atSend (launch c g) r = atSend c r
  atSend_taken : ∀ {c g r}, atSend (taken c g) r = atSend c r
  atSend_cleanup : ∀ {c r}, atSend (cleanup c) r = atSend c r
  awaited_launch : ∀ {c g r}, absent c g → awaited c r → awaited (launch c g) r
  awaited_taken : ∀ {c g v r}, offer c g = some v → awaited c r → awaited (taken c g) r
  awaited_cleanup : ∀ {c r}, awaited c r → awaited (cleanup c) r
  atSend_step : ∀ {sig c l c' r}, step sig c l = some c' → atSend c' r →
    atSend c r ∨ concerns c l = some r ∧ (awaited c r → awaited c' r)
  awaited_step : ∀ {sig c l c' r}, step sig c l = some c' → concerns c l ≠ some r →
    awaited c r → awaited c' r

/-- When the goroutines of a client come to their sends. `result` is the instance that a step brings
to its send on `errCh`, and an instance that is `finished` has left its loop. As long as every step
of the client is `InOrder`, it stays `Attended`: a request goroutine is in a send only while its
`LongPoll` is in the select on it. -/
structure MailClient.Order (M : MailClient) where
  result : Signals → M.State → M.Label → Option Nat
  finished : M.State → Nat → Prop
  InOrder : M.State → M.Label → Prop
  Attended : M.State → Prop
  decidableInOrder : ∀ c l, Decidable (InOrder c l)
  offer_step : ∀ {sig c l c' g v}, M.step sig c l = some c' → M.offer c' g = some v →
    M.offer c g = some v ∨ result sig c l = some g
  offer_finished : ∀ {c g}, finished c g → M.offer c g = none
  finished_step : ∀ {sig c l c' g}, M.step sig c l = some c' → finished c g → finished c' g
  finished_taken : ∀ {c g v}, M.offer c g = some v → finished (M.taken c g) g
  finished_cleanup : ∀ {c g}, finished c g → finished (M.cleanup c) g
  attended_fresh : Attended M.fresh
  attended_step : ∀ {sig c l c'}, M.step sig c l = some c' → InOrder c l → Attended c → Attended c'
  attended_launch : ∀ {c g}, M.absent c g → Attended c → Attended (M.launch c g)
  attended_taken : ∀ {c g v}, M.offer c g = some v → Attended c → Attended (M.taken c g)
  attended_cleanup : ∀ {c}, Attended c → Attended (M.cleanup c)
  awaited_of_atSend : ∀ {c r}, Attended c → M.atSend c r → M.awaited c r

/-! ## Any caller

A mail client that is launched, told to stop and received from in any order. -/

structure Caller (σ : Type) where
  mc : σ
  launched : Nat := 0
  closedPoll : List Nat := []
  stopAll : Bool := false
  now : Int := 0

inductive CallerAct (L : Type)
  | launch
  | take (g : Nat)
  | closePoll (g : Nat)
  | closeAll
  | advance (d : Nat)
  | poll (l : L)
  deriving DecidableEq

namespace Caller

def signals (c : Caller σ) : Signals where
  stopPoll g := g ∈ c.closedPoll
  stopAll := c.stopAll
  now := c.now

/-- The stop channels of instance `g` are open. -/
def Open (c : Caller σ) (g : Nat) : Prop := g ∉ c.closedPoll ∧ c.stopAll = false

def step (M : MailClient) (c : Caller M.State) : CallerAct M.Label → Option (Caller M.State)
  | .launch => some { c with mc := M.launch c.mc c.launched, launched := c.launched + 1 }
  | .take g => (M.offer c.mc g).map fun _ => { c with mc := M.taken c.mc g }
  | .closePoll g => some { c with closedPoll := g :: c.closedPoll }
  | .closeAll => some { c with stopAll := true }
  | .advance d => some { c with now := c.now + d }
  | .poll l => (M.step c.signals c.mc l).map fun mc => { c with mc := mc }

open Transition

variable {M : MailClient} {s s' : Caller M.State} {mc : M.State}

theorem step_poll (h : M.step s.signals s.mc l = some mc) :
    step M s (.poll l) = some { s with mc := mc } := by
  rw [step, h]
  rfl

/-- A stop channel that is closed stays closed. -/
theorem open_of_step {a : CallerAct M.Label} (hs : step M s a = some s') (h : s'.Open g) :
    s.Open g := by
  cases a with
  | launch | advance => cases hs; exact h
  | take =>
    obtain ⟨v, hv, rfl⟩ := Option.map_eq_some_iff.mp hs
    exact h
  | poll l =>
    obtain ⟨mc, hm, rfl⟩ := Option.map_eq_some_iff.mp hs
    exact h
  | closePoll g' =>
    cases hs
    exact ⟨fun hmem => h.1 (List.mem_cons_of_mem _ hmem), h.2⟩
  | closeAll => cases hs; exact absurd h.2 (by simp)

theorem open_of_run (h : Run (step M) C s as s') (hopen : s'.Open g) : s.Open g := by
  by_contra hs
  exact h.inv (I := fun s => ¬s.Open g) (fun hn _ hstep ho => hn (open_of_step hstep ho)) hs hopen

end Caller
end Pinger

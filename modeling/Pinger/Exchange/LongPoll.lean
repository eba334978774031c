import Pinger.Exchange.Response
import Pinger.Lib.Timer

/-! # The Exchange client

The `LongPoll` instances of one `ExchangeClient` and their `doRequestResponse` goroutines. They
share `request`, `cancelled`, `transport` and the mutex, and nothing makes a new instance wait for
an old one. A request is named by the goroutine that makes it, a transport by the instance that
makes it. The network may end a request at any time, so `aborted` only records which requests
`CancelRequest` has ended.

After `Cleanup` a log line panics, since its prefix is taken from `pi`, and `RecoverCrash` panics in
turn, since the value it recovers is no error: the process dies. -/

namespace Pinger.Exchange

open GoTime

/-- A `LongPoll` goroutine. In `loop` it sleeps if it has to and then makes its next request; in
`select` it waits on the channels of that request; `stopping` is its deferred function. -/
inductive Poll
  | absent
  | launched
  | loop (sleepTime : Nat)
  | select (r : Nat) (sleepTime : Nat) (timeSent : Int)
  | sending (v : PollResult)
  | stopping
  | returned

/-- A `doRequestResponse` goroutine, started by `LongPoll` instance `owner`. Between `replied` and
`cleared` it sets `request` to nil, and it tests `cancelled` when it leaves `cleared`. -/
inductive Request
  | absent
  | spawned
  | locked
  | armed
  | doing (transport : Option Nat)
  | replied (o : DoOutcome)
  | cleared (o : DoOutcome)
  | sending (m : Message) (holdsMutex : Bool)
  | exited

/-- The registration, and what `http.NewRequest` makes of its URL and `url.Parse` of
`PINGER_PROXY`: an error text, or success. -/
structure Env where
  pi : MailPingInformation
  newRequestErr : Option GoString := none
  proxyErr : Option GoString := none

structure Client where
  polls : Nat → Poll := fun _ => .absent
  requests : Nat → Request := fun _ => .absent
  owner : Nat → Nat := fun _ => 0
  nrequests : Nat := 0
  cancelled : Bool := false
  request : Option Nat := none
  transport : Option Nat := none
  mutex : Option Nat := none
  aborted : List Nat := []
  wg : Nat := 0
  cleaned : Bool := false
  died : Bool := false

inductive Label
  | start (g : Nat)
  | spawn (g : Nat)
  | recv (g : Nat)
  | stopPoll (g : Nat)
  | stopAll (g : Nat)
  | cancel (g : Nat)
  | lock (r : Nat)
  | setup (r : Nat)
  | call (r : Nat)
  | reply (r : Nat) (o : DoOutcome)
  | clear (r : Nat)
  | test (r : Nat)
  deriving DecidableEq

def tooFastResponse (pi : MailPingInformation) : Int := (milliseconds pi.responseTimeout).tdiv 4

namespace Client

def setPoll (c : Client) (g : Nat) (p : Poll) : Client :=
  { c with polls := Function.update c.polls g p }

def setRequest (c : Client) (r : Nat) (q : Request) : Client :=
  { c with requests := Function.update c.requests r q }

/-- The goroutine returns: `wg.Done()`, and the mutex if it still holds it. -/
def exitRequest (c : Client) (r : Nat) : Client :=
  { c.setRequest r .exited with
    wg := c.wg - 1
    mutex := if c.mutex = some r then none else c.mutex }

/-- `transport.CancelRequest(request)`: it ends the saved request if the current transport carries
it. -/
def cancelRequest (c : Client) : List Nat :=
  match c.request with
  | none => c.aborted
  | some r =>
    match c.requests r with
    | .doing transport => if transport = c.transport then r :: c.aborted else c.aborted
    | _ => c.aborted

/-- `cancel()`, when the mutex is free, and the end of `LongPoll`. -/
def cancel (c : Client) (g : Nat) : Client :=
  { c.setPoll g .returned with cancelled := true, aborted := c.cancelRequest, wg := c.wg - 1 }

@[simp] theorem setPoll_polls (c : Client) :
    (c.setPoll g p).polls = Function.update c.polls g p := rfl

@[simp] theorem setPoll_requests (c : Client) : (c.setPoll g p).requests = c.requests := rfl

@[simp] theorem setPoll_owner (c : Client) : (c.setPoll g p).owner = c.owner := rfl

@[simp] theorem setRequest_requests (c : Client) :
    (c.setRequest r q).requests = Function.update c.requests r q := rfl

@[simp] theorem exitRequest_polls (c : Client) : (c.exitRequest r).polls = c.polls := rfl

@[simp] theorem exitRequest_requests (c : Client) :
    (c.exitRequest r).requests = Function.update c.requests r .exited := rfl

end Client

section
variable (env : Env) (sig : Signals) (c : Client)

/-- One step of a goroutine of the client while it has its `pi`. -/
def advance : Label → Option Client
  | .start g =>
    match c.polls g with
    | .launched =>
      let c := { c with wg := c.wg + 1, transport := some g }
      match env.proxyErr with
      | some e => some (c.setPoll g (.sending (.error e)))
      | none => some (c.setPoll g (.loop 0))
    | _ => none
  | .spawn g =>
    match c.polls g with
    | .loop sleepTime =>
      some { c.setPoll g (.select c.nrequests sleepTime sig.now) with
        requests := Function.update c.requests c.nrequests .spawned
        owner := Function.update c.owner c.nrequests g
        nrequests := c.nrequests + 1
        wg := c.wg + 1
        cancelled := false }
    | _ => none
  | .recv g =>
    match c.polls g with
    | .select r sleepTime timeSent =>
      match c.requests r with
      | .sending m _ =>
        let tooFast := sig.now - timeSent ≤ tooFastResponse env.pi
        match verdict env.pi tooFast sleepTime m with
        | .send v => some ((c.exitRequest r).setPoll g (.sending v))
        | .again n => some ((c.exitRequest r).setPoll g (.loop n))
      | _ => none
    | _ => none
  | .stopPoll g =>
    match c.polls g with
    | .select _ _ _ => if sig.stopPoll g then some (c.setPoll g .stopping) else none
    | _ => none
  | .stopAll g =>
    match c.polls g with
    | .select _ _ _ => if sig.stopAll then some (c.setPoll g .stopping) else none
    | _ => none
  | .cancel g =>
    match c.polls g with
    | .stopping => if c.mutex = none then some (c.cancel g) else none
    | _ => none
  | .lock r =>
    match c.requests r with
    | .spawned =>
      if c.mutex = none then some { c.setRequest r .locked with mutex := some r } else none
    | _ => none
  | .setup r =>
    match c.requests r with
    | .locked =>
      -- "Doing doRequestResponse with an active request in process!!"
      if c.request.isSome then some (c.exitRequest r)
      else match env.newRequestErr with
        | some e =>
          some (c.setRequest r
            (.sending (.err (.other (GoString.lit "Failed to create request: " ++ e))) true))
        | none => some { c.setRequest r .armed with request := some r, mutex := none }
    | _ => none
  | .call r =>
    match c.requests r with
    | .armed =>
      -- `Do(ex.request)` with a nil request panics, and the panic is recovered
      if c.request = none then some (c.exitRequest r) else some (c.setRequest r (.doing c.transport))
    | _ => none
  | .reply r o =>
    match c.requests r with
    | .doing _ => some (c.setRequest r (.replied o))
    | _ => none
  | .clear r =>
    match c.requests r with
    | .replied o => some { c.setRequest r (.cleared o) with request := none }
    | _ => none
  | .test r =>
    match c.requests r with
    | .cleared o =>
      if c.cancelled then some (c.exitRequest r)
      else some (c.setRequest r (.sending (respond env.pi o) false))
    | _ => none

/-- The step logs, or reads `pi`. -/
def needsPi : Label → Bool
  | .reply _ _ | .clear _ => false
  | .spawn g => match c.polls g with | .loop n => 0 < n | _ => false
  | .recv g =>
    match c.polls g with
    | .select r _ _ => match c.requests r with | .sending m _ => m.needsPi | _ => false
    | _ => false
  | _ => true

/-- One step of a goroutine of the client. -/
def step (l : Label) : Option Client :=
  if c.died then none
  else (advance env sig c l).map fun c' =>
    if c.cleaned ∧ needsPi c l then { c with died := true } else c'

end

/-! ## What one step can do -/

/-- What a step of a goroutine that has its `pi` can do. -/
inductive Stepped (env : Env) (sig : Signals) (c : Client) : Label → Client → Prop
  | proxyErr (hp : c.polls g = .launched) (he : env.proxyErr = some e) :
      Stepped env sig c (.start g)
        ({ c with wg := c.wg + 1, transport := some g }.setPoll g (.sending (.error e)))
  | started (hp : c.polls g = .launched) (he : env.proxyErr = none) :
      Stepped env sig c (.start g)
        ({ c with wg := c.wg + 1, transport := some g }.setPoll g (.loop 0))
  | spawned (hp : c.polls g = .loop n) : Stepped env sig c (.spawn g)
      { c.setPoll g (.select c.nrequests n sig.now) with
        requests := Function.update c.requests c.nrequests .spawned
        owner := Function.update c.owner c.nrequests g
        nrequests := c.nrequests + 1
        wg := c.wg + 1
        cancelled := false }
  | ended (hp : c.polls g = .select r n t) (hr : c.requests r = .sending m b)
      (hv : verdict env.pi (sig.now - t ≤ tooFastResponse env.pi) n m = .send v) :
      Stepped env sig c (.recv g) ((c.exitRequest r).setPoll g (.sending v))
  | again (hp : c.polls g = .select r n t) (hr : c.requests r = .sending m b)
      (hv : verdict env.pi (sig.now - t ≤ tooFastResponse env.pi) n m = .again n') :
      Stepped env sig c (.recv g) ((c.exitRequest r).setPoll g (.loop n'))
  | stopPoll (hp : c.polls g = .select r n t) (hs : sig.stopPoll g) :
      Stepped env sig c (.stopPoll g) (c.setPoll g .stopping)
  | stopAll (hp : c.polls g = .select r n t) (hs : sig.stopAll) :
      Stepped env sig c (.stopAll g) (c.setPoll g .stopping)
  | cancelled (hp : c.polls g = .stopping) (hm : c.mutex = none) :
      Stepped env sig c (.cancel g) (c.cancel g)
  | locked (hr : c.requests r = .spawned) (hm : c.mutex = none) :
      Stepped env sig c (.lock r) { c.setRequest r .locked with mutex := some r }
  | refused (hr : c.requests r = .locked) (hb : c.request.isSome) :
      Stepped env sig c (.setup r) (c.exitRequest r)
  | badRequest (hr : c.requests r = .locked) (hb : c.request = none)
      (he : env.newRequestErr = some e) :
      Stepped env sig c (.setup r) (c.setRequest r
        (.sending (.err (.other (GoString.lit "Failed to create request: " ++ e))) true))
  | armed (hr : c.requests r = .locked) (hb : c.request = none)
      (he : env.newRequestErr = none) :
      Stepped env sig c (.setup r) { c.setRequest r .armed with request := some r, mutex := none }
  | nilRequest (hr : c.requests r = .armed) (hn : c.request = none) :
      Stepped env sig c (.call r) (c.exitRequest r)
  | called (hr : c.requests r = .armed) (hn : c.request ≠ none) :
      Stepped env sig c (.call r) (c.setRequest r (.doing c.transport))
  | replied (hr : c.requests r = .doing t) :
      Stepped env sig c (.reply r o) (c.setRequest r (.replied o))
  | cleared (hr : c.requests r = .replied o) :
      Stepped env sig c (.clear r) { c.setRequest r (.cleared o) with request := none }
  | dropped (hr : c.requests r = .cleared o) (hc : c.cancelled) :
      Stepped env sig c (.test r) (c.exitRequest r)
  | answered (hr : c.requests r = .cleared o) (hc : c.cancelled = false) :
      Stepped env sig c (.test r) (c.setRequest r (.sending (respond env.pi o) false))

theorem advance_start_cases {c c' : Client} (h : advance env sig c (.start g) = some c') :
    Stepped env sig c (.start g) c' := by
  simp only [advance] at h
  split at h
  next hp =>
    split at h
    next he => cases h; exact .proxyErr hp he
    next he => cases h; exact .started hp he
  next => cases h

theorem advance_recv_cases {c c' : Client} (h : advance env sig c (.recv g) = some c') :
    Stepped env sig c (.recv g) c' := by
  simp only [advance] at h
  split at h
  next hp =>
    split at h
    next hr =>
      split at h
      next hv => cases h; exact .ended hp hr hv
      next hv => cases h; exact .again hp hr hv
    next => cases h
  next => cases h

theorem advance_setup_cases {c c' : Client} (h : advance env sig c (.setup r) = some c') :
    Stepped env sig c (.setup r) c' := by
  simp only [advance] at h
  split at h
  next hr =>
    split at h
    next hb => cases h; exact .refused hr hb
    next hb =>
      have hb' : c.request = none := by simpa using hb
      split at h
      next he => cases h; exact .badRequest hr hb' he
      next he => cases h; exact .armed hr hb' he
  next => cases h

theorem advance_cases {c c' : Client} (h : advance env sig c l = some c') :
    Stepped env sig c l c' := by
  cases l with
  | start g => exact advance_start_cases h
  | recv g => exact advance_recv_cases h
  | setup r => exact advance_setup_cases h
  | spawn g =>
    simp only [advance] at h
    split at h <;> cases h
    exact .spawned ‹_›
  | stopPoll g =>
    simp only [advance] at h
    split at h
    · split at h <;> cases h
      exact .stopPoll ‹_› ‹_›
    · cases h
  | stopAll g =>
    simp only [advance] at h
    split at h
    · split at h <;> cases h
      exact .stopAll ‹_› ‹_›
    · cases h
  | cancel g =>
    simp only [advance] at h
    split at h
    · split at h <;> cases h
      exact .cancelled ‹_› ‹_›
    · cases h
  | lock r =>
    simp only [advance] at h
    split at h
    · split at h <;> cases h
      exact .locked ‹_› ‹_›
    · cases h
  | call r =>
    simp only [advance] at h
    split at h
    · split at h <;> cases h
      · exact .nilRequest ‹_› ‹_›
      · exact .called ‹_› ‹_›
    · cases h
  | reply r o =>
    simp only [advance] at h
    split at h <;> cases h
    exact .replied ‹_›
  | clear r =>
    simp only [advance] at h
    split at h <;> cases h
    exact .cleared ‹_›
  | test r =>
    simp only [advance] at h
    split at h
    next hr =>
      split at h
      next hc => cases h; exact .dropped hr hc
      next hc => cases h; exact .answered hr (by simpa using hc)
    next => cases h

theorem step_cases {c c' : Client} (h : step env sig c l = some c') :
    ∃ d, Stepped env sig c l d ∧ (c' = d ∨ c' = { c with died := true }) := by
  simp only [step] at h
  split at h
  · cases h
  · obtain ⟨d, hd, rfl⟩ := Option.map_eq_some_iff.mp h
    refine ⟨d, advance_cases hd, ?_⟩
    split
    · exact .inr rfl
    · exact .inl rfl

/-! ## The client as a `MailClient` -/

/-- The value with which instance `g` is blocked in its send on `errCh`. -/
def offer (c : Client) (g : Nat) : Option PollResult :=
  match c.polls g with
  | .sending v => some v
  | _ => none

theorem offer_setPoll {c : Client} (hp : ∀ v, p ≠ .sending v)
    (h : offer (c.setPoll g p) g' = some v) : offer c g' = some v := by
  unfold offer at h
  rw [Client.setPoll_polls] at h
  by_cases hg : g' = g
  · subst hg
    rw [Function.update_self] at h
    cases p with
    | sending w => exact absurd rfl (hp w)
    | _ => cases h
  · rw [Function.update_of_ne hg] at h
    exact h

/-- Setting the state of an instance that exists leaves the absent ones absent. -/
theorem absent_setPoll {c : Client} (hg : c.polls g ≠ .absent) (h : c.polls g' = .absent) :
    (c.setPoll g p).polls g' = .absent := by
  have hne : g' ≠ g := fun e => hg (e ▸ h)
  rw [Client.setPoll_polls, Function.update_of_ne hne, h]

theorem absent_step {c c' : Client} (h : step env sig c l = some c')
    (hg : c.polls g' = .absent) : c'.polls g' = .absent := by
  obtain ⟨d, hd, rfl | rfl⟩ := step_cases h
  case inr => exact hg
  cases hd with
  | proxyErr hp | started hp | spawned hp | ended hp | again hp | stopPoll hp | stopAll hp
  | cancelled hp => exact absent_setPoll (by simp [hp]) hg
  | _ => exact hg

/-- The request goroutine is blocked in a send on one of its channels. -/
def atSend (c : Client) (r : Nat) : Bool :=
  match c.requests r with
  | .sending _ _ => true
  | _ => false

/-- The `LongPoll` of the request goroutine is in the select on its channels. -/
def awaited (c : Client) (r : Nat) : Bool :=
  match c.polls (c.owner r) with
  | .select r' _ _ => r' = r
  | _ => false

def concerns (c : Client) : Label → Option Nat
  | .start _ | .cancel _ => none
  | .spawn _ => some c.nrequests
  | .recv g | .stopPoll g | .stopAll g =>
    match c.polls g with
    | .select r _ _ => some r
    | _ => none
  | .lock r | .setup r | .call r | .reply r _ | .clear r | .test r => some r

theorem atSend_setRequest {c : Client} (h : atSend (c.setRequest r q) r') : r' = r ∨ atSend c r' := by
  by_cases hr : r' = r
  · exact .inl hr
  · right
    simpa [atSend, Function.update_of_ne hr] using h

/-- An instance that is not in the select on a request may go anywhere. -/
theorem awaited_setPoll {c : Client} (hp : ∀ n t, c.polls g ≠ .select r n t) (h : awaited c r) :
    awaited (c.setPoll g p) r := by
  have hg : c.owner r ≠ g := by
    rintro rfl
    unfold awaited at h
    split at h
    next r' n t hsel =>
      obtain rfl : r' = r := by simpa using h
      exact hp n t hsel
    next => cases h
  unfold awaited at h ⊢
  rw [Client.setPoll_polls, Client.setPoll_owner, Function.update_of_ne hg]
  exact h

theorem atSend_step {c c' : Client} (h : step env sig c l = some c') (ha : atSend c' r) :
    atSend c r ∨ concerns c l = some r ∧ (awaited c r → awaited c' r) := by
  obtain ⟨d, hd, rfl | rfl⟩ := step_cases h
  case inr => exact .inl ha
  cases hd with
  | proxyErr | started | stopPoll | stopAll | cancelled => exact .inl ha
  | spawned | ended | again | locked | refused | armed | nilRequest | called | replied | cleared
  | dropped =>
    rcases atSend_setRequest (c := c) ha with rfl | ha'
    · simp [atSend] at ha
    · exact .inl ha'
  | badRequest | answered =>
    rcases atSend_setRequest (c := c) ha with rfl | ha'
    · exact .inr ⟨rfl, id⟩
    · exact .inl ha'

theorem awaited_step {c c' : Client} (h : step env sig c l = some c') (hl : concerns c l ≠ some r)
    (ha : awaited c r) : awaited c' r := by
  obtain ⟨d, hd, rfl | rfl⟩ := step_cases h
  case inr => exact ha
  cases hd with
  | proxyErr hp | started hp | cancelled hp =>
    exact awaited_setPoll (c := c) (by rw [hp]; simp) ha
  | @spawned g n hp =>
    have hr : r ≠ c.nrequests := fun e => hl (e ▸ rfl)
    have := awaited_setPoll (p := .select c.nrequests n sig.now) (by rw [hp]; simp) ha
    simpa [awaited, Function.update_of_ne hr] using this
  | ended | again | stopPoll | stopAll =>
    exact awaited_setPoll (c := c) (fun n t e => hl (by simp [concerns, e])) ha
  | _ => exact ha

/-- `ExchangeClient` as a `MailClient`. -/
def client (env : Env) : MailClient where
  State := Client
  Label := Label
  fresh := {}
  step := step env
  launch c g := c.setPoll g .launched
  offer := offer
  taken c g := c.setPoll g .stopping
  wg := Client.wg
  cleanup c := { c with cleaned := true }
  absent c g := c.polls g = .absent
  atSend := atSend
  awaited := awaited
  concerns := concerns
  offer_launch := offer_setPoll (by simp)
  offer_taken := offer_setPoll (by simp)
  offer_cleanup := id
  offer_absent h := by simp [offer, h]
  absent_fresh := rfl
  absent_step := absent_step
  absent_launch hne h := by rw [Client.setPoll_polls, Function.update_of_ne hne, h]
  absent_taken hv h := absent_setPoll (fun hg => by simp [offer, hg] at hv) h
  absent_cleanup := id
  atSend_fresh := rfl
  atSend_launch := rfl
  atSend_taken := rfl
  atSend_cleanup := rfl
  awaited_launch hg := awaited_setPoll (by rw [hg]; simp)
  awaited_taken hv := awaited_setPoll fun n t hp => by simp [offer, hp] at hv
  awaited_cleanup := id
  atSend_step := atSend_step
  awaited_step := awaited_step

end Pinger.Exchange

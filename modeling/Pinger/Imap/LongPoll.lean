import Pinger.Imap.Command
import Pinger.Lib.Timer
import Mathlib.Logic.Function.Basic

/-! # The IMAP client

The `LongPoll` instances of one `IMAPClient` and their `doRequestResponse` goroutines. A panic of a
goroutine is recovered: a request goroutine ends, and a `LongPoll` goes to its deferred function.
The mutex is never held across an operation that waits, so the sections it guards are single steps.

After `Cleanup` every log line panics, and `RecoverCrash` panics in turn: the process dies. -/

namespace Pinger.Imap

open GoTime

/-- A `LongPoll` goroutine. In `loop` it sleeps if it has to; `dial`, `greeting` and `auth` set the
connection up, `authAgain` is the empty answer to a continuation request; in `request` it makes its
next request, in `select` it waits for it until the deadline; `stopping` is its deferred
function. -/
inductive Poll
  | absent
  | launched
  | loop (sleepTime : Nat)
  | dial
  | greeting (phase : Phase)
  | auth (cmd : Cmd)
  | authAgain (isOK : Bool) (cmd : Cmd)
  | examine (cmd : Cmd)
  | request
  | select (r : Nat) (deadline : Int)
  | sending (v : PollResult)
  | stopping
  | returned
  deriving DecidableEq, Repr

/-- A `doRequestResponse` goroutine. It counts itself in the wait group. -/
inductive Request
  | absent
  | spawned (command : GoString)
  | counted (command : GoString)
  | running (cmd : Cmd)
  | failed (timeout : Bool)
  | done
  | sendErr (timeout : Bool)
  | sendResp
  | exited
  deriving DecidableEq, Repr

/-- The registration, and the random letters of the command tags. -/
structure Env where
  pi : MailPingInformation
  tagId : GoString := GoString.lit "PINGR"

structure Client where
  sh : Shared
  polls : Nat → Poll := fun _ => .absent
  requests : Nat → Request := fun _ => .absent
  owner : Nat → Nat := fun _ => 0
  nrequests : Nat := 0
  results : Nat → List PollResult := fun _ => []
  wg : Nat := 0
  cleaned : Bool := false
  died : Bool := false

inductive Label
  | start (g : Nat)
  | next (g : Nat)
  | dial (g : Nat) (ok : Bool)
  | io (g : Nat) (e : IoEvent)
  | spawn (g : Nat)
  | timer (g : Nat)
  | recv (g : Nat)
  | stopPoll (g : Nat)
  | stopAll (g : Nat)
  | cancel (g : Nat)
  | count (r : Nat)
  | begin (r : Nat)
  | requestIo (r : Nat) (e : IoEvent)
  | test (r : Nat)
  deriving DecidableEq

def pollingInterval : Nat := 30

/-- `NewIMAPClient`. -/
def newIMAPClient (env : Env) : Client where
  sh := {
    existsCount := env.pi.imapExistsCount
    uidNext := env.pi.imapUidNext
    tag := { id := env.tagId } }

namespace Client

def setPoll (c : Client) (g : Nat) (p : Poll) : Client :=
  { c with polls := Function.update c.polls g p }

def setRequest (c : Client) (r : Nat) (q : Request) : Client :=
  { c with requests := Function.update c.requests r q }

/-- A counted request goroutine returns. -/
def exitRequest (c : Client) (r : Nat) : Client :=
  { c.setRequest r .exited with wg := c.wg - 1 }

@[simp] theorem setPoll_polls (c : Client) :
    (c.setPoll g p).polls = Function.update c.polls g p := rfl

@[simp] theorem setPoll_requests (c : Client) : (c.setPoll g p).requests = c.requests := rfl

@[simp] theorem setPoll_owner (c : Client) : (c.setPoll g p).owner = c.owner := rfl

@[simp] theorem setRequest_requests (c : Client) :
    (c.setRequest r q).requests = Function.update c.requests r q := rfl

@[simp] theorem exitRequest_requests (c : Client) :
    (c.exitRequest r).requests = Function.update c.requests r .exited := rfl

@[simp] theorem exitRequest_sh (c : Client) : (c.exitRequest r).sh = c.sh := rfl

end Client

/-! ## The commands of `LongPoll` -/

section
variable (env : Env)

/-- `LongPoll` is connected and authenticated. -/
def ready (sh : Shared) : Shared × Poll :=
  if env.pi.imapSupportsIdle then
    let (tag, sh) := sh.nextTag
    let command := tag ++ GoString.lit " EXAMINE " ++ env.pi.imapFolderName
    (sh, .examine (doIMAPCommand command))
  else (sh, .request)

/-- `doImapAuth` up to its command. -/
def doImapAuth (sh : Shared) : Shared × Poll :=
  match GoString.base64Decode env.pi.imapAuthenticationBlob with
  | none => (sh, .sending .reRegister)
  | some decodedBlob =>
    let (tag, sh) := sh.nextTag
    (sh, .auth (doIMAPCommand (tag ++ GoString.lit " " ++ decodedBlob)))

/-- The command of a request: `IDLE`, or `STATUS` when the server has no `IDLE`. -/
def requestCommand (tag : GoString) : GoString :=
  if env.pi.imapSupportsIdle then tag ++ GoString.lit " IDLE"
  else tag ++ GoString.lit " STATUS " ++ env.pi.imapFolderName ++ GoString.lit " (MESSAGES UIDNEXT)"

/-- The greeting of the server. -/
def greet (sh : Shared) : Phase → IoEvent → Option (Shared × Poll)
  | .arm, .arm => some (sh, if sh.tlsConn then .greeting (.read 0) else .stopping)
  | .read tries, .read o =>
    match getServerResponse tries o with
    | .failed _ => some (sh, .sending .reRegister)
    | .again => some (sh, .greeting (.read (tries + 1)))
    | .line response =>
      if isOKResponse response then some (doImapAuth env sh) else some (sh, .sending .reRegister)
  | _, _ => none

/-- Authentication has its responses. -/
def authenticated (sh : Shared) (responses : List GoString) : Shared × Poll :=
  let lastResponse := responses.getLastD []
  if isContinueResponse lastResponse then
    (sh, .authAgain (isOKResponse lastResponse) (doIMAPCommand (GoString.lit " ")))
  else if isOKResponse lastResponse then ready env sh
  else (sh, .sending .reRegister)

/-- Where `LongPoll` goes after an operation of the command it runs itself. -/
def pollOut (sh : Shared) : Poll → CmdOut → Shared × Poll
  | .auth _, .going cmd => (sh, .auth cmd)
  | .auth _, .ok responses => authenticated env sh responses
  | .authAgain isOK _, .going cmd => (sh, .authAgain isOK cmd)
  | .authAgain isOK _, .ok _ | .authAgain isOK _, .failed _ =>
    if isOK then ready env sh else (sh, .sending .reRegister)
  | .examine _, .going cmd => (sh, .examine cmd)
  | .examine _, .ok _ => (sh, .request)
  | _, .panicked => (sh, .stopping)
  | _, _ => (sh, .sending .reRegister)

/-- One operation of `LongPoll` on the connection. -/
def pollIo (sh : Shared) (g : Nat) (p : Poll) (e : IoEvent) : Option (Shared × Poll) :=
  match p with
  | .greeting phase => greet env sh phase e
  | .auth cmd | .authAgain _ cmd | .examine cmd =>
    (cmd.step sh (some g) e).map fun (sh, out) => pollOut env sh p out
  | _ => none

end

/-! ## Steps -/

section
variable (env : Env) (sig : Signals) (c : Client)

/-- `LongPoll` receives from its request goroutine. -/
def received (g r : Nat) : Request → Option Client
  | .sendErr true => some ((c.exitRequest r).setPoll g .stopping)
  | .sendErr false => some ((c.exitRequest r).setPoll g (.sending .reRegister))
  | .sendResp =>
    let c := c.exitRequest r
    if c.sh.hasNewEmail then
      some ({ c with sh := { c.sh with hasNewEmail := false } }.setPoll g (.sending .newMail))
    else some (c.setPoll g (.loop pollingInterval))
  | _ => none

/-- Where a request goroutine goes after an operation of its command. -/
def requestOut (r : Nat) : CmdOut → Client
  | .going cmd => c.setRequest r (.running cmd)
  | .ok _ => c.setRequest r .done
  | .failed timeout => c.setRequest r (.failed timeout)
  | .panicked => c.exitRequest r

/-- One step of a goroutine of the client while it has its `pi`. -/
def advance : Label → Option Client
  | .start g =>
    match c.polls g with
    | .launched =>
      if c.sh.isIdling then some (c.setPoll g .returned)
      else some ({ c with wg := c.wg + 1, sh := { c.sh with uidNext := 0 } }.setPoll g (.loop 0))
    | _ => none
  | .next g =>
    match c.polls g with
    | .loop _ =>
      if c.sh.tlsConn then some ({ c with sh := (ready env c.sh).1 }.setPoll g (ready env c.sh).2)
      else some (c.setPoll g .dial)
    | _ => none
  | .dial g ok =>
    match c.polls g with
    | .dial =>
      if ok then some ({ c with sh := { c.sh with tlsConn := true } }.setPoll g (.greeting .arm))
      else some (c.setPoll g (.sending .reRegister))
    | _ => none
  | .io g e =>
    (pollIo env c.sh g (c.polls g) e).map fun (sh, p) => { c with sh := sh }.setPoll g p
  | .spawn g =>
    match c.polls g with
    | .request =>
      let deadline := sig.now + milliseconds env.pi.responseTimeout
      let command := requestCommand env c.sh.nextTag.1
      some { c.setPoll g (.select c.nrequests deadline) with
        sh := c.sh.nextTag.2
        requests := Function.update c.requests c.nrequests (.spawned command)
        owner := Function.update c.owner c.nrequests g
        nrequests := c.nrequests + 1 }
    | _ => none
  | .timer g =>
    match c.polls g with
    | .select _ deadline =>
      if deadline ≤ sig.now then
        let p := if (cancelIDLE c.sh (some g)).2 then .loop 1 else .stopping
        some ({ c with sh := (cancelIDLE c.sh (some g)).1 }.setPoll g p)
      else none
    | _ => none
  | .recv g =>
    match c.polls g with
    | .select r _ => received c g r (c.requests r)
    | _ => none
  | .stopPoll g =>
    match c.polls g with
    | .select _ _ => if sig.stopPoll g then some (c.setPoll g .stopping) else none
    | _ => none
  | .stopAll g =>
    match c.polls g with
    | .select _ _ => if sig.stopAll then some (c.setPoll g .stopping) else none
    | _ => none
  | .cancel g =>
    match c.polls g with
    | .stopping =>
      some ({ c with sh := Imap.cancel c.sh (some g), wg := c.wg - 1 }.setPoll g .returned)
    | _ => none
  | .count r =>
    match c.requests r with
    | .spawned command => some { c.setRequest r (.counted command) with wg := c.wg + 1 }
    | _ => none
  | .begin r =>
    match c.requests r with
    | .counted command =>
      if c.sh.tlsConn then some (c.setRequest r (.running (doIMAPCommand command)))
      else some (c.exitRequest r)
    | _ => none
  | .requestIo r e =>
    match c.requests r with
    | .running cmd =>
      (cmd.step c.sh (some (c.owner r)) e).map fun (sh, out) =>
        requestOut { c with sh := sh } r out
    | _ => none
  | .test r =>
    match c.requests r with
    | .failed timeout =>
      if c.sh.cancelled then some (c.exitRequest r)
      else some ({ c with sh := { c.sh with isIdling := false } }.setRequest r (.sendErr timeout))
    | .done => if c.sh.cancelled then some (c.exitRequest r) else some (c.setRequest r .sendResp)
    | _ => none

/-- One step of a goroutine of the client. -/
def step (l : Label) : Option Client :=
  if c.died then none
  else (advance env sig c l).map fun c' => if c.cleaned then { c with died := true } else c'

end

/-! ## What one step can do -/

/-- What a step of a goroutine that has its `pi` can do. -/
inductive Stepped (env : Env) (sig : Signals) (c : Client) : Label → Client → Prop
  | alreadyIdling (hp : c.polls g = .launched) (hi : c.sh.isIdling) :
      Stepped env sig c (.start g) (c.setPoll g .returned)
  | started (hp : c.polls g = .launched) (hi : c.sh.isIdling = false) :
      Stepped env sig c (.start g)
        ({ c with wg := c.wg + 1, sh := { c.sh with uidNext := 0 } }.setPoll g (.loop 0))
  | connected (hp : c.polls g = .loop n) (hc : c.sh.tlsConn) : Stepped env sig c (.next g)
      ({ c with sh := (ready env c.sh).1 }.setPoll g (ready env c.sh).2)
  | setupConn (hp : c.polls g = .loop n) (hc : c.sh.tlsConn = false) :
      Stepped env sig c (.next g) (c.setPoll g .dial)
  | dialled (hp : c.polls g = .dial) : Stepped env sig c (.dial g true)
      ({ c with sh := { c.sh with tlsConn := true } }.setPoll g (.greeting .arm))
  | dialErr (hp : c.polls g = .dial) :
      Stepped env sig c (.dial g false) (c.setPoll g (.sending .reRegister))
  | io (h : pollIo env c.sh g (c.polls g) e = some (sh, p)) :
      Stepped env sig c (.io g e) ({ c with sh := sh }.setPoll g p)
  | spawned (hp : c.polls g = .request) : Stepped env sig c (.spawn g)
      { c.setPoll g (.select c.nrequests (sig.now + milliseconds env.pi.responseTimeout)) with
        sh := c.sh.nextTag.2
        requests := Function.update c.requests c.nrequests
          (.spawned (requestCommand env c.sh.nextTag.1))
        owner := Function.update c.owner c.nrequests g
        nrequests := c.nrequests + 1 }
  | timer (hp : c.polls g = .select r t) (ht : t ≤ sig.now) : Stepped env sig c (.timer g)
      ({ c with sh := (cancelIDLE c.sh (some g)).1 }.setPoll g
        (if (cancelIDLE c.sh (some g)).2 then .loop 1 else .stopping))
  | ioTimeout (hp : c.polls g = .select r t) (hr : c.requests r = .sendErr true) :
      Stepped env sig c (.recv g) ((c.exitRequest r).setPoll g .stopping)
  | requestErr (hp : c.polls g = .select r t) (hr : c.requests r = .sendErr false) :
      Stepped env sig c (.recv g) ((c.exitRequest r).setPoll g (.sending .reRegister))
  | newMail (hp : c.polls g = .select r t) (hr : c.requests r = .sendResp)
      (hm : c.sh.hasNewEmail) : Stepped env sig c (.recv g)
      ({ c.exitRequest r with sh := { c.sh with hasNewEmail := false } }.setPoll g
        (.sending .newMail))
  | noMail (hp : c.polls g = .select r t) (hr : c.requests r = .sendResp)
      (hm : c.sh.hasNewEmail = false) :
      Stepped env sig c (.recv g) ((c.exitRequest r).setPoll g (.loop pollingInterval))
  | stopPoll (hp : c.polls g = .select r t) (hs : sig.stopPoll g) :
      Stepped env sig c (.stopPoll g) (c.setPoll g .stopping)
  | stopAll (hp : c.polls g = .select r t) (hs : sig.stopAll) :
      Stepped env sig c (.stopAll g) (c.setPoll g .stopping)
  | cancelled (hp : c.polls g = .stopping) : Stepped env sig c (.cancel g)
      ({ c with sh := cancel c.sh (some g), wg := c.wg - 1 }.setPoll g .returned)
  | counted (hr : c.requests r = .spawned command) :
      Stepped env sig c (.count r) { c.setRequest r (.counted command) with wg := c.wg + 1 }
  | begun (hr : c.requests r = .counted command) (hc : c.sh.tlsConn) :
      Stepped env sig c (.begin r) (c.setRequest r (.running (doIMAPCommand command)))
  | noConn (hr : c.requests r = .counted command) (hc : c.sh.tlsConn = false) :
      Stepped env sig c (.begin r) (c.exitRequest r)
  | requestIo (hr : c.requests r = .running cmd)
      (h : cmd.step c.sh (some (c.owner r)) e = some (sh, out)) :
      Stepped env sig c (.requestIo r e) (requestOut { c with sh := sh } r out)
  | dropped (hr : c.requests r = .done ∨ ∃ t, c.requests r = .failed t) (hc : c.sh.cancelled) :
      Stepped env sig c (.test r) (c.exitRequest r)
  | failed (hr : c.requests r = .failed t) (hc : c.sh.cancelled = false) :
      Stepped env sig c (.test r)
        ({ c with sh := { c.sh with isIdling := false } }.setRequest r (.sendErr t))
  | answered (hr : c.requests r = .done) (hc : c.sh.cancelled = false) :
      Stepped env sig c (.test r) (c.setRequest r .sendResp)

theorem advance_recv_cases {c c' : Client} (h : advance env sig c (.recv g) = some c') :
    Stepped env sig c (.recv g) c' := by
  simp only [advance] at h
  split at h
  next r t hp =>
    cases hr : c.requests r with
    | sendErr timeout =>
      cases timeout with
      | true =>
        simp only [hr, received] at h
        cases h
        exact .ioTimeout hp hr
      | false =>
        simp only [hr, received] at h
        cases h
        exact .requestErr hp hr
    | sendResp =>
      simp only [hr, received] at h
      split at h
      next hm => cases h; exact .newMail hp hr hm
      next hm => cases h; exact .noMail hp hr (by simpa using hm)
    | _ => simp [hr, received] at h
  next => cases h

theorem advance_test_cases {c c' : Client} (h : advance env sig c (.test r) = some c') :
    Stepped env sig c (.test r) c' := by
  simp only [advance] at h
  split at h
  next t hr =>
    split at h
    next hc => cases h; exact .dropped (.inr ⟨t, hr⟩) hc
    next hc => cases h; exact .failed hr (by simpa using hc)
  next hr =>
    split at h
    next hc => cases h; exact .dropped (.inl hr) hc
    next hc => cases h; exact .answered hr (by simpa using hc)
  next => cases h

theorem advance_cases {c c' : Client} (h : advance env sig c l = some c') :
    Stepped env sig c l c' := by
  cases l with
  | recv g => exact advance_recv_cases h
  | test r => exact advance_test_cases h
  | io g e =>
    obtain ⟨⟨sh, p⟩, hio, rfl⟩ := Option.map_eq_some_iff.mp h
    exact .io hio
  | start g =>
    simp only [advance] at h
    split at h
    next hp =>
      split at h
      next hi => cases h; exact .alreadyIdling hp hi
      next hi => cases h; exact .started hp (by simpa using hi)
    next => cases h
  | next g =>
    simp only [advance] at h
    split at h
    next hp =>
      split at h
      next hc => cases h; exact .connected hp hc
      next hc => cases h; exact .setupConn hp (by simpa using hc)
    next => cases h
  | dial g ok =>
    simp only [advance] at h
    split at h
    next hp =>
      cases ok with
      | true => cases h; exact .dialled hp
      | false => cases h; exact .dialErr hp
    next => cases h
  | spawn g =>
    simp only [advance] at h
    split at h <;> cases h
    exact .spawned ‹_›
  | timer g =>
    simp only [advance] at h
    split at h
    next hp =>
      split at h
      next ht => cases h; exact .timer hp ht
      next => cases h
    next => cases h
  | stopPoll g =>
    simp only [advance] at h
    split at h
    · split at h <;> cases h
      exact .stopPoll ‹_› ‹_›
    · cases h
  | stopAll g =>
    simp only [advance] at h
    split at h
    · split at h <;> cases h
      exact .stopAll ‹_› ‹_›
    · cases h
  | cancel g =>
    simp only [advance] at h
    split at h <;> cases h
    exact .cancelled ‹_›
  | count r =>
    simp only [advance] at h
    split at h <;> cases h
    exact .counted ‹_›
  | begin r =>
    simp only [advance] at h
    split at h
    next hr =>
      split at h
      next hc => cases h; exact .begun hr hc
      next hc => cases h; exact .noConn hr (by simpa using hc)
    next => cases h
  | requestIo r e =>
    simp only [advance] at h
    split at h
    next hr =>
      obtain ⟨⟨sh, out⟩, hio, rfl⟩ := Option.map_eq_some_iff.mp h
      exact .requestIo hr hio
    next => cases h

theorem step_cases {c c' : Client} (h : step env sig c l = some c') :
    ∃ d, Stepped env sig c l d ∧ (c' = d ∨ c' = { c with died := true }) := by
  simp only [step] at h
  split at h
  · cases h
  · obtain ⟨d, hd, rfl⟩ := Option.map_eq_some_iff.mp h
    refine ⟨d, advance_cases hd, ?_⟩
    split
    · exact .inr rfl
    · exact .inl rfl

/-- Whatever a command does, it is the command of request `r` that goes on or ends. -/
theorem requestOut_eq (c : Client) (r : Nat) (out : CmdOut) : ∃ q wg,
    requestOut c r out = { c.setRequest r q with wg := wg } ∧
      (∀ t, q ≠ .sendErr t) ∧ q ≠ .sendResp ∧ q ≠ .absent := by
  cases out with
  | panicked => exact ⟨.exited, c.wg - 1, rfl, by simp, by simp, by simp⟩
  | going cmd => exact ⟨.running cmd, c.wg, rfl, by simp, by simp, by simp⟩
  | ok _ => exact ⟨.done, c.wg, rfl, by simp, by simp, by simp⟩
  | failed t => exact ⟨.failed t, c.wg, rfl, by simp, by simp, by simp⟩

/-! `LongPoll` itself changes nothing of the shared state but the number of the next command. -/

theorem ready_tag (env : Env) (sh : Shared) :
    ∃ seq, (ready env sh).1 = { sh with tag := { sh.tag with seq := seq } } := by
  unfold ready
  split
  · exact ⟨_, rfl⟩
  · exact ⟨sh.tag.seq, rfl⟩

theorem doImapAuth_tag (env : Env) (sh : Shared) :
    ∃ seq, (doImapAuth env sh).1 = { sh with tag := { sh.tag with seq := seq } } := by
  unfold doImapAuth
  split
  · exact ⟨sh.tag.seq, rfl⟩
  · exact ⟨_, rfl⟩

theorem authenticated_tag (env : Env) (sh : Shared) (responses : List GoString) :
    ∃ seq, (authenticated env sh responses).1 = { sh with tag := { sh.tag with seq := seq } } := by
  simp only [authenticated]
  split
  · exact ⟨sh.tag.seq, rfl⟩
  · split
    · exact ready_tag env sh
    · exact ⟨sh.tag.seq, rfl⟩

theorem pollOut_tag (env : Env) (sh : Shared) (p : Poll) (out : CmdOut) :
    ∃ seq, (pollOut env sh p out).1 = { sh with tag := { sh.tag with seq := seq } } := by
  unfold pollOut
  split
  any_goals exact ⟨sh.tag.seq, rfl⟩
  · exact authenticated_tag env sh _
  · split
    · exact ready_tag env sh
    · exact ⟨sh.tag.seq, rfl⟩
  · split
    · exact ready_tag env sh
    · exact ⟨sh.tag.seq, rfl⟩

theorem greet_tag (h : greet env sh phase e = some (sh', p)) :
    ∃ seq, sh' = { sh with tag := { sh.tag with seq := seq } } := by
  unfold greet at h
  split at h
  · cases h
    exact ⟨_, rfl⟩
  · split at h
    · cases h
      exact ⟨_, rfl⟩
    · cases h
      exact ⟨_, rfl⟩
    · split at h
      · have hauth := doImapAuth_tag env sh
        rw [Option.some.inj h] at hauth
        exact hauth
      · cases h
        exact ⟨_, rfl⟩
  · cases h

/-- `LongPoll` runs a command, or reads the greeting. -/
def Poll.talks : Poll → Bool
  | .greeting _ | .auth _ | .authAgain _ _ | .examine _ => true
  | _ => false

theorem pollIo_talks (h : pollIo env sh g p e = some (sh', p')) : p.talks := by
  cases p <;> first | rfl | cases h

/-! ## The client as a `MailClient` -/

/-- The value with which instance `g` is blocked in its send on `errCh`. -/
def offer (c : Client) (g : Nat) : Option PollResult :=
  match c.polls g with
  | .sending v => some v
  | _ => none

/-- The send on `errCh` completes. -/
def taken (c : Client) (g : Nat) : Client :=
  { c.setPoll g .stopping with
    results := Function.update c.results g (c.results g ++ (offer c g).toList) }

/-- The request goroutine is blocked in a send on one of its channels. -/
def atSend (c : Client) (r : Nat) : Bool :=
  match c.requests r with
  | .sendErr _ | .sendResp => true
  | _ => false

/-- The `LongPoll` of the request goroutine is in the select on its channels. -/
def awaited (c : Client) (r : Nat) : Bool :=
  match c.polls (c.owner r) with
  | .select r' _ => r' = r
  | _ => false

def concerns (c : Client) : Label → Option Nat
  | .start _ | .next _ | .dial _ _ | .io _ _ | .cancel _ => none
  | .spawn _ => some c.nrequests
  | .timer g | .recv g | .stopPoll g | .stopAll g =>
    match c.polls g with
    | .select r _ => some r
    | _ => none
  | .count r | .begin r | .requestIo r _ | .test r => some r

theorem sending_of_offer {c : Client} (h : offer c g = some v) : c.polls g = .sending v := by
  unfold offer at h
  split at h <;> cases h
  assumption

theorem offer_setPoll {c : Client} (hp : ∀ v, p ≠ .sending v)
    (h : offer (c.setPoll g p) g' = some v) : offer c g' = some v := by
  unfold offer at h
  rw [Client.setPoll_polls] at h
  by_cases hg : g' = g
  · subst hg
    rw [Function.update_self] at h
    cases p with
    | sending w => exact absurd rfl (hp w)
    | _ => cases h
  · rw [Function.update_of_ne hg] at h
    exact h

/-- Setting the state of an instance that exists leaves the absent ones absent. -/
theorem absent_setPoll {c : Client} (hg : c.polls g ≠ .absent) (h : c.polls g' = .absent) :
    (c.setPoll g p).polls g' = .absent := by
  have hne : g' ≠ g := fun e => hg (e ▸ h)
  rw [Client.setPoll_polls, Function.update_of_ne hne, h]

theorem absent_step {c c' : Client} (h : step env sig c l = some c')
    (hg : c.polls g' = .absent) : c'.polls g' = .absent := by
  obtain ⟨d, hd, rfl | rfl⟩ := step_cases h
  case inr => exact hg
  cases hd with
  | alreadyIdling hp | started hp | connected hp | setupConn hp | dialled hp | dialErr hp
  | spawned hp | timer hp | ioTimeout hp | requestErr hp | newMail hp | noMail hp | stopPoll hp
  | stopAll hp | cancelled hp => exact absent_setPoll (c := c) (by simp [hp]) hg
  | io hio =>
    have ht := pollIo_talks hio
    refine absent_setPoll (c := c) (fun hp => ?_) hg
    rw [hp] at ht
    cases ht
  | @requestIo r _ _ sh out =>
    obtain ⟨q, wg, heq, -⟩ := requestOut_eq { c with sh := sh } r out
    rw [heq]
    exact hg
  | _ => exact hg

theorem atSend_setRequest {c : Client} (h : atSend (c.setRequest r q) r') : r' = r ∨ atSend c r' := by
  by_cases hr : r' = r
  · exact .inl hr
  · right
    simpa [atSend, Function.update_of_ne hr] using h

/-- An instance that is not in the select on a request may go anywhere. -/
theorem awaited_setPoll {c : Client} (hp : ∀ t, c.polls g ≠ .select r t) (h : awaited c r) :
    awaited (c.setPoll g p) r := by
  have hg : c.owner r ≠ g := by
    rintro rfl
    unfold awaited at h
    split at h
    next r' t hsel =>
      obtain rfl : r' = r := by simpa using h
      exact hp t hsel
    next => cases h
  unfold awaited at h ⊢
  rw [Client.setPoll_polls, Client.setPoll_owner, Function.update_of_ne hg]
  exact h

theorem atSend_step {c c' : Client} (h : step env sig c l = some c') (ha : atSend c' r) :
    atSend c r ∨ concerns c l = some r ∧ (awaited c r → awaited c' r) := by
  obtain ⟨d, hd, rfl | rfl⟩ := step_cases h
  case inr => exact .inl ha
  cases hd with
  | spawned | ioTimeout | requestErr | newMail | noMail | counted | begun | noConn | dropped =>
    rcases atSend_setRequest (c := c) ha with rfl | ha'
    · simp [atSend] at ha
    · exact .inl ha'
  | @requestIo r₀ _ _ sh out =>
    obtain ⟨q, wg, heq, herr, hresp, -⟩ := requestOut_eq { c with sh := sh } r₀ out
    rw [heq] at ha
    rcases atSend_setRequest (c := c) ha with rfl | ha'
    · cases q <;> simp_all [atSend]
    · exact .inl ha'
  | failed | answered =>
    rcases atSend_setRequest (c := c) ha with rfl | ha'
    · exact .inr ⟨rfl, id⟩
    · exact .inl ha'
  | _ => exact .inl ha

theorem awaited_step {c c' : Client} (h : step env sig c l = some c') (hl : concerns c l ≠ some r)
    (ha : awaited c r) : awaited c' r := by
  obtain ⟨d, hd, rfl | rfl⟩ := step_cases h
  case inr => exact ha
  cases hd with
  | alreadyIdling hp | started hp | connected hp | setupConn hp | dialled hp | dialErr hp
  | cancelled hp => exact awaited_setPoll (c := c) (by rw [hp]; simp) ha
  | io hio =>
    have ht := pollIo_talks hio
    refine awaited_setPoll (c := c) (fun t hp => ?_) ha
    rw [hp] at ht
    cases ht
  | @spawned g hp =>
    have hr : r ≠ c.nrequests := fun e => hl (e ▸ rfl)
    have := awaited_setPoll (p := .select c.nrequests (sig.now + milliseconds env.pi.responseTimeout))
      (by rw [hp]; simp) ha
    simpa [awaited, Function.update_of_ne hr] using this
  | timer | ioTimeout | requestErr | newMail | noMail | stopPoll | stopAll =>
    exact awaited_setPoll (c := c) (fun t e => hl (by simp [concerns, e])) ha
  | @requestIo r₀ _ _ sh out =>
    obtain ⟨q, wg, heq, -⟩ := requestOut_eq { c with sh := sh } r₀ out
    rw [heq]
    exact ha
  | _ => exact ha

/-- `IMAPClient` as a `MailClient`. -/
def client (env : Env) : MailClient where
  State := Client
  Label := Label
  fresh := newIMAPClient env
  step := step env
  launch c g := c.setPoll g .launched
  offer := offer
  taken := taken
  wg := Client.wg
  cleanup c := { c with sh := cancel c.sh none, cleaned := true }
  absent c g := c.polls g = .absent
  atSend := atSend
  awaited := awaited
  concerns := concerns
  offer_launch := offer_setPoll (by simp)
  offer_taken {c _ _ _} := offer_setPoll (c := c) (by simp)
  offer_cleanup := id
  offer_absent h := by simp [offer, h]
  absent_fresh := rfl
  absent_step := absent_step
  absent_launch hne h := by rw [Client.setPoll_polls, Function.update_of_ne hne, h]
  absent_taken {c _ _ _} hv h :=
    absent_setPoll (c := c) (fun hg => by simp [offer, hg] at hv) h
  absent_cleanup := id
  atSend_fresh := rfl
  atSend_launch := rfl
  atSend_taken := rfl
  atSend_cleanup := rfl
  awaited_launch hg := awaited_setPoll (by rw [hg]; simp)
  awaited_taken {c _ _ _} hv :=
    awaited_setPoll (c := c) fun t hp => by simp [offer, hp] at hv
  awaited_cleanup := id
  atSend_step := atSend_step
  awaited_step := awaited_step

end Pinger.Imap

import Pinger.Session.Client

/-! # Exchange replies

How `doRequestResponse` turns the outcome of a request into a message to its `LongPoll`, and what
`LongPoll` makes of that message. The body that is passed on is the whole read buffer, so it is
padded with zero bytes up to the size that was asked for. -/

namespace Pinger.Exchange

def maxSyncResponseDataSize : Nat := 10240

def maxResponseSize (pi : MailPingInformation) : Nat :=
  let expected := (pi.expectedReply.map List.length).getD 0
  let size := max expected ((pi.noChangeReply.map List.length).getD 0)
  if size = 0 then maxSyncResponseDataSize else size

/-- Replace the matches of `User=[^&]+`; the flag says that the scan is inside a match. -/
def redact : Bool → GoString → GoString
  | true, c :: cs => if c = '&' then c :: redact false cs else redact true cs
  | false, 'U' :: 's' :: 'e' :: 'r' :: '=' :: c :: cs =>
    if c = '&' then GoString.lit "User=&" ++ redact false cs
    else GoString.lit "User=<redacted>" ++ redact true cs
  | false, c :: cs => c :: redact false cs
  | _, [] => []

def redactEmailFromError (message : GoString) : GoString := redact false message

/-- How the first `Read` of a body ended. -/
inductive ReadErr
  | eof
  | other
  deriving DecidableEq, Repr

/-- A response: its status, what the first `Read` of the body delivers, how that read ended, and
an error of reading on or of closing a body that is passed on unread. -/
structure HttpReply where
  statusCode : Nat
  chunk : GoString
  readErr : Option ReadErr
  bodyErr : Option GoString := none
  deriving DecidableEq, Repr

/-- What `httpClient.Do` returned. -/
inductive DoOutcome
  | failed (msg : GoString)
  | ok (r : HttpReply)
  deriving DecidableEq, Repr

inductive RequestErr
  | noSuchHost
  | unknownCertificateAuthority
  | other (msg : GoString)
  deriving DecidableEq, Repr

/-- What `doRequestResponse` sends on one of its two channels. The body of a response is what
`ioutil.ReadAll` and `Close` give for it. -/
inductive Message
  | err (e : RequestErr)
  | retry
  | response (statusCode : Nat) (body : Except GoString GoString)

/-- The body handling of `doRequestResponse`. -/
def readResponse (pi : MailPingInformation) (r : HttpReply) : Message :=
  let toRead := if r.statusCode ≠ 200 then 1024 else maxResponseSize pi
  let got := r.chunk.take toRead
  match r.readErr with
  | some .other => .retry
  | some .eof =>
    if got = [] then
      if pi.asIsSyncRequest then
        .response r.statusCode (match r.bodyErr with | some e => .error e | none => .ok [])
      else .retry
    else .response r.statusCode (.ok (got ++ List.replicate (toRead - got.length) '\x00'))
  | none => .response r.statusCode (.ok (got ++ List.replicate (toRead - got.length) '\x00'))

/-- The message for the outcome of a request that was not cancelled. -/
def respond (pi : MailPingInformation) : DoOutcome → Message
  | .failed msg =>
    let redactedError := redactEmailFromError msg
    if GoString.contains (GoString.lit "no such host") redactedError then .err .noSuchHost
    else if GoString.contains (GoString.lit "certificate signed by unknown authority")
        redactedError then .err .unknownCertificateAuthority
    else .retry
  | .ok r => readResponse pi r

/-- Twice the sleep time, at most 600 seconds. -/
def exponentialBackoff (sleepTime : Nat) : Nat := min (2 * max sleepTime 1) 600

/-- What `LongPoll` does with a message: end with a result, or go round its loop. -/
inductive Verdict
  | send (v : PollResult)
  | again (sleepTime : Nat)
  deriving DecidableEq, Repr

/-- `LongPoll` logs or reads `pi` when it handles this message. -/
def Message.needsPi : Message → Bool
  | .retry | .response _ (.ok _) => true
  | .err _ | .response _ (.error _) => false

def verdict (pi : MailPingInformation) (tooFast : Bool) (sleepTime : Nat) : Message → Verdict
  | .err .noSuchHost | .err .unknownCertificateAuthority => .send .reRegister
  | .err (.other msg) => .send (.error msg)
  | .retry => .again (exponentialBackoff sleepTime)
  | .response _ (.error e) => .send (.error e)
  | .response statusCode (.ok body) =>
    if statusCode ≠ 200 then
      if statusCode = 401 then .send .reRegister else .again (exponentialBackoff sleepTime)
    else if pi.asIsSyncRequest = false ∧ pi.noChangeReply = some body then
      .again (if tooFast then exponentialBackoff sleepTime else 0)
    else if pi.asIsSyncRequest = false ∧
        (pi.expectedReply = none ∨ pi.expectedReply = some body) then .send .newMail
    else if pi.asIsSyncRequest ∧ body = [] then
      .again (if tooFast then exponentialBackoff sleepTime else 0)
    else if pi.asIsSyncRequest ∧ body ≠ [] then .send .newMail
    else .again (exponentialBackoff sleepTime)

end Pinger.Exchange

import Pinger.Session.Client

/-! # IMAP commands

How `doIMAPCommand` sends a command line by line and reads the responses of the server, and what
the responses change. A run-time panic of the parsers (an index out of range, a nil connection) is
part of the model. A read ends with a line or with an error of the connection; a timeout may be
reported at any time. -/

namespace Pinger.Imap

/-! ## Responses -/

def isContinueResponse (response : GoString) : Bool := response.head? = some '+'

def isOKResponse (response : GoString) : Bool :=
  (GoString.split ' ' response)[1]? = some (GoString.lit "OK")

def getNameFromCommand (command : GoString) : GoString := ((GoString.split ' ' command)[1]?).getD []

def isFinalResponse (command response : GoString) : Bool :=
  (GoString.lit "+ ").isPrefixOf response && getNameFromCommand command ≠ GoString.lit "IDLE" ||
    ((GoString.split ' ' command).headD []).isPrefixOf response

/-- The value of a number token: `uint32` of `strconv.Atoi`. -/
def parseCount (token : GoString) : Option Nat := (GoString.atoi token).map GoString.toUint32

/-- A count with the token it comes with; `(0, "")` when the response has none. `none` is a
panic. -/
def parseEXAMINEResponse (response : GoString) : Option (Nat × GoString) :=
  let tokens := GoString.split ' ' response
  if tokens.head? = some (GoString.lit "*") then do
    let token ← tokens[2]?
    let valueToken ←
      if token = GoString.lit "EXISTS" then tokens[1]?
      else if token = GoString.lit "[UIDNEXT" then do
        let t ← tokens[3]?
        if t = [] then none else some t.dropLast
      else some []
    if valueToken = [] then some (0, [])
    else match parseCount valueToken with
      | some n => some (n, token)
      | none => some (0, [])
  else some (0, [])

def parseIDLEResponse (response : GoString) : Option (Nat × GoString) :=
  let tokens := GoString.split ' ' response
  if tokens.head? = some (GoString.lit "*") then do
    let token ← tokens[2]?
    if token = GoString.lit "EXISTS" ∨ token = GoString.lit "EXPUNGE" then
      match (tokens[1]?).bind parseCount with
      | some n => some (n, token)
      | none => some (0, [])
    else some (0, [])
  else some (0, [])

/-- The rest of the string after a prefix. -/
def after (pre s : GoString) : Option GoString :=
  if pre.isPrefixOf s then some (s.drop pre.length) else none

/-- A match of `MESSAGES ([0-9]+) UIDNEXT ([0-9]+)` at the start of the string. -/
def matchStatus (s : GoString) : Option (GoString × GoString) := do
  let s ← after (GoString.lit "MESSAGES ") s
  let messages := s.takeWhile GoString.isDigit
  let s ← after (GoString.lit " UIDNEXT ") (s.dropWhile GoString.isDigit)
  let uidNext := s.takeWhile GoString.isDigit
  if messages = [] ∨ uidNext = [] then none else some (messages, uidNext)

/-- The last match, which is the one a leading `.*` finds. -/
def findStatus : GoString → Option (GoString × GoString)
  | [] => none
  | c :: cs => (findStatus cs).or (matchStatus (c :: cs))

def parseSTATUSResponse (response : GoString) : Nat × Nat :=
  match findStatus response with
  | none => (0, 0)
  | some (messages, uidNext) => ((parseCount messages).getD 0, (parseCount uidNext).getD 0)

/-! ## The shared state of the client -/

/-- `cmdTag`. -/
structure CmdTag where
  id : GoString
  seq : Nat := 0
  deriving DecidableEq, Repr

/-- What the goroutines of an `IMAPClient` share. `tlsConn` says that it is not nil, and `log` are
the command lines written, each with the `LongPoll` instance on whose behalf it was. -/
structure Shared where
  cancelled : Bool := false
  tlsConn : Bool := false
  isIdling : Bool := false
  hasNewEmail : Bool := false
  existsCount : Nat
  uidNext : Nat
  tag : CmdTag
  log : List (Option Nat × GoString) := []

/-- `tag.Next()`. -/
def Shared.nextTag (sh : Shared) : GoString × Shared :=
  let seq := sh.tag.seq + 1
  (sh.tag.id ++ GoString.formatUint seq, { sh with tag := { sh.tag with seq := seq } })

/-- `sendIMAPCommand` up to the write; `false` is a panic on a nil connection. -/
def sendIMAPCommand (sh : Shared) (g : Option Nat) (command : GoString) : Shared × Bool :=
  let sh := if getNameFromCommand command = GoString.lit "IDLE" then { sh with isIdling := true }
    else sh
  if command = [] then (sh, true)
  else if sh.tlsConn then ({ sh with log := sh.log ++ [(g, command)] }, true)
  else (sh, false)

/-- `sendIMAPCommand(IMAP_DONE)`, whose error is only logged. -/
def sendDone (sh : Shared) (g : Option Nat) : Shared × Bool := sendIMAPCommand sh g (GoString.lit "DONE")

/-- `cancelIDLE()`. -/
def cancelIDLE (sh : Shared) (g : Option Nat) : Shared × Bool :=
  if sh.isIdling then sendDone sh g else (sh, true)

/-- `cancel()`. -/
def cancel (sh : Shared) (g : Option Nat) : Shared :=
  let sh := { sh with cancelled := true }
  if sh.tlsConn then { (cancelIDLE sh g).1 with tlsConn := false } else sh

/-- The response to an `IDLE`; `none` is a panic of its parser. -/
def processIDLE (sh : Shared) (g : Option Nat) : Option (Nat × GoString) → Shared × Bool
  | none => (sh, false)
  | some (count, token) =>
    if token = GoString.lit "EXPUNGE" then
      ({ sh with existsCount := (sh.existsCount + (2 ^ 32 - 1)) % 2 ^ 32 }, true)
    else if token = GoString.lit "EXISTS" ∧ count ≠ sh.existsCount then
      sendDone { sh with hasNewEmail := true, existsCount := count } g
    else (sh, true)

def processEXAMINE (sh : Shared) : Option (Nat × GoString) → Shared × Bool
  | none => (sh, false)
  | some (count, token) =>
    if token = GoString.lit "EXISTS" then ({ sh with existsCount := count }, true)
    else if token = GoString.lit "[UIDNEXT" then ({ sh with uidNext := count }, true)
    else (sh, true)

def processSTATUS (sh : Shared) (uidNext : Nat) : Shared :=
  if uidNext = 0 then sh
  else if sh.uidNext = 0 then { sh with uidNext := uidNext }
  else if uidNext ≠ sh.uidNext then { sh with hasNewEmail := true, uidNext := uidNext }
  else sh

/-- `processResponse`; `false` is a panic. -/
def processResponse (sh : Shared) (g : Option Nat) (command response : GoString) : Shared × Bool :=
  if getNameFromCommand command = GoString.lit "IDLE" then
    processIDLE sh g (parseIDLEResponse response)
  else if getNameFromCommand command = GoString.lit "EXAMINE" then
    processEXAMINE sh (parseEXAMINEResponse response)
  else if getNameFromCommand command = GoString.lit "STATUS" then
    (processSTATUS sh (parseSTATUSResponse response).2, true)
  else (sh, true)

/-! ## Running a command -/

/-- How a call of `scanner.Scan()` ended. -/
inductive ReadOutcome
  | line (response : GoString)
  | eof
  | timeout
  | temporary
  | other
  deriving DecidableEq, Repr

/-- The next operation on the connection: writing the line, testing `cancelled`, setting the read
deadline, or reading for the `tries`-th time. -/
inductive Phase
  | send
  | check
  | arm
  | read (tries : Nat)
  deriving DecidableEq, Repr

inductive IoEvent
  | write (ok : Bool)
  | check
  | arm
  | read (o : ReadOutcome)
  deriving DecidableEq, Repr

/-- A call of `doIMAPCommand`: the lines that are still to be sent, the current one first, and the
responses so far. -/
structure Cmd where
  command : GoString
  lines : List GoString
  responses : List GoString := []
  phase : Phase := .send
  deriving DecidableEq, Repr

def doIMAPCommand (command : GoString) : Cmd := { command, lines := GoString.split '\n' command }

/-- The state of the call after one operation. -/
inductive CmdOut
  | going (cmd : Cmd)
  | ok (responses : List GoString)
  | failed (timeout : Bool)
  | panicked
  deriving DecidableEq, Repr

/-- `getServerResponse` after a read: a line, another try, or an error. -/
inductive ReadResult
  | line (response : GoString)
  | again
  | failed (timeout : Bool)
  deriving DecidableEq, Repr

def getServerResponse (tries : Nat) : ReadOutcome → ReadResult
  | .line response => .line response
  | .timeout => .failed true
  | .temporary => if tries < 3 then .again else .failed false
  | .eof | .other => .failed false

/-- A response has been read and processed. -/
def Cmd.respond (cmd : Cmd) (sh : Shared) (response : GoString) : Shared × CmdOut :=
  let responses := cmd.responses ++ [response]
  if isFinalResponse cmd.command response then
    let sh := if getNameFromCommand cmd.command = GoString.lit "IDLE" then
        { sh with isIdling := false } else sh
    if isOKResponse response ∨ isContinueResponse response then
      match cmd.lines.tail with
      | [] => (sh, .ok responses)
      | lines => (sh, .going { cmd with lines, responses, phase := .send })
    else (sh, .failed false)
  else (sh, .going { cmd with responses, phase := .arm })

/-- One operation of `doIMAPCommand`. An `IDLE` sets no deadline. -/
def Cmd.step (cmd : Cmd) (sh : Shared) (g : Option Nat) (e : IoEvent) : Option (Shared × CmdOut) :=
  match cmd.phase, e with
  | .send, .write ok =>
    let line := cmd.lines.headD []
    match sendIMAPCommand sh g line with
    | (sh, false) => some (sh, .panicked)
    | (sh, true) =>
      if ok ∨ line = [] then some (sh, .going { cmd with phase := .check })
      else some (sh, .failed false)
  | .check, .check =>
    if sh.cancelled then some (sh, .failed false)
    else some (sh, .going { cmd with phase := .arm })
  | .arm, .arm =>
    if getNameFromCommand cmd.command ≠ GoString.lit "IDLE" ∧ sh.tlsConn = false then
      some (sh, .panicked)
    else some (sh, .going { cmd with phase := .read 0 })
  | .read tries, .read o =>
    match getServerResponse tries o with
    | .failed timeout => some (sh, .failed timeout)
    | .again => some (sh, .going { cmd with phase := .read (tries + 1) })
    | .line response =>
      match processResponse sh g cmd.command response with
      | (sh, false) => some (sh, .panicked)
      | (sh, true) => some (cmd.respond sh response)
  | _, _ => none

/-! ## What one operation can do -/

/-- The final response of the command has been read. -/
def Cmd.ended (cmd : Cmd) (sh : Shared) : Shared :=
  if getNameFromCommand cmd.command = GoString.lit "IDLE" then { sh with isIdling := false } else sh

/-- What a response can do to a command. -/
inductive Cmd.Responded (cmd : Cmd) (sh : Shared) (response : GoString) : Shared → CmdOut → Prop
  | more (hf : isFinalResponse cmd.command response = false) : Responded cmd sh response sh
      (.going { cmd with responses := cmd.responses ++ [response], phase := .arm })
  | completed (hf : isFinalResponse cmd.command response)
      (hok : isOKResponse response ∨ isContinueResponse response) (ht : cmd.lines.tail = []) :
      Responded cmd sh response (cmd.ended sh) (.ok (cmd.responses ++ [response]))
  | nextLine (hf : isFinalResponse cmd.command response)
      (hok : isOKResponse response ∨ isContinueResponse response) (ht : cmd.lines.tail ≠ []) :
      Responded cmd sh response (cmd.ended sh) (.going { cmd with
        lines := cmd.lines.tail, responses := cmd.responses ++ [response], phase := .send })
  | refused (hf : isFinalResponse cmd.command response)
      (hok : ¬(isOKResponse response ∨ isContinueResponse response)) :
      Responded cmd sh response (cmd.ended sh) (.failed false)

theorem Cmd.respond_eq (cmd : Cmd) (sh : Shared) (response : GoString) : cmd.respond sh response =
    if isFinalResponse cmd.command response then
      if isOKResponse response ∨ isContinueResponse response then
        match cmd.lines.tail with
        | [] => (cmd.ended sh, .ok (cmd.responses ++ [response]))
        | lines => (cmd.ended sh,
            .going { cmd with lines, responses := cmd.responses ++ [response], phase := .send })
      else (cmd.ended sh, .failed false)
    else (sh, .going { cmd with responses := cmd.responses ++ [response], phase := .arm }) := rfl

theorem Cmd.respond_cases {cmd : Cmd} (h : cmd.respond sh response = (sh', out)) :
    cmd.Responded sh response sh' out := by
  rw [Cmd.respond_eq] at h
  split at h
  next hf =>
    split at h
    next hok =>
      split at h
      next ht =>
        cases h
        exact .completed hf hok ht
      next lines ht =>
        cases h
        exact .nextLine hf hok ht
    next hok =>
      cases h
      exact .refused hf hok
  next hf =>
    cases h
    exact .more (Bool.eq_false_iff.mpr hf)

/-- What an operation of `doIMAPCommand` can do. -/
inductive Cmd.Stepped (cmd : Cmd) (sh : Shared) (o : Option Nat) : IoEvent → Shared → CmdOut → Prop
  | sent {ok : Bool} (hp : cmd.phase = .send)
      (h : sendIMAPCommand sh o (cmd.lines.headD []) = (sh', true))
      (hok : ok ∨ cmd.lines.headD [] = []) :
      Stepped cmd sh o (.write ok) sh' (.going { cmd with phase := .check })
  | writeErr {ok : Bool} (hp : cmd.phase = .send)
      (h : sendIMAPCommand sh o (cmd.lines.headD []) = (sh', true))
      (hok : ¬(ok ∨ cmd.lines.headD [] = [])) :
      Stepped cmd sh o (.write ok) sh' (.failed false)
  | sendPanic (hp : cmd.phase = .send)
      (h : sendIMAPCommand sh o (cmd.lines.headD []) = (sh', false)) :
      Stepped cmd sh o (.write ok) sh' .panicked
  | checked (hp : cmd.phase = .check) (hc : sh.cancelled = false) :
      Stepped cmd sh o .check sh (.going { cmd with phase := .arm })
  | cancelled (hp : cmd.phase = .check) (hc : sh.cancelled) :
      Stepped cmd sh o .check sh (.failed false)
  | armed (hp : cmd.phase = .arm)
      (hn : getNameFromCommand cmd.command = GoString.lit "IDLE" ∨ sh.tlsConn) :
      Stepped cmd sh o .arm sh (.going { cmd with phase := .read 0 })
  | armPanic (hp : cmd.phase = .arm)
      (hn : getNameFromCommand cmd.command ≠ GoString.lit "IDLE" ∧ sh.tlsConn = false) :
      Stepped cmd sh o .arm sh .panicked
  | readErr (hp : cmd.phase = .read tries) (h : getServerResponse tries r = .failed timeout) :
      Stepped cmd sh o (.read r) sh (.failed timeout)
  | again (hp : cmd.phase = .read tries) (h : getServerResponse tries r = .again) :
      Stepped cmd sh o (.read r) sh (.going { cmd with phase := .read (tries + 1) })
  | line (hp : cmd.phase = .read tries)
      (h : processResponse sh o cmd.command response = (sh₁, true))
      (hr : cmd.Responded sh₁ response sh' out) :
      Stepped cmd sh o (.read (.line response)) sh' out
  | linePanic (hp : cmd.phase = .read tries)
      (h : processResponse sh o cmd.command response = (sh', false)) :
      Stepped cmd sh o (.read (.line response)) sh' .panicked

theorem line_of_getServerResponse (h : getServerResponse tries o = .line response) :
    o = .line response := by
  cases o with
  | line => cases h; rfl
  | temporary =>
    simp only [getServerResponse] at h
    split at h <;> cases h
  | _ => cases h

theorem Cmd.step_cases {cmd : Cmd} (h : cmd.step sh o e = some (sh', out)) :
    cmd.Stepped sh o e sh' out := by
  unfold Cmd.step at h
  split at h
  next hp =>
    simp only at h
    split at h
    next hsend =>
      cases h
      exact .sendPanic hp hsend
    next hsend =>
      split at h
      next hok =>
        cases h
        exact .sent hp hsend hok
      next hok =>
        cases h
        exact .writeErr hp hsend hok
  next hp =>
    split at h
    next hc =>
      cases h
      exact .cancelled hp hc
    next hc =>
      cases h
      exact .checked hp (Bool.eq_false_iff.mpr hc)
  next hp =>
    split at h
    next hn =>
      cases h
      exact .armPanic hp hn
    next hn =>
      cases h
      refine .armed hp ?_
      by_cases hi : getNameFromCommand cmd.command = GoString.lit "IDLE"
      · exact .inl hi
      · exact .inr (by simpa [hi] using hn)
  next hp =>
    split at h
    next hread =>
      cases h
      exact .readErr hp hread
    next hread =>
      cases h
      exact .again hp hread
    next hread =>
      obtain rfl := line_of_getServerResponse hread
      split at h
      next hproc =>
        cases h
        exact .linePanic hp hproc
      next hproc => exact .line hp hproc (Cmd.respond_cases (Option.some.inj h))
  next => cases h

end Pinger.Imap

import Pinger.Imap.Independence
import Pinger.Lib.Serial

/-! # One command at a time

The commands of a `LongPoll` and of its request goroutines go over one connection and are answered
on it. A command waits from the writing of its tagged line until its own goroutine has read the line
that `isFinalResponse` takes for its completion. When the request timer fires the poll goes on to
its next command, although the goroutine of the last one may still be reading; and a poll that is
entered while goroutines of an earlier one are left shares the connection with them. When neither
happens the commands are serialised. -/

namespace Pinger.Imap

open Transition Serial

/-! ## What goes over the connection -/

/-- A goroutine that talks to the server. -/
inductive Reader
  | poll (g : Nat)
  | request (r : Nat)
  deriving DecidableEq, Repr

/-- The response ends the command: it is final, and not a request for the next line. -/
def Cmd.completes (cmd : Cmd) (response : GoString) : Bool :=
  isFinalResponse cmd.command response &&
    (!(isOKResponse response || isContinueResponse response) || cmd.lines.tail.isEmpty)

/-- What an operation of a tagged command does to the connection. The tag is on its first line. -/
def Cmd.events (cmd : Cmd) (w : Reader) (sh : Shared) (e : IoEvent) : List (Event Reader) :=
  match cmd.phase, e with
  | .send, .write _ =>
    if cmd.responses = [] ∧ cmd.lines.headD [] ≠ [] ∧ sh.tlsConn then [.wrote w] else []
  | .read _, .read (.line response) =>
    if cmd.completes response then [.heard w, .completed w] else [.heard w]
  | _, _ => []

/-- A line that is read, whatever it answers. -/
def lineEvents (phase : Phase) (w : Reader) (e : IoEvent) : List (Event Reader) :=
  match phase, e with
  | .read _, .read (.line _) => [.heard w]
  | _, _ => []

/-- What a step does to the connection. The greeting answers no command, and the empty answer to a
continuation request has no tag. -/
def Client.events (c : Client) : Label → List (Event Reader)
  | .dial _ true => [.opened]
  | .io g e =>
    match c.polls g with
    | .greeting phase => lineEvents phase (.poll g) e
    | .auth cmd | .examine cmd => cmd.events (.poll g) c.sh e
    | .authAgain _ cmd => lineEvents cmd.phase (.poll g) e
    | _ => []
  | .requestIo r e =>
    match c.requests r with
    | .running cmd => cmd.events (.request r) c.sh e
    | _ => []
  | _ => []

def Caller.events (s : Caller (client env).State) :
    CallerAct (client env).Label → List (Event Reader)
  | .poll l => Client.events s.mc l
  | _ => []

/-! ## The condition -/

/-- The goroutine may still write or read. -/
def Request.live : Request → Bool
  | .spawned _ | .counted _ | .running _ => true
  | _ => false

/-- The completion line has been read. -/
def Request.answered : Request → Bool
  | .done | .sendResp => true
  | _ => false

/-- The request the instance waits for, if it does, has its completion line. -/
def Client.answered (c : Client) (g : Nat) : Bool :=
  match c.polls g with
  | .select r _ => (c.requests r).answered
  | _ => true

/-- The request timer fires only when the current request has its completion line, and a poll is
entered only when no other poll is active and no request goroutine is at work. -/
def Orderly (s : Caller (client env).State) : CallerAct (client env).Label → Prop
  | .poll (.timer g) => Client.answered s.mc g
  | .poll (.start _) =>
    (Client.sh s.mc).isIdling = false →
      (∀ g < s.launched, (Client.polls s.mc g).active = false) ∧
        ∀ r < Client.nrequests s.mc, (Client.requests s.mc r).live = false
  | _ => True

instance (s : Caller (client env).State) :
    (a : CallerAct (client env).Label) → Decidable (Orderly s a)
  | .poll (.timer g) => inferInstanceAs (Decidable (Client.answered s.mc g = true))
  | .poll (.start _) => inferInstanceAs (Decidable ((Client.sh s.mc).isIdling = false →
      (∀ g < s.launched, (Client.polls s.mc g).active = false) ∧
        ∀ r < Client.nrequests s.mc, (Client.requests s.mc r).live = false))
  | .poll (.next _) | .poll (.dial _ _) | .poll (.io _ _) | .poll (.spawn _) | .poll (.recv _)
  | .poll (.stopPoll _) | .poll (.stopAll _) | .poll (.cancel _) | .poll (.count _)
  | .poll (.begin _) | .poll (.requestIo _ _) | .poll (.test _)
  | .launch | .take _ | .closePoll _ | .closeAll | .advance _ => .isTrue trivial

/-! ## One command -/

variable {sig : Signals} {c c' : Client} {W W' : List Reader} {w : Reader}

/-- The tagged line of the command has not been written. -/
def Cmd.unsent (cmd : Cmd) : Bool := cmd.phase = .send && cmd.responses.isEmpty

/-- No command but this one waits, and none before its tagged line is written. -/
def CmdOk (w : Reader) (W : List Reader) (cmd : Cmd) : Prop :=
  (cmd.unsent → W = []) ∧ (W = [] ∨ W = [w])

theorem cmdOk_doIMAPCommand (command : GoString) : CmdOk w [] (doIMAPCommand command) :=
  ⟨fun _ => rfl, .inl rfl⟩

theorem legal_heard (h : W = [] ∨ W = [w]) : (Event.heard w).Legal W := by
  rintro w' hmem
  rcases h with rfl | rfl
  · cases hmem
  · simpa using hmem

theorem erase_own (h : W = [] ∨ W = [w]) : W.erase w = [] := by
  rcases h with rfl | rfl <;> simp

/-- Own commands may wait after events that are in order. -/
structure Kept (w : Reader) (W : List Reader) (es : List (Event Reader)) : Prop where
  legal : LegalFrom W es
  own : es.foldl Event.after W = [] ∨ es.foldl Event.after W = [w]

theorem kept_nil (h : W = [] ∨ W = [w]) : Kept w W [] := ⟨trivial, h⟩

theorem kept_heard (h : W = [] ∨ W = [w]) : Kept w W [.heard w] := ⟨⟨legal_heard h, trivial⟩, h⟩

/-- An operation of a command keeps the others from waiting. -/
theorem CmdOk.kept {cmd : Cmd} (h : CmdOk w W cmd) (sh : Shared) (e : IoEvent) :
    Kept w W (cmd.events w sh e) := by
  obtain ⟨command, lines, responses, phase⟩ := cmd
  obtain ⟨hunsent, hown⟩ := h
  simp only [Cmd.events]
  split
  next =>
    split
    next hw =>
      obtain ⟨rfl, -⟩ := hw
      obtain rfl : W = [] := hunsent rfl
      exact ⟨⟨rfl, trivial⟩, .inr rfl⟩
    next => exact kept_nil hown
  next =>
    split
    next => exact ⟨⟨legal_heard hown, trivial, trivial⟩, .inl (erase_own hown)⟩
    next => exact kept_heard hown
  next => exact kept_nil hown

/-- A command that goes on after an operation has its tagged line written. -/
theorem Cmd.sent_of_step {cmd cmd' : Cmd} (h : cmd.step sh o e = some (sh', .going cmd')) :
    cmd'.unsent = false := by
  cases Cmd.step_cases h with
  | sent | checked | armed | again => rfl
  | line _ _ hr =>
    cases hr with
    | more => rfl
    | nextLine => simp [Cmd.unsent]

/-- A command that ends well has read its completion. -/
theorem Cmd.completed_of_step {cmd : Cmd} (h : cmd.step sh o e = some (sh', .ok rs))
    (hown : W = [] ∨ W = [w]) : (cmd.events w sh e).foldl Event.after W = [] := by
  cases Cmd.step_cases h with
  | @line _ response _ _ _ hp _ hr =>
    cases hr with
    | completed hf _ ht =>
      have hcomp : cmd.completes response := by simp [Cmd.completes, hf, ht]
      simp only [Cmd.events, hp, hcomp, if_true]
      exact erase_own hown

/-! ## One operation of a poll -/

/-- What waits while an instance is where it is. In the loop there may be no connection yet. -/
def PollOk (W : List Reader) (conn : Bool) (requests : Nat → Request) (g : Nat) : Poll → Prop
  | .loop _ => conn → W = []
  | .greeting _ | .authAgain _ _ | .request => W = []
  | .auth cmd | .examine cmd => CmdOk (.poll g) W cmd
  | .select r _ => (requests r).answered → W = []
  | _ => True

theorem pollOk_ready (env : Env) (sh : Shared) : PollOk [] conn requests g (ready env sh).2 := by
  unfold ready
  split
  · exact cmdOk_doIMAPCommand _
  · rfl

theorem pollOk_doImapAuth (env : Env) (sh : Shared) :
    PollOk [] conn requests g (doImapAuth env sh).2 := by
  unfold doImapAuth
  split
  · trivial
  · exact cmdOk_doIMAPCommand _

theorem pollOk_authenticated (env : Env) (sh : Shared) (responses : List GoString) :
    PollOk [] conn requests g (authenticated env sh responses).2 := by
  simp only [authenticated]
  split
  · rfl
  · split
    · exact pollOk_ready env sh
    · trivial

/-- The outcome of an operation of a tagged command, for the poll that runs it. -/
theorem pollOk_pollOut (hp : p = .auth cmd ∨ p = .examine cmd)
    (hgoing : ∀ cmd', out = .going cmd' → CmdOk (.poll g) W cmd')
    (hok : ∀ rs, out = .ok rs → W = []) : PollOk W conn requests g (pollOut env sh p out).2 := by
  cases out with
  | going cmd' =>
    rcases hp with rfl | rfl
    · exact hgoing cmd' rfl
    · exact hgoing cmd' rfl
  | ok rs =>
    obtain rfl := hok rs rfl
    rcases hp with rfl | rfl
    · exact pollOk_authenticated env sh rs
    · rfl
  | failed => rcases hp with rfl | rfl <;> trivial
  | panicked => rcases hp with rfl | rfl <;> trivial

theorem pollOk_pollOut_authAgain :
    PollOk [] conn requests g (pollOut env sh (.authAgain isOK cmd) out).2 := by
  cases out with
  | going => rfl
  | ok | failed =>
    simp only [pollOut]
    split
    · exact pollOk_ready env sh
    · trivial
  | panicked => trivial

theorem pollOk_greet (h : greet env sh phase e = some (sh', p)) : PollOk [] conn requests g p := by
  unfold greet at h
  split at h
  next =>
    cases h
    split
    · rfl
    · trivial
  next =>
    split at h
    next => cases h; trivial
    next => cases h; rfl
    next =>
      split at h
      next =>
        have hauth : PollOk [] conn requests g (doImapAuth env sh).2 := pollOk_doImapAuth env sh
        rw [Option.some.inj h] at hauth
        exact hauth
      next => cases h; trivial
  next => cases h

theorem kept_lineEvents (phase : Phase) (e : IoEvent) :
    Kept w [] (lineEvents phase w e) ∧ (lineEvents phase w e).foldl Event.after [] = [] := by
  unfold lineEvents
  split
  · exact ⟨kept_heard (.inl rfl), rfl⟩
  · exact ⟨kept_nil (.inl rfl), rfl⟩

/-- One operation of the tagged command of a poll. -/
theorem cmd_serial {cmd : Cmd} (hp : p = .auth cmd ∨ p = .examine cmd)
    (h : cmd.step sh o e = some (sh', out)) (hcmd : CmdOk (.poll g) W cmd) :
    LegalFrom W (cmd.events (.poll g) sh e) ∧
      PollOk ((cmd.events (.poll g) sh e).foldl Event.after W) conn requests g
        (pollOut env sh' p out).2 := by
  have hkept := hcmd.kept sh e
  refine ⟨hkept.legal, pollOk_pollOut hp ?_ ?_⟩
  · rintro cmd' rfl
    exact ⟨fun hu => absurd hu (by simp [Cmd.sent_of_step h]), hkept.own⟩
  · rintro rs rfl
    exact Cmd.completed_of_step h hcmd.2

/-- One operation of a poll on the connection is in order, and so is what it leaves. -/
theorem pollIo_serial (conn' : Bool) (h : pollIo env c.sh g (c.polls g) e = some (sh', p))
    (hp : PollOk W conn requests g (c.polls g)) :
    LegalFrom W (c.events (.io g e)) ∧
      PollOk ((c.events (.io g e)).foldl Event.after W) conn' requests g p := by
  simp only [Client.events]
  cases hpoll : c.polls g with
  | greeting phase =>
    rw [hpoll] at h hp
    obtain rfl : W = [] := hp
    obtain ⟨hkept, hnil⟩ := kept_lineEvents (w := .poll g) phase e
    refine ⟨hkept.legal, ?_⟩
    dsimp only
    rw [hnil]
    exact pollOk_greet h
  | auth cmd | examine cmd =>
    rw [hpoll] at h hp
    obtain ⟨⟨sh₁, out⟩, hstep, heq⟩ := Option.map_eq_some_iff.mp h
    obtain rfl : _ = p := congrArg Prod.snd heq
    exact cmd_serial (by simp) hstep hp
  | authAgain isOK cmd =>
    rw [hpoll] at h hp
    obtain ⟨⟨sh₁, out⟩, hstep, heq⟩ := Option.map_eq_some_iff.mp h
    obtain rfl : _ = p := congrArg Prod.snd heq
    obtain rfl : W = [] := hp
    obtain ⟨hkept, hnil⟩ := kept_lineEvents (w := .poll g) cmd.phase e
    refine ⟨hkept.legal, ?_⟩
    dsimp only
    rw [hnil]
    exact pollOk_pollOut_authAgain
  | _ =>
    rw [hpoll] at h
    cases h

/-! ## Who may write -/

/-- The instance may still write a command, or wait for a request that will. -/
def Poll.writes : Poll → Bool
  | .absent | .launched | .sending _ | .stopping | .returned => false
  | _ => true

theorem Poll.active_of_writes {p : Poll} (h : p.writes) : p.active := by
  cases p <;> first | rfl | cases h

theorem pollOk_of_writes (h : p.writes → PollOk W conn requests g p) :
    PollOk W conn requests g p := by
  cases p <;> first | exact h rfl | trivial

/-- Only an instance in its select looks at a request. -/
theorem PollOk.of_answered (h : PollOk W conn requests g p)
    (hans : ∀ r t, p = .select r t → (requests' r).answered → (requests r).answered ∨ W = []) :
    PollOk W conn requests' g p := by
  cases p with
  | select r t => exact fun ha => (hans r t rfl ha).elim h id
  | _ => exact h

theorem Request.live_of_answered {q : Request} (h : q.answered) : q.live = false := by
  cases q <;> first | rfl | cases h

/-- What waits while a request goroutine is where it is. -/
def RequestOk (W : List Reader) (r : Nat) : Request → Prop
  | .spawned _ | .counted _ => W = []
  | .running cmd => CmdOk (.request r) W cmd
  | _ => True

theorem requestOk_of_live {q : Request} (h : q.live → RequestOk W r q) : RequestOk W r q := by
  cases q <;> first | exact h rfl | trivial

theorem RequestOk.of_not_live {q : Request} (h : q.live = false) : RequestOk W r q :=
  requestOk_of_live fun hl => by rw [h] at hl; cases hl

/-- One instance is active and one request at work, which the instance waits for if it is to write
again. -/
structure Ordered (W : List Reader) (c : Client) : Prop where
  fresh : ∀ r, c.nrequests ≤ r → c.requests r = .absent
  onePoll : ∀ g g', (c.polls g).active → (c.polls g').active → g' = g
  oneRequest : ∀ r r', (c.requests r).live → (c.requests r').live → r' = r
  awaited : ∀ r g, (c.requests r).live → (c.polls g).writes → ∃ t, c.polls g = .select r t
  poll : ∀ g, PollOk W c.sh.tlsConn c.requests g (c.polls g)
  request : ∀ r, RequestOk W r (c.requests r)

namespace Ordered

/-- While an instance writes itself no request is at work. -/
theorem no_live (h : Ordered W c) (hw : (c.polls g).writes) (hsel : ∀ r t, c.polls g ≠ .select r t)
    (r : Nat) : (c.requests r).live = false := by
  cases hl : (c.requests r).live with
  | false => rfl
  | true =>
    obtain ⟨t, ht⟩ := h.awaited r g hl hw
    exact absurd ht (hsel r t)

/-- Nor when the request it waits for is through. -/
theorem no_live_select (h : Ordered W c) (hp : c.polls g = .select r t)
    (hr : (c.requests r).live = false) (r' : Nat) : (c.requests r').live = false := by
  cases hl : (c.requests r').live with
  | false => rfl
  | true =>
    obtain ⟨t', ht'⟩ := h.awaited r' g hl (hp ▸ rfl)
    cases hp.symm.trans ht'
    exact hl.symm.trans hr

/-- An instance moves. Either it was the active one, or there was none. -/
theorem movePoll (h : Ordered W c) (hone : ∀ g', (c.polls g').active → g' = g)
    (hpolls : c'.polls = Function.update c.polls g p) (hrequests : c'.requests = c.requests)
    (hn : c'.nrequests = c.nrequests)
    (hlive : ∀ r, (c.requests r).live → p.writes → ∃ t, p = .select r t)
    (hp : PollOk W' c'.sh.tlsConn c.requests g p) (hr : ∀ r, RequestOk W' r (c.requests r)) :
    Ordered W' c' := by
  have hother : ∀ g', g' ≠ g → (c.polls g').active = false := by
    intro g' hne
    cases ha : (c.polls g').active with
    | false => rfl
    | true => exact absurd (hone g' ha) hne
  have hactive : ∀ g', (c'.polls g').active → g' = g := by
    intro g' ha
    by_contra hne
    rw [hpolls, Function.update_of_ne hne, hother g' hne] at ha
    cases ha
  constructor
  · intro r hle
    rw [hrequests]
    exact h.fresh r (hn ▸ hle)
  · intro g₁ g₂ h₁ h₂
    rw [hactive g₁ h₁, hactive g₂ h₂]
  · rw [hrequests]
    exact h.oneRequest
  · intro r g' hl hw
    obtain rfl := hactive g' (Poll.active_of_writes hw)
    rw [hrequests] at hl
    rw [hpolls, Function.update_self] at hw ⊢
    exact hlive r hl hw
  · intro g'
    apply pollOk_of_writes
    intro hw
    obtain rfl := hactive g' (Poll.active_of_writes hw)
    rw [hpolls, hrequests, Function.update_self]
    exact hp
  · rw [hrequests]
    exact hr

/-- A request goroutine moves. It comes to work only by being spawned, and what waits changes only
by the request at work. -/
theorem moveRequest (h : Ordered W c) (hpolls : c'.polls = c.polls)
    (hrequests : c'.requests = Function.update c.requests r q) (hn : c'.nrequests = c.nrequests)
    (hconn : c'.sh.tlsConn = c.sh.tlsConn) (hborn : c.requests r ≠ .absent)
    (hlive : q.live → (c.requests r).live) (hW : W' = W ∨ (c.requests r).live)
    (hans : q.answered → (c.requests r).answered ∨ W' = []) (hq : RequestOk W' r q) :
    Ordered W' c' := by
  have hlive' : ∀ r', (c'.requests r').live → (c.requests r').live := by
    intro r' hl
    by_cases hr : r' = r
    · subst hr
      rw [hrequests, Function.update_self] at hl
      exact hlive hl
    · rwa [hrequests, Function.update_of_ne hr] at hl
  constructor
  · intro r' hle
    have habsent := h.fresh r' (hn ▸ hle)
    have hr : r' ≠ r := by
      rintro rfl
      exact hborn habsent
    rw [hrequests, Function.update_of_ne hr]
    exact habsent
  · rw [hpolls]
    exact h.onePoll
  · intro r₁ r₂ h₁ h₂
    exact h.oneRequest r₁ r₂ (hlive' r₁ h₁) (hlive' r₂ h₂)
  · intro r' g hl hw
    rw [hpolls] at hw ⊢
    exact h.awaited r' g (hlive' r' hl) hw
  · intro g
    rw [hpolls, hrequests, hconn]
    apply pollOk_of_writes
    intro hw
    rcases hW with rfl | hl
    · apply (h.poll g).of_answered
      intro r' t _ ha
      by_cases hr : r' = r
      · subst hr
        rw [Function.update_self] at ha
        exact hans ha
      · rw [Function.update_of_ne hr] at ha
        exact .inl ha
    · -- the instance waits for this request
      obtain ⟨t, ht⟩ := h.awaited r g hl hw
      rw [ht]
      intro ha
      rw [Function.update_self] at ha
      rcases hans ha with hold | hnil
      · rw [Request.live_of_answered hold] at hl
        cases hl
      · exact hnil
  · intro r'
    rw [hrequests]
    by_cases hr : r' = r
    · subst hr
      rw [Function.update_self]
      exact hq
    · rw [Function.update_of_ne hr]
      apply requestOk_of_live
      intro hl'
      rcases hW with rfl | hl
      · exact h.request r'
      · exact absurd (h.oneRequest r r' hl hl') hr

/-- An instance moves while no request is at work. -/
theorem moveAlone (h : Ordered W c) (hone : ∀ g', (c.polls g').active → g' = g)
    (hlive : ∀ r, (c.requests r).live = false)
    (hpolls : c'.polls = Function.update c.polls g p) (hrequests : c'.requests = c.requests)
    (hn : c'.nrequests = c.nrequests) (hp : PollOk W' c'.sh.tlsConn c.requests g p) :
    Ordered W' c' := by
  refine h.movePoll hone hpolls hrequests hn ?_ hp fun r => .of_not_live (hlive r)
  intro r hl
  rw [hlive r] at hl
  cases hl

/-- An instance that writes itself moves on. -/
theorem moveWriting (h : Ordered W c) (hw : (c.polls g).writes)
    (hsel : ∀ r t, c.polls g ≠ .select r t) (hpolls : c'.polls = Function.update c.polls g p)
    (hrequests : c'.requests = c.requests) (hn : c'.nrequests = c.nrequests)
    (hp : PollOk W' c'.sh.tlsConn c.requests g p) : Ordered W' c' :=
  h.moveAlone (h.onePoll g · (Poll.active_of_writes hw)) (h.no_live hw hsel) hpolls hrequests hn hp

/-- The active instance comes to where it does not write any more. -/
theorem rest (h : Ordered W c) (ha : (c.polls g).active) (hw : p.writes = false)
    (hpolls : c'.polls = Function.update c.polls g p) (hrequests : c'.requests = c.requests)
    (hn : c'.nrequests = c.nrequests) : Ordered W c' := by
  refine h.movePoll (h.onePoll g · ha) hpolls hrequests hn ?_ ?_ h.request
  · intro r _ hw'
    rw [hw] at hw'
    cases hw'
  · apply pollOk_of_writes
    intro hw'
    rw [hw] at hw'
    cases hw'

/-- The instance that waits for the next request spawns it. -/
theorem spawn (h : Ordered [] c) (hp : c.polls g = .select c.nrequests t)
    (hlive : ∀ r, (c.requests r).live = false) (hpolls : c'.polls = c.polls)
    (hrequests : c'.requests = Function.update c.requests c.nrequests (.spawned command))
    (hn : c'.nrequests = c.nrequests + 1) : Ordered [] c' := by
  have hnew : ∀ r, (c'.requests r).live → r = c.nrequests := by
    intro r hl
    by_contra hne
    rw [hrequests, Function.update_of_ne hne, hlive r] at hl
    cases hl
  constructor
  · intro r hle
    rw [hn] at hle
    have hlt : c.nrequests < r := hle
    rw [hrequests, Function.update_of_ne (Nat.ne_of_gt hlt)]
    exact h.fresh r (Nat.le_of_lt hlt)
  · rw [hpolls]
    exact h.onePoll
  · intro r₁ r₂ h₁ h₂
    rw [hnew r₁ h₁, hnew r₂ h₂]
  · intro r g' hl hw
    rw [hpolls] at hw ⊢
    obtain rfl := h.onePoll g g' (hp ▸ rfl) (Poll.active_of_writes hw)
    exact ⟨t, hnew r hl ▸ hp⟩
  · intro g'
    apply pollOk_of_writes
    intro hw
    rw [hpolls] at hw ⊢
    obtain rfl := h.onePoll g g' (hp ▸ rfl) (Poll.active_of_writes hw)
    rw [hp]
    exact fun _ => rfl
  · intro r
    apply requestOk_of_live
    intro hl
    rw [hnew r hl, hrequests, Function.update_self]
    rfl

/-- A request goroutine returns that is not at work. -/
theorem exitRequest (h : Ordered W c) (hborn : c.requests r ≠ .absent) :
    Ordered W (c.exitRequest r) :=
  h.moveRequest (q := .exited) rfl rfl rfl rfl hborn (fun h => (nomatch h)) (.inl rfl)
    (fun h => (nomatch h)) trivial

/-- An instance that is not active, before and after, changes nothing. -/
theorem inactive (h : Ordered W c) (ha : (c.polls g).active = false) (hp : p.active = false) :
    Ordered W (c.setPoll g p) := by
  have hsame : ∀ g', ((c.setPoll g p).polls g').active → (c.setPoll g p).polls g' = c.polls g' := by
    intro g' hg'
    have hne : g' ≠ g := by
      rintro rfl
      rw [Client.setPoll_polls, Function.update_self, hp] at hg'
      cases hg'
    rw [Client.setPoll_polls, Function.update_of_ne hne]
  constructor
  · exact h.fresh
  · intro g₁ g₂ h₁ h₂
    exact h.onePoll g₁ g₂ (hsame g₁ h₁ ▸ h₁) (hsame g₂ h₂ ▸ h₂)
  · exact h.oneRequest
  · intro r g' hl hw
    have heq := hsame g' (Poll.active_of_writes hw)
    rw [heq] at hw ⊢
    exact h.awaited r g' hl hw
  · intro g'
    apply pollOk_of_writes
    intro hw
    rw [hsame g' (Poll.active_of_writes hw)]
    exact h.poll g'
  · exact h.request

/-- An operation of the command that a request is at. -/
theorem requestIo (ho : Ordered W c) (hr : c.requests r = .running cmd)
    (h : cmd.step c.sh (some (c.owner r)) e = some (sh, out)) :
    LegalFrom W (cmd.events (.request r) c.sh e) ∧
      Ordered ((cmd.events (.request r) c.sh e).foldl Event.after W)
        (requestOut { c with sh := sh } r out) := by
  have hcmd := ho.request r
  rw [hr] at hcmd
  have hkept := CmdOk.kept hcmd c.sh e
  have hconn := (Cmd.step_sameConn h).tlsConn
  have hborn : c.requests r ≠ .absent := by simp [hr]
  have hlive : (c.requests r).live := hr ▸ rfl
  refine ⟨hkept.legal, ?_⟩
  cases out with
  | going cmd' =>
    refine ho.moveRequest (q := .running cmd') rfl rfl rfl hconn hborn (fun _ => hlive)
      (.inr hlive) (fun h => (nomatch h)) ⟨fun hu => ?_, hkept.own⟩
    rw [Cmd.sent_of_step h] at hu
    cases hu
  | ok rs =>
    exact ho.moveRequest (q := .done) rfl rfl rfl hconn hborn (fun h => (nomatch h))
      (.inr hlive) (fun _ => .inr (Cmd.completed_of_step h hcmd.2)) trivial
  | failed t =>
    exact ho.moveRequest (q := .failed t) rfl rfl rfl hconn hborn (fun h => (nomatch h))
      (.inr hlive) (fun h => (nomatch h)) trivial
  | panicked =>
    exact ho.moveRequest (q := .exited) rfl rfl rfl hconn hborn (fun h => (nomatch h))
      (.inr hlive) (fun h => (nomatch h)) trivial

theorem poll_at (h : Ordered W c) (hp : c.polls g = p) :
    PollOk W c.sh.tlsConn c.requests g p := hp ▸ h.poll g

theorem request_at (h : Ordered W c) (hr : c.requests r = q) : RequestOk W r q := hr ▸ h.request r

/-! ### The steps of an instance -/

/-- An instance is entered while no other goroutine of the client runs. -/
theorem started (h : Ordered W c) (hset : Settled c) (hpolls : ∀ g', (c.polls g').active = false)
    (hlive : ∀ r, (c.requests r).live = false) : Ordered W ({ c with
      wg := c.wg + 1
      sh := { c.sh with uidNext := 0 } }.setPoll g (.loop 0)) := by
  have hnone : ∀ g', ¬(c.polls g').active := fun g' => by simp [hpolls g']
  have hconn : c.sh.tlsConn = false := hset.conn.resolve_left fun ⟨g', ha⟩ => hnone g' ha
  refine h.moveAlone (g := g) (p := .loop 0) (fun g' ha => absurd ha (hnone g')) hlive rfl rfl rfl
    fun ht => ?_
  have ht : c.sh.tlsConn = true := ht
  rw [hconn] at ht
  cases ht

/-- An instance is connected already. -/
theorem connected (h : Ordered W c) (hp : c.polls g = .loop n) (hc : c.sh.tlsConn) :
    Ordered W ({ c with sh := (ready env c.sh).1 }.setPoll g (ready env c.sh).2) := by
  obtain rfl : W = [] := h.poll_at hp hc
  have hw : (c.polls g).writes := hp ▸ rfl
  exact h.moveWriting hw (by simp [hp]) rfl rfl rfl (pollOk_ready env c.sh)

/-- An operation of the instance on the connection. -/
theorem talk (h : Ordered W c) (hio : pollIo env c.sh g (c.polls g) e = some (sh, p)) :
    LegalFrom W (c.events (.io g e)) ∧
      Ordered ((c.events (.io g e)).foldl Event.after W) ({ c with sh := sh }.setPoll g p) := by
  have ht := pollIo_talks hio
  have hw : (c.polls g).writes ∧ ∀ r t, c.polls g ≠ .select r t := by
    cases hp : c.polls g <;> simp_all [Poll.talks, Poll.writes]
  obtain ⟨hlegal, hok⟩ := pollIo_serial sh.tlsConn hio (h.poll g)
  exact ⟨hlegal, h.moveWriting hw.1 hw.2 rfl rfl rfl hok⟩

/-- An instance makes its request. -/
theorem spawned (h : Ordered W c) (hp : c.polls g = .request) (t : Int) (command : GoString) :
    Ordered W { c.setPoll g (.select c.nrequests t) with
      sh := c.sh.nextTag.2
      requests := Function.update c.requests c.nrequests (.spawned command)
      owner := Function.update c.owner c.nrequests g
      nrequests := c.nrequests + 1 } := by
  obtain rfl : W = [] := h.poll_at hp
  have hw : (c.polls g).writes := hp ▸ rfl
  have hlive := h.no_live hw (by simp [hp])
  have hselect : Ordered [] (c.setPoll g (.select c.nrequests t)) :=
    h.moveWriting hw (by simp [hp]) rfl rfl rfl fun _ => rfl
  exact hselect.spawn (g := g) (t := t) (Function.update_self ..) hlive rfl rfl rfl

/-- The timer of an answered request expires. -/
theorem expired (h : Ordered W c) (hp : c.polls g = .select r t) (hans : (c.requests r).answered) :
    Ordered W ({ c with sh := (cancelIDLE c.sh (some g)).1 }.setPoll g
      (if (cancelIDLE c.sh (some g)).2 then .loop 1 else .stopping)) := by
  have ha : (c.polls g).active := hp ▸ rfl
  obtain rfl : W = [] := h.poll_at hp hans
  have hlive := h.no_live_select hp (Request.live_of_answered hans)
  refine h.moveAlone (g := g) (h.onePoll g · ha) hlive rfl rfl rfl ?_
  split
  · exact fun _ => rfl
  · trivial

/-- An instance receives that there is no new mail. -/
theorem noMail (h : Ordered W c) (hp : c.polls g = .select r t) (hr : c.requests r = .sendResp) :
    Ordered W ((c.exitRequest r).setPoll g (.loop pollingInterval)) := by
  have ha : (c.polls g).active := hp ▸ rfl
  obtain rfl : W = [] := h.poll_at hp (hr ▸ rfl)
  have hexit := h.exitRequest (r := r) (by simp [hr])
  have hlive := hexit.no_live_select hp (by simp [Request.live])
  exact hexit.moveAlone (g := g) (hexit.onePoll g · ha) hlive rfl rfl rfl fun _ => rfl

/-! ### The steps of a request -/

theorem counted (h : Ordered W c) (hr : c.requests r = .spawned command) :
    Ordered W { c.setRequest r (.counted command) with wg := c.wg + 1 } := by
  have hq : RequestOk W r (.spawned command) := h.request_at hr
  exact h.moveRequest (q := .counted command) rfl rfl rfl rfl (by simp [hr]) (fun _ => hr ▸ rfl)
    (.inl rfl) (fun h => (nomatch h)) hq

theorem begun (h : Ordered W c) (hr : c.requests r = .counted command) :
    Ordered W (c.setRequest r (.running (doIMAPCommand command))) := by
  obtain rfl : W = [] := h.request_at hr
  exact h.moveRequest rfl rfl rfl rfl (by simp [hr]) (fun _ => hr ▸ rfl) (.inl rfl)
    (fun h => (nomatch h)) (cmdOk_doIMAPCommand command)

/-- A request that is not at work any more comes to its send. -/
theorem answers (h : Ordered W c) (hborn : c.requests r ≠ .absent) (hq : q.live = false)
    (hans : q.answered → (c.requests r).answered) (hok : RequestOk W r q)
    (hrequests : c'.requests = Function.update c.requests r q) (hpolls : c'.polls = c.polls)
    (hn : c'.nrequests = c.nrequests) (hconn : c'.sh.tlsConn = c.sh.tlsConn) : Ordered W c' :=
  h.moveRequest hpolls hrequests hn hconn hborn (fun hl => by rw [hq] at hl; cases hl) (.inl rfl)
    (fun ha => .inl (hans ha)) hok

end Ordered

/-- What a step does to the order. -/
theorem Stepped.ordered (h : Stepped env sig c l c') (ho : Ordered W c) (hset : Settled c)
    (hstart : ∀ g, l = .start g → c.sh.isIdling = false →
      (∀ g', (c.polls g').active = false) ∧ ∀ r, (c.requests r).live = false)
    (htimer : ∀ g r t, l = .timer g → c.polls g = .select r t → (c.requests r).answered) :
    LegalFrom W (c.events l) ∧ Ordered ((c.events l).foldl Event.after W) c' := by
  cases h with
  | alreadyIdling hp hi => exact ⟨trivial, ho.inactive (by rw [hp]; rfl) rfl⟩
  | started hp hi =>
    obtain ⟨hpolls, hlive⟩ := hstart _ rfl hi
    exact ⟨trivial, ho.started hset hpolls hlive⟩
  | connected hp hc => exact ⟨trivial, ho.connected hp hc⟩
  | @setupConn g n hp =>
    have hw : (c.polls g).writes := hp ▸ rfl
    exact ⟨trivial, ho.moveWriting hw (by simp [hp]) rfl rfl rfl trivial⟩
  | @dialled g hp =>
    have hw : (c.polls g).writes := hp ▸ rfl
    exact ⟨⟨trivial, trivial⟩,
      ho.moveWriting (p := .greeting .arm) hw (by simp [hp]) rfl rfl rfl rfl⟩
  | io hio => exact ho.talk hio
  | spawned hp => exact ⟨trivial, ho.spawned hp _ _⟩
  | timer hp => exact ⟨trivial, ho.expired hp (htimer _ _ _ rfl hp)⟩
  | ioTimeout hp hr | requestErr hp hr | newMail hp hr =>
    exact ⟨trivial, (ho.exitRequest (by simp [hr])).rest (hp ▸ rfl) rfl rfl rfl rfl⟩
  | noMail hp hr => exact ⟨trivial, ho.noMail hp hr⟩
  | stopPoll hp | stopAll hp | dialErr hp | cancelled hp =>
    exact ⟨trivial, ho.rest (hp ▸ rfl) rfl rfl rfl rfl⟩
  | counted hr => exact ⟨trivial, ho.counted hr⟩
  | begun hr => exact ⟨trivial, ho.begun hr⟩
  | noConn hr => exact ⟨trivial, ho.exitRequest (by simp [hr])⟩
  | requestIo hr hio =>
    simp only [Client.events, hr]
    exact ho.requestIo hr hio
  | dropped hr =>
    refine ⟨trivial, ho.exitRequest ?_⟩
    rcases hr with hr | ⟨t, hr⟩ <;> simp [hr]
  | @failed r t hr =>
    exact ⟨trivial, ho.answers (q := .sendErr t) (by simp [hr]) rfl (fun h => by cases h) trivial
      rfl rfl rfl rfl⟩
  | @answered r hr =>
    exact ⟨trivial, ho.answers (q := .sendResp) (by simp [hr]) rfl (fun _ => hr ▸ rfl) trivial rfl
      rfl rfl rfl⟩

/-! ## Whole runs -/

variable {s s' : Caller (client env).State}

theorem ordered_init : Ordered [] (newIMAPClient env) where
  fresh _ _ := rfl
  onePoll _ _ h := (nomatch h)
  oneRequest _ _ h := (nomatch h)
  awaited _ _ h := (nomatch h)
  poll _ := trivial
  request _ := trivial

/-- The condition, without the bounds that make it decidable. -/
theorem Orderly.start (h : Orderly s (.poll (.start g))) (hsound : Sound s)
    (ho : Ordered W s.mc) (hi : (Client.sh s.mc).isIdling = false) :
    (∀ g', (Client.polls s.mc g').active = false) ∧
      ∀ r, (Client.requests s.mc r).live = false := by
  obtain ⟨hpolls, hrequests⟩ := h hi
  constructor
  · intro g'
    by_cases hg : g' < s.launched
    · exact hpolls g' hg
    · rw [(hsound.unborn g' (Nat.le_of_not_lt hg)).1]
      rfl
  · intro r
    by_cases hr : r < Client.nrequests s.mc
    · exact hrequests r hr
    · rw [ho.fresh r (Nat.le_of_not_lt hr)]
      rfl

theorem Caller.step_ordered {a : CallerAct (client env).Label} (hsound : Sound s)
    (hset : Settled s.mc) (ho : Ordered W s.mc) (hc : Orderly s a)
    (hs : Caller.step (client env) s a = some s') :
    LegalFrom W (Caller.events s a) ∧ Ordered ((Caller.events s a).foldl Event.after W) s'.mc := by
  cases a with
  | launch =>
    cases hs
    refine ⟨trivial, Ordered.inactive ho ?_ rfl⟩
    rw [(hsound.unborn s.launched (Nat.le_refl _)).1]
    rfl
  | take g =>
    obtain ⟨v, hv, rfl⟩ := Option.map_eq_some_iff.mp hs
    have hp : Client.polls s.mc g = .sending v := sending_of_offer hv
    exact ⟨trivial, ho.rest (g := g) (hp ▸ rfl) rfl rfl rfl rfl⟩
  | poll l =>
    obtain ⟨mc, hm, rfl⟩ := Option.map_eq_some_iff.mp hs
    refine (step_of_live hsound.live hm).ordered ho hset ?_ ?_
    · rintro g rfl hi
      exact Orderly.start hc hsound ho hi
    · rintro g r t rfl hp
      simpa only [Orderly, Client.answered, hp] using hc
  | closePoll | closeAll | advance =>
    cases hs
    exact ⟨trivial, ho⟩

/-- In every run in which the request timer fires only after the completion of the request, and a
poll is entered only when the goroutines of the earlier ones are through, the commands are
serialised: a tagged command is written only when none waits on the connection, and a line is read
only by the goroutine whose command waits. -/
theorem commands_serialised {as : List (CallerAct (client env).Label)}
    (h : Run (Caller.step (client env)) Orderly { mc := newIMAPClient env } as s) :
    Serialised (Transition.observe (Caller.step (client env)) Caller.events
      { mc := newIMAPClient env } as) := by
  have hinv := h.observe_inv (f := Caller.events)
    (I := fun log s => Sound s ∧ Settled s.mc ∧ Serialised log ∧ Ordered (waiting log) s.mc)
    ?_ ⟨init_sound, (history_settled .nil).2.1, serialised_nil, ordered_init⟩
  · exact hinv.2.2.1
  · rintro log s a s' ⟨hsound, hset, hserial, ho⟩ hc hs
    obtain ⟨hlegal, ho'⟩ := Caller.step_ordered hsound hset ho hc hs
    refine ⟨hsound.step hs, hset.step hsound hs, hserial.append hlegal, ?_⟩
    rw [waiting_append]
    exact ho'

/-- The first poll of a client finds new mail, one command after the other. -/
theorem commands_serialised_newMail :
    ∃ s : Caller Client,
      Run (Caller.step (client idleEnv)) Orderly { mc := newIMAPClient idleEnv } mailActs s ∧
      s.mc.polls 0 = .returned ∧
      Serialised (Transition.observe (Caller.step (client idleEnv)) Caller.events
        { mc := newIMAPClient idleEnv } mailActs) :=
  have h : Run (Caller.step (client idleEnv)) Orderly { mc := newIMAPClient idleEnv }
      mailActs _ := Run.of_execIf rfl
  ⟨_, h, rfl, commands_serialised h⟩

/-- The server is slow to end the `IDLE` when the request timer has fired. -/
def slowActs : List (CallerAct Label) :=
  List.flatten [[.launch], (idleSteps 0 0 "PINGR1 OK" "PINGR2 OK").map .poll,
    [.advance 600000000000], [Label.timer 0, .next 0, .io 0 (.write true)].map .poll]

/-- The poll writes its next `EXAMINE` while the `IDLE` waits for its completion, and both
goroutines read from the connection. -/
theorem examine_overlaps_idle :
    ∃ s : Caller Client,
      Run (Caller.step (client idleEnv)) Free { mc := newIMAPClient idleEnv } slowActs s ∧
      ¬Serialised (Transition.observe (Caller.step (client idleEnv)) Caller.events
        { mc := newIMAPClient idleEnv } slowActs) := by
  refine ⟨_, Run.of_exec rfl, fun h => ?_⟩
  have := h [.opened, .heard (.poll 0), .wrote (.poll 0), .heard (.poll 0), .completed (.poll 0),
    .wrote (.poll 0), .heard (.poll 0), .heard (.poll 0), .completed (.poll 0), .wrote (.request 0)]
    (.wrote (.poll 0)) [] rfl
  cases this

end Pinger.Imap
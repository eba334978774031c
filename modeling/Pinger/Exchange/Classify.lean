import Pinger.Exchange.LongPoll
import Pinger.Lib.Run

/-! # What a reply means

A request goroutine reads the beginning of a body once, into a buffer of the size of the reply that
stands for "no change", and `LongPoll` compares the whole buffer with that reply. A body that comes
in parts, one that is longer than the reply, and one that differs from it by zero bytes at the end
are taken for what they are not. A reply without a body never shows its status. -/

namespace Pinger.Exchange

open Transition

/-! ## From the reply to the next state of the poll -/

/-- The steps from the reply to request `r` to its receipt by instance `g`. -/
def handling (g r : Nat) (reply : HttpReply) : List Label :=
  [.reply r (.ok reply), .clear r, .test r, .recv g]

/-- Where `LongPoll` goes. -/
def Verdict.next : Verdict → Poll
  | .send v => .sending v
  | .again n => .loop n

/-- Instance `g` waits for request `r`, which is under way and has not been cancelled. -/
structure Waiting (c : Client) (g r n : Nat) (t : Int) : Prop where
  poll : c.polls g = .select r n t
  request : ∃ tr, c.requests r = .doing tr
  cancelled : c.cancelled = false
  died : c.died = false
  cleaned : c.cleaned = false

variable {env : Env} {sig : Signals} {c : Client}

/-- The reply decides where the poll goes. -/
theorem exec_handling (env : Env) (sig : Signals) (h : Waiting c g r n t) (reply : HttpReply) :
    ∃ c', exec (step env sig) c (handling g r reply) = some c' ∧ c'.died = false ∧
      c'.cleaned = false ∧ c'.polls g = (verdict env.pi (sig.now - t ≤ tooFastResponse env.pi) n
        (readResponse env.pi reply)).next := by
  obtain ⟨hp, ⟨tr, hr⟩, hc, hd, hcl⟩ := h
  cases hv : verdict env.pi (sig.now - t ≤ tooFastResponse env.pi) n (readResponse env.pi reply) with
  | send v =>
    simp [handling, exec, step, advance, hd, hcl, hr, hc, hp, Client.setRequest, respond, hv,
      Verdict.next, Client.exitRequest, Client.setPoll, -tsub_le_iff_right]
  | again n =>
    simp [handling, exec, step, advance, hd, hcl, hr, hc, hp, Client.setRequest, respond, hv,
      Verdict.next, Client.exitRequest, Client.setPoll, -tsub_le_iff_right]

/-! ## Ping -/

/-- The reply has status 200 and body `b`, and its first chunk is what the first `Read` delivers of
it. At the end of the body the `Read` may report that already. -/
structure Delivers (pi : MailPingInformation) (b : GoString) (reply : HttpReply) : Prop where
  status : reply.statusCode = 200
  chunk : reply.chunk <+: b
  nonempty : reply.chunk ≠ []
  size : reply.chunk.length ≤ maxResponseSize pi
  readErr : reply.readErr = none ∨ reply.readErr = some .eof ∧ reply.chunk = b

/-- A registration for Ping with the reply that means "no change". -/
structure Pings (pi : MailPingInformation) (noChange : GoString) : Prop where
  ping : pi.asIsSyncRequest = false
  expected : pi.expectedReply = none
  reply : pi.noChangeReply = some noChange
  nonempty : noChange ≠ []

/-- The text is the chunk, filled up with zero bytes. -/
def PadsTo (chunk text : GoString) : Prop := ∃ k, text = chunk ++ List.replicate k '\x00'

/-- `LongPoll` goes back to polling after a reply without a change. -/
def noChangeSleep (tooFast : Bool) (n : Nat) : Nat := if tooFast then exponentialBackoff n else 0

variable {pi : MailPingInformation} {noChange b : GoString} {reply : HttpReply}

/-- The buffer of a Ping has the size of the reply to be compared with. -/
theorem Pings.maxResponseSize_eq (h : Pings pi noChange) : maxResponseSize pi = noChange.length := by
  have hpos : noChange.length ≠ 0 := by simpa using h.nonempty
  simp [maxResponseSize, h.expected, h.reply, hpos]

/-- What is passed on is the chunk, filled up with zero bytes. -/
theorem readResponse_ping (h : Pings pi noChange) (hd : Delivers pi b reply) :
    readResponse pi reply = .response 200
      (.ok (reply.chunk ++ List.replicate (noChange.length - reply.chunk.length) '\x00')) := by
  have htake : reply.chunk.take noChange.length = reply.chunk :=
    List.take_of_length_le (h.maxResponseSize_eq ▸ hd.size)
  have hne : reply.chunk ≠ [] := hd.nonempty
  simp only [readResponse, hd.status, ne_eq, not_true_eq_false, if_false, h.maxResponseSize_eq, htake]
  rcases hd.readErr with he | ⟨he, -⟩ <;> simp [he, hne]

/-- A chunk that fits is filled up to the text exactly when the text is the chunk and zero bytes. -/
theorem padded_eq_iff {chunk text : GoString} (h : chunk.length ≤ text.length) :
    text = chunk ++ List.replicate (text.length - chunk.length) '\x00' ↔ PadsTo chunk text := by
  constructor
  · exact fun heq => ⟨_, heq⟩
  · rintro ⟨k, rfl⟩
    simp

theorem verdict_ping (h : Pings pi noChange) (hd : Delivers pi b reply) (tooFast : Bool) (n : Nat) :
    (PadsTo reply.chunk noChange → (verdict pi tooFast n (readResponse pi reply)).next =
      .loop (noChangeSleep tooFast n)) ∧
    (¬PadsTo reply.chunk noChange → (verdict pi tooFast n (readResponse pi reply)).next =
      .sending .newMail) := by
  rw [readResponse_ping h hd]
  have hpad := padded_eq_iff (h.maxResponseSize_eq ▸ hd.size)
  constructor
  · intro hp
    simp [verdict, h.ping, h.reply, ← hpad.mpr hp, Verdict.next, noChangeSleep]
  · intro hp
    have hne := mt hpad.mp hp
    simp [verdict, h.ping, h.reply, h.expected, hne, Verdict.next]

/-- The body is taken for what it is: the poll goes back to polling when it is the reply that means
"no change", and reports new mail when it is not. -/
def Classified (env : Env) (sig : Signals) (c : Client) (g r n : Nat) (t : Int) (noChange b : GoString)
    (reply : HttpReply) : Prop :=
  ∃ c', exec (step env sig) c (handling g r reply) = some c' ∧
    (c'.polls g = .loop (noChangeSleep (sig.now - t ≤ tooFastResponse env.pi) n) ↔ b = noChange) ∧
    (c'.polls g = .sending .newMail ↔ b ≠ noChange)

/-- The body is taken for what it is exactly when it is the reply that means "no change", and only
zero bytes of it are missing from the first chunk, or it is another one, and its first chunk is not
that reply up to zero bytes at the end. -/
theorem ping_classified_iff (h : Pings env.pi noChange) (hw : Waiting c g r n t)
    (hd : Delivers env.pi b reply) :
    Classified env sig c g r n t noChange b reply ↔
      (b = noChange ∧ PadsTo reply.chunk noChange ∨ b ≠ noChange ∧ ¬PadsTo reply.chunk noChange) := by
  obtain ⟨c', hexec, -, -, hpoll⟩ := exec_handling env sig hw reply
  obtain ⟨hloop, hmail⟩ := verdict_ping h hd (sig.now - t ≤ tooFastResponse env.pi) n
  have hiff : Classified env sig c g r n t noChange b reply ↔
      (PadsTo reply.chunk noChange ↔ b = noChange) := by
    by_cases hp : PadsTo reply.chunk noChange
    · rw [hloop hp] at hpoll
      simp [Classified, hexec, hpoll, hp]
    · rw [hmail hp] at hpoll
      simp [Classified, hexec, hpoll, hp]
  rw [hiff]
  by_cases hp : PadsTo reply.chunk noChange <;> by_cases hb : b = noChange <;> simp [hp, hb]

/-- A Ping for which `abc` means "no change". -/
def abcEnv : Env where
  pi := { mailServerUrl := GoString.lit "https://mail/ping", noChangeReply := some (GoString.lit "abc") }

def abcReply (chunk : GoString) : HttpReply where
  statusCode := 200
  chunk := chunk
  readErr := none

/-- The first request of a fresh client is under way. -/
def waitingActs : List (CallerAct Label) :=
  .launch :: [Label.start 0, .spawn 0, .lock 0, .setup 0, .call 0].map .poll

theorem abc_delivers {chunk b : GoString} (hc : chunk <+: b) (hne : chunk ≠ [])
    (hl : chunk.length ≤ 3) : Delivers abcEnv.pi b (abcReply chunk) :=
  ⟨rfl, hc, hne, hl, .inl rfl⟩

/-- A body in one chunk is taken for what it is. -/
theorem ping_classified_whole :
    ∃ s : Caller Client,
      Run (Caller.step (client abcEnv)) Free { mc := {} } waitingActs s ∧
      Classified abcEnv s.signals s.mc 0 0 0 0 (GoString.lit "abc") (GoString.lit "abc")
        (abcReply (GoString.lit "abc")) :=
  have h : Pings abcEnv.pi (GoString.lit "abc") := ⟨rfl, rfl, rfl, by decide⟩
  ⟨_, Run.of_exec rfl, (ping_classified_iff h ⟨rfl, ⟨_, rfl⟩, rfl, rfl, rfl⟩
    (abc_delivers ⟨[], rfl⟩ (by decide) (by decide))).mpr (.inl ⟨rfl, 0, rfl⟩)⟩

/-- The reply `abc` that comes in two parts is reported as new mail, and the reply `abcd` is taken
for `abc`. -/
theorem partial_read_misclassified :
    ∃ s : Caller Client,
      Run (Caller.step (client abcEnv)) Free { mc := {} } waitingActs s ∧
      Delivers abcEnv.pi (GoString.lit "abc") (abcReply (GoString.lit "ab")) ∧
      ¬Classified abcEnv s.signals s.mc 0 0 0 0 (GoString.lit "abc") (GoString.lit "abc")
        (abcReply (GoString.lit "ab")) ∧
      Delivers abcEnv.pi (GoString.lit "abcd") (abcReply (GoString.lit "abc")) ∧
      ¬Classified abcEnv s.signals s.mc 0 0 0 0 (GoString.lit "abc") (GoString.lit "abcd")
        (abcReply (GoString.lit "abc")) := by
  refine ⟨_, Run.of_exec rfl, abc_delivers ⟨['c'], rfl⟩ (by decide) (by decide), ?_,
    abc_delivers ⟨['d'], rfl⟩ (by decide) (by decide), ?_⟩
  · rintro ⟨c', hexec, -, hmail⟩
    cases hexec
    exact hmail.mp rfl rfl
  · rintro ⟨c', hexec, hloop, -⟩
    cases hexec
    exact absurd (hloop.mp rfl) (by decide)

/-! ## Replies with another status -/

/-- `doRequestResponse` replaces the reply by its mark for a retry: the `Read` failed, or a Ping was
answered without a body. -/
def Replaced (pi : MailPingInformation) (reply : HttpReply) : Prop :=
  reply.readErr = some .other ∨
    reply.readErr = some .eof ∧ reply.chunk = [] ∧ pi.asIsSyncRequest = false

/-- The empty body of a Sync cannot be read to its end or closed. -/
def Broken (pi : MailPingInformation) (reply : HttpReply) : Prop :=
  reply.readErr = some .eof ∧ reply.chunk = [] ∧ pi.asIsSyncRequest = true ∧ reply.bodyErr ≠ none

/-- The status is acted on: 401 asks the device to register again, any other one makes the poll back
off and issue another request. -/
def StatusHandled (env : Env) (sig : Signals) (c : Client) (g r n : Nat) (reply : HttpReply) : Prop :=
  ∃ c', exec (step env sig) c (handling g r reply) = some c' ∧
    c'.polls g ≠ .sending .newMail ∧
    if reply.statusCode = 401 then c'.polls g = .sending .reRegister
    else c'.polls g = .loop (exponentialBackoff n) ∧
      ∀ sig', ∃ c'' r' t', step env sig' c' (.spawn g) = some c'' ∧
        c''.polls g = .select r' (exponentialBackoff n) t'

theorem readResponse_replaced (h : Replaced pi reply) : readResponse pi reply = .retry := by
  rcases h with he | ⟨he, hchunk, hping⟩
  · simp [readResponse, he]
  · simp [readResponse, he, hchunk, hping]

theorem readResponse_broken (h : Broken pi reply) :
    ∃ e, readResponse pi reply = .response reply.statusCode (.error e) := by
  obtain ⟨he, hchunk, hsync, hbody⟩ := h
  obtain ⟨e, hbody⟩ := Option.ne_none_iff_exists'.mp hbody
  exact ⟨e, by simp [readResponse, he, hchunk, hsync, hbody]⟩

/-- Any other reply is passed on with its status. -/
theorem readResponse_other (hs : reply.statusCode ≠ 200) (hr : ¬Replaced pi reply)
    (hb : ¬Broken pi reply) :
    ∃ body, readResponse pi reply = .response reply.statusCode (.ok body) := by
  simp only [readResponse, ne_eq, hs, not_false_eq_true, if_true]
  split
  next he => exact absurd (.inl he) hr
  next he =>
    split
    next hgot =>
      have hchunk : reply.chunk = [] := (List.take_eq_nil_iff.mp hgot).resolve_left (by decide)
      split
      next hsync =>
        cases hbody : reply.bodyErr with
        | none => exact ⟨[], rfl⟩
        | some e => exact absurd ⟨he, hchunk, hsync, by simp [hbody]⟩ hb
      next hping => exact absurd (.inr ⟨he, hchunk, by simpa using hping⟩) hr
    next => exact ⟨_, rfl⟩
  next => exact ⟨_, rfl⟩

theorem verdict_status (h : statusCode ≠ 200) (tooFast : Bool) (n : Nat) :
    (verdict pi tooFast n (.response statusCode (.ok body))).next =
      if statusCode = 401 then .sending .reRegister else .loop (exponentialBackoff n) := by
  simp only [verdict, ne_eq, h, not_false_eq_true, if_true]
  split <;> rfl

/-- A status other than 200 is acted on exactly when a reply with status 401 is not replaced by the
mark for a retry, and the empty body of a Sync can be read and closed. -/
theorem status_handled_iff (hw : Waiting c g r n t) (hs : reply.statusCode ≠ 200) :
    StatusHandled env sig c g r n reply ↔
      ¬(reply.statusCode = 401 ∧ Replaced env.pi reply) ∧ ¬Broken env.pi reply := by
  obtain ⟨c', hexec, hd, hcl, hpoll⟩ := exec_handling env sig hw reply
  -- from its loop the poll issues another request
  have hspawn : c'.polls g = .loop (exponentialBackoff n) →
      ∀ sig', ∃ c'' r' t', step env sig' c' (.spawn g) = some c'' ∧
        c''.polls g = .select r' (exponentialBackoff n) t' := by
    intro hloop sig'
    refine ⟨_, c'.nrequests, sig'.now, by simp only [step, advance, hd, hcl, hloop]; rfl, ?_⟩
    exact Function.update_self ..
  have hiff : StatusHandled env sig c g r n reply ↔
      c'.polls g = if reply.statusCode = 401 then .sending .reRegister
        else .loop (exponentialBackoff n) := by
    constructor
    · rintro ⟨c₁, h₁, -, hstatus⟩
      cases hexec.symm.trans h₁
      split at hstatus
      next h401 => rw [if_pos h401, hstatus]
      next h401 => rw [if_neg h401, hstatus.1]
    · intro hnext
      refine ⟨c', hexec, ?_, ?_⟩
      · rw [hnext]
        split <;> simp
      · split
        next h401 => rw [hnext, if_pos h401]
        next h401 =>
          rw [if_neg h401] at hnext
          exact ⟨hnext, hspawn hnext⟩
  rw [hiff, hpoll]
  by_cases hb : Broken env.pi reply
  · obtain ⟨e, he⟩ := readResponse_broken hb
    simp only [he, verdict, Verdict.next, hb, not_true_eq_false, and_false, iff_false]
    split <;> simp
  · by_cases hr : Replaced env.pi reply
    · simp only [readResponse_replaced hr, verdict, Verdict.next, hr, hb, and_true,
        not_false_eq_true]
      split <;> simp_all
    · obtain ⟨body, hbody⟩ := readResponse_other hs hr hb
      rw [hbody, verdict_status hs]
      simp [hr, hb]

/-- A reply with status 401, and its body in one chunk. -/
def unauthorized (body : GoString) : HttpReply where
  statusCode := 401
  chunk := body
  readErr := some .eof

theorem status_handled_body :
    ∃ s : Caller Client,
      Run (Caller.step (client abcEnv)) Free { mc := {} } waitingActs s ∧
      StatusHandled abcEnv s.signals s.mc 0 0 0 (unauthorized (GoString.lit "Unauthorized")) :=
  ⟨_, Run.of_exec rfl, (status_handled_iff ⟨rfl, ⟨_, rfl⟩, rfl, rfl, rfl⟩ (by decide)).mpr
    ⟨fun h => by simp [Replaced, unauthorized] at h, fun h => by simp [Broken, unauthorized] at h⟩⟩

/-- A Ping that is refused without a body is tried again and again. -/
theorem empty_unauthorized_retried :
    ∃ s : Caller Client,
      Run (Caller.step (client abcEnv)) Free { mc := {} } waitingActs s ∧
      ¬StatusHandled abcEnv s.signals s.mc 0 0 0 (unauthorized []) := by
  refine ⟨_, Run.of_exec rfl, ?_⟩
  rintro ⟨c', hexec, -, hstatus⟩
  cases hexec
  cases hstatus

end Pinger.Exchange

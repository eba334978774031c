import Pinger.Imap.OneResult

/-! # Successive polls of one IMAP client

A new poll should do what it would do on a newly constructed client. It does not: `cancel()`, which
ends every poll that was not turned away at its entry, sets `cancelled`, and nothing resets it, so
the next poll is cancelled as soon as it has sent its first command. A poll behaves as on a new
client exactly when it is the first one. -/

namespace Pinger.Imap

open Transition

variable {env : Env} {sig : Signals} {c c' : Client} {g : Nat}

/-! ## What is left of a poll -/

/-- The operations of a command leave `cancelled`, the connection and the tag alone. -/
structure SameConn (sh sh' : Shared) : Prop where
  cancelled : sh'.cancelled = sh.cancelled
  tlsConn : sh'.tlsConn = sh.tlsConn
  tag : sh'.tag = sh.tag

theorem sendIMAPCommand_sameConn (sh : Shared) (o : Option Nat) (command : GoString) :
    SameConn sh (sendIMAPCommand sh o command).1 := by
  simp only [sendIMAPCommand]
  split
  · split <;> exact ⟨rfl, rfl, rfl⟩
  · split <;> split <;> exact ⟨rfl, rfl, rfl⟩

theorem cancelIDLE_sameConn (sh : Shared) (o : Option Nat) : SameConn sh (cancelIDLE sh o).1 := by
  unfold cancelIDLE
  split
  · exact sendIMAPCommand_sameConn sh o _
  · exact ⟨rfl, rfl, rfl⟩

theorem processIDLE_sameConn (sh : Shared) (o : Option Nat) (r : Option (Nat × GoString)) :
    SameConn sh (processIDLE sh o r).1 := by
  have hcount : ∀ n, SameConn sh { sh with existsCount := n } := fun _ => ⟨rfl, rfl, rfl⟩
  unfold processIDLE
  split
  next => exact ⟨rfl, rfl, rfl⟩
  next count token =>
    split
    next => exact hcount _
    next =>
      split
      next =>
        have hdone := sendIMAPCommand_sameConn { sh with hasNewEmail := true, existsCount := count } o
          (GoString.lit "DONE")
        exact ⟨hdone.cancelled, hdone.tlsConn, hdone.tag⟩
      next => exact ⟨rfl, rfl, rfl⟩

theorem processResponse_sameConn (sh : Shared) (o : Option Nat) (command response : GoString) :
    SameConn sh (processResponse sh o command response).1 := by
  unfold processResponse
  split
  · exact processIDLE_sameConn sh o _
  · split
    · unfold processEXAMINE
      split
      · exact ⟨rfl, rfl, rfl⟩
      · split
        · exact ⟨rfl, rfl, rfl⟩
        · split <;> exact ⟨rfl, rfl, rfl⟩
    · split
      · unfold processSTATUS
        split
        · exact ⟨rfl, rfl, rfl⟩
        · split
          · exact ⟨rfl, rfl, rfl⟩
          · split <;> exact ⟨rfl, rfl, rfl⟩
      · exact ⟨rfl, rfl, rfl⟩

theorem Cmd.Responded.sameConn {cmd : Cmd} (h : cmd.Responded sh response sh' out) :
    SameConn sh sh' := by
  have hended : SameConn sh (cmd.ended sh) := by
    unfold Cmd.ended
    split <;> exact ⟨rfl, rfl, rfl⟩
  cases h with
  | more => exact ⟨rfl, rfl, rfl⟩
  | completed | nextLine | refused => exact hended

theorem Cmd.step_sameConn {cmd : Cmd} (h : cmd.step sh o e = some (sh', out)) : SameConn sh sh' := by
  have hsend := sendIMAPCommand_sameConn sh o (cmd.lines.headD [])
  cases Cmd.step_cases h with
  | sent _ heq | writeErr _ heq | sendPanic _ heq =>
    rw [heq] at hsend
    exact hsend
  | checked | cancelled | armed | armPanic | readErr | again => exact ⟨rfl, rfl, rfl⟩
  | @line _ response sh₁ _ _ _ heq hr =>
    have hproc := processResponse_sameConn sh o cmd.command response
    rw [heq] at hproc
    have hresp := hr.sameConn
    exact ⟨hresp.cancelled.trans hproc.cancelled, hresp.tlsConn.trans hproc.tlsConn,
      hresp.tag.trans hproc.tag⟩
  | @linePanic _ response _ _ heq =>
    have hproc := processResponse_sameConn sh o cmd.command response
    rw [heq] at hproc
    exact hproc

/-- While no instance is active there is no connection, and either `cancelled` is set or nothing
has happened yet. -/
structure Settled (c : Client) : Prop where
  conn : (∃ g, (c.polls g).active) ∨ c.sh.tlsConn = false
  mark : (∃ g, (c.polls g).active) ∨ c.sh.cancelled ∨
    c.sh.isIdling = false ∧ (∀ g, c.polls g ≠ .returned) ∧ ∀ r, c.requests r = .absent

theorem active_update (polls : Nat → Poll) (g : Nat) (hp : p.active) :
    ∃ g', (Function.update polls g p g').active := ⟨g, by rw [Function.update_self]; exact hp⟩

theorem Settled.of_active (h : ∃ g, (c.polls g).active) : Settled c := ⟨.inl h, .inl h⟩

theorem pollIo_active (h : pollIo env sh g p e = some (sh', p')) : p'.active := by
  have hnext := pollIo_next h
  split at hnext
  · rw [hnext]
    rfl
  · exact Poll.active_of_goesOn hnext

theorem cancel_cancelled (sh : Shared) (o : Option Nat) : (cancel sh o).cancelled = true := by
  simp only [cancel]
  split
  · exact (cancelIDLE_sameConn { sh with cancelled := true } o).cancelled
  · rfl

theorem cancel_tlsConn (sh : Shared) (o : Option Nat) : (cancel sh o).tlsConn = false := by
  simp only [cancel]
  split
  next => rfl
  next hc => simpa using hc

/-- A step of a request goroutine leaves the polls alone, and there is one only once an instance
has been entered. -/
theorem Settled.request (h : Settled c) (hr : c.requests r ≠ .absent) (hpolls : c'.polls = c.polls)
    (hsh : SameConn c.sh c'.sh) : Settled c' := by
  refine ⟨?_, ?_⟩
  · rw [hpolls, hsh.tlsConn]
    exact h.conn
  · rw [hpolls, hsh.cancelled]
    rcases h.mark with hact | hc | ⟨-, -, hnone⟩
    · exact .inl hact
    · exact .inr (.inl hc)
    · exact absurd (hnone r) hr

theorem Settled.stepped (h : Settled c) (hs : Stepped env sig c l c') : Settled c' := by
  cases hs with
  | @alreadyIdling g hp hi =>
    have hact : ∀ g', (c.polls g').active → ((c.setPoll g .returned).polls g').active := by
      intro g' hg'
      have hne : g' ≠ g := by
        rintro rfl
        rw [hp] at hg'
        cases hg'
      rw [Client.setPoll_polls, Function.update_of_ne hne]
      exact hg'
    refine ⟨h.conn.imp (fun ⟨g', hg'⟩ => ⟨g', hact g' hg'⟩) id, ?_⟩
    rcases h.mark with ⟨g', hg'⟩ | hc | ⟨hidle, -⟩
    · exact .inl ⟨g', hact g' hg'⟩
    · exact .inr (.inl hc)
    · rw [hi] at hidle
      cases hidle
  | started | setupConn | dialled | dialErr | spawned | ioTimeout | requestErr | newMail | noMail
  | stopPoll | stopAll => exact .of_active (active_update c.polls _ rfl)
  | connected => exact .of_active (active_update c.polls _ (Poll.active_of_goesOn (ready_goesOn _ _)))
  | io hio => exact .of_active (active_update c.polls _ (pollIo_active hio))
  | timer => exact .of_active (active_update c.polls _ (by split <;> rfl))
  | @cancelled g hp =>
    exact ⟨.inr (cancel_tlsConn c.sh (some g)), .inr (.inl (cancel_cancelled c.sh (some g)))⟩
  | counted hr | begun hr | noConn hr | failed hr | answered hr =>
    exact h.request (by rw [hr]; simp) rfl ⟨rfl, rfl, rfl⟩
  | @dropped r hr =>
    have hne : c.requests r ≠ .absent := by
      rcases hr with hr | ⟨t, hr⟩ <;> rw [hr] <;> simp
    exact h.request hne rfl ⟨rfl, rfl, rfl⟩
  | @requestIo r _ _ sh out hr hio =>
    obtain ⟨q, wg, heq, -⟩ := requestOut_eq { c with sh := sh } r out
    rw [heq]
    exact h.request (by rw [hr]; simp) rfl (Cmd.step_sameConn hio)

/-! ## Histories -/

variable {s s' t : Caller (client env).State}

theorem Settled.step {a : CallerAct (client env).Label} (hsound : Sound s) (h : Settled s.mc)
    (hs : Caller.step (client env) s a = some s') : Settled s'.mc := by
  cases a with
  | launch =>
    cases hs
    have hne : ∀ g, (Client.polls s.mc g).active ∨ Client.polls s.mc g = .returned →
        g ≠ s.launched := by
      rintro g hg rfl
      rw [(hsound.unborn _ (Nat.le_refl _)).1] at hg
      rcases hg with hg | hg <;> cases hg
    have hact : (∃ g, (Client.polls s.mc g).active) →
        ∃ g, (Function.update (Client.polls s.mc) s.launched .launched g).active := by
      rintro ⟨g, hg⟩
      exact ⟨g, by rw [Function.update_of_ne (hne g (.inl hg))]; exact hg⟩
    refine ⟨h.conn.imp hact id, h.mark.imp hact fun h => h.imp id ?_⟩
    rintro ⟨hidle, hret, hreq⟩
    refine ⟨hidle, fun g hg => ?_, hreq⟩
    by_cases hg' : g = s.launched
    · have hg : Function.update (Client.polls s.mc) s.launched .launched g = .returned := hg
      rw [hg', Function.update_self] at hg
      cases hg
    · exact hret g ((Function.update_of_ne hg' _ _).symm.trans hg)
  | take g =>
    obtain ⟨v, hv, rfl⟩ := Option.map_eq_some_iff.mp hs
    exact .of_active (active_update (Client.polls s.mc) g rfl)
  | poll l =>
    obtain ⟨mc, hm, rfl⟩ := Option.map_eq_some_iff.mp hs
    exact h.stepped (step_of_live hsound.live hm)
  | closePoll | closeAll | advance => cases hs; exact h

/-- Before the first launch nothing happens. -/
theorem untouched_step {a : CallerAct (client env).Label}
    (h : s.launched = 0 → s.mc = newIMAPClient env)
    (hs : Caller.step (client env) s a = some s') :
    s'.launched = 0 → s'.mc = newIMAPClient env := by
  intro hl
  cases a with
  | launch => cases hs; cases hl
  | take g =>
    obtain ⟨v, hv, rfl⟩ := Option.map_eq_some_iff.mp hs
    rw [h hl] at hv
    cases hv
  | poll l =>
    obtain ⟨mc, hm, rfl⟩ := Option.map_eq_some_iff.mp hs
    rw [h hl] at hm
    have hst : Stepped env s.signals (newIMAPClient env) l mc := step_of_live rfl hm
    cases hst with
    | io hio => cases hio
    | dropped hr => rcases hr with hr | ⟨t, hr⟩ <;> cases hr
    | _ hp => cases hp
  | closePoll | closeAll | advance => cases hs; exact h hl

/-- What a run of callers leaves behind. -/
theorem history_settled (h : Run (Caller.step (client env)) Free { mc := newIMAPClient env } as s) :
    Sound s ∧ Settled s.mc ∧ (s.launched = 0 → s.mc = newIMAPClient env) := by
  refine h.inv (I := fun s => Sound s ∧ Settled s.mc ∧
    (s.launched = 0 → s.mc = newIMAPClient env)) ?_ ?_
  · rintro s a s' ⟨hsound, hset, hnew⟩ - hs
    exact ⟨hsound.step hs, hset.step hsound hs, untouched_step hnew hs⟩
  · exact ⟨init_sound, ⟨.inr rfl, .inr (.inr ⟨rfl, fun _ h => (nomatch h), fun _ => rfl⟩)⟩,
      fun _ => rfl⟩

/-- Once every instance has returned there is no connection, and after a first poll `cancelled` is
set. -/
theorem Settled.returned (h : Settled s.mc) (hsound : Sound s)
    (hret : ∀ g < s.launched, Client.polls s.mc g = .returned) :
    (Client.sh s.mc).tlsConn = false ∧ (0 < s.launched → (Client.sh s.mc).cancelled) := by
  have hact : ¬∃ g, (Client.polls s.mc g).active := by
    rintro ⟨g, hg⟩
    by_cases hlt : g < s.launched
    · rw [hret g hlt] at hg
      cases hg
    · rw [(hsound.unborn g (Nat.le_of_not_lt hlt)).1] at hg
      cases hg
  refine ⟨h.conn.resolve_left hact, fun hpos => ?_⟩
  rcases h.mark.resolve_left hact with hc | ⟨-, hnone, -⟩
  · exact hc
  · exact absurd (hret 0 hpos) (hnone 0)

/-! ## Observing one instance -/

/-- What the world sees of an instance: the commands it sends, its results on `errCh`, and whether
it has returned. -/
structure Observation where
  commands : List GoString
  results : List PollResult
  returned : Bool
  deriving DecidableEq, Repr

def observe (c : Client) (g : Nat) : Observation where
  commands := c.sh.log.filterMap fun e => if e.1 = some g then some e.2 else none
  results := c.results g ++ (offer c g).toList
  returned := c.polls g = .returned

/-- A new client in the place of the old one, with the same registration, the same next command tag
and the same next request number. -/
def renewed (s : Caller (client env).State) : Caller (client env).State :=
  { s with
    mc := {
      newIMAPClient env with
      sh := {
        existsCount := (Client.sh s.mc).existsCount
        uidNext := (Client.sh s.mc).uidNext
        tag := (Client.sh s.mc).tag }
      nrequests := Client.nrequests s.mc } }

/-- The next instance behaves as on a new client, whatever lines and events both are fed. -/
def Independent (s : Caller (client env).State) : Prop :=
  ∀ as, observe (feed (Caller.step (client env)) s (.launch :: as)).mc s.launched =
    observe (feed (Caller.step (client env)) (renewed s) (.launch :: as)).mc s.launched

/-! ## The next poll

Feeding the next instance a connection, a greeting and its first write tells a used client from a
new one. -/

/-- Instance `g` is at `p` and has sent no result. -/
structure At (t : Caller (client env).State) (g : Nat) (p : Poll) (cancelled tlsConn : Bool) :
    Prop where
  live : Client.cleaned t.mc = false
  alive : Client.died t.mc = false
  poll : Client.polls t.mc g = p
  results : Client.results t.mc g = []
  cancelled : (Client.sh t.mc).cancelled = cancelled
  tlsConn : (Client.sh t.mc).tlsConn = tlsConn

theorem step_of_advance (hlive : Client.cleaned t.mc = false) (halive : Client.died t.mc = false)
    (h : advance env t.signals t.mc l = some c') :
    Caller.step (client env) t (.poll l) = some { t with mc := c' } := by
  have hs : step env t.signals t.mc l = some c' := by simp [step, hlive, halive, h]
  exact Caller.step_poll hs

/-- A step of instance `g` that sets its place and the shared state. -/
theorem At.move (h : At t g p b k) (sh : Shared) (wg : Nat)
    (hadv : advance env t.signals t.mc l =
      some ({ (t.mc : Client) with sh := sh, wg := wg }.setPoll g p'))
    (hb : sh.cancelled = b) (hk : sh.tlsConn = k') :
    ∃ t', Caller.step (client env) t (.poll l) = some t' ∧ At t' g p' b k' :=
  ⟨_, step_of_advance h.live h.alive hadv, h.live, h.alive, Function.update_self .., h.results, hb, hk⟩

theorem At.io (h : At t g p b k) (hio : pollIo env (Client.sh t.mc) g p e = some (sh, p'))
    (hb : sh.cancelled = b) (hk : sh.tlsConn = k) :
    ∃ t', Caller.step (client env) t (.poll (.io g e)) = some t' ∧ At t' g p' b k := by
  refine h.move sh (Client.wg t.mc) ?_ hb hk
  simp only [advance, h.poll, hio]
  rfl

theorem At.start (h : At t g .launched b false) (hi : (Client.sh t.mc).isIdling = false) :
    ∃ t', Caller.step (client env) t (.poll (.start g)) = some t' ∧ At t' g (.loop 0) b false := by
  refine h.move { Client.sh t.mc with uidNext := 0 } (Client.wg t.mc + 1) ?_ h.cancelled h.tlsConn
  simp only [advance, h.poll, hi]
  rfl

theorem At.next (h : At t g (.loop n) b false) :
    ∃ t', Caller.step (client env) t (.poll (.next g)) = some t' ∧ At t' g .dial b false := by
  refine h.move (Client.sh t.mc) (Client.wg t.mc) ?_ h.cancelled h.tlsConn
  simp only [advance, h.poll, h.tlsConn]
  rfl

theorem At.dial (h : At t g .dial b k) :
    ∃ t', Caller.step (client env) t (.poll (.dial g true)) = some t' ∧
      At t' g (.greeting .arm) b true := by
  refine h.move { Client.sh t.mc with tlsConn := true } (Client.wg t.mc) ?_ h.cancelled rfl
  simp only [advance, h.poll]
  rfl

theorem At.arm (h : At t g (.greeting .arm) b true) :
    ∃ t', Caller.step (client env) t (.poll (.io g .arm)) = some t' ∧
      At t' g (.greeting (.read 0)) b true :=
  h.io (by simp only [pollIo, greet, h.tlsConn]; rfl) h.cancelled h.tlsConn

theorem At.greeting (h : At t g (.greeting (.read 0)) b true)
    (hblob : GoString.base64Decode env.pi.imapAuthenticationBlob = some blob) :
    ∃ t', Caller.step (client env) t (.poll (.io g (readLine "* OK"))) = some t' ∧
      ∃ command, At t' g (.auth (doIMAPCommand command)) b true := by
  have hok : isOKResponse (GoString.lit "* OK") = true := by decide
  have hio : pollIo env (Client.sh t.mc) g (.greeting (.read 0)) (readLine "* OK") =
      some (doImapAuth env (Client.sh t.mc)) := by
    simp only [pollIo, greet, readLine, getServerResponse, hok]
    rfl
  simp only [doImapAuth, hblob] at hio
  obtain ⟨t', hs, hat⟩ := h.io hio h.cancelled h.tlsConn
  exact ⟨t', hs, _, hat⟩

theorem At.write (h : At t g (.auth (doIMAPCommand command)) b true) :
    ∃ t', Caller.step (client env) t (.poll (.io g (.write true))) = some t' ∧
      At t' g (.auth { doIMAPCommand command with phase := .check }) b true := by
  have hconn := sendIMAPCommand_sameConn (Client.sh t.mc) (some g)
    ((doIMAPCommand command).lines.headD [])
  have halive := sendIMAPCommand_snd (Client.sh t.mc) (some g)
    ((doIMAPCommand command).lines.headD [])
  rw [h.tlsConn, Bool.or_true] at halive
  rcases hsend : sendIMAPCommand (Client.sh t.mc) (some g)
    ((doIMAPCommand command).lines.headD []) with ⟨sh, ok⟩
  rw [hsend] at hconn halive
  subst halive
  refine h.io ?_ (hconn.cancelled.trans h.cancelled) (hconn.tlsConn.trans h.tlsConn)
  have hstep : (doIMAPCommand command).step (Client.sh t.mc) (some g) (.write true) =
      some (sh, .going { doIMAPCommand command with phase := .check }) := by
    simp only [Cmd.step, doIMAPCommand] at hsend ⊢
    rw [hsend]
    simp
  simp only [pollIo, hstep]
  rfl

theorem At.check {cmd : Cmd} (h : At t g (.auth { cmd with phase := .check }) b true) :
    ∃ t', Caller.step (client env) t (.poll (.io g .check)) = some t' ∧
      At t' g (if b then .sending .reRegister else .auth { cmd with phase := .arm }) b true := by
  refine h.io ?_ h.cancelled h.tlsConn
  cases b <;> simp only [pollIo, Cmd.step, h.cancelled] <;> rfl

/-- A connection, a greeting and the first write. -/
def probe (g : Nat) : List (CallerAct (client env).Label) :=
  [.poll (.start g), .poll (.next g), .poll (.dial g true), .poll (.io g .arm),
    .poll (.io g (readLine "* OK")), .poll (.io g (.write true)), .poll (.io g .check)]

/-- The probe ends a poll on a client that is marked as cancelled, and no other. -/
theorem At.probed (h : At t g .launched b false) (hi : (Client.sh t.mc).isIdling = false)
    (hblob : GoString.base64Decode env.pi.imapAuthenticationBlob = some blob) :
    ∃ cmd, At (feed (Caller.step (client env)) t (probe g)) g
      (if b then .sending .reRegister else .auth cmd) b true := by
  obtain ⟨t₁, hs₁, h₁⟩ := h.start hi
  obtain ⟨t₂, hs₂, h₂⟩ := h₁.next
  obtain ⟨t₃, hs₃, h₃⟩ := h₂.dial
  obtain ⟨t₄, hs₄, h₄⟩ := h₃.arm
  obtain ⟨t₅, hs₅, command, h₅⟩ := h₄.greeting hblob
  obtain ⟨t₆, hs₆, h₆⟩ := h₅.write
  obtain ⟨t₇, hs₇, h₇⟩ := h₆.check
  unfold probe
  rw [feed_cons hs₁, feed_cons hs₂, feed_cons hs₃, feed_cons hs₄, feed_cons hs₅, feed_cons hs₆,
    feed_cons hs₇]
  exact ⟨_, h₇⟩

/-- An instance that is turned away at its entry is through. -/
theorem At.probed_idling (h : At t g .launched b false) (hi : (Client.sh t.mc).isIdling) :
    At (feed (Caller.step (client env)) t (probe g)) g .returned b false := by
  obtain ⟨t₁, hs₁, h₁⟩ : ∃ t', Caller.step (client env) t (.poll (.start g)) = some t' ∧
      At t' g .returned b false := by
    refine h.move (Client.sh t.mc) (Client.wg t.mc) ?_ h.cancelled h.tlsConn
    simp only [advance, h.poll, hi]
    rfl
  unfold probe
  rw [feed_cons hs₁, feed_of_disabled]
  · exact h₁
  · have hp := h₁.poll
    intro a ha
    simp only [List.mem_cons, List.not_mem_nil, or_false] at ha
    rcases ha with rfl | rfl | rfl | rfl | rfl | rfl <;>
      simp [Caller.step, client, step, advance, pollIo, hp]

/-! ## The next poll and a new client -/

/-- The instance launched next, on a client without a connection. -/
theorem At.launch (hsound : Sound s) (hb : (Client.sh s.mc).cancelled = b)
    (hk : (Client.sh s.mc).tlsConn = false) :
    ∃ t, Caller.step (client env) s .launch = some t ∧ At t s.launched .launched b false ∧
      Client.sh t.mc = Client.sh s.mc :=
  ⟨_, rfl, ⟨hsound.live, hsound.alive, Function.update_self ..,
    (hsound.unborn s.launched (Nat.le_refl _)).2, hb, hk⟩, rfl⟩

theorem renewed_sound (s : Caller (client env).State) : Sound (renewed s) :=
  ⟨rfl, rfl, fun _ _ => ⟨rfl, rfl⟩⟩

theorem At.observe (h : At t g p b k) :
    observe t.mc g = {
      commands := (Imap.observe t.mc g).commands
      results := match p with | .sending v => [v] | _ => []
      returned := p = .returned } := by
  simp only [Imap.observe, h.results, offer, h.poll, List.nil_append]
  cases p <;> rfl

/-- When every earlier instance has returned, the next one behaves as on a new client if and only
if there was no earlier one. -/
theorem independent_iff (h : Run (Caller.step (client env)) Free { mc := newIMAPClient env } as s)
    (hret : ∀ g < s.launched, Client.polls s.mc g = .returned)
    (hblob : (GoString.base64Decode env.pi.imapAuthenticationBlob).isSome) :
    Independent s ↔ s.launched = 0 := by
  obtain ⟨hsound, hset, hnew⟩ := history_settled h
  obtain ⟨hconn, hcancel⟩ := hset.returned hsound hret
  constructor
  · intro hind
    by_contra hpos
    obtain ⟨blob, hblob⟩ := Option.isSome_iff_exists.mp hblob
    have heq := hind (probe s.launched)
    obtain ⟨t, ht, hat, hsh⟩ := At.launch hsound (hcancel (Nat.pos_of_ne_zero hpos)) hconn
    obtain ⟨t', ht', hat', hsh'⟩ := At.launch (b := false) (renewed_sound s) rfl rfl
    have hat' : At t' s.launched .launched false false := hat'
    obtain ⟨cmd, hfresh⟩ := hat'.probed (by rw [hsh']; rfl) hblob
    rw [feed_cons ht, feed_cons ht', hfresh.observe] at heq
    cases hi : (Client.sh s.mc).isIdling with
    | true =>
      -- the used client turns the instance away
      rw [(hat.probed_idling (by rw [hsh]; exact hi)).observe] at heq
      cases congrArg Observation.returned heq
    | false =>
      -- the used client cancels the command
      obtain ⟨cmd', hused⟩ := hat.probed (by rw [hsh]; exact hi) hblob
      rw [hused.observe] at heq
      cases congrArg Observation.results heq
  · intro hzero as
    have hsame : renewed s = s := by
      obtain ⟨mc, launched, closedPoll, stopAll, now⟩ := s
      obtain rfl : mc = newIMAPClient env := hnew hzero
      rfl
    rw [hsame]

/-! ## Concrete runs -/

/-- A poll that has found new mail. -/
theorem mailActs_returned :
    ∃ s : Caller (client idleEnv).State,
      Run (Caller.step (client idleEnv)) Free { mc := newIMAPClient idleEnv } mailActs s ∧
      s.launched = 1 ∧ Client.polls s.mc 0 = .returned :=
  ⟨_, Run.of_exec rfl, rfl, rfl⟩

/-- After it the next poll is not independent. -/
theorem independent_iff_newMail :
    ∃ s : Caller (client idleEnv).State,
      Run (Caller.step (client idleEnv)) Free { mc := newIMAPClient idleEnv } mailActs s ∧
      s.launched = 1 ∧ ¬Independent s := by
  obtain ⟨s, h, hone, hret⟩ := mailActs_returned
  refine ⟨s, h, hone, fun hind => ?_⟩
  have hret : ∀ g < s.launched, Client.polls s.mc g = .returned := by
    intro g hg
    rw [hone, Nat.lt_one_iff] at hg
    rw [hg, hret]
  have hzero : s.launched = 0 := (independent_iff h hret (by decide)).mp hind
  rw [hone] at hzero
  cases hzero

/-- What the second poll is fed. -/
def secondActs : List (CallerAct Label) :=
  List.flatten [(idleSteps 1 1 "PINGR4 OK" "PINGR5 OK").map .poll,
    (mailSteps 1 1 "PINGR6 OK").map .poll]

set_option maxRecDepth 4000 in
/-- The first poll finds new mail. The second one is fed what lets a new client find new mail, and
asks the device to register again. -/
theorem second_poll_reRegisters :
    ∃ s : Caller (client idleEnv).State,
      Run (Caller.step (client idleEnv)) Free { mc := newIMAPClient idleEnv } mailActs s ∧
      Client.polls s.mc 0 = .returned ∧ s.launched = 1 ∧
      (observe (feed (Caller.step (client idleEnv)) s (.launch :: secondActs)).mc 1).results =
        [.reRegister] ∧
      (observe (feed (Caller.step (client idleEnv)) (renewed s) (.launch :: secondActs)).mc
        1).results = [.newMail] :=
  ⟨_, Run.of_exec rfl, rfl, rfl, rfl, rfl⟩

end Pinger.Imap

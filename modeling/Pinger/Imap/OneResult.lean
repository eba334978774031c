import Pinger.Imap.LongPoll

/-! # The result of an IMAP poll

A `LongPoll` that returns while its stop channels are open should have sent one result. It returns
without one when it is entered while an `IDLE` is outstanding, when its request goroutine reports an
I/O timeout, and when it panics; in every other case it sends exactly one. -/

namespace Pinger.Imap

open Transition

variable {env : Env} {sig : Signals} {c c' : Client} {g : Nat}

/-! ## Panics -/

/-- Processing the response panics: it is too short for its parser, or it asks for a `DONE` that
cannot be sent. -/
def badLine (sh : Shared) (command response : GoString) : Bool :=
  if getNameFromCommand command = GoString.lit "IDLE" then
    match parseIDLEResponse response with
    | none => true
    | some (count, token) =>
      token = GoString.lit "EXISTS" && count ≠ sh.existsCount && !sh.tlsConn
  else getNameFromCommand command = GoString.lit "EXAMINE" && (parseEXAMINEResponse response).isNone

/-- The operation of a command panics: the connection is nil, or the response is bad. -/
def Cmd.panics (cmd : Cmd) (sh : Shared) (e : IoEvent) : Bool :=
  match cmd.phase, e with
  | .send, .write _ => cmd.lines.headD [] ≠ [] && !sh.tlsConn
  | .arm, .arm => getNameFromCommand cmd.command ≠ GoString.lit "IDLE" && !sh.tlsConn
  | .read _, .read (.line response) => badLine sh cmd.command response
  | _, _ => false

/-- The operation of `LongPoll` on the connection panics. -/
def Poll.panics (p : Poll) (sh : Shared) (e : IoEvent) : Bool :=
  match p with
  | .greeting phase => phase = .arm && e = .arm && !sh.tlsConn
  | .auth cmd | .authAgain _ cmd | .examine cmd => cmd.panics sh e
  | _ => false

theorem sendIMAPCommand_snd (sh : Shared) (o : Option Nat) (command : GoString) :
    (sendIMAPCommand sh o command).2 = (command = [] || sh.tlsConn) := by
  by_cases hc : command = []
  · simp [sendIMAPCommand, hc]
  · by_cases hi : getNameFromCommand command = GoString.lit "IDLE"
    · cases ht : sh.tlsConn <;> simp [sendIMAPCommand, hc, hi, ht]
    · cases ht : sh.tlsConn <;> simp [sendIMAPCommand, hc, hi, ht]

theorem sendDone_snd (sh : Shared) (o : Option Nat) : (sendDone sh o).2 = sh.tlsConn := by
  simp [sendDone, sendIMAPCommand_snd]

theorem cancelIDLE_snd (sh : Shared) (o : Option Nat) :
    (cancelIDLE sh o).2 = (!sh.isIdling || sh.tlsConn) := by
  cases hi : sh.isIdling <;> simp [cancelIDLE, hi, sendDone_snd]

theorem processIDLE_snd (sh : Shared) (o : Option Nat) (count : Nat) (token : GoString) :
    (processIDLE sh o (some (count, token))).2 =
      !(token = GoString.lit "EXISTS" && count ≠ sh.existsCount && !sh.tlsConn) := by
  by_cases he : token = GoString.lit "EXPUNGE"
  · have hne : token ≠ GoString.lit "EXISTS" := by
      rw [he]
      decide
    simp only [processIDLE, if_pos he, hne, decide_false, Bool.false_and, Bool.not_false]
  · by_cases hx : token = GoString.lit "EXISTS" ∧ count ≠ sh.existsCount
    · have htrue : (token = GoString.lit "EXISTS" && count ≠ sh.existsCount) = true := by
        simpa using hx
      simp only [processIDLE, if_neg he, if_pos hx, sendDone_snd, htrue, Bool.true_and, Bool.not_not]
    · have hfalse : (token = GoString.lit "EXISTS" && count ≠ sh.existsCount) = false := by
        simpa using hx
      simp only [processIDLE, if_neg he, if_neg hx, hfalse, Bool.false_and, Bool.not_false]

theorem processEXAMINE_snd (sh : Shared) (o : Option (Nat × GoString)) :
    (processEXAMINE sh o).2 = o.isSome := by
  cases o with
  | none => rfl
  | some r =>
    simp only [processEXAMINE]
    split
    · rfl
    · split <;> rfl

theorem processResponse_snd (sh : Shared) (o : Option Nat) (command response : GoString) :
    (processResponse sh o command response).2 = !badLine sh command response := by
  unfold processResponse badLine
  by_cases hi : getNameFromCommand command = GoString.lit "IDLE"
  · rw [if_pos hi, if_pos hi]
    cases parseIDLEResponse response with
    | none => rfl
    | some r => exact processIDLE_snd sh o r.1 r.2
  · rw [if_neg hi, if_neg hi]
    by_cases he : getNameFromCommand command = GoString.lit "EXAMINE"
    · rw [if_pos he, processEXAMINE_snd]
      cases parseEXAMINEResponse response <;> simp [he]
    · rw [if_neg he]
      split <;> simp [he]

theorem Cmd.Responded.ne_panicked {cmd : Cmd} (h : cmd.Responded sh response sh' out) :
    out ≠ .panicked := by
  cases h <;> simp

theorem Cmd.step_panics {cmd : Cmd} (h : cmd.step sh o e = some (sh', out)) :
    out = .panicked ↔ cmd.panics sh e := by
  have hsend := sendIMAPCommand_snd sh o (cmd.lines.headD [])
  cases Cmd.step_cases h with
  | sent hp heq | writeErr hp heq | sendPanic hp heq =>
    rw [heq] at hsend
    simpa [Cmd.panics, hp, or_iff_not_imp_left] using hsend
  | checked hp | cancelled hp => simp [Cmd.panics, hp]
  | armed hp hn => simpa [Cmd.panics, hp, or_iff_not_imp_left] using hn
  | armPanic hp hn => simp [Cmd.panics, hp, hn]
  | @readErr _ r _ hp hr | @again _ r hp hr =>
    cases r with
    | line => cases hr
    | _ => simp [Cmd.panics, hp]
  | @line _ response _ _ _ hp heq hr =>
    have hproc := processResponse_snd sh o cmd.command response
    rw [heq] at hproc
    have hbad : badLine sh cmd.command response = false := by simpa using hproc
    simp [Cmd.panics, hp, hbad, hr.ne_panicked]
  | @linePanic _ response _ hp heq =>
    have hproc := processResponse_snd sh o cmd.command response
    rw [heq] at hproc
    have hbad : badLine sh cmd.command response := by simpa using hproc
    simp [Cmd.panics, hp, hbad]

/-! ## Where an instance is -/

/-- The instance has not yet come to its deferred function. -/
def Poll.working : Poll → Bool
  | .stopping | .returned => false
  | _ => true

/-- The instance has been entered and has not returned. -/
def Poll.active : Poll → Bool
  | .absent | .launched | .returned => false
  | _ => true

/-- The instance goes on to its next operation, request or send. -/
def Poll.goesOn : Poll → Bool
  | .greeting _ | .auth _ | .authAgain _ _ | .examine _ | .request | .sending _ => true
  | _ => false

theorem Poll.goesOn_of_talks {p : Poll} (h : p.talks) : p.goesOn := by
  cases p <;> first | rfl | cases h

theorem Poll.working_of_goesOn {p : Poll} (h : p.goesOn) : p.working := by
  cases p <;> first | rfl | cases h

theorem Poll.active_of_goesOn {p : Poll} (h : p.goesOn) : p.active := by
  cases p <;> first | rfl | cases h

theorem ready_goesOn (env : Env) (sh : Shared) : (ready env sh).2.goesOn := by
  unfold ready
  split <;> rfl

theorem doImapAuth_goesOn (env : Env) (sh : Shared) : (doImapAuth env sh).2.goesOn := by
  unfold doImapAuth
  split <;> rfl

theorem authenticated_goesOn (env : Env) (sh : Shared) (responses : List GoString) :
    (authenticated env sh responses).2.goesOn := by
  simp only [authenticated]
  split
  · rfl
  · split
    · exact ready_goesOn env sh
    · rfl

theorem greet_read_goesOn (h : greet env sh (.read tries) e = some (sh', p')) : p'.goesOn := by
  cases e with
  | read o =>
    simp only [greet] at h
    split at h
    · cases h; rfl
    · cases h; rfl
    · split at h
      · have heq : (doImapAuth env sh).2 = p' := congrArg Prod.snd (Option.some.inj h)
        rw [← heq]
        exact doImapAuth_goesOn env sh
      · cases h; rfl
  | _ => cases h

/-- An operation of the command `LongPoll` runs lets it go on unless it panics. -/
theorem pollOut_goesOn (hp : p.talks) (hout : out ≠ .panicked) :
    (pollOut env sh p out).2.goesOn := by
  have hcond : ∀ b : Bool,
      (if b then ready env sh else (sh, .sending .reRegister)).2.goesOn := by
    intro b
    cases b
    · rfl
    · exact ready_goesOn env sh
  cases p with
  | greeting phase =>
    cases out with
    | panicked => exact absurd rfl hout
    | _ => rfl
  | auth cmd =>
    cases out with
    | panicked => exact absurd rfl hout
    | ok responses => exact authenticated_goesOn env sh responses
    | _ => rfl
  | authAgain isOK cmd =>
    cases out with
    | panicked => exact absurd rfl hout
    | going cmd => rfl
    | _ => exact hcond isOK
  | examine cmd =>
    cases out with
    | panicked => exact absurd rfl hout
    | _ => rfl
  | _ => cases hp

/-- After an operation on the connection `LongPoll` goes on, unless it panics. -/
theorem pollIo_next (h : pollIo env sh g p e = some (sh', p')) :
    if p.panics sh e then p' = .stopping else p'.goesOn := by
  have ht := pollIo_talks h
  cases p with
  | greeting phase =>
    cases phase with
    | arm =>
      cases e with
      | arm =>
        cases h
        cases hc : sh.tlsConn <;> simp [Poll.panics, Poll.goesOn, hc]
      | _ => cases h
    | read tries => exact greet_read_goesOn h
    | _ => cases h
  | auth cmd | authAgain _ cmd | examine cmd =>
    obtain ⟨⟨sh₁, out⟩, hs, heq⟩ := Option.map_eq_some_iff.mp h
    have hp := Cmd.step_panics hs
    have heq' : (pollOut env sh₁ _ out).2 = p' := congrArg Prod.snd heq
    show if cmd.panics sh e then _ else _
    by_cases hb : cmd.panics sh e
    · obtain rfl := hp.mpr hb
      rw [if_pos hb]
      exact heq'.symm
    · rw [if_neg hb, ← heq']
      exact pollOut_goesOn ht fun hout => hb (hp.mp hout)
  | _ => cases h

/-! ## Steps -/

/-- The step ends instance `g` without a result: it is entered while an `IDLE` is outstanding, it
receives `IOTimeoutError`, or it panics. -/
def Silent (g : Nat) (c : Client) : Label → Prop
  | .start g' => g' = g ∧ c.sh.isIdling
  | .recv g' => g' = g ∧
      match c.polls g with
      | .select r _ => c.requests r = .sendErr true
      | _ => False
  | .timer g' => g' = g ∧ c.sh.isIdling ∧ c.sh.tlsConn = false
  | .io g' e => g' = g ∧ (c.polls g).panics c.sh e
  | _ => False

instance decidableSilent (g : Nat) (c : Client) : (l : Label) → Decidable (Silent g c l)
  | .start _ => inferInstanceAs (Decidable (_ ∧ _))
  | .recv g' =>
    match h : c.polls g with
    | .select r _ => decidable_of_iff (g' = g ∧ c.requests r = .sendErr true) (by simp [Silent, h])
    | .absent | .launched | .loop _ | .dial | .greeting _ | .auth _ | .authAgain _ _ | .examine _
    | .request | .sending _ | .stopping | .returned => .isFalse (by simp [Silent, h])
  | .timer _ => inferInstanceAs (Decidable (_ ∧ _ ∧ _))
  | .io _ _ => inferInstanceAs (Decidable (_ ∧ _))
  | .next _ | .dial _ _ | .spawn _ | .stopPoll _ | .stopAll _ | .cancel _ | .count _ | .begin _
  | .requestIo _ _ | .test _ => .isFalse id

/-- A step that moves another instance, or that keeps this one where it is, keeps it at work. -/
theorem working_update (polls : Nat → Poll) (hp : g' = g → p.working = (polls g').working) :
    (Function.update polls g' p g).working = (polls g).working := by
  by_cases hg : g = g'
  · subst hg
    rw [Function.update_self]
    exact hp rfl
  · rw [Function.update_of_ne hg]

/-- While its stop channels are open, only a silent step takes an instance to its deferred
function. -/
theorem Stepped.working (h : Stepped env sig c l c') (hs : ¬Silent g c l)
    (hpoll : sig.stopPoll g = false) (hall : sig.stopAll = false) :
    (c'.polls g).working = (c.polls g).working := by
  cases h with
  | @alreadyIdling g' hp hi => exact working_update c.polls fun hg => absurd ⟨hg, hi⟩ hs
  | started hp | setupConn hp | dialled hp | dialErr hp | spawned hp | requestErr hp | newMail hp
  | noMail hp | cancelled hp => exact working_update c.polls fun _ => by rw [hp]; rfl
  | connected hp =>
    refine working_update c.polls fun _ => ?_
    rw [hp, Poll.working_of_goesOn (ready_goesOn _ _)]
    rfl
  | @io g' e sh p hio =>
    refine working_update c.polls fun hg => ?_
    subst hg
    have hb : ¬(c.polls g').panics c.sh e := fun hb => hs ⟨rfl, hb⟩
    have hnext := pollIo_next hio
    rw [if_neg hb] at hnext
    rw [Poll.working_of_goesOn hnext,
      Poll.working_of_goesOn (Poll.goesOn_of_talks (pollIo_talks hio))]
  | @timer g' r t hp ht =>
    refine working_update c.polls fun hg => ?_
    subst hg
    have halive : (cancelIDLE c.sh (some g')).2 = true := by
      rw [cancelIDLE_snd]
      cases hi : c.sh.isIdling with
      | false => rfl
      | true =>
        cases hc : c.sh.tlsConn with
        | true => rfl
        | false => exact absurd ⟨rfl, hi, hc⟩ hs
    rw [halive, hp]
    rfl
  | @ioTimeout g' r t hp hr =>
    refine working_update c.polls fun hg => ?_
    subst hg
    exact absurd (by simp [Silent, hp, hr]) hs
  | @stopPoll g' r t hp hstop =>
    refine working_update c.polls fun hg => ?_
    subst hg
    rw [hpoll] at hstop
    cases hstop
  | stopAll hp hstop =>
    rw [hall] at hstop
    cases hstop
  | @requestIo r _ _ sh out =>
    obtain ⟨q, wg, heq, -⟩ := requestOut_eq { c with sh := sh } r out
    rw [heq]
    rfl
  | _ => rfl

/-- A silent step takes the instance to its deferred function. -/
theorem Stepped.silent (h : Stepped env sig c l c') (hs : Silent g c l) :
    (c'.polls g).working = false := by
  cases h with
  | alreadyIdling hp =>
    obtain ⟨rfl, -⟩ := hs
    rw [Client.setPoll_polls, Function.update_self]
    rfl
  | started hp hi =>
    have hi' : c.sh.isIdling = true := hs.2
    rw [hi] at hi'
    cases hi'
  | io hio =>
    obtain ⟨rfl, hb⟩ := hs
    have hnext := pollIo_next hio
    rw [if_pos hb] at hnext
    rw [Client.setPoll_polls, Function.update_self, hnext]
    rfl
  | timer hp =>
    obtain ⟨rfl, hi, hc⟩ := hs
    rw [Client.setPoll_polls, Function.update_self, cancelIDLE_snd, hi, hc]
    rfl
  | ioTimeout hp hr =>
    obtain ⟨rfl, -⟩ := hs
    rw [Client.setPoll_polls, Function.update_self]
    rfl
  | requestErr hp hr | newMail hp hr | noMail hp hr =>
    obtain ⟨rfl, hs⟩ := hs
    simp [hp, hr] at hs
  | _ => exact hs.elim

theorem Stepped.working_of_silent (h : Stepped env sig c l c') (hs : Silent g c l) :
    (c.polls g).working := by
  cases h with
  | alreadyIdling hp | started hp | timer hp | ioTimeout hp | requestErr hp | newMail hp
  | noMail hp =>
    obtain ⟨rfl, -⟩ := hs
    rw [hp]
    rfl
  | io hio =>
    obtain ⟨rfl, -⟩ := hs
    exact Poll.working_of_goesOn (Poll.goesOn_of_talks (pollIo_talks hio))
  | _ => exact hs.elim

/-- An instance that has come to its deferred function does not go back to work. -/
theorem Stepped.ended (h : Stepped env sig c l c') (hw : (c.polls g).working = false) :
    (c'.polls g).working = false := by
  have key : ∀ {g' p}, (c.polls g').working = true ∨ p.working = false →
      (Function.update c.polls g' p g).working = false := by
    intro g' p hp
    by_cases hg : g = g'
    · subst hg
      rw [Function.update_self]
      rcases hp with hp | hp
      · rw [hp] at hw
        cases hw
      · exact hp
    · rw [Function.update_of_ne hg]
      exact hw
  cases h with
  | alreadyIdling hp | started hp | connected hp | setupConn hp | dialled hp | dialErr hp
  | spawned hp | timer hp | ioTimeout hp | requestErr hp | newMail hp | noMail hp | stopPoll hp
  | stopAll hp => exact key (.inl (by rw [hp]; rfl))
  | io hio =>
    exact key (.inl (Poll.working_of_goesOn (Poll.goesOn_of_talks (pollIo_talks hio))))
  | cancelled => exact key (.inr rfl)
  | @requestIo r _ _ sh out =>
    obtain ⟨q, wg, heq, -⟩ := requestOut_eq { c with sh := sh } r out
    rw [heq]
    exact hw
  | _ => exact hw

/-! ## Callers -/

theorem Stepped.results (h : Stepped env sig c l c') : c'.results = c.results := by
  cases h with
  | @requestIo r _ _ sh out =>
    obtain ⟨q, wg, heq, -⟩ := requestOut_eq { c with sh := sh } r out
    rw [heq]
    rfl
  | _ => rfl

theorem Stepped.alive (h : Stepped env sig c l c') : c'.cleaned = c.cleaned ∧ c'.died = c.died := by
  cases h with
  | @requestIo r _ _ sh out =>
    obtain ⟨q, wg, heq, -⟩ := requestOut_eq { c with sh := sh } r out
    rw [heq]
    exact ⟨rfl, rfl⟩
  | _ => exact ⟨rfl, rfl⟩

/-- A client that has not been cleaned up takes its steps. -/
theorem step_of_live (hc : c.cleaned = false) (h : step env sig c l = some c') :
    Stepped env sig c l c' := by
  simp only [step, hc] at h
  split at h
  · cases h
  · obtain ⟨d, hd, rfl⟩ := Option.map_eq_some_iff.mp h
    exact advance_cases hd

variable {s s' : Caller (client env).State}

/-- No caller cleans the client up, and an instance is nothing before it is launched. -/
structure Sound (s : Caller (client env).State) : Prop where
  live : Client.cleaned s.mc = false
  alive : Client.died s.mc = false
  unborn : ∀ g, s.launched ≤ g → Client.polls s.mc g = .absent ∧ Client.results s.mc g = []

theorem Sound.step {a : CallerAct (client env).Label} (h : Sound s)
    (hs : Caller.step (client env) s a = some s') : Sound s' := by
  cases a with
  | launch =>
    cases hs
    refine ⟨h.live, h.alive, fun g' hle => ?_⟩
    have hlt : s.launched < g' := hle
    obtain ⟨hp, hr⟩ := h.unborn g' (Nat.le_of_lt hlt)
    exact ⟨(Function.update_of_ne (Nat.ne_of_gt hlt) _ _).trans hp, hr⟩
  | take g' =>
    obtain ⟨v, hv, rfl⟩ := Option.map_eq_some_iff.mp hs
    refine ⟨h.live, h.alive, fun g₁ hle => ?_⟩
    obtain ⟨hp, hr⟩ := h.unborn g₁ hle
    have hne : g₁ ≠ g' := by
      rintro rfl
      have hv' : offer s.mc g₁ = some v := hv
      simp [offer, hp] at hv'
    exact ⟨(Function.update_of_ne hne _ _).trans hp, (Function.update_of_ne hne _ _).trans hr⟩
  | poll l =>
    obtain ⟨mc, hm, rfl⟩ := Option.map_eq_some_iff.mp hs
    have hst := step_of_live h.live hm
    refine ⟨hst.alive.1.trans h.live, hst.alive.2.trans h.alive, fun g' hle => ?_⟩
    obtain ⟨hp, hr⟩ := h.unborn g' hle
    exact ⟨absent_step hm hp, (congrFun hst.results g').trans hr⟩
  | closePoll | closeAll | advance => cases hs; exact ⟨h.live, h.alive, h.unborn⟩

/-- The instance works and has sent nothing, or it is through and has sent one result. -/
def Heard (c : Client) (g : Nat) : Prop :=
  (c.results g).length = if (c.polls g).working then 0 else 1

/-- The instance is through and has sent nothing. -/
def Unheard (c : Client) (g : Nat) : Prop := (c.polls g).working = false ∧ c.results g = []

/-- No step of instance `g` is silent. -/
def NotSilent (g : Nat) (s : Caller (client env).State) : CallerAct (client env).Label → Prop
  | .poll l => ¬Silent g s.mc l
  | _ => True

instance (s : Caller (client env).State) :
    (a : CallerAct (client env).Label) → Decidable (NotSilent g s a)
  | .poll l =>
    let _ : Decidable (Silent g s.mc l) := decidableSilent g s.mc l
    inferInstanceAs (Decidable (¬Silent g s.mc l))
  | .launch | .take _ | .closePoll _ | .closeAll | .advance _ => .isTrue trivial

theorem heard_step {a : CallerAct (client env).Label} (hsound : Sound s) (h : Heard s.mc g)
    (hopen : s.Open g) (hc : NotSilent g s a) (hs : Caller.step (client env) s a = some s') :
    Heard s'.mc g := by
  cases a with
  | launch =>
    cases hs
    have hw : (Function.update (Client.polls s.mc) s.launched .launched g).working =
        (Client.polls s.mc g).working :=
      working_update _ fun _ => by rw [(hsound.unborn s.launched (Nat.le_refl _)).1]; rfl
    show (Client.results s.mc g).length = _
    rw [h, ← hw]
    rfl
  | take g' =>
    obtain ⟨v, hv, rfl⟩ := Option.map_eq_some_iff.mp hs
    have hv' : offer s.mc g' = some v := hv
    by_cases hg : g = g'
    · subst hg
      have hp : Client.polls s.mc g = .sending v := sending_of_offer hv'
      have hnil : Client.results s.mc g = [] := by simpa [Heard, hp, Poll.working] using h
      show (Function.update (Client.results s.mc) g (Client.results s.mc g ++ (offer s.mc g).toList)
        g).length = if (Function.update (Client.polls s.mc) g .stopping g).working then 0 else 1
      rw [Function.update_self, Function.update_self, hnil, hv']
      rfl
    · show (Function.update (Client.results s.mc) g' _ g).length =
        if (Function.update (Client.polls s.mc) g' .stopping g).working then 0 else 1
      rw [Function.update_of_ne hg, Function.update_of_ne hg]
      exact h
  | poll l =>
    obtain ⟨mc, hm, rfl⟩ := Option.map_eq_some_iff.mp hs
    have hst := step_of_live hsound.live hm
    have hw := hst.working hc (decide_eq_false hopen.1) hopen.2
    show (Client.results mc g).length = if (Client.polls mc g).working then 0 else 1
    rw [hst.results, hw]
    exact h
  | closePoll | closeAll | advance => cases hs; exact h

theorem unheard_step {a : CallerAct (client env).Label} (hsound : Sound s) (h : Unheard s.mc g)
    (hs : Caller.step (client env) s a = some s') : Unheard s'.mc g := by
  cases a with
  | launch =>
    cases hs
    have hne : g ≠ s.launched := by
      rintro rfl
      have hw := h.1
      rw [(hsound.unborn _ (Nat.le_refl _)).1] at hw
      cases hw
    refine ⟨?_, h.2⟩
    show (Function.update (Client.polls s.mc) s.launched .launched g).working = false
    rw [Function.update_of_ne hne]
    exact h.1
  | take g' =>
    obtain ⟨v, hv, rfl⟩ := Option.map_eq_some_iff.mp hs
    have hp : Client.polls s.mc g' = .sending v := sending_of_offer hv
    have hne : g ≠ g' := by
      rintro rfl
      have hw := h.1
      rw [hp] at hw
      cases hw
    refine ⟨?_, (Function.update_of_ne hne _ _).trans h.2⟩
    show (Function.update (Client.polls s.mc) g' .stopping g).working = false
    rw [Function.update_of_ne hne]
    exact h.1
  | poll l =>
    obtain ⟨mc, hm, rfl⟩ := Option.map_eq_some_iff.mp hs
    have hst := step_of_live hsound.live hm
    exact ⟨hst.ended h.1, (congrFun hst.results g).trans h.2⟩
  | closePoll | closeAll | advance => cases hs; exact h

/-- A silent step of an instance at work leaves it unheard. -/
theorem unheard_of_silent {a : CallerAct (client env).Label} (hsound : Sound s)
    (h : Heard s.mc g) (hc : ¬NotSilent g s a) (hs : Caller.step (client env) s a = some s') :
    Unheard s'.mc g := by
  cases a with
  | poll l =>
    obtain ⟨mc, hm, rfl⟩ := Option.map_eq_some_iff.mp hs
    have hst := step_of_live hsound.live hm
    have hsil : Silent g s.mc l := not_not.mp hc
    have hw := hst.working_of_silent hsil
    unfold Heard at h
    rw [hw] at h
    refine ⟨hst.silent hsil, ?_⟩
    show Client.results mc g = []
    rw [hst.results]
    exact List.length_eq_zero_iff.mp h
  | launch | take | closePoll | closeAll | advance => exact absurd trivial hc

/-! ## Whole runs -/

theorem init_sound : Sound ({ mc := newIMAPClient env } : Caller (client env).State) :=
  ⟨rfl, rfl, fun _ _ => ⟨rfl, rfl⟩⟩

/-- An instance that returns while its stop channels are open has sent exactly one result if and
only if none of its steps was silent, whatever the history of the client, the server and the
callers. -/
theorem one_result_iff
    (h : Run (Caller.step (client env)) Free { mc := newIMAPClient env } as s)
    (hret : Client.polls s.mc g = .returned) (hopen : s.Open g) :
    (Client.results s.mc g).length = 1 ↔
      Run (Caller.step (client env)) (NotSilent g) { mc := newIMAPClient env } as s := by
  have heard : ∀ {bs t}, Run (Caller.step (client env)) (NotSilent g)
      { mc := newIMAPClient env } bs t → Sound t ∧ (t.Open g → Heard t.mc g) := by
    intro bs t hrun
    refine hrun.inv (I := fun s => Sound s ∧ (s.Open g → Heard s.mc g)) ?_
      ⟨init_sound, fun _ => rfl⟩
    rintro s a s' ⟨hsound, hheard⟩ hc hs
    refine ⟨hsound.step hs, fun ho => ?_⟩
    have ho' := Caller.open_of_step hs ho
    exact heard_step hsound (hheard ho') ho' hc hs
  constructor
  · intro hlen
    rcases h.first_violation (C := NotSilent g) with hrun | ⟨bs, a, cs, t, t', -, hbs, hc, ht, hcs⟩
    · exact hrun
    · -- from its first silent step on the instance is through, and has sent nothing
      obtain ⟨hsound, hheard⟩ := heard hbs
      have hopen' : t.Open g := Caller.open_of_step ht (Caller.open_of_run hcs hopen)
      have hlost : Unheard t'.mc g := unheard_of_silent hsound (hheard hopen') hc ht
      have hinv := hcs.inv (I := fun s => Sound s ∧ Unheard s.mc g)
        (fun hi _ hs => ⟨hi.1.step hs, unheard_step hi.1 hi.2 hs⟩) ⟨hsound.step ht, hlost⟩
      rw [hinv.2.2] at hlen
      cases hlen
  · intro hrun
    have hheard := (heard hrun).2 hopen
    unfold Heard at hheard
    rw [hret] at hheard
    exact hheard

/-! ## Concrete runs -/

/-- A registration with a server that supports `IDLE`; the blob is `LOGIN a b`. -/
def idleEnv : Env where
  pi := {
    imapAuthenticationBlob := GoString.lit "TE9HSU4gYSBi"
    imapFolderName := GoString.lit "INBOX"
    imapSupportsIdle := true
    responseTimeout := 600000 }

def readLine (response : String) : IoEvent := .read (.line (GoString.lit response))

/-- Instance `g` connects, authenticates, examines its folder and starts request `r`, which sends
its `IDLE`. The three tagged responses are those of the server. -/
def idleSteps (g r : Nat) (authOK examineOK : String) : List Label :=
  [.start g, .next g, .dial g true, .io g .arm, .io g (readLine "* OK ready"),
    .io g (.write true), .io g .check, .io g .arm, .io g (readLine authOK),
    .io g (.write true), .io g .check, .io g .arm, .io g (readLine "* 5 EXISTS"),
    .io g .arm, .io g (readLine examineOK),
    .spawn g, .count r, .begin r, .requestIo r (.write true), .requestIo r .check]

/-- The same registration with a server that does not support `IDLE`. -/
def statusEnv : Env := { idleEnv with pi := { idleEnv.pi with imapSupportsIdle := false } }

/-- Instance `g` connects, authenticates and starts request `r`, which sends its `STATUS`. -/
def statusSteps (g r : Nat) (authOK : String) : List Label :=
  [.start g, .next g, .dial g true, .io g .arm, .io g (readLine "* OK ready"),
    .io g (.write true), .io g .check, .io g .arm, .io g (readLine authOK),
    .spawn g, .count r, .begin r, .requestIo r (.write true), .requestIo r .check]

/-- The server reports a message, the `IDLE` ends and instance `g` learns of it. -/
def mailSteps (g r : Nat) (idleOK : String) : List Label :=
  [.requestIo r .arm, .requestIo r (readLine "* 6 EXISTS"),
    .requestIo r .arm, .requestIo r (readLine idleOK), .test r, .recv g]

/-- The first poll of a client finds new mail. -/
def mailActs : List (CallerAct Label) :=
  List.flatten [[.launch], (idleSteps 0 0 "PINGR1 OK" "PINGR2 OK").map .poll,
    (mailSteps 0 0 "PINGR3 OK").map .poll, [.take 0, .poll (.cancel 0)]]

theorem one_result_iff_newMail :
    ∃ s : Caller Client,
      Run (Caller.step (client idleEnv)) (NotSilent 0) { mc := newIMAPClient idleEnv } mailActs s ∧
      s.mc.polls 0 = .returned ∧ s.Open 0 ∧ (s.mc.results 0).length = 1 :=
  have h : Run (Caller.step (client idleEnv)) (NotSilent 0) { mc := newIMAPClient idleEnv }
      mailActs _ := Run.of_execIf rfl
  ⟨_, h, rfl, ⟨List.not_mem_nil, rfl⟩, (one_result_iff h.free rfl ⟨List.not_mem_nil, rfl⟩).mpr h⟩

/-- The read of the `IDLE` times out. -/
def timeoutActs : List (CallerAct Label) :=
  List.flatten [[.launch], (idleSteps 0 0 "PINGR1 OK" "PINGR2 OK").map .poll,
    [.poll (.requestIo 0 .arm), .advance 300000000000],
    [Label.requestIo 0 (.read .timeout), .test 0, .recv 0, .cancel 0].map .poll]

/-- The read deadline that the `EXAMINE` has set passes while the `IDLE` waits: the poll ends, and
nobody is told. -/
theorem io_timeout_unheard :
    ∃ s : Caller Client,
      Run (Caller.step (client idleEnv)) Free { mc := newIMAPClient idleEnv } timeoutActs s ∧
      s.mc.polls 0 = .returned ∧ s.Open 0 ∧ s.mc.results 0 = [] :=
  ⟨_, Run.of_exec rfl, rfl, ⟨List.not_mem_nil, rfl⟩, rfl⟩

end Pinger.Imap

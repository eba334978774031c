import Pinger.Imap.Serial

/-! # Read deadlines

The read deadline belongs to the connection: `getServerResponse` sets it when its caller wants one
and leaves it alone otherwise. A call that wants none, as those of an `IDLE` do, is under the
deadline of an earlier call, and a call that begins while another one is under way changes the
deadline of that one too. When neither happens every call is under its own deadline. -/

namespace Pinger.Imap

open Transition GoTime

/-- How long `getServerResponse` waits, for every command but `IDLE`. -/
def replyTimeout : Int := milliseconds 300000

/-! ## Calls of `getServerResponse` -/

def Cmd.reading (cmd : Cmd) : Bool :=
  match cmd.phase with
  | .read _ => true
  | _ => false

def Poll.reading : Poll → Bool
  | .greeting (.read _) => true
  | .auth cmd | .authAgain _ cmd | .examine cmd => cmd.reading
  | _ => false

def Request.reading : Request → Bool
  | .running cmd => cmd.reading
  | _ => false

/-- The goroutine is within a call of `getServerResponse`. -/
def Client.reading (c : Client) : Reader → Bool
  | .poll g => (c.polls g).reading
  | .request r => (c.requests r).reading

/-- What a step does to the deadline of the connection. -/
inductive Touch
  | opened
  | began (w : Reader) (timed : Bool)
  deriving DecidableEq

def Cmd.touch (cmd : Cmd) (sh : Shared) (w : Reader) (e : IoEvent) : Option Touch :=
  match cmd.phase, e with
  | .arm, .arm =>
    if getNameFromCommand cmd.command = GoString.lit "IDLE" then some (.began w false)
    else if sh.tlsConn then some (.began w true) else none
  | _, _ => none

def Poll.touch (p : Poll) (sh : Shared) (g : Nat) (e : IoEvent) : Option Touch :=
  match p, e with
  | .greeting .arm, .arm => if sh.tlsConn then some (.began (.poll g) true) else none
  | .auth cmd, e | .authAgain _ cmd, e | .examine cmd, e => cmd.touch sh (.poll g) e
  | _, _ => none

/-- A call begins, with a deadline or without one, or a new connection is opened. -/
def touch (c : Client) : Label → Option Touch
  | .dial _ true => some .opened
  | .io g e => (c.polls g).touch c.sh g e
  | .requestIo r e =>
    match c.requests r with
    | .running cmd => cmd.touch c.sh (.request r) e
    | _ => none
  | _ => none

/-! ## The deadline of the connection -/

/-- A client with the deadline of its connection, and the deadline that each goroutine has asked for
when its last call began. -/
structure Clocked (env : Env) where
  s : Caller (client env).State
  deadline : Option Int := none
  asked : Reader → Option Int := fun _ => none

variable {env : Env}

namespace Clocked

/-- The deadlines after a step. -/
def after (x : Clocked env) (s' : Caller (client env).State) (o : Option Touch) : Clocked env where
  s := s'
  deadline :=
    match o with
    | some .opened => none
    | some (.began _ true) => some (x.s.now + replyTimeout)
    | _ => x.deadline
  asked :=
    match o with
    | some (.began w timed) =>
      Function.update x.asked w (if timed then some (x.s.now + replyTimeout) else none)
    | _ => x.asked

def touched (x : Clocked env) : CallerAct (client env).Label → Option Touch
  | .poll l => touch x.s.mc l
  | _ => none

def step (x : Clocked env) (a : CallerAct (client env).Label) : Option (Clocked env) :=
  (Caller.step (client env) x.s a).map fun s' => x.after s' (x.touched a)

/-- A client before its first step. -/
def fresh (env : Env) : Clocked env where
  s := { mc := newIMAPClient env }

/-- Every call is under the deadline it has asked for. -/
def OwnDeadline (x : Clocked env) : Prop :=
  ∀ w, Client.reading x.s.mc w → x.deadline = x.asked w

end Clocked

/-! ## How a goroutine comes to a call -/

variable {sig : Signals} {c c' : Client}

theorem Cmd.Responded.reading {cmd cmd' : Cmd} (h : cmd.Responded sh response sh' (.going cmd')) :
    cmd'.reading = false := by
  cases h <;> rfl

theorem Cmd.step_reading {cmd cmd' : Cmd} (h : cmd.step sh o e = some (sh', .going cmd'))
    (hr : cmd'.reading) (w : Reader) :
    cmd.reading ∨ ∃ timed, cmd.touch sh w e = some (.began w timed) := by
  cases Cmd.step_cases h with
  | sent | checked => cases hr
  | armed hp hn =>
    right
    simp only [Cmd.touch, hp]
    by_cases hi : getNameFromCommand cmd.command = GoString.lit "IDLE"
    · exact ⟨false, if_pos hi⟩
    · exact ⟨true, by rw [if_neg hi, if_pos (hn.resolve_left hi)]⟩
  | again hp => exact .inl (by simp [Cmd.reading, hp])
  | line _ _ hresp =>
    rw [hresp.reading] at hr
    cases hr

theorem ready_reading (env : Env) (sh : Shared) : (ready env sh).2.reading = false := by
  unfold ready
  split <;> rfl

theorem authenticated_reading (env : Env) (sh : Shared) (responses : List GoString) :
    (authenticated env sh responses).2.reading = false := by
  simp only [authenticated]
  split
  · rfl
  · split
    · exact ready_reading env sh
    · rfl

theorem pollOut_reading (h : (pollOut env sh p out).2.reading) :
    ∃ cmd, out = .going cmd ∧ cmd.reading := by
  unfold pollOut at h
  split at h
  · exact ⟨_, rfl, h⟩
  · rw [authenticated_reading] at h; cases h
  · exact ⟨_, rfl, h⟩
  · split at h
    · rw [ready_reading] at h; cases h
    · cases h
  · split at h
    · rw [ready_reading] at h; cases h
    · cases h
  · exact ⟨_, rfl, h⟩
  · cases h
  · cases h
  · cases h

theorem greet_reading (h : greet env sh phase e = some (sh', p)) (hr : p.reading) :
    Poll.reading (.greeting phase) ∨
      ∃ timed, Poll.touch (.greeting phase) sh g e = some (.began (.poll g) timed) := by
  unfold greet at h
  split at h
  next =>
    cases h
    right
    split at hr
    next ht => exact ⟨true, by simp [Poll.touch, ht]⟩
    next => cases hr
  next => exact .inl rfl
  next => cases h

theorem pollIo_reading (h : pollIo env sh g p e = some (sh', p')) (hr : p'.reading) :
    p.reading ∨ ∃ timed, p.touch sh g e = some (.began (.poll g) timed) := by
  cases p with
  | greeting phase => exact greet_reading h hr
  | auth cmd | authAgain isOK cmd | examine cmd =>
    obtain ⟨⟨sh₁, out⟩, hstep, heq⟩ := Option.map_eq_some_iff.mp h
    obtain rfl : _ = p' := congrArg Prod.snd heq
    obtain ⟨cmd', rfl, hcmd⟩ := pollOut_reading hr
    exact Cmd.step_reading hstep hcmd (.poll g)
  | _ => cases h

theorem reading_setPoll {w : Reader} (h : Client.reading (c.setPoll g p) w) :
    w = .poll g ∧ p.reading ∨ c.reading w := by
  cases w with
  | request r => exact .inr h
  | poll g' =>
    by_cases hg : g' = g
    · subst hg
      left
      simpa [Client.reading] using h
    · right
      simpa [Client.reading, Function.update_of_ne hg] using h

theorem reading_setRequest {w : Reader} (h : Client.reading (c.setRequest r q) w) :
    w = .request r ∧ q.reading ∨ c.reading w := by
  cases w with
  | poll g => exact .inr h
  | request r' =>
    by_cases hr : r' = r
    · subst hr
      left
      simpa [Client.reading] using h
    · right
      simpa [Client.reading, Function.update_of_ne hr] using h

/-- A goroutine is within a call because it was, or because the step begins one. -/
theorem Stepped.reading (h : Stepped env sig c l c') {w : Reader} (hr : c'.reading w) :
    c.reading w ∨ ∃ timed, touch c l = some (.began w timed) := by
  cases h with
  | alreadyIdling | started | setupConn | dialled | dialErr | stopPoll | stopAll | cancelled =>
    exact .inl ((reading_setPoll (c := c) hr).resolve_left fun h => (nomatch h.2))
  | connected =>
    refine .inl ((reading_setPoll (c := c) hr).resolve_left fun h => ?_)
    rw [ready_reading] at h
    cases h.2
  | timer =>
    refine .inl ((reading_setPoll (c := c) hr).resolve_left fun h => ?_)
    have hp := h.2
    split at hp <;> cases hp
  | io hio =>
    rcases reading_setPoll (c := c) hr with ⟨rfl, hp⟩ | hw
    · exact pollIo_reading hio hp
    · exact .inl hw
  | @spawned g =>
    left
    rcases reading_setRequest (c := c.setPoll g _) hr with ⟨-, hq⟩ | hw
    · cases hq
    · exact (reading_setPoll hw).resolve_left fun h => (nomatch h.2)
  | @ioTimeout g r _ | @requestErr g r _ | @newMail g r _ | @noMail g r _ =>
    left
    rcases reading_setPoll (c := c.setRequest r .exited) hr with ⟨-, hp⟩ | hw
    · cases hp
    · exact (reading_setRequest hw).resolve_left fun h => (nomatch h.2)
  | counted | begun | noConn | dropped | failed | answered =>
    exact .inl ((reading_setRequest (c := c) hr).resolve_left fun h => (nomatch h.2))
  | @requestIo r cmd e sh out hcmd hio =>
    cases out with
    | going cmd' =>
      rcases reading_setRequest (c := c) hr with ⟨rfl, hq⟩ | hw
      · have h' := Cmd.step_reading hio hq (.request r)
        simp only [Client.reading, hcmd, touch]
        exact h'
      · exact .inl hw
    | ok | failed | panicked =>
      exact .inl ((reading_setRequest (c := c) hr).resolve_left fun h => (nomatch h.2))

/-! ## Whole runs -/

/-- No request goroutine is known that has not been started. -/
def Unborn (c : Client) : Prop := ∀ r, c.nrequests ≤ r → c.requests r = .absent

theorem Unborn.setRequest (h : Unborn c) (hr : c.requests r ≠ .absent)
    (hn : c'.nrequests = c.nrequests) (hq : c'.requests = Function.update c.requests r q) :
    Unborn c' := by
  intro r' hle
  have habsent := h r' (hn ▸ hle)
  have hne : r' ≠ r := fun e => hr (e ▸ habsent)
  rw [hq, Function.update_of_ne hne, habsent]

theorem Unborn.stepped (h : Unborn c) (hs : Stepped env sig c l c') : Unborn c' := by
  cases hs with
  | alreadyIdling | started | connected | setupConn | dialled | dialErr | io | timer | stopPoll
  | stopAll | cancelled => exact h
  | spawned =>
    intro r hle
    have hlt : c.nrequests < r := hle
    exact (Function.update_of_ne (Nat.ne_of_gt hlt) _ _).trans (h r (Nat.le_of_lt hlt))
  | ioTimeout _ hr | requestErr _ hr | newMail _ hr | noMail _ hr | counted hr | begun hr | noConn hr
  | failed hr | answered hr => exact h.setRequest (by rw [hr]; simp) rfl rfl
  | dropped hr =>
    rcases hr with hr | ⟨t, hr⟩ <;> exact h.setRequest (by rw [hr]; simp) rfl rfl
  | @requestIo r cmd e sh out hr =>
    obtain ⟨q, wg, heq, -⟩ := requestOut_eq { c with sh := sh } r out
    rw [heq]
    exact h.setRequest (by rw [hr]; simp) rfl rfl

/-- No goroutine but `w` is within a call. -/
def OthersQuiet (s : Caller (client env).State) (w : Option Reader) : Prop :=
  (∀ g < s.launched, w = some (.poll g) ∨ (Client.polls s.mc g).reading = false) ∧
    ∀ r < Client.nrequests s.mc, w = some (.request r) ∨ (Client.requests s.mc r).reading = false

def Touch.Allowed (s : Caller (client env).State) : Touch → Prop
  | .opened => OthersQuiet s none
  | .began w timed => timed ∧ OthersQuiet s (some w)

/-- A call is not one of an `IDLE`, and it begins, or a connection is opened, only while no other
call is under way. -/
def Punctual (x : Clocked env) (a : CallerAct (client env).Label) : Prop :=
  ∀ t ∈ x.touched a, t.Allowed x.s

instance (s : Caller (client env).State) (w : Option Reader) : Decidable (OthersQuiet s w) :=
  inferInstanceAs (Decidable (_ ∧ _))

instance (s : Caller (client env).State) : (t : Touch) → Decidable (t.Allowed s)
  | .opened => inferInstanceAs (Decidable (OthersQuiet s none))
  | .began _ _ => inferInstanceAs (Decidable (_ ∧ _))

instance (x : Clocked env) (a : CallerAct (client env).Label) : Decidable (Punctual x a) :=
  inferInstanceAs (Decidable (∀ t ∈ x.touched a, t.Allowed x.s))

theorem OthersQuiet.not_reading {s : Caller (client env).State} (h : OthersQuiet s w)
    (hsound : Sound s) (hunborn : Unborn s.mc) (hne : w ≠ some w') :
    Client.reading s.mc w' = false := by
  cases w' with
  | poll g =>
    by_cases hg : g < s.launched
    · exact (h.1 g hg).resolve_left hne
    · show (Client.polls s.mc g).reading = false
      rw [(hsound.unborn g (Nat.le_of_not_lt hg)).1]
      rfl
  | request r =>
    by_cases hr : r < Client.nrequests s.mc
    · exact (h.2 r hr).resolve_left hne
    · show (Client.requests s.mc r).reading = false
      rw [hunborn r (Nat.le_of_not_lt hr)]
      rfl

/-- What a step of a caller can do to the calls. -/
theorem Clocked.reading_step {x : Clocked env} {a : CallerAct (client env).Label}
    {s' : Caller (client env).State} (hsound : Sound x.s)
    (hs : Caller.step (client env) x.s a = some s') {w : Reader} (hr : Client.reading s'.mc w) :
    Client.reading x.s.mc w ∨ ∃ timed, x.touched a = some (.began w timed) := by
  cases a with
  | launch =>
    cases hs
    exact .inl ((reading_setPoll hr).resolve_left fun h => (nomatch h.2))
  | take g =>
    obtain ⟨v, hv, rfl⟩ := Option.map_eq_some_iff.mp hs
    exact .inl ((reading_setPoll (c := x.s.mc) hr).resolve_left fun h => (nomatch h.2))
  | poll l =>
    obtain ⟨mc, hm, rfl⟩ := Option.map_eq_some_iff.mp hs
    exact (step_of_live hsound.live hm).reading hr
  | closePoll | closeAll | advance =>
    cases hs
    exact .inl hr

theorem Unborn.step {s s' : Caller (client env).State} {a : CallerAct (client env).Label}
    (hsound : Sound s) (h : Unborn s.mc) (hs : Caller.step (client env) s a = some s') :
    Unborn s'.mc := by
  cases a with
  | poll l =>
    obtain ⟨mc, hm, rfl⟩ := Option.map_eq_some_iff.mp hs
    exact h.stepped (step_of_live hsound.live hm)
  | take g =>
    obtain ⟨v, hv, rfl⟩ := Option.map_eq_some_iff.mp hs
    exact h
  | launch | closePoll | closeAll | advance =>
    cases hs
    exact h

/-- Every call is under its own deadline, and what is known about the goroutines. -/
structure Clocked.Timely (x : Clocked env) : Prop where
  sound : Sound x.s
  unborn : Unborn x.s.mc
  own : x.OwnDeadline

theorem Clocked.OwnDeadline.after {x : Clocked env} {s' : Caller (client env).State}
    (h : x.OwnDeadline) (hsound : Sound x.s) (hunborn : Unborn x.s.mc) (o : Option Touch)
    (hc : ∀ t ∈ o, t.Allowed x.s)
    (hr : ∀ w, Client.reading s'.mc w → Client.reading x.s.mc w ∨ ∃ timed, o = some (.began w timed)) :
    (x.after s' o).OwnDeadline := by
  intro w hw
  match o, hc, hr w hw with
  | none, _, hr => exact h w (hr.resolve_right fun ⟨_, e⟩ => (nomatch e))
  | some .opened, hc, hr =>
    have hquiet : OthersQuiet x.s none := hc _ rfl
    have hnot : Client.reading x.s.mc w = false := hquiet.not_reading hsound hunborn (by simp)
    rw [hr.resolve_right fun ⟨_, e⟩ => (nomatch e)] at hnot
    cases hnot
  | some (.began w₀ timed), hc, hr =>
    obtain ⟨rfl, hquiet⟩ : timed = true ∧ OthersQuiet x.s (some w₀) := hc _ rfl
    by_cases hw₀ : w = w₀
    · subst hw₀
      show some (x.s.now + replyTimeout) = Function.update x.asked w (some (x.s.now + replyTimeout)) w
      rw [Function.update_self]
    · have hnot := hquiet.not_reading hsound hunborn fun e => hw₀ (Option.some.inj e).symm
      have hreading := hr.resolve_right fun ⟨_, e⟩ => by
        cases e
        exact hw₀ rfl
      rw [hreading] at hnot
      cases hnot

theorem Clocked.Timely.step {x x' : Clocked env} {a : CallerAct (client env).Label}
    (h : x.Timely) (hc : Punctual x a) (hs : Clocked.step x a = some x') : x'.Timely := by
  obtain ⟨s', hs', rfl⟩ := Option.map_eq_some_iff.mp hs
  exact ⟨h.sound.step hs', h.unborn.step h.sound hs',
    h.own.after h.sound h.unborn _ hc fun w hr => Clocked.reading_step h.sound hs' hr⟩

theorem Clocked.fresh_timely : (Clocked.fresh env).Timely where
  sound := init_sound
  unborn _ _ := rfl
  own w hw := by cases w <;> cases hw

/-- In every run in which no `IDLE` begins a call, and no call begins while another one is under
way, every call of `getServerResponse` is under the deadline it has asked for: its waiting time
after it began. -/
theorem own_deadline (h : Run Clocked.step Punctual (Clocked.fresh env) as x) : x.OwnDeadline :=
  (h.inv Clocked.Timely.step Clocked.fresh_timely).own

/-- The `STATUS` of a poll waits for a line, five seconds after the poll was launched. -/
def statusActs : List (CallerAct Label) :=
  List.flatten [[.launch, .advance 5000000000], (statusSteps 0 0 "PINGR1 OK").map .poll,
    [.poll (.requestIo 0 .arm)]]

theorem own_deadline_status :
    ∃ x : Clocked statusEnv,
      Run Clocked.step Punctual (Clocked.fresh statusEnv) statusActs x ∧
      Client.reading x.s.mc (.request 0) ∧ x.deadline = some (milliseconds 305000) ∧
      x.OwnDeadline :=
  have h : Run Clocked.step Punctual (Clocked.fresh statusEnv) statusActs _ := Run.of_execIf rfl
  ⟨_, h, rfl, rfl, own_deadline h⟩

/-- The `IDLE` of a poll waits for a line, five seconds after its `EXAMINE`. -/
def idleActs : List (CallerAct Label) :=
  List.flatten [[.launch], (idleSteps 0 0 "PINGR1 OK" "PINGR2 OK").map .poll,
    [.advance 5000000000, .poll (.requestIo 0 .arm)]]

/-- The `IDLE` asks for no deadline and is under that of the `EXAMINE`. -/
theorem idle_under_examine_deadline :
    ∃ x : Clocked idleEnv,
      Run Clocked.step Free (Clocked.fresh idleEnv) idleActs x ∧
      Client.reading x.s.mc (.request 0) ∧ x.asked (.request 0) = none ∧
      x.deadline = some (milliseconds 300000) ∧ ¬x.OwnDeadline := by
  refine ⟨_, Run.of_exec rfl, rfl, rfl, rfl, fun h => ?_⟩
  have hown := h (.request 0) rfl
  cases hown

end Pinger.Imap

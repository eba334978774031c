import Pinger.Session.Start

/-! # What one step of a session can do

`StartStep` lists what a step of `start()` can do, guards included, and `start_cases` reads it off
the step function; `step_moves` says whose step it is and what it leaves alone. Every invariant of
a session is proved from these two. -/

namespace Pinger.Session

open GoTime EventFsm Transition

variable {M : MailClient} {cfg : Settings} {s s' : Ctx M.State}

/-! ## The state machine -/

/-- The event is legal in the state. -/
def Legal (current event : FSMState) : Prop := transitions fsmEvents event current = some event

instance : Decidable (Legal current event) := inferInstanceAs (Decidable (_ = _))

/-- An event is accepted only outside a transition, and it then leads to the state it names. -/
theorem begin_ok {f f' : Fsm FSMState} (h : begin fsmEvents f n = .ok f') :
    f.transition = none ∧ Legal f.current n ∧ f' = { f with transition := some n } := by
  obtain ⟨cur, tr⟩ := f
  cases tr with
  | some _ => simp [begin] at h
  | none =>
    refine ⟨rfl, ?_⟩
    revert h
    cases cur <;> cases n <;> simp [begin, transitions, fsmEvents, Legal] <;> exact Eq.symm

theorem leaveCallback_length (cur : FSMState) : (leaveCallback cur).length ≤ 2 := by
  cases cur <;> decide

/-! ## The steps of `start()` -/

/-- What a step of `start()` can do. -/
inductive StartStep (M : MailClient) (cfg : Settings) (s : Ctx M.State) : Ctx M.State → Prop
  | boot (hpc : s.pc = .boot) : StartStep M cfg s
      { s with fsm := { current := .init }, pc := .event (.deferred .deferred) .loop }
  | refused (hpc : s.pc = .event e k) (hb : begin fsmEvents s.fsm e.name = .error err) :
      StartStep M cfg s { s with pc := .panic (.event err) }
  | begun (hpc : s.pc = .event e k) (hb : begin fsmEvents s.fsm e.name = .ok fsm) :
      StartStep M cfg s { s with fsm := fsm, pc := .leave (leaveCallback s.fsm.current) e k }
  | leave (hpc : s.pc = .leave (op :: ops) e k) (hop : perform M cfg s op = some t) :
      StartStep M cfg s { t with pc := .leave ops e k }
  | transit (hpc : s.pc = .leave [] e k) : StartStep M cfg s
      { s with fsm := s.fsm.transit, pc := .enter (enterCallback e) k }
  | enter (hpc : s.pc = .enter (op :: ops) k) (hop : perform M cfg s op = some t) :
      StartStep M cfg s { t with pc := .enter ops k }
  | crash (hpc : (∃ op ops e k, s.pc = .leave (op :: ops) e k ∧ perform M cfg s op = none) ∨
      ∃ op ops k, s.pc = .enter (op :: ops) k ∧ perform M cfg s op = none) :
      StartStep M cfg s { s with pc := .panic .closeOfClosedChannel }
  | resumed (hpc : s.pc = .enter [] k) :
      StartStep M cfg s (resume M cfg { s with fsm := s.fsm.finish } k)
  | maxPoll (hpc : s.pc = .select) (ht : s.maxPollTimer.recv = some t) :
      StartStep M cfg s { s with maxPollTimer := t, pc := .push .maxPoll }
  | deferTick (hpc : s.pc = .select) (ht : s.deferTimer.recv = some t) :
      StartStep M cfg s { s with deferTimer := t, pc := .event .pinging .sent }
  | errCh (hpc : s.pc = .select) (hv : M.offer s.mc g = some v) :
      StartStep M cfg s (received M cfg { s with mc := M.taken s.mc g } v)
  | command (hpc : s.pc = .select) (hc : s.command = c :: cs) :
      StartStep M cfg s (handle M { s with command := cs } c)
  | pushed (hpc : s.pc = .push site) : StartStep M cfg s (pushed M cfg s site r)
  | recovered (hpc : s.pc = .panic p) : StartStep M cfg s { s with pc := .returned }
  | returned (hpc : s.pc = .returned) :
      StartStep M cfg s { s.setStatus .stopped none with pc := .waiting }
  | waited (hpc : s.pc = .waiting) (hwg : M.wg s.mc = 0) :
      StartStep M cfg s { s with pc := .cleanup }
  | cleanup (hpc : s.pc = .cleanup) : StartStep M cfg s { s with di := false, pc := .cleanupClient }
  | cleanupClient (hpc : s.pc = .cleanupClient) : StartStep M cfg s
      { s with mc := M.cleanup s.mc, mailClient := false, pc := .done }

/-- A step of `start()` at a branch of its select. -/
theorem select_cases {f : τ → Ctx M.State} {o : Option τ}
    (h : (if s.pc = .select then o.map f else none) = some s') :
    s.pc = .select ∧ ∃ t, o = some t ∧ f t = s' := by
  split at h
  · exact ⟨‹_›, Option.map_eq_some_iff.mp h⟩
  · cases h

theorem command_cases (h : start M cfg s .command = some s') :
    s.pc = .select ∧ ∃ c cs, s.command = c :: cs ∧ s' = handle M { s with command := cs } c := by
  simp only [start] at h
  split at h
  next hpc =>
    split at h
    next => cases h
    next c cs hc => cases h; exact ⟨hpc, c, cs, hc, rfl⟩
  next => cases h

theorem pushed_cases (h : start M cfg s (.pushed r) = some s') :
    ∃ site, s.pc = .push site ∧ s' = pushed M cfg s site r := by
  simp only [start] at h
  split at h
  next site hpc => cases h; exact ⟨site, hpc, rfl⟩
  next => cases h

theorem start_go_cases (h : start M cfg s .go = some s') : StartStep M cfg s s' := by
  simp only [start] at h
  split at h
  next hpc => cases h; exact .boot hpc
  next e k hpc =>
    split at h
    next hb => cases h; exact .refused hpc hb
    next hb => cases h; exact .begun hpc hb
  next op ops e k hpc =>
    split at h
    next hop => cases h; exact .leave hpc hop
    next hop => cases h; exact .crash (.inl ⟨_, _, _, _, hpc, hop⟩)
  next hpc => cases h; exact .transit hpc
  next op ops k hpc =>
    split at h
    next hop => cases h; exact .enter hpc hop
    next hop => cases h; exact .crash (.inr ⟨_, _, _, hpc, hop⟩)
  next hpc => cases h; exact .resumed hpc
  next hpc => cases h; exact .recovered hpc
  next hpc => cases h; exact .returned hpc
  next hpc =>
    split at h
    next hwg => cases h; exact .waited hpc hwg
    next => cases h
  next hpc => cases h; exact .cleanup hpc
  next hpc => cases h; exact .cleanupClient hpc
  next => cases h

theorem start_cases {p : Pick} (h : start M cfg s p = some s') : StartStep M cfg s s' := by
  cases p with
  | go => exact start_go_cases h
  | maxPoll =>
    obtain ⟨hpc, t, ht, rfl⟩ := select_cases h
    exact .maxPoll hpc ht
  | deferTick =>
    obtain ⟨hpc, t, ht, rfl⟩ := select_cases h
    exact .deferTick hpc ht
  | errCh g =>
    obtain ⟨hpc, v, hv, rfl⟩ := select_cases h
    exact .errCh hpc hv
  | command =>
    obtain ⟨hpc, c, cs, hc, rfl⟩ := command_cases h
    exact .command hpc hc
  | pushed r =>
    obtain ⟨site, hpc, rfl⟩ := pushed_cases h
    exact .pushed hpc

/-- `start()` chooses only at its select and at the end of a push. -/
theorem start_pick {p : Pick} (h : start M cfg s p = some s') (hp : p ≠ .go) :
    s.pc = .select ∨ ∃ site, s.pc = .push site := by
  cases p with
  | go => exact absurd rfl hp
  | pushed r =>
    obtain ⟨site, hpc, -⟩ := pushed_cases h
    exact .inr ⟨site, hpc⟩
  | _ =>
    simp only [start] at h
    split at h
    · exact .inl ‹_›
    · cases h

theorem start_go_pc (h : start M cfg s .go = some s') :
    s.pc ≠ .select ∧ ∀ site, s.pc ≠ .push site := by
  refine ⟨fun hpc => ?_, fun site hpc => ?_⟩
  · simp [start, hpc] at h
  · simp [start, hpc] at h

/-! ## The code of a branch

What the code of a select branch does once it has its value: it changes little besides the program
counter, and goes on to a push or to the event `stopped`. -/

/-- The event and the code after it belong together. -/
def Fits : FsmEvent → Cont → Prop
  | .deferred _, .loop | .pinging, .sent => True
  | .stopped _ _, .ret | .stopped _ _, .rearm | .stopped _ _, .redefer => True
  | _, _ => False

theorem Fits.deferred (h : Fits (.deferred st) k) : k = .loop := by
  cases k <;> first | rfl | cases h

theorem Fits.pinging (h : Fits .pinging k) : k = .sent := by
  cases k <;> first | rfl | cases h

/-- `start()` pushes, or stops the session. -/
inductive Pc.Stops : Pc → Prop
  | push : Stops (.push site)
  | event (hk : Fits (.stopped st err) k) : Stops (.event (.stopped st err) k)

theorem received_eq (cfg : Settings) (s : Ctx M.State) (v : PollResult) :
    ∃ pc, received M cfg s v = { s with pc := pc } ∧ pc.Stops := by
  cases v with
  | newMail =>
    simp only [received]
    split
    · exact ⟨_, rfl, .push⟩
    · exact ⟨_, rfl, .event trivial⟩
  | reRegister => exact ⟨_, rfl, .push⟩
  | error msg => exact ⟨_, rfl, .event trivial⟩

theorem pushed_eq (cfg : Settings) (s : Ctx M.State) (site : PushSite) (r : PushResult) :
    ∃ di pc, pushed M cfg s site r = { s with di := di, pc := pc } ∧
      (pc.Stops ∨ pc = .returned) := by
  cases site with
  | maxPoll => exact ⟨_, _, rfl, .inl (.event trivial)⟩
  | reRegister => exact ⟨_, _, rfl, .inl (.event trivial)⟩
  | newMail =>
    simp only [pushed]
    split
    · exact ⟨_, _, rfl, .inr rfl⟩
    · exact ⟨s.di, _, rfl, .inl (.event trivial)⟩

theorem handle_eq (s : Ctx M.State) (c : PingerCommand) :
    ∃ stopAll pc, handle M s c = { s with stopAll := stopAll, pc := pc } ∧
      (pc.Stops ∨ pc = s.pc) := by
  cases c with
  | stop => exact ⟨_, _, rfl, .inl (.event trivial)⟩
  | defer => exact ⟨s.stopAll, _, rfl, .inl (.event trivial)⟩
  | other n => exact ⟨s.stopAll, s.pc, rfl, .inr rfl⟩

/-- Where `start()` goes on after an event: to its select, out of its loop, or from `stopped` back
to `deferred`. -/
inductive Resumes : Cont → Pc → Prop
  | loop : Resumes .loop .select
  | sent : Resumes .sent .select
  | left : Resumes k .returned
  | again (hk : k = .rearm ∨ k = .redefer) : Resumes k (.event (.deferred st) .loop)

theorem resume_eq (cfg : Settings) (s : Ctx M.State) (k : Cont) :
    ∃ n w t pc, resume M cfg s k =
      { s with rearmingCount := n, waitBeforeUse := w, timeSent := t, pc := pc } ∧
        Resumes k pc := by
  cases k with
  | loop => exact ⟨s.rearmingCount, s.waitBeforeUse, s.timeSent, _, rfl, .loop⟩
  | ret => exact ⟨s.rearmingCount, s.waitBeforeUse, s.timeSent, _, rfl, .left⟩
  | sent => exact ⟨s.rearmingCount, s.waitBeforeUse, _, _, rfl, .sent⟩
  | rearm =>
    simp only [resume]
    split
    · exact ⟨_, _, s.timeSent, _, rfl, .again (.inl rfl)⟩
    · exact ⟨s.rearmingCount, s.waitBeforeUse, s.timeSent, _, rfl, .left⟩
  | redefer => exact ⟨_, s.waitBeforeUse, s.timeSent, _, rfl, .again (.inr rfl)⟩

theorem perform_closeStopPollCh (h : perform M cfg s .closeStopPollCh = some s') :
    ∃ g, s.stopPollCh = some g ∧ g ∉ s.closedPoll ∧
      s' = { s with closedPoll := g :: s.closedPoll } := by
  simp only [perform] at h
  split at h
  · cases h
  next g hg =>
    split at h <;> cases h
    next hopen => exact ⟨g, hg, hopen, rfl⟩

/-- What no operation of a callback touches. -/
structure Kept (s s' : Ctx σ) : Prop where
  fsm : s'.fsm = s.fsm
  command : s'.command = s.command
  stopAll : s'.stopAll = s.stopAll
  di : s'.di = s.di
  mailClient : s'.mailClient = s.mailClient

theorem perform_keeps (h : perform M cfg s op = some s') : Kept s s' := by
  cases op with
  | goLongPoll =>
    obtain ⟨g, _, rfl⟩ := Option.map_eq_some_iff.mp h
    exact ⟨rfl, rfl, rfl, rfl, rfl⟩
  | closeStopPollCh =>
    obtain ⟨g, -, -, rfl⟩ := perform_closeStopPollCh h
    exact ⟨rfl, rfl, rfl, rfl, rfl⟩
  | _ =>
    cases h
    exact ⟨rfl, rfl, rfl, rfl, rfl⟩

/-- The next operation launches a `LongPoll`. -/
def Pc.launches : Pc → Bool
  | .leave (.goLongPoll :: _) _ _ | .enter (.goLongPoll :: _) _ => true
  | _ => false

/-- What `start()` does to the mail client. -/
inductive Drives (M : MailClient) (s : Ctx M.State) : M.State → Prop
  | idle : Drives M s s.mc
  | launch (hg : s.stopPollCh = some g) (hpc : s.pc.launches) : Drives M s (M.launch s.mc g)
  | taken (hpc : s.pc = .select) (hv : M.offer s.mc g = some v) : Drives M s (M.taken s.mc g)
  | cleanup (hpc : s.pc = .cleanupClient) : Drives M s (M.cleanup s.mc)

theorem perform_drives (h : perform M cfg s op = some s')
    (hpc : op = .goLongPoll → s.pc.launches) : Drives M s s'.mc := by
  cases op with
  | goLongPoll =>
    obtain ⟨g, hg, rfl⟩ := Option.map_eq_some_iff.mp h
    exact .launch hg (hpc rfl)
  | closeStopPollCh =>
    obtain ⟨g, -, -, rfl⟩ := perform_closeStopPollCh h
    exact .idle
  | _ => cases h; exact .idle

theorem StartStep.drives (h : StartStep M cfg s s') : Drives M s s'.mc := by
  cases h with
  | leave hpc hop | enter hpc hop =>
    have := perform_drives hop fun e => by rw [hpc, e]; rfl
    exact this
  | resumed =>
    obtain ⟨_, _, _, _, heq, -⟩ := resume_eq cfg { s with fsm := s.fsm.finish } _
    rw [heq]
    exact .idle
  | errCh hpc hv =>
    obtain ⟨_, heq, -⟩ := received_eq cfg { s with mc := M.taken s.mc _ } _
    rw [heq]
    exact .taken hpc hv
  | command =>
    obtain ⟨_, _, heq, -⟩ := handle_eq { s with command := _ } _
    rw [heq]
    exact .idle
  | pushed =>
    obtain ⟨_, _, heq, -⟩ := pushed_eq cfg s _ _
    rw [heq]
    exact .idle
  | cleanupClient hpc => exact .cleanup hpc
  | _ => exact .idle

/-! ## The command queue -/

theorem StartStep.command_eq (h : StartStep M cfg s s') :
    s'.command = s.command ∨ ∃ c, s.command = c :: s'.command := by
  cases h with
  | leave _ hop | enter _ hop => exact .inl (perform_keeps hop).command
  | resumed =>
    obtain ⟨_, _, _, _, heq, -⟩ := resume_eq cfg { s with fsm := s.fsm.finish } _
    exact .inl (heq ▸ rfl)
  | errCh =>
    obtain ⟨_, heq, -⟩ := received_eq cfg { s with mc := M.taken s.mc _ } _
    exact .inl (heq ▸ rfl)
  | @command c cs _ hc =>
    obtain ⟨_, _, heq, -⟩ := handle_eq { s with command := cs } c
    rw [heq]
    exact .inr ⟨c, hc⟩
  | pushed =>
    obtain ⟨_, _, heq, -⟩ := pushed_eq cfg s _ _
    exact .inl (heq ▸ rfl)
  | _ => exact .inl rfl

/-- After its loop `start()` receives nothing. -/
theorem StartStep.after_loop (h : StartStep M cfg s s') (hleft : s.pc.left) :
    s'.pc.left ∧ s'.command = s.command := by
  cases h with
  | returned | waited | cleanup | cleanupClient => exact ⟨rfl, rfl⟩
  | crash hpc =>
    rcases hpc with ⟨_, _, _, _, hpc, _⟩ | ⟨_, _, _, hpc, _⟩ <;> rw [hpc] at hleft <;> cases hleft
  | boot hpc | refused hpc | begun hpc | leave hpc | transit hpc | enter hpc | resumed hpc
  | maxPoll hpc | deferTick hpc | errCh hpc | command hpc | pushed hpc | recovered hpc =>
    rw [hpc] at hleft
    cases hleft

/-- In its loop `start()` can go on, except that it may have to wait at its select. -/
theorem start_goes (cfg : Settings) (hleft : s.pc.left = false) (hsel : s.pc ≠ .select) :
    ∃ p, (start M cfg s p).isSome := by
  cases hpc : s.pc with
  | select => exact absurd hpc hsel
  | push site => exact ⟨.pushed .ok, by simp [start, hpc]⟩
  | event e k =>
    refine ⟨.go, ?_⟩
    simp only [start, hpc]
    split <;> rfl
  | leave ops e k =>
    refine ⟨.go, ?_⟩
    cases ops with
    | nil => simp [start, hpc]
    | cons op ops =>
      simp only [start, hpc]
      split <;> rfl
  | enter ops k =>
    refine ⟨.go, ?_⟩
    cases ops with
    | nil => simp [start, hpc]
    | cons op ops =>
      simp only [start, hpc]
      split <;> rfl
  | boot | panic => exact ⟨.go, by simp [start, hpc]⟩
  | returned | waiting | cleanup | cleanupClient | done => rw [hpc] at hleft; cases hleft

/-- A queued command is received at the select. -/
theorem start_enabled (cfg : Settings) (hleft : s.pc.left = false) (hc : s.command ≠ []) :
    ∃ p, (start M cfg s p).isSome := by
  by_cases hpc : s.pc = .select
  · refine ⟨.command, ?_⟩
    obtain ⟨c, cs, hc⟩ := List.exists_cons_of_ne_nil hc
    simp [start, hpc, hc]
  · exact start_goes cfg hleft hpc

/-! ## The other steps -/

/-- The part of a session only `start()` changes. -/
structure SameLoop (s s' : Ctx σ) : Prop where
  pc : s'.pc = s.pc
  fsm : s'.fsm = s.fsm
  stopPollCh : s'.stopPollCh = s.stopPollCh
  madePoll : s'.madePoll = s.madePoll
  closedPoll : s'.closedPoll = s.closedPoll
  stopAll : s'.stopAll = s.stopAll

/-- Whose step it is: of `start()`, of the mail client, of the deferral timer, or of something that
leaves all three alone. -/
inductive Moves (M : MailClient) (cfg : Settings) (s : Ctx M.State) :
    Act M.Label → Ctx M.State → Prop
  | start (h : start M cfg s p = some t) : Moves M cfg s (.start p) t
  | poll (hf : SameLoop s { s with mc := mc }) (h : M.step s.signals s.mc l = some mc) :
      Moves M cfg s (.poll l) { s with mc := mc }
  | expire (hf : SameLoop s { s with deferTimer := t }) (h : s.deferTimer.expire s.now = some t) :
      Moves M cfg s .expireDefer { s with deferTimer := t }
  | other (hf : SameLoop s t) (hmc : t.mc = s.mc) (ht : t.deferTimer = s.deferTimer) :
      Moves M cfg s a t

theorem step_moves {a : Act M.Label} (h : step M cfg s a = some s') : Moves M cfg s a s' := by
  cases a with
  | start p => exact .start h
  | advance d => cases h; exact .other ⟨rfl, rfl, rfl, rfl, rfl, rfl⟩ rfl rfl
  | expireDefer =>
    obtain ⟨t, ht, rfl⟩ := Option.map_eq_some_iff.mp h
    exact .expire ⟨rfl, rfl, rfl, rfl, rfl, rfl⟩ ht
  | expireMax =>
    obtain ⟨t, _, rfl⟩ := Option.map_eq_some_iff.mp h
    exact .other ⟨rfl, rfl, rfl, rfl, rfl, rfl⟩ rfl rfl
  | command c =>
    simp only [step, Ctx.action] at h
    split at h <;> cases h
    exact .other ⟨rfl, rfl, rfl, rfl, rfl, rfl⟩ rfl rfl
  | setWait timeout =>
    simp only [step] at h
    split at h <;> cases h <;> exact .other ⟨rfl, rfl, rfl, rfl, rfl, rfl⟩ rfl rfl
  | poll l =>
    obtain ⟨mc, hs, rfl⟩ := Option.map_eq_some_iff.mp h
    exact .poll ⟨rfl, rfl, rfl, rfl, rfl, rfl⟩ hs

/-- The part of a session the steps of others can change. -/
theorem step_other {a : Act M.Label} (h : step M cfg s a = some s') (ha : ∀ p, a ≠ .start p) :
    ∃ now d m c w mc, s' = { s with
      now := now, deferTimer := d, maxPollTimer := m, command := c, waitBeforeUse := w, mc := mc } := by
  cases a with
  | start p => exact absurd rfl (ha p)
  | advance => cases h; exact ⟨_, _, _, _, _, _, rfl⟩
  | expireDefer | expireMax | poll =>
    obtain ⟨t, _, rfl⟩ := Option.map_eq_some_iff.mp h
    exact ⟨_, _, _, _, _, _, rfl⟩
  | command c =>
    simp only [step, Ctx.action] at h
    split at h <;> cases h
    exact ⟨_, _, _, _, _, _, rfl⟩
  | setWait timeout =>
    simp only [step] at h
    split at h <;> cases h <;> exact ⟨_, _, _, _, _, _, rfl⟩

/-- The steps a session takes by itself, apart from the clock. -/
def Act.own : Act L → Bool
  | .start _ | .poll _ | .expireDefer | .expireMax => true
  | .advance _ | .command _ | .setWait _ => false

theorem step_own_command {a : Act M.Label} (ha : a.own) (h : step M cfg s a = some s') :
    (s'.command = s.command ∨ ∃ c, s.command = c :: s'.command) ∧
      (s.pc.left → s'.pc.left ∧ s'.command = s.command) := by
  cases a with
  | start p =>
    have hs := start_cases h
    exact ⟨hs.command_eq, hs.after_loop⟩
  | poll l =>
    obtain ⟨mc, _, rfl⟩ := Option.map_eq_some_iff.mp h
    exact ⟨.inl rfl, fun hleft => ⟨hleft, rfl⟩⟩
  | expireDefer | expireMax =>
    obtain ⟨t, _, rfl⟩ := Option.map_eq_some_iff.mp h
    exact ⟨.inl rfl, fun hleft => ⟨hleft, rfl⟩⟩
  | advance | command | setWait => cases ha

end Pinger.Session

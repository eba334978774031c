import Pinger.Exchange.LongPoll
import Pinger.Session.Steps

/-! # The events `start()` sends to its state machine

Every select branch sends one or two events and panics when one of them is refused. In `pinging`
the only illegal event is `pinging` itself, which a tick of the deferral timer sends. Such a tick
can be there: `enterDeferred` arms the timer anew and leaves an old tick in the slot, so the timer
may expire once more when `start()` has received the old tick and has not yet stopped the timer in
`exitDeferred`. Outside that window no event is ever refused. -/

namespace Pinger.Session

open GoTime EventFsm Transition

variable {M : MailClient} {cfg : Settings} {s s' : Ctx M.State}

/-- `start()` has received a tick of the deferral timer and has not yet stopped the timer. -/
def Pc.tickWindow : Pc → Bool
  | .event .pinging _ => true
  | .leave (_ :: _) .pinging _ => true
  | _ => false

/-- The deferral timer does not expire inside the window. -/
def NoExpiryInWindow (s : Ctx σ) : Act L → Prop
  | .expireDefer => s.pc.tickWindow = false
  | _ => True

instance (s : Ctx σ) : (a : Act L) → Decidable (NoExpiryInWindow s a)
  | .expireDefer => inferInstanceAs (Decidable (_ = false))
  | .advance _ | .expireMax | .start _ | .command _ | .setWait _ | .poll _ => .isTrue trivial

/-! ## The invariant -/

/-- The states in which `start()` sends an event. -/
def Sendable (current : FSMState) : FsmEvent → Prop
  | .deferred _ => current = .stopped ∨ current = .init
  | .pinging => current = .deferred
  | .stopped _ _ => current = .deferred ∨ current = .pinging

/-- The deferral timer is not armed and no tick waits. -/
def Quiet (s : Ctx σ) : Prop := s.deferTimer.deadline = none ∧ s.deferTimer.tick = none

/-- The state machine while `start()` is in the callbacks that end in the code `k`. -/
def Entered (s : Ctx σ) (ops : List Op) : Cont → Prop
  | .loop => s.fsm = ⟨.deferred, some .deferred⟩
  | .sent => s.fsm = ⟨.pinging, some .pinging⟩ ∧ Quiet s ∧ ∀ op ∈ ops, op ∈ enterPinging
  | .ret | .rearm | .redefer => s.fsm = ⟨.stopped, some .stopped⟩

/-- The event `start()` is about to send is legal, and in `pinging` the timer is quiet. -/
def EventsLegal (s : Ctx σ) : Prop :=
  match s.pc with
  | .event e k => s.fsm.transition = none ∧ Fits e k ∧ Sendable s.fsm.current e ∧
      (e = .pinging → s.deferTimer.tick = none)
  | .leave ops e k => s.fsm.transition = some e.name ∧ Fits e k ∧
      (e = .pinging → s.deferTimer.tick = none ∧
        (ops = exitDeferred ∨ ops = [] ∧ s.deferTimer.deadline = none))
  | .enter ops k => Entered s ops k
  | .select => s.fsm.transition = none ∧
      (s.fsm.current = .deferred ∨ s.fsm.current = .pinging ∧ Quiet s)
  | .push _ => s.fsm.transition = none ∧ (s.fsm.current = .deferred ∨ s.fsm.current = .pinging)
  | .panic p => p = .closeOfClosedChannel
  | _ => True

theorem begin_of_sendable {f : Fsm FSMState} (ht : f.transition = none)
    (h : Sendable f.current e) : begin fsmEvents f e.name = .ok { f with transition := some e.name } := by
  obtain ⟨cur, tr⟩ := f
  cases ht
  cases e with
  | pinging => cases h; rfl
  | deferred st => rcases h with h | h <;> cases h <;> rfl
  | stopped st err => rcases h with h | h <;> cases h <;> rfl

/-! ## One step -/

/-- The callback of `pinging` does not touch the deferral timer. -/
theorem perform_enterPinging (hop : op ∈ enterPinging) (h : perform M cfg s op = some s') :
    s'.deferTimer = s.deferTimer := by
  simp only [enterPinging, List.mem_cons, List.not_mem_nil, or_false] at hop
  rcases hop with rfl | rfl | rfl
  · cases h; rfl
  · cases h; rfl
  · obtain ⟨g, _, rfl⟩ := Option.map_eq_some_iff.mp h; rfl

/-- From the head of the loop a branch can push and can send `stopped`. -/
theorem eventsLegal_stops {s : Ctx σ} (hpc : s.pc.Stops) (ht : s.fsm.transition = none)
    (hcur : s.fsm.current = .deferred ∨ s.fsm.current = .pinging) : EventsLegal s := by
  unfold EventsLegal
  cases hs : s.pc with
  | push site => exact ⟨ht, hcur⟩
  | event e k =>
    rw [hs] at hpc
    cases hpc with
    | event hk => exact ⟨ht, hk, hcur, by simp⟩
  | _ => rw [hs] at hpc; cases hpc

/-- The state machine has entered the state the event names. -/
theorem eventsLegal_transit (hl : EventsLegal s) (hpc : s.pc = .leave [] e k) :
    EventsLegal { s with fsm := s.fsm.transit, pc := .enter (enterCallback e) k } := by
  simp only [EventsLegal, hpc] at hl ⊢
  obtain ⟨ht, hk, hping⟩ := hl
  have hfsm : s.fsm.transit = ⟨e.name, some e.name⟩ := by simp [Fsm.transit, ht]
  cases e with
  | deferred st =>
    cases hk.deferred
    exact hfsm
  | pinging =>
    cases hk.pinging
    obtain ⟨htick, hops⟩ := hping rfl
    rcases hops with hops | ⟨-, hdl⟩
    · cases hops
    · exact ⟨hfsm, ⟨hdl, htick⟩, fun op h => h⟩
  | stopped st err => cases k <;> first | exact hfsm | cases hk

/-- The code after an event finds the next event legal. -/
theorem eventsLegal_resume (h : Entered s [] k) :
    EventsLegal (resume M cfg { s with fsm := s.fsm.finish } k) := by
  obtain ⟨n, w, t, pc, heq, hr⟩ := resume_eq cfg { s with fsm := s.fsm.finish } k
  rw [heq]
  cases hr with
  | loop =>
    have hfsm : s.fsm = ⟨.deferred, some .deferred⟩ := h
    exact ⟨rfl, .inl (by rw [hfsm]; rfl)⟩
  | sent =>
    obtain ⟨hfsm, hq, -⟩ := h
    exact ⟨rfl, .inr ⟨by rw [hfsm]; rfl, hq⟩⟩
  | left => trivial
  | again hk =>
    have hfsm : s.fsm = ⟨.stopped, some .stopped⟩ := by rcases hk with rfl | rfl <;> exact h
    exact ⟨rfl, trivial, .inl (by rw [hfsm]; rfl), by simp⟩

/-- A step of `start()` keeps the invariant: no branch sends an event that is refused. -/
theorem StartStep.eventsLegal (h : StartStep M cfg s s') (hl : EventsLegal s) :
    EventsLegal s' := by
  cases h with
  | boot hpc => exact ⟨rfl, trivial, .inr rfl, by simp⟩
  | refused hpc hb =>
    simp only [EventsLegal, hpc] at hl
    rw [begin_of_sendable hl.1 hl.2.2.1] at hb
    cases hb
  | begun hpc hb =>
    simp only [EventsLegal, hpc] at hl ⊢
    obtain ⟨ht, hk, hsend, htick⟩ := hl
    rw [begin_of_sendable ht hsend] at hb
    cases hb
    refine ⟨rfl, hk, fun he => ⟨htick he, .inl ?_⟩⟩
    subst he
    rw [show s.fsm.current = .deferred from hsend]
    rfl
  | @leave op ops e k t hpc hop =>
    simp only [EventsLegal, hpc] at hl ⊢
    obtain ⟨ht, hk, hping⟩ := hl
    refine ⟨by rw [(perform_keeps hop).fsm, ht], hk, fun he => ?_⟩
    obtain ⟨htick, hops⟩ := hping he
    rcases hops with hops | ⟨hops, -⟩
    · cases hops
      cases hop
      exact ⟨htick, .inr ⟨rfl, rfl⟩⟩
    · cases hops
  | transit hpc => exact eventsLegal_transit hl hpc
  | @enter op ops k t hpc hop =>
    simp only [EventsLegal, hpc] at hl ⊢
    have hfsm := (perform_keeps hop).fsm
    cases k with
    | sent =>
      obtain ⟨hf, hq, hmem⟩ := hl
      have htimer := perform_enterPinging (hmem op List.mem_cons_self) hop
      exact ⟨hfsm.trans hf, by simpa only [Quiet, htimer] using hq,
        fun o ho => hmem o (List.mem_cons_of_mem _ ho)⟩
    | _ => exact hfsm.trans hl
  | crash hpc => rfl
  | resumed hpc =>
    simp only [EventsLegal, hpc] at hl
    exact eventsLegal_resume hl
  | maxPoll hpc ht =>
    simp only [EventsLegal, hpc] at hl
    exact ⟨hl.1, hl.2.imp id And.left⟩
  | @deferTick t hpc ht =>
    simp only [EventsLegal, hpc] at hl
    obtain ⟨htr, hcur | ⟨-, -, htick⟩⟩ := hl
    · exact ⟨htr, trivial, hcur, fun _ => by rw [Timer.recv_eq_some ht]⟩
    · -- in `pinging` no tick waits
      rw [Timer.recv_of_tick_none htick] at ht
      cases ht
  | errCh hpc hv =>
    simp only [EventsLegal, hpc] at hl
    obtain ⟨pc, heq, hpc'⟩ := received_eq cfg { s with mc := M.taken s.mc _ } _
    rw [heq]
    exact eventsLegal_stops hpc' hl.1 (hl.2.imp id And.left)
  | command hpc hc =>
    simp only [EventsLegal, hpc] at hl
    obtain ⟨_, pc, heq, hpc'⟩ := handle_eq { s with command := _ } _
    rw [heq]
    rcases hpc' with hpc' | hpc'
    · exact eventsLegal_stops hpc' hl.1 (hl.2.imp id And.left)
    · subst hpc'
      simp only [EventsLegal, hpc]
      exact hl
  | pushed hpc =>
    simp only [EventsLegal, hpc] at hl
    obtain ⟨_, pc, heq, hpc'⟩ := pushed_eq cfg s _ _
    rw [heq]
    rcases hpc' with hpc' | rfl
    · exact eventsLegal_stops hpc' hl.1 hl.2
    · trivial
  | _ => trivial

/-- A step that leaves the loop where it is and the timer alone keeps the invariant. -/
theorem EventsLegal.frame {s s' : Ctx σ} (hl : EventsLegal s) (hf : SameLoop s s')
    (ht : s'.deferTimer = s.deferTimer) : EventsLegal s' := by
  unfold EventsLegal at hl ⊢
  rw [hf.pc]
  revert hl
  cases s.pc <;> simp only [hf.fsm, ht, Quiet, imp_self]
  rename_i k
  cases k <;> simp only [Entered, hf.fsm, ht, Quiet, imp_self]

/-- An expiry of the deferral timer outside the window keeps the invariant: where a tick would
do harm the timer is not armed. -/
theorem eventsLegal_expire (hl : EventsLegal s) (hw : s.pc.tickWindow = false)
    (h : s.deferTimer.expire s.now = some t) : EventsLegal { s with deferTimer := t } := by
  have hdl : s.deferTimer.deadline ≠ none := fun hd => by
    rw [Timer.expire_of_deadline_none hd] at h
    cases h
  unfold EventsLegal at hl ⊢
  revert hl hw
  cases hpc : s.pc with
  | event e k =>
    intro hl hw
    cases e with
    | pinging => simp [Pc.tickWindow] at hw
    | _ => exact ⟨hl.1, hl.2.1, hl.2.2.1, by simp⟩
  | leave ops e k =>
    intro hl hw
    cases e with
    | pinging =>
      rcases (hl.2.2 rfl).2 with rfl | ⟨-, hd⟩
      · simp [Pc.tickWindow, exitDeferred] at hw
      · exact absurd hd hdl
    | _ => exact ⟨hl.1, hl.2.1, by simp⟩
  | enter ops k =>
    intro hl _
    cases k with
    | sent => exact absurd hl.2.1.1 hdl
    | _ => exact hl
  | select =>
    intro hl _
    obtain ⟨htr, hcur | ⟨-, hd, -⟩⟩ := hl
    · exact ⟨htr, .inl hcur⟩
    · exact absurd hd hdl
  | _ => exact fun hl _ => hl

theorem step_eventsLegal {a : Act M.Label} (hl : EventsLegal s) (hc : NoExpiryInWindow s a)
    (h : step M cfg s a = some s') : EventsLegal s' := by
  cases step_moves h with
  | start h => exact (start_cases h).eventsLegal hl
  | poll hf => exact hl.frame hf rfl
  | expire _ he => exact eventsLegal_expire hl hc he
  | other hf _ ht => exact hl.frame hf ht

/-! ## Whole runs -/

/-- As long as the deferral timer does not expire between the receipt of one of its ticks and its
stop in `exitDeferred`, no call of `fsm.Event` in `start()` returns an error, whatever the wait
time, the mail client and the order of timers, commands and results. -/
theorem no_event_refused (h : Run (step M cfg) NoExpiryInWindow (init M cfg) as s)
    (err : EventError FSMState) : s.pc ≠ .panic (.event err) := by
  intro hpc
  have hl : EventsLegal s := h.inv step_eventsLegal trivial
  simp [EventsLegal, hpc] at hl

/-! ## Concrete runs -/

/-- An ActiveSync session that starts to poll at once. -/
def eagerSettings : Settings where
  protocol := GoString.lit "ActiveSync"
  responseTimeout := 600000
  maxPollTimeout := 172800000
  waitBeforeUse := 0
  reArmTimeout := 10
  ignorePushFailures := false

/-- `n` steps of `start()` inside its callbacks. -/
def goSteps (n : Nat) : List (Act L) := List.replicate n (.start .go)

/-- From the start to the head of the loop in `deferred`. -/
def bootActs : List (Act L) := goSteps 9

/-- From a tick of the deferral timer to the head of the loop in `pinging`. -/
def pingActs : List (Act L) := .start .deferTick :: goSteps 7

/-- From the start to the head of the loop in `pinging`. -/
def eagerActs : List (Act L) := List.flatten [bootActs, [.expireDefer], pingActs]

theorem no_event_refused_eager :
    ∃ s, Run (step (Exchange.client { pi := {} }) eagerSettings) NoExpiryInWindow
        (init _ eagerSettings) eagerActs s ∧
      s.fsm.current = .pinging ∧ ∀ err, s.pc ≠ .panic (.event err) :=
  have h : Run (step (Exchange.client { pi := {} }) eagerSettings) NoExpiryInWindow
      (init _ eagerSettings) eagerActs _ := Run.of_execIf rfl
  ⟨_, h, rfl, fun err => no_event_refused h err⟩

/-- The deferral timer expires early, and again behind the receive. -/
def staleActs : List (Act L) :=
  List.flatten [goSteps 4, [.expireDefer], goSteps 5, [.start .deferTick, .expireDefer], goSteps 7,
    [.start .deferTick, .start .go]]

/-- The timer of `leaveInit` has expired when `enterDeferred` arms it anew, and expires again when
`start()` has received the first tick: the second tick finds the session in `pinging`. -/
theorem stale_tick_refused :
    ∃ s, Run (step (Exchange.client { pi := {} }) eagerSettings) Free (init _ eagerSettings)
        staleActs s ∧
      s.pc = .panic (.event (.invalidEvent .pinging .pinging)) :=
  ⟨_, Run.of_exec rfl, rfl⟩

end Pinger.Session

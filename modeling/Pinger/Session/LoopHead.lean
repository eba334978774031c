import Pinger.Session.Results

/-! # The head of the loop of `start()`

Whenever `start()` is about to select, its state machine, its status, its stop channels and its
deferral timer agree. An event that is refused, or a channel closed twice, would end the loop
instead of coming back to its head; the second never happens. -/

namespace Pinger.Session

open GoTime EventFsm Transition

variable {M : MailClient} {cfg : Settings} {s s' : Ctx M.State}

/-! ## The invariant -/

/-- The status of a session in `deferred`. -/
def Waits (st : MailClientStatus) : Prop := st = .deferred ∨ st = .reDeferred

/-- The stop channel of the current poll is open. -/
def Polling (s : Ctx σ) : Prop := ∃ g, s.stopPollCh = some g ∧ s.PollOpen g

/-- The session is in `deferred` and will be woken. -/
structure Deferring (s : Ctx σ) : Prop where
  status : Waits s.status
  noError : s.lastError = none
  live : s.deferTimer.live

/-- The session is in `pinging`. -/
structure Pinging (s : Ctx σ) : Prop where
  status : s.status = .pinging
  noError : s.lastError = none
  polling : Polling s

/-- The events `start()` sends, with the code after them. `stopAllCh` is closed only on the way
out. -/
def EventOk (stopAll : Bool) : FsmEvent → Cont → Prop
  | .deferred st, k => k = .loop ∧ Waits st ∧ stopAll = false
  | .pinging, k => k = .sent ∧ stopAll = false
  | .stopped _ _, k => k = .ret ∨ (k = .rearm ∨ k = .redefer) ∧ stopAll = false

/-- The operations that are left on entering a state, with what the others have done. -/
def Entering (s : Ctx σ) (ops : List Op) : Cont → Prop
  | .loop => s.fsm.current = .deferred ∧ s.stopAll = false ∧ ∃ st, Waits st ∧
      (ops = enterDeferred st ∨ ops = (enterDeferred st).tail ∨
        ops = [.setStatus st none] ∧ s.deferTimer.live ∨ ops = [] ∧ Deferring s)
  | .sent => s.fsm.current = .pinging ∧ s.stopAll = false ∧
      (ops = enterPinging ∨ ops = enterPinging.tail ∧ Polling s ∨
        (ops = [.goLongPoll] ∨ ops = []) ∧ Pinging s)
  | k => (k = .ret ∨ s.stopAll = false) ∧ ∃ st err, ops = [.setStatus st err] ∨ ops = []

/-- What holds at each point of `start()`. -/
def LoopOk (s : Ctx σ) : Prop :=
  match s.pc with
  | .boot => s.stopAll = false
  | .event e k => EventOk s.stopAll e k ∧
      (e.name = .stopped → s.fsm.current = .pinging → Polling s)
  | .leave ops e k => EventOk s.stopAll e k ∧ s.fsm.transition = some e.name ∧
      .goLongPoll ∉ ops ∧ .makeStopPollCh ∉ ops ∧
      (.closeStopPollCh ∈ ops → ops = exitPinging ∧ Polling s)
  | .enter ops k => Entering s ops k
  | .select => s.stopAll = false ∧
      (s.fsm.current = .deferred ∧ Deferring s ∨ s.fsm.current = .pinging ∧ Pinging s)
  | .push _ => s.stopAll = false ∧ (s.fsm.current = .pinging → Polling s)
  | .panic p => p ≠ .closeOfClosedChannel
  | _ => True

/-- A closed stop channel has been made. -/
def ClosedMade (s : Ctx σ) : Prop := ∀ g ∈ s.closedPoll, g < s.madePoll

/-! ## One step -/

theorem perform_closedMade (hm : ClosedMade s) (hw : Wired s) (h : perform M cfg s op = some s') :
    ClosedMade s' := by
  cases op with
  | makeStopPollCh => cases h; exact fun g hg => Nat.lt_succ_of_lt (hm g hg)
  | goLongPoll => obtain ⟨g, _, rfl⟩ := Option.map_eq_some_iff.mp h; exact hm
  | closeStopPollCh =>
    obtain ⟨g, hg, -, rfl⟩ := perform_closeStopPollCh h
    intro g' hg'
    rcases List.mem_cons.mp hg' with rfl | hg'
    · exact Nat.lt_of_succ_le (Nat.le_of_eq (hw.made g' hg))
    · exact hm g' hg'
  | _ => cases h; exact hm

/-- The operations do not fail where the invariant holds. -/
theorem loopOk_perform (hl : LoopOk s)
    (hpc : (∃ e k, s.pc = .leave (op :: ops) e k) ∨ ∃ k, s.pc = .enter (op :: ops) k) :
    perform M cfg s op ≠ none := by
  -- only the launch and the closing can fail, and both find the channel open
  have hpolling : op = .goLongPoll ∨ op = .closeStopPollCh → Polling s := by
    intro hop
    unfold LoopOk at hl
    rcases hpc with ⟨e, k, hpc⟩ | ⟨k, hpc⟩
    · rw [hpc] at hl
      obtain ⟨-, -, hgo, -, hclose⟩ := hl
      rcases hop with rfl | rfl
      · exact absurd List.mem_cons_self hgo
      · exact (hclose List.mem_cons_self).2
    · rw [hpc] at hl
      cases k with
      | loop =>
        obtain ⟨-, -, st, -, hops | hops | ⟨hops, -⟩ | ⟨hops, -⟩⟩ := hl <;>
          simp [enterDeferred] at hops <;> simp [hops] at hop
      | sent =>
        obtain ⟨-, -, hops | ⟨-, hp⟩ | ⟨-, hp⟩⟩ := hl
        · simp [enterPinging] at hops
          simp [hops] at hop
        · exact hp
        · exact hp.polling
      | _ =>
        obtain ⟨-, st, err, hops | hops⟩ := hl <;> simp at hops
        simp [hops] at hop
  cases op with
  | goLongPoll =>
    obtain ⟨g, hg, -⟩ := hpolling (.inl rfl)
    simp [perform, hg]
  | closeStopPollCh =>
    obtain ⟨g, hg, -, hopen⟩ := hpolling (.inr rfl)
    simp [perform, hg, hopen]
  | _ => simp [perform]

theorem loopOk_enter (hl : LoopOk s) (hm : ClosedMade s) (hpc : s.pc = .enter (op :: ops) k)
    (hop : perform M cfg s op = some t) : LoopOk { t with pc := .enter ops k } := by
  unfold LoopOk at hl ⊢
  rw [hpc] at hl
  cases k with
  | loop =>
    obtain ⟨hcur, hall, st, hst, hops | hops | ⟨hops, hlive⟩ | ⟨hops, -⟩⟩ := hl <;> cases hops <;>
      cases hop
    · exact ⟨hcur, hall, st, hst, .inr (.inl rfl)⟩
    · exact ⟨hcur, hall, st, hst, .inr (.inr (.inl ⟨rfl, Timer.live_reset⟩))⟩
    · exact ⟨hcur, hall, st, hst, .inr (.inr (.inr ⟨rfl, hst, rfl, hlive⟩))⟩
  | sent =>
    obtain ⟨hcur, hall, hops | ⟨hops, hp⟩ | ⟨hops | hops, hp⟩⟩ := hl <;> cases hops
    · cases hop
      refine ⟨hcur, hall, .inr (.inl ⟨rfl, s.madePoll, rfl, Nat.lt_succ_self _, fun hmem => ?_⟩)⟩
      exact absurd (hm s.madePoll hmem) (Nat.lt_irrefl _)
    · cases hop
      exact ⟨hcur, hall, .inr (.inr ⟨.inl rfl, rfl, rfl, hp⟩)⟩
    · obtain ⟨g, _, rfl⟩ := Option.map_eq_some_iff.mp hop
      exact ⟨hcur, hall, .inr (.inr ⟨.inr rfl, hp.status, hp.noError, hp.polling⟩)⟩
  | _ =>
    obtain ⟨hk, st, err, hops | hops⟩ := hl <;> cases hops
    cases hop
    exact ⟨hk, st, err, .inr rfl⟩

theorem loopOk_leave (hl : LoopOk s) (hpc : s.pc = .leave (op :: ops) e k)
    (hop : perform M cfg s op = some t) : LoopOk { t with pc := .leave ops e k } := by
  unfold LoopOk at hl ⊢
  rw [hpc] at hl
  obtain ⟨he, htr, hgo, hmk, hclose⟩ := hl
  refine ⟨by rw [(perform_keeps hop).stopAll]; exact he, (perform_keeps hop).fsm ▸ htr,
    fun h => hgo (List.mem_cons_of_mem _ h), fun h => hmk (List.mem_cons_of_mem _ h), fun h => ?_⟩
  cases (hclose (List.mem_cons_of_mem _ h)).1
  cases h

/-- The state machine has entered the state the event names. -/
theorem loopOk_transit (hl : LoopOk s) (hpc : s.pc = .leave [] e k) :
    LoopOk { s with fsm := s.fsm.transit, pc := .enter (enterCallback e) k } := by
  unfold LoopOk at hl ⊢
  rw [hpc] at hl
  obtain ⟨he, htr, -⟩ := hl
  have hcur : s.fsm.transit.current = e.name := by simp [Fsm.transit, htr]
  cases e with
  | deferred st =>
    obtain ⟨rfl, hst, hall⟩ := he
    exact ⟨hcur, hall, st, hst, .inl rfl⟩
  | pinging =>
    obtain ⟨rfl, hall⟩ := he
    exact ⟨hcur, hall, .inl rfl⟩
  | stopped st err =>
    rcases he with rfl | ⟨rfl | rfl, hall⟩
    · exact ⟨.inl rfl, st, err, .inl rfl⟩
    · exact ⟨.inr hall, st, err, .inl rfl⟩
    · exact ⟨.inr hall, st, err, .inl rfl⟩

theorem loopOk_resume (hl : LoopOk s) (hpc : s.pc = .enter [] k) :
    LoopOk (resume M cfg { s with fsm := s.fsm.finish } k) := by
  unfold LoopOk at hl
  rw [hpc] at hl
  cases k with
  | loop =>
    obtain ⟨hcur, hall, st, hst, hops | hops | ⟨hops, -⟩ | ⟨-, hd⟩⟩ := hl
    · cases hops
    · cases hops
    · cases hops
    · exact ⟨hall, .inl ⟨hcur, hd.status, hd.noError, hd.live⟩⟩
  | sent =>
    obtain ⟨hcur, hall, hops | ⟨hops, -⟩ | ⟨-, hp⟩⟩ := hl
    · cases hops
    · cases hops
    · exact ⟨hall, .inr ⟨hcur, hp.status, hp.noError, hp.polling⟩⟩
  | ret => trivial
  | rearm =>
    obtain ⟨hall, -⟩ := hl
    simp only [resume]
    split
    · exact ⟨⟨rfl, .inr rfl, hall.resolve_left (by simp)⟩, by simp [FsmEvent.name]⟩
    · trivial
  | redefer =>
    obtain ⟨hall, -⟩ := hl
    exact ⟨⟨rfl, .inl rfl, hall.resolve_left (by simp)⟩, by simp [FsmEvent.name]⟩

/-- From the head of the loop, or after a push, the session is pushed to or stopped. -/
theorem loopOk_stops {s : Ctx σ} (hpc : s.pc.Stops) (hall : s.stopAll = false)
    (hp : s.fsm.current = .pinging → Polling s) : LoopOk s := by
  unfold LoopOk
  cases hs : s.pc with
  | push site => exact ⟨hall, hp⟩
  | event e k =>
    rw [hs] at hpc
    cases hpc with
    | event hk =>
      refine ⟨?_, fun _ => hp⟩
      cases k with
      | ret => exact .inl rfl
      | rearm => exact .inr ⟨.inl rfl, hall⟩
      | redefer => exact .inr ⟨.inr rfl, hall⟩
      | _ => cases hk
  | _ => rw [hs] at hpc; cases hpc

theorem LoopOk.polling (hl : LoopOk s) (hpc : s.pc = .select) :
    s.stopAll = false ∧ (s.fsm.current = .pinging → Polling s) := by
  unfold LoopOk at hl
  rw [hpc] at hl
  obtain ⟨hall, ⟨hcur, -⟩ | ⟨-, hp⟩⟩ := hl
  · exact ⟨hall, fun h => by rw [hcur] at h; cases h⟩
  · exact ⟨hall, fun _ => hp.polling⟩

theorem loopOk_handle (hl : LoopOk s) (hpc : s.pc = .select) :
    LoopOk (handle M { s with command := cs } c) := by
  obtain ⟨hall, hp⟩ := hl.polling hpc
  cases c with
  | stop => exact ⟨.inl rfl, fun _ => hp⟩
  | defer => exact ⟨.inr ⟨.inr rfl, hall⟩, fun _ => hp⟩
  | other n =>
    unfold LoopOk at hl ⊢
    simp only [handle, hpc] at hl ⊢
    exact ⟨hl.1, hl.2.imp (fun h => ⟨h.1, h.2.status, h.2.noError, h.2.live⟩)
      fun h => ⟨h.1, h.2.status, h.2.noError, h.2.polling⟩⟩

theorem StartStep.loopOk (h : StartStep M cfg s s') (hl : LoopOk s) (hm : ClosedMade s) :
    LoopOk s' := by
  cases h with
  | boot hpc =>
    unfold LoopOk at hl
    rw [hpc] at hl
    exact ⟨⟨rfl, .inl rfl, hl⟩, by simp [FsmEvent.name]⟩
  | refused => simp [LoopOk]
  | @begun e k fsm hpc hb =>
    obtain ⟨-, hlegal, rfl⟩ := begin_ok hb
    unfold LoopOk at hl
    rw [hpc] at hl
    refine ⟨hl.1, rfl, ?_⟩
    cases hcur : s.fsm.current with
    | pinging =>
      rw [hcur] at hlegal
      have hname : e.name = .stopped := by
        cases e with
        | stopped => rfl
        | deferred => exact absurd hlegal (show ¬Legal .pinging .deferred by decide)
        | pinging => exact absurd hlegal (show ¬Legal .pinging .pinging by decide)
      exact ⟨by decide, by decide, fun _ => ⟨rfl, hl.2 hname hcur⟩⟩
    | _ => exact ⟨by decide, by decide, by simp [leaveCallback, leaveInit, exitDeferred, exitStopped]⟩
  | leave hpc hop => exact loopOk_leave hl hpc hop
  | transit hpc => exact loopOk_transit hl hpc
  | enter hpc hop => exact loopOk_enter hl hm hpc hop
  | crash hpc =>
    rcases hpc with ⟨op, ops, e, k, hpc, hop⟩ | ⟨op, ops, k, hpc, hop⟩
    · exact absurd hop (loopOk_perform hl (.inl ⟨e, k, hpc⟩))
    · exact absurd hop (loopOk_perform hl (.inr ⟨k, hpc⟩))
  | resumed hpc => exact loopOk_resume hl hpc
  | maxPoll hpc => exact hl.polling hpc
  | deferTick hpc => exact ⟨⟨rfl, (hl.polling hpc).1⟩, by simp [FsmEvent.name]⟩
  | errCh hpc =>
    obtain ⟨hall, hp⟩ := hl.polling hpc
    obtain ⟨pc, heq, hpc'⟩ := received_eq cfg { s with mc := M.taken s.mc _ } _
    rw [heq]
    exact loopOk_stops hpc' hall hp
  | command hpc => exact loopOk_handle hl hpc
  | pushed hpc =>
    unfold LoopOk at hl
    rw [hpc] at hl
    obtain ⟨hall, hp⟩ := hl
    obtain ⟨_, pc, heq, hpc'⟩ := pushed_eq cfg s _ _
    rw [heq]
    rcases hpc' with hpc' | rfl
    · exact loopOk_stops hpc' hall hp
    · trivial
  | _ => trivial

theorem StartStep.closedMade (h : StartStep M cfg s s') (hm : ClosedMade s) (hw : Wired s) :
    ClosedMade s' := by
  cases h with
  | leave _ hop | enter _ hop =>
    have := perform_closedMade hm hw hop
    exact this
  | resumed =>
    obtain ⟨_, _, _, _, heq, -⟩ := resume_eq cfg { s with fsm := s.fsm.finish } _
    rw [heq]
    exact hm
  | errCh =>
    obtain ⟨_, heq, -⟩ := received_eq cfg { s with mc := M.taken s.mc _ } _
    rw [heq]
    exact hm
  | command =>
    obtain ⟨_, _, heq, -⟩ := handle_eq { s with command := _ } _
    rw [heq]
    exact hm
  | pushed =>
    obtain ⟨_, _, heq, -⟩ := pushed_eq cfg s _ _
    rw [heq]
    exact hm
  | _ => exact hm

theorem step_sameLoop {a : Act M.Label} (h : step M cfg s a = some s') (ha : ∀ p, a ≠ .start p) :
    SameLoop s s' := by
  cases step_moves h with
  | start => exact absurd rfl (ha _)
  | poll hf | expire hf | other hf => exact hf

/-- A step that is not one of `start()` leaves the status and keeps the timer alive. -/
theorem step_frame {a : Act M.Label} (h : step M cfg s a = some s') (ha : ∀ p, a ≠ .start p) :
    s'.status = s.status ∧ s'.lastError = s.lastError ∧
      (s.deferTimer.live → s'.deferTimer.live) := by
  have hst : s'.status = s.status ∧ s'.lastError = s.lastError := by
    obtain ⟨_, _, _, _, _, _, rfl⟩ := step_other h ha
    exact ⟨rfl, rfl⟩
  refine ⟨hst.1, hst.2, ?_⟩
  cases step_moves h with
  | start => exact absurd rfl (ha _)
  | poll => exact id
  | expire _ ht => exact fun _ => Timer.live_expire ht
  | other _ _ ht => exact fun hlive => ht ▸ hlive

theorem LoopOk.frame {s s' : Ctx σ} (hl : LoopOk s) (hf : SameLoop s s')
    (hst : s'.status = s.status) (herr : s'.lastError = s.lastError)
    (hlive : s.deferTimer.live → s'.deferTimer.live) : LoopOk s' := by
  have hp : Polling s → Polling s' := by
    rintro ⟨g, hg, hopen⟩
    exact ⟨g, hf.stopPollCh.trans hg, hf.madePoll ▸ hopen.1, hf.closedPoll ▸ hopen.2⟩
  have hd : Deferring s → Deferring s' := fun h =>
    ⟨hst ▸ h.status, herr.trans h.noError, hlive h.live⟩
  have hping : Pinging s → Pinging s' := fun h =>
    ⟨hst.trans h.status, herr.trans h.noError, hp h.polling⟩
  unfold LoopOk at hl ⊢
  rw [hf.pc, hf.stopAll, hf.fsm]
  cases hpc : s.pc with
  | event e k => rw [hpc] at hl; exact ⟨hl.1, fun h₁ h₂ => hp (hl.2 h₁ h₂)⟩
  | leave ops e k =>
    rw [hpc] at hl
    obtain ⟨he, htr, hgo, hmk, hclose⟩ := hl
    exact ⟨he, htr, hgo, hmk, fun h => ⟨(hclose h).1, hp (hclose h).2⟩⟩
  | enter ops k =>
    rw [hpc] at hl
    cases k with
    | loop =>
      obtain ⟨hcur, hall, st, hst', hops⟩ := hl
      exact ⟨hf.fsm ▸ hcur, hf.stopAll.trans hall, st, hst',
        hops.imp_right (Or.imp_right (Or.imp (And.imp_right hlive) (And.imp_right hd)))⟩
    | sent =>
      obtain ⟨hcur, hall, hops⟩ := hl
      exact ⟨hf.fsm ▸ hcur, hf.stopAll.trans hall,
        hops.imp_right (Or.imp (And.imp_right hp) (And.imp_right hping))⟩
    | _ => exact ⟨hf.stopAll ▸ hl.1, hl.2⟩
  | select =>
    rw [hpc] at hl
    exact ⟨hl.1, hl.2.imp (And.imp_right hd) (And.imp_right hping)⟩
  | push site => rw [hpc] at hl; exact ⟨hl.1, fun h => hp (hl.2 h)⟩
  | _ => rw [hpc] at hl; exact hl

/-- The parts of the invariant, as one. -/
structure Sound (s : Ctx M.State) : Prop where
  wired : Wired s
  made : ClosedMade s
  ok : LoopOk s

theorem step_sound {a : Act M.Label} (hs : Sound s) (h : step M cfg s a = some s') : Sound s' := by
  have hw := step_wired hs.wired h
  cases a with
  | start p =>
    have hstep := start_cases h
    exact ⟨hw, hstep.closedMade hs.made hs.wired, hstep.loopOk hs.ok hs.made⟩
  | _ =>
    have hf := step_sameLoop h (by simp)
    obtain ⟨hst, herr, hlive⟩ := step_frame h (by simp)
    exact ⟨hw, fun g hg => hf.madePoll ▸ hs.made g (hf.closedPoll ▸ hg),
      hs.ok.frame hf hst herr hlive⟩

theorem init_sound : Sound (init M cfg) :=
  ⟨init_wired, fun _ hg => (nomatch hg), rfl⟩

/-! ## What a run leaves in the log -/

inductive Mark
  | enterPinging
  | launch (g : Nat)
  | closePoll (g : Nat)
  | closeAll
  deriving DecidableEq, Repr

def Mark.ofPoll : Mark → Bool
  | .enterPinging | .launch _ => true
  | .closePoll _ | .closeAll => false

/-- An operation is logged before it is known to succeed. -/
def opMarks (s : Ctx σ) : Op → List Mark
  | .goLongPoll => (s.stopPollCh.map .launch).toList
  | .closeStopPollCh => (s.stopPollCh.map .closePoll).toList
  | _ => []

/-- The entries into `pinging`, the launches of `LongPoll` and the closings of channels. -/
def marks (s : Ctx σ) : Act L → List Mark
  | .start .go =>
    match s.pc with
    | .leave [] .pinging _ => [.enterPinging]
    | .leave (op :: _) _ _ | .enter (op :: _) _ => opMarks s op
    | _ => []
  | .start .command =>
    match s.pc, s.command with
    | .select, .stop :: _ => [.closeAll]
    | _, _ => []
  | _ => []

/-- `n` entries into `pinging`, each followed by the one launch. -/
def pollMarks (n : Nat) : List Mark := (List.range n).flatMap fun g => [.enterPinging, .launch g]

theorem pollMarks_succ (n : Nat) :
    pollMarks (n + 1) = pollMarks n ++ [.enterPinging, .launch n] := by
  simp [pollMarks, List.range_succ]

/-- The entries and launches there should be: between its entry and its launch a poll has one of
the two. -/
def pollsOf (s : Ctx σ) : List Mark :=
  match s.pc with
  | .enter ops _ =>
    if .makeStopPollCh ∈ ops then pollMarks s.madePoll ++ [.enterPinging]
    else if .goLongPoll ∈ ops then pollMarks (s.madePoll - 1) ++ [.enterPinging]
    else pollMarks s.madePoll
  | _ => pollMarks s.madePoll

/-- The log tells which channels are closed, each once, and which polls were launched. -/
structure Marked (log : List Mark) (s : Ctx σ) : Prop where
  polls : log.filter Mark.ofPoll = pollsOf s
  closePoll : ∀ g, log.count (.closePoll g) = if g ∈ s.closedPoll then 1 else 0
  closeAll : log.count .closeAll = if s.stopAll then 1 else 0

@[simp] theorem Ctx.setStatus_madePoll (s : Ctx σ) (status : MailClientStatus)
    (err : Option GoString) : (s.setStatus status err).madePoll = s.madePoll := rfl

theorem Marked.of_eq {s s' : Ctx σ} (h : Marked log s) (hpolls : pollsOf s' = pollsOf s)
    (hcl : s'.closedPoll = s.closedPoll) (hall : s'.stopAll = s.stopAll) : Marked (log ++ []) s' := by
  refine ⟨?_, ?_, ?_⟩
  · rw [List.append_nil, h.polls, hpolls]
  · rw [List.append_nil, hcl]
    exact h.closePoll
  · rw [List.append_nil, hall]
    exact h.closeAll

/-- A step that logs something about a poll. -/
theorem Marked.poll {s s' : Ctx σ} (h : Marked log s) (hm : Mark.ofPoll m)
    (hpolls : pollsOf s' = pollsOf s ++ [m]) (hcl : s'.closedPoll = s.closedPoll)
    (hall : s'.stopAll = s.stopAll) : Marked (log ++ [m]) s' := by
  refine ⟨?_, fun g => ?_, ?_⟩
  · rw [List.filter_append, h.polls, hpolls]
    simp [hm]
  · have hne : m ≠ .closePoll g := fun he => by rw [he] at hm; cases hm
    rw [List.count_append, h.closePoll, List.count_singleton, hcl]
    simp [hne]
  · have hne : m ≠ .closeAll := fun he => by rw [he] at hm; cases hm
    rw [List.count_append, h.closeAll, List.count_singleton, hall]
    simp [hne]

theorem marked_leave (hlog : Marked log s) (hl : LoopOk s) (hpc : s.pc = .leave (op :: ops) e k)
    (hop : perform M cfg s op = some t) :
    Marked (log ++ opMarks s op) { t with pc := .leave ops e k } := by
  unfold LoopOk at hl
  rw [hpc] at hl
  obtain ⟨-, -, hgo, hmk, -⟩ := hl
  cases op with
  | goLongPoll => exact absurd List.mem_cons_self hgo
  | makeStopPollCh => exact absurd List.mem_cons_self hmk
  | closeStopPollCh =>
    obtain ⟨g, hg, hopen, rfl⟩ := perform_closeStopPollCh hop
    simp only [opMarks, hg, Option.map_some, Option.toList_some]
    refine ⟨?_, fun g' => ?_, ?_⟩
    · simp [List.filter_append, hlog.polls, Mark.ofPoll, pollsOf, hpc]
    · rw [List.count_append, hlog.closePoll, List.count_singleton]
      by_cases hg' : g' = g
      · subst hg'
        simp [hopen]
      · simp [hg', Ne.symm hg']
    · rw [List.count_append, hlog.closeAll]
      simp
  | _ => cases hop; exact hlog.of_eq (by simp [pollsOf, hpc]) rfl rfl

theorem marked_enter (hlog : Marked log s) (hl : LoopOk s) (hw : Wired s)
    (hpc : s.pc = .enter (op :: ops) k) (hop : perform M cfg s op = some t) :
    Marked (log ++ opMarks s op) { t with pc := .enter ops k } := by
  unfold LoopOk at hl
  rw [hpc] at hl
  cases k with
  | loop =>
    obtain ⟨-, -, st, -, hops | hops | ⟨hops, -⟩ | ⟨hops, -⟩⟩ := hl <;> cases hops <;> cases hop <;>
      exact hlog.of_eq (by simp [pollsOf, hpc]) rfl rfl
  | sent =>
    obtain ⟨-, -, hops | ⟨hops, -⟩ | ⟨hops | hops, -⟩⟩ := hl <;> cases hops
    · cases hop
      exact hlog.of_eq (by simp [pollsOf, hpc]) rfl rfl
    · cases hop
      exact hlog.of_eq (by simp [pollsOf, hpc]) rfl rfl
    · obtain ⟨g, hg, rfl⟩ := Option.map_eq_some_iff.mp hop
      simp only [opMarks, hg, Option.map_some, Option.toList_some]
      refine hlog.poll rfl ?_ rfl rfl
      have hlast := hw.made g hg
      simp [pollsOf, hpc, ← hlast, pollMarks_succ]
  | _ =>
    obtain ⟨-, st, err, hops | hops⟩ := hl <;> cases hops
    cases hop
    exact hlog.of_eq (by simp [pollsOf, hpc]) rfl rfl

theorem marked_transit (hlog : Marked log s) (hpc : s.pc = .leave [] e k) :
    Marked (log ++ marks s (.start .go : Act L))
      { s with fsm := s.fsm.transit, pc := .enter (enterCallback e) k } := by
  cases e with
  | pinging =>
    simp only [marks, hpc]
    exact hlog.poll rfl (by simp [pollsOf, hpc, enterCallback, enterPinging]) rfl rfl
  | deferred st =>
    simp only [marks, hpc]
    exact hlog.of_eq (by simp [pollsOf, hpc, enterCallback, enterDeferred]) rfl rfl
  | stopped st err =>
    simp only [marks, hpc]
    exact hlog.of_eq (by simp [pollsOf, hpc, enterCallback, enterStopped]) rfl rfl

theorem marked_go (hlog : Marked log s) (hs : Sound s) (h : start M cfg s .go = some s') :
    Marked (log ++ marks s (.start .go : Act L)) s' := by
  cases start_go_cases h with
  | leave hpc hop => simpa only [marks, hpc] using marked_leave hlog hs.ok hpc hop
  | enter hpc hop => simpa only [marks, hpc] using marked_enter hlog hs.ok hs.wired hpc hop
  | transit hpc => exact marked_transit hlog hpc
  | crash hpc =>
    rcases hpc with ⟨op, ops, e, k, hpc, hop⟩ | ⟨op, ops, k, hpc, hop⟩
    · exact absurd hop (loopOk_perform hs.ok (.inl ⟨e, k, hpc⟩))
    · exact absurd hop (loopOk_perform hs.ok (.inr ⟨k, hpc⟩))
  | @resumed k hpc =>
    obtain ⟨_, _, _, pc, heq, hr⟩ := resume_eq cfg { s with fsm := s.fsm.finish } k
    rw [heq]
    simp only [marks, hpc]
    exact hlog.of_eq (by cases hr <;> simp [pollsOf, hpc]) rfl rfl
  | maxPoll hpc | deferTick hpc | errCh hpc | command hpc | pushed hpc => simp [start, hpc] at h
  | boot hpc | refused hpc | begun hpc | recovered hpc | returned hpc | waited hpc | cleanup hpc
  | cleanupClient hpc =>
    simp only [marks, hpc]
    exact hlog.of_eq (by simp [pollsOf, hpc]) rfl rfl

theorem marked_command (hlog : Marked log s) (hs : Sound s)
    (h : start M cfg s .command = some s') :
    Marked (log ++ marks s (.start .command : Act L)) s' := by
  obtain ⟨hpc, c, cs, hc, rfl⟩ := command_cases h
  simp only [marks, hpc, hc]
  cases c with
  | stop =>
    refine ⟨?_, fun g => ?_, ?_⟩
    · simp [List.filter_append, hlog.polls, Mark.ofPoll, pollsOf, hpc, handle]
    · have hne : [Mark.closeAll].count (.closePoll g) = 0 := by simp
      rw [List.count_append, hlog.closePoll, hne]
      rfl
    · rw [List.count_append, hlog.closeAll, (hs.ok.polling hpc).1]
      simp [handle]
  | defer => exact hlog.of_eq (by simp [pollsOf, hpc, handle]) rfl rfl
  | other n => exact hlog.of_eq (by simp [pollsOf, hpc, handle]) rfl rfl

theorem marked_start {p : Pick} (hlog : Marked log s) (hs : Sound s)
    (h : start M cfg s p = some s') : Marked (log ++ marks s (.start p : Act L)) s' := by
  cases p with
  | go => exact marked_go hlog hs h
  | command => exact marked_command hlog hs h
  | maxPoll | deferTick =>
    obtain ⟨hpc, t, _, rfl⟩ := select_cases h
    exact hlog.of_eq (by simp [pollsOf, hpc]) rfl rfl
  | errCh g =>
    obtain ⟨hpc, v, _, rfl⟩ := select_cases h
    obtain ⟨pc, heq, hpc'⟩ := received_eq cfg { s with mc := M.taken s.mc g } v
    rw [heq]
    exact hlog.of_eq (by cases hpc' <;> simp [pollsOf, hpc]) rfl rfl
  | pushed r =>
    obtain ⟨site, hpc, rfl⟩ := pushed_cases h
    obtain ⟨_, pc, heq, hpc'⟩ := pushed_eq cfg s site r
    rw [heq]
    refine hlog.of_eq ?_ rfl rfl
    rcases hpc' with hpc' | rfl
    · cases hpc' <;> simp [pollsOf, hpc]
    · simp [pollsOf, hpc]

theorem step_marked {a : Act M.Label} (hlog : Marked log s) (hs : Sound s)
    (h : step M cfg s a = some s') : Marked (log ++ marks s a) s' := by
  cases a with
  | start p => exact marked_start hlog hs h
  | _ =>
    have hf := step_sameLoop h (by simp)
    exact hlog.of_eq (by simp only [pollsOf, hf.pc, hf.madePoll]) hf.closedPoll hf.stopAll

/-! ## Whole runs -/

/-- What holds whenever `start()` is at the head of its loop. -/
structure LoopHead (s : Ctx σ) : Prop where
  current : s.fsm.current = .deferred ∨ s.fsm.current = .pinging
  pinging : s.fsm.current = .pinging ↔ s.status = .pinging
  deferred : s.fsm.current = .deferred ↔ s.status = .deferred ∨ s.status = .reDeferred
  noError : s.lastError = none
  stopPollCh : (∃ g, s.stopPollCh = some g ∧ s.PollOpen g) ↔ s.fsm.current = .pinging
  armed : s.fsm.current = .deferred → s.deferTimer.deadline.isSome ∨ s.deferTimer.tick.isSome

theorem Sound.loopHead (hs : Sound s) (hc : ChannelsOk s) (hpc : s.pc = .select) : LoopHead s := by
  have hl := hs.ok
  unfold LoopOk at hl
  rw [hpc] at hl
  have hopen : ∀ g, s.PollOpen g → s.fsm.current = .pinging := fun g hg => by
    simpa [OpenPc, hpc] using (hc.current g hg).2.2
  obtain ⟨-, ⟨hcur, hst | hst, herr, hlive⟩ | ⟨hcur, hst, herr, hp⟩⟩ := hl
  · refine ⟨.inl hcur, by simp [hcur, hst], by simp [hcur, hst], herr, ?_, fun _ => ?_⟩
    · exact ⟨fun hpoll => hpoll.elim fun g hg => hopen g hg.2, fun h => by rw [hcur] at h; cases h⟩
    · simpa [Timer.live] using hlive
  · refine ⟨.inl hcur, by simp [hcur, hst], by simp [hcur, hst], herr, ?_, fun _ => ?_⟩
    · exact ⟨fun hpoll => hpoll.elim fun g hg => hopen g hg.2, fun h => by rw [hcur] at h; cases h⟩
    · simpa [Timer.live] using hlive
  · refine ⟨.inr hcur, by simp [hcur, hst], by simp [hcur, hst], herr, ?_, fun h => ?_⟩
    · exact ⟨fun _ => hcur, fun _ => hp⟩
    · rw [hcur] at h
      cases h

/-- The steps of the clock and of the deferral timer. -/
def Act.ofTimer : Act L → Bool
  | .advance _ | .expireDefer => true
  | _ => false

theorem deferTick_of_tick (cfg : Settings) (hpc : s.pc = .select)
    (htick : s.deferTimer.tick = some n) :
    ∃ s', step M cfg s (.start .deferTick) = some s' := by
  refine ⟨{ s with deferTimer := { s.deferTimer with tick := none }, pc := .event .pinging .sent }, ?_⟩
  simp [step, start, hpc, Timer.recv, htick]

/-- A session with a live timer is woken by the passing of time alone. -/
theorem wakes (cfg : Settings) (hpc : s.pc = .select) (hlive : s.deferTimer.live) :
    ∃ as s₁ s₂, (∀ a ∈ as, Act.ofTimer a) ∧ Run (step M cfg) Free s as s₁ ∧
      step M cfg s₁ (.start .deferTick) = some s₂ := by
  cases htick : s.deferTimer.tick with
  | some n =>
    obtain ⟨s₂, hs₂⟩ := deferTick_of_tick cfg hpc htick
    exact ⟨[], s, s₂, by simp, .nil, hs₂⟩
  | none =>
    obtain ⟨d, hd⟩ : ∃ d, s.deferTimer.deadline = some d := by
      simpa [Timer.live, htick, Option.isSome_iff_exists] using hlive
    -- wait until the deadline has come
    have hdue : s.deferTimer.due (s.now + (d - s.now).toNat) = true := by
      simp only [Timer.due, hd, Option.any_some, decide_eq_true_eq]
      omega
    have hexp : s.deferTimer.expire (s.now + (d - s.now).toNat) =
        some { s.deferTimer with deadline := none, tick := some s.deferTimer.armings } := by
      rw [Timer.expire, if_pos hdue, htick]
      rfl
    have hstep : step M cfg { s with now := s.now + (d - s.now).toNat } .expireDefer = some
        { s with
          now := s.now + (d - s.now).toNat
          deferTimer :=
            { s.deferTimer with deadline := none, tick := some s.deferTimer.armings } } := by
      simp only [step, hexp, Option.map_some]
    obtain ⟨s₂, hs₂⟩ := deferTick_of_tick (s := { s with
      now := s.now + (d - s.now).toNat
      deferTimer := { s.deferTimer with deadline := none, tick := some s.deferTimer.armings } })
      cfg hpc rfl
    exact ⟨[.advance (d - s.now).toNat, .expireDefer], _, s₂, by simp [Act.ofTimer],
      .cons trivial rfl (.cons trivial hstep .nil), hs₂⟩

/-- In every run of a session: at the head of the loop the state machine is in `deferred` or in
`pinging`, the status says which and holds no error, the stop channel is open exactly in
`pinging`, every entry into `pinging` has been followed by one launch, and in `deferred` the
passing of time wakes the session; no channel is ever closed twice. -/
theorem loop_head (h : Run (step M cfg) Free (init M cfg) as s) :
    (s.pc = .select → LoopHead s ∧
      (observe (step M cfg) marks (init M cfg) as).filter Mark.ofPoll = pollMarks s.madePoll ∧
      (s.fsm.current = .deferred → ∃ bs s₁ s₂, (∀ a ∈ bs, Act.ofTimer a) ∧
        Run (step M cfg) Free s bs s₁ ∧ step M cfg s₁ (.start .deferTick) = some s₂)) ∧
    s.pc ≠ .panic .closeOfClosedChannel ∧
    (∀ g, (observe (step M cfg) marks (init M cfg) as).count (.closePoll g) ≤ 1) ∧
    (observe (step M cfg) marks (init M cfg) as).count .closeAll ≤ 1 := by
  have hinv : Sound s ∧ ChannelsOk s ∧ Marked ([] ++ observe (step M cfg) marks (init M cfg) as) s := by
    refine h.observe_inv (f := marks) (I := fun log s => Sound s ∧ ChannelsOk s ∧ Marked log s) ?_ ?_
    · rintro log s a s' ⟨hs, hc, hlog⟩ - h
      exact ⟨step_sound hs h, step_channelsOk hc h, step_marked hlog hs h⟩
    · exact ⟨init_sound, init_channelsOk, rfl, fun _ => rfl, rfl⟩
  obtain ⟨hs, hc, hlog⟩ := hinv
  rw [List.nil_append] at hlog
  refine ⟨fun hpc => ?_, fun hpc => ?_, fun g => ?_, ?_⟩
  · have hhead := hs.loopHead hc hpc
    refine ⟨hhead, by rw [hlog.polls, pollsOf, hpc], fun hcur => wakes cfg hpc ?_⟩
    simpa [Timer.live] using hhead.armed hcur
  · have hl := hs.ok
    simp [LoopOk, hpc] at hl
  · rw [hlog.closePoll]
    split <;> decide
  · rw [hlog.closeAll]
    split <;> decide

theorem loop_head_eager :
    ∃ s, Run (step (Exchange.client { pi := {} }) eagerSettings) Free (init _ eagerSettings)
        eagerActs s ∧ s.pc = .select ∧ s.fsm.current = .pinging ∧ LoopHead s := by
  have h : Run (step (Exchange.client { pi := {} }) eagerSettings) Free (init _ eagerSettings)
      eagerActs _ := Run.of_exec rfl
  exact ⟨_, h, rfl, rfl, ((loop_head h).1 rfl).1⟩

end Pinger.Session

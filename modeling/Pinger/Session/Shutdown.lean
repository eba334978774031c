import Pinger.Exchange.Abandoned
import Pinger.Imap.Abandoned

/-! # The end of a session

When `start()` has left its loop nobody receives on `errCh` any more, and a request goroutine whose
`LongPoll` has left its select has no receiver either. A goroutine that is in such a send keeps the
wait group from becoming empty, and `cleanup()` is never reached. This cannot happen when no send
races with the end of its receiver. -/

namespace Pinger.Session

open EventFsm Transition

variable {M : MailClient} {cfg : Settings} {s s' : Ctx M.State}

/-! ## A poll is launched once -/

/-- The stop channel that a launch is about to use belongs to an instance that does not exist
yet. -/
def LaunchOnce (s : Ctx M.State) : Prop :=
  match s.pc with
  | .leave ops _ _ => .goLongPoll ∉ ops
  | .enter ops _ => .goLongPoll ∈ ops → ops = enterPinging ∨
      (ops = enterPinging.tail ∨ ops = [.goLongPoll]) ∧ ∀ g ∈ s.stopPollCh, M.absent s.mc g
  | _ => True

theorem launchOnce_of_stops (h : pc.Stops) : LaunchOnce { s with pc := pc } := by
  cases h <;> trivial

theorem StartStep.launchOnce (h : StartStep M cfg s s') (hl : LaunchOnce s) (hw : Wired s) :
    LaunchOnce s' := by
  cases h with
  | begun hpc =>
    cases hcur : s.fsm.current <;>
      simp [LaunchOnce, leaveCallback, leaveInit, exitDeferred, exitPinging, exitStopped]
  | leave hpc =>
    simp only [LaunchOnce, hpc] at hl ⊢
    exact fun hmem => hl (List.mem_cons_of_mem _ hmem)
  | @transit e k hpc =>
    cases e with
    | pinging => exact fun _ => .inl rfl
    | deferred st => simp [LaunchOnce, enterCallback, enterDeferred]
    | stopped st err => simp [LaunchOnce, enterCallback, enterStopped]
  | @enter op ops k t hpc hop =>
    simp only [LaunchOnce, hpc] at hl ⊢
    intro hmem
    right
    rcases hl (List.mem_cons_of_mem _ hmem) with hops | ⟨hops | hops, habs⟩
    · -- the channel has just been made
      cases hops
      cases hop
      refine ⟨.inl rfl, fun g hg => ?_⟩
      cases hg
      exact hw.absent s.madePoll (Nat.le_refl _)
    · cases hops
      cases hop
      exact ⟨.inr rfl, habs⟩
    · cases hops
      cases hmem
  | resumed =>
    obtain ⟨_, _, _, pc, heq, hr⟩ := resume_eq cfg { s with fsm := s.fsm.finish } _
    rw [heq]
    cases hr <;> trivial
  | errCh =>
    obtain ⟨_, heq, hpc⟩ := received_eq cfg { s with mc := M.taken s.mc _ } _
    rw [heq]
    exact launchOnce_of_stops hpc
  | command hpc =>
    obtain ⟨_, pc, heq, hpc'⟩ := handle_eq { s with command := _ } _
    rw [heq]
    rcases hpc' with hpc' | hpc'
    · exact launchOnce_of_stops (s := { s with stopAll := _, command := _ }) hpc'
    · subst hpc'
      simp [LaunchOnce, hpc]
  | pushed =>
    obtain ⟨_, pc, heq, hpc⟩ := pushed_eq cfg s _ _
    rw [heq]
    rcases hpc with hpc | rfl
    · exact launchOnce_of_stops (s := { s with di := _ }) hpc
    · trivial
  | _ => trivial

theorem LaunchOnce.frame (hl : LaunchOnce s) (hf : SameLoop s s')
    (habs : ∀ g, M.absent s.mc g → M.absent s'.mc g) : LaunchOnce s' := by
  unfold LaunchOnce at hl ⊢
  rw [hf.pc, hf.stopPollCh]
  revert hl
  cases s.pc with
  | enter ops k =>
    intro hl hmem
    rcases hl hmem with hops | ⟨hops, hg⟩
    · exact .inl hops
    · exact .inr ⟨hops, fun g hg' => habs g (hg g hg')⟩
  | _ => exact id

theorem step_launchOnce {a : Act M.Label} (hl : LaunchOnce s) (hw : Wired s)
    (h : step M cfg s a = some s') : LaunchOnce s' := by
  cases step_moves h with
  | start h => exact (start_cases h).launchOnce hl hw
  | poll hf hs => exact hl.frame hf fun g hg => M.absent_step hs hg
  | expire hf => exact hl.frame hf fun g hg => hg
  | other hf hmc => exact hl.frame hf fun g hg => hmc ▸ hg

/-- The instance a launch creates did not exist. -/
theorem LaunchOnce.absent (hl : LaunchOnce s) (hpc : s.pc.launches) (hg : s.stopPollCh = some g) :
    M.absent s.mc g := by
  unfold LaunchOnce at hl
  unfold Pc.launches at hpc
  split at hpc
  next ops e k hs =>
    rw [hs] at hl
    exact absurd List.mem_cons_self hl
  next ops k hs =>
    rw [hs] at hl
    rcases hl List.mem_cons_self with hops | ⟨-, habs⟩
    · cases hops
    · exact habs g hg
  next => cases hpc

/-! ## The polls of a session that ends -/

variable {O : M.Order}

/-- No send races with the end of its receiver: `exitPinging` closes a stop channel only while its
`LongPoll` is not in a send on `errCh`, and a `LongPoll` whose stop channel is closed does not come
to a result; the deferral timer does not expire inside the window of `exitDeferred`; and the
goroutines of the client take their steps in order. -/
def NoRace (O : M.Order) (s : Ctx M.State) : Act M.Label → Prop
  | .start .go => s.pc.closesPoll → ∀ g ∈ s.stopPollCh, M.offer s.mc g = none
  | .expireDefer => s.pc.tickWindow = false
  | .poll l => (∀ g ∈ O.result s.signals s.mc l, g ∉ s.closedPoll) ∧ O.InOrder s.mc l
  | _ => True

instance (s : Ctx M.State) : (a : Act M.Label) → Decidable (NoRace O s a)
  | .start .go => inferInstanceAs (Decidable (_ → ∀ g ∈ _, M.offer s.mc g = none))
  | .expireDefer => inferInstanceAs (Decidable (_ = false))
  | .poll l =>
    have := O.decidableInOrder s.mc l
    inferInstanceAs (Decidable ((∀ g ∈ O.result s.signals s.mc l, g ∉ s.closedPoll) ∧
      O.InOrder s.mc l))
  | .start .maxPoll | .start .deferTick | .start (.errCh _) | .start .command
  | .start (.pushed _) => .isTrue trivial
  | .advance _ | .expireMax | .command _ | .setWait _ => .isTrue trivial

theorem NoRace.noLateResult {a : Act M.Label} (h : NoRace O s a) : NoLateResult s a := by
  cases a with
  | start p => cases p <;> exact h
  | poll l =>
    intro mc hs g hg hnone
    cases hv : M.offer mc g with
    | none => rfl
    | some v =>
      rcases O.offer_step hs hv with hv' | hres
      · rw [hnone] at hv'
        cases hv'
      · exact absurd hg (h.1 g hres)
  | _ => trivial

theorem NoRace.noExpiryInWindow {a : Act M.Label} (h : NoRace O s a) : NoExpiryInWindow s a := by
  cases a with
  | expireDefer => exact h
  | _ => trivial

/-- `start()` has the news of its poll, or has left its loop. -/
def Pc.ending : Pc → Bool
  | .push .newMail | .panic _ | .returned | .waiting | .cleanup | .cleanupClient | .done => true
  | _ => false

theorem Pc.ending_of_left {pc : Pc} (h : pc.left) : pc.ending := by
  cases pc <;> first | rfl | cases h

/-- The polls whose stop channel is still open when a session ends have left their loop. -/
def PollsOver (O : M.Order) (s : Ctx M.State) : Prop :=
  s.pc.ending → ∀ g, s.PollOpen g → O.finished s.mc g

/-- An operation panics only when the stop channel is closed or there is none. -/
theorem perform_crash (h : perform M cfg s op = none) (hg : s.stopPollCh = some g) :
    g ∈ s.closedPoll := by
  cases op with
  | goLongPoll => simp [perform, hg] at h
  | closeStopPollCh => simpa [perform, hg] using h
  | _ => cases h

theorem StartStep.pollsOver (h : StartStep M cfg s s') (hp : PollsOver O s) (hc : ChannelsOk s)
    (hl : EventsLegal s) (ho : SendersOpen s) : PollsOver O s' := by
  cases h with
  | refused hpc hb =>
    simp only [EventsLegal, hpc] at hl
    rw [begin_of_sendable hl.1 hl.2.2.1] at hb
    cases hb
  | crash hpc =>
    intro _ g hg
    obtain ⟨hsome, -, -⟩ := hc.current g hg
    rcases hpc with ⟨_, _, _, _, -, hop⟩ | ⟨_, _, _, -, hop⟩
    · exact absurd (perform_crash hop hsome) hg.2
    · exact absurd (perform_crash hop hsome) hg.2
  | @resumed k hpc =>
    obtain ⟨_, _, _, pc, heq, hr⟩ := resume_eq cfg { s with fsm := s.fsm.finish } k
    rw [heq]
    intro hend g hg
    -- a channel is open only on entering `pinging`, and then `start()` goes on to its select
    obtain ⟨-, -, hopen⟩ := hc.current g hg
    simp only [OpenPc, hpc] at hopen
    obtain ⟨-, rfl, -⟩ := hopen
    cases hr with
    | sent => cases hend
    | left => cases congrArg Ctx.pc heq
    | again hk => cases hend
  | @errCh g v hpc hv =>
    obtain ⟨_, heq, -⟩ := received_eq cfg { s with mc := M.taken s.mc g } v
    rw [heq]
    intro _ g' hg'
    -- the value comes from the only open instance, which leaves its loop with it
    obtain ⟨hsome, -, -⟩ := hc.current g (ho g v hv)
    obtain ⟨hsome', -, -⟩ := hc.current g' hg'
    cases hsome.symm.trans hsome'
    exact O.finished_taken hv
  | @command c cs hpc _ =>
    intro hend
    cases c with
    | other n =>
      have hend' : s.pc.ending := hend
      rw [hpc] at hend'
      cases hend'
    | _ => cases hend
  | @pushed site r hpc =>
    intro hend g hg
    cases site with
    | newMail =>
      obtain ⟨_, _, heq, -⟩ := pushed_eq cfg s .newMail r
      rw [heq] at hg ⊢
      exact hp (by rw [hpc]; rfl) g hg
    | _ => cases hend
  | recovered hpc | returned hpc | waited hpc | cleanup hpc =>
    intro _ g hg
    exact hp (by rw [hpc]; rfl) g hg
  | cleanupClient hpc =>
    intro _ g hg
    exact O.finished_cleanup (hp (by rw [hpc]; rfl) g hg)
  | _ => exact fun hend => by cases hend

theorem PollsOver.frame (hp : PollsOver O s) (hf : SameLoop s s')
    (hover : ∀ g, O.finished s.mc g → O.finished s'.mc g) : PollsOver O s' := by
  intro hend g hg
  refine hover g (hp (hf.pc ▸ hend) g ?_)
  exact ⟨hf.madePoll ▸ hg.1, hf.closedPoll ▸ hg.2⟩

/-- What `start()` does to the client keeps its requests attended. -/
theorem Drives.attended (h : Drives M s mc) (hl : LaunchOnce s) (ha : O.Attended s.mc) :
    O.Attended mc := by
  cases h with
  | idle => exact ha
  | launch hg hpc => exact O.attended_launch (hl.absent hpc hg) ha
  | taken _ hv => exact O.attended_taken hv ha
  | cleanup => exact O.attended_cleanup ha

/-! ## No send is stranded -/

/-- The session and its client while no send races with the end of its receiver. -/
structure Orderly (O : M.Order) (s : Ctx M.State) : Prop where
  wired : Wired s
  launchOnce : LaunchOnce s
  channels : ChannelsOk s
  events : EventsLegal s
  senders : SendersOpen s
  polls : PollsOver O s
  attended : O.Attended s.mc

theorem Orderly.step {a : Act M.Label} (h : Orderly O s) (hc : NoRace O s a)
    (hs : step M cfg s a = some s') : Orderly O s' where
  wired := step_wired h.wired hs
  launchOnce := step_launchOnce h.launchOnce h.wired hs
  channels := step_channelsOk h.channels hs
  events := step_eventsLegal h.events hc.noExpiryInWindow hs
  senders := step_sendersOpen h.wired h.senders hc.noLateResult hs
  polls := by
    cases step_moves hs with
    | start hm => exact (start_cases hm).pollsOver h.polls h.channels h.events h.senders
    | poll hf hm => exact h.polls.frame hf fun g => O.finished_step hm
    | expire hf => exact h.polls.frame hf fun g => id
    | other hf hmc => exact h.polls.frame hf fun g => hmc ▸ id
  attended := by
    cases step_moves hs with
    | start hm => exact (start_cases hm).drives.attended h.launchOnce h.attended
    | poll _ hm => exact O.attended_step hm hc.2 h.attended
    | expire => exact h.attended
    | other _ hmc => exact hmc ▸ h.attended

theorem orderly_init : Orderly O (init M cfg) where
  wired := init_wired
  launchOnce := trivial
  channels := init_channelsOk
  events := trivial
  senders g v hv := by
    have hnone : M.offer M.fresh g = none := M.offer_absent M.absent_fresh
    exact absurd (hnone.symm.trans hv) (by simp)
  polls hend := by cases hend
  attended := O.attended_fresh

/-- Once `start()` has left its loop, a poll is closed or has left its own. -/
theorem Orderly.offer_none (h : Orderly O s) (hleft : s.pc.left) (g : Nat) :
    M.offer s.mc g = none := by
  cases hv : M.offer s.mc g with
  | none => rfl
  | some v =>
    have hover := h.polls (Pc.ending_of_left hleft) g (h.senders g v hv)
    exact hv.symm.trans (O.offer_finished hover)

/-- The mail client that a session is made with. -/
inductive Protocol
  | activeSync (env : Exchange.Env)
  | imap (env : Imap.Env)

namespace Protocol

def client : Protocol → MailClient
  | .activeSync env => Exchange.client env
  | .imap env => Imap.client env

def order : (P : Protocol) → P.client.Order
  | .activeSync env => Exchange.order env
  | .imap env => Imap.order env

end Protocol

/-- When no send races with the end of its receiver, then after `start()` has left its loop no
`LongPoll` is in a send on `errCh`, and a request goroutine is in a send only while its `LongPoll`
is in the select that receives it: whatever the wait group still counts can go on. -/
theorem no_stranded_sender (P : Protocol) {s : Ctx P.client.State}
    {as : List (Act P.client.Label)}
    (h : Run (step P.client cfg) (NoRace P.order) (init P.client cfg) as s) :
    (s.pc.left → ∀ g, P.client.offer s.mc g = none) ∧
      ∀ r, P.client.atSend s.mc r → P.client.awaited s.mc r := by
  have hinv : Orderly P.order s := h.inv (fun hi hc hs => hi.step hc hs) orderly_init
  exact ⟨hinv.offer_none, fun r ha => P.order.awaited_of_atSend hinv.attended ha⟩

/-- New mail is received and pushed, and the session ends. -/
def pushedActs : List (Act Exchange.Label) :=
  List.flatten [newMailActs, [.start (.errCh 0), .start (.pushed .ok)], goSteps 6,
    [.poll (.cancel 0)]]

theorem no_stranded_sender_newMail :
    ∃ s, Run (step (Protocol.activeSync { pi := pingInfo }).client eagerSettings)
        (NoRace (Protocol.activeSync { pi := pingInfo }).order) (init _ eagerSettings)
        pushedActs s ∧
      s.pc = .waiting ∧ ∀ g, (Exchange.client { pi := pingInfo }).offer s.mc g = none :=
  have h : Run (step (Protocol.activeSync { pi := pingInfo }).client eagerSettings)
      (NoRace (Protocol.activeSync { pi := pingInfo }).order) (init _ eagerSettings) pushedActs _ :=
    Run.of_execIf rfl
  ⟨_, h, rfl, (no_stranded_sender (.activeSync { pi := pingInfo }) h).1 rfl⟩

/-- A stop is served while new mail is sent, and the session ends. -/
def stoppedMailActs : List (Act Exchange.Label) :=
  List.flatten [newMailActs, [.command .stop, .start .command], goSteps 6]

/-- A stop is served while the poll is already in its send on `errCh`: nobody receives the value,
and `start()` waits for ever for the poll it counts. -/
theorem stopped_poll_stranded :
    ∃ s, Run (step (Exchange.client { pi := pingInfo }) eagerSettings) Free (init _ eagerSettings)
        stoppedMailActs s ∧
      s.pc = .waiting ∧ (Exchange.client { pi := pingInfo }).wg s.mc = 1 ∧
      (Exchange.client { pi := pingInfo }).offer s.mc 0 = some .newMail :=
  ⟨_, Run.of_exec rfl, rfl, rfl, rfl⟩

end Pinger.Session

import Pinger.Session.Channels
import Pinger.Session.Events

/-! # Whose results `start()` acts on

All `LongPoll` instances of a session send on one `errCh`, and a send does not look at the stop
channel of its instance. A result that is on its way when `exitPinging` closes the stop channel is
therefore received later, in `deferred` or by a newer poll. When no result races with the closing,
every value that is received comes from the current poll. -/

namespace Pinger.Session

open EventFsm Transition

variable {M : MailClient} {cfg : Settings} {s s' : Ctx M.State}

/-- The next operation closes the stop channel. -/
def Pc.closesPoll : Pc → Bool
  | .leave (.closeStopPollCh :: _) _ _ | .enter (.closeStopPollCh :: _) _ => true
  | _ => false

/-- `exitPinging` closes a stop channel only while its instance is not in a send on `errCh`, and
an instance whose stop channel is closed does not go to such a send. -/
def NoLateResult (s : Ctx M.State) : Act M.Label → Prop
  | .start .go => s.pc.closesPoll → ∀ g ∈ s.stopPollCh, M.offer s.mc g = none
  | .poll l => ∀ mc ∈ M.step s.signals s.mc l, ∀ g ∈ s.closedPoll,
      M.offer s.mc g = none → M.offer mc g = none
  | _ => True

instance (s : Ctx M.State) : (a : Act M.Label) → Decidable (NoLateResult s a)
  | .start .go => inferInstanceAs (Decidable (_ → ∀ g ∈ _, M.offer s.mc g = none))
  | .poll l => inferInstanceAs (Decidable (∀ mc ∈ M.step s.signals s.mc l, ∀ g ∈ s.closedPoll,
      M.offer s.mc g = none → M.offer mc g = none))
  | .start .maxPoll | .start .deferTick | .start (.errCh _) | .start .command
  | .start (.pushed _) => .isTrue trivial
  | .advance _ | .expireDefer | .expireMax | .command _ | .setWait _ => .isTrue trivial

/-- Only instances whose stop channel is open are in a send on `errCh`. -/
def SendersOpen (s : Ctx M.State) : Prop := ∀ g v, M.offer s.mc g = some v → s.PollOpen g

theorem SendersOpen.mono (ho : SendersOpen s) (hmade : s.madePoll ≤ s'.madePoll)
    (hcl : s'.closedPoll = s.closedPoll)
    (hoff : ∀ g v, M.offer s'.mc g = some v → M.offer s.mc g = some v) : SendersOpen s' := by
  intro g v hv
  obtain ⟨hlt, hopen⟩ := ho g v (hoff g v hv)
  exact ⟨Nat.lt_of_lt_of_le hlt hmade, hcl ▸ hopen⟩

theorem perform_sendersOpen (ho : SendersOpen s) (h : perform M cfg s op = some s')
    (hc : op = .closeStopPollCh → ∀ g ∈ s.stopPollCh, M.offer s.mc g = none) : SendersOpen s' := by
  cases op with
  | makeStopPollCh => cases h; exact ho.mono (Nat.le_succ _) rfl fun _ _ hv => hv
  | goLongPoll =>
    obtain ⟨g, _, rfl⟩ := Option.map_eq_some_iff.mp h
    exact ho.mono (Nat.le_refl _) rfl fun _ _ hv => M.offer_launch hv
  | closeStopPollCh =>
    obtain ⟨g, hg, -, rfl⟩ := perform_closeStopPollCh h
    intro g' v hv
    obtain ⟨hlt, hopen⟩ := ho g' v hv
    refine ⟨hlt, fun hmem => ?_⟩
    rcases List.mem_cons.mp hmem with rfl | hmem
    · have hv' : M.offer s.mc g' = some v := hv
      rw [hc rfl g' hg] at hv'
      cases hv'
    · exact hopen hmem
  | _ => cases h; exact ho.mono (Nat.le_refl _) rfl fun _ _ hv => hv

theorem StartStep.sendersOpen (h : StartStep M cfg s s') (ho : SendersOpen s)
    (hc : s.pc.closesPoll → ∀ g ∈ s.stopPollCh, M.offer s.mc g = none) : SendersOpen s' := by
  have same : ∀ {t : Ctx M.State}, t.madePoll = s.madePoll → t.closedPoll = s.closedPoll →
      t.mc = s.mc → SendersOpen t := fun hm hcl hmc =>
    ho.mono (Nat.le_of_eq hm.symm) hcl fun _ _ hv => hmc ▸ hv
  cases h with
  | leave hpc hop | enter hpc hop =>
    have := perform_sendersOpen ho hop fun e => hc (by rw [hpc, e]; rfl)
    exact this
  | resumed =>
    obtain ⟨_, _, _, _, heq, -⟩ := resume_eq cfg { s with fsm := s.fsm.finish } _
    rw [heq]
    exact same rfl rfl rfl
  | errCh _ hv =>
    obtain ⟨_, heq, -⟩ := received_eq cfg { s with mc := M.taken s.mc _ } _
    rw [heq]
    exact ho.mono (Nat.le_refl _) rfl fun _ _ hv => M.offer_taken hv
  | command =>
    obtain ⟨_, _, heq, -⟩ := handle_eq { s with command := _ } _
    rw [heq]
    exact same rfl rfl rfl
  | pushed =>
    obtain ⟨_, _, heq, -⟩ := pushed_eq cfg s _ _
    rw [heq]
    exact same rfl rfl rfl
  | cleanupClient => exact ho.mono (Nat.le_refl _) rfl fun _ _ hv => M.offer_cleanup hv
  | _ => exact same rfl rfl rfl

theorem step_sendersOpen {a : Act M.Label} (hw : Wired s) (ho : SendersOpen s)
    (hc : NoLateResult s a) (h : step M cfg s a = some s') : SendersOpen s' := by
  have hw' := step_wired hw h
  cases step_moves h with
  | @start p _ h =>
    refine (start_cases h).sendersOpen ho fun hcl => ?_
    by_cases hp : p = .go
    · subst hp
      exact hc hcl
    · rcases start_pick h hp with hpc | ⟨site, hpc⟩ <;> rw [hpc] at hcl <;> cases hcl
  | @poll mc l _ hs =>
    intro g v hv
    refine ⟨hw'.offer_lt hv, fun hmem => ?_⟩
    -- a closed instance was not sending before, so it is not sending now
    have hnone : M.offer s.mc g = none := by
      cases hoff : M.offer s.mc g with
      | none => rfl
      | some w => exact absurd hmem (ho g w hoff).2
    have hv' : M.offer mc g = some v := hv
    rw [hc mc hs g hmem hnone] at hv'
    cases hv'
  | expire => exact ho.mono (Nat.le_refl _) rfl fun _ _ hv => hv
  | other hf hmc =>
    exact ho.mono (Nat.le_of_eq hf.madePoll.symm) hf.closedPoll fun _ _ hv => hmc ▸ hv

/-! ## Whole runs -/

/-- When no result races with the closing of its stop channel, a value that `start()` receives on
`errCh` was sent by the instance of the last `enterPinging`, whose stop channel is open, and the
state machine is in `pinging`. -/
theorem received_from_current (h : Run (step M cfg) NoLateResult (init M cfg) as s)
    (hrecv : step M cfg s (.start (.errCh g)) = some s') :
    s.fsm.current = .pinging ∧ s.stopPollCh = some g ∧ g + 1 = s.madePoll ∧
      g ∉ s.closedPoll := by
  have hinv : Wired s ∧ ChannelsOk s ∧ SendersOpen s := by
    refine h.inv (I := fun s => Wired s ∧ ChannelsOk s ∧ SendersOpen s) ?_ ?_
    · rintro s a s' ⟨hw, hch, ho⟩ hc hs
      exact ⟨step_wired hw hs, step_channelsOk hch hs, step_sendersOpen hw ho hc hs⟩
    · refine ⟨init_wired, init_channelsOk, fun g v hv => ?_⟩
      have hnone : M.offer M.fresh g = none := M.offer_absent M.absent_fresh
      exact absurd (hnone.symm.trans hv) (by simp)
  obtain ⟨-, hch, ho⟩ := hinv
  simp only [step, start] at hrecv
  split at hrecv
  next hpc =>
    obtain ⟨v, hv, -⟩ := Option.map_eq_some_iff.mp hrecv
    have hopen := ho g v hv
    obtain ⟨hsome, hlast, hcur⟩ := hch.current g hopen
    simp only [OpenPc, hpc] at hcur
    exact ⟨hcur, hsome, hlast, hopen.2⟩
  next => cases hrecv

/-! ## Concrete runs -/

/-- A registration whose unchanged reply is known. -/
def pingInfo : MailPingInformation := { noChangeReply := some (GoString.lit "no") }

/-- The steps by which instance `g`, which makes request `r`, learns of new mail. -/
def newMailSteps (g r : Nat) : List Exchange.Label :=
  [.start g, .spawn g, .lock r, .setup r, .call r,
    .reply r (.ok { statusCode := 200, chunk := GoString.lit "ok", readErr := none }),
    .clear r, .test r, .recv g]

/-- A session up to the moment its first poll sends new mail. -/
def newMailActs : List (Act Exchange.Label) :=
  List.flatten [eagerActs, (newMailSteps 0 0).map .poll]

theorem received_from_current_first :
    ∃ s s', Run (step (Exchange.client { pi := pingInfo }) eagerSettings) NoLateResult
        (init _ eagerSettings) newMailActs s ∧
      step (Exchange.client { pi := pingInfo }) eagerSettings s (.start (.errCh 0)) = some s' ∧
      s.fsm.current = .pinging ∧ s.stopPollCh = some 0 :=
  have h : Run (step (Exchange.client { pi := pingInfo }) eagerSettings) NoLateResult
      (init _ eagerSettings) newMailActs _ := Run.of_execIf rfl
  have hrecv : step (Exchange.client { pi := pingInfo }) eagerSettings _ (.start (.errCh 0)) =
      some _ := rfl
  ⟨_, _, h, hrecv, (received_from_current h hrecv).1, (received_from_current h hrecv).2.1⟩

/-- Then a deferral is served, and the result received. -/
def deferredMailActs : List (Act Exchange.Label) :=
  List.flatten [newMailActs, [.command .defer, .start .command], goSteps 11, [.start (.errCh 0)]]

/-- A deferral is served while the poll is already in its send: the result is received in
`deferred`, and pushed. -/
theorem deferred_result_pushed :
    ∃ s, Run (step (Exchange.client { pi := pingInfo }) eagerSettings) Free (init _ eagerSettings)
        deferredMailActs s ∧
      s.fsm.current = .deferred ∧ 0 ∈ s.closedPoll ∧ s.pc = .push .newMail :=
  ⟨_, Run.of_exec rfl, rfl, by decide, rfl⟩

end Pinger.Session

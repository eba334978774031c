import Pinger.Session.Steps

/-! # The stop channels of a session

A `LongPoll` instance is launched with a stop channel of its own, which `exitPinging` closes. The
channel is open only while its instance is the latest one and the state machine is in `pinging`. -/

namespace Pinger.Session

open EventFsm Transition

variable {M : MailClient} {cfg : Settings} {s s' : Ctx M.State}

/-! ## Instances exist once they are launched -/

/-- The stop channel is the last one made, and an instance exists only once its stop channel has
been made. -/
structure Wired (s : Ctx M.State) : Prop where
  made : ∀ g, s.stopPollCh = some g → g + 1 = s.madePoll
  absent : ∀ g, s.madePoll ≤ g → M.absent s.mc g

theorem Wired.of_eq (hw : Wired s) (hch : s'.stopPollCh = s.stopPollCh)
    (hmade : s'.madePoll = s.madePoll) (hmc : s'.mc = s.mc) : Wired s' :=
  ⟨hch ▸ hmade ▸ hw.made, hmc ▸ hmade ▸ hw.absent⟩

theorem Wired.offer_lt (hw : Wired s) (hv : M.offer s.mc g = some v) : g < s.madePoll := by
  by_contra hg
  rw [M.offer_absent (hw.absent g (Nat.le_of_not_lt hg))] at hv
  cases hv

theorem perform_wired (hw : Wired s) (h : perform M cfg s op = some s') : Wired s' := by
  cases op with
  | makeStopPollCh =>
    cases h
    refine ⟨fun g hg => ?_, fun g hg => hw.absent g (Nat.le_of_succ_le hg)⟩
    cases hg
    rfl
  | goLongPoll =>
    obtain ⟨g, hg, rfl⟩ := Option.map_eq_some_iff.mp h
    refine ⟨hw.made, fun g' hg' => M.absent_launch ?_ (hw.absent g' hg')⟩
    have := hw.made g hg
    show g' ≠ g
    have : s.madePoll ≤ g' := hg'
    omega
  | closeStopPollCh =>
    obtain ⟨g, -, -, rfl⟩ := perform_closeStopPollCh h
    exact hw.of_eq rfl rfl rfl
  | _ => cases h; exact hw.of_eq rfl rfl rfl

theorem StartStep.wired (h : StartStep M cfg s s') (hw : Wired s) : Wired s' := by
  cases h with
  | leave _ hop | enter _ hop => exact (perform_wired hw hop).of_eq rfl rfl rfl
  | resumed =>
    obtain ⟨_, _, _, _, heq, -⟩ := resume_eq cfg { s with fsm := s.fsm.finish } _
    rw [heq]
    exact hw.of_eq rfl rfl rfl
  | errCh _ hv =>
    obtain ⟨_, heq, -⟩ := received_eq cfg { s with mc := M.taken s.mc _ } _
    rw [heq]
    exact ⟨hw.made, fun g hg => M.absent_taken hv (hw.absent g hg)⟩
  | command =>
    obtain ⟨_, _, heq, -⟩ := handle_eq { s with command := _ } _
    rw [heq]
    exact hw.of_eq rfl rfl rfl
  | pushed =>
    obtain ⟨_, _, heq, -⟩ := pushed_eq cfg s _ _
    rw [heq]
    exact hw.of_eq rfl rfl rfl
  | cleanupClient => exact ⟨hw.made, fun g hg => M.absent_cleanup (hw.absent g hg)⟩
  | _ => exact hw.of_eq rfl rfl rfl

theorem step_wired {a : Act M.Label} (hw : Wired s) (h : step M cfg s a = some s') : Wired s' := by
  cases step_moves h with
  | start h => exact (start_cases h).wired hw
  | poll _ hs => exact ⟨hw.made, fun g hg => M.absent_step hs (hw.absent g hg)⟩
  | expire => exact hw.of_eq rfl rfl rfl
  | other hf hmc => exact hw.of_eq hf.stopPollCh hf.madePoll hmc

theorem init_wired : Wired (init M cfg) :=
  ⟨fun _ h => (nomatch h), fun _ _ => M.absent_fresh⟩

/-! ## An open channel belongs to the current poll -/

/-- The stop channel of instance `g` has been made and is not closed. -/
def Ctx.PollOpen (s : Ctx σ) (g : Nat) : Prop := g < s.madePoll ∧ g ∉ s.closedPoll

/-- Where `start()` may be while a stop channel is open. -/
def OpenPc (s : Ctx σ) : Prop :=
  match s.pc with
  | .boot => False
  | .event _ _ | .select | .push _ => s.fsm.current = .pinging
  | .leave ops _ _ => s.fsm.current = .pinging ∧ ops = exitPinging
  | .enter ops k => s.fsm.current = .pinging ∧ k = .sent ∧ .makeStopPollCh ∉ ops
  | _ => True

/-- The callbacks that are running make a stop channel only on entering `pinging`. -/
def OpsOk (s : Ctx σ) : Prop :=
  match s.pc with
  | .leave ops e k => .makeStopPollCh ∉ ops ∧ s.fsm.transition = some e.name ∧
      (e = .pinging → k = .sent)
  | .enter ops k => .makeStopPollCh ∈ ops →
      ops = enterPinging ∧ s.fsm.current = .pinging ∧ k = .sent ∧ ∀ g, ¬s.PollOpen g
  | .event e k => e = .pinging → k = .sent
  | _ => True

/-- An open stop channel is the one of the last `enterPinging`, and `start()` is in `pinging`. -/
structure ChannelsOk (s : Ctx σ) : Prop where
  ops : OpsOk s
  current : ∀ g, s.PollOpen g → s.stopPollCh = some g ∧ g + 1 = s.madePoll ∧ OpenPc s

/-- Apart from the making of a stop channel, an operation only closes channels. -/
theorem perform_channels (h : perform M cfg s op = some s') (hop : op ≠ .makeStopPollCh) :
    s'.stopPollCh = s.stopPollCh ∧ s'.madePoll = s.madePoll ∧ s.closedPoll ⊆ s'.closedPoll := by
  cases op with
  | makeStopPollCh => exact absurd rfl hop
  | goLongPoll =>
    obtain ⟨g, _, rfl⟩ := Option.map_eq_some_iff.mp h
    exact ⟨rfl, rfl, List.Subset.refl _⟩
  | closeStopPollCh =>
    obtain ⟨g, -, -, rfl⟩ := perform_closeStopPollCh h
    exact ⟨rfl, rfl, List.subset_cons_self _ _⟩
  | _ => cases h; exact ⟨rfl, rfl, List.Subset.refl _⟩

theorem Ctx.PollOpen.of_subset {s s' : Ctx σ} (h : s'.PollOpen g) (hmade : s'.madePoll = s.madePoll)
    (hcl : s.closedPoll ⊆ s'.closedPoll) : s.PollOpen g :=
  ⟨hmade ▸ h.1, fun hg => h.2 (hcl hg)⟩

/-- An operation of a callback that leaves a state closes the open channel. -/
theorem channelsOk_leave (hc : ChannelsOk s) (hpc : s.pc = .leave (op :: ops) e k)
    (hop : perform M cfg s op = some t) : ChannelsOk { t with pc := .leave ops e k } := by
  have hops := hc.ops
  simp only [OpsOk, hpc, List.mem_cons, not_or] at hops
  obtain ⟨⟨hne, hmem⟩, htr, hk⟩ := hops
  obtain ⟨hch, hmade, hcl⟩ := perform_channels hop (Ne.symm hne)
  refine ⟨⟨hmem, by rw [(perform_keeps hop).fsm, htr], hk⟩, fun g hg => ?_⟩
  have hopen : s.PollOpen g := Ctx.PollOpen.of_subset hg hmade hcl
  obtain ⟨hsome, -, hpc'⟩ := hc.current g hopen
  simp only [OpenPc, hpc] at hpc'
  -- the only operation is the closing of `g`
  cases hpc'.2
  obtain ⟨g', hg', -, rfl⟩ := perform_closeStopPollCh hop
  cases hsome.symm.trans hg'
  exact absurd List.mem_cons_self hg.2

/-- On entering a state the open channel stays as it is, unless it is made there. -/
theorem channelsOk_enter (hc : ChannelsOk s) (hpc : s.pc = .enter (op :: ops) k)
    (hop : perform M cfg s op = some t) : ChannelsOk { t with pc := .enter ops k } := by
  have hops := hc.ops
  simp only [OpsOk, hpc] at hops
  by_cases hmk : op = .makeStopPollCh
  · subst hmk
    obtain ⟨heq, hcur, hk, hnone⟩ := hops List.mem_cons_self
    cases heq
    cases hop
    refine ⟨by simp [OpsOk], fun g hg => ?_⟩
    have hg' : g = s.madePoll := by
      by_contra hne
      exact hnone g ⟨Nat.lt_of_le_of_ne (Nat.le_of_lt_succ hg.1) hne, hg.2⟩
    subst hg'
    exact ⟨rfl, rfl, hcur, hk, by simp⟩
  · obtain ⟨hch, hmade, hcl⟩ := perform_channels hop hmk
    refine ⟨fun hmem => ?_, fun g hg => ?_⟩
    · cases (hops (List.mem_cons_of_mem _ hmem)).1
      exact absurd rfl hmk
    · obtain ⟨hsome, hlast, hpc'⟩ := hc.current g (Ctx.PollOpen.of_subset hg hmade hcl)
      simp only [OpenPc, hpc, List.mem_cons, not_or] at hpc'
      refine ⟨hch.trans hsome, by rw [hlast, ← hmade], ?_⟩
      exact ⟨by rw [(perform_keeps hop).fsm, hpc'.1], hpc'.2.1, hpc'.2.2.2⟩

/-- The state machine has entered the next state: every channel is closed. -/
theorem channelsOk_transit (hc : ChannelsOk s) (hpc : s.pc = .leave [] e k) :
    ChannelsOk { s with fsm := s.fsm.transit, pc := .enter (enterCallback e) k } := by
  have hnone : ∀ g, ¬s.PollOpen g := fun g hg => by
    have := (hc.current g hg).2.2
    simp [OpenPc, hpc, exitPinging] at this
  have hops := hc.ops
  simp only [OpsOk, hpc] at hops
  obtain ⟨-, htr, hk⟩ := hops
  refine ⟨fun hmem => ?_, fun g hg => absurd hg (hnone g)⟩
  cases e with
  | pinging => exact ⟨rfl, by simp [Fsm.transit, htr, FsmEvent.name], hk rfl, hnone⟩
  | deferred st => simp [enterCallback, enterDeferred] at hmem
  | stopped st err => simp [enterCallback, enterStopped] at hmem

/-- A step of `start()` outside the callbacks that keeps the channels and, while one is open, the
state. -/
theorem ChannelsOk.of_eq (hc : ChannelsOk s) (hch : s'.stopPollCh = s.stopPollCh)
    (hmade : s'.madePoll = s.madePoll) (hcl : s'.closedPoll = s.closedPoll) (hops : OpsOk s')
    (hpc : OpenPc s → OpenPc s') : ChannelsOk s' := by
  refine ⟨hops, fun g hg => ?_⟩
  obtain ⟨hsome, hlast, ho⟩ := hc.current g ⟨hmade ▸ hg.1, hcl ▸ hg.2⟩
  exact ⟨hch.trans hsome, hlast.trans hmade.symm, hpc ho⟩

theorem opsOk_of_stops {s : Ctx σ} (h : s.pc.Stops) : OpsOk s := by
  unfold OpsOk
  generalize s.pc = pc at h ⊢
  cases h with
  | push => trivial
  | event hk => exact fun h => (nomatch h)

theorem openPc_of_stops {s : Ctx σ} (h : s.pc.Stops) (hcur : s.fsm.current = .pinging) :
    OpenPc s := by
  unfold OpenPc
  generalize s.pc = pc at h ⊢
  cases h <;> exact hcur

theorem StartStep.channelsOk (h : StartStep M cfg s s') (hc : ChannelsOk s) : ChannelsOk s' := by
  cases h with
  | boot hpc => exact hc.of_eq rfl rfl rfl (by simp [OpsOk]) (by simp [OpenPc, hpc])
  | refused => exact hc.of_eq rfl rfl rfl trivial fun _ => trivial
  | @begun e k fsm hpc hb =>
    obtain ⟨htr, -, rfl⟩ := begin_ok hb
    have hops := hc.ops
    simp only [OpsOk, hpc] at hops
    refine hc.of_eq rfl rfl rfl ⟨?_, rfl, hops⟩ fun ho => ?_
    · cases s.fsm.current <;> simp [leaveCallback, leaveInit, exitDeferred, exitPinging, exitStopped]
    · simp only [OpenPc, hpc] at ho ⊢
      exact ⟨ho, by rw [ho]; rfl⟩
  | leave hpc hop => exact channelsOk_leave hc hpc hop
  | transit hpc => exact channelsOk_transit hc hpc
  | enter hpc hop => exact channelsOk_enter hc hpc hop
  | crash => exact hc.of_eq rfl rfl rfl trivial fun _ => trivial
  | @resumed k hpc =>
    obtain ⟨_, _, _, pc, heq, hr⟩ := resume_eq cfg { s with fsm := s.fsm.finish } _
    rw [heq]
    refine hc.of_eq rfl rfl rfl ?_ fun ho => ?_
    · cases hr <;> simp [OpsOk]
    · simp only [OpenPc, hpc] at ho
      obtain ⟨hcur, rfl, -⟩ := ho
      cases hr with
      | sent => exact hcur
      | left => trivial
      | again hk => rcases hk with hk | hk <;> cases hk
  | maxPoll hpc => exact hc.of_eq rfl rfl rfl trivial (by simp [OpenPc, hpc])
  | deferTick hpc => exact hc.of_eq rfl rfl rfl (by simp [OpsOk]) (by simp [OpenPc, hpc])
  | errCh hpc hv =>
    obtain ⟨pc, heq, hpc'⟩ := received_eq cfg { s with mc := M.taken s.mc _ } _
    rw [heq]
    exact hc.of_eq rfl rfl rfl (opsOk_of_stops hpc') fun ho =>
      openPc_of_stops hpc' (by simpa [OpenPc, hpc] using ho)
  | command hpc hcmd =>
    obtain ⟨_, pc, heq, hpc'⟩ := handle_eq { s with command := _ } _
    rw [heq]
    rcases hpc' with hpc' | hpc'
    · exact hc.of_eq rfl rfl rfl (opsOk_of_stops hpc') fun ho =>
        openPc_of_stops hpc' (by simpa [OpenPc, hpc] using ho)
    · subst hpc'
      exact hc.of_eq rfl rfl rfl (by simp [OpsOk, hpc]) (by simp [OpenPc, hpc])
  | pushed hpc =>
    obtain ⟨_, pc, heq, hpc'⟩ := pushed_eq cfg s _ _
    rw [heq]
    rcases hpc' with hpc' | rfl
    · exact hc.of_eq rfl rfl rfl (opsOk_of_stops hpc') fun ho =>
        openPc_of_stops hpc' (by simpa [OpenPc, hpc] using ho)
    · exact hc.of_eq rfl rfl rfl trivial fun _ => trivial
  | _ => exact hc.of_eq rfl rfl rfl trivial fun _ => trivial

theorem ChannelsOk.frame (hc : ChannelsOk s) (hf : SameLoop s s') : ChannelsOk s' := by
  have hopen : ∀ g, s'.PollOpen g ↔ s.PollOpen g := fun g => by
    simp only [Ctx.PollOpen, hf.madePoll, hf.closedPoll]
  refine hc.of_eq hf.stopPollCh hf.madePoll hf.closedPoll ?_ ?_
  · simpa only [OpsOk, hf.pc, hf.fsm, hopen] using hc.ops
  · simp only [OpenPc, hf.pc, hf.fsm, imp_self]

theorem step_channelsOk {a : Act M.Label} (hc : ChannelsOk s) (h : step M cfg s a = some s') :
    ChannelsOk s' := by
  cases step_moves h with
  | start h => exact (start_cases h).channelsOk hc
  | poll hf | expire hf | other hf => exact hc.frame hf

theorem init_channelsOk : ChannelsOk (init M cfg) :=
  ⟨trivial, fun _ hg => absurd hg.1 (Nat.not_lt_zero _)⟩

end Pinger.Session

import Pinger.Session.Events

/-! # Deferrals and the ticks that end them

`enterDeferred` stops the deferral timer and arms it for the wait time, but leaves a tick that is
already in the slot where it is. Such a tick ends the new deferral at once. When the slot is empty
at every arming, the tick that ends a deferral was sent by the arming of that deferral. -/

namespace Pinger.Session

open GoTime EventFsm Transition

variable {M : MailClient} {cfg : Settings} {s s' : Ctx M.State}

/-! ## The armings of a run -/

/-- A `Reset` of the deferral timer: when, for how many milliseconds, and its number. -/
structure Reset where
  time : Int
  wait : Nat
  arming : Nat
  deriving DecidableEq, Repr

/-- The end of the wait time. -/
def Reset.due (r : Reset) : Int := r.time + (r.wait * 1000000 : Nat)

def opResets (s : Ctx σ) : Op → List Reset
  | .resetDeferTimer => [⟨s.now, s.waitBeforeUse, s.deferTimer.armings + 1⟩]
  | _ => []

/-- The operation a step of `start()` performs. -/
def Pc.op : Pc → Option Op
  | .leave (op :: _) _ _ | .enter (op :: _) _ => some op
  | _ => none

/-- The armings by `enterDeferred`. -/
def resets (s : Ctx σ) : Act L → List Reset
  | .start .go => s.pc.op.elim [] (opResets s)
  | _ => []

/-- When the timer is armed no tick waits in its slot, and the wait time fits in a duration. -/
def FreshReset (s : Ctx σ) : Act L → Prop
  | .start .go => s.pc.op = some .resetDeferTimer →
      s.deferTimer.tick = none ∧ s.waitBeforeUse * 1000000 < 2 ^ 63
  | _ => True

instance (s : Ctx σ) : (a : Act L) → Decidable (FreshReset s a)
  | .start .go => inferInstanceAs (Decidable (_ → _ ∧ _))
  | .start .maxPoll | .start .deferTick | .start (.errCh _) | .start .command
  | .start (.pushed _) => .isTrue trivial
  | .advance _ | .expireDefer | .expireMax | .command _ | .setWait _ | .poll _ => .isTrue trivial

/-! ## The invariant -/

/-- The timer is made on leaving `init`, before the first arming, and never again. -/
def Stage (log : List Reset) (s : Ctx σ) : Prop :=
  match s.pc with
  | .boot => log = []
  | .event _ _ => s.fsm.current = .init ∧ log = [] ∨ s.fsm.current ≠ .init ∧ log ≠ []
  | .leave ops e _ => s.fsm.transition = some e.name ∧ .resetDeferTimer ∉ ops ∧
      (e.name = .deferred ∧ log = [] ∨ .newDeferTimer ∉ ops ∧ log ≠ [])
  | .enter ops _ => s.fsm.current ≠ .init ∧ .newDeferTimer ∉ ops ∧
      (.resetDeferTimer ∈ ops ∨ log ≠ [])
  | .select | .push _ => s.fsm.current ≠ .init ∧ log ≠ []
  | _ => True

/-- What the timer holds comes from the last arming in the log. -/
structure Provenance (log : List Reset) (s : Ctx σ) : Prop where
  stage : Stage log s
  armed : ∀ r, log.getLast? = some r → s.deferTimer.ArmedBy r.arming r.due s.now

/-! ## One step -/

/-- An operation of a callback: an arming with an empty slot starts afresh, and no other one adds
to what the timer holds. -/
theorem perform_armed (h : perform M cfg s op = some s') (hnew : op = .newDeferTimer → log = [])
    (hfresh : op = .resetDeferTimer → s.deferTimer.tick = none ∧ s.waitBeforeUse * 1000000 < 2 ^ 63)
    (ha : ∀ r, log.getLast? = some r → s.deferTimer.ArmedBy r.arming r.due s.now) (r : Reset)
    (hr : (log ++ opResets s op).getLast? = some r) : s'.deferTimer.ArmedBy r.arming r.due s'.now := by
  cases op with
  | resetDeferTimer =>
    obtain ⟨htick, hwait⟩ := hfresh rfl
    obtain rfl : ⟨s.now, s.waitBeforeUse, s.deferTimer.armings + 1⟩ = r := by
      simpa [opResets] using hr
    cases h
    rw [Reset.due, ← milliseconds_eq hwait]
    exact Timer.ArmedBy.reset htick
  | newDeferTimer =>
    rw [hnew rfl] at hr
    cases hr
  | stopDeferTimer =>
    cases h
    exact (ha r (by simpa [opResets] using hr)).stop
  | goLongPoll =>
    obtain ⟨g, _, rfl⟩ := Option.map_eq_some_iff.mp h
    exact ha r (by simpa [opResets] using hr)
  | closeStopPollCh =>
    obtain ⟨g, -, -, rfl⟩ := perform_closeStopPollCh h
    exact ha r (by simpa [opResets] using hr)
  | _ => cases h; exact ha r (by simpa [opResets] using hr)

/-- A step that arms nothing. -/
theorem Provenance.intro {s : Ctx σ} (hst : Stage log s)
    (ha : ∀ r, log.getLast? = some r → s.deferTimer.ArmedBy r.arming r.due s.now) :
    Provenance (log ++ []) s := by
  rw [List.append_nil]
  exact ⟨hst, ha⟩

theorem Provenance.of_eq {s s' : Ctx σ} (h : Provenance log s) (hst : Stage log s')
    (ht : s'.deferTimer = s.deferTimer) (hnow : s'.now = s.now) : Provenance (log ++ []) s' :=
  .intro hst (ht ▸ hnow ▸ h.armed)

theorem stage_stops {s : Ctx σ} (hpc : s.pc.Stops) (hcur : s.fsm.current ≠ .init) (hlog : log ≠ []) :
    Stage log s := by
  unfold Stage
  generalize s.pc = pc at hpc ⊢
  cases hpc with
  | push => exact ⟨hcur, hlog⟩
  | event => exact .inr ⟨hcur, hlog⟩

theorem Stage.armed_of_select (h : Stage log s) (hpc : s.pc = .select) :
    s.fsm.current ≠ .init ∧ log ≠ [] := by
  unfold Stage at h
  rwa [hpc] at h

theorem provenance_leave (hp : Provenance log s) (hpc : s.pc = .leave (op :: ops) e k)
    (hop : perform M cfg s op = some t) :
    Provenance (log ++ opResets s op) { t with pc := .leave ops e k } := by
  have hst := hp.stage
  unfold Stage at hst
  rw [hpc] at hst
  obtain ⟨htr, hreset, hnew⟩ := hst
  have hne : op ≠ .resetDeferTimer := fun he => hreset (he ▸ List.mem_cons_self)
  have hmarks : opResets s op = [] := by cases op <;> first | rfl | exact absurd rfl hne
  have hlog : op = .newDeferTimer → log = [] := fun he => by
    rcases hnew with ⟨-, hlog⟩ | ⟨hmem, -⟩
    · exact hlog
    · exact absurd (he ▸ List.mem_cons_self) hmem
  have harmed := perform_armed hop hlog (fun he => absurd he hne) hp.armed
  refine ⟨?_, harmed⟩
  rw [hmarks, List.append_nil]
  refine ⟨(perform_keeps hop).fsm ▸ htr, fun h => hreset (List.mem_cons_of_mem _ h), ?_⟩
  exact hnew.imp_right (And.imp_left fun h h' => h (List.mem_cons_of_mem _ h'))

theorem provenance_enter (hp : Provenance log s) (hpc : s.pc = .enter (op :: ops) k)
    (hfresh : op = .resetDeferTimer → s.deferTimer.tick = none ∧ s.waitBeforeUse * 1000000 < 2 ^ 63)
    (hop : perform M cfg s op = some t) :
    Provenance (log ++ opResets s op) { t with pc := .enter ops k } := by
  have hst := hp.stage
  unfold Stage at hst
  rw [hpc] at hst
  obtain ⟨hcur, hnew, hreset⟩ := hst
  have harmed := perform_armed hop (fun he => absurd (he ▸ List.mem_cons_self) hnew) hfresh hp.armed
  refine ⟨⟨(perform_keeps hop).fsm ▸ hcur, fun h => hnew (List.mem_cons_of_mem _ h), ?_⟩, harmed⟩
  rcases hreset with hmem | hlog
  · rcases List.mem_cons.mp hmem with rfl | hmem
    · exact .inr (by simp [opResets])
    · exact .inl hmem
  · exact .inr (by simp [hlog])

theorem provenance_transit (hp : Provenance log s) (hpc : s.pc = .leave [] e k) :
    Provenance (log ++ []) { s with fsm := s.fsm.transit, pc := .enter (enterCallback e) k } := by
  have hst := hp.stage
  unfold Stage at hst
  rw [hpc] at hst
  obtain ⟨htr, -, hlog⟩ := hst
  have hcur : s.fsm.transit.current = e.name := by simp [Fsm.transit, htr]
  refine hp.of_eq ⟨hcur ▸ ?_, ?_, ?_⟩ rfl rfl
  · cases e <;> simp [FsmEvent.name]
  · cases e <;> simp [enterCallback, enterDeferred, enterPinging, enterStopped]
  · cases e with
    | deferred st => exact .inl (by simp [enterCallback, enterDeferred])
    | pinging | stopped =>
      rcases hlog with ⟨hname, -⟩ | ⟨-, hlog⟩
      · cases hname
      · exact .inr hlog

theorem provenance_go (hp : Provenance log s) (hc : FreshReset s (.start .go : Act L))
    (h : start M cfg s .go = some s') :
    Provenance (log ++ resets s (.start .go : Act L)) s' := by
  have hst := hp.stage
  unfold Stage at hst
  cases start_go_cases h with
  | boot hpc =>
    rw [hpc] at hst
    simp only [resets, hpc, Pc.op, Option.elim_none]
    exact hp.of_eq (.inl ⟨rfl, hst⟩) rfl rfl
  | refused hpc | recovered hpc | returned hpc | waited hpc | cleanup hpc | cleanupClient hpc =>
    simp only [resets, hpc, Pc.op, Option.elim_none]
    exact hp.of_eq trivial rfl rfl
  | @begun e k fsm hpc hb =>
    obtain ⟨-, hlegal, rfl⟩ := begin_ok hb
    rw [hpc] at hst
    simp only [resets, hpc, Pc.op, Option.elim_none]
    refine hp.of_eq ⟨rfl, ?_, ?_⟩ rfl rfl
    · cases s.fsm.current <;> simp [leaveCallback, leaveInit, exitDeferred, exitPinging, exitStopped]
    · rcases hst with ⟨hcur, hlog⟩ | ⟨hcur, hlog⟩
      · refine .inl ⟨?_, hlog⟩
        rw [hcur] at hlegal
        cases e with
        | deferred => rfl
        | pinging => exact absurd hlegal (show ¬Legal .init .pinging by decide)
        | stopped => exact absurd hlegal (show ¬Legal .init .stopped by decide)
      · refine .inr ⟨?_, hlog⟩
        revert hcur
        cases s.fsm.current <;> simp [leaveCallback, exitDeferred, exitPinging, exitStopped]
  | leave hpc hop =>
    simp only [resets, hpc, Pc.op, Option.elim_some]
    exact provenance_leave hp hpc hop
  | enter hpc hop =>
    simp only [resets, hpc, Pc.op, Option.elim_some]
    refine provenance_enter hp hpc (fun he => hc ?_) hop
    rw [hpc, he]
    rfl
  | transit hpc =>
    simp only [resets, hpc, Pc.op, Option.elim_none]
    exact provenance_transit hp hpc
  | crash hpc =>
    rcases hpc with ⟨op, ops, e, k, hpc, hop⟩ | ⟨op, ops, k, hpc, hop⟩
    all_goals
      have hne : opResets s op = [] := by
        cases op <;> first | rfl | simp [perform] at hop
      simp only [resets, hpc, Pc.op, Option.elim_some, hne]
      exact hp.of_eq trivial rfl rfl
  | @resumed k hpc =>
    rw [hpc] at hst
    obtain ⟨hcur, -, hlog⟩ := hst
    have hlog : log ≠ [] := hlog.resolve_left (by simp)
    obtain ⟨_, _, _, pc, heq, hr⟩ := resume_eq cfg { s with fsm := s.fsm.finish } k
    rw [heq]
    simp only [resets, hpc, Pc.op, Option.elim_none]
    refine hp.of_eq ?_ rfl rfl
    cases hr with
    | loop | sent => exact ⟨hcur, hlog⟩
    | left => trivial
    | again => exact .inr ⟨hcur, hlog⟩
  | maxPoll hpc | deferTick hpc | errCh hpc | command hpc | pushed hpc => simp [start, hpc] at h

theorem provenance_start {p : Pick} (hp : Provenance log s) (hc : FreshReset s (.start p : Act L))
    (h : start M cfg s p = some s') : Provenance (log ++ resets s (.start p : Act L)) s' := by
  cases p with
  | go => exact provenance_go hp hc h
  | maxPoll =>
    obtain ⟨hpc, t, _, rfl⟩ := select_cases h
    exact hp.of_eq (hp.stage.armed_of_select hpc) rfl rfl
  | deferTick =>
    obtain ⟨hpc, t, ht, rfl⟩ := select_cases h
    obtain ⟨hcur, hlog⟩ := hp.stage.armed_of_select hpc
    exact .intro (.inr ⟨hcur, hlog⟩) fun r hr => (hp.armed r hr).recv ht
  | errCh g =>
    obtain ⟨hpc, v, _, rfl⟩ := select_cases h
    obtain ⟨hcur, hlog⟩ := hp.stage.armed_of_select hpc
    obtain ⟨pc, heq, hpc'⟩ := received_eq cfg { s with mc := M.taken s.mc g } v
    rw [heq]
    exact hp.of_eq (stage_stops hpc' hcur hlog) rfl rfl
  | command =>
    obtain ⟨hpc, c, cs, -, rfl⟩ := command_cases h
    obtain ⟨hcur, hlog⟩ := hp.stage.armed_of_select hpc
    obtain ⟨_, pc, heq, hpc'⟩ := handle_eq { s with command := cs } c
    rw [heq]
    refine hp.of_eq ?_ rfl rfl
    rcases hpc' with hpc' | rfl
    · exact stage_stops hpc' hcur hlog
    · simp only [Stage, hpc]
      exact ⟨hcur, hlog⟩
  | pushed r =>
    obtain ⟨site, hpc, rfl⟩ := pushed_cases h
    have hst := hp.stage
    unfold Stage at hst
    rw [hpc] at hst
    obtain ⟨_, pc, heq, hpc'⟩ := pushed_eq cfg s site r
    rw [heq]
    refine hp.of_eq ?_ rfl rfl
    rcases hpc' with hpc' | rfl
    · exact stage_stops hpc' hst.1 hst.2
    · trivial

/-- The clock only goes forward, and the steps of others leave the timer alone. -/
theorem step_provenance {a : Act M.Label} (hp : Provenance log s) (hc : FreshReset s a)
    (h : step M cfg s a = some s') : Provenance (log ++ resets s a) s' := by
  have hst : ∀ {t : Ctx M.State}, t.pc = s.pc → t.fsm = s.fsm → Stage log t := fun hpc hf => by
    unfold Stage
    rw [hpc, hf]
    exact hp.stage
  cases a with
  | start p => exact provenance_start hp hc h
  | advance d =>
    cases h
    refine .intro (hst rfl rfl) fun r hr => (hp.armed r hr).later ?_
    exact Int.le_add_of_nonneg_right (Int.natCast_nonneg d)
  | expireDefer =>
    obtain ⟨t, ht, rfl⟩ := Option.map_eq_some_iff.mp h
    exact .intro (hst rfl rfl) fun r hr => (hp.armed r hr).expire ht
  | expireMax => obtain ⟨t, _, rfl⟩ := Option.map_eq_some_iff.mp h; exact hp.of_eq (hst rfl rfl) rfl rfl
  | command c =>
    simp only [step, Ctx.action] at h
    split at h <;> cases h
    exact hp.of_eq (hst rfl rfl) rfl rfl
  | setWait timeout =>
    simp only [step] at h
    split at h <;> cases h <;> exact hp.of_eq (hst rfl rfl) rfl rfl
  | poll l => obtain ⟨mc, _, rfl⟩ := Option.map_eq_some_iff.mp h; exact hp.of_eq (hst rfl rfl) rfl rfl

/-! ## Whole runs -/

/-- As long as no tick waits in the slot when `enterDeferred` arms the timer, and the wait time
fits in a duration, the tick that ends a deferral was sent by the arming of the most recent
`enterDeferred`, and the wait time of that deferral is over. -/
theorem deferral_honoured (h : Run (step M cfg) FreshReset (init M cfg) as s)
    (htick : step M cfg s (.start .deferTick) = some s') :
    ∃ r, (observe (step M cfg) resets (init M cfg) as).getLast? = some r ∧
      s.deferTimer.tick = some r.arming ∧ r.time + (r.wait * 1000000 : Nat) ≤ s.now := by
  have hp : Provenance ([] ++ observe (step M cfg) resets (init M cfg) as) s :=
    h.observe_inv (f := resets) (fun hp hc h => step_provenance hp hc h)
      ⟨rfl, fun _ hr => (nomatch hr)⟩
  rw [List.nil_append] at hp
  obtain ⟨hpc, t, ht, -⟩ := select_cases htick
  obtain ⟨n, hn, -⟩ := Option.map_eq_some_iff.mp ht
  have hlog : observe (step M cfg) resets (init M cfg) as ≠ [] :=
    (hp.stage.armed_of_select hpc).2
  have hr := List.getLast?_eq_some_getLast hlog
  generalize (observe (step M cfg) resets (init M cfg) as).getLast hlog = r at hr
  obtain ⟨rfl, hle⟩ := (hp.armed r hr).tick n hn
  exact ⟨r, hr, hn, hle⟩

/-! ## Concrete runs -/

/-- A session that waits for five minutes. -/
def patientSettings : Settings := { eagerSettings with waitBeforeUse := 300000 }

/-- Five minutes pass. -/
def patientActs : List (Act Exchange.Label) :=
  List.flatten [bootActs, [.advance 300000000000, .expireDefer]]

theorem deferral_honoured_patient :
    ∃ s s', Run (step (Exchange.client { pi := {} }) patientSettings) FreshReset
        (init _ patientSettings) patientActs s ∧
      step (Exchange.client { pi := {} }) patientSettings s (.start .deferTick) = some s' ∧
      ∃ r, (observe (step (Exchange.client { pi := {} }) patientSettings) resets
          (init _ patientSettings) patientActs).getLast? = some r ∧
        r.time + (r.wait * 1000000 : Nat) ≤ s.now := by
  obtain ⟨s, s', h, htick⟩ : ∃ s s', Run (step (Exchange.client { pi := {} }) patientSettings)
      FreshReset (init _ patientSettings) patientActs s ∧
      step (Exchange.client { pi := {} }) patientSettings s (.start .deferTick) = some s' :=
    ⟨_, _, Run.of_execIf rfl, rfl⟩
  obtain ⟨r, hr, -, hle⟩ := deferral_honoured h htick
  exact ⟨s, s', h, htick, r, hr, hle⟩

/-- The timer has expired when the client defers the poll for ten minutes. -/
def deferredActs : List (Act Exchange.Label) :=
  List.flatten [patientActs, [.setWait 600000, .command .defer, .start .command], goSteps 11]

/-- The tick of the first deferral ends the second one at once. -/
theorem deferral_cut_short :
    ∃ s s' r, Run (step (Exchange.client { pi := {} }) patientSettings) Free
        (init _ patientSettings) deferredActs s ∧
      s.fsm.current = .deferred ∧
      step (Exchange.client { pi := {} }) patientSettings s (.start .deferTick) = some s' ∧
      (observe (step (Exchange.client { pi := {} }) patientSettings) resets
        (init _ patientSettings) deferredActs).getLast? = some r ∧
      s.deferTimer.tick ≠ some r.arming ∧ s.now < r.time + (r.wait * 1000000 : Nat) :=
  ⟨_, _, ⟨300000000000, 600000, 3⟩, Run.of_exec rfl, rfl, rfl, rfl, by decide, by decide⟩

end Pinger.Session

import Pinger.Rpc.Registry
import Pinger.Session.LoopHead

/-! # What `start()` leaves behind

The deferred function of `start()` sets the status anew, waits for the goroutines of the mail
client and drops the device and the mail client, one after the other. So the error that ended a
session is gone when the session has ended, and for a while there is a mail client but no device:
from an invalid token, or from the first half of `cleanup()`, to the second half. The methods other
goroutines call look only at the mail client. -/

namespace Pinger.Session

open EventFsm Transition

variable {M : MailClient} {cfg : Settings} {s s' : Ctx M.State}

/-! ## The status after the end -/

/-- The deferred function of `start()` has set the status. -/
def Pc.exited : Pc → Bool
  | .waiting | .cleanup | .cleanupClient | .done => true
  | _ => false

/-- The status an ended session shows. -/
def ExitStatus (s : Ctx σ) : Prop := s.pc.exited → s.status = .stopped ∧ s.lastError = none

theorem StartStep.exitStatus (h : StartStep M cfg s s') (he : ExitStatus s) : ExitStatus s' := by
  cases h with
  | returned => exact fun _ => ⟨rfl, rfl⟩
  | waited hpc | cleanup hpc | cleanupClient hpc => exact fun _ => he (by rw [hpc]; rfl)
  | resumed =>
    obtain ⟨_, _, _, pc, heq, hr⟩ := resume_eq cfg { s with fsm := s.fsm.finish } _
    rw [heq]
    cases hr <;> exact fun hx => (nomatch hx)
  | errCh =>
    obtain ⟨pc, heq, hpc⟩ := received_eq cfg { s with mc := M.taken s.mc _ } _
    rw [heq]
    cases hpc <;> exact fun hx => (nomatch hx)
  | command hpc =>
    obtain ⟨_, pc, heq, hpc'⟩ := handle_eq { s with command := _ } _
    rw [heq]
    rcases hpc' with hpc' | rfl
    · cases hpc' <;> exact fun hx => (nomatch hx)
    · intro hx
      simp only [hpc] at hx
      cases hx
  | pushed =>
    obtain ⟨_, pc, heq, hpc⟩ := pushed_eq cfg s _ _
    rw [heq]
    rcases hpc with hpc | rfl
    · cases hpc <;> exact fun hx => (nomatch hx)
    · exact fun hx => (nomatch hx)
  | _ => exact fun hx => (nomatch hx)

theorem step_exitStatus {a : Act M.Label} (he : ExitStatus s) (h : step M cfg s a = some s') :
    ExitStatus s' := by
  cases a with
  | start p => exact (start_cases h).exitStatus he
  | _ =>
    have hf := step_sameLoop h (by simp)
    obtain ⟨hst, herr, -⟩ := step_frame h (by simp)
    intro hx
    obtain ⟨hs, hl⟩ := he (hf.pc ▸ hx)
    exact ⟨hst.trans hs, herr.trans hl⟩

theorem exited_status (h : Run (step M cfg) C (init M cfg) as s) (hx : s.pc.exited) :
    s.getStatus = (.stopped, none) := by
  have he : ExitStatus s := h.inv (fun he _ hs => step_exitStatus he hs) fun hx => (nomatch hx)
  obtain ⟨hst, herr⟩ := he hx
  simp [Ctx.getStatus, hst, herr]

/-! ## Leaving the loop -/

/-- `start()` is on its way out of the loop. -/
def Pc.leaving : Pc → Bool
  | .event _ .ret | .leave _ _ .ret | .enter _ .ret | .panic _ | .returned => true
  | _ => false

/-- The steps `start()` has left before it waits. -/
def Pc.distance : Pc → Nat
  | .event _ _ => 12
  | .leave ops _ _ => 8 + ops.length
  | .enter ops _ => 3 + ops.length
  | .panic _ => 2
  | .returned => 1
  | _ => 0

theorem enterCallback_length (e : FsmEvent) : (enterCallback e).length ≤ 3 := by
  cases e <;> simp [enterCallback, enterDeferred, enterPinging, enterStopped]

/-- On its way out `start()` goes on by itself, whatever its callbacks do. -/
theorem leaving_step (cfg : Settings) (hl : s.pc.leaving) :
    ∃ s', start M cfg s .go = some s' ∧
      (s'.pc = .waiting ∨ s'.pc.leaving ∧ s'.pc.distance < s.pc.distance) := by
  unfold Pc.leaving at hl
  split at hl
  next e hpc =>
    cases hb : begin fsmEvents s.fsm e.name with
    | error err =>
      refine ⟨{ s with pc := .panic (.event err) }, by simp [start, hpc, hb], .inr ⟨rfl, ?_⟩⟩
      simp [hpc, Pc.distance]
    | ok fsm =>
      refine ⟨_, by simp only [start, hpc, hb]; rfl, .inr ⟨rfl, ?_⟩⟩
      have := leaveCallback_length s.fsm.current
      simp only [hpc, Pc.distance]
      omega
  next ops e hpc =>
    cases ops with
    | nil =>
      refine ⟨_, by simp only [start, hpc]; rfl, .inr ⟨rfl, ?_⟩⟩
      have := enterCallback_length e
      simp only [hpc, Pc.distance]
      omega
    | cons op ops =>
      cases hop : perform M cfg s op with
      | some t =>
        exact ⟨_, by simp only [start, hpc, hop]; rfl, .inr ⟨rfl, by simp [hpc, Pc.distance]⟩⟩
      | none =>
        refine ⟨_, by simp only [start, hpc, hop]; rfl, .inr ⟨rfl, ?_⟩⟩
        simp only [hpc, Pc.distance, List.length_cons]
        omega
  next ops hpc =>
    cases ops with
    | nil => exact ⟨_, by simp only [start, hpc]; rfl, .inr ⟨rfl, by simp [resume, hpc, Pc.distance]⟩⟩
    | cons op ops =>
      cases hop : perform M cfg s op with
      | some t =>
        exact ⟨_, by simp only [start, hpc, hop]; rfl, .inr ⟨rfl, by simp [hpc, Pc.distance]⟩⟩
      | none =>
        refine ⟨_, by simp only [start, hpc, hop]; rfl, .inr ⟨rfl, ?_⟩⟩
        simp only [hpc, Pc.distance, List.length_cons]
        omega
  next p hpc => exact ⟨_, by simp only [start, hpc]; rfl, .inr ⟨rfl, by simp [hpc, Pc.distance]⟩⟩
  next hpc => exact ⟨_, by simp only [start, hpc]; rfl, .inl rfl⟩
  next => cases hl

theorem leaving_exits (cfg : Settings) (hl : s.pc.leaving) :
    ∃ bs s', Run (step M cfg) Free s bs s' ∧ s'.pc.exited := by
  generalize hn : s.pc.distance = n
  induction n using Nat.strong_induction_on generalizing s with
  | _ n ih =>
    obtain ⟨t, ht, hw | ⟨hl', hlt⟩⟩ := leaving_step cfg hl
    · exact ⟨[.start .go], t, .single trivial ht, by rw [hw]; rfl⟩
    · obtain ⟨bs, s', h, hx⟩ := ih t.pc.distance (hn ▸ hlt) hl' rfl
      exact ⟨.start .go :: bs, s', .cons trivial ht h, hx⟩

/-- A session that an error of its mail client ends never shows that error once `start()` has
exited: its status is then `stopped` without an error, and a following `RPCStartPoll` replies OK. -/
theorem error_not_kept (h : Run (step M cfg) Free (init M cfg) as s)
    (hv : M.offer s.mc g = some (.error e))
    (hs : step M cfg s (.start (.errCh g)) = some s₁) :
    ¬(∀ bs s₂, Run (step M cfg) Free s₁ bs s₂ → s₂.pc.exited → s₂.getStatus = (.error, some e)) ∧
    ∀ bs s₂, Run (step M cfg) Free s₁ bs s₂ → s₂.pc.exited → s₂.getStatus = (.stopped, none) ∧
      ∀ (r : Rpc.Registry) (mi : MailPingInformation) (sid : Nat),
        r.pollMap mi.pollMapKey = some sid →
        (Rpc.rpcStartPoll r mi s₂.getStatus).2 = { code := .ok } := by
  have hstatus : ∀ bs s₂, Run (step M cfg) Free s₁ bs s₂ → s₂.pc.exited →
      s₂.getStatus = (.stopped, none) := fun bs s₂ hrun hx =>
    exited_status (h.append (.cons trivial hs hrun)) hx
  refine ⟨fun hkept => ?_, fun bs s₂ hrun hx => ⟨hstatus bs s₂ hrun hx, fun r mi sid hk => ?_⟩⟩
  · obtain ⟨hpc, v, hv', rfl⟩ := select_cases hs
    cases hv.symm.trans hv'
    obtain ⟨bs, s₂, hrun, hx⟩ := leaving_exits (s := received M cfg
      { s with mc := M.taken s.mc g } (.error e)) cfg rfl
    have := (hkept bs s₂ hrun hx).symm.trans (hstatus bs s₂ hrun hx)
    cases this
  · rw [hstatus bs s₂ hrun hx]
    simp [Rpc.rpcStartPoll, hk, Rpc.startReply]

/-- A session whose first request cannot be created, up to the moment its poll sends the error. -/
def failedActs : List (Act Exchange.Label) :=
  List.flatten [eagerActs, [Exchange.Label.start 0, .spawn 0, .lock 0, .setup 0, .recv 0].map .poll]

def failingEnv : Exchange.Env :=
  { pi := pingInfo, newRequestErr := some (GoString.lit "parse :: missing protocol scheme") }

/-- The poll has sent an error, which the loop receives, and the session ends. -/
theorem failed_run :
    ∃ s s₁ s₂, Run (step (Exchange.client failingEnv) eagerSettings) Free (init _ eagerSettings)
        failedActs s ∧
      (Exchange.client failingEnv).offer s.mc 0 = some (.error (GoString.lit
        "Failed to create request: parse :: missing protocol scheme")) ∧
      step (Exchange.client failingEnv) eagerSettings s (.start (.errCh 0)) = some s₁ ∧
      Run (step (Exchange.client failingEnv) eagerSettings) Free s₁ (goSteps 6) s₂ ∧
      s₂.pc = .waiting ∧ s₂.getStatus = (.stopped, none) :=
  have htext : GoString.lit "Failed to create request: " ++
      GoString.lit "parse :: missing protocol scheme" =
      GoString.lit "Failed to create request: parse :: missing protocol scheme" := by decide +kernel
  ⟨_, _, _, Run.of_exec rfl, congrArg (fun e => some (PollResult.error e)) htext, rfl,
    Run.of_exec rfl, rfl, rfl⟩

theorem error_not_kept_request :
    ∃ s s₁, Run (step (Exchange.client failingEnv) eagerSettings) Free (init _ eagerSettings)
        failedActs s ∧
      step (Exchange.client failingEnv) eagerSettings s (.start (.errCh 0)) = some s₁ ∧
      ¬∀ bs s₂, Run (step (Exchange.client failingEnv) eagerSettings) Free s₁ bs s₂ →
        s₂.pc.exited → s₂.getStatus = (.error, some (GoString.lit
          "Failed to create request: parse :: missing protocol scheme")) := by
  obtain ⟨s, s₁, -, h, hv, hs, -⟩ := failed_run
  exact ⟨s, s₁, h, hs, (error_not_kept h hv hs).1⟩

/-- The poll has sent an error, and the ended session is just `stopped`. -/
theorem error_forgotten :
    ∃ s s₂, Run (step (Exchange.client failingEnv) eagerSettings) Free (init _ eagerSettings)
        failedActs s ∧
      (Exchange.client failingEnv).offer s.mc 0 = some (.error (GoString.lit
        "Failed to create request: parse :: missing protocol scheme")) ∧
      Run (step (Exchange.client failingEnv) eagerSettings) Free s
        (List.flatten [[.start (.errCh 0)], goSteps 6]) s₂ ∧
      s₂.pc = .waiting ∧ s₂.getStatus = (.stopped, none) ∧
      (Rpc.startReply (some s₂.getStatus)).code = .ok := by
  obtain ⟨s, s₁, s₂, h, hv, hs, hend, hpc, hst⟩ := failed_run
  exact ⟨s, s₂, h, hv, .cons trivial hs hend, hpc, hst, by rw [hst]; rfl⟩

/-! ## The device -/

/-- A call of another goroutine. -/
inductive Call
  | stop
  | deferPoll (timeout : Nat)
  deriving DecidableEq, Repr

/-- Where such a call is: it looks at the mail client, uses the device, and sends its command. The
last two are run-time panics, on a nil device and on a nil mail client. -/
inductive CallPc
  | check (c : Call)
  | contact (c : Call)
  | updateRequestData
  | action (c : PingerCommand)
  | returned
  | nilDevice
  | nilClient
  deriving DecidableEq, Repr

/-- A step of `stop()` or `deferPoll()`. -/
def CallPc.step (s : Ctx σ) : CallPc → Option (Ctx σ × CallPc)
  | .check c => some (s, if s.mailClient then .contact c else .returned)
  | .contact .stop => some (s, if s.di then .action .stop else .nilDevice)
  | .contact (.deferPoll timeout) =>
    if s.di then
      some ({ s with waitBeforeUse := if 0 < timeout then timeout else s.waitBeforeUse },
        .updateRequestData)
    else some (s, .nilDevice)
  | .updateRequestData => some (s, if s.mailClient then .action .defer else .nilClient)
  | .action c => (s.action c).map fun s' => (s', .returned)
  | .returned | .nilDevice | .nilClient => none

/-- A session and the calls of it. -/
structure Called (σ : Type) where
  ctx : Ctx σ
  calls : List CallPc := []

inductive CalledAct (L : Type)
  | session (a : Act L)
  | call (c : Call)
  | go (i : Nat)
  deriving DecidableEq

def calledStep (M : MailClient) (cfg : Settings) (s : Called M.State) :
    CalledAct M.Label → Option (Called M.State)
  | .session a => (step M cfg s.ctx a).map fun x => { s with ctx := x }
  | .call c => some { s with calls := s.calls ++ [.check c] }
  | .go i =>
    match s.calls[i]? with
    | some p => (p.step s.ctx).map fun (x, p') => { ctx := x, calls := s.calls.set i p' }
    | none => none

/-- The step drops the device: the invalid token of a push, where it is not ignored, or the first
half of `cleanup()`. -/
def dropsDevice (cfg : Settings) (s : Ctx σ) : Act L → Bool
  | .start .go => s.pc = .cleanup
  | .start (.pushed .invalidToken) => s.pc ≠ .push .newMail || !cfg.ignorePushFailures
  | _ => false

/-- The step does not drop the device. -/
def KeepsDevice (cfg : Settings) (s : Called σ) : CalledAct L → Prop
  | .session a => dropsDevice cfg s.ctx a = false
  | _ => True

instance (s : Called σ) : (a : CalledAct L) → Decidable (KeepsDevice cfg s a)
  | .session _ => inferInstanceAs (Decidable (_ = false))
  | .call _ | .go _ => .isTrue trivial

/-- A session with a mail client has a device, and no call has met a nil one. -/
structure DeviceSafe (s : Called σ) : Prop where
  device : s.ctx.mailClient → s.ctx.di
  calls : .nilDevice ∉ s.calls

/-- The session has its device and its mail client. -/
structure Held (s : Ctx σ) : Prop where
  di : s.di = true
  mailClient : s.mailClient = true
  pc : s.pc ≠ .cleanupClient

theorem Held.of_eq {s s' : Ctx σ} (h : Held s) (hdi : s'.di = s.di)
    (hmc : s'.mailClient = s.mailClient) (hpc : s'.pc ≠ .cleanupClient) : Held s' :=
  ⟨hdi.trans h.di, hmc.trans h.mailClient, hpc⟩

theorem stops_ne_cleanupClient (h : Pc.Stops pc) : pc ≠ .cleanupClient := by
  cases h <;> simp

theorem held_go (hh : Held s) (hc : s.pc ≠ .cleanup) (h : start M cfg s .go = some s') : Held s' := by
  cases start_go_cases h with
  | leave _ hop | enter _ hop =>
    have hk := perform_keeps hop
    exact hh.of_eq hk.di hk.mailClient (by simp)
  | resumed hpc =>
    obtain ⟨_, _, _, pc, heq, hr⟩ := resume_eq cfg { s with fsm := s.fsm.finish } _
    rw [heq]
    exact hh.of_eq rfl rfl (by cases hr <;> simp)
  | cleanup hpc => exact absurd hpc hc
  | cleanupClient hpc => exact absurd hpc hh.pc
  | maxPoll hpc | deferTick hpc | errCh hpc | command hpc | pushed hpc => simp [start, hpc] at h
  | _ => exact hh.of_eq rfl rfl (by simp)

theorem held_pushed (hh : Held s) (hc : dropsDevice cfg s (.start (.pushed r) : Act L) = false)
    (h : start M cfg s (.pushed r) = some s') : Held s' := by
  obtain ⟨site, hpc, rfl⟩ := pushed_cases h
  obtain ⟨di, pc, heq, hpc'⟩ := pushed_eq cfg s site r
  have hne : pc ≠ .cleanupClient := by
    rcases hpc' with hpc' | rfl
    · exact stops_ne_cleanupClient hpc'
    · simp
  have hdi : (pushed M cfg s site r).di = s.di := by
    cases r with
    | invalidToken =>
      obtain ⟨rfl, hig⟩ : site = .newMail ∧ cfg.ignorePushFailures = true := by
        simpa [dropsDevice, hpc] using hc
      simp [pushed, hig]
    | ok | failed => cases site <;> simp [pushed] <;> split <;> rfl
  have hmc : (pushed M cfg s site r).mailClient = s.mailClient := by rw [heq]
  exact hh.of_eq hdi hmc (by rw [heq]; exact hne)

theorem step_held {a : Act M.Label} (hh : Held s) (hc : dropsDevice cfg s a = false)
    (h : step M cfg s a = some s') : Held s' := by
  cases a with
  | start p =>
    cases p with
    | go => exact held_go hh (by simpa [dropsDevice] using hc) h
    | pushed r => exact held_pushed hh hc h
    | maxPoll | deferTick =>
      obtain ⟨hpc, t, _, rfl⟩ := select_cases h
      exact hh.of_eq rfl rfl (by simp)
    | errCh g =>
      obtain ⟨hpc, v, _, rfl⟩ := select_cases h
      obtain ⟨pc, heq, hpc'⟩ := received_eq cfg { s with mc := M.taken s.mc g } v
      rw [heq]
      exact hh.of_eq rfl rfl (stops_ne_cleanupClient hpc')
    | command =>
      have hc : start M cfg s .command = some s' := h
      obtain ⟨-, c, cs, -, rfl⟩ := command_cases hc
      obtain ⟨_, pc, heq, hpc'⟩ := handle_eq { s with command := cs } c
      rw [heq]
      refine hh.of_eq rfl rfl ?_
      rcases hpc' with hpc' | rfl
      · exact stops_ne_cleanupClient hpc'
      · exact hh.pc
  | _ =>
    obtain ⟨_, _, _, _, _, _, rfl⟩ := step_other h (by simp)
    exact hh.of_eq rfl rfl hh.pc

/-- A call does not touch the device, and finds it. -/
theorem CallPc.step_held {x' : Ctx σ} {s : Ctx σ} {p p' : CallPc} (hh : Held s)
    (h : p.step s = some (x', p')) : Held x' ∧ p' ≠ .nilDevice := by
  cases p with
  | check c =>
    cases h
    exact ⟨hh, by simp [hh.mailClient]⟩
  | contact c =>
    cases c with
    | stop =>
      cases h
      exact ⟨hh, by simp [hh.di]⟩
    | deferPoll timeout =>
      rw [CallPc.step, if_pos hh.di] at h
      cases h
      exact ⟨hh.of_eq rfl rfl hh.pc, by simp⟩
  | updateRequestData =>
    cases h
    exact ⟨hh, by simp [hh.mailClient]⟩
  | action c =>
    obtain ⟨y, hy, heq⟩ := Option.map_eq_some_iff.mp h
    cases heq
    simp only [Ctx.action] at hy
    split at hy <;> cases hy
    exact ⟨hh.of_eq rfl rfl hh.pc, by simp⟩
  | returned | nilDevice | nilClient => cases h

/-- The session is held and no call has met a nil device. -/
structure CalledHeld (s : Called σ) : Prop where
  held : Held s.ctx
  calls : .nilDevice ∉ s.calls

theorem calledStep_held {t t' : Called M.State} {a : CalledAct M.Label} (hh : CalledHeld t)
    (hc : KeepsDevice cfg t a) (h : calledStep M cfg t a = some t') : CalledHeld t' := by
  cases a with
  | session a =>
    obtain ⟨x, hx, rfl⟩ := Option.map_eq_some_iff.mp h
    exact ⟨step_held hh.held hc hx, hh.calls⟩
  | call c =>
    cases h
    exact ⟨hh.held, by simpa using hh.calls⟩
  | go i =>
    simp only [calledStep] at h
    split at h
    next p hp =>
      obtain ⟨⟨x, p'⟩, hx, rfl⟩ := Option.map_eq_some_iff.mp h
      obtain ⟨hheld, hne⟩ := CallPc.step_held hh.held hx
      refine ⟨hheld, fun hmem => ?_⟩
      rcases List.mem_or_eq_of_mem_set hmem with hmem | heq
      · exact hh.calls hmem
      · exact hne heq.symm
    next => cases h

/-- The step that drops the device leaves the mail client there. -/
theorem drops_device {a : Act M.Label} (hh : Held s) (hc : dropsDevice cfg s a = true)
    (h : step M cfg s a = some s') : s'.di = false ∧ s'.mailClient = true := by
  cases a with
  | start p =>
    cases p with
    | go =>
      have hpc : s.pc = .cleanup := by simpa [dropsDevice] using hc
      simp only [step, start, hpc] at h
      cases h
      exact ⟨rfl, hh.mailClient⟩
    | pushed r =>
      cases r with
      | invalidToken =>
        obtain ⟨site, hpc, rfl⟩ := pushed_cases h
        cases site with
        | newMail =>
          have hig : cfg.ignorePushFailures = false := by simpa [dropsDevice, hpc] using hc
          simp [pushed, hig, hh.mailClient]
        | maxPoll | reRegister => exact ⟨rfl, hh.mailClient⟩
      | ok | failed => cases hc
    | maxPoll | deferTick | errCh | command => cases hc
  | advance | expireDefer | expireMax | command | setWait | poll => cases hc

/-- A session has a device whenever it has a mail client, and no `stop()` or `deferPoll()` meets a
nil device, in every state of a run, if and only if no step of the run drops the device. -/
theorem device_safe_iff {t : Called M.State}
    (h : Run (calledStep M cfg) Free { ctx := init M cfg } as t) :
    (∀ bs cs t', as = bs ++ cs → Run (calledStep M cfg) Free { ctx := init M cfg } bs t' →
        DeviceSafe t') ↔
      Run (calledStep M cfg) (KeepsDevice cfg) { ctx := init M cfg } as t := by
  have hinit : CalledHeld { ctx := init M cfg } := ⟨⟨rfl, rfl, by simp [init]⟩, by simp⟩
  constructor
  · intro hsafe
    rcases h.first_violation (C := KeepsDevice cfg) with hk | ⟨bs, a, cs, t₁, t₂, rfl, hbs, hc, ht, -⟩
    · exact hk
    · -- the first step that drops the device leads to an unsafe state
      have hheld := hbs.inv calledStep_held hinit
      have hs₂ := hsafe (bs ++ [a]) cs t₂ (by simp) (hbs.free.snoc trivial ht)
      cases a with
      | session a =>
        obtain ⟨x, hx, rfl⟩ := Option.map_eq_some_iff.mp ht
        obtain ⟨hdi, hmc⟩ := drops_device hheld.held (by simpa [KeepsDevice] using hc) hx
        have := hs₂.device hmc
        rw [hdi] at this
        cases this
      | call | go => exact absurd trivial hc
  · rintro hk bs cs t' rfl hbs
    obtain ⟨t₁, h₁, -⟩ := hk.split
    obtain rfl := h₁.det hbs
    have hheld := h₁.inv calledStep_held hinit
    exact ⟨fun _ => hheld.held.di, hheld.calls⟩

/-- A session that polls is stopped. -/
def stoppedCallActs : List (CalledAct Exchange.Label) :=
  List.flatten [eagerActs.map .session, [.call .stop, .go 0, .go 0, .go 0]]

theorem device_safe_stopped :
    ∃ t, Run (calledStep (Exchange.client { pi := pingInfo }) eagerSettings) Free
        { ctx := init _ eagerSettings } stoppedCallActs t ∧
      t.calls = [.returned] ∧
      ∀ bs cs t', stoppedCallActs = bs ++ cs →
        Run (calledStep (Exchange.client { pi := pingInfo }) eagerSettings) Free
          { ctx := init _ eagerSettings } bs t' → DeviceSafe t' := by
  obtain ⟨t, hk, hcalls⟩ : ∃ t, Run (calledStep (Exchange.client { pi := pingInfo }) eagerSettings)
      (KeepsDevice eagerSettings) { ctx := init _ eagerSettings } stoppedCallActs t ∧
      t.calls = [.returned] := ⟨_, Run.of_execIf rfl, rfl⟩
  exact ⟨t, hk.free, hcalls, (device_safe_iff hk.free).mpr hk⟩

/-- Apple reports an invalid token for the push of new mail, then the client stops the session. -/
def invalidTokenActs : List (CalledAct Exchange.Label) :=
  List.flatten [newMailActs.map .session,
    [.session (.start (.errCh 0)), .session (.start (.pushed .invalidToken)), .call .stop, .go 0,
      .go 0]]

/-- `stop()` finds the mail client and uses the device that is no longer there. -/
theorem stop_meets_nil_device :
    ∃ t, Run (calledStep (Exchange.client { pi := pingInfo }) eagerSettings) Free
        { ctx := init _ eagerSettings } invalidTokenActs t ∧
      t.ctx.mailClient = true ∧ t.ctx.di = false ∧ t.calls = [.nilDevice] :=
  ⟨_, Run.of_exec rfl, rfl, rfl, rfl⟩

end Pinger.Session

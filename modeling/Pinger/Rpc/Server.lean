import Pinger.Rpc.Ownership
import Pinger.Session.Steps

/-! # The server

The map of sessions together with the sessions. A handler that has found a session calls it while it
holds the map lock: `RPCStartPoll` is in `Action(PingerStop)` until the command queue has room, and
`createNewPingerSession` is in `stop()`. `RPCStopPoll` and `RPCDeferPoll` leave a goroutine behind
instead, and `RPCDeferPoll` does not take the lock at all. -/

namespace Pinger.Rpc

open Transition

structure DeferPollArgs where
  userId : GoString
  clientContext : GoString
  deviceId : GoString
  timeout : Nat
  deriving DecidableEq, Repr

def DeferPollArgs.pollMapKey (args : DeferPollArgs) : GoString :=
  sessionKey args.userId args.clientContext args.deviceId

/-- `MailClientStatus.String()`. -/
def statusString : MailClientStatus → GoString
  | .error => GoString.lit "Error"
  | .initialized => GoString.lit "Initialized"
  | .pinging => GoString.lit "Active"
  | .deferred => GoString.lit "Waiting"
  | .reDeferred => GoString.lit "Rearmed"
  | .stopped => GoString.lit "Stopped"

/-- Code that a handler runs on a session: `stop()`, `deferPoll()`, and the call of `Action` in
which both end. -/
inductive Task
  | stop
  | deferPoll (timeout : Nat)
  | updateRequestData
  | action (c : PingerCommand)
  | returned
  deriving DecidableEq, Repr

/-- A step of a task. `updateLastContact` on a session without a device and `UpdateRequestData` on
one without a mail client are run-time panics, which end the process. -/
def Task.step (s : Session.Ctx σ) : Task → Option (Session.Ctx σ × Task)
  | .stop =>
    if s.mailClient = false then some (s, .returned)
    else if s.di then some (s, .action .stop) else none
  | .deferPoll timeout =>
    if s.mailClient = false then some (s, .returned)
    else if s.di then
      some ({ s with waitBeforeUse := if 0 < timeout then timeout else s.waitBeforeUse },
        .updateRequestData)
    else none
  | .updateRequestData => if s.mailClient then some (s, .action .defer) else none
  | .action c => (s.action c).map fun s' => (s', .returned)
  | .returned => none

/-- A task sends a command, sets the wait time, or does nothing to the session. -/
theorem Task.step_session {M : MailClient} {cfg : Session.Settings} {x x' : Session.Ctx M.State}
    {t t' : Task} (h : t.step x = some (x', t')) :
    x' = x ∨ ∃ b, Session.step M cfg x b = some x' := by
  cases t with
  | stop =>
    simp only [Task.step] at h
    split at h
    · cases h; exact .inl rfl
    · split at h <;> cases h
      exact .inl rfl
  | deferPoll timeout =>
    simp only [Task.step] at h
    split at h
    · cases h; exact .inl rfl
    · split at h <;> cases h
      refine .inr ⟨.setWait timeout, ?_⟩
      simp only [Session.step]
      split <;> rfl
  | updateRequestData =>
    simp only [Task.step] at h
    split at h <;> cases h
    exact .inl rfl
  | action c =>
    obtain ⟨y, hy, heq⟩ := Option.map_eq_some_iff.mp h
    cases heq
    exact .inr ⟨.command c, hy⟩
  | returned => cases h

/-- The task is at its call of `Action`. -/
def Task.sends : Task → Bool
  | .action _ => true
  | _ => false

theorem Task.step_command {x x' : Session.Ctx σ} {t t' : Task} (h : t.step x = some (x', t')) :
    x'.pc = x.pc ∧ (x'.command = x.command ∨
      t.sends ∧ t' = .returned ∧ x'.command.length = x.command.length + 1) := by
  cases t with
  | action c =>
    obtain ⟨y, hy, heq⟩ := Option.map_eq_some_iff.mp h
    cases heq
    simp only [Session.Ctx.action] at hy
    split at hy <;> cases hy
    exact ⟨rfl, .inr ⟨rfl, rfl, List.length_append⟩⟩
  | returned => cases h
  | stop | deferPoll | updateRequestData =>
    simp only [Task.step] at h
    repeat' split at h
    all_goals cases h
    all_goals exact ⟨rfl, .inl rfl⟩

/-- What the sessions are created with, in the order of creation. -/
structure Backend where
  mailClient : Nat → MailClient
  settings : Nat → Session.Settings

/-- The handler that holds the map lock: its section of the registry, and the task it runs on a
session before it completes that section. -/
structure Holder where
  act : Act
  sid : Nat
  task : Task

structure Server (B : Backend) where
  reg : Registry := {}
  lock : Option Holder := none
  ctx : (sid : Nat) → Session.Ctx (B.mailClient sid).State :=
    fun sid => Session.init (B.mailClient sid) (B.settings sid)
  tasks : Nat → Option (Nat × Task) := fun _ => none
  ntasks : Nat := 0

/-- `holder` is a step of the handler that holds the lock and `task` one of a goroutine; the other
requests come in and take the lock. -/
inductive ServerAct (B : Backend)
  | startPoll (mi : MailPingInformation)
  | stopPoll (args : StopPollArgs)
  | deferPoll (args : DeferPollArgs)
  | create (c : Nat) (ok : Bool)
  | offer (c : Nat)
  | holder
  | task (g : Nat)
  | session (sid : Nat) (a : Session.Act (B.mailClient sid).Label)
  | advance (d : Nat)

namespace Server
variable {B : Backend}

/-- A section of a handler is complete. -/
def commit (s : Server B) (a : Act) : Option (Server B) :=
  (s.reg.step a).map fun r => { s with reg := r }

def setCtx (s : Server B) (sid : Nat) (x : Session.Ctx (B.mailClient sid).State) : Server B :=
  { s with ctx := Function.update s.ctx sid x }

theorem setCtx_self (s : Server B) : (s.setCtx sid x).ctx sid = x := Function.update_self ..

theorem setCtx_of_ne (s : Server B) (h : sid' ≠ sid) : (s.setCtx sid x).ctx sid' = s.ctx sid' :=
  Function.update_of_ne h ..

theorem setCtx_ctx (s : Server B) (sid : Nat) : s.setCtx sid (s.ctx sid) = s := by
  rw [setCtx, Function.update_eq_self]

theorem setCtx_setCtx (s : Server B) (sid : Nat) (x y : Session.Ctx (B.mailClient sid).State) :
    (s.setCtx sid x).setCtx sid y = s.setCtx sid y := by
  rw [setCtx, setCtx, setCtx, Function.update_idem]

/-- `go client.stop()` or `go client.deferPoll(…)`. -/
def spawn (s : Server B) (sid : Nat) (t : Task) : Server B :=
  { s with tasks := Function.update s.tasks s.ntasks (some (sid, t)), ntasks := s.ntasks + 1 }

end Server

/-- `RPCDeferPoll`. It reads the map without the lock. -/
def rpcDeferPoll (s : Server B) (args : DeferPollArgs) :
    Server B × Except GoString PollingResponse :=
  match s.reg.pollMap args.pollMapKey with
  | some sid =>
    match (s.ctx sid).getStatus with
    | (_, some err) => (s, .error err)
    | (status, none) =>
      if status ≠ .pinging ∧ status ≠ .deferred then
        (s, .ok ⟨.error, GoString.lit "Client is not pinging or deferred (" ++
          statusString status ++ GoString.lit "). Can not defer."⟩)
      else (s.spawn sid (.deferPoll args.timeout), .ok { code := .ok })
  | none => (s, .ok ⟨.error, GoString.lit "No active sessions found"⟩)

namespace Server
variable {B : Backend}

def step (s : Server B) : ServerAct B → Option (Server B)
  | .startPoll mi =>
    if s.lock.isSome then none
    else
      match s.reg.pollMap mi.pollMapKey with
      | some sid => some { s with
          lock := some ⟨.startPoll mi (s.ctx sid).getStatus, sid, .action .stop⟩ }
      | none => s.commit (.startPoll mi (.initialized, none))
  | .stopPoll args =>
    if s.lock.isSome then none
    else
      match s.reg.pollMap args.pollMapKey with
      | some sid => (s.commit (.stopPoll args)).map fun s' => s'.spawn sid .stop
      | none => s.commit (.stopPoll args)
  | .deferPoll args => some (rpcDeferPoll s args).1
  | .create c ok => s.commit (.create c ok)
  | .offer c =>
    if s.lock.isSome then none
    else
      match s.reg.creations c with
      | .created mi sid =>
        match s.reg.pollMap mi.pollMapKey with
        | some _ => some { s with lock := some ⟨.offer c, sid, .stop⟩ }
        | none => s.commit (.offer c)
      | _ => none
  | .holder =>
    match s.lock with
    | some ⟨act, _, .returned⟩ => (s.commit act).map fun s' => { s' with lock := none }
    | some ⟨act, sid, t⟩ =>
      (t.step (s.ctx sid)).map fun (x, t') => { s.setCtx sid x with lock := some ⟨act, sid, t'⟩ }
    | none => none
  | .task g =>
    match s.tasks g with
    | some (sid, t) => (t.step (s.ctx sid)).map fun (x, t') =>
      { s.setCtx sid x with tasks := Function.update s.tasks g (some (sid, t')) }
    | none => none
  | .session sid a =>
    if sid < s.reg.nsessions ∧ a.own then
      (Session.step (B.mailClient sid) (B.settings sid) (s.ctx sid) a).map (s.setCtx sid)
    else none
  | .advance d =>
    some { s with ctx := fun sid => { s.ctx sid with now := (s.ctx sid).now + d } }

/-- What a step does. -/
inductive Stepped (s : Server B) : ServerAct B → Server B → Prop
  | commit : (s.lock = none ∨ ∃ c ok, b = .create c ok) → s.reg.step b = some r →
      Stepped s a { s with reg := r }
  | starts : s.lock = none → s.reg.pollMap mi.pollMapKey = some sid → Stepped s (.startPoll mi)
      { s with lock := some ⟨.startPoll mi (s.ctx sid).getStatus, sid, .action .stop⟩ }
  | refuses : s.lock = none → s.reg.creations c = .created mi sid →
      s.reg.pollMap mi.pollMapKey = some sid' →
      Stepped s (.offer c) { s with lock := some ⟨.offer c, sid, .stop⟩ }
  | removes : s.lock = none → s.reg.pollMap args.pollMapKey = some sid →
      s.reg.step (.stopPoll args) = some r →
      Stepped s (.stopPoll args) (spawn { s with reg := r } sid .stop)
  | defers : s.reg.pollMap args.pollMapKey = some sid →
      Stepped s (.deferPoll args) (s.spawn sid (.deferPoll args.timeout))
  | denies : Stepped s (.deferPoll args) s
  | works : s.lock = some ⟨b, sid, t⟩ → t.step (s.ctx sid) = some (x, t') →
      Stepped s .holder { s.setCtx sid x with lock := some ⟨b, sid, t'⟩ }
  | releases : s.lock = some ⟨b, sid, .returned⟩ → s.reg.step b = some r →
      Stepped s .holder { s with reg := r, lock := none }
  | task : s.tasks g = some (sid, t) → t.step (s.ctx sid) = some (x, t') → Stepped s (.task g)
      { s.setCtx sid x with tasks := Function.update s.tasks g (some (sid, t')) }
  | session : sid < s.reg.nsessions → b.own →
      Session.step (B.mailClient sid) (B.settings sid) (s.ctx sid) b = some x →
      Stepped s (.session sid b) (s.setCtx sid x)
  | advance : Stepped s (.advance d)
      { s with ctx := fun sid => { s.ctx sid with now := (s.ctx sid).now + d } }

variable {s s' : Server B}

theorem step_cases {a : ServerAct B} (h : s.step a = some s') : Stepped s a s' := by
  cases a with
  | startPoll mi =>
    simp only [step] at h
    split at h
    · cases h
    next hl =>
      have hl : s.lock = none := Option.not_isSome_iff_eq_none.mp hl
      split at h
      next hk => cases h; exact .starts hl hk
      next hk =>
        obtain ⟨r, hr, rfl⟩ := Option.map_eq_some_iff.mp h
        exact .commit (.inl hl) hr
  | stopPoll args =>
    simp only [step] at h
    split at h
    · cases h
    next hl =>
      have hl : s.lock = none := Option.not_isSome_iff_eq_none.mp hl
      split at h
      next hk =>
        obtain ⟨s₁, h₁, rfl⟩ := Option.map_eq_some_iff.mp h
        obtain ⟨r, hr, rfl⟩ := Option.map_eq_some_iff.mp h₁
        exact .removes hl hk hr
      next hk =>
        obtain ⟨r, hr, rfl⟩ := Option.map_eq_some_iff.mp h
        exact .commit (.inl hl) hr
  | deferPoll args =>
    simp only [step, rpcDeferPoll, Option.some.injEq] at h
    subst h
    split
    next hk =>
      split
      · exact .denies
      · split
        · exact .denies
        · exact .defers hk
    · exact .denies
  | create c ok =>
    obtain ⟨r, hr, rfl⟩ := Option.map_eq_some_iff.mp h
    exact .commit (.inr ⟨c, ok, rfl⟩) hr
  | offer c =>
    simp only [step] at h
    split at h
    · cases h
    next hl =>
      have hl : s.lock = none := Option.not_isSome_iff_eq_none.mp hl
      split at h
      next hc =>
        split at h
        next hk => cases h; exact .refuses hl hc hk
        · obtain ⟨r, hr, rfl⟩ := Option.map_eq_some_iff.mp h
          exact .commit (.inl hl) hr
      · cases h
  | holder =>
    simp only [step] at h
    split at h
    next hl =>
      obtain ⟨s₁, h₁, rfl⟩ := Option.map_eq_some_iff.mp h
      obtain ⟨r, hr, rfl⟩ := Option.map_eq_some_iff.mp h₁
      exact .releases hl hr
    next hl =>
      obtain ⟨⟨x, t'⟩, ht, rfl⟩ := Option.map_eq_some_iff.mp h
      exact .works hl ht
    · cases h
  | task g =>
    simp only [step] at h
    split at h
    next hg =>
      obtain ⟨⟨x, t'⟩, ht, rfl⟩ := Option.map_eq_some_iff.mp h
      exact .task hg ht
    · cases h
  | session sid b =>
    simp only [step] at h
    split at h
    next hb =>
      obtain ⟨x, hx, rfl⟩ := Option.map_eq_some_iff.mp h
      exact .session hb.1 hb.2 hx
    · cases h
  | advance d => cases h; exact .advance

/-! ## The server keeps to the map and to its sessions -/

theorem Stepped.reg_step {a : ServerAct B} (h : Stepped s a s') :
    s'.reg = s.reg ∨ ∃ b, s.reg.step b = some s'.reg := by
  cases h with
  | commit _ hr | removes _ _ hr | releases _ hr => exact .inr ⟨_, hr⟩
  | starts | refuses | defers | denies | works | task | session | advance => exact .inl rfl

theorem Stepped.ctx_step {a : ServerAct B} (h : Stepped s a s') (sid : Nat) :
    s'.ctx sid = s.ctx sid ∨
      ∃ b, Session.step (B.mailClient sid) (B.settings sid) (s.ctx sid) b = some (s'.ctx sid) := by
  have hset {sid₀ x} {ctx' : (sid : Nat) → Session.Ctx (B.mailClient sid).State}
      (hctx : ctx' = Function.update s.ctx sid₀ x)
      (hx : x = s.ctx sid₀ ∨
        ∃ b, Session.step (B.mailClient sid₀) (B.settings sid₀) (s.ctx sid₀) b = some x) :
      ctx' sid = s.ctx sid ∨
        ∃ b, Session.step (B.mailClient sid) (B.settings sid) (s.ctx sid) b = some (ctx' sid) := by
    subst hctx
    by_cases hsid : sid = sid₀
    · subst hsid
      rwa [Function.update_self]
    · exact .inl (Function.update_of_ne hsid ..)
  cases h with
  | works _ ht | task _ ht => exact hset rfl (Task.step_session ht)
  | session _ _ hx => exact hset rfl (.inr ⟨_, hx⟩)
  | advance => exact .inr ⟨.advance _, rfl⟩
  | commit | starts | refuses | removes | defers | denies | releases => exact .inl rfl

/-- The registry of a server goes through a run of the registry. -/
theorem history_reg (h : Run step C ({} : Server B) as s) :
    ∃ bs, Run Registry.step Free {} bs s.reg := by
  refine h.inv (I := fun s => ∃ bs, Run Registry.step Free {} bs s.reg) ?_ ⟨[], .nil⟩
  rintro s a s' ⟨bs, hbs⟩ _ hs
  rcases (step_cases hs).reg_step with heq | ⟨b, hb⟩
  · exact ⟨bs, heq ▸ hbs⟩
  · exact ⟨bs ++ [b], hbs.snoc trivial hb⟩

/-- Every session of a server goes through a run of that session. -/
theorem history_session (h : Run step C ({} : Server B) as s) (sid : Nat) :
    ∃ bs, Run (Session.step (B.mailClient sid) (B.settings sid)) Free
      (Session.init (B.mailClient sid) (B.settings sid)) bs (s.ctx sid) := by
  refine h.inv (I := fun s => ∃ bs, Run (Session.step (B.mailClient sid) (B.settings sid)) Free
    (Session.init (B.mailClient sid) (B.settings sid)) bs (s.ctx sid)) ?_ ⟨[], .nil⟩
  rintro s a s' ⟨bs, hbs⟩ _ hs
  rcases (step_cases hs).ctx_step sid with heq | ⟨b, hb⟩
  · exact ⟨bs, heq ▸ hbs⟩
  · exact ⟨bs ++ [b], hbs.snoc trivial hb⟩

/-- The steps that a session takes of its own are steps of the server. -/
theorem run_session {s : Server B} (hsid : sid < s.reg.nsessions)
    (h : Run (Session.step (B.mailClient sid) (B.settings sid)) Free (s.ctx sid) as x)
    (hown : ∀ a ∈ as, a.own) :
    Run step Free s (as.map fun a => .session sid a) (s.setCtx sid x) := by
  generalize hy : s.ctx sid = y at h
  induction h generalizing s with
  | nil =>
    rw [← hy, setCtx_ctx]
    exact .nil
  | @cons y a y' as x _ hs _ ih =>
    have ha : sid < s.reg.nsessions ∧ a.own := ⟨hsid, hown a List.mem_cons_self⟩
    have hstep : s.step (.session sid a) = some (s.setCtx sid y') := by
      rw [step, if_pos ha, hy, hs, Option.map_some]
    have hrun := ih (s := s.setCtx sid y') hsid (fun b hb => hown b (List.mem_cons_of_mem _ hb))
      (setCtx_self s)
    rw [setCtx_setCtx] at hrun
    exact .cons trivial hstep hrun

end Server
end Pinger.Rpc

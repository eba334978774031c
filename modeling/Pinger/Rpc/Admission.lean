import Pinger.Rpc.Lock
import Pinger.Session.LoopHead
import Pinger.Session.Rearm

/-! # What `RPCDeferPoll` lets through

`RPCDeferPoll` decides by the status whether a session can be deferred, and `start()` by its state
machine. The status tells a re-armed session from a deferred one, the state machine does not: a
session that waits after a re-arm would take a `PingerDefer`, and `RPCDeferPoll` refuses to send
it. Everywhere else the two agree. -/

namespace Pinger.Session

open EventFsm Transition

variable {M : MailClient} {cfg : Settings} {s s' : Ctx M.State}

/-! ## The status of a deferred session -/

/-- The status for a deferral: a session has the status of a re-arm when it counts one. -/
def StatusFor (count : Nat) (st : MailClientStatus) : Prop := st = .reDeferred ↔ count ≠ 0

/-- The status that is set on entering `deferred`, or that will be. -/
def StatusOk (s : Ctx σ) : Prop :=
  match s.pc with
  | .boot => s.rearmingCount = 0
  | .event (.deferred st) _ | .leave _ (.deferred st) _ => StatusFor s.rearmingCount st
  | .enter ops .loop => ∃ st, StatusFor s.rearmingCount st ∧
      (ops = enterDeferred st ∨ ops = (enterDeferred st).tail ∨ ops = [.setStatus st none] ∨
        ops = [] ∧ s.status = st)
  | .select => s.fsm.current = .deferred → StatusFor s.rearmingCount s.status
  | _ => True

/-- A step that does not come to `deferred`. -/
theorem statusOk_of_stops {s : Ctx σ} (hpc : s.pc.Stops ∨ s.pc = .returned) : StatusOk s := by
  unfold StatusOk
  rcases hpc with hpc | hpc
  · generalize s.pc = pc at hpc ⊢
    cases hpc <;> trivial
  · rw [hpc]
    trivial

theorem statusOk_enter (hst : StatusOk s) (hpc : s.pc = .enter (op :: ops) k)
    (hop : perform M cfg s op = some s') : StatusOk { s' with pc := .enter ops k } := by
  unfold StatusOk at hst ⊢
  rw [hpc] at hst
  cases k with
  | loop =>
    obtain ⟨st, hfor, hops⟩ := hst
    refine ⟨st, (perform_locals hop).1 ▸ hfor, ?_⟩
    rcases hops with hops | hops | hops | ⟨hops, -⟩
    · cases hops
      exact .inr (.inl rfl)
    · cases hops
      exact .inr (.inr (.inl rfl))
    · cases hops
      cases hop
      exact .inr (.inr (.inr ⟨rfl, rfl⟩))
    · cases hops
  | _ => trivial

theorem statusOk_resume (hst : StatusOk s) (hl : LoopOk s) (hpc : s.pc = .enter [] k) :
    StatusOk (resume M cfg { s with fsm := s.fsm.finish } k) := by
  unfold StatusOk at hst
  unfold LoopOk at hl
  rw [hpc] at hst hl
  cases k with
  | loop =>
    obtain ⟨st, hfor, hops | hops | hops | ⟨-, rfl⟩⟩ := hst
    · cases hops
    · cases hops
    · cases hops
    · exact fun _ => hfor
  | sent =>
    have hping : s.fsm.current = .pinging := hl.1
    intro hcur
    cases hping.symm.trans hcur
  | ret => trivial
  | rearm =>
    simp only [resume]
    split
    · simp [StatusOk, StatusFor]
    · trivial
  | redefer => simp [resume, StatusOk, StatusFor]

theorem StartStep.statusOk (h : StartStep M cfg s s') (hst : StatusOk s) (hl : LoopOk s) :
    StatusOk s' := by
  cases h with
  | boot hpc =>
    unfold StatusOk at hst
    rw [hpc] at hst
    simp [StatusOk, StatusFor, hst]
  | @begun e k fsm hpc hb =>
    unfold StatusOk at hst ⊢
    rw [hpc] at hst
    cases e <;> exact hst
  | @leave op ops e k t hpc hop =>
    unfold StatusOk at hst ⊢
    rw [hpc] at hst
    cases e with
    | deferred st => exact (perform_locals hop).1 ▸ hst
    | _ => trivial
  | @transit e k hpc =>
    unfold StatusOk at hst ⊢
    unfold LoopOk at hl
    rw [hpc] at hst hl
    obtain ⟨hev, -⟩ := hl
    cases e with
    | deferred st =>
      obtain ⟨rfl, -⟩ := hev
      exact ⟨st, hst, .inl rfl⟩
    | pinging =>
      obtain ⟨rfl, -⟩ := hev
      trivial
    | stopped => rcases hev with rfl | ⟨rfl | rfl, -⟩ <;> trivial
  | enter hpc hop => exact statusOk_enter hst hpc hop
  | resumed hpc => exact statusOk_resume hst hl hpc
  | errCh =>
    obtain ⟨_, heq, hpc⟩ := received_eq cfg { s with mc := M.taken s.mc _ } _
    exact statusOk_of_stops (.inl (heq ▸ hpc))
  | @command c cs hpc hc =>
    obtain ⟨_, _, heq, hpc' | hpc'⟩ := handle_eq { s with command := cs } c
    · exact statusOk_of_stops (.inl (heq ▸ hpc'))
    · rw [heq]
      subst hpc'
      exact hst
  | pushed =>
    obtain ⟨_, _, heq, hpc⟩ := pushed_eq cfg s _ _
    exact statusOk_of_stops (heq ▸ hpc)
  | _ => trivial

theorem step_statusOk {a : Act M.Label} (hst : StatusOk s) (hl : LoopOk s)
    (h : step M cfg s a = some s') : StatusOk s' := by
  cases a with
  | start p => exact (start_cases h).statusOk hst hl
  | _ =>
    obtain ⟨_, _, _, _, _, _, rfl⟩ := step_other h (by simp)
    exact hst

/-- At the head of the loop the status says whether the session polls, waits, or waits after a
re-arm. -/
theorem status_at_head (h : Run (step M cfg) Free (init M cfg) as s) (hpc : s.pc = .select) :
    s.lastError = none ∧ (s.fsm.current = .pinging ∧ s.status = .pinging ∨
      s.fsm.current = .deferred ∧ s.status = if s.rearmingCount = 0 then .deferred else .reDeferred) := by
  have hinv : Sound s ∧ StatusOk s := by
    refine h.inv (I := fun s => Sound s ∧ StatusOk s) ?_ ⟨init_sound, rfl⟩
    rintro s a s' ⟨hs, hst⟩ - h
    exact ⟨step_sound hs h, step_statusOk hst hs.ok h⟩
  obtain ⟨hs, hst⟩ := hinv
  have hl := hs.ok
  unfold LoopOk at hl
  unfold StatusOk at hst
  rw [hpc] at hl hst
  obtain ⟨-, ⟨hcur, hwaits, herr, -⟩ | ⟨hcur, hstatus, herr, -⟩⟩ := hl
  · refine ⟨herr, .inr ⟨hcur, ?_⟩⟩
    have hfor : StatusFor s.rearmingCount s.status := hst hcur
    rcases hwaits with hw | hw <;> simpa [StatusFor, hw] using hfor
  · exact ⟨herr, .inl ⟨hcur, hstatus⟩⟩

end Pinger.Session

namespace Pinger.Rpc

open Transition Session Server

variable {B : Backend} {s s' : Server B}

/-! ## `RPCDeferPoll` -/

/-- `start()` is at its select, and the event that a `PingerDefer` sends is legal. In the callbacks
of `deferred` and `pinging` it has not yet set the status, and `RPCDeferPoll` still sees the old
one. -/
def AcceptsDefer (x : Ctx σ) : Prop := x.pc = .select ∧ Legal x.fsm.current .stopped

instance (x : Ctx σ) : Decidable (AcceptsDefer x) := inferInstanceAs (Decidable (_ ∧ _))

/-- `RPCDeferPoll` replies `PollingReplyOK`, and leaves a goroutine that defers the session. -/
def Server.HandsDefer (s : Server B) (args : DeferPollArgs) (sid : Nat) : Prop :=
  rpcDeferPoll s args = (s.spawn sid (.deferPoll args.timeout), .ok { code := .ok })

theorem Server.spawn_inj (h : s.spawn sid t = s.spawn sid' t) : sid = sid' := by
  have htasks := congrFun (congrArg Server.tasks h) s.ntasks
  simp only [Server.spawn, Function.update_self, Option.some.injEq, Prod.mk.injEq] at htasks
  exact htasks.1

/-- The reply is `PollingReplyOK` exactly for a session in the map whose status is one of two. -/
theorem handsDefer_iff (s : Server B) (args : DeferPollArgs) (sid : Nat) :
    s.HandsDefer args sid ↔ s.reg.pollMap args.pollMapKey = some sid ∧
      ((s.ctx sid).getStatus = (.pinging, none) ∨ (s.ctx sid).getStatus = (.deferred, none)) := by
  unfold Server.HandsDefer rpcDeferPoll
  cases hk : s.reg.pollMap args.pollMapKey with
  | none => simp
  | some sid' =>
    simp only [Option.some.injEq]
    split
    next hst =>
      constructor
      · intro h
        cases (Prod.mk.injEq .. ▸ h).2
      · rintro ⟨rfl, h | h⟩ <;> rw [hst] at h <;> cases h
    next status hst =>
      split
      next hne =>
        constructor
        · intro h
          cases (Prod.mk.injEq .. ▸ h).2
        · rintro ⟨rfl, h | h⟩ <;> rw [hst] at h <;> cases h
          · exact absurd rfl hne.1
          · exact absurd rfl hne.2
      next heq =>
        constructor
        · intro h
          obtain rfl := Server.spawn_inj (Prod.mk.injEq .. ▸ h).1
          refine ⟨rfl, ?_⟩
          rw [hst]
          by_cases hp : status = .pinging
          · exact .inl (by rw [hp])
          · exact .inr (by rw [not_and_not_right.mp heq hp])
        · rintro ⟨rfl, -⟩
          rfl

/-! ## Whole runs -/

/-- Whenever the loop of a session would handle a `PingerDefer`, `RPCDeferPoll` hands the defer to
it if and only if the map has the session under the key and the session is not in a deferral that
a re-arm has begun. -/
theorem deferPoll_handed_iff (h : Run Server.step Free ({} : Server B) as s)
    (hacc : AcceptsDefer (s.ctx sid)) (args : DeferPollArgs) :
    s.HandsDefer args sid ↔ s.reg.pollMap args.pollMapKey = some sid ∧
      ((s.ctx sid).fsm.current = .deferred → (s.ctx sid).rearmingCount = 0) := by
  obtain ⟨bs, hbs⟩ := Server.history_session h sid
  obtain ⟨herr, hhead⟩ := status_at_head hbs hacc.1
  have hget : (s.ctx sid).getStatus = ((s.ctx sid).status, none) := by
    simp [Ctx.getStatus, herr]
  rw [handsDefer_iff, hget]
  refine and_congr_right fun _ => ?_
  rcases hhead with ⟨hcur, hst⟩ | ⟨hcur, hst⟩
  · simp [hcur, hst]
  · by_cases hzero : (s.ctx sid).rearmingCount = 0
    · simp [hst, hzero]
    · simp [hcur, hst, hzero]

/-! ## Concrete runs -/

/-- The request to defer the poll of a registration. -/
def deferArgs (mi : MailPingInformation) : DeferPollArgs :=
  ⟨mi.userId, mi.clientContext, mi.deviceId, 30000⟩

/-- A session that polls. -/
def pollingActs : List (ServerAct activeSyncBackend) :=
  [.startPoll activeSync, .create 0 true, .offer 0] ++ sessionActs eagerActs

theorem deferPoll_handed_polling :
    ∃ s : Server activeSyncBackend, Run Server.step Free {} pollingActs s ∧
      AcceptsDefer (s.ctx 0) ∧ s.HandsDefer (deferArgs activeSync) 0 := by
  obtain ⟨s, h, hacc, hk, hcur⟩ : ∃ s : Server activeSyncBackend,
      Run Server.step Free {} pollingActs s ∧ AcceptsDefer (s.ctx 0) ∧
      s.reg.pollMap (deferArgs activeSync).pollMapKey = some 0 ∧ (s.ctx 0).fsm.current = .pinging :=
    ⟨_, Run.of_exec rfl, ⟨rfl, by decide⟩, rfl, rfl⟩
  refine ⟨s, h, hacc, (deferPoll_handed_iff h hacc _).mpr ⟨hk, fun hdef => ?_⟩⟩
  cases hcur.symm.trans hdef

/-- An IMAP registration. -/
def imapInfo : MailPingInformation :=
  { Imap.idleEnv.pi with
    userId := GoString.lit "u", clientContext := GoString.lit "c", deviceId := GoString.lit "d"
    protocol := mailClientIMAP, maxPollTimeout := 172800000 }

def imapBackend : Backend where
  mailClient _ := Imap.client { pi := imapInfo }
  settings _ := imapSettings

/-- The session of the registration finds new mail and re-arms. -/
def rearmedActs : List (ServerAct imapBackend) :=
  [.startPoll imapInfo, .create 0 true, .offer 0] ++ Session.rearmActs.map fun a => .session 0 a

/-- Its loop would take a `PingerDefer`, and `RPCDeferPoll` replies that it can not be deferred. -/
theorem rearmed_session_refused :
    ∃ s : Server imapBackend, Run Server.step Free {} rearmedActs s ∧
      AcceptsDefer (s.ctx 0) ∧ s.reg.pollMap (deferArgs imapInfo).pollMapKey = some 0 ∧
      rpcDeferPoll s (deferArgs imapInfo) = (s, .ok ⟨.error,
        GoString.lit "Client is not pinging or deferred (Rearmed). Can not defer."⟩) := by
  obtain ⟨s, hstart, hk, hn, hctx⟩ : ∃ s : Server imapBackend,
      Run Server.step Free {} [.startPoll imapInfo, .create 0 true, .offer 0] s ∧
      s.reg.pollMap (deferArgs imapInfo).pollMapKey = some 0 ∧ 0 < s.reg.nsessions ∧
      s.ctx 0 = Session.init (imapBackend.mailClient 0) (imapBackend.settings 0) :=
    ⟨_, Run.of_exec rfl, rfl, Nat.one_pos, rfl⟩
  obtain ⟨x, hx, hacc, hst⟩ : ∃ x,
      Run (Session.step (imapBackend.mailClient 0) (imapBackend.settings 0)) Free
        (Session.init (imapBackend.mailClient 0) (imapBackend.settings 0)) rearmActs x ∧
      AcceptsDefer x ∧ x.getStatus = (.reDeferred, none) :=
    ⟨_, Run.of_exec rfl, ⟨rfl, by decide⟩, rfl⟩
  have hown : rearmActs.all Act.own = true := by decide
  have hrun := Server.run_session hn (hctx ▸ hx) (List.all_eq_true.mp hown)
  have hself : (s.setCtx 0 x).ctx 0 = x := Server.setCtx_self s
  refine ⟨s.setCtx 0 x, hstart.append hrun, hself.symm ▸ hacc, hk, ?_⟩
  rw [rpcDeferPoll, show (s.setCtx 0 x).reg.pollMap _ = some 0 from hk]
  simp only [hself, hst]
  have htext : GoString.lit "Client is not pinging or deferred (" ++ statusString .reDeferred ++
      GoString.lit "). Can not defer." =
      GoString.lit "Client is not pinging or deferred (Rearmed). Can not defer." := by decide +kernel
  rw [if_pos (by decide), htext]

end Pinger.Rpc

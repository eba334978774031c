import Pinger.Rpc.Server
import Pinger.Session.Results

/-! # The map lock

`RPCStartPoll` calls `Action` on the session it replaces while it holds the map lock. When the
command queue is full it waits for `start()` to receive, and `start()` may have left its loop: a
session that has ended stays in the map, and the commands of `deferPoll` that it has not received
stay in its queue. Then the lock is never released. -/

namespace Pinger.Rpc

open Transition Session

/-! ## Sessions that are not shared -/

/-- Session `sid` is in the map, under its key. -/
def Registry.InMap (r : Registry) (sid : Nat) : Prop :=
  ∃ mi ∈ r.sessions sid, r.pollMap mi.pollMapKey = some sid

instance (r : Registry) (sid : Nat) : Decidable (r.InMap sid) :=
  inferInstanceAs (Decidable (∃ mi ∈ r.sessions sid, r.pollMap mi.pollMapKey = some sid))

/-- Session `sid` does not exist yet, or only the goroutine that creates it has it. -/
def Registry.Private (r : Registry) (sid : Nat) : Prop :=
  r.nsessions ≤ sid ∨ ∃ c, r.Owns sid (.unoffered c)

section
variable {r r' : Registry}

theorem inMap_of_stored (hinv : Inv r) (hk : r.pollMap key = some sid) : r.InMap sid := by
  obtain ⟨mi, hs, hkey⟩ := hinv.keyed hk
  exact ⟨mi, hs, hkey ▸ hk⟩

theorem not_private_of_stored (hinv : Inv r) (hk : r.pollMap key = some sid) : ¬r.Private sid := by
  have hlt : sid < r.nsessions := hinv.known (o := .stored key) hk
  rintro (hle | ⟨c, hc⟩)
  · exact absurd hlt (Nat.not_lt_of_le hle)
  · obtain ⟨o, -, huniq⟩ := hinv.owner hlt
    cases (huniq (.stored key) hk).trans (huniq (.unoffered c) hc).symm

theorem private_of_step (h : Stepped r a r') (hp : r'.Private sid) : r.Private sid := by
  have hn : r.nsessions ≤ r'.nsessions := by
    cases h with
    | created => exact Nat.le_succ _
    | _ => exact Nat.le_refl _
  rcases hp with hle | ⟨c, mi, hc⟩
  · exact .inl (Nat.le_trans hn hle)
  · cases h.creationStep c with
    | same heq => exact .inr ⟨c, mi, heq ▸ hc⟩
    | create _ hp _ => cases hp.symm.trans hc; exact .inl (Nat.le_refl _)
    | spawn _ hp | fail _ hp | refused _ hp _ _ | stored _ hp _ _ => cases hp.symm.trans hc

/-- A session comes into the map from its creation. -/
theorem inMap_of_step (hinv : Inv r) (h : Stepped r a r') (hm : r'.InMap sid) :
    r.InMap sid ∨ ∃ c, a = .offer c ∧ r.Owns sid (.unoffered c) := by
  obtain ⟨mi, -, hk⟩ := hm
  cases h.keyStep mi.pollMapKey with
  | same heq => exact .inl (inMap_of_stored hinv (heq ▸ hk))
  | removed _ _ hnone _ => cases hnone.symm.trans hk
  | stored hp _ _ hsome =>
    cases hsome.symm.trans hk
    exact .inr ⟨_, rfl, _, hp⟩

end

/-! ## The invariant -/

namespace Server
variable {B : Backend} {s s' : Server B}

/-- A handler may still send to session `sid` under the lock: it is in the map, and `RPCStartPoll`
has not sent its stop to it. -/
def Exposed (s : Server B) (sid : Nat) : Prop :=
  s.reg.InMap sid ∧ ∀ h ∈ s.lock, h.sid = sid → h.task ≠ .returned

instance (s : Server B) (sid : Nat) : Decidable (s.Exposed sid) :=
  inferInstanceAs (Decidable (_ ∧ _))

/-- The handler that holds the lock has its session where it has found it. -/
def Serves (r : Registry) (h : Holder) : Prop :=
  match h.act with
  | .startPoll mi _ => r.pollMap mi.pollMapKey = some h.sid
  | .offer c => ∃ mi sid', r.creations c = .created mi h.sid ∧ r.pollMap mi.pollMapKey = some sid'
  | _ => False

theorem Serves.create {r r' : Registry} (hs : Serves r h) (hst : Rpc.Stepped r (.create c ok) r') :
    Serves r' h := by
  have hmap : r'.pollMap = r.pollMap := by
    cases hst <;> rfl
  obtain ⟨act, sid, t⟩ := h
  cases act with
  | startPoll mi status => exact (congrFun hmap _).trans hs
  | offer c' =>
    obtain ⟨mi, sid', hc, hk⟩ := hs
    refine ⟨mi, sid', ?_, (congrFun hmap _).trans hk⟩
    cases hst.creationStep c' with
    | same heq => exact heq.trans hc
    | create hp | fail hp => cases hp.symm.trans hc
  | _ => cases hs

/-- When the section is complete a stop has been issued to the session. -/
theorem Serves.stopped {r r' : Registry} (hs : Serves r h) (hst : Rpc.Stepped r h.act r') :
    r'.Owns h.sid (.stopped h.act) := by
  obtain ⟨act, sid, t⟩ := h
  cases hst with
  | replaced hk =>
    cases hk.symm.trans hs
    simp [Registry.Owns, Registry.spawn, Registry.setCreation, Registry.delete, Registry.issueStop]
  | started hk => cases hk.symm.trans hs
  | refused hp hk =>
    obtain ⟨mi, sid', hc, -⟩ := hs
    cases hp.symm.trans hc
    simp [Registry.Owns, Registry.setCreation, Registry.issueStop]
  | stored hp hk =>
    obtain ⟨mi, sid', hc, hk'⟩ := hs
    cases hp.symm.trans hc
    cases hk.symm.trans hk'
  | _ => cases hs

structure RoomLeft (s : Server B) : Prop where
  reg : Inv s.reg
  holder : s.lock = some h → Serves s.reg h
  quiet : s.reg.Private sid → (∀ h ∈ s.lock, h.sid ≠ sid) → (s.ctx sid).command = []
  tasks : s.tasks g = some (sid, t) → ¬s.reg.Private sid
  room : s.Exposed sid → (s.ctx sid).pc.left → (s.ctx sid).command.length < commandCap

/-- No session is left with a full queue: `start()` of a session in the map leaves its loop only
while the queue has room, and afterwards nobody sends the command that fills the queue. -/
def LeavesRoom (s : Server B) : ServerAct B → Prop
  | .session sid a => ∀ x ∈ Session.step (B.mailClient sid) (B.settings sid) (s.ctx sid) a,
      x.pc.left → (s.ctx sid).pc.left ∨
        (s.Exposed sid → (s.ctx sid).command.length < commandCap)
  | .task g => ∀ p ∈ s.tasks g, p.2.sends → (s.ctx p.1).pc.left → s.Exposed p.1 →
      (s.ctx p.1).command.length + 1 < commandCap
  | _ => True

namespace RoomLeft

theorem reg_step (hs : RoomLeft s) (hst : Rpc.Stepped s.reg a r)
    (hcr : s.lock = none ∨ ∃ c ok, a = .create c ok) : RoomLeft { s with reg := r } where
  reg := hst.inv hs.reg
  holder {h} hl := by
    rcases hcr with hnone | ⟨c, ok, rfl⟩
    · cases hnone.symm.trans hl
    · exact (hs.holder hl).create hst
  quiet hp hne := hs.quiet (private_of_step hst hp) hne
  tasks hg hp := hs.tasks hg (private_of_step hst hp)
  room {sid} hexp hleft := by
    rcases inMap_of_step hs.reg hst hexp.1 with hm | ⟨c, rfl, hc⟩
    · exact hs.room ⟨hm, hexp.2⟩ hleft
    · -- a session that is stored has an empty queue
      rcases hcr with hnone | ⟨_, _, heq⟩
      · have hnil := hs.quiet (.inr ⟨c, hc⟩) fun h hl => (nomatch hnone.symm.trans hl)
        simp [hnil, commandCap]
      · cases heq

theorem spawn (hs : RoomLeft s) (hp : ¬s.reg.Private sid) : RoomLeft (s.spawn sid t) where
  reg := hs.reg
  holder := hs.holder
  quiet := hs.quiet
  tasks {g sid' t'} hg := by
    by_cases hgn : g = s.ntasks
    · subst hgn
      cases (Function.update_self ..).symm.trans hg
      exact hp
    · exact hs.tasks ((Function.update_of_ne hgn ..).symm.trans hg)
  room := hs.room

theorem acquire (hs : RoomLeft s) (hnone : s.lock = none) (hh : Serves s.reg h) :
    RoomLeft { s with lock := some h } where
  reg := hs.reg
  holder hl := by cases hl; exact hh
  quiet hp _ := hs.quiet hp fun h hl => (nomatch hnone.symm.trans hl)
  tasks := hs.tasks
  room hexp := hs.room ⟨hexp.1, fun h hl => (nomatch hnone.symm.trans hl)⟩

theorem release (hs : RoomLeft s) (hl : s.lock = some h) (hst : Rpc.Stepped s.reg h.act r) :
    RoomLeft { s with reg := r, lock := none } := by
  have hinv : Inv r := hst.inv hs.reg
  have hstop : r.Owns h.sid (.stopped h.act) := (hs.holder hl).stopped hst
  have hsole : ∀ {o}, r.Owns h.sid o → o = .stopped h.act := by
    intro o ho
    obtain ⟨y, -, huniq⟩ := hinv.owner (hinv.known hstop)
    exact (huniq o ho).trans (huniq _ hstop).symm
  refine ⟨hinv, nofun, fun {sid} hp _ => ?_, fun hg hp => hs.tasks hg (private_of_step hst hp), ?_⟩
  · refine hs.quiet (private_of_step hst hp) fun h' hl' heq => ?_
    obtain rfl := Option.some.inj (hl.symm.trans hl')
    subst heq
    rcases hp with hle | ⟨c, hc⟩
    · exact absurd (hinv.known hstop) (Nat.not_lt_of_le hle)
    · cases hsole hc
  · rintro sid ⟨hm, -⟩ hleft
    have hne : h.sid ≠ sid := by
      rintro rfl
      obtain ⟨mi, -, hk⟩ := hm
      cases hsole (o := .stored _) hk
    refine hs.room ⟨?_, fun h' hl' heq => ?_⟩ hleft
    · rcases inMap_of_step hs.reg hst hm with hm | ⟨c, hact, mi, hc⟩
      · exact hm
      · have hserves := hs.holder hl
        simp only [Serves, hact] at hserves
        obtain ⟨mi', _, hc', -⟩ := hserves
        cases hc.symm.trans hc'
        exact absurd rfl hne
    · obtain rfl := Option.some.inj (hl.symm.trans hl')
      exact absurd heq hne

/-- A step of a session or of a task changes one session. -/
theorem setCtx (hs : RoomLeft s) (hquiet : s.reg.Private sid → (∀ h ∈ s.lock, h.sid ≠ sid) →
      (s.ctx sid).command = [] → x.command = [])
    (hroom : s.Exposed sid → x.pc.left →
      ((s.ctx sid).pc.left → (s.ctx sid).command.length < commandCap) →
      x.command.length < commandCap) : RoomLeft (s.setCtx sid x) where
  reg := hs.reg
  holder := hs.holder
  tasks := hs.tasks
  quiet {sid'} hp hne := by
    by_cases hsid : sid' = sid
    · subst hsid
      rw [setCtx_self]
      exact hquiet hp hne (hs.quiet hp hne)
    · rw [setCtx_of_ne s hsid]
      exact hs.quiet hp hne
  room {sid'} hexp hleft := by
    by_cases hsid : sid' = sid
    · subst hsid
      rw [setCtx_self] at hleft ⊢
      exact hroom hexp hleft (hs.room hexp)
    · rw [setCtx_of_ne s hsid] at hleft ⊢
      exact hs.room hexp hleft

theorem works (hs : RoomLeft s) (hl : s.lock = some ⟨b, sid, t⟩)
    (ht : t.step (s.ctx sid) = some (x, t')) :
    RoomLeft { s.setCtx sid x with lock := some ⟨b, sid, t'⟩ } := by
  obtain ⟨hpc, hcmd⟩ := t.step_command ht
  refine ⟨hs.reg, ?_, ?_, hs.tasks, ?_⟩
  · rintro h ⟨⟩
    have hserves : Serves s.reg ⟨b, sid, t⟩ := hs.holder hl
    exact hserves
  · intro sid' hp hne
    have hsid : sid' ≠ sid := (hne _ rfl).symm
    show ((s.setCtx sid x).ctx sid').command = []
    rw [setCtx_of_ne s hsid]
    refine hs.quiet hp fun h hl' => ?_
    cases hl.symm.trans hl'
    exact hsid.symm
  · rintro sid' ⟨hm, hnot⟩ hleft
    have hret := hnot _ rfl
    by_cases hsid : sid' = sid
    · subst hsid
      have hexp : s.Exposed sid' := by
        refine ⟨hm, fun h hl' _ => ?_⟩
        cases hl.symm.trans hl'
        rintro rfl
        cases ht
      change ((s.setCtx sid' x).ctx sid').pc.left at hleft
      show ((s.setCtx sid' x).ctx sid').command.length < commandCap
      rw [setCtx_self] at hleft ⊢
      rcases hcmd with hcmd | ⟨-, rfl, -⟩
      · rw [hcmd]
        exact hs.room hexp (hpc ▸ hleft)
      · exact absurd rfl (hret rfl)
    · have hexp : s.Exposed sid' := by
        refine ⟨hm, fun h hl' heq => ?_⟩
        cases hl.symm.trans hl'
        exact absurd heq.symm hsid
      change ((s.setCtx sid x).ctx sid').pc.left at hleft
      show ((s.setCtx sid x).ctx sid').command.length < commandCap
      rw [setCtx_of_ne s hsid] at hleft ⊢
      exact hs.room hexp hleft

theorem task (hs : RoomLeft s) (hg : s.tasks g = some (sid, t))
    (ht : t.step (s.ctx sid) = some (x, t')) (hc : LeavesRoom s (.task g)) :
    RoomLeft { s.setCtx sid x with tasks := Function.update s.tasks g (some (sid, t')) } := by
  obtain ⟨hpc, hcmd⟩ := t.step_command ht
  have hset : RoomLeft (s.setCtx sid x) := by
    refine hs.setCtx (fun hp => absurd hp (hs.tasks hg)) fun hexp hleft hroom => ?_
    rw [hpc] at hleft
    rcases hcmd with hcmd | ⟨hsends, -, hlen⟩
    · rw [hcmd]
      exact hroom hleft
    · rw [hlen]
      exact hc _ hg hsends hleft hexp
  refine ⟨hset.reg, hset.holder, hset.quiet, fun {g' sid' t₁} hg' => ?_, hset.room⟩
  by_cases hgg : g' = g
  · subst hgg
    cases (Function.update_self ..).symm.trans hg'
    exact hs.tasks hg
  · exact hs.tasks ((Function.update_of_ne hgg ..).symm.trans hg')

theorem session {a : Session.Act (B.mailClient sid).Label} (hs : RoomLeft s) (ha : a.own)
    (hx : Session.step (B.mailClient sid) (B.settings sid) (s.ctx sid) a = some x)
    (hc : LeavesRoom s (.session sid a)) : RoomLeft (s.setCtx sid x) := by
  obtain ⟨hcmd, hafter⟩ := step_own_command ha hx
  refine hs.setCtx (fun _ _ hnil => ?_) fun hexp hleft hroom => ?_
  · rcases hcmd with hcmd | ⟨c, hcmd⟩
    · exact hcmd.trans hnil
    · cases hnil.symm.trans hcmd
  · have hle : x.command.length ≤ (s.ctx sid).command.length := by
      rcases hcmd with hcmd | ⟨c, hcmd⟩
      · rw [hcmd]
      · rw [hcmd]
        exact Nat.le_succ _
    refine Nat.lt_of_le_of_lt hle ?_
    rcases hc x hx hleft with hleft' | hlt
    · exact hroom hleft'
    · exact hlt hexp

theorem step {a : ServerAct B} (hs : RoomLeft s) (hc : LeavesRoom s a)
    (h : s.step a = some s') : RoomLeft s' := by
  cases step_cases h with
  | commit hcr hr => exact hs.reg_step (Rpc.step_cases hr) hcr
  | starts hnone hk => exact hs.acquire hnone hk
  | refuses hnone hp hk => exact hs.acquire hnone ⟨_, _, hp, hk⟩
  | removes hnone hk hr =>
    have hst := Rpc.step_cases hr
    refine (hs.reg_step hst (.inl hnone)).spawn fun hp => ?_
    exact not_private_of_stored hs.reg hk (private_of_step hst hp)
  | defers hk => exact hs.spawn (not_private_of_stored hs.reg hk)
  | denies => exact hs
  | works hl ht => exact hs.works hl ht
  | releases hl hr => exact hs.release hl (Rpc.step_cases hr)
  | task hg ht => exact hs.task hg ht hc
  | session _ ha hx => exact hs.session ha hx hc
  | advance => exact ⟨hs.reg, hs.holder, hs.quiet, hs.tasks, hs.room⟩

theorem init : RoomLeft ({} : Server B) where
  reg := .init
  holder h := nomatch h
  quiet _ _ := rfl
  tasks h := nomatch h
  room h := by
    obtain ⟨⟨mi, hmi, -⟩, -⟩ := h
    cases hmi

end RoomLeft

/-- When no session is left with a full queue, `RPCStartPoll` in `Action` holds the lock only while
the queue has room or `start()` is in its loop and can go on. -/
theorem lock_releasable (h : Run step LeavesRoom ({} : Server B) as s)
    (hl : s.lock = some ⟨.startPoll mi status, sid, .action c⟩) :
    (s.ctx sid).command.length < commandCap ∨ (s.ctx sid).pc.left = false ∧
      ∃ p, (start (B.mailClient sid) (B.settings sid) (s.ctx sid) p).isSome := by
  have hs : RoomLeft s := h.inv (fun hs hc h => hs.step hc h) .init
  by_cases hlt : (s.ctx sid).command.length < commandCap
  · exact .inl hlt
  · right
    have hexp : s.Exposed sid := by
      refine ⟨inMap_of_stored hs.reg (hs.holder hl), fun h hl' _ => ?_⟩
      cases hl.symm.trans hl'
      nofun
    have hleft : (s.ctx sid).pc.left = false := by
      cases hpc : (s.ctx sid).pc.left with
      | true => exact absurd (hs.room hexp hpc) hlt
      | false => rfl
    refine ⟨hleft, start_enabled (B.settings sid) hleft fun hnil => hlt ?_⟩
    simp [hnil, commandCap]

instance (s : Server B) : (a : ServerAct B) → Decidable (LeavesRoom s a)
  | .session sid a => inferInstanceAs (Decidable
      (∀ x ∈ Session.step (B.mailClient sid) (B.settings sid) (s.ctx sid) a, x.pc.left →
        (s.ctx sid).pc.left ∨ (s.Exposed sid → (s.ctx sid).command.length < commandCap)))
  | .task g => inferInstanceAs (Decidable
      (∀ p ∈ s.tasks g, p.2.sends → (s.ctx p.1).pc.left → s.Exposed p.1 →
        (s.ctx p.1).command.length + 1 < commandCap))
  | .startPoll _ | .stopPoll _ | .deferPoll _ | .create _ _ | .offer _ | .holder | .advance _ =>
    .isTrue trivial

/-- An ActiveSync registration. -/
def activeSync : MailPingInformation :=
  { pingInfo with
    userId := GoString.lit "u", clientContext := GoString.lit "c", deviceId := GoString.lit "d"
    protocol := GoString.lit "ActiveSync", responseTimeout := 600000, maxPollTimeout := 172800000 }

def activeSyncBackend : Backend where
  mailClient _ := Exchange.client { pi := activeSync }
  settings _ := eagerSettings

/-- Steps of session 0. -/
def sessionActs (acts : List (Session.Act Exchange.Label)) : List (ServerAct activeSyncBackend) :=
  acts.map fun a => .session 0 a

/-- The device registers, and its session starts the push of new mail. -/
def pushActs : List (ServerAct activeSyncBackend) :=
  List.flatten [[.startPoll activeSync, .create 0 true, .offer 0], sessionActs newMailActs,
    sessionActs [.start (.errCh 0)]]

/-- `n` requests to defer, each of which is queued. -/
def deferActs (n : Nat) : List (ServerAct activeSyncBackend) :=
  (List.range n).flatMap fun g =>
    [.deferPoll ⟨activeSync.userId, activeSync.clientContext, activeSync.deviceId, 0⟩,
      .task g, .task g, .task g]

/-- The push is done, the session ends, and the device registers again. -/
def endActs : List (ServerAct activeSyncBackend) :=
  List.flatten [sessionActs (.start (.pushed .ok) :: goSteps 6), sessionActs [.poll (.cancel 0)],
    sessionActs (goSteps 3), [.startPoll activeSync]]

/-- A session that has ended with one command in its queue. -/
theorem lock_releasable_ended :
    ∃ s : Server activeSyncBackend, Run step LeavesRoom {} (pushActs ++ deferActs 1 ++ endActs) s ∧
      s.lock = some ⟨.startPoll activeSync (.stopped, none), 0, .action .stop⟩ ∧
      (s.ctx 0).pc = .done ∧ (s.ctx 0).command.length < commandCap :=
  have h : Run step LeavesRoom ({} : Server activeSyncBackend)
      (pushActs ++ deferActs 1 ++ endActs) _ := Run.of_execIf rfl
  ⟨_, h, rfl, rfl, (lock_releasable h rfl).resolve_right fun hleft => nomatch hleft.1⟩

/-! ## The wedge -/

/-- `RPCStartPoll` is in `Action` under the lock, the queue is full, and `start()` has left its
loop. -/
structure Wedged (s : Server B) (h : Holder) : Prop where
  lock : s.lock = some h
  sends : h.task.sends
  full : (s.ctx h.sid).command.length = commandCap
  left : (s.ctx h.sid).pc.left

/-- A task that is at `Action` waits while the queue is full. -/
theorem full_step {x : Ctx σ} {t : Task} (ht : t.sends) (hfull : x.command.length = commandCap) :
    t.step x = none := by
  cases t with
  | action c => simp [Task.step, Ctx.action, hfull]
  | _ => cases ht

/-- Nobody releases the lock. -/
theorem Wedged.step {a : ServerAct B} (hw : Wedged s h) (hs : s.step a = some s') :
    Wedged s' h := by
  obtain ⟨hl, ht, hfull, hleft⟩ := hw
  cases step_cases hs with
  | commit _ _ => exact ⟨hl, ht, hfull, hleft⟩
  | starts hnone | refuses hnone | removes hnone => cases hnone.symm.trans hl
  | defers | denies => exact ⟨hl, ht, hfull, hleft⟩
  | works hl' hstep =>
    cases hl.symm.trans hl'
    cases (full_step ht hfull).symm.trans hstep
  | releases hl' _ =>
    cases hl.symm.trans hl'
    cases ht
  | @task g sid t x t' hg hstep =>
    obtain ⟨hpc, hcmd⟩ := t.step_command hstep
    by_cases hsid : h.sid = sid
    · subst hsid
      have hx : ((s.setCtx h.sid x).ctx h.sid) = x := setCtx_self s
      rcases hcmd with hcmd | ⟨hsends, -, -⟩
      · refine ⟨hl, ht, ?_, ?_⟩
        · show ((s.setCtx h.sid x).ctx h.sid).command.length = commandCap
          rw [hx, hcmd, hfull]
        · show ((s.setCtx h.sid x).ctx h.sid).pc.left
          rw [hx, hpc, hleft]
      · cases (full_step hsends hfull).symm.trans hstep
    · have hx : (s.setCtx sid x).ctx h.sid = s.ctx h.sid := setCtx_of_ne s hsid
      refine ⟨hl, ht, ?_, ?_⟩
      · show ((s.setCtx sid x).ctx h.sid).command.length = commandCap
        rw [hx, hfull]
      · show ((s.setCtx sid x).ctx h.sid).pc.left
        rw [hx, hleft]
  | @session sid b x _ ha hx =>
    by_cases hsid : h.sid = sid
    · subst hsid
      obtain ⟨hleft', hcmd⟩ := (step_own_command ha hx).2 hleft
      refine ⟨hl, ht, ?_, ?_⟩
      · rw [setCtx_self, hcmd, hfull]
      · rw [setCtx_self, hleft']
    · refine ⟨hl, ht, ?_, ?_⟩
      · rw [setCtx_of_ne s hsid, hfull]
      · rw [setCtx_of_ne s hsid, hleft]
  | advance => exact ⟨hl, ht, hfull, hleft⟩

theorem Wedged.forever (hw : Wedged s h) (hrun : Run Server.step Free s as t) :
    t.lock = some h := by
  have hw' : Wedged t h := hrun.inv (I := fun t => Wedged t h) (fun hw _ hs => hw.step hs) hw
  exact hw'.lock

/-- A registration for a session that has ended with a full queue takes the lock for ever. -/
theorem wedge_of_full (hnone : s.lock = none) (hk : s.reg.pollMap mi.pollMapKey = some sid)
    (hfull : (s.ctx sid).command.length = commandCap) (hleft : (s.ctx sid).pc.left) :
    ∃ s' h, s.step (.startPoll mi) = some s' ∧ Wedged s' h ∧
      ∀ as t, Run step Free s' as t → t.lock = some h := by
  have hw : Wedged { s with lock := some ⟨.startPoll mi (s.ctx sid).getStatus, sid, .action .stop⟩ }
      ⟨.startPoll mi (s.ctx sid).getStatus, sid, .action .stop⟩ := ⟨rfl, rfl, hfull, hleft⟩
  refine ⟨_, _, ?_, hw, fun as t hrun => hw.forever hrun⟩
  simp [step, hnone, hk]

/-- Ten requests to defer come in during a push, and the session ends when it is done. The next
registration of the device holds the map lock for ever. -/
theorem ended_session_wedges :
    ∃ (s : Server activeSyncBackend) (h : Holder),
      Run step Free {} (pushActs ++ deferActs 10 ++ endActs) s ∧
      h = ⟨.startPoll activeSync (.stopped, none), 0, .action .stop⟩ ∧ Wedged s h ∧
      (s.ctx 0).pc = .done ∧ ∀ as t, Run step Free s as t → t.lock = some h := by
  have hw : ∃ s : Server activeSyncBackend,
      Run step Free {} (pushActs ++ deferActs 10 ++ endActs) s ∧ (s.ctx 0).pc = .done ∧
      Wedged s ⟨.startPoll activeSync (.stopped, none), 0, .action .stop⟩ :=
    ⟨_, Run.of_exec rfl, rfl, rfl, rfl, rfl, rfl⟩
  obtain ⟨s, h, hdone, hw⟩ := hw
  exact ⟨s, _, h, rfl, hw, hdone, fun as t hrun => hw.forever hrun⟩

end Server
end Pinger.Rpc

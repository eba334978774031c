import Pinger.Session.Deferral
import Pinger.Session.Rearm

/-! # How long a deferral lasts

`WaitBeforeUse` is written by the registration, by `deferPoll` when its timeout is not zero, and by
a re-arm, which leaves its own timeout there. `enterDeferred` arms the timer for whatever was
written last, so a client that defers its poll without a timeout after a re-arm waits for as long
as the server has chosen. -/

namespace Pinger.Session

open GoTime EventFsm Transition

variable {M : MailClient} {cfg : Settings} {s s' : Ctx M.State}

/-! ## The writes -/

inductive WaitWrite
  | client (timeout : Nat)
  | rearm
  deriving DecidableEq, Repr

def WaitWrite.wait (cfg : Settings) : WaitWrite → Nat
  | .client timeout => timeout
  | .rearm => cfg.rearmWait

def WaitWrite.timeout : WaitWrite → Option Nat
  | .client timeout => some timeout
  | .rearm => none

/-- The writes to `WaitBeforeUse` after the registration. -/
def waitWrites (cfg : Settings) (s : Ctx σ) : Act L → List WaitWrite
  | .setWait timeout => if 0 < timeout then [.client timeout] else []
  | .start .go =>
    if s.pc = .enter [] .rearm ∧ cfg.protocol = mailClientIMAP ∧ s.rearmingCount < 3 then [.rearm]
    else []
  | _ => []

/-- The last write, be it of the registration. -/
def lastWait (cfg : Settings) (log : List WaitWrite) : Nat :=
  (log.map (WaitWrite.wait cfg)).getLastD cfg.waitBeforeUse

/-- The wait the client has last asked for: the last timeout that is not zero, or that of the
registration. -/
def clientWait (cfg : Settings) (log : List WaitWrite) : Nat :=
  (log.filterMap WaitWrite.timeout).getLastD cfg.waitBeforeUse

theorem lastWait_concat (cfg : Settings) (log : List WaitWrite) (w : WaitWrite) :
    lastWait cfg (log ++ [w]) = w.wait cfg := by
  simp [lastWait, List.getLastD_eq_getLast?]

/-- Unless the last write is that of a re-arm, it is the client's. -/
theorem lastWait_eq (cfg : Settings) (log : List WaitWrite) :
    lastWait cfg log =
      if log.getLast? = some .rearm then cfg.rearmWait else clientWait cfg log := by
  induction log using List.reverseRecOn with
  | nil => rfl
  | append_singleton log w =>
    rw [lastWait_concat]
    cases w with
    | client timeout => simp [WaitWrite.wait, clientWait, WaitWrite.timeout, List.getLastD_eq_getLast?]
    | rearm => simp [WaitWrite.wait]

/-! ## One step -/

theorem waitWrites_go (cfg : Settings) {s : Ctx σ} (hpc : s.pc ≠ .enter [] .rearm) :
    waitWrites cfg s (.start .go : Act L) = [] := if_neg fun h => hpc h.1

theorem waitBeforeUse_go (h : start M cfg s .go = some s') (hw : s.waitBeforeUse = lastWait cfg log) :
    s'.waitBeforeUse = lastWait cfg (log ++ waitWrites cfg s (.start .go : Act L)) := by
  have hloop := start_go_pc h
  have hquiet : s.pc ≠ .enter [] .rearm →
      s.waitBeforeUse = lastWait cfg (log ++ waitWrites cfg s (.start .go : Act L)) := fun hpc => by
    rw [waitWrites_go cfg hpc, List.append_nil, hw]
  cases start_go_cases h with
  | leave hpc hop | enter hpc hop => exact (perform_locals hop).2.trans (hquiet (by simp [hpc]))
  | @resumed k hpc =>
    cases k with
    | rearm =>
      simp only [waitWrites, hpc, resume, true_and]
      split
      · rw [lastWait_concat]
        rfl
      · rw [List.append_nil]
        exact hw
    | loop | ret | sent | redefer => exact hquiet (by simp [hpc])
  | crash hpc =>
    rcases hpc with ⟨_, _, _, _, hpc, _⟩ | ⟨_, _, _, hpc, _⟩ <;> exact hquiet (by simp [hpc])
  | boot hpc | refused hpc | begun hpc | transit hpc | recovered hpc | returned hpc | waited hpc
  | cleanup hpc | cleanupClient hpc => exact hquiet (by simp [hpc])
  | maxPoll hpc | deferTick hpc | errCh hpc | command hpc => exact absurd hpc hloop.1
  | pushed hpc => exact absurd hpc (hloop.2 _)

/-- At its select and in a push `start()` does not touch the wait time. -/
theorem StartStep.waitBeforeUse_eq (h : StartStep M cfg s s')
    (hpc : s.pc = .select ∨ ∃ site, s.pc = .push site) : s'.waitBeforeUse = s.waitBeforeUse := by
  have hne : ∀ {ops k}, s.pc ≠ .enter ops k := by
    rintro ops k h
    rw [h] at hpc
    rcases hpc with hpc | ⟨_, hpc⟩ <;> cases hpc
  cases h with
  | leave _ hop | enter _ hop => exact (perform_locals hop).2
  | resumed hpc => exact absurd hpc hne
  | errCh =>
    obtain ⟨_, heq, -⟩ := received_eq cfg { s with mc := M.taken s.mc _ } _
    rw [heq]
  | command =>
    obtain ⟨_, _, heq, -⟩ := handle_eq { s with command := _ } _
    rw [heq]
  | pushed =>
    obtain ⟨_, _, heq, -⟩ := pushed_eq cfg s _ _
    rw [heq]
  | _ => rfl

theorem step_waitBeforeUse {a : Act M.Label} (hw : s.waitBeforeUse = lastWait cfg log)
    (h : step M cfg s a = some s') : s'.waitBeforeUse = lastWait cfg (log ++ waitWrites cfg s a) := by
  cases a with
  | start p =>
    by_cases hp : p = .go
    · subst hp
      exact waitBeforeUse_go h hw
    · have hnone : waitWrites cfg s (.start p : Act M.Label) = [] := by
        cases p <;> first | rfl | exact absurd rfl hp
      rw [hnone, List.append_nil, (start_cases h).waitBeforeUse_eq (start_pick h hp), hw]
  | setWait timeout =>
    simp only [step, waitWrites] at h ⊢
    split at h <;> cases h
    next hpos => rw [if_pos hpos, lastWait_concat]; rfl
    next hzero => rw [if_neg hzero, List.append_nil, hw]
  | advance d => cases h; simpa [waitWrites] using hw
  | expireDefer | expireMax | poll =>
    obtain ⟨t, _, rfl⟩ := Option.map_eq_some_iff.mp h
    simpa [waitWrites] using hw
  | command c =>
    simp only [step, Ctx.action] at h
    split at h <;> cases h
    simpa [waitWrites] using hw

/-! ## Whole runs -/

/-- `enterDeferred` is about to arm the timer, and not for a re-arm: after the start of the session,
or after a `PingerDefer`. -/
def Pc.armsDeferral : Pc → Bool
  | .enter (.resetDeferTimer :: .setStatus .deferred _ :: _) _ => true
  | _ => false

/-- The timeout of a re-arm fits in 64 bits. -/
theorem rearmWait_lt (cfg : Settings) : cfg.rearmWait * 1000000 < 2 ^ 64 := by
  have hlt : (cfg.rearmTimeout % 2 ^ 64).toNat < 2 ^ 64 := by omega
  exact Nat.lt_of_le_of_lt (Nat.div_mul_le_self ..) hlt

/-- Whenever `start()` enters `deferred` because of a `PingerDefer`, it arms the timer for the wait
the client has last asked for if and only if no re-arm has written `WaitBeforeUse` since, or has
written the same, and the wait fits in a duration. -/
theorem deferral_wait_iff (h : Run (step M cfg) Free (init M cfg) as s) (hpc : s.pc.armsDeferral)
    (harm : step M cfg s (.start .go) = some s') :
    let log := observe (step M cfg) (waitWrites cfg) (init M cfg) as
    s'.deferTimer.deadline = some (s.now + (clientWait cfg log * 1000000 : Nat)) ↔
      (log.getLast? = some .rearm → cfg.rearmWait = clientWait cfg log) ∧
        clientWait cfg log * 1000000 < 2 ^ 63 := by
  intro log
  have hw : s.waitBeforeUse = lastWait cfg ([] ++ log) :=
    h.observe_inv (f := waitWrites cfg) (I := fun log s => s.waitBeforeUse = lastWait cfg log)
      (fun hw _ h => step_waitBeforeUse hw h) rfl
  rw [List.nil_append, lastWait_eq] at hw
  have hdl : s'.deferTimer.deadline = some (s.now + milliseconds s.waitBeforeUse) := by
    unfold Pc.armsDeferral at hpc
    split at hpc
    next hpc' =>
      simp only [step, start, hpc', perform, Option.some.injEq] at harm
      subst harm
      rfl
    next => cases hpc
  rw [hdl, Option.some.injEq, Int.add_right_inj, milliseconds_eq_iff, hw]
  · split
    next hlast => simp [hlast]
    next hlast => simp [hlast]
  · rw [hw]
    split
    next => exact .inr (rearmWait_lt cfg)
    next => exact .inl rfl

/-! ## Concrete runs -/

/-- From the receipt of a `PingerDefer` in `deferred` or `pinging` to the arming of the timer. -/
def deferActs (timeout : Nat) : List (Act L) :=
  List.flatten [[.setWait timeout, .command .defer, .start .command], goSteps 8]

/-- The client defers the poll for ten minutes. -/
theorem deferral_wait_ten_minutes :
    ∃ s s', Run (step (Exchange.client { pi := {} }) patientSettings) Free (init _ patientSettings)
        (bootActs ++ deferActs 600000) s ∧
      s.pc.armsDeferral ∧
      step (Exchange.client { pi := {} }) patientSettings s (.start .go) = some s' ∧
      s'.deferTimer.deadline = some (s.now + (600000 * 1000000 : Nat)) := by
  obtain ⟨s, s', h, hpc, harm⟩ : ∃ s s', Run (step (Exchange.client { pi := {} }) patientSettings)
      Free (init _ patientSettings) (bootActs ++ deferActs 600000) s ∧ s.pc.armsDeferral ∧
      step (Exchange.client { pi := {} }) patientSettings s (.start .go) = some s' :=
    ⟨_, _, Run.of_exec rfl, rfl, rfl⟩
  have hlog : observe (step (Exchange.client { pi := {} }) patientSettings)
      (waitWrites patientSettings) (init _ patientSettings) (bootActs ++ deferActs 600000) =
      [.client 600000] := rfl
  have hiff := deferral_wait_iff h hpc harm
  simp only [hlog] at hiff
  exact ⟨s, s', h, hpc, harm, hiff.mpr (by decide)⟩

/-- An IMAP session that waits for five minutes. -/
def patientImapSettings : Settings := { imapSettings with waitBeforeUse := 300000 }

/-- The session re-arms, polls again ten minutes later, and then the client defers it without a
timeout. -/
def rearmedActs : List (Act Imap.Label) :=
  List.flatten [bootActs, [.advance 300000000000, .expireDefer], pingActs,
    (Imap.idleSteps 0 0 "PINGR1 OK" "PINGR2 OK").map .poll,
    (Imap.mailSteps 0 0 "PINGR3 OK").map .poll, [.start (.errCh 0), .start (.pushed .ok)], goSteps 11,
    [.advance 600000000000, .expireDefer], pingActs, deferActs 0]

theorem patientImapSettings_rearmWait : patientImapSettings.rearmWait = 600000 := by decide

set_option maxRecDepth 4000 in
/-- It is armed for the ten minutes of the re-arm, and not for the five of the registration. -/
theorem rearm_timeout_outlives :
    ∃ s s', Run (step (Imap.client Imap.idleEnv) patientImapSettings) Free
        (init _ patientImapSettings) rearmedActs s ∧
      s.pc.armsDeferral ∧ step (Imap.client Imap.idleEnv) patientImapSettings s (.start .go) = some s' ∧
      clientWait patientImapSettings (observe (step (Imap.client Imap.idleEnv) patientImapSettings)
        (waitWrites patientImapSettings) (init _ patientImapSettings) rearmedActs) = 300000 ∧
      s'.deferTimer.deadline = some (s.now + (600000 * 1000000 : Nat)) ∧
      s'.deferTimer.deadline ≠ some (s.now + (300000 * 1000000 : Nat)) := by
  have hwait : milliseconds patientImapSettings.rearmWait = (600000 * 1000000 : Nat) := by
    rw [patientImapSettings_rearmWait]
    exact milliseconds_eq (by decide)
  obtain ⟨s, s', h, hpc, harm, hclient, hdl⟩ :
      ∃ s s', Run (step (Imap.client Imap.idleEnv) patientImapSettings) Free
        (init _ patientImapSettings) rearmedActs s ∧ s.pc.armsDeferral ∧
      step (Imap.client Imap.idleEnv) patientImapSettings s (.start .go) = some s' ∧
      clientWait patientImapSettings (observe (step (Imap.client Imap.idleEnv) patientImapSettings)
        (waitWrites patientImapSettings) (init _ patientImapSettings) rearmedActs) = 300000 ∧
      s'.deferTimer.deadline = some (s.now + milliseconds patientImapSettings.rearmWait) :=
    ⟨_, _, Run.of_exec rfl, rfl, rfl, rfl, rfl⟩
  rw [hwait] at hdl
  refine ⟨s, s', h, hpc, harm, hclient, hdl, ?_⟩
  rw [hdl, ne_eq, Option.some.injEq]
  omega

end Pinger.Session

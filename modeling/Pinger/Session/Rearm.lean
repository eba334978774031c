import Pinger.Imap.OneResult
import Pinger.Session.Events
import Mathlib.Data.List.DropRight

/-! # Re-arms

When a poll finds new mail `start()` stops it, and in an IMAP session it re-arms: it defers the
poll once more, for a time of its own. It counts the re-arms, and a `PingerDefer` resets the count.
The counter is at the same time the number of results since the client has last been heard of, and
so it bounds what a session does behind the back of its client. -/

namespace Pinger.Session

open GoTime EventFsm Transition

variable {M : MailClient} {cfg : Settings} {s s' : Ctx M.State}

/-! ## What the loop is busy with -/

/-- `mail` is from the receipt of new mail to the re-arm, `redefer` from the receipt of a
`PingerDefer` to the reset of the counter, and `out` is after the loop. -/
inductive Phase
  | loop
  | mail
  | redefer
  | out
  deriving DecidableEq, Repr

def Cont.phase : Cont → Phase
  | .rearm => .mail
  | .redefer => .redefer
  | .loop | .ret | .sent => .loop

def Pc.phase : Pc → Phase
  | .event _ k | .leave _ _ k | .enter _ k => k.phase
  | .push .newMail => .mail
  | .push .maxPoll | .push .reRegister | .boot | .select => .loop
  | .panic _ | .returned | .waiting | .cleanup | .cleanupClient | .done => .out

/-- The calls of `fsm.Event` for a re-arm that come next. -/
def Pc.rearms : Pc → Nat
  | .event (.deferred .reDeferred) .loop => 1
  | _ => 0

theorem Pc.rearms_of_phase {pc : Pc} (h : pc.phase ≠ .loop) : pc.rearms = 0 := by
  unfold Pc.rearms
  split
  · exact absurd rfl h
  · rfl

/-! ## The log -/

inductive LoopMark
  | newMail
  | rearm
  | defer
  deriving DecidableEq, Repr

/-- The results `LongPollNewMail` and the commands `PingerDefer` that `start()` receives, and its
re-arms. -/
def loopMarks (M : MailClient) (s : Ctx M.State) : Act M.Label → List LoopMark
  | .start .go => List.replicate s.pc.rearms .rearm
  | .start (.errCh g) =>
    if s.pc = .select ∧ M.offer s.mc g = some .newMail then [.newMail] else []
  | .start .command => if s.pc = .select ∧ s.command.head? = some .defer then [.defer] else []
  | _ => []

/-- The part of a log after the last `PingerDefer`, or all of it. -/
def sinceDefer (log : List LoopMark) : List LoopMark := log.rtakeWhile (· ≠ .defer)

theorem sinceDefer_append (h : .defer ∉ ms) : sinceDefer (log ++ ms) = sinceDefer log ++ ms := by
  induction ms using List.reverseRecOn with
  | nil => simp
  | append_singleton ms m ih =>
    rw [List.mem_append, not_or, List.mem_singleton] at h
    rw [← List.append_assoc, sinceDefer, List.rtakeWhile_concat_pos _ _ _ (by simpa using Ne.symm h.2),
      ← List.append_assoc]
    exact congrArg (· ++ [m]) (ih h.1)

theorem sinceDefer_defer (log : List LoopMark) : sinceDefer (log ++ [.defer]) = [] :=
  List.rtakeWhile_concat_neg _ _ _ (by simp)

/-! ## The invariant -/

/-- The results and the re-arms since the client has last been heard of, against the counter. -/
def Agrees (pc : Pc) (count newMails rearms : Nat) : Prop :=
  match pc.phase with
  | .loop => newMails = count ∧ rearms + pc.rearms ≤ count
  | .mail => newMails = count + 1 ∧ rearms ≤ count
  | .redefer => newMails = 0 ∧ rearms = 0
  | .out => newMails ≤ count + 1 ∧ rearms ≤ count

/-- The loop goes on with what it is busy with. -/
theorem Agrees.same (h : Agrees pc c n r) (hphase : pc'.phase = pc.phase) (hr : pc'.rearms = 0) :
    Agrees pc' c n (r + pc.rearms) := by
  unfold Agrees at h ⊢
  rw [hphase]
  cases hp : pc.phase with
  | loop => rw [hp] at h; exact ⟨h.1, by rw [hr]; exact h.2⟩
  | _ => rw [hp] at h; rwa [Pc.rearms_of_phase (by simp [hp])]

/-- The loop is left. -/
theorem Agrees.leaves (h : Agrees pc c n r) (hphase : pc'.phase = .out) :
    Agrees pc' c n (r + pc.rearms) := by
  unfold Agrees at h ⊢
  rw [hphase]
  cases hp : pc.phase with
  | loop => rw [hp] at h; exact ⟨Nat.le_succ_of_le (Nat.le_of_eq h.1), h.2⟩
  | mail =>
    rw [hp] at h
    rw [Pc.rearms_of_phase (by simp [hp])]
    exact ⟨Nat.le_of_eq h.1, h.2⟩
  | redefer =>
    rw [hp] at h
    rw [Pc.rearms_of_phase (by simp [hp]), h.1, h.2]
    exact ⟨Nat.zero_le _, Nat.zero_le _⟩
  | out => rw [hp] at h; rwa [Pc.rearms_of_phase (by simp [hp])]

structure Tally (cfg : Settings) (log : List LoopMark) (s : Ctx σ) : Prop where
  bound : s.rearmingCount ≤ 3
  other : cfg.protocol ≠ mailClientIMAP → s.rearmingCount = 0
  agrees : Agrees s.pc s.rearmingCount ((sinceDefer log).count .newMail)
    ((sinceDefer log).count .rearm)

/-- A step that leaves the counter and logs no more than re-arms. -/
theorem Tally.rearmed {s s' : Ctx σ} (ht : Tally cfg log s) (hc : s'.rearmingCount = s.rearmingCount)
    (ha : Agrees s'.pc s.rearmingCount ((sinceDefer log).count .newMail)
      ((sinceDefer log).count .rearm + n)) :
    Tally cfg (log ++ List.replicate n .rearm) s' := by
  refine ⟨hc ▸ ht.bound, hc ▸ ht.other, ?_⟩
  rw [hc, sinceDefer_append (by simp [List.mem_replicate])]
  simpa [List.count_append, List.count_replicate] using ha

/-- A step that leaves the counter and logs nothing. -/
theorem Tally.quiet {s s' : Ctx σ} (ht : Tally cfg log s) (hc : s'.rearmingCount = s.rearmingCount)
    (hold : s.pc.rearms = 0) (hphase : s'.pc.phase = s.pc.phase) (hnew : s'.pc.rearms = 0) :
    Tally cfg (log ++ []) s' := by
  have ha := ht.agrees.same hphase hnew
  rw [hold] at ha
  exact ht.rearmed (n := 0) hc ha

/-! ## One step -/

/-- The callbacks leave the counter and the wait time alone. -/
theorem perform_locals (h : perform M cfg s op = some s') :
    s'.rearmingCount = s.rearmingCount ∧ s'.waitBeforeUse = s.waitBeforeUse := by
  cases op with
  | goLongPoll =>
    obtain ⟨g, _, rfl⟩ := Option.map_eq_some_iff.mp h
    exact ⟨rfl, rfl⟩
  | closeStopPollCh =>
    obtain ⟨g, -, -, rfl⟩ := perform_closeStopPollCh h
    exact ⟨rfl, rfl⟩
  | _ => cases h; exact ⟨rfl, rfl⟩

/-- The code after an event: a re-arm answers one result, and the counter is reset when the client
defers the poll. -/
theorem tally_resume (ht : Tally cfg log s) (hpc : s.pc = .enter [] k) :
    Tally cfg (log ++ []) (resume M cfg { s with fsm := s.fsm.finish } k) := by
  obtain ⟨hbound, hother, ha⟩ := ht
  rw [List.append_nil]
  rw [hpc] at ha
  cases k with
  | loop | sent => exact ⟨hbound, hother, ha⟩
  | ret => exact ⟨hbound, hother, ha.leaves rfl⟩
  | rearm =>
    simp only [resume]
    split
    next hc => exact ⟨hc.2, fun hne => absurd hc.1 hne, ha.1, Nat.succ_le_succ ha.2⟩
    next => exact ⟨hbound, hother, ha.leaves rfl⟩
  | redefer =>
    refine ⟨Nat.zero_le _, fun _ => rfl, ha.1, ?_⟩
    rw [ha.2]
    exact Nat.le_refl _

theorem tally_go (ht : Tally cfg log s) (h : start M cfg s .go = some s') :
    Tally cfg (log ++ loopMarks M s (.start .go)) s' := by
  have hloop := start_go_pc h
  cases start_go_cases h with
  | boot hpc =>
    exact ht.rearmed rfl (ht.agrees.same (by simp only [hpc]; rfl) rfl)
  | begun hpc | transit hpc =>
    exact ht.rearmed rfl (ht.agrees.same (by simp only [hpc]; rfl) rfl)
  | leave hpc hop | enter hpc hop =>
    exact ht.rearmed (perform_locals hop).1 (ht.agrees.same (by simp only [hpc]; rfl) rfl)
  | resumed hpc =>
    simp only [loopMarks, hpc, Pc.rearms, List.replicate_zero]
    exact tally_resume ht hpc
  | refused | crash | recovered | returned | waited | cleanup | cleanupClient =>
    exact ht.rearmed rfl (ht.agrees.leaves rfl)
  | maxPoll hpc | deferTick hpc | errCh hpc | command hpc => exact absurd hpc hloop.1
  | pushed hpc => exact absurd hpc (hloop.2 _)

/-- New mail is one more result than the counter has seen. -/
theorem tally_received (ht : Tally cfg log s) (hpc : s.pc = .select) (hv : M.offer s.mc g = some v) :
    Tally cfg (log ++ loopMarks M s (.start (.errCh g)))
      (received M cfg { s with mc := M.taken s.mc g } v) := by
  simp only [loopMarks, hpc, hv, true_and, Option.some.injEq]
  cases v with
  | newMail =>
    obtain ⟨hbound, hother, ha⟩ := ht
    rw [hpc] at ha
    have hcount : Agrees (.push .newMail) s.rearmingCount
        ((sinceDefer (log ++ [.newMail])).count .newMail)
        ((sinceDefer (log ++ [.newMail])).count .rearm) := by
      rw [sinceDefer_append (by simp)]
      simp only [List.count_append, List.count_singleton_self]
      exact ⟨congrArg (· + 1) ha.1, ha.2⟩
    simp only [if_true, received]
    split
    · exact ⟨hbound, hother, hcount⟩
    · exact ⟨hbound, hother, hcount⟩
  | reRegister | error => exact ht.quiet rfl (by rw [hpc]; rfl) (by rw [hpc]; rfl) rfl

theorem tally_handle (ht : Tally cfg log s) (hpc : s.pc = .select) (hc : s.command = c :: cs) :
    Tally cfg (log ++ loopMarks M s (.start .command)) (handle M { s with command := cs } c) := by
  simp only [loopMarks, hpc, hc, List.head?_cons, true_and, Option.some.injEq]
  cases c with
  | defer =>
    obtain ⟨hbound, hother, -⟩ := ht
    refine ⟨hbound, hother, ?_⟩
    simp only [if_true, sinceDefer_defer]
    exact ⟨rfl, rfl⟩
  | stop | other => exact ht.quiet rfl (by rw [hpc]; rfl) (by rw [hpc]; rfl) rfl

theorem tally_pushed (ht : Tally cfg log s) (hpc : s.pc = .push site) :
    Tally cfg (log ++ []) (pushed M cfg s site r) := by
  cases site with
  | maxPoll | reRegister => exact ht.quiet rfl (by rw [hpc]; rfl) (by rw [hpc]; rfl) rfl
  | newMail =>
    simp only [pushed]
    split
    · have ha := ht.agrees
      rw [hpc] at ha
      exact ht.rearmed (n := 0) rfl (ha.leaves rfl)
    · exact ht.quiet rfl (by rw [hpc]; rfl) (by rw [hpc]; rfl) rfl

theorem tally_start {p : Pick} (ht : Tally cfg log s) (h : start M cfg s p = some s') :
    Tally cfg (log ++ loopMarks M s (.start p)) s' := by
  cases p with
  | go => exact tally_go ht h
  | maxPoll | deferTick =>
    obtain ⟨hpc, t, _, rfl⟩ := select_cases h
    exact ht.quiet rfl (by rw [hpc]; rfl) (by rw [hpc]; rfl) rfl
  | errCh g =>
    obtain ⟨hpc, v, hv, rfl⟩ := select_cases h
    exact tally_received ht hpc hv
  | command =>
    obtain ⟨hpc, c, cs, hc, rfl⟩ := command_cases h
    exact tally_handle ht hpc hc
  | pushed r =>
    obtain ⟨site, hpc, rfl⟩ := pushed_cases h
    exact tally_pushed ht hpc

/-- The steps of `start()`. -/
def Act.ofStart : Act L → Bool
  | .start _ => true
  | _ => false

/-- Only `start()` moves its program counter and its counter. -/
theorem step_pc_count {a : Act M.Label} (h : step M cfg s a = some s') (ha : ∀ p, a ≠ .start p) :
    s'.pc = s.pc ∧ s'.rearmingCount = s.rearmingCount := by
  obtain ⟨_, _, _, _, _, _, rfl⟩ := step_other h ha
  exact ⟨rfl, rfl⟩

theorem step_tally {a : Act M.Label} (ht : Tally cfg log s) (h : step M cfg s a = some s') :
    Tally cfg (log ++ loopMarks M s a) s' := by
  cases a with
  | start p => exact tally_start ht h
  | _ =>
    obtain ⟨hpc, hc⟩ := step_pc_count h (by simp)
    exact ht.rearmed (n := 0) hc (by rw [hpc]; exact ht.agrees)

/-! ## The way out -/

/-- The steps `start()` has to take at most until it has left its loop, once it does not come back
to its select. -/
def Pc.stepsLeft : Pc → Nat
  | .push _ => 7
  | .event e _ => (enterCallback e).length + 5
  | .leave ops e _ => ops.length + (enterCallback e).length + 2
  | .enter ops _ => ops.length + 1
  | .panic _ => 1
  | .boot | .select | .returned | .waiting | .cleanup | .cleanupClient | .done => 0

/-- `start()` has received new mail that it will not answer by a re-arm, or is already out. -/
def Pc.Ending (pc : Pc) : Prop := pc.phase = .mail ∨ pc.phase = .out

theorem Pc.Ending.ne_select {pc : Pc} (h : pc.Ending) : pc ≠ .select := by
  rintro rfl
  rcases h with h | h <;> cases h

/-- A session that does not re-arm comes one step closer to its end. -/
theorem StartStep.ending (h : StartStep M cfg s s') (hp : cfg.protocol ≠ mailClientIMAP)
    (hl : s.pc.Ending) : s'.pc.Ending ∧ (s'.pc.left ∨ s'.pc.stepsLeft < s.pc.stepsLeft) := by
  cases h with
  | boot hpc | maxPoll hpc | deferTick hpc | errCh hpc | command hpc =>
    rw [hpc] at hl
    rcases hl with hl | hl <;> cases hl
  | refused hpc => rw [hpc]; exact ⟨.inr rfl, .inr (by simp [Pc.stepsLeft])⟩
  | begun hpc =>
    rw [hpc] at hl ⊢
    refine ⟨hl, .inr ?_⟩
    have := leaveCallback_length s.fsm.current
    simp only [Pc.stepsLeft]
    omega
  | leave hpc | enter hpc =>
    rw [hpc] at hl ⊢
    refine ⟨hl, .inr ?_⟩
    simp only [Pc.stepsLeft, List.length_cons]
    omega
  | transit hpc =>
    rw [hpc] at hl ⊢
    refine ⟨hl, .inr ?_⟩
    simp only [Pc.stepsLeft, List.length_nil]
    omega
  | crash hpc =>
    refine ⟨.inr rfl, .inr ?_⟩
    rcases hpc with ⟨_, _, _, _, hpc, _⟩ | ⟨_, _, _, hpc, _⟩ <;> simp [hpc, Pc.stepsLeft]
  | @resumed k hpc =>
    rw [hpc] at hl
    cases k with
    | rearm =>
      simp only [resume]
      rw [if_neg fun h => hp h.1]
      exact ⟨.inr rfl, .inl rfl⟩
    | loop | ret | sent | redefer => rcases hl with hl | hl <;> cases hl
  | @pushed site r hpc =>
    rw [hpc] at hl ⊢
    cases site with
    | newMail =>
      simp only [Session.pushed]
      split
      · exact ⟨.inr rfl, .inl rfl⟩
      · exact ⟨.inl rfl, .inr (by simp [Pc.stepsLeft, enterCallback, enterStopped])⟩
    | maxPoll | reRegister => rcases hl with hl | hl <;> cases hl
  | recovered | returned | waited | cleanup | cleanupClient => exact ⟨.inr rfl, .inl rfl⟩

theorem step_ending {a : Act M.Label} (hp : cfg.protocol ≠ mailClientIMAP) (hl : s.pc.Ending)
    (h : step M cfg s a = some s') : s'.pc.Ending ∧
      (s'.pc.left ∨ s'.pc.stepsLeft + (if a.ofStart then 1 else 0) ≤ s.pc.stepsLeft) := by
  cases a with
  | start p => exact (start_cases h).ending hp hl
  | _ =>
    obtain ⟨hpc, -⟩ := step_pc_count h (by simp)
    rw [hpc]
    exact ⟨hl, .inr (Nat.le_refl _)⟩

theorem left_step {a : Act M.Label} (hl : s.pc.left) (h : step M cfg s a = some s') :
    s'.pc.left := by
  cases a with
  | start p => exact ((start_cases h).after_loop hl).1
  | _ => rw [(step_pc_count h (by simp)).1]; exact hl

theorem ending_run (hp : cfg.protocol ≠ mailClientIMAP) (h : Run (step M cfg) Free s as s')
    (hl : s.pc.Ending) : s'.pc.Ending ∧
      (s'.pc.left ∨ s'.pc.stepsLeft + as.countP Act.ofStart ≤ s.pc.stepsLeft) := by
  induction h with
  | nil => exact ⟨hl, .inr (Nat.le_refl _)⟩
  | cons _ hs htail ih =>
    obtain ⟨hl', hstep⟩ := step_ending hp hl hs
    obtain ⟨hlast, hsteps⟩ := ih hl'
    refine ⟨hlast, ?_⟩
    rcases hstep with hleft | hle
    · exact .inl (htail.inv (I := fun t => t.pc.left) (fun hl _ h => left_step hl h) hleft)
    · refine hsteps.imp_right fun h => ?_
      rw [List.countP_cons]
      omega

/-- The session ends: whatever the others do, `start()` never comes back to its select, and it can
go on until it has left its loop, after seven steps at most. -/
def Ends (M : MailClient) (cfg : Settings) (s : Ctx M.State) : Prop :=
  ∀ as s', Run (step M cfg) Free s as s' → s'.pc ≠ .select ∧
    (s'.pc.left ∨ as.countP Act.ofStart < 7 ∧ ∃ p, (start M cfg s' p).isSome)

theorem Pc.stepsLeft_pos {pc : Pc} (hl : pc.Ending) (h : pc.left = false) : 0 < pc.stepsLeft := by
  cases pc with
  | boot | select => rcases hl with hl | hl <;> cases hl
  | returned | waiting | cleanup | cleanupClient | done => cases h
  | _ => simp [Pc.stepsLeft]

theorem ends_of_ending (hp : cfg.protocol ≠ mailClientIMAP) (hl : s.pc.Ending)
    (hsteps : s.pc.stepsLeft ≤ 7) : Ends M cfg s := by
  intro as s' h
  obtain ⟨hl', hs'⟩ := ending_run hp h hl
  refine ⟨hl'.ne_select, ?_⟩
  cases hleft : s'.pc.left with
  | true => exact .inl rfl
  | false =>
    rw [hleft] at hs'
    have := Pc.stepsLeft_pos hl' hleft
    refine .inr ⟨?_, start_goes cfg hleft hl'.ne_select⟩
    have := hs'.resolve_left (by simp)
    omega

/-! ## Whole runs -/

theorem Tally.counts {s : Ctx σ} (ht : Tally cfg log s) :
    (sinceDefer log).count .newMail ≤ s.rearmingCount + 1 ∧
      (sinceDefer log).count .rearm ≤ s.rearmingCount := by
  have ha := ht.agrees
  unfold Agrees at ha
  split at ha <;> omega

/-- At the head of the loop every result has been answered by a re-arm. -/
theorem Tally.select {s : Ctx σ} (ht : Tally cfg log s) (hpc : s.pc = .select) :
    (sinceDefer log).count .newMail = s.rearmingCount := by
  have ha := ht.agrees
  rw [hpc] at ha
  exact ha.1

theorem received_newMail (h : step M cfg s (.start (.errCh g)) = some s')
    (hv : M.offer s.mc g = some .newMail) : s.pc = .select ∧
      (s'.pc = .push .newMail ∨ s'.pc = .event (.stopped .stopped none) .rearm ∧
        s.rearmingCount ≠ 0) := by
  obtain ⟨hpc, v, hv', rfl⟩ := select_cases h
  cases hv.symm.trans hv'
  refine ⟨hpc, ?_⟩
  simp only [received]
  split
  next => exact .inl rfl
  next hpush =>
    refine .inr ⟨rfl, fun hzero => hpush ?_⟩
    simp [wantsPush, hzero]

/-- What holds of a session at any time, with what its `start()` has received and done. -/
structure RearmBound (M : MailClient) (cfg : Settings) (log : List LoopMark) (s : Ctx M.State) :
    Prop where
  rearmingCount : s.rearmingCount ≤ 3
  newMails : (sinceDefer log).count .newMail ≤ 4
  rearms : (sinceDefer log).count .rearm ≤ 3
  other : cfg.protocol ≠ mailClientIMAP →
    (sinceDefer log).count .newMail ≤ 1 ∧ (sinceDefer log).count .rearm = 0
  ends : cfg.protocol ≠ mailClientIMAP → ∀ g s', M.offer s.mc g = some .newMail →
    step M cfg s (.start (.errCh g)) = some s' → Ends M cfg s'
  first : .newMail ∉ sinceDefer log → ∀ g s', M.offer s.mc g = some .newMail →
    step M cfg s (.start (.errCh g)) = some s' → s'.pc = .push .newMail

/-- In every run of a session: since its start or its last `PingerDefer` it has received at most
four results `LongPollNewMail` and has re-armed at most three times. A session that is not of the
protocol `IMAP` has received at most one and has not re-armed, and its first result ends it. The
first result since the start or the last `PingerDefer` is pushed. -/
theorem rearm_bounded (h : Run (step M cfg) Free (init M cfg) as s) :
    RearmBound M cfg (observe (step M cfg) (loopMarks M) (init M cfg) as) s := by
  have ht : Tally cfg ([] ++ observe (step M cfg) (loopMarks M) (init M cfg) as) s :=
    h.observe_inv (f := loopMarks M) (I := fun log s => Tally cfg log s)
      (fun ht _ h => step_tally ht h) ⟨Nat.zero_le _, fun _ => rfl, rfl, Nat.le_refl _⟩
  rw [List.nil_append] at ht
  have hbound := ht.bound
  obtain ⟨hmails, hrearms⟩ := ht.counts
  refine ⟨hbound, by omega, by omega, fun hp => ?_, fun hp g s' hv h => ?_, fun hnone g s' hv h => ?_⟩
  · rw [ht.other hp] at hmails hrearms
    exact ⟨hmails, Nat.le_zero.mp hrearms⟩
  · obtain ⟨-, hpc | ⟨hpc, -⟩⟩ := received_newMail h hv
    · exact ends_of_ending hp (by rw [hpc]; exact .inl rfl) (by rw [hpc]; decide)
    · exact ends_of_ending hp (by rw [hpc]; exact .inl rfl) (by rw [hpc]; decide)
  · obtain ⟨hpc, hpush | ⟨-, hcount⟩⟩ := received_newMail h hv
    · exact hpush
    · rw [← ht.select hpc] at hcount
      exact absurd (List.count_pos_iff.mp (Nat.pos_of_ne_zero hcount)) hnone

/-! ## Concrete runs -/

/-- An IMAP session that starts to poll at once. -/
def imapSettings : Settings := { eagerSettings with protocol := mailClientIMAP }

/-- A session up to the receipt of the new mail its first poll has found. -/
def imapMailActs : List (Act Imap.Label) :=
  List.flatten [eagerActs, (Imap.idleSteps 0 0 "PINGR1 OK" "PINGR2 OK").map .poll,
    (Imap.mailSteps 0 0 "PINGR3 OK").map .poll, [.start (.errCh 0)]]

/-- The push succeeds, and the session re-arms. -/
def rearmActs : List (Act Imap.Label) :=
  List.flatten [imapMailActs, .start (.pushed .ok) :: goSteps 11]

set_option maxRecDepth 4000 in
theorem rearm_bounded_once :
    ∃ s, Run (step (Imap.client Imap.idleEnv) imapSettings) Free (init _ imapSettings) rearmActs s ∧
      s.pc = .select ∧ s.rearmingCount = 1 ∧
      observe (step (Imap.client Imap.idleEnv) imapSettings) (loopMarks (Imap.client Imap.idleEnv))
        (init _ imapSettings) rearmActs = [.newMail, .rearm] ∧
      RearmBound (Imap.client Imap.idleEnv) imapSettings [.newMail, .rearm] s := by
  obtain ⟨s, h, hpc, hcount⟩ : ∃ s, Run (step (Imap.client Imap.idleEnv) imapSettings) Free
      (init _ imapSettings) rearmActs s ∧ s.pc = .select ∧ s.rearmingCount = 1 :=
    ⟨_, Run.of_exec rfl, rfl, rfl⟩
  have hlog : observe (step (Imap.client Imap.idleEnv) imapSettings)
      (loopMarks (Imap.client Imap.idleEnv)) (init _ imapSettings) rearmActs =
      [.newMail, .rearm] := rfl
  have hbound := rearm_bounded h
  rw [hlog] at hbound
  exact ⟨s, h, hpc, hcount, hlog, hbound⟩

end Pinger.Session

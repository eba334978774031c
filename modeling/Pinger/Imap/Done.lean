import Pinger.Imap.OneResult
import Pinger.Imap.Parse

/-! # Ending an IDLE

A `DONE` is written when a line reports another number of messages than the client knows of, when
the request timer fires and when `cancel()` runs, the last two while an `IDLE` is outstanding. None
of the three places knows of the others, so the client writes as many `DONE`s for an `IDLE` as there
are cues for one. -/

namespace Pinger.Imap

open Transition

/-! ## What is written -/

inductive Mark
  | idle
  | done
  deriving DecidableEq

/-- The line is a `DONE`, or the first of an `IDLE`. -/
def marksOf (line : GoString) : List Mark :=
  if line = GoString.lit "DONE" then [.done]
  else if getNameFromCommand line = GoString.lit "IDLE" then [.idle]
  else []

/-- The `IDLE`s and `DONE`s the client has written. -/
def Shared.marks (sh : Shared) : List Mark := sh.log.flatMap fun entry => marksOf entry.2

/-- What makes the client write one of them: a command has such a line (only an authentication blob
can hold a `DONE`), a line reports another number of messages, the request timer fires, or
`cancel()` runs. -/
inductive Cue
  | idle
  | blob
  | exists
  | timer
  | cancel
  deriving DecidableEq

def Cue.mark : Cue → Mark
  | .idle => .idle
  | .blob | .exists | .timer | .cancel => .done

/-- The response reports another number of messages than the client knows of. -/
def Shared.differs (sh : Shared) (response : GoString) : Bool :=
  match parseIDLEResponse response with
  | some (count, token) => token = existsToken && count ≠ sh.existsCount
  | none => false

def Cmd.cues (cmd : Cmd) (sh : Shared) (e : IoEvent) : List Cue :=
  match cmd.phase, e with
  | .send, .write _ =>
    let line := cmd.lines.headD []
    if sh.tlsConn = false then []
    else if line = GoString.lit "DONE" then [.blob]
    else if getNameFromCommand line = GoString.lit "IDLE" then [.idle]
    else []
  | .read _, .read (.line response) =>
    if getNameFromCommand cmd.command = GoString.lit "IDLE" ∧ sh.differs response ∧ sh.tlsConn then
      [.exists]
    else []
  | _, _ => []

def Poll.cues (p : Poll) (sh : Shared) (e : IoEvent) : List Cue :=
  match p with
  | .auth cmd | .authAgain _ cmd | .examine cmd => cmd.cues sh e
  | _ => []

/-- An `IDLE` is outstanding that a `DONE` can end. -/
def Shared.ends (sh : Shared) : Bool := sh.isIdling && sh.tlsConn

def cues (c : Client) : Label → List Cue
  | .io g e => (c.polls g).cues c.sh e
  | .requestIo r e =>
    match c.requests r with
    | .running cmd => cmd.cues c.sh e
    | _ => []
  | .timer _ => if c.sh.ends then [.timer] else []
  | .cancel _ => if c.sh.ends then [.cancel] else []
  | _ => []

theorem mark_eq_idle (cue : Cue) : cue.mark = Cue.mark .idle ↔ cue = .idle := by
  cases cue <;> simp [Cue.mark]

/-! ## Every mark has its cue -/

theorem marks_congr {sh sh' : Shared} (h : sh'.log = sh.log) : sh'.marks = sh.marks := by
  rw [Shared.marks, h, Shared.marks]

theorem marks_append (sh : Shared) (o : Option Nat) (line : GoString) :
    { sh with log := sh.log ++ [(o, line)] }.marks = sh.marks ++ marksOf line := by
  simp [Shared.marks]

/-- The client before the write of a command line. -/
def Shared.noteIDLE (sh : Shared) (command : GoString) : Shared :=
  if getNameFromCommand command = GoString.lit "IDLE" then { sh with isIdling := true } else sh

theorem noteIDLE_marks (sh : Shared) (command : GoString) :
    (sh.noteIDLE command).marks = sh.marks := by
  unfold Shared.noteIDLE
  split <;> rfl

theorem noteIDLE_tlsConn (sh : Shared) (command : GoString) :
    (sh.noteIDLE command).tlsConn = sh.tlsConn := by
  unfold Shared.noteIDLE
  split <;> rfl

theorem sendIMAPCommand_eq (sh : Shared) (o : Option Nat) (command : GoString) :
    sendIMAPCommand sh o command =
      if command = [] then (sh.noteIDLE command, true)
      else if (sh.noteIDLE command).tlsConn then
        ({ sh.noteIDLE command with log := (sh.noteIDLE command).log ++ [(o, command)] }, true)
      else (sh.noteIDLE command, false) := rfl

theorem marksOf_nil : marksOf [] = [] := by decide

theorem marksOf_done : marksOf (GoString.lit "DONE") = [.done] := rfl

theorem sendIMAPCommand_marks (sh : Shared) (o : Option Nat) (command : GoString) :
    (sendIMAPCommand sh o command).1.marks =
      sh.marks ++ if sh.tlsConn = false then [] else marksOf command := by
  rw [sendIMAPCommand_eq, noteIDLE_tlsConn]
  by_cases hc : command = []
  · rw [if_pos hc, noteIDLE_marks, hc, marksOf_nil, ite_self, List.append_nil]
  · rw [if_neg hc]
    cases sh.tlsConn with
    | true =>
      rw [if_pos rfl, marks_append, noteIDLE_marks]
      rfl
    | false =>
      rw [if_neg Bool.false_ne_true, noteIDLE_marks, if_pos rfl, List.append_nil]

theorem cancelIDLE_marks (sh : Shared) (o : Option Nat) :
    (cancelIDLE sh o).1.marks = sh.marks ++ if sh.ends then [.done] else [] := by
  unfold cancelIDLE
  cases hi : sh.isIdling with
  | true =>
    rw [if_pos rfl, sendDone, sendIMAPCommand_marks, marksOf_done]
    cases ht : sh.tlsConn <;> simp [Shared.ends, hi, ht]
  | false => simp [Shared.ends, hi]

theorem cancel_marks (sh : Shared) (o : Option Nat) :
    (cancel sh o).marks = sh.marks ++ if sh.ends then [.done] else [] := by
  simp only [cancel]
  split
  next => exact cancelIDLE_marks { sh with cancelled := true } o
  next ht =>
    have ht' : sh.tlsConn = false := by simpa using ht
    simp only [Shared.ends, ht', Bool.and_false, Bool.false_eq_true, if_false, List.append_nil]
    rfl

theorem processIDLE_marks (sh : Shared) (o : Option Nat) (response : GoString) :
    (processIDLE sh o (parseIDLEResponse response)).1.marks =
      sh.marks ++ if sh.differs response ∧ sh.tlsConn then [.done] else [] := by
  unfold Shared.differs
  cases parseIDLEResponse response with
  | none => simp [processIDLE]
  | some r =>
    obtain ⟨count, token⟩ := r
    rw [processIDLE_some]
    by_cases he : token = expungeToken
    · have hne : token ≠ existsToken := he ▸ existsToken_ne_expungeToken.symm
      simp only [if_pos he, hne, decide_false, Bool.false_and, Bool.false_eq_true, false_and,
        if_false, List.append_nil]
      exact marks_congr rfl
    · rw [if_neg he]
      by_cases hx : token = existsToken ∧ count ≠ sh.existsCount
      · have hd : (decide (token = existsToken) && decide (count ≠ sh.existsCount)) = true := by
          simpa using hx
        rw [if_pos hx, sendDone, sendIMAPCommand_marks, marksOf_done]
        simp only [hd, true_and]
        cases sh.tlsConn <;> rfl
      · have hd : (decide (token = existsToken) && decide (count ≠ sh.existsCount)) = false := by
          simpa using hx
        simp only [if_neg hx, hd, Bool.false_eq_true, false_and, if_false, List.append_nil]

theorem processResponse_marks (sh : Shared) (o : Option Nat) (command response : GoString) :
    (processResponse sh o command response).1.marks = sh.marks ++
      if getNameFromCommand command = GoString.lit "IDLE" ∧ sh.differs response ∧ sh.tlsConn then
        [.done] else [] := by
  unfold processResponse
  split
  next hi =>
    rw [processIDLE_marks]
    simp only [hi, true_and]
  next hi =>
    simp only [hi, false_and, if_false, List.append_nil]
    split
    · unfold processEXAMINE
      split
      · rfl
      · split
        · rfl
        · split <;> rfl
    · split
      · unfold processSTATUS
        split
        · rfl
        · split
          · rfl
          · split <;> rfl
      · rfl

theorem Cmd.Responded.marks {cmd : Cmd} (h : cmd.Responded sh response sh' out) :
    sh'.marks = sh.marks := by
  have hended : (cmd.ended sh).marks = sh.marks := by
    unfold Cmd.ended
    split <;> rfl
  cases h with
  | more => rfl
  | completed | nextLine | refused => exact hended

theorem Cmd.cues_send {cmd : Cmd} (h : cmd.phase = .send) :
    (cmd.cues sh (.write ok)).map Cue.mark =
      if sh.tlsConn = false then [] else marksOf (cmd.lines.headD []) := by
  simp only [Cmd.cues, h, marksOf]
  split
  · rfl
  · split
    · rfl
    · split <;> rfl

theorem Cmd.cues_read {cmd : Cmd} (h : cmd.phase = .read tries) :
    (cmd.cues sh (.read (.line response))).map Cue.mark =
      if getNameFromCommand cmd.command = GoString.lit "IDLE" ∧ sh.differs response ∧ sh.tlsConn then
        [.done] else [] := by
  simp only [Cmd.cues, h]
  split <;> rfl

theorem Cmd.step_marks {cmd : Cmd} (h : cmd.step sh o e = some (sh', out)) :
    sh'.marks = sh.marks ++ (cmd.cues sh e).map Cue.mark := by
  have hsend := sendIMAPCommand_marks sh o (cmd.lines.headD [])
  cases Cmd.step_cases h with
  | sent hp heq | writeErr hp heq | sendPanic hp heq =>
    rw [heq, ← Cmd.cues_send hp] at hsend
    exact hsend
  | checked hp | cancelled hp | armed hp | armPanic hp => simp [Cmd.cues, hp]
  | @readErr _ r _ hp hr | @again _ r hp hr =>
    cases r with
    | line => cases hr
    | _ => simp [Cmd.cues, hp]
  | @line _ response _ _ _ hp heq hr =>
    have hproc := processResponse_marks sh o cmd.command response
    rw [heq, ← Cmd.cues_read hp] at hproc
    exact hr.marks.trans hproc
  | @linePanic _ response _ hp heq =>
    have hproc := processResponse_marks sh o cmd.command response
    rw [heq, ← Cmd.cues_read hp] at hproc
    exact hproc

variable {env : Env} {sig : Signals} {c c' : Client}

theorem pollIo_marks (h : pollIo env sh g p e = some (sh', p')) :
    sh'.marks = sh.marks ++ (p.cues sh e).map Cue.mark := by
  cases p with
  | greeting phase =>
    obtain ⟨seq, rfl⟩ := greet_tag h
    exact (List.append_nil _).symm
  | auth cmd | authAgain isOK cmd | examine cmd =>
    obtain ⟨⟨sh₁, out⟩, hstep, heq⟩ := Option.map_eq_some_iff.mp h
    obtain ⟨seq, hout⟩ := pollOut_tag env sh₁ _ out
    obtain rfl := (congrArg Prod.fst heq).symm.trans hout
    have hmarks := Cmd.step_marks hstep
    exact hmarks
  | _ => cases h

theorem Stepped.marks (h : Stepped env sig c l c') :
    c'.sh.marks = c.sh.marks ++ (cues c l).map Cue.mark := by
  cases h with
  | connected =>
    obtain ⟨seq, hready⟩ := ready_tag env c.sh
    have hmarks := congrArg Shared.marks hready
    exact hmarks.trans (List.append_nil _).symm
  | io hio => exact pollIo_marks hio
  | timer =>
    rw [cues, apply_ite (List.map Cue.mark)]
    exact cancelIDLE_marks c.sh _
  | cancelled =>
    rw [cues, apply_ite (List.map Cue.mark)]
    exact cancel_marks c.sh _
  | @requestIo r cmd e sh out hr hio =>
    obtain ⟨q, wg, heq, -⟩ := requestOut_eq { c with sh := sh } r out
    simp only [cues, hr, heq]
    exact Cmd.step_marks hio
  | alreadyIdling | started | setupConn | dialled | dialErr | spawned | ioTimeout | requestErr
  | newMail | noMail | stopPoll | stopAll | counted | begun | noConn | dropped | failed | answered =>
    exact (List.append_nil _).symm

/-! ## Whole runs -/

variable {s s' : Caller (client env).State}

def stepCues (s : Caller (client env).State) : CallerAct (client env).Label → List Cue
  | .poll l => cues s.mc l
  | _ => []

theorem marks_step {a : CallerAct (client env).Label} (hsound : Sound s)
    (hs : Caller.step (client env) s a = some s') :
    (Client.sh s'.mc).marks = (Client.sh s.mc).marks ++ (stepCues s a).map Cue.mark := by
  cases a with
  | take g =>
    obtain ⟨v, hv, rfl⟩ := Option.map_eq_some_iff.mp hs
    exact (List.append_nil _).symm
  | poll l =>
    obtain ⟨mc, hm, rfl⟩ := Option.map_eq_some_iff.mp hs
    exact (step_of_live hsound.live hm).marks
  | launch | closePoll | closeAll | advance =>
    cases hs
    exact (List.append_nil _).symm

/-- The `IDLE`s and `DONE`s that have been written are those the run has cues for. -/
theorem marks_run (h : Run (Caller.step (client env)) Free { mc := newIMAPClient env } as s) :
    (Client.sh s.mc).marks = (Transition.observe (Caller.step (client env)) stepCues
      { mc := newIMAPClient env } as).map Cue.mark := by
  have h₀ : Sound ({ mc := newIMAPClient env } : Caller (client env).State) ∧
      (newIMAPClient env).sh.marks = ([] : List Cue).map Cue.mark := ⟨init_sound, rfl⟩
  have hinv := h.observe_inv (f := stepCues)
    (I := fun log s => Sound s ∧ (Client.sh s.mc).marks = log.map Cue.mark) ?_ h₀
  · exact hinv.2
  · rintro log s a s' ⟨hsound, hmarks⟩ - hs
    refine ⟨hsound.step hs, ?_⟩
    rw [marks_step hsound hs, hmarks, List.map_append]

/-- The client writes at most one `DONE` for an `IDLE` if and only if there is at most one cue for
it: one `EXISTS` with another number of messages, the request timer or `cancel()` while the `IDLE`
is outstanding. -/
theorem done_once_iff (h : Run (Caller.step (client env)) Free { mc := newIMAPClient env } as s) :
    Spaced .idle (Client.sh s.mc).marks ↔
      Spaced .idle (Transition.observe (Caller.step (client env)) stepCues
        { mc := newIMAPClient env } as) := by
  rw [marks_run h]
  exact spaced_map mark_eq_idle

/-- The first poll of a client finds new mail and writes one `DONE`. -/
theorem done_once_iff_newMail :
    ∃ s : Caller (client idleEnv).State,
      Run (Caller.step (client idleEnv)) Free { mc := newIMAPClient idleEnv } mailActs s ∧
      Spaced .idle (Client.sh s.mc).marks := by
  have h : Run (Caller.step (client idleEnv)) Free { mc := newIMAPClient idleEnv } mailActs _ :=
    Run.of_exec rfl
  have hcues : Transition.observe (Caller.step (client idleEnv)) stepCues
      { mc := newIMAPClient idleEnv } mailActs = [.idle, .exists] := rfl
  refine ⟨_, h, (done_once_iff h).mpr ?_⟩
  rw [hcues]
  decide

/-- The server reports two arrivals before it ends the `IDLE`. -/
def twoArrivals : List (CallerAct Label) :=
  List.flatten [[.launch], (idleSteps 0 0 "PINGR1 OK" "PINGR2 OK").map .poll,
    [Label.requestIo 0 .arm, .requestIo 0 (readLine "* 6 EXISTS"), .requestIo 0 .arm,
      .requestIo 0 (readLine "* 7 EXISTS")].map .poll]

theorem not_spaced_of_marks {sh : Shared} (h : sh.marks = [.idle, .done, .done]) :
    ¬Spaced .idle sh.marks := by
  rw [h]
  decide

/-- Each of them makes the client write a `DONE`. -/
theorem two_dones_for_idle :
    ∃ s : Caller (client idleEnv).State,
      Run (Caller.step (client idleEnv)) Free { mc := newIMAPClient idleEnv } twoArrivals s ∧
      (Client.sh s.mc).marks = [.idle, .done, .done] ∧ ¬Spaced .idle (Client.sh s.mc).marks := by
  have h : Run (Caller.step (client idleEnv)) Free { mc := newIMAPClient idleEnv } twoArrivals _ :=
    Run.of_exec rfl
  have hcues : Transition.observe (Caller.step (client idleEnv)) stepCues
      { mc := newIMAPClient idleEnv } twoArrivals = [.idle, .exists, .exists] := rfl
  have hmarks := (marks_run h).trans (congrArg (List.map Cue.mark) hcues)
  exact ⟨_, h, hmarks, not_spaced_of_marks hmarks⟩

end Pinger.Imap

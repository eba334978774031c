import Pinger.Imap.OneResult
import Pinger.Imap.Parse

/-! # What the client knows about the mailbox

The number of messages, the next UID and the mark for new mail change only by the lines that
commands read, by the start of a `LongPoll` and by the report of new mail, so after any run they are
a function of its history. During an `IDLE` the number follows the mailbox of a server that reports
arrivals and deletions as it should, whatever their order, and the mark is set by an arrival and by
nothing else. The mark is sticky: one that a poll did not report before it started over is still set
during its next `IDLE`. -/

namespace Pinger.Imap

open Transition

/-! ## The counters -/

/-- What a step does that matters for the counters: a command reads a line, an instance starts, or
an instance reports new mail. -/
inductive News
  | read (command line : GoString)
  | started
  | told
  deriving DecidableEq

structure Counters where
  existsCount : Nat
  uidNext : Nat
  hasNewEmail : Bool
  deriving DecidableEq, Repr

def Shared.counters (sh : Shared) : Counters where
  existsCount := sh.existsCount
  uidNext := sh.uidNext
  hasNewEmail := sh.hasNewEmail

namespace Counters

/-- A line of an `IDLE`. -/
def idle (k : Counters) : Option (Nat × GoString) → Counters
  | none => k
  | some (count, token) =>
    if token = expungeToken then { k with existsCount := (k.existsCount + (2 ^ 32 - 1)) % 2 ^ 32 }
    else if token = existsToken ∧ count ≠ k.existsCount then
      { k with existsCount := count, hasNewEmail := true }
    else k

/-- A line of an `EXAMINE`. -/
def examine (k : Counters) : Option (Nat × GoString) → Counters
  | none => k
  | some (count, token) =>
    if token = existsToken then { k with existsCount := count }
    else if token = uidNextToken then { k with uidNext := count }
    else k

/-- A line of a `STATUS` that reports a next UID; `0` is none. -/
def status (k : Counters) (uidNext : Nat) : Counters :=
  if uidNext = 0 then k
  else if k.uidNext = 0 then { k with uidNext := uidNext }
  else if uidNext ≠ k.uidNext then { k with uidNext := uidNext, hasNewEmail := true }
  else k

def hear (k : Counters) : News → Counters
  | .started => { k with uidNext := 0 }
  | .told => { k with hasNewEmail := false }
  | .read command line =>
    if getNameFromCommand command = GoString.lit "IDLE" then k.idle (parseIDLEResponse line)
    else if getNameFromCommand command = GoString.lit "EXAMINE" then
      k.examine (parseEXAMINEResponse line)
    else if getNameFromCommand command = GoString.lit "STATUS" then
      k.status (parseSTATUSResponse line).2
    else k

end Counters

theorem sendIMAPCommand_counters (sh : Shared) (o : Option Nat) (command : GoString) :
    (sendIMAPCommand sh o command).1.counters = sh.counters := by
  simp only [sendIMAPCommand]
  split
  · split <;> rfl
  · split <;> split <;> rfl

theorem cancelIDLE_counters (sh : Shared) (o : Option Nat) :
    (cancelIDLE sh o).1.counters = sh.counters := by
  unfold cancelIDLE
  split
  · exact sendIMAPCommand_counters sh o _
  · rfl

theorem cancel_counters (sh : Shared) (o : Option Nat) : (cancel sh o).counters = sh.counters := by
  simp only [cancel]
  split
  · exact cancelIDLE_counters { sh with cancelled := true } o
  · rfl

theorem processIDLE_counters (sh : Shared) (o : Option Nat) (r : Option (Nat × GoString)) :
    (processIDLE sh o r).1.counters = sh.counters.idle r := by
  cases r with
  | none => rfl
  | some r =>
    obtain ⟨count, token⟩ := r
    rw [processIDLE_some]
    by_cases he : token = expungeToken
    · simp only [Counters.idle, if_pos he]
      rfl
    · by_cases hx : token = existsToken ∧ count ≠ sh.existsCount
      · have hx' : token = existsToken ∧ count ≠ sh.counters.existsCount := hx
        simp only [Counters.idle, if_neg he, if_pos hx, if_pos hx']
        exact sendIMAPCommand_counters { sh with hasNewEmail := true, existsCount := count } o _
      · have hx' : ¬(token = existsToken ∧ count ≠ sh.counters.existsCount) := hx
        simp only [Counters.idle, if_neg he, if_neg hx, if_neg hx']

theorem processEXAMINE_counters (sh : Shared) (r : Option (Nat × GoString)) :
    (processEXAMINE sh r).1.counters = sh.counters.examine r := by
  cases r with
  | none => rfl
  | some r =>
    obtain ⟨count, token⟩ := r
    rw [processEXAMINE_some]
    by_cases he : token = existsToken
    · simp only [Counters.examine, if_pos he]
      rfl
    · by_cases hu : token = uidNextToken
      · simp only [Counters.examine, if_neg he, if_pos hu]
        rfl
      · simp only [Counters.examine, if_neg he, if_neg hu]

theorem processSTATUS_counters (sh : Shared) (uidNext : Nat) :
    (processSTATUS sh uidNext).counters = sh.counters.status uidNext := by
  unfold processSTATUS Counters.status
  by_cases hz : uidNext = 0
  · rw [if_pos hz, if_pos hz]
  · rw [if_neg hz, if_neg hz]
    by_cases hk : sh.uidNext = 0
    · have hk' : sh.counters.uidNext = 0 := hk
      rw [if_pos hk, if_pos hk']
      rfl
    · have hk' : sh.counters.uidNext ≠ 0 := hk
      rw [if_neg hk, if_neg hk']
      by_cases hu : uidNext ≠ sh.uidNext
      · have hu' : uidNext ≠ sh.counters.uidNext := hu
        rw [if_pos hu, if_pos hu']
        rfl
      · have hu' : ¬uidNext ≠ sh.counters.uidNext := hu
        rw [if_neg hu, if_neg hu']

theorem processResponse_counters (sh : Shared) (o : Option Nat) (command line : GoString) :
    (processResponse sh o command line).1.counters = sh.counters.hear (.read command line) := by
  simp only [processResponse, Counters.hear]
  split
  · exact processIDLE_counters sh o _
  · split
    · exact processEXAMINE_counters sh _
    · split
      · exact processSTATUS_counters sh _
      · rfl

theorem Cmd.Responded.counters {cmd : Cmd} (h : cmd.Responded sh response sh' out) :
    sh'.counters = sh.counters := by
  have hended : (cmd.ended sh).counters = sh.counters := by
    unfold Cmd.ended
    split <;> rfl
  cases h with
  | more => rfl
  | completed | nextLine | refused => exact hended

/-- What an operation of a command is for the counters. -/
def Cmd.heard (cmd : Cmd) : IoEvent → List News
  | .read (.line response) => [.read cmd.command response]
  | _ => []

theorem Cmd.step_counters {cmd : Cmd} (h : cmd.step sh o e = some (sh', out)) :
    sh'.counters = (cmd.heard e).foldl Counters.hear sh.counters := by
  have hsend := sendIMAPCommand_counters sh o (cmd.lines.headD [])
  cases Cmd.step_cases h with
  | sent _ heq | writeErr _ heq | sendPanic _ heq =>
    rw [heq] at hsend
    exact hsend
  | checked | cancelled | armed | armPanic => rfl
  | @readErr _ r _ _ hr | @again _ r _ hr =>
    cases r with
    | line => cases hr
    | _ => rfl
  | @line _ response _ _ _ _ heq hr =>
    have hproc := processResponse_counters sh o cmd.command response
    rw [heq] at hproc
    exact hr.counters.trans hproc
  | @linePanic _ response _ _ heq =>
    have hproc := processResponse_counters sh o cmd.command response
    rw [heq] at hproc
    exact hproc

variable {env : Env} {sig : Signals} {c c' : Client}

/-- What an operation of `LongPoll` on the connection is for the counters. -/
def Poll.heard (p : Poll) (e : IoEvent) : List News :=
  match p with
  | .auth cmd | .authAgain _ cmd | .examine cmd => cmd.heard e
  | _ => []

theorem pollIo_counters (h : pollIo env sh g p e = some (sh', p')) :
    sh'.counters = (p.heard e).foldl Counters.hear sh.counters := by
  cases p with
  | greeting phase =>
    obtain ⟨seq, rfl⟩ := greet_tag h
    rfl
  | auth cmd | authAgain isOK cmd | examine cmd =>
    obtain ⟨⟨sh₁, out⟩, hstep, heq⟩ := Option.map_eq_some_iff.mp h
    obtain ⟨seq, hout⟩ := pollOut_tag env sh₁ _ out
    obtain rfl := (congrArg Prod.fst heq).symm.trans hout
    have hcount := Cmd.step_counters hstep
    exact hcount
  | _ => cases h

/-- What a step of the client is for its counters. -/
def heard (c : Client) : Label → List News
  | .start g =>
    match c.polls g with
    | .launched => if c.sh.isIdling then [] else [.started]
    | _ => []
  | .io g e => (c.polls g).heard e
  | .requestIo r e =>
    match c.requests r with
    | .running cmd => cmd.heard e
    | _ => []
  | .recv g =>
    match c.polls g with
    | .select r _ =>
      match c.requests r with
      | .sendResp => if c.sh.hasNewEmail then [.told] else []
      | _ => []
    | _ => []
  | _ => []

theorem Stepped.counters (h : Stepped env sig c l c') :
    c'.sh.counters = (heard c l).foldl Counters.hear c.sh.counters := by
  cases h with
  | alreadyIdling hp hi => simp only [heard, hp, hi, if_true]; rfl
  | started hp hi => simp only [heard, hp, hi, Bool.false_eq_true, if_false]; rfl
  | connected =>
    obtain ⟨seq, hready⟩ := ready_tag env c.sh
    have hcount := congrArg Shared.counters hready
    exact hcount
  | io hio => exact pollIo_counters hio
  | timer => exact cancelIDLE_counters c.sh _
  | ioTimeout hp hr | requestErr hp hr => simp only [heard, hp, hr]; rfl
  | newMail hp hr hm => simp only [heard, hp, hr, hm, if_true]; rfl
  | noMail hp hr hm => simp only [heard, hp, hr, hm, Bool.false_eq_true, if_false]; rfl
  | cancelled => exact cancel_counters c.sh _
  | @requestIo r cmd e sh out hr hio =>
    obtain ⟨q, wg, heq, -⟩ := requestOut_eq { c with sh := sh } r out
    simp only [heard, hr, heq]
    exact Cmd.step_counters hio
  | setupConn | dialled | dialErr | spawned | stopPoll | stopAll | counted | begun | noConn | dropped
  | failed | answered => rfl

variable {s s' : Caller (client env).State}

/-- What a step is for the counters. -/
def news (s : Caller (client env).State) : CallerAct (client env).Label → List News
  | .poll l => heard s.mc l
  | _ => []

theorem counters_step {a : CallerAct (client env).Label} (hsound : Sound s)
    (hs : Caller.step (client env) s a = some s') :
    (Client.sh s'.mc).counters = (news s a).foldl Counters.hear (Client.sh s.mc).counters := by
  cases a with
  | take g =>
    obtain ⟨v, hv, rfl⟩ := Option.map_eq_some_iff.mp hs
    rfl
  | poll l =>
    obtain ⟨mc, hm, rfl⟩ := Option.map_eq_some_iff.mp hs
    exact (step_of_live hsound.live hm).counters
  | launch | closePoll | closeAll | advance =>
    cases hs
    rfl

/-- The counters are a function of the history. -/
theorem counters_run (hsound : Sound s) (h : Run (Caller.step (client env)) C s as s') :
    (Client.sh s'.mc).counters =
      (Transition.observe (Caller.step (client env)) news s as).foldl Counters.hear
        (Client.sh s.mc).counters := by
  induction h with
  | nil => rfl
  | cons _ hs _ ih =>
    rw [ih (hsound.step hs), counters_step hsound hs]
    simp only [Transition.observe, hs, Option.elim_some, List.foldl_append]

/-! ## A server that reports its mailbox -/

/-- The line `* num token`. -/
def untagged (num token : GoString) : GoString := star ++ ' ' :: (num ++ ' ' :: token)

/-- What a server reports during an `IDLE`, each number as a numeral `num`: `k` messages have
arrived, message `i` has been removed, or the number of messages again. A line of another kind has
at least three tokens when it is untagged. -/
inductive Report
  | arrived (k : Nat) (num : GoString)
  | expunged (i : Nat) (num : GoString)
  | unchanged (num : GoString)
  | other (line : GoString)

namespace Report

def line : Report → GoString
  | .arrived _ num | .unchanged num => untagged num existsToken
  | .expunged _ num => untagged num expungeToken
  | .other line => line

/-- The report is true of a mailbox of `n` messages. -/
def Ok (n : Nat) : Report → Prop
  | .arrived k num => 0 < k ∧ Counts num (n + k)
  | .expunged i num => 0 < i ∧ i ≤ n ∧ Counts num i
  | .unchanged num => Counts num n
  | .other line => ∃ t ts, GoString.split ' ' line = t :: ts ∧
      (t = star → ∃ x token rest, ts = x :: token :: rest ∧ ¬IdleToken token)

/-- The size of the mailbox after the report. -/
def size (n : Nat) : Report → Nat
  | .arrived k _ => n + k
  | .expunged _ _ => n - 1
  | .unchanged _ | .other _ => n

def isArrival : Report → Bool
  | .arrived _ _ => true
  | _ => false

end Report

/-- The reports are true one after the other, beginning with a mailbox of `n` messages. -/
def Conforms : Nat → List Report → Prop
  | _, [] => True
  | n, r :: rs => r.Ok n ∧ Conforms (r.size n) rs

theorem Conforms.last (h : Conforms n (rs ++ [r])) : r.Ok (rs.foldl Report.size n) := by
  induction rs generalizing n with
  | nil => exact h.1
  | cons r' rs ih => exact ih h.2

theorem split_untagged (hnum : ∀ c ∈ num, GoString.isDigit c) (htoken : ' ' ∉ token) :
    GoString.split ' ' (untagged num token) = [star, num, token] := by
  have hspace : ' ' ∉ num := fun hm => (nomatch hnum ' ' hm)
  rw [untagged, GoString.split_first (by decide), GoString.split_first hspace,
    GoString.split_of_not_mem htoken]

theorem space_not_mem_existsToken : ' ' ∉ existsToken := by decide
theorem space_not_mem_expungeToken : ' ' ∉ expungeToken := by decide

theorem parseIDLE_exists (h : Counts num n) :
    parseIDLEResponse (untagged num existsToken) = some (n, existsToken) := by
  have hsplit := split_untagged h.1.2.1 space_not_mem_existsToken
  rw [parseIDLE_counted hsplit (.inl rfl), counted, parseCount_of_counts h]

theorem parseIDLE_expunge (h : Counts num n) :
    parseIDLEResponse (untagged num expungeToken) = some (n, expungeToken) := by
  have hsplit := split_untagged h.1.2.1 space_not_mem_expungeToken
  rw [parseIDLE_counted hsplit (.inr rfl), counted, parseCount_of_counts h]

theorem parseEXAMINE_count (h : Counts num n) :
    parseEXAMINEResponse (untagged num existsToken) = some (n, existsToken) := by
  have hsplit := split_untagged h.1.2.1 space_not_mem_existsToken
  rw [parseEXAMINE_long hsplit, if_pos rfl, counted, parseCount_of_counts h]

/-- A line of another kind says nothing to the parser. -/
theorem parseIDLE_neutral (h : (Report.other line).Ok n) :
    parseIDLEResponse line = some (0, []) := by
  obtain ⟨t, ts, hsplit, hts⟩ := h
  by_cases ht : t = star
  · subst ht
    obtain ⟨x, token, rest, rfl, htoken⟩ := hts rfl
    exact parseIDLE_other hsplit htoken
  · exact parseIDLE_tagged hsplit ht

theorem Report.size_lt {r : Report} (h : r.Ok n) (hn : n < 2 ^ 32) : r.size n < 2 ^ 32 := by
  cases r with
  | arrived k num => exact h.2.2
  | expunged i num => exact Nat.lt_of_le_of_lt (Nat.sub_le n 1) hn
  | unchanged | other => exact hn

/-- The count follows the mailbox by one report, and only an arrival sets the mark. -/
theorem Counters.idle_report {k : Counters} {r : Report} (h : r.Ok k.existsCount)
    (hlt : k.existsCount < 2 ^ 32) :
    k.idle (parseIDLEResponse r.line) =
      { k with
        existsCount := r.size k.existsCount
        hasNewEmail := k.hasNewEmail || r.isArrival } := by
  cases r with
  | arrived d num =>
    have hne : k.existsCount + d ≠ k.existsCount := by
      have := h.1
      omega
    rw [Report.line, parseIDLE_exists h.2]
    simp only [idle, if_neg existsToken_ne_expungeToken, true_and, if_pos hne]
    simp [Report.size, Report.isArrival]
  | expunged i num =>
    have hpos : 0 < k.existsCount := Nat.lt_of_lt_of_le h.1 h.2.1
    have hdec : (k.existsCount + (2 ^ 32 - 1)) % 2 ^ 32 = k.existsCount - 1 := by omega
    rw [Report.line, parseIDLE_expunge h.2.2]
    simp only [idle, if_true, hdec]
    simp [Report.size, Report.isArrival]
  | unchanged num =>
    rw [Report.line, parseIDLE_exists h]
    simp only [idle, if_neg existsToken_ne_expungeToken, ne_eq, not_true_eq_false, and_false, if_false]
    simp [Report.size, Report.isArrival]
  | other line =>
    rw [Report.line, parseIDLE_neutral h]
    simp only [idle, if_neg expungeToken_ne_nil.symm]
    rw [if_neg fun hx => existsToken_ne_nil hx.1.symm]
    simp [Report.size, Report.isArrival]

/-- The same over all the reports of an `IDLE`. -/
theorem Counters.hear_reports {k : Counters} {rs : List Report} (hlt : k.existsCount < 2 ^ 32)
    (hidle : getNameFromCommand command = GoString.lit "IDLE")
    (h : Conforms k.existsCount rs) :
    (rs.map fun r => News.read command r.line).foldl hear k =
      { k with
        existsCount := rs.foldl Report.size k.existsCount
        hasNewEmail := k.hasNewEmail || rs.any Report.isArrival } := by
  induction rs generalizing k with
  | nil => simp
  | cons r rs ih =>
    have hstep : k.hear (.read command r.line) = k.idle (parseIDLEResponse r.line) := by
      simp only [hear, if_pos hidle]
    rw [List.map_cons, List.foldl_cons, hstep, idle_report h.1 hlt, ih (Report.size_lt h.1 hlt) h.2]
    simp [Bool.or_assoc]

/-- A line of an `EXAMINE` that reports no number of messages. -/
theorem Counters.examine_other {k : Counters} (h : ∀ n, o ≠ some (n, existsToken)) :
    ∃ uidNext, k.examine o = { k with uidNext := uidNext } := by
  cases o with
  | none => exact ⟨k.uidNext, rfl⟩
  | some r =>
    obtain ⟨count, token⟩ := r
    have hne : token ≠ existsToken := fun e => h count (e ▸ rfl)
    simp only [examine, if_neg hne]
    split
    · exact ⟨count, rfl⟩
    · exact ⟨k.uidNext, rfl⟩

theorem Counters.hear_examine {k : Counters} {lines : List GoString}
    (hexamine : getNameFromCommand command = GoString.lit "EXAMINE")
    (h : ∀ line ∈ lines, ∀ n, parseEXAMINEResponse line ≠ some (n, existsToken)) :
    ∃ uidNext, (lines.map (News.read command)).foldl hear k = { k with uidNext := uidNext } := by
  induction lines generalizing k with
  | nil => exact ⟨k.uidNext, rfl⟩
  | cons line lines ih =>
    have hne : getNameFromCommand command ≠ GoString.lit "IDLE" := by
      rw [hexamine]
      decide
    have hstep : k.hear (.read command line) = k.examine (parseEXAMINEResponse line) := by
      simp only [hear, if_neg hne, if_pos hexamine]
    rw [List.map_cons, List.foldl_cons, hstep]
    obtain ⟨uidNext, hline⟩ : ∃ uidNext,
        k.examine (parseEXAMINEResponse line) = { k with uidNext := uidNext } :=
      examine_other (h line List.mem_cons_self)
    rw [hline]
    obtain ⟨uidNext', hrest⟩ := ih (k := { k with uidNext := uidNext }) fun line' hm =>
      h line' (List.mem_cons_of_mem line hm)
    exact ⟨uidNext', hrest⟩

/-! ## Whole runs -/

/-- What a run hears from an `EXAMINE` that reports a number of messages, and from the `IDLE` that
follows it. -/
def idleNews (examine idle num : GoString) (others : List GoString) (reports : List Report) :
    List News :=
  .read examine (untagged num existsToken) ::
    (others.map (.read examine) ++ reports.map fun r => .read idle r.line)

/-- In every run in which an `EXAMINE` reports `n` messages and the `IDLE` that follows delivers the
lines of a conforming server, the count is the size of the mailbox, an `EXPUNGE` never finds it at
zero, and the mark for new mail is set if and only if it was set before or an arrival has been
reported. -/
theorem idle_counts (hpre : Run (Caller.step (client env)) Free { mc := newIMAPClient env } pre s)
    (h : Run (Caller.step (client env)) Free s as s')
    (hexamine : getNameFromCommand examine = GoString.lit "EXAMINE")
    (hidle : getNameFromCommand idle = GoString.lit "IDLE") (hn : Counts num n)
    (hothers : ∀ line ∈ others, ∀ n, parseEXAMINEResponse line ≠ some (n, existsToken))
    (hreports : Conforms n reports)
    (hnews : Transition.observe (Caller.step (client env)) news s as =
      idleNews examine idle num others reports) :
    (Client.sh s'.mc).existsCount = reports.foldl Report.size n ∧
      (∀ i num, Conforms n (reports ++ [.expunged i num]) → 0 < (Client.sh s'.mc).existsCount) ∧
      ((Client.sh s'.mc).hasNewEmail ↔
        (Client.sh s.mc).hasNewEmail ∨ ∃ r ∈ reports, r.isArrival) := by
  have hsound : Sound s := hpre.inv (fun hs _ hstep => hs.step hstep) init_sound
  have hrun := counters_run hsound h
  have hne : getNameFromCommand examine ≠ GoString.lit "IDLE" := by
    rw [hexamine]
    decide
  have hfirst : (Client.sh s.mc).counters.hear (.read examine (untagged num existsToken)) =
      { (Client.sh s.mc).counters with existsCount := n } := by
    simp only [Counters.hear, if_neg hne, if_pos hexamine, parseEXAMINE_count hn, Counters.examine,
      if_true]
  rw [hnews, idleNews, List.foldl_cons, hfirst, List.foldl_append] at hrun
  obtain ⟨uidNext, hothers'⟩ := Counters.hear_examine
    (k := { (Client.sh s.mc).counters with existsCount := n }) hexamine hothers
  rw [hothers', Counters.hear_reports hn.2 hidle hreports] at hrun
  have hcount : (Client.sh s'.mc).existsCount = reports.foldl Report.size n :=
    congrArg Counters.existsCount hrun
  have hmark : (Client.sh s'.mc).hasNewEmail =
      ((Client.sh s.mc).hasNewEmail || reports.any Report.isArrival) :=
    congrArg Counters.hasNewEmail hrun
  refine ⟨hcount, fun i num' hc => ?_, ?_⟩
  · rw [hcount]
    obtain ⟨hpos, hle, -⟩ := hc.last
    exact Nat.lt_of_lt_of_le hpos hle
  · rw [hmark]
    simp

/-- The steps of `idleSteps` up to the first line of the `EXAMINE`. -/
def examineActs : List (CallerAct Label) :=
  .launch :: ((idleSteps 0 0 "PINGR1 OK" "PINGR2 OK").take 12).map .poll

/-- The rest of them, and a message is removed before another one arrives. -/
def expungeActs : List (CallerAct Label) :=
  List.flatten [((idleSteps 0 0 "PINGR1 OK" "PINGR2 OK").drop 12).map .poll,
    [Label.requestIo 0 .arm, .requestIo 0 (readLine "* 1 EXPUNGE"), .requestIo 0 .arm,
      .requestIo 0 (readLine "* 5 EXISTS")].map .poll]

/-- Where the first steps lead. -/
def examined : Caller (client idleEnv).State :=
  (exec (Caller.step (client idleEnv)) { mc := newIMAPClient idleEnv } examineActs).get rfl

/-- Five messages, then four, then five again: new mail. -/
theorem idle_counts_expunged :
    ∃ s' : Caller (client idleEnv).State,
      Run (Caller.step (client idleEnv)) Free { mc := newIMAPClient idleEnv } examineActs examined ∧
      Run (Caller.step (client idleEnv)) Free examined expungeActs s' ∧
      (Client.sh s'.mc).existsCount = 5 ∧ (Client.sh s'.mc).hasNewEmail := by
  have hpre : Run (Caller.step (client idleEnv)) Free { mc := newIMAPClient idleEnv } examineActs
      examined := Run.of_exec (Option.some_get _).symm
  have h : Run (Caller.step (client idleEnv)) Free examined expungeActs _ := Run.of_exec rfl
  have hone : Counts (GoString.lit "1") 1 := ⟨GoString.denotes_formatUint 1, by decide⟩
  have hfive : Counts (GoString.lit "5") 5 := ⟨GoString.denotes_formatUint 5, by decide⟩
  have hother : ∀ line ∈ [GoString.lit "PINGR2 OK"], ∀ n,
      parseEXAMINEResponse line ≠ some (n, existsToken) := by
    intro line hm n he
    cases List.mem_singleton.mp hm
    cases he
  have hc : Conforms 5 [.expunged 1 (GoString.lit "1"), .arrived 1 (GoString.lit "5")] :=
    ⟨⟨by decide, by decide, hone⟩, ⟨by decide, hfive⟩, trivial⟩
  have hnews : Transition.observe (Caller.step (client idleEnv)) news examined expungeActs =
      idleNews (GoString.lit "PINGR2 EXAMINE INBOX") (GoString.lit "PINGR3 IDLE")
        (GoString.lit "5") [GoString.lit "PINGR2 OK"]
        [.expunged 1 (GoString.lit "1"), .arrived 1 (GoString.lit "5")] := rfl
  obtain ⟨hcount, -, hmark⟩ := idle_counts hpre h (by decide) (by decide) hfive hother hc hnews
  exact ⟨_, hpre, h, hcount, hmark.mpr (.inr ⟨_, List.mem_cons_of_mem _ List.mem_cons_self, rfl⟩)⟩

/-- New mail arrives and the `IDLE` ends, but the request timer fires before the poll learns of it;
the poll starts over. -/
def startedOverActs : List (CallerAct Label) :=
  List.flatten [[.launch], (idleSteps 0 0 "PINGR1 OK" "PINGR2 OK").map .poll,
    ((mailSteps 0 0 "PINGR3 OK").take 5).map .poll, [.advance 600000000000],
    [Label.timer 0, .next 0, .io 0 (.write true), .io 0 .check, .io 0 .arm].map .poll]

def startedOver : Caller (client idleEnv).State :=
  (exec (Caller.step (client idleEnv)) { mc := newIMAPClient idleEnv } startedOverActs).get rfl

/-- The next `EXAMINE` and the next `IDLE`, which reports nothing. -/
def quietActs : List (CallerAct Label) :=
  [Label.io 0 (readLine "* 6 EXISTS"), .io 0 .arm, .io 0 (readLine "PINGR4 OK"), .spawn 0, .count 1,
    .begin 1, .requestIo 1 (.write true), .requestIo 1 .check].map .poll

/-- The mark that the first `IDLE` has set is still set during the second one, which reports no
arrival. -/
theorem mark_outlives_idle :
    ∃ s' : Caller (client idleEnv).State,
      Run (Caller.step (client idleEnv)) Free { mc := newIMAPClient idleEnv } startedOverActs
        startedOver ∧
      Run (Caller.step (client idleEnv)) Free startedOver quietActs s' ∧
      Transition.observe (Caller.step (client idleEnv)) news startedOver quietActs =
        idleNews (GoString.lit "PINGR4 EXAMINE INBOX") (GoString.lit "PINGR5 IDLE")
          (GoString.lit "6") [GoString.lit "PINGR4 OK"] [] ∧
      ¬((Client.sh s'.mc).hasNewEmail ↔ ∃ r ∈ ([] : List Report), r.isArrival) :=
  ⟨_, Run.of_exec (Option.some_get _).symm, Run.of_exec rfl, rfl,
    fun hiff => by simpa using hiff.mp rfl⟩

end Pinger.Imap

import Pinger.Imap.Serial
import Pinger.Imap.Counts
import Pinger.Web.Credentials
import Mathlib.Data.List.TakeWhile

/-! # Polling with STATUS

Without `IDLE` a `LongPoll` asks again and again for the next UID of its folder. The first answer is
its baseline, and it reports new mail in the first cycle whose answer differs from that. The list
that `parseSTATUSResponse` reads is the last one of the line, so a mailbox name may contain
anything. -/

namespace Pinger.Imap

open Transition

/-! ## Reading the line -/

def messagesWord : GoString := GoString.lit "MESSAGES "
def uidNextWord : GoString := GoString.lit " UIDNEXT "

/-- The list `MESSAGES m UIDNEXT u`. -/
def statusList (messages uidNext : GoString) : GoString :=
  messagesWord ++ (messages ++ (uidNextWord ++ uidNext))

/-- The text contains such a list. -/
def HasList (s : GoString) : Prop :=
  ∃ pre messages uidNext post, messages ≠ [] ∧ uidNext ≠ [] ∧
    (∀ c ∈ messages, GoString.isDigit c) ∧ (∀ c ∈ uidNext, GoString.isDigit c) ∧
    s = pre ++ (statusList messages uidNext ++ post)

theorem after_append (pre s : GoString) : after pre (pre ++ s) = some s := by
  simp [after, List.isPrefixOf_iff_prefix]

theorem after_eq_some (h : after pre s = some t) : s = pre ++ t := by
  unfold after at h
  split at h
  next hpre =>
    obtain ⟨t', rfl⟩ := List.isPrefixOf_iff_prefix.mp hpre
    rw [List.drop_left] at h
    rw [Option.some.inj h]
  next => cases h

theorem matchStatus_eq (s : GoString) : matchStatus s =
    (after messagesWord s).bind fun s =>
      (after uidNextWord (s.dropWhile GoString.isDigit)).bind fun t =>
      if s.takeWhile GoString.isDigit = [] ∨ t.takeWhile GoString.isDigit = [] then none
      else some (s.takeWhile GoString.isDigit, t.takeWhile GoString.isDigit) := rfl

theorem uidNextWord_not_digit :
    (uidNextWord ++ s).takeWhile GoString.isDigit = [] ∧
      (uidNextWord ++ s).dropWhile GoString.isDigit = uidNextWord ++ s := ⟨rfl, rfl⟩

theorem matchStatus_statusList (hm : messages ≠ []) (hu : uidNext ≠ [])
    (hmd : ∀ c ∈ messages, GoString.isDigit c) (hud : ∀ c ∈ uidNext, GoString.isDigit c)
    (post : GoString) : matchStatus (statusList messages uidNext ++ post) =
      some (messages, uidNext ++ post.takeWhile GoString.isDigit) := by
  have hs : statusList messages uidNext ++ post =
      messagesWord ++ (messages ++ (uidNextWord ++ (uidNext ++ post))) := by
    simp only [statusList, List.append_assoc]
  have htake : (messages ++ (uidNextWord ++ (uidNext ++ post))).takeWhile GoString.isDigit =
      messages := by
    rw [List.takeWhile_append_of_pos hmd, uidNextWord_not_digit.1, List.append_nil]
  have hdrop : (messages ++ (uidNextWord ++ (uidNext ++ post))).dropWhile GoString.isDigit =
      uidNextWord ++ (uidNext ++ post) := by
    rw [List.dropWhile_append_of_pos hmd, uidNextWord_not_digit.2]
  have hne : ¬(messages = [] ∨ uidNext ++ post.takeWhile GoString.isDigit = []) := by
    simp [hm, hu]
  rw [hs, matchStatus_eq, after_append, Option.bind_some, hdrop, after_append, Option.bind_some,
    htake, List.takeWhile_append_of_pos hud, if_neg hne]

theorem matchStatus_eq_some (h : matchStatus s = some r) : HasList s := by
  rw [matchStatus_eq] at h
  obtain ⟨s₁, h₁, h⟩ := Option.bind_eq_some_iff.mp h
  obtain ⟨s₂, h₂, h⟩ := Option.bind_eq_some_iff.mp h
  split at h
  next => cases h
  next hne =>
    obtain ⟨hm, hu⟩ := not_or.mp hne
    refine ⟨[], _, _, s₂.dropWhile GoString.isDigit, hm, hu, fun c => List.mem_takeWhile_imp,
      fun c => List.mem_takeWhile_imp, ?_⟩
    have hs₂ : uidNextWord ++ s₂ = s₁.dropWhile GoString.isDigit := (after_eq_some h₂).symm
    rw [List.nil_append, statusList]
    simp only [List.append_assoc, List.takeWhile_append_dropWhile]
    rw [hs₂, List.takeWhile_append_dropWhile]
    exact after_eq_some h₁

theorem HasList.cons (h : HasList s) (c : Char) : HasList (c :: s) := by
  obtain ⟨pre, messages, uidNext, post, hm, hu, hmd, hud, rfl⟩ := h
  exact ⟨c :: pre, messages, uidNext, post, hm, hu, hmd, hud, rfl⟩

theorem findStatus_cons (c : Char) (s : GoString) :
    findStatus (c :: s) = (findStatus s).or (matchStatus (c :: s)) := rfl

theorem statusList_cons (messages uidNext : GoString) : statusList messages uidNext =
    'M' :: (messagesWord.tail ++ (messages ++ (uidNextWord ++ uidNext))) := rfl

theorem findStatus_append (h : findStatus s = some r) (pre : GoString) :
    findStatus (pre ++ s) = some r := by
  induction pre with
  | nil => exact h
  | cons c pre ih => rw [List.cons_append, findStatus_cons, ih, Option.some_or]

theorem findStatus_isSome : (findStatus s).isSome ↔ HasList s := by
  constructor
  · intro h
    induction s with
    | nil => cases h
    | cons c s ih =>
      rw [findStatus_cons, Option.isSome_or, Bool.or_eq_true] at h
      rcases h with h | h
      · exact (ih h).cons c
      · obtain ⟨r, hr⟩ := Option.isSome_iff_exists.mp h
        exact matchStatus_eq_some hr
  · rintro ⟨pre, messages, uidNext, post, hm, hu, hmd, hud, rfl⟩
    have hmatch := matchStatus_statusList hm hu hmd hud post
    have hfind : (findStatus (statusList messages uidNext ++ post)).isSome := by
      rw [statusList_cons, List.cons_append] at hmatch ⊢
      rw [findStatus_cons, hmatch, Option.isSome_or, Option.isSome_some, Bool.or_true]
    obtain ⟨r, hr⟩ := Option.isSome_iff_exists.mp hfind
    rw [findStatus_append hr]
    rfl

instance (s : GoString) : Decidable (HasList s) := decidable_of_iff _ findStatus_isSome

/-- A list begins with an `M`. -/
theorem findStatus_of_not_mem (h : 'M' ∉ s) : findStatus s = none := by
  rw [← Option.not_isSome_iff_eq_none, findStatus_isSome]
  rintro ⟨pre, messages, uidNext, post, -, -, -, -, rfl⟩
  refine h (List.mem_append_right _ (List.mem_append_left _ ?_))
  exact List.mem_append_left _ (by decide)

/-! ## What the server answers -/

/-- The answer of the server to a `STATUS`: an untagged line with the name of the mailbox and two
numerals, and a completion with any text after its `OK`. -/
structure Answer where
  name : GoString
  messages : GoString
  uidNext : GoString
  text : GoString
  m : Nat
  u : Nat
  name_line : '\n' ∉ name
  messages_counts : Counts messages m
  uidNext_counts : Counts uidNext u
  u_pos : 0 < u
  text_token : text = [] ∨ ∃ t, text = ' ' :: t

namespace Answer

/-- The line `* STATUS name (MESSAGES m UIDNEXT u)`. -/
def line (a : Answer) : GoString :=
  '*' :: (GoString.lit " STATUS " ++
    (a.name ++ (GoString.lit " (" ++ (statusList a.messages a.uidNext ++ [')']))))

def completion (a : Answer) (tag : GoString) : GoString := tag ++ ' ' :: (GoString.lit "OK" ++ a.text)

theorem digit_ne_M (h : GoString.isDigit c) : c ≠ 'M' := by
  rintro rfl
  cases h

theorem findStatus_list (a : Answer) :
    findStatus (statusList a.messages a.uidNext ++ [')']) = some (a.messages, a.uidNext) := by
  obtain ⟨⟨hm, hmd, -⟩, -⟩ := a.messages_counts
  obtain ⟨⟨hu, hud, -⟩, -⟩ := a.uidNext_counts
  have hend : [')'].takeWhile GoString.isDigit = [] := rfl
  have hmatch := matchStatus_statusList hm hu hmd hud [')']
  rw [hend, List.append_nil] at hmatch
  rw [statusList_cons, List.cons_append] at hmatch ⊢
  rw [findStatus_cons, hmatch, findStatus_of_not_mem, Option.none_or]
  · have hword : 'M' ∉ messagesWord.tail := by decide
    have hword' : 'M' ∉ uidNextWord := by decide
    simp only [List.mem_append, hword, hword', List.mem_singleton, not_or, not_false_eq_true, true_and]
    exact ⟨⟨fun hc => digit_ne_M (hmd _ hc) rfl, fun hc => digit_ne_M (hud _ hc) rfl⟩, by decide⟩

/-- The parser reads the list at the end of the line, whatever the name of the mailbox is. -/
theorem parse_line (a : Answer) : parseSTATUSResponse a.line = (a.m, a.u) := by
  have hline : a.line = ('*' :: (GoString.lit " STATUS " ++ (a.name ++ GoString.lit " ("))) ++
      (statusList a.messages a.uidNext ++ [')']) := by
    simp only [line, List.append_assoc, List.cons_append]
  have hfind : findStatus a.line = some (a.messages, a.uidNext) := by
    rw [hline]
    exact findStatus_append a.findStatus_list _
  rw [parseSTATUSResponse, hfind]
  simp only [parseCount_of_counts a.messages_counts, parseCount_of_counts a.uidNext_counts,
    Option.getD_some]

end Answer

theorem parseSTATUS_of_not_hasList (h : ¬HasList s) : parseSTATUSResponse s = (0, 0) := by
  have hnone : findStatus s = none := by
    rw [← Option.not_isSome_iff_eq_none, findStatus_isSome]
    exact h
  rw [parseSTATUSResponse, hnone]

/-! ## The commands of the poll -/

/-- A registration that the web server accepts, for a server without `IDLE`, with a tag as
`genNewCmdTag` makes it. -/
structure StatusPoll (env : Env) : Prop where
  noIdle : env.pi.imapSupportsIdle = false
  folder : '\n' ∉ env.pi.imapFolderName
  blob : Web.isValidIMAPAuthenticationBlob env.pi.imapAuthenticationBlob
  tagId : ∀ c ∈ env.tagId, GoString.isAlnum c

/-- A tag of a command. -/
def IsTag (tag : GoString) : Prop := tag ≠ [] ∧ ∀ c ∈ tag, GoString.isAlnum c

theorem IsTag.not_mem (h : IsTag tag) (hc : GoString.isAlnum c = false) : c ∉ tag := by
  intro hm
  rw [h.2 c hm] at hc
  cases hc

theorem isTag_nextTag {sh : Shared} (h : ∀ c ∈ sh.tag.id, GoString.isAlnum c) :
    IsTag sh.nextTag.1 := by
  obtain ⟨hne, hdigit, -⟩ := GoString.denotes_formatUint (sh.tag.seq + 1)
  refine ⟨List.append_ne_nil_of_right_ne_nil _ hne, fun c hc => ?_⟩
  rcases List.mem_append.mp hc with hc | hc
  · exact h c hc
  · simp [GoString.isAlnum, hdigit c hc]

theorem split_command (h : IsTag tag) (s : GoString) :
    GoString.split ' ' (tag ++ ' ' :: s) = tag :: GoString.split ' ' s :=
  GoString.split_first (h.not_mem rfl) s

/-- A command whose responses are not looked at. -/
structure Neutral (command : GoString) : Prop where
  ne_idle : getNameFromCommand command ≠ GoString.lit "IDLE"
  ne_examine : getNameFromCommand command ≠ GoString.lit "EXAMINE"
  ne_status : getNameFromCommand command ≠ GoString.lit "STATUS"

theorem Neutral.hear (h : Neutral command) (k : Counters) (line : GoString) :
    k.hear (.read command line) = k := by
  simp only [Counters.hear, if_neg h.ne_idle, if_neg h.ne_examine, if_neg h.ne_status]

theorem neutral_of_head {c : Char} (h : (getNameFromCommand command).head? = some c)
    (hc : c = 'L' ∨ c = 'A') : Neutral command := by
  have hne : ∀ name : GoString, name.head? ≠ some c → getNameFromCommand command ≠ name := by
    rintro name hname rfl
    exact hname h
  constructor
  all_goals
    apply hne
    rcases hc with rfl | rfl <;> decide

/-- The command that logs in is an authentication command. -/
theorem neutral_auth (h : Web.isValidIMAPAuthenticationBlob blob)
    (hblob : GoString.base64Decode blob = some decodedBlob) (htag : IsTag tag) :
    Neutral (tag ++ GoString.lit " " ++ decodedBlob) := by
  obtain ⟨c, t, rfl, hc⟩ := Web.head_of_isValidIMAPAuthenticationBlob h hblob
  obtain ⟨part, parts, hsplit⟩ := List.exists_cons_of_ne_nil (GoString.split_ne_nil ' ' t)
  have hname : getNameFromCommand (tag ++ GoString.lit " " ++ c :: t) = c :: part := by
    have hne : c ≠ ' ' := by rcases hc with rfl | rfl <;> decide
    rw [getNameFromCommand, List.append_assoc]
    show ((GoString.split ' ' (tag ++ ' ' :: c :: t))[1]?).getD [] = _
    rw [split_command htag, GoString.split_cons hne hsplit]
    rfl
  exact neutral_of_head (by rw [hname, List.head?_cons]) hc

theorem neutral_again : Neutral (GoString.lit " ") := by
  constructor <;> decide

section
variable {env : Env}

/-- A `STATUS` as the poll writes it. -/
def IsStatus (env : Env) (command : GoString) : Prop :=
  ∃ tag, IsTag tag ∧ command = requestCommand env tag

theorem requestCommand_eq (he : StatusPoll env) (tag : GoString) : requestCommand env tag =
    tag ++ ' ' :: (GoString.lit "STATUS" ++ ' ' ::
      (env.pi.imapFolderName ++ GoString.lit " (MESSAGES UIDNEXT)")) := by
  simp only [requestCommand, he.noIdle, Bool.false_eq_true, if_false, List.append_assoc]
  rfl

theorem split_status (he : StatusPoll env) (htag : IsTag tag) :
    ∃ parts, GoString.split ' ' (requestCommand env tag) = tag :: GoString.lit "STATUS" :: parts := by
  rw [requestCommand_eq he, split_command htag, GoString.split_first (by decide)]
  exact ⟨_, rfl⟩

theorem IsStatus.name (he : StatusPoll env) (h : IsStatus env command) :
    getNameFromCommand command = GoString.lit "STATUS" := by
  obtain ⟨tag, htag, rfl⟩ := h
  obtain ⟨parts, hsplit⟩ := split_status he htag
  rw [getNameFromCommand, hsplit]
  rfl

theorem status_ne_idle : GoString.lit "STATUS" ≠ GoString.lit "IDLE" := by decide
theorem status_ne_examine : GoString.lit "STATUS" ≠ GoString.lit "EXAMINE" := by decide

theorem IsStatus.ne_idle (he : StatusPoll env) (h : IsStatus env command) :
    getNameFromCommand command ≠ GoString.lit "IDLE" := by
  rw [h.name he]
  exact status_ne_idle

theorem IsStatus.ne_examine (he : StatusPoll env) (h : IsStatus env command) :
    getNameFromCommand command ≠ GoString.lit "EXAMINE" := by
  rw [h.name he]
  exact status_ne_examine

theorem IsStatus.process (he : StatusPoll env) (h : IsStatus env command) (sh : Shared)
    (o : Option Nat) (response : GoString) : processResponse sh o command response =
      (processSTATUS sh (parseSTATUSResponse response).2, true) := by
  simp only [processResponse, if_neg (h.ne_idle he), if_neg (h.ne_examine he), if_pos (h.name he)]

theorem IsStatus.hear (he : StatusPoll env) (h : IsStatus env command) (k : Counters)
    (line : GoString) : k.hear (.read command line) = k.status (parseSTATUSResponse line).2 := by
  simp only [Counters.hear, if_neg (h.ne_idle he), if_neg (h.ne_examine he), if_pos (h.name he)]

/-- The command is one line. -/
theorem IsStatus.lines (he : StatusPoll env) (h : IsStatus env command) :
    GoString.split '\n' command = [command] := by
  obtain ⟨tag, htag, rfl⟩ := h
  apply GoString.split_of_not_mem
  have hstatus : '\n' ∉ GoString.lit "STATUS" := by decide
  have hquery : '\n' ∉ GoString.lit " (MESSAGES UIDNEXT)" := by decide
  have hspace : '\n' ≠ ' ' := by decide
  rw [requestCommand_eq he]
  simp only [List.mem_append, List.mem_cons, hstatus, hquery, hspace, he.folder,
    htag.not_mem (c := '\n') rfl, or_self, not_false_eq_true]

/-- The tag of a command: its first token. -/
def Cmd.tag (cmd : Cmd) : GoString := (GoString.split ' ' cmd.command).headD []

theorem IsStatus.tag (he : StatusPoll env) {cmd : Cmd} (h : IsStatus env cmd.command) :
    IsTag cmd.tag := by
  obtain ⟨tag, htag, hcmd⟩ := h
  obtain ⟨parts, hsplit⟩ := split_status he htag
  rw [Cmd.tag, hcmd, hsplit, List.headD_cons]
  exact htag

theorem Answer.line_not_final (he : StatusPoll env) (a : Answer) (h : IsStatus env command) :
    isFinalResponse command a.line = false := by
  obtain ⟨tag, htag, rfl⟩ := h
  obtain ⟨parts, hsplit⟩ := split_status he htag
  have hcont : (GoString.lit "+ ").isPrefixOf a.line = false := rfl
  have hnum : tag.isPrefixOf a.line = false := by
    obtain ⟨c, t, rfl⟩ := List.exists_cons_of_ne_nil htag.1
    have hstar : c ≠ '*' := fun e => htag.not_mem (c := '*') rfl (e ▸ List.mem_cons_self)
    rw [Answer.line, List.isPrefixOf_cons_cons, beq_eq_false_iff_ne.mpr hstar, Bool.false_and]
  rw [isFinalResponse, hcont, hsplit, List.headD_cons, hnum]
  rfl

theorem Answer.completion_final (a : Answer) (cmd : Cmd) :
    isFinalResponse cmd.command (a.completion cmd.tag) = true := by
  rw [isFinalResponse, Bool.or_eq_true]
  exact .inr (List.isPrefixOf_iff_prefix.mpr (List.prefix_append _ _))

theorem Answer.completion_ok (a : Answer) (htag : IsTag tag) : isOKResponse (a.completion tag) := by
  have hok : (GoString.split ' ' (GoString.lit "OK" ++ a.text))[0]? = some (GoString.lit "OK") := by
    rcases a.text_token with ht | ⟨t, ht⟩
    · rw [ht, List.append_nil, GoString.split_of_not_mem (by decide)]
      rfl
    · rw [ht, GoString.split_first (by decide)]
      rfl
  rw [isOKResponse, Answer.completion, split_command htag, List.getElem?_cons_succ, hok]
  exact decide_eq_true rfl

/-! ## One cycle -/

variable {answers : Nat → Answer} {sh sh' : Shared}

/-- `n` cycles are through, and the client knows the next UID of the first one. -/
structure Baseline (env : Env) (answers : Nat → Answer) (n : Nat) (sh : Shared) : Prop where
  cancelled : sh.cancelled = false
  tagId : sh.tag.id = env.tagId
  unmarked : sh.hasNewEmail = false
  known : sh.uidNext = if n = 0 then 0 else (answers 0).u

/-- The line of cycle `n` has been read. -/
structure Noted (env : Env) (answers : Nat → Answer) (n : Nat) (sh : Shared) : Prop where
  cancelled : sh.cancelled = false
  tagId : sh.tag.id = env.tagId
  mark : sh.hasNewEmail = decide ((answers n).u ≠ (answers 0).u)
  known : sh.uidNext = (answers n).u

theorem Baseline.same (h : Baseline env answers n sh) (hconn : SameConn sh sh')
    (hk : sh'.counters = sh.counters) : Baseline env answers n sh' where
  cancelled := hconn.cancelled.trans h.cancelled
  tagId := (congrArg CmdTag.id hconn.tag).trans h.tagId
  unmarked := (congrArg Counters.hasNewEmail hk).trans h.unmarked
  known := (congrArg Counters.uidNext hk).trans h.known

theorem Noted.same (h : Noted env answers n sh) (hconn : SameConn sh sh')
    (hk : sh'.counters = sh.counters) : Noted env answers n sh' where
  cancelled := hconn.cancelled.trans h.cancelled
  tagId := (congrArg CmdTag.id hconn.tag).trans h.tagId
  mark := (congrArg Counters.hasNewEmail hk).trans h.mark
  known := (congrArg Counters.uidNext hk).trans h.known

/-- The first line is the baseline, and a later one is compared with it. -/
theorem Baseline.note (h : Baseline env answers n sh) (hconn : SameConn sh sh')
    (hk : sh'.counters = sh.counters.status (answers n).u) : Noted env answers n sh' := by
  have hpos := (answers n).u_pos
  have hpos₀ := (answers 0).u_pos
  have hmark : sh.counters.hasNewEmail = false := h.unmarked
  have hknown : sh.counters.uidNext = if n = 0 then 0 else (answers 0).u := h.known
  suffices hnoted : (sh.counters.status (answers n).u).hasNewEmail =
      decide ((answers n).u ≠ (answers 0).u) ∧
      (sh.counters.status (answers n).u).uidNext = (answers n).u by
    rw [← hk] at hnoted
    exact ⟨hconn.cancelled.trans h.cancelled, (congrArg CmdTag.id hconn.tag).trans h.tagId,
      hnoted.1, hnoted.2⟩
  rw [Counters.status, if_neg (Nat.ne_of_gt hpos), hknown]
  by_cases hn : n = 0
  · subst hn
    simp [hmark]
  · rw [if_neg hn, if_neg (Nat.ne_of_gt hpos₀)]
    by_cases hu : (answers n).u = (answers 0).u
    · simp [hu, hmark, hknown, hn]
    · simp [hu]

/-- The cycle ends without new mail. -/
theorem Noted.next (h : Noted env answers n sh) (hm : sh.hasNewEmail = false) :
    (answers n).u = (answers 0).u ∧ Baseline env answers (n + 1) sh := by
  have hu : (answers n).u = (answers 0).u := by simpa [hm] using h.mark
  refine ⟨hu, h.cancelled, h.tagId, hm, ?_⟩
  rw [if_neg (Nat.succ_ne_zero n), h.known, hu]

/-- The next line of the answer to a command, which is the completion after the first one. The
completion contains no list. -/
def Answer.Sends (a : Answer) (cmd : Cmd) (response : GoString) : Prop :=
  if cmd.responses = [] then response = a.line
  else response = a.completion cmd.tag ∧ ¬HasList response

instance (a : Answer) (cmd : Cmd) (response : GoString) : Decidable (a.Sends cmd response) :=
  inferInstanceAs (Decidable (if cmd.responses = [] then response = a.line
    else response = a.completion cmd.tag ∧ ¬HasList response))

/-- Where request `n` is while it is answered. -/
def Cycle (env : Env) (answers : Nat → Answer) (n : Nat) (sh : Shared) : Request → Prop
  | .spawned command | .counted command => IsStatus env command ∧ Baseline env answers n sh
  | .running cmd => IsStatus env cmd.command ∧ cmd.lines = [cmd.command] ∧
      (cmd.responses = [] ∧ Baseline env answers n sh ∨ cmd.responses ≠ [] ∧ Noted env answers n sh)
  | .done | .sendResp => Noted env answers n sh
  | _ => True

/-- Where the request is after an operation of its command. -/
def CycleOut (env : Env) (answers : Nat → Answer) (n : Nat) (sh : Shared) : CmdOut → Prop
  | .going cmd => Cycle env answers n sh (.running cmd)
  | .ok _ => Noted env answers n sh
  | _ => True

/-- An operation that reads no line only goes to the next phase, or ends the command. -/
theorem Cmd.step_quiet {cmd : Cmd} (h : cmd.step sh o e = some (sh', out)) (hq : cmd.heard e = []) :
    (∃ phase, out = .going { cmd with phase := phase }) ∨ (∃ t, out = .failed t) ∨
      out = .panicked := by
  cases Cmd.step_cases h with
  | sent | checked | armed | again => exact .inl ⟨_, rfl⟩
  | writeErr | cancelled | readErr => exact .inr (.inl ⟨_, rfl⟩)
  | sendPanic | armPanic => exact .inr (.inr rfl)
  | line | linePanic => cases hq

theorem Cmd.phase_of_read {cmd : Cmd} (h : cmd.step sh o (.read r) = some (sh', out)) :
    ∃ tries, cmd.phase = .read tries := by
  cases Cmd.step_cases h with
  | readErr hp | again hp | line hp | linePanic hp => exact ⟨_, hp⟩

/-- A line of a `STATUS` is processed, and ends the command or not. -/
theorem Cmd.step_status (he : StatusPoll env) {cmd : Cmd} (hcmd : IsStatus env cmd.command)
    (hp : cmd.phase = .read tries) : cmd.step sh o (.read (.line response)) =
      some (cmd.respond (processSTATUS sh (parseSTATUSResponse response).2) response) := by
  simp only [Cmd.step, hp, getServerResponse, hcmd.process he]

theorem Answer.respond_line (he : StatusPoll env) (a : Answer) {cmd : Cmd}
    (hcmd : IsStatus env cmd.command) : cmd.respond sh a.line =
      (sh, .going { cmd with responses := cmd.responses ++ [a.line], phase := .arm }) := by
  rw [Cmd.respond_eq, a.line_not_final he hcmd]
  rfl

theorem Answer.respond_completion (he : StatusPoll env) (a : Answer) {cmd : Cmd}
    (hcmd : IsStatus env cmd.command) (hlines : cmd.lines = [cmd.command]) :
    cmd.respond sh (a.completion cmd.tag) =
      (sh, .ok (cmd.responses ++ [a.completion cmd.tag])) := by
  rw [Cmd.respond_eq, if_pos (a.completion_final cmd), if_pos (.inl (a.completion_ok (hcmd.tag he))),
    hlines, Cmd.ended, if_neg (hcmd.ne_idle he)]
  rfl

/-- What the lines of its answer do to a request. -/
theorem Cmd.step_cycle (he : StatusPoll env) {cmd : Cmd} (h : Cycle env answers n sh (.running cmd))
    (hs : cmd.step sh o e = some (sh', out))
    (hsends : ∀ response, e = .read (.line response) → (answers n).Sends cmd response) :
    CycleOut env answers n sh' out := by
  obtain ⟨hcmd, hlines, hstate⟩ := h
  have hconn := Cmd.step_sameConn hs
  have hk := Cmd.step_counters hs
  by_cases hq : cmd.heard e = []
  · rw [hq] at hk
    obtain ⟨phase, rfl⟩ | ⟨t, rfl⟩ | rfl := Cmd.step_quiet hs hq
    · refine ⟨hcmd, hlines, ?_⟩
      rcases hstate with ⟨hr, hb⟩ | ⟨hr, hn⟩
      · exact .inl ⟨hr, hb.same hconn hk⟩
      · exact .inr ⟨hr, hn.same hconn hk⟩
    · trivial
    · trivial
  · obtain ⟨response, rfl⟩ : ∃ response, e = .read (.line response) := by
      unfold Cmd.heard at hq
      split at hq
      · exact ⟨_, rfl⟩
      · exact absurd rfl hq
    have hsend := hsends response rfl
    obtain ⟨tries, hp⟩ := Cmd.phase_of_read hs
    rw [Cmd.step_status he hcmd hp] at hs
    rcases hstate with ⟨hr, hb⟩ | ⟨hr, hn⟩
    · rw [Answer.Sends, if_pos hr] at hsend
      subst hsend
      rw [(answers n).respond_line he hcmd] at hs
      obtain ⟨-, rfl⟩ := Prod.mk.inj (Option.some.inj hs)
      refine ⟨hcmd, hlines, .inr ⟨by simp, hb.note hconn ?_⟩⟩
      rw [hk, Cmd.heard, List.foldl_cons, List.foldl_nil, hcmd.hear he, (answers n).parse_line]
    · rw [Answer.Sends, if_neg hr] at hsend
      obtain ⟨rfl, hlist⟩ := hsend
      rw [(answers n).respond_completion he hcmd hlines] at hs
      obtain ⟨-, rfl⟩ := Prod.mk.inj (Option.some.inj hs)
      refine hn.same hconn ?_
      rw [hk, Cmd.heard, List.foldl_cons, List.foldl_nil, hcmd.hear he,
        parseSTATUS_of_not_hasList hlist]
      rfl

/-! ## The poll between its cycles -/

/-- The poll is connecting, logging in, or about to make its next request. -/
def Poll.Calm : Poll → Prop
  | .loop _ | .dial | .greeting _ | .request => True
  | .auth cmd | .authAgain _ cmd => Neutral cmd.command
  | _ => False

/-- Where such a poll is after an operation on the connection. -/
def CalmNext (env : Env) (answers : Nat → Answer) (n : Nat) (sh : Shared) (p : Poll) : Prop :=
  p.Calm ∧ Baseline env answers n sh ∨ p = .sending .reRegister ∨ p = .stopping

theorem Baseline.seq (h : Baseline env answers n sh) (seq : Nat) :
    Baseline env answers n { sh with tag := { sh.tag with seq := seq } } :=
  ⟨h.cancelled, h.tagId, h.unmarked, h.known⟩

theorem ready_status (he : StatusPoll env) (sh : Shared) : ready env sh = (sh, .request) := by
  simp only [ready, he.noIdle, Bool.false_eq_true, if_false]

theorem Baseline.isTag (he : StatusPoll env) (h : Baseline env answers n sh) :
    IsTag sh.nextTag.1 := by
  apply isTag_nextTag
  rw [h.tagId]
  exact he.tagId

theorem doImapAuth_calm (he : StatusPoll env) (h : Baseline env answers n sh) :
    CalmNext env answers n (doImapAuth env sh).1 (doImapAuth env sh).2 := by
  unfold doImapAuth
  split
  next => exact .inr (.inl rfl)
  next decodedBlob hblob => exact .inl ⟨neutral_auth he.blob hblob (h.isTag he), h.seq _⟩

theorem greet_calm (he : StatusPoll env) (h : Baseline env answers n sh)
    (hs : greet env sh phase e = some (sh', p)) : CalmNext env answers n sh' p := by
  unfold greet at hs
  split at hs
  next =>
    cases hs
    split
    · exact .inl ⟨trivial, h⟩
    · exact .inr (.inr rfl)
  next =>
    split at hs
    · cases hs
      exact .inr (.inl rfl)
    · cases hs
      exact .inl ⟨trivial, h⟩
    · split at hs
      · have hauth := doImapAuth_calm he h
        rw [Option.some.inj hs] at hauth
        exact hauth
      · cases hs
        exact .inr (.inl rfl)
  next => cases hs

theorem authenticated_calm (he : StatusPoll env) (h : Baseline env answers n sh)
    (responses : List GoString) : CalmNext env answers n (authenticated env sh responses).1
      (authenticated env sh responses).2 := by
  simp only [authenticated, ready_status he]
  split
  · exact .inl ⟨neutral_again, h⟩
  · split
    · exact .inl ⟨trivial, h⟩
    · exact .inr (.inl rfl)

theorem Cmd.step_command {cmd cmd' : Cmd} (h : cmd.step sh o e = some (sh', .going cmd')) :
    cmd'.command = cmd.command := by
  cases Cmd.step_cases h with
  | sent | checked | armed | again => rfl
  | line _ _ hr => cases hr <;> rfl

/-- Nothing that an authentication command reads changes the baseline. -/
theorem Baseline.neutral {cmd : Cmd} (h : Baseline env answers n sh) (hcmd : Neutral cmd.command)
    (hs : cmd.step sh o e = some (sh', out)) : Baseline env answers n sh' := by
  refine h.same (Cmd.step_sameConn hs) ((Cmd.step_counters hs).trans ?_)
  unfold Cmd.heard
  split
  · exact hcmd.hear _ _
  · rfl

/-- An operation of the command that logs in. -/
theorem pollOut_calm (he : StatusPoll env) {cmd : Cmd}
    (hp : p = .auth cmd ∨ ∃ isOK, p = .authAgain isOK cmd) (hcmd : Neutral cmd.command)
    (h : Baseline env answers n sh) (hs : cmd.step sh o e = some (sh', out)) :
    CalmNext env answers n (pollOut env sh' p out).1 (pollOut env sh' p out).2 := by
  have h' := h.neutral hcmd hs
  have hgoing : ∀ cmd', out = .going cmd' → Neutral cmd'.command := by
    rintro cmd' rfl
    rw [Cmd.step_command hs]
    exact hcmd
  rcases hp with rfl | ⟨isOK, rfl⟩
  · cases out with
    | going cmd' => exact .inl ⟨hgoing cmd' rfl, h'⟩
    | ok responses => exact authenticated_calm he h' responses
    | failed => exact .inr (.inl rfl)
    | panicked => exact .inr (.inr rfl)
  · cases out with
    | going cmd' => exact .inl ⟨hgoing cmd' rfl, h'⟩
    | ok | failed =>
      simp only [pollOut, ready_status he]
      split
      · exact .inl ⟨trivial, h'⟩
      · exact .inr (.inl rfl)
    | panicked => exact .inr (.inr rfl)

theorem pollIo_calm (he : StatusPoll env) (hp : p.Calm) (h : Baseline env answers n sh)
    (hs : pollIo env sh g p e = some (sh', p')) : CalmNext env answers n sh' p' := by
  cases p with
  | greeting phase => exact greet_calm he h hs
  | auth cmd =>
    obtain ⟨⟨sh₁, out⟩, hstep, heq⟩ := Option.map_eq_some_iff.mp hs
    have heq : pollOut env sh₁ (.auth cmd) out = (sh', p') := heq
    have hcalm := pollOut_calm he (.inl rfl) hp h hstep
    rw [heq] at hcalm
    exact hcalm
  | authAgain isOK cmd =>
    obtain ⟨⟨sh₁, out⟩, hstep, heq⟩ := Option.map_eq_some_iff.mp hs
    have heq : pollOut env sh₁ (.authAgain isOK cmd) out = (sh', p') := heq
    have hcalm := pollOut_calm he (.inr ⟨isOK, rfl⟩) hp h hstep
    rw [heq] at hcalm
    exact hcalm
  | examine => cases hp
  | _ => cases hs

/-! ## Whole polls -/

variable {sig : Signals} {c c' : Client}

/-- The goroutine of the request has not been started, or has returned. -/
def Request.through : Request → Bool
  | .absent | .exited => true
  | _ => false

/-- `n` requests have been made, and all are through. -/
structure Rested (n : Nat) (c : Client) : Prop where
  made : c.nrequests = n
  through : ∀ r, (c.requests r).through

/-- Where instance 0 is after `n` cycles, and what is known there. Once it has a result to send, or
is told to stop, nothing matters any more. -/
def Standing (env : Env) (answers : Nat → Answer) (n : Nat) (c : Client) : Poll → Prop
  | .absent | .launched =>
    n = 0 ∧ Baseline env answers n { c.sh with uidNext := 0 } ∧ Rested n c
  | .select r _ =>
    r = n ∧ c.nrequests = n + 1 ∧ Cycle env answers n c.sh (c.requests n) ∧
      ∀ r, r ≠ n → (c.requests r).through
  | .sending _ | .stopping | .returned => True
  | p => p.Calm ∧ Baseline env answers n c.sh ∧ Rested n c

theorem standing_of_calm (hp : p.Calm) (h : Baseline env answers n c.sh) (hr : Rested n c) :
    Standing env answers n c p := by
  cases p <;> first | exact ⟨hp, h, hr⟩ | cases hp

/-- New mail has been sent, or is offered. -/
def Sent (c : Client) : Prop := c.polls 0 = .sending .newMail ∨ PollResult.newMail ∈ c.results 0

/-- Instance 0 is alone and `n` of its cycles are through. -/
structure Cycling (env : Env) (answers : Nat → Answer) (n : Nat) (c : Client) : Prop where
  others : ∀ g, g ≠ 0 → c.polls g = .absent
  standing : Standing env answers n c (c.polls 0)
  unsent : (c.polls 0).working → c.results 0 = []
  sent_iff : Sent c ↔ ∃ i < n, (answers i).u ≠ (answers 0).u

namespace Cycling

/-- The instance that moves is instance 0. -/
theorem stands (h : Cycling env answers n c) (hp : c.polls g = p) (hne : p ≠ .absent) :
    g = 0 ∧ Standing env answers n c p := by
  have hg : g = 0 := by
    by_contra hg
    exact hne (hp ▸ h.others g hg)
  subst hg
  exact ⟨rfl, hp ▸ h.standing⟩

theorem talks (h : Cycling env answers n c) (ht : (c.polls 0).talks) :
    (c.polls 0).Calm ∧ Baseline env answers n c.sh ∧ Rested n c := by
  have hst := h.standing
  cases hp : c.polls 0 with
  | greeting | auth | authAgain | examine =>
    rw [hp] at hst
    exact hst
  | _ =>
    rw [hp] at ht
    cases ht

/-- While nothing is sent all cycles have had the same next UID. -/
theorem unchanged (h : Cycling env answers n c) (hold : ∀ v, c.polls 0 ≠ .sending v)
    (hw : (c.polls 0).working) : ¬∃ i < n, (answers i).u ≠ (answers 0).u := by
  rw [← h.sent_iff, Sent, h.unsent hw]
  simp [hold]

/-- Instance 0 moves within a cycle or between two. -/
theorem move (h : Cycling env answers n c) (hp₀ : c.polls 0 = p₀) (hold : ∀ v, p₀ ≠ .sending v)
    (hw : p.working → p₀.working) (hpolls : c'.polls = Function.update c.polls 0 p)
    (hres : c'.results = c.results) (hnew : p ≠ .sending .newMail)
    (hp : Standing env answers n c' p) : Cycling env answers n c' where
  others g hg := by
    rw [hpolls, Function.update_of_ne hg]
    exact h.others g hg
  standing := by
    rw [hpolls, Function.update_self]
    exact hp
  unsent := by
    rw [hpolls, Function.update_self, hres]
    exact fun hp => h.unsent (hp₀ ▸ hw hp)
  sent_iff := by
    rw [← h.sent_iff, Sent, hpolls, Function.update_self, hres, Sent, hp₀]
    simp [hnew, hold]

/-- The poll receives the responses of a cycle. -/
theorem complete (h : Cycling env answers n c) (hsel : c.polls 0 = .select r t)
    (hpolls : c'.polls = Function.update c.polls 0 p) (hres : c'.results = c.results)
    (hp : Standing env answers (n + 1) c' p)
    (hnew : p = .sending .newMail ↔ (answers n).u ≠ (answers 0).u) :
    Cycling env answers (n + 1) c' where
  others g hg := by
    rw [hpolls, Function.update_of_ne hg]
    exact h.others g hg
  standing := by
    rw [hpolls, Function.update_self]
    exact hp
  unsent _ := by
    rw [hres]
    exact h.unsent (by rw [hsel]; rfl)
  sent_iff := by
    have hw : (c.polls 0).working := by rw [hsel]; rfl
    have hsame := h.unchanged (by rw [hsel]; simp) hw
    rw [Sent, hpolls, Function.update_self, hres, h.unsent hw, hnew]
    constructor
    · rintro (hu | hmem)
      · exact ⟨n, Nat.lt_succ_self n, hu⟩
      · cases hmem
    · rintro ⟨i, hi, hu⟩
      rcases Nat.lt_succ_iff_lt_or_eq.mp hi with hlt | rfl
      · exact absurd ⟨i, hlt, hu⟩ hsame
      · exact .inl hu

/-- A request goroutine that is at work is that of the current cycle, unless the poll is through
with its requests. -/
theorem busy (h : Cycling env answers n c) (hr : (c.requests r).through = false) :
    (r = n ∧ (∃ t, c.polls 0 = .select n t) ∧ c.nrequests = n + 1 ∧
      Cycle env answers n c.sh (c.requests n) ∧ ∀ r, r ≠ n → (c.requests r).through) ∨
    ∀ c', Standing env answers n c' (c.polls 0) := by
  have hst := h.standing
  have hrested : ¬Rested n c := fun hrest => by
    rw [hrest.through r] at hr
    cases hr
  cases hp : c.polls 0 with
  | select r' t =>
    rw [hp] at hst
    obtain ⟨rfl, hn, hcycle, hthrough⟩ := hst
    refine .inl ⟨?_, ⟨t, rfl⟩, hn, hcycle, hthrough⟩
    by_contra hne
    rw [hthrough r hne] at hr
    cases hr
  | sending | stopping | returned => exact .inr fun _ => trivial
  | _ =>
    rw [hp] at hst
    exact absurd hst.2.2 hrested

/-- A request goroutine moves. -/
theorem request (h : Cycling env answers n c) (hr : (c.requests r).through = false)
    (hpolls : c'.polls = c.polls) (hres : c'.results = c.results)
    (hn : c'.nrequests = c.nrequests) (hreq : c'.requests = Function.update c.requests r q)
    (hq : r = n → Cycle env answers n c.sh (c.requests r) → Cycle env answers n c'.sh q) :
    Cycling env answers n c' where
  others g hg := by rw [hpolls, h.others g hg]
  standing := by
    rw [hpolls]
    rcases h.busy hr with ⟨rfl, ⟨t, hp⟩, hmade, hcycle, hthrough⟩ | hst
    · rw [hp]
      refine ⟨rfl, hn.trans hmade, ?_, fun r' hne => ?_⟩
      · rw [hreq, Function.update_self]
        exact hq rfl hcycle
      · rw [hreq, Function.update_of_ne hne]
        exact hthrough r' hne
    · exact hst c'
  unsent := by
    rw [hpolls, hres]
    exact h.unsent
  sent_iff := by
    rw [← h.sent_iff, Sent, hpolls, hres, Sent]

/-- An operation of the instance on the connection. -/
theorem talk (he : StatusPoll env) (h : Cycling env answers n c)
    (hio : pollIo env c.sh g (c.polls g) e = some (sh, p)) :
    Cycling env answers n ({ c with sh := sh }.setPoll g p) := by
  have ht := pollIo_talks hio
  obtain ⟨rfl, -⟩ := h.stands (g := g) rfl fun hp => by rw [hp] at ht; cases ht
  obtain ⟨hcalm, hb, hr⟩ := h.talks ht
  have hold : ∀ v, c.polls 0 ≠ .sending v := fun v hp => by rw [hp] at ht; cases ht
  have hw : (c.polls 0).working := Poll.working_of_goesOn (Poll.goesOn_of_talks ht)
  rcases pollIo_calm he hcalm hb hio with ⟨hp, hb'⟩ | rfl | rfl
  · exact h.move rfl hold (fun _ => hw) rfl rfl (fun e => by rw [e] at hp; cases hp)
      (standing_of_calm hp hb' ⟨hr.made, hr.through⟩)
  · exact h.move rfl hold (fun _ => hw) rfl rfl (by simp) trivial
  · exact h.move rfl hold (fun _ => hw) rfl rfl (by simp) trivial

/-- The request of a cycle is made. -/
theorem spawn (he : StatusPoll env) (h : Cycling env answers n c) (hp : c.polls g = .request)
    (t : Int) : Cycling env answers n { c.setPoll g (.select c.nrequests t) with
      sh := c.sh.nextTag.2
      requests := Function.update c.requests c.nrequests
        (.spawned (requestCommand env c.sh.nextTag.1))
      owner := Function.update c.owner c.nrequests g
      nrequests := c.nrequests + 1 } := by
  obtain ⟨rfl, -, hb, hr⟩ := h.stands hp (by simp)
  refine h.move hp (by simp) (fun _ => rfl) rfl rfl (by simp)
    ⟨hr.made, congrArg (· + 1) hr.made, ?_, fun r hne => ?_⟩
  · rw [hr.made]
    simp only [Function.update_self]
    exact ⟨⟨_, hb.isTag he, rfl⟩, hb.seq _⟩
  · rw [← hr.made] at hne
    simp only [Function.update_of_ne hne]
    exact hr.through r

/-- A cycle ends with new mail. -/
theorem newMail (h : Cycling env answers n c) (hp : c.polls g = .select r t)
    (hr : c.requests r = .sendResp) (hm : c.sh.hasNewEmail) :
    r = n ∧ Cycling env answers (n + 1)
      ({ c.exitRequest r with sh := { c.sh with hasNewEmail := false } }.setPoll g
        (.sending .newMail)) := by
  obtain ⟨rfl, rfl, -, hcycle, -⟩ := h.stands hp (by simp)
  rw [hr] at hcycle
  have hmark : true = decide _ := hm.symm.trans hcycle.mark
  exact ⟨rfl, h.complete hp rfl rfl trivial (by simpa using hmark)⟩

/-- A cycle ends without new mail. -/
theorem noMail (h : Cycling env answers n c) (hp : c.polls g = .select r t)
    (hr : c.requests r = .sendResp) (hm : c.sh.hasNewEmail = false) :
    r = n ∧ Cycling env answers (n + 1)
      ((c.exitRequest r).setPoll g (.loop pollingInterval)) := by
  obtain ⟨rfl, rfl, hn, hcycle, hthrough⟩ := h.stands hp (by simp)
  rw [hr] at hcycle
  obtain ⟨hu, hb⟩ := hcycle.next hm
  refine ⟨rfl, h.complete hp rfl rfl ⟨trivial, hb, hn, fun r' => ?_⟩ (by simp [hu])⟩
  show (Function.update c.requests r .exited r').through
  by_cases hr' : r' = r
  · rw [hr', Function.update_self]
    rfl
  · rw [Function.update_of_ne hr']
    exact hthrough r' hr'

/-- The request of a cycle reads its answer. -/
theorem requestIo (he : StatusPoll env) (h : Cycling env answers n c)
    (hr : c.requests r = .running cmd) (hio : cmd.step c.sh (some (c.owner r)) e = some (sh, out))
    (hreads : ∀ response, e = .read (.line response) → (answers r).Sends cmd response) :
    Cycling env answers n (requestOut { c with sh := sh } r out) := by
  have hthrough : (c.requests r).through = false := by rw [hr]; rfl
  have hout : r = n → Cycle env answers n c.sh (c.requests r) → CycleOut env answers n sh out := by
    rintro rfl hcycle
    rw [hr] at hcycle
    exact Cmd.step_cycle he hcycle hio hreads
  cases out with
  | going | ok => exact h.request hthrough rfl rfl rfl rfl hout
  | failed | panicked => exact h.request hthrough rfl rfl rfl rfl fun _ _ => trivial

end Cycling

/-- The line that a request reads is the next one of its answer. -/
def Request.Reads (a : Answer) (response : GoString) : Request → Prop
  | .running cmd => a.Sends cmd response
  | _ => True

/-- The request timer does not fire, and request `r` reads the answer `answers r`. -/
def Scripted (answers : Nat → Answer) (c : Client) : Label → Prop
  | .timer _ => False
  | .requestIo r (.read (.line response)) => (c.requests r).Reads (answers r) response
  | _ => True

/-- The cycle that ends with a step: a poll receives the responses of its request. -/
def cycles (c : Client) : Label → List Nat
  | .recv g =>
    match c.polls g with
    | .select r _ => if c.requests r = .sendResp then [r] else []
    | _ => []
  | _ => []

theorem cycles_recv (hp : c.polls g = .select r t) (hr : c.requests r = .sendResp) :
    cycles c (.recv g) = [r] := by
  simp only [cycles, hp, hr, if_true]

theorem cycles_error (hp : c.polls g = .select r t) (hr : c.requests r = .sendErr timeout) :
    cycles c (.recv g) = [] := by
  simp only [cycles, hp, hr]
  rfl

theorem Stepped.cycling (he : StatusPoll env) (h : Stepped env sig c l c')
    (hc : Scripted answers c l) (hinv : Cycling env answers n c) :
    cycles c l = [] ∧ Cycling env answers n c' ∨
      cycles c l = [n] ∧ Cycling env answers (n + 1) c' := by
  cases h with
  | timer => cases hc
  | alreadyIdling hp | dialErr hp =>
    obtain ⟨rfl, -⟩ := hinv.stands hp (by simp)
    exact .inl ⟨rfl, hinv.move hp (by simp) (fun _ => rfl) rfl rfl (by simp) trivial⟩
  | started hp =>
    obtain ⟨rfl, rfl, hb, hr⟩ := hinv.stands hp (by simp)
    exact .inl ⟨rfl, hinv.move hp (by simp) (fun _ => rfl) rfl rfl (by simp)
      ⟨trivial, hb, hr.made, hr.through⟩⟩
  | connected hp =>
    obtain ⟨rfl, -, hb, hr⟩ := hinv.stands hp (by simp)
    rw [ready_status he]
    exact .inl ⟨rfl, hinv.move hp (by simp) (fun _ => rfl) rfl rfl (by simp)
      ⟨trivial, hb, hr.made, hr.through⟩⟩
  | setupConn hp =>
    obtain ⟨rfl, -, hb, hr⟩ := hinv.stands hp (by simp)
    exact .inl ⟨rfl, hinv.move hp (by simp) (fun _ => rfl) rfl rfl (by simp)
      ⟨trivial, hb, hr.made, hr.through⟩⟩
  | dialled hp =>
    obtain ⟨rfl, -, hb, hr⟩ := hinv.stands hp (by simp)
    exact .inl ⟨rfl, hinv.move hp (by simp) (fun _ => rfl) rfl rfl (by simp)
      ⟨trivial, ⟨hb.cancelled, hb.tagId, hb.unmarked, hb.known⟩, hr.made, hr.through⟩⟩
  | io hio => exact .inl ⟨rfl, hinv.talk he hio⟩
  | spawned hp => exact .inl ⟨rfl, hinv.spawn he hp _⟩
  | ioTimeout hp hr | requestErr hp hr =>
    obtain ⟨rfl, -⟩ := hinv.stands hp (by simp)
    exact .inl ⟨cycles_error hp hr,
      hinv.move hp (by simp) (fun _ => rfl) rfl rfl (by simp) trivial⟩
  | newMail hp hr hm =>
    obtain ⟨rfl, hnext⟩ := hinv.newMail hp hr hm
    exact .inr ⟨cycles_recv hp hr, hnext⟩
  | noMail hp hr hm =>
    obtain ⟨rfl, hnext⟩ := hinv.noMail hp hr hm
    exact .inr ⟨cycles_recv hp hr, hnext⟩
  | stopPoll hp | stopAll hp | cancelled hp =>
    obtain ⟨rfl, -⟩ := hinv.stands hp (by simp)
    exact .inl ⟨rfl, hinv.move hp (by simp) (by simp [Poll.working]) rfl rfl (by simp) trivial⟩
  | counted hr | answered hr =>
    refine .inl ⟨rfl, hinv.request (by rw [hr]; rfl) rfl rfl rfl rfl fun _ h => ?_⟩
    rw [hr] at h
    exact h
  | begun hr =>
    refine .inl ⟨rfl, hinv.request (by rw [hr]; rfl) rfl rfl rfl rfl fun _ h => ?_⟩
    rw [hr] at h
    exact ⟨h.1, h.1.lines he, .inl ⟨rfl, h.2⟩⟩
  | noConn hr | failed hr =>
    exact .inl ⟨rfl, hinv.request (by rw [hr]; rfl) rfl rfl rfl rfl fun _ _ => trivial⟩
  | requestIo hr hio =>
    refine .inl ⟨rfl, hinv.requestIo he hr hio fun response hline => ?_⟩
    subst hline
    simpa only [Scripted, hr, Request.Reads] using hc
  | @dropped r hr =>
    have hthrough : (c.requests r).through = false := by
      rcases hr with hr | ⟨t, hr⟩ <;> rw [hr] <;> rfl
    exact .inl ⟨rfl, hinv.request hthrough rfl rfl rfl rfl fun _ _ => trivial⟩

/-! ## Callers -/

variable {s s' : Caller (client env).State}

/-- The client has one instance, its request timer does not fire, and the server gives the answers
of the list to the requests, one after the other. -/
def Polled (answers : Nat → Answer) (s : Caller (client env).State) :
    CallerAct (client env).Label → Prop
  | .launch => s.launched = 0
  | .poll l => Scripted answers s.mc l
  | _ => True

/-- The cycle that ends with a step of the caller. -/
def ended (s : Caller (client env).State) : CallerAct (client env).Label → List Nat
  | .poll l => cycles s.mc l
  | _ => []

theorem Cycling.take (h : Cycling env answers n c) (hp : c.polls 0 = .sending v) :
    Cycling env answers n (taken c 0) where
  others g hg := (Function.update_of_ne hg _ _).trans (h.others g hg)
  standing := by
    show Standing env answers n _ (Function.update c.polls 0 .stopping 0)
    rw [Function.update_self]
    trivial
  unsent hw := by
    have hw : (Function.update c.polls 0 .stopping 0).working := hw
    rw [Function.update_self] at hw
    cases hw
  sent_iff := by
    have hoffer : offer c 0 = some v := by rw [offer, hp]
    have hres : c.results 0 = [] := h.unsent (by rw [hp]; rfl)
    have hstop : (taken c 0).polls 0 = .stopping := by simp [taken]
    have hres' : (taken c 0).results 0 = [v] := by simp [taken, hres, hoffer]
    rw [← h.sent_iff, Sent, Sent, hstop, hres', hp, hres]
    simp [eq_comm]

theorem cycling_step {a : CallerAct (client env).Label} (he : StatusPoll env) (hsound : Sound s)
    (hinv : Cycling env answers n s.mc) (hc : Polled answers s a)
    (hs : Caller.step (client env) s a = some s') :
    ended s a = [] ∧ Cycling env answers n s'.mc ∨
      ended s a = [n] ∧ Cycling env answers (n + 1) s'.mc := by
  cases a with
  | launch =>
    cases hs
    have hc : s.launched = 0 := hc
    have hp := (hsound.unborn 0 (Nat.le_of_eq hc)).1
    have hst := hinv.standing
    rw [hp] at hst
    obtain ⟨hn, hb, hr⟩ := hst
    refine .inl ⟨rfl, hinv.move (p := .launched) hp (by simp) (fun _ => rfl) ?_ rfl (by simp)
      ⟨hn, hb, hr.made, hr.through⟩⟩
    rw [hc]
    rfl
  | take g =>
    obtain ⟨v, hv, rfl⟩ := Option.map_eq_some_iff.mp hs
    have hp : Client.polls s.mc g = .sending v := sending_of_offer hv
    obtain ⟨rfl, -⟩ := hinv.stands hp (by simp)
    exact .inl ⟨rfl, hinv.take hp⟩
  | poll l =>
    obtain ⟨mc, hm, rfl⟩ := Option.map_eq_some_iff.mp hs
    exact (step_of_live hsound.live hm).cycling he hc hinv
  | closePoll | closeAll | advance =>
    cases hs
    exact .inl ⟨rfl, hinv⟩

theorem cycling_init : Cycling env answers 0 (newIMAPClient env) where
  others _ _ := rfl
  standing := ⟨rfl, ⟨rfl, rfl, rfl, rfl⟩, rfl, fun _ => rfl⟩
  unsent _ := rfl
  sent_iff := by simp [Sent, newIMAPClient]

/-- The request reads its completion next, or has read it. -/
def Completing (answers : Nat → Answer) (c : Client) (r : Nat) : Prop :=
  (c.requests r).answered ∨ ∃ cmd tries, c.requests r = .running cmd ∧ cmd.phase = .read tries ∧
    cmd.responses ≠ [] ∧ ¬HasList ((answers r).completion cmd.tag)

/-- The cycles of a poll with `STATUS`. The log are the requests whose responses the poll has
received. They are answered in order; new mail is sent as soon as, and only if, one of them differs
from the first; and a request that gets to its completion is received. -/
structure StatusPolling (answers : Nat → Answer) (log : List Nat) (s : Caller (client env).State) :
    Prop where
  inOrder : log = List.range log.length
  newMail_iff : Sent s.mc ↔ ∃ i < log.length, (answers i).u ≠ (answers 0).u
  completes : ∀ r t, Client.polls s.mc 0 = .select r t → Completing answers s.mc r →
    ∃ as s', Run (Caller.step (client env)) (Polled answers) s as s' ∧
      Transition.observe (Caller.step (client env)) ended s as = [r]

theorem recv_step (hsound : Sound s) (hp : Client.polls s.mc 0 = .select r t)
    (hr : Client.requests s.mc r = .sendResp) :
    ∃ s', Caller.step (client env) s (.poll (.recv 0)) = some s' ∧
      ended s (.poll (.recv 0)) = [r] := by
  have hended : ended s (.poll (.recv 0)) = [r] := by simp only [ended, cycles, hp, hr, if_true]
  obtain ⟨c', hadv⟩ : ∃ c', advance env s.signals s.mc (.recv 0) = some c' := by
    simp only [advance, hp, hr, received]
    split <;> exact ⟨_, rfl⟩
  exact ⟨_, step_of_advance hsound.live hsound.alive hadv, hended⟩

theorem Cycling.received (h : Cycling env answers n s.mc) (hsound : Sound s)
    (hp : Client.polls s.mc 0 = .select r t) (hr : (Client.requests s.mc r).answered) :
    ∃ as s', Run (Caller.step (client env)) (Polled answers) s as s' ∧
      Transition.observe (Caller.step (client env)) ended s as = [r] := by
  obtain ⟨-, rfl, -, hcycle, -⟩ := h.stands hp (by simp)
  cases hq : Client.requests s.mc r with
  | sendResp =>
    obtain ⟨s', hs', hended⟩ := recv_step hsound hp hq
    refine ⟨[.poll (.recv 0)], s', .single trivial hs', ?_⟩
    simp only [Transition.observe, hs', hended, Option.elim_some, List.append_nil]
  | done =>
    rw [hq] at hcycle
    have hadv : advance env s.signals s.mc (.test r) =
        some (Client.setRequest s.mc r .sendResp) := by
      simp only [advance, hq, hcycle.cancelled, Bool.false_eq_true, if_false]
    have hs := step_of_advance hsound.live hsound.alive hadv
    obtain ⟨s', hs', hended⟩ := recv_step (hsound.step hs) hp (Function.update_self ..)
    refine ⟨[.poll (.test r), .poll (.recv 0)], s', .cons trivial hs (.single trivial hs'), ?_⟩
    simp only [Transition.observe, hs, hs', hended, Option.elim_some, List.append_nil]
    rfl
  | _ =>
    rw [hq] at hr
    cases hr

theorem Cycling.completes (he : StatusPoll env) (h : Cycling env answers n s.mc) (hsound : Sound s)
    (hp : Client.polls s.mc 0 = .select r t) (hr : Completing answers s.mc r) :
    ∃ as s', Run (Caller.step (client env)) (Polled answers) s as s' ∧
      Transition.observe (Caller.step (client env)) ended s as = [r] := by
  rcases hr with hr | ⟨cmd, tries, hr, hread, hresponses, hlist⟩
  · exact h.received hsound hp hr
  · obtain ⟨-, rfl, -, hcycle, -⟩ := h.stands hp (by simp)
    rw [hr] at hcycle
    obtain ⟨hcmd, hlines, -⟩ := hcycle
    obtain ⟨sh', hadv⟩ : ∃ sh', advance env s.signals s.mc
        (.requestIo r (.read (.line ((answers r).completion cmd.tag)))) =
          some (Client.setRequest { (s.mc : Client) with sh := sh' } r .done) := by
      simp only [advance, hr, Cmd.step_status he hcmd hread,
        (answers r).respond_completion he hcmd hlines]
      exact ⟨_, rfl⟩
    have hs := step_of_advance hsound.live hsound.alive hadv
    have hc : Polled answers s
        (.poll (.requestIo r (.read (.line ((answers r).completion cmd.tag))))) := by
      simp only [Polled, Scripted, hr, Request.Reads, Answer.Sends, if_neg hresponses]
      exact ⟨trivial, hlist⟩
    rcases cycling_step he hsound h hc hs with ⟨-, h'⟩ | ⟨hended, -⟩
    · have hdone : (Function.update (Client.requests s.mc) r .done r).answered := by
        rw [Function.update_self]
        rfl
      obtain ⟨as, s', hrun, hobs⟩ := h'.received (hsound.step hs) hp hdone
      refine ⟨_, s', .cons hc hs hrun, ?_⟩
      simp only [Transition.observe, hs, hobs, Option.elim_some]
      rfl
    · cases hended

/-- Whatever the mailbox is called and whatever the server answers, the parser reads the numbers of
every line, and the first poll of a client reports new mail in the first cycle whose next UID is not
that of the first cycle, and in no earlier one. -/
theorem status_polling (he : StatusPoll env)
    (h : Run (Caller.step (client env)) (Polled answers) { mc := newIMAPClient env } as s) :
    (∀ i, parseSTATUSResponse (answers i).line = ((answers i).m, (answers i).u)) ∧
      StatusPolling answers (Transition.observe (Caller.step (client env)) ended
        { mc := newIMAPClient env } as) s := by
  refine ⟨fun i => (answers i).parse_line, ?_⟩
  have hinv := h.observe_inv (f := ended)
    (I := fun log s => Sound s ∧ log = List.range log.length ∧ Cycling env answers log.length s.mc)
    ?_ ⟨init_sound, (rfl : [] = List.range [].length), cycling_init⟩
  · obtain ⟨hsound, horder, hcycling⟩ := hinv
    exact ⟨horder, hcycling.sent_iff, fun r t => hcycling.completes he hsound⟩
  · rintro log s a s' ⟨hsound, horder, hcycling⟩ hc hs
    refine ⟨hsound.step hs, ?_⟩
    rcases cycling_step he hsound hcycling hc hs with ⟨hend, hc'⟩ | ⟨hend, hc'⟩
    · rw [hend, List.append_nil]
      exact ⟨horder, hc'⟩
    · rw [hend, List.length_append]
      refine ⟨?_, hc'⟩
      show log ++ [log.length] = List.range (log.length + 1)
      rw [List.range_succ, ← horder]

end

/-! ## Concrete runs -/

instance (a : Answer) (response : GoString) : (q : Request) → Decidable (q.Reads a response)
  | .running cmd => inferInstanceAs (Decidable (a.Sends cmd response))
  | .absent | .spawned _ | .counted _ | .failed _ | .done | .sendErr _ | .sendResp | .exited =>
    .isTrue trivial

instance decidableScripted (answers : Nat → Answer) (c : Client) :
    (l : Label) → Decidable (Scripted answers c l)
  | .timer _ => .isFalse id
  | .requestIo r (.read (.line response)) =>
    inferInstanceAs (Decidable ((c.requests r).Reads (answers r) response))
  | .requestIo _ (.read .eof) | .requestIo _ (.read .timeout) | .requestIo _ (.read .temporary)
  | .requestIo _ (.read .other) | .requestIo _ (.write _) | .requestIo _ .check | .requestIo _ .arm
  | .start _ | .next _ | .dial _ _ | .io _ _ | .spawn _ | .recv _ | .stopPoll _ | .stopAll _
  | .cancel _ | .count _ | .begin _ | .test _ => .isTrue trivial

instance {env : Env} (answers : Nat → Answer) (s : Caller (client env).State) :
    (a : CallerAct (client env).Label) → Decidable (Polled answers s a)
  | .launch => inferInstanceAs (Decidable (s.launched = 0))
  | .poll l => decidableScripted answers s.mc l
  | .take _ | .closePoll _ | .closeAll | .advance _ => .isTrue trivial

/-- An answer for a mailbox whose name looks like a list. -/
def oddAnswer (u : Nat) (hpos : 0 < u) (hlt : u < 2 ^ 32) : Answer where
  name := GoString.lit "(MESSAGES 1 UIDNEXT 7)"
  messages := GoString.formatUint 18
  uidNext := GoString.formatUint u
  text := GoString.lit " done"
  m := 18
  u := u
  name_line := by decide
  messages_counts := ⟨GoString.denotes_formatUint 18, by decide⟩
  uidNext_counts := ⟨GoString.denotes_formatUint u, hlt⟩
  u_pos := hpos
  text_token := .inr ⟨GoString.lit "done", rfl⟩

/-- A message arrives before the second cycle. -/
def oddAnswers : Nat → Answer
  | 0 => oddAnswer 41 (by decide) (by decide)
  | _ => oddAnswer 42 (by decide) (by decide)

/-- Request `r` reads its answer, and instance 0 receives it. -/
def answerSteps (r : Nat) (completion : String) : List Label :=
  [.requestIo r .arm, .requestIo r (.read (.line (oddAnswers r).line)), .requestIo r .arm,
    .requestIo r (readLine completion), .test r, .recv 0]

def twoCycles : List (CallerAct Label) :=
  List.flatten [[.launch], (statusSteps 0 0 "PINGR1 OK").map .poll,
    (answerSteps 0 "PINGR2 OK done").map .poll,
    [Label.next 0, .spawn 0, .count 1, .begin 1, .requestIo 1 (.write true),
      .requestIo 1 .check].map .poll,
    (answerSteps 1 "PINGR3 OK done").map .poll]

theorem statusPoll_statusEnv : StatusPoll statusEnv where
  noIdle := rfl
  folder := by decide
  blob := by decide
  tagId := List.all_eq_true.mp rfl

theorem status_polling_newMail :
    ∃ s : Caller (client statusEnv).State,
      Run (Caller.step (client statusEnv)) (Polled oddAnswers) { mc := newIMAPClient statusEnv }
        twoCycles s ∧
      Client.polls s.mc 0 = .sending .newMail ∧
      Transition.observe (Caller.step (client statusEnv)) ended { mc := newIMAPClient statusEnv }
        twoCycles = [0, 1] ∧
      StatusPolling oddAnswers (Transition.observe (Caller.step (client statusEnv)) ended
        { mc := newIMAPClient statusEnv } twoCycles) s :=
  have h : Run (Caller.step (client statusEnv)) (Polled oddAnswers) { mc := newIMAPClient statusEnv }
      twoCycles _ := Run.of_execIf rfl
  ⟨_, h, rfl, rfl, (status_polling statusPoll_statusEnv h).2⟩

end Pinger.Imap

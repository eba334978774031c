import Mathlib.Data.List.Sort
import Pinger.Lib.Bytes
import Pinger.Lib.Run

/-! # The telemetry writer

`Log` turns a record into a message and puts it on a channel, `dbWriter` inserts the messages into
the log table, and `uploader` moves the rows of the table into files: it selects the rows later than
`lastRead`, writes them out, deletes them and sets `lastRead` to the time of day. A transaction is
begun, but the select and the deletes do not use it, so each takes effect at once.

Times are nanoseconds since the zero time, at which `lastRead` starts. The contents of the files are
not modelled here. -/

namespace Pinger.Telemetry

open Transition

/-! ## Records and messages -/

/-- `Round(time.Millisecond)`, halves up. -/
def round (t : Int) : Int := (t + 500000) / 1000000 * 1000000

inductive Level
  | critical
  | error
  | warning
  | notice
  | info
  | debug
  deriving DecidableEq, Repr

inductive EventType
  | debug
  | info
  | warning
  | error
  deriving DecidableEq, Repr

/-- A record of the logging library; its time is taken when it is made. -/
structure Record where
  level : Level
  moduleName : GoString := []
  message : GoString := []
  time : Int
  deriving DecidableEq, Repr

/-- A row of the log table. -/
structure TelemetryLogMsg where
  id : GoString
  eventType : EventType
  timestamp : Int
  moduleName : GoString
  message : GoString
  deriving DecidableEq, Repr

def eventType : Level → EventType
  | .debug => .debug
  | .info => .info
  | .error => .error
  | .warning | .critical | .notice => .warning

/-- The level is written to telemetry. -/
def admits (includeDebug : Bool) (level : Level) : Bool :=
  includeDebug || eventType level = .warning || eventType level = .error || eventType level = .info

def newTelemetryMsg (id : GoString) (rec : Record) : TelemetryLogMsg where
  id := id
  eventType := eventType rec.level
  timestamp := round rec.time
  moduleName := rec.moduleName
  message := rec.message

/-- `getAllMessagesSince(t, telemetryLogEventAll)`. -/
def getAllMessagesSince (table : List TelemetryLogMsg) (t : Int) : List TelemetryLogMsg :=
  (table.filter (t < ·.timestamp)).insertionSort (·.timestamp ≤ ·.timestamp)

/-! ## The goroutines -/

inductive DbWriter
  | receiving
  | inserting (msg : TelemetryLogMsg)
  | counting
  deriving DecidableEq, Repr

/-- The uploader waits in its select, or it is in `createFilesAndUpload`. -/
inductive Uploader
  | waiting
  | begin
  | selecting
  | filing (messages : List TelemetryLogMsg)
  | deleting (messages : List TelemetryLogMsg)
  | advancing
  | uploading
  deriving DecidableEq, Repr

/-- `records` are those whose `Log` has not been called yet. -/
structure Writer where
  includeDebug : Bool := false
  now : Int
  records : List Record := []
  telemetryCh : List TelemetryLogMsg := []
  dbWriter : DbWriter := .receiving
  table : List TelemetryLogMsg := []
  msgCount : Nat := 0
  doUploadNow : Nat := 0
  uploader : Uploader := .begin
  lastRead : Int := 0
  deriving DecidableEq, Repr

/-- `record` is the making of a record, and `log` the call of `Log` with the record at an index,
for which it draws an id. -/
inductive Act
  | tick (d : Nat)
  | record (level : Level) (moduleName message : GoString)
  | log (n : Nat) (id : GoString)
  | receive
  | insert (ok : Bool)
  | count
  | timer
  | uploadNow
  | begin (ok : Bool)
  | select (ok : Bool)
  | file (ok : Bool)
  | delete (ok : Bool)
  | commit
  | advance
  | upload (ok : Bool)
  deriving DecidableEq, Repr

namespace Writer

/-- `Log`, from the record at the index. -/
def log (s : Writer) (n : Nat) (id : GoString) : Option Writer :=
  match s.records[n]? with
  | none => none
  | some rec =>
    let s' := { s with records := s.records.eraseIdx n }
    if admits s.includeDebug rec.level then
      if s.telemetryCh.length < 1024 then
        some { s' with telemetryCh := s.telemetryCh ++ [newTelemetryMsg id rec] }
      else none
    else some s'

/-- The insert of a message fails on an id that is taken, or for another reason. -/
def insert (s : Writer) (msg : TelemetryLogMsg) (ok : Bool) : Writer :=
  { s with
    dbWriter := .counting
    table := if ok ∧ ∀ row ∈ s.table, row.id ≠ msg.id then s.table ++ [msg] else s.table }

/-- A hundred and one messages bring on an upload. -/
def count (s : Writer) : Option Writer :=
  if s.msgCount + 1 > 100 then
    if s.doUploadNow < 5 then
      some { s with dbWriter := .receiving, msgCount := 0, doUploadNow := s.doUploadNow + 1 }
    else none
  else some { s with dbWriter := .receiving, msgCount := s.msgCount + 1 }

def step (s : Writer) : Act → Option Writer
  | .tick d => some { s with now := s.now + d }
  | .record level moduleName message =>
    some { s with records := s.records ++ [{ level, moduleName, message, time := s.now }] }
  | .log n id => s.log n id
  | .receive =>
    match s.dbWriter, s.telemetryCh with
    | .receiving, msg :: telemetryCh => some { s with dbWriter := .inserting msg, telemetryCh }
    | _, _ => none
  | .insert ok =>
    match s.dbWriter with
    | .inserting msg => some (s.insert msg ok)
    | _ => none
  | .count => if s.dbWriter = .counting then s.count else none
  | .timer => if s.uploader = .waiting then some { s with uploader := .begin } else none
  | .uploadNow =>
    if s.uploader = .waiting ∧ 0 < s.doUploadNow then
      some { s with uploader := .begin, doUploadNow := s.doUploadNow - 1 }
    else none
  | .begin ok =>
    if s.uploader = .begin then
      some { s with uploader := if ok then .selecting else .waiting }
    else none
  | .select ok =>
    if s.uploader = .selecting then
      some { s with
        uploader := if ok then .filing (getAllMessagesSince s.table s.lastRead) else .waiting }
    else none
  | .file ok =>
    match s.uploader with
    | .filing messages =>
      some { s with uploader := if ok then .deleting messages else .waiting }
    | _ => none
  | .delete ok =>
    match s.uploader with
    | .deleting (msg :: messages) =>
      if ok then
        some { s with
          table := s.table.filter (·.id ≠ msg.id), uploader := .deleting messages }
      else some { s with uploader := .waiting }
    | _ => none
  | .commit =>
    if s.uploader = .deleting [] then some { s with uploader := .advancing } else none
  | .advance =>
    if s.uploader = .advancing then
      some { s with lastRead := round s.now, uploader := .uploading }
    else none
  | .upload _ => if s.uploader = .uploading then some { s with uploader := .waiting } else none

end Writer

/-! ## No row is left behind -/

/-- Everything on its way to the table, and every row of it, is later than `lastRead`. -/
structure Ahead (s : Writer) : Prop where
  record : ∀ rec ∈ s.records, admits s.includeDebug rec.level → s.lastRead < round rec.time
  queued : ∀ msg ∈ s.telemetryCh, s.lastRead < msg.timestamp
  inserting : ∀ msg, s.dbWriter = .inserting msg → s.lastRead < msg.timestamp
  row : ∀ row ∈ s.table, s.lastRead < row.timestamp

/-- A writer that has just been started: the table holds what an earlier process has left. -/
structure Started (s : Writer) : Prop where
  records : s.records = []
  telemetryCh : s.telemetryCh = []
  dbWriter : s.dbWriter = .receiving
  uploader : s.uploader = .begin
  lastRead : s.lastRead = 0
  row : ∀ row ∈ s.table, 0 < row.timestamp

/-- Nothing that telemetry admits is on its way to the table. -/
def Writer.drained (s : Writer) : Bool :=
  s.records.all (fun rec => !admits s.includeDebug rec.level) && s.telemetryCh.isEmpty &&
    match s.dbWriter with
    | .inserting _ => false
    | _ => true

/-- `lastRead` is set only when nothing is on its way to the table and nothing was inserted since
the select, and no record is made in the millisecond to which it was rounded. -/
def Prompt (s : Writer) : Act → Prop
  | .record level _ _ => admits s.includeDebug level → s.lastRead < round s.now
  | .advance => s.drained ∧ s.table = []
  | _ => True

instance (s : Writer) : (a : Act) → Decidable (Prompt s a)
  | .record level _ _ =>
    inferInstanceAs (Decidable (admits s.includeDebug level = true → s.lastRead < round s.now))
  | .advance => inferInstanceAs (Decidable (s.drained = true ∧ s.table = []))
  | .tick _ | .log _ _ | .receive | .insert _ | .count | .timer | .uploadNow | .begin _ | .select _
  | .file _ | .delete _ | .commit | .upload _ => .isTrue trivial

variable {s s' : Writer}

theorem Ahead.of_eq (h : Ahead s) (hdebug : s'.includeDebug = s.includeDebug)
    (hrecords : s'.records = s.records) (hch : s'.telemetryCh = s.telemetryCh)
    (hdb : ∀ msg, s'.dbWriter = .inserting msg → s.dbWriter = .inserting msg)
    (htable : ∀ row ∈ s'.table, row ∈ s.table) (hlast : s'.lastRead = s.lastRead) : Ahead s' := by
  constructor
  · rw [hdebug, hrecords, hlast]
    exact h.record
  · rw [hch, hlast]
    exact h.queued
  · intro msg hmsg
    rw [hlast]
    exact h.inserting msg (hdb msg hmsg)
  · intro row hrow
    rw [hlast]
    exact h.row row (htable row hrow)

theorem Ahead.log (h : Ahead s) (hs : s.log n msgId = some s') : Ahead s' := by
  unfold Writer.log at hs
  split at hs
  · cases hs
  next rec hrec =>
  have herase : ∀ rec' ∈ s.records.eraseIdx n, rec' ∈ s.records :=
    fun _ hmem => List.mem_of_mem_eraseIdx hmem
  dsimp only at hs
  split at hs
  next hadm =>
    split at hs <;> cases hs
    refine ⟨fun rec' hmem => h.record rec' (herase rec' hmem), ?_, h.inserting, h.row⟩
    intro msg hmsg
    rcases List.mem_append.mp hmsg with hmsg | hmsg
    · exact h.queued msg hmsg
    · obtain rfl : msg = newTelemetryMsg msgId rec := by simpa using hmsg
      exact h.record rec (List.mem_of_getElem? hrec) hadm
  next =>
    cases hs
    exact ⟨fun rec' hmem => h.record rec' (herase rec' hmem), h.queued, h.inserting, h.row⟩

theorem Ahead.insert (h : Ahead s) (hmsg : s.dbWriter = .inserting msg) :
    Ahead (s.insert msg ok) := by
  refine ⟨h.record, h.queued, fun _ hd => (nomatch hd), ?_⟩
  intro row hrow
  simp only [Writer.insert] at hrow
  split at hrow
  · rcases List.mem_append.mp hrow with hrow | hrow
    · exact h.row row hrow
    · obtain rfl : row = msg := by simpa using hrow
      exact h.inserting row hmsg
  · exact h.row row hrow

/-- When nothing is on its way any value of `lastRead` will do. -/
theorem ahead_of_drained (h : s.drained) (htable : s.table = []) : Ahead s := by
  simp only [Writer.drained, Bool.and_eq_true, List.all_eq_true, Bool.not_eq_true',
    List.isEmpty_iff] at h
  obtain ⟨⟨hrecords, hch⟩, hdb⟩ := h
  constructor
  · intro rec hrec hadm
    rw [hrecords rec hrec] at hadm
    cases hadm
  · rw [hch]
    exact fun _ hmem => (nomatch hmem)
  · intro msg hmsg
    rw [hmsg] at hdb
    cases hdb
  · rw [htable]
    exact fun _ hmem => (nomatch hmem)

theorem Ahead.step (h : Ahead s) (hc : Prompt s a) (hs : s.step a = some s') : Ahead s' := by
  cases a with
  | tick d =>
    cases hs
    exact h.of_eq rfl rfl rfl (fun _ => id) (fun _ => id) rfl
  | record level moduleName message =>
    cases hs
    refine ⟨?_, h.queued, h.inserting, h.row⟩
    intro rec hrec
    rcases List.mem_append.mp hrec with hrec | hrec
    · exact h.record rec hrec
    · obtain rfl : rec = _ := by simpa using hrec
      exact hc
  | log n id => exact h.log hs
  | receive =>
    simp only [Writer.step] at hs
    split at hs
    next msg telemetryCh hdb hch =>
      cases hs
      refine ⟨h.record, ?_, ?_, h.row⟩
      · intro msg' hmsg
        exact h.queued msg' (hch ▸ List.mem_cons_of_mem msg hmsg)
      · rintro _ ⟨⟩
        exact h.queued msg (hch ▸ List.mem_cons_self)
    next => cases hs
  | insert ok =>
    simp only [Writer.step] at hs
    split at hs
    next hdb =>
      cases hs
      exact h.insert hdb
    next => cases hs
  | count =>
    simp only [Writer.step, Writer.count] at hs
    split at hs
    · split at hs
      · split at hs <;> cases hs
        exact h.of_eq rfl rfl rfl (fun _ hd => (nomatch hd)) (fun _ => id) rfl
      · cases hs
        exact h.of_eq rfl rfl rfl (fun _ hd => (nomatch hd)) (fun _ => id) rfl
    · cases hs
  | timer | uploadNow | begin | select | commit | upload =>
    simp only [Writer.step] at hs
    split at hs <;> cases hs
    exact h.of_eq rfl rfl rfl (fun _ => id) (fun _ => id) rfl
  | file ok =>
    simp only [Writer.step] at hs
    split at hs <;> cases hs
    exact h.of_eq rfl rfl rfl (fun _ => id) (fun _ => id) rfl
  | delete ok =>
    simp only [Writer.step] at hs
    split at hs
    next =>
      split at hs <;> cases hs
      · exact h.of_eq rfl rfl rfl (fun _ => id) (fun _ hrow => List.mem_of_mem_filter hrow) rfl
      · exact h.of_eq rfl rfl rfl (fun _ => id) (fun _ => id) rfl
    next => cases hs
  | advance =>
    simp only [Writer.step] at hs
    split at hs <;> cases hs
    exact ahead_of_drained hc.1 hc.2

theorem Started.ahead (h : Started s) : Ahead s := by
  obtain ⟨hrecords, hch, hdb, -, hlast, hrow⟩ := h
  constructor
  · rw [hrecords]
    exact fun _ hmem => (nomatch hmem)
  · rw [hch]
    exact fun _ hmem => (nomatch hmem)
  · intro msg hmsg
    cases hdb.symm.trans hmsg
  · rw [hlast]
    exact hrow

/-- What is later than `lastRead` is selected. -/
theorem getAllMessagesSince_perm (h : ∀ row ∈ table, t < TelemetryLogMsg.timestamp row) :
    (getAllMessagesSince table t).Perm table := by
  have hall : table.filter (t < ·.timestamp) = table :=
    List.filter_eq_self.mpr fun row hrow => decide_eq_true (h row hrow)
  rw [getAllMessagesSince, hall]
  exact List.perm_insertionSort _ table

/-- In every run in which `lastRead` is set only when nothing is on its way to the table, and no
record is made in the millisecond it names, every row is later than `lastRead` at all times, so the
next `createFiles` selects all of them. -/
theorem rows_selected (hstart : Started s) (h : Run Writer.step Prompt s as s') :
    (∀ row ∈ s'.table, s'.lastRead < row.timestamp) ∧
      ∀ s'', s'.step (.select true) = some s'' →
        ∃ messages, s''.uploader = .filing messages ∧ messages.Perm s'.table := by
  have hahead : Ahead s' := h.inv Ahead.step hstart.ahead
  refine ⟨hahead.row, ?_⟩
  intro s'' hs
  simp only [Writer.step] at hs
  split at hs <;> cases hs
  exact ⟨_, rfl, getAllMessagesSince_perm hahead.row⟩

/-- A second after the zero time, with an empty table. -/
def freshWriter : Writer := { now := 1000000000 }

theorem freshWriter_started : Started freshWriter :=
  ⟨rfl, rfl, rfl, rfl, rfl, fun _ hmem => (nomatch hmem)⟩

/-- A record is made, logged and inserted. -/
def insertActs : List Act :=
  [.record .info [] (GoString.lit "m"), .log 0 (GoString.lit "1"), .receive, .insert true, .count]

/-- A record comes a millisecond after `lastRead` was set, and then the next `createFiles`. -/
def laterActs : List Act :=
  [.begin true, .select true, .file true, .commit, .advance, .upload true, .tick 1000000] ++
    insertActs ++ [.timer, .begin true]

theorem rows_selected_later :
    ∃ s s', Run Writer.step Prompt freshWriter laterActs s ∧ s.table.length = 1 ∧
      s.step (.select true) = some s' ∧
      ∃ messages, s'.uploader = .filing messages ∧ messages.Perm s.table := by
  obtain ⟨s, s', h, hlen, hs⟩ : ∃ s s', Run Writer.step Prompt freshWriter laterActs s ∧
      s.table.length = 1 ∧ s.step (.select true) = some s' := ⟨_, _, Run.of_execIf rfl, rfl, rfl⟩
  exact ⟨s, s', h, hlen, hs, (rows_selected freshWriter_started h).2 s' hs⟩

/-- A record is inserted between the select and the setting of `lastRead`. -/
def strandedActs : List Act :=
  [.begin true, .select true] ++ insertActs ++ [.file true, .commit, .advance]

/-- The row is as old as `lastRead`, and the next select does not find it. -/
theorem row_stranded :
    Started freshWriter ∧ ∃ s, Run Writer.step Free freshWriter strandedActs s ∧
      ∃ row ∈ s.table, ¬s.lastRead < row.timestamp ∧
        row ∉ getAllMessagesSince s.table s.lastRead :=
  ⟨freshWriter_started, _, Run.of_exec rfl, newTelemetryMsg (GoString.lit "1")
    { level := .info, message := GoString.lit "m", time := 1000000000 }, by decide, by decide,
    by decide⟩

end Pinger.Telemetry

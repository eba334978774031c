import Mathlib.Data.List.SplitBy
import Mathlib.Data.List.TakeDrop
import Pinger.Lib.Slice
import Pinger.Lib.Table
import Pinger.Telemetry.Line

/-! # The files of the telemetry writer

`createFilesFromMessages` collects the lines of the records in a buffer, and writes it out when the
day of the month changes and at the end. A file is named by the time of its last record, and it is
appended to when it exists. So the calls of `writeOutFile` carry the lines of the runs of records of
one day of the month, and the date in the name of a file is that of all its records only when no run
goes on into another month. -/

/-! ## Buffers -/

/-- A `bytes.Buffer`, of which nothing has been read. A copy shares its array. -/
abbrev Buffer := GoSlice Char

namespace Buffer

def empty : Buffer := ⟨[], 0, Nat.le_refl 0⟩

def write (b : Buffer) (p : GoString) : Buffer := (b.append p).2

def reset (b : Buffer) : Buffer := ⟨b.array, 0, Nat.zero_le _⟩

/-- `WriteTo`: what is written, and the buffer afterwards. -/
def writeTo (b : Buffer) : GoString × Buffer := (b.view, b.reset)

theorem view_empty : empty.view = [] := rfl

theorem view_write (b : Buffer) (p : GoString) : (b.write p).view = b.view ++ p :=
  GoSlice.view_append_snd b p

theorem view_reset (b : Buffer) : b.reset.view = [] := List.take_zero

end Buffer

namespace Pinger.Telemetry

open GoString (lit)

/-! ## Writing a file -/

/-- A selected record, and the time at which its fields are made. -/
structure Selected where
  msg : TelemetryLogMsg
  now : Int
  deriving DecidableEq, Repr

/-- What becomes of a call of `writeOutFile`: whether the file is opened, whether writing to it
succeeds, and how many bytes of the compressed stream reach it in the end. The error of closing it
is not looked at. -/
structure Outcome where
  opened : Bool
  written : Bool
  landed : Nat
  deriving DecidableEq, Repr

structure Env where
  hostId : GoString
  /-- The compressed stream of a text. -/
  gzip : GoString → GoString
  /-- The outcome of the call with this number. -/
  outcome : Nat → Outcome

/-- A call of `writeOutFile`. -/
structure Call where
  name : GoString
  content : GoString
  deriving DecidableEq, Repr

/-- The directory, and the calls so far. -/
structure Dir where
  files : Table GoString GoString
  calls : List Call

def fileName (endTime : Int) : GoString :=
  lit "plog-" ++
    (Calendar.format (Calendar.dateLayout ++ Calendar.clockLayout) endTime).erase '.' ++ lit ".gz"

/-- `fileName[5:13]` -/
def datePrefix (name : GoString) : GoString := (name.drop 5).take 8

/-- The bytes of the stream of a call that reach the file. -/
def Call.landed (env : Env) (n : Nat) (call : Call) : GoString :=
  if (env.outcome n).opened then (env.gzip call.content).take (env.outcome n).landed else []

/-- The file is created, or opened for appending. The result is whether no error is returned. -/
def Dir.write (env : Env) (d : Dir) (call : Call) : Bool × Dir :=
  let outcome := env.outcome d.calls.length
  let calls := d.calls ++ [call]
  if outcome.opened then
    (outcome.written, {
      files := d.files.put call.name
        ((d.files call.name).getD [] ++ call.landed env d.calls.length)
      calls })
  else (false, { d with calls })

/-- The buffer is passed by value: the caller keeps its own. -/
def writeOutFile (env : Env) (d : Dir) (fileString : Buffer) (endTime : Int) : Bool × Dir :=
  d.write env ⟨fileName endTime, fileString.writeTo.1⟩

/-! ## The loop -/

def writeLine (env : Env) (buffer : Buffer) (r : Selected) : Buffer :=
  (buffer.write (jsonString env.hostId r.now r.msg)).write ['\n']

/-- The loop over the messages, and the last call. -/
def writeMessages (env : Env) (buffer : Buffer) (prevTime : Int) :
    List Selected → Dir → Bool × Dir
  | [], d => writeOutFile env d buffer prevTime
  | r :: records, d =>
    if prevTime ≠ 0 ∧ Calendar.day prevTime ≠ Calendar.day r.msg.timestamp then
      match writeOutFile env d buffer prevTime with
      | (false, d) => (false, d)
      | (true, d) =>
        writeMessages env (writeLine env buffer.reset r) r.msg.timestamp records d
    else writeMessages env (writeLine env buffer r) r.msg.timestamp records d

def createFilesFromMessages (env : Env) (files : Table GoString GoString)
    (records : List Selected) : Bool × Dir :=
  if records = [] then (true, ⟨files, []⟩)
  else writeMessages env Buffer.empty 0 records ⟨files, []⟩

/-! ## Runs of records -/

def Selected.line (env : Env) (r : Selected) : GoString :=
  jsonString env.hostId r.now r.msg ++ ['\n']

/-- The record goes into the buffer in which this one is. -/
def sameFile (r r' : Selected) : Bool :=
  r.msg.timestamp = 0 || Calendar.day r.msg.timestamp = Calendar.day r'.msg.timestamp

/-- The records of each call. -/
def runs (records : List Selected) : List (List Selected) := records.splitBy sameFile

/-- The call that writes a run. -/
def callOf (env : Env) (g : List Selected) : Call where
  name := fileName ((g.getLast?.map (·.msg.timestamp)).getD 0)
  content := g.flatMap (·.line env)

/-- The runs are written one after the other, up to the first error. -/
def writeRuns (env : Env) : List (List Selected) → Dir → Bool × Dir
  | [], d => (true, d)
  | g :: gs, d =>
    match d.write env (callOf env g) with
    | (false, d) => (false, d)
    | (true, d) => writeRuns env gs d

variable {env : Env} {records : List Selected} {d : Dir} {buffer : Buffer}

theorem view_writeLine (env : Env) (buffer : Buffer) (r : Selected) :
    (writeLine env buffer r).view = buffer.view ++ r.line env := by
  rw [writeLine, Buffer.view_write, Buffer.view_write, List.append_assoc, Selected.line]

/-- The buffer holds the lines of the run that has been begun. -/
structure Holds (env : Env) (buffer : Buffer) (g : List Selected) (r : Selected) : Prop where
  view : buffer.view = (g ++ [r]).flatMap (·.line env)
  run : (g ++ [r]).IsChain fun a b => sameFile a b

theorem Holds.writeOutFile (h : Holds env buffer g r) (d : Dir) :
    writeOutFile env d buffer r.msg.timestamp = d.write env (callOf env (g ++ [r])) := by
  rw [Telemetry.writeOutFile, callOf, Buffer.writeTo, h.view]
  simp

theorem Holds.next (h : Holds env buffer g r) (hsame : sameFile r r') :
    Holds env (writeLine env buffer r') (g ++ [r]) r' := by
  refine ⟨?_, ?_⟩
  · rw [view_writeLine, h.view]
    simp
  · rw [List.isChain_append]
    refine ⟨h.run, List.isChain_singleton _, ?_⟩
    simpa using hsame

theorem holds_single (env : Env) (h : buffer.view = []) (r : Selected) :
    Holds env (writeLine env buffer r) [] r := by
  refine ⟨?_, List.isChain_singleton _⟩
  rw [view_writeLine, h]
  simp

/-- The loop writes the runs of what is in the buffer and what is to come. -/
theorem writeMessages_eq (h : Holds env buffer g r) (records : List Selected) (d : Dir) :
    writeMessages env buffer r.msg.timestamp records d =
      writeRuns env (runs (g ++ [r] ++ records)) d := by
  induction records generalizing buffer g r d with
  | nil =>
    rw [List.append_nil, runs, List.splitBy_of_isChain (by simp) h.run, writeMessages,
      h.writeOutFile, writeRuns]
    rcases d.write env (callOf env (g ++ [r])) with ⟨_ | _, d'⟩ <;> rfl
  | cons r' records ih =>
    rw [writeMessages]
    by_cases hsame : sameFile r r'
    · have hno : ¬(r.msg.timestamp ≠ 0 ∧
          Calendar.day r.msg.timestamp ≠ Calendar.day r'.msg.timestamp) := by
        simp only [sameFile, Bool.or_eq_true, decide_eq_true_eq] at hsame
        exact fun hne => hsame.elim hne.1 hne.2
      rw [if_neg hno, ih (h.next hsame), List.append_assoc, List.singleton_append]
    · have hyes : r.msg.timestamp ≠ 0 ∧
          Calendar.day r.msg.timestamp ≠ Calendar.day r'.msg.timestamp := by
        simpa only [sameFile, Bool.or_eq_true, decide_eq_true_eq, not_or] using hsame
      have hruns : runs (g ++ [r] ++ r' :: records) = (g ++ [r]) :: runs (r' :: records) := by
        rw [runs, List.splitBy_append_cons _ (by simpa using hsame),
          List.splitBy_of_isChain (by simp) h.run]
        rfl
      rw [if_pos hyes, h.writeOutFile, hruns, writeRuns]
      rcases d.write env (callOf env (g ++ [r])) with ⟨_ | _, d'⟩
      · rfl
      · exact ih (holds_single env (Buffer.view_reset buffer) r') d'

/-- `createFilesFromMessages` writes the runs of the records. -/
theorem createFilesFromMessages_eq (env : Env) (files : Table GoString GoString)
    (records : List Selected) :
    createFilesFromMessages env files records = writeRuns env (runs records) ⟨files, []⟩ := by
  cases records with
  | nil => rfl
  | cons r records =>
    rw [createFilesFromMessages, if_neg (List.cons_ne_nil r records), writeMessages,
      if_neg fun h => h.1 rfl]
    exact writeMessages_eq (holds_single env Buffer.view_empty r) records _

/-! ## The calls and the files -/

theorem write_calls (env : Env) (d : Dir) (call : Call) :
    (d.write env call).2.calls = d.calls ++ [call] := by
  unfold Dir.write
  dsimp only
  split <;> rfl

/-- The calls are those of the first runs, and of all of them when there is no error. -/
theorem writeRuns_calls (env : Env) (gs : List (List Selected)) (d : Dir) :
    ∃ done, done <+: gs ∧ (writeRuns env gs d).2.calls = d.calls ++ done.map (callOf env) ∧
      ((writeRuns env gs d).1 = true → done = gs) := by
  induction gs generalizing d with
  | nil => exact ⟨[], List.prefix_rfl, by simp [writeRuns], fun _ => rfl⟩
  | cons g gs ih =>
    have hcalls := write_calls env d (callOf env g)
    rw [writeRuns]
    rcases hw : d.write env (callOf env g) with ⟨_ | _, d'⟩ <;> rw [hw] at hcalls
    · exact ⟨[g], by simp, hcalls, nofun⟩
    · obtain ⟨done, hpre, hdone, hok⟩ := ih d'
      refine ⟨g :: done, List.cons_prefix_cons.mpr ⟨rfl, hpre⟩, ?_, fun h => by rw [hok h]⟩
      rw [hdone, hcalls, List.map_cons, List.append_assoc, List.singleton_append]

/-- The bytes of a file; one that does not exist is empty. -/
def contentOf (files : Table GoString GoString) (name : GoString) : GoString := (files name).getD []

/-- What the calls add to the file of this name. -/
def grown (env : Env) (calls : List Call) (name : GoString) : GoString :=
  calls.zipIdx.flatMap fun (call, n) => if call.name = name then call.landed env n else []

theorem grown_snoc (env : Env) (calls : List Call) (call : Call) (name : GoString) :
    grown env (calls ++ [call]) name = grown env calls name ++
      if call.name = name then call.landed env calls.length else [] := by
  simp [grown, List.zipIdx_append]

/-- A file has its old bytes, and then what the calls have added. -/
def Appended (env : Env) (files : Table GoString GoString) (d : Dir) : Prop :=
  ∀ name, contentOf d.files name = contentOf files name ++ grown env d.calls name

theorem write_content (env : Env) (d : Dir) (call : Call) (name : GoString) :
    contentOf (d.write env call).2.files name =
      contentOf d.files name ++
        if call.name = name then call.landed env d.calls.length else [] := by
  unfold Dir.write
  dsimp only
  split
  next hopen =>
    dsimp only [contentOf]
    by_cases hn : call.name = name
    · rw [if_pos hn, ← hn, Table.put_self, Option.getD_some]
    · rw [if_neg hn, List.append_nil, Table.put_of_ne (Ne.symm hn)]
  next hopen =>
    have hnone : call.landed env d.calls.length = [] := if_neg hopen
    rw [hnone, ite_self, List.append_nil]

theorem Appended.write {files : Table GoString GoString} (h : Appended env files d) (call : Call) :
    Appended env files (d.write env call).2 := by
  intro name
  rw [write_calls, grown_snoc, ← List.append_assoc, ← h name, write_content]

theorem Appended.writeRuns {files : Table GoString GoString} (h : Appended env files d)
    (gs : List (List Selected)) : Appended env files (writeRuns env gs d).2 := by
  induction gs generalizing d with
  | nil => exact h
  | cons g gs ih =>
    have hwrite := h.write (callOf env g)
    rw [Telemetry.writeRuns]
    rcases hw : d.write env (callOf env g) with ⟨_ | _, d'⟩ <;> rw [hw] at hwrite
    · exact hwrite
    · exact ih hwrite

/-- When no error is returned, the contents of the calls are the lines of the records in their
order. A file has its old bytes in front of what the calls with its name have added, one after the
other, with or without an error. -/
theorem records_written (files : Table GoString GoString)
    (h : (createFilesFromMessages env files records).1 = true) :
    (createFilesFromMessages env files records).2.calls.flatMap Call.content =
        records.flatMap (·.line env) ∧
      ∀ name, contentOf (createFilesFromMessages env files records).2.files name =
        contentOf files name ++
          grown env (createFilesFromMessages env files records).2.calls name := by
  rw [createFilesFromMessages_eq] at h ⊢
  refine ⟨?_, Appended.writeRuns (fun name => (List.append_nil _).symm) _⟩
  obtain ⟨done, -, hcalls, hok⟩ := writeRuns_calls env (runs records) ⟨files, []⟩
  have hcontent : ∀ g, (callOf env g).content = g.flatMap (·.line env) := fun _ => rfl
  rw [hcalls, hok h, List.nil_append, List.flatMap_map]
  simp only [hcontent]
  conv_rhs => rw [← List.flatten_splitBy sameFile records]
  rw [List.flatten_eq_flatMap, List.flatMap_assoc]
  rfl

/-- A record of this day, at noon. -/
def onDay (day : Int) : Selected where
  msg := {
    id := lit "1"
    eventType := .info
    timestamp := day * Calendar.nanosPerDay + 43200000000000
    moduleName := lit "pinger"
    message := lit "some message" }
  now := day * Calendar.nanosPerDay + 86400000000000

/-- Nothing fails, and all of a stream reaches the file. -/
def soundEnv : Env where
  hostId := lit "host"
  gzip := id
  outcome := fun _ => ⟨true, true, 1000⟩

/-- The files of the 15th and the 16th of January 2015; that of the second day exists already. -/
theorem records_written_two_days :
    let files : Table GoString GoString :=
      Table.put (fun _ => none) (fileName (onDay 735613).msg.timestamp)
      (lit "old")
    let result := createFilesFromMessages soundEnv files [onDay 735612, onDay 735613]
    result.2.calls.flatMap Call.content = [onDay 735612, onDay 735613].flatMap (·.line soundEnv) ∧
      ∀ name, contentOf result.2.files name =
        contentOf files name ++ grown soundEnv result.2.calls name :=
  records_written _ (by decide +kernel)

/-! ## The date in the name of a file -/

theorem datePrefix_fileName (t : Int) :
    datePrefix (fileName t) = (Calendar.format Calendar.dateLayout t).take 8 := by
  have hname : fileName t = lit "plog-" ++ (Calendar.format Calendar.dateLayout t ++
      ((Calendar.format Calendar.clockLayout t).erase '.' ++ lit ".gz")) := by
    unfold fileName
    rw [Calendar.format_append,
      List.erase_append_right _ (Calendar.point_not_mem_format_date t),
      List.append_assoc (lit "plog-"), List.append_assoc (Calendar.format _ t)]
  have hdrop : ∀ x, (lit "plog-" ++ x).drop 5 = x := fun _ => rfl
  rw [datePrefix, hname, hdrop,
    List.take_append_of_le_length (Calendar.eight_le_length_format_date t)]

/-- The prefix is the date of the last record in the years from 0 to 9999, and in no others. -/
theorem datePrefix_fileName_iff (t : Int) :
    datePrefix (fileName t) = Calendar.format Calendar.dateLayout t ↔
      0 ≤ (Calendar.date t).year ∧ (Calendar.date t).year ≤ 9999 := by
  have hle := Calendar.eight_le_length_format_date t
  rw [datePrefix_fileName, ← Calendar.length_format_date, List.take_eq_self_iff]
  omega

/-- The records that the calls write: each call has the lines of its records. -/
structure Spread (env : Env) (records : List Selected) (calls : List Call)
    (gs : List (List Selected)) : Prop where
  content : calls.map Call.content = gs.map (·.flatMap (·.line env))
  prefix_of : gs.flatten <+: records

/-- Every record that is written goes into a file whose name carries its date. -/
def DatePure (env : Env) (records : List Selected) (calls : List Call) : Prop :=
  ∃ gs, Spread env records calls gs ∧ List.Forall₂ (fun call g => ∀ r ∈ g,
    datePrefix call.name = Calendar.format Calendar.dateLayout r.msg.timestamp) calls gs

/-- The years have four digits, and of two records with one day of the month, one after the other,
both have the same date. A record at the zero time counts as one of the day of the record after
it. -/
structure SteadyDates (records : List Selected) : Prop where
  years : ∀ r ∈ records, 0 ≤ (Calendar.date r.msg.timestamp).year ∧
    (Calendar.date r.msg.timestamp).year ≤ 9999
  steps : records.IsChain fun a b =>
    sameFile a b → Calendar.date a.msg.timestamp = Calendar.date b.msg.timestamp

theorem count_line (env : Env) (r : Selected) : (r.line env).count '\n' = 1 := by
  have hno : '\n' ∉ jsonString env.hostId r.now r.msg := jsonString_no_newline _ _ _
  rw [Selected.line, List.count_append, List.count_eq_zero_of_not_mem hno]
  rfl

theorem count_lines (env : Env) (g : List Selected) :
    (g.flatMap (·.line env)).count '\n' = g.length := by
  induction g with
  | nil => rfl
  | cons r g ih =>
    rw [List.flatMap_cons, List.count_append, ih, count_line, List.length_cons, Nat.add_comm]

/-- The contents of the calls determine which records they have written. -/
theorem Spread.unique (h : Spread env records calls gs) (h' : Spread env records calls gs') :
    gs = gs' := by
  obtain ⟨hcontent, hpre⟩ := h
  obtain ⟨hcontent', hpre'⟩ := h'
  have hmap := hcontent.symm.trans hcontent'
  clear hcontent hcontent'
  induction gs generalizing gs' records with
  | nil => simpa using hmap
  | cons g gs ih =>
    cases gs' with
    | nil => cases hmap
    | cons g' gs' =>
      obtain ⟨hhead, htail⟩ := List.cons.inj hmap
      rw [List.flatten_cons] at hpre hpre'
      have hlen : g.length = g'.length := by
        have hcount := congrArg (List.count '\n') hhead
        rwa [count_lines, count_lines] at hcount
      obtain rfl : g = g' := by
        have hg := (List.prefix_append g gs.flatten).trans hpre
        have hg' := (List.prefix_append g' gs'.flatten).trans hpre'
        exact (List.prefix_of_prefix_length_le hg hg' hlen.le).eq_of_length hlen
      obtain ⟨rest, rfl⟩ := hpre
      rw [List.append_assoc, List.prefix_append_right_inj] at hpre'
      rw [ih ⟨rest, rfl⟩ hpre' htail]

/-- The file of a run carries the date of each of its records. -/
def RunPure (env : Env) (g : List Selected) : Prop := ∀ r ∈ g,
  datePrefix (callOf env g).name = Calendar.format Calendar.dateLayout r.msg.timestamp

/-- Two records of the same date. -/
def SameDate (a b : Selected) : Prop :=
  Calendar.date a.msg.timestamp = Calendar.date b.msg.timestamp

instance : Trans SameDate SameDate SameDate := ⟨fun h h' => h.trans h'⟩

/-- A run has the date of its last record throughout, in a year of four digits. -/
theorem runPure_iff (env : Env) (hne : g ≠ []) : RunPure env g ↔
    (∀ r ∈ g, 0 ≤ (Calendar.date r.msg.timestamp).year ∧
      (Calendar.date r.msg.timestamp).year ≤ 9999) ∧ g.IsChain SameDate := by
  obtain ⟨init, last, rfl⟩ : ∃ init last, g = init ++ [last] :=
    ⟨g.dropLast, g.getLast hne, (List.dropLast_append_getLast hne).symm⟩
  have hname : (callOf env (init ++ [last])).name = fileName last.msg.timestamp := by
    simp [callOf]
  have hiff := datePrefix_fileName_iff last.msg.timestamp
  rw [RunPure, hname, List.isChain_iff_pairwise]
  constructor
  · intro h
    have hlast := h last (by simp)
    have hsame : ∀ r ∈ init ++ [last], SameDate last r :=
      fun r hr => Calendar.date_eq_of_format (hlast.symm.trans (h r hr))
    refine ⟨fun r hr => ?_, ?_⟩
    · rw [← hsame r hr]
      exact hiff.mp hlast
    · exact List.pairwise_of_forall_mem_list fun a ha b hb => (hsame a ha).symm.trans (hsame b hb)
  · rintro ⟨hyears, hchain⟩ r hr
    have hsame : SameDate r last := by
      rcases List.mem_append.mp hr with hr | hr
      · exact (List.pairwise_append.mp hchain).2.2 r hr last (by simp)
      · rw [List.mem_singleton.mp hr]
        rfl
    rw [hiff.mpr (hyears last (by simp)), Calendar.format_dateLayout, Calendar.format_dateLayout,
      show Calendar.date r.msg.timestamp = _ from hsame]

theorem isChain_imp_iff {l : List α} (h : l.IsChain R) :
    (l.IsChain fun a b => R a b → S a b) ↔ l.IsChain S := by
  induction h with
  | nil => exact iff_of_true .nil .nil
  | singleton a => exact iff_of_true (.singleton a) (.singleton a)
  | cons_cons hr _ ih => rw [List.isChain_cons_cons, List.isChain_cons_cons, ih, imp_iff_right hr]

/-- The steps within the runs are those from a record to one that goes into the same file. -/
theorem steps_iff (records : List Selected) :
    (records.IsChain fun a b => sameFile a b → SameDate a b) ↔
      ∀ g ∈ runs records, g.IsChain SameDate := by
  conv_lhs => rw [← List.flatten_splitBy sameFile records]
  rw [List.isChain_flatten (List.nil_notMem_splitBy sameFile records)]
  have hwithin : ∀ g ∈ runs records,
      ((g.IsChain fun a b => sameFile a b → SameDate a b) ↔ g.IsChain SameDate) :=
    fun g hg => isChain_imp_iff (List.isChain_of_mem_splitBy hg)
  constructor
  · exact fun h g hg => (hwithin g hg).mp (h.1 g hg)
  · intro h
    refine ⟨fun g hg => (hwithin g hg).mpr (h g hg), ?_⟩
    refine (List.isChain_getLast_head_splitBy sameFile records).imp ?_
    rintro g g' ⟨hg, hg', hdiff⟩ x hx y hy hsame
    rw [List.getLast_of_mem_getLast? hx, List.head_of_mem_head? hy, hsame] at hdiff
    cases hdiff

/-- All runs are pure when the dates are steady. -/
theorem runsPure_iff (env : Env) (records : List Selected) :
    (∀ g ∈ runs records, RunPure env g) ↔ SteadyDates records := by
  have hflat : (runs records).flatten = records := List.flatten_splitBy sameFile records
  constructor
  · intro h
    have h := fun g hg => (runPure_iff env (List.ne_nil_of_mem_splitBy hg)).mp (h g hg)
    refine ⟨fun r hr => ?_, (steps_iff records).mpr fun g hg => (h g hg).2⟩
    obtain ⟨g, hg, hr⟩ := List.mem_flatten.mp (hflat ▸ hr)
    exact (h g hg).1 r hr
  · intro h g hg
    refine (runPure_iff env (List.ne_nil_of_mem_splitBy hg)).mpr ⟨fun r hr => ?_, ?_⟩
    · exact h.years r (hflat ▸ List.mem_flatten.mpr ⟨g, hg, hr⟩)
    · exact (steps_iff records).mp h.steps g hg

/-- The calls of some runs are pure when the runs are. -/
theorem datePure_iff (hdone : done <+: runs records) :
    DatePure env records (done.map (callOf env)) ↔ ∀ g ∈ done, RunPure env g := by
  have hspread : Spread env records (done.map (callOf env)) done := by
    refine ⟨by rw [List.map_map]; rfl, ?_⟩
    obtain ⟨rest, hrest⟩ := hdone
    have hflat : (runs records).flatten = records := List.flatten_splitBy sameFile records
    rw [← hflat, ← hrest, List.flatten_append]
    exact List.prefix_append _ _
  have hall : (List.Forall₂ (fun call g => ∀ r ∈ g, datePrefix call.name =
      Calendar.format Calendar.dateLayout r.msg.timestamp) (done.map (callOf env)) done) ↔
      ∀ g ∈ done, RunPure env g := by
    rw [List.forall₂_map_left_iff, List.forall₂_same]
    rfl
  rw [← hall]
  constructor
  · rintro ⟨gs, hgs, hpure⟩
    obtain rfl := hgs.unique hspread
    exact hpure
  · exact fun h => ⟨done, hspread, h⟩

/-- Nothing fails. -/
def Env.Sound (env : Env) : Prop := ∀ n, (env.outcome n).opened ∧ (env.outcome n).written

theorem Env.Sound.writeRuns (h : env.Sound) (gs : List (List Selected)) (d : Dir) :
    (writeRuns env gs d).1 = true := by
  induction gs generalizing d with
  | nil => rfl
  | cons g gs ih =>
    have hwrite : (d.write env (callOf env g)).1 = true := by
      unfold Dir.write
      rw [if_pos (h _).1]
      exact (h _).2
    rw [Telemetry.writeRuns]
    rcases hw : d.write env (callOf env g) with ⟨_ | _, d'⟩ <;> rw [hw] at hwrite
    · cases hwrite
    · exact ih d'

theorem datePure_of_ok (files : Table GoString GoString)
    (h : (createFilesFromMessages env files records).1 = true) :
    DatePure env records (createFilesFromMessages env files records).2.calls ↔
      SteadyDates records := by
  rw [createFilesFromMessages_eq] at h ⊢
  obtain ⟨done, hpre, hcalls, hok⟩ := writeRuns_calls env (runs records) ⟨files, []⟩
  rw [hcalls, List.nil_append, datePure_iff hpre, hok h, runsPure_iff]

/-- Whatever fails and whatever the directory holds, the files carry the dates of all records that
are written to them, exactly when the dates are steady. -/
theorem date_pure_iff (records : List Selected) :
    (∀ env files, DatePure env records (createFilesFromMessages env files records).2.calls) ↔
      SteadyDates records := by
  constructor
  · intro h
    let env : Env := { hostId := [], gzip := id, outcome := fun _ => ⟨true, true, 0⟩ }
    have hsound : env.Sound := fun _ => ⟨rfl, rfl⟩
    have hok : (createFilesFromMessages env (fun _ => none) records).1 = true := by
      rw [createFilesFromMessages_eq]
      exact hsound.writeRuns _ _
    exact (datePure_of_ok _ hok).mp (h env _)
  · intro h env files
    obtain ⟨done, hpre, hcalls, -⟩ := writeRuns_calls env (runs records) ⟨files, []⟩
    rw [createFilesFromMessages_eq, hcalls, List.nil_append, datePure_iff hpre]
    exact fun g hg => (runsPure_iff env records).mpr h g (hpre.mem hg)

/-- Of the 15th of January and the 15th of February 2015, both records go into the file of the
second one. -/
theorem two_months_one_file :
    (onDay 735612).msg.timestamp ≤ (onDay 735643).msg.timestamp ∧
      (createFilesFromMessages soundEnv (fun _ => none) [onDay 735612, onDay 735643]).2.calls.map
        (fun call => (datePrefix call.name, call.content.count '\n')) = [(lit "20150215", 2)] ∧
      Calendar.format Calendar.dateLayout (onDay 735612).msg.timestamp = lit "20150115" ∧
      ¬DatePure soundEnv [onDay 735612, onDay 735643] (createFilesFromMessages soundEnv
        (fun _ => none) [onDay 735612, onDay 735643]).2.calls := by
  refine ⟨by decide, by decide +kernel, by decide +kernel, fun h => ?_⟩
  have hsteady := (datePure_of_ok _ (by decide +kernel)).mp h
  have hsame := (List.isChain_cons_cons.mp hsteady.steps).1 (by decide +kernel)
  exact absurd hsame (by decide +kernel)

end Pinger.Telemetry

import Mathlib.Data.List.Dedup
import Pinger.Lib.Path
import Pinger.Telemetry.Files

/-! # The directory of the telemetry writer

The names of the files, and where in the bucket they go. A name is the time of a record at a
resolution of a millisecond, so two records of different milliseconds never share a file unless one
of them is not the last of its file. What `createFilesFromMessages` does to the directory is to
append whole streams to files that are named by the records. -/

namespace Pinger.Telemetry

open GoString (lit)

/-! ## Names -/

/-- `strings.HasPrefix(name, "plog-")` -/
def isPlog (name : GoString) : Bool := name.hasPrefix (lit "plog-")

/-- Where `pushToS3` puts a file: under the path of the prefix and the date in its name. -/
def destPath (uploadPath name : GoString) : GoString :=
  GoString.joinRooted [uploadPath, lit "/", datePrefix name, lit "/", name]

example : destPath (lit "/telemetry/") (lit "plog-20150115120000.gz") =
    lit "/telemetry/20150115/plog-20150115120000.gz" := by decide +kernel

/-- The digits of the time in the name. -/
theorem fileName_eq (t : Int) : fileName t = lit "plog-" ++
    (Calendar.format Calendar.dateLayout t ++
      ((Calendar.format Calendar.clockLayout t).erase '.' ++ lit ".gz")) := by
  unfold fileName
  rw [Calendar.format_append, List.erase_append_right _ (Calendar.point_not_mem_format_date t),
    List.append_assoc (lit "plog-"), List.append_assoc (Calendar.format _ t)]

theorem isPlog_fileName (t : Int) : isPlog (fileName t) := by
  rw [fileName_eq]
  exact List.isPrefixOf_iff_prefix.mpr (List.prefix_append _ _)

theorem slash_not_mem_fileName (t : Int) : '/' ∉ fileName t := by
  have hformat : ∀ layout, Calendar.Std.text '/' ∉ layout → '/' ∉ Calendar.format layout t := by
    intro layout hlayout h
    rcases Calendar.mem_format h with h | h | h | h
    · exact absurd h (by decide)
    · exact absurd h (by decide)
    · exact absurd h (by decide)
    · exact hlayout h
  rw [fileName_eq]
  simp only [List.mem_append, not_or]
  refine ⟨by decide, hformat _ (by decide), fun h => ?_, by decide⟩
  exact hformat _ (by decide) (List.mem_of_mem_erase h)

/-- A name that the writer makes is long enough for its date. -/
theorem length_fileName (t : Int) : 13 ≤ (fileName t).length := by
  have hdate := Calendar.eight_le_length_format_date t
  have hplog : (lit "plog-").length = 5 := rfl
  rw [fileName_eq, List.length_append, List.length_append, hplog]
  omega

/-- The times of the years of at most four digits, in milliseconds. -/
structure Stamp (t : Int) : Prop where
  pos : 0 ≤ t
  lt : t < Calendar.fiveDigitYears
  whole : t % 1000000 = 0

/-- Records of different milliseconds have different names. -/
theorem fileName_injective (ht : Stamp t) (ht' : Stamp t') (h : fileName t = fileName t') :
    t = t' := by
  have hdate := (Calendar.length_format_date t).mpr (Calendar.date_year ht.pos ht.lt)
  have hdate' := (Calendar.length_format_date t').mpr (Calendar.date_year ht'.pos ht'.lt)
  rw [fileName_eq, fileName_eq] at h
  obtain ⟨hformat, h⟩ := List.append_inj (List.append_cancel_left h) (hdate.trans hdate'.symm)
  have hms := Calendar.millisecond_determined (Calendar.date_eq_of_format hformat)
    (List.append_cancel_right h)
  have := ht.whole
  have := ht'.whole
  omega

/-- A file that `upload` pushes without a panic. -/
structure Uploadable (name : GoString) : Prop where
  plog : isPlog name
  length : 13 ≤ name.length
  slash : '/' ∉ name

theorem uploadable_fileName (t : Int) : Uploadable (fileName t) :=
  ⟨isPlog_fileName t, length_fileName t, slash_not_mem_fileName t⟩

theorem Uploadable.ordinary (h : Uploadable name) : GoString.Ordinary name := by
  obtain ⟨rest, rfl⟩ := List.isPrefixOf_iff_prefix.mp h.plog
  exact ⟨h.slash, nofun, nofun, nofun⟩

theorem Uploadable.ordinary_datePrefix (h : Uploadable name) :
    GoString.Ordinary (datePrefix name) := by
  have hlen : (datePrefix name).length = 8 := by
    have := h.length
    rw [datePrefix, List.length_take, List.length_drop]
    omega
  refine ⟨fun hmem => ?_, ?_, ?_, ?_⟩
  · exact h.slash (List.mem_of_mem_drop (List.mem_of_mem_take hmem))
  all_goals
    intro heq
    rw [heq] at hlen
    cases hlen

/-- The path of a file in the bucket ends in its date and its name, whatever the prefix is. -/
theorem destPath_eq (uploadPath : GoString) (h : Uploadable name) : destPath uploadPath name =
    (GoString.cleanElems (lit "/" ++ '/' :: uploadPath)).flatMap ('/' :: ·) ++
      '/' :: datePrefix name ++ '/' :: name := by
  rw [destPath, GoString.joinRooted]
  simp only [List.foldl_cons, List.foldl_nil]
  rw [GoString.cleanElems_ordinary h.ordinary, GoString.rooted_concat, GoString.cleanElems_slash,
    GoString.cleanElems_ordinary h.ordinary_datePrefix, GoString.cleanElems_slash,
    List.flatMap_append, List.flatMap_singleton]

/-- Files of different names go to different places. -/
theorem destPath_injective (h : Uploadable name) (h' : Uploadable name')
    (heq : destPath uploadPath name = destPath uploadPath name') : name = name' := by
  rw [destPath_eq _ h, destPath_eq _ h'] at heq
  exact (GoString.last_sep_inj heq h.slash h'.slash).2

/-! ## Streams -/

/-- The bytes are followed by the streams of some texts. -/
def Extends (gzip : GoString → GoString) (b b' : GoString) : Prop :=
  ∃ texts : List GoString, b' = b ++ texts.flatMap gzip

/-- The bytes are the streams of some texts, and one of these has a line that was made from the
row. -/
def HasRow (gzip : GoString → GoString) (hostId b : GoString) (row : TelemetryLogMsg) : Prop :=
  ∃ texts : List GoString, b = texts.flatMap gzip ∧
    ∃ text ∈ texts, ∃ now, jsonString hostId now row ∈ GoString.split '\n' text

theorem Extends.refl (gzip : GoString → GoString) (b : GoString) : Extends gzip b b :=
  ⟨[], (List.append_nil b).symm⟩

theorem Extends.trans (h : Extends gzip a b) (h' : Extends gzip b c) : Extends gzip a c := by
  obtain ⟨texts, rfl⟩ := h
  obtain ⟨texts', rfl⟩ := h'
  exact ⟨texts ++ texts', by rw [List.flatMap_append, List.append_assoc]⟩

theorem HasRow.extends (h : HasRow gzip hostId b row) (hb : Extends gzip b b') :
    HasRow gzip hostId b' row := by
  obtain ⟨texts, rfl, text, htext, hline⟩ := h
  obtain ⟨texts', rfl⟩ := hb
  exact ⟨texts ++ texts', List.flatMap_append.symm, text, List.mem_append_left _ htext, hline⟩

theorem line_mem_split (env : Env) {g : List Selected} (hr : r ∈ g) :
    jsonString env.hostId r.now r.msg ∈ GoString.split '\n' (g.flatMap (·.line env)) := by
  induction g with
  | nil => cases hr
  | cons r' g ih =>
    rw [List.flatMap_cons, Selected.line, List.append_assoc, List.singleton_append,
      GoString.split_first (jsonString_no_newline _ _ _)]
    rcases List.mem_cons.mp hr with rfl | hr
    · exact List.mem_cons_self
    · exact List.mem_cons_of_mem _ (ih hr)

/-! ## What the calls leave in the files -/

/-- Each call whose file is opened gets its whole stream into the file. -/
def Whole (env : Env) (calls : List Call) : Prop :=
  ∀ p ∈ calls.zipIdx, (env.outcome p.2).opened → p.1.landed env p.2 = env.gzip p.1.content

instance (env : Env) (calls : List Call) : Decidable (Whole env calls) :=
  inferInstanceAs (Decidable (∀ p ∈ calls.zipIdx, _))

/-- The texts that the calls have put into the file of this name. -/
def landedTexts (env : Env) (calls : List Call) (name : GoString) : List GoString :=
  calls.zipIdx.filterMap fun (call, n) =>
    if call.name = name ∧ (env.outcome n).opened then some call.content else none

theorem landedTexts_snoc (env : Env) (calls : List Call) (call : Call) (name : GoString) :
    landedTexts env (calls ++ [call]) name = landedTexts env calls name ++
      if call.name = name ∧ (env.outcome calls.length).opened then [call.content] else [] := by
  rw [landedTexts, List.zipIdx_append, List.filterMap_append, landedTexts]
  congr 1
  simp only [List.zipIdx_singleton, List.filterMap_cons, List.filterMap_nil, Nat.zero_add]
  split
  next h => split at h <;> simp_all
  next h => split at h <;> simp_all

theorem mem_landedTexts (h : (call, n) ∈ calls.zipIdx) (hopen : (env.outcome n).opened) :
    call.content ∈ landedTexts env calls call.name :=
  List.mem_filterMap.mpr ⟨(call, n), h, if_pos ⟨rfl, hopen⟩⟩

/-- A file into which nothing was put is as before, and another has its old bytes and then the
streams of the texts. -/
def Filled (env : Env) (files : Table GoString GoString) (d : Dir) : Prop :=
  ∀ name, d.files name = if landedTexts env d.calls name = [] then files name
    else some (contentOf files name ++ (landedTexts env d.calls name).flatMap env.gzip)

variable {env : Env} {files : Table GoString GoString} {d : Dir} {records : List Selected}

theorem Filled.content (h : Filled env files d) (name : GoString) : contentOf d.files name =
    contentOf files name ++ (landedTexts env d.calls name).flatMap env.gzip := by
  rw [contentOf, h name]
  split
  next hnil => rw [hnil, List.flatMap_nil, List.append_nil, contentOf]
  next => rfl

theorem Whole.of_append (h : Whole env (calls ++ calls')) : Whole env calls := by
  intro p hp
  apply h
  rw [List.zipIdx_append]
  exact List.mem_append_left _ hp

theorem Filled.write (h : Filled env files d) (call : Call)
    (hwhole : Whole env (d.calls ++ [call])) : Filled env files (d.write env call).2 := by
  intro name
  have hcontent := h.content call.name
  have hsnoc := landedTexts_snoc env d.calls call name
  rw [write_calls]
  unfold Dir.write
  dsimp only
  split
  next hopen =>
    have hlanded : call.landed env d.calls.length = env.gzip call.content :=
      hwhole (call, d.calls.length) (by simp [List.zipIdx_append]) hopen
    dsimp only
    by_cases hname : call.name = name
    · subst hname
      rw [if_pos ⟨rfl, hopen⟩] at hsnoc
      rw [hsnoc, if_neg (by simp), Table.put_self, hlanded, ← contentOf, hcontent,
        List.flatMap_append, List.flatMap_singleton, List.append_assoc]
    · rw [if_neg fun hn => hname hn.1, List.append_nil] at hsnoc
      rw [hsnoc, Table.put_of_ne (Ne.symm hname)]
      exact h name
  next hopen =>
    rw [if_neg fun hn => hopen hn.2, List.append_nil] at hsnoc
    rw [hsnoc]
    exact h name

theorem Filled.writeRuns (h : Filled env files d) (gs : List (List Selected))
    (hwhole : Whole env (writeRuns env gs d).2.calls) :
    Filled env files (writeRuns env gs d).2 := by
  induction gs generalizing d with
  | nil => exact h
  | cons g gs ih =>
    have hcalls := write_calls env d (callOf env g)
    have hwrite := h.write (callOf env g)
    rw [Telemetry.writeRuns] at hwhole ⊢
    rcases hw : d.write env (callOf env g) with ⟨_ | _, d'⟩ <;> rw [hw] at hwrite hcalls hwhole
    · exact hwrite (hcalls ▸ hwhole)
    · refine ih (hwrite ?_) hwhole
      obtain ⟨done, -, hdone, -⟩ := writeRuns_calls env gs d'
      rw [hdone, hcalls] at hwhole
      exact hwhole.of_append

theorem filled_createFiles (files : Table GoString GoString) (records : List Selected)
    (hwhole : Whole env (createFilesFromMessages env files records).2.calls) :
    Filled env files (createFilesFromMessages env files records).2 := by
  rw [createFilesFromMessages_eq] at hwhole ⊢
  exact Filled.writeRuns (fun _ => rfl) _ hwhole

/-- The calls are named by records. -/
theorem call_name (h : call ∈ (createFilesFromMessages env files records).2.calls) :
    ∃ r ∈ records, call.name = fileName r.msg.timestamp := by
  rw [createFilesFromMessages_eq] at h
  obtain ⟨done, hpre, hcalls, -⟩ := writeRuns_calls env (runs records) ⟨files, []⟩
  rw [hcalls, List.nil_append] at h
  obtain ⟨g, hg, rfl⟩ := List.mem_map.mp h
  have hne := List.ne_nil_of_mem_splitBy (hpre.mem hg)
  refine ⟨g.getLast hne, ?_, by rw [callOf, List.getLast?_eq_some_getLast hne]; rfl⟩
  have hflat : (runs records).flatten = records := List.flatten_splitBy sameFile records
  exact hflat ▸ List.mem_flatten.mpr ⟨g, hpre.mem hg, List.getLast_mem hne⟩

theorem landedTexts_name (h : landedTexts env calls name ≠ []) :
    ∃ call ∈ calls, call.name = name := by
  obtain ⟨text, htext⟩ := List.exists_mem_of_ne_nil _ h
  obtain ⟨⟨call, n⟩, hcall, hif⟩ := List.mem_filterMap.mp htext
  dsimp only at hif
  split at hif
  next hname => exact ⟨call, (List.mem_zipIdx' hcall).2 ▸ List.getElem_mem _, hname.1⟩
  next => cases hif

/-- A file is left alone, or it is named by a record and streams are appended to it. -/
theorem createFiles_file
    (hwhole : Whole env (createFilesFromMessages env files records).2.calls) (name : GoString) :
    (createFilesFromMessages env files records).2.files name = files name ∨
      (∃ r ∈ records, name = fileName r.msg.timestamp) ∧
        ∃ content, (createFilesFromMessages env files records).2.files name = some content ∧
          Extends env.gzip (contentOf files name) content := by
  have hname := filled_createFiles files records hwhole name
  split at hname
  next => exact .inl hname
  next hne =>
    obtain ⟨call, hcall, rfl⟩ := landedTexts_name hne
    exact .inr ⟨call_name hcall, _, hname, _, rfl⟩

/-- When no error is returned, every file was opened. -/
theorem writeRuns_opened (h : (writeRuns env gs d).1 = true) (hn : n < gs.length) :
    (env.outcome (d.calls.length + n)).opened := by
  induction gs generalizing d n with
  | nil => cases hn
  | cons g gs ih =>
    have hcalls := write_calls env d (callOf env g)
    have hopen : (d.write env (callOf env g)).1 = true → (env.outcome d.calls.length).opened := by
      unfold Dir.write
      dsimp only
      split
      next hopen => exact fun _ => hopen
      next => exact fun h => by cases h
    rw [writeRuns] at h
    rcases hw : d.write env (callOf env g) with ⟨_ | _, d'⟩ <;> rw [hw] at h hopen hcalls
    · cases h
    · cases n with
      | zero => exact hopen rfl
      | succ n =>
        have := ih h (Nat.lt_of_succ_lt_succ hn)
        rw [hcalls, List.length_append] at this
        rwa [Nat.add_comm n, ← Nat.add_assoc]

/-- When no error is returned, each record is in the file of its run. -/
theorem createFiles_row (hok : (createFilesFromMessages env files records).1 = true)
    (hwhole : Whole env (createFilesFromMessages env files records).2.calls) (hr : r ∈ records) :
    ∃ name content, ∃ texts : List GoString,
      (createFilesFromMessages env files records).2.files name = some content ∧
      isPlog name ∧ content = contentOf files name ++ texts.flatMap env.gzip ∧
      ∃ text ∈ texts, jsonString env.hostId r.now r.msg ∈ GoString.split '\n' text := by
  have hfilled := filled_createFiles files records hwhole
  rw [createFilesFromMessages_eq] at hok hfilled ⊢
  obtain ⟨done, -, hcalls, hdone⟩ := writeRuns_calls env (runs records) ⟨files, []⟩
  obtain rfl := hdone hok
  have hflat : (runs records).flatten = records := List.flatten_splitBy sameFile records
  obtain ⟨g, hg, hrg⟩ := List.mem_flatten.mp (hflat ▸ hr)
  obtain ⟨n, hn, rfl⟩ := List.mem_iff_getElem.mp hg
  have hopen := writeRuns_opened hok hn
  rw [List.length_nil, Nat.zero_add] at hopen
  -- the text of the run is one of those that were put into its file
  have htext : (callOf env (runs records)[n]).content ∈ landedTexts env
      (writeRuns env (runs records) ⟨files, []⟩).2.calls (callOf env (runs records)[n]).name := by
    refine mem_landedTexts ?_ hopen
    rw [hcalls, List.nil_append, List.mk_mem_zipIdx_iff_getElem?, List.getElem?_map,
      List.getElem?_eq_getElem hn]
    rfl
  have hname := hfilled (callOf env (runs records)[n]).name
  rw [if_neg (List.ne_nil_of_mem htext)] at hname
  exact ⟨_, _, _, hname, isPlog_fileName _, rfl, _, htext, line_mem_split env hrg⟩

/-! ## The directory -/

/-- The regular files of the directory. -/
structure Folder where
  names : List GoString
  files : Table GoString GoString
  nodup : names.Nodup
  listed : ∀ name, name ∈ names ↔ (files name).isSome
  slash : ∀ name ∈ names, '/' ∉ name

/-- A file was there before, or a call has its name. -/
def Named (files : Table GoString GoString) (d : Dir) : Prop :=
  ∀ name, (d.files name).isSome → (files name).isSome ∨ ∃ call ∈ d.calls, call.name = name

theorem Named.write (h : Named files d) (call : Call) : Named files (d.write env call).2 := by
  intro name hname
  rw [write_calls]
  have hmono : (d.files name).isSome → (files name).isSome ∨
      ∃ call' ∈ d.calls ++ [call], call'.name = name := by
    intro hname
    rcases h name hname with h | ⟨call', hcall, heq⟩
    · exact .inl h
    · exact .inr ⟨call', List.mem_append_left _ hcall, heq⟩
  unfold Dir.write at hname
  dsimp only at hname
  split at hname <;> dsimp only at hname
  · by_cases heq : call.name = name
    · exact .inr ⟨call, by simp, heq⟩
    · refine hmono ?_
      rwa [Table.put_of_ne (Ne.symm heq)] at hname
  · exact hmono hname

theorem Named.writeRuns (h : Named files d) (gs : List (List Selected)) :
    Named files (writeRuns env gs d).2 := by
  induction gs generalizing d with
  | nil => exact h
  | cons g gs ih =>
    have hwrite : Named files (d.write env (callOf env g)).2 := h.write (callOf env g)
    rw [Telemetry.writeRuns]
    rcases hw : d.write env (callOf env g) with ⟨_ | _, d'⟩ <;> rw [hw] at hwrite
    · exact hwrite
    · exact ih hwrite

theorem named_createFiles (env : Env) (files : Table GoString GoString) (records : List Selected) :
    Named files (createFilesFromMessages env files records).2 := by
  rw [createFilesFromMessages_eq]
  exact Named.writeRuns (fun _ => .inl) _

namespace Folder

/-- The names after the files of some calls have been written. -/
def namesAfter (f : Folder) (d : Dir) : List GoString :=
  (f.names ++ d.calls.map Call.name).dedup.filter fun name => (d.files name).isSome

def createFilesFromMessages (env : Env) (f : Folder) (records : List Selected) : Bool × Folder :=
  ((Telemetry.createFilesFromMessages env f.files records).1, {
    names := f.namesAfter (Telemetry.createFilesFromMessages env f.files records).2
    files := (Telemetry.createFilesFromMessages env f.files records).2.files
    nodup := (List.nodup_dedup _).filter _
    listed := fun name => by
      rw [namesAfter, List.mem_filter, List.mem_dedup, List.mem_append, List.mem_map]
      refine and_iff_right_of_imp fun h => ?_
      exact (named_createFiles env f.files records name h).imp_left (f.listed name).mpr
    slash := fun name h => by
      rw [namesAfter, List.mem_filter, List.mem_dedup, List.mem_append, List.mem_map] at h
      rcases h.1 with h | ⟨call, hcall, rfl⟩
      · exact f.slash name h
      · obtain ⟨r, -, heq⟩ := call_name hcall
        exact heq ▸ slash_not_mem_fileName _ })

/-- `os.Remove` -/
def remove (f : Folder) (name : GoString) : Folder where
  names := f.names.erase name
  files := f.files.delete name
  nodup := f.nodup.erase name
  listed := fun name' => by
    rw [f.nodup.mem_erase_iff, f.listed, Table.delete, Function.update_apply]
    split
    next h => exact iff_of_false (fun hn => hn.1 h) nofun
    next h => exact and_iff_right h
  slash := fun name' h => f.slash name' (List.mem_of_mem_erase h)

theorem remove_self (f : Folder) (name : GoString) : (f.remove name).files name = none :=
  Function.update_self ..

theorem remove_of_ne (f : Folder) (h : name' ≠ name) :
    (f.remove name).files name' = f.files name' := Function.update_of_ne h ..

end Folder

end Pinger.Telemetry

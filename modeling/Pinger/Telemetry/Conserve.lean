import Pinger.Telemetry.Upload

/-! # From the log table to the bucket

A push overwrites what is in the bucket under the same name. Nothing is lost by this in one process:
`lastRead` is past the time in the name of every file when the files are pushed, so no later file
takes one of their names. The next process starts with `lastRead` at zero: a row of a millisecond
whose file has been pushed and removed then makes a new file under the old name, and the push of it
overwrites the object. So a restart has to find no object with such a name. A stream of which only a
part gets into its file is not a stream any more, and is left out. -/

namespace Pinger.Telemetry

open Transition

/-! ## The invariant -/

/-- A file of telemetry has a line made from the row. -/
def InFolder (cfg : Config) (s : Pipeline) (row : TelemetryLogMsg) : Prop :=
  ∃ name content, isPlog name ∧ s.folder.files name = some content ∧
    HasRow cfg.gzip cfg.hostId content row

/-- An object under the upload prefix has a line made from the row. -/
def InBucket (cfg : Config) (s : Pipeline) (row : TelemetryLogMsg) : Prop :=
  ∃ path ∈ cfg.uploadPath, ∃ name obj, s.bucket (destPath path name) = some obj ∧
    HasRow cfg.gzip cfg.hostId obj row

def Kept (cfg : Config) (s : Pipeline) (row : TelemetryLogMsg) : Prop :=
  row ∈ s.writer.table ∨ InFolder cfg s row ∨ InBucket cfg s row

/-- No object has the name of a time that may still be selected, unless its file is still there. -/
def Unclaimed (cfg : Config) (s : Pipeline) : Prop :=
  ∀ path ∈ cfg.uploadPath, ∀ t, Live s.writer t → s.folder.files (fileName t) = none →
    s.bucket (destPath path (fileName t)) = none

/-- The files are whole streams, none is named by a time to come, and a file has all of the object
that is in the bucket under its name. -/
structure Intact (cfg : Config) (s : Pipeline) : Prop where
  streams : ∀ name content, s.folder.files name = some content →
    ∃ texts : List GoString, content = texts.flatMap cfg.gzip
  past : ∀ t, Stamp t → round s.writer.now < t → s.folder.files (fileName t) = none
  grown : ∀ path ∈ cfg.uploadPath, ∀ name content obj, Uploadable name →
    s.folder.files name = some content → s.bucket (destPath path name) = some obj →
      Extends cfg.gzip obj content
  unclaimed : Unclaimed cfg s

/-- A process that begins: it is as after a restart, what the table holds is of the past, and the
directory and the bucket are intact. -/
structure Begun (cfg : Config) (s : Pipeline) : Prop where
  fresh : s.restart = s
  steady : Steady s.writer
  intact : Intact cfg s

/-- The clock stays in the years of four digits, a stream whose file is opened gets into it as a
whole, and a restart finds no object with the name of a time that may still be selected. -/
def Careful (cfg : Config) (s : Pipeline) : PipelineAct → Prop
  | .writer (.tick d) => round (s.writer.now + d) < Calendar.fiveDigitYears
  | .file outcome uploadedAt => ∀ messages, s.writer.uploader = .filing messages →
      Whole (cfg.env outcome) (createFilesFromMessages (cfg.env outcome) s.folder.files
        (filed messages uploadedAt)).2.calls
  | .restart => Unclaimed cfg s.restart
  | _ => True

structure Sound (cfg : Config) (s : Pipeline) : Prop where
  steady : Steady s.writer
  intact : Intact cfg s
  written : ∀ messages, s.writer.uploader = .deleting messages →
    ∀ msg ∈ messages, InFolder cfg s msg
  idle : s.writer.uploader ≠ .uploading → s.upload = .reading
  settled : s.writer.uploader = .uploading →
    ∀ t, Live s.writer t → s.folder.files (fileName t) = none
  pushing : ∀ entries, s.upload = .pushing entries → ∀ name ∈ entries, isPlog name ∧ '/' ∉ name
  removing : ∀ name entries, s.upload = .removing name entries → Uploadable name ∧
    (∀ name ∈ entries, isPlog name ∧ '/' ∉ name) ∧ ∃ path ∈ cfg.uploadPath,
      s.bucket (destPath path name) = s.folder.files name

/-- No row is lost and no object shrinks. -/
structure Conserves (cfg : Config) (s s' : Pipeline) : Prop where
  row : ∀ row, Kept cfg s row → Kept cfg s' row
  object : ∀ key obj, s.bucket key = some obj →
    ∃ obj', s'.bucket key = some obj' ∧ Extends cfg.gzip obj obj'

variable {cfg : Config} {s s' : Pipeline}

theorem Conserves.refl (cfg : Config) (s : Pipeline) : Conserves cfg s s :=
  ⟨fun _ => id, fun _ obj h => ⟨obj, h, .refl cfg.gzip obj⟩⟩

theorem Conserves.trans (h : Conserves cfg s s') (h' : Conserves cfg s' s'') :
    Conserves cfg s s'' := by
  refine ⟨fun row hrow => h'.row row (h.row row hrow), fun key obj hobj => ?_⟩
  obtain ⟨obj', hobj', hext⟩ := h.object key obj hobj
  obtain ⟨obj'', hobj'', hext'⟩ := h'.object key obj' hobj'
  exact ⟨obj'', hobj'', hext.trans hext'⟩

theorem Conserves.of_eq (htable : ∀ row ∈ s.writer.table, Kept cfg s' row)
    (hfolder : s'.folder = s.folder) (hbucket : s'.bucket = s.bucket) : Conserves cfg s s' := by
  refine ⟨fun row hrow => ?_, fun key obj h => ⟨obj, hbucket ▸ h, .refl cfg.gzip obj⟩⟩
  rcases hrow with hrow | ⟨name, content, h⟩ | ⟨path, hpath, name, obj, h⟩
  · exact htable row hrow
  · exact .inr (.inl ⟨name, content, hfolder ▸ h⟩)
  · exact .inr (.inr ⟨path, hpath, name, obj, hbucket ▸ h⟩)

/-- Less may be selected, and no file and no object has changed. -/
theorem Intact.of_live (h : Intact cfg s) (hnow : s.writer.now ≤ s'.writer.now)
    (hlive : ∀ t, Live s'.writer t → Live s.writer t) (hfolder : s'.folder = s.folder)
    (hbucket : s'.bucket = s.bucket) : Intact cfg s' := by
  constructor
  · rw [hfolder]
    exact h.streams
  · intro t ht hlt
    rw [hfolder]
    exact h.past t ht (Int.lt_of_le_of_lt (round_mono hnow) hlt)
  · rw [hfolder, hbucket]
    exact h.grown
  · intro path hpath t ht
    rw [hfolder, hbucket]
    exact h.unclaimed path hpath t (hlive t ht)

/-! ## The steps of the writer in the pipeline -/

/-- A step of the writer that leaves the directory alone. The uploader may come back from an upload,
and then `upload` is at its start again. -/
theorem Sound.moves {a : Act} {writer : Writer} {upload : UploadPc} (h : Sound cfg s)
    (hclock : Stamp (round writer.now)) (hmoves : Moves s.writer a writer) (hfile : a ≠ .file true)
    (hupload : upload = s.upload ∧ (∀ ok, a ≠ .upload ok) ∨
      upload = .reading ∧ writer.uploader = .waiting) :
    Sound cfg { s with writer, upload } ∧ Conserves cfg s { s with writer, upload } := by
  have hlive : ∀ t, Live writer t → Live s.writer t := fun t => Live.moves h.steady hmoves
  have hdeleting : ∀ messages, s.writer.uploader = .deleting messages →
      Selection s.writer messages := fun messages hup => h.steady.selected messages (.inr hup)
  refine ⟨⟨h.steady.moves hclock hmoves, h.intact.of_live (now_moves hmoves) hlive rfl rfl,
    ?_, ?_, ?_, ?_, ?_⟩, .of_eq ?_ rfl rfl⟩
  · intro messages hup msg hmsg
    rcases deleting_moves hmoves hup with ⟨ha, -⟩ | ⟨messages', hup', hsub⟩
    · exact absurd ha hfile
    · exact h.written messages' hup' msg (hsub msg hmsg)
  · intro hup
    rcases hupload with ⟨rfl, ha⟩ | ⟨rfl, -⟩
    · refine h.idle fun hup' => ?_
      rcases uploading_stays hmoves hup' with hup' | ⟨ok, hok⟩
      · exact hup hup'
      · exact ha ok hok
    · rfl
  · intro hup t ht
    rcases uploading_moves hmoves hup with hup' | hlast
    · exact h.settled hup' t (hlive t ht)
    · -- `lastRead` has just been set: what may still be selected lies in the future
      have hnow := round_mono (now_moves hmoves)
      have hunread : writer.lastRead < t := ht.unread
      exact h.intact.past t ht.stamp (by omega)
  · intro entries hpushing
    rcases hupload with ⟨rfl, -⟩ | ⟨rfl, -⟩
    · exact h.pushing entries hpushing
    · cases hpushing
  · intro name entries hremoving
    rcases hupload with ⟨rfl, -⟩ | ⟨rfl, -⟩
    · exact h.removing name entries hremoving
    · cases hremoving
  · intro row hrow
    rcases row_moves h.steady.ids hdeleting hmoves hrow with hrow | ⟨messages, hup⟩
    · exact .inl hrow
    · exact .inr (.inl (h.written _ hup row List.mem_cons_self))

theorem returns_sound (h : Sound cfg s) (hs : s.returns ok = some s') :
    Sound cfg s' ∧ Conserves cfg s s' := by
  obtain ⟨writer, hw, rfl⟩ := Option.map_eq_some_iff.mp hs
  have hmoves := Telemetry.moves hw
  have hwriter : writer = { s.writer with uploader := .waiting } := by
    simp only [Writer.step] at hw
    split at hw <;> cases hw
    rfl
  exact h.moves (by rw [hwriter]; exact h.steady.clock) hmoves (fun h => by cases h)
    (.inr ⟨rfl, by rw [hwriter]⟩)

/-! ## Files -/

/-- The files of a folder are whole streams. -/
theorem streams_contentOf (h : ∀ name content, files name = some content →
      ∃ texts : List GoString, content = texts.flatMap gzip) (name : GoString) :
    ∃ texts : List GoString, contentOf files name = texts.flatMap gzip := by
  rw [contentOf]
  cases hname : files name with
  | none => exact ⟨[], rfl⟩
  | some content => exact h name content hname

/-- What a call of `createFilesFromMessages` may leave of the files: a file is as it was, or it is
named by a time that has been selected and streams have been appended to it. -/
def Refiled (cfg : Config) (s : Pipeline) (files : Table GoString GoString) : Prop :=
  ∀ name, files name = s.folder.files name ∨
    (∃ t, name = fileName t ∧ Live s.writer t ∧ t ≤ round s.writer.now) ∧
      ∃ content, files name = some content ∧
        Extends cfg.gzip (contentOf s.folder.files name) content

namespace Refiled

variable {files : Table GoString GoString} {writer : Writer} {folder : Folder}

/-- Every file has what it had. -/
theorem grown (h : Refiled cfg s files) (hname : s.folder.files name = some content) :
    ∃ content', files name = some content' ∧ Extends cfg.gzip content content' := by
  rcases h name with heq | ⟨-, content', hcontent', hext⟩
  · exact ⟨content, heq.trans hname, .refl cfg.gzip content⟩
  · rw [contentOf, hname] at hext
    exact ⟨content', hcontent', hext⟩

theorem streams (h : Refiled cfg s files) (hi : Intact cfg s) (hname : files name = some content) :
    ∃ texts : List GoString, content = texts.flatMap cfg.gzip := by
  rcases h name with heq | ⟨-, content', hcontent', texts', htexts'⟩
  · exact hi.streams name content (heq.symm.trans hname)
  · obtain rfl : content' = content := Option.some.inj (hcontent'.symm.trans hname)
    obtain ⟨texts, htexts⟩ := streams_contentOf hi.streams name
    exact ⟨texts ++ texts', by rw [htexts', htexts, List.flatMap_append]⟩

theorem past (h : Refiled cfg s files) (hi : Intact cfg s) (ht : Stamp t)
    (hlt : round s.writer.now < t) : files (fileName t) = none := by
  rcases h (fileName t) with heq | ⟨⟨t', hname, hlive, hle⟩, -⟩
  · exact heq.trans (hi.past t ht hlt)
  · rw [fileName_injective ht hlive.stamp hname] at hlt
    exact absurd hlt (Int.not_lt.mpr hle)

/-- What a file has in the bucket, it has had before. -/
theorem object (h : Refiled cfg s files) (hi : Intact cfg s) (hpath : path ∈ cfg.uploadPath)
    (hname : Uploadable name) (hcontent : files name = some content)
    (hobj : s.bucket (destPath path name) = some obj) : Extends cfg.gzip obj content := by
  rcases h name with heq | ⟨⟨t, rfl, hlive, -⟩, content', hcontent', hext'⟩
  · exact hi.grown path hpath name content obj hname (heq.symm.trans hcontent) hobj
  · obtain rfl : content' = content := Option.some.inj (hcontent'.symm.trans hcontent)
    cases hold : s.folder.files (fileName t) with
    | none =>
      -- a new file: no object has its name
      have hnone := hi.unclaimed path hpath t hlive hold
      cases hnone.symm.trans hobj
    | some old =>
      rw [contentOf, hold] at hext'
      exact (hi.grown path hpath _ old obj hname hold hobj).trans hext'

theorem intact (h : Refiled cfg s folder.files) (hi : Intact cfg s)
    (hnow : writer.now = s.writer.now) (hlive : ∀ t, Live writer t → Live s.writer t) :
    Intact cfg { s with writer, folder } where
  streams _ _ hname := h.streams hi hname
  past t ht hlt := h.past hi ht (hnow ▸ hlt)
  grown _ hpath _ _ _ hname hcontent hobj := h.object hi hpath hname hcontent hobj
  unclaimed path hpath t ht hnone := by
    refine hi.unclaimed path hpath t (hlive t ht) ?_
    cases hold : s.folder.files (fileName t) with
    | none => rfl
    | some old =>
      obtain ⟨content', hcontent', -⟩ := h.grown hold
      cases hnone.symm.trans hcontent'

theorem conserves (h : Refiled cfg s folder.files) (htable : writer.table = s.writer.table) :
    Conserves cfg s { s with writer, folder } := by
  refine ⟨fun row hkept => ?_, fun key obj hobj => ⟨obj, hobj, .refl cfg.gzip obj⟩⟩
  rcases hkept with hrow | ⟨name, content, hplog, hcontent, hhas⟩ | hbucket
  · refine .inl ?_
    rw [htable]
    exact hrow
  · obtain ⟨content', hcontent', hext'⟩ := h.grown hcontent
    exact .inr (.inl ⟨name, content', hplog, hcontent', hhas.extends hext'⟩)
  · exact .inr (.inr hbucket)

end Refiled

variable {outcome : Nat → Outcome} {uploadedAt : TelemetryLogMsg → Int}
  {messages : List TelemetryLogMsg}

/-- The rows that are filed have been selected. -/
theorem Sound.filed (h : Sound cfg s) (hup : s.writer.uploader = .filing messages)
    (hr : r ∈ filed messages uploadedAt) :
    Live s.writer r.msg.timestamp ∧ r.msg.timestamp ≤ round s.writer.now := by
  obtain ⟨msg, hmsg, rfl⟩ := List.mem_map.mp hr
  obtain ⟨htable, hlast⟩ := (h.steady.selected messages (.inl hup)).row msg hmsg
  have hcarried : Carried s.writer msg.timestamp := .inl ⟨msg, htable, rfl⟩
  obtain ⟨hstamp, hle⟩ := h.steady.carried _ hcarried
  exact ⟨⟨hstamp, hlast, .inl hcarried⟩, hle⟩

theorem Sound.refiled (h : Sound cfg s) (hup : s.writer.uploader = .filing messages)
    (hwhole : Whole (cfg.env outcome) (createFilesFromMessages (cfg.env outcome) s.folder.files
      (Telemetry.filed messages uploadedAt)).2.calls) :
    Refiled cfg s (createFilesFromMessages (cfg.env outcome) s.folder.files
      (Telemetry.filed messages uploadedAt)).2.files := by
  intro name
  refine (createFiles_file hwhole name).imp id fun ⟨⟨r, hr, hname⟩, hgrown⟩ => ⟨?_, hgrown⟩
  obtain ⟨hlive, hle⟩ := h.filed hup hr
  exact ⟨_, hname, hlive, hle⟩

/-- Each row that has been filed without an error is in a file. -/
theorem inFolder_filed (hi : Intact cfg s)
    (hfolder : s'.folder.files = (createFilesFromMessages (cfg.env outcome) s.folder.files
      (filed messages uploadedAt)).2.files)
    (hok : (createFilesFromMessages (cfg.env outcome) s.folder.files
      (filed messages uploadedAt)).1 = true)
    (hwhole : Whole (cfg.env outcome) (createFilesFromMessages (cfg.env outcome) s.folder.files
      (filed messages uploadedAt)).2.calls) (hmsg : msg ∈ messages) : InFolder cfg s' msg := by
  obtain ⟨name, content, texts, hname, hplog, hcontent, text, htext, hline⟩ :=
    createFiles_row hok hwhole (List.mem_map.mpr ⟨msg, hmsg, rfl⟩)
  obtain ⟨old, hold⟩ := streams_contentOf hi.streams name
  refine ⟨name, content, hplog, hfolder ▸ hname, old ++ texts, ?_, text,
    List.mem_append_right _ htext, _, hline⟩
  rw [hcontent, hold, List.flatMap_append]
  rfl

/-- A file that is written is named by a row that was selected, so what it has in the bucket, if
anything, is what it has already. -/
theorem Sound.file (h : Sound cfg s) (hup : s.writer.uploader = .filing messages)
    (hcareful : Careful cfg s (.file outcome uploadedAt))
    (hs : s.file cfg outcome uploadedAt messages = some s') :
    Sound cfg s' ∧ Conserves cfg s s' := by
  have hwhole := hcareful messages hup
  have hrefiled := h.refiled hup hwhole
  obtain ⟨writer, hw, rfl⟩ := Option.map_eq_some_iff.mp hs
  have hmoves := Telemetry.moves hw
  have hreading : s.upload = .reading := h.idle fun he => by rw [hup] at he; cases he
  -- the uploader goes on to the deletes, or it waits
  have hwriter : writer = { s.writer with
      uploader := if (createFilesFromMessages (cfg.env outcome) s.folder.files
        (Telemetry.filed messages uploadedAt)).1 then .deleting messages else .waiting } := by
    simp only [Writer.step, hup, Option.some.injEq] at hw
    exact hw.symm
  have hsteady : Steady writer :=
    h.steady.moves (by rw [hwriter]; exact h.steady.clock) hmoves
  have hintact : Intact cfg { s with
      writer
      folder := (s.folder.createFilesFromMessages (cfg.env outcome)
        (Telemetry.filed messages uploadedAt)).2 } :=
    hrefiled.intact h.intact (by rw [hwriter]) fun t => Live.moves h.steady hmoves
  refine ⟨⟨hsteady, hintact, ?_, fun _ => hreading, ?_, ?_, ?_⟩,
    hrefiled.conserves (by rw [hwriter])⟩
  · intro messages' hup' msg hmsg
    rw [hwriter] at hup'
    dsimp only at hup'
    split at hup' <;> cases hup'
    next hok => exact inFolder_filed h.intact rfl hok hwhole hmsg
  · intro hup'
    rw [hwriter] at hup'
    dsimp only at hup'
    split at hup' <;> cases hup'
  · intro entries hpushing
    cases hreading.symm.trans hpushing
  · intro name entries hremoving
    cases hreading.symm.trans hremoving

/-! ## The upload -/

/-- The uploader is in `upload` when it is past the beginning of it. -/
theorem Sound.uploading (h : Sound cfg s) (hup : s.upload ≠ .reading) :
    s.writer.uploader = .uploading := by
  by_contra hne
  exact hup (h.idle hne)

/-- In an upload `upload` goes on to another place. -/
theorem Sound.goto (h : Sound cfg s) (hup : s.writer.uploader = .uploading) (upload : UploadPc)
    (hentries : ∀ entries, upload = .pushing entries → ∀ name ∈ entries, isPlog name ∧ '/' ∉ name)
    (hremoving : ∀ name entries, upload = .removing name entries → Uploadable name ∧
      (∀ name ∈ entries, isPlog name ∧ '/' ∉ name) ∧ ∃ path ∈ cfg.uploadPath,
        s.bucket (destPath path name) = s.folder.files name) :
    Sound cfg { s with upload } :=
  ⟨h.steady, ⟨h.intact.streams, h.intact.past, h.intact.grown, h.intact.unclaimed⟩, h.written,
    fun hne => absurd hup hne, h.settled, hentries, hremoving⟩

/-- A push leaves the objects of other files alone, and that of its own file grows to what the file
has. -/
theorem Sound.put (h : Sound cfg s) (hpath : path ∈ cfg.uploadPath) (hname : Uploadable name)
    (hpushing : s.upload = .pushing entries) (hcontent : s.folder.files name = some content) :
    Sound cfg { s with bucket := s.bucket.put (destPath path name) content } ∧
      Conserves cfg s { s with bucket := s.bucket.put (destPath path name) content } := by
  have hother : ∀ path' ∈ cfg.uploadPath, ∀ name', Uploadable name' → name' ≠ name →
      s.bucket.put (destPath path name) content (destPath path' name') =
        s.bucket (destPath path' name') := by
    intro path' hpath' name' hname' hne
    obtain rfl : path' = path := Option.mem_unique hpath' hpath
    exact Table.put_of_ne (fun heq => hne (destPath_injective hname' hname heq)) content
  have hobject : ∀ key obj, s.bucket key = some obj → ∃ obj',
      s.bucket.put (destPath path name) content key = some obj' ∧ Extends cfg.gzip obj obj' := by
    intro key obj hobj
    by_cases hkey : key = destPath path name
    · subst hkey
      exact ⟨content, Table.put_self _ _ _, h.intact.grown path hpath name content obj hname
        hcontent hobj⟩
    · exact ⟨obj, (Table.put_of_ne hkey content).trans hobj, .refl cfg.gzip obj⟩
  refine ⟨⟨h.steady, ⟨h.intact.streams, h.intact.past, ?_, ?_⟩, h.written, h.idle, h.settled,
    h.pushing, ?_⟩, fun row hkept => ?_, hobject⟩
  · intro path' hpath' name' content' obj hname' hcontent' hobj
    by_cases hne : name' = name
    · subst hne
      obtain rfl : path' = path := Option.mem_unique hpath' hpath
      obtain rfl : obj = content := Option.some.inj (hobj.symm.trans (Table.put_self _ _ _))
      obtain rfl : content' = obj := Option.some.inj (hcontent'.symm.trans hcontent)
      exact .refl cfg.gzip content'
    · exact h.intact.grown path' hpath' name' content' obj hname' hcontent'
        ((hother path' hpath' name' hname' hne).symm.trans hobj)
  · intro path' hpath' t ht hnone
    have hne : fileName t ≠ name := by
      rintro rfl
      cases hnone.symm.trans hcontent
    exact (hother path' hpath' _ (uploadable_fileName t) hne).trans
      (h.intact.unclaimed path' hpath' t ht hnone)
  · intro name' entries' hremoving
    cases hpushing.symm.trans hremoving
  · rcases hkept with htable | hfolder | ⟨path', hpath', name', obj, hobj, hhas⟩
    · exact .inl htable
    · exact .inr (.inl hfolder)
    · obtain ⟨obj', hobj', hext⟩ := hobject _ obj hobj
      exact .inr (.inr ⟨path', hpath', name', obj', hobj', hhas.extends hext⟩)

theorem Sound.push (h : Sound cfg s) (hpath : path ∈ cfg.uploadPath)
    (hpushing : s.upload = .pushing (name :: entries))
    (hs : s.push path name entries ok stored = some s') : Sound cfg s' ∧ Conserves cfg s s' := by
  have hentries := h.pushing _ hpushing
  obtain ⟨hplog, hslash⟩ := hentries name List.mem_cons_self
  have hup := h.uploading (by rw [hpushing]; nofun)
  simp only [Pipeline.push] at hs
  split at hs
  · -- the process ends in a panic
    cases hs
    exact ⟨⟨h.steady, ⟨h.intact.streams, h.intact.past, h.intact.grown, h.intact.unclaimed⟩,
      h.written, h.idle, h.settled, h.pushing, h.removing⟩, .of_eq (fun _ => .inl) rfl rfl⟩
  next hlen =>
    have hname : Uploadable name := ⟨hplog, Nat.le_of_not_lt hlen, hslash⟩
    split at hs
    · exact returns_sound h hs
    next content hcontent =>
      have hput := h.put hpath hname hpushing hcontent
      cases ok with
      | true =>
        simp only [true_or, if_true, Option.some.injEq] at hs
        subst hs
        refine ⟨hput.1.goto hup (.removing name entries) (fun _ h => by cases h) ?_,
          hput.2.trans (.of_eq (fun _ => .inl) rfl rfl)⟩
        rintro name' entries' ⟨⟩
        exact ⟨hname, fun name' hmem => hentries name' (List.mem_cons_of_mem _ hmem), path, hpath,
          (Table.put_self _ _ _).trans hcontent.symm⟩
      | false =>
        simp only [Bool.false_eq_true, false_or, if_false] at hs
        split at hs
        · obtain ⟨hsound, hkeeps⟩ := returns_sound hput.1 hs
          exact ⟨hsound, hput.2.trans hkeeps⟩
        · exact returns_sound h hs

/-- A file is removed only when it is in the bucket, and at a time when no row with its name may
still be selected. -/
theorem Sound.remove (h : Sound cfg s) (hremoving : s.upload = .removing name entries) :
    Sound cfg { s with folder := s.folder.remove name, upload := .pushing entries } ∧
      Conserves cfg s { s with folder := s.folder.remove name, upload := .pushing entries } := by
  obtain ⟨hname, hentries, path, hpath, hbucket⟩ := h.removing name entries hremoving
  have hup := h.uploading (by rw [hremoving]; nofun)
  have hsub : ∀ name' content, (s.folder.remove name).files name' = some content →
      name' ≠ name ∧ s.folder.files name' = some content := by
    intro name' content hcontent
    have hne : name' ≠ name := by
      rintro rfl
      cases (s.folder.remove_self name').symm.trans hcontent
    exact ⟨hne, (s.folder.remove_of_ne hne).symm.trans hcontent⟩
  have hnone : ∀ t, s.folder.files (fileName t) = none →
      (s.folder.remove name).files (fileName t) = none := by
    intro t ht
    cases hfile : (s.folder.remove name).files (fileName t) with
    | none => rfl
    | some content => cases ht.symm.trans (hsub _ content hfile).2
  refine ⟨⟨h.steady, ⟨?_, ?_, ?_, ?_⟩, ?_, fun hne => absurd hup hne, ?_, ?_, nofun⟩,
    fun row hkept => ?_, fun key obj hobj => ⟨obj, hobj, .refl cfg.gzip obj⟩⟩
  · exact fun name' content hcontent => h.intact.streams name' content (hsub _ _ hcontent).2
  · exact fun t ht hlt => hnone t (h.intact.past t ht hlt)
  · exact fun path' hpath' name' content obj hname' hcontent =>
      h.intact.grown path' hpath' name' content obj hname' (hsub _ _ hcontent).2
  · exact fun path' hpath' t ht _ => h.intact.unclaimed path' hpath' t ht (h.settled hup t ht)
  · intro messages hdeleting
    cases hup.symm.trans hdeleting
  · exact fun _ t ht => hnone t (h.settled hup t ht)
  · rintro entries' ⟨⟩
    exact hentries
  · rcases hkept with htable | ⟨name', content, hplog, hcontent, hhas⟩ | hobject
    · exact .inl htable
    · by_cases hne : name' = name
      · subst hne
        exact .inr (.inr ⟨path, hpath, name', content, hbucket.trans hcontent, hhas⟩)
      · exact .inr (.inl ⟨name', content, hplog, (s.folder.remove_of_ne hne).trans hcontent, hhas⟩)
    · exact .inr (.inr hobject)

/-! ## Every step -/

theorem Sound.readDir (h : Sound cfg s) (hup : s.writer.uploader = .uploading) :
    Sound cfg { s with upload := .pushing s.entries } := by
  refine h.goto hup _ ?_ nofun
  rintro entries ⟨⟩ name hname
  obtain ⟨hmem, hplog⟩ := List.mem_filter.mp hname
  exact ⟨hplog, s.folder.slash name ((List.mem_insertionSort _).mp hmem)⟩

/-- What the next process may select, the old one might have selected, or `lastRead` was past it. -/
theorem Sound.restart (h : Sound cfg s) (hcareful : Unclaimed cfg s.restart) :
    Sound cfg s.restart ∧ Conserves cfg s s.restart := by
  refine ⟨⟨⟨h.steady.clock, fun t ht => h.steady.carried t ?_, ?_, h.steady.ids, ?_⟩,
    ⟨h.intact.streams, h.intact.past, h.intact.grown, hcareful⟩, nofun, fun _ => rfl, nofun, nofun,
    nofun⟩, .of_eq (fun _ => .inl) rfl rfl⟩
  · exact ht.of_subset (fun _ => id) (fun _ hmsg => hmsg.elim nofun nofun) nofun
  · exact h.steady.clock.pos
  · exact fun messages hup => hup.elim nofun nofun

theorem Sound.act (h : Sound cfg s) (hc : Careful cfg s a) (hs : s.act cfg a = some s') :
    Sound cfg s' ∧ Conserves cfg s s' := by
  cases a with
  | writer a =>
    simp only [Pipeline.act] at hs
    split at hs
    next hact =>
      obtain ⟨writer, hw, rfl⟩ := Option.map_eq_some_iff.mp hs
      refine h.moves ?_ (Telemetry.moves hw) (by rintro rfl; cases hact)
        (.inl ⟨rfl, by rintro ok rfl; cases hact⟩)
      -- only a tick moves the clock
      cases Telemetry.moves hw with
      | tick =>
        have hpos := h.steady.clock.pos
        refine ⟨Int.le_trans hpos (round_mono ?_), hc, ?_⟩
        · exact Int.le_add_of_nonneg_right (Int.natCast_nonneg _)
        · exact Int.mul_emod_left _ _
      | _ => exact h.steady.clock
    next => cases hs
  | file outcome uploadedAt =>
    simp only [Pipeline.act] at hs
    split at hs
    next hup => exact h.file hup hc hs
    next => cases hs
  | readDir ok =>
    simp only [Pipeline.act] at hs
    split at hs
    next hup =>
      split at hs
      · exact returns_sound h hs
      · split at hs
        · cases hs
          exact ⟨h.readDir hup.1, .of_eq (fun _ => .inl) rfl rfl⟩
        · exact returns_sound h hs
    next => cases hs
  | finish =>
    simp only [Pipeline.act] at hs
    split at hs
    · exact returns_sound h hs
    · cases hs
  | push ok stored =>
    simp only [Pipeline.act] at hs
    split at hs
    next path name entries hpath hpushing => exact h.push hpath hpushing hs
    next => cases hs
  | remove ok =>
    simp only [Pipeline.act] at hs
    split at hs
    next name entries hremoving =>
      split at hs
      · cases hs
        exact h.remove hremoving
      · exact returns_sound h hs
    next => cases hs
  | restart => cases hs

theorem Sound.step (h : Sound cfg s) (hc : Careful cfg s a) (hs : s.step cfg a = some s') :
    Sound cfg s' ∧ Conserves cfg s s' := by
  cases a with
  | restart =>
    cases hs
    exact h.restart hc
  | _ =>
    simp only [Pipeline.step] at hs
    split at hs
    · exact h.act hc hs
    · cases hs

theorem Begun.sound (h : Begun cfg s) : Sound cfg s := by
  have hup : s.writer.uploader = .begin := by rw [← h.fresh]; rfl
  have hreading : s.upload = .reading := by rw [← h.fresh]; rfl
  refine ⟨h.steady, h.intact, ?_, fun _ => hreading, ?_, ?_, ?_⟩
  · intro messages hdeleting
    cases hup.symm.trans hdeleting
  · intro huploading
    cases hup.symm.trans huploading
  · intro entries hpushing
    cases hreading.symm.trans hpushing
  · intro name entries hremoving
    cases hreading.symm.trans hremoving

theorem Sound.run (h : Sound cfg s) (hrun : Run (Pipeline.step cfg) (Careful cfg) s as s') :
    Sound cfg s' ∧ Conserves cfg s s' := by
  refine hrun.inv (I := fun t => Sound cfg t ∧ Conserves cfg s t) ?_ ⟨h, .refl cfg s⟩
  intro t a t' ht hc hs
  obtain ⟨hsound, hkeeps⟩ := ht.1.step hc hs
  exact ⟨hsound, ht.2.trans hkeeps⟩

end Pinger.Telemetry

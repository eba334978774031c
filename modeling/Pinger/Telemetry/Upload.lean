import Pinger.Telemetry.Selection

/-! # The upload of the files

After `createFiles` the uploader reads the directory, and it pushes each file of telemetry into the
bucket and then removes it. The writer goes on meanwhile, each call may fail anywhere, and a process
may end anywhere and be replaced by another one. -/

namespace Pinger.Telemetry

open Transition

/-! ## The pipeline -/

/-- What is configured: with no path of an upload prefix nothing is uploaded. -/
structure Config where
  hostId : GoString
  gzip : GoString → GoString
  uploadPath : Option GoString

/-- Where `upload` is; it has not been called, or it is about to read the directory, at first. -/
inductive UploadPc
  | reading
  | pushing (entries : List GoString)
  | removing (name : GoString) (entries : List GoString)
  deriving DecidableEq, Repr

/-- The writer of a process, the directory it writes to, and the bucket. -/
structure Pipeline where
  running : Bool := true
  writer : Writer
  upload : UploadPc := .reading
  folder : Folder
  bucket : Table GoString GoString

/-- `restart` begins a new process in place of the old one, which may have ended anywhere. -/
inductive PipelineAct
  | writer (a : Act)
  | file (outcome : Nat → Outcome) (uploadedAt : TelemetryLogMsg → Int)
  | readDir (ok : Bool)
  | finish
  | push (ok stored : Bool)
  | remove (ok : Bool)
  | restart

def Config.env (cfg : Config) (outcome : Nat → Outcome) : Env := ⟨cfg.hostId, cfg.gzip, outcome⟩

/-- The records that are filed, and when each line is made. -/
def filed (messages : List TelemetryLogMsg) (uploadedAt : TelemetryLogMsg → Int) : List Selected :=
  messages.map fun msg => ⟨msg, uploadedAt msg⟩

namespace Pipeline

/-- The acts of the writer that have no part in the directory. -/
def isWriterAct : Act → Bool
  | .file _ | .upload _ => false
  | _ => true

/-- `upload` returns, and the uploader waits. -/
def returns (s : Pipeline) (ok : Bool) : Option Pipeline :=
  (s.writer.step (.upload ok)).map fun writer => { s with writer, upload := .reading }

def file (cfg : Config) (s : Pipeline) (outcome : Nat → Outcome)
    (uploadedAt : TelemetryLogMsg → Int) (messages : List TelemetryLogMsg) : Option Pipeline :=
  let result := s.folder.createFilesFromMessages (cfg.env outcome) (filed messages uploadedAt)
  (s.writer.step (.file result.1)).map fun writer => { s with writer, folder := result.2 }

/-- The entries in the order of their names, of those that begin with `plog-`. -/
def entries (s : Pipeline) : List GoString :=
  (s.folder.names.insertionSort (· ≤ ·)).filter isPlog

/-- `pushToS3`. The date in a name that is too short is out of range, and there is no `recover`. The
file may be in the bucket although an error is returned. -/
def push (s : Pipeline) (path name : GoString) (entries : List GoString) (ok stored : Bool) :
    Option Pipeline :=
  if name.length < 13 then some { s with running := false }
  else
    match s.folder.files name with
    | none => s.returns false
    | some content =>
      let bucket := if ok ∨ stored then s.bucket.put (destPath path name) content else s.bucket
      if ok then some { s with bucket, upload := .removing name entries }
      else { s with bucket }.returns false

/-- A new writer on the table, the directory and the bucket that the old process has left. -/
def restart (s : Pipeline) : Pipeline where
  writer := { includeDebug := s.writer.includeDebug, now := s.writer.now, table := s.writer.table }
  folder := s.folder
  bucket := s.bucket

def act (cfg : Config) (s : Pipeline) : PipelineAct → Option Pipeline
  | .writer a =>
    if isWriterAct a then (s.writer.step a).map fun writer => { s with writer } else none
  | .file outcome uploadedAt =>
    match s.writer.uploader with
    | .filing messages => s.file cfg outcome uploadedAt messages
    | _ => none
  | .readDir ok =>
    if s.writer.uploader = .uploading ∧ s.upload = .reading then
      match cfg.uploadPath with
      | none => s.returns true
      | some _ => if ok then some { s with upload := .pushing s.entries } else s.returns false
    else none
  | .finish => if s.upload = .pushing [] then s.returns true else none
  | .push ok stored =>
    match cfg.uploadPath, s.upload with
    | some path, .pushing (name :: entries) => s.push path name entries ok stored
    | _, _ => none
  | .remove ok =>
    match s.upload with
    | .removing name entries =>
      if ok then some { s with folder := s.folder.remove name, upload := .pushing entries }
      else s.returns false
    | _ => none
  | .restart => none

def step (cfg : Config) (s : Pipeline) : PipelineAct → Option Pipeline
  | .restart => some s.restart
  | a => if s.running then s.act cfg a else none

end Pipeline

/-! ## One call of `upload` -/

variable {cfg : Config} {s s' : Pipeline}

def isRestart : PipelineAct → Bool
  | .restart => true
  | _ => false

/-- The call has not returned, and the process is not replaced. The other goroutines go on. -/
def InUpload (s : Pipeline) (a : PipelineAct) : Prop :=
  s.writer.uploader = .uploading ∧ isRestart a = false

instance (s : Pipeline) (a : PipelineAct) : Decidable (InUpload s a) :=
  inferInstanceAs (Decidable (_ ∧ _))

/-- A run from the beginning of a call of `upload`, to its end or to somewhere in it. -/
structure UploadCall (cfg : Config) (s : Pipeline) (as : List PipelineAct) (s' : Pipeline) :
    Prop where
  begins : s.upload = .reading
  run : Run (Pipeline.step cfg) InUpload s as s'

/-- What the call has yet to push or to remove. -/
def Pipeline.left (s : Pipeline) : List GoString :=
  match s.upload with
  | .reading => s.entries
  | .pushing entries => entries
  | .removing name entries => name :: entries

/-- A file is as at first, or it is gone and its object has what it had. -/
def Moved (path : GoString) (s₀ s : Pipeline) : Prop :=
  ∀ name content, s₀.folder.files name = some content → s.folder.files name = some content ∨
    Uploadable name ∧ s.folder.files name = none ∧ s.bucket (destPath path name) = some content

/-- The objects that are not those of files are as at first. -/
def Spared (path : GoString) (s₀ s : Pipeline) : Prop :=
  ∀ key, (∀ name, Uploadable name → (s₀.folder.files name).isSome → key ≠ destPath path name) →
    s.bucket key = s₀.bucket key

structure Moving (path : GoString) (s₀ s : Pipeline) : Prop where
  moved : Moved path s₀ s
  spared : Spared path s₀ s
  absent : ∀ name, s₀.folder.files name = none → s.folder.files name = none
  left : ∀ name, isPlog name → (s.folder.files name).isSome → name ∈ s.left
  plog : ∀ name ∈ s.left, isPlog name ∧ '/' ∉ name
  removing : ∀ name entries, s.upload = .removing name entries → Uploadable name ∧
    ∃ content, s₀.folder.files name = some content ∧ s.bucket (destPath path name) = some content

theorem mem_entries : name ∈ s.entries ↔ isPlog name ∧ name ∈ s.folder.names := by
  rw [Pipeline.entries, List.mem_filter, List.mem_insertionSort, and_comm]

theorem moving_start (path : GoString) (hreading : s.upload = .reading) : Moving path s s := by
  have hleft : s.left = s.entries := by rw [Pipeline.left, hreading]
  refine ⟨fun _ _ => .inl, fun _ _ => rfl, fun _ => id, ?_, ?_, ?_⟩
  · intro name hplog hname
    rw [hleft]
    exact mem_entries.mpr ⟨hplog, (s.folder.listed name).mpr hname⟩
  · intro name hname
    rw [hleft] at hname
    obtain ⟨hplog, hmem⟩ := mem_entries.mp hname
    exact ⟨hplog, s.folder.slash name hmem⟩
  · intro name entries hremoving
    cases hreading.symm.trans hremoving

variable {path : GoString} {s₀ : Pipeline}

/-- The directory and the bucket are left alone, and `upload` stays or is at its start again. -/
theorem Moving.of_eq (h : Moving path s₀ s) (hfolder : s'.folder = s.folder)
    (hbucket : s'.bucket = s.bucket) (hupload : s'.upload = s.upload ∨ s'.upload = .reading) :
    Moving path s₀ s' := by
  have hstart : s'.upload = .reading → Moving path s' s' := moving_start path
  have hleft : s'.upload = s.upload → s'.left = s.left := by
    intro hupload
    rw [Pipeline.left, hupload, Pipeline.entries, hfolder]
    rfl
  refine ⟨?_, ?_, ?_, ?_, ?_, ?_⟩
  · rw [Moved, hfolder, hbucket]
    exact h.moved
  · rw [Spared, hbucket]
    exact h.spared
  · rw [hfolder]
    exact h.absent
  · rcases hupload with hupload | hupload
    · rw [hleft hupload, hfolder]
      exact h.left
    · exact (hstart hupload).left
  · rcases hupload with hupload | hupload
    · rw [hleft hupload]
      exact h.plog
    · exact (hstart hupload).plog
  · intro name entries hremoving
    rcases hupload with hupload | hupload
    · rw [hbucket]
      exact h.removing name entries (hupload ▸ hremoving)
    · cases hupload.symm.trans hremoving

theorem Moving.returns (h : Moving path s₀ s) (hs : s.returns ok = some s') :
    Moving path s₀ s' := by
  obtain ⟨writer, -, rfl⟩ := Option.map_eq_some_iff.mp hs
  exact h.of_eq rfl rfl (.inr rfl)

/-- What is in a file during the call was in it at first. -/
theorem Moving.original (h : Moving path s₀ s) (hcontent : s.folder.files name = some content) :
    s₀.folder.files name = some content := by
  cases hold : s₀.folder.files name with
  | none => cases (h.absent name hold).symm.trans hcontent
  | some old =>
    rcases h.moved name old hold with hsame | ⟨-, hgone, -⟩
    · exact hsame.symm.trans hcontent
    · cases hgone.symm.trans hcontent

/-- A push writes the object of its own file. -/
theorem Moving.put (h : Moving path s₀ s) (hname : Uploadable name)
    (hpushing : s.upload = .pushing (name :: entries))
    (hcontent : s.folder.files name = some content) :
    Moving path s₀ { s with bucket := s.bucket.put (destPath path name) content } := by
  refine ⟨?_, ?_, h.absent, h.left, h.plog, ?_⟩
  · intro name' content' hold
    rcases h.moved name' content' hold with hsame | ⟨hname', hgone, hobj⟩
    · exact .inl hsame
    · refine .inr ⟨hname', hgone, ?_⟩
      have hne : destPath path name' ≠ destPath path name := by
        intro heq
        cases destPath_injective hname' hname heq
        cases hgone.symm.trans hcontent
      exact (Table.put_of_ne hne content).trans hobj
  · intro key hkey
    have hne := hkey name hname (by rw [h.original hcontent]; rfl)
    exact (Table.put_of_ne hne content).trans (h.spared key hkey)
  · intro name' entries' hremoving
    cases hpushing.symm.trans hremoving

theorem Moving.push (h : Moving path s₀ s) (hpushing : s.upload = .pushing (name :: entries))
    (hs : s.push path name entries ok stored = some s') : Moving path s₀ s' := by
  have hleft : s.left = name :: entries := by rw [Pipeline.left, hpushing]
  obtain ⟨hplog, hslash⟩ := h.plog name (hleft ▸ List.mem_cons_self)
  simp only [Pipeline.push] at hs
  split at hs
  · cases hs
    exact h.of_eq rfl rfl (.inl rfl)
  next hlen =>
    have hname : Uploadable name := ⟨hplog, Nat.le_of_not_lt hlen, hslash⟩
    split at hs
    · exact h.returns hs
    next content hcontent =>
      have hput := h.put hname hpushing hcontent
      cases ok with
      | true =>
        simp only [true_or, if_true, Option.some.injEq] at hs
        subst hs
        -- the same names are left, the first one to be removed
        refine ⟨hput.moved, hput.spared, hput.absent, ?_, ?_, ?_⟩
        · intro name' hplog' hsome
          have hmem := h.left name' hplog' hsome
          rwa [hleft] at hmem
        · intro name' hmem
          exact h.plog name' (hleft.symm ▸ hmem)
        · rintro name' entries' ⟨⟩
          exact ⟨hname, content, h.original hcontent, Table.put_self _ _ _⟩
      | false =>
        simp only [Bool.false_eq_true, false_or, if_false] at hs
        split at hs
        · exact hput.returns hs
        · exact h.returns hs

theorem Moving.remove (h : Moving path s₀ s) (hremoving : s.upload = .removing name entries) :
    Moving path s₀ { s with folder := s.folder.remove name, upload := .pushing entries } := by
  have hleft : s.left = name :: entries := by rw [Pipeline.left, hremoving]
  obtain ⟨hname, content, hold, hobj⟩ := h.removing name entries hremoving
  refine ⟨fun name' content' hold' => ?_, h.spared, fun name' hnone => ?_, ?_, ?_, nofun⟩
  · by_cases hne : name' = name
    · subst hne
      obtain rfl : content' = content := Option.some.inj (hold'.symm.trans hold)
      exact .inr ⟨hname, s.folder.remove_self name', hobj⟩
    · have hfile := s.folder.remove_of_ne hne
      rcases h.moved name' content' hold' with hsame | ⟨hname', hgone, hobj'⟩
      · exact .inl (hfile.trans hsame)
      · exact .inr ⟨hname', hfile.trans hgone, hobj'⟩
  · by_cases hne : name' = name
    · exact hne ▸ s.folder.remove_self name'
    · exact (s.folder.remove_of_ne hne).trans (h.absent name' hnone)
  · intro name' hplog hsome
    have hne : name' ≠ name := by
      rintro rfl
      have hnone := s.folder.remove_self name'
      rw [hnone] at hsome
      cases hsome
    rw [s.folder.remove_of_ne hne] at hsome
    have hmem := h.left name' hplog hsome
    rw [hleft] at hmem
    exact (List.mem_cons.mp hmem).resolve_left hne
  · exact fun name' hmem => h.plog name' (hleft ▸ List.mem_cons_of_mem name hmem)

theorem Moving.step (hpath : cfg.uploadPath = some path) (h : Moving path s₀ s)
    (hc : InUpload s a) (hs : s.step cfg a = some s') : Moving path s₀ s' := by
  obtain ⟨hup, hrestart⟩ := hc
  cases a with
  | restart => cases hrestart
  | writer a =>
    simp only [Pipeline.step, Pipeline.act] at hs
    repeat' split at hs
    all_goals try cases hs
    obtain ⟨writer, -, rfl⟩ := Option.map_eq_some_iff.mp hs
    exact h.of_eq rfl rfl (.inl rfl)
  | file =>
    simp only [Pipeline.step, Pipeline.act, hup] at hs
    split at hs <;> cases hs
  | readDir ok =>
    simp only [Pipeline.step, Pipeline.act, hpath] at hs
    repeat' split at hs
    all_goals try cases hs
    next hreading _ =>
      -- the names that are left are those that have been read
      have hleft : s.left = s.entries := by rw [Pipeline.left, hreading.2]
      exact ⟨h.moved, h.spared, h.absent, fun name hplog hsome => hleft ▸ h.left name hplog hsome,
        fun name hmem => h.plog name (hleft ▸ hmem), nofun⟩
    · exact h.returns hs
  | finish =>
    simp only [Pipeline.step, Pipeline.act] at hs
    repeat' split at hs
    all_goals try cases hs
    exact h.returns hs
  | push ok stored =>
    simp only [Pipeline.step, Pipeline.act, hpath] at hs
    split at hs
    · split at hs
      next name entries hpath' hpushing =>
        cases hpath'
        exact h.push hpushing hs
      next => cases hs
    · cases hs
  | remove ok =>
    simp only [Pipeline.step, Pipeline.act] at hs
    split at hs
    · split at hs
      next name entries hremoving =>
        split at hs
        · cases hs
          exact h.remove hremoving
        · exact h.returns hs
      next => cases hs
    · cases hs

/-- Wherever a call of `upload` is, and whatever has failed, each file that was in the directory is
there as it was, or it is gone and is in the bucket as it was; no other object has changed; and when
the call ends without an error, no file of telemetry is left. -/
theorem upload_moves_files (hpath : cfg.uploadPath = some path) (h : UploadCall cfg s as s') :
    Moved path s s' ∧ Spared path s s' ∧ (as.getLast? = some .finish → ∀ name, isPlog name →
      s'.folder.files name = none) := by
  have hrun : ∀ {as t}, Run (Pipeline.step cfg) InUpload s as t → Moving path s t :=
    fun hrun => hrun.inv (Moving.step hpath) (moving_start path h.begins)
  have hend := hrun h.run
  refine ⟨hend.moved, hend.spared, fun hlast name hplog => ?_⟩
  obtain ⟨as, rfl⟩ := List.getLast?_eq_some_iff.mp hlast
  obtain ⟨t, ht, hfinish⟩ := h.run.split
  cases hfinish with
  | cons hc hs hnil =>
    cases hnil
    simp only [Pipeline.step, Pipeline.act] at hs
    repeat' split at hs
    all_goals try cases hs
    next hpushing =>
      obtain ⟨writer, -, rfl⟩ := Option.map_eq_some_iff.mp hs
      have hleft : t.left = [] := by rw [Pipeline.left, hpushing]
      cases hname : t.folder.files name with
      | none => rfl
      | some content =>
        have hmem := (hrun ht).left name hplog (by rw [hname]; rfl)
        rw [hleft] at hmem
        cases hmem

/-- Streams are not compressed. -/
def plainConfig : Config where
  hostId := GoString.lit "host"
  gzip := id
  uploadPath := some (GoString.lit "/telemetry")

def plogName : GoString := GoString.lit "plog-20150115120000.gz"

def twoFiles : Folder where
  names := [GoString.lit "telemetry.db", plogName]
  files := fun name => if name = plogName then some (GoString.lit "a line") else
    if name = GoString.lit "telemetry.db" then some (GoString.lit "rows") else none
  nodup := by decide
  listed := fun name => by
    by_cases h : name = plogName
    · simp [h]
    · simp [h]
  slash := by decide

/-- The uploader has just advanced `lastRead`. -/
def uploadBegins : Pipeline where
  writer := { now := 3000000000, uploader := .uploading, lastRead := 3000000000 }
  folder := twoFiles
  bucket := fun _ => none

/-- A record is made and logged in the middle of the call. -/
def callActs : List PipelineAct :=
  [.readDir true, .push true true, .writer (.record .info [] (GoString.lit "m")),
    .writer (.log 0 (GoString.lit "c")), .remove true, .finish]

theorem upload_moves_files_one :
    ∃ s, UploadCall plainConfig uploadBegins callActs s ∧ s.writer.telemetryCh.length = 1 ∧
      Moved (GoString.lit "/telemetry") uploadBegins s ∧ s.folder.files plogName = none := by
  have heval : (execIf (Pipeline.step plainConfig) InUpload uploadBegins callActs).any
      fun s => s.writer.telemetryCh.length = 1 := by
    decide +kernel
  rcases hexec : execIf (Pipeline.step plainConfig) InUpload uploadBegins callActs with _ | s <;>
    rw [hexec] at heval
  · cases heval
  · have hcall : UploadCall plainConfig uploadBegins callActs s := ⟨rfl, Run.of_execIf hexec⟩
    have hmoves := upload_moves_files rfl hcall
    exact ⟨s, hcall, of_decide_eq_true heval, hmoves.1, hmoves.2.2 rfl plogName (by decide)⟩

end Pinger.Telemetry

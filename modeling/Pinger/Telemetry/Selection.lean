import Pinger.Telemetry.Folder
import Pinger.Telemetry.Rollback

/-! # What the writer may select

The steps of the writer once more, each with what it does to the state, and what follows for the
rows: one that is selected stays in the table until it is deleted, and what may be selected after a
step might have been selected before it, or has just been made. -/

namespace Pinger.Telemetry

/-! ## The steps of the writer -/

/-- What a step does to the writer. -/
inductive Moves (w : Writer) : Act → Writer → Prop
  | tick : Moves w (.tick d) { w with now := w.now + d }
  | record : Moves w (.record level moduleName message)
      { w with records := w.records ++ [{ level, moduleName, message, time := w.now }] }
  | drop : rec ∈ w.records → Moves w (.log n msgId) { w with records := w.records.eraseIdx n }
  | queue : rec ∈ w.records → Moves w (.log n msgId) { w with
      records := w.records.eraseIdx n
      telemetryCh := w.telemetryCh ++ [newTelemetryMsg msgId rec] }
  | receive : w.telemetryCh = msg :: telemetryCh →
      Moves w .receive { w with dbWriter := .inserting msg, telemetryCh }
  | insert : w.dbWriter = .inserting msg → Moves w (.insert ok) (w.insert msg ok)
  | count : Moves w .count { w with dbWriter := .receiving, msgCount, doUploadNow }
  | wake : w.uploader = .waiting → Moves w a { w with uploader := .begin, doUploadNow }
  /-- The call has failed before the upload, or the upload is over. -/
  | back : (w.uploader = .uploading → ∃ ok, a = .upload ok) → Moves w a
      { w with uploader := .waiting }
  | begin : w.uploader = .begin → Moves w (.begin true) { w with uploader := .selecting }
  | select : w.uploader = .selecting → Moves w (.select true)
      { w with uploader := .filing (getAllMessagesSince w.table w.lastRead) }
  | file : w.uploader = .filing messages → Moves w (.file true)
      { w with uploader := .deleting messages }
  | delete : w.uploader = .deleting (msg :: messages) → Moves w (.delete true) { w with
      table := w.table.filter (·.id ≠ msg.id)
      uploader := .deleting messages }
  | commit : w.uploader = .deleting [] → Moves w .commit { w with uploader := .advancing }
  | advance : w.uploader = .advancing → Moves w .advance
      { w with lastRead := round w.now, uploader := .uploading }

variable {w w' : Writer} {a : Act}

theorem moves (hs : w.step a = some w') : Moves w a w' := by
  cases a with
  | tick | record => cases hs; constructor
  | log n msgId =>
    simp only [Writer.step, Writer.log] at hs
    split at hs
    · cases hs
    next rec hrec =>
      have hmem := List.mem_of_getElem? hrec
      repeat' split at hs
      all_goals cases hs
      · exact .queue hmem
      · exact .drop hmem
  | count =>
    simp only [Writer.step, Writer.count] at hs
    repeat' split at hs
    all_goals cases hs
    all_goals exact .count
  | receive =>
    simp only [Writer.step] at hs
    split at hs
    next hch => cases hs; exact .receive hch
    next => cases hs
  | insert ok =>
    simp only [Writer.step] at hs
    split at hs
    next hdb => cases hs; exact .insert hdb
    next => cases hs
  | timer =>
    simp only [Writer.step] at hs
    split at hs <;> cases hs
    next hup => exact .wake hup
  | uploadNow =>
    simp only [Writer.step] at hs
    split at hs <;> cases hs
    next hup => exact .wake hup.1
  | begin ok =>
    simp only [Writer.step] at hs
    split at hs <;> cases hs
    next hup =>
      cases ok
      · exact .back fun h => by cases hup.symm.trans h
      · exact .begin hup
  | select ok =>
    simp only [Writer.step] at hs
    split at hs <;> cases hs
    next hup =>
      cases ok
      · exact .back fun h => by cases hup.symm.trans h
      · exact .select hup
  | file ok =>
    simp only [Writer.step] at hs
    split at hs <;> cases hs
    next hup =>
      cases ok
      · exact .back fun h => by cases hup.symm.trans h
      · exact .file hup
  | delete ok =>
    simp only [Writer.step] at hs
    split at hs
    next hup =>
      split at hs <;> cases hs
      next hok => exact hok ▸ .delete hup
      next => exact .back fun h => by cases hup.symm.trans h
    next => cases hs
  | commit =>
    simp only [Writer.step] at hs
    split at hs <;> cases hs
    next hup => exact .commit hup
  | advance =>
    simp only [Writer.step] at hs
    split at hs <;> cases hs
    next hup => exact .advance hup
  | upload ok =>
    simp only [Writer.step] at hs
    split at hs <;> cases hs
    exact .back fun _ => ⟨_, rfl⟩

/-! ## What the writer may still select -/

/-- The time is that of a row, of a message on its way to the table, or of a record. -/
def Carried (w : Writer) (t : Int) : Prop :=
  (∃ row ∈ w.table, row.timestamp = t) ∨ (∃ msg, Pending w msg ∧ msg.timestamp = t) ∨
    ∃ rec ∈ w.records, round rec.time = t

/-- A row of this time may be selected, now or later. -/
structure Live (w : Writer) (t : Int) : Prop where
  stamp : Stamp t
  unread : w.lastRead < t
  comes : Carried w t ∨ round w.now ≤ t

/-- Rows of the table that have been selected and not deleted yet. -/
structure Selection (w : Writer) (messages : List TelemetryLogMsg) : Prop where
  ids : (messages.map (·.id)).Nodup
  row : ∀ msg ∈ messages, msg ∈ w.table ∧ w.lastRead < msg.timestamp

/-- No time is in the future, and no two rows have the same id. -/
structure Steady (w : Writer) : Prop where
  clock : Stamp (round w.now)
  carried : ∀ t, Carried w t → Stamp t ∧ t ≤ round w.now
  lastRead : w.lastRead ≤ round w.now
  ids : (w.table.map (·.id)).Nodup
  selected : ∀ messages, w.uploader = .filing messages ∨ w.uploader = .deleting messages →
    Selection w messages

theorem round_mono (h : t ≤ t') : round t ≤ round t' := by
  unfold round
  omega

theorem now_moves (h : Moves w a w') : w.now ≤ w'.now := by
  cases h with
  | tick => exact Int.le_add_of_nonneg_right (Int.natCast_nonneg _)
  | _ => exact Int.le_refl _

theorem Carried.of_subset (h : Carried w' t) (htable : ∀ row ∈ w'.table, row ∈ w.table)
    (hpending : ∀ msg, Pending w' msg → Pending w msg)
    (hrecords : ∀ rec ∈ w'.records, rec ∈ w.records) : Carried w t := by
  rcases h with ⟨row, hrow, ht⟩ | ⟨msg, hmsg, ht⟩ | ⟨rec, hrec, ht⟩
  · exact .inl ⟨row, htable row hrow, ht⟩
  · exact .inr (.inl ⟨msg, hpending msg hmsg, ht⟩)
  · exact .inr (.inr ⟨rec, hrecords rec hrec, ht⟩)

/-- The only new time is that of a record which has just been made. -/
theorem carried_moves (h : Moves w a w') (ht : Carried w' t) :
    Carried w t ∨ t = round w.now := by
  cases h with
  | record =>
    rcases ht with ht | ht | ⟨rec, hrec, ht⟩
    · exact .inl (.inl ht)
    · exact .inl (.inr (.inl ht))
    · rcases List.mem_append.mp hrec with hrec | hrec
      · exact .inl (.inr (.inr ⟨rec, hrec, ht⟩))
      · rw [List.mem_singleton.mp hrec] at ht
        exact .inr ht.symm
  | drop =>
    exact .inl (ht.of_subset (fun _ => id) (fun _ => id) fun _ => List.mem_of_mem_eraseIdx)
  | @queue rec n msgId hrec =>
    rcases ht with ht | ⟨msg, hmsg, ht⟩ | ⟨rec', hrec', ht⟩
    · exact .inl (.inl ht)
    · rcases hmsg with hmsg | hmsg
      · rcases List.mem_append.mp hmsg with hmsg | hmsg
        · exact .inl (.inr (.inl ⟨msg, .inl hmsg, ht⟩))
        · rw [List.mem_singleton.mp hmsg] at ht
          exact .inl (.inr (.inr ⟨rec, hrec, ht⟩))
      · exact .inl (.inr (.inl ⟨msg, .inr hmsg, ht⟩))
    · exact .inl (.inr (.inr ⟨rec', List.mem_of_mem_eraseIdx hrec', ht⟩))
  | @receive msg rest hch =>
    refine .inl (ht.of_subset (fun _ => id) (fun msg' hmsg => ?_) fun _ => id)
    rcases hmsg with hmsg | hmsg
    · exact .inl (hch ▸ List.mem_cons_of_mem msg hmsg)
    · cases hmsg
      exact .inl (hch ▸ List.mem_cons_self)
  | @insert msg ok hdb =>
    rcases ht with ⟨row, hrow, ht⟩ | ⟨msg', hmsg | hmsg, ht⟩ | ht
    · rcases insert_table w msg ok with htable | htable <;> rw [htable] at hrow
      · exact .inl (.inl ⟨row, hrow, ht⟩)
      · rcases List.mem_append.mp hrow with hrow | hrow
        · exact .inl (.inl ⟨row, hrow, ht⟩)
        · rw [List.mem_singleton.mp hrow] at ht
          exact .inl (.inr (.inl ⟨msg, .inr hdb, ht⟩))
    · exact .inl (.inr (.inl ⟨msg', .inl hmsg, ht⟩))
    · cases hmsg
    · exact .inl (.inr (.inr ht))
  | count =>
    refine .inl (ht.of_subset (fun _ => id) (fun msg hmsg => ?_) fun _ => id)
    rcases hmsg with hmsg | hmsg
    · exact .inl hmsg
    · cases hmsg
  | delete =>
    exact .inl (ht.of_subset (fun _ => List.mem_of_mem_filter) (fun _ => id) fun _ => id)
  | _ => exact .inl ht

/-- `lastRead` is set when the upload begins, and only then. -/
theorem lastRead_moves (h : Moves w a w') : w'.lastRead = w.lastRead ∨
    w'.lastRead = round w.now ∧ w'.uploader = .uploading ∧ w'.now = w.now := by
  cases h with
  | advance => exact .inr ⟨rfl, rfl, rfl⟩
  | _ => exact .inl rfl

/-- What may be selected after a step might have been selected before it. -/
theorem Live.moves (hw : Steady w) (h : Moves w a w') (ht : Live w' t) : Live w t := by
  have hnow := round_mono (now_moves h)
  refine ⟨ht.stamp, ?_, ?_⟩
  · have hunread := ht.unread
    have hlast := hw.lastRead
    rcases lastRead_moves h with heq | ⟨heq, -, -⟩ <;> omega
  · rcases ht.comes with hcarried | hcomes
    · rcases carried_moves h hcarried with hcarried | rfl
      · exact .inl hcarried
      · exact .inr (Int.le_refl _)
    · exact .inr (Int.le_trans hnow hcomes)

/-! ## The writer keeps its rows apart -/

theorem insert_rows (w : Writer) (msg : TelemetryLogMsg) (ok : Bool) :
    (w.insert msg ok).table = w.table ∨
      (∀ row ∈ w.table, row.id ≠ msg.id) ∧ (w.insert msg ok).table = w.table ++ [msg] := by
  dsimp only [Writer.insert]
  split
  next h => exact .inr ⟨h.2, rfl⟩
  next => exact .inl rfl

theorem ids_moves (h : Moves w a w') (hids : (w.table.map (·.id)).Nodup) :
    (w'.table.map (·.id)).Nodup := by
  cases h with
  | @insert msg ok =>
    rcases insert_rows w msg ok with htable | ⟨hfree, htable⟩ <;> rw [htable]
    · exact hids
    · rw [List.map_append, List.map_singleton, List.nodup_append]
      refine ⟨hids, List.nodup_singleton _, ?_⟩
      intro msgId hmem msgId' hmem'
      obtain ⟨row, hrow, rfl⟩ := List.mem_map.mp hmem
      rw [List.mem_singleton.mp hmem']
      exact hfree row hrow
  | delete => exact hids.sublist (List.filter_sublist.map _)
  | _ => exact hids

/-- A row stays in the table, or it is deleted. -/
theorem row_moves (hids : (w.table.map (·.id)).Nodup) (hselected : ∀ messages,
      w.uploader = .deleting messages → Selection w messages) (h : Moves w a w')
    (hrow : row ∈ w.table) :
    row ∈ w'.table ∨ ∃ messages, w.uploader = .deleting (row :: messages) := by
  cases h with
  | @insert msg ok =>
    refine .inl ?_
    rcases insert_table w msg ok with htable | htable <;> rw [htable]
    · exact hrow
    · exact List.mem_append_left _ hrow
  | @delete msg messages hup =>
    by_cases hid : row.id = msg.id
    · have hmsg := ((hselected _ hup).row msg List.mem_cons_self).1
      obtain rfl := List.inj_on_of_nodup_map hids hrow hmsg hid
      exact .inr ⟨messages, hup⟩
    · exact .inl (List.mem_filter.mpr ⟨hrow, decide_eq_true hid⟩)
  | _ => exact .inl hrow

theorem selection_select (hids : (w.table.map (·.id)).Nodup) :
    Selection w (getAllMessagesSince w.table w.lastRead) := by
  have hperm := List.perm_insertionSort (fun r r' : TelemetryLogMsg => r.timestamp ≤ r'.timestamp)
    (w.table.filter (w.lastRead < ·.timestamp))
  refine ⟨?_, fun msg hmsg => ?_⟩
  · rw [getAllMessagesSince, (hperm.map _).nodup_iff]
    exact hids.sublist (List.filter_sublist.map _)
  · have hmsg := List.mem_filter.mp (hperm.mem_iff.mp hmsg)
    exact ⟨hmsg.1, of_decide_eq_true hmsg.2⟩

theorem Selection.mono (h : Selection w messages) (htable : ∀ row ∈ w.table, row ∈ w'.table)
    (hlast : w'.lastRead = w.lastRead) : Selection w' messages :=
  ⟨h.ids, fun msg hmsg => ⟨htable msg (h.row msg hmsg).1, hlast ▸ (h.row msg hmsg).2⟩⟩

/-- What is left to delete after a row has been deleted is still in the table. -/
theorem Selection.delete (h : Selection w (msg :: messages)) : Selection { w with
    table := w.table.filter (·.id ≠ msg.id), uploader := .deleting messages } messages := by
  obtain ⟨hne, hids⟩ := List.nodup_cons.mp h.ids
  refine ⟨hids, fun msg' hmsg => ?_⟩
  obtain ⟨hrow, hlast⟩ := h.row msg' (List.mem_cons_of_mem msg hmsg)
  refine ⟨List.mem_filter.mpr ⟨hrow, decide_eq_true fun hid => ?_⟩, hlast⟩
  exact hne (List.mem_map.mpr ⟨msg', hmsg, hid⟩)

theorem selected_moves (hids : (w.table.map (·.id)).Nodup) (hselected : ∀ messages,
      w.uploader = .filing messages ∨ w.uploader = .deleting messages → Selection w messages)
    (h : Moves w a w') (hup : w'.uploader = .filing messages ∨ w'.uploader = .deleting messages) :
    Selection w' messages := by
  cases h with
  | @insert msg ok =>
    refine (hselected messages hup).mono (fun row hrow => ?_) rfl
    rcases insert_table w msg ok with htable | htable <;> rw [htable]
    · exact hrow
    · exact List.mem_append_left _ hrow
  | wake | back | begin | commit | advance => rcases hup with hup | hup <;> cases hup
  | select =>
    rcases hup with hup | hup <;> cases hup
    exact (selection_select hids).mono (fun _ => id) rfl
  | file hfiling =>
    rcases hup with hup | hup <;> cases hup
    exact (hselected _ (.inl hfiling)).mono (fun _ => id) rfl
  | delete hdeleting =>
    rcases hup with hup | hup <;> cases hup
    exact (hselected _ (.inr hdeleting)).delete
  | _ => exact (hselected messages hup).mono (fun _ => id) rfl

theorem Steady.moves (hw : Steady w) (hclock : Stamp (round w'.now)) (h : Moves w a w') :
    Steady w' := by
  have hnow := round_mono (now_moves h)
  refine ⟨hclock, fun t ht => ?_, ?_, ids_moves h hw.ids,
    fun messages => selected_moves hw.ids hw.selected h⟩
  · rcases carried_moves h ht with ht | rfl
    · exact ⟨(hw.carried t ht).1, Int.le_trans (hw.carried t ht).2 hnow⟩
    · exact ⟨hw.clock, hnow⟩
  · have hlast := hw.lastRead
    rcases lastRead_moves h with heq | ⟨heq, -, -⟩ <;> omega

/-- Of the rows that are to be deleted, each was to be deleted before, or has just been filed. -/
theorem deleting_moves (h : Moves w a w') (hup : w'.uploader = .deleting messages) :
    a = .file true ∧ w.uploader = .filing messages ∨
      ∃ messages', w.uploader = .deleting messages' ∧ ∀ msg ∈ messages, msg ∈ messages' := by
  cases h with
  | file hfiling =>
    cases hup
    exact .inl ⟨rfl, hfiling⟩
  | delete hdeleting =>
    cases hup
    exact .inr ⟨_, hdeleting, fun _ => List.mem_cons_of_mem _⟩
  | wake | back | begin | select | commit | advance => cases hup
  | _ => exact .inr ⟨messages, hup, fun _ => id⟩

theorem uploading_moves (h : Moves w a w') (hup : w'.uploader = .uploading) :
    w.uploader = .uploading ∨ w'.lastRead = round w'.now := by
  cases h with
  | advance => exact .inr rfl
  | wake | back | begin | select | file | delete | commit => cases hup
  | _ => exact .inl hup

theorem uploading_stays (h : Moves w a w') (hup : w.uploader = .uploading) :
    w'.uploader = .uploading ∨ ∃ ok, a = .upload ok := by
  cases h with
  | back hupload => exact .inr (hupload hup)
  | wake h | begin h | select h | file h | delete h | commit h => cases hup.symm.trans h
  | advance => exact .inl rfl
  | _ => exact .inl hup

end Pinger.Telemetry

import Pinger.Telemetry.Writer

/-! # A call of `createFiles` that fails

The transaction that is rolled back is not the one in which the rows are deleted: each delete that
has succeeded stays. So the rows that were in the table before a failed call are still in it exactly
when no delete of one of them has succeeded before the failure. -/

namespace Pinger.Telemetry

open Transition

/-! ## What a step does -/

/-- The message is on its way to the table. -/
def Pending (s : Writer) (msg : TelemetryLogMsg) : Prop :=
  msg ∈ s.telemetryCh ∨ s.dbWriter = .inserting msg

variable {s s' : Writer} {a : Act}

theorem insert_table (s : Writer) (msg : TelemetryLogMsg) (ok : Bool) :
    (s.insert msg ok).table = s.table ∨ (s.insert msg ok).table = s.table ++ [msg] := by
  dsimp only [Writer.insert]
  split
  · exact .inr rfl
  · exact .inl rfl

theorem log_frame (hs : s.log n msgId = some s') : s'.table = s.table ∧ s'.dbWriter = s.dbWriter ∧
    ∀ msg ∈ s'.telemetryCh, msg ∈ s.telemetryCh ∨ msg.id = msgId := by
  unfold Writer.log at hs
  split at hs
  · cases hs
  next rec hrec =>
    dsimp only at hs
    split at hs
    · split at hs <;> cases hs
      refine ⟨rfl, rfl, fun msg hmsg => ?_⟩
      rcases List.mem_append.mp hmsg with hmsg | hmsg
      · exact .inl hmsg
      · exact .inr (by rw [List.mem_singleton.mp hmsg]; rfl)
    · cases hs
      exact ⟨rfl, rfl, fun msg hmsg => .inl hmsg⟩

/-- The table is left alone but for an insert of a message on its way and a delete of the uploader;
and what is on its way was before, or has the id that is drawn. -/
theorem step_cases (hs : s.step a = some s') :
    (s'.table = s.table ∨ (∃ msg, Pending s msg ∧ s'.table = s.table ++ [msg]) ∨
      ∃ msg messages, a = .delete true ∧ s.uploader = .deleting (msg :: messages) ∧
        s'.table = s.table.filter (·.id ≠ msg.id)) ∧
    ∀ msg, Pending s' msg → Pending s msg ∨ ∃ n, a = .log n msg.id := by
  cases a with
  | tick | record => cases hs; exact ⟨.inl rfl, fun _ => .inl⟩
  | log n msgId =>
    obtain ⟨htable, hdb, hch⟩ := log_frame hs
    refine ⟨.inl htable, fun msg hmsg => ?_⟩
    rcases hmsg with hmsg | hmsg
    · rcases hch msg hmsg with hmsg | rfl
      · exact .inl (.inl hmsg)
      · exact .inr ⟨n, rfl⟩
    · exact .inl (.inr (hdb ▸ hmsg))
  | receive =>
    simp only [Writer.step] at hs
    split at hs
    next msg telemetryCh hdb hch =>
      cases hs
      refine ⟨.inl rfl, fun msg' hmsg => .inl ?_⟩
      rcases hmsg with hmsg | hmsg
      · exact .inl (hch ▸ List.mem_cons_of_mem msg hmsg)
      · cases hmsg
        exact .inl (hch ▸ List.mem_cons_self)
    next => cases hs
  | insert ok =>
    simp only [Writer.step] at hs
    split at hs
    next msg hdb =>
      cases hs
      refine ⟨?_, fun msg' hmsg => .inl ?_⟩
      · rcases insert_table s msg ok with h | h
        · exact .inl h
        · exact .inr (.inl ⟨msg, .inr hdb, h⟩)
      · exact hmsg.imp_right fun h => by cases h
    next => cases hs
  | count =>
    simp only [Writer.step, Writer.count] at hs
    split at hs
    · split at hs
      · split at hs <;> cases hs
        exact ⟨.inl rfl, fun msg hmsg => .inl (hmsg.imp_right fun h => by cases h)⟩
      · cases hs
        exact ⟨.inl rfl, fun msg hmsg => .inl (hmsg.imp_right fun h => by cases h)⟩
    · cases hs
  | timer | uploadNow | begin | select | commit | advance | upload =>
    simp only [Writer.step] at hs
    split at hs <;> cases hs
    exact ⟨.inl rfl, fun _ => .inl⟩
  | file ok =>
    simp only [Writer.step] at hs
    split at hs <;> cases hs
    exact ⟨.inl rfl, fun _ => .inl⟩
  | delete ok =>
    simp only [Writer.step] at hs
    split at hs
    next msg messages hup =>
      split at hs <;> cases hs
      next hok =>
        subst hok
        exact ⟨.inr (.inr ⟨msg, messages, rfl, hup, rfl⟩), fun _ => .inl⟩
      next => exact ⟨.inl rfl, fun _ => .inl⟩
    next => cases hs

/-! ## A failed call -/

/-- The id that is drawn for a message is that of none of the rows. -/
def DrawsNew (rows : List TelemetryLogMsg) : Act → Prop
  | .log _ msgId => ∀ row ∈ rows, row.id ≠ msgId
  | _ => True

instance (rows : List TelemetryLogMsg) : (a : Act) → Decidable (DrawsNew rows a)
  | .log _ msgId => inferInstanceAs (Decidable (∀ row ∈ rows, row.id ≠ msgId))
  | .tick _ | .record _ _ _ | .receive | .insert _ | .count | .timer | .uploadNow | .begin _
  | .select _ | .file _ | .delete _ | .commit | .advance | .upload _ => .isTrue trivial

/-- The call has not returned, and it does not reach its end. The other goroutines go on. -/
def InCall (rows : List TelemetryLogMsg) (s : Writer) (a : Act) : Prop :=
  s.uploader ≠ .waiting ∧ a ≠ .commit ∧ DrawsNew rows a

instance (rows : List TelemetryLogMsg) (s : Writer) (a : Act) : Decidable (InCall rows s a) :=
  inferInstanceAs (Decidable (_ ∧ _ ∧ _))

/-- No message on its way has the id of one of the rows. -/
def Fresh (rows : List TelemetryLogMsg) (s : Writer) : Prop :=
  ∀ msg, Pending s msg → ∀ row ∈ rows, row.id ≠ msg.id

/-- A run over one call of `createFiles` that returns an error. No message is on its way with the id
of a row of the table. -/
structure FailedCall (s : Writer) (as : List Act) (s' : Writer) : Prop where
  begins : s.uploader = .begin
  fresh : Fresh s.table s
  run : Run Writer.step (InCall s.table) s as s'
  returns : s'.uploader = .waiting

/-- The step is not a delete of one of the rows that succeeds. -/
def Spares (rows : List TelemetryLogMsg) (s : Writer) (a : Act) : Prop :=
  a = .delete true → ∀ msg messages, s.uploader = .deleting (msg :: messages) →
    ∀ row ∈ rows, row.id ≠ msg.id

/-- A row that is not deleted stays. -/
theorem Spares.step {rows : List TelemetryLogMsg} (h : ∀ row ∈ rows, row ∈ s.table)
    (hc : Spares rows s a) (hs : s.step a = some s') : ∀ row ∈ rows, row ∈ s'.table := by
  intro row hrow
  rcases (step_cases hs).1 with htable | ⟨msg, -, htable⟩ | ⟨msg, messages, ha, hup, htable⟩
  · rw [htable]
    exact h row hrow
  · rw [htable]
    exact List.mem_append_left _ (h row hrow)
  · rw [htable]
    exact List.mem_filter.mpr ⟨h row hrow, decide_eq_true (hc ha msg messages hup row hrow)⟩

theorem Fresh.step {rows : List TelemetryLogMsg} (h : Fresh rows s) (hc : DrawsNew rows a)
    (hs : s.step a = some s') : Fresh rows s' := by
  intro msg hmsg row hrow
  rcases (step_cases hs).2 msg hmsg with hmsg | ⟨n, rfl⟩
  · exact h msg hmsg row hrow
  · exact hc row hrow

/-- The row is not in the table. -/
def Gone (row : TelemetryLogMsg) (s : Writer) : Prop := ∀ row' ∈ s.table, row'.id ≠ row.id

theorem delete_gone (hup : s.uploader = .deleting (msg :: messages)) (hid : row.id = msg.id)
    (hs : s.step (.delete true) = some s') : Gone row s' := by
  simp only [Writer.step, hup, if_true, Option.some.injEq] at hs
  subst hs
  intro row' hrow'
  have hne := of_decide_eq_true (List.mem_filter.mp hrow').2
  rwa [hid]

/-- A row that is gone does not come back. -/
theorem Gone.step {rows : List TelemetryLogMsg} (h : Gone row s ∧ Fresh rows s) (hrow : row ∈ rows)
    (hc : DrawsNew rows a) (hs : s.step a = some s') : Gone row s' ∧ Fresh rows s' := by
  refine ⟨fun row' hrow' => ?_, h.2.step hc hs⟩
  rcases (step_cases hs).1 with htable | ⟨msg, hmsg, htable⟩ | ⟨msg, messages, -, -, htable⟩ <;>
    rw [htable] at hrow'
  · exact h.1 row' hrow'
  · rcases List.mem_append.mp hrow' with hrow' | hrow'
    · exact h.1 row' hrow'
    · rw [List.mem_singleton.mp hrow']
      exact (h.2 msg hmsg row hrow).symm
  · exact h.1 row' (List.mem_of_mem_filter hrow')

/-- A failed call leaves every row that was in the table exactly when it has deleted none of them
before the failure. -/
theorem failed_call_keeps_rows_iff (h : FailedCall s as s') :
    (∀ row ∈ s.table, row ∈ s'.table) ↔ Run Writer.step (Spares s.table) s as s' := by
  constructor
  · intro hkept
    rcases (h.run.free).first_violation (C := Spares s.table) with hrun |
      ⟨bs, a, cs, t, t', rfl, hbs, hviolation, ht, hcs⟩
    · exact hrun
    · exfalso
      obtain ⟨rfl, msg, messages, hup, row, hrow, hid⟩ : a = .delete true ∧ ∃ msg messages,
          t.uploader = .deleting (msg :: messages) ∧ ∃ row ∈ s.table, row.id = msg.id := by
        simpa [Spares] using hviolation
      -- the row is gone after the delete, and for the rest of the call
      obtain ⟨u, hu, hrest⟩ := h.run.split
      obtain rfl := hu.det hbs
      have hfresh : Fresh s.table u :=
        hu.inv (I := Fresh s.table) (fun hf hc hs => hf.step hc.2.2 hs) h.fresh
      cases hrest with
      | cons hc hs hrest =>
        have hgone := hrest.inv (I := fun t => Gone row t ∧ Fresh s.table t)
          (fun hg hc hs => Gone.step hg hrow hc.2.2 hs)
          ⟨delete_gone hup hid hs, hfresh.step hc.2.2 hs⟩
        exact hgone.1 row (hkept row hrow) rfl
  · intro hrun
    exact hrun.inv (I := fun t => ∀ row ∈ s.table, row ∈ t.table) Spares.step fun _ hrow => hrow

/-- A row of the log table, made this many seconds after the zero time. -/
def rowAt (id : GoString) (second : Int) : TelemetryLogMsg where
  id := id
  eventType := .info
  timestamp := second * 1000000000
  moduleName := []
  message := GoString.lit "m"

/-- Two rows are left from an earlier process, and the uploader begins. -/
def twoRows : Writer where
  now := 3000000000
  table := [rowAt (GoString.lit "a") 1, rowAt (GoString.lit "b") 2]

theorem twoRows_fresh : Fresh twoRows.table twoRows := fun _ h => h.elim nofun nofun

/-- A record is inserted before the select, and then the files cannot be written. -/
def refusedActs : List Act :=
  [.begin true, .record .info [] (GoString.lit "m"), .log 0 (GoString.lit "c"), .receive,
    .insert true, .select true, .count, .file false]

theorem failed_call_keeps_rows_refused :
    ∃ s, FailedCall twoRows refusedActs s ∧ s.table.length = 3 ∧
      ∀ row ∈ twoRows.table, row ∈ s.table := by
  obtain ⟨s, hrun, hup, hlen⟩ : ∃ s, Run Writer.step (InCall twoRows.table) twoRows refusedActs s ∧
      s.uploader = .waiting ∧ s.table.length = 3 := ⟨_, Run.of_execIf rfl, rfl, rfl⟩
  have hcall : FailedCall twoRows refusedActs s := ⟨rfl, twoRows_fresh, hrun, hup⟩
  refine ⟨s, hcall, hlen, (failed_call_keeps_rows_iff hcall).mpr ?_⟩
  -- no delete at all
  have hno : Run Writer.step (fun _ a => a ≠ .delete true) twoRows refusedActs s :=
    hrun.restrict (by decide)
  exact hno.mono fun hne ha => absurd ha hne

/-- The second delete fails, and the row that the first one has deleted is lost. -/
theorem deleted_row_lost :
    ∃ s, FailedCall twoRows [.begin true, .select true, .file true, .delete true, .delete false] s ∧
      ∃ row ∈ twoRows.table, row ∉ s.table :=
  ⟨_, ⟨rfl, twoRows_fresh, Run.of_execIf rfl, rfl⟩, rowAt (GoString.lit "a") 1, by decide,
    by decide⟩

end Pinger.Telemetry

import Mathlib.Logic.Relation
import Pinger.Lib.Table

/-! # Rows with a version

Several parties read rows of a table, change their copies and write them back. A write takes place
only when the row has the version of the copy, and it puts a later version there. Then a write
replaces the very row that its copy was read as: no other write has come between, whatever the
parties do and however long they wait. -/

namespace Versioned

/-- A copy of a row: the row as it was read, and the copy as it is. -/
structure Copy (κ : Type u) (ρ : Type v) where
  key : κ
  base : ρ
  row : ρ

/-- The table, and the copy that each party has. -/
structure State (κ : Type u) (ρ : Type v) (ι : Type w) where
  table : Table κ ρ
  copies : ι → Option (Copy κ ρ)

variable {κ : Type u} {ρ : Type v} {ι : Type w} [DecidableEq κ] [DecidableEq ι]

/-- What a party does. `bump` is the row that a copy is written as. -/
inductive Step (ver : ρ → Nat) (bump : ρ → ρ) (s : State κ ρ ι) : State κ ρ ι → Prop
  | insert (k : κ) (row : ρ) : s.table k = none → Step ver bump s { s with
      table := s.table.put k row }
  | read (i : ι) : s.table k = some row → Step ver bump s { s with
      copies := Function.update s.copies i (some ⟨k, row, row⟩) }
  | edit (i : ι) (row : ρ) : s.copies i = some c → ver row = ver c.row → Step ver bump s { s with
      copies := Function.update s.copies i (some { c with row }) }
  | write (i : ι) : s.copies i = some c → (s.table c.key).map ver = some (ver c.row) →
      Step ver bump s {
        table := s.table.put c.key (bump c.row)
        copies := Function.update s.copies i none }
  | drop (i : ι) : Step ver bump s { s with copies := Function.update s.copies i none }

/-- A copy has the version that was read, and where the row still has it, it is the row that was
read. -/
structure Copy.Current (ver : ρ → Nat) (t : Table κ ρ) (c : Copy κ ρ) : Prop where
  same : ver c.row = ver c.base
  row : ∃ row, t c.key = some row ∧ ver c.base ≤ ver row ∧ (ver c.base = ver row → row = c.base)

def Current (ver : ρ → Nat) (s : State κ ρ ι) : Prop :=
  ∀ i c, s.copies i = some c → c.Current ver s.table

variable {ver : ρ → Nat} {bump : ρ → ρ} {s s' : State κ ρ ι}

/-- The row of a copy may have been replaced by a later one. -/
theorem Copy.Current.put {t : Table κ ρ} {c : Copy κ ρ} (h : c.Current ver t)
    (hold : t k = some old) (hlater : ver old < ver new) : c.Current ver (t.put k new) := by
  refine ⟨h.same, ?_⟩
  obtain ⟨row, hrow, hle, heq⟩ := h.row
  by_cases hk : c.key = k
  · subst hk
    obtain rfl : row = old := Option.some.inj (hrow.symm.trans hold)
    exact ⟨new, Table.put_self _ _ _, by omega, by omega⟩
  · exact ⟨row, (Table.put_of_ne hk new).trans hrow, hle, heq⟩

theorem Copy.Current.insert {t : Table κ ρ} {c : Copy κ ρ} (h : c.Current ver t)
    (hfree : t k = none) : c.Current ver (t.put k new) := by
  refine ⟨h.same, ?_⟩
  obtain ⟨row, hrow, hle, heq⟩ := h.row
  have hk : c.key ≠ k := by
    rintro rfl
    cases hrow.symm.trans hfree
  exact ⟨row, (Table.put_of_ne hk new).trans hrow, hle, heq⟩

omit [DecidableEq κ] in
/-- What holds of the other copies and of the new one holds of all. -/
theorem forall_update {P : Copy κ ρ → Prop} {copies : ι → Option (Copy κ ρ)}
    {oc : Option (Copy κ ρ)}
    (h : ∀ j c, copies j = some c → P c) (hnew : ∀ c, oc = some c → P c) :
    ∀ j c, Function.update copies i oc j = some c → P c := by
  intro j c hj
  rw [Function.update_apply] at hj
  split at hj
  · exact hnew c hj
  · exact h j c hj

theorem Current.step (hbump : ∀ row, ver row < ver (bump row)) (h : Current ver s)
    (hs : Step ver bump s s') : Current ver s' := by
  cases hs with
  | insert k row hfree => exact fun j c hj => (h j c hj).insert hfree
  | read i hrow =>
    refine forall_update h fun c hc => ?_
    cases hc
    exact ⟨rfl, _, hrow, Nat.le_refl _, fun _ => rfl⟩
  | edit i row hc hver =>
    refine forall_update h fun c' hc' => ?_
    cases hc'
    exact ⟨hver.trans (h i _ hc).same, (h i _ hc).row⟩
  | @write c i hc hver =>
    obtain ⟨old, hold, hver⟩ := Option.map_eq_some_iff.mp hver
    refine forall_update (fun j c' hj => (h j c' hj).put hold ?_) nofun
    have := hbump c.row
    omega
  | drop i => exact forall_update h nofun

theorem Current.run (hbump : ∀ row, ver row < ver (bump row)) (h : Current ver s)
    (hs : Relation.ReflTransGen (Step ver bump) s s') : Current ver s' := by
  induction hs with
  | refl => exact h
  | tail _ hs ih => exact ih.step hbump hs

omit [DecidableEq κ] [DecidableEq ι] in
/-- No update is lost: a write replaces the row that its copy was read as. -/
theorem Current.replaces (h : Current ver s) (hc : s.copies i = some c)
    (hver : (s.table c.key).map ver = some (ver c.row)) : s.table c.key = some c.base := by
  obtain ⟨row, hrow, -, heq⟩ := (h i c hc).row
  rw [hrow, Option.map_some, Option.some.injEq, (h i c hc).same] at hver
  rw [hrow, heq hver.symm]

end Versioned

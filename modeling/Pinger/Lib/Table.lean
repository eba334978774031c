import Mathlib.Logic.Function.Basic

/-! # Tables with a primary key

A table maps a key to the row stored under it. An insert fails when the key is taken, and an update
fails unless the row still has the version the writer has read. A fact that holds of every row is
kept by an operation that writes only rows with it, and a table may be seen through a function on
its rows. -/

/-- A table of rows. -/
abbrev Table (κ : Type u) (ρ : Type v) := κ → Option ρ

namespace Table

variable {κ : Type u} {ρ : Type v}

/-- Every row of the table. -/
def All (P : ρ → Prop) (t : Table κ ρ) : Prop := ∀ k row, t k = some row → P row

theorem All.mono {P Q : ρ → Prop} {t : Table κ ρ} (h : t.All P) (hPQ : ∀ row, P row → Q row) :
    t.All Q :=
  fun k row hk => hPQ row (h k row hk)

/-- The table of what `f` leaves of each row. -/
def map {σ : Type w} (f : ρ → σ) (t : Table κ ρ) : Table κ σ := fun k => (t k).map f

variable [DecidableEq κ]

def put (t : Table κ ρ) (k : κ) (row : ρ) : Table κ ρ := Function.update t k (some row)

/-- `INSERT`: the key must be free. -/
def insert (t : Table κ ρ) (k : κ) (row : ρ) : Option (Table κ ρ) :=
  if (t k).isSome then none else some (t.put k row)

/-- `UPDATE` of the row with this key and version. -/
def update (ver : ρ → Nat) (t : Table κ ρ) (k : κ) (old : Nat) (row : ρ) : Option (Table κ ρ) :=
  if (t k).map ver = some old then some (t.put k row) else none

def delete (t : Table κ ρ) (k : κ) : Table κ ρ := Function.update t k none

variable {t t' : Table κ ρ}

theorem put_self (t : Table κ ρ) (k : κ) (row : ρ) : t.put k row k = some row :=
  Function.update_self ..

theorem put_of_ne (h : k' ≠ k) (row : ρ) : t.put k row k' = t k' := Function.update_of_ne h ..

theorem map_put {σ : Type w} (f : ρ → σ) (t : Table κ ρ) (k : κ) (row : ρ) :
    (t.put k row).map f = (t.map f).put k (f row) := by
  funext k'
  by_cases hk : k' = k
  · subst hk
    rw [map, put_self, put_self, Option.map_some]
  · rw [map, put_of_ne hk, put_of_ne hk, map]

theorem insert_eq_some (h : t.insert k row = some t') : t k = none ∧ t' = t.put k row := by
  simp only [insert] at h
  split at h <;> cases h
  next hk => exact ⟨by simpa using hk, rfl⟩

theorem update_eq_some (h : t.update ver k old row = some t') :
    (∃ r, t k = some r ∧ ver r = old) ∧ t' = t.put k row := by
  simp only [update] at h
  split at h <;> cases h
  next hk => exact ⟨Option.map_eq_some_iff.mp hk, rfl⟩

theorem All.put {P : ρ → Prop} (h : t.All P) (hrow : P row) : (t.put k row).All P := by
  intro k' row' hk'
  by_cases hk : k' = k
  · subst hk
    rw [put_self] at hk'
    cases hk'
    exact hrow
  · rw [put_of_ne hk] at hk'
    exact h k' row' hk'

theorem All.delete {P : ρ → Prop} (h : t.All P) : (t.delete k).All P := by
  intro k' row' hk'
  by_cases hk : k' = k
  · subst hk
    rw [Table.delete, Function.update_self] at hk'
    cases hk'
  · rw [Table.delete, Function.update_of_ne hk] at hk'
    exact h k' row' hk'

end Table

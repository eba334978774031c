import Mathlib.Logic.Function.Basic

/-! # Workers and their jobs

Workers make jobs, numbered in the order they are made, and each job belongs to the worker that made
it. `Jobs` says of every job that it stands to its worker in a relation `F`; the lemmas say when
this is kept as a worker or a job goes on and as a job is made. -/

/-- The first `n` jobs have been made, and each stands to its worker as `F` says. -/
structure Jobs {P : Type u} {Q : Type v} (absent : Q) (F : P → Nat → Q → Prop) (workers : Nat → P)
    (jobs : Nat → Q) (owner : Nat → Nat) (n : Nat) : Prop where
  unmade : ∀ r, n ≤ r → jobs r = absent
  each : ∀ r < n, F (workers (owner r)) r (jobs r)

namespace Jobs

variable {P : Type u} {Q : Type v} {absent : Q} {F F' : P → Nat → Q → Prop} {workers : Nat → P}
  {jobs : Nat → Q} {owner : Nat → Nat} {n : Nat}

theorem lt (h : Jobs absent F workers jobs owner n) (hr : jobs r ≠ absent) : r < n := by
  by_contra hle
  exact hr (h.unmade r (Nat.le_of_not_lt hle))

theorem mono (h : Jobs absent F workers jobs owner n) (hF : ∀ {p r q}, F p r q → F' p r q) :
    Jobs absent F' workers jobs owner n :=
  ⟨h.unmade, fun r hr => hF (h.each r hr)⟩

/-- A worker goes on. Its own jobs may stand to it differently afterwards, and so may the others if
the relation changes with the step. -/
theorem moveWorker (h : Jobs absent F workers jobs owner n)
    (hown : ∀ r, owner r = g → F (workers g) r (jobs r) → F' p r (jobs r))
    (hother : ∀ r < n, owner r ≠ g →
      F (workers (owner r)) r (jobs r) → F' (workers (owner r)) r (jobs r)) :
    Jobs absent F' (Function.update workers g p) jobs owner n where
  unmade := h.unmade
  each r hr := by
    have hf := h.each r hr
    by_cases hg : owner r = g
    · rw [hg] at hf ⊢
      rw [Function.update_self]
      exact hown r hg hf
    · rw [Function.update_of_ne hg]
      exact hother r hr hg hf

/-- A job goes on. -/
theorem moveJob (h : Jobs absent F workers jobs owner n) (hr : jobs r ≠ absent)
    (hq : F (workers (owner r)) r (jobs r) → F (workers (owner r)) r q) :
    Jobs absent F workers (Function.update jobs r q) owner n where
  unmade r' hle := by
    have hne : r' ≠ r := fun e => hr (e ▸ h.unmade r' hle)
    rw [Function.update_of_ne hne]
    exact h.unmade r' hle
  each r' hr' := by
    have hf := h.each r' hr'
    by_cases hne : r' = r
    · subst hne
      rw [Function.update_self]
      exact hq hf
    · rw [Function.update_of_ne hne]
      exact hf

/-- Worker `g` makes the next job. -/
theorem make (h : Jobs absent F workers jobs owner n) (hnew : F (workers g) n q) :
    Jobs absent F workers (Function.update jobs n q) (Function.update owner n g) (n + 1) where
  unmade r hle := by
    rw [Function.update_of_ne (by omega)]
    exact h.unmade r (by omega)
  each r hr := by
    by_cases hlast : r = n
    · subst hlast
      rw [Function.update_self, Function.update_self]
      exact hnew
    · rw [Function.update_of_ne hlast, Function.update_of_ne hlast]
      exact h.each r (by omega)

/-- What the worker that goes on keeps, each of the workers keeps. -/
theorem update_keeps {K : P → Prop} (h : K (workers i)) (hp : K (workers g) → K p) :
    K (Function.update workers g p i) := by
  rw [Function.update_apply]
  split
  next hi =>
    subst hi
    exact hp h
  next => exact h

/-- A worker is where it was before one has gone on, or it is the one that has gone on. -/
theorem update_eq (h : Function.update workers g p i = p') : workers i = p' ∨ i = g ∧ p = p' := by
  rw [Function.update_apply] at h
  split at h
  next hi => exact .inr ⟨hi, h⟩
  next => exact .inl h

end Jobs

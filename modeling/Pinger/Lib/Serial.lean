import Mathlib.Data.List.Basic

/-! # Requests on one connection

Several parties write requests to a shared connection and read the lines that come back. A request
waits from the moment it is written until its own party has read the line that completes it; a new
connection starts with none. The connection is used serially when a request is written only while
none waits, and a line is read only by the party whose request waits. -/

namespace Serial

/-- What a party does to the connection. -/
inductive Event (ρ : Type u)
  | opened
  | wrote (w : ρ)
  | heard (w : ρ)
  | completed (w : ρ)
  deriving DecidableEq, Repr

variable {ρ : Type u} [DecidableEq ρ]

namespace Event

/-- The parties whose requests wait after the event. -/
def after (waiting : List ρ) : Event ρ → List ρ
  | .opened => []
  | .wrote w => w :: waiting
  | .heard _ => waiting
  | .completed w => waiting.erase w

/-- The event is in order when the given parties wait. -/
def Legal (waiting : List ρ) : Event ρ → Prop
  | .wrote _ => waiting = []
  | .heard w => ∀ w' ∈ waiting, w' = w
  | .opened | .completed _ => True

end Event

/-- The parties whose requests wait after the events. -/
def waiting (log : List (Event ρ)) : List ρ := log.foldl Event.after []

/-- Every event is in order for what waits when it happens. -/
def Serialised (log : List (Event ρ)) : Prop :=
  ∀ pre e post, log = pre ++ e :: post → e.Legal (waiting pre)

theorem serialised_nil : Serialised ([] : List (Event ρ)) := by
  intro pre e post h
  cases pre <;> cases h

theorem waiting_append_singleton (log : List (Event ρ)) (e : Event ρ) :
    waiting (log ++ [e]) = e.after (waiting log) := by
  simp [waiting]

theorem Serialised.append_singleton {log : List (Event ρ)} {e : Event ρ} (h : Serialised log)
    (he : e.Legal (waiting log)) : Serialised (log ++ [e]) := by
  intro pre e' post heq
  rcases List.append_eq_append_iff.mp heq with ⟨x, rfl, hx⟩ | ⟨x, rfl, hx⟩
  · cases x with
    | nil =>
      cases hx
      simpa using he
    | cons y x =>
      have := congrArg List.length hx
      simp at this
  · cases x with
    | nil =>
      cases hx
      simpa using he
    | cons y x =>
      obtain ⟨rfl, -⟩ := List.cons.inj hx
      exact h pre _ x rfl

/-- A list of events is in order when the given parties wait. -/
def LegalFrom : List ρ → List (Event ρ) → Prop
  | _, [] => True
  | waiting, e :: es => e.Legal waiting ∧ LegalFrom (e.after waiting) es

theorem Serialised.append {log es : List (Event ρ)} (h : Serialised log)
    (hes : LegalFrom (waiting log) es) : Serialised (log ++ es) := by
  induction es generalizing log with
  | nil => simpa using h
  | cons e es ih =>
    have := ih (h.append_singleton hes.1) (by rw [waiting_append_singleton]; exact hes.2)
    simpa using this

theorem waiting_append (log es : List (Event ρ)) :
    waiting (log ++ es) = es.foldl Event.after (waiting log) := List.foldl_append ..

end Serial

import Mathlib.Data.List.Chain

/-! # Runs of a partial step function

A system is a partial step function `step : σ → α → Option σ`; a label that is not enabled in a
state has no successor there. `Run step C` are the runs all of whose steps meet a condition `C`
on the state they are taken from, so `Run step Free` are all runs. A run is proved safe by one
step lemma (`Run.inv`), and it is exhibited by evaluating `exec` or `execIf`. -/

namespace Transition

/-- The condition every step meets. -/
abbrev Free {σ : Type u} {α : Type v} : σ → α → Prop := fun _ _ => True

/-- `Run step C s as s'`: the labels `as` are enabled one after the other from `s`, lead to `s'`,
and each meets `C` in the state it is taken from. -/
inductive Run {σ : Type u} {α : Type v} (step : σ → α → Option σ) (C : σ → α → Prop) :
    σ → List α → σ → Prop
  | nil : Run step C s [] s
  | cons : C s a → step s a = some s' → Run step C s' as s'' → Run step C s (a :: as) s''

variable {σ : Type u} {α : Type v} {step : σ → α → Option σ} {C D : σ → α → Prop}

namespace Run

/-- What every step that meets the condition preserves, every run preserves. -/
theorem inv {I : σ → Prop} (hstep : ∀ {s a s'}, I s → C s a → step s a = some s' → I s')
    (h : Run step C s as s') (h₀ : I s) : I s' := by
  induction h with
  | nil => exact h₀
  | cons hc hs _ ih => exact ih (hstep h₀ hc hs)

theorem mono (hCD : ∀ {s a}, C s a → D s a) (h : Run step C s as s') : Run step D s as s' := by
  induction h with
  | nil => exact .nil
  | cons hc hs _ ih => exact .cons (hCD hc) hs ih

theorem free (h : Run step C s as s') : Run step Free s as s' := h.mono fun _ => trivial

/-- A condition on the labels alone. -/
theorem restrict {P : α → Prop} (h : Run step C s as s') (hP : ∀ a ∈ as, P a) :
    Run step (fun _ a => P a) s as s' := by
  induction h with
  | nil => exact .nil
  | cons _ hs _ ih =>
    exact .cons (hP _ List.mem_cons_self) hs (ih fun b hb => hP b (List.mem_cons_of_mem _ hb))

theorem append (h₁ : Run step C s as s') (h₂ : Run step C s' bs s'') :
    Run step C s (as ++ bs) s'' := by
  induction h₁ with
  | nil => exact h₂
  | cons hc hs _ ih => exact .cons hc hs (ih h₂)

theorem split (h : Run step C s (as ++ bs) s'') :
    ∃ s', Run step C s as s' ∧ Run step C s' bs s'' := by
  induction as generalizing s with
  | nil => exact ⟨s, .nil, h⟩
  | cons a as ih =>
    cases h with
    | cons hc hs h =>
      obtain ⟨s', h₁, h₂⟩ := ih h
      exact ⟨s', .cons hc hs h₁, h₂⟩

/-- A run meets the condition, or there is a first step that does not. -/
theorem first_violation (h : Run step Free s as s') : Run step C s as s' ∨
    ∃ bs a cs t t', as = bs ++ a :: cs ∧ Run step C s bs t ∧ ¬C t a ∧ step t a = some t' ∧
      Run step Free t' cs s' := by
  induction h with
  | nil => exact .inl .nil
  | @cons s a s₁ as s₂ _ hs htail ih =>
    by_cases hc : C s a
    · rcases ih with ih | ⟨bs, b, cs, t, t', rfl, hbs, hb, ht, hcs⟩
      · exact .inl (.cons hc hs ih)
      · exact .inr ⟨a :: bs, b, cs, t, t', rfl, .cons hc hs hbs, hb, ht, hcs⟩
    · exact .inr ⟨[], a, as, s, s₁, rfl, .nil, hc, hs, htail⟩

/-- The labels of a run determine where it leads. -/
theorem det (h₁ : Run step C s as s₁) (h₂ : Run step D s as s₂) : s₁ = s₂ := by
  induction h₁ with
  | nil => cases h₂; rfl
  | cons _ hs _ ih =>
    cases h₂ with
    | cons _ hs' h₂ =>
      cases hs.symm.trans hs'
      exact ih h₂

theorem single (hc : C s a) (hs : step s a = some s') : Run step C s [a] s' := .cons hc hs .nil

theorem snoc (h : Run step C s as s') (hc : C s' a) (hs : step s' a = some s'') :
    Run step C s (as ++ [a]) s'' := h.append (single hc hs)

end Run

/-! ## Evaluating runs -/

/-- Take the labels one after the other. -/
def exec (step : σ → α → Option σ) : σ → List α → Option σ
  | s, [] => some s
  | s, a :: as => (step s a).bind fun s' => exec step s' as

/-- Take the labels one after the other as long as each meets `C`. -/
def execIf (step : σ → α → Option σ) (C : σ → α → Prop) [∀ s a, Decidable (C s a)] :
    σ → List α → Option σ
  | s, [] => some s
  | s, a :: as => if C s a then (step s a).bind fun s' => execIf step C s' as else none

theorem Run.of_exec (h : exec step s as = some s') : Run step Free s as s' := by
  induction as generalizing s with
  | nil => cases h; exact .nil
  | cons a as ih =>
    obtain ⟨t, ht, h⟩ := Option.bind_eq_some_iff.mp h
    exact .cons trivial ht (ih h)

theorem Run.of_execIf [∀ s a, Decidable (C s a)] (h : execIf step C s as = some s') :
    Run step C s as s' := by
  induction as generalizing s with
  | nil => cases h; exact .nil
  | cons a as ih =>
    simp only [execIf] at h
    split at h
    · obtain ⟨t, ht, h⟩ := Option.bind_eq_some_iff.mp h
      exact .cons ‹_› ht (ih h)
    · cases h

/-- The labels of a list that are enabled when their turn comes; the others pass unseen. -/
def feed (step : σ → α → Option σ) : σ → List α → σ
  | s, [] => s
  | s, a :: as => feed step ((step s a).getD s) as

theorem feed_cons (h : step s a = some s') : feed step s (a :: as) = feed step s' as := by
  simp [feed, h]

theorem feed_of_disabled (h : ∀ a ∈ as, step s a = none) : feed step s as = s := by
  induction as with
  | nil => rfl
  | cons a as ih =>
    rw [feed, h a List.mem_cons_self]
    exact ih fun b hb => h b (List.mem_cons_of_mem a hb)

/-! ## Histories -/

/-- The log a list of labels leaves, when a step from `s` by `a` writes `f s a`. -/
def observe (step : σ → α → Option σ) (f : σ → α → List β) : σ → List α → List β
  | _, [] => []
  | s, a :: as => f s a ++ ((step s a).elim [] fun s' => observe step f s' as)

/-- What every step preserves between the log so far and the state, every run preserves. -/
theorem Run.observe_inv {f : σ → α → List β} {I : List β → σ → Prop}
    (hstep : ∀ {log s a s'}, I log s → C s a → step s a = some s' → I (log ++ f s a) s')
    (h : Run step C s as s') (h₀ : I log s) : I (log ++ observe step f s as) s' := by
  induction h generalizing log with
  | nil => simpa [observe] using h₀
  | cons hc hs _ ih =>
    have := ih (hstep h₀ hc hs)
    simpa only [observe, hs, Option.elim_some, List.append_assoc] using this

/-- Between any two other entries of the log stands `sep`. -/
def Spaced (sep : β) (log : List β) : Prop := log.IsChain fun x y => x = sep ∨ y = sep

instance [DecidableEq β] (sep : β) (log : List β) : Decidable (Spaced sep log) :=
  inferInstanceAs (Decidable (log.IsChain _))

theorem spaced_map {f : β → γ} (hf : ∀ x, f x = f sep ↔ x = sep) :
    Spaced (f sep) (log.map f) ↔ Spaced sep log := by
  rw [Spaced, List.isChain_map, Spaced]
  simp only [hf]

end Transition

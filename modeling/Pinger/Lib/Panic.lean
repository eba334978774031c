import Mathlib.Logic.Basic

/-! # Panics and deferred functions

A function of Go whose body may panic. The functions it has deferred run when it returns or panics,
the last one first. `recover` stops a panic only in the deferred function itself: in a function that
this one calls it returns nil, and the panic goes on. -/

namespace Go

/-! ## Deferred functions -/

/-- What a deferred function does, and the functions it calls. The flag says that it is the deferred
function itself that runs; the state is the panic under way and the variables. -/
def Cleanup (σ V α : Type) : Type := Bool → Option V × σ → Except V α × (Option V × σ)

namespace Cleanup

instance : Monad (Cleanup σ V) where
  pure a := fun _ st => (.ok a, st)
  bind c k := fun direct st =>
    match c direct st with
    | (.ok a, st) => k a direct st
    | (.error v, st) => (.error v, st)

/-- `recover()`. -/
def recover : Cleanup σ V (Option V) := fun direct (p, s) =>
  if direct then (.ok p, (none, s)) else (.ok none, (p, s))

/-- The call of another function. -/
def call (c : Cleanup σ V α) : Cleanup σ V α := fun _ st => c false st

def raise (v : V) : Cleanup σ V α := fun _ st => (.error v, st)

def get : Cleanup σ V σ := fun _ (p, s) => (.ok s, (p, s))

def modify (g : σ → σ) : Cleanup σ V Unit := fun _ (p, s) => (.ok (), (p, g s))

theorem bind_apply (c : Cleanup σ V α) (k : α → Cleanup σ V β) (direct : Bool)
    (st : Option V × σ) : (c >>= k) direct st = match c direct st with
      | (.ok a, st) => k a direct st
      | (.error v, st) => (.error v, st) := rfl

/-- It does not panic and leaves the panic it runs under; `g` is its value and what it makes of the
variables. -/
def Keeps (direct : Bool) (c : Cleanup σ V α) (g : σ → α × σ) : Prop :=
  ∀ p s, c direct (p, s) = (.ok (g s).1, (p, (g s).2))

namespace Keeps
variable {c : Cleanup σ V α} {k : α → Cleanup σ V β}

theorem pure (a : α) : Keeps direct (Pure.pure a : Cleanup σ V α) fun s => (a, s) :=
  fun _ _ => rfl

theorem get : Keeps direct (Cleanup.get : Cleanup σ V σ) fun s => (s, s) := fun _ _ => rfl

theorem modify (g : σ → σ) :
    Keeps direct (Cleanup.modify g : Cleanup σ V Unit) fun s => ((), g s) := fun _ _ => rfl

theorem bind {g : σ → α × σ} {r : α → σ → β × σ} (hc : Keeps direct c g)
    (hk : ∀ s, Keeps direct (k (g s).1) (r (g s).1)) :
    Keeps direct (c >>= k) fun s => r (g s).1 (g s).2 := by
  intro p s
  rw [bind_apply, hc p s]
  exact hk s p _

/-- A function that is called runs as one that was not deferred. -/
theorem call {g : σ → α × σ} (hc : Keeps false c g) : Keeps direct (Cleanup.call c) g :=
  fun p s => hc p s

/-- `recover` in a function that was not deferred. -/
theorem recover : Keeps false (Cleanup.recover : Cleanup σ V (Option V)) fun s => (none, s) :=
  fun _ _ => rfl

end Keeps
end Cleanup

/-- The deferred functions, the last one deferred first. One that panics replaces the panic. -/
def unwind : List (Cleanup σ V Unit) → Option V × σ → Option V × σ
  | [], st => st
  | d :: ds, st =>
    match d true st with
    | (.ok _, st) => unwind ds st
    | (.error v, (_, s)) => unwind ds (some v, s)

theorem unwind_cons {d : Cleanup σ V Unit} {g : σ → Unit × σ} (h : d.Keeps true g)
    (ds : List (Cleanup σ V Unit)) (p : Option V) (s : σ) :
    unwind (d :: ds) (p, s) = unwind ds (p, (g s).2) := by
  rw [unwind, h p s]

/-! ## The body -/

/-- How a statement ends. -/
inductive Flow (V α : Type)
  | next (a : α)
  | ret
  | panic (v : V)
  deriving DecidableEq

/-- The panic that the deferred functions run under. -/
def Flow.panicking : Flow V α → Option V
  | .panic v => some v
  | _ => none

/-- The variables of the function, its results among them, and what it has deferred. -/
structure Frame (σ V : Type) where
  vars : σ
  defers : List (Cleanup σ V Unit) := []

def Block (σ V α : Type) : Type := Frame σ V → Flow V α × Frame σ V

namespace Block

instance : Monad (Block σ V) where
  pure a := fun f => (.next a, f)
  bind b k := fun f =>
    match b f with
    | (.next a, f) => k a f
    | (.ret, f) => (.ret, f)
    | (.panic v, f) => (.panic v, f)

/-- `defer d()`. -/
def deferring (d : Cleanup σ V Unit) : Block σ V Unit := fun f =>
  (.next (), { f with defers := d :: f.defers })

/-- `return`. -/
def ret : Block σ V α := fun f => (.ret, f)

def raise (v : V) : Block σ V α := fun f => (.panic v, f)

def get : Block σ V σ := fun f => (.next f.vars, f)

def modify (g : σ → σ) : Block σ V Unit := fun f => (.next (), { f with vars := g f.vars })

/-- A call of the function with this body: the panic that goes on in its caller, if one does, and
the variables at its end. -/
def run (b : Block σ V Unit) (s : σ) : Option V × σ :=
  match b ⟨s, []⟩ with
  | (flow, f) => unwind f.defers (flow.panicking, f.vars)

section
variable (f : Frame σ V)

@[simp] theorem pure_apply (a : α) : (pure a : Block σ V α) f = (.next a, f) := rfl

@[simp] theorem bind_apply (b : Block σ V α) (k : α → Block σ V β) :
    (b >>= k) f = match b f with
      | (.next a, f) => k a f
      | (.ret, f) => (.ret, f)
      | (.panic v, f) => (.panic v, f) := rfl

@[simp] theorem deferring_apply (d : Cleanup σ V Unit) :
    deferring d f = (.next (), { f with defers := d :: f.defers }) := rfl

@[simp] theorem ret_apply : (ret : Block σ V α) f = (.ret, f) := rfl

@[simp] theorem get_apply : get f = (.next f.vars, f) := rfl

@[simp] theorem modify_apply (g : σ → σ) :
    modify g f = (.next (), { f with vars := g f.vars }) := rfl

end

/-! ## Assertions on frames -/

/-- A block that starts in a frame with `P` goes on in one with `Q`, or ends the body in one
with `R`. -/
def Triple (P : Frame σ V → Prop) (b : Block σ V α) (Q : α → Frame σ V → Prop)
    (R : Frame σ V → Prop) : Prop :=
  ∀ f, P f → match b f with
    | (.next a, f) => Q a f
    | (.ret, f) | (.panic _, f) => R f

/-- A block that leaves an assertion true, wherever it ends. -/
abbrev Preserves (P : Frame σ V → Prop) (b : Block σ V α) : Prop := Triple P b (fun _ => P) P

section
variable {P P' R R' : Frame σ V → Prop} {Q Q' : α → Frame σ V → Prop} {S : β → Frame σ V → Prop}
  {b : Block σ V α} {k : α → Block σ V β}

theorem Triple.conseq (h : Triple P b Q R) (hP : ∀ f, P' f → P f) (hQ : ∀ a f, Q a f → Q' a f)
    (hR : ∀ f, R f → R' f) : Triple P' b Q' R' := by
  intro f hf
  have hb := h f (hP f hf)
  revert hb
  cases b f with
  | mk flow f' =>
    cases flow with
    | next a => exact hQ a f'
    | ret | panic v => exact hR f'

theorem Triple.pure {a : α} (h : ∀ f, P f → Q a f) : Triple P (Pure.pure a) Q R := h

theorem Triple.bind (hb : Triple P b Q R) (hk : ∀ a, Triple (Q a) (k a) S R) :
    Triple P (b >>= k) S R := by
  intro f hf
  have hbf := hb f hf
  rw [bind_apply]
  revert hbf
  cases b f with
  | mk flow f' =>
    cases flow with
    | next a => exact hk a f'
    | ret | panic v => exact id

theorem Triple.deferring {d : Cleanup σ V Unit} {Q : Unit → Frame σ V → Prop}
    (h : ∀ f, P f → Q () { f with defers := d :: f.defers }) : Triple P (deferring d) Q R := h

theorem Triple.modify {g : σ → σ} {Q : Unit → Frame σ V → Prop}
    (h : ∀ f, P f → Q () { f with vars := g f.vars }) : Triple P (modify g) Q R := h

theorem Triple.raise {v : V} (h : ∀ f, P f → R f) : Triple P (raise v) Q R := h

theorem Preserves.pure (a : α) : Preserves P (Pure.pure a) := fun _ h => h

theorem Preserves.bind (hb : Preserves P b) (hk : ∀ a, Preserves P (k a)) :
    Preserves P (b >>= k) := Triple.bind hb hk

theorem Preserves.ite {c : Prop} [Decidable c] {b' : Block σ V α} (h : c → Preserves P b)
    (h' : ¬c → Preserves P b') : Preserves P (if c then b else b') := by
  split
  · exact h ‹_›
  · exact h' ‹_›

theorem Preserves.get : Preserves P (Block.get : Block σ V σ) := fun _ h => h

theorem Preserves.ret : Preserves P (Block.ret : Block σ V α) := fun _ h => h

theorem Preserves.raise (v : V) : Preserves P (Block.raise v : Block σ V α) :=
  Triple.raise fun _ h => h

end

/-- Whatever panic they run under, the deferred functions leave it and end in variables
with `I`. -/
def Settles (I : σ → Prop) (f : Frame σ V) : Prop :=
  ∀ p, ∃ s, unwind f.defers (p, f.vars) = (p, s) ∧ I s

theorem Settles.nil {I : σ → Prop} (h : I s) : Settles I (⟨s, []⟩ : Frame σ V) :=
  fun _ => ⟨s, rfl, h⟩

theorem Settles.cons {I : σ → Prop} {d : Cleanup σ V Unit} {g : σ → Unit × σ}
    (hd : d.Keeps true g) (h : Settles I ⟨(g s).2, ds⟩) : Settles I ⟨s, d :: ds⟩ := by
  intro p
  rw [unwind_cons hd]
  exact h p

/-- A panic of the body goes on in the caller when no deferred function stops it. -/
theorem run_settles {b : Block σ V Unit} {P : Frame σ V → Prop} {I : σ → Prop}
    (h : Triple P b (fun _ => Settles I) (Settles I)) (h₀ : P ⟨s, []⟩) :
    ∃ s', run b s = ((b ⟨s, []⟩).1.panicking, s') ∧ I s' := by
  have hb := h _ h₀
  rw [run]
  revert hb
  cases b ⟨s, []⟩ with
  | mk flow f =>
    cases flow with
    | next a | ret | panic v => exact fun hb => hb _

end Block

end Go

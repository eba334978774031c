import Mathlib.Logic.Basic

/-! # A finite state machine driven by named events

An event names its source states and its destination. A call first checks that the event is
legal in the current state (`begin`), then the callbacks of the state that is left run, then the
current state changes (`transit`), then those of the state that is entered run, and only then
the transition is over (`finish`). The three parts are separate, since other threads may act
while the callbacks run. -/

namespace EventFsm

structure EventDesc (ν : Type) where
  name : ν
  src : List ν
  dst : ν

inductive EventError (ν : Type)
  | inTransition (event : ν)
  | invalidEvent (event current : ν)
  | unknownEvent (event : ν)
  | noTransition
  deriving DecidableEq, Repr

/-- The current state and the destination of the transition in progress. -/
structure Fsm (ν : Type) where
  current : ν
  transition : Option ν := none
  deriving DecidableEq, Repr

variable {ν : Type} [DecidableEq ν]

/-- The table from event and source state to destination. A later entry overwrites an earlier. -/
def transitions (events : List (EventDesc ν)) (event current : ν) : Option ν :=
  (events.filter fun d => d.name = event ∧ current ∈ d.src).getLast?.map (·.dst)

/-- A call with an event, up to the callbacks of the state that is left. -/
def begin (events : List (EventDesc ν)) (f : Fsm ν) (event : ν) :
    Except (EventError ν) (Fsm ν) :=
  if f.transition.isSome then .error (.inTransition event)
  else match transitions events event f.current with
    | none =>
      if events.any fun d => d.name = event ∧ d.src ≠ [] then
        .error (.invalidEvent event f.current)
      else .error (.unknownEvent event)
    | some dst =>
      if f.current = dst then .error .noTransition else .ok { f with transition := some dst }

def Fsm.transit (f : Fsm ν) : Fsm ν := { f with current := f.transition.getD f.current }

def Fsm.finish (f : Fsm ν) : Fsm ν := { f with transition := none }

end EventFsm

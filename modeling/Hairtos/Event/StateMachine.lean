import Hairtos.Event.Event

/-!
The flat state machine of `he_state_machine.c`. State handlers are functions of a world of their own and of the
event; on the machine they act through `he_state_transition` only, so the answer of a handler is the list of
targets it passed there, its result and the world it leaves.
-/

namespace Hairtos

variable {H σ : Type}

def stateMachineMagic : Nat := 0x4845534D

def maxInitTransitions : Nat := 8

inductive StateResult
  | handled
  | ignored
  | transition
  -- a value outside the enumeration
  | other
  deriving DecidableEq, Repr

structure StateMachine (H : Type) where
  initial : Option H
  current : Option H
  target : Option H
  magic : Nat
  started : Bool
  deriving DecidableEq, Repr

structure Answer (H σ : Type) where
  requests : List (Option H)
  world : σ
  result : StateResult

abbrev Handlers (H σ : Type) := H → σ → HeEvent → Answer H σ

structure Stage (H σ : Type) where
  machine : StateMachine H
  world : σ
  calls : List (H × HeEvent)

def StateMachine.isValid (m : StateMachine H) : Bool := m.magic == stateMachineMagic && m.initial.isSome

def StateMachine.isStarted (m : StateMachine H) : Bool := m.isValid && m.started

def stateMachineInit (m : StateMachine H) (initialState : Option H) : StateMachine H × Status :=
  if initialState.isNone then (m, .invalidArgument)
  else if m.isValid then (m, .invalidState)
  else
    ({ initial := initialState, current := initialState, target := none, magic := stateMachineMagic,
       started := false }, .ok)

def stateTransition (m : StateMachine H) (targetState : Option H) : StateMachine H × StateResult :=
  if !m.isValid || targetState.isNone then (m, .ignored)
  else ({ m with target := targetState }, .transition)

def Stage.callCurrent (f : Handlers H σ) (s : Stage H σ) (event : HeEvent) : Stage H σ × StateResult :=
  match s.machine.current with
  | none => (s, .other)
  | some h =>
    let answer := f h s.world event
    ({ machine := answer.requests.foldl (fun m target => (stateTransition m target).1) s.machine
       world := answer.world
       calls := s.calls ++ [(h, event)] }, answer.result)

def dispatchReserved (t : Target) (f : Handlers H σ) (s : Stage H σ) (signal : Nat) :
    Stage H σ × Except Status StateResult :=
  let r := eventInitStatic t ⟨0, 0, 0, 0, 0, 0⟩ signal t.eventBytes
  if r.2 ≠ .ok then (s, .error .internal)
  else
    let s := Stage.callCurrent f { s with machine := { s.machine with target := none } } r.1
    (s.1, .ok s.2)

/-- The part that `he_state_machine_start` and `he_apply_transition` have in common: ENTRY of the current state,
then INIT unless a target is set. -/
def enterCurrent (t : Target) (f : Handlers H σ) (s : Stage H σ) : Stage H σ × Status :=
  match dispatchReserved t f s sigEntry with
  | (s, .error _) => (s, .internal)
  | (s, .ok result) =>
    if result = .transition ∧ s.machine.target.isNone then (s, .invalidState)
    else if s.machine.target.isNone then
      match dispatchReserved t f s sigInit with
      | (s, .error _) => (s, .internal)
      | (s, .ok result) =>
        if result = .transition ∧ s.machine.target.isNone then (s, .invalidState) else (s, .ok)
    else (s, .ok)

def followTransition (t : Target) (f : Handlers H σ) (s : Stage H σ) (target : H) : Stage H σ × Status :=
  match dispatchReserved t f { s with machine := { s.machine with target := none } } sigExit with
  | (s, .error _) => (s, .internal)
  | (s, .ok _) => enterCurrent t f { s with machine := { s.machine with current := some target } }

def applyTransitionRound (t : Target) (f : Handlers H σ) (next : Stage H σ → Stage H σ × Status)
    (s : Stage H σ) :
    Stage H σ × Status :=
  match s.machine.target with
  | none => (s, .ok)
  | some target =>
    let r := followTransition t f s target
    if r.2 ≠ .ok then r else next r.1

/-- The loop; `left` is the bound less `transition_count`. -/
def applyTransitionLoop (t : Target) (f : Handlers H σ) : Nat → Stage H σ → Stage H σ × Status
  | 0 => applyTransitionRound t f (fun s => (s, .overflow))
  | left + 1 => applyTransitionRound t f (applyTransitionLoop t f left)

def applyTransition (t : Target) (f : Handlers H σ) (s : Stage H σ) : Stage H σ × Status :=
  applyTransitionLoop t f maxInitTransitions s

def stateMachineStart (t : Target) (f : Handlers H σ) (s : Stage H σ) : Stage H σ × Status :=
  if s.machine.isValid = false then (s, .invalidArgument)
  else if s.machine.started then (s, .invalidState)
  else
    let r := enterCurrent t f { s with machine := { s.machine with current := s.machine.initial, started := true } }
    if r.2 ≠ .ok then r else applyTransition t f r.1

def stateMachineDispatch (t : Target) (poolIsValid : Nat → Bool) (f : Handlers H σ) (s : Stage H σ)
    (event : Option HeEvent) : Stage H σ × Status :=
  match event with
  | none => (s, .invalidArgument)
  | some event =>
    if s.machine.isValid = false ∨ s.machine.isStarted = false ∨ event.isValid t poolIsValid = false then
      (s, .invalidArgument)
    else
      let r := Stage.callCurrent f { s with machine := { s.machine with target := none } } event
      match r.2 with
      | .transition => if r.1.machine.target.isNone then (r.1, .invalidState) else applyTransition t f r.1
      | .handled => (r.1, .ok)
      | .ignored => (r.1, .ok)
      | .other => (r.1, .invalidState)

end Hairtos

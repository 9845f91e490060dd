import Hairtos.Event.StateMachine
import Mathlib.Data.List.ReduceOption

namespace Hairtos

variable {H σ : Type}

def Answer.target (answer : Answer H σ) : Option H := answer.requests.reduceOption.getLast?

def reservedEvent (t : Target) (signal : Nat) : HeEvent where
  pool := 0
  magic := eventMagic
  size := t.eventBytes
  referenceCount := 0
  signal := signal
  flags := eventFlagStatic

inductive Phase (H : Type)
  | event (event : HeEvent)
  | exit (target : H)
  | entry
  | init

def Phase.occasion (t : Target) : Phase H → HeEvent
  | .event e => e
  | .exit _ => reservedEvent t sigExit
  | .entry => reservedEvent t sigEntry
  | .init => reservedEvent t sigInit

inductive Sequel (H : Type)
  | halt (status : Status)
  | call (current : H) (phase : Phase H) (begun : Nat)

def Sequel.entered (current : H) (begun : Nat) (target : Option H) : Sequel H :=
  if begun > maxInitTransitions then .halt .overflow
  else
    match target with
    | none => .halt .ok
    | some target => .call current (.exit target) (begun + 1)

def Phase.sequel (phase : Phase H) (current : H) (begun : Nat) (answer : Answer H σ) : Sequel H :=
  match phase with
  | .event _ =>
    match answer.result, answer.target with
    | .transition, some target => .call current (.exit target) (begun + 1)
    | .transition, none => .halt .invalidState
    | .handled, _ => .halt .ok
    | .ignored, _ => .halt .ok
    | .other, _ => .halt .invalidState
  | .exit target => .call target .entry begun
  | .entry =>
    match answer.target, answer.result with
    | some target, _ => .entered current begun (some target)
    | none, .transition => .halt .invalidState
    | none, _ => .call current .init begun
  | .init =>
    match answer.target, answer.result with
    | some target, _ => .entered current begun (some target)
    | none, .transition => .halt .invalidState
    | none, _ => .entered current begun none

inductive Unfolds (t : Target) (f : Handlers H σ) :
    H → Phase H → Nat → σ → List (H × HeEvent) → Status → H → σ → Prop
  | halt (phase : Phase H) {current : H} {begun : Nat} {world : σ} {status : Status}
      (h : phase.sequel current begun (f current world (phase.occasion t)) = .halt status) :
      Unfolds t f current phase begun world [(current, phase.occasion t)] status current
        (f current world (phase.occasion t)).world
  | call (phase : Phase H) {current current' last : H} {phase' : Phase H} {begun begun' : Nat} {world world' : σ}
      {status : Status} {calls : List (H × HeEvent)}
      (h : phase.sequel current begun (f current world (phase.occasion t)) = .call current' phase' begun')
      (rest : Unfolds t f current' phase' begun' (f current world (phase.occasion t)).world calls status last world') :
      Unfolds t f current phase begun world ((current, phase.occasion t) :: calls) status last world'

section

variable {t : Target} {f : Handlers H σ} {current last last' : H} {phase : Phase H} {begun : Nat}
    {world world' w' : σ}
  {calls calls' : List (H × HeEvent)} {status status' : Status}

theorem Unfolds.unique (h : Unfolds t f current phase begun world calls status last world')
    (h' : Unfolds t f current phase begun world calls' status' last' w') :
    calls = calls' ∧ status = status' ∧ last = last' ∧ world' = w' := by
  induction h generalizing calls' with
  | halt phase hseq =>
    cases h' with
    | halt _ hseq' =>
      rw [hseq] at hseq'
      cases hseq'
      exact ⟨rfl, rfl, rfl, rfl⟩
    | call _ hseq' _ =>
      rw [hseq] at hseq'
      cases hseq'
  | call phase hseq _ ih =>
    cases h' with
    | halt _ hseq' =>
      rw [hseq] at hseq'
      cases hseq'
    | call _ hseq' hrest =>
      rw [hseq] at hseq'
      cases hseq'
      obtain ⟨rfl, hend⟩ := ih hrest
      exact ⟨rfl, hend⟩

def Sequel.Runs (t : Target) (f : Handlers H σ) (current : H) (world : σ) (calls : List (H × HeEvent))
    (status : Status) (last : H) (world' : σ) : Sequel H → Prop
  | .halt status' => calls = [] ∧ status = status' ∧ last = current ∧ world' = world
  | .call current' phase begun => Unfolds t f current' phase begun world calls status last world'

theorem unfolds_iff :
    Unfolds t f current phase begun world calls status last world' ↔
      ∃ rest, calls = (current, phase.occasion t) :: rest ∧
        (phase.sequel current begun (f current world (phase.occasion t))).Runs t f current
          (f current world (phase.occasion t)).world rest status last world' := by
  constructor
  · intro h
    cases h with
    | halt _ hseq =>
      refine ⟨_, rfl, ?_⟩
      rw [hseq]
      exact ⟨rfl, rfl, rfl, rfl⟩
    | call _ hseq hrest =>
      refine ⟨_, rfl, ?_⟩
      rw [hseq]
      exact hrest
  · rintro ⟨rest, rfl, h⟩
    cases hseq : phase.sequel current begun (f current world (phase.occasion t)) with
    | halt status' =>
      rw [hseq] at h
      obtain ⟨rfl, rfl, rfl, rfl⟩ := h
      exact .halt phase hseq
    | call current' phase' begun' =>
      rw [hseq] at h
      exact .call phase hseq h

structure Entry (H σ : Type) where
  calls : List (H × HeEvent)
  world : σ
  target : Option H
  status : Status

def Entry.sequel (e : Entry H σ) (current : H) (begun : Nat) : Sequel H :=
  if e.status = .ok then .entered current begun e.target else .halt e.status

def Answer.entry (answer : Answer H σ) (calls : List (H × HeEvent)) : Entry H σ where
  calls := calls
  world := answer.world
  target := answer.target
  status := if answer.result = .transition ∧ answer.target.isNone then .invalidState else .ok

def entering (t : Target) (f : Handlers H σ) (h : H) (world : σ) : Entry H σ :=
  let entry := f h world (reservedEvent t sigEntry)
  if entry.result ≠ .transition ∧ entry.target.isNone then
    (f h entry.world (reservedEvent t sigInit)).entry [(h, reservedEvent t sigEntry), (h, reservedEvent t sigInit)]
  else entry.entry [(h, reservedEvent t sigEntry)]

theorem Phase.sequel_init (answer : Answer H σ) (calls : List (H × HeEvent)) :
    Phase.sequel .init current begun answer = (answer.entry calls).sequel current begun := by
  cases htarget : answer.target with
  | some target => simp [Phase.sequel, Answer.entry, Entry.sequel, htarget]
  | none => cases hresult : answer.result <;> simp [Phase.sequel, Answer.entry, Entry.sequel, htarget, hresult]

theorem Phase.sequel_entry (answer : Answer H σ) (calls : List (H × HeEvent)) :
    Phase.sequel .entry current begun answer =
      if answer.result ≠ .transition ∧ answer.target.isNone then .call current .init begun
      else (answer.entry calls).sequel current begun := by
  cases htarget : answer.target with
  | some target => simp [Phase.sequel, Answer.entry, Entry.sequel, htarget]
  | none => cases hresult : answer.result <;> simp [Phase.sequel, Answer.entry, Entry.sequel, htarget, hresult]

theorem unfolds_init_iff (made : List (H × HeEvent)) :
    Unfolds t f current .init begun world calls status last world' ↔
      ∃ rest, calls = (current, reservedEvent t sigInit) :: rest ∧
        (((f current world (reservedEvent t sigInit)).entry made).sequel current begun).Runs t f current
          (f current world (reservedEvent t sigInit)).world rest status last world' := by
  rw [unfolds_iff, Phase.sequel_init _ made]
  exact Iff.rfl

theorem unfolds_entry_iff :
    Unfolds t f current .entry begun world calls status last world' ↔
      ∃ rest, calls = (entering t f current world).calls ++ rest ∧
        ((entering t f current world).sequel current begun).Runs t f current (entering t f current world).world rest
          status last world' := by
  have hentry : Phase.sequel .entry current begun (f current world ((Phase.entry : Phase H).occasion t)) = _ :=
    Phase.sequel_entry (f current world (reservedEvent t sigEntry)) [(current, reservedEvent t sigEntry)]
  rw [unfolds_iff, hentry, entering]
  by_cases hinit : (f current world (reservedEvent t sigEntry)).result ≠ .transition ∧
      (f current world (reservedEvent t sigEntry)).target.isNone
  · simp only [if_pos hinit]
    constructor
    · rintro ⟨_, rfl, h⟩
      obtain ⟨rest, rfl, hrest⟩ := (unfolds_init_iff _).mp h
      exact ⟨rest, rfl, hrest⟩
    · rintro ⟨rest, rfl, h⟩
      exact ⟨_, rfl, (unfolds_init_iff _).mpr ⟨rest, rfl, h⟩⟩
  · simp only [if_neg hinit]
    exact Iff.rfl

theorem unfolds_exit_iff {target : H} {w : σ} (hw : (f current world (reservedEvent t sigExit)).world = w) :
    Unfolds t f current (.exit target) begun world calls status last world' ↔
      ∃ rest, calls = (current, reservedEvent t sigExit) :: (entering t f target w).calls ++ rest ∧
        ((entering t f target w).sequel target begun).Runs t f target (entering t f target w).world rest status last
          world' := by
  subst hw
  rw [unfolds_iff]
  constructor
  · rintro ⟨_, rfl, h⟩
    obtain ⟨rest, rfl, hrest⟩ := unfolds_entry_iff.mp h
    exact ⟨rest, rfl, hrest⟩
  · rintro ⟨rest, rfl, h⟩
    exact ⟨_, rfl, unfolds_entry_iff.mpr ⟨rest, rfl, h⟩⟩

end

structure StateMachine.At (m : StateMachine H) (initial current : H) (started : Bool) : Prop where
  magic : m.magic = stateMachineMagic
  initial_eq : m.initial = some initial
  current_eq : m.current = some current
  started_eq : m.started = started

namespace StateMachine.At

variable {m : StateMachine H} {initial current : H} {started : Bool}

theorem isValid (h : m.At initial current started) : m.isValid = true := by
  simp [StateMachine.isValid, h.magic, h.initial_eq]

theorem setTarget (h : m.At initial current started) (target : Option H) :
    StateMachine.At { m with target := target } initial current started :=
  ⟨h.magic, h.initial_eq, h.current_eq, h.started_eq⟩

theorem requests (h : m.At initial current started) (targets : List (Option H)) :
    StateMachine.At (targets.foldl (fun m target => (stateTransition m target).1) m) initial current started ∧
      (targets.foldl (fun m target => (stateTransition m target).1) m).target =
        targets.reduceOption.getLast?.or m.target := by
  induction targets generalizing m with
  | nil => exact ⟨h, rfl⟩
  | cons target targets ih =>
    rw [List.foldl_cons]
    cases target with
    | none =>
      have heq : (stateTransition m none).1 = m := by simp [stateTransition]
      rw [heq, List.reduceOption_cons_of_none]
      exact ih h
    | some target =>
      have heq : (stateTransition m (some target)).1 = { m with target := some target } := by
        simp [stateTransition, h.isValid]
      obtain ⟨hat, htarget⟩ := ih (h.setTarget (some target))
      rw [heq, List.reduceOption_cons_of_some]
      refine ⟨hat, htarget.trans ?_⟩
      cases hlast : targets.reduceOption with
      | nil => simp
      | cons x xs => simp [List.getLast?_cons]

end StateMachine.At

structure Stage.At (s : Stage H σ) (initial current : H) (started : Bool) (world : σ) (calls : List (H × HeEvent)) :
    Prop where
  machine : s.machine.At initial current started
  world_eq : s.world = world
  calls_eq : s.calls = calls

namespace Stage.At

variable {t : Target} {f : Handlers H σ} {s : Stage H σ} {initial current : H} {started : Bool} {world : σ}
  {calls : List (H × HeEvent)}

theorem called (h : s.At initial current started world calls) (event : HeEvent) :
    ∃ s', Stage.callCurrent f { s with machine := { s.machine with target := none } } event =
        (s', (f current world event).result) ∧
      s'.At initial current started (f current world event).world (calls ++ [(current, event)]) ∧
      s'.machine.target = (f current world event).target := by
  obtain ⟨hmachine, rfl, rfl⟩ := h
  obtain ⟨hat, htarget⟩ := (hmachine.setTarget none).requests (f current s.world event).requests
  simp only [Stage.callCurrent, hmachine.current_eq] at hat htarget ⊢
  exact ⟨_, rfl, ⟨hat, rfl, rfl⟩, htarget.trans Option.or_none⟩

theorem reserved (h : s.At initial current started world calls) {signal : Nat} (hsignal : signal ≠ sigNone) :
    ∃ s', dispatchReserved t f s signal = (s', .ok (f current world (reservedEvent t signal)).result) ∧
      s'.At initial current started (f current world (reservedEvent t signal)).world
        (calls ++ [(current, reservedEvent t signal)]) ∧
      s'.machine.target = (f current world (reservedEvent t signal)).target := by
  have hinit : eventInitStatic t ⟨0, 0, 0, 0, 0, 0⟩ signal t.eventBytes = (reservedEvent t signal, .ok) := by
    have := t.event_fits
    rw [eventInitStatic, if_neg]
    · rfl
    · simp only [uint16Max]
      omega
  obtain ⟨s', hcall, hat, htarget⟩ := h.called (f := f) (reservedEvent t signal)
  refine ⟨s', ?_, hat, htarget⟩
  simp [dispatchReserved, hinit, hcall]

end Stage.At

namespace Stage.At

variable {t : Target} {f : Handlers H σ} {s : Stage H σ} {initial current : H} {started : Bool} {world : σ}
  {calls : List (H × HeEvent)}

theorem setCurrent (h : s.At initial current started world calls) (target : H) :
    Stage.At { s with machine := { s.machine with current := some target } } initial target started world calls :=
  ⟨⟨h.machine.magic, h.machine.initial_eq, rfl, h.machine.started_eq⟩, h.world_eq, h.calls_eq⟩

theorem enters (h : s.At initial current started world calls) :
    ∃ s', enterCurrent t f s = (s', (entering t f current world).status) ∧
      s'.At initial current started (entering t f current world).world (calls ++ (entering t f current world).calls) ∧
      s'.machine.target = (entering t f current world).target := by
  obtain ⟨s₁, hentry, hat₁, htarget₁⟩ := h.reserved (t := t) (f := f) (show sigEntry ≠ sigNone by decide)
  obtain ⟨s₂, hinit, hat₂, htarget₂⟩ := hat₁.reserved (t := t) (f := f) (show sigInit ≠ sigNone by decide)
  rw [List.append_assoc] at hat₂
  simp only [enterCurrent, hentry, htarget₁, hinit, htarget₂, entering, Answer.entry]
  by_cases hnone : (f current world (reservedEvent t sigEntry)).target.isNone = true
  · by_cases hresult : (f current world (reservedEvent t sigEntry)).result = .transition
    · exact ⟨s₁, by simp [hnone, hresult], by simpa [hresult] using hat₁, by simpa [hresult] using htarget₁⟩
    · refine ⟨s₂, ?_, by simpa [hnone, hresult] using hat₂, by simpa [hnone, hresult] using htarget₂⟩
      simp only [hnone, hresult, false_and, if_false, if_true, ne_eq, not_false_eq_true, and_self]
      split <;> rfl
  · exact ⟨s₁, by simp [hnone], by simpa [hnone] using hat₁, by simpa [hnone] using htarget₁⟩

theorem follows (h : s.At initial current started world calls) (target : H) {w : σ}
    (hw : (f current world (reservedEvent t sigExit)).world = w) :
    ∃ s', followTransition t f s target = (s', (entering t f target w).status) ∧
      s'.At initial target started (entering t f target w).world
        (calls ++ ((current, reservedEvent t sigExit) :: (entering t f target w).calls)) ∧
      s'.machine.target = (entering t f target w).target := by
  have hclear : Stage.At { s with machine := { s.machine with target := none } } initial current started world calls :=
    ⟨h.machine.setTarget none, h.world_eq, h.calls_eq⟩
  obtain ⟨s₁, hexit, hat₁, -⟩ := hclear.reserved (t := t) (f := f) (show sigExit ≠ sigNone by decide)
  rw [hw] at hat₁
  obtain ⟨s₂, henter, hat₂, htarget⟩ := (hat₁.setCurrent target).enters (t := t) (f := f)
  rw [List.append_assoc] at hat₂
  exact ⟨s₂, by simp only [followTransition, hexit, henter], hat₂, htarget⟩

end Stage.At

def CarriesOut (t : Target) (f : Handlers H σ) (next : Stage H σ → Stage H σ × Status) (begun : Nat) : Prop :=
  ∀ (s : Stage H σ) (initial current : H) (started : Bool) (world : σ) (calls : List (H × HeEvent)),
    s.At initial current started world calls →
    ∃ s' status made last world', next s = (s', status) ∧ s'.At initial last started world' (calls ++ made) ∧
      (Sequel.entered current begun s.machine.target).Runs t f current world made status last world'

variable {t : Target} {f : Handlers H σ} {s : Stage H σ} {initial current : H} {begun : Nat} {status status' : Status}
  {calls calls' : List (H × HeEvent)} {next : Stage H σ → Stage H σ × Status}

theorem CarriesOut.entered (h : CarriesOut t f next begun) {r : Stage H σ × Status} {e : Entry H σ} {started : Bool}
    (hr : r = (s, e.status))
    (hat : s.At initial current started e.world calls) (htarget : s.machine.target = e.target) :
    ∃ s' status made last world', (if r.2 ≠ .ok then r else next r.1) = (s', status) ∧
      s'.At initial last started world' (calls ++ made) ∧
      (e.sequel current begun).Runs t f current e.world made status last world' := by
  subst hr
  by_cases hok : e.status = .ok
  · obtain ⟨s', status, made, last, world', hnext, hat', hruns⟩ := h _ _ _ _ _ _ hat
    rw [htarget] at hruns
    exact ⟨s', status, made, last, world', by simp [hok, hnext], hat', by rwa [Entry.sequel, if_pos hok]⟩
  · refine ⟨s, e.status, [], current, e.world, by simp [hok], by rwa [List.append_nil], ?_⟩
    rw [Entry.sequel, if_neg hok]
    exact ⟨rfl, rfl, rfl, rfl⟩

theorem applyTransitionRound_carriesOut (hbegun : begun ≤ maxInitTransitions)
    (hnext : CarriesOut t f next (begun + 1)) :
    CarriesOut t f (applyTransitionRound t f next) begun := by
  intro s initial current started world calls h
  unfold applyTransitionRound Sequel.entered
  rw [if_neg (not_lt.mpr hbegun)]
  cases htarget : s.machine.target with
  | none => exact ⟨s, .ok, [], current, world, rfl, by rwa [List.append_nil], rfl, rfl, rfl, rfl⟩
  | some target =>
    obtain ⟨s₁, hfollow, hat, htarget⟩ := h.follows (t := t) (f := f) target rfl
    obtain ⟨s₂, status, made, last, world', hround, hat₂, hruns⟩ := hnext.entered hfollow hat htarget
    exact ⟨s₂, status, _, last, world', hround, by rwa [List.append_assoc] at hat₂,
      (unfolds_exit_iff rfl).mpr ⟨made, rfl, hruns⟩⟩

theorem applyTransitionLoop_carriesOut (t : Target) (f : Handlers H σ) {left : Nat} (h : left ≤ maxInitTransitions) :
    CarriesOut t f (applyTransitionLoop t f left) (maxInitTransitions - left) := by
  induction left with
  | zero =>
    refine applyTransitionRound_carriesOut (Nat.sub_le _ _) ?_
    intro s initial current started world calls hat
    exact ⟨s, .overflow, [], current, world, rfl, by rwa [List.append_nil], rfl, rfl, rfl, rfl⟩
  | succ left ih =>
    have hbegun : maxInitTransitions - (left + 1) + 1 = maxInitTransitions - left := by omega
    refine applyTransitionRound_carriesOut (Nat.sub_le _ _) ?_
    rw [hbegun]
    exact ih (by omega)

theorem applyTransition_carriesOut (t : Target) (f : Handlers H σ) : CarriesOut t f (applyTransition t f) 0 :=
  applyTransitionLoop_carriesOut t f (le_refl _)

inductive MachineCall (σ : Type)
  | start
  | dispatch (poolIsValid : Nat → Bool) (event : Option HeEvent)
  | environment (world : σ)

def Stage.serve (t : Target) (f : Handlers H σ) (s : Stage H σ) : MachineCall σ → Stage H σ × Status
  | .start => stateMachineStart t f { s with calls := [] }
  | .dispatch poolIsValid event => stateMachineDispatch t poolIsValid f { s with calls := [] } event
  | .environment world => ({ s with world := world, calls := [] }, .ok)

def Stage.run (t : Target) (f : Handlers H σ) : Stage H σ → List (MachineCall σ) →
    Stage H σ × List (Status × List (H × HeEvent))
  | s, [] => (s, [])
  | s, c :: cs =>
    let r := s.serve t f c
    let rest := Stage.run t f r.1 cs
    (rest.1, (r.2, r.1.calls) :: rest.2)

structure MachineView (H σ : Type) where
  current : H
  started : Bool
  world : σ

inductive Serves (t : Target) (f : Handlers H σ) (initial : H) :
    MachineView H σ → MachineCall σ → Status → List (H × HeEvent) → MachineView H σ → Prop
  | start {current last : H} {world world' : σ} {status : Status} {calls : List (H × HeEvent)}
      (h : Unfolds t f initial .entry 0 world calls status last world') :
      Serves t f initial ⟨current, false, world⟩ .start status calls ⟨last, true, world'⟩
  | startAgain {current : H} {world : σ} :
      Serves t f initial ⟨current, true, world⟩ .start .invalidState [] ⟨current, true, world⟩
  | dispatch {current last : H} {world world' : σ} {poolIsValid : Nat → Bool} {event : HeEvent} {status : Status}
      {calls : List (H × HeEvent)} (hvalid : event.isValid t poolIsValid = true)
      (h : Unfolds t f current (.event event) 0 world calls status last world') :
      Serves t f initial ⟨current, true, world⟩ (.dispatch poolIsValid (some event)) status calls
        ⟨last, true, world'⟩
  | refused {v : MachineView H σ} {poolIsValid : Nat → Bool} {event : Option HeEvent}
      (h : v.started = false ∨ ∀ e ∈ event, e.isValid t poolIsValid = false) :
      Serves t f initial v (.dispatch poolIsValid event) .invalidArgument [] v
  | environment {current : H} {started : Bool} {world world' : σ} :
      Serves t f initial ⟨current, started, world⟩ (.environment world') .ok [] ⟨current, started, world'⟩

inductive ServesAll (t : Target) (f : Handlers H σ) (initial : H) :
    MachineView H σ → List (MachineCall σ) → List (Status × List (H × HeEvent)) → MachineView H σ → Prop
  | nil {v : MachineView H σ} : ServesAll t f initial v [] [] v
  | cons {v v' v'' : MachineView H σ} {c : MachineCall σ} {cs : List (MachineCall σ)} {status : Status}
      {calls : List (H × HeEvent)} {results : List (Status × List (H × HeEvent))}
      (h : Serves t f initial v c status calls v') (rest : ServesAll t f initial v' cs results v'') :
      ServesAll t f initial v (c :: cs) ((status, calls) :: results) v''

variable {v w w' : MachineView H σ} {c : MachineCall σ}

theorem Serves.unique (h : Serves t f initial v c status calls w)
    (h' : Serves t f initial v c status' calls' w') : status = status' ∧ calls = calls' ∧ w = w' := by
  cases h with
  | start hunfolds =>
    cases h' with
    | start hunfolds' =>
      obtain ⟨rfl, rfl, rfl, rfl⟩ := hunfolds.unique hunfolds'
      exact ⟨rfl, rfl, rfl⟩
  | startAgain =>
    cases h'
    exact ⟨rfl, rfl, rfl⟩
  | dispatch hvalid hunfolds =>
    cases h' with
    | dispatch _ hunfolds' =>
      obtain ⟨rfl, rfl, rfl, rfl⟩ := hunfolds.unique hunfolds'
      exact ⟨rfl, rfl, rfl⟩
    | refused hrefused => simp [hvalid] at hrefused
  | refused hrefused =>
    cases h' with
    | dispatch hvalid _ => simp [hvalid] at hrefused
    | refused _ => exact ⟨rfl, rfl, rfl⟩
  | environment =>
    cases h'
    exact ⟨rfl, rfl, rfl⟩

def Stage.Shows (s : Stage H σ) (initial : H) (v : MachineView H σ) : Prop :=
  s.machine.At initial v.current v.started ∧ s.world = v.world

theorem Stage.Shows.start (h : s.Shows initial v) :
    ∃ v', Serves t f initial v .start (s.serve t f .start).2 (s.serve t f .start).1.calls v' ∧
      (s.serve t f .start).1.Shows initial v' := by
  obtain ⟨current, started, world⟩ := v
  obtain ⟨hat, rfl⟩ := h
  simp only [Stage.serve, stateMachineStart, hat.isValid, Bool.true_eq_false, if_false, hat.started_eq]
  cases started with
  | true => exact ⟨_, .startAgain, hat, rfl⟩
  | false =>
    have hopen : Stage.At
        { s with machine := { s.machine with current := s.machine.initial, started := true }, calls := [] }
        initial initial true s.world [] := ⟨⟨hat.magic, hat.initial_eq, hat.initial_eq, rfl⟩, rfl, rfl⟩
    obtain ⟨s₁, henter, hat₁, htarget⟩ := hopen.enters (t := t) (f := f)
    obtain ⟨s₂, status, made, last, w, hstart, hat₂, hruns⟩ :=
      (applyTransition_carriesOut t f).entered henter hat₁ htarget
    simp only [Bool.false_eq_true, if_false, hstart]
    refine ⟨⟨last, true, w⟩, ?_, hat₂.machine, hat₂.world_eq⟩
    rw [hat₂.calls_eq]
    exact .start (unfolds_entry_iff.mpr ⟨made, rfl, hruns⟩)

theorem Stage.Shows.dispatch (h : s.Shows initial v) (poolIsValid : Nat → Bool) (event : Option HeEvent) :
    ∃ v', Serves t f initial v (.dispatch poolIsValid event) (s.serve t f (.dispatch poolIsValid event)).2
        (s.serve t f (.dispatch poolIsValid event)).1.calls v' ∧
      (s.serve t f (.dispatch poolIsValid event)).1.Shows initial v' := by
  obtain ⟨current, started, world⟩ := v
  obtain ⟨hat, rfl⟩ := h
  cases event with
  | none => exact ⟨_, .refused (Or.inr (by simp)), hat, rfl⟩
  | some event =>
    have hstarted : s.machine.isStarted = started := by
      rw [StateMachine.isStarted, hat.isValid, hat.started_eq, Bool.true_and]
    simp only [Stage.serve, stateMachineDispatch, hat.isValid, hstarted, Bool.true_eq_false, false_or]
    by_cases hrefused : started = false ∨ event.isValid t poolIsValid = false
    · rw [if_pos hrefused]
      refine ⟨_, .refused ?_, hat, rfl⟩
      simpa using hrefused
    · have hopen : Stage.At { s with calls := [] } initial current started s.world [] := ⟨hat, rfl, rfl⟩
      obtain ⟨s₁, hcall, hat₁, htarget⟩ := hopen.called (f := f) event
      obtain ⟨rfl, hvalid⟩ : started = true ∧ event.isValid t poolIsValid = true := by simpa using hrefused
      rw [if_neg hrefused]
      rw [List.nil_append] at hat₁
      have hhalt : ∀ status, Phase.sequel (.event event) current 0 (f current s.world event) = .halt status →
          ∃ v', Serves t f initial ⟨current, true, s.world⟩ (.dispatch poolIsValid (some event)) status
            s₁.calls v' ∧
            s₁.Shows initial v' := by
        intro status hstop
        refine ⟨⟨current, true, _⟩, ?_, hat₁.machine, hat₁.world_eq⟩
        rw [hat₁.calls_eq]
        exact .dispatch hvalid (.halt (.event event) hstop)
      cases hresult : (f current s.world event).result with
      | handled =>
        simp only [hcall, hresult]
        exact hhalt .ok (by simp [Phase.sequel, hresult])
      | ignored =>
        simp only [hcall, hresult]
        exact hhalt .ok (by simp [Phase.sequel, hresult])
      | other =>
        simp only [hcall, hresult]
        exact hhalt .invalidState (by simp [Phase.sequel, hresult])
      | transition =>
        simp only [hcall, hresult, htarget]
        cases hasked : (f current s.world event).target with
        | none => exact hhalt .invalidState (by simp [Phase.sequel, hresult, hasked])
        | some target =>
          obtain ⟨s₂, status, more, last, w, happly, hat₂, hcont⟩ :=
            applyTransition_carriesOut t f _ _ _ _ _ _ hat₁
          rw [htarget, hasked] at hcont
          have hnext : Phase.sequel (.event event) current 0 (f current s.world event) = .call current
            (.exit target) 1 := by
            simp [Phase.sequel, hresult, hasked]
          simp only [Option.isNone_some, Bool.false_eq_true, if_false, happly]
          refine ⟨⟨last, true, w⟩, ?_, hat₂.machine, hat₂.world_eq⟩
          rw [hat₂.calls_eq]
          exact .dispatch hvalid (.call (.event event) hnext hcont)

theorem Stage.Shows.serve (h : s.Shows initial v) (c : MachineCall σ) :
    ∃ v', Serves t f initial v c (s.serve t f c).2 (s.serve t f c).1.calls v' ∧
      (s.serve t f c).1.Shows initial v' := by
  cases c with
  | start => exact h.start
  | dispatch poolIsValid event => exact h.dispatch poolIsValid event
  | environment world => exact ⟨⟨v.current, v.started, world⟩, .environment, h.1, rfl⟩

theorem Stage.Shows.run (h : s.Shows initial v) (cs : List (MachineCall σ)) :
    ∃ v', ServesAll t f initial v cs (s.run t f cs).2 v' ∧ (s.run t f cs).1.Shows initial v' := by
  induction cs generalizing s v with
  | nil => exact ⟨v, .nil, h⟩
  | cons c cs ih =>
    obtain ⟨v₁, hserves, hshows⟩ := h.serve (t := t) (f := f) c
    obtain ⟨v₂, hall, hlast⟩ := ih hshows
    exact ⟨v₂, .cons hserves hall, hlast⟩

theorem ServesAll.unique {cs : List (MachineCall σ)} {results results' : List (Status × List (H × HeEvent))}
    (h : ServesAll t f initial v cs results w) (h' : ServesAll t f initial v cs results' w') :
    results = results' ∧ w = w' := by
  induction h generalizing results' with
  | nil =>
    cases h'
    exact ⟨rfl, rfl⟩
  | cons hserves _ ih =>
    cases h' with
    | cons hserves' hrest' =>
      obtain ⟨rfl, rfl, rfl⟩ := hserves.unique hserves'
      obtain ⟨rfl, rfl⟩ := ih hrest'
      exact ⟨rfl, rfl⟩

theorem stateMachineInit_shows {m : StateMachine H} {initial : H} (world : σ)
    (hinit : (stateMachineInit m (some initial)).2 = .ok) :
    Stage.Shows ⟨(stateMachineInit m (some initial)).1, world, []⟩ initial ⟨initial, false, world⟩ := by
  rw [stateMachineInit, if_neg (by simp)] at hinit ⊢
  by_cases hvalid : m.isValid = true
  · rw [if_pos hvalid] at hinit
    cases hinit
  · rw [if_neg hvalid]
    exact ⟨⟨rfl, rfl, rfl, rfl⟩, rfl⟩

theorem run_to_completion (t : Target) (f : Handlers H σ) (m : StateMachine H) (initial : H) (world : σ)
    (hinit : (stateMachineInit m (some initial)).2 = .ok) (cs : List (MachineCall σ))
    (results : List (Status × List (H × HeEvent))) (v : MachineView H σ) :
    ServesAll t f initial ⟨initial, false, world⟩ cs results v ↔
      (Stage.run t f ⟨(stateMachineInit m (some initial)).1, world, []⟩ cs).2 = results ∧
        (Stage.run t f ⟨(stateMachineInit m (some initial)).1, world, []⟩ cs).1.Shows initial v := by
  obtain ⟨v', hall, hlast⟩ := (stateMachineInit_shows world hinit).run (t := t) (f := f) cs
  constructor
  · intro h
    obtain ⟨rfl, rfl⟩ := h.unique hall
    exact ⟨rfl, hlast⟩
  · rintro ⟨rfl, hv⟩
    have heq : v = v' := by
      obtain ⟨current, started, w⟩ := v
      obtain ⟨current', started', w'⟩ := v'
      have hcurrent := hv.1.current_eq.symm.trans hlast.1.current_eq
      have hstarted := hv.1.started_eq.symm.trans hlast.1.started_eq
      have hworld := hv.2.symm.trans hlast.2
      simp only [Option.some.injEq] at hcurrent hstarted hworld
      rw [hcurrent, hstarted, hworld]
    exact heq ▸ hall

def toggle : Handlers Bool Nat := fun h world event =>
  if event.signal = sigUser then ⟨[some (!h)], world + 1, .transition⟩
  else if event.signal = sigInit ∧ h = true then ⟨[some false], world, .handled⟩
  else ⟨[], world, .handled⟩

theorem run_to_completion_toggle :
    ∃ results v, ServesAll Target.cortexM3 toggle false ⟨false, false, 0⟩
        [.start, .dispatch (fun _ => false) (some (reservedEvent Target.cortexM3 sigUser))] results v ∧
      results.map (fun r => (r.1, r.2.map (fun c => (c.1, c.2.signal)))) =
        [(.ok, [(false, 1), (false, 3)]),
         (.ok, [(false, 32), (false, 2), (true, 1), (true, 3), (true, 2), (false, 1), (false, 3)])] := by
  refine ⟨_, ⟨false, true, 1⟩, (run_to_completion Target.cortexM3 toggle ⟨none, none, none, 0, false⟩
    false 0 rfl _ _
    _).mpr ⟨rfl, ?_⟩, by decide⟩
  exact ⟨⟨by decide, by decide, by decide, by decide⟩, by decide⟩

end Hairtos

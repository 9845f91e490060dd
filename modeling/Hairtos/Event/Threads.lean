import Hairtos.Event.PubSub
import Hairtos.Event.Store

/-!
Threads that use events: tasks and interrupt handlers that call `he_event_new`, `he_event_retain`,
`he_event_release`, `he_active_post`, `he_active_post_from_isr`, `he_pubsub_publish`, `he_pubsub_subscribe` and
`he_pubsub_unsubscribe`, and the loops of the active objects (`he_active_task_entry`). A step of the system is one
section of a call that other threads cannot see the middle of: a critical section, or a check in between. The
queue of an active object holds the pointers; a full one blocks the sender until the loop takes an event or the
timeout comes.
-/

namespace Hairtos

/-- `he_pubsub_publish` after its critical section. `attempts` has the posts made so far with their results, and
`subscribers` the list of subscriptions at the critical section. -/
structure Publication (A : Type) where
  event : Nat
  wait : Bool
  subscribers : List A
  snapshot : List A
  rest : List A
  attempts : List (A × Status)
  delivered : Nat
  overall : Status

inductive Taking (A : Type)
  | own (event : Nat)
  | share (p : Publication A) (target : A)

inductive Giving (A : Type)
  | own (event : Nat)
  | undo (p : Publication A) (target : A) (status : Status)
  | consume (p : Publication A)

inductive Origin (A : Type)
  | plain (event : Nat) (wait : Bool)
  | shared (p : Publication A)

inductive Activity (A : Type)
  | idle
  | create (pool signal eventSize : Nat)
  | fill (pool event signal eventSize : Nat)
  | retain (taking : Taking A)
  | retainLocked (taking : Taking A)
  | release (giving : Giving A)
  | releaseLocked (giving : Giving A) (pool : Nat)
  | post (origin : Origin A) (target : A)
  | send (origin : Origin A) (target : A)
  | blocked (origin : Origin A) (target : A)
  | publish (event : Nat) (wait : Bool)
  | snapshot (event : Nat) (wait : Bool)
  | publishing (p : Publication A)
  | consume (p : Publication A)
  | subscribe (signal : Nat) (subscriber : A)
  | unsubscribe (signal : Nat) (subscriber : A)

inductive Returned (A : Type)
  | event (event : Nat)
  | status (status : Status)
  -- with the status of the release of the publisher's reference
  | published (p : Publication A) (release status : Status)

/-- `held` counts the references the thread has got from its calls and not given up. -/
structure Thread (A : Type) where
  held : Nat → Nat
  activity : Activity A
  results : List (Returned A)

inductive Loop
  | start
  | receive
  | waiting
  | received (event : Nat)
  | dispatch (event : Nat)
  | release (event : Nat) (status : Status)
  | releaseLocked (event pool : Nat) (status : Status)
  | halted
  deriving DecidableEq, Repr

structure ActiveObject where
  valid : Bool
  capacity : Nat
  slots : List Nat
  loop : Loop

/-- `subscriptions` follows the results of subscribing and unsubscribing only. -/
structure EventSystem (C A : Type) where
  store : EventStore
  table : PubSub A
  subscriptions : Nat → List A
  threads : C → Thread A
  actives : A → ActiveObject

inductive Request (A : Type)
  | new (pool : Nat) (signal : BitVec 16) (eventSize : Nat)
  | retain (event : Nat)
  | release (event : Nat)
  | post (target : A) (event : Nat) (wait : Bool)
  | postFromIsr (target : A) (event : Nat)
  | publish (event : Nat) (wait : Bool)
  | subscribe (signal : BitVec 16) (subscriber : A)
  | unsubscribe (signal : BitVec 16) (subscriber : A)

/-- `advance` is the next section of a thread's call and `fail` an error of `hr_queue_send`, its timeout among
them. In `loop`, `status` is the result of starting or dispatching and `sender` the blocked thread that gets the
slot an event is taken from. -/
inductive EventOp (C A : Type)
  | call (c : C) (request : Request A)
  | advance (c : C)
  | fail (c : C) (status : Status)
  | loop (a : A) (status : Status) (sender : C)

def one (event e : Nat) : Nat := if event = e then 1 else 0

def atMostOne (event : Option Nat) (e : Nat) : Nat :=
  match event with
  | none => 0
  | some event => one event e

def Taking.event {A : Type} : Taking A → Nat
  | .own event => event
  | .share p _ => p.event

def Giving.event {A : Type} : Giving A → Nat
  | .own event => event
  | .undo p _ _ => p.event
  | .consume p => p.event

def Origin.event {A : Type} : Origin A → Nat
  | .plain event _ => event
  | .shared p => p.event

def Origin.wait {A : Type} : Origin A → Bool
  | .plain _ wait => wait
  | .shared p => p.wait

def Publication.attempted {A : Type} (p : Publication A) (target : A) (status : Status) : Publication A :=
  { p with
    attempts := p.attempts ++ [(target, status)]
    delivered := if status = .ok then p.delivered + 1 else p.delivered
    overall := if status ≠ .ok ∧ p.overall = .ok then status else p.overall }

variable {C A : Type} [DecidableEq C] [DecidableEq A]

namespace EventSystem

def setThread (s : EventSystem C A) (c : C) (thread : Thread A) : EventSystem C A :=
  { s with threads := Function.update s.threads c thread }

def setActive (s : EventSystem C A) (a : A) (active : ActiveObject) : EventSystem C A :=
  { s with actives := Function.update s.actives a active }

def goOn (s : EventSystem C A) (c : C) (activity : Activity A) : EventSystem C A :=
  s.setThread c { s.threads c with activity := activity }

def finish (s : EventSystem C A) (c : C) (result : Returned A) (gained : Option Nat) : EventSystem C A :=
  s.setThread c
    { held := fun e => (s.threads c).held e + atMostOne gained e
      activity := .idle
      results := result :: (s.threads c).results }

def begin (s : EventSystem C A) (c : C) (activity : Activity A) (spent : Option Nat) : EventSystem C A :=
  s.setThread c
    { s.threads c with
      held := fun e => (s.threads c).held e - atMostOne spent e
      activity := activity }

def call (s : EventSystem C A) (c : C) : Request A → EventSystem C A
  | .new pool signal eventSize => s.begin c (.create pool signal.toNat eventSize) none
  | .retain event => s.begin c (.retain (.own event)) none
  | .release event => s.begin c (.release (.own event)) (some event)
  | .post target event wait => s.begin c (.post (.plain event wait) target) (some event)
  | .postFromIsr target event => s.begin c (.post (.plain event false) target) (some event)
  | .publish event wait => s.begin c (.publish event wait) (some event)
  | .subscribe signal subscriber => s.begin c (.subscribe signal.toNat subscriber) none
  | .unsubscribe signal subscriber => s.begin c (.unsubscribe signal.toNat subscriber) none

def endPublish (s : EventSystem C A) (c : C) (p : Publication A) (release : Status) : EventSystem C A :=
  s.finish c (.published p release (if release ≠ .ok ∧ p.overall = .ok then release else p.overall)) none

def retained (s : EventSystem C A) (c : C) (status : Status) : Taking A → EventSystem C A
  | .own event => s.finish c (.status status) (if status = .ok then some event else none)
  | .share p target =>
    if status = .ok then s.goOn c (.post (.shared p) target) else s.goOn c (.publishing (p.attempted target status))

def released (s : EventSystem C A) (c : C) (status : Status) : Giving A → EventSystem C A
  | .own _ => s.finish c (.status status) none
  | .undo p target status => s.goOn c (.publishing (p.attempted target status))
  | .consume p => s.endPublish c p status

def posted (s : EventSystem C A) (c : C) (target : A) (status : Status) : Origin A → EventSystem C A
  | .plain event _ => s.finish c (.status status) (if status = .ok then none else some event)
  | .shared p =>
    if status = .ok then s.goOn c (.publishing (p.attempted target status))
    else s.goOn c (.release (.undo p target status))

def send (s : EventSystem C A) (c : C) (origin : Origin A) (target : A) : EventSystem C A :=
  let active := s.actives target
  if active.loop = .waiting then
    (s.setActive target { active with loop := .received origin.event }).posted c target .ok origin
  else if active.slots.length < active.capacity then
    (s.setActive target { active with slots := active.slots ++ [origin.event] }).posted c target .ok origin
  else if origin.wait = false then s.posted c target .queueFull origin
  else s.goOn c (.blocked origin target)

/-- `he_event_retain` and `he_event_release` up to the critical section, for an event that is not dynamic the
whole of them. -/
def check (t : Target) (s : EventSystem C A) (event : Nat) (ends : Status → EventSystem C A)
    (goes : EventSystem C A) : EventSystem C A :=
  if eventIsValid t s.store event = false then ends .invalidArgument
  else if eventIsDynamic t s.store event = false then ends .ok
  else goes

def rejects (t : Target) (s : EventSystem C A) (event : Nat) : Prop :=
  s.table.isValid = false ∨ eventIsValid t s.store event = false ∨
    (t.loadEvent s.store.memory event).signal < sigUser ∨
    (t.loadEvent s.store.memory event).signal ≥ s.table.signalCount

instance decidableRejects (t : Target) (s : EventSystem C A) (event : Nat) : Decidable (s.rejects t event) :=
  inferInstanceAs (Decidable (s.table.isValid = false ∨ eventIsValid t s.store event = false ∨
    (t.loadEvent s.store.memory event).signal < sigUser ∨
    (t.loadEvent s.store.memory event).signal ≥ s.table.signalCount))

def startPublication (t : Target) (s : EventSystem C A) (event : Nat) (wait : Bool) : Publication A :=
  let signal := (t.loadEvent s.store.memory event).signal
  { event := event
    wait := wait
    subscribers := s.subscriptions signal
    snapshot := s.table.snapshot signal
    rest := s.table.snapshot signal
    attempts := []
    delivered := 0
    overall := .ok }

def changeTable (s : EventSystem C A) (c : C) (r : PubSub A × Status) (signal : Nat) (change : List A → List A) :
    EventSystem C A :=
  let subscriptions :=
    if r.2 = Status.ok then Function.update s.subscriptions signal (change (s.subscriptions signal))
    else s.subscriptions
  { s with table := r.1, subscriptions := subscriptions }.finish c (.status r.2) none

def advance (t : Target) (s : EventSystem C A) (c : C) : EventSystem C A :=
  match (s.threads c).activity with
  | .idle => s
  | .create pool signal eventSize =>
    let r := eventTake t s.store pool signal eventSize
    if r.2 = 0 then { s with store := r.1 }.finish c (.event 0) none
    else { s with store := r.1 }.goOn c (.fill pool r.2 signal eventSize)
  | .fill pool event signal eventSize =>
    { s with store := eventFill t s.store pool event signal eventSize }.finish c (.event event) (some event)
  | .retain taking =>
    s.check t taking.event (fun status => s.retained c status taking) (s.goOn c (.retainLocked taking))
  | .retainLocked taking =>
    let r := eventRetainLocked t s.store taking.event
    { s with store := r.1 }.retained c r.2 taking
  | .release giving =>
    s.check t giving.event (fun status => s.released c status giving)
      (s.goOn c (.releaseLocked giving (t.loadEvent s.store.memory giving.event).pool))
  | .releaseLocked giving pool =>
    let r := eventReleaseLocked t s.store pool giving.event
    { s with store := r.1 }.released c r.2 giving
  | .post origin target =>
    if (s.actives target).valid = false ∨ eventIsValid t s.store origin.event = false then
      s.posted c target .invalidArgument origin
    else s.goOn c (.send origin target)
  | .send origin target => s.send c origin target
  | .blocked _ _ => s
  | .publish event wait =>
    if s.rejects t event then s.finish c (.status .invalidArgument) (some event) else s.goOn c (.snapshot event wait)
  | .snapshot event wait => s.goOn c (.publishing (s.startPublication t event wait))
  | .publishing p =>
    match p.rest with
    | [] => s.goOn c (.consume p)
    | target :: rest => s.goOn c (.retain (.share { p with rest := rest } target))
  | .consume p =>
    if eventIsDynamic t s.store p.event then s.goOn c (.release (.consume p)) else s.endPublish c p .ok
  | .subscribe signal subscriber =>
    s.changeTable c (pubsubSubscribe s.table (fun a => (s.actives a).valid) signal (some subscriber)) signal
      (· ++ [subscriber])
  | .unsubscribe signal subscriber =>
    s.changeTable c (pubsubUnsubscribe s.table (fun a => (s.actives a).valid) signal (some subscriber)) signal
      (·.erase subscriber)

def fail (s : EventSystem C A) (c : C) (status : Status) : EventSystem C A :=
  if status = .ok then s
  else
    match (s.threads c).activity with
    | .send origin target => s.posted c target status origin
    | .blocked origin target => s.posted c target status origin
    | _ => s

def goLoop (s : EventSystem C A) (a : A) (loop : Loop) : EventSystem C A :=
  s.setActive a { s.actives a with loop := loop }

def receive (s : EventSystem C A) (a : A) (sender : C) : EventSystem C A :=
  match (s.actives a).slots with
  | [] => s.goLoop a .waiting
  | event :: rest =>
    match (s.threads sender).activity with
    | .blocked origin target =>
      if target = a then
        (s.setActive a { s.actives a with slots := rest ++ [origin.event], loop := .received event }).posted sender a
          .ok origin
      else s.setActive a { s.actives a with slots := rest, loop := .received event }
    | _ => s.setActive a { s.actives a with slots := rest, loop := .received event }

def loopOn (status : Status) : Loop := if status = .ok then .receive else .halted

def runLoop (t : Target) (s : EventSystem C A) (a : A) (status : Status) (sender : C) : EventSystem C A :=
  match (s.actives a).loop with
  | .start => s.goLoop a (loopOn status)
  | .receive => s.receive a sender
  | .waiting => s
  | .received event => if eventIsValid t s.store event then s.goLoop a (.dispatch event) else s.goLoop a .halted
  | .dispatch event => s.goLoop a (.release event status)
  | .release event status =>
    s.check t event (fun _ => s.goLoop a (loopOn status))
      (s.goLoop a (.releaseLocked event (t.loadEvent s.store.memory event).pool status))
  | .releaseLocked event pool status =>
    { s with store := (eventReleaseLocked t s.store pool event).1 }.goLoop a (loopOn status)
  | .halted => s

def step (t : Target) (s : EventSystem C A) : EventOp C A → EventSystem C A
  | .call c request =>
    match (s.threads c).activity with
    | .idle => s.call c request
    | _ => s
  | .advance c => s.advance t c
  | .fail c status => s.fail c status
  | .loop a status sender => s.runLoop t a status sender

def run (t : Target) (s : EventSystem C A) (ops : List (EventOp C A)) : EventSystem C A := ops.foldl (step t) s

end EventSystem

end Hairtos

import Hairtos.Event.Threads

namespace Hairtos

variable {C A : Type}

inductive Onward (A : Type)
  | goOn (activity : Activity A)
  | finish (result : Returned A) (gained : Option Nat)

def Publication.onward (release : Status) (p : Publication A) : Onward A :=
  .finish (.published p release (if release ≠ .ok ∧ p.overall = .ok then release else p.overall)) none

def Taking.onward (status : Status) : Taking A → Onward A
  | .own event => .finish (.status status) (if status = .ok then some event else none)
  | .share p target =>
    if status = .ok then .goOn (.post (.shared p) target) else .goOn (.publishing (p.attempted target status))

def Giving.onward (status : Status) : Giving A → Onward A
  | .own _ => .finish (.status status) none
  | .undo p target status => .goOn (.publishing (p.attempted target status))
  | .consume p => p.onward status

def Origin.onward (target : A) (status : Status) : Origin A → Onward A
  | .plain event _ => .finish (.status status) (if status = .ok then none else some event)
  | .shared p =>
    if status = .ok then .goOn (.publishing (p.attempted target status)) else .goOn (.release (.undo p target status))

def Activity.posts : Activity A → Option (Origin A × A)
  | .post origin target => some (origin, target)
  | .send origin target => some (origin, target)
  | .blocked origin target => some (origin, target)
  | _ => none

namespace EventSystem

def NotDynamic (t : Target) (s : EventSystem C A) (event : Nat) : Prop :=
  eventIsValid t s.store event = false ∨ eventIsDynamic t s.store event = false

def withTable (s : EventSystem C A) (r : PubSub A × Status) (signal : Nat) (change : List A → List A) :
    EventSystem C A :=
  { s with
    table := r.1
    subscriptions :=
      if r.2 = Status.ok then Function.update s.subscriptions signal (change (s.subscriptions signal))
      else s.subscriptions }

variable [DecidableEq C]

def proceed (s : EventSystem C A) (c : C) : Onward A → EventSystem C A
  | .goOn activity => s.goOn c activity
  | .finish result gained => s.finish c result gained

theorem proceed_frame (s : EventSystem C A) (c : C) (o : Onward A) :
    (s.proceed c o).store = s.store ∧ (s.proceed c o).actives = s.actives ∧ (s.proceed c o).table = s.table ∧
      (s.proceed c o).subscriptions = s.subscriptions := by
  cases o <;> exact ⟨rfl, rfl, rfl, rfl⟩

theorem retained_eq (s : EventSystem C A) (c : C) (status : Status) (taking : Taking A) :
    s.retained c status taking = s.proceed c (taking.onward status) := by
  cases taking with
  | own event => rfl
  | share p target =>
    simp only [retained, Taking.onward]
    split <;> rfl

theorem released_eq (s : EventSystem C A) (c : C) (status : Status) (giving : Giving A) :
    s.released c status giving = s.proceed c (giving.onward status) := by
  cases giving <;> rfl

theorem posted_eq (s : EventSystem C A) (c : C) (target : A) (status : Status) (origin : Origin A) :
    s.posted c target status origin = s.proceed c (origin.onward target status) := by
  cases origin with
  | plain event wait => rfl
  | shared p =>
    simp only [posted, Origin.onward]
    split <;> rfl

variable [DecidableEq A]

inductive Section (t : Target) (s : EventSystem C A) : Activity A → EventSystem C A → Onward A → Prop
  | refuse (pool signal eventSize st) (taken : eventTake t s.store pool signal eventSize = (st, 0)) :
      Section t s (.create pool signal eventSize) { s with store := st } (.finish (.event 0) none)
  | create (pool signal eventSize st event) (taken : eventTake t s.store pool signal eventSize = (st, event))
      (created : event ≠ 0) :
      Section t s (.create pool signal eventSize) { s with store := st } (.goOn (.fill pool event signal eventSize))
  | fill (pool event signal eventSize) :
      Section t s (.fill pool event signal eventSize)
        { s with store := eventFill t s.store pool event signal eventSize } (.finish (.event event) (some event))
  | retain (taking : Taking A) (status) (checked : s.NotDynamic t taking.event)
      (valid : status = .ok → eventIsValid t s.store taking.event = true) :
      Section t s (.retain taking) s (taking.onward status)
  | enterRetain (taking : Taking A) (dynamic : eventIsDynamic t s.store taking.event = true) :
      Section t s (.retain taking) s (.goOn (.retainLocked taking))
  | retainLocked (taking : Taking A) (st status) (eq : eventRetainLocked t s.store taking.event = (st, status)) :
      Section t s (.retainLocked taking) { s with store := st } (taking.onward status)
  | release (giving : Giving A) (status) (checked : s.NotDynamic t giving.event) :
      Section t s (.release giving) s (giving.onward status)
  | enterRelease (giving : Giving A) (dynamic : eventIsDynamic t s.store giving.event = true) :
      Section t s (.release giving) s (.goOn (.releaseLocked giving (t.loadEvent s.store.memory giving.event).pool))
  | releaseLocked (giving : Giving A) (pool st status)
      (eq : eventReleaseLocked t s.store pool giving.event = (st, status)) :
      Section t s (.releaseLocked giving pool) { s with store := st } (giving.onward status)
  | fail (activity : Activity A) (origin target status) (posts : activity.posts = some (origin, target))
      (failed : status ≠ .ok) : Section t s activity s (origin.onward target status)
  | enterSend (origin target) : Section t s (.post origin target) s (.goOn (.send origin target))
  | hand (origin target) (waiting : (s.actives target).loop = .waiting) :
      Section t s (.send origin target)
        (s.setActive target { s.actives target with loop := .received origin.event }) (origin.onward target .ok)
  | enqueue (origin target) :
      Section t s (.send origin target)
        (s.setActive target { s.actives target with slots := (s.actives target).slots ++ [origin.event] })
        (origin.onward target .ok)
  | block (origin target) : Section t s (.send origin target) s (.goOn (.blocked origin target))
  | accept (origin target event rest) (loop : (s.actives target).loop = .receive)
      (slots : (s.actives target).slots = event :: rest) :
      Section t s (.blocked origin target)
        (s.setActive target { s.actives target with slots := rest ++ [origin.event], loop := .received event })
        (origin.onward target .ok)
  | reject (event wait) : Section t s (.publish event wait) s (.finish (.status .invalidArgument) (some event))
  | publish (event wait) (accepted : ¬ s.rejects t event) : Section t s (.publish event wait) s
    (.goOn (.snapshot event wait))
  | snapshot (event wait) :
      Section t s (.snapshot event wait) s (.goOn (.publishing (s.startPublication t event wait)))
  | visit (p target rest) (next : p.rest = target :: rest) :
      Section t s (.publishing p) s (.goOn (.retain (.share { p with rest := rest } target)))
  | visited (p) (done : p.rest = []) : Section t s (.publishing p) s (.goOn (.consume p))
  | consume (p) (dynamic : eventIsDynamic t s.store p.event = true) :
      Section t s (.consume p) s (.goOn (.release (.consume p)))
  | keep (p) (checked : s.NotDynamic t p.event) : Section t s (.consume p) s (p.onward .ok)
  | subscribe (signal a r) (eq : pubsubSubscribe s.table (fun a => (s.actives a).valid) signal (some a) = r) :
      Section t s (.subscribe signal a) (s.withTable r signal (· ++ [a])) (.finish (.status r.2) none)
  | unsubscribe (signal a r) (eq : pubsubUnsubscribe s.table (fun a => (s.actives a).valid) signal (some a) = r) :
      Section t s (.unsubscribe signal a) (s.withTable r signal (·.erase a)) (.finish (.status r.2) none)

inductive LoopSection (t : Target) (s : EventSystem C A) (a : A) : Loop → EventSystem C A → Prop
  | start (status) : LoopSection t s a .start (s.goLoop a (loopOn status))
  | wait : LoopSection t s a .receive (s.goLoop a .waiting)
  | receive (event rest) (slots : (s.actives a).slots = event :: rest) :
      LoopSection t s a .receive (s.setActive a { s.actives a with slots := rest, loop := .received event })
  | dispatch (event) : LoopSection t s a (.received event) (s.goLoop a (.dispatch event))
  | halt (event) (checked : s.NotDynamic t event) : LoopSection t s a (.received event) (s.goLoop a .halted)
  | dispatched (event status) : LoopSection t s a (.dispatch event) (s.goLoop a (.release event status))
  | release (event status) (checked : s.NotDynamic t event) :
      LoopSection t s a (.release event status) (s.goLoop a (loopOn status))
  | enterRelease (event status) (dynamic : eventIsDynamic t s.store event = true) :
      LoopSection t s a (.release event status)
        (s.goLoop a (.releaseLocked event (t.loadEvent s.store.memory event).pool status))
  | releaseLocked (event pool status) :
      LoopSection t s a (.releaseLocked event pool status)
        ({ s with store := (eventReleaseLocked t s.store pool event).1 }.goLoop a (loopOn status))

inductive Effect (t : Target) (s : EventSystem C A) : EventOp C A → EventSystem C A → Prop
  | none (op) : Effect t s op s
  | call (c request) (idle : (s.threads c).activity = .idle) : Effect t s (.call c request) (s.call c request)
  | thread (op c activity s₁ o) (begun : (s.threads c).activity = activity)
      (via : activity.posts = Option.none → op = .advance c) (effect : Section t s activity s₁ o) :
      Effect t s op (s₁.proceed c o)
  | loop (op a loop s') (begun : (s.actives a).loop = loop) (effect : LoopSection t s a loop s') : Effect t s op s'

variable {t : Target} {s s₁ : EventSystem C A} {op : EventOp C A} {c : C} {activity : Activity A} {o : Onward A}

omit [DecidableEq C] in
theorem Section.threads (h : Section t s activity s₁ o) : s₁.threads = s.threads := by
  cases h <;> rfl

theorem Section.advance (h : Section t s activity s₁ o) (hact : (s.threads c).activity = activity) :
    Effect t s (.advance c) (s₁.proceed c o) :=
  .thread _ c activity s₁ o hact (fun _ => rfl) h

theorem check_effect {event : Nat} {ends : Status → EventSystem C A} {goes : EventSystem C A}
    (hends : ∀ status, s.NotDynamic t event → (status = .ok → eventIsValid t s.store event = true) →
      Effect t s op (ends status))
    (hgoes : eventIsDynamic t s.store event = true → Effect t s op goes) :
    Effect t s op (s.check t event ends goes) := by
  rw [check]
  split
  · next hvalid => exact hends _ (Or.inl hvalid) (by simp)
  split
  · next hvalid hdynamic => exact hends _ (Or.inr hdynamic) (fun _ => Bool.not_eq_false _ ▸ hvalid)
  · next hdynamic => exact hgoes (Bool.not_eq_false _ ▸ hdynamic)

theorem send_effect {origin : Origin A} {target : A} (hact : (s.threads c).activity = .send origin target) :
    Effect t s (.advance c) (s.send c origin target) := by
  simp only [send, posted_eq]
  split
  · next hwaiting => exact Section.advance (.hand origin target hwaiting) hact
  split
  · exact Section.advance (.enqueue origin target) hact
  split
  · exact Section.advance (.fail _ origin target _ rfl (by decide)) hact
  · exact Section.advance (.block origin target) hact

theorem advance_effect (c : C) : Effect t s (.advance c) (s.advance t c) := by
  rw [advance]
  cases hact : (s.threads c).activity with
  | idle => exact .none _
  | blocked origin target => exact .none _
  | create pool signal eventSize =>
    dsimp only
    split
    · next h0 => exact Section.advance (.refuse pool signal eventSize _ (Prod.ext rfl h0)) hact
    · next h0 => exact Section.advance (.create pool signal eventSize _ _ rfl h0) hact
  | fill pool event signal eventSize => exact Section.advance (.fill pool event signal eventSize) hact
  | retain taking =>
    refine check_effect (fun status hchecked hvalid => ?_)
      (fun hdynamic => Section.advance (.enterRetain taking hdynamic) hact)
    rw [retained_eq]
    exact Section.advance (.retain taking status hchecked hvalid) hact
  | retainLocked taking =>
    dsimp only
    rw [retained_eq]
    exact Section.advance (.retainLocked taking _ _ rfl) hact
  | release giving =>
    refine check_effect (fun status hchecked _ => ?_)
      (fun hdynamic => Section.advance (.enterRelease giving hdynamic) hact)
    rw [released_eq]
    exact Section.advance (.release giving status hchecked) hact
  | releaseLocked giving pool =>
    dsimp only
    rw [released_eq]
    exact Section.advance (.releaseLocked giving pool _ _ rfl) hact
  | post origin target =>
    dsimp only
    split
    · rw [posted_eq]
      exact Section.advance (.fail _ origin target _ rfl (by decide)) hact
    · exact Section.advance (.enterSend origin target) hact
  | send origin target => exact send_effect hact
  | publish event wait =>
    dsimp only
    split
    · exact Section.advance (.reject event wait) hact
    · next hrejects => exact Section.advance (.publish event wait hrejects) hact
  | snapshot event wait => exact Section.advance (.snapshot event wait) hact
  | publishing p =>
    dsimp only
    split
    · next hrest => exact Section.advance (.visited p hrest) hact
    · next target rest hrest => exact Section.advance (.visit p target rest hrest) hact
  | consume p =>
    dsimp only
    split
    · next hdynamic => exact Section.advance (.consume p hdynamic) hact
    · next hdynamic => exact Section.advance (.keep p (Or.inr (Bool.eq_false_iff.mpr hdynamic))) hact
  | subscribe signal subscriber => exact Section.advance (.subscribe signal subscriber _ rfl) hact
  | unsubscribe signal subscriber => exact Section.advance (.unsubscribe signal subscriber _ rfl) hact

theorem receive_effect {a : A} (hloop : (s.actives a).loop = .receive) (sender : C) :
    Effect t s op (s.receive a sender) := by
  rw [receive]
  split
  · exact .loop _ a _ _ hloop .wait
  · next event rest hslots =>
    have hreceive : Effect t s op (s.setActive a { s.actives a with slots := rest, loop := .received event }) :=
      .loop _ a _ _ hloop (.receive event rest hslots)
    split
    · next origin target hact =>
      split
      · next htarget =>
        subst htarget
        rw [posted_eq]
        exact .thread _ sender _ _ _ hact nofun (.accept origin target event rest hloop hslots)
      · exact hreceive
    · exact hreceive

theorem runLoop_effect (a : A) (status : Status) (sender : C) : Effect t s op (s.runLoop t a status sender) := by
  rw [runLoop]
  cases hloop : (s.actives a).loop with
  | start => exact .loop _ a _ _ hloop (.start status)
  | receive => exact receive_effect hloop sender
  | waiting => exact .none op
  | received event =>
    dsimp only
    split
    · exact .loop _ a _ _ hloop (.dispatch event)
    · next hvalid => exact .loop _ a _ _ hloop (.halt event (Or.inl (Bool.eq_false_iff.mpr hvalid)))
  | dispatch event => exact .loop _ a _ _ hloop (.dispatched event status)
  | release event status =>
    exact check_effect (fun _ hchecked _ => .loop _ a _ _ hloop (.release event status hchecked))
      (fun hdynamic => .loop _ a _ _ hloop (.enterRelease event status hdynamic))
  | releaseLocked event pool status => exact .loop _ a _ _ hloop (.releaseLocked event pool status)
  | halted => exact .none op

theorem step_effect (t : Target) (s : EventSystem C A) (op : EventOp C A) : Effect t s op (s.step t op) := by
  cases op with
  | call c request =>
    rw [step]
    split
    · next hidle => exact .call c request hidle
    · exact .none _
  | advance c => exact advance_effect c
  | fail c status =>
    simp only [step, fail, posted_eq]
    split
    · exact .none _
    split
    · next hok _ origin target hact => exact .thread _ c _ _ _ hact nofun (.fail _ origin target status rfl hok)
    · next hok _ origin target hact => exact .thread _ c _ _ _ hact nofun (.fail _ origin target status rfl hok)
    · exact .none _
  | loop a status sender => exact runLoop_effect a status sender

end EventSystem

end Hairtos

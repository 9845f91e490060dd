import Hairtos.Library.Ring
import Hairtos.Invariant.QueueStep
import Hairtos.Properties.Availability

namespace Hairtos

open Library

variable {i : Nat} {queue : QueueControlBlock} {timeout : Tick} {r : QueueResult} {w : Wait} {op : Op}

def Event.acceptedIn (q : QueueRef) : Event → Option (List UInt8)
  | .accepted p _ item => if p = q then some item else none
  | _ => none

def Event.deliveredIn (q : QueueRef) : Event → Option (List UInt8)
  | .delivered p _ item => if p = q then some item else none
  | _ => none

def Event.acceptedFrom (q : QueueRef) (sender : Option TaskRef) : Event → Option (List UInt8)
  | .accepted p u item => if p = q ∧ u = sender then some item else none
  | _ => none

def Event.deliveredTo (q : QueueRef) (receiver : Option TaskRef) : Event → Option (List UInt8)
  | .delivered p u item => if p = q ∧ u = receiver then some item else none
  | _ => none

def System.accepted (s : System) (q : QueueRef) : List (List UInt8) := s.history.filterMap (Event.acceptedIn q)

def System.delivered (s : System) (q : QueueRef) : List (List UInt8) := s.history.filterMap (Event.deliveredIn q)

def System.acceptedFrom (s : System) (q : QueueRef) (sender : Option TaskRef) : List (List UInt8) :=
  s.history.filterMap (Event.acceptedFrom q sender)

def System.deliveredTo (s : System) (q : QueueRef) (receiver : Option TaskRef) : List (List UInt8) :=
  s.history.filterMap (Event.deliveredTo q receiver)

def queueItem (queue : QueueControlBlock) (index : Nat) : List UInt8 :=
  itemBytes queue.storage (queueSlot queue index) queue.itemSize

def queueContents (queue : QueueControlBlock) : List (List UInt8) :=
  ringContents (queueItem queue) queue.head queue.count queue.capacity

structure Fifo (s : System) (q : QueueRef) : Prop where
  balance : s.accepted q = s.delivered q ++ queueContents (s.queues q)
  tail : (s.queues q).magic = true → (s.queues q).tail = ((s.queues q).head + (s.queues q).count) %
    (s.queues q).capacity
  empty : (s.queues q).magic = false → (s.queues q).count = 0

def Served (s s' : System) (u : TaskRef) (w : Wait) : Prop :=
  (s.kernel.tasks u).wait = some w ∧ (s'.kernel.tasks u).wait = none ∧ (s'.kernel.tasks u).waitResult = .ok

def Completes (own : Option (QueueRef × BufferRef × Option TaskRef)) (wait : QueueRef → BufferRef → Wait)
    (handed : BufferRef → Nat → UInt8) (s s' : System) (q : QueueRef) (caller : Option TaskRef)
    (item : List UInt8) : Prop :=
  (∃ b, own = some (q, b, caller) ∧ item = itemBytes (handed b) 0 (s.queues q).itemSize) ∨
    ∃ u b, caller = some u ∧ Served s s' u (wait q b) ∧ item = itemBytes (s'.memory b) 0 (s.queues q).itemSize

def SendCompletes (cfg : Config) (s : System) (op : Op) (s' : System) :
    QueueRef → Option TaskRef → List UInt8 → Prop :=
  Completes (op.sendOk cfg s) .queueSend s.memory s s'

def ReceiveCompletes (cfg : Config) (s : System) (op : Op) (s' : System) :
    QueueRef → Option TaskRef → List UInt8 → Prop :=
  Completes (op.receiveOk cfg s) .queueReceive s'.memory s s'

def itemFor (q : QueueRef) (caller : Option TaskRef) : Option (QueueRef × Option TaskRef × List UInt8) →
    List (List UInt8)
  | some (p, u, item) => if p = q ∧ u = caller then [item] else []
  | none => []

structure Exchanged (cfg : Config) (s : System) (op : Op) (s' : System)
    (sent received : Option (QueueRef × Option TaskRef × List UInt8)) : Prop where
  accepted : ∀ q u, s'.acceptedFrom q u = s.acceptedFrom q u ++ itemFor q u sent
  delivered : ∀ q u, s'.deliveredTo q u = s.deliveredTo q u ++ itemFor q u received
  sends : ∀ q u item, SendCompletes cfg s op s' q u item ↔ sent = some (q, u, item)
  receives : ∀ q u item, ReceiveCompletes cfg s op s' q u item ↔ received = some (q, u, item)

section

variable {cfg : Config} {s s' : System}

theorem queueCopy_apply (destination : Nat → UInt8) (d : Nat) (source : Nat → UInt8) (o size j : Nat) :
    queueCopy destination d source o size j =
      if d ≤ j ∧ j < d + size then source (o + (j - d)) else destination j := by
  induction size with
  | zero =>
    rw [if_neg (by omega)]
    rfl
  | succ size ih =>
    simp only [queueCopy]
    by_cases hj : j = d + size
    · subst hj
      rw [Function.update_self, if_pos (by omega), Nat.add_sub_cancel_left]
    · rw [Function.update_of_ne hj, ih]
      by_cases hin : d ≤ j ∧ j < d + size
      · rw [if_pos hin, if_pos (by omega)]
      · rw [if_neg hin, if_neg (by omega)]

theorem itemBytes_queueCopy (destination : Nat → UInt8) (d : Nat) (source : Nat → UInt8) (o size : Nat) :
    itemBytes (queueCopy destination d source o size) d size = itemBytes source o size := by
  apply List.map_congr_left
  intro i hi
  have hi' := List.mem_range.mp hi
  rw [queueCopy_apply, if_pos (by omega), Nat.add_sub_cancel_left]

theorem slot_disjoint {j n x y : Nat} (hij : i ≠ j) (hx : x < n) (hy : y < n) : i * n + x ≠ j * n + y := by
  intro he
  have hdiv : (i * n + x) / n = (j * n + y) / n := by rw [he]
  rw [Nat.mul_comm i, Nat.mul_comm j, Nat.mul_add_div (by omega), Nat.mul_add_div (by omega),
    Nat.div_eq_of_lt hx, Nat.div_eq_of_lt hy] at hdiv
  omega

theorem itemBytes_queueCopy_of_ne (destination source : Nat → UInt8) {j n : Nat} (hij : i ≠ j) :
    itemBytes (queueCopy destination (j * n) source 0 n) (i * n) n = itemBytes destination (i * n) n := by
  apply List.map_congr_left
  intro x hx
  have hx' := List.mem_range.mp hx
  rw [queueCopy_apply, if_neg]
  rintro ⟨h1, h2⟩
  exact slot_disjoint (y := i * n + x - j * n) hij hx' (by omega) (by omega)

theorem filterMap_exchanges {A : Type} {f : Event → Option A} (hf : ∀ e, e.isExchange = false → f e = none)
    (h : s'.exchanges = s.exchanges) : s'.history.filterMap f = s.history.filterMap f := by
  have hfilter : ∀ l : List Event, (l.filter Event.isExchange).filterMap f = l.filterMap f := by
    intro l
    rw [List.filterMap_filter]
    congr 1
    funext e
    cases he : e.isExchange with
    | true => simp
    | false => simp [hf e he]
  rw [← hfilter s'.history, ← hfilter s.history]
  exact congrArg _ h

theorem queueContents_enqueue (area : Nat → UInt8) (hspace : queue.count < queue.capacity)
    (htail : queue.tail = (queue.head + queue.count) % queue.capacity) :
    queueContents { queue with
        storage := queueCopy queue.storage (queueSlot queue queue.tail) area 0 queue.itemSize
        tail := (queue.tail + 1) % queue.capacity
        count := queue.count + 1 } =
      queueContents queue ++ [itemBytes area 0 queue.itemSize] := by
  have hpush := ringContents_push (queueItem queue) (queueItem { queue with
      storage := queueCopy queue.storage (queueSlot queue queue.tail) area 0 queue.itemSize
      tail := (queue.tail + 1) % queue.capacity
      count := queue.count + 1 }) queue.head hspace (by
    rw [← htail]
    intro i hi
    exact itemBytes_queueCopy_of_ne queue.storage area hi)
  rw [← htail] at hpush
  refine hpush.trans ?_
  congr 2
  exact itemBytes_queueCopy queue.storage (queueSlot queue queue.tail) area 0 queue.itemSize

theorem queueContents_dequeue (hhead : queue.head < queue.capacity) (hcount : 0 < queue.count) :
    queueContents queue = queueFront queue ::
      queueContents { queue with head := (queue.head + 1) % queue.capacity, count := queue.count - 1 } :=
  ringContents_pop hhead hcount

theorem Fifo.of_same (h : Fifo s q) (hqueues : s'.queues q = s.queues q)
    (haccepted : s'.accepted q = s.accepted q) (hdelivered : s'.delivered q = s.delivered q) : Fifo s' q := by
  refine ⟨?_, ?_, ?_⟩
  · rw [haccepted, hdelivered, hqueues]
    exact h.balance
  · rw [hqueues]
    exact h.tail
  · rw [hqueues]
    exact h.empty

theorem Fifo.of_ne (h : Fifo s p) (hpq : p ≠ q)
    (hqueues : s'.queues p = s.queues p) (hhistory : s'.history = s.history ++ events)
    (hevents : ∀ e ∈ events, ∃ u item, e = .accepted q u item ∨ e = .delivered q u item) : Fifo s' p := by
  have hnone : events.filterMap (Event.acceptedIn p) = [] ∧ events.filterMap (Event.deliveredIn p) = [] := by
    simp only [List.filterMap_eq_nil_iff]
    refine ⟨fun e he => ?_, fun e he => ?_⟩
    all_goals
      obtain ⟨u, item, rfl | rfl⟩ := hevents e he
      · simp [Event.acceptedIn, Event.deliveredIn, Ne.symm hpq]
      · simp [Event.acceptedIn, Event.deliveredIn, Ne.symm hpq]
  refine h.of_same hqueues ?_ ?_
  · rw [System.accepted, hhistory, List.filterMap_append, hnone.1, List.append_nil, System.accepted]
  · rw [System.delivered, hhistory, List.filterMap_append, hnone.2, List.append_nil, System.delivered]

theorem head_lt_of_valid (h : queueIsValid s q = true) : (s.queues q).head < (s.queues q).capacity := by
  simp only [queueIsValid, Bool.and_eq_true, decide_eq_true_eq] at h
  exact h.1.2

theorem Fifo.handOver (h : Fifo s q) (hcount : (s.queues q).count = 0)
    (hqueues : s'.queues q = s.queues q) (hhistory : s'.history = s.history ++ events)
    (hevents : events.filterMap (Event.acceptedIn q) = events.filterMap (Event.deliveredIn q)) : Fifo s' q := by
  have hbalance := h.balance
  have hcontents : queueContents (s.queues q) = [] := by rw [queueContents, hcount, ringContents_zero]
  rw [hcontents, List.append_nil] at hbalance
  refine ⟨?_, ?_, ?_⟩
  · rw [hqueues, hcontents, List.append_nil, System.accepted, System.delivered, hhistory, List.filterMap_append,
      List.filterMap_append, hevents]
    exact congrArg (· ++ _) hbalance
  · rw [hqueues]
    exact h.tail
  · rw [hqueues]
    exact h.empty

theorem Fifo.push (h : Fifo s q) (u : Option TaskRef) (area : Nat → UInt8)
    (hm : (s.queues q).magic = true) (hspace : (s.queues q).count < (s.queues q).capacity)
    (hqueues : s'.queues q = { s.queues q with
      storage := queueCopy (s.queues q).storage (queueSlot (s.queues q) (s.queues q).tail) area 0 (s.queues q).itemSize
      tail := ((s.queues q).tail + 1) % (s.queues q).capacity
      count := (s.queues q).count + 1 })
    (hhistory : s'.history = s.history ++ [.accepted q u (itemBytes area 0 (s.queues q).itemSize)]) : Fifo s' q := by
  have htail := h.tail hm
  refine ⟨?_, ?_, ?_⟩
  · rw [hqueues, queueContents_enqueue area hspace htail, System.accepted, System.delivered, hhistory,
      List.filterMap_append, List.filterMap_append, ← List.append_assoc]
    have hbalance : s.history.filterMap (Event.acceptedIn q) = _ := h.balance
    rw [hbalance]
    simp [Event.acceptedIn, Event.deliveredIn, System.delivered]
  · intro _
    rw [hqueues]
    dsimp only
    rw [htail, ring_tail_push]
  · intro hnone
    rw [hqueues] at hnone
    simp [hm] at hnone

theorem Fifo.pop {u : Option TaskRef} (h : Fifo s q) (hv : queueIsValid s q = true)
    (hcount : 0 < (s.queues q).count)
    (hqueues : s'.queues q = { s.queues q with
      head := ((s.queues q).head + 1) % (s.queues q).capacity
      count := (s.queues q).count - 1 })
    (hhistory : s'.history = s.history ++ [.delivered q u (queueFront (s.queues q))]) : Fifo s' q := by
  refine ⟨?_, ?_, ?_⟩
  · have hbalance : s.history.filterMap (Event.acceptedIn q) = _ := h.balance
    rw [hqueues, System.accepted, System.delivered, hhistory, List.filterMap_append, List.filterMap_append, hbalance,
      queueContents_dequeue (head_lt_of_valid hv) hcount]
    simp [Event.acceptedIn, Event.deliveredIn, System.delivered]
  · intro _
    rw [hqueues]
    dsimp only
    rw [h.tail (magic_of_valid hv), ring_tail_pop hcount]
  · intro hnone
    rw [hqueues] at hnone
    simp [magic_of_valid hv] at hnone

theorem SendEffect.fifo {item : BufferRef} {sender : Option TaskRef}
    (he : SendEffect cfg s q item timeout sender r) (hv : queueIsValid s q = true) (hun : s.Unserved)
    (h : ∀ p, Fifo s p) (p : QueueRef) : Fifo r.system p := by
  cases he with
  | served u b k hfirst hwait hgranted =>
    by_cases hpq : p = q
    · subst hpq
      exact (h p).handOver (hun u _ hwait).2 rfl rfl
        (by simp [List.filterMap_cons, Event.acceptedIn, Event.deliveredIn])
    · exact (h p).of_ne hpq rfl rfl (by simp)
  | stored hnone hspace =>
    by_cases hpq : p = q
    · subst hpq
      exact (h p).push sender (s.memory item) (magic_of_valid hv) hspace (Function.update_self ..) rfl
    · exact (h p).of_ne hpq (Function.update_of_ne hpq ..) rfl (by simp)
  | waits t => exact (h p).of_same rfl rfl rfl
  | full => exact h p

theorem ReceiveEffect.fifo {item : BufferRef} {receiver : Option TaskRef}
    (he : ReceiveEffect cfg s q item timeout receiver r) (hv : queueIsValid s q = true)
    (h : ∀ p, Fifo s p) (p : QueueRef) : Fifo r.system p := by
  cases he with
  | taken hcount =>
    by_cases hpq : p = q
    · subst hpq
      exact (h p).pop hv hcount (Function.update_self ..) rfl
    · exact (h p).of_ne hpq (Function.update_of_ne hpq ..) rfl (by simp)
  | refilled u b k hcount hfirst hwait hgranted =>
    by_cases hpq : p = q
    · subst hpq
      have hpop : Fifo ((queueDequeue s p item).record [.delivered p receiver (queueFront (s.queues p))]) p :=
        (h p).pop hv hcount (Function.update_self ..) rfl
      have hq : ((queueDequeue s p item).record [.delivered p receiver (queueFront (s.queues p))]).queues p =
          { s.queues p with
            head := ((s.queues p).head + 1) % (s.queues p).capacity
            count := (s.queues p).count - 1 } := Function.update_self ..
      have hle := count_le_of_valid hv
      refine hpop.push (some u) ((queueDequeue s p item).memory b) ?_ ?_ ?_ ?_
      · rw [hq]
        exact magic_of_valid hv
      · rw [hq]
        dsimp only
        omega
      · exact Function.update_self ..
      · rw [hq]
        rfl
    · exact (h p).of_ne hpq ((Function.update_of_ne hpq ..).trans (Function.update_of_ne hpq ..))
        (List.append_assoc ..) (by simp)
  | direct u b k hcount hfirst hwait hgranted =>
    by_cases hpq : p = q
    · subst hpq
      exact (h p).handOver hcount rfl rfl
        (by simp [List.filterMap_cons, Event.acceptedIn, Event.deliveredIn])
    · exact (h p).of_ne hpq rfl rfl (by simp)
  | waits t => exact (h p).of_same rfl rfl rfl
  | empty => exact h p

theorem Fifo.of_history (h : Fifo s q) (hqueues : s'.queues q = s.queues q)
    (hhistory : s'.history = s.history ++ events) (hevents : ∀ e ∈ events, e.isExchange = false) : Fifo s' q := by
  have hnone : events.filterMap (Event.acceptedIn q) = [] ∧ events.filterMap (Event.deliveredIn q) = [] := by
    simp only [List.filterMap_eq_nil_iff]
    refine ⟨fun e he => ?_, fun e he => ?_⟩
    all_goals
      have hexchange := hevents e he
      cases e <;> first | rfl | simp [Event.isExchange] at hexchange
  refine h.of_same hqueues ?_ ?_
  · rw [System.accepted, hhistory, List.filterMap_append, hnone.1, List.append_nil, System.accepted]
  · rw [System.delivered, hhistory, List.filterMap_append, hnone.2, List.append_nil, System.delivered]

theorem Fifo.create {storage : Nat → UInt8} {itemSize capacity : Nat} (h : Fifo s q)
    (hfresh : (s.queues q).magic = false)
    (hqueues : s'.queues q = { magic := true, storage := storage, itemSize := itemSize, capacity := capacity })
    (hhistory : s'.history = s.history) : Fifo s' q := by
  have hbalance := h.balance
  rw [queueContents, h.empty hfresh, ringContents_zero] at hbalance
  refine ⟨?_, by simp [hqueues], by simp [hqueues]⟩
  rw [System.accepted, System.delivered, hhistory, hqueues]
  exact hbalance

theorem Action.fifo {owed : Bool} (h : Action cfg s owed s') (hun : s.Unserved) (hf : ∀ q, Fifo s q) (q : QueueRef) :
    Fifo s' q := by
  cases h with
  | createQueue p storage itemSize capacity hfresh =>
    by_cases hqp : q = p
    · subst hqp
      exact (hf q).create hfresh (Function.update_self ..) rfl
    · exact (hf q).of_same (Function.update_of_ne hqp ..) rfl rfl
  | send p item timeout sender r k owed hcaller hv heffect =>
    exact (heffect.fifo hv hun hf q).of_same rfl rfl rfl
  | receive p item timeout receiver r k owed hcaller hv heffect =>
    exact (heffect.fifo hv hf q).of_same rfl rfl rfl
  | createSemaphore x count maxCount => exact (hf q).of_history rfl rfl (by simp [Event.isExchange])
  | give x s₁ woken status k owed hv heffect =>
    cases heffect with
    | full => exact (hf q).of_same rfl rfl rfl
    | _ => exact (hf q).of_history rfl rfl (by simp [Event.isExchange])
  | take x timeout s₁ outcome hcaller hv heffect =>
    cases heffect with
    | counted => exact (hf q).of_history rfl rfl (by simp [Event.isExchange])
    | waits t => exact (hf q).of_same rfl rfl rfl
  | unlock m t s₁ hruns howner heffect =>
    cases heffect with
    | handed => exact (hf q).of_history rfl rfl (by simp [Event.isExchange])
    | _ => exact (hf q).of_same rfl rfl rfl
  | _ => exact (hf q).of_same rfl rfl rfl

def System.Orderly (s : System) : Prop := s.Unserved ∧ ∀ q, Fifo s q

theorem Move.orderly (hm : Move cfg s s') (g : s.Good cfg) (h : s.Orderly) : s'.Orderly := by
  refine ⟨hm.unserved g h.1, fun q => ?_⟩
  cases hm with
  | act hacts => exact hacts.action.fifo h.1 h.2 q
  | lock m timeout s' outcome heffect =>
    cases heffect with
    | acquired => exact (h.2 q).of_history rfl rfl (by simp [Event.isExchange])
    | _ => exact (h.2 q).of_same rfl rfl rfl
  | _ => exact (h.2 q).of_same rfl rfl rfl

theorem not_served_of_wait {u : TaskRef} (h : (s'.kernel.tasks u).wait = (s.kernel.tasks u).wait) :
    ¬ Served s s' u w := by
  rintro ⟨hw, hdone, -⟩
  rw [h, hw] at hdone
  cases hdone

theorem WaitStarts.not_served {t u : TaskRef} {v : Wait} {ticks : Option Tick}
    (h : WaitStarts s.kernel t v ticks s'.kernel) (g : s.Good cfg) : ¬ Served s s' u w := by
  by_cases hu : u = t
  · subst hu
    rintro ⟨hw, -, -⟩
    rw [(g.kernel.running_shape h.runs.running).2.1] at hw
    cases hw
  · exact not_served_of_wait (h.others u hu)

theorem WaitEnds.served {t u : TaskRef} {v : Wait} (h : WaitEnds s.kernel t v .ok s'.kernel) :
    Served s s' u w ↔ u = t ∧ w = v := by
  constructor
  · rintro hserved
    by_cases hu : u = t
    · subst hu
      exact ⟨rfl, Option.some.inj (hserved.1.symm.trans h.wait)⟩
    · exact absurd hserved (not_served_of_wait (h.others u hu))
  · rintro ⟨rfl, rfl⟩
    exact ⟨h.wait, h.done, h.waitResult⟩

theorem System.Steady.turn (hs : s.Steady cfg) {u : TaskRef} (hw : (s.kernel.tasks u).wait = some w)
    (op : Op) : ∃ n, Turn u n s (Hairtos.step cfg s op) := by
  have hreg := (hs.good.kernel.shape u).registered_of_wait (by simp [Kernel.view, hw])
  have hm : (s.kernel.tasks u).magic = true := (hs.good.kernel.shape u).magic_of_registered hreg
  have hnot : (s.kernel.tasks u).state ≠ .running := by
    intro hr
    rw [(hs.good.kernel.running_shape hr).2.1] at hw
    cases hw
  by_cases hk : s.kernel.state = .running
  · exact ⟨_, step_turn hs hk hm hnot op⟩
  · by_cases hop : op = .tick
    · subst hop
      have hsame : Hairtos.step cfg s .tick = s := by simp [Hairtos.step, kernelTickFromIsr, hk]
      rw [hsame]
      exact ⟨0, Unmoved.turn ⟨rfl, rfl, rfl⟩ rfl (.refl u s)⟩
    · exact ⟨0, (hs.stepped op).turn hs.good hop hm hnot⟩

theorem Apart.not_served (hs : s.Steady cfg) (h : Apart s (step cfg s op)) {u : TaskRef}
    (hqueue : ∃ q b, w = .queueSend q b ∨ w = .queueReceive q b) : ¬ Served s (step cfg s op) u w := by
  rintro ⟨hw, hdone, hok⟩
  obtain ⟨n, hturn⟩ := hs.turn hw op
  cases hturn with
  | idle before => simp [hw] at before
  | kept v before after => simp [hdone] at after
  | granted v e before after result grants events =>
    obtain rfl : w = v := Option.some.inj (hw.symm.trans before)
    have hexchange : e.isExchange = true := by
      obtain ⟨q, b, rfl | rfl⟩ := hqueue
      · obtain ⟨item, rfl⟩ := grants
        rfl
      · obtain ⟨item, rfl⟩ := grants
        rfl
    have hsame : ((step cfg s op).eventsOf u).filter Event.isExchange = (s.eventsOf u).filter Event.isExchange := by
      have hexchanges := h.exchanges
      unfold System.exchanges at hexchanges
      rw [System.eventsOf, System.eventsOf, List.filter_comm, hexchanges, List.filter_comm]
    rw [events, List.filter_append] at hsame
    simp [hexchange] at hsame
  | expired v m before after result =>
    obtain rfl : w = v := Option.some.inj (hw.symm.trans before)
    rw [hok] at result
    obtain ⟨q, b, rfl | rfl⟩ := hqueue <;> cases result

section completions

variable {own : Option (QueueRef × BufferRef × Option TaskRef)} {wait : QueueRef → BufferRef → Wait}
  {handed : BufferRef → Nat → UInt8} {p q : QueueRef} {b : BufferRef} {t : TaskRef} {v u : Option TaskRef}
  {item : List UInt8}

theorem completes_none (hown : own = none) (hserved : ∀ u q b, ¬ Served s s' u (wait q b)) :
    Completes own wait handed s s' q u item ↔ none = some (q, u, item) := by
  constructor
  · rintro (⟨b, hb, -⟩ | ⟨x, b, -, hx, -⟩)
    · simp [hown] at hb
    · exact absurd hx (hserved x q b)
  · simp

theorem completes_own (hown : own = some (p, b, v)) (hserved : ∀ u q b, ¬ Served s s' u (wait q b)) :
    Completes own wait handed s s' q u item ↔
      some (p, v, itemBytes (handed b) 0 (s.queues p).itemSize) = some (q, u, item) := by
  constructor
  · rintro (⟨c, hc, rfl⟩ | ⟨x, c, -, hx, -⟩)
    · obtain ⟨rfl, rfl, rfl⟩ : p = q ∧ b = c ∧ v = u := by simpa [hown] using hc
      rfl
    · exact absurd hx (hserved x q c)
  · rintro ⟨⟩
    exact Or.inl ⟨b, hown, rfl⟩

theorem completes_waiter (hown : own = none) (h : WaitEnds s.kernel t (wait p b) .ok s'.kernel)
    (hinj : ∀ q c, wait q c = wait p b → q = p ∧ c = b) :
    Completes own wait handed s s' q u item ↔
      some (p, some t, itemBytes (s'.memory b) 0 (s.queues p).itemSize) = some (q, u, item) := by
  constructor
  · rintro (⟨c, hc, -⟩ | ⟨x, c, rfl, hx, rfl⟩)
    · simp [hown] at hc
    · obtain ⟨rfl, hwait⟩ := h.served.mp hx
      obtain ⟨rfl, rfl⟩ := hinj q c hwait
      rfl
  · rintro ⟨⟩
    exact Or.inr ⟨t, b, rfl, h.served.mpr ⟨rfl, rfl⟩, rfl⟩

end completions

section events

variable {q p : QueueRef} {u v : Option TaskRef} {item : List UInt8} {events : List Event}

@[simp] theorem acceptedFrom_cons_accepted : (Event.accepted p v item :: events).filterMap (Event.acceptedFrom q u) =
    itemFor q u (some (p, v, item)) ++ events.filterMap (Event.acceptedFrom q u) := by
  by_cases h : p = q ∧ v = u <;> simp [Event.acceptedFrom, itemFor, h]

@[simp] theorem acceptedFrom_cons_delivered : (Event.delivered p v item :: events).filterMap (Event.acceptedFrom q u) =
    events.filterMap (Event.acceptedFrom q u) := rfl

@[simp] theorem deliveredTo_cons_delivered : (Event.delivered p v item :: events).filterMap (Event.deliveredTo q u) =
    itemFor q u (some (p, v, item)) ++ events.filterMap (Event.deliveredTo q u) := by
  by_cases h : p = q ∧ v = u <;> simp [Event.deliveredTo, itemFor, h]

@[simp] theorem deliveredTo_cons_accepted : (Event.accepted p v item :: events).filterMap (Event.deliveredTo q u) =
    events.filterMap (Event.deliveredTo q u) := rfl

@[simp] theorem itemFor_none : itemFor q u none = [] := rfl

end events

theorem Exchanged.of_events {sent received : Option (QueueRef × Option TaskRef × List UInt8)}
    (events : List Event) (hhistory : s'.history = s.history ++ events)
    (haccepted : ∀ q u, events.filterMap (Event.acceptedFrom q u) = itemFor q u sent)
    (hdelivered : ∀ q u, events.filterMap (Event.deliveredTo q u) = itemFor q u received)
    (hsends : ∀ q u item, SendCompletes cfg s op s' q u item ↔ sent = some (q, u, item))
    (hreceives : ∀ q u item, ReceiveCompletes cfg s op s' q u item ↔ received = some (q, u, item)) :
    Exchanged cfg s op s' sent received := by
  refine ⟨fun q u => ?_, fun q u => ?_, hsends, hreceives⟩
  · rw [System.acceptedFrom, hhistory, List.filterMap_append, haccepted, System.acceptedFrom]
  · rw [System.deliveredTo, hhistory, List.filterMap_append, hdelivered, System.deliveredTo]

theorem Exchanged.none (h : s'.exchanges = s.exchanges) (hsend : op.sendOk cfg s = none)
    (hreceive : op.receiveOk cfg s = none)
    (hserved : ∀ u w, (∃ q b, w = .queueSend q b ∨ w = .queueReceive q b) → ¬ Served s s' u w) :
    Exchanged cfg s op s' none none where
  accepted := fun q u => by
    rw [itemFor, List.append_nil]
    exact filterMap_exchanges (by intro e he; cases e <;> first | rfl | simp [Event.isExchange] at he) h
  delivered := fun q u => by
    rw [itemFor, List.append_nil]
    exact filterMap_exchanges (by intro e he; cases e <;> first | rfl | simp [Event.isExchange] at he) h
  sends := fun q u item => completes_none hsend (fun u q b => hserved u _ ⟨q, b, Or.inl rfl⟩)
  receives := fun q u item => completes_none hreceive (fun u q b => hserved u _ ⟨q, b, Or.inr rfl⟩)

theorem Wait.queueSend_injective {c : BufferRef} (h : Wait.queueSend q c = .queueSend p b) :
    q = p ∧ c = b := by
  cases h
  exact ⟨rfl, rfl⟩

theorem Wait.queueReceive_injective {c : BufferRef} (h : Wait.queueReceive q c = .queueReceive p b) :
    q = p ∧ c = b := by
  cases h
  exact ⟨rfl, rfl⟩

theorem itemBytes_copied (area source : Nat → UInt8) (o size : Nat) (m : BufferRef → Nat → UInt8)
    (b : BufferRef) :
    itemBytes (Function.update m b (queueCopy area 0 source o size) b) 0 size = itemBytes source o size := by
  rw [Function.update_self, itemBytes_queueCopy]

theorem SendEffect.exchanged {sender : Option TaskRef}
    {k : Kernel} (he : SendEffect cfg s q b timeout sender r) (g : s.Good cfg)
    (hcalm : r.system.kernel.Calm k) (hsend : op.sendOk cfg s = r.returns q b sender)
    (hreceive : op.receiveOk cfg s = none) :
    ∃ sent received, Exchanged cfg s op { r.system with kernel := k } sent received := by
  cases he with
  | served u c k' hfirst hwait hgranted =>
    have hends := (hgranted.woken.waitEnds hwait).aside hcalm.bookkept.aside
    refine ⟨some (q, sender, itemBytes (s.memory b) 0 (s.queues q).itemSize),
      some (q, some u, itemBytes (s.memory b) 0 (s.queues q).itemSize),
      .of_events _ rfl (by simp) (by simp) (fun p v item => ?_) (fun p v item => ?_)⟩
    · exact completes_own hsend (fun x p c hx => by cases (hends.served.mp hx).2)
    · refine (completes_waiter hreceive hends (fun _ _ => Wait.queueReceive_injective)).trans ?_
      rw [System.record, System.copyBuffer, itemBytes_copied]
  | stored hnone hspace =>
    have hkept : ∀ u w, ¬ Served s { (queueEnqueue s q b).record [.accepted q sender
        (itemBytes (s.memory b) 0 (s.queues q).itemSize)] with kernel := k } u w :=
      fun u w => not_served_of_wait (hcalm.bookkept.aside.sameWaits.wait u)
    exact ⟨some (q, sender, itemBytes (s.memory b) 0 (s.queues q).itemSize), none,
      .of_events _ rfl (by simp) (by simp) (fun p v item => completes_own hsend (fun u p c => hkept u _))
        (fun p v item => completes_none hreceive (fun u p c => hkept u _))⟩
  | waits t hruns _ _ _ hfinite =>
    have hstarts := (Kernel.startWait_starts cfg (.queueSend q b) hruns (timeoutTicks_spec hfinite)).aside
      hcalm.bookkept.aside
    exact ⟨none, none, .none rfl hsend hreceive (fun u w _ => WaitStarts.not_served hstarts g)⟩
  | full =>
    exact ⟨none, none, .none rfl hsend hreceive
      (fun u w _ => not_served_of_wait (hcalm.bookkept.aside.sameWaits.wait u))⟩

theorem ReceiveEffect.exchanged {receiver : Option TaskRef}
    {k : Kernel} (he : ReceiveEffect cfg s q b timeout receiver r) (g : s.Good cfg)
    (hun : s.Unserved) (hv : queueIsValid s q = true) (hcalm : r.system.kernel.Calm k)
    (hsend : op.sendOk cfg s = none) (hreceive : op.receiveOk cfg s = r.returns q b receiver) :
    ∃ sent received, Exchanged cfg s op { r.system with kernel := k } sent received := by
  cases he with
  | taken hcount hnone =>
    have hkept :
      ∀ u w, ¬ Served s { (queueDequeue s q b).record [.delivered q receiver (queueFront (s.queues q))] with
        kernel := k } u w := fun u w => not_served_of_wait (hcalm.bookkept.aside.sameWaits.wait u)
    refine ⟨none, some (q, receiver, queueFront (s.queues q)), .of_events _ rfl (by simp) (by simp)
      (fun p v item => completes_none hsend (fun u p c => hkept u _)) (fun p v item => ?_)⟩
    refine (completes_own hreceive (fun u p c => hkept u _)).trans ?_
    simp only [System.record, queueDequeue, System.updateQueue, itemBytes_copied, queueFront]
  | refilled u c k' hcount hfirst hwait hgranted =>
    have hends := (hgranted.woken.waitEnds hwait).aside hcalm.bookkept.aside
    refine ⟨some (q, some u, itemBytes ((queueDequeue s q b).memory c) 0 (s.queues q).itemSize),
      some (q, receiver, queueFront (s.queues q)),
      .of_events _ (List.append_assoc ..) (by simp) (by simp) (fun p v item => ?_) (fun p v item => ?_)⟩
    · exact completes_waiter hsend hends (fun _ _ => Wait.queueSend_injective)
    · refine (completes_own hreceive (fun x p c hx => by cases (hends.served.mp hx).2)).trans ?_
      simp only [System.record, queueDequeue, queueEnqueue, System.updateQueue, itemBytes_copied, queueFront]
  | direct u c k' hcount hfirst hwait =>
    have hfull : (s.queues q).count = (s.queues q).capacity := (hun u _ hwait).2
    have := capacity_pos_of_valid hv
    omega
  | waits t hruns _ _ _ hfinite =>
    have hstarts := (Kernel.startWait_starts cfg (.queueReceive q b) hruns (timeoutTicks_spec hfinite)).aside
      hcalm.bookkept.aside
    exact ⟨none, none, .none rfl hsend hreceive (fun u w _ => WaitStarts.not_served hstarts g)⟩
  | empty =>
    exact ⟨none, none, .none rfl hsend hreceive
      (fun u w _ => not_served_of_wait (hcalm.bookkept.aside.sameWaits.wait u))⟩

theorem step_exchanged (hs : s.Steady cfg) (hun : s.Unserved) (op : Op) :
    ∃ sent received, Exchanged cfg s op (step cfg s op) sent received := by
  have hstep := step_queueStep hs op
  have hserved := fun (h : Apart s (step cfg s op)) u w => h.not_served hs (u := u) (w := w)
  generalize step cfg s op = s' at hstep hserved
  cases hstep with
  | apart hapart hsend hreceive => exact ⟨none, none, .none hapart.exchanges hsend hreceive (hserved hapart)⟩
  | write b content hop =>
    subst hop
    exact ⟨none, none, .none rfl rfl rfl (fun u w _ => not_served_of_wait rfl)⟩
  | create p storage itemSize capacity hfresh k hcalm hsend hreceive =>
    exact ⟨none, none, .none rfl hsend hreceive
      (fun u w _ => not_served_of_wait (hcalm.bookkept.aside.sameWaits.wait u))⟩
  | send p b timeout sender r k hcaller hv heffect hcalm hsend hreceive =>
    exact heffect.exchanged hs.good hcalm hsend hreceive
  | receive p b timeout receiver r k hcaller hv heffect hcalm hsend hreceive =>
    exact heffect.exchanged hs.good hun hv hcalm hsend hreceive

theorem slot_inside {capacity : Nat} (itemSize : Nat) (hi : i < capacity) :
    i * itemSize + itemSize ≤ itemSize * capacity := by
  calc i * itemSize + itemSize = itemSize * (i + 1) := by rw [Nat.mul_add, Nat.mul_one, Nat.mul_comm]
    _ ≤ itemSize * capacity := Nat.mul_le_mul_left itemSize hi

structure SameLayout (queue queue' : QueueControlBlock) : Prop where
  itemSize : queue'.itemSize = queue.itemSize
  capacity : queue'.capacity = queue.capacity
  beyond : ∀ i, queue.itemSize * queue.capacity ≤ i → queue'.storage i = queue.storage i

theorem SameLayout.refl (queue : QueueControlBlock) : SameLayout queue queue := ⟨rfl, rfl, fun _ _ => rfl⟩

theorem sameLayout_enqueue (area : Nat → UInt8) {tail count head : Nat}
    (h : queue.tail < queue.capacity) :
    SameLayout queue { queue with
      storage := queueCopy queue.storage (queueSlot queue queue.tail) area 0 queue.itemSize
      head := head
      tail := tail
      count := count } := by
  refine ⟨rfl, rfl, fun i hi => ?_⟩
  have hinside := slot_inside queue.itemSize h
  dsimp only
  rw [queueCopy_apply, if_neg]
  unfold queueSlot
  omega

theorem tail_lt_of_valid (h : queueIsValid s q = true) : (s.queues q).tail < (s.queues q).capacity := by
  simp only [queueIsValid, Bool.and_eq_true, decide_eq_true_eq] at h
  exact h.2

theorem step_sameLayout (hs : s.Steady cfg) (hm : (s.queues q).magic = true) (op : Op) :
    SameLayout (s.queues q) ((step cfg s op).queues q) := by
  have hstep := step_queueStep hs op
  generalize step cfg s op = s' at hstep
  cases hstep with
  | apart hapart =>
    rw [hapart.queues]
    exact .refl _
  | write b content => exact .refl _
  | create p storage itemSize capacity hfresh k =>
    have hqp : q ≠ p := by
      rintro rfl
      simp [hm] at hfresh
    simp only [System.updateQueue, Function.update_of_ne hqp]
    exact .refl _
  | send p b timeout sender r k hcaller hv heffect =>
    cases heffect with
    | stored =>
      by_cases hqp : q = p
      · subst hqp
        simp only [System.record, queueEnqueue, System.updateQueue, Function.update_self]
        exact sameLayout_enqueue _ (tail_lt_of_valid hv)
      · simp only [System.record, queueEnqueue, System.updateQueue, Function.update_of_ne hqp]
        exact .refl _
    | _ => exact .refl _
  | receive p b timeout receiver r k hcaller hv heffect =>
    by_cases hqp : q = p
    · subst hqp
      cases heffect with
      | taken =>
        simp only [System.record, queueDequeue, System.updateQueue, Function.update_self]
        exact ⟨rfl, rfl, fun _ _ => rfl⟩
      | refilled =>
        simp only [System.record, queueEnqueue, queueDequeue, System.updateQueue, Function.update_self]
        exact sameLayout_enqueue _ (tail_lt_of_valid hv)
      | _ => exact .refl _
    · cases heffect with
      | taken =>
        simp only [System.record, queueDequeue, System.updateQueue, Function.update_of_ne hqp]
        exact .refl _
      | refilled =>
        simp only [System.record, queueEnqueue, queueDequeue, System.updateQueue, Function.update_of_ne hqp]
        exact .refl _
      | _ => exact .refl _

theorem boot_orderly (cfg : Config) : (boot cfg).Orderly := by
  refine ⟨fun u w hw => ?_, fun q => ?_⟩
  · simp [boot_wait] at hw
  · constructor <;> simp [boot_eq, System.reset, System.accepted, System.delivered, queueContents, ringContents]

theorem exec_orderly (cfg : Config) (ops : List Op) : (exec cfg (boot cfg) ops).Orderly :=
  (boot_steady cfg).exec_keeps (fun _ _ g hm => hm.orderly g) (boot_orderly cfg) ops

theorem itemFor_self {u : Option TaskRef} {item : List UInt8}
    {x : Option (QueueRef × Option TaskRef × List UInt8)} (h : x = some (q, u, item)) : itemFor q u x = [item] := by
  subst h
  simp [itemFor]

theorem itemFor_of_ne {u : Option TaskRef} {x : Option (QueueRef × Option TaskRef × List UInt8)}
    (h : ∀ item, x ≠ some (q, u, item)) : itemFor q u x = [] := by
  rcases x with _ | ⟨p, v, item⟩
  · rfl
  · have hpv : ¬ (p = q ∧ v = u) := by
      rintro ⟨rfl, rfl⟩
      exact h item rfl
    simp [itemFor, hpv]

/-- In every run a queue is the bounded FIFO of the items taken over and not delivered: none is lost,
duplicated or corrupted. Its slots stay inside the storage, and in every operation each call that
succeeds, at once or by the end of its wait, accounts for exactly one item of its caller. -/
theorem queue_refines_fifo (cfg : Config) (ops : List Op) (q : QueueRef) :
    let s := exec cfg (boot cfg) ops
    let queue := s.queues q
    s.accepted q = s.delivered q ++ queueContents queue ∧
    (queue.magic = true → queue.tail = (queue.head + queue.count) % queue.capacity ∧
      queue.count ≤ queue.capacity ∧
      queueSlot queue queue.head + queue.itemSize ≤ queue.itemSize * queue.capacity ∧
      queueSlot queue queue.tail + queue.itemSize ≤ queue.itemSize * queue.capacity ∧
      ∀ op, SameLayout queue ((step cfg s op).queues q)) ∧
    ∀ op caller,
      ((∀ item, SendCompletes cfg s op (step cfg s op) q caller item →
          (step cfg s op).acceptedFrom q caller = s.acceptedFrom q caller ++ [item]) ∧
        ((∀ item, ¬ SendCompletes cfg s op (step cfg s op) q caller item) →
          (step cfg s op).acceptedFrom q caller = s.acceptedFrom q caller)) ∧
      ((∀ item, ReceiveCompletes cfg s op (step cfg s op) q caller item →
          (step cfg s op).deliveredTo q caller = s.deliveredTo q caller ++ [item]) ∧
        ((∀ item, ¬ ReceiveCompletes cfg s op (step cfg s op) q caller item) →
          (step cfg s op).deliveredTo q caller = s.deliveredTo q caller)) := by
  intro s queue
  have hs : s.Steady cfg := (boot_steady cfg).exec ops
  have hfifo : Fifo s q := (exec_orderly cfg ops).2 q
  refine ⟨hfifo.balance, fun hm => ?_, fun op caller => ?_⟩
  · have hv := hs.good.queues q hm
    exact ⟨hfifo.tail hm, count_le_of_valid hv, slot_inside _ (head_lt_of_valid hv),
      slot_inside _ (tail_lt_of_valid hv),
      fun op => step_sameLayout hs hm op⟩
  · obtain ⟨sent, received, hex⟩ := step_exchanged hs (exec_orderly cfg ops).1 op
    refine ⟨⟨fun item hi => ?_, fun hi => ?_⟩, fun item hi => ?_, fun hi => ?_⟩
    · rw [hex.accepted, itemFor_self ((hex.sends q caller item).mp hi)]
    · rw [hex.accepted, itemFor_of_ne (fun item hx => hi item ((hex.sends q caller item).mpr hx)), List.append_nil]
    · rw [hex.delivered, itemFor_self ((hex.receives q caller item).mp hi)]
    · rw [hex.delivered, itemFor_of_ne (fun item hx => hi item ((hex.receives q caller item).mpr hx)), List.append_nil]

end

end Hairtos

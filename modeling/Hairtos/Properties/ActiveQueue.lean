import Hairtos.Properties.ActiveOrder
import Hairtos.Properties.Fifo

namespace Hairtos

open Library

variable {C A : Type} [DecidableEq C] [DecidableEq A]

/-- The queue of an active object is a queue `q` of the kernel, from which its task `u` alone receives, into the
buffer `b`. `bytes` is what a pointer looks like in memory. -/
structure ActiveObject.Shows (bytes : Nat → List UInt8) (q : QueueRef) (u : TaskRef) (b : BufferRef) (s : System)
    (x : ActiveObject) : Prop where
  magic : (s.queues q).magic = true
  capacity : (s.queues q).capacity = x.capacity
  contents : queueContents (s.queues q) = x.slots.map bytes
  waiting : x.loop = .waiting ↔ (s.kernel.tasks u).wait = some (.queueReceive q b)
  alone : ∀ v c, (s.kernel.tasks v).wait = some (.queueReceive q c) → v = u ∧ c = b
  received : ∀ event, x.loop = .received event → itemBytes (s.memory b) 0 (s.queues q).itemSize = bytes event

/-- Client `c` is the first of the blocked senders, or not blocked if there is none. -/
def EventSystem.Blocks (bytes : Nat → List UInt8) (q : QueueRef) (b : BufferRef) (s : System) (e : EventSystem C A)
    (a : A) (c : C) : Prop :=
  match waitListPeek s.kernel.waitLists (.queueSend q) with
  | some v => ∃ item origin, (s.kernel.tasks v).wait = some (.queueSend q item) ∧ item ≠ b ∧
      (e.threads c).activity = .blocked origin a ∧
      itemBytes (s.memory item) 0 (s.queues q).itemSize = bytes origin.event
  | none => ∀ origin, (e.threads c).activity ≠ .blocked origin a

section

variable {cfg : Config} {s : System} {e : EventSystem C A} {a : A} {c : C} {bytes : Nat → List UInt8} {q : QueueRef}
  {u : TaskRef} {b : BufferRef} {x : ActiveObject}

theorem ActiveObject.shows_start (bytes : Nat → List UInt8) (u : TaskRef) (b : BufferRef)
    (hm : (s.queues q).magic = true) (hempty : (s.queues q).count = 0)
    (hnone : ∀ v c, (s.kernel.tasks v).wait ≠ some (.queueReceive q c)) :
    (⟨true, (s.queues q).capacity, [], .start⟩ : ActiveObject).Shows bytes q u b s where
  magic := hm
  capacity := rfl
  contents := by rw [queueContents, hempty, ringContents_zero, List.map_nil]
  waiting := iff_of_false (by simp) (hnone u b)
  alone := fun v c hv => absurd hv (hnone v c)
  received := by simp

namespace ActiveObject.Shows

theorem length (h : x.Shows bytes q u b s) : x.slots.length = (s.queues q).count := by
  rw [← List.length_map (f := bytes), ← h.contents]
  simp [queueContents, ringContents]

theorem not_waiting (h : x.Shows bytes q u b s) (g : s.kernel.Sound cfg)
    (hnone : waitListPeek s.kernel.waitLists (.queueReceive q) = none) : x.loop ≠ .waiting :=
  fun hloop => not_waiting_of_peek g hnone (h.waiting.mp hloop) rfl

theorem sends (h : x.Shows bytes q u b s) {k : Kernel} {t : TaskRef} {item : BufferRef} {ticks : Option Tick}
    (hloop : x.loop ≠ .waiting) (hstarts : WaitStarts s.kernel t (.queueSend q item) ticks k) :
    x.Shows bytes q u b { s with kernel := k } := by
  have hwait : ∀ v c, (k.tasks v).wait = some (.queueReceive q c) →
      (s.kernel.tasks v).wait = some (.queueReceive q c) := by
    intro v c hv
    by_cases hvt : v = t
    · simp [hvt, hstarts.wait] at hv
    · rwa [hstarts.others v hvt] at hv
  refine ⟨h.magic, h.capacity, h.contents, iff_of_false hloop fun hu => ?_, fun v c hv => h.alone v c (hwait v c hv),
    h.received⟩
  exact hloop (h.waiting.mpr (hwait u b hu))

theorem serves (h : x.Shows bytes q u b s) {k : Kernel} {item : BufferRef} {event : Nat} {events : List Event}
    (hends : WaitEnds s.kernel u (.queueReceive q b) .ok k)
    (hitem : itemBytes (s.memory item) 0 (s.queues q).itemSize = bytes event) :
    { x with loop := .received event }.Shows bytes q u b
      { (s.copyBuffer b item (s.queues q).itemSize).record events with kernel := k } := by
  refine ⟨h.magic, h.capacity, h.contents, by simp [hends.done], fun v c hv => ?_, ?_⟩
  · by_cases hvu : v = u
    · simp [hvu, hends.done] at hv
    · exact h.alone v c (by rwa [hends.others v hvu] at hv)
  · rintro _ ⟨⟩
    exact (itemBytes_copied _ _ _ _ _ b).trans hitem

theorem stores (h : x.Shows bytes q u b s) (hfifo : Fifo s q) {item : BufferRef} {event : Nat} {events : List Event}
    (hspace : (s.queues q).count < (s.queues q).capacity)
    (hitem : itemBytes (s.memory item) 0 (s.queues q).itemSize = bytes event) :
    { x with slots := x.slots ++ [event] }.Shows bytes q u b ((queueEnqueue s q item).record events) := by
  have hqueue : ((queueEnqueue s q item).record events).queues q = _ := Function.update_self ..
  refine ⟨?_, ?_, ?_, h.waiting, h.alone, ?_⟩
  · rw [hqueue]
    exact h.magic
  · rw [hqueue]
    exact h.capacity
  · rw [hqueue, queueContents_enqueue (s.memory item) hspace (hfifo.tail h.magic), h.contents, hitem]
    simp
  · rw [hqueue]
    exact h.received

theorem takes (h : x.Shows bytes q u b s) (hv : queueIsValid s q = true) {event : Nat} {rest : List Nat}
    {events : List Event} (hslots : x.slots = event :: rest) (hloop : x.loop ≠ .waiting) :
    { x with slots := rest, loop := .received event }.Shows bytes q u b ((queueDequeue s q b).record events) := by
  have hcount : 0 < (s.queues q).count := by simp [← h.length, hslots]
  have hqueue : ((queueDequeue s q b).record events).queues q = _ := Function.update_self ..
  have hcontents := h.contents
  rw [queueContents_dequeue (head_lt_of_valid hv) hcount, hslots, List.map_cons, List.cons.injEq] at hcontents
  refine ⟨?_, ?_, ?_, ?_, h.alone, ?_⟩
  · rw [hqueue]
    exact h.magic
  · rw [hqueue]
    exact h.capacity
  · rw [hqueue]
    exact hcontents.2
  · exact iff_of_false (by simp) fun hu => hloop (h.waiting.mpr hu)
  · rintro _ ⟨⟩
    rw [hqueue]
    exact (itemBytes_copied _ _ _ _ _ b).trans hcontents.1

theorem grants (h : x.Shows bytes q u b s) {k : Kernel} {v : TaskRef} {item : BufferRef}
    (hends : WaitEnds s.kernel v (.queueSend q item) .ok k) : x.Shows bytes q u b { s with kernel := k } := by
  have hwait : ∀ w c, (k.tasks w).wait = some (.queueReceive q c) ↔
      (s.kernel.tasks w).wait = some (.queueReceive q c) := by
    intro w c
    by_cases hwv : w = v
    · simp [hwv, hends.done, hends.wait]
    · rw [hends.others w hwv]
  exact ⟨h.magic, h.capacity, h.contents, h.waiting.trans (hwait u b).symm,
    fun w c hw => h.alone w c ((hwait w c).mp hw), h.received⟩

theorem waits (h : x.Shows bytes q u b s) {k : Kernel} {ticks : Option Tick}
    (hstarts : WaitStarts s.kernel u (.queueReceive q b) ticks k) :
    { x with loop := .waiting }.Shows bytes q u b { s with kernel := k } := by
  refine ⟨h.magic, h.capacity, h.contents, iff_of_true rfl hstarts.wait, fun v c hv => ?_, by simp⟩
  by_cases hvu : v = u
  · refine ⟨hvu, ?_⟩
    rw [hvu, hstarts.wait] at hv
    exact (Wait.queueReceive_injective (Option.some.inj hv)).2.symm
  · exact h.alone v c (by rwa [hstarts.others v hvu] at hv)

end ActiveObject.Shows

/-- The locked part of a send does to the kernel's queue what the send of the event system does to the active
object, with the same result. -/
theorem queueSendLocked_posts (hr : Reachable cfg s) (h : (e.actives a).Shows bytes q u b s) {origin : Origin A}
    {item : BufferRef} (hitem : itemBytes (s.memory item) 0 (s.queues q).itemSize = bytes origin.event)
    {timeout : Tick} {allowBlock : Bool} (hblock : MayBlock s timeout allowBlock)
    (hwait : origin.wait = true ↔ timeout ≠ noWait) (sender : Option TaskRef) :
    let r := queueSendLocked cfg s q item timeout allowBlock sender
    ∃ x', x'.Shows bytes q u b r.system ∧
      e.send c origin a =
        if r.blocked then e.goOn c (.blocked origin a) else (e.setActive a x').posted c a r.status origin := by
  have hs := reachable_steady hr
  have g := hs.good.kernel.toSound
  have hfifo : Fifo s q := by
    obtain ⟨ops, rfl⟩ := hr
    exact (exec_orderly cfg ops).2 q
  obtain ⟨heffect, -⟩ := queueSendLocked_effect hs.good.kernel h.magic item timeout allowBlock hblock
    (fresh_of_quiet hs.quiet _) sender
  intro r
  change SendEffect cfg s q item timeout sender r at heffect
  clear_value r
  cases heffect with
  | served v d k _ hwaits hgranted =>
    obtain ⟨rfl, rfl⟩ := h.alone v d hwaits
    exact ⟨_, h.serves (hgranted.woken.waitEnds hwaits) hitem, by simp [EventSystem.send, h.waiting.mpr hwaits]⟩
  | stored hnone hspace =>
    refine ⟨_, h.stores hfifo hspace hitem, ?_⟩
    have hroom : (e.actives a).slots.length < (e.actives a).capacity := by rwa [h.length, ← h.capacity]
    simp [EventSystem.send, h.not_waiting g hnone, hroom]
  | waits t hruns _ hnone hspace hfinite =>
    refine ⟨_, h.sends (h.not_waiting g hnone) (Kernel.startWait_starts cfg _ hruns (timeoutTicks_spec hfinite)),
      ?_⟩
    have hroom : ¬ (e.actives a).slots.length < (e.actives a).capacity := by rw [h.length, ← h.capacity]; omega
    simp [EventSystem.send, h.not_waiting g hnone, hroom, hwait.mpr hfinite]
  | full hnone hspace hpolls =>
    refine ⟨_, h, ?_⟩
    have hroom : ¬ (e.actives a).slots.length < (e.actives a).capacity := by rw [h.length, ← h.capacity]; omega
    have hpoll : origin.wait = false := by simpa [hpolls] using hwait
    simp [EventSystem.send, EventSystem.setActive, h.not_waiting g hnone, hroom, hpoll]

namespace EventSystem

theorem receive_waits (hslots : (e.actives a).slots = []) :
    (e.receive a c).actives a = { e.actives a with loop := .waiting } := by
  simp [receive, hslots, goLoop, setActive]

theorem receive_takes {event : Nat} {rest : List Nat} (hslots : (e.actives a).slots = event :: rest)
    (hnone : ∀ origin, (e.threads c).activity ≠ .blocked origin a) :
    (e.receive a c).actives a = { e.actives a with slots := rest, loop := .received event } := by
  simp only [receive, hslots]
  split
  next origin target hact =>
    rw [if_neg (by rintro rfl; exact hnone origin hact)]
    exact Function.update_self ..
  next => exact Function.update_self ..

theorem receive_refills {event : Nat} {rest : List Nat} {origin : Origin A}
    (hslots : (e.actives a).slots = event :: rest) (hact : (e.threads c).activity = .blocked origin a) :
    (e.receive a c).actives a =
      { e.actives a with slots := rest ++ [origin.event], loop := .received event } := by
  simp only [receive, hslots, hact, if_true, posted_eq, proceed_actives]
  exact Function.update_self ..

end EventSystem

/-- The locked part of a receive by the loop does to the kernel's queue what the receive of the event system does to
the active object, if this hands the slot to the client that has waited at the front. -/
theorem queueReceiveLocked_receives (hr : Reachable cfg s) (h : (e.actives a).Shows bytes q u b s)
    (hruns : s.kernel.Runs u) (hloop : (e.actives a).loop = .receive) (hblocks : e.Blocks bytes q b s a c) :
    let r := queueReceiveLocked cfg s q b waitForever true (some u)
    ((e.receive a c).actives a).Shows bytes q u b r.system ∧
      (r.blocked = true ↔ ((e.receive a c).actives a).loop = .waiting) ∧ r.status = .ok := by
  have hs := reachable_steady hr
  have hv := hs.good.queues q h.magic
  obtain ⟨hun, hfifo⟩ : s.Orderly := by
    obtain ⟨ops, rfl⟩ := hr
    exact exec_orderly cfg ops
  obtain ⟨heffect, -⟩ :=
    queueReceiveLocked_effect hs.good.kernel hv b waitForever true (fun _ => ⟨rfl, u, hruns⟩)
    (fresh_of_quiet hs.quiet _) (some u)
  have hnot : (e.actives a).loop ≠ .waiting := by simp [hloop]
  have hlength := h.length
  intro r
  change ReceiveEffect cfg s q b waitForever (some u) r at heffect
  clear_value r
  cases heffect with
  | taken hcount hnone =>
    obtain ⟨event, rest, hslots⟩ := List.exists_cons_of_length_pos (hlength ▸ hcount)
    simp only [EventSystem.Blocks, hnone] at hblocks
    rw [EventSystem.receive_takes hslots hblocks]
    exact ⟨h.takes hv hslots hnot, by simp, rfl⟩
  | refilled v item k hcount hfirst hwaits hgranted =>
    obtain ⟨event, rest, hslots⟩ := List.exists_cons_of_length_pos (hlength ▸ hcount)
    simp only [EventSystem.Blocks, hfirst] at hblocks
    obtain ⟨item', origin, hwaits', hne, hact, hbytes⟩ := hblocks
    obtain rfl := (Wait.queueSend_injective (Option.some.inj (hwaits'.symm.trans hwaits))).2
    rw [EventSystem.receive_refills hslots hact]
    generalize hevents : [Event.delivered q (some u) (queueFront (s.queues q))] = events
    have hqueue : ((queueDequeue s q b).record events).queues q = _ := Function.update_self ..
    have hpop : Fifo ((queueDequeue s q b).record events) q :=
      (hfifo q).pop hv hcount hqueue (by rw [← hevents]; rfl)
    refine ⟨((h.takes hv hslots hnot).stores hpop ?_ ?_).grants (hgranted.woken.waitEnds hwaits), by simp, rfl⟩
    · have := count_le_of_valid hv
      rw [hqueue]
      dsimp only
      omega
    · have hmemory : ((queueDequeue s q b).record events).memory item' = s.memory item' := Function.update_of_ne hne ..
      rw [hqueue, hmemory]
      exact hbytes
  | direct v item k hcount hfirst hwaits =>
    have hfull : (s.queues q).count = (s.queues q).capacity := (hun v _ hwaits).2
    have := capacity_pos_of_valid hv
    omega
  | waits t hruns' _ hcount hnone hfinite =>
    obtain rfl := Option.some.inj (hruns.current.symm.trans hruns'.current)
    have hslots : (e.actives a).slots = [] := List.eq_nil_of_length_eq_zero (hlength.trans hcount)
    rw [EventSystem.receive_waits hslots]
    exact ⟨h.waits (Kernel.startWait_starts cfg _ hruns (timeoutTicks_spec hfinite)), by simp, rfl⟩
  | empty _ _ hpolls => exact absurd hpolls (by decide)

end

end Hairtos

import Hairtos.Event.Settlement
import Hairtos.Properties.EventReferences

namespace Hairtos

open Library

variable {C A : Type} [Fintype C] [Fintype A] [DecidableEq C] [DecidableEq A] {t : Target}

structure PubSub.Refines (p : PubSub A) (array : Nat → Option A) (lists : Nat → List A) : Prop where
  slots : p.Lists array lists
  rejected : ∀ activeIsValid signal a, p.rejects activeIsValid signal a →
    pubsubSubscribe p activeIsValid signal (some a) = (p, .invalidArgument) ∧
      pubsubUnsubscribe p activeIsValid signal (some a) = (p, .invalidArgument)
  again : ∀ activeIsValid signal a, ¬ p.rejects activeIsValid signal a → a ∈ lists signal →
    pubsubSubscribe p activeIsValid signal (some a) = (p, .invalidState)
  full : ∀ activeIsValid signal a, ¬ p.rejects activeIsValid signal a → a ∉ lists signal →
    (lists signal).length = p.maxSubscribers → pubsubSubscribe p activeIsValid signal (some a) = (p, .noMemory)
  appends : ∀ activeIsValid signal a, ¬ p.rejects activeIsValid signal a → a ∉ lists signal →
    (lists signal).length < p.maxSubscribers →
      ∃ slots, pubsubSubscribe p activeIsValid signal (some a) = ({ p with slots := slots }, .ok) ∧
        PubSub.Lists { p with slots := slots } array (Function.update lists signal (lists signal ++ [a]))
  absent : ∀ activeIsValid signal a, ¬ p.rejects activeIsValid signal a → a ∉ lists signal →
    pubsubUnsubscribe p activeIsValid signal (some a) = (p, .invalidState)
  erases : ∀ activeIsValid signal a, ¬ p.rejects activeIsValid signal a → a ∈ lists signal →
    ∃ slots, pubsubUnsubscribe p activeIsValid signal (some a) = ({ p with slots := slots }, .ok) ∧
      PubSub.Lists { p with slots := slots } array (Function.update lists signal ((lists signal).erase a))
  snapshot : ∀ signal < p.signalCount,
    p.snapshot signal = lists signal ∧ pubsubGetSubscriberCount p signal = (lists signal).length

omit [Fintype A] in
theorem PubSub.Lists.refines {p : PubSub A} {array : Nat → Option A} {lists : Nat → List A}
    (h : p.Lists array lists) :
    p.Refines array lists := by
  refine ⟨h, fun _ _ _ hrejects => ?_, fun _ _ _ => h.subscribe_again, fun _ _ _ => h.subscribe_full,
    fun _ _ _ => h.subscribe_appends, fun _ _ _ => h.unsubscribe_absent, fun _ _ _ => h.unsubscribe_erases,
    fun signal hsignal => ⟨h.snapshot_eq hsignal, ?_⟩⟩
  · simp [pubsubSubscribe, pubsubUnsubscribe, hrejects]
  · rw [pubsubGetSubscriberCount, if_neg (by rw [h.valid]; simp; omega), ← h.snapshot_eq hsignal, PubSub.snapshot,
      List.length_filterMap_eq_countP]

structure Publication.Complete (p : Publication A) : Prop where
  attempts_eq : p.attempts.map Prod.fst = p.subscribers
  delivered_eq : p.delivered = p.attempts.countP (fun x => x.2 = .ok)

omit [Fintype A] [DecidableEq A] in
theorem Publication.Exact.complete {p : Publication A} (h : p.Exact []) (hrest : p.rest = []) : p.Complete := by
  refine ⟨?_, h.delivered_eq⟩
  have := h.order
  rw [hrest, List.append_nil, List.append_nil] at this
  rw [this, h.snapshot_eq]

namespace EventSystem

variable {s : EventSystem C A} {array : Nat → Option A} {signalCount : Nat} {pools : List PoolShape}
  {statics : Nat → Prop}

omit [Fintype C] [Fintype A] [DecidableEq C] [DecidableEq A] in
theorem Exact.published (h : s.Exact) {c : C} {p : Publication A} {release status : Status}
    (hmem : .published p release status ∈ (s.threads c).results) :
    p.Complete ∧ status = if release ≠ .ok ∧ firstFailure p.attempts = .ok then release else firstFailure
      p.attempts := by
  obtain ⟨hexact, hrest, hstatus⟩ := (h c).2 _ hmem
  rw [hexact.overall_eq] at hstatus
  exact ⟨hexact.complete hrest, hstatus⟩

structure Orderly (t : Target) (pools : List PoolShape) (statics : Nat → Prop) (array : Nat → Option A)
    (signalCount : Nat) (s : EventSystem C A) : Prop where
  sound : s.Sound t pools statics
  subscribed : s.Subscribed array signalCount
  exact : s.Exact
  settled : s.Settled pools (fun e => (t.loadEvent s.store.memory e).signal) signalCount

omit [DecidableEq C] [DecidableEq A] in
theorem Orderly.snapshotInRange (h : s.Orderly t pools statics array signalCount) (op : EventOp C A) :
    s.SnapshotInRange t op := by
  cases op with
  | advance c =>
    have howed := (h.settled c).1
    simp only [SnapshotInRange]
    cases hact : (s.threads c).activity with
    | snapshot event wait =>
      rw [hact] at howed
      rw [h.subscribed.count]
      exact howed.2
    | _ => trivial
  | _ => trivial

theorem Orderly.step (h : s.Orderly t pools statics array signalCount) (ha : Arena t pools statics) {op : EventOp C A}
    (hlawful : s.Lawful pools statics op) (hretains : s.RetainsHeld t statics op) :
    (s.step t op).Orderly t pools statics array signalCount := by
  refine ⟨h.sound.step ha hlawful hretains, h.subscribed.step op,
    h.exact.step h.subscribed.lists (h.snapshotInRange op), ?_⟩
  have hsettled : s.Settled pools (fun e => (t.loadEvent (s.step t op).store.memory e).signal) signalCount :=
    h.settled.resign (h.sound.step_sameSignals ha hretains)
  refine All.step hsettled trivial (fun c request => ?_) (fun c s₁ o hsection hvia => ?_)
  · cases request <;> exact All.begin hsettled c trivial
  · refine h.sound.section_settled ha rfl hsection (hsettled c).1 h.subscribed.count (fun event wait hact => ?_)
    obtain rfl := hvia (by rw [hact]; rfl)
    simp only [EventSystem.step, EventSystem.advance, hact]
    split <;> rfl

end EventSystem

/-- From a successful initialisation on, in every run the table is the lists of subscriptions. A publication posts
once to each subscriber that its critical section finds, in their order, whatever the posts return and whatever
becomes of the table. Where clients give up only what they hold, and retain only what somebody holds, its result is
that of the first post that failed, or `HR_OK`. -/
theorem publish_subscribe_refines (t : Target) (p : PubSub A) (storage : Nat) (array : Nat → Option A)
    (signalCount maxSubscribers : Nat) (hinit : (pubsubInit p storage array signalCount maxSubscribers).2 = .ok)
    (s : EventSystem C A) (htable : s.table = (pubsubInit p storage array signalCount maxSubscribers).1)
    (hsubscriptions : s.subscriptions = fun _ => [])
    (hthreads : ∀ c, (s.threads c).activity = .idle ∧ (s.threads c).results = []) :
    (∀ ops, (s.run t ops).table.Refines array (s.run t ops).subscriptions) ∧
    (∀ ops, Meets (EventSystem.step t) (fun s op => s.SnapshotInRange t op) s ops → (s.run t ops).Exact ∧
      ∀ c p release status, .published p release status ∈ ((s.run t ops).threads c).results → p.Complete ∧
        status = if release ≠ .ok ∧ firstFailure p.attempts = .ok then release else firstFailure p.attempts) ∧
    (∀ pools statics store, Arena t pools statics → eventPoolsInit t store pools = some s.store →
      (∀ e, statics e → (t.loadEvent store.memory e).flags = eventFlagStatic) → s.Fresh →
      ∀ ops, Meets (EventSystem.step t) (fun s op => s.Lawful pools statics op ∧ s.RetainsHeld t statics op) s
        ops →
        (s.run t ops).Exact ∧
        ∀ c p release status, .published p release status ∈ ((s.run t ops).threads c).results → p.Complete ∧
          status = firstFailure p.attempts) := by
  have hlists : s.table.Lists array s.subscriptions := by
    rw [htable, hsubscriptions]
    exact pubsubInit_lists hinit
  have hsubscribed : s.Subscribed array s.table.signalCount := ⟨hlists, rfl⟩
  have hexact : s.Exact := fun c => by
    rw [(hthreads c).1, (hthreads c).2]
    exact ⟨trivial, fun r hr => absurd hr List.not_mem_nil⟩
  refine ⟨fun ops => ?_, fun ops hops => ?_, fun pools statics store ha hpools hstatic hfresh ops hops => ?_⟩
  · have hrun : (s.run t ops).Subscribed array s.table.signalCount :=
      foldl_keeps (fun _ op h => h.step op) hsubscribed
    exact hrun.lists.refines
  · have hrun := hops.keeps (I := fun u => u.Subscribed array s.table.signalCount ∧ u.Exact)
      (fun _ op h hop => ⟨h.1.step op, h.2.step h.1.lists hop⟩) ⟨hsubscribed, hexact⟩
    exact ⟨hrun.2, fun c p release status hmem => hrun.2.published hmem⟩
  · have hempty : store.Keeps t [] statics (fun _ => 0) (fun _ => 0) :=
      ⟨fun _ hq => absurd hq List.not_mem_nil, hstatic⟩
    have hsound : s.Sound t pools statics := hfresh.sound (eventPoolsInit_keeps ha hempty hpools)
    have hsettled : s.Settled pools (fun e => (t.loadEvent s.store.memory e).signal) s.table.signalCount := fun c => by
      rw [(hthreads c).1, (hthreads c).2]
      exact ⟨trivial, fun r hr => absurd hr List.not_mem_nil⟩
    have hrun : (s.run t ops).Orderly t pools statics array s.table.signalCount :=
      hops.keeps (fun _ _ h hop => h.step ha hop.1 hop.2) ⟨hsound, hsubscribed, hexact, hsettled⟩
    refine ⟨hrun.exact, fun c p release status hmem => ?_⟩
    obtain ⟨hcomplete, hstatus⟩ := hrun.exact.published hmem
    have hrelease : release = .ok := (hrun.settled c).2 _ hmem
    rw [if_neg (fun h => h.1 hrelease)] at hstatus
    exact ⟨hcomplete, hstatus⟩

def marketShape : PoolShape := ⟨0x20001000, 0x20000000, 32, 2⟩

def marketEvents : EventSystem Unit Bool where
  store := (eventPoolInit Target.cortexM3 ⟨fun _ => ⟨0, 0, 0, 0, 0, 0⟩, fun _ => 0⟩ 0x20001000
    0x20000000 32 2).1
  table := (pubsubInit ⟨0, fun _ => none, 0, 0, 0⟩ 0x20002000 (fun _ => none) 40 2).1
  subscriptions := fun _ => []
  threads := fun _ => ⟨fun _ => 0, .idle, []⟩
  actives := fun _ => ⟨true, 1, [], .start⟩

/-- The queue of the first of two subscribers is full when an event is published. -/
def marketOps : List (EventOp Unit Bool) :=
  [.call () (.subscribe 33#16 false), .advance (), .call () (.subscribe 33#16 true), .advance (),
    .call () (.new 0x20001000 32#16 20), .advance (), .advance (),
    .call () (.post false 0x20000000 false), .advance (), .advance (),
    .call () (.new 0x20001000 33#16 20), .advance (), .advance (),
    .call () (.publish 0x20000020 false)] ++ List.replicate 18 (.advance ())

theorem marketShape_arena : Arena Target.cortexM3 [marketShape] (fun _ => False) :=
  .single ⟨by decide, by decide, by decide, by decide, by decide, by decide, by decide⟩

def Returned.publication : Returned A → Option (List (A × Status) × Status)
  | .published p _ result => some (p.attempts, result)
  | _ => none

theorem publish_subscribe_refines_marketOps :
    let s := marketEvents.run Target.cortexM3 marketOps
    (s.threads ()).results.filterMap Returned.publication =
        [([(false, .queueFull), (true, .ok)], Status.queueFull)] ∧
      s.table.Refines (fun _ => none) s.subscriptions ∧ s.Exact ∧
      ∀ c p release status, .published p release status ∈ (s.threads c).results → p.Complete ∧
        status = firstFailure p.attempts := by
  have h := publish_subscribe_refines Target.cortexM3 ⟨0, fun _ => none, 0, 0, 0⟩ 0x20002000 (fun _ => none) 40 2
    (by decide) marketEvents rfl rfl (fun _ => ⟨rfl, rfl⟩)
  exact ⟨by decide +kernel, h.1 marketOps, h.2.2 [marketShape] (fun _ => False)
    ⟨fun _ => ⟨0, 0, 0, 0, 0, 0⟩, fun _ => 0⟩ marketShape_arena (by rfl) (fun _ he => he.elim)
    ⟨fun _ => ⟨rfl, fun _ => rfl⟩, fun _ => ⟨rfl, rfl⟩⟩ marketOps (by decide +kernel)⟩

end Hairtos

import Hairtos.Event.Clients
import Hairtos.Library.Runs

namespace Hairtos

open Library

variable {C A : Type} [Fintype C] [Fintype A] [DecidableEq C] [DecidableEq A]
variable {t : Target} {pools : List PoolShape} {statics : Nat → Prop}

def eventPoolsInit (t : Target) (s : EventStore) : List PoolShape → Option EventStore
  | [] => some s
  | q :: qs =>
    let r := eventPoolInit t s q.pool q.storage q.blockSize q.blockCount
    if r.2 = .ok then eventPoolsInit t r.1 qs else none

structure EventSystem.Fresh (s : EventSystem C A) : Prop where
  threads : ∀ c, (s.threads c).activity = .idle ∧ ∀ e, (s.threads c).held e = 0
  actives : ∀ a, (s.actives a).slots = [] ∧ (s.actives a).loop = .start

structure EventSystem.Conserved (t : Target) (pools : List PoolShape) (s : EventSystem C A) : Prop where
  pool : ∀ q ∈ pools, ∃ free, Linked (t.loadLink s.store.memory) (s.store.pools q.pool).freeHead free ∧
    free.Nodup ∧
    (s.store.pools q.pool).freeCount = free.length ∧ (∀ b ∈ free, b ∈ q.blocks) ∧
    (∀ b ∈ q.blocks, b ∈ free ↔ s.references b = 0 ∧ s.fillings b = 0) ∧
    (∀ b ∈ q.blocks, b ∉ free → s.fillings b = 0 → (t.loadEvent s.store.memory b).referenceCount =
      s.references b) ∧
    ∀ a e, e ∈ (s.actives a).slots ∨ (s.actives a).loop.references e ≠ 0 → e ∉ free
  overflow : ∀ q ∈ pools, ∀ b ∈ q.blocks, s.references b = uint16Max →
    eventRetain t s.store b = (s.store, .overflow) ∧ eventRetainLocked t s.store b = (s.store, .overflow)
  drained : (∀ c, (s.threads c).activity = .idle ∧ ∀ e, (s.threads c).held e = 0) →
    (∀ a, (s.actives a).slots = [] ∧ ∀ e, (s.actives a).loop.references e = 0) →
    ∀ q ∈ pools, (s.store.pools q.pool).freeCount = q.blockCount

theorem EventStore.Keeps.init {s : EventStore} {q : PoolShape} {done : List PoolShape}
    (h : s.Keeps t done statics (fun _ => 0) (fun _ => 0)) (ha : Arena t (done ++ [q]) statics)
    (hinit : (eventPoolInit t s q.pool q.storage q.blockSize q.blockCount).2 = .ok) :
    (eventPoolInit t s q.pool q.storage q.blockSize q.blockCount).1.Keeps t (done ++ [q]) statics (fun _ => 0)
      (fun _ => 0) := by
  have hq : q ∈ done ++ [q] := by simp
  have hsound := ha.sound q hq
  obtain ⟨hholds, hpools, hmem⟩ := eventPoolInit_holds hsound.pool_lt hsound.bound_lt hinit
  refine ⟨fun q' hq' => ?_, fun e he => ?_⟩
  · by_cases hqq : q' = q
    · subst hqq
      exact ⟨q'.blocks, hholds, fun b hb => .free hb rfl rfl⟩
    · obtain ⟨hpool, hapart⟩ := ha.apart q' hq' q hq hqq
      have hdone : q' ∈ done := by simpa [hqq] using hq'
      obtain ⟨free, hold, huse⟩ := h.pool q' hdone
      exact ⟨free, hold.congr (hpools q'.pool hpool) (fun z hz hzlt => hmem z (by omega)), huse⟩
  · rw [Target.loadEvent_congr (fun z hz hzlt => hmem z ?_)]
    · exact h.static e he
    · have := ha.static e he q hq
      omega

theorem Arena.mono (ha : Arena t pools statics) {some : List PoolShape} (hsome : ∀ q ∈ some, q ∈ pools) :
    Arena t some statics :=
  ⟨fun q hq => ha.sound q (hsome q hq), fun q hq q' hq' => ha.apart q (hsome q hq) q' (hsome q' hq'),
    fun e he q hq => ha.static e he q (hsome q hq)⟩

theorem eventPoolsInit_keeps {rest done : List PoolShape} (ha : Arena t (done ++ rest) statics) {s s' : EventStore}
    (h : s.Keeps t done statics (fun _ => 0) (fun _ => 0)) (hinit : eventPoolsInit t s rest = some s') :
    s'.Keeps t (done ++ rest) statics (fun _ => 0) (fun _ => 0) := by
  induction rest generalizing done s with
  | nil =>
    rw [List.append_nil]
    cases hinit
    exact h
  | cons q rest ih =>
    have hsplit : done ++ q :: rest = (done ++ [q]) ++ rest := by simp
    rw [eventPoolsInit] at hinit
    split at hinit
    · next hok =>
      rw [hsplit] at ha ⊢
      have hkeeps := h.init (ha.mono (fun q' hq' => List.mem_append_left _ hq')) hok
      exact ih ha hkeeps hinit
    · cases hinit

namespace EventSystem

variable {s : EventSystem C A}

omit [DecidableEq C] [DecidableEq A] in
theorem references_eq_zero (hthreads : ∀ c, (s.threads c).activity = .idle ∧ ∀ e, (s.threads c).held e = 0)
    (hactives : ∀ a, (s.actives a).slots = [] ∧ ∀ e, (s.actives a).loop.references e = 0) (e : Nat) :
    s.references e = 0 ∧ s.fillings e = 0 := by
  have hthread : ∀ c, (s.threads c).references e = 0 := by
    intro c
    rw [Thread.references, (hthreads c).1, (hthreads c).2 e]
    rfl
  have hactive : ∀ a, (s.actives a).references e = 0 := by
    intro a
    rw [ActiveObject.references, (hactives a).1, (hactives a).2 e]
    rfl
  have hfill : ∀ c, (s.threads c).fillings e = 0 := by
    intro c
    rw [Thread.fillings, (hthreads c).1]
    rfl
  rw [references, fillings, total_eq_zero _ hthread, total_eq_zero _ hactive, total_eq_zero _ hfill]
  exact ⟨rfl, rfl⟩

omit [DecidableEq C] [DecidableEq A] in
theorem Fresh.sound (hfresh : s.Fresh) (hkeeps : s.store.Keeps t pools statics (fun _ => 0) (fun _ => 0)) :
    s.Sound t pools statics := by
  have hzero := references_eq_zero hfresh.threads (fun a => ⟨(hfresh.actives a).1, fun e => by
    rw [(hfresh.actives a).2]
    rfl⟩)
  refine ⟨hkeeps.congr (fun _ _ b _ => (hzero b).1) (fun _ _ b _ => (hzero b).2), fun e he => absurd (hzero e).1 he,
    fun c => ?_, fun a => ?_⟩
  · rw [(hfresh.threads c).1]
    trivial
  · rw [(hfresh.actives a).2]
    trivial

omit [DecidableEq C] [DecidableEq A] in
theorem Sound.conserved (h : s.Sound t pools statics) : s.Conserved t pools := by
  refine ⟨fun q hq => ?_, fun q hq b hb hmax => ?_, fun hthreads hactives q hq => ?_⟩
  · obtain ⟨free, hholds, huse⟩ := h.keeps.pool q hq
    have hfree : ∀ b ∈ q.blocks, b ∈ free ↔ s.references b = 0 ∧ s.fillings b = 0 := by
      intro b hb
      cases huse b hb with
      | free hmem hrefs hfill => exact ⟨fun _ => ⟨hrefs, hfill⟩, fun _ => hmem⟩
      | taken hmem _ hfill => exact ⟨fun h => absurd h hmem, fun h => by omega⟩
      | live hmem hrefs _ => exact ⟨fun h => absurd h hmem, fun h => absurd h.1 hrefs⟩
    refine ⟨free, hholds.linked, hholds.nodup, hholds.freeCount, hholds.subset, hfree, fun b hb hmem hfill => ?_,
      fun a e he hmem => ?_⟩
    · have hrefs : s.references b ≠ 0 := fun h0 => hmem ((hfree b hb).mpr ⟨h0, hfill⟩)
      exact (hholds.live b hb hrefs).referenceCount_eq
    · have hle := s.references_active_le a e
      have h0 := hholds.unused e hmem
      rcases he with he | he
      · have := List.count_pos_iff.mpr he
        omega
      · omega
  · have hne : s.references b ≠ 0 := by
      rw [hmax]
      decide
    obtain ⟨hvalid, hdynamic, -⟩ := h.keeps.isDynamic hq hb hne
    obtain ⟨free, hholds, -⟩ := h.keeps.pool q hq
    have hlocked := hholds.retainLocked_full hb hmax
    refine ⟨?_, hlocked⟩
    rw [eventRetain, hvalid, hdynamic]
    exact hlocked
  · obtain ⟨free, hholds, huse⟩ := h.keeps.pool q hq
    have hall : ∀ b ∈ q.blocks, b ∈ free := by
      intro b hb
      obtain ⟨hrefs, hfill⟩ := references_eq_zero hthreads hactives b
      cases huse b hb with
      | free hmem _ _ => exact hmem
      | taken _ _ hone => omega
      | live _ hne _ => exact absurd hrefs hne
    have hlength : q.blocks.length ≤ free.length :=
      (blockStarts_nodup hholds.shape.blockSize_pos q.blockCount).subperm hall |>.length_le
    have hblocks : q.blocks.length = q.blockCount := by simp [PoolShape.blocks, blockStarts]
    have hle := hholds.length_le
    rw [hholds.freeCount]
    omega

end EventSystem

/-- In every run of clients that give up only what they hold, and retain only what somebody holds, the count of every
event is the number of references to it, and its block is free when there are none. -/
theorem references_conserved (t : Target) (pools : List PoolShape) (statics : Nat → Prop) (ha : Arena t pools statics)
    (store : EventStore) (s : EventSystem C A) (hinit : eventPoolsInit t store pools = some s.store)
    (hstatic : ∀ e, statics e → (t.loadEvent store.memory e).flags = eventFlagStatic) (hfresh : s.Fresh)
    (ops : List (EventOp C A))
    (hops : Meets (EventSystem.step t) (fun s op => s.Lawful pools statics op ∧ s.RetainsHeld t statics op) s ops) :
    (s.run t ops).Conserved t pools := by
  have hempty : store.Keeps t [] statics (fun _ => 0) (fun _ => 0) :=
    ⟨fun _ hq => absurd hq List.not_mem_nil, hstatic⟩
  have hsound : s.Sound t pools statics := hfresh.sound (eventPoolsInit_keeps ha hempty hinit)
  exact (hops.keeps (fun _ _ h hop => h.step ha hop.1 hop.2) hsound).conserved

def boardShape : PoolShape := ⟨0x20001000, 0x20000000, 32, 1⟩

def boardEvents : EventSystem Bool Unit where
  store := (eventPoolInit Target.cortexM3 ⟨fun _ => ⟨0, 0, 0, 0, 0, 0⟩, fun _ => 0⟩ 0x20001000
    0x20000000 32 1).1
  table := ⟨0, fun _ => none, 0, 0, 0⟩
  subscriptions := fun _ => []
  threads := fun _ => ⟨fun _ => 0, .idle, []⟩
  actives := fun _ => ⟨true, 1, [], .start⟩

theorem boardShape_arena : Arena Target.cortexM3 [boardShape] (fun _ => False) :=
  .single ⟨by decide, by decide, by decide, by decide, by decide, by decide, by decide⟩

/-- Client `true` retains the event while the active object dispatches it. -/
def dispatchOps : List (EventOp Bool Unit) :=
  [.call false (.new 0x20001000 32#16 20), .advance false, .advance false,
    .call false (.post () 0x20000000 false), .advance false, .advance false,
    .loop () .ok false, .loop () .ok false, .loop () .ok false,
    .call true (.retain 0x20000000), .advance true, .advance true,
    .loop () .ok false, .loop () .ok false, .loop () .ok false]

theorem references_conserved_dispatchOps :
    ((boardEvents.run Target.cortexM3 (dispatchOps.take 9)).actives ()).loop = .dispatch 0x20000000 ∧
      ((boardEvents.run Target.cortexM3 dispatchOps).threads true).held 0x20000000 = 1 ∧
      (boardEvents.run Target.cortexM3 dispatchOps).Conserved Target.cortexM3 [boardShape] :=
  ⟨by decide +kernel, by decide +kernel,
    references_conserved Target.cortexM3 [boardShape] (fun _ => False) boardShape_arena
      ⟨fun _ => ⟨0, 0, 0, 0, 0, 0⟩, fun _ => 0⟩ boardEvents (by rfl) (fun _ he => he.elim)
      ⟨fun _ => ⟨rfl, fun _ => rfl⟩, fun _ => ⟨rfl, rfl⟩⟩ dispatchOps (by decide +kernel)⟩

/-- Client `true` has no reference and retains an event that client `false` releases for good between the check
and the critical section of `he_event_retain`. -/
def raceOps : List (EventOp Bool Unit) :=
  [.call false (.new 0x20001000 32#16 20), .advance false, .advance false,
    .call true (.retain 0x20000000), .advance true,
    .call false (.release 0x20000000), .advance false, .advance false,
    .advance true,
    .call false (.new 0x20001000 32#16 20), .advance false, .advance false,
    .call false (.post () 0x20000000 false), .advance false, .advance false,
    .call true (.release 0x20000000), .advance true, .advance true]

/-- The event is in a queue and on the free list. -/
theorem retain_race_frees_queued :
    Meets (EventSystem.step Target.cortexM3) (fun s op => s.Lawful [boardShape] (fun _ => False) op) boardEvents
      raceOps ∧
      ¬ (boardEvents.run Target.cortexM3 raceOps).Conserved Target.cortexM3 [boardShape] := by
  refine ⟨by decide +kernel, fun h => ?_⟩
  obtain ⟨free, hlinked, -, -, -, -, -, hqueued⟩ := h.pool boardShape (by simp)
  have hslot : 0x20000000 ∈ ((boardEvents.run Target.cortexM3 raceOps).actives ()).slots := by decide +kernel
  have hhead : ((boardEvents.run Target.cortexM3 raceOps).store.pools boardShape.pool).freeHead = 0x20000000 := by
    decide +kernel
  rw [hhead] at hlinked
  cases free with
  | nil => simp [Linked] at hlinked
  | cons b free =>
    rw [← hlinked.1] at hqueued
    exact hqueued () 0x20000000 (Or.inl hslot) (by simp)

end Hairtos

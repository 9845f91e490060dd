import Hairtos.Event.StoreState

namespace Hairtos

open Library

variable {t : Target}

inductive EventCall (t : Target)
  | new (signal : BitVec 16) (eventSize : BitVec t.width)
  | retain (event : Nat)
  | release (event : Nat)
  | write (address : Nat) (value : UInt8)

/-- `returned` has the pointers the pool has returned so far; `references` counts, block by block, the reference
that comes with a new event, those retained and those released. Both follow the results of the calls only. -/
structure EventClient where
  store : EventStore
  returned : List Nat
  references : Nat → Nat

def EventClient.Owns (t : Target) (q : PoolShape) (c : EventClient) (address : Nat) : Prop :=
  ∃ b ∈ q.blocks, c.references b ≠ 0 ∧ b + t.eventBytes ≤ address ∧ address < b + q.blockSize

instance EventClient.decidableOwns (t : Target) (q : PoolShape) (c : EventClient) (address : Nat) :
    Decidable (c.Owns t q address) :=
  inferInstanceAs (Decidable (∃ b ∈ q.blocks,
    c.references b ≠ 0 ∧ b + t.eventBytes ≤ address ∧ address < b + q.blockSize))

def EventClient.step (t : Target) (q : PoolShape) (c : EventClient) : EventCall t → EventClient
  | .new signal eventSize =>
    let r := eventNew t c.store q.pool signal.toNat eventSize.toNat
    if r.2 = 0 then { c with store := r.1 }
    else { store := r.1, returned := r.2 :: c.returned, references := Function.update c.references r.2 1 }
  | .retain event =>
    if event ∈ c.returned then
      let r := eventRetain t c.store event
      if r.2 = .ok then
        { c with store := r.1, references := Function.update c.references event (c.references event + 1) }
      else { c with store := r.1 }
    else c
  | .release event =>
    if event ∈ c.returned then
      let r := eventRelease t c.store event
      if r.2 = .ok then
        { c with store := r.1, references := Function.update c.references event (c.references event - 1) }
      else { c with store := r.1 }
    else c
  | .write address value =>
    if c.Owns t q address then
      { c with store := { c.store with memory := Function.update c.store.memory address value } }
    else c

def EventClient.run (t : Target) (q : PoolShape) (c : EventClient) (calls : List (EventCall t)) : EventClient :=
  calls.foldl (EventClient.step t q) c

def EventClient.fresh (t : Target) (s : EventStore) (q : PoolShape) : EventClient where
  store := (eventPoolInit t s q.pool q.storage q.blockSize q.blockCount).1
  returned := []
  references := fun _ => 0

structure EventClient.Intact (t : Target) (q : PoolShape) (c : EventClient) : Prop where
  free : ∃ free, Linked (t.loadLink c.store.memory) (c.store.pools q.pool).freeHead free ∧ free.Nodup ∧
    (∀ x, x ∈ free ↔ x ∈ q.blocks ∧ c.references x = 0) ∧
    (c.store.pools q.pool).freeCount = free.length ∧ free.length ≤ q.blockCount
  counts : ∀ p ∈ c.returned, eventGetReferenceCount t c.store p = c.references p
  new_null : ∀ (signal : BitVec 16) (eventSize : BitVec t.width),
    (eventNew t c.store q.pool signal.toNat eventSize.toNat).2 = 0 ↔
      (∀ x ∈ q.blocks, c.references x ≠ 0) ∨ ¬ q.Accepts t signal.toNat eventSize.toNat
  new_block : ∀ (signal : BitVec 16) (eventSize : BitVec t.width),
    (eventNew t c.store q.pool signal.toNat eventSize.toNat).2 ≠ 0 →
      (eventNew t c.store q.pool signal.toNat eventSize.toNat).2 ∈ q.blocks ∧
      c.references (eventNew t c.store q.pool signal.toNat eventSize.toNat).2 = 0 ∧
      eventGetReferenceCount t (eventNew t c.store q.pool signal.toNat eventSize.toNat).1
        (eventNew t c.store q.pool signal.toNat eventSize.toNat).2 = 1
  stale : ∀ p ∈ c.returned, c.references p = 0 →
    eventRetain t c.store p = (c.store, .invalidArgument) ∧ eventRelease t c.store p = (c.store, .invalidArgument)
  no_internal : ∀ p ∈ c.returned, (eventRelease t c.store p).2 ≠ .internal

structure EventClient.Matches (t : Target) (q : PoolShape) (c : EventClient) (free : List Nat) : Prop where
  holds : c.store.Holds t q free c.references (fun x => x ∈ c.returned ∧ c.references x = 0)
  used : ∀ x ∈ q.blocks, x ∉ free → c.references x ≠ 0
  returned : ∀ x ∈ c.returned, x ∈ q.blocks

namespace EventClient.Matches

variable {q : PoolShape} {c : EventClient} {free : List Nat}

theorem retain_stale (h : c.Matches t q free) {p : Nat} (hp : p ∈ c.returned) (hrefs : c.references p = 0) :
    eventRetain t c.store p = (c.store, .invalidArgument) := by
  rw [eventRetain, if_pos (h.holds.not_isValid (h.returned p hp) ⟨hp, hrefs⟩)]

theorem release_stale (h : c.Matches t q free) {p : Nat} (hp : p ∈ c.returned) (hrefs : c.references p = 0) :
    eventRelease t c.store p = (c.store, .invalidArgument) := by
  rw [eventRelease, if_pos (h.holds.not_isValid (h.returned p hp) ⟨hp, hrefs⟩)]

theorem not_free (h : c.Matches t q free) {p : Nat} (hrefs : c.references p ≠ 0) : p ∉ free :=
  fun hfree => hrefs (h.holds.unused p hfree)

theorem retain_live (h : c.Matches t q free) {p : Nat} (hp : p ∈ q.blocks) (hrefs : c.references p ≠ 0) :
    eventRetain t c.store p = eventRetainLocked t c.store p := by
  rw [eventRetain, if_neg (by rw [h.holds.isValid hp hrefs]; decide), if_neg
    (by rw [h.holds.isDynamic hp hrefs]; decide)]

theorem release_live (h : c.Matches t q free) {p : Nat} (hp : p ∈ q.blocks) (hrefs : c.references p ≠ 0) :
    eventRelease t c.store p = eventReleaseLocked t c.store q.pool p := by
  rw [eventRelease, if_neg (by rw [h.holds.isValid hp hrefs]; decide),
    if_neg (by rw [h.holds.isDynamic hp hrefs]; decide), (h.holds.live p hp hrefs).pool_eq]

theorem new_refused (h : c.Matches t q free) {signal eventSize : Nat}
    (hrefused : ¬ q.Accepts t signal eventSize ∨ free = []) :
    eventNew t c.store q.pool signal eventSize = (c.store, 0) := by
  simp [eventNew, h.holds.take_refused hrefused]

theorem new_cons {x : Nat} (h : c.Matches t q (x :: free)) {signal eventSize : Nat}
    (haccepts : q.Accepts t signal eventSize) (hsignal : signal < 2 ^ 16) :
    ∃ s', eventNew t c.store q.pool signal eventSize = (s', x) ∧
      s'.Holds t q free (Function.update c.references x 1)
        (fun y => y ≠ x ∧ y ∈ c.returned ∧ c.references y = 0) := by
  have hx := h.holds.subset x (by simp)
  obtain ⟨hfree, -⟩ := List.nodup_cons.mp h.holds.nodup
  obtain ⟨s', htake, -, -, hs'⟩ := h.holds.take_cons haccepts
  have hne := (h.holds.shape.block_bounds hx).1
  refine ⟨eventFill t s' q.pool x signal eventSize, ?_, hs'.fill hx hfree haccepts hsignal⟩
  simp [eventNew, htake, hne]

theorem set (h : c.Matches t q free) {s' : EventStore} {p n : Nat} {free' returned' : List Nat}
    (hs' : s'.Holds t q free' (Function.update c.references p n)
      (fun y => y ≠ p ∧ y ∈ c.returned ∧ c.references y = 0)) (hp : p ∈ q.blocks) (hn : n ≠ 0)
    (hfree : ∀ y, y ≠ p → y ∉ free' → y ∉ free) (hreturned : ∀ y ∈ returned', y = p ∨
      y ∈ c.returned) :
    Matches t q ⟨s', returned', Function.update c.references p n⟩ free' := by
  refine ⟨hs'.mono ?_, ?_, ?_⟩
  · rintro y ⟨hy, hzero⟩
    dsimp only at hy hzero
    have hyp : y ≠ p := by
      rintro rfl
      rw [Function.update_self] at hzero
      exact hn hzero
    rw [Function.update_of_ne hyp] at hzero
    exact ⟨hyp, (hreturned y hy).resolve_left hyp, hzero⟩
  · intro y hy hnot
    dsimp only
    by_cases hyp : y = p
    · subst hyp
      rwa [Function.update_self]
    · rw [Function.update_of_ne hyp]
      exact h.used y hy (hfree y hyp hnot)
  · intro y hy
    rcases hreturned y hy with rfl | hmem
    · exact hp
    · exact h.returned y hmem

theorem step_new (h : c.Matches t q free) (signal : BitVec 16) (eventSize : BitVec t.width) :
    ∃ free', (c.step t q (.new signal eventSize)).Matches t q free' := by
  by_cases hrefused : ¬ q.Accepts t signal.toNat eventSize.toNat ∨ free = []
  · refine ⟨free, ?_⟩
    simp only [step, h.new_refused hrefused, if_true]
    exact h
  obtain ⟨hnot, hne⟩ := not_or.mp hrefused
  obtain ⟨x, free, rfl⟩ := List.exists_cons_of_ne_nil hne
  obtain ⟨s', hnew, hs'⟩ := h.new_cons (not_not.mp hnot) signal.isLt
  have hx := h.holds.subset x (by simp)
  refine ⟨free, ?_⟩
  simp only [step, hnew, if_neg (h.holds.shape.block_bounds hx).1]
  exact h.set hs' hx (by decide) (fun y hy hmem => by simp [hy, hmem]) (fun y hy => List.mem_cons.mp hy)

theorem step_retain (h : c.Matches t q free) (p : Nat) : ∃ free', (c.step t q (.retain p)).Matches t q free' := by
  by_cases hp : p ∈ c.returned
  swap
  · exact ⟨free, by simpa only [step, if_neg hp] using h⟩
  have hblock := h.returned p hp
  simp only [step, if_pos hp]
  by_cases hrefs : c.references p = 0
  · exact ⟨free, by simpa only [h.retain_stale hp hrefs, reduceCtorEq, if_false] using h⟩
  rw [h.retain_live hblock hrefs]
  by_cases hmax : c.references p = uint16Max
  · exact ⟨free, by simpa only [h.holds.retainLocked_full hblock hmax, reduceCtorEq, if_false] using h⟩
  obtain ⟨s', hretain, -, -, hs'⟩ := h.holds.retainLocked hblock (h.not_free hrefs) hrefs hmax
  simp only [hretain, if_true]
  exact ⟨free, h.set hs' hblock (Nat.succ_ne_zero _) (fun y _ hy => hy) (fun y hy => Or.inr hy)⟩

theorem step_release (h : c.Matches t q free) (p : Nat) : ∃ free', (c.step t q (.release p)).Matches t q free' := by
  by_cases hp : p ∈ c.returned
  swap
  · exact ⟨free, by simpa only [step, if_neg hp] using h⟩
  have hblock := h.returned p hp
  simp only [step, if_pos hp]
  by_cases hrefs : c.references p = 0
  · exact ⟨free, by simpa only [h.release_stale hp hrefs, reduceCtorEq, if_false] using h⟩
  rw [h.release_live hblock hrefs]
  by_cases hlast : c.references p = 1
  · obtain ⟨s', hrelease, -, -, hs'⟩ := h.holds.releaseLocked_last hblock (h.not_free hrefs) hlast
    simp only [hrelease, if_true, hlast, Nat.sub_self]
    refine ⟨p :: free, hs'.mono ?_, ?_, h.returned⟩
    · rintro y ⟨hy, hzero⟩
      dsimp only at hy hzero
      by_cases hyp : y = p
      · exact Or.inl hyp
      · rw [Function.update_of_ne hyp] at hzero
        exact Or.inr ⟨hy, hzero⟩
    · intro y hy hnot
      obtain ⟨hyp, hfree⟩ := not_or.mp (List.mem_cons.not.mp hnot)
      dsimp only
      rw [Function.update_of_ne hyp]
      exact h.used y hy hfree
  · obtain ⟨s', hrelease, -, -, hs'⟩ := h.holds.releaseLocked_shared hblock (h.not_free hrefs) (by omega)
    simp only [hrelease, if_true]
    exact ⟨free, h.set hs' hblock (by omega) (fun y _ hy => hy) (fun y hy => Or.inr hy)⟩

theorem step_write (h : c.Matches t q free) (address : Nat) (value : UInt8) :
    ∃ free', (c.step t q (.write address value)).Matches t q free' := by
  by_cases howns : c.Owns t q address
  swap
  · exact ⟨free, by simpa only [step, if_neg howns] using h⟩
  obtain ⟨b, hb, hrefs, hle, hlt⟩ := howns
  have hm : ∀ z, z < b ∨ b + q.blockSize ≤ z →
      Function.update c.store.memory address value z = c.store.memory z := fun z hz =>
    Function.update_of_ne (by omega) _ _
  have hevent : t.loadEvent (Function.update c.store.memory address value) b = t.loadEvent c.store.memory b :=
    Target.loadEvent_congr (fun z _ hz => Function.update_of_ne (by omega) _ _)
  have hs' := h.holds.rewrite hb (h.not_free hrefs) hm (n := c.references b)
    (fun _ => hevent ▸ h.holds.live b hb hrefs) (fun x _ hs => hs) (fun hs => absurd hs.2 hrefs)
  rw [Function.update_eq_self] at hs'
  refine ⟨free, ?_⟩
  simp only [step, if_pos (show c.Owns t q address from ⟨b, hb, hrefs, hle, hlt⟩)]
  exact ⟨hs', h.used, h.returned⟩

theorem run_matches (h : c.Matches t q free) (calls : List (EventCall t)) :
    ∃ free', (c.run t q calls).Matches t q free' := by
  induction calls generalizing c free with
  | nil => exact ⟨free, h⟩
  | cons call calls ih =>
    have hstep : ∃ free', (c.step t q call).Matches t q free' := by
      cases call with
      | new signal eventSize => exact h.step_new signal eventSize
      | retain p => exact h.step_retain p
      | release p => exact h.step_release p
      | write address value => exact h.step_write address value
    obtain ⟨free', hc⟩ := hstep
    exact ih hc

theorem reference_count (h : c.Matches t q free) {p : Nat} (hp : p ∈ c.returned) :
    eventGetReferenceCount t c.store p = c.references p := by
  have hblock := h.returned p hp
  by_cases hrefs : c.references p = 0
  · have hnot : eventIsDynamic t c.store p = false := by
      have := h.holds.not_isValid hblock ⟨hp, hrefs⟩
      rw [eventIsValid] at this
      rw [eventIsDynamic, HeEvent.isDynamic, ← Bool.and_assoc, this, Bool.false_and]
    simp [eventGetReferenceCount, hnot, hrefs]
  · rw [eventGetReferenceCount, if_pos (h.holds.isDynamic hblock hrefs),
      (h.holds.live p hblock hrefs).referenceCount_eq]

theorem intact (h : c.Matches t q free) : c.Intact t q := by
  have hfree : ∀ x, x ∈ free ↔ x ∈ q.blocks ∧ c.references x = 0 := by
    intro x
    refine ⟨fun hx => ⟨h.holds.subset x hx, h.holds.unused x hx⟩, fun hx => ?_⟩
    by_contra hnot
    exact h.used x hx.1 hnot hx.2
  have hnew : ∀ signal eventSize : Nat, signal < 2 ^ 16 →
      (eventNew t c.store q.pool signal eventSize).2 = 0 ∧
        ((∀ x ∈ q.blocks, c.references x ≠ 0) ∨ ¬ q.Accepts t signal eventSize) ∨
      ∃ s' x, eventNew t c.store q.pool signal eventSize = (s', x) ∧ x ∈ q.blocks ∧ x ≠ 0 ∧
        c.references x = 0 ∧
        q.Accepts t signal eventSize ∧ eventGetReferenceCount t s' x = 1 := by
    intro signal eventSize hsignal
    by_cases hrefused : ¬ q.Accepts t signal eventSize ∨ free = []
    · refine Or.inl ⟨by rw [h.new_refused hrefused], hrefused.symm.imp (fun hnil x hx => ?_) id⟩
      exact h.used x hx (by simp [hnil])
    · obtain ⟨hnot, hne⟩ := not_or.mp hrefused
      obtain ⟨x, free, rfl⟩ := List.exists_cons_of_ne_nil hne
      obtain ⟨s', heq, hs'⟩ := h.new_cons (not_not.mp hnot) hsignal
      have hx := h.holds.subset x (by simp)
      have hone : Function.update c.references x 1 x = 1 := Function.update_self ..
      have hrefs : Function.update c.references x 1 x ≠ 0 := by rw [hone]; decide
      refine Or.inr ⟨s', x, heq, hx, (h.holds.shape.block_bounds hx).1, h.holds.unused x (by simp), not_not.mp hnot,
        ?_⟩
      rw [eventGetReferenceCount, if_pos (hs'.isDynamic hx hrefs), (hs'.live x hx hrefs).referenceCount_eq, hone]
  refine ⟨⟨free, h.holds.linked, h.holds.nodup, hfree, h.holds.freeCount, h.holds.length_le⟩,
    fun p hp => h.reference_count hp, fun signal eventSize => ?_, fun signal eventSize hne => ?_,
    fun p hp hrefs => ⟨h.retain_stale hp hrefs, h.release_stale hp hrefs⟩, fun p hp => ?_⟩
  · rcases hnew signal.toNat eventSize.toNat signal.isLt with ⟨hnull, hcause⟩ |
      ⟨s', x, heq, hx, hne, hrefs, haccepts, -⟩
    · exact iff_of_true hnull hcause
    · rw [heq]
      refine iff_of_false hne ?_
      rintro (hall | hnot)
      · exact hall x hx hrefs
      · exact hnot haccepts
  · rcases hnew signal.toNat eventSize.toNat signal.isLt with ⟨hnull, -⟩ | ⟨s', x, heq, hx, -, hrefs, -, hone⟩
    · exact absurd hnull hne
    · rw [heq]
      exact ⟨hx, hrefs, hone⟩
  · by_cases hrefs : c.references p = 0
    · rw [h.release_stale hp hrefs]
      simp
    · have hblock := h.returned p hp
      rw [h.release_live hblock hrefs]
      by_cases hlast : c.references p = 1
      · obtain ⟨s', hrelease, -⟩ := h.holds.releaseLocked_last hblock (h.not_free hrefs) hlast
        rw [hrelease]
        simp
      · obtain ⟨s', hrelease, -⟩ := h.holds.releaseLocked_shared hblock (h.not_free hrefs) (by omega)
        rw [hrelease]
        simp

end EventClient.Matches

theorem event_pool_integrity (t : Target) (s : EventStore) (q : PoolShape) (hpool : q.pool < 2 ^ t.width)
    (hbound : q.bound < 2 ^ t.width)
    (hinit : (eventPoolInit t s q.pool q.storage q.blockSize q.blockCount).2 = .ok) (calls : List (EventCall t)) :
    ((EventClient.fresh t s q).run t q calls).Intact t q := by
  have hholds := (eventPoolInit_holds hpool hbound hinit).1
  have hfresh : (EventClient.fresh t s q).Matches t q q.blocks :=
    ⟨hholds.mono (fun x hx => by simpa [EventClient.fresh] using hx.1), fun x hx hnot => absurd hx hnot,
      fun x hx => by simp [EventClient.fresh] at hx⟩
  obtain ⟨free, hrun⟩ := hfresh.run_matches calls
  exact hrun.intact

def boardStore : EventStore where
  pools := fun _ => ⟨0, 0, 0, 0, 0, 0⟩
  memory := fun _ => 0

theorem event_pool_integrity_boardStore :
    (eventPoolInit Target.cortexM3 boardStore 0x20001000 0x20000000 32 4).2 = .ok ∧
      ((EventClient.fresh Target.cortexM3 boardStore ⟨0x20001000, 0x20000000, 32, 4⟩).run Target.cortexM3
        ⟨0x20001000, 0x20000000, 32, 4⟩ [.new 32#16 20#32, .retain 0x20000000, .release 0x20000000]).Intact
        Target.cortexM3 ⟨0x20001000, 0x20000000, 32, 4⟩ :=
  ⟨by decide, event_pool_integrity Target.cortexM3 boardStore ⟨0x20001000, 0x20000000, 32,
    4⟩ (by decide) (by decide)
    (by decide) _⟩

end Hairtos

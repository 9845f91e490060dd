import Hairtos.Event.StoreState

namespace Hairtos

open Library

variable {q : PoolShape} {b : Nat} {free : List Nat} {references' : Nat → Nat}

variable {t : Target} {pools : List PoolShape} {statics : Nat → Prop}

structure Arena (t : Target) (pools : List PoolShape) (statics : Nat → Prop) : Prop where
  sound : ∀ q ∈ pools, q.Sound t
  apart : ∀ q ∈ pools, ∀ q' ∈ pools, q ≠ q' → q.pool ≠ q'.pool ∧
    (q.bound ≤ q'.storage ∨ q'.bound ≤ q.storage)
  static : ∀ e, statics e → ∀ q ∈ pools, e + t.eventBytes ≤ q.storage ∨ q.bound ≤ e

theorem Arena.single {t : Target} {q : PoolShape} (h : q.Sound t) : Arena t [q] (fun _ => False) where
  sound := by simpa using h
  apart := by simp
  static := fun _ he => he.elim

inductive BlockUse (free : List Nat) (references fillings : Nat → Nat) (b : Nat) : Prop
  | free (hfree : b ∈ free) (hrefs : references b = 0) (hfill : fillings b = 0)
  | taken (hfree : b ∉ free) (hrefs : references b = 0) (hfill : fillings b = 1)
  | live (hfree : b ∉ free) (hrefs : references b ≠ 0) (hfill : fillings b = 0)

def Known (pools : List PoolShape) (statics : Nat → Prop) (e : Nat) : Prop :=
  (e = 0 ∨ statics e) ∨ ∃ q ∈ pools, e ∈ q.blocks

structure EventStore.Keeps (t : Target) (pools : List PoolShape) (statics : Nat → Prop) (s : EventStore)
    (references fillings : Nat → Nat) : Prop where
  pool : ∀ q ∈ pools, ∃ free, s.Holds t q free references (fun _ => False) ∧
    ∀ b ∈ q.blocks, BlockUse free references fillings b
  static : ∀ e, statics e → (t.loadEvent s.memory e).flags = eventFlagStatic

theorem Arena.not_mem_blocks (ha : Arena t pools statics) {q' : PoolShape} (hq : q ∈ pools) (hq' : q' ∈ pools)
    (hne : q ≠ q') (hb : b ∈ q.blocks) : b ∉ q'.blocks := by
  intro hb'
  obtain ⟨-, -, hle, hbound⟩ := (ha.sound q hq).block_bounds hb
  obtain ⟨-, -, hle', hbound'⟩ := (ha.sound q' hq').block_bounds hb'
  have hsize := (ha.sound q hq).blockSize_pos
  have hsize' := (ha.sound q' hq').blockSize_pos
  rcases (ha.apart q hq q' hq' hne).2 with h | h
  · omega
  · omega

theorem EventStore.Holds.congr_references {s : EventStore}
    {stale : Nat → Prop} (h : s.Holds t q free references stale)
    (heq : ∀ b ∈ q.blocks, references' b = references b) : s.Holds t q free references' stale := by
  refine ⟨h.shape, h.magic, h.storage, h.blockSize, h.blockCount, h.freeCount, h.linked, h.nodup, h.subset,
    fun x hx => ?_, fun x hx hne => ?_, h.dead⟩
  · rw [heq x (h.subset x hx)]
    exact h.unused x hx
  · rw [heq x hx] at hne ⊢
    exact h.live x hx hne

theorem BlockUse.congr {fillings fillings' : Nat → Nat}
    (h : BlockUse free references fillings b) (hr : references' b = references b) (hf : fillings' b = fillings b) :
    BlockUse free references' fillings' b := by
  cases h with
  | free hfree hrefs hfill => exact .free hfree (hr.trans hrefs) (hf.trans hfill)
  | taken hfree hrefs hfill => exact .taken hfree (hr.trans hrefs) (hf.trans hfill)
  | live hfree hrefs hfill => exact .live hfree (hr ▸ hrefs) (hf.trans hfill)

theorem BlockUse.other {free' : List Nat} {fillings : Nat → Nat} {x n k : Nat}
    (h : BlockUse free references fillings x) (hne : x ≠ b) (hfree : x ∈ free' ↔ x ∈ free) :
    BlockUse free' (Function.update references b n) (Function.update fillings b k) x := by
  refine BlockUse.congr ?_ (Function.update_of_ne hne _ _) (Function.update_of_ne hne _ _)
  cases h with
  | free hmem hrefs hfill => exact .free (hfree.mpr hmem) hrefs hfill
  | taken hmem hrefs hfill => exact .taken (hfree.not.mpr hmem) hrefs hfill
  | live hmem hrefs hfill => exact .live (hfree.not.mpr hmem) hrefs hfill

namespace EventStore.Keeps

variable {s : EventStore} {references fillings : Nat → Nat}

theorem congr (h : s.Keeps t pools statics references fillings) {fillings' : Nat → Nat}
    (hr : ∀ q ∈ pools, ∀ b ∈ q.blocks, references' b = references b)
    (hf : ∀ q ∈ pools, ∀ b ∈ q.blocks, fillings' b = fillings b) :
    s.Keeps t pools statics references' fillings' := by
  refine ⟨fun q hq => ?_, h.static⟩
  obtain ⟨free, hholds, huse⟩ := h.pool q hq
  exact ⟨free, hholds.congr_references (hr q hq), fun b hb => (huse b hb).congr (hr q hq b hb) (hf q hq b hb)⟩

theorem change (h : s.Keeps t pools statics references fillings) (ha : Arena t pools statics)
    (hq : q ∈ pools) (hb : b ∈ q.blocks) {s' : EventStore} {n k : Nat}
    (hpools : ∀ p, p ≠ q.pool → s'.pools p = s.pools p)
    (hm : ∀ z, z < b ∨ b + q.blockSize ≤ z → s'.memory z = s.memory z)
    (hholds : s'.Holds t q free (Function.update references b n) (fun _ => False))
    (huse : ∀ x ∈ q.blocks, BlockUse free (Function.update references b n) (Function.update fillings b k) x) :
    s'.Keeps t pools statics (Function.update references b n) (Function.update fillings b k) := by
  obtain ⟨-, -, hle, hbound⟩ := (ha.sound q hq).block_bounds hb
  refine ⟨fun q' hq' => ?_, fun e he => ?_⟩
  · by_cases hqq : q' = q
    · subst hqq
      exact ⟨free, hholds, huse⟩
    · obtain ⟨hpool, hapart⟩ := ha.apart q' hq' q hq hqq
      obtain ⟨free', hholds', huse'⟩ := h.pool q' hq'
      have hblock : ∀ x ∈ q'.blocks, x ≠ b := by
        rintro x hx rfl
        exact ha.not_mem_blocks hq' hq hqq hx hb
      have hframe := hholds'.congr (hpools q'.pool hpool) (fun z hz hzlt => hm z (by omega))
      exact ⟨free', hframe.congr_references (fun x hx => Function.update_of_ne (hblock x hx) _ _),
        fun x hx => (huse' x hx).congr (Function.update_of_ne (hblock x hx) _ _)
          (Function.update_of_ne (hblock x hx) _ _)⟩
  · rw [Target.loadEvent_congr (fun z hz hzlt => hm z ?_)]
    · exact h.static e he
    · have := ha.static e he q hq
      omega

theorem isDynamic (h : s.Keeps t pools statics references fillings) (hq : q ∈ pools)
    (hb : b ∈ q.blocks) (hrefs : references b ≠ 0) :
    eventIsValid t s b = true ∧ eventIsDynamic t s b = true ∧ (t.loadEvent s.memory b).pool = q.pool := by
  obtain ⟨free, hholds, -⟩ := h.pool q hq
  exact ⟨hholds.isValid hb hrefs, hholds.isDynamic hb hrefs, (hholds.live b hb hrefs).pool_eq⟩

theorem not_isDynamic (h : s.Keeps t pools statics references fillings) {e : Nat} (he : e = 0 ∨ statics e) :
    eventIsDynamic t s e = false := by
  rcases he with rfl | hstatic
  · simp [eventIsDynamic]
  · have hflags : (t.loadEvent s.memory e).flags ≠ eventFlagDynamic := by
      rw [h.static e hstatic]
      decide
    simp [eventIsDynamic, HeEvent.isDynamic, hflags]

theorem take (h : s.Keeps t pools statics references fillings) (ha : Arena t pools statics)
    (hq : q ∈ pools) (signal eventSize : Nat) :
    eventTake t s q.pool signal eventSize = (s, 0) ∨
      ∃ s' b, eventTake t s q.pool signal eventSize = (s', b) ∧ b ∈ q.blocks ∧ b ≠ 0 ∧ fillings b = 0 ∧
        q.Accepts t signal eventSize ∧ s'.Keeps t pools statics references (Function.update fillings b 1) := by
  obtain ⟨free, hholds, huse⟩ := h.pool q hq
  by_cases hrefused : ¬ q.Accepts t signal eventSize ∨ free = []
  · exact Or.inl (hholds.take_refused hrefused)
  obtain ⟨hnot, hne⟩ := not_or.mp hrefused
  obtain ⟨b, rest, rfl⟩ := List.exists_cons_of_ne_nil hne
  have hb := hholds.subset b (by simp)
  have hfresh : b ∉ rest := (List.nodup_cons.mp hholds.nodup).1
  have hrefs : references b = 0 := hholds.unused b (by simp)
  obtain ⟨s', htake, hmem, hpools, hholds'⟩ := hholds.take_cons (not_not.mp hnot)
  have hfill : fillings b = 0 := by
    cases huse b hb with
    | free _ _ hfill => exact hfill
    | taken hnot _ _ => simp at hnot
    | live hnot _ _ => simp at hnot
  have hself : Function.update references b 0 = references := by
    rw [← hrefs, Function.update_eq_self]
  refine Or.inr ⟨s', b, htake, hb, ((ha.sound q hq).block_bounds hb).1, hfill, not_not.mp hnot, ?_⟩
  have hchange := h.change ha hq hb (n := 0) (k := 1) hpools (fun z _ => by rw [hmem]) (by rwa [hself])
    (fun x hx => ?_)
  · rwa [hself] at hchange
  · by_cases hxb : x = b
    · subst hxb
      exact .taken hfresh (Function.update_self ..) (Function.update_self ..)
    · exact (huse x hx).other hxb (by simp [hxb])

theorem fill (h : s.Keeps t pools statics references fillings) (ha : Arena t pools statics)
    (hq : q ∈ pools) {signal eventSize : Nat} (hb : b ∈ q.blocks) (hfill : fillings b ≠ 0)
    (haccepts : q.Accepts t signal eventSize) (hsignal : signal < 2 ^ 16) :
    references b = 0 ∧ fillings b = 1 ∧ (eventFill t s q.pool b signal eventSize).Keeps t pools statics
      (Function.update references b 1) (Function.update fillings b 0) := by
  obtain ⟨free, hholds, huse⟩ := h.pool q hq
  obtain ⟨hfree, hrefs, hone⟩ : b ∉ free ∧ references b = 0 ∧ fillings b = 1 := by
    cases huse b hb with
    | free _ _ h0 => exact absurd h0 hfill
    | taken hfree hrefs hone => exact ⟨hfree, hrefs, hone⟩
    | live _ _ h0 => exact absurd h0 hfill
  have hsize := hholds.shape.eventBytes_le
  refine ⟨hrefs, hone, h.change ha hq hb (fun _ _ => rfl) (fun z hz => ?_)
    ((hholds.fill hb hfree haccepts hsignal).mono (fun x hx => hx.elim)) (fun x hx => ?_)⟩
  · simp only [eventFill, hholds.blockSize]
    rw [Target.setEvent_apply _ (by omega), Memory.fill_apply_of_not_mem hz]
  · by_cases hxb : x = b
    · subst hxb
      exact .live hfree (by simp) (Function.update_self ..)
    · exact (huse x hx).other hxb Iff.rfl

theorem use_live (h : s.Keeps t pools statics references fillings) (hq : q ∈ pools)
    (hb : b ∈ q.blocks) (hrefs : references b ≠ 0) :
      ∃ free, s.Holds t q free references (fun _ => False) ∧ b ∉ free ∧
      fillings b = 0 ∧ ∀ x ∈ q.blocks, BlockUse free references fillings x := by
  obtain ⟨free, hholds, huse⟩ := h.pool q hq
  cases huse b hb with
  | free _ h0 _ => exact absurd h0 hrefs
  | taken _ h0 _ => exact absurd h0 hrefs
  | live hfree _ hfill => exact ⟨free, hholds, hfree, hfill, huse⟩

theorem retainLocked (h : s.Keeps t pools statics references fillings) (ha : Arena t pools statics)
    (hq : q ∈ pools) (hb : b ∈ q.blocks) (hrefs : references b ≠ 0) :
    (references b = uint16Max ∧ eventRetainLocked t s b = (s, .overflow)) ∨
      ∃ s', eventRetainLocked t s b = (s', .ok) ∧
        s'.Keeps t pools statics (Function.update references b (references b + 1)) fillings := by
  obtain ⟨free, hholds, hfree, hfill, huse⟩ := h.use_live hq hb hrefs
  by_cases hmax : references b = uint16Max
  · exact Or.inl ⟨hmax, hholds.retainLocked_full hb hmax⟩
  obtain ⟨s', hretain, hpools, hm, hholds'⟩ := hholds.retainLocked hb hfree hrefs hmax
  have hself : Function.update fillings b 0 = fillings := by
    rw [← hfill, Function.update_eq_self]
  refine Or.inr ⟨s', hretain, ?_⟩
  have hchange := h.change ha hq hb (k := 0) (fun p _ => by rw [hpools]) hm (hholds'.mono (fun x hx => hx.elim))
    (fun x hx => ?_)
  · rwa [hself] at hchange
  · by_cases hxb : x = b
    · subst hxb
      exact .live hfree (by simp) (Function.update_self ..)
    · exact (huse x hx).other hxb Iff.rfl

theorem releaseLocked (h : s.Keeps t pools statics references fillings) (ha : Arena t pools statics)
    (hq : q ∈ pools) (hb : b ∈ q.blocks) (hrefs : references b ≠ 0) :
    ∃ s', eventReleaseLocked t s q.pool b = (s', .ok) ∧
      s'.Keeps t pools statics (Function.update references b (references b - 1)) fillings := by
  obtain ⟨free, hholds, hfree, hfill, huse⟩ := h.use_live hq hb hrefs
  have hself : Function.update fillings b 0 = fillings := by
    rw [← hfill, Function.update_eq_self]
  by_cases hlast : references b = 1
  · obtain ⟨s', hrelease, hpools, hm, hholds'⟩ := hholds.releaseLocked_last hb hfree hlast
    refine ⟨s', hrelease, ?_⟩
    rw [hlast, Nat.sub_self]
    have hchange := h.change ha hq hb (k := 0) hpools hm (hholds'.mono (fun x hx => hx.elim)) (fun x hx => ?_)
    · rwa [hself] at hchange
    · by_cases hxb : x = b
      · subst hxb
        exact .free (by simp) (Function.update_self ..) (Function.update_self ..)
      · exact (huse x hx).other hxb (by simp [hxb])
  · obtain ⟨s', hrelease, hpools, hm, hholds'⟩ := hholds.releaseLocked_shared hb hfree (by omega)
    refine ⟨s', hrelease, ?_⟩
    have hchange := h.change ha hq hb (k := 0) (fun p _ => by rw [hpools]) hm (hholds'.mono (fun x hx => hx.elim))
      (fun x hx => ?_)
    · rwa [hself] at hchange
    · by_cases hxb : x = b
      · subst hxb
        refine .live hfree ?_ (Function.update_self ..)
        rw [Function.update_self]
        omega
      · exact (huse x hx).other hxb Iff.rfl

end EventStore.Keeps

end Hairtos

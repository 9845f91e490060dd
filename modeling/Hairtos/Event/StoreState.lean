import Hairtos.Event.Store
import Hairtos.Library.Blocks
import Mathlib.Data.List.Perm.Subperm

namespace Hairtos

open Library

variable {m m' : Memory} {a x b signal eventSize : Nat}

variable {t : Target}

structure HeEvent.Fits (t : Target) (e : HeEvent) : Prop where
  pool : e.pool < 256 ^ t.wordBytes
  magic : e.magic < 2 ^ 32
  size : e.size < 2 ^ 16
  referenceCount : e.referenceCount < 2 ^ 16
  signal : e.signal < 2 ^ 16
  flags : e.flags < 2 ^ 16

theorem half_word : 256 ^ 2 = 2 ^ 16 := by decide

theorem full_word : 256 ^ 4 = 2 ^ 32 := by decide

namespace Target

theorem loadEvent_fits (m : Memory) (a : Nat) : (t.loadEvent m a).Fits t := by
  have hhalf : ∀ b, m.load b 2 < 2 ^ 16 := fun b => half_word ▸ m.load_lt b 2
  have hfull : ∀ b, m.load b 4 < 2 ^ 32 := fun b => full_word ▸ m.load_lt b 4
  exact ⟨m.load_lt _ _, hfull _, hhalf _, hhalf _, hhalf _, hhalf _⟩

theorem loadEvent_congr (h : ∀ x, a ≤ x → x < a + t.eventBytes → m' x = m x) :
    t.loadEvent m' a = t.loadEvent m a := by
  have hfields := t.event_fields
  have hload : ∀ b n, a ≤ b → b + n ≤ a + t.eventBytes → m'.load b n = m.load b n := fun b n hb hn =>
    Memory.load_congr (fun x hx hlt => h x (by omega) (by omega))
  simp only [loadEvent]
  rw [hload _ _ (by omega) (by omega), hload _ _ (by omega) (by omega), hload _ _ (by omega) (by omega),
    hload _ _ (by omega) (by omega), hload _ _ (by omega) (by omega), hload _ _ (by omega) (by omega)]

theorem storeEvent_apply (e : HeEvent) (h : x < a ∨ a + t.eventBytes ≤ x) :
    t.storeEvent m a e x = m x := by
  have hfields := t.event_fields
  simp only [storeEvent]
  iterate 6 rw [Memory.store_apply_of_not_mem (by omega)]

theorem setEvent_apply (f : HeEvent → HeEvent) (h : x < a ∨ a + t.eventBytes ≤ x) :
    t.setEvent m a f x = m x := t.storeEvent_apply _ h

theorem loadEvent_setEvent {f : HeEvent → HeEvent} (h : (f (t.loadEvent m a)).Fits t) :
    t.loadEvent (t.setEvent m a f) a = f (t.loadEvent m a) := by
  rw [setEvent]
  generalize f (t.loadEvent m a) = e at h
  obtain ⟨pool, magic, size, referenceCount, signal, flags⟩ := e
  simp only [loadEvent, storeEvent, HeEvent.mk.injEq]
  refine ⟨?_, ?_, ?_, ?_, ?_, ?_⟩
  · iterate 5 rw [Memory.load_store_of_apart _ _ (by omega)]
    exact Memory.load_store _ h.pool
  · iterate 4 rw [Memory.load_store_of_apart _ _ (by omega)]
    exact Memory.load_store _ (full_word ▸ h.magic)
  · iterate 3 rw [Memory.load_store_of_apart _ _ (by omega)]
    exact Memory.load_store _ (half_word ▸ h.size)
  · iterate 2 rw [Memory.load_store_of_apart _ _ (by omega)]
    exact Memory.load_store _ (half_word ▸ h.referenceCount)
  · rw [Memory.load_store_of_apart _ _ (by omega)]
    exact Memory.load_store _ (half_word ▸ h.signal)
  · exact Memory.load_store _ (half_word ▸ h.flags)

theorem loadEvent_storeLink {next : Nat} (h : next < 2 ^ t.width) :
    t.loadEvent (t.storeLink m a next) a = { t.loadEvent m a with pool := next } := by
  simp only [loadEvent, storeLink, HeEvent.mk.injEq]
  refine ⟨Memory.load_store _ (lt_of_lt_of_le h t.word_holds), ?_, ?_, ?_, ?_, ?_⟩
  · exact Memory.load_store_of_apart _ _ (by omega)
  · exact Memory.load_store_of_apart _ _ (by omega)
  · exact Memory.load_store_of_apart _ _ (by omega)
  · exact Memory.load_store_of_apart _ _ (by omega)
  · exact Memory.load_store_of_apart _ _ (by omega)

end Target

structure HeEvent.Live (t : Target) (e : HeEvent) (pool references : Nat) : Prop where
  pool_eq : e.pool = pool
  magic_eq : e.magic = eventMagic
  size_ge : t.eventBytes ≤ e.size
  referenceCount_eq : e.referenceCount = references
  signal_ne : e.signal ≠ sigNone
  flags_eq : e.flags = eventFlagDynamic

structure PoolShape where
  pool : Nat
  storage : Nat
  blockSize : Nat
  blockCount : Nat
  deriving DecidableEq, Repr

def PoolShape.blocks (q : PoolShape) : List Nat := blockStarts q.storage q.blockSize q.blockCount

def PoolShape.Accepts (t : Target) (q : PoolShape) (signal eventSize : Nat) : Prop :=
  signal ≠ sigNone ∧ t.eventBytes ≤ eventSize ∧ eventSize ≤ q.blockSize

def PoolShape.bound (q : PoolShape) : Nat := q.storage + q.blockCount * q.blockSize

structure PoolShape.Sound (t : Target) (q : PoolShape) : Prop where
  pool_ne : q.pool ≠ 0
  pool_lt : q.pool < 2 ^ t.width
  storage_ne : q.storage ≠ 0
  eventBytes_le : t.eventBytes ≤ q.blockSize
  blockSize_le : q.blockSize ≤ uint16Max
  blockCount_pos : 0 < q.blockCount
  bound_lt : q.bound < 2 ^ t.width

structure EventStore.Holds (t : Target) (s : EventStore) (q : PoolShape) (free : List Nat) (references : Nat → Nat)
    (stale : Nat → Prop) : Prop where
  shape : q.Sound t
  magic : (s.pools q.pool).magic = eventPoolMagic
  storage : (s.pools q.pool).storage = q.storage
  blockSize : (s.pools q.pool).blockSize = q.blockSize
  blockCount : (s.pools q.pool).blockCount = q.blockCount
  freeCount : (s.pools q.pool).freeCount = free.length
  linked : Linked (t.loadLink s.memory) (s.pools q.pool).freeHead free
  nodup : free.Nodup
  subset : ∀ x ∈ free, x ∈ q.blocks
  unused : ∀ x ∈ free, references x = 0
  live : ∀ x ∈ q.blocks, references x ≠ 0 → (t.loadEvent s.memory x).Live t q.pool (references x)
  dead : ∀ x ∈ q.blocks, stale x → (t.loadEvent s.memory x).magic = 0

namespace PoolShape.Sound

variable {q : PoolShape}

theorem blockSize_pos (h : q.Sound t) : 0 < q.blockSize := by
  have := h.eventBytes_le
  have := t.event_fields
  omega

theorem block_bounds (h : q.Sound t) (hx : x ∈ q.blocks) :
    x ≠ 0 ∧ x < 2 ^ t.width ∧ q.storage ≤ x ∧ x + q.blockSize ≤ q.bound := by
  have hbounds := blockStarts_bounds hx
  have hsize := h.blockSize_pos
  have hlt := h.bound_lt
  have hne := h.storage_ne
  simp only [bound] at hlt ⊢
  omega

theorem apart (_ : q.Sound t) {y : Nat} (hx : x ∈ q.blocks) (hy : y ∈ q.blocks) (hne : x ≠ y) :
    x + q.blockSize ≤ y ∨ y + q.blockSize ≤ x := blockStarts_apart hx hy hne

theorem loadEvent_of_ne (h : q.Sound t) (hb : b ∈ q.blocks) (hx : x ∈ q.blocks)
    (hm : ∀ z, z < b ∨ b + q.blockSize ≤ z → m' z = m z) (hne : x ≠ b) :
    t.loadEvent m' x = t.loadEvent m x := by
  have hsize := h.eventBytes_le
  refine Target.loadEvent_congr (fun z hz hlt => hm z ?_)
  rcases h.apart hx hb hne with hle | hle
  · exact Or.inl (by omega)
  · exact Or.inr (by omega)

theorem loadLink_of_ne (h : q.Sound t) (hb : b ∈ q.blocks) (hx : x ∈ q.blocks)
    (hm : ∀ z, z < b ∨ b + q.blockSize ≤ z → m' z = m z) (hne : x ≠ b) :
    t.loadLink m' x = t.loadLink m x := by
  have hsize := h.eventBytes_le
  have hfields := t.event_fields
  refine Target.loadLink_congr (fun z hz hlt => hm z ?_)
  rcases h.apart hx hb hne with hle | hle
  · exact Or.inl (by omega)
  · exact Or.inr (by omega)

end PoolShape.Sound

namespace EventStore.Holds

variable {s : EventStore} {q : PoolShape} {free : List Nat} {references : Nat → Nat} {stale : Nat → Prop}

theorem length_le (h : s.Holds t q free references stale) : free.length ≤ q.blockCount := by
  have hsub := (List.subperm_of_subset h.nodup h.subset).length_le
  simpa [PoolShape.blocks, blockStarts] using hsub

theorem length_lt (h : s.Holds t q free references stale) (hb : b ∈ q.blocks) (hfree : b ∉ free) :
    free.length < q.blockCount := by
  have hnodup : (b :: free).Nodup := List.nodup_cons.mpr ⟨hfree, h.nodup⟩
  have hsub := (List.subperm_of_subset hnodup (List.forall_mem_cons.mpr ⟨hb, h.subset⟩)).length_le
  simpa [PoolShape.blocks, blockStarts, Nat.succ_le_iff] using hsub

theorem poolIsValid (h : s.Holds t q free references stale) : eventPoolIsValid t s q.pool = true := by
  have hlen := h.length_le
  simp [eventPoolIsValid, EventPool.isValid, h.shape.pool_ne, h.magic, h.storage, h.shape.storage_ne, h.blockSize,
    h.shape.eventBytes_le, h.blockCount, h.shape.blockCount_pos, h.freeCount, hlen]

theorem head_lt (h : s.Holds t q free references stale) : (s.pools q.pool).freeHead < 2 ^ t.width := by
  have hlinked := h.linked
  cases free with
  | nil =>
    have hhead : (s.pools q.pool).freeHead = 0 := hlinked
    rw [hhead]
    exact Nat.two_pow_pos _
  | cons x free =>
    rw [hlinked.1]
    exact (h.shape.block_bounds (h.subset x (by simp))).2.1

theorem mono (h : s.Holds t q free references stale) {stale' : Nat → Prop} (hs : ∀ x, stale' x → stale x) :
    s.Holds t q free references stale' :=
  ⟨h.shape, h.magic, h.storage, h.blockSize, h.blockCount, h.freeCount, h.linked, h.nodup, h.subset, h.unused, h.live,
    fun x hx hstale => h.dead x hx (hs x hstale)⟩

theorem congr (h : s.Holds t q free references stale) {s' : EventStore} (hpool : s'.pools q.pool = s.pools q.pool)
    (hm : ∀ z, q.storage ≤ z → z < q.bound → s'.memory z = s.memory z) :
    s'.Holds t q free references stale := by
  have hevent : ∀ x ∈ q.blocks, t.loadEvent s'.memory x = t.loadEvent s.memory x := by
    intro x hx
    obtain ⟨-, -, hle, hlt⟩ := h.shape.block_bounds hx
    have hsize := h.shape.eventBytes_le
    exact Target.loadEvent_congr (fun z hz hzlt => hm z (by omega) (by omega))
  have hlink : ∀ x ∈ free, t.loadLink s'.memory x = t.loadLink s.memory x := by
    intro x hx
    obtain ⟨-, -, hle, hlt⟩ := h.shape.block_bounds (h.subset x hx)
    have hsize := h.shape.eventBytes_le
    have hfields := t.event_fields
    exact Target.loadLink_congr (fun z hz hzlt => hm z (by omega) (by omega))
  refine ⟨h.shape, ?_, ?_, ?_, ?_, ?_, ?_, h.nodup, h.subset, h.unused, fun x hx hne => ?_, fun x hx hs => ?_⟩
  · rw [hpool, h.magic]
  · rw [hpool, h.storage]
  · rw [hpool, h.blockSize]
  · rw [hpool, h.blockCount]
  · rw [hpool, h.freeCount]
  · rw [hpool]
    exact h.linked.congr hlink
  · rw [hevent x hx]
    exact h.live x hx hne
  · rw [hevent x hx]
    exact h.dead x hx hs

theorem rewrite (h : s.Holds t q free references stale) (hb : b ∈ q.blocks) (hfree : b ∉ free)
    (hm : ∀ z, z < b ∨ b + q.blockSize ≤ z → m z = s.memory z) {n : Nat} {stale' : Nat → Prop}
    (hlive : n ≠ 0 → (t.loadEvent m b).Live t q.pool n) (hstale : ∀ x, x ≠ b → stale' x → stale x)
    (hdead : stale' b → (t.loadEvent m b).magic = 0) :
    EventStore.Holds t { s with memory := m } q free (Function.update references b n) stale' := by
  have hne : ∀ x ∈ free, x ≠ b := by
    rintro x hx rfl
    exact hfree hx
  refine ⟨h.shape, h.magic, h.storage, h.blockSize, h.blockCount, h.freeCount, ?_, h.nodup, h.subset, ?_, ?_, ?_⟩
  · exact h.linked.congr (fun x hx => h.shape.loadLink_of_ne hb (h.subset x hx) hm (hne x hx))
  · intro x hx
    rw [Function.update_of_ne (hne x hx)]
    exact h.unused x hx
  · intro x hx hrefs
    by_cases hxb : x = b
    · subst hxb
      rw [Function.update_self] at hrefs ⊢
      exact hlive hrefs
    · rw [Function.update_of_ne hxb] at hrefs ⊢
      rw [h.shape.loadEvent_of_ne hb hx hm hxb]
      exact h.live x hx hrefs
  · intro x hx hs
    by_cases hxb : x = b
    · subst hxb
      exact hdead hs
    · rw [h.shape.loadEvent_of_ne hb hx hm hxb]
      exact h.dead x hx (hstale x hxb hs)

theorem push (h : s.Holds t q free references stale) (hb : b ∈ q.blocks) (hfree : b ∉ free)
    (hzero : references b = 0) :
    EventStore.Holds t
      { pools := Function.update s.pools q.pool
          { s.pools q.pool with freeHead := b, freeCount := t.add (s.pools q.pool).freeCount 1 }
        memory := t.storeLink s.memory b (s.pools q.pool).freeHead } q (b :: free) references stale := by
  have hsize := h.shape.eventBytes_le
  have hfields := t.event_fields
  have hm : ∀ z, z < b ∨ b + q.blockSize ≤ z →
      t.storeLink s.memory b (s.pools q.pool).freeHead z = s.memory z := fun z hz =>
    Memory.store_apply_of_not_mem (by omega)
  have hlen := h.length_lt hb hfree
  have hcount : q.blockCount < 2 ^ t.width := by
    have := h.shape.bound_lt
    have := Nat.le_mul_of_pos_right q.blockCount h.shape.blockSize_pos
    simp only [PoolShape.bound] at *
    omega
  have hapart : ∀ x ∈ free, b + t.wordBytes ≤ x ∨ x + t.wordBytes ≤ b := by
    intro x hx
    have hne : b ≠ x := by
      rintro rfl
      exact hfree hx
    rcases h.shape.apart hb (h.subset x hx) hne with hle | hle
    · exact Or.inl (by omega)
    · exact Or.inr (by omega)
  refine ⟨h.shape, ?_, ?_, ?_, ?_, ?_, ?_, List.nodup_cons.mpr ⟨hfree, h.nodup⟩,
    List.forall_mem_cons.mpr ⟨hb, h.subset⟩, List.forall_mem_cons.mpr ⟨hzero, h.unused⟩, ?_, ?_⟩
  · simp [h.magic]
  · simp [h.storage]
  · simp [h.blockSize]
  · simp [h.blockCount]
  · simp only [Function.update_self, h.freeCount]
    rw [Target.add_eq (by omega), List.length_cons]
  · simp only [Function.update_self]
    exact linked_storeLink h.linked (h.shape.block_bounds hb).1 h.head_lt hapart
  · intro x hx hrefs
    have hxb : x ≠ b := by
      rintro rfl
      exact hrefs hzero
    rw [h.shape.loadEvent_of_ne hb hx hm hxb]
    exact h.live x hx hrefs
  · intro x hx hs
    by_cases hxb : x = b
    · subst hxb
      simp only
      rw [Target.loadEvent_storeLink h.head_lt]
      exact h.dead x hx hs
    · rw [h.shape.loadEvent_of_ne hb hx hm hxb]
      exact h.dead x hx hs

theorem isDynamic (h : s.Holds t q free references stale) (hb : b ∈ q.blocks) (hrefs : references b ≠ 0) :
    eventIsDynamic t s b = true := by
  have hlive := h.live b hb hrefs
  have hsize : ¬ (t.loadEvent s.memory b).size < t.eventBytes := Nat.not_lt.mpr hlive.size_ge
  have hflags : ¬ eventFlagDynamic = eventFlagStatic := by decide
  simp only [eventIsDynamic, HeEvent.isDynamic, HeEvent.isValid, hlive.magic_eq, hlive.signal_ne, hsize, hlive.flags_eq,
    hflags, hlive.referenceCount_eq, ne_eq, not_true_eq_false, or_self, if_false, if_true, Bool.and_true,
    hlive.pool_eq, Bool.and_eq_true, bne_iff_ne, decide_eq_true_iff, beq_self_eq_true]
  exact ⟨(h.shape.block_bounds hb).1, ⟨h.shape.pool_ne, Nat.pos_of_ne_zero hrefs⟩, h.poolIsValid⟩

theorem isValid (h : s.Holds t q free references stale) (hb : b ∈ q.blocks) (hrefs : references b ≠ 0) :
    eventIsValid t s b = true := by
  have hdynamic := h.isDynamic hb hrefs
  simp only [eventIsDynamic, HeEvent.isDynamic, Bool.and_eq_true] at hdynamic
  simp [eventIsValid, hdynamic]

theorem not_isValid (h : s.Holds t q free references stale) (hb : b ∈ q.blocks) (hs : stale b) :
    eventIsValid t s b = false := by
  have hmagic : (t.loadEvent s.memory b).magic ≠ eventMagic := by
    rw [h.dead b hb hs]
    decide
  simp [eventIsValid, HeEvent.isValid, hmagic]

theorem take_refused (h : s.Holds t q free references stale)
    (hrefused : ¬ q.Accepts t signal eventSize ∨ free = []) : eventTake t s q.pool signal eventSize = (s, 0) := by
  simp only [eventTake, h.poolIsValid, Bool.true_eq_false, false_or, h.blockSize]
  by_cases hcheck : signal = sigNone ∨ eventSize < t.eventBytes
  · rw [if_pos hcheck]
  · by_cases hlarge : eventSize > q.blockSize
    · rw [if_neg hcheck, if_pos hlarge]
    · rw [if_neg hcheck, if_neg hlarge]
      have haccepts : q.Accepts t signal eventSize := ⟨by tauto, by omega, by omega⟩
      obtain rfl : free = [] := hrefused.resolve_left (fun hnot => hnot haccepts)
      have hhead : (s.pools q.pool).freeHead = 0 := h.linked
      rw [if_pos hhead]

theorem take_cons (h : s.Holds t q (x :: free) references stale)
    (haccepts : q.Accepts t signal eventSize) :
    ∃ s', eventTake t s q.pool signal eventSize = (s', x) ∧ s'.memory = s.memory ∧
      (∀ p, p ≠ q.pool → s'.pools p = s.pools p) ∧ s'.Holds t q free references stale := by
  obtain ⟨hsignal, hsmall, hlarge⟩ := haccepts
  obtain ⟨hhead, hne, hrest⟩ := h.linked
  obtain ⟨hx, hnodup⟩ := List.nodup_cons.mp h.nodup
  have hlen := h.length_le
  have hcount : q.blockCount < 2 ^ t.width := by
    have := h.shape.bound_lt
    have := Nat.le_mul_of_pos_right q.blockCount h.shape.blockSize_pos
    simp only [PoolShape.bound] at *
    omega
  simp only [eventTake, h.poolIsValid, Bool.true_eq_false, false_or, h.blockSize, hhead]
  rw [if_neg (by omega), if_neg (by omega), if_neg hne]
  refine ⟨_, rfl, rfl, fun p hp => Function.update_of_ne hp _ _, h.shape, ?_, ?_, ?_, ?_, ?_, ?_, hnodup,
    fun y hy => h.subset y (by simp [hy]), fun y hy => h.unused y (by simp [hy]), h.live, h.dead⟩
  · simp [h.magic]
  · simp [h.storage]
  · simp
  · simp [h.blockCount]
  · simp only [Function.update_self, h.freeCount, List.length_cons]
    rw [List.length_cons] at hlen
    rw [Target.sub_eq (by omega) (by omega)]
    omega
  · simpa only [Function.update_self] using hrest

theorem fill (h : s.Holds t q free references stale) (hb : b ∈ q.blocks) (hfree : b ∉ free)
    (haccepts : q.Accepts t signal eventSize) (hsignal : signal < 2 ^ 16) :
    (eventFill t s q.pool b signal eventSize).Holds t q free (Function.update references b 1)
      (fun x => x ≠ b ∧ stale x) := by
  have hsize := h.shape.eventBytes_le
  have hlarge := h.shape.blockSize_le
  simp only [eventFill, h.blockSize]
  have hfits : HeEvent.Fits t ⟨q.pool, eventMagic, eventSize % 2 ^ 16, 1, signal, eventFlagDynamic⟩ :=
    ⟨lt_of_lt_of_le h.shape.pool_lt t.word_holds, show eventMagic < 2 ^ 32 by decide, Nat.mod_lt _ (by decide),
      show 1 < 2 ^ 16 by decide, hsignal, show eventFlagDynamic < 2 ^ 16 by decide⟩
  refine h.rewrite hb hfree (fun z hz => ?_) (fun _ => ?_) (fun x _ hs => hs.2) (fun hs => absurd rfl hs.1)
  · rw [Target.setEvent_apply _ (by omega), Memory.fill_apply_of_not_mem hz]
  · rw [Target.loadEvent_setEvent hfits]
    refine ⟨rfl, rfl, ?_, rfl, haccepts.1, rfl⟩
    have := haccepts.2
    simp only [uint16Max] at hlarge
    rw [Nat.mod_eq_of_lt (by omega)]
    exact this.1

theorem retainLocked (h : s.Holds t q free references stale) (hb : b ∈ q.blocks) (hfree : b ∉ free)
    (hrefs : references b ≠ 0) (hmax : references b ≠ uint16Max) :
    ∃ s', eventRetainLocked t s b = (s', .ok) ∧ s'.pools = s.pools ∧
      (∀ z, z < b ∨ b + q.blockSize ≤ z → s'.memory z = s.memory z) ∧
      s'.Holds t q free (Function.update references b (references b + 1)) (fun x => x ≠ b ∧ stale x) := by
  have hlive := h.live b hb hrefs
  have hsize := h.shape.eventBytes_le
  have hfits := t.loadEvent_fits s.memory b
  have hcount : ((t.loadEvent s.memory b).referenceCount + 1) % 2 ^ 16 = references b + 1 := by
    have hsmall := hfits.referenceCount
    rw [hlive.referenceCount_eq] at hsmall ⊢
    simp only [uint16Max] at hmax
    exact Nat.mod_eq_of_lt (by omega)
  have hmod : ((t.loadEvent s.memory b).referenceCount + 1) % 2 ^ 16 < 2 ^ 16 := Nat.mod_lt _ (Nat.two_pow_pos 16)
  rw [eventRetainLocked, hlive.referenceCount_eq, if_neg hmax]
  generalize hf : (fun e : HeEvent => { e with referenceCount := (e.referenceCount + 1) % 2 ^ 16 }) = f
  have hnew : t.loadEvent (t.setEvent s.memory b f) b =
      { t.loadEvent s.memory b with referenceCount := references b + 1 } := by
    rw [← hf, Target.loadEvent_setEvent ⟨hfits.pool, hfits.magic, hfits.size, hmod, hfits.signal, hfits.flags⟩,
      hcount]
  have hm : ∀ z, z < b ∨ b + q.blockSize ≤ z → t.setEvent s.memory b f z = s.memory z := fun z hz =>
    Target.setEvent_apply _ (by omega)
  refine ⟨_, rfl, rfl, hm, h.rewrite hb hfree hm (fun _ => ?_) (fun x _ hs => hs.2) (fun hs => absurd rfl hs.1)⟩
  rw [hnew]
  exact ⟨hlive.pool_eq, hlive.magic_eq, hlive.size_ge, rfl, hlive.signal_ne, hlive.flags_eq⟩

theorem retainLocked_full (h : s.Holds t q free references stale) (hb : b ∈ q.blocks)
    (hmax : references b = uint16Max) : eventRetainLocked t s b = (s, .overflow) := by
  have hlive := h.live b hb (by rw [hmax]; decide)
  rw [eventRetainLocked, hlive.referenceCount_eq, if_pos hmax]

theorem loadEvent_decrement (h : s.Holds t q free references stale) (hb : b ∈ q.blocks)
    (hrefs : references b ≠ 0) :
    t.loadEvent (t.setEvent s.memory b fun e => { e with referenceCount := e.referenceCount - 1 }) b =
      { t.loadEvent s.memory b with referenceCount := references b - 1 } := by
  have hfits := t.loadEvent_fits s.memory b
  have hsmall : (t.loadEvent s.memory b).referenceCount - 1 < 2 ^ 16 :=
    lt_of_le_of_lt (Nat.sub_le _ _) hfits.referenceCount
  rw [Target.loadEvent_setEvent ⟨hfits.pool, hfits.magic, hfits.size, hsmall, hfits.signal, hfits.flags⟩,
    (h.live b hb hrefs).referenceCount_eq]

theorem releaseLocked_shared (h : s.Holds t q free references stale) (hb : b ∈ q.blocks) (hfree : b ∉ free)
    (hrefs : 1 < references b) :
    ∃ s', eventReleaseLocked t s q.pool b = (s', .ok) ∧ s'.pools = s.pools ∧
      (∀ z, z < b ∨ b + q.blockSize ≤ z → s'.memory z = s.memory z) ∧
      s'.Holds t q free (Function.update references b (references b - 1)) (fun x => x ≠ b ∧ stale x) := by
  have hne : references b ≠ 0 := by omega
  have hlive := h.live b hb hne
  have hsize := h.shape.eventBytes_le
  have hnew := h.loadEvent_decrement hb hne
  simp only [eventReleaseLocked, hlive.referenceCount_eq, hnew]
  rw [if_neg hne, if_pos (by omega)]
  have hm : ∀ z, z < b ∨ b + q.blockSize ≤ z →
      t.setEvent s.memory b (fun e => { e with referenceCount := e.referenceCount - 1 }) z = s.memory z := fun z hz =>
    Target.setEvent_apply _ (by omega)
  refine ⟨_, rfl, rfl, hm, h.rewrite hb hfree hm (fun _ => ?_) (fun x _ hs => hs.2) (fun hs => absurd rfl hs.1)⟩
  rw [hnew]
  exact ⟨hlive.pool_eq, hlive.magic_eq, hlive.size_ge, rfl, hlive.signal_ne, hlive.flags_eq⟩

theorem releaseLocked_last (h : s.Holds t q free references stale) (hb : b ∈ q.blocks) (hfree : b ∉ free)
    (hrefs : references b = 1) :
    ∃ s', eventReleaseLocked t s q.pool b = (s', .ok) ∧ (∀ p, p ≠ q.pool → s'.pools p = s.pools p) ∧
      (∀ z, z < b ∨ b + q.blockSize ≤ z → s'.memory z = s.memory z) ∧
      s'.Holds t q (b :: free) (Function.update references b 0) (fun x => x = b ∨ stale x) := by
  have hne : references b ≠ 0 := by omega
  have hlive := h.live b hb hne
  have hsize := h.shape.eventBytes_le
  have hfields := t.event_fields
  have hlen := h.length_lt hb hfree
  have hnew := h.loadEvent_decrement hb hne
  simp only [eventReleaseLocked, hlive.referenceCount_eq, hnew, h.freeCount, h.blockCount]
  rw [if_neg hne, if_neg (by omega), if_neg (by omega)]
  generalize hm₁ : t.setEvent s.memory b (fun e => { e with referenceCount := e.referenceCount - 1 }) = m₁ at hnew
  generalize hm₂ : t.setEvent m₁ b (fun e => { e with magic := 0, pool := 0 }) = m₂
  have hmagic : (t.loadEvent m₂ b).magic = 0 := by
    have hfits := t.loadEvent_fits m₁ b
    rw [← hm₂, Target.loadEvent_setEvent ⟨Nat.pow_pos (by decide), Nat.two_pow_pos _, hfits.size,
      hfits.referenceCount,
      hfits.signal, hfits.flags⟩]
  have hm : ∀ z, z < b ∨ b + q.blockSize ≤ z → m₂ z = s.memory z := by
    intro z hz
    rw [← hm₂, ← hm₁, Target.setEvent_apply _ (by omega), Target.setEvent_apply _ (by omega)]
  have hbare : EventStore.Holds t { s with memory := m₂ } q free (Function.update references b 0)
      (fun x => x = b ∨ stale x) :=
    h.rewrite hb hfree hm (fun h0 => absurd rfl h0) (fun x hx hs => hs.resolve_left hx) (fun _ => hmagic)
  refine ⟨_, rfl, fun p hp => Function.update_of_ne hp _ _, fun z hz => ?_, ?_⟩
  · exact (Memory.store_apply_of_not_mem (by omega)).trans (hm z hz)
  · have hpush := hbare.push hb hfree (Function.update_self ..)
    simpa only [h.freeCount, h.blockCount] using hpush

end EventStore.Holds

section Init

variable {q : PoolShape}

theorem PoolShape.Sound.start_lt (h : q.Sound t) {i : Nat} (hi : i < q.blockCount) :
    q.storage + i * q.blockSize + q.blockSize ≤ q.bound :=
  (h.block_bounds (mem_blockStarts.mpr ⟨i, hi, rfl⟩)).2.2.2

theorem PoolShape.Sound.eventPoolLink_eq (h : q.Sound t) (m : Memory) {i : Nat} (hi : i < q.blockCount) :
    eventPoolLink t q.storage q.blockSize q.blockCount m i =
      t.storeLink m (q.storage + i * q.blockSize)
        (if i + 1 < q.blockCount then q.storage + (i + 1) * q.blockSize else 0) := by
  have hbound := h.bound_lt
  have hadd : ∀ j < q.blockCount, t.add q.storage (j * q.blockSize % 2 ^ t.width) = q.storage + j * q.blockSize := by
    intro j hj
    have := h.start_lt hj
    rw [Nat.mod_eq_of_lt (by omega), Target.add_eq (by omega)]
  rw [eventPoolLink, hadd i hi]
  by_cases hnext : i + 1 < q.blockCount
  · rw [if_pos hnext, if_pos hnext, hadd _ hnext]
  · rw [if_neg hnext, if_neg hnext]

theorem PoolShape.Sound.foldl_eventPoolLink (h : q.Sound t) (m : Memory) {n : Nat} (hn : n ≤ q.blockCount) :
    (∀ i < n, t.loadLink ((List.range n).foldl (eventPoolLink t q.storage q.blockSize q.blockCount) m)
      (q.storage + i * q.blockSize) = if i + 1 < q.blockCount then q.storage + (i + 1) * q.blockSize else 0) ∧
    ∀ z, z < q.storage ∨ q.bound ≤ z →
      (List.range n).foldl (eventPoolLink t q.storage q.blockSize q.blockCount) m z = m z := by
  induction n with
  | zero => simp
  | succ n ih =>
    obtain ⟨hlinks, hframe⟩ := ih (by omega)
    have hsize := h.eventBytes_le
    have hfields := t.event_fields
    have hbound := h.bound_lt
    have hend := h.start_lt (show n < q.blockCount by omega)
    rw [List.range_succ, List.foldl_append, List.foldl_cons, List.foldl_nil, h.eventPoolLink_eq _ (by omega)]
    refine ⟨fun i hi => ?_, fun z hz => ?_⟩
    · by_cases hin : i = n
      · subst hin
        refine Target.loadLink_storeLink ?_
        split
        · next hnext =>
          have := h.start_lt hnext
          omega
        · exact Nat.two_pow_pos _
      · have hmul := Nat.mul_le_mul_right q.blockSize (show i + 1 ≤ n by omega)
        rw [Nat.succ_mul] at hmul
        rw [Target.loadLink_storeLink_of_apart (Or.inr (by omega))]
        exact hlinks i (by omega)
    · rw [← hframe z hz]
      exact Memory.store_apply_of_not_mem (by omega)

theorem eventPoolInit_holds {s : EventStore} (hpool : q.pool < 2 ^ t.width) (hbound : q.bound < 2 ^ t.width)
    (h : (eventPoolInit t s q.pool q.storage q.blockSize q.blockCount).2 = .ok) :
    (eventPoolInit t s q.pool q.storage q.blockSize q.blockCount).1.Holds t q q.blocks (fun _ => 0) (fun _ => False) ∧
      (∀ p, p ≠ q.pool →
        (eventPoolInit t s q.pool q.storage q.blockSize q.blockCount).1.pools p = s.pools p) ∧
      ∀ z, z < q.storage ∨ q.bound ≤ z →
        (eventPoolInit t s q.pool q.storage q.blockSize q.blockCount).1.memory z = s.memory z := by
  rw [eventPoolInit] at h ⊢
  by_cases hnull : q.pool = 0 ∨ q.storage = 0 ∨ q.blockSize < t.eventBytes ∨ q.blockCount = 0 ∨
      q.blockSize > uint16Max ∨ q.blockSize % t.alignment ≠ 0 ∨ q.storage % t.alignment ≠ 0
  · rw [if_pos hnull] at h
    cases h
  by_cases hvalid : eventPoolIsValid t s q.pool = true
  · rw [if_neg hnull, if_pos hvalid] at h
    cases h
  rw [if_neg hnull, if_neg hvalid]
  simp only [not_or] at hnull
  obtain ⟨hpool0, hstorage, hsize, hcount, hlarge, -, -⟩ := hnull
  have hsound : q.Sound t := ⟨hpool0, hpool, hstorage, by omega, by omega, by omega, hbound⟩
  obtain ⟨hlinks, hframe⟩ := hsound.foldl_eventPoolLink s.memory (le_refl _)
  have hlinked := linked_of_successors (fun i => q.storage + i * q.blockSize)
    (fun i hi => (hsound.block_bounds (mem_blockStarts.mpr ⟨i, hi, rfl⟩)).1) hlinks q.blockCount 0 (Nat.zero_add _)
  refine ⟨⟨hsound, ?_, ?_, ?_, ?_, ?_, ?_, blockStarts_nodup hsound.blockSize_pos _, fun x hx => hx, fun _ _ => rfl,
    fun x _ hne => absurd rfl hne, fun x _ hs => hs.elim⟩, fun p hp => Function.update_of_ne hp _ _, hframe⟩
  · simp
  · simp
  · simp
  · simp
  · simp [PoolShape.blocks, blockStarts]
  · rw [if_pos hsound.blockCount_pos, Nat.zero_mul, Nat.add_zero] at hlinked
    simp only [Function.update_self, PoolShape.blocks, blockStarts, List.range_eq_range']
    rw [List.range_eq_range'] at hlinked
    exact hlinked

end Init

end Hairtos

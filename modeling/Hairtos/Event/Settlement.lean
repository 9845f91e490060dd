import Hairtos.Event.Clients
import Hairtos.Event.Publications

namespace Hairtos

open Library

variable {t : Target}

structure KeepsSignal (t : Target) (event : Nat) (m m' : Memory) : Prop where
  outside : ∀ z, z < event ∨ event + t.eventBytes ≤ z → m' z = m z
  signal : (t.loadEvent m' event).signal = (t.loadEvent m event).signal

namespace KeepsSignal

variable {m m' m'' : Memory} {event : Nat}

theorem refl (t : Target) (event : Nat) (m : Memory) : KeepsSignal t event m m := ⟨fun _ _ => rfl, rfl⟩

theorem trans (h : KeepsSignal t event m m') (h' : KeepsSignal t event m' m'') : KeepsSignal t event m m'' :=
  ⟨fun z hz => (h'.outside z hz).trans (h.outside z hz), h'.signal.trans h.signal⟩

theorem setEvent (t : Target) (event : Nat) (m : Memory) (f : HeEvent → HeEvent)
    (hfits : ∀ e : HeEvent, e.Fits t → (f e).Fits t) (hf : ∀ e, (f e).signal = e.signal) :
    KeepsSignal t event m (t.setEvent m event f) := by
  refine ⟨fun z hz => Target.setEvent_apply f hz, ?_⟩
  rw [Target.loadEvent_setEvent (hfits _ (Target.loadEvent_fits m event)), hf]

theorem storeLink (t : Target) (event : Nat) (m : Memory) (next : Nat) :
    KeepsSignal t event m (t.storeLink m event next) := by
  have hfields := t.event_fields
  refine ⟨fun z hz => Memory.store_apply_of_not_mem (by omega), ?_⟩
  simp only [Target.loadEvent, Target.storeLink]
  exact Memory.load_store_of_apart _ _ (by omega)

end KeepsSignal

theorem eventRetainLocked_keepsSignal (s : EventStore) (event : Nat) :
    KeepsSignal t event s.memory (eventRetainLocked t s event).1.memory := by
  rw [eventRetainLocked]
  split
  · exact .refl t event s.memory
  · dsimp only
    apply KeepsSignal.setEvent
    · intro e he
      exact ⟨he.pool, he.magic, he.size, Nat.mod_lt _ (by decide), he.signal, he.flags⟩
    · intro e
      rfl

theorem eventReleaseLocked_keepsSignal (s : EventStore) (pool event : Nat) :
    KeepsSignal t event s.memory (eventReleaseLocked t s pool event).1.memory := by
  have hcount : KeepsSignal t event s.memory
      (t.setEvent s.memory event fun e => { e with referenceCount := e.referenceCount - 1 }) :=
    .setEvent t event s.memory _ (fun e he => ⟨he.pool, he.magic, he.size,
      lt_of_le_of_lt (Nat.sub_le _ _) he.referenceCount, he.signal, he.flags⟩) (fun _ => rfl)
  rw [eventReleaseLocked]
  split
  · exact .refl t event s.memory
  dsimp only
  split
  · exact hcount
  split
  · exact hcount
  · refine hcount.trans (KeepsSignal.trans ?_ (.storeLink t event _ _))
    exact .setEvent t event _ _ (fun e he => ⟨Nat.pow_pos (by decide), Nat.two_pow_pos 32, he.size, he.referenceCount,
      he.signal, he.flags⟩) (fun _ => rfl)

variable {C A : Type} [Fintype C] [Fintype A] [DecidableEq C] [DecidableEq A]
variable {pools : List PoolShape} {statics : Nat → Prop}

theorem Arena.loadEvent_eq (ha : Arena t pools statics) {q : PoolShape} (hq : q ∈ pools) {b : Nat}
    (hb : b ∈ q.blocks)
    {e : Nat} (hknown : Known pools statics e) (he : e ≠ 0) (hne : e ≠ b) {m m' : Memory}
    (hm : ∀ z, z < b ∨ b + q.blockSize ≤ z → m' z = m z) : t.loadEvent m' e = t.loadEvent m e := by
  obtain ⟨-, -, hle, hbound⟩ := (ha.sound q hq).block_bounds hb
  have hsize := (ha.sound q hq).eventBytes_le
  refine Target.loadEvent_congr (fun z hz hzlt => hm z ?_)
  rcases hknown with (h0 | hstatic) | ⟨q', hq', hb'⟩
  · exact absurd h0 he
  · have := ha.static e hstatic q hq
    omega
  · have hsize' := (ha.sound q' hq').eventBytes_le
    by_cases hqq : q' = q
    · subst hqq
      have := (ha.sound q' hq).apart hb' hb hne
      omega
    · obtain ⟨-, -, hle', hbound'⟩ := (ha.sound q' hq').block_bounds hb'
      have := (ha.apart q' hq' q hq hqq).2
      omega

theorem KeepsSignal.known {event : Nat} {m m' : Memory} (h : KeepsSignal t event m m') (ha : Arena t pools statics)
    {q : PoolShape} (hq : q ∈ pools) (hb : event ∈ q.blocks) {e : Nat} (hknown : Known pools statics e)
    (he : e ≠ 0) :
    (t.loadEvent m' e).signal = (t.loadEvent m e).signal := by
  by_cases hne : e = event
  · subst hne
    exact h.signal
  · have hsize := (ha.sound q hq).eventBytes_le
    rw [ha.loadEvent_eq hq hb hknown he hne (fun z hz => h.outside z (by omega))]

namespace EventSystem

variable {s : EventSystem C A} {c : C}

def SameSignals (t : Target) (s s' : EventSystem C A) : Prop :=
  ∀ e, e ≠ 0 → s.references e ≠ 0 → (t.loadEvent s'.store.memory e).signal =
    (t.loadEvent s.store.memory e).signal

omit [DecidableEq C] [DecidableEq A] in
theorem SameSignals.of_memory {s' : EventSystem C A} (h : s'.store.memory = s.store.memory) : SameSignals t s s' :=
  fun e _ _ => by rw [h]

omit [DecidableEq C] [DecidableEq A] in
theorem Sound.fill_sameSignals (h : s.Sound t pools statics) (ha : Arena t pools statics)
    {pool event signal eventSize : Nat} (hact : (s.threads c).activity = .fill pool event signal eventSize) {e : Nat}
    (he : e ≠ 0) (hrefs : s.references e ≠ 0) :
    (t.loadEvent (eventFill t s.store pool event signal eventSize).memory e).signal =
      (t.loadEvent s.store.memory e).signal := by
  have hfit := h.threads c
  rw [hact] at hfit
  obtain ⟨-, q, hq, rfl, hb, -⟩ := hfit
  have hpos : s.fillings event ≠ 0 := by
    have := s.fillings_thread_le c event
    simp only [hact, Activity.fillings, one_self] at this
    omega
  obtain ⟨free, hholds, huse⟩ := h.keeps.pool q hq
  have hne : e ≠ event := by
    rintro rfl
    cases huse e hb with
    | free _ h0 _ => exact hrefs h0
    | taken _ h0 _ => exact hrefs h0
    | live _ _ h0 => exact hpos h0
  have hsize := hholds.shape.eventBytes_le
  rw [ha.loadEvent_eq hq hb (h.known e hrefs) he hne (fun z hz => ?_)]
  simp only [eventFill, hholds.blockSize]
  rw [Target.setEvent_apply _ (by omega), Memory.fill_apply_of_not_mem hz]

theorem eventTake_memory (t : Target) (st : EventStore) (pool signal eventSize : Nat) :
    (eventTake t st pool signal eventSize).1.memory = st.memory := by
  simp only [eventTake]
  split_ifs <;> rfl

omit [DecidableEq C] in
theorem Sound.section_sameSignals (h : s.Sound t pools statics) (ha : Arena t pools statics) {activity : Activity A}
    {s₁ : EventSystem C A} {o : Onward A} (hbegun : (s.threads c).activity = activity)
    (hsection : Section t s activity s₁ o) (hretains : s.Retains t statics activity) : SameSignals t s s₁ := by
  have hfit := h.threads c
  rw [hbegun] at hfit
  cases hsection with
  | refuse pool signal eventSize st htaken | create pool signal eventSize st event htaken =>
    have hmem := eventTake_memory t s.store pool signal eventSize
    rw [htaken] at hmem
    exact .of_memory hmem
  | fill pool event signal eventSize => exact fun e he hrefs => h.fill_sameSignals ha hbegun he hrefs
  | retainLocked taking st status heq =>
    obtain ⟨-, q, hq, hb⟩ := h.taking_block hbegun hretains
    have hkeeps := eventRetainLocked_keepsSignal (t := t) s.store taking.event
    rw [heq] at hkeeps
    exact fun e he hrefs => hkeeps.known ha hq hb (h.known e hrefs) he
  | releaseLocked giving pool st status heq =>
    obtain ⟨q, hq, -, hb⟩ := hfit
    have hkeeps := eventReleaseLocked_keepsSignal (t := t) s.store pool giving.event
    rw [heq] at hkeeps
    exact fun e he hrefs => hkeeps.known ha hq hb (h.known e hrefs) he
  | _ => exact .of_memory rfl

theorem Sound.step_sameSignals (h : s.Sound t pools statics) (ha : Arena t pools statics) {op : EventOp C A}
    (hretains : s.RetainsHeld t statics op) :
    SameSignals t s (s.step t op) := by
  have he := s.step_effect t op
  generalize s.step t op = s' at he ⊢
  cases he with
  | none => exact .of_memory rfl
  | call c request => cases request <;> exact .of_memory rfl
  | thread _ c activity s₁ o hbegun hvia heffect =>
    have hsame := h.section_sameSignals ha hbegun heffect (hretains.retains hbegun hvia)
    cases o <;> exact hsame
  | loop _ a loop s' hbegun heffect =>
    have hfit := h.loops a
    rw [hbegun] at hfit
    cases heffect with
    | releaseLocked event pool status =>
      obtain ⟨q, hq, -, hb⟩ := hfit
      exact fun e he hrefs => (eventReleaseLocked_keepsSignal s.store pool event).known ha hq hb (h.known e hrefs) he
    | _ => exact .of_memory rfl

end EventSystem

def Activity.Owed (pools : List PoolShape) (signal : Nat → Nat) (signalCount : Nat) : Activity A → Prop
  | .snapshot event _ => event ≠ 0 ∧ signal event < signalCount
  | .release (.consume p) => ∃ q ∈ pools, p.event ∈ q.blocks
  | _ => True

def Returned.Settled : Returned A → Prop
  | .published _ release _ => release = .ok
  | _ => True

namespace EventSystem

variable {s : EventSystem C A} {c : C} {signal : Nat → Nat} {signalCount : Nat}

omit [DecidableEq C] [DecidableEq A] in
theorem All.resign (h : s.All (Activity.Owed pools signal signalCount) Returned.Settled) {signal' : Nat → Nat}
    (hsignal : ∀ e, e ≠ 0 → s.references e ≠ 0 → signal' e = signal e) :
    s.All (Activity.Owed pools signal' signalCount) Returned.Settled := by
  intro c
  refine ⟨?_, (h c).2⟩
  have howed := (h c).1
  cases hact : (s.threads c).activity with
  | snapshot event wait =>
    rw [hact] at howed
    have hrefs := s.references_thread_le c event
    simp only [hact, Activity.references, one_self] at hrefs
    exact ⟨howed.1, by rw [hsignal event howed.1 (by omega)]; exact howed.2⟩
  | release giving =>
    rw [hact] at howed
    cases giving with
    | consume p => exact howed
    | _ => trivial
  | _ => trivial

def Settled (pools : List PoolShape) (signal : Nat → Nat) (signalCount : Nat) (s : EventSystem C A) : Prop :=
  s.All (Activity.Owed pools signal signalCount) Returned.Settled

theorem Sound.section_settled (h : s.Sound t pools statics) (ha : Arena t pools statics) {activity : Activity A}
    {s₁ : EventSystem C A} {o : Onward A} (hbegun : (s.threads c).activity = activity)
    (hsection : Section t s activity s₁ o) (howed : activity.Owed pools signal signalCount)
    (hcount : s.table.signalCount = signalCount)
    (hsignal : ∀ event wait, activity = .publish event wait →
      signal event = (t.loadEvent s.store.memory event).signal) :
    o.Meets (Activity.Owed pools signal signalCount) Returned.Settled := by
  cases hsection with
  | retain taking status | retainLocked taking st status =>
    cases taking with
    | own event => trivial
    | share p target =>
      rw [Taking.onward]
      split <;> trivial
  | release giving status hchecked =>
    cases giving with
    | consume p =>
      obtain ⟨q, hq, hb⟩ := howed
      have hrefs := giving_references (c := c) (.consume p) (by rw [hbegun]; intro; rfl)
      obtain ⟨hvalid, hdynamic, -⟩ := h.keeps.isDynamic hq hb hrefs
      exact absurd ((hchecked.eq_false hvalid).symm.trans hdynamic) Bool.false_ne_true
    | _ => trivial
  | releaseLocked giving pool st status heq =>
    have hok := (h.releaseLocked ha hbegun heq).1
    cases giving with
    | consume p => exact hok
    | _ => trivial
  | fail _ origin target | hand origin target | enqueue origin target | accept origin target =>
    cases origin with
    | plain event wait => trivial
    | shared p =>
      rw [Origin.onward]
      split <;> trivial
  | publish event wait haccepted =>
    simp only [EventSystem.rejects, not_or] at haccepted
    refine ⟨?_, ?_⟩
    · rintro rfl
      exact haccepted.2.1 (by simp [eventIsValid])
    · rw [hsignal event wait rfl]
      omega
  | consume p hdynamic =>
    have hle := s.references_thread_le c p.event
    simp only [hbegun, Activity.references, one_self] at hle
    obtain ⟨q, hq, -, hb⟩ := h.block (by omega) hdynamic
    exact ⟨q, hq, hb⟩
  | keep => rfl
  | _ => trivial

end EventSystem

end Hairtos

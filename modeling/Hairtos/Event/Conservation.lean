import Hairtos.Event.Arena
import Hairtos.Event.Counts

namespace Hairtos

open Library

variable {e event pool signal eventSize : Nat} {st : EventStore}

variable {C A : Type}

def Activity.Fit (t : Target) (pools : List PoolShape) (statics : Nat → Prop) : Activity A → Prop
  | .create pool signal _ => (pool = 0 ∨ ∃ q ∈ pools, q.pool = pool) ∧ signal < 2 ^ 16
  | .fill pool event signal eventSize =>
    signal < 2 ^ 16 ∧ ∃ q ∈ pools, q.pool = pool ∧ event ∈ q.blocks ∧ q.Accepts t signal eventSize
  | .retainLocked (.own event) => ¬ (event = 0 ∨ statics event)
  | .retainLocked (.share p _) => ∃ q ∈ pools, p.event ∈ q.blocks
  | .releaseLocked giving pool => ∃ q ∈ pools, q.pool = pool ∧ giving.event ∈ q.blocks
  | _ => True

def Onward.Fit (t : Target) (pools : List PoolShape) (statics : Nat → Prop) : Onward A → Prop
  | .goOn activity => activity.Fit t pools statics
  | .finish _ _ => True

def Loop.Fit (pools : List PoolShape) : Loop → Prop
  | .releaseLocked event pool _ => ∃ q ∈ pools, q.pool = pool ∧ event ∈ q.blocks
  | _ => True

variable {t : Target} {pools : List PoolShape} {statics : Nat → Prop}

theorem Arena.not_block (ha : Arena t pools statics) (he : e = 0 ∨ statics e) {q : PoolShape}
    (hq : q ∈ pools) : e ∉ q.blocks := by
  intro hb
  obtain ⟨hne, -, hle, hbound⟩ := (ha.sound q hq).block_bounds hb
  rcases he with rfl | hstatic
  · exact hne rfl
  · have hsize := (ha.sound q hq).blockSize_pos
    have hfields := t.event_fields
    have := ha.static e hstatic q hq
    omega

section Onward

variable {status : Status}

theorem Taking.onward_fit (taking : Taking A) : (taking.onward status).Fit t pools statics := by
  cases taking with
  | own event => trivial
  | share p target =>
    rw [Taking.onward]
    split <;> trivial

theorem Giving.onward_fit (giving : Giving A) : (giving.onward status).Fit t pools statics := by
  cases giving <;> trivial

theorem Origin.onward_fit (origin : Origin A) (target : A) :
    (origin.onward target status).Fit t pools statics := by
  cases origin with
  | plain event wait => trivial
  | shared p =>
    rw [Origin.onward]
    split <;> trivial

end Onward

theorem EventSystem.NotDynamic.eq_false {s : EventSystem C A} (h : s.NotDynamic t event)
    (hvalid : eventIsValid t s.store event = true) : eventIsDynamic t s.store event = false := by
  rcases h with h | h
  · rw [hvalid] at h
    cases h
  · exact h

variable [Fintype C] [Fintype A]

structure EventSystem.Sound (t : Target) (pools : List PoolShape) (statics : Nat → Prop) (s : EventSystem C A) :
    Prop where
  keeps : s.store.Keeps t pools statics s.references s.fillings
  known : ∀ e, s.references e ≠ 0 → Known pools statics e
  threads : ∀ c, (s.threads c).activity.Fit t pools statics
  loops : ∀ a, (s.actives a).loop.Fit pools

namespace EventSystem

/-- What passes for a static event in `he_event_retain` is one, and a dynamic event is counted while somebody has a
reference to it. -/
def Retains (t : Target) (statics : Nat → Prop) (s : EventSystem C A) : Activity A → Prop
  | .retain (.own event) =>
    eventIsValid t s.store event = true → eventIsDynamic t s.store event = false → statics event
  | .retainLocked (.own event) => s.references event ≠ 0
  | _ => True

variable {s s₁ : EventSystem C A} {c : C} {activity : Activity A} {o : Onward A}

namespace Sound

theorem not_block (h : s.Sound t pools statics) (hrefs : s.references e ≠ 0) (hnot : s.NotDynamic t e) :
    e = 0 ∨ statics e := by
  rcases h.known e hrefs with he | ⟨q, hq, hb⟩
  · exact he
  · obtain ⟨hvalid, hdynamic, -⟩ := h.keeps.isDynamic hq hb hrefs
    rw [hnot.eq_false hvalid] at hdynamic
    cases hdynamic

theorem block (h : s.Sound t pools statics) (hrefs : s.references e ≠ 0)
    (hdynamic : eventIsDynamic t s.store e = true) :
    ∃ q ∈ pools, q.pool = (t.loadEvent s.store.memory e).pool ∧ e ∈ q.blocks := by
  rcases h.known e hrefs with he | ⟨q, hq, hb⟩
  · rw [h.keeps.not_isDynamic he] at hdynamic
    cases hdynamic
  · exact ⟨q, hq, ((h.keeps.isDynamic hq hb hrefs).2.2).symm, hb⟩

theorem moved (h : s.Sound t pools statics) (ha : Arena t pools statics) (hstore : s₁.store = s.store)
    (hrefs : ∀ e, ¬ (e = 0 ∨ statics e) → s₁.references e = s.references e)
    (hfills : ∀ e, s₁.fillings e = s.fillings e)
    (hthreads : ∀ c, (s₁.threads c).activity.Fit t pools statics)
    (hloops : ∀ a, (s₁.actives a).loop.Fit pools) : s₁.Sound t pools statics := by
  refine ⟨hstore ▸ h.keeps.congr (fun q hq b hb => hrefs b (fun he => ha.not_block he hq hb))
    (fun _ _ b _ => hfills b),
    fun e he => ?_, hthreads, hloops⟩
  by_cases hstatic : e = 0 ∨ statics e
  · exact Or.inl hstatic
  · exact h.known e (hrefs e hstatic ▸ he)

theorem counted (h : s.Sound t pools statics) {q : PoolShape} (hq : q ∈ pools) (hb : event ∈ q.blocks)
    {references fillings : Nat → Nat} (hkeeps : s₁.store.Keeps t pools statics references fillings)
    (hrefs : s₁.references = references) (hfills : s₁.fillings = fillings)
    (hother : ∀ e, event ≠ e → s₁.references e = s.references e)
    (hthreads : ∀ c, (s₁.threads c).activity.Fit t pools statics)
    (hloops : ∀ a, (s₁.actives a).loop.Fit pools) : s₁.Sound t pools statics := by
  refine ⟨by rwa [hrefs, hfills], fun e he => ?_, hthreads, hloops⟩
  by_cases heq : event = e
  · exact Or.inr ⟨q, hq, heq ▸ hb⟩
  · exact h.known e (hother e heq ▸ he)

theorem sharing_references (hbegun : (s.threads c).activity.references event = one event event) :
    s.references event ≠ 0 := by
  have hle := s.references_thread_le c event
  rw [hbegun, one_self] at hle
  omega

theorem taking_block (h : s.Sound t pools statics) {taking : Taking A}
    (hbegun : (s.threads c).activity = .retainLocked taking) (hretains : s.Retains t statics (.retainLocked taking)) :
    s.references taking.event ≠ 0 ∧ ∃ q ∈ pools, taking.event ∈ q.blocks := by
  have hfit := h.threads c
  rw [hbegun] at hfit
  cases taking with
  | own event => exact ⟨hretains, (h.known event hretains).resolve_left hfit⟩
  | share p target => exact ⟨sharing_references (c := c) (by rw [hbegun]; rfl), hfit⟩

theorem retained_static (h : s.Sound t pools statics) {taking : Taking A}
    (hbegun : (s.threads c).activity = .retain taking) (hretains : s.Retains t statics (.retain taking))
    (hvalid : eventIsValid t s.store taking.event = true) (hchecked : s.NotDynamic t taking.event) :
    taking.event = 0 ∨ statics taking.event := by
  cases taking with
  | own event => exact Or.inr (hretains hvalid (hchecked.eq_false hvalid))
  | share p target => exact h.not_block (sharing_references (c := c) (by rw [hbegun]; rfl)) hchecked

theorem giving_references (giving : Giving A) (hbegun : ∀ e, (s.threads c).activity.references e =
    giving.references e) :
    s.references giving.event ≠ 0 := by
  have hle := s.references_thread_le c giving.event
  have hpos := giving.references_event_pos
  rw [hbegun] at hle
  omega

theorem take (h : s.Sound t pools statics) (ha : Arena t pools statics)
    (hbegun : (s.threads c).activity = .create pool signal eventSize)
    (htaken : eventTake t s.store pool signal eventSize = (st, event)) :
    (st = s.store ∧ event = 0) ∨ ∃ q ∈ pools, q.pool = pool ∧ event ∈ q.blocks ∧ event ≠ 0 ∧
      s.fillings event = 0 ∧
      signal < 2 ^ 16 ∧ q.Accepts t signal eventSize ∧
      st.Keeps t pools statics s.references (Function.update s.fillings event 1) := by
  have hfit := h.threads c
  rw [hbegun] at hfit
  obtain ⟨rfl | ⟨q, hq, rfl⟩, hsignal⟩ := hfit
  · have hnone : eventTake t s.store 0 signal eventSize = (s.store, 0) := by simp [eventTake, eventPoolIsValid]
    exact Or.inl (Prod.mk.inj (htaken.symm.trans hnone))
  rcases h.keeps.take ha hq signal eventSize with hnone | ⟨st', b, htake, hb, hne, hfill, haccepts, hkeeps⟩
  · exact Or.inl (Prod.mk.inj (htaken.symm.trans hnone))
  · obtain ⟨rfl, rfl⟩ := Prod.mk.inj (htaken.symm.trans htake)
    exact Or.inr ⟨q, hq, rfl, hb, hne, hfill, hsignal, haccepts, hkeeps⟩

variable [DecidableEq C]

theorem proceed_threads (h : s.Sound t pools statics) (hthreads : s₁.threads = s.threads)
    (hfit : o.Fit t pools statics) (d : C) :
    ((s₁.proceed c o).threads d).activity.Fit t pools statics := by
  by_cases hd : d = c
  · subst hd
    cases o with
    | goOn activity => simpa [EventSystem.proceed, goOn, setThread, hthreads, Onward.Fit] using hfit
    | finish result gained =>
      simp only [EventSystem.proceed, finish, setThread, Function.update_self]
      trivial
  · have := h.threads d
    cases o <;> simpa [EventSystem.proceed, goOn, finish, setThread, Function.update_of_ne hd, hthreads] using this

theorem proceed (h : s.Sound t pools statics) (ha : Arena t pools statics) (hbegun : (s.threads c).activity = activity)
    (hthreads : s₁.threads = s.threads) (hstore : s₁.store = s.store)
    (hloops : ∀ a, (s₁.actives a).loop.Fit pools)
    (hrefs : ∀ e, ¬ (e = 0 ∨ statics e) → s₁.references e + o.references e = s.references e +
      activity.references e)
    (hfills : ∀ e, o.fillings e = activity.fillings e) (hfit : o.Fit t pools statics) :
    (s₁.proceed c o).Sound t pools statics := by
  obtain ⟨hstore₁, hactives₁, -⟩ := proceed_frame s₁ c o
  refine h.moved ha (hstore₁.trans hstore) (fun e he => ?_) (fun e => ?_) (h.proceed_threads hthreads hfit)
    (by rwa [hactives₁])
  · have := s₁.references_proceed c e o
    rw [hthreads, hbegun] at this
    have := hrefs e he
    omega
  · have := s₁.fillings_proceed c e o
    rw [hthreads, hbegun, hfills e, EventSystem.fillings, EventSystem.fillings, hthreads] at this
    exact Nat.add_right_cancel this

theorem goes (h : s.Sound t pools statics) (ha : Arena t pools statics) (hbegun : (s.threads c).activity = activity)
    (hrefs : ∀ e, ¬ (e = 0 ∨ statics e) → o.references e = activity.references e)
    (hfills : ∀ e, o.fillings e = activity.fillings e) (hfit : o.Fit t pools statics) :
    (s.proceed c o).Sound t pools statics :=
  h.proceed ha hbegun rfl rfl h.loops (fun e he => by rw [hrefs e he]) hfills hfit

theorem create (h : s.Sound t pools statics) (ha : Arena t pools statics)
    (hbegun : (s.threads c).activity = .create pool signal eventSize)
    (htaken : eventTake t s.store pool signal eventSize = (st, event)) (hne : event ≠ 0) :
    ({ s with store := st }.proceed c (.goOn (.fill pool event signal eventSize))).Sound t pools statics := by
  rcases h.take ha hbegun htaken with ⟨-, h0⟩ | ⟨q, hq, hpool, hb, -, hfill, hsignal, haccepts, hkeeps⟩
  · exact absurd h0 hne
  have hrefs (e : Nat) := references_proceed { s with store := st } c e (.goOn (.fill pool event signal eventSize))
  have hfills (e : Nat) := fillings_proceed { s with store := st } c e (.goOn (.fill pool event signal eventSize))
  simp only [hbegun, Onward.references, Onward.fillings, Activity.references, Activity.fillings, Nat.add_zero]
    at hrefs hfills
  refine h.counted hq hb hkeeps (funext hrefs) ?_ (fun e _ => hrefs e)
    (h.proceed_threads rfl ⟨hsignal, q, hq, hpool, hb, haccepts⟩) h.loops
  rw [eq_update_succ hfills]
  exact congrArg (fun n => Function.update s.fillings event (n + 1)) hfill

theorem fill (h : s.Sound t pools statics) (ha : Arena t pools statics)
    (hbegun : (s.threads c).activity = .fill pool event signal eventSize) :
    ({ s with store := eventFill t s.store pool event signal eventSize }.proceed c
      (.finish (.event event) (some event))).Sound t pools statics := by
  have hfit := h.threads c
  have hle := s.fillings_thread_le c event
  rw [hbegun] at hfit hle
  obtain ⟨hsignal, q, hq, rfl, hb, haccepts⟩ := hfit
  simp only [Activity.fillings, one_self] at hle
  obtain ⟨h0, hone, hkeeps⟩ := h.keeps.fill ha hq hb (by omega) haccepts hsignal
  have hrefs (e : Nat) := references_proceed { s with store := eventFill t s.store q.pool event signal eventSize } c e
    (.finish (.event event) (some event))
  have hfills (e : Nat) := fillings_proceed { s with store := eventFill t s.store q.pool event signal eventSize } c e
    (.finish (.event event) (some event))
  simp only [hbegun, Onward.references, Onward.fillings, Activity.references, Activity.fillings, atMostOne,
    Nat.add_zero] at hrefs hfills
  refine h.counted hq hb hkeeps ?_ ?_ (fun e he => ?_) (h.proceed_threads rfl trivial) h.loops
  · rw [eq_update_succ hrefs]
    exact congrArg (fun n => Function.update s.references event (n + 1)) h0
  · rw [(eq_update_pred hfills).1]
    exact congrArg (fun n => Function.update s.fillings event (n - 1)) hone
  · rw [← Nat.add_zero (s.references e), ← one_of_ne he]
    exact hrefs e

theorem retainLocked (h : s.Sound t pools statics) (ha : Arena t pools statics) {taking : Taking A}
    {status : Status} (hbegun : (s.threads c).activity = .retainLocked taking)
    (hretains : s.Retains t statics (.retainLocked taking)) (heq : eventRetainLocked t s.store taking.event =
      (st, status)) :
    ({ s with store := st }.proceed c (taking.onward status)).Sound t pools statics := by
  obtain ⟨hne, q, hq, hb⟩ := h.taking_block hbegun hretains
  rcases h.keeps.retainLocked ha hq hb hne with ⟨-, hfull⟩ | ⟨st', hok, hkeeps⟩
  · obtain ⟨rfl, rfl⟩ := Prod.mk.inj (heq.symm.trans hfull)
    exact h.goes ha hbegun (fun e _ => by simp [Taking.onward_references, Activity.references])
      (by simp [Activity.fillings]) taking.onward_fit
  · obtain ⟨rfl, rfl⟩ := Prod.mk.inj (heq.symm.trans hok)
    have hrefs (e : Nat) := references_proceed { s with store := st } c e (taking.onward .ok)
    have hfills (e : Nat) := fillings_proceed { s with store := st } c e (taking.onward .ok)
    simp only [hbegun, Activity.references, Activity.fillings, Taking.onward_references, Taking.onward_fillings,
      if_true] at hrefs hfills
    have hrefs' (e : Nat) : ({ s with store := st }.proceed c (taking.onward .ok)).references e =
        s.references e + one taking.event e := by
      have := hrefs e
      have hsame : EventSystem.references { s with store := st } e = s.references e := rfl
      omega
    refine h.counted hq hb ?_ (eq_update_succ hrefs') (funext hfills) (fun e he => ?_)
      (h.proceed_threads rfl taking.onward_fit) ?_
    · rwa [(proceed_frame _ c _).1]
    · rw [hrefs' e, one_of_ne he, Nat.add_zero]
    · rw [(proceed_frame _ c _).2.1]
      exact h.loops

theorem releaseLocked (h : s.Sound t pools statics) (ha : Arena t pools statics) {giving : Giving A}
    {status : Status} (hbegun : (s.threads c).activity = .releaseLocked giving pool)
    (heq : eventReleaseLocked t s.store pool giving.event = (st, status)) :
    status = .ok ∧ ({ s with store := st }.proceed c (giving.onward status)).Sound t pools statics := by
  have hfit := h.threads c
  rw [hbegun] at hfit
  obtain ⟨q, hq, rfl, hb⟩ := hfit
  obtain ⟨st', hok, hkeeps⟩ :=
    h.keeps.releaseLocked ha hq hb (giving_references (c := c) giving (by rw [hbegun]; intro; rfl))
  obtain ⟨rfl, rfl⟩ := Prod.mk.inj (heq.symm.trans hok)
  have hrefs (e : Nat) := references_proceed { s with store := st } c e (giving.onward .ok)
  have hfills (e : Nat) := fillings_proceed { s with store := st } c e (giving.onward .ok)
  simp only [hbegun, Activity.references, Activity.fillings, Giving.onward_fillings] at hrefs hfills
  have hrefs' (e : Nat) : ({ s with store := st }.proceed c (giving.onward .ok)).references e + one giving.event e =
      s.references e := by
    have := hrefs e
    have := giving.onward_references .ok e
    have hsame : EventSystem.references { s with store := st } e = s.references e := rfl
    omega
  refine ⟨rfl, h.counted hq hb ?_ (eq_update_pred hrefs').1 (funext hfills) (fun e he => ?_)
    (h.proceed_threads rfl giving.onward_fit) ?_⟩
  · rwa [(proceed_frame _ c _).1]
  · rw [← hrefs' e, one_of_ne he, Nat.add_zero]
  · rw [(proceed_frame _ c _).2.1]
    exact h.loops

variable [DecidableEq A]

omit [DecidableEq C] in
theorem setActive_loops (h : s.Sound t pools statics) (a : A) {active : ActiveObject} (hfit : active.loop.Fit pools)
    (b : A) : ((s.setActive a active).actives b).loop.Fit pools := by
  by_cases hb : b = a
  · subst hb
    simpa [EventSystem.setActive] using hfit
  · simpa [EventSystem.setActive, Function.update_of_ne hb] using h.loops b

theorem delivered (h : s.Sound t pools statics) (ha : Arena t pools statics) {origin : Origin A} {target : A}
    (hbegun : (s.threads c).activity = activity) (hposts : activity.posts = some (origin, target))
    {active : ActiveObject} (hfit : active.loop.Fit pools)
    (hactive : ∀ e, active.references e = (s.actives target).references e + one origin.event e) :
    ((s.setActive target active).proceed c (origin.onward target .ok)).Sound t pools statics := by
  refine h.proceed ha hbegun rfl rfl (h.setActive_loops target hfit) (fun e _ => ?_) (fun e => ?_)
    (origin.onward_fit target)
  · have := s.references_setActive target e active
    have := origin.onward_references target .ok e
    have := (Activity.posts_references hposts e).1
    have := hactive e
    simp only [if_true] at *
    omega
  · rw [Origin.onward_fillings, (Activity.posts_references hposts e).2]

theorem thread (h : s.Sound t pools statics) (ha : Arena t pools statics) (hbegun : (s.threads c).activity = activity)
    (hsection : Section t s activity s₁ o) (hretains : s.Retains t statics activity) :
    (s₁.proceed c o).Sound t pools statics := by
  have hfit := h.threads c
  rw [hbegun] at hfit
  cases hsection with
  | refuse pool signal eventSize st htaken =>
    rcases h.take ha hbegun htaken with ⟨rfl, -⟩ | ⟨-, -, -, -, hne, -⟩
    · exact h.goes ha hbegun (fun _ _ => rfl) (fun _ => rfl) trivial
    · exact absurd rfl hne
  | create pool signal eventSize st event htaken hne => exact h.create ha hbegun htaken hne
  | fill pool event signal eventSize => exact h.fill ha hbegun
  | retain taking status hchecked hvalid =>
    refine h.goes ha hbegun (fun e he => ?_) (by simp [Activity.fillings]) taking.onward_fit
    have hgained : status = .ok → taking.event ≠ e := by
      rintro hok rfl
      exact he (h.retained_static hbegun hretains (hvalid hok) hchecked)
    by_cases hok : status = .ok
    · simp [Taking.onward_references, Activity.references, one_of_ne (hgained hok)]
    · simp [Taking.onward_references, Activity.references, hok]
  | enterRetain taking hdynamic =>
    have hnot : ¬ (taking.event = 0 ∨ statics taking.event) := by
      intro hstatic
      rw [h.keeps.not_isDynamic hstatic] at hdynamic
      cases hdynamic
    refine h.goes ha hbegun (fun _ _ => rfl) (fun _ => rfl) ?_
    cases taking with
    | own event => exact hnot
    | share p target => exact (h.known _ (sharing_references (c := c) (by rw [hbegun]; rfl))).resolve_left hnot
  | retainLocked taking st status heq => exact h.retainLocked ha hbegun hretains heq
  | release giving status hchecked =>
    have hstatic := h.not_block (giving_references (c := c) giving (by rw [hbegun]; intro; rfl)) hchecked
    refine h.goes ha hbegun (fun e he => ?_) (by simp [Activity.fillings]) giving.onward_fit
    have hne : giving.event ≠ e := by
      rintro rfl
      exact he hstatic
    have := giving.onward_references status e
    rwa [one_of_ne hne] at this
  | enterRelease giving hdynamic =>
    exact h.goes ha hbegun (fun _ _ => rfl) (fun _ => rfl)
      (h.block (giving_references (c := c) giving (by rw [hbegun]; intro; rfl)) hdynamic)
  | releaseLocked giving pool st status heq => exact (h.releaseLocked ha hbegun heq).2
  | fail _ origin target status hposts hfailed =>
    refine h.goes ha hbegun (fun e _ => ?_) (fun e => ?_) (origin.onward_fit target)
    · have := origin.onward_references target status e
      rw [if_neg hfailed] at this
      rw [(Activity.posts_references hposts e).1, ← this, Nat.add_zero]
    · rw [Origin.onward_fillings, (Activity.posts_references hposts e).2]
  | hand origin target hwaiting =>
    refine h.delivered ha hbegun rfl trivial (fun e => ?_)
    simp [ActiveObject.references, hwaiting, Loop.references]
  | enqueue origin target =>
    refine h.delivered ha hbegun rfl (h.loops target) (fun e => ?_)
    simp only [ActiveObject.references, List.count_append, count_singleton]
    omega
  | accept origin target event rest hloop hslots =>
    refine h.delivered ha hbegun rfl trivial (fun e => ?_)
    simp only [ActiveObject.references, hslots, hloop, Loop.references, List.count_cons, List.count_append,
      List.count_nil, one, beq_iff_eq]
    omega
  | keep p hchecked =>
    have hle := s.references_thread_le c p.event
    simp only [hbegun, Activity.references, one_self] at hle
    have hstatic := h.not_block (by omega) hchecked
    refine h.goes ha hbegun (fun e he => ?_) (fun _ => rfl) trivial
    exact (one_of_ne (by rintro rfl; exact he hstatic)).symm
  | subscribe signal a r => exact h.proceed ha hbegun rfl rfl h.loops (fun _ _ => rfl) (fun _ => rfl) trivial
  | unsubscribe signal a r => exact h.proceed ha hbegun rfl rfl h.loops (fun _ _ => rfl) (fun _ => rfl) trivial
  | _ => exact h.goes ha hbegun (fun _ _ => rfl) (fun _ => rfl) trivial

end Sound

end EventSystem

end Hairtos

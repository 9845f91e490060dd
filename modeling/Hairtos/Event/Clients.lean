import Hairtos.Event.Conservation

namespace Hairtos

open Library

variable {C A : Type} [Fintype C] [Fintype A] [DecidableEq C] [DecidableEq A]
variable {t : Target} {pools : List PoolShape} {statics : Nat → Prop}

namespace EventSystem

def Covers (statics : Nat → Prop) (s : EventSystem C A) (c : C) (event : Nat) : Prop :=
  (event = 0 ∨ statics event) ∨ (s.threads c).held event ≠ 0

def Lawful (pools : List PoolShape) (statics : Nat → Prop) (s : EventSystem C A) : EventOp C A → Prop
  | .call _ (.new pool _ _) => pool = 0 ∨ ∃ q ∈ pools, q.pool = pool
  | .call c (.release event) => s.Covers statics c event
  | .call c (.post _ event _) => s.Covers statics c event
  | .call c (.postFromIsr _ event) => s.Covers statics c event
  | .call c (.publish event _) => s.Covers statics c event
  | _ => True

def RetainsHeld (t : Target) (statics : Nat → Prop) (s : EventSystem C A) : EventOp C A → Prop
  | .advance c => s.Retains t statics (s.threads c).activity
  | _ => True

omit [DecidableEq C] [DecidableEq A]

instance decidableRetains [DecidablePred statics] (s : EventSystem C A) (activity : Activity A) :
    Decidable (s.Retains t statics activity) := by
  unfold Retains
  split <;> infer_instance

instance decidableRetainsHeld [DecidablePred statics] (s : EventSystem C A) (op : EventOp C A) :
    Decidable (s.RetainsHeld t statics op) := by
  unfold RetainsHeld
  split <;> infer_instance

theorem RetainsHeld.retains {s : EventSystem C A} {op : EventOp C A} {c : C} {activity : Activity A}
    (h : s.RetainsHeld t statics op) (hbegun : (s.threads c).activity = activity)
    (hvia : activity.posts = none → op = .advance c) : s.Retains t statics activity := by
  cases activity with
  | retain taking | retainLocked taking =>
    obtain rfl := hvia rfl
    exact hbegun ▸ h
  | _ => trivial

omit [Fintype C] [Fintype A]

instance decidableCovers [DecidablePred statics] (s : EventSystem C A) (c : C) (event : Nat) :
    Decidable (s.Covers statics c event) :=
  inferInstanceAs (Decidable ((event = 0 ∨ statics event) ∨ (s.threads c).held event ≠ 0))

instance decidableLawful [DecidablePred statics] (s : EventSystem C A) (op : EventOp C A) :
    Decidable (s.Lawful pools statics op) :=
  match op with
  | .call _ (.new pool _ _) => inferInstanceAs (Decidable (pool = 0 ∨ ∃ q ∈ pools, q.pool = pool))
  | .call c (.release event) => inferInstanceAs (Decidable (s.Covers statics c event))
  | .call c (.post _ event _) => inferInstanceAs (Decidable (s.Covers statics c event))
  | .call c (.postFromIsr _ event) => inferInstanceAs (Decidable (s.Covers statics c event))
  | .call c (.publish event _) => inferInstanceAs (Decidable (s.Covers statics c event))
  | .call _ (.retain _) => isTrue trivial
  | .call _ (.subscribe _ _) => isTrue trivial
  | .call _ (.unsubscribe _ _) => isTrue trivial
  | .advance _ => isTrue trivial
  | .fail _ _ => isTrue trivial
  | .loop _ _ _ => isTrue trivial

end EventSystem

namespace EventSystem

variable {s : EventSystem C A} {c : C} {a : A}

namespace Sound

section Loops

variable {active : ActiveObject} {loop : Loop}

variable (pools) in
omit [Fintype C] [Fintype A] [DecidableEq C] [DecidableEq A] in
theorem loopOn_fit (status : Status) : (loopOn status).Fit pools ∧ ∀ e, (loopOn status).references e = 0 := by
  rw [loopOn]
  split
  · exact ⟨trivial, fun _ => rfl⟩
  · exact ⟨trivial, fun _ => rfl⟩

omit [DecidableEq C]

theorem setActive (h : s.Sound t pools statics) (ha : Arena t pools statics)
    (hrefs : ∀ e, ¬ (e = 0 ∨ statics e) → active.references e = (s.actives a).references e)
    (hfit : active.loop.Fit pools) : (s.setActive a active).Sound t pools statics := by
  refine h.moved ha rfl (fun e he => ?_) (fun _ => rfl) h.threads (h.setActive_loops a hfit)
  have := s.references_setActive a e active
  rw [hrefs e he] at this
  exact Nat.add_right_cancel this

theorem goLoop (h : s.Sound t pools statics) (ha : Arena t pools statics) (hbegun : (s.actives a).loop = loop)
    {next : Loop} (hrefs : ∀ e, next.references e = loop.references e) (hfit : next.Fit pools) :
    (s.goLoop a next).Sound t pools statics := by
  refine h.setActive ha (fun e _ => ?_) hfit
  simp only [ActiveObject.references, hbegun, hrefs e]

omit [DecidableEq A] in
theorem loop_references {event : Nat} (hbegun : ∀ e, (s.actives a).loop.references e = one event e) :
    s.references event ≠ 0 := by
  have := s.references_active_le a event
  rw [hbegun event, one_self] at this
  omega

theorem goLoop_aside (h : s.Sound t pools statics) (ha : Arena t pools statics) {event : Nat} {next : Loop}
    (hbegun : ∀ e, (s.actives a).loop.references e = one event e) (hchecked : s.NotDynamic t event)
    (hnext : next.Fit pools ∧ ∀ e, next.references e = 0) : (s.goLoop a next).Sound t pools statics := by
  have hstatic := h.not_block (loop_references hbegun) hchecked
  refine h.setActive ha (fun e he => ?_) hnext.1
  have hne : event ≠ e := by
    rintro rfl
    exact he hstatic
  simp only [ActiveObject.references, hbegun, hnext.2, one_of_ne hne]

theorem loop_releaseLocked (h : s.Sound t pools statics) (ha : Arena t pools statics) {event pool : Nat}
    {status : Status} (hbegun : (s.actives a).loop = .releaseLocked event pool status) :
    ({ s with store := (eventReleaseLocked t s.store pool event).1 }.goLoop a (loopOn status)).Sound t pools
      statics := by
  have hfit := h.loops a
  rw [hbegun] at hfit
  obtain ⟨q, hq, rfl, hb⟩ := hfit
  obtain ⟨st, hok, hkeeps⟩ := h.keeps.releaseLocked ha hq hb (loop_references (a := a) (by rw [hbegun]; intro; rfl))
  rw [hok]
  have hrefs (e : Nat) : ({ s with store := st }.goLoop a (loopOn status)).references e + one event e =
      s.references e := by
    have := references_setActive { s with store := st } a e { s.actives a with loop := loopOn status }
    simp only [ActiveObject.references, (loopOn_fit pools status).2, hbegun] at this
    simp only [Loop.references] at this
    change ({ s with store := st }.goLoop a (loopOn status)).references e + _ = s.references e + _ at this
    omega
  refine h.counted hq hb hkeeps (eq_update_pred hrefs).1 rfl (fun e he => ?_) h.threads
    (h.setActive_loops a (loopOn_fit pools status).1)
  rw [← hrefs e, one_of_ne he, Nat.add_zero]

theorem loopSection (h : s.Sound t pools statics) (ha : Arena t pools statics) (hbegun : (s.actives a).loop = loop)
    {s' : EventSystem C A} (hsection : LoopSection t s a loop s') : s'.Sound t pools statics := by
  cases hsection with
  | start status => exact h.goLoop ha hbegun (loopOn_fit pools status).2 (loopOn_fit pools status).1
  | receive event rest hslots =>
    refine h.setActive ha (fun e _ => ?_) trivial
    simp only [ActiveObject.references, hslots, hbegun, Loop.references, List.count_cons, one, beq_iff_eq]
    omega
  | halt event hchecked =>
    exact h.goLoop_aside ha (by rw [hbegun]; intro; rfl) hchecked ⟨trivial, fun _ => rfl⟩
  | release event status hchecked =>
    exact h.goLoop_aside ha (by rw [hbegun]; intro; rfl) hchecked (loopOn_fit pools status)
  | enterRelease event status hdynamic =>
    exact h.goLoop ha hbegun (fun _ => rfl) (h.block (loop_references (a := a) (by rw [hbegun]; intro; rfl)) hdynamic)
  | releaseLocked event pool status => exact h.loop_releaseLocked ha hbegun
  | _ => exact h.goLoop ha hbegun (fun _ => rfl) trivial

end Loops

omit [DecidableEq A] in
theorem begin_spent (h : s.Sound t pools statics) (ha : Arena t pools statics) {activity : Activity A} {event : Nat}
    (hidle : (s.threads c).activity = .idle) (hcovers : s.Covers statics c event)
    (hrefs : ∀ e, activity.references e = one event e) (hfill : ∀ e, activity.fillings e = 0)
    (hfit : activity.Fit t pools statics) :
    (s.begin c activity (some event)).Sound t pools statics := by
  have hsum (e : Nat) := s.references_setThread c e
    { s.threads c with held := fun e => (s.threads c).held e - one event e, activity := activity }
  have hfills (e : Nat) := s.fillings_setThread c e
    { s.threads c with held := fun e => (s.threads c).held e - one event e, activity := activity }
  simp only [Thread.references, Thread.fillings, hrefs, hfill, hidle] at hsum hfills
  simp only [Activity.references, Activity.fillings, Nat.add_zero] at hsum hfills
  refine h.moved ha rfl (fun e he => ?_) hfills (fun d => ?_) h.loops
  · have hsum := hsum e
    change (s.begin c activity (some event)).references e + _ = _ at hsum
    by_cases hev : event = e
    · subst hev
      have hheld := hcovers.resolve_left he
      rw [one_self] at hsum
      omega
    · rw [one_of_ne hev] at hsum
      omega
  · by_cases hd : d = c
    · subst hd
      simp only [begin, setThread, Function.update_self]
      exact hfit
    · simpa [begin, setThread, Function.update_of_ne hd] using h.threads d

omit [DecidableEq A] in
theorem begin_none (h : s.Sound t pools statics) (ha : Arena t pools statics) {activity : Activity A}
    (hidle : (s.threads c).activity = .idle) (hrefs : ∀ e, activity.references e = 0)
    (hfill : ∀ e, activity.fillings e = 0) (hfit : activity.Fit t pools statics) :
    (s.begin c activity none).Sound t pools statics :=
  h.goes (o := .goOn activity) ha hidle (fun e _ => hrefs e) hfill hfit

omit [DecidableEq A] in
theorem call (h : s.Sound t pools statics) (ha : Arena t pools statics) {request : Request A}
    (hidle : (s.threads c).activity = .idle) (hlawful : s.Lawful pools statics (.call c request)) :
    (s.call c request).Sound t pools statics := by
  cases request with
  | new pool signal eventSize =>
    exact h.begin_none ha hidle (fun _ => rfl) (fun _ => rfl) ⟨hlawful, signal.isLt⟩
  | retain event => exact h.begin_none ha hidle (fun _ => rfl) (fun _ => rfl) trivial
  | release event => exact h.begin_spent ha hidle hlawful (fun _ => rfl) (fun _ => rfl) trivial
  | post target event wait => exact h.begin_spent ha hidle hlawful (fun _ => rfl) (fun _ => rfl) trivial
  | postFromIsr target event => exact h.begin_spent ha hidle hlawful (fun _ => rfl) (fun _ => rfl) trivial
  | publish event wait => exact h.begin_spent ha hidle hlawful (fun _ => rfl) (fun _ => rfl) trivial
  | subscribe signal subscriber => exact h.begin_none ha hidle (fun _ => rfl) (fun _ => rfl) trivial
  | unsubscribe signal subscriber => exact h.begin_none ha hidle (fun _ => rfl) (fun _ => rfl) trivial

theorem step (h : s.Sound t pools statics) (ha : Arena t pools statics) {op : EventOp C A}
    (hlawful : s.Lawful pools statics op) (hretains : s.RetainsHeld t statics op) :
    (s.step t op).Sound t pools statics := by
  have he := s.step_effect t op
  generalize s.step t op = s' at he ⊢
  cases he with
  | none => exact h
  | call c request hidle => exact h.call ha hidle hlawful
  | thread _ c activity s₁ o hbegun hvia heffect => exact h.thread ha hbegun heffect (hretains.retains hbegun hvia)
  | loop _ a loop s' hbegun heffect => exact h.loopSection ha hbegun heffect

end Sound

end EventSystem

end Hairtos

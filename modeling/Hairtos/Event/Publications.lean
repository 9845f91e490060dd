import Hairtos.Event.Sections
import Hairtos.Event.Subscriptions

namespace Hairtos

variable {C A : Type}

def firstFailure : List (A × Status) → Status
  | [] => .ok
  | attempt :: attempts => if attempt.2 ≠ .ok then attempt.2 else firstFailure attempts

theorem firstFailure_append (attempts : List (A × Status)) (target : A) (status : Status) :
    firstFailure (attempts ++ [(target, status)]) =
      if status ≠ .ok ∧ firstFailure attempts = .ok then status else firstFailure attempts := by
  induction attempts with
  | nil => simp [firstFailure]
  | cons attempt attempts ih =>
    by_cases hok : attempt.2 = .ok
    · simp [firstFailure, hok, ih]
    · simp [firstFailure, hok]

structure Publication.Exact (p : Publication A) (pending : List A) : Prop where
  snapshot_eq : p.snapshot = p.subscribers
  order : p.attempts.map Prod.fst ++ (pending ++ p.rest) = p.snapshot
  delivered_eq : p.delivered = p.attempts.countP (fun x => x.2 = .ok)
  overall_eq : p.overall = firstFailure p.attempts

theorem Publication.Exact.attempted {p : Publication A} {target : A} (h : p.Exact [target]) (status : Status) :
    (p.attempted target status).Exact [] := by
  refine ⟨h.snapshot_eq, ?_, ?_, ?_⟩
  · have := h.order
    simpa [Publication.attempted] using this
  · simp only [Publication.attempted, List.countP_append, h.delivered_eq]
    by_cases hok : status = .ok
    · simp [hok]
    · simp [hok]
  · simp only [Publication.attempted, firstFailure_append, h.overall_eq]

theorem Publication.Exact.next {p : Publication A} {target : A} {rest : List A} (h : p.Exact [])
    (hrest : p.rest = target :: rest) : Publication.Exact { p with rest := rest } [target] := by
  refine ⟨h.snapshot_eq, ?_, h.delivered_eq, h.overall_eq⟩
  have := h.order
  rwa [hrest] at this

def Taking.Exact : Taking A → Prop
  | .own _ => True
  | .share p target => p.Exact [target]

def Giving.Exact : Giving A → Prop
  | .own _ => True
  | .undo p target _ => p.Exact [target]
  | .consume p => p.Exact [] ∧ p.rest = []

def Origin.Exact (target : A) : Origin A → Prop
  | .plain _ _ => True
  | .shared p => p.Exact [target]

def Activity.Exact : Activity A → Prop
  | .retain taking => taking.Exact
  | .retainLocked taking => taking.Exact
  | .release giving => giving.Exact
  | .releaseLocked giving _ => giving.Exact
  | .post origin target => origin.Exact target
  | .send origin target => origin.Exact target
  | .blocked origin target => origin.Exact target
  | .publishing p => p.Exact []
  | .consume p => p.Exact [] ∧ p.rest = []
  | _ => True

def Returned.Exact : Returned A → Prop
  | .published p release result =>
    p.Exact [] ∧ p.rest = [] ∧ result = if release ≠ .ok ∧ p.overall = .ok then release else p.overall
  | _ => True

theorem Activity.posts_exact {activity : Activity A} {origin : Origin A} {target : A}
    (hposts : activity.posts = some (origin, target)) (h : activity.Exact) : origin.Exact target := by
  cases activity <;> simp_all [Activity.posts, Activity.Exact]

def Onward.Meets (P : Activity A → Prop) (R : Returned A → Prop) : Onward A → Prop
  | .goOn activity => P activity
  | .finish result _ => R result

theorem Taking.Exact.onward {taking : Taking A} (h : taking.Exact) (status : Status) :
    (taking.onward status).Meets Activity.Exact Returned.Exact := by
  cases taking with
  | own event => trivial
  | share p target =>
    rw [Taking.onward]
    split
    · exact h
    · exact Publication.Exact.attempted h status

theorem Giving.Exact.onward {giving : Giving A} (h : giving.Exact) (status : Status) :
    (giving.onward status).Meets Activity.Exact Returned.Exact := by
  cases giving with
  | own event => trivial
  | undo p target status => exact Publication.Exact.attempted h status
  | consume p => exact ⟨h.1, h.2, rfl⟩

theorem Origin.Exact.onward {target : A} {origin : Origin A} (h : origin.Exact target) (status : Status) :
    (origin.onward target status).Meets Activity.Exact Returned.Exact := by
  cases origin with
  | plain event wait => trivial
  | shared p =>
    rw [Origin.onward]
    split
    · exact Publication.Exact.attempted h status
    · exact h

namespace EventSystem

def All (P : Activity A → Prop) (R : Returned A → Prop) (s : EventSystem C A) : Prop :=
  ∀ c, P (s.threads c).activity ∧ ∀ r ∈ (s.threads c).results, R r

variable {s s₁ : EventSystem C A} {P : Activity A → Prop} {R : Returned A → Prop} {t : Target}
  {array : Nat → Option A} {signalCount : Nat} {activity : Activity A} {o : Onward A}

theorem All.of_threads (h : s.All P R) (hthreads : s₁.threads = s.threads) : s₁.All P R := fun c => by
  rw [hthreads]
  exact h c

def SnapshotInRange (t : Target) (s : EventSystem C A) : EventOp C A → Prop
  | .advance c =>
    match (s.threads c).activity with
    | .snapshot event _ => (t.loadEvent s.store.memory event).signal < s.table.signalCount
    | _ => True
  | _ => True

structure Subscribed (array : Nat → Option A) (signalCount : Nat) (s : EventSystem C A) : Prop where
  lists : s.table.Lists array s.subscriptions
  count : s.table.signalCount = signalCount

theorem startPublication_exact (hlists : s.table.Lists array s.subscriptions) {event : Nat} {wait : Bool}
    (hrange : (t.loadEvent s.store.memory event).signal < s.table.signalCount) :
    (s.startPublication t event wait).Exact [] :=
  ⟨hlists.snapshot_eq hrange, rfl, rfl, rfl⟩

variable [DecidableEq C]

theorem All.setThread (h : s.All P R) (c : C) {thread : Thread A} (hp : P thread.activity)
    (hr : ∀ r ∈ thread.results, R r) : (s.setThread c thread).All P R := by
  intro c'
  by_cases hc : c' = c
  · subst hc
    simpa [EventSystem.setThread] using ⟨hp, hr⟩
  · simpa [EventSystem.setThread, Function.update_of_ne hc] using h c'

theorem All.begin (h : s.All P R) (c : C) {activity : Activity A} {spent : Option Nat} (hp : P activity) :
    (s.begin c activity spent).All P R :=
  h.setThread c hp (h c).2

theorem All.proceed (h : s.All P R) (hidle : P .idle) (c : C) (ho : o.Meets P R) : (s.proceed c o).All P R := by
  cases o with
  | goOn activity => exact h.setThread c ho (h c).2
  | finish result gained =>
    refine h.setThread c hidle (fun r hmem => ?_)
    rcases List.mem_cons.mp hmem with rfl | hmem
    · exact ho
    · exact (h c).2 r hmem

variable [DecidableEq A]

theorem All.step (h : s.All P R) (hidle : P .idle) (hcall : ∀ c request, (s.call c request).All P R)
    {op : EventOp C A}
    (hthread : ∀ c s₁ o, Section t s (s.threads c).activity s₁ o →
      ((s.threads c).activity.posts = none → op = .advance c) → o.Meets P R) : (s.step t op).All P R := by
  have he := s.step_effect t op
  generalize s.step t op = s' at he ⊢
  cases he with
  | none => exact h
  | call c request => exact hcall c request
  | thread _ c activity s₁ o hbegun hvia heffect =>
    subst hbegun
    exact (h.of_threads heffect.threads).proceed hidle c (hthread c s₁ o heffect hvia)
  | loop _ a loop s' hbegun heffect =>
    refine h.of_threads ?_
    cases heffect <;> rfl

def Exact (s : EventSystem C A) : Prop := s.All Activity.Exact Returned.Exact

omit [DecidableEq C] in
theorem Section.exact (h : Section t s activity s₁ o) (hexact : activity.Exact)
    (hlists : s.table.Lists array s.subscriptions)
    (hrange : ∀ event wait, activity = .snapshot event wait →
      (t.loadEvent s.store.memory event).signal < s.table.signalCount) :
    o.Meets Activity.Exact Returned.Exact := by
  cases h with
  | retain taking status | retainLocked taking st status => exact Taking.Exact.onward hexact status
  | release giving status | releaseLocked giving pool st status => exact Giving.Exact.onward hexact status
  | fail _ origin target status hposts => exact (Activity.posts_exact hposts hexact).onward status
  | hand origin target | enqueue origin target | accept origin target event rest =>
    exact Origin.Exact.onward (show origin.Exact target from hexact) .ok
  | snapshot event wait => exact startPublication_exact hlists (hrange event wait rfl)
  | visit p target rest hnext => exact Publication.Exact.next hexact hnext
  | visited p hover => exact ⟨hexact, hover⟩
  | keep p => exact ⟨hexact.1, hexact.2, rfl⟩
  | enterRetain | enterRelease | enterSend | block | consume => exact hexact
  | _ => trivial

theorem Exact.step (h : s.Exact) (hlists : s.table.Lists array s.subscriptions) {op : EventOp C A}
    (hrange : s.SnapshotInRange t op) : (s.step t op).Exact := by
  refine All.step h trivial (fun c request => ?_) (fun c s₁ o hsection hvia => ?_)
  · cases request <;> exact All.begin h c trivial
  · refine hsection.exact (h c).1 hlists (fun event wait hact => ?_)
    obtain rfl := hvia (by rw [hact]; rfl)
    simpa only [SnapshotInRange, hact] using hrange

omit [DecidableEq C] [DecidableEq A] in
theorem Subscribed.refused (h : s.Subscribed array signalCount) {r : PubSub A × Status} (hr : r.1 = s.table)
    (hstatus : r.2 ≠ .ok) (signal : Nat) (change : List A → List A) :
    (s.withTable r signal change).Subscribed array signalCount := by
  simp only [EventSystem.withTable, if_neg hstatus, hr]
  exact ⟨h.lists, h.count⟩

omit [DecidableEq C] in
theorem Subscribed.subscribe (h : s.Subscribed array signalCount) (activeIsValid : A → Bool) (signal : Nat) (a : A) :
    (s.withTable (pubsubSubscribe s.table activeIsValid signal (some a)) signal (· ++ [a])).Subscribed array
      signalCount := by
  by_cases hrejects : s.table.rejects activeIsValid signal a
  · exact h.refused (by simp [pubsubSubscribe, hrejects]) (by simp [pubsubSubscribe, hrejects]) signal _
  by_cases hmem : a ∈ s.subscriptions signal
  · rw [h.lists.subscribe_again hrejects hmem]
    exact h.refused rfl (by simp) signal _
  by_cases hfull : (s.subscriptions signal).length = s.table.maxSubscribers
  · rw [h.lists.subscribe_full hrejects hmem hfull]
    exact h.refused rfl (by simp) signal _
  obtain ⟨slots, hresult, hlists⟩ := h.lists.subscribe_appends hrejects hmem
    (Nat.lt_of_le_of_ne (h.lists.length_le signal) hfull)
  rw [hresult]
  exact ⟨hlists, h.count⟩

omit [DecidableEq C] in
theorem Subscribed.unsubscribe (h : s.Subscribed array signalCount) (activeIsValid : A → Bool) (signal : Nat)
    (a : A) :
    (s.withTable (pubsubUnsubscribe s.table activeIsValid signal (some a)) signal (·.erase a)).Subscribed array
      signalCount := by
  by_cases hrejects : s.table.rejects activeIsValid signal a
  · exact h.refused (by simp [pubsubUnsubscribe, hrejects]) (by simp [pubsubUnsubscribe, hrejects]) signal _
  by_cases hmem : a ∈ s.subscriptions signal
  · obtain ⟨slots, hresult, hlists⟩ := h.lists.unsubscribe_erases hrejects hmem
    rw [hresult]
    exact ⟨hlists, h.count⟩
  · rw [h.lists.unsubscribe_absent hrejects hmem]
    exact h.refused rfl (by simp) signal _

theorem Subscribed.step (h : s.Subscribed array signalCount) (op : EventOp C A) :
    (s.step t op).Subscribed array signalCount := by
  have he := s.step_effect t op
  generalize s.step t op = s' at he ⊢
  cases he with
  | none => exact h
  | call c request => cases request <;> exact ⟨h.lists, h.count⟩
  | thread _ c activity s₁ o hbegun hvia heffect =>
    suffices hs : s₁.Subscribed array signalCount by
      cases o <;> exact ⟨hs.lists, hs.count⟩
    cases heffect with
    | subscribe signal a r heq => exact heq ▸ h.subscribe _ signal a
    | unsubscribe signal a r heq => exact heq ▸ h.unsubscribe _ signal a
    | _ => exact ⟨h.lists, h.count⟩
  | loop _ a loop s' hbegun heffect => cases heffect <;> exact ⟨h.lists, h.count⟩

end EventSystem

end Hairtos

import Hairtos.Invariant.Blocking
import Hairtos.Invariant.QueueStep

namespace Hairtos

open Library

structure System.Over (s : System) (t : TaskRef) (result : Status) : Prop where
  wait : (s.kernel.tasks t).wait = none
  result : (s.kernel.tasks t).waitResult = result
  waitLists : ∀ l, t ∉ s.kernel.waitLists.lists.seq l
  timeouts : ∀ l, t ∉ s.kernel.timeoutList.lists.seq l

structure Unaffected (t : TaskRef) (s s' : System) : Prop where
  events : s'.eventsOf t = s.eventsOf t
  owned : SameOwned t s s'

structure SameObjects (s s' : System) : Prop where
  queues : s'.queues = s.queues
  semaphores : s'.semaphores = s.semaphores
  mutexes : s'.mutexes = s.mutexes
  memory : s'.memory = s.memory
  history : s'.history = s.history

structure Grants (t : TaskRef) (w : Wait) (s s' : System) : Prop where
  event : ∃ e, w.GrantedBy t e ∧ s'.eventsOf t = s.eventsOf t ++ [e]
  owned : ∀ m, s'.mutexes.Owns t m ↔ s.mutexes.Owns t m ∨ w = .mutexLock m

def Elapses (ticks : Option Tick) (xs : List Op) (o : Op) : Prop :=
  o = .tick ∧ ∃ d, ticks = some d ∧ ticksIn xs + 1 = d.toNat

structure EndsWith (cfg : Config) (t : TaskRef) (w : Wait) (ticks : Option Tick) (s : System) (xs : List Op) (o : Op)
    (ys : List Op) (result : Status) : Prop where
  pending : ∀ us vs, xs = us ++ vs → ((exec cfg s us).kernel.tasks t).wait = some w ∧
    Unaffected t s (exec cfg s us)
  after : ∀ us vs, ys = us ++ vs → (exec cfg s (xs ++ o :: us)).Over t result
  ok : result = .ok ↔ Grants t w s (exec cfg s (xs ++ o :: ys)) ∨ w = .delay ∧ Elapses ticks xs o
  timeout : result = .timeout ↔ w ≠ .delay ∧ Elapses ticks xs o
  either : result = .ok ∨ result = .timeout
  harmless : result = .timeout → Unaffected t s (exec cfg s (xs ++ o :: ys)) ∧
    ∀ q b, w = .queueReceive q b → ∀ us u vs, xs ++ o :: ys = us ++ u :: vs →
      (exec cfg s (us ++ [u])).memory b ≠ (exec cfg s us).memory b →
        u.fills b ∨ ∃ v p, v ≠ t ∧ ((exec cfg s us).kernel.tasks v).wait = some (.queueReceive p b)

section

variable {cfg : Config} {s s' : System} {t : TaskRef} {w : Wait} {ticks : Option Tick}

theorem exists_first_failure {A : Type} (P : List A → Prop) (l : List A) (h0 : P []) (h1 : ¬ P l) :
    ∃ xs a ys, l = xs ++ a :: ys ∧ (∀ us vs, xs = us ++ vs → P us) ∧ ¬ P (xs ++ [a]) := by
  induction l generalizing P with
  | nil => exact absurd h0 h1
  | cons a l ih =>
    by_cases ha : P [a]
    · obtain ⟨xs, b, ys, rfl, hxs, hb⟩ := ih (fun us => P (a :: us)) ha h1
      refine ⟨a :: xs, b, ys, rfl, ?_, hb⟩
      intro us vs he
      cases us with
      | nil => exact h0
      | cons c us =>
        obtain ⟨rfl, he'⟩ := List.cons.inj he
        exact hxs us vs he'
    · refine ⟨[], a, l, rfl, ?_, ha⟩
      intro us vs he
      obtain ⟨rfl, -⟩ := List.append_eq_nil_iff.mp he.symm
      exact h0

theorem System.Good.isOver (g : s.Good cfg) (hw : (s.kernel.tasks t).wait = none) :
    s.Over t (s.kernel.tasks t).waitResult := by
  have hshape := g.kernel.shape t
  have hwait : s.kernel.waitLists.lists.host t = none := hshape.waitHost_none hw
  have htimeout : s.kernel.timeoutList.lists.host t = none := hshape.timeoutHost_none hw
  exact ⟨hw, rfl, s.kernel.waitLists.lists.not_mem_of_host_none hwait,
    s.kernel.timeoutList.lists.not_mem_of_host_none htimeout⟩

theorem System.Steady.left_pos (hs : s.Steady cfg) {n : Nat} (hn : s.kernel.timeoutList.left t = some n) : 0 < n := by
  obtain ⟨hw, rfl⟩ := TimeoutList.left_eq_some hn (s.kernel.quiet_iff.mp hs.quiet t)
  exact hs.good.kernel.timeouts.remaining_pos hw

theorem Begins.left (h : Begins s t w ticks s') (g : s.Good cfg) :
    s'.kernel.timeoutList.left t = ticks.map BitVec.toNat := by
  have hnone := (g.kernel.running_shape h.starts.runs.running).2.2.2.1
  rw [h.starts.timeoutList, s.kernel.enterTimeout_left g.kernel.timeouts hnone ticks h.starts.finite, if_pos rfl]

theorem Turn.of_waiting {n : Nat} (h : Turn t n s s') (hw : (s.kernel.tasks t).wait = some w)
    (hw' : (s'.kernel.tasks t).wait ≠ none) :
    (s'.kernel.tasks t).wait = some w ∧ Unaffected t s s' ∧
      s.kernel.timeoutList.left t = (s'.kernel.timeoutList.left t).map (· + n) := by
  cases h with
  | idle before => simp [hw] at before
  | kept v before after result left events owned =>
    obtain rfl : w = v := Option.some.inj (hw.symm.trans before)
    exact ⟨after, ⟨events, owned⟩, left⟩
  | granted _ _ _ after => exact absurd after hw'
  | expired _ _ _ after => exact absurd after hw'

theorem Turn.of_served {n : Nat} (h : Turn t n s s') (hw : (s.kernel.tasks t).wait = some w)
    (hdelay : w ≠ .delay) (hw' : (s'.kernel.tasks t).wait = none) (hok : (s'.kernel.tasks t).waitResult = .ok) :
    s'.eventsOf t ≠ s.eventsOf t := by
  cases h with
  | idle before => simp [hw] at before
  | kept v before after => simp [hw'] at after
  | granted v e before after result grants events =>
    rw [events]
    simp
  | expired v n before after result =>
    obtain rfl : w = v := Option.some.inj (hw.symm.trans before)
    have htimeout : w.deadlineResult = .timeout := by cases w <;> first | rfl | exact absurd rfl hdelay
    rw [hok, htimeout] at result
    cases result

theorem wait_ends (h : Watched cfg t s) (hnot : (s.kernel.tasks t).state ≠ .running)
    (hw : (s.kernel.tasks t).wait = some w) {op : Op} (hdone : ((step cfg s op).kernel.tasks t).wait = none) :
    (((step cfg s op).kernel.tasks t).waitResult = .ok ∧ Grants t w s (step cfg s op) ∧ w ≠ .delay ∧
      ¬ (op = .tick ∧ s.kernel.timeoutList.left t = some 1)) ∨
    (((step cfg s op).kernel.tasks t).waitResult = w.deadlineResult ∧ Unaffected t s (step cfg s op) ∧
      op = .tick ∧ s.kernel.timeoutList.left t = some 1) := by
  have hturn := h.turn hnot op
  cases hturn with
  | idle before => simp [hw] at before
  | kept v before after => simp [hdone] at after
  | granted v e before after result grants events owned =>
    obtain rfl : w = v := Option.some.inj (hw.symm.trans before)
    refine Or.inl ⟨result, ⟨⟨e, grants, events⟩, owned⟩, ?_, ?_⟩
    · rintro rfl
      exact grants
    · -- the tick of the deadline has no event for the task
      rintro ⟨rfl, hleft⟩
      have hcompletes := (kernelTickFromIsr_effect h.steady.good h.steady.quiet h.started).completes h.steady.quiet
        h.magic hnot hw hleft
      have heq : (step cfg s .tick).eventsOf t = s.eventsOf t := hcompletes.2.2.1
      rw [heq] at events
      simp at events
  | expired v n before after result left due events owned =>
    obtain rfl : w = v := Option.some.inj (hw.symm.trans before)
    have hpos := h.steady.left_pos left
    obtain rfl : op = .tick := by
      cases op <;> first | rfl | (simp only [Op.ticks] at due; omega)
    obtain rfl : n = 1 := by
      simp only [Op.ticks] at due
      omega
    exact Or.inr ⟨result, ⟨events, owned⟩, rfl, left⟩

theorem Unaffected.trans {s'' : System} (h : Unaffected t s s') (h' : Unaffected t s' s'') : Unaffected t s s'' :=
  ⟨h'.events.trans h.events, h.owned.trans h'.owned⟩

theorem Grants.of_unaffected {s₀ s₁ : System} (h : Grants t w s s') (hb : Unaffected t s₀ s)
    (ha : Unaffected t s' s₁) : Grants t w s₀ s₁ := by
  obtain ⟨⟨e, he, hevents⟩, howned⟩ := h
  refine ⟨⟨e, he, ?_⟩, fun m => ?_⟩
  · rw [ha.events, hevents, hb.events]
  · rw [ha.owned m, howned m, hb.owned m]

theorem Grants.not_unaffected (h : Grants t w s s') : ¬ Unaffected t s s' := by
  intro hsame
  obtain ⟨⟨e, -, hevents⟩, -⟩ := h
  rw [hsame.events] at hevents
  simp at hevents

theorem Watched.stays_over (h : Watched cfg t s) (hw : (s.kernel.tasks t).wait = none) {ops : List Op}
    (habsent : Absent cfg t s ops) {us vs : List Op} (he : ops = us ++ vs) :
    (Hairtos.exec cfg s us).Over t (s.kernel.tasks t).waitResult ∧ Unaffected t s (Hairtos.exec cfg s us) := by
  subst he
  obtain ⟨hdone, hresult, hevents, howned⟩ := (h.exec_turn habsent.append.1).of_done hw
  refine ⟨?_, hevents, howned⟩
  rw [← hresult]
  exact (h.exec us).steady.good.isOver hdone

theorem Watched.stays_pending (h : Watched cfg t s) (hw : (s.kernel.tasks t).wait = some w) {ops : List Op}
    (habsent : Absent cfg t s ops) (hpending : ((Hairtos.exec cfg s ops).kernel.tasks t).wait ≠ none) :
    ((Hairtos.exec cfg s ops).kernel.tasks t).wait = some w ∧ Unaffected t s (Hairtos.exec cfg s ops) ∧
      s.kernel.timeoutList.left t = ((Hairtos.exec cfg s ops).kernel.timeoutList.left t).map (· + ticksIn ops) :=
  (h.exec_turn habsent).of_waiting hw hpending

theorem buffer_filled_by (h : Watched cfg t s) (hnot : (s.kernel.tasks t).state ≠ .running) {op : Op} {b : BufferRef}
    (hevents : (step cfg s op).eventsOf t = s.eventsOf t) (hne : (step cfg s op).memory b ≠ s.memory b) :
    op.fills b ∨ ∃ v p, v ≠ t ∧ (s.kernel.tasks v).wait = some (.queueReceive p b) := by
  rcases step_memory h.steady hne with hfills | ⟨v, p, hv, hdone, hok⟩
  · exact Or.inl hfills
  · refine Or.inr ⟨v, p, ?_, hv⟩
    rintro rfl
    exact (h.turn hnot op).of_served hv (by simp) hdone hok hevents

theorem exec_concat (cfg : Config) (s : System) (xs : List Op) (o : Op) :
    exec cfg s (xs ++ [o]) = step cfg (exec cfg s xs) o := exec_append cfg s xs [o]

theorem exists_ending (h : Watched cfg t s) (hw : (s.kernel.tasks t).wait = some w) {after : List Op}
    (habsent : Absent cfg t s after) (hdone : ((exec cfg s after).kernel.tasks t).wait = none) :
    ∃ xs o ys, after = xs ++ o :: ys ∧
      (∀ us vs, xs = us ++ vs → ((exec cfg s us).kernel.tasks t).wait = some w ∧
        Unaffected t s (exec cfg s us) ∧
        s.kernel.timeoutList.left t = ((exec cfg s us).kernel.timeoutList.left t).map (· + ticksIn us)) ∧
      ((step cfg (exec cfg s xs) o).kernel.tasks t).wait = none := by
  obtain ⟨xs, o, ys, rfl, hpending, hended⟩ := exists_first_failure
    (fun us => ((exec cfg s us).kernel.tasks t).wait ≠ none) after (by simp [exec, hw]) (not_not.mpr hdone)
  refine ⟨xs, o, ys, rfl, ?_, ?_⟩
  · rintro us vs rfl
    exact h.stays_pending hw habsent.append.1.append.1 (hpending us vs rfl)
  · rw [← exec_concat]
    exact not_not.mp hended

theorem buffer_kept (h : Watched cfg t s) {ops : List Op} (habsent : Absent cfg t s ops)
    (hall : ∀ us vs, ops = us ++ vs → Unaffected t s (exec cfg s us)) {b : BufferRef} {us vs : List Op} {u : Op}
    (he : ops = us ++ u :: vs) (hne : (exec cfg s (us ++ [u])).memory b ≠ (exec cfg s us).memory b) :
    u.fills b ∨ ∃ v p, v ≠ t ∧ ((exec cfg s us).kernel.tasks v).wait = some (.queueReceive p b) := by
  have hevents := (hall (us ++ [u]) vs (by simp [he])).events.trans (hall us (u :: vs) he).events.symm
  rw [exec_concat] at hevents hne
  exact buffer_filled_by (h.exec us) (habsent us u vs he) hevents hne

theorem exists_endsWith (h : Watched cfg t s) (hw : (s.kernel.tasks t).wait = some w)
    (hleft : s.kernel.timeoutList.left t = ticks.map BitVec.toNat) {after : List Op} (habsent : Absent cfg t s after)
    (hdone : ((exec cfg s after).kernel.tasks t).wait = none) :
    ∃ xs o ys result, after = xs ++ o :: ys ∧ EndsWith cfg t w ticks s xs o ys result := by
  obtain ⟨xs, o, ys, rfl, hwaits, hended⟩ := exists_ending h hw habsent hdone
  obtain ⟨hw', hbefore, hticks⟩ := hwaits xs [] (List.append_nil xs).symm
  have hpending := fun us vs he => And.intro (hwaits us vs he).1 (hwaits us vs he).2.1
  have hover : ∀ us vs, ys = us ++ vs →
      (exec cfg s (xs ++ o :: us)).Over t ((step cfg (exec cfg s xs) o).kernel.tasks t).waitResult ∧
      Unaffected t (step cfg (exec cfg s xs) o) (exec cfg s (xs ++ o :: us)) := by
    intro us vs he
    rw [exec_append cfg s xs (o :: us)]
    exact ((h.exec xs).step o).stays_over hended
      (fun as op bs hx => habsent.append.2 (o :: as) op bs (by rw [hx]; rfl)) he
  have helapses : o = .tick ∧ (exec cfg s xs).kernel.timeoutList.left t = some 1 ↔ Elapses ticks xs o := by
    refine and_congr_right fun _ => ?_
    rw [hleft] at hticks
    cases ticks <;> cases hx : (exec cfg s xs).kernel.timeoutList.left t <;> simp_all
    omega
  have hafter := (hover ys [] (List.append_nil ys).symm).2
  refine ⟨xs, o, ys, ((step cfg (exec cfg s xs) o).kernel.tasks t).waitResult, rfl, ?_⟩
  rcases wait_ends (h.exec xs) (habsent xs o ys rfl) hw' hended with
    ⟨hresult, hgrants, hdelay, hearly⟩ | ⟨hresult, hunaffected, hdue⟩
  · rw [helapses] at hearly
    simp only [hresult] at hover ⊢
    exact ⟨hpending, fun us vs he => (hover us vs he).1, by simp [hgrants.of_unaffected hbefore hafter],
      by simp [hearly], Or.inl rfl, by simp⟩
  · rw [helapses] at hdue
    by_cases hdelay : w = .delay
    · subst hdelay
      simp only [hresult, Wait.deadlineResult] at hover ⊢
      exact ⟨hpending, fun us vs he => (hover us vs he).1, by simp [hdue], by simp, Or.inl rfl, by simp⟩
    · have htimeout : w.deadlineResult = .timeout := by cases w <;> first | rfl | exact absurd rfl hdelay
      simp only [hresult, htimeout] at hover ⊢
      have hall : ∀ us vs, xs ++ o :: ys = us ++ vs → Unaffected t s (exec cfg s us) := by
        intro us vs he
        rcases List.append_eq_append_iff.mp he with ⟨cs, rfl, hcs⟩ | ⟨cs, hcs, -⟩
        · cases cs with
          | nil => simpa using hbefore
          | cons c cs =>
            obtain ⟨rfl, hys⟩ := List.cons.inj hcs
            exact (hbefore.trans hunaffected).trans (hover cs vs hys).2
        · exact (hwaits us cs hcs).2.1
      have hwhole := hall (xs ++ o :: ys) [] (List.append_nil _).symm
      have hno : ¬ Grants t w s (exec cfg s (xs ++ o :: ys)) := fun hg => hg.not_unaffected hwhole
      exact ⟨hpending, fun us vs he => (hover us vs he).1, by simp [hno, hdelay], by simp [hdelay, hdue], Or.inr rfl,
        fun _ => ⟨hwhole, fun q b _ us u vs he hne => buffer_kept h habsent hall he hne⟩⟩

theorem SameObjects.unaffected (h : SameObjects s s') : Unaffected t s s' :=
  ⟨by rw [System.eventsOf, h.history]; rfl, fun m => by rw [h.mutexes]⟩

/-- A call that blocks leaves the objects alone, and its wait ends exactly once before the task runs again.
The result is ok if the object granted the wait or the delay elapsed, and it is the timeout if the
deadline came first, which then has no effect on the object. Only a lock request that would close a
cycle of waits has another result. -/
theorem wait_completes_once (hs : Reachable cfg s) {op : Op} {after : List Op}
    (hcurrent : s.kernel.currentTask = some t) (hblocks : op.blocks cfg s = true)
    (hrequest : op.request s = some (w, ticks)) (habsent : Absent cfg t (step cfg s op) after)
    (hagain : ((exec cfg (step cfg s op) after).kernel.tasks t).state = .running) :
    SameObjects s (step cfg s op) ∧
    ((∃ m, w = .mutexLock m ∧
        (∃ o, (s.mutexes.blocks m).owner = some o ∧
          Relation.ReflTransGen (fun a b => waitsFor s.kernel s.mutexes a = some b) o t) ∧
        ∀ us vs, after = us ++ vs → (exec cfg (step cfg s op) us).Over t .internal ∧
          Unaffected t s (exec cfg (step cfg s op) us)) ∨
      ∃ xs o ys result, after = xs ++ o :: ys ∧ EndsWith cfg t w ticks (step cfg s op) xs o ys result) := by
  have hsteady := reachable_steady hs
  have hwatched := ((runs_of_blocks hsteady hcurrent hblocks).watched hsteady).step op
  obtain ⟨w', ticks', hrequest', hbegins | ⟨m, rfl, hdown⟩⟩ := step_begins hsteady hcurrent hblocks
  · obtain ⟨rfl, rfl⟩ : w = w' ∧ ticks = ticks' := by simpa [hrequest] using hrequest'
    have hsame : SameObjects s (step cfg s op) := by
      rw [hbegins.frame]
      exact ⟨rfl, rfl, rfl, rfl, rfl⟩
    have hdone : ((exec cfg (step cfg s op) after).kernel.tasks t).wait = none :=
      ((hwatched.exec after).steady.good.kernel.running_shape hagain).2.1
    exact ⟨hsame, Or.inr (exists_endsWith hwatched hbegins.starts.wait (hbegins.left hsteady.good) habsent hdone)⟩
  · obtain ⟨rfl, rfl⟩ : w = .mutexLock m ∧ ticks = ticks' := by simpa [hrequest] using hrequest'
    have hsame : SameObjects s (step cfg s op) := by
      rw [hdown.frame]
      exact ⟨rfl, rfl, rfl, rfl, rfl⟩
    refine ⟨hsame, Or.inl ⟨m, rfl, hdown.cycle, fun us vs he => ?_⟩⟩
    obtain ⟨hover, hunaffected⟩ := hwatched.stays_over hdown.wait habsent he
    rw [hdown.result] at hover
    exact ⟨hover, hsame.unaffected.trans hunaffected⟩

end

def takeRun : List Op :=
  launch 0 1 ++ launch 1 2 ++ [.task (.semaphoreCreateCounting (some 0) 0 1), .start]

theorem wait_completes_once_takeRun :
    ∃ xs o ys result, [Op.pendsv, .tick, .tick, .pendsv] = xs ++ o :: ys ∧
      EndsWith .standard (.app 0) (.semaphoreTake (.app 0)) (some 2#32)
        (step .standard (exec .standard (boot .standard) takeRun) (.task (.semaphoreTake (some 0) 2#32)))
        xs o ys result := by
  obtain ⟨-, ⟨m, hm, -⟩ | hends⟩ :=
    @wait_completes_once .standard _ (.app 0) (.semaphoreTake (.app 0)) (some 2#32)
    ⟨takeRun, rfl⟩ (.task (.semaphoreTake (some 0) 2#32)) [.pendsv, .tick, .tick, .pendsv] (by decide +kernel)
    (by decide +kernel) rfl (by decide +kernel) (by decide +kernel)
  · cases hm
  · exact hends

end Hairtos

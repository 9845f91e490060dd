import Hairtos.Invariant.Alarms
import Hairtos.Invariant.TickStep
import Hairtos.Invariant.Turn

namespace Hairtos

open Library

def Orderly (ms : Mutexes) (k : Kernel) (order : List TaskRef) : Prop :=
  (∃ t ∈ order, ∃ m, (k.tasks t).wait = some (.mutexLock m)) → ∀ u, Balanced k ms u

structure Lapsed (ms : Mutexes) (k : Kernel) (order : List TaskRef) (k' : Kernel) : Prop where
  frame : k' = { k with
    tick := k'.tick
    tasks := k'.tasks
    scheduler := k'.scheduler
    waitLists := k'.waitLists
    timeoutList := k'.timeoutList }
  waited : ∀ u ∈ order, (k.tasks u).wait ≠ none
  others : ∀ u, u ∉ order → k'.tasks u = { k.tasks u with effectivePriority := (k'.tasks u).effectivePriority }
  states : ∀ u ∈ order, (k'.tasks u).state = .ready ∧ (k.tasks u).state = .blocked ∨
    (k'.tasks u).state = .suspended ∧ (k.tasks u).state = .suspended
  base : ∀ u, (k'.tasks u).basePriority = (k.tasks u).basePriority
  waits : ∀ u w, (k'.tasks u).wait = some w → (k.tasks u).wait = some w
  same : (∀ t ∈ order, ∀ m, (k.tasks t).wait ≠ some (.mutexLock m)) →
    ∀ u, (k'.tasks u).effectivePriority = (k.tasks u).effectivePriority
  rises : Orderly ms k order → ∀ u, (k.tasks u).effectivePriority ≤ (k'.tasks u).effectivePriority
  balanced : (∀ u, Balanced k ms u) → ∀ u, Balanced k' ms u
  keeps : Orderly ms k order → k.Keeps k'

section

variable {cfg : Config} {s s' : System} {k k' k'' : Kernel} {ms : Mutexes} {t : TaskRef} {order : List TaskRef}

theorem Lapsed.nil (ms : Mutexes) (k : Kernel) : Lapsed ms k [] k where
  frame := rfl
  waited := by simp
  others := fun _ _ => rfl
  states := by simp
  base := fun _ => rfl
  waits := fun _ _ h => h
  same := fun _ _ => rfl
  rises := fun _ _ => le_rfl
  balanced := id
  keeps := fun _ => .of_eq rfl

theorem Woken.base {result : Status} (h : Woken cfg k t result k') (u : TaskRef) :
    (k'.tasks u).basePriority = (k.tasks u).basePriority := by
  by_cases hu : u = t
  · rw [hu, h.task]
    rfl
  · rw [h.others u hu]

theorem Kernel.Sound.state_of_wait (g : k.Sound cfg) {w : Wait} (hw : (k.tasks t).wait = some w) :
    (k.tasks t).state = .blocked ∨ (k.tasks t).state = .suspended := by
  have hwaits : (k.tasks t).isWaiting = true := (g.shape t).waiting.mp (by simp [Kernel.view, hw])
  simp only [TaskControlBlock.isWaiting, Bool.or_eq_true, Bool.and_eq_true, decide_eq_true_eq] at hwaits
  exact hwaits.imp id And.left

theorem Lapsed.cons (g : k.Sound cfg) {w : Wait} {result : Status} (hwait : (k.tasks t).wait = some w)
    (hwoken : Woken cfg k t result k') (hl : Lapses ms k t k')
    (hbal : (∀ u, Balanced k ms u) → ∀ u, Balanced k' ms u) (ht : t ∉ order) (h : Lapsed ms k' order k'') :
    Lapsed ms k (t :: order) k'' := by
  have hwaits : ∀ u w, (k''.tasks u).wait = some w → (k.tasks u).wait = some w :=
    fun u w hu => (hwoken.wait_eq_some (h.waits u w hu)).2
  have horderly : Orderly ms k (t :: order) → Orderly ms k' order := by
    rintro ho ⟨u, hu, m, hm⟩
    exact hbal (ho ⟨u, List.mem_cons_of_mem t hu, m, (hwoken.wait_eq_some hm).2⟩)
  -- The first task lifts others only if it waited for a mutex.
  have hfirst : Orderly ms k (t :: order) → ∀ u, (k.tasks u).effectivePriority ≤
    (k'.tasks u).effectivePriority := by
    intro ho u
    by_cases hu : (k'.tasks u).effectivePriority = (k.tasks u).effectivePriority
    · exact hu.ge
    · obtain ⟨m, hm⟩ := hl.locks u hu
      exact (hl.lifts (ho ⟨t, List.mem_cons_self, m, hm⟩) u).1
  have hself : (k'.tasks t).state = .ready ∧ (k.tasks t).state = .blocked ∨
      (k'.tasks t).state = .suspended ∧ (k.tasks t).state = .suspended := by
    rw [hwoken.task]
    rcases g.state_of_wait hwait with hs | hs
    · exact Or.inl ⟨by simp [wokenBlock, hs], hs⟩
    · exact Or.inr ⟨by simp [wokenBlock, hs], hs⟩
  refine ⟨?_, ?_, ?_, ?_, fun u => (h.base u).trans (hwoken.base u), hwaits, ?_, ?_, fun hb => h.balanced (hbal hb),
    ?_⟩
  · rw [h.frame, hwoken.frame]
  · intro u hu
    rcases List.mem_cons.mp hu with rfl | hu
    · simp [hwait]
    · obtain ⟨w', hw'⟩ := Option.ne_none_iff_exists'.mp (h.waited u hu)
      simp [(hwoken.wait_eq_some hw').2]
  · intro u hu
    obtain ⟨hut, hu⟩ := not_or.mp (mt List.mem_cons.mpr hu)
    rw [h.others u hu, hwoken.others u hut]
  · intro u hu
    by_cases hut : u = t
    · subst hut
      rwa [h.others u ht]
    · have hu := h.states u ((List.mem_cons.mp hu).resolve_left hut)
      rwa [hwoken.others u hut] at hu
  · intro hno u
    have hrest := h.same (fun v hv m hm => hno v (List.mem_cons_of_mem t hv) m (hwoken.wait_eq_some hm).2) u
    by_contra hu
    obtain ⟨m, hm⟩ := hl.locks u (fun he => hu (hrest.trans he))
    exact hno t List.mem_cons_self m hm
  · intro ho u
    exact (hfirst ho u).trans (h.rises (horderly ho) u)
  · intro ho
    have hlast := h.rises (horderly ho)
    have hwaiting : ∀ u, (k.tasks u).wait ≠ none → (k.tasks u).isWaiting = true := fun u hu =>
      (g.shape u).waiting.mp hu
    have hwaits' : ∀ u, (k'.tasks u).isWaiting = true → (k.tasks u).isWaiting = true := by
      intro u hu
      by_cases hut : u = t
      · exact hwaiting u (by simp [hut, hwait])
      · rwa [hwoken.others u hut] at hu
    refine Kernel.Requeued.trans (hl.keeps.mono ?_) ((h.keeps (horderly ho)).mono ?_)
    · rintro u (hu | hu | hu)
      · exact Or.inl hu
      · by_cases hut : u = t
        · exact Or.inl (hwaiting u (by simp [hut, hwait]))
        · exact absurd (by rw [hwoken.others u hut]) hu
      · refine Or.inr (Or.inr fun he => hu ?_)
        exact le_antisymm (he ▸ hlast u) (hfirst ho u)
    · rintro u (hu | hu | hu)
      · exact Or.inl (hwaits' u hu)
      · by_cases hmem : u ∈ order
        · obtain ⟨w', hw'⟩ := Option.ne_none_iff_exists'.mp (h.waited u hmem)
          exact Or.inl (hwaiting u (by simp [(hwoken.wait_eq_some hw').2]))
        · exact absurd (by rw [h.others u hmem]) hu
      · refine Or.inr (Or.inr fun he => hu ?_)
        exact le_antisymm (he ▸ hfirst ho u) (hlast u)

theorem Expiry.lapsed (h : Expiry cfg s order s') (g : s.kernel.Sound cfg) :
    Lapsed s.mutexes s.kernel order s'.kernel := by
  induction h with
  | nil => exact .nil _ _
  | @cons s s' t rest w k hfirst hwait hwoken hacts hlapses hbal hnext ih =>
    have hnodup := s.kernel.timeoutList.lists.nodup .expired
    rw [hfirst] at hnodup
    exact .cons g hwait hwoken hlapses hbal (List.nodup_cons.mp hnodup).1 (ih hacts.good.kernel.toSound)

theorem due_of_woken (h : s.Timed cfg) (k : Kernel) (hk : k.tick = s.kernel.tick + 1#32)
    (hwoken : (timerTickFromIsr cfg { s with kernel := k } k.tick).2 = true) :
    ∃ t, s.timers.timeouts.left t = some 1 := by
  cases hi : s.timers.initialized with
  | false => simp [timerTickFromIsr, hi] at hwoken
  | true =>
    obtain ⟨ts, xs, heq, -, -, -, -, hdue, -, -, -, -⟩ :=
      timerTickFromIsr_eq (s := { s with kernel := k }) h.sound h.quiet (h.enabled hi) hi
    rw [hk, ← h.clock hi] at hwoken
    rw [heq] at hwoken
    cases xs with
    | nil => simp at hwoken
    | cons t xs =>
      have ht : (s.timers.alarm t).left = some 1 := by simpa [Alarm.due] using (hdue t).mp List.mem_cons_self
      exact ⟨t, ht⟩

structure TickParts (cfg : Config) (s : System) (c : TaskRef) (order : List TaskRef) (k : Kernel) (s₃ : System)
    (woken : Bool) : Prop where
  current : s.kernel.currentTask = some c
  due : ∀ t ∈ order, s.kernel.timeoutList.left t = some 1
  lapsed : Lapsed s.mutexes s.kernel order k
  good : ({ s with kernel := k } : System).Good cfg
  timers : TimerTick cfg { s with kernel := k } s₃ woken
  expired : woken = true → ∃ t, s.timers.timeouts.left t = some 1
  good₃ : s₃.Good cfg
  result : kernelTickFromIsr cfg s = { s₃ with kernel := kernelTickEnd cfg s₃.kernel c woken }

theorem tick_parts (hs : s.Steady cfg) (ht : s.Timed cfg) (hk : s.kernel.state = .running) :
    ∃ c order k s₃ woken, TickParts cfg s c order k s₃ woken := by
  obtain ⟨tl, order, k, s₃, woken, c, hrun, he⟩ := kernelTickFromIsr_run hs.good hs.quiet hk
  obtain ⟨owed, htrace⟩ := hrun.trace
  have hl : Lapsed s.mutexes (s.ticked tl).kernel order k := hrun.expiry.lapsed hrun.begun.kernel.toSound
  refine ⟨c, order, k, s₃, woken, ?_, fun t hmem => ?_, ?_, hrun.good, hrun.timers, fun hwoken => ?_,
    hrun.good₃, he⟩
  · rw [← hrun.current, htrace.sameRun.currentTask]
    exact hrun.sameRun.currentTask.symm
  · rw [← hrun.seq] at hmem
    exact hrun.advance.left_of_expired ((tl.lists.mem_seq _ _).mp hmem)
  · exact { hl with frame := by rw [hl.frame]; rfl }
  · exact due_of_woken ht k hrun.sameRun.tick (by rw [hrun.result, hwoken])

end

end Hairtos

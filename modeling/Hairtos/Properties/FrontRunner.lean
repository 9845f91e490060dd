import Hairtos.Invariant.Mild
import Hairtos.Invariant.TickStep
import Hairtos.Invariant.Turn
import Hairtos.Library.Runs
import Hairtos.Properties.Inheritance
import Hairtos.Properties.Scheduling

namespace Hairtos

open Library

variable {woken : Bool} {m : MutexRef} {next : Option TaskRef} {v : TaskRef} {w : Wait}

def Kernel.Outranked (k : Kernel) (c : TaskRef) : Prop :=
  ∃ u, (k.tasks u).state = .ready ∧ (k.tasks u).effectivePriority < (k.tasks c).effectivePriority

def Kernel.IsFront (k : Kernel) (c : TaskRef) : Prop :=
  (k.scheduler.queues.seq (k.tasks c).effectivePriority).head? = some c

def Kernel.Fronted (k : Kernel) : Prop :=
  ∀ c, k.currentTask = some c → (k.tasks c).state = .running → k.IsFront c ∨ k.Outranked c

def LastUnlock (s : System) (m : MutexRef) : Prop :=
  (s.mutexes.blocks m).owner = s.kernel.currentTask ∧
    ¬ ((s.mutexes.blocks m).recursive = true ∧ 1 < (s.mutexes.blocks m).recursionCount)

/-- The result of a from-ISR call is honoured. No READY task that outranks the RUNNING one is suspended. Where an unlock
or a deadline may change priorities, they are those that inheritance requires, and the waiter is not suspended. -/
def SparesFront (s : System) : Op → Prop
  | .isr _ honoured => honoured = true
  | .task (.taskSuspend (some u)) =>
    ¬ ((s.kernel.tasks u).state = .ready ∧ kernelOutranksCurrent s.kernel u = true)
  | .task (.mutexUnlock (some m)) => LastUnlock s m → s.Inherited ∧
    ∀ u, waitListPeek s.kernel.waitLists (.mutex m) = some u → (s.kernel.tasks u).state ≠ .suspended
  | .tick => s.Inherited ∧ ∀ t m, (s.kernel.tasks t).wait = some (.mutexLock m) →
    s.kernel.timeoutList.left t = some 1 → (s.kernel.tasks t).state ≠ .suspended
  | _ => True

section

variable {cfg : Config} {k k' : Kernel} {s s' : System} {c t : TaskRef}

theorem Kernel.Sound.selected_of_front (g : k.Sound cfg) (hready : (k.tasks c).state.isReady = true)
    (hfront : k.IsFront c)
    (hleast : ∀ t, (k.tasks t).state.isReady = true → (k.tasks c).effectivePriority ≤
      (k.tasks t).effectivePriority) :
    schedulerSelectHighest cfg k.scheduler = some c := by
  have hhost : k.scheduler.queues.host c ≠ none := by simp [g.host_of_isReady hready]
  obtain ⟨n, hn⟩ := g.scheduler.exists_selectHighest hhost
  obtain ⟨hfirst, hle⟩ := g.first_of_selected hn
  obtain ⟨p, xs, hp, -⟩ := g.scheduler.selectHighest_eq_some hn
  have hnready := g.isReady_of_host (t := n) (by simp [k.scheduler.queues.host_of_head hp])
  have heq : (k.tasks n).effectivePriority = (k.tasks c).effectivePriority := (hle c hready).antisymm (hleast n hnready)
  rw [heq] at hfirst
  rw [hn, ← hfirst, hfront]

theorem Kernel.Sound.front_of_inPlace (g : k.Sound cfg) (g' : k'.Sound cfg) (hready : (k.tasks c).state.isReady = true)
    (hready' : (k'.tasks c).state.isReady = true) (hplace : k.scheduler.queues.InPlace c k'.scheduler.queues)
    (hfront : k.IsFront c) : k'.IsFront c := by
  have hhost : k.scheduler.queues.host c = some (k.tasks c).effectivePriority :=
    (g.shape c).readyHost.trans (if_pos hready)
  have hhost' : k'.scheduler.queues.host c = some (k'.tasks c).effectivePriority :=
    (g'.shape c).readyHost.trans (if_pos hready')
  exact (hplace (by simp [hhost])).2.head hhost hhost' hfront

theorem Kernel.Fronted.step (h : k.Fronted) (g : k.Sound cfg) (g' : k'.Sound cfg)
    (hcurrent : k'.currentTask = k.currentTask)
    (hstep : ∀ c, k.currentTask = some c → (k'.tasks c).state = .running → k'.Outranked c ∨
      (k.tasks c).state = .running ∧ k.scheduler.queues.InPlace c k'.scheduler.queues ∧
        (k.Outranked c → k'.Outranked c)) : k'.Fronted := by
  intro c hc hrun
  rw [hcurrent] at hc
  rcases hstep c hc hrun with hout | ⟨hrun₀, hplace, hkeep⟩
  · exact Or.inr hout
  · refine (h c hc hrun₀).imp (g.front_of_inPlace g' ?_ ?_ hplace) hkeep
    · simp [hrun₀, TaskState.isReady]
    · simp [hrun, TaskState.isReady]

theorem Kernel.Fronted.bookkept (h : k.Fronted) (g : k.Good cfg) (hb : k.Bookkept k') : k'.Fronted := by
  refine h.step g.toSound (g.bookkept hb).toSound hb.control.currentTask (fun c _ hrun => Or.inr ⟨?_, ?_, ?_⟩)
  · rwa [← hb.taskState]
  · rw [show k'.scheduler = k.scheduler by rw [hb.frame]]
    exact .refl _ c
  · rintro ⟨u, hu, hlt⟩
    exact ⟨u, (hb.taskState u).trans hu, by rwa [hb.effective, hb.effective]⟩

theorem Kernel.Keeps.inPlace (h : k.Keeps k') (g : k.Sound cfg) (hready : (k.tasks c).state.isReady = true)
    (hstate : (k'.tasks c).state = (k.tasks c).state)
    (heff : (k'.tasks c).effectivePriority = (k.tasks c).effectivePriority) :
    k.scheduler.queues.InPlace c k'.scheduler.queues := by
  refine ListFamily.Requeued.inPlace h ?_
  rintro (hw | hs | he)
  · exact (g.shape c).waiting.mpr hw ((g.shape c).wait_none_of_isReady hready)
  · exact hs hstate
  · exact he heff

theorem Kernel.Mild.inPlace (h : k.Mild k') (hready : (k.tasks c).state.isReady = true)
    (hready' : (k'.tasks c).state.isReady = true) : k.scheduler.queues.InPlace c k'.scheduler.queues := by
  refine ListFamily.Requeued.inPlace h.requeued ?_
  rintro (hr | hr)
  · simp [hready] at hr
  · simp [hready'] at hr

theorem Call.Change.fronted {inIsr : Bool} {call : Call} (h : call.Change cfg s inIsr k woken) (g : s.kernel.Sound cfg)
    (g' : k.Sound cfg) (hfront : s.kernel.Fronted)
    (hcall : ∀ u, call = .taskSuspend (some u) → ¬ ((s.kernel.tasks u).state = .ready ∧
      kernelOutranksCurrent s.kernel u = true)) : k.Fronted := by
  have hmild := h.mild g
  refine hfront.step g g' hmild.current (fun c hc hrun => Or.inr ?_)
  have hrun₀ := hmild.running c hrun
  have hready : (s.kernel.tasks c).state.isReady = true := by simp [hrun₀, TaskState.isReady]
  have hready' : (k.tasks c).state.isReady = true := by simp [hrun, TaskState.isReady]
  refine ⟨hrun₀, hmild.inPlace hready hready', ?_⟩
  rintro ⟨u, hu, hlt⟩
  rcases h.ready g hu with hsame | hsuspend
  · exact ⟨u, by rw [hsame, hu], by rwa [hsame, hmild.tasks c hready hready']⟩
  · refine absurd ⟨hu, ?_⟩ (hcall u hsuspend)
    have hm : (s.kernel.tasks c).magic = true := (g.shape c).magic_of_isReady hready
    simp [kernelOutranksCurrent, hc, taskIsValid, hm, hrun₀, hlt]

theorem Kernel.Fronted.of_not_running (hc : k.currentTask = some c) (hnot : (k.tasks c).state ≠ .running) :
    k.Fronted := by
  intro d hd hrun
  obtain rfl := Option.some.inj (hc.symm.trans hd)
  exact absurd hrun hnot

theorem LockEffect.fronted {timeout : Tick} {outcome : Outcome}
    (h : LockEffect cfg s m timeout s' outcome) (g : s.kernel.Good cfg) (hfront : s.kernel.Fronted) :
    s'.kernel.Fronted := by
  cases h with
  | acquired t => exact hfront.bookkept g (Kernel.bookkept_countOwned _ _ _)
  | again t => exact hfront
  | waits t o k hruns _ _ _ hreprio =>
    refine Kernel.Fronted.of_not_running (c := t) (hreprio.control.currentTask.trans hruns.current) ?_
    simp only [requestContextSwitch]
    rw [hreprio.tasks t]
    simp [Kernel.startWait, waitingBlock]
  | refused t o k k' hruns _ _ hreprio hwoken =>
    refine Kernel.Fronted.of_not_running (c := t)
      (hwoken.control.currentTask.trans (hreprio.control.currentTask.trans hruns.current)) ?_
    simp only [requestContextSwitch]
    rw [hwoken.task]
    simp only [wokenBlock]
    split <;> simp

theorem isLeast_waiters (g : s.Good cfg) (hb : Balanced s.kernel s.mutexes t) :
    IsLeast { p | p = (s.kernel.tasks t).basePriority ∨ ∃ m u, (s.mutexes.blocks m).owner = some t ∧
      (s.kernel.tasks u).wait = some (.mutexLock m) ∧ p = (s.kernel.tasks u).effectivePriority }
      (s.kernel.tasks t).effectivePriority := by
  have heq : insert (s.kernel.tasks t).basePriority (inheritedPriorities s t) =
      { p | p = (s.kernel.tasks t).basePriority ∨ ∃ m u, (s.mutexes.blocks m).owner = some t ∧
        (s.kernel.tasks u).wait = some (.mutexLock m) ∧ p = (s.kernel.tasks u).effectivePriority } := by
    ext p
    simp only [Set.mem_insert_iff, inheritedPriorities, Set.mem_ofPred_eq, ListFamily.mem_seq,
      g.kernel.waitHost_mutex]
  rw [← heq]
  exact isLeast_of_balanced g hb

structure Released (cfg : Config) (s : System) (m : MutexRef) (t : TaskRef) (next : Option TaskRef) (s' : System) :
    Prop where
  last : LastUnlock s m
  first : waitListPeek s.kernel.waitLists (.mutex m) = next
  owner : ∀ n, (s'.mutexes.blocks n).owner = if n = m then next else (s.mutexes.blocks n).owner
  wait : ∀ v, (s'.kernel.tasks v).wait = if next = some v then none else (s.kernel.tasks v).wait
  state : ∀ v, (s'.kernel.tasks v).state =
    if next = some v ∧ (s.kernel.tasks v).state ≠ .suspended then .ready else (s.kernel.tasks v).state
  base : ∀ v, (s'.kernel.tasks v).basePriority = (s.kernel.tasks v).basePriority
  others : ∀ v, v ≠ t → next ≠ some v → (s'.kernel.tasks v).effectivePriority =
    (s.kernel.tasks v).effectivePriority
  current : s'.kernel.currentTask = s.kernel.currentTask
  keeps : s.kernel.Keeps s'.kernel
  balanced : (∀ v, Balanced s.kernel s.mutexes v) → ∀ v, Balanced s'.kernel s'.mutexes v
  requests : s'.kernel.pendSvPending = true → s.kernel.pendSvPending = true ∨
    (∃ u, next = some u ∧ (s.kernel.tasks u).state ≠ .suspended ∧
      (s.kernel.tasks u).effectivePriority < (s.kernel.tasks t).effectivePriority) ∨
    ∃ k : Kernel, k.Calm s'.kernel ∧ kernelCurrentShouldPreempt cfg k = true

theorem UnlockEffect.released (h : UnlockEffect cfg s m t s') (g : s.kernel.Good cfg)
    (hruns : s.kernel.Runs t) (ho : (s.mutexes.blocks m).owner = some t) :
    s'.kernel = s.kernel ∨ ∃ next, Released cfg s m t next s' := by
  have howner := ho.trans hruns.current.symm
  cases h with
  | again => exact Or.inl rfl
  | freed k k' hfree hreprio hcalm _ hbal _ hkeeps heff hrequests hlast =>
    have hbook := s.kernel.bookkept_countOwned t (· - 1)
    have htasks : ∀ v, k'.tasks v = { (s.kernel.countOwned t (· - 1)).tasks v with
        effectivePriority := (k'.tasks v).effectivePriority } := fun v => hcalm.tasks ▸ hreprio.tasks v
    refine Or.inr ⟨none, ⟨howner, hlast⟩, ?_, fun n => ?_, fun v => ?_, fun v => ?_, fun v => ?_, fun v hv _ =>
      heff v hv,
      hcalm.sameRun.currentTask.trans hreprio.control.currentTask, hkeeps, hbal,
      fun hp => (hrequests hp).imp id fun h => Or.inr ⟨k, hcalm, h⟩⟩
    · by_contra hne
      obtain ⟨u, hu⟩ := Option.ne_none_iff_exists'.mp hne
      exact hfree u ((g.waitHost_mutex u m).mp (waitListPeek_host _ hu))
    · by_cases hn : n = m <;> simp [Mutexes.detach, hn]
    · rw [htasks v, hbook.tasks v]
      rfl
    · rw [htasks v, hbook.tasks v]
      simp
    · rw [htasks v, hbook.tasks v]
  | handed u k k' k'' hfirst hwait hwoken hreprio hcalm _ hbal _ hkeeps heff hrequests hlast =>
    have hbook := (s.kernel.bookkept_countOwned t (· - 1)).trans (Kernel.bookkept_countOwned _ u (· + 1))
    have htasks : ∀ v, k''.tasks v = { k.tasks v with effectivePriority := (k''.tasks v).effectivePriority } :=
      fun v => hcalm.tasks ▸ hreprio.tasks v
    have hother : ∀ v, v ≠ u → (k''.tasks v).wait = (s.kernel.tasks v).wait ∧
        (k''.tasks v).state = (s.kernel.tasks v).state ∧
        (k''.tasks v).basePriority = (s.kernel.tasks v).basePriority := by
      intro v hv
      rw [htasks v, hwoken.others v hv, hbook.tasks v]
      exact ⟨rfl, rfl, rfl⟩
    refine Or.inr ⟨some u, ⟨howner, hlast⟩, hfirst, fun n => ?_, fun v => ?_, fun v => ?_, fun v => ?_,
      fun v hvt hvu => heff v hvt (fun he => hvu (congrArg some he.symm)), ?_, hkeeps, hbal,
      fun hp => (hrequests hp).imp id (Or.imp (fun h => ⟨u, rfl, h⟩) fun h => ⟨k', hcalm, h⟩)⟩
    all_goals dsimp only [System.record]
    · by_cases hn : n = m <;> simp [Mutexes.attach, Mutexes.detach, hn]
    · by_cases hv : v = u
      · rw [hv, if_pos rfl, htasks u, hwoken.task]
        rfl
      · simpa [Ne.symm hv] using (hother v hv).1
    · by_cases hv : v = u
      · rw [hv, htasks u, hwoken.task]
        simp only [wokenBlock, hbook.taskState]
        by_cases hs : (s.kernel.tasks u).state = .suspended <;> simp [hs]
      · simpa [Ne.symm hv] using (hother v hv).2.1
    · by_cases hv : v = u
      · rw [hv, htasks u, hwoken.task]
        simp only [wokenBlock]
        rw [hbook.tasks u]
      · exact (hother v hv).2.2
    · rw [hcalm.frame, hreprio.frame, hwoken.frame]
      exact hbook.control.currentTask

theorem Released.next_ne (h : Released cfg s m t next s') (g : s.kernel.Good cfg)
    (hruns : s.kernel.Runs t) : next ≠ some t := by
  intro hnext
  have hw := (g.waitHost_mutex t m).mp (waitListPeek_host _ (h.first.trans hnext))
  simp [g.wait_of_runs hruns] at hw

theorem Released.waiting (h : Released cfg s m t next s') (g : s.kernel.Good cfg)
    (hruns : s.kernel.Runs t) (hw : (s'.kernel.tasks v).wait = some w) :
    (s.kernel.tasks v).wait = some w ∧
      (s'.kernel.tasks v).effectivePriority = (s.kernel.tasks v).effectivePriority := by
  rw [h.wait v] at hw
  split_ifs at hw with hv
  refine ⟨hw, h.others v ?_ hv⟩
  rintro rfl
  simp [g.wait_of_runs hruns] at hw

theorem Released.waits {n : MutexRef} (h : Released cfg s m t next s') (g : s.kernel.Good cfg)
    (hn : n ≠ m) (hw : (s.kernel.tasks v).wait = some (.mutexLock n)) :
    (s'.kernel.tasks v).wait = some (.mutexLock n) := by
  rw [h.wait v, if_neg, hw]
  intro hv
  have hm := (g.waitHost_mutex v m).mp (waitListPeek_host _ (h.first.trans hv))
  simp only [hw, Option.some.injEq, Wait.mutexLock.injEq] at hm
  exact hn hm

theorem Released.peek_le {u : TaskRef} (h : Released cfg s m t (some u) s') (g : s.kernel.Good cfg)
    (hv : (s.kernel.tasks v).wait = some (.mutexLock m)) :
    (s.kernel.tasks u).effectivePriority ≤ (s.kernel.tasks v).effectivePriority := by
  have hprio : ∀ {v}, (s.kernel.tasks v).wait = some (.mutexLock m) →
      s.kernel.waitLists.priority v = (s.kernel.tasks v).effectivePriority := by
    intro v hv
    exact ((g.shape v).agree ((g.shape v).magic_of_wait (by simp [Kernel.view, hv]))).2
  rw [← hprio ((g.waitHost_mutex u m).mp (waitListPeek_host _ h.first)), ← hprio hv]
  exact g.sorted.peek_le h.first ((g.waitHost_mutex v m).mpr hv)

theorem Released.effective_of_ne (h : Released cfg s m t next s') (g : s.Good cfg)
    (g' : s'.Good cfg) (hruns : s.kernel.Runs t) (ho : (s.mutexes.blocks m).owner = some t)
    (hb : ∀ v, Balanced s.kernel s.mutexes v) (hv : v ≠ t) :
    (s'.kernel.tasks v).effectivePriority = (s.kernel.tasks v).effectivePriority := by
  by_cases hnext : next = some v
  swap
  · exact h.others v hv hnext
  subst hnext
  have hleast := isLeast_waiters g (hb v)
  have hleast' := isLeast_waiters g' (h.balanced hb v)
  apply le_antisymm
  · rcases hleast.1 with hp | ⟨n, w, hn, hw, hp⟩
    · rw [hp, ← h.base v]
      exact hleast'.2 (Or.inl rfl)
    · have hnm : n ≠ m := by
        rintro rfl
        exact hv (Option.some.inj (hn.symm.trans ho))
      have hw' := h.waits g.kernel hnm hw
      rw [hp, ← (h.waiting g.kernel hruns hw').2]
      exact hleast'.2 (Or.inr ⟨n, w, by rw [h.owner n, if_neg hnm, hn], hw', rfl⟩)
  · rcases hleast'.1 with hp | ⟨n, w, hn, hw', hp⟩
    · rw [hp, h.base v]
      exact hleast.2 (Or.inl rfl)
    · obtain ⟨hw, heff⟩ := h.waiting g.kernel hruns hw'
      rw [hp, heff]
      by_cases hnm : n = m
      · exact h.peek_le g.kernel (hnm ▸ hw)
      · rw [h.owner n, if_neg hnm] at hn
        exact hleast.2 (Or.inr ⟨n, w, hn, hw, rfl⟩)

theorem Released.effective_self (h : Released cfg s m t next s') (g : s.Good cfg)
    (g' : s'.Good cfg) (hruns : s.kernel.Runs t) (hb : ∀ v, Balanced s.kernel s.mutexes v)
    (hne : (s'.kernel.tasks t).effectivePriority ≠ (s.kernel.tasks t).effectivePriority) :
    (s.kernel.tasks t).effectivePriority < (s'.kernel.tasks t).effectivePriority ∧
      ∃ v, (s.kernel.tasks v).wait = some (.mutexLock m) ∧
        (s.kernel.tasks t).effectivePriority = (s.kernel.tasks v).effectivePriority := by
  have hleast := isLeast_waiters g (hb t)
  have hleast' := isLeast_waiters g' (h.balanced hb t)
  have hle : (s.kernel.tasks t).effectivePriority ≤ (s'.kernel.tasks t).effectivePriority := by
    rcases hleast'.1 with hp | ⟨n, v, ho, hw', hp⟩
    · rw [hp, h.base t]
      exact hleast.2 (Or.inl rfl)
    · obtain ⟨hw, heff⟩ := h.waiting g.kernel hruns hw'
      have hnm : n ≠ m := by
        rintro rfl
        rw [h.owner n, if_pos rfl] at ho
        exact h.next_ne g.kernel hruns ho
      rw [h.owner n, if_neg hnm] at ho
      rw [hp, heff]
      exact hleast.2 (Or.inr ⟨n, v, ho, hw, rfl⟩)
  have hlt := lt_of_le_of_ne hle hne.symm
  refine ⟨hlt, ?_⟩
  rcases hleast.1 with hp | ⟨n, v, ho, hw, hp⟩
  · have hbound := hleast'.2 (Or.inl rfl)
    rw [h.base t, ← hp] at hbound
    exact absurd hlt (not_lt.mpr hbound)
  · by_cases hn : n = m
    · exact ⟨v, hn ▸ hw, hp⟩
    · have hw' := h.waits g.kernel hn hw
      have hbound := hleast'.2 (Or.inr ⟨n, v, by rw [h.owner n, if_neg hn, ho], hw', rfl⟩)
      rw [(h.waiting g.kernel hruns hw').2, ← hp] at hbound
      exact absurd hlt (not_lt.mpr hbound)

theorem Released.fronted (h : Released cfg s m t next s') (g : s.Good cfg)
    (g' : s'.Good cfg) (hruns : s.kernel.Runs t) (ho : (s.mutexes.blocks m).owner = some t)
    (hb : ∀ u, Balanced s.kernel s.mutexes u)
    (hawake : ∀ u, waitListPeek s.kernel.waitLists (.mutex m) = some u → (s.kernel.tasks u).state ≠ .suspended)
    (hfront : s.kernel.Fronted) : s'.kernel.Fronted := by
  refine hfront.step g.kernel.toSound g'.kernel.toSound h.current ?_
  intro c hc hrun
  obtain rfl := Option.some.inj (hc.symm.trans hruns.current)
  have hready : (s.kernel.tasks c).state.isReady = true := by simp [hruns.running, TaskState.isReady]
  by_cases hsame : (s'.kernel.tasks c).effectivePriority = (s.kernel.tasks c).effectivePriority
  · refine Or.inr ⟨hruns.running, h.keeps.inPlace g.kernel.toSound hready (hrun.trans hruns.running.symm) hsame,
      ?_⟩
    rintro ⟨v, hv, hlt⟩
    have hvc : v ≠ c := by
      rintro rfl
      simp [hruns.running] at hv
    refine ⟨v, ?_, by rwa [h.effective_of_ne g g' hruns ho hb hvc, hsame]⟩
    rw [h.state v, hv]
    simp
  · obtain ⟨hlt, v, hv, heq⟩ := h.effective_self g g' hruns hb hsame
    cases next with
    | none =>
      have hmem := (s.kernel.waitLists.lists.mem_seq _ _).mpr ((g.kernel.waitHost_mutex v m).mpr hv)
      rw [(waitListPeek_eq_none _ _).mp h.first] at hmem
      cases hmem
    | some u =>
      have huc : u ≠ c := by
        rintro rfl
        exact h.next_ne g.kernel hruns rfl
      refine Or.inl ⟨u, ?_, ?_⟩
      · rw [h.state u, if_pos ⟨rfl, hawake u h.first⟩]
      · rw [h.effective_of_ne g g' hruns ho hb huc]
        exact ((h.peek_le g.kernel hv).trans heq.ge).trans_lt hlt

theorem Woken.fronted {result : Status} {ms : Mutexes} (h : Woken cfg k t result k') (hl : Lapses ms k t k')
    (g : k.Sound cfg) (g' : k'.Sound cfg) (hw : (k.tasks t).wait = some w) (hb : ∀ u, Balanced k ms u)
    (hawake : ∀ m, w = .mutexLock m → (k.tasks t).state ≠ .suspended) (hfront : k.Fronted) : k'.Fronted := by
  have hnot := g.not_isReady_of_wait hw
  -- The waiter is READY and keeps its priority, if any priority changes.
  have hready : ∀ u, (k'.tasks u).effectivePriority ≠ (k.tasks u).effectivePriority →
      (k'.tasks t).state = .ready ∧ (k.tasks u).effectivePriority = (k'.tasks t).effectivePriority := by
    intro u hu
    obtain ⟨m, hm⟩ := hl.locks u hu
    refine ⟨?_, ?_⟩
    · rw [h.task]
      simp only [wokenBlock]
      exact if_neg (hawake m (Option.some.inj (hw.symm.trans hm)))
    · rw [hl.self]
      exact (hl.lifts hb u).2.resolve_left (Ne.symm hu)
  refine hfront.step g g' h.control.currentTask (fun c hc hrun => ?_)
  have hct : c ≠ t := by
    rintro rfl
    rw [h.task] at hrun
    simp only [wokenBlock] at hrun
    split at hrun <;> simp at hrun
  have hstate : (k'.tasks c).state = (k.tasks c).state := by rw [h.others c hct]
  have hrun₀ : (k.tasks c).state = .running := hstate.symm.trans hrun
  by_cases hsame : (k'.tasks c).effectivePriority = (k.tasks c).effectivePriority
  swap
  · obtain ⟨ht, heq⟩ := hready c hsame
    refine Or.inl ⟨t, ht, ?_⟩
    rw [← heq]
    exact lt_of_le_of_ne (hl.lifts hb c).1 (Ne.symm hsame)
  refine Or.inr ⟨hrun₀, hl.keeps.inPlace g (by simp [hrun₀, TaskState.isReady]) hstate hsame, ?_⟩
  rintro ⟨u, hu, hlt⟩
  have hut : u ≠ t := by
    rintro rfl
    simp [hu, TaskState.isReady] at hnot
  by_cases hsameu : (k'.tasks u).effectivePriority = (k.tasks u).effectivePriority
  · refine ⟨u, ?_, by rwa [hsameu, hsame]⟩
    rw [h.others u hut]
    exact hu
  · obtain ⟨ht, heq⟩ := hready u hsameu
    exact ⟨t, ht, by rwa [← heq, hsame]⟩

theorem Expiry.fronted {order : List TaskRef} (h : Expiry cfg s order s') (g : s.Good cfg)
    (hb : ∀ u, Balanced s.kernel s.mutexes u)
    (hawake : ∀ t ∈ order, ∀ m, (s.kernel.tasks t).wait = some (.mutexLock m) →
      (s.kernel.tasks t).state ≠ .suspended)
    (hfront : s.kernel.Fronted) : s'.kernel.Fronted := by
  induction h with
  | nil => exact hfront
  | @cons s s' t rest w k hfirst hwait hwoken hacts hlapses hbal _ ih =>
    refine ih hacts.good (hbal hb) (fun u hu m hum => ?_) ?_
    · have hawakeu := hawake u (List.mem_cons_of_mem t hu) m (hwoken.wait_eq_some hum).2
      exact fun hs => hawakeu ((hwoken.sameSuspended u).mp hs)
    · exact hwoken.fronted hlapses g.kernel.toSound hacts.good.kernel.toSound hwait hb
        (fun m hm => hawake t List.mem_cons_self m (hm ▸ hwait)) hfront

theorem Granted.fronted (h : Granted cfg k t k') (g : k.Sound cfg) (g' : k'.Sound cfg)
    (hw : (k.tasks t).wait = some w) (hfront : k.Fronted) : k'.Fronted := by
  have hmild := h.mild g hw
  refine hfront.step g g' hmild.current (fun c hc hrun => Or.inr ?_)
  have hrun₀ := hmild.running c hrun
  refine ⟨hrun₀, hmild.inPlace (by simp [hrun₀, TaskState.isReady]) (by simp [hrun, TaskState.isReady]), ?_⟩
  rintro ⟨u, hu, hlt⟩
  have hut : u ≠ t := by
    rintro rfl
    have hnot := g.not_isReady_of_wait hw
    simp [hu, TaskState.isReady] at hnot
  refine ⟨u, ?_, by rwa [h.effective, h.effective]⟩
  rw [h.woken.others u hut]
  exact hu

theorem TimerTick.fronted (h : TimerTick cfg s s' woken) (g : s.kernel.Good cfg)
    (g' : s'.kernel.Good cfg) (hfront : s.kernel.Fronted) : s'.kernel.Fronted := by
  rcases h.kernel_cases with ⟨hkernel, -⟩ | ⟨u, hwait, hgranted, -⟩
  · rwa [hkernel]
  · exact hgranted.fronted g.toSound g'.toSound hwait hfront

theorem TickRun.fronted {tl : TimeoutList TaskRef} {order : List TaskRef} {s₃ : System}
    (h : TickRun cfg s tl order k s₃ woken c) (hb : ∀ u, Balanced s.kernel s.mutexes u)
    (hawake : ∀ t m, (s.kernel.tasks t).wait = some (.mutexLock m) → s.kernel.timeoutList.left t = some 1 →
      (s.kernel.tasks t).state ≠ .suspended) (hfront : s.kernel.Fronted) :
    (kernelTickEnd cfg s₃.kernel c woken).Fronted := by
  have hdue : ∀ t ∈ order, s.kernel.timeoutList.left t = some 1 := by
    intro t ht
    rw [← h.seq] at ht
    exact h.advance.left_of_expired ((tl.lists.mem_seq _ _).mp ht)
  have hfront₂ : k.Fronted := h.expiry.fronted h.begun hb (fun t ht m hm => hawake t m hm (hdue t ht)) hfront
  exact (h.timers.fronted h.good.kernel h.good₃.kernel hfront₂).bookkept h.good₃.kernel
    (kernelTickEnd_charged _ _ _ _).bookkept

theorem Kernel.fronted_of_selected (g : k.Sound cfg) (hcurrent : k.currentTask = some t)
    (hselected : schedulerSelectHighest cfg k.scheduler = some t) : k.Fronted := by
  intro c hc _
  obtain rfl := Option.some.inj (hcurrent.symm.trans hc)
  exact Or.inl (g.first_of_selected hselected).1

theorem step_task_fronted (hs : s.Steady cfg) {call : Call} (hop : SparesFront s (.task call))
    (hfront : s.kernel.Fronted) : (step cfg s (.task call)).kernel.Fronted := by
  have g' := (hs.step (.task call)).good
  cases step_task_cases hs call with
  | refused _ hkernel => rwa [hkernel]
  | changes _ _ hchange =>
    refine hchange.fronted hs.good.kernel.toSound g'.kernel.toSound hfront ?_
    rintro u rfl
    exact hop
  | locks m timeout outcome heffect => exact heffect.fronted hs.good.kernel hfront
  | unlocks m t hruns ho heffect =>
    rcases heffect.released hs.good.kernel hruns ho with hkernel | ⟨next, hreleased⟩
    · rwa [hkernel]
    · obtain ⟨hi, hawake⟩ := hop hreleased.last
      exact hreleased.fronted hs.good g' hruns ho (hi.balanced hs.good) hawake hfront

theorem step_fronted (hs : s.Steady cfg) {op : Op} (hop : SparesFront s op) (hfront : s.kernel.Fronted) :
    (step cfg s op).kernel.Fronted := by
  have g' := (hs.step op).good.kernel.toSound
  have he := step_effect hs.good hs.quiet op
  generalize hstep : step cfg s op = s' at g' he ⊢
  cases he with
  | noTask | noService | noTick | noPendsv | noStart | writeBuffer | writeAnchor => exact hfront
  | task c => exact hstep ▸ step_task_fronted hs hop hfront
  | isr c honoured =>
    rw [← hstep] at g' ⊢
    by_cases hsuspend : ∃ u, c = .taskSuspend (some u)
    · obtain ⟨u, rfl⟩ := hsuspend
      rwa [step_isr_suspend hs u honoured]
    · obtain ⟨woken, hchange⟩ := step_isr_change hs c honoured
      exact hchange.fronted hs.good.kernel.toSound g' hfront (fun u hu => absurd ⟨u, hu⟩ hsuspend)
  | service =>
    rw [← hstep] at g' ⊢
    exact (step_service_change (c := .taskYield) hs).fronted hs.good.kernel.toSound g' hfront (by simp)
  | tick _ _ _ _ _ _ hrun => exact hrun.fronted (hop.1.balanced hs.good) hop.2 hfront
  | pendsv current next _ _ hselected => exact Kernel.fronted_of_selected g' rfl hselected
  | start next _ hselected => exact Kernel.fronted_of_selected g' rfl hselected

theorem boot_fronted (cfg : Config) : (boot cfg).kernel.Fronted := by
  intro c hc
  simp [boot_eq, Kernel.register, Kernel.bare, Kernel.create, Kernel.reset] at hc

theorem SparesFront.honoured {op : Op} (h : SparesFront s op) (call : Call) : op ≠ .isr call false := by
  rintro rfl
  simp [SparesFront] at h

theorem exec_fronted (hp : cfg.preemption = true) {ops : List Op}
    (hops : Meets (step cfg) SparesFront (boot cfg) ops) :
    (exec cfg (boot cfg) ops).kernel.Settled ∧ (exec cfg (boot cfg) ops).kernel.Fronted := by
  have hinv := hops.keeps (I := fun s => s.Steady cfg ∧ s.kernel.Settled ∧ s.kernel.Fronted)
    (fun s op hs hop => ⟨hs.1.step op, step_settled hs.1 hp hop.honoured hs.2.1, step_fronted hs.1 hop hs.2.2⟩)
    ⟨boot_steady cfg, boot_settled cfg, boot_fronted cfg⟩
  exact hinv.2

theorem step_pendsv_front (hs : s.Steady cfg) (hfront : s.kernel.Fronted) (hc : s.kernel.currentTask = some c)
    (hrun : (s.kernel.tasks c).state = .running) (hyield : s.kernel.switchReasons.yield = false)
    (hslice : s.kernel.switchReasons.timeSlice = false) {d : TaskRef}
    (hd : (step cfg s .pendsv).kernel.currentTask = some d) :
    d = c ∨ (s.kernel.tasks d).effectivePriority < (s.kernel.tasks c).effectivePriority := by
  have g := hs.good.kernel.toSound
  have hready : (s.kernel.tasks c).state.isReady = true := by simp [hrun, TaskState.isReady]
  have hk : s.kernel.state = .running := by
    rcases g.booted with hb | hb
    · simp [g.unstarted hb] at hc
    · exact hb
  obtain ⟨current, next, hcurrent, hselected, he, -⟩ := step_pendsv_eq hs.good hk
  obtain rfl := Option.some.inj (hcurrent.symm.trans hc)
  rw [he] at hd
  obtain rfl : next = d := Option.some.inj hd
  have hstill : ({ s.kernel with pendSvPending := false }.rotate cfg current).scheduler = s.kernel.scheduler := by
    simp [Kernel.rotate, Kernel.rotates, hyield, hslice]
  rw [hstill] at hselected
  have hleast := (g.first_of_selected hselected).2
  rcases hfront current hc hrun with hhead | ⟨u, hu, hlt⟩
  · -- Without an outranking task the front is the choice.
    by_cases hout : (s.kernel.tasks next).effectivePriority < (s.kernel.tasks current).effectivePriority
    · exact Or.inr hout
    · have hselected' := g.selected_of_front hready hhead (fun t ht => (not_lt.mp hout).trans (hleast t ht))
      exact Or.inl (Option.some.inj (hselected.symm.trans hselected'))
  · exact Or.inr ((hleast u (by simp [hu, TaskState.isReady])).trans_lt hlt)

end

/-- With preemption, in every run whose operations spare the front: the scheduler would choose the RUNNING task as long
as no switch is pending, and a PendSV that carries neither a yield nor a time slice never replaces it by an equal. -/
theorem running_task_is_front (cfg : Config) (hp : cfg.preemption = true) (ops : List Op)
    (hops : Meets (step cfg) SparesFront (boot cfg) ops) :
    let s := exec cfg (boot cfg) ops
    ∀ c, s.kernel.currentTask = some c → (s.kernel.tasks c).state = .running →
      (s.kernel.pendSvPending = false → schedulerSelectHighest cfg s.kernel.scheduler = some c) ∧
      (s.kernel.switchReasons.yield = false → s.kernel.switchReasons.timeSlice = false → ∀ d,
        (step cfg s .pendsv).kernel.currentTask = some d →
          d = c ∨ (s.kernel.tasks d).effectivePriority < (s.kernel.tasks c).effectivePriority) := by
  intro s c hc hrun
  have hs : s.Steady cfg := (boot_steady cfg).exec ops
  obtain ⟨hsettled, hfront⟩ := exec_fronted hp hops
  refine ⟨fun hpend => ?_, fun hyield hslice d hd => step_pendsv_front hs hfront hc hrun hyield hslice hd⟩
  have hleast : ∀ u, (s.kernel.tasks u).state = .ready →
      (s.kernel.tasks c).effectivePriority ≤ (s.kernel.tasks u).effectivePriority := by
    intro u hu
    by_contra hlt
    exact Bool.false_ne_true (hpend.symm.trans (hsettled c u hc hrun hu (not_le.mp hlt)))
  have hready : (s.kernel.tasks c).state.isReady = true := by simp [hrun, TaskState.isReady]
  refine hs.good.kernel.toSound.selected_of_front hready ?_ ?_
  · refine (hfront c hc hrun).resolve_right ?_
    rintro ⟨u, hu, hlt⟩
    exact absurd (hleast u hu) (not_le.mpr hlt)
  · intro u hu
    rcases (by simpa [TaskState.isReady] using hu : (s.kernel.tasks u).state = .ready ∨
        (s.kernel.tasks u).state = .running) with hu | hu
    · exact hleast u hu
    · rw [Option.some.inj ((hs.good.kernel.running u hu).symm.trans hc)]

/-- Task 1 owns the mutex that task 0 waits for, and runs with the priority of task 0. -/
def lendingRun : List Op :=
  launch 0 1 ++ launch 1 3 ++ launch 2 3 ++
    [.task (.mutexCreate (some 0)), .task (.semaphoreCreateBinary (some 0) false), .start,
      .task (.semaphoreTake (some 0) waitForever), .pendsv, .task (.mutexLock (some 0) noWait),
      .isr (.semaphoreGiveFromIsr (some 0)) true, .pendsv, .task (.mutexLock (some 0) waitForever), .pendsv]

def releaseRun : List Op := lendingRun ++ [.task (.mutexUnlock (some 0)), .pendsv]

theorem running_task_is_front_releaseRun :
    let s := exec .standard (boot .standard) lendingRun
    let s' := exec .standard (boot .standard) releaseRun
    (s.kernel.tasks (.app 1)).effectivePriority = 1 ∧
      schedulerSelectHighest .standard s.kernel.scheduler = some (.app 1) ∧
      (s'.kernel.tasks (.app 1)).effectivePriority = 3 ∧
      schedulerSelectHighest .standard s'.kernel.scheduler = some (.app 0) := by
  have hlending : Meets (step .standard) SparesFront (boot .standard) lendingRun :=
    ⟨trivial, trivial, trivial, trivial, trivial, trivial, trivial, trivial, trivial, trivial, trivial, trivial, rfl,
      trivial, trivial, trivial, trivial⟩
  have hunlock : SparesFront (exec .standard (boot .standard) lendingRun) (.task (.mutexUnlock (some 0))) := by
    refine fun _ => ⟨inherited_of_locksSucceed (by decide +kernel), fun u hu => ?_⟩
    have hfirst : waitListPeek (exec .standard (boot .standard) lendingRun).kernel.waitLists (.mutex 0) =
        some (.app 0) := by decide +kernel
    obtain rfl := Option.some.inj (hfirst.symm.trans hu)
    decide +kernel
  have hrelease : Meets (step .standard) SparesFront (boot .standard) releaseRun :=
    meets_append.mpr ⟨hlending, hunlock, trivial, trivial⟩
  have hfront := fun ops hops c => running_task_is_front .standard rfl ops hops c
  exact ⟨by decide +kernel,
    (hfront lendingRun hlending (.app 1) (by decide +kernel) (by decide +kernel)).1 (by decide +kernel),
    by decide +kernel,
    (hfront releaseRun hrelease (.app 0) (by decide +kernel) (by decide +kernel)).1 (by decide +kernel)⟩

def demotedRun : List Op :=
  launch 0 1 ++ launch 1 3 ++ launch 2 3 ++
    [.task (.mutexCreate (some 0)), .start, .task (.taskDelay 1#32), .pendsv, .task (.mutexLock (some 0) noWait), .tick,
      .pendsv, .task (.mutexLock (some 0) waitForever), .pendsv, .task (.taskSuspend (some (.app 0))),
      .task (.mutexUnlock (some 0))]

/-- Task 1 is RUNNING behind its equal, and the next PendSV replaces it without a yield or a time slice. -/
theorem running_task_behind_equal :
    let s := exec .standard (boot .standard) demotedRun
    s.kernel.currentTask = some (.app 1) ∧ (s.kernel.tasks (.app 1)).state = .running ∧
      s.kernel.pendSvPending = false ∧ schedulerSelectHighest .standard s.kernel.scheduler = some (.app 2) ∧
      s.kernel.switchReasons.yield = false ∧ s.kernel.switchReasons.timeSlice = false ∧
      (step .standard s .pendsv).kernel.currentTask = some (.app 2) ∧
      (s.kernel.tasks (.app 2)).effectivePriority = (s.kernel.tasks (.app 1)).effectivePriority := by
  decide +kernel

end Hairtos

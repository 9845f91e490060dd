import Hairtos.Properties.Deadlock
import Hairtos.Properties.Inheritance

namespace Hairtos

open Library

structure NoTrace (s : System) (t : TaskRef) (s' : System) : Prop where
  effective : ∀ u, (s'.kernel.tasks u).effectivePriority = (s.kernel.tasks u).effectivePriority
  mutexes : s'.mutexes = s.mutexes
  waiters : ∀ l, s'.kernel.waitLists.lists.seq l = s.kernel.waitLists.lists.seq l
  timeouts : ∀ l, s'.kernel.timeoutList.lists.seq l = s.kernel.timeoutList.lists.seq l
  queues : ∀ p, (s'.kernel.scheduler.queues.seq p).erase t = (s.kernel.scheduler.queues.seq p).erase t
  others : ∀ u, u ≠ t → s'.kernel.tasks u = s.kernel.tasks u
  inherited : s'.Inherited

def System.asked (cfg : Config) (s : System) (t : TaskRef) (m : MutexRef) (timeout : Tick) : Kernel :=
  s.kernel.startWait cfg t (.mutexLock m) (timeoutTicks timeout)

def System.lent (cfg : Config) (s : System) (t o : TaskRef) (m : MutexRef) (timeout : Tick) : Kernel :=
  (mutexRecomputeTaskPriority cfg s.mutexes (recomputeDepth cfg) (s.asked cfg t m timeout) o).1

section

variable {cfg : Config} {s : System} {t o : TaskRef} {m : MutexRef} {timeout : Tick}

theorem mem_donors_startWait {k : Kernel} {ms : Mutexes} (g : k.Good cfg) (own : Owners k ms)
    (hs : (k.tasks t).state = .running) (ticks : Option Tick) (ho : (ms.blocks m).owner = some o) (p : Nat) :
    p ∈ donors (k.startWait cfg t (.mutexLock m) ticks) ms o ↔ p ∈ donors k ms o ∨
      p = (k.tasks t).effectivePriority := by
  obtain ⟨hm, -, hwn, -⟩ := g.running_shape hs
  obtain ⟨-, hprio, hhost, -⟩ := Kernel.enterWaitList_spec g.sorted hwn (Wait.mutexLock m).waitList
  have hbase : ((k.startWait cfg t (.mutexLock m) ticks).tasks o).basePriority = (k.tasks o).basePriority := by
    by_cases hot : o = t
    · simp [hot, Kernel.startWait, waitingBlock]
    · simp [hot, Kernel.startWait]
  have hagree : k.waitLists.priority t = (k.tasks t).effectivePriority := ((g.shape t).agree hm).2
  have hwaits : (k.startWait cfg t (.mutexLock m) ticks).waitLists =
      k.enterWaitList t (Wait.mutexLock m).waitList := rfl
  simp only [donors, Set.mem_ofPred_eq, hbase, hwaits, hprio, hhost]
  constructor
  · rintro (hp | ⟨n, u, hn, hu, rfl⟩)
    · exact Or.inl (Or.inl hp)
    · by_cases hut : u = t
      · exact Or.inr (hut ▸ hagree)
      · rw [Function.update_of_ne hut] at hu
        exact Or.inl (Or.inr ⟨n, u, hn, hu, rfl⟩)
  · rintro ((hp | ⟨n, u, hn, hu, rfl⟩) | hp)
    · exact Or.inl hp
    · have hut : u ≠ t := by
        rintro rfl
        simp [hwn] at hu
      exact Or.inr ⟨n, u, hn, by rwa [Function.update_of_ne hut], rfl⟩
    · exact Or.inr ⟨m, t, (own.owner m o).mp ho, by rw [Function.update_self]; rfl, hp.trans hagree.symm⟩

theorem startWait_effectivePriority (cfg : Config) (k : Kernel) (t : TaskRef) (w : Wait) (ticks : Option Tick)
    (u : TaskRef) : ((k.startWait cfg t w ticks).tasks u).effectivePriority = (k.tasks u).effectivePriority := by
  by_cases hu : u = t
  · simp [hu, Kernel.startWait, waitingBlock]
  · simp [hu, Kernel.startWait]

theorem Balanced.startWait_owner {k : Kernel} {ms : Mutexes} (g : k.Good cfg) (own : Owners k ms)
    (hs : (k.tasks t).state = .running) (ticks : Option Tick) (ho : (ms.blocks m).owner = some o)
    (hle : (k.tasks o).effectivePriority ≤ (k.tasks t).effectivePriority) (hb : Balanced k ms o) :
    Balanced (k.startWait cfg t (.mutexLock m) ticks) ms o := by
  rw [Balanced, startWait_effectivePriority]
  refine ⟨(mem_donors_startWait g own hs ticks ho _).mpr (Or.inl hb.1), ?_⟩
  intro p hp
  rcases (mem_donors_startWait g own hs ticks ho p).mp hp with hp | rfl
  · exact hb.2 hp
  · exact hle

structure Refusal (cfg : Config) (s : System) (t o : TaskRef) (m : MutexRef) (timeout : Tick) (k : Kernel) : Prop where
  step : step cfg s (.task (.mutexLock (some m) timeout)) = { s with kernel := requestContextSwitch k }
  good : (s.asked cfg t m timeout).Good cfg
  owners : Owners (s.asked cfg t m timeout) s.mutexes
  woken : Woken cfg (s.lent cfg t o m timeout) t .internal k
  waitLists : k.waitLists = { (s.lent cfg t o m timeout).waitLists with
    lists := (s.lent cfg t o m timeout).waitLists.lists.unlink t }
  effective : ∀ u, (k.tasks u).effectivePriority = ((s.lent cfg t o m timeout).tasks u).effectivePriority
  queues : (s.lent cfg t o m timeout).Requeued (· = t) k

theorem MustWait.refusal (h : MustWait s t o m timeout) (hs : s.Steady cfg) (hcycle : ClosesCycle s t o) :
    ∃ k, Refusal cfg s t o m timeout k := by
  have hruns := h.runs hs
  obtain ⟨g1, own1, -, hr, hcases⟩ :=
    mutexLockWait_cases hs.good.kernel hs.good.owners hruns h.owner h.other h.waits
  rcases hcases with ⟨-, -, heq⟩ | ⟨-, k, heq, -, hwoken, hlists, heff, hqueues⟩
  · exfalso
    rcases h.begins hs with hb | hd
    · exact hb.not_closesCycle hs.good (hs.step _).good hruns h.owner hcycle
    · have hwait := hd.wait
      rw [h.step_eq hs, heq] at hwait
      have hwaits : ((s.lent cfg t o m timeout).tasks t).wait = some (.mutexLock m) := by
        rw [System.lent, System.asked, hr.wait t, Kernel.startWait_wait, if_pos rfl]
      exact absurd (hwaits.symm.trans hwait) (by simp)
  · exact ⟨k, by rw [h.step_eq hs, heq], g1, own1, hwoken, hlists, heff, hqueues⟩

theorem Refusal.inherits {k : Kernel} (h : Refusal cfg s t o m timeout k) :
    Inherits cfg (s.asked cfg t m timeout) s.mutexes := h.owners.inherits h.good.toSound rfl (fun _ _ h => h)

theorem Refusal.lent_eq {k : Kernel} (h : Refusal cfg s t o m timeout k) (hs : s.Steady cfg)
    (hw : MustWait s t o m timeout)
    (hi : s.Inherited) (hle : (s.kernel.tasks o).effectivePriority ≤ (s.kernel.tasks t).effectivePriority) :
    s.lent cfg t o m timeout = s.asked cfg t m timeout := by
  have hruns := hw.runs hs
  refine mutexRecomputeTaskPriority_of_balanced (recomputeDepth cfg) h.good.linked h.inherits ?_ ⟨m, hw.owner⟩
  intro u hu
  have hb := hi.balanced hs.good u
  by_cases huo : u = o
  · subst huo
    exact hb.startWait_owner hs.good.kernel hs.good.owners.toOwners hruns.running _ hw.owner hle
  · exact hb.startWait hs.good.kernel hs.good.owners.toOwners hruns.running _ hw.owner huo

theorem asked_unlink_waitLists (hs : s.Steady cfg) (hruns : s.kernel.Runs t) (m : MutexRef) (timeout : Tick) :
    (s.asked cfg t m timeout).waitLists.lists.unlink t = s.kernel.waitLists.lists := by
  obtain ⟨-, -, hwn, -⟩ := hs.good.kernel.running_shape hruns.running
  have heq : (s.asked cfg t m timeout).waitLists = (waitListInsert s.kernel.waitLists (.mutex m) t).1 := rfl
  rw [heq, waitListInsert_eq _ _ _ hwn]
  exact ListFamily.unlink_link_sorted _ _ _ _ hwn

theorem asked_unlink_timeouts (hs : s.Steady cfg) (hruns : s.kernel.Runs t) (m : MutexRef) (timeout : Tick) :
    (s.asked cfg t m timeout).timeoutList.lists.unlink t = s.kernel.timeoutList.lists := by
  obtain ⟨-, -, -, htn, -⟩ := hs.good.kernel.running_shape hruns.running
  have heq : (s.asked cfg t m timeout).timeoutList = s.kernel.enterTimeout t (timeoutTicks timeout) := rfl
  rw [heq]
  unfold timeoutTicks
  split
  · exact ListFamily.unlink_of_none _ htn
  next hf =>
  simp only [Kernel.enterTimeout, timeoutListInsert, if_neg hf, dif_pos htn]
  exact ListFamily.unlink_link_sorted _ _ _ _ htn

theorem Refusal.noTrace {k : Kernel} (h : Refusal cfg s t o m timeout k) (hs : s.Steady cfg) (hruns : s.kernel.Runs t)
    (hi : s.Inherited) (hlent : s.lent cfg t o m timeout = s.asked cfg t m timeout) :
    NoTrace s t (Hairtos.step cfg s (.task (.mutexLock (some m) timeout))) := by
  have heff : ∀ u, (k.tasks u).effectivePriority = (s.kernel.tasks u).effectivePriority := by
    intro u
    rw [h.effective u, hlent, System.asked, startWait_effectivePriority]
  have hothers : ∀ u, u ≠ t → k.tasks u = s.kernel.tasks u := by
    intro u hu
    rw [h.woken.others u hu, heff u, hlent]
    simp [System.asked, Kernel.startWait, hu]
  have hwaiters : ∀ l, k.waitLists.lists.seq l = s.kernel.waitLists.lists.seq l := by
    intro l
    rw [h.waitLists, hlent, asked_unlink_waitLists hs hruns]
  have hbase : ∀ u, (k.tasks u).basePriority = (s.kernel.tasks u).basePriority := by
    intro u
    by_cases hu : u = t
    · rw [hu, h.woken.task, hlent]
      simp [wokenBlock, System.asked, Kernel.startWait, waitingBlock]
    · rw [hothers u hu]
  rw [h.step]
  refine ⟨heff, rfl, hwaiters, ?_, ?_, hothers, ?_⟩
  · intro l
    have htimeouts : k.timeoutList.lists = s.kernel.timeoutList.lists := by
      rw [h.woken.timeouts, hlent, asked_unlink_timeouts hs hruns]
    exact congrArg (fun f => f.seq l) htimeouts
  · intro p
    have hqueues := h.queues
    rw [hlent] at hqueues
    have hmoved : s.kernel.Requeued (· = t) k :=
      Kernel.Requeued.trans (@Kernel.removeReady_requeued cfg s.kernel t) hqueues
    exact congrArg (fun f => f.seq p) (ListFamily.Requeued.unlink_eq hmoved (fun _ hu => hu))
  · intro u hu
    have hall : k.allTasks = s.kernel.allTasks := by
      rw [h.woken.frame, hlent]
      rfl
    have hset : inheritedPriorities { s with kernel := requestContextSwitch k } u = inheritedPriorities s u := by
      ext p
      simp only [inheritedPriorities, requestContextSwitch, hwaiters, heff]
    have hu' : u ∈ s.kernel.allTasks.seq () := by
      rw [← hall]
      exact hu
    rw [hset]
    simp only [requestContextSwitch, hbase u, heff u]
    exact hi u hu'

theorem Refusal.effective_lt {k : Kernel} (h : Refusal cfg s t o m timeout k) (hs : s.Steady cfg)
    (hw : MustWait s t o m timeout) (hi : s.Inherited)
    (hlt : (s.kernel.tasks t).effectivePriority < (s.kernel.tasks o).effectivePriority) :
    (k.tasks o).effectivePriority < (s.kernel.tasks o).effectivePriority := by
  have hruns := hw.runs hs
  have hdonors := mem_donors_startWait hs.good.kernel hs.good.owners.toOwners hruns.running
    (timeoutTicks timeout) hw.owner
  have hleast : IsLeast (donors (s.asked cfg t m timeout) s.mutexes o)
      (mutexRequiredPriority (s.asked cfg t m timeout) s.mutexes o) := h.inherits.required_isLeast h.good.linked o
  have hrequired : mutexRequiredPriority (s.asked cfg t m timeout) s.mutexes o ≤
    (s.kernel.tasks t).effectivePriority :=
    hleast.2 ((hdonors _).mpr (Or.inr rfl))
  have hlag : (s.asked cfg t m timeout).Lagging s.mutexes := by
    intro u hu
    have hb := hi.balanced hs.good u
    rw [System.asked, startWait_effectivePriority]
    by_cases huo : u = o
    · subst huo
      exact hrequired.trans hlt.le
    · have hb1 := hb.startWait hs.good.kernel hs.good.owners.toOwners hruns.running (timeoutTicks timeout) hw.owner huo
      have heq := (h.inherits.balanced_iff h.good.linked u).mp hb1
      rw [System.asked, startWait_effectivePriority] at heq
      exact heq.le
  rw [h.effective o]
  calc ((s.lent cfg t o m timeout).tasks o).effectivePriority
      ≤ mutexRequiredPriority (s.asked cfg t m timeout) s.mutexes o :=
        mutexRecomputeTaskPriority_le_required cfg.maxTasks h.good.linked h.inherits hlag ⟨m, hw.owner⟩
    _ ≤ (s.kernel.tasks t).effectivePriority := hrequired
    _ < (s.kernel.tasks o).effectivePriority := hlt

end

/-- In a state in which every priority is the one that inheritance requires: a lock that is refused because it would
close a cycle leaves no trace exactly if the caller is not more urgent than the owner of the mutex. -/
theorem refused_lock_no_trace_iff {cfg : Config} {s : System} (hr : Reachable cfg s) (hi : s.Inherited) {t o : TaskRef}
    {m : MutexRef} {timeout : Tick} (h : MustWait s t o m timeout) (hcycle : ClosesCycle s t o) :
    NoTrace s t (step cfg s (.task (.mutexLock (some m) timeout))) ↔
      ¬ (s.kernel.tasks t).effectivePriority < (s.kernel.tasks o).effectivePriority := by
  have hs := reachable_steady hr
  obtain ⟨k, hk⟩ := h.refusal hs hcycle
  constructor
  · intro htrace hlt
    have hsame := htrace.effective o
    rw [hk.step] at hsame
    exact absurd hsame (hk.effective_lt hs h hi hlt).ne
  · intro hle
    exact hk.noTrace hs (h.runs hs) hi (hk.lent_eq hs h hi (not_lt.mp hle))

theorem refused_lock_no_trace_embraceRun :
    let s := exec .standard (boot .standard) embraceRun
    let s' := step .standard s (.task (.mutexLock (some 1) waitForever))
    (s'.kernel.tasks (.app 0)).waitResult = .internal ∧ NoTrace s (.app 0) s' := by
  have hwait : MustWait (exec .standard (boot .standard) embraceRun) (.app 0) (.app 1) 1 waitForever :=
    ⟨by decide +kernel, by decide +kernel, by decide +kernel, by decide, by decide⟩
  have hon : WaitsOn (exec .standard (boot .standard) embraceRun) (.app 1) (.app 0) := by
    unfold WaitsOn
    decide +kernel
  have hcycle : ClosesCycle (exec .standard (boot .standard) embraceRun) (.app 0) (.app 1) :=
    .head (Or.inr ⟨rfl, rfl⟩) (.single (Or.inl hon))
  exact ⟨by decide +kernel, (refused_lock_no_trace_iff ⟨embraceRun, rfl⟩
    (inherited_of_locksSucceed (by decide +kernel)) hwait hcycle).mpr (by decide +kernel)⟩

/-- Task 0 owns mutex 0, for which task 1 waits, which owns mutex 1. Task 0 is the more urgent one. -/
def crossRun : List Op :=
  launch 0 1 ++ launch 1 2 ++
    [.task (.mutexCreate (some 0)), .task (.mutexCreate (some 1)), .start, .task (.mutexLock (some 0) waitForever),
      .task (.taskDelay 1#32), .pendsv, .task (.mutexLock (some 1) waitForever),
      .task (.mutexLock (some 0) waitForever), .pendsv, .tick, .pendsv]

/-- The lock of mutex 1 is refused, and task 1 keeps the priority of task 0, although nobody waits for mutex 1. -/
theorem refused_lock_lends_priority :
    let s := exec .standard (boot .standard) crossRun
    let s' := step .standard s (.task (.mutexLock (some 1) waitForever))
    s.Inherited ∧ (s'.kernel.tasks (.app 0)).wait = none ∧ (s'.kernel.tasks (.app 0)).waitResult = .internal ∧
      (s.kernel.tasks (.app 1)).effectivePriority = 2 ∧ (s'.kernel.tasks (.app 1)).effectivePriority = 1 ∧
      s'.kernel.waitLists.lists.seq (.mutex 1) = [] := by
  refine ⟨inherited_of_locksSucceed (by decide +kernel), ?_⟩
  decide +kernel

end Hairtos

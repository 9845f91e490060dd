import Hairtos.Invariant.Run

namespace Hairtos

open Library

variable {c t : TaskRef} {owed : Bool}

structure Kernel.Dispatches (k : Kernel) (c : TaskRef) : Prop where
  current : k.currentTask = some c
  controlBlock : k.currentControlBlock = some c
  running : (k.tasks c).state = .running
  alone : ∀ t, (k.tasks t).state = .running → t = c
  first : (k.scheduler.queues.seq (k.tasks c).effectivePriority).head? = some c
  least : ∀ t, (k.tasks t).state = .ready ∨ (k.tasks t).state = .running →
    (k.tasks c).effectivePriority ≤ (k.tasks t).effectivePriority

section

variable {cfg : Config} {k : Kernel} {s s' : System}

theorem Kernel.Sound.first_of_selected (g : k.Sound cfg)
    (hc : schedulerSelectHighest cfg k.scheduler = some c) :
    (k.scheduler.queues.seq (k.tasks c).effectivePriority).head? = some c ∧
      ∀ t, (k.tasks t).state.isReady = true → (k.tasks c).effectivePriority ≤ (k.tasks t).effectivePriority := by
  obtain ⟨p, xs, hp, hmin⟩ := g.scheduler.selectHighest_eq_some hc
  have hhost := k.scheduler.queues.host_of_head hp
  have hready := g.isReady_of_host (t := c) (by simp [hhost])
  have heff : (k.tasks c).effectivePriority = p := by
    have := (g.shape c).readyHost.trans (if_pos hready)
    exact Option.some.inj (this.symm.trans hhost)
  refine ⟨by rw [heff, hp]; rfl, ?_⟩
  intro t ht
  have htp : k.scheduler.queues.host t = some (k.tasks t).effectivePriority := (g.shape t).readyHost.trans (if_pos ht)
  rw [heff]
  by_contra hlt
  have hmem := (k.scheduler.queues.mem_seq _ t).mpr htp
  rw [hmin _ (not_le.mp hlt)] at hmem
  simp at hmem

theorem Kernel.switch_dispatches {current next : TaskRef} (g : (k.switch current next).Sound cfg)
    (hselected : schedulerSelectHighest cfg k.scheduler = some next) : (k.switch current next).Dispatches next := by
  have hrunning : ((k.switch current next).tasks next).state = .running := by simp [Kernel.switch]
  obtain ⟨hfirst, hleast⟩ := g.first_of_selected (c := next) hselected
  refine ⟨rfl, rfl, hrunning, ?_, hfirst, ?_⟩
  · intro t ht
    exact (Option.some.inj (g.running t ht)).symm
  · intro t ht
    exact hleast t (by simpa [TaskState.isReady] using ht)

theorem Kernel.Good.not_panic (g : k.Good cfg) : k.state ≠ .panic := by
  rcases g.booted with h | h <;> simp [h]

end

theorem pendsv_dispatches (cfg : Config) (ops : List Op) :
    let s := exec cfg (boot cfg) ops
    s.kernel.state ≠ .panic ∧ (step cfg s .tick).kernel.state ≠ .panic ∧
      (step cfg s .pendsv).kernel.state ≠ .panic ∧
      (s.kernel.state = .running → ∃ c, (step cfg s .pendsv).kernel.Dispatches c) := by
  have hs := (boot_steady cfg).exec ops
  refine ⟨hs.good.kernel.not_panic, (hs.step .tick).good.kernel.not_panic, (hs.step .pendsv).good.kernel.not_panic,
    ?_⟩
  intro hrunning
  obtain ⟨current, next, -, hselected, he, g'⟩ := step_pendsv_eq hs.good hrunning
  rw [he] at g' ⊢
  exact ⟨next, Kernel.switch_dispatches g'.toSound hselected⟩

def Kernel.Settled (k : Kernel) : Prop :=
  ∀ c t, k.currentTask = some c → (k.tasks c).state = .running → (k.tasks t).state = .ready →
    (k.tasks t).effectivePriority < (k.tasks c).effectivePriority → k.pendSvPending = true

section

variable {cfg : Config} {k k' : Kernel} {s s' : System}

theorem Kernel.Settled.mono (h : k.Settled) (hcurrent : k'.currentTask = k.currentTask)
    (hrunning : ∀ t, (k'.tasks t).state = .running → (k.tasks t).state = .running)
    (hready : ∀ t, (k'.tasks t).state = .ready → (k.tasks t).state = .ready)
    (heff : ∀ t, (k'.tasks t).state.isReady = true →
      (k'.tasks t).effectivePriority = (k.tasks t).effectivePriority)
    (hpends : k.pendSvPending = true → k'.pendSvPending = true) : k'.Settled := by
  intro c t hc hrun ht hlt
  rw [hcurrent] at hc
  rw [heff t (by simp [TaskState.isReady, ht]), heff c (by simp [TaskState.isReady, hrun])] at hlt
  exact hpends (h c t hc (hrunning c hrun) (hready t ht) hlt)

theorem Kernel.Settled.of_not_running (hc : k.currentTask = some c)
    (hs : (k.tasks c).state ≠ .running) : k.Settled := by
  intro d t hd hrun
  obtain rfl := Option.some.inj (hc.symm.trans hd)
  exact absurd hrun hs

theorem Kernel.Settled.bookkept (h : k.Settled) (hb : k.Bookkept k')
    (hpends : k.pendSvPending = true → k'.pendSvPending = true) : k'.Settled :=
  h.mono hb.control.currentTask (fun t ht => (hb.taskState t).symm.trans ht)
    (fun t ht => (hb.taskState t).symm.trans ht) (fun t _ => hb.effective t) hpends

theorem Kernel.Settled.charged (h : k.Settled) (hc : k.Charged k') : k'.Settled := h.bookkept hc.bookkept hc.pends

theorem Kernel.Sound.shouldPreempt (g : k.Sound cfg) (hc : (k.tasks c).state = .running)
    (ht : (k.tasks t).state = .ready) (hlt : (k.tasks t).effectivePriority < (k.tasks c).effectivePriority) :
    schedulerShouldPreempt cfg k.scheduler c = true := by
  have hrc : (k.tasks c).state.isReady = true := by simp [TaskState.isReady, hc]
  have hrt : (k.tasks t).state.isReady = true := by simp [TaskState.isReady, ht]
  have hmc := (g.shape c).magic_of_isReady hrc
  have hmt := (g.shape t).magic_of_isReady hrt
  have hpc : k.scheduler.priority c = (k.tasks c).effectivePriority := ((g.shape c).agree hmc).1
  have hpt : k.scheduler.priority t = (k.tasks t).effectivePriority := ((g.shape t).agree hmt).1
  have hbound : k.scheduler.priority c < cfg.priorityCount := by
    rw [hpc]
    exact (g.shape c).effective_lt hmc
  rw [g.scheduler.shouldPreempt_iff hbound]
  refine ⟨t, ?_, by rw [hpc, hpt]; exact hlt⟩
  rw [g.host_of_isReady hrt]
  simp

theorem Kernel.Sound.exists_of_shouldPreempt (g : k.Sound cfg) (hc : (k.tasks c).state = .running)
    (h : schedulerShouldPreempt cfg k.scheduler c = true) :
    ∃ t, (k.tasks t).state = .ready ∧ (k.tasks t).effectivePriority < (k.tasks c).effectivePriority := by
  have hrc : (k.tasks c).state.isReady = true := by simp [TaskState.isReady, hc]
  have hmc := (g.shape c).magic_of_isReady hrc
  have hpc : k.scheduler.priority c = (k.tasks c).effectivePriority := ((g.shape c).agree hmc).1
  have hbound : k.scheduler.priority c < cfg.priorityCount := by
    rw [hpc]
    exact (g.shape c).effective_lt hmc
  obtain ⟨t, hhost, hlt⟩ := (g.scheduler.shouldPreempt_iff hbound).mp h
  have hrt : (k.tasks t).state.isReady = true := g.isReady_of_host hhost
  have hpt : k.scheduler.priority t = (k.tasks t).effectivePriority :=
    ((g.shape t).agree ((g.shape t).magic_of_isReady hrt)).1
  rw [hpc, hpt] at hlt
  refine ⟨t, ?_, hlt⟩
  -- Nobody but the RUNNING task is RUNNING.
  rcases (by simpa [TaskState.isReady] using hrt : (k.tasks t).state = .ready ∨ (k.tasks t).state = .running) with
    ht | ht
  · exact ht
  · have htc : t = c := Option.some.inj ((g.running t ht).symm.trans (g.running c hc))
    exact absurd hlt (htc ▸ lt_irrefl _)

theorem Kernel.settled_of_should (g' : k'.Good cfg) (hk : k.state = .running) (hcalm : k.Calm k')
    (hpends : kernelCurrentShouldPreempt cfg k = true → k'.pendSvPending = true) : k'.Settled := by
  have g := g'.bookkept hcalm.bookkept.symm
  intro c t hc hrun ht hlt
  rw [hcalm.tasks] at hrun ht hlt
  rw [hcalm.sameRun.currentTask] at hc
  apply hpends
  have hm : (k.tasks c).magic = true := (g.shape c).magic_of_isReady (by simp [Kernel.view, TaskState.isReady, hrun])
  simp [kernelCurrentShouldPreempt, hc, hk, taskIsValid, hm, hrun, g.shouldPreempt hrun ht hlt]

theorem Kernel.settled_of_selected (g : k.Sound cfg) {next : TaskRef} (hcurrent : k.currentTask = some next)
    (hselected : schedulerSelectHighest cfg k.scheduler = some next) : k.Settled := by
  intro c t hc _ ht hlt
  obtain rfl := Option.some.inj (hcurrent.symm.trans hc)
  have hready : (k.tasks t).state.isReady = true := by simp [TaskState.isReady, ht]
  exact absurd ((g.first_of_selected hselected).2 t hready) (not_le.mpr hlt)

theorem kernelTickEnd_settled (g : k.Good cfg) (hp : cfg.preemption = true) {current : TaskRef}
    (hcurrent : k.currentTask = some current) (switchRequired : Bool) :
    (kernelTickEnd cfg k current switchRequired).Settled := by
  intro c t hc hrun ht hlt
  have hcharged := kernelTickEnd_charged cfg k current switchRequired
  rw [hcharged.bookkept.control.currentTask, hcurrent] at hc
  obtain rfl := Option.some.inj hc
  rw [hcharged.bookkept.taskState] at hrun ht
  rw [hcharged.bookkept.effective, hcharged.bookkept.effective] at hlt
  have hshould := g.shouldPreempt hrun ht hlt
  have hscheduler : (k.updateTask current (fun cb =>
      { cb with runtimeCounter := cb.runtimeCounter + 1#32 })).scheduler = k.scheduler := rfl
  simp [kernelTickEnd, hrun, kernelTickCurrent, hp, hscheduler, hshould, yieldFromIsr, requestContextSwitch]

theorem Kernel.Settled.create (h : k.Settled) (t : TaskRef) (priority : Nat) :
    (k.create cfg t priority).Settled := by
  refine h.mono rfl ?_ ?_ ?_ id
  all_goals
    intro u
    by_cases hu : u = t
    · subst hu
      simp [Kernel.create, createdBlock, TaskState.isReady]
    · simp [Kernel.create, hu]

theorem Kernel.Settled.suspend (h : k.Settled) (t : TaskRef) : (k.suspend cfg t).Settled := by
  refine h.mono rfl ?_ ?_ ?_ id
  all_goals
    intro u
    by_cases hu : u = t
    · subst hu
      simp [Kernel.suspend, suspendedBlock, TaskState.isReady]
    · simp [Kernel.suspend, hu]

theorem Kernel.Settled.granted {k₁ : Kernel} {u : TaskRef} (h : k.Settled) (g : k.Good cfg)
    (hgranted : Granted cfg k u k₁) (hcalm : k₁.Calm k')
    (hpends : preemptsCurrent k u k₁ = true → owed = true ∨ k'.pendSvPending = true) :
    owed = true ∨ k'.Settled := by
  by_cases howed : owed = true
  · exact Or.inl howed
  have hpends := fun hp => (hpends hp).resolve_left howed
  right
  intro c t hc hrun ht hlt
  rw [hcalm.tasks] at hrun ht hlt
  rw [hcalm.sameRun.currentTask] at hc
  have hcu : c ≠ u := by
    rintro rfl
    rw [hgranted.woken.task] at hrun
    simp only [wokenBlock] at hrun
    split at hrun <;> simp at hrun
  have hcb := hgranted.woken.others c hcu
  have hrun' : (k.tasks c).state = .running := by
    rw [hcb] at hrun
    exact hrun
  by_cases htu : t = u
  · subst htu
    apply hpends
    have hsuspended : (k.tasks t).state ≠ .suspended := by
      intro hs
      rw [hgranted.woken.task] at ht
      simp [wokenBlock, hs] at ht
    have hm : (k₁.tasks c).magic = true := by
      rw [hcb]
      exact (g.running_shape hrun').1
    simp [preemptsCurrent, hsuspended, kernelOutranksCurrent, hc, taskIsValid, hm, hrun, hlt]
  · have htb := hgranted.woken.others t htu
    apply hcalm.pends
    rw [hgranted.woken.frame]
    refine h c t (hgranted.woken.control.currentTask.symm.trans hc) hrun' ?_ ?_
    · rw [htb] at ht
      exact ht
    · rwa [hgranted.effective, hgranted.effective] at hlt

theorem Kernel.Settled.resume (h : k.Settled) (g : k.Good cfg) (hp : cfg.preemption = true)
    (hs : (k.tasks t).state = .suspended) (hcalm : (k.resume cfg t).Calm k')
    (hpends : cfg.preemption = true → (k.tasks t).suspendedResumeState = .ready →
      kernelOutranksCurrent (k.resume cfg t) t = true → k'.pendSvPending = true) : k'.Settled := by
  have hself : ∀ u, u ≠ t → (k.resume cfg t).tasks u = k.tasks u := by
    intro u hu
    simp [Kernel.resume, hu]
  have hresumed : ((k.resume cfg t).tasks t).state = .ready ∨ ((k.resume cfg t).tasks t).state = .blocked := by
    simp only [Kernel.resume, Function.update_self, resumedBlock]
    split
    · exact Or.inr rfl
    · exact Or.inl rfl
  intro c u hc hrun hu hlt
  rw [hcalm.tasks] at hrun hu hlt
  rw [hcalm.sameRun.currentTask] at hc
  have hct : c ≠ t := by
    rintro rfl
    rcases hresumed with hr | hr <;> simp [hr] at hrun
  have hrun' : (k.tasks c).state = .running := by rwa [hself c hct] at hrun
  by_cases hut : u = t
  · subst hut
    apply hpends hp
    · have hshape := (g.shape u).resumes hs
      refine hshape.resolve_right fun hb => ?_
      simp only [Kernel.view] at hb
      simp [Kernel.resume, resumedBlock, hb] at hu
    · have hm : ((k.resume cfg u).tasks c).magic = true := by
        rw [hself c hct]
        exact (g.running_shape hrun').1
      simp [kernelOutranksCurrent, hc, taskIsValid, hm, hrun, hlt]
  · apply hcalm.pends
    rw [hself u hut] at hu hlt
    rw [hself c hct] at hlt
    exact h c u hc hrun' hu hlt

theorem Kernel.settled_startWait (hruns : k.Runs t) (w : Wait) (ticks : Option Tick)
    (hcalm : (k.startWait cfg t w ticks).Calm k') : k'.Settled := by
  refine Kernel.Settled.of_not_running (c := t) (hcalm.sameRun.currentTask.trans hruns.current) ?_
  rw [hcalm.tasks]
  simp [Kernel.startWait, waitingBlock]

theorem UnlockEffect.settled {m : MutexRef} (h : UnlockEffect cfg s m t s') (g' : s'.Good cfg)
    (hruns : s.kernel.Runs t) (hset : s.kernel.Settled) : s'.kernel.Settled := by
  cases h with
  | again => exact hset
  | freed k k' _ hreprio hcalm hpends =>
    have hstate : k.state = .running := hreprio.control.state.trans hruns.state
    exact Kernel.settled_of_should g'.kernel hstate hcalm hpends
  | handed u k k' k'' _ _ hwoken hreprio hcalm hpends =>
    have hstate : k'.state = .running :=
      hreprio.control.state.trans (hwoken.control.state.trans hruns.state)
    exact Kernel.settled_of_should g'.kernel hstate hcalm hpends

theorem Acts.settled (h : Acts cfg s owed s') (g : s.Good cfg) (hp : cfg.preemption = true)
    (hset : s.kernel.Settled) : owed = true ∨ s'.kernel.Settled := by
  obtain ⟨haction, g'⟩ := h
  cases haction with
  | calm k timers service anchors hcalm => exact Or.inr (hset.charged hcalm.charged)
  | write b content => exact Or.inr hset
  | createTask u priority hfresh => exact Or.inr (hset.create u priority)
  | startTask u hstate hcreated =>
    right
    intro c t hc
    have hnone : s.kernel.currentTask = none := g.kernel.unstarted hstate
    simp [Kernel.register, hnone] at hc
  | createQueue => exact Or.inr hset
  | createSemaphore => exact Or.inr hset
  | createMutex => exact Or.inr hset
  | delay u ticks anchors hruns =>
    exact Or.inr (Kernel.settled_startWait hruns _ _ (Kernel.calm_requestContextSwitch _))
  | suspend u k hstate hidle hcalm => exact Or.inr ((hset.suspend u).charged hcalm.charged)
  | resume u k hstate hidle hcalm hpends => exact Or.inr (hset.resume g.kernel hp hstate hcalm hpends)
  | give x s₁ woken status k owed hvalid heffect hcalm hpends =>
    cases heffect with
    | served u k₁ _ _ hgranted => exact hset.granted g.kernel hgranted hcalm hpends
    | counted => exact Or.inr (hset.charged hcalm.charged)
    | full => exact Or.inr (hset.charged hcalm.charged)
  | take x timeout s₁ outcome hcaller hvalid heffect =>
    cases heffect with
    | counted => exact Or.inr hset
    | waits u hruns => exact Or.inr (Kernel.settled_startWait hruns _ _ (Kernel.calm_requestContextSwitch _))
  | send q item timeout sender r k owed hcaller hvalid heffect hcalm hpends =>
    cases heffect with
    | served u b k₁ _ _ hgranted => exact hset.granted g.kernel hgranted hcalm hpends
    | stored => exact Or.inr (hset.charged hcalm.charged)
    | waits u hruns => exact Or.inr (Kernel.settled_startWait hruns _ _ hcalm)
    | full => exact Or.inr (hset.charged hcalm.charged)
  | receive q item timeout receiver r k owed hcaller hvalid heffect hcalm hpends =>
    cases heffect with
    | taken => exact Or.inr (hset.charged hcalm.charged)
    | refilled u b k₁ _ _ _ hgranted => exact hset.granted g.kernel hgranted hcalm hpends
    | direct u b k₁ _ _ _ hgranted => exact hset.granted g.kernel hgranted hcalm hpends
    | waits u hruns => exact Or.inr (Kernel.settled_startWait hruns _ _ hcalm)
    | empty => exact Or.inr (hset.charged hcalm.charged)
  | unlock m u s₁ hruns howner heffect => exact Or.inr (heffect.settled g' hruns hset)
  | expire => exact Or.inl rfl

theorem Trace.settled (h : Trace cfg s owed s') (g : s.Good cfg) (hp : cfg.preemption = true)
    (hset : s.kernel.Settled) : owed = true ∨ s'.kernel.Settled := by
  induction h with
  | nil => exact Or.inr hset
  | single ha => exact ha.settled g hp hset
  | cons ha _ ih =>
    rcases ha.settled g hp hset with howed | hset'
    · exact Or.inl (by simp [howed])
    · rcases ih ha.good hset' with howed | hset''
      · exact Or.inl (by simp [howed])
      · exact Or.inr hset''

theorem LockEffect.settled {m : MutexRef} {timeout : Tick} {outcome : Outcome}
    (h : LockEffect cfg s m timeout s' outcome) (hset : s.kernel.Settled) : s'.kernel.Settled := by
  cases h with
  | acquired t => exact hset.bookkept (Kernel.bookkept_countOwned _ _ _) id
  | again t => exact hset
  | waits t o k hruns _ _ _ hreprio =>
    refine Kernel.Settled.of_not_running (c := t) (hreprio.control.currentTask.trans hruns.current) ?_
    have hblocked : (k.tasks t).state = .blocked := by
      rw [hreprio.tasks t]
      simp [Kernel.startWait, waitingBlock]
    simp [requestContextSwitch, hblocked]
  | refused t o k k' hruns _ _ hreprio hwoken =>
    have hcurrent : k'.currentTask = some t :=
      hwoken.control.currentTask.trans (hreprio.control.currentTask.trans hruns.current)
    refine Kernel.Settled.of_not_running (c := t) hcurrent ?_
    simp only [requestContextSwitch]
    rw [hwoken.task]
    simp only [wokenBlock]
    split <;> simp

theorem step_settled (h : s.Steady cfg) (hp : cfg.preemption = true) {op : Op} (hop : ∀ c, op ≠ .isr c false)
    (hset : s.kernel.Settled) : (step cfg s op).kernel.Settled := by
  have hstep := h.stepped op
  generalize step cfg s op = s' at hstep
  cases hstep with
  | refused op => exact hset
  | acts op htrace => exact (htrace.settled h.good hp hset).resolve_left (by simp)
  | lock m timeout s' outcome heffect => exact heffect.settled hset
  | @isr c honoured owed s₁ k htrace hcalm hpends =>
    cases honoured with
    | false => exact absurd rfl (hop c)
    | true =>
      rcases htrace.settled h.good hp hset with howed | hset'
      · intro _ _ _ _ _ _
        exact hpends rfl howed
      · exact hset'.charged hcalm.charged
  | tick _ s' heffect =>
    obtain ⟨current, switchRequired, _, hgood, hexpiry, htimers, hcurrent⟩ := heffect
    obtain ⟨owed, htrace⟩ := hexpiry.trace
    exact kernelTickEnd_settled (htimers.good (htrace.good hgood)).kernel hp hcurrent switchRequired
  | pendsv current next _ _ hselected hgood => exact Kernel.settled_of_selected hgood.toSound rfl hselected
  | start next _ hselected hgood => exact Kernel.settled_of_selected hgood.toSound rfl hselected

theorem boot_settled (cfg : Config) : (boot cfg).kernel.Settled := by
  intro c t hc
  simp [boot_eq, Kernel.register, Kernel.bare, Kernel.create, Kernel.reset] at hc

end

/-- With preemption, and with every result of a from-ISR call honoured, a READY task that outranks the
RUNNING one has a context switch pending for it after every operation of a run. -/
theorem exec_settled (cfg : Config) (hp : cfg.preemption = true) (ops : List Op)
    (hops : ∀ c, Op.isr c false ∉ ops) :
    (exec cfg (boot cfg) ops).kernel.Settled := by
  suffices h : ∀ s, s.Steady cfg → s.kernel.Settled → (exec cfg s ops).kernel.Settled from
    h _ (boot_steady cfg) (boot_settled cfg)
  induction ops with
  | nil => exact fun _ _ hset => hset
  | cons op ops ih =>
    intro s hs hset
    refine ih (fun c hc => hops c (List.mem_cons_of_mem op hc)) _ (hs.step op) (step_settled hs hp ?_ hset)
    rintro c rfl
    exact hops c List.mem_cons_self

def wakeRun : List Op :=
  launch 0 1 ++ launch 1 2 ++ [.start, .task (.taskDelay 1#32), .pendsv, .tick]

theorem exec_settled_wakeRun :
    let k := (exec .standard (boot .standard) wakeRun).kernel
    k.currentTask = some (.app 1) ∧ (k.tasks (.app 1)).state = .running ∧ (k.tasks (.app 0)).state = .ready ∧
      k.pendSvPending = true :=
  ⟨by decide +kernel, by decide +kernel, by decide +kernel,
    exec_settled .standard rfl wakeRun (by simp [wakeRun, launch]) (.app 1) (.app 0) (by decide +kernel)
      (by decide +kernel) (by decide +kernel) (by decide +kernel)⟩

end Hairtos
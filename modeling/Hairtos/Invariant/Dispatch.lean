import Hairtos.Invariant.Shape

namespace Hairtos

def Kernel.switch (k : Kernel) (current next : TaskRef) : Kernel :=
  { k with
    tasks := fun t =>
      if t = next then { k.tasks t with state := .running }
      else if t = current ∧ (k.tasks t).state = .running then { k.tasks t with state := .ready }
      else k.tasks t
    currentTask := some next
    currentControlBlock := some next }

def Kernel.rotates (cfg : Config) (k : Kernel) (current : TaskRef) : Bool :=
  (k.tasks current).state = .running && schedulerSelectHighest cfg k.scheduler = some current &&
    (k.switchReasons.yield || k.switchReasons.timeSlice)

def Kernel.rotate (cfg : Config) (k : Kernel) (current : TaskRef) : Kernel :=
  { k with
    switchReasons := {}
    scheduler := if k.rotates cfg current then (schedulerYieldCurrent cfg k.scheduler current).1 else k.scheduler
    tasks := if k.rotates cfg current && k.switchReasons.yield then
        Function.update k.tasks current { k.tasks current with timeSliceRemaining := cfg.timeSliceTicks }
      else k.tasks }

section

variable {cfg : Config} {k : Kernel}

theorem Shape.setReady {v v' : TaskView} (h : Shape cfg v) (hr : v.cb.state.isReady = true) {state : TaskState}
    (hs : state.isReady = true) (hv : v' = { v with cb := { v.cb with state := state } }) : Shape cfg v' := by
  have hm := h.magic_of_isReady hr
  have hw := h.wait_none_of_isReady hr
  have hne : v.cb.state ≠ .suspended := by
    intro he
    simp [he, TaskState.isReady] at hr
  have hrec := h.records
  subst hv
  have hstate : state ≠ .invalid ∧ state ≠ .created ∧ state ≠ .suspended ∧ state ≠ .blocked := by
    cases state <;> simp [TaskState.isReady] at hs ⊢
  refine ⟨?_, ?_, ?_, h.waitHost, ⟨hrec.kind, hrec.object, hrec.waitList, hrec.buffer, hrec.cleanup⟩, ?_,
    ?_, ?_, ?_,
    h.agree, h.effective, h.fresh, h.base, h.urgent, ?_⟩
  · simp [hm, hstate]
  · simp [h.registered_of_isReady hr, hstate]
  · simpa [hs, hr] using h.readyHost
  · simpa [TaskControlBlock.isWaiting, TaskControlBlock.wait, hstate] using hw
  · exact h.timeoutHost
  · exact fun he => absurd he hstate.2.2.1
  · exact fun _ => h.resumesNot hne
  · exact fun hi => ⟨hs, (h.idle hi).2⟩

theorem Kernel.Sound.isReady_of_host (g : k.Sound cfg) {t : TaskRef} (ht : k.scheduler.queues.host t ≠ none) :
    (k.tasks t).state.isReady = true := by
  by_contra hr
  exact ht ((g.shape t).readyHost.trans (if_neg hr))

theorem Kernel.Sound.host_of_isReady (g : k.Sound cfg) {t : TaskRef} (ht : (k.tasks t).state.isReady = true) :
    k.scheduler.queues.host t = some (k.tasks t).effectivePriority :=
  (g.shape t).readyHost.trans (if_pos ht)

theorem Kernel.Sound.idle_isReady (g : k.Sound cfg) : (k.tasks .idle).state.isReady = true :=
  ((g.shape .idle).idle (by simp [Kernel.view])).1

theorem Kernel.Sound.exists_selectHighest (g : k.Sound cfg) :
    ∃ next, schedulerSelectHighest cfg k.scheduler = some next ∧ (k.tasks next).state.isReady = true := by
  have hidle : k.scheduler.queues.host .idle ≠ none := by simp [g.host_of_isReady g.idle_isReady]
  obtain ⟨next, hnext⟩ := g.scheduler.exists_selectHighest hidle
  obtain ⟨p, xs, hp, -⟩ := g.scheduler.selectHighest_eq_some hnext
  exact ⟨next, hnext, g.isReady_of_host (by simp [k.scheduler.queues.host_of_head hp])⟩

theorem Kernel.Good.switch (g : k.Good cfg) {current next : TaskRef}
    (hcurrent : ∀ t, (k.tasks t).state = .running → t = current) (hnext : (k.tasks next).state.isReady = true) :
    ({ k.switch current next with state := .running }).Good cfg := by
  have hview : ∀ t, ∃ state : TaskState, ((k.switch current next).view t =
      { k.view t with cb := { (k.view t).cb with state := state } }) ∧
      ((k.tasks t).state.isReady = true → state.isReady = true) ∧
      ((k.tasks t).state.isReady = false → state = (k.tasks t).state) ∧ (state = .running → t = next) := by
    intro t
    by_cases htn : t = next
    · subst htn
      exact ⟨.running, by simp [Kernel.view, Kernel.switch], by simp [TaskState.isReady], by simp [hnext], by simp⟩
    by_cases htc : t = current ∧ (k.tasks t).state = .running
    · refine ⟨.ready, ?_, by simp [TaskState.isReady], by simp [htc.2, TaskState.isReady], by simp⟩
      simp [Kernel.view, Kernel.switch, htc.1 ▸ htc.2, htc.1]
      intro h
      exact absurd (htc.1.trans h) htn
    · refine ⟨(k.tasks t).state, by simp [Kernel.view, Kernel.switch, htn, htc], fun h => h, fun _ => rfl, ?_⟩
      intro hr
      exact absurd ⟨hcurrent t hr, hr⟩ htc
  have hshape : ∀ t, Shape cfg ((k.switch current next).view t) := by
    intro t
    obtain ⟨state, hv, hready, hkeep, -⟩ := hview t
    cases hr : (k.tasks t).state.isReady with
    | true => exact (g.shape t).setReady hr (hready hr) hv
    | false =>
      rw [hv, hkeep hr]
      exact g.shape t
  refine ⟨⟨g.scheduler, g.sorted, g.timeouts, g.lastTick, hshape, g.taskCount, g.taskCount_le, Or.inr rfl, ?_,
    ?_, ?_⟩,
    ?_⟩
  · intro h
    simp at h
  · intro _
    exact ⟨next, rfl, rfl, (g.shape next).registered_of_isReady hnext⟩
  · intro t ht
    obtain ⟨state, hv, -, -, hrun⟩ := hview t
    have hs : ((k.switch current next).tasks t).state = state := by
      rw [show (k.switch current next).tasks t = ((k.switch current next).view t).cb from rfl, hv]
    rw [hrun (hs ▸ ht)]
    rfl
  · intro t ht
    apply g.delays t
    obtain ⟨state, hv, -⟩ := hview t
    have hw : ((k.switch current next).tasks t).wait = (k.tasks t).wait := by
      rw [show (k.switch current next).tasks t = ((k.switch current next).view t).cb from rfl, hv]
      rfl
    rw [← hw]
    exact ht

theorem Kernel.Sound.rotate_scheduler (g : k.Sound cfg) (current : TaskRef) :
    (k.rotate cfg current).scheduler.WellFormed cfg ∧
      (k.rotate cfg current).scheduler.priority = k.scheduler.priority ∧
      (k.rotate cfg current).scheduler.queues.host = k.scheduler.queues.host := by
  by_cases hr : k.rotates cfg current = true
  · simp only [Kernel.rotate, if_pos hr]
    have hsel : schedulerSelectHighest cfg k.scheduler = some current := by
      simp only [Kernel.rotates, Bool.and_eq_true, decide_eq_true_eq] at hr
      exact hr.1.2
    obtain ⟨p, xs, hp, hmin⟩ := g.scheduler.selectHighest_eq_some hsel
    obtain ⟨scheduler, hyield, hwf, hprio, hhost, -⟩ := schedulerYieldCurrent_spec g.scheduler hp hmin
    rw [hyield]
    exact ⟨hwf, hprio, hhost⟩
  · rw [Kernel.rotate, if_neg hr]
    exact ⟨g.scheduler, rfl, rfl⟩

theorem Kernel.rotate_tasks (k : Kernel) (current t : TaskRef) :
    ∃ slice : Tick, (k.rotate cfg current).tasks t = { k.tasks t with timeSliceRemaining := slice } := by
  simp only [Kernel.rotate]
  split_ifs
  · by_cases ht : t = current
    · subst ht
      exact ⟨cfg.timeSliceTicks, by simp⟩
    · exact ⟨(k.tasks t).timeSliceRemaining, by simp [ht]⟩
  · exact ⟨(k.tasks t).timeSliceRemaining, rfl⟩

theorem Kernel.Good.rotate (g : k.Good cfg) (current : TaskRef) : (k.rotate cfg current).Good cfg := by
  obtain ⟨hwf, hprio, hhost⟩ := g.rotate_scheduler current
  have htasks : ∀ t, ∃ slice : Tick, (k.rotate cfg current).tasks t =
      { k.tasks t with timeSliceRemaining := slice } := k.rotate_tasks current
  refine ⟨g.update ⟨rfl, rfl, rfl, rfl, rfl, rfl⟩ hwf g.sorted g.timeouts rfl ?_ ?_, ?_⟩
  · intro t
    obtain ⟨slice, ht⟩ := htasks t
    apply (g.shape t).bookkeeping slice (k.tasks t).runtimeCounter (k.tasks t).ownedMutexCount
    simp only [Kernel.view, ht, hprio, hhost]
    rfl
  · intro t
    obtain ⟨slice, ht⟩ := htasks t
    rw [ht]
    exact id
  · intro t
    obtain ⟨slice, ht⟩ := htasks t
    rw [ht]
    exact g.delays t

theorem kernelDispatch_eq (g : k.Sound cfg) {current next : TaskRef} (hcurrent : k.currentTask = some current)
    (hnext : schedulerSelectHighest cfg k.scheduler = some next) :
    kernelDispatch cfg k current = k.switch current next := by
  obtain ⟨next', hnext', hready⟩ := g.exists_selectHighest
  obtain rfl : next = next' := Option.some.inj (hnext.symm.trans hnext')
  have hm : (k.tasks next).magic = true := (g.shape next).magic_of_isReady hready
  by_cases hne : next = current
  · subst hne
    simp only [TaskState.isReady, Bool.or_eq_true, decide_eq_true_eq] at hready
    rcases hready with hs | hs
    · simp [kernelDispatch, hnext, taskIsValid, hm, hs, taskTransitionState, Kernel.updateTask, Kernel.switch]
      funext t
      by_cases ht : t = next
      · simp [ht, hm]
      · simp [ht]
    · simp [kernelDispatch, hnext, taskIsValid, hm, hs, Kernel.switch]
      funext t
      by_cases ht : t = next
      · subst ht
        simp [← hs]
      · simp [ht]
  · have hs : (k.tasks next).state = .ready := by
      simp only [TaskState.isReady, Bool.or_eq_true, decide_eq_true_eq] at hready
      rcases hready with hs | hs
      · exact hs
      · exact absurd (Option.some.inj ((g.running next hs).symm.trans hcurrent)) hne
    by_cases hrun : (k.tasks current).state = .running
    · have hmc : (k.tasks current).magic = true :=
        (g.shape current).magic_of_isReady (by simp [Kernel.view, hrun, TaskState.isReady])
      simp [kernelDispatch, hnext, taskIsValid, hm, hne, hs, hrun, hmc, taskTransitionState, Kernel.updateTask,
        Kernel.switch]
      funext t
      by_cases ht : t = next
      · simp [ht, hm]
      · by_cases htc : t = current
        · simp [htc, hrun, hmc, Ne.symm hne]
        · simp [ht, htc]
    · simp [kernelDispatch, hnext, taskIsValid, hm, hne, hs, hrun, taskTransitionState, Kernel.updateTask,
        Kernel.switch]
      funext t
      by_cases ht : t = next
      · simp [ht, hm]
      · by_cases htc : t = current
        · simp [htc, hrun, Ne.symm hne]
        · simp [ht, htc]

theorem kernelSelectNextFromPendsv_eq (g : k.Good cfg) {current : TaskRef} (hrunning : k.state = .running)
    (hcurrent : k.currentTask = some current) :
    kernelSelectNextFromPendsv cfg k = kernelDispatch cfg (k.rotate cfg current) current := by
  obtain ⟨c, hc, hcb, hreg⟩ := g.started hrunning
  obtain rfl : current = c := Option.some.inj (hcurrent.symm.trans hc)
  obtain ⟨hinvalid, hcreated⟩ := (g.shape current).registered.mp hreg
  simp only [Kernel.view] at hinvalid hcreated
  obtain ⟨selected, hsel, -⟩ := g.exists_selectHighest
  cases hs : (k.tasks current).state with
  | invalid => exact absurd hs hinvalid
  | created => exact absurd hs hcreated
  | ready | blocked | suspended =>
    have hr : k.rotates cfg current = false := by simp [Kernel.rotates, hs]
    simp [kernelSelectNextFromPendsv, hc, hcb, hrunning, hs, Kernel.rotate, hr]
  | running =>
    by_cases hr : k.rotates cfg current = true
    · have hr' := hr
      simp only [Kernel.rotates, hs, decide_true, Bool.true_and, Bool.and_eq_true, decide_eq_true_eq, hsel,
        Option.some.injEq] at hr'
      obtain ⟨rfl, hreason⟩ := hr'
      obtain ⟨p, xs, hp, hmin⟩ := g.scheduler.selectHighest_eq_some hsel
      obtain ⟨scheduler, hyield, -⟩ := schedulerYieldCurrent_spec g.scheduler hp hmin
      cases hy : k.switchReasons.yield <;>
        simp [hy] at hreason <;>
        simp [kernelSelectNextFromPendsv, hc, hcb, hrunning, hs, hsel, hreason, hyield, Kernel.rotate, hr, hy,
          kernelReloadTimeSlice, Kernel.updateTask]
    · have hr' : ¬ (selected = current ∧ (k.switchReasons.yield = true ∨ k.switchReasons.timeSlice = true)) := by
        simpa [Kernel.rotates, hs, hsel] using hr
      simp [kernelSelectNextFromPendsv, hc, hcb, hrunning, hs, hsel, hr', Kernel.rotate, hr]

theorem kernelSelectNextFromPendsv_spec (g : k.Good cfg) (hrunning : k.state = .running) :
    ∃ current next, k.currentTask = some current ∧
      schedulerSelectHighest cfg (k.rotate cfg current).scheduler = some next ∧
      kernelSelectNextFromPendsv cfg k = (k.rotate cfg current).switch current next ∧
      (kernelSelectNextFromPendsv cfg k).Good cfg := by
  obtain ⟨current, hcurrent, -⟩ := g.started hrunning
  have g' := g.rotate current
  obtain ⟨next, hnext, hready⟩ := g'.exists_selectHighest
  have he : kernelSelectNextFromPendsv cfg k = (k.rotate cfg current).switch current next := by
    rw [kernelSelectNextFromPendsv_eq g hrunning hcurrent, kernelDispatch_eq g'.toSound hcurrent hnext]
  refine ⟨current, next, hcurrent, hnext, he, ?_⟩
  have hstate : { (k.rotate cfg current).switch current next with state := .running } =
      (k.rotate cfg current).switch current next := by
    simp only [Kernel.switch, Kernel.rotate, hrunning]
  rw [he, ← hstate]
  apply g'.switch _ hready
  intro t ht
  exact Option.some.inj ((g'.running t ht).symm.trans hcurrent)

theorem kernelPrepareStart_spec (g : k.Good cfg) (hstate : k.state = .initialized) :
    ∃ next, schedulerSelectHighest cfg k.scheduler = some next ∧
      kernelPrepareStart cfg k =
        ({ (kernelReloadTimeSlice cfg k next).switch next next with state := .running }, .ok) ∧
      (kernelPrepareStart cfg k).1.Good cfg := by
  obtain ⟨next, hnext, hready⟩ := g.exists_selectHighest
  have hm : (k.tasks next).magic = true := (g.shape next).magic_of_isReady hready
  have hrunning : ∀ t, (k.tasks t).state ≠ .running := by
    intro t ht
    simpa [g.unstarted hstate] using g.running t ht
  have hs : (k.tasks next).state = .ready := by
    simp only [TaskState.isReady, Bool.or_eq_true, decide_eq_true_eq] at hready
    exact hready.resolve_right (hrunning next)
  have he : kernelPrepareStart cfg k =
      ({ (kernelReloadTimeSlice cfg k next).switch next next with state := .running }, .ok) := by
    simp [kernelPrepareStart, hstate, hnext, taskIsValid, hm, hs, taskTransitionState, Kernel.updateTask,
      kernelReloadTimeSlice, Kernel.switch]
    funext t
    by_cases ht : t = next
    · simp [ht]
    · simp [ht]
  refine ⟨next, hnext, he, ?_⟩
  have g' : (kernelReloadTimeSlice cfg k next).Good cfg := by
    refine g.bookkept ⟨rfl, ?_⟩
    intro t
    by_cases ht : t = next
    · subst ht
      simp [kernelReloadTimeSlice, Kernel.updateTask]
    · simp [kernelReloadTimeSlice, Kernel.updateTask, ht]
  rw [he]
  apply g'.switch
  · intro t ht
    by_cases htn : t = next
    · exact htn
    · exact absurd ht (by simpa [kernelReloadTimeSlice, Kernel.updateTask, htn] using hrunning t)
  · simp [kernelReloadTimeSlice, Kernel.updateTask, hready]

end

end Hairtos

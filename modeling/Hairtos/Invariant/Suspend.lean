import Hairtos.Invariant.Block

namespace Hairtos

open Library

def suspendedBlock (cfg : Config) (cb : TaskControlBlock) : TaskControlBlock :=
  { cb with
    state := .suspended
    suspendedResumeState := if cb.state = .blocked then .blocked else .ready
    timeSliceRemaining := if cb.state = .running then cfg.timeSliceTicks else cb.timeSliceRemaining }

def Kernel.suspend (cfg : Config) (k : Kernel) (t : TaskRef) : Kernel :=
  { k with
    scheduler := if (k.tasks t).state = .blocked then k.scheduler else (schedulerRemoveReady cfg k.scheduler t).1
    tasks := Function.update k.tasks t (suspendedBlock cfg (k.tasks t))
    switchReasons :=
      if (k.tasks t).state = .running then { k.switchReasons with block := true } else k.switchReasons }

def resumedBlock (cfg : Config) (cb : TaskControlBlock) : TaskControlBlock :=
  { cb with
    state := if cb.suspendedResumeState = .blocked then .blocked else .ready
    suspendedResumeState := .invalid
    timeSliceRemaining := if cb.suspendedResumeState = .blocked then cb.timeSliceRemaining else cfg.timeSliceTicks }

def Kernel.resume (cfg : Config) (k : Kernel) (t : TaskRef) : Kernel :=
  { k with
    scheduler :=
      if (k.tasks t).suspendedResumeState = .blocked then k.scheduler else (schedulerAddReady cfg k.scheduler t).1
    tasks := Function.update k.tasks t (resumedBlock cfg (k.tasks t)) }

section

variable {cfg : Config} {k : Kernel} {t : TaskRef}

theorem Kernel.Sound.ready_shape (g : k.Sound cfg) (hs : (k.tasks t).state.isReady = true) :
    (k.tasks t).magic = true ∧ (k.tasks t).wait = none ∧
      k.scheduler.queues.host t = some (k.scheduler.priority t) := by
  have h := g.shape t
  have hm := h.magic_of_isReady hs
  refine ⟨hm, h.wait_none_of_isReady hs, ?_⟩
  have hhost : k.scheduler.queues.host t = some (k.tasks t).effectivePriority := h.readyHost.trans (if_pos hs)
  rw [hhost]
  exact congrArg some (h.agree hm).1.symm

theorem Kernel.Sound.unready_of_suspended (g : k.Sound cfg) (hs : (k.tasks t).state = .suspended) :
    k.scheduler.queues.host t = none := by
  have hready := (g.shape t).readyHost
  simpa [Kernel.view, hs, TaskState.isReady] using hready

theorem Kernel.Sound.unready_of_blocked (g : k.Sound cfg) (hs : (k.tasks t).state = .blocked) :
    k.scheduler.queues.host t = none := by
  have hready := (g.shape t).readyHost
  simpa [Kernel.view, hs, TaskState.isReady] using hready

theorem suspendedBlock_isWaiting (cb : TaskControlBlock) :
    (suspendedBlock cfg cb).isWaiting = decide (cb.state = .blocked) := by
  by_cases hs : cb.state = .blocked <;> simp [TaskControlBlock.isWaiting, suspendedBlock, hs]

theorem Shape.suspend {v v' : TaskView} (h : Shape cfg v) (hs : v.cb.state.isReady = true ∨ v.cb.state = .blocked)
    (hi : v.idle = false) (hv : v' = { v with cb := suspendedBlock cfg v.cb, readyHost := none }) : Shape cfg v' := by
  have hm : v.cb.magic = true := by
    apply h.magic.mpr
    intro hs'
    simp [hs', TaskState.isReady] at hs
  have hreg : v.registered = true := by
    apply h.registered.mpr
    constructor <;> intro hs' <;> simp [hs', TaskState.isReady] at hs
  have hwaiting : v.cb.isWaiting = decide (v.cb.state = .blocked) := by
    rcases hs with hs | hs
    · rcases (by simpa [TaskState.isReady] using hs) with hs | hs <;> simp [TaskControlBlock.isWaiting, hs]
    · simp [TaskControlBlock.isWaiting, hs]
  subst hv
  refine ⟨?_, ?_, ?_, h.waitHost,
    ⟨h.records.kind, h.records.object, h.records.waitList, h.records.buffer, h.records.cleanup⟩, ?_, h.timeoutHost,
    ?_, ?_, h.agree, h.effective, h.fresh, h.base, h.urgent, ?_⟩
  · simp [suspendedBlock, hm]
  · simp [suspendedBlock, hreg]
  · simp [suspendedBlock, TaskState.isReady]
  · rw [suspendedBlock_isWaiting, ← hwaiting]
    exact h.waiting
  · intro _
    by_cases hb : v.cb.state = .blocked <;> simp [suspendedBlock, hb]
  · simp [suspendedBlock]
  · simp [hi]

theorem Shape.resume {v v' : TaskView} (h : Shape cfg v) (hs : v.cb.state = .suspended) (hi : v.idle = false)
    (hv : v' = { v with
      cb := resumedBlock cfg v.cb
      readyHost := if v.cb.suspendedResumeState = .blocked then none else some v.cb.effectivePriority }) :
    Shape cfg v' := by
  have hm : v.cb.magic = true := h.magic.mpr (by simp [hs])
  have hreg : v.registered = true := h.registered.mpr (by simp [hs])
  have hwaiting : v.cb.isWaiting = decide (v.cb.suspendedResumeState = .blocked) := by
    simp [TaskControlBlock.isWaiting, hs]
  subst hv
  have hresumed : (resumedBlock cfg v.cb).isWaiting = decide (v.cb.suspendedResumeState = .blocked) := by
    by_cases hb : v.cb.suspendedResumeState = .blocked <;> simp [TaskControlBlock.isWaiting, resumedBlock, hb]
  refine ⟨?_, ?_, ?_, h.waitHost,
    ⟨h.records.kind, h.records.object, h.records.waitList, h.records.buffer, h.records.cleanup⟩, ?_, h.timeoutHost,
    ?_, ?_, h.agree, h.effective, h.fresh, h.base, h.urgent, ?_⟩
  · by_cases hb : v.cb.suspendedResumeState = .blocked <;> simp [resumedBlock, hm, hb]
  · by_cases hb : v.cb.suspendedResumeState = .blocked <;> simp [resumedBlock, hreg, hb]
  · by_cases hb : v.cb.suspendedResumeState = .blocked <;> simp [resumedBlock, hb, TaskState.isReady]
  · rw [hresumed, ← hwaiting]
    exact h.waiting
  · intro hsus
    by_cases hb : v.cb.suspendedResumeState = .blocked <;> simp [resumedBlock, hb] at hsus
  · simp [resumedBlock]
  · simp [hi]

theorem Kernel.Good.suspend (g : k.Good cfg) (hs : (k.tasks t).state.isReady = true ∨ (k.tasks t).state = .blocked)
    (hi : t ≠ .idle) : (k.suspend cfg t).Good cfg := by
  have hsched : (k.suspend cfg t).scheduler.WellFormed cfg ∧
      (k.suspend cfg t).scheduler.priority = k.scheduler.priority ∧
      (k.suspend cfg t).scheduler.queues = k.scheduler.queues.unlink t := by
    by_cases hb : (k.tasks t).state = .blocked
    · simp [Kernel.suspend, hb, g.scheduler, ListFamily.unlink_of_none _ (g.unready_of_blocked hb)]
    · obtain ⟨-, -, hhost⟩ := g.ready_shape (hs.resolve_right hb)
      obtain ⟨set', he, hwf, hp, hq⟩ := schedulerRemoveReady_spec g.scheduler t hhost
      simp [Kernel.suspend, hb, he, hwf, hp, hq]
  obtain ⟨hwf, hp, hq⟩ := hsched
  refine ⟨g.updateView ⟨rfl, rfl, rfl, rfl, rfl, rfl⟩ hwf g.sorted g.timeouts rfl t ?_ ?_ ?_, ?_⟩
  · intro u hu
    simp only [Kernel.view, hp, hq]
    simp [Kernel.suspend, hu]
  · apply (g.shape t).suspend hs (by simpa [Kernel.view] using hi)
    simp only [Kernel.view, hp, hq]
    simp [Kernel.suspend]
  · simp [Kernel.suspend, suspendedBlock]
  · intro u hu
    apply g.delays u
    by_cases hut : u = t
    · subst hut
      simpa [Kernel.suspend, suspendedBlock, TaskControlBlock.wait] using hu
    · simpa [Kernel.suspend, hut] using hu

theorem Kernel.Good.resume (g : k.Good cfg) (hs : (k.tasks t).state = .suspended) (hi : t ≠ .idle) :
    (k.resume cfg t).Good cfg := by
  have hnone := g.unready_of_suspended hs
  have hm : (k.tasks t).magic = true := (g.shape t).magic.mpr (by simp [Kernel.view, hs])
  have hagree : k.scheduler.priority t = (k.tasks t).effectivePriority := ((g.shape t).agree hm).1
  have hsched : (k.resume cfg t).scheduler.WellFormed cfg ∧
      (k.resume cfg t).scheduler.priority = k.scheduler.priority ∧
      (k.resume cfg t).scheduler.queues.host = Function.update k.scheduler.queues.host t
        (if (k.tasks t).suspendedResumeState = .blocked then none else some (k.tasks t).effectivePriority) := by
    by_cases hb : (k.tasks t).suspendedResumeState = .blocked
    · simp [Kernel.resume, hb, g.scheduler, hnone]
    · obtain ⟨set', he, hwf, hp, hhost, -⟩ := schedulerAddReady_spec g.scheduler t
        (hagree ▸ (g.shape t).effective_lt hm) hnone
      simp [Kernel.resume, hb, he, hwf, hp, hhost, hagree]
  obtain ⟨hwf, hp, hhost⟩ := hsched
  refine ⟨g.updateView ⟨rfl, rfl, rfl, rfl, rfl, rfl⟩ hwf g.sorted g.timeouts rfl t ?_ ?_ ?_, ?_⟩
  · intro u hu
    simp only [Kernel.view, hp, hhost]
    simp [Kernel.resume, hu]
  · apply (g.shape t).resume hs (by simpa [Kernel.view] using hi)
    simp only [Kernel.view, hp, hhost]
    simp only [Kernel.resume, Function.update_self]
    rfl
  · by_cases hb : (k.tasks t).suspendedResumeState = .blocked <;> simp [Kernel.resume, resumedBlock, hb]
  · intro u hu
    apply g.delays u
    by_cases hut : u = t
    · subst hut
      simpa [Kernel.resume, resumedBlock, TaskControlBlock.wait] using hu
    · simpa [Kernel.resume, hut] using hu

theorem kernelSuspendTask_eq (g : k.Good cfg) (hk : k.state = .running) (hi : t ≠ .idle)
    (hs : (k.tasks t).state.isReady = true ∨ (k.tasks t).state = .blocked) :
    kernelSuspendTask cfg k t = (k.suspend cfg t, decide ((k.tasks t).state = .running), .ok) := by
  have hm : (k.tasks t).magic = true := by
    apply (g.shape t).magic.mpr
    intro hinvalid
    simp [show (k.tasks t).state = .invalid from hinvalid, TaskState.isReady] at hs
  cases hstate : (k.tasks t).state with
  | invalid => simp [hstate, TaskState.isReady] at hs
  | created => simp [hstate, TaskState.isReady] at hs
  | suspended => simp [hstate, TaskState.isReady] at hs
  | ready =>
    obtain ⟨-, -, hhost⟩ := g.ready_shape (t := t) (by simp [hstate, TaskState.isReady])
    obtain ⟨set', he, -, -, -⟩ := schedulerRemoveReady_spec g.scheduler t hhost
    simp [kernelSuspendTask, hk, taskIsValid, hm, hi, hstate, listNodeIsLinked, hhost, Kernel.removeReady, he,
      taskTransitionState, Kernel.updateTask, Kernel.suspend, suspendedBlock]
  | running =>
    obtain ⟨-, -, hhost⟩ := g.ready_shape (t := t) (by simp [hstate, TaskState.isReady])
    obtain ⟨set', he, -, -, -⟩ := schedulerRemoveReady_spec g.scheduler t hhost
    simp [kernelSuspendTask, hk, taskIsValid, hm, hi, hstate, g.running t hstate, listNodeIsLinked, hhost,
      Kernel.removeReady, he, taskTransitionState, Kernel.updateTask, Kernel.suspend, suspendedBlock,
      kernelReloadTimeSlice]
  | blocked =>
    have hw : (k.view t).cb.wait ≠ none := (g.shape t).wait_of_blocked hstate
    obtain ⟨w, hw⟩ := Option.ne_none_iff_exists'.mp hw
    have hrec := (g.shape t).records
    rw [hw] at hrec
    have hkind : (k.tasks t).waitKind = w.kind := hrec.kind
    have hobj : (k.tasks t).waitingObject = some w.object := hrec.object
    have hne : w.kind ≠ .none := by cases w <;> simp [Wait.kind]
    simp [kernelSuspendTask, hk, taskIsValid, hm, hi, hstate, hkind, hobj, hne, listNodeIsLinked,
      g.unready_of_blocked hstate, taskTransitionState, Kernel.updateTask, Kernel.suspend, suspendedBlock]

theorem kernelSuspendTask_spec (g : k.Good cfg) (t : TaskRef) :
    (∃ status, status ≠ .ok ∧ kernelSuspendTask cfg k t = (k, false, status)) ∨
    (((k.tasks t).state.isReady = true ∨ (k.tasks t).state = .blocked) ∧ t ≠ .idle ∧
      kernelSuspendTask cfg k t = (k.suspend cfg t, decide ((k.tasks t).state = .running), .ok)) := by
  by_cases hguard : k.state ≠ .running ∨ (k.tasks t).magic = false ∨ t = .idle
  · refine Or.inl ⟨.invalidState, by simp, ?_⟩
    have : (k.state ≠ .running || !taskIsValid k t || t = .idle : Bool) = true := by
      simpa [taskIsValid, or_assoc] using hguard
    rw [kernelSuspendTask, if_pos this]
  push Not at hguard
  obtain ⟨hk, hm, hi⟩ := hguard
  have hm : (k.tasks t).magic = true := by simpa using hm
  by_cases hs : (k.tasks t).state.isReady = true ∨ (k.tasks t).state = .blocked
  · exact Or.inr ⟨hs, hi, kernelSuspendTask_eq g hk hi hs⟩
  · refine Or.inl ⟨.invalidState, by simp, ?_⟩
    cases hstate : (k.tasks t).state <;> simp [hstate, TaskState.isReady] at hs <;>
      simp [kernelSuspendTask, hk, taskIsValid, hm, hi, hstate]

theorem kernelResumeTask_eq (g : k.Good cfg) (hk : k.state = .running) (hi : t ≠ .idle)
    (hs : (k.tasks t).state = .suspended) :
    ∃ preempt, preempt = (cfg.preemption && decide ((k.tasks t).suspendedResumeState = .ready) &&
        kernelOutranksCurrent (k.resume cfg t) t) ∧
      kernelResumeTask cfg k t =
        (if preempt then { k.resume cfg t with switchReasons := { k.switchReasons with preempt := true } }
          else k.resume cfg t, preempt, .ok) := by
  have hm : (k.tasks t).magic = true := by
    apply (g.shape t).magic.mpr
    simp [Kernel.view, hs]
  refine ⟨_, rfl, ?_⟩
  rcases (g.shape t).resumes hs with hr | hr
  · have hr : (k.tasks t).suspendedResumeState = .ready := hr
    have hagree : k.scheduler.priority t = (k.tasks t).effectivePriority := ((g.shape t).agree hm).1
    obtain ⟨set', he, -, -, -, -⟩ := schedulerAddReady_spec g.scheduler t
      (hagree ▸ (g.shape t).effective_lt hm) (g.unready_of_suspended hs)
    have hbody : kernelResumeTask cfg k t =
        if cfg.preemption && kernelOutranksCurrent (k.resume cfg t) t then
          ({ k.resume cfg t with switchReasons := { k.switchReasons with preempt := true } }, true, .ok)
        else (k.resume cfg t, false, .ok) := by
      simp [kernelResumeTask, hk, taskIsValid, hm, hi, hs, hr, Kernel.addReady, he, taskTransitionState,
        Kernel.updateTask, kernelReloadTimeSlice, Kernel.resume, resumedBlock]
    rw [hbody]
    simp only [hr, decide_true, Bool.and_true]
    cases cfg.preemption && kernelOutranksCurrent (k.resume cfg t) t <;> rfl
  · have hr : (k.tasks t).suspendedResumeState = .blocked := hr
    simp [kernelResumeTask, hk, taskIsValid, hm, hi, hs, hr, taskTransitionState, Kernel.updateTask, Kernel.resume,
      resumedBlock]

theorem kernelResumeTask_spec (g : k.Good cfg) (t : TaskRef) :
    (∃ status, status ≠ .ok ∧ kernelResumeTask cfg k t = (k, false, status)) ∨
    ((k.tasks t).state = .suspended ∧ t ≠ .idle ∧ ∃ preempt,
      preempt = (cfg.preemption && decide ((k.tasks t).suspendedResumeState = .ready) &&
        kernelOutranksCurrent (k.resume cfg t) t) ∧
      kernelResumeTask cfg k t =
        (if preempt then { k.resume cfg t with switchReasons := { k.switchReasons with preempt := true } }
          else k.resume cfg t, preempt, .ok)) := by
  by_cases hguard : k.state ≠ .running ∨ (k.tasks t).magic = false ∨ t = .idle
  · refine Or.inl ⟨.invalidState, by simp, ?_⟩
    have : (k.state ≠ .running || !taskIsValid k t || t = .idle : Bool) = true := by
      simpa [taskIsValid, or_assoc] using hguard
    rw [kernelResumeTask, if_pos this]
  push Not at hguard
  obtain ⟨hk, hm, hi⟩ := hguard
  have hm : (k.tasks t).magic = true := by simpa using hm
  by_cases hs : (k.tasks t).state = .suspended
  · exact Or.inr ⟨hs, hi, kernelResumeTask_eq g hk hi hs⟩
  · refine Or.inl ⟨.invalidState, by simp, ?_⟩
    simp [kernelResumeTask, hk, taskIsValid, hm, hi, hs]

end

end Hairtos

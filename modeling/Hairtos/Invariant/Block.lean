import Hairtos.Invariant.Priority

namespace Hairtos

open Library

def Wait.pendingResult : Wait → Status
  | .delay => .ok
  | _ => .internal

def waitingBlock (cfg : Config) (cb : TaskControlBlock) (w : Wait) (wakeTick : Tick) : TaskControlBlock :=
  { cb with
    state := .blocked
    wakeTick := wakeTick
    timeSliceRemaining := cfg.timeSliceTicks
    waitingObject := some w.object
    blockedWaitList := w.waitList
    waitBuffer := w.buffer
    waitCleanup := w.cleanup
    waitResult := w.pendingResult
    waitKind := w.kind }

def Kernel.enterWaitList (k : Kernel) (t : TaskRef) : Option WaitListRef → WaitLists WaitListRef TaskRef
  | none => k.waitLists
  | some l => (waitListInsert k.waitLists l t).1

def Kernel.enterTimeout (k : Kernel) (t : TaskRef) : Option Tick → TimeoutList TaskRef
  | none => k.timeoutList
  | some d => (timeoutListInsert k.timeoutList t d).1

def Kernel.startWait (cfg : Config) (k : Kernel) (t : TaskRef) (w : Wait) (ticks : Option Tick) : Kernel :=
  { k with
    scheduler := (schedulerRemoveReady cfg k.scheduler t).1
    waitLists := k.enterWaitList t w.waitList
    timeoutList := k.enterTimeout t ticks
    tasks := Function.update k.tasks t (waitingBlock cfg (k.tasks t) w (ticks.elim 0#32 (k.tick + ·)))
    switchReasons := { k.switchReasons with block := true } }

def timeoutTicks (timeout : Tick) : Option Tick := if timeout = waitForever then none else some timeout

section

variable {cfg : Config} {k : Kernel} {t : TaskRef}

theorem waitingBlock_records (cb : TaskControlBlock) (w : Wait) (wakeTick : Tick) :
    (waitingBlock cfg cb w wakeTick).Records (some w) := ⟨rfl, rfl, rfl, rfl, rfl⟩

theorem waitingBlock_wait (cb : TaskControlBlock) (w : Wait) (wakeTick : Tick) :
    (waitingBlock cfg cb w wakeTick).wait = some w := (waitingBlock_records cb w wakeTick).wait_eq

theorem Kernel.Sound.running_shape (g : k.Sound cfg) (hs : (k.tasks t).state = .running) :
    (k.tasks t).magic = true ∧ (k.tasks t).wait = none ∧ k.waitLists.lists.host t = none ∧
      k.timeoutList.lists.host t = none ∧ k.scheduler.queues.host t = some (k.scheduler.priority t) ∧
      k.scheduler.priority t < cfg.priorityCount := by
  have hr : (k.view t).cb.state.isReady = true := by simp [Kernel.view, hs, TaskState.isReady]
  have h := g.shape t
  have hm := h.magic_of_isReady hr
  have hw := h.wait_none_of_isReady hr
  have hhost : k.scheduler.queues.host t = some (k.tasks t).effectivePriority := h.readyHost.trans (if_pos hr)
  refine ⟨hm, hw, h.waitHost_none hw, h.timeoutHost_none hw, ?_, ?_⟩
  · rw [hhost]
    exact congrArg some (h.agree hm).1.symm
  · rw [show k.scheduler.priority t = (k.tasks t).effectivePriority from (h.agree hm).1]
    exact h.effective_lt hm

theorem Kernel.enterTimeout_spec (wf : k.timeoutList.WellFormed) (hn : k.timeoutList.lists.host t = none)
    (ticks : Option Tick) (hd : ∀ d, ticks = some d → d ≠ 0#32 ∧ d ≠ waitForever) :
    (k.enterTimeout t ticks).WellFormed ∧ (k.enterTimeout t ticks).lastTick = k.timeoutList.lastTick ∧
      ((k.enterTimeout t ticks).lists.host t).isSome = ticks.isSome ∧
      (∀ u, u ≠ t → (k.enterTimeout t ticks).lists.host u = k.timeoutList.lists.host u) ∧
      ∀ d, ticks = some d → timeoutListInsert k.timeoutList t d = (k.enterTimeout t ticks, .ok) := by
  cases ticks with
  | none => exact ⟨wf, rfl, by simp [Kernel.enterTimeout, hn], fun _ _ => rfl, by simp⟩
  | some d =>
    obtain ⟨h0, hf⟩ := hd d rfl
    obtain ⟨tl, i, he, hwf, hlast, hhost, -, -⟩ := timeoutListInsert_spec wf t d h0 hf hn
    have htl : k.enterTimeout t (some d) = tl := by simp [Kernel.enterTimeout, he]
    rw [htl]
    refine ⟨hwf, hlast, by simp [hhost], ?_, ?_⟩
    · intro u hu
      simp [hhost, hu]
    · rintro d' ⟨⟩
      exact he

theorem Kernel.enterTimeout_left (wf : k.timeoutList.WellFormed) (hn : k.timeoutList.lists.host t = none)
    (ticks : Option Tick) (hd : ∀ d, ticks = some d → d ≠ 0#32 ∧ d ≠ waitForever) (u : TaskRef) :
    (k.enterTimeout t ticks).left u = if u = t then ticks.map BitVec.toNat else k.timeoutList.left u := by
  cases ticks with
  | none =>
    by_cases hu : u = t
    · simp [Kernel.enterTimeout, TimeoutList.left, hu, hn]
    · simp [Kernel.enterTimeout, hu]
  | some d => exact timeoutListInsert_left wf (hd d rfl).1 (hd d rfl).2 hn u

theorem Kernel.enterTimeout_not_expired (hn : k.timeoutList.lists.host t = none) (ticks : Option Tick) :
    (k.enterTimeout t ticks).lists.host t ≠ some .expired := by
  cases ticks with
  | none => simp [Kernel.enterTimeout, hn]
  | some d =>
    by_cases hd : d = waitForever
    · simp [Kernel.enterTimeout, timeoutListInsert, hd, hn]
    · simp [Kernel.enterTimeout, timeoutListInsert_eq _ _ _ hd hn]

theorem Kernel.enterWaitList_spec (hs : k.waitLists.Sorted) (hn : k.waitLists.lists.host t = none)
    (l : Option WaitListRef) :
    (k.enterWaitList t l).Sorted ∧ (k.enterWaitList t l).priority = k.waitLists.priority ∧
      (k.enterWaitList t l).lists.host = Function.update k.waitLists.lists.host t l ∧
      ∀ l', l = some l' → waitListInsert k.waitLists l' t = (k.enterWaitList t l, .ok) := by
  cases l with
  | none =>
    refine ⟨hs, rfl, ?_, by simp⟩
    simp [hn, Kernel.enterWaitList]
  | some l =>
    have he := waitListInsert_eq k.waitLists l t hn
    have hw := congrArg Prod.fst he
    simp only [Kernel.enterWaitList]
    refine ⟨?_, ?_, ?_, ?_⟩
    · rw [hw]
      exact hs.insert l t hn
    · rw [hw]
    · rw [hw]
      rfl
    · rintro l' ⟨⟩
      rw [he]

theorem Shape.startWait {v v' : TaskView} (h : Shape cfg v) (hs : v.cb.state = .running) (hi : v.idle = false)
    {w : Wait} {wakeTick : Tick} (hcb : v'.cb = waitingBlock cfg v.cb w wakeTick) (hidle : v'.idle = v.idle)
    (hreg : v'.registered = v.registered) (hready : v'.readyHost = none) (hwait : v'.waitHost = w.waitList)
    (hrp : v'.readyPriority = v.readyPriority) (hwp : v'.waitPriority = v.waitPriority) : Shape cfg v' := by
  have hr : v.cb.state.isReady = true := by simp [hs, TaskState.isReady]
  have hm := h.magic_of_isReady hr
  have hw : v'.cb.wait = some w := by
    rw [hcb]
    exact waitingBlock_wait v.cb w wakeTick
  have hne : v.cb.state ≠ .suspended := by simp [hs]
  constructor
  · simp [hcb, waitingBlock, hm]
  · simp [hcb, waitingBlock, hreg, h.registered_of_isReady hr]
  · simp [hready, hcb, waitingBlock, TaskState.isReady]
  · rw [hwait, hcb]
    rfl
  · rw [hw, hcb]
    exact waitingBlock_records v.cb w wakeTick
  · rw [hw, hcb]
    simp [waitingBlock, TaskControlBlock.isWaiting]
  · simp [hw]
  · simp [hcb, waitingBlock]
  · simpa [hcb, waitingBlock] using h.resumesNot hne
  · rw [hcb, hrp, hwp]
    exact h.agree
  · rw [hcb]
    exact h.effective
  · simp [hreg, h.registered_of_isReady hr]
  · rw [hcb]
    exact h.base
  · rw [hcb, hreg, hidle]
    exact h.urgent
  · simp [hidle, hi]

theorem Kernel.Good.startWait (g : k.Good cfg) (hs : (k.tasks t).state = .running) (hi : t ≠ .idle) (w : Wait)
    (ticks : Option Tick) (hd : ∀ d, ticks = some d → d ≠ 0#32 ∧ d ≠ waitForever)
    (hdelay : w = .delay → ticks ≠ none) : (k.startWait cfg t w ticks).Good cfg := by
  obtain ⟨hm, hnone, hwn, htn, hrn, hp⟩ := g.running_shape hs
  obtain ⟨hwft, hlast, hself, hothers, -⟩ := Kernel.enterTimeout_spec g.timeouts htn ticks hd
  obtain ⟨hsorted, hprio, hhost, -⟩ := Kernel.enterWaitList_spec g.sorted hwn w.waitList
  obtain ⟨set', he, hwf, hsp, hq⟩ := schedulerRemoveReady_spec g.scheduler t hrn
  have hset : (k.startWait cfg t w ticks).scheduler = set' := by simp [Kernel.startWait, he]
  have hctl : SameControl k (k.startWait cfg t w ticks) := ⟨rfl, rfl, rfl, rfl, rfl, rfl⟩
  refine ⟨g.updateView hctl (hset ▸ hwf) hsorted hwft hlast t ?_ ?_ (fun _ => hs), ?_⟩
  · intro u hu
    simp only [Kernel.view, hset, hsp, hq]
    simp [Kernel.startWait, hu, hprio, hhost, hothers u hu]
  · have hcb : ((k.startWait cfg t w ticks).view t).cb =
        waitingBlock cfg (k.view t).cb w (ticks.elim 0#32 (k.tick + ·)) := by
      simp [Kernel.view, Kernel.startWait]
    refine (g.shape t).startWait hs (by simpa [Kernel.view] using hi) hcb rfl rfl ?_ ?_ ?_ ?_
    · simp [Kernel.view, hset, hq]
    · simp [Kernel.view, Kernel.startWait, hhost]
    · simp [Kernel.view, hset, hsp]
    · simp [Kernel.view, Kernel.startWait, hprio]
  · intro u hu
    by_cases hut : u = t
    · subst hut
      have hw : w = .delay := by simpa [Kernel.startWait, waitingBlock_wait] using hu
      have hsome : ticks.isSome = true := Option.isSome_iff_ne_none.mpr (hdelay hw)
      rw [← hself] at hsome
      exact Option.isSome_iff_ne_none.mp hsome
    · simp only [Kernel.startWait, ne_eq, hut, not_false_eq_true, Function.update_of_ne] at hu ⊢
      rw [hothers u hut]
      exact g.delays u hu

theorem kernelDelayCurrent_eq (g : k.Sound cfg) (hk : k.state = .running) (hc : k.currentTask = some t)
    (hs : (k.tasks t).state = .running) (hi : t ≠ .idle) {d : Tick} (h0 : d ≠ 0#32) (hf : d ≠ waitForever) :
    kernelDelayCurrent cfg k d = (k.startWait cfg t .delay (some d), .ok) := by
  obtain ⟨hm, hnone, hwn, htn, hrn, hp⟩ := g.running_shape hs
  obtain ⟨set', he, -, -, -⟩ := schedulerRemoveReady_spec g.scheduler t hrn
  obtain ⟨-, -, -, -, hins⟩ :=
    Kernel.enterTimeout_spec g.timeouts htn (some d) (by rintro _ ⟨⟩; exact ⟨h0, hf⟩)
  have hclean : (k.tasks t).waitCleanup = none := by
    have hr := (g.shape t).records.cleanup
    rwa [show (k.view t).cb.wait = none from hnone] at hr
  simp [kernelDelayCurrent, hc, hk, hi, h0, hf, hs, listNodeIsLinked, hrn, htn, Kernel.removeReady, he,
    Kernel.timeoutInsert, hins d rfl, taskTransitionState, taskIsValid, hm, Kernel.updateTask, kernelReloadTimeSlice,
    Kernel.startWait, Kernel.enterWaitList, waitingBlock, Wait.object, Wait.waitList, Wait.buffer, Wait.cleanup,
    Wait.pendingResult, Wait.kind, hclean]

theorem kernelBlockCurrentOnWaitListEx_eq (g : k.Sound cfg) (hk : k.state = .running) (hc : k.currentTask = some t)
    (hs : (k.tasks t).state = .running) (hi : t ≠ .idle) {w : Wait} {l : WaitListRef} (hl : w.waitList = some l)
    {timeout : Tick} (h0 : timeout ≠ noWait) :
    kernelBlockCurrentOnWaitListEx cfg k l w.object w.kind w.buffer timeout w.cleanup =
      (k.startWait cfg t w (timeoutTicks timeout), .ok) := by
  obtain ⟨hm, hnone, hwn, htn, hrn, hp⟩ := g.running_shape hs
  obtain ⟨set', he, -, -, -⟩ := schedulerRemoveReady_spec g.scheduler t hrn
  obtain ⟨-, -, -, hin⟩ := Kernel.enterWaitList_spec g.sorted hwn w.waitList
  have hkind : w.kind ≠ .none ∧ w.kind ≠ .delay ∧
      ¬ ((w.kind = .queueSend ∨ w.kind = .queueReceive) ∧ w.buffer = none) ∧ w.pendingResult = .internal := by
    cases w <;> simp_all [Wait.kind, Wait.buffer, Wait.waitList, Wait.pendingResult]
  obtain ⟨hk1, hk2, hk3, hres⟩ := hkind
  have hne : waitForever ≠ noWait := by decide
  by_cases hf : timeout = waitForever
  · simp [kernelBlockCurrentOnWaitListEx, hc, hk, hi, hne, hf, hk1, hk2, hk3, hres, hs, listNodeIsLinked,
      hrn, hwn, htn, Kernel.removeReady, he, Kernel.waitInsert, hin l hl, taskTransitionState, taskIsValid, hm,
      Kernel.updateTask, kernelReloadTimeSlice, Kernel.startWait, Kernel.enterTimeout, timeoutTicks, waitingBlock, hl]
  · obtain ⟨-, -, -, -, hins⟩ := Kernel.enterTimeout_spec g.timeouts htn (some timeout)
      (by rintro _ ⟨⟩; exact ⟨h0, hf⟩)
    simp [kernelBlockCurrentOnWaitListEx, hc, hk, hi, h0, hf, hk1, hk2, hk3, hres, hs, listNodeIsLinked,
      hrn, hwn, htn, Kernel.removeReady, he, Kernel.waitInsert, hin l hl, Kernel.timeoutInsert, hins timeout rfl,
      taskTransitionState, taskIsValid, hm, Kernel.updateTask, kernelReloadTimeSlice, Kernel.startWait, timeoutTicks,
      waitingBlock, hl]

end

end Hairtos

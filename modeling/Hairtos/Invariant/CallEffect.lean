import Hairtos.Invariant.Action

namespace Hairtos

open Library

def Called (s : System) (inIsr : Bool) : Prop :=
  inIsr = false → s.kernel.state = .running → ∃ t, s.kernel.Runs t

def QueueResult.finish (r : QueueResult) : System × Outcome :=
  ({ r.system with
      kernel := if r.blocked || r.woken then requestContextSwitch r.system.kernel else r.system.kernel },
    if r.blocked then .blocked else .returned r.status)

def Call.serves : Call → Option WaitListRef
  | .queueSend q _ _ => q.map .queueReceive
  | .queueReceive q _ _ => q.map .queueSend
  | .queueSendFromIsr q _ => q.map .queueReceive
  | .queueReceiveFromIsr q _ => q.map .queueSend
  | .semaphoreGive x => x.map (fun x => .semaphore (.app x))
  | .semaphoreGiveFromIsr x => x.map (fun x => .semaphore (.app x))
  | .mutexUnlock m => m.map .mutex
  | _ => none

def Call.passes (s : System) (inIsr : Bool) : Call → Bool
  | .queueSend (some q) (some _) _ => !inIsr && queueIsValid s q
  | .queueReceive (some q) (some _) _ => !inIsr && queueIsValid s q
  | .queueSendFromIsr (some q) (some _) => inIsr && queueIsValid s q
  | .queueReceiveFromIsr (some q) (some _) => inIsr && queueIsValid s q
  | .semaphoreGive (some x) => !inIsr && semaphoreIsValid s (.app x)
  | .semaphoreGiveFromIsr (some x) => inIsr && semaphoreIsValid s (.app x)
  | .mutexUnlock (some m) => !inIsr && mutexIsValid s m
  | _ => false

/-- The waiters that the call gets to, once its arguments and its context have been checked. -/
def Call.serving (s : System) (inIsr : Bool) (c : Call) : Option WaitListRef :=
  if c.passes s inIsr then c.serves else none

def Call.ServesFresh (s : System) (inIsr : Bool) (c : Call) : Prop :=
  ∀ l, c.serving s inIsr = some l → Fresh s l

def Call.usesTimer : Call → Bool
  | .timerCreateStatic _ _ _ _ _ => true
  | .timerStart _ => true
  | .timerStop _ => true
  | .timerReset _ => true
  | .timerChangePeriod _ _ => true
  | _ => false

def System.signalled (s : System) : System :=
  (s.updateSemaphore .timerSignal (fun _ => { magic := true, count := 0, maxCount := 1 })).record
    [.created .timerSignal 0]

inductive Bringup (cfg : Config) (s : System) : System → Prop
  | timers (timers : TimerSystem) (kept : s.timers.initialized = true → timers.initialized = true)
      (ready : timers.initialized = true → s.timers.initialized = true ∨
        s.semaphores .timerSignal = { magic := true, count := 0, maxCount := 1 }) :
      Bringup cfg s { s with timers := timers }
  | signal (fresh : (s.semaphores .timerSignal).magic = false) (early : s.timers.initialized = false) :
      Bringup cfg s s.signalled
  | create (fresh : (s.kernel.tasks .timerService).magic = false)
      (good : (s.kernel.create cfg .timerService cfg.timerTaskPriority).Good cfg)
      (signal : (s.semaphores .timerSignal).magic = true) :
      Bringup cfg s { s with kernel := s.kernel.create cfg .timerService cfg.timerTaskPriority }
  | register (state : s.kernel.state = .initialized) (created : (s.kernel.tasks .timerService).state = .created)
      (good : (s.kernel.register cfg .timerService).Good cfg) :
      Bringup cfg s { s with kernel := s.kernel.register cfg .timerService }

inductive CallEffect (cfg : Config) (s : System) (inIsr : Bool) : Call → CallResult → Prop
  | refused (c : Call) (status : Status) (failed : status ≠ .ok) :
    CallEffect cfg s inIsr c ⟨s, .returned status, false⟩
  | createTask (n : Nat) (p : TaskParameters) (fresh : (s.kernel.tasks (.app n)).magic = false)
      (good : (s.kernel.create cfg (.app n) p.priority).Good cfg) :
      CallEffect cfg s inIsr (.taskCreateStatic (some n) p)
        ⟨{ s with kernel := s.kernel.create cfg (.app n) p.priority }, .returned .ok, false⟩
  | startTask (t : TaskRef) (state : s.kernel.state = .initialized) (created : (s.kernel.tasks t).state = .created)
      (good : (s.kernel.register cfg t).Good cfg) :
      CallEffect cfg s inIsr (.taskStart (some t)) ⟨{ s with kernel := s.kernel.register cfg t }, .returned .ok,
        false⟩
  | noYield : CallEffect cfg s inIsr .taskYield ⟨s, .returned .ok, false⟩
  | yield (c : Call) (call : c = .taskYield ∨ c = .taskDelay 0#32) (t : TaskRef) (k : Kernel) (task : inIsr = false)
      (runs : s.kernel.Runs t) (calm : s.kernel.Calm k) :
      CallEffect cfg s inIsr c ⟨{ s with kernel := k }, .returned .ok, false⟩
  | delay (t : TaskRef) (ticks : Tick) (task : inIsr = false) (runs : s.kernel.Runs t) (positive : ticks ≠ 0#32)
      (finite : ticks ≠ waitForever) :
      CallEffect cfg s inIsr (.taskDelay ticks)
        ⟨{ s with kernel := requestContextSwitch (s.kernel.startWait cfg t .delay (some ticks)) }, .blocked, false⟩
  | delayUntil (t : TaskRef) (a : Nat) (period ticks : Tick) (remaining : ticks = s.anchors a + period - s.kernel.tick)
      (task : inIsr = false) (runs : s.kernel.Runs t) (positive : ticks ≠ 0#32) (finite : ticks ≠ waitForever) :
      CallEffect cfg s inIsr (.taskDelayUntil (some a) period)
        ⟨{ s with
            kernel := requestContextSwitch (s.kernel.startWait cfg t .delay (some ticks))
            anchors := Function.update s.anchors a (s.anchors a + period) }, .blocked, false⟩
  | missed (a : Nat) (period : Tick) (task : inIsr = false) :
      CallEffect cfg s inIsr (.taskDelayUntil (some a) period)
        ⟨{ s with anchors := Function.update s.anchors a (s.anchors a + period) }, .returned .ok, false⟩
  | suspend (t : TaskRef) (task : inIsr = false)
      (state : (s.kernel.tasks t).state.isReady = true ∨ (s.kernel.tasks t).state = .blocked) (idle : t ≠ .idle)
      (started : s.kernel.state = .running) :
      CallEffect cfg s inIsr (.taskSuspend (some t))
        ⟨{ s with
            kernel := if (s.kernel.tasks t).state = .running then requestContextSwitch (s.kernel.suspend cfg t)
              else s.kernel.suspend cfg t }, .returned .ok, false⟩
  | resume (t : TaskRef) (k : Kernel) (task : inIsr = false) (state : (s.kernel.tasks t).state = .suspended)
      (idle : t ≠ .idle) (calm : (s.kernel.resume cfg t).Calm k)
      (pends : k.pendSvPending = (s.kernel.pendSvPending || (cfg.preemption &&
        decide ((s.kernel.tasks t).suspendedResumeState = .ready) && kernelOutranksCurrent (s.kernel.resume cfg t) t)))
      (started : s.kernel.state = .running) :
      CallEffect cfg s inIsr (.taskResume (some t)) ⟨{ s with kernel := k }, .returned .ok, false⟩
  | createQueue (q : QueueRef) (storage : Nat → UInt8) (itemSize capacity : Nat) (fresh : (s.queues q).magic = false)
      (size : 0 < itemSize) (room : 0 < capacity) (fits : itemSize * capacity ≤ sizeMax) :
      CallEffect cfg s inIsr (.queueCreateStatic (some q) (some storage) itemSize capacity)
        ⟨s.updateQueue q (fun _ => { magic := true, storage := storage, itemSize := itemSize, capacity := capacity }),
          .returned .ok, false⟩
  | send (q : QueueRef) (b : BufferRef) (timeout : Tick) (r : QueueResult) (task : inIsr = false)
      (valid : queueIsValid s q = true) (effect : SendEffect cfg s q b timeout s.kernel.currentTask r)
      (good : r.system.kernel.Good cfg) :
      CallEffect cfg s inIsr (.queueSend (some q) (some b) timeout) ⟨r.finish.1, r.finish.2, false⟩
  | receive (q : QueueRef) (b : BufferRef) (timeout : Tick) (r : QueueResult) (task : inIsr = false)
      (valid : queueIsValid s q = true) (effect : ReceiveEffect cfg s q b timeout s.kernel.currentTask r)
      (good : r.system.kernel.Good cfg) :
      CallEffect cfg s inIsr (.queueReceive (some q) (some b) timeout) ⟨r.finish.1, r.finish.2, false⟩
  | sendFromIsr (q : QueueRef) (b : BufferRef) (r : QueueResult) (isr : inIsr = true) (valid : queueIsValid s q = true)
      (effect : SendEffect cfg s q b noWait none r) (good : r.system.kernel.Good cfg) :
      CallEffect cfg s inIsr (.queueSendFromIsr (some q) (some b)) ⟨r.system, .returned r.status, r.woken⟩
  | receiveFromIsr (q : QueueRef) (b : BufferRef) (r : QueueResult) (isr : inIsr = true)
      (valid : queueIsValid s q = true) (effect : ReceiveEffect cfg s q b noWait none r)
      (good : r.system.kernel.Good cfg) :
      CallEffect cfg s inIsr (.queueReceiveFromIsr (some q) (some b)) ⟨r.system, .returned r.status, r.woken⟩
  | createSemaphore (c : Call) (n count maxCount : Nat)
      (call : c = .semaphoreCreateCounting (some n) count maxCount ∨ ∃ available, c = .semaphoreCreateBinary
        (some n) available)
      (fresh : (s.semaphores (.app n)).magic = false) (room : 0 < maxCount) (fits : count ≤ maxCount) :
      CallEffect cfg s inIsr c
        ⟨(s.updateSemaphore (.app n) (fun _ => { magic := true, count := count, maxCount := maxCount })).record
          [.created (.app n) count], .returned .ok, false⟩
  | take (n : Nat) (timeout : Tick) (s₁ : System) (outcome : Outcome) (task : inIsr = false)
      (valid : semaphoreIsValid s (.app n) = true)
      (effect : TakeEffect cfg s (.app n) timeout s.kernel.currentTask s₁ outcome) (good : s₁.kernel.Good cfg) :
      CallEffect cfg s inIsr (.semaphoreTake (some n) timeout) ⟨s₁, outcome, false⟩
  | give (n : Nat) (s₁ : System) (woken : Bool) (status : Status) (task : inIsr = false)
      (valid : semaphoreIsValid s (.app n) = true) (effect : GiveEffect cfg s (.app n) s₁ woken status)
      (good : s₁.kernel.Good cfg) :
      CallEffect cfg s inIsr (.semaphoreGive (some n))
        ⟨{ s₁ with kernel := if woken then requestContextSwitch s₁.kernel else s₁.kernel }, .returned status,
          false⟩
  | giveFromIsr (n : Nat) (s₁ : System) (woken : Bool) (status : Status) (isr : inIsr = true)
      (valid : semaphoreIsValid s (.app n) = true) (effect : GiveEffect cfg s (.app n) s₁ woken status)
      (good : s₁.kernel.Good cfg) :
      CallEffect cfg s inIsr (.semaphoreGiveFromIsr (some n)) ⟨s₁, .returned status, woken⟩
  | createMutex (c : Call) (m : MutexRef) (recursive : Bool)
      (call : c = .mutexCreate (some m) ∧ recursive = false ∨ c = .mutexCreateRecursive (some m) ∧
        recursive = true)
      (fresh : (s.mutexes.blocks m).magic = false) :
      CallEffect cfg s inIsr c
        ⟨{ s with mutexes := s.mutexes.update m (fun _ => { magic := true, recursive := recursive }) },
          .returned .ok, false⟩
  | lock (m : MutexRef) (timeout : Tick) (s₁ : System) (outcome : Outcome) (task : inIsr = false)
      (effect : LockEffect cfg s m timeout s₁ outcome) (good : s₁.kernel.Good cfg)
      (owners : Ownership s₁.kernel s₁.mutexes) :
      CallEffect cfg s inIsr (.mutexLock (some m) timeout) ⟨s₁, outcome, false⟩
  | unlock (m : MutexRef) (t : TaskRef) (s₁ : System) (task : inIsr = false) (runs : s.kernel.Runs t)
      (owner : (s.mutexes.blocks m).owner = some t) (effect : UnlockEffect cfg s m t s₁) (good : s₁.kernel.Good cfg)
      (owners : Ownership s₁.kernel s₁.mutexes) :
      CallEffect cfg s inIsr (.mutexUnlock (some m)) ⟨s₁, .returned .ok, false⟩
  | createTimer (t : Option TimerRef) (name : Option String) (period : Tick) (autoReload : Bool) (callback : Option Nat)
      (s₁ : System) (status : Status) (path : Relation.ReflTransGen (Bringup cfg) s s₁) :
      CallEffect cfg s inIsr (.timerCreateStatic t name period autoReload callback) ⟨s₁, .returned status, false⟩
  | control (c : Call) (timers : TimerSystem) (status : Status) (task : inIsr = false) (call : c.usesTimer = true) :
      CallEffect cfg s inIsr c ⟨{ s with timers := timers }, .returned status, false⟩

section

variable {cfg : Config} {s : System}

theorem QueueResult.finish_kernel (r : QueueResult) (hb : r.blocked = false) (hw : r.woken = false) :
    r.finish.1.kernel = r.system.kernel := by
  simp [QueueResult.finish, hb, hw]

theorem taskYield_calm (k : Kernel) (inIsr : Bool) : k.Calm (taskYield k inIsr) := by
  unfold taskYield
  split
  · unfold kernelRequestYield
    split
    · exact Kernel.Calm.refl k
    · split
      · exact ⟨rfl, fun _ => rfl, rfl⟩
      · exact Kernel.Calm.refl k
  · exact Kernel.Calm.refl k

theorem Called.runs (hcaller : Called s false) (h : s.Good cfg) (t : TaskRef) (ht : s.kernel.currentTask = some t) :
    s.kernel.Runs t := by
  rcases h.kernel.booted with hb | hb
  · simp [h.kernel.unstarted hb] at ht
  · obtain ⟨u, hu⟩ := hcaller rfl hb
    obtain rfl := Option.some.inj (hu.current.symm.trans ht)
    exact hu

theorem Called.of_running {inIsr : Bool} (hcaller : Called s inIsr)
    (h : ¬ (!kernelIsRunning s.kernel || inIsr) = true) :
    inIsr = false ∧ ∃ t, s.kernel.Runs t := by
  simp only [kernelIsRunning, Bool.or_eq_true, Bool.not_eq_true', decide_eq_false_iff_not, not_or, not_not,
    Bool.not_eq_true] at h
  exact ⟨h.2, hcaller h.2 h.1⟩

theorem magic_of_valid {q : QueueRef} (hv : queueIsValid s q = true) : (s.queues q).magic = true := by
  simp only [queueIsValid, Bool.and_eq_true] at hv
  exact hv.1.1.1.1.1

theorem semaphore_magic_of_valid {x : SemaphoreRef} (h : semaphoreIsValid s x = true) :
    (s.semaphores x).magic = true := by
  simp only [semaphoreIsValid, Bool.and_eq_true] at h
  exact h.1.1

theorem remainingTicks_spec {d : Tick} (h : (d ≠ 0#32 && !(int32Max < d) : Bool) = true) :
    d ≠ 0#32 ∧ d ≠ waitForever := by
  simp only [Bool.and_eq_true, decide_eq_true_eq] at h
  refine ⟨h.1, ?_⟩
  rintro rfl
  simp [waitForever, int32Max] at h

theorem Call.serving_of_passes {inIsr : Bool} {c : Call} (h : c.passes s inIsr = true) :
    c.serving s inIsr = c.serves := if_pos h

theorem Call.ServesFresh.of_passes {inIsr : Bool} {c : Call} (h : c.ServesFresh s inIsr)
    (hpasses : c.passes s inIsr = true)
    {l : WaitListRef} (hl : c.serves = some l) : Fresh s l :=
  h l ((Call.serving_of_passes hpasses).trans hl)

theorem taskCreateStatic_callEffect (h : s.Good cfg) (inIsr : Bool) (task : Option Nat) (p : TaskParameters) :
    CallEffect cfg s inIsr (.taskCreateStatic task p) (call cfg s inIsr (.taskCreateStatic task p)) := by
  simp only [call, kernelResult]
  rcases taskCreateStatic_spec h.kernel (task.map .app) p with ⟨status, hne, he⟩ | ⟨t, ht, hm, he, g'⟩
  · rw [he]
    exact .refused _ _ hne
  · obtain ⟨n, rfl, rfl⟩ := Option.map_eq_some_iff.mp ht
    rw [he]
    exact .createTask n p hm g'

theorem taskStart_callEffect (h : s.Good cfg) (inIsr : Bool) (task : Option TaskRef) :
    CallEffect cfg s inIsr (.taskStart task) (call cfg s inIsr (.taskStart task)) := by
  simp only [call, kernelResult]
  rcases taskStart_spec h.kernel task with ⟨status, hne, he⟩ | ⟨t, rfl, hc, hk, he, g'⟩
  · rw [he]
    exact .refused _ _ hne
  · rw [he]
    exact .startTask t hk hc g'

theorem taskYield_callEffect (inIsr : Bool) (hcaller : Called s inIsr) :
    CallEffect cfg s inIsr .taskYield (call cfg s inIsr .taskYield) := by
  by_cases hguard : (!kernelIsRunning s.kernel || inIsr) = true
  · have hsame : taskYield s.kernel inIsr = s.kernel :=
      if_neg (by simpa [← Bool.not_eq_true, imp_iff_not_or] using hguard)
    simp only [call, hsame]
    exact .noYield
  · obtain ⟨hisr, t, hruns⟩ := hcaller.of_running hguard
    exact .yield _ (Or.inl rfl) t _ hisr hruns (taskYield_calm s.kernel inIsr)

theorem taskDelay_callEffect (h : s.Good cfg) (inIsr : Bool) (hcaller : Called s inIsr) (ticks : Tick) :
    CallEffect cfg s inIsr (.taskDelay ticks) (call cfg s inIsr (.taskDelay ticks)) := by
  by_cases hguard : (!kernelIsRunning s.kernel || inIsr) = true
  · simp only [call, System.withKernel, taskDelay, hguard, ↓reduceIte]
    exact .refused _ _ (by simp)
  obtain ⟨hisr, t, hruns⟩ := hcaller.of_running hguard
  simp only [call, System.withKernel, taskDelay, hguard, Bool.false_eq_true, ↓reduceIte]
  by_cases h0 : ticks = 0#32
  · subst h0
    exact .yield _ (Or.inr rfl) t _ hisr hruns (taskYield_calm s.kernel inIsr)
  by_cases hf : ticks = waitForever
  · simp only [hf, ↓reduceIte]
    exact .refused _ _ (by simp)
  · simp only [h0, hf, ↓reduceIte,
      kernelDelayCurrent_eq h.kernel.toSound hruns.state hruns.current hruns.running hruns.idle h0 hf]
    exact .delay t ticks hisr hruns h0 hf

theorem callDelayUntil_callEffect (h : s.Good cfg) (inIsr : Bool) (hcaller : Called s inIsr) (anchor : Option Nat)
    (period : Tick) :
    CallEffect cfg s inIsr (.taskDelayUntil anchor period) (call cfg s inIsr (.taskDelayUntil anchor period)) := by
  cases anchor with
  | none => exact .refused _ .invalidArgument (by simp)
  | some a =>
    by_cases hguard : (!kernelIsRunning s.kernel || inIsr) = true
    · simp only [call, callDelayUntil, taskDelayUntil, hguard, ↓reduceIte, Function.update_eq_self]
      exact .refused _ _ (by simp)
    obtain ⟨hisr, t, hruns⟩ := hcaller.of_running hguard
    simp only [call, callDelayUntil, taskDelayUntil, hguard, Bool.false_eq_true, ↓reduceIte]
    by_cases hperiod : (period = 0#32 || int32Max < period : Bool) = true
    · simp only [hperiod, ↓reduceIte, Function.update_eq_self]
      exact .refused _ _ (by simp)
    simp only [hperiod, Bool.false_eq_true, ↓reduceIte]
    by_cases hahead : (s.anchors a + period - s.kernel.tick ≠ 0#32 &&
        !(int32Max < s.anchors a + period - s.kernel.tick) : Bool) = true
    · obtain ⟨h0, hf⟩ := remainingTicks_spec hahead
      simp only [hahead, ↓reduceIte,
        kernelDelayCurrent_eq h.kernel.toSound hruns.state hruns.current hruns.running hruns.idle h0 hf]
      exact .delayUntil t a period _ rfl hisr hruns h0 hf
    · simp only [hahead, Bool.false_eq_true, ↓reduceIte]
      exact .missed a period hisr

theorem taskControl_cases (f : Kernel → TaskRef → Kernel × Bool × Status) (k : Kernel) (inIsr : Bool)
    (task : Option TaskRef) :
    (∃ status, status ≠ .ok ∧ taskControl f k inIsr task = (k, status)) ∨
    ∃ t, task = some t ∧ inIsr = false ∧ k.state = .running ∧ taskControl f k inIsr task =
      (if (f k t).2.2 = .ok && (f k t).2.1 then requestContextSwitch (f k t).1 else (f k t).1, (f k t).2.2) := by
  cases task with
  | none => exact Or.inl ⟨.invalidArgument, by simp, rfl⟩
  | some t =>
    unfold taskControl
    dsimp only
    split
    · exact Or.inl ⟨.invalidArgument, by simp, rfl⟩
    cases inIsr with
    | true => exact Or.inl ⟨.fromIsr, by simp, rfl⟩
    | false =>
      simp only [Bool.false_eq_true, ↓reduceIte]
      by_cases hk : k.state = .running
      · exact Or.inr ⟨t, rfl, trivial, hk, by simp [kernelIsRunning, hk]⟩
      · exact Or.inl ⟨.invalidState, by simp, by simp [kernelIsRunning, hk]⟩

theorem taskSuspend_callEffect (h : s.Good cfg) (inIsr : Bool) (task : Option TaskRef) :
    CallEffect cfg s inIsr (.taskSuspend task) (call cfg s inIsr (.taskSuspend task)) := by
  simp only [call, kernelResult, taskSuspend]
  rcases taskControl_cases (kernelSuspendTask cfg) s.kernel inIsr task with ⟨status, hne, he⟩ |
    ⟨t, rfl, hisr, hk, he⟩
  · rw [he]
    exact .refused _ _ hne
  rw [he]
  rcases kernelSuspendTask_spec h.kernel t with ⟨status, hne, heq⟩ | ⟨hs, hi, heq⟩
  · rw [heq]
    simpa [hne] using .refused _ _ hne
  · rw [heq]
    simpa using .suspend t hisr hs hi hk

theorem taskResume_callEffect (h : s.Good cfg) (inIsr : Bool) (task : Option TaskRef) :
    CallEffect cfg s inIsr (.taskResume task) (call cfg s inIsr (.taskResume task)) := by
  simp only [call, kernelResult, taskResume]
  rcases taskControl_cases (kernelResumeTask cfg) s.kernel inIsr task with ⟨status, hne, he⟩ |
    ⟨t, rfl, hisr, hk, he⟩
  · rw [he]
    exact .refused _ _ hne
  rw [he]
  rcases kernelResumeTask_spec h.kernel t with ⟨status, hne, heq⟩ | ⟨hs, hi, preempt, hp, heq⟩
  · rw [heq]
    simpa [hne] using .refused _ _ hne
  · rw [heq]
    refine .resume t _ hisr hs hi ?_ ?_ hk
    · cases preempt
      · exact Kernel.Calm.refl _
      · exact ⟨rfl, fun _ => rfl, rfl⟩
    · rw [← hp]
      cases preempt <;> simp [requestContextSwitch, Kernel.resume]

theorem queueCall_cases (locked : System → QueueRef → BufferRef → Tick → Bool → Option TaskRef →
    QueueResult)
    (s : System) (inIsr : Bool) (queue : Option QueueRef) (item : Option BufferRef) (timeout : Tick) :
    (∃ status, status ≠ .ok ∧ queueCall locked s inIsr queue item timeout = (s, .returned status)) ∨
    ∃ q b, queue = some q ∧ item = some b ∧ inIsr = false ∧ queueIsValid s q = true ∧
      (timeout ≠ noWait → s.kernel.state = .running) ∧
      queueCall locked s inIsr queue item timeout = (locked s q b timeout true s.kernel.currentTask).finish := by
  rcases queue with _ | q
  · exact Or.inl ⟨.invalidArgument, by simp, rfl⟩
  rcases item with _ | b
  · exact Or.inl ⟨.invalidArgument, by simp, rfl⟩
  cases hv : queueIsValid s q with
  | false => exact Or.inl ⟨.invalidArgument, by simp, by simp [queueCall, hv]⟩
  | true =>
  cases inIsr with
  | true => exact Or.inl ⟨.fromIsr, by simp, by simp [queueCall, hv]⟩
  | false =>
  by_cases hk : timeout ≠ noWait ∧ s.kernel.state ≠ .running
  · exact Or.inl ⟨.invalidState, by simp, by simp [queueCall, hv, kernelIsRunning, hk]⟩
  have hk' : (timeout ≠ noWait && !kernelIsRunning s.kernel : Bool) = false := by
    simpa [kernelIsRunning] using hk
  refine Or.inr ⟨q, b, rfl, rfl, rfl, hv, fun h0 => by_contra fun hne => hk ⟨h0, hne⟩, ?_⟩
  simp only [queueCall, hv, hk', Bool.not_true, Bool.false_eq_true, ↓reduceIte, System.caller, QueueResult.finish]
  split_ifs <;> rfl

theorem queueCallFromIsr_cases (locked : System → QueueRef → BufferRef → Tick → Bool → Option TaskRef →
    QueueResult)
    (s : System) (inIsr : Bool) (queue : Option QueueRef) (item : Option BufferRef) :
    (∃ status, status ≠ .ok ∧ (inIsr = true → status = .invalidArgument) ∧
      queueCallFromIsr locked s inIsr queue item = (s, false, status)) ∨
    ∃ q b, queue = some q ∧ item = some b ∧ inIsr = true ∧ queueIsValid s q = true ∧
      queueCallFromIsr locked s inIsr queue item =
        ((locked s q b noWait false none).system, (locked s q b noWait false none).woken,
          (locked s q b noWait false none).status) := by
  rcases queue with _ | q
  · exact Or.inl ⟨.invalidArgument, by simp, by simp, rfl⟩
  rcases item with _ | b
  · exact Or.inl ⟨.invalidArgument, by simp, by simp, rfl⟩
  cases hv : queueIsValid s q with
  | false => exact Or.inl ⟨.invalidArgument, by simp, by simp, by simp [queueCallFromIsr, hv]⟩
  | true =>
  cases inIsr with
  | false => exact Or.inl ⟨.invalidState, by simp, by simp, by simp [queueCallFromIsr, hv]⟩
  | true => exact Or.inr ⟨q, b, rfl, rfl, rfl, hv, by simp [queueCallFromIsr, hv]⟩

theorem MayBlock.of_called {timeout : Tick} (hcaller : Called s false)
    (hk : timeout ≠ noWait → s.kernel.state = .running) : MayBlock s timeout true :=
  fun h0 => ⟨rfl, hcaller rfl (hk h0)⟩

theorem queueSend_callEffect (h : s.Good cfg) (inIsr : Bool) (hcaller : Called s inIsr) (queue : Option QueueRef)
    (item : Option BufferRef) (timeout : Tick) (hfresh : (Call.queueSend queue item timeout).ServesFresh s inIsr) :
    CallEffect cfg s inIsr (.queueSend queue item timeout) (call cfg s inIsr (.queueSend queue item timeout)) := by
  simp only [call, outcomeResult, queueSend]
  rcases queueCall_cases (queueSendLocked cfg) s inIsr queue item timeout with
    ⟨status, hne, he⟩ | ⟨q, b, rfl, rfl, rfl, hv, hk, he⟩
  · rw [he]
    exact .refused _ _ hne
  · obtain ⟨heffect, g'⟩ := queueSendLocked_effect h.kernel (magic_of_valid hv) b timeout true
      (MayBlock.of_called hcaller hk) (hfresh.of_passes (by simp [Call.passes, hv]) rfl) s.kernel.currentTask
    rw [he]
    exact .send q b timeout _ rfl hv heffect g'

theorem queueReceive_callEffect (h : s.Good cfg) (inIsr : Bool) (hcaller : Called s inIsr) (queue : Option QueueRef)
    (item : Option BufferRef) (timeout : Tick) (hfresh : (Call.queueReceive queue item timeout).ServesFresh s inIsr) :
    CallEffect cfg s inIsr (.queueReceive queue item timeout)
      (call cfg s inIsr (.queueReceive queue item timeout)) := by
  simp only [call, outcomeResult, queueReceive]
  rcases queueCall_cases (queueReceiveLocked cfg) s inIsr queue item timeout with
    ⟨status, hne, he⟩ | ⟨q, b, rfl, rfl, rfl, hv, hk, he⟩
  · rw [he]
    exact .refused _ _ hne
  · obtain ⟨heffect, g'⟩ := queueReceiveLocked_effect h.kernel hv b timeout true (MayBlock.of_called hcaller hk)
      (hfresh.of_passes (by simp [Call.passes, hv]) rfl) s.kernel.currentTask
    rw [he]
    exact .receive q b timeout _ rfl hv heffect g'

theorem queueSendFromIsr_callEffect (h : s.Good cfg) (inIsr : Bool) (queue : Option QueueRef) (item : Option BufferRef)
    (hfresh : (Call.queueSendFromIsr queue item).ServesFresh s inIsr) :
    CallEffect cfg s inIsr (.queueSendFromIsr queue item) (call cfg s inIsr (.queueSendFromIsr queue item)) := by
  simp only [call, wokenResult, queueSendFromIsr]
  rcases queueCallFromIsr_cases (queueSendLocked cfg) s inIsr queue item with
    ⟨status, hne, -, he⟩ | ⟨q, b, rfl, rfl, rfl, hv, he⟩
  · rw [he]
    exact .refused _ _ hne
  · obtain ⟨heffect, g'⟩ := queueSendLocked_effect h.kernel (magic_of_valid hv) b noWait false
      (fun h0 => absurd rfl h0) (hfresh.of_passes (by simp [Call.passes, hv]) rfl) none
    rw [he]
    exact .sendFromIsr q b _ rfl hv heffect g'

theorem queueReceiveFromIsr_callEffect (h : s.Good cfg) (inIsr : Bool) (queue : Option QueueRef)
    (item : Option BufferRef) (hfresh : (Call.queueReceiveFromIsr queue item).ServesFresh s inIsr) :
    CallEffect cfg s inIsr (.queueReceiveFromIsr queue item)
      (call cfg s inIsr (.queueReceiveFromIsr queue item)) := by
  simp only [call, wokenResult, queueReceiveFromIsr]
  rcases queueCallFromIsr_cases (queueReceiveLocked cfg) s inIsr queue item with
    ⟨status, hne, -, he⟩ | ⟨q, b, rfl, rfl, rfl, hv, he⟩
  · rw [he]
    exact .refused _ _ hne
  · obtain ⟨heffect, g'⟩ := queueReceiveLocked_effect h.kernel hv b noWait false (fun h0 => absurd rfl h0)
      (hfresh.of_passes (by simp [Call.passes, hv]) rfl) none
    rw [he]
    exact .receiveFromIsr q b _ rfl hv heffect g'

theorem queueMultiplyFits_iff {left right : Nat} (hl : 0 < left) :
    queueMultiplyFits left right = true ↔ left * right ≤ sizeMax := by
  simp only [queueMultiplyFits, hl.ne', decide_false, Bool.false_or, decide_eq_true_eq]
  rw [Nat.le_div_iff_mul_le hl, Nat.mul_comm]

theorem queueCreateStatic_callEffect (h : s.Good cfg) (inIsr : Bool) (queue : Option QueueRef)
    (storage : Option (Nat → UInt8)) (itemSize capacity : Nat) :
    CallEffect cfg s inIsr (.queueCreateStatic queue storage itemSize capacity)
      (call cfg s inIsr (.queueCreateStatic queue storage itemSize capacity)) := by
  rcases queue with _ | q
  · exact .refused _ .invalidArgument (by simp)
  rcases storage with _ | storage
  · exact .refused _ .invalidArgument (by simp)
  simp only [call, statusResult, queueCreateStatic]
  split
  · exact .refused _ _ (by simp)
  next hargs =>
  split
  · exact .refused _ _ (by simp)
  next hv =>
  simp only [Bool.or_eq_true, decide_eq_true_eq, Bool.not_eq_true', not_or, Bool.not_eq_false] at hargs
  have hsize := Nat.pos_of_ne_zero hargs.1.1
  refine .createQueue q storage itemSize capacity ?_ hsize (Nat.pos_of_ne_zero hargs.1.2)
    ((queueMultiplyFits_iff hsize).mp hargs.2)
  by_contra hm
  exact hv (h.queues q (by simpa using hm))

theorem semaphoreCreateCounting_cases (h : s.Good cfg) (semaphore : Option SemaphoreRef) (count maxCount : Nat) :
    (∃ status, status ≠ .ok ∧ semaphoreCreateCounting s semaphore count maxCount = (s, status)) ∨
    ∃ x, semaphore = some x ∧ (s.semaphores x).magic = false ∧ 0 < maxCount ∧ count ≤ maxCount ∧
      semaphoreCreateCounting s semaphore count maxCount =
        ((s.updateSemaphore x (fun _ => { magic := true, count := count, maxCount := maxCount })).record
          [.created x count], .ok) := by
  cases semaphore with
  | none => exact Or.inl ⟨.invalidArgument, by simp, rfl⟩
  | some x =>
    unfold semaphoreCreateCounting
    dsimp only
    split
    · exact Or.inl ⟨.invalidArgument, by simp, rfl⟩
    next hargs =>
    split
    · exact Or.inl ⟨.invalidState, by simp, rfl⟩
    next hv =>
    simp only [Bool.or_eq_true, decide_eq_true_eq, not_or, not_lt] at hargs
    refine Or.inr ⟨x, rfl, ?_, Nat.pos_of_ne_zero hargs.1, hargs.2, rfl⟩
    by_contra hm
    exact hv (h.semaphores x (by simpa using hm))

theorem semaphoreCreate_callEffect (h : s.Good cfg) (inIsr : Bool) {c : Call} (semaphore : Option Nat)
    (count maxCount : Nat)
    (hc : ∀ n, semaphore = some n →
      c = .semaphoreCreateCounting (some n) count maxCount ∨ ∃ available, c = .semaphoreCreateBinary
        (some n) available) :
    CallEffect cfg s inIsr c (statusResult (semaphoreCreateCounting s (semaphore.map .app) count maxCount)) := by
  rcases semaphoreCreateCounting_cases h (semaphore.map .app) count maxCount with
    ⟨status, hne, he⟩ | ⟨x, hx, hm, hroom, hfits, he⟩
  · rw [he]
    exact .refused _ _ hne
  · obtain ⟨n, rfl, rfl⟩ := Option.map_eq_some_iff.mp hx
    rw [he]
    exact .createSemaphore c n count maxCount (hc n rfl) hm hroom hfits

theorem semaphoreTake_callEffect (h : s.Good cfg) (inIsr : Bool) (hcaller : Called s inIsr) (semaphore : Option Nat)
    (timeout : Tick) :
    CallEffect cfg s inIsr (.semaphoreTake semaphore timeout)
      (call cfg s inIsr (.semaphoreTake semaphore timeout)) := by
  rcases semaphoreTake_effect h.kernel inIsr hcaller (semaphore.map .app) timeout with
    ⟨status, hne, he⟩ | ⟨y, hy, hm, rfl, heffect, g'⟩
  · simp only [call, outcomeResult, he]
    exact .refused _ _ hne
  · obtain ⟨n, rfl, rfl⟩ := Option.map_eq_some_iff.mp hy
    exact .take n timeout _ _ rfl (h.semaphores _ hm) heffect g'

theorem mutexLock_callEffect (h : s.Good cfg) (inIsr : Bool) (hcaller : Called s inIsr) (mutex : Option MutexRef)
    (timeout : Tick) :
    CallEffect cfg s inIsr (.mutexLock mutex timeout) (call cfg s inIsr (.mutexLock mutex timeout)) := by
  rcases mutexLock_effect h.kernel h.owners inIsr hcaller mutex timeout with
    ⟨status, hne, -, he⟩ | ⟨m, rfl, rfl, heffect, g', own'⟩
  · simp only [call, outcomeResult, he]
    exact .refused _ _ hne
  · exact .lock m timeout _ _ rfl heffect g' own'

theorem mutexUnlock_callEffect (h : s.Good cfg) (inIsr : Bool) (hcaller : Called s inIsr) (mutex : Option MutexRef)
    (hfresh : (Call.mutexUnlock mutex).ServesFresh s inIsr) :
    CallEffect cfg s inIsr (.mutexUnlock mutex) (call cfg s inIsr (.mutexUnlock mutex)) := by
  have hwaiter : ∀ m u, mutex = some m → inIsr = false → mutexIsValid s m = true →
      waitListPeek s.kernel.waitLists (.mutex m) = some u → s.kernel.timeoutList.lists.host u ≠ some .expired := by
    rintro m u rfl rfl hv hu
    exact hfresh.of_passes (by simp [Call.passes, hv]) rfl u hu
  rcases mutexUnlock_effect h.kernel h.owners inIsr hcaller mutex hwaiter with
    ⟨status, hne, he⟩ | ⟨m, t, rfl, rfl, hruns, ho, heffect, hok, g', own'⟩
  · simp only [call, statusResult, he]
    exact .refused _ _ hne
  · simp only [call, statusResult, hok]
    exact .unlock m t _ rfl hruns ho heffect g' own'

theorem mutexCreate_callEffect (h : s.Good cfg) (inIsr : Bool) {c : Call} (mutex : Option MutexRef) (recursive : Bool)
    (hc : ∀ m, mutex = some m → c = .mutexCreate (some m) ∧ recursive = false ∨
      c = .mutexCreateRecursive (some m) ∧ recursive = true) :
    CallEffect cfg s inIsr c (statusResult (mutexCreateInternal s mutex recursive)) := by
  cases mutex with
  | none => exact .refused _ .invalidArgument (by simp)
  | some m =>
    have hvalid := mutexIsValid_eq h.kernel h.owners.toOwners m
    cases hm : (s.mutexes.blocks m).magic with
    | true => simpa [statusResult, mutexCreateInternal, hvalid, hm] using .refused _ _ (by simp)
    | false => simpa [statusResult, mutexCreateInternal, hvalid, hm] using .createMutex c m recursive (hc m rfl) hm

theorem semaphoreGive_callEffect (h : s.Good cfg) (inIsr : Bool) (semaphore : Option Nat)
    (hfresh : (Call.semaphoreGive semaphore).ServesFresh s inIsr) :
    CallEffect cfg s inIsr (.semaphoreGive semaphore) (call cfg s inIsr (.semaphoreGive semaphore)) := by
  cases semaphore with
  | none => exact .refused _ .invalidArgument (by simp)
  | some n =>
    simp only [call, statusResult, Option.map_some, semaphoreGive]
    cases hv : semaphoreIsValid s (.app n) with
    | false => simpa using .refused _ _ (by simp)
    | true =>
    cases inIsr with
    | true => simpa using .refused _ _ (by simp)
    | false =>
      obtain ⟨heffect, g'⟩ := semaphoreGiveLocked_effect h.kernel (.app n)
        (hfresh.of_passes (by simp [Call.passes, hv]) rfl)
      generalize semaphoreGiveLocked cfg s (.app n) = r at heffect g'
      obtain ⟨s₁, woken, status⟩ := r
      cases woken
      · exact .give n s₁ false status rfl hv heffect g'
      · exact .give n s₁ true status rfl hv heffect g'

theorem semaphoreGiveFromIsr_callEffect (h : s.Good cfg) (inIsr : Bool) (semaphore : Option Nat)
    (hfresh : (Call.semaphoreGiveFromIsr semaphore).ServesFresh s inIsr) :
    CallEffect cfg s inIsr (.semaphoreGiveFromIsr semaphore) (call cfg s inIsr (.semaphoreGiveFromIsr semaphore)) := by
  cases semaphore with
  | none => exact .refused _ .invalidArgument (by simp)
  | some n =>
    simp only [call, wokenResult, Option.map_some, semaphoreGiveFromIsr]
    cases hv : semaphoreIsValid s (.app n) with
    | false => simpa using .refused _ _ (by simp)
    | true =>
    cases inIsr with
    | false => simpa using .refused _ _ (by simp)
    | true =>
      obtain ⟨heffect, g'⟩ := semaphoreGiveLocked_effect h.kernel (.app n)
        (hfresh.of_passes (by simp [Call.passes, hv]) rfl)
      exact .giveFromIsr n _ _ _ rfl hv heffect g'

theorem Bringup.acts {s' : System} (h : Bringup cfg s s') (hs : s.Good cfg) : Acts cfg s false s' := by
  cases h with
  | timers timers => exact hs.acts (.calm _ timers _ _ (Kernel.Calm.refl _)) hs.kernel hs.owners
  | signal hfresh => exact hs.acts (.createSemaphore .timerSignal 0 1 hfresh one_pos zero_le_one) hs.kernel hs.owners
  | create hfresh hgood => exact hs.acts (.createTask _ _ hfresh) hgood (hs.owners.create hs.kernel hfresh _)
  | register hstate hcreated hgood => exact hs.acts (.startTask _ hstate hcreated) hgood (hs.owners.register _)

theorem bringup_good {s' : System} (h : Relation.ReflTransGen (Bringup cfg) s s') (hs : s.Good cfg) : s'.Good cfg := by
  induction h with
  | refl => exact hs
  | tail _ hlast ih => exact (hlast.acts ih).good

theorem timerSystemEnsureInitialized_bringup (h : s.Good cfg) :
    Relation.ReflTransGen (Bringup cfg) s (timerSystemEnsureInitialized cfg s).1 := by
  unfold timerSystemEnsureInitialized
  split
  · exact .refl
  split
  · exact .refl
  next hinit =>
  split
  · exact .refl
  generalize hs₁ : ({ s with timers := _ } : System) = s₁
  have h₁ : Relation.ReflTransGen (Bringup cfg) s s₁ := .single (hs₁ ▸ .timers _ id Or.inl)
  rcases semaphoreCreateCounting_cases (bringup_good h₁ h) (some .timerSignal) 0 1 with
    ⟨status, hne, he⟩ | ⟨x, hx, hfresh, -, -, he⟩
  · have hsignal : semaphoreCreateBinary s₁ (some .timerSignal) false = (s₁, status) := he
    simpa [hsignal, hne] using h₁
  obtain rfl := Option.some.inj hx
  have hsignal : semaphoreCreateBinary s₁ (some .timerSignal) false = (s₁.signalled, .ok) := he
  have h₂ := h₁.tail (.signal hfresh (by simpa [← hs₁] using hinit))
  rcases taskCreateStatic_spec (bringup_good h₂ h).kernel (some .timerService) (timerTaskParameters cfg) with
    ⟨status, hne, hcreate⟩ | ⟨t, ht, hm, hcreate, g'⟩
  · simpa [hsignal, hcreate, hne] using h₂
  obtain rfl := Option.some.inj ht
  have h₃ := h₂.tail (.create hm g' (by simp [System.signalled, System.record, System.updateSemaphore]))
  rcases taskStart_spec g' (some .timerService) with ⟨status, hne, hstart⟩ | ⟨t, ht, hc, hk, hstart, g''⟩
  · simp only [hsignal, hcreate, hstart, hne, ne_eq, not_true_eq_false, not_false_eq_true, ↓reduceIte]
    exact h₃
  obtain rfl := Option.some.inj ht
  have h₄ := h₃.tail (.register hk hc g'')
  simp only [hsignal, hcreate, hstart]
  exact h₄.tail
    (.timers _ (fun _ => rfl) (fun _ => Or.inr (by simp [System.signalled, System.record, System.updateSemaphore])))

theorem timerCreateStatic_bringup (h : s.Good cfg) (inIsr : Bool) (timer : Option TimerRef) (name : Option String)
    (period : Tick) (autoReload : Bool) (callback : Option Nat) :
    Relation.ReflTransGen (Bringup cfg) s (timerCreateStatic cfg s inIsr timer name period autoReload callback).1 := by
  have hinit := timerSystemEnsureInitialized_bringup h
  unfold timerCreateStatic
  split
  · exact .refl
  split
  · exact .refl
  split
  · exact .refl
  split
  · exact .refl
  split
  · exact .refl
  dsimp only
  split
  · exact hinit
  · exact hinit.tail (.timers _ id Or.inl)

theorem timerCall_callEffect (inIsr : Bool) {c : Call} (hc : c.usesTimer = true) (timer : Option TimerRef)
    (f : TimerSystem → TimerRef → TimerSystem × Status) :
    CallEffect cfg s inIsr c (statusResult (timerCall cfg s inIsr timer f)) := by
  unfold timerCall
  split
  · exact .refused _ _ (by simp)
  split
  · exact .refused _ _ (by simp)
  split
  · exact .refused _ _ (by simp)
  cases inIsr with
  | true => exact .refused _ _ (by simp)
  | false => exact .control c _ _ rfl hc

theorem timerChangePeriod_callEffect (inIsr : Bool) (timer : Option TimerRef) (period : Tick) :
    CallEffect cfg s inIsr (.timerChangePeriod timer period)
      (call cfg s inIsr (.timerChangePeriod timer period)) := by
  simp only [call, timerChangePeriod]
  split
  · exact .refused _ _ (by simp)
  · exact timerCall_callEffect inIsr rfl timer _

theorem call_effect (h : s.Good cfg) (inIsr : Bool) (hcaller : Called s inIsr) (c : Call)
    (hfresh : c.ServesFresh s inIsr) : CallEffect cfg s inIsr c (call cfg s inIsr c) := by
  cases c with
  | taskCreateStatic task p => exact taskCreateStatic_callEffect h inIsr task p
  | taskStart task => exact taskStart_callEffect h inIsr task
  | taskYield => exact taskYield_callEffect inIsr hcaller
  | taskDelay ticks => exact taskDelay_callEffect h inIsr hcaller ticks
  | taskDelayUntil anchor period => exact callDelayUntil_callEffect h inIsr hcaller anchor period
  | taskSuspend task => exact taskSuspend_callEffect h inIsr task
  | taskResume task => exact taskResume_callEffect h inIsr task
  | queueCreateStatic q storage itemSize capacity =>
    exact queueCreateStatic_callEffect h inIsr q storage itemSize capacity
  | queueSend q item timeout => exact queueSend_callEffect h inIsr hcaller q item timeout hfresh
  | queueReceive q item timeout => exact queueReceive_callEffect h inIsr hcaller q item timeout hfresh
  | queueSendFromIsr q item => exact queueSendFromIsr_callEffect h inIsr q item hfresh
  | queueReceiveFromIsr q item => exact queueReceiveFromIsr_callEffect h inIsr q item hfresh
  | semaphoreCreateCounting x count maxCount =>
    exact semaphoreCreate_callEffect h inIsr x count maxCount (fun n hn => Or.inl (by rw [hn]))
  | semaphoreCreateBinary x available =>
    exact semaphoreCreate_callEffect h inIsr x _ 1 (fun n hn => Or.inr ⟨available, by rw [hn]⟩)
  | semaphoreTake x timeout => exact semaphoreTake_callEffect h inIsr hcaller x timeout
  | semaphoreGive x => exact semaphoreGive_callEffect h inIsr x hfresh
  | semaphoreGiveFromIsr x => exact semaphoreGiveFromIsr_callEffect h inIsr x hfresh
  | mutexCreate m => exact mutexCreate_callEffect h inIsr m false (fun n hn => Or.inl ⟨by rw [hn], rfl⟩)
  | mutexCreateRecursive m => exact mutexCreate_callEffect h inIsr m true (fun n hn => Or.inr ⟨by rw [hn], rfl⟩)
  | mutexLock m timeout => exact mutexLock_callEffect h inIsr hcaller m timeout
  | mutexUnlock m => exact mutexUnlock_callEffect h inIsr hcaller m hfresh
  | timerCreateStatic t name period autoReload callback =>
    exact .createTimer t name period autoReload callback _ _
      (timerCreateStatic_bringup h inIsr t name period autoReload callback)
  | timerStart t => exact timerCall_callEffect inIsr rfl t _
  | timerStop t => exact timerCall_callEffect inIsr rfl t _
  | timerReset t => exact timerCall_callEffect inIsr rfl t _
  | timerChangePeriod t period => exact timerChangePeriod_callEffect inIsr t period

end

end Hairtos

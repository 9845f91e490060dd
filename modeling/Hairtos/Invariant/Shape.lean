import Hairtos.Kernel

/-!
The structural invariant of the kernel. What the three nodes of a task and its control block must
look like is a condition on that task alone, so an operation on one task keeps it for all others.
-/

namespace Hairtos

open Library

variable {k k' : Kernel}

inductive Wait
  | delay
  | queueSend (q : QueueRef) (b : BufferRef)
  | queueReceive (q : QueueRef) (b : BufferRef)
  | semaphoreTake (s : SemaphoreRef)
  | mutexLock (m : MutexRef)
  deriving DecidableEq, Repr

namespace Wait

def kind : Wait → WaitKind
  | .delay => .delay
  | .queueSend _ _ => .queueSend
  | .queueReceive _ _ => .queueReceive
  | .semaphoreTake _ => .semaphoreTake
  | .mutexLock _ => .mutexLock

def object : Wait → WaitObject
  | .delay => .timeoutList
  | .queueSend q _ => .queue q
  | .queueReceive q _ => .queue q
  | .semaphoreTake s => .semaphore s
  | .mutexLock m => .mutex m

def waitList : Wait → Option WaitListRef
  | .delay => none
  | .queueSend q _ => some (.queueSend q)
  | .queueReceive q _ => some (.queueReceive q)
  | .semaphoreTake s => some (.semaphore s)
  | .mutexLock m => some (.mutex m)

def buffer : Wait → Option BufferRef
  | .queueSend _ b => some b
  | .queueReceive _ b => some b
  | _ => none

def cleanup : Wait → Option WaitCleanup
  | .mutexLock _ => some .mutexWaitCleanup
  | _ => none

def deadlineResult : Wait → Status
  | .delay => .ok
  | _ => .timeout

end Wait

def TaskControlBlock.wait (cb : TaskControlBlock) : Option Wait :=
  match cb.waitKind, cb.waitingObject, cb.waitBuffer with
  | .delay, some .timeoutList, _ => some .delay
  | .queueSend, some (.queue q), some b => some (.queueSend q b)
  | .queueReceive, some (.queue q), some b => some (.queueReceive q b)
  | .semaphoreTake, some (.semaphore s), _ => some (.semaphoreTake s)
  | .mutexLock, some (.mutex m), _ => some (.mutexLock m)
  | _, _, _ => none

structure TaskControlBlock.Records (cb : TaskControlBlock) (w : Option Wait) : Prop where
  kind : cb.waitKind = (w.map Wait.kind).getD .none
  object : cb.waitingObject = w.map Wait.object
  waitList : cb.blockedWaitList = w.bind Wait.waitList
  buffer : cb.waitBuffer = w.bind Wait.buffer
  cleanup : cb.waitCleanup = w.bind Wait.cleanup

theorem TaskControlBlock.Records.wait_eq {cb : TaskControlBlock} {w : Option Wait} (h : cb.Records w) :
    cb.wait = w := by
  rcases w with _ | w
  · simp [TaskControlBlock.wait, h.kind]
  · cases w <;> simp [TaskControlBlock.wait, h.kind, h.object, h.buffer, Wait.kind, Wait.object, Wait.buffer]

structure TaskView where
  idle : Bool
  cb : TaskControlBlock
  registered : Bool
  readyHost : Option Nat
  readyPriority : Nat
  waitHost : Option WaitListRef
  waitPriority : Nat
  timeoutHost : Option TimeoutSlot

def Kernel.view (k : Kernel) (t : TaskRef) : TaskView where
  idle := t = .idle
  cb := k.tasks t
  registered := listNodeIsLinked k.allTasks t
  readyHost := k.scheduler.queues.host t
  readyPriority := k.scheduler.priority t
  waitHost := k.waitLists.lists.host t
  waitPriority := k.waitLists.priority t
  timeoutHost := k.timeoutList.lists.host t

def TaskState.isReady (state : TaskState) : Bool := state = .ready || state = .running

structure Shape (cfg : Config) (v : TaskView) : Prop where
  magic : v.cb.magic = true ↔ v.cb.state ≠ .invalid
  registered : v.registered = true ↔ v.cb.state ≠ .invalid ∧ v.cb.state ≠ .created
  readyHost : v.readyHost = if v.cb.state.isReady then some v.cb.effectivePriority else none
  waitHost : v.waitHost = v.cb.blockedWaitList
  records : v.cb.Records v.cb.wait
  waiting : v.cb.wait ≠ none ↔ v.cb.isWaiting = true
  timeoutHost : v.timeoutHost ≠ none → v.cb.wait ≠ none
  resumes : v.cb.state = .suspended → v.cb.suspendedResumeState = .ready ∨ v.cb.suspendedResumeState = .blocked
  resumesNot : v.cb.state ≠ .suspended → v.cb.suspendedResumeState = .invalid
  agree : v.cb.magic = true → v.readyPriority = v.cb.effectivePriority ∧ v.waitPriority = v.cb.effectivePriority
  effective : v.cb.effectivePriority ≤ v.cb.basePriority
  fresh : v.registered = false → v.cb.effectivePriority = v.cb.basePriority
  base : v.cb.magic = true → v.cb.basePriority < cfg.priorityCount
  urgent : v.registered = true → v.idle = false → v.cb.basePriority < cfg.idlePriority
  idle : v.idle = true → v.cb.state.isReady = true ∧ v.cb.effectivePriority = cfg.idlePriority

structure Kernel.Sound (cfg : Config) (k : Kernel) : Prop where
  scheduler : k.scheduler.WellFormed cfg
  sorted : k.waitLists.Sorted
  timeouts : k.timeoutList.WellFormed
  lastTick : k.timeoutList.lastTick = k.tick
  shape : ∀ t, Shape cfg (k.view t)
  taskCount : k.taskCount = (k.allTasks.seq ()).length
  taskCount_le : k.taskCount ≤ cfg.maxTasks
  booted : k.state = .initialized ∨ k.state = .running
  unstarted : k.state = .initialized → k.currentTask = none
  started : k.state = .running →
    ∃ c, k.currentTask = some c ∧ k.currentControlBlock = some c ∧ (k.view c).registered = true
  running : ∀ t, (k.tasks t).state = .running → k.currentTask = some t

structure Kernel.Good (cfg : Config) (k : Kernel) : Prop extends Kernel.Sound cfg k where
  delays : ∀ t, (k.tasks t).wait = some .delay → k.timeoutList.lists.host t ≠ none

def Kernel.Quiet (k : Kernel) : Prop := k.timeoutList.lists.seq .expired = []

structure SameControl (k k' : Kernel) : Prop where
  state : k'.state = k.state
  allTasks : k'.allTasks = k.allTasks
  currentTask : k'.currentTask = k.currentTask
  currentControlBlock : k'.currentControlBlock = k.currentControlBlock
  taskCount : k'.taskCount = k.taskCount
  tick : k'.tick = k.tick

theorem SameControl.registered (h : SameControl k k') (t : TaskRef) :
    (k'.view t).registered = (k.view t).registered := by
  simp only [Kernel.view, h.allTasks]

theorem Kernel.Sound.update (g : k.Sound cfg) (hc : SameControl k k')
    (hwf : k'.scheduler.WellFormed cfg) (hsorted : k'.waitLists.Sorted) (htimeouts : k'.timeoutList.WellFormed)
    (hlast : k'.timeoutList.lastTick = k.timeoutList.lastTick) (hshape : ∀ t, Shape cfg (k'.view t))
    (hrun : ∀ t, (k'.tasks t).state = .running → (k.tasks t).state = .running) : k'.Sound cfg where
  scheduler := hwf
  sorted := hsorted
  timeouts := htimeouts
  lastTick := by rw [hlast, hc.tick, g.lastTick]
  shape := hshape
  taskCount := by rw [hc.taskCount, hc.allTasks, g.taskCount]
  taskCount_le := hc.taskCount.trans_le g.taskCount_le
  booted := by
    rw [hc.state]
    exact g.booted
  unstarted := by
    rw [hc.state, hc.currentTask]
    exact g.unstarted
  started := by
    rw [hc.state, hc.currentTask, hc.currentControlBlock]
    simp only [hc.registered]
    exact g.started
  running := by
    intro t ht
    rw [hc.currentTask]
    exact g.running t (hrun t ht)

theorem Kernel.Sound.updateView (g : k.Sound cfg) (hc : SameControl k k')
    (hwf : k'.scheduler.WellFormed cfg) (hsorted : k'.waitLists.Sorted) (htimeouts : k'.timeoutList.WellFormed)
    (hlast : k'.timeoutList.lastTick = k.timeoutList.lastTick) (t : TaskRef)
    (hviews : ∀ u, u ≠ t → k'.view u = k.view u) (hself : Shape cfg (k'.view t))
    (hrun : (k'.tasks t).state = .running → (k.tasks t).state = .running) : k'.Sound cfg := by
  refine g.update hc hwf hsorted htimeouts hlast ?_ ?_
  · intro u
    by_cases hu : u = t
    · rw [hu]
      exact hself
    · rw [hviews u hu]
      exact g.shape u
  · intro u hu
    by_cases hut : u = t
    · rw [hut] at hu ⊢
      exact hrun hu
    · rwa [show k'.tasks u = k.tasks u from congrArg TaskView.cb (hviews u hut)] at hu

structure Kernel.Bookkept (k k' : Kernel) : Prop where
  frame : k' = { k with switchReasons := k'.switchReasons, pendSvPending := k'.pendSvPending, tasks := k'.tasks }
  tasks : ∀ t, k'.tasks t = { k.tasks t with
    timeSliceRemaining := (k'.tasks t).timeSliceRemaining
    runtimeCounter := (k'.tasks t).runtimeCounter
    ownedMutexCount := (k'.tasks t).ownedMutexCount }

structure Kernel.Calm (k k' : Kernel) : Prop where
  frame : k' = { k with switchReasons := k'.switchReasons, pendSvPending := k'.pendSvPending }
  pends : k.pendSvPending = true → k'.pendSvPending = true
  timeSlice : k'.switchReasons.timeSlice = k.switchReasons.timeSlice

structure Kernel.Runs (k : Kernel) (t : TaskRef) : Prop where
  state : k.state = .running
  current : k.currentTask = some t
  running : (k.tasks t).state = .running
  idle : t ≠ .idle

namespace Shape

variable {cfg : Config} {v : TaskView}

theorem magic_of_isReady (h : Shape cfg v) (hr : v.cb.state.isReady = true) : v.cb.magic = true := by
  apply h.magic.mpr
  intro hs
  simp [hs, TaskState.isReady] at hr

theorem registered_of_isReady (h : Shape cfg v) (hr : v.cb.state.isReady = true) : v.registered = true := by
  apply h.registered.mpr
  constructor <;> intro hs <;> simp [hs, TaskState.isReady] at hr

theorem magic_of_registered (h : Shape cfg v) (hr : v.registered = true) : v.cb.magic = true :=
  h.magic.mpr (h.registered.mp hr).1

theorem registered_of_wait (h : Shape cfg v) (hw : v.cb.wait ≠ none) : v.registered = true := by
  have hb := h.waiting.mp hw
  apply h.registered.mpr
  constructor <;> intro hs <;> simp [TaskControlBlock.isWaiting, hs] at hb

theorem magic_of_wait (h : Shape cfg v) (hw : v.cb.wait ≠ none) : v.cb.magic = true :=
  h.magic_of_registered (h.registered_of_wait hw)

theorem not_idle_of_wait (h : Shape cfg v) (hw : v.cb.wait ≠ none) : v.idle = false := by
  cases hi : v.idle with
  | false => rfl
  | true =>
    have hr := (h.idle hi).1
    have hb := h.waiting.mp hw
    simp only [TaskState.isReady, Bool.or_eq_true, decide_eq_true_eq] at hr
    rcases hr with hr | hr <;> simp [TaskControlBlock.isWaiting, hr] at hb

theorem wait_none_of_isReady (h : Shape cfg v) (hr : v.cb.state.isReady = true) : v.cb.wait = none := by
  by_contra hw
  have hb := h.waiting.mp hw
  simp only [TaskState.isReady, Bool.or_eq_true, decide_eq_true_eq] at hr
  rcases hr with hr | hr <;> simp [TaskControlBlock.isWaiting, hr] at hb

theorem timeoutHost_none (h : Shape cfg v) (hw : v.cb.wait = none) : v.timeoutHost = none := by
  by_contra ht
  exact h.timeoutHost ht hw

theorem waitHost_none (h : Shape cfg v) (hw : v.cb.wait = none) : v.waitHost = none := by
  rw [h.waitHost, h.records.waitList, hw]
  rfl

theorem waitHost_eq (h : Shape cfg v) : v.waitHost = v.cb.wait.bind Wait.waitList := by
  rw [h.waitHost, h.records.waitList]

theorem effective_lt (h : Shape cfg v) (hm : v.cb.magic = true) : v.cb.effectivePriority < cfg.priorityCount :=
  h.effective.trans_lt (h.base hm)

theorem reprioritise {v' : TaskView} (h : Shape cfg v)
    (hcb : v'.cb = { v.cb with effectivePriority := v'.cb.effectivePriority }) (hidle : v'.idle = v.idle)
    (hreg : v'.registered = v.registered) (hwait : v'.waitHost = v.waitHost) (htimeout : v'.timeoutHost = v.timeoutHost)
    (hlinked : v'.readyHost.isSome = v.readyHost.isSome) (hhost : ∀ p, v'.readyHost = some p → v'.readyPriority = p)
    (hagree : v'.cb.magic = true →
      v'.readyPriority = v'.cb.effectivePriority ∧ v'.waitPriority = v'.cb.effectivePriority)
    (heff : v'.cb.effectivePriority ≤ v.cb.basePriority)
    (hkeep : v.registered = false ∨ v.idle = true → v'.cb.effectivePriority = v.cb.effectivePriority) :
    Shape cfg v' := by
  have hw : v'.cb.wait = v.cb.wait := by
    rw [hcb]
    rfl
  have hmagic : v'.cb.magic = v.cb.magic := by rw [hcb]
  have hstate : v'.cb.state = v.cb.state := by rw [hcb]
  have hbase : v'.cb.basePriority = v.cb.basePriority := by rw [hcb]
  have hblocked : v'.cb.isWaiting = v.cb.isWaiting := by
    rw [hcb]
    rfl
  constructor
  · rw [hmagic, hstate]
    exact h.magic
  · rw [hreg, hstate]
    exact h.registered
  · have hold := h.readyHost
    rw [hstate]
    by_cases hr : v.cb.state.isReady = true
    · have hmag := hmagic.trans (h.magic_of_isReady hr)
      rw [if_pos hr] at hold ⊢
      rw [hold] at hlinked
      obtain ⟨p, hp⟩ := Option.isSome_iff_exists.mp hlinked
      rw [hp, ← hhost p hp, (hagree hmag).1]
    · rw [if_neg hr] at hold ⊢
      rw [hold] at hlinked
      simpa using hlinked
  · rw [hwait, hcb]
    exact h.waitHost
  · have hr := h.records
    rw [hw, hcb]
    exact ⟨hr.kind, hr.object, hr.waitList, hr.buffer, hr.cleanup⟩
  · rw [hw, hblocked]
    exact h.waiting
  · rw [hw, htimeout]
    exact h.timeoutHost
  · rw [hcb]
    exact h.resumes
  · rw [hcb]
    exact h.resumesNot
  · exact hagree
  · rw [hbase]
    exact heff
  · intro hr
    rw [hreg] at hr
    rw [hkeep (Or.inl hr), hbase]
    exact h.fresh hr
  · rw [hmagic, hbase]
    exact h.base
  · rw [hreg, hidle, hbase]
    exact h.urgent
  · intro hi
    rw [hidle] at hi
    rw [hstate, hkeep (Or.inr hi)]
    exact h.idle hi

theorem bookkeeping {v' : TaskView} (h : Shape cfg v) (slice : Tick) (runtime : BitVec 32) (owned : Nat)
    (hv : v' = { v with
      cb := { v.cb with timeSliceRemaining := slice, runtimeCounter := runtime, ownedMutexCount := owned } }) :
    Shape cfg v' := by
  subst hv
  exact ⟨h.magic, h.registered, h.readyHost, h.waitHost,
    ⟨h.records.kind, h.records.object, h.records.waitList, h.records.buffer, h.records.cleanup⟩, h.waiting,
    h.timeoutHost, h.resumes, h.resumesNot, h.agree, h.effective, h.fresh, h.base, h.urgent, h.idle⟩

theorem wait_of_blocked (h : Shape cfg v) (hs : v.cb.state = .blocked) : v.cb.wait ≠ none := by
  apply h.waiting.mpr
  simp [TaskControlBlock.isWaiting, hs]

end Shape

theorem Kernel.Calm.refl (k : Kernel) : k.Calm k := ⟨rfl, id, rfl⟩

theorem Kernel.Calm.trans {k'' : Kernel} (h : k.Calm k') (h' : k'.Calm k'') : k.Calm k'' where
  frame := by rw [h'.frame, h.frame]
  pends := fun hp => h'.pends (h.pends hp)
  timeSlice := h'.timeSlice.trans h.timeSlice

theorem Kernel.Calm.tasks (h : k.Calm k') : k'.tasks = k.tasks := by rw [h.frame]

theorem Kernel.Calm.bookkept (h : k.Calm k') : k.Bookkept k' := by
  refine ⟨?_, fun t => ?_⟩
  · rw [h.frame]
  · rw [h.tasks]

theorem Kernel.calm_requestContextSwitch (k : Kernel) : k.Calm (requestContextSwitch k) :=
  ⟨rfl, fun _ => rfl, rfl⟩

theorem Kernel.Bookkept.control (h : k.Bookkept k') : SameControl k k' := by
  rw [h.frame]
  exact ⟨rfl, rfl, rfl, rfl, rfl, rfl⟩

theorem Kernel.Bookkept.trans {k'' : Kernel} (h : k.Bookkept k') (h' : k'.Bookkept k'') : k.Bookkept k'' where
  frame := by rw [h'.frame, h.frame]
  tasks := fun t => by rw [h'.tasks t, h.tasks t]

theorem Kernel.Bookkept.symm (h : k.Bookkept k') : k'.Bookkept k where
  frame := by rw [h.frame]
  tasks := fun t => by rw [h.tasks t]

theorem Kernel.Bookkept.wait (h : k.Bookkept k') (t : TaskRef) :
    (k'.tasks t).wait = (k.tasks t).wait := by
  rw [h.tasks t]
  rfl

theorem Kernel.Bookkept.taskState (h : k.Bookkept k') (t : TaskRef) :
    (k'.tasks t).state = (k.tasks t).state := by rw [h.tasks t]

theorem Kernel.Bookkept.effective (h : k.Bookkept k') (t : TaskRef) :
    (k'.tasks t).effectivePriority = (k.tasks t).effectivePriority := by rw [h.tasks t]

theorem Kernel.Good.bookkept (g : k.Good cfg) (h : k.Bookkept k') : k'.Good cfg := by
  have hsched : k'.scheduler = k.scheduler := by rw [h.frame]
  have hwaits : k'.waitLists = k.waitLists := by rw [h.frame]
  have htimeouts : k'.timeoutList = k.timeoutList := by rw [h.frame]
  refine ⟨g.update h.control (hsched ▸ g.scheduler) (hwaits ▸ g.sorted) (htimeouts ▸ g.timeouts)
    (by rw [htimeouts])
    ?_ ?_, ?_⟩
  · intro t
    apply (g.shape t).bookkeeping (k'.tasks t).timeSliceRemaining (k'.tasks t).runtimeCounter
      (k'.tasks t).ownedMutexCount
    simp only [Kernel.view, hsched, hwaits, htimeouts, h.control.allTasks]
    rw [← h.tasks t]
  · intro t ht
    rw [h.tasks t] at ht
    exact ht
  · intro t ht
    rw [h.wait t] at ht
    rw [htimeouts]
    exact g.delays t ht

end Hairtos

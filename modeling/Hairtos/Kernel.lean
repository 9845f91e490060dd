import Hairtos.Inheritance

/-!
The functions of `hr_kernel.c` on the kernel's own variables. Each returns the state it leaves
behind also when it fails. A panic is the kernel state `panic`.
-/

namespace Hairtos

def kernelPanic (k : Kernel) : Kernel := { k with state := .panic }

def kernelReloadTimeSlice (cfg : Config) (k : Kernel) (task : TaskRef) : Kernel :=
  k.updateTask task (fun cb => { cb with timeSliceRemaining := cfg.timeSliceTicks })

def requestContextSwitch (k : Kernel) : Kernel := { k with pendSvPending := true }

def yieldFromIsr (k : Kernel) (switchRequired : Bool) : Kernel :=
  if switchRequired then requestContextSwitch k else k

def kernelIsRunning (k : Kernel) : Bool := k.state = .running

def kernelRegisterTask (cfg : Config) (k : Kernel) (task : TaskRef) : Kernel × Status :=
  if k.state ≠ .initialized || !taskIsValid k task then (k, .invalidState)
  else if cfg.maxTasks ≤ k.taskCount then (k, .noMemory)
  else if task ≠ .idle && (k.tasks task).effectivePriority = cfg.idlePriority then (k, .invalidArgument)
  else if (k.tasks task).state ≠ .created || listNodeIsLinked k.scheduler.queues task ||
      listNodeIsLinked k.allTasks task then (k, .invalidState)
  else
    let (k, status) := k.addReady cfg task
    if status ≠ .ok then (k, status)
    else
      let (allTasks, status) := listPushBack k.allTasks () task
      let k := { k with allTasks := allTasks }
      if status ≠ .ok then ((k.removeReady cfg task).1, status)
      else
        let (k, status) := taskTransitionState k task .created .ready
        if status ≠ .ok then
          (({ k with allTasks := (listRemove k.allTasks task).1 }.removeReady cfg task).1, status)
        else
          let k := kernelReloadTimeSlice cfg k task
          ({ k with taskCount := k.taskCount + 1 }, .ok)

def kernelPrepareStart (cfg : Config) (k : Kernel) : Kernel × Status :=
  if k.state ≠ .initialized then (k, .invalidState)
  else
    match schedulerSelectHighest cfg k.scheduler with
    | none => (k, .internal)
    | some task =>
      if !taskIsValid k task then (k, .internal)
      else if (k.tasks task).state ≠ .ready then (k, .invalidState)
      else
        let (k, status) := taskTransitionState k task .ready .running
        if status ≠ .ok then (k, .invalidState)
        else
          let k := kernelReloadTimeSlice cfg k task
          ({ k with currentTask := some task, currentControlBlock := some task, state := .running }, .ok)

def kernelRequestYield (k : Kernel) : Kernel :=
  match k.currentTask with
  | none => k
  | some current =>
    if k.state = .running && (k.tasks current).state = .running then
      requestContextSwitch { k with switchReasons := { k.switchReasons with yield := true } }
    else k

def kernelDelayCurrent (cfg : Config) (k : Kernel) (delayTicks : Tick) : Kernel × Status :=
  match k.currentTask with
  | none => (k, .invalidState)
  | some current =>
    if k.state ≠ .running || current = .idle || delayTicks = 0#32 || delayTicks = waitForever then
      (k, .invalidState)
    else if (k.tasks current).state ≠ .running || !listNodeIsLinked k.scheduler.queues current ||
        listNodeIsLinked k.timeoutList.lists current then (k, .invalidState)
    else
      let (k, status) := k.removeReady cfg current
      if status ≠ .ok then (k, status)
      else
        let (k, status) := k.timeoutInsert current delayTicks
        if status ≠ .ok then ((k.addReady cfg current).1, status)
        else
          let (k, status) := taskTransitionState k current .running .blocked
          if status ≠ .ok then (((k.timeoutRemove current).1.addReady cfg current).1, status)
          else
            let k := k.updateTask current (fun cb =>
              { cb with
                wakeTick := k.tick + delayTicks
                waitingObject := some .timeoutList
                blockedWaitList := none
                waitBuffer := none
                waitResult := .ok
                waitKind := .delay })
            let k := kernelReloadTimeSlice cfg k current
            ({ k with switchReasons := { k.switchReasons with block := true } }, .ok)

/-- The second component is `*switch_required`. -/
def kernelSuspendTask (cfg : Config) (k : Kernel) (task : TaskRef) : Kernel × Bool × Status :=
  if k.state ≠ .running || !taskIsValid k task || task = .idle then (k, false, .invalidState)
  else
    match (k.tasks task).state with
    | .ready =>
      if !listNodeIsLinked k.scheduler.queues task then (k, false, .internal)
      else
        let (k, status) := k.removeReady cfg task
        if status ≠ .ok then (k, false, status)
        else
          let (k, status) := taskTransitionState k task .ready .suspended
          if status ≠ .ok then ((k.addReady cfg task).1, false, status)
          else (k.updateTask task (fun cb => { cb with suspendedResumeState := .ready }), false, .ok)
    | .running =>
      if k.currentTask ≠ some task || !listNodeIsLinked k.scheduler.queues task then (k, false, .invalidState)
      else
        let (k, status) := k.removeReady cfg task
        if status ≠ .ok then (k, false, status)
        else
          let (k, status) := taskTransitionState k task .running .suspended
          if status ≠ .ok then ((k.addReady cfg task).1, false, status)
          else
            let k := k.updateTask task (fun cb => { cb with suspendedResumeState := .ready })
            let k := kernelReloadTimeSlice cfg k task
            ({ k with switchReasons := { k.switchReasons with block := true } }, true, .ok)
    | .blocked =>
      if (k.tasks task).waitKind = .none || (k.tasks task).waitingObject = none ||
          listNodeIsLinked k.scheduler.queues task then (k, false, .internal)
      else
        let (k, status) := taskTransitionState k task .blocked .suspended
        if status ≠ .ok then (k, false, status)
        else (k.updateTask task (fun cb => { cb with suspendedResumeState := .blocked }), false, .ok)
    | _ => (k, false, .invalidState)

def kernelOutranksCurrent (k : Kernel) (task : TaskRef) : Bool :=
  match k.currentTask with
  | none => false
  | some current =>
    taskIsValid k current && (k.tasks current).state = .running &&
      decide ((k.tasks task).effectivePriority < (k.tasks current).effectivePriority)

def kernelResumeTask (cfg : Config) (k : Kernel) (task : TaskRef) : Kernel × Bool × Status :=
  if k.state ≠ .running || !taskIsValid k task || task = .idle then (k, false, .invalidState)
  else if (k.tasks task).state ≠ .suspended then (k, false, .invalidState)
  else
    match (k.tasks task).suspendedResumeState with
    | .blocked =>
      let (k, status) := taskTransitionState k task .suspended .blocked
      if status ≠ .ok then (k, false, status)
      else (k.updateTask task (fun cb => { cb with suspendedResumeState := .invalid }), false, .ok)
    | .ready =>
      let (k, status) := k.addReady cfg task
      if status ≠ .ok then (k, false, status)
      else
        let (k, status) := taskTransitionState k task .suspended .ready
        if status ≠ .ok then ((k.removeReady cfg task).1, false, status)
        else
          let k := k.updateTask task (fun cb => { cb with suspendedResumeState := .invalid })
          let k := kernelReloadTimeSlice cfg k task
          if cfg.preemption && kernelOutranksCurrent k task then
            ({ k with switchReasons := { k.switchReasons with preempt := true } }, true, .ok)
          else (k, false, .ok)
    | _ => (k, false, .internal)

def Kernel.leaveWaitList (k : Kernel) (task : TaskRef) : Kernel × Status :=
  match (k.tasks task).blockedWaitList with
  | none => (k, .ok)
  | some waitList => k.waitRemove waitList task

def Kernel.detachWait (k : Kernel) (task : TaskRef) : Kernel × Status :=
  let (k, status) := k.leaveWaitList task
  if status ≠ .ok then (k, status)
  else if listNodeIsLinked k.timeoutList.lists task then k.timeoutRemove task
  else (k, .ok)

def Kernel.runCleanup (cfg : Config) (ms : Mutexes) (k : Kernel) (task : TaskRef) (cleanup : Option WaitCleanup)
    (result : Status) : Kernel :=
  match cleanup with
  | none => k
  | some .mutexWaitCleanup => mutexWaitCleanup cfg ms k task result

/-- The part of `hr_kernel_make_task_ready` behind the clean-up. Suspension wins over the wake-up. -/
def Kernel.completeWait (cfg : Config) (k : Kernel) (task : TaskRef) (result : Status) (suspendedWait : Bool) :
    Kernel × Bool × Status :=
  let k := k.updateTask task (fun cb =>
    { cb with
      waitingObject := none
      blockedWaitList := none
      waitBuffer := none
      waitCleanup := none
      waitResult := result
      waitKind := .none })
  let k := kernelReloadTimeSlice cfg k task
  if suspendedWait then
    (k.updateTask task (fun cb => { cb with suspendedResumeState := .ready }), false, .ok)
  else
    let (k, status) := k.addReady cfg task
    if status ≠ .ok then (k, false, status)
    else
      let (k, status) := taskTransitionState k task .blocked .ready
      if status ≠ .ok then ((k.removeReady cfg task).1, false, status)
      else (k, kernelOutranksCurrent k task, .ok)

/-- The second component is `*higher_priority_task_woken`, which the callers initialise to false. -/
def kernelMakeTaskReady (cfg : Config) (ms : Mutexes) (k : Kernel) (task : TaskRef) (result : Status) :
    Kernel × Bool × Status :=
  let suspendedWait := (k.tasks task).state = .suspended && (k.tasks task).suspendedResumeState = .blocked
  if (k.tasks task).state ≠ .blocked && !suspendedWait then (k, false, .invalidState)
  else if !taskIsValid k task then (k, false, .internal)
  else
    let cleanup := (k.tasks task).waitCleanup
    let (k, status) := k.detachWait task
    if status ≠ .ok then (k, false, status)
    else (k.runCleanup cfg ms task cleanup result).completeWait cfg task result suspendedWait

def kernelBlockCurrentOnWaitListEx (cfg : Config) (k : Kernel) (waitList : WaitListRef) (object : WaitObject)
    (waitKind : WaitKind) (buffer : Option BufferRef) (timeout : Tick) (cleanup : Option WaitCleanup) :
    Kernel × Status :=
  match k.currentTask with
  | none => (k, .invalidArgument)
  | some current =>
    if k.state ≠ .running || current = .idle || waitKind = .none || waitKind = .delay ||
        ((waitKind = .queueSend || waitKind = .queueReceive) && buffer = none) || timeout = noWait then
      (k, .invalidArgument)
    else if (k.tasks current).state ≠ .running || !listNodeIsLinked k.scheduler.queues current ||
        listNodeIsLinked k.waitLists.lists current || listNodeIsLinked k.timeoutList.lists current then
      (k, .invalidState)
    else
      let (k, status) := k.removeReady cfg current
      if status ≠ .ok then (k, status)
      else
        let (k, status) := k.waitInsert waitList current
        if status ≠ .ok then ((k.addReady cfg current).1, status)
        else
          let (k, status) : Kernel × Status :=
            if timeout ≠ waitForever then k.timeoutInsert current timeout else (k, .ok)
          if status ≠ .ok then (((k.waitRemove waitList current).1.addReady cfg current).1, status)
          else
            let (k, status) := taskTransitionState k current .running .blocked
            if status ≠ .ok then
              let k := if listNodeIsLinked k.timeoutList.lists current then (k.timeoutRemove current).1 else k
              (((k.waitRemove waitList current).1.addReady cfg current).1, status)
            else
              let k := k.updateTask current (fun cb =>
                { cb with
                  wakeTick := if timeout = waitForever then 0#32 else k.tick + timeout
                  waitingObject := some object
                  blockedWaitList := some waitList
                  waitBuffer := buffer
                  waitCleanup := cleanup
                  waitResult := .internal
                  waitKind := waitKind })
              let k := kernelReloadTimeSlice cfg k current
              ({ k with switchReasons := { k.switchReasons with block := true } }, .ok)

def kernelBlockCurrentOnWaitList (cfg : Config) (k : Kernel) (waitList : WaitListRef) (object : WaitObject)
    (waitKind : WaitKind) (buffer : Option BufferRef) (timeout : Tick) : Kernel × Status :=
  kernelBlockCurrentOnWaitListEx cfg k waitList object waitKind buffer timeout none

def kernelUnblockWaiter (cfg : Config) (ms : Mutexes) (k : Kernel) (waiter : TaskRef) (result : Status) :
    Kernel × Bool × Status :=
  if !taskIsValid k waiter then (k, false, .internal) else kernelMakeTaskReady cfg ms k waiter result

def kernelCurrentShouldPreempt (cfg : Config) (k : Kernel) : Bool :=
  match k.currentTask with
  | none => false
  | some current =>
    k.state = .running && taskIsValid k current && (k.tasks current).state = .running &&
      schedulerShouldPreempt cfg k.scheduler current

def kernelDispatch (cfg : Config) (k : Kernel) (current : TaskRef) : Kernel :=
  match schedulerSelectHighest cfg k.scheduler with
  | none => kernelPanic k
  | some next =>
    if !taskIsValid k next then kernelPanic k
    else if next ≠ current then
      if (k.tasks next).state ≠ .ready then kernelPanic k
      else
        let (k, status) : Kernel × Status :=
          if (k.tasks current).state = .running then taskTransitionState k current .running .ready else (k, .ok)
        if status ≠ .ok then kernelPanic k
        else
          let (k, status) := taskTransitionState k next .ready .running
          if status ≠ .ok then kernelPanic k
          else { k with currentTask := some next, currentControlBlock := some next }
    else
      let (k, status) : Kernel × Status :=
        if (k.tasks current).state = .ready then taskTransitionState k current .ready .running else (k, .ok)
      if status ≠ .ok then kernelPanic k
      else { k with currentTask := some next, currentControlBlock := some next }

def kernelSelectNextFromPendsv (cfg : Config) (k : Kernel) : Kernel :=
  let switchReasons := k.switchReasons
  let k := { k with switchReasons := {} }
  match k.currentTask, k.currentControlBlock with
  | some current, some _ =>
    if k.state ≠ .running then kernelPanic k
    else
      match (k.tasks current).state with
      | .running =>
        match schedulerSelectHighest cfg k.scheduler with
        | none => kernelPanic k
        | some selected =>
          if selected = current && (switchReasons.yield || switchReasons.timeSlice) then
            let k := if switchReasons.yield then kernelReloadTimeSlice cfg k current else k
            let (scheduler, status) := schedulerYieldCurrent cfg k.scheduler current
            let k := { k with scheduler := scheduler }
            if status ≠ .ok then kernelPanic k else kernelDispatch cfg k current
          else kernelDispatch cfg k current
      | .ready | .blocked | .suspended => kernelDispatch cfg k current
      | _ => kernelPanic k
  | _, _ => kernelPanic k

def kernelValidateTask (k : Kernel) (task : TaskRef) : Bool :=
  let cb := k.tasks task
  let readyLinked := listNodeIsLinked k.scheduler.queues task
  let waitLinked := listNodeIsLinked k.waitLists.lists task
  let timeoutLinked := listNodeIsLinked k.timeoutList.lists task
  taskIsValid k task && k.allTasks.host task = some () &&
    k.scheduler.priority task == cb.effectivePriority && k.waitLists.priority task == cb.effectivePriority &&
    match cb.state with
    | .ready => readyLinked && !waitLinked && !timeoutLinked && cb.waitKind = .none
    | .running =>
      readyLinked && !waitLinked && !timeoutLinked && cb.waitKind = .none && k.currentTask = some task
    | .blocked =>
      !readyLinked && cb.waitKind ≠ .none && cb.waitingObject ≠ none &&
        if cb.waitKind = .delay then !waitLinked && timeoutLinked else waitLinked
    | .suspended =>
      !readyLinked &&
        match cb.suspendedResumeState with
        | .ready => !waitLinked && !timeoutLinked && cb.waitKind = .none
        | .blocked =>
          cb.waitKind ≠ .none && cb.waitingObject ≠ none &&
            if cb.waitKind = .delay then !waitLinked && timeoutLinked else waitLinked
        | _ => false
    | _ => false

structure ValidationCounts where
  registered : Nat := 0
  ready : Nat := 0
  running : Nat := 0
  deriving DecidableEq, Repr

def kernelValidateLoop (k : Kernel) : ValidationCounts → List TaskRef → Option ValidationCounts
  | counts, [] => some counts
  | counts, task :: rest =>
    if !kernelValidateTask k task then none
    else
      let state := (k.tasks task).state
      kernelValidateLoop k
        { registered := counts.registered + 1
          ready := if state = .ready || state = .running then counts.ready + 1 else counts.ready
          running := if state = .running then counts.running + 1 else counts.running } rest

def kernelValidateStructure (cfg : Config) (k : Kernel) : Option ValidationCounts :=
  if !readySetValidate cfg k.scheduler || !listValidate k.allTasks () || !timeoutListValidate k.timeoutList ||
      listSize k.allTasks () ≠ k.taskCount then none
  else
    match kernelValidateLoop k {} (k.allTasks.seq ()) with
    | none => none
    | some counts =>
      if counts.registered ≠ k.taskCount || counts.ready ≠ schedulerReadyCount k.scheduler then none else
        some counts

def kernelValidateInternal (cfg : Config) (k : Kernel) : Bool :=
  match kernelValidateStructure cfg k with
  | none => false
  | some counts =>
    if k.state = .running then
      counts.running == 1 && k.currentTask.isSome && k.currentControlBlock == k.currentTask
    else counts.running == 0

end Hairtos

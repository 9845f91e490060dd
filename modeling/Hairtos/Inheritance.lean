import Hairtos.State

namespace Hairtos

def Kernel.addReady (cfg : Config) (k : Kernel) (task : TaskRef) : Kernel × Status :=
  let (scheduler, status) := schedulerAddReady cfg k.scheduler task
  ({ k with scheduler := scheduler }, status)

def Kernel.removeReady (cfg : Config) (k : Kernel) (task : TaskRef) : Kernel × Status :=
  let (scheduler, status) := schedulerRemoveReady cfg k.scheduler task
  ({ k with scheduler := scheduler }, status)

def Kernel.waitInsert (k : Kernel) (waitList : WaitListRef) (task : TaskRef) : Kernel × Status :=
  let (waitLists, status) := waitListInsert k.waitLists waitList task
  ({ k with waitLists := waitLists }, status)

def Kernel.waitRemove (k : Kernel) (waitList : WaitListRef) (task : TaskRef) : Kernel × Status :=
  let (waitLists, status) := waitListRemove k.waitLists waitList task
  ({ k with waitLists := waitLists }, status)

def Kernel.timeoutInsert (k : Kernel) (task : TaskRef) (ticks : Tick) : Kernel × Status :=
  let (timeoutList, status) := timeoutListInsert k.timeoutList task ticks
  ({ k with timeoutList := timeoutList }, status)

def Kernel.timeoutRemove (k : Kernel) (task : TaskRef) : Kernel × Status :=
  let (timeoutList, status) := timeoutListRemove k.timeoutList task
  ({ k with timeoutList := timeoutList }, status)

def Kernel.storePriority (k : Kernel) (task : TaskRef) (priority : Nat) : Kernel :=
  { k.updateTask task (fun cb => { cb with effectivePriority := priority }) with
    scheduler := { k.scheduler with priority := Function.update k.scheduler.priority task priority }
    waitLists := { k.waitLists with priority := Function.update k.waitLists.priority task priority } }

def Kernel.detachNodes (cfg : Config) (k : Kernel) (task : TaskRef) (readyLinked waitLinked : Bool)
    (waitList : Option WaitListRef) : Kernel × Status :=
  let (k, status) := if readyLinked then k.removeReady cfg task else (k, .ok)
  if status ≠ .ok then (k, status)
  else
    let (k, status) := if waitLinked then
        match waitList with
        | none => (k, .internal)
        | some l => k.waitRemove l task
      else (k, .ok)
    if status ≠ .ok then (if readyLinked then (k.addReady cfg task).1 else k, status) else (k, .ok)

def Kernel.attachNodes (cfg : Config) (k : Kernel) (task : TaskRef) (readyLinked waitLinked : Bool)
    (waitList : Option WaitListRef) : Kernel × Status :=
  let (k, status) := if readyLinked then k.addReady cfg task else (k, .ok)
  if status ≠ .ok then (k, status)
  else
    match waitLinked, waitList with
    | true, some l => k.waitInsert l task
    | _, _ => (k, .ok)

def kernelSetTaskEffectivePriority (cfg : Config) (k : Kernel) (task : TaskRef) (priority : Nat) : Kernel × Status :=
  if cfg.idlePriority ≤ priority then (k, .invalidArgument)
  else if (k.tasks task).effectivePriority = priority then (k, .ok)
  else
    let readyLinked := listNodeIsLinked k.scheduler.queues task
    let waitLinked := listNodeIsLinked k.waitLists.lists task
    let waitList := (k.tasks task).blockedWaitList
    let (k, status) := k.detachNodes cfg task readyLinked waitLinked waitList
    if status ≠ .ok then (k, status)
    else (k.storePriority task priority).attachNodes cfg task readyLinked waitLinked waitList

def mutexRequiredPriorityLoop (k : Kernel) (ms : Mutexes) (base : Nat) : Nat → List MutexRef → Nat
  | priority, [] => priority
  | priority, m :: rest =>
    if !(ms.blocks m).magic then base
    else
      match waitListPeek k.waitLists (.mutex m) with
      | none => mutexRequiredPriorityLoop k ms base priority rest
      | some waiter =>
        mutexRequiredPriorityLoop k ms base
          (if k.waitLists.priority waiter < priority then k.waitLists.priority waiter else priority) rest

def mutexRequiredPriority (k : Kernel) (ms : Mutexes) (task : TaskRef) : Nat :=
  mutexRequiredPriorityLoop k ms (k.tasks task).basePriority (k.tasks task).basePriority (ms.owned.seq task)

def mutexNextOwner (k : Kernel) (ms : Mutexes) (task : TaskRef) : Option TaskRef :=
  if !((k.tasks task).isWaiting && (k.tasks task).waitKind = .mutexLock) then none
  else
    match (k.tasks task).waitingObject with
    | some (.mutex m) =>
      if !(ms.blocks m).magic then none
      else
        match (ms.blocks m).owner with
        | none => none
        | some owner => if taskIsValid k owner && owner ≠ task then some owner else none
    | _ => none

/-- The first argument counts down from `HR_CFG_MAX_TASKS + 1` as the depth goes up from zero. -/
def mutexRecomputeTaskPriority (cfg : Config) (ms : Mutexes) : Nat → Kernel → TaskRef → Kernel × Status
  | 0, k, _ => (k, .internal)
  | fuel + 1, k, task =>
    let (k, status) := kernelSetTaskEffectivePriority cfg k task (mutexRequiredPriority k ms task)
    if status ≠ .ok then (k, status)
    else
      match mutexNextOwner k ms task with
      | none => (k, .ok)
      | some owner => mutexRecomputeTaskPriority cfg ms fuel k owner

def recomputeDepth (cfg : Config) : Nat := cfg.maxTasks + 1

def mutexRecomputeOwnerPriority (cfg : Config) (ms : Mutexes) (k : Kernel) (m : MutexRef) : Kernel × Status :=
  if !(ms.blocks m).magic then (k, .invalidArgument)
  else
    match (ms.blocks m).owner with
    | none => (k, .ok)
    | some owner =>
      if !taskIsValid k owner then (k, .internal)
      else mutexRecomputeTaskPriority cfg ms (recomputeDepth cfg) k owner

def mutexWaitCleanup (cfg : Config) (ms : Mutexes) (k : Kernel) (task : TaskRef) (result : Status) : Kernel :=
  if result ≠ .timeout || (k.tasks task).waitKind ≠ .mutexLock then k
  else
    match (k.tasks task).waitingObject with
    | some (.mutex m) => (mutexRecomputeOwnerPriority cfg ms k m).1
    | _ => k

end Hairtos

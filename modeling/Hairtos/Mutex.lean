import Hairtos.Queue

namespace Hairtos

open Library

def mutexIsValid (s : System) (m : MutexRef) : Bool :=
  let cb := s.mutexes.blocks m
  cb.magic &&
    match cb.owner with
    | none => cb.recursionCount = 0 && !listNodeIsLinked s.mutexes.owned m
    | some owner =>
      taskIsValid s.kernel owner && decide (0 < cb.recursionCount) && listNodeIsLinked s.mutexes.owned m

def mutexValidateInternal (s : System) (m : MutexRef) : Bool :=
  if !mutexIsValid s m || !waitListValidate s.kernel.waitLists (.mutex m) then false
  else
    match (s.mutexes.blocks m).owner with
    | none => true
    | some owner => s.mutexes.owned.host m = some owner

def Mutexes.update (ms : Mutexes) (m : MutexRef) (f : MutexControlBlock → MutexControlBlock) : Mutexes :=
  { ms with blocks := Function.update ms.blocks m (f (ms.blocks m)) }

def mutexCreateInternal (s : System) (mutex : Option MutexRef) (recursive : Bool) : System × Status :=
  match mutex with
  | none => (s, .invalidArgument)
  | some m =>
    if mutexIsValid s m then (s, .invalidState)
    else ({ s with mutexes := s.mutexes.update m (fun _ => { magic := true, recursive := recursive }) }, .ok)

def mutexCreate (s : System) (mutex : Option MutexRef) : System × Status := mutexCreateInternal s mutex false

def mutexCreateRecursive (s : System) (mutex : Option MutexRef) : System × Status :=
  mutexCreateInternal s mutex true

def mutexAttachOwner (s : System) (m : MutexRef) (task : TaskRef) : System × Status :=
  if !taskIsValid s.kernel task || (s.mutexes.blocks m).owner ≠ none || listNodeIsLinked s.mutexes.owned m then
    (s, .invalidState)
  else
    let (owned, status) := listPushBack s.mutexes.owned task m
    if status ≠ .ok then (s, status)
    else
      let mutexes := { s.mutexes with owned := owned }.update m (fun cb =>
        { cb with owner := some task, recursionCount := 1 })
      let kernel := s.kernel.updateTask task (fun cb => { cb with ownedMutexCount := cb.ownedMutexCount + 1 })
      ({ s with mutexes := mutexes, kernel := kernel }.record [.acquired m task], .ok)

def mutexDetachOwner (s : System) (m : MutexRef) : System × Option TaskRef × Status :=
  match (s.mutexes.blocks m).owner with
  | none => (s, none, .invalidState)
  | some owner =>
    if !taskIsValid s.kernel owner || !listNodeIsLinked s.mutexes.owned m then (s, none, .invalidState)
    else if (s.kernel.tasks owner).ownedMutexCount = 0 || s.mutexes.owned.host m ≠ some owner then
      (s, none, .internal)
    else
      let (owned, status) := listRemove s.mutexes.owned m
      if status ≠ .ok then (s, none, status)
      else
        let mutexes := { s.mutexes with owned := owned }.update m (fun cb =>
          { cb with owner := none, recursionCount := 0 })
        let kernel := s.kernel.updateTask owner (fun cb => { cb with ownedMutexCount := cb.ownedMutexCount - 1 })
        ({ s with mutexes := mutexes, kernel := kernel }, some owner, .ok)

/-- The branch of `hr_mutex_lock` in which the caller waits. A refused wait is completed at once with
the status of the recomputation. -/
def mutexLockWait (cfg : Config) (s : System) (m : MutexRef) (current : TaskRef) (timeout : Tick) :
    System × Outcome :=
  let (k, status) := kernelBlockCurrentOnWaitListEx cfg s.kernel (.mutex m) (.mutex m) .mutexLock none timeout
    (some .mutexWaitCleanup)
  if status ≠ .ok then ({ s with kernel := k }, .returned status)
  else
    let (k, status) := mutexRecomputeOwnerPriority cfg s.mutexes k m
    let k := if status ≠ .ok then (kernelUnblockWaiter cfg s.mutexes k current status).1 else k
    ({ s with kernel := requestContextSwitch k }, .blocked)

def mutexLock (cfg : Config) (s : System) (inIsr : Bool) (mutex : Option MutexRef) (timeout : Tick) :
    System × Outcome :=
  match mutex with
  | none => (s, .returned .invalidArgument)
  | some m =>
    if !mutexIsValid s m then (s, .returned .invalidArgument)
    else if inIsr then (s, .returned .fromIsr)
    else if !kernelIsRunning s.kernel then (s, .returned .invalidState)
    else
      match s.kernel.currentTask with
      | none => (s, .returned .invalidState)
      | some current =>
        if !taskIsValid s.kernel current then (s, .returned .invalidState)
        else if (s.mutexes.blocks m).owner = none then
          let (s, status) := mutexAttachOwner s m current
          (s, .returned status)
        else if (s.mutexes.blocks m).owner = some current then
          if !(s.mutexes.blocks m).recursive then (s, .returned .mutexBusy)
          else if (s.mutexes.blocks m).recursionCount = uint32Max then (s, .returned .overflow)
          else
            ({ s with mutexes := s.mutexes.update m (fun cb =>
                { cb with recursionCount := cb.recursionCount + 1 }) }, .returned .ok)
        else if timeout = noWait then (s, .returned .mutexBusy)
        else mutexLockWait cfg s m current timeout

def mutexRecomputeAfterUnlock (cfg : Config) (ms : Mutexes) (k : Kernel) (oldOwner newOwner : Option TaskRef) :
    Kernel × Status :=
  let (k, status) : Kernel × Status :=
    match oldOwner with
    | none => (k, .ok)
    | some owner => mutexRecomputeTaskPriority cfg ms (recomputeDepth cfg) k owner
  if status ≠ .ok then (k, status)
  else
    match newOwner with
    | none => (k, .ok)
    | some owner => mutexRecomputeTaskPriority cfg ms (recomputeDepth cfg) k owner

def mutexRelease (cfg : Config) (s : System) (m : MutexRef) : System × Status :=
  let waiter := waitListPeek s.kernel.waitLists (.mutex m)
  if waiter.any (fun task => !taskIsValid s.kernel task) then (s, .internal)
  else
    let (s, oldOwner, status) := mutexDetachOwner s m
    let (s, newOwner, woken, status) : System × Option TaskRef × Bool × Status :=
      match waiter with
      | none => (s, none, false, status)
      | some task =>
        if status ≠ .ok then (s, none, false, status)
        else
          let (s, status) := mutexAttachOwner s m task
          if status ≠ .ok then (s, none, false, status)
          else
            let (s, woken, status) := s.unblock cfg task .ok
            (s, some task, woken, status)
    let (k, status) : Kernel × Status :=
      if status ≠ .ok then (s.kernel, status) else mutexRecomputeAfterUnlock cfg s.mutexes s.kernel oldOwner newOwner
    let requestSwitch := woken || kernelCurrentShouldPreempt cfg k
    ({ s with kernel := if status = .ok && requestSwitch then requestContextSwitch k else k }, status)

def mutexUnlock (cfg : Config) (s : System) (inIsr : Bool) (mutex : Option MutexRef) : System × Status :=
  match mutex with
  | none => (s, .invalidArgument)
  | some m =>
    if !mutexIsValid s m then (s, .invalidArgument)
    else if inIsr then (s, .fromIsr)
    else
      match s.kernel.currentTask with
      | none => (s, .invalidState)
      | some current =>
        if !taskIsValid s.kernel current then (s, .invalidState)
        else if (s.mutexes.blocks m).owner ≠ some current then (s, .notOwner)
        else if (s.mutexes.blocks m).recursive && decide (1 < (s.mutexes.blocks m).recursionCount) then
          ({ s with mutexes := s.mutexes.update m (fun cb =>
              { cb with recursionCount := cb.recursionCount - 1 }) }, .ok)
        else mutexRelease cfg s m

end Hairtos

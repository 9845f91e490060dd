import Hairtos.Task

namespace Hairtos

def System.record (s : System) (events : List Event) : System := { s with history := s.history ++ events }

def System.caller (s : System) (inIsr : Bool) : Option TaskRef := if inIsr then none else s.kernel.currentTask

def semaphoreIsValid (s : System) (semaphore : SemaphoreRef) : Bool :=
  let cb := s.semaphores semaphore
  cb.magic && decide (0 < cb.maxCount) && decide (cb.count ≤ cb.maxCount)

def semaphoreValidateInternal (s : System) (semaphore : SemaphoreRef) : Bool :=
  semaphoreIsValid s semaphore && waitListValidate s.kernel.waitLists (.semaphore semaphore)

def System.updateSemaphore (s : System) (semaphore : SemaphoreRef)
    (f : SemaphoreControlBlock → SemaphoreControlBlock) : System :=
  { s with semaphores := Function.update s.semaphores semaphore (f (s.semaphores semaphore)) }

def semaphoreCreateCounting (s : System) (semaphore : Option SemaphoreRef) (initialCount maxCount : Nat) :
    System × Status :=
  match semaphore with
  | none => (s, .invalidArgument)
  | some semaphore =>
    if maxCount = 0 || maxCount < initialCount then (s, .invalidArgument)
    else if semaphoreIsValid s semaphore then (s, .invalidState)
    else
      let s := s.updateSemaphore semaphore (fun _ => { magic := true, count := initialCount, maxCount := maxCount })
      (s.record [.created semaphore initialCount], .ok)

def semaphoreCreateBinary (s : System) (semaphore : Option SemaphoreRef) (initiallyAvailable : Bool) :
    System × Status :=
  semaphoreCreateCounting s semaphore (if initiallyAvailable then 1 else 0) 1

def semaphoreGiveLocked (cfg : Config) (s : System) (semaphore : SemaphoreRef) : System × Bool × Status :=
  match waitListPeek s.kernel.waitLists (.semaphore semaphore) with
  | some waiter =>
    let (k, woken, status) := kernelUnblockWaiter cfg s.mutexes s.kernel waiter .ok
    let s := { s with kernel := k }
    if status ≠ .ok then (s, woken, status)
    else (s.record [.given semaphore, .taken semaphore (some waiter)], woken, .ok)
  | none =>
    if (s.semaphores semaphore).maxCount ≤ (s.semaphores semaphore).count then (s, false, .semaphoreFull)
    else
      let s := s.updateSemaphore semaphore (fun cb => { cb with count := cb.count + 1 })
      (s.record [.given semaphore], false, .ok)

def semaphoreTake (cfg : Config) (s : System) (inIsr : Bool) (semaphore : Option SemaphoreRef) (timeout : Tick) :
    System × Outcome :=
  match semaphore with
  | none => (s, .returned .invalidArgument)
  | some semaphore =>
    if !semaphoreIsValid s semaphore then (s, .returned .invalidArgument)
    else if inIsr then (s, .returned .fromIsr)
    else if timeout ≠ noWait && !kernelIsRunning s.kernel then (s, .returned .invalidState)
    else if 0 < (s.semaphores semaphore).count then
      let s := s.updateSemaphore semaphore (fun cb => { cb with count := cb.count - 1 })
      (s.record [.taken semaphore (s.caller inIsr)], .returned .ok)
    else if timeout = noWait then (s, .returned .semaphoreEmpty)
    else if s.kernel.currentTask = none then (s, .returned .invalidState)
    else
      let (k, status) := kernelBlockCurrentOnWaitListEx cfg s.kernel (.semaphore semaphore) (.semaphore semaphore)
        .semaphoreTake none timeout none
      if status = .ok then ({ s with kernel := requestContextSwitch k }, .blocked)
      else ({ s with kernel := k }, .returned status)

def semaphoreGive (cfg : Config) (s : System) (inIsr : Bool) (semaphore : Option SemaphoreRef) : System × Status :=
  match semaphore with
  | none => (s, .invalidArgument)
  | some semaphore =>
    if !semaphoreIsValid s semaphore then (s, .invalidArgument)
    else if inIsr then (s, .fromIsr)
    else
      let (s, woken, status) := semaphoreGiveLocked cfg s semaphore
      (if woken then { s with kernel := requestContextSwitch s.kernel } else s, status)

def semaphoreGiveFromIsr (cfg : Config) (s : System) (inIsr : Bool) (semaphore : Option SemaphoreRef) :
    System × Bool × Status :=
  match semaphore with
  | none => (s, false, .invalidArgument)
  | some semaphore =>
    if !semaphoreIsValid s semaphore then (s, false, .invalidArgument)
    else if !inIsr then (s, false, .invalidState)
    else semaphoreGiveLocked cfg s semaphore

end Hairtos

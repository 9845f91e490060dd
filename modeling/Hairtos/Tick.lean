import Hairtos.Timer

/-!
`hr_kernel_tick_from_isr` of `hr_kernel.c`, cut into the advance of the timeout list, the rounds of
its wake loop and the rest.
-/

namespace Hairtos

def kernelTickAdvance (k : Kernel) : Kernel :=
  let k := { k with tick := k.tick + 1#32 }
  let (timeoutList, status) := timeoutListAdvance k.timeoutList k.tick
  let k := { k with timeoutList := timeoutList }
  if status ≠ .ok then kernelPanic k else k

def kernelTickExpire (cfg : Config) (ms : Mutexes) (k : Kernel) (task : TaskRef) : Kernel :=
  let cb := k.tasks task
  if !taskIsValid k task then kernelPanic k
  else if !cb.isWaiting then kernelPanic k
  else
    match cb.waitKind with
    | .delay =>
      if cb.waitingObject ≠ some .timeoutList then kernelPanic k
      else
        let (k, _, status) := kernelMakeTaskReady cfg ms k task .ok
        if status ≠ .ok then kernelPanic k else k
    | .queueSend | .queueReceive | .semaphoreTake | .mutexLock =>
      if cb.waitingObject = none || cb.blockedWaitList = none then kernelPanic k
      else
        let (k, _, status) := kernelMakeTaskReady cfg ms k task .timeout
        if status ≠ .ok then kernelPanic k else k
    | .none => kernelPanic k

def kernelTickWake (cfg : Config) (ms : Mutexes) (k : Kernel) : Kernel :=
  match listPopFront k.timeoutList.lists .expired with
  | (_, none) => k
  | (lists, some task) => kernelTickExpire cfg ms { k with timeoutList := { k.timeoutList with lists := lists } } task

def kernelTickWakeLoop (cfg : Config) (ms : Mutexes) : Nat → Kernel → Kernel
  | 0, k => k
  | fuel + 1, k => if k.state = .panic then k else kernelTickWakeLoop cfg ms fuel (kernelTickWake cfg ms k)

def kernelTickTimeSlice (cfg : Config) (k : Kernel) (current : TaskRef) : Kernel × Bool :=
  if schedulerHasEqualPriorityPeer cfg k.scheduler current then
    let k := k.updateTask current (fun cb =>
      { cb with timeSliceRemaining :=
          if cb.timeSliceRemaining = 0#32 then 0#32 else cb.timeSliceRemaining - 1#32 })
    if (k.tasks current).timeSliceRemaining = 0#32 then
      let k := kernelReloadTimeSlice cfg k current
      ({ k with switchReasons := { k.switchReasons with timeSlice := true } }, true)
    else (k, false)
  else (kernelReloadTimeSlice cfg k current, false)

def kernelTickCurrent (cfg : Config) (k : Kernel) (current : TaskRef) (switchRequired : Bool) : Kernel × Bool :=
  let k := k.updateTask current (fun cb => { cb with runtimeCounter := cb.runtimeCounter + 1#32 })
  let preempt := cfg.preemption && schedulerShouldPreempt cfg k.scheduler current
  let k := if preempt then { k with switchReasons := { k.switchReasons with preempt := true } } else k
  let switchRequired := switchRequired || preempt
  if cfg.timeSlicing && !switchRequired then kernelTickTimeSlice cfg k current else (k, switchRequired)

def kernelTickFinish (cfg : Config) (s : System) : System :=
  let (s, switchRequired) := timerTickFromIsr cfg s s.kernel.tick
  match s.kernel.currentTask with
  | none => { s with kernel := kernelPanic s.kernel }
  | some current =>
    if !taskIsValid s.kernel current then { s with kernel := kernelPanic s.kernel }
    else
      let (k, switchRequired) :=
        if (s.kernel.tasks current).state = .running then kernelTickCurrent cfg s.kernel current switchRequired
        else (s.kernel, switchRequired)
      { s with kernel := yieldFromIsr k switchRequired }

def kernelTickFromIsr (cfg : Config) (s : System) : System :=
  if s.kernel.state ≠ .running then s
  else
    let k := kernelTickAdvance s.kernel
    let k := kernelTickWakeLoop cfg s.mutexes (listSize k.timeoutList.lists .expired) k
    if k.state = .panic then { s with kernel := k } else kernelTickFinish cfg { s with kernel := k }

end Hairtos

import Hairtos.Kernel

/-!
The task functions of `hr_task.c`. `inIsr` is the answer of `hr_port_is_inside_isr`, and an absent
reference is the null pointer.
-/

namespace Hairtos

/-- A call that blocks returns to its caller only when the task runs again. -/
inductive Outcome
  | returned (status : Status)
  | blocked
  deriving DecidableEq, Repr

structure TaskParameters where
  name : Option String
  entry : Option Nat
  stack : Option Nat
  stackWords : Nat
  priority : Nat
  deriving DecidableEq, Repr

/-- A block without its magic value is fresh memory, so that its nodes stand in no list. -/
def taskCreateStatic (cfg : Config) (k : Kernel) (task : Option TaskRef) (p : TaskParameters) : Kernel × Status :=
  match task with
  | none => (k, .invalidArgument)
  | some task =>
    if p.name = none || p.entry = none || p.stack = none then (k, .invalidArgument)
    else if taskIsValid k task then (k, .invalidState)
    else if p.stackWords < minTaskStackWords || cfg.priorityCount ≤ p.priority then (k, .invalidArgument)
    else
      let k := k.updateTask task (fun _ =>
        { magic := true
          state := .created
          basePriority := p.priority
          effectivePriority := p.priority
          timeSliceRemaining := cfg.timeSliceTicks })
      ({ k with
          scheduler := { k.scheduler with priority := Function.update k.scheduler.priority task p.priority }
          waitLists := { k.waitLists with priority := Function.update k.waitLists.priority task p.priority }
          timeoutList :=
            { k.timeoutList with wakeTick := Function.update k.timeoutList.wakeTick task 0#32 } }, .ok)

def taskStart (cfg : Config) (k : Kernel) (task : Option TaskRef) : Kernel × Status :=
  match task with
  | none => (k, .invalidArgument)
  | some task => if !taskIsValid k task then (k, .invalidArgument) else kernelRegisterTask cfg k task

def taskYield (k : Kernel) (inIsr : Bool) : Kernel :=
  if kernelIsRunning k && !inIsr then kernelRequestYield k else k

def taskDelay (cfg : Config) (k : Kernel) (inIsr : Bool) (ticks : Tick) : Kernel × Outcome :=
  if !kernelIsRunning k || inIsr then (k, .returned .invalidState)
  else if ticks = 0#32 then (taskYield k inIsr, .returned .ok)
  else if ticks = waitForever then (k, .returned .invalidArgument)
  else
    let (k, status) := kernelDelayCurrent cfg k ticks
    if status = .ok then (requestContextSwitch k, .blocked) else (k, .returned status)

/-- The second component is `*last_wake_tick` after the call. -/
def taskDelayUntil (cfg : Config) (k : Kernel) (inIsr : Bool) (lastWakeTick period : Tick) :
    Kernel × Tick × Outcome :=
  if !kernelIsRunning k || inIsr then (k, lastWakeTick, .returned .invalidState)
  else if period = 0#32 || int32Max < period then (k, lastWakeTick, .returned .invalidArgument)
  else
    let nextWake := lastWakeTick + period
    let remainingTicks := nextWake - k.tick
    if remainingTicks ≠ 0#32 && !(int32Max < remainingTicks) then
      let (k, status) := kernelDelayCurrent cfg k remainingTicks
      if status = .ok then (requestContextSwitch k, nextWake, .blocked) else (k, lastWakeTick, .returned status)
    else (k, nextWake, .returned .ok)

/-- `hr_task_suspend` and `hr_task_resume` differ only in the kernel function they call. -/
def taskControl (f : Kernel → TaskRef → Kernel × Bool × Status) (k : Kernel) (inIsr : Bool)
    (task : Option TaskRef) : Kernel × Status :=
  match task with
  | none => (k, .invalidArgument)
  | some task =>
    if !taskIsValid k task then (k, .invalidArgument)
    else if inIsr then (k, .fromIsr)
    else if !kernelIsRunning k then (k, .invalidState)
    else
      let (k, switchRequired, status) := f k task
      (if status = .ok && switchRequired then requestContextSwitch k else k, status)

def taskSuspend (cfg : Config) (k : Kernel) (inIsr : Bool) (task : Option TaskRef) : Kernel × Status :=
  taskControl (kernelSuspendTask cfg) k inIsr task

def taskResume (cfg : Config) (k : Kernel) (inIsr : Bool) (task : Option TaskRef) : Kernel × Status :=
  taskControl (kernelResumeTask cfg) k inIsr task

def idleTaskParameters (cfg : Config) : TaskParameters where
  name := some "idle"
  entry := some 0
  stack := some 0
  stackWords := idleStackWords
  priority := cfg.idlePriority

def kernelInit (cfg : Config) (s : System) : System × Status :=
  if s.kernel.state ≠ .reset then (s, .invalidState)
  else
    let k := { s.kernel with
      scheduler := readySetInit s.kernel.scheduler.priority
      allTasks := .empty
      timeoutList := timeoutListInit s.kernel.timeoutList.wakeTick 0#32
      currentTask := none
      currentControlBlock := none
      taskCount := 0
      tick := 0#32
      switchReasons := {}
      state := .initialized }
    let s := { s with timers := { s.timers with initialized := false } }
    let (k, status) := taskCreateStatic cfg k (some .idle) (idleTaskParameters cfg)
    if status ≠ .ok then ({ s with kernel := kernelPanic k }, status)
    else
      let (k, status) := taskStart cfg k (some .idle)
      if status ≠ .ok then ({ s with kernel := kernelPanic k }, status) else ({ s with kernel := k }, .ok)

end Hairtos

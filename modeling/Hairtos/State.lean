import Hairtos.Scheduler
import Hairtos.WaitList
import Hairtos.Timeout

/-!
The memory of the kernel: the control blocks of `hr_task_internal.h`, `hr_queue_internal.h`,
`hr_semaphore_internal.h`, `hr_mutex_internal.h` and `hr_timer_internal.h` and the static variables
of `hr_kernel.c` and `hr_timer.c`. A `magic` field tells whether the block carries its magic value.
The nodes of a task stand in the lists of `Kernel` under the task's own reference, and their
`priority` and `wake_tick` fields are the functions kept there.
-/

namespace Hairtos

open Library

inductive TaskState
  | invalid
  | created
  | ready
  | running
  | blocked
  | suspended
  deriving DecidableEq, Repr

inductive WaitKind
  | none
  | delay
  | queueSend
  | queueReceive
  | semaphoreTake
  | mutexLock
  deriving DecidableEq, Repr

inductive WaitCleanup
  | mutexWaitCleanup
  deriving DecidableEq, Repr

structure TaskControlBlock where
  magic : Bool := false
  state : TaskState := .invalid
  suspendedResumeState : TaskState := .invalid
  basePriority : Nat := 0
  effectivePriority : Nat := 0
  wakeTick : Tick := 0#32
  timeSliceRemaining : Tick := 0#32
  waitingObject : Option WaitObject := none
  blockedWaitList : Option WaitListRef := none
  waitBuffer : Option BufferRef := none
  waitCleanup : Option WaitCleanup := none
  waitResult : Status := .ok
  waitKind : WaitKind := .none
  ownedMutexCount : Nat := 0
  runtimeCounter : BitVec 32 := 0#32
  deriving DecidableEq, Repr

inductive KernelState
  | reset
  | initialized
  | running
  | panic
  deriving DecidableEq, Repr

structure SwitchReasons where
  yield : Bool := false
  block : Bool := false
  preempt : Bool := false
  timeSlice : Bool := false
  deriving DecidableEq, Repr

structure Kernel where
  state : KernelState
  scheduler : ReadySet TaskRef
  allTasks : ListFamily Unit TaskRef
  timeoutList : TimeoutList TaskRef
  waitLists : WaitLists WaitListRef TaskRef
  currentTask : Option TaskRef
  currentControlBlock : Option TaskRef
  taskCount : Nat
  tick : Tick
  switchReasons : SwitchReasons
  pendSvPending : Bool
  tasks : TaskRef → TaskControlBlock

structure QueueControlBlock where
  magic : Bool := false
  storage : Nat → UInt8 := fun _ => 0
  itemSize : Nat := 0
  capacity : Nat := 0
  head : Nat := 0
  tail : Nat := 0
  count : Nat := 0

structure SemaphoreControlBlock where
  magic : Bool := false
  count : Nat := 0
  maxCount : Nat := 0
  deriving DecidableEq, Repr

structure MutexControlBlock where
  magic : Bool := false
  owner : Option TaskRef := none
  recursionCount : Nat := 0
  recursive : Bool := false
  deriving DecidableEq, Repr

/-- `owned` collects the `owned_mutexes` lists of the tasks and the `owner_node` of each mutex. -/
structure Mutexes where
  blocks : MutexRef → MutexControlBlock
  owned : ListFamily TaskRef MutexRef

structure TimerControlBlock where
  magic : Bool := false
  name : Option String := none
  callback : Option Nat := none
  periodTicks : Tick := 0#32
  pendingCount : Nat := 0
  autoReload : Bool := false
  active : Bool := false
  callbackRunning : Bool := false
  deriving DecidableEq, Repr

structure TimerSystem where
  initialized : Bool
  timeouts : TimeoutList TimerRef
  pending : ListFamily Unit TimerRef
  blocks : TimerRef → TimerControlBlock

inductive ServicePhase
  | taking
  | waiting
  | draining
  | callback (t : TimerRef)
  | halted
  deriving DecidableEq, Repr

/-- What the objects exchange with their users, in the order in which it happens. The task is absent
when an interrupt handler or the code before the start of the kernel makes the call. -/
inductive Event
  | accepted (q : QueueRef) (sender : Option TaskRef) (item : List UInt8)
  | delivered (q : QueueRef) (receiver : Option TaskRef) (item : List UInt8)
  | created (s : SemaphoreRef) (count : Nat)
  | given (s : SemaphoreRef)
  | taken (s : SemaphoreRef) (task : Option TaskRef)
  | acquired (m : MutexRef) (task : TaskRef)
  deriving DecidableEq, Repr

/-- `memory` holds the callers' item buffers, `anchors` their `last_wake_tick` variables, and
`history` is a record that no function of the kernel reads. -/
structure System where
  kernel : Kernel
  mutexes : Mutexes
  queues : QueueRef → QueueControlBlock
  semaphores : SemaphoreRef → SemaphoreControlBlock
  timers : TimerSystem
  service : ServicePhase
  memory : BufferRef → Nat → UInt8
  anchors : Nat → Tick
  history : List Event

def Kernel.reset : Kernel where
  state := .reset
  scheduler := readySetInit (fun _ => 0)
  allTasks := .empty
  timeoutList := timeoutListInit (fun _ => 0#32) 0#32
  waitLists := ⟨.empty, fun _ => 0⟩
  currentTask := none
  currentControlBlock := none
  taskCount := 0
  tick := 0#32
  switchReasons := {}
  pendSvPending := false
  tasks := fun _ => {}

def System.reset : System where
  kernel := .reset
  mutexes := ⟨fun _ => {}, .empty⟩
  queues := fun _ => {}
  semaphores := fun _ => {}
  timers := ⟨false, timeoutListInit (fun _ => 0#32) 0#32, .empty, fun _ => {}⟩
  service := .taking
  memory := fun _ _ => 0
  anchors := fun _ => 0#32
  history := []

def Kernel.updateTask (k : Kernel) (task : TaskRef) (f : TaskControlBlock → TaskControlBlock) : Kernel :=
  { k with tasks := Function.update k.tasks task (f (k.tasks task)) }

def taskIsValid (k : Kernel) (task : TaskRef) : Bool := (k.tasks task).magic

def taskTransitionState (k : Kernel) (task : TaskRef) (expected next : TaskState) : Kernel × Status :=
  if !taskIsValid k task then (k, .invalidArgument)
  else if (k.tasks task).state ≠ expected then (k, .invalidState)
  else (k.updateTask task (fun cb => { cb with state := next }), .ok)

def TaskControlBlock.isWaiting (cb : TaskControlBlock) : Bool :=
  cb.state = .blocked || (cb.state = .suspended && cb.suspendedResumeState = .blocked)

end Hairtos

import Mathlib.Algebra.Order.Group.Nat
import Mathlib.Logic.Function.Basic

namespace Hairtos

inductive Status
  | ok
  | invalidArgument
  | invalidState
  | timeout
  | queueFull
  | queueEmpty
  | noMemory
  | notOwner
  | fromIsr
  | notSupported
  | internal
  | semaphoreEmpty
  | semaphoreFull
  | mutexBusy
  | overflow
  deriving DecidableEq, Repr

abbrev Tick := BitVec 32

def waitForever : Tick := 0xFFFFFFFF#32

def noWait : Tick := 0#32

def int32Max : Tick := 0x7FFFFFFF#32

def uint32Max : Nat := 2 ^ 32 - 1

def sizeMax : Nat := 2 ^ 32 - 1

/-- `app n` is a task object of the application; the other two are static objects of the kernel. -/
inductive TaskRef
  | idle
  | timerService
  | app (n : Nat)
  deriving DecidableEq, Repr

abbrev QueueRef := Nat

inductive SemaphoreRef
  | timerSignal
  | app (n : Nat)
  deriving DecidableEq, Repr

abbrev MutexRef := Nat

abbrev TimerRef := Nat

/-- A caller's buffer, one C object; distinct buffers do not overlap. -/
abbrev BufferRef := Nat

inductive WaitListRef
  | queueSend (q : QueueRef)
  | queueReceive (q : QueueRef)
  | semaphore (s : SemaphoreRef)
  | mutex (m : MutexRef)
  deriving DecidableEq, Repr

inductive WaitObject
  | timeoutList
  | queue (q : QueueRef)
  | semaphore (s : SemaphoreRef)
  | mutex (m : MutexRef)
  deriving DecidableEq, Repr

structure Config where
  priorityCount : Nat
  maxTasks : Nat
  preemption : Bool
  timeSlicing : Bool
  timeSliceTicks : Tick
  softwareTimer : Bool
  timerTaskPriority : Nat
  priorityCount_pos : 0 < priorityCount
  priorityCount_le : priorityCount ≤ 32
  maxTasks_pos : 0 < maxTasks
  timeSliceTicks_ne : timeSlicing = true → timeSliceTicks ≠ 0

def Config.idlePriority (cfg : Config) : Nat := cfg.priorityCount - 1

theorem Config.idlePriority_lt (cfg : Config) : cfg.idlePriority < cfg.priorityCount :=
  Nat.sub_lt cfg.priorityCount_pos Nat.one_pos

def Config.standard : Config where
  priorityCount := 8
  maxTasks := 8
  preemption := true
  timeSlicing := true
  timeSliceTicks := 1#32
  softwareTimer := true
  timerTaskPriority := 6
  priorityCount_pos := by decide
  priorityCount_le := by decide
  maxTasks_pos := by decide
  timeSliceTicks_ne := by decide

def minTaskStackWords : Nat := 32

def idleStackWords : Nat := 128

def timerTaskStackWords : Nat := 160

end Hairtos

import Hairtos.Tick

/-!
Runs of the whole system. A call is made by the code before the start of the kernel, by the RUNNING
task or by an interrupt handler, and every function of the kernel is one step, as its critical
section makes it. An operation that cannot happen in a state leaves it as it is.
-/

namespace Hairtos

inductive Call
  | taskCreateStatic (task : Option Nat) (parameters : TaskParameters)
  | taskStart (task : Option TaskRef)
  | taskYield
  | taskDelay (ticks : Tick)
  | taskDelayUntil (anchor : Option Nat) (period : Tick)
  | taskSuspend (task : Option TaskRef)
  | taskResume (task : Option TaskRef)
  | queueCreateStatic (queue : Option QueueRef) (storage : Option (Nat → UInt8)) (itemSize capacity : Nat)
  | queueSend (queue : Option QueueRef) (item : Option BufferRef) (timeout : Tick)
  | queueReceive (queue : Option QueueRef) (item : Option BufferRef) (timeout : Tick)
  | queueSendFromIsr (queue : Option QueueRef) (item : Option BufferRef)
  | queueReceiveFromIsr (queue : Option QueueRef) (item : Option BufferRef)
  | semaphoreCreateCounting (semaphore : Option Nat) (initialCount maxCount : Nat)
  | semaphoreCreateBinary (semaphore : Option Nat) (initiallyAvailable : Bool)
  | semaphoreTake (semaphore : Option Nat) (timeout : Tick)
  | semaphoreGive (semaphore : Option Nat)
  | semaphoreGiveFromIsr (semaphore : Option Nat)
  | mutexCreate (mutex : Option MutexRef)
  | mutexCreateRecursive (mutex : Option MutexRef)
  | mutexLock (mutex : Option MutexRef) (timeout : Tick)
  | mutexUnlock (mutex : Option MutexRef)
  | timerCreateStatic (timer : Option TimerRef) (name : Option String) (periodTicks : Tick) (autoReload : Bool)
      (callback : Option Nat)
  | timerStart (timer : Option TimerRef)
  | timerStop (timer : Option TimerRef)
  | timerReset (timer : Option TimerRef)
  | timerChangePeriod (timer : Option TimerRef) (newPeriodTicks : Tick)

structure CallResult where
  system : System
  outcome : Outcome
  woken : Bool := false

def System.withKernel (s : System) (r : Kernel × Outcome) : CallResult := ⟨{ s with kernel := r.1 }, r.2, false⟩

def kernelResult (s : System) (r : Kernel × Status) : CallResult :=
  ⟨{ s with kernel := r.1 }, .returned r.2, false⟩

def statusResult (r : System × Status) : CallResult := ⟨r.1, .returned r.2, false⟩

def outcomeResult (r : System × Outcome) : CallResult := ⟨r.1, r.2, false⟩

def wokenResult (r : System × Bool × Status) : CallResult := ⟨r.1, .returned r.2.2, r.2.1⟩

def callDelayUntil (cfg : Config) (s : System) (inIsr : Bool) (anchor : Option Nat) (period : Tick) : CallResult :=
  match anchor with
  | none => ⟨s, .returned .invalidArgument, false⟩
  | some a =>
    let (k, wake, outcome) := taskDelayUntil cfg s.kernel inIsr (s.anchors a) period
    ⟨{ s with kernel := k, anchors := Function.update s.anchors a wake }, outcome, false⟩

def call (cfg : Config) (s : System) (inIsr : Bool) : Call → CallResult
  | .taskCreateStatic task p => kernelResult s (taskCreateStatic cfg s.kernel (task.map .app) p)
  | .taskStart task => kernelResult s (taskStart cfg s.kernel task)
  | .taskYield => kernelResult s (taskYield s.kernel inIsr, .ok)
  | .taskDelay ticks => s.withKernel (taskDelay cfg s.kernel inIsr ticks)
  | .taskDelayUntil anchor period => callDelayUntil cfg s inIsr anchor period
  | .taskSuspend task => kernelResult s (taskSuspend cfg s.kernel inIsr task)
  | .taskResume task => kernelResult s (taskResume cfg s.kernel inIsr task)
  | .queueCreateStatic q storage itemSize capacity => statusResult (queueCreateStatic s q storage itemSize capacity)
  | .queueSend q item timeout => outcomeResult (queueSend cfg s inIsr q item timeout)
  | .queueReceive q item timeout => outcomeResult (queueReceive cfg s inIsr q item timeout)
  | .queueSendFromIsr q item => wokenResult (queueSendFromIsr cfg s inIsr q item)
  | .queueReceiveFromIsr q item => wokenResult (queueReceiveFromIsr cfg s inIsr q item)
  | .semaphoreCreateCounting semaphore initialCount maxCount =>
    statusResult (semaphoreCreateCounting s (semaphore.map .app) initialCount maxCount)
  | .semaphoreCreateBinary semaphore available => statusResult (semaphoreCreateBinary s (semaphore.map .app) available)
  | .semaphoreTake semaphore timeout => outcomeResult (semaphoreTake cfg s inIsr (semaphore.map .app) timeout)
  | .semaphoreGive semaphore => statusResult (semaphoreGive cfg s inIsr (semaphore.map .app))
  | .semaphoreGiveFromIsr semaphore => wokenResult (semaphoreGiveFromIsr cfg s inIsr (semaphore.map .app))
  | .mutexCreate m => statusResult (mutexCreate s m)
  | .mutexCreateRecursive m => statusResult (mutexCreateRecursive s m)
  | .mutexLock m timeout => outcomeResult (mutexLock cfg s inIsr m timeout)
  | .mutexUnlock m => statusResult (mutexUnlock cfg s inIsr m)
  | .timerCreateStatic t name period autoReload callback =>
    statusResult (timerCreateStatic cfg s inIsr t name period autoReload callback)
  | .timerStart t => statusResult (timerStart cfg s inIsr t)
  | .timerStop t => statusResult (timerStop cfg s inIsr t)
  | .timerReset t => statusResult (timerReset cfg s inIsr t)
  | .timerChangePeriod t period => statusResult (timerChangePeriod cfg s inIsr t period)

def ServicePhase.inCallback : ServicePhase → Bool
  | .callback _ => true
  | _ => false

/-- Some code outside interrupt handlers is there to make a call. The idle task makes none. -/
def canCall (s : System) : Bool :=
  match s.kernel.state, s.kernel.currentTask with
  | .initialized, _ => true
  | .running, some task =>
    (s.kernel.tasks task).state = .running && task ≠ .idle && (task ≠ .timerService || s.service.inCallback)
  | _, _ => false

def timerServiceStep (cfg : Config) (s : System) : System :=
  match s.service with
  | .taking =>
    match semaphoreTake cfg s false (some .timerSignal) waitForever with
    | (s, .blocked) => { s with service := .waiting }
    | (s, .returned status) => { s with service := if status = .ok then .draining else .halted }
  | .waiting =>
    { s with service := if (s.kernel.tasks .timerService).waitResult = .ok then .draining else .halted }
  | .draining =>
    match timerBeginPending s with
    | (s, none) => { s with service := .taking }
    | (s, some t) => { s with service := .callback t }
  | .callback t => { timerEndPending s t with service := .draining }
  | .halted => s

inductive Op
  | task (c : Call)
  | isr (c : Call) (honoured : Bool)
  | service
  | tick
  | pendsv
  | start
  | writeBuffer (b : BufferRef) (content : Nat → UInt8)
  | writeAnchor (a : Nat) (value : Tick)

def serviceRuns (s : System) : Bool :=
  s.kernel.state = .running && s.kernel.currentTask = some .timerService &&
    (s.kernel.tasks .timerService).state = .running

/-- A from-ISR call whose result is honoured is followed by `hr_yield_from_isr`. -/
def isrStep (cfg : Config) (s : System) (c : Call) (honoured : Bool) : System :=
  let r := call cfg s true c
  if honoured then { r.system with kernel := yieldFromIsr r.system.kernel r.woken } else r.system

def step (cfg : Config) (s : System) : Op → System
  | .task c => if canCall s then (call cfg s false c).system else s
  | .isr c honoured => if s.kernel.state = .panic then s else isrStep cfg s c honoured
  | .service => if serviceRuns s then timerServiceStep cfg s else s
  | .tick => kernelTickFromIsr cfg s
  | .pendsv =>
    if s.kernel.state ≠ .running then s
    else { s with kernel := kernelSelectNextFromPendsv cfg { s.kernel with pendSvPending := false } }
  | .start => if s.kernel.state ≠ .initialized then s else { s with kernel := (kernelPrepareStart cfg s.kernel).1 }
  | .writeBuffer b content => { s with memory := Function.update s.memory b content }
  | .writeAnchor a value => { s with anchors := Function.update s.anchors a value }

def exec (cfg : Config) (s : System) (ops : List Op) : System := ops.foldl (step cfg) s

def boot (cfg : Config) : System := (kernelInit cfg .reset).1

def Reachable (cfg : Config) (s : System) : Prop := ∃ ops, s = exec cfg (boot cfg) ops

end Hairtos

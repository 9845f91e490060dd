import Hairtos.Semaphore

/-!
The message queues of `hr_queue.c`. An area of memory is a function from offsets to bytes.
-/

namespace Hairtos

def queueCopy (destination : Nat → UInt8) (d : Nat) (source : Nat → UInt8) (s : Nat) : Nat → Nat → UInt8
  | 0 => destination
  | size + 1 => Function.update (queueCopy destination d source s size) (d + size) (source (s + size))

def itemBytes (area : Nat → UInt8) (start size : Nat) : List UInt8 :=
  (List.range size).map (fun i => area (start + i))

def queueSlot (queue : QueueControlBlock) (index : Nat) : Nat := index * queue.itemSize

def queueMultiplyFits (left right : Nat) : Bool := left = 0 || decide (right ≤ sizeMax / left)

def queueIsValid (s : System) (q : QueueRef) : Bool :=
  let cb := s.queues q
  cb.magic && decide (0 < cb.itemSize) && decide (0 < cb.capacity) && decide (cb.count ≤ cb.capacity) &&
    decide (cb.head < cb.capacity) && decide (cb.tail < cb.capacity)

def queueValidateInternal (s : System) (q : QueueRef) : Bool :=
  queueIsValid s q && waitListValidate s.kernel.waitLists (.queueSend q) &&
    waitListValidate s.kernel.waitLists (.queueReceive q)

def System.updateQueue (s : System) (q : QueueRef) (f : QueueControlBlock → QueueControlBlock) : System :=
  { s with queues := Function.update s.queues q (f (s.queues q)) }

/-- `storage` is what the area handed over holds. -/
def queueCreateStatic (s : System) (queue : Option QueueRef) (storage : Option (Nat → UInt8))
    (itemSize capacity : Nat) : System × Status :=
  match queue, storage with
  | some q, some storage =>
    if itemSize = 0 || capacity = 0 || !queueMultiplyFits itemSize capacity then (s, .invalidArgument)
    else if queueIsValid s q then (s, .invalidState)
    else
      (s.updateQueue q (fun _ => { magic := true, storage := storage, itemSize := itemSize, capacity := capacity }),
        .ok)
  | _, _ => (s, .invalidArgument)

def queueWaiterTask (k : Kernel) (waiter : Option TaskRef) : Option TaskRef :=
  match waiter with
  | none => none
  | some task => if taskIsValid k task then some task else none

def System.copyBuffer (s : System) (destination source : BufferRef) (size : Nat) : System :=
  { s with
    memory := Function.update s.memory destination
      (queueCopy (s.memory destination) 0 (s.memory source) 0 size) }

def queueEnqueue (s : System) (q : QueueRef) (item : BufferRef) : System :=
  s.updateQueue q (fun queue =>
    { queue with
      storage := queueCopy queue.storage (queueSlot queue queue.tail) (s.memory item) 0 queue.itemSize
      tail := (queue.tail + 1) % queue.capacity
      count := queue.count + 1 })

def queueDequeue (s : System) (q : QueueRef) (item : BufferRef) : System :=
  let queue := s.queues q
  let s := { s with
    memory := Function.update s.memory item
      (queueCopy (s.memory item) 0 queue.storage (queueSlot queue queue.head) queue.itemSize) }
  s.updateQueue q (fun queue =>
    { queue with head := (queue.head + 1) % queue.capacity, count := queue.count - 1 })

def System.unblock (cfg : Config) (s : System) (waiter : TaskRef) (result : Status) : System × Bool × Status :=
  let (k, woken, status) := kernelUnblockWaiter cfg s.mutexes s.kernel waiter result
  ({ s with kernel := k }, woken, status)

def queueWakeReceiver (cfg : Config) (s : System) (q : QueueRef) (item : BufferRef) (sender : Option TaskRef) :
    System × Bool × Status :=
  match queueWaiterTask s.kernel (waitListPeek s.kernel.waitLists (.queueReceive q)) with
  | none => (s, false, .internal)
  | some task =>
    let cb := s.kernel.tasks task
    match cb.waitBuffer with
    | none => (s, false, .internal)
    | some buffer =>
      if cb.waitKind ≠ .queueReceive || cb.waitingObject ≠ some (.queue q) then (s, false, .internal)
      else
        let bytes := itemBytes (s.memory item) 0 (s.queues q).itemSize
        let s := s.copyBuffer buffer item (s.queues q).itemSize
        (s.record [.accepted q sender bytes, .delivered q (some task) bytes]).unblock cfg task .ok

def queueFillFromWaitingSender (cfg : Config) (s : System) (q : QueueRef) : System × Bool × Status :=
  match waitListPeek s.kernel.waitLists (.queueSend q) with
  | none => (s, false, .ok)
  | some waiter =>
    match queueWaiterTask s.kernel (some waiter) with
    | none => (s, false, .internal)
    | some task =>
      let cb := s.kernel.tasks task
      match cb.waitBuffer with
      | none => (s, false, .internal)
      | some buffer =>
        if cb.waitKind ≠ .queueSend || cb.waitingObject ≠ some (.queue q) ||
            decide ((s.queues q).capacity ≤ (s.queues q).count) then (s, false, .internal)
        else
          let bytes := itemBytes (s.memory buffer) 0 (s.queues q).itemSize
          ((queueEnqueue s q buffer).record [.accepted q (some task) bytes]).unblock cfg waiter .ok

structure QueueResult where
  system : System
  blocked : Bool
  woken : Bool
  status : Status

def queueResult (r : System × Bool × Status) : QueueResult := ⟨r.1, false, r.2.1, r.2.2⟩

def queueBlock (cfg : Config) (s : System) (waitList : WaitListRef) (q : QueueRef) (waitKind : WaitKind)
    (item : BufferRef) (timeout : Tick) : QueueResult :=
  if s.kernel.currentTask = none then ⟨s, false, false, .invalidState⟩
  else
    let (k, status) := kernelBlockCurrentOnWaitList cfg s.kernel waitList (.queue q) waitKind (some item) timeout
    ⟨{ s with kernel := k }, status = .ok, false, status⟩

def queueSendLocked (cfg : Config) (s : System) (q : QueueRef) (item : BufferRef) (timeout : Tick)
    (allowBlock : Bool) (sender : Option TaskRef) : QueueResult :=
  if !waitListIsEmpty s.kernel.waitLists (.queueReceive q) then queueResult (queueWakeReceiver cfg s q item sender)
  else if (s.queues q).count < (s.queues q).capacity then
    let bytes := itemBytes (s.memory item) 0 (s.queues q).itemSize
    ⟨(queueEnqueue s q item).record [.accepted q sender bytes], false, false, .ok⟩
  else if timeout = noWait then ⟨s, false, false, .queueFull⟩
  else if !allowBlock then ⟨s, false, false, .invalidState⟩
  else queueBlock cfg s (.queueSend q) q .queueSend item timeout

def queueReceiveLocked (cfg : Config) (s : System) (q : QueueRef) (item : BufferRef) (timeout : Tick)
    (allowBlock : Bool) (receiver : Option TaskRef) : QueueResult :=
  if 0 < (s.queues q).count then
    let queue := s.queues q
    let bytes := itemBytes queue.storage (queueSlot queue queue.head) queue.itemSize
    queueResult (queueFillFromWaitingSender cfg ((queueDequeue s q item).record [.delivered q receiver bytes]) q)
  else
    match waitListPeek s.kernel.waitLists (.queueSend q) with
    | some waiter =>
      match queueWaiterTask s.kernel (some waiter) with
      | none => ⟨s, false, false, .internal⟩
      | some task =>
        match (s.kernel.tasks task).waitBuffer with
        | none => ⟨s, false, false, .internal⟩
        | some buffer =>
          let bytes := itemBytes (s.memory buffer) 0 (s.queues q).itemSize
          let s := s.copyBuffer item buffer (s.queues q).itemSize
          queueResult ((s.record [.accepted q (some task) bytes, .delivered q receiver bytes]).unblock cfg waiter .ok)
    | none =>
      if timeout = noWait then ⟨s, false, false, .queueEmpty⟩
      else if !allowBlock then ⟨s, false, false, .invalidState⟩
      else queueBlock cfg s (.queueReceive q) q .queueReceive item timeout

def queueCall (locked : System → QueueRef → BufferRef → Tick → Bool → Option TaskRef → QueueResult)
    (s : System)
    (inIsr : Bool) (queue : Option QueueRef) (item : Option BufferRef) (timeout : Tick) : System × Outcome :=
  match queue, item with
  | some q, some item =>
    if !queueIsValid s q then (s, .returned .invalidArgument)
    else if inIsr then (s, .returned .fromIsr)
    else if timeout ≠ noWait && !kernelIsRunning s.kernel then (s, .returned .invalidState)
    else
      let r := locked s q item timeout true (s.caller inIsr)
      let s := r.system
      let s := if r.blocked || r.woken then { s with kernel := requestContextSwitch s.kernel } else s
      (s, if r.blocked then .blocked else .returned r.status)
  | _, _ => (s, .returned .invalidArgument)

def queueSend (cfg : Config) (s : System) (inIsr : Bool) (queue : Option QueueRef) (item : Option BufferRef)
    (timeout : Tick) : System × Outcome :=
  queueCall (queueSendLocked cfg) s inIsr queue item timeout

def queueReceive (cfg : Config) (s : System) (inIsr : Bool) (queue : Option QueueRef) (item : Option BufferRef)
    (timeout : Tick) : System × Outcome :=
  queueCall (queueReceiveLocked cfg) s inIsr queue item timeout

def queueCallFromIsr (locked : System → QueueRef → BufferRef → Tick → Bool → Option TaskRef → QueueResult)
    (s : System) (inIsr : Bool) (queue : Option QueueRef) (item : Option BufferRef) : System × Bool × Status :=
  match queue, item with
  | some q, some item =>
    if !queueIsValid s q then (s, false, .invalidArgument)
    else if !inIsr then (s, false, .invalidState)
    else
      let r := locked s q item noWait false none
      (r.system, r.woken, r.status)
  | _, _ => (s, false, .invalidArgument)

def queueSendFromIsr (cfg : Config) (s : System) (inIsr : Bool) (queue : Option QueueRef)
    (item : Option BufferRef) : System × Bool × Status :=
  queueCallFromIsr (queueSendLocked cfg) s inIsr queue item

def queueReceiveFromIsr (cfg : Config) (s : System) (inIsr : Bool) (queue : Option QueueRef)
    (item : Option BufferRef) : System × Bool × Status :=
  queueCallFromIsr (queueReceiveLocked cfg) s inIsr queue item

end Hairtos

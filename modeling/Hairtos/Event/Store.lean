import Hairtos.Event.Event
import Hairtos.FreeList

/-!
The event pools and the dynamic events of `he_event.c`. The control blocks of the pools are kept by the address
of the pool object, the events lie in memory. The part of each function that runs with interrupts off has a
definition of its own.
-/

namespace Hairtos

open Library

def eventPoolMagic : Nat := 0x4845504C

structure EventPool where
  storage : Nat
  freeHead : Nat
  blockSize : Nat
  blockCount : Nat
  freeCount : Nat
  magic : Nat
  deriving DecidableEq, Repr

structure EventStore where
  pools : Nat → EventPool
  memory : Memory

namespace Target

variable (t : Target)

def loadEvent (m : Memory) (a : Nat) : HeEvent where
  pool := m.load a t.wordBytes
  magic := m.load (a + t.wordBytes) 4
  size := m.load (a + t.wordBytes + 4) 2
  referenceCount := m.load (a + t.wordBytes + 6) 2
  signal := m.load (a + t.wordBytes + 8) 2
  flags := m.load (a + t.wordBytes + 10) 2

def storeEvent (m : Memory) (a : Nat) (e : HeEvent) : Memory :=
  (((((m.store a t.wordBytes e.pool).store
    (a + t.wordBytes) 4 e.magic).store
    (a + t.wordBytes + 4) 2 e.size).store
    (a + t.wordBytes + 6) 2 e.referenceCount).store
    (a + t.wordBytes + 8) 2 e.signal).store
    (a + t.wordBytes + 10) 2 e.flags

def setEvent (m : Memory) (a : Nat) (f : HeEvent → HeEvent) : Memory := t.storeEvent m a (f (t.loadEvent m a))

end Target

def EventPool.isValid (t : Target) (pool : EventPool) : Bool :=
  pool.magic == eventPoolMagic && pool.storage != 0 && decide (pool.blockSize ≥ t.eventBytes) &&
    decide (pool.blockCount > 0) && decide (pool.freeCount ≤ pool.blockCount)

def eventPoolIsValid (t : Target) (s : EventStore) (pool : Nat) : Bool := pool != 0 && (s.pools pool).isValid t

def eventPoolLink (t : Target) (storage blockSize blockCount : Nat) (m : Memory) (index : Nat) : Memory :=
  t.storeLink m (t.add storage (index * blockSize % 2 ^ t.width))
    (if index + 1 < blockCount then t.add storage ((index + 1) * blockSize % 2 ^ t.width) else 0)

def eventPoolInit (t : Target) (s : EventStore) (pool storage blockSize blockCount : Nat) : EventStore × Status :=
  if pool = 0 ∨ storage = 0 ∨ blockSize < t.eventBytes ∨ blockCount = 0 ∨ blockSize > uint16Max ∨
      blockSize % t.alignment ≠ 0 ∨ storage % t.alignment ≠ 0 then (s, .invalidArgument)
  else if eventPoolIsValid t s pool then (s, .invalidState)
  else
    ({ pools := Function.update s.pools pool
         { storage := storage, freeHead := storage, blockSize := blockSize, blockCount := blockCount,
           freeCount := blockCount, magic := eventPoolMagic }
       memory := (List.range blockCount).foldl (eventPoolLink t storage blockSize blockCount) s.memory }, .ok)

/-- The checks of `he_event_new` and its critical section; 0 is `NULL`. -/
def eventTake (t : Target) (s : EventStore) (pool signal eventSize : Nat) : EventStore × Nat :=
  if eventPoolIsValid t s pool = false ∨ signal = sigNone ∨ eventSize < t.eventBytes then (s, 0)
  else if eventSize > (s.pools pool).blockSize then (s, 0)
  else
    let event := (s.pools pool).freeHead
    if event = 0 then (s, 0)
    else
      ({ s with
         pools := Function.update s.pools pool
           { s.pools pool with
             freeHead := t.loadLink s.memory event
             freeCount := t.sub (s.pools pool).freeCount 1 } }, event)

/-- The rest of `he_event_new`, which fills the block outside the critical section. -/
def eventFill (t : Target) (s : EventStore) (pool event signal eventSize : Nat) : EventStore :=
  let m := s.memory.fill event (s.pools pool).blockSize 0
  { s with memory := t.setEvent m event fun _ =>
      { pool := pool, magic := eventMagic, size := eventSize % 2 ^ 16, referenceCount := 1, signal := signal,
        flags := eventFlagDynamic } }

def eventNew (t : Target) (s : EventStore) (pool signal eventSize : Nat) : EventStore × Nat :=
  let r := eventTake t s pool signal eventSize
  if r.2 = 0 then r else (eventFill t r.1 pool r.2 signal eventSize, r.2)

def eventIsValid (t : Target) (s : EventStore) (event : Nat) : Bool :=
  event != 0 && (t.loadEvent s.memory event).isValid t (eventPoolIsValid t s)

def eventIsDynamic (t : Target) (s : EventStore) (event : Nat) : Bool :=
  event != 0 && (t.loadEvent s.memory event).isDynamic t (eventPoolIsValid t s)

def eventGetReferenceCount (t : Target) (s : EventStore) (event : Nat) : Nat :=
  if eventIsDynamic t s event then (t.loadEvent s.memory event).referenceCount else 0

def eventRetainLocked (t : Target) (s : EventStore) (event : Nat) : EventStore × Status :=
  if (t.loadEvent s.memory event).referenceCount = uint16Max then (s, .overflow)
  else
    ({ s with memory := t.setEvent s.memory event fun e =>
      { e with referenceCount := (e.referenceCount + 1) % 2 ^ 16 } },
      .ok)

def eventRetain (t : Target) (s : EventStore) (event : Nat) : EventStore × Status :=
  if eventIsValid t s event = false then (s, .invalidArgument)
  else if eventIsDynamic t s event = false then (s, .ok)
  else eventRetainLocked t s event

/-- The critical section of `he_event_release`; `pool` was read before it. -/
def eventReleaseLocked (t : Target) (s : EventStore) (pool event : Nat) : EventStore × Status :=
  if (t.loadEvent s.memory event).referenceCount = 0 then (s, .invalidState)
  else
    let m := t.setEvent s.memory event fun e => { e with referenceCount := e.referenceCount - 1 }
    let control := s.pools pool
    if (t.loadEvent m event).referenceCount ≠ 0 then ({ s with memory := m }, .ok)
    else if control.freeCount ≥ control.blockCount then ({ s with memory := m }, .internal)
    else
      let m := t.setEvent m event fun e => { e with magic := 0, pool := 0 }
      ({ pools := Function.update s.pools pool
           { control with freeHead := event, freeCount := t.add control.freeCount 1 }
         memory := t.storeLink m event control.freeHead }, .ok)

def eventRelease (t : Target) (s : EventStore) (event : Nat) : EventStore × Status :=
  if eventIsValid t s event = false then (s, .invalidArgument)
  else if eventIsDynamic t s event = false then (s, .ok)
  else eventReleaseLocked t s (t.loadEvent s.memory event).pool event

end Hairtos

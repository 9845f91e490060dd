import Hairtos.Library.Linked
import Hairtos.Library.Memory
import Hairtos.Target

/-!
The first-fit heap of the memory-allocator lab (`hr_heap_lab.c`). Block headers live in the bytes of the
arena. A loop over the blocks that does not reach the end of the list within `managed_bytes` blocks is
reported as `none`.
-/

namespace Hairtos

open Library

inductive HeapLabStatus
  | ok
  | invalidArgument
  | notInitialized
  | outOfMemory
  | invalidPointer
  | doubleFree
  | corrupt
  deriving DecidableEq, Repr

def heapLabMagic : Nat := 0x484C4142

def heapBlockMagic : Nat := 0x48424C4B

structure HeapLabBlock where
  payloadBytes : Nat
  requestedBytes : Nat
  previous : Nat
  next : Nat
  magic : Nat
  isFree : Bool
  deriving DecidableEq, Repr

@[ext]
structure HeapLab where
  arenaBegin : Nat
  arenaEnd : Nat
  firstBlock : Nat
  alignment : Nat
  headerBytes : Nat
  managedBytes : Nat
  allocationCount : Nat
  freeCount : Nat
  failedAllocationCount : Nat
  magic : Nat
  deriving DecidableEq, Repr

structure HeapLabState where
  heap : HeapLab
  memory : Memory

namespace Target

variable (t : Target)

def loadBlock (m : Memory) (a : Nat) : HeapLabBlock where
  payloadBytes := m.load a t.wordBytes
  requestedBytes := m.load (a + t.wordBytes) t.wordBytes
  previous := m.load (a + 2 * t.wordBytes) t.wordBytes
  next := m.load (a + 3 * t.wordBytes) t.wordBytes
  magic := m.load (a + 4 * t.wordBytes) 4
  isFree := m.load (a + 4 * t.wordBytes + 4) 1 != 0

def storeBlock (m : Memory) (a : Nat) (b : HeapLabBlock) : Memory :=
  (((((m.store a t.wordBytes b.payloadBytes).store
    (a + t.wordBytes) t.wordBytes b.requestedBytes).store
    (a + 2 * t.wordBytes) t.wordBytes b.previous).store
    (a + 3 * t.wordBytes) t.wordBytes b.next).store
    (a + 4 * t.wordBytes) 4 b.magic).store
    (a + 4 * t.wordBytes + 4) 1 (if b.isFree then 1 else 0)

def setBlock (m : Memory) (a : Nat) (f : HeapLabBlock → HeapLabBlock) : Memory :=
  t.storeBlock m a (f (t.loadBlock m a))

def sizeAddOverflows (left right : Nat) : Bool := t.sub t.sizeMax right < left

def alignUpSize (value alignment : Nat) : Option Nat :=
  let mask := t.sub alignment 1
  if alignment = 0 ∨ alignment &&& mask ≠ 0 then none
  else if t.sizeAddOverflows value mask then none
  else some (t.add value mask &&& t.complement mask)

def alignUpAddress (value alignment : Nat) : Nat :=
  let mask := t.sub alignment 1
  t.add value mask &&& t.complement mask

def blockPayload (heap : HeapLab) (block : Nat) : Nat := t.add block heap.headerBytes

end Target

def HeapLab.isInitialized (heap : HeapLab) : Bool :=
  heap.magic == heapLabMagic && heap.arenaBegin != 0 && heap.arenaEnd != 0 && heap.firstBlock != 0

def HeapLab.cleared : HeapLab where
  arenaBegin := 0
  arenaEnd := 0
  firstBlock := 0
  alignment := 0
  headerBytes := 0
  managedBytes := 0
  allocationCount := 0
  freeCount := 0
  failedAllocationCount := 0
  magic := 0

def mergeWithNext (t : Target) (heap : HeapLab) (m : Memory) (block : Nat) : Memory :=
  let next := (t.loadBlock m block).next
  if next = 0 ∨ (t.loadBlock m next).isFree = false then m
  else
    let n := t.loadBlock m next
    let m := t.setBlock m block fun b =>
      { b with payloadBytes := t.add b.payloadBytes (t.add heap.headerBytes n.payloadBytes), next := n.next }
    let m := if n.next ≠ 0 then t.setBlock m n.next fun b => { b with previous := block } else m
    t.setBlock m next fun _ =>
      { payloadBytes := 0, requestedBytes := 0, previous := 0, next := 0, magic := 0, isFree := false }

def heapLabInit (t : Target) (s : HeapLabState) (memory memoryBytes : Nat) : HeapLabState × HeapLabStatus :=
  if memory = 0 ∨ memoryBytes = 0 then (s, .invalidArgument)
  else
    let s := { s with heap := HeapLab.cleared }
    let alignment := t.alignment
    match t.alignUpSize t.blockBytes alignment with
    | none => (s, .invalidArgument)
    | some headerBytes =>
      if memory > t.sub t.sizeMax memoryBytes then (s, .invalidArgument)
      else
        let rawEnd := t.add memory memoryBytes
        let alignedBegin := t.alignUpAddress memory alignment
        if alignedBegin ≥ rawEnd ∨ t.sub rawEnd alignedBegin > t.sizeMax then (s, .invalidArgument)
        else
          let managedBytes := t.sub rawEnd alignedBegin &&& t.complement (t.sub alignment 1)
          if managedBytes < t.add headerBytes alignment then (s, .invalidArgument)
          else
            let heap := { s.heap with
              arenaBegin := alignedBegin
              arenaEnd := t.add alignedBegin managedBytes
              alignment := alignment
              headerBytes := headerBytes
              managedBytes := managedBytes
              magic := heapLabMagic
              firstBlock := alignedBegin }
            let m := t.setBlock s.memory alignedBegin fun _ =>
              { payloadBytes := t.sub managedBytes headerBytes, requestedBytes := 0, previous := 0, next := 0,
                magic := heapBlockMagic, isFree := true }
            ({ heap := heap, memory := m }, .ok)

def HeapLabState.failedAllocation (t : Target) (s : HeapLabState) : HeapLabState :=
  { s with heap := { s.heap with failedAllocationCount := t.add s.heap.failedAllocationCount 1 } }

def heapLabTake (t : Target) (s : HeapLabState) (requestedBytes alignedBytes block : Nat) : HeapLabState × Nat :=
  let b := t.loadBlock s.memory block
  let remainder := t.sub b.payloadBytes alignedBytes
  let m :=
    if remainder ≥ t.add s.heap.headerBytes s.heap.alignment then
      let split := t.add (t.blockPayload s.heap block) alignedBytes
      let m := t.setBlock s.memory split fun _ =>
        { payloadBytes := t.sub remainder s.heap.headerBytes, requestedBytes := 0, previous := block, next := b.next,
          magic := heapBlockMagic, isFree := true }
      let m := if b.next ≠ 0 then t.setBlock m b.next fun n => { n with previous := split } else m
      t.setBlock m block fun b => { b with next := split, payloadBytes := alignedBytes }
    else s.memory
  let m := t.setBlock m block fun b => { b with requestedBytes := requestedBytes, isFree := false }
  ({ heap := { s.heap with allocationCount := t.add s.heap.allocationCount 1 }, memory := m },
    t.blockPayload s.heap block)

def heapLabAlloc (t : Target) (s : HeapLabState) (requestedBytes : Nat) : Option (HeapLabState × Nat) :=
  if s.heap.isInitialized = false then some (s, 0)
  else if requestedBytes = 0 then some (s.failedAllocation t, 0)
  else
    match t.alignUpSize requestedBytes s.heap.alignment with
    | none => some (s.failedAllocation t, 0)
    | some alignedBytes =>
      match walk (fun block => (t.loadBlock s.memory block).next)
          (seek fun block => (t.loadBlock s.memory block).isFree = true ∧
            alignedBytes ≤ (t.loadBlock s.memory block).payloadBytes)
          (s.heap.managedBytes + 1) () s.heap.firstBlock with
      | none => none
      | some (.ok ()) => some (s.failedAllocation t, 0)
      | some (.error block) => some (heapLabTake t s requestedBytes alignedBytes block)

def heapLabGiveBack (t : Target) (s : HeapLabState) (block : Nat) : HeapLabState × HeapLabStatus :=
  if (t.loadBlock s.memory block).isFree then (s, .doubleFree)
  else
    let m := t.setBlock s.memory block fun b => { b with isFree := true, requestedBytes := 0 }
    let m := mergeWithNext t s.heap m block
    let previous := (t.loadBlock m block).previous
    let m := if previous ≠ 0 ∧ (t.loadBlock m previous).isFree = true then mergeWithNext t s.heap m previous else m
    ({ heap := { s.heap with freeCount := t.add s.heap.freeCount 1 }, memory := m }, .ok)

def heapLabFree (t : Target) (s : HeapLabState) (pointer : Nat) : Option (HeapLabState × HeapLabStatus) :=
  if s.heap.isInitialized = false then some (s, .notInitialized)
  else if pointer = 0 then some (s, .invalidPointer)
  else
    match walk (fun block => (t.loadBlock s.memory block).next)
      (seek fun block => t.blockPayload s.heap block = pointer)
        (s.heap.managedBytes + 1) () s.heap.firstBlock with
    | none => none
    | some (.ok ()) => some (s, .invalidPointer)
    | some (.error block) => some (heapLabGiveBack t s block)

structure HeapLabCheck where
  previous : Nat
  expected : Nat
  visited : Nat

def heapLabCheckBlock (t : Target) (s : HeapLabState) (check : HeapLabCheck) (block : Nat) :
    Except Unit HeapLabCheck :=
  let heap := s.heap
  let b := t.loadBlock s.memory block
  if block ≠ check.expected ∨ b.magic ≠ heapBlockMagic ∨ b.previous ≠ check.previous ∨
      b.payloadBytes < heap.alignment ∨ b.payloadBytes % heap.alignment ≠ 0 ∨
      (b.isFree = false ∧ (b.requestedBytes = 0 ∨ b.requestedBytes > b.payloadBytes)) ∨
      (b.isFree = true ∧ b.requestedBytes ≠ 0) then .error ()
  else
    let finish := t.add (t.blockPayload heap block) b.payloadBytes
    if finish ≤ block ∨ finish > heap.arenaEnd then .error ()
    else if b.next ≠ 0 ∧ b.isFree = true ∧ (t.loadBlock s.memory b.next).isFree = true then .error ()
    else
      let visited := t.add check.visited 1
      if visited > heap.managedBytes / heap.alignment then .error ()
      else .ok { previous := block, expected := finish, visited := visited }

def heapLabValidate (t : Target) (s : HeapLabState) : Option Bool :=
  let heap := s.heap
  if heap.isInitialized = false ∨ heap.alignment ≠ t.alignment ∨ heap.arenaEnd ≤ heap.arenaBegin ∨
      heap.arenaBegin % heap.alignment ≠ 0 then some false
  else
    (walk (fun block => (t.loadBlock s.memory block).next) (heapLabCheckBlock t s) (heap.managedBytes + 1)
      { previous := 0, expected := heap.arenaBegin, visited := 0 } heap.firstBlock).map fun
    | .error () => false
    | .ok check => check.expected == heap.arenaEnd

structure HeapLabStats where
  managedBytes : Nat
  requestedBytes : Nat
  allocatedPayloadBytes : Nat
  freePayloadBytes : Nat
  largestFreeBlockBytes : Nat
  internalFragmentationBytes : Nat
  externalFragmentationBytes : Nat
  allocatedBlocks : Nat
  freeBlocks : Nat
  allocationCount : Nat
  freeCount : Nat
  failedAllocationCount : Nat
  deriving DecidableEq, Repr

def heapLabCountBlock (t : Target) (s : HeapLabState) (stats : HeapLabStats) (block : Nat) :
    Except Unit HeapLabStats :=
  let b := t.loadBlock s.memory block
  if b.isFree then
    .ok { stats with
      freeBlocks := t.add stats.freeBlocks 1
      freePayloadBytes := t.add stats.freePayloadBytes b.payloadBytes
      largestFreeBlockBytes :=
        if b.payloadBytes > stats.largestFreeBlockBytes then b.payloadBytes else stats.largestFreeBlockBytes }
  else
    .ok { stats with
      allocatedBlocks := t.add stats.allocatedBlocks 1
      requestedBytes := t.add stats.requestedBytes b.requestedBytes
      allocatedPayloadBytes := t.add stats.allocatedPayloadBytes b.payloadBytes
      internalFragmentationBytes :=
        t.add stats.internalFragmentationBytes (t.sub b.payloadBytes b.requestedBytes) }

def heapLabGetStats (t : Target) (s : HeapLabState) : Option (Except HeapLabStatus HeapLabStats) :=
  if s.heap.isInitialized = false then some (.error .notInitialized)
  else
    match heapLabValidate t s with
    | none => none
    | some false => some (.error .corrupt)
    | some true =>
      (walk (fun block => (t.loadBlock s.memory block).next) (heapLabCountBlock t s) (s.heap.managedBytes + 1)
        { managedBytes := s.heap.managedBytes, requestedBytes := 0, allocatedPayloadBytes := 0, freePayloadBytes := 0,
          largestFreeBlockBytes := 0, internalFragmentationBytes := 0, externalFragmentationBytes := 0,
          allocatedBlocks := 0, freeBlocks := 0, allocationCount := s.heap.allocationCount,
          freeCount := s.heap.freeCount, failedAllocationCount := s.heap.failedAllocationCount }
        s.heap.firstBlock).map fun
      | .error () => .error .corrupt
      | .ok stats =>
        .ok { stats with
          externalFragmentationBytes := t.sub stats.freePayloadBytes stats.largestFreeBlockBytes }

end Hairtos

import Hairtos.FreeList
import Hairtos.Lab.Heap

namespace Hairtos

open Library

def poolLabMagic : Nat := 0x504C4142

structure PoolLab where
  memoryBegin : Nat
  memoryEnd : Nat
  freeHead : Nat
  blockStride : Nat
  requestedBlockBytes : Nat
  capacity : Nat
  freeBlocks : Nat
  allocationCount : Nat
  freeCount : Nat
  failedAllocationCount : Nat
  magic : Nat
  deriving DecidableEq, Repr

structure PoolLabState where
  pool : PoolLab
  memory : Memory

namespace Target

variable (t : Target)

def poolAlignUpSize (value alignment : Nat) : Option Nat :=
  let mask := t.sub alignment 1
  if value > t.sub t.sizeMax mask then none else some (t.add value mask &&& t.complement mask)

end Target

def PoolLab.cleared : PoolLab where
  memoryBegin := 0
  memoryEnd := 0
  freeHead := 0
  blockStride := 0
  requestedBlockBytes := 0
  capacity := 0
  freeBlocks := 0
  allocationCount := 0
  freeCount := 0
  failedAllocationCount := 0
  magic := 0

def PoolLab.isInitialized (pool : PoolLab) : Bool :=
  pool.magic == poolLabMagic && pool.memoryBegin != 0 && decide (pool.capacity > 0)

def pointerIsBlock (t : Target) (pool : PoolLab) (pointer : Nat) : Bool :=
  decide (pointer ≥ pool.memoryBegin) && decide (pointer < pool.memoryEnd) &&
    t.sub pointer pool.memoryBegin % pool.blockStride == 0

def pointerIsFreeLoop (t : Target) (s : PoolLabState) (pointer : Nat) : Nat → Nat → Bool
  | 0, node => node != 0 && node == pointer
  | visits + 1, node =>
    if node = 0 then false
    else if node = pointer then true
    else pointerIsFreeLoop t s pointer visits (t.loadLink s.memory node)

def pointerIsFree (t : Target) (s : PoolLabState) (pointer : Nat) : Bool :=
  pointerIsFreeLoop t s pointer s.pool.capacity s.pool.freeHead

def poolLabLink (t : Target) (begin stride : Nat) : Nat → PoolLabState → PoolLabState
  | 0, s => s
  | index + 1, s =>
    let node := t.add begin (index * stride % 2 ^ t.width)
    poolLabLink t begin stride index
      { pool := { s.pool with freeHead := node }, memory := t.storeLink s.memory node s.pool.freeHead }

def poolLabInit (t : Target) (s : PoolLabState) (memory memoryBytes blockBytes blockCount : Nat) :
    PoolLabState × HeapLabStatus :=
  if memory = 0 ∨ blockBytes = 0 ∨ blockCount = 0 ∨ memoryBytes = 0 then (s, .invalidArgument)
  else
    let s := { s with pool := PoolLab.cleared }
    let originalBlockBytes := blockBytes
    let blockBytes := if blockBytes < t.wordBytes then t.wordBytes else blockBytes
    match t.poolAlignUpSize blockBytes t.alignment with
    | none => (s, .invalidArgument)
    | some stride =>
      if memory > t.sub t.sizeMax memoryBytes then (s, .invalidArgument)
      else
        let rawEnd := t.add memory memoryBytes
        let alignedBegin := t.alignUpAddress memory t.alignment
        if alignedBegin ≥ rawEnd then (s, .invalidArgument)
        else
          let available := t.sub rawEnd alignedBegin
          let capacity := if available / stride > blockCount then blockCount else available / stride
          if capacity = 0 then (s, .invalidArgument)
          else
            let pool := { s.pool with
              memoryBegin := alignedBegin
              memoryEnd := t.add alignedBegin (capacity * stride % 2 ^ t.width)
              blockStride := stride
              requestedBlockBytes := originalBlockBytes
              capacity := capacity
              freeBlocks := capacity
              magic := poolLabMagic
              freeHead := 0 }
            (poolLabLink t alignedBegin stride capacity { s with pool := pool }, .ok)

def poolLabAlloc (t : Target) (s : PoolLabState) : PoolLabState × Nat :=
  if s.pool.isInitialized = false then (s, 0)
  else if s.pool.freeHead = 0 then
    ({ s with pool := { s.pool with failedAllocationCount := t.add s.pool.failedAllocationCount 1 } }, 0)
  else
    let node := s.pool.freeHead
    ({ pool := { s.pool with
        freeHead := t.loadLink s.memory node
        freeBlocks := t.sub s.pool.freeBlocks 1
        allocationCount := t.add s.pool.allocationCount 1 }
       memory := t.storeLink s.memory node 0 }, node)

def poolLabFree (t : Target) (s : PoolLabState) (pointer : Nat) : PoolLabState × HeapLabStatus :=
  if s.pool.isInitialized = false then (s, .notInitialized)
  else if pointer = 0 ∨ pointerIsBlock t s.pool pointer = false then (s, .invalidPointer)
  else if pointerIsFree t s pointer then (s, .doubleFree)
  else
    ({ pool := { s.pool with
        freeHead := pointer
        freeBlocks := t.add s.pool.freeBlocks 1
        freeCount := t.add s.pool.freeCount 1 }
       memory := t.storeLink s.memory pointer s.pool.freeHead }, .ok)

def poolLabCountLoop (t : Target) (s : PoolLabState) : Nat → Nat → Option Nat
  | 0, node => if node = 0 then some 0 else none
  | visits + 1, node =>
    if node = 0 then some 0
    else if pointerIsBlock t s.pool node = false then none
    else (poolLabCountLoop t s visits (t.loadLink s.memory node)).map (· + 1)

def poolLabValidate (t : Target) (s : PoolLabState) : Bool :=
  if s.pool.isInitialized = false ∨ s.pool.memoryEnd ≤ s.pool.memoryBegin ∨
    s.pool.freeBlocks > s.pool.capacity then
    false
  else
    match poolLabCountLoop t s s.pool.capacity s.pool.freeHead with
    | none => false
    | some count => count == s.pool.freeBlocks

end Hairtos

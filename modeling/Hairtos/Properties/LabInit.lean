import Hairtos.Properties.HeapLab
import Hairtos.Properties.PoolLab

namespace Hairtos

open Library

variable {t : Target}

theorem Target.dvd_alignUpAddress (address : Nat) : t.alignment ∣ t.alignUpAddress address t.alignment := by
  simp only [Target.alignUpAddress, Target.mask_eq]
  rw [Target.and_complement_mask (Target.add_lt _ _)]
  exact Nat.dvd_mul_left _ _

theorem Target.le_alignUpAddress_iff {address : Nat} (hlt : address < 2 ^ t.width) (hne : address ≠ 0) :
    address ≤ t.alignUpAddress address t.alignment ↔ address + (t.alignment - 1) < 2 ^ t.width := by
  simp only [Target.alignUpAddress, Target.mask_eq]
  constructor
  · intro hle
    by_contra hwrap
    rw [Target.add_and_complement_of_wrap hlt (by omega)] at hle
    omega
  · intro hfits
    rw [Target.add_and_complement hfits]
    exact le_roundUp t.alignment_pos address

structure ManagedInside (t : Target) (memory memoryBytes begin bound : Nat) (sums differences : List (Nat × Nat)) :
    Prop where
  nonempty : begin < bound
  begin_aligned : t.alignment ∣ begin
  bound_aligned : t.alignment ∣ bound
  lower : memory ≤ begin
  upper : bound ≤ memory + memoryBytes
  sums_fit : ∀ p ∈ sums, p.1 + p.2 < 2 ^ t.width
  differences_fit : ∀ p ∈ differences, p.2 ≤ p.1

def heapLabInitSums (t : Target) (memory memoryBytes : Nat) (heap : HeapLab) : List (Nat × Nat) :=
  [(t.blockBytes, t.alignment - 1), (memory, memoryBytes), (memory, t.alignment - 1),
    (heap.headerBytes, heap.alignment), (heap.arenaBegin, heap.managedBytes)]

def heapLabInitDifferences (t : Target) (memory memoryBytes : Nat) (heap : HeapLab) : List (Nat × Nat) :=
  [(t.alignment, 1), (t.sizeMax, t.alignment - 1), (t.sizeMax, memoryBytes),
    (memory + memoryBytes, heap.arenaBegin), (heap.managedBytes, heap.headerBytes)]

theorem HeapLabInitialized.inside_iff {s s' : HeapLabState} {memory memoryBytes : Nat}
    (h : HeapLabInitialized t s memory memoryBytes s') :
    ManagedInside t memory memoryBytes s'.heap.arenaBegin s'.heap.arenaEnd
        (heapLabInitSums t memory memoryBytes s'.heap) (heapLabInitDifferences t memory memoryBytes s'.heap) ↔
      memory + (t.alignment - 1) < 2 ^ t.width := by
  have hend := h.end_lt
  have hiff := t.le_alignUpAddress_iff (by omega) h.memory_ne
  obtain rfl := h.state
  refine ⟨fun hinside => hiff.mp hinside.lower, fun hfits => ?_⟩
  have hlt := h.begin_lt
  have hroom := h.room
  have hpos := t.alignment_pos
  have hblock := t.block_fits
  have hle := Nat.div_mul_le_self (memory + memoryBytes - t.alignUpAddress memory t.alignment) t.alignment
  refine ⟨?_, t.dvd_alignUpAddress memory, Nat.dvd_add (t.dvd_alignUpAddress memory) (Nat.dvd_mul_left _ _),
    hiff.mpr hfits,
    ?_, ?_, ?_⟩
  · dsimp only
    omega
  · dsimp only
    omega
  · simp only [heapLabInitSums, List.forall_mem_cons, Target.alignment] at *
    exact ⟨by omega, by omega, by omega, by omega, by omega, by simp⟩
  · simp only [heapLabInitDifferences, List.forall_mem_cons, Target.sizeMax]
    exact ⟨hpos, by omega, by omega, by omega, by omega, by simp⟩

def poolLabInitSums (t : Target) (memory memoryBytes blockBytes : Nat) (pool : PoolLab) : List (Nat × Nat) :=
  [(max blockBytes t.wordBytes, t.alignment - 1), (memory, memoryBytes), (memory, t.alignment - 1),
    (pool.memoryBegin, pool.capacity * pool.blockStride)]

def poolLabInitDifferences (t : Target) (memory memoryBytes : Nat) (pool : PoolLab) : List (Nat × Nat) :=
  [(t.alignment, 1), (t.sizeMax, t.alignment - 1), (t.sizeMax, memoryBytes), (memory + memoryBytes, pool.memoryBegin)]

structure PoolBlocksFit (blockBytes blockCount : Nat) (pool : PoolLab) : Prop where
  capacity_pos : 1 ≤ pool.capacity
  capacity_le : pool.capacity ≤ blockCount
  stride : blockBytes ≤ pool.blockStride

theorem PoolLabInitialized.inside_iff {s s' : PoolLabState} {memory memoryBytes blockBytes blockCount stride
    capacity : Nat}
    (h : PoolLabInitialized t s memory memoryBytes blockBytes blockCount stride capacity s') :
    ManagedInside t memory memoryBytes s'.pool.memoryBegin s'.pool.memoryEnd
        (poolLabInitSums t memory memoryBytes blockBytes s'.pool)
          (poolLabInitDifferences t memory memoryBytes s'.pool) ↔
      memory + (t.alignment - 1) < 2 ^ t.width := by
  have hend := h.end_lt
  have hiff := t.le_alignUpAddress_iff (by omega) h.memory_ne
  obtain ⟨head, hpool⟩ := h.pool
  rw [hpool]
  refine ⟨fun hinside => hiff.mp hinside.lower, fun hfits => ?_⟩
  obtain ⟨hstride, hupper⟩ := h.fits
  have hlt := h.begin_lt
  have hblock := h.block_lt
  have hpos := t.alignment_pos
  have hwidth := t.alignment_lt
  have hword := t.wordBytes_pos
  have hsize : 0 < capacity * stride := Nat.mul_pos h.capacity_pos (by omega)
  have hdvd : t.alignment ∣ stride := h.stride_eq ▸ dvd_roundUp _ _
  refine ⟨?_, t.dvd_alignUpAddress memory, Nat.dvd_add (t.dvd_alignUpAddress memory) (Dvd.dvd.mul_left hdvd capacity),
    hiff.mpr hfits,
    hupper, ?_, ?_⟩
  · simp only [PoolLab.described]
    omega
  · simp only [poolLabInitSums, PoolLab.described, List.forall_mem_cons]
    exact ⟨hblock, hend, hfits, by omega, by simp⟩
  · simp only [poolLabInitDifferences, PoolLab.described, List.forall_mem_cons, Target.sizeMax]
    exact ⟨hpos, by omega, by omega, by omega, by simp⟩

theorem PoolLabInitialized.blocks_fit {s s' : PoolLabState}
    {memory memoryBytes blockBytes blockCount stride capacity : Nat}
    (h : PoolLabInitialized t s memory memoryBytes blockBytes blockCount stride capacity s') :
    PoolBlocksFit blockBytes blockCount s'.pool := by
  obtain ⟨head, hpool⟩ := h.pool
  obtain ⟨hstride, -⟩ := h.fits
  rw [hpool]
  refine ⟨h.capacity_pos, ?_, ?_⟩
  · simp only [PoolLab.described]
    rw [h.capacity_eq]
    exact Nat.min_le_right _ _
  · simp only [PoolLab.described]
    omega

/-- What a successful initialisation of either allocator promises holds exactly if the rounding of the start address
does not wrap around the address space. -/
theorem lab_init_inside_iff (t : Target) (memory memoryBytes : BitVec t.width) :
    (∀ s, (heapLabInit t s memory.toNat memoryBytes.toNat).2 = .ok →
      (ManagedInside t memory.toNat memoryBytes.toNat
          (heapLabInit t s memory.toNat memoryBytes.toNat).1.heap.arenaBegin
          (heapLabInit t s memory.toNat memoryBytes.toNat).1.heap.arenaEnd
          (heapLabInitSums t memory.toNat memoryBytes.toNat (heapLabInit t s memory.toNat memoryBytes.toNat).1.heap)
          (heapLabInitDifferences t memory.toNat memoryBytes.toNat
            (heapLabInit t s memory.toNat memoryBytes.toNat).1.heap) ↔
        memory.toNat + (t.alignment - 1) < 2 ^ t.width)) ∧
    ∀ s, ∀ blockBytes blockCount : BitVec t.width,
      (poolLabInit t s memory.toNat memoryBytes.toNat blockBytes.toNat blockCount.toNat).2 = .ok →
      PoolBlocksFit blockBytes.toNat blockCount.toNat
        (poolLabInit t s memory.toNat memoryBytes.toNat blockBytes.toNat blockCount.toNat).1.pool ∧
      (ManagedInside t memory.toNat memoryBytes.toNat
          (poolLabInit t s memory.toNat memoryBytes.toNat blockBytes.toNat blockCount.toNat).1.pool.memoryBegin
          (poolLabInit t s memory.toNat memoryBytes.toNat blockBytes.toNat blockCount.toNat).1.pool.memoryEnd
          (poolLabInitSums t memory.toNat memoryBytes.toNat blockBytes.toNat
            (poolLabInit t s memory.toNat memoryBytes.toNat blockBytes.toNat blockCount.toNat).1.pool)
          (poolLabInitDifferences t memory.toNat memoryBytes.toNat
            (poolLabInit t s memory.toNat memoryBytes.toNat blockBytes.toNat blockCount.toNat).1.pool) ↔
        memory.toNat + (t.alignment - 1) < 2 ^ t.width) := by
  constructor
  · intro s hok
    exact (heapLabInit_initialized memoryBytes.isLt hok).inside_iff
  · intro s blockBytes blockCount hok
    obtain ⟨stride, capacity, hinit⟩ := poolLabInit_initialized memoryBytes.isLt hok
    exact ⟨hinit.blocks_fit, hinit.inside_iff⟩

theorem lab_init_inside_iff_board :
    (heapLabInit Target.cortexM3 boardHeap 0x20000000 256).2 = .ok ∧
      (poolLabInit Target.cortexM3 boardPool 0x20000000 256 20 4).2 = .ok ∧
      ManagedInside Target.cortexM3 0x20000000 256
        (heapLabInit Target.cortexM3 boardHeap 0x20000000 256).1.heap.arenaBegin
        (heapLabInit Target.cortexM3 boardHeap 0x20000000 256).1.heap.arenaEnd
        (heapLabInitSums Target.cortexM3 0x20000000 256 (heapLabInit Target.cortexM3 boardHeap 0x20000000 256).1.heap)
        (heapLabInitDifferences Target.cortexM3 0x20000000 256
          (heapLabInit Target.cortexM3 boardHeap 0x20000000 256).1.heap) ∧
      PoolBlocksFit 20 4 (poolLabInit Target.cortexM3 boardPool 0x20000000 256 20 4).1.pool := by
  have h := lab_init_inside_iff Target.cortexM3 0x20000000#32 256#32
  exact ⟨by decide, by decide, (h.1 boardHeap (by decide)).mpr (by decide),
    (h.2 boardPool 20#32 4#32 (by decide)).1⟩

/-- On the 32-bit board, six bytes seven bytes below the end of the address space become a range from 0 on. -/
theorem lab_init_outside :
    let heap := (heapLabInit Target.cortexM3 boardHeap 0xFFFFFFF9 6).1.heap
    let pool := (poolLabInit Target.cortexM3 boardPool 0xFFFFFFF9 6 16 1).1.pool
    (heapLabInit Target.cortexM3 boardHeap 0xFFFFFFF9 6).2 = .ok ∧
      heap.arenaBegin = 0 ∧ heap.arenaEnd = 0xFFFFFFF8 ∧
      ¬ ManagedInside Target.cortexM3 0xFFFFFFF9 6 heap.arenaBegin heap.arenaEnd
        (heapLabInitSums Target.cortexM3 0xFFFFFFF9 6 heap)
          (heapLabInitDifferences Target.cortexM3 0xFFFFFFF9 6 heap) ∧
      (poolLabInit Target.cortexM3 boardPool 0xFFFFFFF9 6 16 1).2 = .ok ∧
      pool.memoryBegin = 0 ∧ pool.memoryEnd = 16 ∧
      ¬ ManagedInside Target.cortexM3 0xFFFFFFF9 6 pool.memoryBegin pool.memoryEnd
        (poolLabInitSums Target.cortexM3 0xFFFFFFF9 6 16 pool)
        (poolLabInitDifferences Target.cortexM3 0xFFFFFFF9 6 pool) :=
  ⟨by decide, by decide, by decide, fun h => absurd h.lower (by decide),
    by decide, by decide, by decide, fun h => absurd h.lower (by decide)⟩

end Hairtos

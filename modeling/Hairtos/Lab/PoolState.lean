import Hairtos.Lab.Pool
import Hairtos.Library.Blocks
import Mathlib.Data.List.Perm.Subperm

namespace Hairtos

open Library

variable {p memory memoryBytes blockBytes blockCount : Nat} {s' : PoolLabState}

variable {t : Target}

structure PoolLabState.Holds (t : Target) (s : PoolLabState) (begin stride capacity : Nat) (free : List Nat) :
    Prop where
  magic : s.pool.magic = poolLabMagic
  memoryBegin : s.pool.memoryBegin = begin
  memoryEnd : s.pool.memoryEnd = begin + capacity * stride
  blockStride : s.pool.blockStride = stride
  capacity_eq : s.pool.capacity = capacity
  freeBlocks : s.pool.freeBlocks = free.length
  begin_ne : begin ≠ 0
  wordBytes_le : t.wordBytes ≤ stride
  capacity_pos : 0 < capacity
  end_lt : begin + capacity * stride < 2 ^ t.width
  linked : Linked (t.loadLink s.memory) s.pool.freeHead free
  nodup : free.Nodup
  subset : ∀ x ∈ free, x ∈ blockStarts begin stride capacity

namespace PoolLabState.Holds

variable {s : PoolLabState} {begin stride capacity : Nat} {free : List Nat}

theorem isInitialized (h : s.Holds t begin stride capacity free) : s.pool.isInitialized = true := by
  simp [PoolLab.isInitialized, h.magic, h.memoryBegin, h.begin_ne, h.capacity_eq, h.capacity_pos]

theorem stride_pos (h : s.Holds t begin stride capacity free) : 0 < stride :=
  lt_of_lt_of_le t.wordBytes_pos h.wordBytes_le

theorem length_le (h : s.Holds t begin stride capacity free) : free.length ≤ capacity := by
  have hsub := (List.subperm_of_subset h.nodup h.subset).length_le
  simpa [blockStarts] using hsub

theorem pointerIsBlock_iff (h : s.Holds t begin stride capacity free) (hp : p < 2 ^ t.width) :
    pointerIsBlock t s.pool p = true ↔ p ∈ blockStarts begin stride capacity := by
  have hstride := h.stride_pos
  simp only [pointerIsBlock, h.memoryBegin, h.memoryEnd, h.blockStride, Bool.and_eq_true, decide_eq_true_iff,
    beq_iff_eq, mem_blockStarts]
  constructor
  · rintro ⟨⟨hle, hlt⟩, hmod⟩
    rw [Target.sub_eq hle hp] at hmod
    obtain ⟨i, hi⟩ := Nat.dvd_of_mod_eq_zero hmod
    refine ⟨i, ?_, ?_⟩
    · refine Nat.lt_of_mul_lt_mul_right (a := stride) ?_
      rw [Nat.mul_comm]
      omega
    · rw [Nat.mul_comm]
      omega
  · rintro ⟨i, hi, rfl⟩
    have := Nat.mul_lt_mul_of_pos_right hi hstride
    refine ⟨⟨by omega, by omega⟩, ?_⟩
    rw [Target.sub_eq (by omega) hp, Nat.add_sub_cancel_left, Nat.mul_mod_left]

end PoolLabState.Holds

theorem pointerIsFreeLoop_iff {visits node : Nat}
    (h : Linked (t.loadLink s.memory) node free) (hlen : free.length ≤ visits) :
    pointerIsFreeLoop t s p visits node = true ↔ p ∈ free := by
  induction free generalizing node visits with
  | nil =>
    have hnode : node = 0 := h
    cases visits with
    | zero => simp [pointerIsFreeLoop, hnode]
    | succ visits => simp [pointerIsFreeLoop, hnode]
  | cons x free ih =>
    obtain ⟨rfl, hne, hrest⟩ := h
    cases visits with
    | zero => simp at hlen
    | succ visits =>
      have htail := ih hrest (Nat.le_of_succ_le_succ hlen)
      rw [pointerIsFreeLoop, if_neg hne]
      by_cases hp : node = p
      · rw [if_pos hp]
        simp [hp]
      · rw [if_neg hp, htail]
        simp [Ne.symm hp]

theorem poolLabCountLoop_eq {visits node : Nat}
    (h : Linked (t.loadLink s.memory) node free) (hlen : free.length ≤ visits)
    (hblocks : ∀ x ∈ free, pointerIsBlock t s.pool x = true) :
    poolLabCountLoop t s visits node = some free.length := by
  induction free generalizing node visits with
  | nil =>
    have hnode : node = 0 := h
    cases visits with
    | zero => simp [poolLabCountLoop, hnode]
    | succ visits => simp [poolLabCountLoop, hnode]
  | cons x free ih =>
    obtain ⟨rfl, hne, hrest⟩ := h
    obtain ⟨hnode, hfree⟩ := List.forall_mem_cons.mp hblocks
    cases visits with
    | zero => simp at hlen
    | succ visits =>
      rw [poolLabCountLoop, if_neg hne, if_neg (by simp [hnode]), ih hrest (Nat.le_of_succ_le_succ hlen) hfree]
      rfl

theorem poolLabLink_spec {begin bound : Nat} (s : PoolLabState) (index : Nat)
    (hbegin : begin ≠ 0) (hstride : t.wordBytes ≤ stride) (hbound : begin + index * stride ≤ bound)
    (hlt : bound < 2 ^ t.width) (h : Linked (t.loadLink s.memory) s.pool.freeHead free)
    (hhead : s.pool.freeHead < 2 ^ t.width) (hfree : ∀ x ∈ free, begin + index * stride ≤ x) :
    ∃ m head, poolLabLink t begin stride index s = { pool := { s.pool with freeHead := head }, memory := m } ∧
      Linked (t.loadLink m) head (blockStarts begin stride index ++ free) := by
  induction index generalizing s free with
  | zero => exact ⟨s.memory, s.pool.freeHead, rfl, h⟩
  | succ index ih =>
    have hmul : (index + 1) * stride = index * stride + stride := Nat.succ_mul index stride
    rw [hmul] at hbound hfree
    have hnode : t.add begin (index * stride % 2 ^ t.width) = begin + index * stride := by
      rw [Nat.mod_eq_of_lt (by omega), Target.add_eq (by omega)]
    have hapart : ∀ x ∈ free, begin + index * stride + t.wordBytes ≤ x ∨
      x + t.wordBytes ≤ begin + index * stride :=
      fun x hx => Or.inl (by have := hfree x hx; omega)
    have hpush := linked_storeLink h (by omega) hhead hapart
    have hrest : ∀ x ∈ (begin + index * stride) :: free, begin + index * stride ≤ x :=
      List.forall_mem_cons.mpr ⟨le_refl _, fun x hx => by have := hfree x hx; omega⟩
    rw [poolLabLink, hnode]
    obtain ⟨m, head, heq, hlinked⟩ := ih ⟨{ s.pool with freeHead := begin + index * stride },
      t.storeLink s.memory (begin + index * stride) s.pool.freeHead⟩ (by omega) hpush (by dsimp only; omega) hrest
    refine ⟨m, head, heq, ?_⟩
    rw [blockStarts, List.range_succ, List.map_append, List.append_assoc]
    exact hlinked

def PoolLab.described (begin stride blockBytes capacity : Nat) : PoolLab :=
  { PoolLab.cleared with
    memoryBegin := begin
    memoryEnd := begin + capacity * stride
    blockStride := stride
    requestedBlockBytes := blockBytes
    capacity := capacity
    freeBlocks := capacity
    magic := poolLabMagic }

structure PoolLabInitialized (t : Target) (s : PoolLabState)
    (memory memoryBytes blockBytes blockCount stride capacity : Nat)
    (s' : PoolLabState) : Prop where
  memory_ne : memory ≠ 0
  blockCount_ne : blockCount ≠ 0
  end_lt : memory + memoryBytes < 2 ^ t.width
  begin_lt : t.alignUpAddress memory t.alignment < memory + memoryBytes
  block_lt : max blockBytes t.wordBytes + (t.alignment - 1) < 2 ^ t.width
  stride_eq : stride = roundUp t.alignment (max blockBytes t.wordBytes)
  capacity_eq : capacity = min ((memory + memoryBytes - t.alignUpAddress memory t.alignment) / stride) blockCount
  capacity_pos : 0 < capacity
  state : s' = poolLabLink t (t.alignUpAddress memory t.alignment) stride capacity
    { s with pool := PoolLab.described (t.alignUpAddress memory t.alignment) stride blockBytes capacity }

theorem Target.poolAlignUpSize_eq {value : Nat} :
    t.poolAlignUpSize value t.alignment =
      if value + (t.alignment - 1) < 2 ^ t.width then some (roundUp t.alignment value) else none := by
  have hpos := t.alignment_pos
  have hlt := t.alignment_lt
  simp only [Target.poolAlignUpSize, Target.mask_eq]
  rw [Target.sizeMax, Target.sub_eq (by omega) (by omega)]
  by_cases hwrap : value + (t.alignment - 1) < 2 ^ t.width
  · rw [if_neg (by omega), if_pos hwrap, Target.add_and_complement hwrap]
  · rw [if_pos (by omega), if_neg hwrap]

theorem poolLabInit_initialized
    (hb : memoryBytes < 2 ^ t.width) (h : (poolLabInit t s memory memoryBytes blockBytes blockCount).2 = .ok) :
    ∃ stride capacity, PoolLabInitialized t s memory memoryBytes blockBytes blockCount stride capacity
      (poolLabInit t s memory memoryBytes blockBytes blockCount).1 := by
  have hpow := Nat.two_pow_pos t.width
  have hroom : t.sub t.sizeMax memoryBytes = 2 ^ t.width - 1 - memoryBytes := by
    rw [Target.sizeMax, Target.sub_eq (by omega) (by omega)]
  have hmax : (if blockBytes < t.wordBytes then t.wordBytes else blockBytes) = max blockBytes t.wordBytes := by
    split <;> omega
  simp only [poolLabInit, Target.poolAlignUpSize_eq, hroom, hmax] at h ⊢
  by_cases hnull : memory = 0 ∨ blockBytes = 0 ∨ blockCount = 0 ∨ memoryBytes = 0
  · rw [if_pos hnull] at h
    cases h
  by_cases hblock : max blockBytes t.wordBytes + (t.alignment - 1) < 2 ^ t.width
  swap
  · rw [if_neg hnull, if_neg hblock] at h
    cases h
  rw [if_neg hnull, if_pos hblock] at h ⊢
  dsimp only at h ⊢
  by_cases hend : memory > 2 ^ t.width - 1 - memoryBytes
  · rw [if_pos hend] at h
    cases h
  have hsum : t.add memory memoryBytes = memory + memoryBytes := Target.add_eq (by omega)
  rw [if_neg hend, hsum] at h ⊢
  by_cases hbegin : t.alignUpAddress memory t.alignment ≥ memory + memoryBytes
  · rw [if_pos hbegin] at h
    cases h
  have hdiff : t.sub (memory + memoryBytes) (t.alignUpAddress memory t.alignment) =
      memory + memoryBytes - t.alignUpAddress memory t.alignment := Target.sub_eq (by omega) (by omega)
  rw [if_neg hbegin, hdiff] at h ⊢
  generalize hstride : roundUp t.alignment (max blockBytes t.wordBytes) = stride at h ⊢
  have hmin : (if (memory + memoryBytes - t.alignUpAddress memory t.alignment) / stride > blockCount then blockCount
      else (memory + memoryBytes - t.alignUpAddress memory t.alignment) / stride) =
        min ((memory + memoryBytes - t.alignUpAddress memory t.alignment) / stride) blockCount := by
    split <;> omega
  rw [hmin] at h ⊢
  generalize hcapacity : min ((memory + memoryBytes - t.alignUpAddress memory t.alignment) / stride) blockCount =
    capacity at h ⊢
  by_cases hzero : capacity = 0
  · rw [if_pos hzero] at h
    cases h
  have hfits : capacity * stride ≤ memory + memoryBytes - t.alignUpAddress memory t.alignment := by
    refine le_trans (Nat.mul_le_mul_right stride ?_) (Nat.div_mul_le_self _ stride)
    omega
  rw [if_neg hzero]
  refine ⟨stride, capacity, by tauto, by tauto, by omega, by omega, hblock, hstride.symm, hcapacity.symm,
    Nat.pos_of_ne_zero hzero, ?_⟩
  rw [Nat.mod_eq_of_lt (by omega), Target.add_eq (by omega)]
  rfl

theorem PoolLabInitialized.fits
    (h : PoolLabInitialized t s memory memoryBytes blockBytes blockCount stride capacity s') :
    max blockBytes t.wordBytes ≤ stride ∧
      t.alignUpAddress memory t.alignment + capacity * stride ≤ memory + memoryBytes := by
  have hstride := le_roundUp t.alignment_pos (max blockBytes t.wordBytes)
  rw [← h.stride_eq] at hstride
  have hbegin := h.begin_lt
  have hle : capacity ≤ (memory + memoryBytes - t.alignUpAddress memory t.alignment) / stride := by
    rw [h.capacity_eq]
    exact Nat.min_le_left _ _
  have := le_trans (Nat.mul_le_mul_right stride hle) (Nat.div_mul_le_self _ stride)
  omega

theorem poolLabLink_pool (begin stride index : Nat) (s : PoolLabState) :
    ∃ head, (poolLabLink t begin stride index s).pool = { s.pool with freeHead := head } := by
  induction index generalizing s with
  | zero => exact ⟨s.pool.freeHead, rfl⟩
  | succ index ih => exact ih _

theorem PoolLabInitialized.pool
    (h : PoolLabInitialized t s memory memoryBytes blockBytes blockCount stride capacity s') :
    ∃ head, s'.pool = { PoolLab.described (t.alignUpAddress memory t.alignment) stride blockBytes capacity with
      freeHead := head } := by
  rw [h.state]
  exact poolLabLink_pool ..

theorem PoolLabInitialized.memoryBegin
    (h : PoolLabInitialized t s memory memoryBytes blockBytes blockCount stride capacity s') :
    s'.pool.memoryBegin = t.alignUpAddress memory t.alignment := by
  obtain ⟨head, hpool⟩ := h.pool
  rw [hpool]
  rfl

theorem PoolLabInitialized.holds
    (h : PoolLabInitialized t s memory memoryBytes blockBytes blockCount stride capacity s')
    (hbegin : t.alignUpAddress memory t.alignment ≠ 0) :
    s'.Holds t (t.alignUpAddress memory t.alignment) stride capacity
      (blockStarts (t.alignUpAddress memory t.alignment) stride capacity) := by
  obtain ⟨hstride, hend⟩ := h.fits
  have hlt := h.end_lt
  have hword := t.wordBytes_pos
  have hwords : t.wordBytes ≤ stride := by omega
  obtain ⟨m, head, heq, hlinked⟩ := poolLabLink_spec
    { s with pool := PoolLab.described (t.alignUpAddress memory t.alignment) stride blockBytes capacity }
    capacity hbegin hwords (le_refl _) (by omega) (show Linked _ _ [] from rfl) (Nat.two_pow_pos _) (by simp)
  rw [List.append_nil] at hlinked
  obtain rfl := h.state.trans heq
  refine ⟨rfl, rfl, rfl, rfl, rfl, ?_, hbegin, by omega, h.capacity_pos, by omega, hlinked,
    blockStarts_nodup (by omega) capacity, fun x hx => hx⟩
  simp [blockStarts, PoolLab.described]

namespace PoolLabState.Holds

variable {s : PoolLabState} {begin stride capacity : Nat} {free : List Nat}

theorem block_ne (h : s.Holds t begin stride capacity free) {x : Nat} (hx : x ∈ blockStarts begin stride capacity) :
    x ≠ 0 ∧ x < 2 ^ t.width := by
  have hbounds := blockStarts_bounds hx
  have := h.begin_ne
  have := h.end_lt
  have := h.stride_pos
  omega

theorem head_lt (h : s.Holds t begin stride capacity free) : s.pool.freeHead < 2 ^ t.width := by
  have hlinked := h.linked
  cases free with
  | nil =>
    have hhead : s.pool.freeHead = 0 := hlinked
    rw [hhead]
    exact Nat.two_pow_pos _
  | cons x free =>
    rw [hlinked.1]
    exact (h.block_ne (h.subset x (by simp))).2

theorem apart (h : s.Holds t begin stride capacity free) (hp : p ∈ blockStarts begin stride capacity)
    (hfree : p ∉ free) : ∀ x ∈ free, p + t.wordBytes ≤ x ∨ x + t.wordBytes ≤ p := by
  intro x hx
  have hword := h.wordBytes_le
  have hne : p ≠ x := by
    rintro rfl
    exact hfree hx
  rcases blockStarts_apart hp (h.subset x hx) hne with hle | hle
  · exact Or.inl (by omega)
  · exact Or.inr (by omega)

theorem validate (h : s.Holds t begin stride capacity free) : poolLabValidate t s = true := by
  have hlen := h.length_le
  have hpos := Nat.mul_pos h.capacity_pos h.stride_pos
  have hvisits : free.length ≤ s.pool.capacity := by rw [h.capacity_eq]; exact hlen
  have hcount := poolLabCountLoop_eq h.linked hvisits
    (fun x hx => (h.pointerIsBlock_iff (h.block_ne (h.subset x hx)).2).mpr (h.subset x hx))
  simp only [poolLabValidate]
  rw [if_neg, hcount]
  · simp [h.freeBlocks]
  · rw [h.isInitialized, h.memoryEnd, h.memoryBegin, h.freeBlocks, h.capacity_eq]
    simp only [Bool.true_eq_false, false_or]
    omega

theorem alloc_empty (h : s.Holds t begin stride capacity []) :
    poolLabAlloc t s =
      ({ s with pool := { s.pool with failedAllocationCount := t.add s.pool.failedAllocationCount 1 } }, 0) := by
  have hhead : s.pool.freeHead = 0 := h.linked
  simp only [poolLabAlloc, h.isInitialized, Bool.true_eq_false, if_false, hhead, if_true]

theorem alloc_cons {x : Nat} (h : s.Holds t begin stride capacity (x :: free)) :
    ∃ s', poolLabAlloc t s = (s', x) ∧ s'.Holds t begin stride capacity free := by
  obtain ⟨hhead, hne, hrest⟩ := h.linked
  obtain ⟨hx, hnodup⟩ := List.nodup_cons.mp h.nodup
  have hsub : ∀ y ∈ free, y ∈ blockStarts begin stride capacity := fun y hy => h.subset y (by simp [hy])
  have hlen := h.length_le
  have hend := h.end_lt
  have hcap : capacity ≤ capacity * stride := Nat.le_mul_of_pos_right _ h.stride_pos
  have hcount : t.sub s.pool.freeBlocks 1 = free.length := by
    rw [h.freeBlocks, List.length_cons]
    simp only [List.length_cons] at hlen
    rw [Target.sub_eq (by omega) (by omega)]
    omega
  simp only [poolLabAlloc, h.isInitialized, Bool.true_eq_false, if_false, hhead]
  rw [if_neg hne]
  refine ⟨_, rfl, h.magic, h.memoryBegin, h.memoryEnd, h.blockStride, h.capacity_eq, hcount, h.begin_ne,
    h.wordBytes_le,
    h.capacity_pos, h.end_lt, ?_, hnodup, hsub⟩
  refine hrest.congr (fun y hy => Target.loadLink_storeLink_of_apart ?_)
  have hne' : x ≠ y := by
    rintro rfl
    exact hx hy
  have hword := h.wordBytes_le
  rcases blockStarts_apart (h.subset x (by simp)) (hsub y hy) hne' with hle | hle
  · exact Or.inl (by omega)
  · exact Or.inr (by omega)

theorem pointerIsFree_iff (h : s.Holds t begin stride capacity free) :
    pointerIsFree t s p = true ↔ p ∈ free :=
  pointerIsFreeLoop_iff h.linked (by rw [h.capacity_eq]; exact h.length_le)

theorem free_unknown (h : s.Holds t begin stride capacity free) (hp : p < 2 ^ t.width)
    (hblock : p ∉ blockStarts begin stride capacity) : poolLabFree t s p = (s, .invalidPointer) := by
  have hnot : pointerIsBlock t s.pool p = false := by
    rw [← Bool.not_eq_true, h.pointerIsBlock_iff hp]
    exact hblock
  simp only [poolLabFree, h.isInitialized, Bool.true_eq_false, if_false]
  rw [if_pos (Or.inr hnot)]

theorem free_block (h : s.Holds t begin stride capacity free) (hblock : p ∈ blockStarts begin stride capacity) :
    ¬ (p = 0 ∨ pointerIsBlock t s.pool p = false) := by
  obtain ⟨hne, hlt⟩ := h.block_ne hblock
  rintro (h0 | hnot)
  · exact hne h0
  · rw [(h.pointerIsBlock_iff hlt).mpr hblock] at hnot
    cases hnot

theorem free_twice (h : s.Holds t begin stride capacity free) (hp : p ∈ free) :
    poolLabFree t s p = (s, .doubleFree) := by
  simp only [poolLabFree, h.isInitialized, Bool.true_eq_false, if_false]
  rw [if_neg (h.free_block (h.subset p hp)), if_pos (h.pointerIsFree_iff.mpr hp)]

theorem free_granted (h : s.Holds t begin stride capacity free) (hblock : p ∈ blockStarts begin stride capacity)
    (hp : p ∉ free) : ∃ s', poolLabFree t s p = (s', .ok) ∧ s'.Holds t begin stride capacity (p :: free) := by
  have hnodup : (p :: free).Nodup := List.nodup_cons.mpr ⟨hp, h.nodup⟩
  have hsub : ∀ x ∈ p :: free, x ∈ blockStarts begin stride capacity :=
    List.forall_mem_cons.mpr ⟨hblock, h.subset⟩
  have hlen : free.length + 1 ≤ capacity := by
    have := (List.subperm_of_subset hnodup hsub).length_le
    simpa [blockStarts] using this
  have hend := h.end_lt
  have hcap : capacity ≤ capacity * stride := Nat.le_mul_of_pos_right _ h.stride_pos
  have hbegin := h.begin_ne
  have hcount : t.add s.pool.freeBlocks 1 = (p :: free).length := by
    rw [h.freeBlocks, Target.add_eq (by omega)]
    rfl
  simp only [poolLabFree, h.isInitialized, Bool.true_eq_false, if_false]
  rw [if_neg (h.free_block hblock), if_neg (by rw [h.pointerIsFree_iff]; exact hp)]
  exact ⟨_, rfl, h.magic, h.memoryBegin, h.memoryEnd, h.blockStride, h.capacity_eq, hcount, h.begin_ne,
    h.wordBytes_le,
    h.capacity_pos, h.end_lt, linked_storeLink h.linked (h.block_ne hblock).1 h.head_lt (h.apart hblock hp),
      hnodup, hsub⟩

theorem write (h : s.Holds t begin stride capacity free) {a : Nat} (hblock : p ∈ blockStarts begin stride capacity)
    (hp : p ∉ free) (hle : p ≤ a) (hlt : a < p + stride) (value : UInt8) :
    PoolLabState.Holds t { s with memory := Function.update s.memory a value } begin stride capacity free := by
  refine ⟨h.magic, h.memoryBegin, h.memoryEnd, h.blockStride, h.capacity_eq, h.freeBlocks, h.begin_ne, h.wordBytes_le,
    h.capacity_pos, h.end_lt, h.linked.congr (fun x hx => Target.loadLink_congr fun z hz hzlt => ?_), h.nodup,
      h.subset⟩
  have hword := h.wordBytes_le
  have hne : p ≠ x := by
    rintro rfl
    exact hp hx
  apply Function.update_of_ne
  rcases blockStarts_apart hblock (h.subset x hx) hne with hapart | hapart
  · omega
  · omega

end PoolLabState.Holds

end Hairtos

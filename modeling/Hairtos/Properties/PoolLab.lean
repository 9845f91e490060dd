import Hairtos.Lab.PoolState

namespace Hairtos

open Library

variable {t : Target}

inductive PoolOp (t : Target)
  | alloc
  | free (pointer : BitVec t.width)
  | write (address : Nat) (value : UInt8)

/-- `held` has the blocks handed out; `stack` the others, the one freed last first. Both follow the results of
the calls only. -/
structure PoolClient where
  state : PoolLabState
  held : List Nat
  stack : List Nat

def PoolClient.Owns (c : PoolClient) (address : Nat) : Prop :=
  ∃ b ∈ c.held, b ≤ address ∧ address < b + c.state.pool.blockStride

instance PoolClient.decidableOwns (c : PoolClient) (address : Nat) : Decidable (c.Owns address) :=
  inferInstanceAs (Decidable (∃ b ∈ c.held, b ≤ address ∧ address < b + c.state.pool.blockStride))

def PoolClient.step (t : Target) (c : PoolClient) : PoolOp t → PoolClient
  | .alloc =>
    let r := poolLabAlloc t c.state
    if r.2 = 0 then { c with state := r.1 }
    else { state := r.1, held := r.2 :: c.held, stack := c.stack.erase r.2 }
  | .free p =>
    let r := poolLabFree t c.state p.toNat
    if r.2 = .ok then { state := r.1, held := c.held.erase p.toNat, stack := p.toNat :: c.stack }
    else { c with state := r.1 }
  | .write address value =>
    if c.Owns address then
      { c with state := { c.state with memory := Function.update c.state.memory address value } }
    else c

def PoolClient.run (t : Target) (c : PoolClient) (ops : List (PoolOp t)) : PoolClient :=
  ops.foldl (PoolClient.step t) c

def PoolLabState.blocks (s : PoolLabState) : List Nat :=
  blockStarts s.pool.memoryBegin s.pool.blockStride s.pool.capacity

def PoolClient.fresh (t : Target) (s : PoolLabState) (memory memoryBytes blockBytes blockCount : BitVec t.width) :
    PoolClient :=
  let s := (poolLabInit t s memory.toNat memoryBytes.toNat blockBytes.toNat blockCount.toNat).1
  { state := s, held := [], stack := s.blocks }

structure PoolInside (t : Target) (s : PoolLabState) (memory memoryBytes blockBytes blockCount : BitVec t.width) :
    Prop where
  ok : (poolLabInit t s memory.toNat memoryBytes.toNat blockBytes.toNat blockCount.toNat).2 = .ok
  lower : memory.toNat ≤
    (poolLabInit t s memory.toNat memoryBytes.toNat blockBytes.toNat blockCount.toNat).1.pool.memoryBegin
  upper : (poolLabInit t s memory.toNat memoryBytes.toNat blockBytes.toNat blockCount.toNat).1.pool.memoryEnd ≤
    memory.toNat + memoryBytes.toNat

structure PoolClient.Intact (t : Target) (c : PoolClient) : Prop where
  list : Linked (t.loadLink c.state.memory) c.state.pool.freeHead c.stack
  nodup : c.stack.Nodup
  length : c.stack.length = c.state.pool.freeBlocks
  others : ∀ x, x ∈ c.stack ↔ x ∈ c.state.blocks ∧ x ∉ c.held
  valid : poolLabValidate t c.state = true
  alloc_null : (poolLabAlloc t c.state).2 = 0 ↔ ∀ x ∈ c.state.blocks, x ∈ c.held
  alloc_block : (poolLabAlloc t c.state).2 ≠ 0 →
    (poolLabAlloc t c.state).2 ∈ c.state.blocks ∧ (poolLabAlloc t c.state).2 ∉ c.held ∧
      c.stack.head? = some (poolLabAlloc t c.state).2
  free_ok : ∀ p : BitVec t.width, (poolLabFree t c.state p.toNat).2 = .ok ↔ p.toNat ∈ c.held
  free_twice : ∀ p : BitVec t.width,
    (poolLabFree t c.state p.toNat).2 = .doubleFree ↔ p.toNat ∈ c.state.blocks ∧ p.toNat ∉ c.held
  free_unknown : ∀ p : BitVec t.width, p.toNat ∉ c.state.blocks →
    (poolLabFree t c.state p.toNat).2 = .invalidPointer
  free_error : ∀ p : BitVec t.width, (poolLabFree t c.state p.toNat).2 ≠ .ok →
    (poolLabFree t c.state p.toNat).1 = c.state

structure PoolClient.Matches (t : Target) (c : PoolClient) (begin stride capacity : Nat) : Prop where
  holds : c.state.Holds t begin stride capacity c.stack
  held_nodup : c.held.Nodup
  held_iff : ∀ x, x ∈ c.held ↔ x ∈ blockStarts begin stride capacity ∧ x ∉ c.stack

namespace PoolClient.Matches

variable {c : PoolClient} {begin stride capacity : Nat}

theorem blocks_eq (h : c.Matches t begin stride capacity) : c.state.blocks = blockStarts begin stride capacity := by
  rw [PoolLabState.blocks, h.holds.memoryBegin, h.holds.blockStride, h.holds.capacity_eq]

theorem step_alloc (h : c.Matches t begin stride capacity) : (c.step t .alloc).Matches t begin stride capacity := by
  obtain ⟨s, held, stack⟩ := c
  cases stack with
  | nil =>
    have halloc := h.holds.alloc_empty
    dsimp only at halloc
    simp only [step, halloc, if_true]
    exact ⟨⟨h.holds.magic, h.holds.memoryBegin, h.holds.memoryEnd, h.holds.blockStride, h.holds.capacity_eq,
      h.holds.freeBlocks, h.holds.begin_ne, h.holds.wordBytes_le, h.holds.capacity_pos, h.holds.end_lt, h.holds.linked,
      h.holds.nodup, h.holds.subset⟩, h.held_nodup, h.held_iff⟩
  | cons x stack =>
    obtain ⟨s', halloc, hs'⟩ := h.holds.alloc_cons
    have hx := h.holds.subset x (by simp)
    have hne := (h.holds.block_ne hx).1
    obtain ⟨hxs, -⟩ := List.nodup_cons.mp h.holds.nodup
    dsimp only at halloc
    simp only [step, halloc, if_neg hne, List.erase_cons_head]
    refine ⟨hs', List.nodup_cons.mpr ⟨fun hmem => ?_, h.held_nodup⟩, fun y => ?_⟩
    · exact ((h.held_iff x).mp hmem).2 (by simp)
    · have hy := h.held_iff y
      simp only [List.mem_cons, not_or] at hy ⊢
      constructor
      · rintro (rfl | hmem)
        · exact ⟨hx, hxs⟩
        · exact ⟨(hy.mp hmem).1, (hy.mp hmem).2.2⟩
      · rintro ⟨hblock, hstack⟩
        by_cases hyx : y = x
        · exact Or.inl hyx
        · exact Or.inr (hy.mpr ⟨hblock, hyx, hstack⟩)

theorem step_free (h : c.Matches t begin stride capacity) (p : BitVec t.width) :
    (c.step t (.free p)).Matches t begin stride capacity := by
  by_cases hblock : p.toNat ∈ blockStarts begin stride capacity
  · by_cases hstack : p.toNat ∈ c.stack
    · simp only [step, h.holds.free_twice hstack]
      exact h
    · obtain ⟨s', hfree, hs'⟩ := h.holds.free_granted hblock hstack
      simp only [step, hfree, if_true]
      refine ⟨hs', h.held_nodup.erase _, fun y => ?_⟩
      rw [h.held_nodup.mem_erase_iff, h.held_iff, List.mem_cons, not_or]
      tauto
  · simp only [step, h.holds.free_unknown p.isLt hblock]
    exact h

theorem step_write (h : c.Matches t begin stride capacity) (address : Nat) (value : UInt8) :
    (c.step t (.write address value)).Matches t begin stride capacity := by
  simp only [step]
  split
  · next howns =>
    obtain ⟨b, hb, hle, hlt⟩ := howns
    obtain ⟨hblock, hstack⟩ := (h.held_iff b).mp hb
    rw [h.holds.blockStride] at hlt
    exact ⟨h.holds.write hblock hstack hle hlt value, h.held_nodup, h.held_iff⟩
  · exact h

theorem run_matches (h : c.Matches t begin stride capacity) (ops : List (PoolOp t)) :
    (c.run t ops).Matches t begin stride capacity := by
  induction ops generalizing c with
  | nil => exact h
  | cons op ops ih =>
    have hstep : (c.step t op).Matches t begin stride capacity := by
      cases op with
      | alloc => exact h.step_alloc
      | free p => exact h.step_free p
      | write address value => exact h.step_write address value
    exact ih hstep

theorem alloc_eq (h : c.Matches t begin stride capacity) : (poolLabAlloc t c.state).2 = c.stack.headD 0 := by
  obtain ⟨s, held, stack⟩ := c
  cases stack with
  | nil =>
    have halloc := h.holds.alloc_empty
    dsimp only at halloc ⊢
    rw [halloc]
    rfl
  | cons x stack =>
    obtain ⟨s', halloc, -⟩ := h.holds.alloc_cons
    dsimp only at halloc ⊢
    rw [halloc]
    rfl

theorem stack_eq_nil (h : c.Matches t begin stride capacity) (hnull : c.stack.headD 0 = 0) : c.stack = [] := by
  cases hstack : c.stack with
  | nil => rfl
  | cons x stack =>
    rw [hstack] at hnull
    exact absurd hnull (h.holds.block_ne (h.holds.subset x (by rw [hstack]; simp))).1

theorem intact (h : c.Matches t begin stride capacity) : c.Intact t := by
  have hothers : ∀ x, x ∈ c.stack ↔ x ∈ blockStarts begin stride capacity ∧ x ∉ c.held := by
    intro x
    have hsub := h.holds.subset x
    have hheld := h.held_iff x
    tauto
  have hfree : ∀ p : BitVec t.width,
      (p.toNat ∈ c.held ∧ (poolLabFree t c.state p.toNat).2 = .ok) ∨
      (p.toNat ∈ c.stack ∧ poolLabFree t c.state p.toNat = (c.state, .doubleFree)) ∨
      (p.toNat ∉ blockStarts begin stride capacity ∧ poolLabFree t c.state p.toNat =
        (c.state, .invalidPointer)) := by
    intro p
    by_cases hblock : p.toNat ∈ blockStarts begin stride capacity
    · by_cases hstack : p.toNat ∈ c.stack
      · exact Or.inr (Or.inl ⟨hstack, h.holds.free_twice hstack⟩)
      · obtain ⟨s', hgranted, -⟩ := h.holds.free_granted hblock hstack
        exact Or.inl ⟨(h.held_iff _).mpr ⟨hblock, hstack⟩, by rw [hgranted]⟩
    · exact Or.inr (Or.inr ⟨hblock, h.holds.free_unknown p.isLt hblock⟩)
  rw [← h.blocks_eq] at hothers hfree
  refine ⟨h.holds.linked, h.holds.nodup, h.holds.freeBlocks.symm, hothers, h.holds.validate, ?_, ?_, ?_, ?_, ?_, ?_⟩
  · rw [h.alloc_eq]
    constructor
    · intro hnull x hx
      have hstack : x ∉ c.stack := by
        rw [h.stack_eq_nil hnull]
        simp
      exact (h.held_iff x).mpr ⟨h.blocks_eq ▸ hx, hstack⟩
    · intro hall
      have hempty : c.stack = [] :=
        List.eq_nil_iff_forall_not_mem.mpr fun x hx => ((hothers x).mp hx).2 (hall x ((hothers x).mp hx).1)
      rw [hempty]
      rfl
  · rw [h.alloc_eq]
    intro hne
    cases hstack : c.stack with
    | nil =>
      rw [hstack] at hne
      exact absurd rfl hne
    | cons x stack =>
      obtain ⟨hblock, hheld⟩ := (hothers x).mp (by rw [hstack]; simp)
      exact ⟨hblock, hheld, rfl⟩
  · intro p
    rcases hfree p with ⟨hp, hres⟩ | ⟨hp, hres⟩ | ⟨hp, hres⟩
    · simp [hp, hres]
    · simp [hres, ((hothers _).mp hp).2]
    · rw [h.held_iff, ← h.blocks_eq]
      simp [hres, hp]
  · intro p
    rcases hfree p with ⟨hp, hres⟩ | ⟨hp, hres⟩ | ⟨hp, hres⟩
    · simp [hp, hres]
    · simp [hres, (hothers _).mp hp]
    · simp [hres, hp]
  · intro p hblock
    rcases hfree p with ⟨hp, hres⟩ | ⟨hp, hres⟩ | ⟨hp, hres⟩
    · exact absurd ((h.held_iff _).mp hp).1 (h.blocks_eq ▸ hblock)
    · exact absurd ((hothers _).mp hp).1 hblock
    · rw [hres]
  · intro p herr
    rcases hfree p with ⟨-, hres⟩ | ⟨-, hres⟩ | ⟨-, hres⟩
    · exact absurd hres herr
    · rw [hres]
    · rw [hres]

end PoolClient.Matches

theorem PoolInside.fresh_matches {s : PoolLabState} {memory memoryBytes blockBytes blockCount : BitVec t.width}
    (h : PoolInside t s memory memoryBytes blockBytes blockCount) :
    ∃ begin stride capacity,
      (PoolClient.fresh t s memory memoryBytes blockBytes blockCount).Matches t begin stride capacity := by
  obtain ⟨stride, capacity, hinit⟩ := poolLabInit_initialized memoryBytes.isLt h.ok
  have hlower := h.lower
  have hne := hinit.memory_ne
  rw [hinit.memoryBegin] at hlower
  have hholds := hinit.holds (by omega)
  refine ⟨t.alignUpAddress memory.toNat t.alignment, stride, capacity, ?_, List.nodup_nil, fun x => ?_⟩
  · simp only [PoolClient.fresh, PoolLabState.blocks, hholds.memoryBegin, hholds.blockStride, hholds.capacity_eq]
    exact hholds
  · simp [PoolClient.fresh, PoolLabState.blocks, hholds.memoryBegin, hholds.blockStride, hholds.capacity_eq]

theorem pool_integrity (t : Target) (s : PoolLabState) (memory memoryBytes blockBytes blockCount : BitVec t.width)
    (h : PoolInside t s memory memoryBytes blockBytes blockCount) (ops : List (PoolOp t)) :
    ((PoolClient.fresh t s memory memoryBytes blockBytes blockCount).run t ops).Intact t := by
  obtain ⟨begin, stride, capacity, hfresh⟩ := h.fresh_matches
  exact (hfresh.run_matches ops).intact

def boardPool : PoolLabState where
  pool := PoolLab.cleared
  memory := fun _ => 0

theorem pool_integrity_boardPool :
    PoolInside Target.cortexM3 boardPool 0x20000000#32 256#32 20#32 4#32 ∧
      ((PoolClient.fresh Target.cortexM3 boardPool 0x20000000#32 256#32 20#32 4#32).run Target.cortexM3
        [.alloc, .write 0x20000004 7, .free 0x20000000#32]).Intact Target.cortexM3 := by
  have h : PoolInside Target.cortexM3 boardPool 0x20000000#32 256#32 20#32 4#32 :=
    ⟨by decide, by decide, by decide⟩
  exact ⟨h, pool_integrity _ _ _ _ _ _ h _⟩

end Hairtos

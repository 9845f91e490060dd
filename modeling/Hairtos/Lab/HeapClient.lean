import Hairtos.Lab.HeapState

namespace Hairtos

open Library

variable {t : Target}

inductive HeapOp (t : Target)
  | alloc (requestedBytes : BitVec t.width)
  | free (pointer : BitVec t.width)
  | write (address : Nat) (value : UInt8)

/-- `live` has the pointer and the requested size of each allocation that was returned and not freed since. -/
structure HeapClient where
  state : HeapLabState
  live : List (Nat × Nat)

def HeapClient.Owns (c : HeapClient) (address : Nat) : Prop :=
  ∃ e ∈ c.live, e.1 ≤ address ∧ address < e.1 + e.2

instance HeapClient.decidableOwns (c : HeapClient) (address : Nat) : Decidable (c.Owns address) :=
  inferInstanceAs (Decidable (∃ e ∈ c.live, e.1 ≤ address ∧ address < e.1 + e.2))

def HeapClient.step (t : Target) (c : HeapClient) : HeapOp t → Option HeapClient
  | .alloc n =>
    (heapLabAlloc t c.state n.toNat).map fun r =>
      { state := r.1, live := if r.2 = 0 then c.live else (r.2, n.toNat) :: c.live }
  | .free p =>
    (heapLabFree t c.state p.toNat).map fun r =>
      { state := r.1, live := if r.2 = .ok then c.live.filter (fun e => e.1 ≠ p.toNat) else c.live }
  | .write address value =>
    if c.Owns address then
      some { c with state := { c.state with memory := Function.update c.state.memory address value } }
    else some c

def HeapClient.run (t : Target) (c : HeapClient) (ops : List (HeapOp t)) : Option HeapClient :=
  ops.foldlM (HeapClient.step t) c

def Target.grant (t : Target) (b : Placed) : Nat × Nat := (b.address + t.headerBytes, b.requested)

structure HeapClient.Matches (t : Target) (c : HeapClient) (a : Nat) {size : Nat}
    (T : Tiling t.headerBytes t.alignment size) : Prop where
  holds : c.state.Holds t a T
  live : c.live.Perm ((used t.headerBytes a T.cells).map t.grant)

inductive HeapMove (t : Target) (before after : List Placed) : HeapOp t → Prop
  | write (address : Nat) (value : UInt8) : after = before → HeapMove t before after (.write address value)
  | refused (n : BitVec t.width) : after = before → HeapMove t before after (.alloc n)
  | granted (n : BitVec t.width) (xs ys : List Placed) (b : Placed) : before = xs ++ ys → after = xs ++ b :: ys →
      HeapMove t before after (.alloc n)
  | rejected (p : BitVec t.width) : after = before → (∀ b ∈ before, b.address + t.headerBytes ≠ p.toNat) →
      HeapMove t before after (.free p)
  | freed (p : BitVec t.width) (xs ys : List Placed) (b : Placed) : before = xs ++ b :: ys → after = xs ++ ys →
      b.address + t.headerBytes = p.toNat → HeapMove t before after (.free p)

namespace HeapClient.Matches

variable {c : HeapClient} {a size : Nat} {T : Tiling t.headerBytes t.alignment size}

theorem mem_live (h : c.Matches t a T) {e : Nat × Nat} :
    e ∈ c.live ↔ ∃ b ∈ used t.headerBytes a T.cells, t.grant b = e := by
  rw [h.live.mem_iff, List.mem_map]

theorem step_alloc (h : c.Matches t a T) (n : BitVec t.width) :
    ∃ c', ∃ T' : Tiling t.headerBytes t.alignment size, c.step t (.alloc n) = some c' ∧ c'.Matches t a T' ∧
      HeapMove t (used t.headerBytes a T.cells) (used t.headerBytes a T'.cells) (.alloc n) := by
  have hrefuse : (n.toNat = 0 ∨ 2 ^ t.width ≤ n.toNat + (t.alignment - 1) ∨
      ∀ d ∈ T.cells, ¬ d.Fits (roundUp t.alignment n.toNat)) → ∃ c', ∃ T' :
        Tiling t.headerBytes t.alignment size,
        c.step t (.alloc n) = some c' ∧ c'.Matches t a T' ∧
          HeapMove t (used t.headerBytes a T.cells) (used t.headerBytes a T'.cells) (.alloc n) := by
    intro hno
    refine ⟨⟨c.state.failedAllocation t, c.live⟩, T, ?_, ⟨h.holds.failedAllocation, h.live⟩, .refused n rfl⟩
    simp only [step, h.holds.alloc_refused n.isLt hno, Option.map_some, if_true]
  by_cases h0 : n.toNat = 0
  · exact hrefuse (Or.inl h0)
  by_cases hwrap : 2 ^ t.width ≤ n.toNat + (t.alignment - 1)
  · exact hrefuse (Or.inr (Or.inl hwrap))
  rcases exists_first_fit (roundUp t.alignment n.toNat) T.cells with hnone | ⟨pre, d, post, hcells, hfit, hpre⟩
  · exact hrefuse (Or.inr (Or.inr hnone))
  obtain ⟨s', halloc, -, hs'⟩ := h.holds.alloc_granted (by omega) (by omega) hcells hfit hpre
  obtain ⟨k, -, -, hk⟩ := T.used_cut hcells t.alignment_pos hfit t.alignment_dvd_headerBytes (dvd_roundUp _ _)
    (Nat.pos_of_ne_zero h0) (le_roundUp t.alignment_pos n.toNat) a
  have hused := T.used_of_free hcells hfit.1 a
  have hne : a + extent t.headerBytes pre + t.headerBytes ≠ 0 := by
    have := h.holds.begin_ne
    omega
  refine ⟨⟨s', (a + extent t.headerBytes pre + t.headerBytes, n.toNat) :: c.live⟩, _, ?_, ⟨hs', ?_⟩,
    .granted n _ _ _ hused hk⟩
  · simp only [step, halloc, Option.map_some, if_neg hne]
  · have hlive := h.live
    rw [hused, List.map_append] at hlive
    rw [hk, List.map_append, List.map_cons]
    exact (hlive.cons _).trans List.perm_middle.symm

theorem free_of_not_live (h : c.Matches t a T) {p : Nat}
    (hp : ∀ b ∈ used t.headerBytes a T.cells, b.address + t.headerBytes ≠ p) :
    heapLabFree t c.state p = some (c.state, .doubleFree) ∨
      heapLabFree t c.state p = some (c.state, .invalidPointer) := by
  by_cases hex : ∃ pre d post, T.cells = pre ++ d :: post ∧ p = a + extent t.headerBytes pre + t.headerBytes
  · obtain ⟨pre, d, post, hcells, rfl⟩ := hex
    refine Or.inl (h.holds.free_twice hcells ?_)
    by_contra hd
    obtain ⟨r, hr⟩ := Option.ne_none_iff_exists'.mp hd
    refine hp ⟨a + extent t.headerBytes pre, d.payload, r⟩ ?_ rfl
    rw [T.used_of_used hcells hr]
    simp
  · exact Or.inr (h.holds.free_unknown (fun pre d post hcells heq => hex ⟨pre, d, post, hcells, heq⟩))

theorem filter_grant {xs ys : List Placed} {b : Placed}
    (h : (xs ++ b :: ys).Pairwise (fun b d => b.address + (t.headerBytes + b.payload) ≤ d.address)) :
    ((xs ++ b :: ys).map t.grant).filter (fun e => e.1 ≠ b.address + t.headerBytes) = (xs ++ ys).map t.grant := by
  have hpos := t.headerBytes_pos
  obtain ⟨-, hright, hcross⟩ := List.pairwise_append.mp h
  have hbefore : ∀ d ∈ xs, d.address ≠ b.address := by
    intro d hd
    have := hcross d hd b (by simp)
    omega
  have hafter : ∀ d ∈ ys, d.address ≠ b.address := by
    intro d hd
    have := (List.pairwise_cons.mp hright).1 d hd
    omega
  rw [List.map_append, List.map_cons, List.filter_append, List.filter_cons_of_neg (by simp [Target.grant]),
    List.map_append, List.filter_eq_self.mpr ?_, List.filter_eq_self.mpr ?_]
  · intro e he
    obtain ⟨d, hd, rfl⟩ := List.mem_map.mp he
    simpa [Target.grant] using hafter d hd
  · intro e he
    obtain ⟨d, hd, rfl⟩ := List.mem_map.mp he
    simpa [Target.grant] using hbefore d hd

theorem step_free (h : c.Matches t a T) (p : BitVec t.width) :
    ∃ c', ∃ T' : Tiling t.headerBytes t.alignment size, c.step t (.free p) = some c' ∧ c'.Matches t a T' ∧
      HeapMove t (used t.headerBytes a T.cells) (used t.headerBytes a T'.cells) (.free p) := by
  by_cases hp : ∀ b ∈ used t.headerBytes a T.cells, b.address + t.headerBytes ≠ p.toNat
  · refine ⟨c, T, ?_, h, .rejected p rfl hp⟩
    rcases h.free_of_not_live hp with hfree | hfree
    · simp [step, hfree]
    · simp [step, hfree]
  · push Not at hp
    obtain ⟨b, hb, hbp⟩ := hp
    obtain ⟨pre, post, hcells, hba⟩ := (mem_used _).mp hb
    obtain ⟨s', hfree, -, hs'⟩ := h.holds.free_granted hcells (by simp)
    have hused := T.used_of_used hcells rfl a
    have hused' := T.used_free hcells t.alignment_dvd_headerBytes a
    refine ⟨⟨s', c.live.filter (fun e => e.1 ≠ p.toNat)⟩, _, ?_, ⟨hs', ?_⟩, .freed p _ _ _ hused
      hused' ?_⟩
    · rw [← hbp, hba]
      simp [step, ← hbp, hba, hfree]
    · have hpairwise := used_pairwise t.headerBytes a T.cells
      have hlive := h.live.filter (fun e => e.1 ≠ p.toNat)
      rw [hused] at hpairwise hlive
      rw [← hbp, hba] at hlive ⊢
      rw [filter_grant hpairwise] at hlive
      rw [hused']
      exact hlive
    · rw [← hbp, hba]

theorem step_write (h : c.Matches t a T) (address : Nat) (value : UInt8) :
    ∃ c', c.step t (.write address value) = some c' ∧ c'.Matches t a T := by
  by_cases howns : c.Owns address
  · refine ⟨_, if_pos howns, ?_, h.live⟩
    refine h.holds.of_tiles rfl (h.holds.blocks.congr fun b hb => Target.loadBlock_congr fun x hx hlt => ?_)
    apply Function.update_of_ne
    -- the byte lies in the payload of a cell, the header before or behind it
    rintro rfl
    obtain ⟨e, he, hle, hbelow⟩ := howns
    obtain ⟨d, hd, rfl⟩ := h.mem_live.mp he
    obtain ⟨pre, post, hcells, hda⟩ := (mem_used _).mp hd
    obtain ⟨pre', c', post', hcells', rfl⟩ := (mem_starts _).mp hb
    have hfit := (T.sound ⟨d.payload, some d.requested⟩ (by rw [hcells]; simp)).requested d.requested rfl
    have hsize := t.blockBytes_le_headerBytes
    simp only [Target.grant] at hle hbelow
    dsimp only at hfit
    obtain ⟨rfl, -, -⟩ := cell_unique t.headerBytes (z := x - a) (hcells'.symm.trans hcells) (by omega) (by omega)
      (by omega) (by dsimp only; omega)
    omega
  · exact ⟨c, if_neg howns, h⟩

theorem step_move (h : c.Matches t a T) (op : HeapOp t) :
    ∃ c', ∃ T' : Tiling t.headerBytes t.alignment size, c.step t op = some c' ∧ c'.Matches t a T' ∧
      HeapMove t (used t.headerBytes a T.cells) (used t.headerBytes a T'.cells) op := by
  cases op with
  | alloc n => exact h.step_alloc n
  | free p => exact h.step_free p
  | write address value =>
    obtain ⟨c', hstep, hc'⟩ := h.step_write address value
    exact ⟨c', T, hstep, hc', .write address value rfl⟩

theorem run_matches (h : c.Matches t a T) (ops : List (HeapOp t)) :
    ∃ c', ∃ T' : Tiling t.headerBytes t.alignment size, c.run t ops = some c' ∧ c'.Matches t a T' := by
  induction ops generalizing c T with
  | nil => exact ⟨c, T, rfl, h⟩
  | cons op ops ih =>
    obtain ⟨c₁, T₁, hstep, h₁, -⟩ := h.step_move op
    obtain ⟨c', T', hrun, h'⟩ := ih h₁
    refine ⟨c', T', ?_, h'⟩
    rw [run, List.foldlM_cons, hstep]
    exact hrun

end HeapClient.Matches

end Hairtos

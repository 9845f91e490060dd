import Hairtos.Lab.HeapClient

namespace Hairtos

open Library

variable {t : Target}

def HeapClient.fresh (t : Target) (s : HeapLabState) (memory memoryBytes : BitVec t.width) : HeapClient where
  state := (heapLabInit t s memory.toNat memoryBytes.toNat).1
  live := []

structure HeapInside (t : Target) (s : HeapLabState) (memory memoryBytes : BitVec t.width) : Prop where
  ok : (heapLabInit t s memory.toNat memoryBytes.toNat).2 = .ok
  lower : memory.toNat ≤ (heapLabInit t s memory.toNat memoryBytes.toNat).1.heap.arenaBegin
  upper : (heapLabInit t s memory.toNat memoryBytes.toNat).1.heap.arenaEnd ≤ memory.toNat + memoryBytes.toNat

theorem HeapInside.fresh_matches {s : HeapLabState} {memory memoryBytes : BitVec t.width}
    (h : HeapInside t s memory memoryBytes) :
    ∃ size, ∃ T : Tiling t.headerBytes t.alignment size,
      (HeapClient.fresh t s memory memoryBytes).Matches t
        (HeapClient.fresh t s memory memoryBytes).state.heap.arenaBegin T ∧
      T.cells = [⟨size - t.headerBytes, none⟩] := by
  have hinit := heapLabInit_initialized memoryBytes.isLt h.ok
  have hne := hinit.memory_ne
  have hlower := h.lower
  have hbegin : (HeapClient.fresh t s memory memoryBytes).state.heap.arenaBegin ≠ 0 := by
    simp only [HeapClient.fresh]
    omega
  exact ⟨_, _, ⟨⟨hinit.laid, hbegin⟩, List.Perm.refl _⟩, rfl⟩

structure HeapClient.Intact (t : Target) (c : HeapClient) : Prop where
  valid : heapLabValidate t c.state = some true
  tiled : ∃ cells, Tiles t c.state.memory 0 c.state.heap.arenaBegin cells 0 ∧
    c.state.heap.arenaBegin + extent c.state.heap.headerBytes cells = c.state.heap.arenaEnd ∧
    (∀ d ∈ cells, d.Sound c.state.heap.alignment) ∧ Normal cells
  aligned : ∀ e ∈ c.live, t.alignment ∣ e.1
  apart : c.live.Pairwise fun e d => e.1 + e.2 ≤ d.1 ∨ d.1 + d.2 ≤ e.1
  inside : ∀ e ∈ c.live, c.state.heap.arenaBegin ≤ e.1 ∧ e.1 + e.2 ≤ c.state.heap.arenaEnd
  headers : ∃ blocks, heapLabBlocks t c.state = some blocks ∧
    ∀ b ∈ blocks, ∀ e ∈ c.live, e.1 + e.2 ≤ b.1 ∨ b.1 + c.state.heap.headerBytes ≤ e.1
  counted : ∃ stats, heapLabGetStats t c.state = some (.ok stats) ∧
    stats.managedBytes = c.state.heap.headerBytes * (stats.allocatedBlocks + stats.freeBlocks) +
      stats.allocatedPayloadBytes + stats.freePayloadBytes ∧
    stats.internalFragmentationBytes + stats.requestedBytes = stats.allocatedPayloadBytes ∧
    stats.externalFragmentationBytes + stats.largestFreeBlockBytes = stats.freePayloadBytes

structure HeapClient.Keeps (t : Target) (c : HeapClient) (op : HeapOp t) (c' : HeapClient) : Prop where
  held : ∀ e ∈ c.live, (∀ p, op = .free p → p.toNat ≠ e.1) → e ∈ c'.live ∧
    (t.loadBlock c'.state.memory (e.1 - c'.state.heap.headerBytes)).payloadBytes =
      (t.loadBlock c.state.memory (e.1 - c.state.heap.headerBytes)).payloadBytes
  rejected : ∀ p, op = .free p → (∀ e ∈ c.live, e.1 ≠ p.toNat) →
    c' = c ∧ ∃ status, status ≠ .ok ∧ heapLabFree t c.state p.toNat = some (c.state, status)

theorem HeapMove.keeps {before after : List Placed} {op : HeapOp t} (h : HeapMove t before after op) {b : Placed}
    (hb : b ∈ before) (hop : ∀ p, op = .free p → p.toNat ≠ b.address + t.headerBytes) : b ∈ after := by
  cases h with
  | write _ _ h => exact h ▸ hb
  | refused _ h => exact h ▸ hb
  | granted _ xs ys d h h' =>
    subst h h'
    simp only [List.mem_append, List.mem_cons] at hb ⊢
    tauto
  | rejected _ h _ => exact h ▸ hb
  | freed p xs ys d h h' hd =>
    subst h h'
    have hne : b ≠ d := by
      rintro rfl
      exact hop p rfl hd.symm
    simp only [List.mem_append, List.mem_cons] at hb ⊢
    tauto

namespace HeapClient.Matches

variable {c : HeapClient} {a size : Nat} {T : Tiling t.headerBytes t.alignment size}

theorem requested_le (_ : c.Matches t a T) {b : Placed} (hb : b ∈ used t.headerBytes a T.cells) :
    b.requested ≤ b.payload := by
  obtain ⟨pre, post, hcells, -⟩ := (mem_used _).mp hb
  exact ((T.sound ⟨b.payload, some b.requested⟩ (by rw [hcells]; simp)).requested b.requested rfl).2

theorem aligned (h : c.Matches t a T) {pre post : List Cell} {d : Cell} (hcells : T.cells = pre ++ d :: post) :
    t.alignment ∣ a + extent t.headerBytes pre := by
  have hsound : ∀ d ∈ pre, d.Sound t.alignment := fun d hd => T.sound d (by rw [hcells]; simp [hd])
  refine Nat.dvd_add h.holds.begin_dvd ?_
  clear hcells
  induction pre with
  | nil => simp
  | cons e pre ih =>
    rw [extent_cons]
    obtain ⟨he, hpre⟩ := List.forall_mem_cons.mp hsound
    exact Nat.dvd_add (Nat.dvd_add t.alignment_dvd_headerBytes he.dvd) (ih hpre)

theorem intact (h : c.Matches t a T) : c.Intact t := by
  have hend := h.holds.arenaEnd
  have hbegin := h.holds.arenaBegin
  refine ⟨h.holds.validate, ⟨T.cells, ?_, ?_, ?_, T.normal⟩, ?_, ?_, ?_, ⟨_, h.holds.blocks_eq, ?_⟩, ?_⟩
  · rw [hbegin]
    exact h.holds.blocks
  · rw [hbegin, hend, h.holds.headerBytes, T.extent_eq]
  · rw [h.holds.alignment]
    exact T.sound
  · intro e he
    obtain ⟨b, hb, rfl⟩ := h.mem_live.mp he
    obtain ⟨pre, post, hcells, hba⟩ := (mem_used _).mp hb
    simp only [Target.grant, hba]
    exact Nat.dvd_add (h.aligned hcells) t.alignment_dvd_headerBytes
  · have hpair : ((used t.headerBytes a T.cells).map t.grant).Pairwise
        fun e d => e.1 + e.2 ≤ d.1 ∨ d.1 + d.2 ≤ e.1 := by
      rw [List.pairwise_map]
      refine (used_pairwise t.headerBytes a T.cells).imp_of_mem ?_
      intro b d hb _ hbd
      have := h.requested_le hb
      simp only [Target.grant]
      omega
    exact (h.live.pairwise_iff (fun h => Or.symm h)).mpr hpair
  · intro e he
    obtain ⟨b, hb, rfl⟩ := h.mem_live.mp he
    have hbounds := used_bounds t.headerBytes hb
    have hreq := h.requested_le hb
    rw [T.extent_eq] at hbounds
    simp only [Target.grant, hbegin, hend]
    omega
  · intro b hb e he
    obtain ⟨x, hx, rfl⟩ := List.mem_map.mp hb
    obtain ⟨d, hd, rfl⟩ := h.mem_live.mp he
    obtain ⟨pre, f, post, hcells, rfl⟩ := (mem_starts _).mp hx
    obtain ⟨pre', post', hcells', hda⟩ := (mem_used _).mp hd
    have hreq := h.requested_le hd
    have hpos := t.headerBytes_pos
    simp only [Target.grant, h.holds.headerBytes]
    by_contra hcon
    -- a header that reached into the payload would start inside the cell
    obtain ⟨rfl, -, -⟩ := cell_unique t.headerBytes (z := extent t.headerBytes pre) (hcells.symm.trans hcells')
      (le_refl _) (by omega) (by omega) (by dsimp only; omega)
    omega
  · obtain ⟨stats, hstats, hmanaged, hsums, hext⟩ := h.holds.getStats
    refine ⟨stats, hstats, ?_, hsums.requested, hext⟩
    rw [hmanaged, h.holds.headerBytes, hsums.bytes]

theorem step_keeps (h : c.Matches t a T) (op : HeapOp t) :
    ∃ c', ∃ T' : Tiling t.headerBytes t.alignment size, c.step t op = some c' ∧ c'.Matches t a T' ∧
      c.Keeps t op c' := by
  obtain ⟨c', T', hstep, h', hmove⟩ := h.step_move op
  refine ⟨c', T', hstep, h', ?_, ?_⟩
  · intro e he hop
    obtain ⟨b, hb, rfl⟩ := h.mem_live.mp he
    have hb' := hmove.keeps hb hop
    refine ⟨h'.mem_live.mpr ⟨b, hb', rfl⟩, ?_⟩
    rw [h'.holds.headerBytes, h.holds.headerBytes]
    simp only [Target.grant, Nat.add_sub_cancel]
    rw [h'.holds.payload_of_used hb', h.holds.payload_of_used hb]
  · rintro p rfl hp
    have hnot : ∀ b ∈ used t.headerBytes a T.cells, b.address + t.headerBytes ≠ p.toNat :=
      fun b hb => hp (t.grant b) (h.mem_live.mpr ⟨b, hb, rfl⟩)
    rcases h.free_of_not_live hnot with hfree | hfree
    · simp only [step, hfree, Option.map_some] at hstep
      exact ⟨(Option.some.inj hstep).symm, .doubleFree, by decide, hfree⟩
    · simp only [step, hfree, Option.map_some] at hstep
      exact ⟨(Option.some.inj hstep).symm, .invalidPointer, by decide, hfree⟩

end HeapClient.Matches

theorem heap_integrity (t : Target) (s : HeapLabState) (memory memoryBytes : BitVec t.width)
    (h : HeapInside t s memory memoryBytes) (ops : List (HeapOp t)) :
    ∃ c, (HeapClient.fresh t s memory memoryBytes).run t ops = some c ∧ c.Intact t ∧
      (memory.toNat ≤ c.state.heap.arenaBegin ∧ c.state.heap.arenaEnd ≤ memory.toNat + memoryBytes.toNat) ∧
      ∀ op, ∃ c', c.step t op = some c' ∧ c.Keeps t op c' := by
  obtain ⟨size, T, hfresh, -⟩ := h.fresh_matches
  obtain ⟨c, T', hrun, hc⟩ := hfresh.run_matches ops
  refine ⟨c, hrun, hc.intact, ⟨?_, ?_⟩, fun op => ?_⟩
  · rw [hc.holds.arenaBegin]
    exact h.lower
  · rw [hc.holds.arenaEnd, ← hfresh.holds.arenaEnd]
    exact h.upper
  · obtain ⟨c', -, hstep, -, hkeeps⟩ := hc.step_keeps op
    exact ⟨c', hstep, hkeeps⟩

def boardHeap : HeapLabState where
  heap := HeapLab.cleared
  memory := fun _ => 0

theorem heap_integrity_boardHeap :
    HeapInside Target.cortexM3 boardHeap 0x20000000#32 256#32 ∧
      ∃ c, (HeapClient.fresh Target.cortexM3 boardHeap 0x20000000#32 256#32).run Target.cortexM3
        [.alloc 20#32, .write 0x20000018 7, .alloc 200#32, .free 0x20000018#32, .free 0x20000018#32] = some c ∧
        c.Intact Target.cortexM3 := by
  have h : HeapInside Target.cortexM3 boardHeap 0x20000000#32 256#32 := ⟨by decide, by decide, by decide⟩
  obtain ⟨c, hrun, hintact, -⟩ := heap_integrity Target.cortexM3 boardHeap 0x20000000#32 256#32 h
    [.alloc 20#32, .write 0x20000018 7, .alloc 200#32, .free 0x20000018#32, .free 0x20000018#32]
  exact ⟨h, c, hrun, hintact⟩

theorem HeapClient.run_uninitialized {c : HeapClient} (hinit : c.state.heap.isInitialized = false) (hlive : c.live = [])
    (ops : List (HeapOp t)) : c.run t ops = some c := by
  obtain ⟨s, live⟩ := c
  dsimp only at hinit hlive
  subst hlive
  have hstep : ∀ op : HeapOp t, HeapClient.step t ⟨s, []⟩ op = some ⟨s, []⟩ := by
    intro op
    cases op with
    | alloc n => simp [step, heapLabAlloc, hinit]
    | free p => simp [step, heapLabFree, hinit]
    | write address value => simp [step, Owns]
  induction ops with
  | nil => rfl
  | cons op ops ih =>
    rw [run, List.foldlM_cons, hstep]
    exact ih

structure HeapClient.Tracks (t : Target) (c : HeapClient) (a : Nat) {size : Nat}
    (T : Tiling t.headerBytes t.alignment size) : Prop where
  laid : c.state.Laid t a T
  live : c.live.Perm ((used t.headerBytes a T.cells).map t.grant)
  idle : a = 0 → c.live = []

theorem HeapClient.Tracks.run_tracks {c : HeapClient} {a size : Nat} {T : Tiling t.headerBytes t.alignment size}
    (h : c.Tracks t a T) (ops : List (HeapOp t)) :
    ∃ c', ∃ T' : Tiling t.headerBytes t.alignment size, c.run t ops = some c' ∧ c'.Tracks t a T' := by
  by_cases ha : a = 0
  · have hinit : c.state.heap.isInitialized = false := by
      simp [HeapLab.isInitialized, h.laid.arenaBegin, ha]
    exact ⟨c, T, c.run_uninitialized hinit (h.idle ha) ops, h⟩
  · obtain ⟨c', T', hrun, h'⟩ := HeapClient.Matches.run_matches (T := T) ⟨⟨h.laid, ha⟩, h.live⟩ ops
    exact ⟨c', T', hrun, h'.holds.toLaid, h'.live, fun h0 => absurd h0 ha⟩

theorem fresh_tracks (s : HeapLabState) (memory memoryBytes : BitVec t.width)
    (h : (heapLabInit t s memory.toNat memoryBytes.toNat).2 = .ok) :
    ∃ size, ∃ T : Tiling t.headerBytes t.alignment size,
      (HeapClient.fresh t s memory memoryBytes).Tracks t
        (HeapClient.fresh t s memory memoryBytes).state.heap.arenaBegin T ∧
          T.cells = [⟨size - t.headerBytes, none⟩] :=
  ⟨_, _, ⟨(heapLabInit_initialized memoryBytes.isLt h).laid, List.Perm.refl _, fun _ => rfl⟩, rfl⟩

theorem HeapClient.Matches.free_all {c : HeapClient} {a size : Nat} {T : Tiling t.headerBytes t.alignment size}
    (h : c.Matches t a T) {ps : List (BitVec t.width)} (hps : (ps.map BitVec.toNat).Perm (c.live.map Prod.fst)) :
    ∃ c', ∃ T' : Tiling t.headerBytes t.alignment size, c.run t (ps.map .free) = some c' ∧ c'.Matches t a T' ∧
      c'.live = [] := by
  induction ps generalizing c T with
  | nil => exact ⟨c, T, rfl, h, List.map_eq_nil_iff.mp hps.symm.eq_nil⟩
  | cons p ps ih =>
    obtain ⟨c₁, T₁, hstep, h₁, hmove⟩ := h.step_move (.free p)
    have hlive := h.live.map Prod.fst
    have hlive₁ := h₁.live.map Prod.fst
    rw [List.map_map] at hlive hlive₁
    have hps₁ : (ps.map BitVec.toNat).Perm (c₁.live.map Prod.fst) := by
      cases hmove with
      | rejected _ _ hnone =>
        have hp : p.toNat ∈ c.live.map Prod.fst := hps.subset (by simp)
        obtain ⟨b, hb, hbp⟩ := List.mem_map.mp (hlive.subset hp)
        exact absurd hbp (hnone b hb)
      | freed _ xs ys b hbefore hafter hb =>
        rw [hbefore] at hlive
        rw [hafter] at hlive₁
        have hall := hps.trans hlive
        rw [List.map_append, List.map_cons, List.map_cons] at hall
        have hhead : (Prod.fst ∘ t.grant) b = p.toNat := hb
        rw [hhead] at hall
        refine ((List.perm_cons _).mp (hall.trans List.perm_middle)).trans ?_
        rw [← List.map_append]
        exact hlive₁.symm
    obtain ⟨c', T', hrun, h', hnil⟩ := ih h₁ hps₁
    refine ⟨c', T', ?_, h', hnil⟩
    rw [List.map_cons, run, List.foldlM_cons, hstep]
    exact hrun

theorem HeapClient.Tracks.free_all {c : HeapClient} {a size : Nat} {T : Tiling t.headerBytes t.alignment size}
    (h : c.Tracks t a T) {ps : List (BitVec t.width)} (hps : (ps.map BitVec.toNat).Perm (c.live.map Prod.fst)) :
    ∃ c', ∃ T' : Tiling t.headerBytes t.alignment size, c.run t (ps.map .free) = some c' ∧ c'.Tracks t a T' ∧
      c'.live = [] := by
  by_cases ha : a = 0
  · obtain ⟨c', T', hrun, hc'⟩ := h.run_tracks (ps.map .free)
    exact ⟨c', T', hrun, hc', hc'.idle ha⟩
  · obtain ⟨c', T', hrun, hc', hnil⟩ := HeapClient.Matches.free_all (T := T) ⟨⟨h.laid, ha⟩, h.live⟩ hps
    exact ⟨c', T', hrun, ⟨hc'.holds.toLaid, hc'.live, fun h0 => absurd h0 ha⟩, hnil⟩

theorem HeapClient.Tracks.used_eq_nil {c : HeapClient} {a size : Nat} {T : Tiling t.headerBytes t.alignment size}
    (h : c.Tracks t a T) (hnil : c.live = []) : used t.headerBytes a T.cells = [] := by
  have hlive := h.live
  rw [hnil] at hlive
  exact List.map_eq_nil_iff.mp hlive.symm.eq_nil

def HeapLabState.LiveBlock (t : Target) (s : HeapLabState) (x n r : Nat) : Prop :=
  ∃ b, s.HasBlock t x b ∧ b.isFree = false ∧ b.payloadBytes = n ∧ b.requestedBytes = r

/-- Freeing everything in any order restores the block of the initialisation, and the blocks in use determine
all blocks. -/
theorem heap_restored (t : Target) (s : HeapLabState) (memory memoryBytes : BitVec t.width)
    (h : (heapLabInit t s memory.toNat memoryBytes.toNat).2 = .ok) (ops : List (HeapOp t)) :
    ∃ c, (HeapClient.fresh t s memory memoryBytes).run t ops = some c ∧
      (∀ ps : List (BitVec t.width), (ps.map BitVec.toNat).Perm (c.live.map Prod.fst) →
        ∃ c', c.run t (ps.map .free) = some c' ∧ c'.live = [] ∧
          heapLabBlocks t c'.state = heapLabBlocks t (HeapClient.fresh t s memory memoryBytes).state ∧
          heapLabBlocks t c'.state = some [(c'.state.heap.arenaBegin,
            { payloadBytes := c'.state.heap.managedBytes - c'.state.heap.headerBytes, requestedBytes := 0,
              previous := 0, next := 0, magic := heapBlockMagic, isFree := true })]) ∧
      (∀ ops' c₂, (HeapClient.fresh t s memory memoryBytes).run t ops' = some c₂ →
        (∀ x n r, c.state.LiveBlock t x n r ↔ c₂.state.LiveBlock t x n r) →
        heapLabBlocks t c.state = heapLabBlocks t c₂.state) ∧
      ∀ x y, c.state.Region t x y ↔
        ∃ b, c.state.HasBlock t x b ∧ b.isFree = true ∧ y = x + (c.state.heap.headerBytes + b.payloadBytes) := by
  obtain ⟨size, T₀, hfresh, hcells⟩ := fresh_tracks s memory memoryBytes h
  obtain ⟨c, T, hrun, hc⟩ := hfresh.run_tracks ops
  refine ⟨c, hrun, ?_, ?_, fun x y => hc.laid.region_iff⟩
  · intro ps hps
    obtain ⟨c', T', hrun', hc', hnil⟩ := hc.free_all hps
    have hsame : heapLabBlocks t c'.state = heapLabBlocks t (HeapClient.fresh t s memory memoryBytes).state := by
      refine hc'.laid.blocks_eq_of_used hfresh.laid (fun b => ?_)
      rw [hc'.used_eq_nil hnil, hcells]
      rfl
    refine ⟨c', hrun', hnil, hsame, ?_⟩
    rw [hsame, hfresh.laid.blocks_eq, hfresh.laid.blocks.cellBlocks_eq, hcells, hc'.laid.arenaBegin,
      hc'.laid.managedBytes, hc'.laid.headerBytes]
    rfl
  · intro ops' c₂ hrun₂ hsame
    obtain ⟨c₃, T₂, hrun₃, hc₂⟩ := hfresh.run_tracks ops'
    obtain rfl := Option.some.inj (hrun₂.symm.trans hrun₃)
    refine hc.laid.blocks_eq_of_used hc₂.laid (fun b => ?_)
    exact hc.laid.used_iff.symm.trans ((hsame b.address b.payload b.requested).trans hc₂.laid.used_iff)

theorem heap_restored_boardHeap :
    (heapLabInit Target.cortexM3 boardHeap 0x20000000 256).2 = .ok ∧
      ∃ c, (HeapClient.fresh Target.cortexM3 boardHeap 0x20000000#32 256#32).run Target.cortexM3
        [.alloc 20#32, .alloc 40#32, .alloc 8#32, .free 0x20000048#32] = some c ∧
        ∀ x y, c.state.Region Target.cortexM3 x y ↔ ∃ b, c.state.HasBlock Target.cortexM3 x b ∧
          b.isFree = true ∧
          y = x + (c.state.heap.headerBytes + b.payloadBytes) := by
  have h : (heapLabInit Target.cortexM3 boardHeap 0x20000000 256).2 = .ok := by decide
  obtain ⟨c, hrun, -, -, hregion⟩ := heap_restored Target.cortexM3 boardHeap 0x20000000#32 256#32 h
    [.alloc 20#32, .alloc 40#32, .alloc 8#32, .free 0x20000048#32]
  exact ⟨h, c, hrun, hregion⟩

structure AllocExact (t : Target) (s : HeapLabState) (n : BitVec t.width) (s' : HeapLabState) (p : Nat) : Prop where
  call : heapLabAlloc t s n.toNat = some (s', p)
  null_iff : p = 0 ↔ n.toNat = 0 ∨ 2 ^ t.width ≤ roundUp t.alignment n.toNat ∨
    ∀ x y, s.Region t x y → y - x - s.heap.headerBytes < roundUp t.alignment n.toNat
  failed : p = 0 → s' = s.failedAllocation t
  lowest : p ≠ 0 → ∃ x b, p = x + s.heap.headerBytes ∧ s.HasBlock t x b ∧ b.isFree = true ∧
    roundUp t.alignment n.toNat ≤ b.payloadBytes ∧
    (∀ x' b', s.HasBlock t x' b' → b'.isFree = true → roundUp t.alignment n.toNat ≤ b'.payloadBytes →
      x ≤ x') ∧
    n.toNat ≤ (t.loadBlock s'.memory x).payloadBytes ∧
    (t.loadBlock s'.memory x).payloadBytes < roundUp t.alignment n.toNat + (s.heap.headerBytes + t.alignment)

theorem HeapLabState.Holds.alloc_exact {s : HeapLabState} {a size : Nat} {T : Tiling t.headerBytes t.alignment size}
    (h : s.Holds t a T) (n : BitVec t.width) : ∃ s' p, AllocExact t s n s' p := by
  have hpos := t.headerBytes_pos
  by_cases hno : n.toNat = 0 ∨ 2 ^ t.width ≤ n.toNat + (t.alignment - 1) ∨
      ∀ d ∈ T.cells, ¬ d.Fits (roundUp t.alignment n.toNat)
  · refine ⟨_, 0, h.alloc_refused n.isLt hno, iff_of_true rfl ?_, fun _ => rfl, fun hne => absurd rfl hne⟩
    rcases hno with h0 | hwrap | hnone
    · exact Or.inl h0
    · exact Or.inr (Or.inl ((Target.le_roundUp_iff _).mpr hwrap))
    · refine Or.inr (Or.inr (fun x y hxy => ?_))
      obtain ⟨b, hb, hfree, rfl⟩ := h.region_iff.mp hxy
      obtain ⟨pre, post, hcells, -⟩ := h.free_iff.mp ⟨b, hb, hfree, rfl⟩
      have hfit := hnone ⟨b.payloadBytes, none⟩ (by rw [hcells]; simp)
      have hlt : b.payloadBytes < roundUp t.alignment n.toNat := by
        by_contra hge
        exact hfit ⟨rfl, Nat.not_lt.mp hge⟩
      omega
  · push Not at hno
    obtain ⟨h0, hwrap, d, hd, hfits⟩ := hno
    obtain ⟨pre, c, post, hcells, hfit, hpre⟩ :=
      (exists_first_fit (roundUp t.alignment n.toNat) T.cells).resolve_left (fun hnone => hnone d hd hfits)
    obtain ⟨s', halloc, hheap, hs'⟩ := h.alloc_granted (Nat.pos_of_ne_zero h0) hwrap hcells hfit hpre
    obtain ⟨m, req⟩ := c
    obtain rfl : req = none := hfit.1
    have hfitle : roundUp t.alignment n.toNat ≤ m := hfit.2
    obtain ⟨b, hb, hfree, hbm⟩ := h.free_iff.mpr ⟨pre, post, hcells, rfl⟩
    refine ⟨s', _, halloc, iff_of_false (by have := h.begin_ne; omega) ?_, fun h0 => ?_, fun _ => ?_⟩
    · rintro (h0' | hwrap' | hregion)
      · exact h0 h0'
      · exact absurd ((Target.le_roundUp_iff _).mp hwrap') (by omega)
      · have := hregion _ _ (h.region_iff.mpr ⟨b, hb, hfree, rfl⟩)
        rw [hbm, h.headerBytes] at this
        omega
    · have := h.begin_ne
      omega
    · obtain ⟨k, hle, hlt, hused⟩ := T.used_cut hcells t.alignment_pos hfit t.alignment_dvd_headerBytes
        (dvd_roundUp _ _) (Nat.pos_of_ne_zero h0) (le_roundUp t.alignment_pos n.toNat) a
      have hk : (t.loadBlock s'.memory (a + extent t.headerBytes pre)).payloadBytes = k :=
        hs'.payload_of_used (b := ⟨a + extent t.headerBytes pre, k, n.toNat⟩) (by rw [hused]; simp)
      have hround := le_roundUp t.alignment_pos n.toNat
      refine ⟨_, b, by rw [h.headerBytes], hb, hfree, by omega, ?_, by omega, by rw [h.headerBytes]; omega⟩
      intro x' b' hb' hfree' hfits'
      obtain ⟨pre', post', hcells', rfl⟩ := h.free_iff.mp ⟨b', hb', hfree', rfl⟩
      by_contra hlt'
      exact hpre _ (mem_of_extent_lt t.headerBytes (hcells.symm.trans hcells') (by omega)) ⟨rfl, hfits'⟩

theorem HeapClient.Tracks.alloc_inexact {c : HeapClient} {a size : Nat} {T : Tiling t.headerBytes t.alignment size}
    (h : c.Tracks t a T) (ha : a = 0) : ¬ ∃ s' p, AllocExact t c.state 1#t.width s' p := by
  rintro ⟨s', p, hexact⟩
  have hpos := t.alignment_pos
  have hlt := t.alignment_lt
  have hone : (1#t.width).toNat = 1 := by
    rw [BitVec.toNat_ofNat]
    exact Nat.mod_eq_of_lt (by omega)
  have hround := roundUp_lt hpos 1
  have hinit : c.state.heap.isInitialized = false := by
    simp [HeapLab.isInitialized, h.laid.arenaBegin, ha]
  have hnull : p = 0 := by
    have := hexact.call
    simp only [heapLabAlloc, hinit, if_true, Option.some.injEq, Prod.mk.injEq] at this
    exact this.2.symm
  have hnil := h.used_eq_nil (h.idle ha)
  obtain ⟨⟨n, req⟩, cells, hcells⟩ := List.exists_cons_of_ne_nil h.laid.cells_ne
  have hfree : req = none := by
    by_contra hne
    obtain ⟨r, rfl⟩ := Option.ne_none_iff_exists'.mp hne
    simp [hcells, used] at hnil
  subst hfree
  have hn : t.alignment ≤ n := (T.sound ⟨n, none⟩ (by rw [hcells]; simp)).pos
  obtain ⟨b, hb, hbfree, rfl⟩ := h.laid.free_iff.mpr ⟨[], cells, hcells, rfl⟩
  rcases hexact.null_iff.mp hnull with h0 | hwrap | hregion
  · omega
  · rw [hone] at hwrap
    omega
  · have := hregion _ _ (h.laid.region_iff.mpr ⟨b, hb, hbfree, rfl⟩)
    rw [hone] at this
    omega

/-- Allocation is exact on every run precisely if the initialisation did not wrap around the address space: a
heap whose arena begins at address 0 refuses every allocation. -/
theorem alloc_exact_iff (t : Target) (s : HeapLabState) (memory memoryBytes : BitVec t.width)
    (h : (heapLabInit t s memory.toNat memoryBytes.toNat).2 = .ok) (ops : List (HeapOp t)) :
    ∃ c, (HeapClient.fresh t s memory memoryBytes).run t ops = some c ∧
      ((∀ n : BitVec t.width, ∃ s' p, AllocExact t c.state n s' p) ↔
        memory.toNat + (t.alignment - 1) < 2 ^ t.width) := by
  obtain ⟨size, T₀, hfresh, hcells⟩ := fresh_tracks s memory memoryBytes h
  obtain ⟨c, T, hrun, hc⟩ := hfresh.run_tracks ops
  have hinit := heapLabInit_initialized memoryBytes.isLt h
  have hbegin : (HeapClient.fresh t s memory memoryBytes).state.heap.arenaBegin =
      t.alignUpAddress memory.toNat t.alignment := by
    rw [HeapClient.fresh, hinit.state]
  refine ⟨c, hrun, ⟨fun hexact => ?_, fun hfits n => ?_⟩⟩
  · by_contra hwrap
    refine hc.alloc_inexact ?_ (hexact _)
    rw [hbegin]
    simp only [Target.alignUpAddress, Target.mask_eq]
    exact Target.add_and_complement_of_wrap memory.isLt (by omega)
  · have hne : t.alignUpAddress memory.toNat t.alignment ≠ 0 := by
      have := le_roundUp t.alignment_pos memory.toNat
      have := hinit.memory_ne
      simp only [Target.alignUpAddress, Target.mask_eq]
      rw [Target.add_and_complement hfits]
      omega
    exact HeapLabState.Holds.alloc_exact ⟨hc.laid, by rw [hbegin]; exact hne⟩ n

theorem alloc_exact_iff_boardHeap :
    (heapLabInit Target.cortexM3 boardHeap 0x20000000 256).2 = .ok ∧
      ∃ c, (HeapClient.fresh Target.cortexM3 boardHeap 0x20000000#32 256#32).run Target.cortexM3
        [.alloc 20#32, .free 0x20000018#32] = some c ∧
        ((∀ n : BitVec Target.cortexM3.width, ∃ s' p, AllocExact Target.cortexM3 c.state n s' p) ↔
          (0x20000000#32).toNat + (Target.cortexM3.alignment - 1) < 2 ^ Target.cortexM3.width) :=
  ⟨by decide, alloc_exact_iff Target.cortexM3 boardHeap 0x20000000#32 256#32 (by decide) _⟩

/-- Six bytes at the end of the address space are accepted as a heap that begins at address 0. -/
theorem alloc_refused_after_wrap :
    (heapLabInit Target.cortexM3 boardHeap 0xFFFFFFF9 6).2 = .ok ∧
      (heapLabInit Target.cortexM3 boardHeap 0xFFFFFFF9 6).1.heap.arenaBegin = 0 ∧
      ¬ ∃ s' p, AllocExact Target.cortexM3
        (HeapClient.fresh Target.cortexM3 boardHeap 0xFFFFFFF9#32 6#32).state 1#32 s' p := by
  have hok : (heapLabInit Target.cortexM3 boardHeap 0xFFFFFFF9 6).2 = .ok := by decide
  have hzero : (heapLabInit Target.cortexM3 boardHeap 0xFFFFFFF9 6).1.heap.arenaBegin = 0 := by decide
  obtain ⟨size, T, htracks, -⟩ :=
    fresh_tracks (t := Target.cortexM3) boardHeap 0xFFFFFFF9#32 6#32 hok
  exact ⟨hok, hzero, htracks.alloc_inexact hzero⟩

end Hairtos

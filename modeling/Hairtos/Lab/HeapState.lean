import Hairtos.Lab.HeapBlocks

namespace Hairtos

open Library

variable {s' : HeapLabState} {pre post cells : List Cell} {c : Cell} {r previous visited x : Nat}

variable {t : Target}

structure HeapLabState.Laid (t : Target) (s : HeapLabState) (a : Nat) {size : Nat}
    (T : Tiling t.headerBytes t.alignment size) : Prop where
  magic : s.heap.magic = heapLabMagic
  arenaBegin : s.heap.arenaBegin = a
  arenaEnd : s.heap.arenaEnd = a + size
  firstBlock : s.heap.firstBlock = a
  alignment : s.heap.alignment = t.alignment
  headerBytes : s.heap.headerBytes = t.headerBytes
  managedBytes : s.heap.managedBytes = size
  begin_dvd : t.alignment ∣ a
  size_pos : 0 < size
  end_lt : a + size < 2 ^ t.width
  blocks : Tiles t s.memory 0 a T.cells 0

structure HeapLabState.Holds (t : Target) (s : HeapLabState) (a : Nat) {size : Nat}
    (T : Tiling t.headerBytes t.alignment size) : Prop extends s.Laid t a T where
  begin_ne : a ≠ 0

theorem Target.alignUpSize_eq {value : Nat} (h : value < 2 ^ t.width) :
    t.alignUpSize value t.alignment =
      if value + (t.alignment - 1) < 2 ^ t.width then some (roundUp t.alignment value) else none := by
  have hpos := t.alignment_pos
  have hlt := t.alignment_lt
  have hmask : t.alignment &&& (t.alignment - 1) = 0 := by
    rw [Target.alignment, Nat.and_two_pow_sub_one_eq_mod, Nat.mod_self]
  have hover : t.sizeAddOverflows value (t.alignment - 1) = true ↔ ¬ value + (t.alignment - 1) < 2 ^ t.width := by
    rw [Target.sizeAddOverflows, Target.sizeMax, Target.sub_eq (by omega) (by omega), decide_eq_true_iff]
    omega
  simp only [Target.alignUpSize, Target.mask_eq]
  rw [if_neg (by rintro (h0 | h0) <;> omega)]
  by_cases hwrap : value + (t.alignment - 1) < 2 ^ t.width
  · rw [if_neg (by rw [hover]; exact not_not.mpr hwrap), if_pos hwrap, Target.add_and_complement hwrap]
  · rw [if_pos (hover.mpr hwrap), if_neg hwrap]

theorem Target.alignUpSize_blockBytes : t.alignUpSize t.blockBytes t.alignment = some t.headerBytes := by
  have hfit := t.block_fits
  have hpos := t.alignment_pos
  simp only [Target.alignment] at hpos
  rw [Target.alignUpSize_eq (by omega), if_pos (by simp only [Target.alignment]; omega)]
  rfl

structure HeapLabInitialized (t : Target) (s : HeapLabState) (memory memoryBytes : Nat) (s' : HeapLabState) : Prop where
  memory_ne : memory ≠ 0
  memoryBytes_ne : memoryBytes ≠ 0
  end_lt : memory + memoryBytes < 2 ^ t.width
  begin_lt : t.alignUpAddress memory t.alignment < memory + memoryBytes
  room : t.headerBytes + t.alignment ≤
    (memory + memoryBytes - t.alignUpAddress memory t.alignment) / t.alignment * t.alignment
  state : s' =
    { heap := { HeapLab.cleared with
        arenaBegin := t.alignUpAddress memory t.alignment
        arenaEnd := t.alignUpAddress memory t.alignment +
          (memory + memoryBytes - t.alignUpAddress memory t.alignment) / t.alignment * t.alignment
        firstBlock := t.alignUpAddress memory t.alignment
        alignment := t.alignment
        headerBytes := t.headerBytes
        managedBytes := (memory + memoryBytes - t.alignUpAddress memory t.alignment) / t.alignment * t.alignment
        magic := heapLabMagic }
      memory := t.setBlock s.memory (t.alignUpAddress memory t.alignment) fun _ =>
        cellBlock ⟨(memory + memoryBytes - t.alignUpAddress memory t.alignment) / t.alignment * t.alignment -
          t.headerBytes, none⟩ 0 0 }

theorem heapLabInit_initialized {memory memoryBytes : Nat}
    (hb : memoryBytes < 2 ^ t.width) (h : (heapLabInit t s memory memoryBytes).2 = .ok) :
    HeapLabInitialized t s memory memoryBytes (heapLabInit t s memory memoryBytes).1 := by
  have hpow := Nat.two_pow_pos t.width
  have hroom : t.sub t.sizeMax memoryBytes = 2 ^ t.width - 1 - memoryBytes := by
    rw [Target.sizeMax, Target.sub_eq (by omega) (by omega)]
  simp only [heapLabInit, Target.alignUpSize_blockBytes, Target.mask_eq, hroom,
    Target.add_eq t.headerBytes_add_lt] at h ⊢
  by_cases hnull : memory = 0 ∨ memoryBytes = 0
  · rw [if_pos hnull] at h
    cases h
  by_cases hend : memory > 2 ^ t.width - 1 - memoryBytes
  · rw [if_neg hnull, if_pos hend] at h
    cases h
  have hsum : t.add memory memoryBytes = memory + memoryBytes := Target.add_eq (by omega)
  simp only [hsum] at h ⊢
  by_cases hbegin : t.alignUpAddress memory t.alignment ≥ memory + memoryBytes ∨
      t.sub (memory + memoryBytes) (t.alignUpAddress memory t.alignment) > t.sizeMax
  · rw [if_neg hnull, if_neg hend, if_pos hbegin] at h
    cases h
  have hlt : t.alignUpAddress memory t.alignment < memory + memoryBytes := by
    by_contra hge
    exact hbegin (Or.inl (by omega))
  have hdiff : t.sub (memory + memoryBytes) (t.alignUpAddress memory t.alignment) =
      memory + memoryBytes - t.alignUpAddress memory t.alignment := Target.sub_eq (by omega) (by omega)
  have hmanaged : t.sub (memory + memoryBytes) (t.alignUpAddress memory t.alignment) &&&
      t.complement (t.alignment - 1) =
      (memory + memoryBytes - t.alignUpAddress memory t.alignment) / t.alignment * t.alignment := by
    rw [hdiff, Target.and_complement_mask (by omega)]
  have hle := Nat.div_mul_le_self (memory + memoryBytes - t.alignUpAddress memory t.alignment) t.alignment
  simp only [hmanaged] at h ⊢
  by_cases hsmall : (memory + memoryBytes - t.alignUpAddress memory t.alignment) / t.alignment * t.alignment <
      t.headerBytes + t.alignment
  · rw [if_neg hnull, if_neg hend, if_neg hbegin, if_pos hsmall] at h
    cases h
  refine ⟨by tauto, by tauto, by omega, hlt, by omega, ?_⟩
  rw [if_neg hnull, if_neg hend, if_neg hbegin, if_neg hsmall, Target.add_eq (by omega),
    Target.sub_eq (by omega) (by omega)]
  rfl

def initialTiling (t : Target) (size : Nat) (hroom : t.headerBytes + t.alignment ≤ size) (hs : t.alignment ∣ size) :
    Tiling t.headerBytes t.alignment size := Tiling.whole hroom t.alignment_dvd_headerBytes hs

theorem HeapLabInitialized.laid {memory memoryBytes : Nat}
    (h : HeapLabInitialized t s memory memoryBytes s') :
    s'.Laid t s'.heap.arenaBegin (initialTiling t _ h.room (Nat.dvd_mul_left _ _)) := by
  have hle := Nat.div_mul_le_self (memory + memoryBytes - t.alignUpAddress memory t.alignment) t.alignment
  have hlt := h.begin_lt
  have hend := h.end_lt
  have hroom := h.room
  have hpos := t.alignment_pos
  have hdvd : t.alignment ∣ t.alignUpAddress memory t.alignment := by
    simp only [Target.alignUpAddress, Target.mask_eq]
    rw [Target.and_complement_mask (Target.add_lt _ _)]
    exact Nat.dvd_mul_left _ _
  obtain rfl := h.state
  refine ⟨rfl, rfl, rfl, rfl, rfl, rfl, rfl, hdvd, by omega, ?_, ?_, trivial⟩
  · dsimp only
    omega
  · dsimp only
    rw [Target.loadBlock_setBlock]
    · rfl
    refine ⟨Target.lt_word ?_, Target.lt_word (Nat.two_pow_pos _), Target.lt_word (Nat.two_pow_pos _),
      Target.lt_word (Nat.two_pow_pos _), heapBlockMagic_lt⟩
    simp only [cellBlock]
    omega

namespace HeapLabState.Laid

variable {s : HeapLabState} {a size : Nat} {T : Tiling t.headerBytes t.alignment size}

theorem length_lt (h : s.Laid t a T) : (starts t.headerBytes a T.cells).length < s.heap.managedBytes + 1 := by
  have hlen : ∀ cells : List Cell, cells.length ≤ extent t.headerBytes cells := by
    intro cells
    have := t.headerBytes_pos
    induction cells with
    | nil => simp
    | cons c cells ih =>
      simp only [List.length_cons, extent_cons]
      omega
  have := hlen T.cells
  rw [T.extent_eq] at this
  rw [length_starts, h.managedBytes]
  omega

theorem cells_ne (h : s.Laid t a T) : T.cells ≠ [] := by
  intro hnil
  have := T.extent_eq
  have := h.size_pos
  simp [hnil] at *
  omega

theorem block (h : s.Laid t a T) (hcells : T.cells = pre ++ c :: post) :
    t.loadBlock s.memory (a + extent t.headerBytes pre) = cellBlock c (lastStart t 0 a pre)
      (entry (a + extent t.headerBytes pre + (t.headerBytes + c.payload)) post 0) := by
  have := h.blocks
  rw [hcells] at this
  exact this.block

end HeapLabState.Laid

namespace HeapLabState.Holds

variable {s : HeapLabState} {a size : Nat} {T : Tiling t.headerBytes t.alignment size}

theorem isInitialized (h : s.Holds t a T) : s.heap.isInitialized = true := by
  simp [HeapLab.isInitialized, h.magic, h.arenaBegin, h.arenaEnd, h.firstBlock, h.begin_ne]

theorem linked (h : s.Holds t a T) : Linked (fun block => (t.loadBlock s.memory block).next) s.heap.firstBlock
    (starts t.headerBytes a T.cells) := by
  obtain ⟨c, cells, hc⟩ := List.exists_cons_of_ne_nil h.cells_ne
  have := tiles_linked h.blocks h.begin_ne
  rw [h.firstBlock]
  rw [hc] at this ⊢
  exact this

theorem walk_eq {σ β : Type} (h : s.Holds t a T) (body : σ → Nat → Except β σ) (acc : σ) :
    walk (fun block => (t.loadBlock s.memory block).next) body (s.heap.managedBytes + 1) acc s.heap.firstBlock =
      some ((starts t.headerBytes a T.cells).foldlM body acc) :=
  h.linked.walk_eq body h.length_lt acc

theorem fits_iff (h : s.Holds t a T) (hcells : T.cells = pre ++ c :: post) (n : Nat) :
    ((t.loadBlock s.memory (a + extent t.headerBytes pre)).isFree = true ∧
      n ≤ (t.loadBlock s.memory (a + extent t.headerBytes pre)).payloadBytes) ↔ c.Fits n := by
  rw [h.block hcells]
  simp [cellBlock, Cell.Fits]

theorem payload_eq (h : s.Holds t a T) (hcells : T.cells = pre ++ c :: post) :
    t.blockPayload s.heap (a + extent t.headerBytes pre) = a + extent t.headerBytes pre + t.headerBytes := by
  have := T.cell_end hcells
  have := h.end_lt
  rw [Target.blockPayload, h.headerBytes, Target.add_eq (by omega)]

theorem of_tiles (h : s.Holds t a T) {T' : Tiling t.headerBytes t.alignment size}
    (hheap : s'.heap = { s.heap with
      allocationCount := s'.heap.allocationCount
      freeCount := s'.heap.freeCount
      failedAllocationCount := s'.heap.failedAllocationCount })
    (hblocks : Tiles t s'.memory 0 a T'.cells 0) : s'.Holds t a T' := by
  rw [HeapLab.ext_iff] at hheap
  obtain ⟨h1, h2, h3, h4, h5, h6, -, -, -, h7⟩ := hheap
  exact ⟨⟨h7.trans h.magic, h1.trans h.arenaBegin, h2.trans h.arenaEnd, h3.trans h.firstBlock, h4.trans h.alignment,
    h5.trans h.headerBytes, h6.trans h.managedBytes, h.begin_dvd, h.size_pos, h.end_lt, hblocks⟩, h.begin_ne⟩

theorem starts_split (hcells : T.cells = pre ++ c :: post) :
    starts t.headerBytes a T.cells = starts t.headerBytes a pre ++ (a + extent t.headerBytes pre) ::
      starts t.headerBytes (a + extent t.headerBytes pre + (t.headerBytes + c.payload)) post := by
  rw [hcells, starts_append]
  rfl

theorem failedAllocation (h : s.Holds t a T) : (s.failedAllocation t).Holds t a T := h.of_tiles rfl h.blocks

theorem alloc_refused (h : s.Holds t a T) (hr : r < 2 ^ t.width)
    (hno : r = 0 ∨ 2 ^ t.width ≤ r + (t.alignment - 1) ∨ ∀ c ∈ T.cells, ¬ c.Fits (roundUp t.alignment r)) :
    heapLabAlloc t s r = some (s.failedAllocation t, 0) := by
  simp only [heapLabAlloc, h.isInitialized, Bool.true_eq_false, if_false, h.alignment, Target.alignUpSize_eq hr]
  by_cases h0 : r = 0
  · rw [if_pos h0]
  rw [if_neg h0]
  by_cases hwrap : r + (t.alignment - 1) < 2 ^ t.width
  · have hnone : ∀ c ∈ T.cells, ¬ c.Fits (roundUp t.alignment r) :=
      (hno.resolve_left h0).resolve_left (by omega)
    simp only [if_pos hwrap]
    rw [h.walk_eq, foldlM_seek_of_none]
    intro b hb
    obtain ⟨pre, c, post, hcells, rfl⟩ := (mem_starts _).mp hb
    rw [h.fits_iff hcells]
    exact hnone c (by rw [hcells]; simp)
  · simp only [if_neg hwrap]

theorem alloc_granted (h : s.Holds t a T) (hr0 : 0 < r)
    (hr : r + (t.alignment - 1) < 2 ^ t.width) (hcells : T.cells = pre ++ c :: post)
    (hfit : c.Fits (roundUp t.alignment r)) (hpre : ∀ d ∈ pre, ¬ d.Fits (roundUp t.alignment r)) :
    ∃ s', heapLabAlloc t s r = some (s', a + extent t.headerBytes pre + t.headerBytes) ∧
      s'.heap = { s.heap with allocationCount := t.add s.heap.allocationCount 1 } ∧
      s'.Holds t a (T.cut hcells t.alignment_pos hfit t.alignment_dvd_headerBytes (dvd_roundUp _ _) hr0
        (le_roundUp t.alignment_pos r)) := by
  have hfind : (starts t.headerBytes a T.cells).foldlM (seek fun block => (t.loadBlock s.memory block).isFree = true ∧
      roundUp t.alignment r ≤ (t.loadBlock s.memory block).payloadBytes) () =
        .error (a + extent t.headerBytes pre) := by
    rw [starts_split hcells]
    apply foldlM_seek_of_first
    · intro b hb
      obtain ⟨pre', d, post', rfl, rfl⟩ := (mem_starts _).mp hb
      have hd : T.cells = pre' ++ d :: (post' ++ c :: post) := by simpa using hcells
      rw [h.fits_iff hd]
      exact hpre d (by simp)
    · exact (h.fits_iff hcells _).mpr hfit
  refine ⟨(heapLabTake t s r (roundUp t.alignment r) (a + extent t.headerBytes pre)).1, ?_, rfl, ?_⟩
  · have hround : t.alignUpSize r t.alignment = some (roundUp t.alignment r) := by
      rw [Target.alignUpSize_eq (by omega), if_pos hr]
    simp only [heapLabAlloc, h.isInitialized, Bool.true_eq_false, if_false, h.alignment, hround]
    rw [if_neg (by omega), h.walk_eq, hfind]
    simp only [heapLabTake, h.payload_eq hcells]
  · have htiles := h.blocks
    rw [hcells] at htiles
    have hend := T.extent_eq
    rw [hcells] at hend
    simp only [extent_append] at hend
    have hlt := h.end_lt
    obtain ⟨htake, hframe⟩ := heapLabTake_tiles (r := r) h.headerBytes h.alignment (tiles_append.mp htiles).2
      (by have := h.begin_ne; omega) hfit (by omega) (by omega)
    refine h.of_tiles rfl ?_
    show Tiles t _ 0 a (pre ++ carve _ _ _ _ _ ++ post) 0
    rw [List.append_assoc]
    refine htiles.replace (by simp) ?_ htake hframe
    simp only [carve]
    split <;> simp

theorem free_unknown (h : s.Holds t a T) {p : Nat}
    (hp : ∀ pre c post, T.cells = pre ++ c :: post → p ≠ a + extent t.headerBytes pre + t.headerBytes) :
    heapLabFree t s p = some (s, .invalidPointer) := by
  simp only [heapLabFree, h.isInitialized, Bool.true_eq_false, if_false]
  by_cases h0 : p = 0
  · rw [if_pos h0]
  rw [if_neg h0, h.walk_eq, foldlM_seek_of_none]
  intro b hb
  obtain ⟨pre, c, post, hcells, rfl⟩ := (mem_starts _).mp hb
  rw [h.payload_eq hcells]
  exact (hp pre c post hcells).symm

theorem free_found (h : s.Holds t a T) (hcells : T.cells = pre ++ c :: post) :
    heapLabFree t s (a + extent t.headerBytes pre + t.headerBytes) =
      some (heapLabGiveBack t s (a + extent t.headerBytes pre)) := by
  have hpos := t.headerBytes_pos
  have hfind : (starts t.headerBytes a T.cells).foldlM (seek fun block => t.blockPayload s.heap block =
      a + extent t.headerBytes pre + t.headerBytes) () = .error (a + extent t.headerBytes pre) := by
    rw [starts_split hcells]
    apply foldlM_seek_of_first
    · intro b hb
      obtain ⟨pre', d, post', rfl, rfl⟩ := (mem_starts _).mp hb
      have hd : T.cells = pre' ++ d :: (post' ++ c :: post) := by simpa using hcells
      rw [h.payload_eq hd]
      simp only [extent_append, extent_cons]
      omega
    · exact h.payload_eq hcells
  simp only [heapLabFree, h.isInitialized, Bool.true_eq_false, if_false]
  rw [if_neg (by omega), h.walk_eq, hfind]

theorem free_twice (h : s.Holds t a T) (hcells : T.cells = pre ++ c :: post)
    (hc : c.requested = none) :
    heapLabFree t s (a + extent t.headerBytes pre + t.headerBytes) = some (s, .doubleFree) := by
  have hfree : (t.loadBlock s.memory (a + extent t.headerBytes pre)).isFree = true := by
    rw [h.block hcells]
    simp [cellBlock, hc]
  rw [h.free_found hcells, heapLabGiveBack, if_pos hfree]

theorem free_granted (h : s.Holds t a T) (hcells : T.cells = pre ++ c :: post)
    (hc : c.requested ≠ none) :
    ∃ s', heapLabFree t s (a + extent t.headerBytes pre + t.headerBytes) = some (s', .ok) ∧
      s'.heap = { s.heap with freeCount := t.add s.heap.freeCount 1 } ∧
      s'.Holds t a (T.free hcells t.alignment_dvd_headerBytes) := by
  have htiles := h.blocks
  rw [hcells] at htiles
  have hend := h.end_lt
  rw [← T.extent_eq, hcells] at hend
  obtain ⟨m, hgive, hm⟩ := heapLabGiveBack_spec h.headerBytes htiles h.begin_ne hc hend
  rw [h.free_found hcells, hgive]
  exact ⟨_, rfl, rfl, h.of_tiles rfl hm⟩

end HeapLabState.Holds

theorem checkBlocks_eq
    (hheader : s.heap.headerBytes = t.headerBytes) (halign : s.heap.alignment = t.alignment)
    (h : Tiles t s.memory previous a cells 0) (hsound : ∀ c ∈ cells, c.Sound t.alignment) (hnormal : Normal cells)
    (hend : a + extent t.headerBytes cells ≤ s.heap.arenaEnd) (hlt : s.heap.arenaEnd < 2 ^ t.width)
    (hvisited : visited + cells.length ≤ s.heap.managedBytes / t.alignment)
    (hmanaged : s.heap.managedBytes < 2 ^ t.width) :
    ∃ check, (starts t.headerBytes a cells).foldlM (heapLabCheckBlock t s)
        { previous := previous, expected := a, visited := visited } = .ok check ∧
      check.expected = a + extent t.headerBytes cells := by
  induction cells generalizing previous a visited with
  | nil => exact ⟨_, rfl, rfl⟩
  | cons c cells ih =>
    have hpos := t.headerBytes_pos
    have hdiv := Nat.div_le_self s.heap.managedBytes t.alignment
    obtain ⟨hc, hcells⟩ := List.forall_mem_cons.mp hsound
    obtain ⟨hfree, hrest⟩ := normal_cons.mp hnormal
    simp only [extent_cons, List.length_cons] at hend hvisited
    have hstart : t.blockPayload s.heap a = a + t.headerBytes := by
      rw [Target.blockPayload, hheader, Target.add_eq (by omega)]
    have hfinish : t.add (a + t.headerBytes) c.payload = a + (t.headerBytes + c.payload) := by
      rw [Target.add_eq (by omega), Nat.add_assoc]
    have hcount : t.add visited 1 = visited + 1 := Target.add_eq (by omega)
    have hstep : heapLabCheckBlock t s { previous := previous, expected := a, visited := visited } a =
        .ok { previous := a, expected := a + (t.headerBytes + c.payload), visited := visited + 1 } := by
      simp only [heapLabCheckBlock, h.1, cellBlock, halign, hstart, hfinish, hcount]
      rw [if_neg ?_, if_neg (by omega), if_neg ?_, if_neg (by omega)]
      · rintro ⟨hne, hnone, hnext⟩
        -- a free cell is followed by the end or by a cell in use
        cases cells with
        | nil => exact hne rfl
        | cons d cells =>
          rw [entry, h.2.1] at hnext
          exact hfree d rfl (Option.isNone_iff_eq_none.mp hnone) (Option.isNone_iff_eq_none.mp hnext)
      · have hmod := Nat.mod_eq_zero_of_dvd hc.dvd
        have halign := hc.pos
        rintro (h1 | h1 | h1 | h1 | h1 | ⟨h1, h2⟩ | ⟨h1, h2⟩)
        · exact h1 rfl
        · exact h1 rfl
        · exact h1 rfl
        · omega
        · exact h1 hmod
        · obtain ⟨r, hr⟩ := Option.isSome_iff_exists.mp (Option.isNone_eq_false_iff.mp h1)
          have := hc.requested r hr
          simp only [hr, Option.getD_some] at h2
          omega
        · rw [Option.isNone_iff_eq_none.mp h1] at h2
          exact h2 rfl
    rw [starts, List.foldlM_cons, hstep]
    have hleft : visited + 1 + cells.length ≤ s.heap.managedBytes / t.alignment := by omega
    obtain ⟨check, hfold, hexp⟩ := ih h.2 hcells hrest (by omega) hleft
    exact ⟨check, hfold, by rw [hexp, extent_cons, Nat.add_assoc]⟩

theorem length_mul_le_extent {align : Nat} (cells : List Cell) (hsound : ∀ c ∈ cells, c.Sound align) :
    cells.length * align ≤ extent t.headerBytes cells := by
  induction cells with
  | nil => simp
  | cons c cells ih =>
    obtain ⟨hc, hcells⟩ := List.forall_mem_cons.mp hsound
    have := ih hcells
    have := hc.pos
    simp only [List.length_cons, extent_cons, Nat.add_mul]
    omega

theorem HeapLabState.Holds.validate {T : Tiling t.headerBytes t.alignment size}
    (h : s.Holds t a T) : heapLabValidate t s = some true := by
  have hend := h.end_lt
  have hsize := h.size_pos
  have hcount : 0 + T.cells.length ≤ s.heap.managedBytes / t.alignment := by
    rw [h.managedBytes, Nat.le_div_iff_mul_le t.alignment_pos, Nat.zero_add]
    exact le_of_le_of_eq (length_mul_le_extent T.cells T.sound) T.extent_eq
  obtain ⟨check, hfold, hexp⟩ := checkBlocks_eq h.headerBytes h.alignment h.blocks T.sound T.normal
    (by rw [T.extent_eq, h.arenaEnd]) (by rw [h.arenaEnd]; exact hend) hcount (by rw [h.managedBytes]; omega)
  have hstart : ¬ (s.heap.isInitialized = false ∨ s.heap.alignment ≠ t.alignment ∨
      s.heap.arenaEnd ≤ s.heap.arenaBegin ∨ s.heap.arenaBegin % s.heap.alignment ≠ 0) := by
    rw [h.isInitialized, h.alignment, h.arenaEnd, h.arenaBegin, Nat.mod_eq_zero_of_dvd h.begin_dvd]
    simp only [Bool.true_eq_false, ne_eq, not_true_eq_false, false_or, or_false]
    omega
  simp only [heapLabValidate]
  rw [if_neg hstart, h.walk_eq, h.arenaBegin, hfold]
  simp [hexp, T.extent_eq, h.arenaEnd]

structure HeapLabStats.Sums (t : Target) (stats : HeapLabStats) (visited : Nat) : Prop where
  bytes : t.headerBytes * (stats.allocatedBlocks + stats.freeBlocks) + stats.allocatedPayloadBytes +
    stats.freePayloadBytes = visited
  requested : stats.internalFragmentationBytes + stats.requestedBytes = stats.allocatedPayloadBytes
  largest : stats.largestFreeBlockBytes ≤ stats.freePayloadBytes

theorem countBlock_spec {next : Nat} {stats : HeapLabStats}
    (h : t.loadBlock s.memory a = cellBlock c previous next) (hc : c.Sound t.alignment)
    (hstats : stats.Sums t visited) (hlt : visited + (t.headerBytes + c.payload) < 2 ^ t.width) :
    ∃ stats', heapLabCountBlock t s stats a = .ok stats' ∧
      stats'.Sums t (visited + (t.headerBytes + c.payload)) ∧ stats'.managedBytes = stats.managedBytes := by
  have hpos := t.headerBytes_pos
  obtain ⟨hbytes, hreq, hlargest⟩ := hstats
  have hblocks : stats.allocatedBlocks + stats.freeBlocks ≤
      t.headerBytes * (stats.allocatedBlocks + stats.freeBlocks) := Nat.le_mul_of_pos_left _ hpos
  have hmul : t.headerBytes * (stats.allocatedBlocks + stats.freeBlocks + 1) =
      t.headerBytes * (stats.allocatedBlocks + stats.freeBlocks) + t.headerBytes := by ring
  obtain ⟨n, _ | r⟩ := c
  · dsimp only at hlt
    have h1 : t.add stats.freeBlocks 1 = stats.freeBlocks + 1 := Target.add_eq (by omega)
    have h2 : t.add stats.freePayloadBytes n = stats.freePayloadBytes + n := Target.add_eq (by omega)
    simp only [heapLabCountBlock, h, cellBlock, Option.isNone_none, if_true, h1, h2]
    refine ⟨_, rfl, ⟨?_, hreq, ?_⟩, rfl⟩
    · rw [← Nat.add_assoc stats.allocatedBlocks]
      dsimp only
      omega
    · dsimp only
      split <;> omega
  · have hr := hc.requested r rfl
    dsimp only at hlt hr
    have h1 : t.add stats.allocatedBlocks 1 = stats.allocatedBlocks + 1 := Target.add_eq (by omega)
    have h2 : t.add stats.requestedBytes r = stats.requestedBytes + r := Target.add_eq (by omega)
    have h3 : t.add stats.allocatedPayloadBytes n = stats.allocatedPayloadBytes + n := Target.add_eq (by omega)
    have h4 : t.sub n r = n - r := Target.sub_eq hr.2 (by omega)
    have h5 : t.add stats.internalFragmentationBytes (n - r) = stats.internalFragmentationBytes + (n - r) :=
      Target.add_eq (by omega)
    simp only [heapLabCountBlock, h, cellBlock, Option.isNone_some, Bool.false_eq_true, if_false,
      Option.getD_some, h1, h2, h3, h4, h5]
    refine ⟨_, rfl, ⟨?_, ?_, hlargest⟩, rfl⟩
    · rw [Nat.add_right_comm stats.allocatedBlocks 1]
      dsimp only
      omega
    · dsimp only
      omega

theorem countBlocks_eq {stats : HeapLabStats}
    (h : Tiles t s.memory previous a cells 0) (hsound : ∀ c ∈ cells, c.Sound t.alignment)
    (hstats : stats.Sums t visited) (hlt : visited + extent t.headerBytes cells < 2 ^ t.width) :
    ∃ stats', (starts t.headerBytes a cells).foldlM (heapLabCountBlock t s) stats = .ok stats' ∧
      stats'.Sums t (visited + extent t.headerBytes cells) ∧ stats'.managedBytes = stats.managedBytes := by
  induction cells generalizing previous a visited stats with
  | nil => exact ⟨stats, rfl, hstats, rfl⟩
  | cons c cells ih =>
    obtain ⟨hc, hcells⟩ := List.forall_mem_cons.mp hsound
    simp only [extent_cons] at hlt
    obtain ⟨stats', hstep, hsums, hmanaged⟩ := countBlock_spec h.1 hc hstats (by omega)
    obtain ⟨stats'', hfold, hsums', hmanaged'⟩ := ih h.2 hcells hsums (by omega)
    refine ⟨stats'', ?_, ?_, hmanaged'.trans hmanaged⟩
    · rw [starts, List.foldlM_cons, hstep]
      exact hfold
    · rw [extent_cons, ← Nat.add_assoc]
      exact hsums'

theorem HeapLabState.Holds.getStats {T : Tiling t.headerBytes t.alignment size}
    (h : s.Holds t a T) : ∃ stats, heapLabGetStats t s = some (.ok stats) ∧ stats.managedBytes = size ∧
      stats.Sums t size ∧
      stats.externalFragmentationBytes + stats.largestFreeBlockBytes = stats.freePayloadBytes := by
  have hend := h.end_lt
  have hzero : HeapLabStats.Sums t
      { managedBytes := s.heap.managedBytes, requestedBytes := 0, allocatedPayloadBytes := 0, freePayloadBytes := 0,
        largestFreeBlockBytes := 0, internalFragmentationBytes := 0, externalFragmentationBytes := 0,
        allocatedBlocks := 0, freeBlocks := 0, allocationCount := s.heap.allocationCount,
        freeCount := s.heap.freeCount, failedAllocationCount := s.heap.failedAllocationCount } 0 :=
    ⟨by simp, rfl, le_refl 0⟩
  obtain ⟨stats, hfold, hsums, hmanaged⟩ := countBlocks_eq h.blocks T.sound hzero (by rw [T.extent_eq]; omega)
  rw [Nat.zero_add, T.extent_eq] at hsums
  have hbytes := hsums.bytes
  have hlargest := hsums.largest
  have hsub : t.sub stats.freePayloadBytes stats.largestFreeBlockBytes =
      stats.freePayloadBytes - stats.largestFreeBlockBytes := Target.sub_eq hlargest (by omega)
  simp only [heapLabGetStats, h.isInitialized, h.validate, Bool.true_eq_false, if_false]
  rw [h.walk_eq, hfold]
  refine ⟨_, rfl, hmanaged.trans h.managedBytes, ⟨hbytes, hsums.requested, hlargest⟩, ?_⟩
  simp only [hsub]
  omega

def heapLabBlocks (t : Target) (s : HeapLabState) : Option (List (Nat × HeapLabBlock)) :=
  (walk (fun block => (t.loadBlock s.memory block).next)
    (fun blocks block => (.ok (blocks ++ [(block, t.loadBlock s.memory block)]) : Except Unit _))
    (s.heap.managedBytes + 1) [(s.heap.firstBlock, t.loadBlock s.memory s.heap.firstBlock)]
    (t.loadBlock s.memory s.heap.firstBlock).next).bind Except.toOption

theorem foldlM_collect {α β : Type} (f : α → β) (xs : List α) (acc : List β) :
    xs.foldlM (fun acc x => (.ok (acc ++ [f x]) : Except Unit (List β))) acc = .ok (acc ++ xs.map f) := by
  induction xs generalizing acc with
  | nil => simp [pure, Except.pure]
  | cons x xs ih =>
    rw [List.foldlM_cons]
    show List.foldlM _ (acc ++ [f x]) xs = _
    rw [ih]
    simp

theorem HeapLabState.Laid.blocks_eq {T : Tiling t.headerBytes t.alignment size}
    (h : s.Laid t a T) :
    heapLabBlocks t s = some ((starts t.headerBytes a T.cells).map fun b => (b, t.loadBlock s.memory b)) := by
  have hlength := h.length_lt
  have htiles := h.blocks
  have hpos := t.headerBytes_pos
  obtain ⟨c, cells, hc⟩ := List.exists_cons_of_ne_nil h.cells_ne
  rw [hc] at htiles hlength ⊢
  rw [starts, List.length_cons] at hlength
  have hnext : (t.loadBlock s.memory a).next = entry (a + (t.headerBytes + c.payload)) cells 0 := by
    rw [htiles.1]
    rfl
  have hlinked := tiles_linked htiles.2 (by omega)
  rw [heapLabBlocks, h.firstBlock, hnext, hlinked.walk_eq _ (by omega), foldlM_collect]
  rfl

def cellBlocks (t : Target) : Nat → Nat → List Cell → List (Nat × HeapLabBlock)
  | _, _, [] => []
  | previous, a, c :: cells =>
    (a, cellBlock c previous (entry (a + (t.headerBytes + c.payload)) cells 0)) ::
      cellBlocks t a (a + (t.headerBytes + c.payload)) cells

theorem Tiles.cellBlocks_eq {m : Memory} (h : Tiles t m previous a cells 0) :
    (starts t.headerBytes a cells).map (fun b => (b, t.loadBlock m b)) = cellBlocks t previous a cells := by
  induction cells generalizing previous a with
  | nil => rfl
  | cons c cells ih => rw [starts, List.map_cons, h.1, ih h.2, cellBlocks]

def HeapLabState.HasBlock (t : Target) (s : HeapLabState) (address : Nat) (b : HeapLabBlock) : Prop :=
  ∃ blocks, heapLabBlocks t s = some blocks ∧ (address, b) ∈ blocks

def HeapLabState.InUse (t : Target) (s : HeapLabState) (z : Nat) : Prop :=
  ∃ x b, s.HasBlock t x b ∧ b.isFree = false ∧ x ≤ z ∧ z < x + (s.heap.headerBytes + b.payloadBytes)

structure HeapLabState.Region (t : Target) (s : HeapLabState) (x y : Nat) : Prop where
  lower : s.heap.arenaBegin ≤ x
  lt : x < y
  upper : y ≤ s.heap.arenaEnd
  clear : ∀ z, x ≤ z → z < y → ¬ s.InUse t z
  left : x = s.heap.arenaBegin ∨ s.InUse t (x - 1)
  right : y = s.heap.arenaEnd ∨ s.InUse t y

namespace HeapLabState.Laid

variable {s : HeapLabState} {a size : Nat} {T : Tiling t.headerBytes t.alignment size}

theorem hasBlock_iff (h : s.Laid t a T) {b : HeapLabBlock} :
    s.HasBlock t x b ↔ ∃ pre c post, T.cells = pre ++ c :: post ∧ x = a + extent t.headerBytes pre ∧
      b = cellBlock c (lastStart t 0 a pre) (entry (x + (t.headerBytes + c.payload)) post 0) := by
  simp only [HasBlock, h.blocks_eq, Option.some.injEq, exists_eq_left', List.mem_map, Prod.mk.injEq]
  constructor
  · rintro ⟨_, hmem, rfl, rfl⟩
    obtain ⟨pre, c, post, hcells, rfl⟩ := (mem_starts _).mp hmem
    exact ⟨pre, c, post, hcells, rfl, h.block hcells⟩
  · rintro ⟨pre, c, post, hcells, rfl, rfl⟩
    exact ⟨_, (mem_starts _).mpr ⟨pre, c, post, hcells, rfl⟩, rfl, h.block hcells⟩

theorem used_iff (h : s.Laid t a T) {n : Nat} :
    (∃ b, s.HasBlock t x b ∧ b.isFree = false ∧ b.payloadBytes = n ∧ b.requestedBytes = r) ↔
      ⟨x, n, r⟩ ∈ used t.headerBytes a T.cells := by
  rw [mem_used]
  constructor
  · rintro ⟨b, hb, hfree, rfl, rfl⟩
    obtain ⟨pre, ⟨n, req⟩, post, hcells, rfl, rfl⟩ := h.hasBlock_iff.mp hb
    obtain ⟨r, rfl⟩ := Option.isSome_iff_exists.mp (Option.isNone_eq_false_iff.mp hfree)
    exact ⟨pre, post, hcells, rfl⟩
  · rintro ⟨pre, post, hcells, hx⟩
    exact ⟨_, h.hasBlock_iff.mpr ⟨pre, _, post, hcells, hx, rfl⟩, rfl, rfl, rfl⟩

theorem free_iff (h : s.Laid t a T) {n : Nat} :
    (∃ b, s.HasBlock t x b ∧ b.isFree = true ∧ b.payloadBytes = n) ↔
      ∃ pre post, T.cells = pre ++ ⟨n, none⟩ :: post ∧ x = a + extent t.headerBytes pre := by
  constructor
  · rintro ⟨b, hb, hfree, rfl⟩
    obtain ⟨pre, ⟨n, req⟩, post, hcells, rfl, rfl⟩ := h.hasBlock_iff.mp hb
    obtain rfl := Option.isNone_iff_eq_none.mp hfree
    exact ⟨pre, post, hcells, rfl⟩
  · rintro ⟨pre, post, hcells, hx⟩
    exact ⟨_, h.hasBlock_iff.mpr ⟨pre, _, post, hcells, hx, rfl⟩, rfl, rfl⟩

theorem payload_of_used (h : s.Laid t a T) {b : Placed} (hb : b ∈ used t.headerBytes a T.cells) :
    (t.loadBlock s.memory b.address).payloadBytes = b.payload := by
  obtain ⟨pre, post, hcells, hba⟩ := (mem_used _).mp hb
  rw [hba, h.block hcells]
  rfl

theorem inUse_iff (h : s.Laid t a T) {z : Nat} : s.InUse t z ↔ Covered t.headerBytes a T.cells z := by
  constructor
  · rintro ⟨x, b, hb, hfree, hle, hlt⟩
    rw [h.headerBytes] at hlt
    exact ⟨_, h.used_iff.mp ⟨b, hb, hfree, rfl, rfl⟩, hle, hlt⟩
  · rintro ⟨⟨x, n, r⟩, hused, hle, hlt⟩
    obtain ⟨b, hb, hfree, rfl, -⟩ := h.used_iff.mpr hused
    exact ⟨x, b, hb, hfree, hle, by rw [h.headerBytes]; exact hlt⟩

theorem region_iff (h : s.Laid t a T) {y : Nat} :
    s.Region t x y ↔ ∃ b, s.HasBlock t x b ∧ b.isFree = true ∧
      y = x + (s.heap.headerBytes + b.payloadBytes) := by
  have hgap : s.Region t x y ↔ Gap t.headerBytes a T.cells x y := by
    constructor
    · rintro ⟨h1, h2, h3, h4, h5, h6⟩
      rw [h.arenaBegin] at h1 h5
      rw [h.arenaEnd, ← T.extent_eq] at h3 h6
      simp only [h.inUse_iff] at h4 h5 h6
      exact ⟨h1, h2, h3, h4, h5, h6⟩
    · rintro ⟨h1, h2, h3, h4, h5, h6⟩
      simp only [← h.inUse_iff] at h4 h5 h6
      rw [T.extent_eq, ← h.arenaEnd] at h3 h6
      rw [← h.arenaBegin] at h1 h5
      exact ⟨h1, h2, h3, h4, h5, h6⟩
  rw [hgap, gap_iff t.headerBytes_pos T.normal, h.headerBytes]
  constructor
  · rintro ⟨pre, n, post, hcells, hx, rfl⟩
    obtain ⟨b, hb, hfree, rfl⟩ := h.free_iff.mpr ⟨pre, post, hcells, hx⟩
    exact ⟨b, hb, hfree, rfl⟩
  · rintro ⟨b, hb, hfree, rfl⟩
    obtain ⟨pre, post, hcells, hx⟩ := h.free_iff.mp ⟨b, hb, hfree, rfl⟩
    exact ⟨pre, _, post, hcells, hx, rfl⟩

theorem blocks_eq_of_used (h : s.Laid t a T) {T' : Tiling t.headerBytes t.alignment size}
    (h' : s'.Laid t a T') (hused : ∀ b, b ∈ used t.headerBytes a T.cells ↔ b ∈ used t.headerBytes a T'.cells) :
    heapLabBlocks t s = heapLabBlocks t s' := by
  have hcells : T.cells = T'.cells :=
    cells_eq_of_used t.headerBytes_pos (T.extent_eq.trans T'.extent_eq.symm) T.normal T'.normal hused
  rw [h.blocks_eq, h'.blocks_eq, h.blocks.cellBlocks_eq, h'.blocks.cellBlocks_eq, hcells]

end HeapLabState.Laid

end Hairtos

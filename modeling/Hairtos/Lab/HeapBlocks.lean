import Hairtos.Lab.Heap
import Hairtos.Library.Tiling

namespace Hairtos

open Library

variable {x a bound previous last n : Nat} {m m' : Memory} {cells pre post : List Cell}

variable {t : Target}

structure HeapLabBlock.Fits (t : Target) (b : HeapLabBlock) : Prop where
  payloadBytes : b.payloadBytes < 256 ^ t.wordBytes
  requestedBytes : b.requestedBytes < 256 ^ t.wordBytes
  previous : b.previous < 256 ^ t.wordBytes
  next : b.next < 256 ^ t.wordBytes
  magic : b.magic < 256 ^ 4

theorem Target.loadBlock_fits (m : Memory) (a : Nat) : (t.loadBlock m a).Fits t :=
  ⟨m.load_lt _ _, m.load_lt _ _, m.load_lt _ _, m.load_lt _ _, m.load_lt _ _⟩

theorem Target.lt_word (h : x < 2 ^ t.width) : x < 256 ^ t.wordBytes := lt_of_lt_of_le h t.word_holds

theorem Target.loadBlock_congr (h : ∀ x, a ≤ x → x < a + t.blockBytes → m' x = m x) :
    t.loadBlock m' a = t.loadBlock m a := by
  have hfields := t.block_fields
  have hload : ∀ o n, o + n ≤ t.blockBytes → m'.load (a + o) n = m.load (a + o) n := fun o n ho =>
    Memory.load_congr (fun x hx hlt => h x (by omega) (by omega))
  have hpayload := hload 0 t.wordBytes (by omega)
  have hflag := hload (4 * t.wordBytes + 4) 1 (by omega)
  simp only [Nat.add_zero] at hpayload
  rw [← Nat.add_assoc] at hflag
  simp only [Target.loadBlock, hpayload, hflag, hload t.wordBytes t.wordBytes (by omega),
    hload (2 * t.wordBytes) t.wordBytes (by omega), hload (3 * t.wordBytes) t.wordBytes (by omega),
    hload (4 * t.wordBytes) 4 (by omega)]

theorem Target.storeBlock_apply (b : HeapLabBlock) (h : x < a ∨ a + t.blockBytes ≤ x) :
    t.storeBlock m a b x = m x := by
  have hfields := t.block_fields
  simp only [Target.storeBlock]
  iterate 6 rw [Memory.store_apply_of_not_mem (by omega)]

theorem Target.setBlock_apply (f : HeapLabBlock → HeapLabBlock)
    (h : x < a ∨ a + t.blockBytes ≤ x) : t.setBlock m a f x = m x := t.storeBlock_apply _ h

theorem Target.loadBlock_setBlock_of_apart {b : Nat} (f : HeapLabBlock → HeapLabBlock)
    (h : a + t.blockBytes ≤ b ∨ b + t.blockBytes ≤ a) : t.loadBlock (t.setBlock m a f) b = t.loadBlock m b :=
  loadBlock_congr (fun _ _ _ => setBlock_apply f (by omega))

theorem Target.loadBlock_storeBlock {b : HeapLabBlock} (h : b.Fits t) :
    t.loadBlock (t.storeBlock m a b) a = b := by
  have hflag : (if b.isFree = true then 1 else 0) < 256 ^ 1 := by split <;> decide
  obtain ⟨payload, requested, previous, next, magic, isFree⟩ := b
  simp only [Target.loadBlock, Target.storeBlock, HeapLabBlock.mk.injEq]
  refine ⟨?_, ?_, ?_, ?_, ?_, ?_⟩
  · iterate 5 rw [Memory.load_store_of_apart _ _ (by omega)]
    exact Memory.load_store _ h.payloadBytes
  · iterate 4 rw [Memory.load_store_of_apart _ _ (by omega)]
    exact Memory.load_store _ h.requestedBytes
  · iterate 3 rw [Memory.load_store_of_apart _ _ (by omega)]
    exact Memory.load_store _ h.previous
  · iterate 2 rw [Memory.load_store_of_apart _ _ (by omega)]
    exact Memory.load_store _ h.next
  · rw [Memory.load_store_of_apart _ _ (by omega)]
    exact Memory.load_store _ h.magic
  · rw [Memory.load_store _ hflag]
    cases isFree <;> rfl

theorem Target.loadBlock_setBlock {f : HeapLabBlock → HeapLabBlock}
    (h : (f (t.loadBlock m a)).Fits t) : t.loadBlock (t.setBlock m a f) a = f (t.loadBlock m a) :=
  loadBlock_storeBlock h

def Target.headerBytes (t : Target) : Nat := roundUp t.alignment t.blockBytes

theorem Target.blockBytes_le_headerBytes : t.blockBytes ≤ t.headerBytes := le_roundUp t.alignment_pos _

theorem Target.headerBytes_pos : 0 < t.headerBytes := by
  have := t.block_fields
  have := t.blockBytes_le_headerBytes
  omega

theorem Target.alignment_dvd_headerBytes : t.alignment ∣ t.headerBytes := dvd_roundUp _ _

theorem Target.headerBytes_add_lt : t.headerBytes + t.alignment < 2 ^ t.width := by
  have hle : t.headerBytes < t.blockBytes + t.alignment := roundUp_lt t.alignment_pos t.blockBytes
  have hfit := t.block_fits
  simp only [Target.alignment] at *
  omega

theorem heapBlockMagic_lt : heapBlockMagic < 256 ^ 4 := by decide

def cellBlock (c : Cell) (previous next : Nat) : HeapLabBlock where
  payloadBytes := c.payload
  requestedBytes := c.requested.getD 0
  previous := previous
  next := next
  magic := heapBlockMagic
  isFree := c.requested.isNone

def entry (a : Nat) : List Cell → Nat → Nat
  | [], last => last
  | _ :: _, _ => a

theorem entry_lt (h : a < bound) : entry a cells 0 < bound := by
  cases cells with
  | nil => exact Nat.zero_lt_of_lt h
  | cons c cells => exact h

def Tiles (t : Target) (m : Memory) : Nat → Nat → List Cell → Nat → Prop
  | _, _, [], _ => True
  | previous, a, c :: cells, last =>
    t.loadBlock m a = cellBlock c previous (entry (a + (t.headerBytes + c.payload)) cells last) ∧
      Tiles t m a (a + (t.headerBytes + c.payload)) cells last

def lastStart (t : Target) : Nat → Nat → List Cell → Nat
  | previous, _, [] => previous
  | _, a, c :: cells => lastStart t a (a + (t.headerBytes + c.payload)) cells

theorem lastStart_append (previous a : Nat) (xs : List Cell) (c : Cell) :
    lastStart t previous a (xs ++ [c]) = a + extent t.headerBytes xs := by
  induction xs generalizing previous a with
  | nil => rfl
  | cons d xs ih =>
    rw [List.cons_append, lastStart, ih, extent_cons]
    omega

theorem tiles_append {xs ys : List Cell} :
    Tiles t m previous a (xs ++ ys) last ↔
      Tiles t m previous a xs (entry (a + extent t.headerBytes xs) ys last) ∧
        Tiles t m (lastStart t previous a xs) (a + extent t.headerBytes xs) ys last := by
  induction xs generalizing previous a with
  | nil => simp [Tiles, lastStart]
  | cons c xs ih =>
    have hentry : entry (a + (t.headerBytes + c.payload)) (xs ++ ys) last =
        entry (a + (t.headerBytes + c.payload)) xs (entry (a + extent t.headerBytes (c :: xs)) ys last) := by
      cases xs with
      | nil => simp [entry]
      | cons d xs => rfl
    have hsum : a + (t.headerBytes + c.payload) + extent t.headerBytes xs = a + extent t.headerBytes (c :: xs) := by
      rw [extent_cons, Nat.add_assoc]
    simp only [List.cons_append, Tiles, lastStart, hentry, ih, hsum, and_assoc]

theorem Tiles.congr (h : Tiles t m previous a cells last)
    (hm : ∀ b ∈ starts t.headerBytes a cells, t.loadBlock m' b = t.loadBlock m b) :
    Tiles t m' previous a cells last := by
  induction cells generalizing previous a with
  | nil => trivial
  | cons c cells ih =>
    refine ⟨(hm a (by simp [starts])).trans h.1, ih h.2 (fun b hb => hm b ?_)⟩
    simp [starts, hb]

theorem Tiles.congr_below
    (h : Tiles t m previous a cells last) (hend : a + extent t.headerBytes cells ≤ bound)
    (hm : ∀ x, x < bound → m' x = m x) : Tiles t m' previous a cells last := by
  refine h.congr (fun b hb => Target.loadBlock_congr (fun x _ hx => hm x ?_))
  obtain ⟨pre, c, post, rfl, rfl⟩ := (mem_starts _).mp hb
  have := t.blockBytes_le_headerBytes
  simp only [extent_append, extent_cons] at hend
  omega

theorem Tiles.congr_above
    (h : Tiles t m previous a cells last) (hstart : bound ≤ a) (hm : ∀ x, bound ≤ x → m' x = m x) :
    Tiles t m' previous a cells last := by
  refine h.congr (fun b hb => Target.loadBlock_congr (fun x hx _ => hm x ?_))
  obtain ⟨pre, c, post, rfl, rfl⟩ := (mem_starts _).mp hb
  omega

theorem Tiles.replace {xs ys : List Cell}
    (h : Tiles t m previous a (pre ++ xs) last) (hxs : xs ≠ []) (hys : ys ≠ [])
    (hseg : Tiles t m' (lastStart t previous a pre) (a + extent t.headerBytes pre) ys last)
    (hframe : ∀ x, x < a + extent t.headerBytes pre → m' x = m x) : Tiles t m' previous a (pre ++ ys) last := by
  obtain ⟨x, xs, rfl⟩ := List.exists_cons_of_ne_nil hxs
  obtain ⟨y, ys, rfl⟩ := List.exists_cons_of_ne_nil hys
  exact tiles_append.mpr ⟨(tiles_append.mp h).1.congr_below (le_refl _) hframe, hseg⟩

theorem tiles_linked (h : Tiles t m previous a cells 0)
    (ha : a ≠ 0) :
    Linked (fun block => (t.loadBlock m block).next) (entry a cells 0) (starts t.headerBytes a cells) := by
  induction cells generalizing previous a with
  | nil => rfl
  | cons c cells ih =>
    refine ⟨rfl, ha, ?_⟩
    have := ih h.2 (by omega)
    simpa only [h.1, cellBlock] using this

def relink (t : Target) (m : Memory) (block previous : Nat) : Memory :=
  if block ≠ 0 then t.setBlock m block fun b => { b with previous := previous } else m

theorem relink_of_ne {block : Nat} (h : block ≠ 0) :
    relink t m block previous = t.setBlock m block fun b => { b with previous := previous } := if_pos h

theorem relink_apply (cells : List Cell) (hx : x < a) :
    relink t m (entry a cells 0) previous x = m x := by
  cases cells with
  | nil => rfl
  | cons c cells =>
    have ha : entry a (c :: cells) 0 ≠ 0 := Nat.ne_of_gt (Nat.zero_lt_of_lt hx)
    rw [relink_of_ne ha]
    exact Target.setBlock_apply _ (Or.inl hx)

theorem Tiles.relink (h : Tiles t m previous a cells 0)
    (ha : a ≠ 0) {other : Nat} (hother : other < 2 ^ t.width) :
    Tiles t (relink t m (entry a cells 0) other) other a cells 0 := by
  cases cells with
  | nil => trivial
  | cons c cells =>
    have hle := t.blockBytes_le_headerBytes
    have hfits := Target.loadBlock_fits (t := t) m a
    rw [entry, relink_of_ne ha]
    constructor
    · rw [Target.loadBlock_setBlock ⟨hfits.1, hfits.2, Target.lt_word hother, hfits.4, hfits.5⟩, h.1]
      rfl
    · exact h.2.congr_above (le_refl _) (fun x hx => Target.setBlock_apply _ (Or.inr (by omega)))

theorem Tiles.relink_between {b c other : Nat}
    (h : Tiles t m previous a cells 0) (hb : b + t.blockBytes ≤ a) (hc : c + t.blockBytes ≤ a) (ha : a ≠ 0)
    (hother : other < 2 ^ t.width) (f g : HeapLabBlock → HeapLabBlock) :
    Tiles t (t.setBlock (Hairtos.relink t (t.setBlock m b f) (entry a cells 0) other) c g) other a cells 0 := by
  have hfirst : Tiles t (t.setBlock m b f) previous a cells 0 :=
    h.congr_above (le_refl a) (fun x hx => Target.setBlock_apply f (by omega))
  exact (hfirst.relink ha hother).congr_above (le_refl a) (fun x hx => Target.setBlock_apply g (by omega))

theorem mergeWithNext_eq {heap : HeapLab} {block : Nat}
    (h : (t.loadBlock m block).next ≠ 0) (hfree : (t.loadBlock m (t.loadBlock m block).next).isFree = true) :
    mergeWithNext t heap m block =
      t.setBlock (relink t
        (t.setBlock m block fun b =>
          { b with
            payloadBytes := t.add b.payloadBytes
              (t.add heap.headerBytes (t.loadBlock m (t.loadBlock m block).next).payloadBytes)
            next := (t.loadBlock m (t.loadBlock m block).next).next })
        (t.loadBlock m (t.loadBlock m block).next).next block)
      (t.loadBlock m block).next fun _ =>
        { payloadBytes := 0, requestedBytes := 0, previous := 0, next := 0, magic := 0, isFree := false } := by
  simp only [mergeWithNext]
  rw [if_neg (by simp [h, hfree])]
  rfl

theorem mergeWithNext_spec {heap : HeapLab}
    (hheap : heap.headerBytes = t.headerBytes) (h : Tiles t m previous a (⟨n, none⟩ :: post) 0) (ha : a ≠ 0)
    (hend : a + extent t.headerBytes (⟨n, none⟩ :: post) < 2 ^ t.width) :
    Tiles t (mergeWithNext t heap m a) previous a (joinNext t.headerBytes ⟨n, none⟩ post) 0 ∧
      ∀ x, x < a → mergeWithNext t heap m a x = m x := by
  have hle := t.blockBytes_le_headerBytes
  match post with
  | [] =>
    have hstop : mergeWithNext t heap m a = m := by
      simp only [mergeWithNext]
      rw [if_pos (Or.inl (by rw [h.1]; rfl))]
    rw [hstop]
    exact ⟨h, fun _ _ => rfl⟩
  | ⟨q, some r⟩ :: post =>
    have hnext : (t.loadBlock m a).next = a + (t.headerBytes + n) := by rw [h.1]; rfl
    have hstop : mergeWithNext t heap m a = m := by
      simp only [mergeWithNext]
      rw [if_pos (Or.inr (by rw [hnext, h.2.1]; rfl))]
    rw [hstop]
    exact ⟨h, fun _ _ => rfl⟩
  | ⟨q, none⟩ :: post =>
    have hnext : (t.loadBlock m a).next = a + (t.headerBytes + n) := by rw [h.1]; rfl
    have hafter : (t.loadBlock m (a + (t.headerBytes + n))).next =
        entry (a + (t.headerBytes + n) + (t.headerBytes + q)) post 0 := by rw [h.2.1]; rfl
    have hpayload : (t.loadBlock m (a + (t.headerBytes + n))).payloadBytes = q := by rw [h.2.1]; rfl
    simp only [extent_cons] at hend
    rw [mergeWithNext_eq (by rw [hnext]; omega) (by rw [hnext, h.2.1]; rfl), hnext, hafter, hpayload, hheap]
    have hrest : Tiles t m (a + (t.headerBytes + n)) (a + (t.headerBytes + n) + (t.headerBytes + q)) post 0 := h.2.2
    have hsize : t.add (t.loadBlock m a).payloadBytes (t.add t.headerBytes q) = n + (t.headerBytes + q) := by
      have hn : (t.loadBlock m a).payloadBytes = n := by rw [h.1]; rfl
      have hinner : t.add t.headerBytes q = t.headerBytes + q := Target.add_eq (by omega)
      rw [hn, hinner, Target.add_eq (by omega)]
    have hfar : a + (t.headerBytes + (n + (t.headerBytes + q))) = a + (t.headerBytes + n) + (t.headerBytes + q) := by
      omega
    have hentry : entry (a + (t.headerBytes + n) + (t.headerBytes + q)) post 0 < 2 ^ t.width := entry_lt (by omega)
    have hfits := Target.loadBlock_fits (t := t) m a
    constructor
    · constructor
      · rw [Target.loadBlock_setBlock_of_apart _ (by omega),
          Target.loadBlock_congr (fun x _ hx => relink_apply post (by omega)),
          Target.loadBlock_setBlock, hsize, h.1]
        · simp only [cellBlock, hfar]
        · refine ⟨Target.lt_word ?_, hfits.2, hfits.3, Target.lt_word hentry, hfits.5⟩
          simp only [hsize]
          omega
      · simp only [hfar]
        exact hrest.relink_between (by omega) (by omega) (by omega) (by omega) _ _
    · intro x hx
      rw [Target.setBlock_apply _ (by omega), relink_apply post (by omega), Target.setBlock_apply _ (by omega)]

theorem split_tiles {m₁ m₂ m₃ m₄ : Memory} {r left : Nat} {c : Cell}
    (h : Tiles t m previous a (c :: post) 0) (ha : a ≠ 0) (hr : r < 2 ^ t.width)
    (hcut : n + t.headerBytes + left = c.payload) (hend : a + extent t.headerBytes (c :: post) < 2 ^ t.width)
    (h₁ : m₁ = t.setBlock m (a + (t.headerBytes + n)) fun _ =>
      { payloadBytes := left, requestedBytes := 0, previous := a,
        next := entry (a + (t.headerBytes + c.payload)) post 0, magic := heapBlockMagic, isFree := true })
    (h₂ : m₂ = relink t m₁ (entry (a + (t.headerBytes + c.payload)) post 0) (a + (t.headerBytes + n)))
    (h₃ : m₃ = t.setBlock m₂ a fun b => { b with next := a + (t.headerBytes + n), payloadBytes := n })
    (h₄ : m₄ = t.setBlock m₃ a fun b => { b with requestedBytes := r, isFree := false }) :
    Tiles t m₄ previous a (⟨n, some r⟩ :: ⟨left, none⟩ :: post) 0 ∧ ∀ x, x < a → m₄ x = m x := by
  have hle := t.blockBytes_le_headerBytes
  simp only [extent_cons] at hend
  have hfar : a + (t.headerBytes + n) + (t.headerBytes + left) = a + (t.headerBytes + c.payload) := by omega
  have hentry : entry (a + (t.headerBytes + c.payload)) post 0 < 2 ^ t.width := entry_lt (by omega)
  have hbefore : ∀ x, x < a → m₄ x = m x := by
    intro x hx
    rw [h₄, Target.setBlock_apply _ (by omega), h₃, Target.setBlock_apply _ (by omega), h₂,
      relink_apply post (by omega), h₁, Target.setBlock_apply _ (by omega)]
  have hblock : t.loadBlock m₄ a = cellBlock ⟨n, some r⟩ previous (a + (t.headerBytes + n)) := by
    have hsame : t.loadBlock m₂ a = t.loadBlock m a := by
      rw [h₂, Target.loadBlock_congr (fun x _ hx => relink_apply post (by omega)), h₁,
        Target.loadBlock_setBlock_of_apart _ (by omega)]
    have hfits₂ := Target.loadBlock_fits (t := t) m₂ a
    have hfits₃ := Target.loadBlock_fits (t := t) m₃ a
    rw [h₄, Target.loadBlock_setBlock ⟨hfits₃.1, Target.lt_word hr, hfits₃.3, hfits₃.4, hfits₃.5⟩, h₃,
      Target.loadBlock_setBlock ⟨Target.lt_word (by dsimp only; omega), hfits₂.2, hfits₂.3,
        Target.lt_word (by dsimp only; omega), hfits₂.5⟩, hsame, h.1]
    rfl
  have hsplit : t.loadBlock m₄ (a + (t.headerBytes + n)) =
      cellBlock ⟨left, none⟩ a (entry (a + (t.headerBytes + c.payload)) post 0) := by
    rw [h₄, Target.loadBlock_setBlock_of_apart _ (by omega), h₃, Target.loadBlock_setBlock_of_apart _ (by omega),
      h₂,
      Target.loadBlock_congr (fun x _ hx => relink_apply post (by omega)), h₁,
      Target.loadBlock_setBlock ⟨Target.lt_word (by dsimp only; omega), Target.lt_word (Nat.two_pow_pos _),
        Target.lt_word (by dsimp only; omega), Target.lt_word hentry, heapBlockMagic_lt⟩]
    rfl
  refine ⟨⟨hblock, ?_, ?_⟩, hbefore⟩
  · rw [hsplit]
    simp only [hfar]
  · simp only [hfar]
    have hrest : Tiles t m₃ (a + (t.headerBytes + n)) (a + (t.headerBytes + c.payload)) post 0 := by
      rw [h₃, h₂, h₁]
      exact h.2.relink_between (by omega) (by omega) (by omega) (by omega) _ _
    rw [h₄]
    exact hrest.congr_above (le_refl _) (fun x hx => Target.setBlock_apply _ (by omega))

theorem heapLabTake_tiles {s : HeapLabState} {r : Nat} {c : Cell}
    (hheader : s.heap.headerBytes = t.headerBytes) (halign : s.heap.alignment = t.alignment)
    (h : Tiles t s.memory previous a (c :: post) 0) (ha : a ≠ 0) (hfit : c.Fits n) (hr : r < 2 ^ t.width)
    (hend : a + extent t.headerBytes (c :: post) < 2 ^ t.width) :
    Tiles t (heapLabTake t s r n a).1.memory previous a (carve t.headerBytes t.alignment n r c ++ post) 0 ∧
      ∀ x, x < a → (heapLabTake t s r n a).1.memory x = s.memory x := by
  have hle := t.blockBytes_le_headerBytes
  have hnp := hfit.2
  simp only [extent_cons] at hend
  have hfits := Target.loadBlock_fits (t := t) s.memory a
  have hpayload : (t.loadBlock s.memory a).payloadBytes = c.payload := by rw [h.1]; rfl
  have hnext : (t.loadBlock s.memory a).next = entry (a + (t.headerBytes + c.payload)) post 0 := by rw [h.1]; rfl
  have hrem : t.sub c.payload n = c.payload - n := Target.sub_eq hnp (by omega)
  have hsum : t.add t.headerBytes t.alignment = t.headerBytes + t.alignment := Target.add_eq t.headerBytes_add_lt
  by_cases hs : t.headerBytes + t.alignment ≤ c.payload - n
  · have hstart : t.add a t.headerBytes = a + t.headerBytes := Target.add_eq (by omega)
    have hsplit : t.add (a + t.headerBytes) n = a + (t.headerBytes + n) := by
      rw [Target.add_eq (by omega), Nat.add_assoc]
    have hleft : t.sub (c.payload - n) t.headerBytes = c.payload - n - t.headerBytes :=
      Target.sub_eq (by omega) (by omega)
    have hcarve : carve t.headerBytes t.alignment n r c ++ post =
        ⟨n, some r⟩ :: ⟨c.payload - n - t.headerBytes, none⟩ :: post := by
      rw [carve, if_pos hs]
      rfl
    simp only [heapLabTake, Target.blockPayload, hpayload, hnext, hheader, halign, hrem, hsum, hstart, hsplit, hleft]
    rw [if_pos hs, hcarve]
    exact split_tiles h ha hr (by omega) (by simp only [extent_cons]; omega) rfl rfl rfl rfl
  · have hcarve : carve t.headerBytes t.alignment n r c ++ post = ⟨c.payload, some r⟩ :: post := by
      rw [carve, if_neg hs]
      rfl
    simp only [heapLabTake, hpayload, hheader, halign, hrem, hsum]
    rw [if_neg hs, hcarve]
    refine ⟨⟨?_, ?_⟩, fun x hx => Target.setBlock_apply _ (Or.inl hx)⟩
    · rw [Target.loadBlock_setBlock ⟨hfits.1, Target.lt_word hr, hfits.3, hfits.4, hfits.5⟩, h.1]
      rfl
    · exact h.2.congr_above (le_refl _) (fun x hx => Target.setBlock_apply _ (by omega))

theorem Tiles.block {c : Cell}
    (h : Tiles t m previous a (pre ++ c :: post) last) :
    t.loadBlock m (a + extent t.headerBytes pre) = cellBlock c (lastStart t previous a pre)
      (entry (a + extent t.headerBytes pre + (t.headerBytes + c.payload)) post last) :=
  (tiles_append.mp h).2.1

theorem freeBlock_tiles {c : Cell}
    (h : Tiles t m previous a (c :: post) 0) :
    Tiles t (t.setBlock m a fun b => { b with isFree := true, requestedBytes := 0 }) previous a
      (⟨c.payload, none⟩ :: post) 0 := by
  have hle := t.blockBytes_le_headerBytes
  have hfits := Target.loadBlock_fits (t := t) m a
  constructor
  · rw [Target.loadBlock_setBlock ⟨hfits.1, Target.lt_word (Nat.two_pow_pos _), hfits.3, hfits.4, hfits.5⟩, h.1]
    rfl
  · exact h.2.congr_above (le_refl _) (fun x hx => Target.setBlock_apply _ (by omega))

theorem heapLabGiveBack_spec {s : HeapLabState} {c : Cell}
    (hheader : s.heap.headerBytes = t.headerBytes) (h : Tiles t s.memory 0 a (pre ++ c :: post) 0) (ha : a ≠ 0)
    (hc : c.requested ≠ none) (hend : a + extent t.headerBytes (pre ++ c :: post) < 2 ^ t.width) :
    ∃ m, heapLabGiveBack t s (a + extent t.headerBytes pre) =
        ({ heap := { s.heap with freeCount := t.add s.heap.freeCount 1 }, memory := m }, .ok) ∧
      Tiles t m 0 a (release t.headerBytes pre c post) 0 := by
  have hused : (t.loadBlock s.memory (a + extent t.headerBytes pre)).isFree = false := by
    rw [h.block]
    simpa [cellBlock, Option.isSome_iff_ne_none] using hc
  simp only [extent_append, extent_cons] at hend
  have hfreed := freeBlock_tiles (tiles_append.mp h).2
  obtain ⟨hjoin, hbelow⟩ := mergeWithNext_spec hheader hfreed (by omega)
    (by simp only [extent_cons]; omega)
  obtain ⟨m₂, hm₂⟩ : ∃ m₂, m₂ = mergeWithNext t s.heap
    (t.setBlock s.memory (a + extent t.headerBytes pre) fun b =>
    { b with isFree := true, requestedBytes := 0 }) (a + extent t.headerBytes pre) := ⟨_, rfl⟩
  rw [← hm₂] at hjoin hbelow
  obtain ⟨k, rest, hk⟩ := joinNext_free t.headerBytes c.payload post
  have hall : Tiles t m₂ 0 a (pre ++ joinNext t.headerBytes ⟨c.payload, none⟩ post) 0 := by
    refine h.replace (by simp) (by rw [hk]; simp) hjoin (fun x hx => ?_)
    rw [hbelow x hx, Target.setBlock_apply _ (Or.inl hx)]
  have hprevious : (t.loadBlock m₂ (a + extent t.headerBytes pre)).previous = lastStart t 0 a pre := by
    rw [hk] at hall
    rw [hall.block]
    rfl
  simp only [heapLabGiveBack, hused, ← hm₂, hprevious, Bool.false_eq_true, if_false]
  refine ⟨_, rfl, ?_⟩
  rcases last_cases pre with ⟨kept, n, rfl⟩ | hlast
  · rw [List.append_assoc, List.singleton_append] at hall
    have hfree : (t.loadBlock m₂ (a + extent t.headerBytes kept)).isFree = true := by
      rw [hall.block]
      rfl
    have hne : a + extent t.headerBytes kept ≠ 0 := by omega
    simp only [extent_append, extent_cons, extent_nil] at hend
    rw [lastStart_append, if_pos ⟨hne, hfree⟩, release_after_free]
    obtain ⟨hlower, hframe⟩ := mergeWithNext_spec hheader (tiles_append.mp hall).2 hne (by
      simp only [extent_cons, extent_joinNext]
      omega)
    obtain ⟨k', rest', hk'⟩ := joinNext_free t.headerBytes n (joinNext t.headerBytes ⟨c.payload, none⟩ post)
    exact hall.replace (by simp) (by rw [hk']; simp) hlower hframe
  · have hstop : ¬ (lastStart t 0 a pre ≠ 0 ∧ (t.loadBlock m₂ (lastStart t 0 a pre)).isFree = true) := by
      rcases List.eq_nil_or_concat pre with rfl | ⟨kept, d, rfl⟩
      · exact fun hcon => hcon.1 rfl
      · rw [List.concat_eq_append, lastStart_append]
        rw [List.concat_eq_append, List.append_assoc] at hall
        rintro ⟨-, hfree⟩
        rw [hall.block] at hfree
        exact hlast d (by simp) (Option.isNone_iff_eq_none.mp hfree)
    rw [if_neg hstop, release_after_used hlast]
    exact hall

end Hairtos

import Mathlib.Data.List.Chain
import Mathlib.Algebra.Order.Group.Nat

/-!
A stretch of addresses tiled by cells, each a header of fixed size and a payload that is free or was
requested. Cells are cut at a first fit and joined with their free neighbours, so that no two free cells
meet: the tiling is then determined by the cells in use.
-/

namespace Hairtos.Library

variable {a z n r : Nat} {cells xs ys : List Cell}

/-- `requested = none` is a free cell. -/
structure Cell where
  payload : Nat
  requested : Option Nat
  deriving DecidableEq, Repr

structure Placed where
  address : Nat
  payload : Nat
  requested : Nat
  deriving DecidableEq, Repr

def Cell.Fits (n : Nat) (c : Cell) : Prop := c.requested = none ∧ n ≤ c.payload

instance Cell.decidableFits (n : Nat) (c : Cell) : Decidable (c.Fits n) := inferInstanceAs (Decidable (_ ∧ _))

theorem exists_first_fit (n : Nat) (cells : List Cell) :
    (∀ c ∈ cells, ¬ c.Fits n) ∨
      ∃ pre c post, cells = pre ++ c :: post ∧ c.Fits n ∧ ∀ d ∈ pre, ¬ d.Fits n := by
  induction cells with
  | nil => exact Or.inl (by simp)
  | cons c cells ih =>
    by_cases hc : c.Fits n
    · exact Or.inr ⟨[], c, cells, rfl, hc, by simp⟩
    · rcases ih with hnone | ⟨pre, d, post, rfl, hd, hpre⟩
      · exact Or.inl (List.forall_mem_cons.mpr ⟨hc, hnone⟩)
      · exact Or.inr ⟨c :: pre, d, post, rfl, hd, List.forall_mem_cons.mpr ⟨hc, hpre⟩⟩

section Extents

variable (header : Nat)

def extent : List Cell → Nat
  | [] => 0
  | c :: cells => header + c.payload + extent cells

def starts : Nat → List Cell → List Nat
  | _, [] => []
  | a, c :: cells => a :: starts (a + (header + c.payload)) cells

def used : Nat → List Cell → List Placed
  | _, [] => []
  | a, ⟨n, none⟩ :: cells => used (a + (header + n)) cells
  | a, ⟨n, some r⟩ :: cells => ⟨a, n, r⟩ :: used (a + (header + n)) cells

@[simp] theorem extent_nil : extent header [] = 0 := rfl

@[simp] theorem extent_cons (c : Cell) (cells : List Cell) :
    extent header (c :: cells) = header + c.payload + extent header cells := rfl

@[simp] theorem extent_append (xs ys : List Cell) :
    extent header (xs ++ ys) = extent header xs + extent header ys := by
  induction xs with
  | nil => simp
  | cons c xs ih =>
    rw [List.cons_append, extent_cons, extent_cons, ih]
    omega

theorem starts_append (a : Nat) (xs ys : List Cell) :
    starts header a (xs ++ ys) = starts header a xs ++ starts header (a + extent header xs) ys := by
  induction xs generalizing a with
  | nil => simp [starts]
  | cons c xs ih => simp [starts, ih, Nat.add_assoc]

@[simp] theorem length_starts (a : Nat) (cells : List Cell) : (starts header a cells).length = cells.length := by
  induction cells generalizing a with
  | nil => rfl
  | cons c cells ih => simp [starts, ih]

theorem mem_starts {b : Nat} :
    b ∈ starts header a cells ↔ ∃ pre c post, cells = pre ++ c :: post ∧ b = a + extent header pre := by
  induction cells generalizing a with
  | nil => simp [starts]
  | cons c cells ih =>
    simp only [starts, List.mem_cons, ih]
    constructor
    · rintro (rfl | ⟨pre, d, post, rfl, rfl⟩)
      · exact ⟨[], c, cells, rfl, by simp⟩
      · exact ⟨c :: pre, d, post, rfl, by simp; omega⟩
    · rintro ⟨pre, d, post, h, rfl⟩
      cases pre with
      | nil => exact Or.inl (by simp)
      | cons e pre =>
        obtain ⟨rfl, rfl⟩ := List.cons.inj h
        exact Or.inr ⟨pre, d, post, rfl, by simp; omega⟩

theorem used_append (a : Nat) (xs ys : List Cell) :
    used header a (xs ++ ys) = used header a xs ++ used header (a + extent header xs) ys := by
  induction xs generalizing a with
  | nil => simp [used]
  | cons c xs ih =>
    obtain ⟨n, _ | r⟩ := c
    · simp [used, ih, Nat.add_assoc]
    · simp [used, ih, Nat.add_assoc]

theorem mem_used {b : Placed} :
    b ∈ used header a cells ↔
      ∃ pre post, cells = pre ++ ⟨b.payload, some b.requested⟩ :: post ∧ b.address = a + extent header pre := by
  induction cells generalizing a with
  | nil => simp [used]
  | cons c cells ih =>
    obtain ⟨n, _ | r⟩ := c
    · simp only [used, ih]
      constructor
      · rintro ⟨pre, post, rfl, hb⟩
        exact ⟨⟨n, none⟩ :: pre, post, rfl, by simp; omega⟩
      · rintro ⟨_ | ⟨e, pre⟩, post, h, hb⟩
        · simp at h
        · obtain ⟨rfl, rfl⟩ := List.cons.inj h
          exact ⟨pre, post, rfl, by simp at hb; omega⟩
    · simp only [used, List.mem_cons, ih]
      constructor
      · rintro (rfl | ⟨pre, post, rfl, hb⟩)
        · exact ⟨[], cells, rfl, by simp⟩
        · exact ⟨⟨n, some r⟩ :: pre, post, rfl, by simp; omega⟩
      · rintro ⟨_ | ⟨e, pre⟩, post, h, hb⟩
        · obtain ⟨ha, np, nr⟩ := b
          simp only [List.nil_append, List.cons.injEq, Cell.mk.injEq, Option.some.injEq, extent_nil,
            Nat.add_zero] at h hb
          obtain ⟨⟨rfl, rfl⟩, rfl⟩ := h
          exact Or.inl (by rw [hb])
        · obtain ⟨rfl, rfl⟩ := List.cons.inj h
          exact Or.inr ⟨pre, post, rfl, by simp at hb; omega⟩

theorem used_bounds {b : Placed} (h : b ∈ used header a cells) :
    a ≤ b.address ∧ b.address + (header + b.payload) ≤ a + extent header cells := by
  obtain ⟨pre, post, rfl, hb⟩ := (mem_used header).mp h
  simp only [extent_append, extent_cons]
  omega

theorem used_pairwise (a : Nat) (cells : List Cell) :
    (used header a cells).Pairwise (fun b d => b.address + (header + b.payload) ≤ d.address) := by
  induction cells generalizing a with
  | nil => exact List.Pairwise.nil
  | cons c cells ih =>
    obtain ⟨n, _ | r⟩ := c
    · exact ih _
    · exact List.Pairwise.cons (fun d hd => (used_bounds header hd).1) (ih _)

theorem exists_cell (ha : a ≤ z) (hz : z < a + extent header cells) :
    ∃ pre c post, cells = pre ++ c :: post ∧ a + extent header pre ≤ z ∧
      z < a + extent header pre + (header + c.payload) := by
  induction cells generalizing a with
  | nil => simp at hz; omega
  | cons c cells ih =>
    by_cases h : z < a + (header + c.payload)
    · exact ⟨[], c, cells, rfl, by simpa using ha, by simpa using h⟩
    · obtain ⟨pre, d, post, rfl, hle, hlt⟩ :=
        ih (a := a + (header + c.payload)) (by omega) (by simp at hz; omega)
      exact ⟨c :: pre, d, post, rfl, by simp; omega, by simp; omega⟩

theorem cell_unique {pre' post' : List Cell} {d : Cell}
    (h : pre ++ c :: post = pre' ++ d :: post') (hz : extent header pre ≤ z)
    (hz' : z < extent header pre + (header + c.payload)) (hw : extent header pre' ≤ z)
    (hw' : z < extent header pre' + (header + d.payload)) : pre = pre' ∧ c = d ∧ post = post' := by
  induction pre generalizing pre' z with
  | nil =>
    cases pre' with
    | nil => simpa using h
    | cons e pre' =>
      obtain ⟨rfl, -⟩ := List.cons.inj h
      simp only [extent_nil, extent_cons] at hz' hw
      omega
  | cons e pre ih =>
    cases pre' with
    | nil =>
      obtain ⟨rfl, -⟩ := List.cons.inj h
      simp only [extent_nil, extent_cons] at hz hw'
      omega
    | cons e' pre' =>
      obtain ⟨rfl, htail⟩ := List.cons.inj h
      simp only [extent_cons] at hz hz' hw hw'
      obtain ⟨rfl, rfl, rfl⟩ := ih (z := z - (header + e.payload)) htail (by omega) (by omega) (by omega) (by omega)
      exact ⟨rfl, rfl, rfl⟩

theorem mem_of_extent_lt {pre' post' : List Cell} {d : Cell} (h : pre ++ c :: post = pre' ++ d :: post')
    (hlt : extent header pre' < extent header pre) : d ∈ pre := by
  induction pre' generalizing pre with
  | nil =>
    cases pre with
    | nil => simp at hlt
    | cons e pre =>
      obtain ⟨rfl, -⟩ := List.cons.inj h
      simp
  | cons e pre' ih =>
    cases pre with
    | nil => simp at hlt
    | cons e' pre =>
      obtain ⟨rfl, htail⟩ := List.cons.inj h
      simp only [extent_cons] at hlt
      exact List.mem_cons_of_mem _ (ih htail (by omega))

end Extents

def Normal (cells : List Cell) : Prop := (cells.map Cell.requested).IsChain (fun x y => x = none → y ≠ none)

structure Cell.Sound (align : Nat) (c : Cell) : Prop where
  pos : align ≤ c.payload
  dvd : align ∣ c.payload
  requested : ∀ r, c.requested = some r → 0 < r ∧ r ≤ c.payload

structure Tiling (header align size : Nat) where
  cells : List Cell
  extent_eq : extent header cells = size
  sound : ∀ c ∈ cells, c.Sound align
  normal : Normal cells

theorem normal_split :
    Normal (pre ++ c :: post) ↔ Normal (pre ++ [c]) ∧ Normal (c :: post) := by
  simp only [Normal, List.map_append, List.map_cons, List.map_nil]
  exact List.isChain_split

theorem normal_congr (h : xs.map Cell.requested = ys.map Cell.requested) :
    Normal xs ↔ Normal ys := by
  simp only [Normal, h]

theorem normal_cons :
    Normal (c :: cells) ↔ (∀ d ∈ cells.head?, c.requested = none → d.requested ≠ none) ∧ Normal cells := by
  simp [Normal, List.isChain_cons, List.head?_map]

theorem normal_append_free (hc : c.requested = none) :
    Normal (pre ++ [c]) ↔ Normal pre ∧ ∀ d ∈ pre.getLast?, d.requested ≠ none := by
  simp [Normal, List.isChain_append, List.getLast?_map, hc]

theorem normal_append_used (hc : c.requested ≠ none) :
    Normal (pre ++ [c]) ↔ Normal pre := by
  simp [Normal, List.isChain_append, List.getLast?_map, hc]

section Uniqueness

variable {header : Nat}

theorem exists_used_after_free (header a : Nat) (h : Normal (⟨n, none⟩ :: cells))
    (hne : cells ≠ []) : ∃ b ∈ used header a (⟨n, none⟩ :: cells), b.address = a + (header + n) := by
  obtain ⟨⟨m, _ | r⟩, cells, rfl⟩ := List.exists_cons_of_ne_nil hne
  · exact absurd rfl ((normal_cons.mp h).1 ⟨m, none⟩ rfl rfl)
  · exact ⟨⟨a + (header + n), m, r⟩, by simp [used], rfl⟩

theorem used_after_free {b : Placed} (h : b ∈ used header a (⟨n, none⟩ :: cells)) :
    a + (header + n) ≤ b.address := by
  rw [used] at h
  exact (used_bounds header h).1

theorem head_of_used (hpos : 0 < header) {b : Placed}
    (h : b ∈ used header a (c :: cells)) (hb : b.address = a) : c = ⟨b.payload, some b.requested⟩ := by
  obtain ⟨n, _ | r⟩ := c
  · have := used_after_free h
    omega
  · rw [used, List.mem_cons] at h
    rcases h with rfl | h
    · rfl
    · have := (used_bounds header h).1
      omega

theorem mem_used_tail (hpos : 0 < header) {b : Placed} :
    b ∈ used header (a + (header + c.payload)) cells ↔ b ∈ used header a (c :: cells) ∧ b.address ≠ a := by
  obtain ⟨n, _ | r⟩ := c
  · simp only [used, iff_self_and]
    intro h
    have := (used_bounds header h).1
    omega
  · simp only [used, List.mem_cons]
    constructor
    · intro h
      have := (used_bounds header h).1
      exact ⟨Or.inr h, by omega⟩
    · rintro ⟨rfl | h, hne⟩
      · exact absurd rfl hne
      · exact h

theorem eq_nil_of_extent (hpos : 0 < header) (h : extent header cells = 0) : cells = [] := by
  cases cells with
  | nil => rfl
  | cons c cells =>
    simp only [extent_cons] at h
    omega

theorem free_head_eq {m : Nat}
    (hext : extent header (⟨n, none⟩ :: xs) = extent header (⟨m, none⟩ :: ys))
    (hx : Normal (⟨n, none⟩ :: xs)) (hy : Normal (⟨m, none⟩ :: ys))
    (h : ∀ b, b ∈ used header a (⟨n, none⟩ :: xs) ↔ b ∈ used header a (⟨m, none⟩ :: ys)) : n = m := by
  by_cases hxs : xs = []
  · by_cases hys : ys = []
    · subst hxs hys
      simpa using hext
    · obtain ⟨b, hb, -⟩ := exists_used_after_free header a hy hys
      have := (h b).mpr hb
      simp [hxs, used] at this
  · by_cases hys : ys = []
    · obtain ⟨b, hb, -⟩ := exists_used_after_free header a hx hxs
      have := (h b).mp hb
      simp [hys, used] at this
    · obtain ⟨b, hb, hba⟩ := exists_used_after_free header a hx hxs
      obtain ⟨e, he, hea⟩ := exists_used_after_free header a hy hys
      have hmb := used_after_free ((h b).mp hb)
      have hne := used_after_free ((h e).mpr he)
      omega

theorem cells_eq_of_used (hpos : 0 < header)
    (hext : extent header xs = extent header ys) (hx : Normal xs) (hy : Normal ys)
    (h : ∀ b, b ∈ used header a xs ↔ b ∈ used header a ys) : xs = ys := by
  induction xs generalizing a ys with
  | nil => exact (eq_nil_of_extent hpos hext.symm).symm
  | cons c xs ih =>
    cases ys with
    | nil => exact eq_nil_of_extent hpos hext
    | cons d ys =>
      have hcd : c = d := by
        obtain ⟨n, _ | r⟩ := c
        · obtain ⟨m, _ | q⟩ := d
          · rw [free_head_eq hext hx hy h]
          · exact head_of_used hpos ((h ⟨a, m, q⟩).mpr (by simp [used])) rfl
        · exact (head_of_used hpos ((h ⟨a, n, r⟩).mp (by simp [used])) rfl).symm
      subst hcd
      have htail : ∀ b, b ∈ used header (a + (header + c.payload)) xs ↔
          b ∈ used header (a + (header + c.payload)) ys := by
        intro b
        rw [mem_used_tail hpos, mem_used_tail hpos, h]
      rw [ih (by simpa using hext) (normal_cons.mp hx).2 (normal_cons.mp hy).2 htail]

def Covered (header a : Nat) (cells : List Cell) (z : Nat) : Prop :=
  ∃ b ∈ used header a cells, b.address ≤ z ∧ z < b.address + (header + b.payload)

structure Gap (header a : Nat) (cells : List Cell) (x y : Nat) : Prop where
  lower : a ≤ x
  lt : x < y
  upper : y ≤ a + extent header cells
  clear : ∀ z, x ≤ z → z < y → ¬ Covered header a cells z
  left : x = a ∨ Covered header a cells (x - 1)
  right : y = a + extent header cells ∨ Covered header a cells y

theorem covered_iff (hz : a + extent header pre ≤ z)
    (hz' : z < a + extent header pre + (header + c.payload)) :
    Covered header a (pre ++ c :: post) z ↔ c.requested ≠ none := by
  constructor
  · rintro ⟨b, hb, hle, hlt⟩
    obtain ⟨pre', post', he, hba⟩ := (mem_used header).mp hb
    obtain ⟨-, rfl, -⟩ := cell_unique header (z := z - a) he (by omega) (by omega) (by omega)
      (by dsimp only; omega)
    simp
  · intro hc
    obtain ⟨r, hr⟩ := Option.ne_none_iff_exists'.mp hc
    refine ⟨⟨a + extent header pre, c.payload, r⟩, (mem_used header).mpr ⟨pre, post, ?_, rfl⟩, hz, hz'⟩
    rw [← hr]

theorem gap_iff (hpos : 0 < header) {x y : Nat} (hnormal : Normal cells) :
    Gap header a cells x y ↔
      ∃ pre n post, cells = pre ++ ⟨n, none⟩ :: post ∧ x = a + extent header pre ∧ y = x + (header + n) := by
  constructor
  · intro h
    obtain ⟨pre, ⟨n, req⟩, post, rfl, hle, hlt⟩ := exists_cell header h.lower (lt_of_lt_of_le h.lt h.upper)
    have hfree : req = none := by
      by_contra hne
      exact h.clear x (le_refl x) h.lt ((covered_iff hle hlt).mpr hne)
    subst hfree
    have hx : x = a + extent header pre := by
      by_contra hne
      rcases h.left with rfl | hcov
      · omega
      · exact (covered_iff (by omega) (by omega)).mp hcov rfl
    refine ⟨pre, n, post, rfl, hx, ?_⟩
    have hupper := h.upper
    simp only [extent_append, extent_cons] at hupper
    have hlow : x + (header + n) ≤ y := by
      by_contra hne
      rcases h.right with hy | hcov
      · simp only [extent_append, extent_cons] at hy
        omega
      · exact (covered_iff (by have := h.lt; omega) (by dsimp only; omega)).mp hcov rfl
    have hhigh : ¬ x + (header + n) < y := by
      intro hgt
      -- the byte after the free cell is the header of a cell in use
      have hne : post ≠ [] := by
        rintro rfl
        simp only [extent_nil] at hupper
        omega
      obtain ⟨b, hb, hba⟩ := exists_used_after_free header (a + extent header pre) (normal_split.mp hnormal).2 hne
      refine h.clear (x + (header + n)) (by omega) hgt ⟨b, ?_, by omega, by omega⟩
      rw [used_append]
      exact List.mem_append_right _ hb
    omega
  · rintro ⟨pre, n, post, rfl, rfl, rfl⟩
    have hcell : ∀ z, a + extent header pre ≤ z → z < a + extent header pre + (header + n) →
        ¬ Covered header a (pre ++ ⟨n, none⟩ :: post) z := by
      intro z hz hz' hcov
      exact (covered_iff hz hz').mp hcov rfl
    refine ⟨Nat.le_add_right _ _, by omega, ?_, hcell, ?_, ?_⟩
    · simp only [extent_append, extent_cons]
      omega
    · obtain ⟨hpre, -⟩ := normal_split.mp hnormal
      obtain ⟨-, hlast⟩ := (normal_append_free rfl).mp hpre
      rcases List.eq_nil_or_concat pre with rfl | ⟨kept, d, rfl⟩
      · exact Or.inl (by simp)
      · rw [List.concat_eq_append] at hlast ⊢
        rw [List.append_assoc]
        refine Or.inr ((covered_iff ?_ ?_).mpr (hlast d (by simp)))
        · simp only [extent_append, extent_cons, extent_nil]
          omega
        · simp only [extent_append, extent_cons, extent_nil]
          omega
    · obtain ⟨-, hpost⟩ := normal_split.mp hnormal
      cases post with
      | nil => exact Or.inl (by simp only [extent_append, extent_cons, extent_nil]; omega)
      | cons d post =>
        have hd := (normal_cons.mp hpost).1 d rfl rfl
        have hcells : pre ++ ⟨n, none⟩ :: d :: post = (pre ++ [⟨n, none⟩]) ++ d :: post := by simp
        rw [hcells]
        refine Or.inr ((covered_iff ?_ ?_).mpr hd)
        · simp only [extent_append, extent_cons, extent_nil]
          omega
        · simp only [extent_append, extent_cons, extent_nil]
          omega

end Uniqueness

section Operations

variable (header align : Nat)

def carve (n r : Nat) (c : Cell) : List Cell :=
  if header + align ≤ c.payload - n then [⟨n, some r⟩, ⟨c.payload - n - header, none⟩]
  else [⟨c.payload, some r⟩]

def joinNext (c : Cell) : List Cell → List Cell
  | ⟨n, none⟩ :: post => ⟨c.payload + (header + n), c.requested⟩ :: post
  | post => c :: post

def release (pre : List Cell) (c : Cell) (post : List Cell) : List Cell :=
  match pre.getLast? with
  | some ⟨n, none⟩ => pre.dropLast ++ joinNext header ⟨n, none⟩ (joinNext header ⟨c.payload, none⟩ post)
  | _ => pre ++ joinNext header ⟨c.payload, none⟩ post

variable {header align}

theorem carve_cases (header : Nat) (r : Nat) (hpos : 0 < align) (h : c.Fits n) :
    ∃ k, n ≤ k ∧ k < n + (header + align) ∧
      ((carve header align n r c = [⟨k, some r⟩] ∧ k = c.payload) ∨
        (k = n ∧ ∃ left, align ≤ left ∧ n + header + left = c.payload ∧
          carve header align n r c = [⟨n, some r⟩, ⟨left, none⟩])) := by
  have hle := h.2
  by_cases hs : header + align ≤ c.payload - n
  · exact ⟨n, le_refl n, by omega, Or.inr ⟨rfl, c.payload - n - header, by omega, by omega, if_pos hs⟩⟩
  · exact ⟨c.payload, hle, by omega, Or.inl ⟨if_neg hs, rfl⟩⟩

theorem extent_carve (r : Nat) (hpos : 0 < align) (h : c.Fits n) :
    extent header (carve header align n r c) = header + c.payload := by
  obtain ⟨k, -, -, ⟨he, rfl⟩ | ⟨-, left, -, hleft, he⟩⟩ := carve_cases header r hpos h
  · simp [he]
  · simp only [he, extent_cons, extent_nil]
    omega

theorem used_carve (header : Nat) (a r : Nat) (hpos : 0 < align) (h : c.Fits n) :
    ∃ k, n ≤ k ∧ k < n + (header + align) ∧ used header a (carve header align n r c) = [⟨a, k, r⟩] := by
  obtain ⟨k, hle, hlt, ⟨he, -⟩ | ⟨rfl, left, -, -, he⟩⟩ := carve_cases header r hpos h
  · exact ⟨k, hle, hlt, by rw [he]; rfl⟩
  · exact ⟨k, hle, hlt, by rw [he]; rfl⟩

theorem sound_carve (hpos : 0 < align) (h : c.Fits n) (hh : align ∣ header)
    (hc : c.Sound align) (hn : align ∣ n) (hr : 0 < r) (hrn : r ≤ n) :
    ∀ d ∈ carve header align n r c, d.Sound align := by
  have hle : align ≤ n := Nat.le_of_dvd (by omega) hn
  obtain ⟨k, hnk, -, ⟨he, rfl⟩ | ⟨rfl, left, hleft, hsum, he⟩⟩ := carve_cases header r hpos h
  · simp only [he, List.mem_singleton, forall_eq]
    exact ⟨hc.pos, hc.dvd, by rintro _ ⟨⟩; exact ⟨hr, le_trans hrn hnk⟩⟩
  · have hdvd : align ∣ left := by
      have := hc.dvd
      rw [← hsum] at this
      exact (Nat.dvd_add_right (Nat.dvd_add hn hh)).mp this
    simp only [he, List.mem_cons, List.not_mem_nil, or_false, forall_eq_or_imp, forall_eq]
    exact ⟨⟨hle, hn, by rintro _ ⟨⟩; exact ⟨hr, hrn⟩⟩, ⟨hleft, hdvd, by simp⟩⟩

theorem normal_carve (r : Nat) (hpos : 0 < align) (h : c.Fits n)
    (hnormal : Normal (pre ++ c :: post)) : Normal (pre ++ carve header align n r c ++ post) := by
  obtain ⟨hpre, hpost⟩ := normal_split.mp hnormal
  have hpre := ((normal_append_free h.1).mp hpre).1
  obtain ⟨k, -, -, ⟨he, -⟩ | ⟨rfl, left, -, -, he⟩⟩ := carve_cases header r hpos h
  · rw [he, List.append_assoc]
    refine normal_split.mpr ⟨(normal_append_used (by simp)).mpr hpre, ?_⟩
    exact normal_cons.mpr ⟨by simp, (normal_cons.mp hpost).2⟩
  · rw [he, List.append_assoc]
    refine normal_split.mpr ⟨(normal_append_used (by simp)).mpr hpre, ?_⟩
    refine normal_cons.mpr ⟨by simp, ?_⟩
    exact (normal_congr (by simp [h.1])).mp hpost

theorem joinNext_free (header n : Nat) (post : List Cell) :
    ∃ k rest, joinNext header ⟨n, none⟩ post = ⟨k, none⟩ :: rest := by
  match post with
  | [] => exact ⟨n, [], rfl⟩
  | ⟨m, some r⟩ :: post => exact ⟨n, ⟨m, some r⟩ :: post, rfl⟩
  | ⟨m, none⟩ :: post => exact ⟨n + (header + m), post, rfl⟩

theorem extent_joinNext (n : Nat) (post : List Cell) :
    extent header (joinNext header ⟨n, none⟩ post) = header + n + extent header post := by
  match post with
  | [] => simp [joinNext]
  | ⟨m, some r⟩ :: post => simp [joinNext]
  | ⟨m, none⟩ :: post =>
    simp only [joinNext, extent_cons]
    omega

theorem used_joinNext (a n : Nat) (post : List Cell) :
    used header a (joinNext header ⟨n, none⟩ post) = used header (a + (header + n)) post := by
  match post with
  | [] => rfl
  | ⟨m, some r⟩ :: post => rfl
  | ⟨m, none⟩ :: post =>
    simp only [joinNext, used]
    congr 1
    omega

theorem normal_joinNext (n : Nat) (h : Normal post) : Normal (joinNext header ⟨n, none⟩ post) := by
  match post, h with
  | [], _ => exact .singleton _
  | ⟨m, some r⟩ :: post, h => exact normal_cons.mpr ⟨by simp, h⟩
  | ⟨m, none⟩ :: post, h => exact (normal_congr rfl).mp h

theorem sound_joinNext (hh : align ∣ header) (hn : (⟨n, none⟩ : Cell).Sound align)
    (hp : ∀ c ∈ post, c.Sound align) : ∀ c ∈ joinNext header ⟨n, none⟩ post, c.Sound align := by
  match post, hp with
  | [], _ => simpa [joinNext] using hn
  | ⟨m, some r⟩ :: post, hp => exact List.forall_mem_cons.mpr ⟨hn, hp⟩
  | ⟨m, none⟩ :: post, hp =>
    obtain ⟨hm, hp⟩ := List.forall_mem_cons.mp hp
    refine List.forall_mem_cons.mpr ⟨⟨?_, ?_, by simp⟩, hp⟩
    · exact le_trans hn.pos (Nat.le_add_right _ _)
    · exact Nat.dvd_add hn.dvd (Nat.dvd_add hh hm.dvd)

theorem last_cases (pre : List Cell) :
    (∃ kept n, pre = kept ++ [⟨n, none⟩]) ∨ ∀ d ∈ pre.getLast?, d.requested ≠ none := by
  rcases List.eq_nil_or_concat pre with rfl | ⟨kept, ⟨n, _ | r⟩, rfl⟩
  · exact Or.inr (by simp)
  · exact Or.inl ⟨kept, n, by simp⟩
  · exact Or.inr (by simp)

theorem release_after_free (kept : List Cell) (n : Nat) (c : Cell) (post : List Cell) :
    release header (kept ++ [⟨n, none⟩]) c post =
      kept ++ joinNext header ⟨n, none⟩ (joinNext header ⟨c.payload, none⟩ post) := by
  simp [release]

theorem release_after_used (h : ∀ d ∈ pre.getLast?, d.requested ≠ none) (c : Cell)
    (post : List Cell) : release header pre c post = pre ++ joinNext header ⟨c.payload, none⟩ post := by
  simp only [release]
  split
  · next n hn => exact absurd rfl (h _ hn)
  · rfl

theorem extent_release (pre : List Cell) (c : Cell) (post : List Cell) :
    extent header (release header pre c post) = extent header (pre ++ c :: post) := by
  rcases last_cases pre with ⟨kept, n, rfl⟩ | h
  · simp only [release_after_free, extent_append, extent_joinNext, extent_cons, extent_nil]
    omega
  · simp only [release_after_used h, extent_append, extent_joinNext, extent_cons]

theorem used_release (a : Nat) (pre : List Cell) (c : Cell) (post : List Cell) :
    used header a (release header pre c post) =
      used header a pre ++ used header (a + extent header pre + (header + c.payload)) post := by
  rcases last_cases pre with ⟨kept, n, rfl⟩ | h
  · simp only [release_after_free, used_append, used_joinNext, used, extent_append, extent_cons, extent_nil,
      List.append_nil, Nat.add_zero, Nat.add_assoc]
  · simp only [release_after_used h, used_append, used_joinNext]

theorem normal_release (c : Cell) (hpre : Normal pre) (hpost : Normal post) :
    Normal (release header pre c post) := by
  obtain ⟨k, rest, hjoin⟩ := joinNext_free header c.payload post
  have hright : Normal (⟨k, none⟩ :: rest) := hjoin ▸ normal_joinNext c.payload hpost
  rcases last_cases pre with ⟨kept, n, rfl⟩ | h
  · rw [release_after_free, hjoin, joinNext]
    exact normal_split.mpr ⟨(normal_congr (by simp)).mp hpre, (normal_congr rfl).mp hright⟩
  · rw [release_after_used h, hjoin]
    exact normal_split.mpr ⟨(normal_append_free rfl).mpr ⟨hpre, h⟩, hright⟩

theorem sound_release (hh : align ∣ header) (hpre : ∀ d ∈ pre, d.Sound align)
    (hc : c.Sound align) (hpost : ∀ d ∈ post, d.Sound align) :
    ∀ d ∈ release header pre c post, d.Sound align := by
  have hfree : (⟨c.payload, none⟩ : Cell).Sound align := ⟨hc.pos, hc.dvd, by simp⟩
  have hjoin := sound_joinNext hh hfree hpost
  rcases last_cases pre with ⟨kept, n, rfl⟩ | h
  · rw [release_after_free]
    refine List.forall_mem_append.mpr ⟨fun d hd => hpre d (by simp [hd]), ?_⟩
    exact sound_joinNext hh (hpre _ (by simp)) hjoin
  · rw [release_after_used h]
    exact List.forall_mem_append.mpr ⟨hpre, hjoin⟩

end Operations

namespace Tiling

variable {header align size : Nat} {pre post : List Cell} {c : Cell}

theorem cell_end (T : Tiling header align size) (hcells : T.cells = pre ++ c :: post) :
    extent header pre + (header + c.payload) ≤ size := by
  have := T.extent_eq
  rw [hcells, extent_append, extent_cons] at this
  omega

def whole (hsize : header + align ≤ size) (hh : align ∣ header) (hs : align ∣ size) :
    Tiling header align size where
  cells := [⟨size - header, none⟩]
  extent_eq := by
    simp only [extent_cons, extent_nil]
    omega
  sound := by
    simp only [List.mem_singleton, forall_eq]
    refine ⟨?_, Nat.dvd_sub hs hh, by simp⟩
    show align ≤ size - header
    omega
  normal := .singleton _

def cut (T : Tiling header align size) (hcells : T.cells = pre ++ c :: post) {n r : Nat} (hpos : 0 < align)
    (hfit : c.Fits n) (hh : align ∣ header) (hn : align ∣ n) (hr : 0 < r) (hrn : r ≤ n) :
    Tiling header align size where
  cells := pre ++ carve header align n r c ++ post
  extent_eq := by
    have := T.extent_eq
    rw [hcells] at this
    simp only [extent_append, extent_cons, extent_carve r hpos hfit] at this ⊢
    omega
  sound := by
    have := T.sound
    simp only [hcells, List.forall_mem_append, List.forall_mem_cons] at this ⊢
    exact ⟨⟨this.1, sound_carve hpos hfit hh this.2.1 hn hr hrn⟩, this.2.2⟩
  normal := normal_carve r hpos hfit (hcells ▸ T.normal)

def free (T : Tiling header align size) (hcells : T.cells = pre ++ c :: post) (hh : align ∣ header) :
    Tiling header align size where
  cells := release header pre c post
  extent_eq := by rw [extent_release, ← hcells, T.extent_eq]
  sound := by
    have := T.sound
    simp only [hcells, List.forall_mem_append, List.forall_mem_cons] at this
    exact sound_release hh this.1 this.2.1 this.2.2
  normal := by
    have := T.normal
    rw [hcells] at this
    exact normal_release c (List.IsChain.left_of_append (by simpa [Normal] using this))
      (normal_cons.mp (normal_split.mp this).2).2

theorem used_of_free (T : Tiling header align size) (hcells : T.cells = pre ++ c :: post) (hc : c.requested = none)
    (a : Nat) : used header a T.cells =
      used header a pre ++ used header (a + extent header pre + (header + c.payload)) post := by
  obtain ⟨n, req⟩ := c
  subst hc
  rw [hcells, used_append, used]

theorem used_of_used (T : Tiling header align size) (hcells : T.cells = pre ++ c :: post)
    (hc : c.requested = some r) (a : Nat) : used header a T.cells = used header a pre ++
      ⟨a + extent header pre, c.payload, r⟩ :: used header (a + extent header pre + (header + c.payload)) post := by
  obtain ⟨n, req⟩ := c
  subst hc
  rw [hcells, used_append, used]

theorem used_cut (T : Tiling header align size) (hcells : T.cells = pre ++ c :: post) (hpos : 0 < align)
    (hfit : c.Fits n) (hh : align ∣ header) (hn : align ∣ n) (hr : 0 < r) (hrn : r ≤ n) (a : Nat) :
    ∃ k, n ≤ k ∧ k < n + (header + align) ∧ used header a (T.cut hcells hpos hfit hh hn hr hrn).cells =
      used header a pre ++
        ⟨a + extent header pre, k, r⟩ :: used header (a + extent header pre + (header + c.payload)) post := by
  obtain ⟨k, hle, hlt, hk⟩ := used_carve header (a + extent header pre) r hpos hfit
  refine ⟨k, hle, hlt, ?_⟩
  rw [cut, used_append, used_append, hk, extent_append, extent_carve r hpos hfit, List.append_assoc, Nat.add_assoc]
  rfl

theorem used_free (T : Tiling header align size) (hcells : T.cells = pre ++ c :: post) (hh : align ∣ header)
    (a : Nat) :
    used header a (T.free hcells hh).cells =
      used header a pre ++ used header (a + extent header pre + (header + c.payload)) post :=
  used_release a pre c post

end Tiling

end Hairtos.Library

import Mathlib.Data.Finset.Card
import Mathlib.Logic.Relation
import Mathlib.Order.Interval.Finset.Nat

namespace Hairtos.Library

variable {A : Type}

def EndsWithin (next : A → Option A) : Nat → A → Prop
  | 0, _ => False
  | n + 1, a => ∀ b, next a = some b → EndsWithin next n b

def Ends (next : A → Option A) (a : A) : Prop := ∃ n, EndsWithin next n a

theorem EndsWithin.succ {next : A → Option A} {n : Nat} {a : A} (h : EndsWithin next n a) :
    EndsWithin next (n + 1) a := by
  induction n generalizing a with
  | zero => exact h.elim
  | succ n ih => exact fun b hb => ih (h b hb)

theorem EndsWithin.mono {next : A → Option A} {n m : Nat} {a : A} (h : EndsWithin next n a) (hnm : n ≤ m) :
    EndsWithin next m a := by
  induction m, hnm using Nat.le_induction with
  | base => exact h
  | succ m _ ih => exact ih.succ

theorem Ends.of_none {next : A → Option A} {a : A} (h : next a = none) : Ends next a :=
  ⟨1, fun b hb => by simp [h] at hb⟩

theorem ends_iff {next : A → Option A} {a b : A} (h : next a = some b) : Ends next a ↔ Ends next b := by
  constructor
  · rintro ⟨_ | n, hn⟩
    · exact hn.elim
    · exact ⟨n, hn b h⟩
  · rintro ⟨n, hn⟩
    refine ⟨n + 1, fun c hc => ?_⟩
    rw [h] at hc
    exact Option.some.inj hc ▸ hn

theorem Ends.redirect {next next' : A → Option A} (hend : ∀ a, Ends next a)
    (h : ∀ a, next' a = next a ∨ ∀ b, next' a = some b → Ends next' b) (a : A) : Ends next' a := by
  obtain ⟨n, hn⟩ := hend a
  induction n generalizing a with
  | zero => exact hn.elim
  | succ n ih =>
    cases hb : next' a with
    | none => exact Ends.of_none hb
    | some b =>
      rw [ends_iff hb]
      rcases h a with h | h
      · exact ih b (hn b (h ▸ hb))
      · exact h b hb

theorem EndsWithin.congr_of_not_reach (next : A → Option A) {next' : A → Option A} (t : A)
    (h : ∀ a, a ≠ t → next' a = next a)
    {n : Nat} {a : A} (ha : ¬ Relation.ReflTransGen (fun x y => next x = some y) a t) (hn : EndsWithin next n a) :
    EndsWithin next' n a := by
  induction n generalizing a with
  | zero => exact hn.elim
  | succ n ih =>
    have hat : a ≠ t := by
      rintro rfl
      exact ha .refl
    intro b hb
    rw [h a hat] at hb
    exact ih (fun hr => ha (.head hb hr)) (hn b hb)

theorem transGen_insert_iff {next : A → Option A} {t o : A} (ht : next t = none) :
    Relation.TransGen (fun x y => next x = some y ∨ x = t ∧ y = o) t t ↔
      Relation.ReflTransGen (fun x y => next x = some y) o t := by
  constructor
  · intro h
    have hpath : ∀ a, Relation.ReflTransGen (fun x y => next x = some y ∨ x = t ∧ y = o) a t →
        Relation.ReflTransGen (fun x y => next x = some y) a t ∨
          Relation.ReflTransGen (fun x y => next x = some y) o t := by
      intro a ha
      induction ha using Relation.ReflTransGen.head_induction_on with
      | refl => exact Or.inl .refl
      | head hab _ ih =>
        rcases ih with ih | ih
        · rcases hab with hab | ⟨-, rfl⟩
          · exact Or.inl (.head hab ih)
          · exact Or.inr ih
        · exact Or.inr ih
    obtain ⟨b, hb, hrest⟩ := Relation.TransGen.head'_iff.mp h
    rcases hb with hb | ⟨-, rfl⟩
    · simp [ht] at hb
    · exact (hpath _ hrest).elim id id
  · intro h
    exact .head' (Or.inr ⟨rfl, rfl⟩) (Relation.ReflTransGen.mono (fun _ _ => Or.inl) _ _ h)

section Bound

variable {next : A → Option A}

open Classical in
noncomputable def chainLength (a : A) (h : Ends next a) : Nat := Nat.find h

theorem endsWithin_chainLength {a : A} (h : Ends next a) : EndsWithin next (chainLength a h) a := by
  classical
  exact Nat.find_spec h

theorem chainLength_le {a : A} (h : Ends next a) {n : Nat} (hn : EndsWithin next n a) : chainLength a h ≤ n := by
  classical
  exact Nat.find_min' h hn

theorem chainLength_next {a b : A} (h : Ends next a) (hb : next a = some b) :
    chainLength a h = chainLength b ((ends_iff hb).mp h) + 1 := by
  apply le_antisymm
  · apply chainLength_le
    intro c hc
    rw [hb] at hc
    exact Option.some.inj hc ▸ endsWithin_chainLength _
  · have hw := endsWithin_chainLength h
    cases hn : chainLength a h with
    | zero =>
      rw [hn] at hw
      exact hw.elim
    | succ n =>
      rw [hn] at hw
      exact Nat.succ_le_succ (chainLength_le _ (hw b hb))

theorem Ends.not_cycle {a : A} (hend : Ends next a) : ¬ Relation.TransGen (fun x y => next x = some y) a a := by
  have hlt : ∀ b, Relation.TransGen (fun x y => next x = some y) a b →
      ∃ hb : Ends next b, chainLength b hb < chainLength a hend := by
    intro b h
    induction h with
    | single hab =>
      refine ⟨(ends_iff hab).mp hend, ?_⟩
      rw [chainLength_next hend hab]
      exact Nat.lt_succ_self _
    | tail _ hbc ih =>
      obtain ⟨hb, hlen⟩ := ih
      refine ⟨(ends_iff hbc).mp hb, ?_⟩
      rw [chainLength_next hb hbc] at hlen
      omega
  intro h
  obtain ⟨_, hlen⟩ := hlt a h
  exact lt_irrefl _ hlen

theorem exists_chainLength {P : A → Prop} (hP : ∀ a b, P a → next a = some b → P b) (hend : ∀ a, Ends next a)
    (n : Nat) (a : A) (ha : P a) (hn : chainLength a (hend a) = n) :
    ∀ i, 1 ≤ i → i ≤ n → ∃ b, P b ∧ chainLength b (hend b) = i := by
  induction n generalizing a with
  | zero =>
    intro i h1 hi
    omega
  | succ n ih =>
    intro i h1 hi
    rcases Nat.lt_or_ge n i with hlt | hle
    · exact ⟨a, ha, by omega⟩
    · cases hb : next a with
      | none =>
        have hle1 : chainLength a (hend a) ≤ 1 := chainLength_le _ (fun c hc => by simp [hb] at hc)
        omega
      | some b =>
        have hlen := chainLength_next (hend a) hb
        exact ih b (hP a b ha hb) (by omega) i h1 hle

theorem endsWithin_card {P : A → Prop} (hP : ∀ a b, P a → next a = some b → P b) (hend : ∀ a, Ends next a)
    (xs : List A) (hxs : ∀ a, P a → a ∈ xs) (a : A) (ha : P a) : EndsWithin next xs.length a := by
  classical
  apply (endsWithin_chainLength (hend a)).mono
  have hsub : Finset.Icc 1 (chainLength a (hend a)) ⊆ xs.toFinset.image (fun b => chainLength b (hend b)) := by
    intro i hi
    rw [Finset.mem_Icc] at hi
    obtain ⟨b, hb, hlen⟩ := exists_chainLength hP hend _ a ha rfl i hi.1 hi.2
    exact Finset.mem_image.mpr ⟨b, List.mem_toFinset.mpr (hxs b hb), hlen⟩
  calc chainLength a (hend a) = (Finset.Icc 1 (chainLength a (hend a))).card := by simp
    _ ≤ (xs.toFinset.image (fun b => chainLength b (hend b))).card := Finset.card_le_card hsub
    _ ≤ xs.toFinset.card := Finset.card_image_le
    _ ≤ xs.length := List.toFinset_card_le xs

theorem backward_induction {P R : A → Prop} (hP : ∀ a b, P a → next a = some b → P b)
    (hend : ∀ a, Ends next a)
    (xs : List A) (hxs : ∀ a, P a → a ∈ xs) (hR : ∀ b, P b → (∀ a, P a → next a = some b → R a) → R b)
    (b : A)
    (hb : P b) : R b := by
  induction hn : xs.length - chainLength b (hend b) using Nat.strong_induction_on generalizing b with
  | _ n ih =>
    refine hR b hb (fun a ha hab => ih _ ?_ a ha rfl)
    have hlen := chainLength_next (hend a) hab
    have hle := chainLength_le (hend a) (endsWithin_card hP hend xs hxs a ha)
    omega

end Bound

end Hairtos.Library

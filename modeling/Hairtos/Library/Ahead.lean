import Hairtos.Library.ListFamily

namespace Hairtos.Library

theorem sublist_append_singleton {N : Type} {a b n : N} {xs : List N} (h : [a, b].Sublist (xs ++ [n])) (hb : b ≠ n) :
    [a, b].Sublist xs := by
  obtain ⟨ys, zs, hsplit, hys, hzs⟩ := List.sublist_append_iff.mp h
  rcases List.sublist_singleton.mp hzs with rfl | rfl
  · rwa [hsplit, List.append_nil]
  · have hlast := congrArg List.getLast? hsplit
    simp only [List.getLast?_append, List.getLast?_singleton, Option.some_or] at hlast
    exact absurd (Option.some.inj hlast) hb

namespace ListFamily

variable {L N : Type}

def Ahead (f : ListFamily L N) (a b : N) : Prop := ∃ l, [a, b].Sublist (f.seq l)

def NotPassed (f : ListFamily L N) (n : N) (f' : ListFamily L N) : Prop := ∀ a, f'.Ahead a n → f.Ahead a n

def InPlace (f : ListFamily L N) (n : N) (f' : ListFamily L N) : Prop :=
  f.host n ≠ none → f'.host n = f.host n ∧ f.NotPassed n f'

variable {f f' f'' : ListFamily L N} {a b n : N} {l : L}

theorem Ahead.host (h : f.Ahead a b) (hb : f.host b = some l) : f.host a = some l ∧ [a, b].Sublist (f.seq l) := by
  obtain ⟨k, hk⟩ := h
  have hbk := f.host_of_mem (hk.subset (by simp : b ∈ [a, b]))
  obtain rfl := Option.some.inj (hbk.symm.trans hb)
  exact ⟨f.host_of_mem (hk.subset List.mem_cons_self), hk⟩

theorem ahead_or_ahead (ha : f.host a = some l) (hb : f.host b = some l) (hne : a ≠ b) :
    f.Ahead a b ∨ f.Ahead b a := by
  obtain ⟨xs, ys, hsplit⟩ := List.append_of_mem ((f.mem_seq l a).mpr ha)
  have hmem := (f.mem_seq l b).mpr hb
  rw [hsplit, List.mem_append, List.mem_cons] at hmem
  rcases hmem with hmem | rfl | hmem
  · refine Or.inr ⟨l, ?_⟩
    rw [hsplit]
    exact (List.singleton_sublist.mpr hmem).append (List.singleton_sublist.mpr List.mem_cons_self)
  · exact absurd rfl hne
  · refine Or.inl ⟨l, ?_⟩
    rw [hsplit]
    exact ((List.singleton_sublist.mpr hmem).cons_cons a).trans (List.sublist_append_right xs _)

theorem not_ahead_head {xs : List N} (hb : f.seq l = b :: xs) : ¬ f.Ahead a b := by
  intro ha
  have hab := (ha.host (f.host_of_head hb)).2
  have hnodup := f.nodup l
  rw [hb] at hab hnodup
  have hx := (List.nodup_cons.mp hnodup).1
  cases hab with
  | cons _ hab => exact hx (hab.subset (by simp))
  | cons_cons _ hab => exact hx (by simpa using hab)

theorem head?_eq_some_iff (hb : f.host b = some l) : (f.seq l).head? = some b ↔ ∀ a, ¬ f.Ahead a b := by
  constructor
  · intro hhead a
    obtain ⟨xs, hxs⟩ := List.head?_eq_some_iff.mp hhead
    exact not_ahead_head hxs
  · intro hfirst
    cases hxs : f.seq l with
    | nil => simpa [hxs] using (f.mem_seq l b).mpr hb
    | cons x xs =>
      by_cases hx : x = b
      · simp [hx]
      · rcases ahead_or_ahead (f.host_of_head hxs) hb hx with h | h
        · exact absurd h (hfirst x)
        · exact absurd h (not_ahead_head hxs)

theorem InPlace.refl (f : ListFamily L N) (n : N) : f.InPlace n f := fun _ => ⟨rfl, fun _ h => h⟩

theorem InPlace.trans (h : f.InPlace n f') (h' : f'.InPlace n f'') : f.InPlace n f'' := by
  intro hn
  obtain ⟨hhost, hpassed⟩ := h hn
  obtain ⟨hhost', hpassed'⟩ := h' (by rwa [hhost])
  exact ⟨hhost'.trans hhost, fun a ha => hpassed a (hpassed' a ha)⟩

theorem NotPassed.head (h : f.NotPassed n f') {k : L} (hn : f.host n = some l) (hn' : f'.host n = some k)
    (hhead : (f.seq l).head? = some n) : (f'.seq k).head? = some n := by
  rw [head?_eq_some_iff hn] at hhead
  rw [head?_eq_some_iff hn']
  exact fun a ha => hhead a (h a ha)

variable [DecidableEq N]

theorem inPlace_unlink (f : ListFamily L N) {m n : N} (hne : n ≠ m) : f.InPlace n (f.unlink m) := by
  refine fun _ => ⟨by simp [hne], ?_⟩
  rintro a ⟨l, hl⟩
  exact ⟨l, hl.trans List.erase_sublist⟩

theorem inPlace_link_append [DecidableEq L] (f : ListFamily L N) (l : L) {m : N} (hm : f.host m = none) (n : N) :
    f.InPlace n (f.link l m _ (List.perm_append_singleton m (f.seq l)) hm) := by
  intro hn
  have hne : n ≠ m := by
    rintro rfl
    exact hn hm
  refine ⟨by simp [hne], ?_⟩
  rintro a ⟨k, hk⟩
  refine ⟨k, ?_⟩
  rw [link_seq] at hk
  by_cases hkl : k = l
  · subst hkl
    rw [Function.update_self] at hk
    exact sublist_append_singleton hk hne
  · rwa [Function.update_of_ne hkl] at hk

inductive Requeued [DecidableEq L] (S : N → Prop) (f : ListFamily L N) : ListFamily L N → Prop
  | refl : Requeued S f f
  | unlink {g : ListFamily L N} (h : Requeued S f g) (n : N) (hn : S n) : Requeued S f (g.unlink n)
  | append {g : ListFamily L N} (h : Requeued S f g) (l : L) (n : N) (hn : S n) (hfree : g.host n = none) :
      Requeued S f (g.link l n _ (List.perm_append_singleton n (g.seq l)) hfree)

section Requeued

variable [DecidableEq L] {S T : N → Prop}

theorem Requeued.of_eq (h : f' = f) : f.Requeued S f' := by
  rw [h]
  exact .refl

theorem Requeued.trans (h : f.Requeued S f') (h' : f'.Requeued S f'') : f.Requeued S f'' := by
  induction h' with
  | refl => exact h
  | unlink _ n hn ih => exact .unlink ih n hn
  | append _ l n hn hfree ih => exact .append ih l n hn hfree

theorem Requeued.mono (h : f.Requeued S f') (hST : ∀ n, S n → T n) : f.Requeued T f' := by
  induction h with
  | refl => exact .refl
  | unlink _ n hn ih => exact .unlink ih n (hST n hn)
  | append _ l n hn hfree ih => exact .append ih l n (hST n hn) hfree

theorem Requeued.inPlace (h : f.Requeued S f') (hb : ¬ S b) : f.InPlace b f' := by
  induction h with
  | refl => exact .refl f b
  | unlink _ n hn ih =>
    have hne : b ≠ n := by
      rintro rfl
      exact hb hn
    exact ih.trans (inPlace_unlink _ hne)
  | append _ l n hn hfree ih => exact ih.trans (inPlace_link_append _ l hfree b)

theorem Requeued.unlink_eq (h : f.Requeued S f') (hS : ∀ m, S m → m = n) : f'.unlink n = f.unlink n := by
  induction h with
  | refl => rfl
  | unlink _ m hm ih =>
    rw [hS m hm, unlink_unlink]
    exact ih
  | append _ l m hm hfree ih =>
    obtain rfl := hS m hm
    rw [unlink_link_append_self]
    exact ih

end Requeued

end ListFamily

end Hairtos.Library

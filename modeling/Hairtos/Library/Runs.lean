import Mathlib.Data.List.Basic

namespace Hairtos.Library

variable {S O : Type} {step : S → O → S} {meets : S → O → Prop}

def Meets (step : S → O → S) (meets : S → O → Prop) : S → List O → Prop
  | _, [] => True
  | s, op :: ops => meets s op ∧ Meets step meets (step s op) ops

instance decidableMeets [∀ s op, Decidable (meets s op)] (s : S) (ops : List O) :
    Decidable (Meets step meets s ops) :=
  match ops with
  | [] => isTrue trivial
  | op :: ops =>
    have : Decidable (Meets step meets (step s op) ops) := decidableMeets (step s op) ops
    inferInstanceAs (Decidable (meets s op ∧ Meets step meets (step s op) ops))

theorem Meets.keeps {I : S → Prop} (hstep : ∀ s op, I s → meets s op → I (step s op)) {s : S} {ops : List O}
    (h : Meets step meets s ops) (hs : I s) : I (ops.foldl step s) := by
  induction ops generalizing s with
  | nil => exact hs
  | cons op ops ih => exact ih h.2 (hstep s op hs h.1)

theorem meets_append {s : S} {ops ops' : List O} :
    Meets step meets s (ops ++ ops') ↔ Meets step meets s ops ∧ Meets step meets (ops.foldl step s) ops' := by
  induction ops generalizing s with
  | nil => simp [Meets]
  | cons op ops ih => simp only [List.cons_append, Meets, ih, List.foldl_cons, and_assoc]

theorem foldl_keeps {I : S → Prop} (hstep : ∀ s op, I s → I (step s op)) {s : S} {ops : List O} (hs : I s) :
    I (ops.foldl step s) := by
  induction ops generalizing s with
  | nil => exact hs
  | cons op ops ih => exact ih (hstep s op hs)

def answers {A : Type} (step : S → O → S × A) : S → List O → S × List A
  | s, [] => (s, [])
  | s, op :: ops => ((answers step (step s op).1 ops).1, (step s op).2 :: (answers step (step s op).1 ops).2)

theorem Meets.of_forall (h : ∀ s op, meets s op) (s : S) (ops : List O) : Meets step meets s ops := by
  induction ops generalizing s with
  | nil => trivial
  | cons op ops ih => exact ⟨h s op, ih (step s op)⟩

theorem Meets.answers_simulate {A T : Type} {step : S → O → S × A} {step' : T → O → T × A}
    (R : S → T → Prop)
    (hstep : ∀ s t op, R s t → meets s op → R (step s op).1 (step' t op).1 ∧ (step s op).2 = (step' t op).2)
    {s : S} {t : T} {ops : List O} (h : Meets (fun s op => (step s op).1) meets s ops) (hs : R s t) :
    R (answers step s ops).1 (answers step' t ops).1 ∧ (answers step s ops).2 = (answers step' t ops).2 := by
  induction ops generalizing s t with
  | nil => exact ⟨hs, rfl⟩
  | cons op ops ih =>
    obtain ⟨hnext, hanswer⟩ := hstep s t op hs h.1
    obtain ⟨hend, hanswers⟩ := ih h.2 hnext
    exact ⟨hend, congrArg₂ List.cons hanswer hanswers⟩

theorem answers_simulate {A T : Type} {step : S → O → S × A} {step' : T → O → T × A} (R : S → T → Prop)
    (hstep : ∀ s t op, R s t → R (step s op).1 (step' t op).1 ∧ (step s op).2 = (step' t op).2) {s : S} {t : T}
    (hs : R s t) (ops : List O) :
    R (answers step s ops).1 (answers step' t ops).1 ∧ (answers step s ops).2 = (answers step' t ops).2 :=
  Meets.answers_simulate R (fun s t op h _ => hstep s t op h) (Meets.of_forall (fun _ _ => trivial) s ops) hs

end Hairtos.Library

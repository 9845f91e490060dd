import Hairtos.Event.Sections
import Hairtos.Library.Totals

namespace Hairtos

open Library

@[simp] theorem one_self (e : Nat) : one e e = 1 := if_pos rfl

theorem one_of_ne {event e : Nat} (h : event ≠ e) : one event e = 0 := if_neg h

theorem count_singleton (event e : Nat) : [event].count e = one event e := by
  rw [one, List.count_singleton, beq_eq_decide]
  by_cases h : event = e
  · simp [h]
  · simp [h]

variable {A : Type}

def Taking.references (e : Nat) : Taking A → Nat
  | .own _ => 0
  | .share p _ => one p.event e

def Giving.references (e : Nat) : Giving A → Nat
  | .own event => one event e
  | .undo p _ _ => 2 * one p.event e
  | .consume p => one p.event e

theorem Giving.references_event_pos (giving : Giving A) : 0 < giving.references giving.event := by
  cases giving with
  | own event => simp [Giving.references, Giving.event]
  | undo p target status => simp [Giving.references, Giving.event]
  | consume p => simp [Giving.references, Giving.event]

def Origin.references (e : Nat) : Origin A → Nat
  | .plain event _ => one event e
  | .shared p => 2 * one p.event e

def Activity.references (e : Nat) : Activity A → Nat
  | .idle => 0
  | .create _ _ _ => 0
  | .fill _ _ _ _ => 0
  | .retain taking => taking.references e
  | .retainLocked taking => taking.references e
  | .release giving => giving.references e
  | .releaseLocked giving _ => giving.references e
  | .post origin _ => origin.references e
  | .send origin _ => origin.references e
  | .blocked origin _ => origin.references e
  | .publish event _ => one event e
  | .snapshot event _ => one event e
  | .publishing p => one p.event e
  | .consume p => one p.event e
  | .subscribe _ _ => 0
  | .unsubscribe _ _ => 0

def Activity.fillings (e : Nat) : Activity A → Nat
  | .fill _ event _ _ => one event e
  | _ => 0

def Thread.references (e : Nat) (thread : Thread A) : Nat := thread.held e + thread.activity.references e

def Thread.fillings (e : Nat) (thread : Thread A) : Nat := thread.activity.fillings e

def Onward.references (e : Nat) : Onward A → Nat
  | .goOn activity => activity.references e
  | .finish _ gained => atMostOne gained e

def Onward.fillings (e : Nat) : Onward A → Nat
  | .goOn activity => activity.fillings e
  | .finish _ _ => 0

theorem Taking.onward_references (status : Status) (taking : Taking A) (e : Nat) :
    (taking.onward status).references e =
      taking.references e + if status = .ok then one taking.event e else 0 := by
  cases taking with
  | own event => by_cases hok : status = .ok <;> simp [Taking.onward, Onward.references, Taking.references,
      Taking.event, atMostOne, hok]
  | share p target =>
    by_cases hok : status = .ok
    · simp [Taking.onward, Onward.references, Activity.references, Origin.references, Taking.references, Taking.event,
        hok, Nat.two_mul]
    · simp [Taking.onward, Onward.references, Activity.references, Taking.references, Publication.attempted, hok]

theorem Giving.onward_references (status : Status) (giving : Giving A) (e : Nat) :
    (giving.onward status).references e + one giving.event e = giving.references e := by
  cases giving with
  | undo p target status =>
    simp [Giving.onward, Onward.references, Activity.references, Giving.references, Giving.event,
      Publication.attempted, Nat.two_mul]
  | _ => simp [Giving.onward, Publication.onward, Onward.references, Giving.references, Giving.event, atMostOne]

theorem Origin.onward_references (target : A) (status : Status) (origin : Origin A) (e : Nat) :
    (origin.onward target status).references e + (if status = .ok then one origin.event e else 0) =
      origin.references e := by
  cases origin with
  | plain event wait =>
    by_cases hok : status = .ok <;>
      simp [Origin.onward, Onward.references, Origin.references, Origin.event, atMostOne, hok]
  | shared p =>
    by_cases hok : status = .ok <;>
      simp [Origin.onward, Onward.references, Activity.references, Giving.references, Origin.references, Origin.event,
        Publication.attempted, hok, Nat.two_mul]

@[simp] theorem Taking.onward_fillings (status : Status) (taking : Taking A) (e : Nat) :
    (taking.onward status).fillings e = 0 := by
  cases taking with
  | own event => rfl
  | share p target => by_cases hok : status = .ok <;> simp [Taking.onward, Onward.fillings, Activity.fillings, hok]

@[simp] theorem Giving.onward_fillings (status : Status) (giving : Giving A) (e : Nat) :
    (giving.onward status).fillings e = 0 := by
  cases giving <;> rfl

@[simp] theorem Origin.onward_fillings (target : A) (status : Status) (origin : Origin A) (e : Nat) :
    (origin.onward target status).fillings e = 0 := by
  cases origin with
  | plain event wait => rfl
  | shared p => by_cases hok : status = .ok <;> simp [Origin.onward, Onward.fillings, Activity.fillings, hok]

theorem Activity.posts_references {activity : Activity A} {origin : Origin A} {target : A}
    (h : activity.posts = some (origin, target)) (e : Nat) :
    activity.references e = origin.references e ∧ activity.fillings e = 0 := by
  cases activity <;> simp_all [Activity.posts, Activity.references, Activity.fillings]

def Loop.references (e : Nat) : Loop → Nat
  | .received event => one event e
  | .dispatch event => one event e
  | .release event _ => one event e
  | .releaseLocked event _ _ => one event e
  | _ => 0

def ActiveObject.references (e : Nat) (active : ActiveObject) : Nat := active.slots.count e + active.loop.references e

variable {C : Type} [Fintype C] [Fintype A]

namespace EventSystem

def references (s : EventSystem C A) (e : Nat) : Nat :=
  total (Thread.references e) s.threads + total (ActiveObject.references e) s.actives

def fillings (s : EventSystem C A) (e : Nat) : Nat := total (Thread.fillings e) s.threads

variable (s : EventSystem C A) (c : C) (a : A) (e : Nat)

theorem references_setActive [DecidableEq A] (active : ActiveObject) :
    (s.setActive a active).references e + (s.actives a).references e = s.references e + active.references e := by
  have := total_update (ActiveObject.references e) s.actives a active
  simp only [references, setActive]
  omega

theorem references_thread_le : (s.threads c).held e + (s.threads c).activity.references e ≤ s.references e :=
  le_trans (le_total (Thread.references e) s.threads c) (Nat.le_add_right _ _)

theorem references_active_le : (s.actives a).slots.count e + (s.actives a).loop.references e ≤ s.references e :=
  le_trans (le_total (ActiveObject.references e) s.actives a) (Nat.le_add_left _ _)

omit [Fintype A] in
theorem fillings_thread_le : (s.threads c).activity.fillings e ≤ s.fillings e :=
  le_total (Thread.fillings e) s.threads c

variable [DecidableEq C]

theorem references_setThread (thread : Thread A) :
    (s.setThread c thread).references e + (s.threads c).references e = s.references e + thread.references e := by
  have := total_update (Thread.references e) s.threads c thread
  simp only [references, setThread]
  omega

omit [Fintype A] in
theorem fillings_setThread (thread : Thread A) :
    (s.setThread c thread).fillings e + (s.threads c).fillings e = s.fillings e + thread.fillings e :=
  total_update (Thread.fillings e) s.threads c thread

theorem references_proceed (o : Onward A) :
    (s.proceed c o).references e + (s.threads c).activity.references e = s.references e + o.references e := by
  cases o with
  | goOn activity =>
    have := s.references_setThread c e { s.threads c with activity := activity }
    simp only [proceed, goOn, Onward.references, Thread.references] at *
    omega
  | finish result gained =>
    have := s.references_setThread c e
      { held := fun e => (s.threads c).held e + atMostOne gained e
        activity := .idle
        results := result :: (s.threads c).results }
    simp only [proceed, finish, Onward.references, Thread.references, Activity.references] at *
    omega

omit [Fintype A] in
theorem fillings_proceed (o : Onward A) :
    (s.proceed c o).fillings e + (s.threads c).activity.fillings e = s.fillings e + o.fillings e := by
  cases o with
  | goOn activity => exact s.fillings_setThread c e _
  | finish result gained => exact s.fillings_setThread c e _

end EventSystem

theorem eq_update_succ {f g : Nat → Nat} {event : Nat} (h : ∀ e, f e = g e + one event e) :
    f = Function.update g event (g event + 1) := by
  funext e
  by_cases he : e = event
  · subst he
    rw [Function.update_self, h, one_self]
  · rw [Function.update_of_ne he, h, one_of_ne (Ne.symm he), Nat.add_zero]

theorem eq_update_pred {f g : Nat → Nat} {event : Nat} (h : ∀ e, f e + one event e = g e) :
    f = Function.update g event (g event - 1) ∧ g event ≠ 0 := by
  have hself := h event
  rw [one_self] at hself
  refine ⟨?_, by omega⟩
  funext e
  by_cases he : e = event
  · subst he
    rw [Function.update_self]
    omega
  · have hother := h e
    rw [one_of_ne (Ne.symm he)] at hother
    rw [Function.update_of_ne he]
    exact hother

end Hairtos

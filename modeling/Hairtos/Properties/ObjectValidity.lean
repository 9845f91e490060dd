import Hairtos.Properties.MutualExclusion

namespace Hairtos

open Library

variable {cfg : Config} {s s' : System}

theorem waitListOrderIsValid_of_pairwise {N : Type} (priority : N → Nat) (first : Bool) (previous : Nat) (ns : List N)
    (hprevious : first = false → ∀ n ∈ ns, previous ≤ priority n)
    (h : ns.Pairwise (fun a b => priority a ≤ priority b)) :
    waitListOrderIsValid priority first previous ns = true := by
  induction ns generalizing first previous with
  | nil => rfl
  | cons n rest ih =>
    obtain ⟨hn, hrest⟩ := List.pairwise_cons.mp h
    have hkeeps : ¬ (!first && decide (priority n < previous)) = true := by
      cases first with
      | true => simp
      | false => simpa using hprevious rfl n List.mem_cons_self
    rw [waitListOrderIsValid, if_neg hkeeps]
    exact ih false (priority n) (fun _ => hn) hrest

theorem WaitLists.Sorted.validate {L N : Type} [DecidableEq L] [DecidableEq N] {w : WaitLists L N} (h : w.Sorted)
    (l : L) :
    waitListValidate w l = true := by
  rw [waitListValidate, listValidate_eq_true, waitListOrderIsValid_of_pairwise _ _ _ _ (by simp) (h l)]
  rfl

structure Stays (s s' : System) : Prop where
  queue : ∀ q, (s.queues q).magic = true → (s'.queues q).magic = true
  semaphore : ∀ x, (s.semaphores x).magic = true → (s'.semaphores x).magic = true

theorem Stays.trans {s'' : System} (h : Stays s s') (h' : Stays s' s'') : Stays s s'' :=
  ⟨fun q hm => h'.queue q (h.queue q hm), fun x hm => h'.semaphore x (h.semaphore x hm)⟩

theorem Stays.of_eq (hqueues : s'.queues = s.queues) (hsemaphores : s'.semaphores = s.semaphores) : Stays s s' :=
  ⟨fun q hm => by rwa [hqueues], fun x hm => by rwa [hsemaphores]⟩

theorem Stays.of_queue {p : QueueRef} {cb : QueueControlBlock} (hqueues : s'.queues = Function.update s.queues p cb)
    (hsemaphores : s'.semaphores = s.semaphores) (hcb : (s.queues p).magic = true → cb.magic = true) :
    Stays s s' := by
  refine ⟨fun q hm => ?_, fun x hm => by rwa [hsemaphores]⟩
  rw [hqueues]
  by_cases hqp : q = p
  · subst hqp
    simpa using hcb hm
  · simpa [hqp] using hm

theorem Stays.of_semaphore {y : SemaphoreRef} {cb : SemaphoreControlBlock} (hqueues : s'.queues = s.queues)
    (hsemaphores : s'.semaphores = Function.update s.semaphores y cb)
    (hcb : (s.semaphores y).magic = true → cb.magic = true) : Stays s s' := by
  refine ⟨fun q hm => by rwa [hqueues], fun x hm => ?_⟩
  rw [hsemaphores]
  by_cases hxy : x = y
  · subst hxy
    simpa using hcb hm
  · simpa [hxy] using hm

theorem Action.stays {owed : Bool} (h : Action cfg s owed s') : Stays s s' := by
  cases h with
  | createQueue => exact .of_queue rfl rfl (fun _ => rfl)
  | createSemaphore => exact .of_semaphore rfl rfl (fun _ => rfl)
  | give x s₁ woken status k owed _ heffect =>
    cases heffect with
    | counted => exact .of_semaphore rfl rfl (fun hm => hm)
    | _ => exact .of_eq rfl rfl
  | take x timeout s₁ outcome _ _ heffect =>
    cases heffect with
    | counted => exact .of_semaphore rfl rfl (fun hm => hm)
    | waits => exact .of_eq rfl rfl
  | send q b timeout sender r k owed _ _ heffect =>
    cases heffect with
    | stored => exact .of_queue rfl rfl (fun hm => hm)
    | _ => exact .of_eq rfl rfl
  | receive q b timeout receiver r k owed _ _ heffect =>
    have hdequeue : Stays s (queueDequeue s q b) := .of_queue rfl rfl (fun hm => hm)
    cases heffect with
    | taken => exact .trans hdequeue (.of_eq rfl rfl)
    | refilled => exact .trans hdequeue (.of_queue rfl rfl (fun hm => hm))
    | _ => exact .of_eq rfl rfl
  | unlock m t s₁ _ _ heffect => cases heffect <;> exact .of_eq rfl rfl
  | _ => exact .of_eq rfl rfl

theorem Move.stays (h : Move cfg s s') : Stays s s' := by
  cases h with
  | act ha => exact ha.action.stays
  | lock m timeout s' outcome heffect => cases heffect <;> exact .of_eq rfl rfl
  | _ => exact .of_eq rfl rfl

theorem objects_stay_sound (cfg : Config) (before after : List Op) :
    let s := exec cfg (boot cfg) before
    let s' := exec cfg s after
    (∀ q, queueIsValid s q = true → queueValidateInternal s' q = true) ∧
      (∀ x, semaphoreIsValid s x = true → semaphoreValidateInternal s' x = true) ∧
      ∀ m, mutexIsValid s m = true → mutexValidateInternal s' m = true := by
  intro s s'
  have hs : s.Steady cfg := (boot_steady cfg).exec before
  have g : s'.Good cfg := (hs.exec after).good
  have hstays : Stays s s' := hs.exec_keeps (P := Stays s) (fun _ _ _ hm h => h.trans hm.stays) (.of_eq rfl rfl) after
  have hlists : ∀ l, waitListValidate s'.kernel.waitLists l = true := g.kernel.sorted.validate
  refine ⟨fun q hv => ?_, fun x hv => ?_, fun m hv => ?_⟩
  · rw [queueValidateInternal, g.queues q (hstays.queue q (magic_of_valid hv)), hlists, hlists]
    rfl
  · rw [semaphoreValidateInternal, g.semaphores x (hstays.semaphore x (semaphore_magic_of_valid hv)), hlists]
    rfl
  · rw [mutexIsValid_eq hs.good.kernel hs.good.owners.toOwners] at hv
    have hv' : mutexIsValid s' m = true := by
      rw [mutexIsValid_eq g.kernel g.owners.toOwners]
      exact exec_mutex_magic hs hv after
    simp only [mutexValidateInternal, hv', hlists]
    cases ho : (s'.mutexes.blocks m).owner with
    | none => rfl
    | some t => simpa using (g.owners.owner m t).mp ho

theorem objects_stay_sound_reentryRun :
    mutexIsValid (exec .standard (boot .standard) reentryRun) 0 = true ∧
      mutexValidateInternal (exec .standard (exec .standard (boot .standard) reentryRun) reentryRest) 0 = true :=
  ⟨by decide +kernel, (objects_stay_sound .standard reentryRun reentryRest).2.2 0 (by decide +kernel)⟩

end Hairtos

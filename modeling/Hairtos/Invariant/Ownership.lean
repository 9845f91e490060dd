import Hairtos.Invariant.Inheritance

namespace Hairtos

open Library

variable {m : MutexRef} {t : TaskRef} {k' : Kernel}

def waitsFor (k : Kernel) (ms : Mutexes) (t : TaskRef) : Option TaskRef :=
  match (k.tasks t).wait with
  | some (.mutexLock m) => (ms.blocks m).owner
  | _ => none

structure Owners (k : Kernel) (ms : Mutexes) : Prop where
  owner : ∀ m t, (ms.blocks m).owner = some t ↔ ms.owned.host m = some t
  magic : ∀ m, (ms.blocks m).owner ≠ none → (ms.blocks m).magic = true
  registered : ∀ m t, (ms.blocks m).owner = some t → (k.view t).registered = true ∧ t ≠ .idle
  recursion : ∀ m, (ms.blocks m).recursionCount = 0 ↔ (ms.blocks m).owner = none
  count : ∀ t, (k.tasks t).ownedMutexCount = (ms.owned.seq t).length
  waited : ∀ t m, (k.tasks t).wait = some (.mutexLock m) →
    (ms.blocks m).owner ≠ none ∧ (ms.blocks m).owner ≠ some t

structure Ownership (k : Kernel) (ms : Mutexes) : Prop extends Owners k ms where
  ends : ∀ t, Ends (waitsFor k ms) t

section

variable {cfg : Config} {k : Kernel} {ms : Mutexes}

theorem Shape.wait_of_waitHost {v : TaskView} (h : Shape cfg v)
    (hw : v.waitHost = some (.mutex m)) : v.cb.wait = some (.mutexLock m) := by
  rw [h.waitHost_eq] at hw
  cases hc : v.cb.wait with
  | none => simp [hc] at hw
  | some w => cases w <;> simp_all [Wait.waitList]

theorem Owners.not_owner (own : Owners k ms)
    (ht : (k.view t).registered = false ∨ (k.view t).idle = true) (m : MutexRef) :
    (ms.blocks m).owner ≠ some t := by
  intro ho
  obtain ⟨hr, hne⟩ := own.registered m t ho
  rcases ht with ht | ht
  · simp [ht] at hr
  · simp [Kernel.view, hne] at ht

theorem Owners.urgent (own : Owners k ms) (g : k.Sound cfg)
    (ho : (ms.blocks m).owner = some t) :
    (k.tasks t).magic = true ∧ (k.tasks t).basePriority < cfg.idlePriority := by
  obtain ⟨hr, hne⟩ := own.registered m t ho
  exact ⟨(g.shape t).magic_of_registered hr, (g.shape t).urgent hr (by simpa [Kernel.view] using hne)⟩

theorem Owners.inherits (own : Owners k ms) (g : k.Sound cfg) (htasks : k'.tasks = k.tasks)
    (hhost : ∀ u l, k'.waitLists.lists.host u = some l → k.waitLists.lists.host u = some l) :
    Inherits cfg k' ms where
  owner := own.owner
  magic := fun m t ho => own.magic m (by simp [ho])
  owners := by
    intro m t ho
    rw [htasks]
    exact own.urgent g ho
  waits := by
    intro u m hu
    have hw := (g.shape u).wait_of_waitHost (hhost u _ hu)
    have hne : (k.view u).cb.wait ≠ none := by simp [hw]
    have hrec := (g.shape u).records
    rw [hw] at hrec
    rw [htasks]
    exact ⟨(g.shape u).magic_of_wait hne, (g.shape u).waiting.mp hne, hrec.kind, hrec.object,
      (own.waited u m hw).2⟩

theorem registered_mem (k : Kernel) (h : (k.view t).registered = true) : t ∈ k.allTasks.seq () := by
  rw [k.allTasks.mem_seq]
  cases hh : k.allTasks.host t with
  | none => simp [Kernel.view, listNodeIsLinked, hh] at h
  | some u => rfl

theorem waitsFor_of_lock (h : (k.tasks t).wait = some (.mutexLock m)) :
    waitsFor k ms t = (ms.blocks m).owner := by
  rw [waitsFor, h]

theorem waitsFor_of_not_lock (h : ∀ m, (k.tasks t).wait ≠ some (.mutexLock m)) :
    waitsFor k ms t = none := by
  unfold waitsFor
  split
  · rename_i m hm
    exact absurd hm (h m)
  · rfl

theorem waitsFor_eq_some {o : TaskRef} (h : waitsFor k ms t = some o) :
    ∃ m, (k.tasks t).wait = some (.mutexLock m) ∧ (ms.blocks m).owner = some o := by
  unfold waitsFor at h
  split at h
  · rename_i m hm
    exact ⟨m, hm, h⟩
  · simp at h

theorem mutexNextOwner_eq_waitsFor (g : k.Sound cfg)
    (howner : ∀ m o, (ms.blocks m).owner = some o → (ms.blocks m).magic = true ∧ (k.tasks o).magic = true)
    (hself : ∀ t m, (k.tasks t).wait = some (.mutexLock m) → (ms.blocks m).owner ≠ some t) :
    mutexNextOwner k ms = waitsFor k ms := by
  funext t
  by_cases hlock : ∃ m, (k.tasks t).wait = some (.mutexLock m)
  · obtain ⟨m, hw⟩ := hlock
    have hwv : (k.view t).cb.wait = some (.mutexLock m) := hw
    have hwaiting : (k.tasks t).isWaiting = true := (g.shape t).waiting.mp (by simp [hwv])
    have hrec := (g.shape t).records
    rw [hwv] at hrec
    have hkind : (k.tasks t).waitKind = .mutexLock := hrec.kind
    have hobj : (k.tasks t).waitingObject = some (.mutex m) := hrec.object
    rw [waitsFor_of_lock hw]
    cases ho : (ms.blocks m).owner with
    | none => simp [mutexNextOwner, hwaiting, hkind, hobj, ho]
    | some o =>
      obtain ⟨hm, hv⟩ := howner m o ho
      have hne : o ≠ t := by
        rintro rfl
        exact hself o m hw ho
      simp [mutexNextOwner, hwaiting, hkind, hobj, hm, ho, taskIsValid, hv, hne]
  · push Not at hlock
    rw [waitsFor_of_not_lock hlock]
    have hkind : ¬ ((k.tasks t).isWaiting = true ∧ (k.tasks t).waitKind = .mutexLock) := by
      rintro ⟨hwaiting, hkind⟩
      have hrec := (g.shape t).records.kind
      obtain ⟨w, hw⟩ := Option.ne_none_iff_exists'.mp ((g.shape t).waiting.mpr hwaiting)
      have hk : w.kind = .mutexLock := by
        rw [hw] at hrec
        exact hrec.symm.trans hkind
      cases w with
      | mutexLock m => exact hlock m hw
      | _ => simp [Wait.kind] at hk
    simp only [not_and] at hkind
    simp only [mutexNextOwner, Bool.not_eq_true', Bool.and_eq_false_imp, decide_eq_false_iff_not]
    rw [if_pos hkind]

theorem Owners.nextOwner (own : Owners k ms) (g : k.Sound cfg) : mutexNextOwner k ms = waitsFor k ms :=
  mutexNextOwner_eq_waitsFor g (fun m o ho => ⟨own.magic m (by simp [ho]), (own.urgent g ho).1⟩)
    (fun t m hw => (own.waited t m hw).2)

theorem Ownership.endsWithin (own : Ownership k ms) (g : k.Sound cfg)
    (ht : (k.view t).registered = true) : EndsWithin (mutexNextOwner k ms) (recomputeDepth cfg) t := by
  rw [own.nextOwner g]
  have hcard := endsWithin_card (P := fun u => (k.view u).registered = true)
    (fun a b _ hb => by
      obtain ⟨m, -, hm⟩ := waitsFor_eq_some hb
      exact (own.registered m b hm).1) own.ends (k.allTasks.seq ()) (fun u hu => registered_mem k hu) t ht
  apply hcard.mono
  have := g.taskCount
  have := g.taskCount_le
  unfold recomputeDepth
  omega

theorem mutexNextOwner_congr (h : ∀ t, (k'.tasks t).magic = (k.tasks t).magic ∧
    (k'.tasks t).isWaiting = (k.tasks t).isWaiting ∧ (k'.tasks t).waitKind = (k.tasks t).waitKind ∧
    (k'.tasks t).waitingObject = (k.tasks t).waitingObject) : mutexNextOwner k' ms = mutexNextOwner k ms := by
  funext t
  obtain ⟨-, hw, hk, ho⟩ := h t
  have hvalid : taskIsValid k' = taskIsValid k := by
    funext u
    exact (h u).1
  unfold mutexNextOwner
  rw [hw, hk, ho, hvalid]

theorem Owners.update (own : Owners k ms)
    (hreg : ∀ t, (k.view t).registered = true → (k'.view t).registered = true)
    (hcount : ∀ t, (k'.tasks t).ownedMutexCount = (k.tasks t).ownedMutexCount)
    (hwaited : ∀ t m, (k'.tasks t).wait = some (.mutexLock m) →
      (ms.blocks m).owner ≠ none ∧ (ms.blocks m).owner ≠ some t) : Owners k' ms where
  owner := own.owner
  magic := own.magic
  registered := by
    intro m t ho
    obtain ⟨hr, hne⟩ := own.registered m t ho
    exact ⟨hreg t hr, hne⟩
  recursion := own.recursion
  count := fun t => (hcount t).trans (own.count t)
  waited := hwaited

theorem Ownership.update (own : Ownership k ms)
    (hreg : ∀ t, (k.view t).registered = true → (k'.view t).registered = true)
    (hcount : ∀ t, (k'.tasks t).ownedMutexCount = (k.tasks t).ownedMutexCount)
    (hwait : ∀ t m, (k'.tasks t).wait = some (.mutexLock m) → (k.tasks t).wait = some (.mutexLock m)) :
    Ownership k' ms := by
  refine ⟨own.toOwners.update hreg hcount (fun t m hw => own.waited t m (hwait t m hw)), ?_⟩
  apply Ends.redirect own.ends
  intro t
  by_cases hlock : ∃ m, (k'.tasks t).wait = some (.mutexLock m)
  · obtain ⟨m, hw⟩ := hlock
    left
    rw [waitsFor_of_lock hw, waitsFor_of_lock (hwait t m hw)]
  · push Not at hlock
    right
    simp [waitsFor_of_not_lock hlock]

end

end Hairtos

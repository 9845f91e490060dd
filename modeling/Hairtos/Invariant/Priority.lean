import Hairtos.Invariant.Shape

namespace Hairtos

open Library

structure Kernel.Linked (cfg : Config) (k : Kernel) : Prop where
  scheduler : k.scheduler.WellFormed cfg
  sorted : k.waitLists.Sorted
  listed : ∀ t l, k.waitLists.lists.host t = some l → (k.tasks t).blockedWaitList = some l
  agree : ∀ t, (k.tasks t).magic = true →
    k.scheduler.priority t = (k.tasks t).effectivePriority ∧ k.waitLists.priority t = (k.tasks t).effectivePriority

structure Reprio (k k' : Kernel) : Prop where
  frame : k' = { k with tasks := k'.tasks, scheduler := k'.scheduler, waitLists := k'.waitLists }
  tasks : ∀ t, k'.tasks t = { k.tasks t with effectivePriority := (k'.tasks t).effectivePriority }
  waitHost : k'.waitLists.lists.host = k.waitLists.lists.host
  readyLinked : ∀ t, (k'.scheduler.queues.host t).isSome = (k.scheduler.queues.host t).isSome

theorem Reprio.refl (k : Kernel) : Reprio k k := ⟨rfl, fun _ => rfl, rfl, fun _ => rfl⟩

theorem Reprio.trans {k k' k'' : Kernel} (h : Reprio k k') (h' : Reprio k' k'') : Reprio k k'' where
  frame := by
    rw [h'.frame, h.frame]
  tasks := by
    intro t
    rw [h'.tasks t, h.tasks t]
  waitHost := h'.waitHost.trans h.waitHost
  readyLinked := fun t => (h'.readyLinked t).trans (h.readyLinked t)

theorem Kernel.Sound.linked {cfg : Config} {k : Kernel} (g : k.Sound cfg) : k.Linked cfg where
  scheduler := g.scheduler
  sorted := g.sorted
  listed := fun t _ h => (g.shape t).waitHost.symm.trans h
  agree := fun t h => (g.shape t).agree h

section Steps

variable {cfg : Config} {k : Kernel} (t : TaskRef)

theorem Kernel.removeReady_eq (wf : k.scheduler.WellFormed cfg) :
    ∃ scheduler, (if listNodeIsLinked k.scheduler.queues t then k.removeReady cfg t else (k, .ok)) =
        ({ k with scheduler := scheduler }, .ok) ∧ scheduler.WellFormed cfg ∧
      scheduler.priority = k.scheduler.priority ∧ scheduler.queues = k.scheduler.queues.unlink t := by
  cases hh : k.scheduler.queues.host t with
  | none =>
    refine ⟨k.scheduler, ?_, wf, rfl, (ListFamily.unlink_of_none _ hh).symm⟩
    simp [listNodeIsLinked, hh]
  | some p =>
    have hp := wf.hosted t p hh
    obtain ⟨set', he, hwf, hprio, hq⟩ := schedulerRemoveReady_spec wf t (by rw [hp, hh])
    refine ⟨set', ?_, hwf, hprio, hq⟩
    simp [listNodeIsLinked, hh, Kernel.removeReady, he]

theorem Kernel.addReady_eq (wf : k.scheduler.WellFormed cfg) (hp : k.scheduler.priority t < cfg.priorityCount)
    (hn : k.scheduler.queues.host t = none) :
    ∃ scheduler, k.addReady cfg t = ({ k with scheduler := scheduler }, .ok) ∧ scheduler.WellFormed cfg ∧
      scheduler.priority = k.scheduler.priority ∧
      scheduler.queues.host = Function.update k.scheduler.queues.host t (some (k.scheduler.priority t)) ∧
      scheduler.queues.seq = Function.update k.scheduler.queues.seq (k.scheduler.priority t)
        (k.scheduler.queues.seq (k.scheduler.priority t) ++ [t]) := by
  obtain ⟨set', he, hwf, hprio, hhost, hseq⟩ := schedulerAddReady_spec wf t hp hn
  refine ⟨set', ?_, hwf, hprio, hhost, hseq⟩
  simp [Kernel.addReady, he]

theorem Kernel.waitRemove_eq {l : WaitListRef} (hl : k.waitLists.lists.host t = some l) :
    k.waitRemove l t = ({ k with waitLists := { k.waitLists with lists := k.waitLists.lists.unlink t } }, .ok) := by
  simp [Kernel.waitRemove, waitListRemove_eq _ _ _ hl]

theorem Kernel.waitInsert_eq (l : WaitListRef) (hn : k.waitLists.lists.host t = none) :
    k.waitInsert l t =
      ({ k with
          waitLists :=
            { k.waitLists with
              lists := k.waitLists.lists.link l t _
                (insertSorted_perm k.waitLists.priority t (k.waitLists.lists.seq l)) hn } }, .ok) := by
  simp [Kernel.waitInsert, waitListInsert_eq _ _ _ hn]

theorem Kernel.Linked.storePriority (h : k.Linked cfg) (p : Nat) (hr : k.scheduler.queues.host t = none)
    (hw : k.waitLists.lists.host t = none) : (k.storePriority t p).Linked cfg where
  scheduler := h.scheduler.setPriority t p hr
  sorted := h.sorted.setPriority t p hw
  listed := by
    intro u l hl
    by_cases hu : u = t
    · subst hu
      simp [Kernel.storePriority, Kernel.updateTask, hw] at hl
    · simpa [Kernel.storePriority, Kernel.updateTask, hu] using h.listed u l hl
  agree := by
    intro u hm
    by_cases hu : u = t
    · subst hu
      simp [Kernel.storePriority, Kernel.updateTask]
    · simp only [Kernel.storePriority, Kernel.updateTask, ne_eq, hu, not_false_eq_true,
        Function.update_of_ne] at hm ⊢
      exact h.agree u hm

theorem Kernel.Linked.detachNodes (h : k.Linked cfg) :
    ∃ scheduler, k.detachNodes cfg t (listNodeIsLinked k.scheduler.queues t) (listNodeIsLinked k.waitLists.lists t)
        (k.tasks t).blockedWaitList =
        ({ k with
            scheduler := scheduler
            waitLists := { k.waitLists with lists := k.waitLists.lists.unlink t } }, .ok) ∧
      scheduler.WellFormed cfg ∧ scheduler.priority = k.scheduler.priority ∧
      scheduler.queues = k.scheduler.queues.unlink t := by
  obtain ⟨set', he, hwf, hprio, hq⟩ := Kernel.removeReady_eq t h.scheduler
  refine ⟨set', ?_, hwf, hprio, hq⟩
  simp only [Kernel.detachNodes, he, ne_eq, not_true_eq_false, ↓reduceIte]
  cases hh : k.waitLists.lists.host t with
  | none => simp [listNodeIsLinked, hh, ListFamily.unlink_of_none]
  | some l =>
    have hl : { k with scheduler := set' }.waitLists.lists.host t = some l := hh
    simp [listNodeIsLinked, hh, h.listed t l hh, Kernel.waitRemove_eq t hl]

theorem Kernel.Linked.attachNodes (h : k.Linked cfg) (r : Bool) (w : Option WaitListRef)
    (hm : (k.tasks t).magic = true) (hp : (k.tasks t).effectivePriority < cfg.priorityCount)
    (hr : k.scheduler.queues.host t = none) (hw : k.waitLists.lists.host t = none)
    (hl : ∀ l, w = some l → (k.tasks t).blockedWaitList = some l) :
    ∃ k', k.attachNodes cfg t r w.isSome (k.tasks t).blockedWaitList = (k', .ok) ∧ k'.Linked cfg ∧
      k' = { k with scheduler := k'.scheduler, waitLists := k'.waitLists } ∧
      k'.waitLists.lists.host = Function.update k.waitLists.lists.host t w ∧
      k'.scheduler.queues.host =
        Function.update k.scheduler.queues.host t (if r then some (k.tasks t).effectivePriority else none) ∧
      k'.waitLists = k.waitLists.put t w := by
  obtain ⟨hprio, hwprio⟩ := h.agree t hm
  have hready : ∃ scheduler, (if r then k.addReady cfg t else (k, .ok)) = ({ k with scheduler := scheduler }, .ok) ∧
      scheduler.WellFormed cfg ∧ scheduler.priority = k.scheduler.priority ∧ scheduler.queues.host =
        Function.update k.scheduler.queues.host t (if r then some (k.tasks t).effectivePriority else none) := by
    cases r with
    | false => exact ⟨k.scheduler, rfl, h.scheduler, rfl, by simp [← hr]⟩
    | true =>
      obtain ⟨set', he, hwf, hp', hhost, -⟩ := Kernel.addReady_eq t h.scheduler (hprio ▸ hp) hr
      exact ⟨set', he, hwf, hp', by simpa [hprio] using hhost⟩
  obtain ⟨set', he, hwf, hp', hhost⟩ := hready
  cases w with
  | none =>
    refine ⟨{ k with scheduler := set' }, ?_, ⟨hwf, h.sorted, h.listed, ?_⟩, rfl, ?_, hhost, rfl⟩
    · simp [Kernel.attachNodes, he]
    · intro u hu
      exact ⟨(congrFun hp' u).trans (h.agree u hu).1, (h.agree u hu).2⟩
    · rw [← hw, Function.update_eq_self]
  | some l =>
    have hi := Kernel.waitInsert_eq (k := { k with scheduler := set' }) t l hw
    refine ⟨(Kernel.waitInsert { k with scheduler := set' } l t).1, ?_, ?_⟩
    · simp [Kernel.attachNodes, he, hl l rfl, hi]
    rw [hi]
    refine ⟨⟨hwf, h.sorted.insert l t hw, ?_, ?_⟩, rfl, rfl, hhost, ?_⟩
    · intro u l' hu
      by_cases hut : u = t
      · subst hut
        simp only [ListFamily.link_host, Function.update_self, Option.some.injEq] at hu
        exact hu ▸ hl l rfl
      · simp only [ListFamily.link_host, ne_eq, hut, not_false_eq_true, Function.update_of_ne] at hu
        exact h.listed u l' hu
    · intro u hu
      exact ⟨(congrFun hp' u).trans (h.agree u hu).1, (h.agree u hu).2⟩
    · simp only [WaitLists.put, waitListInsert_eq k.waitLists l t hw]

end Steps

theorem kernelSetTaskEffectivePriority_spec {cfg : Config} {k : Kernel} (h : k.Linked cfg) (t : TaskRef) (p : Nat)
    (hm : (k.tasks t).magic = true) (hp : p < cfg.idlePriority) :
    ∃ k', kernelSetTaskEffectivePriority cfg k t p = (k', .ok) ∧ k'.Linked cfg ∧ Reprio k k' ∧
      k'.tasks = Function.update k.tasks t { k.tasks t with effectivePriority := p } ∧
      k'.waitLists = if (k.tasks t).effectivePriority = p then k.waitLists else k.waitLists.move t p := by
  by_cases he : (k.tasks t).effectivePriority = p
  · refine ⟨k, ?_, h, Reprio.refl k, ?_, (if_pos he).symm⟩
    · simp [kernelSetTaskEffectivePriority, hp.not_ge, he]
    · subst he
      exact (Function.update_eq_self t k.tasks).symm
  obtain ⟨set1, hd, hwf1, hprio1, hq1⟩ := h.detachNodes t
  let k1 : Kernel :=
    { k with scheduler := set1, waitLists := { k.waitLists with lists := k.waitLists.lists.unlink t } }
  have h1 : k1.Linked cfg := by
    refine ⟨hwf1, h.sorted.remove t, ?_, ?_⟩
    · intro u l hu
      by_cases hut : u = t
      · simp [k1, hut] at hu
      · exact h.listed u l (by simpa [k1, hut] using hu)
    · intro u hu
      exact ⟨(congrFun hprio1 u).trans (h.agree u hu).1, (h.agree u hu).2⟩
  have hr1 : k1.scheduler.queues.host t = none := by simp [k1, hq1]
  have hw1 : k1.waitLists.lists.host t = none := by simp [k1]
  have h2 := h1.storePriority t p hr1 hw1
  have hlt : p < cfg.priorityCount := hp.trans cfg.idlePriority_lt
  have htask : (k1.storePriority t p).tasks = Function.update k.tasks t { k.tasks t with effectivePriority := p } := rfl
  obtain ⟨k', ha, h', hframe, hwait, hready, hlists⟩ := h2.attachNodes t (listNodeIsLinked k.scheduler.queues t)
    (k.waitLists.lists.host t) (by simp [htask, hm]) (by simp [htask, hlt]) hr1 hw1
    (by intro l hl; simpa [htask] using h.listed t l hl)
  have htasks : k'.tasks = Function.update k.tasks t { k.tasks t with effectivePriority := p } := by
    rw [hframe, ← htask]
  refine ⟨k', ?_, h', ⟨?_, ?_, ?_, ?_⟩, htasks, ?_⟩
  · have hb : ((k1.storePriority t p).tasks t).blockedWaitList = (k.tasks t).blockedWaitList := by simp [htask]
    rw [hb] at ha
    simp only [kernelSetTaskEffectivePriority, hp.not_ge, he, hd, ↓reduceIte, ne_eq, not_true_eq_false]
    exact ha
  · rw [htasks]
    exact hframe
  · intro u
    rw [htasks]
    by_cases hu : u = t
    · simp [hu]
    · simp [hu]
  · funext u
    rw [hwait]
    by_cases hu : u = t
    · simp [hu]
    · simp [hu, k1, Kernel.storePriority, Kernel.updateTask]
  · intro u
    rw [hready]
    by_cases hu : u = t
    · subst hu
      cases hh : k.scheduler.queues.host u with
      | none => simp [listNodeIsLinked, hh]
      | some q => simp [listNodeIsLinked, hh]
    · simp [hu, k1, Kernel.storePriority, Kernel.updateTask, hq1]
  · rw [if_neg he, hlists]
    rfl

theorem Reprio.control {k k' : Kernel} (h : Reprio k k') : SameControl k k' := by
  rw [h.frame]
  exact ⟨rfl, rfl, rfl, rfl, rfl, rfl⟩

theorem Reprio.wait {k k' : Kernel} (h : Reprio k k') (t : TaskRef) : (k'.tasks t).wait = (k.tasks t).wait := by
  rw [h.tasks t]
  rfl

theorem Reprio.timeoutList {k k' : Kernel} (h : Reprio k k') : k'.timeoutList = k.timeoutList := by rw [h.frame]

theorem Kernel.Good.reprio {cfg : Config} {k k' : Kernel} (g : k.Good cfg) (hl : k'.Linked cfg) (hr : Reprio k k')
    (heff : ∀ t, (k'.tasks t).effectivePriority ≤ (k.tasks t).basePriority)
    (hkeep : ∀ t, (k.view t).registered = false ∨ (k.view t).idle = true → k'.tasks t = k.tasks t) :
    k'.Good cfg := by
  have htimeouts := hr.timeoutList
  refine ⟨g.update hr.control hl.scheduler hl.sorted (htimeouts ▸ g.timeouts) (by rw [htimeouts]) ?_ ?_, ?_⟩
  · intro t
    refine (g.shape t).reprioritise (hr.tasks t) rfl (hr.control.registered t) ?_ ?_ (hr.readyLinked t)
      (fun p hp => hl.scheduler.hosted t p hp) (fun hm => hl.agree t hm) (heff t) ?_
    · simp [Kernel.view, hr.waitHost]
    · simp [Kernel.view, htimeouts]
    · intro hi
      simp [Kernel.view, hkeep t hi]
  · intro t ht
    rw [hr.tasks t] at ht
    exact ht
  · intro t ht
    rw [hr.wait t] at ht
    rw [htimeouts]
    exact g.delays t ht

end Hairtos

import Hairtos.Invariant.Ownership
import Hairtos.Invariant.ReadyOrder

namespace Hairtos

open Library

def wokenBlock (cfg : Config) (cb : TaskControlBlock) (result : Status) : TaskControlBlock :=
  { cb with
    state := if cb.state = .suspended then .suspended else .ready
    suspendedResumeState := if cb.state = .suspended then .ready else cb.suspendedResumeState
    timeSliceRemaining := cfg.timeSliceTicks
    waitingObject := none
    blockedWaitList := none
    waitBuffer := none
    waitCleanup := none
    waitResult := result
    waitKind := .none }

structure Woken (cfg : Config) (k : Kernel) (t : TaskRef) (result : Status) (k' : Kernel) : Prop where
  frame : k' = { k with
    tasks := k'.tasks, scheduler := k'.scheduler, waitLists := k'.waitLists, timeoutList := k'.timeoutList }
  task : k'.tasks t =
    { wokenBlock cfg (k.tasks t) result with effectivePriority := (k'.tasks t).effectivePriority }
  others : ∀ u, u ≠ t → k'.tasks u = { k.tasks u with effectivePriority := (k'.tasks u).effectivePriority }
  waitHost : k'.waitLists.lists.host = Function.update k.waitLists.lists.host t none
  timeouts : k'.timeoutList.lists = k.timeoutList.lists.unlink t
  wakeTick : k'.timeoutList.wakeTick = k.timeoutList.wakeTick
  lastTick : k'.timeoutList.lastTick = k.timeoutList.lastTick

theorem Woken.control {cfg : Config} {k k' : Kernel} {t : TaskRef} {result : Status} (h : Woken cfg k t result k') :
    SameControl k k' := by
  rw [h.frame]
  exact ⟨rfl, rfl, rfl, rfl, rfl, rfl⟩

section

variable {cfg : Config} {k : Kernel} {ms : Mutexes} {t : TaskRef}

theorem Kernel.Sound.detachWait (g : k.Sound cfg)
    (hx : k.timeoutList.lists.host t ≠ some .expired) :
    ∃ timeoutList, k.detachWait t =
        ({ k with
            waitLists := { k.waitLists with lists := k.waitLists.lists.unlink t }
            timeoutList := timeoutList }, .ok) ∧
      timeoutList.WellFormed ∧ timeoutList.lists = k.timeoutList.lists.unlink t ∧
      timeoutList.wakeTick = k.timeoutList.wakeTick ∧ timeoutList.lastTick = k.timeoutList.lastTick := by
  have hhost : k.waitLists.lists.host t = (k.tasks t).blockedWaitList := (g.shape t).waitHost
  let k1 : Kernel := { k with waitLists := { k.waitLists with lists := k.waitLists.lists.unlink t } }
  have h1 : k.leaveWaitList t = (k1, .ok) := by
    cases hl : (k.tasks t).blockedWaitList with
    | none => simp [Kernel.leaveWaitList, hl, k1, ListFamily.unlink_of_none _ (hhost.trans hl)]
    | some l => simpa [Kernel.leaveWaitList, hl] using Kernel.waitRemove_eq t (hhost.trans hl)
  simp only [Kernel.detachWait, h1, ne_eq, not_true_eq_false, ↓reduceIte]
  cases ht : k.timeoutList.lists.host t with
  | none =>
    refine ⟨k.timeoutList, ?_, g.timeouts, (ListFamily.unlink_of_none _ ht).symm, rfl, rfl⟩
    simp [listNodeIsLinked, k1, ht]
  | some l =>
    have hwaiting : k.timeoutList.Waiting t := by
      cases l with
      | slot i => exact ⟨i, ht⟩
      | expired => exact absurd ht hx
    obtain ⟨tl, he, hwf, hlast, hlists, hwake⟩ := timeoutListRemove_spec g.timeouts t hwaiting
    refine ⟨tl, ?_, hwf, hlists, hwake, hlast⟩
    simp [listNodeIsLinked, k1, ht, Kernel.timeoutRemove, he]

structure Detached (k : Kernel) (t : TaskRef) (k' : Kernel) : Prop where
  frame : k' = { k with waitLists := k'.waitLists, timeoutList := k'.timeoutList }
  waitLists : k'.waitLists = { k.waitLists with lists := k.waitLists.lists.unlink t }
  timeouts : k'.timeoutList.lists = k.timeoutList.lists.unlink t
  wakeTick : k'.timeoutList.wakeTick = k.timeoutList.wakeTick
  lastTick : k'.timeoutList.lastTick = k.timeoutList.lastTick

theorem Detached.host {k' : Kernel} (h : Detached k t k') (u : TaskRef) (l : WaitListRef) :
    k'.waitLists.lists.host u = some l ↔ u ≠ t ∧ k.waitLists.lists.host u = some l := by
  rw [h.waitLists]
  by_cases hu : u = t
  · simp [hu]
  · simp [hu]

theorem Detached.tasks {k' : Kernel} (h : Detached k t k') : k'.tasks = k.tasks := by rw [h.frame]

theorem Detached.scheduler {k' : Kernel} (h : Detached k t k') : k'.scheduler = k.scheduler := by rw [h.frame]

theorem Detached.linked {k' : Kernel} (h : Detached k t k') (g : k.Sound cfg) : k'.Linked cfg where
  scheduler := by
    rw [h.scheduler]
    exact g.scheduler
  sorted := by
    rw [h.waitLists]
    exact g.sorted.remove t
  listed := by
    intro u l hu
    rw [h.tasks]
    exact g.linked.listed u l ((h.host u l).mp hu).2
  agree := by
    rw [h.tasks, h.scheduler, h.waitLists]
    exact g.linked.agree

theorem Detached.balanced {k' : Kernel} (h : Detached k t k') {u : TaskRef} (hbal : Balanced k ms u)
    (hu : ∀ m, k.waitLists.lists.host t = some (.mutex m) → ms.owned.host m ≠ some u) : Balanced k' ms u := by
  have hprio : k'.waitLists.priority = k.waitLists.priority := by rw [h.waitLists]
  have hsame : donors k' ms u = donors k ms u := by
    ext p
    simp only [donors, h.tasks, h.host, hprio, Set.mem_ofPred_eq]
    refine or_congr_right ⟨?_, ?_⟩
    · rintro ⟨m, v, ho, ⟨-, hv⟩, rfl⟩
      exact ⟨m, v, ho, hv, rfl⟩
    · rintro ⟨m, v, ho, hv, rfl⟩
      refine ⟨m, v, ho, ⟨?_, hv⟩, rfl⟩
      rintro rfl
      exact hu m hv ho
  unfold Balanced
  rw [hsame, h.tasks]
  exact hbal

structure Cleaned (cfg : Config) (ms : Mutexes) (k : Kernel) (k' : Kernel) : Prop where
  linked : k'.Linked cfg
  reprio : Reprio k k'
  effective : ∀ t, (k.tasks t).effectivePriority ≤ (k.tasks t).basePriority →
    (k'.tasks t).effectivePriority ≤ (k.tasks t).basePriority
  keeps : ∀ t, (∀ m, (ms.blocks m).owner ≠ some t) → k'.tasks t = k.tasks t

theorem Cleaned.refl (h : k.Linked cfg) : Cleaned cfg ms k k :=
  ⟨h, Reprio.refl k, fun _ ht => ht, fun _ _ => rfl⟩

theorem runCleanup_timeout (g : k.Sound cfg) (own : Ownership k ms) {k1 : Kernel} (hd : Detached k t k1)
    {m : MutexRef} {o : TaskRef} (hw : (k.tasks t).wait = some (.mutexLock m)) (ho : (ms.blocks m).owner = some o) :
    k1.runCleanup cfg ms t (k.tasks t).waitCleanup .timeout =
      (mutexRecomputeTaskPriority cfg ms (recomputeDepth cfg) k1 o).1 := by
  have hrec := (g.shape t).records
  rw [show (k.view t).cb.wait = some (.mutexLock m) from hw] at hrec
  have hkind : (k.tasks t).waitKind = .mutexLock := hrec.kind
  have hobj : (k.tasks t).waitingObject = some (.mutex m) := hrec.object
  have hclean : (k.tasks t).waitCleanup = some .mutexWaitCleanup := hrec.cleanup
  simp [Kernel.runCleanup, hclean, mutexWaitCleanup, hd.tasks, hkind, hobj, mutexRecomputeOwnerPriority,
    own.magic m (by simp [ho]), ho, taskIsValid, (own.urgent g ho).1]

theorem runCleanup_spec (g : k.Sound cfg) (own : Ownership k ms) {k1 : Kernel} (hd : Detached k t k1)
    (result : Status) :
    Cleaned cfg ms k1 (k1.runCleanup cfg ms t (k.tasks t).waitCleanup result) ∧
    (result ≠ .timeout ∨ (∀ m, (k.tasks t).wait ≠ some (.mutexLock m)) →
      k1.runCleanup cfg ms t (k.tasks t).waitCleanup result = k1) ∧
    (result = .timeout ∨ (∀ m, (k.tasks t).wait ≠ some (.mutexLock m)) → (∀ u, Balanced k ms u) →
      ∀ u, Balanced (k1.runCleanup cfg ms t (k.tasks t).waitCleanup result) ms u) := by
  have hrec := (g.shape t).records
  have hl1 := hd.linked g
  by_cases hlock : ∃ m, (k.tasks t).wait = some (.mutexLock m)
  · obtain ⟨m, hw⟩ := hlock
    have hwv : (k.view t).cb.wait = some (.mutexLock m) := hw
    rw [hwv] at hrec
    have hclean : (k.tasks t).waitCleanup = some .mutexWaitCleanup := hrec.cleanup
    by_cases hres : result = .timeout
    · obtain ⟨hne, -⟩ := own.waited t m hw
      obtain ⟨o, ho⟩ := Option.ne_none_iff_exists'.mp hne
      have hi1 : Inherits cfg k1 ms := own.inherits g hd.tasks (fun u l hu => ((hd.host u l).mp hu).2)
      obtain ⟨hm1, hb1⟩ := hi1.owners m o ho
      obtain ⟨k2, status, he, hl2, hr, heff, hkeep, hends, hbal⟩ :=
        mutexRecomputeTaskPriority_spec (recomputeDepth cfg) hl1 hi1 o hm1 hb1
      have hnext : mutexNextOwner k1 ms = mutexNextOwner k ms := by
        apply mutexNextOwner_congr
        simp [hd.tasks]
      have hok : status = .ok := by
        rw [hnext] at hends
        rcases hends with ⟨-, hok⟩ | ⟨hno, -⟩
        · exact hok
        · exact absurd (own.endsWithin g (own.registered m o ho).1) hno
      have hrun : k1.runCleanup cfg ms t (k.tasks t).waitCleanup result = k2 := by
        rw [hres, runCleanup_timeout g own hd hw ho, he]
      rw [hrun]
      have hkeeps : ∀ u, (∀ m, (ms.blocks m).owner ≠ some u) → k2.tasks u = k1.tasks u := by
        intro u hu
        apply hkeep u _ hu
        rintro rfl
        exact hu m ho
      refine ⟨⟨hl2, hr, heff, hkeeps⟩, ?_, ?_⟩
      · rintro (h | h)
        · exact absurd hres h
        · exact absurd hw (h m)
      · intro _ hb u
        apply hbal hok
        intro hu
        apply hd.balanced (hb u)
        intro m' hm' ho'
        have hwait := (g.shape t).wait_of_waitHost hm'
        rw [hwv] at hwait
        obtain rfl : m = m' := by simpa using hwait
        rw [← own.owner, ho] at ho'
        exact hu (Option.some.inj ho').symm
    · have hrun : k1.runCleanup cfg ms t (k.tasks t).waitCleanup result = k1 := by
        simp [Kernel.runCleanup, hclean, mutexWaitCleanup, hres]
      rw [hrun]
      refine ⟨Cleaned.refl hl1, fun _ => rfl, ?_⟩
      rintro (h | h)
      · exact absurd h hres
      · exact absurd hw (h m)
  · have hno : (k.tasks t).waitCleanup = none := by
      have := hrec.cleanup
      cases hw : (k.tasks t).wait with
      | none => simpa [Kernel.view, hw] using this
      | some w =>
        cases w with
        | mutexLock m => exact absurd ⟨m, hw⟩ hlock
        | _ => simpa [Kernel.view, hw, Wait.cleanup] using this
    have hrun : k1.runCleanup cfg ms t (k.tasks t).waitCleanup result = k1 := by
      simp [Kernel.runCleanup, hno]
    rw [hrun]
    refine ⟨Cleaned.refl hl1, fun _ => rfl, ?_⟩
    intro _ hb u
    apply hd.balanced (hb u)
    intro m hm
    exact absurd ⟨m, (g.shape t).wait_of_waitHost hm⟩ hlock

theorem Kernel.Linked.completeWait (h : k.Linked cfg) (result : Status) (hm : (k.tasks t).magic = true)
    (hp : (k.tasks t).effectivePriority < cfg.priorityCount) (hr : k.scheduler.queues.host t = none)
    {suspended : Bool} (hs : (k.tasks t).state = if suspended then .suspended else .blocked) :
    ∃ k', k.completeWait cfg t result suspended = (k', !suspended && kernelOutranksCurrent k' t, .ok) ∧
      k' = { k with
        tasks := Function.update k.tasks t (wokenBlock cfg (k.tasks t) result), scheduler := k'.scheduler } ∧
      k'.scheduler.WellFormed cfg ∧ k'.scheduler.priority = k.scheduler.priority ∧
      k'.scheduler.queues.host = Function.update k.scheduler.queues.host t
        (if suspended then none else some (k.tasks t).effectivePriority) := by
  cases suspended with
  | true =>
    simp only [↓reduceIte] at hs
    refine ⟨{ k with tasks := Function.update k.tasks t (wokenBlock cfg (k.tasks t) result) }, ?_, rfl,
      h.scheduler, rfl, ?_⟩
    · simp [Kernel.completeWait, kernelReloadTimeSlice, Kernel.updateTask, wokenBlock, hs]
    · simp [← hr]
  | false =>
    simp only [Bool.false_eq_true, ↓reduceIte] at hs
    have hprio := (h.agree t hm).1
    obtain ⟨set', he, hwf, hp', hhost, -⟩ := schedulerAddReady_spec h.scheduler t (hprio ▸ hp) hr
    refine ⟨{ k with
      tasks := Function.update k.tasks t (wokenBlock cfg (k.tasks t) result), scheduler := set' }, ?_, rfl,
      hwf, hp', ?_⟩
    · simp [Kernel.completeWait, kernelReloadTimeSlice, Kernel.updateTask, Kernel.addReady, he, taskTransitionState,
        taskIsValid, hm, hs, wokenBlock]
    · simpa [hprio] using hhost

theorem wokenBlock_isWaiting (cfg : Config) (cb : TaskControlBlock) (result : Status) :
    (wokenBlock cfg cb result).isWaiting = false := by
  by_cases hs : cb.state = .suspended
  · simp [wokenBlock, TaskControlBlock.isWaiting, hs]
  · simp [wokenBlock, TaskControlBlock.isWaiting, hs]

theorem Shape.woken {v v' : TaskView} (h : Shape cfg v) (hw : v.cb.wait ≠ none) {result : Status}
    (hcb : v'.cb = { wokenBlock cfg v.cb result with effectivePriority := v'.cb.effectivePriority })
    (hidle : v'.idle = v.idle) (hreg : v'.registered = v.registered) (hwait : v'.waitHost = none)
    (htimeout : v'.timeoutHost = none)
    (hready : v'.readyHost = if v.cb.state = .suspended then none else some v'.cb.effectivePriority)
    (hagree : v'.readyPriority = v'.cb.effectivePriority ∧ v'.waitPriority = v'.cb.effectivePriority)
    (heff : v'.cb.effectivePriority ≤ v.cb.basePriority) : Shape cfg v' := by
  have hregistered := h.registered_of_wait hw
  have hnone : v'.cb.wait = none := by
    rw [hcb]
    rfl
  have hstate : v'.cb.state = if v.cb.state = .suspended then .suspended else .ready := by
    rw [hcb]
    rfl
  have hmagic : v'.cb.magic = true := by
    rw [hcb]
    exact h.magic_of_wait hw
  have hbase : v'.cb.basePriority = v.cb.basePriority := by
    rw [hcb]
    rfl
  have hblocked : v'.cb.isWaiting = false := by
    rw [hcb]
    exact wokenBlock_isWaiting cfg v.cb result
  constructor
  · simp only [hmagic, hstate, true_iff]
    split_ifs <;> simp
  · simp only [hreg, hregistered, hstate, true_iff]
    split_ifs <;> simp
  · by_cases hs : v.cb.state = .suspended
    · simp [hready, hstate, hs, TaskState.isReady]
    · simp [hready, hstate, hs, TaskState.isReady]
  · rw [hwait, hcb]
    rfl
  · rw [hnone, hcb]
    exact ⟨rfl, rfl, rfl, rfl, rfl⟩
  · simp [hnone, hblocked]
  · simp [htimeout]
  · intro hs
    rw [hcb]
    simp only [hstate] at hs
    split_ifs at hs with hsus
    exact Or.inl (by simp [wokenBlock, hsus])
  · intro hs
    rw [hcb]
    simp only [hstate] at hs
    split_ifs at hs with hsus
    · simp at hs
    · simpa [wokenBlock, hsus] using h.resumesNot hsus
  · exact fun _ => hagree
  · rw [hbase]
    exact heff
  · simp [hreg, hregistered]
  · intro _
    rw [hbase]
    exact h.base (h.magic_of_wait hw)
  · rw [hreg, hidle, hbase]
    exact h.urgent
  · intro hi
    simp [hidle, h.not_idle_of_wait hw] at hi

theorem Kernel.Sound.waiting_state (g : k.Sound cfg) (hw : (k.tasks t).wait ≠ none) :
    (k.tasks t).state = .blocked ∨ (k.tasks t).state = .suspended ∧ (k.tasks t).suspendedResumeState =
    .blocked := by
  have h : (k.tasks t).isWaiting = true := (g.shape t).waiting.mp hw
  simpa [TaskControlBlock.isWaiting] using h

theorem Woken.sound {k' : Kernel} {result : Status} (h : Woken cfg k t result k') (g : k.Sound cfg)
    (hw : (k.tasks t).wait ≠ none) (hwf : k'.scheduler.WellFormed cfg) (hsorted : k'.waitLists.Sorted)
    (htimeouts : k'.timeoutList.WellFormed)
    (hagree : ∀ u, (k.tasks u).magic = true → k'.scheduler.priority u = (k'.tasks u).effectivePriority ∧
      k'.waitLists.priority u = (k'.tasks u).effectivePriority)
    (heff : ∀ u, (k'.tasks u).effectivePriority ≤ (k.tasks u).basePriority)
    (hkeep : ∀ u, (k.view u).registered = false ∨ (k.view u).idle = true →
      (k'.tasks u).effectivePriority = (k.tasks u).effectivePriority)
    (hself : k'.scheduler.queues.host t =
      if (k.tasks t).state = .suspended then none else some (k'.tasks t).effectivePriority)
    (hlinked : ∀ u, u ≠ t → (k'.scheduler.queues.host u).isSome = (k.scheduler.queues.host u).isSome) :
    k'.Sound cfg := by
  refine g.update h.control hwf hsorted htimeouts h.lastTick ?_ ?_
  · intro u
    have hreg := h.control.registered u
    by_cases hu : u = t
    · subst hu
      have hm : (k.tasks u).magic = true := (g.shape u).magic_of_wait hw
      refine (g.shape u).woken hw h.task rfl hreg ?_ ?_ hself (hagree u hm) (heff u)
      · simp [Kernel.view, h.waitHost]
      · simp [Kernel.view, h.timeouts]
    · refine (g.shape u).reprioritise (h.others u hu) rfl hreg ?_ ?_ (hlinked u hu)
        (fun p hp => hwf.hosted u p hp) ?_ (heff u) (hkeep u)
      · simp [Kernel.view, h.waitHost, hu]
      · simp [Kernel.view, h.timeouts, hu]
      · intro hmu
        apply hagree u
        simp only [Kernel.view] at hmu
        rwa [h.others u hu] at hmu
  · intro u hu
    by_cases hut : u = t
    · subst hut
      rw [h.task] at hu
      simp only [wokenBlock] at hu
      split_ifs at hu
    · rwa [h.others u hut] at hu

theorem kernelMakeTaskReady_waiting (ms : Mutexes) (g : k.Sound cfg) (result : Status)
    (hw : (k.tasks t).wait ≠ none) {k1 : Kernel} (hde : k.detachWait t = (k1, .ok)) :
    kernelMakeTaskReady cfg ms k t result =
      (k1.runCleanup cfg ms t (k.tasks t).waitCleanup result).completeWait cfg t result
        (decide ((k.tasks t).state = .suspended)) := by
  have hm : (k.tasks t).magic = true := (g.shape t).magic_of_wait hw
  rcases g.waiting_state hw with hs | ⟨hs, hresume⟩
  · simp [kernelMakeTaskReady, taskIsValid, hm, hde, hs]
  · simp [kernelMakeTaskReady, taskIsValid, hm, hde, hs, hresume]

theorem kernelMakeTaskReady_core (ms : Mutexes) (g : k.Sound cfg) (result : Status) (hw : (k.tasks t).wait ≠ none)
    (hx : k.timeoutList.lists.host t ≠ some .expired)
    (hclean : ∀ k1, Detached k t k1 → Cleaned cfg ms k1 (k1.runCleanup cfg ms t (k.tasks t).waitCleanup result))
    (hkeep : ∀ u, (k.view u).registered = false ∨ (k.view u).idle = true → ∀ k1, Detached k t k1 →
      (k1.runCleanup cfg ms t (k.tasks t).waitCleanup result).tasks u = k1.tasks u) :
    ∃ k1 k', k.detachWait t = (k1, .ok) ∧ Detached k t k1 ∧
      kernelMakeTaskReady cfg ms k t result =
        (k', (k.tasks t).state ≠ .suspended && kernelOutranksCurrent k' t, .ok) ∧
      k'.Sound cfg ∧ Woken cfg k t result k' ∧
      k'.waitLists = (k1.runCleanup cfg ms t (k.tasks t).waitCleanup result).waitLists ∧
      ∀ u, (k'.tasks u).effectivePriority =
        ((k1.runCleanup cfg ms t (k.tasks t).waitCleanup result).tasks u).effectivePriority := by
  have hshape := g.shape t
  have hm : (k.tasks t).magic = true := hshape.magic_of_wait hw
  obtain ⟨tl, hde, htwf, htl, hwake, hlast⟩ := g.detachWait hx
  set k1 : Kernel := { k with
    waitLists := { k.waitLists with lists := k.waitLists.lists.unlink t }, timeoutList := tl } with hk1
  have hd : Detached k t k1 := ⟨rfl, rfl, htl, hwake, hlast⟩
  have hkeep := fun u hu => hkeep u hu k1 hd
  have hclean := hclean k1 hd
  set k2 := k1.runCleanup cfg ms t (k.tasks t).waitCleanup result with hk2
  have hr := hclean.reprio
  have ht2 := hr.tasks t
  have hs2 : (k2.tasks t).state = if decide ((k.tasks t).state = .suspended) then .suspended else .blocked := by
    rw [ht2]
    rcases g.waiting_state hw with h | ⟨h, -⟩
    · simp [k1, h]
    · simp [k1, h]
  have hr2 : k2.scheduler.queues.host t = none := by
    have hl := hr.readyLinked t
    have hready : k1.scheduler.queues.host t = none := by
      have := hshape.readyHost
      rcases g.waiting_state hw with h | ⟨h, -⟩ <;> simpa [Kernel.view, h, TaskState.isReady] using this
    rw [hready] at hl
    simpa using hl
  have heff : ∀ u, (k2.tasks u).effectivePriority ≤ (k.tasks u).basePriority :=
    fun u => hclean.effective u (g.shape u).effective
  obtain ⟨k', hce, hframe, hwf, hprio, hhost⟩ := hclean.linked.completeWait result (by rw [ht2]; exact hm)
    ((heff t).trans_lt (hshape.base hm)) hr2 hs2
  have htask : k'.tasks = Function.update k2.tasks t (wokenBlock cfg (k2.tasks t) result) := by rw [hframe]
  have hself : k'.tasks t =
      { wokenBlock cfg (k.tasks t) result with effectivePriority := (k'.tasks t).effectivePriority } := by
    rw [htask, Function.update_self, ht2]
    rfl
  have hother : ∀ u, u ≠ t →
      k'.tasks u = { k.tasks u with effectivePriority := (k'.tasks u).effectivePriority } := by
    intro u hu
    rw [htask, Function.update_of_ne hu]
    exact hr.tasks u
  have heffs : ∀ u, (k'.tasks u).effectivePriority = (k2.tasks u).effectivePriority := by
    intro u
    rw [htask]
    by_cases hu : u = t
    · subst hu
      simp [wokenBlock]
    · simp [hu]
  have hwaits : k'.waitLists = k2.waitLists := by rw [hframe]
  have hwaitHost : k'.waitLists.lists.host = Function.update k.waitLists.lists.host t none := by
    rw [hwaits, hr.waitHost]
    rfl
  have htl' : k'.timeoutList = tl := by rw [hframe, hr.frame]
  have hagree : ∀ u, (k.tasks u).magic = true → k'.scheduler.priority u = (k'.tasks u).effectivePriority ∧
      k'.waitLists.priority u = (k'.tasks u).effectivePriority := by
    intro u hu
    rw [hprio, hwaits, heffs u]
    apply hclean.linked.agree u
    rw [hr.tasks u]
    exact hu
  have hwoken : Woken cfg k t result k' :=
    ⟨by rw [hframe, hr.frame], hself, hother, hwaitHost, by rw [htl', htl], by rw [htl', hwake], by rw [htl',
      hlast]⟩
  refine ⟨k1, k', hde, hd, ?_, ?_, hwoken, hwaits, heffs⟩
  · rw [kernelMakeTaskReady_waiting ms g result hw hde, ← hk2, hce, ← decide_not]
  · refine hwoken.sound g hw hwf (hwaits ▸ hclean.linked.sorted) (htl' ▸ htwf) hagree
      (fun u => (heffs u).trans_le (heff u)) ?_ ?_ ?_
    · intro u hu
      rw [heffs u, hkeep u hu]
    · simp [hhost, heffs t]
    · intro u hu
      simpa [hhost, hu] using hr.readyLinked u

theorem kernelMakeTaskReady_spec (g : k.Sound cfg) (own : Ownership k ms) (result : Status)
    (hw : (k.tasks t).wait ≠ none) (hx : k.timeoutList.lists.host t ≠ some .expired) :
    ∃ k', kernelMakeTaskReady cfg ms k t result =
        (k', (k.tasks t).state ≠ .suspended && kernelOutranksCurrent k' t, .ok) ∧
      k'.Sound cfg ∧ Woken cfg k t result k' ∧
      (result ≠ .timeout ∨ (∀ m, (k.tasks t).wait ≠ some (.mutexLock m)) →
        ∀ u, (k'.tasks u).effectivePriority = (k.tasks u).effectivePriority) ∧
      (result = .timeout ∨ (∀ m, (k.tasks t).wait ≠ some (.mutexLock m)) → (∀ u, Balanced k ms u) →
        ∀ u, Balanced k' ms u) := by
  obtain ⟨k1, k', -, hd, he, g', hwoken, hwaits, heffs⟩ := kernelMakeTaskReady_core ms g result hw hx
    (fun k1 hd => (runCleanup_spec g own hd result).1)
    (fun u hu k1 hd => (runCleanup_spec g own hd result).1.keeps u (own.not_owner hu))
  obtain ⟨hclean, hexact, hbal⟩ := runCleanup_spec g own hd result
  refine ⟨k', he, g', hwoken, ?_, ?_⟩
  · intro hno u
    rw [heffs u, hexact hno, hd.tasks]
  · intro hyes hb u
    have hbase : (k'.tasks u).basePriority =
        ((k1.runCleanup cfg ms t (k.tasks t).waitCleanup result).tasks u).basePriority := by
      rw [hclean.reprio.tasks u, hd.tasks]
      by_cases hu : u = t
      · rw [hu, hwoken.task]
        rfl
      · rw [hwoken.others u hu]
    have h2 := hbal hyes hb u
    simp only [Balanced, donors] at h2 ⊢
    rw [hwaits, heffs u, hbase]
    exact h2

theorem kernelMakeTaskReady_grant (ms : Mutexes) (result : Status) (g : k.Sound cfg) (hr : result ≠ .timeout)
    (hw : (k.tasks t).wait ≠ none) (hx : k.timeoutList.lists.host t ≠ some .expired) :
    ∃ k', kernelMakeTaskReady cfg ms k t result =
        (k', (k.tasks t).state ≠ .suspended && kernelOutranksCurrent k' t, .ok) ∧
      k'.Sound cfg ∧ Woken cfg k t result k' ∧
      (∀ u, (k'.tasks u).effectivePriority = (k.tasks u).effectivePriority) ∧
      k'.waitLists = { k.waitLists with lists := k.waitLists.lists.unlink t } := by
  have hrun : ∀ k1 : Kernel, k1.runCleanup cfg ms t (k.tasks t).waitCleanup result = k1 := by
    intro k1
    cases hc : (k.tasks t).waitCleanup with
    | none => rfl
    | some c => simp [Kernel.runCleanup, mutexWaitCleanup, hr]
  obtain ⟨k1, k', -, hd, he, g', hwoken, hwaits, heffs⟩ := kernelMakeTaskReady_core ms g result hw hx
    (fun k1 hd => by rw [hrun]; exact Cleaned.refl (hd.linked g)) (fun u _ k1 _ => by rw [hrun])
  refine ⟨k', he, g', hwoken, ?_, ?_⟩
  · intro u
    rw [heffs u, hrun, hd.tasks]
  · rw [hwaits, hrun, hd.waitLists]

theorem runCleanup_requeued (g : k.Sound cfg) (own : Ownership k ms) {k1 : Kernel} (hd : Detached k t k1)
    (result : Status) :
    k1.Requeued (fun u => (k.tasks u).isWaiting = true ∨
        ((k1.runCleanup cfg ms t (k.tasks t).waitCleanup result).tasks u).effectivePriority ≠
          (k.tasks u).effectivePriority)
      (k1.runCleanup cfg ms t (k.tasks t).waitCleanup result) := by
  by_cases hlock : result = .timeout ∧ ∃ m, (k.tasks t).wait = some (.mutexLock m)
  · obtain ⟨rfl, m, hw⟩ := hlock
    obtain ⟨o, ho⟩ := Option.ne_none_iff_exists'.mp (own.waited t m hw).1
    have hi : Inherits cfg k1 ms := own.inherits g hd.tasks (fun u l hu => ((hd.host u l).mp hu).2)
    obtain ⟨hm, hb⟩ := hi.owners m o ho
    have hmoved := mutexRecomputeTaskPriority_requeued (recomputeDepth cfg) (hd.linked g) hi hm hb
    rw [runCleanup_timeout g own hd hw ho]
    rw [hd.tasks] at hmoved
    exact hmoved
  · rw [(runCleanup_spec g own hd result).2.1 (by simpa [imp_iff_not_or] using hlock)]
    exact .of_eq rfl

theorem kernelMakeTaskReady_keeps (g : k.Sound cfg) (own : Ownership k ms) (result : Status)
    (hw : (k.tasks t).wait ≠ none) (hx : k.timeoutList.lists.host t ≠ some .expired) :
    k.Keeps (kernelMakeTaskReady cfg ms k t result).1 := by
  obtain ⟨k1, k', hde, hd, he, -, -, -, heffs⟩ := kernelMakeTaskReady_core ms g result hw hx
    (fun k1 hd => (runCleanup_spec g own hd result).1)
    (fun u hu k1 hd => (runCleanup_spec g own hd result).1.keeps u (own.not_owner hu))
  have hm : (k.tasks t).magic = true := (g.shape t).magic_of_wait hw
  have hwaiting : (k.tasks t).isWaiting = true := (g.shape t).waiting.mp hw
  have hmoved : k.Requeued (fun u => (k.tasks u).isWaiting = true ∨
      ((k1.runCleanup cfg ms t (k.tasks t).waitCleanup result).tasks u).effectivePriority ≠
        (k.tasks u).effectivePriority) k' := by
    have hstate : ¬ (decide ((k.tasks t).state ≠ .blocked) &&
        !(decide ((k.tasks t).state = .suspended) && decide ((k.tasks t).suspendedResumeState = .blocked))) = true := by
      rcases g.waiting_state hw with h | ⟨h, h'⟩
      · simp [h]
      · simp [h, h']
    have heq : k' = ((k1.runCleanup cfg ms t (k.tasks t).waitCleanup result).completeWait cfg t result
        ((k.tasks t).state = .suspended && (k.tasks t).suspendedResumeState = .blocked)).1 := by
      have hfst := congrArg Prod.fst he
      simp only [kernelMakeTaskReady, taskIsValid, hm, hde, if_neg hstate, Bool.not_true, Bool.false_eq_true, ne_eq,
        not_true_eq_false, ↓reduceIte] at hfst
      exact hfst.symm
    rw [heq]
    refine Kernel.Requeued.trans (.of_eq (by rw [hd.scheduler])) ((runCleanup_requeued g own hd result).trans ?_)
    exact (Kernel.completeWait_requeued _ t _ _).mono (fun u hu => Or.inl (hu ▸ hwaiting))
  rw [he]
  apply hmoved.mono
  rintro u (hu | hu)
  · exact Or.inl hu
  · rw [← heffs u] at hu
    exact Or.inr (Or.inr hu)

structure Lapses (ms : Mutexes) (k : Kernel) (t : TaskRef) (k' : Kernel) : Prop where
  keeps : k.Keeps k'
  self : (k'.tasks t).effectivePriority = (k.tasks t).effectivePriority
  lifts : (∀ u, Balanced k ms u) → ∀ u,
    Lifts (k.tasks t).effectivePriority (k.tasks u).effectivePriority (k'.tasks u).effectivePriority
  locks : ∀ u, (k'.tasks u).effectivePriority ≠ (k.tasks u).effectivePriority →
    ∃ m, (k.tasks t).wait = some (.mutexLock m)

theorem Detached.leading {k1 : Kernel} (hd : Detached k t k1) (g : k.Sound cfg) (own : Ownership k ms)
    (hb : ∀ u, Balanced k ms u) : k1.Leading ms (k.tasks t).effectivePriority := by
  have hi : Inherits cfg k ms := own.inherits g rfl (fun _ _ h => h)
  have hi1 : Inherits cfg k1 ms := own.inherits g hd.tasks (fun u l hu => ((hd.host u l).mp hu).2)
  intro u _
  rw [hd.tasks, ← (hi.balanced_iff g.linked u).mp (hb u)]
  refine hi.required_lifts hi1 g.linked (hd.linked g) (fun v => by rw [hd.tasks])
    (fun v m hv => ((hd.host v _).mp hv).2)
    (fun v m hv => ?_) (fun v => by rw [hd.tasks]; exact .refl _ _) u
  by_cases hvt : v = t
  · exact Or.inr (by rw [hvt])
  · exact Or.inl ((hd.host v _).mpr ⟨hvt, hv⟩)

theorem runCleanup_lapses (g : k.Sound cfg) (own : Ownership k ms) {k1 : Kernel} (hd : Detached k t k1)
    (result : Status) :
    let k2 := k1.runCleanup cfg ms t (k.tasks t).waitCleanup result
    (k2.tasks t).effectivePriority = (k.tasks t).effectivePriority ∧
      ((∀ u, Balanced k ms u) → ∀ u,
        Lifts (k.tasks t).effectivePriority (k.tasks u).effectivePriority (k2.tasks u).effectivePriority) ∧
      ∀ u, (k2.tasks u).effectivePriority ≠ (k.tasks u).effectivePriority →
        ∃ m, (k.tasks t).wait = some (.mutexLock m) := by
  intro k2
  by_cases hlock : result = .timeout ∧ ∃ m, (k.tasks t).wait = some (.mutexLock m)
  · obtain ⟨rfl, m, hw⟩ := hlock
    obtain ⟨o, ho⟩ := Option.ne_none_iff_exists'.mp (own.waited t m hw).1
    have hi1 : Inherits cfg k1 ms := own.inherits g hd.tasks (fun u l hu => ((hd.host u l).mp hu).2)
    have heq : k2 = (mutexRecomputeTaskPriority cfg ms (recomputeDepth cfg) k1 o).1 := runCleanup_timeout g own hd hw ho
    refine ⟨?_, ?_, fun _ _ => ⟨m, hw⟩⟩
    · rw [heq, mutexRecomputeTaskPriority_unreached _ (hd.linked g) hi1 ⟨m, ho⟩, hd.tasks]
      -- The waiter is no owner of its own chain, which has an end.
      intro hreach
      have hnext : mutexNextOwner k1 ms = waitsFor k ms := by
        rw [← own.nextOwner g]
        exact mutexNextOwner_congr (fun u => by simp [hd.tasks])
      rw [hnext] at hreach
      exact (own.ends t).not_cycle (.head' (by rw [waitsFor_of_lock hw, ho]) hreach)
    · intro hb u
      have hlift := mutexRecomputeTaskPriority_lifts (recomputeDepth cfg) (hd.linked g) hi1 (hd.leading g own hb)
        ⟨m, ho⟩ u
      rwa [← heq, hd.tasks] at hlift
  · have heq : k2 = k1 := (runCleanup_spec g own hd result).2.1 (by simpa [imp_iff_not_or] using hlock)
    rw [heq, hd.tasks]
    exact ⟨rfl, fun _ u => .refl _ _, fun u hu => absurd rfl hu⟩

theorem kernelMakeTaskReady_lapses (g : k.Sound cfg) (own : Ownership k ms) (result : Status)
    (hw : (k.tasks t).wait ≠ none) (hx : k.timeoutList.lists.host t ≠ some .expired) :
    Lapses ms k t (kernelMakeTaskReady cfg ms k t result).1 := by
  have hkeeps := kernelMakeTaskReady_keeps g own result hw hx
  obtain ⟨k1, k', -, hd, he, -, -, -, heffs⟩ := kernelMakeTaskReady_core ms g result hw hx
    (fun k1 hd => (runCleanup_spec g own hd result).1)
    (fun u hu k1 hd => (runCleanup_spec g own hd result).1.keeps u (own.not_owner hu))
  obtain ⟨hself, hlifts, hlocks⟩ := runCleanup_lapses g own hd result
  rw [he] at hkeeps ⊢
  refine ⟨hkeeps, (heffs t).trans hself, fun hb u => ?_, fun u hu => hlocks u ?_⟩
  · rw [heffs u]
    exact hlifts hb u
  · rwa [heffs u] at hu

end

end Hairtos

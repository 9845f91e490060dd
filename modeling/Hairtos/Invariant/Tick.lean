import Hairtos.Invariant.Wake
import Hairtos.Tick

namespace Hairtos

open Library

section

variable {cfg : Config} {k k' : Kernel} {ms : Mutexes} {t : TaskRef} {result : Status}

theorem Woken.wait_none (h : Woken cfg k t result k') : (k'.tasks t).wait = none := by
  rw [h.task]
  rfl

theorem Woken.wait_of_ne (h : Woken cfg k t result k') {u : TaskRef} (hu : u ≠ t) :
    (k'.tasks u).wait = (k.tasks u).wait := by
  rw [h.others u hu]
  rfl

theorem Woken.wait_eq_some (h : Woken cfg k t result k') {u : TaskRef} {w : Wait}
    (hw : (k'.tasks u).wait = some w) : u ≠ t ∧ (k.tasks u).wait = some w := by
  by_cases hu : u = t
  · rw [hu, h.wait_none] at hw
    simp at hw
  · exact ⟨hu, (h.wait_of_ne hu).symm.trans hw⟩

theorem Woken.good (h : Woken cfg k t result k') (g' : k'.Sound cfg)
    (hdelays : ∀ u, u ≠ t → (k.tasks u).wait = some .delay → k.timeoutList.lists.host u ≠ none) :
    k'.Good cfg := by
  refine ⟨g', ?_⟩
  intro u hu
  obtain ⟨hut, hw⟩ := h.wait_eq_some hu
  rw [h.timeouts]
  simpa [hut] using hdelays u hut hw

theorem Woken.ownership (h : Woken cfg k t result k') (own : Ownership k ms) : Ownership k' ms := by
  refine own.update (fun u hu => (h.control.registered u).trans hu) ?_ (fun u m hw => (h.wait_eq_some hw).2)
  intro u
  by_cases hu : u = t
  · rw [hu, h.task]
    rfl
  · rw [h.others u hu]

theorem Kernel.Sound.setTimeouts (g : k.Sound cfg) {timeoutList : TimeoutList TaskRef} {tick : Tick}
    (hwf : timeoutList.WellFormed) (hlast : timeoutList.lastTick = tick)
    (hhost : ∀ u, timeoutList.lists.host u ≠ none → k.timeoutList.lists.host u ≠ none) :
    ({ k with timeoutList := timeoutList, tick := tick } : Kernel).Sound cfg where
  scheduler := g.scheduler
  sorted := g.sorted
  timeouts := hwf
  lastTick := hlast
  shape := by
    intro u
    have h := g.shape u
    exact ⟨h.magic, h.registered, h.readyHost, h.waitHost, h.records, h.waiting,
      fun hu => h.timeoutHost (hhost u hu), h.resumes, h.resumesNot, h.agree, h.effective, h.fresh, h.base, h.urgent,
      h.idle⟩
  taskCount := g.taskCount
  taskCount_le := g.taskCount_le
  booted := g.booted
  unstarted := g.unstarted
  started := g.started
  running := g.running

theorem kernelTickAdvance_spec (g : k.Good cfg) (hquiet : k.Quiet) :
    ∃ timeoutList, kernelTickAdvance k = { k with timeoutList := timeoutList, tick := k.tick + 1#32 } ∧
      k.timeoutList.Ticked timeoutList ∧ (kernelTickAdvance k).Good cfg := by
  obtain ⟨tl, he, hwf, hticked⟩ := timeoutListAdvance_spec g.timeouts hquiet
  rw [g.lastTick] at he
  have heq : kernelTickAdvance k = { k with timeoutList := tl, tick := k.tick + 1#32 } := by
    simp [kernelTickAdvance, he]
  refine ⟨tl, heq, hticked, ?_⟩
  rw [heq]
  refine ⟨g.setTimeouts hwf (by rw [hticked.lastTick, g.lastTick]) ?_, ?_⟩
  · intro u hu
    obtain ⟨i, hi⟩ := hticked.waited hu
    simp [hi]
  · intro u hu
    apply hticked.waiting
    obtain ⟨l, hl⟩ := Option.ne_none_iff_exists'.mp (g.delays u hu)
    cases l with
    | slot i => exact ⟨i, hl⟩
    | expired =>
      have hmem := (k.timeoutList.lists.mem_seq _ _).mpr hl
      rw [hquiet] at hmem
      simp at hmem

theorem Kernel.Good.popExpired (g : k.Good cfg) (hhost : k.timeoutList.lists.host t = some .expired) :
    ({ k with timeoutList := { k.timeoutList with lists := k.timeoutList.lists.unlink t } } : Kernel).Sound cfg := by
  refine g.setTimeouts (g.timeouts.popExpired hhost) g.lastTick ?_
  intro u hu
  by_cases hut : u = t
  · simp [hut] at hu
  · simpa [hut] using hu

theorem kernelTickExpire_eq (g : k.Sound cfg) {w : Wait} (hw : (k.tasks t).wait = some w) {woken : Bool}
    (he : kernelMakeTaskReady cfg ms k t w.deadlineResult = (k', woken, .ok)) : kernelTickExpire cfg ms k t = k' := by
  have hwv : (k.view t).cb.wait = some w := hw
  have hm : (k.tasks t).magic = true := (g.shape t).magic_of_wait (by simp [hwv])
  have hwaiting : (k.tasks t).isWaiting = true := (g.shape t).waiting.mp (by simp [hwv])
  have hrec := (g.shape t).records
  rw [hwv] at hrec
  have hkind : (k.tasks t).waitKind = w.kind := hrec.kind
  have hobj : (k.tasks t).waitingObject = some w.object := hrec.object
  have hlist : (k.tasks t).blockedWaitList = w.waitList := hrec.waitList
  cases w <;> simp only [Wait.deadlineResult] at he <;>
    simp [kernelTickExpire, taskIsValid, hm, hwaiting, hkind, hobj, hlist, Wait.kind, Wait.object, Wait.waitList, he]

theorem kernelTickWake_nil (h : k.timeoutList.lists.seq .expired = []) : kernelTickWake cfg ms k = k := by
  simp [kernelTickWake, listPopFront_nil _ _ h]

theorem kernelTickWake_spec (g : k.Good cfg) (own : Ownership k ms) {rest : List TaskRef}
    (hx : k.timeoutList.lists.seq .expired = t :: rest) :
    ∃ w, (k.tasks t).wait = some w ∧ Woken cfg k t w.deadlineResult (kernelTickWake cfg ms k) ∧
      (kernelTickWake cfg ms k).Good cfg ∧
      ((∀ u, Balanced k ms u) → ∀ u, Balanced (kernelTickWake cfg ms k) ms u) ∧
      ((∀ m, w ≠ .mutexLock m) →
        ∀ u, ((kernelTickWake cfg ms k).tasks u).effectivePriority = (k.tasks u).effectivePriority) := by
  have hhost := k.timeoutList.lists.host_of_head hx
  have hne : (k.view t).cb.wait ≠ none := (g.shape t).timeoutHost (by simp [Kernel.view, hhost])
  obtain ⟨w, hw⟩ := Option.ne_none_iff_exists'.mp hne
  let k1 : Kernel := { k with timeoutList := { k.timeoutList with lists := k.timeoutList.lists.unlink t } }
  have g1 : k1.Sound cfg := g.popExpired hhost
  have own1 : Ownership k1 ms := own.update (fun _ h => h) (fun _ => rfl) (fun _ _ h => h)
  have hw1 : (k1.tasks t).wait = some w := hw
  obtain ⟨k', he, g', hwoken, hexact, hbal⟩ := kernelMakeTaskReady_spec g1 own1 w.deadlineResult (t := t)
    (by simp [hw1]) (by simp [k1])
  have heq : kernelTickWake cfg ms k = k' := by
    simp only [kernelTickWake, listPopFront_cons _ _ hx]
    exact kernelTickExpire_eq g1 hw1 he
  have hwoken' : Woken cfg k t w.deadlineResult k' := by
    refine ⟨hwoken.frame, hwoken.task, hwoken.others, hwoken.waitHost, ?_, hwoken.wakeTick, hwoken.lastTick⟩
    rw [hwoken.timeouts]
    exact ListFamily.unlink_of_none _ (by simp [k1])
  rw [heq]
  refine ⟨w, hw, hwoken', hwoken'.good g' (fun u _ hu => g.delays u hu), ?_, ?_⟩
  · apply hbal
    by_cases hlock : ∃ m, w = .mutexLock m
    · obtain ⟨m, rfl⟩ := hlock
      exact Or.inl rfl
    · push Not at hlock
      exact Or.inr (fun m hm => hlock m (Option.some.inj (hw1.symm.trans hm)))
  · intro hlock
    exact hexact (Or.inr (fun m hm => hlock m (Option.some.inj (hw1.symm.trans hm))))

theorem kernelTickWake_lapses (g : k.Good cfg) (own : Ownership k ms) {rest : List TaskRef}
    (hx : k.timeoutList.lists.seq .expired = t :: rest) : Lapses ms k t (kernelTickWake cfg ms k) := by
  have hhost := k.timeoutList.lists.host_of_head hx
  have hne : (k.view t).cb.wait ≠ none := (g.shape t).timeoutHost (by simp [Kernel.view, hhost])
  obtain ⟨w, hw⟩ := Option.ne_none_iff_exists'.mp hne
  let k1 : Kernel := { k with timeoutList := { k.timeoutList with lists := k.timeoutList.lists.unlink t } }
  have g1 : k1.Sound cfg := g.popExpired hhost
  have own1 : Ownership k1 ms := own.update (fun _ h => h) (fun _ => rfl) (fun _ _ h => h)
  have hx1 : k1.timeoutList.lists.host t ≠ some .expired := by simp [k1]
  obtain ⟨k', he, -⟩ := kernelMakeTaskReady_spec g1 own1 w.deadlineResult (t := t) hne hx1
  have heq : kernelTickWake cfg ms k = k' := by
    simp only [kernelTickWake, listPopFront_cons _ _ hx]
    exact kernelTickExpire_eq g1 hw he
  have hlapses := kernelMakeTaskReady_lapses g1 own1 w.deadlineResult (t := t) hne hx1
  rw [he, ← heq] at hlapses
  exact ⟨hlapses.keeps, hlapses.self, hlapses.lifts, hlapses.locks⟩

end

end Hairtos

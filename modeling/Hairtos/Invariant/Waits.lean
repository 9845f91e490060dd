import Hairtos.Invariant.Action

namespace Hairtos

open Library

structure SameWaits (k k' : Kernel) : Prop where
  wait : ∀ u, (k'.tasks u).wait = (k.tasks u).wait
  magic : ∀ u, (k.tasks u).magic = true → (k'.tasks u).magic = true
  result : ∀ u, (k.tasks u).magic = true → (k'.tasks u).waitResult = (k.tasks u).waitResult
  lists : k'.timeoutList.lists = k.timeoutList.lists
  wakeTick : ∀ u, k.timeoutList.lists.host u ≠ none → k'.timeoutList.wakeTick u = k.timeoutList.wakeTick u
  lastTick : k'.timeoutList.lastTick = k.timeoutList.lastTick

structure WaitStarts (k : Kernel) (t : TaskRef) (w : Wait) (ticks : Option Tick) (k' : Kernel) : Prop where
  runs : k.Runs t
  finite : ∀ d, ticks = some d → d ≠ 0#32 ∧ d ≠ waitForever
  wait : (k'.tasks t).wait = some w
  others : ∀ u, u ≠ t → (k'.tasks u).wait = (k.tasks u).wait
  magic : ∀ u, (k.tasks u).magic = true → (k'.tasks u).magic = true
  result : ∀ u, u ≠ t → (k'.tasks u).waitResult = (k.tasks u).waitResult
  timeoutList : k'.timeoutList = k.enterTimeout t ticks

structure WaitEnds (k : Kernel) (t : TaskRef) (w : Wait) (result : Status) (k' : Kernel) : Prop where
  wait : (k.tasks t).wait = some w
  done : (k'.tasks t).wait = none
  waitResult : (k'.tasks t).waitResult = result
  others : ∀ u, u ≠ t → (k'.tasks u).wait = (k.tasks u).wait
  magic : ∀ u, (k.tasks u).magic = true → (k'.tasks u).magic = true
  result : ∀ u, u ≠ t → (k'.tasks u).waitResult = (k.tasks u).waitResult
  lists : k'.timeoutList.lists = k.timeoutList.lists.unlink t
  wakeTick : k'.timeoutList.wakeTick = k.timeoutList.wakeTick
  lastTick : k'.timeoutList.lastTick = k.timeoutList.lastTick

inductive WaitChange (k k' : Kernel) : Prop
  | keeps (same : SameWaits k k')
  | starts (t : TaskRef) (w : Wait) (ticks : Option Tick) (starts : WaitStarts k t w ticks k')
  | ends (t : TaskRef) (w : Wait) (result : Status) (ends : WaitEnds k t w result k')

structure Aside (k k' : Kernel) : Prop where
  control : SameControl k k'
  timeoutList : k'.timeoutList = k.timeoutList
  tasks : ∀ u, k'.tasks u = { k.tasks u with
    effectivePriority := (k'.tasks u).effectivePriority
    timeSliceRemaining := (k'.tasks u).timeSliceRemaining
    runtimeCounter := (k'.tasks u).runtimeCounter
    ownedMutexCount := (k'.tasks u).ownedMutexCount }

section

variable {cfg : Config} {k k' k'' : Kernel} {t : TaskRef} {w : Wait} {ticks : Option Tick} {result : Status}

theorem SameWaits.refl (k : Kernel) : SameWaits k k :=
  ⟨fun _ => rfl, fun _ h => h, fun _ _ => rfl, rfl, fun _ _ => rfl, rfl⟩

theorem Reprio.aside (h : Reprio k k') : Aside k k' := by
  refine ⟨h.control, h.timeoutList, fun u => ?_⟩
  rw [h.tasks u]

theorem Kernel.Bookkept.aside (h : k.Bookkept k') : Aside k k' := by
  refine ⟨h.control, by rw [h.frame], fun u => ?_⟩
  rw [h.tasks u]

theorem Aside.sameWaits (h : Aside k k') : SameWaits k k' := by
  refine ⟨fun u => ?_, fun u hm => ?_, fun u _ => ?_, by rw [h.timeoutList], fun _ _ => by rw [h.timeoutList],
    by rw [h.timeoutList]⟩
  · rw [h.tasks u]
    rfl
  · rwa [h.tasks u]
  · rw [h.tasks u]

theorem SameWaits.trans (h : SameWaits k k') (h' : SameWaits k' k'') : SameWaits k k'' where
  wait := fun u => (h'.wait u).trans (h.wait u)
  magic := fun u hm => h'.magic u (h.magic u hm)
  result := fun u hm => (h'.result u (h.magic u hm)).trans (h.result u hm)
  lists := h'.lists.trans h.lists
  wakeTick := fun u hu => (h'.wakeTick u (by rwa [h.lists])).trans (h.wakeTick u hu)
  lastTick := h'.lastTick.trans h.lastTick

theorem Woken.waitEnds (h : Woken cfg k t result k') (hw : (k.tasks t).wait = some w) : WaitEnds k t w result k' where
  wait := hw
  done := by
    rw [h.task]
    rfl
  waitResult := by
    rw [h.task]
    rfl
  others := fun u hu => by
    rw [h.others u hu]
    rfl
  magic := fun u hm => by
    by_cases hu : u = t
    · subst hu
      rw [h.task]
      exact hm
    · rwa [h.others u hu]
  result := fun u hu => by rw [h.others u hu]
  lists := h.timeouts
  wakeTick := h.wakeTick
  lastTick := h.lastTick

theorem Kernel.startWait_starts (cfg : Config) (w : Wait) (hruns : k.Runs t)
    (hd : ∀ d, ticks = some d → d ≠ 0#32 ∧ d ≠ waitForever) :
    WaitStarts k t w ticks (k.startWait cfg t w ticks) where
  runs := hruns
  finite := hd
  wait := by rw [Kernel.startWait_wait, if_pos rfl]
  others := fun u hu => by rw [Kernel.startWait_wait, if_neg hu]
  magic := fun u hm => by
    by_cases hu : u = t
    · subst hu
      simpa [Kernel.startWait, waitingBlock] using hm
    · simpa [Kernel.startWait, hu] using hm
  result := fun u hu => by simp [Kernel.startWait, hu]
  timeoutList := rfl

theorem WaitStarts.aside (h : WaitStarts k t w ticks k') (ha : Aside k' k'') : WaitStarts k t w ticks k'' where
  runs := h.runs
  finite := h.finite
  wait := (ha.sameWaits.wait t).trans h.wait
  others := fun u hu => (ha.sameWaits.wait u).trans (h.others u hu)
  magic := fun u hm => ha.sameWaits.magic u (h.magic u hm)
  result := fun u hu => by rw [ha.tasks u, h.result u hu]
  timeoutList := ha.timeoutList.trans h.timeoutList

theorem WaitEnds.aside (h : WaitEnds k t w result k') (ha : Aside k' k'') : WaitEnds k t w result k'' where
  wait := h.wait
  done := (ha.sameWaits.wait t).trans h.done
  waitResult := by rw [ha.tasks t, h.waitResult]
  others := fun u hu => (ha.sameWaits.wait u).trans (h.others u hu)
  magic := fun u hm => ha.sameWaits.magic u (h.magic u hm)
  result := fun u hu => by rw [ha.tasks u, h.result u hu]
  lists := ha.sameWaits.lists.trans h.lists
  wakeTick := by rw [ha.timeoutList, h.wakeTick]
  lastTick := ha.sameWaits.lastTick.trans h.lastTick

theorem Aside.waitEnds (ha : Aside k k') (h : WaitEnds k' t w result k'') : WaitEnds k t w result k'' where
  wait := (ha.sameWaits.wait t).symm.trans h.wait
  done := h.done
  waitResult := h.waitResult
  others := fun u hu => (h.others u hu).trans (ha.sameWaits.wait u)
  magic := fun u hm => h.magic u (ha.sameWaits.magic u hm)
  result := fun u hu => by rw [h.result u hu, ha.tasks u]
  lists := by rw [h.lists, ha.timeoutList]
  wakeTick := by rw [h.wakeTick, ha.timeoutList]
  lastTick := h.lastTick.trans ha.sameWaits.lastTick

theorem WaitChange.aside (h : WaitChange k k') (ha : Aside k' k'') : WaitChange k k'' := by
  cases h with
  | keeps same => exact .keeps (same.trans ha.sameWaits)
  | starts t w ticks h => exact .starts t w ticks (h.aside ha)
  | ends t w result h => exact .ends t w result (h.aside ha)

theorem SameWaits.updateOne (t : TaskRef) (hothers : ∀ u, u ≠ t → k'.tasks u = k.tasks u)
    (hwait : (k'.tasks t).wait = (k.tasks t).wait) (hmagic : (k.tasks t).magic = true → (k'.tasks t).magic = true)
    (hresult : (k.tasks t).magic = true → (k'.tasks t).waitResult = (k.tasks t).waitResult)
    (hlists : k'.timeoutList.lists = k.timeoutList.lists)
    (hwake : ∀ u, k.timeoutList.lists.host u ≠ none → k'.timeoutList.wakeTick u = k.timeoutList.wakeTick u)
    (hlast : k'.timeoutList.lastTick = k.timeoutList.lastTick) : SameWaits k k' := by
  refine ⟨fun u => ?_, fun u hm => ?_, fun u hm => ?_, hlists, hwake, hlast⟩
  all_goals by_cases hu : u = t
  · rw [hu, hwait]
  · rw [hothers u hu]
  · rw [hu] at hm ⊢
    exact hmagic hm
  · rwa [hothers u hu]
  · rw [hu] at hm ⊢
    exact hresult hm
  · rw [hothers u hu]

end

section

variable {cfg : Config} {s s' : System}

theorem not_waiting_of_peek {k : Kernel} (g : k.Sound cfg) {l : WaitListRef}
    (hpeek : waitListPeek k.waitLists l = none) {u : TaskRef} {w : Wait} (hw : (k.tasks u).wait = some w) :
    w.waitList ≠ some l := by
  intro hl
  have hhost : k.waitLists.lists.host u = (k.tasks u).wait.bind Wait.waitList := (g.shape u).waitHost_eq
  rw [hw] at hhost
  have hmem := (k.waitLists.lists.mem_seq l u).mpr (hhost.trans hl)
  rw [(waitListPeek_eq_none _ _).mp hpeek] at hmem
  simp at hmem

theorem Transfer.waitChange {k k' : Kernel} {l : WaitListRef} {w : Wait} {timeout : Tick} {blocked woken : Bool}
    (h : Transfer cfg k l w timeout blocked woken k') : WaitChange k k' := by
  cases h with
  | same => exact .keeps (SameWaits.refl _)
  | served u w' k' _ hwait hgranted => exact .ends u _ .ok (hgranted.woken.waitEnds hwait)
  | waits t hruns _ hfinite => exact .starts t _ _ (Kernel.startWait_starts cfg _ hruns (timeoutTicks_spec hfinite))

theorem TakeEffect.waitChange {x : SemaphoreRef} {timeout : Tick} {caller : Option TaskRef} {outcome : Outcome}
    (h : TakeEffect cfg s x timeout caller s' outcome) : WaitChange s.kernel s'.kernel := by
  cases h with
  | counted => exact .keeps (SameWaits.refl _)
  | waits t hruns _ _ hfinite =>
    exact .starts t _ _ ((Kernel.startWait_starts cfg _ hruns (timeoutTicks_spec hfinite)).aside
      (Kernel.calm_requestContextSwitch _).bookkept.aside)

theorem handed_waitEnds {k k' k'' k₀ : Kernel} {m : MutexRef} {t u : TaskRef}
    (hwait : (k₀.tasks u).wait = some (.mutexLock m))
    (hwoken : Woken cfg ((k₀.countOwned t (· - 1)).countOwned u (· + 1)) u .ok k) (hreprio : Reprio k k')
    (hcalm : k'.Calm k'') : WaitEnds k₀ u (.mutexLock m) .ok k'' := by
  have ha : Aside k₀ ((k₀.countOwned t (· - 1)).countOwned u (· + 1)) :=
    ((Kernel.bookkept_countOwned _ _ _).trans (Kernel.bookkept_countOwned _ _ _)).aside
  have hw := (ha.sameWaits.wait u).trans hwait
  exact ((ha.waitEnds (hwoken.waitEnds hw)).aside hreprio.aside).aside hcalm.bookkept.aside

theorem UnlockEffect.keeps_or_ends {m : MutexRef} {t : TaskRef} (h : UnlockEffect cfg s m t s') :
    SameWaits s.kernel s'.kernel ∧ s'.history = s.history ∨
      ∃ u, WaitEnds s.kernel u (.mutexLock m) .ok s'.kernel ∧ s'.history = s.history ++ [.acquired m u] := by
  cases h with
  | again => exact Or.inl ⟨SameWaits.refl _, rfl⟩
  | freed k k' _ hreprio hcalm =>
    refine Or.inl ⟨?_, rfl⟩
    exact (Kernel.bookkept_countOwned _ _ _).aside.sameWaits.trans
      (hreprio.aside.sameWaits.trans hcalm.bookkept.aside.sameWaits)
  | handed u k k' k'' _ hwait hwoken hreprio hcalm =>
    exact Or.inr ⟨u, handed_waitEnds hwait hwoken hreprio hcalm, rfl⟩

theorem UnlockEffect.waitChange {m : MutexRef} {t : TaskRef} (h : UnlockEffect cfg s m t s') :
    WaitChange s.kernel s'.kernel := by
  rcases h.keeps_or_ends with ⟨hsame, -⟩ | ⟨u, hends, -⟩
  · exact .keeps hsame
  · exact .ends u _ .ok hends

theorem Kernel.Good.create_sameWaits {k : Kernel} (g : k.Good cfg) {t : TaskRef} (hm : (k.tasks t).magic = false)
    (priority : Nat) : SameWaits k (k.create cfg t priority) := by
  have hinvalid := (g.shape t).of_invalid hm
  have hwait : (k.tasks t).wait = none := by
    by_contra hw
    have := (g.shape t).registered_of_wait hw
    simp [hinvalid.1] at this
  refine SameWaits.updateOne t ?_ ?_ ?_ ?_ rfl ?_ rfl
  · intro u hu
    simp [Kernel.create, hu]
  · simpa [Kernel.create, createdBlock, TaskControlBlock.wait] using hwait.symm
  · simp [hm]
  · simp [hm]
  · intro u hu
    have hut : u ≠ t := fun he => hu (by rw [he]; exact hinvalid.2.2.2.1)
    simp [Kernel.create, hut]

theorem Kernel.register_sameWaits (k : Kernel) (t : TaskRef) : SameWaits k (k.register cfg t) := by
  refine SameWaits.updateOne t ?_ ?_ ?_ ?_ rfl (fun _ _ => rfl) rfl
  · intro u hu
    simp [Kernel.register, hu]
  all_goals simp [Kernel.register, TaskControlBlock.wait]

theorem Kernel.suspend_sameWaits (k : Kernel) (t : TaskRef) : SameWaits k (k.suspend cfg t) := by
  refine SameWaits.updateOne t ?_ ?_ ?_ ?_ rfl (fun _ _ => rfl) rfl
  · intro u hu
    simp [Kernel.suspend, hu]
  all_goals simp [Kernel.suspend, suspendedBlock, TaskControlBlock.wait]

theorem Kernel.resume_sameWaits (k : Kernel) (t : TaskRef) : SameWaits k (k.resume cfg t) := by
  refine SameWaits.updateOne t ?_ ?_ ?_ ?_ rfl (fun _ _ => rfl) rfl
  · intro u hu
    simp [Kernel.resume, hu]
  all_goals simp [Kernel.resume, resumedBlock, TaskControlBlock.wait]

theorem Action.waitChange {owed : Bool} (h : Action cfg s owed s') (g : s.Good cfg) :
    WaitChange s.kernel s'.kernel := by
  cases h with
  | calm k timers service anchors hcalm => exact .keeps hcalm.bookkept.aside.sameWaits
  | createTask t priority hfresh => exact .keeps (g.kernel.create_sameWaits hfresh priority)
  | startTask t hstate hcreated => exact .keeps (s.kernel.register_sameWaits t)
  | delay t ticks anchors hruns hpositive hfinite =>
    refine .starts t .delay (some ticks) ((Kernel.startWait_starts cfg _ hruns ?_).aside
      (Kernel.calm_requestContextSwitch _).bookkept.aside)
    rintro _ ⟨⟩
    exact ⟨hpositive, hfinite⟩
  | suspend t k hstate hidle hcalm =>
    exact (WaitChange.keeps (s.kernel.suspend_sameWaits t)).aside hcalm.bookkept.aside
  | resume t k hstate hidle hcalm =>
    exact (WaitChange.keeps (s.kernel.resume_sameWaits t)).aside hcalm.bookkept.aside
  | give x s₁ woken status k owed hvalid heffect hcalm =>
    exact (heffect.transfer .delay noWait).waitChange.aside hcalm.bookkept.aside
  | take x timeout s₁ outcome hcaller hvalid heffect => exact heffect.waitChange
  | send q item timeout sender r k owed hcaller hvalid heffect hcalm =>
    exact heffect.transfer.waitChange.aside hcalm.bookkept.aside
  | receive q item timeout receiver r k owed hcaller hvalid heffect hcalm =>
    exact heffect.transfer.waitChange.aside hcalm.bookkept.aside
  | unlock m t s₁ hruns howner heffect => exact heffect.waitChange
  | expire t w k hdue hwait hwoken => exact .ends t w _ (hwoken.waitEnds hwait)
  | _ => exact .keeps (SameWaits.refl _)

theorem LockEffect.keeps_or_starts {m : MutexRef} {timeout : Tick} {outcome : Outcome}
    (h : LockEffect cfg s m timeout s' outcome) :
    SameWaits s.kernel s'.kernel ∨ (∃ t, WaitStarts s.kernel t (.mutexLock m) (timeoutTicks timeout) s'.kernel) ∨
      ∃ t k, WaitStarts s.kernel t (.mutexLock m) (timeoutTicks timeout) k ∧
        WaitEnds k t (.mutexLock m) .internal s'.kernel := by
  cases h with
  | acquired t => exact Or.inl (Kernel.bookkept_countOwned _ _ _).aside.sameWaits
  | again t => exact Or.inl (SameWaits.refl _)
  | waits t o k hruns _ _ hfinite hreprio =>
    exact Or.inr
      (Or.inl ⟨t, ((Kernel.startWait_starts cfg _ hruns (timeoutTicks_spec hfinite)).aside hreprio.aside).aside
      (Kernel.calm_requestContextSwitch _).bookkept.aside⟩)
  | refused t o k k' hruns _ hfinite hreprio hwoken =>
    have hstarts : WaitStarts s.kernel t (.mutexLock m) (timeoutTicks timeout) k :=
      (Kernel.startWait_starts cfg _ hruns (timeoutTicks_spec hfinite)).aside hreprio.aside
    exact Or.inr (Or.inr ⟨t, k, hstarts, (hwoken.waitEnds hstarts.wait).aside
      (Kernel.calm_requestContextSwitch _).bookkept.aside⟩)

theorem Kernel.quiet_iff (k : Kernel) : k.Quiet ↔ ∀ u, k.timeoutList.lists.host u ≠ some .expired := by
  simp only [Kernel.Quiet, List.eq_nil_iff_forall_not_mem, k.timeoutList.lists.mem_seq, ne_eq]

theorem fresh_of_quiet (h : s.kernel.Quiet) (l : WaitListRef) : Fresh s l :=
  fun u _ => s.kernel.quiet_iff.mp h u

theorem WaitStarts.quiet {k k' : Kernel} {t : TaskRef} {w : Wait} {ticks : Option Tick}
    (h : WaitStarts k t w ticks k') (g : k.Good cfg) (hq : k.Quiet) : k'.Quiet := by
  have hnone := (g.running_shape h.runs.running).2.2.2.1
  rw [Kernel.quiet_iff] at hq ⊢
  intro u
  rw [h.timeoutList]
  by_cases hu : u = t
  · rw [hu]
    exact k.enterTimeout_not_expired hnone ticks
  · rw [(k.enterTimeout_spec g.timeouts hnone ticks h.finite).2.2.2.1 u hu]
    exact hq u

theorem WaitEnds.quiet {k k' : Kernel} {t : TaskRef} {w : Wait} {result : Status} (h : WaitEnds k t w result k')
    (hq : k.Quiet) : k'.Quiet := by
  rw [Kernel.quiet_iff] at hq ⊢
  intro u
  rw [h.lists]
  by_cases hu : u = t
  · simp [hu]
  · simpa [hu] using hq u

theorem WaitChange.quiet {k k' : Kernel} (h : WaitChange k k') (g : k.Good cfg) (hq : k.Quiet) : k'.Quiet := by
  cases h with
  | keeps same =>
    unfold Kernel.Quiet
    rw [same.lists]
    exact hq
  | starts t w ticks h => exact h.quiet g hq
  | ends t w result h => exact h.quiet hq

theorem LockEffect.quiet {m : MutexRef} {timeout : Tick} {outcome : Outcome}
    (h : LockEffect cfg s m timeout s' outcome) (g : s.kernel.Good cfg) (hq : s.kernel.Quiet) : s'.kernel.Quiet := by
  rcases h.keeps_or_starts with hsame | ⟨t, hstarts⟩ | ⟨t, k, hstarts, hends⟩
  · exact (WaitChange.keeps hsame).quiet g hq
  · exact hstarts.quiet g hq
  · exact hends.quiet (hstarts.quiet g hq)

theorem Trace.quiet {owed : Bool} (h : Trace cfg s owed s') (g : s.Good cfg) (hq : s.kernel.Quiet) :
    s'.kernel.Quiet := by
  induction h with
  | nil => exact hq
  | single ha => exact (ha.action.waitChange g).quiet g.kernel hq
  | cons ha _ ih => exact ih ha.good ((ha.action.waitChange g).quiet g.kernel hq)

structure SameRun (k k' : Kernel) : Prop where
  state : k'.state = k.state
  currentTask : k'.currentTask = k.currentTask
  tick : k'.tick = k.tick
  registered : ∀ u, (k.view u).registered = true → (k'.view u).registered = true

theorem SameControl.sameRun {k k' : Kernel} (h : SameControl k k') : SameRun k k' :=
  ⟨h.state, h.currentTask, h.tick, fun u hu => (h.registered u).trans hu⟩

theorem SameRun.refl (k : Kernel) : SameRun k k := ⟨rfl, rfl, rfl, fun _ hu => hu⟩

theorem SameRun.trans {k k' k'' : Kernel} (h : SameRun k k') (h' : SameRun k' k'') : SameRun k k'' :=
  ⟨h'.state.trans h.state, h'.currentTask.trans h.currentTask, h'.tick.trans h.tick,
    fun u hu => h'.registered u (h.registered u hu)⟩

theorem Kernel.Calm.sameRun {k k' : Kernel} (h : k.Calm k') : SameRun k k' := h.bookkept.control.sameRun

theorem Kernel.startWait_sameRun (k : Kernel) (t : TaskRef) (w : Wait) (ticks : Option Tick) :
    SameRun k (k.startWait cfg t w ticks) := ⟨rfl, rfl, rfl, fun _ hu => hu⟩

theorem Kernel.register_sameRun (k : Kernel) (cfg : Config) (t : TaskRef) : SameRun k (k.register cfg t) := by
  refine ⟨rfl, rfl, rfl, fun u hu => ?_⟩
  simp only [Kernel.view, Kernel.register, listNodeIsLinked, listPushBack] at hu ⊢
  split
  · by_cases hut : u = t
    · simp [hut]
    · simpa [hut] using hu
  · exact hu

theorem Transfer.sameRun {k k' : Kernel} {l : WaitListRef} {w : Wait} {timeout : Tick} {blocked woken : Bool}
    (h : Transfer cfg k l w timeout blocked woken k') : SameRun k k' := by
  cases h with
  | same => exact .refl _
  | served u w' k' _ _ hgranted => exact hgranted.woken.control.sameRun
  | waits t => exact k.startWait_sameRun t _ _

theorem Action.sameRun {owed : Bool} (h : Action cfg s owed s') : SameRun s.kernel s'.kernel := by
  cases h with
  | calm k timers service anchors hcalm => exact hcalm.sameRun
  | delay t ticks anchors =>
    exact (s.kernel.startWait_sameRun t .delay _).trans (Kernel.calm_requestContextSwitch _).sameRun
  | suspend t k _ _ hcalm =>
    have hsuspend : SameRun s.kernel (s.kernel.suspend cfg t) := ⟨rfl, rfl, rfl, fun _ hu => hu⟩
    exact hsuspend.trans hcalm.sameRun
  | resume t k _ _ hcalm =>
    have hresume : SameRun s.kernel (s.kernel.resume cfg t) := ⟨rfl, rfl, rfl, fun _ hu => hu⟩
    exact hresume.trans hcalm.sameRun
  | give x s₁ woken status k owed _ heffect hcalm =>
    exact (heffect.transfer .delay noWait).sameRun.trans hcalm.sameRun
  | take x timeout s₁ outcome _ _ heffect =>
    cases heffect with
    | counted => exact .refl _
    | waits t => exact (s.kernel.startWait_sameRun t _ _).trans (Kernel.calm_requestContextSwitch _).sameRun
  | send q item timeout sender r k owed _ _ heffect hcalm => exact heffect.transfer.sameRun.trans hcalm.sameRun
  | receive q item timeout receiver r k owed _ _ heffect hcalm => exact heffect.transfer.sameRun.trans hcalm.sameRun
  | unlock m t s₁ _ _ heffect =>
    cases heffect with
    | again => exact .refl _
    | freed k k' _ hreprio hcalm =>
      exact (Kernel.bookkept_countOwned _ _ _).control.sameRun.trans (hreprio.control.sameRun.trans hcalm.sameRun)
    | handed u k k' k'' _ _ hwoken hreprio hcalm =>
      have hcounts := ((s.kernel.bookkept_countOwned t (· - 1)).trans
        (Kernel.bookkept_countOwned _ u (· + 1))).control
      exact hcounts.sameRun.trans (hwoken.control.sameRun.trans (hreprio.control.sameRun.trans hcalm.sameRun))
  | expire t w k _ _ hwoken => exact hwoken.control.sameRun
  | startTask t => exact s.kernel.register_sameRun cfg t
  | _ => exact ⟨rfl, rfl, rfl, fun _ hu => hu⟩

theorem LockEffect.sameRun {m : MutexRef} {timeout : Tick} {outcome : Outcome}
    (h : LockEffect cfg s m timeout s' outcome) : SameRun s.kernel s'.kernel := by
  cases h with
  | acquired t => exact (Kernel.bookkept_countOwned _ _ _).control.sameRun
  | again t => exact .refl _
  | waits t o k _ _ _ _ hreprio =>
    exact ((s.kernel.startWait_sameRun t _ _).trans hreprio.control.sameRun).trans
      (Kernel.calm_requestContextSwitch _).sameRun
  | refused t o k k' _ _ _ hreprio hwoken =>
    exact (((s.kernel.startWait_sameRun t _ _).trans hreprio.control.sameRun).trans hwoken.control.sameRun).trans
      (Kernel.calm_requestContextSwitch _).sameRun

theorem Trace.sameRun {owed : Bool} (h : Trace cfg s owed s') : SameRun s.kernel s'.kernel := by
  induction h with
  | nil => exact .refl _
  | single ha => exact ha.action.sameRun
  | cons ha _ ih => exact ha.action.sameRun.trans ih

end

end Hairtos

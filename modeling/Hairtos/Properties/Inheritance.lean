import Hairtos.Invariant.Run

namespace Hairtos

open Library

variable {k k' : Kernel} {ms : Mutexes} {t u : TaskRef} {timeout : Tick}

def lockFails (cfg : Config) (s : System) : Op → Bool
  | .task (.mutexLock m timeout) =>
    let r := call cfg s false (.mutexLock m timeout)
    match r.outcome, s.kernel.currentTask with
    | .returned status, _ => canCall s && status = .internal
    | .blocked, some t =>
      canCall s && (r.system.kernel.tasks t).waitKind = .none && (r.system.kernel.tasks t).waitResult = .internal
    | .blocked, none => false
  | _ => false

def locksSucceed (cfg : Config) (s : System) : List Op → Bool
  | [] => true
  | op :: ops => !lockFails cfg s op && locksSucceed cfg (step cfg s op) ops

def inheritedPriorities (s : System) (t : TaskRef) : Set Nat :=
  { p | ∃ m u, (s.mutexes.blocks m).owner = some t ∧ u ∈ s.kernel.waitLists.lists.seq (.mutex m) ∧
    p = (s.kernel.tasks u).effectivePriority }

section

variable {cfg : Config} {s s' : System}

theorem Kernel.Sound.waitHost_mutex (g : k.Sound cfg) (u : TaskRef) (m : MutexRef) :
    k.waitLists.lists.host u = some (.mutex m) ↔ (k.tasks u).wait = some (.mutexLock m) := by
  constructor
  · exact (g.shape u).wait_of_waitHost
  · intro hw
    have hhost : k.waitLists.lists.host u = (k.tasks u).wait.bind Wait.waitList := (g.shape u).waitHost_eq
    rw [hhost, hw]
    rfl

theorem Balanced.same (hb : Balanced k ms t) (g : k.Sound cfg)
    (g' : k'.Sound cfg) (hbase : (k'.tasks t).basePriority = (k.tasks t).basePriority)
    (heff : ∀ u, (k.tasks u).magic = true ∨ u = t →
      (k'.tasks u).effectivePriority = (k.tasks u).effectivePriority)
    (hlock : ∀ u m, (k'.tasks u).wait = some (.mutexLock m) ↔ (k.tasks u).wait = some (.mutexLock m)) :
    Balanced k' ms t := by
  have hhost : ∀ u m, k'.waitLists.lists.host u = some (.mutex m) ↔ k.waitLists.lists.host u = some (.mutex m) := by
    intro u m
    rw [g.waitHost_mutex, g'.waitHost_mutex, hlock u m]
  refine hb.congr hbase (heff t (Or.inr rfl)) (fun u => by simp only [hhost]) ?_
  intro u m _ hu
  have hw := (g.waitHost_mutex u m).mp hu
  have hw' := (hlock u m).mpr hw
  have hm : (k.tasks u).magic = true := (g.shape u).magic_of_wait (by simp [Kernel.view, hw])
  have hm' : (k'.tasks u).magic = true := (g'.shape u).magic_of_wait (by simp [Kernel.view, hw'])
  have ha : k.waitLists.priority u = (k.tasks u).effectivePriority := ((g.shape u).agree hm).2
  have ha' : k'.waitLists.priority u = (k'.tasks u).effectivePriority := ((g'.shape u).agree hm').2
  rw [ha, ha', heff u (Or.inl hm)]

theorem SameWaits.balanced (h : SameWaits k k') (g : k.Sound cfg) (g' : k'.Sound cfg)
    (hbase : ∀ u, (k'.tasks u).basePriority = (k.tasks u).basePriority)
    (heff : ∀ u, (k'.tasks u).effectivePriority = (k.tasks u).effectivePriority)
    (hb : Balanced k ms t) : Balanced k' ms t :=
  hb.same g g' (hbase t) (fun u _ => heff u) (fun u m => by rw [h.wait u])

theorem Balanced.startOther {w : Wait} {ticks : Option Tick}
    (hb : Balanced k ms t) (g : k.Sound cfg) (hruns : k.Runs u) (g' : k'.Sound cfg)
    (htasks : k'.tasks = (k.startWait cfg u w ticks).tasks) (hw : ∀ m, w ≠ .mutexLock m) : Balanced k' ms t := by
  have hnone := (g.running_shape hruns.running).2.1
  refine hb.same g g' ?_ ?_ ?_
  · by_cases ht : t = u
    · simp [htasks, Kernel.startWait, ht, waitingBlock]
    · simp [htasks, Kernel.startWait, ht]
  · intro v _
    by_cases hv : v = u
    · simp [htasks, Kernel.startWait, hv, waitingBlock]
    · simp [htasks, Kernel.startWait, hv]
  · intro v m
    rw [htasks, Kernel.startWait_wait]
    split
    · next hv => simp [hv, hnone, hw m]
    · exact Iff.rfl

theorem Granted.balanced {k₁ : Kernel} {w : Wait} (h : Granted cfg k u k₁)
    (htasks : k'.tasks = k₁.tasks) (hb : Balanced k ms t) (g : k.Sound cfg) (g' : k'.Sound cfg)
    (hwait : (k.tasks u).wait = some w) (hw : ∀ m, w ≠ .mutexLock m) : Balanced k' ms t := by
  refine hb.same g g' ?_ (fun v _ => by rw [htasks, h.effective v]) ?_
  · rw [htasks]
    by_cases ht : t = u
    · subst ht
      rw [h.woken.task]
      rfl
    · rw [h.woken.others t ht]
  · intro v m
    rw [htasks]
    by_cases hv : v = u
    · subst hv
      simp [h.woken.wait_none, hwait, hw m]
    · rw [h.woken.wait_of_ne hv]

theorem Kernel.Charged.balanced (h : k.Charged k') (g : k.Good cfg)
    (hb : Balanced k ms t) : Balanced k' ms t := by
  refine h.bookkept.aside.sameWaits.balanced g.toSound (g.bookkept h.bookkept).toSound ?_ ?_ hb
  all_goals
    intro u
    rw [h.bookkept.tasks u]

theorem Balanced.create {priority : Nat} (hb : Balanced k ms u)
    (g : k.Good cfg) (g' : (k.create cfg t priority).Good cfg) (own : Ownership k ms)
    (hm : (k.tasks t).magic = false) : Balanced (k.create cfg t priority) ms u := by
  have hnot := own.not_owner (Or.inl ((g.shape t).of_invalid hm).1)
  by_cases hu : u = t
  · subst hu
    refine ⟨Or.inl (by simp [Kernel.create, createdBlock]), ?_⟩
    rintro p (rfl | ⟨m, v, ho, -⟩)
    · simp [Kernel.create, createdBlock]
    · exact absurd ((own.owner m u).mpr ho) (hnot m)
  · have hwait : (k.tasks t).wait = none := by
      by_contra hw
      have hmagic : (k.tasks t).magic = true := (g.shape t).magic_of_wait hw
      simp [hmagic] at hm
    refine hb.same g.toSound g'.toSound (by simp [Kernel.create, hu]) ?_ ?_
    · intro v hv
      have hvt : v ≠ t := by
        rintro rfl
        rcases hv with hv | hv
        · simp [hm] at hv
        · exact hu hv.symm
      simp [Kernel.create, hvt]
    · intro v m
      by_cases hv : v = t
      · have hcreated : ((k.create cfg t priority).tasks t).wait = none := by
          simp [Kernel.create, createdBlock, TaskControlBlock.wait]
        rw [hv, hwait, hcreated]
      · simp [Kernel.create, hv]

theorem Balanced.updateOne (hb : Balanced k ms u) (g : k.Sound cfg)
    (g' : k'.Sound cfg) (hothers : ∀ v, v ≠ t → k'.tasks v = k.tasks v)
    (hbase : (k'.tasks t).basePriority = (k.tasks t).basePriority)
    (heff : (k'.tasks t).effectivePriority = (k.tasks t).effectivePriority)
    (hwait : (k'.tasks t).wait = (k.tasks t).wait) : Balanced k' ms u := by
  refine hb.same g g' ?_ ?_ ?_
  · by_cases hu : u = t
    · rw [hu, hbase]
    · rw [hothers u hu]
  · intro v _
    by_cases hv : v = t
    · rw [hv, heff]
    · rw [hothers v hv]
  · intro v m
    by_cases hv : v = t
    · rw [hv, hwait]
    · rw [hothers v hv]

theorem Balanced.owners {ms' : Mutexes} (hb : Balanced k ms t)
    (h : ∀ m, ms'.owned.host m = ms.owned.host m) : Balanced k ms' t :=
  hb.congr rfl rfl (fun u => by simp only [h]) (fun _ _ _ _ => rfl)

theorem Acts.balanced {owed : Bool} (h : Acts cfg s owed s') (g : s.Good cfg)
    (hb : ∀ t, Balanced s.kernel s.mutexes t) (t : TaskRef) : Balanced s'.kernel s'.mutexes t := by
  obtain ⟨haction, g'⟩ := h
  have gk := g.kernel.toSound
  have gk' := g'.kernel.toSound
  cases haction with
  | calm k timers service anchors hcalm => exact hcalm.charged.balanced g.kernel (hb t)
  | write b content => exact hb t
  | createTask u priority hfresh => exact (hb t).create g.kernel g'.kernel g.owners hfresh
  | startTask u hstate hcreated =>
    refine (hb t).updateOne (t := u) gk gk' ?_ ?_ ?_ ?_
    · intro v hv
      simp [Kernel.register, hv]
    all_goals simp [Kernel.register, TaskControlBlock.wait]
  | createQueue => exact hb t
  | createSemaphore => exact hb t
  | createMutex m recursive hfresh => exact (hb t).owners (fun _ => rfl)
  | delay u ticks anchors hruns hpositive hfinite => exact (hb t).startOther gk hruns gk' rfl (by simp)
  | suspend u k hstate hidle hcalm =>
    refine (hb t).updateOne (t := u) gk gk' ?_ ?_ ?_ ?_
    · intro v hv
      simp [hcalm.tasks, Kernel.suspend, hv]
    all_goals simp [hcalm.tasks, Kernel.suspend, suspendedBlock, TaskControlBlock.wait]
  | resume u k hstate hidle hcalm =>
    refine (hb t).updateOne (t := u) gk gk' ?_ ?_ ?_ ?_
    · intro v hv
      simp [hcalm.tasks, Kernel.resume, hv]
    all_goals simp [hcalm.tasks, Kernel.resume, resumedBlock, TaskControlBlock.wait]
  | give x s₁ woken status k owed hvalid heffect hcalm =>
    cases heffect with
    | served u k₁ _ hwait hgranted => exact hgranted.balanced hcalm.tasks (hb t) gk gk' hwait (by simp)
    | counted => exact hcalm.charged.balanced g.kernel (hb t)
    | full => exact hcalm.charged.balanced g.kernel (hb t)
  | take x timeout s₁ outcome hcaller hvalid heffect =>
    cases heffect with
    | counted => exact hb t
    | waits u hruns => exact (hb t).startOther gk hruns gk' rfl (by simp)
  | send q item timeout sender r k owed hcaller hvalid heffect hcalm =>
    cases heffect with
    | served u b k₁ _ hwait hgranted => exact hgranted.balanced hcalm.tasks (hb t) gk gk' hwait (by simp)
    | stored => exact hcalm.charged.balanced g.kernel (hb t)
    | waits u hruns => exact (hb t).startOther gk hruns gk' hcalm.tasks (by simp)
    | full => exact hcalm.charged.balanced g.kernel (hb t)
  | receive q item timeout receiver r k owed hcaller hvalid heffect hcalm =>
    cases heffect with
    | taken => exact hcalm.charged.balanced g.kernel (hb t)
    | refilled u b k₁ _ _ hwait hgranted => exact hgranted.balanced hcalm.tasks (hb t) gk gk' hwait (by simp)
    | direct u b k₁ _ _ hwait hgranted => exact hgranted.balanced hcalm.tasks (hb t) gk gk' hwait (by simp)
    | waits u hruns => exact (hb t).startOther gk hruns gk' hcalm.tasks (by simp)
    | empty => exact hcalm.charged.balanced g.kernel (hb t)
  | unlock m u s₁ hruns howner heffect =>
    cases heffect with
    | again => exact (hb t).owners (fun _ => rfl)
    | freed k k' _ _ _ _ hbal => exact hbal hb t
    | handed v k k' k'' _ _ _ _ _ _ hbal => exact hbal hb t
  | expire u w k hdue hwait hwoken hbal => exact hbal hb t

theorem Trace.balanced {owed : Bool} (h : Trace cfg s owed s') (g : s.Good cfg)
    (hb : ∀ t, Balanced s.kernel s.mutexes t) : ∀ t, Balanced s'.kernel s'.mutexes t := by
  induction h with
  | nil => exact hb
  | single ha => exact ha.balanced g hb
  | cons ha _ ih => exact ih ha.good (ha.balanced g hb)

theorem Balanced.attach {m : MutexRef} (hb : Balanced s.kernel s.mutexes t) (g : s.Good cfg)
    (ho : (s.mutexes.blocks m).owner = none) :
    Balanced (s.kernel.countOwned u (· + 1)) (s.mutexes.attach m u) t := by
  have hbook := s.kernel.bookkept_countOwned u (· + 1)
  refine hb.congr ?_ ?_ ?_ (fun _ _ _ _ => rfl)
  · rw [hbook.tasks t]
  · rw [hbook.tasks t]
  · intro v
    have hwaits : ∀ n, s.kernel.waitLists.lists.host v = some (.mutex n) → n ≠ m := by
      rintro n hn rfl
      exact g.owners.no_waiter ho v ((g.kernel.waitHost_mutex v n).mp hn)
    rw [Mutexes.attach_host (g.owners.host_none ho)]
    refine exists_congr fun n => and_congr_left fun hn => ?_
    rw [Function.update_of_ne (hwaits n hn)]

theorem LockEffect.balanced {m : MutexRef} {outcome : Outcome}
    (h : LockEffect cfg s m timeout s' outcome) (g : s.Good cfg)
    (hok : ∀ t, s.kernel.Runs t → outcome = .blocked → (s'.kernel.tasks t).wait = none →
      (s'.kernel.tasks t).waitResult ≠ .internal)
    (hb : ∀ t, Balanced s.kernel s.mutexes t) (t : TaskRef) : Balanced s'.kernel s'.mutexes t := by
  cases h with
  | acquired u hruns hm ho => exact (hb t).attach g ho
  | again u hruns ho => exact (hb t).owners (fun _ => rfl)
  | waits u o k hruns ho hne hfinite hreprio hbal =>
    exact hbal hb t
  | refused u o k k' hruns ho hfinite hreprio hwoken =>
    refine absurd ?_ (hok u hruns rfl ?_)
    · exact congrArg TaskControlBlock.waitResult hwoken.task
    · exact hwoken.wait_none

theorem lockFails_of_refused {m : Option MutexRef} (hc : canCall s = true)
    (hruns : s.kernel.Runs t) (g' : (call cfg s false (.mutexLock m timeout)).system.kernel.Good cfg)
    (hblocked : (call cfg s false (.mutexLock m timeout)).outcome = .blocked)
    (hwait : ((call cfg s false (.mutexLock m timeout)).system.kernel.tasks t).wait = none)
    (hresult : ((call cfg s false (.mutexLock m timeout)).system.kernel.tasks t).waitResult = .internal) :
    lockFails cfg s (.task (.mutexLock m timeout)) = true := by
  have hrecords := (g'.shape t).records
  have hkind : ((call cfg s false (.mutexLock m timeout)).system.kernel.tasks t).waitKind = .none := by
    have := hrecords.kind
    simpa [Kernel.view, hwait] using this
  simp only [lockFails, hblocked, hruns.current, hc, hkind, hresult]
  rfl

theorem Dispatched.balanced (h : Dispatched k k') (g : k.Sound cfg)
    (g' : k'.Sound cfg) (hb : Balanced k ms t) : Balanced k' ms t := by
  refine h.sameWaits.balanced g g' ?_ ?_ hb
  all_goals
    intro u
    rw [h.tasks u]

theorem System.ticked_balanced (g : s.Good cfg) {timeoutList : TimeoutList TaskRef}
    (g' : (s.ticked timeoutList).Good cfg) (hb : Balanced s.kernel s.mutexes t) :
    Balanced (s.ticked timeoutList).kernel (s.ticked timeoutList).mutexes t :=
  hb.same g.kernel.toSound g'.kernel.toSound rfl (fun _ _ => rfl) (fun _ _ => Iff.rfl)

theorem lock_balanced (h : s.Steady cfg) {m : Option MutexRef} (hc : canCall s = true)
    (hok : lockFails cfg s (.task (.mutexLock m timeout)) = false) (hb : ∀ t, Balanced s.kernel s.mutexes t)
    (t : TaskRef) :
    Balanced (call cfg s false (.mutexLock m timeout)).system.kernel
      (call cfg s false (.mutexLock m timeout)).system.mutexes t := by
  rcases mutexLock_effect h.good.kernel h.good.owners false (called_of_canCall h.good hc) m timeout with
    ⟨status, -, -, he⟩ | ⟨n, -, -, heffect, hkernel, -⟩
  · simpa [call, outcomeResult, he] using hb t
  · refine heffect.balanced h.good ?_ hb t
    intro u hruns hblocked hwait hresult
    rw [lockFails_of_refused hc hruns hkernel hblocked hwait hresult] at hok
    simp at hok

theorem Stepped.balanced {op : Op} (h : Stepped cfg s op s') (g : s.Good cfg)
    (hlock : ∀ m timeout, op ≠ .task (.mutexLock m timeout)) (hb : ∀ t, Balanced s.kernel s.mutexes t)
    (t : TaskRef) :
    Balanced s'.kernel s'.mutexes t := by
  cases h with
  | refused op => exact hb t
  | acts op htrace => exact htrace.balanced g hb t
  | lock m timeout => exact absurd rfl (hlock (some m) timeout)
  | isr c honoured s₁ k htrace hcalm =>
    exact hcalm.charged.balanced (htrace.good g).kernel (htrace.balanced g hb t)
  | tick _ s' heffect =>
    obtain ⟨current, switchRequired, hticked, hgood, hexpiry, htimers, -⟩ := heffect
    obtain ⟨owed, htrace⟩ := hexpiry.trace
    have hb₁ := fun u => System.ticked_balanced g hgood (hb u)
    have hb₂ := htrace.balanced hgood hb₁
    have g₂ := htrace.good hgood
    exact (kernelTickEnd_charged _ _ _ _).balanced (htimers.good g₂).kernel (htimers.balanced g₂ hb₂ t)
  | pendsv current next _ _ _ hgood =>
    exact (s.kernel.dispatched_rotate_switch current next).balanced g.kernel.toSound hgood.toSound (hb t)
  | start next _ _ hgood =>
    exact (s.kernel.dispatched_start next).balanced g.kernel.toSound hgood.toSound (hb t)

theorem step_balanced (h : s.Steady cfg) {op : Op} (hok : lockFails cfg s op = false)
    (hb : ∀ t, Balanced s.kernel s.mutexes t) (t : TaskRef) :
    Balanced (step cfg s op).kernel (step cfg s op).mutexes t := by
  by_cases hlock : ∃ m timeout, op = .task (.mutexLock m timeout)
  · obtain ⟨m, timeout, rfl⟩ := hlock
    simp only [step]
    split
    · next hc => exact lock_balanced h hc hok hb t
    · exact hb t
  · push Not at hlock
    exact (h.stepped op).balanced h.good hlock hb t

theorem exec_balanced (h : s.Steady cfg) {ops : List Op} (hok : locksSucceed cfg s ops = true)
    (hb : ∀ t, Balanced s.kernel s.mutexes t) (t : TaskRef) :
    Balanced (exec cfg s ops).kernel (exec cfg s ops).mutexes t := by
  induction ops generalizing s with
  | nil => exact hb t
  | cons op ops ih =>
    simp only [locksSucceed, Bool.and_eq_true, Bool.not_eq_true'] at hok
    exact ih (h.step op) hok.2 (step_balanced h hok.1 hb)

theorem boot_balanced (cfg : Config) (t : TaskRef) : Balanced (boot cfg).kernel (boot cfg).mutexes t := by
  have hown := boot_ownership cfg
  have hnone : ∀ m, (boot cfg).mutexes.owned.host m = none := by
    intro m
    simp [boot_eq, System.reset]
  refine ⟨Or.inl ?_, ?_⟩
  · by_cases ht : t = .idle <;>
      simp [boot_eq, Kernel.register, Kernel.bare, Kernel.create, Kernel.reset, createdBlock, ht]
  · rintro p (rfl | ⟨m, u, ho, -⟩)
    · exact ((boot_good cfg).shape t).effective
    · simp [hnone m] at ho

theorem donors_eq_inherited (h : s.Good cfg) (t : TaskRef) :
    donors s.kernel s.mutexes t = insert (s.kernel.tasks t).basePriority (inheritedPriorities s t) := by
  ext p
  refine or_congr_right (exists_congr fun m => exists_congr fun u => ?_)
  rw [s.kernel.waitLists.lists.mem_seq, h.owners.owner m t]
  refine and_congr_right fun _ => and_congr_right fun hu => ?_
  have hw := (h.kernel.waitHost_mutex u m).mp hu
  have hm : (s.kernel.tasks u).magic = true := (h.kernel.shape u).magic_of_wait (by simp [Kernel.view, hw])
  have ha : s.kernel.waitLists.priority u = (s.kernel.tasks u).effectivePriority := ((h.kernel.shape u).agree hm).2
  rw [ha]

theorem isLeast_of_balanced (h : s.Good cfg) (hb : Balanced s.kernel s.mutexes t) :
    IsLeast (insert (s.kernel.tasks t).basePriority (inheritedPriorities s t))
      (s.kernel.tasks t).effectivePriority := by
  rw [← donors_eq_inherited h t]
  exact hb

theorem effectivePriority_le_of_waitsFor (h : s.Good cfg) (hb : ∀ t, Balanced s.kernel s.mutexes t)
    (hchain : Relation.ReflTransGen (fun a b => waitsFor s.kernel s.mutexes a = some b) u t) :
    (s.kernel.tasks t).effectivePriority ≤ (s.kernel.tasks u).effectivePriority := by
  induction hchain with
  | refl => exact le_rfl
  | @tail v o _ hnext ih =>
    obtain ⟨m, hw, ho⟩ := waitsFor_eq_some hnext
    have hmem : v ∈ s.kernel.waitLists.lists.seq (.mutex m) := by
      rw [s.kernel.waitLists.lists.mem_seq, h.kernel.waitHost_mutex, hw]
    exact ((isLeast_of_balanced h (hb o)).2 (Or.inr ⟨m, v, ho, hmem, rfl⟩)).trans ih

def System.Inherited (s : System) : Prop :=
  ∀ t ∈ s.kernel.allTasks.seq (), IsLeast (insert (s.kernel.tasks t).basePriority (inheritedPriorities s t))
    (s.kernel.tasks t).effectivePriority

theorem System.Inherited.balanced (h : s.Inherited) (g : s.Good cfg) (t : TaskRef) :
    Balanced s.kernel s.mutexes t := by
  by_cases hreg : (s.kernel.view t).registered = true
  · rw [Balanced, donors_eq_inherited g t]
    exact h t (registered_mem s.kernel hreg)
  · -- A task that is not registered owns nothing and has its base priority.
    have hreg := Bool.eq_false_of_not_eq_true hreg
    have heff : (s.kernel.tasks t).effectivePriority = (s.kernel.tasks t).basePriority := (g.kernel.shape t).fresh hreg
    refine ⟨Or.inl heff, ?_⟩
    rintro p (rfl | ⟨m, u, ho, -, -⟩)
    · exact heff.le
    · exact absurd ((g.owners.owner m t).mpr ho) (g.owners.not_owner (Or.inl hreg) m)

theorem inherited_of_locksSucceed {ops : List Op} (hok : locksSucceed cfg (boot cfg) ops = true) :
    (exec cfg (boot cfg) ops).Inherited := fun t _ =>
  isLeast_of_balanced ((boot_steady cfg).exec ops).good (exec_balanced (boot_steady cfg) hok (boot_balanced cfg) t)

/-- The effective priority of a task is the least of its base priority and the effective priorities
of the tasks that wait for its mutexes. So whoever waits for it, through any number of owners,
passes on its priority. -/
theorem effectivePriority_isLeast (cfg : Config) (ops : List Op) (hok : locksSucceed cfg (boot cfg) ops = true)
    (t : TaskRef) (hreg : t ∈ (exec cfg (boot cfg) ops).kernel.allTasks.seq ()) :
    let s := exec cfg (boot cfg) ops
    IsLeast (insert (s.kernel.tasks t).basePriority (inheritedPriorities s t)) (s.kernel.tasks t).effectivePriority ∧
      s.kernel.scheduler.priority t = (s.kernel.tasks t).effectivePriority ∧
      s.kernel.waitLists.priority t = (s.kernel.tasks t).effectivePriority ∧
      ∀ u, Relation.ReflTransGen (fun a b => waitsFor s.kernel s.mutexes a = some b) u t →
        (s.kernel.tasks t).effectivePriority ≤ (s.kernel.tasks u).effectivePriority := by
  have hs := (boot_steady cfg).exec ops
  have hb := exec_balanced (boot_steady cfg) hok (boot_balanced cfg)
  have hregistered : ((exec cfg (boot cfg) ops).kernel.view t).registered = true := by
    rw [ListFamily.mem_seq] at hreg
    simp [Kernel.view, listNodeIsLinked, hreg]
  have hshape := hs.good.kernel.shape t
  have hagree := hshape.agree (hshape.magic_of_registered hregistered)
  exact ⟨isLeast_of_balanced hs.good (hb t), hagree.1, hagree.2,
    fun u hchain => effectivePriority_le_of_waitsFor hs.good hb hchain⟩

end

def chainRun : List Op :=
  launch 0 1 ++ launch 1 2 ++ launch 2 3 ++
    [.task (.mutexCreate (some 0)), .task (.mutexCreate (some 1)), .start,
      .task (.taskDelay 2#32), .pendsv, .task (.taskDelay 1#32), .pendsv, .task (.mutexLock (some 0) noWait), .tick,
      .pendsv, .task (.mutexLock (some 1) noWait), .task (.mutexLock (some 0) waitForever), .pendsv, .tick, .pendsv,
      .task (.mutexLock (some 1) 5#32)]

theorem effectivePriority_isLeast_chainRun :
    let s := exec .standard (boot .standard) chainRun
    (s.kernel.tasks (.app 2)).basePriority = 3 ∧ (s.kernel.tasks (.app 2)).effectivePriority = 1 ∧
      IsLeast (insert (s.kernel.tasks (.app 2)).basePriority (inheritedPriorities s (.app 2)))
        (s.kernel.tasks (.app 2)).effectivePriority :=
  ⟨by decide +kernel, by decide +kernel,
    (effectivePriority_isLeast .standard chainRun (by decide +kernel) (.app 2) (by decide +kernel)).1⟩

end Hairtos

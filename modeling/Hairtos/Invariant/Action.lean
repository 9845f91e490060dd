import Hairtos.Invariant.Exchange
import Hairtos.Invariant.Suspend
import Hairtos.Invariant.Register

/-!
Every call of the kernel but `hr_mutex_lock` is a short sequence of actions. The flag of an action tells that it
made a task ready that should preempt and left the request for the switch to its caller.
-/

namespace Hairtos

open Library

variable {q : QueueRef} {owed : Bool} {k : Kernel} {ms : Mutexes}

def System.QueuesValid (s : System) : Prop := ∀ q, (s.queues q).magic = true → queueIsValid s q = true

def System.SemaphoresValid (s : System) : Prop := ∀ x, (s.semaphores x).magic = true → semaphoreIsValid s x = true

structure System.Good (cfg : Config) (s : System) : Prop where
  kernel : s.kernel.Good cfg
  owners : Ownership s.kernel s.mutexes
  queues : s.QueuesValid
  semaphores : s.SemaphoresValid

inductive Action (cfg : Config) (s : System) : Bool → System → Prop
  | calm (k : Kernel) (timers : TimerSystem) (service : ServicePhase) (anchors : Nat → Tick)
      (calm : s.kernel.Calm k) :
      Action cfg s false { s with kernel := k, timers := timers, service := service, anchors := anchors }
  | write (b : BufferRef) (content : Nat → UInt8) :
      Action cfg s false { s with memory := Function.update s.memory b content }
  | createTask (t : TaskRef) (priority : Nat) (fresh : (s.kernel.tasks t).magic = false) :
      Action cfg s false { s with kernel := s.kernel.create cfg t priority }
  | startTask (t : TaskRef) (state : s.kernel.state = .initialized) (created : (s.kernel.tasks t).state = .created) :
      Action cfg s false { s with kernel := s.kernel.register cfg t }
  | createQueue (q : QueueRef) (storage : Nat → UInt8) (itemSize capacity : Nat)
      (fresh : (s.queues q).magic = false) (size : 0 < itemSize) (room : 0 < capacity)
      (fits : itemSize * capacity ≤ sizeMax) :
      Action cfg s false (s.updateQueue q (fun _ =>
        { magic := true, storage := storage, itemSize := itemSize, capacity := capacity }))
  | createSemaphore (x : SemaphoreRef) (count maxCount : Nat) (fresh : (s.semaphores x).magic = false)
      (room : 0 < maxCount) (fits : count ≤ maxCount) :
      Action cfg s false ((s.updateSemaphore x (fun _ =>
        { magic := true, count := count, maxCount := maxCount })).record [.created x count])
  | createMutex (m : MutexRef) (recursive : Bool) (fresh : (s.mutexes.blocks m).magic = false) :
      Action cfg s false
        { s with mutexes := s.mutexes.update m (fun _ => { magic := true, recursive := recursive }) }
  | delay (t : TaskRef) (ticks : Tick) (anchors : Nat → Tick) (runs : s.kernel.Runs t) (positive : ticks ≠ 0#32)
      (finite : ticks ≠ waitForever) :
      Action cfg s false
        { s with kernel := requestContextSwitch (s.kernel.startWait cfg t .delay (some ticks)), anchors := anchors }
  | suspend (t : TaskRef) (k : Kernel)
      (state : (s.kernel.tasks t).state.isReady = true ∨ (s.kernel.tasks t).state = .blocked) (idle : t ≠ .idle)
      (calm : (s.kernel.suspend cfg t).Calm k) : Action cfg s false { s with kernel := k }
  | resume (t : TaskRef) (k : Kernel) (state : (s.kernel.tasks t).state = .suspended) (idle : t ≠ .idle)
      (calm : (s.kernel.resume cfg t).Calm k)
      (pends : cfg.preemption = true → (s.kernel.tasks t).suspendedResumeState = .ready →
        kernelOutranksCurrent (s.kernel.resume cfg t) t = true → k.pendSvPending = true) :
      Action cfg s false { s with kernel := k }
  | give (x : SemaphoreRef) (s₁ : System) (woken : Bool) (status : Status) (k : Kernel) (owed : Bool)
      (valid : semaphoreIsValid s x = true) (effect : GiveEffect cfg s x s₁ woken status) (calm : s₁.kernel.Calm k)
      (pends : woken = true → owed = true ∨ k.pendSvPending = true) : Action cfg s owed { s₁ with kernel := k }
  | take (x : SemaphoreRef) (timeout : Tick) (s₁ : System) (outcome : Outcome)
      (caller : ∀ t, s.kernel.currentTask = some t → s.kernel.Runs t) (valid : semaphoreIsValid s x = true)
      (effect : TakeEffect cfg s x timeout s.kernel.currentTask s₁ outcome) : Action cfg s false s₁
  | send (q : QueueRef) (item : BufferRef) (timeout : Tick) (sender : Option TaskRef) (r : QueueResult) (k : Kernel)
      (owed : Bool) (caller : ∀ t, sender = some t → s.kernel.Runs t) (valid : queueIsValid s q = true)
      (effect : SendEffect cfg s q item timeout sender r)
      (calm : r.system.kernel.Calm k) (pends : r.woken = true → owed = true ∨ k.pendSvPending = true) :
      Action cfg s owed { r.system with kernel := k }
  | receive (q : QueueRef) (item : BufferRef) (timeout : Tick) (receiver : Option TaskRef) (r : QueueResult)
      (k : Kernel) (owed : Bool) (caller : ∀ t, receiver = some t → s.kernel.Runs t)
        (valid : queueIsValid s q = true)
      (effect : ReceiveEffect cfg s q item timeout receiver r)
      (calm : r.system.kernel.Calm k) (pends : r.woken = true → owed = true ∨ k.pendSvPending = true) :
      Action cfg s owed { r.system with kernel := k }
  | unlock (m : MutexRef) (t : TaskRef) (s₁ : System) (runs : s.kernel.Runs t)
      (owner : (s.mutexes.blocks m).owner = some t) (effect : UnlockEffect cfg s m t s₁) : Action cfg s false s₁
  | expire (t : TaskRef) (w : Wait) (k : Kernel) (due : s.kernel.timeoutList.lists.host t = some .expired)
      (wait : (s.kernel.tasks t).wait = some w) (woken : Woken cfg s.kernel t w.deadlineResult k)
      (balanced : (∀ u, Balanced s.kernel s.mutexes u) → ∀ u, Balanced k s.mutexes u) :
      Action cfg s true { s with kernel := k }

structure Acts (cfg : Config) (s : System) (owed : Bool) (s' : System) : Prop where
  action : Action cfg s owed s'
  good : s'.Good cfg

inductive Trace (cfg : Config) : System → Bool → System → Prop
  | nil (s : System) : Trace cfg s false s
  | single {s s' : System} {owed : Bool} (h : Acts cfg s owed s') : Trace cfg s owed s'
  | cons {s s' s'' : System} {owed owed' : Bool} (h : Acts cfg s owed s') (t : Trace cfg s' owed' s'') :
      Trace cfg s (owed || owed') s''

section

variable {cfg : Config} {s s' : System}

theorem System.QueuesValid.congr (h : s.QueuesValid) (he : s'.queues = s.queues) : s'.QueuesValid := by
  intro q hq
  rw [he] at hq
  have := h q hq
  simp only [queueIsValid, he] at this ⊢
  exact this

theorem System.SemaphoresValid.congr (h : s.SemaphoresValid) (he : s'.semaphores = s.semaphores) :
    s'.SemaphoresValid := by
  intro x hx
  rw [he] at hx
  have := h x hx
  simp only [semaphoreIsValid, he] at this ⊢
  exact this

theorem System.QueuesValid.update (h : s.QueuesValid) {f : QueueControlBlock → QueueControlBlock}
    (hf : (f (s.queues q)).magic = true → queueIsValid (s.updateQueue q f) q = true) :
    (s.updateQueue q f).QueuesValid := by
  intro p hp
  by_cases hpq : p = q
  · subst hpq
    exact hf (by simpa [System.updateQueue] using hp)
  · have := h p (by simpa [System.updateQueue, hpq] using hp)
    simpa [queueIsValid, System.updateQueue, hpq] using this

theorem System.SemaphoresValid.update (h : s.SemaphoresValid) {x : SemaphoreRef} {cb : SemaphoreControlBlock}
    (he : s'.semaphores = Function.update s.semaphores x cb)
    (hcb : cb.magic = true → 0 < cb.maxCount ∧ cb.count ≤ cb.maxCount) : s'.SemaphoresValid := by
  intro y hy
  rw [he] at hy
  simp only [semaphoreIsValid, he]
  by_cases hyx : y = x
  · subst hyx
    rw [Function.update_self] at hy
    simp [hy, hcb hy]
  · rw [Function.update_of_ne hyx] at hy ⊢
    exact h y hy

theorem System.SemaphoresValid.bounds (h : s.SemaphoresValid) {x : SemaphoreRef} (hx : (s.semaphores x).magic = true) :
    0 < (s.semaphores x).maxCount ∧ (s.semaphores x).count ≤ (s.semaphores x).maxCount := by
  have := h x hx
  simp only [semaphoreIsValid, Bool.and_eq_true, decide_eq_true_eq] at this
  exact ⟨this.1.2, this.2⟩

theorem queueEnqueue_valid (h : s.QueuesValid) (item : BufferRef)
    (hspace : (s.queues q).count < (s.queues q).capacity) : (queueEnqueue s q item).QueuesValid := by
  apply h.update
  intro hm
  have hv := h q hm
  simp only [queueIsValid, Bool.and_eq_true, decide_eq_true_eq] at hv
  obtain ⟨⟨⟨⟨⟨_, h1⟩, h2⟩, h3⟩, h4⟩, h5⟩ := hv
  simpa [queueIsValid, System.updateQueue, hm, h1, h2, h4, Nat.mod_lt _ h2] using Nat.succ_le_of_lt hspace

theorem queueDequeue_valid (h : s.QueuesValid) (item : BufferRef) :
    (queueDequeue s q item).QueuesValid := by
  have hu : (s.updateQueue q (fun queue =>
      { queue with head := (queue.head + 1) % queue.capacity, count := queue.count - 1 })).QueuesValid := by
    apply h.update
    intro hm
    have hv := h q hm
    simp only [queueIsValid, Bool.and_eq_true, decide_eq_true_eq] at hv
    obtain ⟨⟨⟨⟨⟨_, h1⟩, h2⟩, h3⟩, h4⟩, h5⟩ := hv
    simpa [queueIsValid, System.updateQueue, hm, h1, h2, h5, Nat.mod_lt _ h2] using h3.trans (Nat.le_succ _)
  exact hu.congr rfl

theorem SendEffect.valid {item : BufferRef} {timeout : Tick} {sender : Option TaskRef}
    {r : QueueResult} (h : SendEffect cfg s q item timeout sender r) (hq : s.QueuesValid) :
    r.system.QueuesValid := by
  cases h with
  | served u b k => exact hq.congr rfl
  | stored _ hspace => exact (queueEnqueue_valid hq item hspace).congr rfl
  | waits t => exact hq.congr rfl
  | full => exact hq

theorem ReceiveEffect.valid {item : BufferRef} {timeout : Tick} {receiver : Option TaskRef}
    {r : QueueResult} (h : ReceiveEffect cfg s q item timeout receiver r) (hq : s.QueuesValid)
    (hle : (s.queues q).count ≤ (s.queues q).capacity) : r.system.QueuesValid := by
  have hd := queueDequeue_valid hq (q := q) item
  cases h with
  | taken => exact hd.congr rfl
  | refilled u b k hcount =>
    have hd' : ((queueDequeue s q item).record [.delivered q receiver (queueFront (s.queues q))]).QueuesValid :=
      hd.congr rfl
    refine (queueEnqueue_valid hd' b ?_).congr rfl
    simp [queueDequeue, System.record, System.updateQueue]
    omega
  | direct u b k => exact hq.congr rfl
  | waits t => exact hq.congr rfl
  | empty => exact hq

theorem count_le_of_valid (h : queueIsValid s q = true) :
    (s.queues q).count ≤ (s.queues q).capacity := by
  simp only [queueIsValid, Bool.and_eq_true, decide_eq_true_eq] at h
  exact h.1.1.2

theorem Action.queuesValid (h : Action cfg s owed s') (hq : s.QueuesValid) : s'.QueuesValid := by
  cases h with
  | createQueue q storage itemSize capacity hfresh hsize hroom =>
    apply hq.update
    intro _
    simp [queueIsValid, System.updateQueue, hsize, hroom]
  | give x s₁ woken status k owed hvalid heffect =>
    cases heffect <;> exact hq.congr rfl
  | take x timeout s₁ outcome hcaller hvalid heffect =>
    cases heffect <;> exact hq.congr rfl
  | send q item timeout sender r k owed hcaller hvalid heffect => exact (heffect.valid hq).congr rfl
  | receive q item timeout receiver r k owed hcaller hvalid heffect =>
    exact (heffect.valid hq (count_le_of_valid hvalid)).congr rfl
  | unlock m t s₁ hruns howner heffect => cases heffect <;> exact hq.congr rfl
  | _ => exact hq.congr rfl

theorem Action.semaphoresValid (h : Action cfg s owed s') (hx : s.SemaphoresValid) :
    s'.SemaphoresValid := by
  cases h with
  | createSemaphore x count maxCount hfresh hroom hfits =>
    exact hx.update rfl (fun _ => ⟨hroom, hfits⟩)
  | give x s₁ woken status k owed hvalid heffect =>
    cases heffect with
    | counted hnone hspace =>
      exact hx.update rfl (fun hm => ⟨(hx.bounds hm).1, hspace⟩)
    | served => exact hx.congr rfl
    | full => exact hx.congr rfl
  | take x timeout s₁ outcome hcaller hvalid heffect =>
    cases heffect with
    | counted havail =>
      exact hx.update rfl (fun hm => ⟨(hx.bounds hm).1, (Nat.sub_le _ _).trans (hx.bounds hm).2⟩)
    | waits => exact hx.congr rfl
  | send q item timeout sender r k owed hcaller hvalid heffect => cases heffect <;> exact hx.congr rfl
  | receive q item timeout receiver r k owed hcaller hvalid heffect => cases heffect <;> exact hx.congr rfl
  | unlock m t s₁ hruns howner heffect => cases heffect <;> exact hx.congr rfl
  | _ => exact hx.congr rfl

theorem Ownership.updateOne {k' : Kernel} (own : Ownership k ms) (t : TaskRef)
    (hreg : ∀ u, (k.view u).registered = true → (k'.view u).registered = true)
    (hothers : ∀ u, u ≠ t → k'.tasks u = k.tasks u)
    (hcount : (k'.tasks t).ownedMutexCount = (k.tasks t).ownedMutexCount)
    (hwait : ∀ m, (k'.tasks t).wait = some (.mutexLock m) → (k.tasks t).wait = some (.mutexLock m)) :
    Ownership k' ms := by
  refine own.update hreg ?_ ?_
  · intro u
    by_cases hu : u = t
    · rw [hu]
      exact hcount
    · rw [hothers u hu]
  · intro u m hw
    by_cases hu : u = t
    · rw [hu] at hw ⊢
      exact hwait m hw
    · rwa [hothers u hu] at hw

theorem Ownership.create (own : Ownership k ms) (g : k.Good cfg) {t : TaskRef}
    (hm : (k.tasks t).magic = false) (priority : Nat) : Ownership (k.create cfg t priority) ms := by
  have hnil : ms.owned.seq t = [] := by
    apply List.eq_nil_iff_forall_not_mem.mpr
    intro m hmem
    exact own.not_owner (Or.inl ((g.shape t).of_invalid hm).1) m ((own.owner m t).mpr (ms.owned.host_of_mem hmem))
  refine own.updateOne t (fun _ h => h) (fun u hu => ?_) ?_ ?_
  · simp [Kernel.create, hu]
  · simp [Kernel.create, createdBlock, own.count t, hnil]
  · simp [Kernel.create, createdBlock, TaskControlBlock.wait]

theorem Ownership.register (own : Ownership k ms) (t : TaskRef) :
    Ownership (k.register cfg t) ms := by
  refine own.updateOne t ?_ (fun u hu => ?_) ?_ ?_
  · intro u hu
    by_cases hh : k.allTasks.host t = none
    · by_cases hut : u = t
      · simp [Kernel.view, Kernel.register, listPushBack_ok _ _ _ hh, listNodeIsLinked, hut]
      · simpa [Kernel.view, Kernel.register, listPushBack_ok _ _ _ hh, listNodeIsLinked, hut] using hu
    · simpa [Kernel.view, Kernel.register, listPushBack, hh] using hu
  · simp [Kernel.register, hu]
  · simp [Kernel.register]
  · simp [Kernel.register, TaskControlBlock.wait]

theorem Ownership.startWait (own : Ownership k ms) (t : TaskRef) {w : Wait}
    (hw : ∀ m, w ≠ .mutexLock m) (ticks : Option Tick) : Ownership (k.startWait cfg t w ticks) ms := by
  refine own.updateOne t (fun _ h => h) (fun u hu => ?_) ?_ ?_
  · simp [Kernel.startWait, hu]
  · simp [Kernel.startWait, waitingBlock]
  · intro m hm
    rw [Kernel.startWait_wait, if_pos rfl] at hm
    exact absurd (Option.some.inj hm) (hw m)

theorem Ownership.suspend (own : Ownership k ms) (t : TaskRef) :
    Ownership (k.suspend cfg t) ms := by
  refine own.updateOne t (fun _ h => h) (fun u hu => ?_) ?_ ?_
  · simp [Kernel.suspend, hu]
  · simp [Kernel.suspend, suspendedBlock]
  · simp [Kernel.suspend, suspendedBlock, TaskControlBlock.wait]

theorem Ownership.resume (own : Ownership k ms) (t : TaskRef) :
    Ownership (k.resume cfg t) ms := by
  refine own.updateOne t (fun _ h => h) (fun u hu => ?_) ?_ ?_
  · simp [Kernel.resume, hu]
  · simp [Kernel.resume, resumedBlock]
  · simp [Kernel.resume, resumedBlock, TaskControlBlock.wait]

theorem System.Good.acts (h : s.Good cfg) (ha : Action cfg s owed s') (hk : s'.kernel.Good cfg)
    (ho : Ownership s'.kernel s'.mutexes) : Acts cfg s owed s' :=
  ⟨ha, hk, ho, ha.queuesValid h.queues, ha.semaphoresValid h.semaphores⟩

end

end Hairtos

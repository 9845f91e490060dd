import Hairtos.Invariant.WaitOrder
import Hairtos.Invariant.Signal
import Hairtos.Invariant.TickStep

namespace Hairtos

open Library

variable {k : Kernel} {ms : Mutexes} {t : TaskRef} {l : WaitListRef} {timeout : Tick} {woken : Bool} {m : MutexRef}

def recomputed (cfg : Config) (ms : Mutexes) : Nat → Kernel → TaskRef → List TaskRef
  | 0, _, _ => []
  | fuel + 1, k, task =>
    let r := kernelSetTaskEffectivePriority cfg k task (mutexRequiredPriority k ms task)
    let changed := if (r.1.tasks task).effectivePriority = (k.tasks task).effectivePriority then [] else [task]
    if r.2 ≠ .ok then changed
    else
      match mutexNextOwner r.1 ms task with
      | none => changed
      | some owner => changed ++ recomputed cfg ms fuel r.1 owner

def recomputedOwner (cfg : Config) (ms : Mutexes) (k : Kernel) (m : MutexRef) : List TaskRef :=
  match (ms.blocks m).owner with
  | none => []
  | some owner => recomputed cfg ms (recomputeDepth cfg) k owner

def expiryArrivals (cfg : Config) (ms : Mutexes) (k : Kernel) (task : TaskRef) : List TaskRef :=
  match (k.tasks task).wait with
  | some (.mutexLock m) => recomputedOwner cfg ms (k.detachWait task).1 m
  | _ => []

def wakeArrivals (cfg : Config) (ms : Mutexes) : Nat → Kernel → List TaskRef
  | 0, _ => []
  | fuel + 1, k =>
    match listPopFront k.timeoutList.lists .expired with
    | (_, none) => []
    | (lists, some task) =>
      expiryArrivals cfg ms { k with timeoutList := { k.timeoutList with lists := lists } } task ++
        wakeArrivals cfg ms fuel (kernelTickWake cfg ms k)

def enters (cfg : Config) (s : System) (t : TaskRef) (ticks : Option Tick) : Wait → List TaskRef
  | .delay => []
  | .mutexLock m => t :: recomputedOwner cfg s.mutexes (s.kernel.startWait cfg t (.mutexLock m) ticks) m
  | _ => [t]

def requestArrivals (cfg : Config) (s : System) (request : Option (Wait × Option Tick)) : List TaskRef :=
  match request, s.kernel.currentTask with
  | some (w, ticks), some t => enters cfg s t ticks w
  | _, _ => []

/-- The tasks that enter a wait list or are given another priority while they wait, in the order in which this
happens. A priority that changes while the task is in no list does not count. -/
def Op.arrivals (cfg : Config) (s : System) : Op → List TaskRef
  | .tick =>
    if s.kernel.state ≠ .running then []
    else
      let k := kernelTickAdvance s.kernel
      wakeArrivals cfg s.mutexes (listSize k.timeoutList.lists .expired) k
  | op => if op.blocks cfg s then requestArrivals cfg s (op.request s) else []

inductive Moved (w : WaitLists WaitListRef TaskRef) : List TaskRef → WaitLists WaitListRef TaskRef → Prop
  | kept {w' : WaitLists WaitListRef TaskRef} (agrees : w.Agrees w') : Moved w [] w'
  | served {w' : WaitLists WaitListRef TaskRef} (l : WaitListRef) (u : TaskRef) (first : waitListPeek w l = some u)
      (agrees : WaitLists.Agrees { w with lists := w.lists.unlink u } w') : Moved w [] w'
  | entered (t : TaskRef) (l : WaitListRef) (free : w.lists.host t = none) : Moved w [t] (waitListInsert w l t).1

section

variable {cfg : Config} {s s' : System}

theorem Moved.shifts {w w' : WaitLists WaitListRef TaskRef} {ts : List TaskRef} (h : Moved w ts w') :
    w.Shifts ts w' := by
  cases h with
  | kept hagrees => exact .kept hagrees
  | served l u _ hagrees => exact .trans (.left w u) (.kept hagrees)
  | entered t l hfree => exact .entered w l t hfree

theorem recomputed_shifts (fuel : Nat) (h : k.Linked cfg) (hi : Inherits cfg k ms)
    (o : TaskRef) (hm : (k.tasks o).magic = true) (hb : (k.tasks o).basePriority < cfg.idlePriority) :
    k.waitLists.Shifts (recomputed cfg ms fuel k o) (mutexRecomputeTaskPriority cfg ms fuel k o).1.waitLists := by
  induction fuel generalizing k o with
  | zero => exact .kept (.refl _)
  | succ fuel ih =>
    obtain ⟨k1, he, h1, hr1, htasks, hlists⟩ := kernelSetTaskEffectivePriority_spec h o _ hm
      ((mutexRequiredPriority_le h hi o).trans_lt hb)
    -- The first round moves the task exactly if its priority changes.
    have hfirst : k.waitLists.Shifts
        (if (k1.tasks o).effectivePriority = (k.tasks o).effectivePriority then [] else [o]) k1.waitLists := by
      rw [hlists, htasks, Function.update_self]
      by_cases hsame : (k.tasks o).effectivePriority = mutexRequiredPriority k ms o
      · rw [if_pos hsame, if_pos hsame.symm]
        exact .kept (.refl _)
      · rw [if_neg hsame, if_neg (Ne.symm hsame)]
        exact .changed _ _ _
    cases hn : mutexNextOwner k1 ms o with
    | none => simpa [recomputed, mutexRecomputeTaskPriority, he, hn] using hfirst
    | some owner =>
      obtain ⟨m, ho⟩ := owner_of_mutexNextOwner hn
      have hi1 := hi.reprio hr1
      obtain ⟨hm1, hb1⟩ := hi1.owners m owner ho
      simpa [recomputed, mutexRecomputeTaskPriority, he, hn] using hfirst.trans (ih h1 hi1 owner hm1 hb1)

theorem Kernel.Good.enterWaitList_moved (g : k.Good cfg) (hruns : k.Runs t) {w : Wait}
    (hl : w.waitList = some l) (ticks : Option Tick) :
    Moved k.waitLists [t] (k.startWait cfg t w ticks).waitLists := by
  obtain ⟨-, -, hfree, -⟩ := g.running_shape hruns.running
  simp only [Kernel.startWait, Kernel.enterWaitList, hl]
  exact .entered t l hfree

theorem Granted.moved {k' : Kernel} {u : TaskRef} (h : Granted cfg k u k')
    (hfirst : waitListPeek k.waitLists l = some u) : Moved k.waitLists [] k'.waitLists := by
  rw [h.waitLists]
  exact .served l u hfirst (.refl _)

theorem TakeEffect.moved {x : SemaphoreRef} {caller : Option TaskRef} {outcome : Outcome}
    (h : TakeEffect cfg s x timeout caller s' outcome) (g : s.kernel.Good cfg) :
    Moved s.kernel.waitLists (if outcome = .blocked then s.kernel.currentTask.toList else []) s'.kernel.waitLists := by
  cases h with
  | counted => exact .kept (.refl _)
  | waits t hruns =>
    rw [if_pos rfl, hruns.current]
    exact g.enterWaitList_moved hruns (w := .semaphoreTake x) rfl (timeoutTicks timeout)

theorem Transfer.moved {k' : Kernel} {l' : WaitListRef} {w : Wait} {blocked : Bool}
    (h : Transfer cfg k l w timeout blocked woken k') (g : k.Good cfg) (hl : w.waitList = some l') :
    Moved k.waitLists (if blocked then k.currentTask.toList else []) k'.waitLists := by
  cases h with
  | same => exact .kept (.refl _)
  | served u w' k' hfirst _ hgranted => exact hgranted.moved hfirst
  | waits t hruns =>
    rw [if_pos rfl, hruns.current]
    exact g.enterWaitList_moved hruns hl _

theorem UnlockEffect.moved (h : UnlockEffect cfg s m t s') :
    Moved s.kernel.waitLists [] s'.kernel.waitLists := by
  cases h with
  | again => exact .kept (.refl _)
  | freed k k' _ _ _ _ _ hagrees => exact .kept hagrees
  | handed u k k' k'' hfirst _ _ _ _ _ _ hagrees => exact .served _ u hfirst hagrees

theorem Kernel.Good.create_agrees (g : k.Good cfg) (hm : (k.tasks t).magic = false)
    (priority : Nat) : k.waitLists.Agrees (k.create cfg t priority).waitLists := by
  refine ⟨rfl, fun u hu => Function.update_of_ne ?_ _ _⟩
  rintro rfl
  exact hu ((g.shape u).of_invalid hm).2.2.1

theorem Bringup.agrees (h : Relation.ReflTransGen (Bringup cfg) s s') (g : s.Good cfg) :
    s.kernel.waitLists.Agrees s'.kernel.waitLists := by
  induction h with
  | refl => exact .refl _
  | tail hpath hlast ih =>
    cases hlast with
    | create hfresh => exact ih.trans ((bringup_good hpath g).kernel.create_agrees hfresh _)
    | _ => exact ih

theorem requestArrivals_one (cfg : Config) (s : System) {w : Wait} (ticks : Option Tick)
    (h : ∀ t, enters cfg s t ticks w = [t]) :
    requestArrivals cfg s (some (w, ticks)) = s.kernel.currentTask.toList := by
  unfold requestArrivals
  cases s.kernel.currentTask with
  | none => rfl
  | some t => exact h t

theorem Moved.finish {w : WaitLists WaitListRef TaskRef} {ts : List TaskRef} {r : QueueResult}
    (h : Moved w (if r.blocked then ts else []) r.system.kernel.waitLists) :
    Moved w (if r.finish.2 = .blocked then ts else []) r.finish.1.kernel.waitLists := by
  have hlists : r.finish.1.kernel.waitLists = r.system.kernel.waitLists := by
    rw [QueueResult.finish, (Kernel.calm_ite r.system.kernel (r.blocked || r.woken)).frame]
  have houtcome : (if r.finish.2 = .blocked then ts else []) = if r.blocked then ts else [] := by
    unfold QueueResult.finish
    cases r.blocked <;> rfl
  rwa [hlists, houtcome]

theorem CallEffect.moved {inIsr : Bool} {c : Call} {r : CallResult} (he : CallEffect cfg s inIsr c r) (h : s.Good cfg)
    (hlock : inIsr = false → ∀ m timeout, c ≠ .mutexLock m timeout) :
    Moved s.kernel.waitLists (if r.outcome = .blocked then requestArrivals cfg s (c.request s) else [])
      r.system.kernel.waitLists := by
  have hdelay : ∀ ticks, requestArrivals cfg s (some (.delay, ticks)) = [] := by
    intro ticks
    unfold requestArrivals
    cases s.kernel.currentTask <;> rfl
  cases he with
  | createTask n p hfresh => exact .kept (h.kernel.create_agrees hfresh _)
  | yield _ _ t k _ _ hcalm =>
    rw [hcalm.frame]
    exact .kept (.refl _)
  | delay t ticks =>
    rw [if_pos rfl, Call.request, hdelay]
    exact .kept (.refl _)
  | delayUntil t a period ticks =>
    rw [if_pos rfl, Call.request, hdelay]
    exact .kept (.refl _)
  | suspend t => split <;> exact .kept (.refl _)
  | resume t k _ _ _ hcalm =>
    rw [hcalm.frame]
    exact .kept (.refl _)
  | send q b timeout r _ _ heffect =>
    rw [Call.request, requestArrivals_one cfg s _ (fun _ => rfl)]
    exact (heffect.transfer.moved h.kernel rfl).finish
  | receive q b timeout r _ _ heffect =>
    rw [Call.request, requestArrivals_one cfg s _ (fun _ => rfl)]
    exact (heffect.transfer.moved h.kernel rfl).finish
  | sendFromIsr q b r _ _ heffect =>
    have hmoved := heffect.transfer.moved h.kernel rfl
    rwa [heffect.transfer.not_blocked] at hmoved
  | receiveFromIsr q b r _ _ heffect =>
    have hmoved := heffect.transfer.moved h.kernel rfl
    rwa [heffect.transfer.not_blocked] at hmoved
  | take n timeout s₁ outcome _ _ heffect =>
    rw [Call.request, requestArrivals_one cfg s _ (fun _ => rfl)]
    exact heffect.moved h.kernel
  | give n s₁ woken status _ _ heffect =>
    have hmoved := (heffect.transfer (.semaphoreTake (.app n)) noWait).moved h.kernel rfl
    cases woken <;> exact hmoved
  | giveFromIsr n s₁ woken status _ _ heffect =>
    exact (heffect.transfer (.semaphoreTake (.app n)) noWait).moved h.kernel rfl
  | lock m timeout s₁ outcome hisr => exact absurd rfl (hlock hisr _ _)
  | unlock m t s₁ _ _ _ heffect => exact heffect.moved
  | createTimer t name period autoReload callback s₁ status hpath => exact .kept (Bringup.agrees hpath h)
  | _ => exact .kept (.refl _)

theorem CallEffect.isr_outcome {c : Call} {r : CallResult} (he : CallEffect cfg s true c r) :
    r.outcome ≠ .blocked := by
  cases he <;> simp_all

theorem recomputedOwner_eq {o : TaskRef} (ho : (ms.blocks m).owner = some o) (k : Kernel) :
    recomputedOwner cfg ms k m = recomputed cfg ms (recomputeDepth cfg) k o := by
  simp [recomputedOwner, ho]

theorem mutexLockWait_shifts (h : s.Good cfg) {o : TaskRef} (hruns : s.kernel.Runs t)
    (ho : (s.mutexes.blocks m).owner = some o) (hne : o ≠ t) (h0 : timeout ≠ noWait) :
    s.kernel.waitLists.Shifts (requestArrivals cfg s (some (.mutexLock m, timeoutTicks timeout)))
        (mutexLockWait cfg s m t timeout).1.kernel.waitLists ∧
      (mutexLockWait cfg s m t timeout).2 = .blocked := by
  obtain ⟨g1, own1, -, -, hcases⟩ := mutexLockWait_cases h.kernel h.owners hruns ho hne h0
  have hi : Inherits cfg (s.kernel.startWait cfg t (.mutexLock m) (timeoutTicks timeout)) s.mutexes :=
    own1.inherits g1.toSound rfl (fun _ _ h => h)
  obtain ⟨hm, hb⟩ := hi.owners m o ho
  have henter := (h.kernel.enterWaitList_moved hruns (w := .mutexLock m) rfl (timeoutTicks timeout)).shifts
  have hchain := henter.trans (recomputed_shifts (recomputeDepth cfg) g1.linked hi o hm hb)
  simp only [requestArrivals, hruns.current, enters, recomputedOwner_eq ho]
  rcases hcases with ⟨-, -, heq⟩ | ⟨-, k3, heq, -, -, hlists, -⟩
  · rw [heq]
    exact ⟨hchain, rfl⟩
  · rw [heq]
    refine ⟨?_, rfl⟩
    have hleft := hchain.trans (.left _ t)
    rw [List.append_nil, ← hlists] at hleft
    exact hleft

theorem mutexLock_of_blocked {inIsr : Bool} (hcaller : Called s inIsr)
    (hb : (mutexLock cfg s inIsr (some m) timeout).2 = .blocked) :
    ∃ t o, s.kernel.Runs t ∧ (s.mutexes.blocks m).owner = some o ∧ o ≠ t ∧ timeout ≠ noWait ∧
      mutexLock cfg s inIsr (some m) timeout = mutexLockWait cfg s m t timeout := by
  by_cases hv : mutexIsValid s m = true
  swap
  · simp [mutexLock, hv] at hb
  cases inIsr with
  | true => simp [mutexLock, hv] at hb
  | false =>
  by_cases hk : s.kernel.state = .running
  swap
  · simp [mutexLock, hv, kernelIsRunning, hk] at hb
  obtain ⟨t, hruns⟩ := hcaller rfl hk
  have heq : mutexLock cfg s false (some m) timeout = if !taskIsValid s.kernel t then (s, .returned .invalidState)
      else if (s.mutexes.blocks m).owner = none then
        ((mutexAttachOwner s m t).1, .returned (mutexAttachOwner s m t).2)
      else if (s.mutexes.blocks m).owner = some t then
        if !(s.mutexes.blocks m).recursive then (s, .returned .mutexBusy)
        else if (s.mutexes.blocks m).recursionCount = uint32Max then (s, .returned .overflow)
        else
          ({ s with mutexes := s.mutexes.update m (fun cb =>
              { cb with recursionCount := cb.recursionCount + 1 }) }, .returned .ok)
      else if timeout = noWait then (s, .returned .mutexBusy)
      else mutexLockWait cfg s m t timeout := by
    simp [mutexLock, hv, kernelIsRunning, hk, hruns.current]
  rw [heq] at hb ⊢
  split_ifs at hb ⊢ with h1 h2 h3 h4 h5 h6
  obtain ⟨o, ho⟩ := Option.ne_none_iff_exists'.mp h2
  exact ⟨t, o, hruns, ho, fun he => h3 (he ▸ ho), h6, rfl⟩

theorem LockEffect.shifts {outcome : Outcome} (he : LockEffect cfg s m timeout s' outcome)
    (h : s.Good cfg) (hcaller : Called s false) (heq : mutexLock cfg s false (some m) timeout = (s', outcome)) :
    s.kernel.waitLists.Shifts
      (if outcome = .blocked then requestArrivals cfg s (some (.mutexLock m, timeoutTicks timeout)) else [])
      s'.kernel.waitLists := by
  by_cases hb : outcome = .blocked
  · have hblocked : (mutexLock cfg s false (some m) timeout).2 = .blocked := by rw [heq, hb]
    obtain ⟨t, o, hruns, ho, hne, h0, hwait⟩ := mutexLock_of_blocked hcaller hblocked
    rw [if_pos hb, ← show (mutexLockWait cfg s m t timeout).1 = s' from congrArg Prod.fst (hwait.symm.trans heq)]
    exact (mutexLockWait_shifts h hruns ho hne h0).1
  · rw [if_neg hb]
    cases he with
    | acquired | again => exact .kept (.refl _)
    | waits | refused => exact absurd rfl hb

theorem kernelTickWake_shifts (g : k.Good cfg) (own : Ownership k ms)
    {rest : List TaskRef} (hx : k.timeoutList.lists.seq .expired = t :: rest) :
    k.waitLists.Shifts
      (expiryArrivals cfg ms
        { k with timeoutList := { k.timeoutList with lists := k.timeoutList.lists.unlink t } } t)
      (kernelTickWake cfg ms k).waitLists := by
  have hhost := k.timeoutList.lists.host_of_head hx
  have hne : (k.view t).cb.wait ≠ none := (g.shape t).timeoutHost (by simp [Kernel.view, hhost])
  obtain ⟨w, hw⟩ := Option.ne_none_iff_exists'.mp hne
  set k1 : Kernel := { k with timeoutList := { k.timeoutList with lists := k.timeoutList.lists.unlink t } } with hk1
  have g1 : k1.Sound cfg := g.popExpired hhost
  have own1 : Ownership k1 ms := own.update (fun _ h => h) (fun _ => rfl) (fun _ _ h => h)
  have hw1 : (k1.tasks t).wait = some w := hw
  obtain ⟨k2, k', hde, hd, he, -, -, hwaits, -⟩ := kernelMakeTaskReady_core ms g1 w.deadlineResult (t := t)
    (by simp [hw1]) (by simp [k1]) (fun k2 hd => (runCleanup_spec g1 own1 hd _).1)
    (fun u hu k2 hd => (runCleanup_spec g1 own1 hd _).1.keeps u (own1.not_owner hu))
  have heq : kernelTickWake cfg ms k = k' := by
    simp only [kernelTickWake, listPopFront_cons _ _ hx]
    exact kernelTickExpire_eq g1 hw1 he
  have hleft : k.waitLists.Shifts [] k2.waitLists := by
    rw [hd.waitLists]
    exact .left k.waitLists t
  rw [heq, hwaits]
  by_cases hlock : ∃ m, w = .mutexLock m
  · obtain ⟨m, rfl⟩ := hlock
    obtain ⟨hno, -⟩ := own1.waited t m hw1
    obtain ⟨o, ho⟩ := Option.ne_none_iff_exists'.mp hno
    have hi : Inherits cfg k2 ms := own1.inherits g1 hd.tasks (fun u l hu => ((hd.host u l).mp hu).2)
    obtain ⟨hm, hb⟩ := hi.owners m o ho
    have hlog : expiryArrivals cfg ms k1 t = recomputed cfg ms (recomputeDepth cfg) k2 o := by
      simp [expiryArrivals, hw1, hde, recomputedOwner_eq ho]
    have hrun := runCleanup_timeout g1 own1 hd hw1 ho
    rw [hlog, show (Wait.mutexLock m).deadlineResult = .timeout from rfl, hrun]
    exact hleft.trans (recomputed_shifts (recomputeDepth cfg) (hd.linked g1) hi o hm hb)
  · push Not at hlock
    have hlog : expiryArrivals cfg ms k1 t = [] := by
      unfold expiryArrivals
      rw [hw1]
      cases w with
      | mutexLock m => exact absurd rfl (hlock m)
      | _ => rfl
    have hno : ∀ m, (k1.tasks t).wait ≠ some (.mutexLock m) := fun m hm =>
      hlock m (Option.some.inj (hw1.symm.trans hm))
    rw [hlog, (runCleanup_spec g1 own1 hd _).2.1 (Or.inr hno)]
    exact hleft

theorem kernelTickWakeLoop_shifts (h : s.Good cfg) {order : List TaskRef}
    (hx : s.kernel.timeoutList.lists.seq .expired = order) :
    s.kernel.waitLists.Shifts (wakeArrivals cfg s.mutexes order.length s.kernel)
      (kernelTickWakeLoop cfg s.mutexes order.length s.kernel).waitLists := by
  induction order generalizing s with
  | nil => exact .kept (.refl _)
  | cons t rest ih =>
    obtain ⟨w, -, -, -, hacts, hrest, hloop⟩ := kernelTickWake_acts h hx
    have hnext := ih (s := { s with kernel := kernelTickWake cfg s.mutexes s.kernel }) hacts.good hrest
    simp only [List.length_cons, wakeArrivals, listPopFront_cons _ _ hx, hloop]
    exact (kernelTickWake_shifts h.kernel h.owners hx).trans hnext

theorem TimerTick.lists (h : TimerTick cfg s s' woken) :
    s.kernel.waitLists.Agrees s'.kernel.waitLists ∨
      ∃ u, waitListPeek s.kernel.waitLists (.semaphore .timerSignal) = some u ∧
        s'.kernel.waitLists = { s.kernel.waitLists with lists := s.kernel.waitLists.lists.unlink u } := by
  cases h with
  | silent timers => exact Or.inl (.refl _)
  | signals timers s' woken status heffect =>
    cases heffect with
    | served u k hfirst _ hgranted => exact Or.inr ⟨u, hfirst, hgranted.waitLists⟩
    | counted => exact Or.inl (.refl _)
    | full => exact Or.inl (.refl _)

theorem TimerTick.shifts (h : TimerTick cfg s s' woken) :
    s.kernel.waitLists.Shifts [] s'.kernel.waitLists := by
  rcases h.lists with hagrees | ⟨u, -, he⟩
  · exact .kept hagrees
  · rw [he]
    exact .left _ u

theorem TickRun.shifts {tl : TimeoutList TaskRef} {order : List TaskRef} {s₃ : System}
    {c : TaskRef} (h : TickRun cfg s tl order k s₃ woken c) :
    s.kernel.waitLists.Shifts (Op.tick.arrivals cfg s) (kernelTickEnd cfg s₃.kernel c woken).waitLists := by
  have hwake := kernelTickWakeLoop_shifts h.begun h.seq
  have hloop := h.loop
  rw [h.advanced] at hloop
  have harrivals : Op.tick.arrivals cfg s = wakeArrivals cfg s.mutexes order.length (s.ticked tl).kernel := by
    simp only [Op.arrivals, h.running, ne_eq, not_true_eq_false, ↓reduceIte, h.advanced, listSize, ← h.seq]
    rfl
  have hall := (hloop ▸ hwake).trans h.timers.shifts
  rw [List.append_nil] at hall
  rw [harrivals, (kernelTickEnd_charged cfg s₃.kernel c woken).bookkept.frame]
  exact hall

theorem step_moved (hs : s.Steady cfg) {op : Op} (htick : op ≠ .tick)
    (hlock : ∀ m timeout, op ≠ .task (.mutexLock m timeout)) :
    Moved s.kernel.waitLists (op.arrivals cfg s) (step cfg s op).kernel.waitLists := by
  have he := step_effect hs.good hs.quiet op
  generalize step cfg s op = s' at he ⊢
  cases he with
  | noTask c hcan => simpa [Op.arrivals, Op.blocks, hcan] using .kept (.refl _)
  | task c r hcan heq _ heffect =>
    simpa [Op.arrivals, Op.blocks, Op.request, hcan, heq] using
      heffect.moved hs.good (fun _ m timeout hc => hlock m timeout (by rw [hc]))
  | isr c honoured r k _ _ heffect hcalm =>
    have hmoved := heffect.moved hs.good (by simp)
    rw [if_neg heffect.isr_outcome] at hmoved
    rw [hcalm.frame]
    exact hmoved
  | noService hserves => simpa [Op.arrivals, Op.blocks, hserves] using .kept (.refl _)
  | service s' hserves _ heffect =>
    cases heffect with
    | halts status hp _ heq => simpa [Op.arrivals, Op.blocks, hserves, hp, heq] using .kept (.refl _)
    | takes s₁ outcome phase hp heq _ heffect =>
      have harrivals : Op.service.arrivals cfg s =
          if outcome = .blocked then s.kernel.currentTask.toList else [] := by
        simp only [Op.arrivals, Op.blocks, Op.request, hserves, hp, heq, decide_true, Bool.true_and, decide_eq_true_eq]
        rw [requestArrivals_one cfg s _ (fun _ => rfl)]
      rw [harrivals]
      exact heffect.moved hs.good.kernel
    | resumes hp | begins _ _ hp | ends _ hp | halted hp =>
      simpa [Op.arrivals, Op.blocks, hp] using .kept (.refl _)
  | noTick | tick => exact absurd rfl htick
  | _ => exact .kept (.refl _)

theorem step_shifts (hs : s.Steady cfg) (op : Op) :
    s.kernel.waitLists.Shifts (op.arrivals cfg s) (step cfg s op).kernel.waitLists := by
  by_cases htick : op = .tick
  · subst htick
    have he := step_effect hs.good hs.quiet .tick
    generalize step cfg s .tick = s' at he ⊢
    cases he with
    | noTick hk => simpa [Op.arrivals, hk] using .kept (.refl _)
    | tick tl order k s₃ woken c hrun => exact hrun.shifts
  by_cases hlock : ∃ m timeout, op = .task (.mutexLock m timeout)
  · obtain ⟨m, timeout, rfl⟩ := hlock
    have he := step_effect hs.good hs.quiet (.task (.mutexLock m timeout))
    generalize step cfg s (.task (.mutexLock m timeout)) = s' at he ⊢
    cases he with
    | noTask c hcan => simpa [Op.arrivals, Op.blocks, hcan] using .kept (.refl _)
    | task c r hcan heq hcaller heffect =>
      have harrivals : (Op.task (.mutexLock m timeout)).arrivals cfg s =
          if r.outcome = .blocked then requestArrivals cfg s ((Call.mutexLock m timeout).request s) else [] := by
        simp [Op.arrivals, Op.blocks, Op.request, hcan, heq]
      rw [harrivals]
      cases heffect with
      | refused => exact .kept (.refl _)
      | lock m _ s₁ outcome _ heffect =>
        exact heffect.shifts hs.good hcaller
          (Prod.ext (congrArg CallResult.system heq) (congrArg CallResult.outcome heq))
      | _ => simp_all [Call.usesTimer]
  · push Not at hlock
    exact (step_moved hs htick hlock).shifts

end

end Hairtos

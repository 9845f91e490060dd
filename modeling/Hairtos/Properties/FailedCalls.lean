import Hairtos.Invariant.Alarms
import Hairtos.Invariant.Change
import Hairtos.Properties.NestedTick

namespace Hairtos

open Library

variable {c : Call} {l : WaitListRef}

def Call.covered : Call → Bool
  | .taskStart _ => true
  | .taskDelay _ => true
  | .taskDelayUntil _ _ => true
  | .taskSuspend _ => true
  | .taskResume _ => true
  | .queueSend _ _ _ => true
  | .queueReceive _ _ _ => true
  | .queueSendFromIsr _ _ => true
  | .queueReceiveFromIsr _ _ => true
  | .semaphoreTake _ _ => true
  | .semaphoreGive _ => true
  | .semaphoreGiveFromIsr _ => true
  | .mutexLock _ _ => true
  | .mutexUnlock _ => true
  | .timerStart _ => true
  | .timerStop _ => true
  | .timerReset _ => true
  | .timerChangePeriod _ _ => true
  | _ => false

def Call.Steals (s : System) : Call → Prop
  | .semaphoreGiveFromIsr (some x) => semaphoreIsValid s (.app x) = true ∧ ¬ Fresh s (.semaphore (.app x))
  | .queueSendFromIsr (some q) (some _) => queueIsValid s q = true ∧ ¬ Fresh s (.queueReceive q)
  | .queueReceiveFromIsr (some q) (some _) => queueIsValid s q = true ∧ ¬ Fresh s (.queueSend q)
  | _ => False

def TickState.Admits (x : TickState) (inIsr : Bool) : Prop :=
  inIsr = false → x.inTick = false ∧ canCall x.system = true

structure TickState.Timed (cfg : Config) (x : TickState) : Prop where
  sound : x.system.timers.Sound
  quiet : x.system.timers.Quiet
  clock : x.system.timers.initialized = true →
    x.system.timers.timeouts.lastTick + (if x.inTick then 1#32 else 0#32) = x.system.kernel.tick
  enabled : x.system.timers.initialized = true → cfg.softwareTimer = true

def CallResult.Clean (s : System) (r : CallResult) : Prop :=
  ∀ status, r.outcome = .returned status → status ≠ .ok → r.system = s

section

variable {cfg : Config} {s : System}

theorem CallResult.Clean.of_same {r : CallResult} (h : r.system = s) : r.Clean s := fun _ _ _ => h

theorem CallResult.Clean.of_ok {r : CallResult} (h : ∀ status, r.outcome = .returned status → status = .ok) :
    r.Clean s := fun status hout hne => absurd (h status hout) hne

theorem SendEffect.same {q : QueueRef} {b : BufferRef} {timeout : Tick} {sender : Option TaskRef} {r : QueueResult}
    (h : SendEffect cfg s q b timeout sender r) (hne : r.status ≠ .ok) :
    r.system = s ∧ r.blocked = false ∧ r.woken = false := by
  cases h <;> simp at hne ⊢

theorem ReceiveEffect.same {q : QueueRef} {b : BufferRef} {timeout : Tick} {receiver : Option TaskRef} {r : QueueResult}
    (h : ReceiveEffect cfg s q b timeout receiver r) (hne : r.status ≠ .ok) :
    r.system = s ∧ r.blocked = false ∧ r.woken = false := by
  cases h <;> simp at hne ⊢

theorem QueueResult.finish_clean {r : QueueResult}
    (h : r.status ≠ .ok → r.system = s ∧ r.blocked = false ∧ r.woken = false) :
    CallResult.Clean s ⟨r.finish.1, r.finish.2, false⟩ := by
  intro status hout hne
  cases hb : r.blocked with
  | true => simp [QueueResult.finish, hb] at hout
  | false =>
    obtain rfl : r.status = status := by simpa [QueueResult.finish, hb] using hout
    obtain ⟨hsame, -, hwoken⟩ := h hne
    simp [QueueResult.finish, hb, hwoken, hsame]

theorem GiveEffect.same {x : SemaphoreRef} {s' : System} {woken : Bool} {status : Status}
    (h : GiveEffect cfg s x s' woken status) (hne : status ≠ .ok) : s' = s ∧ woken = false := by
  cases h <;> simp at hne ⊢

theorem CallEffect.clean {inIsr : Bool} {r : CallResult} (he : CallEffect cfg s inIsr c r)
    (hc : c.covered = true) (htimer : inIsr = false → c.usesTimer = false) : r.Clean s := by
  cases he with
  | refused => exact .of_same rfl
  | send q b timeout r _ _ heffect => exact QueueResult.finish_clean heffect.same
  | receive q b timeout r _ _ heffect => exact QueueResult.finish_clean heffect.same
  | sendFromIsr q b r _ _ heffect =>
    rintro _ ⟨⟩ hne
    exact (heffect.same hne).1
  | receiveFromIsr q b r _ _ heffect =>
    rintro _ ⟨⟩ hne
    exact (heffect.same hne).1
  | take n timeout s₁ outcome _ _ heffect => cases heffect <;> exact .of_ok (by simp)
  | give n s₁ woken status _ _ heffect =>
    rintro _ ⟨⟩ hne
    obtain ⟨rfl, rfl⟩ := heffect.same hne
    rfl
  | giveFromIsr n s₁ woken status _ _ heffect =>
    rintro _ ⟨⟩ hne
    exact (heffect.same hne).1
  | lock m timeout s₁ outcome _ heffect => cases heffect <;> exact .of_ok (by simp)
  | createTimer => simp [Call.covered] at hc
  | control c timers status hisr huses => simp [htimer hisr] at huses
  | _ => exact .of_ok (by simp)

theorem ControlResult.clean {inIsr : Bool} {timer : Option TimerRef} {e : TimerRef → AlarmEvent}
    {r : System × Status}
    (h : ControlResult s inIsr timer e r) : (statusResult r).Clean s := by
  cases h with
  | failed status ne => exact .of_same rfl
  | done t ts => exact .of_ok (by simp [statusResult])

theorem call_clean (hs : s.Steady cfg) (h : s.Timed cfg) (hcaller : Called s false) (hc : c.covered = true) :
    (call cfg s false c).Clean s := by
  cases htimer : c.usesTimer with
  | false =>
    exact (call_effect hs.good false hcaller c (c.servesFresh_of_quiet hs.quiet false)).clean hc (fun _ => htimer)
  | true =>
    cases c with
    | timerStart t => exact (timerStart_result h false t).clean
    | timerStop t => exact (timerStop_result h false t).clean
    | timerReset t => exact (timerReset_result h false t).clean
    | timerChangePeriod t period => exact (timerChangePeriod_result h false t period).clean
    | timerCreateStatic => simp [Call.covered] at hc
    | _ => simp [Call.usesTimer] at htimer

theorem kernelUnblockWaiter_expired (g : s.kernel.Sound cfg) {u : TaskRef}
    (hl : s.kernel.waitLists.lists.host u = some l) (hx : s.kernel.timeoutList.lists.host u = some .expired) :
    ∃ k', kernelUnblockWaiter cfg s.mutexes s.kernel u .ok = (k', false, .invalidState) ∧
      k'.waitLists.lists.host u = none := by
  have hw : (s.kernel.tasks u).wait ≠ none := (g.shape u).timeoutHost (by simp [Kernel.view, hx])
  have hm : (s.kernel.tasks u).magic = true := (g.shape u).magic_of_wait hw
  have hblocked : (s.kernel.tasks u).blockedWaitList = some l := ((g.shape u).waitHost).symm.trans hl
  have hleave : s.kernel.leaveWaitList u =
      ({ s.kernel with waitLists := { s.kernel.waitLists with lists := s.kernel.waitLists.lists.unlink u } }, .ok) := by
    simpa [Kernel.leaveWaitList, hblocked] using Kernel.waitRemove_eq u hl
  have hdetach : s.kernel.detachWait u =
      ({ s.kernel with waitLists := { s.kernel.waitLists with lists := s.kernel.waitLists.lists.unlink u } },
        .invalidState) := by
    simp [Kernel.detachWait, hleave, listNodeIsLinked, hx, Kernel.timeoutRemove, timeoutListRemove]
  refine ⟨{ s.kernel with waitLists := { s.kernel.waitLists with lists := s.kernel.waitLists.lists.unlink u } }, ?_,
    by simp⟩
  rcases g.waiting_state hw with hstate | ⟨hstate, hresume⟩
  · simp [kernelUnblockWaiter, kernelMakeTaskReady, taskIsValid, hm, hstate, hdetach]
  · simp [kernelUnblockWaiter, kernelMakeTaskReady, taskIsValid, hm, hstate, hresume, hdetach]

theorem exists_expired_of_not_fresh (h : ¬ Fresh s l) :
    ∃ u, waitListPeek s.kernel.waitLists l = some u ∧ s.kernel.timeoutList.lists.host u = some .expired := by
  simp only [Fresh, not_forall, not_not] at h
  obtain ⟨u, hu, hx⟩ := h
  exact ⟨u, hu, hx⟩

theorem steals_changes (g : s.Good cfg) (hsteals : c.Steals s) : (call cfg s true c).system ≠ s := by
  have hchanged : ∀ {l : WaitListRef} {u : TaskRef} {k' : Kernel}, waitListPeek s.kernel.waitLists l = some u →
      k'.waitLists.lists.host u = none → k' ≠ s.kernel := by
    rintro l u k' hpeek hnone rfl
    simp [waitListPeek_host _ hpeek] at hnone
  unfold Call.Steals at hsteals
  split at hsteals
  next n =>
    obtain ⟨hv, hfresh⟩ := hsteals
    obtain ⟨u, hpeek, hx⟩ := exists_expired_of_not_fresh hfresh
    obtain ⟨k', he, hnone⟩ := kernelUnblockWaiter_expired g.kernel.toSound (waitListPeek_host _ hpeek) hx
    have hr : (call cfg s true (.semaphoreGiveFromIsr (some n))).system = { s with kernel := k' } := by
      simp [call, wokenResult, semaphoreGiveFromIsr, hv, semaphoreGiveLocked, hpeek, he]
    rw [hr]
    exact fun h => hchanged hpeek hnone (congrArg System.kernel h)
  next q b =>
    obtain ⟨hv, hfresh⟩ := hsteals
    obtain ⟨u, hpeek, hx⟩ := exists_expired_of_not_fresh hfresh
    obtain ⟨k', he, hnone⟩ := kernelUnblockWaiter_expired g.kernel.toSound (waitListPeek_host _ hpeek) hx
    obtain ⟨b', hw⟩ := (g.kernel.shape u).wait_of_queueReceive (waitListPeek_host _ hpeek)
    obtain ⟨-, hm, hkind, hobj, hbuf⟩ := g.kernel.queued hw rfl rfl
    have hr : (call cfg s true (.queueSendFromIsr (some q) (some b))).system.kernel = k' := by
      simp [call, wokenResult, queueSendFromIsr, queueCallFromIsr, hv, queueSendLocked, waitListIsEmpty_eq, hpeek,
        queueWakeReceiver, queueWaiterTask, taskIsValid, hm, hbuf, hkind, Wait.kind, hobj, System.unblock,
          System.copyBuffer,
        System.record, he, queueResult]
    intro h
    exact hchanged hpeek hnone (hr.symm.trans (congrArg System.kernel h))
  next q b =>
    obtain ⟨hv, hfresh⟩ := hsteals
    obtain ⟨u, hpeek, hx⟩ := exists_expired_of_not_fresh hfresh
    obtain ⟨k', he, hnone⟩ := kernelUnblockWaiter_expired g.kernel.toSound (waitListPeek_host _ hpeek) hx
    obtain ⟨b', hw⟩ := (g.kernel.shape u).wait_of_queueSend (waitListPeek_host _ hpeek)
    obtain ⟨-, hm, hkind, hobj, hbuf⟩ := g.kernel.queued hw rfl rfl
    have hr : (call cfg s true (.queueReceiveFromIsr (some q) (some b))).system.kernel = k' := by
      by_cases hcount : 0 < (s.queues q).count
      · have hroom : ¬ (s.queues q).capacity ≤ (s.queues q).count - 1 := by
          simp only [queueIsValid, Bool.and_eq_true, decide_eq_true_eq] at hv
          omega
        simp [call, wokenResult, queueReceiveFromIsr, queueCallFromIsr, hv, queueReceiveLocked, hcount,
          queueFillFromWaitingSender, queueDequeue, System.record, System.updateQueue, hpeek, queueWaiterTask,
          taskIsValid, hm, hbuf, hkind, Wait.kind, hobj, hroom, System.unblock, queueEnqueue, he, queueResult]
      · simp [call, wokenResult, queueReceiveFromIsr, queueCallFromIsr, hv, queueReceiveLocked, hcount, hpeek,
          queueWaiterTask, taskIsValid, hm, hbuf, System.unblock, System.copyBuffer, System.record, he, queueResult]
    intro h
    exact hchanged hpeek hnone (hr.symm.trans (congrArg System.kernel h))
  · exact hsteals.elim

theorem TickState.Timed.between {x : TickState} (h : x.Timed cfg) (hi : x.inTick = false) : x.system.Timed cfg := by
  refine ⟨h.sound, h.quiet, fun hinit => ?_, h.enabled⟩
  simpa [hi] using h.clock hinit

theorem TickState.Timed.of_between {s : System} (h : s.Timed cfg) : TickState.Timed cfg ⟨s, false⟩ :=
  ⟨h.sound, h.quiet, fun hinit => by simpa using h.clock hinit, h.enabled⟩

theorem TickState.Timed.congr {x : TickState} (h : x.Timed cfg) {s' : System} (htimers : s'.timers = x.system.timers)
    (htick : s'.kernel.tick = x.system.kernel.tick) : TickState.Timed cfg { x with system := s' } := by
  refine ⟨?_, ?_, ?_, ?_⟩ <;> simp only [htimers, htick]
  exacts [h.sound, h.quiet, h.clock, h.enabled]

theorem nested_timers (h : s.Good cfg) (honoured : Bool) (hn : c.nests = true)
    (hfresh : c.ServesFresh s true) :
    (isrStep cfg s c honoured).timers = s.timers ∧ (isrStep cfg s c honoured).kernel.tick = s.kernel.tick := by
  have htimer : c.usesTimer = false := by cases c <;> simp_all [Call.nests, Call.usesTimer]
  have he := isrStep_effect h c honoured hfresh
  generalize isrStep cfg s c honoured = s' at he ⊢
  cases he with
  | isr _ _ r k _ _ heffect hcalm =>
    exact ⟨(heffect.unsignalled h htimer).timers,
      hcalm.bookkept.control.tick.trans (heffect.isr_trace h).sameRun.tick⟩

theorem kernelTickFinish_timed (g : s.Good cfg) (hk : s.kernel.state = .running) (hq : s.kernel.Quiet)
    (h : TickState.Timed cfg ⟨s, true⟩) : (kernelTickFinish cfg s).Timed cfg := by
  obtain ⟨current, hc, hfinish⟩ := kernelTickFinish_eq g hk hq
  obtain ⟨owed, htrace⟩ := timerTickFromIsr_trace g hq s.kernel.tick
  have htick : (kernelTickFinish cfg s).kernel.tick = s.kernel.tick := by
    rw [hfinish]
    exact (kernelTickEnd_charged _ _ _ _).bookkept.control.tick.trans htrace.sameRun.tick
  have htimers : (kernelTickFinish cfg s).timers = (timerTickFromIsr cfg s s.kernel.tick).1.timers := by rw [hfinish]
  cases hi : s.timers.initialized with
  | false =>
    have hsame : (timerTickFromIsr cfg s s.kernel.tick).1.timers = s.timers := by simp [timerTickFromIsr, hi]
    rw [hsame] at htimers
    refine ⟨?_, ?_, ?_, ?_⟩ <;> rw [htimers]
    · exact h.sound
    · exact h.quiet
    · simp [hi]
    · simp [hi]
  | true =>
    obtain ⟨ts, xs, heq, hsound, hquiet, hinit, hlast, -⟩ := timerTickFromIsr_eq h.sound h.quiet (h.enabled hi) hi
    have hclock : s.timers.timeouts.lastTick + 1#32 = s.kernel.tick := by simpa using h.clock hi
    rw [hclock] at heq hlast
    have hts : (timerTickFromIsr cfg s s.kernel.tick).1.timers = ts := by
      refine (congrArg (fun r => r.1.timers) heq).trans ?_
      dsimp only
      split
      · rfl
      · exact semaphoreGiveFromIsr_timers _ _ _
    rw [hts] at htimers
    refine ⟨?_, ?_, fun _ => ?_, fun _ => h.enabled hi⟩
    · rw [htimers]
      exact hsound
    · rw [htimers]
      exact hquiet
    · rw [htimers, htick, hlast]

theorem tickStep_timed {x : TickState} (hx : x.Good cfg) (h : x.Timed cfg) {o : TickOp} (hfresh : o.Fresh x.system) :
    (tickStep cfg x o).Timed cfg := by
  cases o with
  | op o =>
    cases hi : x.inTick with
    | true => simpa [tickStep, hi] using h
    | false =>
      have hs : x.system.Steady cfg := ⟨hx.system, hx.quiet hi⟩
      simp only [tickStep, hi, Bool.false_eq_true, ↓reduceIte]
      exact .of_between (step_alarmStep hs (h.between hi) o).timed
  | advance =>
    simp only [tickStep]
    split
    · exact h
    next hi =>
    simp only [ne_eq, decide_not, Bool.or_eq_true, Bool.not_eq_eq_eq_not, Bool.not_true, decide_eq_false_iff_not,
      not_or, Bool.not_eq_true, not_not] at hi
    obtain ⟨tl, he, -, -⟩ := kernelTickAdvance_spec hx.system.kernel (hx.quiet hi.1)
    refine ⟨h.sound, h.quiet, fun hinit => ?_, h.enabled⟩
    rw [he]
    simp [(h.between hi.1).clock hinit]
  | wake =>
    simp only [tickStep]
    split
    · exact h
    · refine h.congr rfl ?_
      cases hseq : x.system.kernel.timeoutList.lists.seq .expired with
      | nil => rw [kernelTickWake_nil hseq]
      | cons t rest =>
        obtain ⟨w, -, hwoken, -⟩ := kernelTickWake_spec hx.system.kernel hx.system.owners hseq
        exact hwoken.control.tick
  | call c honoured =>
    simp only [tickStep]
    split
    · exact h
    next hi =>
    simp only [Bool.or_eq_true, Bool.not_eq_eq_eq_not, Bool.not_true, decide_eq_true_eq, not_or,
      Bool.not_eq_false] at hi
    obtain ⟨htimers, htick⟩ := nested_timers hx.system honoured hi.1.2 hfresh
    exact h.congr htimers htick
  | finish =>
    simp only [tickStep]
    split
    · exact h
    next hi =>
    simp only [listIsEmpty, Bool.or_eq_true, Bool.not_eq_eq_eq_not, Bool.not_true, decide_eq_true_eq, not_or,
      Bool.not_eq_false, List.isEmpty_iff] at hi
    have hin : x = ⟨x.system, true⟩ := by rw [← hi.1.1]
    exact .of_between (kernelTickFinish_timed hx.system (hx.running hi.1.1) hi.1.2 (hin ▸ h))

theorem tickExec_timed {x : TickState} (hx : x.Good cfg) (h : x.Timed cfg) {ops : List TickOp}
    (hops : Undisturbed cfg x ops) : (tickExec cfg x ops).Timed cfg := by
  induction ops generalizing x with
  | nil => exact h
  | cons o ops ih =>
    have hfresh := hops [] o ops rfl
    exact ih (tickStep_good hx hfresh) (tickStep_timed hx h hfresh)
      (fun us a vs he => hops (o :: us) a vs (by simp [he]))

theorem servesFresh_of_not_steals (hsteals : ¬ c.Steals s) : c.ServesFresh s true := by
  intro l hl
  unfold Call.serving at hl
  split at hl
  next hpasses =>
    by_contra hstale
    refine hsteals ?_
    unfold Call.passes at hpasses
    split at hpasses <;> simp_all [Call.serves, Call.Steals]
  next => simp at hl

theorem call_isr_clean (g : s.Good cfg) (hc : c.covered = true) (hsteals : ¬ c.Steals s) :
    (call cfg s true c).Clean s :=
  (call_effect g true (by simp [Called]) c (servesFresh_of_not_steals hsteals)).clean hc (by simp)

theorem not_steals_of_quiet (hq : s.kernel.Quiet) (c : Call) : ¬ c.Steals s := by
  intro hsteals
  unfold Call.Steals at hsteals
  split at hsteals
  · exact hsteals.2 (fresh_of_quiet hq _)
  · exact hsteals.2 (fresh_of_quiet hq _)
  · exact hsteals.2 (fresh_of_quiet hq _)
  · exact hsteals

end

/-- In every state of a run whose nested calls all were fresh: a call that returns an error without having
blocked its caller leaves the state as it was, exactly if it does not pick a waiter that a tick in
progress has already moved to its expired list. -/
theorem failed_call_unchanged_iff (cfg : Config) (ops : List TickOp) (hops : Undisturbed cfg ⟨boot cfg, false⟩ ops)
    (inIsr : Bool) (hcaller : (tickRun cfg ops).Admits inIsr) (c : Call) (hc : c.covered = true) (status : Status)
    (hout : (call cfg (tickRun cfg ops).system inIsr c).outcome = .returned status) (hfailed : status ≠ .ok) :
    (call cfg (tickRun cfg ops).system inIsr c).system = (tickRun cfg ops).system ↔
      ¬ c.Steals (tickRun cfg ops).system := by
  have hx : (tickRun cfg ops).Good cfg := tickExec_good (boot_tickGood cfg) hops
  have ht : (tickRun cfg ops).Timed cfg := tickExec_timed (boot_tickGood cfg) (.of_between (boot_timed cfg)) hops
  cases inIsr with
  | false =>
    obtain ⟨hi, hcan⟩ := hcaller rfl
    have hclean := call_clean ⟨hx.system, hx.quiet hi⟩ (ht.between hi) (called_of_canCall hx.system hcan) hc
    exact iff_of_true (hclean status hout hfailed) (not_steals_of_quiet (hx.quiet hi) c)
  | true =>
    constructor
    · intro hsame hsteals
      exact steals_changes hx.system hsteals hsame
    · intro hsteals
      exact call_isr_clean hx.system hc hsteals status hout hfailed

theorem failed_call_unchanged_full :
    let x := tickRun .standard (nestedRun 2#32 ++ List.replicate 2 (.call (.semaphoreGiveFromIsr (some 0)) true))
    (call .standard x.system true (.semaphoreGiveFromIsr (some 0))).outcome = .returned .semaphoreFull ∧
      (call .standard x.system true (.semaphoreGiveFromIsr (some 0))).system = x.system := by
  have hout : (call .standard (tickRun .standard
      (nestedRun 2#32 ++ List.replicate 2 (.call (.semaphoreGiveFromIsr (some 0)) true))).system true
      (.semaphoreGiveFromIsr (some 0))).outcome = .returned .semaphoreFull := by decide +kernel
  exact ⟨hout, (failed_call_unchanged_iff .standard _ (by decide +kernel) true (by simp [TickState.Admits]) _
    rfl _ hout
    (by simp)).mpr (fun hsteals => hsteals.2 (by decide +kernel))⟩

/-- Task 0 stands in the expired list when a handler gives: the call fails and has taken its wait node out of
the semaphore's list. -/
theorem failed_give_unlinks_waiter :
    let s := (tickRun .standard (nestedRun 1#32)).system
    let r := call .standard s true (.semaphoreGiveFromIsr (some 0))
    r.outcome = .returned .invalidState ∧
      s.kernel.waitLists.lists.host (.app 0) = some (.semaphore (.app 0)) ∧
      r.system.kernel.waitLists.lists.host (.app 0) = none := by
  decide +kernel

end Hairtos

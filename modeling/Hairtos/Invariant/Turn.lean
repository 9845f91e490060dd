import Hairtos.Invariant.Run
import Hairtos.Invariant.Pace

namespace Hairtos

open Library

def Event.task : Event → Option TaskRef
  | .accepted _ sender _ => sender
  | .delivered _ receiver _ => receiver
  | .created _ _ => none
  | .given _ => none
  | .taken _ task => task
  | .acquired _ task => some task

def System.eventsOf (s : System) (t : TaskRef) : List Event := s.history.filter (fun e => e.task = some t)

def Wait.GrantedBy (t : TaskRef) : Wait → Event → Prop
  | .delay, _ => False
  | .queueSend q _, e => ∃ item, e = .accepted q (some t) item
  | .queueReceive q _, e => ∃ item, e = .delivered q (some t) item
  | .semaphoreTake x, e => e = .taken x (some t)
  | .mutexLock m, e => e = .acquired m t

def Mutexes.Owns (ms : Mutexes) (t : TaskRef) (m : MutexRef) : Prop := (ms.blocks m).owner = some t

def SameOwned (t : TaskRef) (s s' : System) : Prop := ∀ m, s'.mutexes.Owns t m ↔ s.mutexes.Owns t m

inductive Turn (t : TaskRef) (ticks : Nat) (s s' : System) : Prop
  | idle (before : (s.kernel.tasks t).wait = none) (after : (s'.kernel.tasks t).wait = none)
      (result : (s'.kernel.tasks t).waitResult = (s.kernel.tasks t).waitResult)
      (events : s'.eventsOf t = s.eventsOf t) (owned : SameOwned t s s')
  | kept (w : Wait) (before : (s.kernel.tasks t).wait = some w) (after : (s'.kernel.tasks t).wait = some w)
      (result : (s'.kernel.tasks t).waitResult = (s.kernel.tasks t).waitResult)
      (left : s.kernel.timeoutList.left t = (s'.kernel.timeoutList.left t).map (· + ticks))
      (events : s'.eventsOf t = s.eventsOf t) (owned : SameOwned t s s')
  | granted (w : Wait) (e : Event) (before : (s.kernel.tasks t).wait = some w)
      (after : (s'.kernel.tasks t).wait = none) (result : (s'.kernel.tasks t).waitResult = .ok)
      (grants : w.GrantedBy t e) (events : s'.eventsOf t = s.eventsOf t ++ [e])
      (owned : ∀ m, s'.mutexes.Owns t m ↔ s.mutexes.Owns t m ∨ w = .mutexLock m)
  | expired (w : Wait) (n : Nat) (before : (s.kernel.tasks t).wait = some w)
      (after : (s'.kernel.tasks t).wait = none) (result : (s'.kernel.tasks t).waitResult = w.deadlineResult)
      (left : s.kernel.timeoutList.left t = some n) (due : n ≤ ticks) (events : s'.eventsOf t = s.eventsOf t)
      (owned : SameOwned t s s')

structure Unmoved (t : TaskRef) (k k' : Kernel) : Prop where
  wait : (k'.tasks t).wait = (k.tasks t).wait
  result : (k'.tasks t).waitResult = (k.tasks t).waitResult
  left : k'.timeoutList.left t = k.timeoutList.left t

section

variable {cfg : Config} {k k' : Kernel} {s s' s'' : System} {t u : TaskRef} {w : Wait} {n m : Nat}

theorem SameOwned.refl (t : TaskRef) (s : System) : SameOwned t s s := fun _ => Iff.rfl

theorem SameOwned.trans (h : SameOwned t s s') (h' : SameOwned t s' s'') : SameOwned t s s'' :=
  fun m => (h' m).trans (h m)

theorem Turn.trans (h : Turn t n s s') (h' : Turn t m s' s'') : Turn t (n + m) s s'' := by
  cases h with
  | idle before after result events owned =>
    cases h' with
    | idle _ after' result' events' owned' =>
      exact .idle before after' (result'.trans result) (events'.trans events) (owned.trans owned')
    | kept _ before' => simp [after] at before'
    | granted _ _ before' => simp [after] at before'
    | expired _ _ before' => simp [after] at before'
  | kept w before after result left events owned =>
    cases h' with
    | idle before' => simp [after] at before'
    | kept w' before' after' result' left' events' owned' =>
      obtain rfl : w = w' := Option.some.inj (after.symm.trans before')
      refine .kept w before after' (result'.trans result) ?_ (events'.trans events) (owned.trans owned')
      rw [left, left', Option.map_map]
      congr 1
      funext i
      simp only [Function.comp_apply]
      omega
    | granted w' e before' after' result' grants events' owned' =>
      obtain rfl : w = w' := Option.some.inj (after.symm.trans before')
      exact .granted w e before after' result' grants (by rw [events', events])
        (fun m => (owned' m).trans (or_congr_left (owned m)))
    | expired w' i before' after' result' left' due events' owned' =>
      obtain rfl : w = w' := Option.some.inj (after.symm.trans before')
      exact .expired w (i + n) before after' result' (by simp [left, left']) (by omega) (events'.trans events)
        (owned.trans owned')
  | granted w e before after result grants events owned =>
    cases h' with
    | idle _ after' result' events' owned' =>
      exact .granted w e before after' (result'.trans result) grants (by rw [events', events])
        (fun m => (owned' m).trans (owned m))
    | kept _ before' => simp [after] at before'
    | granted _ _ before' => simp [after] at before'
    | expired _ _ before' => simp [after] at before'
  | expired w i before after result left due events owned =>
    cases h' with
    | idle _ after' result' events' owned' =>
      exact .expired w i before after' (result'.trans result) left (by omega) (events'.trans events)
        (owned.trans owned')
    | kept _ before' => simp [after] at before'
    | granted _ _ before' => simp [after] at before'
    | expired _ _ before' => simp [after] at before'

theorem Unmoved.turn (h : Unmoved t s.kernel s'.kernel) (hevents : s'.eventsOf t = s.eventsOf t)
    (howned : SameOwned t s s') : Turn t 0 s s' := by
  cases hw : (s.kernel.tasks t).wait with
  | none => exact .idle hw (h.wait.trans hw) h.result hevents howned
  | some w => exact .kept w hw (h.wait.trans hw) h.result (by simp [h.left]) hevents howned

theorem Unmoved.setKernel (h : Unmoved t s.kernel k) : Turn t 0 s { s with kernel := k } :=
  Unmoved.turn h rfl (.refl t s)

theorem SameWaits.unmoved (h : SameWaits k k') (hm : (k.tasks t).magic = true) : Unmoved t k k' := by
  refine ⟨h.wait t, h.result t hm, ?_⟩
  unfold TimeoutList.left TimeoutList.remaining
  rw [h.lists, h.lastTick]
  cases hhost : k.timeoutList.lists.host t with
  | none => rfl
  | some l => rw [h.wakeTick t (by simp [hhost])]

theorem WaitEnds.unmoved {result : Status} (h : WaitEnds k u w result k') (htu : t ≠ u) : Unmoved t k k' := by
  refine ⟨h.others t htu, h.result t htu, ?_⟩
  unfold TimeoutList.left TimeoutList.remaining
  rw [h.lists, h.lastTick, h.wakeTick]
  simp [htu]

theorem WaitStarts.unmoved {ticks : Option Tick} (h : WaitStarts k u w ticks k') (g : k.Good cfg) (htu : t ≠ u) :
    Unmoved t k k' := by
  have hnone := (g.running_shape h.runs.running).2.2.2.1
  refine ⟨h.others t htu, h.result t htu, ?_⟩
  rw [h.timeoutList, k.enterTimeout_left g.timeouts hnone ticks h.finite, if_neg htu]

theorem WaitEnds.turn (h : WaitEnds s.kernel u w .ok s'.kernel)
    (hself : ∃ e, w.GrantedBy u e ∧ s'.eventsOf u = s.eventsOf u ++ [e])
    (howned : ∀ m, s'.mutexes.Owns u m ↔ s.mutexes.Owns u m ∨ w = .mutexLock m)
    (hothers : t ≠ u → s'.eventsOf t = s.eventsOf t ∧ SameOwned t s s') : Turn t 0 s s' := by
  by_cases htu : t = u
  · subst htu
    obtain ⟨e, hgrants, hevents⟩ := hself
    exact .granted w e h.wait h.done h.waitResult hgrants hevents howned
  · exact (h.unmoved htu).turn (hothers htu).1 (hothers htu).2

theorem WaitEnds.turn_of_mutexes (h : WaitEnds s.kernel u w .ok s'.kernel) (hw : ∀ m, w ≠ .mutexLock m)
    (hms : s'.mutexes = s.mutexes) (hself : ∃ e, w.GrantedBy u e ∧ s'.eventsOf u = s.eventsOf u ++ [e])
    (hothers : t ≠ u → s'.eventsOf t = s.eventsOf t) : Turn t 0 s s' := by
  refine h.turn hself (fun m => ?_) (fun htu => ⟨hothers htu, fun m => ?_⟩)
  · rw [hms]
    simp [hw m]
  · rw [hms]

theorem GiveEffect.turn {x : SemaphoreRef} {woken : Bool} {status : Status} (h : GiveEffect cfg s x s' woken status) :
    Turn t 0 s s' := by
  cases h with
  | served u k _ hwait hgranted =>
    refine WaitEnds.turn_of_mutexes (hgranted.woken.waitEnds hwait) (by simp) rfl ⟨_, rfl, ?_⟩ ?_
    · simp [System.eventsOf, System.record, Event.task]
    · intro htu
      simp [System.eventsOf, System.record, Event.task, Ne.symm htu]
  | counted =>
    refine Unmoved.turn ⟨rfl, rfl, rfl⟩ ?_ (.refl t s)
    simp [System.eventsOf, System.record, System.updateSemaphore, Event.task]
  | full => exact Unmoved.turn ⟨rfl, rfl, rfl⟩ rfl (.refl t _)

theorem Kernel.Runs.ne (h : k.Runs u) (hnot : (k.tasks t).state ≠ .running) : t ≠ u := by
  rintro rfl
  exact hnot h.running

theorem caller_ne {caller : Option TaskRef} (hcaller : ∀ u, caller = some u → k.Runs u)
    (hnot : (k.tasks t).state ≠ .running) : caller ≠ some t :=
  fun h => hnot (hcaller t h).running

theorem TakeEffect.turn {x : SemaphoreRef} {timeout : Tick} {caller : Option TaskRef} {outcome : Outcome}
    (h : TakeEffect cfg s x timeout caller s' outcome) (g : s.Good cfg) (hcaller : ∀ u, caller = some u →
      s.kernel.Runs u)
    (hnot : (s.kernel.tasks t).state ≠ .running) : Turn t 0 s s' := by
  have hne := caller_ne hcaller hnot
  cases h with
  | counted =>
    refine Unmoved.turn ⟨rfl, rfl, rfl⟩ ?_ (.refl t s)
    simp [System.eventsOf, System.record, System.updateSemaphore, Event.task, hne]
  | waits u hruns _ _ hfinite =>
    have hstarts := Kernel.startWait_starts cfg (.semaphoreTake x) hruns (timeoutTicks_spec hfinite)
    exact Unmoved.turn ((hstarts.aside (Kernel.calm_requestContextSwitch _).bookkept.aside).unmoved g.kernel
      (hruns.ne hnot)) rfl (.refl t s)

theorem SendEffect.turn {q : QueueRef} {item : BufferRef} {timeout : Tick} {sender : Option TaskRef} {r : QueueResult}
    (h : SendEffect cfg s q item timeout sender r) (g : s.Good cfg) (hcaller : ∀ u, sender = some u →
      s.kernel.Runs u)
    (hnot : (s.kernel.tasks t).state ≠ .running) : Turn t 0 s r.system := by
  have hne := caller_ne hcaller hnot
  cases h with
  | served u b k _ hwait hgranted =>
    have hsu : sender ≠ some u := by
      intro hs
      have := (g.kernel.running_shape (hcaller u hs).running).2.1
      simp [hwait] at this
    let bytes := itemBytes (s.memory item) 0 (s.queues q).itemSize
    refine WaitEnds.turn_of_mutexes (hgranted.woken.waitEnds hwait) (by simp) rfl
      ⟨.delivered q (some u) bytes, ⟨_, rfl⟩, ?_⟩ ?_
    · simp [System.eventsOf, System.record, System.copyBuffer, Event.task, hsu, bytes]
    · intro htu
      simp [System.eventsOf, System.record, System.copyBuffer, Event.task, Ne.symm htu, hne]
  | stored =>
    refine Unmoved.turn ⟨rfl, rfl, rfl⟩ ?_ (.refl t s)
    simp [System.eventsOf, System.record, queueEnqueue, System.updateQueue, Event.task, hne]
  | waits u hruns _ _ _ hfinite =>
    have hstarts := Kernel.startWait_starts cfg (.queueSend q item) hruns (timeoutTicks_spec hfinite)
    exact Unmoved.turn (hstarts.unmoved g.kernel (hruns.ne hnot)) rfl (.refl t s)
  | full => exact Unmoved.turn ⟨rfl, rfl, rfl⟩ rfl (.refl t _)

theorem ReceiveEffect.turn {q : QueueRef} {item : BufferRef} {timeout : Tick} {receiver : Option TaskRef}
    {r : QueueResult} (h : ReceiveEffect cfg s q item timeout receiver r) (g : s.Good cfg)
    (hcaller : ∀ u, receiver = some u → s.kernel.Runs u) (hnot : (s.kernel.tasks t).state ≠ .running) :
    Turn t 0 s r.system := by
  have hne := caller_ne hcaller hnot
  have hru : ∀ {u : TaskRef} {w : Wait}, (s.kernel.tasks u).wait = some w → receiver ≠ some u := by
    intro u w hwait hs
    have := (g.kernel.running_shape (hcaller u hs).running).2.1
    simp [hwait] at this
  cases h with
  | taken =>
    refine Unmoved.turn ⟨rfl, rfl, rfl⟩ ?_ (.refl t s)
    simp [System.eventsOf, System.record, queueDequeue, System.updateQueue, Event.task, hne]
  | refilled u b k _ _ hwait hgranted =>
    let bytes := itemBytes ((queueDequeue s q item).memory b) 0 (s.queues q).itemSize
    refine WaitEnds.turn_of_mutexes (hgranted.woken.waitEnds hwait) (by simp) rfl
      ⟨.accepted q (some u) bytes, ⟨_, rfl⟩, ?_⟩ ?_
    · simp [System.eventsOf, System.record, queueDequeue, queueEnqueue, System.updateQueue, Event.task,
        hru hwait, bytes]
    · intro htu
      simp [System.eventsOf, System.record, queueDequeue, queueEnqueue, System.updateQueue, Event.task,
        Ne.symm htu, hne]
  | direct u b k _ _ hwait hgranted =>
    let bytes := itemBytes (s.memory b) 0 (s.queues q).itemSize
    refine WaitEnds.turn_of_mutexes (hgranted.woken.waitEnds hwait) (by simp) rfl
      ⟨.accepted q (some u) bytes, ⟨_, rfl⟩, ?_⟩ ?_
    · simp [System.eventsOf, System.record, System.copyBuffer, Event.task, hru hwait, bytes]
    · intro htu
      simp [System.eventsOf, System.record, System.copyBuffer, Event.task, Ne.symm htu, hne]
  | waits u hruns _ _ _ hfinite =>
    have hstarts := Kernel.startWait_starts cfg (.queueReceive q item) hruns (timeoutTicks_spec hfinite)
    exact Unmoved.turn (hstarts.unmoved g.kernel (hruns.ne hnot)) rfl (.refl t s)
  | empty => exact Unmoved.turn ⟨rfl, rfl, rfl⟩ rfl (.refl t _)

theorem UnlockEffect.turn {m : MutexRef} {c : TaskRef} (h : UnlockEffect cfg s m c s')
    (hm : (s.kernel.tasks t).magic = true) (hc : (s.mutexes.blocks m).owner = some c) (htc : t ≠ c) :
    Turn t 0 s s' := by
  have hchange := h.keeps_or_ends
  have hnot : ¬ s.mutexes.Owns t m := fun ho => htc (Option.some.inj (ho.symm.trans hc))
  cases h with
  | again =>
    refine Unmoved.turn ⟨rfl, rfl, rfl⟩ rfl (fun n => ?_)
    by_cases hn : n = m
    · subst hn
      simp [Mutexes.Owns, Mutexes.update]
    · simp [Mutexes.Owns, Mutexes.update, hn]
  | freed k k' hunwanted =>
    have howned : SameOwned t s { s with mutexes := s.mutexes.detach m, kernel := k' } := by
      intro n
      by_cases hn : n = m
      · subst hn
        simpa [Mutexes.Owns, Mutexes.detach] using hnot
      · simp [Mutexes.Owns, Mutexes.detach, hn]
    rcases hchange with ⟨hsame, -⟩ | ⟨u, hends, -⟩
    · exact (hsame.unmoved hm).turn rfl howned
    · exact absurd hends.wait (hunwanted u)
  | handed u k k' k'' _ hwait =>
    rcases hchange with ⟨-, hhistory⟩ | ⟨v, hends, hhistory⟩
    · simp [System.record] at hhistory
    have hvu : v = u := by simpa [System.record, eq_comm] using hhistory
    subst hvu
    refine hends.turn ⟨_, rfl, ?_⟩ ?_ ?_
    · simp [System.eventsOf, System.record, Event.task]
    · intro n
      by_cases hn : n = m
      · subst hn
        simp [Mutexes.Owns, Mutexes.attach, System.record]
      · simp [Mutexes.Owns, Mutexes.attach, Mutexes.detach, System.record, hn, Ne.symm hn]
    · intro htv
      refine ⟨by simp [System.eventsOf, System.record, Event.task, Ne.symm htv], fun n => ?_⟩
      by_cases hn : n = m
      · subst hn
        simpa [Mutexes.Owns, Mutexes.attach, System.record, Ne.symm htv] using hnot
      · simp [Mutexes.Owns, Mutexes.attach, Mutexes.detach, System.record, hn]

theorem LockEffect.turn {m : MutexRef} {timeout : Tick} {outcome : Outcome} (h : LockEffect cfg s m timeout s' outcome)
    (g : s.Good cfg) (hm : (s.kernel.tasks t).magic = true) (hnot : (s.kernel.tasks t).state ≠ .running) :
    Turn t 0 s s' := by
  have hkept : s'.eventsOf t = s.eventsOf t ∧ SameOwned t s s' := by
    cases h with
    | acquired u hruns _ hfree =>
      refine ⟨by simp [System.eventsOf, System.record, Event.task, (hruns.ne hnot).symm], fun n => ?_⟩
      by_cases hn : n = m
      · subst hn
        simp [Mutexes.Owns, Mutexes.attach, System.record, hfree, (hruns.ne hnot).symm]
      · simp [Mutexes.Owns, Mutexes.attach, System.record, hn]
    | again u hruns =>
      refine ⟨rfl, fun n => ?_⟩
      by_cases hn : n = m
      · subst hn
        simp [Mutexes.Owns, Mutexes.update]
      · simp [Mutexes.Owns, Mutexes.update, hn]
    | waits => exact ⟨rfl, .refl t s⟩
    | refused => exact ⟨rfl, .refl t s⟩
  obtain ⟨hevents, howned⟩ := hkept
  rcases h.keeps_or_starts with hsame | ⟨u, hstarts⟩ | ⟨u, k, hstarts, hends⟩
  · exact (hsame.unmoved hm).turn hevents howned
  · exact (hstarts.unmoved g.kernel (hstarts.runs.ne hnot)).turn hevents howned
  · have h1 := hstarts.unmoved g.kernel (hstarts.runs.ne hnot)
    have h2 := hends.unmoved (hstarts.runs.ne hnot)
    exact Unmoved.turn ⟨h2.wait.trans h1.wait, h2.result.trans h1.result, h2.left.trans h1.left⟩ hevents howned

theorem Action.turn {owed : Bool} (h : Action cfg s owed s') (g : s.Good cfg) (hm : (s.kernel.tasks t).magic = true)
    (hnot : (s.kernel.tasks t).state ≠ .running) : Turn t 0 s s' := by
  have hcalm : ∀ {a : System} {k : Kernel}, a.kernel.Calm k → Turn t 0 s a →
      Turn t 0 s { a with kernel := k } := by
    intro a k hc ha
    have hkeep : Unmoved t a.kernel k := by
      have := hc.bookkept.aside
      exact ⟨this.sameWaits.wait t, by rw [hc.tasks], by rw [this.timeoutList]⟩
    exact ha.trans hkeep.setKernel
  cases h with
  | calm k timers service anchors hc => exact (hc.bookkept.aside.sameWaits.unmoved hm).turn rfl (.refl t s)
  | createTask u priority hfresh => exact ((g.kernel.create_sameWaits hfresh priority).unmoved hm).turn rfl (.refl t s)
  | startTask u hstate hcreated => exact ((s.kernel.register_sameWaits u).unmoved hm).turn rfl (.refl t s)
  | createSemaphore x count maxCount =>
    refine Unmoved.turn ⟨rfl, rfl, rfl⟩ ?_ (.refl t s)
    simp [System.eventsOf, System.record, System.updateSemaphore, Event.task]
  | createMutex m recursive hfresh =>
    refine Unmoved.turn ⟨rfl, rfl, rfl⟩ rfl (fun n => ?_)
    by_cases hn : n = m
    · subst hn
      have hfree : (s.mutexes.blocks n).owner = none := by
        by_contra ho
        simp [g.owners.magic n ho] at hfresh
      simp [Mutexes.Owns, Mutexes.update, hfree]
    · simp [Mutexes.Owns, Mutexes.update, hn]
  | delay u ticks anchors hruns hpositive hfinite =>
    have hstarts : WaitStarts s.kernel u .delay (some ticks) (s.kernel.startWait cfg u .delay (some ticks)) := by
      refine Kernel.startWait_starts cfg _ hruns ?_
      rintro _ ⟨⟩
      exact ⟨hpositive, hfinite⟩
    exact Unmoved.turn ((hstarts.aside (Kernel.calm_requestContextSwitch _).bookkept.aside).unmoved g.kernel
      (hruns.ne hnot)) rfl (.refl t s)
  | suspend u k hstate hidle hc =>
    exact hcalm (a := { s with kernel := s.kernel.suspend cfg u }) hc
      (((s.kernel.suspend_sameWaits u).unmoved hm).turn rfl (.refl t s))
  | resume u k hstate hidle hc =>
    exact hcalm (a := { s with kernel := s.kernel.resume cfg u }) hc
      (((s.kernel.resume_sameWaits u).unmoved hm).turn rfl (.refl t s))
  | give x s₁ woken status k owed hvalid heffect hc => exact hcalm hc heffect.turn
  | take x timeout s₁ outcome hcaller hvalid heffect => exact heffect.turn g hcaller hnot
  | send q item timeout sender r k owed hcaller hvalid heffect hc => exact hcalm hc (heffect.turn g hcaller hnot)
  | receive q item timeout receiver r k owed hcaller hvalid heffect hc => exact hcalm hc (heffect.turn g hcaller hnot)
  | unlock m c s₁ hruns howner heffect => exact heffect.turn hm howner (hruns.ne hnot)
  | expire u w k hdue hwait hwoken =>
    by_cases htu : t = u
    · subst htu
      have hends := hwoken.waitEnds hwait
      exact .expired w 0 hwait hends.done hends.waitResult (by simp [TimeoutList.left, hdue]) (le_refl 0) rfl
        (.refl t s)
    · exact ((hwoken.waitEnds hwait).unmoved htu).turn rfl (.refl t s)
  | _ => exact Unmoved.turn ⟨rfl, rfl, rfl⟩ rfl (.refl t _)

theorem WaitChange.magic (h : WaitChange k k') (hm : (k.tasks t).magic = true) : (k'.tasks t).magic = true := by
  cases h with
  | keeps same => exact same.magic t hm
  | starts u w ticks starts => exact starts.magic t hm
  | ends u w result ends => exact ends.magic t hm

theorem Trace.magic {owed : Bool} (h : Trace cfg s owed s') (g : s.Good cfg) (hm : (s.kernel.tasks t).magic = true) :
    (s'.kernel.tasks t).magic = true := by
  induction h with
  | nil => exact hm
  | single ha => exact (ha.action.waitChange g).magic hm
  | cons ha _ ih => exact ih ha.good ((ha.action.waitChange g).magic hm)

theorem Trace.running {owed : Bool} (h : Trace cfg s owed s') (g : s.Good cfg)
    (hr : (s'.kernel.tasks t).state = .running) : (s.kernel.tasks t).state = .running := by
  induction h with
  | nil => exact hr
  | single ha => exact (ha.action.paced g).running t hr
  | cons ha _ ih => exact (ha.action.paced g).running t (ih ha.good hr)

theorem Trace.turn {owed : Bool} (h : Trace cfg s owed s') (g : s.Good cfg) (hm : (s.kernel.tasks t).magic = true)
    (hnot : (s.kernel.tasks t).state ≠ .running) : Turn t 0 s s' := by
  induction h with
  | nil => exact Unmoved.turn ⟨rfl, rfl, rfl⟩ rfl (.refl t _)
  | single ha => exact ha.action.turn g hm hnot
  | cons ha _ ih =>
    refine (ha.action.turn g hm hnot).trans (ih ha.good ((ha.action.waitChange g).magic hm) ?_)
    exact fun hr => hnot ((ha.action.paced g).running t hr)

theorem Turn.advance {timeoutList : TimeoutList TaskRef} (g : s.Good cfg) (hq : s.kernel.Quiet)
    (h : s.kernel.timeoutList.Ticked timeoutList) : Turn t 1 s (s.ticked timeoutList) := by
  cases hw : (s.kernel.tasks t).wait with
  | none => exact .idle hw hw rfl rfl (.refl t s)
  | some w => exact .kept w hw hw rfl (h.left g.kernel.timeouts hq t) rfl (.refl t s)

theorem Expiry.frame {order : List TaskRef} (h : Expiry cfg s order s') : s' = { s with kernel := s'.kernel } := by
  induction h with
  | nil => rfl
  | cons w k _ _ _ _ _ _ _ ih => rw [ih]

theorem Expiry.unmoved {order : List TaskRef} (h : Expiry cfg s order s') (ht : t ∉ order) :
    Unmoved t s.kernel s'.kernel := by
  induction h with
  | nil => exact ⟨rfl, rfl, rfl⟩
  | cons w k _ hwait hwoken _ _ _ _ ih =>
    obtain ⟨htu, hrest⟩ := not_or.mp (mt List.mem_cons.mpr ht)
    have h1 := (hwoken.waitEnds hwait).unmoved htu
    have h2 := ih hrest
    exact ⟨h2.wait.trans h1.wait, h2.result.trans h1.result, h2.left.trans h1.left⟩

theorem Expiry.completes {order : List TaskRef} (h : Expiry cfg s order s') (ht : t ∈ order) :
    ∃ w, (s.kernel.tasks t).wait = some w ∧ (s'.kernel.tasks t).wait = none ∧
      (s'.kernel.tasks t).waitResult = w.deadlineResult := by
  induction h with
  | nil => simp at ht
  | @cons s s' u rest w k hfirst hwait hwoken _ _ _ hnext ih =>
    by_cases htu : t = u
    · subst htu
      have hnodup := s.kernel.timeoutList.lists.nodup .expired
      rw [hfirst] at hnodup
      have hends := hwoken.waitEnds hwait
      have hlater := hnext.unmoved (List.nodup_cons.mp hnodup).1
      exact ⟨w, hwait, hlater.wait.trans hends.done, hlater.result.trans hends.waitResult⟩
    · obtain ⟨v, hv, hdone, hresult⟩ := ih (List.mem_of_ne_of_mem htu ht)
      exact ⟨v, (hwoken.wait_of_ne htu).symm.trans hv, hdone, hresult⟩

theorem Expiry.order {order : List TaskRef} (h : Expiry cfg s order s') :
    order = s.kernel.timeoutList.lists.seq .expired := by
  cases h with
  | nil hq => exact hq.symm
  | cons w k hfirst => exact hfirst.symm

theorem Kernel.Charged.unmoved (h : k.Charged k') : Unmoved t k k' := by
  have ha := h.bookkept.aside
  exact ⟨ha.sameWaits.wait t, by rw [ha.tasks t], by rw [ha.timeoutList]⟩

theorem Dispatched.unmoved (h : Dispatched k k') : Unmoved t k k' :=
  ⟨h.sameWaits.wait t, by rw [h.tasks t], by rw [h.timeoutList]⟩

def Op.ticks : Op → Nat
  | .tick => 1
  | _ => 0

theorem TickEffect.turn (h : TickEffect cfg s s') (g : s.Good cfg) (hq : s.kernel.Quiet)
    (hm : (s.kernel.tasks t).magic = true) (hnot : (s.kernel.tasks t).state ≠ .running) : Turn t 1 s s' := by
  obtain ⟨current, switchRequired, hticked, hgood, hexpiry, htimers, -⟩ := h
  obtain ⟨owed, htrace⟩ := hexpiry.trace
  have hexpired := htrace.turn hgood hm hnot
  have hserved := htimers.turn (htrace.good hgood) (htrace.magic hgood hm) (fun hr => hnot (htrace.running hgood hr))
  have hturn := (Turn.advance g hq hticked).trans (hexpired.trans hserved)
  exact hturn.trans (kernelTickEnd_charged _ _ _ _).unmoved.setKernel

theorem Stepped.turn {op : Op} (h : Stepped cfg s op s') (g : s.Good cfg) (hop : op ≠ .tick)
    (hm : (s.kernel.tasks t).magic = true) (hnot : (s.kernel.tasks t).state ≠ .running) : Turn t 0 s s' := by
  cases h with
  | refused op => exact Unmoved.turn ⟨rfl, rfl, rfl⟩ rfl (.refl t _)
  | acts op htrace => exact htrace.turn g hm hnot
  | lock m timeout s' outcome heffect hgood => exact heffect.turn g hm hnot
  | isr c honoured s₁ k htrace hcalm => exact (htrace.turn g hm hnot).trans hcalm.charged.unmoved.setKernel
  | tick => exact absurd rfl hop
  | pendsv current next => exact (s.kernel.dispatched_rotate_switch current next).unmoved.setKernel
  | start next => exact (s.kernel.dispatched_start next).unmoved.setKernel

theorem step_turn (hs : s.Steady cfg) (hk : s.kernel.state = .running) (hm : (s.kernel.tasks t).magic = true)
    (hnot : (s.kernel.tasks t).state ≠ .running) (op : Op) : Turn t op.ticks s (step cfg s op) := by
  by_cases hop : op = .tick
  · subst hop
    exact (kernelTickFromIsr_effect hs.good hs.quiet hk).turn hs.good hs.quiet hm hnot
  · have hticks : op.ticks = 0 := by cases op <;> first | rfl | exact absurd rfl hop
    rw [hticks]
    exact (hs.stepped op).turn hs.good hop hm hnot

theorem Turn.of_done (h : Turn t n s s') (hw : (s.kernel.tasks t).wait = none) :
    (s'.kernel.tasks t).wait = none ∧ (s'.kernel.tasks t).waitResult = (s.kernel.tasks t).waitResult ∧
      s'.eventsOf t = s.eventsOf t ∧ SameOwned t s s' := by
  cases h with
  | idle _ after result events owned => exact ⟨after, result, events, owned⟩
  | kept _ before => simp [hw] at before
  | granted _ _ before => simp [hw] at before
  | expired _ _ before => simp [hw] at before

theorem TickEffect.completes (h : TickEffect cfg s s') (hq : s.kernel.Quiet) (hm : (s.kernel.tasks t).magic = true)
    (hnot : (s.kernel.tasks t).state ≠ .running) (hw : (s.kernel.tasks t).wait = some w)
    (hleft : s.kernel.timeoutList.left t = some 1) :
    (s'.kernel.tasks t).wait = none ∧ (s'.kernel.tasks t).waitResult = w.deadlineResult ∧
      s'.eventsOf t = s.eventsOf t ∧ SameOwned t s s' := by
  obtain @⟨timeoutList, order, s₂, s₃, _, current, switchRequired, hticked, hgood, hexpiry, htimers, -⟩ := h
  obtain ⟨owed, htrace⟩ := hexpiry.trace
  have hdue := (hticked.expired t).mpr (TimeoutList.left_eq_some hleft (s.kernel.quiet_iff.mp hq t))
  obtain ⟨v, hv, hdone, hresult⟩ := hexpiry.completes (t := t) (by
    rw [hexpiry.order]
    exact ((s.ticked _).kernel.timeoutList.lists.mem_seq _ _).mpr hdue)
  obtain rfl : w = v := Option.some.inj (hw.symm.trans hv)
  obtain ⟨h1, h2, h3, h4⟩ := (htimers.turn (htrace.good hgood) (htrace.magic hgood hm)
    (fun hr => hnot (htrace.running hgood hr))).of_done hdone
  have hcharged := (kernelTickEnd_charged cfg s₃.kernel current switchRequired).unmoved (t := t)
  have hframe := hexpiry.frame
  refine ⟨hcharged.wait.trans h1, (hcharged.result.trans h2).trans hresult, h3.trans ?_, SameOwned.trans ?_ h4⟩
  · rw [hframe]
    rfl
  · rw [hframe]
    exact .refl t s

theorem TickEffect.running (h : TickEffect cfg s s') (hr : (s'.kernel.tasks t).state = .running) :
    (s.kernel.tasks t).state = .running := by
  obtain ⟨current, switchRequired, hticked, hgood, hexpiry, htimers, -⟩ := h
  obtain ⟨owed, htrace⟩ := hexpiry.trace
  rw [(kernelTickEnd_charged _ _ _ _).bookkept.taskState] at hr
  exact htrace.running hgood (htimers.running (htrace.good hgood) hr)

theorem Kernel.Sound.ready_or_suspended (g : k.Sound cfg) (hreg : (k.view t).registered = true)
    (hw : (k.tasks t).wait = none) (hnot : (k.tasks t).state ≠ .running) :
    (k.tasks t).state = .ready ∨ (k.tasks t).state = .suspended ∧ (k.tasks t).suspendedResumeState = .ready := by
  have hshape := g.shape t
  have hwaiting : (k.tasks t).isWaiting ≠ true := fun hb => hshape.waiting.mpr hb hw
  obtain ⟨hvalid, hcreated⟩ := hshape.registered.mp hreg
  cases hs : (k.tasks t).state with
  | ready => exact Or.inl rfl
  | suspended =>
    rcases hshape.resumes hs with hr | hr
    · exact Or.inr ⟨rfl, hr⟩
    · have hr' : (k.tasks t).suspendedResumeState = .blocked := hr
      simp [TaskControlBlock.isWaiting, hs, hr'] at hwaiting
  | invalid => exact absurd hs hvalid
  | created => exact absurd hs hcreated
  | running => exact absurd hs hnot
  | blocked => simp [TaskControlBlock.isWaiting, hs] at hwaiting

theorem Move.started (h : Move cfg s s') (hk : s.kernel.state = .running) : s'.kernel.state = .running := by
  cases h with
  | act ha => exact ha.action.sameRun.state.trans hk
  | lock m timeout s' outcome heffect => exact heffect.sameRun.state.trans hk
  | advance => exact hk
  | charge k hcharged => exact hcharged.bookkept.control.state.trans hk
  | dispatch current next => exact hk
  | start next hstate => exact absurd (hk.symm.trans hstate) (by simp)

theorem Move.registered (h : Move cfg s s') (hr : (s.kernel.view t).registered = true) :
    (s'.kernel.view t).registered = true := by
  cases h with
  | act ha => exact ha.action.sameRun.registered t hr
  | lock m timeout s' outcome heffect => exact heffect.sameRun.registered t hr
  | charge k hcharged => exact hcharged.bookkept.control.sameRun.registered t hr
  | _ => exact hr

theorem exec_append (cfg : Config) (s : System) (xs ys : List Op) :
    exec cfg s (xs ++ ys) = exec cfg (exec cfg s xs) ys := List.foldl_append

structure Watched (cfg : Config) (t : TaskRef) (s : System) : Prop where
  steady : s.Steady cfg
  started : s.kernel.state = .running
  registered : (s.kernel.view t).registered = true

theorem Watched.magic (h : Watched cfg t s) : (s.kernel.tasks t).magic = true :=
  (h.steady.good.kernel.shape t).magic_of_registered h.registered

theorem Kernel.Runs.watched (hs : s.Steady cfg) (hruns : s.kernel.Runs t) : Watched cfg t s :=
  ⟨hs, hruns.state, (hs.good.kernel.shape t).registered_of_isReady
    (by simp [Kernel.view, hruns.running, TaskState.isReady])⟩

theorem Watched.step (h : Watched cfg t s) (op : Op) : Watched cfg t (Hairtos.step cfg s op) := by
  have hmoves := (h.steady.stepped op).moves
  exact ⟨h.steady.step op, (moves_keep hmoves (fun _ _ _ hm => hm.started) h.steady.good h.started).2,
    (moves_keep hmoves (fun _ _ _ hm => hm.registered) h.steady.good h.registered).2⟩

theorem Watched.exec (h : Watched cfg t s) (ops : List Op) : Watched cfg t (Hairtos.exec cfg s ops) := by
  induction ops generalizing s with
  | nil => exact h
  | cons op ops ih => exact ih (h.step op)

theorem Watched.turn (h : Watched cfg t s) (hnot : (s.kernel.tasks t).state ≠ .running) (op : Op) :
    Turn t op.ticks s (Hairtos.step cfg s op) := step_turn h.steady h.started h.magic hnot op

def ticksIn (ops : List Op) : Nat := (ops.map Op.ticks).sum

theorem ticksIn_append (xs ys : List Op) : ticksIn (xs ++ ys) = ticksIn xs + ticksIn ys := by
  simp [ticksIn]

def Absent (cfg : Config) (t : TaskRef) (s : System) (ops : List Op) : Prop :=
  ∀ xs op ys, ops = xs ++ op :: ys → ((exec cfg s xs).kernel.tasks t).state ≠ .running

theorem absent_iff {ops : List Op} :
    Absent cfg t s ops ↔ ∀ n < ops.length, ((exec cfg s (ops.take n)).kernel.tasks t).state ≠ .running := by
  constructor
  · intro h n hn
    exact h (ops.take n) (ops.get ⟨n, hn⟩) (ops.drop (n + 1)) (by simp)
  · rintro h xs op ys rfl
    have hx := h xs.length (by simp)
    rwa [List.take_left] at hx

instance decidableAbsent (cfg : Config) (t : TaskRef) (s : System) (ops : List Op) : Decidable (Absent cfg t s ops) :=
  decidable_of_iff _ absent_iff.symm

theorem Absent.append {xs ys : List Op} (h : Absent cfg t s (xs ++ ys)) :
    Absent cfg t s xs ∧ Absent cfg t (exec cfg s xs) ys := by
  refine ⟨fun as op bs he => h as op (bs ++ ys) (by simp [he]), fun as op bs he => ?_⟩
  rw [← exec_append]
  exact h (xs ++ as) op bs (by simp [he])

theorem Watched.exec_turn (h : Watched cfg t s) {ops : List Op} (hnot : Absent cfg t s ops) :
    Turn t (ticksIn ops) s (Hairtos.exec cfg s ops) := by
  induction ops generalizing s with
  | nil => exact Unmoved.turn ⟨rfl, rfl, rfl⟩ rfl (.refl t s)
  | cons op ops ih =>
    have hfirst := h.turn (hnot [] op ops rfl) op
    have hrest := ih (h.step op) (fun xs o ys he => hnot (op :: xs) o ys (by simp [he]))
    have hticks : ticksIn (op :: ops) = op.ticks + ticksIn ops := by simp [ticksIn]
    rw [hticks]
    exact hfirst.trans hrest

end

end Hairtos

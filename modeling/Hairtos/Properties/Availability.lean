import Hairtos.Invariant.Run

namespace Hairtos

open Library

variable {t : TaskRef} {w : Wait} {timeout : Tick} {q : QueueRef}

def Wait.Unserved (s : System) : Wait → Prop
  | .queueSend q _ => (s.queues q).magic = true ∧ (s.queues q).count = (s.queues q).capacity
  | .queueReceive q _ => (s.queues q).magic = true ∧ (s.queues q).count = 0
  | .semaphoreTake x => (s.semaphores x).magic = true ∧ (s.semaphores x).count = 0
  | _ => True

def System.Unserved (s : System) : Prop := ∀ u w, (s.kernel.tasks u).wait = some w → w.Unserved s

section

variable {cfg : Config} {s s' : System}

theorem System.Unserved.update (h : s.Unserved)
    (hwaits : ∀ u w, (s'.kernel.tasks u).wait = some w → (s.kernel.tasks u).wait = some w ∨ w.Unserved s')
    (hobjects : ∀ u w, (s.kernel.tasks u).wait = some w → w.Unserved s → w.Unserved s') : s'.Unserved := by
  intro u w hw
  rcases hwaits u w hw with hw | hw
  · exact hobjects u w hw (h u w hw)
  · exact hw

theorem System.Unserved.kernel (h : s.Unserved) (hqueues : s'.queues = s.queues)
    (hsemaphores : s'.semaphores = s.semaphores)
    (hwaits : ∀ u w, (s'.kernel.tasks u).wait = some w → (s.kernel.tasks u).wait = some w ∨ w.Unserved s') :
    s'.Unserved := by
  refine h.update hwaits ?_
  intro u w _ hw
  have hsame : w.Unserved s' ↔ w.Unserved s := by
    cases w <;> simp only [Wait.Unserved, hqueues, hsemaphores]
  exact hsame.mpr hw

theorem SameWaits.unserved (hs : SameWaits s.kernel s'.kernel) (h : s.Unserved) (hqueues : s'.queues = s.queues)
    (hsemaphores : s'.semaphores = s.semaphores) : s'.Unserved := by
  refine h.kernel hqueues hsemaphores ?_
  intro u w hw
  rw [hs.wait u] at hw
  exact Or.inl hw

theorem WaitEnds.waits {k k' : Kernel} {v : Wait} {result : Status} (h : WaitEnds k t w result k')
    {u : TaskRef} (hv : (k'.tasks u).wait = some v) : (k.tasks u).wait = some v := by
  by_cases hu : u = t
  · rw [hu, h.done] at hv
    simp at hv
  · rwa [h.others u hu] at hv

theorem WaitEnds.unserved {result : Status} (he : WaitEnds s.kernel t w result s'.kernel)
    (h : s.Unserved) (hqueues : s'.queues = s.queues) (hsemaphores : s'.semaphores = s.semaphores) : s'.Unserved :=
  h.kernel hqueues hsemaphores (fun _ _ hv => Or.inl (he.waits hv))

theorem WaitStarts.unserved (s' : System) {ticks : Option Tick}
    (hs : WaitStarts s.kernel t w ticks s'.kernel) (h : s.Unserved) (hqueues : s'.queues = s.queues)
    (hsemaphores : s'.semaphores = s.semaphores) (hw : w.Unserved s') : s'.Unserved := by
  refine h.kernel hqueues hsemaphores ?_
  intro u v hv
  by_cases hu : u = t
  · rw [hu, hs.wait] at hv
    obtain rfl := Option.some.inj hv
    exact Or.inr hw
  · rw [hs.others u hu] at hv
    exact Or.inl hv

theorem GiveEffect.unserved {x : SemaphoreRef} {woken : Bool} {status : Status}
    (he : GiveEffect cfg s x s' woken status) (g : s.Good cfg) (h : s.Unserved) : s'.Unserved := by
  cases he with
  | served u k _ hwait hgranted => exact (hgranted.woken.waitEnds hwait).unserved h rfl rfl
  | counted hnone hspace =>
    refine h.update (fun u w hw => Or.inl hw) ?_
    intro u w hw hun
    have hne := not_waiting_of_peek g.kernel.toSound hnone hw
    cases w with
    | semaphoreTake y =>
      have hyx : y ≠ x := fun hy => hne (by rw [hy]; rfl)
      simpa [Wait.Unserved, System.updateSemaphore, System.record, hyx] using hun
    | _ => exact hun
  | full => exact h

theorem TakeEffect.unserved {x : SemaphoreRef} {caller : Option TaskRef} {outcome : Outcome}
    (he : TakeEffect cfg s x timeout caller s' outcome) (h : s.Unserved) : s'.Unserved := by
  cases he with
  | counted havailable =>
    refine h.update (fun u w hw => Or.inl hw) ?_
    intro u w hw hun
    cases w with
    | semaphoreTake y =>
      have hyx : y ≠ x := by
        rintro rfl
        have := hun.2
        omega
      simpa [Wait.Unserved, System.updateSemaphore, System.record, hyx] using hun
    | _ => exact hun
  | waits t hruns hm hcount hfinite =>
    have hstarts := (Kernel.startWait_starts cfg (.semaphoreTake x) hruns
      (timeoutTicks_spec hfinite)).aside (Kernel.calm_requestContextSwitch _).bookkept.aside
    exact WaitStarts.unserved ({ s with kernel := _ }) hstarts h rfl rfl ⟨hm, hcount⟩

theorem System.Unserved.updateQueue (h : s.Unserved)
    (hqueues : ∀ p, p ≠ q → s'.queues p = s.queues p) (hsemaphores : s'.semaphores = s.semaphores)
    (hwaits : ∀ u w, (s'.kernel.tasks u).wait = some w → (s.kernel.tasks u).wait = some w)
    (hsend : ∀ u b, (s.kernel.tasks u).wait = some (.queueSend q b) →
      (s'.queues q).magic = (s.queues q).magic ∧ (s'.queues q).count = (s.queues q).count ∧
        (s'.queues q).capacity = (s.queues q).capacity)
    (hreceive : ∀ u b, (s.kernel.tasks u).wait ≠ some (.queueReceive q b)) : s'.Unserved := by
  refine h.update (fun u w hw => Or.inl (hwaits u w hw)) ?_
  intro u w hw hun
  cases w with
  | queueSend p b =>
    by_cases hp : p = q
    · subst hp
      obtain ⟨hm, hc, hcap⟩ := hsend u b hw
      simpa [Wait.Unserved, hm, hc, hcap] using hun
    · simpa [Wait.Unserved, hqueues p hp] using hun
  | queueReceive p b =>
    have hp : p ≠ q := by
      rintro rfl
      exact hreceive u b hw
    simpa [Wait.Unserved, hqueues p hp] using hun
  | semaphoreTake x => simpa [Wait.Unserved, hsemaphores] using hun
  | delay => exact hun
  | mutexLock m => exact hun

theorem System.updateQueue_of_ne {p : QueueRef} (f : QueueControlBlock → QueueControlBlock) (hp : p ≠ q) :
    (s.updateQueue q f).queues p = s.queues p := by
  simp [System.updateQueue, hp]

theorem SendEffect.unserved {item : BufferRef} {sender : Option TaskRef}
    {r : QueueResult} (he : SendEffect cfg s q item timeout sender r) (g : s.Good cfg)
    (hvalid : queueIsValid s q = true) (h : s.Unserved) : r.system.Unserved := by
  cases he with
  | served u b k _ hwait hgranted =>
    exact WaitEnds.unserved (hgranted.woken.waitEnds hwait) h rfl rfl
  | stored hnone hspace =>
    refine h.updateQueue (q := q) ?_ rfl (fun _ _ hw => hw) ?_ ?_
    · intro p hp
      simp [queueEnqueue, System.record, System.updateQueue, hp]
    · intro u b hw
      have hfull : (s.queues q).count = (s.queues q).capacity := (h u _ hw).2
      omega
    · intro u b hw
      exact not_waiting_of_peek g.kernel.toSound hnone hw rfl
  | waits t hruns hm hnone hspace hfinite =>
    have hstarts := Kernel.startWait_starts cfg (.queueSend q item) hruns (timeoutTicks_spec hfinite)
    refine WaitStarts.unserved ({ s with kernel := _ }) hstarts h rfl rfl ⟨hm, ?_⟩
    exact le_antisymm (count_le_of_valid hvalid) hspace
  | full => exact h

theorem capacity_pos_of_valid (h : queueIsValid s q = true) : 0 < (s.queues q).capacity := by
  simp only [queueIsValid, Bool.and_eq_true, decide_eq_true_eq] at h
  exact h.1.1.1.2

theorem ReceiveEffect.unserved {item : BufferRef} {receiver : Option TaskRef}
    {r : QueueResult} (he : ReceiveEffect cfg s q item timeout receiver r) (g : s.Good cfg)
    (hvalid : queueIsValid s q = true) (h : s.Unserved) : r.system.Unserved := by
  have hnot : 0 < (s.queues q).count → ∀ u b, (s.kernel.tasks u).wait ≠ some (.queueReceive q b) := by
    intro hpos u b hw
    have hempty : (s.queues q).count = 0 := (h u _ hw).2
    omega
  cases he with
  | taken havailable hnone =>
    refine h.updateQueue (q := q) ?_ rfl (fun _ _ hw => hw) ?_ (hnot havailable)
    · intro p hp
      simp [queueDequeue, System.record, System.updateQueue, hp]
    · intro u b hw
      exact absurd rfl (not_waiting_of_peek g.kernel.toSound hnone hw)
  | refilled u b k havailable hpeek hwait hgranted =>
    refine h.updateQueue (q := q) ?_ rfl (fun v w hw => (hgranted.woken.waitEnds hwait).waits hw) ?_ (hnot havailable)
    · intro p hp
      simp [queueEnqueue, queueDequeue, System.record, System.updateQueue, hp]
    · intro v c _
      simp [queueEnqueue, queueDequeue, System.record, System.updateQueue, Nat.sub_add_cancel havailable]
  | direct u b k hcount hpeek hwait hgranted =>
    have hfull : (s.queues q).count = (s.queues q).capacity := (h u _ hwait).2
    have := capacity_pos_of_valid hvalid
    omega
  | waits t hruns hm hcount hnone hfinite =>
    have hstarts := Kernel.startWait_starts cfg (.queueReceive q item) hruns (timeoutTicks_spec hfinite)
    exact WaitStarts.unserved ({ s with kernel := _ }) hstarts h rfl rfl ⟨hm, hcount⟩
  | empty => exact h

theorem System.Unserved.created (h : s.Unserved) (hm : (s.queues q).magic = false)
    (f : QueueControlBlock → QueueControlBlock) : (s.updateQueue q f).Unserved := by
  refine h.updateQueue (q := q) (fun p hp => System.updateQueue_of_ne _ hp) rfl (fun _ _ hw => hw) ?_ ?_
  all_goals
    intro u b hw
    have hmagic : (s.queues q).magic = true := (h u _ hw).1
    simp [hm] at hmagic

theorem Acts.unserved {owed : Bool} (ha : Acts cfg s owed s') (g : s.Good cfg) (h : s.Unserved) : s'.Unserved := by
  have hkernel : ∀ {a : System} {k : Kernel}, a.Unserved → a.kernel.Calm k → { a with kernel := k }.Unserved :=
    fun ha hcalm => hcalm.bookkept.aside.sameWaits.unserved ha rfl rfl
  obtain ⟨haction, -⟩ := ha
  cases haction with
  | createQueue q storage itemSize capacity hfresh => exact h.created hfresh _
  | createSemaphore x count maxCount hfresh =>
    refine h.update (fun u w hw => Or.inl hw) ?_
    intro u w hw hun
    cases w with
    | semaphoreTake y =>
      have hyx : y ≠ x := by
        rintro rfl
        have := hun.1
        simp [hfresh] at this
      simpa [Wait.Unserved, System.updateSemaphore, System.record, hyx] using hun
    | _ => exact hun
  | give x s₁ woken status k owed hvalid heffect hcalm => exact hkernel (heffect.unserved g h) hcalm
  | take x timeout s₁ outcome hcaller hvalid heffect => exact heffect.unserved h
  | send q item timeout sender r k owed hcaller hvalid heffect hcalm =>
    exact hkernel (heffect.unserved g hvalid h) hcalm
  | receive q item timeout receiver r k owed hcaller hvalid heffect hcalm =>
    exact hkernel (heffect.unserved g hvalid h) hcalm
  | unlock m t s₁ hruns howner heffect =>
    have hqueues : s'.queues = s.queues := by cases heffect <;> rfl
    have hsemaphores : s'.semaphores = s.semaphores := by cases heffect <;> rfl
    rcases heffect.keeps_or_ends with ⟨hsame, -⟩ | ⟨u, hends, -⟩
    · exact hsame.unserved h hqueues hsemaphores
    · exact hends.unserved h hqueues hsemaphores
  | calm k timers service anchors hcalm => exact hcalm.bookkept.aside.sameWaits.unserved h rfl rfl
  | write b content => exact h.kernel rfl rfl (fun _ _ hw => Or.inl hw)
  | createTask t priority hfresh => exact (g.kernel.create_sameWaits hfresh priority).unserved h rfl rfl
  | startTask t hstate hcreated => exact (s.kernel.register_sameWaits t).unserved h rfl rfl
  | createMutex m recursive hfresh => exact h.kernel rfl rfl (fun _ _ hw => Or.inl hw)
  | delay t ticks anchors hruns hpositive hfinite =>
    have hstarts : WaitStarts s.kernel t .delay (some ticks)
        (requestContextSwitch (s.kernel.startWait cfg t .delay (some ticks))) := by
      refine (Kernel.startWait_starts cfg _ hruns ?_).aside (Kernel.calm_requestContextSwitch _).bookkept.aside
      rintro _ ⟨⟩
      exact ⟨hpositive, hfinite⟩
    exact WaitStarts.unserved _ hstarts h rfl rfl trivial
  | suspend t k hstate hidle hcalm =>
    exact ((s.kernel.suspend_sameWaits t).trans hcalm.bookkept.aside.sameWaits).unserved h rfl rfl
  | resume t k hstate hidle hcalm =>
    exact ((s.kernel.resume_sameWaits t).trans hcalm.bookkept.aside.sameWaits).unserved h rfl rfl
  | expire t w k hdue hwait hwoken => exact (hwoken.waitEnds hwait).unserved h rfl rfl

theorem LockEffect.unserved {m : MutexRef} {outcome : Outcome}
    (he : LockEffect cfg s m timeout s' outcome) (h : s.Unserved) : s'.Unserved := by
  have hqueues : s'.queues = s.queues := by cases he <;> rfl
  have hsemaphores : s'.semaphores = s.semaphores := by cases he <;> rfl
  rcases he.keeps_or_starts with hsame | ⟨t, hstarts⟩ | ⟨t, k, hstarts, hends⟩
  · exact hsame.unserved h hqueues hsemaphores
  · exact WaitStarts.unserved _ hstarts h hqueues hsemaphores trivial
  · have hwaiting : { s' with kernel := k }.Unserved :=
      WaitStarts.unserved _ (w := .mutexLock m) hstarts h hqueues hsemaphores trivial
    exact hends.unserved hwaiting rfl rfl

theorem Move.unserved (hm : Move cfg s s') (g : s.Good cfg) (h : s.Unserved) : s'.Unserved := by
  cases hm with
  | act hacts => exact hacts.unserved g h
  | lock m timeout s' outcome heffect => exact heffect.unserved h
  | advance timeoutList => exact h.kernel rfl rfl (fun _ _ hw => Or.inl hw)
  | charge k hcharged => exact hcharged.bookkept.aside.sameWaits.unserved h rfl rfl
  | dispatch current next => exact (s.kernel.dispatched_rotate_switch current next).sameWaits.unserved h rfl rfl
  | start next => exact (s.kernel.dispatched_start next).sameWaits.unserved h rfl rfl

theorem exec_unserved (cfg : Config) (ops : List Op) : (exec cfg (boot cfg) ops).Unserved := by
  refine (boot_steady cfg).exec_keeps (fun a b g hm => hm.unserved g) ?_ ops
  intro u w hw
  simp [boot_wait] at hw

theorem Kernel.Sound.mem_waitList {k : Kernel} (g : k.Sound cfg) {u : TaskRef} {l : WaitListRef} :
    u ∈ k.waitLists.lists.seq l ↔ ∃ w, (k.tasks u).wait = some w ∧ w.waitList = some l := by
  have hhost : k.waitLists.lists.host u = (k.tasks u).wait.bind Wait.waitList := (g.shape u).waitHost_eq
  rw [k.waitLists.lists.mem_seq, hhost, Option.bind_eq_some_iff]

end

/-- In every state of a run: whoever waits to receive finds the queue empty and nobody waiting to send,
whoever waits to send finds it full, whoever waits for a semaphore finds its count 0, and whoever
waits for a mutex finds it owned. So no receiver meets a waiting sender of an empty queue. -/
theorem waiters_unserved (cfg : Config) (ops : List Op) :
    let s := exec cfg (boot cfg) ops
    let waiters := s.kernel.waitLists.lists.seq
    (∀ q, waiters (.queueReceive q) ≠ [] → (s.queues q).count = 0 ∧ waiters (.queueSend q) = []) ∧
    (∀ q, waiters (.queueSend q) ≠ [] → (s.queues q).count = (s.queues q).capacity ∧
      (s.queues q).count ≠ 0) ∧
    (∀ x, waiters (.semaphore x) ≠ [] → (s.semaphores x).count = 0) ∧
    (∀ m, waiters (.mutex m) ≠ [] → (s.mutexes.blocks m).owner ≠ none) := by
  have hs := (boot_steady cfg).exec ops
  have hun := exec_unserved cfg ops
  have g := hs.good.kernel.toSound
  have hfirst : ∀ l, (exec cfg (boot cfg) ops).kernel.waitLists.lists.seq l ≠ [] → ∃ u w,
      ((exec cfg (boot cfg) ops).kernel.tasks u).wait = some w ∧ w.waitList = some l := by
    intro l hl
    obtain ⟨u, hu⟩ := List.exists_mem_of_ne_nil _ hl
    exact ⟨u, g.mem_waitList.mp hu⟩
  have hsend : ∀ q, (exec cfg (boot cfg) ops).kernel.waitLists.lists.seq (.queueSend q) ≠ [] →
      ((exec cfg (boot cfg) ops).queues q).count = ((exec cfg (boot cfg) ops).queues q).capacity ∧
        ((exec cfg (boot cfg) ops).queues q).count ≠ 0 := by
    intro q hq
    obtain ⟨u, w, hw, hl⟩ := hfirst _ hq
    cases w <;> simp only [Wait.waitList, Option.some.injEq, WaitListRef.queueSend.injEq, reduceCtorEq] at hl
    subst hl
    obtain ⟨hm, hfull⟩ := hun u _ hw
    have hpos := capacity_pos_of_valid (hs.good.queues _ hm)
    exact ⟨hfull, by omega⟩
  refine ⟨?_, hsend, ?_, ?_⟩
  · intro q hq
    obtain ⟨u, w, hw, hl⟩ := hfirst _ hq
    cases w <;> simp only [Wait.waitList, Option.some.injEq, WaitListRef.queueReceive.injEq, reduceCtorEq] at hl
    subst hl
    have hempty := (hun u _ hw).2
    refine ⟨hempty, ?_⟩
    by_contra hne
    exact (hsend _ hne).2 hempty
  · intro x hx
    obtain ⟨u, w, hw, hl⟩ := hfirst _ hx
    cases w <;> simp only [Wait.waitList, Option.some.injEq, WaitListRef.semaphore.injEq, reduceCtorEq] at hl
    subst hl
    exact (hun u _ hw).2
  · intro m hm
    obtain ⟨u, w, hw, hl⟩ := hfirst _ hm
    cases w <;> simp only [Wait.waitList, Option.some.injEq, WaitListRef.mutex.injEq, reduceCtorEq] at hl
    subst hl
    exact (hs.good.owners.waited u _ hw).1

end Hairtos

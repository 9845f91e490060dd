import Hairtos.Invariant.Mutex

namespace Hairtos

open Library

variable {q : QueueRef} {item : BufferRef} {timeout : Tick} {k : Kernel} {w : Wait} {u : TaskRef} {v : TaskView}

structure Granted (cfg : Config) (k : Kernel) (u : TaskRef) (k' : Kernel) : Prop where
  woken : Woken cfg k u .ok k'
  effective : ∀ v, (k'.tasks v).effectivePriority = (k.tasks v).effectivePriority
  waitLists : k'.waitLists = { k.waitLists with lists := k.waitLists.lists.unlink u }
  queues : k.Requeued (· = u) k'

def preemptsCurrent (k : Kernel) (u : TaskRef) (k' : Kernel) : Bool :=
  decide ((k.tasks u).state ≠ .suspended) && kernelOutranksCurrent k' u

inductive GiveEffect (cfg : Config) (s : System) (x : SemaphoreRef) : System → Bool → Status → Prop
  | served (u : TaskRef) (k : Kernel) (first : waitListPeek s.kernel.waitLists (.semaphore x) = some u)
      (wait : (s.kernel.tasks u).wait = some (.semaphoreTake x)) (granted : Granted cfg s.kernel u k) :
      GiveEffect cfg s x ({ s with kernel := k }.record [.given x, .taken x (some u)])
        (preemptsCurrent s.kernel u k) .ok
  | counted (unwanted : waitListPeek s.kernel.waitLists (.semaphore x) = none)
      (space : (s.semaphores x).count < (s.semaphores x).maxCount) :
      GiveEffect cfg s x ((s.updateSemaphore x (fun cb => { cb with count := cb.count + 1 })).record [.given x])
        false .ok
  | full (unwanted : waitListPeek s.kernel.waitLists (.semaphore x) = none)
      (space : (s.semaphores x).maxCount ≤ (s.semaphores x).count) : GiveEffect cfg s x s false .semaphoreFull

inductive TakeEffect (cfg : Config) (s : System) (x : SemaphoreRef) (timeout : Tick) (caller : Option TaskRef) :
    System → Outcome → Prop
  | counted (available : 0 < (s.semaphores x).count) :
      TakeEffect cfg s x timeout caller
        ((s.updateSemaphore x (fun cb => { cb with count := cb.count - 1 })).record [.taken x caller]) (.returned .ok)
  | waits (t : TaskRef) (runs : s.kernel.Runs t) (magic : (s.semaphores x).magic = true)
      (unavailable : (s.semaphores x).count = 0) (finite : timeout ≠ noWait) :
      TakeEffect cfg s x timeout caller
        { s with
          kernel := requestContextSwitch (s.kernel.startWait cfg t (.semaphoreTake x) (timeoutTicks timeout)) }
        .blocked

inductive SendEffect (cfg : Config) (s : System) (q : QueueRef) (item : BufferRef) (timeout : Tick)
    (sender : Option TaskRef) : QueueResult → Prop
  | served (u : TaskRef) (b : BufferRef) (k : Kernel)
      (first : waitListPeek s.kernel.waitLists (.queueReceive q) = some u)
      (wait : (s.kernel.tasks u).wait = some (.queueReceive q b)) (granted : Granted cfg s.kernel u k) :
      SendEffect cfg s q item timeout sender
        ⟨{ (s.copyBuffer b item (s.queues q).itemSize).record
              [.accepted q sender (itemBytes (s.memory item) 0 (s.queues q).itemSize),
                .delivered q (some u) (itemBytes (s.memory item) 0 (s.queues q).itemSize)] with kernel := k },
          false, preemptsCurrent s.kernel u k, .ok⟩
  | stored (unwanted : waitListPeek s.kernel.waitLists (.queueReceive q) = none)
      (space : (s.queues q).count < (s.queues q).capacity) :
      SendEffect cfg s q item timeout sender
        ⟨(queueEnqueue s q item).record [.accepted q sender (itemBytes (s.memory item) 0 (s.queues q).itemSize)],
          false, false, .ok⟩
  | waits (t : TaskRef) (runs : s.kernel.Runs t) (magic : (s.queues q).magic = true)
      (unwanted : waitListPeek s.kernel.waitLists (.queueReceive q) = none)
      (space : (s.queues q).capacity ≤ (s.queues q).count) (finite : timeout ≠ noWait) :
      SendEffect cfg s q item timeout sender
        ⟨{ s with kernel := s.kernel.startWait cfg t (.queueSend q item) (timeoutTicks timeout) }, true, false, .ok⟩
  | full (unwanted : waitListPeek s.kernel.waitLists (.queueReceive q) = none)
      (space : (s.queues q).capacity ≤ (s.queues q).count) (polls : timeout = noWait) :
      SendEffect cfg s q item timeout sender ⟨s, false, false, .queueFull⟩

def queueFront (queue : QueueControlBlock) : List UInt8 :=
  itemBytes queue.storage (queueSlot queue queue.head) queue.itemSize

inductive ReceiveEffect (cfg : Config) (s : System) (q : QueueRef) (item : BufferRef) (timeout : Tick)
    (receiver : Option TaskRef) : QueueResult → Prop
  | taken (available : 0 < (s.queues q).count)
      (unwanted : waitListPeek s.kernel.waitLists (.queueSend q) = none) :
      ReceiveEffect cfg s q item timeout receiver
        ⟨(queueDequeue s q item).record [.delivered q receiver (queueFront (s.queues q))], false, false, .ok⟩
  | refilled (u : TaskRef) (b : BufferRef) (k : Kernel) (available : 0 < (s.queues q).count)
      (first : waitListPeek s.kernel.waitLists (.queueSend q) = some u)
      (wait : (s.kernel.tasks u).wait = some (.queueSend q b)) (granted : Granted cfg s.kernel u k) :
      ReceiveEffect cfg s q item timeout receiver
        ⟨{ ((queueEnqueue ((queueDequeue s q item).record [.delivered q receiver (queueFront (s.queues q))])
          q b).record
              [.accepted q (some u) (itemBytes ((queueDequeue s q item).memory b) 0 (s.queues q).itemSize)]) with
            kernel := k },
          false, preemptsCurrent s.kernel u k, .ok⟩
  | direct (u : TaskRef) (b : BufferRef) (k : Kernel) (unavailable : (s.queues q).count = 0)
      (first : waitListPeek s.kernel.waitLists (.queueSend q) = some u)
      (wait : (s.kernel.tasks u).wait = some (.queueSend q b)) (granted : Granted cfg s.kernel u k) :
      ReceiveEffect cfg s q item timeout receiver
        ⟨{ (s.copyBuffer item b (s.queues q).itemSize).record
              [.accepted q (some u) (itemBytes (s.memory b) 0 (s.queues q).itemSize),
                .delivered q receiver (itemBytes (s.memory b) 0 (s.queues q).itemSize)] with kernel := k },
          false, preemptsCurrent s.kernel u k, .ok⟩
  | waits (t : TaskRef) (runs : s.kernel.Runs t) (magic : (s.queues q).magic = true)
      (unavailable : (s.queues q).count = 0)
      (unwanted : waitListPeek s.kernel.waitLists (.queueSend q) = none) (finite : timeout ≠ noWait) :
      ReceiveEffect cfg s q item timeout receiver
        ⟨{ s with kernel := s.kernel.startWait cfg t (.queueReceive q item) (timeoutTicks timeout) }, true,
          false, .ok⟩
  | empty (unavailable : (s.queues q).count = 0)
      (unwanted : waitListPeek s.kernel.waitLists (.queueSend q) = none) (polls : timeout = noWait) :
      ReceiveEffect cfg s q item timeout receiver ⟨s, false, false, .queueEmpty⟩

inductive Transfer (cfg : Config) (k : Kernel) (l : WaitListRef) (w : Wait) (timeout : Tick) :
    Bool → Bool → Kernel → Prop
  | same (unwanted : waitListPeek k.waitLists l = none) : Transfer cfg k l w timeout false false k
  | served (u : TaskRef) (w' : Wait) (k' : Kernel) (first : waitListPeek k.waitLists l = some u)
      (wait : (k.tasks u).wait = some w') (granted : Granted cfg k u k') :
      Transfer cfg k l w timeout false (preemptsCurrent k u k') k'
  | waits (t : TaskRef) (runs : k.Runs t) (unwanted : waitListPeek k.waitLists l = none) (finite : timeout ≠ noWait) :
      Transfer cfg k l w timeout true false (k.startWait cfg t w (timeoutTicks timeout))

def Fresh (s : System) (l : WaitListRef) : Prop :=
  ∀ u, waitListPeek s.kernel.waitLists l = some u → s.kernel.timeoutList.lists.host u ≠ some .expired

section

variable {cfg : Config} {s : System}

theorem GiveEffect.transfer {x : SemaphoreRef} {s₁ : System} {woken : Bool} {status : Status}
    (h : GiveEffect cfg s x s₁ woken status) (w : Wait) (timeout : Tick) :
    Transfer cfg s.kernel (.semaphore x) w timeout false woken s₁.kernel := by
  cases h with
  | served u k hfirst hwait hgranted => exact .served u _ k hfirst hwait hgranted
  | counted hnone => exact .same hnone
  | full hnone => exact .same hnone

theorem SendEffect.transfer {sender : Option TaskRef}
    {r : QueueResult} (h : SendEffect cfg s q item timeout sender r) :
    Transfer cfg s.kernel (.queueReceive q) (.queueSend q item) timeout r.blocked r.woken r.system.kernel := by
  cases h with
  | served u b k hfirst hwait hgranted => exact .served u _ k hfirst hwait hgranted
  | stored hnone => exact .same hnone
  | waits t hruns _ hnone _ hfinite => exact .waits t hruns hnone hfinite
  | full hnone => exact .same hnone

theorem ReceiveEffect.transfer {receiver : Option TaskRef}
    {r : QueueResult} (h : ReceiveEffect cfg s q item timeout receiver r) :
    Transfer cfg s.kernel (.queueSend q) (.queueReceive q item) timeout r.blocked r.woken r.system.kernel := by
  cases h with
  | taken _ hnone => exact .same hnone
  | refilled u b k _ hfirst hwait hgranted => exact .served u _ k hfirst hwait hgranted
  | direct u b k _ hfirst hwait hgranted => exact .served u _ k hfirst hwait hgranted
  | waits t hruns _ _ hnone hfinite => exact .waits t hruns hnone hfinite
  | empty _ hnone => exact .same hnone

theorem Transfer.not_blocked {k' : Kernel} {l : WaitListRef} {blocked woken : Bool}
    (h : Transfer cfg k l w noWait blocked woken k') : blocked = false := by
  cases h with
  | waits t _ _ hfinite => exact absurd rfl hfinite
  | _ => rfl

theorem Kernel.Good.granted {k' : Kernel} (g : k.Good cfg) (h : Granted cfg k u k')
    (g' : k'.Sound cfg) : k'.Good cfg := h.woken.good g' (fun v _ hv => g.delays v hv)

theorem kernelUnblockWaiter_granted (g : k.Good cfg) (ms : Mutexes)
    (hw : (k.tasks u).wait ≠ none) (hx : k.timeoutList.lists.host u ≠ some .expired) :
    ∃ k', kernelUnblockWaiter cfg ms k u .ok = (k', preemptsCurrent k u k', .ok) ∧ Granted cfg k u k' ∧
      k'.Good cfg := by
  have hm : (k.tasks u).magic = true := (g.shape u).magic_of_wait hw
  obtain ⟨k', he, g', hwoken, heff, hlists⟩ := kernelMakeTaskReady_grant ms .ok g.toSound (by simp) hw hx
  have hqueues : k.Requeued (· = u) k' := by
    have hmoved := @kernelMakeTaskReady_requeued cfg ms k u .ok (by simp)
    rwa [he] at hmoved
  have hgranted : Granted cfg k u k' := ⟨hwoken, heff, hlists, hqueues⟩
  exact ⟨k', by simp [kernelUnblockWaiter, taskIsValid, hm, he, preemptsCurrent], hgranted, g.granted hgranted g'⟩

theorem Shape.wait_of_semaphore (h : Shape cfg v) {x : SemaphoreRef}
    (hw : v.waitHost = some (.semaphore x)) : v.cb.wait = some (.semaphoreTake x) := by
  rw [h.waitHost_eq] at hw
  cases hc : v.cb.wait with
  | none => simp [hc] at hw
  | some w => cases w <;> simp_all [Wait.waitList]

theorem Shape.wait_of_queueSend (h : Shape cfg v)
    (hw : v.waitHost = some (.queueSend q)) : ∃ b, v.cb.wait = some (.queueSend q b) := by
  rw [h.waitHost_eq] at hw
  cases hc : v.cb.wait with
  | none => simp [hc] at hw
  | some w => cases w <;> simp_all [Wait.waitList]

theorem Shape.wait_of_queueReceive (h : Shape cfg v)
    (hw : v.waitHost = some (.queueReceive q)) : ∃ b, v.cb.wait = some (.queueReceive q b) := by
  rw [h.waitHost_eq] at hw
  cases hc : v.cb.wait with
  | none => simp [hc] at hw
  | some w => cases w <;> simp_all [Wait.waitList]

theorem semaphoreGiveLocked_effect (g : s.kernel.Good cfg) (x : SemaphoreRef)
    (hfresh : Fresh s (.semaphore x)) :
    GiveEffect cfg s x (semaphoreGiveLocked cfg s x).1 (semaphoreGiveLocked cfg s x).2.1
        (semaphoreGiveLocked cfg s x).2.2 ∧
      (semaphoreGiveLocked cfg s x).1.kernel.Good cfg := by
  cases hpeek : waitListPeek s.kernel.waitLists (.semaphore x) with
  | none =>
    by_cases hspace : (s.semaphores x).maxCount ≤ (s.semaphores x).count
    · simp only [semaphoreGiveLocked, hpeek, hspace, ↓reduceIte]
      exact ⟨.full hpeek hspace, g⟩
    · simp only [semaphoreGiveLocked, hpeek, hspace, ↓reduceIte]
      exact ⟨.counted hpeek (not_le.mp hspace), g⟩
  | some u =>
    have hw : (s.kernel.tasks u).wait = some (.semaphoreTake x) :=
      (g.shape u).wait_of_semaphore (waitListPeek_host _ hpeek)
    obtain ⟨k', he, hgranted, g'⟩ :=
      kernelUnblockWaiter_granted g s.mutexes (u := u) (by simp [hw]) (hfresh u hpeek)
    simp only [semaphoreGiveLocked, hpeek, he, ne_eq, not_true_eq_false, ↓reduceIte]
    exact ⟨.served u k' hpeek hw hgranted, g'⟩

theorem semaphoreTake_effect (g : s.kernel.Good cfg) (inIsr : Bool)
    (hcaller : inIsr = false → s.kernel.state = .running → ∃ t, s.kernel.Runs t) (semaphore : Option SemaphoreRef)
    (timeout : Tick) :
    (∃ status, status ≠ .ok ∧ semaphoreTake cfg s inIsr semaphore timeout = (s, .returned status)) ∨
    ∃ x, semaphore = some x ∧ (s.semaphores x).magic = true ∧ inIsr = false ∧
      TakeEffect cfg s x timeout (s.caller inIsr) (semaphoreTake cfg s inIsr semaphore timeout).1
        (semaphoreTake cfg s inIsr semaphore timeout).2 ∧
      (semaphoreTake cfg s inIsr semaphore timeout).1.kernel.Good cfg := by
  cases semaphore with
  | none => exact Or.inl ⟨.invalidArgument, by simp, rfl⟩
  | some x =>
    cases hv : semaphoreIsValid s x with
    | false => exact Or.inl ⟨.invalidArgument, by simp, by simp [semaphoreTake, hv]⟩
    | true =>
    have hm : (s.semaphores x).magic = true := by
      simp only [semaphoreIsValid, Bool.and_eq_true] at hv
      exact hv.1.1
    cases inIsr with
    | true => exact Or.inl ⟨.fromIsr, by simp, by simp [semaphoreTake, hv]⟩
    | false =>
    by_cases hk : timeout ≠ noWait ∧ s.kernel.state ≠ .running
    · exact Or.inl ⟨.invalidState, by simp, by simp [semaphoreTake, hv, kernelIsRunning, hk]⟩
    have hk' : (timeout ≠ noWait && !kernelIsRunning s.kernel : Bool) = false := by
      simpa [kernelIsRunning] using hk
    by_cases hcount : 0 < (s.semaphores x).count
    · refine Or.inr ⟨x, rfl, hm, rfl, ?_⟩
      have heq : semaphoreTake cfg s false (some x) timeout =
          ((s.updateSemaphore x (fun cb => { cb with count := cb.count - 1 })).record [.taken x (s.caller false)],
            .returned .ok) := by
        simp only [semaphoreTake, hv, hk', hcount, Bool.not_true, Bool.false_eq_true, ↓reduceIte]
        rfl
      rw [heq]
      exact ⟨.counted hcount, g⟩
    · by_cases h0 : timeout = noWait
      · exact Or.inl ⟨.semaphoreEmpty, by simp, by simp [semaphoreTake, hv, hcount, h0]⟩
      · have hrun : s.kernel.state = .running := by
          by_contra hne
          exact hk ⟨h0, hne⟩
        obtain ⟨t, hruns⟩ := hcaller rfl hrun
        have hblock : kernelBlockCurrentOnWaitListEx cfg s.kernel (.semaphore x) (.semaphore x) .semaphoreTake none
            timeout none = (s.kernel.startWait cfg t (.semaphoreTake x) (timeoutTicks timeout), .ok) :=
          kernelBlockCurrentOnWaitListEx_eq g.toSound hruns.state hruns.current hruns.running hruns.idle
            (w := .semaphoreTake x) rfl h0
        have heq : semaphoreTake cfg s false (some x) timeout =
            ({ s with
                kernel := requestContextSwitch (s.kernel.startWait cfg t (.semaphoreTake x) (timeoutTicks timeout)) },
              .blocked) := by
          simp [semaphoreTake, hv, kernelIsRunning, hrun, hcount, h0, hruns.current, hblock]
        refine Or.inr ⟨x, rfl, hm, rfl, ?_⟩
        rw [heq]
        refine ⟨.waits t hruns hm (by omega) h0, ?_⟩
        exact (g.startWait hruns.running hruns.idle _ _ (timeoutTicks_spec h0) (by simp)).bookkept
          (Kernel.calm_requestContextSwitch _).bookkept

theorem waitListIsEmpty_eq (w : WaitLists WaitListRef TaskRef) (l : WaitListRef) :
    waitListIsEmpty w l = (waitListPeek w l).isNone := by
  cases h : waitListPeek w l with
  | none => simp [waitListIsEmpty, listIsEmpty, (waitListPeek_eq_none w l).mp h]
  | some n =>
    obtain ⟨xs, hx⟩ := (waitListPeek_eq_some w l n).mp h
    simp [waitListIsEmpty, listIsEmpty, hx]

theorem queueBlock_eq (g : s.kernel.Good cfg) {t : TaskRef} (hruns : s.kernel.Runs t) {l : WaitListRef}
    (hl : w.waitList = some l) (hobj : w.object = .queue q)
    (hbuffer : w.buffer = some item) (hclean : w.cleanup = none) (h0 : timeout ≠ noWait) :
    queueBlock cfg s l q w.kind item timeout =
        ⟨{ s with kernel := s.kernel.startWait cfg t w (timeoutTicks timeout) }, true, false, .ok⟩ ∧
      (s.kernel.startWait cfg t w (timeoutTicks timeout)).Good cfg := by
  have hblock := kernelBlockCurrentOnWaitListEx_eq g.toSound hruns.state hruns.current hruns.running hruns.idle hl h0
  rw [hobj, hbuffer, hclean] at hblock
  refine ⟨by simp [queueBlock, hruns.current, kernelBlockCurrentOnWaitList, hblock], ?_⟩
  apply g.startWait hruns.running hruns.idle _ _ (timeoutTicks_spec h0)
  rintro rfl
  simp [Wait.waitList] at hl

def MayBlock (s : System) (timeout : Tick) (allowBlock : Bool) : Prop :=
  timeout ≠ noWait → allowBlock = true ∧ ∃ t, s.kernel.Runs t

structure Queued (k : Kernel) (u : TaskRef) (w : Wait) (q : QueueRef) (b : BufferRef) : Prop where
  wait : (k.tasks u).wait = some w
  magic : (k.tasks u).magic = true
  kind : (k.tasks u).waitKind = w.kind
  object : (k.tasks u).waitingObject = some (.queue q)
  buffer : (k.tasks u).waitBuffer = some b

theorem Kernel.Sound.queued {b : BufferRef} (g : k.Sound cfg)
    (hw : (k.tasks u).wait = some w) (hobject : w.object = .queue q) (hbuffer : w.buffer = some b) :
    Queued k u w q b := by
  have hview : (k.view u).cb.wait = some w := hw
  have hrec := (g.shape u).records
  rw [hview] at hrec
  exact ⟨hw, (g.shape u).magic_of_wait (by simp [hview]), hrec.kind, hobject ▸ hrec.object,
    hbuffer ▸ hrec.buffer⟩

theorem queueSendLocked_effect (g : s.kernel.Good cfg) (hm : (s.queues q).magic = true)
    (item : BufferRef) (timeout : Tick) (allowBlock : Bool) (hblock : MayBlock s timeout allowBlock)
    (hfresh : Fresh s (.queueReceive q)) (sender : Option TaskRef) :
    SendEffect cfg s q item timeout sender (queueSendLocked cfg s q item timeout allowBlock sender) ∧
      (queueSendLocked cfg s q item timeout allowBlock sender).system.kernel.Good cfg := by
  cases hpeek : waitListPeek s.kernel.waitLists (.queueReceive q) with
  | some u =>
    obtain ⟨b, hw⟩ := (g.shape u).wait_of_queueReceive (waitListPeek_host _ hpeek)
    obtain ⟨hwv, hmu, hkind, hobj, hbuf⟩ := g.queued hw rfl rfl
    obtain ⟨k', he, hgranted, g'⟩ :=
      kernelUnblockWaiter_granted g s.mutexes (u := u) (by simp [hwv]) (hfresh u hpeek)
    have heq : queueSendLocked cfg s q item timeout allowBlock sender =
        ⟨{ (s.copyBuffer b item (s.queues q).itemSize).record
              [.accepted q sender (itemBytes (s.memory item) 0 (s.queues q).itemSize),
                .delivered q (some u) (itemBytes (s.memory item) 0 (s.queues q).itemSize)] with kernel := k' },
          false, preemptsCurrent s.kernel u k', .ok⟩ := by
      simp [queueSendLocked, waitListIsEmpty_eq, hpeek, queueWakeReceiver, queueWaiterTask, taskIsValid, hmu, hbuf,
        hkind, Wait.kind, hobj, System.unblock, System.copyBuffer, System.record, he, queueResult]
    rw [heq]
    exact ⟨.served u b k' hpeek hwv hgranted, g'⟩
  | none =>
    by_cases hspace : (s.queues q).count < (s.queues q).capacity
    · have heq : queueSendLocked cfg s q item timeout allowBlock sender =
          ⟨(queueEnqueue s q item).record [.accepted q sender (itemBytes (s.memory item) 0 (s.queues q).itemSize)],
            false, false, .ok⟩ := by
        simp [queueSendLocked, waitListIsEmpty_eq, hpeek, hspace]
      rw [heq]
      exact ⟨.stored hpeek hspace, g⟩
    · by_cases h0 : timeout = noWait
      · have heq : queueSendLocked cfg s q item timeout allowBlock sender = ⟨s, false, false, .queueFull⟩ := by
          simp [queueSendLocked, waitListIsEmpty_eq, hpeek, hspace, h0]
        rw [heq]
        exact ⟨.full hpeek (not_lt.mp hspace) h0, g⟩
      · obtain ⟨hallow, t, hruns⟩ := hblock h0
        obtain ⟨hb, g'⟩ := queueBlock_eq g hruns (w := .queueSend q item) rfl rfl rfl rfl h0
        have heq : queueSendLocked cfg s q item timeout allowBlock sender =
            ⟨{ s with kernel := s.kernel.startWait cfg t (.queueSend q item) (timeoutTicks timeout) }, true, false,
              .ok⟩ := by
          simpa [queueSendLocked, waitListIsEmpty_eq, hpeek, hspace, h0, hallow, Wait.kind] using hb
        rw [heq]
        exact ⟨.waits t hruns hm hpeek (not_lt.mp hspace) h0, g'⟩

theorem queueReceiveLocked_effect (g : s.kernel.Good cfg) (hvalid : queueIsValid s q = true)
    (item : BufferRef) (timeout : Tick) (allowBlock : Bool) (hblock : MayBlock s timeout allowBlock)
    (hfresh : Fresh s (.queueSend q)) (receiver : Option TaskRef) :
    ReceiveEffect cfg s q item timeout receiver (queueReceiveLocked cfg s q item timeout allowBlock receiver) ∧
      (queueReceiveLocked cfg s q item timeout allowBlock receiver).system.kernel.Good cfg := by
  simp only [queueIsValid, Bool.and_eq_true, decide_eq_true_eq] at hvalid
  obtain ⟨⟨⟨⟨⟨hm, hsize⟩, hcap⟩, hle⟩, hhead⟩, htail⟩ := hvalid
  cases hpeek : waitListPeek s.kernel.waitLists (.queueSend q) with
  | some u =>
    obtain ⟨b, hw⟩ := (g.shape u).wait_of_queueSend (waitListPeek_host _ hpeek)
    obtain ⟨hwv, hmu, hkind, hobj, hbuf⟩ := g.queued hw rfl rfl
    obtain ⟨k', he, hgranted, g'⟩ :=
      kernelUnblockWaiter_granted g s.mutexes (u := u) (by simp [hwv]) (hfresh u hpeek)
    by_cases hcount : 0 < (s.queues q).count
    · have heq : queueReceiveLocked cfg s q item timeout allowBlock receiver =
          ⟨{ ((queueEnqueue ((queueDequeue s q item).record [.delivered q receiver (queueFront (s.queues q))])
            q b).record
              [.accepted q (some u) (itemBytes ((queueDequeue s q item).memory b) 0 (s.queues q).itemSize)]) with
            kernel := k' },
          false, preemptsCurrent s.kernel u k', .ok⟩ := by
        have hroom : ¬ (s.queues q).capacity ≤ (s.queues q).count - 1 := by omega
        simp [queueReceiveLocked, hcount, queueFillFromWaitingSender, queueDequeue, System.record, System.updateQueue,
          hpeek, queueWaiterTask, taskIsValid, hmu, hbuf, hkind, Wait.kind, hobj, hroom, System.unblock,
            queueEnqueue, he,
          queueResult, queueFront]
      rw [heq]
      exact ⟨.refilled u b k' hcount hpeek hwv hgranted, g'⟩
    · have heq : queueReceiveLocked cfg s q item timeout allowBlock receiver =
          ⟨{ (s.copyBuffer item b (s.queues q).itemSize).record
              [.accepted q (some u) (itemBytes (s.memory b) 0 (s.queues q).itemSize),
                .delivered q receiver (itemBytes (s.memory b) 0 (s.queues q).itemSize)] with kernel := k' },
          false, preemptsCurrent s.kernel u k', .ok⟩ := by
        simp [queueReceiveLocked, hcount, hpeek, queueWaiterTask, taskIsValid, hmu, hbuf, System.unblock,
          System.copyBuffer, System.record, he, queueResult]
      rw [heq]
      exact ⟨.direct u b k' (by omega) hpeek hwv hgranted, g'⟩
  | none =>
    by_cases hcount : 0 < (s.queues q).count
    · have heq : queueReceiveLocked cfg s q item timeout allowBlock receiver =
          ⟨(queueDequeue s q item).record [.delivered q receiver (queueFront (s.queues q))], false, false,
            .ok⟩ := by
        simp [queueReceiveLocked, hcount, queueFillFromWaitingSender, queueDequeue, System.record, System.updateQueue,
          hpeek, queueResult, queueFront]
      rw [heq]
      exact ⟨.taken hcount hpeek, g⟩
    · by_cases h0 : timeout = noWait
      · have heq : queueReceiveLocked cfg s q item timeout allowBlock receiver =
            ⟨s, false, false, .queueEmpty⟩ := by
          simp [queueReceiveLocked, hcount, hpeek, h0]
        rw [heq]
        exact ⟨.empty (by omega) hpeek h0, g⟩
      · obtain ⟨hallow, t, hruns⟩ := hblock h0
        obtain ⟨hb, g'⟩ := queueBlock_eq g hruns (w := .queueReceive q item) rfl rfl rfl rfl h0
        have heq : queueReceiveLocked cfg s q item timeout allowBlock receiver =
            ⟨{ s with kernel := s.kernel.startWait cfg t (.queueReceive q item) (timeoutTicks timeout) }, true, false,
              .ok⟩ := by
          simpa [queueReceiveLocked, hcount, hpeek, h0, hallow, Wait.kind] using hb
        rw [heq]
        exact ⟨.waits t hruns hm (by omega) hpeek h0, g'⟩

end

end Hairtos

import Hairtos.Invariant.Turn

namespace Hairtos

open Library

def Event.isExchange : Event → Bool
  | .accepted _ _ _ => true
  | .delivered _ _ _ => true
  | _ => false

def System.exchanges (s : System) : List Event := s.history.filter Event.isExchange

structure Apart (s s' : System) : Prop where
  queues : s'.queues = s.queues
  memory : s'.memory = s.memory
  exchanges : s'.exchanges = s.exchanges

def Call.usesQueue : Call → Bool
  | .queueCreateStatic _ _ _ _ => true
  | .queueSend _ _ _ => true
  | .queueReceive _ _ _ => true
  | .queueSendFromIsr _ _ => true
  | .queueReceiveFromIsr _ _ => true
  | _ => false

section

variable {cfg : Config} {s s' s'' : System}

theorem Apart.refl (s : System) : Apart s s := ⟨rfl, rfl, rfl⟩

theorem Apart.trans (h : Apart s s') (h' : Apart s' s'') : Apart s s'' :=
  ⟨h'.queues.trans h.queues, h'.memory.trans h.memory, h'.exchanges.trans h.exchanges⟩

theorem Apart.of_eq (hqueues : s'.queues = s.queues) (hmemory : s'.memory = s.memory)
    (hhistory : s'.history = s.history) : Apart s s' :=
  ⟨hqueues, hmemory, by rw [System.exchanges, hhistory, System.exchanges]⟩

theorem Apart.of_history {events : List Event} (hqueues : s'.queues = s.queues) (hmemory : s'.memory = s.memory)
    (hhistory : s'.history = s.history ++ events) (hevents : events.filter Event.isExchange = []) : Apart s s' :=
  ⟨hqueues, hmemory, by simp only [System.exchanges, hhistory, List.filter_append, hevents, List.append_nil]⟩

theorem GiveEffect.apart {x : SemaphoreRef} {woken : Bool} {status : Status} (h : GiveEffect cfg s x s' woken status) :
    Apart s s' := by
  cases h with
  | served u k => exact .of_history rfl rfl rfl (by rfl)
  | counted => exact .of_history rfl rfl rfl (by rfl)
  | full => exact .refl s

theorem TakeEffect.apart {x : SemaphoreRef} {timeout : Tick} {caller : Option TaskRef} {outcome : Outcome}
    (h : TakeEffect cfg s x timeout caller s' outcome) : Apart s s' := by
  cases h with
  | counted => exact .of_history rfl rfl rfl (by rfl)
  | waits t => exact .of_eq rfl rfl rfl

theorem LockEffect.apart {m : MutexRef} {timeout : Tick} {outcome : Outcome}
    (h : LockEffect cfg s m timeout s' outcome) : Apart s s' := by
  cases h with
  | acquired => exact .of_history rfl rfl rfl (by rfl)
  | _ => exact .of_eq rfl rfl rfl

theorem UnlockEffect.apart {m : MutexRef} {t : TaskRef} (h : UnlockEffect cfg s m t s') : Apart s s' := by
  cases h with
  | handed => exact .of_history rfl rfl rfl (by rfl)
  | _ => exact .of_eq rfl rfl rfl

theorem Bringup.apart (h : Relation.ReflTransGen (Bringup cfg) s s') : Apart s s' := by
  induction h with
  | refl => exact .refl s
  | tail _ hlast ih =>
    refine ih.trans ?_
    cases hlast with
    | signal => exact .of_history rfl rfl rfl (by rfl)
    | _ => exact .of_eq rfl rfl rfl

theorem CallEffect.apart {inIsr : Bool} {c : Call} {r : CallResult} (he : CallEffect cfg s inIsr c r)
    (hc : c.usesQueue = false) : Apart s r.system := by
  cases he with
  | createQueue | send | receive | sendFromIsr | receiveFromIsr => simp [Call.usesQueue] at hc
  | createSemaphore => exact .of_history rfl rfl rfl (by rfl)
  | take n timeout s₁ outcome _ _ heffect => exact heffect.apart
  | give n s₁ woken status _ _ heffect => exact heffect.apart.trans (.of_eq rfl rfl rfl)
  | giveFromIsr n s₁ woken status _ _ heffect => exact heffect.apart
  | lock m timeout s₁ outcome _ heffect => exact heffect.apart
  | unlock m t s₁ _ _ _ heffect => exact heffect.apart
  | createTimer t name period autoReload callback s₁ status hpath => exact Bringup.apart hpath
  | _ => exact .of_eq rfl rfl rfl

theorem ServiceEffect.apart (he : ServiceEffect cfg s s') : Apart s s' := by
  cases he with
  | takes s₁ outcome phase _ _ _ heffect => exact heffect.apart.trans (.of_eq rfl rfl rfl)
  | _ => exact .of_eq rfl rfl rfl

theorem TimerTick.apart {woken : Bool} (h : TimerTick cfg s s' woken) : Apart s s' := by
  cases h with
  | silent timers => exact .of_eq rfl rfl rfl
  | signals timers s' woken status heffect =>
    have hgive := heffect.apart
    exact ⟨hgive.queues, hgive.memory, hgive.exchanges⟩

def Op.usesQueue : Op → Bool
  | .task c => c.usesQueue
  | .isr c _ => c.usesQueue
  | .writeBuffer _ _ => true
  | _ => false

theorem step_apart (hs : s.Steady cfg) {op : Op} (hop : op.usesQueue = false) : Apart s (step cfg s op) := by
  have he := step_effect hs.good hs.quiet op
  generalize step cfg s op = s' at he ⊢
  cases he with
  | task c r _ _ _ heffect => exact heffect.apart hop
  | isr c honoured r k _ _ heffect => exact (heffect.apart hop).trans (.of_eq rfl rfl rfl)
  | service s' _ _ heffect => exact heffect.apart
  | tick tl order k s₃ woken c hrun =>
    have htimers : Apart { s with kernel := k } s₃ := hrun.timers.apart
    exact ⟨htimers.queues, htimers.memory, htimers.exchanges⟩
  | writeBuffer => simp [Op.usesQueue] at hop
  | _ => exact .of_eq rfl rfl rfl

end

end Hairtos

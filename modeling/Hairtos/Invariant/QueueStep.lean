import Hairtos.Invariant.Frame

namespace Hairtos

open Library

def Op.sendOk (cfg : Config) (s : System) : Op → Option (QueueRef × BufferRef × Option TaskRef)
  | .task (.queueSend (some q) (some b) timeout) =>
    if canCall s && decide ((queueSend cfg s false (some q) (some b) timeout).2 = .returned .ok) then
      some (q, b, s.kernel.currentTask)
    else none
  | .isr (.queueSendFromIsr (some q) (some b)) _ =>
    if s.kernel.state ≠ .panic && (queueSendFromIsr cfg s true (some q) (some b)).2.2 = .ok then some (q, b, none)
    else none
  | _ => none

def Op.receiveOk (cfg : Config) (s : System) : Op → Option (QueueRef × BufferRef × Option TaskRef)
  | .task (.queueReceive (some q) (some b) timeout) =>
    if canCall s && decide ((queueReceive cfg s false (some q) (some b) timeout).2 = .returned .ok) then
      some (q, b, s.kernel.currentTask)
    else none
  | .isr (.queueReceiveFromIsr (some q) (some b)) _ =>
    if s.kernel.state ≠ .panic && (queueReceiveFromIsr cfg s true (some q) (some b)).2.2 = .ok then some (q, b, none)
    else none
  | _ => none

def QueueResult.returns (r : QueueResult) (q : QueueRef) (b : BufferRef) (caller : Option TaskRef) :
    Option (QueueRef × BufferRef × Option TaskRef) :=
  if r.blocked = false ∧ r.status = .ok then some (q, b, caller) else none

inductive QueueStep (cfg : Config) (s : System) (op : Op) : System → Prop
  | apart {s' : System} (apart : Apart s s') (sends : op.sendOk cfg s = none) (receives : op.receiveOk cfg s = none) :
      QueueStep cfg s op s'
  | write (b : BufferRef) (content : Nat → UInt8) (hop : op = .writeBuffer b content) :
      QueueStep cfg s op { s with memory := Function.update s.memory b content }
  | create (q : QueueRef) (storage : Nat → UInt8) (itemSize capacity : Nat) (fresh : (s.queues q).magic = false)
      (k : Kernel) (calm : s.kernel.Calm k) (sends : op.sendOk cfg s = none) (receives : op.receiveOk cfg s = none) :
      QueueStep cfg s op
        { s.updateQueue q (fun _ =>
            { magic := true, storage := storage, itemSize := itemSize, capacity := capacity }) with kernel := k }
  | send (q : QueueRef) (b : BufferRef) (timeout : Tick) (sender : Option TaskRef) (r : QueueResult) (k : Kernel)
      (caller : ∀ t, sender = some t → s.kernel.Runs t) (valid : queueIsValid s q = true)
      (effect : SendEffect cfg s q b timeout sender r) (calm : r.system.kernel.Calm k)
      (sends : op.sendOk cfg s = r.returns q b sender) (receives : op.receiveOk cfg s = none) :
      QueueStep cfg s op { r.system with kernel := k }
  | receive (q : QueueRef) (b : BufferRef) (timeout : Tick) (receiver : Option TaskRef) (r : QueueResult) (k : Kernel)
      (caller : ∀ t, receiver = some t → s.kernel.Runs t) (valid : queueIsValid s q = true)
      (effect : ReceiveEffect cfg s q b timeout receiver r) (calm : r.system.kernel.Calm k)
      (sends : op.sendOk cfg s = none) (receives : op.receiveOk cfg s = r.returns q b receiver) :
      QueueStep cfg s op { r.system with kernel := k }

section

variable {cfg : Config} {s : System}

theorem QueueResult.finish_returned (r : QueueResult) :
    r.finish.2 = .returned .ok ↔ r.blocked = false ∧ r.status = .ok := by
  unfold QueueResult.finish
  cases r.blocked <;> simp

theorem Op.sendOk_eq_none {op : Op} (h : op.usesQueue = false) : op.sendOk cfg s = none := by
  unfold Op.sendOk
  split
  · simp [Op.usesQueue, Call.usesQueue] at h
  · simp [Op.usesQueue, Call.usesQueue] at h
  · rfl

theorem Op.receiveOk_eq_none {op : Op} (h : op.usesQueue = false) : op.receiveOk cfg s = none := by
  unfold Op.receiveOk
  split
  · simp [Op.usesQueue, Call.usesQueue] at h
  · simp [Op.usesQueue, Call.usesQueue] at h
  · rfl

theorem task_ok_eq_none {c : Call} (h : canCall s = true → (call cfg s false c).outcome ≠ .returned .ok) :
    Op.sendOk cfg s (.task c) = none ∧ Op.receiveOk cfg s (.task c) = none := by
  cases c with
  | queueSend queue item timeout =>
    rcases queue with _ | q <;> rcases item with _ | b <;> simp_all [Op.sendOk, Op.receiveOk, call, outcomeResult]
  | queueReceive queue item timeout =>
    rcases queue with _ | q <;> rcases item with _ | b <;> simp_all [Op.sendOk, Op.receiveOk, call, outcomeResult]
  | _ => exact ⟨rfl, rfl⟩

theorem isr_ok_eq_none {c : Call} (h : (call cfg s true c).outcome ≠ .returned .ok) (honoured : Bool) :
    Op.sendOk cfg s (.isr c honoured) = none ∧ Op.receiveOk cfg s (.isr c honoured) = none := by
  cases c with
  | queueSendFromIsr queue item =>
    rcases queue with _ | q <;> rcases item with _ | b <;> simp_all [Op.sendOk, Op.receiveOk, call, wokenResult]
  | queueReceiveFromIsr queue item =>
    rcases queue with _ | q <;> rcases item with _ | b <;> simp_all [Op.sendOk, Op.receiveOk, call, wokenResult]
  | _ => exact ⟨rfl, rfl⟩

theorem task_queueStep (hs : s.Steady cfg) {c : Call} {r : CallResult} (hc : canCall s = true)
    (hcaller : Called s false) (heq : call cfg s false c = r) (he : CallEffect cfg s false c r)
    (hq : c.usesQueue = true) : QueueStep cfg s (.task c) r.system := by
  have houtcome := congrArg CallResult.outcome heq
  cases he with
  | refused _ status hne =>
    have hfailed : (call cfg s false c).outcome ≠ .returned .ok := by simp [heq, hne]
    obtain ⟨hsends, hreceives⟩ := task_ok_eq_none (fun _ => hfailed)
    exact .apart (.refl s) hsends hreceives
  | createQueue q storage itemSize capacity hfresh =>
    exact .create q storage itemSize capacity hfresh _ (Kernel.Calm.refl _) rfl rfl
  | send q b timeout r _ hv heffect =>
    refine .send q b timeout _ r _ (hcaller.runs hs.good) hv heffect (Kernel.calm_ite _ _) ?_ rfl
    simp only [call, outcomeResult] at houtcome
    simp only [Op.sendOk, hc, houtcome, Bool.true_and, decide_eq_true_eq, QueueResult.finish_returned,
      QueueResult.returns]
  | receive q b timeout r _ hv heffect =>
    refine .receive q b timeout _ r _ (hcaller.runs hs.good) hv heffect (Kernel.calm_ite _ _) rfl ?_
    simp only [call, outcomeResult] at houtcome
    simp only [Op.receiveOk, hc, houtcome, Bool.true_and, decide_eq_true_eq, QueueResult.finish_returned,
      QueueResult.returns]
  | control _ timers status _ hcall => cases c <;> simp_all [Call.usesQueue, Call.usesTimer]
  | _ => grind [Call.usesQueue]

theorem isr_queueStep {c : Call} {r : CallResult} {k : Kernel} {honoured : Bool} (hp : s.kernel.state ≠ .panic)
    (heq : call cfg s true c = r) (he : CallEffect cfg s true c r) (hcalm : r.system.kernel.Calm k)
    (hq : c.usesQueue = true) : QueueStep cfg s (.isr c honoured) { r.system with kernel := k } := by
  have houtcome := congrArg CallResult.outcome heq
  cases he with
  | refused _ status hne =>
    have hfailed : (call cfg s true c).outcome ≠ .returned .ok := by simp [heq, hne]
    obtain ⟨hsends, hreceives⟩ := isr_ok_eq_none hfailed honoured
    exact .apart (.of_eq rfl rfl rfl) hsends hreceives
  | createQueue q storage itemSize capacity hfresh => exact .create q storage itemSize capacity hfresh k hcalm rfl rfl
  | sendFromIsr q b r _ hv heffect =>
    refine .send q b noWait none r k (by simp) hv heffect hcalm ?_ rfl
    have hnever : r.blocked = false := heffect.transfer.not_blocked
    simp only [call, wokenResult, Outcome.returned.injEq] at houtcome
    simp [Op.sendOk, hp, houtcome, QueueResult.returns, hnever]
  | receiveFromIsr q b r _ hv heffect =>
    refine .receive q b noWait none r k (by simp) hv heffect hcalm rfl ?_
    have hnever : r.blocked = false := heffect.transfer.not_blocked
    simp only [call, wokenResult, Outcome.returned.injEq] at houtcome
    simp [Op.receiveOk, hp, houtcome, QueueResult.returns, hnever]
  | _ => grind [Call.usesQueue]

theorem step_queueStep (hs : s.Steady cfg) (op : Op) : QueueStep cfg s op (step cfg s op) := by
  by_cases hq : op.usesQueue = true
  swap
  · have hq : op.usesQueue = false := by simpa using hq
    exact .apart (step_apart hs hq) (Op.sendOk_eq_none hq) (Op.receiveOk_eq_none hq)
  have he := step_effect hs.good hs.quiet op
  generalize step cfg s op = s' at he ⊢
  cases he with
  | noTask c hc =>
    obtain ⟨hsends, hreceives⟩ := @task_ok_eq_none cfg s c (by simp [hc])
    exact .apart (.refl s) hsends hreceives
  | task c r hc heq hcaller heffect => exact task_queueStep hs hc hcaller heq heffect hq
  | isr c honoured r k hp heq heffect hcalm => exact isr_queueStep hp heq heffect hcalm hq
  | writeBuffer b content => exact .write b content rfl
  | _ => simp [Op.usesQueue] at hq

def Op.fills (b : BufferRef) : Op → Prop
  | .writeBuffer c _ => c = b
  | .task (.queueReceive _ (some c) _) => c = b
  | .isr (.queueReceiveFromIsr _ (some c)) _ => c = b
  | _ => False

theorem Op.fills_of_receiveOk {op : Op} {q : QueueRef} {b : BufferRef} {receiver : Option TaskRef}
    (h : op.receiveOk cfg s = some (q, b, receiver)) : op.fills b := by
  unfold Op.receiveOk at h
  split at h
  · split at h
    · simp_all [Op.fills]
    · simp at h
  · split at h
    · simp_all [Op.fills]
    · simp at h
  · simp at h

theorem step_memory (hs : s.Steady cfg) {op : Op} {b : BufferRef} (hne : (step cfg s op).memory b ≠ s.memory b) :
    op.fills b ∨ ∃ u q, (s.kernel.tasks u).wait = some (.queueReceive q b) ∧
      ((step cfg s op).kernel.tasks u).wait = none ∧ ((step cfg s op).kernel.tasks u).waitResult = .ok := by
  have hstep := step_queueStep hs op
  generalize step cfg s op = s' at hstep hne
  cases hstep with
  | apart hapart => exact absurd (congrFun hapart.memory b) hne
  | write c content hop =>
    left
    subst hop
    by_contra hb
    exact hne (by simp [Function.update_of_ne (Ne.symm hb)])
  | create q storage itemSize capacity => exact absurd rfl hne
  | send q c timeout sender r k hcaller hv heffect hcalm =>
    cases heffect with
    | served u d k' hfirst hwait hgranted =>
      right
      have hd : d = b := by
        by_contra hd
        exact hne (by simp [System.record, System.copyBuffer, Function.update_of_ne (Ne.symm hd)])
      subst hd
      have hends := (hgranted.woken.waitEnds hwait).aside hcalm.bookkept.aside
      exact ⟨u, q, hwait, hends.done, hends.waitResult⟩
    | _ => exact absurd rfl hne
  | receive q c timeout receiver r k hcaller hv heffect hcalm hsends hreceives =>
    have hnot : (∀ x : BufferRef, x ≠ c → r.system.memory x = s.memory x) → b = c := by
      intro hx
      by_contra hb
      exact hne (hx b hb)
    left
    cases heffect with
    | taken =>
      obtain rfl := hnot
        (fun x hx => by simp [System.record, queueDequeue, System.updateQueue, Function.update_of_ne hx])
      exact Op.fills_of_receiveOk (hreceives.trans rfl)
    | refilled u d k' =>
      obtain rfl := hnot (fun x hx => by
        simp [System.record, queueDequeue, queueEnqueue, System.updateQueue, Function.update_of_ne hx])
      exact Op.fills_of_receiveOk (hreceives.trans rfl)
    | direct u d k' =>
      obtain rfl := hnot (fun x hx => by simp [System.record, System.copyBuffer, Function.update_of_ne hx])
      exact Op.fills_of_receiveOk (hreceives.trans rfl)
    | waits t => exact absurd rfl hne
    | empty => exact absurd rfl hne

end

end Hairtos
